import TabletopDice.Proofs.Expression.Reparsing
import TabletopDice.Proofs.Expression.Spelling

/-!
Reading a spelled value. Each reader of a die group takes its own piece and the blanks
behind it, in whatever way the piece is spelled. The only numbers that are refused are
whole numbers with too many digits.
-/

namespace TabletopDice

open Text

def requireReadable (numerals : List Text) : Except Failure Unit :=
  if ∀ digits ∈ numerals, digits.length ≤ maxDigits then .ok ()
  else .error (.number .tooManyDigits)

theorem require_readable_append (left right : List Text) :
    requireReadable (left ++ right) = requireReadable left >>= fun _ => requireReadable right := by
  unfold requireReadable
  by_cases first : ∀ digits ∈ left, digits.length ≤ maxDigits
  · have rest : (∀ digits ∈ left ++ right, digits.length ≤ maxDigits) ↔
        ∀ digits ∈ right, digits.length ≤ maxDigits := by
      rw [List.forall_mem_append, and_iff_right first]
    rw [if_pos first]
    exact if_congr rest rfl rfl
  · rw [if_neg first, if_neg]
    · rfl
    · intro both
      exact first (List.forall_mem_append.mp both).1

theorem whole_number_eq (digits : Text) :
    wholeNumber digits = requireReadable [digits] >>= fun _ => pure (digitsValue digits) := by
  simp only [wholeNumber, Numeral.magnitude, requireReadable, List.forall_mem_singleton]
  split
  · rfl
  · rfl

theorem optional_number_eq (digits : Option Text) (other : Nat) :
    digits.elim (pure other) wholeNumber =
      requireReadable digits.toList >>= fun _ => pure (digits.elim other digitsValue) := by
  cases digits with
  | none => rfl
  | some digits => exact whole_number_eq digits

namespace Blanks

theorem trim_left (blanks : Blanks) : trimLeft blanks.val = [] :=
  List.dropWhile_eq_nil_iff.mpr (List.all_eq_true.mp blanks.property)

theorem trim_eq_nil (blanks : Blanks) : trim blanks.val = [] := by
  rw [trim, blanks.trim_left]
  rfl

theorem stops (blanks : Blanks) {kind : Char → Bool}
    (other : ∀ char, isBlank char = true → kind char = false) : Stops kind blanks.val := by
  intro char found
  exact other char (List.all_eq_true.mp blanks.property char (List.mem_of_mem_head? found))

theorem read_mark (blanks : Blanks) (text : Text) : readMark (blanks.val ++ text) = readMark text := by
  rw [readMark, readMark, trim_left_append blanks.property]

theorem read_die (blanks : Blanks) (text : Text) :
    DieNotation.read? (blanks.val ++ text) = DieNotation.read? text := by
  rw [DieNotation.read?, DieNotation.read?, blanks.read_mark]

theorem read_constant (blanks : Blanks) (text : Text) :
    readConstant? (blanks.val ++ text) = readConstant? text := by
  rw [readConstant?, readConstant?, trim_left_append blanks.property]

end Blanks

theorem value_chars_between (before : Blanks) {text : Text}
    (chars : ∀ char ∈ text, isValueChar char = true) (behind : Blanks) :
    ∀ char ∈ before.val ++ (text ++ behind.val), isValueChar char = true :=
  List.forall_mem_append.mpr ⟨before.value_chars,
    List.forall_mem_append.mpr ⟨chars, behind.value_chars⟩⟩

theorem limit_of_value_chars {text : Text} (chars : ∀ char ∈ text, isValueChar char = true) :
    mentionsLimit text = false := by
  have quiet : 'm' ∉ text := not_mem_of_value_chars chars (by decide)
  have silent := limit_of_labelled quiet []
  rw [labelled_nil] at silent
  exact silent

namespace NumberSpelling

/-- Neither the digits nor the point begin a die group. -/
theorem read_die (number : NumberSpelling) (behind : Blanks) :
    DieNotation.read? (number.text ++ behind.val) = none := by
  cases number with
  | whole digits =>
      have count := digits.property.span (behind.stops not_digit_of_blank)
      have bar : readBar (trimLeft behind.val) = (none, []) := by
        rw [behind.trim_left]
        rfl
      have found := DieNotation.read_is_some (DieNotation.read_mark_digits digits.property _) count bar
      exact Option.isNone_iff_eq_none.mp (Option.isSome_eq_false_iff.mp found)
  | pointed front fraction =>
      cases front with
      | some digits =>
          rw [text, List.append_assoc]
          exact DieNotation.read_point digits.property _
      | none =>
          have stops (kind : Char → Bool) (other : kind '.' = false) :
              Stops kind ('.' :: (fraction.val ++ behind.val)) := stops_cons.mpr other
          have mark := read_mark_of_stops (stops isBlank (by decide)) (stops _ rfl)
          have count := span_digits_of_stops (stops isDigit (by decide))
          have bar : readBar (trimLeft ('.' :: (fraction.val ++ behind.val))) =
              (none, '.' :: (fraction.val ++ behind.val)) := read_bar_of_stops (stops _ rfl)
          have found := DieNotation.read_is_some mark count bar
          exact Option.isNone_iff_eq_none.mp (Option.isSome_eq_false_iff.mp found)

theorem read_constant (number : NumberSpelling) (behind : Blanks) :
    readConstant? (number.text ++ behind.val) = some (number.value, []) := by
  have trimmed := behind.trim_eq_nil
  cases number with
  | whole digits =>
      have span := digits.property.span (behind.stops not_digit_of_blank)
      have noFraction : readFraction behind.val = ([], behind.val) := by
        unfold readFraction
        split
        next same =>
          have noPoint := behind.not_mem (by decide : isBlank '.' = false)
          rw [same] at noPoint
          exact absurd List.mem_cons_self noPoint
        next => rfl
      simp [readConstant?, text, digits.property.trim_left, span, noFraction, trimmed, value,
        digits.property.nonempty]
  | pointed front fraction =>
      have places := fraction.property.span (behind.stops not_digit_of_blank)
      have point : Stops isDigit ('.' :: (fraction.val ++ behind.val)) := stops_cons.mpr (by decide)
      cases front with
      | some digits =>
          simp [readConstant?, text, digits.property.trim_left, digits.property.span point,
            readFraction, places, trimmed, value, fraction.property.nonempty]
      | none =>
          have visible : trimLeft ('.' :: (fraction.val ++ behind.val)) = _ :=
            trim_left_of_stops (stops_cons.mpr (by decide))
          simp [readConstant?, text, visible, span_digits_of_stops point,
            readFraction, places, trimmed, value, fraction.property.nonempty]

theorem parse_value (number : NumberSpelling) (before behind : Blanks) (expression : Text) :
    parseValue (before.val ++ (number.text ++ behind.val)) expression =
      .ok (.constant number.value []) := by
  have silent : mentionsLimit (before.val ++ (number.text ++ behind.val)) = false :=
    limit_of_value_chars (value_chars_between before number.value_chars behind)
  have noDie := (before.read_die _).trans (number.read_die behind)
  have read := (before.read_constant _).trans (number.read_constant behind)
  exact (parse_constant_of_read noDie read ⟨rfl, .inl rfl⟩ _).mpr ⟨silent, rfl⟩

end NumberSpelling

theorem stops_append_of_stops {kind : Char → Bool} {left right : Text} (first : Stops kind left)
    (second : Stops kind right) : Stops kind (left ++ right) := by
  cases left with
  | nil => exact second
  | cons char left => exact stops_cons.mpr (stops_cons.mp first)

namespace DieSpelling

theorem stops_letter (die : DieSpelling) (rest : Text) (kind : Char → Bool)
    (small : kind 'd' = false) (capital : kind 'D' = false) : Stops kind (die.tail ++ rest) := by
  apply stops_cons.mpr
  rw [letter]
  split
  · exact capital
  · exact small

/-- The count starts with a digit; without one the letter comes first. -/
theorem read_mark (die : DieSpelling) (rest : Text) :
    readMark (die.markText ++ (die.countText ++ (die.tail ++ rest))) =
      (die.mark.isSome, die.countText ++ (die.tail ++ rest)) := by
  have front (kind : Char → Bool) (digit : ∀ char, isDigit char = true → kind char = false)
      (small : kind 'd' = false) (capital : kind 'D' = false) :
      Stops kind (die.countText ++ (die.tail ++ rest)) := by
    have letter := die.stops_letter rest kind small capital
    rw [countText]
    cases die.count with
    | none => exact letter
    | some count =>
        rw [Option.elim_some, CountSpelling.text, List.append_assoc]
        exact count.digits.property.stops digit _
  have visible := front isBlank (fun _ digit => is_visible_of_digit digit) (by decide) (by decide)
  have unmarked := front (· == '>') (fun _ digit => ne_of_digit digit (by decide)) rfl rfl
  rw [markText]
  cases die.mark with
  | none => exact read_mark_of_stops visible unmarked
  | some blanks =>
      have found : readMark ('>' :: (blanks.val ++ (die.countText ++ (die.tail ++ rest)))) =
        (true, trimLeft (blanks.val ++ (die.countText ++ (die.tail ++ rest)))) := rfl
      rw [Option.elim_some, List.cons_append, found, trim_left_append blanks.property,
        trim_left_of_stops visible, Option.isSome_some]

def afterCount (die : DieSpelling) : Text :=
  die.count.elim [] fun count => count.behind.val ++ count.fraction.elim [] FractionSpelling.text

theorem read_count (die : DieSpelling) (rest : Text) :
    spanDigits (die.countText ++ (die.tail ++ rest)) =
      (die.pieces.numerator, die.afterCount ++ (die.tail ++ rest)) := by
  have letter := die.stops_letter rest isDigit (by decide) (by decide)
  rw [countText, pieces, afterCount]
  cases die.count with
  | none => exact span_digits_of_stops letter
  | some count =>
      obtain ⟨digits, behind, fraction⟩ := count
      have noDigit : Stops isDigit (fraction.elim [] FractionSpelling.text) := by
        cases fraction with
        | none => exact stops_nil isDigit
        | some fraction => exact stops_cons.mpr (by decide)
      have stops : Stops isDigit ((behind.val ++ fraction.elim [] FractionSpelling.text) ++
          (die.tail ++ rest)) :=
        stops_append_of_stops (stops_append_of_stops (behind.stops not_digit_of_blank) noDigit) letter
      rw [Option.elim_some, CountSpelling.text, List.append_assoc]
      exact digits.property.span stops

theorem read_bar (die : DieSpelling) (rest : Text) :
    readBar (trimLeft (die.afterCount ++ (die.tail ++ rest))) =
      (die.pieces.denominator, die.tail ++ rest) := by
  have visible := trim_left_of_stops (die.stops_letter rest isBlank (by decide) (by decide))
  have noBar := read_bar_of_stops (die.stops_letter rest (· == '/') rfl rfl)
  have letter := die.stops_letter rest isDigit (by decide) (by decide)
  rw [afterCount, pieces]
  cases die.count with
  | none =>
      rw [Option.elim_none, List.nil_append, visible]
      exact noBar
  | some count =>
      obtain ⟨digits, behind, fraction⟩ := count
      rw [Option.elim_some, List.append_assoc, trim_left_append behind.property]
      cases fraction with
      | none =>
          rw [Option.elim_none, List.nil_append, visible]
          exact noBar
      | some fraction =>
          obtain ⟨before, run, blanks⟩ := fraction
          have number := read_digits_append run.property
            (stops_append_of_stops (blanks.stops not_digit_of_blank) letter)
          have bar : trimLeft ('/' :: (before.val ++ (run.val ++ (blanks.val ++ (die.tail ++ rest))))) =
              _ := trim_left_of_stops (stops_cons.mpr (by decide))
          simp only [Option.elim_some, FractionSpelling.text, List.cons_append, List.append_assoc, bar,
            readBar, readDenominator?, trim_left_append before.property, run.property.trim_left,
            number, trim_left_append blanks.property, visible]
          rfl

theorem read_letter (die : DieSpelling) (rest : Text) :
    readLetter? (die.tail ++ rest) = some (die.sidesText ++ (die.choiceText ++ rest)) := by
  have visible : Stops isBlank (die.sidesText ++ (die.choiceText ++ rest)) := by
    rw [sidesText]
    cases die.sides with
    | none => exact stops_cons.mpr (by decide)
    | some digits => exact digits.val.property.stops (fun _ digit => is_visible_of_digit digit) _
  have behind : die.tail ++ rest =
      die.letter :: (die.behindLetter.val ++ (die.sidesText ++ (die.choiceText ++ rest))) := by
    simp only [tail, List.cons_append, List.append_assoc]
  have trimmed := trim_left_append die.behindLetter.property (die.sidesText ++ (die.choiceText ++ rest))
  rw [behind, letter]
  split
  · rw [readLetter?, trimmed, trim_left_of_stops visible]
  · rw [readLetter?, trimmed, trim_left_of_stops visible]

theorem read_sides (die : DieSpelling) (behind : Blanks) :
    readSides? (die.sidesText ++ (die.choiceText ++ behind.val)) =
      some (die.pieces.sides, die.choiceText ++ behind.val) := by
  have stops : Stops isDigit (die.choiceText ++ behind.val) := by
    apply stops_append_of_stops _ (behind.stops not_digit_of_blank)
    rw [choiceText]
    cases die.choice with
    | none => exact stops_nil isDigit
    | some choice =>
        apply stops_append_of_stops (choice.before.stops not_digit_of_blank)
        rw [ChoiceSpelling.word]
        split
        · exact stops_cons.mpr (by decide)
        · exact stops_cons.mpr (by decide)
  rw [sidesText, pieces]
  cases die.sides with
  | none => rfl
  | some digits => exact read_sides_digits digits.val.property stops

theorem read_choice (choice : ChoiceSpelling) (behind : Blanks) :
    readChoice? (trimLeft (choice.text ++ behind.val)) =
      some ((choice.best, choice.attempts.val.val), behind.val) := by
  let counted := choice.behindOf.val ++ (choice.attempts.val.val ++ behind.val)
  let joined := choice.behindWord.val ++ ("of".toList ++ counted)
  have front : trimLeft (choice.text ++ behind.val) = choice.word ++ joined := by
    simp only [ChoiceSpelling.text, List.append_assoc, trim_left_append choice.before.property]
    apply trim_left_of_stops
    rw [ChoiceSpelling.word]
    split
    · exact stops_cons.mpr (by decide)
    · exact stops_cons.mpr (by decide)
  have word : readChoiceWord? (choice.word ++ joined) = some (choice.best, joined) := by
    rw [ChoiceSpelling.word]
    cases choice.best with
    | true => rfl
    | false => rfl
  have behindWord : trimLeft joined = "of".toList ++ counted := by
    rw [trim_left_append choice.behindWord.property]
    rfl
  have behindOf : trimLeft counted = choice.attempts.val.val ++ behind.val := by
    rw [trim_left_append choice.behindOf.property, choice.attempts.val.property.trim_left]
  have number := read_digits_append choice.attempts.val.property (behind.stops not_digit_of_blank)
  simp only [front, readChoice?, word, Option.bind_eq_bind, Option.bind_some, behindWord,
    after_append, behindOf, number]

theorem read_attempts (die : DieSpelling) (behind : Blanks) :
    ∃ rest, readAttempts (trimLeft (die.choiceText ++ behind.val)) = (die.pieces.choice, rest) ∧
      trim rest = [] := by
  rw [choiceText, pieces]
  cases die.choice with
  | none =>
      rw [Option.elim_none, List.nil_append, behind.trim_left]
      exact ⟨[], rfl, rfl⟩
  | some choice =>
      refine ⟨behind.val, ?_, behind.trim_eq_nil⟩
      rw [Option.elim_some, readAttempts, read_choice choice behind]
      rfl

theorem read (die : DieSpelling) (before behind : Blanks) :
    DieNotation.read? (before.val ++ (die.text ++ behind.val)) = some die.pieces := by
  have cut : die.text ++ behind.val =
      die.markText ++ (die.countText ++ (die.tail ++ behind.val)) := by
    simp only [text, List.append_assoc]
  obtain ⟨rest, attempts, noLabel⟩ := die.read_attempts behind
  rw [before.read_die, cut, DieNotation.read_eq (die.read_mark _) (die.read_count _) (die.read_bar _)
    (die.read_letter _) (die.read_sides behind), attempts, noLabel]
  rfl

theorem positive_sides (die : DieSpelling) : die.pieces.sides.elim 100 digitsValue ≠ 0 := by
  rw [pieces]
  cases die.sides with
  | none => exact (by decide : 100 ≠ 0)
  | some digits => exact digits.property

theorem positive_attempts (die : DieSpelling) :
    (die.pieces.choice.map Prod.snd).elim 1 digitsValue ≠ 0 := by
  rw [pieces]
  cases die.choice with
  | none => exact (by decide : 1 ≠ 0)
  | some choice => exact choice.attempts.property

theorem read_numerator (die : DieSpelling) :
    die.pieces.count = requireReadable (die.count.map fun count => count.digits.val).toList >>=
      fun _ => pure (die.count.elim 1 fun count => digitsValue count.digits.val) := by
  rw [DieNotation.count, pieces]
  cases die.count with
  | none => rfl
  | some count =>
      rw [if_neg (by simpa using count.digits.property.nonempty)]
      exact whole_number_eq count.digits.val

theorem numerals_eq (die : DieSpelling) :
    die.numerals = die.pieces.sides.toList ++ (die.pieces.choice.map Prod.snd).toList ++
      (die.count.map fun count => count.digits.val).toList ++ die.pieces.denominator.toList := by
  rw [numerals, pieces]
  cases die.choice with
  | none => rfl
  | some choice => rfl

theorem group_eq (die : DieSpelling) :
    die.group = {
      sides := (die.pieces.sides.elim 100 digitsValue : Nat)
      numerator := (die.count.elim 1 fun count => digitsValue count.digits.val : Nat)
      denominator := (die.pieces.denominator.elim 0 digitsValue : Nat)
      rerolls := ((die.pieces.choice.map Prod.snd).elim 1 digitsValue : Nat) - 1
      best := die.pieces.choice.elim true Prod.fst
      initialMax := die.pieces.initialMax
      label := die.pieces.label } := by
  rw [group, pieces]
  simp only [Option.elim_map, Option.map_map]
  rfl

theorem to_group (die : DieSpelling) {part : Text} (silent : mentionsLimit part = false)
    (expression : Text) :
    die.pieces.toGroup part expression =
      requireReadable die.numerals >>= fun _ => pure die.group := by
  have attempts : die.pieces.choice.elim (pure 1) (fun choice => wholeNumber choice.2) =
      (die.pieces.choice.map Prod.snd).elim (pure 1) wholeNumber := by
    rw [pieces]
    cases die.choice with
    | none => rfl
    | some choice => rfl
  have noLabel : die.pieces.checkLabel part = pure () := rfl
  simp only [DieNotation.toGroup, silent, Bool.false_eq_true, if_false, optional_number_eq, attempts,
    bind_assoc, pure_bind, if_neg die.positive_sides, if_neg die.positive_attempts, noLabel,
    read_numerator]
  rw [die.numerals_eq, require_readable_append, require_readable_append, require_readable_append,
    die.group_eq]
  simp only [bind_assoc]

theorem parse_value (die : DieSpelling) (before behind : Blanks) (expression : Text) :
    parseValue (before.val ++ (die.text ++ behind.val)) expression =
      requireReadable die.numerals >>= fun _ => pure (.die die.group) := by
  have silent := limit_of_value_chars (value_chars_between before die.value_chars behind)
  simp only [parseValue, die.read before behind, die.to_group silent, bind_assoc, pure_bind]

end DieSpelling

end TabletopDice
