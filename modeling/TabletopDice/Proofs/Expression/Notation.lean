import TabletopDice.Expression.Term
import TabletopDice.Proofs.Text.Label
import TabletopDice.Proofs.Text.Numeral

/-!
Reading the pieces of a die group one after another. Each reader takes its own piece
of a printed group and leaves the rest to the next one.
-/

namespace TabletopDice

open Text

structure IsDigits (digits : Text) : Prop where
  nonempty : digits ≠ []
  digits : ∀ char ∈ digits, isDigit char = true

theorem is_digits_of_nat (number : Nat) : IsDigits (ofNat number) :=
  ⟨of_nat_ne_nil number, fun _ member => isDigit_of_ascii (is_ascii_digit_of_nat member)⟩

theorem IsDigits.stops {digits : Text} (run : IsDigits digits) {kind : Char → Bool}
    (other : ∀ char : Char, isDigit char = true → kind char = false) (rest : Text) :
    Stops kind (digits ++ rest) := by
  apply stops_append run.nonempty
  intro char found
  exact other char (run.digits char (List.mem_of_mem_head? found))

theorem IsDigits.span {digits : Text} (run : IsDigits digits) {rest : Text}
    (stops : Stops isDigit rest) : spanDigits (digits ++ rest) = (digits, rest) :=
  span_digits_append run.digits stops

theorem IsDigits.trim_left {digits : Text} (run : IsDigits digits) (rest : Text) :
    trimLeft (digits ++ rest) = digits ++ rest :=
  trim_left_of_stops (run.stops (fun _ digit => is_visible_of_digit digit) rest)

theorem ne_of_digit {char glyph : Char} (digit : isDigit char = true)
    (other : isDigit glyph = false) : (char == glyph) = false := by
  apply beq_false_of_ne
  rintro rfl
  rw [digit] at other
  cases other

theorem read_digits_append {digits rest : Text} (run : IsDigits digits)
    (stops : Stops isDigit rest) : readDigits? (digits ++ rest) = some (digits, rest) := by
  rw [readDigits?, run.span stops]
  split
  next same => exact absurd (congrArg Prod.fst same) run.nonempty
  next => rfl

theorem read_mark_of_stops {text : Text} (visible : Stops isBlank text)
    (unmarked : Stops (· == '>') text) : readMark text = (false, text) := by
  rw [readMark, trim_left_of_stops visible]
  split
  next => cases stops_cons.mp unmarked
  next => rfl

theorem read_mark_mark {text : Text} (visible : Stops isBlank text) :
    readMark ('>' :: text) = (true, text) := by
  have found : readMark ('>' :: text) = (true, trimLeft text) := rfl
  rw [found, trim_left_of_stops visible]

theorem read_bar_of_stops {text : Text} (whole : Stops (· == '/') text) :
    readBar text = (none, text) := by
  have none : readDenominator? text = none := by
    unfold readDenominator?
    split
    next => cases stops_cons.mp whole
    next => rfl
  rw [readBar, none]

theorem read_bar_digits {digits rest : Text} (run : IsDigits digits) (stops : Stops isDigit rest)
    (visible : Stops isBlank rest) : readBar ('/' :: (digits ++ rest)) = (some digits, rest) := by
  rw [readBar, readDenominator?, run.trim_left, read_digits_append run stops]
  change (some digits, trimLeft rest) = _
  rw [trim_left_of_stops visible]

theorem read_letter_digits {digits : Text} (run : IsDigits digits) (rest : Text) :
    readLetter? ('d' :: (digits ++ rest)) = some (digits ++ rest) := by
  rw [readLetter?, run.trim_left]

theorem read_sides_digits {digits rest : Text} (run : IsDigits digits)
    (stops : Stops isDigit rest) : readSides? (digits ++ rest) = some (some digits, rest) := by
  unfold readSides?
  split
  next behind same =>
    have other := run.stops (fun _ digit => ne_of_digit digit (by decide : isDigit '%' = false)) rest
    rw [same] at other
    cases stops_cons.mp other
  next =>
    rw [read_digits_append run stops]
    rfl

def choiceWords (best : Bool) : Text := if best then "best of ".toList else "worst of ".toList

theorem read_choice_printed (best : Bool) {digits rest : Text} (run : IsDigits digits)
    (stops : Stops isDigit rest) :
    readChoice? (choiceWords best ++ (digits ++ rest)) = some ((best, digits), rest) := by
  have counted := read_digits_append run stops
  have visible := run.trim_left rest
  cases best with
  | true =>
      change ((readDigits? (trimLeft (digits ++ rest))).bind fun found =>
        some ((true, found.1), found.2)) = _
      rw [visible, counted]
      rfl
  | false =>
      change ((readDigits? (trimLeft (digits ++ rest))).bind fun found =>
        some ((false, found.1), found.2)) = _
      rw [visible, counted]
      rfl

theorem length_read_digits {text digits rest : Text}
    (found : readDigits? text = some (digits, rest)) : digits.length + rest.length = text.length := by
  unfold readDigits? at found
  split at found
  next => cases found
  next =>
    have whole := length_span_digits text
    rw [Option.some.inj found] at whole
    exact whole

theorem length_read_choice {text rest : Text} {choice : Bool × Text}
    (found : readChoice? text = some (choice, rest)) :
    choice.2.length + rest.length < text.length := by
  simp only [readChoice?, Option.bind_eq_bind, Option.bind_eq_some_iff] at found
  obtain ⟨⟨best, first⟩, word, second, ofWord, ⟨count, third⟩, counted, same⟩ := found
  cases same
  have number : count.length + third.length = (trimLeft second).length := length_read_digits counted
  have trimmed := length_trim_left_le second
  have behind : second.length + 2 = (trimLeft first).length := length_after ofWord
  have before := length_trim_left_le first
  have length : first.length ≤ text.length := by
    unfold readChoiceWord? at word
    split at word
    next rest better =>
      cases word
      have short := length_after better
      omega
    next =>
      obtain ⟨rest, worse, same⟩ := Option.map_eq_some_iff.mp word
      cases same
      have short := length_after worse
      omega
  change count.length + third.length < text.length
  omega

namespace DieNotation

theorem read_is_some {text counted rest behind numerator : Text} {marked : Bool}
    {denominator : Option Text} (mark : readMark text = (marked, counted))
    (count : spanDigits counted = (numerator, rest))
    (bar : readBar (trimLeft rest) = (denominator, behind)) :
    (read? text).isSome = ((readLetter? behind).bind readSides?).isSome := by
  simp only [read?, mark, count, bar, Option.bind_eq_bind]
  cases readLetter? behind with
  | none => rfl
  | some rest =>
      change ((readSides? rest).bind _).isSome = (readSides? rest).isSome
      cases readSides? rest <;> rfl

theorem read_eq {text counted rest behind more tail numerator : Text} {marked : Bool}
    {denominator sides : Option Text} (mark : readMark text = (marked, counted))
    (count : spanDigits counted = (numerator, rest))
    (bar : readBar (trimLeft rest) = (denominator, behind))
    (letter : readLetter? behind = some more) (printed : readSides? more = some (sides, tail)) :
    read? text = some {
      initialMax := marked, numerator, denominator, sides
      choice := (readAttempts (trimLeft tail)).1
      label := trim (readAttempts (trimLeft tail)).2 } := by
  simp only [read?, mark, count, bar, letter, printed, Option.bind_eq_bind, Option.bind_some]

theorem read_label {label : Text} (isLabel : IsLabel label) :
    (read? label).isSome = ((readLetter? label).bind readSides?).isSome := by
  apply read_is_some
  · exact read_mark_of_stops isLabel.stops_blank (isLabel.stops_glyph (by decide))
  · exact span_digits_of_stops isLabel.stops_digit
  · rw [trim_left_of_stops isLabel.stops_blank]
    exact read_bar_of_stops (isLabel.stops_glyph (by decide))

theorem read_mark_digits {digits : Text} (run : IsDigits digits) (rest : Text) :
    readMark (digits ++ rest) = (false, digits ++ rest) := by
  apply read_mark_of_stops
  · exact run.stops (fun _ digit => is_visible_of_digit digit) rest
  · exact run.stops (fun _ digit => ne_of_digit digit (by decide)) rest

/-- A number in front of a label makes no die group of a label that is none. -/
theorem read_labelled {digits label : Text} (run : IsDigits digits) (isLabel : IsLabel label) :
    (read? (labelled digits label)).isSome = (read? label).isSome := by
  rw [read_label isLabel]
  by_cases named : label = []
  · subst named
    have whole := read_mark_digits run []
    have count := run.span (stops_nil isDigit)
    rw [List.append_nil] at whole count
    rw [labelled_nil]
    exact read_is_some whole count rfl
  · rw [labelled_of_ne_nil digits named]
    apply read_is_some (read_mark_digits run _)
    · exact run.span (stops_cons.mpr (by decide))
    · rw [trim_left_space, trim_left_of_stops isLabel.stops_blank]
      exact read_bar_of_stops (isLabel.stops_glyph (by decide))

theorem read_point {digits : Text} (run : IsDigits digits) (rest : Text) :
    read? (digits ++ '.' :: rest) = none := by
  have count := run.span (stops_cons.mpr (by decide) : Stops isDigit ('.' :: rest))
  have bar : readBar (trimLeft ('.' :: rest)) = (none, '.' :: rest) :=
    read_bar_of_stops (stops_cons.mpr rfl)
  have found := read_is_some (read_mark_digits run _) count bar
  exact Option.isNone_iff_eq_none.mp (Option.isSome_eq_false_iff.mp found)

theorem read_space (text : Text) : read? (' ' :: text) = read? text := rfl

theorem read_sides_is_some (char : Char) (rest : Text) :
    (readSides? (char :: rest)).isSome = (char == '%' || isDigit char) := by
  unfold readSides?
  split
  next same =>
    cases same
    rfl
  next other =>
    have mark : (char == '%') = false := by
      apply beq_false_of_ne
      rintro rfl
      exact other rest rfl
    rw [mark, Bool.false_or, Option.isSome_map, readDigits?]
    cases digit : isDigit char with
    | true => simp [spanDigits, digit]
    | false => simp [spanDigits, digit]

theorem read_letter_append {label behind : Text}
    (found : ((readLetter? label).bind readSides?).isSome = true) :
    ((readLetter? (label ++ behind)).bind readSides?).isSome = true := by
  have reads (rest : Text) (sides : (readSides? (trimLeft rest)).isSome = true) :
      (readSides? (trimLeft (rest ++ behind))).isSome = true := by
    cases shown : trimLeft rest with
    | nil =>
        rw [shown] at sides
        cases sides
    | cons char more =>
        have longer : trimLeft (rest ++ behind) = char :: (more ++ behind) := by
          unfold trimLeft at shown ⊢
          rw [List.dropWhile_append, shown]
          rfl
        rw [shown, read_sides_is_some] at sides
        rw [longer, read_sides_is_some]
        exact sides
  unfold readLetter? at found
  split at found
  next rest => exact reads rest found
  next rest => exact reads rest found
  next => cases found

theorem read_trim {part : Text} (bare : isBareLabel part = true) (noDie : read? part = none) :
    read? (trim part) = none := by
  obtain ⟨before, behind, whole, blank, -⟩ := exists_blanks part
  have isLabel : IsLabel (trim part) := by
    refine ⟨trim_trim part, .inr ?_⟩
    rw [is_bare_label_trim]
    exact bare
  have nonempty : trim part ≠ [] := by
    intro empty
    rw [← is_bare_label_trim, empty] at bare
    cases bare
  have leading : read? part = read? (trim part ++ behind) := by
    have mark : readMark part = readMark (trim part ++ behind) := by
      rw [readMark, readMark, ← trim_left_append blank (trim part ++ behind), ← List.append_assoc,
        ← whole]
    rw [read?, read?, mark]
  have stops {kind : Char → Bool} (here : Stops kind (trim part)) :
      Stops kind (trim part ++ behind) := stops_append nonempty here
  have bar : readBar (trimLeft (trim part ++ behind)) = (none, trim part ++ behind) := by
    rw [trim_left_of_stops (stops isLabel.stops_blank)]
    exact read_bar_of_stops (stops (isLabel.stops_glyph (by decide)))
  have found := read_is_some
    (read_mark_of_stops (stops isLabel.stops_blank) (stops (isLabel.stops_glyph (by decide))))
    (span_digits_of_stops (stops isLabel.stops_digit)) bar
  rw [← leading, noDie] at found
  cases reads : read? (trim part) with
  | none => rfl
  | some pieces =>
      have alone := read_label isLabel
      rw [reads] at alone
      rw [read_letter_append alone.symm] at found
      cases found

end DieNotation

end TabletopDice
