import TabletopDice.Proofs.Expression.SpelledValues
import TabletopDice.Proofs.Expression.Swallowing

/-!
Blanks around a part of an expression. Every reader of values and labels takes the same
pieces with blanks in front of the part and behind it, so the part has the same value or
is refused for the same kind of reason; only the texts that a refusal quotes are longer.
-/

namespace TabletopDice

open Text

section Readers

theorem not_head_of_ne {char : Char} {text : Text} (other : ∀ rest, text = char :: rest → False) :
    ¬text.head? = some char := by
  intro first
  obtain ⟨rest, same⟩ := List.head?_eq_some_iff.mp first
  exact other rest same

theorem read_mark_eq (text : Text) :
    readMark text =
      if (trimLeft text).head? = some '>' then (true, trimLeft (trimLeft text).tail)
      else (false, trimLeft text) := by
  unfold readMark
  split
  next rest mark =>
    rw [mark]
    rfl
  next other => rw [if_neg (not_head_of_ne other)]

theorem read_denominator_eq (text : Text) :
    readDenominator? text = if text.head? = some '/' then readDigits? (trimLeft text.tail) else none := by
  unfold readDenominator?
  split
  next => rfl
  next other => rw [if_neg (not_head_of_ne other)]

theorem read_sides_eq (text : Text) :
    readSides? text =
      if text.head? = some '%' then some (none, text.tail)
      else (readDigits? text).map fun (digits, rest) => (some digits, rest) := by
  unfold readSides?
  split
  next => rfl
  next other => rw [if_neg (not_head_of_ne other)]

theorem read_fraction_eq (text : Text) :
    readFraction text = if text.head? = some '.' then spanDigits text.tail else ([], text) := by
  unfold readFraction
  split
  next => rfl
  next other => rw [if_neg (not_head_of_ne other)]

theorem tail_append_of_head {char : Char} {text : Text} (first : text.head? = some char)
    (blanks : Text) :
    (text ++ blanks).tail = text.tail ++ blanks := by
  obtain ⟨rest, rfl⟩ := List.head?_eq_some_iff.mp first
  rfl

end Readers

section Behind

variable {blanks : Text} (blank : allBlank blanks = true)

include blank

theorem read_digits_append_blanks (text : Text) :
    readDigits? (text ++ blanks) =
      (readDigits? text).map fun (digits, rest) => (digits, rest ++ blanks) := by
  rw [readDigits?, readDigits?, span_digits_append_blanks blank]
  cases spanDigits text with
  | mk digits rest =>
      cases digits with
      | nil => rfl
      | cons digit digits => rfl

theorem exists_read_mark_append (text : Text) :
    ∃ more, allBlank more = true ∧
      readMark (text ++ blanks) = ((readMark text).1, (readMark text).2 ++ more) := by
  obtain ⟨front, blankFront, trimmed⟩ := exists_trim_left_append blank text
  rw [read_mark_eq, read_mark_eq, trimmed]
  simp only [head_append_blanks blankFront (by decide : isBlank '>' = false)]
  split
  next mark =>
    obtain ⟨more, blankMore, behind⟩ := exists_trim_left_append blankFront (trimLeft text).tail
    rw [tail_append_of_head mark, behind]
    exact ⟨more, blankMore, rfl⟩
  next => exact ⟨front, blankFront, rfl⟩

theorem exists_read_bar_append (text : Text) :
    ∃ more, allBlank more = true ∧
      readBar (text ++ blanks) = ((readBar text).1, (readBar text).2 ++ more) := by
  rw [readBar, readBar, read_denominator_eq, read_denominator_eq]
  simp only [head_append_blanks blank (by decide : isBlank '/' = false)]
  by_cases bar : text.head? = some '/'
  · obtain ⟨front, blankFront, trimmed⟩ := exists_trim_left_append blank text.tail
    rw [if_pos bar, if_pos bar, tail_append_of_head bar, trimmed,
      read_digits_append_blanks blankFront]
    cases readDigits? (trimLeft text.tail) with
    | none => exact ⟨blanks, blank, rfl⟩
    | some found =>
        obtain ⟨more, blankMore, behind⟩ := exists_trim_left_append blankFront found.2
        exact ⟨more, blankMore, congrArg (some found.1, ·) behind⟩
  · rw [if_neg bar, if_neg bar]
    exact ⟨blanks, blank, rfl⟩

theorem exists_read_letter_append (text : Text) :
    ∃ more, allBlank more = true ∧ readLetter? (text ++ blanks) = (readLetter? text).map (· ++ more) := by
  cases text with
  | nil =>
      refine ⟨[], rfl, ?_⟩
      cases blanks with
      | nil => rfl
      | cons char blanks =>
          have visible : ∀ mark ∈ ['d', 'D'], char ≠ mark := by
            rintro mark member rfl
            have first : isBlank char = true := List.all_eq_true.mp blank _ List.mem_cons_self
            have letters : ∀ mark ∈ ['d', 'D'], isBlank mark = false := by decide
            rw [letters char member] at first
            cases first
          rw [List.nil_append, read_letter_eq, if_neg]
          · rfl
          · simp [visible 'd', visible 'D']
  | cons mark rest =>
      obtain ⟨more, blankMore, behind⟩ := exists_trim_left_append blank rest
      refine ⟨more, blankMore, ?_⟩
      rw [List.cons_append, read_letter_eq, read_letter_eq, behind]
      split
      · rfl
      · rfl

theorem read_sides_append_blanks (text : Text) :
    readSides? (text ++ blanks) =
      (readSides? text).map fun (sides, rest) => (sides, rest ++ blanks) := by
  rw [read_sides_eq, read_sides_eq, read_digits_append_blanks blank]
  simp only [head_append_blanks blank (by decide : isBlank '%' = false)]
  split
  next mark => rw [tail_append_of_head mark, Option.map_some]
  next => cases readDigits? text <;> rfl

theorem read_choice_word_append_blanks (text : Text) :
    readChoiceWord? (text ++ blanks) =
      (readChoiceWord? text).map fun (best, rest) => (best, rest ++ blanks) := by
  rw [readChoiceWord?, readChoiceWord?, after_append_blanks blank _ (by decide),
    after_append_blanks blank _ (by decide)]
  cases after? "best".toList text with
  | some rest => rfl
  | none => cases after? "worst".toList text <;> rfl

theorem exists_read_choice_append (text : Text) :
    ∃ more, allBlank more = true ∧
      readChoice? (text ++ blanks) =
        (readChoice? text).map fun (choice, rest) => (choice, rest ++ more) := by
  simp only [readChoice?, read_choice_word_append_blanks blank, Option.bind_eq_bind]
  cases readChoiceWord? text with
  | none => exact ⟨blanks, blank, rfl⟩
  | some word =>
      obtain ⟨front, blankFront, trimmed⟩ := exists_trim_left_append blank word.2
      simp only [Option.map_some, Option.bind_some, trimmed,
        after_append_blanks blankFront _ (by decide : ∀ char ∈ "of".toList, isBlank char = false)]
      cases after? "of".toList (trimLeft word.2) with
      | none => exact ⟨blanks, blank, rfl⟩
      | some rest =>
          obtain ⟨more, blankMore, behind⟩ := exists_trim_left_append blankFront rest
          refine ⟨more, blankMore, ?_⟩
          simp only [Option.map_some, Option.bind_some, behind, read_digits_append_blanks blankMore]
          cases readDigits? (trimLeft rest) with
          | none => rfl
          | some found => rfl

theorem exists_read_attempts_append (text : Text) :
    ∃ more, allBlank more = true ∧
      readAttempts (text ++ blanks) = ((readAttempts text).1, (readAttempts text).2 ++ more) := by
  obtain ⟨more, blankMore, found⟩ := exists_read_choice_append blank text
  rw [readAttempts, readAttempts, found]
  cases readChoice? text with
  | none => exact ⟨blanks, blank, rfl⟩
  | some choice => exact ⟨more, blankMore, rfl⟩

theorem read_die_append_blanks (text : Text) :
    DieNotation.read? (text ++ blanks) = DieNotation.read? text := by
  obtain ⟨first, blankFirst, mark⟩ := exists_read_mark_append blank text
  obtain ⟨second, blankSecond, trimmed⟩ :=
    exists_trim_left_append blankFirst (spanDigits (readMark text).2).2
  obtain ⟨third, blankThird, bar⟩ :=
    exists_read_bar_append blankSecond (trimLeft (spanDigits (readMark text).2).2)
  obtain ⟨fourth, blankFourth, letter⟩ := exists_read_letter_append blankThird
    (readBar (trimLeft (spanDigits (readMark text).2).2)).2
  simp only [DieNotation.read?, mark, span_digits_append_blanks blankFirst, trimmed, bar, letter,
    Option.bind_eq_bind]
  cases readLetter? (readBar (trimLeft (spanDigits (readMark text).2).2)).2 with
  | none => rfl
  | some rest =>
      simp only [Option.map_some, Option.bind_some, read_sides_append_blanks blankFourth]
      cases readSides? rest with
      | none => rfl
      | some sides =>
          obtain ⟨fifth, blankFifth, behind⟩ := exists_trim_left_append blankFourth sides.2
          obtain ⟨last, blankLast, attempts⟩ :=
            exists_read_attempts_append blankFifth (trimLeft sides.2)
          simp only [Option.map_some, Option.bind_some, behind, attempts, trim_append_blanks blankLast]

theorem read_constant_append_blanks (text : Text) :
    readConstant? (text ++ blanks) = readConstant? text := by
  obtain ⟨front, blankFront, trimmed⟩ := exists_trim_left_append blank text
  simp only [readConstant?, trimmed, span_digits_append_blanks blankFront, read_fraction_eq,
    head_append_blanks blankFront (by decide : isBlank '.' = false)]
  by_cases point : (spanDigits (trimLeft text)).2.head? = some '.'
  · simp only [if_pos point, tail_append_of_head point,
      span_digits_append_blanks blankFront, trim_append_blanks blankFront]
  · simp only [if_neg point, trim_append_blanks blankFront]

theorem not_starts_limit_in_blanks :
    ∀ char ∈ blanks, ∀ rest, startsLimit (char :: rest) = false := by
  intro char member rest
  apply starts_limit_of_ne
  rintro rfl
  cases List.all_eq_true.mp blank _ member

theorem mentions_limit_append_blanks (text : Text) :
    mentionsLimit (text ++ blanks) = mentionsLimit text := by
  have silent := some_word_start_append_of_quiet (not_starts_limit_in_blanks blank)
    (endsWord false text) []
  rw [List.append_nil] at silent
  rw [mentionsLimit, some_word_start_append fun part _ => starts_limit_append_blanks blank part,
    silent]
  exact Bool.or_false _

theorem mentions_limit_blanks_append (text : Text) :
    mentionsLimit (blanks ++ text) = mentionsLimit text := by
  rw [mentionsLimit, some_word_start_append_of_quiet (not_starts_limit_in_blanks blank),
    ends_word_of_blank blank]
  rfl

end Behind

def Pads (part padded : Text) : Prop :=
  ∃ before behind, padded = before ++ (part ++ behind) ∧ allBlank before = true ∧
    allBlank behind = true

namespace Pads

variable {part padded : Text}

theorem refl (part : Text) : Pads part part :=
  ⟨[], [], by rw [List.append_nil, List.nil_append], rfl, rfl⟩

theorem read_die (pads : Pads part padded) :
    DieNotation.read? padded = DieNotation.read? part := by
  obtain ⟨before, behind, rfl, blankBefore, blankBehind⟩ := pads
  exact (Blanks.read_die ⟨before, blankBefore⟩ _).trans (read_die_append_blanks blankBehind part)

theorem read_constant (pads : Pads part padded) : readConstant? padded = readConstant? part := by
  obtain ⟨before, behind, rfl, blankBefore, blankBehind⟩ := pads
  exact (Blanks.read_constant ⟨before, blankBefore⟩ _).trans
    (read_constant_append_blanks blankBehind part)

theorem mentions_limit (pads : Pads part padded) : mentionsLimit padded = mentionsLimit part := by
  obtain ⟨before, behind, rfl, blankBefore, blankBehind⟩ := pads
  rw [mentions_limit_blanks_append blankBefore, mentions_limit_append_blanks blankBehind]

theorem is_bare_label (pads : Pads part padded) : isBareLabel padded = isBareLabel part := by
  obtain ⟨before, behind, rfl, blankBefore, blankBehind⟩ := pads
  rw [isBareLabel, isBareLabel, words_blanks_append blankBefore, words_append_blanks _ blankBehind]

theorem trim_eq (pads : Pads part padded) : trim padded = trim part := by
  obtain ⟨before, behind, rfl, blankBefore, blankBehind⟩ := pads
  rw [trim, trim_left_append blankBefore]
  exact trim_append_blanks blankBehind part

theorem all_blank (pads : Pads part padded) : allBlank padded = allBlank part := by
  obtain ⟨before, behind, rfl, blankBefore, blankBehind⟩ := pads
  have whole : before.all isBlank = true := blankBefore
  rw [← all_blank_append_blanks blankBehind part, allBlank, List.all_append, whole, Bool.true_and]
  rfl

end Pads

section Verdicts

/-- What clients tell apart: the kind of a refusal, or the fault of a number. -/
def Failure.kind : Failure → DiceErrorKind ⊕ NumberFault
  | .dice error => .inl error.kind
  | .number fault => .inr fault

variable {Value Result : Type}

/-- The result without the texts that a refusal quotes. -/
def verdict (result : Except Failure Value) : Except (DiceErrorKind ⊕ NumberFault) Value :=
  result.mapError Failure.kind

theorem verdict_bind (result : Except Failure Value) (next : Value → Except Failure Result) :
    verdict (result >>= next) = verdict result >>= fun value => verdict (next value) := by
  cases result <;> rfl

theorem verdict_guard {condition : Prop} [Decidable condition] (error : DiceError)
    (next : Unit → Except Failure Value) :
    verdict (if condition then refuse error >>= next else next ()) =
      if condition then .error (.inl error.kind) else verdict (next ()) := by
  split
  · rfl
  · rfl

end Verdicts

theorem DieNotation.verdict_check_label (pieces : DieNotation) (part other : Text) :
    verdict (pieces.checkLabel other) = verdict (pieces.checkLabel part) := by
  simp only [checkLabel]
  split
  · rfl
  · split
    · rfl
    · rfl

theorem DieNotation.verdict_to_group {part other : Text}
    (same : mentionsLimit other = mentionsLimit part) (pieces : DieNotation)
    (expression around : Text) :
    verdict (pieces.toGroup other around) = verdict (pieces.toGroup part expression) := by
  simp only [toGroup, verdict_guard, verdict_bind, same, DiceError.kind,
    pieces.verdict_check_label part other]

/-- A value is the same with blanks around it, or it is refused for a reason of the same kind. -/
theorem verdict_parse_value {part padded : Text} (pads : Pads part padded)
    (expression around : Text) :
    verdict (parseValue padded around) = verdict (parseValue part expression) := by
  rw [parseValue, parseValue, pads.read_die]
  cases DieNotation.read? part with
  | some pieces =>
      simp only [verdict_bind, pieces.verdict_to_group pads.mentions_limit expression around]
  | none =>
      simp only [parseConstant, pads.read_constant]
      cases readConstant? part with
      | none => rfl
      | some found =>
          simp only [pads.mentions_limit]
          split
          · rfl
          · rfl

end TabletopDice
