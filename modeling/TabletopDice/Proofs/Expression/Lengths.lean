import TabletopDice.Dice.Basic
import TabletopDice.Proofs.Expression.Clauses
import TabletopDice.Proofs.Expression.Reading
import TabletopDice.Proofs.Text.Messages

/-!
What is read from a text is no longer than the text. So a text is refused, if at all,
for what it says, unless it is long enough to hold a number that is too long.
-/

namespace TabletopDice

open Text

/-- The request is at fault, which is told on one line, or a number in it is too long, as it can be
under a condition. -/
def Failure.IsRefusal (tooLong : Prop) (failure : Failure) : Prop :=
  (∃ error, IsOneLine error.message ∧ failure = .dice error) ∨
    tooLong ∧ failure = .number .tooManyDigits

theorem Failure.IsRefusal.mono {tooLong longer : Prop} {failure : Failure}
    (refusal : failure.IsRefusal tooLong) (implies : tooLong → longer) : failure.IsRefusal longer :=
  refusal.imp_right fun ⟨holds, same⟩ => ⟨implies holds, same⟩

theorem Failure.IsRefusal.request {tooLong : Prop} {failure : Failure}
    (refusal : failure.IsRefusal tooLong) (short : ¬tooLong) : failure.IsRequest :=
  (refusal.resolve_right fun long => short long.1).imp fun _ refused => refused.2

section Refusals

variable {Value : Type} {tooLong : Prop} {length : Nat}

theorem refusal_of_refuse {error : DiceError} (plain : '\n' ∉ error.verbatim) :
    FailsOnly (Failure.IsRefusal tooLong) (refuse error : Except Failure Value) :=
  fails_only_error (.inl ⟨error, is_one_line_message plain, rfl⟩)

theorem refusal_of_guard {condition : Prop} [Decidable condition] {error : DiceError}
    {next : Unit → Except Failure Value} (plain : '\n' ∉ error.verbatim)
    (rest : FailsOnly (Failure.IsRefusal tooLong) (next ())) :
    FailsOnly (Failure.IsRefusal tooLong)
      (if condition then refuse error >>= next else next ()) := by
  split
  · exact refusal_of_refuse plain
  · exact rest

theorem refusal_mono {longer : Prop} {result : Except Failure Value}
    (only : FailsOnly (Failure.IsRefusal tooLong) result) (implies : tooLong → longer) :
    FailsOnly (Failure.IsRefusal longer) result :=
  fun failure failed => (only failure failed).mono implies

theorem refusal_of_magnitude {numeral : Numeral} (fits : numeral.digits.length ≤ length) :
    FailsOnly (fun fault => maxDigits < length ∧ fault = .tooManyDigits) numeral.magnitude := by
  unfold Numeral.magnitude
  split
  · exact fails_only_ok _
  next tooLong => exact fails_only_error ⟨by omega, rfl⟩

theorem refusal_of_whole_number {digits : Text} (fits : digits.length ≤ length) :
    FailsOnly (Failure.IsRefusal (maxDigits < length)) (wholeNumber digits) := by
  refine fails_only_map_error (refusal_of_magnitude fits) ?_
  rintro fault ⟨tooLong, rfl⟩
  exact .inr ⟨tooLong, rfl⟩

theorem refusal_of_optional {digits : Option Text} (other : Nat)
    (fits : digits.elim 0 List.length ≤ length) :
    FailsOnly (Failure.IsRefusal (maxDigits < length)) (digits.elim (pure other) wholeNumber) := by
  cases digits with
  | none => exact fails_only_ok _
  | some digits => exact refusal_of_whole_number fits

theorem refusal_of_numeral {numeral : Numeral} (fits : numeral.digits.length ≤ length) :
    FailsOnly (Failure.IsRefusal (maxDigits < length)) numeral.read := by
  have value := fails_only_bind (refusal_of_magnitude fits) fun magnitude =>
    fails_only_ok (if numeral.negative then -(magnitude : Int) else magnitude)
  refine fails_only_map_error value ?_
  rintro fault ⟨tooLong, rfl⟩
  exact .inr ⟨tooLong, rfl⟩

end Refusals

section Lengths

variable {text rest : Text}

theorem length_read_mark (text : Text) : (readMark text).2.length ≤ text.length := by
  have trimmed := length_trim_left_le text
  unfold readMark
  split
  next rest same =>
    have again := length_trim_left_le rest
    rw [same, List.length_cons] at trimmed
    exact Nat.le_trans again (by omega)
  next => exact trimmed

theorem length_read_denominator {digits : Text}
    (found : readDenominator? text = some (digits, rest)) :
    digits.length + rest.length ≤ text.length := by
  unfold readDenominator? at found
  split at found
  next more =>
    have read := length_read_digits found
    have trimmed := length_trim_left_le more
    rw [List.length_cons]
    omega
  next => cases found

theorem length_read_bar (text : Text) :
    (readBar text).1.elim 0 List.length + (readBar text).2.length ≤ text.length := by
  unfold readBar
  split
  next digits rest found =>
    have read := length_read_denominator found
    have trimmed := length_trim_left_le rest
    dsimp only [Option.elim_some]
    omega
  next =>
    dsimp only [Option.elim_none]
    omega

theorem length_read_letter (found : readLetter? text = some rest) : rest.length + 1 ≤ text.length := by
  unfold readLetter? at found
  split at found
  next more =>
    cases found
    exact Nat.succ_le_succ (length_trim_left_le more)
  next more =>
    cases found
    exact Nat.succ_le_succ (length_trim_left_le more)
  next => cases found

theorem length_read_sides {sides : Option Text} (found : readSides? text = some (sides, rest)) :
    sides.elim 1 List.length + rest.length ≤ text.length := by
  unfold readSides? at found
  split at found
  next more =>
    cases found
    rw [Option.elim_none, List.length_cons]
    omega
  next =>
    obtain ⟨⟨digits, behind⟩, read, same⟩ := Option.map_eq_some_iff.mp found
    cases same
    exact Nat.le_of_eq (length_read_digits read)

theorem length_read_attempts (text : Text) :
    (readAttempts text).1.elim 0 (fun choice => choice.2.length) + (readAttempts text).2.length ≤
      text.length := by
  unfold readAttempts
  split
  next choice rest found => exact Nat.le_of_lt (length_read_choice found)
  next =>
    dsimp only [Option.elim_none]
    omega

/-- The digits of a die group, with one for a percent sign and the letter, fit into its text. -/
theorem DieNotation.length_read {pieces : DieNotation} (read : read? text = some pieces) :
    pieces.numerator.length + pieces.denominator.elim 0 List.length +
      pieces.sides.elim 1 List.length + pieces.choice.elim 0 (fun choice => choice.2.length) + 1 ≤
        text.length := by
  simp only [read?, Option.bind_eq_bind, Option.bind_eq_some_iff] at read
  obtain ⟨sided, letter, ⟨sides, tail⟩, printed, same⟩ := read
  cases same
  have mark := length_read_mark text
  have count := length_span_digits (readMark text).2
  have trimmedCount := length_trim_left_le (spanDigits (readMark text).2).2
  have bar := length_read_bar (trimLeft (spanDigits (readMark text).2).2)
  have afterLetter := length_read_letter letter
  have afterSides := length_read_sides printed
  have trimmedSides := length_trim_left_le tail
  have attempts := length_read_attempts (trimLeft tail)
  dsimp only
  omega

end Lengths

section Values

variable {part expression : Text} {length : Nat}

theorem no_line_feed_in_digits {text digits rest : Text}
    (read : readDigits? text = some (digits, rest)) : '\n' ∉ digits := by
  unfold readDigits? at read
  split at read
  · cases read
  · cases read
    exact fun member => absurd (List.mem_takeWhile_imp member) (by decide)

theorem DieNotation.no_line_feed_in_choice {pieces : DieNotation} (read : read? part = some pieces) :
    '\n' ∉ pieces.choice.elim [] Prod.snd := by
  simp only [read?, Option.bind_eq_bind, Option.bind_eq_some_iff] at read
  obtain ⟨rest, -, ⟨sides, tail⟩, -, same⟩ := read
  cases same
  unfold readAttempts
  split
  next choice behind found =>
    simp only [readChoice?, Option.bind_eq_bind, Option.bind_eq_some_iff] at found
    obtain ⟨_, -, _, -, ⟨count, _⟩, digits, same⟩ := found
    cases same
    exact no_line_feed_in_digits digits
  next => exact List.not_mem_nil

theorem DieNotation.refusal_of_check_label (pieces : DieNotation) (part : Text) {tooLong : Prop} :
    FailsOnly (Failure.IsRefusal tooLong) (pieces.checkLabel part) := by
  unfold checkLabel
  split
  · exact fails_only_ok _
  · split
    · exact refusal_of_refuse List.not_mem_nil
    · split
      · exact fails_only_ok _
      · exact refusal_of_refuse List.not_mem_nil

theorem DieNotation.refusal_of_count {pieces : DieNotation}
    (fits : pieces.numerator.length ≤ length) :
    FailsOnly (Failure.IsRefusal (maxDigits < length)) pieces.count := by
  unfold count
  split
  · exact fails_only_ok _
  · exact refusal_of_whole_number fits

theorem refusal_of_to_group {pieces : DieNotation} (read : DieNotation.read? part = some pieces)
    (fits : part.length ≤ length) :
    FailsOnly (Failure.IsRefusal (maxDigits < length)) (pieces.toGroup part expression) := by
  have pieceLengths := DieNotation.length_read read
  unfold DieNotation.toGroup
  apply refusal_of_guard List.not_mem_nil
  apply fails_only_bind
  · apply refusal_of_optional
    cases sides : pieces.sides with
    | none => exact Nat.zero_le _
    | some digits =>
        rw [sides, Option.elim_some] at pieceLengths
        rw [Option.elim_some]
        omega
  intro sides
  apply refusal_of_guard List.not_mem_nil
  apply fails_only_bind
  · cases choice : pieces.choice with
    | none => exact fails_only_ok _
    | some choice =>
        rw [choice, Option.elim_some] at pieceLengths
        exact refusal_of_whole_number (by omega)
  intro attempts
  apply refusal_of_guard
  · have word (best : Bool) : '\n' ∉ (if best then "best" else "worst").toList := by
      cases best <;> decide
    exact fun member => (List.mem_append.mp member).elim (word _)
      (DieNotation.no_line_feed_in_choice read)
  apply fails_only_bind (pieces.refusal_of_check_label part)
  intro _
  apply fails_only_bind (DieNotation.refusal_of_count (by omega))
  intro numerator
  apply fails_only_bind (refusal_of_optional 0 (by omega))
  intro denominator
  exact fails_only_ok _

theorem refusal_of_parse_value (fits : part.length ≤ length) :
    FailsOnly (Failure.IsRefusal (maxDigits < length)) (parseValue part expression) := by
  unfold parseValue
  split
  next pieces read =>
    apply fails_only_bind (refusal_of_to_group read fits)
    intro group
    exact fails_only_ok _
  next =>
    unfold parseConstant
    split
    · exact refusal_of_refuse List.not_mem_nil
    · split
      · exact refusal_of_refuse List.not_mem_nil
      · split
        · exact refusal_of_refuse List.not_mem_nil
        · exact fails_only_ok _

end Values

section Expressions

variable {expression : Text} {expected : Expected} {depth length : Nat} {tokens : List Token}

def tokensLength (tokens : List Token) : Nat := (tokens.flatMap Token.toText).length

theorem tokens_length_cons (token : Token) (tokens : List Token) :
    tokensLength (token :: tokens) = token.toText.length + tokensLength tokens := by
  rw [tokensLength, List.flatMap_cons, List.length_append]
  rfl

theorem refusal_of_parse_tokens (fits : tokensLength tokens ≤ length) :
    FailsOnly (Failure.IsRefusal (maxDigits < length)) (parseTokens expression expected depth tokens) := by
  induction tokens generalizing expected depth with
  | nil =>
      cases expected with
      | value => exact refusal_of_refuse List.not_mem_nil
      | operator =>
          unfold parseTokens
          split
          · exact fails_only_ok _
          · exact refusal_of_refuse List.not_mem_nil
  | cons token tokens ih =>
      rw [tokens_length_cons] at fits
      have behind (place : Expected) (depth : Nat) (component : Component) :
          FailsOnly (Failure.IsRefusal (maxDigits < length))
            (do return component :: (← parseTokens expression place depth tokens)) :=
        fails_only_bind (ih (by omega)) fun _ => fails_only_ok _
      cases expected with
      | value =>
          cases token with
          | glyph char =>
              unfold parseTokens
              split
              · exact ih (by omega)
              · split
                · exact behind _ _ _
                · split
                  · exact behind _ _ _
                  · exact refusal_of_refuse List.not_mem_nil
          | run part =>
              have partLength : part.length ≤ length := Nat.le_trans (Nat.le_add_right ..) fits
              unfold parseTokens
              split
              · exact ih (by omega)
              · exact fails_only_bind (refusal_of_parse_value partLength) fun _ => behind _ _ _
      | operator =>
          cases token with
          | glyph char =>
              unfold parseTokens
              split
              · split
                · exact refusal_of_refuse List.not_mem_nil
                · exact behind _ _ _
              · split
                · exact behind _ _ _
                · exact refusal_of_refuse List.not_mem_nil
          | run part =>
              unfold parseTokens
              split
              · exact ih (by omega)
              · split
                · split
                  · exact refusal_of_refuse List.not_mem_nil
                  · exact behind _ _ _
                · exact refusal_of_refuse List.not_mem_nil

theorem length_normalize_le (text : Text) : (normalize text).length ≤ text.length := by
  have slashes := length_replace_pairs_le '/' '/' '÷' text
  have greater := length_replace_pairs_le '>' '=' '≥' (replacePairs '/' '/' '÷' text)
  have less := length_replace_pairs_le '<' '=' '≤'
    (replacePairs '>' '=' '≥' (replacePairs '/' '/' '÷' text))
  unfold normalize
  omega

theorem tokens_length_of_text (text : Text) :
    tokensLength (Token.ofText (normalize text)) ≤ text.length := by
  rw [tokensLength, Token.toText_ofText]
  exact length_normalize_le text

end Expressions

section Clauses

variable {length : Nat}

theorem length_read_integer {text rest : Text} {numeral : Numeral}
    (read : readInteger? text = some (numeral, rest)) :
    numeral.digits.length + rest.length ≤ text.length := by
  have unsigned : (splitSign text).2.length ≤ text.length := by
    unfold splitSign
    split
    · exact Nat.le_succ _
    · exact Nat.le_succ _
    · exact Nat.le_refl _
  have whole := length_span_digits (splitSign text).2
  simp only [readInteger?] at read
  split at read
  · cases read
  next digits behind _ found =>
    cases read
    rw [found] at whole
    exact Nat.le_trans (Nat.le_of_eq whole) unsigned

theorem length_read_limit {keyword clause : Text} {numeral : Numeral}
    (read : readLimit? keyword clause = some numeral) : numeral.digits.length ≤ clause.length := by
  obtain ⟨rest, behind, after, number, -⟩ := Limits.read_limit_eq_some.mp read
  have digits := length_read_integer number
  have blanks := length_trim_left_le rest
  have keywords := length_after after
  have front := length_trim_left_le clause
  omega

namespace Limits

theorem refusal_of_with_clause (limits : Limits) {clause : Text} (fits : clause.length ≤ length) :
    FailsOnly (Failure.IsRefusal (maxDigits < length)) (limits.withClause clause) := by
  unfold withClause
  split
  next numeral read =>
    have digits := length_read_limit read
    exact fails_only_bind (refusal_of_numeral (by omega)) fun _ => fails_only_ok _
  next =>
    split
    next numeral read =>
      have digits := length_read_limit read
      exact fails_only_bind (refusal_of_numeral (by omega)) fun _ => fails_only_ok _
    next => exact refusal_of_refuse List.not_mem_nil

end Limits

theorem refusal_of_split_limits {text : Text} (fits : text.length ≤ length) :
    FailsOnly (Failure.IsRefusal (maxDigits < length)) (splitLimits text) := by
  unfold splitLimits
  split
  · exact fails_only_ok _
  next first clauses parts =>
    refine fails_only_bind (fails_only_foldlM fun clause member limits => ?_) fun _ =>
      fails_only_ok _
    apply Limits.refusal_of_with_clause
    have inside : clause ∈ splitOn '|' text := by
      rw [parts]
      exact List.mem_cons_of_mem _ member
    exact Nat.le_trans (length_of_mem_split_on inside) fits

theorem length_split_limits {text expression : Text} {limits : Limits}
    (cut : splitLimits text = .ok (expression, limits)) : expression.length ≤ text.length := by
  obtain ⟨clauses, parts, -⟩ := split_limits_eq_ok.mp cut
  apply length_of_mem_split_on
  rw [parts]
  exact List.mem_cons_self

end Clauses

section Texts

variable {text : Text} {length : Nat}

theorem refusal_of_parse_expression (fits : text.length ≤ length) :
    FailsOnly (Failure.IsRefusal (maxDigits < length)) (parseExpression text) := by
  unfold parseExpression
  apply refusal_of_guard List.not_mem_nil
  apply fails_only_bind_of_ok (refusal_of_split_limits fits)
  rintro ⟨expression, limits⟩ cut
  have expressionLength := length_split_limits cut
  have tokensLength := tokens_length_of_text expression
  dsimp only
  split
  · exact refusal_of_refuse List.not_mem_nil
  · exact fails_only_bind (refusal_of_parse_tokens (by omega)) fun _ => fails_only_ok _

theorem Dice.refusal_of_parse (fits : text.length ≤ length) :
    FailsOnly (Failure.IsRefusal (maxDigits < length)) (Dice.parse text) := by
  unfold Dice.parse
  split
  · exact fails_only_ok _
  · exact fails_only_bind (refusal_of_parse_expression fits) fun _ => fails_only_ok _

end Texts

end TabletopDice
