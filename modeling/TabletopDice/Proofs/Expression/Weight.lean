import TabletopDice.Proofs.Dice.Range
import TabletopDice.Proofs.Expression.Lengths

/-!
Short texts describe small numbers. A component adds at most four binary digits to a
result for each character that it is written with, and a limit has no more digits than
its clause.
-/

namespace TabletopDice

open Text

section Values

variable {part expression : Text}

theorem digits_value_le_twoPow (digits : Text) : digitsValue digits ≤ twoPow (4 * digits.length) :=
  Nat.le_trans (Nat.le_of_lt (digits_value_lt digits)) (tenPow_le_twoPow digits.length)

theorem of_decimal_within {whole fraction : Text} {length : Nat}
    (fits : whole.length + fraction.length ≤ length) (inRange : length ≤ 250) :
    (Operand.real (Double.ofDecimal whole fraction)).IsWithin (4 * length) := by
  have positive : 0 < tenPow fraction.length := tenPow_pos fraction.length
  have value := digits_value_le_twoPow (whole ++ fraction)
  rw [List.length_append] at value
  have small : digitsValue (whole ++ fraction) * Double.one ≤
      twoPow (4 * length + 1074) * tenPow fraction.length := by
    calc
      digitsValue (whole ++ fraction) * Double.one ≤ twoPow (4 * length) * twoPow 1074 :=
        Nat.mul_le_mul_right _ (Nat.le_trans value (twoPow_le (by omega)))
      _ = twoPow (4 * length + 1074) := (twoPow_add ..).symm
      _ ≤ twoPow (4 * length + 1074) * tenPow fraction.length := Nat.le_mul_of_pos_right _ positive
  obtain ⟨units, rounded, upper, lower⟩ :=
    Double.nearest_fits false positive (by omega : 4 * length < 1024) small
  unfold Double.ofDecimal Double.ofRatio
  by_cases zero : digitsValue (whole ++ fraction) = 0
  · rw [zero, Nat.zero_mul, Double.nearest_zero false positive]
    exact ⟨Nat.zero_le _, fun some => absurd rfl some⟩
  · rw [rounded]
    refine ⟨upper, ?_⟩
    intro _
    have least : twoPow (1074 - 4 * fraction.length) * tenPow fraction.length ≤
        digitsValue (whole ++ fraction) * Double.one := by
      calc
        twoPow (1074 - 4 * fraction.length) * tenPow fraction.length ≤
            twoPow (1074 - 4 * fraction.length) * twoPow (4 * fraction.length) :=
          Nat.mul_le_mul_left _ (tenPow_le_twoPow fraction.length)
        _ = Double.one := by
          rw [← twoPow_add, Nat.sub_add_cancel (by omega)]
          rfl
        _ ≤ digitsValue (whole ++ fraction) * Double.one :=
          Nat.le_mul_of_pos_left _ (Nat.pos_of_ne_zero zero)
    calc
      Double.one = twoPow (1074 - 4 * fraction.length) * twoPow (4 * fraction.length) := by
        rw [← twoPow_add, Nat.sub_add_cancel (by omega)]
        rfl
      _ ≤ units * twoPow (4 * length) := Nat.mul_le_mul (lower _ least) (twoPow_le (by omega))

theorem read_constant_within {text label : Text} {value : Double}
    (read : readConstant? text = some (value, label)) (inRange : text.length ≤ 250) :
    (Operand.real value).IsWithin (4 * text.length) := by
  have trimmed := length_trim_left_le text
  have whole := length_span_digits (trimLeft text)
  have fraction : (readFraction (spanDigits (trimLeft text)).2).1.length ≤
      (spanDigits (trimLeft text)).2.length := by
    unfold readFraction
    split
    next rest same =>
      have digits := length_span_digits rest
      rw [same, List.length_cons]
      omega
    next => exact Nat.zero_le _
  simp only [readConstant?] at read
  split at read
  · cases read
    exact of_decimal_within (by omega) inRange
  · split at read
    · cases read
      exact of_decimal_within (by rw [List.length_nil]; omega) inRange
    · cases read

theorem to_group_weighs {pieces : DieNotation} {group : DieGroup}
    (read : DieNotation.read? part = some pieces)
    (accepted : pieces.toGroup part expression = .ok group) :
    (Component.die group).Weighs (4 * part.length) := by
  have pieceLengths := DieNotation.length_read read
  obtain ⟨-, sides, printed, -, _, -, -, -, -, numerator, counted, _, -, rfl⟩ :=
    to_group_eq_ok.mp accepted
  have highest : sides ≤ twoPow (4 * (pieces.sides.elim 1 List.length + 1)) := by
    cases found : pieces.sides with
    | none =>
        rw [found, Option.elim_none, pure_eq_ok] at printed
        rw [← printed, Option.elim_none]
        decide +kernel
    | some digits =>
        rw [found, Option.elim_some] at printed
        rw [Option.elim_some, ← (whole_number_eq_ok.mp printed).2]
        exact Nat.le_trans (digits_value_le_twoPow digits) (twoPow_le (by omega))
  have count : numerator ≤ twoPow (4 * pieces.numerator.length) := by
    unfold DieNotation.count at counted
    split at counted
    · cases counted
      exact twoPow_pos _
    · rw [← (whole_number_eq_ok.mp counted).2]
      exact digits_value_le_twoPow pieces.numerator
  constructor
  · change sides ≤ twoPow (4 * part.length)
    exact Nat.le_trans highest (twoPow_le (by omega))
  · change numerator * sides ≤ twoPow (4 * part.length)
    calc
      numerator * sides ≤ twoPow (4 * pieces.numerator.length) *
          twoPow (4 * (pieces.sides.elim 1 List.length + 1)) := Nat.mul_le_mul count highest
      _ ≤ twoPow (4 * part.length) := by
        rw [← twoPow_add]
        exact twoPow_le (by omega)

theorem parse_value_weighs {component : Component}
    (read : parseValue part expression = .ok component) (inRange : part.length ≤ 250) :
    component.Weighs (4 * part.length) := by
  cases accepted_of_parse_value read with
  | die found made => exact to_group_weighs found made
  | constant _ found => exact read_constant_within found inRange

end Values

theorem weighs_of_reads {expression : Text} {expected : Expected} {depth : Nat}
    {tokens : List Token} {row : List Component}
    (reads : Reads expression expected depth tokens row)
    (inRange : tokensLength tokens ≤ 250) : RowWeighs (4 * tokensLength tokens) row := by
  have glyph (char : Char) (tokens : List Token) :
      4 * tokensLength (.glyph char :: tokens) = 4 + 4 * tokensLength tokens := by
    rw [tokens_length_cons, Nat.mul_add]
    rfl
  have run (part : Text) (tokens : List Token) :
      4 * tokensLength (.run part :: tokens) = 4 * part.length + 4 * tokensLength tokens := by
    rw [tokens_length_cons, Nat.mul_add]
    rfl
  induction reads with
  | finish => exact .nil
  | skip skipped rest ih =>
      rw [tokens_length_cons] at inRange ⊢
      exact (ih (by omega)).mono (by omega)
  | negation rest ih =>
      rw [glyph]
      exact .cons (show 1 ≤ 4 by decide) (ih (by rw [tokens_length_cons] at inRange; omega))
  | binary known rest ih =>
      rw [glyph]
      exact .cons (show 1 ≤ 4 by decide) (ih (by rw [tokens_length_cons] at inRange; omega))
  | openGroup rest ih =>
      rw [glyph]
      exact .cons trivial (ih (by rw [tokens_length_cons] at inRange; omega))
  | closeGroup rest ih =>
      rw [glyph]
      exact .cons trivial (ih (by rw [tokens_length_cons] at inRange; omega))
  | @value _ tokens _ part _ read rest ih =>
      rw [tokens_length_cons] at inRange
      have partRange : part.length ≤ 250 := Nat.le_trans (Nat.le_add_right ..) inRange
      rw [run]
      exact .cons (parse_value_weighs read partRange) (ih (by omega))
  | label bare noDie rest ih =>
      rw [tokens_length_cons] at inRange
      rw [run]
      exact .cons trivial (ih (by omega))

theorem Numeral.read_le_twoPow {numeral : Numeral} {number : Int}
    (read : numeral.read = .ok number) : number.natAbs ≤ twoPow (4 * numeral.digits.length) := by
  have value := digits_value_le_twoPow numeral.digits
  unfold Numeral.read Numeral.value Numeral.magnitude at read
  split at read
  · cases read
    split
    · rwa [Int.natAbs_neg, Int.natAbs_natCast]
    · rwa [Int.natAbs_natCast]
  · cases read

namespace Limits

variable {limits final : Limits} {length : Nat}

theorem within_with_clause (within : limits.IsWithin (4 * length)) {clause : Text}
    (short : clause.length ≤ length) (read : limits.withClause clause = .ok final) :
    final.IsWithin (4 * length) := by
  have bound {keyword : Text} {numeral : Numeral} {number : Int}
      (limit : readLimit? keyword clause = some numeral) (value : numeral.read = .ok number) :
      number.natAbs ≤ twoPow (4 * length) := by
    have digits := length_read_limit limit
    exact Nat.le_trans (Numeral.read_le_twoPow value) (twoPow_le (by omega))
  rcases number_of_with_clause read with
    ⟨numeral, number, limit, -, value, rfl⟩ | ⟨numeral, number, -, limit, value, rfl⟩
  · exact ⟨bound limit value, within.maximum⟩
  · exact ⟨within.minimum, bound limit value⟩

theorem within_of_split {text expression : Text}
    (cut : splitLimits text = .ok (expression, limits)) : limits.IsWithin (4 * text.length) := by
  obtain ⟨clauses, parts, read⟩ := split_limits_eq_ok.mp cut
  refine kept_of_foldlM (fun clause member before behind within one => ?_)
    ⟨Nat.zero_le _, Nat.zero_le _⟩ read
  refine within_with_clause within ?_ one
  apply length_of_mem_split_on
  rw [parts]
  exact List.mem_cons_of_mem _ member

end Limits

end TabletopDice
