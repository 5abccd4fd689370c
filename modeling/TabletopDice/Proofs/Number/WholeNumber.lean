import TabletopDice.Number.Operand
import TabletopDice.Proofs.Number.DecimalText
import TabletopDice.Proofs.Number.Range

/-!
Whole numbers as doubles. The double nearest to an integer is a whole number of its own, which its
digits tell in full: rounding what is rounded already changes nothing.
-/

namespace TabletopDice.Double

open TabletopDice.Text

/-- A rounded magnitude has at most 53 bits in front of its trailing zeros. -/
theorem exists_significand {numerator denominator units : Nat} {negative : Bool}
    (positive : 0 < denominator)
    (rounded : nearest negative numerator denominator = finite negative units) :
    units < bound ∧
      ∃ significand shift, units = significand * twoPow shift ∧ significand ≤ twoPow 53 := by
  obtain ⟨-, small, rfl⟩ := nearest_eq_finite rounded
  refine ⟨small, _, _, rfl, roundDiv_le (Nat.mul_pos positive (twoPow_pos _)) ?_⟩
  have size : (numerator / denominator).log2 + 1 ≤
      53 + ((numerator / denominator).log2 - 52) := by omega
  have short : numerator / denominator < twoPow (53 + ((numerator / denominator).log2 - 52)) := by
    have below := Nat.lt_log2_self (n := numerator / denominator)
    rw [← twoPow_eq] at below
    exact Nat.lt_of_lt_of_le below (twoPow_le size)
  calc
    numerator ≤ twoPow (53 + ((numerator / denominator).log2 - 52)) * denominator :=
      Nat.le_of_lt ((Nat.div_lt_iff_lt_mul positive).mp short)
    _ = twoPow 53 * (denominator * twoPow ((numerator / denominator).log2 - 52)) := by
      rw [twoPow_add, Nat.mul_assoc, Nat.mul_comm (twoPow _) denominator]

theorem twoPow_dvd {exponent more : Nat} (bound : exponent ≤ more) : twoPow exponent ∣ twoPow more := by
  obtain ⟨difference, rfl⟩ := Nat.exists_eq_add_of_le bound
  exact ⟨twoPow difference, twoPow_add exponent difference⟩

/-- The spacing of the doubles around a number with few bits in front of its zeros goes into it. -/
theorem spacing_dvd {significand shift : Nat} (short : significand ≤ twoPow 53) :
    twoPow ((significand * twoPow shift).log2 - 52) ∣ significand * twoPow shift := by
  by_cases zero : significand * twoPow shift = 0
  · rw [zero]
    exact Nat.dvd_zero _
  have most : significand * twoPow shift ≤ twoPow (53 + shift) := by
    rw [twoPow_add]
    exact Nat.mul_le_mul_right _ short
  by_cases fine : (significand * twoPow shift).log2 - 52 ≤ shift
  · exact Nat.dvd_trans (twoPow_dvd fine) (Nat.dvd_mul_left _ _)
  · -- Only the power of two with 54 bits in front is above the spacing that the zeros allow.
    have least := Nat.log2_self_le zero
    rw [← twoPow_eq] at least
    have below := twoPow_lt (Nat.lt_succ_self (53 + shift))
    have bits := (Nat.log2_lt zero).mpr (by
      rw [← twoPow_eq]
      exact Nat.lt_of_le_of_lt most below)
    have power : (significand * twoPow shift).log2 = 53 + shift := by omega
    rw [power] at least
    have same := Nat.le_antisymm most least
    rw [same] at power ⊢
    rw [power]
    exact twoPow_dvd (by omega)

theorem nearest_of_significand (negative : Bool) {significand shift : Nat}
    (short : significand ≤ twoPow 53) (small : significand * twoPow shift < bound) :
    nearest negative (significand * twoPow shift) 1 =
      finite negative (significand * twoPow shift) := by
  obtain ⟨quotient, whole⟩ := @spacing_dvd significand shift short
  have units : roundDiv (significand * twoPow shift)
      (1 * twoPow ((significand * twoPow shift).log2 - 52)) *
        twoPow ((significand * twoPow shift).log2 - 52) = significand * twoPow shift := by
    generalize (significand * twoPow shift).log2 - 52 = spacing at whole ⊢
    rw [whole, Nat.one_mul, Nat.mul_comm (twoPow spacing), roundDiv_mul_right (twoPow_pos spacing)]
  simp only [nearest, Nat.div_one, units, if_pos small]

theorem nearest_of_rounded {numerator denominator units : Nat} {negative : Bool}
    (positive : 0 < denominator)
    (rounded : nearest negative numerator denominator = finite negative units) (sign : Bool) :
    nearest sign units 1 = finite sign units := by
  obtain ⟨small, significand, shift, rfl, short⟩ := exists_significand positive rounded
  exact nearest_of_significand sign short small

theorem units_ne_zero {numerator units : Nat} {negative : Bool} (nonzero : numerator ≠ 0)
    (rounded : nearest negative numerator 1 = finite negative units) : units ≠ 0 := by
  have coarse : twoPow (numerator.log2 - 52) ≤ numerator := by
    have self := Nat.log2_self_le nonzero
    rw [← twoPow_eq] at self
    exact Nat.le_trans (twoPow_le (Nat.sub_le _ _)) self
  have some : 1 ≤ roundDiv numerator (twoPow (numerator.log2 - 52)) :=
    le_roundDiv (twoPow_pos _) (by rw [Nat.one_mul]; exact coarse)
  obtain ⟨-, -, rfl⟩ := nearest_eq_finite rounded
  rw [Nat.div_one, Nat.one_mul]
  exact Nat.ne_of_gt (Nat.mul_pos some (twoPow_pos _))

/-- The double nearest to an integer is a whole number, zero only for zero, which is read again from
its digits. -/
theorem exists_whole_of_int {value : Int} {double : Double} (fits : ofInt? value = .ok double) :
    ∃ number : Nat, double = finite (decide (value < 0)) (number * one) ∧
      (value ≠ 0 → number ≠ 0) ∧ ofDecimal (ofNat number) [] = finite false (number * one) := by
  obtain ⟨units, rounded⟩ : ∃ units,
      nearest (decide (value < 0)) (value.natAbs * one) 1 = finite (decide (value < 0)) units ∧
        double = finite (decide (value < 0)) units := by
    unfold ofInt? ofInt ofRatio at fits
    cases found : nearest (decide (value < 0)) (value.natAbs * one) 1 with
    | finite sign units =>
        rw [found] at fits
        cases fits
        obtain rfl := (nearest_eq_finite found).1
        exact ⟨units, rfl, rfl⟩
    | infinite sign =>
        rw [found] at fits
        cases fits
    | notANumber sign =>
        rw [found] at fits
        cases fits
  obtain ⟨rounded, rfl⟩ := rounded
  obtain ⟨number, rfl⟩ := Nat.dvd_of_mod_eq_zero (is_integer_of_nearest rounded)
  rw [Nat.mul_comm one number] at rounded ⊢
  refine ⟨number, rfl, ?_, ?_⟩
  · rintro nonzero rfl
    have units := units_ne_zero (Nat.mul_ne_zero (Int.natAbs_ne_zero.mpr nonzero)
      (Nat.ne_of_gt one_pos)) rounded
    exact units (Nat.zero_mul one)
  · have unit : tenPow ([] : Text).length = 1 := tenPow_eq 0
    rw [ofDecimal, List.append_nil, digits_value_of_nat, unit, ofRatio]
    exact nearest_of_rounded Nat.one_pos rounded false

/-- The sign of an integer has no part in whether it is within range. -/
theorem of_int_nat_abs {value : Int} {double : Double} (fits : ofInt? value = .ok double) :
    ∃ magnitude, ofInt? value.natAbs = .ok magnitude := by
  simp only [ofInt?, ofInt, ofRatio, nearest, Int.natAbs_natCast] at fits ⊢
  split at fits
  next small =>
    rw [if_pos small]
    exact ⟨_, rfl⟩
  next => cases fits

theorem to_text_of_negative {number : Nat} (nonzero : number ≠ 0) :
    (finite true (number * one)).toText = '-' :: ofNat number := by
  obtain ⟨less, rfl⟩ := Nat.exists_eq_succ_of_ne_zero nonzero
  have quotient : Int.tdiv (signedUnits true ((less + 1) * one)) one = Int.negSucc less := by
    have positive := tdiv_signed_units one_pos (less + 1)
    rw [signedUnits, if_neg Bool.false_ne_true] at positive
    rw [signedUnits, if_pos rfl, Int.neg_tdiv, positive]
    rfl
  rw [toText, if_pos (Nat.mul_mod_left _ one), quotient]
  rfl

end TabletopDice.Double
