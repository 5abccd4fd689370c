import TabletopDice.Expression.Stack
import TabletopDice.Proofs.Computation
import TabletopDice.Proofs.Number.DecimalText

/-!
How large numbers get. Rounding never leaves a range that ends at a power of two, for
the power is a double itself; so the exponents of such ranges add up along a product
or a quotient, and with one more along a sum.
-/

namespace TabletopDice

theorem twoPow_le {exponent more : Nat} (bound : exponent ≤ more) : twoPow exponent ≤ twoPow more := by
  obtain ⟨difference, rfl⟩ := Nat.exists_eq_add_of_le bound
  rw [twoPow_add]
  exact Nat.le_mul_of_pos_right _ (twoPow_pos difference)

theorem twoPow_lt {exponent more : Nat} (bound : exponent < more) : twoPow exponent < twoPow more := by
  have next := twoPow_le (Nat.succ_le_of_lt bound)
  have positive := twoPow_pos exponent
  rw [twoPow_succ] at next
  omega

theorem twoPow_eq (exponent : Nat) : twoPow exponent = 2 ^ exponent := by
  unfold twoPow
  rfl

theorem tenPow_le_twoPow (exponent : Nat) : tenPow exponent ≤ twoPow (4 * exponent) := by
  induction exponent with
  | zero => exact Nat.le_of_eq ((tenPow_eq 0).trans (twoPow_eq 0).symm)
  | succ exponent ih =>
      rw [tenPow_succ, Nat.mul_add, twoPow_add]
      exact Nat.mul_le_mul ih (by decide +kernel)

theorem add_le_twoPow {left right first second : Nat} (one : left ≤ twoPow first)
    (other : right ≤ twoPow second) : left + right ≤ twoPow (first + second + 1) := by
  have widenFirst := twoPow_le (Nat.le_add_right first second)
  have widenSecond := twoPow_le (Nat.le_add_left second first)
  rw [twoPow_succ]
  omega

theorem roundDiv_le {numerator denominator limit : Nat} (positive : 0 < denominator)
    (small : numerator ≤ limit * denominator) : roundDiv numerator denominator ≤ limit := by
  have close := mul_roundDiv_le numerator positive
  have scaled : denominator * (2 * roundDiv numerator denominator) ≤ denominator * (2 * limit + 1) := by
    calc
      denominator * (2 * roundDiv numerator denominator) =
          2 * (denominator * roundDiv numerator denominator) := Nat.mul_left_comm ..
      _ ≤ 2 * numerator + denominator := close
      _ ≤ 2 * (limit * denominator) + denominator := by omega
      _ = denominator * (2 * limit + 1) := by
        rw [Nat.mul_add, Nat.mul_one, Nat.mul_comm limit, Nat.mul_left_comm]
  have bound := Nat.le_of_mul_le_mul_left scaled positive
  omega

theorem le_roundDiv {numerator denominator limit : Nat} (positive : 0 < denominator)
    (large : limit * denominator ≤ numerator) : limit ≤ roundDiv numerator denominator := by
  have close := le_mul_roundDiv numerator positive
  have scaled : denominator * (2 * limit) ≤ denominator * (2 * roundDiv numerator denominator + 1) := by
    calc
      denominator * (2 * limit) = 2 * (limit * denominator) := by
        rw [Nat.mul_comm limit, Nat.mul_left_comm]
      _ ≤ 2 * numerator := by omega
      _ ≤ 2 * (denominator * roundDiv numerator denominator) + denominator := close
      _ = denominator * (2 * roundDiv numerator denominator + 1) := by
        rw [Nat.mul_add, Nat.mul_one, Nat.mul_left_comm]
  have bound := Nat.le_of_mul_le_mul_left scaled positive
  omega

namespace Double

def FitsIn (weight : Nat) : Double → Prop
  | finite _ units => units ≤ twoPow (weight + 1074)
  | _ => False

def IsCoarse (weight : Nat) : Double → Prop
  | finite _ units => units ≠ 0 → one ≤ units * twoPow weight
  | _ => False

/-- The spacing of the doubles around a quotient is at most the power that bounds it. -/
theorem shift_le {numerator denominator exponent : Nat}
    (small : numerator ≤ twoPow exponent * denominator) :
    (numerator / denominator).log2 - 52 ≤ exponent := by
  have quotient : numerator / denominator ≤ twoPow exponent :=
    Nat.div_le_of_le_mul (by rw [Nat.mul_comm]; exact small)
  by_cases zero : numerator / denominator = 0
  · rw [zero, Nat.log2_zero]
    omega
  · have next := twoPow_lt (Nat.lt_succ_self exponent)
    have below := (Nat.log2_lt zero).mpr (by
      rw [← twoPow_eq]
      exact Nat.lt_of_le_of_lt quotient next)
    omega

theorem shift_small {numerator denominator : Nat}
    (large : (numerator / denominator).log2 - 52 ≠ 0) :
    twoPow ((numerator / denominator).log2 - 52) * denominator ≤ numerator := by
  have nonzero : numerator / denominator ≠ 0 := by
    intro zero
    rw [zero, Nat.log2_zero] at large
    exact large rfl
  have self := Nat.log2_self_le nonzero
  rw [← twoPow_eq] at self
  calc
    twoPow ((numerator / denominator).log2 - 52) * denominator ≤
        numerator / denominator * denominator :=
      Nat.mul_le_mul_right _ (Nat.le_trans (twoPow_le (Nat.sub_le _ _)) self)
    _ ≤ numerator := Nat.div_mul_le_self _ _

theorem nearest_fits {numerator denominator weight : Nat} (negative : Bool)
    (positive : 0 < denominator) (inRange : weight < 1024)
    (small : numerator ≤ twoPow (weight + 1074) * denominator) :
    ∃ units, nearest negative numerator denominator = .finite negative units ∧
      units ≤ twoPow (weight + 1074) ∧
      ∀ least, twoPow least * denominator ≤ numerator → twoPow least ≤ units := by
  have within := shift_le small
  have above := @shift_small numerator denominator
  simp only [nearest]
  generalize (numerator / denominator).log2 - 52 = shift at within above ⊢
  have scaled : 0 < denominator * twoPow shift := Nat.mul_pos positive (twoPow_pos shift)
  have upper : roundDiv numerator (denominator * twoPow shift) * twoPow shift ≤
      twoPow (weight + 1074) := by
    have split : twoPow (weight + 1074) = twoPow (weight + 1074 - shift) * twoPow shift := by
      rw [← twoPow_add, Nat.sub_add_cancel within]
    rw [split]
    apply Nat.mul_le_mul_right
    apply roundDiv_le scaled
    calc
      numerator ≤ twoPow (weight + 1074) * denominator := small
      _ = twoPow (weight + 1074 - shift) * (denominator * twoPow shift) := by
        rw [split, Nat.mul_assoc, Nat.mul_comm (twoPow shift)]
  have belowBound : roundDiv numerator (denominator * twoPow shift) * twoPow shift < bound :=
    Nat.lt_of_le_of_lt upper (twoPow_lt (by omega))
  rw [if_pos belowBound]
  refine ⟨_, rfl, upper, ?_⟩
  intro least large
  -- Below the spacing a quotient is rounded to at least one step, and that step is large enough.
  by_cases fine : shift ≤ least
  · have split : twoPow least = twoPow (least - shift) * twoPow shift := by
      rw [← twoPow_add, Nat.sub_add_cancel fine]
    rw [split] at large ⊢
    apply Nat.mul_le_mul_right
    apply le_roundDiv scaled
    rw [Nat.mul_comm denominator, ← Nat.mul_assoc]
    exact large
  · have coarse := above (by omega)
    have some : 1 ≤ roundDiv numerator (denominator * twoPow shift) := by
      apply le_roundDiv scaled
      rw [Nat.one_mul, Nat.mul_comm]
      exact coarse
    calc
      twoPow least ≤ twoPow shift := twoPow_le (by omega)
      _ ≤ roundDiv numerator (denominator * twoPow shift) * twoPow shift :=
        Nat.le_mul_of_pos_left _ some

theorem nearest_zero (negative : Bool) {denominator : Nat} (positive : 0 < denominator) :
    nearest negative 0 denominator = .finite negative 0 := by
  have none : roundDiv 0 (denominator * twoPow ((0 / denominator).log2 - 52)) = 0 :=
    Nat.le_zero.mp (roundDiv_le (Nat.mul_pos positive (twoPow_pos _)) (Nat.zero_le _))
  simp only [nearest, none, Nat.zero_mul]
  exact if_pos (twoPow_pos 2098)

theorem floor_fits {value : Double} {weight : Nat} (fits : value.FitsIn weight) :
    ∃ whole, value.floor = .ok whole ∧ whole.natAbs ≤ twoPow weight := by
  cases value with
  | finite negative units =>
      refine ⟨_, rfl, ?_⟩
      have small : units ≤ twoPow weight * one := by
        rw [one, ← twoPow_add]
        exact fits
      have positive : (0 : Int) < one := Int.ofNat_lt.mpr one_pos
      have magnitude : (units : Int) ≤ twoPow weight * one := by exact_mod_cast small
      have lower : -(twoPow weight : Int) ≤ Int.fdiv (signedUnits negative units) one := by
        rw [Int.fdiv_eq_ediv_of_nonneg _ (Int.le_of_lt positive)]
        apply Int.le_ediv_of_mul_le positive
        rw [Int.neg_mul]
        unfold signedUnits
        split <;> omega
      have upper : Int.fdiv (signedUnits negative units) one ≤ twoPow weight := by
        rw [Int.fdiv_eq_ediv_of_nonneg _ (Int.le_of_lt positive)]
        apply Int.ediv_le_of_le_mul positive
        unfold signedUnits
        split <;> omega
      omega
  | infinite negative => exact fits.elim
  | notANumber negative => exact fits.elim

theorem in_range_of_fits {value : Double} {weight : Nat} (fits : value.FitsIn weight) :
    value.inRange = .ok value := by
  cases value with
  | finite negative units => rfl
  | infinite negative => exact fits.elim
  | notANumber negative => exact fits.elim

theorem floor_in_range {value : Double} {weight : Nat} (fits : value.FitsIn weight) :
    ∃ whole, (do (← value.inRange).floor) = .ok whole ∧ whole.natAbs ≤ twoPow weight := by
  obtain ⟨whole, floored, bound⟩ := floor_fits fits
  refine ⟨whole, ?_, bound⟩
  rw [in_range_of_fits fits]
  exact floored

theorem truncate_fits {value : Double} {weight : Nat} (fits : value.FitsIn weight) :
    ∃ whole, value.truncate = .ok whole ∧ whole.natAbs ≤ twoPow weight := by
  cases value with
  | finite negative units =>
      refine ⟨_, rfl, ?_⟩
      have magnitude : (signedUnits negative units).natAbs = units := by
        unfold signedUnits
        split <;> omega
      have small : units ≤ one * twoPow weight := by
        rw [one, ← twoPow_add, Nat.add_comm]
        exact fits
      rw [Int.natAbs_tdiv, magnitude, Int.natAbs_natCast]
      exact Nat.div_le_of_le_mul small
  | infinite negative => exact fits.elim
  | notANumber negative => exact fits.elim

theorem neg_fits {value : Double} {weight : Nat} (fits : value.FitsIn weight) :
    value.neg.FitsIn weight := by
  cases value with
  | finite negative units => exact fits
  | infinite negative => exact fits.elim
  | notANumber negative => exact fits.elim

theorem neg_coarse {value : Double} {weight : Nat} (coarse : value.IsCoarse weight) :
    value.neg.IsCoarse weight := by
  cases value with
  | finite negative units => exact coarse
  | infinite negative => exact coarse.elim
  | notANumber negative => exact coarse.elim

theorem exists_units_of_fits {value : Double} {weight : Nat} (fits : value.FitsIn weight) :
    ∃ negative units, value = finite negative units ∧ units ≤ twoPow (weight + 1074) := by
  cases value with
  | finite negative units => exact ⟨negative, units, rfl, fits⟩
  | infinite negative => exact fits.elim
  | notANumber negative => exact fits.elim

variable {left right : Double} {first second : Nat}

theorem fits_of_nearest {numerator denominator weight : Nat} (negative : Bool)
    (positive : 0 < denominator) (inRange : weight < 1024)
    (small : numerator ≤ twoPow (weight + 1074) * denominator) :
    (nearest negative numerator denominator).FitsIn weight := by
  obtain ⟨units, rounded, upper, -⟩ := nearest_fits negative positive inRange small
  rw [rounded]
  exact upper

theorem add_fits (one : left.FitsIn first) (other : right.FitsIn second)
    (inRange : first + second + 1 < 1024) : (add left right).FitsIn (first + second + 1) := by
  obtain ⟨negative, units, rfl, small⟩ := exists_units_of_fits one
  obtain ⟨sign, more, rfl, tiny⟩ := exists_units_of_fits other
  simp only [add]
  split
  · exact Nat.zero_le _
  · apply fits_of_nearest _ (by decide) inRange
    have magnitude : (signedUnits negative units + signedUnits sign more).natAbs ≤ units + more := by
      unfold signedUnits
      split <;> split <;> omega
    have widen : units + more ≤ twoPow (first + second + 1 + 1074) := by
      have firstFits : units ≤ twoPow (first + second + 1074) :=
        Nat.le_trans small (twoPow_le (by omega))
      have secondFits : more ≤ twoPow (first + second + 1074) :=
        Nat.le_trans tiny (twoPow_le (by omega))
      have exponent : first + second + 1 + 1074 = first + second + 1074 + 1 := by omega
      rw [exponent, twoPow_succ]
      omega
    rw [Nat.mul_one]
    exact Nat.le_trans magnitude widen

theorem mul_fits (one : left.FitsIn first) (other : right.FitsIn second)
    (inRange : first + second < 1024) : (mul left right).FitsIn (first + second) := by
  obtain ⟨negative, units, rfl, small⟩ := exists_units_of_fits one
  obtain ⟨sign, more, rfl, tiny⟩ := exists_units_of_fits other
  apply fits_of_nearest _ one_pos inRange
  have exponent : first + 1074 + (second + 1074) = first + second + 1074 + 1074 := by omega
  calc
    units * more ≤ twoPow (first + 1074) * twoPow (second + 1074) := Nat.mul_le_mul small tiny
    _ = twoPow (first + second + 1074) * Double.one := by
      rw [← twoPow_add, exponent, twoPow_add]
      rfl

/-- A quotient is as large as the divisor is small. -/
theorem div_fits (one : left.FitsIn first) (finite : right.FitsIn second)
    (other : right.IsCoarse second) (nonzero : right.isZero = false)
    (inRange : first + second < 1024) : (div left right).FitsIn (first + second) := by
  obtain ⟨negative, units, rfl, small⟩ := exists_units_of_fits one
  obtain ⟨sign, more, rfl, -⟩ := exists_units_of_fits finite
  have some : more ≠ 0 := by simpa [isZero] using nonzero
  apply fits_of_nearest _ (Nat.pos_of_ne_zero some) inRange
  have exponent : first + 1074 + second = first + second + 1074 := by omega
  calc
    units * Double.one ≤ twoPow (first + 1074) * (more * twoPow second) :=
      Nat.mul_le_mul small (other some)
    _ = twoPow (first + second + 1074) * more := by
      rw [Nat.mul_left_comm, ← twoPow_add, exponent, Nat.mul_comm]

end Double

namespace Operand

/-- The number is at most the power of two, and a fraction is not less than its inverse. -/
def IsWithin (weight : Nat) : Operand → Prop
  | int value => value.natAbs ≤ twoPow weight
  | real value => value.FitsIn weight ∧ value.IsCoarse weight

variable {operand left right : Operand} {weight first second : Nat}

theorem within_mono {more : Nat} (within : operand.IsWithin weight) (wider : weight ≤ more) :
    operand.IsWithin more := by
  cases operand with
  | int value => exact Nat.le_trans within (twoPow_le wider)
  | real value =>
      cases value with
      | finite negative units =>
          refine ⟨Nat.le_trans within.1 (twoPow_le (by omega)), ?_⟩
          intro some
          exact Nat.le_trans (within.2 some) (Nat.mul_le_mul_left _ (twoPow_le wider))
      | infinite negative => exact within.1.elim
      | notANumber negative => exact within.1.elim

theorem neg_within (within : operand.IsWithin weight) : operand.neg.IsWithin weight := by
  cases operand with
  | int value =>
      change (-value).natAbs ≤ twoPow weight
      rw [Int.natAbs_neg]
      exact within
  | real value => exact ⟨Double.neg_fits within.1, Double.neg_coarse within.2⟩

theorem truncate_within (within : operand.IsWithin weight) :
    ∃ whole, operand.truncate = .ok whole ∧ whole.natAbs ≤ twoPow weight := by
  cases operand with
  | int value => exact ⟨value, rfl, within⟩
  | real value => exact Double.truncate_fits within.1

theorem to_double_within (within : operand.IsWithin weight) (inRange : weight < 1024) :
    ∃ value, operand.toDouble = .ok value ∧ value.FitsIn weight ∧ value.IsCoarse weight ∧
      value.isZero = operand.isZero := by
  cases operand with
  | real value => exact ⟨value, rfl, within.1, within.2, rfl⟩
  | int value =>
      have scaled : value.natAbs * Double.one ≤ twoPow (weight + 1074) * 1 := by
        rw [Nat.mul_one, twoPow_add]
        exact Nat.mul_le_mul_right _ within
      obtain ⟨units, rounded, upper, lower⟩ :=
        Double.nearest_fits (decide (value < 0)) (by decide) inRange scaled
      have converted : toDouble (int value) = .ok (.finite (decide (value < 0)) units) := by
        rw [toDouble, Double.ofInt?, Double.ofInt, Double.ofRatio, rounded]
        rfl
      refine ⟨_, converted, upper, ?_⟩
      by_cases zero : value = 0
      · subst zero
        have none : units = 0 := by
          rw [Int.natAbs_zero, Nat.zero_mul, Double.nearest_zero _ (by decide)] at rounded
          cases rounded
          rfl
        subst none
        exact ⟨fun some => absurd rfl some, rfl⟩
      · have least : Double.one ≤ units := lower 1074 (by
          rw [Nat.mul_one]
          exact Nat.le_mul_of_pos_left _ (Int.natAbs_pos.mpr zero))
        have some : units ≠ 0 := Nat.ne_of_gt (Nat.lt_of_lt_of_le Double.one_pos least)
        refine ⟨fun _ => Nat.le_trans least (Nat.le_mul_of_pos_right _ (twoPow_pos weight)), ?_⟩
        simp [Double.isZero, isZero, some, zero]

theorem rounded_within {rounded : Double → Double → Double} (one : left.IsWithin first)
    (other : right.IsWithin second) (firstRange : first < 1024) (secondRange : second < 1024)
    (fits : ∀ a b : Double, a.FitsIn first → b.FitsIn second → (rounded a b).FitsIn weight) :
    ∃ value, (do
        let left ← left.toDouble
        let right ← right.toDouble
        (rounded left right).floor) = .ok value ∧ value.natAbs ≤ twoPow weight := by
  obtain ⟨a, readLeft, fitsLeft, -, -⟩ := to_double_within one firstRange
  obtain ⟨b, readRight, fitsRight, -, -⟩ := to_double_within other secondRange
  obtain ⟨value, floored, bound⟩ := Double.floor_fits (fits a b fitsLeft fitsRight)
  refine ⟨value, ?_, bound⟩
  rw [readLeft, readRight]
  exact floored

theorem arithmetic_within {exactly : Int → Int → Int} {rounded : Double → Double → Double}
    (one : left.IsWithin first) (other : right.IsWithin second)
    (firstRange : first < 1024) (secondRange : second < 1024)
    (whole : ∀ a b : Int, a.natAbs ≤ twoPow first → b.natAbs ≤ twoPow second →
      (exactly a b).natAbs ≤ twoPow weight)
    (fits : ∀ a b : Double, a.FitsIn first → b.FitsIn second → (rounded a b).FitsIn weight) :
    ∃ value, arithmetic exactly rounded left right = .ok value ∧ value.natAbs ≤ twoPow weight := by
  unfold arithmetic
  split
  · exact ⟨_, rfl, whole _ _ one other⟩
  · exact rounded_within one other firstRange secondRange fits

theorem add_within (one : left.IsWithin first) (other : right.IsWithin second)
    (inRange : first + second + 1 < 1024) :
    ∃ value, left.add right = .ok value ∧ value.natAbs ≤ twoPow (first + second + 1) := by
  apply arithmetic_within one other (by omega) (by omega)
  · intro a b small few
    exact Nat.le_trans (Int.natAbs_add_le a b) (add_le_twoPow small few)
  · intro a b small few
    exact Double.add_fits small few inRange

theorem sub_within (one : left.IsWithin first) (other : right.IsWithin second)
    (inRange : first + second + 1 < 1024) :
    ∃ value, left.sub right = .ok value ∧ value.natAbs ≤ twoPow (first + second + 1) := by
  apply arithmetic_within one other (by omega) (by omega)
  · intro a b small few
    exact Nat.le_trans (Int.natAbs_sub_le a b) (add_le_twoPow small few)
  · intro a b small few
    exact Double.add_fits small (Double.neg_fits few) inRange

theorem mul_within (one : left.IsWithin first) (other : right.IsWithin second)
    (inRange : first + second < 1024) :
    ∃ value, left.mul right = .ok value ∧ value.natAbs ≤ twoPow (first + second) := by
  apply arithmetic_within one other (by omega) (by omega)
  · intro a b small few
    rw [Int.natAbs_mul, twoPow_add]
    exact Nat.mul_le_mul small few
  · intro a b small few
    exact Double.mul_fits small few inRange

theorem div_int_within {left right : Int} (small : left.natAbs ≤ twoPow first) (nonzero : right ≠ 0)
    (inRange : first < 1024) :
    ∃ value, divInt left right = .ok value ∧ value.natAbs ≤ twoPow first := by
  have positive := Int.natAbs_pos.mpr nonzero
  have scaled : left.natAbs * Double.one ≤ twoPow (first + 1074) * right.natAbs := by
    calc
      left.natAbs * Double.one ≤ twoPow first * Double.one := Nat.mul_le_mul_right _ small
      _ = twoPow (first + 1074) := (twoPow_add first 1074).symm
      _ ≤ twoPow (first + 1074) * right.natAbs := Nat.le_mul_of_pos_right _ positive
  exact Double.floor_in_range (Double.fits_of_nearest
    (decide (left < 0) != decide (right < 0)) positive inRange scaled)

theorem div_within (one : left.IsWithin first) (other : right.IsWithin second)
    (nonzero : right.isZero = false) (inRange : first + second < 1024) :
    ∃ value, left.div right = .ok value ∧ value.natAbs ≤ twoPow (first + second) := by
  unfold div
  split
  next a b =>
    have some : b ≠ 0 := by simpa [isZero] using nonzero
    obtain ⟨value, divided, bound⟩ := div_int_within one some (by omega)
    exact ⟨value, divided, Nat.le_trans bound (twoPow_le (Nat.le_add_right first second))⟩
  next =>
    obtain ⟨a, readLeft, fitsLeft, -, -⟩ := to_double_within one (by omega)
    obtain ⟨b, readRight, fitsRight, coarse, same⟩ := to_double_within other (by omega)
    rw [nonzero] at same
    obtain ⟨value, floored, bound⟩ :=
      Double.floor_fits (Double.div_fits fitsLeft fitsRight coarse same inRange)
    refine ⟨value, ?_, bound⟩
    rw [readLeft, readRight]
    exact floored

theorem at_most_within (one : left.IsWithin weight) (other : right.IsWithin weight) :
    (left.atMost right).IsWithin weight := by
  unfold atMost
  split
  · exact other
  · exact one

theorem at_least_within (one : left.IsWithin weight) (other : right.IsWithin weight) :
    (left.atLeast right).IsWithin weight := by
  unfold atLeast
  split
  · exact other
  · exact one

end Operand

end TabletopDice
