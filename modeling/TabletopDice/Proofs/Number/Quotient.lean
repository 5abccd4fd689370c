import Mathlib.Data.Nat.Dist
import TabletopDice.Proofs.Number.WholeNumber

/-!
Quotients of integers as doubles. What a quotient is rounded to is the double closest to it, and
of two that are equally close the even one. The error of a quotient of two integers up to 2⁵³ is
less than one over the divisor, and no whole number is closer to the quotient than that without
being equal to it. So rounding passes no whole number, and the rounded quotient has the floor of
the exact one.
-/

namespace TabletopDice

section Rounding

variable {denominator : Nat} (numerator : Nat)

theorem dist_roundDiv_le (positive : 0 < denominator) :
    2 * Nat.dist numerator (denominator * roundDiv numerator denominator) ≤ denominator := by
  have above := mul_roundDiv_le numerator positive
  have below := le_mul_roundDiv numerator positive
  unfold Nat.dist
  omega

theorem le_dist_of_ne_roundDiv (positive : 0 < denominator) {other : Nat}
    (differs : other ≠ roundDiv numerator denominator) :
    denominator ≤ 2 * Nat.dist numerator (denominator * other) := by
  have near := dist_roundDiv_le numerator positive
  unfold Nat.dist at near ⊢
  rcases Nat.lt_or_gt_of_ne differs with less | greater
  · have step := Nat.mul_le_mul_left denominator (Nat.succ_le_of_lt less)
    rw [Nat.mul_succ] at step
    omega
  · have step := Nat.mul_le_mul_left denominator (Nat.succ_le_of_lt greater)
    rw [Nat.mul_succ] at step
    omega

theorem neighbours_of_tie (positive : 0 < denominator) {other : Nat}
    (differs : other ≠ roundDiv numerator denominator)
    (tie : Nat.dist numerator (denominator * other) =
      Nat.dist numerator (denominator * roundDiv numerator denominator)) :
    Nat.dist (roundDiv numerator denominator) other = 1 ∧ roundDiv numerator denominator % 2 = 0 := by
  have near := dist_roundDiv_le numerator positive
  have away := le_dist_of_ne_roundDiv numerator positive differs
  constructor
  · have apart := Nat.dist.triangle_inequality
      (denominator * roundDiv numerator denominator) numerator (denominator * other)
    rw [Nat.dist_comm (denominator * _) numerator, Nat.dist_mul_left] at apart
    have most : denominator * Nat.dist (roundDiv numerator denominator) other ≤ denominator * 1 := by
      omega
    have neighbour := Nat.le_of_mul_le_mul_left most positive
    unfold Nat.dist at neighbour ⊢
    omega
  · have whole := Nat.div_add_mod numerator denominator
    have short := Nat.mod_lt numerator positive
    rw [tie] at away
    simp only [roundDiv, Nat.dist] at near away ⊢
    by_cases low : 2 * (numerator % denominator) < denominator
    · rw [if_pos low] at near away
      omega
    rw [if_neg low] at near away ⊢
    by_cases high : denominator < 2 * (numerator % denominator)
    · rw [if_pos high, Nat.mul_succ] at near away
      omega
    · rw [if_neg high]
      omega

end Rounding

namespace Double

/-- The units of a finite double: at most 53 bits in front of zeros, and not too many zeros. -/
def IsFinite (units : Nat) : Prop :=
  units < bound ∧ ∃ significand shift, units = significand * twoPow shift ∧ significand ≤ twoPow 53

/-- How far a number of units is from the quotient, times the denominator. -/
def error (numerator denominator units : Nat) : Nat := Nat.dist numerator (denominator * units)

/-- The units are those of the finite double closest to the quotient. Of two that are equally
close it is the one whose last place is even, the gap between the two being one at that place. -/
structure IsNearest (numerator denominator units : Nat) : Prop where
  finite : IsFinite units
  closest : ∀ other, IsFinite other →
    error numerator denominator units ≤ error numerator denominator other
  even : ∀ other, IsFinite other → other ≠ units →
    error numerator denominator other = error numerator denominator units →
      2 * Nat.dist units other ∣ units

variable {numerator denominator : Nat}

/-- The spacing goes 2⁵² times into the quotient, unless it is the smallest one. -/
theorem spacing_le (coarse : (numerator / denominator).log2 - 52 ≠ 0) :
    denominator * twoPow ((numerator / denominator).log2 - 52) * twoPow 52 ≤ numerator := by
  have nonzero : numerator / denominator ≠ 0 := by
    intro zero
    rw [zero, Nat.log2_zero] at coarse
    exact coarse rfl
  have self := Nat.log2_self_le nonzero
  rw [← twoPow_eq] at self
  have bits : (numerator / denominator).log2 - 52 + 52 = (numerator / denominator).log2 := by omega
  calc
    denominator * twoPow ((numerator / denominator).log2 - 52) * twoPow 52 =
        denominator * twoPow (numerator / denominator).log2 := by
      rw [Nat.mul_assoc, ← twoPow_add, bits]
    _ ≤ denominator * (numerator / denominator) := Nat.mul_le_mul_left _ self
    _ ≤ numerator := Nat.mul_div_le _ _

/-- A double between the multiples of the spacing lies below all doubles around the quotient. -/
theorem error_lt_of_not_dvd (positive : 0 < denominator) {other : Nat} (finite : IsFinite other)
    (between : ¬twoPow ((numerator / denominator).log2 - 52) ∣ other) :
    Nat.dist numerator (denominator * twoPow ((numerator / denominator).log2 - 52) * twoPow 52) <
      error numerator denominator other := by
  obtain ⟨-, significand, shift, rfl, short⟩ := finite
  have fine : shift < (numerator / denominator).log2 - 52 := by
    apply Nat.lt_of_not_le
    intro wide
    exact between (Nat.dvd_trans (twoPow_dvd wide) (Nat.dvd_mul_left _ _))
  have inside := spacing_le (Nat.ne_zero_of_lt fine)
  generalize (numerator / denominator).log2 - 52 = spacing at between fine inside ⊢
  have most : significand * twoPow shift ≤ twoPow spacing * twoPow 52 := by
    calc
      significand * twoPow shift ≤ twoPow 53 * twoPow shift := Nat.mul_le_mul_right _ short
      _ = twoPow (53 + shift) := (twoPow_add 53 shift).symm
      _ ≤ twoPow (spacing + 52) := twoPow_le (by omega)
      _ = twoPow spacing * twoPow 52 := twoPow_add spacing 52
  have less : significand * twoPow shift < twoPow spacing * twoPow 52 := by
    apply Nat.lt_of_le_of_ne most
    intro same
    exact between (same ▸ Nat.dvd_mul_right _ _)
  have below := Nat.mul_lt_mul_of_pos_left less positive
  rw [← Nat.mul_assoc denominator (twoPow spacing)] at below
  unfold error Nat.dist
  omega

theorem is_nearest_of_nearest {units : Nat} {negative : Bool} (positive : 0 < denominator)
    (rounded : nearest negative numerator denominator = finite negative units) :
    IsNearest numerator denominator units := by
  have isFinite : IsFinite units := exists_significand positive rounded
  have far {other : Nat} := @error_lt_of_not_dvd numerator denominator positive other
  obtain ⟨-, -, rfl⟩ := nearest_eq_finite rounded
  generalize (numerator / denominator).log2 - 52 = spacing at isFinite far ⊢
  have step : 0 < denominator * twoPow spacing := Nat.mul_pos positive (twoPow_pos spacing)
  have multiple (count : Nat) : error numerator denominator (count * twoPow spacing) =
      Nat.dist numerator (denominator * twoPow spacing * count) := by
    rw [error, Nat.mul_comm count, Nat.mul_assoc]
  have near := dist_roundDiv_le numerator step
  have closestMultiple (count : Nat) : error numerator denominator
      (roundDiv numerator (denominator * twoPow spacing) * twoPow spacing) ≤
        Nat.dist numerator (denominator * twoPow spacing * count) := by
    rw [multiple]
    by_cases same : count = roundDiv numerator (denominator * twoPow spacing)
    · rw [same]
    · have away := le_dist_of_ne_roundDiv numerator step same
      omega
  refine ⟨isFinite, ?_, ?_⟩
  · intro other otherFinite
    by_cases whole : twoPow spacing ∣ other
    · obtain ⟨count, rfl⟩ := whole
      rw [Nat.mul_comm (twoPow spacing), multiple count]
      exact closestMultiple count
    · exact Nat.le_trans (closestMultiple _) (Nat.le_of_lt (far otherFinite whole))
  · intro other otherFinite differs tie
    by_cases whole : twoPow spacing ∣ other
    · obtain ⟨count, rfl⟩ := whole
      rw [Nat.mul_comm (twoPow spacing)] at differs tie ⊢
      rw [multiple, multiple] at tie
      obtain ⟨gap, even⟩ := neighbours_of_tie numerator step (fun same => differs (by rw [same])) tie
      rw [Nat.dist_mul_right, gap, Nat.one_mul]
      exact Nat.mul_dvd_mul_right (Nat.dvd_of_mod_eq_zero even) _
    · have further := far otherFinite whole
      have closer := closestMultiple (twoPow 52)
      omega

section SafeRange

variable {dividend divisor units whole : Nat} {negative : Bool}

theorem exists_quotient (negative : Bool) (positive : 0 < divisor) (small : dividend ≤ twoPow 53) :
    ∃ units, ofRatio negative dividend divisor = finite negative units := by
  have fits : dividend * one ≤ twoPow (53 + 1074) * divisor := by
    calc
      dividend * one ≤ twoPow 53 * one := Nat.mul_le_mul_right _ small
      _ = twoPow (53 + 1074) := (twoPow_add 53 1074).symm
      _ ≤ twoPow (53 + 1074) * divisor := Nat.le_mul_of_pos_right _ positive
  obtain ⟨units, rounded, -⟩ := nearest_fits negative positive (by decide) fits
  exact ⟨units, rounded⟩

variable (positive : 0 < divisor) (small : dividend ≤ twoPow 53)
  (rounded : ofRatio negative dividend divisor = finite negative units)

include positive small rounded

/-- The rounding error of the quotient is less than one over the divisor. -/
theorem error_lt_one (few : divisor ≤ twoPow 53) : error (dividend * one) divisor units < one := by
  have inside := @spacing_le (dividend * one) divisor
  obtain ⟨-, -, rfl⟩ := nearest_eq_finite rounded
  generalize (dividend * one / divisor).log2 - 52 = spacing at inside ⊢
  have step : 0 < divisor * twoPow spacing := Nat.mul_pos positive (twoPow_pos spacing)
  have near := dist_roundDiv_le (dividend * one) step
  rw [error, Nat.mul_comm _ (twoPow spacing), ← Nat.mul_assoc]
  have unit : twoPow 53 < one := twoPow_lt (by decide)
  by_cases fine : spacing = 0
  · have same : divisor * twoPow spacing = divisor := by
      rw [fine, twoPow_eq, Nat.pow_zero, Nat.mul_one]
    omega
  have covered := inside fine
  have most : dividend * one ≤ 2 * one * twoPow 52 := by
    calc
      dividend * one ≤ twoPow 53 * one := Nat.mul_le_mul_right _ small
      _ = 2 * one * twoPow 52 := by
        rw [twoPow_succ 52, Nat.mul_assoc, Nat.mul_comm (twoPow 52)]
  -- At the end of the range a step is two units over the divisor, but the quotient is exact there.
  by_cases exact : dividend * one = divisor * twoPow spacing * twoPow 52
  · rw [exact, Nat.mul_comm _ (twoPow 52), roundDiv_mul_right step, Nat.mul_comm (twoPow 52),
      Nat.dist_self]
    exact one_pos
  · have less : divisor * twoPow spacing * twoPow 52 < 2 * one * twoPow 52 := by omega
    have narrow := Nat.lt_of_mul_lt_mul_right less
    omega

theorem units_eq_of_whole (exact : dividend = whole * divisor) : units = whole * one := by
  have short : whole ≤ twoPow 53 := by
    apply Nat.le_trans _ small
    rw [exact]
    exact Nat.le_mul_of_pos_right _ positive
  have below : whole * twoPow 1074 < bound := by
    calc
      whole * twoPow 1074 ≤ twoPow 53 * twoPow 1074 := Nat.mul_le_mul_right _ short
      _ = twoPow (53 + 1074) := (twoPow_add 53 1074).symm
      _ < bound := twoPow_lt (by decide)
  have reduced := of_ratio_mul_mul positive negative whole 1
  have itself : ofRatio negative whole 1 = finite negative (whole * one) :=
    nearest_of_significand negative short below
  rw [Nat.one_mul, ← exact, rounded, itself] at reduced
  cases reduced
  rfl

theorem lt_units_of_lt (few : divisor ≤ twoPow 53) (above : whole * divisor < dividend) :
    whole * one < units := by
  have close := error_lt_one positive small rounded few
  have apart := Nat.mul_le_mul_right one (Nat.succ_le_of_lt above)
  rw [Nat.succ_mul, Nat.mul_right_comm, Nat.mul_comm _ divisor] at apart
  unfold error Nat.dist at close
  have scaled : divisor * (whole * one) < divisor * units := by omega
  exact Nat.lt_of_mul_lt_mul_left scaled

theorem units_lt_of_lt (few : divisor ≤ twoPow 53) (below : dividend < whole * divisor) :
    units < whole * one := by
  have close := error_lt_one positive small rounded few
  have apart := Nat.mul_le_mul_right one (Nat.succ_le_of_lt below)
  rw [Nat.succ_mul, Nat.mul_right_comm whole, Nat.mul_comm _ divisor] at apart
  unfold error Nat.dist at close
  have scaled : divisor * units < divisor * (whole * one) := by omega
  exact Nat.lt_of_mul_lt_mul_left scaled

/-- Rounding a quotient passes no whole number, in neither direction. -/
theorem whole_le_units_iff (few : divisor ≤ twoPow 53) :
    whole * one ≤ units ↔ whole * divisor ≤ dividend := by
  constructor
  · intro reached
    apply Nat.le_of_not_lt
    intro below
    exact Nat.not_lt.mpr reached (units_lt_of_lt positive small rounded few below)
  · intro reached
    rcases Nat.lt_or_eq_of_le reached with above | exact
    · exact Nat.le_of_lt (lt_units_of_lt positive small rounded few above)
    · exact Nat.le_of_eq (units_eq_of_whole positive small rounded exact.symm).symm

theorem units_le_whole_iff (few : divisor ≤ twoPow 53) :
    units ≤ whole * one ↔ dividend ≤ whole * divisor := by
  constructor
  · intro reached
    apply Nat.le_of_not_lt
    intro above
    exact Nat.not_lt.mpr reached (lt_units_of_lt positive small rounded few above)
  · intro reached
    rcases Nat.lt_or_eq_of_le reached with below | exact
    · exact Nat.le_of_lt (units_lt_of_lt positive small rounded few below)
    · exact Nat.le_of_eq (units_eq_of_whole positive small rounded exact)

/-- The order against every integer stays the same, with the sign taken into account. -/
theorem mul_le_signed_units_iff (few : divisor ≤ twoPow 53) (integer : Int) :
    integer * one ≤ signedUnits negative units ↔ integer * divisor ≤ signedUnits negative dividend := by
  have unit : (0 : Int) < one := Int.ofNat_lt.mpr one_pos
  have some : (0 : Int) < divisor := Int.ofNat_lt.mpr positive
  cases negative with
  | false =>
      change integer * one ≤ units ↔ integer * divisor ≤ dividend
      rcases Int.lt_or_le integer 0 with less | more
      · have scaled := Int.mul_neg_of_neg_of_pos less unit
        have divided := Int.mul_neg_of_neg_of_pos less some
        omega
      · obtain ⟨whole, rfl⟩ := Int.eq_ofNat_of_zero_le more
        exact_mod_cast whole_le_units_iff positive small rounded few
  | true =>
      change integer * one ≤ -units ↔ integer * divisor ≤ -dividend
      rcases Int.lt_or_le 0 integer with more | less
      · have scaled := Int.mul_pos more unit
        have divided := Int.mul_pos more some
        omega
      · obtain ⟨whole, same⟩ := Int.eq_ofNat_of_zero_le (Int.neg_nonneg_of_nonpos less)
        obtain rfl : integer = -whole := by omega
        rw [Int.neg_mul, Int.neg_mul, Int.neg_le_neg_iff, Int.neg_le_neg_iff]
        exact_mod_cast units_le_whole_iff positive small rounded few

theorem floor_of_ratio (few : divisor ≤ twoPow 53) :
    (ofRatio negative dividend divisor).floor =
      .ok (Int.fdiv (signedUnits negative dividend) divisor) := by
  have unit : (0 : Int) < one := Int.ofNat_lt.mpr one_pos
  have some : (0 : Int) < divisor := Int.ofNat_lt.mpr positive
  rw [rounded, floor, Int.fdiv_eq_ediv_of_nonneg _ (Int.le_of_lt unit),
    Int.fdiv_eq_ediv_of_nonneg _ (Int.le_of_lt some)]
  apply congrArg
  apply eq_of_forall_le_iff
  intro integer
  rw [Int.le_ediv_iff_mul_le unit, Int.le_ediv_iff_mul_le some]
  exact mul_le_signed_units_iff positive small rounded few integer

end SafeRange

end Double

namespace Operand

theorem signed_units_mul (value : Int) (unit : Nat) :
    Double.signedUnits (decide (value < 0)) (value.natAbs * unit) = value * unit := by
  rcases Int.lt_or_le value 0 with below | above
  · rw [decide_eq_true below, Double.signedUnits, if_pos rfl, Int.natCast_mul,
      Int.ofNat_natAbs_of_nonpos (Int.le_of_lt below), Int.neg_mul, Int.neg_neg]
  · rw [decide_eq_false (Int.not_lt.mpr above), Double.signedUnits, if_neg Bool.false_ne_true,
      Int.natCast_mul, Int.natAbs_of_nonneg above]

theorem fdiv_eq_signed (left right : Int) : left.fdiv right = Int.fdiv
    (Double.signedUnits (decide (left < 0) != decide (right < 0)) left.natAbs) right.natAbs := by
  have signed := signed_units_mul left 1
  rw [Nat.mul_one, Int.natCast_one, Int.mul_one] at signed
  rcases Int.lt_or_le right 0 with below | above
  · have turned : Double.signedUnits (!decide (left < 0)) left.natAbs = -left := by
      conv_rhs => rw [← signed]
      unfold Double.signedUnits
      cases decide (left < 0) with
      | false => rfl
      | true => exact (Int.neg_neg _).symm
    rw [decide_eq_true below, Bool.bne_true, turned, Int.ofNat_natAbs_of_nonpos (Int.le_of_lt below),
      Int.neg_fdiv_neg]
  · rw [decide_eq_false (Int.not_lt.mpr above), Bool.bne_false, signed, Int.natAbs_of_nonneg above]

variable {left right : Int}

/-- The quotient of two integers up to 2⁵³ is rounded to the nearest double and then floored. -/
theorem exists_nearest_of_div (small : left.natAbs ≤ twoPow 53) (nonzero : right ≠ 0) :
    ∃ units, Double.IsNearest (left.natAbs * Double.one) right.natAbs units ∧
      Operand.div (.int left) (.int right) =
        (Double.finite (decide (left < 0) != decide (right < 0)) units).floor := by
  have positive := Int.natAbs_pos.mpr nonzero
  obtain ⟨units, rounded⟩ := Double.exists_quotient
    (decide (left < 0) != decide (right < 0)) positive small
  refine ⟨units, Double.is_nearest_of_nearest positive rounded, ?_⟩
  change divInt left right = _
  rw [divInt, rounded]
  rfl

theorem div_int_eq_fdiv (small : left.natAbs ≤ twoPow 53) (few : right.natAbs ≤ twoPow 53)
    (nonzero : right ≠ 0) : Operand.div (.int left) (.int right) = .ok (left.fdiv right) := by
  have positive := Int.natAbs_pos.mpr nonzero
  obtain ⟨units, rounded⟩ := Double.exists_quotient
    (decide (left < 0) != decide (right < 0)) positive small
  have floored := Double.floor_of_ratio positive small rounded few
  rw [rounded] at floored
  change divInt left right = _
  rw [divInt, rounded, fdiv_eq_signed]
  exact floored

theorem lt_int (left right : Int) : lt (.int left) (.int right) = decide (left < right) := by
  have unit : (0 : Int) < Double.one := Int.ofNat_lt.mpr Double.one_pos
  change decide (Double.signedUnits _ _ < Double.signedUnits _ _) = _
  rw [signed_units_mul, signed_units_mul, decide_eq_decide]
  exact ⟨fun less => Int.lt_of_mul_lt_mul_right less (Int.le_of_lt unit),
    fun less => Int.mul_lt_mul_of_pos_right less unit⟩

end Operand

end TabletopDice
