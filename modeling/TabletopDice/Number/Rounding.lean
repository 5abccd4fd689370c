/-!
Rounding a quotient of natural numbers to the nearest whole number, a tie going
to the even neighbour. The result is never more than half a unit away.
-/

namespace TabletopDice

/-- `numerator / denominator` to the nearest whole number, ties to even. -/
def roundDiv (numerator denominator : Nat) : Nat :=
  let quotient := numerator / denominator
  let twice := 2 * (numerator % denominator)
  if twice < denominator then quotient
  else if denominator < twice then quotient + 1
  else quotient + quotient % 2

theorem roundDiv_mul_right {denominator : Nat} (positive : 0 < denominator) (quotient : Nat) :
    roundDiv (quotient * denominator) denominator = quotient := by
  simp [roundDiv, Nat.mul_div_cancel _ positive, positive]

/-- Within half a unit from below. -/
theorem mul_roundDiv_le (numerator : Nat) {denominator : Nat} (positive : 0 < denominator) :
    2 * (denominator * roundDiv numerator denominator) ≤ 2 * numerator + denominator := by
  have whole := Nat.div_add_mod numerator denominator
  have short := Nat.mod_lt numerator positive
  simp only [roundDiv]
  split
  · omega
  · split
    · rw [Nat.mul_add]; omega
    · rcases Nat.mod_two_eq_zero_or_one (numerator / denominator) with even | odd
      · rw [even, Nat.add_zero]; omega
      · rw [odd, Nat.mul_add]; omega

/-- Within half a unit from above. -/
theorem le_mul_roundDiv (numerator : Nat) {denominator : Nat} (positive : 0 < denominator) :
    2 * numerator ≤ 2 * (denominator * roundDiv numerator denominator) + denominator := by
  have whole := Nat.div_add_mod numerator denominator
  have short := Nat.mod_lt numerator positive
  simp only [roundDiv]
  split
  · omega
  · split
    · rw [Nat.mul_add]; omega
    · rw [Nat.mul_add]; omega

end TabletopDice
