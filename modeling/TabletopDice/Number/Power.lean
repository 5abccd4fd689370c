/-!
Powers of the two bases that numbers are written in.
-/

namespace TabletopDice

def twoPow (exponent : Nat) : Nat := Nat.pow 2 exponent

def tenPow (exponent : Nat) : Nat := Nat.pow 10 exponent

theorem twoPow_pos (exponent : Nat) : 0 < twoPow exponent := Nat.pow_pos (by decide)

theorem twoPow_succ (exponent : Nat) : twoPow (exponent + 1) = twoPow exponent * 2 := rfl

theorem tenPow_pos (exponent : Nat) : 0 < tenPow exponent := Nat.pow_pos (by decide)

theorem tenPow_succ (exponent : Nat) : tenPow (exponent + 1) = tenPow exponent * 10 := rfl

theorem twoPow_add (exponent more : Nat) : twoPow (exponent + more) = twoPow exponent * twoPow more :=
  Nat.pow_add 2 exponent more

theorem tenPow_add (exponent more : Nat) : tenPow (exponent + more) = tenPow exponent * tenPow more :=
  Nat.pow_add 10 exponent more

theorem tenPow_le {exponent more : Nat} (bound : exponent ≤ more) : tenPow exponent ≤ tenPow more :=
  Nat.pow_le_pow_right (by decide) bound

theorem tenPow_eq (exponent : Nat) : tenPow exponent = Nat.pow 10 exponent := rfl

-- The exponents in use are far too large for a proof to work a power out.
attribute [irreducible] twoPow tenPow

end TabletopDice
