import TabletopDice.Number.Operand
import TabletopDice.Text.Numeral

/-!
Whole numbers as they stand in a text. Their digits are kept as written, so that a
number with too many of them is refused only where its value is asked for.
-/

namespace TabletopDice

structure Numeral where
  negative : Bool := false
  digits : Text
  deriving DecidableEq, Repr

namespace Numeral

def magnitude (numeral : Numeral) : Except NumberFault Nat :=
  if numeral.digits.length ≤ Text.maxDigits then return Text.digitsValue numeral.digits
  else throw .tooManyDigits

def value (numeral : Numeral) : Except NumberFault Int := do
  let magnitude ← numeral.magnitude
  return if numeral.negative then -(magnitude : Int) else magnitude

theorem magnitude_of_short {numeral : Numeral} (short : numeral.digits.length ≤ Text.maxDigits) :
    numeral.magnitude = .ok (Text.digitsValue numeral.digits) := by
  rw [magnitude, if_pos short]
  rfl

end Numeral

end TabletopDice
