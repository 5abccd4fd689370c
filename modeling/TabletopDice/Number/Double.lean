import TabletopDice.Number.Power
import TabletopDice.Number.Rounding

/-!
Binary64 numbers, kept exactly. Every finite double is a whole number of units of
2⁻¹⁰⁷⁴, so sums, products and comparisons are computed on integers and rounded
once, to the nearest double with ties to even.
-/

namespace TabletopDice

/-- A binary64 number. A finite one is its sign and its magnitude in units of 2⁻¹⁰⁷⁴. -/
inductive Double
  | finite (negative : Bool) (units : Nat)
  | infinite (negative : Bool)
  | notANumber (negative : Bool)
  deriving DecidableEq, Repr

namespace Double

def one : Nat := twoPow 1074

/-- The first magnitude, in units, that is too large for a double. -/
def bound : Nat := twoPow 2098

/-- The double nearest to `numerator / denominator` units. The spacing of doubles around a
quotient of `53 + shift` bits is `2 ^ shift` units. -/
def nearest (negative : Bool) (numerator denominator : Nat) : Double :=
  let shift := (numerator / denominator).log2 - 52
  let units := roundDiv numerator (denominator * twoPow shift) * twoPow shift
  if units < bound then .finite negative units else .infinite negative

def ofRatio (negative : Bool) (numerator denominator : Nat) : Double :=
  nearest negative (numerator * one) denominator

/-- The double nearest to an integer, infinite if the integer is too large. -/
def ofInt (value : Int) : Double := ofRatio (decide (value < 0)) value.natAbs 1

def signedUnits (negative : Bool) (units : Nat) : Int := if negative then -units else units

def neg : Double → Double
  | finite negative units => finite (!negative) units
  | infinite negative => infinite (!negative)
  | notANumber negative => notANumber (!negative)

def add : Double → Double → Double
  | notANumber negative, _ => notANumber negative
  | _, notANumber negative => notANumber negative
  | infinite first, infinite second => if first = second then infinite first else notANumber true
  | infinite negative, finite _ _ => infinite negative
  | finite _ _, infinite negative => infinite negative
  | finite first left, finite second right =>
      let sum := signedUnits first left + signedUnits second right
      if sum = 0 then finite (first && second) 0 else nearest (decide (sum < 0)) sum.natAbs 1

def sub (left right : Double) : Double := add left (neg right)

def mul : Double → Double → Double
  | notANumber negative, _ => notANumber negative
  | _, notANumber negative => notANumber negative
  | infinite first, infinite second => infinite (first != second)
  | infinite first, finite second units =>
      if units = 0 then notANumber true else infinite (first != second)
  | finite first units, infinite second =>
      if units = 0 then notANumber true else infinite (first != second)
  | finite first left, finite second right => nearest (first != second) (left * right) one

/-- Division by a divisor other than zero. -/
def div : Double → Double → Double
  | notANumber negative, _ => notANumber negative
  | _, notANumber negative => notANumber negative
  | infinite _, infinite _ => notANumber true
  | infinite first, finite second _ => infinite (first != second)
  | finite first _, infinite second => finite (first != second) 0
  | finite first left, finite second right => nearest (first != second) (left * one) right

def isZero : Double → Bool
  | finite _ units => units == 0
  | _ => false

/-- Strictly less; false as soon as one side is no number. -/
def lt : Double → Double → Bool
  | notANumber _, _ => false
  | _, notANumber _ => false
  | infinite first, infinite second => first && !second
  | infinite negative, finite _ _ => negative
  | finite _ _, infinite negative => !negative
  | finite first left, finite second right => signedUnits first left < signedUnits second right

def isInteger : Double → Bool
  | finite _ units => units % one == 0
  | _ => false

def bits : Double → Nat
  | finite negative units =>
      let magnitude :=
        if units < twoPow 52 then units
        else
          let shift := units.log2 - 52
          (shift + 1) * twoPow 52 + (units / twoPow shift - twoPow 52)
      (if negative then twoPow 63 else 0) + magnitude
  | infinite negative => (if negative then twoPow 63 else 0) + 2047 * twoPow 52
  | notANumber negative => (if negative then twoPow 63 else 0) + 2047 * twoPow 52 + twoPow 51

example : (ofInt 1).bits = 0x3FF0000000000000 := by decide +kernel
example : (ofRatio false 5 2).bits = 0x4004000000000000 := by decide +kernel

end Double

end TabletopDice
