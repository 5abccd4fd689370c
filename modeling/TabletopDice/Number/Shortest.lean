import TabletopDice.Number.DecimalText

/-!
Doubles written with the fewest digits that read back. Of the decimals with the
same number of digits the nearer one is taken. Numbers from 10⁻⁴ up to 10¹⁶ are
written in full and always with a point, others with an exponent.
-/

namespace TabletopDice.Double

open TabletopDice.Text

/-- The number of places by which `numerator / denominator`, when not zero, lies above one:
the exponent of its first digit. -/
def decimalExponent (numerator denominator : Nat) : Int :=
  if denominator ≤ numerator then (Nat.toDigits 10 (numerator / denominator)).length - 1
  else 0 - (Nat.toDigits 10 ((denominator - 1) / numerator)).length

/-- The digits and the exponent of the last one, of the first decimal among the two nearest with
this many digits that reads back as the number. -/
def shortestWith? (units count : Nat) : Option (Nat × Int) :=
  let last := decimalExponent units one - count + 1
  let (numerator, denominator) :=
    if last < 0 then (units * tenPow last.natAbs, one) else (units, one * tenPow last.natAbs)
  let nearer := roundDiv numerator denominator
  let lower := numerator / denominator
  let other := if nearer = lower then lower + 1 else lower
  [nearer, other].findSome? fun digits =>
    if ofScientific false digits last = finite false units then some (digits, last) else none

/-- The shortest decimal that reads back as the number: its digits and the exponent of the last
one. Seventeen digits always suffice. -/
def shortest (units : Nat) : Nat × Int :=
  ((List.range 17).findSome? fun count => shortestWith? units (count + 1)).getD (0, 0)

/-- A number in full, or with an exponent, from its digits without zeros at the end. -/
def placeDigits (digits : Text) (exponent : Int) : Text :=
  if -4 ≤ exponent ∧ exponent < 0 then
    '0' :: '.' :: List.replicate (exponent.natAbs - 1) '0' ++ digits
  else if 0 ≤ exponent ∧ exponent < 16 then
    let whole := exponent.natAbs + 1
    let fraction := digits.drop whole
    digits.take whole ++ List.replicate (whole - digits.length) '0' ++
      '.' :: (if fraction.isEmpty then ['0'] else fraction)
  else
    let fraction := digits.drop 1
    let places := ofNat exponent.natAbs
    digits.take 1 ++ (if fraction.isEmpty then [] else '.' :: fraction) ++
      'e' :: (if exponent < 0 then '-' else '+') ::
      List.replicate (2 - places.length) '0' ++ places

def toShortestText : Double → Text
  | finite negative units =>
      let magnitude :=
        if units = 0 then "0.0".toList
        else
          let (digits, last) := shortest units
          let written := ofNat digits
          placeDigits (dropTrailing (· == '0') written) (last + written.length - 1)
      (if negative then ['-'] else []) ++ magnitude
  | infinite negative => (if negative then "-inf" else "inf").toList
  | notANumber _ => "nan".toList

end TabletopDice.Double
