import TabletopDice.Number.Double
import TabletopDice.Text.Numeral

/-!
Doubles as decimal text. A number is read from a whole part, a fraction and an
exponent and rounded once. It is written without an exponent: a whole number in
full, any other with fifteen places of which the zeros at the end are dropped.
-/

namespace TabletopDice.Double

open TabletopDice.Text

/-- The double nearest to `digits` followed by `exponent` zeros, or with the point moved to
the left when the exponent is negative. Beyond 400 places all is zero or infinite. -/
def ofScientific (negative : Bool) (digits : Nat) (exponent : Int) : Double :=
  let places : Int := (Nat.toDigits 10 digits).length + exponent
  if digits = 0 ∨ places < -400 then .finite negative 0
  else if 400 < places then .infinite negative
  else if exponent < 0 then ofRatio negative digits (tenPow exponent.natAbs)
  else ofRatio negative (digits * tenPow exponent.natAbs) 1

def ofDecimal (whole fraction : Text) : Double :=
  ofRatio false (digitsValue (whole ++ fraction)) (tenPow fraction.length)

def readExponent? : Text → Option Int
  | [] => some 0
  | mark :: rest =>
      if mark = 'e' ∨ mark = 'E' then
        let (negative, digits) := splitSign rest
        if digits.isEmpty || !digits.all isDigit then none
        else some (if negative then -(digitsValue digits : Int) else digitsValue digits)
      else none

def readUnsigned? (negative : Bool) (text : Text) : Option Double :=
  let (whole, rest) := spanDigits text
  let (fraction, rest) := match rest with
    | '.' :: rest => spanDigits rest
    | rest => ([], rest)
  if (whole ++ fraction).isEmpty then none
  else (readExponent? rest).map fun exponent =>
    ofScientific negative (digitsValue (whole ++ fraction)) (exponent - fraction.length)

/-- Reads a number with blanks around it, an optional sign, low lines between digits, an
exponent, or the words for infinity and for no number in any case. -/
def read? (text : Text) : Option Double :=
  let (negative, rest) := splitSign (trimNumber text)
  let word := String.ofList (lowered rest)
  if word = "inf" ∨ word = "infinity" then some (.infinite negative)
  else if word = "nan" then some (.notANumber negative)
  else (ungrouped? rest).bind (readUnsigned? negative)

/-- The magnitude in units of the fifteenth place, a tie going to even. -/
def scaled (units : Nat) : Nat := roundDiv (units * tenPow 15) one

def places (units : Nat) : Text :=
  let digits := ofNat (scaled units % tenPow 15)
  List.replicate (15 - digits.length) '0' ++ digits

def fixedPlaces (negative : Bool) (units : Nat) : Text :=
  (if negative then ['-'] else []) ++ ofNat (scaled units / tenPow 15) ++ '.' :: places units

/-- The number without an exponent and without needless zeros. -/
def toText : Double → Text
  | finite negative units =>
      if units % one = 0 then Text.ofInt (Int.tdiv (signedUnits negative units) one)
      else dropTrailing (· == '.') (dropTrailing (· == '0') (fixedPlaces negative units))
  | infinite negative => (if negative then "-inf" else "inf").toList
  | notANumber _ => "nan".toList

end TabletopDice.Double
