import TabletopDice.Number.Power
import TabletopDice.Text.Blank
import TabletopDice.Text.Digit

/-!
Whole numbers as text: written in ASCII digits, read in the digits of any script.
A number that is read or told has a bounded number of digits.
-/

namespace TabletopDice.Text

def ofNat (number : Nat) : Text := Nat.toDigits 10 number

def ofInt : Int → Text
  | .ofNat number => ofNat number
  | .negSucc number => '-' :: ofNat (number + 1)

/-- The number with its sign, a plus where it is not negative. -/
def signed (number : Int) : Text :=
  if number < 0 then ofInt number else '+' :: ofInt number

/-- The most digits that a number may be read from or told with. -/
def maxDigits : Nat := 4300

/-- The least number with more digits than can be told. -/
def firstTooLong : Nat := tenPow maxDigits

def isTellable (number : Int) : Bool := number.natAbs < firstTooLong

def digitsValue (digits : Text) : Nat :=
  digits.foldl (fun value char => 10 * value + (digitValue? char).getD 0) 0

/-- The digits of a number with its low lines taken out; each has to stand between two digits. -/
def ungrouped? : Text → Option Text
  | [] => some []
  | [char] => if char = '_' then none else some [char]
  | char :: next :: rest =>
      if next = '_' then
        match rest with
        | after :: _ =>
            if isDigit char && isDigit after then (ungrouped? rest).map (char :: ·) else none
        | [] => none
      else if char = '_' then none
      else (ungrouped? (next :: rest)).map (char :: ·)

/-- Blank in front of or behind a number: blank, but no information separator. -/
def isNumberBlank (char : Char) : Bool :=
  isBlank char && !(0x1C ≤ char.toNat && char.toNat ≤ 0x1F)

def trimNumber (text : Text) : Text := dropTrailing isNumberBlank (text.dropWhile isNumberBlank)

def splitSign : Text → Bool × Text
  | '-' :: rest => (true, rest)
  | '+' :: rest => (false, rest)
  | text => (false, text)

/-- A whole number with blanks around it, an optional sign, and low lines between its digits,
of which there are not too many. -/
def readInt? (text : Text) : Option Int :=
  let (negative, rest) := splitSign (trimNumber text)
  match ungrouped? rest with
  | some (digit :: digits) =>
      if (digit :: digits).all isDigit && digits.length < maxDigits then
        let value : Int := digitsValue (digit :: digits)
        some (if negative then -value else value)
      else none
  | _ => none

end TabletopDice.Text
