import TabletopDice.Number.Double

/-!
The numbers of an evaluation: exact integers and doubles. Two integers are added,
subtracted and multiplied exactly; as soon as a double takes part, the integer is
first turned into the nearest double. The result of an arithmetic step is floored.
Comparisons are exact whatever the two kinds are.
-/

namespace TabletopDice

inductive Operand
  | int (value : Int)
  | real (value : Double)
  deriving DecidableEq, Repr

inductive NumberFault
  /-- Too large for a double, or an infinity where an integer is needed. -/
  | overflow
  /-- No number where an integer is needed. -/
  | notANumber
  /-- An integer has more digits than can be read or told. -/
  | tooManyDigits
  /-- A number of attempts below one, so that none of them can count. -/
  | noAttempts
  deriving DecidableEq, Repr

def Double.floor : Double → Except NumberFault Int
  | .finite negative units => .ok (Int.fdiv (signedUnits negative units) one)
  | .infinite _ => .error .overflow
  | .notANumber _ => .error .notANumber

def Double.truncate : Double → Except NumberFault Int
  | .finite negative units => .ok (Int.tdiv (signedUnits negative units) one)
  | .infinite _ => .error .overflow
  | .notANumber _ => .error .notANumber

def Double.inRange : Double → Except NumberFault Double
  | .finite negative units => .ok (.finite negative units)
  | _ => .error .overflow

def Double.ofInt? (value : Int) : Except NumberFault Double := (Double.ofInt value).inRange

namespace Operand

def toDouble : Operand → Except NumberFault Double
  | int value => Double.ofInt? value
  | real value => .ok value

/-- An arithmetic step: `exact` on two integers, else `rounded` on doubles and floored. -/
def arithmetic (exact : Int → Int → Int) (rounded : Double → Double → Double) :
    Operand → Operand → Except NumberFault Int
  | int left, int right => .ok (exact left right)
  | left, right => do
      let left ← left.toDouble
      let right ← right.toDouble
      (rounded left right).floor

def add : Operand → Operand → Except NumberFault Int := arithmetic (· + ·) Double.add

def sub : Operand → Operand → Except NumberFault Int := arithmetic (· - ·) Double.sub

def mul : Operand → Operand → Except NumberFault Int := arithmetic (· * ·) Double.mul

def isZero : Operand → Bool
  | int value => value == 0
  | real value => value.isZero

def divInt (left right : Int) : Except NumberFault Int := do
  let negative := decide (left < 0) != decide (right < 0)
  let quotient ← (Double.ofRatio negative left.natAbs right.natAbs).inRange
  quotient.floor

/-- Division by a divisor other than zero: the quotient is rounded to a double and floored,
also for two integers. -/
def div : Operand → Operand → Except NumberFault Int
  | int left, int right => divInt left right
  | left, right => do
      let left ← left.toDouble
      let right ← right.toDouble
      (Double.div left right).floor

/-- The exact value as a double of unlimited precision. -/
def exactly : Operand → Double
  | int value => .finite (decide (value < 0)) (value.natAbs * Double.one)
  | real value => value

def lt (left right : Operand) : Bool := Double.lt left.exactly right.exactly

/-- The second operand if it is less than the first, else the first. -/
def atMost (left right : Operand) : Operand := if lt right left then right else left

/-- The second operand if it is greater than the first, else the first. -/
def atLeast (left right : Operand) : Operand := if lt left right then right else left

def neg : Operand → Operand
  | int value => int (-value)
  | real value => real value.neg

def truncate : Operand → Except NumberFault Int
  | int value => .ok value
  | real value => value.truncate

end Operand

end TabletopDice
