import TabletopDice.Error
import TabletopDice.Expression.Component
import TabletopDice.Expression.Label

/-!
The values of an expression as written: a die group with an optional count,
fraction, choice among attempts and label, or a constant with an optional label.
-/

namespace TabletopDice

open Text

structure DieNotation where
  initialMax : Bool
  numerator : Text
  denominator : Option Text
  /-- The digits of the number of sides; a percent sign has none. -/
  sides : Option Text
  /-- Whether the best attempt counts, or else the worst, and of how many. -/
  choice : Option (Bool × Text)
  label : Text
  deriving DecidableEq, Repr

def readDigits? (text : Text) : Option (Text × Text) :=
  match spanDigits text with
  | ([], _) => none
  | found => some found

def readChoiceWord? (text : Text) : Option (Bool × Text) :=
  match after? "best".toList text with
  | some rest => some (true, rest)
  | none => (after? "worst".toList text).map fun rest => (false, rest)

def readChoice? (text : Text) : Option ((Bool × Text) × Text) := do
  let (best, rest) ← readChoiceWord? text
  let rest ← after? "of".toList (trimLeft rest)
  let (count, rest) ← readDigits? (trimLeft rest)
  some ((best, count), rest)

def readDenominator? : Text → Option (Text × Text)
  | '/' :: rest => readDigits? (trimLeft rest)
  | _ => none

def readSides? : Text → Option (Option Text × Text)
  | '%' :: rest => some (none, rest)
  | text => (readDigits? text).map fun (digits, rest) => (some digits, rest)

/-- The sign of a first die on its highest side, if there is one, and what follows it. -/
def readMark (text : Text) : Bool × Text :=
  match trimLeft text with
  | '>' :: rest => (true, trimLeft rest)
  | rest => (false, rest)

def readBar (text : Text) : Option Text × Text :=
  match readDenominator? text with
  | some (digits, rest) => (some digits, trimLeft rest)
  | none => (none, text)

def readLetter? : Text → Option Text
  | 'd' :: rest | 'D' :: rest => some (trimLeft rest)
  | _ => none

def readAttempts (text : Text) : Option (Bool × Text) × Text :=
  match readChoice? text with
  | some (choice, rest) => (some choice, rest)
  | none => (none, text)

/-- Reads a die group; whatever follows it is its label. -/
def DieNotation.read? (text : Text) : Option DieNotation := do
  let (initialMax, rest) := readMark text
  let (numerator, rest) := spanDigits rest
  let (denominator, rest) := readBar (trimLeft rest)
  let rest ← readLetter? rest
  let (sides, rest) ← readSides? rest
  let (choice, rest) := readAttempts (trimLeft rest)
  some { initialMax, numerator, denominator, sides, choice, label := trim rest }

/-- How many dice there are; one if the text does not say. -/
def DieNotation.count (pieces : DieNotation) : Except Failure Nat :=
  if pieces.numerator.isEmpty then return 1 else wholeNumber pieces.numerator

/-- What follows a die group has to be a label, and no other die. -/
def DieNotation.checkLabel (pieces : DieNotation) (part : Text) : Except Failure Unit :=
  if pieces.label.isEmpty then return ()
  else if mentionsDie pieces.label then refuse (.dieInLabel part)
  else if isBareLabel pieces.label then return ()
  else refuse (.dieLabel pieces.label)

/-- The die group that the pieces describe. `part` is the text that they were read from, and
`expression` the text around it. -/
def DieNotation.toGroup (pieces : DieNotation) (part expression : Text) :
    Except Failure DieGroup := do
  if mentionsLimit part then refuse (.limitInDie part expression)
  let sides ← pieces.sides.elim (pure 100) wholeNumber
  if sides = 0 then refuse (.zeroSides part)
  let attempts ← pieces.choice.elim (pure 1) fun choice => wholeNumber choice.2
  let best := pieces.choice.elim true Prod.fst
  if attempts = 0 then
    refuse (.attemptsBelowOne (if best then "best" else "worst").toList
      (pieces.choice.elim [] Prod.snd) part)
  pieces.checkLabel part
  let numerator ← pieces.count
  let denominator ← pieces.denominator.elim (pure 0) wholeNumber
  return {
    sides := sides
    numerator := numerator
    denominator := denominator
    rerolls := attempts - 1
    best := best
    initialMax := pieces.initialMax
    label := pieces.label }

def readFraction : Text → Text × Text
  | '.' :: rest => spanDigits rest
  | text => ([], text)

/-- Reads a decimal number without a sign; whatever follows it is its label. -/
def readConstant? (text : Text) : Option (Double × Text) :=
  let (whole, rest) := spanDigits (trimLeft text)
  let (fraction, behind) := readFraction rest
  if !fraction.isEmpty then some (Double.ofDecimal whole fraction, trim behind)
  else if !whole.isEmpty then some (Double.ofDecimal whole [], trim rest)
  else none

def parseConstant (part expression : Text) : Except Failure Component :=
  match readConstant? part with
  | none => refuse (.notAValue part expression)
  | some (value, label) =>
      if mentionsLimit part then refuse (.limitInConstant part expression)
      else if !label.isEmpty && !isBareLabel label then refuse (.constantLabel label)
      else return .constant value label

def parseValue (part expression : Text) : Except Failure Component :=
  match DieNotation.read? part with
  | some pieces => return .die (← pieces.toGroup part expression)
  | none => parseConstant part expression

end TabletopDice
