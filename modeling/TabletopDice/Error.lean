import TabletopDice.Number.Numeral
import TabletopDice.Text.Quoted

/-!
Why a die-roll request fails. Every cause has its own constructor, which carries
the pieces of text that its message quotes. Causes fall into a few kinds, and a
kind has the name that clients see.
-/

namespace TabletopDice

/-- A global modifier or another part of a request that a percentile roll does not take. -/
inductive PercentileConflict
  | alternatives
  | limit (expression : Text)
  | confirmation
  | difficulty
  | automatic
  | total
  deriving DecidableEq, Repr

inductive DiceError
  /-- A confirmation specifier stands inside an expression. -/
  | confirmationInExpression
  | noExpression (expression : Text)
  | limitInDie (part expression : Text)
  | attemptsBelowOne (which count part : Text)
  | dieInLabel (part : Text)
  | dieLabel (label : Text)
  | notAValue (part expression : Text)
  | limitInConstant (part expression : Text)
  | constantLabel (label : Text)
  | groupAfterValue
  | dieAfterGroup (part : Text)
  | operatorExpected (part : Text)
  | operatorUnexpected (glyph : Char)
  | valueMissing (expression : Text)
  | fewAlternatives (values : Text)
  | emptyExpression
  | nothingToReroll
  /-- A closing parenthesis without an opening one, in an expression if one is known. -/
  | groupNotOpened (expression : Option Text)
  /-- An opening parenthesis without a closing one, in an expression if one is known. -/
  | groupNotClosed (expression : Option Text)
  | zeroSides (part : Text)
  | sidesNotPositive
  | divisionByZero
  | stackUnderflow
  | stackLeftover (count : Nat)
  | unknownLimit (clause : Text)
  | unknownModifier (clause : Text)
  | totalWithUntil
  | percentileConflict (conflict : PercentileConflict)
  | automaticNeedsOneDie
  | confirmationBeforeRoll
  | confirmationNeedsOneDie
  | multipleResults
  deriving DecidableEq, Repr

inductive DiceErrorKind
  | badExpression
  | unbalancedGroup
  | invalidDie
  | divisionByZero
  | stackIntegrity
  | unknownModifier
  | incompatibleModifier
  | confirmationNotApplicable
  | multipleResults
  deriving DecidableEq, Repr

def DiceErrorKind.name : DiceErrorKind → String
  | badExpression => "DiceSyntaxError"
  | unbalancedGroup => "UnbalancedGroupError"
  | invalidDie => "InvalidDieError"
  | divisionByZero => "DivisionByZeroError"
  | stackIntegrity => "StackIntegrityError"
  | unknownModifier => "UnknownModifierError"
  | incompatibleModifier => "IncompatibleModifierError"
  | confirmationNotApplicable => "ConfirmationNotApplicableError"
  | multipleResults => "MultipleResultsError"

def expectedForm : Text :=
  ("[<n>[/<d>]] d [<sides>|%] [best|worst of <n>] " ++
    "[+|-|*|×|÷|//|<=|>=|≤|≥ ...] ['|'min <n>] ['|'max <n>]").toList

def PercentileConflict.message : PercentileConflict → String
  | alternatives => "permutations with percentile die rolls are not supported"
  | limit expression =>
      s!"invalid global modifier for percentile die rolls: {Text.quoted expression}"
  | confirmation => "you can't confirm critical percentile die rolls"
  | difficulty => "you can't have a percentile die roll with a DC"
  | automatic => "you can't use auto-success/fail with percentile die rolls"
  | total => "you can't use total with percentile die rolls"

namespace DiceError

open Text (quoted)

def kind : DiceError → DiceErrorKind
  | confirmationInExpression | noExpression _ | limitInDie _ _ | attemptsBelowOne _ _ _
  | dieInLabel _ | dieLabel _ | notAValue _ _ | limitInConstant _ _ | constantLabel _
  | groupAfterValue | dieAfterGroup _ | operatorExpected _ | operatorUnexpected _
  | valueMissing _ | fewAlternatives _ | emptyExpression | nothingToReroll => .badExpression
  | groupNotOpened _ | groupNotClosed _ => .unbalancedGroup
  | zeroSides _ | sidesNotPositive => .invalidDie
  | divisionByZero => .divisionByZero
  | stackUnderflow | stackLeftover _ => .stackIntegrity
  | unknownLimit _ | unknownModifier _ => .unknownModifier
  | totalWithUntil | percentileConflict _ | automaticNeedsOneDie => .incompatibleModifier
  | confirmationBeforeRoll | confirmationNeedsOneDie => .confirmationNotApplicable
  | multipleResults => .multipleResults

def message : DiceError → String
  | confirmationInExpression =>
      "confirmation specifier (c[threat][±bonus]) not allowed in this location; " ++
        "it must be at the end of a full die-roll specification only"
  | noExpression expression =>
      s!"syntax error in die roll description {quoted expression}; should be {quoted expectedForm}"
  | limitInDie part expression =>
      s!"syntax error in die roll subexpression {quoted part} in {quoted expression}; " ++
        "min/max limits must appear after the final operator in the expression, since they " ++
        "apply to the entire set of dice rolls"
  | attemptsBelowOne which count part =>
      s!"{String.ofList which} of {String.ofList count} in {quoted part} must be at least 1"
  | dieInLabel part =>
      s!"label following die roll in {quoted part} looks like another die roll" ++
        "--did you forget an operator?"
  | dieLabel label => s!"label {quoted label} has illegal characters"
  | notAValue part expression =>
      s!"syntax error in die roll subexpression {quoted part} in {quoted expression}; " ++
        s!"should be {quoted expectedForm}"
  | limitInConstant part expression =>
      s!"min/max limits in {quoted part} must appear after the final operator in " ++
        quoted expression
  | constantLabel label => s!"constant label {quoted label} has illegal characters"
  | groupAfterValue => "expected operator before '(' in die-roll expression"
  | dieAfterGroup part =>
      s!"{quoted part} looks suspiciously like a die-roll specification " ++
        "but appears as a label; did you forget an operator?"
  | operatorExpected part => s!"expected operator before {quoted part} in die-roll expression"
  | operatorUnexpected glyph => s!"unexpected operator {quoted [glyph]} in die-roll expression"
  | valueMissing expression =>
      s!"missing value after last operator in die-roll expression {quoted expression}"
  | fewAlternatives values =>
      "invalid die-roll specification \x7b" ++ String.ofList values ++ "\x7d: values in braces " ++
        "must have more than one value separated by slashes"
  | emptyExpression => "empty die-roll expression"
  | nothingToReroll => "no die-roll specification to re-roll"
  | groupNotOpened none => "')' with no matching '(' in die-roll expression"
  | groupNotOpened (some expression) => s!"')' with no matching '(' in {quoted expression}"
  | groupNotClosed none => "'(' without matching ')' in die-roll expression"
  | groupNotClosed (some expression) =>
      s!"'(' without matching ')' in die-roll expression {quoted expression}"
  | zeroSides part => s!"dice cannot have a nonpositive number of sides in {quoted part}"
  | sidesNotPositive => "dice cannot have a nonpositive number of sides"
  | divisionByZero => "division by zero is not defined"
  | stackUnderflow => "expression stack underflow"
  | stackLeftover count => s!"expression stack holds {count} values at end of evaluation"
  | unknownLimit clause => s!"invalid global modifier {quoted clause}"
  | unknownModifier clause =>
      s!"global modifier option {quoted clause} not understood; must be " ++
        "!, c, dc, min, max, maximized, sf, total, until, or repeat"
  | totalWithUntil => "you can't use both total and until in the same die roll"
  | percentileConflict conflict => conflict.message
  | automaticNeedsOneDie =>
      "you can't indicate auto-success/fail (|sf option) because it involves multiple dice"
  | confirmationBeforeRoll => "you need to roll the dice first before confirming a critical roll"
  | confirmationNeedsOneDie =>
      "you can't confirm a critical on this roll because it doesn't involve only a single die"
  | multipleResults => "die roll spec calls for more than a single roll"

end DiceError

/-- Why a roll has no result: the request is at fault, or its numbers are. -/
inductive Failure
  | dice (error : DiceError)
  | number (fault : NumberFault)
  deriving DecidableEq, Repr

def refuse {α : Type} (error : DiceError) : Except Failure α := .error (.dice error)

/-- The value of a numeral, or the failure that it is too long. -/
def Numeral.read (numeral : Numeral) : Except Failure Int := numeral.value.mapError .number

def wholeNumber (digits : Text) : Except Failure Nat :=
  (Numeral.magnitude { digits }).mapError .number

def requireTellable (numbers : List Int) : Except Failure Unit :=
  if numbers.all Text.isTellable then return () else throw (.number .tooManyDigits)

end TabletopDice
