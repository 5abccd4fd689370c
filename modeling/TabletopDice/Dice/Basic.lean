import TabletopDice.Dice.Description
import TabletopDice.Expression.Parser
import TabletopDice.Expression.Stack

/-!
An expression that can be rolled: its components and the limits of its result.
Rolling leaves the expression as it is and gives an evaluation, which holds the
total and what every die group showed.
-/

namespace TabletopDice

structure Dice where
  components : List Component
  limits : Limits := {}
  deriving DecidableEq, Repr

structure Evaluation where
  total : Int
  /-- What each component showed, in the order of the components; only die groups show anything. -/
  outcomes : List (Option DieOutcome)
  /-- The face of the only die, or a mark for none or several. -/
  natural : Int
  /-- The face from which the roll counts as critical. -/
  defaultThreat : Int
  maximized : Bool
  deriving DecidableEq, Repr

/-- The natural face and the threat after one more die group. The first group to show a face
sets both; the second disqualifies the roll. -/
def nextNatural (current : Int × Int) (group : DieGroup) (outcome : DieOutcome) : Int × Int :=
  if outcome.natural = naturalNone then current
  else if current.1 = naturalNone then (outcome.natural, group.sides)
  else (naturalDisqualified, 0)

namespace Dice

def twentySided : Dice := { components := [.die { sides := 20 }] }

/-- The dice that a text describes; a blank text means one die with twenty sides. -/
def parse (text : Text) : Except Failure Dice :=
  if Text.allBlank text then return twentySided
  else do
    let (components, limits) ← parseExpression text
    return { components, limits }

/-- The dice for a number of like dice, a bonus and a factor on the whole. -/
def ofDieType (count sides bonus dieBonus denominator factor : Int) : Except NumberFault Dice := do
  let dice : List Component :=
    if 0 < count ∧ 0 < sides then
      [.die { sides, numerator := count, denominator, dieBonus }]
    else []
  let sum ←
    if bonus = 0 then pure dice
    else if dice.isEmpty then pure [.constant (← Double.ofInt? bonus) []]
    else pure (dice ++ [.operator (if 0 < bonus then .add else .subtract),
      .constant (← Double.ofInt? bonus.natAbs) []])
  if factor = 0 then return { components := sum }
  else return {
    components := .openGroup :: sum ++
      [.closeGroup, .operator .multiply, .constant (← Double.ofInt? factor) []] }

def dieGroups (dice : Dice) : List DieGroup := dice.components.filterMap Component.dieGroup?

def singleDie? (dice : Dice) : Option DieGroup :=
  match dice.dieGroups with
  | [group] => some group
  | _ => none

def settled {α : Type} (result : Except StackFault α) : Draw α :=
  Draw.ofExcept (result.mapError StackFault.failure)

/-- Feeds the components to the stack and rolls the die groups on the way. -/
def feed (maximize : Bool) :
    List Component → Stack → Int × Int → Draw (List (Option DieOutcome) × Stack × Int × Int)
  | [], stack, natural => return ([], stack, natural)
  | .die group :: components, stack, natural => do
      let outcome ← group.roll maximize
      let (outcomes, rest) ← feed maximize components (stack.push (.int outcome.value))
        (nextNatural natural group outcome)
      return (some outcome :: outcomes, rest)
  | component :: components, stack, natural => do
      let stack ← match component with
        | .constant value _ => pure (stack.push (.real value))
        | .operator op => settled (stack.pushOperator op)
        | .openGroup => pure stack.openGroup
        | .closeGroup => settled stack.closeGroup
        | _ => pure stack
      let (outcomes, rest) ← feed maximize components stack natural
      return (none :: outcomes, rest)

/-- Rolls the dice, or assumes the highest side of each, and adds the bonus before the limits
apply. -/
def evaluate (dice : Dice) (maximize : Bool) (bonus : Int) : Draw Evaluation := do
  let (outcomes, stack, natural, defaultThreat) ←
    feed maximize dice.components {} (naturalNone, 0)
  let (value, _) ← settled stack.evaluate
  return {
    total := dice.limits.clamp (value + bonus)
    outcomes, natural, defaultThreat, maximized := maximize }

def roll (dice : Dice) (bonus : Int) : Draw Evaluation := dice.evaluate false bonus

/-- The roll on which every die shows its highest side; it draws nothing. -/
def maxRoll (dice : Dice) (bonus : Int) : Draw Evaluation := dice.evaluate true bonus

def limitFragments (limits : Limits) : List Fragment :=
  (if limits.minimum = 0 then [] else [Fragment.bar, Fragment.int .minimum limits.minimum]) ++
    if limits.maximum = 0 then [] else [Fragment.bar, Fragment.int .maximum limits.maximum]

/-- What the components give one after another, each with what it showed as far as that is known. -/
def flatMapShown {Value : Type} (give : Option DieOutcome → Component → List Value) :
    List Component → List (Option DieOutcome) → List Value
  | [], _ => []
  | component :: components, [] => give none component ++ flatMapShown give components []
  | component :: components, outcome :: outcomes =>
      give outcome component ++ flatMapShown give components outcomes

/-- What automatic success and failure say about the only die: one fails, the highest side
succeeds. -/
def automaticFragments (dice : Dice) (evaluation : Evaluation) (success fail : Text) :
    Except Failure (List Fragment) :=
  match dice.singleDie? with
  | none => refuse .automaticNeedsOneDie
  | some die =>
      if die.numerator ≠ 1 then refuse .automaticNeedsOneDie
      else
        let value := (evaluation.outcomes.findSome? id).elim 0 DieOutcome.value
        return if value = 1 then [⟨.fail, fail⟩]
          else if value = die.sides then [⟨.success, success⟩]
          else []

/-- The total in front of an evaluation's components, with what automatic success and failure
say when `automatic` holds their messages. -/
def totalFragments (dice : Dice) (evaluation : Evaluation) (automatic : Option (Text × Text)) :
    Except Failure (List Fragment) := do
  let marker ← match automatic with
    | some (success, fail) => dice.automaticFragments evaluation success fail
    | none => pure []
  requireTellable [evaluation.total]
  return marker ++ [Fragment.int .result evaluation.total, ⟨.separator, ['=']⟩]

/-- The fragments from the components on. `bonus` was added to the roll. -/
def bodyFragments (dice : Dice) (outcomes : List (Option DieOutcome)) (bonus : Int) :
    List Fragment :=
  flatMapShown Component.describe dice.components outcomes ++
    (if bonus = 0 then [] else [⟨.bonus, Text.signed bonus⟩]) ++ limitFragments dice.limits

def bodyNumbers (dice : Dice) (outcomes : List (Option DieOutcome)) (bonus : Int) : List Int :=
  flatMapShown Component.numbers dice.components outcomes ++
    [bonus, dice.limits.minimum, dice.limits.maximum]

def tellBody (dice : Dice) (outcomes : List (Option DieOutcome)) (bonus : Int) :
    Except Failure (List Fragment) := do
  requireTellable (dice.bodyNumbers outcomes bonus)
  return dice.bodyFragments outcomes bonus

/-- The expression as text; `description` fails where it cannot be told. -/
def toText (dice : Dice) : Text :=
  dice.components.flatMap Component.toText ++ dice.limits.toText

/-- The text that describes the dice. It tells the same numbers as the request does. -/
def description (dice : Dice) : Except Failure Text := do
  requireTellable (dice.bodyNumbers [] 0)
  return dice.toText

/-- An evaluation as fragments or, without one, the request alone. It fails if one of its numbers
is too long to be told. -/
def describe (dice : Dice) (evaluation : Option Evaluation) (automatic : Option (Text × Text))
    (bonus : Int) : Except Failure (List Fragment) :=
  match evaluation with
  | none => dice.tellBody [] bonus
  | some evaluation => do
      return (← dice.totalFragments evaluation automatic) ++
        (← dice.tellBody evaluation.outcomes bonus)

end Dice

end TabletopDice
