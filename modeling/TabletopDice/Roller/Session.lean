import TabletopDice.Roller.Specification

/-!
The state of a roller: the specification it remembers, the last roll, the random
source and the warnings so far. A call that fails keeps the changes that it made
before it failed.
-/

namespace TabletopDice

structure Roller where
  modifiers : Modifiers := {}
  dice : Option Dice := some Dice.twentySided
  /-- The last dice rolled and what came of it. -/
  last : Option (Dice × Evaluation) := none
  deriving DecidableEq, Repr

inductive Warning
  /-- The limit on attempts ended a roll before it was complete. -/
  | stopped (name : Text)
  deriving DecidableEq, Repr

def maxPasses : Nat := 100

def Warning.message : Warning → String
  | stopped name => s!"Stopped rolling {Text.quoted name} after {maxPasses} attempts"

namespace Roller

def cleared : Roller := { dice := none }

/-- A roller that remembers this specification and has not rolled it yet. -/
def ofSpecification (specification : Specification) : Roller :=
  { modifiers := specification.modifiers, dice := specification.dice }

def isSet (roller : Roller) : Bool := roller.dice.isSome || !roller.modifiers.template.isEmpty

def sequence (roller : Roller) : List (Except Failure Dice) :=
  if !roller.modifiers.template.isEmpty then
    (combinations roller.modifiers.alternatives).map fun values =>
      Dice.parse (substitute 0 roller.modifiers.template values)
  else roller.dice.toList.map .ok

/-- The last roll was of one single die, and it showed this natural face of it. -/
def showedNatural (roller : Roller) (face : DieGroup → Int) : Bool :=
  match roller.last with
  | none => false
  | some (dice, evaluation) =>
      match dice.singleDie?, evaluation.outcomes.findSome? id with
      | some die, some outcome => die.numerator == 1 && outcome.natural == face die
      | _, _ => false

/-- The last roll was a single die on its highest side. -/
def isNaturalMax (roller : Roller) : Bool := roller.showedNatural DieGroup.sides

/-- The last roll was a single die that showed a one. -/
def isNaturalOne (roller : Roller) : Bool := roller.showedNatural fun _ => 1

end Roller

structure Session where
  source : Source
  roller : Roller := {}
  warnings : List Warning := []

abbrev SessionM := ExceptT Failure (StateM Session)

namespace SessionM

def ofDraw {α : Type} (draw : Draw α) : SessionM α := do
  let session ← get
  let (result, source) := draw.run.run session.source
  set { session with source }
  match result with
  | .ok value => return value
  | .error failure => throw failure

def ofExcept {α : Type} : Except Failure α → SessionM α
  | .ok value => return value
  | .error failure => throw failure

def remember (dice : Dice) (evaluation : Evaluation) : SessionM Unit :=
  modify fun session =>
    { session with roller := { session.roller with last := some (dice, evaluation) } }

/-- Takes a new specification in place of the old one, which is gone even if the new one is not
accepted. -/
def setSpecification (text : Text) : SessionM Unit := do
  modify fun session => { session with roller := Roller.cleared }
  let specification ← ofExcept (Specification.parse text)
  modify fun session => { session with roller := Roller.ofSpecification specification }

/-- Takes a new specification unless the text is empty, and then there has to be one. -/
def requireSpecification (text : Text) : SessionM Unit := do
  if !text.isEmpty then setSpecification text
  if !(← get).roller.isSet then throw (.dice .nothingToReroll)

/-- A number from zero up to one from the random source of the session. -/
def randFloat : SessionM Double := ofDraw Draw.unit

/-- An integer from zero up to `bound` from the random source of the session; zero without a
draw if the bound is not positive. -/
def randInt (bound : Int) : SessionM Int :=
  if bound ≤ 0 then return 0 else do return ((← ofDraw (Draw.below bound.toNat)) : Int)

end SessionM

end TabletopDice
