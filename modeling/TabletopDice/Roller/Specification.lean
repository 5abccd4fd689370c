import TabletopDice.Dice.Basic
import TabletopDice.Roller.Alternatives
import TabletopDice.Roller.Modifiers

/-!
Full specifications: a title, an expression or a percentile chance, and global
modifiers. A specification is checked as a whole, with every combination of its
alternatives, before anything is rolled.
-/

namespace TabletopDice

open Text

/-- What a specification asks for. The dice of alternatives are made anew for every combination,
so they have no dice of their own here. -/
structure Specification where
  modifiers : Modifiers
  dice : Option Dice
  deriving DecidableEq, Repr

namespace Specification

/-- `>=` and `<=` as glyphs, so that their equals sign ends no title. -/
def hideComparisons (text : Text) : Text :=
  replacePairs '<' '=' '≤' (replacePairs '>' '=' '≥' text)

/-- The title in front of the first equals sign, and the rest; both without outer blanks. -/
def splitTitle (text : Text) : Text × Text :=
  match splitFirst? '=' text with
  | some (title, rest) => (trim title, trim rest)
  | none => ([], text)

/-- Reads the clauses in order. The limits among them go back to the expression. -/
def readClauses : Text → Modifiers → List Text → Except Failure (Text × Modifiers)
  | expression, modifiers, [] => return (expression, modifiers)
  | expression, modifiers, clause :: clauses => do
      let modifiers ← modifiers.withText clause
      let expression :=
        if Clause.startsWithLimit clause then expression ++ '|' :: clause else expression
      readClauses expression modifiers clauses

def splitModifiers (modifiers : Modifiers) (text : Text) : Except Failure (Text × Modifiers) :=
  match splitOn '|' text with
  | expression :: clause :: clauses => readClauses (trim expression) modifiers (clause :: clauses)
  | _ => return (text, modifiers)

/-- The values of each set of alternatives; a set has at least two. -/
def readAlternatives : List Text → Except Failure (List (List Text))
  | [] => return []
  | values :: sets => do
      let choices := splitOn '/' values
      if choices.length < 2 then refuse (.fewAlternatives values)
      return choices :: (← readAlternatives sets)

/-- The digits of a chance in percent, and its label. -/
def readChance? (text : Text) : Option (Text × Text) :=
  match spanDigits (trimLeft text) with
  | ([], _) => none
  | (digits, '%' :: label) => some (digits, label)
  | _ => none

def checkChance (modifiers : Modifiers) (expression : Text) : Except Failure Unit := do
  if !modifiers.alternatives.isEmpty then refuse (.percentileConflict .alternatives)
  if expression.contains '|' then refuse (.percentileConflict (.limit expression))
  if modifiers.confirm then refuse (.percentileConflict .confirmation)
  if modifiers.difficulty ≠ 0 then refuse (.percentileConflict .difficulty)
  if !modifiers.automatic.isEmpty then refuse (.percentileConflict .automatic)
  if modifiers.total ≠ 0 then refuse (.percentileConflict .total)

/-- The dice for an expression. Confirmation and automatic success need one single die. -/
def buildDice (modifiers : Modifiers) (expression : Text) : Except Failure Dice := do
  if allBlank expression then refuse .emptyExpression
  let dice ← Dice.parse expression
  if modifiers.needsSingleDie then
    if dice.singleDie?.map DieGroup.numerator ≠ some 1 then
      refuse (if modifiers.confirm then .confirmationNeedsOneDie else .automaticNeedsOneDie)
  return dice

def percentileDice : Dice := { components := [.die { sides := 100 }] }

/-- Builds the dice of every combination, only to see that all can be built. -/
def checkCombinations (modifiers : Modifiers) : List (List Text) → Except Failure Unit
  | [] => return ()
  | values :: rest => do
      let _ ← buildDice modifiers (substitute 0 modifiers.template values)
      checkCombinations modifiers rest

def parse (text : Text) : Except Failure Specification := do
  let (title, rest) := splitTitle (hideComparisons text)
  let (expression, modifiers) ← splitModifiers { title } rest
  let expression := replacePairs '/' '/' '÷' expression
  let segments := Segment.ofText expression
  let alternatives ← readAlternatives (segments.filterMap Segment.values?)
  let modifiers := { modifiers with
    alternatives
    template := if alternatives.isEmpty then [] else Segment.template 0 segments }
  match readChance? expression with
  | some (digits, chanceLabel) =>
      checkChance modifiers expression
      let chance ← wholeNumber digits
      return { modifiers := { modifiers with chance := some chance, chanceLabel },
               dice := some percentileDice }
  | none =>
      if alternatives.isEmpty then
        return { modifiers, dice := some (← buildDice modifiers expression) }
      else
        checkCombinations modifiers (combinations alternatives)
        return { modifiers, dice := none }

end Specification

end TabletopDice
