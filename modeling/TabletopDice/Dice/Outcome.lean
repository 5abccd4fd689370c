import TabletopDice.Expression.Component
import TabletopDice.Source

/-!
Rolling one die group. Every attempt shows as many faces as the group has dice;
the best or the worst attempt counts, the first of several equal ones. A bonus on
every die and the fraction change each face before it is recorded.
-/

namespace TabletopDice

structure DieOutcome where
  value : Int
  /-- The recorded faces of every attempt, in the order of the draws. -/
  attempts : List (List Int)
  /-- The index of the attempt that counts. -/
  chosen : Nat
  /-- The face of a single die before its bonus, or one of the two marks below. -/
  natural : Int
  maximized : Bool
  deriving DecidableEq, Repr

def naturalNone : Int := 0

/-- The natural face where more than one die was rolled. -/
def naturalDisqualified : Int := -1

namespace DieGroup

/-- The recorded face of a die that shows `face`. A fraction of a face is at least one. -/
def adjust (group : DieGroup) (face : Int) : Int :=
  let raised := face + group.dieBonus
  if 0 < group.denominator then max 1 (Int.fdiv raised group.denominator) else raised

def rollFace (group : DieGroup) : Draw Int := do
  return group.adjust (1 + (← Draw.below group.sides.toNat))

def rollFaces (group : DieGroup) : Nat → Draw (List Int)
  | 0 => return []
  | count + 1 => return (← group.rollFace) :: (← group.rollFaces count)

/-- One attempt. When `forced`, its first die shows the highest side without a draw. -/
def rollAttempt (group : DieGroup) (forced : Bool) : Draw (List Int) :=
  match forced, group.numerator.toNat with
  | true, count + 1 => return group.adjust group.sides :: (← group.rollFaces count)
  | _, count => group.rollFaces count

def rollAttempts (group : DieGroup) : Nat → Draw (List (List Int))
  | 0 => return []
  | count + 1 => return (← group.rollAttempt false) :: (← group.rollAttempts count)

/-- The index of the first attempt with the highest or the lowest sum. -/
def choose (group : DieGroup) (sums : List Int) : Nat :=
  let target := if group.best then sums.max? else sums.min?
  sums.idxOf (target.getD 0)

def sumFaces (faces : List Int) : Int := faces.foldr (· + ·) 0

def outcomeOf (group : DieGroup) (maximized : Bool) (attempts : List (List Int)) : DieOutcome :=
  let sums := attempts.map sumFaces
  let chosen := group.choose sums
  let natural :=
    if group.numerator = 0 then naturalNone
    else if group.numerator = 1 then ((attempts.getD chosen []).headD 0) - group.dieBonus
    else naturalDisqualified
  { value := sums.getD chosen 0, attempts, chosen, natural, maximized }

/-- Rolls the group, or assumes the highest side of every die. -/
def roll (group : DieGroup) (maximize : Bool) : Draw DieOutcome := do
  if group.sides ≤ 0 then throw (.dice .sidesNotPositive)
  if maximize then
    return group.outcomeOf true
      [List.replicate group.numerator.toNat (group.adjust group.sides)]
  else if group.rerolls < 0 then throw (.number .noAttempts)
  else
    let first ← group.rollAttempt group.initialMax
    let more ← group.rollAttempts group.rerolls.toNat
    return group.outcomeOf false (first :: more)

end DieGroup

end TabletopDice
