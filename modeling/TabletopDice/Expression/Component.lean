import TabletopDice.Expression.Operator
import TabletopDice.Number.DecimalText

/-!
The components of an expression. An expression such as `2d6 fire + 3 * (1d4 - 1)`
is a row of constants, die groups, operators, parentheses and labels; what a die
group shows when it is rolled is kept apart, so one expression can be rolled any
number of times.
-/

namespace TabletopDice

open Text

/-- A number of like dice, written `numerator/denominator d sides`. Without a denominator the
dice are whole. `rerolls` counts the attempts after the first one, so the best of three has two;
below zero there is no attempt. -/
structure DieGroup where
  sides : Int
  numerator : Int := 1
  denominator : Int := 0
  dieBonus : Int := 0
  rerolls : Int := 0
  best : Bool := true
  initialMax : Bool := false
  label : Text := []
  deriving DecidableEq, Repr

inductive Component
  | constant (value : Double) (label : Text)
  | die (group : DieGroup)
  | operator (op : Operator)
  | openGroup
  | closeGroup
  | label (text : Text)
  deriving DecidableEq, Repr

def DieGroup.shape (group : DieGroup) : Text :=
  ofInt group.numerator ++ (if 0 < group.denominator then '/' :: ofInt group.denominator else []) ++
    'd' :: ofInt group.sides

namespace Component

def dieGroup? : Component → Option DieGroup
  | die group => some group
  | _ => none

/-- The component as expression text. A bonus on every die has no notation of its own; it is
mentioned in parentheses. -/
def toText : Component → Text
  | constant value name =>
      value.toText ++ if name.isEmpty then [] else ' ' :: name
  | die group =>
      (if group.initialMax then ['>'] else []) ++ group.shape ++
        (if group.dieBonus = 0 then []
          else [' ', '('] ++ signed group.dieBonus ++ " per die)".toList) ++
        (if group.rerolls ≤ 0 then []
          else (if group.best then " best of ".toList else " worst of ".toList) ++
            ofInt (group.rerolls + 1)) ++
        (if group.label.isEmpty then [] else ' ' :: group.label)
  | operator op => [op.symbol]
  | openGroup => ['(']
  | closeGroup => [')']
  | label text => ' ' :: text

end Component

end TabletopDice
