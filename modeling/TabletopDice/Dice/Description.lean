import TabletopDice.Dice.Outcome
import TabletopDice.Fragment

/-!
Components as fragments: the request alone, or together with what the dice showed.
-/

namespace TabletopDice

def commaList (values : List Int) : Text := Text.join [','] (values.map Text.ofInt)

namespace DieOutcome

/-- The kind of the fragment that shows the attempt that counts. -/
def rollKind (outcome : DieOutcome) : FragmentKind :=
  if outcome.maximized then .maximumRoll else .roll

def attemptFragments (outcome : DieOutcome) : List Fragment :=
  outcome.attempts.mapIdx fun index faces =>
    ⟨if index = outcome.chosen then outcome.rollKind else .discarded, commaList faces⟩

end DieOutcome

namespace DieGroup

def describe (group : DieGroup) (outcome : Option DieOutcome) : List Fragment :=
  let first := (outcome.bind fun outcome => outcome.attempts.head?).getD []
  let subtotal := match outcome with
    | some outcome => if 1 < first.length then [Fragment.int .subtotal outcome.value] else []
    | none => []
  let choice :=
    if group.rerolls ≤ 0 then []
    else [Fragment.int (if group.best then .best else .worst) (group.rerolls + 1)]
  let rolls := match outcome with
    | some outcome =>
        if group.rerolls ≤ 0 then [⟨outcome.rollKind, commaList first⟩]
        else outcome.attemptFragments
    | none => []
  (if group.initialMax then [⟨.forcedMaximum, ['>']⟩] else []) ++
    [⟨.die, group.shape⟩] ++
    (if group.dieBonus = 0 then [] else [⟨.dieBonus, Text.signed group.dieBonus⟩]) ++
    subtotal ++ choice ++ rolls ++
    (if group.label.isEmpty then [] else [⟨.label, group.label⟩])

/-- The numbers that the request for the group tells; what it does not tell counts as few. -/
def requestNumbers (group : DieGroup) : List Int :=
  [group.numerator, max 0 group.denominator, group.sides, group.dieBonus, max 0 group.rerolls + 1]

def outcomeNumbers (group : DieGroup) (outcome : DieOutcome) : List Int :=
  let first := outcome.attempts.headD []
  (if 1 < first.length then [outcome.value] else []) ++
    if group.rerolls ≤ 0 then first else outcome.attempts.flatten

def numbers (group : DieGroup) (outcome : Option DieOutcome) : List Int :=
  group.requestNumbers ++ outcome.elim [] group.outcomeNumbers

/-- The description, which fails if one of its numbers is too long to be told. -/
def tell (group : DieGroup) (outcome : Option DieOutcome) : Except Failure (List Fragment) := do
  requireTellable (group.numbers outcome)
  return group.describe outcome

end DieGroup

namespace Component

def describe (outcome : Option DieOutcome) : Component → List Fragment
  | constant value name =>
      ⟨.constant, value.toText⟩ :: if name.isEmpty then [] else [⟨.label, name⟩]
  | die group => group.describe outcome
  | operator op => [⟨.operator, [op.symbol]⟩]
  | openGroup => [⟨.openGroup, ['(']⟩]
  | closeGroup => [⟨.closeGroup, [')']⟩]
  | label name => [⟨.label, name⟩]

/-- The numbers among what is described; a constant always has few enough digits. -/
def numbers (outcome : Option DieOutcome) : Component → List Int
  | die group => group.numbers outcome
  | _ => []

end Component

end TabletopDice
