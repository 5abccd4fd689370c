import TabletopDice.Proofs.Roller.Independence
import TabletopDice.Proofs.Roller.Tails

/-!
What rolls take from a specification. The template is used up when the dice of its
combinations are made, and the label of a chance is told without its outer blanks; all
else that a roll depends on makes the plan. The title and the number of repetitions are
headings: specifications that differ only there are made of the same dice.
-/

namespace TabletopDice

open Text

namespace Modifiers

/-- Without what rolls take no notice of. -/
def settled (modifiers : Modifiers) : Modifiers :=
  { modifiers with template := [], chanceLabel := trim modifiers.chanceLabel }

def headed (title : Text) (count : Nat) (modifiers : Modifiers) : Modifiers :=
  { modifiers with title, repeatFor := count }

theorem chance_messages_settled (modifiers : Modifiers) :
    modifiers.settled.chanceMessages = modifiers.chanceMessages := by
  rw [chanceMessages, settled, trim_trim, chanceMessages]

theorem chance_fragments_settled (modifiers : Modifiers) (chance : Nat) :
    modifiers.settled.chanceFragments chance = modifiers.chanceFragments chance := by
  rw [chanceFragments, settled, trim_trim, chanceFragments]

end Modifiers

structure Plan where
  modifiers : Modifiers
  sequence : List (Except Failure Dice)

namespace Plan

def roll (plan : Plan) (name : Text) : SessionM (Text × List RollResult) := do
  let results ← SessionM.rollPasses plan.modifiers plan.sequence name maxPasses {}
  return (plan.modifiers.title, results)

end Plan

namespace Specification

def plan (specification : Specification) : Plan where
  modifiers := specification.modifiers.settled
  sequence := (Roller.ofSpecification specification).sequence

def headed (title : Text) (count : Nat) (specification : Specification) : Specification :=
  { specification with modifiers := specification.modifiers.headed title count }

theorem check_combinations_headed (title : Text) (count : Nat) (modifiers : Modifiers)
    (combinations : List (List Text)) :
    checkCombinations (modifiers.headed title count) combinations =
      checkCombinations modifiers combinations := by
  induction combinations with
  | nil => rfl
  | cons values rest ih =>
      rw [checkCombinations, checkCombinations, ih]
      rfl

theorem assemble_headed (title : Text) (count : Nat) (modifiers : Modifiers) (expression : Text) :
    assemble (modifiers.headed title count) expression =
      (assemble modifiers expression).map (headed title count) := by
  rw [assemble, assemble]
  cases readAlternatives ((Segment.ofText expression).filterMap Segment.values?) with
  | error failure => rfl
  | ok alternatives =>
      let set : Modifiers := {
        modifiers with
        alternatives
        template :=
          if alternatives.isEmpty then [] else Segment.template 0 (Segment.ofText expression) }
      cases readChance? expression with
      | some found =>
          change (checkChance set expression >>= fun _ => wholeNumber found.1 >>= fun _ => _) =
            (checkChance set expression >>= fun _ => wholeNumber found.1 >>= fun _ => _).map _
          cases checkChance set expression with
          | error failure => rfl
          | ok _ => cases wholeNumber found.1 <;> rfl
      | none =>
          cases alternatives with
          | nil =>
              change (buildDice set expression >>= fun _ => _) =
                (buildDice set expression >>= fun _ => _).map _
              cases buildDice set expression <;> rfl
          | cons values sets =>
              have checked := check_combinations_headed title count set (combinations (values :: sets))
              change (checkCombinations (set.headed title count) _ >>= fun _ => _) =
                (checkCombinations set _ >>= fun _ => _).map _
              rw [checked]
              cases checkCombinations set (combinations (values :: sets)) <;> rfl

theorem heading_of_assemble {modifiers : Modifiers} {expression : Text}
    {specification : Specification} (accepted : assemble modifiers expression = .ok specification) :
    specification.modifiers.title = modifiers.title ∧
      specification.modifiers.repeatFor = modifiers.repeatFor := by
  have same := assemble_headed modifiers.title modifiers.repeatFor modifiers expression
  change assemble modifiers expression = _ at same
  rw [accepted] at same
  have kept := Except.ok.inj same
  exact ⟨congrArg (fun found => found.modifiers.title) kept,
    congrArg (fun found => found.modifiers.repeatFor) kept⟩

end Specification

namespace SessionM

theorem rolls_as_settled (modifiers : Modifiers) : RollsAs modifiers modifiers.settled where
  dice pass sum dice := by
    have chance (chance : Nat) :
        rollChance modifiers.settled chance dice = rollChance modifiers chance dice := by
      simp only [rollChance, Modifiers.chance_messages_settled, Modifiers.chance_fragments_settled]
      rfl
    simp only [rollDice, chance]
    rfl
  repeatFor := rfl
  advance _ _ := rfl

theorem roll_specification_eq (specification : Specification) (name : Text) :
    rollSpecification specification name = specification.plan.roll name := by
  rw [rollSpecification, Plan.roll, Specification.plan, roll_passes_of_rolls_as (rolls_as_settled _)]
  rfl

end SessionM

end TabletopDice
