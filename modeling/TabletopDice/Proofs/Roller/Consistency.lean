import TabletopDice.Proofs.Roller.Calls
import TabletopDice.Proofs.Roller.Keeping

/-!
What holds of a roller between any two calls. It remembers one expression, or one
template with its sets of alternatives, or nothing at all; and the modifiers that it
remembers go together. A specification that is accepted brings such a state about, a
refused one clears the roller, and rolling changes nothing but the last roll.
-/

namespace TabletopDice

open Text

namespace Roller

inductive Phase
  | expression
  | alternatives
  | nothing
  deriving DecidableEq, Repr

def IsIn (roller : Roller) : Phase → Prop
  | .expression => roller.dice ≠ none ∧ roller.modifiers.template = []
  | .alternatives => roller.dice = none ∧ roller.modifiers.template ≠ []
  | .nothing => roller.dice = none ∧ roller.modifiers = {} ∧ roller.last = none

/-- A state that calls can lead to. -/
structure IsConsistent (roller : Roller) : Prop where
  phase : ∃! phase, roller.IsIn phase
  template : roller.modifiers.template ≠ [] ↔ roller.modifiers.alternatives ≠ []
  alternatives : ∀ values ∈ roller.modifiers.alternatives, 2 ≤ values.length
  goal : roller.modifiers.total = 0 ∨ roller.modifiers.target = 0
  chance : roller.modifiers.chance ≠ none →
    roller.dice = some Specification.percentileDice ∧ roller.modifiers.confirm = false ∧
      roller.modifiers.difficulty = 0 ∧ roller.modifiers.automatic = [] ∧
      roller.modifiers.total = 0 ∧ roller.modifiers.alternatives = []
  single : roller.modifiers.confirm = true ∨ roller.modifiers.automatic ≠ [] →
    ∀ result ∈ roller.sequence, ∃ dice die,
      result = .ok dice ∧ dice.dieGroups = [die] ∧ die.numerator = 1

variable {roller : Roller}

theorem IsIn.unique {first second : Phase} (one : roller.IsIn first) (other : roller.IsIn second) :
    first = second := by
  cases first with
  | expression =>
      cases second with
      | expression => rfl
      | alternatives => exact absurd other.1 one.1
      | nothing => exact absurd other.1 one.1
  | alternatives =>
      cases second with
      | expression => exact absurd one.1 other.1
      | alternatives => rfl
      | nothing => exact absurd (congrArg Modifiers.template other.2.1) one.2
  | nothing =>
      cases second with
      | expression => exact absurd one.1 other.1
      | alternatives => exact absurd (congrArg Modifiers.template one.2.1) other.2
      | nothing => rfl

theorem IsIn.exists_unique (phase : Phase) (isIn : roller.IsIn phase) :
    ∃! phase, roller.IsIn phase :=
  ⟨phase, isIn, fun _ other => other.unique isIn⟩

theorem IsConsistent.rolled (consistent : roller.IsConsistent) (isSet : roller.isSet = true)
    (last : Option (Dice × Evaluation)) : IsConsistent { roller with last } := by
  refine { consistent with phase := ?_ }
  obtain ⟨phase, isIn, -⟩ := consistent.phase
  cases phase with
  | expression => exact IsIn.exists_unique .expression isIn
  | alternatives => exact IsIn.exists_unique .alternatives isIn
  | nothing =>
      obtain ⟨none, fresh, -⟩ := isIn
      rw [Roller.isSet, none, fresh] at isSet
      cases isSet

theorem consistent_cleared : cleared.IsConsistent where
  phase := IsIn.exists_unique .nothing ⟨rfl, rfl, rfl⟩
  template := iff_of_false (fun some => some rfl) fun some => some rfl
  alternatives := fun _ member => absurd member List.not_mem_nil
  goal := .inl rfl
  chance := fun some => absurd rfl some
  single := fun _ _ member => absurd member List.not_mem_nil

end Roller

namespace Modifiers

/-- Clauses ask for no chance, and not for a sum together with a target. -/
structure AreCollected (modifiers : Modifiers) : Prop where
  chance : modifiers.chance = none
  goal : modifiers.total = 0 ∨ modifiers.target = 0

theorem chance_with_clause {modifiers final : Modifiers} {clause : Clause}
    (read : modifiers.withClause clause = .ok final) : final.chance = modifiers.chance := by
  cases clause with
  | confirm threat bonus =>
      simp only [withClause, bind_eq_ok, pure_eq_ok] at read
      obtain ⟨_, -, _, -, rfl⟩ := read
      rfl
  | target value | difficulty value | repetition count | total value =>
      simp only [withClause, bind_eq_ok, pure_eq_ok] at read
      obtain ⟨_, -, rfl⟩ := read
      rfl
  | limit | maximized | automatic written success fail =>
      cases read
      rfl

theorem AreCollected.with_text {modifiers final : Modifiers} (collected : modifiers.AreCollected)
    {clause : Text} (read : modifiers.withText clause = .ok final) : final.AreCollected := by
  unfold withText at read
  split at read
  · cases read
  · cases read
    exact collected
  · rw [bind_eq_ok] at read
    obtain ⟨next, added, last⟩ := read
    split at last
    next => cases last
    next goal =>
      cases last
      exact ⟨(chance_with_clause added).trans collected.chance, by omega⟩

end Modifiers

namespace Specification

theorem Cuts.collected {text expression : Text} {modifiers : Modifiers}
    (cut : Cuts text expression modifiers) : modifiers.AreCollected := by
  obtain ⟨written, found, -⟩ := cut
  exact kept_of_split_modifiers (fun _ _ _ _ collected read => collected.with_text read)
    ⟨rfl, .inl rfl⟩ found

theorem conflicts_of_check_chance {modifiers : Modifiers} {expression : Text}
    (checked : checkChance modifiers expression = .ok ()) :
    modifiers.confirm = false ∧ modifiers.difficulty = 0 ∧ modifiers.automatic = [] ∧
      modifiers.total = 0 ∧ modifiers.alternatives = [] := by
  have absent := alternatives_of_check_chance checked
  simp only [checkChance, guard_eq_ok] at checked
  obtain ⟨-, -, confirm, difficulty, automatic, total⟩ := checked
  split at total
  next => cases total
  next none => exact ⟨by simpa using confirm, by simpa using difficulty, by simpa using automatic,
      by simpa using none, absent⟩

theorem single_of_ready {roller : Roller} (ready : roller.IsReady)
    (asked : roller.modifiers.confirm = true ∨ roller.modifiers.automatic ≠ []) :
    ∀ result ∈ roller.sequence, ∃ dice die,
      result = .ok dice ∧ dice.dieGroups = [die] ∧ die.numerator = 1 := by
  intro result member
  obtain ⟨dice, rfl, rollable⟩ := ready.rollable result member
  obtain ⟨die, single, one⟩ := rollable.single (by simpa [Modifiers.needsSingleDie] using asked)
  exact ⟨dice, die, rfl, Dice.die_groups_of_single single, one⟩

theorem consistent_of_parse {text : Text} {specification : Specification}
    (parsed : parse text = .ok specification) :
    (Roller.ofSpecification specification).IsConsistent := by
  have single := single_of_ready (ready_of_parse parsed)
  cases accepted_of_parse parsed with
  | chance cut _ _ allowed =>
      exact {
        phase := Roller.IsIn.exists_unique .expression ⟨nofun, rfl⟩
        template := iff_of_false (fun some => some rfl) fun some => some rfl
        alternatives := fun _ member => absurd member List.not_mem_nil
        goal := cut.collected.goal
        chance := fun _ => ⟨rfl, conflicts_of_check_chance allowed⟩
        single }
  | single cut =>
      exact {
        phase := Roller.IsIn.exists_unique .expression ⟨nofun, rfl⟩
        template := iff_of_false (fun some => some rfl) fun some => some rfl
        alternatives := fun _ member => absurd member List.not_mem_nil
        goal := cut.collected.goal
        chance := fun some => absurd cut.collected.chance some
        single }
  | several cut offered present =>
      have template := template_of_offers offered present
      exact {
        phase := Roller.IsIn.exists_unique .alternatives ⟨rfl, template⟩
        template := iff_of_true template present
        alternatives := (read_alternatives_eq_ok.mp offered).2
        goal := cut.collected.goal
        chance := fun some => absurd cut.collected.chance some
        single }

end Specification

def Session.IsConsistent (session : Session) : Prop := session.roller.IsConsistent

namespace SessionM

theorem consistent_set_specification (text : Text) :
    Keeps Session.IsConsistent (setSpecification text) :=
  sound_set_specification (fun _ _ => Roller.consistent_cleared) (fun _ _ => trivial)
    fun _ parsed _ _ => Specification.consistent_of_parse parsed

theorem ignores_rolls_consistent : IgnoresRolls fun session =>
    session.roller.isSet = true ∧ session.IsConsistent where
  source := fun _ _ holds => holds
  last := fun _ last holds => ⟨holds.1, holds.2.rolled holds.1 last⟩

theorem consistent_roll (text : Text) : Keeps Session.IsConsistent (roll text) := by
  apply sound_roll trivial (consistent_set_specification text)
  intro session holds
  have passes (name : Text) : Keeps _
      (rollPasses session.roller.modifiers session.roller.sequence name maxPasses {}) :=
    keeps_roll_passes ignores_rolls_consistent (fun _ _ holds => holds) _ name _ _
  exact keeps_bind (passes _) (fun _ => keeps_pure _) session holds

theorem withstands_consistent (text : Text) : Withstands Session.IsConsistent (fun _ => True) text :=
  ⟨consistent_set_specification text, consistent_roll text, fun _ _ _ _ _ _ => trivial⟩

theorem consistent_of_fresh (source : Source) : Session.IsConsistent { source } where
  phase := Roller.IsIn.exists_unique .expression ⟨nofun, rfl⟩
  template := iff_of_false (fun some => some rfl) fun some => some rfl
  alternatives := fun _ member => absurd member List.not_mem_nil
  goal := .inl rfl
  chance := fun some => absurd rfl some
  single := fun asked => by
    rcases asked with confirm | automatic
    · cases confirm
    · exact absurd rfl automatic

end SessionM

/-- Whatever was called before, and whether it failed or not, the roller is in a consistent
state. -/
theorem consistent_after_calls (source : Source) (calls : List Call) :
    (afterCalls { source } calls).roller.IsConsistent :=
  invariant_after_calls (fun _ => trivial) (fun _ _ kept => kept)
    (fun call _ => SessionM.withstands_consistent call.text)
    (SessionM.consistent_of_fresh source)

end TabletopDice
