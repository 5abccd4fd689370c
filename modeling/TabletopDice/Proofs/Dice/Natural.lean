import TabletopDice.Proofs.Dice.Rolling

/-!
The natural face of a single die. A row with exactly one die group, which asks for
one die, shows a natural face, so a confirmation always has a face to look at.
-/

namespace TabletopDice

namespace DieGroup

variable {group : DieGroup}

theorem one_le_of_shows (proper : group.IsProper) {face : Int} (shown : group.Shows face) :
    1 ≤ face := by
  obtain ⟨side, positive, -, rfl⟩ := shown
  have bonus := proper.dieBonus
  unfold adjust
  simp only [bonus, Int.add_zero]
  split
  · exact Int.le_max_left _ _
  · exact positive

theorem choose_lt (group : DieGroup) {sums : List Int} (nonempty : sums ≠ []) :
    group.choose sums < sums.length := by
  unfold choose
  apply List.idxOf_lt_length_of_mem
  cases sums with
  | nil => exact absurd rfl nonempty
  | cons first rest =>
      split
      · exact List.max?_mem (List.max?_cons' ..)
      · exact List.min?_mem (List.min?_cons' ..)

/-- What counts of a single die is one recorded face. It is the value and, but for the bonus, the
natural face. -/
theorem exists_face_of_single (single : group.numerator = 1) {outcome : DieOutcome}
    (rolled : group.IsOutcome outcome) :
    ∃ face, group.Shows face ∧ outcome.value = face ∧ outcome.natural = face - group.dieBonus := by
  obtain ⟨maximized, attempts, nonempty, attempted, rfl⟩ := rolled
  have chosen : group.choose (attempts.map sumFaces) < attempts.length := by
    have sums : attempts.map sumFaces ≠ [] := by simpa using nonempty
    have below := choose_lt group sums
    rwa [List.length_map] at below
  have counted := attempted _ (List.getElem_mem chosen)
  obtain ⟨face, only⟩ : ∃ face, attempts[group.choose (attempts.map sumFaces)] = [face] := by
    apply List.length_eq_one_iff.mp
    rw [counted.1, single]
    rfl
  refine ⟨face, counted.2 face (by simp [only]), ?_, ?_⟩
  · simp [outcomeOf, List.getD_eq_getElem?_getD, chosen, only, sumFaces]
  · simp [outcomeOf, single, List.getD_eq_getElem?_getD, chosen, only]

theorem one_le_natural (proper : group.IsProper) (single : group.numerator = 1)
    {outcome : DieOutcome} (rolled : group.IsOutcome outcome) : 1 ≤ outcome.natural := by
  obtain ⟨face, shown, -, natural⟩ := exists_face_of_single single rolled
  rw [natural, proper.dieBonus, Int.sub_zero]
  exact one_le_of_shows proper shown

/-- A die that can be written has no bonus, so its natural face is its value. -/
theorem natural_eq_value (proper : group.IsProper) (single : group.numerator = 1)
    {outcome : DieOutcome} (rolled : group.IsOutcome outcome) :
    outcome.natural = outcome.value := by
  obtain ⟨face, -, value, natural⟩ := exists_face_of_single single rolled
  rw [natural, value, proper.dieBonus, Int.sub_zero]

end DieGroup

namespace Dice

theorem natural_of_first (die : DieGroup) (outcome : DieOutcome) (threat : Int) :
    (nextNatural (naturalNone, threat) die outcome).1 = outcome.natural := by
  unfold nextNatural
  split
  next unseen => exact unseen.symm
  next => rfl

theorem die_groups_of_single {dice : Dice} {die : DieGroup} (single : dice.singleDie? = some die) :
    dice.dieGroups = [die] := by
  unfold singleDie? at single
  split at single
  next group found =>
    cases single
    exact found
  next => cases single

theorem proper_of_die_groups {dice : Dice}
    (proper : ∀ component ∈ dice.components, component.IsProper) :
    ∀ group ∈ dice.dieGroups, group.IsProper := by
  intro group member
  obtain ⟨component, inside, found⟩ := List.mem_filterMap.mp member
  obtain rfl := eq_die_of_die_group found
  exact proper _ inside

theorem sound_evaluate_natural {dice : Dice} (wellFormed : WellFormed dice.components)
    {die : DieGroup} (single : dice.singleDie? = some die) (one : die.numerator = 1)
    (maximize : Bool) (bonus : Int) :
    Sound Always Failure.IsArithmetic (dice.evaluate maximize bonus) fun evaluation =>
      1 ≤ evaluation.natural := by
  have groups : dice.dieGroups = [die] := die_groups_of_single single
  have proper : die.IsProper :=
    proper_of_die_groups wellFormed.proper die (groups ▸ List.mem_singleton_self die)
  have shows : Sound Always (fun _ => True) (dice.evaluate maximize bonus) fun evaluation =>
      1 ≤ evaluation.natural := by
    apply sound_of_run
    intro source evaluation after rolled
    obtain ⟨outcome, drawn, seen, -⟩ := feeds_of_die groups (feeds_of_evaluate rolled)
    have natural : evaluation.natural = outcome.natural :=
      (congrArg Prod.fst seen).trans (natural_of_first die outcome 0)
    rw [natural]
    exact DieGroup.one_le_natural proper one ((DieGroup.draws_roll proper maximize).kept drawn)
  have both := sound_and (sound_evaluate wellFormed maximize bonus) shows
  exact sound_mono both (fun _ arithmetic => arithmetic) fun _ kept => kept.2

end Dice

end TabletopDice
