import TabletopDice.Proofs.Dice.TreeRoll
import TabletopDice.Proofs.Dice.Natural
import TabletopDice.Proofs.Dice.Telling
import TabletopDice.Proofs.Number.Range

/-!
How large the numbers of a roll get. Each component of a row has a weight, and so many
binary digits does it add to the result at most. A row that is not too heavy is rolled
without a number that leaves the range of doubles.
-/

namespace TabletopDice

namespace Component

/-- The component adds at most so many binary digits. -/
def Weighs (weight : Nat) : Component → Prop
  | constant value _ => (Operand.real value).IsWithin weight
  | die group => group.sides.toNat ≤ twoPow weight ∧
      group.numerator.toNat * group.sides.toNat ≤ twoPow weight
  | operator _ => 1 ≤ weight
  | _ => True

end Component

inductive RowWeighs : Nat → List Component → Prop
  | nil {weight : Nat} : RowWeighs weight []
  | cons {first rest : Nat} {component : Component} {row : List Component}
      (one : component.Weighs first) (others : RowWeighs rest row) :
      RowWeighs (first + rest) (component :: row)

namespace RowWeighs

theorem mono {weight more : Nat} {row : List Component} (weighs : RowWeighs weight row)
    (wider : weight ≤ more) : RowWeighs more row := by
  induction weighs generalizing more with
  | nil => exact .nil
  | @cons first rest component row one others ih =>
      have behind := ih (Nat.le_sub_of_add_le (by omega : rest + first ≤ more))
      have split := RowWeighs.cons one behind
      rwa [Nat.add_sub_cancel' (by omega)] at split

theorem cons_inv {weight : Nat} {component : Component} {row : List Component}
    (weighs : RowWeighs weight (component :: row)) :
    ∃ first rest, first + rest = weight ∧ component.Weighs first ∧ RowWeighs rest row := by
  cases weighs with
  | cons one others => exact ⟨_, _, rfl, one, others⟩

theorem of_mem {weight : Nat} {row : List Component} (weighs : RowWeighs weight row)
    {component : Component} (member : component ∈ row) :
    ∃ part, part ≤ weight ∧ component.Weighs part := by
  induction weighs with
  | nil => cases member
  | @cons first rest _ _ one _ ih =>
      rcases List.mem_cons.mp member with rfl | later
      · exact ⟨first, Nat.le_add_right first rest, one⟩
      · obtain ⟨part, bound, weighs⟩ := ih later
        exact ⟨part, Nat.le_trans bound (Nat.le_add_left rest first), weighs⟩

theorem append_inv {weight : Nat} {left right : List Component}
    (weighs : RowWeighs weight (left ++ right)) :
    ∃ first rest, first + rest = weight ∧ RowWeighs first left ∧ RowWeighs rest right := by
  induction left generalizing weight with
  | nil => exact ⟨0, weight, Nat.zero_add weight, .nil, weighs⟩
  | cons component left ih =>
      obtain ⟨first, rest, rfl, one, others⟩ := weighs.cons_inv
      obtain ⟨second, last, rfl, weighsLeft, weighsRight⟩ := ih others
      exact ⟨first + second, last, Nat.add_assoc .., .cons one weighsLeft, weighsRight⟩

end RowWeighs

theorem Stack.combine_within {op : Operator} (isBinary : op ≠ .negate) {left right : Operand}
    {first second : Nat} (one : left.IsWithin first) (other : right.IsWithin second)
    (inRange : first + second + 1 < 1024) :
    Settles Failure.IsRequest (fun value => value.IsWithin (first + second + 1))
      (Stack.combine op left right) := by
  have shorter : first + second ≤ first + second + 1 := Nat.le_succ _
  have whole {result : Except NumberFault Int} {weight : Nat}
      (given : ∃ value, result = .ok value ∧ value.natAbs ≤ twoPow weight)
      (wider : weight ≤ first + second + 1) :
      Settles Failure.IsRequest (fun value => value.IsWithin (first + second + 1))
        (Stack.whole result) := by
    obtain ⟨value, rfl, bound⟩ := given
    exact Nat.le_trans bound (twoPow_le wider)
  have widen := Operand.within_mono one (by omega : first ≤ first + second + 1)
  have widenOther := Operand.within_mono other (by omega : second ≤ first + second + 1)
  cases op with
  | add => exact whole (Operand.add_within one other inRange) (Nat.le_refl _)
  | subtract => exact whole (Operand.sub_within one other inRange) (Nat.le_refl _)
  | multiply => exact whole (Operand.mul_within one other (by omega)) shorter
  | divide =>
      by_cases zero : right.isZero = true
      · have refused : Stack.combine .divide left right = .error (.dice .divisionByZero) := if_pos zero
        rw [refused]
        exact ⟨.divisionByZero, rfl⟩
      · have divided : Stack.combine .divide left right = Stack.whole (left.div right) := if_neg zero
        rw [divided]
        exact whole (Operand.div_within one other (Bool.eq_false_iff.mpr zero) (by omega)) shorter
  | atMost => exact Operand.at_most_within widen widenOther
  | atLeast => exact Operand.at_least_within widen widenOther
  | negate => exact absurd rfl isBinary

namespace DieGroup

variable {group : DieGroup}

theorem shown_le (proper : group.IsProper) {face : Int} (shown : group.Shows face) :
    face ≤ group.sides := by
  obtain ⟨side, positive, highest, rfl⟩ := shown
  have bonus := proper.dieBonus
  have sides := proper.sides
  unfold adjust
  simp only [bonus, Int.add_zero]
  split
  next some =>
    apply Int.max_le.mpr
    refine ⟨sides, Int.le_trans ?_ highest⟩
    rw [Int.fdiv_eq_ediv_of_nonneg _ (Int.le_of_lt some)]
    exact Int.ediv_le_self _ (by omega)
  next => exact highest

theorem sum_faces_bounds (proper : group.IsProper) {faces : List Int}
    (shown : ∀ face ∈ faces, group.Shows face) :
    0 ≤ sumFaces faces ∧ sumFaces faces ≤ faces.length * group.sides := by
  have between : ∀ face ∈ faces, 0 ≤ face ∧ face ≤ group.sides := by
    intro face member
    have positive := one_le_of_shows proper (shown face member)
    exact ⟨by omega, shown_le proper (shown face member)⟩
  have bounds := sum_faces_between between
  rwa [Int.mul_zero] at bounds

/-- The numbers of an outcome are no larger than all dice on their highest side together. -/
theorem outcome_within (proper : group.IsProper) {weight : Nat}
    (weighs : (Component.die group).Weighs weight) {outcome : DieOutcome}
    (rolled : group.IsOutcome outcome) :
    ∀ number ∈ outcome.value :: outcome.attempts.flatten, number.natAbs ≤ twoPow weight := by
  obtain ⟨maximized, attempts, nonempty, attempted, rfl⟩ := rolled
  obtain ⟨sides, product⟩ := weighs
  have someSides := proper.sides
  rw [List.forall_mem_cons]
  constructor
  · have sums : attempts.map sumFaces ≠ [] := by simpa using nonempty
    have chosen := choose_lt group sums
    have value : (group.outcomeOf maximized attempts).value ∈ attempts.map sumFaces := by
      simp only [outcomeOf, List.getD_eq_getElem?_getD, List.getElem?_eq_getElem chosen,
        Option.getD_some]
      exact List.getElem_mem chosen
    obtain ⟨faces, member, same⟩ := List.mem_map.mp value
    obtain ⟨length, shown⟩ := attempted faces member
    obtain ⟨lower, upper⟩ := sum_faces_bounds proper shown
    rw [← same]
    rw [length] at upper
    have highest : (group.numerator.toNat : Int) * group.sides =
        (group.numerator.toNat * group.sides.toNat : Nat) := by
      push_cast
      rw [Int.toNat_of_nonneg (by omega : 0 ≤ group.sides)]
    omega
  · intro face member
    obtain ⟨faces, isAttempt, inside⟩ := List.mem_flatten.mp member
    have shown := (attempted faces isAttempt).2 face inside
    have lower := one_le_of_shows proper shown
    have upper := shown_le proper shown
    omega

end DieGroup

theorem Tree.sound_roll {tree : Tree} (tiered : tree.IsTiered)
    (proper : ∀ component ∈ tree.flatten, component.IsProper) {weight : Nat}
    (weighs : RowWeighs weight tree.flatten) (inRange : weight < 1024) (maximize : Bool) :
    Sound Always Failure.IsRequest (tree.roll maximize) fun value => value.IsWithin weight := by
  induction tree generalizing weight with
  | constant value label =>
      obtain ⟨first, rest, rfl, one, -⟩ := weighs.cons_inv
      exact sound_pure (Operand.within_mono one (Nat.le_add_right first rest))
  | die dice =>
      obtain ⟨first, rest, rfl, one, -⟩ := weighs.cons_inv
      have properDice : dice.IsProper := proper _ List.mem_cons_self
      apply sound_bind (sound_of_draws (DieGroup.draws_roll properDice maximize))
      intro outcome rolled
      have value := DieGroup.outcome_within properDice one rolled outcome.value List.mem_cons_self
      exact sound_pure (Nat.le_trans value (twoPow_le (Nat.le_add_right first rest)))
  | negation operand ih =>
      obtain ⟨first, rest, rfl, -, others⟩ := weighs.cons_inv
      have properOperand := (List.forall_mem_cons.mp proper).2
      apply sound_bind (ih tiered.1 properOperand others (by omega))
      intro value within
      exact sound_pure (Operand.within_mono (Operand.neg_within within) (Nat.le_add_left rest first))
  | binary op left right ihLeft ihRight =>
      obtain ⟨isBinary, tieredLeft, tieredRight, -, -⟩ := tiered
      obtain ⟨properLeft, properBehind⟩ := List.forall_mem_append.mp proper
      obtain ⟨first, behind, rfl, weighsLeft, weighsBehind⟩ := weighs.append_inv
      obtain ⟨one, last, rfl, some, weighsRight⟩ := weighsBehind.cons_inv
      -- The sign is the digit that a sum of the operands may need beyond theirs.
      have sign : 1 ≤ one := some
      apply sound_bind (ihLeft tieredLeft properLeft weighsLeft (by omega))
      intro a withinLeft
      apply sound_bind (ihRight tieredRight (List.forall_mem_cons.mp properBehind).2 weighsRight
        (by omega))
      intro b withinRight
      have combined := Stack.combine_within isBinary withinLeft withinRight (by omega)
      apply sound_mono (sound_of_except combined) (fun _ request => request)
      intro value within
      exact Operand.within_mono within (by omega)
  | group inner label ih =>
      obtain ⟨first, behind, rfl, -, weighsBehind⟩ := weighs.cons_inv
      obtain ⟨inside, rest, rfl, weighsInner, -⟩ := weighsBehind.append_inv
      have properInner := (List.forall_mem_append.mp (List.forall_mem_cons.mp proper).2).1
      apply sound_mono (ih tiered properInner weighsInner (by omega)) (fun _ request => request)
      intro value within
      exact Operand.within_mono within (by omega)

theorem sound_of_map {Value Result : Type} {computation : Draw Value} {change : Value → Result}
    {allowed : Failure → Prop} {promised : Result → Prop}
    (sound : Sound Always allowed (change <$> computation) promised) :
    Sound Always allowed computation fun value => promised (change value) := by
  intro source holds
  have mapped := sound source holds
  rw [← bind_pure_comp, run_bind] at mapped
  generalize computation.run.run source = run at mapped ⊢
  obtain ⟨failure | value, after⟩ := run
  · exact mapped
  · exact mapped

namespace Limits

structure IsWithin (weight : Nat) (limits : Limits) : Prop where
  minimum : limits.minimum.natAbs ≤ twoPow weight
  maximum : limits.maximum.natAbs ≤ twoPow weight

variable {limits : Limits} {weight more : Nat}

theorem within_mono (within : limits.IsWithin weight) (wider : weight ≤ more) :
    limits.IsWithin more :=
  ⟨Nat.le_trans within.minimum (twoPow_le wider), Nat.le_trans within.maximum (twoPow_le wider)⟩

theorem clamp_within (within : limits.IsWithin weight) {total : Int}
    (small : total.natAbs ≤ twoPow weight) : (limits.clamp total).natAbs ≤ twoPow weight := by
  have minimum := within.minimum
  have maximum := within.maximum
  simp only [clamp]
  split <;> split <;> omega

end Limits

/-- The total and whatever the dice showed have at most so many binary digits. -/
structure Evaluation.IsWithin (weight : Nat) (evaluation : Evaluation) : Prop where
  total : evaluation.total.natAbs ≤ twoPow weight
  shown : ∀ outcome ∈ evaluation.outcomes.filterMap id,
    ∀ number ∈ outcome.value :: outcome.attempts.flatten, number.natAbs ≤ twoPow weight

namespace Dice

/-- The dice are well formed, they can be told, and neither their components nor their limits are
too heavy. -/
structure IsModest (weight : Nat) (dice : Dice) : Prop where
  wellFormed : WellFormed dice.components
  tellable : dice.IsTellable
  weighs : RowWeighs weight dice.components
  limits : dice.limits.IsWithin weight

variable {dice : Dice} {weight : Nat}

/-- The total of modest dice has at most one binary digit more than they weigh. -/
theorem sound_total (modest : dice.IsModest weight) (inRange : weight < 1024) (maximize : Bool)
    {bonus : Int} (small : bonus.natAbs ≤ twoPow weight) :
    Sound Always Failure.IsRequest (dice.evaluate maximize bonus) fun evaluation =>
      evaluation.total.natAbs ≤ twoPow (weight + 1) := by
  obtain ⟨tree, tiered, same, -⟩ := Tree.exists_tree modest.wellFormed.derived
  have proper := modest.wellFormed.proper
  have weighs := modest.weighs
  rw [← same] at proper weighs
  suffices sound : Sound Always Failure.IsRequest (Evaluation.total <$> dice.evaluate maximize bonus)
      fun total => total.natAbs ≤ twoPow (weight + 1) from sound_of_map sound
  rw [total_evaluate tiered same]
  apply sound_bind (Tree.sound_roll tiered proper weighs inRange maximize)
  intro value within
  obtain ⟨whole, truncated, bound⟩ := Operand.truncate_within within
  rw [truncated]
  apply sound_pure
  apply Limits.clamp_within (Limits.within_mono modest.limits (Nat.le_succ weight))
  rw [twoPow_succ]
  omega

theorem outcomes_of_feeds {maximize : Bool} {row : List Component} {natural seen : Int × Int}
    {source after : Source} {outcomes : List (Option DieOutcome)}
    (feeds : Feeds maximize row natural source outcomes seen after)
    (proper : ∀ component ∈ row, component.IsProper) :
    ∀ outcome ∈ outcomes.filterMap id, ∃ group, .die group ∈ row ∧ group.IsOutcome outcome := by
  induction feeds with
  | nil =>
      intro outcome member
      cases member
  | die rolled _ ih =>
      obtain ⟨properHead, properRow⟩ := List.forall_mem_cons.mp proper
      intro outcome member
      rcases List.mem_cons.mp member with rfl | later
      · exact ⟨_, List.mem_cons_self, (DieGroup.draws_roll properHead maximize).kept rolled⟩
      · obtain ⟨group, inside, shown⟩ := ih properRow outcome later
        exact ⟨group, List.mem_cons_of_mem _ inside, shown⟩
  | other _ _ ih =>
      intro outcome member
      obtain ⟨group, inside, shown⟩ := ih (List.forall_mem_cons.mp proper).2 outcome member
      exact ⟨group, List.mem_cons_of_mem _ inside, shown⟩

theorem sound_outcomes (modest : dice.IsModest weight) (maximize : Bool) (bonus : Int) :
    Sound Always (fun _ => True) (dice.evaluate maximize bonus) fun evaluation =>
      ∀ outcome ∈ evaluation.outcomes.filterMap id,
        ∀ number ∈ outcome.value :: outcome.attempts.flatten, number.natAbs ≤ twoPow weight := by
  have proper := modest.wellFormed.proper
  apply sound_of_run
  intro source evaluation after rolled outcome member number inside
  obtain ⟨group, isDie, rolled⟩ :=
    outcomes_of_feeds (feeds_of_evaluate rolled) proper outcome member
  obtain ⟨part, bound, weighs⟩ := modest.weighs.of_mem isDie
  have within := DieGroup.outcome_within (proper _ isDie) weighs rolled number inside
  exact Nat.le_trans within (twoPow_le bound)

/-- Modest dice are rolled without a number that is too large. -/
theorem sound_numbers (modest : dice.IsModest weight) (inRange : weight < 1024) (maximize : Bool)
    {bonus : Int} (small : bonus.natAbs ≤ twoPow weight) :
    Sound Always Failure.IsRequest (dice.evaluate maximize bonus) fun evaluation =>
      evaluation.IsWithin (weight + 1) := by
  have both := sound_and (sound_total modest inRange maximize small) (sound_outcomes modest maximize bonus)
  apply sound_mono both (fun _ request => request)
  rintro evaluation ⟨total, outcomes⟩
  refine ⟨total, ?_⟩
  intro outcome shown number inside
  exact Nat.le_trans (outcomes outcome shown number inside) (twoPow_le (Nat.le_succ weight))

end Dice

end TabletopDice
