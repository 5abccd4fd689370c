import TabletopDice.Dice.Basic
import TabletopDice.Proofs.Expression.Acceptance
import TabletopDice.Proofs.Expression.Evaluation

/-!
Rolling accepted dice. A die group that can be written always has an outcome, with
as many attempts and faces as it asks for. A whole expression is fed to the stack
with the outcomes as the numbers of its die groups, so it fails by its arithmetic
alone.
-/

namespace TabletopDice

def Always {State : Type} : State → Prop := fun _ => True

/-- The draw succeeds on every source, with a value as promised. -/
def Draws {Value : Type} (draw : Draw Value) (promised : Value → Prop) : Prop :=
  Sound Always (fun _ => False) draw promised

theorem draws_below {bound : Nat} (positive : 0 < bound) :
    Draws (Draw.below bound) fun value => value < bound := by
  intro source _
  exact ⟨source.below_lt source.drawn bound positive, trivial⟩

theorem Draws.kept {Value : Type} {draw : Draw Value} {promised : Value → Prop}
    (draws : Draws draw promised) {source after : Source} {value : Value}
    (drawn : draw.run.run source = (.ok value, after)) : promised value :=
  (Sound.of_ok draws trivial drawn).1

theorem sound_of_run {Value : Type} {draw : Draw Value} {promised : Value → Prop}
    (kept : ∀ source value after, draw.run.run source = (.ok value, after) → promised value) :
    Sound Always (fun _ => True) draw promised := by
  intro source _
  refine ⟨?_, trivial⟩
  rcases drawn : draw.run.run source with ⟨failure | value, after⟩
  · trivial
  · exact kept source value after drawn

theorem sound_of_draws {Value : Type} {draw : Draw Value} {promised : Value → Prop}
    {allowed : Failure → Prop} (draws : Draws draw promised) : Sound Always allowed draw promised :=
  sound_mono draws (fun _ impossible => impossible.elim) fun _ kept => kept

theorem sound_of_except {Value : Type} {invariant : Source → Prop} {allowed : Failure → Prop}
    {result : Except Failure Value} {promised : Value → Prop}
    (settles : Settles allowed promised result) :
    Sound invariant allowed (Draw.ofExcept result) promised := by
  cases result with
  | ok value => exact sound_pure settles
  | error failure => exact sound_throw settles promised

theorem Draw.run_of_except_eq_ok {Value : Type} {result : Except Failure Value} {value : Value}
    {source after : Source} (succeeded : (ofExcept result).run.run source = (.ok value, after)) :
    after = source := by
  cases result with
  | ok value =>
      cases succeeded
      rfl
  | error failure => cases succeeded

namespace DieGroup

def Shows (group : DieGroup) (face : Int) : Prop :=
  ∃ side, 1 ≤ side ∧ side ≤ group.sides ∧ face = group.adjust side

def IsAttempt (group : DieGroup) (faces : List Int) : Prop :=
  faces.length = group.numerator.toNat ∧ ∀ face ∈ faces, group.Shows face

def IsOutcome (group : DieGroup) (outcome : DieOutcome) : Prop :=
  ∃ maximized attempts, attempts ≠ [] ∧ (∀ faces ∈ attempts, group.IsAttempt faces) ∧
    outcome = group.outcomeOf maximized attempts

variable {group : DieGroup}

theorem sum_faces_between {low high : Int} {faces : List Int}
    (between : ∀ face ∈ faces, low ≤ face ∧ face ≤ high) :
    faces.length * low ≤ sumFaces faces ∧ sumFaces faces ≤ faces.length * high := by
  induction faces with
  | nil => simp [sumFaces]
  | cons face faces ih =>
      obtain ⟨first, others⟩ := List.forall_mem_cons.mp between
      obtain ⟨lower, upper⟩ := ih others
      have sum : sumFaces (face :: faces) = face + sumFaces faces := rfl
      rw [sum, List.length_cons]
      push_cast
      rw [Int.add_mul, Int.add_mul, Int.one_mul, Int.one_mul]
      omega

theorem shows_highest (sides : 1 ≤ group.sides) : group.Shows (group.adjust group.sides) :=
  ⟨group.sides, sides, Int.le_refl _, rfl⟩

theorem draws_face (sides : 1 ≤ group.sides) : Draws group.rollFace group.Shows := by
  apply sound_bind (draws_below (by omega))
  intro value below
  exact sound_pure ⟨1 + value, by omega, by omega, rfl⟩

theorem draws_faces (sides : 1 ≤ group.sides) (count : Nat) :
    Draws (group.rollFaces count) fun faces =>
      faces.length = count ∧ ∀ face ∈ faces, group.Shows face := by
  induction count with
  | zero => exact sound_pure ⟨rfl, fun face member => absurd member List.not_mem_nil⟩
  | succ count ih =>
      apply sound_bind (draws_face sides)
      intro face shown
      apply sound_bind ih
      intro faces rolled
      exact sound_pure ⟨congrArg (· + 1) rolled.1, List.forall_mem_cons.mpr ⟨shown, rolled.2⟩⟩

theorem draws_attempt (sides : 1 ≤ group.sides) (forced : Bool) :
    Draws (group.rollAttempt forced) group.IsAttempt := by
  unfold rollAttempt
  split
  next count dice =>
    apply sound_bind (draws_faces sides count)
    intro faces rolled
    refine sound_pure ⟨?_, List.forall_mem_cons.mpr ⟨shows_highest sides, rolled.2⟩⟩
    rw [List.length_cons, rolled.1, dice]
  next => exact draws_faces sides _

theorem draws_attempts (sides : 1 ≤ group.sides) (count : Nat) :
    Draws (group.rollAttempts count) fun attempts => ∀ faces ∈ attempts, group.IsAttempt faces := by
  induction count with
  | zero => exact sound_pure fun faces member => absurd member List.not_mem_nil
  | succ count ih =>
      apply sound_bind (draws_attempt sides false)
      intro faces rolled
      apply sound_bind ih
      intro attempts more
      exact sound_pure (List.forall_mem_cons.mpr ⟨rolled, more⟩)

theorem is_attempt_highest (sides : 1 ≤ group.sides) :
    group.IsAttempt (List.replicate group.numerator.toNat (group.adjust group.sides)) := by
  refine ⟨List.length_replicate, ?_⟩
  intro face member
  rw [List.eq_of_mem_replicate member]
  exact shows_highest sides

theorem draws_roll (proper : group.IsProper) (maximize : Bool) :
    Draws (group.roll maximize) group.IsOutcome := by
  have sides := proper.sides
  have rerolls := proper.rerolls
  unfold roll
  rw [if_neg (by omega)]
  split
  next =>
    refine sound_pure ⟨true, _, List.cons_ne_nil _ _, ?_, rfl⟩
    intro faces member
    rw [List.mem_singleton.mp member]
    exact is_attempt_highest sides
  next =>
    rw [if_neg (by omega)]
    apply sound_bind (draws_attempt sides group.initialMax)
    intro first rolled
    apply sound_bind (draws_attempts sides _)
    intro more attempts
    exact sound_pure
      ⟨false, _, List.cons_ne_nil _ _, List.forall_mem_cons.mpr ⟨rolled, attempts⟩, rfl⟩

end DieGroup

namespace Dice

def ownNumber : Component → Operand
  | .constant value _ => .real value
  | _ => .int 0

theorem eq_die_of_die_group {component : Component} {group : DieGroup}
    (found : component.dieGroup? = some group) : component = .die group := by
  cases component with
  | die other =>
      cases found
      rfl
  | _ => cases found

theorem row_induction {motive : List Component → Prop} (nil : motive [])
    (die : ∀ group row, motive row → motive (.die group :: row))
    (other : ∀ component row, component.dieGroup? = none → motive row → motive (component :: row))
    (row : List Component) : motive row := by
  induction row with
  | nil => exact nil
  | cons component row ih =>
      cases component with
      | die group => exact die group row ih
      | _ => exact other _ row rfl ih

theorem feed_cons_of_no_die {component : Component} (noDie : component.dieGroup? = none)
    (maximize : Bool) (row : List Component) (stack : Stack) (natural : Int × Int) :
    feed maximize (component :: row) stack natural = do
      let stack ← settled (stack.feedComponent (ownNumber component) component)
      let (outcomes, rest) ← feed maximize row stack natural
      return (none :: outcomes, rest) := by
  cases component with
  | die group => cases noDie
  | _ => rfl

/-- Some numbers for the values of the row let the stack end as it did. -/
def Explains (place : Nat) (row : List Component) (stack : Stack) (result : Except Failure Stack) :
    Prop :=
  ∃ numbers, Stack.outcome (Stack.feed numbers place row stack) = result

theorem explains_cons {place : Nat} {component : Component} {row : List Component}
    {stack next : Stack} {result : Except Failure Stack} (number : Operand)
    (fed : stack.feedComponent number component = .ok next)
    (explained : Explains (place + 1) row next result) :
    Explains place (component :: row) stack result := by
  obtain ⟨numbers, explained⟩ := explained
  refine ⟨fun later => if later = place then number else numbers later, ?_⟩
  rw [Stack.feed, if_pos rfl, fed, ← explained]
  apply congrArg
  apply Stack.feed_congr
  intro later after
  exact if_neg (by omega)

/-- Whatever the dice show, some assignment of numbers explains what became of the stack. -/
theorem sound_feed {row : List Component} (proper : ∀ component ∈ row, component.IsProper)
    (maximize : Bool) (place : Nat) (stack : Stack) (natural : Int × Int) :
    Sound Always (fun failure => Explains place row stack (.error failure))
      (feed maximize row stack natural) fun fed => Explains place row stack (.ok fed.2.1) := by
  induction row using row_induction generalizing place stack natural with
  | nil => exact sound_pure ⟨fun _ => .int 0, rfl⟩
  | die group row ih =>
      obtain ⟨properHead, properRow⟩ := List.forall_mem_cons.mp proper
      apply sound_bind (sound_of_draws (DieGroup.draws_roll properHead maximize))
      intro outcome _
      have pushed : stack.feedComponent (.int outcome.value) (.die group) =
          .ok (stack.push (.int outcome.value)) := rfl
      have rest := sound_mono (ih properRow (place + 1) (stack.push (.int outcome.value))
          (nextNatural natural group outcome))
        (fun _ explained => explains_cons _ pushed explained)
        (fun _ explained => explains_cons _ pushed explained)
      apply sound_bind rest
      intro fed explained
      exact sound_pure explained
  | other component row noDie ih =>
      rw [feed_cons_of_no_die noDie]
      cases fed : stack.feedComponent (ownNumber component) component with
      | error fault =>
          refine sound_bind (sound_throw ?_ fun _ => False) fun _ impossible => impossible.elim
          refine ⟨fun _ => ownNumber component, ?_⟩
          rw [Stack.feed, fed]
          rfl
      | ok next =>
          apply sound_bind (sound_pure (rfl : next = next))
          rintro _ rfl
          have rest := sound_mono
              (ih (List.forall_mem_cons.mp proper).2 (place + 1) next natural)
            (fun _ explained => explains_cons _ fed explained)
            (fun _ explained => explains_cons _ fed explained)
          apply sound_bind rest
          intro fed explained
          exact sound_pure explained

theorem settled_of_explains {row : List Component} {stack : Stack}
    (derived : Derives .expression row) (explained : Explains 0 row {} (.ok stack)) :
    Settles Failure.IsArithmetic (fun _ => True) (Stack.outcome stack.evaluate) := by
  obtain ⟨numbers, fed⟩ := explained
  have total : Stack.total numbers row =
      Stack.outcome stack.evaluate >>= fun result => pure result.1 := by
    simp only [Stack.total, Stack.outcome_bind, fed]
    rfl
  cases evaluated : Stack.outcome stack.evaluate with
  | ok result => trivial
  | error failure =>
      rw [evaluated] at total
      exact Stack.total_fails_only derived numbers failure total

theorem sound_evaluate {dice : Dice} (wellFormed : WellFormed dice.components) (maximize : Bool)
    (bonus : Int) :
    Sound Always Failure.IsArithmetic (dice.evaluate maximize bonus) fun _ => True := by
  have fed := sound_mono (sound_feed wellFormed.proper maximize 0 {} (naturalNone, 0))
    (fun failure explained => by
      obtain ⟨numbers, failed⟩ := explained
      apply Stack.total_fails_only wellFormed.derived numbers failure
      rw [Stack.total, Stack.outcome_bind, failed]
      rfl)
    (fun _ explained => explained)
  apply sound_bind fed
  intro result explained
  apply sound_bind (sound_of_except (settled_of_explains wellFormed.derived explained))
  intro _ _
  exact sound_pure trivial

/-- How a row is fed that comes to its end: its die groups are rolled from left to right, each
changes the natural face and the threat, and no other component draws or shows anything. -/
inductive Feeds (maximize : Bool) : List Component → Int × Int → Source →
    List (Option DieOutcome) → Int × Int → Source → Prop
  | nil (natural : Int × Int) (source : Source) : Feeds maximize [] natural source [] natural source
  | die {group : DieGroup} {row : List Component} {natural seen : Int × Int}
      {source between after : Source} {outcome : DieOutcome} {outcomes : List (Option DieOutcome)}
      (rolled : (group.roll maximize).run.run source = (.ok outcome, between))
      (rest : Feeds maximize row (nextNatural natural group outcome) between outcomes seen after) :
      Feeds maximize (.die group :: row) natural source (some outcome :: outcomes) seen after
  | other {component : Component} {row : List Component} {natural seen : Int × Int}
      {source after : Source} {outcomes : List (Option DieOutcome)}
      (noDie : component.dieGroup? = none)
      (rest : Feeds maximize row natural source outcomes seen after) :
      Feeds maximize (component :: row) natural source (none :: outcomes) seen after

section Feeding

variable {maximize : Bool} {row : List Component} {natural seen : Int × Int}
  {source after : Source} {outcomes : List (Option DieOutcome)}

theorem feeds_of_run {stack last : Stack}
    (fed : (feed maximize row stack natural).run.run source = (.ok (outcomes, last, seen), after)) :
    Feeds maximize row natural source outcomes seen after := by
  induction row using row_induction generalizing stack natural source outcomes with
  | nil =>
      cases fed
      exact .nil _ _
  | die group row ih =>
      simp only [feed, run_bind_eq_ok, run_pure_eq_ok] at fed
      obtain ⟨outcome, between, rolled, ⟨rest, _⟩, _, behind, same, rfl⟩ := fed
      obtain ⟨rfl, rfl⟩ := Prod.mk.inj same
      exact .die rolled (ih behind)
  | other component row noDie ih =>
      rw [feed_cons_of_no_die noDie] at fed
      simp only [run_bind_eq_ok, run_pure_eq_ok] at fed
      obtain ⟨next, _, settled, ⟨rest, _⟩, _, behind, same, rfl⟩ := fed
      obtain ⟨rfl, rfl⟩ := Prod.mk.inj same
      cases Draw.run_of_except_eq_ok settled
      exact .other noDie (ih behind)

theorem feeds_of_evaluate {dice : Dice} {bonus : Int} {evaluation : Evaluation}
    (rolled : (dice.evaluate maximize bonus).run.run source = (.ok evaluation, after)) :
    Feeds maximize dice.components (naturalNone, 0) source evaluation.outcomes
      (evaluation.natural, evaluation.defaultThreat) after := by
  simp only [evaluate, run_bind_eq_ok, run_pure_eq_ok] at rolled
  obtain ⟨⟨outcomes, stack, natural, threat⟩, between, fed, _, _, settled, rfl, rfl⟩ := rolled
  cases Draw.run_of_except_eq_ok settled
  exact feeds_of_run fed

theorem feeds_of_no_die (none : row.filterMap Component.dieGroup? = [])
    (feeds : Feeds maximize row natural source outcomes seen after) :
    after = source ∧ seen = natural ∧ outcomes.findSome? id = Option.none := by
  induction feeds with
  | nil => exact ⟨rfl, rfl, rfl⟩
  | die => cases none
  | other noDie _ ih =>
      rw [List.filterMap_cons_none noDie] at none
      exact ih none

theorem feeds_of_die {die : DieGroup} (single : row.filterMap Component.dieGroup? = [die])
    (feeds : Feeds maximize row natural source outcomes seen after) :
    ∃ outcome, (die.roll maximize).run.run source = (.ok outcome, after) ∧
      seen = nextNatural natural die outcome ∧ outcomes.findSome? id = some outcome := by
  induction feeds with
  | nil => cases single
  | die rolled rest =>
      obtain ⟨rfl, alone⟩ := List.cons.inj single
      obtain ⟨rfl, seen, -⟩ := feeds_of_no_die alone rest
      exact ⟨_, rolled, seen, rfl⟩
  | other noDie _ ih =>
      rw [List.filterMap_cons_none noDie] at single
      exact ih single

end Feeding

end Dice

/-- An accepted expression derives from the grammar with its numbers in range, so neither a roll
nor the maximum of it fails otherwise than by its arithmetic, whatever the source. -/
theorem accepted_expression_fails_only {text : Text} {row : List Component} {limits : Limits}
    (accepted : parseExpression text = .ok (row, limits)) :
    Derives .expression row ∧ (∀ component ∈ row, component.IsProper) ∧
      ∀ (bonus : Int) (source : Source) (failure : Failure),
        (((Dice.mk row limits).roll bonus).run.run source).1 = .error failure ∨
            (((Dice.mk row limits).maxRoll bonus).run.run source).1 = .error failure →
          failure.IsArithmetic := by
  have wellFormed := well_formed_of_parse_expression accepted
  refine ⟨wellFormed.derived, wellFormed.proper, ?_⟩
  intro bonus source failure failed
  have settles (maximize : Bool) :
      Settles Failure.IsArithmetic (fun _ => True)
        (((Dice.mk row limits).evaluate maximize bonus).run.run source).1 :=
    (Dice.sound_evaluate wellFormed maximize bonus source trivial).1
  rcases failed with rolled | maximized
  · have settled := settles false
    rw [← Dice.roll, rolled] at settled
    exact settled
  · have settled := settles true
    rw [← Dice.maxRoll, maximized] at settled
    exact settled

/-- A sign in front of a labelled group, a skipped plus, and a division by a group that always
shows zero. -/
theorem accepted_expression_fails_only_of_no_dice :
    let row : List Component := [.operator .negate, .openGroup,
      .constant (Double.ofDecimal ['3'] []) [], .operator .subtract, .die { sides := 6 },
      .closeGroup, .label ['x'], .operator .divide,
      .die { sides := 4, numerator := 0, rerolls := 1, label := "fire".toList }]
    parseExpression "-(3 - d6) x // +0d4 best of 2 fire |min 1".toList =
        .ok (row, { minimum := 1 }) ∧
      Derives .expression row ∧
      (((Dice.mk row { minimum := 1 }).roll 0).run.run Source.highest).1 =
        .error (.dice .divisionByZero) ∧
      Failure.IsArithmetic (.dice .divisionByZero) := by
  intro row
  have accepted : parseExpression "-(3 - d6) x // +0d4 best of 2 fire |min 1".toList =
      .ok (row, { minimum := 1 }) := by decide +kernel
  obtain ⟨derived, -, only⟩ := accepted_expression_fails_only accepted
  have rolled : (((Dice.mk row { minimum := 1 }).roll 0).run.run Source.highest).1 =
      .error (.dice .divisionByZero) := by decide +kernel
  exact ⟨accepted, derived, rolled, only 0 _ _ (.inl rolled)⟩

end TabletopDice
