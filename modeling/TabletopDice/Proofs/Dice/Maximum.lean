import TabletopDice.Proofs.Dice.Rolling

/-!
The highest roll. It is worked out without the source, in one attempt and without a forced
face, and yet it comes to what the dice come to when every one of them happens to show its
highest side, however many attempts they take.
-/

namespace TabletopDice

section Draws

variable {First Second Value Result : Type}

/-- Whatever the source, the draw comes to the same and leaves the source as it is. -/
def DrawsNothing (draw : Draw Value) : Prop :=
  ∃ result, ∀ source, draw.run.run source = (result, source)

theorem draws_nothing_pure (value : Value) : DrawsNothing (pure value) :=
  ⟨.ok value, fun _ => rfl⟩

theorem draws_nothing_of_except (result : Except Failure Value) :
    DrawsNothing (Draw.ofExcept result) := by
  cases result with
  | ok value => exact ⟨.ok value, fun _ => rfl⟩
  | error failure => exact ⟨.error failure, fun _ => rfl⟩

theorem draws_nothing_bind {draw : Draw Value} {next : Value → Draw Result}
    (before : DrawsNothing draw) (behind : ∀ value, DrawsNothing (next value)) :
    DrawsNothing (draw >>= next) := by
  obtain ⟨result, same⟩ := before
  cases result with
  | error failure => exact ⟨.error failure, fun source => by rw [run_bind, same]⟩
  | ok value =>
      obtain ⟨final, after⟩ := behind value
      exact ⟨final, fun source => by rw [run_bind, same]; exact after source⟩

def Source.IsHighest (source : Source) : Prop := ∀ draw bound, source.below draw bound = bound - 1

theorem Source.is_highest_highest : Source.highest.IsHighest := fun _ _ => rfl

/-- On a source with the highest faces the one draw agrees with the other on any source, and it
leaves a source with the highest faces. -/
abbrev MatchesHighest (related : First → Second → Prop) (one : Draw First) (other : Draw Second) :
    Prop :=
  RunsAlike (fun highest _ : Source => highest.IsHighest) related one other

theorem matches_highest_of_except (result : Except Failure Value) :
    MatchesHighest Eq (Draw.ofExcept result) (Draw.ofExcept result) := by
  cases result with
  | ok value => exact runs_alike_pure rfl
  | error failure => exact fun _ _ isHighest => ⟨.error failure, isHighest⟩

theorem matches_highest_of_sound {related : First → Second → Prop} {draw : Draw First}
    {value : Second}
    (sound : Sound Source.IsHighest (fun _ => False) draw fun first => related first value) :
    MatchesHighest related draw (pure value) := by
  intro highest source isHighest
  obtain ⟨settles, after⟩ := sound highest isHighest
  refine ⟨?_, after⟩
  cases result : (draw.run.run highest).1 with
  | ok first =>
      rw [result] at settles
      exact .ok settles
  | error failure =>
      rw [result] at settles
      exact settles.elim

end Draws

namespace DieGroup

variable {group : DieGroup}

def highestAttempt (group : DieGroup) : List Int :=
  List.replicate group.numerator.toNat (group.adjust group.sides)

theorem draws_nothing_roll (group : DieGroup) : DrawsNothing (group.roll true) := by
  by_cases none : group.sides ≤ 0
  · refine ⟨.error (.dice .sidesNotPositive), fun source => ?_⟩
    rw [roll, if_pos none]
    rfl
  · rw [roll, if_neg none]
    exact draws_nothing_pure _

/-- On a source with the highest faces the draw succeeds with this value. -/
abbrev DrawsHighest {Value : Type} (draw : Draw Value) (value : Value) : Prop :=
  Sound Source.IsHighest (fun _ => False) draw (· = value)

theorem highest_bind {Value Result : Type} {draw : Draw Value} {next : Value → Draw Result}
    {value : Value} {result : Result} (first : DrawsHighest draw value)
    (second : DrawsHighest (next value) result) : DrawsHighest (draw >>= next) result := by
  apply sound_bind first
  rintro _ rfl
  exact second

theorem highest_face (sides : 1 ≤ group.sides) :
    DrawsHighest group.rollFace (group.adjust group.sides) := by
  have drawn : DrawsHighest (Draw.below group.sides.toNat) (group.sides.toNat - 1) :=
    fun source isHighest => ⟨isHighest source.drawn _, isHighest⟩
  have side : 1 + ((group.sides.toNat - 1 : Nat) : Int) = group.sides := by omega
  exact highest_bind drawn (sound_pure (congrArg group.adjust side))

theorem highest_faces (sides : 1 ≤ group.sides) (count : Nat) :
    DrawsHighest (group.rollFaces count) (List.replicate count (group.adjust group.sides)) := by
  induction count with
  | zero => exact sound_pure rfl
  | succ count ih => exact highest_bind (highest_face sides) (highest_bind ih (sound_pure rfl))

theorem highest_attempt (sides : 1 ≤ group.sides) (forced : Bool) :
    DrawsHighest (group.rollAttempt forced) group.highestAttempt := by
  unfold rollAttempt highestAttempt
  split
  next count dice =>
    refine highest_bind (highest_faces sides count) (sound_pure ?_)
    rw [dice]
    rfl
  next => exact highest_faces sides _

theorem highest_attempts (sides : 1 ≤ group.sides) (count : Nat) :
    DrawsHighest (group.rollAttempts count) (List.replicate count group.highestAttempt) := by
  induction count with
  | zero => exact sound_pure rfl
  | succ count ih =>
      exact highest_bind (highest_attempt sides false) (highest_bind ih (sound_pure rfl))

theorem choose_replicate (group : DieGroup) (sum : Int) (count : Nat) :
    group.choose (List.replicate (count + 1) sum) = 0 := by
  have target : (if group.best then (List.replicate (count + 1) sum).max?
      else (List.replicate (count + 1) sum).min?) = some sum := by
    split
    · exact List.max?_replicate_of_pos (Nat.succ_pos count)
    · exact List.min?_replicate_of_pos (Nat.succ_pos count)
  rw [choose, target, List.replicate_succ]
  exact List.idxOf_cons_self

theorem outcome_of_replicate (group : DieGroup) (maximized : Bool) (faces : List Int)
    (count : Nat) :
    (group.outcomeOf maximized (faces :: List.replicate count faces)).value = sumFaces faces ∧
      (group.outcomeOf maximized (faces :: List.replicate count faces)).natural =
        (group.outcomeOf true [faces]).natural := by
  have chosen (count : Nat) :
      group.choose ((faces :: List.replicate count faces).map sumFaces) = 0 := by
    rw [← List.replicate_succ, List.map_replicate, choose_replicate]
  have alone := chosen 0
  rw [List.replicate_zero] at alone
  constructor
  · rw [outcomeOf, chosen]
    rfl
  · rw [outcomeOf, outcomeOf, chosen, alone]
    rfl

def CountAlike (one other : DieOutcome) : Prop :=
  one.value = other.value ∧ one.natural = other.natural

theorem matches_highest_roll (proper : group.IsProper) :
    MatchesHighest CountAlike (group.roll false) (group.roll true) := by
  have sides := proper.sides
  have rerolls := proper.rerolls
  have maximum : group.roll true = pure (group.outcomeOf true [group.highestAttempt]) := by
    unfold roll
    rw [if_neg (by omega)]
    rfl
  rw [maximum]
  apply matches_highest_of_sound
  unfold roll
  rw [if_neg (by omega), if_neg Bool.false_ne_true, if_neg (by omega)]
  apply sound_bind (highest_attempt sides group.initialMax)
  rintro _ rfl
  apply sound_bind (highest_attempts sides _)
  rintro _ rfl
  have many := outcome_of_replicate group false group.highestAttempt group.rerolls.toNat
  have one := outcome_of_replicate group true group.highestAttempt 0
  exact sound_pure ⟨many.1.trans one.1.symm, many.2⟩

end DieGroup

namespace Dice

theorem draws_nothing_feed (row : List Component) (stack : Stack) (natural : Int × Int) :
    DrawsNothing (feed true row stack natural) := by
  induction row using row_induction generalizing stack natural with
  | nil => exact draws_nothing_pure _
  | die group row ih =>
      apply draws_nothing_bind group.draws_nothing_roll
      intro outcome
      exact draws_nothing_bind (ih _ _) fun _ => draws_nothing_pure _
  | other component row noDie ih =>
      rw [feed_cons_of_no_die noDie]
      apply draws_nothing_bind (draws_nothing_of_except _)
      intro next
      exact draws_nothing_bind (ih next natural) fun _ => draws_nothing_pure _

theorem draws_nothing_evaluate (dice : Dice) (bonus : Int) :
    DrawsNothing (dice.evaluate true bonus) := by
  apply draws_nothing_bind (draws_nothing_feed dice.components {} (naturalNone, 0))
  rintro ⟨outcomes, stack, natural, threat⟩
  exact draws_nothing_bind (draws_nothing_of_except _) fun _ => draws_nothing_pure _

theorem matches_highest_feed {row : List Component} (proper : ∀ component ∈ row, component.IsProper)
    (stack : Stack) (natural : Int × Int) :
    MatchesHighest (fun one other => one.2 = other.2) (feed false row stack natural)
      (feed true row stack natural) := by
  induction row using row_induction generalizing stack natural with
  | nil => exact runs_alike_pure rfl
  | die group row ih =>
      obtain ⟨properHead, properRow⟩ := List.forall_mem_cons.mp proper
      apply runs_alike_bind (DieGroup.matches_highest_roll properHead)
      rintro one other ⟨value, face⟩
      have counted : nextNatural natural group one = nextNatural natural group other := by
        rw [nextNatural, nextNatural, face]
      rw [value, counted]
      apply runs_alike_bind (ih properRow _ _)
      intro fed highest same
      exact runs_alike_pure same
  | other component row noDie ih =>
      rw [feed_cons_of_no_die noDie, feed_cons_of_no_die noDie]
      apply runs_alike_bind (matches_highest_of_except _)
      rintro next _ rfl
      apply runs_alike_bind (ih (List.forall_mem_cons.mp proper).2 next natural)
      intro fed highest same
      exact runs_alike_pure same

end Dice

def Evaluation.counted (evaluation : Evaluation) : Int × Int × Int :=
  (evaluation.total, evaluation.natural, evaluation.defaultThreat)

theorem Dice.matches_highest_evaluate {dice : Dice}
    (proper : ∀ component ∈ dice.components, component.IsProper) (bonus : Int) :
    MatchesHighest (fun one other => one.counted = other.counted) (dice.evaluate false bonus)
      (dice.evaluate true bonus) := by
  apply runs_alike_bind (matches_highest_feed proper {} (naturalNone, 0))
  rintro ⟨_, stack, natural, threat⟩ ⟨_, _, _, _⟩ ⟨⟩
  apply runs_alike_bind (matches_highest_of_except _)
  rintro value _ rfl
  exact runs_alike_pure rfl

end TabletopDice
