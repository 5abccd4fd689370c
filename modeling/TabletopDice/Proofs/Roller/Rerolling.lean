import TabletopDice.Proofs.Dice.Natural
import TabletopDice.Proofs.Roller.Passes
import TabletopDice.Proofs.Roller.Validation

/-!
Rolling an accepted specification again and again. A roll leaves what the roller
remembers as it is, so the promise of the specification is an invariant of the
session, and every check that is made again while rolling passes.
-/

namespace TabletopDice

/-- The numbers of the roll are at fault: its arithmetic, or a number that is too long to be
told. -/
def Failure.IsNumerical (failure : Failure) : Prop :=
  failure.IsArithmetic ∨ failure = .number .tooManyDigits

theorem require_tellable_fails_only (numbers : List Int) :
    FailsOnly Failure.IsNumerical (requireTellable numbers) := by
  unfold requireTellable
  split
  · exact fails_only_ok _
  · exact fails_only_error (.inr rfl)

def Session.IsReady (session : Session) : Prop := session.roller.IsReady

theorem Dice.describe_fails_only {allowed : Failure → Prop} {dice : Dice} {evaluation : Evaluation}
    {automatic : Option (Text × Text)} (bonus : Int)
    (marked : ∀ messages ∈ automatic,
      FailsOnly allowed (dice.automaticFragments evaluation messages.1 messages.2))
    (total : FailsOnly allowed (requireTellable [evaluation.total]))
    (body : FailsOnly allowed (requireTellable (dice.bodyNumbers evaluation.outcomes bonus))) :
    FailsOnly allowed (dice.describe (some evaluation) automatic bonus) := by
  have marker (fragments : List Fragment) : FailsOnly allowed (do
      requireTellable [evaluation.total]
      return fragments ++ [Fragment.int .result evaluation.total, ⟨.separator, ['=']⟩]) :=
    fails_only_bind total fun _ => fails_only_ok _
  have behind : FailsOnly allowed (dice.tellBody evaluation.outcomes bonus) :=
    fails_only_bind body fun _ => fails_only_ok _
  refine fails_only_bind ?_ fun _ => fails_only_bind behind fun _ => fails_only_ok _
  cases automatic with
  | none => exact marker []
  | some messages => exact fails_only_bind (marked messages rfl) marker

theorem Dice.request_fails_only (dice : Dice) :
    FailsOnly Failure.IsNumerical (dice.describe none none 0) :=
  fails_only_bind (require_tellable_fails_only _) fun _ => fails_only_ok _

/-- Where automatic success and failure are told, the roll is of one single die. -/
theorem Rollable.describe_fails_only {modifiers : Modifiers} {dice : Dice}
    (rollable : Rollable modifiers dice) (evaluation : Evaluation) (bonus : Int) :
    FailsOnly Failure.IsNumerical
      (dice.describe (some evaluation) modifiers.automaticMessages bonus) := by
  apply Dice.describe_fails_only bonus ?_ (require_tellable_fails_only _)
    (require_tellable_fails_only _)
  intro messages asked
  have needed : modifiers.needsSingleDie = true := by
    by_contra unneeded
    rw [Modifiers.automaticMessages, if_neg unneeded] at asked
    cases asked
  obtain ⟨die, single, one⟩ := rollable.single needed
  simp only [Dice.automaticFragments, single, one]
  exact fails_only_ok _

namespace SessionM

variable {modifiers : Modifiers} {dice : Dice}

/-- A computation on the session that keeps it ready and fails by its numbers alone. -/
abbrev Safe {Value : Type} (computation : SessionM Value) (promised : Value → Prop) : Prop :=
  Sound Session.IsReady Failure.IsNumerical computation promised

theorem safe_of_draw {Value : Type} {draw : Draw Value} {promised : Value → Prop}
    (sound : Sound Always Failure.IsArithmetic draw promised) : Safe (ofDraw draw) promised := by
  apply sound_of_draw fun _ _ ready => ready
  exact sound_mono sound (fun _ arithmetic => .inl arithmetic) fun _ kept => kept

theorem safe_remember (evaluation : Evaluation) : Safe (remember dice evaluation) fun _ => True :=
  sound_modify fun _ ready => ⟨ready.set, ready.rollable⟩

theorem safe_evaluate (rollable : Rollable modifiers dice) (bonus : Int) :
    Safe (evaluate modifiers dice bonus) fun evaluation =>
      modifiers.needsSingleDie = true → 1 ≤ evaluation.natural := by
  have drawn : Sound Always Failure.IsArithmetic (dice.evaluate modifiers.maximized bonus)
      fun evaluation => modifiers.needsSingleDie = true → 1 ≤ evaluation.natural := by
    by_cases needed : modifiers.needsSingleDie = true
    · obtain ⟨die, single, one⟩ := rollable.single needed
      exact sound_mono (Dice.sound_evaluate_natural rollable.wellFormed single one _ bonus)
        (fun _ arithmetic => arithmetic) fun _ natural _ => natural
    · exact sound_mono (Dice.sound_evaluate rollable.wellFormed _ bonus)
        (fun _ arithmetic => arithmetic) fun _ _ required => absurd required needed
  apply sound_bind (safe_of_draw drawn)
  intro evaluation natural
  apply sound_bind (safe_remember evaluation)
  intro _ _
  exact sound_pure natural

theorem safe_confirm_roll (rollable : Rollable modifiers dice) {first : Evaluation}
    (natural : 1 ≤ first.natural) : Safe (confirmRoll modifiers dice first) fun _ => True := by
  have visible : first.natural ≠ naturalNone := by
    unfold naturalNone
    omega
  have qualified : first.natural ≠ naturalDisqualified := by
    unfold naturalDisqualified
    omega
  refine sound_imp (sound_confirm_roll (fun _ => True) ?_ ?_ (safe_evaluate rollable _) ?_ ?_)
    fun _ _ => trivial
  · exact fun unrolled => absurd unrolled visible
  · exact fun disqualified => absurd disqualified qualified
  · exact fun second _ => rollable.describe_fails_only second _
  · exact fun _ _ => trivial

theorem safe_roll_dice (rollable : Rollable modifiers dice) (pass : Nat) (sum : Int) :
    Safe (rollDice modifiers pass sum dice) fun _ => True := by
  apply sound_roll_dice (fun _ => True) (safe_evaluate rollable 0)
  · exact fun _ _ => trivial
  · exact fun evaluation _ => rollable.describe_fails_only evaluation 0
  · exact fun _ _ => require_tellable_fails_only _
  · intro confirmed evaluation natural
    have needed : modifiers.needsSingleDie = true := by simp [Modifiers.needsSingleDie, confirmed]
    exact safe_confirm_roll rollable (natural needed)

theorem safe_roll_sequence {sequence : List (Except Failure Dice)}
    (rollable : ∀ result ∈ sequence, ∃ dice, result = .ok dice ∧ Rollable modifiers dice)
    (pass : Nat) (sum result : Int) :
    Safe (rollSequence modifiers pass sum result sequence) fun _ => True := by
  have settled : ∀ result ∈ sequence,
      Settles Failure.IsNumerical (Rollable modifiers) result := by
    intro result member
    obtain ⟨dice, rfl, holds⟩ := rollable result member
    exact holds
  refine sound_imp (sound_roll_sequence (fun _ => True) (fun _ => True) settled ?_ trivial)
    fun _ _ => trivial
  intro dice holds
  exact sound_imp (safe_roll_dice holds pass sum) fun _ _ => ⟨trivial, fun _ _ => trivial⟩

theorem safe_roll_passes {sequence : List (Except Failure Dice)}
    (rollable : ∀ result ∈ sequence, ∃ dice, result = .ok dice ∧ Rollable modifiers dice)
    (name : Text) (left : Nat) (progress : Progress) :
    Safe (rollPasses modifiers sequence name left progress) fun _ => True := by
  refine sound_imp (sound_roll_passes (fun _ => True) (fun _ _ => True) (fun _ _ ready => ready)
    ?_ name trivial) fun _ _ => trivial
  intro left progress _
  exact sound_imp (safe_roll_sequence rollable _ _ 0) fun _ _ => ⟨trivial, fun _ _ => trivial⟩

def rollRemembered (text : Text) : SessionM (Text × List RollResult) := do
  let roller := (← get).roller
  let modifiers := roller.modifiers
  let name := if modifiers.title.isEmpty then text else modifiers.title
  return (modifiers.title, ← rollPasses modifiers roller.sequence name maxPasses {})

theorem roll_eq (text : Text) :
    roll text = requireSpecification text >>= fun _ => rollRemembered text := rfl

theorem safe_roll_remembered (text : Text) : Safe (rollRemembered text) fun _ => True := by
  apply sound_bind sound_get
  intro session ready
  apply sound_bind (safe_roll_passes ready.rollable _ maxPasses {})
  intro _ _
  exact sound_pure trivial

theorem safe_reroll : Safe (roll []) fun _ => True := by
  have required : Safe (requireSpecification []) fun _ => True := by
    apply sound_bind sound_get
    intro session ready
    rw [ready.set]
    exact sound_pure trivial
  exact sound_bind required fun _ _ => safe_roll_remembered []

def afterRerolls : Nat → Session → Session
  | 0, session => session
  | count + 1, session => afterRerolls count ((roll []).run.run session).2

theorem ready_after_rerolls {session : Session} (ready : session.IsReady) (count : Nat) :
    (afterRerolls count session).IsReady := by
  induction count generalizing session with
  | zero => exact ready
  | succ count ih => exact ih (safe_reroll session ready).2

theorem run_set_specification (text : Text) (session : Session) :
    (setSpecification text).run.run session =
      match Specification.parse text with
      | .ok specification =>
          (.ok (), { session with roller := Roller.ofSpecification specification })
      | .error failure => (.error failure, { session with roller := Roller.cleared }) := by
  unfold setSpecification
  cases Specification.parse text with
  | ok specification => rfl
  | error failure => rfl

theorem source_set_specification (text : Text) (session : Session) :
    ((setSpecification text).run.run session).2.source = session.source := by
  rw [run_set_specification]
  split
  · rfl
  · rfl

theorem sound_set_specification {invariant : Session → Prop} {allowed : Failure → Prop} {text : Text}
    (cleared : ∀ session, invariant session → invariant { session with roller := Roller.cleared })
    (refused : FailsOnly allowed (Specification.parse text))
    (accepted : ∀ specification, Specification.parse text = .ok specification →
      ∀ session, invariant session →
        invariant { session with roller := Roller.ofSpecification specification }) :
    Sound invariant allowed (setSpecification text) fun _ => True := by
  intro session holds
  rw [run_set_specification]
  split
  next specification parsed => exact ⟨trivial, accepted specification parsed session holds⟩
  next failure failed => exact ⟨refused failure failed, cleared session holds⟩

theorem ready_of_set_specification {session : Session} {text : Text}
    (accepted : ((setSpecification text).run.run session).1 = .ok ()) :
    ((setSpecification text).run.run session).2.IsReady := by
  rw [run_set_specification] at accepted ⊢
  cases parsed : Specification.parse text with
  | ok specification => exact Specification.ready_of_parse parsed
  | error failure =>
      rw [parsed] at accepted
      cases accepted

/-- A specification is taken without a draw. Once it is accepted, every roll of it fails by its
numbers alone, whatever the source and whatever came of the rolls before. -/
theorem accepted_specification_fails_only (session : Session) (text : Text) :
    ((setSpecification text).run.run session).2.source = session.source ∧
      (((setSpecification text).run.run session).1 = .ok () →
        ∀ (source : Source) (count : Nat) (failure : Failure),
          ((roll []).run.run (afterRerolls count
              { ((setSpecification text).run.run session).2 with source })).1 = .error failure →
            failure.IsNumerical) := by
  refine ⟨source_set_specification text session, ?_⟩
  intro accepted source count failure failed
  have ready : Session.IsReady { ((setSpecification text).run.run session).2 with source } :=
    ready_of_set_specification accepted
  have settles := (safe_reroll _ (ready_after_rerolls ready count)).1
  rw [failed] at settles
  exact settles

/-- Two combinations with a confirmation, a count and a sum are accepted; rolls of them divide by
zero again and again. -/
theorem accepted_specification_fails_only_of_zero_divisor :
    let text := "Hit = d{20/6} // (1 - 1)|c15+2|sf|repeat 3|total 9".toList
    let session : Session := { source := Source.highest }
    ((setSpecification text).run.run session).1 = .ok () ∧
      ((roll []).run.run (afterRerolls 2
          { ((setSpecification text).run.run session).2 with source := Source.highest })).1 =
        .error (.dice .divisionByZero) ∧
      Failure.IsNumerical (.dice .divisionByZero) := by
  intro text session
  have taken : ((setSpecification text).run.run session).1 = .ok () := by decide +kernel
  have failed : ((roll []).run.run (afterRerolls 2
      { ((setSpecification text).run.run session).2 with source := Source.highest })).1 =
        .error (.dice .divisionByZero) := by decide +kernel
  have settled := (accepted_specification_fails_only session text).2 taken
  exact ⟨taken, failed, settled Source.highest 2 _ failed⟩

end SessionM

end TabletopDice
