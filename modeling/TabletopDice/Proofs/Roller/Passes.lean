import TabletopDice.Proofs.Dice.Rolling
import TabletopDice.Roller.Roll

/-!
The course of a roll, part by part. What holds of every elementary roll is carried over
the confirming roll, the dice of a pass and the passes, whatever invariant is kept and
whatever failures are allowed. Modifiers that differ in nothing an elementary roll looks at
are rolled alike.
-/

namespace TabletopDice

namespace SessionM

section Parts

variable {Value : Type} {invariant : Session → Prop} {allowed : Failure → Prop}
  {promised : Value → Prop}

theorem run_of_draw (draw : Draw Value) (session : Session) :
    (ofDraw draw).run.run session =
      ((draw.run.run session.source).1,
        { session with source := (draw.run.run session.source).2 }) := by
  simp only [ofDraw, run_bind, run_get]
  rcases draw.run.run session.source with ⟨failure | value, source⟩
  · rfl
  · rfl

theorem of_except_eq_ok {result : Except Failure Value} {value : Value} {session after : Session} :
    (ofExcept result).run.run session = (.ok value, after) ↔
      result = .ok value ∧ session = after := by
  cases result with
  | ok other =>
      constructor
      · rintro ⟨⟩
        exact ⟨rfl, rfl⟩
      · rintro ⟨⟨⟩, rfl⟩
        rfl
  | error failure => exact iff_of_false nofun nofun

theorem evaluate_eq_ok {modifiers : Modifiers} {dice : Dice} {bonus : Int} {evaluation : Evaluation}
    {session after : Session}
    (rolled : (evaluate modifiers dice bonus).run.run session = (.ok evaluation, after)) :
    (dice.evaluate modifiers.maximized bonus).run.run session.source =
      (.ok evaluation, after.source) := by
  simp only [evaluate, run_bind_eq_ok, run_pure_eq_ok, run_of_draw] at rolled
  obtain ⟨_, _, drawn, _, _, ⟨⟩, rfl, rfl⟩ := rolled
  obtain ⟨result, rfl⟩ := Prod.mk.inj drawn
  rw [← result]
  rfl

theorem roll_sequence_nil_eq_ok {modifiers : Modifiers} {pass : Nat} {sum start value : Int}
    {results : List RollResult} {session after : Session}
    (rolled : (rollSequence modifiers pass sum start []).run.run session =
      (.ok (value, results), after)) :
    value = start ∧ results = [] ∧ after = session := by
  cases rolled
  exact ⟨rfl, rfl, rfl⟩

theorem roll_sequence_cons_eq_ok {modifiers : Modifiers} {pass : Nat} {sum start value : Int}
    {dice : Dice} {more : List (Except Failure Dice)} {results : List RollResult}
    {session after : Session}
    (rolled : (rollSequence modifiers pass sum start (.ok dice :: more)).run.run session =
      (.ok (value, results), after)) :
    ∃ first now middle later,
      (rollDice modifiers pass sum dice).run.run session = (.ok (first, now), middle) ∧
      (rollSequence modifiers pass sum first more).run.run middle = (.ok (value, later), after) ∧
      results = now ++ later := by
  simp only [rollSequence, run_bind_eq_ok, run_pure_eq_ok, of_except_eq_ok, Prod.exists] at rolled
  obtain ⟨_, _, ⟨⟨⟩, rfl⟩, first, now, middle, one, rolled⟩ := rolled
  obtain ⟨_, later, _, others, same, rfl⟩ := rolled
  obtain ⟨rfl, rfl⟩ := Prod.mk.inj same
  exact ⟨first, now, middle, later, one, others, rfl⟩

theorem sound_of_draw {draw : Draw Value}
    (keeps : ∀ session source, invariant session → invariant { session with source })
    (sound : Sound Always allowed draw promised) : Sound invariant allowed (ofDraw draw) promised := by
  intro session holds
  rw [run_of_draw]
  exact ⟨(sound session.source trivial).1, keeps session _ holds⟩

theorem sound_of_settles {result : Except Failure Value} (settles : Settles allowed promised result) :
    Sound invariant allowed (ofExcept result) promised := by
  cases result with
  | ok value => exact sound_pure settles
  | error failure => exact sound_throw settles promised

theorem sound_guard {condition : Prop} [Decidable condition] {failure : Failure}
    {next : Unit → SessionM Value} (refused : condition → allowed failure)
    (rest : Sound invariant allowed (next ()) promised) :
    Sound invariant allowed (if condition then throw failure >>= next else next ()) promised := by
  split
  next holds =>
    exact sound_bind (sound_throw (refused holds) fun _ => False) fun _ impossible => impossible.elim
  next => exact rest

end Parts

variable {invariant : Session → Prop} {allowed : Failure → Prop} {modifiers : Modifiers}
  (property : RollResult → Prop)

theorem sound_confirm_roll {dice : Dice} {known : Evaluation → Prop} {first : Evaluation}
    (unrolled : first.natural = naturalNone → allowed (.dice .confirmationBeforeRoll))
    (disqualified :
      first.natural = naturalDisqualified → allowed (.dice .confirmationNeedsOneDie))
    (rolled : Sound invariant allowed (evaluate modifiers dice modifiers.confirmBonus) known)
    (described : ∀ second, known second → FailsOnly allowed
      (dice.describe (some second) modifiers.automaticMessages modifiers.confirmBonus))
    (told : ∀ total details,
      property { total, details := ⟨.confirmLabel, "Confirm:".toList⟩ :: details }) :
    Sound invariant allowed (confirmRoll modifiers dice first) fun results =>
      ∀ result ∈ results, property result := by
  have second : Sound invariant allowed (do
      let second ← evaluate modifiers dice modifiers.confirmBonus
      let description ← ofExcept
        (dice.describe (some second) modifiers.automaticMessages modifiers.confirmBonus)
      return [{
        total := second.total
        details := ⟨.confirmLabel, "Confirm:".toList⟩ :: description ++
          modifiers.maximizedFragments }]) fun results =>
        ∀ result ∈ results, property result := by
    apply sound_bind rolled
    intro second holds
    apply sound_bind (sound_of_settles (settles_of_fails_only (described second holds)))
    intro description _
    exact sound_pure (List.forall_mem_singleton.mpr (told second.total _))
  apply sound_guard unrolled
  apply sound_guard disqualified
  dsimp only
  -- The threat is the one that is asked for, or else the highest side.
  split
  all_goals
    split
    · exact sound_pure fun _ member => absurd member List.not_mem_nil
    · exact second

/-- `known` is what holds of the evaluation, and `counted` of the value that the pass counts: the
total, also where the dice are rolled for a chance. -/
theorem sound_roll_dice {dice : Dice} {known : Evaluation → Prop} (counted : Int → Prop) {pass : Nat}
    {sum : Int} (rolled : Sound invariant allowed (evaluate modifiers dice 0) known)
    (total : ∀ evaluation, known evaluation → counted evaluation.total)
    (described : ∀ evaluation, known evaluation → FailsOnly allowed
      (dice.describe (some evaluation) modifiers.automaticMessages 0))
    (tellable : ∀ evaluation, known evaluation → FailsOnly allowed
      (requireTellable (modifiers.optionNumbers evaluation.total sum)))
    (confirmed : modifiers.confirm = true → ∀ evaluation, known evaluation →
      Sound invariant allowed (confirmRoll modifiers dice evaluation) fun _ => True) :
    Sound invariant allowed (rollDice modifiers pass sum dice) fun rolled => counted rolled.1 := by
  unfold rollDice
  split
  next chance _ =>
    apply sound_bind rolled
    intro evaluation holds
    exact sound_pure (total evaluation holds)
  next =>
    apply sound_bind rolled
    intro evaluation holds
    apply sound_bind (sound_of_settles (settles_of_fails_only (described evaluation holds)))
    intro description _
    apply sound_bind (sound_of_settles (settles_of_fails_only (tellable evaluation holds)))
    intro _ _
    split
    next asked =>
      apply sound_bind (confirmed asked evaluation holds)
      intro confirmation _
      exact sound_pure (total evaluation holds)
    next => exact sound_pure (total evaluation holds)

/-- `counted` is what holds of the value that the pass counts. -/
theorem sound_roll_sequence {usable : Dice → Prop} (counted : Int → Prop)
    {sequence : List (Except Failure Dice)}
    (settled : ∀ result ∈ sequence, Settles allowed usable result) {pass : Nat} {sum : Int}
    (each : ∀ dice, usable dice → Sound invariant allowed (rollDice modifiers pass sum dice)
      fun rolled => counted rolled.1 ∧ ∀ result ∈ rolled.2, property result)
    {result : Int} (start : counted result) :
    Sound invariant allowed (rollSequence modifiers pass sum result sequence) fun rolled =>
      counted rolled.1 ∧ ∀ result ∈ rolled.2, property result := by
  induction sequence generalizing result with
  | nil => exact sound_pure ⟨start, fun _ member => absurd member List.not_mem_nil⟩
  | cons head more ih =>
      obtain ⟨first, others⟩ := List.forall_mem_cons.mp settled
      apply sound_bind (sound_of_settles first)
      intro dice usable
      apply sound_bind (each dice usable)
      rintro ⟨next, rolled⟩ ⟨value, now⟩
      apply sound_bind (ih others value)
      rintro ⟨final, rest⟩ ⟨last, later⟩
      exact sound_pure ⟨last, List.forall_mem_append.mpr ⟨now, later⟩⟩

/-- `progressing` is what holds of the progress when so many passes are left. -/
theorem sound_roll_passes (progressing : Nat → Progress → Prop)
    {sequence : List (Except Failure Dice)}
    (warned : ∀ session warnings, invariant session → invariant { session with warnings })
    (each : ∀ left progress, progressing (left + 1) progress →
      Sound invariant allowed
        (rollSequence modifiers (maxPasses - (left + 1)) progress.sum 0 sequence) fun rolled =>
          progressing left (progress.advance modifiers rolled.1) ∧
            ∀ result ∈ rolled.2, property result)
    (name : Text) {left : Nat} {progress : Progress} (start : progressing left progress) :
    Sound invariant allowed (rollPasses modifiers sequence name left progress) fun results =>
      ∀ result ∈ results, property result := by
  have ended : Sound invariant allowed (pure []) fun results : List RollResult =>
      ∀ result ∈ results, property result :=
    sound_pure fun _ member => absurd member List.not_mem_nil
  induction left generalizing progress with
  | zero =>
      unfold rollPasses
      split
      · exact sound_bind (sound_modify fun session holds => warned session _ holds) fun _ _ => ended
      · exact ended
  | succ left ih =>
      unfold rollPasses
      split
      · apply sound_bind (each left progress start)
        rintro ⟨result, rolled⟩ ⟨next, now⟩
        apply sound_bind (ih next)
        intro rest later
        exact sound_pure (List.forall_mem_append.mpr ⟨now, later⟩)
      · exact ended

/-- Modifiers that make no difference to an elementary roll or to the count of the passes. -/
structure RollsAs (modifiers other : Modifiers) : Prop where
  dice : ∀ pass sum dice, rollDice other pass sum dice = rollDice modifiers pass sum dice
  repeatFor : other.repeatFor = modifiers.repeatFor
  advance : ∀ (progress : Progress) result,
    progress.advance other result = progress.advance modifiers result

section Indistinct

variable {other : Modifiers} (same : RollsAs modifiers other)

include same

theorem roll_sequence_of_rolls_as (pass : Nat) (sum result : Int)
    (sequence : List (Except Failure Dice)) :
    rollSequence other pass sum result sequence = rollSequence modifiers pass sum result sequence := by
  induction sequence generalizing result with
  | nil => rfl
  | cons head more ih => simp only [rollSequence, ih, same.dice]

theorem roll_passes_of_rolls_as (sequence : List (Except Failure Dice)) (name : Text) (left : Nat)
    (progress : Progress) :
    rollPasses other sequence name left progress =
      rollPasses modifiers sequence name left progress := by
  induction left generalizing progress with
  | zero => simp only [rollPasses, same.repeatFor]
  | succ left ih =>
      simp only [rollPasses, roll_sequence_of_rolls_as same, same.repeatFor, same.advance, ih]

end Indistinct

end SessionM

end TabletopDice
