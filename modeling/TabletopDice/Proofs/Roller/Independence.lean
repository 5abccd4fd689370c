import TabletopDice.Proofs.Roller.Calls
import TabletopDice.Proofs.Roller.Keeping

/-!
What a roll depends on. Two runs of a computation are compared that start on related
sources and may differ in everything else: the last roll, the warnings and what was
remembered. Where the draws give the same in both, every part of a roll does. So of a
session a roll sees the specification and the source, and nothing of its past.
-/

namespace TabletopDice

namespace SessionM

/-- Started on the same source, the computations give the same and leave the same source, whatever
else their sessions hold. -/
def Alike {Value : Type} (one other : SessionM Value) : Prop :=
  ∀ first second : Session, first.source = second.source →
    (one.run.run first).1 = (other.run.run second).1 ∧
      (one.run.run first).2.source = (other.run.run second).2.source

/-- Started on related sources, the computations give the same and leave related sources, whatever
else their sessions hold. -/
def Corresponds {Value : Type} (related : Source → Source → Prop) (one other : SessionM Value) :
    Prop :=
  ∀ first second : Session, related first.source second.source →
    (one.run.run first).1 = (other.run.run second).1 ∧
      related (one.run.run first).2.source (other.run.run second).2.source

theorem alike_iff_corresponds {Value : Type} {one other : SessionM Value} :
    Alike one other ↔ Corresponds Eq one other :=
  Iff.rfl

section Steps

variable {First Second : Type} {related : Source → Source → Prop}

theorem corresponds_iff_runs_alike {one other : SessionM First} :
    Corresponds related one other ↔
      RunsAlike (fun first second : Session => related first.source second.source) Eq one other := by
  simp only [Corresponds, RunsAlike, agree_eq]

theorem corresponds_pure (value : First) : Corresponds related (pure value) (pure value) :=
  fun _ _ sources => ⟨rfl, sources⟩

theorem corresponds_of_except (result : Except Failure First) :
    Corresponds related (ofExcept result) (ofExcept result) := by
  cases result with
  | ok value => exact corresponds_pure value
  | error failure => exact fun _ _ sources => ⟨rfl, sources⟩

theorem corresponds_bind {one other : SessionM First} {next behind : First → SessionM Second}
    (before : Corresponds related one other)
    (after : ∀ value, Corresponds related (next value) (behind value)) :
    Corresponds related (one >>= next) (other >>= behind) := by
  refine corresponds_iff_runs_alike.mpr (runs_alike_bind (corresponds_iff_runs_alike.mp before) ?_)
  rintro value _ rfl
  exact corresponds_iff_runs_alike.mp (after value)

theorem corresponds_eq_of_draw (draw : Draw First) : Corresponds Eq (ofDraw draw) (ofDraw draw) := by
  intro first second same
  rw [run_of_draw, run_of_draw, same]
  exact ⟨rfl, rfl⟩

theorem corresponds_modify {change edit : Session → Session}
    (kept : ∀ session, (change session).source = session.source)
    (left : ∀ session, (edit session).source = session.source) :
    Corresponds related (modify change) (modify edit) := by
  intro first second sources
  refine ⟨rfl, ?_⟩
  change related (change first).source (edit second).source
  rw [kept, left]
  exact sources

end Steps

section Rolls

-- The sources enter a roll by its draws alone.
variable {related : Source → Source → Prop} {modifiers : Modifiers}
  (draws : ∀ (dice : Dice) (bonus : Int),
    Corresponds related (ofDraw (dice.evaluate modifiers.maximized bonus))
      (ofDraw (dice.evaluate modifiers.maximized bonus)))

include draws

theorem corresponds_evaluate (dice : Dice) (bonus : Int) :
    Corresponds related (evaluate modifiers dice bonus) (evaluate modifiers dice bonus) := by
  apply corresponds_bind (draws dice bonus)
  intro evaluation
  have remembered : Corresponds related (remember dice evaluation) (remember dice evaluation) :=
    corresponds_modify (fun _ => rfl) fun _ => rfl
  exact corresponds_bind remembered fun _ => corresponds_pure evaluation

theorem corresponds_confirm_roll (dice : Dice) (first : Evaluation) :
    Corresponds related (confirmRoll modifiers dice first) (confirmRoll modifiers dice first) := by
  have guarded {Value : Type} {condition : Prop} [Decidable condition] {failure : Failure}
      {next : Unit → SessionM Value} (rest : Corresponds related (next ()) (next ())) :
      Corresponds related (if condition then throw failure >>= next else next ())
        (if condition then throw failure >>= next else next ()) := by
    split
    · exact fun _ _ sources => ⟨rfl, sources⟩
    · exact rest
  apply guarded
  apply guarded
  dsimp only
  split
  all_goals
    split
    · exact corresponds_pure []
    · apply corresponds_bind (corresponds_evaluate draws dice _)
      intro second
      exact corresponds_bind (corresponds_of_except _) fun _ => corresponds_pure _

theorem corresponds_roll_dice (pass : Nat) (sum : Int) (dice : Dice) :
    Corresponds related (rollDice modifiers pass sum dice) (rollDice modifiers pass sum dice) := by
  unfold rollDice
  split
  next => exact corresponds_bind (corresponds_evaluate draws dice 0) fun _ => corresponds_pure _
  next =>
    apply corresponds_bind (corresponds_evaluate draws dice 0)
    intro evaluation
    apply corresponds_bind (corresponds_of_except _)
    intro description
    apply corresponds_bind (corresponds_of_except _)
    intro _
    split
    · exact corresponds_bind (corresponds_confirm_roll draws dice evaluation) fun _ =>
        corresponds_pure _
    · exact corresponds_pure _

theorem corresponds_roll_sequence (pass : Nat) (sum result : Int)
    (sequence : List (Except Failure Dice)) :
    Corresponds related (rollSequence modifiers pass sum result sequence)
      (rollSequence modifiers pass sum result sequence) := by
  induction sequence generalizing result with
  | nil => exact corresponds_pure _
  | cons head more ih =>
      apply corresponds_bind (corresponds_of_except head)
      intro dice
      apply corresponds_bind (corresponds_roll_dice draws pass sum dice)
      intro rolled
      exact corresponds_bind (ih rolled.1) fun _ => corresponds_pure _

/-- The name is told in warnings only. -/
theorem corresponds_roll_passes (sequence : List (Except Failure Dice)) (name other : Text)
    (left : Nat) (progress : Progress) :
    Corresponds related (rollPasses modifiers sequence name left progress)
      (rollPasses modifiers sequence other left progress) := by
  induction left generalizing progress with
  | zero =>
      unfold rollPasses
      split
      · exact corresponds_bind (corresponds_modify (fun _ => rfl) fun _ => rfl) fun _ =>
          corresponds_pure _
      · exact corresponds_pure _
  | succ left ih =>
      unfold rollPasses
      split
      · apply corresponds_bind (corresponds_roll_sequence draws _ progress.sum 0 sequence)
        intro rolled
        exact corresponds_bind (ih (progress.advance modifiers rolled.1)) fun _ => corresponds_pure _
      · exact corresponds_pure _

end Rolls

def rollSpecification (specification : Specification) (name : Text) :
    SessionM (Text × List RollResult) := do
  let results ← rollPasses specification.modifiers
    (Roller.ofSpecification specification).sequence name maxPasses {}
  return (specification.modifiers.title, results)

theorem corresponds_roll_specification {related : Source → Source → Prop}
    {specification : Specification}
    (draws : ∀ (dice : Dice) (bonus : Int),
      Corresponds related (ofDraw (dice.evaluate specification.modifiers.maximized bonus))
        (ofDraw (dice.evaluate specification.modifiers.maximized bonus)))
    (name other : Text) :
    Corresponds related (rollSpecification specification name)
      (rollSpecification specification other) :=
  corresponds_bind (corresponds_roll_passes draws _ name other maxPasses {}) fun _ =>
    corresponds_pure _

theorem alike_roll_specification (specification : Specification) (name other : Text) :
    Alike (rollSpecification specification name) (rollSpecification specification other) :=
  alike_iff_corresponds.mpr
    (corresponds_roll_specification (fun _ _ => corresponds_eq_of_draw _) name other)

def Remembers (specification : Specification) (session : Session) : Prop :=
  ∃ last, session.roller = { Roller.ofSpecification specification with last }

theorem remembers_of_set (specification : Specification) (session : Session) :
    Remembers specification { session with roller := Roller.ofSpecification specification } :=
  ⟨none, rfl⟩

theorem ignores_rolls_remembers (specification : Specification) :
    IgnoresRolls (Remembers specification) where
  source := fun _ _ remembers => remembers
  last := by
    rintro session last ⟨_, same⟩
    exact ⟨last, by rw [same]⟩

theorem keeps_roll_specification (specification : Specification) (name : Text) :
    Keeps (Remembers specification) (rollSpecification specification name) :=
  keeps_bind
    (keeps_roll_passes (ignores_rolls_remembers specification) (fun _ _ remembers => remembers)
      _ name maxPasses {})
    fun _ => keeps_pure _

variable {text : Text} {specification : Specification}

theorem run_roll_given (accepted : Specification.parse text = .ok specification)
    (session : Session) :
    (roll text).run.run session =
      (rollSpecification specification
        (if specification.modifiers.title.isEmpty then text
          else specification.modifiers.title)).run.run
          { session with roller := Roller.ofSpecification specification } :=
  run_roll accepted session

theorem run_require_remembered (accepted : Specification.parse text = .ok specification)
    {session : Session} (remembers : Remembers specification session) :
    (requireSpecification []).run.run session = (.ok (), session) := by
  obtain ⟨last, same⟩ := remembers
  have isSet : session.roller.isSet = true := by
    rw [same]
    exact (Specification.ready_of_parse accepted).set
  rw [require_specification_eq, if_pos rfl]
  simp only [requireRemembered, run_bind, run_get, isSet]
  rfl

theorem run_reroll (accepted : Specification.parse text = .ok specification) {session : Session}
    (remembers : Remembers specification session) :
    (roll []).run.run session =
      (rollSpecification specification specification.modifiers.title).run.run session := by
  have required := run_require_remembered accepted remembers
  obtain ⟨last, same⟩ := remembers
  have name : (if specification.modifiers.title.isEmpty then []
      else specification.modifiers.title) = specification.modifiers.title := by
    cases specification.modifiers.title with
    | nil => rfl
    | cons char rest => rfl
  rw [roll_eq, run_bind, required]
  simp only [rollRemembered, rollSpecification, run_bind, run_get, same, Roller.ofSpecification, name]
  rfl

/-- What a row of rolls comes to, call by call: the title and the results, or the failure, and the
source that is left. -/
def transcript : List Text → Session → List (Except Failure (Text × List RollResult) × Source)
  | [], _ => []
  | text :: texts, session =>
      let run := (roll text).run.run session
      (run.1, run.2.source) :: transcript texts run.2

/-- Rerolls of what is remembered are rolls of what was given. -/
theorem transcript_of_remembered (accepted : Specification.parse text = .ok specification)
    (count : Nat) {first second : Session} (remembers : Remembers specification first)
    (same : first.source = second.source) :
    transcript (List.replicate count []) first = transcript (List.replicate count text) second := by
  induction count generalizing first second with
  | zero => rfl
  | succ count ih =>
      obtain ⟨results, sources⟩ := alike_roll_specification specification
        specification.modifiers.title
        (if specification.modifiers.title.isEmpty then text else specification.modifiers.title)
        first { second with roller := Roller.ofSpecification specification } same
      have kept := (keeps_roll_specification specification specification.modifiers.title
        first remembers).2
      rw [List.replicate_succ, List.replicate_succ, transcript, transcript,
        run_reroll accepted remembers, run_roll_given accepted second, results, sources,
        ih kept sources]

/-- An accepted specification is rolled once and then again and again without being given. This
comes to the same, call by call, as giving it every time to another roller on the same source,
whatever either roller has done before, and also where a roll fails. -/
theorem rerolls_are_rolls (accepted : Specification.parse text = .ok specification) (count : Nat)
    {first second : Session} (same : first.source = second.source) :
    transcript (text :: List.replicate count []) first =
      transcript (List.replicate (count + 1) text) second := by
  obtain ⟨results, sources⟩ := alike_roll_specification specification
    (if specification.modifiers.title.isEmpty then text else specification.modifiers.title)
    (if specification.modifiers.title.isEmpty then text else specification.modifiers.title)
    { first with roller := Roller.ofSpecification specification }
    { second with roller := Roller.ofSpecification specification } same
  have kept := (keeps_roll_specification specification
    (if specification.modifiers.title.isEmpty then text else specification.modifiers.title) _
    (remembers_of_set specification first)).2
  rw [List.replicate_succ, transcript, transcript, run_roll_given accepted first,
    run_roll_given accepted second, results, sources,
    transcript_of_remembered accepted count kept sources]

/-- A roller with a past, in which a roll failed, against a fresh one. Of the rolls that follow one
divides by zero. -/
theorem rerolls_are_rolls_of_used_roller :
    let text := "Odds = {6/4} // (d2 - 1)|dc 3".toList
    let calls : List Call :=
      [.set "2d6|sf".toList, .roll "1 // (d6 - d6)".toList, .roll "Old = d20|c|repeat 2".toList]
    let first := afterCalls { source := Source.ofFaces [2, 4, 6, 3] } calls
    let second : Session := { source := first.source }
    first.roller ≠ second.roller ∧ (Specification.parse text).isOk = true ∧
      first.source = second.source ∧
      transcript (text :: List.replicate 2 []) first =
        transcript (List.replicate (2 + 1) text) second := by
  intro text calls first second
  have used : first.roller ≠ second.roller := by decide +kernel
  have taken : (Specification.parse text).isOk = true := by decide +kernel
  -- From here on it does not matter what has been rolled before.
  clear_value first
  cases accepted : Specification.parse text with
  | error failure =>
      rw [accepted] at taken
      cases taken
  | ok specification =>
      have same : first.source = second.source := rfl
      exact ⟨used, rfl, same, rerolls_are_rolls accepted 2 same⟩

end SessionM

end TabletopDice
