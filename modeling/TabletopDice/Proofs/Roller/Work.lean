import TabletopDice.Proofs.Roller.Combinations
import TabletopDice.Proofs.Roller.Secrecy
import TabletopDice.Proofs.Roller.Stopping

/-!
How much a request rolls. The roll is run again with a counter beside the session, which
goes up by one with every elementary roll and stays as it is on a confirmation. Without
the counter it is the same roll. A pass rolls every combination of the alternatives, so
the limit on passes bounds the rolls of a request only together with the number of
combinations.
-/

namespace TabletopDice

namespace SessionM

/-- Computations that count beside the session, also when they fail. -/
abbrev CountedM := ExceptT Failure (StateM (Session × Nat))

/-- The computation at a fixed cost, due before it is known whether it fails. -/
def counting {Value : Type} (cost : Nat) (computation : SessionM Value) : CountedM Value :=
  ExceptT.mk fun state =>
    let run := computation.run.run state.1
    (run.1, run.2, state.2 + cost)

def countedSequence (modifiers : Modifiers) (pass : Nat) (sum : Int) :
    Int → List (Except Failure Dice) → CountedM (Int × List RollResult)
  | result, [] => return (result, [])
  | _, dice :: more => do
      let dice ← counting 0 (ofExcept dice)
      let (result, rolled) ← counting 1 (rollDice modifiers pass sum dice)
      let (final, rest) ← countedSequence modifiers pass sum result more
      return (final, rolled ++ rest)

def countedPasses (modifiers : Modifiers) (sequence : List (Except Failure Dice)) (name : Text) :
    (left : Nat) → Progress → CountedM (List RollResult)
  | 0, progress => counting 0 (rollPasses modifiers sequence name 0 progress)
  | left + 1, progress => do
      if progress.finished < modifiers.repeatFor then
        let (result, rolled) ←
          countedSequence modifiers (maxPasses - (left + 1)) progress.sum 0 sequence
        let rest ← countedPasses modifiers sequence name left (progress.advance modifiers result)
        return rolled ++ rest
      else return []

def countedRoll (text : Text) : CountedM (Text × List RollResult) := do
  counting 0 (requireSpecification text)
  let roller := (← get).1.roller
  let modifiers := roller.modifiers
  let name := if modifiers.title.isEmpty then text else modifiers.title
  return (modifiers.title, ← countedPasses modifiers roller.sequence name maxPasses {})

/-- The elementary rolls of one request, without confirmations. -/
def rollsMade (text : Text) (session : Session) : Nat :=
  ((countedRoll text).run.run (session, 0)).2.2

section Counting

variable {First Second : Type}

def Erases (counted : CountedM First) (plain : SessionM First) : Prop :=
  ∀ session rolls, (counted.run.run (session, rolls)).1 = (plain.run.run session).1 ∧
    (counted.run.run (session, rolls)).2.1 = (plain.run.run session).2

/-- What succeeds has cost so much, and what fails no more. -/
def Tallies (counted : CountedM First) (cost : Nat) : Prop :=
  ∀ session rolls, (counted.run.run (session, rolls)).2.2 ≤ rolls + cost ∧
    ∀ value, (counted.run.run (session, rolls)).1 = .ok value →
      (counted.run.run (session, rolls)).2.2 = rolls + cost

theorem erases_counting (cost : Nat) (computation : SessionM First) :
    Erases (counting cost computation) computation :=
  fun _ _ => ⟨rfl, rfl⟩

theorem erases_pure (value : First) : Erases (pure value) (pure value) :=
  fun _ _ => ⟨rfl, rfl⟩

theorem erases_bind {counted : CountedM First} {plain : SessionM First}
    {next : First → CountedM Second} {behind : First → SessionM Second}
    (before : Erases counted plain) (after : ∀ value, Erases (next value) (behind value)) :
    Erases (counted >>= next) (plain >>= behind) := by
  intro session rolls
  have parts := before session rolls
  rw [run_bind, run_bind]
  generalize counted.run.run (session, rolls) = left at parts ⊢
  generalize plain.run.run session = right at parts ⊢
  obtain ⟨result, session, rolls⟩ := left
  obtain ⟨_, _⟩ := right
  obtain ⟨rfl, rfl⟩ := parts
  cases result with
  | ok value => exact after value session rolls
  | error failure => exact ⟨rfl, rfl⟩

theorem tallies_counting (cost : Nat) (computation : SessionM First) :
    Tallies (counting cost computation) cost :=
  fun _ _ => ⟨Nat.le_refl _, fun _ _ => rfl⟩

theorem tallies_pure (value : First) : Tallies (pure value) 0 :=
  fun _ _ => ⟨Nat.le_refl _, fun _ _ => rfl⟩

theorem tallies_bind {counted : CountedM First} {next : First → CountedM Second}
    {cost more : Nat} (before : Tallies counted cost) (after : ∀ value, Tallies (next value) more) :
    Tallies (counted >>= next) (cost + more) := by
  intro session rolls
  have first := before session rolls
  rw [run_bind]
  generalize counted.run.run (session, rolls) = run at first ⊢
  obtain ⟨failure | value, session, counts⟩ := run
  · constructor
    · have most : counts ≤ rolls + cost := first.1
      dsimp only
      omega
    · intro _ impossible
      cases impossible
  · have paid : counts = rolls + cost := first.2 value rfl
    have second := after value session counts
    rw [paid] at second ⊢
    rw [← Nat.add_assoc]
    exact second

theorem state_bind_pure (counted : CountedM First) (final : First → Second)
    (state : Session × Nat) :
    ((counted >>= fun value => pure (final value)).run.run state).2 =
      (counted.run.run state).2 := by
  rw [run_bind]
  rcases counted.run.run state with ⟨failure | value, after⟩
  · rfl
  · rfl

end Counting

variable (modifiers : Modifiers) (sequence : List (Except Failure Dice)) (name : Text)

theorem erases_sequence (pass : Nat) (sum result : Int) :
    Erases (countedSequence modifiers pass sum result sequence)
      (rollSequence modifiers pass sum result sequence) := by
  induction sequence generalizing result with
  | nil => exact erases_pure _
  | cons head more ih =>
      apply erases_bind (erases_counting 0 _)
      intro dice
      apply erases_bind (erases_counting 1 _)
      intro rolled
      exact erases_bind (ih rolled.1) fun _ => erases_pure _

theorem erases_passes (left : Nat) (progress : Progress) :
    Erases (countedPasses modifiers sequence name left progress)
      (rollPasses modifiers sequence name left progress) := by
  induction left generalizing progress with
  | zero => exact erases_counting 0 _
  | succ left ih =>
      unfold countedPasses rollPasses
      split
      · apply erases_bind (erases_sequence modifiers sequence _ progress.sum 0)
        intro rolled
        exact erases_bind (ih (progress.advance modifiers rolled.1)) fun _ => erases_pure _
      · exact erases_pure _

theorem erases_roll (text : Text) : Erases (countedRoll text) (roll text) := by
  apply erases_bind (erases_counting 0 _)
  intro _ session rolls
  exact erases_bind (erases_passes _ _ _ maxPasses {}) (fun _ => erases_pure _) session rolls

theorem tallies_sequence (pass : Nat) (sum result : Int) :
    Tallies (countedSequence modifiers pass sum result sequence) sequence.length := by
  induction sequence generalizing result with
  | nil => exact tallies_pure _
  | cons head more ih =>
      have whole : (head :: more).length = 0 + (1 + (more.length + 0)) := by
        rw [List.length_cons]
        omega
      rw [whole]
      apply tallies_bind (tallies_counting 0 _)
      intro dice
      apply tallies_bind (tallies_counting 1 _)
      intro rolled
      exact tallies_bind (ih rolled.1) fun _ => tallies_pure _

/-- What so many passes cost, and of a pass that fails behind them at most the whole. -/
def Costs (passes length rolls : Nat) :
    Except Failure (List RollResult) × Session × Nat → Prop
  | (.ok _, _, counts) => counts = rolls + passes * length
  | (.error _, _, counts) => counts ≤ rolls + (passes + 1) * length

theorem Costs.cons {passes length rolls : Nat} {state : Session × Nat} (first : List RollResult)
    {rest : CountedM (List RollResult)}
    (costs : Costs passes length (rolls + length) (rest.run.run state)) :
    Costs (passes + 1) length rolls
      ((rest >>= fun rest => pure (first ++ rest)).run.run state) := by
  have longer (count : Nat) : rolls + (count + 1) * length = rolls + length + count * length := by
    rw [Nat.succ_mul]
    omega
  rw [run_bind]
  generalize rest.run.run state = run at costs ⊢
  obtain ⟨failure | results, session, counts⟩ := run
  · exact le_of_le_of_eq costs (longer (passes + 1)).symm
  · exact Eq.trans costs (longer passes).symm

theorem exists_counted_passes {left pass : Nat} (whole : pass + left = maxPasses)
    (progress : Progress) (session : Session) (rolls : Nat) :
    ∃ passes after, Makes modifiers sequence left pass progress session passes after ∧
      Ends modifiers sequence name left pass progress session passes after
        ((rollPasses modifiers sequence name left progress).run.run session) ∧
      Costs passes.length sequence.length rolls
        ((countedPasses modifiers sequence name left progress).run.run (session, rolls)) := by
  have none {pass : Nat} {progress : Progress} {session : Session} (left : Nat) :
      Makes modifiers sequence left pass progress session [] session :=
    ⟨rfl, Nat.zero_le _, fun _ impossible => absurd impossible (Nat.not_lt_zero _)⟩
  have free (rolls : Nat) : rolls = rolls + 0 * sequence.length := by rw [Nat.zero_mul, Nat.add_zero]
  induction left generalizing pass progress session rolls with
  | zero =>
      refine ⟨[], session, none 0, ?_⟩
      unfold countedPasses rollPasses
      split
      next short => exact ⟨.stopped short rfl, free rolls⟩
      next enough => exact ⟨.complete (Nat.not_lt.mp enough), free rolls⟩
  | succ left ih =>
      unfold countedPasses rollPasses
      split
      next short =>
        have number : maxPasses - (left + 1) = pass := by omega
        have erased := erases_sequence modifiers sequence pass progress.sum 0 session rolls
        have tallied := tallies_sequence modifiers sequence pass progress.sum 0 session rolls
        rw [number, run_bind, run_bind]
        generalize (countedSequence modifiers pass progress.sum 0 sequence).run.run (session, rolls) =
          counted at erased tallied ⊢
        obtain ⟨result, next, counts⟩ := counted
        rcases made : (rollSequence modifiers pass progress.sum 0 sequence).run.run session with
          ⟨_, _⟩
        rw [made] at erased
        obtain ⟨rfl, rfl⟩ := erased
        cases result with
        | error failure =>
            refine ⟨[], session, none _, ?_, ?_⟩
            · apply Ends.failed
              · exact short
              · exact Nat.succ_pos left
              · rw [List.length_nil, makePasses, run_bind, made]
            · have most : counts ≤ rolls + sequence.length := tallied.1
              change counts ≤ rolls + (0 + 1) * sequence.length
              omega
        | ok rolled =>
            have behind : pass + 1 + left = maxPasses := by omega
            have paid : counts = rolls + sequence.length := tallied.2 rolled rfl
            obtain ⟨passes, after, makes, ends, costs⟩ :=
              ih behind (progress.advance modifiers rolled.1) next (rolls + sequence.length)
            rw [paid]
            exact ⟨rolled :: passes, after, makes.cons made short, ends.cons made,
              costs.cons rolled.2⟩
      next enough =>
        exact ⟨[], session, none _, .complete (Nat.not_lt.mp enough), free rolls⟩

/-- Of a row of results those of the elementary rolls themselves, without what confirms them. -/
def elementaryResults (results : List RollResult) : Nat :=
  results.countP fun result => !result.isConfirmation

theorem elementary_of_tells {request : List Fragment} {results : List RollResult}
    (tells : TellsRequest request results) : elementaryResults results = 1 := by
  cases results with
  | nil => exact tells.elim
  | cons first more =>
      obtain ⟨plain, -, confirming⟩ := tells
      have none : elementaryResults more = 0 :=
        List.countP_eq_zero.mpr fun result member => by simp [confirming result member]
      rw [elementaryResults, List.countP_cons_of_pos (by simp [plain])]
      exact congrArg (· + 1) none

theorem yields_elementary_sequence (pass : Nat) (sum result : Int) :
    Yields (rollSequence modifiers pass sum result sequence) fun rolled =>
      elementaryResults rolled.2 = sequence.length := by
  induction sequence generalizing result with
  | nil => exact sound_pure rfl
  | cons head more ih =>
      apply sound_bind (yields_anything (ofExcept head))
      intro dice _
      apply sound_bind (yields_roll_dice modifiers dice pass sum)
      rintro ⟨next, rolled⟩ tells
      apply sound_bind (ih next)
      rintro ⟨final, rest⟩ counted
      apply sound_pure
      rw [elementaryResults, List.countP_append, List.length_cons, Nat.add_comm]
      exact congrArg₂ (· + ·) counted (elementary_of_tells tells)

theorem yields_elementary_passes (count pass : Nat) (progress : Progress) :
    Yields (makePasses modifiers sequence count pass progress) fun passes =>
      elementaryResults (passes.flatMap Prod.snd) = count * sequence.length := by
  induction count generalizing pass progress with
  | zero => exact sound_pure (Nat.zero_mul _).symm
  | succ count ih =>
      apply sound_bind (yields_elementary_sequence modifiers sequence pass progress.sum 0)
      intro rolled first
      apply sound_bind (ih (pass + 1) (progress.advance modifiers rolled.1))
      intro more behind
      apply sound_pure
      rw [List.flatMap_cons, elementaryResults, List.countP_append, Nat.succ_mul, Nat.add_comm]
      exact congrArg₂ (· + ·) behind first

section Needed

variable {modifiers sequence name} {session after : Session}
  {passes : List (Int × List RollResult)} {run : Except Failure (List RollResult) × Session}

theorem Ends.passes_made
    (makes : Makes modifiers sequence maxPasses 0 {} session passes after)
    (ends : Ends modifiers sequence name maxPasses 0 {} session passes after run)
    {values : ℕ → ℤ} (same : ∀ pass (made : pass < passes.length), values pass = passes[pass].1) :
    (∀ results, run.1 = .ok results → results = passes.flatMap Prod.snd ∧
      (passes.length : ℕ∞) = min (maxPasses : ℕ∞) (modifiers.passesNeeded values)) ∧
    (∀ failure, run.1 = .error failure →
      (passes.length + 1 : ℕ∞) ≤ min (maxPasses : ℕ∞) (modifiers.passesNeeded values)) := by
  have least : (passes.length : ℕ∞) ≤ modifiers.passesNeeded values := makes.le_needed same
  have few : (passes.length : ℕ∞) ≤ maxPasses := Nat.cast_le.mpr makes.few
  have settled := needed_le_iff modifiers same (Nat.le_refl passes.length)
  rw [List.take_length] at settled
  have missing (short : (Progress.after modifiers {} passes).finished < modifiers.repeatFor) :
      (passes.length : ℕ∞) < modifiers.passesNeeded values :=
    not_le.mp fun enough => absurd (settled.mp enough) (Nat.not_le.mpr short)
  cases ends with
  | complete enough =>
      refine ⟨?_, nofun⟩
      rintro _ ⟨⟩
      rw [le_antisymm (settled.mpr enough) least, min_eq_right few]
      exact ⟨rfl, rfl⟩
  | stopped short all =>
      refine ⟨?_, nofun⟩
      rintro _ ⟨⟩
      have more := missing short
      rw [all] at more ⊢
      exact ⟨rfl, (min_eq_left (le_of_lt more)).symm⟩
  | failed short some =>
      refine ⟨nofun, fun _ _ => ?_⟩
      have early : (passes.length : ℕ∞) < maxPasses := Nat.cast_lt.mpr some
      exact Order.add_one_le_of_lt (lt_min early (missing short))

end Needed

end SessionM

namespace Specification

/-- The number of expressions that a text with braces stands for. -/
def choices (text : Text) : Nat := ((valueSets (coreExpression text)).map List.length).prod

theorem length_combinations (sets : List (List Text)) :
    (combinations sets).length = (sets.map List.length).prod := by
  induction sets with
  | nil => rfl
  | cons values sets ih =>
      rw [combinations, List.length_flatMap, List.map_cons, List.prod_cons, ← ih]
      simp

theorem length_sequence {text : Text} {specification : Specification}
    (accepted : parse text = .ok specification) :
    (Roller.ofSpecification specification).sequence.length = choices text := by
  cases accepted_of_parse accepted with
  | chance cut plain | single cut plain =>
      rw [sequence_of_single _ rfl, choices, cut.value_sets plain]
      rfl
  | several cut offered present =>
      rw [sequence_of_template none (template_of_offers offered present), List.length_map,
        length_combinations, choices, cut.value_sets offered]

end Specification

namespace SessionM

open Specification

theorem run_counted_roll {text : Text} {specification : Specification}
    (accepted : Specification.parse text = .ok specification) (session : Session) :
    ∃ name, (rollsMade text session = ((countedPasses specification.modifiers
        (Roller.ofSpecification specification).sequence name maxPasses {}).run.run
          ({ session with roller := Roller.ofSpecification specification }, 0)).2.2) ∧
      (roll text).run.run session =
        (do
          let results ← rollPasses specification.modifiers
            (Roller.ofSpecification specification).sequence name maxPasses {}
          return (specification.modifiers.title, results) : SessionM _).run.run
            { session with roller := Roller.ofSpecification specification } := by
  refine ⟨_, ?_, run_roll accepted session⟩
  have required : (counting 0 (requireSpecification text)).run.run (session, 0) =
      (.ok (), { session with roller := Roller.ofSpecification specification }, 0) := by
    have plain := run_require_specification accepted session
    exact congrArg (fun run => (run.1, run.2, 0)) plain
  rw [rollsMade, countedRoll, run_bind, required]
  dsimp only
  rw [run_bind, run_get]
  exact congrArg Prod.snd (state_bind_pure _ _ _)

/-- Rolling an accepted text rolls each of the expressions that it stands for in every pass that it
needs, up to the limit on passes; where a roll fails, no more than that. The confirmations are not
counted. So it is at most the limit if there are no alternatives, and at most the limit for each
of them otherwise. -/
theorem rolls_made {text : Text} {specification : Specification}
    (accepted : Specification.parse text = .ok specification) (session : Session) :
    let modifiers := specification.modifiers
    let sequence := (Roller.ofSpecification specification).sequence
    let start : Session := { session with roller := Roller.ofSpecification specification }
    ∃ passes after,
      (makePasses modifiers sequence passes.length 0 {}).run.run start = (.ok passes, after) ∧
      ∀ values : ℕ → ℤ, (∀ pass (made : pass < passes.length), values pass = passes[pass].1) →
        let most := choices text * min (maxPasses : ℕ∞) (modifiers.passesNeeded values)
        (rollsMade text session : ℕ∞) ≤ most ∧
          ∀ title results last, (roll text).run.run session = (.ok (title, results), last) →
            (rollsMade text session : ℕ∞) = most ∧
              elementaryResults results = rollsMade text session := by
  intro modifiers sequence start
  obtain ⟨name, counted, rolled⟩ := run_counted_roll accepted session
  obtain ⟨passes, after, makes, ends, costs⟩ := exists_counted_passes modifiers sequence name
    (Nat.zero_add maxPasses) {} start 0
  have erased := erases_passes modifiers sequence name maxPasses {} start 0
  refine ⟨passes, after, makes.made, ?_⟩
  intro values same most
  obtain ⟨complete, failed⟩ := ends.passes_made makes same
  have elementary := (yields_elementary_passes modifiers sequence passes.length 0 {} start trivial).1
  rw [makes.made] at elementary
  have length : sequence.length = choices text := length_sequence accepted
  rw [length] at costs elementary
  rw [run_bind] at rolled
  rw [counted]
  generalize (countedPasses modifiers sequence name maxPasses {}).run.run (start, 0) = run
    at costs erased ⊢
  generalize (rollPasses modifiers sequence name maxPasses {}).run.run start = plain
    at ends complete failed erased rolled
  obtain ⟨result, last, counts⟩ := run
  obtain ⟨_, _⟩ := plain
  obtain ⟨rfl, rfl⟩ := erased
  cases result with
  | error failure =>
      constructor
      · have most : counts ≤ (passes.length + 1) * choices text := by
          rw [← Nat.zero_add ((passes.length + 1) * choices text)]
          exact costs
        calc
          (counts : ℕ∞) ≤ ((passes.length + 1) * choices text : ℕ) := Nat.cast_le.mpr most
          _ = choices text * (passes.length + 1 : ℕ∞) := by push_cast; exact mul_comm _ _
          _ ≤ _ := mul_le_mul_right (failed failure rfl) _
      · intro title results other succeeded
        rw [rolled] at succeeded
        cases succeeded
  | ok results =>
      obtain ⟨rfl, number⟩ := complete results rfl
      have paid : counts = passes.length * choices text :=
        Eq.trans costs (Nat.zero_add _)
      have exact : (counts : ℕ∞) = most := by
        calc
          (counts : ℕ∞) = (passes.length * choices text : ℕ) := by rw [paid]
          _ = choices text * (passes.length : ℕ∞) := by push_cast; exact mul_comm _ _
          _ = most := by rw [number]
      refine ⟨le_of_eq exact, ?_⟩
      intro title results other succeeded
      rw [rolled] at succeeded
      cases succeeded
      exact ⟨exact, Eq.trans elementary paid.symm⟩

/-- Two passes over three attacks, each with its confirmation. -/
theorem rolls_made_of_three_attacks :
    let text := "Bow = d20+{17/12/7}|c|until 25|repeat 2".toList
    let session : Session := { source := Source.highest }
    rollsMade text session = 6 ∧
      ∃ (specification : Specification) (passes : List (Int × List RollResult)) (title : Text)
        (results : List RollResult) (last : Session),
        Specification.parse text = .ok specification ∧
        (roll text).run.run session = (.ok (title, results), last) ∧ results.length = 12 ∧
        elementaryResults results = 6 ∧
        ∀ values : ℕ → ℤ, (∀ pass (made : pass < passes.length), values pass = passes[pass].1) →
          (6 : ℕ∞) =
            choices text * min (maxPasses : ℕ∞) (specification.modifiers.passesNeeded values) := by
  intro text session
  have counted : rollsMade text session = 6 := by decide +kernel
  have taken : (Specification.parse text).isOk = true := by decide +kernel
  have rolled : ((roll text).run.run session).1.map (fun rolled =>
      (rolled.2.length, elementaryResults rolled.2)) = .ok (12, 6) := by decide +kernel
  cases accepted : Specification.parse text with
  | error failure =>
      rw [accepted] at taken
      cases taken
  | ok specification =>
      obtain ⟨passes, after, -, work⟩ := rolls_made accepted session
      rcases made : (roll text).run.run session with ⟨failure | ⟨title, results⟩, last⟩
      · rw [made] at rolled
        cases rolled
      · rw [made] at rolled
        obtain ⟨lengths, elementary⟩ := Prod.mk.inj (Except.ok.inj rolled)
        refine ⟨counted, specification, passes, title, results, last, rfl, rfl, lengths,
          elementary, ?_⟩
        intro values same
        obtain ⟨exact, -⟩ := (work values same).2 title results last made
        rw [counted] at exact
        exact exact

/-- Alternatives multiply the rolls, and the limit counts the passes only. -/
theorem not_rolls_made_le_limit :
    let text := "d{6/8}|repeat 51".toList
    (Specification.parse text).isOk = true ∧
      maxPasses < rollsMade text { source := Source.ofFaces [] } := by
  decide +kernel

end SessionM

end TabletopDice
