import Mathlib.Algebra.BigOperators.Intervals
import Mathlib.Data.ENat.Lattice
import Mathlib.Data.Nat.Count
import TabletopDice.Proofs.Roller.Calls
import TabletopDice.Proofs.Roller.Keeping

/-!
When rolling stops. How many passes a specification needs is a function of the values
that they count: a fixed number, the pass on which a target is reached once more, or the
end of the last block that adds up to the total. Rolling makes just these passes, up to
the limit, and warns if the limit was too low.
-/

namespace TabletopDice

open SessionM

/-- The least number that is enough; infinite if none is. -/
noncomputable def leastCount (enough : ℕ → Prop) : ℕ∞ :=
  ⨅ (count : ℕ) (_ : enough count), (count : ℕ∞)

theorem least_count_le_iff {enough : ℕ → Prop} {passes : ℕ} :
    leastCount enough ≤ passes ↔ ∃ count ≤ passes, enough count := by
  constructor
  · intro reached
    by_contra none
    have later : ((passes + 1 : ℕ) : ℕ∞) ≤ leastCount enough := by
      refine le_iInf₂ fun count holds => Nat.cast_le.mpr ?_
      by_contra earlier
      exact none ⟨count, by omega, holds⟩
    have impossible := Nat.cast_le.mp (later.trans reached)
    omega
  · rintro ⟨count, early, holds⟩
    exact (iInf₂_le count holds).trans (Nat.cast_le.mpr early)

/-- Where the last of so many blocks ends if the values are cut, from the first one on, into the
shortest blocks that add up to the total. -/
noncomputable def blockEnd (values : ℕ → ℤ) (total : ℤ) : ℕ → ℕ∞
  | 0 => 0
  | blocks + 1 => leastCount fun stop =>
      ∃ start : ℕ, blockEnd values total blocks = start ∧ start ≤ stop ∧
        total ≤ ∑ pass ∈ Finset.Ico start stop, values pass

theorem block_end_mono (values : ℕ → ℤ) (total : ℤ) : Monotone (blockEnd values total) := by
  refine monotone_nat_of_le_succ fun blocks => le_iInf₂ fun stop complete => ?_
  obtain ⟨start, begins, ordered, -⟩ := complete
  rw [begins]
  exact Nat.cast_le.mpr ordered

/-- The passes that a specification asks for, by the values that they count. -/
noncomputable def Modifiers.passesNeeded (modifiers : Modifiers) (values : ℕ → ℤ) : ℕ∞ :=
  if modifiers.total ≠ 0 then blockEnd values modifiers.total modifiers.repeatFor
  else if modifiers.target ≠ 0 then
    leastCount fun passes =>
      modifiers.repeatFor ≤ Nat.count (fun pass => modifiers.target ≤ values pass) passes
  else modifiers.repeatFor

def Modifiers.progressAfter (modifiers : Modifiers) (values : ℕ → ℤ) : ℕ → Progress
  | 0 => {}
  | passes + 1 => (modifiers.progressAfter values passes).advance modifiers (values passes)

/-- The passes since the end of the last complete block do not add up to the total yet. -/
structure SessionM.Progress.InBlock (values : ℕ → ℤ) (total : ℤ) (passes : ℕ) (progress : Progress)
    (start : ℕ) : Prop where
  begins : blockEnd values total progress.finished = start
  ordered : start ≤ passes
  sum : progress.sum = ∑ pass ∈ Finset.Ico start passes, values pass
  incomplete : ∀ stop, start ≤ stop → stop ≤ passes →
    ∑ pass ∈ Finset.Ico start stop, values pass < total

section Blocks

variable {modifiers : Modifiers} {values : ℕ → ℤ} {passes start : ℕ} {progress : Progress}

theorem SessionM.Progress.InBlock.advance (summed : modifiers.total ≠ 0)
    (inBlock : progress.InBlock values modifiers.total passes start) :
    ∃ next, (progress.advance modifiers (values passes)).InBlock values modifiers.total
      (passes + 1) next := by
  have longer : progress.sum + values passes =
      ∑ pass ∈ Finset.Ico start (passes + 1), values pass := by
    rw [Finset.sum_Ico_succ_top inBlock.ordered, inBlock.sum]
  have later := Nat.le_succ_of_le inBlock.ordered
  rw [Progress.advance, if_pos summed]
  split
  next complete =>
    -- The block ends with this pass, since it was incomplete after each pass before.
    refine ⟨passes + 1, ?_, Nat.le_refl _, by rw [Finset.Ico_self, Finset.sum_empty], ?_⟩
    · apply le_antisymm
      · exact least_count_le_iff.mpr
          ⟨passes + 1, Nat.le_refl _, start, inBlock.begins, later, longer ▸ complete⟩
      · refine le_iInf₂ fun stop reached => Nat.cast_le.mpr ?_
        obtain ⟨other, begins, ordered, enough⟩ := reached
        obtain rfl : start = other := Nat.cast_inj.mp (inBlock.begins.symm.trans begins)
        by_contra earlier
        exact absurd enough (Int.not_le.mpr (inBlock.incomplete stop ordered (by omega)))
    · intro stop ordered within
      obtain rfl : stop = passes + 1 := Nat.le_antisymm within ordered
      rw [Finset.Ico_self, Finset.sum_empty]
      omega
  next short =>
    refine ⟨start, inBlock.begins, later, longer, ?_⟩
    intro stop ordered within
    rcases Nat.le_succ_iff.mp within with earlier | rfl
    · exact inBlock.incomplete stop ordered earlier
    · rw [← longer]
      exact Int.not_le.mp short

theorem exists_in_block (summed : modifiers.total ≠ 0) (values : ℕ → ℤ) (passes : ℕ) :
    ∃ start, (modifiers.progressAfter values passes).InBlock values modifiers.total passes start := by
  induction passes with
  | zero =>
      refine ⟨0, rfl, Nat.le_refl _, rfl, ?_⟩
      intro stop _ within
      obtain rfl : stop = 0 := Nat.le_zero.mp within
      rw [Finset.Ico_self, Finset.sum_empty]
      omega
  | succ passes ih =>
      obtain ⟨start, inBlock⟩ := ih
      exact inBlock.advance summed

theorem block_end_le_iff (summed : modifiers.total ≠ 0) {blocks : ℕ} :
    blockEnd values modifiers.total blocks ≤ passes ↔
      blocks ≤ (modifiers.progressAfter values passes).finished := by
  obtain ⟨start, inBlock⟩ := exists_in_block summed values passes
  constructor
  · intro reached
    by_contra more
    have next := (block_end_mono values modifiers.total (Nat.succ_le_of_lt (Nat.not_le.mp more))).trans
      reached
    obtain ⟨stop, early, other, begins, ordered, enough⟩ := least_count_le_iff.mp next
    obtain rfl : start = other := Nat.cast_inj.mp (inBlock.begins.symm.trans begins)
    exact absurd enough (Int.not_le.mpr (inBlock.incomplete stop ordered early))
  · intro finished
    refine (block_end_mono values modifiers.total finished).trans ?_
    rw [inBlock.begins]
    exact Nat.cast_le.mpr inBlock.ordered

end Blocks

theorem finished_of_target {modifiers : Modifiers} (single : modifiers.total = 0)
    (aimed : modifiers.target ≠ 0) (values : ℕ → ℤ) (passes : ℕ) :
    (modifiers.progressAfter values passes).finished =
      Nat.count (fun pass => modifiers.target ≤ values pass) passes := by
  induction passes with
  | zero => rfl
  | succ passes ih =>
      rw [Modifiers.progressAfter, Progress.advance, if_neg (not_not.mpr single), Nat.count_succ,
        ← ih]
      by_cases reached : modifiers.target ≤ values passes
      · rw [if_pos (.inr reached), if_pos reached]
      · rw [if_neg (by simp [aimed, reached]), if_neg reached]
        rfl

theorem finished_of_fixed {modifiers : Modifiers} (single : modifiers.total = 0)
    (aimless : modifiers.target = 0) (values : ℕ → ℤ) (passes : ℕ) :
    (modifiers.progressAfter values passes).finished = passes := by
  induction passes with
  | zero => rfl
  | succ passes ih =>
      rw [Modifiers.progressAfter, Progress.advance, if_neg (not_not.mpr single),
        if_pos (.inl aimless), ih]

/-- As many passes are enough as complete all repetitions. -/
theorem passes_needed_le_iff (modifiers : Modifiers) (values : ℕ → ℤ) (passes : ℕ) :
    modifiers.passesNeeded values ≤ passes ↔
      modifiers.repeatFor ≤ (modifiers.progressAfter values passes).finished := by
  unfold Modifiers.passesNeeded
  by_cases summed : modifiers.total ≠ 0
  · rw [if_pos summed]
    exact block_end_le_iff summed
  · have single := not_not.mp summed
    rw [if_neg summed]
    by_cases aimed : modifiers.target ≠ 0
    · rw [if_pos aimed, finished_of_target single aimed values passes, least_count_le_iff]
      constructor
      · rintro ⟨count, early, enough⟩
        exact enough.trans (Nat.count_monotone _ early)
      · intro enough
        exact ⟨passes, Nat.le_refl _, enough⟩
    · rw [if_neg aimed, finished_of_fixed single (not_not.mp aimed) values passes]
      exact Nat.cast_le

namespace SessionM

variable {modifiers : Modifiers} {sequence : List (Except Failure Dice)}

def makePasses (modifiers : Modifiers) (sequence : List (Except Failure Dice)) :
    (count pass : Nat) → Progress → SessionM (List (Int × List RollResult))
  | 0, _, _ => return []
  | count + 1, pass, progress => do
      let rolled ← rollSequence modifiers pass progress.sum 0 sequence
      let more ← makePasses modifiers sequence count (pass + 1)
        (progress.advance modifiers rolled.1)
      return rolled :: more

theorem keeps_make_passes {invariant : Session → Prop} (ignores : IgnoresRolls invariant)
    (count pass : Nat) (progress : Progress) :
    Keeps invariant (makePasses modifiers sequence count pass progress) := by
  induction count generalizing pass progress with
  | zero => exact keeps_pure _
  | succ count ih =>
      apply keeps_bind (keeps_roll_sequence ignores _ _ 0 sequence)
      intro rolled
      exact keeps_bind (ih (pass + 1) (progress.advance modifiers rolled.1)) fun _ => keeps_pure _

def Progress.after (modifiers : Modifiers) (progress : Progress)
    (passes : List (Int × List RollResult)) : Progress :=
  passes.foldl (fun progress pass => progress.advance modifiers pass.1) progress

theorem Progress.after_take {values : ℕ → ℤ} {passes : List (Int × List RollResult)}
    (same : ∀ pass (made : pass < passes.length), values pass = passes[pass].1) {count : Nat}
    (made : count ≤ passes.length) :
    Progress.after modifiers {} (passes.take count) = modifiers.progressAfter values count := by
  induction count with
  | zero => rfl
  | succ count ih =>
      rw [Progress.after, List.take_succ_eq_append_getElem made, List.foldl_append, List.foldl_cons,
        List.foldl_nil, ← same count made, Modifiers.progressAfter, ← ih (Nat.le_of_succ_le made)]
      rfl

theorem needed_le_iff (modifiers : Modifiers) {values : ℕ → ℤ} {passes : List (Int × List RollResult)}
    (same : ∀ pass (made : pass < passes.length), values pass = passes[pass].1) {count : Nat}
    (made : count ≤ passes.length) :
    modifiers.passesNeeded values ≤ count ↔
      modifiers.repeatFor ≤ (Progress.after modifiers {} (passes.take count)).finished := by
  rw [Progress.after_take same made]
  exact passes_needed_le_iff modifiers values count

/-- How rolling ends when the passes have been made: all repetitions are complete, or no pass is
left, or the next pass fails. -/
inductive Ends (modifiers : Modifiers) (sequence : List (Except Failure Dice)) (name : Text)
    (left pass : Nat) (progress : Progress) (session : Session)
    (passes : List (Int × List RollResult)) (after : Session) :
    Except Failure (List RollResult) × Session → Prop
  | complete (enough : modifiers.repeatFor ≤ (progress.after modifiers passes).finished) :
      Ends modifiers sequence name left pass progress session passes after
        (.ok (passes.flatMap Prod.snd), after)
  | stopped (short : (progress.after modifiers passes).finished < modifiers.repeatFor)
      (all : passes.length = left) :
      Ends modifiers sequence name left pass progress session passes after
        (.ok (passes.flatMap Prod.snd),
          { after with warnings := after.warnings ++ [.stopped name] })
  | failed (short : (progress.after modifiers passes).finished < modifiers.repeatFor)
      (some : passes.length < left) {failure : Failure} {last : Session}
      (next : (makePasses modifiers sequence (passes.length + 1) pass progress).run.run session =
        (.error failure, last)) :
      Ends modifiers sequence name left pass progress session passes after (.error failure, last)

/-- The passes were made one after another, each because repetitions were missing. -/
structure Makes (modifiers : Modifiers) (sequence : List (Except Failure Dice)) (left pass : Nat)
    (progress : Progress) (session : Session) (passes : List (Int × List RollResult))
    (after : Session) : Prop where
  made : (makePasses modifiers sequence passes.length pass progress).run.run session =
    (.ok passes, after)
  few : passes.length ≤ left
  missing : ∀ count < passes.length,
    (progress.after modifiers (passes.take count)).finished < modifiers.repeatFor

section Steps

variable {left pass : Nat} {progress : Progress} {session next after : Session}
  {rolled : Int × List RollResult} {passes : List (Int × List RollResult)} {name : Text}

theorem run_make_passes
    (rolls : (rollSequence modifiers pass progress.sum 0 sequence).run.run session =
      (.ok rolled, next)) (count : Nat) :
    (makePasses modifiers sequence (count + 1) pass progress).run.run session =
      (do
        let more ← makePasses modifiers sequence count (pass + 1)
          (progress.advance modifiers rolled.1)
        return rolled :: more).run.run next := by
  rw [makePasses, run_bind, rolls]

theorem Makes.cons
    (rolls : (rollSequence modifiers pass progress.sum 0 sequence).run.run session =
      (.ok rolled, next))
    (short : progress.finished < modifiers.repeatFor)
    (makes : Makes modifiers sequence left (pass + 1) (progress.advance modifiers rolled.1) next
      passes after) :
    Makes modifiers sequence (left + 1) pass progress session (rolled :: passes) after where
  made := by
    rw [List.length_cons, run_make_passes rolls, run_bind, makes.made]
    rfl
  few := Nat.succ_le_succ makes.few
  missing := by
    intro count earlier
    cases count with
    | zero => exact short
    | succ count => exact makes.missing count (Nat.lt_of_succ_lt_succ earlier)

theorem Ends.cons
    (rolls : (rollSequence modifiers pass progress.sum 0 sequence).run.run session =
      (.ok rolled, next))
    {rest : SessionM (List RollResult)}
    (ends : Ends modifiers sequence name left (pass + 1) (progress.advance modifiers rolled.1) next
      passes after (rest.run.run next)) :
    Ends modifiers sequence name (left + 1) pass progress session (rolled :: passes) after
      ((rest >>= fun rest => pure (rolled.2 ++ rest)).run.run next) := by
  rw [run_bind]
  generalize rest.run.run next = run at ends ⊢
  cases ends with
  | complete enough => exact .complete enough
  | stopped short all => exact .stopped short (congrArg (· + 1) all)
  | failed short some fails =>
      apply Ends.failed
      · exact short
      · exact Nat.succ_lt_succ some
      · rw [List.length_cons, run_make_passes rolls, run_bind, fails]

end Steps

theorem exists_passes (modifiers : Modifiers) (sequence : List (Except Failure Dice)) (name : Text)
    {left pass : Nat} (whole : pass + left = maxPasses) (progress : Progress) (session : Session) :
    ∃ passes after, Makes modifiers sequence left pass progress session passes after ∧
      Ends modifiers sequence name left pass progress session passes after
        ((rollPasses modifiers sequence name left progress).run.run session) := by
  have none {pass : Nat} {progress : Progress} {session : Session} (left : Nat) :
      Makes modifiers sequence left pass progress session [] session :=
    ⟨rfl, Nat.zero_le _, fun _ impossible => absurd impossible (Nat.not_lt_zero _)⟩
  -- A pass is told by the number of passes left, so `whole` has to go through the induction.
  induction left generalizing pass progress session with
  | zero =>
      refine ⟨[], session, none 0, ?_⟩
      unfold rollPasses
      split
      next short => exact .stopped short rfl
      next enough => exact .complete (Nat.not_lt.mp enough)
  | succ left ih =>
      unfold rollPasses
      split
      next short =>
        have number : maxPasses - (left + 1) = pass := by omega
        rw [number, run_bind]
        rcases rolls : (rollSequence modifiers pass progress.sum 0 sequence).run.run session with
          ⟨failure | rolled, next⟩
        · refine ⟨[], session, none _, ?_⟩
          apply Ends.failed
          · exact short
          · exact Nat.succ_pos left
          · rw [List.length_nil, makePasses, run_bind, rolls]
        · have behind : pass + 1 + left = maxPasses := by omega
          obtain ⟨passes, after, makes, ends⟩ :=
            ih behind (progress.advance modifiers rolled.1) next
          exact ⟨rolled :: passes, after, makes.cons rolls short, ends.cons rolls⟩
      next enough => exact ⟨[], session, none _, .complete (Nat.not_lt.mp enough)⟩

theorem Makes.le_needed {session after : Session} {passes : List (Int × List RollResult)}
    (makes : Makes modifiers sequence maxPasses 0 {} session passes after) {values : ℕ → ℤ}
    (same : ∀ pass (made : pass < passes.length), values pass = passes[pass].1) :
    (passes.length : ℕ∞) ≤ modifiers.passesNeeded values := by
  by_contra early
  obtain ⟨count, needed⟩ := ENat.ne_top_iff_exists.mp (ne_top_of_lt (not_le.mp early))
  rw [← needed, Nat.cast_le, Nat.not_le] at early
  have enough := (needed_le_iff modifiers same (Nat.le_of_lt early)).mp (le_of_eq needed.symm)
  exact absurd enough (Nat.not_le.mpr (makes.missing count early))

/-- Rolling an accepted specification makes as many passes as it needs, but no more than the
limit, unless one of them fails by its numbers; the warning tells that more were needed. What
the passes come to decides how many are needed, whatever is assumed about later ones. -/
theorem roll_stops {text : Text} {specification : Specification}
    (accepted : Specification.parse text = .ok specification) (session : Session) :
    let modifiers := specification.modifiers
    let sequence := (Roller.ofSpecification specification).sequence
    let start : Session := { session with roller := Roller.ofSpecification specification }
    let name := if modifiers.title.isEmpty then text else modifiers.title
    ∃ passes after,
      (makePasses modifiers sequence passes.length 0 {}).run.run start = (.ok passes, after) ∧
      ∀ values : ℕ → ℤ, (∀ pass (made : pass < passes.length), values pass = passes[pass].1) →
        let needed := modifiers.passesNeeded values
        (passes.length = min (maxPasses : ℕ∞) needed ∧
          (roll text).run.run session =
            (.ok (modifiers.title, passes.flatMap Prod.snd),
              { after with warnings :=
                  session.warnings ++ if maxPasses < needed then [.stopped name] else [] })) ∨
        (passes.length < min (maxPasses : ℕ∞) needed ∧
          ∃ failure last, failure.IsNumerical ∧
            (makePasses modifiers sequence (passes.length + 1) 0 {}).run.run start =
              (.error failure, last) ∧
            (roll text).run.run session = (.error failure, last) ∧
            last.warnings = session.warnings) := by
  intro modifiers sequence start name
  obtain ⟨passes, after, makes, ends⟩ :=
    exists_passes modifiers sequence name (Nat.zero_add maxPasses) {} start
  have quiet (count : Nat) :
      ((makePasses modifiers sequence count 0 {}).run.run start).2.warnings = session.warnings := by
    have ignores : IgnoresRolls fun other => other.warnings = session.warnings :=
      ⟨fun _ _ same => same, fun _ _ same => same⟩
    exact (keeps_make_passes ignores count 0 {} start rfl).2
  have unwarned : after.warnings = session.warnings := by
    have last := quiet passes.length
    rwa [makes.made] at last
  refine ⟨passes, after, makes.made, ?_⟩
  intro values same needed
  have least : (passes.length : ℕ∞) ≤ needed := makes.le_needed same
  have few : (passes.length : ℕ∞) ≤ maxPasses := Nat.cast_le.mpr makes.few
  have settled := needed_le_iff modifiers same (Nat.le_refl passes.length)
  rw [List.take_length] at settled
  have rolled := run_roll accepted session
  rw [run_bind] at rolled
  generalize (rollPasses modifiers sequence name maxPasses {}).run.run start = run at ends rolled
  cases ends with
  | complete enough =>
      have exact : (passes.length : ℕ∞) = needed := le_antisymm least (settled.mpr enough)
      left
      rw [← exact, min_eq_right few, if_neg (not_lt.mpr few), List.append_nil, ← unwarned]
      exact ⟨rfl, rolled⟩
  | stopped short all =>
      have more : (passes.length : ℕ∞) < needed :=
        not_le.mp fun enough => absurd (settled.mp enough) (Nat.not_le.mpr short)
      rw [all] at more
      left
      rw [min_eq_left (le_of_lt more), if_pos more, ← unwarned, all]
      exact ⟨rfl, rolled⟩
  | failed short some fails =>
      have more : (passes.length : ℕ∞) < needed :=
        not_le.mp fun enough => absurd (settled.mp enough) (Nat.not_le.mpr short)
      right
      refine ⟨lt_min (Nat.cast_lt.mpr some) more, _, _, ?_, fails, rolled, ?_⟩
      · have settles := settles_roll accepted session
        rwa [rolled] at settles
      · have last := quiet (passes.length + 1)
        rwa [fails] at last

/-- A target that no die reaches is given up at the limit, with a warning. -/
theorem roll_stops_of_high_target :
    let text := "d6|until 7".toList
    let session : Session := { source := Source.highest }
    ((roll text).run.run session).2.warnings = [.stopped text] ∧
      ∃ (specification : Specification) (passes : List (Int × List RollResult)),
        Specification.parse text = .ok specification ∧
        ∀ values : ℕ → ℤ, (∀ pass (made : pass < passes.length), values pass = passes[pass].1) →
          (passes.length : ℕ∞) = maxPasses ∧
            maxPasses < specification.modifiers.passesNeeded values := by
  intro text session
  have taken : (Specification.parse text).isOk = true := by decide +kernel
  have warned : ((roll text).run.run session).2.warnings = [.stopped text] := by decide +kernel
  cases accepted : Specification.parse text with
  | error failure =>
      rw [accepted] at taken
      cases taken
  | ok specification =>
      obtain ⟨passes, after, -, stops⟩ := roll_stops accepted session
      refine ⟨warned, specification, passes, rfl, ?_⟩
      intro values same
      rcases stops values same with ⟨all, rolled⟩ | ⟨-, failure, last, -, -, rolled, silent⟩
      · rw [rolled] at warned
        have more : maxPasses < specification.modifiers.passesNeeded values := by
          by_contra enough
          rw [if_neg enough] at warned
          cases warned
        rw [min_eq_left (le_of_lt more)] at all
        exact ⟨all, more⟩
      · rw [rolled] at warned
        cases silent.symm.trans warned

end SessionM

end TabletopDice
