import TabletopDice.Proofs.Roller.Consistency
import TabletopDice.Proofs.Roller.Maximum
import TabletopDice.Proofs.Roller.Work

/-!
Rolls that go on until a target. The last target of a specification is compared with what
the passes count, and rolling stops with the first pass that reaches it. A percentile roll
counts its face but reports a success or a failure, and a target of zero is no target, so
only other rolls report results of which just the last one reaches the target.
-/

namespace TabletopDice

open Text

/-- The last of the values, and no earlier one, comes to the goal. -/
def ReachesFirst (goal : Int) (values : List Int) : Prop :=
  ∃ earlier last, values = earlier ++ [last] ∧ goal ≤ last ∧ ∀ value ∈ earlier, value < goal

theorem reaches_first_singleton {goal value : Int} : ReachesFirst goal [value] ↔ goal ≤ value := by
  constructor
  · rintro ⟨earlier, last, same, reached, -⟩
    have ends : [] ++ [value] = earlier ++ [last] := same
    obtain ⟨-, rfl⟩ := List.append_singleton_inj.mp ends
    exact reached
  · intro reached
    exact ⟨[], value, rfl, reached, fun _ member => absurd member List.not_mem_nil⟩

def Clause.target? (clause : Text) : Option Numeral :=
  match read? clause with
  | some (.target value) => some value
  | _ => none

namespace Modifiers

variable {modifiers final : Modifiers}

theorem target_with_text {clause : Text} (read : modifiers.withText clause = .ok final) :
    Numeral.Tells modifiers.target (Clause.target? clause) final.target := by
  obtain ⟨made, ⟨asked, found, set⟩, rfl, -⟩ := setting_of_with_text read
  rw [Clause.target?, found]
  cases asked with
  | target value =>
      simp only [Clause.setting, bind_eq_ok, pure_eq_ok] at set
      obtain ⟨number, told, rfl⟩ := set
      exact told
  | confirm threat bonus =>
      simp only [Clause.setting, bind_eq_ok, pure_eq_ok] at set
      obtain ⟨_, -, _, -, rfl⟩ := set
      rfl
  | repetition value | total value | difficulty value =>
      simp only [Clause.setting, bind_eq_ok, pure_eq_ok] at set
      obtain ⟨_, -, rfl⟩ := set
      rfl
  | limit | maximized | automatic =>
      cases set
      rfl

/-- What a pass that counts the value reports: a percentile roll reports a success as one, and a
failure as zero. -/
def reported (modifiers : Modifiers) (value : Int) : Int :=
  match modifiers.chance with
  | none => value
  | some chance => if value ≤ chance then 1 else 0

theorem map_reported (plain : modifiers.chance = none) (values : List Int) :
    values.map modifiers.reported = values := by
  have same : modifiers.reported = id := by
    funext value
    rw [reported, plain]
    rfl
  rw [same, List.map_id]

theorem reported_of_chance (percentile : modifiers.chance ≠ none) (value : Int) :
    modifiers.reported value = 0 ∨ modifiers.reported value = 1 := by
  obtain ⟨chance, some⟩ := Option.ne_none_iff_exists'.mp percentile
  rw [reported, some]
  dsimp only
  split
  · exact .inr rfl
  · exact .inl rfl

/-- Where the values come to a goal with the last of them, unless the goal is zero, so do the
reports just if they are the values, or if there is one report and it reaches the goal. -/
theorem reaches_first_reported_iff {goal : Int} {values : List Int}
    (faces : modifiers.chance ≠ none → ∀ value ∈ values, 1 ≤ value)
    (reaches : goal ≠ 0 → ReachesFirst goal values) (alone : goal = 0 → values.length = 1) :
    ReachesFirst goal (values.map modifiers.reported) ↔
      modifiers.chance = none ∧ goal ≠ 0 ∨
        ∃ report, values.map modifiers.reported = [report] ∧ goal ≤ report := by
  constructor
  · intro reported
    by_cases plain : modifiers.chance = none ∧ goal ≠ 0
    · exact .inl plain
    · obtain ⟨value, rfl⟩ : ∃ value, values = [value] := by
        by_cases aimless : goal = 0
        · exact List.length_eq_one_iff.mp (alone aimless)
        · have percentile : modifiers.chance ≠ none := fun none => plain ⟨none, aimless⟩
          obtain ⟨early, value, rfl, -, missed⟩ := reaches aimless
          match early with
          | [] => exact ⟨value, rfl⟩
          | first :: rest =>
              -- The first face is below the goal, and the last report is not: it would be a one.
              have face := faces percentile first List.mem_cons_self
              have below := missed first List.mem_cons_self
              obtain ⟨_, last, same, reached, -⟩ := reported
              rw [List.map_append] at same
              obtain ⟨-, rfl⟩ := List.append_singleton_inj.mp same
              have small := reported_of_chance percentile value
              omega
      exact .inr ⟨_, rfl, reaches_first_singleton.mp reported⟩
  · rintro (⟨plain, aimed⟩ | ⟨report, same, reached⟩)
    · rw [map_reported plain]
      exact reaches aimed
    · rw [same]
      exact reaches_first_singleton.mpr reached

end Modifiers

namespace Specification

/-- The target of an accepted specification is the last one that is written; zero is none. -/
theorem target_of_parse {text : Text} {specification : Specification}
    (accepted : parse text = .ok specification) :
    Numeral.Tells 0 ((clausesOf text).filterMap Clause.target?).getLast?
      specification.modifiers.target := by
  have told {expression : Text} {modifiers : Modifiers} (cut : Cuts text expression modifiers) :
      Numeral.Tells 0 ((clausesOf text).filterMap Clause.target?).getLast? modifiers.target := by
    refine Numeral.tells_of_foldlM (fun {before behind clause} read => ?_) cut.read_clauses
    exact Modifiers.target_with_text read
  cases accepted_of_parse accepted with
  | chance cut | single cut | several cut =>
      have last := told cut
      exact last

end Specification

namespace Dice

theorem one_le_percentile (maximize : Bool) :
    Sound Always (fun _ => True) (Specification.percentileDice.evaluate maximize 0) fun evaluation =>
      1 ≤ evaluation.total := by
  have proper : DieGroup.IsProper { sides := 100 } := by constructor <;> decide
  have fed : Sound Always (fun _ => True)
      (feed maximize Specification.percentileDice.components {} (naturalNone, 0)) fun fed =>
        ∃ value : Int, 1 ≤ value ∧ fed.2.1 = ({} : Stack).push (.int value) := by
    apply sound_bind (sound_of_draws (DieGroup.draws_roll proper maximize))
    intro outcome shown
    obtain ⟨face, shows, value, -⟩ := DieGroup.exists_face_of_single rfl shown
    refine sound_pure ⟨outcome.value, ?_, rfl⟩
    rw [value]
    exact DieGroup.one_le_of_shows proper shows
  apply sound_bind fed
  rintro ⟨outcomes, stack, natural, threat⟩ ⟨value, positive, pushed⟩
  obtain rfl : stack = ({} : Stack).push (.int value) := pushed
  have settles : Settles (fun _ => True) (fun settled : Int × Stack => settled.1 = value)
      ((({} : Stack).push (.int value)).evaluate.mapError StackFault.failure) := rfl
  apply sound_bind (sound_of_except settles)
  rintro ⟨total, rest⟩ rfl
  apply sound_pure
  simpa [Limits.clamp, Specification.percentileDice] using positive

end Dice

namespace SessionM

variable {modifiers : Modifiers} {dice : Dice}

/-- A pass has one result, which reports what the pass counts; a percentile roll counts a face. -/
def CountsOne (modifiers : Modifiers) (pass : Int × List RollResult) : Prop :=
  ∃ result, pass.2 = [result] ∧ result.total = modifiers.reported pass.1 ∧
    (modifiers.chance ≠ none → 1 ≤ pass.1)

section Single

variable (unconfirmed : modifiers.confirm = false)
  (percentile : modifiers.chance ≠ none → dice = Specification.percentileDice)

include unconfirmed percentile

theorem yields_counts_one (pass : Nat) (sum : Int) :
    Yields (rollDice modifiers pass sum dice) (CountsOne modifiers) := by
  unfold rollDice
  split
  next chance some =>
    have asked : modifiers.chance ≠ none := Option.ne_none_iff_exists'.mpr ⟨chance, some⟩
    obtain rfl := percentile asked
    have face : Yields (evaluate modifiers Specification.percentileDice 0) fun evaluation =>
        1 ≤ evaluation.total := by
      apply sound_bind (sound_of_draw (fun _ _ _ => trivial) (Dice.one_le_percentile _))
      intro evaluation positive
      exact sound_bind (yields_anything _) fun _ _ => sound_pure positive
    apply sound_bind face
    intro evaluation positive
    refine sound_pure ⟨_, rfl, ?_, fun _ => positive⟩
    simp only [Modifiers.reported, some, decide_eq_true_eq]
  next none =>
    apply sound_bind (yields_anything _)
    intro evaluation _
    apply sound_bind (yields_anything _)
    intro description _
    apply sound_bind (yields_anything _)
    intro _ _
    rw [if_neg (by simp [unconfirmed])]
    refine sound_pure ⟨_, rfl, ?_, fun asked => absurd none asked⟩
    rw [Modifiers.reported, none]

theorem yields_counts_one_sequence (pass : Nat) (sum start : Int) :
    Yields (rollSequence modifiers pass sum start [.ok dice]) (CountsOne modifiers) := by
  apply sound_bind (sound_pure (rfl : dice = dice))
  rintro _ rfl
  apply sound_bind (yields_counts_one unconfirmed percentile pass sum)
  rintro ⟨value, results⟩ counts
  apply sound_pure
  rw [CountsOne, List.append_nil]
  exact counts

theorem yields_counts_one_passes (count pass : Nat) (progress : Progress) :
    Yields (makePasses modifiers [.ok dice] count pass progress) fun passes =>
      ∀ pass ∈ passes, CountsOne modifiers pass := by
  induction count generalizing pass progress with
  | zero => exact sound_pure fun _ member => absurd member List.not_mem_nil
  | succ count ih =>
      apply sound_bind (yields_counts_one_sequence unconfirmed percentile pass progress.sum 0)
      intro rolled first
      apply sound_bind (ih (pass + 1) (progress.advance modifiers rolled.1))
      intro more behind
      exact sound_pure (List.forall_mem_cons.mpr ⟨first, behind⟩)

theorem counts_one_of_makes {left pass : Nat} {progress : Progress} {session after : Session}
    {passes : List (Int × List RollResult)}
    (makes : Makes modifiers [.ok dice] left pass progress session passes after) :
    ∀ pass ∈ passes, CountsOne modifiers pass := by
  have yields := yields_counts_one_passes unconfirmed percentile passes.length pass progress
  exact (yields.of_ok trivial makes.made).1

end Single

theorem totals_of_counts_one {passes : List (Int × List RollResult)}
    (counts : ∀ pass ∈ passes, CountsOne modifiers pass) :
    (passes.flatMap Prod.snd).map RollResult.total =
      (passes.map Prod.fst).map modifiers.reported := by
  induction passes with
  | nil => rfl
  | cons pass passes ih =>
      obtain ⟨⟨result, alone, total, -⟩, others⟩ := List.forall_mem_cons.mp counts
      rw [List.flatMap_cons, List.map_append, ih others, alone, List.map_singleton, total]
      rfl

section Finished

variable {sequence : List (Except Failure Dice)} {session after : Session}
  {passes : List (Int × List RollResult)}

def countedAt (passes : List (Int × List RollResult)) (pass : ℕ) : ℤ :=
  (passes[pass]?.map Prod.fst).getD 0

theorem counted_at_eq (pass : ℕ) (made : pass < passes.length) :
    countedAt passes pass = passes[pass].1 := by
  rw [countedAt, List.getElem?_eq_getElem made, Option.map_some, Option.getD_some]

variable (single : modifiers.total = 0) (once : modifiers.repeatFor = 1)
  (makes : Makes modifiers sequence maxPasses 0 {} session passes after)
  (enough : modifiers.repeatFor ≤ (Progress.after modifiers {} passes).finished)

include single once makes enough

theorem reaches_first_of_makes (aimed : modifiers.target ≠ 0) :
    ReachesFirst modifiers.target (passes.map Prod.fst) := by
  have finished {count : ℕ} (made : count ≤ passes.length) :
      (Progress.after modifiers {} (passes.take count)).finished =
        Nat.count (fun pass => modifiers.target ≤ countedAt passes pass) count := by
    rw [Progress.after_take counted_at_eq made, finished_of_target single aimed]
  rcases List.eq_nil_or_concat' passes with rfl | ⟨front, last, rfl⟩
  · have none : (Progress.after modifiers {} []).finished = 0 := rfl
    omega
  · have length : (front ++ [last]).length = front.length + 1 := List.length_append
    have missing := makes.missing front.length (by omega)
    rw [finished (by omega), once, Nat.lt_one_iff, Nat.count_iff_forall_not] at missing
    rw [← List.take_length (l := front ++ [last]), finished (Nat.le_refl _), length, once,
      Nat.count_succ, Nat.count_iff_forall_not.mpr missing] at enough
    have final : countedAt (front ++ [last]) front.length = last.1 := by
      rw [counted_at_eq _ (by omega), List.getElem_concat_length]
      rfl
    refine ⟨front.map Prod.fst, last.1, List.map_append, ?_, ?_⟩
    · by_contra short
      rw [final, if_neg short] at enough
      omega
    · intro value member
      obtain ⟨pass, among, rfl⟩ := List.mem_map.mp member
      obtain ⟨index, within, rfl⟩ := List.getElem_of_mem among
      have below := missing index within
      rw [counted_at_eq _ (by omega), List.getElem_append_left within] at below
      exact Int.not_le.mp below

theorem length_of_makes (aimless : modifiers.target = 0) : passes.length = 1 := by
  have finished {count : ℕ} (made : count ≤ passes.length) :
      (Progress.after modifiers {} (passes.take count)).finished = count := by
    rw [Progress.after_take counted_at_eq made, finished_of_fixed single aimless]
  have some := finished (Nat.le_refl passes.length)
  rw [List.take_length] at some
  by_contra several
  have early := makes.missing 1 (by omega)
  rw [finished (by omega), once] at early
  exact absurd early (by decide)

end Finished

/-- Of a specification with a target, but without alternatives, confirmation or repetitions, every
pass reports one result, and unless the limit ends the roll, what the passes count comes to the
target with the last of them. So do the results just if it is not zero and they are not those
of a percentile roll, or if there is only one result and it comes to the target. -/
theorem target_reached_iff {text : Text} {specification : Specification}
    (accepted : Specification.parse text = .ok specification) {numeral : Numeral}
    (written : ((Specification.clausesOf text).filterMap Clause.target?).getLast? = some numeral)
    (noAlternatives : specification.modifiers.alternatives = [])
    (noConfirmation : specification.modifiers.confirm = false)
    (once : specification.modifiers.repeatFor = 1) {session after : Session} {title : Text}
    {results : List RollResult}
    (rolled : (roll text).run.run session = (.ok (title, results), after))
    (few : results.length < maxPasses) :
    let modifiers := specification.modifiers
    let goal := modifiers.target
    let totals := results.map RollResult.total
    numeral.read = .ok goal ∧
    ∃ passes last,
      (makePasses modifiers (Roller.ofSpecification specification).sequence passes.length 0 {}).run.run
          { session with roller := Roller.ofSpecification specification } = (.ok passes, last) ∧
      results = passes.flatMap Prod.snd ∧
      let values := passes.map Prod.fst
      totals = values.map modifiers.reported ∧
      (goal ≠ 0 → ReachesFirst goal values) ∧
      (modifiers.total = 0 → goal = 0 → values.length = 1) ∧
      (modifiers.total = 0 → (ReachesFirst goal totals ↔
        modifiers.chance = none ∧ goal ≠ 0 ∨ ∃ total, totals = [total] ∧ goal ≤ total)) := by
  intro modifiers goal totals
  have told := Specification.target_of_parse accepted
  rw [written] at told
  have consistent := Specification.consistent_of_parse accepted
  obtain ⟨dice, offered, sequence⟩ := dice_of_parse accepted noAlternatives
  have percentile : modifiers.chance ≠ none → dice = Specification.percentileDice := by
    intro some
    have only := (consistent.chance some).1
    exact Option.some.inj (offered.symm.trans only)
  rw [run_roll accepted, sequence] at rolled
  simp only [run_bind_eq_ok, run_pure_eq_ok] at rolled
  obtain ⟨_, _, rolls, same, rfl⟩ := rolled
  obtain ⟨rfl, rfl⟩ := Prod.mk.inj same
  obtain ⟨passes, last, makes, ends⟩ := exists_passes modifiers [.ok dice] _
    (Nat.zero_add maxPasses) {} { session with roller := Roller.ofSpecification specification }
  rw [rolls] at ends
  have made := makes.made
  rw [← sequence] at made
  have counts := counts_one_of_makes noConfirmation percentile makes
  have reported := totals_of_counts_one counts
  cases ends with
  | stopped short all =>
      have lengths := congrArg List.length reported
      simp only [List.length_map] at lengths
      omega
  | complete enough =>
      refine ⟨told, passes, _, made, rfl, reported, ?_, ?_, ?_⟩
      · intro aimed
        have single := consistent.goal.resolve_right aimed
        exact reaches_first_of_makes single once makes enough aimed
      · intro single aimless
        rw [List.length_map]
        exact length_of_makes single once makes enough aimless
      · intro single
        have same : totals = (passes.map Prod.fst).map modifiers.reported := reported
        rw [same]
        apply Modifiers.reaches_first_reported_iff
        · intro some value member
          obtain ⟨pass, among, rfl⟩ := List.mem_map.mp member
          obtain ⟨_, -, -, face⟩ := counts pass among
          exact face some
        · exact reaches_first_of_makes single once makes enough
        · intro aimless
          rw [List.length_map]
          exact length_of_makes single once makes enough aimless

/-- Of two targets the later counts; it is reached by the third roll. -/
theorem target_reached_iff_of_three_rolls :
    let text := "d6-4|until -1|until 1".toList
    let session : Session := { source := Source.ofFaces [2, 3, 6] }
    ∃ title results after, (roll text).run.run session = (.ok (title, results), after) ∧
      results.map RollResult.total = [-2, -1, 2] ∧
      ReachesFirst 1 (results.map RollResult.total) := by
  intro text session
  have written : ((Specification.clausesOf text).filterMap Clause.target?).getLast? =
      some { digits := ['1'] } := by decide +kernel
  have asked : (Specification.parse text).map (fun specification =>
      let modifiers := specification.modifiers
      (modifiers.alternatives, modifiers.confirm, modifiers.repeatFor, modifiers.total,
        modifiers.chance)) = .ok ([], false, 1, 0, none) := by decide +kernel
  have totals : ((roll text).run.run session).1.map (fun rolled =>
      rolled.2.map RollResult.total) = .ok [-2, -1, 2] := by decide +kernel
  cases accepted : Specification.parse text with
  | error failure =>
      rw [accepted] at asked
      cases asked
  | ok specification =>
      rw [accepted] at asked
      have parts := Except.ok.inj asked
      simp only [Prod.mk.injEq] at parts
      obtain ⟨plain, unconfirmed, once, single, noChance⟩ := parts
      rcases rolled : (roll text).run.run session with ⟨failure | ⟨title, results⟩, after⟩
      · rw [rolled] at totals
        cases totals
      · rw [rolled] at totals
        have shown : results.map RollResult.total = [-2, -1, 2] := Except.ok.inj totals
        have few : results.length < maxPasses := by
          have three := congrArg List.length shown
          rw [List.length_map] at three
          rw [three]
          decide
        obtain ⟨read, _, _, -, -, -, -, -, reached⟩ :=
          target_reached_iff accepted written plain unconfirmed once rolled few
        have goal : (1 : Int) = specification.modifiers.target := Except.ok.inj read
        rw [← goal] at reached
        exact ⟨title, results, after, rfl, shown, (reached single).mpr (.inl ⟨noChance, by decide⟩)⟩

/-- A target of zero is not waited for, and a percentile roll stops with a face that reaches the
target although it reports a failure. -/
theorem not_target_reached :
    let totals (text : Text) (faces : List Nat) : Except Failure (List Int) :=
      ((roll text).run.run { source := Source.ofFaces faces }).1.map fun rolled =>
        rolled.2.map RollResult.total
    totals "d6-3|until 0".toList [1, 5] = .ok [-2] ∧ ¬ReachesFirst 0 [-2] ∧
      totals "50%|until 1".toList [80, 30] = .ok [0] ∧ ¬ReachesFirst 1 [0] := by
  intro totals
  refine ⟨by decide +kernel, ?_, by decide +kernel, ?_⟩
  · rw [reaches_first_singleton]
    decide
  · rw [reaches_first_singleton]
    decide

end SessionM

end TabletopDice
