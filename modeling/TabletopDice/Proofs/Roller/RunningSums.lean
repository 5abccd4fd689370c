import Mathlib.Algebra.Order.BigOperators.GroupWithZero.List
import Mathlib.Algebra.Order.Ring.Int
import TabletopDice.Proofs.Roller.Consistency
import TabletopDice.Proofs.Roller.Work

/-!
Running sums. Where a sum is asked for, every result tells the sum so far. A pass adds
only the result of its last dice to the sum that is kept, and tells each of its results on
top of what was kept before it. So what is told is the sum of all results so far just if
the results before the last one of each pass are zero, and it always is where a pass
has one result.
-/

namespace TabletopDice

abbrev sumPart (fragments : List Fragment) : List Fragment :=
  partOf (fun kind => kind == .cumulative) fragments

section Fragments

theorem sum_part_describe_dice {dice : Dice} {evaluation : Evaluation}
    {automatic : Option (Text × Text)} {bonus : Int} {fragments : List Fragment}
    (told : dice.describe (some evaluation) automatic bonus = .ok fragments) :
    sumPart fragments = [] := by
  simp only [Dice.describe, Dice.tellBody, bind_eq_ok, pure_eq_ok] at told
  obtain ⟨total, first, body, ⟨_, -, rfl⟩, rfl⟩ := told
  rw [sumPart, part_append, part_eq_nil (Dice.kind_of_total_fragments first).2 (by decide),
    dice.part_body_eq_nil evaluation.outcomes bonus (by decide) (by decide), List.nil_append]

namespace Modifiers

variable {modifiers : Modifiers}

/-- Where a sum is asked for, the options tell the sum with the result, once. -/
theorem sum_part_options (summed : modifiers.total ≠ 0) (result : Int) (pass : Nat) (sum : Int) :
    sumPart (modifiers.optionFragments (some (result, pass, sum))) =
      [Fragment.int .cumulative (sum + result)] := by
  have margins (target : Int) : sumPart [margin target result] = [] := by
    unfold margin
    simp (disch := decide) only [Fragment.int, apply_ite (fun fragment => sumPart [fragment]),
      part_cons_of_fail, part_nil, ite_self]
  simp (disch := decide) only [optionFragments, Fragment.int, Fragment.bar, part_append, part_ite,
    part_cons_of_fail, part_nil, margins, ite_self, List.append_nil, List.nil_append, if_pos summed]
  rfl

theorem sum_part_maximized : sumPart modifiers.maximizedFragments = [] := by
  unfold maximizedFragments
  simp (disch := decide) only [Fragment.bar, part_ite, part_cons_of_fail, part_nil, ite_self]

end Modifiers

end Fragments

namespace RollResult

def TellsSum (result : RollResult) (sum : Int) : Prop :=
  sumPart result.details = [Fragment.int .cumulative sum]

theorem TellsSum.unique {result : RollResult} {sum other : Int} (one : result.TellsSum sum)
    (two : result.TellsSum other) : sum = other := by
  have same := List.singleton_injective (one.symm.trans two)
  exact Text.of_int_injective (congrArg Fragment.value same)

/-- The result of a pass that counts: that of its last dice. -/
def counted (start : Int) (pass : List RollResult) : Int := (pass.getLast?.map total).getD start

theorem counted_cons (start : Int) (result : RollResult) (pass : List RollResult) :
    counted start (result :: pass) = counted result.total pass := by
  unfold counted
  rw [List.getLast?_cons]
  cases pass.getLast? with
  | none => rfl
  | some last => rfl

/-- Each of the results tells the sum of all totals up to it, on top of an earlier sum. -/
def TellRunningSums (before : Int) (results : List RollResult) : Prop :=
  ∀ earlier result later, results = earlier ++ result :: later →
    result.TellsSum (before + (earlier.map total).sum + result.total)

theorem tell_running_sums_cons {before : Int} {result : RollResult} {results : List RollResult} :
    TellRunningSums before (result :: results) ↔
      result.TellsSum (before + result.total) ∧ TellRunningSums (before + result.total) results := by
  constructor
  · intro told
    constructor
    · have first := told [] result results rfl
      rwa [List.map_nil, List.sum_nil, add_zero] at first
    · rintro earlier next later rfl
      have behind := told (result :: earlier) next later rfl
      rwa [List.map_cons, List.sum_cons, ← add_assoc] at behind
  · rintro ⟨first, behind⟩ earlier next later same
    cases earlier with
    | nil =>
        obtain ⟨rfl, -⟩ := List.cons.inj same
        rwa [List.map_nil, List.sum_nil, add_zero]
    | cons head earlier =>
        obtain ⟨rfl, rest⟩ := List.cons.inj same
        rw [List.map_cons, List.sum_cons, ← add_assoc]
        exact behind earlier next later rest

theorem tell_running_sums_append {before : Int} {results more : List RollResult} :
    TellRunningSums before (results ++ more) ↔
      TellRunningSums before results ∧ TellRunningSums (before + (results.map total).sum) more := by
  induction results generalizing before with
  | nil =>
      have none : TellRunningSums before [] := fun earlier _ _ same => absurd same (by simp)
      rw [List.nil_append, List.map_nil, List.sum_nil, add_zero]
      exact (and_iff_right none).symm
  | cons result results ih =>
      rw [List.cons_append, tell_running_sums_cons, tell_running_sums_cons, ih, and_assoc,
        List.map_cons, List.sum_cons, add_assoc]

/-- Results told on top of one sum tell the running sum from another just if the two sums are the
same and all results before the last one are zero. -/
theorem tell_running_sums_of_pass {sum before : Int} {pass : List RollResult} (some : pass ≠ [])
    (told : ∀ result ∈ pass, result.TellsSum (sum + result.total)) :
    TellRunningSums before pass ↔ before = sum ∧ ∀ result ∈ pass.dropLast, result.total = 0 := by
  induction pass generalizing before with
  | nil => exact absurd rfl some
  | cons result rest ih =>
      obtain ⟨first, others⟩ := List.forall_mem_cons.mp told
      have here : result.TellsSum (before + result.total) ↔ before = sum := by
        constructor
        · intro again
          have same := again.unique first
          omega
        · rintro rfl
          exact first
      rw [tell_running_sums_cons, here]
      cases rest with
      | nil =>
          have none : TellRunningSums (before + result.total) [] :=
            fun earlier _ _ same => absurd same (by simp)
          simp [none]
      | cons next rest =>
          rw [ih (List.cons_ne_nil _ _) others, List.dropLast_cons_cons, List.forall_mem_cons]
          constructor
          · rintro ⟨rfl, same, zeros⟩
            exact ⟨rfl, by omega, zeros⟩
          · rintro ⟨rfl, zero, zeros⟩
            exact ⟨rfl, by omega, zeros⟩

theorem sum_of_pass {pass : List RollResult} (zeros : ∀ result ∈ pass.dropLast, result.total = 0) :
    (pass.map total).sum = counted 0 pass := by
  rcases List.eq_nil_or_concat' pass with rfl | ⟨front, last, rfl⟩
  · rfl
  · rw [List.dropLast_concat] at zeros
    have nothing : (front.map total).sum = 0 := List.sum_eq_zero (by simpa using zeros)
    simp [counted, nothing]

def countedSum (passes : List (List RollResult)) : Int := (passes.map (counted 0)).sum

/-- Passes that are told on top of what the passes before them count tell the running sum just if
each pass has but zeros before its last result. -/
theorem tell_running_sums_iff {before : Int} {passes : List (List RollResult)}
    (some : ∀ pass ∈ passes, pass ≠ [])
    (told : ∀ earlier pass later, passes = earlier ++ pass :: later →
      ∀ result ∈ pass, result.TellsSum (before + countedSum earlier + result.total)) :
    TellRunningSums before passes.flatten ↔
      ∀ pass ∈ passes, ∀ result ∈ pass.dropLast, result.total = 0 := by
  induction passes generalizing before with
  | nil =>
      refine iff_of_true (fun earlier _ _ same => absurd same (by simp)) ?_
      exact fun _ member => absurd member List.not_mem_nil
  | cons pass passes ih =>
      obtain ⟨present, others⟩ := List.forall_mem_cons.mp some
      have first : ∀ result ∈ pass, result.TellsSum (before + result.total) := by
        have now := told [] pass passes rfl
        rwa [countedSum, List.map_nil, List.sum_nil, add_zero] at now
      rw [List.flatten_cons, tell_running_sums_append, tell_running_sums_of_pass present first,
        List.forall_mem_cons, eq_self_iff_true, true_and]
      refine and_congr_right fun zeros => ?_
      rw [sum_of_pass zeros]
      refine ih others ?_
      rintro earlier next later rfl
      have behind := told (pass :: earlier) next later rfl
      rwa [countedSum, List.map_cons, List.sum_cons, ← add_assoc] at behind

def OnlyLastCounts (passes : List (List RollResult)) : Prop :=
  ∀ pass ∈ passes, ∀ result ∈ pass.dropLast, result.total = 0

theorem sum_of_passes {passes : List (List RollResult)} (zeros : OnlyLastCounts passes) :
    (passes.flatten.map total).sum = countedSum passes := by
  induction passes with
  | nil => rfl
  | cons pass passes ih =>
      obtain ⟨first, others⟩ := List.forall_mem_cons.mp zeros
      rw [List.flatten_cons, List.map_append, List.sum_append, sum_of_pass first, ih others,
        countedSum, countedSum, List.map_cons, List.sum_cons]

end RollResult

namespace SessionM

open RollResult

variable {modifiers : Modifiers} {dice : Dice} {sequence : List (Except Failure Dice)}

def firstRolls (results : List RollResult) : List RollResult :=
  results.filter fun result => !result.isConfirmation

theorem first_rolls_of_tells {request : List Fragment} {first : RollResult}
    {more : List RollResult} (tells : TellsRequest request (first :: more)) :
    firstRolls (first :: more) = [first] := by
  obtain ⟨plain, -, confirming⟩ := tells
  have none : firstRolls more = [] :=
    List.filter_eq_nil_iff.mpr fun result member => by simp [confirming result member]
  rw [firstRolls, List.filter_cons_of_pos (by simp [plain])]
  exact congrArg (first :: ·) none

/-- The rolls of one pass, made on top of a sum: each is told with it, and the last one counts. -/
structure IsSummedPass (width : Nat) (sum start : Int) (rolled : Int × List RollResult) : Prop where
  length : (firstRolls rolled.2).length = width
  told : ∀ result ∈ firstRolls rolled.2, result.TellsSum (sum + result.total)
  counted : RollResult.counted start (firstRolls rolled.2) = rolled.1

section Summed

variable (summed : modifiers.total ≠ 0) (noChance : modifiers.chance = none)

include summed noChance

theorem yields_told_sum (pass : Nat) (sum : Int) :
    Yields (rollDice modifiers pass sum dice) fun rolled => ∃ first,
      firstRolls rolled.2 = [first] ∧ first.total = rolled.1 ∧ first.TellsSum (sum + rolled.1) := by
  have told : Yields (rollDice modifiers pass sum dice) fun rolled => ∃ first more,
      rolled.2 = first :: more ∧ first.total = rolled.1 ∧ first.TellsSum (sum + rolled.1) := by
    rw [rollDice, noChance]
    apply sound_bind (yields_anything _)
    intro evaluation _
    apply sound_bind (yields_of_except fun _ told => sum_part_describe_dice told)
    intro description silent
    apply sound_bind (yields_anything _)
    intro _ _
    have sums : sumPart (description ++
        modifiers.optionFragments (some (evaluation.total, pass, sum)) ++
          modifiers.maximizedFragments) = [Fragment.int .cumulative (sum + evaluation.total)] := by
      simp only [part_append, silent, modifiers.sum_part_options summed,
        modifiers.sum_part_maximized]
      rfl
    dsimp only
    split
    · apply sound_bind (yields_anything _)
      intro confirmation _
      exact sound_pure ⟨_, confirmation, rfl, rfl, sums⟩
    · exact sound_pure ⟨_, [], rfl, rfl, sums⟩
  apply sound_imp (sound_and (yields_roll_dice modifiers dice pass sum) told)
  rintro ⟨value, results⟩ ⟨tells, first, more, rfl, same, sums⟩
  exact ⟨first, first_rolls_of_tells tells, same, sums⟩

theorem yields_summed_sequence (pass : Nat) (sum start : Int) :
    Yields (rollSequence modifiers pass sum start sequence)
      (IsSummedPass sequence.length sum start) := by
  induction sequence generalizing start with
  | nil =>
      exact sound_pure ⟨rfl, fun _ member => absurd member List.not_mem_nil, rfl⟩
  | cons head more ih =>
      apply sound_bind (yields_anything (ofExcept head))
      intro dice _
      apply sound_bind (yields_told_sum summed noChance pass sum)
      rintro ⟨value, results⟩ ⟨first, alone, rfl, sums⟩
      apply sound_bind (ih first.total)
      rintro ⟨final, rest⟩ ⟨length, told, counts⟩
      have whole : firstRolls (results ++ rest) = first :: firstRolls rest := by
        rw [firstRolls, List.filter_append]
        exact congrArg (· ++ firstRolls rest) alone
      apply sound_pure
      constructor
      · rw [whole, List.length_cons, length, List.length_cons]
      · rw [whole]
        exact List.forall_mem_cons.mpr ⟨sums, told⟩
      · rw [whole, counted_cons]
        exact counts

theorem yields_summed_passes (count pass : Nat) (progress : Progress) :
    Yields (makePasses modifiers sequence count pass progress) fun passes =>
      ∀ earlier rolled later, passes = earlier ++ rolled :: later →
        IsSummedPass sequence.length (progress.after modifiers earlier).sum 0 rolled := by
  induction count generalizing pass progress with
  | zero =>
      apply sound_pure
      intro earlier rolled later same
      exact absurd same (by simp)
  | succ count ih =>
      apply sound_bind (yields_summed_sequence summed noChance pass progress.sum 0)
      intro first now
      apply sound_bind (ih (pass + 1) (progress.advance modifiers first.1))
      intro more behind
      apply sound_pure
      intro earlier rolled later same
      cases earlier with
      | nil =>
          obtain ⟨rfl, -⟩ := List.cons.inj same
          exact now
      | cons head earlier =>
          obtain ⟨rfl, rest⟩ := List.cons.inj same
          exact behind earlier rolled later rest

end Summed

section Unfinished

variable (summed : modifiers.total ≠ 0)

theorem Progress.finished_le_after (progress : Progress) (passes : List (Int × List RollResult)) :
    progress.finished ≤ (progress.after modifiers passes).finished := by
  induction passes generalizing progress with
  | nil => exact Nat.le_refl _
  | cons pass passes ih =>
      refine Nat.le_trans ?_ (ih (progress.advance modifiers pass.1))
      unfold Progress.advance
      grind

include summed

theorem Progress.sum_of_unfinished {progress : Progress} {passes : List (Int × List RollResult)}
    (unfinished : (progress.after modifiers passes).finished ≤ progress.finished) :
    (progress.after modifiers passes).sum = progress.sum + (passes.map Prod.fst).sum := by
  induction passes generalizing progress with
  | nil => exact (add_zero _).symm
  | cons pass passes ih =>
      have later : (progress.advance modifiers pass.1).finished ≤
          ((progress.advance modifiers pass.1).after modifiers passes).finished :=
        Progress.finished_le_after _ passes
      have within := Nat.le_trans later unfinished
      rw [Progress.advance, if_pos summed] at later within
      split at within
      next => exact absurd within (Nat.not_succ_le_self _)
      next short =>
        have advanced : progress.advance modifiers pass.1 =
            { progress with sum := progress.sum + pass.1 } := by
          rw [Progress.advance, if_pos summed, if_neg short]
        change ((progress.advance modifiers pass.1).after modifiers passes).finished ≤ _ at unfinished
        change ((progress.advance modifiers pass.1).after modifiers passes).sum = _
        rw [advanced] at unfinished ⊢
        rw [ih unfinished, List.map_cons, List.sum_cons, add_assoc]

/-- The first block is complete with the first pass that brings all of them up to the total. -/
theorem Progress.finished_eq_zero_iff {passes : List (Int × List RollResult)}
    (unfinished : (Progress.after modifiers {} passes.dropLast).finished = 0) :
    (Progress.after modifiers {} passes).finished = 0 ↔
      (passes.map Prod.fst).sum < modifiers.total := by
  rcases List.eq_nil_or_concat' passes with rfl | ⟨front, last, rfl⟩
  · have positive : (0 : Int) < modifiers.total := by omega
    exact iff_of_true rfl positive
  · rw [List.dropLast_concat] at unfinished
    have sum := sum_of_unfinished summed (Nat.le_of_eq unfinished)
    have whole : Progress.after modifiers {} (front ++ [last]) =
        (Progress.after modifiers {} front).advance modifiers last.1 := List.foldl_append
    rw [whole, Progress.advance, if_pos summed, sum, List.map_append, List.sum_append,
      List.map_singleton, List.sum_singleton, zero_add]
    split
    next reached => exact iff_of_false (Nat.succ_ne_zero _) (Int.not_lt.mpr reached)
    next short => exact iff_of_true unfinished (Int.not_le.mp short)

end Unfinished

end SessionM

namespace Specification

theorem choices_pos {text : Text} {specification : Specification}
    (accepted : parse text = .ok specification) : 0 < choices text := by
  cases accepted_of_parse accepted with
  | chance cut plain | single cut plain =>
      rw [choices, cut.value_sets plain]
      exact Nat.one_pos
  | several cut offered present =>
      rw [choices, cut.value_sets offered]
      refine List.prod_pos fun length member => ?_
      obtain ⟨values, isSet, rfl⟩ := List.mem_map.mp member
      have two := (read_alternatives_eq_ok.mp offered).2 values isSet
      omega

theorem choices_of_no_alternatives {text : Text} {specification : Specification}
    (accepted : parse text = .ok specification)
    (plain : specification.modifiers.alternatives = []) : choices text = 1 := by
  obtain ⟨dice, -, sequence⟩ := SessionM.dice_of_parse accepted plain
  rw [← length_sequence accepted, sequence]
  rfl

end Specification

namespace SessionM

open RollResult Specification

section Finished

variable {modifiers : Modifiers} {sequence : List (Except Failure Dice)} {left : Nat}
  {session after : Session} {passes : List (Int × List RollResult)}

def firstPasses (passes : List (Int × List RollResult)) : List (List RollResult) :=
  passes.map fun pass => firstRolls pass.2

theorem first_rolls_flat_map (passes : List (Int × List RollResult)) :
    firstRolls (passes.flatMap Prod.snd) = (firstPasses passes).flatten := by
  induction passes with
  | nil => rfl
  | cons pass passes ih =>
      rw [List.flatMap_cons, firstRolls, List.filter_append]
      exact congrArg (firstRolls pass.2 ++ ·) ih

theorem counted_sum_first_passes
    (counts : ∀ pass ∈ passes, RollResult.counted 0 (firstRolls pass.2) = pass.1) :
    countedSum (firstPasses passes) = (passes.map Prod.fst).sum := by
  rw [countedSum, firstPasses, List.map_map]
  exact congrArg List.sum (List.map_congr_left counts)

variable (summed : modifiers.total ≠ 0) (noChance : modifiers.chance = none)
  (once : modifiers.repeatFor = 1)
  (makes : Makes modifiers sequence left 0 {} session passes after)

include once makes in
theorem Makes.unfinished {earlier later : List (Int × List RollResult)}
    (same : passes = earlier ++ later) (more : later ≠ []) :
    (Progress.after modifiers {} earlier).finished = 0 := by
  have behind := List.length_pos_iff.mpr more
  have missing := makes.missing earlier.length (by rw [same, List.length_append]; omega)
  rw [same, List.take_left, once] at missing
  omega

include summed noChance makes in
theorem Makes.sums_pass {earlier later : List (Int × List RollResult)} {pass : Int × List RollResult}
    (same : passes = earlier ++ pass :: later) :
    IsSummedPass sequence.length (Progress.after modifiers {} earlier).sum 0 pass := by
  obtain ⟨yields, -⟩ := yields_summed_passes summed noChance passes.length 0 {} session trivial
  rw [makes.made] at yields
  exact yields earlier pass later same

include summed noChance makes in
theorem Makes.counts : ∀ pass ∈ passes, RollResult.counted 0 (firstRolls pass.2) = pass.1 := by
  intro pass member
  obtain ⟨earlier, later, same⟩ := List.append_of_mem member
  exact (makes.sums_pass summed noChance same).counted

include summed once makes in
theorem Makes.unfinished_iff {earlier later : List (Int × List RollResult)}
    (same : passes = earlier ++ later) :
    (Progress.after modifiers {} earlier).finished = 0 ↔
      (earlier.map Prod.fst).sum < modifiers.total := by
  apply Progress.finished_eq_zero_iff summed
  rcases List.eq_nil_or_concat' earlier with rfl | ⟨front, last, rfl⟩
  · rfl
  · rw [List.dropLast_concat]
    rw [List.append_assoc] at same
    exact makes.unfinished once same (List.append_ne_nil_of_left_ne_nil (List.cons_ne_nil _ _) _)

include summed noChance once makes in
/-- Each pass is told on top of what the passes before it count, and they did not come to the
sum. -/
theorem Makes.tells_counted {earlier later : List (List RollResult)} {pass : List RollResult}
    (same : firstPasses passes = earlier ++ pass :: later) :
    countedSum earlier < modifiers.total ∧
      ∀ result ∈ pass, result.TellsSum (countedSum earlier + result.total) := by
  obtain ⟨front, rest, whole, rfl, behind⟩ := List.map_eq_append_iff.mp same
  obtain ⟨made, more, rfl, rfl, rfl⟩ := List.map_eq_cons_iff.mp behind
  have unfinished := makes.unfinished once whole (List.cons_ne_nil _ _)
  have counted : countedSum (firstPasses front) = (front.map Prod.fst).sum :=
    counted_sum_first_passes fun pass member =>
      makes.counts summed noChance pass (whole ▸ List.mem_append_left _ member)
  have kept : (Progress.after modifiers {} front).sum = countedSum (firstPasses front) := by
    rw [Progress.sum_of_unfinished summed (Nat.le_of_eq unfinished), counted]
    exact zero_add _
  constructor
  · have below := (makes.unfinished_iff summed once whole).mp unfinished
    rwa [← counted] at below
  · have tells := (makes.sums_pass summed noChance whole).told
    rwa [kept] at tells

include summed noChance once makes in
theorem Makes.reaches_counted
    (complete : (Progress.after modifiers {} passes).finished ≠ 0) :
    modifiers.total ≤ countedSum (firstPasses passes) := by
  rw [counted_sum_first_passes (makes.counts summed noChance)]
  have settled := makes.unfinished_iff summed once (List.append_nil passes).symm
  exact Int.not_lt.mp fun below => complete (settled.mpr below)

end Finished

/-- Where a sum is asked for and nothing is repeated, each pass tells its results on top of what
the passes before it count, which is less than the sum, and below the limit the passes come to
the sum. The running sums that are told are the sums of all results so far just if only the
last result of each pass is other than zero, as it is without alternatives; the rolls then end
below the limit only with a sum of all results that is enough. -/
theorem running_sums_iff {text : Text} {specification : Specification}
    (accepted : Specification.parse text = .ok specification)
    (summed : specification.modifiers.total ≠ 0) (once : specification.modifiers.repeatFor = 1)
    {session after : Session} {title : Text} {results : List RollResult}
    (rolled : (roll text).run.run session = (.ok (title, results), after)) :
    let total : Int := specification.modifiers.total
    ∃ passes : List (List RollResult),
      firstRolls results = passes.flatten ∧ (∀ pass ∈ passes, pass.length = choices text) ∧
      passes.length ≤ maxPasses ∧
      (∀ earlier pass later, passes = earlier ++ pass :: later → countedSum earlier < total ∧
        ∀ result ∈ pass, result.TellsSum (countedSum earlier + result.total)) ∧
      (passes.length < maxPasses → total ≤ countedSum passes) ∧
      (TellRunningSums 0 (firstRolls results) ↔ OnlyLastCounts passes) ∧
      (OnlyLastCounts passes → passes.length < maxPasses →
        total ≤ ((firstRolls results).map RollResult.total).sum) ∧
      (specification.modifiers.alternatives = [] → OnlyLastCounts passes) := by
  intro total
  have noChance : specification.modifiers.chance = none := by
    by_contra some
    exact summed ((consistent_of_parse accepted).chance some).2.2.2.2.1
  rw [run_roll accepted] at rolled
  simp only [run_bind_eq_ok, run_pure_eq_ok] at rolled
  obtain ⟨all, _, rolls, same, rfl⟩ := rolled
  obtain ⟨rfl, rfl⟩ := Prod.mk.inj same
  obtain ⟨passes, last, makes, ends⟩ := exists_passes specification.modifiers
    (Roller.ofSpecification specification).sequence _ (Nat.zero_add maxPasses) {}
    { session with roller := Roller.ofSpecification specification }
  rw [rolls] at ends
  have lengths : ∀ pass ∈ firstPasses passes, pass.length = choices text := by
    intro pass member
    obtain ⟨made, among, rfl⟩ := List.mem_map.mp member
    obtain ⟨earlier, later, same⟩ := List.append_of_mem among
    rw [(makes.sums_pass summed noChance same).length, length_sequence accepted]
  obtain ⟨rfl, complete⟩ : all = passes.flatMap Prod.snd ∧ (passes.length < maxPasses →
      (Progress.after specification.modifiers {} passes).finished ≠ 0) := by
    cases ends with
    | complete enough => exact ⟨rfl, fun _ => by omega⟩
    | stopped short full => exact ⟨rfl, fun few => absurd full (Nat.ne_of_lt few)⟩
  have gathered := first_rolls_flat_map passes
  have few : (firstPasses passes).length = passes.length := List.length_map _
  have reaches (within : (firstPasses passes).length < maxPasses) :
      total ≤ countedSum (firstPasses passes) :=
    makes.reaches_counted summed noChance once (complete (few ▸ within))
  refine ⟨firstPasses passes, gathered, lengths, ?_,
    fun _ _ _ => makes.tells_counted summed noChance once, reaches, ?_, ?_, ?_⟩
  · rw [few]
    exact makes.few
  · rw [gathered]
    apply tell_running_sums_iff
    · intro pass member
      rw [← List.length_pos_iff, lengths pass member]
      exact choices_pos accepted
    · intro earlier pass later same
      rw [zero_add]
      exact (makes.tells_counted summed noChance once same).2
  · intro zeros within
    rw [gathered, sum_of_passes zeros]
    exact reaches within
  · intro plain pass member result among
    have one := (lengths pass member).trans (choices_of_no_alternatives accepted plain)
    obtain ⟨alone, rfl⟩ := List.length_eq_one_iff.mp one
    cases among

/-- A roll below zero, one that is confirmed, and one that brings the sum to twenty. -/
theorem running_sums_iff_of_three_rolls :
    let text := "Hit = d20-5|c19|total 20".toList
    ∃ title results after,
      (roll text).run.run { source := Source.ofFaces [2, 20, 7, 15] } =
        (.ok (title, results), after) ∧
      results.map RollResult.total = [-3, 15, 2, 10] ∧
      (firstRolls results).map RollResult.total = [-3, 15, 10] ∧
      TellRunningSums 0 (firstRolls results) := by
  intro text
  have asked : (Specification.parse text).map (fun specification =>
      let modifiers := specification.modifiers
      (modifiers.total, modifiers.repeatFor, modifiers.alternatives)) = .ok (20, 1, []) := by
    decide +kernel
  have totals : ((roll text).run.run { source := Source.ofFaces [2, 20, 7, 15] }).1.map
      (fun rolled => (rolled.2.map RollResult.total, (firstRolls rolled.2).map RollResult.total)) =
        .ok ([-3, 15, 2, 10], [-3, 15, 10]) := by decide +kernel
  cases accepted : Specification.parse text with
  | error failure =>
      rw [accepted] at asked
      cases asked
  | ok specification =>
      rw [accepted] at asked
      have parts := Except.ok.inj asked
      simp only [Prod.mk.injEq] at parts
      obtain ⟨total, once, plain⟩ := parts
      rcases rolled : (roll text).run.run { source := Source.ofFaces [2, 20, 7, 15] } with
        ⟨failure | ⟨title, results⟩, after⟩
      · rw [rolled] at totals
        cases totals
      · rw [rolled] at totals
        obtain ⟨shown, first⟩ := Prod.mk.inj (Except.ok.inj totals)
        have summed : specification.modifiers.total ≠ 0 := by
          rw [total]
          decide
        obtain ⟨passes, -, -, -, -, -, told, -, alone⟩ :=
          running_sums_iff accepted summed once rolled
        exact ⟨title, results, after, rfl, shown, first, told.mpr (alone plain)⟩

/-- The second of two alternatives is told without the first, and the last one alone can come to
the sum that all of them together miss. -/
theorem not_tell_running_sums :
    (∃ title results after,
      (roll "d{6/8}|total 10".toList).run.run { source := Source.ofFaces [3, 4, 5, 6] } =
        (.ok (title, results), after) ∧ ¬TellRunningSums 0 (firstRolls results)) ∧
    ∃ title results after,
      (roll "{1-20/5}|total 5".toList).run.run { source := Source.ofFaces [] } =
        (.ok (title, results), after) ∧
      results.length < maxPasses ∧ ((firstRolls results).map RollResult.total).sum < 5 := by
  have sums : ((roll "d{6/8}|total 10".toList).run.run
      { source := Source.ofFaces [3, 4, 5, 6] }).1.map (fun rolled =>
        (firstRolls rolled.2).map fun result => (result.total, sumPart result.details)) =
      .ok [(3, [Fragment.int .cumulative 3]), (4, [Fragment.int .cumulative 4]),
        (5, [Fragment.int .cumulative 9]), (6, [Fragment.int .cumulative 10])] := by
    decide +kernel
  have missed : ((roll "{1-20/5}|total 5".toList).run.run { source := Source.ofFaces [] }).1.map
      (fun rolled => (rolled.2.length, (firstRolls rolled.2).map RollResult.total)) =
        .ok (2, [-19, 5]) := by
    decide +kernel
  constructor
  · rcases rolled : (roll "d{6/8}|total 10".toList).run.run
        { source := Source.ofFaces [3, 4, 5, 6] } with ⟨failure | ⟨title, results⟩, after⟩
    · rw [rolled] at sums
      cases sums
    · rw [rolled] at sums
      refine ⟨title, results, after, rfl, ?_⟩
      intro told
      obtain ⟨one, _, whole, first, rest⟩ := List.map_eq_cons_iff.mp (Except.ok.inj sums)
      obtain ⟨two, _, rfl, second, -⟩ := List.map_eq_cons_iff.mp rest
      obtain ⟨three, -⟩ := Prod.mk.inj first
      obtain ⟨four, alone⟩ := Prod.mk.inj second
      rw [whole, tell_running_sums_cons, tell_running_sums_cons, three, four] at told
      have both : (0 + 3 + 4 : Int) = 4 := told.2.1.unique alone
      exact absurd both (by decide)
  · rcases rolled : (roll "{1-20/5}|total 5".toList).run.run { source := Source.ofFaces [] } with
      ⟨failure | ⟨title, results⟩, after⟩
    · rw [rolled] at missed
      cases missed
    · rw [rolled] at missed
      obtain ⟨two, totals⟩ := Prod.mk.inj (Except.ok.inj missed)
      refine ⟨title, results, after, rfl, ?_, ?_⟩
      · dsimp only at two
        rw [two]
        decide
      · dsimp only at totals
        rw [totals]
        decide

end SessionM

end TabletopDice
