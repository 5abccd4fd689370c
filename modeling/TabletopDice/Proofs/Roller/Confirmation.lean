import TabletopDice.Proofs.Dice.Limits
import TabletopDice.Proofs.Dice.SingleDie
import TabletopDice.Proofs.Roller.Consistency
import TabletopDice.Proofs.Roller.Work

/-!
Confirmation of critical rolls. A roll whose natural face is a threat is rolled once more
with a bonus, before anything else is rolled, and any other roll stands alone. The second
roll is told behind the first one and confirms nothing but it; what the passes count and
what is compared with a target, a sum or a difficulty comes from first rolls.
-/

namespace TabletopDice

def Modifiers.threatOf (modifiers : Modifiers) (die : DieGroup) : Int :=
  if 0 < modifiers.threat then modifiers.threat else die.sides

/-- An elementary roll with what confirms it, and how both are described. -/
structure CriticalRoll where
  dice : Dice
  /-- The passes before it. -/
  pass : Nat
  /-- What the passes of the current repetition added up to. -/
  sum : Int
  first : Evaluation
  description : List Fragment
  second : Option (Evaluation × List Fragment)
  /-- The sources in front of the roll, behind it, and behind what confirms it. -/
  before : Source
  between : Source
  after : Source

namespace CriticalRoll

def results (modifiers : Modifiers) (roll : CriticalRoll) : List RollResult :=
  { total := roll.first.total
    details := roll.description ++
      modifiers.optionFragments (some (roll.first.total, roll.pass, roll.sum)) } ::
  roll.second.toList.map fun (second, description) =>
    { total := second.total, details := ⟨.confirmLabel, "Confirm:".toList⟩ :: description }

/-- The second roll is made right behind the first one. Its total is the value of the expression
with the bonus, within the limits. -/
structure IsConfirmed (modifiers : Modifiers) (roll : CriticalRoll) (second : Evaluation)
    (description : List Fragment) : Prop where
  rolled : (roll.dice.roll modifiers.confirmBonus).run.run roll.between = (.ok second, roll.after)
  described : roll.dice.describe (some second) modifiers.automaticMessages modifiers.confirmBonus =
    .ok description
  total : ∃ plain, (roll.dice.unlimited.roll 0).run.run roll.between = (.ok plain, roll.after) ∧
    second.total = roll.dice.limits.clamp (plain.total + modifiers.confirmBonus)

structure IsMade (modifiers : Modifiers) (roll : CriticalRoll) : Prop where
  rolled : (roll.dice.roll 0).run.run roll.before = (.ok roll.first, roll.between)
  described : roll.dice.describe (some roll.first) modifiers.automaticMessages 0 =
    .ok roll.description
  threatens : ∃ die, roll.dice.dieGroups = [die] ∧ die.numerator = 1 ∧
    (roll.second.isSome = true ↔ modifiers.threatOf die ≤ roll.first.natural)
  alone : roll.second = none → roll.after = roll.between
  confirmed : ∀ second description, roll.second = some (second, description) →
    roll.IsConfirmed modifiers second description

/-- The rolls of one pass, with what was known before it. -/
structure IsPass (modifiers : Modifiers) (sequence : List (Except Failure Dice)) (pass : Nat)
    (sum : Int) (rolls : List CriticalRoll) : Prop where
  dice : rolls.map (fun roll => .ok roll.dice) = sequence
  made : ∀ roll ∈ rolls, roll.pass = pass ∧ roll.sum = sum ∧ roll.IsMade modifiers

inductive Follow : Source → List CriticalRoll → Source → Prop
  | nil (source : Source) : Follow source [] source
  | cons {roll : CriticalRoll} {rolls : List CriticalRoll} {last : Source}
      (behind : Follow roll.after rolls last) : Follow roll.before (roll :: rolls) last

theorem Follow.append {start middle last : Source} {rolls more : List CriticalRoll}
    (first : Follow start rolls middle) (second : Follow middle more last) :
    Follow start (rolls ++ more) last := by
  induction first with
  | nil source => exact second
  | cons _ ih => exact .cons (ih second)

/-- What a pass counts: the first roll of its last dice. -/
def counted (start : Int) (rolls : List CriticalRoll) : Int :=
  (rolls.getLast?.map fun roll => roll.first.total).getD start

theorem counted_cons (start : Int) (roll : CriticalRoll) (rolls : List CriticalRoll) :
    counted start (roll :: rolls) = counted roll.first.total rolls := by
  unfold counted
  rw [List.getLast?_cons]
  cases rolls.getLast? with
  | none => rfl
  | some last => rfl

def kept (modifiers : Modifiers) (rolls : List CriticalRoll) : Int × List RollResult :=
  (counted 0 rolls, rolls.flatMap (results modifiers))

theorem flat_map_kept (modifiers : Modifiers) (course : List (List CriticalRoll)) :
    (course.map (kept modifiers)).flatMap Prod.snd =
      course.flatten.flatMap (results modifiers) := by
  induction course with
  | nil => rfl
  | cons rolls course ih =>
      rw [List.map_cons, List.flatMap_cons, List.flatten_cons, List.flatMap_append, ih]
      rfl

end CriticalRoll

namespace Dice

/-- Dice that can be rolled show the side of their only die, and the highest is the threat. -/
theorem threat_of_die {modifiers : Modifiers} {dice : Dice} (rollable : Rollable modifiers dice)
    {die : DieGroup} (single : dice.dieGroups = [die]) (one : die.numerator = 1) {bonus : Int}
    {source after : Source} {evaluation : Evaluation}
    (rolled : (dice.roll bonus).run.run source = (.ok evaluation, after)) :
    1 ≤ evaluation.natural ∧ evaluation.defaultThreat = die.sides := by
  have only : dice.singleDie? = some die := by rw [singleDie?, single]
  obtain ⟨natural, -⟩ :=
    (sound_evaluate_natural rollable.wellFormed only one false bonus).of_ok trivial rolled
  refine ⟨natural, ?_⟩
  obtain ⟨outcome, -, seen, -⟩ := run_evaluate_of_die single rolled
  have same : evaluation.natural = outcome.natural :=
    (congrArg Prod.fst seen).trans (natural_of_first die outcome 0)
  have shown : outcome.natural ≠ naturalNone := by
    unfold naturalNone
    omega
  rw [nextNatural, if_neg shown, if_pos rfl] at seen
  exact congrArg Prod.snd seen

end Dice

namespace SessionM

open CriticalRoll

variable {modifiers : Modifiers} {dice : Dice} {session after : Session}

/-- A natural face below the threat confirms nothing and draws nothing, unless the roll is
maximized. -/
theorem confirm_roll_eq_ok {first : Evaluation} {results : List RollResult}
    (rolled : (confirmRoll modifiers dice first).run.run session = (.ok results, after)) :
    let threat : Int := if 0 < modifiers.threat then modifiers.threat else first.defaultThreat
    (modifiers.maximized = false ∧ first.natural < threat ∧ results = [] ∧ after = session) ∨
      ((modifiers.maximized = true ∨ threat ≤ first.natural) ∧ ∃ second description,
        (evaluate modifiers dice modifiers.confirmBonus).run.run session = (.ok second, after) ∧
        dice.describe (some second) modifiers.automaticMessages modifiers.confirmBonus =
          .ok description ∧
        results = [{
          total := second.total
          details := ⟨.confirmLabel, "Confirm:".toList⟩ :: description ++
            modifiers.maximizedFragments }]) := by
  intro threat
  rw [confirmRoll, run_guard_eq_ok, run_guard_eq_ok] at rolled
  obtain ⟨-, -, rolled⟩ := rolled
  simp only [Bool.and_eq_true, Bool.not_eq_true', decide_eq_true_eq] at rolled
  -- The threat is the one that is asked for, or else the highest side.
  by_cases asked : 0 < modifiers.threat
  all_goals
    simp only [threat, asked, if_true, if_false] at rolled ⊢
    split at rolled
    next below =>
      obtain ⟨rfl, rfl⟩ := run_pure_eq_ok.mp rolled
      exact .inl ⟨below.1, below.2, rfl, rfl⟩
    next reached =>
      simp only [run_bind_eq_ok, run_pure_eq_ok, of_except_eq_ok] at rolled
      obtain ⟨second, _, drawn, description, _, ⟨described, rfl⟩, rfl, rfl⟩ := rolled
      refine .inr ⟨?_, second, description, drawn, described, rfl⟩
      cases whole : modifiers.maximized with
      | true => exact .inl rfl
      | false => exact .inr (Int.not_lt.mp fun below => reached ⟨whole, below⟩)

theorem roll_dice_eq_ok (noChance : modifiers.chance = none) {pass : Nat} {sum value : Int}
    {results : List RollResult}
    (rolled : (rollDice modifiers pass sum dice).run.run session = (.ok (value, results), after)) :
    ∃ first middle description confirmation,
      (evaluate modifiers dice 0).run.run session = (.ok first, middle) ∧
      dice.describe (some first) modifiers.automaticMessages 0 = .ok description ∧
      (if modifiers.confirm then confirmRoll modifiers dice first else pure []).run.run middle =
        (.ok confirmation, after) ∧
      value = first.total ∧
      results = {
        total := first.total
        details := description ++ modifiers.optionFragments (some (first.total, pass, sum)) ++
          modifiers.maximizedFragments } :: confirmation := by
  simp only [rollDice, noChance, run_bind_eq_ok, of_except_eq_ok] at rolled
  obtain ⟨first, middle, drawn, description, _, ⟨described, rfl⟩, _, _, ⟨-, rfl⟩, rolled⟩ := rolled
  refine ⟨first, middle, description, ?_⟩
  split at rolled
  next asked =>
    simp only [run_bind_eq_ok, run_pure_eq_ok] at rolled
    obtain ⟨confirmation, _, confirmed, same, rfl⟩ := rolled
    obtain ⟨rfl, rfl⟩ := Prod.mk.inj same
    rw [if_pos asked]
    exact ⟨confirmation, drawn, described, confirmed, rfl, rfl⟩
  next unasked =>
    obtain ⟨same, rfl⟩ := run_pure_eq_ok.mp rolled
    obtain ⟨rfl, rfl⟩ := Prod.mk.inj same
    rw [if_neg unasked]
    exact ⟨[], drawn, described, rfl, rfl, rfl⟩

section Critical

variable (confirms : modifiers.confirm = true) (plain : modifiers.maximized = false)
  (noChance : modifiers.chance = none) {sequence : List (Except Failure Dice)}
  {results : List RollResult} {value : Int}

include confirms plain noChance

theorem made_of_roll_dice (rollable : Rollable modifiers dice) {pass : Nat} {sum : Int}
    (rolled : (rollDice modifiers pass sum dice).run.run session = (.ok (value, results), after)) :
    ∃ roll : CriticalRoll, roll.dice = dice ∧ roll.pass = pass ∧ roll.sum = sum ∧
      roll.before = session.source ∧ roll.after = after.source ∧ roll.first.total = value ∧
      roll.results modifiers = results ∧ roll.IsMade modifiers := by
  have needed : modifiers.needsSingleDie = true := by simp [Modifiers.needsSingleDie, confirms]
  obtain ⟨die, single, one⟩ := rollable.single needed
  have unmarked : modifiers.maximizedFragments = [] := by simp [Modifiers.maximizedFragments, plain]
  obtain ⟨first, middle, description, confirmation, drawn, described, confirmed, rfl, rfl⟩ :=
    roll_dice_eq_ok noChance rolled
  rw [if_pos confirms] at confirmed
  rw [unmarked, List.append_nil]
  have before := evaluate_eq_ok drawn
  rw [plain] at before
  have only : dice.dieGroups = [die] := Dice.die_groups_of_single single
  obtain ⟨natural, highest⟩ := Dice.threat_of_die rollable only one before
  have threat : (if 0 < modifiers.threat then (modifiers.threat : Int) else first.defaultThreat) =
      modifiers.threatOf die := by
    rw [highest, Modifiers.threatOf]
  have confirming := confirm_roll_eq_ok confirmed
  simp only [threat, plain, unmarked, Bool.false_eq_true, false_or, true_and,
    List.append_nil] at confirming
  rcases confirming with ⟨below, rfl, alone⟩ | ⟨reached, second, telling, drawn, shown, rfl⟩
  · refine ⟨{
      dice, pass, sum, first, description, second := none
      before := session.source, between := middle.source, after := middle.source },
      rfl, rfl, rfl, rfl, congrArg Session.source alone.symm, rfl, rfl, before, described,
      ⟨die, only, one, ?_⟩, fun _ => rfl, ?_⟩
    · exact iff_of_false Bool.false_ne_true (Int.not_le.mpr below)
    · intro _ _ impossible
      cases impossible
  · refine ⟨{
      dice, pass, sum, first, description, second := some (second, telling)
      before := session.source, between := middle.source, after := after.source },
      rfl, rfl, rfl, rfl, rfl, rfl, rfl, before, described, ⟨die, only, one, ?_⟩, ?_, ?_⟩
    · exact iff_of_true rfl reached
    · intro impossible
      cases impossible
    · have again := evaluate_eq_ok drawn
      rw [plain] at again
      intro _ _ same
      cases same
      exact ⟨again, shown, Dice.run_evaluate_unlimited again⟩

theorem made_of_roll_sequence
    (rollable : ∀ result ∈ sequence, ∃ dice, result = .ok dice ∧ Rollable modifiers dice)
    {pass : Nat} {sum start : Int}
    (rolled : (rollSequence modifiers pass sum start sequence).run.run session =
      (.ok (value, results), after)) :
    ∃ rolls, IsPass modifiers sequence pass sum rolls ∧ Follow session.source rolls after.source ∧
      value = counted start rolls ∧ results = rolls.flatMap (CriticalRoll.results modifiers) := by
  induction sequence generalizing start session value results with
  | nil =>
      obtain ⟨rfl, rfl, rfl⟩ := roll_sequence_nil_eq_ok rolled
      exact ⟨[], ⟨rfl, fun _ member => absurd member List.not_mem_nil⟩, .nil _, rfl, rfl⟩
  | cons head more ih =>
      obtain ⟨⟨dice, rfl, ready⟩, others⟩ := List.forall_mem_cons.mp rollable
      obtain ⟨_, _, _, _, now, behind, rfl⟩ := roll_sequence_cons_eq_ok rolled
      obtain ⟨roll, rfl, rfl, rfl, before, between, rfl, rfl, made⟩ :=
        made_of_roll_dice confirms plain noChance ready now
      obtain ⟨rolls, ⟨dice, later⟩, follow, rfl, rfl⟩ := ih others behind
      rw [← between] at follow
      refine ⟨roll :: rolls, ⟨by rw [List.map_cons, dice], ?_⟩, ?_, ?_, rfl⟩
      · exact List.forall_mem_cons.mpr ⟨⟨rfl, rfl, made⟩, later⟩
      · exact before ▸ follow.cons
      · exact (counted_cons start roll rolls).symm

theorem made_of_make_passes
    (rollable : ∀ result ∈ sequence, ∃ dice, result = .ok dice ∧ Rollable modifiers dice)
    {count pass : Nat} {progress : Progress} {passes : List (Int × List RollResult)}
    (rolled : (makePasses modifiers sequence count pass progress).run.run session =
      (.ok passes, after)) :
    ∃ course : List (List CriticalRoll), passes = course.map (kept modifiers) ∧
      Follow session.source course.flatten after.source ∧
      ∀ index (made : index < course.length),
        IsPass modifiers sequence (pass + index)
          (progress.after modifiers (passes.take index)).sum course[index] := by
  induction count generalizing pass progress session passes with
  | zero =>
      obtain ⟨rfl, rfl⟩ := run_pure_eq_ok.mp rolled
      exact ⟨[], rfl, .nil _, nofun⟩
  | succ count ih =>
      simp only [makePasses, run_bind_eq_ok, run_pure_eq_ok, Prod.exists] at rolled
      obtain ⟨value, results, middle, now, more, last, behind, rfl, rfl⟩ := rolled
      obtain ⟨rolls, first, follow, rfl, rfl⟩ :=
        made_of_roll_sequence confirms plain noChance rollable now
      obtain ⟨course, rfl, continued, each⟩ := ih behind
      refine ⟨rolls :: course, rfl, follow.append continued, ?_⟩
      intro index made
      cases index with
      | zero => exact first
      | succ index =>
          have next := each index (Nat.lt_of_succ_lt_succ made)
          rwa [Nat.add_assoc, Nat.add_comm 1 index] at next

end Critical

/-- An accepted specification with a confirmation clause, rolled without being maximized, makes the
passes that it needs, each over the whole sequence. What is told are first rolls, each with the
one roll that confirms it if its natural face is a threat. The value of a pass, and so the
number of passes, the sum and all margins, come from first rolls. -/
theorem roll_confirms {text : Text} {specification : Specification}
    (accepted : Specification.parse text = .ok specification)
    (confirms : specification.modifiers.confirm = true)
    (plain : specification.modifiers.maximized = false) (session : Session) :
    let modifiers := specification.modifiers
    let sequence := (Roller.ofSpecification specification).sequence
    ∃ (course : List (List CriticalRoll)) (source : Source),
      Follow session.source course.flatten source ∧
      ∀ values : ℕ → ℤ,
        (∀ pass (made : pass < course.length), values pass = counted 0 course[pass]) →
        let most := min (maxPasses : ℕ∞) (modifiers.passesNeeded values)
        (∀ pass (made : pass < course.length),
          IsPass modifiers sequence pass (modifiers.progressAfter values pass).sum course[pass]) ∧
        ((course.length = most ∧ ∃ last, last.source = source ∧
            (roll text).run.run session =
              (.ok (modifiers.title, course.flatten.flatMap (CriticalRoll.results modifiers)),
                last)) ∨
          (course.length < most ∧ ∃ failure last, failure.IsNumerical ∧
            (roll text).run.run session = (.error failure, last))) := by
  intro modifiers sequence
  let start : Session := { session with roller := Roller.ofSpecification specification }
  let name := if modifiers.title.isEmpty then text else modifiers.title
  have noChance : modifiers.chance = none := by
    by_contra some
    have refuses := ((Specification.consistent_of_parse accepted).chance some).2.1
    exact absurd (confirms.symm.trans refuses) (by decide)
  have rollable := (Specification.ready_of_parse accepted).rollable
  obtain ⟨passes, after, makes, ends⟩ :=
    exists_passes modifiers sequence name (Nat.zero_add maxPasses) {} start
  obtain ⟨course, rfl, follow, each⟩ :=
    made_of_make_passes confirms plain noChance rollable makes.made
  refine ⟨course, after.source, follow, ?_⟩
  intro values same most
  have counts : ∀ pass (made : pass < (course.map (kept modifiers)).length),
      values pass = (course.map (kept modifiers))[pass].1 := by
    intro pass made
    rw [List.getElem_map]
    exact same pass (by simpa using made)
  constructor
  · intro pass made
    have known := each pass made
    rw [Nat.zero_add, Progress.after_take counts (by simpa using Nat.le_of_lt made)] at known
    exact known
  · obtain ⟨complete, failed⟩ := ends.passes_made makes counts
    have rolled := run_roll accepted session
    have settles := settles_roll accepted session
    rw [run_bind] at rolled
    rw [rolled] at settles
    rw [List.length_map] at complete failed
    rw [rolled]
    generalize (rollPasses modifiers sequence name maxPasses {}).run.run start = run
      at ends complete failed settles ⊢
    cases ends with
    | complete | stopped =>
        obtain ⟨-, number⟩ := complete _ rfl
        rw [flat_map_kept]
        refine .inl ⟨number, _, ?_, rfl⟩
        rfl
    | failed =>
        have early : (course.length : ℕ∞) < course.length + 1 := by
          exact_mod_cast Nat.lt_succ_self course.length
        exact .inr ⟨early.trans_le (failed _ rfl), _, _, settles, rfl⟩

/-- A twenty is confirmed with the bonus, and a five is not. -/
theorem roll_confirms_of_one_threat :
    let text := "d20+4|c15+2|repeat 2".toList
    let session : Session := { source := Source.ofFaces [20, 3, 5] }
    ∃ (specification : Specification) (course : List (List CriticalRoll)) (source : Source),
      Specification.parse text = .ok specification ∧ specification.modifiers.confirm = true ∧
      specification.modifiers.maximized = false ∧ course.length = 2 ∧
      Follow session.source course.flatten source ∧
      (course.flatten.flatMap (CriticalRoll.results specification.modifiers)).map
        RollResult.total = [24, 9, 9] ∧
      ∀ rolls ∈ course, ∀ roll ∈ rolls, roll.IsMade specification.modifiers := by
  intro text session
  have asked : (Specification.parse text).map (fun specification =>
      let modifiers := specification.modifiers
      (modifiers.confirm, modifiers.maximized, modifiers.total, modifiers.target,
        modifiers.repeatFor)) = .ok (true, false, 0, 0, 2) := by decide +kernel
  have totals : ((roll text).run.run session).1.map (fun rolled =>
      rolled.2.map RollResult.total) = .ok [24, 9, 9] := by decide +kernel
  cases accepted : Specification.parse text with
  | error failure =>
      rw [accepted] at asked
      cases asked
  | ok specification =>
      rw [accepted] at asked
      have parts := Except.ok.inj asked
      simp only [Prod.mk.injEq] at parts
      obtain ⟨confirms, plain, single, aimless, twice⟩ := parts
      obtain ⟨course, source, follow, each⟩ := roll_confirms accepted confirms plain session
      have known (pass : ℕ) (made : pass < course.length) :
          counted 0 (course[pass]?.getD []) = counted 0 course[pass] := by
        rw [List.getElem?_eq_getElem made, Option.getD_some]
      obtain ⟨made, ⟨all, last, -, rolled⟩ | ⟨-, failure, last, -, rolled⟩⟩ := each _ known
      · have needed := all
        rw [Modifiers.passesNeeded, single, aimless, twice, if_neg (not_not.mpr rfl),
          if_neg (not_not.mpr rfl)] at needed
        have few : ((2 : ℕ) : ℕ∞) ≤ maxPasses := Nat.cast_le.mpr (by decide)
        have two : course.length = 2 := Nat.cast_inj.mp (needed.trans (min_eq_right few))
        rw [rolled] at totals
        refine ⟨specification, course, source, rfl, confirms, plain, two, follow,
          Except.ok.inj totals, ?_⟩
        intro rolls member roll rolledIn
        obtain ⟨pass, within, rfl⟩ := List.getElem_of_mem member
        exact ((made pass within).made roll rolledIn).2.2
      · rw [rolled] at totals
        cases totals

end SessionM

end TabletopDice
