import TabletopDice.Proofs.Dice.Attempts
import TabletopDice.Proofs.Dice.Telling

/-!
The only die of an expression. All draws of a roll are those of the die, and the natural
face is told by the face that it records. A bonus or a fraction changes that face before
it is recorded, so the natural face is the side of the die, and automatic success and
failure tell its highest and its lowest side, just for a die that has neither of them.
-/

namespace TabletopDice

namespace Dice

variable {maximize : Bool} {source after : Source}

theorem run_evaluate_of_die {dice : Dice} {die : DieGroup} (single : dice.dieGroups = [die])
    {bonus : Int} {evaluation : Evaluation}
    (rolled : (dice.evaluate maximize bonus).run.run source = (.ok evaluation, after)) :
    ∃ outcome, (die.roll maximize).run.run source = (.ok outcome, after) ∧
      (evaluation.natural, evaluation.defaultThreat) =
        nextNatural (naturalNone, 0) die outcome ∧
      evaluation.outcomes.findSome? id = some outcome := by
  exact feeds_of_die single (feeds_of_evaluate rolled)

theorem numbers_of_no_die {row : List Component}
    (none : row.filterMap Component.dieGroup? = []) (outcomes : List (Option DieOutcome)) :
    flatMapShown Component.numbers row outcomes = [] := by
  induction row generalizing outcomes with
  | nil => rfl
  | cons component row ih =>
      have noDie : component.dieGroup? = Option.none :=
        List.filterMap_eq_nil_iff.mp none component List.mem_cons_self
      rw [List.filterMap_cons_none noDie] at none
      have silent := Component.numbers_of_no_die noDie
      cases outcomes with
      | nil => rw [flatMapShown, silent, ih none, List.nil_append]
      | cons outcome outcomes => rw [flatMapShown, silent, ih none, List.nil_append]

theorem numbers_of_die {row : List Component} {die : DieGroup}
    (single : row.filterMap Component.dieGroup? = [die]) {natural seen : Int × Int}
    {outcomes : List (Option DieOutcome)} {outcome : DieOutcome}
    (feeds : Feeds maximize row natural source outcomes seen after)
    (shown : outcomes.findSome? id = some outcome) :
    flatMapShown Component.numbers row outcomes = die.numbers (some outcome) := by
  induction feeds with
  | nil => cases single
  | die =>
      obtain ⟨rfl, alone⟩ := List.cons.inj single
      cases shown
      rw [flatMapShown, numbers_of_no_die alone, List.append_nil]
      rfl
  | other noDie _ ih =>
      rw [List.filterMap_cons_none noDie] at single
      rw [flatMapShown, Component.numbers_of_no_die noDie, List.nil_append]
      exact ih single shown

end Dice

namespace DieGroup

variable {die : DieGroup} {source after : Source} {outcome : DieOutcome}

theorem run_roll_eq_ok (rolled : (die.roll false).run.run source = (.ok outcome, after)) :
    1 ≤ die.sides ∧ outcome = die.outcomeOf false (die.attemptsOn source) ∧
      after = source.skip die.draws := by
  by_cases sides : die.sides ≤ 0
  · rw [roll, if_pos sides] at rolled
    cases rolled
  · by_cases rerolls : die.rerolls < 0
    · rw [roll, if_neg sides, if_neg Bool.false_ne_true, if_pos rerolls] at rolled
      cases rolled
    · rw [run_roll source (by omega) (by omega)] at rolled
      cases rolled
      exact ⟨by omega, rfl, rfl⟩

theorem natural_of_single (one : die.numerator = 1) (maximized : Bool)
    (attempts : List (List Int)) :
    let outcome := die.outcomeOf maximized attempts
    outcome.natural = (outcome.attempts[outcome.chosen]?.getD []).headD 0 - die.dieBonus := by
  rw [outcomeOf, one, List.getD_eq_getElem?_getD]
  rfl

/-- The side of a single die in the attempt that counts makes up its value and its natural face. -/
theorem outcome_of_single (one : die.numerator = 1)
    (rolled : (die.roll false).run.run source = (.ok outcome, after)) :
    let side := die.side source outcome.chosen 0
    1 ≤ side ∧ side ≤ die.sides ∧ outcome.value = die.adjust side ∧
      outcome.natural = die.adjust side - die.dieBonus := by
  obtain ⟨sides, rfl, -⟩ := run_roll_eq_ok rolled
  intro side
  obtain ⟨lower, upper⟩ := side_bounds sides source
    (die.outcomeOf false (die.attemptsOn source)).chosen 0
  obtain ⟨counted, sum⟩ := die.chosen_faces false source
  have faces (attempt : Nat) : die.facesOn source attempt =
      [die.adjust (die.side source attempt 0)] := by
    rw [facesOn, one]
    rfl
  rw [faces] at counted sum
  have natural := natural_of_single one false (die.attemptsOn source)
  dsimp only at natural
  rw [counted] at natural
  exact ⟨lower, upper, sum.trans (Int.add_zero _), natural⟩

/-- What is recorded of the side tells it: the natural face is the side, and the lowest and the
highest side can be seen from the value. -/
structure Tells (die : DieGroup) (side : Int) : Prop where
  natural : die.adjust side - die.dieBonus = side
  lowest : die.adjust side = 1 ↔ side = 1
  highest : die.adjust side = die.sides ∧ die.adjust side ≠ 1 ↔ side = die.sides ∧ side ≠ 1

theorem adjust_of_plain (plain : die.dieBonus = 0) (side : Int) :
    die.adjust side = if 0 < die.denominator then max 1 (side / die.denominator) else side := by
  unfold adjust
  dsimp only
  rw [plain, Int.add_zero]
  split
  next divided => rw [Int.fdiv_eq_ediv_of_nonneg _ (Int.le_of_lt divided)]
  next => rfl

/-- A die tells each of its sides just if no bonus is added to it and it is not divided; a die with
one side may be divided. -/
theorem tells_iff (sides : 1 ≤ die.sides) :
    (∀ side, 1 ≤ side → side ≤ die.sides → die.Tells side) ↔
      die.dieBonus = 0 ∧ (die.denominator ≤ 1 ∨ die.sides = 1) := by
  constructor
  · intro tells
    have lowest := tells 1 (Int.le_refl 1) sides
    have plain : die.dieBonus = 0 := by
      have natural := lowest.natural
      have value := lowest.lowest.mpr rfl
      omega
    refine ⟨plain, ?_⟩
    by_contra divided
    -- Half of the second side is at most the first one.
    have second := (tells 2 (by decide) (by omega)).natural
    have half : (2 : Int) / die.denominator < 2 :=
      Int.ediv_lt_of_lt_mul (by omega) (by omega)
    rw [adjust_of_plain plain, if_pos (by omega), plain] at second
    omega
  · rintro ⟨plain, undivided⟩ side lower upper
    have same : die.adjust side = side := by
      rw [adjust_of_plain plain]
      split
      next divided =>
        rcases undivided with whole | single
        · obtain one : die.denominator = 1 := by omega
          rw [one, Int.ediv_one]
          omega
        · obtain rfl : side = 1 := by omega
          have part := Int.ediv_le_self die.denominator (by decide : (0 : Int) ≤ 1)
          omega
      next => rfl
    exact ⟨by rw [same, plain, Int.sub_zero], by rw [same], by rw [same]⟩

end DieGroup

namespace Dice

def StartsWith (kind : FragmentKind) (fragments : List Fragment) : Prop :=
  fragments.head?.map Fragment.kind = some kind

section Describing

variable {dice : Dice} {die : DieGroup} {evaluation : Evaluation} {outcome : DieOutcome}

theorem automatic_fragments_of_die (single : dice.dieGroups = [die]) (one : die.numerator = 1)
    (shown : evaluation.outcomes.findSome? id = some outcome) (success fail : Text) :
    ∃ marker, dice.automaticFragments evaluation success fail = .ok marker ∧
      ∀ rest, (StartsWith .fail (marker ++ Fragment.int .result evaluation.total :: rest) ↔
          outcome.value = 1) ∧
        (StartsWith .success (marker ++ Fragment.int .result evaluation.total :: rest) ↔
          outcome.value = die.sides ∧ outcome.value ≠ 1) := by
  have only : dice.singleDie? = some die := by rw [singleDie?, single]
  have told : dice.automaticFragments evaluation success fail =
      .ok (if outcome.value = 1 then [⟨.fail, fail⟩]
        else if outcome.value = die.sides then [⟨.success, success⟩] else []) := by
    simp only [automaticFragments, only, one, ne_eq, not_true_eq_false, if_false, shown]
    rfl
  refine ⟨_, told, fun rest => ?_⟩
  by_cases lowest : outcome.value = 1
  · rw [if_pos lowest]
    exact ⟨iff_of_true rfl lowest, iff_of_false nofun fun highest => highest.2 lowest⟩
  · rw [if_neg lowest]
    by_cases highest : outcome.value = die.sides
    · rw [if_pos highest]
      exact ⟨iff_of_false nofun lowest, iff_of_true rfl ⟨highest, lowest⟩⟩
    · rw [if_neg highest]
      exact ⟨iff_of_false nofun lowest, iff_of_false nofun fun both => highest both.1⟩

theorem describe_of_die (single : dice.dieGroups = [die]) (one : die.numerator = 1)
    (shown : evaluation.outcomes.findSome? id = some outcome) (success fail : Text) (bonus : Int) :
    ((∃ fragments, dice.describe (some evaluation) (some (success, fail)) bonus = .ok fragments) ↔
      (evaluation.total :: dice.bodyNumbers evaluation.outcomes bonus).all Text.isTellable = true) ∧
    ∀ fragments, dice.describe (some evaluation) (some (success, fail)) bonus = .ok fragments →
      (StartsWith .fail fragments ↔ outcome.value = 1) ∧
      (StartsWith .success fragments ↔ outcome.value = die.sides ∧ outcome.value ≠ 1) := by
  obtain ⟨marker, told, starts⟩ := automatic_fragments_of_die single one shown success fail
  have described : dice.describe (some evaluation) (some (success, fail)) bonus =
      if (evaluation.total :: dice.bodyNumbers evaluation.outcomes bonus).all Text.isTellable = true
      then .ok (marker ++ [Fragment.int .result evaluation.total, ⟨.separator, ['=']⟩] ++
        dice.bodyFragments evaluation.outcomes bonus)
      else .error (.number .tooManyDigits) := by
    simp only [describe, totalFragments, told, tellBody, requireTellable]
    cases total : Text.isTellable evaluation.total <;>
      cases body : (dice.bodyNumbers evaluation.outcomes bonus).all Text.isTellable <;>
      simp only [List.all_cons, List.all_nil, total, body] <;>
      rfl
  rw [described]
  split
  next tellable =>
    refine ⟨iff_of_true ⟨_, rfl⟩ tellable, ?_⟩
    intro fragments succeeded
    rw [← Except.ok.inj succeeded, List.append_assoc]
    exact starts _
  next untellable =>
    refine ⟨iff_of_false ?_ untellable, ?_⟩
    · rintro ⟨_, ⟨⟩⟩
    · rintro _ ⟨⟩

end Describing

/-- Of a roll with a single die the natural face is the recorded face without the bonus, and
automatic success and failure look at the recorded face with it. So both tell the side that the die
shows, whichever it is, just if the die has no bonus and is not divided. -/
theorem natural_tells_side {dice : Dice} {die : DieGroup} (single : dice.dieGroups = [die])
    (one : die.numerator = 1) {bonus : Int} {source after : Source} {evaluation : Evaluation}
    (rolled : (dice.roll bonus).run.run source = (.ok evaluation, after)) :
    ∃ outcome, (die.roll false).run.run source = (.ok outcome, after) ∧
      let side := die.side source outcome.chosen 0
      1 ≤ side ∧ side ≤ die.sides ∧
      evaluation.natural = die.adjust side - die.dieBonus ∧
      (∀ success fail more,
        ((∃ fragments, dice.describe (some evaluation) (some (success, fail)) more = .ok fragments) ↔
          (evaluation.total :: die.requestNumbers ++ die.outcomeNumbers outcome ++
            [more, dice.limits.minimum, dice.limits.maximum]).all Text.isTellable = true) ∧
        ∀ fragments, dice.describe (some evaluation) (some (success, fail)) more = .ok fragments →
          (StartsWith .fail fragments ↔ die.adjust side = 1) ∧
          (StartsWith .success fragments ↔ die.adjust side = die.sides ∧ die.adjust side ≠ 1)) ∧
      ((∀ other, 1 ≤ other → other ≤ die.sides → die.Tells other) ↔
        die.dieBonus = 0 ∧ (die.denominator ≤ 1 ∨ die.sides = 1)) := by
  obtain ⟨outcome, drawn, seen, shown⟩ := run_evaluate_of_die single rolled
  obtain ⟨lower, upper, value, natural⟩ := DieGroup.outcome_of_single one drawn
  refine ⟨outcome, drawn, lower, upper, ?_, ?_, DieGroup.tells_iff (by omega)⟩
  · rw [← natural, ← natural_of_first die outcome 0, ← seen]
  · intro success fail more
    rw [← value]
    have body : dice.bodyNumbers evaluation.outcomes more = die.requestNumbers ++
        die.outcomeNumbers outcome ++ [more, dice.limits.minimum, dice.limits.maximum] := by
      rw [bodyNumbers, numbers_of_die single (feeds_of_evaluate rolled) shown]
      rfl
    have described := describe_of_die single one shown success fail more
    rwa [body] at described

/-- The better of two attempts is the forced one, and its side is told. -/
theorem natural_tells_side_of_forced_die :
    let die : DieGroup := { sides := 20, rerolls := 1, initialMax := true, label := ['x'] }
    let dice : Dice :=
      { components := [.constant (Double.ofDecimal ['4'] []) [], .operator .subtract, .die die] }
    let source := Source.ofFaces [3]
    dice.dieGroups = [die] ∧ die.numerator = 1 ∧
      ∃ evaluation after outcome, (dice.roll 0).run.run source = (.ok evaluation, after) ∧
        (die.roll false).run.run source = (.ok outcome, after) ∧
        die.side source outcome.chosen 0 = 20 ∧ evaluation.natural = 20 ∧
        ∀ success fail, ∃ fragments,
          dice.describe (some evaluation) (some (success, fail)) 0 = .ok fragments ∧
            StartsWith .success fragments := by
  intro die dice source
  have single : dice.dieGroups = [die] := by decide
  have one : die.numerator = 1 := by decide
  have total : ((dice.roll 0).run.run source).1.map Evaluation.total = .ok (-16) := by
    decide +kernel
  rcases rolled : (dice.roll 0).run.run source with ⟨failure | evaluation, after⟩
  · rw [rolled] at total
    cases total
  · obtain ⟨outcome, drawn, -, -, natural, told, -⟩ := natural_tells_side single one rolled
    have best : ((die.roll false).run.run source).1 =
        .ok { value := 20, attempts := [[20], [3]], chosen := 0, natural := 20, maximized := false } := by
      decide +kernel
    rw [rolled] at total
    rw [drawn] at best
    cases best
    have same : evaluation.total = -16 := Except.ok.inj total
    refine ⟨single, one, evaluation, after, _, rfl, drawn, by decide, natural, ?_⟩
    intro success fail
    obtain ⟨described, starts⟩ := told success fail 0
    rw [same] at described
    obtain ⟨fragments, given⟩ := described.mpr (by decide +kernel)
    exact ⟨fragments, given, (starts fragments given).2.mpr (by decide)⟩

/-- The highest side of a halved die is not its natural face and does not succeed, and with a bonus
a side in the middle does. -/
theorem not_natural_tells_side :
    let half : DieGroup := { sides := 20, denominator := 2 }
    let raised : DieGroup := { sides := 6, dieBonus := 4 }
    let start (die : DieGroup) (source : Source) : Except Failure (Int × Option FragmentKind) := do
      let dice : Dice := { components := [.die die] }
      let evaluation ← ((dice.roll 0).run.run source).1
      let fragments ← dice.describe (some evaluation) (some (['+'], ['-'])) 0
      return (evaluation.natural, fragments.head?.map Fragment.kind)
    Dice.parse "1/2d20".toList = .ok { components := [.die half] } ∧
      half.side (Source.ofFaces [20]) 0 0 = half.sides ∧
      start half (Source.ofFaces [20]) = .ok (10, some .result) ∧
      Dice.ofDieType 1 6 0 4 0 0 = .ok { components := [.die raised] } ∧
      raised.side (Source.ofFaces [2]) 0 0 = 2 ∧
      start raised (Source.ofFaces [2]) = .ok (2, some .success) := by
  decide +kernel

end Dice

end TabletopDice
