import TabletopDice.Proofs.Dice.Natural
import TabletopDice.Proofs.Dice.Maximum

/-!
What a die group records. Its attempts are a function of the source: each die takes one
draw, attempt by attempt and from left to right, but a forced first die takes none. The
first attempt with the best sum counts, or with the worst, and no sum is beyond what all
dice on their lowest or on their highest side come to.
-/

namespace TabletopDice

namespace Source

/-- The side that a die shows at a draw; the draws are counted from the next one on. -/
def side (source : Source) (sides : Int) (draw : Nat) : Int :=
  1 + source.below (source.drawn + draw) sides.toNat

def skip (source : Source) (draws : Nat) : Source := { source with drawn := source.drawn + draws }

variable (source : Source)

theorem skip_skip (first second : Nat) :
    (source.skip first).skip second = source.skip (first + second) := by
  rw [skip, skip, skip, Nat.add_assoc]

theorem side_skip (sides : Int) (draws draw : Nat) :
    (source.skip draws).side sides draw = source.side sides (draws + draw) := by
  rw [side, side, skip, Nat.add_assoc]

theorem side_bounds {sides : Int} (positive : 1 ≤ sides) (draw : Nat) :
    1 ≤ source.side sides draw ∧ source.side sides draw ≤ sides := by
  have below := source.below_lt (source.drawn + draw) sides.toNat (by omega)
  unfold side
  omega

end Source

namespace DieGroup

variable (group : DieGroup)

/-- The dice that take no draw: the very first one, if it is forced to its highest side. -/
def forcedDice : Nat := if group.initialMax = true ∧ 0 < group.numerator then 1 else 0

def side (source : Source) (attempt die : Nat) : Int :=
  if group.initialMax = true ∧ attempt = 0 ∧ die = 0 then group.sides
  else source.side group.sides (attempt * group.numerator.toNat + die - group.forcedDice)

def facesOn (source : Source) (attempt : Nat) : List Int :=
  (List.range group.numerator.toNat).map fun die => group.adjust (group.side source attempt die)

def attemptsOn (source : Source) : List (List Int) :=
  (List.range (group.rerolls.toNat + 1)).map (group.facesOn source)

def draws : Nat := (group.rerolls.toNat + 1) * group.numerator.toNat - group.forcedDice

theorem attempts_ne_nil (source : Source) : group.attemptsOn source ≠ [] := by
  simp [attemptsOn]

theorem forced_dice_le : group.forcedDice ≤ group.numerator.toNat := by
  unfold forcedDice
  split
  · omega
  · exact Nat.zero_le _

section Runs

variable {group} (source : Source)

theorem run_roll_faces (count : Nat) :
    (group.rollFaces count).run.run source =
      (.ok ((List.range count).map fun die => group.adjust (source.side group.sides die)),
        source.skip count) := by
  induction count generalizing source with
  | zero => rfl
  | succ count ih =>
      have drawn : (group.rollFace).run.run source =
          (.ok (group.adjust (source.side group.sides 0)), source.skip 1) := rfl
      rw [rollFaces, run_bind, drawn]
      dsimp only
      rw [run_bind, ih (source.skip 1), Source.skip_skip, List.range_succ_eq_map, List.map_cons,
        List.map_map, Nat.add_comm 1 count]
      simp only [Source.side_skip, Nat.add_comm 1]
      rfl

theorem run_roll_attempts (count : Nat) :
    (group.rollAttempts count).run.run source =
      (.ok ((List.range count).map fun attempt =>
        (List.range group.numerator.toNat).map fun die =>
          group.adjust (source.side group.sides (attempt * group.numerator.toNat + die))),
        source.skip (count * group.numerator.toNat)) := by
  induction count generalizing source with
  | zero =>
      rw [Nat.zero_mul]
      rfl
  | succ count ih =>
      have first : (group.rollAttempt false).run.run source = _ :=
        run_roll_faces source group.numerator.toNat
      have later (attempt die : Nat) :
          group.numerator.toNat + (attempt * group.numerator.toNat + die) =
            (attempt + 1) * group.numerator.toNat + die := by
        rw [Nat.succ_mul]
        omega
      rw [rollAttempts, run_bind, first]
      dsimp only
      rw [run_bind, ih, Source.skip_skip, List.range_succ_eq_map, List.map_cons, List.map_map,
        Nat.succ_mul, Nat.add_comm (count * _)]
      simp only [Source.side_skip, later, Nat.zero_mul, Nat.zero_add]
      rfl

theorem run_roll_attempt :
    (group.rollAttempt group.initialMax).run.run source =
      (.ok (group.facesOn source 0), source.skip (group.numerator.toNat - group.forcedDice)) := by
  unfold rollAttempt facesOn
  split
  next count forced dice =>
    have one : group.forcedDice = 1 := if_pos ⟨forced, by omega⟩
    have highest : group.side source 0 0 = group.sides := if_pos ⟨forced, rfl, rfl⟩
    have behind (die : Nat) : group.side source 0 (die + 1) = source.side group.sides die := by
      rw [side, if_neg (by omega), one, Nat.zero_mul, Nat.zero_add, Nat.add_sub_cancel]
    rw [run_bind, run_roll_faces, dice, one, List.range_succ_eq_map, List.map_cons, List.map_map,
      highest]
    simp only [Function.comp_def, Nat.succ_eq_add_one, behind]
    rfl
  next unforced =>
    -- There is no die that could be forced, or none is.
    have drawn : ¬(group.initialMax = true ∧ 0 < group.numerator) := by
      rintro ⟨forced, present⟩
      obtain ⟨count, dice⟩ := Nat.exists_eq_succ_of_ne_zero (by omega : group.numerator.toNat ≠ 0)
      exact unforced count forced dice
    have none : group.forcedDice = 0 := if_neg drawn
    have sides : ∀ die ∈ List.range group.numerator.toNat,
        group.side source 0 die = source.side group.sides die := by
      intro die member
      have inside := List.mem_range.mp member
      rw [side, if_neg (fun forced => drawn ⟨forced.1, by omega⟩), none, Nat.zero_mul, Nat.zero_add]
      rfl
    rw [run_roll_faces, none]
    exact congrArg (fun faces => (Except.ok faces, source.skip _))
      (List.map_congr_left fun die member => congrArg group.adjust (sides die member).symm)

theorem faces_behind_first (attempt : Nat) :
    group.facesOn source (attempt + 1) = (List.range group.numerator.toNat).map fun die =>
      group.adjust ((source.skip (group.numerator.toNat - group.forcedDice)).side group.sides
        (attempt * group.numerator.toNat + die)) := by
  have few := group.forced_dice_le
  have draw (die : Nat) : (attempt + 1) * group.numerator.toNat + die - group.forcedDice =
      group.numerator.toNat - group.forcedDice + (attempt * group.numerator.toNat + die) := by
    rw [Nat.succ_mul]
    omega
  unfold facesOn
  refine List.map_congr_left fun die _ => congrArg group.adjust ?_
  rw [side, if_neg (by omega), draw, Source.side_skip]

theorem run_roll (sides : 1 ≤ group.sides) (rerolls : 0 ≤ group.rerolls) :
    (group.roll false).run.run source =
      (.ok (group.outcomeOf false (group.attemptsOn source)), source.skip group.draws) := by
  have few := group.forced_dice_le
  have taken : group.numerator.toNat - group.forcedDice +
      group.rerolls.toNat * group.numerator.toNat = group.draws := by
    rw [draws, Nat.succ_mul]
    omega
  rw [roll, if_neg (by omega), if_neg Bool.false_ne_true, if_neg (by omega), run_bind,
    run_roll_attempt]
  dsimp only
  rw [run_bind, run_roll_attempts, Source.skip_skip, taken, attemptsOn, List.range_succ_eq_map,
    List.map_cons, List.map_map]
  simp only [Function.comp_def, Nat.succ_eq_add_one, faces_behind_first]
  rfl

theorem run_roll_highest (sides : 1 ≤ group.sides) :
    (group.roll true).run.run source =
      (.ok (group.outcomeOf true [group.highestAttempt]), source) := by
  rw [roll, if_neg (by omega)]
  rfl

end Runs

/-- Of the sums the one in this place counts: the first of the highest ones for the best attempt,
and of the lowest ones for the worst. -/
structure Selects (sums : List Int) (place : Nat) (sum : Int) : Prop where
  extreme : (if group.best then sums.max? else sums.min?) = some sum
  there : sums[place]? = some sum
  first : ∀ earlier < place, sums[earlier]? ≠ some sum

section Bounds

variable {group}

theorem selects_choose (group : DieGroup) {sums : List Int} (nonempty : sums ≠ []) :
    ∃ sum, group.Selects sums (group.choose sums) sum := by
  have inside := group.choose_lt nonempty
  obtain ⟨sum, extreme⟩ : ∃ sum, (if group.best then sums.max? else sums.min?) = some sum := by
    split
    · exact Option.isSome_iff_exists.mp (List.isSome_max?_of_ne_nil nonempty)
    · exact Option.isSome_iff_exists.mp (List.isSome_min?_of_ne_nil nonempty)
  have place : group.choose sums = sums.idxOf sum := by
    rw [choose, extreme]
    rfl
  rw [place] at inside ⊢
  refine ⟨sum, extreme, ?_, ?_⟩
  · rw [List.getElem?_eq_getElem inside, List.getElem_idxOf inside]
  · intro earlier before same
    obtain ⟨_, found⟩ := List.getElem?_eq_some_iff.mp same
    have other := List.not_of_lt_findIdx before
    rw [found, beq_self_eq_true] at other
    cases other

theorem adjust_mono {low high : Int} (ordered : low ≤ high) :
    group.adjust low ≤ group.adjust high := by
  unfold adjust
  dsimp only
  split
  next divided =>
    rw [Int.fdiv_eq_ediv_of_nonneg _ (Int.le_of_lt divided),
      Int.fdiv_eq_ediv_of_nonneg _ (Int.le_of_lt divided)]
    have quotient := Int.ediv_le_ediv divided (Int.add_le_add_right ordered group.dieBonus)
    omega
  next => omega

theorem side_bounds (sides : 1 ≤ group.sides) (source : Source) (attempt die : Nat) :
    1 ≤ group.side source attempt die ∧ group.side source attempt die ≤ group.sides := by
  unfold side
  split
  · exact ⟨sides, Int.le_refl _⟩
  · exact source.side_bounds sides _

theorem length_faces (source : Source) (attempt : Nat) :
    (group.facesOn source attempt).length = group.numerator.toNat := by
  rw [facesOn, List.length_map, List.length_range]

theorem faces_bounds (sides : 1 ≤ group.sides) (source : Source) (attempt : Nat) :
    ∀ face ∈ group.facesOn source attempt,
      group.adjust 1 ≤ face ∧ face ≤ group.adjust group.sides := by
  intro face member
  obtain ⟨die, -, rfl⟩ := List.mem_map.mp member
  obtain ⟨lower, upper⟩ := side_bounds sides source attempt die
  exact ⟨adjust_mono lower, adjust_mono upper⟩

theorem adjust_plain (whole : group.denominator ≤ 0) (plain : group.dieBonus = 0) (face : Int) :
    group.adjust face = face := by
  rw [adjust, if_neg (by omega), plain, Int.add_zero]

theorem selects_outcome (group : DieGroup) (maximized : Bool) {attempts : List (List Int)}
    (nonempty : attempts ≠ []) :
    group.Selects (attempts.map sumFaces) (group.outcomeOf maximized attempts).chosen
      (group.outcomeOf maximized attempts).value := by
  obtain ⟨sum, selects⟩ :=
    selects_choose group (by simpa using nonempty : attempts.map sumFaces ≠ [])
  have value : (group.outcomeOf maximized attempts).value = sum := by
    rw [outcomeOf, List.getD_eq_getElem?_getD, selects.there]
    rfl
  rw [value]
  exact selects

theorem value_highest (numerator : 0 ≤ group.numerator) :
    (group.outcomeOf true [group.highestAttempt]).value =
      group.numerator * group.adjust group.sides := by
  have value := (group.outcome_of_replicate true group.highestAttempt 0).1
  have same : ∀ face ∈ group.highestAttempt,
      group.adjust group.sides ≤ face ∧ face ≤ group.adjust group.sides := by
    intro face member
    rw [List.eq_of_mem_replicate member]
    exact ⟨Int.le_refl _, Int.le_refl _⟩
  obtain ⟨lower, upper⟩ := sum_faces_between same
  rw [highestAttempt, List.length_replicate, Int.toNat_of_nonneg numerator] at lower upper
  rw [List.replicate_zero] at value
  exact value.trans (Int.le_antisymm upper lower)

/-- The faces of the attempt that counts, of which the value is the sum. -/
theorem chosen_faces (group : DieGroup) (maximized : Bool) (source : Source) :
    let outcome := group.outcomeOf maximized (group.attemptsOn source)
    outcome.attempts[outcome.chosen]? = some (group.facesOn source outcome.chosen) ∧
      outcome.value = sumFaces (group.facesOn source outcome.chosen) := by
  intro outcome
  have selects := group.selects_outcome maximized (group.attempts_ne_nil source)
  obtain ⟨faces, counted, sum⟩ := Option.map_eq_some_iff.mp
    (List.getElem?_map.symm.trans selects.there)
  obtain ⟨attempt, place, rfl⟩ := Option.map_eq_some_iff.mp (List.getElem?_map.symm.trans counted)
  obtain ⟨_, rfl⟩ := List.getElem?_eq_some_iff.mp place
  rw [List.getElem_range] at counted sum
  exact ⟨counted, sum.symm⟩

theorem value_bounds (sides : 1 ≤ group.sides) (numerator : 0 ≤ group.numerator)
    (maximized : Bool) (source : Source) :
    group.numerator * group.adjust 1 ≤ (group.outcomeOf maximized (group.attemptsOn source)).value ∧
      (group.outcomeOf maximized (group.attemptsOn source)).value ≤
        group.numerator * group.adjust group.sides := by
  obtain ⟨-, sum⟩ := group.chosen_faces maximized source
  have bounds := sum_faces_between (faces_bounds sides source
    (group.outcomeOf maximized (group.attemptsOn source)).chosen)
  rw [length_faces, Int.toNat_of_nonneg numerator, ← sum] at bounds
  exact bounds

end Bounds

/-- A group of dice always has an outcome, which is told by the source: as many attempts as it asks
for, with a face for each die in the order of the draws, which are no more and no fewer. Each face
is one between those of the lowest and of the highest side, the first attempt with the best sum
counts, or with the worst, and its sum is at most that of the highest roll. -/
theorem roll_records {group : DieGroup} (sides : 1 ≤ group.sides) (numerator : 0 ≤ group.numerator)
    (rerolls : 0 ≤ group.rerolls) (source other : Source) :
    ∃ outcome highest : DieOutcome,
      (group.roll false).run.run source = (.ok outcome, source.skip group.draws) ∧
      outcome.attempts = group.attemptsOn source ∧
      (outcome.attempts.length : Int) = group.rerolls + 1 ∧
      (∀ faces ∈ outcome.attempts, (faces.length : Int) = group.numerator ∧
        ∀ face ∈ faces, group.adjust 1 ≤ face ∧ face ≤ group.adjust group.sides) ∧
      group.Selects (outcome.attempts.map sumFaces) outcome.chosen outcome.value ∧
      group.numerator * group.adjust 1 ≤ outcome.value ∧ outcome.value ≤ highest.value ∧
      (group.roll true).run.run other = (.ok highest, other) ∧
      highest.value = group.numerator * group.adjust group.sides ∧
      (group.denominator ≤ 0 → group.dieBonus = 0 →
        group.numerator ≤ outcome.value ∧ outcome.value ≤ group.numerator * group.sides) := by
  obtain ⟨lower, upper⟩ := value_bounds sides numerator false source
  have highest := value_highest numerator
  refine ⟨_, _, run_roll source sides rerolls, rfl, ?_, ?_, ?_, lower, ?_,
    run_roll_highest other sides, highest, ?_⟩
  · change ((group.attemptsOn source).length : Int) = _
    rw [attemptsOn, List.length_map, List.length_range]
    omega
  · intro faces member
    obtain ⟨attempt, -, rfl⟩ := List.mem_map.mp member
    refine ⟨?_, faces_bounds sides source attempt⟩
    rw [length_faces, Int.toNat_of_nonneg numerator]
  · exact group.selects_outcome false (group.attempts_ne_nil source)
  · rw [highest]
    exact upper
  · intro whole plain
    rw [adjust_plain whole plain, Int.mul_one] at lower
    rw [adjust_plain whole plain] at upper
    exact ⟨lower, upper⟩

/-- Three attempts at two halved dice of which the first one is forced, and the worst counts: the
second, with two ones. -/
theorem roll_records_of_forced_die :
    let group : DieGroup := {
      sides := 6, numerator := 2, denominator := 2, dieBonus := -1, rerolls := 2, best := false
      initialMax := true }
    let source := Source.ofFaces [4, 1, 3, 2, 2]
    1 ≤ group.sides ∧ 0 ≤ group.numerator ∧ 0 ≤ group.rerolls ∧
      ∃ outcome highest : DieOutcome,
        (group.roll false).run.run source = (.ok outcome, source.skip 5) ∧
        outcome.attempts = [[2, 1], [1, 1], [1, 1]] ∧
        group.Selects [3, 2, 2] outcome.chosen outcome.value ∧
        2 ≤ outcome.value ∧ outcome.value ≤ highest.value ∧
        (group.roll true).run.run source = (.ok highest, source) ∧ highest.value = 4 := by
  intro group source
  have sides : 1 ≤ group.sides := by decide
  have numerator : 0 ≤ group.numerator := by decide
  have rerolls : 0 ≤ group.rerolls := by decide
  obtain ⟨outcome, highest, rolled, attempts, -, -, selects, lower, upper, maximum, value, -⟩ :=
    roll_records sides numerator rerolls source source
  have shown : group.attemptsOn source = [[2, 1], [1, 1], [1, 1]] := by decide
  rw [attempts, shown] at selects
  rw [shown] at attempts
  exact ⟨sides, numerator, rerolls, outcome, highest, rolled, attempts, selects, lower, upper,
    maximum, value⟩

end DieGroup

end TabletopDice
