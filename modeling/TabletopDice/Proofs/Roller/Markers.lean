import TabletopDice.Proofs.Roller.Confirmation

/-!
Markers and queries. What a result says of automatic success and failure comes from the
recorded value of the die, and what the roller says of the last roll comes from its natural
face. Of the die of an accepted specification the two are the same, and the roll that is
told last is the one that is remembered, so the last result and the roller agree.
-/

namespace TabletopDice

/-- Of the only die of an accepted expression the natural face is the recorded value. -/
theorem Dice.natural_of_rollable {modifiers : Modifiers} {dice : Dice}
    (rollable : Rollable modifiers dice) (asked : modifiers.needsSingleDie = true)
    {maximize : Bool} {bonus : Int} {source after : Source} {evaluation : Evaluation}
    (rolled : (dice.evaluate maximize bonus).run.run source = (.ok evaluation, after)) :
    ∃ die outcome, dice.singleDie? = some die ∧ die.numerator = 1 ∧
      evaluation.outcomes.findSome? id = some outcome ∧ outcome.natural = outcome.value := by
  obtain ⟨die, single, one⟩ := rollable.single asked
  have groups : dice.dieGroups = [die] := die_groups_of_single single
  obtain ⟨outcome, drawn, -, shown⟩ := run_evaluate_of_die groups rolled
  have proper : die.IsProper :=
    proper_of_die_groups rollable.wellFormed.proper die (groups ▸ List.mem_singleton_self die)
  have recorded := (DieGroup.draws_roll proper maximize).kept drawn
  exact ⟨die, outcome, single, one, shown, DieGroup.natural_eq_value proper one recorded⟩

namespace RollResult

/-- The kind of the fragment that a result begins with, behind the label of a confirmation. -/
def leading (result : RollResult) : Option FragmentKind :=
  (if result.isConfirmation then result.details.tail else result.details).head?.map Fragment.kind

structure Agrees (result : RollResult) (roller : Roller) : Prop where
  fail : result.leading = some .fail ↔ roller.isNaturalOne = true
  success : result.leading = some .success ↔
    roller.isNaturalMax = true ∧ roller.isNaturalOne = false

/-- The last of the results agrees with the roller, unless there are none and it has not rolled. -/
def Told (before : Roller) (results : List RollResult) (after : Roller) : Prop :=
  (results = [] ∧ after = before) ∨ ∃ last, results.getLast? = some last ∧ last.Agrees after

theorem Told.append {before middle after : Roller} {results more : List RollResult}
    (first : Told before results middle) (second : Told middle more after) :
    Told before (results ++ more) after := by
  rcases second with ⟨rfl, rfl⟩ | ⟨last, ends, agrees⟩
  · rwa [List.append_nil]
  · exact .inr ⟨last, by rw [List.getLast?_append, ends, Option.some_or], agrees⟩

variable {total : Int} {description more : List Fragment}

theorem leading_of_first
    (outcome : ∃ first rest, description = first :: rest ∧ first.kind.isOutcome = true) :
    leading { total, details := description ++ more } = description.head?.map Fragment.kind := by
  obtain ⟨first, rest, rfl, told⟩ := outcome
  rw [leading, List.cons_append, not_confirmation_of_outcome told]
  rfl

theorem leading_of_confirmation (label : Text)
    (outcome : ∃ first rest, description = first :: rest ∧ first.kind.isOutcome = true) :
    leading { total, details := ⟨.confirmLabel, label⟩ :: description ++ more } =
      description.head?.map Fragment.kind := by
  obtain ⟨first, rest, rfl, -⟩ := outcome
  rfl

end RollResult

namespace SessionM

open RollResult

variable {modifiers : Modifiers} {dice : Dice} {session after : Session}

theorem remembered_of_evaluate {bonus : Int} {evaluation : Evaluation}
    (rolled : (evaluate modifiers dice bonus).run.run session = (.ok evaluation, after)) :
    after.roller.last = some (dice, evaluation) := by
  simp only [evaluate, run_bind_eq_ok, run_pure_eq_ok] at rolled
  obtain ⟨_, _, -, _, _, remembered, rfl, rfl⟩ := rolled
  cases remembered
  rfl

section Single

variable (rollable : Rollable modifiers dice) (asked : modifiers.needsSingleDie = true)

include rollable asked

theorem agrees_of_evaluate {bonus more : Int} {evaluation : Evaluation}
    (rolled : (evaluate modifiers dice bonus).run.run session = (.ok evaluation, after))
    {description : List Fragment}
    (described : dice.describe (some evaluation) modifiers.automaticMessages more = .ok description)
    {result : RollResult} (leads : result.leading = description.head?.map Fragment.kind) :
    result.Agrees after.roller := by
  obtain ⟨die, outcome, single, one, shown, natural⟩ :=
    Dice.natural_of_rollable rollable asked (evaluate_eq_ok rolled)
  have queried (face : DieGroup → Int) :
      after.roller.showedNatural face = (outcome.value == face die) := by
    rw [Roller.showedNatural, remembered_of_evaluate rolled]
    simp only [single, shown, one, natural, BEq.rfl, Bool.true_and]
  rw [Modifiers.automaticMessages, if_pos asked] at described
  obtain ⟨-, marked⟩ := Dice.describe_of_die (Dice.die_groups_of_single single) one shown
    modifiers.successMessage modifiers.failMessage more
  obtain ⟨fail, success⟩ := marked description described
  constructor
  · rw [leads, Roller.isNaturalOne, queried, beq_iff_eq]
    exact fail
  · rw [leads, Roller.isNaturalMax, Roller.isNaturalOne, queried, queried, beq_iff_eq,
      beq_eq_false_iff_ne]
    exact success

theorem told_of_confirm_roll {first : Evaluation} {results : List RollResult}
    (rolled : (confirmRoll modifiers dice first).run.run session = (.ok results, after)) :
    Told session.roller results after.roller := by
  rcases confirm_roll_eq_ok rolled with ⟨-, -, rfl, rfl⟩ |
    ⟨-, second, description, drawn, described, rfl⟩
  · exact .inl ⟨rfl, rfl⟩
  · exact .inr ⟨_, rfl, agrees_of_evaluate rollable asked drawn described
      (leading_of_confirmation _ (outcome_of_describe described))⟩

/-- An elementary roll tells itself, and then its confirmation if it makes one. -/
theorem told_of_roll_dice (noChance : modifiers.chance = none) {pass : Nat} {sum value : Int}
    {results : List RollResult}
    (rolled : (rollDice modifiers pass sum dice).run.run session = (.ok (value, results), after)) :
    Told session.roller results after.roller := by
  obtain ⟨first, middle, description, confirmation, drawn, described, confirmed, rfl, rfl⟩ :=
    roll_dice_eq_ok noChance rolled
  rw [List.append_assoc]
  have now (more : List Fragment) : Told session.roller
      [{ total := first.total, details := description ++ more }] middle.roller :=
    .inr ⟨_, rfl, agrees_of_evaluate rollable asked drawn described
      (leading_of_first (outcome_of_describe described))⟩
  split at confirmed
  next => exact (now _).append (told_of_confirm_roll rollable asked confirmed)
  next =>
    obtain ⟨rfl, rfl⟩ := run_pure_eq_ok.mp confirmed
    exact now _

end Single

section Sequence

variable (asked : modifiers.needsSingleDie = true) (noChance : modifiers.chance = none)
  {sequence : List (Except Failure Dice)}
  (rollable : ∀ result ∈ sequence, ∃ dice, result = .ok dice ∧ Rollable modifiers dice)

include asked noChance rollable

theorem told_of_roll_sequence {pass : Nat} {sum start value : Int} {results : List RollResult}
    (rolled : (rollSequence modifiers pass sum start sequence).run.run session =
      (.ok (value, results), after)) :
    Told session.roller results after.roller := by
  induction sequence generalizing start session value results with
  | nil =>
      obtain ⟨-, rfl, rfl⟩ := roll_sequence_nil_eq_ok rolled
      exact .inl ⟨rfl, rfl⟩
  | cons head more ih =>
      obtain ⟨⟨dice, rfl, ready⟩, others⟩ := List.forall_mem_cons.mp rollable
      obtain ⟨_, _, _, _, now, behind, rfl⟩ := roll_sequence_cons_eq_ok rolled
      exact (told_of_roll_dice ready asked noChance now).append (ih others behind)

theorem told_of_roll_passes (name : Text) {left : Nat} {progress : Progress}
    {results : List RollResult}
    (rolled : (rollPasses modifiers sequence name left progress).run.run session =
      (.ok results, after)) :
    Told session.roller results after.roller := by
  induction left generalizing progress session results with
  | zero =>
      unfold rollPasses at rolled
      split at rolled
      next =>
        cases rolled
        exact .inl ⟨rfl, rfl⟩
      next =>
        cases rolled
        exact .inl ⟨rfl, rfl⟩
  | succ left ih =>
      unfold rollPasses at rolled
      split at rolled
      next =>
        simp only [run_bind_eq_ok, run_pure_eq_ok, Prod.exists] at rolled
        obtain ⟨value, first, middle, now, rest, final, behind, rfl, rfl⟩ := rolled
        exact (told_of_roll_sequence asked noChance rollable now).append (ih behind)
      next =>
        cases rolled
        exact .inl ⟨rfl, rfl⟩

end Sequence

theorem modifiers_of_roll_passes {sequence : List (Except Failure Dice)} {name : Text} {left : Nat}
    {progress : Progress} {results : List RollResult}
    (rolled : (rollPasses modifiers sequence name left progress).run.run session =
      (.ok results, after)) :
    after.roller.modifiers = session.roller.modifiers := by
  have ignores : IgnoresRolls fun other => other.roller.modifiers = session.roller.modifiers :=
    ⟨fun _ _ same => same, fun _ _ same => same⟩
  have kept : Keeps _ (rollPasses modifiers sequence name left progress) :=
    keeps_roll_passes ignores (fun _ _ same => same) sequence name left progress
  exact (kept.of_ok rfl rolled).2

theorem told_of_roll {text title : Text} {results : List RollResult} (settled : session.IsSettled)
    (consistent : session.IsConsistent)
    (rolled : (roll text).run.run session = (.ok (title, results), after)) :
    ∃ middle, (requireSpecification text).run.run session = (.ok (), middle) ∧
      after.roller.modifiers = middle.roller.modifiers ∧
      (middle.roller.modifiers.needsSingleDie = true →
        Told middle.roller results after.roller) := by
  rw [roll_eq, run_bind_eq_ok] at rolled
  obtain ⟨_, middle, required, rolled⟩ := rolled
  simp only [rollRemembered, run_bind_eq_ok, run_pure_eq_ok, run_get] at rolled
  obtain ⟨_, _, got, _, _, passes, same, rfl⟩ := rolled
  obtain ⟨⟨⟩, rfl⟩ := Prod.mk.inj got
  obtain ⟨-, rfl⟩ := Prod.mk.inj same
  have isSet := is_set_of_require text session
  rw [required] at isSet
  have reported := (sound_require_specification (.inl ⟨_, rfl⟩)
    (reported_set_specification text)).of_ok settled required
  have ready : middle.IsReady := reported.2 (isSet rfl)
  have kept := ((sound_require_specification trivial
    (consistent_set_specification text)).of_ok consistent required).2
  refine ⟨middle, required, ?_, ?_⟩
  · exact modifiers_of_roll_passes passes
  · intro asked
    have noChance : middle.roller.modifiers.chance = none := by
      by_contra some
      obtain ⟨-, confirm, -, automatic, -⟩ := kept.chance some
      rw [Modifiers.needsSingleDie, confirm, automatic] at asked
      cases asked
    exact told_of_roll_passes asked noChance ready.rollable _ passes

/-- Whatever was called before, and whether a specification is given or the remembered one is
rolled again: if it asks for confirmation or for automatic success and failure, and anything was
rolled, then the last result begins with a failure just if the roller reports a natural one,
and with a success just if it reports the highest face and not a one. -/
theorem last_marker_agrees (source : Source) (calls : List Call) (text : Text) {title : Text}
    {results : List RollResult} {last : RollResult} {after : Session}
    (rolled : (roll text).run.run (afterCalls { source } calls) =
      (.ok (title, results ++ [last]), after)) :
    let modifiers := after.roller.modifiers
    (∀ specification, Specification.parse text = .ok specification →
      modifiers = specification.modifiers) ∧
    (text = [] → modifiers = (afterCalls { source } calls).roller.modifiers) ∧
    (modifiers.confirm = true ∨ modifiers.automatic ≠ [] →
      (last.leading = some .fail ↔ after.roller.isNaturalOne = true) ∧
      (last.leading = some .success ↔
        after.roller.isNaturalMax = true ∧ after.roller.isNaturalOne = false)) := by
  intro modifiers
  have settled : Session.IsSettled (afterCalls { source } calls) :=
    invariant_after_calls (fun error => .inl ⟨error, rfl⟩) (fun _ _ kept => kept)
      (fun call _ => withstands_any call.text) (settled_of_fresh source)
  have consistent : Session.IsConsistent (afterCalls { source } calls) :=
    invariant_after_calls (fun _ => trivial) (fun _ _ kept => kept)
      (fun call _ => withstands_consistent call.text) (consistent_of_fresh source)
  obtain ⟨middle, required, unchanged, told⟩ := told_of_roll settled consistent rolled
  refine ⟨?_, ?_, ?_⟩
  · intro specification parsed
    rw [run_require_specification parsed] at required
    cases required
    exact unchanged
  · rintro rfl
    rw [require_specification_eq, if_pos rfl] at required
    simp only [requireRemembered, run_bind_eq_ok, run_get] at required
    obtain ⟨_, _, same, required⟩ := required
    obtain ⟨⟨⟩, rfl⟩ := Prod.mk.inj same
    split at required
    next => cases required
    next =>
      cases required
      exact unchanged
  · intro asked
    have needed : middle.roller.modifiers.needsSingleDie = true := by
      rw [← unchanged]
      simpa [Modifiers.needsSingleDie] using asked
    rcases told needed with ⟨none, -⟩ | ⟨final, ends, agrees⟩
    · exact absurd none (List.append_ne_nil_of_right_ne_nil _ (List.cons_ne_nil _ _))
    · obtain rfl : last = final := by
        rw [List.getLast?_append, List.getLast?_singleton, Option.some_or] at ends
        exact Option.some.inj ends
      exact ⟨agrees.fail, agrees.success⟩

/-- The second pass ends with a six that is confirmed by a one, and the one is told. -/
theorem last_marker_agrees_of_confirmation :
    let source := Source.ofFaces [5, 20, 3, 2, 4, 6, 1]
    let calls : List Call := [.roll "d6".toList]
    let text := "d{20/6}|c6|sf yes/no|repeat 2".toList
    ∃ title results last after,
      (roll text).run.run (afterCalls { source } calls) = (.ok (title, results ++ [last]), after) ∧
      results.length = 5 ∧ last.isConfirmation = true ∧ last.leading = some .fail := by
  intro source calls text
  have shown : (((roll text).run.run (afterCalls { source } calls)).1.map fun rolled =>
      (rolled.2.length, rolled.2.getLast?.map RollResult.isConfirmation)) =
        .ok (6, some true) := by decide +kernel
  have queried : let roller := ((roll text).run.run (afterCalls { source } calls)).2.roller
      (roller.modifiers.confirm, roller.isNaturalOne) = (true, true) := by decide +kernel
  rcases rolled : (roll text).run.run (afterCalls { source } calls) with
    ⟨failure | ⟨title, results⟩, after⟩
  · rw [rolled] at shown
    cases shown
  · rw [rolled] at shown queried
    obtain ⟨six, confirmation⟩ := Prod.mk.inj (Except.ok.inj shown)
    obtain ⟨confirms, one⟩ := Prod.mk.inj queried
    have present : results ≠ [] := by
      rintro rfl
      cases six
    obtain ⟨front, last, rfl⟩ := (List.eq_nil_or_concat' results).resolve_left present
    obtain ⟨-, -, agrees⟩ := last_marker_agrees source calls text rolled
    refine ⟨title, front, last, after, rfl, ?_, ?_, (agrees (.inl confirms)).1.mpr one⟩
    · simpa using six
    · simpa using confirmation

end SessionM

end TabletopDice
