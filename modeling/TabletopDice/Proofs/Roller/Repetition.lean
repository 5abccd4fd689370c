import TabletopDice.Proofs.Roller.Maximum
import TabletopDice.Proofs.Roller.Mirroring
import TabletopDice.Proofs.Roller.Reordering
import TabletopDice.Proofs.Roller.Trimming

/-!
Repetition as iteration. A specification that is repeated is rolled as often as it would be
in so many calls of its own, with the same draws, the same totals and the same failures. Its
results tell in addition how many times it is rolled, and which time this is.
-/

namespace TabletopDice

open Text

namespace Modifiers

/-- No clause repeats the roll or sets it a goal. -/
structure RollOnce (modifiers : Modifiers) : Prop where
  repeatFor : modifiers.repeatFor = 1
  target : modifiers.target = 0
  total : modifiers.total = 0

def repeated (count : Nat) (modifiers : Modifiers) : Modifiers := { modifiers with repeatFor := count }

variable {modifiers : Modifiers} {count : Nat}

def iterationFragments (count pass : Nat) : List Fragment :=
  [Fragment.bar, Fragment.int .repetition count, Fragment.int .iteration (pass + 1)]

/-- The repetition is told behind the confirmation and in front of all other modifiers. -/
theorem exists_options_repeated (once : modifiers.RollOnce) (several : 1 < count) (result : Int)
    (before pass : Nat) (start sum : Int) :
    ∃ front back, modifiers.optionFragments (some (result, before, start)) = front ++ back ∧
      (modifiers.repeated count).optionFragments (some (result, pass, sum)) =
        front ++ (iterationFragments count pass ++ back) := by
  refine ⟨if modifiers.confirm then [Fragment.bar, ⟨.confirmSpec, modifiers.confirmSpecifier⟩]
      else [],
    (if modifiers.difficulty ≠ 0 then
      [Fragment.bar, Fragment.int .difficulty modifiers.difficulty,
        margin modifiers.difficulty result]
    else []) ++
      if modifiers.automatic.isEmpty then []
      else [Fragment.bar, ⟨.automatic, modifiers.automatic⟩], ?_, ?_⟩
  · simp [optionFragments, once.repeatFor, once.target, once.total]
  · simp [optionFragments, repeated, once.target, once.total, several]
    rfl

theorem option_numbers_repeated (once : modifiers.RollOnce) (result start sum : Int) :
    (modifiers.repeated count).optionNumbers result sum = modifiers.optionNumbers result start := by
  simp only [optionNumbers, repeated, once.target, once.total]
  rfl

end Modifiers

def repetitionClause (count : Nat) : Text := "repeat ".toList ++ ofNat count

namespace Clause

theorem read_repetition (count : Nat) :
    read? (repetitionClause count) = some (.repetition (ofNat count)) := by
  have run := is_digits_of_nat count
  have counted : readCount? (' ' :: ofNat count) = some (ofNat count) := by
    have visible := run.trim_left []
    have span := run.span (stops_nil isDigit)
    rw [List.append_nil] at visible span
    rw [readCount?, trim_left_space, visible, span]
    cases digits : ofNat count with
    | nil => exact absurd digits run.nonempty
    | cons digit digits => rfl
  have keyword (written : Text) : readKeyword? written (repetitionClause count) =
      (readCount? (' ' :: ofNat count)).map repetition := rfl
  have word : trimLeft (repetitionClause count) = repetitionClause count := rfl
  have limit : startsLimit (repetitionClause count) = false := starts_limit_of_ne (by decide) _
  rw [read_eq, word, limit, keyword, counted]
  rfl

theorem not_limit_repetition (count : Nat) : startsWithLimit (repetitionClause count) = false :=
  starts_limit_of_ne (by decide) _

end Clause

namespace Modifiers

variable {modifiers : Modifiers}

theorem with_text_repetition (once : modifiers.RollOnce) {count : Nat} (short : count < firstTooLong) :
    modifiers.withText (repetitionClause count) = .ok (modifiers.repeated count) := by
  have single : ¬((modifiers.repeated count).total ≠ 0 ∧ (modifiers.repeated count).target ≠ 0) :=
    fun both => both.1 once.total
  rw [withText, Clause.read_repetition]
  dsimp only
  rw [withClause, whole_number_of_nat short]
  exact if_neg single

theorem RollOnce.apply (once : modifiers.RollOnce) {made : Setting}
    (other : ∀ kind ∈ made.kind?, kind ∉ [ClauseKind.repetition, .target, .total]) :
    (made.apply modifiers).RollOnce := by
  cases made with
  | repetition | target | total => exact absurd (by decide) (other _ rfl)
  | _ => exact ⟨once.repeatFor, once.target, once.total⟩

theorem RollOnce.foldlM {clauses : List Text} {final : Modifiers}
    (single : ∀ clause ∈ clauses, ∀ kind ∈ Clause.kind? clause,
      kind ∉ [ClauseKind.repetition, .target, .total])
    (once : modifiers.RollOnce) (read : clauses.foldlM withText modifiers = .ok final) :
    final.RollOnce := by
  refine kept_of_foldlM (fun clause member before behind once added => ?_) once read
  obtain ⟨made, sets, rfl, -⟩ := setting_of_with_text added
  exact once.apply fun kind told => single clause member kind (sets.kind kind told)

end Modifiers

namespace Specification

theorem plain_repetition (count : Nat) : IsPlain (repetitionClause count) := by
  have letters : ∀ char ∈ "repeat ".toList, char ∉ ['{', '}', '=', '|'] := by decide
  have digits : ∀ char ∈ ['{', '}', '=', '|'], char.isDigit = false := by decide
  intro char member special
  rcases List.mem_append.mp member with letter | digit
  · exact letters char letter special
  · have ascii := is_ascii_digit_of_nat digit
    rw [digits char special] at ascii
    cases ascii

variable {text : Text} {specification : Specification} {count : Nat}

/-- A clause without special characters that is no limit is read behind all others, with a title
and without. -/
theorem parts_of_clause {clause : Text} (plain : IsPlain clause)
    (other : Clause.startsWithLimit clause = false) (text : Text) :
    partsOf (text ++ '|' :: clause) = partsOf text >>= fun (written, set) =>
      (set.withText clause).map fun final => (written, final) := by
  have bars : '|' ∉ clause := fun member => plain '|' member (by decide)
  have noEquals : '=' ∉ '|' :: clause := by
    rw [List.mem_cons, not_or]
    exact ⟨by decide, fun member => plain '=' member (by decide)⟩
  have hidden : hideComparisons (text ++ '|' :: clause) = hideComparisons text ++ '|' :: clause := by
    have longer := hide_comparisons_append (List.forall_mem_singleton.mpr plain) text
    rw [List.flatMap_singleton] at longer
    exact longer
  rw [partsOf, partsOf, hidden, splitTitle, splitTitle, split_first_append noEquals]
  cases splitFirst? '=' (hideComparisons text) with
  | none => exact cut_append_clause _ _ bars other
  | some found =>
      dsimp only [Option.map_some]
      rw [cut_trim, cut_trim]
      exact cut_append_clause _ _ bars other

theorem roll_once_of_parts {written : Text} {set : Modifiers}
    (read : partsOf text = .ok (written, set))
    (single : ∀ clause ∈ clausesOf text, ∀ kind ∈ Clause.kind? clause,
      kind ∉ [ClauseKind.repetition, .target, .total]) : set.RollOnce := by
  obtain ⟨first, clauses, parts⟩ := List.exists_cons_of_ne_nil
    (splitOn_ne_nil '|' (splitTitle (hideComparisons text)).2)
  rw [clausesOf, parts] at single
  rw [partsOf, cut_eq parts] at read
  cases collected : clauses.foldlM Modifiers.withText
      { title := (splitTitle (hideComparisons text)).1 } with
  | error failure =>
      rw [collected] at read
      cases read
  | ok final =>
      rw [collected] at read
      cases read
      exact Modifiers.RollOnce.foldlM single ⟨rfl, rfl, rfl⟩ collected

theorem roll_once_of_parse (accepted : parse text = .ok specification)
    (single : ∀ clause ∈ clausesOf text, ∀ kind ∈ Clause.kind? clause,
      kind ∉ [ClauseKind.repetition, .target, .total]) :
    specification.modifiers.RollOnce := by
  cases accepted_of_parse accepted with
  | chance cut | single cut | several cut =>
      have once := Modifiers.RollOnce.foldlM single ⟨rfl, rfl, rfl⟩ cut.read_clauses
      exact ⟨once.repeatFor, once.target, once.total⟩

theorem parse_of_repetition (accepted : parse text = .ok specification)
    (single : ∀ clause ∈ clausesOf text, ∀ kind ∈ Clause.kind? clause,
      kind ∉ [ClauseKind.repetition, .target, .total])
    (short : count < firstTooLong) :
    ∃ repeated, parse (text ++ '|' :: repetitionClause count) = .ok repeated ∧
      repeated.plan = { specification.plan with
        modifiers := specification.plan.modifiers.repeated count } := by
  have plain := planned_parse text
  have longer := planned_parse (text ++ '|' :: repetitionClause count)
  rw [accepted] at plain
  rw [parts_of_clause (plain_repetition count) (Clause.not_limit_repetition count)] at longer
  cases read : partsOf text with
  | error failure =>
      rw [read] at plain
      cases plain
  | ok found =>
      obtain ⟨written, set⟩ := found
      have added := Modifiers.with_text_repetition (roll_once_of_parts read single) short
      have assembled := assemble_headed set.title count set (replacePairs '/' '/' '÷' written)
      rw [read] at plain longer
      change _ = planned _ at plain
      change _ = verdict ((set.withText _).map _) >>= _ at longer
      rw [added] at longer
      change _ = planned (assemble (set.headed set.title count) _) at longer
      rw [assembled] at longer
      cases made : assemble set (replacePairs '/' '/' '÷' written) with
      | error failure =>
          rw [made] at plain
          cases plain
      | ok single =>
          rw [made] at plain longer
          have plans : specification.plan = single.plan := Except.ok.inj plain
          obtain ⟨title, -⟩ := heading_of_assemble made
          cases parsed : parse (text ++ '|' :: repetitionClause count) with
          | error failure =>
              rw [parsed] at longer
              cases longer
          | ok repeated =>
              rw [parsed] at longer
              refine ⟨repeated, rfl, (Except.ok.inj longer).trans ?_⟩
              rw [plans, ← title]
              rfl

end Specification

namespace SessionM

/-- The result in a pass of a repetition, and that of a roll alone. A percentile roll and a
confirmation tell nothing of the repetition. -/
def IsIteration (percentile : Bool) (count pass : Nat) (alone repeated : RollResult) : Prop :=
  if percentile || alone.isConfirmation then repeated = alone
  else ∃ front back, alone.details = front ++ back ∧
    repeated = { alone with
      details := front ++ (Modifiers.iterationFragments count pass ++ back) }

def AreIterations (percentile : Bool) (count pass : Nat) :
    List RollResult → List RollResult → Prop :=
  List.Forall₂ (IsIteration percentile count pass)

theorem iterations_of_chance (count pass : Nat) (results : List RollResult) :
    AreIterations true count pass results results :=
  List.forall₂_same.mpr fun _ _ => rfl

theorem iterations_of_confirmation (count pass : Nat) {confirmation : List RollResult}
    (confirms : ∀ result ∈ confirmation, result.isConfirmation = true) :
    AreIterations false count pass confirmation confirmation :=
  List.forall₂_same.mpr fun result member => (if_pos (confirms result member)).mpr rfl

/-- A chance in percent takes no notice of what came before. -/
theorem mirrors_roll_chance (modifiers : Modifiers) (chance count pass : Nat) (dice : Dice) :
    Mirrors (fun alone rolled => rolled.1 = alone.1 ∧
        AreIterations true count pass alone.2 rolled.2)
      (rollChance modifiers chance dice) (rollChance modifiers chance dice) := by
  have draws (dice : Dice) (bonus : Int) := corresponds_eq_of_draw
    (dice.evaluate modifiers.maximized bonus)
  have alike : Alike (rollChance modifiers chance dice) (rollChance modifiers chance dice) :=
    corresponds_bind (corresponds_evaluate draws dice 0) fun _ => corresponds_pure _
  refine runs_alike_imp (mirrors_of_alike alike) ?_
  rintro _ found rfl
  exact ⟨rfl, iterations_of_chance count pass found.2⟩

section Passes

variable {modifiers : Modifiers} {count : Nat} (once : modifiers.RollOnce) (several : 1 < count)

include once several

theorem is_iteration_of_outcome {first : Fragment} (outcome : first.kind.isOutcome = true)
    (more : List Fragment) (total : Int) (before pass : Nat) (start sum : Int) :
    IsIteration false count pass
      { total
        details := first :: more ++ modifiers.optionFragments (some (total, before, start)) ++
          modifiers.maximizedFragments }
      { total
        details := first :: more ++
          (modifiers.repeated count).optionFragments (some (total, pass, sum)) ++
          modifiers.maximizedFragments } := by
  have plain := not_confirmation_of_outcome outcome total first.value
    (more ++ modifiers.optionFragments (some (total, before, start)) ++ modifiers.maximizedFragments)
  obtain ⟨front, back, told, telling⟩ := Modifiers.exists_options_repeated once several total before
    pass start sum
  refine (if_neg (Bool.eq_false_iff.mp plain)).mpr ?_
  refine ⟨first :: more ++ front, back ++ modifiers.maximizedFragments, ?_, ?_⟩
  · simp [told]
  · simp [telling]

theorem mirrors_roll_dice (before pass : Nat) (start sum : Int) (dice : Dice) :
    Mirrors (fun alone rolled => rolled.1 = alone.1 ∧
        AreIterations modifiers.chance.isSome count pass alone.2 rolled.2)
      (rollDice modifiers before start dice)
      (rollDice (modifiers.repeated count) pass sum dice) := by
  have draws (dice : Dice) (bonus : Int) := corresponds_eq_of_draw
    (dice.evaluate modifiers.maximized bonus)
  cases percentile : modifiers.chance with
  | some chance =>
      have alone : rollDice modifiers before start dice = rollChance modifiers chance dice := by
        rw [rollDice, percentile]
      have rolled : rollDice (modifiers.repeated count) pass sum dice =
          rollChance modifiers chance dice := by
        rw [rollDice, Modifiers.repeated, percentile]
        rfl
      rw [alone, rolled]
      exact mirrors_roll_chance modifiers chance count pass dice
  | none =>
      have plain : (modifiers.repeated count).chance = none := percentile
      rw [rollDice, rollDice, percentile, plain]
      dsimp only
      refine runs_alike_bind (mirrors_of_alike (corresponds_evaluate draws dice 0)) ?_
      rintro _ evaluation rfl
      refine runs_alike_bind (mirrors_self (corresponds_of_except _)
        (yields_of_except fun _ told => outcome_of_describe told)) ?_
      rintro _ _ ⟨rfl, first, more, rfl, outcome⟩
      rw [Modifiers.option_numbers_repeated once evaluation.total start sum]
      refine runs_alike_bind (mirrors_of_alike (corresponds_of_except _)) ?_
      rintro _ _ -
      have iteration := is_iteration_of_outcome once several outcome more evaluation.total before
        pass start sum
      have same : (modifiers.repeated count).confirm = modifiers.confirm := rfl
      rw [same]
      by_cases confirm : modifiers.confirm = true
      · rw [if_pos confirm, if_pos confirm]
        refine runs_alike_bind (mirrors_self (corresponds_confirm_roll draws dice evaluation)
          (yields_confirm_roll evaluation)) ?_
        rintro _ confirmation ⟨rfl, confirms⟩
        exact runs_alike_pure ⟨rfl, .cons iteration (iterations_of_confirmation count pass confirms)⟩
      · rw [if_neg confirm, if_neg confirm]
        exact runs_alike_pure ⟨rfl, .cons iteration .nil⟩

theorem mirrors_roll_sequence (before pass : Nat) (start sum : Int) (first : Int)
    (sequence : List (Except Failure Dice)) :
    Mirrors (fun alone rolled => rolled.1 = alone.1 ∧
        AreIterations modifiers.chance.isSome count pass alone.2 rolled.2)
      (rollSequence modifiers before start first sequence)
      (rollSequence (modifiers.repeated count) pass sum first sequence) := by
  induction sequence generalizing first with
  | nil => exact runs_alike_pure ⟨rfl, .nil⟩
  | cons head more ih =>
      refine runs_alike_bind (mirrors_of_alike (corresponds_of_except head)) ?_
      rintro _ dice rfl
      refine runs_alike_bind (mirrors_roll_dice once several before pass start sum dice) ?_
      rintro ⟨result, alone⟩ ⟨_, rolled⟩ ⟨rfl, now⟩
      refine runs_alike_bind (ih _) ?_
      rintro ⟨final, rest⟩ ⟨_, others⟩ ⟨rfl, later⟩
      exact runs_alike_pure ⟨rfl, List.rel_append now later⟩

end Passes

section Calls

/-- One roll of a repetition tells what so many calls tell, one after another. -/
structure RepeatsCalls (specification : Specification) (count : Nat)
    (calls : List (Text × List RollResult)) (repeated : Text × List RollResult) : Prop where
  titles : ∀ call ∈ calls, call.1 = specification.modifiers.title
  title : repeated.1 = specification.modifiers.title
  results : ∃ chunks, repeated.2 = chunks.flatten ∧
    List.Forall₂ (fun call chunk =>
      AreIterations specification.modifiers.chance.isSome count call.2 call.1.2 chunk)
      calls.zipIdx chunks

def rollTimes (text : Text) : Nat → SessionM (List (Text × List RollResult))
  | 0 => return []
  | count + 1 => do
      let rolled ← roll text
      return rolled :: (← rollTimes text count)

theorem roll_passes_of_finished {modifiers : Modifiers} {progress : Progress}
    (finished : modifiers.repeatFor ≤ progress.finished) (sequence : List (Except Failure Dice))
    (name : Text) (left : Nat) : rollPasses modifiers sequence name left progress = pure [] := by
  have enough := Nat.not_lt.mpr finished
  cases left with
  | zero => rw [rollPasses, if_neg enough]
  | succ left => rw [rollPasses, if_neg enough]

variable {modifiers : Modifiers} (once : modifiers.RollOnce)

include once

theorem advance_of_once (count : Nat) (progress : Progress) (result : Int) :
    progress.advance (modifiers.repeated count) result =
      { finished := progress.finished + 1, sum := progress.sum + result } := by
  simp [Progress.advance, Modifiers.repeated, once.target, once.total]

theorem roll_passes_once (sequence : List (Except Failure Dice)) (name : Text) :
    rollPasses modifiers sequence name maxPasses {} = do
      let rolled ← rollSequence modifiers 0 0 0 sequence
      return rolled.2 := by
  have unfinished : ({} : Progress).finished < modifiers.repeatFor := by
    rw [once.repeatFor]
    exact Nat.zero_lt_one
  have ended (result : Int) :
      modifiers.repeatFor ≤ (({} : Progress).advance modifiers result).finished := by
    have same : modifiers.repeated modifiers.repeatFor = modifiers := rfl
    rw [← same, advance_of_once once]
    exact Nat.le_of_eq once.repeatFor
  rw [maxPasses, rollPasses, if_pos unfinished]
  refine congrArg (_ >>= ·) (funext fun rolled => ?_)
  obtain ⟨result, rolled⟩ := rolled
  dsimp only
  rw [roll_passes_of_finished (ended result), pure_bind, List.append_nil]

end Calls

section Repeated

variable {text : Text} {specification : Specification} {count : Nat}
  (accepted : Specification.parse text = .ok specification)
  (once : specification.plan.modifiers.RollOnce) (several : 1 < count)

include accepted once several

theorem mirrors_call (pass : Nat) (sum : Int) :
    Mirrors (fun call rolled => call.1 = specification.modifiers.title ∧
        AreIterations specification.modifiers.chance.isSome count pass call.2 rolled.2)
      (roll text)
      (rollSequence (specification.plan.modifiers.repeated count) pass sum 0
        specification.plan.sequence) := by
  have called (name : Text) : specification.plan.roll name = do
      let rolled ← rollSequence specification.plan.modifiers 0 0 0 specification.plan.sequence
      return (specification.modifiers.title, rolled.2) := by
    rw [Plan.roll, roll_passes_once once, bind_assoc]
    rfl
  have mirrored (name : Text) :
      Mirrors (fun call rolled => call.1 = specification.modifiers.title ∧
          AreIterations specification.modifiers.chance.isSome count pass call.2 rolled.2)
        (specification.plan.roll name)
        (rollSequence (specification.plan.modifiers.repeated count) pass sum 0
          specification.plan.sequence) := by
    rw [called, ← bind_pure (rollSequence (Modifiers.repeated count _) pass sum 0 _)]
    refine runs_alike_bind (mirrors_roll_sequence once several 0 pass 0 sum 0 _) ?_
    rintro ⟨result, alone⟩ ⟨_, rolled⟩ ⟨rfl, iterations⟩
    exact runs_alike_pure ⟨rfl, iterations⟩
  intro first second same
  rw [run_roll_given accepted, roll_specification_eq]
  exact mirrored _ { first with roller := Roller.ofSpecification specification } second same

theorem mirrors_passes (name : Text) (calls left : Nat) (progress : Progress)
    (ahead : progress.finished + calls = count) (enough : calls ≤ left)
    (made : progress.finished + left = maxPasses) :
    Mirrors (fun calls results =>
        (∀ call ∈ calls, call.1 = specification.modifiers.title) ∧
        ∃ chunks, results = chunks.flatten ∧
          List.Forall₂ (fun call chunk =>
            AreIterations specification.modifiers.chance.isSome count call.2 call.1.2 chunk)
            (calls.zipIdx progress.finished) chunks)
      (rollTimes text calls)
      (rollPasses (specification.plan.modifiers.repeated count) specification.plan.sequence name left
        progress) := by
  induction calls generalizing left progress with
  | zero =>
      rw [roll_passes_of_finished (Nat.le_of_eq ahead.symm)]
      exact runs_alike_pure ⟨fun _ member => absurd member List.not_mem_nil, [], rfl, .nil⟩
  | succ calls ih =>
      obtain ⟨left, rfl⟩ : ∃ less, left = less + 1 := ⟨left - 1, by omega⟩
      have unfinished : progress.finished < (specification.plan.modifiers.repeated count).repeatFor := by
        change progress.finished < count
        omega
      have pass : maxPasses - (left + 1) = progress.finished := by omega
      rw [rollTimes, rollPasses, if_pos unfinished, pass]
      refine runs_alike_bind (mirrors_call accepted once several progress.finished progress.sum) ?_
      rintro call ⟨result, rolled⟩ ⟨told, iterations⟩
      have next := ih left { finished := progress.finished + 1, sum := progress.sum + result }
        (by simp only; omega) (by omega) (by simp only; omega)
      dsimp only
      rw [advance_of_once once]
      refine runs_alike_bind next ?_
      rintro others _ ⟨titles, chunks, rfl, rest⟩
      refine runs_alike_pure ⟨List.forall_mem_cons.mpr ⟨told, titles⟩, rolled :: chunks, rfl, ?_⟩
      exact .cons iterations rest

end Repeated

/-- An accepted specification without a repetition, a target or a sum is accepted with a repetition
too. One roll of it comes to the same as so many calls that roll the specification alone, on the
same source and up to the same failure: their results follow one another with the same totals,
and with the same details but for the repetition and the number of the call, which percentile
rolls and confirmations do not tell. -/
theorem repetition_is_iteration {text : Text} {specification : Specification}
    (accepted : Specification.parse text = .ok specification)
    (single : ∀ clause ∈ Specification.clausesOf text, ∀ kind ∈ Clause.kind? clause,
      kind ∉ [ClauseKind.repetition, .target, .total])
    {count : Nat} (several : 2 ≤ count) (within : count ≤ 100) :
    (Specification.parse (text ++ "|repeat ".toList ++ ofNat count)).isOk = true ∧
      Mirrors (RepeatsCalls specification count) (rollTimes text count)
        (roll (text ++ "|repeat ".toList ++ ofNat count)) := by
  have short : count < firstTooLong := by
    apply lt_first_too_long
    exact Nat.lt_of_le_of_lt within (by decide)
  have written : text ++ "|repeat ".toList ++ ofNat count = text ++ '|' :: repetitionClause count :=
    List.append_assoc ..
  obtain ⟨repeated, taken, plan⟩ := Specification.parse_of_repetition accepted single short
  have settings := Specification.roll_once_of_parse accepted single
  have once : specification.plan.modifiers.RollOnce :=
    ⟨settings.repeatFor, settings.target, settings.total⟩
  have mirrored (name : Text) : Mirrors (RepeatsCalls specification count) (rollTimes text count)
      (repeated.plan.roll name) := by
    rw [plan, Plan.roll, ← bind_pure (rollTimes text count)]
    refine runs_alike_bind
      (mirrors_passes accepted once several name count maxPasses {} (Nat.zero_add _) within rfl) ?_
    rintro calls _ ⟨titles, chunks, rfl, iterations⟩
    exact runs_alike_pure ⟨titles, rfl, chunks, rfl, iterations⟩
  rw [written]
  refine ⟨by rw [taken]; rfl, fun first second same => ?_⟩
  rw [run_roll_given taken, roll_specification_eq]
  exact mirrored _ first { second with roller := Roller.ofSpecification repeated } same

/-- Three rolls of two alternatives, some of them with a confirmation. -/
theorem repetition_is_iteration_of_confirmed_rolls :
    let text := "Hit = d20+\x7b4/-1\x7d|c15|dc 12".toList
    let session : Session := { source := Source.ofFaces [17, 3, 9, 20, 11, 6, 4, 15, 1] }
    ∃ specification, Specification.parse text = .ok specification ∧
      (∀ clause ∈ Specification.clausesOf text, ∀ kind ∈ Clause.kind? clause,
        kind ∉ [ClauseKind.repetition, .target, .total]) ∧
      (2 ≤ 3 ∧ 3 ≤ 100) ∧
      Mirrors (RepeatsCalls specification 3) (rollTimes text 3)
        (roll (text ++ "|repeat ".toList ++ ofNat 3)) ∧
      ((rollTimes text 3).run.run session).1.map (List.map fun call =>
        call.2.map RollResult.total) = .ok [[21, 7, 8], [24, 15, 5], [8, 14, 0]] := by
  intro text session
  have single : ∀ clause ∈ Specification.clausesOf text, ∀ kind ∈ Clause.kind? clause,
      kind ∉ [ClauseKind.repetition, .target, .total] := by decide +kernel
  have taken : (Specification.parse text).isOk = true := by decide +kernel
  have totals : ((rollTimes text 3).run.run session).1.map (List.map fun call =>
      call.2.map RollResult.total) = .ok [[21, 7, 8], [24, 15, 5], [8, 14, 0]] := by decide +kernel
  obtain ⟨specification, accepted⟩ := exists_of_is_ok taken
  have several : 2 ≤ 3 ∧ 3 ≤ 100 := by decide
  obtain ⟨-, mirrored⟩ := repetition_is_iteration accepted single several.1 several.2
  exact ⟨specification, accepted, single, several, mirrored, totals⟩

end SessionM

end TabletopDice
