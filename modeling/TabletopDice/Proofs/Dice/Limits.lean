import TabletopDice.Proofs.Expression.LimitOrder

/-!
Limits of a total. The last minimum and the last maximum behind an expression count, and
they come in at the end, behind the bonus. A limit above zero is kept. A limit below zero
is read and described like any other, but no total is brought within it.
-/

namespace TabletopDice

open Text

namespace Limits

def clausesBehind (text : Text) : List Text := (splitOn '|' text).drop 1

/-- The number of the last clause with the keyword, as it is written. -/
def written? (keyword text : Text) : Option Numeral :=
  ((clausesBehind text).filterMap (readLimit? keyword)).getLast?

theorem tells_of_clauses {clauses : List Text} {limits : Limits}
    (read : clauses.foldlM withClause {} = .ok limits) :
    Numeral.Tells 0 (clauses.filterMap (readLimit? ['m', 'i', 'n'])).getLast? limits.minimum ∧
      Numeral.Tells 0 (clauses.filterMap (readLimit? ['m', 'a', 'x'])).getLast? limits.maximum := by
  constructor
  · refine Numeral.tells_of_foldlM (fun {limits next clause} now => ?_) read
    rcases number_of_with_clause now with
      ⟨numeral, number, minimum, -, told, rfl⟩ | ⟨numeral, number, none, -, -, rfl⟩
    · rw [minimum]
      exact told
    · rw [none]
      rfl
  · refine Numeral.tells_of_foldlM (fun {limits next clause} now => ?_) read
    rcases number_of_with_clause now with
      ⟨numeral, number, -, none, -, rfl⟩ | ⟨numeral, number, -, maximum, told, rfl⟩
    · rw [none]
      rfl
    · rw [maximum]
      exact told

variable {limits : Limits}

/-- A total ends above a minimum if the minimum is positive, and else just where it was before. -/
theorem minimum_le_clamp_iff (total : Int) :
    limits.minimum ≤ limits.clamp total ↔ 0 < limits.minimum ∨ limits.minimum ≤ total := by
  unfold clamp
  dsimp only
  by_cases positive : 0 < limits.minimum
  · refine iff_of_true ?_ (.inl positive)
    split
    · omega
    · split
      · exact Int.le_refl _
      · omega
  · rw [if_neg fun both => positive both.1, or_iff_right positive]
    split
    · omega
    · rfl

/-- The minimum comes last, so the maximum is only kept where the minimum does not exceed it. -/
theorem clamp_le_maximum_iff (ordered : limits.minimum ≠ 0 → limits.minimum ≤ limits.maximum)
    (total : Int) :
    limits.clamp total ≤ limits.maximum ↔ 0 < limits.maximum ∨ total ≤ limits.maximum := by
  unfold clamp
  dsimp only
  by_cases positive : 0 < limits.maximum
  · refine iff_of_true ?_ (.inl positive)
    split
    · split
      · omega
      · omega
    · split
      · omega
      · omega
  · have negative : ¬0 < limits.minimum := by omega
    rw [if_neg fun both => negative both.1, if_neg fun both => positive both.1,
      or_iff_right positive]

theorem clamp_of_within {total : Int} (above : limits.minimum ≠ 0 → limits.minimum ≤ total)
    (below : limits.maximum ≠ 0 → total ≤ limits.maximum) : limits.clamp total = total := by
  unfold clamp
  dsimp only
  rw [if_neg (by omega : ¬(0 < limits.maximum ∧ limits.maximum < total)),
    if_neg (by omega : ¬(0 < limits.minimum ∧ total < limits.minimum))]

end Limits

namespace Dice

def unlimited (dice : Dice) : Dice := { dice with limits := {} }

theorem run_evaluate_unlimited {dice : Dice} {maximize : Bool} {bonus : Int} {source after : Source}
    {evaluation : Evaluation}
    (rolled : (dice.evaluate maximize bonus).run.run source = (.ok evaluation, after)) :
    ∃ plain, (dice.unlimited.evaluate maximize 0).run.run source = (.ok plain, after) ∧
      evaluation.total = dice.limits.clamp (plain.total + bonus) := by
  simp only [evaluate, run_bind_eq_ok, run_pure_eq_ok] at rolled
  obtain ⟨fed, between, first, value, _, second, rfl, rfl⟩ := rolled
  have unbounded : dice.unlimited.limits.clamp (value.1 + 0) = value.1 := by
    simp [unlimited, Limits.clamp]
  refine ⟨{
    total := value.1, outcomes := fed.1, natural := fed.2.2.1, defaultThreat := fed.2.2.2
    maximized := maximize }, ?_, rfl⟩
  simp only [evaluate, run_bind_eq_ok, run_pure_eq_ok]
  exact ⟨fed, between, first, value, _, second, by rw [unbounded], rfl⟩

theorem limits_of_parse {text : Text} {dice : Dice} (accepted : parse text = .ok dice) :
    Numeral.Tells 0 (Limits.written? ['m', 'i', 'n'] text) dice.limits.minimum ∧
      Numeral.Tells 0 (Limits.written? ['m', 'a', 'x'] text) dice.limits.maximum := by
  cases blank : allBlank text with
  | true =>
      have noBar : '|' ∉ text := fun bar =>
        absurd (List.all_eq_true.mp blank '|' bar) (by decide)
      rw [parse, if_pos blank] at accepted
      cases accepted
      rw [Limits.written?, Limits.written?, Limits.clausesBehind, split_on_of_not_mem noBar]
      exact ⟨rfl, rfl⟩
  | false =>
      obtain ⟨-, expression, cut, -, -⟩ := parse_expression_eq_ok.mp ((parse_eq_ok blank).mp accepted)
      obtain ⟨clauses, whole, read⟩ := split_limits_eq_ok.mp cut
      rw [Limits.written?, Limits.written?, Limits.clausesBehind, whole]
      exact Limits.tells_of_clauses read

/-- The limits of accepted dice are the last ones of their text. The total of a roll, or of the
maximum, keeps a minimum just if the minimum is positive or was kept before, and so with a
maximum that the minimum does not exceed. A total that is within the limits stays as it is. -/
theorem total_keeps_limits_iff {text : Text} {dice : Dice} (accepted : parse text = .ok dice)
    {maximize : Bool} {bonus : Int} {source after : Source} {evaluation : Evaluation}
    (rolled : (dice.evaluate maximize bonus).run.run source = (.ok evaluation, after)) :
    let minimum := dice.limits.minimum
    let maximum := dice.limits.maximum
    Numeral.Tells 0 (Limits.written? ['m', 'i', 'n'] text) minimum ∧
    Numeral.Tells 0 (Limits.written? ['m', 'a', 'x'] text) maximum ∧
    ∃ plain, (dice.unlimited.evaluate maximize 0).run.run source = (.ok plain, after) ∧
      let given := plain.total + bonus
      (minimum ≠ 0 → (minimum ≤ evaluation.total ↔ 0 < minimum ∨ minimum ≤ given)) ∧
      (maximum ≠ 0 → (minimum ≠ 0 → minimum ≤ maximum) →
        (evaluation.total ≤ maximum ↔ 0 < maximum ∨ given ≤ maximum)) ∧
      ((minimum ≠ 0 → minimum ≤ given) → (maximum ≠ 0 → given ≤ maximum) →
        evaluation.total = given) := by
  intro minimum maximum
  obtain ⟨least, most⟩ := limits_of_parse accepted
  obtain ⟨plain, drawn, total⟩ := run_evaluate_unlimited rolled
  rw [total]
  exact ⟨least, most, plain, drawn, fun _ => Limits.minimum_le_clamp_iff _,
    fun _ ordered => Limits.clamp_le_maximum_iff ordered _, Limits.clamp_of_within⟩

/-- Both limits are negative, of two minima the later counts, and the total is between them. -/
theorem total_keeps_limits_iff_of_negative_limits :
    let text := "1d6 - 9|min 4|max -2|min -7".toList
    let source := Source.ofFaces [3]
    ∃ dice evaluation after, parse text = .ok dice ∧
      (dice.evaluate false 1).run.run source = (.ok evaluation, after) ∧
      dice.limits = { minimum := -7, maximum := -2 } ∧ evaluation.total = -5 := by
  intro text source
  have read : (parse text).map Dice.limits = .ok { minimum := -7, maximum := -2 } := by
    decide +kernel
  have before : (parse text >>= fun dice =>
      ((dice.unlimited.evaluate false 0).run.run source).1.map Evaluation.total) = .ok (-6) := by
    decide +kernel
  have succeeds : (parse text >>= fun dice =>
      ((dice.evaluate false 1).run.run source).1).isOk = true := by decide +kernel
  cases accepted : parse text with
  | error failure =>
      rw [accepted] at read
      cases read
  | ok dice =>
      rw [accepted] at read before succeeds
      have limits : dice.limits = { minimum := -7, maximum := -2 } := Except.ok.inj read
      rcases rolled : (dice.evaluate false 1).run.run source with ⟨failure | evaluation, after⟩
      · change ((dice.evaluate false 1).run.run source).1.isOk = true at succeeds
        rw [rolled] at succeeds
        cases succeeds
      · obtain ⟨-, -, plain, drawn, -, -, within⟩ := total_keeps_limits_iff accepted rolled
        change ((dice.unlimited.evaluate false 0).run.run source).1.map Evaluation.total = _ at before
        rw [drawn] at before
        have given : plain.total = -6 := Except.ok.inj before
        rw [limits, given] at within
        exact ⟨dice, evaluation, after, rfl, rolled, limits, within (by decide) (by decide)⟩

/-- Totals beyond a negative limit. -/
theorem not_total_keeps_negative_limits :
    let roll (text : Text) : Except Failure (Limits × Int) := do
      let dice ← parse text
      let evaluation ← ((dice.roll 0).run.run Source.highest).1
      return (dice.limits, evaluation.total)
    roll "1-5|min -2".toList = .ok ({ minimum := -2 }, -4) ∧
      roll "3|max -1".toList = .ok ({ maximum := -1 }, 3) := by
  decide +kernel

end Dice

end TabletopDice
