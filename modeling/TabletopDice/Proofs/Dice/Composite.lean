import TabletopDice.Proofs.Dice.SingleDie

/-!
The natural face of a whole roll. Its die groups report one after another. A report of no
natural face changes nothing, the only other one gives its face and its sides, and two of
them disqualify the roll for good, wherever they stand and whatever else is reported.
-/

namespace TabletopDice

structure DieReport where
  group : DieGroup
  outcome : DieOutcome
  deriving DecidableEq, Repr

namespace DieReport

/-- A natural face is reported, or the mark for several dice. -/
def isVisible (report : DieReport) : Bool := decide (report.outcome.natural ≠ naturalNone)

def next (current : Int × Int) (report : DieReport) : Int × Int :=
  nextNatural current report.group report.outcome

/-- The natural face and the threat that the visible reports come to. -/
def composite : List DieReport → Int × Int
  | [] => (naturalNone, 0)
  | [report] => (report.outcome.natural, report.group.sides)
  | _ => (naturalDisqualified, 0)

theorem composite_of_several {reports : List DieReport} (several : 2 ≤ reports.length) :
    composite reports = (naturalDisqualified, 0) := by
  match reports with
  | [] => exact absurd several (by decide)
  | [_] => exact absurd several (by simp)
  | _ :: _ :: _ => rfl

theorem composite_eq_none_iff {reports : List DieReport}
    (visible : ∀ report ∈ reports, report.isVisible = true) :
    (composite reports).1 = naturalNone ↔ reports = [] := by
  match reports with
  | [] => exact iff_of_true rfl rfl
  | [report] =>
      have shown := of_decide_eq_true (visible report (List.mem_singleton_self report))
      exact iff_of_false shown (List.cons_ne_nil _ _)
  | _ :: _ :: _ => exact iff_of_false (by decide : naturalDisqualified ≠ naturalNone) nofun

section Sides

variable {reports : List DieReport} (sides : ∀ report ∈ reports, 1 ≤ report.group.sides)

include sides

theorem composite_eq_face_iff (face : Int) :
    ((composite reports).1 = face ∧ ∃ report ∈ reports, (composite reports).2 = report.group.sides) ↔
      ∃ report, reports = [report] ∧ report.outcome.natural = face := by
  match reports, sides with
  | [], _ => simp
  | [report], _ => simp [composite]
  | first :: second :: rest, sides =>
      refine iff_of_false ?_ (by simp)
      rintro ⟨-, report, member, none⟩
      have positive := sides report member
      exact absurd none (by simp only [composite]; omega)

theorem composite_eq_disqualified_iff :
    composite reports = (naturalDisqualified, 0) ↔ 2 ≤ reports.length := by
  refine ⟨fun disqualified => ?_, composite_of_several⟩
  match reports, sides with
  | [], _ => cases disqualified
  | [report], sides =>
      have none : report.group.sides = 0 := congrArg Prod.snd disqualified
      have positive := sides report (List.mem_singleton_self report)
      omega
  | _ :: _ :: rest, _ => exact Nat.le_add_left 2 rest.length

end Sides

theorem next_composite (front : List DieReport) (report : DieReport) :
    next (composite (front.filter isVisible)) report =
      composite ((front ++ [report]).filter isVisible) := by
  rw [List.filter_append]
  have known := composite_eq_none_iff fun report member =>
    (List.mem_filter.mp (member : report ∈ front.filter isVisible)).2
  generalize front.filter isVisible = shown at known ⊢
  by_cases none : report.outcome.natural = naturalNone
  · have invisible : ¬report.isVisible = true := by simp [isVisible, none]
    rw [next, nextNatural, if_pos none, List.filter_cons_of_neg invisible, List.filter_nil,
      List.append_nil]
  · have visible : report.isVisible = true := decide_eq_true none
    rw [next, nextNatural, if_neg none, List.filter_cons_of_pos visible, List.filter_nil]
    by_cases first : shown = []
    · rw [if_pos (known.mpr first), first]
      rfl
    · have several : 2 ≤ (shown ++ [report]).length := by
        have some := List.length_pos_iff.mpr first
        rw [List.length_append, List.length_singleton]
        omega
      rw [if_neg fun unseen => first (known.mp unseen), composite_of_several several]

/-- Whatever has been reported, the course of a roll keeps the composite. -/
theorem foldl_next_composite (front rest : List DieReport) :
    rest.foldl next (composite (front.filter isVisible)) =
      composite ((front ++ rest).filter isVisible) := by
  induction rest generalizing front with
  | nil => rw [List.foldl_nil, List.append_nil]
  | cons report rest ih =>
      rw [List.foldl_cons, next_composite, ih, List.append_assoc, List.singleton_append]

theorem foldl_next (reports : List DieReport) :
    reports.foldl next (naturalNone, 0) = composite (reports.filter isVisible) :=
  foldl_next_composite [] reports

theorem composite_of_perm {one other : List DieReport} (reordered : one.Perm other) :
    composite one = composite other := by
  match one with
  | [] => rw [List.nil_perm.mp reordered]
  | [report] => rw [List.singleton_perm.mp reordered]
  | first :: second :: rest =>
      have several : 2 ≤ other.length := reordered.length_eq ▸ Nat.le_add_left 2 rest.length
      exact (composite_of_several several).symm

end DieReport

theorem DieGroup.sides_of_roll {group : DieGroup} {maximize : Bool} {source after : Source}
    {outcome : DieOutcome} (rolled : (group.roll maximize).run.run source = (.ok outcome, after)) :
    1 ≤ group.sides := by
  by_contra none
  rw [roll, if_pos (by omega)] at rolled
  cases rolled

namespace Dice

open DieReport

def reportsOf (row : List Component) (outcomes : List (Option DieOutcome)) : List DieReport :=
  (row.zip outcomes).filterMap fun (component, outcome) => do
    return { group := ← component.dieGroup?, outcome := ← outcome }

theorem reports_cons_of_die (group : DieGroup) (row : List Component) (outcome : DieOutcome)
    (outcomes : List (Option DieOutcome)) :
    reportsOf (.die group :: row) (some outcome :: outcomes) =
      { group, outcome } :: reportsOf row outcomes :=
  rfl

theorem reports_cons_of_no_die {component : Component} (noDie : component.dieGroup? = none)
    (row : List Component) (outcome : Option DieOutcome) (outcomes : List (Option DieOutcome)) :
    reportsOf (component :: row) (outcome :: outcomes) = reportsOf row outcomes := by
  rw [reportsOf, List.zip_cons_cons, List.filterMap_cons_none]
  · rfl
  · simp only [noDie, Option.bind_eq_bind, Option.bind_none]

/-- Every die group reports once, in the order of the row, and the reports are all that the natural
face depends on. -/
theorem reports_of_feeds {maximize : Bool} {row : List Component} {natural seen : Int × Int}
    {source after : Source} {outcomes : List (Option DieOutcome)}
    (feeds : Feeds maximize row natural source outcomes seen after) :
    seen = (reportsOf row outcomes).foldl next natural ∧
      (reportsOf row outcomes).map DieReport.group = row.filterMap Component.dieGroup? ∧
      ∀ report ∈ reportsOf row outcomes, ∃ before behind,
        (report.group.roll maximize).run.run before = (.ok report.outcome, behind) := by
  induction feeds with
  | nil => exact ⟨rfl, rfl, fun _ member => absurd member List.not_mem_nil⟩
  | die rolled _ ih =>
      obtain ⟨folded, groups, each⟩ := ih
      rw [reports_cons_of_die]
      refine ⟨folded, ?_, List.forall_mem_cons.mpr ⟨⟨_, _, rolled⟩, each⟩⟩
      rw [List.map_cons, groups]
      rfl
  | other noDie _ ih =>
      rw [reports_cons_of_no_die noDie, List.filterMap_cons_none noDie]
      exact ih

def reports (dice : Dice) (evaluation : Evaluation) : List DieReport :=
  reportsOf dice.components evaluation.outcomes

theorem run_evaluate_reports {dice : Dice} {maximize : Bool} {bonus : Int} {source after : Source}
    {evaluation : Evaluation}
    (rolled : (dice.evaluate maximize bonus).run.run source = (.ok evaluation, after)) :
    (evaluation.natural, evaluation.defaultThreat) =
        composite ((dice.reports evaluation).filter isVisible) ∧
      (dice.reports evaluation).map DieReport.group = dice.dieGroups ∧
      ∀ report ∈ dice.reports evaluation, ∃ before behind,
        (report.group.roll maximize).run.run before = (.ok report.outcome, behind) := by
  obtain ⟨folded, groups, each⟩ := reports_of_feeds (feeds_of_evaluate rolled)
  rw [foldl_next] at folded
  exact ⟨folded, groups, each⟩

/-- Every die group of a roll, or of the maximum, reports what it showed. The natural face is none
just if none reports any; it is a face, with the sides of a group that shows one as the
threat, just if one group alone shows any, and this face; and it is disqualified without a
threat just if some first part of the reports shows two. The order of the reports does not
count. -/
theorem natural_is_composite {dice : Dice} {maximize : Bool} {bonus : Int} {source after : Source}
    {evaluation : Evaluation}
    (rolled : (dice.evaluate maximize bonus).run.run source = (.ok evaluation, after)) :
    let reports := dice.reports evaluation
    let visible := reports.filter isVisible
    reports.map DieReport.group = dice.dieGroups ∧
    (∀ report ∈ reports, ∃ before behind,
      (report.group.roll maximize).run.run before = (.ok report.outcome, behind)) ∧
    (evaluation.natural = naturalNone ↔
      ∀ report ∈ reports, report.outcome.natural = naturalNone) ∧
    (∀ face, (evaluation.natural = face ∧
        ∃ report ∈ visible, evaluation.defaultThreat = report.group.sides) ↔
      ∃ report, visible = [report] ∧ report.outcome.natural = face) ∧
    (evaluation.natural = naturalDisqualified ∧ evaluation.defaultThreat = 0 ↔
      ∃ early late, reports = early ++ late ∧ 2 ≤ early.countP isVisible) ∧
    ∀ others : List DieReport, others.Perm reports →
      others.foldl next (naturalNone, 0) = (evaluation.natural, evaluation.defaultThreat) := by
  intro reports visible
  obtain ⟨natural, groups, each⟩ := run_evaluate_reports rolled
  have shown : ∀ report ∈ visible, report.isVisible = true := fun _ member =>
    (List.mem_filter.mp member).2
  have sides : ∀ report ∈ visible, 1 ≤ report.group.sides := by
    intro report member
    obtain ⟨_, _, drawn⟩ := each report (List.mem_filter.mp member).1
    exact DieGroup.sides_of_roll drawn
  have known : (evaluation.natural, evaluation.defaultThreat) = composite visible := natural
  have face : evaluation.natural = (composite visible).1 := congrArg Prod.fst known
  have threat : evaluation.defaultThreat = (composite visible).2 := congrArg Prod.snd known
  refine ⟨groups, each, ?_, ?_, ?_, ?_⟩
  · rw [face, composite_eq_none_iff shown, List.filter_eq_nil_iff]
    simp only [isVisible, ne_eq, decide_not, Bool.not_eq_true', decide_eq_false_iff_not, not_not]
  · intro value
    rw [face, threat]
    exact composite_eq_face_iff sides value
  · rw [← Prod.mk.injEq, known, composite_eq_disqualified_iff sides,
      ← List.countP_eq_length_filter]
    constructor
    · intro two
      exact ⟨reports, [], (List.append_nil _).symm, two⟩
    · rintro ⟨early, late, whole, two⟩
      rw [whole, List.countP_append]
      exact two.trans (Nat.le_add_right _ _)
  · intro others reordered
    rw [foldl_next, known]
    exact composite_of_perm (reordered.filter isVisible)

/-- No dice at all, then a twenty, and two dice that disqualify it; the die behind them does not
count any more. -/
theorem natural_is_composite_of_four_groups :
    let groups : List DieGroup :=
      [{ sides := 4, numerator := 0 }, { sides := 20 }, { sides := 6, numerator := 2 }, { sides := 8 }]
    let dice : Dice := {
      components := (groups.map Component.die).intersperse (.operator .add) ++
        [.operator .multiply, .constant (Double.ofDecimal ['2'] []) []] }
    let source := Source.ofFaces [20, 3, 5, 1]
    ∃ evaluation after, (dice.evaluate false 1).run.run source = (.ok evaluation, after) ∧
      (dice.reports evaluation).map (fun report => report.outcome.natural) = [0, 20, -1, 1] ∧
      evaluation.natural = naturalDisqualified ∧ evaluation.defaultThreat = 0 := by
  intro groups dice source
  have shown : ((dice.evaluate false 1).run.run source).1.map (fun evaluation =>
      (dice.reports evaluation).map fun report => report.outcome.natural) = .ok [0, 20, -1, 1] := by
    decide +kernel
  rcases rolled : (dice.evaluate false 1).run.run source with ⟨failure | evaluation, after⟩
  · rw [rolled] at shown
    cases shown
  · rw [rolled] at shown
    have naturals : (dice.reports evaluation).map (fun report => report.outcome.natural) =
        [0, 20, -1, 1] := Except.ok.inj shown
    obtain ⟨-, -, -, -, disqualified, -⟩ := natural_is_composite rolled
    have two : 2 ≤ ((dice.reports evaluation).take 3).countP isVisible := by
      have counted : ((dice.reports evaluation).take 3).countP isVisible =
          (((dice.reports evaluation).map fun report => report.outcome.natural).take 3).countP
            fun natural => decide (natural ≠ naturalNone) := by
        rw [← List.map_take, List.countP_map]
        rfl
      rw [counted, naturals]
      decide
    obtain ⟨natural, threat⟩ := disqualified.mpr ⟨_, _, (List.take_append_drop 3 _).symm, two⟩
    exact ⟨evaluation, after, rfl, naturals, natural, threat⟩

end Dice

end TabletopDice
