import TabletopDice.Proofs.Expression.Acceptance
import TabletopDice.Roller.Session

/-!
What an accepted specification promises. Its dice, or the dice of every combination
of its alternatives, are well formed, and where one single die is needed there is
one. The promise speaks only of the parts that rolling leaves as they are.
-/

namespace TabletopDice

open Text

theorem well_formed_of_die {group : DieGroup} (proper : group.IsProper) :
    WellFormed [.die group] := by
  constructor
  · exact .operand (.term (.die group))
  · intro component member
    rw [List.mem_singleton.mp member]
    exact proper

theorem well_formed_of_dice_parse {text : Text} {dice : Dice} (accepted : Dice.parse text = .ok dice) :
    WellFormed dice.components := by
  unfold Dice.parse at accepted
  split at accepted
  · cases accepted
    exact well_formed_of_die (by constructor <;> decide)
  · simp only [bind_eq_ok, pure_eq_ok, Prod.exists] at accepted
    obtain ⟨row, limits, parsed, rfl⟩ := accepted
    exact well_formed_of_parse_expression parsed

structure Rollable (modifiers : Modifiers) (dice : Dice) : Prop where
  wellFormed : WellFormed dice.components
  single : modifiers.needsSingleDie = true → ∃ die, dice.singleDie? = some die ∧ die.numerator = 1

structure Roller.IsReady (roller : Roller) : Prop where
  set : roller.isSet = true
  rollable : ∀ result ∈ roller.sequence, ∃ dice, result = .ok dice ∧ Rollable roller.modifiers dice

namespace Specification

theorem rollable_of_build_dice {modifiers : Modifiers} {expression : Text} {dice : Dice}
    (built : buildDice modifiers expression = .ok dice) :
    Dice.parse expression = .ok dice ∧ Rollable modifiers dice := by
  simp only [buildDice, guard_eq_ok, bind_eq_ok] at built
  obtain ⟨-, parsed, accepted, checked⟩ := built
  by_cases needed : modifiers.needsSingleDie = true
  · rw [if_pos needed] at checked
    by_cases several : parsed.singleDie?.map DieGroup.numerator ≠ some 1
    · rw [if_pos several] at checked
      cases checked
    · rw [if_neg several] at checked
      cases checked
      refine ⟨accepted, well_formed_of_dice_parse accepted, ?_⟩
      intro _
      exact Option.map_eq_some_iff.mp (not_not.mp several)
  · rw [if_neg needed] at checked
    cases checked
    exact ⟨accepted, well_formed_of_dice_parse accepted, fun required => absurd required needed⟩

theorem rollable_percentile_dice (modifiers : Modifiers) : Rollable modifiers percentileDice := by
  constructor
  · exact well_formed_of_die (by constructor <;> decide)
  · intro _
    exact ⟨{ sides := 100 }, rfl, rfl⟩

theorem rollable_of_combinations {modifiers : Modifiers} {combinations : List (List Text)}
    (checked : checkCombinations modifiers combinations = .ok ()) :
    ∀ values ∈ combinations, ∃ dice,
      Dice.parse (substitute 0 modifiers.template values) = .ok dice ∧ Rollable modifiers dice := by
  induction combinations with
  | nil =>
      intro values member
      cases member
  | cons values rest ih =>
      simp only [checkCombinations, bind_eq_ok] at checked
      obtain ⟨dice, built, more⟩ := checked
      exact List.forall_mem_cons.mpr ⟨⟨dice, rollable_of_build_dice built⟩, ih more⟩

theorem template_ne_nil {segments : List Segment} (index : Nat)
    (alternatives : segments.filterMap Segment.values? ≠ []) :
    Segment.template index segments ≠ [] := by
  induction segments generalizing index with
  | nil => exact absurd rfl alternatives
  | cons segment segments ih =>
      cases segment with
      | plain text => exact List.append_ne_nil_of_right_ne_nil text (ih index alternatives)
      | choice values => exact List.cons_ne_nil _ _

theorem sequence_of_single {modifiers : Modifiers} (dice : Dice)
    (noTemplate : modifiers.template = []) :
    (Roller.ofSpecification { modifiers, dice := some dice }).sequence = [.ok dice] := by
  simp only [Roller.sequence, Roller.ofSpecification, noTemplate]
  rfl

theorem sequence_of_template {modifiers : Modifiers} (dice : Option Dice)
    (template : modifiers.template ≠ []) :
    (Roller.ofSpecification { modifiers, dice }).sequence =
      (combinations modifiers.alternatives).map fun values =>
        Dice.parse (substitute 0 modifiers.template values) := by
  have nonempty : (!modifiers.template.isEmpty) = true := by simpa using template
  simp only [Roller.sequence, Roller.ofSpecification, nonempty, if_true]

theorem ready_of_single {modifiers : Modifiers} {dice : Dice} (noTemplate : modifiers.template = [])
    (rollable : Rollable modifiers dice) :
    (Roller.ofSpecification { modifiers, dice := some dice }).IsReady := by
  constructor
  · rfl
  · intro result member
    rw [sequence_of_single dice noTemplate] at member
    exact ⟨dice, List.mem_singleton.mp member, rollable⟩

theorem ready_of_combinations {modifiers : Modifiers} (template : modifiers.template ≠ [])
    (checked : checkCombinations modifiers (combinations modifiers.alternatives) = .ok ()) :
    (Roller.ofSpecification { modifiers, dice := none }).IsReady := by
  constructor
  · simpa [Roller.isSet, Roller.ofSpecification] using template
  · intro result member
    rw [sequence_of_template none template] at member
    obtain ⟨values, combined, rfl⟩ := List.mem_map.mp member
    exact rollable_of_combinations checked values combined

theorem alternatives_of_check_chance {modifiers : Modifiers} {expression : Text}
    (checked : checkChance modifiers expression = .ok ()) : modifiers.alternatives = [] := by
  simp only [checkChance, guard_eq_ok] at checked
  simpa using checked.1

/-- The clauses are read for themselves, and the limits among them are put behind the expression. -/
theorem read_clauses_eq (expression : Text) (modifiers : Modifiers) (clauses : List Text) :
    readClauses expression modifiers clauses =
      (clauses.foldlM Modifiers.withText modifiers).map fun final =>
        (expression ++ (clauses.filter Clause.startsWithLimit).flatMap ('|' :: ·), final) := by
  induction clauses generalizing expression modifiers with
  | nil =>
      rw [List.filter_nil, List.flatMap_nil, List.append_nil]
      rfl
  | cons clause clauses ih =>
      rw [readClauses, List.foldlM_cons]
      cases modifiers.withText clause with
      | error failure => rfl
      | ok next =>
          refine (ih _ next).trans ?_
          change _ = (clauses.foldlM Modifiers.withText next).map _
          split
          next limit => rw [List.filter_cons_of_pos limit, List.flatMap_cons, List.append_assoc]
          next other => rw [List.filter_cons_of_neg other]

section Clauses

variable {property : Modifiers → Prop} {modifiers final : Modifiers} {text expression read : Text}

theorem read_clauses_eq_ok {clauses : List Text} :
    readClauses expression modifiers clauses = .ok (read, final) ↔
      clauses.foldlM Modifiers.withText modifiers = .ok final ∧
        read = expression ++ (clauses.filter Clause.startsWithLimit).flatMap ('|' :: ·) := by
  rw [read_clauses_eq]
  cases clauses.foldlM Modifiers.withText modifiers with
  | error failure => exact iff_of_false nofun fun both => nomatch both.1
  | ok after =>
      constructor
      · rintro ⟨⟩
        exact ⟨rfl, rfl⟩
      · rintro ⟨⟨⟩, rfl⟩
        rfl

theorem kept_of_read_clauses {clauses : List Text}
    (keeps : ∀ clause ∈ clauses, ∀ before behind, property before →
      before.withText clause = .ok behind → property behind)
    (holds : property modifiers)
    (accepted : readClauses expression modifiers clauses = .ok (read, final)) : property final :=
  kept_of_foldlM keeps holds (read_clauses_eq_ok.mp accepted).1

theorem kept_of_split_modifiers
    (keeps : ∀ clause ∈ splitOn '|' text, ∀ before behind, property before →
      before.withText clause = .ok behind → property behind)
    (holds : property modifiers)
    (accepted : splitModifiers modifiers text = .ok (expression, final)) : property final := by
  unfold splitModifiers at accepted
  split at accepted
  next first second more parts =>
    refine kept_of_read_clauses ?_ holds accepted
    intro clause member
    apply keeps
    rw [parts]
    exact List.mem_cons_of_mem _ member
  next =>
    cases accepted
    exact holds

end Clauses

/-- The title and the clauses of a text give the modifiers; the rest is the expression with its
limits. -/
def Cuts (text expression : Text) (modifiers : Modifiers) : Prop :=
  ∃ written, splitModifiers { title := (splitTitle (hideComparisons text)).1 }
      (splitTitle (hideComparisons text)).2 = .ok (written, modifiers) ∧
    expression = replacePairs '/' '/' '÷' written

theorem read_alternatives_eq_ok {texts : List Text} {sets : List (List Text)} :
    readAlternatives texts = .ok sets ↔
      sets = texts.map (splitOn '/') ∧ ∀ values ∈ sets, 2 ≤ values.length := by
  induction texts generalizing sets with
  | nil =>
      simp only [readAlternatives, pure_eq_ok, List.map_nil]
      constructor
      · rintro rfl
        exact ⟨rfl, fun _ member => absurd member List.not_mem_nil⟩
      · rintro ⟨rfl, -⟩
        rfl
  | cons text texts ih =>
      simp only [readAlternatives, guard_eq_ok, bind_eq_ok, pure_eq_ok, ih, List.map_cons, not_lt]
      constructor
      · rintro ⟨several, _, ⟨rfl, others⟩, rfl⟩
        exact ⟨rfl, List.forall_mem_cons.mpr ⟨several, others⟩⟩
      · rintro ⟨rfl, several⟩
        obtain ⟨first, others⟩ := List.forall_mem_cons.mp several
        exact ⟨first, _, ⟨rfl, others⟩, rfl⟩

def Offers (expression : Text) (sets : List (List Text)) : Prop :=
  readAlternatives ((Segment.ofText expression).filterMap Segment.values?) = .ok sets

/-- How a text is accepted: as a percentile chance, as a single expression, or as an expression
with alternatives, of which every combination has been tried. -/
inductive Accepted (text : Text) : Specification → Prop
  | chance {expression digits chanceLabel : Text} {modifiers : Modifiers} {chance : Nat}
      (cut : Cuts text expression modifiers) (plain : Offers expression [])
      (read : readChance? expression = some (digits, chanceLabel))
      (allowed : checkChance { modifiers with alternatives := [], template := [] } expression = .ok ())
      (number : wholeNumber digits = .ok chance) :
      Accepted text {
        modifiers := { modifiers with
          alternatives := [], template := [], chance := some chance, chanceLabel }
        dice := some percentileDice }
  | single {expression : Text} {modifiers : Modifiers} {dice : Dice}
      (cut : Cuts text expression modifiers) (plain : Offers expression [])
      (built : buildDice { modifiers with alternatives := [], template := [] } expression = .ok dice) :
      Accepted text {
        modifiers := { modifiers with alternatives := [], template := [] }, dice := some dice }
  | several {expression : Text} {modifiers : Modifiers} {sets : List (List Text)}
      (cut : Cuts text expression modifiers) (offered : Offers expression sets) (present : sets ≠ [])
      (checked : checkCombinations
        { modifiers with
          alternatives := sets, template := Segment.template 0 (Segment.ofText expression) }
        (combinations sets) = .ok ()) :
      Accepted text {
        modifiers := { modifiers with
          alternatives := sets, template := Segment.template 0 (Segment.ofText expression) }
        dice := none }

theorem accepted_of_parse {text : Text} {specification : Specification}
    (parsed : parse text = .ok specification) : Accepted text specification := by
  unfold parse at parsed
  simp only [bind_eq_ok, Prod.exists] at parsed
  obtain ⟨written, modifiers, cut, alternatives, offered, checked⟩ := parsed
  have cuts : Cuts text (replacePairs '/' '/' '÷' written) modifiers := ⟨written, cut, rfl⟩
  split at checked
  next digits label read =>
    simp only [bind_eq_ok, pure_eq_ok] at checked
    obtain ⟨_, allowed, chance, number, rfl⟩ := checked
    have absent : alternatives = [] := alternatives_of_check_chance allowed
    subst absent
    exact .chance cuts offered read allowed number
  next =>
    split at checked
    next absent =>
      simp only [bind_eq_ok, pure_eq_ok] at checked
      obtain ⟨dice, built, rfl⟩ := checked
      cases List.isEmpty_iff.mp absent
      exact .single cuts offered built
    next present =>
      simp only [bind_eq_ok, pure_eq_ok] at checked
      obtain ⟨_, every, rfl⟩ := checked
      exact .several cuts offered (by simpa using present) every

theorem template_of_offers {expression : Text} {sets : List (List Text)}
    (offered : Offers expression sets) (present : sets ≠ []) :
    Segment.template 0 (Segment.ofText expression) ≠ [] := by
  apply template_ne_nil
  intro absent
  rw [Offers, absent] at offered
  cases offered
  exact present rfl

theorem ready_of_parse {text : Text} {specification : Specification}
    (accepted : parse text = .ok specification) :
    (Roller.ofSpecification specification).IsReady := by
  cases accepted_of_parse accepted with
  | chance => exact ready_of_single rfl (rollable_percentile_dice _)
  | single _ _ built => exact ready_of_single rfl (rollable_of_build_dice built).2
  | several _ offered present checked =>
      exact ready_of_combinations (template_of_offers offered present) checked

end Specification

end TabletopDice
