import TabletopDice.Proofs.Expression.OuterBlanks
import TabletopDice.Proofs.Roller.ClauseOrder
import TabletopDice.Proofs.Roller.Plans
import TabletopDice.Proofs.Roller.Tails

/-!
Blanks around a specification. Around its expression they stay around the template, and so
around every combination of the alternatives, where they make no difference to the dice; the
label of a chance in percent takes them up, and is trimmed when it is told. So blanks
change neither the plan of a specification nor the kind of its refusal.
-/

namespace TabletopDice

open Text

namespace Segment

theorem split_lead_append {lead : Text} (plain : '{' ∉ lead) (text : Text) :
    split none (lead ++ text) = appendPlain lead (split none text) := by
  induction lead with
  | nil => rfl
  | cons char lead ih =>
      obtain ⟨other, behind⟩ := List.ne_and_not_mem_of_not_mem_cons plain
      rw [List.cons_append, split, if_neg (Ne.symm other), ih behind]
      rfl

theorem template_append_plain (index : Nat) (text : Text) (segments : List Segment) :
    template index (appendPlain text segments) = text ++ template index segments := by
  induction text with
  | nil => rfl
  | cons char text ih => exact (template_cons_plain index char _).trans (congrArg (char :: ·) ih)

section Blanks

variable {before behind : Text} (blankBefore : allBlank before = true)
  (blankBehind : allBlank behind = true) (part : Text)

include blankBefore blankBehind

theorem values_of_pads :
    (ofText (before ++ (part ++ behind))).filterMap values? = (ofText part).filterMap values? := by
  have base := extends_of_text (not_mem_of_blanks blankBehind (by decide))
    (not_mem_of_blanks blankBehind (by decide)) part
  rw [ofText, split_lead_append (not_mem_of_blanks blankBefore (by decide)), values_append_plain]
  exact base.values

theorem template_of_pads (index : Nat) :
    template index (ofText (before ++ (part ++ behind))) =
      before ++ (template index (ofText part) ++ behind) := by
  have base := extends_of_text (not_mem_of_blanks blankBehind (by decide))
    (not_mem_of_blanks blankBehind (by decide)) part
  rw [ofText, split_lead_append (not_mem_of_blanks blankBefore (by decide)), template_append_plain]
  exact congrArg (before ++ ·) (base.template index)

end Blanks

end Segment

/-- Places are opened by a brace, so none of them begins in front of the first one. -/
theorem substitute_lead_append {lead : Text} (plain : '{' ∉ lead) (index : Nat) (template : Text)
    (values : List Text) :
    substitute index (lead ++ template) values = lead ++ substitute index template values := by
  have first (index : Nat) (value template : Text) :
      replaceFirst (Segment.place index) value (lead ++ template) =
        lead ++ replaceFirst (Segment.place index) value template := by
    induction lead with
    | nil => rfl
    | cons char lead ih =>
        obtain ⟨other, behind⟩ := List.ne_and_not_mem_of_not_mem_cons plain
        have absent : after? (Segment.place index) (char :: (lead ++ template)) = none :=
          if_neg (Ne.symm other)
        rw [List.cons_append, replaceFirst, absent]
        exact congrArg (char :: ·) (ih behind)
  induction values generalizing index template with
  | nil => rfl
  | cons value values ih => rw [substitute, substitute, first, ih]

namespace Specification

/-- What can be told of a specification by rolling it: its plan, or the kind of the refusal. -/
def planned (result : Except Failure Specification) :
    Except (DiceErrorKind ⊕ NumberFault) Plan :=
  verdict (result.map plan)

variable {Value : Type} {modifiers : Modifiers} {part padded : Text}

theorem planned_bind (result : Except Failure Value) (next : Value → Except Failure Specification) :
    planned (result >>= next) = verdict result >>= fun value => planned (next value) := by
  cases result <;> rfl

theorem eq_ok_of_verdict {result other : Except Failure Value} {value : Value}
    (same : verdict result = verdict other) (accepted : result = .ok value) : other = .ok value := by
  rw [accepted] at same
  cases other with
  | error failure => cases same
  | ok found =>
      cases same
      rfl

theorem verdict_build_dice_of_pads (pads : Pads part padded) :
    verdict (buildDice modifiers padded) = verdict (buildDice modifiers part) := by
  simp only [buildDice, verdict_guard, verdict_bind, pads.all_blank, verdict_dice_of_pads pads]

theorem verdict_check_chance_of_pads (pads : Pads part padded) :
    verdict (checkChance modifiers padded) = verdict (checkChance modifiers part) := by
  have bars : padded.contains '|' = part.contains '|' := by
    obtain ⟨before, behind, rfl, blankBefore, blankBehind⟩ := pads
    have front := not_mem_of_blanks blankBefore (by decide : isBlank '|' = false)
    have back := not_mem_of_blanks blankBehind (by decide : isBlank '|' = false)
    simp [front, back]
  simp only [checkChance, verdict_guard, bars, DiceError.kind]

theorem read_chance_eq (text : Text) :
    readChance? text =
      let (digits, rest) := spanDigits (trimLeft text)
      if digits ≠ [] ∧ rest.head? = some '%' then some (digits, rest.tail) else none := by
  unfold readChance?
  rcases spanDigits (trimLeft text) with ⟨digits, rest⟩
  dsimp only
  split
  next same =>
    cases same
    exact (if_neg fun both => both.1 rfl).symm
  next some same =>
    cases same
    exact (if_pos ⟨some, rfl⟩).symm
  next none other =>
    rw [if_neg]
    rintro ⟨some, percent⟩
    obtain ⟨label, rfl⟩ := List.head?_eq_some_iff.mp percent
    exact other _ _ rfl

/-- The blanks behind a chance in percent belong to its label. -/
theorem exists_read_chance_of_pads (pads : Pads part padded) :
    ∃ more, allBlank more = true ∧
      readChance? padded = (readChance? part).map fun (digits, label) => (digits, label ++ more) := by
  obtain ⟨before, behind, rfl, blankBefore, blankBehind⟩ := pads
  obtain ⟨more, blankMore, front⟩ := exists_trim_left_append blankBehind part
  refine ⟨more, blankMore, ?_⟩
  rw [read_chance_eq, read_chance_eq, trim_left_append blankBefore, front,
    span_digits_append_blanks blankMore]
  dsimp only
  simp only [head_append_blanks blankMore (by decide : isBlank '%' = false)]
  split
  next percent => rw [tail_append_of_head percent.2, Option.map_some]
  next => rfl

section Assembly

variable {before behind : Text} (blankBefore : allBlank before = true)
  (blankBehind : allBlank behind = true)

include blankBefore blankBehind

theorem substitute_of_pads (template : Text) (values : List Text) :
    Pads (substitute 0 template values) (substitute 0 (before ++ (template ++ behind)) values) := by
  refine ⟨before, behind, ?_, blankBefore, blankBehind⟩
  rw [substitute_lead_append (not_mem_of_blanks blankBefore (by decide)),
    substitute_append (not_mem_of_blanks blankBehind (by decide))]

theorem verdict_check_combinations_of_pads (modifiers : Modifiers) (template : Text)
    (combinations : List (List Text)) :
    verdict (checkCombinations
        { modifiers with template := before ++ (template ++ behind) } combinations) =
      verdict (checkCombinations { modifiers with template } combinations) := by
  induction combinations with
  | nil => rfl
  | cons values rest ih =>
      have built := @verdict_build_dice_of_pads modifiers _ _
        (substitute_of_pads blankBefore blankBehind template values)
      rw [checkCombinations, checkCombinations, verdict_bind, verdict_bind, ih]
      exact congrArg (· >>= _) built

theorem sequence_of_pads (modifiers : Modifiers) {template : Text} (nonempty : template ≠ [])
    (checked : checkCombinations { modifiers with template }
      (combinations modifiers.alternatives) = .ok ()) :
    (Roller.ofSpecification
        { modifiers := { modifiers with template := before ++ (template ++ behind) },
          dice := none }).sequence =
      (Roller.ofSpecification { modifiers := { modifiers with template }, dice := none }).sequence := by
  have longer : before ++ (template ++ behind) ≠ [] := by simp [nonempty]
  rw [sequence_of_template none longer, sequence_of_template none nonempty]
  apply List.map_congr_left
  intro values member
  obtain ⟨dice, parsed, -⟩ := rollable_of_combinations checked values member
  have same := verdict_dice_of_pads (substitute_of_pads blankBefore blankBehind template values)
  rw [parsed]
  exact eq_ok_of_verdict same.symm parsed

/-- Alternatives have the same plan, or a combination is refused for the same kind of reason. -/
theorem planned_alternatives_of_pads (modifiers : Modifiers) {template : Text}
    (nonempty : template ≠ []) :
    let several (template : Text) : Except Failure Specification := do
      checkCombinations { modifiers with template } (combinations modifiers.alternatives)
      return { modifiers := { modifiers with template }, dice := none }
    planned (several (before ++ (template ++ behind))) = planned (several template) := by
  have same := verdict_check_combinations_of_pads blankBefore blankBehind modifiers template
    (combinations modifiers.alternatives)
  have sequence := sequence_of_pads blankBefore blankBehind modifiers nonempty
  intro several
  rw [planned_bind, planned_bind, same]
  cases checked : checkCombinations { modifiers with template }
      (combinations modifiers.alternatives) with
  | error failure => rfl
  | ok _ =>
      have plans := congrArg (Plan.mk modifiers.settled) (sequence checked)
      exact congrArg Except.ok plans

end Assembly

theorem planned_chance_of_pads (modifiers : Modifiers) (pads : Pads part padded) (digits : Text)
    {label other : Text} (same : trim other = trim label) :
    let percentile (text label : Text) : Except Failure Specification := do
      checkChance modifiers text
      let chance ← wholeNumber digits
      return { modifiers := { modifiers with chance := some chance, chanceLabel := label },
               dice := some percentileDice }
    planned (percentile padded other) = planned (percentile part label) := by
  have plans (chance : Nat) :
      plan {
        modifiers := { modifiers with chance := some chance, chanceLabel := other }
        dice := some percentileDice } =
      plan {
        modifiers := { modifiers with chance := some chance, chanceLabel := label }
        dice := some percentileDice } := by
    simp only [plan, Modifiers.settled, same]
    rfl
  intro percentile
  simp only [percentile, planned_bind, verdict_check_chance_of_pads pads]
  refine congrArg (_ >>= ·) (funext fun _ => congrArg (_ >>= ·) (funext fun chance => ?_))
  exact congrArg Except.ok (plans chance)

/-- Blanks around an expression with its limits change neither the plan of the specification nor
the kind of its refusal. -/
theorem planned_assemble_of_pads (modifiers : Modifiers) (pads : Pads part padded) :
    planned (assemble modifiers padded) = planned (assemble modifiers part) := by
  obtain ⟨more, blankMore, chance⟩ := exists_read_chance_of_pads pads
  have ⟨before, behind, whole, blankBefore, blankBehind⟩ := pads
  subst whole
  rw [assemble, assemble, Segment.values_of_pads blankBefore blankBehind,
    Segment.template_of_pads blankBefore blankBehind, chance, planned_bind, planned_bind]
  cases offered : readAlternatives ((Segment.ofText part).filterMap Segment.values?) with
  | error failure => rfl
  | ok alternatives =>
      cases alternatives with
      | nil =>
          cases readChance? part with
          | none =>
              change planned (buildDice _ _ >>= _) = planned (buildDice _ _ >>= _)
              rw [planned_bind, planned_bind, verdict_build_dice_of_pads pads]
              rfl
          | some found =>
              exact planned_chance_of_pads { modifiers with alternatives := [], template := [] } pads
                found.1 (trim_append_blanks blankMore found.2)
      | cons values sets =>
          cases readChance? part with
          | none =>
              have nonempty := template_of_offers offered (List.cons_ne_nil values sets)
              exact planned_alternatives_of_pads blankBefore blankBehind
                { modifiers with alternatives := values :: sets } nonempty
          | some found => rfl

section Clauses

/-- The expression with its limits, without outer blanks, and what the clauses set. -/
def cut (modifiers : Modifiers) (text : Text) : Except Failure (Text × Modifiers) :=
  (splitModifiers modifiers text).map fun (written, final) => (trim written, final)

def limitsOf (clauses : List Text) : Text :=
  (clauses.filter Clause.startsWithLimit).flatMap ('|' :: ·)

theorem cut_eq {text first : Text} {clauses : List Text} (parts : splitOn '|' text = first :: clauses)
    (modifiers : Modifiers) :
    cut modifiers text = (clauses.foldlM Modifiers.withText modifiers).map fun final =>
      (trim (trim first ++ limitsOf clauses), final) := by
  rw [cut, splitModifiers, parts]
  cases clauses with
  | nil =>
      have whole := join_splitOn '|' text
      rw [parts] at whole
      change Except.ok (trim text, modifiers) = Except.ok (trim (trim first ++ []), modifiers)
      rw [List.append_nil, trim_trim, ← whole]
      rfl
  | cons clause clauses =>
      dsimp only
      rw [read_clauses_eq]
      cases (clause :: clauses).foldlM Modifiers.withText modifiers <;> rfl

theorem trim_limits_append_blanks {blanks : Text} (blank : allBlank blanks = true) (first : Text)
    (clauses : List Text) (last : Text) :
    trim (first ++ limitsOf (clauses ++ [last ++ blanks])) =
      trim (first ++ limitsOf (clauses ++ [last])) := by
  have limit : Clause.startsWithLimit (last ++ blanks) = Clause.startsWithLimit last := by
    rw [← Clause.starts_with_limit_trim_right, trim_right_append_blanks blank,
      Clause.starts_with_limit_trim_right]
  rw [limitsOf, limitsOf, List.filter_append, List.filter_append, List.filter_singleton,
    List.filter_singleton, limit, List.flatMap_append, List.flatMap_append]
  cases Clause.startsWithLimit last with
  | false => rfl
  | true =>
      have behind := trim_append_blanks blank
        (first ++ ((clauses.filter Clause.startsWithLimit).flatMap ('|' :: ·) ++ '|' :: last))
      simpa using behind

theorem cut_of_pads (modifiers : Modifiers) (pads : Pads part padded) :
    cut modifiers padded = cut modifiers part := by
  obtain ⟨before, behind, rfl, blankBefore, blankBehind⟩ := pads
  have front := not_mem_of_blanks blankBefore (by decide : isBlank '|' = false)
  have back := not_mem_of_blanks blankBehind (by decide : isBlank '|' = false)
  obtain ⟨parts, last, short, long⟩ := exists_last_of_split_on back part
  have lead (text : Text) : trim (before ++ text) = trim text :=
    congrArg trimRight (trim_left_append blankBefore text)
  cases parts with
  | nil =>
      rw [cut_eq (split_on_of_lead front long), cut_eq short, lead, trim_append_blanks blankBehind]
  | cons first more =>
      rw [List.cons_append] at short long
      have set : (more ++ [last ++ behind]).foldlM Modifiers.withText modifiers =
          (more ++ [last]).foldlM Modifiers.withText modifiers := by
        rw [← Modifiers.foldlM_trim_right, ← Modifiers.foldlM_trim_right modifiers (more ++ [last]),
          List.map_append, List.map_append, List.map_singleton, List.map_singleton,
          trim_right_append_blanks blankBehind]
      rw [cut_eq (split_on_of_lead front long), cut_eq short, lead, set,
        trim_limits_append_blanks blankBehind]

theorem cut_trim (modifiers : Modifiers) (text : Text) :
    cut modifiers (trim text) = cut modifiers text :=
  (cut_of_pads modifiers (pads_trim text)).symm

theorem cut_append_clause (modifiers : Modifiers) (text : Text) {clause : Text} (bars : '|' ∉ clause)
    (other : Clause.startsWithLimit clause = false) :
    cut modifiers (text ++ '|' :: clause) = cut modifiers text >>= fun (written, set) =>
      (set.withText clause).map fun final => (written, final) := by
  obtain ⟨first, clauses, parts⟩ := List.exists_cons_of_ne_nil (splitOn_ne_nil '|' text)
  have longer : splitOn '|' (text ++ '|' :: clause) = first :: (clauses ++ [clause]) := by
    have behind := split_on_append_parts (List.forall_mem_singleton.mpr bars) text
    rw [parts] at behind
    simpa using behind
  have limits : limitsOf (clauses ++ [clause]) = limitsOf clauses := by
    rw [limitsOf, List.filter_append, List.filter_singleton, other]
    exact congrArg (List.flatMap _) (List.append_nil _)
  rw [cut_eq longer, cut_eq parts, limits, List.foldlM_append]
  cases clauses.foldlM Modifiers.withText modifiers with
  | error failure => rfl
  | ok set =>
      change Except.map _ ([clause].foldlM Modifiers.withText set) = Except.map _ (set.withText clause)
      rw [List.foldlM_cons]
      cases set.withText clause <;> rfl

def partsOf (text : Text) : Except Failure (Text × Modifiers) :=
  cut { title := (splitTitle (hideComparisons text)).1 } (splitTitle (hideComparisons text)).2

theorem planned_parse (text : Text) :
    planned (parse text) = verdict (partsOf text) >>= fun (written, modifiers) =>
      planned (assemble modifiers (replacePairs '/' '/' '÷' written)) := by
  rw [parse_eq, planned_bind, partsOf, cut]
  cases splitModifiers { title := (splitTitle (hideComparisons text)).1 }
      (splitTitle (hideComparisons text)).2 with
  | error failure => rfl
  | ok found =>
      have pads := (pads_trim found.1).replace_pairs (by decide : isBlank '/' = false)
        (by decide : isBlank '/' = false) '÷'
      exact planned_assemble_of_pads found.2 pads

end Clauses

end Specification

end TabletopDice
