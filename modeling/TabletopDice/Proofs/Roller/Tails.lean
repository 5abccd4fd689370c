import TabletopDice.Proofs.Expression.Reparsing
import TabletopDice.Proofs.Roller.Combinations
import TabletopDice.Proofs.Text.Tail

/-!
A tail behind an expression. Where it has no braces it stays behind the template, and so
behind every combination of the alternatives; a chance in percent is read in front of it.
So a tail can be exchanged for another that the dice in front of it are read alike with.
-/

namespace TabletopDice

open Text

namespace Segment

structure Extends (segments base : List Segment) (tail : Text) : Prop where
  values : segments.filterMap values? = base.filterMap values?
  template : ∀ index, template index segments = template index base ++ tail

variable {segments base : List Segment} {tail : Text}

theorem template_cons_plain (index : Nat) (char : Char) (segments : List Segment) :
    template index (consPlain char segments) = char :: template index segments := by
  cases segments with
  | nil => rfl
  | cons segment segments =>
      cases segment with
      | plain text => rfl
      | choice values => rfl

theorem Extends.cons_plain (extend : Extends segments base tail) (char : Char) :
    Extends (consPlain char segments) (consPlain char base) tail where
  values := by rw [values_cons_plain, values_cons_plain, extend.values]
  template := fun index => by
    rw [template_cons_plain, template_cons_plain, extend.template, List.cons_append]

theorem Extends.append_plain (extend : Extends segments base tail) (text : Text) :
    Extends (appendPlain text segments) (appendPlain text base) tail := by
  induction text with
  | nil => exact extend
  | cons char text ih => exact ih.cons_plain char

theorem Extends.cons_choice (extend : Extends segments base tail) (values : Text) :
    Extends (choice values :: segments) (choice values :: base) tail where
  values := congrArg (values :: ·) extend.values
  template := fun index => by
    rw [Segment.template, Segment.template, extend.template, List.append_assoc]

theorem Extends.lead (extend : Extends segments [] tail) (text : Text) :
    Extends (appendPlain text segments) [] (text ++ tail) := by
  induction text with
  | nil => exact extend
  | cons char text ih =>
      refine ⟨?_, fun index => ?_⟩
      · exact (values_cons_plain char _).trans ih.values
      · exact (template_cons_plain index char _).trans (congrArg (char :: ·) (ih.template index))

theorem extends_of_plain (noOpening : '{' ∉ tail) : Extends (split none tail) [] tail := by
  induction tail with
  | nil => exact ⟨rfl, fun _ => rfl⟩
  | cons char tail ih =>
      obtain ⟨other, behind⟩ := List.ne_and_not_mem_of_not_mem_cons noOpening
      rw [split, if_neg (Ne.symm other)]
      exact (ih behind).lead [char]

/-- A brace that is opened and not closed is plain too. -/
theorem extends_of_opened (noOpening : '{' ∉ tail) (noClosing : '}' ∉ tail) (read : Text) :
    Extends (split (some read) tail) [] ('{' :: read.reverse ++ tail) := by
  have empty : Extends [] [] [] := ⟨rfl, fun _ => rfl⟩
  induction tail generalizing read with
  | nil => exact empty.lead ('{' :: read.reverse)
  | cons char tail ih =>
      have plain := List.not_mem_of_not_mem_cons noOpening
      obtain ⟨other, behind⟩ := List.ne_and_not_mem_of_not_mem_cons noClosing
      have moved : '{' :: read.reverse ++ char :: tail =
          '{' :: (char :: read).reverse ++ tail := by simp
      rw [split, if_neg (Ne.symm other)]
      split
      next lineEnd =>
        have rest := (extends_of_plain plain).lead ('{' :: read.reverse ++ ['\n'])
        rw [List.append_assoc] at rest
        rw [lineEnd]
        exact rest
      next =>
        rw [moved]
        exact ih plain behind (char :: read)

theorem extends_split (noOpening : '{' ∉ tail) (noClosing : '}' ∉ tail) (opened : Option Text)
    (text : Text) : Extends (split opened (text ++ tail)) (split opened text) tail := by
  induction text generalizing opened with
  | nil =>
      cases opened with
      | none => exact extends_of_plain noOpening
      | some read =>
          have whole := extends_of_opened noOpening noClosing read
          have base := extends_of_opened List.not_mem_nil List.not_mem_nil read
          refine ⟨whole.values.trans base.values.symm, fun index => ?_⟩
          rw [List.nil_append, whole.template, base.template, List.append_nil]
          rfl
  | cons char text ih =>
      rw [List.cons_append]
      cases opened with
      | none =>
          rw [split, split]
          split
          · exact ih (some [])
          · exact (ih none).cons_plain char
      | some read =>
          rw [split, split]
          split
          · exact (ih none).cons_choice read.reverse
          · split
            · exact (ih none).append_plain _
            · exact ih (some (char :: read))

theorem extends_of_text (noOpening : '{' ∉ tail) (noClosing : '}' ∉ tail) (text : Text) :
    Extends (ofText (text ++ tail)) (ofText text) tail :=
  extends_split noOpening noClosing none text

end Segment

/-- Places are closed by a brace, so none of them reaches into the tail. -/
theorem substitute_append {tail : Text} (noClosing : '}' ∉ tail) (index : Nat) (template : Text)
    (values : List Text) :
    substitute index (template ++ tail) values = substitute index template values ++ tail := by
  induction values generalizing index template with
  | nil => rfl
  | cons value values ih =>
      have first := replace_first_append noClosing ('{' :: ofNat index) value template
      rw [substitute, substitute, ← ih]
      exact congrArg (substitute (index + 1) · values) first

namespace Specification

theorem read_chance_append (text rest : Text) :
    readChance? (text ++ '|' :: rest) = none ↔ readChance? text = none := by
  have digits : Stops isDigit ('|' :: rest) := stops_cons.mpr (by decide +kernel)
  have blank : Stops isBlank ('|' :: rest) := stops_cons.mpr (by decide)
  unfold readChance?
  rw [trim_left_append_of_stops blank, span_digits_append_of_stops digits]
  cases spanDigits (trimLeft text) with
  | mk digits behind =>
      cases digits with
      | nil => exact Iff.rfl
      | cons digit digits =>
          cases behind with
          | nil => exact Iff.rfl
          | cons char behind =>
              by_cases percent : char = '%'
              · subst percent
                exact iff_of_false nofun nofun
              · refine iff_of_true ?_ ?_
                all_goals
                  split
                  next => rfl
                  next same =>
                    cases same
                    exact absurd rfl percent
                  next => rfl

/-- The specification for an expression with its limits, once the other clauses are read. -/
def assemble (modifiers : Modifiers) (expression : Text) : Except Failure Specification := do
  let segments := Segment.ofText expression
  let alternatives ← readAlternatives (segments.filterMap Segment.values?)
  let modifiers := { modifiers with
    alternatives
    template := if alternatives.isEmpty then [] else Segment.template 0 segments }
  match readChance? expression with
  | some (digits, chanceLabel) =>
      checkChance modifiers expression
      let chance ← wholeNumber digits
      return { modifiers := { modifiers with chance := some chance, chanceLabel },
               dice := some percentileDice }
  | none =>
      if alternatives.isEmpty then
        return { modifiers, dice := some (← buildDice modifiers expression) }
      else
        checkCombinations modifiers (combinations alternatives)
        return { modifiers, dice := none }

theorem parse_eq (text : Text) :
    parse text =
      splitModifiers { title := (splitTitle (hideComparisons text)).1 }
          (splitTitle (hideComparisons text)).2 >>= fun (written, modifiers) =>
        assemble modifiers (replacePairs '/' '/' '÷' written) := rfl

/-- Behind any text that is dice with the one tail, the other gives the same dice. -/
structure Exchangeable (one other : Text) : Prop where
  plain : ('{' ∉ one ∧ '}' ∉ one) ∧ '{' ∉ other ∧ '}' ∉ other
  bars : one = [] ∧ other = [] ∨ ∃ first second, one = '|' :: first ∧ other = '|' :: second
  read : ∀ text dice, Dice.parse (text ++ one) = .ok dice → Dice.parse (text ++ other) = .ok dice

/-- Two specifications that differ in the template that they keep, but are rolled alike. -/
structure RollsAlike (one other : Specification) : Prop where
  modifiers : other.modifiers = { one.modifiers with template := other.modifiers.template }
  sequence : (Roller.ofSpecification other).sequence = (Roller.ofSpecification one).sequence

theorem RollsAlike.refl (specification : Specification) : RollsAlike specification specification :=
  ⟨rfl, rfl⟩

theorem no_bar_of_check_chance {modifiers : Modifiers} {expression : Text}
    (allowed : checkChance modifiers expression = .ok ()) : '|' ∉ expression := by
  simp only [checkChance, guard_eq_ok] at allowed
  simpa using allowed.2.1

section Exchange

variable {one other : Text} (exchangeable : Exchangeable one other) {modifiers : Modifiers}

include exchangeable

theorem build_dice_of_exchanged {text : Text} {dice : Dice}
    (built : buildDice modifiers (text ++ one) = .ok dice) :
    buildDice modifiers (text ++ other) = .ok dice := by
  simp only [buildDice, guard_eq_ok, bind_eq_ok] at built ⊢
  obtain ⟨visible, parsed, accepted, checked⟩ := built
  refine ⟨?_, parsed, exchangeable.read text parsed accepted, checked⟩
  rcases exchangeable.bars with ⟨rfl, rfl⟩ | ⟨first, second, -, rfl⟩
  · exact visible
  · have bar : '|' ∈ text ++ '|' :: second := by simp
    exact Bool.eq_false_iff.mp (not_all_blank bar (by decide))

variable (modifiers) in
theorem check_combinations_of_exchanged {template : Text} {combinations : List (List Text)}
    (checked : checkCombinations { modifiers with template := template ++ one } combinations =
      .ok ()) :
    checkCombinations { modifiers with template := template ++ other } combinations = .ok () := by
  induction combinations with
  | nil => rfl
  | cons values rest ih =>
      simp only [checkCombinations, bind_eq_ok, substitute_append exchangeable.plain.1.2] at checked
      simp only [checkCombinations, bind_eq_ok, substitute_append exchangeable.plain.2.2]
      obtain ⟨dice, built, behind⟩ := checked
      exact ⟨dice, build_dice_of_exchanged exchangeable built, ih behind⟩

variable (modifiers) in
theorem sequence_of_exchanged {template : Text} (barred : one ≠ [] ∧ other ≠ [])
    (checked : checkCombinations { modifiers with template := template ++ one }
      (combinations modifiers.alternatives) = .ok ()) :
    (Roller.ofSpecification
        { modifiers := { modifiers with template := template ++ other }, dice := none }).sequence =
      (Roller.ofSpecification
        { modifiers := { modifiers with template := template ++ one }, dice := none }).sequence := by
  rw [sequence_of_template none (List.append_ne_nil_of_right_ne_nil template barred.2),
    sequence_of_template none (List.append_ne_nil_of_right_ne_nil template barred.1)]
  apply List.map_congr_left
  intro values member
  obtain ⟨dice, parsed, -⟩ := rollable_of_combinations checked values member
  rw [substitute_append exchangeable.plain.1.2] at parsed ⊢
  rw [substitute_append exchangeable.plain.2.2, parsed]
  exact exchangeable.read _ dice parsed

theorem assemble_of_exchanged {expression : Text} {specification : Specification}
    (accepted : assemble modifiers (expression ++ one) = .ok specification) :
    ∃ exchanged, assemble modifiers (expression ++ other) = .ok exchanged ∧
      RollsAlike specification exchanged := by
  have left := Segment.extends_of_text exchangeable.plain.1.1 exchangeable.plain.1.2 expression
  have right := Segment.extends_of_text exchangeable.plain.2.1 exchangeable.plain.2.2 expression
  rcases exchangeable.bars with ⟨rfl, rfl⟩ | ⟨first, second, barred, otherBarred⟩
  · exact ⟨specification, accepted, RollsAlike.refl specification⟩
  · have nonempty : one ≠ [] ∧ other ≠ [] := by simp [barred, otherBarred]
    simp only [assemble, bind_eq_ok, left.values, right.values, left.template,
      right.template] at accepted ⊢
    obtain ⟨alternatives, offered, made⟩ := accepted
    split at made
    next digits label read =>
      -- A chance in percent has no limits.
      simp only [bind_eq_ok, pure_eq_ok] at made
      obtain ⟨_, allowed, -⟩ := made
      have bar : '|' ∈ expression ++ one := by simp [barred]
      exact absurd bar (no_bar_of_check_chance allowed)
    next plain =>
      have otherPlain : readChance? (expression ++ other) = none := by
        rw [barred, read_chance_append] at plain
        rw [otherBarred, read_chance_append]
        exact plain
      rw [otherPlain]
      split at made
      next absent =>
        obtain rfl := List.isEmpty_iff.mp absent
        simp only [bind_eq_ok, pure_eq_ok] at made
        obtain ⟨dice, built, rfl⟩ := made
        refine ⟨_, ⟨[], offered, ?_⟩, RollsAlike.refl _⟩
        have exchanged := build_dice_of_exchanged exchangeable built
        exact bind_eq_ok.mpr ⟨dice, exchanged, rfl⟩
      next present =>
        simp only [bind_eq_ok, pure_eq_ok] at made
        obtain ⟨⟨⟩, checked, rfl⟩ := made
        have kept := check_combinations_of_exchanged exchangeable
          { modifiers with alternatives } checked
        have sequences := sequence_of_exchanged exchangeable { modifiers with alternatives }
          nonempty checked
        let exchanged : Modifiers :=
          { modifiers with
            alternatives, template := Segment.template 0 (Segment.ofText expression) ++ other }
        refine ⟨{ modifiers := exchanged, dice := none }, ⟨alternatives, offered, ?_⟩, rfl, sequences⟩
        dsimp only
        rw [if_neg present, if_neg present]
        exact bind_eq_ok.mpr ⟨(), kept, rfl⟩

end Exchange

end Specification

end TabletopDice
