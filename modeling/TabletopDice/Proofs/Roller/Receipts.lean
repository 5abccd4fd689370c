import Mathlib.Data.List.Flatten
import TabletopDice.Proofs.Roller.Combinations
import TabletopDice.Proofs.Roller.Consistency
import TabletopDice.Proofs.Roller.Independence
import TabletopDice.Proofs.Roller.Secrecy
import TabletopDice.Proofs.Text.Lines

/-!
Receipts of secret rolls. A specification that is given and one that is remembered have the
same receipt as long as it is told by the dice. Sets of values in braces have no dice of their
own: the text that is given stands for them, and of what is remembered the template, in which
the values are missing. A slash of every set is lost with them, so the two are never the same.
-/

namespace TabletopDice

open Text SessionM

section Slashes

theorem count_replace_pairs_le {char glyph : Char} (other : char ≠ glyph) (first second : Char)
    (text : Text) : (replacePairs first second glyph text).count char ≤ text.count char := by
  induction text using replacePairs.induct first second with
  | case1 => exact Nat.le_refl _
  | case2 only => exact Nat.le_refl _
  | case3 front next rest same ih =>
      rw [replacePairs, if_pos same, List.count_cons_of_ne other.symm]
      exact Nat.le_trans ih (((List.sublist_cons_self next rest).cons front).count_le char)
  | case4 front next rest apart ih =>
      rw [replacePairs, if_neg apart, List.count_cons, List.count_cons]
      exact Nat.add_le_add_right ih _

theorem length_split_on_eq_count (separator : Char) (text : Text) :
    (splitOn separator text).length = text.count separator + 1 := by
  induction text with
  | nil => rfl
  | cons char rest ih =>
      simp only [splitOn]
      split
      next same => rw [same, List.length_cons, ih, List.count_cons_self]
      next other =>
        rw [List.count_cons_of_ne other, ← ih]
        split
        next none => exact absurd none (splitOn_ne_nil separator rest)
        next part parts found => rw [found, List.length_cons, List.length_cons]

theorem eq_of_split_on {separator : Char} {text first : Text} {parts : List Text}
    (split : splitOn separator text = first :: parts) :
    text = first ++ parts.flatMap (separator :: ·) := by
  rw [← join_splitOn separator text, split]
  clear split
  induction parts generalizing first with
  | nil => exact (List.append_nil first).symm
  | cons part parts ih => rw [join_cons_cons, ih, List.append_assoc, List.flatMap_cons]; rfl

theorem trim_sublist (text : Text) : (trim text).Sublist text := by
  obtain ⟨before, behind, whole, -, -⟩ := exists_blanks text
  conv_rhs => rw [whole]
  exact (List.sublist_append_right before (trim text)).trans (List.sublist_append_left _ behind)

theorem split_first_suffix {separator : Char} {text before behind : Text}
    (found : splitFirst? separator text = some (before, behind)) : behind <:+ text := by
  induction text generalizing before with
  | nil => cases found
  | cons char rest ih =>
      simp only [splitFirst?] at found
      split at found
      · cases found
        exact List.suffix_cons char _
      · obtain ⟨⟨front, last⟩, later, same⟩ := Option.map_eq_some_iff.mp found
        cases same
        exact (ih later).trans (List.suffix_cons char rest)

end Slashes

namespace Segment

theorem no_slash_in_place (index : Nat) : (place index).count '/' = 0 := by
  apply List.count_eq_zero.mpr
  intro member
  rcases List.mem_append.mp member with front | last
  · rcases List.mem_cons.mp front with brace | digit
    · exact absurd brace (by decide)
    · exact absurd (is_ascii_digit_of_nat digit) (by decide)
  · exact absurd last (by decide)

/-- The slashes are in the template or in the values that it lacks. -/
theorem slashes_template (segments : List Segment) (index : Nat) :
    (template index segments).count '/' +
        ((segments.filterMap values?).map fun values => values.count '/').sum =
      (segments.flatMap written).count '/' := by
  induction segments generalizing index with
  | nil => rfl
  | cons segment segments ih =>
      rw [List.flatMap_cons, List.count_append]
      cases segment with
      | plain text =>
          have same : (plain text).written = text := rfl
          have behind := ih index
          rw [List.filterMap_cons_none rfl, template, List.count_append, same]
          omega
      | choice values =>
          have braces : (choice values).written.count '/' = values.count '/' := by
            simp [written]
          have listed : values? (choice values) = some values := rfl
          have behind := ih (index + 1)
          rw [List.filterMap_cons_some listed, template, List.count_append, no_slash_in_place,
            List.map_cons, List.sum_cons, braces]
          omega

end Segment

namespace Specification

/-- The core of a text is cut out of it, and its glyphs are no slashes. -/
theorem slashes_core_expression_le (text : Text) :
    (coreExpression text).count '/' ≤ text.count '/' := by
  have hidden : (hideComparisons text).count '/' ≤ text.count '/' :=
    Nat.le_trans (count_replace_pairs_le (by decide) _ _ _)
      (count_replace_pairs_le (by decide) _ _ _)
  have titled : (splitTitle (hideComparisons text)).2.Sublist (hideComparisons text) := by
    unfold splitTitle
    split
    next title rest found => exact (trim_sublist rest).trans (split_first_suffix found).sublist
    next => exact List.Sublist.refl _
  unfold coreExpression
  dsimp only
  generalize (splitTitle (hideComparisons text)).2 = rest at titled ⊢
  refine Nat.le_trans (count_replace_pairs_le (by decide) _ _ _)
    (Nat.le_trans ?_ (Nat.le_trans (titled.count_le '/') hidden))
  split
  next first second more parts =>
    rw [eq_of_split_on parts]
    exact ((trim_sublist first).append (List.filter_sublist.flatMap _)).count_le '/'
  next => exact Nat.le_refl _

theorem slash_of_read_alternatives {texts : List Text} {sets : List (List Text)}
    (read : readAlternatives texts = .ok sets) : ∀ values ∈ texts, 0 < values.count '/' := by
  obtain ⟨rfl, several⟩ := read_alternatives_eq_ok.mp read
  intro values member
  have two := several _ (List.mem_map_of_mem member)
  rw [length_split_on_eq_count] at two
  omega

theorem template_ne_text {text : Text} {sets : List (List Text)}
    (offered : Offers (coreExpression text) sets) (present : sets ≠ []) :
    Segment.template 0 (Segment.ofText (coreExpression text)) ≠ text := by
  have slashes := Segment.slashes_template (Segment.ofText (coreExpression text)) 0
  have fewer := slashes_core_expression_le text
  have some : 0 < (((Segment.ofText (coreExpression text)).filterMap Segment.values?).map
      fun values => values.count '/').sum := by
    have each := slash_of_read_alternatives offered
    unfold Offers at offered
    generalize (Segment.ofText (coreExpression text)).filterMap Segment.values? = texts at *
    cases texts with
    | nil =>
        cases offered
        exact absurd rfl present
    | cons first others =>
        have here := each first List.mem_cons_self
        rw [List.map_cons, List.sum_cons]
        omega
  rw [Segment.written_of_text] at slashes
  intro same
  rw [same] at slashes
  omega

/-- What the receipt of a specification tells behind the notice, with the text that was given. -/
def receipt (specification : Specification) (given : Text) : List Fragment :=
  match specification.dice with
  | some dice => specification.modifiers.request dice
  | none => [⟨.die, if given.isEmpty then specification.modifiers.template else given⟩]

theorem dice_or_template {text : Text} {specification : Specification}
    (accepted : parse text = .ok specification) :
    (∃ dice, specification.dice = some dice ∧ valueSets (coreExpression text) = []) ∨
      (specification.dice = none ∧ specification.modifiers.chance = none ∧
        valueSets (coreExpression text) ≠ [] ∧
        specification.modifiers.template =
          Segment.template 0 (Segment.ofText (coreExpression text)) ∧
        Segment.template 0 (Segment.ofText (coreExpression text)) ≠ text) := by
  cases accepted_of_parse accepted with
  | chance cut offered | single cut offered => exact .inl ⟨_, rfl, cut.value_sets offered⟩
  | several cut offered present =>
      right
      have chance := cut.collected.chance
      rw [cut.value_sets offered, ← cut.core]
      refine ⟨rfl, chance, present, rfl, ?_⟩
      rw [cut.core] at offered ⊢
      exact template_ne_text offered present

end Specification

namespace SessionM

open Specification

variable {text : Text} {specification : Specification}

theorem run_explain_secret (accepted : Specification.parse text = .ok specification)
    {given : Text} {session after : Session}
    (required : (requireSpecification given).run.run session = (.ok (), after))
    (remembers : Remembers specification after) (notice : Text) :
    (explainSecret given notice).run.run session =
      (.ok (specification.modifiers.title,
        { suppressed := true, details := ⟨.notice, notice⟩ :: specification.receipt given }),
        after) := by
  obtain ⟨last, same⟩ := remembers
  rw [explainSecret, run_bind, required]
  have told : after.roller.requestFragments given = .ok (specification.receipt given) := by
    rw [same]
    rcases dice_or_template accepted with ⟨dice, single, -⟩ | ⟨none, noChance, -⟩
    · rw [receipt, single]
      exact Roller.request_fragments_of_dice single (tellable_of_accepted accepted dice single) given
    · simp only [Roller.requestFragments, Roller.ofSpecification, receipt, none, noChance]
      rfl
  simp only [run_bind, run_get, told]
  rw [same]
  rfl

/-- The receipt of an accepted specification that is remembered tells the title and the request of
the receipt where its text is given, if and only if there is no set of values in braces. Else the
one tells the text, and the other the template, which lacks the values. -/
theorem receipts_agree_iff (accepted : Specification.parse text = .ok specification)
    (notice : Text) (first second : Session) :
    ∃ given remembered : List Fragment,
      ((explainSecret text notice).run.run first).1 =
        .ok (specification.modifiers.title,
          { suppressed := true, details := ⟨.notice, notice⟩ :: given }) ∧
      ((explainSecret [] notice).run.run (afterCalls second [.set text])).1 =
        .ok (specification.modifiers.title,
          { suppressed := true, details := ⟨.notice, notice⟩ :: remembered }) ∧
      (given = remembered ↔ valueSets (coreExpression text) = []) ∧
      (valueSets (coreExpression text) ≠ [] →
        given = [⟨.die, text⟩] ∧
          remembered = [⟨.die, Segment.template 0 (Segment.ofText (coreExpression text))⟩]) := by
  have set : Remembers specification (afterCalls second [.set text]) := by
    change Remembers specification ((setSpecification text).run.run second).2
    rw [run_set_specification, accepted]
    exact remembers_of_set specification second
  have explained := run_explain_secret accepted (run_require_specification accepted first)
    (remembers_of_set specification first) notice
  have repeated := run_explain_secret accepted (run_require_remembered accepted set) set notice
  refine ⟨specification.receipt text, specification.receipt [], by rw [explained],
    by rw [repeated], ?_⟩
  rcases dice_or_template accepted with ⟨dice, single, plain⟩ | ⟨none, -, grouped, template, lacking⟩
  · simp only [receipt, single]
    exact ⟨iff_of_true trivial plain, fun grouped => absurd plain grouped⟩
  · have given : specification.receipt text = [⟨.die, text⟩] := by
      cases text with
      | nil =>
          rw [parse_nil] at accepted
          cases accepted
      | cons char rest =>
          rw [receipt, none]
          rfl
    have remembered : specification.receipt [] = [⟨.die, specification.modifiers.template⟩] := by
      rw [receipt, none]
      rfl
    rw [given, remembered, template]
    refine ⟨iff_of_false ?_ grouped, fun _ => ⟨rfl, rfl⟩⟩
    intro same
    injection same with fragment
    injection fragment with _ sameText
    exact lacking sameText.symm

/-- A title, two sets and limits, with another roller that has a past. -/
theorem receipts_agree_iff_of_two_sets :
    let text := "Hit = {2/3}d6 + {4/0}|max 12|repeat 2".toList
    let template := "{0}d6 + {1}|max 12".toList
    let session : Session := { source := Source.highest }
    let second := afterCalls session [.roll "d20|c".toList]
    (∃ specification, Specification.parse text = .ok specification ∧
      ((explainSecret text []).run.run session).1 = .ok (specification.modifiers.title,
        { suppressed := true, details := [⟨.notice, []⟩, ⟨.die, text⟩] }) ∧
      ((explainSecret [] []).run.run (afterCalls second [.set text])).1 =
        .ok (specification.modifiers.title,
          { suppressed := true, details := [⟨.notice, []⟩, ⟨.die, template⟩] })) := by
  intro text template session second
  obtain ⟨specification, accepted⟩ : ∃ specification, Specification.parse text = .ok specification :=
    exists_of_is_ok (by decide +kernel)
  have grouped : valueSets (coreExpression text) ≠ [] := by decide +kernel
  have written : Segment.template 0 (Segment.ofText (coreExpression text)) = template := by
    decide +kernel
  obtain ⟨given, remembered, explained, repeated, -, several⟩ :=
    receipts_agree_iff accepted [] session second
  obtain ⟨rfl, rfl⟩ := several grouped
  rw [written] at repeated
  exact ⟨specification, accepted, explained, repeated⟩

/-- With a bonus of one or two in braces the receipts differ. -/
theorem not_receipts_agree_of_two_bonuses :
    let text := "d20+{1/2}".toList
    let session : Session := { source := Source.highest }
    ((setSpecification text).run.run session).1 = .ok () ∧
      ((explainSecret [] ['n']).run.run (afterCalls session [.set text])).1 =
        .ok ([], { suppressed := true, details := [⟨.notice, ['n']⟩, ⟨.die, "d20+{0}".toList⟩] }) ∧
      ((explainSecret [] ['n']).run.run (afterCalls session [.set text])).1 ≠
        ((explainSecret text ['n']).run.run session).1 := by
  decide +kernel

end SessionM

end TabletopDice
