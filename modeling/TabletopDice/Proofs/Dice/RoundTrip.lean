import TabletopDice.Proofs.Dice.Telling
import TabletopDice.Proofs.Expression.Reparsing

/-!
Dice that are printed and read again. Accepted dice come back exactly if each of their
components can be restored: then the printed row falls into the tokens of its
components, the limits are cut off behind it, and the parser goes the same way again.
-/

namespace TabletopDice

open Text

/-- The component reads back, and behind its blank its label does not confirm anything. -/
def Component.IsRestorable (component : Component) : Prop :=
  component.ReadsBack ∧ mentionsConfirmation component.name = false

instance : DecidablePred Component.IsRestorable := fun _ => inferInstanceAs (Decidable (_ ∧ _))

/-- Printed in one text, an accepted row and its limits are read again exactly if every
component can be restored. -/
theorem parse_expression_back {text : Text} {row : List Component} {limits : Limits}
    (accepted : parseExpression text = .ok (row, limits)) :
    parseExpression (rowText row ++ limits.toText) = .ok (row, limits) ↔
      ∀ component ∈ row, component.IsRestorable := by
  have derived := (well_formed_of_parse_expression accepted).derived
  obtain ⟨-, _, cut, -, parsed⟩ := parse_expression_eq_ok.mp accepted
  have reads := reads_of_parse_tokens parsed
  have written := written_of_parse_expression accepted
  have separated := separated_of_derives derived
  have tokens : Token.ofText (normalize (rowText row)) = row.map Component.token := by
    rw [normalize_row written, tokens_of_row separated written]
  have nonempty : row.map Component.token ≠ [] := by
    rw [ne_eq, List.map_eq_nil_iff]
    exact derived.ne_nil
  have split := split_limits_printed (not_mem_row written (.inr rfl))
    (Limits.tellable_of_split cut)
  have mentions : mentionsConfirmation (rowText row ++ limits.toText) =
      row.any fun component => mentionsConfirmation component.name := by
    rw [mentionsConfirmation, confirmation_of_row separated written (stops_limits limits),
      confirmation_of_limits, Bool.or_false]
  have silent : ¬mentionsConfirmation (rowText row ++ limits.toText) = true ↔
      ∀ component ∈ row, mentionsConfirmation component.name = false := by
    rw [mentions]
    simp
  have back (printed : Text) := parse_tokens_row reads written printed
  rw [parse_expression_eq_ok, silent]
  constructor
  · rintro ⟨quiet, expression, found, -, parsedBack⟩
    rw [split] at found
    cases found
    rw [tokens, back] at parsedBack
    exact fun component member => ⟨parsedBack component member, quiet component member⟩
  · intro restorable
    refine ⟨fun component member => (restorable component member).2, rowText row, split, ?_, ?_⟩
    · rw [tokens]
      exact nonempty
    · rw [tokens, back]
      exact fun component member => (restorable component member).1

namespace Dice

theorem parse_eq_ok {text : Text} (visible : allBlank text = false) {dice : Dice} :
    parse text = .ok dice ↔ parseExpression text = .ok (dice.components, dice.limits) := by
  rw [parse, visible]
  simp only [Bool.false_eq_true, if_false, bind_eq_ok, pure_eq_ok]
  constructor
  · rintro ⟨⟨row, limits⟩, read, rfl⟩
    exact read
  · intro read
    exact ⟨_, read, rfl⟩

/-- Accepted dice can be printed, and what is printed is read as the same dice exactly if each of
their components can be restored. -/
theorem parse_to_text_iff {text : Text} {dice : Dice} (accepted : parse text = .ok dice) :
    ∃ description, dice.description = .ok description ∧
      (parse description = .ok dice ↔ ∀ component ∈ dice.components, component.IsRestorable) := by
  refine ⟨dice.toText, description_of_tellable (tellable_of_parse accepted), ?_⟩
  cases blank : allBlank text with
  | true =>
      have same : dice = twentySided := by
        rw [parse, if_pos blank] at accepted
        cases accepted
        rfl
      have back : parse twentySided.toText = .ok twentySided := by decide +kernel
      have restorable : ∀ component ∈ twentySided.components, component.IsRestorable :=
        List.forall_mem_singleton.mpr ⟨⟨.inr ⟨rfl, rfl⟩, rfl⟩, rfl⟩
      rw [same]
      exact iff_of_true back restorable
  | false =>
      have read := (parse_eq_ok blank).mp accepted
      obtain ⟨row, limits⟩ := dice
      have visible : allBlank (rowText row ++ limits.toText) = false := by
        have nonempty := (well_formed_of_parse_expression read).derived.ne_nil
        obtain ⟨component, member⟩ := List.exists_mem_of_ne_nil row nonempty
        have written := written_of_parse_expression read component member
        obtain ⟨char, inside, shown⟩ := exists_visible written
        have printed : char ∈ rowText row := List.mem_flatMap.mpr ⟨component, member, inside⟩
        exact not_all_blank (List.mem_append_left _ printed) shown
      change parse (rowText row ++ limits.toText) = _ ↔ _
      rw [parse_eq_ok visible]
      exact parse_expression_back read

/-- A decimal number, a die with a sign, a fraction and a choice, and a labelled group, all with
labels and between two limits. -/
theorem parse_to_text_of_labels :
    let dice : Dice := {
      components := [.constant (Double.ofDecimal ['1'] ['5']) "fire".toList, .operator .add,
        .die { sides := 6, numerator := 3, denominator := 2, rerolls := 1, best := false,
               initialMax := true, label := "cold".toList },
        .operator .subtract, .openGroup, .operator .negate,
        .die { sides := 8, label := "sword1".toList }, .closeGroup, .label "total".toList]
      limits := { minimum := -2, maximum := 30 } }
    parse "1.50fire + >3 / 2d6worst of 2 cold-(-d8 sword1) total |max 30|min -2".toList = .ok dice ∧
      (∀ component ∈ dice.components, component.IsRestorable) ∧
      ∃ description, dice.description = .ok description ∧ parse description = .ok dice := by
  intro dice
  have accepted : parse
      "1.50fire + >3 / 2d6worst of 2 cold-(-d8 sword1) total |max 30|min -2".toList = .ok dice := by
    decide +kernel
  have restorable : ∀ component ∈ dice.components, component.IsRestorable := by decide +kernel
  obtain ⟨description, told, back⟩ := parse_to_text_iff accepted
  exact ⟨accepted, restorable, description, told, back.mpr restorable⟩

/-- The worst of one attempt is printed without its choice and comes back as the best of one. -/
theorem not_parse_to_text_of_one_attempt :
    let dice : Dice := { components := [.die { sides := 6, best := false }] }
    parse "d6 worst of 1".toList = .ok dice ∧ dice.description = .ok "1d6".toList ∧
      parse "1d6".toList = .ok { dice with components := [.die { sides := 6 }] } ∧
      parse "1d6".toList ≠ .ok dice := by
  decide +kernel

end Dice

end TabletopDice
