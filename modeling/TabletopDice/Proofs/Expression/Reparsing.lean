import TabletopDice.Proofs.Expression.Printing

/-!
Reading a printed row again. The parser meets one token for each component and makes
the component of it again, provided that every value in the row reads back; and it
meets a confirmation only where a label mentions one.
-/

namespace TabletopDice

open Text

theorem stops_glyph_text {component : Component} (noRun : component.isRun = false)
    (rest : Text) : Stops continuesWord (component.toText ++ rest) := by
  obtain ⟨glyph, text, -, isGlyph⟩ := exists_glyph noRun
  rw [text]
  exact stops_cons.mpr (not_continues_word glyph (mem_glyphs isGlyph))

theorem stops_row {component : Component} {row : List Component}
    (separated : Separated (component :: row)) (run : component.isRun = true) {rest : Text}
    (stops : Stops continuesWord rest) : Stops continuesWord (rowText row ++ rest) := by
  cases row with
  | nil => exact stops
  | cons next row =>
      have apart := (List.isChain_cons_cons.mp separated).1
      rw [run] at apart
      have noRun : next.isRun = false := by simpa using apart
      rw [row_text_cons, List.append_assoc]
      exact stops_glyph_text noRun _

theorem confirmation_of_row {row : List Component} (separated : Separated row)
    (written : ∀ component ∈ row, component.IsWritten) {rest : Text}
    (stops : Stops continuesWord rest) (before : Bool) :
    someWordStart startsConfirmation before (rowText row ++ rest) =
      ((row.any fun component => mentionsConfirmation component.name) ||
        someWordStart startsConfirmation false rest) := by
  induction row generalizing before with
  | nil => exact some_word_start_of_stops stops before
  | cons component row ih =>
      obtain ⟨first, others⟩ := List.forall_mem_cons.mp written
      have behind := ih (List.IsChain.tail separated) others
      rw [row_text_cons, List.append_assoc, List.any_cons, Bool.or_assoc]
      cases run : component.isRun with
      | true =>
          have quiet : 'c' ∉ component.head := not_mem_head (component.head_chars first) rfl
          rw [component.to_text_of_run run first,
            confirmation_of_labelled quiet _ (stops_row separated run stops), behind]
      | false =>
          have border := stops_glyph_text run (rowText row ++ rest)
          have silent : mentionsConfirmation component.name = false := by
            cases component with
            | operator op => rfl
            | openGroup => rfl
            | closeGroup => rfl
            | _ => cases run
          obtain ⟨glyph, text, -, isGlyph⟩ := exists_glyph run
          have endsHere := not_continues_word glyph (mem_glyphs isGlyph)
          simp only [continuesWord, Bool.or_eq_false_iff] at endsHere
          rw [some_word_start_of_stops border, text, List.singleton_append, someWordStart,
            starts_confirmation_of_ne, endsHere.1, behind, silent]
          · rfl
          · rintro rfl
            cases isGlyph

theorem not_all_blank {text : Text} {char : Char} (member : char ∈ text)
    (visible : isBlank char = false) : allBlank text = false := by
  rw [allBlank, List.all_eq_false]
  exact ⟨char, member, by simp [visible]⟩

theorem IsDigits.exists_visible {digits : Text} (run : IsDigits digits) :
    ∃ char ∈ digits, isBlank char = false := by
  obtain ⟨char, member⟩ := List.exists_mem_of_ne_nil digits run.nonempty
  exact ⟨char, member, is_visible_of_digit (run.digits char member)⟩

theorem exists_visible {component : Component} (written : component.IsWritten) :
    ∃ char ∈ component.toText, isBlank char = false := by
  cases component with
  | constant value name =>
      suffices shown : ∃ char ∈ value.toText, isBlank char = false by
        obtain ⟨char, member, visible⟩ := shown
        exact ⟨char, List.mem_append_left _ member, visible⟩
      obtain ⟨nonnegative, -⟩ := written
      cases value with
      | finite negative units =>
          cases nonnegative
          obtain ⟨char, member, visible⟩ := (is_digits_of_whole units).exists_visible
          rw [Double.to_text_of_finite]
          exact ⟨char, List.mem_append_left _ member, visible⟩
      | infinite negative =>
          cases nonnegative
          exact ⟨'i', by decide, by decide⟩
      | notANumber negative => cases nonnegative
  | die group =>
      obtain ⟨char, member, visible⟩ := (is_digits_of_int written.proper.numerator).exists_visible
      rw [die_to_text written.proper]
      refine ⟨char, List.mem_append_left _ ?_, visible⟩
      exact List.mem_append_right _ (List.mem_append_left _
        (List.mem_append_left _ (List.mem_append_left _ member)))
  | label name =>
      obtain ⟨char, rest, rfl, -⟩ := exists_label_start written.2.1 written.1.stops_blank
      exact ⟨char, by simp [Component.toText], stops_cons.mp written.1.stops_blank⟩
  | operator op => cases op <;> exact ⟨_, List.mem_singleton_self _, by decide⟩
  | openGroup => exact ⟨'(', by decide, by decide⟩
  | closeGroup => exact ⟨')', by decide, by decide⟩

theorem component_not_blank {component : Component} (written : component.IsWritten) :
    allBlank component.toText = false := by
  obtain ⟨char, member, visible⟩ := exists_visible written
  exact not_all_blank member visible

theorem cons_eq_ok {Fault Value : Type} {first other : Value} {rest : List Value}
    {result : Except Fault (List Value)} :
    List.cons first <$> result = .ok (other :: rest) ↔ first = other ∧ result = .ok rest := by
  cases result with
  | ok row => simp [Functor.map, Except.map]
  | error fault => simp [Functor.map, Except.map]

theorem parse_value_back {component : Component} (isValue : component.isValue = true)
    (written : component.IsWritten) (expression : Text) :
    parseValue component.toText expression = .ok component ↔ component.ReadsBack := by
  cases component with
  | constant value name => exact parse_value_constant written.1 written.2 expression
  | die group => exact parse_value_die written expression
  | _ => cases isValue

/-- The tokens of a row that was read are read as this row exactly if its values read back. -/
theorem parse_tokens_row {expression : Text} {expected : Expected} {depth : Nat}
    {tokens : List Token} {row : List Component} (reads : Reads expression expected depth tokens row)
    (written : ∀ component ∈ row, component.IsWritten) (printed : Text) :
    parseTokens printed expected depth (row.map Component.token) = .ok row ↔
      ∀ component ∈ row, component.ReadsBack := by
  induction reads with
  | finish => simp [parseTokens, pure_eq_ok]
  | skip _ _ ih => exact ih written
  | negation _ ih =>
      rw [List.forall_mem_cons, ← ih (List.forall_mem_cons.mp written).2]
      simp [Component.token, Operator.symbol, parseTokens, Component.ReadsBack, cons_eq_ok]
  | openGroup _ ih =>
      rw [List.forall_mem_cons, ← ih (List.forall_mem_cons.mp written).2]
      simp [Component.token, parseTokens, Component.ReadsBack, cons_eq_ok]
  | closeGroup _ ih =>
      rw [List.forall_mem_cons, ← ih (List.forall_mem_cons.mp written).2]
      simp [Component.token, parseTokens, Component.ReadsBack, cons_eq_ok]
  | @binary depth _ row _ op known _ ih =>
      have isBinary := of_glyph_ne_negate known
      have noGroup : op.symbol ≠ ')' := by cases op <;> decide
      rw [List.forall_mem_cons, ← ih (List.forall_mem_cons.mp written).2]
      simp [Component.token, parseTokens, Component.ReadsBack, cons_eq_ok, noGroup,
        Operator.ofGlyph_symbol isBinary]
  | @value depth _ row _ component read _ ih =>
      obtain ⟨first, others⟩ := List.forall_mem_cons.mp written
      have isValue := parse_value_is_value read
      have run : component.isRun = true := by
        cases component with
        | constant _ _ | die _ => rfl
        | _ => cases isValue
      rw [List.forall_mem_cons, ← ih others, ← parse_value_back isValue first printed,
        List.map_cons, token_of_run run]
      simp [parseTokens, component_not_blank first, bind_eq_ok, cons_eq_ok]
  | @label depth _ row part bare noDie _ ih =>
      obtain ⟨⟨isLabel, isBare, noRead⟩, others⟩ := List.forall_mem_cons.mp written
      have visible := component_not_blank (List.forall_mem_cons.mp written).1
      have spaced : isBareLabel (' ' :: trim part) = true := by
        rw [is_bare_label_space]
        exact isBare
      have plain : DieNotation.read? (' ' :: trim part) = none := by
        rw [DieNotation.read_space]
        exact noRead
      have trimmed : trim (' ' :: trim part) = trim part := by
        rw [trim_space]
        exact isLabel.trimmed
      rw [Component.toText] at visible
      rw [List.forall_mem_cons, ← ih others]
      simp [Component.token, Component.toText, parseTokens, visible, spaced, plain, trimmed,
        Component.ReadsBack, cons_eq_ok]

end TabletopDice
