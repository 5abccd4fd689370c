import TabletopDice.Proofs.Json.Objects

/-!
What stands outside the strings of a printed object is plain ASCII, and its only
control characters are line feeds. So a line break of another kind, like any other
character beyond ASCII, can only stand in a string, and a line feed cannot.
-/

namespace TabletopDice.Json

open Text

/-- Whole tokens whose only control characters are line feeds between them. Whatever is not ASCII
stands in a string. -/
structure IsFramed (text : Text) : Prop where
  visible : ∀ char ∈ text, char = '\n' ∨ 0x20 ≤ char.toNat
  guarded : Quotation.outside.Guards text
  parted : ∀ left right, text = left ++ '\n' :: right → Quotation.outside.after left = .outside
  closed : Quotation.outside.after text = .outside

theorem after_of_no_quote {text : Text} (noQuote : '"' ∉ text) :
    Quotation.outside.after text = .outside := by
  induction text with
  | nil => rfl
  | cons char text ih =>
      obtain ⟨other, others⟩ := List.ne_and_not_mem_of_not_mem_cons noQuote
      have outside : Quotation.outside.next char = .outside := if_neg (Ne.symm other)
      change (Quotation.outside.next char).after text = .outside
      rw [outside, ih others]

namespace IsFramed

theorem append {left right : Text} (first : IsFramed left) (second : IsFramed right) :
    IsFramed (left ++ right) where
  visible := by
    intro char member
    rcases List.mem_append.mp member with member | member
    · exact first.visible char member
    · exact second.visible char member
  guarded := by
    apply Quotation.guards_append first.guarded
    rw [first.closed]
    exact second.guarded
  parted := by
    intro before behind same
    rcases List.append_eq_append_iff.mp same with ⟨more, rfl, rest⟩ | ⟨more, whole, rest⟩
    · rw [Quotation.after_append, first.closed]
      exact second.parted more behind rest
    · cases more with
      | nil =>
          rw [List.append_nil] at whole
          rw [← whole]
          exact first.closed
      | cons char more =>
          obtain ⟨rfl, -⟩ := List.cons.inj rest
          exact first.parted before more whole
  closed := by rw [Quotation.after_append, first.closed, second.closed]

theorem of_ascii {text : Text} (ascii : ∀ char ∈ text, char.toNat < 0x80)
    (visible : ∀ char ∈ text, char = '\n' ∨ 0x20 ≤ char.toNat) (noQuote : '"' ∉ text) :
    IsFramed text where
  visible := visible
  guarded := Quotation.guards_of_ascii _ ascii
  parted := by
    rintro left right rfl
    exact after_of_no_quote fun member => noQuote (List.mem_append_left _ member)
  closed := after_of_no_quote noQuote

theorem nil : IsFramed [] := of_ascii (by simp) (by simp) (by simp)

theorem join {parts : List Text} (framed : ∀ part ∈ parts, IsFramed part) :
    IsFramed (Text.join [','] parts) := by
  induction parts with
  | nil => exact nil
  | cons part parts ih =>
      obtain ⟨first, others⟩ := List.forall_mem_cons.mp framed
      cases parts with
      | nil => exact first
      | cons second parts =>
          have comma : IsFramed [','] := of_ascii (by decide) (by decide) (by decide)
          exact (first.append comma).append (ih others)

end IsFramed

theorem escaped_guards (text : Text) : Quotation.inside.Guards (text.flatMap escapeChar) ∧
    Quotation.inside.after (text.flatMap escapeChar) = .inside := by
  induction text with
  | nil => exact ⟨Quotation.guards_of_ascii _ fun char member => absurd member List.not_mem_nil, rfl⟩
  | cons char text ih =>
      obtain ⟨guards, after⟩ := (escaped_escape_char char).guards
      rw [List.flatMap_cons]
      constructor
      · apply Quotation.guards_append guards
        rw [after]
        exact ih.1
      · rw [Quotation.after_append, after, ih.2]

theorem visible_print_string (text : Text) : ∀ char ∈ printString text, 0x20 ≤ char.toNat := by
  intro char member
  rw [printString] at member
  rcases List.mem_append.mp member with member | member
  · rcases List.mem_cons.mp member with rfl | member
    · decide
    · obtain ⟨source, -, member⟩ := List.mem_flatMap.mp member
      exact (escaped_escape_char source).visible char member
  · rw [List.mem_singleton.mp member]
    decide

theorem framed_print_string (text : Text) : IsFramed (printString text) where
  visible := fun char member => .inr (visible_print_string text char member)
  guarded := by
    obtain ⟨guards, after⟩ := escaped_guards text
    have opening : Quotation.outside.Guards ['"'] := Quotation.guards_of_ascii _ (by decide)
    apply Quotation.guards_append (Quotation.guards_append opening guards)
    exact Quotation.guards_of_ascii _ (by decide)
  parted := by
    intro left right same
    have visible := visible_print_string text '\n' (by simp [same])
    exact absurd visible (by decide)
  closed := by
    have after := (escaped_guards text).2
    rw [printString, Quotation.after_append]
    change (Quotation.inside.after (text.flatMap escapeChar)).after ['"'] = .outside
    rw [after]
    rfl

theorem framed_print {value : Json} (flat : value.IsFlat) : IsFramed value.print := by
  cases value with
  | string text => exact framed_print_string text
  | integer value =>
      have code : ∀ char ∈ ofInt value, char.toNat < 0x80 ∧ 0x20 ≤ char.toNat := by
        intro char member
        rcases of_int_chars value char member with rfl | digit
        · decide
        · have code := code_of_ascii_digit digit
          omega
      exact .of_ascii (fun char member => (code char member).1)
        (fun char member => .inr (code char member).2) (not_mem_int (by decide) rfl)
  | _ => cases flat

theorem framed_member {member : Text × Json} (flat : member.2.IsFlat) :
    IsFramed (printIndentedMember member) := by
  have indent : IsFramed "\n    ".toList := .of_ascii (by decide) (by decide) (by decide)
  have colon : IsFramed [':', ' '] := .of_ascii (by decide) (by decide) (by decide)
  have framed := ((indent.append (framed_print_string member.1)).append colon).append
    (framed_print flat)
  rwa [List.append_assoc] at framed

theorem framed_print_indented {members : List (Text × Json)}
    (flat : ∀ member ∈ members, member.2.IsFlat) : IsFramed (printIndented members) := by
  unfold printIndented
  split
  next => exact .of_ascii (by decide) (by decide) (by decide)
  next =>
    have opening : IsFramed ['\x7b'] := .of_ascii (by decide) (by decide) (by decide)
    have closing : IsFramed ['\n', '\x7d'] := .of_ascii (by decide) (by decide) (by decide)
    have middle : IsFramed (join [','] (members.map printIndentedMember)) := by
      apply IsFramed.join
      intro part here
      obtain ⟨member, known, rfl⟩ := List.mem_map.mp here
      exact framed_member (flat member known)
    exact (opening.append middle).append closing

/-- The character breaks lines and is written as itself. -/
def IsWideBreak (char : Char) : Prop :=
  char.toNat = 0x85 ∨ char.toNat = 0x2028 ∨ char.toNat = 0x2029

instance (char : Char) : Decidable (IsWideBreak char) :=
  inferInstanceAs (Decidable (_ ∨ _ ∨ _))

theorem is_line_break_of_visible {char : Char} (visible : 0x20 ≤ char.toNat) :
    isLineBreak char = true ↔ IsWideBreak char := by
  simp only [isLineBreak, IsWideBreak, Bool.or_eq_true, Bool.and_eq_true, decide_eq_true_eq,
    beq_iff_eq]
  omega

section Breaks

variable {left right : Text}

theorem by_line_feed_append :
    BreaksByLineFeed (left ++ right) ↔ BreaksByLineFeed left ∧ BreaksByLineFeed right :=
  List.forall_mem_append

theorem by_line_feed_of_ascii {text : Text}
    (ascii : ∀ char ∈ text, 0x20 ≤ char.toNat ∧ char.toNat < 0x80) : BreaksByLineFeed text := by
  intro char member isBreak
  obtain ⟨visible, below⟩ := ascii char member
  rw [is_line_break_of_visible visible, IsWideBreak] at isBreak
  omega

theorem by_line_feed_join (parts : List Text) :
    BreaksByLineFeed (join [','] parts) ↔ ∀ part ∈ parts, BreaksByLineFeed part := by
  induction parts with
  | nil => simp [join, BreaksByLineFeed]
  | cons part parts ih =>
      cases parts with
      | nil => simp [join]
      | cons second parts =>
          have comma : BreaksByLineFeed [','] := by_line_feed_of_ascii (by decide)
          rw [join_cons_cons, by_line_feed_append, by_line_feed_append, ih, and_iff_left comma]
          exact List.forall_mem_cons.symm

theorem by_line_feed_flat_map {text : Text} {change : Char → Text} :
    BreaksByLineFeed (text.flatMap change) ↔ ∀ char ∈ text, BreaksByLineFeed (change char) := by
  induction text with
  | nil => simp [BreaksByLineFeed]
  | cons char text ih =>
      rw [List.flatMap_cons, by_line_feed_append, ih, List.forall_mem_cons]

end Breaks

theorem not_wide_of_ascii {char : Char} (ascii : char.toNat < 0x80) : ¬IsWideBreak char := by
  rw [IsWideBreak]
  omega

theorem short_escape_ascii {letter char : Char} (known : shortEscape? letter = some char) :
    char.toNat < 0x80 := by
  unfold shortEscape? at known
  split at known <;> cases known <;> decide

theorem Escaped.by_line_feed {char : Char} {written : Text} (escaped : Escaped char written) :
    BreaksByLineFeed written ↔ ¬IsWideBreak char := by
  cases escaped with
  | plain _ _ visible =>
      have noLineFeed : char ≠ '\n' := by
        rintro rfl
        exact absurd visible (by decide)
      rw [BreaksByLineFeed, List.forall_mem_singleton, is_line_break_of_visible visible]
      constructor
      · intro plain wide
        exact noLineFeed (plain wide)
      · intro plain wide
        exact absurd wide plain
  | short letter known ascii visible =>
      apply iff_of_true
      · exact by_line_feed_of_ascii (by simpa using ⟨visible, ascii⟩)
      · exact not_wide_of_ascii (short_escape_ascii known)
  | number control =>
      have first := hex_digit_plain (char.toNat / 0x10) (by omega)
      have second := hex_digit_plain (char.toNat % 0x10) (by omega)
      apply iff_of_true
      · apply by_line_feed_of_ascii
        rw [hexadecimal_control _ control]
        simp [first, second]
      · exact not_wide_of_ascii (Nat.lt_of_lt_of_le control (by decide))

theorem by_line_feed_print_string (text : Text) :
    BreaksByLineFeed (printString text) ↔ ∀ char ∈ text, ¬IsWideBreak char := by
  have quote : BreaksByLineFeed ['"'] := by_line_feed_of_ascii (by decide)
  rw [printString, ← List.singleton_append, by_line_feed_append, by_line_feed_append,
    by_line_feed_flat_map, and_iff_left quote, and_iff_right quote]
  exact forall₂_congr fun char _ => (escaped_escape_char char).by_line_feed

def held : Json → Text
  | string text => text
  | _ => []

theorem by_line_feed_print {value : Json} (flat : value.IsFlat) :
    BreaksByLineFeed value.print ↔ ∀ char ∈ value.held, ¬IsWideBreak char := by
  cases value with
  | string text => exact by_line_feed_print_string text
  | integer value =>
      apply iff_of_true
      · intro char member isBreak
        rcases of_int_chars value char member with rfl | digit
        · cases isBreak
        · have code := code_of_ascii_digit digit
          rw [is_line_break_of_visible (by omega), IsWideBreak] at isBreak
          omega
      · intro char member
        cases member
  | _ => cases flat

theorem by_line_feed_member {member : Text × Json} (flat : member.2.IsFlat) :
    BreaksByLineFeed (printIndentedMember member) ↔
      (∀ char ∈ member.1, ¬IsWideBreak char) ∧ ∀ char ∈ member.2.held, ¬IsWideBreak char := by
  have indent : BreaksByLineFeed "\n    ".toList := by
    unfold BreaksByLineFeed
    decide
  have colon : BreaksByLineFeed [':', ' '] := by_line_feed_of_ascii (by decide)
  change BreaksByLineFeed ("\n    ".toList ++ printString member.1 ++
    ([':', ' '] ++ member.2.print)) ↔ _
  rw [by_line_feed_append, by_line_feed_append, by_line_feed_append, and_iff_right indent,
    and_iff_right colon, by_line_feed_print_string, by_line_feed_print flat]

theorem by_line_feed_print_indented {members : List (Text × Json)}
    (flat : ∀ member ∈ members, member.2.IsFlat) :
    BreaksByLineFeed (printIndented members) ↔ ∀ member ∈ members,
      (∀ char ∈ member.1, ¬IsWideBreak char) ∧ ∀ char ∈ member.2.held, ¬IsWideBreak char := by
  have each : BreaksByLineFeed (join [','] (members.map printIndentedMember)) ↔
      ∀ member ∈ members,
        (∀ char ∈ member.1, ¬IsWideBreak char) ∧ ∀ char ∈ member.2.held, ¬IsWideBreak char := by
    rw [by_line_feed_join, List.forall_mem_map]
    exact forall₂_congr fun member here => by_line_feed_member (flat member here)
  unfold printIndented
  split
  next none =>
    rw [List.isEmpty_iff.mp none]
    exact iff_of_true (by_line_feed_of_ascii (by decide)) (by simp)
  next =>
    have opening : BreaksByLineFeed ['\x7b'] := by_line_feed_of_ascii (by decide)
    have closing : BreaksByLineFeed ['\n', '\x7d'] := by
      unfold BreaksByLineFeed
      decide
    rw [← List.singleton_append, by_line_feed_append, by_line_feed_append, and_iff_left closing,
      and_iff_right opening, each]

end TabletopDice.Json
