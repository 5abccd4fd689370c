import TabletopDice.Proofs.Text.Numeral

/-!
The messages of errors. What they repeat of a specification is quoted, and a line feed in quotes is
escaped; two of them repeat digits and alternatives as they stand. A message stays on one line
unless what it repeats unquoted does not.
-/

namespace TabletopDice

open Text

namespace Text

theorem no_line_feed_in_hexadecimal (width number : Nat) : '\n' ∉ hexadecimal width number := by
  have digit (value : Nat) : '\n' ∉ [value.digitChar] := fun member =>
    Nat.digitChar_ne '\n' (by decide) (List.mem_singleton.mp member).symm
  have digits : '\n' ∉ Nat.toDigits 16 number := by
    induction number using Nat.base_induction 16 (by decide) with
    | single value small =>
        rw [Nat.toDigits_of_lt_base small]
        exact digit value
    | digit front value small positive ih =>
        rw [← Nat.toDigits_append_toDigits (by decide) positive small,
          Nat.toDigits_of_lt_base small, List.mem_append, not_or]
        exact ⟨ih, digit value⟩
  rw [hexadecimal, List.mem_append, not_or]
  exact ⟨fun member => absurd (List.eq_of_mem_replicate member) (by decide), digits⟩

theorem no_line_feed_in_quote_char {mark : Char} (other : mark ≠ '\n') (char : Char) :
    '\n' ∉ quoteChar mark char := by
  have number (width : Nat) (letter : Char) (known : letter ≠ '\n') :
      '\n' ∉ '\\' :: letter :: hexadecimal width char.toNat :=
    List.not_mem_cons_of_ne_of_not_mem (by decide)
      (List.not_mem_cons_of_ne_of_not_mem known.symm (no_line_feed_in_hexadecimal _ _))
  unfold quoteChar
  split
  next escaped =>
    have plain : '\n' ≠ char := by
      rintro rfl
      rcases escaped with same | same
      · exact other same.symm
      · cases same
    exact List.not_mem_cons_of_ne_of_not_mem (by decide)
      (List.not_mem_cons_of_ne_of_not_mem plain List.not_mem_nil)
  split
  next => decide
  next plain =>
    split
    · decide
    split
    · decide
    split
    · exact List.not_mem_cons_of_ne_of_not_mem (Ne.symm plain) List.not_mem_nil
    split
    · exact number 2 'x' (by decide)
    split
    · exact number 4 'u' (by decide)
    · exact number 8 'U' (by decide)

theorem no_line_feed_in_quote (text : Text) : '\n' ∉ quote text := by
  have mark : quoteMark text ≠ '\n' := by
    unfold quoteMark
    split <;> decide
  have inside : '\n' ∉ text.flatMap (quoteChar (quoteMark text)) := by
    intro member
    obtain ⟨char, -, quoted⟩ := List.mem_flatMap.mp member
    exact no_line_feed_in_quote_char mark char quoted
  rw [quote, List.mem_append, not_or]
  exact ⟨List.not_mem_cons_of_ne_of_not_mem mark.symm inside,
    List.not_mem_cons_of_ne_of_not_mem mark.symm List.not_mem_nil⟩

end Text

/-- What the message of the error repeats without quotes. -/
def DiceError.verbatim : DiceError → Text
  | attemptsBelowOne which count _ => which ++ count
  | fewAlternatives values => values
  | _ => []

def IsOneLine (message : String) : Prop := '\n' ∉ message.toList

section Messages

theorem is_one_line_of_list {text : Text} (plain : '\n' ∉ text) : IsOneLine (String.ofList text) := by
  rw [IsOneLine, String.toList_ofList]
  exact plain

theorem is_one_line_append {left right : String} (first : IsOneLine left) (second : IsOneLine right) :
    IsOneLine (left ++ right) := by
  rw [IsOneLine, String.toList_append, List.mem_append, not_or]
  exact ⟨first, second⟩

theorem is_one_line_quoted (text : Text) : IsOneLine (quoted text) :=
  is_one_line_of_list (no_line_feed_in_quote text)

theorem is_one_line_number (number : Nat) : IsOneLine number.repr := by
  rw [IsOneLine, Nat.toList_repr]
  exact fun member => absurd (is_ascii_digit_of_nat member) (by decide)

theorem is_one_line_conflict (conflict : PercentileConflict) : IsOneLine conflict.message := by
  cases conflict with
  | limit expression =>
      exact is_one_line_append (is_one_line_of_list (by decide)) (is_one_line_quoted expression)
  | _ => exact is_one_line_of_list (by decide)

theorem is_one_line_message {error : DiceError} (plain : '\n' ∉ error.verbatim) :
    IsOneLine error.message := by
  unfold DiceError.message
  cases error with
  | attemptsBelowOne which count part =>
      obtain ⟨word, digits⟩ := not_or.mp (mt List.mem_append.mpr plain)
      dsimp only [toString]
      repeat' with_reducible apply is_one_line_append
      · exact is_one_line_of_list word
      · exact is_one_line_of_list (by decide)
      · exact is_one_line_of_list digits
      · exact is_one_line_of_list (by decide)
      · exact is_one_line_quoted part
      · exact is_one_line_of_list (by decide)
  | fewAlternatives values =>
      have alternatives : IsOneLine (String.ofList values) := is_one_line_of_list plain
      exact is_one_line_append (is_one_line_append (is_one_line_append
        (is_one_line_of_list (by decide)) alternatives) (is_one_line_of_list (by decide)))
        (is_one_line_of_list (by decide))
  | percentileConflict conflict => exact is_one_line_conflict conflict
  | groupNotOpened expression | groupNotClosed expression =>
      cases expression with
      | none => exact is_one_line_of_list (by decide)
      | some expression =>
          exact is_one_line_append (is_one_line_of_list (by decide)) (is_one_line_quoted expression)
  | _ =>
      -- The pieces of these messages are quoted, counted or fixed.
      dsimp only [toString]
      repeat' with_reducible apply is_one_line_append
      all_goals first
        | with_reducible exact is_one_line_quoted _
        | with_reducible exact is_one_line_number _
        | exact is_one_line_of_list (by decide)

end Messages

end TabletopDice
