import TabletopDice.Proofs.Expression.LimitOrder
import TabletopDice.Roller.Specification

/-!
Blanks behind a clause. The last clause of a specification loses its trailing blanks with a
title in front and keeps them without one; every reader of clauses takes them for nothing.
-/

namespace TabletopDice

open Text

namespace Clause

section Equations

theorem read_value_eq (text : Text) :
    readValue? text =
      if (trimLeft text).head? = some '-' then
        match spanDigits (trimLeft text).tail with
        | ([], _) => none
        | (digits, rest) => if allBlank rest then some { negative := true, digits } else none
      else (readCount? (trimLeft text)).map fun digits => { digits } := by
  unfold readValue?
  split
  next rest minus =>
    rw [minus]
    rfl
  next other =>
    rw [if_neg]
    intro minus
    obtain ⟨rest, same⟩ := List.head?_eq_some_iff.mp minus
    exact other rest same

theorem read_confirm_eq (text : Text) :
    readConfirm? text =
      let (digits, rest) := spanDigits text
      let threat := if digits.isEmpty then none else some digits
      if rest.head? = some '+' ∨ rest.head? = some '-' then
        match readInteger? rest with
        | some (bonus, rest) => if allBlank rest then some (confirm threat (some bonus)) else none
        | none => none
      else if allBlank rest then some (confirm threat none) else none := by
  unfold readConfirm?
  cases spanDigits text with
  | mk digits rest =>
      dsimp only
      split
      next => rfl
      next => rfl
      next other another =>
        have unsigned : ¬(rest.head? = some '+' ∨ rest.head? = some '-') := by
          rintro (plus | minus)
          · obtain ⟨behind, same⟩ := List.head?_eq_some_iff.mp plus
            exact other behind same
          · obtain ⟨behind, same⟩ := List.head?_eq_some_iff.mp minus
            exact another behind same
        rw [if_neg unsigned]

/-- A clause that starts with a keyword; `written` is the whole clause. -/
def readKeyword? (written text : Text) : Option Clause :=
  if let some rest := after? "until".toList text then (readValue? rest).map target
  else if let some rest := after? "repeat".toList text then (readCount? rest).map repetition
  else if let some rest := after? "total".toList text then (readCount? rest).map total
  else if let some rest := after? "maximized".toList text then
    if allBlank rest then some maximized else none
  else if let some rest := after? "dc".toList (lowered (text.take 2) ++ text.drop 2) then
    (readValue? rest).map difficulty
  else if let some rest := after? "sf".toList text then readAutomatic? written rest
  else none

theorem read_eq (clause : Text) :
    read? clause =
      if startsLimit (trimLeft clause) then some limit
      else if (trimLeft clause).head? = some 'c' then readConfirm? (trimLeft clause).tail
      else if (trimLeft clause).head? = some '!' then
        if allBlank (trimLeft clause).tail then some maximized else none
      else readKeyword? (trim clause) (trimLeft clause) := by
  unfold read?
  dsimp only
  split
  next => rfl
  next =>
    split
    next rest same =>
      rw [same]
      rfl
    next rest same =>
      rw [same]
      rfl
    next other another =>
      rw [if_neg, if_neg]
      · rfl
      · intro mark
        obtain ⟨rest, same⟩ := List.head?_eq_some_iff.mp mark
        exact another rest same
      · intro letter
        obtain ⟨rest, same⟩ := List.head?_eq_some_iff.mp letter
        exact other rest same

end Equations

section Blanks

variable {blanks : Text} (blank : allBlank blanks = true)

include blank

theorem read_count_append_blanks (text : Text) :
    readCount? (text ++ blanks) = readCount? text := by
  obtain ⟨more, blankMore, front⟩ := exists_trim_left_append blank text
  rw [readCount?, readCount?, front, span_digits_append_blanks blankMore]
  cases spanDigits (trimLeft text) with
  | mk digits rest =>
      cases digits with
      | nil => rfl
      | cons digit digits =>
          dsimp only
          rw [all_blank_append_blanks blankMore]

theorem read_value_append_blanks (text : Text) :
    readValue? (text ++ blanks) = readValue? text := by
  obtain ⟨more, blankMore, front⟩ := exists_trim_left_append blank text
  rw [read_value_eq, read_value_eq, front, read_count_append_blanks blankMore]
  simp only [head_append_blanks blankMore (by decide : isBlank '-' = false)]
  split
  next minus =>
    obtain ⟨rest, same⟩ := List.head?_eq_some_iff.mp minus
    rw [same, List.cons_append, List.tail_cons, List.tail_cons, span_digits_append_blanks blankMore]
    cases spanDigits rest with
    | mk digits behind =>
        cases digits with
        | nil => rfl
        | cons digit digits =>
            dsimp only
            rw [all_blank_append_blanks blankMore]
  next => rfl

theorem read_confirm_append_blanks (text : Text) :
    readConfirm? (text ++ blanks) = readConfirm? text := by
  rw [read_confirm_eq, read_confirm_eq, span_digits_append_blanks blank]
  dsimp only
  simp only [head_append_blanks blank (by decide : isBlank '+' = false),
    head_append_blanks blank (by decide : isBlank '-' = false), all_blank_append_blanks blank,
    read_integer_append_blanks blank]
  cases readInteger? (spanDigits text).2 with
  | none => rfl
  | some found =>
      dsimp only [Option.map_some]
      rw [all_blank_append_blanks blank]

theorem read_automatic_append_blanks (written text : Text) :
    readAutomatic? written (text ++ blanks) = readAutomatic? written text := by
  have trimmed := trim_append_blanks blank text
  cases text with
  | nil =>
      rw [List.nil_append] at trimmed ⊢
      unfold readAutomatic?
      rw [trimmed]
      rfl
  | cons char rest =>
      rw [List.cons_append] at trimmed ⊢
      unfold readAutomatic?
      rw [trimmed]
      cases trim (char :: rest) with
      | nil => rfl
      | cons first more => rfl

/-- Where a keyword is looked for in either case, blanks stay as they are. -/
theorem lowered_front_append_blanks (text : Text) :
    lowered ((text ++ blanks).take 2) ++ (text ++ blanks).drop 2 =
      lowered (text.take 2) ++ text.drop 2 ++ blanks := by
  have kept : lowered (blanks.take (2 - text.length)) = blanks.take (2 - text.length) := by
    refine (List.map_congr_left fun char member => ?_).trans (List.map_id _)
    exact to_lower_of_blank (List.all_eq_true.mp blank char (List.mem_of_mem_take member))
  rw [List.take_append, List.drop_append, lowered, List.map_append]
  change lowered (text.take 2) ++ lowered (blanks.take (2 - text.length)) ++
    (text.drop 2 ++ blanks.drop (2 - text.length)) = _
  rw [kept]
  rcases Nat.lt_or_ge text.length 2 with short | long
  · rw [List.drop_eq_nil_of_le (Nat.le_of_lt short), List.nil_append, List.append_nil,
      List.append_assoc, List.take_append_drop]
  · rw [Nat.sub_eq_zero_of_le long, List.take_zero, List.drop_zero, List.append_nil,
      List.append_assoc]

theorem read_keyword_append_blanks (written text : Text) :
    readKeyword? written (text ++ blanks) = readKeyword? written text := by
  simp only [readKeyword?, lowered_front_append_blanks blank,
    after_append_blanks blank "until".toList (by decide),
    after_append_blanks blank "repeat".toList (by decide),
    after_append_blanks blank "total".toList (by decide),
    after_append_blanks blank "maximized".toList (by decide),
    after_append_blanks blank "dc".toList (by decide),
    after_append_blanks blank "sf".toList (by decide)]
  -- The first keyword that is found decides.
  cases after? "until".toList text with
  | some rest => exact congrArg (Option.map target) (read_value_append_blanks blank rest)
  | none =>
      cases after? "repeat".toList text with
      | some rest => exact congrArg (Option.map repetition) (read_count_append_blanks blank rest)
      | none =>
          cases after? "total".toList text with
          | some rest => exact congrArg (Option.map total) (read_count_append_blanks blank rest)
          | none =>
              cases after? "maximized".toList text with
              | some rest =>
                  change (if allBlank (rest ++ blanks) then some maximized else none) = _
                  rw [all_blank_append_blanks blank]
              | none =>
                  cases after? "dc".toList (lowered (text.take 2) ++ text.drop 2) with
                  | some rest =>
                      exact congrArg (Option.map difficulty) (read_value_append_blanks blank rest)
                  | none =>
                      cases after? "sf".toList text with
                      | some rest => exact read_automatic_append_blanks blank written rest
                      | none => rfl

theorem read_append_blanks (clause : Text) : read? (clause ++ blanks) = read? clause := by
  obtain ⟨more, blankMore, front⟩ := exists_trim_left_append blank clause
  have tail {char : Char} (first : (trimLeft clause).head? = some char) :
      (trimLeft clause ++ more).tail = (trimLeft clause).tail ++ more := by
    obtain ⟨rest, same⟩ := List.head?_eq_some_iff.mp first
    rw [same]
    rfl
  rw [read_eq, read_eq, front, starts_limit_append_blanks blankMore, trim_append_blanks blank,
    read_keyword_append_blanks blankMore]
  simp only [head_append_blanks blankMore (by decide : isBlank 'c' = false),
    head_append_blanks blankMore (by decide : isBlank '!' = false)]
  split
  next => rfl
  next =>
    split
    next letter => rw [tail letter, read_confirm_append_blanks blankMore]
    next =>
      split
      next mark => rw [tail mark, all_blank_append_blanks blankMore]
      next => rfl

end Blanks

end Clause

theorem Clause.starts_with_limit_trim_right (clause : Text) :
    Clause.startsWithLimit (trimRight clause) = Clause.startsWithLimit clause := by
  refine eq_of_trim_right Clause.startsWithLimit ?_ clause
  intro text blanks blank
  obtain ⟨more, blankMore, front⟩ := exists_trim_left_append blank text
  rw [Clause.startsWithLimit, Clause.startsWithLimit, front, starts_limit_append_blanks blankMore]

theorem Modifiers.with_text_trim_right (modifiers : Modifiers) (clause : Text) :
    modifiers.withText (trimRight clause) = modifiers.withText clause := by
  refine eq_of_trim_right modifiers.withText ?_ clause
  intro text blanks blank
  rw [withText, withText, Clause.read_append_blanks blank, trim_append_blanks blank]

theorem Clause.filter_limits_trim_right (clauses : List Text) :
    (clauses.map trimRight).filter Clause.startsWithLimit =
      (clauses.filter Clause.startsWithLimit).map trimRight := by
  rw [List.filter_map]
  simp only [Function.comp_def, Clause.starts_with_limit_trim_right]

theorem Modifiers.foldlM_trim_right (modifiers : Modifiers) (clauses : List Text) :
    (clauses.map trimRight).foldlM Modifiers.withText modifiers =
      clauses.foldlM Modifiers.withText modifiers := by
  rw [List.foldlM_map]
  simp only [Modifiers.with_text_trim_right]

end TabletopDice
