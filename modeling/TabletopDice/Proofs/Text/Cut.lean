import Mathlib.Algebra.Order.BigOperators.Group.List
import Mathlib.Algebra.Order.Ring.Nat
import Mathlib.Data.List.DropRight
import TabletopDice.Text.Blank
import TabletopDice.Text.Digit

/-!
Cuts where a run of characters ends. A reader that takes the longest run in front
gets back a printed run, provided that what follows does not carry it on.
-/

namespace TabletopDice.Text

/-- The text does not begin with a character of this kind. -/
def Stops (kind : Char → Bool) (text : Text) : Prop := ∀ char ∈ text.head?, kind char = false

theorem forall_not_of_any {kind : Char → Bool} {text : Text} (none : text.any kind = false) :
    ∀ char ∈ text, kind char = false := by
  intro char member
  exact Bool.eq_false_iff.mpr (List.any_eq_false.mp none char member)

theorem stops_nil (kind : Char → Bool) : Stops kind [] := by
  intro char found
  cases found

theorem stops_cons {kind : Char → Bool} {char : Char} {rest : Text} :
    Stops kind (char :: rest) ↔ kind char = false := by
  constructor
  · intro stops
    exact stops char rfl
  · intro other next found
    cases found
    exact other

theorem stops_append {kind : Char → Bool} {left right : Text} (nonempty : left ≠ [])
    (stops : Stops kind left) : Stops kind (left ++ right) := by
  cases left with
  | nil => exact absurd rfl nonempty
  | cons char rest => exact stops_cons.mpr (stops_cons.mp stops)

theorem drop_while_of_stops {kind : Char → Bool} {text : Text} (stops : Stops kind text) :
    text.dropWhile kind = text := by
  cases text with
  | nil => rfl
  | cons char rest => simp [stops_cons.mp stops]

theorem take_while_of_stops {kind : Char → Bool} {text : Text} (stops : Stops kind text) :
    text.takeWhile kind = [] := by
  cases text with
  | nil => rfl
  | cons char rest => simp [stops_cons.mp stops]

theorem stops_drop_while (kind : Char → Bool) (text : Text) : Stops kind (text.dropWhile kind) := by
  intro char found
  have first := List.head?_dropWhile_not kind text
  rw [found] at first
  simpa using first

theorem span_digits_append {digits rest : Text} (run : ∀ char ∈ digits, isDigit char = true)
    (stops : Stops isDigit rest) : spanDigits (digits ++ rest) = (digits, rest) := by
  rw [spanDigits, List.takeWhile_append_of_pos run, List.dropWhile_append_of_pos run,
    take_while_of_stops stops, drop_while_of_stops stops, List.append_nil]

theorem length_span_digits (text : Text) :
    (spanDigits text).1.length + (spanDigits text).2.length = text.length := by
  rw [spanDigits, ← List.length_append, List.takeWhile_append_dropWhile]

theorem span_digits_of_stops {text : Text} (stops : Stops isDigit text) :
    spanDigits text = ([], text) :=
  span_digits_append (fun _ member => absurd member List.not_mem_nil) stops

theorem trim_left_of_stops {text : Text} (stops : Stops isBlank text) : trimLeft text = text :=
  drop_while_of_stops stops

theorem trim_left_space (text : Text) : trimLeft (' ' :: text) = trimLeft text := rfl

theorem trim_space (text : Text) : trim (' ' :: text) = trim text := rfl

theorem exists_dropped (kind : Char → Bool) (text : Text) :
    ∃ dropped, text = dropTrailing kind text ++ dropped ∧ ∀ char ∈ dropped, kind char = true := by
  refine ⟨(text.reverse.takeWhile kind).reverse, ?_, ?_⟩
  · rw [dropTrailing, ← List.reverse_append, List.takeWhile_append_dropWhile, List.reverse_reverse]
  · intro char member
    exact List.mem_takeWhile_imp (List.mem_reverse.mp member)

theorem stops_drop_trailing {kind drop : Char → Bool} {text : Text} (stops : Stops kind text) :
    Stops kind (dropTrailing drop text) := by
  obtain ⟨dropped, whole, -⟩ := exists_dropped drop text
  intro char found
  apply stops char
  rw [whole, List.head?_append, found]
  rfl

theorem drop_trailing_append_cons {kind : Char → Bool} {char : Char} (kept : kind char = false)
    (left right : Text) :
    dropTrailing kind (left ++ char :: right) = left ++ char :: dropTrailing kind right := by
  have border : (char :: left.reverse).dropWhile kind = char :: left.reverse := by simp [kept]
  have reversed : (left ++ char :: right).reverse = right.reverse ++ char :: left.reverse := by simp
  rw [dropTrailing, dropTrailing, reversed, List.dropWhile_append, border]
  cases right.reverse.dropWhile kind with
  | nil => simp
  | cons next rest => simp

theorem drop_trailing_append {kind : Char → Bool} (left : Text) {right : Text}
    (nonempty : right ≠ []) (kept : ∀ char ∈ right, kind char = false) :
    dropTrailing kind (left ++ right) = left ++ right := by
  induction right using List.reverseRecOn with
  | nil => exact absurd rfl nonempty
  | append_singleton right char _ =>
      rw [← List.append_assoc]
      exact drop_trailing_append_cons (kept char (by simp)) (left ++ right) []

theorem stops_trim (text : Text) : Stops isBlank (trim text) :=
  stops_drop_trailing (stops_drop_while isBlank text)

theorem trim_trim (text : Text) : trim (trim text) = trim text := by
  have left := trim_left_of_stops (stops_trim text)
  rw [trim, left]
  exact List.rdropWhile_idempotent ..

theorem exists_blanks (text : Text) :
    ∃ before behind, text = before ++ trim text ++ behind ∧ allBlank before = true ∧
      allBlank behind = true := by
  obtain ⟨behind, whole, trailing⟩ := exists_dropped isBlank (trimLeft text)
  refine ⟨text.takeWhile isBlank, behind, ?_, List.all_takeWhile, List.all_eq_true.mpr trailing⟩
  rw [List.append_assoc]
  change text = text.takeWhile isBlank ++ (dropTrailing isBlank (trimLeft text) ++ behind)
  rw [← whole]
  exact List.takeWhile_append_dropWhile.symm

theorem trim_left_append {blanks : Text} (blank : allBlank blanks = true) (text : Text) :
    trimLeft (blanks ++ text) = trimLeft text :=
  List.dropWhile_append_of_pos (List.all_eq_true.mp blank)

theorem eq_append_of_after {lead text rest : Text} (found : after? lead text = some rest) :
    text = lead ++ rest := by
  induction lead generalizing text with
  | nil =>
      cases found
      rfl
  | cons wanted lead ih =>
      cases text with
      | nil => cases found
      | cons char text =>
          simp only [after?] at found
          split at found
          next same => rw [same, ih found, List.cons_append]
          next => cases found

theorem length_after {lead text rest : Text} (found : after? lead text = some rest) :
    rest.length + lead.length = text.length := by
  rw [eq_append_of_after found, List.length_append, Nat.add_comm]

theorem length_trim_left_le (text : Text) : (trimLeft text).length ≤ text.length :=
  (List.dropWhile_suffix isBlank).length_le

theorem length_trim_le (text : Text) : (trim text).length ≤ text.length := by
  obtain ⟨before, behind, whole, -, -⟩ := exists_blanks text
  have length := congrArg List.length whole
  rw [List.length_append, List.length_append] at length
  omega

theorem length_replace_pairs_le (first second glyph : Char) (text : Text) :
    (replacePairs first second glyph text).length ≤ text.length := by
  fun_induction replacePairs first second glyph text with
  | case1 => exact Nat.le_refl _
  | case2 char => exact Nat.le_refl _
  | case3 char next rest pair ih =>
      rw [List.length_cons, List.length_cons, List.length_cons]
      omega
  | case4 char next rest other ih =>
      rw [List.length_cons, List.length_cons]
      exact Nat.succ_le_succ ih

theorem length_replace_first_le (old new text : Text) :
    (replaceFirst old new text).length ≤ text.length + new.length := by
  induction text with
  | nil =>
      unfold replaceFirst
      split
      · exact Nat.le_add_left _ _
      · exact Nat.zero_le _
  | cons char rest ih =>
      unfold replaceFirst
      split
      next suffix found =>
        have shorter := length_after found
        rw [List.length_append]
        omega
      next =>
        rw [List.length_cons, List.length_cons]
        omega

/-- Of one character no more can be lost than the replaced text has. -/
theorem count_replace_first (char : Char) (old new text : Text) :
    text.count char ≤ (replaceFirst old new text).count char + old.count char := by
  induction text with
  | nil => exact Nat.zero_le _
  | cons first rest ih =>
      unfold replaceFirst
      split
      next suffix found =>
        rw [eq_append_of_after found, List.count_append, List.count_append]
        omega
      next =>
        rw [List.count_cons, List.count_cons]
        omega

theorem length_split_on (separator : Char) (text : Text) :
    ((splitOn separator text).map fun part => part.length + 1).sum = text.length + 1 := by
  induction text with
  | nil => rfl
  | cons char rest ih =>
      simp only [splitOn]
      split
      · rw [List.map_cons, List.sum_cons, ih, List.length_nil, List.length_cons]
        omega
      · split
        next none => exact absurd none (splitOn_ne_nil separator rest)
        next part parts found =>
          rw [found, List.map_cons, List.sum_cons] at ih
          rw [List.map_cons, List.sum_cons, List.length_cons, List.length_cons]
          omega

theorem length_of_mem_split_on {separator : Char} {text part : Text}
    (member : part ∈ splitOn separator text) : part.length ≤ text.length := by
  have whole := length_split_on separator text
  have listed : part.length + 1 ∈ (splitOn separator text).map fun part => part.length + 1 :=
    List.mem_map.mpr ⟨part, member, rfl⟩
  have inside := List.single_le_sum (fun _ _ => Nat.zero_le _) _ listed
  omega

theorem mem_join {separator : Text} {char : Char} {parts : List Text}
    (member : char ∈ join separator parts) :
    char ∈ separator ∨ ∃ part ∈ parts, char ∈ part := by
  induction parts with
  | nil => cases member
  | cons part parts ih =>
      cases parts with
      | nil => exact .inr ⟨part, List.mem_cons_self, member⟩
      | cons next more =>
          change char ∈ part ++ separator ++ join separator (next :: more) at member
          rw [List.mem_append, List.mem_append] at member
          rcases member with (inside | between) | later
          · exact .inr ⟨part, List.mem_cons_self, inside⟩
          · exact .inl between
          · obtain between | ⟨other, isPart, inside⟩ := ih later
            · exact .inl between
            · exact .inr ⟨other, List.mem_cons_of_mem _ isPart, inside⟩

theorem length_split_first {separator : Char} {text before behind : Text}
    (found : splitFirst? separator text = some (before, behind)) :
    before.length + behind.length + 1 = text.length := by
  induction text generalizing before with
  | nil => cases found
  | cons char rest ih =>
      simp only [splitFirst?] at found
      split at found
      · cases found
        rw [List.length_nil, List.length_cons]
        omega
      · obtain ⟨⟨front, last⟩, later, same⟩ := Option.map_eq_some_iff.mp found
        cases same
        have whole : front.length + last.length + 1 = rest.length := ih later
        dsimp only [List.length_cons]
        omega

end TabletopDice.Text
