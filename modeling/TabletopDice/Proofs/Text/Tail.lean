import TabletopDice.Proofs.Expression.Printing

/-!
What comes behind a text. A tail behind a separator is left alone by what cuts and
replaces in front of it, and blanks at the very end are read by nobody.
-/

namespace TabletopDice.Text

section Separators

theorem split_first_of_not_mem {separator : Char} {text : Text} (absent : separator ∉ text) :
    splitFirst? separator text = none := by
  induction text with
  | nil => rfl
  | cons char text ih =>
      obtain ⟨other, behind⟩ := List.ne_and_not_mem_of_not_mem_cons absent
      rw [splitFirst?, if_neg (Ne.symm other), ih behind]
      rfl

theorem split_first_append {separator : Char} {tail : Text} (absent : separator ∉ tail)
    (text : Text) :
    splitFirst? separator (text ++ tail) =
      (splitFirst? separator text).map fun (before, behind) => (before, behind ++ tail) := by
  induction text with
  | nil => exact split_first_of_not_mem absent
  | cons char text ih =>
      rw [List.cons_append, splitFirst?, splitFirst?, ih]
      split
      · rfl
      · cases splitFirst? separator text with
        | none => rfl
        | some found => rfl

theorem trim_left_append_of_stops {tail : Text} (stops : Stops isBlank tail) (text : Text) :
    trimLeft (text ++ tail) = trimLeft text ++ tail := by
  rw [trimLeft, trimLeft, List.dropWhile_append]
  split
  next none => rw [List.isEmpty_iff.mp none, drop_while_of_stops stops, List.nil_append]
  next => rfl

theorem span_digits_append_of_stops {tail : Text} (stops : Stops isDigit tail) (text : Text) :
    spanDigits (text ++ tail) = ((spanDigits text).1, (spanDigits text).2 ++ tail) := by
  have whole : text ++ tail = text.takeWhile isDigit ++ (text.dropWhile isDigit ++ tail) := by
    rw [← List.append_assoc, List.takeWhile_append_dropWhile]
  rw [whole, span_digits_append fun _ member => List.mem_takeWhile_imp member]
  · rfl
  · cases rest : text.dropWhile isDigit with
    | nil => exact stops
    | cons char more =>
        rw [← rest]
        exact stops_append (by simp [rest]) (stops_drop_while isDigit text)

variable {first second glyph : Char}

/-- No pair reaches over to a tail that does not begin with its second half. -/
theorem replace_pairs_append {tail : Text} (stops : Stops (· == second) tail) (text : Text) :
    replacePairs first second glyph (text ++ tail) =
      replacePairs first second glyph text ++ replacePairs first second glyph tail := by
  induction text using replacePairs.induct first second with
  | case1 => rfl
  | case2 char =>
      cases tail with
      | nil => rfl
      | cons next tail =>
          have other : next ≠ second := by simpa using stops_cons.mp stops
          have apart : ¬(char = first ∧ next = second) := fun same => other same.2
          simp only [List.cons_append, List.nil_append, replacePairs, if_neg apart]
  | case3 char next rest same ih =>
      change replacePairs first second glyph (char :: next :: (rest ++ tail)) = _
      rw [replacePairs, replacePairs, if_pos same, if_pos same, ih, List.cons_append]
  | case4 char next rest other ih =>
      change replacePairs first second glyph (char :: next :: (rest ++ tail)) = _
      rw [replacePairs, replacePairs, if_neg other, if_neg other, List.cons_append, ← ih]
      rfl

theorem mem_of_mem_replace_pairs {text : Text} {char : Char}
    (member : char ∈ replacePairs first second glyph text) : char = glyph ∨ char ∈ text := by
  induction text using replacePairs.induct first second with
  | case1 => cases member
  | case2 only => exact .inr member
  | case3 front next rest same ih =>
      rw [replacePairs, if_pos same, List.mem_cons] at member
      rcases member with here | behind
      · exact .inl here
      · exact (ih behind).imp_right fun inside =>
          List.mem_cons_of_mem _ (List.mem_cons_of_mem _ inside)
  | case4 front next rest other ih =>
      rw [replacePairs, if_neg other, List.mem_cons] at member
      rcases member with rfl | behind
      · exact .inr List.mem_cons_self
      · exact (ih behind).imp_right (List.mem_cons_of_mem _)

theorem mem_replace_pairs (second glyph : Char) {text : Text} (member : first ∈ text) :
    first ∈ replacePairs first second glyph text ∨
      glyph ∈ replacePairs first second glyph text := by
  induction text using replacePairs.induct first second with
  | case1 => cases member
  | case2 only => exact .inl member
  | case3 front next rest same ih =>
      rw [replacePairs, if_pos same]
      exact .inr List.mem_cons_self
  | case4 front next rest other ih =>
      rw [replacePairs, if_neg other]
      rcases List.mem_cons.mp member with rfl | behind
      · exact .inl List.mem_cons_self
      · exact (ih behind).imp (List.mem_cons_of_mem _) (List.mem_cons_of_mem _)

theorem after_mark_of_not_mem {mark : Char} {text : Text} (absent : mark ∉ text) (lead : Text) :
    after? (lead ++ [mark]) text = none := by
  cases found : after? (lead ++ [mark]) text with
  | none => rfl
  | some rest =>
      refine absurd ?_ absent
      rw [eq_append_of_after found]
      simp

/-- What ends with a mark does not reach over to a tail without the mark. -/
theorem after_mark_append {mark : Char} {tail : Text} (absent : mark ∉ tail) (lead text : Text) :
    after? (lead ++ [mark]) (text ++ tail) = (after? (lead ++ [mark]) text).map (· ++ tail) := by
  induction text generalizing lead with
  | nil =>
      rw [List.nil_append, after_mark_of_not_mem absent, after_mark_of_not_mem List.not_mem_nil]
      rfl
  | cons char text ih =>
      cases lead with
      | nil =>
          simp only [List.nil_append, List.cons_append, after?]
          split
          · rfl
          · rfl
      | cons wanted lead =>
          simp only [List.cons_append, after?]
          split
          · exact ih lead
          · rfl

theorem replace_first_of_not_mem {mark : Char} {text : Text} (absent : mark ∉ text)
    (lead new : Text) : replaceFirst (lead ++ [mark]) new text = text := by
  induction text with
  | nil => exact if_neg (List.append_ne_nil_of_right_ne_nil lead (List.cons_ne_nil mark []))
  | cons char text ih =>
      rw [replaceFirst, after_mark_of_not_mem absent]
      exact congrArg (char :: ·) (ih (List.not_mem_of_not_mem_cons absent))

theorem replace_first_append {mark : Char} {tail : Text} (absent : mark ∉ tail)
    (lead new text : Text) :
    replaceFirst (lead ++ [mark]) new (text ++ tail) =
      replaceFirst (lead ++ [mark]) new text ++ tail := by
  induction text with
  | nil =>
      rw [List.nil_append, replace_first_of_not_mem absent,
        replace_first_of_not_mem List.not_mem_nil, List.nil_append]
  | cons char text ih =>
      have found := after_mark_append absent lead (char :: text)
      rw [List.cons_append] at found ⊢
      rw [replaceFirst, replaceFirst, found]
      cases after? (lead ++ [mark]) (char :: text) with
      | none => exact congrArg (char :: ·) ih
      | some rest => exact (List.append_assoc ..).symm

end Separators

section Blanks

theorem mem_trim_left {char : Char} (visible : isBlank char = false) {text : Text} :
    char ∈ trimLeft text ↔ char ∈ text := by
  constructor
  · exact fun member => (List.dropWhile_suffix isBlank).mem member
  · intro member
    rw [← List.takeWhile_append_dropWhile (p := isBlank) (l := text), List.mem_append] at member
    rcases member with front | behind
    · exact absurd (List.mem_takeWhile_imp front) (Bool.eq_false_iff.mp visible)
    · exact behind

theorem mem_trim_right {char : Char} (visible : isBlank char = false) {text : Text} :
    char ∈ trimRight text ↔ char ∈ text := by
  rw [trimRight, dropTrailing, List.mem_reverse]
  exact (mem_trim_left visible).trans List.mem_reverse

theorem mem_split_sign {text : Text} {char : Char} (member : char ∈ text) :
    char = '+' ∨ char = '-' ∨ char ∈ (splitSign text).2 := by
  unfold splitSign
  split
  next =>
    rcases List.mem_cons.mp member with sign | behind
    · exact .inr (.inl sign)
    · exact .inr (.inr behind)
  next =>
    rcases List.mem_cons.mp member with sign | behind
    · exact .inl sign
    · exact .inr (.inr behind)
  next => exact .inr (.inr member)

theorem to_lower_of_blank {char : Char} (blank : isBlank char = true) : char.toLower = char := by
  have noCapital : ¬(65 ≤ char.toNat ∧ char.toNat ≤ 90) := by
    simp only [isBlank, Bool.or_eq_true, Bool.and_eq_true, decide_eq_true_eq, beq_iff_eq] at blank
    omega
  unfold Char.toLower
  rw [dif_neg]
  exact noCapital

theorem split_sign_of_ne {char : Char} (minus : char ≠ '-') (plus : char ≠ '+') (rest : Text) :
    splitSign (char :: rest) = (false, char :: rest) := by
  unfold splitSign
  split
  next same =>
    cases same
    exact absurd rfl minus
  next same =>
    cases same
    exact absurd rfl plus
  next => rfl

theorem starts_integer_eq (text : Text) :
    startsInteger text = (splitSign text).2.head?.any isDigit := by
  cases text with
  | nil => rfl
  | cons char rest =>
      by_cases minus : char = '-'
      · subst minus
        cases rest with
        | nil => rfl
        | cons next more => rfl
      · by_cases plus : char = '+'
        · subst plus
          cases rest with
          | nil => rfl
          | cons next more => rfl
        · rw [split_sign_of_ne minus plus]
          unfold startsInteger
          split
          next same =>
            cases same
            exact absurd rfl plus
          next same =>
            cases same
            exact absurd rfl minus
          next same =>
            cases same
            rfl
          next same => cases same

variable {blanks : Text} (blank : allBlank blanks = true)

include blank

theorem stops_blanks {kind : Char → Bool}
    (other : ∀ char, isBlank char = true → kind char = false) : Stops kind blanks := by
  intro char found
  exact other char (List.all_eq_true.mp blank char (List.mem_of_mem_head? found))

theorem head_append_blanks {char : Char} (visible : isBlank char = false) (text : Text) :
    (text ++ blanks).head? = some char ↔ text.head? = some char := by
  cases text with
  | nil =>
      refine iff_of_false ?_ nofun
      intro found
      have blankChar := List.all_eq_true.mp blank char (List.mem_of_mem_head? found)
      exact Bool.eq_false_iff.mp visible blankChar
  | cons first text => rfl

theorem all_blank_append_blanks (text : Text) : allBlank (text ++ blanks) = allBlank text := by
  have whole : blanks.all isBlank = true := blank
  rw [allBlank, allBlank, List.all_append, whole, Bool.and_true]

theorem trim_right_append_blanks (text : Text) : trimRight (text ++ blanks) = trimRight text := by
  have inside : ∀ char ∈ blanks.reverse, isBlank char = true := fun char member =>
    List.all_eq_true.mp blank char (List.mem_reverse.mp member)
  rw [trimRight, trimRight, dropTrailing, dropTrailing, List.reverse_append,
    List.dropWhile_append_of_pos inside]

theorem exists_trim_left_append (text : Text) :
    ∃ more, allBlank more = true ∧ trimLeft (text ++ blanks) = trimLeft text ++ more := by
  rw [trimLeft, trimLeft, List.dropWhile_append]
  split
  next none =>
    refine ⟨[], rfl, ?_⟩
    rw [List.isEmpty_iff.mp none]
    exact List.dropWhile_eq_nil_iff.mpr (List.all_eq_true.mp blank)
  next => exact ⟨blanks, blank, rfl⟩

theorem trim_append_blanks (text : Text) : trim (text ++ blanks) = trim text := by
  obtain ⟨more, blankMore, same⟩ := exists_trim_left_append blank text
  rw [trim, same, trim_right_append_blanks blankMore, trim]

theorem after_append_blanks (lead : Text) (visible : ∀ char ∈ lead, isBlank char = false)
    (text : Text) : after? lead (text ++ blanks) = (after? lead text).map (· ++ blanks) := by
  induction lead generalizing text with
  | nil => rfl
  | cons wanted lead ih =>
      obtain ⟨first, others⟩ := List.forall_mem_cons.mp visible
      cases text with
      | nil =>
          cases blanks with
          | nil => rfl
          | cons next blanks =>
              have different : next ≠ wanted := by
                rintro rfl
                exact Bool.eq_false_iff.mp first (List.all_eq_true.mp blank _ List.mem_cons_self)
              exact if_neg different
      | cons char text =>
          rw [List.cons_append, after?, after?]
          split
          · exact ih others text
          · rfl

theorem span_digits_append_blanks (text : Text) :
    spanDigits (text ++ blanks) = ((spanDigits text).1, (spanDigits text).2 ++ blanks) :=
  span_digits_append_of_stops (stops_blanks blank not_digit_of_blank) text

theorem split_sign_append_blanks (text : Text) :
    splitSign (text ++ blanks) = ((splitSign text).1, (splitSign text).2 ++ blanks) := by
  cases text with
  | nil =>
      cases blanks with
      | nil => rfl
      | cons char blanks =>
          have first : isBlank char = true := List.all_eq_true.mp blank _ List.mem_cons_self
          apply split_sign_of_ne
          · rintro rfl
            cases first
          · rintro rfl
            cases first
  | cons char text =>
      by_cases minus : char = '-'
      · rw [minus]
        rfl
      · by_cases plus : char = '+'
        · rw [plus]
          rfl
        · rw [List.cons_append, split_sign_of_ne minus plus, split_sign_of_ne minus plus,
            List.cons_append]

theorem starts_integer_append_blanks (text : Text) :
    startsInteger (text ++ blanks) = startsInteger text := by
  rw [starts_integer_eq, starts_integer_eq, split_sign_append_blanks blank]
  cases (splitSign text).2 with
  | nil =>
      cases blanks with
      | nil => rfl
      | cons char blanks =>
          exact not_digit_of_blank _ (List.all_eq_true.mp blank _ List.mem_cons_self)
  | cons char rest => rfl

theorem starts_limit_append_blanks (text : Text) :
    startsLimit (text ++ blanks) = startsLimit text := by
  have behind (rest : Text) :
      startsInteger (trimLeft (rest ++ blanks)) = startsInteger (trimLeft rest) := by
    obtain ⟨more, blankMore, same⟩ := exists_trim_left_append blank rest
    rw [same, starts_integer_append_blanks blankMore]
  rw [startsLimit, startsLimit, after_append_blanks blank _ (by decide),
    after_append_blanks blank _ (by decide)]
  cases after? ['m', 'i', 'n'] text with
  | some rest => exact behind rest
  | none =>
      cases after? ['m', 'a', 'x'] text with
      | some rest => exact behind rest
      | none => rfl

end Blanks

theorem eq_of_trim_right {Value : Type} (read : Text → Value)
    (blind : ∀ text blanks, allBlank blanks = true → read (text ++ blanks) = read text)
    (text : Text) : read (trimRight text) = read text := by
  obtain ⟨dropped, whole, blank⟩ := exists_dropped isBlank text
  have same := blind (trimRight text) dropped (List.all_eq_true.mpr blank)
  rw [trimRight, ← whole] at same
  exact same.symm

theorem not_mem_of_reordered {texts others : List Text}
    (reordered : (texts.map trimRight).Perm (others.map trimRight)) {char : Char}
    (visible : isBlank char = false) (absent : ∀ text ∈ texts, char ∉ text) :
    ∀ text ∈ others, char ∉ text := by
  intro text isOther member
  have listed := reordered.mem_iff.mpr (List.mem_map_of_mem isOther)
  obtain ⟨same, isText, trimmed⟩ := List.mem_map.mp listed
  apply absent same isText
  rw [← mem_trim_right visible, trimmed, mem_trim_right visible]
  exact member

end TabletopDice.Text
