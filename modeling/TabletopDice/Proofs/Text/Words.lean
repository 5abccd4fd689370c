import TabletopDice.Proofs.Text.Tail

/-!
Where words stand. Every word of a text stands somewhere in it between blanks, and
what is searched for at the beginning of words is not there if the search is in vain.
A search for a confirmation never reaches over a character that carries on no word.
-/

namespace TabletopDice.Text

theorem code_of_ascii_alphanum {char : Char} (ascii : char.isAlphanum = true) :
    0x30 ≤ char.toNat ∧ char.toNat ≤ 0x7A := by
  rcases Bool.or_eq_true_iff.mp ascii with letter | digit
  · rcases Bool.or_eq_true_iff.mp letter with upper | lower
    · have code : 0x41 ≤ char.toNat ∧ char.toNat ≤ 0x5A := of_decide_eq_true upper
      omega
    · have code : 0x61 ≤ char.toNat ∧ char.toNat ≤ 0x7A :=
        (Bool.and_eq_true_iff.mp lower).imp of_decide_eq_true of_decide_eq_true
      omega
  · have code := code_of_ascii_digit digit
    omega

theorem is_visible_of_word_char {char : Char} (inWord : isWordChar char = true) :
    isBlank char = false := by
  have gaps : ∀ range ∈ alphanumericRanges, (0xA0 < range.1 ∧ range.2 < 0x1680) ∨
      (0x1680 < range.1 ∧ range.2 < 0x2000) ∨ (0x200A < range.1 ∧ range.2 < 0x2028) ∨
      (0x202F < range.1 ∧ range.2 < 0x205F) ∨ (0x205F < range.1 ∧ range.2 < 0x3000) ∨
      0x3000 < range.1 := by decide +kernel
  simp only [isBlank, Bool.or_eq_false_iff, Bool.and_eq_false_iff, decide_eq_false_iff_not,
    beq_eq_false_iff_ne]
  simp only [isWordChar, isAlphanumeric, Bool.or_eq_true, beq_iff_eq] at inWord
  split at inWord
  next ascii =>
    rcases inWord with letter | rfl
    · have code := code_of_ascii_alphanum letter
      omega
    · decide
  next =>
    rcases inWord with letter | rfl
    · obtain ⟨range, member, inside⟩ := List.any_eq_true.mp letter
      have gap := gaps range member
      simp only [Bool.and_eq_true, decide_eq_true_eq] at inside
      omega
    · decide

theorem not_continues_of_blank (char : Char) (blank : isBlank char = true) :
    continuesWord char = false := by
  cases inWord : isWordChar char with
  | true => exact absurd blank (Bool.eq_false_iff.mp (is_visible_of_word_char inWord))
  | false => rw [continuesWord, inWord, not_digit_of_blank char blank, Bool.or_false]

theorem not_word_of_continues {char : Char} (plain : continuesWord char = false) :
    isWordChar char = false :=
  (Bool.or_eq_false_iff.mp plain).1

structure IsWord (word : Text) : Prop where
  nonempty : word ≠ []
  visible : ∀ char ∈ word, isBlank char = false

def BlankFirst (text : Text) : Prop := ∀ char ∈ text.head?, isBlank char = true

theorem blank_first_of_all {text : Text} (blank : allBlank text = true) : BlankFirst text := by
  intro char found
  exact List.all_eq_true.mp blank char (List.mem_of_mem_head? found)

theorem BlankFirst.stops {text : Text} (first : BlankFirst text) {kind : Char → Bool}
    (other : ∀ char, isBlank char = true → kind char = false) : Stops kind text := by
  intro char found
  exact other char (first char found)

theorem BlankFirst.append {left right : Text} (first : BlankFirst left) (second : BlankFirst right) :
    BlankFirst (left ++ right) := by
  cases left with
  | nil => exact second
  | cons char left => exact first

theorem words_append {word : Text} (isWord : IsWord word) {rest : Text} (border : BlankFirst rest) :
    words (word ++ rest) = word :: words rest := by
  obtain ⟨nonempty, visible⟩ := isWord
  induction word with
  | nil => exact absurd rfl nonempty
  | cons char word ih =>
      obtain ⟨first, others⟩ := List.forall_mem_cons.mp visible
      rw [List.cons_append, words_cons_visible first]
      cases word with
      | nil =>
          cases rest with
          | nil => rfl
          | cons next rest =>
              rw [List.nil_append, words_cons_blank (border next rfl)]
              cases words rest with
              | nil => rfl
              | cons word more => exact if_pos (border next rfl)
      | cons next word =>
          have behind := ih (List.cons_ne_nil _ _) others
          rw [behind]
          exact if_neg (by simp [others next List.mem_cons_self])

theorem words_trim_left (text : Text) : words (trimLeft text) = words text := by
  have blank : allBlank (text.takeWhile isBlank) = true := List.all_takeWhile
  rw [← words_blanks_append blank, trimLeft, List.takeWhile_append_dropWhile]

theorem all_blank_or_exists_word (text : Text) :
    allBlank text = true ∨ ∃ before word behind, text = before ++ (word ++ behind) ∧
      allBlank before = true ∧ IsWord word ∧ BlankFirst behind := by
  have whole : text.takeWhile isBlank ++ trimLeft text = text := List.takeWhile_append_dropWhile
  have blank : allBlank (text.takeWhile isBlank) = true := List.all_takeWhile
  cases rest : trimLeft text with
  | nil =>
      rw [rest, List.append_nil] at whole
      rw [whole] at blank
      exact .inl blank
  | cons char more =>
      have visible : isBlank char = false := by
        have stops := stops_drop_while isBlank text
        change Stops isBlank (trimLeft text) at stops
        rw [rest] at stops
        exact stops_cons.mp stops
      let word := (char :: more).takeWhile fun char => !isBlank char
      let behind := (char :: more).dropWhile fun char => !isBlank char
      have cut : word ++ behind = char :: more := List.takeWhile_append_dropWhile
      refine .inr ⟨_, word, behind, ?_, blank, ⟨?_, ?_⟩, ?_⟩
      · rw [cut, ← rest, whole]
      · simp [word, visible]
      · intro inside member
        simpa using List.mem_takeWhile_imp member
      · intro next found
        simpa using stops_drop_while (fun char => !isBlank char) (char :: more) next found

theorem ends_word_append (before : Bool) (left right : Text) :
    endsWord before (left ++ right) = endsWord (endsWord before left) right := by
  induction left generalizing before with
  | nil => rfl
  | cons char left ih => exact ih (isWordChar char)

theorem ends_word_of_blank {blanks : Text} (blank : allBlank blanks = true) :
    endsWord false blanks = false := by
  have skipped : endsWord false (blanks ++ []) = endsWord false [] := by
    refine skip_blanks (fun char isBlank text => ?_) blank []
    rw [endsWord, not_word_of_continues (not_continues_of_blank char isBlank)]
  rwa [List.append_nil] at skipped

theorem ends_word_of_blanks {blanks : Text} (nonempty : blanks ≠ [])
    (blank : allBlank blanks = true) (before : Bool) : endsWord before blanks = false := by
  cases blanks with
  | nil => exact absurd rfl nonempty
  | cons char blanks => exact ends_word_of_blank blank

/-- The words of a text stand in it in order, each between blanks or at an end. -/
theorem exists_place_of_words {text word : Text} {firsts others : List Text}
    (found : words text = firsts ++ word :: others) :
    ∃ before behind, text = before ++ (word ++ behind) ∧ IsWord word ∧ BlankFirst behind ∧
      (firsts = [] → allBlank before = true) ∧
      (firsts ≠ [] → ∀ inWord, endsWord inWord before = false) := by
  induction firsts generalizing text with
  | nil =>
      rcases all_blank_or_exists_word text with
        blank | ⟨before, first, behind, rfl, blank, isWord, border⟩
      · have none := words_blanks_append blank []
        rw [List.append_nil, found] at none
        cases none
      · rw [words_blanks_append blank, words_append isWord border] at found
        obtain ⟨rfl, -⟩ := List.cons.inj found
        exact ⟨before, behind, rfl, isWord, border, fun _ => blank, fun some => absurd rfl some⟩
  | cons first firsts ih =>
      rcases all_blank_or_exists_word text with
        blank | ⟨before, own, behind, rfl, blank, isOwn, border⟩
      · have none := words_blanks_append blank []
        rw [List.append_nil, found] at none
        cases none
      · rw [words_blanks_append blank, words_append isOwn border] at found
        obtain ⟨-, later⟩ := List.cons.inj found
        obtain ⟨between, rest, rfl, isWord, ends, first, next⟩ := ih later
        refine ⟨before ++ own ++ between, rest, ?_, isWord, ends, nofun, fun _ inWord => ?_⟩
        · simp only [List.append_assoc]
        · rw [ends_word_append]
          by_cases second : firsts = []
          · refine ends_word_of_blanks ?_ (first second) _
            -- The word does not begin with the blank behind the word in front of it.
            rintro rfl
            obtain ⟨char, letters, rfl⟩ := List.exists_cons_of_ne_nil isWord.nonempty
            have visible := isWord.visible char List.mem_cons_self
            rw [border char rfl] at visible
            cases visible
          · exact next second _

section Searches

variable {here : Text → Bool}

theorem not_here_of_search {inWord : Bool} {left rest : Text} (nonempty : rest ≠ [])
    (vain : someWordStart here inWord (left ++ rest) = false)
    (border : endsWord inWord left = false) : here rest = false := by
  induction left generalizing inWord with
  | nil =>
      obtain ⟨char, rest, rfl⟩ := List.exists_cons_of_ne_nil nonempty
      cases border
      rw [List.nil_append, someWordStart, Bool.or_eq_false_iff] at vain
      simpa using vain.1
  | cons char left ih =>
      rw [List.cons_append, someWordStart, Bool.or_eq_false_iff] at vain
      exact ih vain.2 border

theorem mentions_confirmation_of_stops {rest : Text} (stops : Stops continuesWord rest) (text : Text) :
    mentionsConfirmation (text ++ rest) = (mentionsConfirmation text || mentionsConfirmation rest) := by
  rw [mentionsConfirmation, some_word_start_append (starts_confirmation_append stops),
    some_word_start_of_stops stops]
  rfl

theorem mentions_confirmation_cons {char : Char} (plain : continuesWord char = false) (rest : Text) :
    mentionsConfirmation (char :: rest) = mentionsConfirmation rest := by
  have other : char ≠ 'c' := by
    rintro rfl
    cases plain
  rw [mentionsConfirmation, someWordStart, starts_confirmation_of_ne other, Bool.and_false,
    Bool.false_or, not_word_of_continues plain]
  rfl

theorem mentions_confirmation_blanks_append {blanks : Text} (blank : allBlank blanks = true)
    (text : Text) : mentionsConfirmation (blanks ++ text) = mentionsConfirmation text :=
  skip_blanks (fun char isBlank => mentions_confirmation_cons (not_continues_of_blank char isBlank))
    blank text

theorem mentions_confirmation_of_border {char : Char} (plain : continuesWord char = false)
    (text rest : Text) :
    mentionsConfirmation (text ++ char :: rest) =
      (mentionsConfirmation text || mentionsConfirmation rest) := by
  rw [mentions_confirmation_of_stops (stops_cons.mpr plain), mentions_confirmation_cons plain]

theorem mentions_confirmation_replace_pairs {first second glyph : Char}
    (plain : ∀ char ∈ [first, second, glyph], continuesWord char = false) (front text : Text) :
    mentionsConfirmation (front ++ replacePairs first second glyph text) =
      mentionsConfirmation (front ++ text) := by
  have plainFirst := plain first (by simp)
  have plainSecond := plain second (by simp)
  have plainGlyph := plain glyph (by simp)
  induction text using replacePairs.induct first second generalizing front with
  | case1 => rfl
  | case2 char => rfl
  | case3 char next rest same ih =>
      obtain ⟨rfl, rfl⟩ := same
      rw [replacePairs, if_pos ⟨rfl, rfl⟩, mentions_confirmation_of_border plainGlyph,
        mentions_confirmation_of_border plainFirst, mentions_confirmation_cons plainSecond]
      exact congrArg _ (ih [])
  | case4 char next rest other ih =>
      have behind := ih (front ++ [char])
      rw [List.append_assoc, List.append_assoc] at behind
      rw [replacePairs, if_neg other]
      exact behind

end Searches

end TabletopDice.Text
