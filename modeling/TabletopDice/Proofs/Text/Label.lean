import TabletopDice.Expression.Label
import TabletopDice.Proofs.Text.Cut

/-!
Labels and what is searched for in them. A label is made of label characters and
blanks, so it holds no glyph; and whether a text mentions a limit or a confirmation
depends only on the labels in it, for the rest of it starts none.
-/

namespace TabletopDice.Text

/-- What passes over a blank passes over any number of them. -/
theorem skip_blanks {Value : Type} {read : Text → Value}
    (skips : ∀ char, isBlank char = true → ∀ text, read (char :: text) = read text)
    {blanks : Text} (blank : allBlank blanks = true) (text : Text) :
    read (blanks ++ text) = read text := by
  induction blanks with
  | nil => rfl
  | cons char blanks ih =>
      simp only [allBlank, List.all_cons, Bool.and_eq_true] at blank
      rw [List.cons_append, skips char blank.1]
      exact ih blank.2

theorem words_cons_blank {char : Char} (blank : isBlank char = true) (rest : Text) :
    words (char :: rest) = words rest := by
  rw [words, if_pos blank]

theorem words_blanks_append {blanks : Text} (blank : allBlank blanks = true) (text : Text) :
    words (blanks ++ text) = words text :=
  skip_blanks (fun _ blank => words_cons_blank blank) blank text

theorem words_cons_visible {char : Char} (visible : isBlank char = false) (rest : Text) :
    words (char :: rest) = consWord char rest (words rest) := by
  rw [words, if_neg (by simp [visible])]

theorem words_append_blanks (text : Text) {blanks : Text} (blank : allBlank blanks = true) :
    words (text ++ blanks) = words text := by
  induction text with
  | nil =>
      have none := words_blanks_append blank []
      rwa [List.append_nil] at none
  | cons char rest ih =>
      cases visible : isBlank char with
      | true => rw [List.cons_append, words_cons_blank visible, words_cons_blank visible, ih]
      | false =>
          rw [List.cons_append, words_cons_visible visible, words_cons_visible visible, ih]
          cases rest with
          | nil => cases blanks <;> rfl
          | cons next rest => cases words (next :: rest) <;> rfl

theorem words_trim (text : Text) : words (trim text) = words text := by
  obtain ⟨before, behind, whole, blankBefore, blankBehind⟩ := exists_blanks text
  calc
    words (trim text) = words (trim text ++ behind) := (words_append_blanks _ blankBehind).symm
    _ = words (before ++ (trim text ++ behind)) := (words_blanks_append blankBefore _).symm
    _ = words text := by rw [← List.append_assoc, ← whole]

theorem is_bare_label_trim (text : Text) : isBareLabel (trim text) = isBareLabel text := by
  rw [isBareLabel, isBareLabel, words_trim]

theorem is_bare_label_space (text : Text) : isBareLabel (' ' :: text) = isBareLabel text := by
  rw [isBareLabel, isBareLabel, words_cons_blank rfl]

theorem exists_cons_word (char : Char) (rest : Text) (more : List Text) :
    ∃ word others, consWord char rest more = (char :: word) :: others := by
  unfold consWord
  split
  · split
    · exact ⟨[], _, rfl⟩
    · exact ⟨_, _, rfl⟩
  · exact ⟨[], _, rfl⟩

theorem exists_grown_word (char : Char) (rest : Text) {word : Text} {more : List Text}
    (member : word ∈ more) : ∃ grown ∈ consWord char rest more, ∀ inside ∈ word, inside ∈ grown := by
  unfold consWord
  split
  next next behind first others =>
    split
    · exact ⟨word, List.mem_cons_of_mem _ member, fun _ inside => inside⟩
    · rcases List.mem_cons.mp member with rfl | later
      · exact ⟨_, List.mem_cons_self, fun _ inside => List.mem_cons_of_mem _ inside⟩
      · exact ⟨word, List.mem_cons_of_mem _ later, fun _ inside => inside⟩
  next => exact ⟨word, List.mem_cons_of_mem _ member, fun _ inside => inside⟩

theorem exists_word_of_mem {text : Text} {char : Char} (member : char ∈ text)
    (visible : isBlank char = false) : ∃ word ∈ words text, char ∈ word := by
  induction text with
  | nil => cases member
  | cons first rest ih =>
      cases shown : isBlank first with
      | true =>
          rw [words_cons_blank shown]
          rcases List.mem_cons.mp member with rfl | later
          · rw [shown] at visible
            cases visible
          · exact ih later
      | false =>
          rw [words_cons_visible shown]
          rcases List.mem_cons.mp member with rfl | later
          · obtain ⟨word, others, found⟩ := exists_cons_word char rest (words rest)
            exact ⟨char :: word, by simp [found], List.mem_cons_self⟩
          · obtain ⟨word, isWord, inside⟩ := ih later
            obtain ⟨grown, isGrown, grows⟩ := exists_grown_word first rest isWord
            exact ⟨grown, isGrown, grows char inside⟩

theorem all_label_words {text : Text} (bare : isBareLabel text = true) :
    ∀ word ∈ words text, isLabelWord word = true := by
  unfold isBareLabel at bare
  split at bare
  next => cases bare
  next word more found =>
    rw [found]
    simp only [Bool.and_eq_true] at bare
    exact List.forall_mem_cons.mpr ⟨bare.1, List.all_eq_true.mp bare.2⟩

theorem continues_of_label_word {word : Text} (label : isLabelWord word = true) :
    ∀ char ∈ word, continuesLabelWord char = true := by
  cases word with
  | nil => cases label
  | cons char rest =>
      simp only [isLabelWord, startsLabelWord, Bool.and_eq_true] at label
      have first : continuesLabelWord char = true := by simp [continuesLabelWord, label.1.1]
      exact List.forall_mem_cons.mpr ⟨first, List.all_eq_true.mp label.2⟩

def isLabelChar (char : Char) : Bool := isBlank char || continuesLabelWord char

theorem label_chars {text : Text} (bare : isBareLabel text = true) :
    ∀ char ∈ text, isLabelChar char = true := by
  intro char member
  unfold isLabelChar
  cases visible : isBlank char with
  | true => rfl
  | false =>
      obtain ⟨word, isWord, inside⟩ := exists_word_of_mem member visible
      rw [continues_of_label_word (all_label_words bare word isWord) char inside, Bool.or_true]

theorem exists_label_start {text : Text} (bare : isBareLabel text = true)
    (stops : Stops isBlank text) : ∃ char rest, text = char :: rest ∧ startsLabelWord char = true := by
  cases text with
  | nil => cases bare
  | cons char rest =>
      obtain ⟨word, more, found⟩ := exists_cons_word char rest (words rest)
      rw [← words_cons_visible (stops_cons.mp stops)] at found
      have label := all_label_words bare (char :: word) (by simp [found])
      simp only [isLabelWord, Bool.and_eq_true] at label
      exact ⟨char, rest, rfl, label.1⟩

theorem not_label_char :
    ∀ char ∈ "()+-*×÷≤≥=<>|/".toList, isLabelChar char = false :=
  forall_not_of_any (by decide +kernel)

structure IsLabel (label : Text) : Prop where
  trimmed : trim label = label
  bare : label = [] ∨ isBareLabel label = true

namespace IsLabel

variable {label : Text}

theorem stops_blank (isLabel : IsLabel label) : Stops isBlank label := by
  rw [← isLabel.trimmed]
  exact stops_trim label

theorem stops_digit (isLabel : IsLabel label) : Stops isDigit label := by
  rcases isLabel.bare with rfl | bare
  · exact stops_nil isDigit
  · obtain ⟨char, rest, rfl, starts⟩ := exists_label_start bare isLabel.stops_blank
    simp only [startsLabelWord, Bool.and_eq_true, Bool.not_eq_true'] at starts
    exact stops_cons.mpr starts.2

theorem chars (isLabel : IsLabel label) : ∀ char ∈ label, isLabelChar char = true := by
  rcases isLabel.bare with rfl | bare
  · intro char member
    cases member
  · exact label_chars bare

theorem stops_glyph (isLabel : IsLabel label) {glyph : Char}
    (known : glyph ∈ "()+-*×÷≤≥=<>|/".toList) : Stops (· == glyph) label := by
  intro char found
  apply beq_false_of_ne
  rintro rfl
  have inside := isLabel.chars char (List.mem_of_mem_head? found)
  rw [not_label_char char known] at inside
  cases inside

end IsLabel

section WordStarts

variable {here : Text → Bool}

/-- The text ends inside a word, or it is empty and a word came before it. -/
def endsWord : Bool → Text → Bool
  | before, [] => before
  | _, char :: rest => endsWord (isWordChar char) rest

/-- Where nothing starts inside the first part, only the second is searched. -/
theorem some_word_start_append_of_quiet {text : Text}
    (quiet : ∀ char ∈ text, ∀ rest, here (char :: rest) = false) (before : Bool) (rest : Text) :
    someWordStart here before (text ++ rest) = someWordStart here (endsWord before text) rest := by
  induction text generalizing before with
  | nil => rfl
  | cons char text ih =>
      obtain ⟨first, others⟩ := List.forall_mem_cons.mp quiet
      rw [List.cons_append, someWordStart, first, Bool.and_false, Bool.false_or, endsWord]
      exact ih others (isWordChar char)

/-- Where nothing reaches over the border, both parts are searched on their own. -/
theorem some_word_start_append {rest : Text}
    (inside : ∀ part : Text, part ≠ [] → here (part ++ rest) = here part) (before : Bool)
    (text : Text) :
    someWordStart here before (text ++ rest) =
      (someWordStart here before text || someWordStart here (endsWord before text) rest) := by
  induction text generalizing before with
  | nil => rfl
  | cons char text ih =>
      have first := inside (char :: text) (List.cons_ne_nil _ _)
      rw [List.cons_append] at first ⊢
      rw [someWordStart, someWordStart, first, endsWord, ih, Bool.or_assoc]

def continuesWord (char : Char) : Bool := isWordChar char || isDigit char

theorem not_continues_word :
    ∀ char ∈ "()+-*×÷≤≥=|".toList, continuesWord char = false :=
  forall_not_of_any (by decide +kernel)

theorem starts_confirmation_of_ne {char : Char} (other : char ≠ 'c') (rest : Text) :
    startsConfirmation (char :: rest) = false := by
  unfold startsConfirmation
  split
  next same =>
    cases same
    exact absurd rfl other
  next => rfl

theorem starts_limit_of_ne {char : Char} (other : char ≠ 'm') (rest : Text) :
    startsLimit (char :: rest) = false := by
  simp [startsLimit, after?, other]

theorem starts_confirmation_append {rest : Text} (stops : Stops continuesWord rest) (part : Text)
    (nonempty : part ≠ []) : startsConfirmation (part ++ rest) = startsConfirmation part := by
  cases part with
  | nil => exact absurd rfl nonempty
  | cons char tail =>
      by_cases mark : char = 'c'
      · subst mark
        simp only [List.cons_append, startsConfirmation, List.dropWhile_append]
        cases digits : tail.dropWhile isDigit with
        | nil =>
            cases rest with
            | nil => rfl
            | cons next rest =>
                have border := stops_cons.mp stops
                simp only [continuesWord, Bool.or_eq_false_iff] at border
                simp [border.1, border.2]
        | cons next behind => rfl
      · rw [List.cons_append, starts_confirmation_of_ne mark, starts_confirmation_of_ne mark]

theorem some_word_start_of_stops {rest : Text} (stops : Stops continuesWord rest)
    (before : Bool) :
    someWordStart startsConfirmation before rest = someWordStart startsConfirmation false rest := by
  cases rest with
  | nil => rfl
  | cons char rest =>
      have other : char ≠ 'c' := by
        rintro rfl
        cases stops_cons.mp stops
      rw [someWordStart, someWordStart, starts_confirmation_of_ne other, Bool.and_false,
        Bool.and_false]

/-- A label behind something, with a blank between; an empty label is left out. -/
def labelled (head label : Text) : Text := head ++ if label.isEmpty then [] else ' ' :: label

theorem labelled_nil (head : Text) : labelled head [] = head := List.append_nil head

theorem labelled_of_ne_nil (head : Text) {label : Text} (named : label ≠ []) :
    labelled head label = head ++ ' ' :: label := by
  rw [labelled, if_neg (by simpa using named)]

theorem confirmation_of_labelled {head : Text} (quiet : 'c' ∉ head) (label : Text)
    {rest : Text} (stops : Stops continuesWord rest) (before : Bool) :
    someWordStart startsConfirmation before (labelled head label ++ rest) =
      (mentionsConfirmation label || someWordStart startsConfirmation false rest) := by
  have silent : ∀ char ∈ head, ∀ rest, startsConfirmation (char :: rest) = false := by
    intro char member rest
    apply starts_confirmation_of_ne
    rintro rfl
    exact quiet member
  by_cases named : label = []
  · subst named
    rw [labelled_nil, some_word_start_append_of_quiet silent, some_word_start_of_stops stops]
    rfl
  · rw [labelled_of_ne_nil head named, List.append_assoc, some_word_start_append_of_quiet silent,
      List.cons_append, someWordStart, starts_confirmation_of_ne (by decide), Bool.and_false,
      Bool.false_or, some_word_start_append (starts_confirmation_append stops),
      some_word_start_of_stops stops]
    rfl

theorem limit_of_labelled {head : Text} (quiet : 'm' ∉ head) (label : Text) :
    mentionsLimit (labelled head label) = mentionsLimit label := by
  have silent : ∀ char ∈ head, ∀ rest, startsLimit (char :: rest) = false := by
    intro char member rest
    apply starts_limit_of_ne
    rintro rfl
    exact quiet member
  by_cases named : label = []
  · subst named
    have searched := some_word_start_append_of_quiet silent false []
    rw [List.append_nil] at searched
    rw [labelled_nil, mentionsLimit, searched]
    rfl
  · rw [labelled_of_ne_nil head named, mentionsLimit, some_word_start_append_of_quiet silent,
      someWordStart, starts_limit_of_ne (by decide), Bool.and_false, Bool.false_or]
    rfl

end WordStarts

end TabletopDice.Text
