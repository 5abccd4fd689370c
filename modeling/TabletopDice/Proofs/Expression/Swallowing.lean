import TabletopDice.Proofs.Expression.Parts
import TabletopDice.Proofs.Expression.Written

/-!
What labels swallow. A label that is itself a die was meant to stand behind an operator,
and a word of a label that is a limit or a confirmation was meant to stand at the end of
the request. The checks of the parser find most of them; what they overlook is told here.
-/

namespace TabletopDice

open Text

section Dice

def startsDie : Text → Bool
  | mark :: next :: _ => (mark == 'd' || mark == 'D') && isDigit next
  | _ => false

theorem stops_of_label_words {text : Text} (labels : ∀ word ∈ words text, isLabelWord word = true)
    {kind : Char → Bool} (other : ∀ char, startsLabelWord char = true → kind char = false) :
    Stops kind (trimLeft text) := by
  intro char found
  obtain ⟨rest, same⟩ := List.head?_eq_some_iff.mp found
  have visible : isBlank char = false := stops_drop_while isBlank text char found
  obtain ⟨word, more, first⟩ := exists_cons_word char rest (words rest)
  have inside : char :: word ∈ words text := by
    rw [← words_trim_left, same, words_cons_visible visible, first]
    exact List.mem_cons_self
  have isLabel := labels _ inside
  rw [isLabelWord, Bool.and_eq_true] at isLabel
  exact other char isLabel.1

/-- Behind a letter alone, a label goes on with a word that tells no number of sides. -/
theorem read_sides_behind_letter {letter : Char} {rest : Text}
    (visible : isBlank letter = false) (bare : isBareLabel (letter :: rest) = true)
    (blank : BlankFirst rest) : readSides? (trimLeft rest) = none := by
  have cut : words ([letter] ++ rest) = [letter] :: words rest :=
    words_append ⟨List.cons_ne_nil _ _, List.forall_mem_singleton.mpr visible⟩ blank
  have labels : ∀ word ∈ words rest, isLabelWord word = true := by
    intro word member
    apply all_label_words bare
    rw [← List.singleton_append, cut]
    exact List.mem_cons_of_mem _ member
  have stops : Stops (fun char => char == '%' || isDigit char) (trimLeft rest) := by
    apply stops_of_label_words labels
    intro char starts
    simp only [startsLabelWord, Bool.and_eq_true, Bool.not_eq_true'] at starts
    have mark : char ≠ '%' := by
      rintro rfl
      cases starts.1
    simp [mark, starts.2]
  cases found : trimLeft rest with
  | nil => rfl
  | cons char more =>
      rw [found] at stops
      have none := DieNotation.read_sides_is_some char more
      rw [stops_cons.mp stops] at none
      exact Option.isNone_iff_eq_none.mp (Option.isSome_eq_false_iff.mp none)

theorem read_letter_eq (mark : Char) (rest : Text) :
    readLetter? (mark :: rest) =
      if (mark == 'd' || mark == 'D') = true then some (trimLeft rest) else none := by
  by_cases small : mark = 'd'
  · rw [small]
    rfl
  · by_cases capital : mark = 'D'
    · rw [capital]
      rfl
    · simp [readLetter?, small, capital]

theorem read_die_of_label {label : Text} (isLabel : IsLabel label) :
    (DieNotation.read? label).isSome = startsDie label := by
  rw [DieNotation.read_label isLabel]
  cases label with
  | nil => rfl
  | cons mark rest =>
      have bare := isLabel.bare.resolve_left (List.cons_ne_nil mark rest)
      have visible := stops_cons.mp isLabel.stops_blank
      cases rest with
      | nil =>
          rw [read_letter_eq]
          split
          · rfl
          · rfl
      | cons next more =>
          rw [read_letter_eq, startsDie]
          by_cases letter : (mark == 'd' || mark == 'D') = true
          · rw [if_pos letter, letter, Bool.true_and, Option.bind_some]
            cases blank : isBlank next with
            | true =>
                have first : BlankFirst (next :: more) := by
                  rintro char ⟨⟩
                  exact blank
                rw [read_sides_behind_letter visible bare first, not_digit_of_blank next blank]
                rfl
            | false =>
                have mark : (next == '%') = false := by
                  apply beq_false_of_ne
                  rintro rfl
                  have inside := isLabel.chars '%' (by simp)
                  rw [show isLabelChar '%' = false by decide +kernel] at inside
                  cases inside
                rw [trim_left_of_stops (stops_cons.mpr blank), DieNotation.read_sides_is_some, mark,
                  Bool.false_or]
          · rw [if_neg letter, Bool.eq_false_iff.mpr letter]
            rfl

def BehindFraction (part label : Text) : Prop :=
  ∃ front digits between behind, part = front ++ '.' :: (digits ++ (between ++ (label ++ behind))) ∧
    IsDigits digits ∧ allBlank between = true ∧ allBlank behind = true

theorem sides_of_starts_die {label : Text} (isDie : startsDie label = true) :
    ((readLetter? label).bind readSides?).isSome = true := by
  unfold startsDie at isDie
  split at isDie
  next mark next more =>
    rw [Bool.and_eq_true] at isDie
    have visible : trimLeft (next :: more) = next :: more :=
      trim_left_of_stops (stops_cons.mpr (is_visible_of_digit isDie.2))
    rw [read_letter_eq, if_pos isDie.1, Option.bind_some, visible, DieNotation.read_sides_is_some,
      isDie.2, Bool.or_true]
  next => cases isDie

theorem read_die_behind_number {part rest behind label digits : Text} (run : IsDigits digits)
    (front : trimLeft part = digits ++ rest) (stops : Stops isDigit rest)
    (last : trimLeft rest = label ++ behind) (isDie : startsDie label = true) :
    (DieNotation.read? part).isSome = true := by
  have unmarked : readMark part = (false, digits ++ rest) := by
    have mark := DieNotation.read_mark_digits run rest
    rw [readMark, run.trim_left] at mark
    rw [readMark, front, mark]
  have bar : readBar (trimLeft rest) = (none, label ++ behind) := by
    rw [last]
    apply read_bar_of_stops
    cases label with
    | nil => cases isDie
    | cons letter label =>
        apply stops_cons.mpr
        apply beq_false_of_ne
        rintro rfl
        cases label <;> cases isDie
  rw [DieNotation.read_is_some unmarked (run.span stops) bar]
  exact DieNotation.read_letter_append (sides_of_starts_die isDie)

theorem behind_fraction_of_constant {part label : Text} {value : Double}
    (noDie : DieNotation.read? part = none) (read : readConstant? part = some (value, label))
    (isDie : startsDie label = true) : BehindFraction part label := by
  have blanks : part.takeWhile isBlank ++ trimLeft part = part := List.takeWhile_append_dropWhile
  have front : (spanDigits (trimLeft part)).1 ++ (spanDigits (trimLeft part)).2 = trimLeft part :=
    List.takeWhile_append_dropWhile
  have digits : ∀ char ∈ (spanDigits (trimLeft part)).1, isDigit char = true :=
    fun _ member => List.mem_takeWhile_imp member
  have stops : Stops isDigit (spanDigits (trimLeft part)).2 := stops_drop_while isDigit _
  simp only [readConstant?] at read
  generalize spanDigits (trimLeft part) = cut at read front digits stops
  obtain ⟨whole, rest⟩ := cut
  dsimp only at read front digits stops
  split at read
  next some =>
    cases read
    unfold readFraction at some isDie ⊢
    split at some
    next more =>
      have places : (spanDigits more).1 ++ (spanDigits more).2 = more :=
        List.takeWhile_append_dropWhile
      obtain ⟨between, behind, last, blankBetween, blankBehind⟩ := exists_blanks (spanDigits more).2
      refine ⟨part.takeWhile isBlank ++ whole, (spanDigits more).1, between, behind, ?_,
        ⟨by simpa using some, fun _ member => List.mem_takeWhile_imp member⟩, blankBetween,
        blankBehind⟩
      rw [← List.append_assoc between, ← last, places, List.append_assoc, front, blanks]
    next => cases some
  next =>
    split at read
    next some =>
      cases read
      obtain ⟨behind, trimmed, -⟩ := exists_dropped isBlank (trimLeft rest)
      have found := read_die_behind_number ⟨by simpa using some, digits⟩ front.symm stops trimmed isDie
      rw [noDie] at found
      cases found
    next => cases read

/-- The label hides a die that no check of the parser finds. -/
def Component.HidesDie (text : Text) : Component → Prop
  | .die group => startsDie group.label = true ∧ mentionsDie group.label = false
  | .constant _ name => startsDie name = true ∧ ∃ part, IsPart text part ∧ BehindFraction part name
  | _ => False

/-- The labels that are dice themselves are those that begin with a letter of dice and a digit,
behind a die group or behind a number with a point. A label behind a group is never a die. -/
theorem label_is_die_iff {text : Text} {row : List Component} {limits : Limits}
    (accepted : parseExpression text = .ok (row, limits)) {component : Component}
    (member : component ∈ row) :
    (DieNotation.read? component.name).isSome = true ↔ component.HidesDie text := by
  have written := written_of_parse_expression accepted component member
  cases component with
  | die group =>
      change (DieNotation.read? group.label).isSome = true ↔ _ ∧ _
      rw [read_die_of_label written.label, and_iff_left written.noDie]
  | constant value name =>
      change (DieNotation.read? name).isSome = true ↔ _ ∧ _
      rw [read_die_of_label written.2]
      refine ⟨fun isDie => ⟨isDie, ?_⟩, And.left⟩
      obtain ⟨part, isPart, made⟩ := exists_part_of_parse_expression accepted member rfl
      refine ⟨part, isPart, ?_⟩
      cases made with
      | value read =>
          obtain ⟨-, ⟨_, _, -, impossible, -⟩ | ⟨_, _, noDie, found, same⟩⟩ := parse_value_cases read
          · cases impossible
          · cases same
            exact behind_fraction_of_constant noDie found isDie
  | label name =>
      change (DieNotation.read? name).isSome = true ↔ False
      rw [written.2.2]
      exact iff_of_false nofun id
  | _ => exact iff_of_false nofun id

/-- Two six-sided dice, and one eight-sided die taken for their label. -/
def forgottenPlus : Component := .die { sides := 6, numerator := 2, label := "d8".toList }

theorem label_is_die_iff_of_forgotten_plus :
    parseExpression "2d6 d8".toList = .ok ([forgottenPlus], {}) ∧
      ((DieNotation.read? forgottenPlus.name).isSome = true ↔
        forgottenPlus.HidesDie "2d6 d8".toList) := by
  have accepted : parseExpression "2d6 d8".toList = .ok ([forgottenPlus], {}) := by decide +kernel
  exact ⟨accepted, label_is_die_iff accepted List.mem_cons_self⟩

theorem not_refuse_label_that_is_die :
    ¬∀ (text : Text) (row : List Component) (limits : Limits),
      parseExpression text = .ok (row, limits) →
        ∀ component ∈ row, DieNotation.read? component.name = none := by
  intro refused
  have accepted : parseExpression "2d6 d8".toList = .ok ([forgottenPlus], {}) := by decide +kernel
  have none := refused _ _ _ accepted forgottenPlus List.mem_cons_self
  have isDie : (DieNotation.read? forgottenPlus.name).isSome = true := by decide +kernel
  rw [none] at isDie
  cases isDie

end Dice

section Modifiers

def isLimitWord (word : Text) : Bool :=
  match after? ['m', 'i', 'n'] word <|> after? ['m', 'a', 'x'] word with
  | some digits => !digits.isEmpty && digits.all isDigit
  | none => false

def isConfirmationWord : Text → Bool
  | 'c' :: digits => digits.all isDigit
  | _ => false

def isModifierWord (word : Text) : Bool := isLimitWord word || isConfirmationWord word

theorem starts_integer_of_digits {digits : Text} (run : IsDigits digits) (rest : Text) :
    startsInteger (trimLeft (digits ++ rest)) = true := by
  rw [run.trim_left]
  obtain ⟨char, more, rfl⟩ := List.exists_cons_of_ne_nil run.nonempty
  have digit := run.digits char List.mem_cons_self
  have minus : char ≠ '-' := by
    rintro rfl
    cases digit
  have plus : char ≠ '+' := by
    rintro rfl
    cases digit
  rw [starts_integer_eq, List.cons_append, split_sign_of_ne minus plus]
  exact digit

theorem starts_limit_of_word {word : Text} (limit : isLimitWord word = true) (rest : Text) :
    startsLimit (word ++ rest) = true := by
  have number {digits : Text} (run : (!digits.isEmpty && digits.all isDigit) = true) :
      startsInteger (trimLeft (digits ++ rest)) = true := by
    simp only [Bool.and_eq_true, Bool.not_eq_true', List.isEmpty_eq_false_iff] at run
    exact starts_integer_of_digits ⟨run.1, List.all_eq_true.mp run.2⟩ rest
  rw [isLimitWord] at limit
  cases minimum : after? ['m', 'i', 'n'] word with
  | some digits =>
      rw [minimum] at limit
      rw [eq_append_of_after minimum]
      exact number limit
  | none =>
      rw [minimum] at limit
      cases maximum : after? ['m', 'a', 'x'] word with
      | some digits =>
          rw [maximum] at limit
          rw [eq_append_of_after maximum]
          exact number limit
      | none =>
          rw [maximum] at limit
          cases limit

theorem starts_confirmation_of_word {word : Text} (confirms : isConfirmationWord word = true)
    {rest : Text} (stops : Stops continuesWord rest) : startsConfirmation (word ++ rest) = true := by
  unfold isConfirmationWord at confirms
  split at confirms
  next digits =>
    rw [starts_confirmation_append stops _ (List.cons_ne_nil _ _), startsConfirmation,
      List.dropWhile_eq_nil_iff.mpr (List.all_eq_true.mp confirms)]
  next => cases confirms

/-- The label stands directly behind a word character of its part. -/
def Glued (part label : Text) : Prop :=
  ∃ front char behind, part = front ++ char :: (label ++ behind) ∧ isWordChar char = true ∧
    allBlank behind = true

theorem exists_end_of_word {text : Text} (ends : endsWord false text = true) :
    ∃ front char, text = front ++ [char] ∧ isWordChar char = true := by
  rcases List.eq_nil_or_concat' text with rfl | ⟨front, char, rfl⟩
  · cases ends
  · rw [ends_word_append] at ends
    exact ⟨front, char, rfl, ends⟩

section Searches

variable {here : Text → Bool} {part word : Text} {firsts others : List Text}

/-- A word that a search would find, and did not, is the first of a label without a blank in
front of it. -/
theorem glued_of_vain_search {front name behind : Text}
    (starts : ∀ rest, Stops continuesWord rest → here (word ++ rest) = true)
    (vain : someWordStart here false part = false) (whole : part = front ++ (name ++ behind))
    (blank : allBlank behind = true) (found : words name = firsts ++ word :: others) :
    firsts = [] ∧ Glued part name := by
  obtain ⟨before, rest, place, isWord, border, first, later⟩ := exists_place_of_words found
  have ends : endsWord (endsWord false front) before = true := by
    rw [← ends_word_append]
    apply Bool.eq_true_of_not_eq_false
    intro apart
    have stops : Stops continuesWord (rest ++ behind) :=
      (border.append (blank_first_of_all blank)).stops not_continues_of_blank
    have cut : part = (front ++ before) ++ (word ++ (rest ++ behind)) := by
      rw [whole, place]
      simp only [List.append_assoc]
    rw [cut] at vain
    have nonempty := List.append_ne_nil_of_left_ne_nil isWord.nonempty (rest ++ behind)
    have absent := not_here_of_search nonempty vain apart
    rw [starts _ stops] at absent
    cases absent
  have only : firsts = [] := by
    apply Classical.byContradiction
    intro some
    rw [later some] at ends
    cases ends
  have none : before = [] := by
    apply Classical.byContradiction
    intro some
    rw [ends_word_of_blanks some (first only)] at ends
    cases ends
  subst none
  obtain ⟨lead, char, rfl, inWord⟩ := exists_end_of_word ends
  refine ⟨only, lead, char, behind, ?_, inWord, blank⟩
  rw [whole, List.append_assoc, List.singleton_append]

/-- Behind blanks alone, a search finds every word. -/
theorem not_starts_of_vain_search (vain : someWordStart here false part = false)
    (found : word ∈ words part) : ∃ rest, Stops continuesWord rest ∧ here (word ++ rest) = false := by
  obtain ⟨firsts, others, split⟩ := List.append_of_mem found
  obtain ⟨before, rest, rfl, isWord, border, first, later⟩ := exists_place_of_words split
  have apart : endsWord false before = false := by
    by_cases only : firsts = []
    · exact ends_word_of_blank (first only)
    · exact later only false
  exact ⟨rest, border.stops not_continues_of_blank,
    not_here_of_search (List.append_ne_nil_of_left_ne_nil isWord.nonempty rest) vain apart⟩

end Searches

/-- The label holds a word that is a limit or a confirmation, and no check of the parser finds
it. Behind a group it is any limit, elsewhere a word without a blank in front of it. -/
def Component.Swallows (text word : Text) : Component → Prop
  | .label _ => isLimitWord word = true
  | component => isModifierWord word = true ∧ (words component.name).head? = some word ∧
      ∃ part, IsPart text part ∧ Glued part component.name

/-- The words of labels that are limits or confirmations are the limits in labels behind groups,
and first words that stand directly behind a word character. -/
theorem word_is_modifier_iff {text : Text} {row : List Component} {limits : Limits}
    (accepted : parseExpression text = .ok (row, limits)) {component : Component}
    (member : component ∈ row) {word : Text} (inside : word ∈ words component.name) :
    isModifierWord word = true ↔ component.Swallows text word := by
  obtain ⟨unconfirmed, -⟩ := parse_expression_eq_ok.mp accepted
  have clean {part : Text} (isPart : IsPart text part) : mentionsConfirmation part = false :=
    no_confirmation_in_part (Bool.eq_false_iff.mpr unconfirmed) isPart
  have ofValue (isValue : component.isValue = true) (modifier : isModifierWord word = true) :
      (words component.name).head? = some word ∧
        ∃ part, IsPart text part ∧ Glued part component.name := by
    have isRun : component.isRun = true := by
      cases component <;> first | rfl | cases isValue
    obtain ⟨part, isPart, made⟩ := exists_part_of_parse_expression accepted member isRun
    cases made with
    | label => cases isValue
    | value read =>
        obtain ⟨silent, -⟩ := parse_value_cases read
        obtain ⟨front, behind, whole, blank⟩ := exists_place_of_label read
        obtain ⟨firsts, others, split⟩ := List.append_of_mem inside
        have glued : firsts = [] ∧ Glued part component.name := by
          rcases Bool.or_eq_true_iff.mp modifier with limit | confirms
          · exact glued_of_vain_search (fun rest _ => starts_limit_of_word limit rest) silent whole
              blank split
          · exact glued_of_vain_search (fun _ stops => starts_confirmation_of_word confirms stops)
              (clean isPart) whole blank split
        rw [split, glued.1]
        exact ⟨rfl, part, isPart, glued.2⟩
  cases component with
  | label name =>
      constructor
      · intro modifier
        rcases Bool.or_eq_true_iff.mp modifier with limit | confirms
        · exact limit
        · obtain ⟨part, isPart, made⟩ := exists_part_of_parse_expression accepted member rfl
          cases made with
          | value read => cases parse_value_is_value read
          | label bare noDie =>
              change word ∈ words (trim part) at inside
              rw [words_trim] at inside
              obtain ⟨rest, stops, absent⟩ := not_starts_of_vain_search (clean isPart) inside
              rw [starts_confirmation_of_word confirms stops] at absent
              cases absent
      · intro limit
        exact Bool.or_eq_true_iff.mpr (.inl limit)
  | constant value name => exact ⟨fun modifier => ⟨modifier, ofValue rfl modifier⟩, And.left⟩
  | die group => exact ⟨fun modifier => ⟨modifier, ofValue rfl modifier⟩, And.left⟩
  | _ => cases inside

/-- Two dice with a limit directly behind their sides, taken for their label. -/
def gluedLimit : Component := .die { sides := 6, numerator := 2, label := "min5".toList }

theorem word_is_modifier_iff_of_glued_limit :
    parseExpression "2d6min5".toList = .ok ([gluedLimit], {}) ∧
      "min5".toList ∈ words gluedLimit.name ∧
      (isModifierWord "min5".toList = true ↔
        gluedLimit.Swallows "2d6min5".toList "min5".toList) := by
  have accepted : parseExpression "2d6min5".toList = .ok ([gluedLimit], {}) := by decide +kernel
  have inside : "min5".toList ∈ words gluedLimit.name := by decide +kernel
  exact ⟨accepted, inside, word_is_modifier_iff accepted List.mem_cons_self inside⟩

theorem not_refuse_label_with_modifier :
    ¬∀ (text : Text) (row : List Component) (limits : Limits),
      parseExpression text = .ok (row, limits) →
        ∀ component ∈ row, ∀ word ∈ words component.name, isModifierWord word = false := by
  intro refused
  have accepted : parseExpression "d6c".toList =
      .ok ([.die { sides := 6, label := "c".toList }], {}) := by decide +kernel
  have none := refused _ _ _ accepted _ List.mem_cons_self "c".toList (by decide +kernel)
  have modifier : isModifierWord "c".toList = true := by decide +kernel
  rw [none] at modifier
  cases modifier

end Modifiers

end TabletopDice
