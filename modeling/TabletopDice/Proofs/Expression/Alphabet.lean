import TabletopDice.Dice.Basic
import TabletopDice.Proofs.Expression.Clauses
import TabletopDice.Proofs.Expression.Written

/-!
The characters of accepted expressions. Every reader leaves the end of its text and spends
characters of one alphabet only, and what is left for a label is checked, so an accepted
text consists of this alphabet. Braces do not belong to it.
-/

namespace TabletopDice

open Text

/-- What an expression may be written with: labels, numbers, glyphs, the signs of a die group
and the digraphs for glyphs, and the bars of limits. -/
def isExpressionChar (char : Char) : Bool :=
  isLabelChar char || isDigit char || isGlyph char || "/%<>=|".toList.contains char

theorem is_expression_char_of_blank {char : Char} (blank : isBlank char = true) :
    isExpressionChar char = true := by
  simp [isExpressionChar, isLabelChar, blank]

theorem is_expression_char_of_digit {char : Char} (digit : isDigit char = true) :
    isExpressionChar char = true := by
  simp [isExpressionChar, digit]

def readSigns : Text := "+-()/%<>=|.dDbestworfminax".toList

theorem is_expression_char_of_sign {char : Char} (sign : char ∈ readSigns) :
    isExpressionChar char = true := by
  have known : ∀ char ∈ readSigns, isExpressionChar char = true := by decide +kernel
  exact known char sign

/-- Only characters of the alphabet were taken from the text when the rest was left. -/
def Spends (text rest : Text) : Prop :=
  ∀ char ∈ text, char ∈ rest ∨ isExpressionChar char = true

theorem spends_refl (text : Text) : Spends text text := fun _ member => .inl member

theorem Spends.trans {text middle rest : Text} (first : Spends text middle)
    (second : Spends middle rest) : Spends text rest := by
  intro char member
  rcases first char member with later | known
  · exact second char later
  · exact .inr known

theorem spends_blanks {text : Text} (blank : allBlank text = true) (rest : Text) :
    Spends text rest :=
  fun char member => .inr (is_expression_char_of_blank (List.all_eq_true.mp blank char member))

theorem spends_trim (text : Text) : Spends text (trim text) := by
  obtain ⟨before, behind, whole, blankBefore, blankBehind⟩ := exists_blanks text
  intro char member
  rw [whole, List.append_assoc, List.mem_append, List.mem_append] at member
  rcases member with first | inside | last
  · exact spends_blanks blankBefore _ char first
  · exact .inl inside
  · exact spends_blanks blankBehind _ char last

/-- A reader leaves the end of its text, and takes only characters of the alphabet in front of it.
-/
structure Takes (text rest : Text) : Prop where
  suffix : rest <:+ text
  spends : Spends text rest

section Readers

variable {text rest : Text}

theorem takes_refl (text : Text) : Takes text text := ⟨List.suffix_rfl, spends_refl text⟩

theorem Takes.trans {middle : Text} (first : Takes text middle) (second : Takes middle rest) :
    Takes text rest :=
  ⟨second.suffix.trans first.suffix, first.spends.trans second.spends⟩

theorem takes_append {lead : Text} (known : ∀ char ∈ lead, isExpressionChar char = true)
    (rest : Text) : Takes (lead ++ rest) rest := by
  refine ⟨List.suffix_append lead rest, ?_⟩
  intro char member
  rcases List.mem_append.mp member with inside | later
  · exact .inr (known char inside)
  · exact .inl later

theorem takes_cons {char : Char} (sign : char ∈ readSigns) (rest : Text) :
    Takes (char :: rest) rest :=
  takes_append (List.forall_mem_singleton.mpr (is_expression_char_of_sign sign)) rest

theorem takes_drop_while {kind : Char → Bool}
    (known : ∀ char, kind char = true → isExpressionChar char = true) (text : Text) :
    Takes text (text.dropWhile kind) := by
  have taken := takes_append
    (fun char member => known char (List.mem_takeWhile_imp (l := text) member)) (text.dropWhile kind)
  rwa [List.takeWhile_append_dropWhile] at taken

theorem takes_trim_left (text : Text) : Takes text (trimLeft text) :=
  takes_drop_while (fun _ => is_expression_char_of_blank) text

theorem takes_span_digits (text : Text) : Takes text (spanDigits text).2 :=
  takes_drop_while (fun _ => is_expression_char_of_digit) text

theorem takes_after {lead : Text} (signs : ∀ char ∈ lead, char ∈ readSigns)
    (found : after? lead text = some rest) : Takes text rest := by
  rw [eq_append_of_after found]
  exact takes_append (fun char member => is_expression_char_of_sign (signs char member)) rest

theorem takes_read_digits {digits : Text} (found : readDigits? text = some (digits, rest)) :
    Takes text rest := by
  have taken := takes_span_digits text
  unfold readDigits? at found
  split at found
  · cases found
  next read =>
    cases found
    exact taken

theorem takes_read_mark (text : Text) : Takes text (readMark text).2 := by
  have trimmed := takes_trim_left text
  unfold readMark
  split
  next behind same =>
    rw [same] at trimmed
    exact trimmed.trans ((takes_cons (by decide) behind).trans (takes_trim_left behind))
  next => exact trimmed

theorem takes_read_bar (text : Text) : Takes text (readBar text).2 := by
  unfold readBar
  split
  next digits rest found =>
    refine Takes.trans ?_ (takes_trim_left rest)
    unfold readDenominator? at found
    split at found
    next behind =>
      exact (takes_cons (by decide) behind).trans
        ((takes_trim_left behind).trans (takes_read_digits found))
    next => cases found
  next => exact takes_refl text

theorem takes_read_letter (found : readLetter? text = some rest) : Takes text rest := by
  unfold readLetter? at found
  split at found
  · cases found
    exact (takes_cons (by decide) _).trans (takes_trim_left _)
  · cases found
    exact (takes_cons (by decide) _).trans (takes_trim_left _)
  · cases found

theorem takes_read_sides {sides : Option Text} (found : readSides? text = some (sides, rest)) :
    Takes text rest := by
  unfold readSides? at found
  split at found
  · cases found
    exact takes_cons (by decide) rest
  · obtain ⟨⟨digits, behind⟩, read, same⟩ := Option.map_eq_some_iff.mp found
    cases same
    exact takes_read_digits read

theorem takes_read_choice_word {best : Bool} (found : readChoiceWord? text = some (best, rest)) :
    Takes text rest := by
  unfold readChoiceWord? at found
  split at found
  next behind best =>
    cases found
    exact takes_after (by decide) best
  next =>
    obtain ⟨behind, worst, same⟩ := Option.map_eq_some_iff.mp found
    cases same
    exact takes_after (by decide) worst

theorem takes_read_attempts (text : Text) : Takes text (readAttempts text).2 := by
  unfold readAttempts
  split
  next choice rest found =>
    simp only [readChoice?, Option.bind_eq_bind, Option.bind_eq_some_iff, Prod.exists] at found
    obtain ⟨best, behind, word, tail, preposition, count, last, digits, same⟩ := found
    cases same
    exact (takes_read_choice_word word).trans ((takes_trim_left behind).trans
      ((takes_after (by decide) preposition).trans
        ((takes_trim_left tail).trans (takes_read_digits digits))))
  next => exact takes_refl text

theorem DieNotation.takes_read {pieces : DieNotation} (read : read? text = some pieces) :
    ∃ rest, Takes text rest ∧ pieces.label = trim rest := by
  simp only [read?, Option.bind_eq_bind, Option.bind_eq_some_iff, Prod.exists] at read
  obtain ⟨sided, letter, sides, tail, printed, same⟩ := read
  cases same
  have front : Takes text sided :=
    (takes_read_mark text).trans ((takes_span_digits _).trans ((takes_trim_left _).trans
      ((takes_read_bar _).trans (takes_read_letter letter))))
  refine ⟨_, ?_, rfl⟩
  exact front.trans ((takes_read_sides printed).trans ((takes_trim_left tail).trans
    (takes_read_attempts _)))

theorem takes_read_fraction (text : Text) : Takes text (readFraction text).2 := by
  unfold readFraction
  split
  next digits => exact (takes_cons (by decide) digits).trans (takes_span_digits digits)
  next => exact takes_refl text

theorem takes_read_constant {value : Double} {label : Text}
    (read : readConstant? text = some (value, label)) :
    ∃ rest, Takes text rest ∧ label = trim rest := by
  have whole := (takes_trim_left text).trans (takes_span_digits (trimLeft text))
  simp only [readConstant?] at read
  split at read
  · cases read
    exact ⟨_, whole.trans (takes_read_fraction _), rfl⟩
  · split at read
    · cases read
      exact ⟨_, whole, rfl⟩
    · cases read

theorem takes_split_sign (text : Text) : Takes text (splitSign text).2 := by
  unfold splitSign
  split
  · exact takes_cons (by decide) _
  · exact takes_cons (by decide) _
  · exact takes_refl text

end Readers

abbrev IsSpelled (text : Text) : Prop := ∀ char ∈ text, isExpressionChar char = true

theorem spelled_of_label {text label : Text} (spent : Spends text label)
    (checked : label = [] ∨ isBareLabel label = true) : IsSpelled text := by
  intro char member
  rcases spent char member with inside | known
  · rcases checked with rfl | bare
    · cases inside
    · simp [isExpressionChar, label_chars bare char inside]
  · exact known

theorem spelled_of_parse_value {part expression : Text} {component : Component}
    (read : parseValue part expression = .ok component) : IsSpelled part := by
  cases accepted_of_parse_value read with
  | die found made =>
      obtain ⟨-, _, -, -, _, -, -, _, checked, -⟩ := to_group_eq_ok.mp made
      obtain ⟨rest, taken, label⟩ := DieNotation.takes_read found
      have spent := taken.spends.trans (spends_trim rest)
      rw [← label] at spent
      exact spelled_of_label spent (DieNotation.label_of_check checked).2
  | constant _ found _ bare =>
      obtain ⟨rest, taken, rfl⟩ := takes_read_constant found
      exact spelled_of_label (taken.spends.trans (spends_trim rest)) bare

theorem spelled_of_skipped {expected : Expected} {token : Token} (skipped : token.Skipped expected) :
    IsSpelled token.toText := by
  have blank {part : Text} (blank : allBlank part = true) : IsSpelled part :=
    fun char member => is_expression_char_of_blank (List.all_eq_true.mp blank char member)
  cases token with
  | glyph char =>
      cases expected with
      | value =>
          cases (show char = '+' from skipped)
          exact List.forall_mem_singleton.mpr (is_expression_char_of_sign (by decide))
      | operator => exact skipped.elim
  | run part =>
      cases expected with
      | value => exact blank skipped
      | operator => exact blank skipped

theorem spelled_of_reads {expression : Text} {expected : Expected} {depth : Nat}
    {tokens : List Token} {row : List Component}
    (reads : Reads expression expected depth tokens row) :
    ∀ token ∈ tokens, IsSpelled token.toText := by
  have single {char : Char} (known : isExpressionChar char = true) :
      IsSpelled (Token.glyph char).toText := List.forall_mem_singleton.mpr known
  induction reads with
  | finish => exact fun _ member => absurd member List.not_mem_nil
  | skip skipped _ ih => exact List.forall_mem_cons.mpr ⟨spelled_of_skipped skipped, ih⟩
  | value read _ ih => exact List.forall_mem_cons.mpr ⟨spelled_of_parse_value read, ih⟩
  | label bare _ _ ih =>
      exact List.forall_mem_cons.mpr ⟨spelled_of_label (spends_refl _) (.inr bare), ih⟩
  | binary known _ ih =>
      exact List.forall_mem_cons.mpr ⟨single (by simp [isExpressionChar, isGlyph, known]), ih⟩
  | negation _ ih | openGroup _ ih | closeGroup _ ih =>
      exact List.forall_mem_cons.mpr ⟨single (is_expression_char_of_sign (by decide)), ih⟩

theorem spelled_of_replace_pairs {first second glyph : Char} {text : Text}
    (spelled : IsSpelled (replacePairs first second glyph text))
    (knownFirst : first ∈ readSigns) (knownSecond : second ∈ readSigns) : IsSpelled text := by
  induction text using replacePairs.induct first second with
  | case1 => exact spelled
  | case2 char => exact spelled
  | case3 char next rest same ih =>
      rw [replacePairs, if_pos same] at spelled
      obtain ⟨rfl, rfl⟩ := same
      exact List.forall_mem_cons.mpr ⟨is_expression_char_of_sign knownFirst,
        List.forall_mem_cons.mpr ⟨is_expression_char_of_sign knownSecond,
          ih (List.forall_mem_cons.mp spelled).2⟩⟩
  | case4 char next rest other ih =>
      rw [replacePairs, if_neg other] at spelled
      obtain ⟨known, behind⟩ := List.forall_mem_cons.mp spelled
      exact List.forall_mem_cons.mpr ⟨known, ih behind⟩

theorem spelled_of_normalize {text : Text} (spelled : IsSpelled (normalize text)) :
    IsSpelled text := by
  unfold normalize at spelled
  have less := spelled_of_replace_pairs spelled (by decide) (by decide)
  have greater := spelled_of_replace_pairs less (by decide) (by decide)
  exact spelled_of_replace_pairs greater (by decide) (by decide)

theorem spelled_of_read_limit {keyword clause : Text} {numeral : Numeral}
    (known : ∀ char ∈ keyword, char ∈ readSigns)
    (read : readLimit? keyword clause = some numeral) :
    IsSpelled clause := by
  obtain ⟨rest, behind, found, number, blank⟩ := Limits.read_limit_eq_some.mp read
  have digits : Takes (splitSign (trimLeft rest)).2 behind := by
    have taken := takes_span_digits (splitSign (trimLeft rest)).2
    simp only [readInteger?] at number
    split at number
    · cases number
    next found =>
      cases number
      rw [found] at taken
      exact taken
  have taken : Takes clause behind := (takes_trim_left clause).trans
    ((takes_after known found).trans ((takes_trim_left rest).trans
      ((takes_split_sign _).trans digits)))
  intro char member
  have spent := taken.spends.trans (spends_blanks blank [])
  exact (spent char member).resolve_left List.not_mem_nil

theorem spelled_of_with_clause {clause : Text} {limits final : Limits}
    (read : limits.withClause clause = .ok final) : IsSpelled clause := by
  rcases Limits.number_of_with_clause read with ⟨_, _, minimum, -⟩ | ⟨_, _, -, maximum, -⟩
  · exact spelled_of_read_limit (by decide) minimum
  · exact spelled_of_read_limit (by decide) maximum

theorem spelled_of_limits {clauses : List Text} {limits final : Limits}
    (read : clauses.foldlM Limits.withClause limits = .ok final) :
    ∀ clause ∈ clauses, IsSpelled clause := by
  intro clause member
  obtain ⟨_, _, taken⟩ := step_of_foldlM read clause member
  exact spelled_of_with_clause taken

theorem spelled_of_parse_expression {text : Text} {row : List Component} {limits : Limits}
    (accepted : parseExpression text = .ok (row, limits)) : IsSpelled text := by
  obtain ⟨-, expression, cut, -, parsed⟩ := parse_expression_eq_ok.mp accepted
  obtain ⟨clauses, parts, read⟩ := split_limits_eq_ok.mp cut
  have tokens := spelled_of_reads (reads_of_parse_tokens parsed)
  have spelled : IsSpelled expression := by
    apply spelled_of_normalize
    intro char member
    rw [← Token.toText_ofText (normalize expression)] at member
    obtain ⟨token, isToken, inside⟩ := List.mem_flatMap.mp member
    exact tokens token isToken char inside
  intro char member
  rw [← join_splitOn '|' text, parts] at member
  rcases mem_join member with bar | ⟨part, isPart, inside⟩
  · rw [List.mem_singleton.mp bar]
    exact is_expression_char_of_sign (by decide)
  · rcases List.mem_cons.mp isPart with rfl | isClause
    · exact spelled char inside
    · exact spelled_of_limits read part isClause char inside

theorem Dice.spelled_of_parse {text : Text} {dice : Dice} (accepted : Dice.parse text = .ok dice) :
    IsSpelled text := by
  unfold Dice.parse at accepted
  split at accepted
  next blank =>
    exact fun char member => is_expression_char_of_blank (List.all_eq_true.mp blank char member)
  next =>
    simp only [bind_eq_ok, Prod.exists] at accepted
    obtain ⟨row, limits, parsed, -⟩ := accepted
    exact spelled_of_parse_expression parsed

theorem Dice.no_brace_of_parse {text : Text} {dice : Dice} (accepted : Dice.parse text = .ok dice) :
    '{' ∉ text ∧ '}' ∉ text := by
  have foreign : isExpressionChar '{' = false ∧ isExpressionChar '}' = false := by decide +kernel
  constructor
  · intro member
    exact Bool.false_ne_true (foreign.1.symm.trans (Dice.spelled_of_parse accepted _ member))
  · intro member
    exact Bool.false_ne_true (foreign.2.symm.trans (Dice.spelled_of_parse accepted _ member))

end TabletopDice
