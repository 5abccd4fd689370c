import TabletopDice.Proofs.Computation
import TabletopDice.Proofs.Dice.RoundTrip
import TabletopDice.Proofs.Expression.Spelling
import TabletopDice.Proofs.Text.Tail

/-!
Limits in another order. A minimum and a maximum behind an expression can change places,
and blanks behind a limit do not count; the expression is read as the same dice.
-/

namespace TabletopDice

open Text

section Blanks

variable {blanks : Text} (blank : allBlank blanks = true)

include blank

theorem read_integer_append_blanks (text : Text) :
    readInteger? (text ++ blanks) =
      (readInteger? text).map fun (numeral, rest) => (numeral, rest ++ blanks) := by
  rw [readInteger?, readInteger?, split_sign_append_blanks blank]
  dsimp only
  rw [span_digits_append_blanks blank]
  cases spanDigits (splitSign text).2 with
  | mk digits rest =>
      cases digits with
      | nil => rfl
      | cons digit digits => rfl

theorem read_limit_append_blanks {keyword : Text}
    (visible : ∀ char ∈ keyword, isBlank char = false) (clause : Text) :
    readLimit? keyword (clause ++ blanks) = readLimit? keyword clause := by
  obtain ⟨more, blankMore, front⟩ := exists_trim_left_append blank clause
  rw [readLimit?, readLimit?, front, after_append_blanks blankMore keyword visible]
  cases after? keyword (trimLeft clause) with
  | none => rfl
  | some rest =>
      obtain ⟨last, blankLast, behind⟩ := exists_trim_left_append blankMore rest
      change (readInteger? (trimLeft (rest ++ more))).bind _ = (readInteger? (trimLeft rest)).bind _
      rw [behind, read_integer_append_blanks blankLast]
      cases readInteger? (trimLeft rest) with
      | none => rfl
      | some found =>
          change (if allBlank (found.2 ++ last) then some found.1 else none) = _
          rw [all_blank_append_blanks blankLast]
          rfl

end Blanks

namespace Limits

theorem with_clause_trim_right (limits : Limits) (clause : Text) :
    limits.withClause (trimRight clause) = limits.withClause clause := by
  refine eq_of_trim_right limits.withClause ?_ clause
  intro text blanks blank
  rw [withClause, withClause, read_limit_append_blanks blank (by decide),
    read_limit_append_blanks blank (by decide), trim_append_blanks blank]

theorem foldlM_trim_right (limits : Limits) (clauses : List Text) :
    (clauses.map trimRight).foldlM withClause limits = clauses.foldlM withClause limits := by
  rw [List.foldlM_map]
  simp only [with_clause_trim_right]

def isMinimum (clause : Text) : Bool := (after? ['m', 'i', 'n'] (trimLeft clause)).isSome

theorem is_minimum_trim_right (clause : Text) : isMinimum (trimRight clause) = isMinimum clause := by
  refine eq_of_trim_right isMinimum ?_ clause
  intro text blanks blank
  obtain ⟨more, blankMore, front⟩ := exists_trim_left_append blank text
  rw [isMinimum, isMinimum, front, after_append_blanks blankMore _ (by decide), Option.isSome_map]

theorem with_clause_eq_ok {limits final : Limits} {clause : Text}
    (read : limits.withClause clause = .ok final) :
    (isMinimum clause = true ∧ ∃ number, final = { limits with minimum := number } ∧
      ∀ other : Limits, other.withClause clause = .ok { other with minimum := number }) ∨
    (isMinimum clause = false ∧ ∃ number, final = { limits with maximum := number } ∧
      ∀ other : Limits, other.withClause clause = .ok { other with maximum := number }) := by
  rcases number_of_with_clause read with
    ⟨numeral, number, minimum, -, told, rfl⟩ | ⟨numeral, number, none, maximum, told, rfl⟩
  · obtain ⟨rest, -, found, -⟩ := read_limit_eq_some.mp minimum
    refine .inl ⟨Option.isSome_of_eq_some found, number, rfl, fun other => ?_⟩
    simp only [withClause, minimum, told]
    rfl
  · obtain ⟨rest, -, found, -⟩ := read_limit_eq_some.mp maximum
    refine .inr ⟨?_, number, rfl, fun other => ?_⟩
    · rw [isMinimum, eq_append_of_after found]
      rfl
    · simp only [withClause, none, maximum, told]
      rfl

theorem with_clause_swap {limits middle final : Limits} {one other : Text}
    (apart : isMinimum one ≠ isMinimum other) (first : limits.withClause one = .ok middle)
    (second : middle.withClause other = .ok final) :
    ∃ between, limits.withClause other = .ok between ∧ between.withClause one = .ok final := by
  rcases with_clause_eq_ok first with ⟨kind, number, rfl, sets⟩ | ⟨kind, number, rfl, sets⟩
  · rcases with_clause_eq_ok second with ⟨same, -⟩ | ⟨-, bound, rfl, limit⟩
    · exact absurd (kind.trans same.symm) apart
    · exact ⟨_, limit limits, sets _⟩
  · rcases with_clause_eq_ok second with ⟨-, bound, rfl, limit⟩ | ⟨same, -⟩
    · exact ⟨_, limit limits, sets _⟩
    · exact absurd (kind.trans same.symm) apart

theorem mem_of_read_integer {text behind : Text} {numeral : Numeral}
    (read : readInteger? text = some (numeral, behind)) {char : Char} (noDigit : isDigit char = false)
    (plus : char ≠ '+') (minus : char ≠ '-') (member : char ∈ text) : char ∈ behind := by
  have unsigned := ((mem_split_sign member).resolve_left plus).resolve_left minus
  rw [← List.takeWhile_append_dropWhile (p := isDigit) (l := (splitSign text).2),
    List.mem_append] at unsigned
  have rest := unsigned.resolve_left fun digit =>
    absurd (List.mem_takeWhile_imp digit) (Bool.eq_false_iff.mp noDigit)
  unfold readInteger? at read
  dsimp only at read
  split at read
  next => cases read
  next span =>
    cases read
    have last : (splitSign text).2.dropWhile isDigit = behind := congrArg Prod.snd span
    exact last ▸ rest

theorem not_mem_of_read_limit {keyword clause : Text} {numeral : Numeral}
    (read : readLimit? keyword clause = some numeral) {char : Char} (visible : isBlank char = false)
    (noDigit : isDigit char = false) (plus : char ≠ '+') (minus : char ≠ '-')
    (other : char ∉ keyword) : char ∉ clause := by
  intro member
  obtain ⟨rest, behind, found, number, blank⟩ := read_limit_eq_some.mp read
  have front := (mem_trim_left visible).mpr member
  rw [eq_append_of_after found, List.mem_append] at front
  have inside := (mem_trim_left visible).mpr (front.resolve_left other)
  have last := mem_of_read_integer number noDigit plus minus inside
  exact absurd (List.all_eq_true.mp blank char last) (Bool.eq_false_iff.mp visible)

theorem not_mem_of_with_clause {limits final : Limits} {clause : Text}
    (read : limits.withClause clause = .ok final) {char : Char} (visible : isBlank char = false)
    (noDigit : isDigit char = false)
    (other : char ∉ ['+', '-'] ++ ['m', 'i', 'n'] ++ ['m', 'a', 'x']) : char ∉ clause := by
  simp only [List.mem_append, not_or] at other
  obtain ⟨⟨noSign, noMinimum⟩, noMaximum⟩ := other
  have plus := List.ne_of_not_mem_cons noSign
  have minus := List.ne_of_not_mem_cons (List.not_mem_of_not_mem_cons noSign)
  rcases number_of_with_clause read with ⟨_, _, minimum, -⟩ | ⟨_, _, -, maximum, -⟩
  · exact not_mem_of_read_limit minimum visible noDigit plus minus noMinimum
  · exact not_mem_of_read_limit maximum visible noDigit plus minus noMaximum

theorem not_mem_of_clauses {clauses : List Text} {limits final : Limits}
    (read : clauses.foldlM withClause limits = .ok final) (char : Char)
    (visible : isBlank char = false) (noDigit : isDigit char = false)
    (other : char ∉ ['+', '-'] ++ ['m', 'i', 'n'] ++ ['m', 'a', 'x']) :
    ∀ clause ∈ clauses, char ∉ clause := by
  intro clause member
  obtain ⟨_, _, taken⟩ := step_of_foldlM read clause member
  exact not_mem_of_with_clause taken visible noDigit other

theorem foldlM_of_reordered {clauses others : List Text}
    (reordered : (clauses.map trimRight).Perm (others.map trimRight))
    (apart : (clauses.map trimRight).Pairwise fun one other => isMinimum one ≠ isMinimum other)
    {limits final : Limits} (read : clauses.foldlM withClause limits = .ok final) :
    others.foldlM withClause limits = .ok final := by
  rw [← foldlM_trim_right] at read ⊢
  refine foldlM_of_perm (fun one other => isMinimum one ≠ isMinimum other) (fun _ _ => True)
    (fun apart => apart.symm) ?_ ?_ reordered apart ?_ read
  · exact fun _ _ _ => trivial
  · exact fun apart _ first second => with_clause_swap apart first second
  · exact fun _ _ => trivial

end Limits

theorem stops_clauses {kind : Char → Bool} (other : kind '|' = false) (clauses : List Text) :
    Stops kind (clauses.flatMap ('|' :: ·)) := by
  cases clauses with
  | nil => exact stops_nil kind
  | cons clause clauses => exact stops_cons.mpr other

theorem split_on_append_parts {separator : Char} {parts : List Text}
    (absent : ∀ part ∈ parts, separator ∉ part) (text : Text) :
    splitOn separator (text ++ parts.flatMap (separator :: ·)) = splitOn separator text ++ parts := by
  induction text with
  | nil => exact split_on_parts absent List.not_mem_nil
  | cons char text ih =>
      rw [List.cons_append, splitOn, splitOn, ih]
      split
      · rfl
      · cases found : splitOn separator text with
        | nil => exact absurd found (splitOn_ne_nil separator text)
        | cons part rest => rfl

/-- A tail of clauses mentions no confirmation if it lacks the letter. -/
theorem mentions_confirmation_append {clauses : List Text} (silent : ∀ clause ∈ clauses, 'c' ∉ clause)
    (text : Text) :
    mentionsConfirmation (text ++ clauses.flatMap ('|' :: ·)) = mentionsConfirmation text := by
  have stops : Stops continuesWord (clauses.flatMap ('|' :: ·)) :=
    stops_clauses (not_continues_word '|' (by decide)) clauses
  have quiet : ∀ char ∈ clauses.flatMap ('|' :: ·), ∀ rest,
      startsConfirmation (char :: rest) = false := by
    intro char member rest
    apply starts_confirmation_of_ne
    rintro rfl
    obtain ⟨clause, isClause, inside⟩ := List.mem_flatMap.mp member
    rcases List.mem_cons.mp inside with bar | inside
    · cases bar
    · exact silent clause isClause inside
  have searched := some_word_start_append_of_quiet quiet (endsWord false text) []
  rw [List.append_nil] at searched
  rw [mentionsConfirmation, some_word_start_append (starts_confirmation_append stops), searched]
  exact Bool.or_false _

theorem replace_pairs_clauses (clauses : List Text) :
    replacePairs '/' '/' '÷' (clauses.flatMap ('|' :: ·)) =
      (clauses.map (replacePairs '/' '/' '÷')).flatMap ('|' :: ·) := by
  induction clauses with
  | nil => rfl
  | cons clause clauses ih =>
      rw [List.flatMap_cons, replace_pairs_append (stops_clauses rfl clauses),
        replace_pairs_cons_of_ne (by decide), ih, List.map_cons, List.flatMap_cons]

namespace Dice

variable {clauses others : List Text} {text : Text} {dice : Dice}

theorem parse_append_eq_ok (some : clauses ≠ []) (bars : ∀ clause ∈ clauses, '|' ∉ clause) :
    parse (text ++ clauses.flatMap ('|' :: ·)) = .ok dice ↔
      ∃ expression own middle, splitOn '|' text = expression :: own ∧
        ¬mentionsConfirmation text = true ∧ own.foldlM Limits.withClause {} = .ok middle ∧
        clauses.foldlM Limits.withClause middle = .ok dice.limits ∧
        Token.ofText (normalize expression) ≠ [] ∧
        parseTokens expression .value 0 (Token.ofText (normalize expression)) =
          .ok dice.components := by
  have visible : allBlank (text ++ clauses.flatMap ('|' :: ·)) = false := by
    obtain ⟨first, more, rfl⟩ := List.exists_cons_of_ne_nil some
    have bar : '|' ∈ text ++ (first :: more).flatMap ('|' :: ·) := by simp
    exact not_all_blank bar (by decide)
  have silent {middle : Limits} (read : clauses.foldlM Limits.withClause middle = .ok dice.limits) :=
    mentions_confirmation_append
      (Limits.not_mem_of_clauses read 'c' (by decide) (by decide +kernel) (by decide)) text
  rw [parse_eq_ok visible, parse_expression_eq_ok]
  constructor
  · rintro ⟨clean, expression, cut, tokens, parsed⟩
    obtain ⟨parts, whole, read⟩ := split_limits_eq_ok.mp cut
    rw [split_on_append_parts bars] at whole
    cases own : splitOn '|' text with
    | nil => exact absurd own (splitOn_ne_nil '|' text)
    | cons first inner =>
        rw [own, List.cons_append] at whole
        obtain ⟨rfl, rfl⟩ := List.cons.inj whole
        rw [List.foldlM_append, bind_eq_ok] at read
        obtain ⟨middle, front, behind⟩ := read
        rw [silent behind] at clean
        exact ⟨first, inner, middle, rfl, clean, front, behind, tokens, parsed⟩
  · rintro ⟨expression, own, middle, cut, clean, front, behind, tokens, parsed⟩
    rw [silent behind]
    refine ⟨clean, expression, split_limits_eq_ok.mpr ⟨own ++ clauses, ?_, ?_⟩, tokens, parsed⟩
    · rw [split_on_append_parts bars, cut, List.cons_append]
    · rw [List.foldlM_append, bind_eq_ok]
      exact ⟨middle, front, behind⟩

/-- Dice with limits behind them are the same with the limits in another order, also where the
limits still have to be searched for digraphs: those that can be read have none. -/
theorem parse_of_reordered (bars : ∀ clause ∈ clauses, '|' ∉ clause)
    (reordered : (clauses.map trimRight).Perm (others.map trimRight))
    (apart : (clauses.map trimRight).Pairwise fun one other =>
      Limits.isMinimum one ≠ Limits.isMinimum other)
    (accepted : parse (text ++ replacePairs '/' '/' '÷' (clauses.flatMap ('|' :: ·))) = .ok dice) :
    parse (text ++ replacePairs '/' '/' '÷' (others.flatMap ('|' :: ·))) = .ok dice := by
  have lengths : clauses.length = others.length := by simpa using reordered.length_eq
  by_cases none : clauses = []
  · subst none
    rw [List.eq_nil_of_length_eq_zero lengths.symm]
    exact accepted
  · have some : others ≠ [] := by
      rintro rfl
      exact none (List.eq_nil_of_length_eq_zero lengths)
    have plain : ∀ clause ∈ clauses, '/' ∉ clause := by
      rw [replace_pairs_clauses, parse_append_eq_ok] at accepted
      · obtain ⟨-, -, middle, -, -, -, read, -⟩ := accepted
        intro clause member slash
        have listed := List.mem_map_of_mem (f := replacePairs '/' '/' '÷') member
        rcases mem_replace_pairs '/' '÷' slash with kept | glyph
        · exact Limits.not_mem_of_clauses read '/' (by decide) (by decide +kernel) (by decide) _
            listed kept
        · exact Limits.not_mem_of_clauses read '÷' (by decide) (by decide +kernel) (by decide) _
            listed glyph
      · simpa using none
      · intro clause member bar
        obtain ⟨written, isClause, rfl⟩ := List.mem_map.mp member
        rcases mem_of_mem_replace_pairs bar with impossible | inside
        · cases impossible
        · exact bars written isClause inside
    have kept {tail : List Text} (plain : ∀ clause ∈ tail, '/' ∉ clause) :
        replacePairs '/' '/' '÷' (tail.flatMap ('|' :: ·)) = tail.flatMap ('|' :: ·) := by
      apply replace_pairs_of_chain
      apply chain_of_not_mem
      left
      intro slash
      obtain ⟨clause, isClause, inside⟩ := List.mem_flatMap.mp slash
      rcases List.mem_cons.mp inside with bar | inside
      · cases bar
      · exact plain clause isClause inside
    rw [kept plain, parse_append_eq_ok none bars] at accepted
    obtain ⟨expression, own, middle, cut, clean, front, behind, tokens, parsed⟩ := accepted
    rw [kept (not_mem_of_reordered reordered (by decide) plain),
      parse_append_eq_ok some (not_mem_of_reordered reordered (by decide) bars)]
    exact ⟨expression, own, middle, cut, clean, front,
      Limits.foldlM_of_reordered reordered apart behind, tokens, parsed⟩

end Dice

end TabletopDice
