import TabletopDice.Proofs.Expression.Padding
import TabletopDice.Proofs.Expression.SpelledExpressions

/-!
Blanks next to the glyphs of an expression. They pad the runs between the glyphs or make
runs of their own, which are skipped; they end no word that did not end there before, so
no confirmation comes up or goes away. The expression is read as the same components and
limits, or it is refused for a reason of the same kind.
-/

namespace TabletopDice

open Text

/-- Tokens that differ in the blanks around runs, and in further runs of blanks alone. -/
inductive Respaced : List Token → List Token → Prop
  | nil : Respaced [] []
  | glyph (char : Char) {tokens spaced : List Token} (rest : Respaced tokens spaced) :
      Respaced (.glyph char :: tokens) (.glyph char :: spaced)
  | run {part padded : Text} {tokens spaced : List Token} (pads : Pads part padded)
      (rest : Respaced tokens spaced) : Respaced (.run part :: tokens) (.run padded :: spaced)
  | blanks {blanks : Text} {tokens spaced : List Token} (blank : allBlank blanks = true)
      (rest : Respaced tokens spaced) : Respaced tokens (.run blanks :: spaced)

namespace Respaced

theorem refl (tokens : List Token) : Respaced tokens tokens := by
  induction tokens with
  | nil => exact .nil
  | cons token tokens ih =>
      cases token with
      | glyph char => exact .glyph char ih
      | run part => exact .run (.refl part) ih

theorem append {left right spaced other : List Token} (first : Respaced left spaced)
    (second : Respaced right other) : Respaced (left ++ right) (spaced ++ other) := by
  induction first with
  | nil => exact second
  | glyph char _ ih => exact .glyph char ih
  | run pads _ ih => exact .run pads ih
  | blanks blank _ ih => exact .blanks blank ih

/-- Respaced tokens are the same components, or they are refused for the same kind of reason. -/
theorem verdict_parse_tokens {tokens spaced : List Token} (respaced : Respaced tokens spaced)
    (expression around : Text) (expected : Expected) (depth : Nat) :
    verdict (parseTokens around expected depth spaced) =
      verdict (parseTokens expression expected depth tokens) := by
  induction respaced generalizing expected depth with
  | nil =>
      cases expected with
      | value => rfl
      | operator =>
          simp only [parseTokens]
          split
          · rfl
          · rfl
  | glyph char rest ih =>
      cases expected with
      | value =>
          simp only [parseTokens]
          split
          · exact ih .value depth
          · split
            · simp only [verdict_bind, ih]
            · split
              · simp only [verdict_bind, ih]
              · rfl
      | operator =>
          simp only [parseTokens]
          split
          · cases depth with
            | zero => rfl
            | succ depth => simp only [verdict_bind, ih]
          · split
            · simp only [verdict_bind, ih]
            · rfl
  | run pads rest ih =>
      cases expected with
      | value =>
          simp only [parseTokens, pads.all_blank]
          split
          · exact ih .value depth
          · simp only [verdict_bind, verdict_parse_value pads expression around, ih]
      | operator =>
          simp only [parseTokens, pads.all_blank, pads.is_bare_label, pads.read_die, pads.trim_eq]
          split
          · exact ih .operator depth
          · split
            · split
              · rfl
              · simp only [verdict_bind, ih]
            · rfl
  | blanks blank rest ih =>
      cases expected with
      | value =>
          rw [parseTokens, if_pos blank]
          exact ih .value depth
      | operator =>
          rw [parseTokens, if_pos blank]
          exact ih .operator depth

end Respaced

namespace Token

theorem of_text_append_glyph {glyph : Char} (isGlyph : isGlyph glyph = true) (left right : Text) :
    ofText (left ++ glyph :: right) = ofText left ++ .glyph glyph :: ofText right := by
  induction left with
  | nil => exact of_text_glyph isGlyph right
  | cons char left ih =>
      rw [List.cons_append, ofText, ofText, ih]
      split
      · rfl
      · cases ofText left with
        | nil => rfl
        | cons token tokens => cases token <;> rfl

theorem of_text_plain {part : Text} (nonempty : part ≠ [])
    (plain : ∀ char ∈ part, isGlyph char = false) : ofText part = [.run part] := by
  have cut := of_text_run nonempty plain ends_run_nil
  rw [List.append_nil] at cut
  exact cut

theorem respaced_of_pads {part padded : Text} (plain : ∀ char ∈ padded, isGlyph char = false)
    (pads : Pads part padded) : Respaced (ofText part) (ofText padded) := by
  obtain ⟨before, behind, rfl, blankBefore, blankBehind⟩ := pads
  have plainPart : ∀ char ∈ part, isGlyph char = false := fun char member =>
    plain char (by simp [member])
  by_cases none : part = []
  · subst none
    by_cases empty : before ++ ([] ++ behind) = []
    · rw [empty]
      exact .nil
    · rw [of_text_plain empty plain]
      refine .blanks ?_ .nil
      rw [List.nil_append, all_blank_append_blanks blankBehind]
      exact blankBefore
  · rw [of_text_plain none plainPart, of_text_plain (by simp [none]) plain]
    exact .run ⟨before, behind, rfl, blankBefore, blankBehind⟩ .nil

theorem plain_or_exists_first_glyph (text : Text) :
    (∀ char ∈ text, isGlyph char = false) ∨
      ∃ part glyph back, text = part ++ glyph :: back ∧ (∀ char ∈ part, isGlyph char = false) ∧
        isGlyph glyph = true := by
  induction text with
  | nil => exact .inl nofun
  | cons char rest ih =>
      cases first : isGlyph char with
      | true => exact .inr ⟨[], char, rest, rfl, nofun, first⟩
      | false =>
          rcases ih with plain | ⟨part, glyph, back, rfl, plain, isGlyph⟩
          · exact .inl (List.forall_mem_cons.mpr ⟨first, plain⟩)
          · refine .inr ⟨char :: part, glyph, back, rfl, ?_, isGlyph⟩
            exact List.forall_mem_cons.mpr ⟨first, plain⟩

section Blanks

variable {blanks : Text} (blank : allBlank blanks = true)

include blank

theorem plain_of_blanks : ∀ char ∈ blanks, isGlyph char = false := fun char member =>
  not_glyph_of_value_char (Blanks.value_chars ⟨blanks, blank⟩ char member)

theorem respaced_front (text : Text) : Respaced (ofText text) (ofText (blanks ++ text)) := by
  have padded {part : Text} (plain : ∀ char ∈ part, isGlyph char = false) :
      Respaced (ofText part) (ofText (blanks ++ part)) := by
    apply respaced_of_pads (List.forall_mem_append.mpr ⟨plain_of_blanks blank, plain⟩)
    exact ⟨blanks, [], by rw [List.append_nil], blank, rfl⟩
  rcases plain_or_exists_first_glyph text with plain | ⟨part, glyph, back, rfl, plain, isGlyph⟩
  · exact padded plain
  · rw [← List.append_assoc, of_text_append_glyph isGlyph, of_text_append_glyph isGlyph]
    exact (padded plain).append (.refl _)

theorem respaced_behind (text : Text) : Respaced (ofText text) (ofText (text ++ blanks)) := by
  induction size : text.length using Nat.strong_induction_on generalizing text with
  | _ length ih =>
      rcases plain_or_exists_first_glyph text with plain | ⟨part, glyph, back, rfl, -, isGlyph⟩
      · apply respaced_of_pads (List.forall_mem_append.mpr ⟨plain, plain_of_blanks blank⟩)
        exact ⟨[], blanks, rfl, rfl, blank⟩
      · have shorter : back.length < length := by
          rw [← size, List.length_append, List.length_cons]
          omega
        rw [List.append_assoc, List.cons_append, of_text_append_glyph isGlyph,
          of_text_append_glyph isGlyph]
        exact (Respaced.refl _).append (.glyph glyph (ih back.length shorter back rfl))

end Blanks

end Token

/-- Blanks are put in front of an expression, behind it, or directly next to one of its glyphs. -/
inductive Spaces : Text → Text → Prop
  | front {blanks : Text} (blank : allBlank blanks = true) (text : Text) :
      Spaces text (blanks ++ text)
  | behind {blanks : Text} (blank : allBlank blanks = true) (text : Text) :
      Spaces text (text ++ blanks)
  | beforeGlyph {blanks : Text} {glyph : Char} (blank : allBlank blanks = true)
      (isGlyph : isGlyph glyph = true) (left right : Text) :
      Spaces (left ++ glyph :: right) (left ++ (blanks ++ glyph :: right))
  | behindGlyph {blanks : Text} {glyph : Char} (blank : allBlank blanks = true)
      (isGlyph : isGlyph glyph = true) (left right : Text) :
      Spaces (left ++ glyph :: right) (left ++ glyph :: (blanks ++ right))

namespace Spaces

variable {text spaced : Text}

theorem respaced (spaces : Spaces text spaced) :
    Respaced (Token.ofText text) (Token.ofText spaced) := by
  cases spaces with
  | front blank text => exact Token.respaced_front blank text
  | behind blank text => exact Token.respaced_behind blank text
  | beforeGlyph blank isGlyph left right =>
      rw [← List.append_assoc, Token.of_text_append_glyph isGlyph, Token.of_text_append_glyph isGlyph]
      exact (Token.respaced_behind blank left).append (.refl _)
  | behindGlyph blank isGlyph left right =>
      rw [Token.of_text_append_glyph isGlyph, Token.of_text_append_glyph isGlyph]
      exact (Respaced.refl _).append (.glyph _ (Token.respaced_front blank right))

/-- All places for blanks are borders of words, so they make no difference to a confirmation. -/
theorem mentions_confirmation (spaces : Spaces text spaced) :
    mentionsConfirmation spaced = mentionsConfirmation text := by
  cases spaces with
  | front blank text => exact mentions_confirmation_blanks_append blank text
  | behind blank text =>
      have silent := mentions_confirmation_blanks_append blank []
      rw [List.append_nil] at silent
      rw [mentions_confirmation_of_stops (stops_blanks blank not_continues_of_blank), silent]
      exact Bool.or_false _
  | @beforeGlyph _ glyph blank isGlyph left right =>
      have border : Stops continuesWord (glyph :: right) :=
        stops_cons.mpr (not_continues_of_glyph isGlyph)
      have padded := stops_append_of_stops (stops_blanks blank not_continues_of_blank) border
      rw [mentions_confirmation_of_stops padded, mentions_confirmation_blanks_append blank,
        mentions_confirmation_of_stops border]
  | behindGlyph blank isGlyph left right =>
      have plain := not_continues_of_glyph isGlyph
      rw [mentions_confirmation_of_border plain, mentions_confirmation_of_border plain,
        mentions_confirmation_blanks_append blank]

theorem exists_pieces (spaces : Spaces text spaced) :
    ∃ left blanks right, text = left ++ right ∧ spaced = left ++ (blanks ++ right) ∧
      allBlank blanks = true := by
  cases spaces with
  | @front blanks blank text => exact ⟨[], blanks, text, rfl, rfl, blank⟩
  | @behind blanks blank text => exact ⟨text, blanks, [], by simp, by simp, blank⟩
  | beforeGlyph blank _ left right => exact ⟨left, _, _, rfl, rfl, blank⟩
  | @behindGlyph _ glyph blank _ left right =>
      exact ⟨left ++ [glyph], _, right, by simp, by simp, blank⟩

theorem no_bar (spaces : Spaces text spaced) (bars : '|' ∉ text) :
    '|' ∉ spaced := by
  obtain ⟨left, blanks, right, rfl, rfl, blank⟩ := spaces.exists_pieces
  rw [List.mem_append, not_or] at bars
  simp only [List.mem_append, not_or]
  refine ⟨bars.1, fun member => ?_, bars.2⟩
  cases List.all_eq_true.mp blank '|' member

end Spaces

section Pairs

variable {first second : Char}

def Apart (first second : Char) (text : Text) : Prop :=
  text.IsChain fun char next => ¬(char = first ∧ next = second)

theorem apart_or_shorter (first second glyph : Char) (text : Text) :
    Apart first second text ∨ (replacePairs first second glyph text).length < text.length := by
  induction text using replacePairs.induct first second with
  | case1 => exact .inl List.isChain_nil
  | case2 char => exact .inl (List.isChain_singleton char)
  | case3 char next rest same ih =>
      have shorter := length_replace_pairs_le first second glyph rest
      right
      rw [replacePairs, if_pos same, List.length_cons, List.length_cons, List.length_cons]
      omega
  | case4 char next rest other ih =>
      rw [replacePairs, if_neg other, List.length_cons, List.length_cons]
      rcases ih with apart | shorter
      · exact .inl (List.isChain_cons_cons.mpr ⟨other, apart⟩)
      · exact .inr (Nat.succ_lt_succ shorter)

theorem normalize_eq_self_iff {text : Text} :
    normalize text = text ↔ Apart '/' '/' text ∧ Apart '>' '=' text ∧ Apart '<' '=' text := by
  constructor
  · intro single
    have length := congrArg List.length single
    rw [normalize] at length
    have second := length_replace_pairs_le '>' '=' '≥' (replacePairs '/' '/' '÷' text)
    have third := length_replace_pairs_le '<' '=' '≤'
      (replacePairs '>' '=' '≥' (replacePairs '/' '/' '÷' text))
    rcases apart_or_shorter '/' '/' '÷' text with slashes | shorter
    · rw [replace_pairs_of_chain '÷' slashes] at length second third
      rcases apart_or_shorter '>' '=' '≥' text with least | shorter
      · rw [replace_pairs_of_chain '≥' least] at length third
        rcases apart_or_shorter '<' '=' '≤' text with most | shorter
        · exact ⟨slashes, least, most⟩
        · omega
      · omega
    · omega
  · rintro ⟨slashes, least, most⟩
    rw [normalize, replace_pairs_of_chain _ slashes, replace_pairs_of_chain _ least,
      replace_pairs_of_chain _ most]

theorem Apart.with_blanks {left blanks right : Text} (apart : Apart first second (left ++ right))
    (blank : allBlank blanks = true) (visibleFirst : isBlank first = false)
    (visibleSecond : isBlank second = false) : Apart first second (left ++ (blanks ++ right)) := by
  by_cases none : blanks = []
  · rw [none]
    exact apart
  · obtain ⟨before, behind, -⟩ := List.isChain_append.mp apart
    have noFirst : ∀ char ∈ blanks, char ≠ first := by
      rintro char member rfl
      exact Bool.eq_false_iff.mp visibleFirst (List.all_eq_true.mp blank char member)
    have noSecond : ∀ char ∈ blanks, char ≠ second := by
      rintro char member rfl
      exact Bool.eq_false_iff.mp visibleSecond (List.all_eq_true.mp blank char member)
    have between : Apart first second (blanks ++ right) := by
      refine List.isChain_append.mpr ⟨chain_of_not_mem (.inl fun member => noFirst _ member rfl),
        behind, ?_⟩
      exact fun char last _ _ both => noFirst char (List.mem_of_mem_getLast? last) both.1
    refine List.isChain_append.mpr ⟨before, between, ?_⟩
    intro _ _ char found both
    obtain ⟨head, more, rfl⟩ := List.exists_cons_of_ne_nil none
    cases found
    exact noSecond char List.mem_cons_self both.2

theorem normalize_of_spaces {text spaced : Text} (spaces : Spaces text spaced)
    (single : normalize text = text) : normalize spaced = spaced := by
  obtain ⟨left, blanks, right, rfl, rfl, blank⟩ := spaces.exists_pieces
  obtain ⟨slashes, least, most⟩ := normalize_eq_self_iff.mp single
  exact normalize_eq_self_iff.mpr ⟨slashes.with_blanks blank (by decide) (by decide),
    least.with_blanks blank (by decide) (by decide), most.with_blanks blank (by decide) (by decide)⟩

theorem normalize_core {text : Text} (single : normalize text = text) :
    normalize (core text) = core text := by
  rw [← core_append_behind text, normalize_eq_self_iff] at single
  obtain ⟨slashes, least, most⟩ := single
  exact normalize_eq_self_iff.mpr
    ⟨slashes.left_of_append, least.left_of_append, most.left_of_append⟩

end Pairs

theorem verdict_parse_expression (text : Text) :
    verdict (parseExpression text) =
      if mentionsConfirmation text = true then .error (.inl .badExpression)
      else verdict (splitLimits text) >>= fun found =>
        verdict (parseTokens found.1 .value 0 (Token.ofText (normalize found.1))) >>= fun row =>
          .ok (row, found.2) := by
  simp only [parseExpression, verdict_guard, verdict_bind]
  split
  · rfl
  · cases splitLimits text with
    | error failure => rfl
    | ok found =>
        dsimp only [verdict, Except.mapError, bind, Except.bind]
        -- Without any token a value is missing too, and that is refused as the same kind.
        cases Token.ofText (normalize found.1) with
        | nil => rfl
        | cons token tokens =>
            dsimp only
            cases parseTokens found.1 .value 0 (token :: tokens) <;> rfl

theorem exists_clauses {tail : Text} (ends : Stops (· != '|') tail) :
    ∃ clauses, ∀ expression, '|' ∉ expression →
      splitLimits (expression ++ tail) =
        List.foldlM Limits.withClause {} clauses >>= fun limits => pure (expression, limits) := by
  cases tail with
  | nil =>
      refine ⟨[], fun expression bars => ?_⟩
      rw [List.append_nil, splitLimits, split_on_of_not_mem bars]
  | cons char rest =>
      have bar : char = '|' := by simpa using stops_cons.mp ends
      subst bar
      refine ⟨splitOn '|' rest, fun expression bars => ?_⟩
      rw [splitLimits, split_on_append bars]

theorem verdict_of_spaces {expression spaced tail : Text} (spaces : Spaces expression spaced)
    (single : normalize expression = expression) (bars : '|' ∉ expression)
    (ends : Stops (· != '|') tail) :
    verdict (parseExpression (spaced ++ tail)) = verdict (parseExpression (expression ++ tail)) := by
  have stops := stops_word_of_bar ends
  have searched : mentionsConfirmation (spaced ++ tail) = mentionsConfirmation (expression ++ tail) := by
    rw [mentions_confirmation_of_stops stops, mentions_confirmation_of_stops stops,
      spaces.mentions_confirmation]
  obtain ⟨clauses, cut⟩ := exists_clauses ends
  have tokens := spaces.respaced.verdict_parse_tokens expression spaced .value 0
  rw [verdict_parse_expression, verdict_parse_expression, searched, cut _ bars,
    cut _ (spaces.no_bar bars), verdict_bind, verdict_bind]
  split
  · rfl
  · cases List.foldlM Limits.withClause {} clauses with
    | error failure => rfl
    | ok limits =>
        change (verdict (parseTokens spaced .value 0 (Token.ofText (normalize spaced))) >>= _) =
          verdict (parseTokens expression .value 0 (Token.ofText (normalize expression))) >>= _
        rw [normalize_of_spaces spaces single, single, tokens]

/-- Blanks around the glyphs of an expression, in front of it and behind it do not count: the
components and the limits are the same, or the refusal is of the same kind. -/
theorem verdict_of_blanks {text spaced : Text} (single : normalize text = text)
    (spaces : Relation.ReflTransGen Spaces (core text) spaced) :
    verdict (parseExpression (spaced ++ behindCore text)) = verdict (parseExpression text) := by
  have kept : normalize spaced = spaced ∧ '|' ∉ spaced ∧
      verdict (parseExpression (spaced ++ behindCore text)) = verdict (parseExpression text) := by
    induction spaces with
    | refl => exact ⟨normalize_core single, no_bar_in_core text, by rw [core_append_behind]⟩
    | tail _ step ih =>
        obtain ⟨singleBefore, barsBefore, same⟩ := ih
        have barsAfter := step.no_bar barsBefore
        exact ⟨normalize_of_spaces step singleBefore, barsAfter,
          (verdict_of_spaces step singleBefore barsBefore (stops_behind_core text)).trans same⟩
  exact kept.2.2

theorem verdict_of_blanks_of_sum :
    normalize "2d6+3|min 4".toList = "2d6+3|min 4".toList ∧
      Relation.ReflTransGen Spaces (core "2d6+3|min 4".toList) "2d6 + 3".toList ∧
      verdict (parseExpression ("2d6 + 3".toList ++ behindCore "2d6+3|min 4".toList)) =
        verdict (parseExpression "2d6+3|min 4".toList) := by
  have single : normalize "2d6+3|min 4".toList = "2d6+3|min 4".toList := by decide +kernel
  have first : core "2d6+3|min 4".toList = ['2', 'd', '6'] ++ '+' :: ['3'] := by decide +kernel
  have last : "2d6 + 3".toList = ['2', 'd', '6', ' '] ++ '+' :: ([' '] ++ ['3']) := by decide +kernel
  have spaces : Relation.ReflTransGen Spaces (core "2d6+3|min 4".toList) "2d6 + 3".toList := by
    have before : Spaces (['2', 'd', '6'] ++ '+' :: ['3']) (['2', 'd', '6', ' '] ++ '+' :: ['3']) :=
      @Spaces.beforeGlyph [' '] '+' rfl rfl ['2', 'd', '6'] ['3']
    rw [first, last]
    exact .tail (.single before) (.behindGlyph rfl rfl _ _)
  exact ⟨single, spaces, verdict_of_blanks single spaces⟩

end TabletopDice
