import TabletopDice.Proofs.Expression.LimitOrder
import TabletopDice.Proofs.Expression.Spacing

/-!
Blanks around a whole expression, limits included. In front they stay with what the first
bar ends, and behind with the last limit or, without any, with the expression; either way
the text stands for the same dice, or is refused for a reason of the same kind. So dice
depend on the trimmed text alone.
-/

namespace TabletopDice

open Text

section Cuts

variable {separator : Char} {text : Text}

theorem split_on_of_lead {lead part : Text} {parts : List Text} (absent : separator ∉ lead)
    (cut : splitOn separator text = part :: parts) :
    splitOn separator (lead ++ text) = (lead ++ part) :: parts := by
  induction lead with
  | nil => exact cut
  | cons char lead ih =>
      obtain ⟨other, behind⟩ := List.ne_and_not_mem_of_not_mem_cons absent
      rw [List.cons_append, splitOn, if_neg (Ne.symm other), ih behind]
      rfl

theorem exists_last_of_split_on {tail : Text} (absent : separator ∉ tail) (text : Text) :
    ∃ parts last, splitOn separator text = parts ++ [last] ∧
      splitOn separator (text ++ tail) = parts ++ [last ++ tail] := by
  induction text with
  | nil => exact ⟨[], [], rfl, split_on_of_not_mem absent⟩
  | cons char text ih =>
      obtain ⟨parts, last, cut, longer⟩ := ih
      rw [List.cons_append, splitOn, splitOn, cut, longer]
      by_cases same : char = separator
      · exact ⟨[] :: parts, last, if_pos same, if_pos same⟩
      · rw [if_neg same, if_neg same]
        cases parts with
        | nil => exact ⟨[], char :: last, rfl, rfl⟩
        | cons part parts => exact ⟨(char :: part) :: parts, last, rfl, rfl⟩

end Cuts

section Blanks

variable {blanks : Text} (blank : allBlank blanks = true)

include blank

theorem not_mem_of_blanks {char : Char} (visible : isBlank char = false) : char ∉ blanks :=
  fun member => Bool.eq_false_iff.mp visible (List.all_eq_true.mp blank char member)

theorem replace_pairs_append_blanks {second : Char} (visible : isBlank second = false)
    (first glyph : Char) (text : Text) :
    replacePairs first second glyph (text ++ blanks) =
      replacePairs first second glyph text ++ blanks := by
  have absent := not_mem_of_blanks blank visible
  have stops : Stops (· == second) blanks := by
    intro char found
    apply beq_eq_false_iff_ne.mpr
    rintro rfl
    exact absent (List.mem_of_mem_head? found)
  rw [replace_pairs_append stops, replace_pairs_of_chain glyph (chain_of_not_mem (.inr absent))]

theorem normalize_append_blanks (text : Text) :
    normalize (text ++ blanks) = normalize text ++ blanks := by
  rw [normalize, replace_pairs_append_blanks blank (by decide),
    replace_pairs_append_blanks blank (by decide), replace_pairs_append_blanks blank (by decide),
    normalize]

theorem normalize_blanks_append (text : Text) :
    normalize (blanks ++ text) = blanks ++ normalize text := by
  rw [normalize, replace_pairs_append_of_not_mem (not_mem_of_blanks blank (by decide)),
    replace_pairs_append_of_not_mem (not_mem_of_blanks blank (by decide)),
    replace_pairs_append_of_not_mem (not_mem_of_blanks blank (by decide)), normalize]

theorem split_limits_blanks_append (text : Text) :
    splitLimits (blanks ++ text) =
      (splitLimits text).map fun (expression, limits) => (blanks ++ expression, limits) := by
  obtain ⟨expression, clauses, cut⟩ := List.exists_cons_of_ne_nil (splitOn_ne_nil '|' text)
  rw [splitLimits, splitLimits, cut, split_on_of_lead (not_mem_of_blanks blank (by decide)) cut]
  dsimp only
  cases clauses.foldlM Limits.withClause {} <;> rfl

/-- The blanks are left to the expression or, behind limits, to none. -/
theorem exists_split_limits_append (text : Text) :
    ∃ more, allBlank more = true ∧ splitLimits (text ++ blanks) =
      (splitLimits text).map fun (expression, limits) => (expression ++ more, limits) := by
  obtain ⟨parts, last, cut, longer⟩ :=
    exists_last_of_split_on (not_mem_of_blanks blank (by decide : isBlank '|' = false)) text
  rw [splitLimits, splitLimits, cut, longer]
  cases parts with
  | nil => exact ⟨blanks, blank, rfl⟩
  | cons expression clauses =>
      refine ⟨[], rfl, ?_⟩
      have trimmed : (clauses ++ [last ++ blanks]).foldlM Limits.withClause {} =
          (clauses ++ [last]).foldlM Limits.withClause {} := by
        rw [← Limits.foldlM_trim_right, ← Limits.foldlM_trim_right {} (clauses ++ [last]),
          List.map_append, List.map_append, List.map_singleton, List.map_singleton,
          trim_right_append_blanks blank]
      rw [List.cons_append, List.cons_append]
      dsimp only
      rw [trimmed]
      cases (clauses ++ [last]).foldlM Limits.withClause {} with
      | error failure => rfl
      | ok limits =>
          change Except.ok (expression, limits) = Except.ok (expression ++ [], limits)
          rw [List.append_nil]

end Blanks

/-- With the same limits, what matters of the expressions in front is how they fall into tokens. -/
theorem verdict_of_respaced {text other : Text} {spread : Text → Text}
    (searched : mentionsConfirmation other = mentionsConfirmation text)
    (cut : splitLimits other =
      (splitLimits text).map fun (expression, limits) => (spread expression, limits))
    (respaced : ∀ expression, Respaced (Token.ofText (normalize expression))
      (Token.ofText (normalize (spread expression)))) :
    verdict (parseExpression other) = verdict (parseExpression text) := by
  rw [verdict_parse_expression, verdict_parse_expression, searched, cut]
  cases splitLimits text with
  | error failure => rfl
  | ok found =>
      obtain ⟨expression, limits⟩ := found
      have tokens :=
        (respaced expression).verdict_parse_tokens expression (spread expression) .value 0
      change (if _ then _ else verdict (parseTokens (spread expression) .value 0
          (Token.ofText (normalize (spread expression)))) >>= _) =
        if _ then _ else verdict (parseTokens expression .value 0
          (Token.ofText (normalize expression))) >>= _
      rw [tokens]

theorem verdict_parse_expression_of_pads {part padded : Text} (pads : Pads part padded) :
    verdict (parseExpression padded) = verdict (parseExpression part) := by
  obtain ⟨before, behind, rfl, blankBefore, blankBehind⟩ := pads
  obtain ⟨more, blankMore, cut⟩ := exists_split_limits_append blankBehind part
  have front : verdict (parseExpression (before ++ (part ++ behind))) =
      verdict (parseExpression (part ++ behind)) := by
    refine @verdict_of_respaced _ _ (before ++ ·) (Spaces.front blankBefore _).mentions_confirmation
      (split_limits_blanks_append blankBefore _) fun expression => ?_
    rw [normalize_blanks_append blankBefore]
    exact Token.respaced_front blankBefore _
  have back : verdict (parseExpression (part ++ behind)) = verdict (parseExpression part) := by
    refine @verdict_of_respaced part _ (· ++ more)
      (Spaces.behind blankBehind _).mentions_confirmation cut fun expression => ?_
    rw [normalize_append_blanks blankMore]
    exact Token.respaced_behind blankMore _
  exact front.trans back

theorem verdict_dice_of_pads {part padded : Text} (pads : Pads part padded) :
    verdict (Dice.parse padded) = verdict (Dice.parse part) := by
  rw [Dice.parse, Dice.parse, pads.all_blank]
  split
  · rfl
  · rw [verdict_bind, verdict_bind, verdict_parse_expression_of_pads pads]

theorem pads_trim (text : Text) : Pads (trim text) text := by
  obtain ⟨before, behind, whole, blankBefore, blankBehind⟩ := exists_blanks text
  exact ⟨before, behind, by rw [← List.append_assoc]; exact whole, blankBefore, blankBehind⟩

theorem Pads.replace_pairs {part padded : Text} (pads : Pads part padded) {first second : Char}
    (visibleFirst : isBlank first = false) (visibleSecond : isBlank second = false) (glyph : Char) :
    Pads (replacePairs first second glyph part) (replacePairs first second glyph padded) := by
  obtain ⟨before, behind, rfl, blankBefore, blankBehind⟩ := pads
  refine ⟨before, behind, ?_, blankBefore, blankBehind⟩
  rw [replace_pairs_append_of_not_mem (not_mem_of_blanks blankBefore visibleFirst),
    replace_pairs_append_blanks blankBehind visibleSecond]

end TabletopDice
