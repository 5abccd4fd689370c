import TabletopDice.Proofs.Expression.Alphabet
import TabletopDice.Proofs.Text.Words

/-!
Where the components of an expression stand in it. Each value and each label is read
from a part, a longest run without a glyph, and the label of a value is the end of its
part. What is searched for in the whole text is searched for in each part.
-/

namespace TabletopDice

open Text

/-- The expression in front of the first limit. -/
def core (text : Text) : Text := text.takeWhile (· != '|')

def behindCore (text : Text) : Text := text.dropWhile (· != '|')

theorem head_split_on {separator : Char} {text part : Text} {parts : List Text}
    (split : splitOn separator text = part :: parts) : part = text.takeWhile (· != separator) := by
  induction text generalizing part parts with
  | nil =>
      cases split
      rfl
  | cons char rest ih =>
      rw [splitOn] at split
      by_cases same : char = separator
      · rw [if_pos same] at split
        cases split
        simp [same]
      · rw [if_neg same] at split
        cases inner : splitOn separator rest with
        | nil => exact absurd inner (splitOn_ne_nil separator rest)
        | cons first more =>
            rw [inner] at split
            cases split
            rw [ih inner, List.takeWhile_cons_of_pos (by simpa using same)]

theorem core_of_split_limits {text expression : Text} {limits : Limits}
    (cut : splitLimits text = .ok (expression, limits)) : expression = core text := by
  obtain ⟨clauses, split, -⟩ := split_limits_eq_ok.mp cut
  exact head_split_on split

theorem core_append_behind (text : Text) : core text ++ behindCore text = text :=
  List.takeWhile_append_dropWhile

theorem stops_behind_core (text : Text) : Stops (· != '|') (behindCore text) :=
  stops_drop_while _ _

theorem no_bar_in_core (text : Text) : '|' ∉ core text := by
  intro member
  have other := List.mem_takeWhile_imp member
  simp at other

theorem stops_word_of_bar {tail : Text} (ends : Stops (· != '|') tail) : Stops continuesWord tail := by
  intro char found
  have bar : char = '|' := by simpa using ends char found
  rw [bar]
  exact not_continues_word '|' (by decide)

namespace Token

theorem is_glyph_of_mem {text : Text} {char : Char} (member : glyph char ∈ ofText text) :
    isGlyph char = true := by
  induction text with
  | nil => cases member
  | cons first rest ih =>
      rw [ofText] at member
      split at member
      next isGlyph =>
        rcases List.mem_cons.mp member with same | later
        · cases same
          exact isGlyph
        · exact ih later
      next =>
        split at member
        next part tokens found =>
          rcases List.mem_cons.mp member with same | later
          · cases same
          · exact ih (found ▸ List.mem_cons_of_mem _ later)
        next =>
          rcases List.mem_cons.mp member with same | later
          · cases same
          · exact ih later

end Token

theorem not_continues_of_glyph {char : Char} (glyph : isGlyph char = true) :
    continuesWord char = false :=
  not_continues_word char (mem_glyphs glyph)

/-- No confirmation goes over the border of a token. -/
theorem mentions_confirmation_of_tokens {tokens : List Token}
    (glyphs : ∀ char, .glyph char ∈ tokens → isGlyph char = true)
    (alternates : Token.Alternates tokens) :
    mentionsConfirmation (tokens.flatMap Token.toText) =
      tokens.any fun token => mentionsConfirmation token.toText := by
  induction tokens with
  | nil => rfl
  | cons token tokens ih =>
      have behind := ih (fun char member => glyphs char (List.mem_cons_of_mem _ member))
        alternates.tail
      rw [List.flatMap_cons, List.any_cons, ← behind]
      cases token with
      | glyph char =>
          have plain := not_continues_of_glyph (glyphs char List.mem_cons_self)
          rw [Token.toText, List.singleton_append, mentions_confirmation_cons plain,
            mentions_confirmation_cons plain]
          rfl
      | run part =>
          apply mentions_confirmation_of_stops
          cases tokens with
          | nil => exact stops_nil _
          | cons next tokens =>
              cases next with
              | glyph char =>
                  exact stops_cons.mpr (not_continues_of_glyph (glyphs char (by simp)))
              | run other =>
                  exact absurd ⟨rfl, rfl⟩ (List.isChain_cons_cons.mp alternates).1

theorem mentions_confirmation_normalize (text : Text) :
    mentionsConfirmation (normalize text) = mentionsConfirmation text := by
  have kept {first second glyph : Char}
      (plain : ∀ char ∈ [first, second, glyph], continuesWord char = false) (text : Text) :
      mentionsConfirmation (replacePairs first second glyph text) = mentionsConfirmation text :=
    mentions_confirmation_replace_pairs plain [] text
  rw [normalize, kept (forall_not_of_any (by decide +kernel)),
    kept (forall_not_of_any (by decide +kernel)), kept (forall_not_of_any (by decide +kernel))]

/-- The part is a longest run of the expression without a glyph. -/
def IsPart (text part : Text) : Prop := .run part ∈ Token.ofText (normalize (core text))

theorem no_confirmation_in_part {text part : Text} (clean : mentionsConfirmation text = false)
    (isPart : IsPart text part) : mentionsConfirmation part = false := by
  have stops := stops_word_of_bar (stops_behind_core text)
  rw [← core_append_behind text, mentions_confirmation_of_stops stops, Bool.or_eq_false_iff] at clean
  have searched := mentions_confirmation_of_tokens
    (fun _ => Token.is_glyph_of_mem) (Token.alternates_of_text (normalize (core text)))
  rw [Token.toText_ofText, mentions_confirmation_normalize, clean.1] at searched
  exact Bool.eq_false_iff.mpr (List.any_eq_false.mp searched.symm _ isPart)

/-- What is made of a part: a value, or a label behind a group. -/
inductive MadeOf (expression part : Text) : Component → Prop
  | value {component : Component} (read : parseValue part expression = .ok component) :
      MadeOf expression part component
  | label (bare : isBareLabel part = true) (noDie : DieNotation.read? part = none) :
      MadeOf expression part (.label (trim part))

theorem exists_run_of_reads {expression : Text} {expected : Expected} {depth : Nat}
    {tokens : List Token} {row : List Component}
    (reads : Reads expression expected depth tokens row) :
    ∀ component ∈ row, component.isRun = true →
      ∃ part, .run part ∈ tokens ∧ MadeOf expression part component := by
  have later {tokens : List Token} {component : Component} (token : Token)
      (found : ∃ part, .run part ∈ tokens ∧ MadeOf expression part component) :
      ∃ part, .run part ∈ token :: tokens ∧ MadeOf expression part component := by
    obtain ⟨part, inside, made⟩ := found
    exact ⟨part, List.mem_cons_of_mem _ inside, made⟩
  induction reads with
  | finish => exact fun _ member => absurd member List.not_mem_nil
  | skip _ _ ih => exact fun component member isRun => later _ (ih component member isRun)
  | value read _ ih =>
      refine List.forall_mem_cons.mpr ⟨fun _ => ?_, ?_⟩
      · exact ⟨_, List.mem_cons_self, .value read⟩
      · exact fun component member isRun => later _ (ih component member isRun)
  | label bare noDie _ ih =>
      refine List.forall_mem_cons.mpr ⟨fun _ => ?_, ?_⟩
      · exact ⟨_, List.mem_cons_self, .label bare noDie⟩
      · exact fun component member isRun => later _ (ih component member isRun)
  | negation _ ih | openGroup _ ih | closeGroup _ ih | binary _ _ ih =>
      refine List.forall_mem_cons.mpr ⟨nofun, ?_⟩
      exact fun component member isRun => later _ (ih component member isRun)

theorem exists_part_of_parse_expression {text : Text} {row : List Component} {limits : Limits}
    (accepted : parseExpression text = .ok (row, limits)) {component : Component}
    (member : component ∈ row) (isRun : component.isRun = true) :
    ∃ part, IsPart text part ∧ MadeOf (core text) part component := by
  obtain ⟨-, expression, cut, -, parsed⟩ := parse_expression_eq_ok.mp accepted
  cases core_of_split_limits cut
  exact exists_run_of_reads (reads_of_parse_tokens parsed) component member isRun

theorem parse_value_cases {part expression : Text} {component : Component}
    (read : parseValue part expression = .ok component) :
    mentionsLimit part = false ∧
      ((∃ pieces group, DieNotation.read? part = some pieces ∧ component = .die group ∧
          group.label = pieces.label) ∨
        ∃ value label, DieNotation.read? part = none ∧ readConstant? part = some (value, label) ∧
          component = .constant value label) := by
  cases accepted_of_parse_value read with
  | die found made =>
      obtain ⟨silent, _, -, -, _, -, -, _, -, _, -, _, -, rfl⟩ := to_group_eq_ok.mp made
      exact ⟨Bool.eq_false_iff.mpr silent, .inl ⟨_, _, found, rfl, rfl⟩⟩
  | constant noDie found silent => exact ⟨silent, .inr ⟨_, _, noDie, found, rfl⟩⟩

/-- The label of a value is the end of its part, up to blanks. -/
theorem exists_place_of_label {part expression : Text} {component : Component}
    (read : parseValue part expression = .ok component) :
    ∃ front behind, part = front ++ (component.name ++ behind) ∧ allBlank behind = true := by
  have found : ∃ rest, rest <:+ part ∧ component.name = trim rest := by
    obtain ⟨-, ⟨pieces, group, found, rfl, same⟩ | ⟨value, label, -, found, rfl⟩⟩ :=
      parse_value_cases read
    · obtain ⟨rest, taken, label⟩ := DieNotation.takes_read found
      exact ⟨rest, taken.suffix, same.trans label⟩
    · obtain ⟨rest, taken, label⟩ := takes_read_constant found
      exact ⟨rest, taken.suffix, label⟩
  obtain ⟨rest, ⟨front, rfl⟩, label⟩ := found
  obtain ⟨before, behind, whole, -, blank⟩ := exists_blanks rest
  refine ⟨front ++ before, behind, ?_, blank⟩
  rw [label, List.append_assoc, ← List.append_assoc before, ← whole]

end TabletopDice
