import TabletopDice.Expression.Parser
import TabletopDice.Proofs.Expression.Grammar
import TabletopDice.Proofs.Computation

/-!
What the parser does at each token, as a relation between tokens and components.
Every accepting run of the parser is such a reading, so facts about accepted
expressions follow by induction on the reading.
-/

namespace TabletopDice

open Text

theorem guard_eq_ok {Value : Type} {condition : Prop} [Decidable condition] {error : DiceError}
    {next : Unit → Except Failure Value} {value : Value} :
    (if condition then refuse error >>= next else next ()) = .ok value ↔
      ¬condition ∧ next () = .ok value := by
  by_cases holds : condition
  · constructor
    · intro succeeded
      rw [if_pos holds] at succeeded
      cases succeeded
    · intro both
      exact absurd holds both.1
  · rw [if_neg holds]
    exact ⟨fun succeeded => ⟨holds, succeeded⟩, fun both => both.2⟩

namespace Token

def isRun : Token → Bool
  | run _ => true
  | glyph _ => false

def Alternates (tokens : List Token) : Prop :=
  tokens.IsChain fun first second => ¬(first.isRun = true ∧ second.isRun = true)

/-- Nothing is made of the token: a plus in front of a value, or blanks. -/
def Skipped : Expected → Token → Prop
  | .value, glyph char => char = '+'
  | .operator, glyph _ => False
  | _, run part => allBlank part = true

theorem alternates_of_text (text : Text) : Alternates (ofText text) := by
  induction text with
  | nil => exact List.isChain_nil
  | cons char rest ih =>
      simp only [ofText]
      split
      next =>
        unfold Alternates
        rw [List.isChain_cons]
        exact ⟨fun next _ both => Bool.noConfusion both.1, ih⟩
      next =>
        split
        next text tokens found =>
          rw [found] at ih
          unfold Alternates at ih ⊢
          rw [List.isChain_cons] at ih ⊢
          exact ih
        next notRun =>
          unfold Alternates
          rw [List.isChain_cons]
          refine ⟨?_, ih⟩
          intro next first both
          cases next with
          | glyph glyph => exact Bool.noConfusion both.2
          | run text =>
              obtain ⟨tokens, found⟩ := List.head?_eq_some_iff.mp first
              exact notRun text tokens found

end Token

/-- The components that the parser makes of tokens, step by step. -/
inductive Reads (expression : Text) : Expected → Nat → List Token → List Component → Prop
  | finish : Reads expression .operator 0 [] []
  | skip {expected : Expected} {depth : Nat} {tokens : List Token} {row : List Component}
      {token : Token} (skipped : token.Skipped expected)
      (rest : Reads expression expected depth tokens row) :
      Reads expression expected depth (token :: tokens) row
  | negation {depth : Nat} {tokens : List Token} {row : List Component}
      (rest : Reads expression .value depth tokens row) :
      Reads expression .value depth (.glyph '-' :: tokens) (.operator .negate :: row)
  | openGroup {depth : Nat} {tokens : List Token} {row : List Component}
      (rest : Reads expression .value (depth + 1) tokens row) :
      Reads expression .value depth (.glyph '(' :: tokens) (.openGroup :: row)
  | value {depth : Nat} {tokens : List Token} {row : List Component} {part : Text}
      {component : Component} (read : parseValue part expression = .ok component)
      (rest : Reads expression .operator depth tokens row) :
      Reads expression .value depth (.run part :: tokens) (component :: row)
  | closeGroup {depth : Nat} {tokens : List Token} {row : List Component}
      (rest : Reads expression .operator depth tokens row) :
      Reads expression .operator (depth + 1) (.glyph ')' :: tokens) (.closeGroup :: row)
  | binary {depth : Nat} {tokens : List Token} {row : List Component} {char : Char}
      {op : Operator} (known : Operator.ofGlyph? char = some op)
      (rest : Reads expression .value depth tokens row) :
      Reads expression .operator depth (.glyph char :: tokens) (.operator op :: row)
  | label {depth : Nat} {tokens : List Token} {row : List Component} {part : Text}
      (bare : isBareLabel part = true) (noDie : DieNotation.read? part = none)
      (rest : Reads expression .operator depth tokens row) :
      Reads expression .operator depth (.run part :: tokens) (.label (trim part) :: row)

theorem reads_of_parse_tokens {expression : Text} {expected : Expected} {depth : Nat}
    {tokens : List Token} {row : List Component}
    (parsed : parseTokens expression expected depth tokens = .ok row) :
    Reads expression expected depth tokens row := by
  induction tokens generalizing expected depth row with
  | nil =>
      cases expected with
      | value => cases parsed
      | operator =>
          simp only [parseTokens] at parsed
          split at parsed
          next closed =>
            cases parsed
            subst closed
            exact .finish
          next => cases parsed
  | cons token tokens ih =>
      match expected, token with
      | .value, .glyph char =>
          simp only [parseTokens] at parsed
          split at parsed
          next plus => exact .skip plus (ih parsed)
          next =>
            split at parsed
            next minus =>
              subst minus
              simp only [bind_eq_ok, pure_eq_ok] at parsed
              obtain ⟨rest, read, rfl⟩ := parsed
              exact .negation (ih read)
            next =>
              split at parsed
              next opened =>
                subst opened
                simp only [bind_eq_ok, pure_eq_ok] at parsed
                obtain ⟨rest, read, rfl⟩ := parsed
                exact .openGroup (ih read)
              next => cases parsed
      | .operator, .glyph char =>
          simp only [parseTokens] at parsed
          split at parsed
          next closed =>
            subst closed
            match depth with
            | 0 => cases parsed
            | depth + 1 =>
                simp only [bind_eq_ok, pure_eq_ok] at parsed
                obtain ⟨rest, read, rfl⟩ := parsed
                exact .closeGroup (ih read)
          next =>
            split at parsed
            next op known =>
              simp only [bind_eq_ok, pure_eq_ok] at parsed
              obtain ⟨rest, read, rfl⟩ := parsed
              exact .binary known (ih read)
            next => cases parsed
      | .value, .run part =>
          simp only [parseTokens] at parsed
          split at parsed
          next blank => exact .skip blank (ih parsed)
          next =>
            simp only [bind_eq_ok, pure_eq_ok] at parsed
            obtain ⟨component, value, rest, read, rfl⟩ := parsed
            exact .value value (ih read)
      | .operator, .run part =>
          simp only [parseTokens] at parsed
          split at parsed
          next blank => exact .skip blank (ih parsed)
          next =>
            split at parsed
            next bare =>
              split at parsed
              next => cases parsed
              next noDie =>
                simp only [bind_eq_ok, pure_eq_ok] at parsed
                obtain ⟨rest, read, rfl⟩ := parsed
                exact .label bare (Option.not_isSome_iff_eq_none.mp noDie) (ih read)
            next => cases parsed

end TabletopDice
