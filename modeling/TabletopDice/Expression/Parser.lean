import TabletopDice.Expression.Limits
import TabletopDice.Expression.Term
import TabletopDice.Expression.Token

/-!
From the text of an expression to its components. Tokens are taken from left to
right; at each place either a value is expected, where a plus is skipped and a
minus negates, or an operator is. Groups have to close before the end.
-/

namespace TabletopDice

open Text

inductive Expected
  | value
  | operator
  deriving DecidableEq, Repr

/-- The components that the tokens describe, inside `depth` open groups. `expression` is the
whole text, for the messages. -/
def parseTokens (expression : Text) : Expected → Nat → List Token →
    Except Failure (List Component)
  | .value, _, [] => refuse (.valueMissing expression)
  | .operator, depth, [] =>
      if depth = 0 then return [] else refuse (.groupNotClosed (some expression))
  | .value, depth, .glyph char :: tokens =>
      if char = '+' then parseTokens expression .value depth tokens
      else if char = '-' then
        return .operator .negate :: (← parseTokens expression .value depth tokens)
      else if char = '(' then
        return .openGroup :: (← parseTokens expression .value (depth + 1) tokens)
      else refuse (.operatorUnexpected char)
  | .operator, depth, .glyph char :: tokens =>
      if char = ')' then
        match depth with
        | 0 => refuse (.groupNotOpened (some expression))
        | depth + 1 => return .closeGroup :: (← parseTokens expression .operator depth tokens)
      else match Operator.ofGlyph? char with
        | some op => return .operator op :: (← parseTokens expression .value depth tokens)
        | none => refuse .groupAfterValue
  | .value, depth, .run part :: tokens =>
      if allBlank part then parseTokens expression .value depth tokens
      else do
        let component ← parseValue part expression
        return component :: (← parseTokens expression .operator depth tokens)
  | .operator, depth, .run part :: tokens =>
      if allBlank part then parseTokens expression .operator depth tokens
      else if isBareLabel part then
        if (DieNotation.read? part).isSome then refuse (.dieAfterGroup (trim part))
        else return .label (trim part) :: (← parseTokens expression .operator depth tokens)
      else refuse (.operatorExpected (trim part))

def parseExpression (text : Text) : Except Failure (List Component × Limits) := do
  if mentionsConfirmation text then refuse .confirmationInExpression
  let (expression, limits) ← splitLimits text
  match Token.ofText (normalize expression) with
  | [] => refuse (.noExpression expression)
  | tokens => return (← parseTokens expression .value 0 tokens, limits)

end TabletopDice
