import TabletopDice.Expression.Operator

/-!
The tokens of an expression: operator glyphs and parentheses, each alone, and the
longest runs of other characters between them. Operators of two characters are
first replaced by their glyphs.
-/

namespace TabletopDice

/-- `//`, `>=` and `<=` as single glyphs. -/
def normalize (text : Text) : Text :=
  Text.replacePairs '<' '=' '≤' (Text.replacePairs '>' '=' '≥' (Text.replacePairs '/' '/' '÷' text))

inductive Token
  | glyph (glyph : Char)
  | run (text : Text)
  deriving DecidableEq, Repr

/-- The characters that are tokens of their own. -/
def isGlyph (char : Char) : Bool :=
  char == '(' || char == ')' || (Operator.ofGlyph? char).isSome

namespace Token

def ofText : Text → List Token
  | [] => []
  | char :: rest =>
      if isGlyph char then glyph char :: ofText rest
      else match ofText rest with
        | run text :: tokens => run (char :: text) :: tokens
        | tokens => run [char] :: tokens

def toText : Token → Text
  | glyph char => [char]
  | run text => text

theorem toText_ofText (text : Text) : (ofText text).flatMap toText = text := by
  induction text with
  | nil => rfl
  | cons char rest ih =>
      simp only [ofText]
      split
      · simp [toText, ih]
      · split
        next found => rw [found] at ih; simpa [toText] using ih
        next => simp [toText, ih]

end Token

end TabletopDice
