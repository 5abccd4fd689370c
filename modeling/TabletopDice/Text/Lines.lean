import TabletopDice.Text.Basic

/-!
Line structure. A line ends at a line feed, a carriage return or the two
together, and also at the vertical tab, the form feed, three of the information
separators and the Unicode line breaks.
-/

namespace TabletopDice.Text

def isLineBreak (char : Char) : Bool :=
  let code := char.toNat
  (0x0A ≤ code && code ≤ 0x0D) || (0x1C ≤ code && code ≤ 0x1E) || code == 0x85
    || code == 0x2028 || code == 0x2029

/-- The lines of a text without their breaks. A break at the very end closes the last line
and opens none. -/
def splitLines : Text → List Text
  | [] => []
  | '\r' :: '\n' :: rest => [] :: splitLines rest
  | char :: rest =>
      if isLineBreak char then [] :: splitLines rest
      else match splitLines rest with
        | [] => [[char]]
        | line :: lines => (char :: line) :: lines

/-- Every carriage return, alone or with the line feed after it, as one line feed. -/
def unifyLineFeeds : Text → Text
  | [] => []
  | '\r' :: '\n' :: rest => '\n' :: unifyLineFeeds rest
  | char :: rest => (if char = '\r' then '\n' else char) :: unifyLineFeeds rest

/-- The lines of a text cut at line feeds only. -/
def splitLineFeeds (text : Text) : List Text :=
  let parts := splitOn '\n' text
  if parts.getLast? = some [] then parts.dropLast else parts

end TabletopDice.Text
