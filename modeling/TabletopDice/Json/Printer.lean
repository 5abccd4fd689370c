import TabletopDice.Json.Basic
import TabletopDice.Number.Shortest
import TabletopDice.Text.Quoted

/-!
JSON values as text: on one line, with a space behind every comma and colon, or as
an object with one indented member a line. Quotes, backslashes and control
characters are escaped; every other character stands for itself.
-/

namespace TabletopDice.Json

open TabletopDice.Text

def escapeChar (char : Char) : Text :=
  if char = '"' ∨ char = '\\' then ['\\', char]
  else if char = '\n' then ['\\', 'n']
  else if char = '\r' then ['\\', 'r']
  else if char = '\t' then ['\\', 't']
  else if char = '\x08' then ['\\', 'b']
  else if char = '\x0c' then ['\\', 'f']
  else if char.toNat < 0x20 then '\\' :: 'u' :: hexadecimal 4 char.toNat
  else [char]

def printString (text : Text) : Text := '"' :: text.flatMap escapeChar ++ ['"']

/-- A number, with words for those that are not finite. -/
def printNumber : Double → Text
  | .finite negative units => Double.toShortestText (.finite negative units)
  | .infinite negative => (if negative then "-Infinity" else "Infinity").toList
  | .notANumber _ => "NaN".toList

mutual

def print : Json → Text
  | null => "null".toList
  | bool value => (if value then "true" else "false").toList
  | integer value => ofInt value
  | number value => printNumber value
  | string value => printString value
  | brokenString => printString []
  | array items => '[' :: join [',', ' '] (printItems items) ++ [']']
  | object members => '\x7b' :: join [',', ' '] (printMembers members) ++ ['\x7d']

def printItems : List Json → List Text
  | [] => []
  | item :: items => item.print :: printItems items

def printMembers : List (Text × Json) → List Text
  | [] => []
  | (name, value) :: members =>
      (printString name ++ ':' :: ' ' :: value.print) :: printMembers members

end

/-- A member on a line of its own, indented by four spaces. -/
def printIndentedMember (member : Text × Json) : Text :=
  "\n    ".toList ++ printString member.1 ++ ':' :: ' ' :: member.2.print

/-- An object with one member a line; the values stay on the line of their name. -/
def printIndented (members : List (Text × Json)) : Text :=
  if members.isEmpty then ['\x7b', '\x7d']
  else '\x7b' :: join [','] (members.map printIndentedMember) ++ ['\n', '\x7d']

end TabletopDice.Json
