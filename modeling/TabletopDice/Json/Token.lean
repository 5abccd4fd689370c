import TabletopDice.Json.Basic
import TabletopDice.Number.DecimalText

/-!
The tokens of a JSON text: the marks of its structure, strings, and words, which
are numbers or literals. White space between tokens is dropped.
-/

namespace TabletopDice.Json

open TabletopDice.Text

inductive Token
  | openBrace
  | closeBrace
  | openBracket
  | closeBracket
  | colon
  | comma
  /-- The text between the quotes as it stands, with its escapes. -/
  | string (written : Text)
  /-- A string that is not closed before the text ends. -/
  | openString
  | word (text : Text)
  deriving DecidableEq, Repr

def isSpace (char : Char) : Bool :=
  char == ' ' || char == '\t' || char == '\n' || char == '\r'

def structure? : Char → Option Token
  | '\x7b' => some .openBrace
  | '\x7d' => some .closeBrace
  | '[' => some .openBracket
  | ']' => some .closeBracket
  | ':' => some .colon
  | ',' => some .comma
  | _ => none

/-- Where the lexer stands. What was read of the current token is kept last character first. -/
inductive Lexing
  | between
  | word (read : Text)
  | string (read : Text)
  /-- Directly behind a backslash in a string. -/
  | escape (read : Text)

namespace Token

/-- The tokens in front of `rest`, when the lexer stands in a word. -/
def endWord (read : Text) (rest : List Token) : List Token := word read.reverse :: rest

def lex : Lexing → Text → List Token
  | .between, [] => []
  | .word read, [] => endWord read []
  | .string _, [] => [openString]
  | .escape _, [] => [openString]
  | .escape read, char :: rest => lex (.string (char :: read)) rest
  | .string read, char :: rest =>
      if char = '"' then string read.reverse :: lex .between rest
      else if char = '\\' then lex (.escape (char :: read)) rest
      else lex (.string (char :: read)) rest
  | .between, char :: rest =>
      if isSpace char then lex .between rest
      else if char = '"' then lex (.string []) rest
      else match structure? char with
        | some token => token :: lex .between rest
        | none => lex (.word [char]) rest
  | .word read, char :: rest =>
      if isSpace char then endWord read (lex .between rest)
      else if char = '"' then endWord read (lex (.string []) rest)
      else match structure? char with
        | some token => endWord read (token :: lex .between rest)
        | none => lex (.word (char :: read)) rest

def ofText (text : Text) : List Token := lex .between text

end Token

def hexValue? (char : Char) : Option Nat :=
  if char.isDigit then some (char.toNat - 0x30)
  else if 'a' ≤ char ∧ char ≤ 'f' then some (char.toNat - 0x57)
  else if 'A' ≤ char ∧ char ≤ 'F' then some (char.toNat - 0x37)
  else none

def shortEscape? : Char → Option Char
  | '"' => some '"'
  | '\\' => some '\\'
  | '/' => some '/'
  | 'b' => some '\x08'
  | 'f' => some '\x0c'
  | 'n' => some '\n'
  | 'r' => some '\r'
  | 't' => some '\t'
  | _ => none

/-- The code units and code points that a written string stands for; control characters have
to be escaped. -/
def unescape : Text → Option (List Nat)
  | [] => some []
  | '\\' :: 'u' :: first :: second :: third :: fourth :: rest => do
      let unit := ((← hexValue? first) * 0x1000 + (← hexValue? second) * 0x100 +
        (← hexValue? third) * 0x10 + (← hexValue? fourth))
      return unit :: (← unescape rest)
  | '\\' :: letter :: rest => do
      return (← shortEscape? letter).toNat :: (← unescape rest)
  | char :: rest =>
      if char = '\\' ∨ char.toNat < 0x20 then none
      else (unescape rest).map (char.toNat :: ·)

def isHighSurrogate (unit : Nat) : Bool := 0xD800 ≤ unit && unit < 0xDC00

def isLowSurrogate (unit : Nat) : Bool := 0xDC00 ≤ unit && unit < 0xE000

def pairChar (high low : Nat) : Char :=
  Char.ofNat (0x10000 + (high - 0xD800) * 0x400 + (low - 0xDC00))

/-- The text of the codes, with surrogate pairs joined, unless half of one stands alone. -/
def joinPairs : List Nat → Option Text
  | [] => some []
  | high :: rest =>
      if isHighSurrogate high then
        match rest with
        | low :: more =>
            if isLowSurrogate low then (joinPairs more).map (pairChar high low :: ·) else none
        | [] => none
      else if isLowSurrogate high then none
      else (joinPairs rest).map (Char.ofNat high :: ·)

def ofWritten? (written : Text) : Option Json :=
  (unescape written).map fun codes => (joinPairs codes).elim brokenString string

def wholePart : Text → Text
  | '-' :: rest => rest.takeWhile Char.isDigit
  | word => word.takeWhile Char.isDigit

def isTooLong (word : Text) : Bool :=
  maxDigits < (wholePart word).length && (wholePart word).head? != some '0'

def isDecimal (word : Text) : Bool :=
  let unsigned := if word.head? = some '-' then word.drop 1 else word
  match unsigned.dropWhile Char.isDigit with
  | '.' :: digit :: _ => digit.isDigit
  | mark :: rest =>
      (mark == 'e' || mark == 'E') && ((splitSign rest).2.head?.elim false Char.isDigit)
  | [] => false

/-- A word that is a number: an optional minus, a whole part without needless zeros, and
optionally a fraction and an exponent. -/
def numberOfWord? (word : Text) : Option Json := do
  let (negative, rest) := match word with
    | '-' :: rest => (true, rest)
    | rest => (false, rest)
  let (whole, rest) := (rest.takeWhile Char.isDigit, rest.dropWhile Char.isDigit)
  if whole.isEmpty || (whole.length ≠ 1 && whole.head? = some '0') then none
  else if rest.isEmpty then
    some (integer (if negative then -(digitsValue whole : Int) else digitsValue whole))
  else
    let (fraction, rest) ← match rest with
      | '.' :: rest =>
          let digits := rest.takeWhile Char.isDigit
          if digits.isEmpty then none else some (digits, rest.dropWhile Char.isDigit)
      | rest => some ([], rest)
    if !rest.all (fun char => char.toNat < 0x80) then none
    else
      let exponent ← Double.readExponent? rest
      some (number (Double.ofScientific negative (digitsValue (whole ++ fraction))
        (exponent - fraction.length)))

/-- The value of a word. Besides numbers and the three literals the words for the numbers that
are not finite are known. -/
def ofWord? (word : Text) : Option Json :=
  match String.ofList word with
  | "null" => some null
  | "true" => some (bool true)
  | "false" => some (bool false)
  | "NaN" => some (number (.notANumber false))
  | "Infinity" => some (number (.infinite false))
  | "-Infinity" => some (number (.infinite true))
  | _ => numberOfWord? word

end TabletopDice.Json
