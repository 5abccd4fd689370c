import TabletopDice.Text.Quoted

/-!
Lists in Tcl notation. Elements are separated by blanks; one in braces, which
nest, or in double quotes may hold blanks itself. A backslash makes the next
character literal, and stays in front of it unless the character is special.
-/

namespace TabletopDice.TclList

inductive Fault
  /-- The end of an element in braces or quotes is not followed by a separator. -/
  | trailingText (element : Text) (next : Char)
  | unopenedBrace (element : Text)
  | unclosedBrace
  | unclosedQuote
  | danglingBackslash
  deriving DecidableEq, Repr

def Fault.message : Fault → String
  | trailingText element next =>
      s!"list element in braces ({Text.quoted element}) followed by {Text.quoted [next]} " ++
        "instead of space"
  | unopenedBrace element => s!"too many right braces after {Text.quoted element}"
  | unclosedBrace => "unterminated brace at end of string"
  | unclosedQuote => "unterminated quote at end of string"
  | danglingBackslash => "trailing backslash at end of string"

inductive Position
  | between
  | bare
  | braced
  | quoted
  /-- Behind the end of an element in braces or quotes. -/
  | closed
  deriving DecidableEq, Repr

structure Reading where
  /-- The complete elements, last first. -/
  elements : List Text := []
  /-- The characters of the current element, last first. -/
  current : Text := []
  depth : Nat := 0
  position : Position := .between
  /-- The character before was a backslash. -/
  escaped : Bool := false
  deriving DecidableEq, Repr

def isSeparator (char : Char) : Bool :=
  char == ' ' || (0x09 ≤ char.toNat && char.toNat ≤ 0x0D)

/-- Characters that lose their backslash. -/
def isSpecial (char : Char) : Bool :=
  char == '\x7b' || char == '\x7d' || char == '\\' || char == '"' || char == ' ' || char == '#'

namespace Reading

def element (reading : Reading) : Text := reading.current.reverse

def append (reading : Reading) (char : Char) : Reading :=
  { reading with
    current := char :: reading.current
    position := if reading.position = .between then .bare else reading.position }

/-- The character behind a backslash; it does not start an element. -/
def literal (reading : Reading) (char : Char) : Reading :=
  { reading with
    current :=
      if isSpecial char then char :: reading.current else char :: '\\' :: reading.current
    escaped := false }

def separate (reading : Reading) : Reading :=
  if reading.position = .between then reading
  else { reading with
    elements := reading.element :: reading.elements, current := [], position := .between }

def step (reading : Reading) (char : Char) : Except Fault Reading :=
  if reading.escaped then return reading.literal char
  else if char = '\\' then return { reading with escaped := true }
  else if isSeparator char && reading.position != .braced && reading.position != .quoted then
    return reading.separate
  else if reading.position = .closed then throw (.trailingText reading.element char)
  else if char = '"' then
    match reading.position with
    | .between => return { reading with position := .quoted }
    | .quoted => return { reading with position := .closed }
    | _ => return reading.append char
  else if char = '\x7b' then
    let deeper := { reading with depth := reading.depth + 1 }
    if reading.position = .between then return { deeper with position := .braced }
    else return deeper.append char
  else if char = '\x7d' then
    match reading.depth with
    | 0 => throw (.unopenedBrace reading.element)
    | depth + 1 =>
        if depth = 0 ∧ reading.position = .braced then
          return { reading with depth := 0, position := .closed }
        else return { reading with depth }.append char
  else return reading.append char

def finish (reading : Reading) : Except Fault (List Text) :=
  if reading.depth ≠ 0 then throw .unclosedBrace
  else if reading.position = .quoted then throw .unclosedQuote
  else if reading.escaped then throw .danglingBackslash
  else return reading.separate.elements.reverse

end Reading

def parse (text : Text) : Except Fault (List Text) := do
  (← text.foldlM Reading.step {}).finish

end TabletopDice.TclList
