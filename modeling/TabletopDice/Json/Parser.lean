import TabletopDice.Json.Token

/-!
From the tokens of a JSON text to its value. The parser goes through the tokens
once and keeps the containers that are still open, the innermost first. The first
token that cannot be taken ends the reading.
-/

namespace TabletopDice.Json

inductive Fault
  | malformed
  /-- A number is too long, or containers stand too deep in one another. -/
  | beyondBounds
  deriving DecidableEq, Repr

/-- How far a reader goes. Whole numbers have a bounded number of digits for every reader. -/
structure Bounds where
  /-- The most containers that may stand around a value. -/
  depth : Nat
  /-- Numbers with a fraction or an exponent may have more digits in front. -/
  longDecimals : Bool := false
  deriving DecidableEq, Repr

def Bounds.excludes (bounds : Bounds) (word : Text) : Bool :=
  isTooLong word && !(bounds.longDecimals && isDecimal word)

/-- A container that is still open. What it holds so far is kept last first. -/
inductive Frame
  | array (items : List Json)
  | object (members : List (Text × Json))
  /-- An object in which the value of a member is being read. The name of the member is missing
  if it is no text. -/
  | member (members : List (Text × Json)) (name : Option Text)

inductive Awaiting
  | value
  /-- A value, or the end of an array. -/
  | valueOrEnd
  | name
  /-- A name, or the end of an object. -/
  | nameOrEnd
  | colon (name : Option Text)
  /-- A comma, or the end of the innermost container. -/
  | more
  /-- Nothing: the value is complete. -/
  | nothing (value : Json)

structure Parse where
  frames : List Frame := []
  awaiting : Awaiting := .value

namespace Parse

def wellFormed {Value : Type} : Option Value → Except Fault Value
  | some value => return value
  | none => throw .malformed

/-- The member with this name and value. One whose name is no text can never be looked up; it
is kept as a broken one. -/
def namedMember (name : Option Text) (value : Json) : Text × Json :=
  match name with
  | some name => (name, value)
  | none => ([], brokenString)

def complete (value : Json) : List Frame → Parse
  | .array items :: frames => { frames := .array (value :: items) :: frames, awaiting := .more }
  | .member members name :: frames =>
      { frames := .object (namedMember name value :: members) :: frames, awaiting := .more }
  | frames => { frames, awaiting := .nothing value }

def startValue (bounds : Bounds) (frames : List Frame) : Token → Except Fault Parse
  | .openBracket => return { frames := .array [] :: frames, awaiting := .valueOrEnd }
  | .openBrace => return { frames := .object [] :: frames, awaiting := .nameOrEnd }
  | .string written => return complete (← wellFormed (ofWritten? written)) frames
  | .word word =>
      if bounds.excludes word then throw .beyondBounds
      else return complete (← wellFormed (ofWord? word)) frames
  | _ => throw .malformed

def startName (frames : List Frame) : Token → Except Fault Parse
  | .string written => do
      match ← wellFormed (ofWritten? written) with
      | string name => return { frames, awaiting := .colon (some name) }
      | _ => return { frames, awaiting := .colon none }
  | _ => throw .malformed

def close : List Frame → Token → Except Fault Parse
  | .array items :: frames, .closeBracket => return complete (array items.reverse) frames
  | .object members :: frames, .closeBrace => return complete (object members.reverse) frames
  | _, _ => throw .malformed

def afterComma : List Frame → Except Fault Parse
  | .array items :: frames => return { frames := .array items :: frames, awaiting := .value }
  | .object members :: frames => return { frames := .object members :: frames, awaiting := .name }
  | _ => throw .malformed

def startMember (name : Option Text) : List Frame → Except Fault Parse
  | .object members :: frames =>
      return { frames := .member members name :: frames, awaiting := .value }
  | _ => throw .malformed

def requireDepth (bounds : Bounds) (frames : List Frame) : Except Fault Unit :=
  if bounds.depth < frames.length then throw .beyondBounds else return ()

def step (bounds : Bounds) (parse : Parse) (token : Token) : Except Fault Parse :=
  let frames := parse.frames
  match parse.awaiting, token with
  | .valueOrEnd, .closeBracket | .nameOrEnd, .closeBrace => close frames token
  | .value, _ | .valueOrEnd, _ => do
      requireDepth bounds frames
      startValue bounds frames token
  | .name, _ | .nameOrEnd, _ => do
      requireDepth bounds frames
      startName frames token
  | .colon name, .colon => startMember name frames
  | .more, .comma => afterComma frames
  | .more, _ => close frames token
  | .colon _, _ | .nothing _, _ => throw .malformed

end Parse

def parse (bounds : Bounds) (text : Text) : Except Fault Json := do
  match (← (Token.ofText text).foldlM (Parse.step bounds) {}).awaiting with
  | .nothing value => return value
  | _ => throw .malformed

end TabletopDice.Json
