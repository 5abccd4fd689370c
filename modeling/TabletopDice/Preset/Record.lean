import TabletopDice.Json.Parser
import TabletopDice.Number.Numeral
import TabletopDice.Preset.Basic

/-!
Records: one preset, or the metadata of the file, as a JSON object. A field goes by
a capitalised name or by a plain one, and the capitalised one is looked up first;
unknown members are ignored. All fields are checked, and every fault is reported.
-/

namespace TabletopDice

open Text

/-- A value read from a field, or what is wrong with it. -/
abbrev Checked (Value : Type) := Except (List RecordProblem) Value

namespace Checked

def problems {Value : Type} : Checked Value → List RecordProblem
  | .ok _ => []
  | .error problems => problems

end Checked

namespace Record

/-- The value of the first of these names that the record has. Where there is none, the
fallback stands, or else the field is missing. -/
def readField {Value : Type} (members : List (Text × Json)) (names : List String)
    (fallback : Option Value) (read : Json → Except RecordFault Value) : Checked Value :=
  let names := names.map String.toList
  match Json.firstMember? members names with
  | some (name, value) =>
      (read value).mapError fun fault => [{ field := some name, fault, value }]
  | none =>
      match fallback with
      | some value => .ok value
      | none => .error [{ field := names.head?, fault := .missing, value := .object members }]

def readText : Json → Except RecordFault Text
  | .string value => .ok value
  | _ => .error .notText

/-- What is left of a number behind zeros and low lines, of which `last` was the last one. It
stays in front of a point or the end. -/
def dropZerosBehind (last : Char) : Text → Option Text
  | [] => some [last]
  | char :: rest =>
      if char = '0' ∨ char = '_' then dropZerosBehind char rest
      else if char = '.' then some (last :: char :: rest)
      else if char.isDigit || char == '-' then some (char :: rest)
      else none

/-- The number without the zeros in front of its first other digit, and without the low lines
among them. -/
def dropZeros : Text → Option Text
  | [] => none
  | '0' :: rest => dropZerosBehind '0' rest
  | char :: rest => if char.isDigit || char == '-' then some (char :: rest) else none

/-- The number without a point that only zeros follow, and at least one. -/
def dropPoint (text : Text) : Option Text :=
  match splitFirst? '.' text with
  | some (whole, fraction) =>
      if !fraction.isEmpty && fraction.all (· == '0') then some whole else none
  | none => some text

/-- The number without its low lines, of which none may be first, last or beside another. -/
def dropLowLines (text : Text) : Text :=
  let parts := splitOn '_' text
  if parts.length = 1 ∨ parts.any List.isEmpty then text else parts.flatten

/-- A minus if needed and a whole number without needless zeros. -/
def readPlainInteger? (text : Text) : Option Int :=
  let (negative, digits) := match text with
    | '-' :: rest => (true, rest)
    | rest => (false, rest)
  if digits.isEmpty || !digits.all Char.isDigit || (1 < digits.length && digits.head? = some '0')
  then none
  else (Numeral.value { negative, digits }).toOption

/-- A sign that counts, and what follows the sign in front of a number. A plus is dropped, unless
a minus follows it. -/
def splitLeadingSign? : Text → Option (Text × Text)
  | '+' :: '-' :: _ => none
  | '+' :: rest => some ([], rest)
  | '-' :: rest => some (['-'], rest)
  | text => some ([], text)

/-- The integer that a text stands for. Blanks around it, a plus, zeros in front, a fraction of
zeros and single low lines between digits are allowed. -/
def integerOfText? (text : Text) : Option Int := do
  let (sign, rest) ← splitLeadingSign? (trimNumber text)
  readPlainInteger? (sign ++ dropLowLines (← dropPoint (← dropZeros rest)))

/-- An integer, a whole number, a truth value as one or zero, or the text of an integer. A text
that starts with too many digits is too large; with anything else in front it is unreadable. -/
def readInteger : Json → Except RecordFault Int
  | .integer value => .ok value
  | .bool value => .ok (if value then 1 else 0)
  | .string text =>
      if Json.isTooLong text then .error .tooLarge
      else match integerOfText? text with
        | some value => .ok value
        | none => .error .unreadableInteger
  | .number (.finite negative units) =>
      let value := Double.finite negative units
      if !value.isInteger then .error .fractional
      else if units < twoPow 63 * Double.one then
        .ok (Int.tdiv (Double.signedUnits negative units) Double.one)
      else .error .tooLarge
  | .number _ => .error .notFinite
  | _ => .error .notInteger

def readPreset (members : List (Text × Json)) : Checked Preset :=
  let name := readField members ["Name", "name"] none readText
  let description := readField members ["Description", "description"] (some []) readText
  let specification := readField members ["DieRollSpec", "spec"] none readText
  match name, description, specification with
  | .ok name, .ok description, .ok specification => .ok { name, description, specification }
  | _, _, _ => .error (name.problems ++ description.problems ++ specification.problems)

/-- The metadata of a file in the given version of the format. A version among the fields is
checked but does not count. -/
def readMetadata (version : Nat) (members : List (Text × Json)) : Checked Metadata :=
  let timestamp := readField members ["Timestamp", "timestamp"] (some 0) readInteger
  let dateTime := readField members ["DateTime", "date_time"] (some []) readText
  let comment := readField members ["Comment", "comment"] (some []) readText
  let written := readField members ["file_version"] (some 0) readInteger
  match timestamp, dateTime, comment, written with
  | .ok timestamp, .ok dateTime, .ok comment, .ok _ =>
      .ok { timestamp, dateTime, comment, version }
  | _, _, _, _ =>
      .error (timestamp.problems ++ dateTime.problems ++ comment.problems ++ written.problems)

def bounds : Json.Bounds := { depth := 200 }

/-- Reads the text of a record. All its strings have to be text. -/
def read {Value : Type} (fields : List (Text × Json) → Checked Value) (text : Text) :
    Except PresetError Value :=
  let whole (fault : RecordFault) (value : Json) : PresetError :=
    .badRecord [{ field := none, fault, value }]
  match Json.parse bounds text with
  | .error _ => .error (whole .invalidJson (.string text))
  | .ok value =>
      if value.someValue Json.isBroken then .error (whole .invalidJson (.string text))
      else match value with
        | .object members => (fields members).mapError .badRecord
        | _ => .error (whole .notAnObject value)

end Record

end TabletopDice
