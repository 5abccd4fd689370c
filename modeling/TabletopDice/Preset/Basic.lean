import TabletopDice.Json.Basic
import TabletopDice.Preset.TclList

/-!
Presets are named specifications kept in a file, together with some facts about
the file. Here are the types of what a file holds and of what can be wrong with it.
-/

namespace TabletopDice

structure Preset where
  name : Text
  description : Text := []
  specification : Text
  deriving DecidableEq, Repr

structure Metadata where
  timestamp : Int := 0
  dateTime : Text := []
  comment : Text := []
  /-- The version of the file format; zero if there was no file. -/
  version : Nat := 0
  deriving DecidableEq, Repr

structure PresetFile where
  presets : List Preset := []
  metadata : Metadata := {}
  deriving DecidableEq, Repr

inductive RecordFault
  | invalidJson
  | notAnObject
  | missing
  | notText
  | notInteger
  | unreadableInteger
  | fractional
  | notFinite
  | tooLarge
  deriving DecidableEq, Repr

def RecordFault.name : RecordFault → String
  | invalidJson => "json_invalid"
  | notAnObject => "model_type"
  | missing => "missing"
  | notText => "string_type"
  | notInteger => "int_type"
  | unreadableInteger => "int_parsing"
  | fractional => "int_from_float"
  | notFinite => "finite_number"
  | tooLarge => "int_parsing_size"

def RecordFault.sentence : RecordFault → String
  | invalidJson => "Invalid JSON"
  | notAnObject => "Input should be an object"
  | missing => "Field required"
  | notText => "Input should be a valid string"
  | notInteger => "Input should be a valid integer"
  | unreadableInteger =>
      "Input should be a valid integer, unable to parse string as an integer"
  | fractional => "Input should be a valid integer, got a number with a fractional part"
  | notFinite => "Input should be a finite number"
  | tooLarge => "Unable to parse input string as an integer, exceeded maximum size"

structure RecordProblem where
  /-- The name of the field at fault; missing if it is the record as a whole. -/
  field : Option Text
  fault : RecordFault
  /-- The value at fault; for a missing field the whole record. -/
  value : Json

inductive PresetError
  | badHeader
  | unsupportedVersion (version : Nat)
  | legacyMetadata (fault : TclList.Fault)
  | legacyRecord (fault : TclList.Fault)
  | legacyFieldCount (count : Nat)
  | badRecord (problems : List RecordProblem)
  | unexpectedData (line : Text)
  | unexpectedEnd

inductive PresetFailure
  | format (error : PresetError)
  /-- A number in the first line is too long, or not all of its digits are decimal. -/
  | unreadableNumber

namespace PresetError

def supportedVersions : Nat × Nat := (1, 2)

def kindName : PresetError → String
  | unsupportedVersion _ => "UnsupportedVersionError"
  | _ => "CorruptFileError"

def message : PresetError → String
  | badHeader => "invalid die-roll preset file format in initial header"
  | unsupportedVersion version =>
      s!"cannot read die-roll preset file format version {version} (only versions " ++
        s!"{supportedVersions.1}-{supportedVersions.2} are supported)"
  | legacyMetadata fault =>
      "legacy die-roll preset file has invalid metadata: " ++ fault.message
  | legacyRecord fault => "legacy die-roll preset file has invalid record: " ++ fault.message
  | legacyFieldCount count =>
      s!"legacy die-roll preset file has invalid record: field count {count}"
  | badRecord _ => "invalid die-roll preset file"
  | unexpectedData line =>
      s!"invalid die-roll preset file format: unexpected data {Text.quoted line}"
  | unexpectedEnd => "invalid die-roll preset file format: unexpected end of file"

end PresetError

end TabletopDice
