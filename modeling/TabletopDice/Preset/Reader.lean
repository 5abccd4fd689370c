import TabletopDice.Preset.Record
import TabletopDice.Preset.Writer
import TabletopDice.Text.Blank
import TabletopDice.Text.Lines

/-!
Reading a preset file. In the current version of the format a record starts on a
line with its mark and goes on up to the next line that starts with a mark; the
file has to close with the end mark. In the old version every line is a list of
name, description and specification.
-/

namespace TabletopDice

open Text

namespace PresetFile

/-- The digits of the version in the header line, and what follows them. -/
def readHeader? (line : Text) : Option (Text × Text) :=
  match (after? headerLead line).map spanDigits with
  | some (digit :: digits, rest) => some (digit :: digits, trimLeft rest)
  | _ => none

def readNumber (digits : Text) : Except PresetFailure Nat :=
  (Numeral.magnitude { digits }).mapError fun _ => .unreadableNumber

def readLegacyMetadata (version : Nat) (text : Text) : Except PresetFailure Metadata := do
  let fields ← (TclList.parse text).mapError fun fault => .format (.legacyMetadata fault)
  match fields with
  | [] => return { version }
  | field :: more =>
      let dateTime := more.headD []
      if field.isEmpty || !field.all (fun char => isDigit char || isDigitVariant char) then
        return { version, dateTime }
      else if !field.all isDigit then throw .unreadableNumber
      else return { version, dateTime, timestamp := ← readNumber field }

def readLegacyRecord (line : Text) : Except PresetError Preset :=
  match TclList.parse line with
  | .error fault => throw (.legacyRecord fault)
  | .ok [name, description, specification] => return { name, description, specification }
  | .ok fields => throw (.legacyFieldCount fields.length)

inductive RecordKind
  | metadata
  | preset
  deriving DecidableEq, Repr

/-- A line that starts a record: its mark, one blank, and the first characters of its JSON. -/
def readRecordLine? (line : Text) : Option (RecordKind × Text) := do
  let (kind, rest) ← match after? presetMark line with
    | some rest => some (RecordKind.preset, rest)
    | none => (after? metadataMark line).map fun rest => (.metadata, rest)
  match rest with
  | blank :: char :: data => if isBlank blank then some (kind, char :: data) else none
  | _ => none

/-- The file with one more record. Later metadata replace earlier ones. -/
def addRecord (file : PresetFile) (kind : RecordKind) (data : Text) :
    Except PresetError PresetFile :=
  match kind with
  | .metadata => do
      let metadata ← Record.read (Record.readMetadata file.metadata.version) data
      return { file with metadata }
  | .preset => do
      let preset ← Record.read Record.readPreset data
      return { file with presets := file.presets ++ [preset] }

inductive LineMeaning
  | nothing
  | fileEnd
  | recordStart (kind : RecordKind) (data : Text)

def lineMeaning (line : Text) : Except PresetError LineMeaning :=
  if allBlank line then return .nothing
  else if line = endMark then return .fileEnd
  else match readRecordLine? line with
    | some (kind, data) => return .recordStart kind data
    | none => throw (.unexpectedData line)

/-- Reads the lines behind the header. `pending` is the record whose lines are being collected,
the last line first. -/
def readRecords (file : PresetFile) (pending : Option (RecordKind × List Text)) :
    List Text → Except PresetError PresetFile
  | [] => throw .unexpectedEnd
  | line :: lines =>
      match pending with
      | some (kind, collected) =>
          if line.head? = some guillemet then do
            let file ← addRecord file kind (join ['\n'] collected.reverse)
            match ← lineMeaning line with
            | .nothing => readRecords file none lines
            | .fileEnd => return file
            | .recordStart kind data => readRecords file (some (kind, [data])) lines
          else readRecords file (some (kind, line :: collected)) lines
      | none => do
          match ← lineMeaning line with
          | .nothing => readRecords file none lines
          | .fileEnd => return file
          | .recordStart kind data => readRecords file (some (kind, [data])) lines

/-- The contents of a preset file. An empty text holds nothing. -/
def read (text : Text) : Except PresetFailure PresetFile :=
  match splitLines text with
  | [] => return {}
  | header :: lines =>
      match readHeader? header with
      | none => throw (.format .badHeader)
      | some (digits, rest) => do
          let version ← readNumber digits
          let (oldest, newest) := PresetError.supportedVersions
          if version < oldest ∨ newest < version then
            throw (.format (.unsupportedVersion version))
          else if version < newest then
            let metadata ← readLegacyMetadata version rest
            let presets ← (lines.mapM readLegacyRecord).mapError .format
            return { presets, metadata }
          else
            (readRecords { metadata := { version } } none lines).mapError .format

end PresetFile

end TabletopDice
