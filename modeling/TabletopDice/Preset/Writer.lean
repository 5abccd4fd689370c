import TabletopDice.Json.Printer
import TabletopDice.Number.Numeral
import TabletopDice.Preset.Basic

/-!
Writing a preset file in the current version of the format: a header, the metadata,
the presets sorted by name, and an end mark. Empty fields are left out.
-/

namespace TabletopDice

structure Clock where
  seconds : Int
  localTime : Text
  deriving DecidableEq, Repr

namespace PresetFile

def guillemet : Char := '«'

def metadataMark : Text := "«__META__»".toList

def presetMark : Text := "«PRESET»".toList

def endMark : Text := "«__EOF__»".toList

def headerLead : Text := "__DICE__:".toList

def textMember (name : String) (value : Text) : List (Text × Json) :=
  if value.isEmpty then [] else [(name.toList, .string value)]

def metadataMembers (metadata : Metadata) : List (Text × Json) :=
  (if metadata.timestamp = 0 then [] else [("Timestamp".toList, .integer metadata.timestamp)]) ++
    textMember "DateTime" metadata.dateTime ++ textMember "Comment" metadata.comment

def presetMembers (preset : Preset) : List (Text × Json) :=
  ("Name".toList, .string preset.name) :: textMember "Description" preset.description ++
    [("DieRollSpec".toList, .string preset.specification)]

def writeRecord (mark : Text) (members : List (Text × Json)) : Text :=
  mark ++ ' ' :: Json.printIndented members ++ ['\n']

/-- The presets in the order of the code points of their names; equal names keep their order. -/
def sortByName (presets : List Preset) : List Preset :=
  presets.mergeSort fun first second => Text.isOrdered first.name second.name

/-- The metadata with the time of writing where it has no timestamp. -/
def stamp (clock : Clock) (metadata : Metadata) : Metadata :=
  if metadata.timestamp = 0 then
    { metadata with timestamp := clock.seconds, dateTime := clock.localTime }
  else metadata

def headerLine : Text := headerLead ++ Text.ofNat PresetError.supportedVersions.2

/-- The text of a whole file; `write` fails where it cannot be told. -/
def text (clock : Clock) (file : PresetFile) : Text :=
  headerLine ++ ['\n'] ++
    writeRecord metadataMark (metadataMembers (stamp clock file.metadata)) ++
    (sortByName file.presets).flatMap (fun preset =>
      writeRecord presetMark (presetMembers preset)) ++
    endMark ++ ['\n']

/-- Writes a whole file, unless its timestamp, the only number in it, is too long. -/
def write (clock : Clock) (file : PresetFile) : Except NumberFault Text :=
  if Text.isTellable (stamp clock file.metadata).timestamp then return text clock file
  else throw .tooManyDigits

end PresetFile

end TabletopDice
