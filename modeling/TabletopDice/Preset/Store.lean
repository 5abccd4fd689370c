import TabletopDice.Files
import TabletopDice.Preset.Problem
import TabletopDice.Preset.Reader

/-!
Preset files by path. The line breaks of a file are unified when it is read.
-/

namespace TabletopDice

inductive StoreFailure
  | file (fault : FileFault)
  | content (failure : PresetFailure)

inductive SaveFailure
  | file (fault : FileFault)
  /-- Only the header line was written. -/
  | unfinished (fault : NumberFault) (files : Files)

namespace PresetFile

def ofContents (contents : Except FileFault Text) : Except StoreFailure PresetFile := do
  let text ← contents.mapError .file
  (read (Text.unifyLineFeeds text)).mapError .content

def load (files : Files) (path : Text) : Except StoreFailure PresetFile :=
  ofContents (files.open? path)

/-- Writes a preset file over what the path names. If it cannot be told, the file that was there is
gone all the same. -/
def save (clock : Clock) (files : Files) (path : Text) (file : PresetFile) :
    Except SaveFailure Files :=
  match write clock file with
  | .ok text => (files.save path text).mapError .file
  | .error fault => do
      throw (.unfinished fault (← (files.save path (headerLine ++ ['\n'])).mapError .file))

def find? (file : PresetFile) (name : Text) : Option Preset :=
  file.presets.find? fun preset => preset.name == name

end PresetFile

end TabletopDice
