import TabletopDice.Text.Quoted

/-!
The files within reach, by name. A path may lead through the current directory and
may repeat its slashes; there are no other directories than the current one and
those above it. Paths and names have a bounded size.
-/

namespace TabletopDice

open Text

inductive FileFault
  | missing
  | isDirectory
  | notDirectory
  | nameTooLong
  /-- The path holds a character that no name can have. -/
  | nullCharacter
  deriving DecidableEq, Repr

def FileFault.message (path : Text) : FileFault → String
  | missing => s!"[Errno 2] No such file or directory: {quoted path}"
  | isDirectory => s!"[Errno 21] Is a directory: {quoted path}"
  | notDirectory => s!"[Errno 20] Not a directory: {quoted path}"
  | nameTooLong => s!"[Errno 36] File name too long: {quoted path}"
  | nullCharacter => "embedded null byte"

abbrev Files := List (Text × Text)

namespace Files

def find? (files : Files) (name : Text) : Option Text :=
  (List.find? (fun file : Text × Text => file.1 == name) files).map Prod.snd

def maxPathSize : Nat := 4095

def maxNameSize : Nat := 255

def steps (path : Text) : List Text :=
  (splitOn '/' path).filter fun step => !step.isEmpty && step != ['.']

/-- The path with single slashes and without steps that lead nowhere; the current directory is a
full stop. -/
def plainPath (path : Text) : Text :=
  let start : Text := if path.head? = some '/' then ['/'] else []
  match start ++ join ['/'] (steps path) with
  | [] => ['.']
  | plain => plain

inductive Place
  /-- The current directory, which holds the files. -/
  | current
  /-- Any directory above it. -/
  | above
  deriving DecidableEq, Repr

def enter (files : Files) (place : Place) (step : Text) : Except FileFault Place :=
  if maxNameSize < byteCount step then throw .nameTooLong
  else if step = ['.', '.'] then return .above
  else if place = .current && (files.find? step).isSome then throw .notDirectory
  else throw .missing

/-- The path in its two parts: the steps through directories, and the last step, which is missing
if nothing but the directory itself is meant. -/
def splitPath (path : Text) : List Text × Option Text :=
  let walked := steps path
  match (splitOn '/' (dropTrailing (· == '/') path)).getLast? with
  | some last => if last = ['.'] then (walked, none) else (walked.dropLast, walked.getLast?)
  | none => (walked, none)

/-- The directory in which the last step of a path is taken, and that step. -/
def reach (files : Files) (path : Text) : Except FileFault (Place × Option Text) := do
  if path.contains '\x00' then throw .nullCharacter
  if maxPathSize < byteCount path then throw .nameTooLong
  if path.isEmpty then throw .missing
  let (parents, last) := splitPath path
  let start := if path.head? = some '/' then Place.above else .current
  return (← parents.foldlM files.enter start, last)

def open? (files : Files) (path : Text) : Except FileFault Text := do
  match ← files.reach path with
  | (_, none) => throw .isDirectory
  | (place, some name) =>
      let found :=
        if place = .current ∧ path.getLast? ≠ some '/' then files.find? name else none
      match found with
      | some content => return content
      | none => do
          let _ ← files.enter place name
          throw .isDirectory

def save (files : Files) (path content : Text) : Except FileFault Files := do
  match ← files.reach path with
  | (_, none) => throw .isDirectory
  | (place, some name) =>
      if path.getLast? = some '/' ∨ name = ['.', '.'] then throw .isDirectory
      else if maxNameSize < byteCount name then throw .nameTooLong
      else if place = .above then throw .missing
      else return (name, content) :: List.filter (fun file => file.1 != name) files

end Files

end TabletopDice
