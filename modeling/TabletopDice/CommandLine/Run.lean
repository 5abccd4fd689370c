import TabletopDice.CommandLine.Options
import TabletopDice.CommandLine.Report
import TabletopDice.Preset.Store
import TabletopDice.Roller.Grammar
import TabletopDice.Roller.Roll

/-!
The command line. It rolls the given specifications one after another, lists a
preset file, or answers the lines of its input. One session serves a whole run, so
a blank specification rolls the one before it again.
-/

namespace TabletopDice.CommandLine

/-- Why a run breaks off without a message. -/
inductive Breakdown
  | number (fault : NumberFault)
  /-- A preset file starts with a number that cannot be read. -/
  | fileNumber
  /-- A path that no file can have. -/
  | path
  deriving DecidableEq, Repr

inductive Ending
  | exit (code : Nat)
  | breakdown (reason : Breakdown)
  deriving DecidableEq, Repr

/-- A finished run: what it printed, how it ended, and the session after it. -/
structure Outcome where
  output : Text
  ending : Ending
  session : Session

def errorLine (message : Text) : Text := "ERROR: ".toList ++ message ++ ['\n']

def presetLine (preset : Preset) : Text :=
  preset.name ++ [':', ' '] ++ preset.specification ++
    (if preset.description.isEmpty then []
      else [' ', ' ', '('] ++ preset.description ++ [')']) ++ ['\n']

def presetLines (file : PresetFile) : Text :=
  (if file.metadata.comment.isEmpty then []
    else ['#', ' '] ++ file.metadata.comment ++ ['\n']) ++ file.presets.flatMap presetLine

def listPresets (path : Text) (contents : Except FileFault Text) : Text × Ending :=
  match PresetFile.ofContents contents with
  | .ok file => (presetLines file, .exit 0)
  | .error (.file .nullCharacter) => ([], .breakdown .path)
  | .error (.file fault) => (errorLine (fault.message path).toList, .exit 1)
  | .error (.content (.format error)) => (errorLine error.fullMessage, .exit 1)
  | .error (.content .unreadableNumber) => ([], .breakdown .fileNumber)

/-- Rolls the specifications in order up to the first failure, which is given with its place. -/
def rollAll : Nat → List Text → Session → Except (Nat × Failure) (List ResultSet) × Session
  | _, [], session => (.ok [], session)
  | place, text :: texts, session =>
      match (SessionM.roll (Text.trim text)).run.run session with
      | (.error failure, session) => (.error (place, failure), session)
      | (.ok set, session) =>
          match rollAll (place + 1) texts session with
          | (.ok sets, session) => (.ok (set :: sets), session)
          | failed => failed

/-- Rolls the specifications and prints all results, or else only the error. -/
def batch (options : Options) (seed : Option Seed) (session : Session) : Outcome :=
  match rollAll 1 (Text.splitOn ';' options.dice) session with
  | (.ok sets, session) =>
      let output :=
        if options.json then (reportJson seed sets).print ++ ['\n']
        else sets.flatMap ResultSet.report
      { output, ending := .exit 0, session }
  | (.error (place, .dice error), session) =>
      let message :=
        "die-roll expression #".toList ++ Text.ofNat place ++ ": ".toList ++ error.message.toList
      { output := errorLine message, ending := .exit 1, session }
  | (.error (_, .number fault), session) =>
      { output := [], ending := .breakdown (.number fault), session }

def banner : Text :=
  ("Enter each die-roll expression below.\nType \"help\" to see a syntax description.\n" ++
    "EOF terminates.\n").toList

def respond (line : Text) (session : Session) : Except NumberFault Text × Session :=
  let text := Text.trim line
  if text = "help".toList then (.ok (grammarText ++ ['\n']), session)
  else
    match (SessionM.roll text).run.run session with
    | (.ok set, session) => (.ok (ResultSet.report set), session)
    | (.error (.dice error), session) => (.ok (errorLine error.message.toList), session)
    | (.error (.number fault), session) => (.error fault, session)

def interact : List Text → Session → Outcome
  | [], session => { output := [], ending := .exit 0, session }
  | line :: lines, session =>
      match respond line session with
      | (.error fault, session) =>
          { output := [], ending := .breakdown (.number fault), session }
      | (.ok answer, session) =>
          let rest := interact lines session
          { rest with output := answer ++ rest.output }

structure Surroundings where
  files : Files := []
  input : Text := []
  /-- The seed that is reported where the options give none. -/
  defaultSeed : Option Seed := none

inductive Task
  | print (text : Text) (code : Nat)
  | listPresets (path : Text)
  | batch (options : Options)
  | interact (seed : Option Seed)
  deriving DecidableEq, Repr

/-- The task that the arguments set. The grammar is shown before presets are listed, and
these are listed before anything is rolled. -/
def Task.ofTexts (arguments : List Text) : Task :=
  match Invocation.ofTexts arguments with
  | .misuse => .print [] 2
  | .help => .print helpText 0
  | .options options =>
      if options.grammar then .print (grammarText ++ ['\n']) 0
      else if !options.presets.isEmpty then .listPresets options.presets
      else if options.dice.isEmpty then .interact options.seed
      else .batch options

/-- One run with the given arguments. `source` gives the random source for a seed. -/
def run (surroundings : Surroundings) (source : Option Seed → Source) (arguments : List Text) :
    Outcome :=
  let seeded (seed : Option Seed) : Option Seed := seed <|> surroundings.defaultSeed
  let session (seed : Option Seed) : Session := { source := source (seeded seed) }
  match Task.ofTexts arguments with
  | .print output code => { output, ending := .exit code, session := session none }
  | .listPresets path =>
      let (output, ending) := listPresets path (surroundings.files.open? path)
      { output, ending, session := session none }
  | .batch options => batch options (seeded options.seed) (session options.seed)
  | .interact seed =>
      let answered := interact (Text.splitLineFeeds surroundings.input) (session seed)
      { answered with output := banner ++ answered.output }

end TabletopDice.CommandLine
