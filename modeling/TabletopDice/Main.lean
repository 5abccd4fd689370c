import TabletopDice.CommandLine.Run

/-!
The program: the command line on the arguments, files and streams of a process.
Errors that have no message of their own go to the error stream with exit code 1.
-/

namespace TabletopDice.CommandLine

def Breakdown.message : Breakdown → String
  | number .overflow => "a number is too large"
  | number .notANumber => "a value is not a number"
  | number .tooManyDigits => "a number has too many digits"
  | number .noAttempts => "a die is not rolled at all"
  | fileNumber => "a number in the first line of the file cannot be read"
  | path => "a path holds a null character"

def finish : Ending → IO UInt32
  | .exit code => return code.toUInt32
  | .breakdown reason => do
      IO.eprintln reason.message
      return 1

def readContents (path : Text) : IO (Except FileFault Text) := do
  if path.contains '\x00' then return .error .nullCharacter
  try
    return .ok (← IO.FS.readFile (String.ofList path)).toList
  catch
    | .noFileOrDirectory .. => return .error .missing
    | .inappropriateType .. => return .error .isDirectory
    | .invalidArgument .. => return .error .nameTooLong
    | failure => throw failure

def warn (session : Session) : IO Unit :=
  session.warnings.forM fun warning => IO.eprintln warning.message

def send (text : Text) : IO Unit := do
  let output ← IO.getStdout
  output.putStr (String.ofList text)
  output.flush

partial def converse (session : Session) : IO UInt32 := do
  let line ← (← IO.getStdin).getLine
  if line.isEmpty then return 0
  match respond (line.toList.filter (· != '\n')) { session with warnings := [] } with
  | (.error fault, _) => finish (.breakdown (.number fault))
  | (.ok answer, session) => do
      warn session
      send answer
      converse session

/-- The random source for a seed; without one, the seed is left to chance. -/
def chooseSource (seed : Option Seed) : IO Source := do
  match seed with
  | some seed => return Source.ofSeed seed
  | none => return Source.ofSeed (.number (← IO.rand 0 (twoPow 64 - 1)))

def perform : Task → IO UInt32
  | .print text code => do
      send text
      finish (.exit code)
  | .listPresets path => do
      let (output, ending) := listPresets path (← readContents path)
      send output
      finish ending
  | .batch options => do
      let outcome := batch options options.seed { source := ← chooseSource options.seed }
      warn outcome.session
      send outcome.output
      finish outcome.ending
  | .interact seed => do
      send banner
      converse { source := ← chooseSource seed }

end TabletopDice.CommandLine

def main (arguments : List String) : IO UInt32 :=
  TabletopDice.CommandLine.perform (.ofTexts (arguments.map String.toList))
