import TabletopDice.Source
import TabletopDice.Text.Numeral

/-!
The options of the command line. A long option may be shortened as long as only one
begins that way, and may carry its value behind an equals sign; two dashes there
leave the option blank. What could be an option is a value only if it is a negative
number or holds a space.
-/

namespace TabletopDice

open Text

structure Options where
  dice : Text := []
  json : Bool := false
  seed : Option Seed := none
  /-- Show the grammar of specifications. -/
  grammar : Bool := false
  /-- The preset file to list; empty for none. -/
  presets : Text := []
  deriving DecidableEq, Repr

inductive Switch
  | help
  | dice
  | json
  | seed
  | grammar
  | presets
  deriving DecidableEq, Repr

namespace Switch

def names : List (Text × Switch) :=
  [("-h".toList, help), ("--help".toList, help), ("--dice".toList, dice),
    ("--json".toList, json), ("--seed".toList, seed), ("--syntax".toList, grammar),
    ("--presets".toList, presets)]

def ofName? (name : Text) : Option Switch :=
  (names.find? fun entry => entry.1 == name).map Prod.snd

def beginning (lead : Text) : List Switch :=
  (names.filter fun entry => (after? lead entry.1).isSome).map Prod.snd

end Switch

inductive Argument
  | value (text : Text)
  /-- A switch, with the value that is attached to it. -/
  | switch (which : Switch) (attached : Option Text)
  | unknown
  | ambiguous
  /-- The mark behind which there are only values. -/
  | endOfSwitches
  deriving DecidableEq, Repr

namespace Argument

/-- A minus and a decimal number; one line feed may follow. -/
def isNegativeNumber : Text → Bool
  | '-' :: rest =>
      let digits := if rest.getLast? = some '\n' then rest.dropLast else rest
      let (whole, behind) := spanDigits digits
      match behind with
      | [] => !whole.isEmpty
      | '.' :: fraction => !fraction.isEmpty && fraction.all isDigit
      | _ => false
  | _ => false

/-- A value if its form allows one, although it starts with a dash. -/
def ofDashed (text : Text) : Argument :=
  if isNegativeNumber text || text.contains ' ' then value text else unknown

/-- An argument that starts with two dashes and is no full name of a switch. -/
def ofLong (text : Text) : Argument :=
  let (lead, attached) := match splitFirst? '=' text with
    | some (lead, rest) => (lead, some rest)
    | none => (text, none)
  match Switch.beginning lead with
  | [] => ofDashed text
  | [which] => switch which attached
  | _ => ambiguous

/-- The short switch for help with more behind it. That has to be the letter of the switch again,
any number of times and perhaps behind an equals sign; anything else is refused as a value. -/
def ofHelp (behind : Text) : Argument :=
  let letters := if behind.head? = some '=' then behind.drop 1 else behind
  if !letters.isEmpty && letters.all (· == 'h') then switch .help none
  else switch .help (some letters)

def ofText (text : Text) : Argument :=
  match text with
  | '-' :: next :: rest =>
      match Switch.ofName? text with
      | some which => switch which none
      | none =>
          if next = 'h' then ofHelp rest
          else match (splitFirst? '=' text).bind fun (name, behind) =>
              (Switch.ofName? name).map fun which => switch which (some behind) with
            | some found => found
            | none => if next = '-' then ofLong text else ofDashed text
  | _ => value text

/-- What each argument is, up to and behind the end of the switches. -/
def ofTexts : List Text → List Argument
  | [] => []
  | text :: texts =>
      if text = ['-', '-'] then endOfSwitches :: texts.map value
      else ofText text :: ofTexts texts

end Argument

inductive Invocation
  | options (options : Options)
  | help
  | misuse
  deriving DecidableEq, Repr

namespace Invocation

def setValue (options : Options) (which : Switch) (value : Text) : Option Options :=
  match which with
  | .dice => some { options with dice := value }
  | .presets => some { options with presets := value }
  | .seed => (readInt? value).map fun seed => { options with seed := some (.number seed) }
  | _ => none

def setBlank (options : Options) (which : Switch) : Option Options :=
  match which with
  | .dice => some { options with dice := [] }
  | .presets => some { options with presets := [] }
  | .seed => some { options with seed := some .blank }
  | _ => none

/-- The options with what is attached to a switch. Two dashes are no value. -/
def setAttached (options : Options) (which : Switch) (value : Text) : Option Options :=
  if value = ['-', '-'] then setBlank options which else setValue options which value

/-- Takes the arguments in order. The first that cannot be used ends the reading, except that
values without a switch and unknown switches are only refused at the end. -/
def read (options : Options) (refused : Bool) : List Argument → Invocation
  | [] => if refused then misuse else .options options
  | .value _ :: rest => read options true rest
  | .unknown :: rest => read options true rest
  | .endOfSwitches :: rest => read options true rest
  | .ambiguous :: _ => misuse
  | .switch .help none :: _ => help
  | .switch .json none :: rest => read { options with json := true } refused rest
  | .switch .grammar none :: rest => read { options with grammar := true } refused rest
  | .switch which (some value) :: rest =>
      match setAttached options which value with
      | some options => read options refused rest
      | none => misuse
  | .switch which none :: .value value :: rest =>
      match setValue options which value with
      | some options => read options refused rest
      | none => misuse
  | .switch _ none :: _ => misuse

def ofTexts (texts : List Text) : Invocation :=
  let arguments := Argument.ofTexts texts
  if arguments.contains .ambiguous then misuse else read {} false arguments

end Invocation

def helpLines : List String :=
  ["usage: gmdice-roll [-h] [--dice DICE] [--json] [--seed SEED] [--syntax]",
    "                   [--presets FILE]",
    "",
    "Roll dice using tabletop RPG die-roll expressions.",
    "",
    "options:",
    "  -h, --help      show this help message and exit",
    "  --dice DICE     die-roll expression(s) to roll, separated by semicolons",
    "                  (interactive if omitted)",
    "  --json          print results as JSON",
    "  --seed SEED     seed for reproducible results",
    "  --syntax        print the die-roll syntax and exit",
    "  --presets FILE  list the presets stored in FILE and exit"]

def helpText : Text := helpLines.flatMap fun line => line.toList ++ ['\n']

end TabletopDice
