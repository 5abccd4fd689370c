import TabletopDice.Json.Printer
import TabletopDice.Preset.Basic

/-!
The problems of a record as clients read them: the field, a sentence, the kind of
fault and the value at fault with its type. Long values are shortened in the middle.
-/

namespace TabletopDice

open Text

namespace Json

mutual

def display : Json → Text
  | null => "None".toList
  | bool value => (if value then "True" else "False").toList
  | integer value => Text.ofInt value
  | number value => value.toShortestText
  | string value => quote value
  | brokenString => quote []
  | array items => '[' :: join [',', ' '] (displayItems items) ++ [']']
  | object members =>
      '\x7b' :: join [',', ' '] ((lastByName (displayMembers members)).map fun (name, shown) =>
        quote name ++ ':' :: ' ' :: shown) ++ ['\x7d']

def displayItems : List Json → List Text
  | [] => []
  | item :: items => item.display :: displayItems items

def displayMembers : List (Text × Json) → List (Text × Text)
  | [] => []
  | (name, value) :: members => (name, value.display) :: displayMembers members

end

def typeName : Json → String
  | null => "NoneType"
  | bool _ => "bool"
  | integer _ => "int"
  | number _ => "float"
  | string _ | brokenString => "str"
  | array _ => "list"
  | object _ => "dict"

end Json

def takeBytes (size : Nat) : Text → Text
  | [] => []
  | char :: rest =>
      if char.utf8Size ≤ size then char :: takeBytes (size - char.utf8Size) rest else []

/-- The text, without its middle if it is longer than fifty bytes. -/
def shorten (text : Text) : Text :=
  if byteCount text ≤ 50 then text
  else takeBytes 25 text ++ "...".toList ++ (takeBytes 24 text.reverse).reverse

namespace RecordProblem

def helpPage (fault : RecordFault) : String :=
  "https:" ++ "//errors.pydantic.dev/2.14/v/" ++ fault.name

def paragraph (problem : RecordProblem) : Text :=
  let fault := problem.fault
  let value := String.ofList (shorten problem.value.display)
  ("\n" ++ String.ofList (problem.field.getD []) ++ "\n  " ++ fault.sentence ++
    s!" [type={fault.name}, input_value={value}, input_type={problem.value.typeName}]" ++
    "\n    For further information visit " ++ helpPage fault).toList

end RecordProblem

/-- The message with a paragraph for every problem of a record after the first. -/
def PresetError.fullMessage (error : PresetError) : Text :=
  match error with
  | badRecord problems =>
      error.message.toList ++ (problems.drop 1).flatMap RecordProblem.paragraph
  | _ => error.message.toList

end TabletopDice
