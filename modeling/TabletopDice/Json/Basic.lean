import TabletopDice.Number.Double
import TabletopDice.Text.Basic

/-!
JSON values. Whole numbers are exact and of any size, other numbers are doubles.
An object keeps its members in the order of the text; where a name occurs twice,
the last member counts.
-/

namespace TabletopDice

inductive Json
  | null
  | bool (value : Bool)
  | integer (value : Int)
  | number (value : Double)
  | string (value : Text)
  /-- A string in which half of a surrogate pair stands alone; it is no text. -/
  | brokenString
  | array (items : List Json)
  | object (members : List (Text × Json))

namespace Json

/-- The value of the last member with this name. -/
def member? (name : Text) (members : List (Text × Json)) : Option Json :=
  (members.reverse.find? fun member => member.1 == name).map Prod.snd

/-- The first of the names that has a member, and its value. -/
def firstMember? (members : List (Text × Json)) : List Text → Option (Text × Json)
  | [] => none
  | name :: names =>
      match member? name members with
      | some value => some (name, value)
      | none => firstMember? members names

/-- Every name once: at its first place, with its last value. -/
def lastByName {Value : Type} (members : List (Text × Value)) : List (Text × Value) :=
  (members.map Prod.fst).eraseDups.filterMap fun name =>
    members.reverse.find? fun member => member.1 == name

mutual

/-- The value with only those members of its objects that count. -/
def settled : Json → Json
  | array items => array (settledItems items)
  | object members => object (lastByName (settledMembers members))
  | value => value

def settledItems : List Json → List Json
  | [] => []
  | item :: items => item.settled :: settledItems items

def settledMembers : List (Text × Json) → List (Text × Json)
  | [] => []
  | (name, value) :: members => (name, value.settled) :: settledMembers members

end

mutual

def someValue (test : Json → Bool) : Json → Bool
  | array items => test (array items) || someItem test items
  | object members => test (object members) || someMember test members
  | value => test value

def someItem (test : Json → Bool) : List Json → Bool
  | [] => false
  | item :: items => item.someValue test || someItem test items

def someMember (test : Json → Bool) : List (Text × Json) → Bool
  | [] => false
  | (_, value) :: members => value.someValue test || someMember test members

end

def isBroken : Json → Bool
  | brokenString => true
  | _ => false

/-- The value can be sent: no string that counts in it is broken, and every number is finite. -/
def isSendable (value : Json) : Bool :=
  !value.settled.someValue fun
    | brokenString | number (.infinite _) | number (.notANumber _) => true
    | _ => false

end Json

end TabletopDice
