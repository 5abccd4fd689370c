import TabletopDice.Expression.Limits
import TabletopDice.Fragment

/-!
Global modifiers: the clauses behind the bars of a specification, which say how
often an expression is rolled and what is made of its results. Clauses are read
one by one and collected in one record; a later clause of a kind replaces an
earlier one.
-/

namespace TabletopDice

open Text

structure Modifiers where
  title : Text := []
  confirm : Bool := false
  /-- The least natural face that is confirmed; zero stands for the highest side. -/
  threat : Nat := 0
  confirmBonus : Int := 0
  repeatFor : Nat := 1
  /-- The result to reach; zero for none. -/
  target : Int := 0
  /-- The sum to reach; zero for none. -/
  total : Nat := 0
  maximized : Bool := false
  /-- The difficulty class; zero for none. -/
  difficulty : Int := 0
  /-- The clause for automatic success and failure as it is written; empty for none. -/
  automatic : Text := []
  successMessage : Text := []
  failMessage : Text := []
  chance : Option Nat := none
  chanceLabel : Text := []
  /-- The expression with a numbered place for every set of alternatives; empty for none. -/
  template : Text := []
  alternatives : List (List Text) := []
  deriving DecidableEq, Repr

/-- One clause. Its numbers are kept as written; a threat, a count and a sum have no sign. -/
inductive Clause
  /-- A limit; it belongs to the expression. -/
  | limit
  | confirm (threat : Option Text) (bonus : Option Numeral)
  | target (value : Numeral)
  | repetition (count : Text)
  | total (value : Text)
  | maximized
  | difficulty (value : Numeral)
  /-- Automatic success and failure with their messages; `written` is the whole clause. -/
  | automatic (written success fail : Text)
  deriving DecidableEq, Repr

namespace Clause

/-- A limit keyword and a number in front; anything may follow. -/
def startsWithLimit (clause : Text) : Bool := startsLimit (trimLeft clause)

/-- Digits and then blanks to the end. -/
def readCount? (text : Text) : Option Text :=
  match spanDigits (trimLeft text) with
  | ([], _) => none
  | (digits, rest) => if allBlank rest then some digits else none

/-- Digits with an optional minus, and then blanks to the end. -/
def readValue? (text : Text) : Option Numeral :=
  match trimLeft text with
  | '-' :: rest =>
      match spanDigits rest with
      | ([], _) => none
      | (digits, rest) => if allBlank rest then some { negative := true, digits } else none
  | rest => (readCount? rest).map fun digits => { digits }

/-- What follows the letter of a confirmation: a threat, a bonus with its sign, or both. -/
def readConfirm? (text : Text) : Option Clause :=
  let (digits, rest) := spanDigits text
  let threat := if digits.isEmpty then none else some digits
  match rest with
  | '+' :: _ | '-' :: _ =>
      match readInteger? rest with
      | some (bonus, rest) => if allBlank rest then some (confirm threat (some bonus)) else none
      | none => none
  | _ => if allBlank rest then some (confirm threat none) else none

def failMessageFor (success : Text) : Text :=
  let word := lowered success
  if word = "hit".toList then "MISS".toList
  else if word = "miss".toList then "HIT".toList
  else if word = "success".toList ∨ word = "succeed".toList then "FAIL".toList
  else if word = "fail".toList then "SUCCESS".toList
  else "NOT ".toList ++ success

/-- The text before and after the first slash that is followed by a character other than a
blank. -/
def splitMessages? : Text → Option (Text × Text)
  | [] => none
  | '/' :: next :: rest =>
      if isBlank next then
        (splitMessages? (next :: rest)).map fun (before, behind) => ('/' :: before, behind)
      else some ([], next :: rest)
  | char :: rest => (splitMessages? rest).map fun (before, behind) => (char :: before, behind)

/-- What follows the keyword of automatic success and failure: nothing, or a message of success
on the same line, and behind a slash one of failure. -/
def readAutomatic? (written text : Text) : Option Clause :=
  match text, trim text with
  | _, [] => some (automatic written "SUCCESS".toList "FAIL".toList)
  | [], _ => none
  | blank :: _, first :: rest =>
      if !isBlank blank || rest.contains '\n' then none
      else match splitMessages? rest with
        | some (success, fail) => some (automatic written (first :: success) fail)
        | none => some (automatic written (first :: rest) (failMessageFor (first :: rest)))

def read? (clause : Text) : Option Clause :=
  let text := trimLeft clause
  if startsLimit text then some limit
  else match text with
    | 'c' :: rest => readConfirm? rest
    | '!' :: rest => if allBlank rest then some maximized else none
    | _ =>
        if let some rest := after? "until".toList text then (readValue? rest).map target
        else if let some rest := after? "repeat".toList text then (readCount? rest).map repetition
        else if let some rest := after? "total".toList text then (readCount? rest).map total
        else if let some rest := after? "maximized".toList text then
          if allBlank rest then some maximized else none
        else if let some rest := after? "dc".toList (lowered (text.take 2) ++ text.drop 2) then
          (readValue? rest).map difficulty
        else if let some rest := after? "sf".toList text then readAutomatic? (trim clause) rest
        else none

end Clause

namespace Modifiers

/-- The modifiers with one more clause, unless a number in it is too long. -/
def withClause (modifiers : Modifiers) : Clause → Except Failure Modifiers
  | .limit => return modifiers
  | .confirm threat bonus => do
      let threat ← threat.elim (pure modifiers.threat) wholeNumber
      let confirmBonus ← bonus.elim (pure modifiers.confirmBonus) Numeral.read
      return { modifiers with
        confirm := true
        threat := threat
        confirmBonus := confirmBonus
        successMessage :=
          if modifiers.successMessage.isEmpty then "HIT".toList else modifiers.successMessage
        failMessage :=
          if modifiers.failMessage.isEmpty then "MISS".toList else modifiers.failMessage }
  | .target value => return { modifiers with target := ← value.read }
  | .repetition count => return { modifiers with repeatFor := ← wholeNumber count }
  | .total value => return { modifiers with total := ← wholeNumber value }
  | .maximized => return { modifiers with maximized := true }
  | .difficulty value => return { modifiers with difficulty := ← value.read }
  | .automatic written success fail =>
      return { modifiers with
        automatic := written, successMessage := success, failMessage := fail }

/-- The modifiers with one more clause, read from its text. A sum and a target cannot be
reached together. -/
def withText (modifiers : Modifiers) (clause : Text) : Except Failure Modifiers :=
  match Clause.read? clause with
  | none => refuse (.unknownModifier (trim clause))
  | some .limit => return modifiers
  | some read => do
      let modifiers ← modifiers.withClause read
      if modifiers.total ≠ 0 ∧ modifiers.target ≠ 0 then refuse .totalWithUntil
      else return modifiers

def needsSingleDie (modifiers : Modifiers) : Bool :=
  modifiers.confirm || !modifiers.automatic.isEmpty

def automaticMessages (modifiers : Modifiers) : Option (Text × Text) :=
  if modifiers.needsSingleDie then some (modifiers.successMessage, modifiers.failMessage) else none

def confirmSpecifier (modifiers : Modifiers) : Text :=
  'c' :: (if modifiers.threat = 0 then [] else ofNat modifiers.threat) ++
    if modifiers.confirmBonus = 0 then [] else signed modifiers.confirmBonus

end Modifiers

end TabletopDice
