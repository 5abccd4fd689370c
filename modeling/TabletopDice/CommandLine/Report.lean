import TabletopDice.Fragment
import TabletopDice.Json.Printer
import TabletopDice.Source

/-!
Results for the command line, as lines of text or as JSON.
-/

namespace TabletopDice

abbrev ResultSet := Text × List RollResult

namespace RollResult

def line (result : RollResult) : Text :=
  if result.invalid then "**INVALID DIE ROLL**".toList
  else if result.suppressed then "**RESULT HIDDEN**".toList
  else renderFragments result.details

def toJson (result : RollResult) : Json :=
  .object [
    ("suppressed".toList, .bool result.suppressed),
    ("invalid".toList, .bool result.invalid),
    ("total".toList, .integer result.total),
    ("details".toList, .array (result.details.map fun fragment => .object [
      ("type".toList, .string fragment.kind.name), ("value".toList, .string fragment.value)]))]

end RollResult

/-- A seed as JSON; a blank one is an empty array. -/
def Seed.toJson : Seed → Json
  | number value => .integer value
  | blank => .array []

namespace ResultSet

/-- Several results are numbered. -/
def resultLines (results : List RollResult) : List Text :=
  match results with
  | [result] => [result.line]
  | results => results.mapIdx fun index result =>
      "Roll #".toList ++ Text.ofNat (index + 1) ++ [':', ' '] ++ result.line

def report (set : ResultSet) : Text :=
  let title := if set.1.isEmpty then [] else ["** ".toList ++ set.1 ++ " **".toList]
  (title ++ resultLines set.2).flatMap fun line => line ++ ['\n']

def toJson (seed : Option Seed) (set : ResultSet) : Json :=
  .object (("results".toList, .array (set.2.map RollResult.toJson)) ::
    (if set.1.isEmpty then [] else [("title".toList, Json.string set.1)]) ++
    (seed.map fun seed => ("seed".toList, seed.toJson)).toList)

end ResultSet

def reportJson (seed : Option Seed) (sets : List ResultSet) : Json :=
  .object [("result_set".toList, .array (sets.map (ResultSet.toJson seed)))]

end TabletopDice
