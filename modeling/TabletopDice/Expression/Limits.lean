import TabletopDice.Error
import TabletopDice.Expression.Label
import TabletopDice.Text.Numeral

/-!
Limits on the result of an expression, written behind it as `| min n` and `| max n`.
Of two limits of one kind the later counts. A limit of zero is no limit.
-/

namespace TabletopDice

open Text

structure Limits where
  minimum : Int := 0
  maximum : Int := 0
  deriving DecidableEq, Repr

/-- A whole number in front, with an optional sign, and what follows it. -/
def readInteger? (text : Text) : Option (Numeral × Text) :=
  let (negative, rest) := splitSign text
  match spanDigits rest with
  | ([], _) => none
  | (digits, rest) => some ({ negative, digits }, rest)

def readLimit? (keyword clause : Text) : Option Numeral := do
  let rest ← after? keyword (trimLeft clause)
  let (numeral, rest) ← readInteger? (trimLeft rest)
  if allBlank rest then some numeral else none

namespace Limits

def withClause (limits : Limits) (clause : Text) : Except Failure Limits :=
  match readLimit? ['m', 'i', 'n'] clause with
  | some numeral => return { limits with minimum := ← numeral.read }
  | none => match readLimit? ['m', 'a', 'x'] clause with
    | some numeral => return { limits with maximum := ← numeral.read }
    | none => refuse (.unknownLimit (trim clause))

/-- The total within the limits. Only limits above zero apply, the minimum last. -/
def clamp (limits : Limits) (total : Int) : Int :=
  let total := if 0 < limits.maximum ∧ limits.maximum < total then limits.maximum else total
  if 0 < limits.minimum ∧ total < limits.minimum then limits.minimum else total

def toText (limits : Limits) : Text :=
  (if limits.minimum = 0 then [] else "|min ".toList ++ ofInt limits.minimum) ++
    if limits.maximum = 0 then [] else "|max ".toList ++ ofInt limits.maximum

end Limits

def splitLimits (text : Text) : Except Failure (Text × Limits) :=
  match splitOn '|' text with
  | [] => return (text, {})
  | expression :: clauses => return (expression, ← clauses.foldlM Limits.withClause {})

end TabletopDice
