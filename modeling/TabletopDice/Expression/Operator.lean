import TabletopDice.Text.Basic

/-!
The operators of an expression. Negation stands in front of its operand and binds
tightest; then come the two clamps, then multiplication and division, then
addition and subtraction.
-/

namespace TabletopDice

inductive Operator
  | add
  | subtract
  | multiply
  | divide
  | atMost
  | atLeast
  | negate
  deriving DecidableEq, Repr

namespace Operator

def precedence : Operator → Nat
  | add | subtract => 1
  | multiply | divide => 2
  | atMost | atLeast => 3
  | negate => 4

/-- The glyph shown to users; negation shows as a plain minus. -/
def symbol : Operator → Char
  | add => '+'
  | subtract | negate => '-'
  | multiply => '×'
  | divide => '÷'
  | atMost => '≤'
  | atLeast => '≥'

def ofGlyph? : Char → Option Operator
  | '+' => some add
  | '-' => some subtract
  | '*' | '×' => some multiply
  | '÷' => some divide
  | '≤' => some atMost
  | '≥' => some atLeast
  | _ => none

theorem ofGlyph_symbol {operator : Operator} (binary : operator ≠ negate) :
    ofGlyph? operator.symbol = some operator := by
  cases operator <;> simp_all [symbol, ofGlyph?]

end Operator

end TabletopDice
