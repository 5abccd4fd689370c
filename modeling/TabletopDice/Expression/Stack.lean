import TabletopDice.Error
import TabletopDice.Expression.Operator

/-!
Evaluation by operator precedence on two stacks: the operands, and the operators
that still wait for one. A waiting operator is applied as soon as a later one
binds no tighter; negation stands in front of its operand and applies nothing.
A call that fails leaves the stack as far as it had come.
-/

namespace TabletopDice

inductive Pending
  | operator (op : Operator)
  | group
  deriving DecidableEq, Repr

/-- Operands and waiting operators, the top of each first. -/
structure Stack where
  values : List Operand := []
  pending : List Pending := []
  deriving DecidableEq, Repr

/-- A call that failed, with the stack that it left. -/
structure StackFault where
  failure : Failure
  stack : Stack
  deriving DecidableEq, Repr

namespace Stack

def whole : Except NumberFault Int → Except Failure Operand
  | .ok value => .ok (.int value)
  | .error fault => .error (.number fault)

def combine (op : Operator) (left right : Operand) : Except Failure Operand :=
  match op with
  | .add => whole (left.add right)
  | .subtract => whole (left.sub right)
  | .multiply => whole (left.mul right)
  | .divide => if right.isZero then .error (.dice .divisionByZero) else whole (left.div right)
  | .atMost => .ok (left.atMost right)
  | .atLeast => .ok (left.atLeast right)
  | .negate => .ok right.neg

/-- Takes the operands of an operator from the stack, the right one first, and pushes the
result. On failure the operands taken so far are gone. -/
def apply (op : Operator) : List Operand → Except (Failure × List Operand) (List Operand)
  | [] => .error (.dice .stackUnderflow, [])
  | right :: values =>
      if op = .negate then .ok (right.neg :: values)
      else match values with
        | [] => .error (.dice .stackUnderflow, [])
        | left :: values =>
            match combine op left right with
            | .ok result => .ok (result :: values)
            | .error failure => .error (failure, values)

/-- Applies waiting operators from the top of their stack for as long as `binds` holds of
them, at most down to an open group. -/
def settle (binds : Operator → Bool) (values : List Operand) :
    List Pending → Except StackFault Stack
  | [] => .ok { values, pending := [] }
  | .group :: pending => .ok { values, pending := .group :: pending }
  | .operator op :: pending =>
      if binds op then
        match apply op values with
        | .ok values => settle binds values pending
        | .error (failure, values) => .error { failure, stack := { values, pending } }
      else .ok { values, pending := .operator op :: pending }

def push (stack : Stack) (value : Operand) : Stack :=
  { stack with values := value :: stack.values }

/-- Lets an operator wait, after the operators that bind at least as tightly are applied. -/
def pushOperator (stack : Stack) (op : Operator) : Except StackFault Stack := do
  let settled ←
    if op = .negate then pure stack
    else settle (fun top => decide (op.precedence ≤ top.precedence)) stack.values stack.pending
  return { settled with pending := .operator op :: settled.pending }

def openGroup (stack : Stack) : Stack := { stack with pending := .group :: stack.pending }

def closeGroup (stack : Stack) : Except StackFault Stack := do
  let settled ← settle (fun _ => true) stack.values stack.pending
  match settled.pending with
  | [] => throw { failure := .dice (.groupNotOpened none), stack := settled }
  | _ :: pending => return { settled with pending }

/-- Applies all operators and gives the one number that is left, without its fraction. -/
def evaluate (stack : Stack) : Except StackFault (Int × Stack) := do
  let settled ← settle (fun _ => true) stack.values stack.pending
  match settled with
  | { values := _, pending := _ :: _ } =>
      throw { failure := .dice (.groupNotClosed none), stack := settled }
  | { values := [value], pending := [] } =>
      match value.truncate with
      | .ok total => return (total, settled)
      | .error fault => throw { failure := .number fault, stack := settled }
  | { values, pending := [] } =>
      throw { failure := .dice (.stackLeftover values.length), stack := settled }

end Stack

end TabletopDice
