import TabletopDice.Proofs.Expression.Tree
import TabletopDice.Proofs.Number.Faults

/-!
Feeding a derived row to the stack evaluates its parse tree. The operators that wait
while the row is fed are the right edge of the part of the tree read so far, so the
stack applies them in the order in which the tree is evaluated, and the first
failure is the same. This does not depend on where the numbers of the values come
from: they may be known beforehand or be rolled as the row is fed.
-/

namespace TabletopDice

/-- A failure of the arithmetic itself: a division by zero, or a number without an integer. -/
def Failure.IsArithmetic : Failure → Prop
  | .dice error => error = .divisionByZero
  | .number fault => fault.IsArithmetic

namespace Stack

/-- The outcome of a call, without the stack that a failure leaves behind. -/
def outcome {α : Type} (result : Except StackFault α) : Except Failure α :=
  result.mapError StackFault.failure

theorem outcome_bind {α β : Type} (result : Except StackFault α) (next : α → Except StackFault β) :
    outcome (result >>= next) = outcome result >>= fun value => outcome (next value) := by
  cases result <;> rfl

theorem outcome_pure {α : Type} (value : α) :
    outcome (pure value : Except StackFault α) = .ok value := rfl

def feedComponent (stack : Stack) (number : Operand) : Component → Except StackFault Stack
  | .constant _ _ | .die _ => .ok (stack.push number)
  | .operator op => stack.pushOperator op
  | .openGroup => .ok stack.openGroup
  | .closeGroup => stack.closeGroup
  | .label _ => .ok stack

/-- A row is fed from left to right. `numbers` gives the number of the value at each place, and
the row starts at `place`. -/
def feed (numbers : Nat → Operand) : Nat → List Component → Stack → Except StackFault Stack
  | _, [], stack => .ok stack
  | place, component :: row, stack => do
      feed numbers (place + 1) row (← stack.feedComponent (numbers place) component)

def total (numbers : Nat → Operand) (row : List Component) : Except Failure Int :=
  outcome do return (← (← feed numbers 0 row {}).evaluate).1

theorem feed_congr {first second : Nat → Operand} (row : List Component) {place : Nat}
    (same : ∀ later, place ≤ later → first later = second later) (stack : Stack) :
    feed first place row stack = feed second place row stack := by
  induction row generalizing place stack with
  | nil => rfl
  | cons component row ih =>
      simp only [feed, same place (Nat.le_refl _)]
      apply congrArg
      funext next
      exact ih (fun later after => same later (by omega)) next

/-- Applies the waiting operators that bind at least as tightly as `level`. -/
def settleTo (level : Nat) : List Operand → List Pending → Except StackFault Stack :=
  settle fun top => decide (level ≤ top.precedence)

theorem settle_all : settle (fun _ => true) = settleTo 0 := by
  funext values pending
  simp [settleTo]

def Looser (level : Nat) : List Pending → Prop
  | .operator op :: _ => op.precedence < level
  | _ => True

theorem settle_of_looser {level : Nat} {pending : List Pending} (looser : Looser level pending)
    (values : List Operand) : settleTo level values pending = .ok { values, pending } := by
  match pending with
  | [] => rfl
  | .group :: _ => rfl
  | .operator op :: _ =>
      have notBound : ¬level ≤ op.precedence := Nat.not_le.mpr looser
      simp [settleTo, settle, notBound]

theorem settle_negate {level : Nat} (bound : level ≤ Operator.negate.precedence)
    (value : Operand) (values : List Operand) (pending : List Pending) :
    settleTo level (value :: values) (.operator .negate :: pending) =
      settleTo level (value.neg :: values) pending := by
  simp [settleTo, settle, apply, bound]

theorem settle_binary {level : Nat} {op : Operator} (isBinary : op ≠ .negate)
    (bound : level ≤ op.precedence) (left right : Operand) (values : List Operand)
    (pending : List Pending) :
    outcome (settleTo level (right :: left :: values) (.operator op :: pending)) =
      combine op left right >>= fun result => outcome (settleTo level (result :: values) pending) := by
  simp only [settleTo, settle, bound, decide_true, if_true, apply, if_neg isBinary]
  cases combine op left right <;> rfl

theorem push_operator_of_binary {op : Operator} (isBinary : op ≠ .negate) (stack : Stack) :
    stack.pushOperator op = do
      let settled ← settleTo op.precedence stack.values stack.pending
      return { settled with pending := .operator op :: settled.pending } := by
  simp only [pushOperator, if_neg isBinary]
  rfl

theorem looser_mono {lower upper : Nat} {pending : List Pending} (looser : Looser lower pending)
    (bound : lower ≤ upper) : Looser upper pending := by
  match pending with
  | [] | .group :: _ => trivial
  | .operator op :: _ => exact Nat.lt_of_lt_of_le looser bound

theorem close_group_eq (stack : Stack) :
    stack.closeGroup = settleTo 0 stack.values stack.pending >>= fun settled =>
      match settled.pending with
      | [] => .error { failure := .dice (.groupNotOpened none), stack := settled }
      | _ :: pending => .ok { settled with pending } := by
  rw [closeGroup, settle_all]
  rfl

end Stack

/-- Where the numbers of values come from: a computation that may fail, and more. -/
structure Numbers (M : Type → Type) [Monad M] where
  /-- The number of the value at a place of a row. -/
  number : Nat → Component → M Operand
  lift : {Value : Type} → Except Failure Value → M Value
  lift_ok : ∀ {Value : Type} (value : Value), lift (.ok value) = pure value
  lift_bind : ∀ {Value Result : Type} (result : Except Failure Value)
    (next : Value → Except Failure Result),
      lift (result >>= next) = lift result >>= fun value => lift (next value)

namespace Numbers

open Stack

variable {M : Type → Type} [Monad M] (numbers : Numbers M)

def feedComponent (place : Nat) (stack : Stack) : Component → M Stack
  | .constant value label => do
      return stack.push (← numbers.number place (.constant value label))
  | .die group => do return stack.push (← numbers.number place (.die group))
  | .operator op => numbers.lift (outcome (stack.pushOperator op))
  | .openGroup => pure stack.openGroup
  | .closeGroup => numbers.lift (outcome stack.closeGroup)
  | .label _ => pure stack

def feed : Nat → List Component → Stack → M Stack
  | _, [], stack => pure stack
  | place, component :: row, stack => do
      feed (place + 1) row (← numbers.feedComponent place stack component)

def evaluate : Nat → Tree → M Operand
  | place, .constant value label => numbers.number place (.constant value label)
  | place, .die group => numbers.number place (.die group)
  | place, .negation operand => do return (← evaluate (place + 1) operand).neg
  | place, .binary op left right => do
      let first ← evaluate place left
      let second ← evaluate (place + left.flatten.length + 1) right
      numbers.lift (combine op first second)
  | place, .group inner _ => evaluate (place + 1) inner

variable [LawfulMonad M]

theorem feed_append (left right : List Component) (place : Nat) (stack : Stack) :
    numbers.feed place (left ++ right) stack =
      numbers.feed place left stack >>= numbers.feed (place + left.length) right := by
  induction left generalizing place stack with
  | nil => simp [feed]
  | cons component left ih =>
      simp only [List.cons_append, feed, List.length_cons, bind_assoc, ih]
      rw [Nat.add_right_comm, Nat.add_assoc]

theorem feed_close (place : Nat) (label : Option Text) (stack : Stack) :
    numbers.feed place (.closeGroup :: Component.ofLabel label) stack =
      numbers.lift (outcome stack.closeGroup) := by
  cases label with
  | none => exact bind_pure _
  | some text => simp [Component.ofLabel, feed, feedComponent]

/-- The waiting operators are applied up to a level right after the tree is fed: what is left is
as if the value of the tree had been pushed in one piece. -/
def SettlesAt (level place : Nat) (tree : Tree) (values : List Operand) (pending : List Pending) :
    Prop :=
  (numbers.feed place tree.flatten { values, pending } >>= fun stack =>
      numbers.lift (outcome (settleTo level stack.values stack.pending))) =
    numbers.evaluate place tree >>= fun value =>
      numbers.lift (outcome (settleTo level (value :: values) pending))

section Settling

variable {numbers} {level place : Nat} {values : List Operand} {pending : List Pending}

theorem settles_at_negation {operand : Tree} (bound : level ≤ Operator.negate.precedence)
    (inner : numbers.SettlesAt level (place + 1) operand values (.operator .negate :: pending)) :
    numbers.SettlesAt level place (.negation operand) values pending := by
  have waits : outcome (Stack.pushOperator { values, pending } .negate) =
      .ok { values, pending := .operator .negate :: pending } := rfl
  unfold SettlesAt at inner ⊢
  simp only [Tree.flatten, feed, feedComponent, waits, numbers.lift_ok, pure_bind, inner,
    settle_negate bound, evaluate, bind_assoc]

/-- The left operand is settled when the operator is pushed, and the right operand directly above
it. -/
theorem settles_at_binary {op : Operator} {left right : Tree} (isBinary : op ≠ .negate)
    (below : Looser op.precedence pending) (bound : level ≤ op.precedence)
    (first : numbers.SettlesAt op.precedence place left values pending)
    (second : ∀ value, numbers.SettlesAt level (place + left.flatten.length + 1) right
      (value :: values) (.operator op :: pending)) :
    numbers.SettlesAt level place (.binary op left right) values pending := by
  have settled (value : Operand) : outcome (settleTo op.precedence (value :: values) pending) =
      .ok { values := value :: values, pending } := by
    rw [settle_of_looser below]
    rfl
  unfold SettlesAt at first second ⊢
  simp only [settled] at first
  simp only [settle_binary isBinary bound, numbers.lift_bind] at second
  let next (settled : Stack) : M Stack :=
    numbers.feed (place + left.flatten.length + 1) right.flatten
        { settled with pending := .operator op :: settled.pending } >>= fun stack =>
      numbers.lift (outcome (settleTo level stack.values stack.pending))
  rw [Tree.flatten, feed_append]
  simp only [feed, feedComponent, push_operator_of_binary isBinary, outcome_bind, outcome_pure,
    numbers.lift_bind, numbers.lift_ok, pure_bind, bind_assoc]
  calc
    _ = (numbers.feed place left.flatten { values, pending } >>= fun stack =>
          numbers.lift (outcome (settleTo op.precedence stack.values stack.pending))) >>=
        next := by
      rw [bind_assoc]
    _ = numbers.evaluate place left >>= fun value =>
          next { values := value :: values, pending } := by
      simp only [first, bind_assoc, numbers.lift_ok, pure_bind]
    _ = _ := by
      simp only [evaluate, bind_assoc]
      exact congrArg _ (funext second)

/-- A group is settled down to its opening when it is closed. -/
theorem settles_at_group {inner : Tree} (label : Option Text)
    (closed : numbers.SettlesAt 0 (place + 1) inner values (.group :: pending)) :
    numbers.SettlesAt level place (.group inner label) values pending := by
  have settled (value : Operand) : outcome (settleTo 0 (value :: values) (.group :: pending)) =
      .ok { values := value :: values, pending := .group :: pending } := rfl
  unfold SettlesAt at closed ⊢
  simp only [settled, numbers.lift_ok] at closed
  let next (settled : Stack) : M Stack :=
    numbers.lift (outcome (match settled.pending with
      | [] => .error { failure := .dice (.groupNotOpened none), stack := settled }
      | _ :: pending => .ok { settled with pending })) >>= fun stack =>
      numbers.lift (outcome (settleTo level stack.values stack.pending))
  rw [Tree.flatten, feed]
  simp only [feedComponent, pure_bind, feed_append, feed_close, close_group_eq, outcome_bind,
    numbers.lift_bind, bind_assoc]
  calc
    _ = (numbers.feed (place + 1) inner.flatten { values, pending := .group :: pending } >>=
          fun stack => numbers.lift (outcome (settleTo 0 stack.values stack.pending))) >>=
        next := by
      rw [bind_assoc]
      rfl
    _ = numbers.evaluate (place + 1) inner >>= fun value =>
          next { values := value :: values, pending := .group :: pending } := by
      simp only [closed, bind_assoc, pure_bind]
    _ = _ := by
      simp only [evaluate]
      congr
      funext value
      change numbers.lift (.ok _) >>= _ = _
      rw [numbers.lift_ok, pure_bind]

end Settling

/-- A tree settles at every level that does not bind more tightly than the tree, if no operator
that waits below takes part of the tree. -/
theorem settle_feed_flatten {tree : Tree} (tiered : tree.IsTiered) (place : Nat)
    (values : List Operand) (pending : List Pending)
    (looser : tree.tier < Operator.negate.precedence → Looser tree.tier pending)
    {level : Nat} (bound : level ≤ tree.tier) :
    numbers.SettlesAt level place tree values pending := by
  induction tree generalizing place values pending level with
  | constant _ _ | die _ =>
      simp only [SettlesAt, Tree.flatten, feed, feedComponent, bind_assoc, pure_bind, evaluate, push]
  | negation operand ih =>
      obtain ⟨tieredOperand, unary⟩ := tiered
      exact settles_at_negation bound (ih tieredOperand _ _ _
        (fun binary => absurd unary (Nat.not_le.mpr binary)) (Nat.le_trans bound unary))
  | binary op left right ihLeft ihRight =>
      obtain ⟨isBinary, tieredLeft, tieredRight, looseLeft, tightRight⟩ := tiered
      have below : Looser op.precedence pending := looser (Tree.precedence_lt_negate isBinary)
      apply settles_at_binary isBinary below bound
      · exact ihLeft tieredLeft _ _ _ (fun _ => looser_mono below looseLeft) looseLeft
      · intro value
        -- The operator waits directly below the right operand, which binds more tightly.
        exact ihRight tieredRight _ (value :: values) (.operator op :: pending)
          (fun _ => tightRight) (Nat.le_trans bound (Nat.le_of_lt tightRight))
  | group inner label ih =>
      exact settles_at_group label
        (ih tiered (place + 1) values (.group :: pending) (fun _ => trivial) (Nat.zero_le _))

end Numbers

namespace Stack

/-- The end of an evaluation, when no operator waits above an open group. -/
def conclude (settled : Stack) : Except StackFault (Int × Stack) :=
  match settled with
  | { values := _, pending := _ :: _ } =>
      .error { failure := .dice (.groupNotClosed none), stack := settled }
  | { values := [value], pending := [] } =>
      match value.truncate with
      | .ok total => .ok (total, settled)
      | .error fault => .error { failure := .number fault, stack := settled }
  | { values, pending := [] } =>
      .error { failure := .dice (.stackLeftover values.length), stack := settled }

theorem evaluate_eq (stack : Stack) :
    stack.evaluate = settleTo 0 stack.values stack.pending >>= conclude := by
  rw [evaluate, settle_all]
  rfl

theorem evaluate_feed_flatten {M : Type → Type} [Monad M] [LawfulMonad M] (numbers : Numbers M)
    {tree : Tree} (tiered : tree.IsTiered) :
    (numbers.feed 0 tree.flatten {} >>= fun stack =>
        numbers.lift (Prod.fst <$> outcome stack.evaluate)) =
      numbers.evaluate 0 tree >>= fun value => numbers.lift (value.truncate.mapError .number) := by
  have fed := numbers.settle_feed_flatten tiered 0 [] [] (fun _ => trivial) (Nat.zero_le _)
  unfold Numbers.SettlesAt at fed
  have settled (value : Operand) : outcome (settleTo 0 [value] []) = .ok { values := [value] } := rfl
  have concluded (value : Operand) :
      Prod.fst <$> outcome (conclude { values := [value] }) = value.truncate.mapError .number := by
    simp only [conclude]
    cases value.truncate <;> rfl
  calc
    _ = (numbers.feed 0 tree.flatten {} >>= fun stack =>
          numbers.lift (outcome (settleTo 0 stack.values stack.pending))) >>= fun settled =>
        numbers.lift (Prod.fst <$> outcome (conclude settled)) := by
      simp only [evaluate_eq, outcome_bind, map_bind, numbers.lift_bind, bind_assoc]
    _ = _ := by
      simp only [fed, settled, numbers.lift_ok, concluded, bind_assoc, pure_bind]

def assigned (numbers : Nat → Operand) : Numbers (Except Failure) where
  number place _ := .ok (numbers place)
  lift result := result
  lift_ok _ := rfl
  lift_bind _ _ := rfl

theorem outcome_feed (numbers : Nat → Operand) (row : List Component) (place : Nat) (stack : Stack) :
    outcome (feed numbers place row stack) = (assigned numbers).feed place row stack := by
  induction row generalizing place stack with
  | nil => rfl
  | cons component row ih =>
      rw [feed, Numbers.feed, outcome_bind]
      simp only [ih]
      congr
      cases component <;> rfl

theorem evaluate_assigned (numbers : Nat → Operand) (tree : Tree) (place : Nat) :
    (assigned numbers).evaluate place tree = tree.evaluate numbers place := by
  induction tree generalizing place with
  | constant value label => rfl
  | die group => rfl
  | negation operand ih => rw [Numbers.evaluate, Tree.evaluate, ih]
  | binary op left right ihLeft ihRight =>
      simp only [Numbers.evaluate, Tree.evaluate, ihLeft, ihRight]
      rfl
  | group inner label ih => rw [Numbers.evaluate, Tree.evaluate, ih]

theorem total_flatten (numbers : Nat → Operand) {tree : Tree} (tiered : tree.IsTiered) :
    total numbers tree.flatten = tree.total numbers := by
  have evaluated := evaluate_feed_flatten (assigned numbers) tiered
  rw [← outcome_feed, evaluate_assigned] at evaluated
  refine Eq.trans ?_ evaluated
  rw [total, outcome_bind]
  congr
  funext stack
  cases stack.evaluate <;> rfl

theorem whole_fails_only {result : Except NumberFault Int}
    (only : FailsOnly NumberFault.IsArithmetic result) :
    FailsOnly Failure.IsArithmetic (whole result) := by
  cases result with
  | ok value => exact fails_only_ok _
  | error fault => exact fails_only_error (only fault rfl)

theorem combine_fails_only (op : Operator) (left right : Operand) :
    FailsOnly Failure.IsArithmetic (combine op left right) := by
  cases op with
  | add | subtract | multiply => exact whole_fails_only (Operand.arithmetic_fails_only _ _ left right)
  | divide =>
      simp only [combine]
      split
      · exact fails_only_error rfl
      · exact whole_fails_only (Operand.div_fails_only left right)
  | atMost | atLeast | negate => exact fails_only_ok _

end Stack

theorem Tree.evaluate_fails_only (numbers : Nat → Operand) (tree : Tree) (place : Nat) :
    FailsOnly Failure.IsArithmetic (tree.evaluate numbers place) := by
  induction tree generalizing place with
  | constant value label => exact fails_only_ok _
  | die group => exact fails_only_ok _
  | negation operand ih =>
      exact fails_only_bind (ih (place + 1)) fun value => fails_only_ok _
  | binary op left right ihLeft ihRight =>
      apply fails_only_bind (ihLeft place)
      intro first
      apply fails_only_bind (ihRight _)
      intro second
      exact Stack.combine_fails_only op first second
  | group inner label ih => exact ih (place + 1)

theorem Tree.total_fails_only (numbers : Nat → Operand) (tree : Tree) :
    FailsOnly Failure.IsArithmetic (tree.total numbers) := by
  apply fails_only_bind (tree.evaluate_fails_only numbers 0)
  intro value
  exact fails_only_map_error (Operand.truncate_fails_only value) fun _ arithmetic => arithmetic

/-- A derived row on the stack never underflows, never leaves numbers over, and never meets a
group that is not open or not closed. -/
theorem Stack.total_fails_only {row : List Component} (derived : Derives .expression row)
    (numbers : Nat → Operand) : FailsOnly Failure.IsArithmetic (Stack.total numbers row) := by
  obtain ⟨tree, tiered, rfl, -⟩ := Tree.exists_tree derived
  rw [Stack.total_flatten numbers tiered]
  exact tree.total_fails_only numbers

end TabletopDice
