import Mathlib.Data.List.Perm.Subperm
import TabletopDice.Proofs.Expression.Evaluation

/-!
The operators that wait on a stack. Calls may come in any order, and each may fail and leave the
stack half reduced; still every binary operator binds more tightly than the one it stands on, and
only negations stand on a negation, unless a group is opened in between. Nothing more can be
said: every such row of operators is left by some calls.
-/

namespace TabletopDice

/-- From bottom to top: binary operators, each of which binds more tightly than the ones below it,
and then only negations. -/
def Operator.AreTiered (operators : List Operator) : Prop :=
  ∃ binary negations, operators = binary ++ List.replicate negations .negate ∧
    (∀ op ∈ binary, op ≠ .negate) ∧
    binary.Pairwise fun lower upper => lower.precedence < upper.precedence

/-- The first may stand directly on the second. A group can be opened on everything, and every
operator can be the first one of a group. -/
def Pending.StandsOn : Pending → Pending → Prop
  | .operator upper, .operator lower => upper = .negate ∨ lower.precedence < upper.precedence
  | _, _ => True

namespace Operator

theorem precedence_le_negate (op : Operator) : op.precedence ≤ negate.precedence := by
  cases op <;> decide

theorem eq_negate_of_above {upper : Operator}
    (above : upper = negate ∨ negate.precedence < upper.precedence) : upper = negate :=
  above.resolve_right (Nat.not_lt.mpr upper.precedence_le_negate)

theorem tiered_of_chain {operators : List Operator}
    (chain : operators.IsChain fun lower upper =>
      upper = negate ∨ lower.precedence < upper.precedence) : AreTiered operators := by
  induction operators with
  | nil => exact ⟨[], 0, rfl, fun _ member => absurd member List.not_mem_nil, .nil⟩
  | cons op operators ih =>
      obtain ⟨binary, negations, rfl, isBinary, tighter⟩ := ih chain.tail
      by_cases negates : op = negate
      · subst negates
        cases binary with
        | nil => exact ⟨[], negations + 1, rfl, isBinary, tighter⟩
        | cons next binary =>
            have above := eq_negate_of_above (List.isChain_cons_cons.mp chain).1
            exact absurd above (isBinary next List.mem_cons_self)
      · refine ⟨op :: binary, negations, rfl,
          List.forall_mem_cons.mpr ⟨negates, isBinary⟩, List.pairwise_cons.mpr ⟨?_, tighter⟩⟩
        cases binary with
        | nil => exact fun _ member => absurd member List.not_mem_nil
        | cons next binary =>
            have first : op.precedence < next.precedence :=
              (List.isChain_cons_cons.mp chain).1.resolve_left (isBinary next List.mem_cons_self)
            refine List.forall_mem_cons.mpr ⟨first, fun later member => ?_⟩
            exact Nat.lt_trans first ((List.pairwise_cons.mp tighter).1 later member)

/-- There are three tiers of binary operators, so no more than three of them can wait. -/
theorem count_binary_of_tiered {operators : List Operator} (tiered : AreTiered operators) :
    operators.countP (· ≠ negate) ≤ 3 := by
  obtain ⟨binary, negations, rfl, isBinary, tighter⟩ := tiered
  have distinct : (binary.map precedence).Nodup :=
    List.Pairwise.map _ (fun _ _ => Nat.ne_of_lt) tighter
  have tiers : binary.map precedence ⊆ [1, 2, 3] := by
    intro tier member
    obtain ⟨op, among, rfl⟩ := List.mem_map.mp member
    have binaryOp := isBinary op among
    cases op <;> simp_all [precedence]
  have few : binary.length ≤ 3 := by
    rw [← List.length_map precedence]
    exact (List.subperm_of_subset distinct tiers).length_le
  have none : (List.replicate negations negate).countP (· ≠ negate) = 0 := by
    rw [List.countP_replicate]
    rfl
  rw [List.countP_append, none]
  exact Nat.le_trans List.countP_le_length few

end Operator

namespace Stack

inductive Call
  | push (value : Operand)
  | pushOperator (op : Operator)
  | openGroup
  | closeGroup
  | evaluate
  deriving DecidableEq, Repr

def leftBy : Except StackFault Stack → Stack
  | .ok stack => stack
  | .error fault => fault.stack

def Call.run (stack : Stack) : Call → Stack
  | push value => stack.push value
  | pushOperator op => leftBy (stack.pushOperator op)
  | openGroup => stack.openGroup
  | closeGroup => leftBy stack.closeGroup
  | evaluate => leftBy (Prod.snd <$> stack.evaluate)

def afterCalls (calls : List Call) : Stack := calls.foldl Call.run {}

def IsOrdered (pending : List Pending) : Prop := pending.IsChain Pending.StandsOn

section Settling

variable {level : Nat} {values : List Operand} {pending : List Pending} {settled : Stack}

/-- Operators are only ever taken from the top, as far as the applying gets. -/
theorem settled_is_suffix (level : Nat) (values : List Operand) (pending : List Pending) :
    (leftBy (settleTo level values pending)).pending <:+ pending := by
  unfold settleTo
  induction pending generalizing values with
  | nil => exact List.suffix_refl _
  | cons top pending ih =>
      cases top with
      | group => exact List.suffix_refl _
      | operator op =>
          unfold settle
          split
          · split
            · exact (ih _).trans (List.suffix_cons _ _)
            · exact List.suffix_cons _ _
          · exact List.suffix_refl _

theorem looser_of_settle (done : settleTo level values pending = .ok settled) :
    Looser level settled.pending := by
  unfold settleTo at done
  induction pending generalizing values with
  | nil =>
      cases done
      trivial
  | cons top pending ih =>
      cases top with
      | group =>
          cases done
          trivial
      | operator op =>
          unfold settle at done
          split at done
          · split at done
            · exact ih done
            · cases done
          next loose =>
            cases done
            exact Nat.not_le.mp (by simpa using loose)

theorem ordered_of_settle_bind {next : Stack → Except StackFault Stack} (ordered : IsOrdered pending)
    (kept : ∀ settled, settleTo level values pending = .ok settled → IsOrdered settled.pending →
      IsOrdered (leftBy (next settled)).pending) :
    IsOrdered (leftBy (settleTo level values pending >>= next)).pending := by
  have applied := List.IsChain.suffix ordered (settled_is_suffix level values pending)
  cases done : settleTo level values pending with
  | error fault =>
      rw [done] at applied
      exact applied
  | ok settled =>
      rw [done] at applied
      exact kept settled done applied

theorem left_by_conclude (settled : Stack) : leftBy (Prod.snd <$> conclude settled) = settled := by
  unfold conclude
  split
  · rfl
  · split <;> rfl
  · rfl

theorem ordered_push_iff {op : Operator} : IsOrdered (.operator op :: pending) ↔
    (op = .negate ∨ Looser op.precedence pending) ∧ IsOrdered pending := by
  match pending with
  | [] => exact iff_of_true (List.isChain_singleton _) ⟨.inr trivial, List.isChain_nil⟩
  | .group :: _ =>
      exact List.isChain_cons_cons.trans
        (and_congr_left fun _ => iff_of_true trivial (.inr trivial))
  | .operator _ :: _ => exact List.isChain_cons_cons

theorem ordered_open_group (ordered : IsOrdered pending) : IsOrdered (.group :: pending) :=
  List.isChain_cons.mpr ⟨fun _ _ => trivial, ordered⟩

end Settling

section Calls

variable {stack : Stack}

theorem ordered_push_operator (op : Operator) (ordered : IsOrdered stack.pending) :
    IsOrdered (leftBy (stack.pushOperator op)).pending := by
  by_cases negates : op = .negate
  · subst negates
    exact ordered_push_iff.mpr ⟨.inl rfl, ordered⟩
  · rw [push_operator_of_binary negates]
    refine ordered_of_settle_bind ordered fun settled done kept => ?_
    exact ordered_push_iff.mpr ⟨.inr (looser_of_settle done), kept⟩

theorem ordered_close_group (ordered : IsOrdered stack.pending) :
    IsOrdered (leftBy stack.closeGroup).pending := by
  rw [close_group_eq]
  refine ordered_of_settle_bind ordered fun settled _ kept => ?_
  obtain ⟨values, pending⟩ := settled
  cases pending with
  | nil => exact List.isChain_nil
  | cons _ pending => exact List.IsChain.tail kept

theorem ordered_evaluate (ordered : IsOrdered stack.pending) :
    IsOrdered (leftBy (Prod.snd <$> stack.evaluate)).pending := by
  rw [evaluate_eq, map_bind]
  refine ordered_of_settle_bind ordered fun settled _ kept => ?_
  rw [left_by_conclude]
  exact kept

theorem ordered_call (call : Call) (ordered : IsOrdered stack.pending) :
    IsOrdered (call.run stack).pending := by
  cases call with
  | push value => exact ordered
  | pushOperator op => exact ordered_push_operator op ordered
  | openGroup => exact ordered_open_group ordered
  | closeGroup => exact ordered_close_group ordered
  | evaluate => exact ordered_evaluate ordered

theorem ordered_after_calls (calls : List Call) : IsOrdered (afterCalls calls).pending := by
  have run (stack : Stack) (ordered : IsOrdered stack.pending) :
      IsOrdered (calls.foldl Call.run stack).pending := by
    induction calls generalizing stack with
    | nil => exact ordered
    | cons call calls ih => exact ih _ (ordered_call call ordered)
  exact run {} List.isChain_nil

/-- The order is all that calls have to keep: whatever keeps it can be left waiting. -/
theorem exists_calls_iff {pending : List Pending} :
    (∃ calls, (afterCalls calls).pending = pending) ↔ IsOrdered pending := by
  constructor
  · rintro ⟨calls, rfl⟩
    exact ordered_after_calls calls
  · intro ordered
    induction pending with
    | nil => exact ⟨[], rfl⟩
    | cons top pending ih =>
        obtain ⟨calls, rfl⟩ := ih (List.IsChain.tail ordered)
        cases top with
        | group =>
            refine ⟨calls ++ [.openGroup], ?_⟩
            rw [afterCalls, List.foldl_concat]
            rfl
        | operator op =>
            refine ⟨calls ++ [.pushOperator op], ?_⟩
            rw [afterCalls, List.foldl_concat, ← afterCalls]
            generalize afterCalls calls = stack at ordered ⊢
            by_cases negates : op = .negate
            · subst negates
              rfl
            · -- Nothing that waits is applied, since the operator binds more tightly.
              have looser := (ordered_push_iff.mp ordered).1.resolve_left negates
              rw [Call.run, push_operator_of_binary negates, settle_of_looser looser]
              rfl

end Calls

/-- After any calls, failed ones among them, the operators between two open groups are from bottom
to top binary operators that bind ever more tightly, at most three of them, and then negations. -/
theorem waiting_operators_are_tiered (calls : List Call) {operators : List Operator}
    (together : operators.map Pending.operator <:+: (afterCalls calls).pending.reverse) :
    Operator.AreTiered operators ∧ operators.countP (· ≠ .negate) ≤ 3 := by
  have ordered : (afterCalls calls).pending.reverse.IsChain fun lower upper =>
      upper.StandsOn lower := List.isChain_reverse.mpr (ordered_after_calls calls)
  have segment := List.IsChain.infix ordered together
  have chain : operators.IsChain fun lower upper =>
      upper = .negate ∨ lower.precedence < upper.precedence :=
    (List.isChain_map _).mp segment
  have tiered := Operator.tiered_of_chain chain
  exact ⟨tiered, Operator.count_binary_of_tiered tiered⟩

/-- All three tiers and two negations wait in an open group, after an operator without operands and
an evaluation inside the group have failed. -/
theorem waiting_operators_are_tiered_of_full_group :
    let calls : List Call := [.pushOperator .atLeast, .pushOperator .add, .pushOperator .negate,
      .openGroup, .push (.int 3), .evaluate, .pushOperator .subtract, .pushOperator .divide,
      .pushOperator .atMost, .pushOperator .negate, .pushOperator .negate]
    let operators : List Operator := [.subtract, .divide, .atMost, .negate, .negate]
    operators.map Pending.operator <:+: (afterCalls calls).pending.reverse ∧
      Operator.AreTiered operators ∧ operators.countP (· ≠ .negate) ≤ 3 := by
  intro calls operators
  have together : operators.map Pending.operator <:+: (afterCalls calls).pending.reverse :=
    ⟨[.operator .negate, .group], [], by decide⟩
  exact ⟨together, waiting_operators_are_tiered calls together⟩

end Stack

end TabletopDice
