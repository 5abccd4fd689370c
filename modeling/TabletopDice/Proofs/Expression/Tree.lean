import TabletopDice.Expression.Stack
import TabletopDice.Proofs.Expression.Grammar

/-!
Parse trees of component rows. In a tree that respects the tiers, the operand of a
negation is no binary operation, the left operand of a binary operator binds at
least as tightly as the operator, and the right one more tightly: each tier
associates to the left. Every row that the grammar derives has such a tree.
-/

namespace TabletopDice

inductive Tree
  | constant (value : Double) (label : Text)
  | die (group : DieGroup)
  | negation (operand : Tree)
  | binary (op : Operator) (left right : Tree)
  | group (inner : Tree) (label : Option Text)
  deriving DecidableEq, Repr

namespace Tree

def flatten : Tree → List Component
  | constant value label => [.constant value label]
  | die dice => [.die dice]
  | negation operand => .operator .negate :: operand.flatten
  | binary op left right => left.flatten ++ .operator op :: right.flatten
  | group inner label => .openGroup :: (inner.flatten ++ .closeGroup :: Component.ofLabel label)

/-- How tightly the outermost operator binds. What has no binary operator outside of
parentheses binds as tightly as negation. -/
def tier : Tree → Nat
  | binary op _ _ => op.precedence
  | _ => Operator.negate.precedence

/-- The tree nests its operators by their tiers, and those of one tier to the left. -/
def IsTiered : Tree → Prop
  | constant _ _ | die _ => True
  | negation operand => operand.IsTiered ∧ Operator.negate.precedence ≤ operand.tier
  | binary op left right =>
      op ≠ .negate ∧ left.IsTiered ∧ right.IsTiered ∧
        op.precedence ≤ left.tier ∧ op.precedence < right.tier
  | group inner _ => inner.IsTiered

/-- The value of the tree from left to right and from the leaves up. `numbers` gives the number
of the value at each place of a row, and the tree starts at `place`. -/
def evaluate (numbers : Nat → Operand) : Nat → Tree → Except Failure Operand
  | place, constant _ _ => .ok (numbers place)
  | place, die _ => .ok (numbers place)
  | place, negation operand => do return (← operand.evaluate numbers (place + 1)).neg
  | place, binary op left right => do
      let first ← left.evaluate numbers place
      let second ← right.evaluate numbers (place + left.flatten.length + 1)
      Stack.combine op first second
  | place, group inner _ => inner.evaluate numbers (place + 1)

def total (numbers : Nat → Operand) (tree : Tree) : Except Failure Int := do
  (← tree.evaluate numbers 0).truncate.mapError .number

/-- The tree with one more operator and operand behind it. The operator takes what binds at
least as tightly on the right edge of the tree. -/
def extend (op : Operator) (operand : Tree) : Tree → Tree
  | binary other left right =>
      if other.precedence < op.precedence then binary other left (extend op operand right)
      else binary op (binary other left right) operand
  | tree => binary op tree operand

theorem flatten_extend (op : Operator) (operand tree : Tree) :
    (extend op operand tree).flatten = tree.flatten ++ .operator op :: operand.flatten := by
  induction tree with
  | binary other left right _ ih =>
      simp only [extend]
      split
      · simp only [flatten, ih, List.append_assoc, List.cons_append]
      · rfl
  | _ => rfl

theorem precedence_lt_negate {op : Operator} (isBinary : op ≠ .negate) :
    op.precedence < Operator.negate.precedence := by
  cases op with
  | negate => exact absurd rfl isBinary
  | _ => decide

/-- The outermost operator is the new one, unless the old one binds less tightly. -/
theorem tier_extend (op : Operator) (operand tree : Tree) :
    min op.precedence tree.tier ≤ (extend op operand tree).tier := by
  cases tree with
  | binary other left right =>
      simp only [extend]
      split
      · exact Nat.min_le_right _ _
      · exact Nat.min_le_left _ _
  | _ => exact Nat.min_le_left _ _

theorem tiered_extend {op : Operator} (isBinary : op ≠ .negate) {operand tree : Tree}
    (tiered : tree.IsTiered) (tieredOperand : operand.IsTiered)
    (unary : Operator.negate.precedence ≤ operand.tier) :
    (extend op operand tree).IsTiered := by
  have tight : op.precedence < operand.tier :=
    Nat.lt_of_lt_of_le (precedence_lt_negate isBinary) unary
  induction tree with
  | binary other left right _ ih =>
      obtain ⟨otherBinary, tieredLeft, tieredRight, looseLeft, looseRight⟩ := tiered
      simp only [extend]
      split
      next looser =>
        refine ⟨otherBinary, tieredLeft, ih tieredRight, looseLeft, ?_⟩
        have bound := tier_extend op operand right
        omega
      next notLooser =>
        refine ⟨isBinary, ⟨otherBinary, tieredLeft, tieredRight, looseLeft, looseRight⟩,
          tieredOperand, ?_, tight⟩
        exact Nat.le_of_not_lt notLooser
  | _ => exact ⟨isBinary, tiered, tieredOperand, Nat.le_of_lt (precedence_lt_negate isBinary), tight⟩

/-- Every derived row is the row of a tree that respects the tiers; without a binary operator
outside of parentheses, unless it is a whole expression. -/
theorem exists_tree {phrase : Phrase} {row : List Component} (derived : Derives phrase row) :
    ∃ tree : Tree, tree.IsTiered ∧ tree.flatten = row ∧
      (phrase ≠ .expression → Operator.negate.precedence ≤ tree.tier) := by
  induction derived with
  | constant value label => exact ⟨constant value label, trivial, rfl, fun _ => Nat.le_refl _⟩
  | die dice => exact ⟨die dice, trivial, rfl, fun _ => Nat.le_refl _⟩
  | group _ label ih =>
      obtain ⟨tree, tiered, rfl, -⟩ := ih
      exact ⟨group tree label, tiered, rfl, fun _ => Nat.le_refl _⟩
  | term _ ih =>
      obtain ⟨tree, tiered, rfl, unary⟩ := ih
      exact ⟨tree, tiered, rfl, fun _ => unary (by decide)⟩
  | negation _ ih =>
      obtain ⟨tree, tiered, rfl, unary⟩ := ih
      exact ⟨negation tree, ⟨tiered, unary (by decide)⟩, rfl, fun _ => Nat.le_refl _⟩
  | operand _ ih =>
      obtain ⟨tree, tiered, rfl, -⟩ := ih
      exact ⟨tree, tiered, rfl, fun other => absurd rfl other⟩
  | @binary _ _ op _ isBinary _ ih ihOperand =>
      obtain ⟨tree, tiered, rfl, -⟩ := ih
      obtain ⟨operand, tieredOperand, rfl, unary⟩ := ihOperand
      exact ⟨extend op operand tree, tiered_extend isBinary tiered tieredOperand (unary (by decide)),
        flatten_extend op operand tree, fun other => absurd rfl other⟩

end Tree

end TabletopDice
