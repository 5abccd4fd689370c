import TabletopDice.Proofs.Expression.Evaluation
import TabletopDice.Proofs.Number.Quotient

/-!
Expressions over integers. The stack divides integers by way of doubles, and yet it gives the
value of the tree in exact integers, with quotients rounded toward minus infinity, as long as no
number in the tree exceeds 2⁵³ and no divisor is zero.
-/

namespace TabletopDice

/-- The operation in exact integers. A quotient is rounded toward minus infinity. -/
def Operator.exact : Operator → Int → Int → Int
  | add, left, right => left + right
  | subtract, left, right => left - right
  | multiply, left, right => left * right
  | divide, left, right => left.fdiv right
  | atMost, left, right => min left right
  | atLeast, left, right => max left right
  | negate, _, right => -right

/-- The doubles up to this magnitude tell all integers apart. -/
def IsSafeInteger (value : Int) : Prop := value.natAbs ≤ twoPow 53

instance (value : Int) : Decidable (IsSafeInteger value) :=
  inferInstanceAs (Decidable (value.natAbs ≤ twoPow 53))

namespace Tree

/-- The value of the tree in exact integers. `numbers` gives the number of the value at each place
of a row, and the tree starts at `place`. -/
def exact (numbers : Nat → Int) : Nat → Tree → Int
  | place, constant _ _ => numbers place
  | place, die _ => numbers place
  | place, negation operand => -operand.exact numbers (place + 1)
  | place, binary op left right =>
      op.exact (left.exact numbers place) (right.exact numbers (place + left.flatten.length + 1))
  | place, group inner _ => inner.exact numbers (place + 1)

/-- All numbers of the tree and the results of all its parts are safe integers, and no divisor is
zero. -/
def IsSafe (numbers : Nat → Int) : Nat → Tree → Prop
  | place, constant _ _ => IsSafeInteger (numbers place)
  | place, die _ => IsSafeInteger (numbers place)
  | place, negation operand => operand.IsSafe numbers (place + 1)
  | place, binary op left right =>
      left.IsSafe numbers place ∧ right.IsSafe numbers (place + left.flatten.length + 1) ∧
        (op = .divide → right.exact numbers (place + left.flatten.length + 1) ≠ 0) ∧
        IsSafeInteger ((binary op left right).exact numbers place)
  | place, group inner _ => inner.IsSafe numbers (place + 1)

instance decidableIsSafe (numbers : Nat → Int) :
    (place : Nat) → (tree : Tree) → Decidable (tree.IsSafe numbers place)
  | place, constant _ _ | place, die _ =>
      inferInstanceAs (Decidable (IsSafeInteger (numbers place)))
  | place, negation operand => decidableIsSafe numbers (place + 1) operand
  | place, binary _ left right =>
      have := decidableIsSafe numbers place left
      have := decidableIsSafe numbers (place + left.flatten.length + 1) right
      inferInstanceAs (Decidable (_ ∧ _ ∧ _ ∧ _))
  | place, group inner _ => decidableIsSafe numbers (place + 1) inner

theorem IsSafe.value {numbers : Nat → Int} {tree : Tree} {place : Nat}
    (safe : tree.IsSafe numbers place) : IsSafeInteger (tree.exact numbers place) := by
  induction tree generalizing place with
  | constant value label => exact safe
  | die group => exact safe
  | negation operand ih =>
      unfold IsSafeInteger
      rw [exact, Int.natAbs_neg]
      exact ih safe
  | binary op left right => exact safe.2.2.2
  | group inner label ih => exact ih safe

end Tree

namespace Stack

theorem combine_int {op : Operator} {left right : Int} (small : IsSafeInteger left)
    (few : IsSafeInteger right) (nonzero : op = .divide → right ≠ 0) :
    combine op (.int left) (.int right) = .ok (.int (op.exact left right)) := by
  cases op with
  | add | subtract | multiply | negate => rfl
  | divide =>
      have some := nonzero rfl
      have divisor : (Operand.int right).isZero = false := beq_eq_false_iff_ne.mpr some
      rw [combine, divisor, Operand.div_int_eq_fdiv small few some]
      rfl
  | atMost =>
      rw [combine, Operand.atMost, Operand.lt_int, Operator.exact]
      by_cases less : right < left
      · rw [decide_eq_true less, if_pos rfl, Int.min_eq_right (Int.le_of_lt less)]
      · rw [decide_eq_false less, if_neg Bool.false_ne_true, Int.min_eq_left (Int.not_lt.mp less)]
  | atLeast =>
      rw [combine, Operand.atLeast, Operand.lt_int, Operator.exact]
      by_cases less : left < right
      · rw [decide_eq_true less, if_pos rfl, Int.max_eq_right (Int.le_of_lt less)]
      · rw [decide_eq_false less, if_neg Bool.false_ne_true, Int.max_eq_left (Int.not_lt.mp less)]

end Stack

theorem Tree.evaluate_of_safe {numbers : Nat → Int} {tree : Tree} {place : Nat}
    (safe : tree.IsSafe numbers place) :
    tree.evaluate (fun place => .int (numbers place)) place =
      .ok (.int (tree.exact numbers place)) := by
  induction tree generalizing place with
  | constant value label => rfl
  | die group => rfl
  | negation operand ih =>
      rw [evaluate, ih safe]
      rfl
  | binary op left right ihLeft ihRight =>
      obtain ⟨safeLeft, safeRight, nonzero, -⟩ := safe
      rw [evaluate, ihLeft safeLeft, ihRight safeRight]
      exact Stack.combine_int safeLeft.value safeRight.value nonzero
  | group inner label ih => exact ih safe

/-- The stack evaluates a derived row over safe integers as its parse tree is evaluated in exact
integers, and its division of two safe integers is the double nearest to their quotient, floored. -/
theorem stack_total_eq_exact {row : List Component} (derived : Derives .expression row) :
    (∃ tree : Tree, tree.IsTiered ∧ tree.flatten = row) ∧
      (∀ tree : Tree, tree.IsTiered → tree.flatten = row → ∀ numbers : Nat → Int,
        tree.IsSafe numbers 0 →
          Stack.total (fun place => .int (numbers place)) row = .ok (tree.exact numbers 0)) ∧
      ∀ left right : Int, IsSafeInteger left → IsSafeInteger right → right ≠ 0 →
        ∃ units, Double.IsNearest (left.natAbs * Double.one) right.natAbs units ∧
          Operand.div (.int left) (.int right) =
            (Double.finite (decide (left < 0) != decide (right < 0)) units).floor := by
  obtain ⟨parsed, tieredParsed, flattened, -⟩ := Tree.exists_tree derived
  refine ⟨⟨parsed, tieredParsed, flattened⟩, ?_, ?_⟩
  · rintro tree tiered rfl numbers safe
    rw [Stack.total_flatten _ tiered, Tree.total, Tree.evaluate_of_safe safe]
    rfl
  · intro left right small _ nonzero
    exact Operand.exists_nearest_of_div small nonzero

/-- The quotient of 2⁵³ - 1 and 2⁵² - 1 lies just above the middle of two doubles, of which the
smaller one is a whole number. -/
theorem stack_total_of_close_quotient :
    let row : List Component := [.operator .negate, .die { sides := 6 }, .operator .divide,
      .die { sides := 6 }, .operator .subtract, .openGroup, .die { sides := 6 }, .operator .atLeast,
      .die { sides := 6 }, .closeGroup]
    let tree : Tree := .binary .subtract
      (.binary .divide (.negation (.die { sides := 6 })) (.die { sides := 6 }))
      (.group (.binary .atLeast (.die { sides := 6 }) (.die { sides := 6 })) none)
    let numbers : Nat → Int := fun place =>
      if place = 1 then 9007199254740991 else if place = 3 then 4503599627370495 else place
    Derives .expression row ∧ tree.IsTiered ∧ tree.flatten = row ∧ tree.IsSafe numbers 0 ∧
      Stack.total (fun place => .int (numbers place)) row = .ok (-11) := by
  intro row tree numbers
  have quotient : Derives .expression
      [.operator .negate, .die { sides := 6 }, .operator .divide, .die { sides := 6 }] :=
    .binary (.operand (.negation (.term (.die _)))) (by decide) (.term (.die _))
  have larger : Derives .expression
      [.die { sides := 6 }, .operator .atLeast, .die { sides := 6 }] :=
    .binary (.operand (.term (.die _))) (by decide) (.term (.die _))
  have derived : Derives .expression row := .binary quotient (by decide) (.term (.group larger none))
  have tiered : tree.IsTiered := by simp [tree, Tree.IsTiered, Tree.tier, Operator.precedence]
  have safe : tree.IsSafe numbers 0 := by decide +kernel
  exact ⟨derived, tiered, rfl, safe, (stack_total_eq_exact derived).2.1 tree tiered rfl numbers safe⟩

end TabletopDice
