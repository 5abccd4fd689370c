import TabletopDice.Proofs.Computation

/-!
How arithmetic can fail. An arithmetic step on two operands fails only because a
number is too large for a double or has no integer at or below it.
-/

namespace TabletopDice

def NumberFault.IsArithmetic : NumberFault → Prop
  | .overflow | .notANumber => True
  | _ => False

theorem floor_fails_only (value : Double) : FailsOnly NumberFault.IsArithmetic value.floor := by
  cases value with
  | finite negative units => exact fails_only_ok _
  | infinite negative => exact fails_only_error trivial
  | notANumber negative => exact fails_only_error trivial

theorem in_range_fails_only (value : Double) :
    FailsOnly NumberFault.IsArithmetic value.inRange := by
  cases value with
  | finite negative units => exact fails_only_ok _
  | infinite negative => exact fails_only_error trivial
  | notANumber negative => exact fails_only_error trivial

namespace Operand

theorem truncate_fails_only (operand : Operand) :
    FailsOnly NumberFault.IsArithmetic operand.truncate := by
  match operand with
  | int value => exact fails_only_ok _
  | real (.finite negative units) => exact fails_only_ok _
  | real (.infinite negative) => exact fails_only_error trivial
  | real (.notANumber negative) => exact fails_only_error trivial

theorem to_double_fails_only (operand : Operand) :
    FailsOnly NumberFault.IsArithmetic operand.toDouble := by
  cases operand with
  | int value => exact in_range_fails_only (Double.ofInt value)
  | real value => exact fails_only_ok value

theorem rounded_fails_only (rounded : Double → Double → Double) (left right : Operand) :
    FailsOnly NumberFault.IsArithmetic (do
      let left ← left.toDouble
      let right ← right.toDouble
      (rounded left right).floor) := by
  apply fails_only_bind (to_double_fails_only left)
  intro first
  apply fails_only_bind (to_double_fails_only right)
  intro second
  exact floor_fails_only _

theorem arithmetic_fails_only (exactly : Int → Int → Int) (rounded : Double → Double → Double)
    (left right : Operand) :
    FailsOnly NumberFault.IsArithmetic (arithmetic exactly rounded left right) := by
  unfold arithmetic
  split
  · exact fails_only_ok _
  · exact rounded_fails_only rounded left right

theorem div_fails_only (left right : Operand) :
    FailsOnly NumberFault.IsArithmetic (div left right) := by
  unfold div
  split
  · exact fails_only_bind (in_range_fails_only _) floor_fails_only
  · exact rounded_fails_only Double.div left right

end Operand

end TabletopDice
