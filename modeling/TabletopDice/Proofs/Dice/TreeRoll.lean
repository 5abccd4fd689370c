import TabletopDice.Proofs.Dice.Rolling

/-!
Rolling dice rolls their parse tree: from left to right, with the arithmetic of each
operator as soon as both its operands are there. The total is the value of the tree
on the source, and a roll that fails leaves the source where the tree leaves it.
-/

namespace TabletopDice

namespace Tree

def roll (maximize : Bool) : Tree → Draw Operand
  | constant value _ => return .real value
  | die dice => do return .int (← dice.roll maximize).value
  | negation operand => do return (← operand.roll maximize).neg
  | binary op left right => do
      let first ← left.roll maximize
      let second ← right.roll maximize
      Draw.ofExcept (Stack.combine op first second)
  | group inner _ => inner.roll maximize

def rollTotal (maximize : Bool) (limits : Limits) (bonus : Int) (tree : Tree) : Draw Int := do
  let value ← tree.roll maximize
  let total ← Draw.ofExcept (value.truncate.mapError .number)
  return limits.clamp (total + bonus)

def ungrouped : Tree → Tree
  | constant value label => constant value label
  | die dice => die dice
  | negation operand => negation operand.ungrouped
  | binary op left right => binary op left.ungrouped right.ungrouped
  | group inner _ => inner.ungrouped

theorem roll_ungrouped (maximize : Bool) (tree : Tree) :
    tree.ungrouped.roll maximize = tree.roll maximize := by
  induction tree with
  | constant _ _ | die _ => rfl
  | negation operand ih => rw [ungrouped, roll, roll, ih]
  | binary op left right ihLeft ihRight => rw [ungrouped, roll, roll, ihLeft, ihRight]
  | group inner label ih => rw [ungrouped, roll, ih]

end Tree

namespace Draw

theorem of_except_bind {Value Result : Type} (result : Except Failure Value)
    (next : Value → Except Failure Result) :
    ofExcept (result >>= next) = ofExcept result >>= fun value => ofExcept (next value) := by
  cases result with
  | ok value => exact (pure_bind value fun value => ofExcept (next value)).symm
  | error failure => rfl

theorem of_except_map {Value Result : Type} (result : Except Failure Value)
    (change : Value → Result) : ofExcept (change <$> result) = change <$> ofExcept result := by
  cases result with
  | ok value => exact (map_pure change value).symm
  | error failure => rfl

end Draw

namespace Dice

/-- The numbers of the values are rolled when they are needed. -/
def rolled (maximize : Bool) : Numbers Draw where
  number _
    | .constant value _ => return .real value
    | .die group => do return .int (← group.roll maximize).value
    | _ => return .int 0
  lift := Draw.ofExcept
  lift_ok _ := rfl
  lift_bind := Draw.of_except_bind

theorem evaluate_rolled (maximize : Bool) (tree : Tree) (place : Nat) :
    (rolled maximize).evaluate place tree = tree.roll maximize := by
  induction tree generalizing place with
  | constant _ _ | die _ => rfl
  | negation operand ih => rw [Numbers.evaluate, Tree.roll, ih]
  | binary op left right ihLeft ihRight =>
      simp only [Numbers.evaluate, Tree.roll, ihLeft, ihRight]
      rfl
  | group inner label ih => rw [Numbers.evaluate, Tree.roll, ih]

theorem feed_rolled (maximize : Bool) (row : List Component) (place : Nat) (stack : Stack)
    (natural : Int × Int) :
    (fun fed => fed.2.1) <$> feed maximize row stack natural =
      (rolled maximize).feed place row stack := by
  have recorded (outcome : Option DieOutcome) (row : List Component) (stack : Stack)
      (natural : Int × Int) :
      (fun fed => fed.2.1) <$> (do
          let fed ← feed maximize row stack natural
          return (outcome :: fed.1, fed.2)) =
        (fun fed => fed.2.1) <$> feed maximize row stack natural := by
    simp only [bind_pure_comp, Functor.map_map]
  induction row using row_induction generalizing place stack natural with
  | nil => rfl
  | die group row ih =>
      have drawn : (rolled maximize).number place (.die group) = (do
          return .int (← group.roll maximize).value) := rfl
      rw [feed, map_bind, Numbers.feed, Numbers.feedComponent, drawn]
      simp only [bind_assoc, pure_bind]
      congr
      funext outcome
      exact (recorded _ row _ _).trans (ih (place + 1) _ _)
  | other component row noDie ih =>
      have same : settled (stack.feedComponent (ownNumber component) component) =
          (rolled maximize).feedComponent place stack component := by
        cases component with
        | die group => cases noDie
        | _ => rfl
      rw [feed_cons_of_no_die noDie, map_bind, same, Numbers.feed]
      congr
      funext stack
      exact (recorded none row _ _).trans (ih (place + 1) stack natural)

theorem total_evaluate {dice : Dice} {tree : Tree} (tiered : tree.IsTiered)
    (same : tree.flatten = dice.components) (maximize : Bool) (bonus : Int) :
    Evaluation.total <$> dice.evaluate maximize bonus = tree.rollTotal maximize dice.limits bonus := by
  have evaluated := Stack.evaluate_feed_flatten (rolled maximize) tiered
  rw [evaluate_rolled, same, ← feed_rolled maximize dice.components 0 {} (naturalNone, 0)] at evaluated
  have total (stack : Stack) : Draw.ofExcept (Prod.fst <$> Stack.outcome stack.evaluate) =
      Prod.fst <$> settled stack.evaluate := Draw.of_except_map _ _
  calc
    Evaluation.total <$> dice.evaluate maximize bonus =
        (((fun fed => fed.2.1) <$> feed maximize dice.components {} (naturalNone, 0)) >>= fun stack =>
          Prod.fst <$> settled stack.evaluate) >>= fun value =>
            pure (dice.limits.clamp (value + bonus)) := by
      rw [evaluate]
      simp only [map_bind, bind_map_left, bind_pure_comp, Functor.map_map]
    _ = tree.rollTotal maximize dice.limits bonus := by
      simp only [← total]
      change (_ >>= fun stack => (rolled maximize).lift _) >>= _ = _
      rw [evaluated, Tree.rollTotal, bind_assoc]
      rfl

end Dice

end TabletopDice
