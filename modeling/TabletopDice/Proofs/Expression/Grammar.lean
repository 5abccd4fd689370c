import Mathlib.Data.List.Chain
import TabletopDice.Expression.Component

/-!
The grammar of component rows. An expression is a sum of operands with binary
operators between them; an operand is a term behind any number of negations; a
term is a constant, a die group, or an expression in parentheses that one label
may follow.
-/

namespace TabletopDice

def Component.ofLabel (label : Option Text) : List Component :=
  (label.map Component.label).toList

inductive Phrase
  | expression
  | operand
  | term
  deriving DecidableEq, Repr

inductive Derives : Phrase → List Component → Prop
  | constant (value : Double) (label : Text) : Derives .term [.constant value label]
  | die (group : DieGroup) : Derives .term [.die group]
  | group {row : List Component} (inner : Derives .expression row) (label : Option Text) :
      Derives .term (.openGroup :: (row ++ .closeGroup :: Component.ofLabel label))
  | term {row : List Component} (inner : Derives .term row) : Derives .operand row
  | negation {row : List Component} (inner : Derives .operand row) :
      Derives .operand (.operator .negate :: row)
  | operand {row : List Component} (inner : Derives .operand row) : Derives .expression row
  | binary {left right : List Component} {op : Operator} (first : Derives .expression left)
      (isBinary : op ≠ .negate) (second : Derives .operand right) :
      Derives .expression (left ++ .operator op :: right)

namespace Component

def isValue : Component → Bool
  | constant _ _ | die _ => true
  | _ => false

/-- The component is written without a glyph at its ends, so two of them must not touch. -/
def isRun : Component → Bool
  | constant _ _ | die _ | label _ => true
  | _ => false

end Component

namespace Derives

theorem exists_value {phrase : Phrase} {row : List Component} (derived : Derives phrase row) :
    ∃ component ∈ row, component.isValue = true := by
  induction derived with
  | constant value label => exact ⟨.constant value label, by simp, rfl⟩
  | die group => exact ⟨.die group, by simp, rfl⟩
  | group _ _ ih =>
      obtain ⟨component, member, value⟩ := ih
      exact ⟨component, by simp [member], value⟩
  | term _ ih | operand _ ih => exact ih
  | negation _ ih =>
      obtain ⟨component, member, value⟩ := ih
      exact ⟨component, by simp [member], value⟩
  | binary _ _ _ ih _ =>
      obtain ⟨component, member, value⟩ := ih
      exact ⟨component, by simp [member], value⟩

theorem ne_nil {phrase : Phrase} {row : List Component} (derived : Derives phrase row) :
    row ≠ [] := by
  obtain ⟨component, member, -⟩ := derived.exists_value
  exact List.ne_nil_of_mem member

end Derives

def Separated (row : List Component) : Prop :=
  row.IsChain fun first second => ¬(first.isRun = true ∧ second.isRun = true)

/-- A component with a glyph of its own keeps its neighbours apart. -/
theorem separated_append {left right : List Component} {component : Component}
    (glyph : component.isRun = false) (before : Separated left) (behind : Separated right) :
    Separated (left ++ component :: right) := by
  unfold Separated at before behind ⊢
  rw [List.isChain_append, List.isChain_cons]
  refine ⟨before, ⟨?_, behind⟩, ?_⟩
  · intro next _
    simp [glyph]
  · intro last _ first found
    simp only [List.head?_cons, Option.mem_def, Option.some.injEq] at found
    subst found
    simp [glyph]

theorem separated_cons {row : List Component} {component : Component}
    (glyph : component.isRun = false) (behind : Separated row) : Separated (component :: row) := by
  have apart := separated_append glyph List.isChain_nil behind
  rwa [List.nil_append] at apart

theorem separated_label (label : Option Text) : Separated (Component.ofLabel label) := by
  cases label with
  | none => exact List.isChain_nil
  | some text => exact List.isChain_singleton _

theorem separated_of_derives {phrase : Phrase} {row : List Component}
    (derived : Derives phrase row) : Separated row := by
  induction derived with
  | constant _ _ | die _ => exact List.isChain_singleton _
  | group _ label ih => exact separated_cons rfl (separated_append rfl ih (separated_label label))
  | term _ ih | operand _ ih => exact ih
  | negation _ ih => exact separated_cons rfl ih
  | binary _ _ _ left right => exact separated_append rfl left right

def Double.IsNonnegative : Double → Prop
  | .finite negative _ | .infinite negative => negative = false
  | .notANumber _ => False

/-- A die group that can be written: it has sides, and nothing in it is below zero. -/
structure DieGroup.IsProper (group : DieGroup) : Prop where
  sides : 1 ≤ group.sides
  numerator : 0 ≤ group.numerator
  denominator : 0 ≤ group.denominator
  rerolls : 0 ≤ group.rerolls
  dieBonus : group.dieBonus = 0

def Component.IsProper : Component → Prop
  | .constant value _ => value.IsNonnegative
  | .die group => group.IsProper
  | _ => True

end TabletopDice
