import TabletopDice.Proofs.Expression.Acceptance
import TabletopDice.Proofs.Expression.Notation

/-!
What the components of an accepted expression are like as text. Labels are trimmed and
bare, a label of a die group mentions no other die, and every number in a die group
was read, so it can be told.
-/

namespace TabletopDice

open Text

structure DieGroup.IsWritten (group : DieGroup) : Prop where
  proper : group.IsProper
  tellable : ∀ number ∈ [group.sides, group.numerator, group.denominator, group.rerolls + 1],
    isTellable number = true
  label : IsLabel group.label
  noDie : mentionsDie group.label = false

def Component.IsWritten : Component → Prop
  | .constant value name => value.IsNonnegative ∧ IsLabel name
  | .die group => group.IsWritten
  | .label name => IsLabel name ∧ isBareLabel name = true ∧ DieNotation.read? name = none
  | _ => True

theorem is_tellable_nat {number : Nat} (short : number < firstTooLong) :
    isTellable (number : Int) = true := by
  simpa [isTellable] using short

theorem lt_first_too_long {number : Nat} (small : number < 1000) : number < firstTooLong := by
  have thousand : tenPow 3 = 1000 := tenPow_eq 3
  rw [← thousand] at small
  exact Nat.lt_of_lt_of_le small (tenPow_le (by decide))

theorem is_tellable_small {number : Nat} (small : number < 1000) :
    isTellable (number : Int) = true :=
  is_tellable_nat (lt_first_too_long small)

theorem lt_of_optional {digits : Option Text} {other number : Nat} (small : other < 1000)
    (read : digits.elim (pure other) wholeNumber = .ok number) : number < firstTooLong := by
  cases digits with
  | none =>
      cases read
      exact lt_first_too_long small
  | some digits => exact lt_of_whole_number read

namespace DieNotation

theorem trim_label {text : Text} {pieces : DieNotation} (read : read? text = some pieces) :
    trim pieces.label = pieces.label := by
  simp only [read?, Option.bind_eq_bind, Option.bind_eq_some_iff] at read
  obtain ⟨rest, _, sides, _, found⟩ := read
  cases found
  exact trim_trim _

theorem lt_of_count {pieces : DieNotation} {number : Nat} (read : pieces.count = .ok number) :
    number < firstTooLong := by
  unfold count at read
  split at read
  · cases read
    exact lt_first_too_long (by decide)
  · exact lt_of_whole_number read

theorem label_of_check {pieces : DieNotation} {part : Text} {done : Unit}
    (checked : pieces.checkLabel part = .ok done) :
    mentionsDie pieces.label = false ∧ (pieces.label = [] ∨ isBareLabel pieces.label = true) := by
  unfold checkLabel at checked
  split at checked
  next empty =>
    rw [List.isEmpty_iff.mp empty]
    exact ⟨rfl, .inl rfl⟩
  next =>
    split at checked
    next => cases checked
    next noDie =>
      split at checked
      next bare => exact ⟨Bool.eq_false_iff.mpr noDie, .inr bare⟩
      next => cases checked

theorem written_of_to_group {text part expression : Text} {pieces : DieNotation} {group : DieGroup}
    (read : read? text = some pieces) (accepted : pieces.toGroup part expression = .ok group) :
    group.IsWritten := by
  have proper := to_group_is_proper accepted
  obtain ⟨-, sides, readSides, -, attempts, readAttempts, some, _, checked, numerator,
    readNumerator, denominator, readDenominator, rfl⟩ := to_group_eq_ok.mp accepted
  obtain ⟨noDie, bare⟩ := label_of_check checked
  refine ⟨proper, ?_, ⟨trim_label read, bare⟩, noDie⟩
  have shown : ((attempts : Int) - 1) + 1 = (attempts : Int) := Int.sub_add_cancel _ 1
  simp only [List.forall_mem_cons, shown]
  refine ⟨?_, ?_, ?_, ?_, fun _ member => absurd member List.not_mem_nil⟩
  · exact is_tellable_nat (lt_of_optional (by decide) readSides)
  · exact is_tellable_nat (lt_of_count readNumerator)
  · exact is_tellable_nat (lt_of_optional (by decide) readDenominator)
  · cases found : pieces.choice with
    | none =>
        rw [found] at readAttempts
        cases readAttempts
        exact is_tellable_nat (lt_first_too_long (by decide))
    | some choice =>
        rw [found] at readAttempts
        exact is_tellable_nat (lt_of_whole_number readAttempts)

end DieNotation

theorem trim_constant_label {text label : Text} {value : Double}
    (read : readConstant? text = some (value, label)) : trim label = label := by
  simp only [readConstant?] at read
  split at read
  · cases read
    exact trim_trim _
  · split at read
    · cases read
      exact trim_trim _
    · cases read

theorem written_of_parse_value {part expression : Text} {component : Component}
    (read : parseValue part expression = .ok component) : component.IsWritten := by
  have proper := parse_value_is_proper read
  cases accepted_of_parse_value read with
  | die found made => exact DieNotation.written_of_to_group found made
  | constant _ found _ bare => exact ⟨proper, trim_constant_label found, bare⟩

theorem written_of_reads {expression : Text} {expected : Expected} {depth : Nat}
    {tokens : List Token} {row : List Component}
    (reads : Reads expression expected depth tokens row) :
    ∀ component ∈ row, component.IsWritten := by
  induction reads with
  | finish =>
      intro component member
      cases member
  | skip _ _ ih => exact ih
  | value read _ ih => exact List.forall_mem_cons.mpr ⟨written_of_parse_value read, ih⟩
  | label bare noDie _ ih =>
      refine List.forall_mem_cons.mpr ⟨⟨⟨trim_trim _, .inr ?_⟩, ?_, ?_⟩, ih⟩
      · rw [is_bare_label_trim]
        exact bare
      · rw [is_bare_label_trim]
        exact bare
      · exact DieNotation.read_trim bare noDie
  | negation _ ih | openGroup _ ih | closeGroup _ ih | binary _ _ ih =>
      exact List.forall_mem_cons.mpr ⟨trivial, ih⟩

theorem written_of_parse_expression {text : Text} {row : List Component} {limits : Limits}
    (accepted : parseExpression text = .ok (row, limits)) :
    ∀ component ∈ row, component.IsWritten := by
  obtain ⟨-, _, -, -, parsed⟩ := parse_expression_eq_ok.mp accepted
  exact written_of_reads (reads_of_parse_tokens parsed)

end TabletopDice
