import TabletopDice.Proofs.Expression.Weight
import TabletopDice.Roller.Modifiers

/-!
The numbers in clauses. A clause holds no more digits than characters, so its
numbers are as small as it is short.
-/

namespace TabletopDice

open Text

namespace Clause

def IsShort (length : Nat) : Clause → Prop
  | confirm threat bonus =>
      threat.elim 0 List.length ≤ length ∧ bonus.elim 0 (fun bonus => bonus.digits.length) ≤ length
  | target value | difficulty value => value.digits.length ≤ length
  | repetition count | total count => count.length ≤ length
  | _ => True

variable {text : Text} {length : Nat}

theorem length_read_count {digits : Text} (read : readCount? text = some digits) :
    digits.length ≤ text.length := by
  have trimmed := length_trim_left_le text
  have whole := length_span_digits (trimLeft text)
  unfold readCount? at read
  split at read
  · cases read
  next found =>
    rw [found] at whole
    dsimp only at whole
    split at read
    · cases read
      omega
    · cases read

theorem length_read_value {value : Numeral} (read : readValue? text = some value) :
    value.digits.length ≤ text.length := by
  have trimmed := length_trim_left_le text
  unfold readValue? at read
  split at read
  next rest negative =>
    have whole := length_span_digits rest
    rw [negative, List.length_cons] at trimmed
    split at read
    · cases read
    next found =>
      rw [found] at whole
      dsimp only at whole
      split at read
      · cases read
        dsimp only
        omega
      · cases read
  next =>
    obtain ⟨digits, counted, rfl⟩ := Option.map_eq_some_iff.mp read
    have count := length_read_count counted
    exact Nat.le_trans count trimmed

theorem short_of_read_confirm {clause : Clause} (read : readConfirm? text = some clause) :
    clause.IsShort text.length := by
  have whole := length_span_digits text
  have threat : (if (spanDigits text).1.isEmpty = true then none else some (spanDigits text).1).elim 0
      List.length ≤ text.length := by
    split
    · exact Nat.zero_le _
    · rw [Option.elim_some]
      omega
  unfold readConfirm? at read
  dsimp only at read
  split at read
  -- A bonus has a plus or a minus, and is read alike behind both.
  iterate 2
    next =>
      split at read
      next bonus rest found =>
        have digits := length_read_integer found
        split at read
        · cases read
          refine ⟨threat, ?_⟩
          rw [Option.elim_some]
          omega
        · cases read
      next => cases read
  next =>
    split at read
    · cases read
      exact ⟨threat, Nat.zero_le _⟩
    · cases read

theorem short_of_read_automatic {written : Text} {clause : Clause}
    (read : readAutomatic? written text = some clause) : clause.IsShort length := by
  unfold readAutomatic? at read
  split at read
  · cases read
    trivial
  · cases read
  · split at read
    · cases read
    · split at read
      · cases read
        trivial
      · cases read
        trivial

theorem IsShort.mono {clause : Clause} {more : Nat} (isShort : clause.IsShort length)
    (longer : length ≤ more) : clause.IsShort more := by
  cases clause with
  | confirm threat bonus => exact ⟨Nat.le_trans isShort.1 longer, Nat.le_trans isShort.2 longer⟩
  | target value => exact Nat.le_trans isShort longer
  | difficulty value => exact Nat.le_trans isShort longer
  | repetition count => exact Nat.le_trans isShort longer
  | total value => exact Nat.le_trans isShort longer
  | _ => trivial

theorem short_of_keyword {keyword rest : Text} (found : after? keyword text = some rest)
    {Value : Type} {value? : Option Value} {kind : Value → Clause} {clause : Clause}
    (read : value?.map kind = some clause)
    (short : ∀ value ∈ value?, (kind value).IsShort rest.length) : clause.IsShort text.length := by
  obtain ⟨value, number, rfl⟩ := Option.map_eq_some_iff.mp read
  have word := length_after found
  exact (short value number).mono (by omega)

theorem short_of_read {clause : Clause} (read : read? text = some clause) :
    clause.IsShort text.length := by
  have trimmed := length_trim_left_le text
  have lower : (lowered ((trimLeft text).take 2) ++ (trimLeft text).drop 2).length =
      (trimLeft text).length := by
    rw [List.length_append, lowered, List.length_map, ← List.length_append, List.take_append_drop]
  suffices front : clause.IsShort (trimLeft text).length from front.mono trimmed
  unfold read? at read
  generalize trimLeft text = front at lower read ⊢
  dsimp only at read
  split at read
  · cases read
    trivial
  · split at read
    next rest => exact (short_of_read_confirm read).mono (Nat.le_succ _)
    next rest =>
      split at read
      · cases read
        trivial
      · cases read
    next =>
      split at read
      next rest found => exact short_of_keyword found read fun _ => length_read_value
      next =>
        split at read
        next rest found => exact short_of_keyword found read fun _ => length_read_count
        next =>
          split at read
          next rest found => exact short_of_keyword found read fun _ => length_read_count
          next =>
            split at read
            next rest found =>
              split at read
              · cases read
                trivial
              · cases read
            next =>
              split at read
              next rest found =>
                rw [← lower]
                exact short_of_keyword found read fun _ => length_read_value
              next =>
                split at read
                next rest found => exact short_of_read_automatic read
                next => cases read

end Clause

namespace Modifiers

/-- The numbers that are told of a roll, or go into it, are at most the power of two. -/
structure IsModest (weight : Nat) (modifiers : Modifiers) : Prop where
  confirmBonus : modifiers.confirmBonus.natAbs ≤ twoPow weight
  target : modifiers.target.natAbs ≤ twoPow weight
  difficulty : modifiers.difficulty.natAbs ≤ twoPow weight

variable {modifiers final : Modifiers} {length : Nat}

theorem IsModest.mono {weight more : Nat} (modest : modifiers.IsModest weight) (wider : weight ≤ more) :
    modifiers.IsModest more :=
  ⟨Nat.le_trans modest.confirmBonus (twoPow_le wider), Nat.le_trans modest.target (twoPow_le wider),
    Nat.le_trans modest.difficulty (twoPow_le wider)⟩

theorem refusal_of_with_clause (modifiers : Modifiers) {clause : Clause}
    (isShort : clause.IsShort length) :
    FailsOnly (Failure.IsRefusal (maxDigits < length)) (modifiers.withClause clause) := by
  cases clause with
  | confirm threat bonus =>
      apply fails_only_bind (refusal_of_optional _ isShort.1)
      intro threat
      refine fails_only_bind ?_ fun _ => fails_only_ok _
      cases bonus with
      | none => exact fails_only_ok _
      | some bonus => exact refusal_of_numeral isShort.2
  | target value | difficulty value =>
      exact fails_only_bind (refusal_of_numeral isShort) fun _ => fails_only_ok _
  | repetition count | total value =>
      exact fails_only_bind (refusal_of_whole_number isShort) fun _ => fails_only_ok _
  | _ => exact fails_only_ok _

theorem modest_with_clause (modest : modifiers.IsModest (4 * length)) {clause : Clause}
    (isShort : clause.IsShort length) (read : modifiers.withClause clause = .ok final) :
    final.IsModest (4 * length) := by
  have bound {value : Numeral} {number : Int} (digits : value.digits.length ≤ length)
      (told : value.read = .ok number) : number.natAbs ≤ twoPow (4 * length) :=
    Nat.le_trans (Numeral.read_le_twoPow told) (twoPow_le (by omega))
  cases clause with
  | confirm threat bonus =>
      simp only [withClause, bind_eq_ok, pure_eq_ok] at read
      obtain ⟨_, -, number, told, rfl⟩ := read
      refine ⟨?_, modest.target, modest.difficulty⟩
      cases bonus with
      | none =>
          cases told
          exact modest.confirmBonus
      | some bonus => exact bound isShort.2 told
  | target value =>
      simp only [withClause, bind_eq_ok, pure_eq_ok] at read
      obtain ⟨number, told, rfl⟩ := read
      exact ⟨modest.confirmBonus, bound isShort told, modest.difficulty⟩
  | difficulty value =>
      simp only [withClause, bind_eq_ok, pure_eq_ok] at read
      obtain ⟨number, told, rfl⟩ := read
      exact ⟨modest.confirmBonus, modest.target, bound isShort told⟩
  | repetition count | total value =>
      simp only [withClause, bind_eq_ok, pure_eq_ok] at read
      obtain ⟨number, told, rfl⟩ := read
      exact ⟨modest.confirmBonus, modest.target, modest.difficulty⟩
  | limit | maximized | automatic written success fail =>
      cases read
      exact ⟨modest.confirmBonus, modest.target, modest.difficulty⟩

variable {clause : Text}

theorem refusal_of_with_text (modifiers : Modifiers) (fits : clause.length ≤ length) :
    FailsOnly (Failure.IsRefusal (maxDigits < length)) (modifiers.withText clause) := by
  unfold withText
  split
  · exact refusal_of_refuse List.not_mem_nil
  · exact fails_only_ok _
  next read _ found =>
    have isShort := (Clause.short_of_read found).mono fits
    apply fails_only_bind (refusal_of_with_clause modifiers isShort)
    intro next
    split
    · exact refusal_of_refuse List.not_mem_nil
    · exact fails_only_ok _

theorem modest_with_text (modest : modifiers.IsModest (4 * length)) (fits : clause.length ≤ length)
    (read : modifiers.withText clause = .ok final) : final.IsModest (4 * length) := by
  unfold withText at read
  split at read
  · cases read
  · cases read
    exact modest
  next found =>
    have isShort := (Clause.short_of_read found).mono fits
    rw [bind_eq_ok] at read
    obtain ⟨next, added, last⟩ := read
    split at last
    · cases last
    · cases last
      exact modest_with_clause modest isShort added

end Modifiers

end TabletopDice
