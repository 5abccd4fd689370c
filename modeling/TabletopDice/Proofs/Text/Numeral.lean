import TabletopDice.Error
import TabletopDice.Proofs.Computation
import TabletopDice.Proofs.Text.Cut

/-!
Numbers that are written and read back. The digits of a number stand for it, and a
number that was read from few enough digits has few enough digits itself.
-/

namespace TabletopDice

namespace Text

theorem is_ascii_digit_of_nat {number : Nat} {char : Char} (member : char ∈ ofNat number) :
    char.isDigit = true :=
  Nat.isDigit_of_mem_toDigits (by decide) (by decide) member

theorem code_of_ascii_digit {char : Char} (ascii : char.isDigit = true) :
    0x30 ≤ char.toNat ∧ char.toNat ≤ 0x39 := by
  simp only [Char.isDigit, Bool.and_eq_true, decide_eq_true_eq, ge_iff_le,
    UInt32.le_iff_toNat_le] at ascii
  exact ascii

/-- The blanks lie in the gaps between the blocks of digits. -/
theorem is_visible_of_digit {char : Char} (digit : isDigit char = true) : isBlank char = false := by
  have gaps : ∀ first ∈ zeroDigits, first = 0x30 ∨ (0xA0 < first ∧ first + 9 < 0x1680) ∨
      (0x1680 < first ∧ first + 9 < 0x2000) ∨ 0x3000 < first := by decide
  rw [isDigit, digitValue?, Option.isSome_map, List.find?_isSome] at digit
  obtain ⟨first, member, range⟩ := digit
  simp only [Bool.and_eq_true, decide_eq_true_eq] at range
  have gap := gaps first member
  simp only [isBlank, Bool.or_eq_false_iff, Bool.and_eq_false_iff, decide_eq_false_iff_not,
    beq_eq_false_iff_ne]
  omega

theorem not_digit_of_blank (char : Char) (blank : isBlank char = true) : isDigit char = false := by
  cases digit : isDigit char with
  | false => rfl
  | true => exact absurd blank (Bool.eq_false_iff.mp (is_visible_of_digit digit))

theorem is_visible_of_ascii {char : Char} (ascii : char.isDigit = true) : isBlank char = false :=
  is_visible_of_digit (isDigit_of_ascii ascii)

theorem of_nat_ne_nil (number : Nat) : ofNat number ≠ [] := Nat.toDigits_ne_nil

theorem of_int_ne_nil (number : Int) : ofInt number ≠ [] := by
  cases number with
  | ofNat number => exact of_nat_ne_nil number
  | negSucc number => exact List.cons_ne_nil _ _

theorem of_int_chars (number : Int) : ∀ char ∈ ofInt number, char = '-' ∨ char.isDigit = true := by
  cases number with
  | ofNat number => exact fun char member => .inr (is_ascii_digit_of_nat member)
  | negSucc number =>
      exact List.forall_mem_cons.mpr ⟨.inl rfl, fun char member => .inr (is_ascii_digit_of_nat member)⟩

theorem of_int_nat (number : Nat) : ofInt (number : Int) = ofNat number := rfl

theorem digit_value_of_ascii {char : Char} (ascii : char.isDigit = true) :
    digitValue? char = some (char.toNat - '0'.toNat) := by
  obtain ⟨lower, upper⟩ := code_of_ascii_digit ascii
  simp [digitValue?, zeroDigits, lower, upper]

theorem digits_value_append (left right : Text) :
    digitsValue (left ++ right) =
      right.foldl (fun value char => 10 * value + (digitValue? char).getD 0) (digitsValue left) :=
  List.foldl_append ..

theorem digits_value_of_ascii {digits : Text} (ascii : ∀ char ∈ digits, char.isDigit = true) :
    digitsValue digits = Nat.ofDigitChars 10 digits 0 := by
  suffices every : ∀ start, digits.foldl
      (fun value char => 10 * value + (digitValue? char).getD 0) start =
        Nat.ofDigitChars 10 digits start from every 0
  intro start
  induction digits generalizing start with
  | nil => rfl
  | cons char rest ih =>
      obtain ⟨first, others⟩ := List.forall_mem_cons.mp ascii
      rw [List.foldl_cons, Nat.ofDigitChars_cons, digit_value_of_ascii first]
      exact ih others _

theorem digits_value_of_nat (number : Nat) : digitsValue (ofNat number) = number := by
  rw [digits_value_of_ascii fun char member => is_ascii_digit_of_nat member]
  exact Nat.ofDigitChars_ten_toDigits

theorem digits_value_append_eq (left right : Text) :
    digitsValue (left ++ right) = digitsValue left * tenPow right.length + digitsValue right := by
  induction right using List.reverseRecOn with
  | nil =>
      have unit : tenPow 0 = 1 := tenPow_eq 0
      rw [List.append_nil, List.length_nil, unit, Nat.mul_one]
      rfl
  | append_singleton right char ih =>
      have last (digits : Text) : digitsValue (digits ++ [char]) =
          10 * digitsValue digits + (digitValue? char).getD 0 := digits_value_append digits [char]
      rw [← List.append_assoc, last, last, ih, List.length_append, List.length_singleton,
        tenPow_succ, ← Nat.mul_assoc]
      omega

theorem of_nat_injective : Function.Injective ofNat :=
  Function.LeftInverse.injective digits_value_of_nat

/-- Only a negative number begins with a sign. -/
theorem of_int_injective : Function.Injective ofInt := by
  have unsigned (number other : Nat) : ofNat number ≠ '-' :: ofNat (other + 1) := by
    intro same
    have sign : '-' ∈ ofNat number := same ▸ List.mem_cons_self
    exact absurd (is_ascii_digit_of_nat sign) (by decide)
  intro one two same
  cases one with
  | ofNat one =>
      cases two with
      | ofNat two => exact congrArg Int.ofNat (of_nat_injective same)
      | negSucc two => exact absurd same (unsigned one two)
  | negSucc one =>
      cases two with
      | ofNat two => exact absurd same.symm (unsigned two one)
      | negSucc two =>
          have digits := of_nat_injective (List.cons.inj same).2
          exact congrArg Int.negSucc (Nat.succ.inj digits)

theorem digits_value_zeros (count : Nat) : digitsValue (List.replicate count '0') = 0 := by
  rw [digits_value_of_ascii, Nat.ofDigitChars_replicate_zero, Nat.mul_zero]
  intro char member
  rw [List.eq_of_mem_replicate member]
  rfl

theorem digits_value_lt (digits : Text) : digitsValue digits < tenPow digits.length := by
  induction digits using List.reverseRecOn with
  | nil => exact tenPow_pos 0
  | append_singleton digits char ih =>
      have last : (digitValue? char).getD 0 < 10 := by
        cases found : digitValue? char with
        | none => decide
        | some value => exact digitValue_lt found
      rw [digits_value_append, List.length_append, List.length_singleton, tenPow_succ]
      change 10 * digitsValue digits + (digitValue? char).getD 0 < tenPow digits.length * 10
      omega

theorem length_of_nat_le_iff {number places : Nat} (some : 0 < places) :
    (ofNat number).length ≤ places ↔ number < tenPow places := by
  rw [tenPow_eq, Nat.pow_eq]
  exact Nat.length_toDigits_le_iff (by decide) some

theorem length_of_nat_le {number places : Nat} (some : 0 < places) (short : number < tenPow places) :
    (ofNat number).length ≤ places :=
  (length_of_nat_le_iff some).mpr short

theorem is_tellable_iff_length {number : Int} :
    isTellable number = true ↔ (ofNat number.natAbs).length ≤ maxDigits :=
  decide_eq_true_iff.trans (length_of_nat_le_iff (by decide)).symm

end Text

open Text

theorem whole_number_eq_ok {digits : Text} {number : Nat} :
    wholeNumber digits = .ok number ↔ digits.length ≤ maxDigits ∧ digitsValue digits = number := by
  unfold wholeNumber Numeral.magnitude
  by_cases short : digits.length ≤ maxDigits
  · rw [if_pos short]
    constructor
    · intro read
      cases read
      exact ⟨short, rfl⟩
    · rintro ⟨-, rfl⟩
      rfl
  · rw [if_neg short]
    constructor
    · intro read
      cases read
    · intro both
      exact absurd both.1 short

theorem whole_number_of_nat {number : Nat} (short : number < firstTooLong) :
    wholeNumber (ofNat number) = .ok number :=
  whole_number_eq_ok.mpr ⟨length_of_nat_le (by decide) short, digits_value_of_nat number⟩

theorem lt_of_whole_number {digits : Text} {number : Nat}
    (read : wholeNumber digits = .ok number) : number < firstTooLong := by
  obtain ⟨short, rfl⟩ := whole_number_eq_ok.mp read
  apply Nat.lt_of_lt_of_le (digits_value_lt digits)
  exact tenPow_le short

end TabletopDice
