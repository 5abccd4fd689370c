import TabletopDice.Number.DecimalText
import TabletopDice.Proofs.Text.Numeral

/-!
Doubles as decimal text, read back. The text of a number has at most fifteen places
behind the point, so reading it gives the double nearest to the number with fifteen
places: the number itself, or another one where that is not enough.
-/

namespace TabletopDice

theorem round_div_mul_mul {factor : Nat} (positive : 0 < factor) (numerator denominator : Nat) :
    roundDiv (numerator * factor) (denominator * factor) = roundDiv numerator denominator := by
  have quotient := Nat.mul_div_mul_right numerator denominator positive
  have rest := Nat.mul_mod_mul_right factor numerator denominator
  have below : 2 * (numerator % denominator * factor) < denominator * factor ↔
      2 * (numerator % denominator) < denominator := by
    rw [← Nat.mul_assoc, Nat.mul_lt_mul_right positive]
  have above : denominator * factor < 2 * (numerator % denominator * factor) ↔
      denominator < 2 * (numerator % denominator) := by
    rw [← Nat.mul_assoc, Nat.mul_lt_mul_right positive]
  simp only [roundDiv, quotient, rest, below, above]

namespace Double

theorem one_pos : 0 < one := twoPow_pos 1074

theorem nearest_mul_mul {factor : Nat} (positive : 0 < factor) (negative : Bool)
    (numerator denominator : Nat) :
    nearest negative (numerator * factor) (denominator * factor) =
      nearest negative numerator denominator := by
  simp only [nearest, Nat.mul_div_mul_right numerator denominator positive]
  rw [Nat.mul_right_comm denominator, round_div_mul_mul positive]

theorem of_ratio_mul_mul {factor : Nat} (positive : 0 < factor) (negative : Bool)
    (numerator denominator : Nat) :
    ofRatio negative (numerator * factor) (denominator * factor) =
      ofRatio negative numerator denominator := by
  rw [ofRatio, ofRatio, Nat.mul_right_comm, nearest_mul_mul positive]

theorem nearest_eq_finite {numerator denominator units : Nat} {negative sign : Bool}
    (rounded : nearest negative numerator denominator = finite sign units) :
    sign = negative ∧ units < bound ∧
      units = roundDiv numerator (denominator * twoPow ((numerator / denominator).log2 - 52)) *
        twoPow ((numerator / denominator).log2 - 52) := by
  simp only [nearest] at rounded
  split at rounded
  next small =>
    cases rounded
    exact ⟨rfl, small, rfl⟩
  next => cases rounded

theorem is_integer_of_nearest {number units : Nat} {negative : Bool}
    (rounded : nearest negative (number * one) 1 = finite negative units) : units % one = 0 := by
  obtain ⟨-, -, rfl⟩ := nearest_eq_finite rounded
  rw [Nat.div_one, Nat.one_mul]
  generalize (number * one).log2 - 52 = shift
  by_cases fine : shift ≤ 1074
  · have split : one = twoPow (1074 - shift) * twoPow shift := by
      rw [one, ← twoPow_add, Nat.sub_add_cancel fine]
    have exact' : roundDiv (number * one) (twoPow shift) = number * twoPow (1074 - shift) := by
      rw [split, ← Nat.mul_assoc, roundDiv_mul_right (twoPow_pos shift)]
    rw [exact', Nat.mul_assoc, ← split]
    exact Nat.mul_mod_left number one
  · have split : twoPow shift = twoPow (shift - 1074) * one := by
      rw [one, ← twoPow_add, Nat.sub_add_cancel (Nat.le_of_not_le fine)]
    rw [split, ← Nat.mul_assoc]
    exact Nat.mul_mod_left _ one

def wholeDigits (units : Nat) : Text := Text.ofNat (scaled units / tenPow 15)

def fractionDigits (units : Nat) : Text := Text.dropTrailing (· == '0') (places units)

open Text

theorem places_length (units : Nat) : (places units).length = 15 := by
  have short : (ofNat (scaled units % tenPow 15)).length ≤ 15 :=
    length_of_nat_le (by decide) (Nat.mod_lt _ (tenPow_pos 15))
  simp only [places, List.length_append, List.length_replicate]
  omega

theorem places_are_ascii {units : Nat} {char : Char} (member : char ∈ places units) :
    char.isDigit = true := by
  rcases List.mem_append.mp member with zero | digit
  · rw [List.eq_of_mem_replicate zero]
    rfl
  · exact is_ascii_digit_of_nat digit

theorem digits_value_places (units : Nat) : digitsValue (places units) = scaled units % tenPow 15 := by
  simp only [places]
  rw [digits_value_append_eq, digits_value_zeros, Nat.zero_mul, Nat.zero_add, digits_value_of_nat]

theorem places_eq (units : Nat) :
    ∃ count, places units = fractionDigits units ++ List.replicate count '0' := by
  obtain ⟨dropped, whole, zeros⟩ := exists_dropped (· == '0') (places units)
  have same : dropped = List.replicate dropped.length '0' :=
    List.eq_replicate_iff.mpr ⟨rfl, fun char member => by simpa using zeros char member⟩
  refine ⟨dropped.length, ?_⟩
  rw [← same]
  exact whole

theorem fraction_is_ascii {units : Nat} {char : Char} (member : char ∈ fractionDigits units) :
    char.isDigit = true := by
  obtain ⟨count, whole⟩ := places_eq units
  apply @places_are_ascii units
  rw [whole]
  exact List.mem_append_left _ member

/-- Reading the digits gives the number with fifteen places, rounded to a double. -/
theorem of_decimal_digits (units : Nat) :
    ofDecimal (wholeDigits units) (fractionDigits units) = ofRatio false (scaled units) (tenPow 15) := by
  obtain ⟨count, whole⟩ := places_eq units
  have length := congrArg List.length whole
  rw [places_length, List.length_append, List.length_replicate] at length
  have number : scaled units =
      digitsValue (wholeDigits units ++ fractionDigits units) * tenPow count := by
    have every : digitsValue (wholeDigits units ++ places units) = scaled units := by
      rw [digits_value_append_eq, places_length, digits_value_places, wholeDigits,
        digits_value_of_nat, Nat.mul_comm]
      exact Nat.div_add_mod (scaled units) (tenPow 15)
    rw [← every, whole, ← List.append_assoc, digits_value_append_eq _ (List.replicate count '0'),
      digits_value_zeros, List.length_replicate, Nat.add_zero]
  rw [number, length, tenPow_add, of_ratio_mul_mul (tenPow_pos count)]
  rfl

def pointed (whole fraction : Text) : Text :=
  whole ++ if fraction.isEmpty then [] else '.' :: fraction

theorem scaled_of_integer (number : Nat) : scaled (number * one) = number * tenPow 15 := by
  rw [scaled, Nat.mul_right_comm, roundDiv_mul_right one_pos]

theorem fraction_of_integer (number : Nat) : fractionDigits (number * one) = [] := by
  rw [fractionDigits, places, scaled_of_integer, Nat.mul_mod_left]
  rfl

theorem whole_of_integer (number : Nat) : wholeDigits (number * one) = ofNat number := by
  rw [wholeDigits, scaled_of_integer, Nat.mul_div_cancel _ (tenPow_pos 15)]

theorem is_no_point_of_ascii {char : Char} (ascii : char.isDigit = true) : (char == '.') = false := by
  apply beq_false_of_ne
  rintro rfl
  cases ascii

theorem pointed_nil (whole : Text) : pointed whole [] = whole := List.append_nil whole

theorem pointed_of_ne_nil (whole : Text) {fraction : Text} (nonempty : fraction ≠ []) :
    pointed whole fraction = whole ++ '.' :: fraction := by
  rw [pointed, if_neg (by simpa using nonempty)]

theorem drop_point {whole fraction : Text} (nonempty : whole ≠ [])
    (ascii : ∀ char ∈ whole ++ fraction, char.isDigit = true) :
    dropTrailing (· == '.') (whole ++ '.' :: fraction) = pointed whole fraction := by
  have kept : ∀ char ∈ whole ++ fraction, (char == '.') = false :=
    fun char member => is_no_point_of_ascii (ascii char member)
  by_cases empty : fraction = []
  · subst empty
    rw [List.append_nil] at kept
    have last : dropTrailing (· == '.') (whole ++ ['.']) = dropTrailing (· == '.') whole :=
      List.rdropWhile_concat_pos _ _ _ rfl
    have front := drop_trailing_append [] nonempty kept
    rw [List.nil_append] at front
    rw [last, front, pointed_nil]
  · have front := drop_trailing_append (whole ++ ['.']) empty
      fun char member => kept char (List.mem_append_right _ member)
    rw [List.append_assoc, List.singleton_append] at front
    rw [front, pointed_of_ne_nil whole empty]

theorem whole_ne_nil (units : Nat) : wholeDigits units ≠ [] := of_nat_ne_nil _

theorem digits_are_ascii (units : Nat) :
    ∀ char ∈ wholeDigits units ++ fractionDigits units, char.isDigit = true := by
  intro char member
  rcases List.mem_append.mp member with digit | digit
  · exact is_ascii_digit_of_nat digit
  · exact fraction_is_ascii digit

theorem tdiv_signed_units {unit : Nat} (positive : 0 < unit) (number : Nat) :
    Int.tdiv (signedUnits false (number * unit)) unit = number := by
  rw [signedUnits, if_neg Bool.false_ne_true, Int.natCast_mul]
  exact Int.mul_tdiv_cancel _ (Int.natCast_ne_zero.mpr (Nat.ne_of_gt positive))

theorem fixed_places_eq (units : Nat) :
    fixedPlaces false units = wholeDigits units ++ '.' :: places units := by
  rw [fixedPlaces, if_neg Bool.false_ne_true, List.nil_append, wholeDigits]

theorem to_text_of_integer (number : Nat) : (finite false (number * one)).toText = ofNat number := by
  rw [toText, if_pos (Nat.mul_mod_left number one), tdiv_signed_units one_pos, of_int_nat]

theorem to_text_of_fraction {units : Nat} (fraction : ¬units % one = 0) :
    (finite false units).toText = pointed (wholeDigits units) (fractionDigits units) := by
  have zeros := @drop_trailing_append_cons (· == '0') '.' rfl (wholeDigits units) (places units)
  rw [toText, if_neg fraction, fixed_places_eq, zeros]
  exact drop_point (whole_ne_nil units) (digits_are_ascii units)

theorem to_text_of_finite (units : Nat) :
    (finite false units).toText = pointed (wholeDigits units) (fractionDigits units) := by
  by_cases integer : units % one = 0
  · obtain ⟨number, rfl⟩ := Nat.dvd_of_mod_eq_zero integer
    rw [Nat.mul_comm one number, to_text_of_integer, fraction_of_integer, whole_of_integer,
      pointed_nil]
  · exact to_text_of_fraction integer

/-- Fifteen places are enough to tell the number from all others. -/
def IsShort : Double → Prop
  | finite false units => ofRatio false (scaled units) (tenPow 15) = finite false units
  | _ => False

instance : DecidablePred IsShort
  | finite false units =>
      inferInstanceAs (Decidable (ofRatio false (scaled units) (tenPow 15) = finite false units))
  | finite true _ | infinite _ | notANumber _ => .isFalse id

theorem is_short_finite (units : Nat) : (finite false units).IsShort ↔
    ofRatio false (scaled units) (tenPow 15) = finite false units := Iff.rfl

/-- A number that fifteen places tell is written with a point unless it is whole. -/
theorem is_integer_iff {units : Nat} (short : (finite false units).IsShort) :
    (finite false units).isInteger = true ↔ fractionDigits units = [] := by
  rw [isInteger, beq_iff_eq]
  constructor
  · intro integer
    obtain ⟨number, rfl⟩ := Nat.dvd_of_mod_eq_zero integer
    rw [Nat.mul_comm]
    exact fraction_of_integer number
  · intro whole
    obtain ⟨count, zeros⟩ := places_eq units
    rw [whole, List.nil_append] at zeros
    have none : scaled units % tenPow 15 = 0 := by
      rw [← digits_value_places, zeros, digits_value_zeros]
    obtain ⟨number, split⟩ := Nat.dvd_of_mod_eq_zero none
    change nearest false (scaled units * one) (tenPow 15) = finite false units at short
    have aligned : tenPow 15 * number * one = number * one * tenPow 15 := by
      rw [Nat.mul_comm (tenPow 15), Nat.mul_right_comm]
    have same := nearest_mul_mul (tenPow_pos 15) false (number * one) 1
    rw [Nat.one_mul] at same
    rw [split, aligned, same] at short
    exact is_integer_of_nearest short

end Double

end TabletopDice
