import TabletopDice.Json.Printer
import TabletopDice.Proofs.Json.Quotation
import TabletopDice.Proofs.Text.Numeral

/-!
Strings and whole numbers as JSON text, read back. Every character is written as
itself, behind a backslash, or by its number, so a printed string holds no control
character and is one token; a printed number is one word.
-/

namespace TabletopDice.Json

open Text

theorem hexadecimal_control : ∀ number < 0x20, hexadecimal 4 number =
    ['0', '0', Nat.digitChar (number / 0x10), Nat.digitChar (number % 0x10)] := by
  decide +kernel

theorem hex_value_digit : ∀ digit < 0x10, hexValue? (Nat.digitChar digit) = some digit := by
  decide +kernel

inductive Escaped (char : Char) : Text → Prop
  | plain (noQuote : char ≠ '"') (noBackslash : char ≠ '\\') (visible : 0x20 ≤ char.toNat) :
      Escaped char [char]
  | short (letter : Char) (known : shortEscape? letter = some char) (ascii : letter.toNat < 0x80)
      (visible : 0x20 ≤ letter.toNat) : Escaped char ['\\', letter]
  | number (control : char.toNat < 0x20) :
      Escaped char ('\\' :: 'u' :: hexadecimal 4 char.toNat)

theorem escaped_escape_char (char : Char) : Escaped char (escapeChar char) := by
  unfold escapeChar
  split
  next special =>
    rcases special with rfl | rfl
    · exact .short _ rfl (by decide) (by decide)
    · exact .short _ rfl (by decide) (by decide)
  next plain =>
    split
    next same => exact same ▸ .short 'n' rfl (by decide) (by decide)
    next =>
    split
    next same => exact same ▸ .short 'r' rfl (by decide) (by decide)
    next =>
    split
    next same => exact same ▸ .short 't' rfl (by decide) (by decide)
    next =>
    split
    next same => exact same ▸ .short 'b' rfl (by decide) (by decide)
    next =>
    split
    next same => exact same ▸ .short 'f' rfl (by decide) (by decide)
    next =>
    split
    next control => exact .number control
    next visible =>
      rw [not_or] at plain
      exact .plain plain.1 plain.2 (Nat.le_of_not_lt visible)

theorem hex_digit_plain : ∀ digit < 0x10, 0x20 ≤ (Nat.digitChar digit).toNat ∧
    (Nat.digitChar digit).toNat < 0x80 ∧ Nat.digitChar digit ≠ '"' ∧ Nat.digitChar digit ≠ '\\' := by
  decide +kernel

namespace Token

theorem lex_string_plain {part : Text} (plain : ∀ char ∈ part, char ≠ '"' ∧ char ≠ '\\')
    (read rest : Text) : lex (.string read) (part ++ rest) = lex (.string (part.reverse ++ read)) rest := by
  induction part generalizing read with
  | nil => rfl
  | cons char part ih =>
      obtain ⟨⟨noQuote, noBackslash⟩, others⟩ := List.forall_mem_cons.mp plain
      rw [List.cons_append, lex, if_neg noQuote, if_neg noBackslash, ih others, List.reverse_cons,
        List.append_assoc, List.singleton_append]

end Token

namespace Escaped

variable {char : Char} {written : Text}

theorem lex (escaped : Escaped char written) (read rest : Text) :
    Token.lex (.string read) (written ++ rest) = Token.lex (.string (written.reverse ++ read)) rest := by
  cases escaped with
  | plain noQuote noBackslash _ =>
      exact Token.lex_string_plain (by simp [noQuote, noBackslash]) read rest
  | short letter _ _ _ => rfl
  | number control =>
      have digits : ∀ digit ∈ hexadecimal 4 char.toNat, digit ≠ '"' ∧ digit ≠ '\\' := by
        rw [hexadecimal_control _ control]
        have first := hex_digit_plain (char.toNat / 0x10) (by omega)
        have second := hex_digit_plain (char.toNat % 0x10) (by omega)
        simp [first, second]
      change Token.lex (.string ('u' :: '\\' :: read)) (hexadecimal 4 char.toNat ++ rest) = _
      rw [Token.lex_string_plain digits]
      simp

theorem unescape (escaped : Escaped char written) (rest : Text) :
    Json.unescape (written ++ rest) = (Json.unescape rest).map (char.toNat :: ·) := by
  cases escaped with
  | plain _ noBackslash visible =>
      have allowed : ¬(char = '\\' ∨ char.toNat < 0x20) := by
        rw [not_or]
        exact ⟨noBackslash, Nat.not_lt.mpr visible⟩
      have single : ∀ rest : Text, Json.unescape (char :: rest) =
          if char = '\\' ∨ char.toNat < 0x20 then none
          else (Json.unescape rest).map (char.toNat :: ·) := by
        intro rest
        rw [Json.unescape.eq_4 _ _ (fun _ _ _ _ _ same _ => noBackslash same)
          (fun _ _ same _ => noBackslash same)]
      rw [List.singleton_append, single, if_neg allowed]
  | short letter known _ _ =>
      have noNumber : letter ≠ 'u' := by
        rintro rfl
        cases known
      rw [List.cons_append, List.singleton_append,
        Json.unescape.eq_3 _ _ (fun _ _ _ _ _ same _ => noNumber same), known]
      cases Json.unescape rest <;> rfl
  | number control =>
      have first := hex_value_digit (char.toNat / 0x10) (by omega)
      have second := hex_value_digit (char.toNat % 0x10) (by omega)
      have zero : hexValue? '0' = some 0 := rfl
      have sum : 0 * 0x1000 + 0 * 0x100 + char.toNat / 0x10 * 0x10 + char.toNat % 0x10 = char.toNat := by
        omega
      rw [hexadecimal_control _ control]
      simp only [List.cons_append, List.nil_append, Json.unescape, zero, first, second,
        Option.bind_eq_bind, Option.bind_some, sum]
      cases Json.unescape rest <;> rfl

theorem visible (escaped : Escaped char written) : ∀ other ∈ written, 0x20 ≤ other.toNat := by
  cases escaped with
  | plain _ _ visible => simpa using visible
  | short letter _ _ visible => simpa using visible
  | number control =>
      have first := hex_digit_plain (char.toNat / 0x10) (by omega)
      have second := hex_digit_plain (char.toNat % 0x10) (by omega)
      rw [hexadecimal_control _ control]
      simp [first, second]

/-- A character beyond ASCII stands for itself, in the string; the others are ASCII. -/
theorem guards (escaped : Escaped char written) : Quotation.inside.Guards written ∧
    Quotation.inside.after written = .inside := by
  cases escaped with
  | plain noQuote noBackslash _ =>
      constructor
      · rintro left other right same -
        cases left with
        | nil => decide
        | cons first left => cases left <;> cases same
      · simp [Quotation.after, Quotation.next, noQuote, noBackslash]
  | short letter known ascii _ =>
      exact ⟨Quotation.guards_of_ascii _ (by simpa using ascii), rfl⟩
  | number control =>
      have first := hex_digit_plain (char.toNat / 0x10) (by omega)
      have second := hex_digit_plain (char.toNat % 0x10) (by omega)
      rw [hexadecimal_control _ control]
      constructor
      · apply Quotation.guards_of_ascii
        simp [first, second]
      · simp [Quotation.after, Quotation.next, first, second]

end Escaped

theorem lex_escaped (text read rest : Text) :
    Token.lex (.string read) (text.flatMap escapeChar ++ '"' :: rest) =
      .string (read.reverse ++ text.flatMap escapeChar) :: Token.lex .between rest := by
  induction text generalizing read with
  | nil =>
      change Token.string read.reverse :: _ = _
      simp
  | cons char text ih =>
      rw [List.flatMap_cons, List.append_assoc, (escaped_escape_char char).lex, ih,
        List.reverse_append, List.reverse_reverse, List.append_assoc]

theorem lex_print_string (text rest : Text) :
    Token.lex .between (printString text ++ rest) =
      .string (text.flatMap escapeChar) :: Token.lex .between rest := by
  have opened : Token.lex .between (printString text ++ rest) =
      Token.lex (.string []) (text.flatMap escapeChar ++ '"' :: rest) := by
    rw [printString, List.cons_append, List.cons_append, List.append_assoc]
    rfl
  rw [opened, lex_escaped]
  rfl

theorem unescape_escaped (text : Text) :
    unescape (text.flatMap escapeChar) = some (text.map Char.toNat) := by
  induction text with
  | nil => rfl
  | cons char text ih =>
      rw [List.flatMap_cons, (escaped_escape_char char).unescape, ih]
      rfl

theorem join_pairs_of_chars (text : Text) : joinPairs (text.map Char.toNat) = some text := by
  induction text with
  | nil => rfl
  | cons char text ih =>
      have valid : char.toNat < 0xD800 ∨ 0xDFFF < char.toNat ∧ char.toNat < 0x110000 := char.valid
      have noHigh : isHighSurrogate char.toNat = false := by
        simp only [isHighSurrogate, Bool.and_eq_false_iff, decide_eq_false_iff_not]
        omega
      have noLow : isLowSurrogate char.toNat = false := by
        simp only [isLowSurrogate, Bool.and_eq_false_iff, decide_eq_false_iff_not]
        omega
      rw [List.map_cons, joinPairs.eq_def]
      simp only [noHigh, noLow, ih, Bool.false_eq_true, if_false]
      rw [Option.map_some, Char.ofNat_toNat]

theorem of_written_escaped (text : Text) :
    ofWritten? (text.flatMap escapeChar) = some (.string text) := by
  rw [ofWritten?, unescape_escaped, Option.map_some, join_pairs_of_chars]
  rfl

theorem not_mem_int {value : Int} {char : Char} (other : char ≠ '-') (noDigit : char.isDigit = false) :
    char ∉ ofInt value := by
  intro member
  rcases of_int_chars value char member with same | digit
  · exact other same
  · rw [noDigit] at digit
    cases digit

theorem in_word_of_int {value : Int} {char : Char} (member : char ∈ ofInt value) :
    Token.endsWord char = false := by
  rcases of_int_chars value char member with rfl | digit
  · rfl
  · have noMark (mark : Char) (noDigit : mark.isDigit = false) : char ≠ mark := by
      rintro rfl
      rw [noDigit] at digit
      cases digit
    simp [Token.endsWord, isSpace, structure?, noMark]

theorem lex_print_int (value : Int) {next : Char} (ends : Token.endsWord next = true) (rest : Text) :
    Token.lex .between (ofInt value ++ next :: rest) =
      .word (ofInt value) :: Token.lex .between (next :: rest) := by
  have going (read more : Text) (inWord : ∀ char ∈ more, Token.endsWord char = false) :
      Token.lex (.word read) (more ++ next :: rest) =
        .word (read.reverse ++ more) :: Token.lex .between (next :: rest) := by
    induction more generalizing read with
    | nil => rw [List.nil_append, Token.lex_word_end ends, List.append_nil]
    | cons char more ih =>
        obtain ⟨first, others⟩ := List.forall_mem_cons.mp inWord
        rw [List.cons_append, Token.lex_word_word first, ih _ others, List.reverse_cons,
          List.append_assoc, List.singleton_append]
  obtain ⟨first, more, printed⟩ := List.exists_cons_of_ne_nil (of_int_ne_nil value)
  have inWord : ∀ char ∈ first :: more, Token.endsWord char = false :=
    fun char member => in_word_of_int (printed ▸ member)
  obtain ⟨inFirst, others⟩ := List.forall_mem_cons.mp inWord
  rw [printed, List.cons_append, Token.lex_between_word inFirst, going _ _ others]
  rfl

theorem no_needless_zero (number : Nat) :
    (ofNat number).length = 1 ∨ (ofNat number).head? ≠ some '0' := by
  by_contra both
  rw [not_or, not_not, List.head?_eq_some_iff] at both
  obtain ⟨long, rest, zero⟩ := both
  have value := digits_value_of_nat number
  rw [zero] at value long
  have short : number < tenPow rest.length := by
    rw [← value]
    exact digits_value_lt rest
  have some : 0 < rest.length := by
    rw [List.length_cons] at long
    omega
  have length := length_of_nat_le some short
  rw [zero, List.length_cons] at length
  omega

theorem is_digit_of_nat (number : Nat) : ∀ char ∈ ofNat number, char.isDigit = true :=
  fun _ member => is_ascii_digit_of_nat member

theorem span_of_nat (number : Nat) : (ofNat number).takeWhile Char.isDigit = ofNat number ∧
    (ofNat number).dropWhile Char.isDigit = [] := by
  rw [List.takeWhile_eq_self_iff, List.dropWhile_eq_nil_iff]
  exact ⟨is_digit_of_nat number, is_digit_of_nat number⟩

theorem needless_zero_of_nat (number : Nat) : ((ofNat number).isEmpty ||
    ((ofNat number).length ≠ 1 && (ofNat number).head? = some '0')) = false := by
  simp only [Bool.or_eq_false_iff, List.isEmpty_eq_false_iff, Bool.and_eq_false_iff,
    decide_eq_false_iff_not, not_not]
  exact ⟨of_nat_ne_nil number, no_needless_zero number⟩

theorem minus_not_first (number : Nat) (rest : Text) : ofNat number ≠ '-' :: rest := by
  intro same
  have first := is_digit_of_nat number '-' (same ▸ List.mem_cons_self)
  cases first

theorem number_of_word_int (value : Int) :
    numberOfWord? (ofInt value) = some (.integer value) := by
  cases value with
  | ofNat number =>
      obtain ⟨digits, nothing⟩ := span_of_nat number
      rw [ofInt, numberOfWord?.eq_2 _ (minus_not_first number)]
      simp only [digits, nothing, needless_zero_of_nat number, digits_value_of_nat]
      rfl
  | negSucc number =>
      obtain ⟨digits, nothing⟩ := span_of_nat (number + 1)
      rw [ofInt, numberOfWord?.eq_1]
      simp only [digits, nothing, needless_zero_of_nat (number + 1), digits_value_of_nat]
      rfl

theorem of_word_of_int (value : Int) : ofWord? (ofInt value) = some (.integer value) := by
  have other {literal : String} (letter : Char) (inside : letter ∈ literal.toList)
      (noMinus : letter ≠ '-') (noDigit : letter.isDigit = false) :
      String.ofList (ofInt value) ≠ literal := by
    rintro rfl
    rw [String.toList_ofList] at inside
    exact not_mem_int noMinus noDigit inside
  unfold ofWord?
  split
  next same => exact absurd same (other 'n' (by decide) (by decide) rfl)
  next same => exact absurd same (other 't' (by decide) (by decide) rfl)
  next same => exact absurd same (other 'f' (by decide) (by decide) rfl)
  next same => exact absurd same (other 'N' (by decide) (by decide) rfl)
  next same => exact absurd same (other 'I' (by decide) (by decide) rfl)
  next same => exact absurd same (other 'I' (by decide) (by decide) rfl)
  next => exact number_of_word_int value

theorem whole_part_of_int (value : Int) : wholePart (ofInt value) = ofNat value.natAbs := by
  cases value with
  | ofNat number =>
      rw [ofInt, wholePart.eq_2 _ (minus_not_first number), (span_of_nat number).1]
      rfl
  | negSucc number =>
      rw [ofInt, wholePart.eq_1, (span_of_nat (number + 1)).1]
      rfl

theorem is_decimal_of_int (value : Int) : isDecimal (ofInt value) = false := by
  have unsigned (digits : Text) (all : digits.dropWhile Char.isDigit = []) (word : Text)
      (behind : (if word.head? = some '-' then word.drop 1 else word) = digits) :
      isDecimal word = false := by
    rw [isDecimal, behind, all]
  cases value with
  | ofNat number =>
      apply unsigned (ofNat number) (span_of_nat number).2
      apply if_neg
      rw [ofInt, List.head?_eq_some_iff]
      rintro ⟨rest, same⟩
      exact minus_not_first number rest same
  | negSucc number => exact unsigned _ (span_of_nat (number + 1)).2 _ rfl

theorem is_too_long_of_int (value : Int) : isTooLong (ofInt value) = !isTellable value := by
  have length : (ofNat value.natAbs).length ≤ maxDigits ↔ value.natAbs < firstTooLong :=
    length_of_nat_le_iff (by decide)
  rw [isTooLong, whole_part_of_int, isTellable]
  rcases Nat.lt_or_ge maxDigits (ofNat value.natAbs).length with long | short
  · have untold : ¬value.natAbs < firstTooLong := by
      rw [← length]
      omega
    have noZero : (ofNat value.natAbs).head? ≠ some '0' := by
      rcases no_needless_zero value.natAbs with one | noZero
      · rw [one] at long
        exact absurd long (by decide)
      · exact noZero
    simp [long, untold, noZero]
  · simp [Nat.not_lt.mpr short, length.mp short]

theorem excludes_of_int (bounds : Bounds) (value : Int) :
    bounds.excludes (ofInt value) = !isTellable value := by
  rw [Bounds.excludes, is_too_long_of_int, is_decimal_of_int, Bool.and_false, Bool.not_false,
    Bool.and_true]

end TabletopDice.Json
