import TabletopDice.Proofs.Expression.Printing

/-!
Limits that are printed and read again. Every limit was read, so it can be told; and
the clauses that it is printed as stand behind the expression, one for each limit
that is not zero.
-/

namespace TabletopDice

open Text

def Numeral.ofInt : Int → Numeral
  | .ofNat number => { digits := ofNat number }
  | .negSucc number => { negative := true, digits := ofNat (number + 1) }

theorem split_sign_digits {digits : Text} (run : IsDigits digits) (rest : Text) :
    splitSign (digits ++ rest) = (false, digits ++ rest) := by
  unfold splitSign
  split
  next same =>
    have other := run.stops (fun _ digit => ne_of_digit digit (by decide : isDigit '-' = false)) rest
    rw [same] at other
    cases stops_cons.mp other
  next same =>
    have other := run.stops (fun _ digit => ne_of_digit digit (by decide : isDigit '+' = false)) rest
    rw [same] at other
    cases stops_cons.mp other
  next => rfl

theorem read_integer_signed {text digits rest : Text} {negative : Bool} (run : IsDigits digits)
    (stops : Stops isDigit rest) (sign : splitSign text = (negative, digits ++ rest)) :
    readInteger? text = some ({ negative, digits }, rest) := by
  simp only [readInteger?, sign, run.span stops]
  split
  next same => exact absurd (congrArg Prod.fst same) run.nonempty
  next same =>
    cases same
    rfl

theorem read_integer_of_int (number : Int) :
    readInteger? (ofInt number) = some (Numeral.ofInt number, []) := by
  cases number with
  | ofNat number =>
      have run := is_digits_of_nat number
      have unsigned := split_sign_digits run []
      rw [List.append_nil] at unsigned
      exact read_integer_signed run (stops_nil isDigit) (by rw [List.append_nil]; exact unsigned)
  | negSucc number =>
      exact read_integer_signed (is_digits_of_nat (number + 1)) (stops_nil isDigit)
        (by rw [List.append_nil]; rfl)

theorem read_of_int {number : Int} (tellable : isTellable number = true) :
    (Numeral.ofInt number).read = .ok number := by
  have short : number.natAbs < firstTooLong := by simpa [isTellable] using tellable
  have magnitude : (Numeral.ofInt number).magnitude = .ok number.natAbs := by
    cases number with
    | ofNat number =>
        rw [Numeral.magnitude_of_short (length_of_nat_le (by decide) short)]
        exact congrArg _ (digits_value_of_nat number)
    | negSucc number =>
        rw [Numeral.magnitude_of_short (length_of_nat_le (by decide) short)]
        exact congrArg _ (digits_value_of_nat (number + 1))
  rw [Numeral.read, Numeral.value, magnitude]
  cases number with
  | ofNat number => rfl
  | negSucc number => rfl

theorem tellable_of_read {numeral : Numeral} {number : Int} (read : numeral.read = .ok number) :
    isTellable number = true := by
  have bounded : number.natAbs < firstTooLong := by
    unfold Numeral.read Numeral.value Numeral.magnitude at read
    by_cases short : numeral.digits.length ≤ maxDigits
    · have small := Nat.lt_of_lt_of_le (digits_value_lt numeral.digits) (tenPow_le short)
      rw [if_pos short] at read
      cases read
      have unsigned : (if numeral.negative = true then -(digitsValue numeral.digits : Int)
          else digitsValue numeral.digits).natAbs = digitsValue numeral.digits := by
        split
        · rw [Int.natAbs_neg, Int.natAbs_natCast]
        · rw [Int.natAbs_natCast]
      rw [unsigned]
      exact small
    · rw [if_neg short] at read
      cases read
  simpa [isTellable] using bounded

/-- The number that is written, or the one from before where none is. -/
def Numeral.Tells (before : Int) : Option Numeral → Int → Prop
  | none, number => number = before
  | some numeral, number => numeral.read = .ok number

/-- Where each step sets a field to the number that its item tells, the field ends as the last
number told. -/
theorem Numeral.tells_of_foldlM {State Item : Type} {step : State → Item → Except Failure State}
    {field : State → Int} {told? : Item → Option Numeral}
    (steps : ∀ {state next item}, step state item = .ok next →
      Tells (field state) (told? item) (field next))
    {items : List Item} {state final : State} (done : items.foldlM step state = .ok final) :
    Tells (field state) (items.filterMap told?).getLast? (field final) := by
  induction items generalizing state with
  | nil =>
      cases done
      rfl
  | cons item items ih =>
      rw [List.foldlM_cons, bind_eq_ok] at done
      obtain ⟨next, first, rest⟩ := done
      have now := steps first
      have later := ih rest
      cases told : told? item with
      | none =>
          rw [told] at now
          rw [List.filterMap_cons_none told, ← (now : field next = field state)]
          exact later
      | some numeral =>
          rw [told] at now
          rw [List.filterMap_cons_some told, List.getLast?_cons]
          cases last : (items.filterMap told?).getLast? with
          | none =>
              rw [last] at later
              rw [(later : field final = field next)]
              exact now
          | some numeral =>
              rw [last] at later
              exact later

theorem split_limits_eq_ok {text expression : Text} {limits : Limits} :
    splitLimits text = .ok (expression, limits) ↔
      ∃ clauses, splitOn '|' text = expression :: clauses ∧
        clauses.foldlM Limits.withClause {} = .ok limits := by
  unfold splitLimits
  split
  next none => exact absurd none (splitOn_ne_nil '|' text)
  next first clauses parts =>
    simp only [bind_eq_ok, pure_eq_ok, Prod.mk.injEq, parts, List.cons.injEq]
    constructor
    · rintro ⟨final, read, rfl, rfl⟩
      exact ⟨clauses, ⟨rfl, rfl⟩, read⟩
    · rintro ⟨_, ⟨rfl, rfl⟩, read⟩
      exact ⟨limits, read, rfl, rfl⟩

namespace Limits

structure IsTellable (limits : Limits) : Prop where
  minimum : isTellable limits.minimum = true
  maximum : isTellable limits.maximum = true

theorem read_limit_eq_some {keyword clause : Text} {numeral : Numeral} :
    readLimit? keyword clause = some numeral ↔
      ∃ rest behind, after? keyword (trimLeft clause) = some rest ∧
        readInteger? (trimLeft rest) = some (numeral, behind) ∧ allBlank behind = true := by
  simp only [readLimit?, Option.bind_eq_bind, Option.bind_eq_some_iff, Prod.exists,
    Option.ite_none_right_eq_some, Option.some.injEq]
  constructor
  · rintro ⟨rest, found, _, behind, number, blank, rfl⟩
    exact ⟨rest, behind, found, number, blank⟩
  · rintro ⟨rest, behind, found, number, blank⟩
    exact ⟨rest, found, numeral, behind, number, blank, rfl⟩

theorem number_of_with_clause {limits final : Limits} {clause : Text}
    (read : limits.withClause clause = .ok final) :
    (∃ numeral number, readLimit? ['m', 'i', 'n'] clause = some numeral ∧
      readLimit? ['m', 'a', 'x'] clause = none ∧ numeral.read = .ok number ∧
      final = { limits with minimum := number }) ∨
    (∃ numeral number, readLimit? ['m', 'i', 'n'] clause = none ∧
      readLimit? ['m', 'a', 'x'] clause = some numeral ∧ numeral.read = .ok number ∧
      final = { limits with maximum := number }) := by
  unfold withClause at read
  split at read
  next numeral minimum =>
    obtain ⟨rest, -, found, -⟩ := read_limit_eq_some.mp minimum
    simp only [bind_eq_ok, pure_eq_ok] at read
    obtain ⟨number, told, rfl⟩ := read
    refine .inl ⟨numeral, number, minimum, ?_, told, rfl⟩
    rw [readLimit?, eq_append_of_after found]
    rfl
  next none =>
    split at read
    next numeral maximum =>
      simp only [bind_eq_ok, pure_eq_ok] at read
      obtain ⟨number, told, rfl⟩ := read
      exact .inr ⟨numeral, number, none, maximum, told, rfl⟩
    next => cases read

theorem tellable_with_clause {limits final : Limits} {clause : Text}
    (tellable : limits.IsTellable) (read : limits.withClause clause = .ok final) :
    final.IsTellable := by
  rcases number_of_with_clause read with ⟨_, _, -, -, told, rfl⟩ | ⟨_, _, -, -, told, rfl⟩
  · exact ⟨tellable_of_read told, tellable.maximum⟩
  · exact ⟨tellable.minimum, tellable_of_read told⟩

theorem tellable_of_split {text expression : Text} {limits : Limits}
    (cut : splitLimits text = .ok (expression, limits)) : limits.IsTellable := by
  have zero : isTellable 0 = true := @is_tellable_small 0 (by decide)
  obtain ⟨clauses, -, read⟩ := split_limits_eq_ok.mp cut
  exact kept_of_foldlM (fun _ _ _ _ tellable one => tellable_with_clause tellable one)
    ⟨zero, zero⟩ read

def printed (keyword : Text) (number : Int) : List Text :=
  if number = 0 then [] else [keyword ++ ' ' :: ofInt number]

def clauses (limits : Limits) : List Text :=
  printed ['m', 'i', 'n'] limits.minimum ++ printed ['m', 'a', 'x'] limits.maximum

theorem to_text_eq (limits : Limits) : limits.toText = limits.clauses.flatMap ('|' :: ·) := by
  unfold toText clauses printed
  split <;> split <;> simp

end Limits

theorem trim_left_of_int (number : Int) : trimLeft (ofInt number) = ofInt number := by
  apply trim_left_of_stops
  intro char found
  rcases of_int_chars number char (List.mem_of_mem_head? found) with rfl | ascii
  · rfl
  · exact is_visible_of_ascii ascii

theorem read_limit_printed {keyword : Text} (visible : Stops isBlank keyword)
    (nonempty : keyword ≠ []) (number : Int) :
    readLimit? keyword (keyword ++ ' ' :: ofInt number) = some (Numeral.ofInt number) := by
  have first : trimLeft (keyword ++ ' ' :: ofInt number) = keyword ++ ' ' :: ofInt number :=
    trim_left_of_stops (stops_append nonempty visible)
  rw [readLimit?, first, after_append]
  simp only [Option.bind_eq_bind, Option.bind_some, trim_left_space, trim_left_of_int,
    read_integer_of_int]
  rfl

namespace Limits

theorem with_minimum (limits : Limits) {number : Int} (tellable : isTellable number = true) :
    limits.withClause (['m', 'i', 'n'] ++ ' ' :: ofInt number) =
      .ok { limits with minimum := number } := by
  have read := read_limit_printed (stops_cons.mpr rfl : Stops isBlank ['m', 'i', 'n'])
    (List.cons_ne_nil _ _) number
  simp only [withClause, read, read_of_int tellable]
  rfl

theorem with_maximum (limits : Limits) {number : Int} (tellable : isTellable number = true) :
    limits.withClause (['m', 'a', 'x'] ++ ' ' :: ofInt number) =
      .ok { limits with maximum := number } := by
  have other : readLimit? ['m', 'i', 'n'] (['m', 'a', 'x'] ++ ' ' :: ofInt number) = none := rfl
  have read := read_limit_printed (stops_cons.mpr rfl : Stops isBlank ['m', 'a', 'x'])
    (List.cons_ne_nil _ _) number
  simp only [withClause, other, read, read_of_int tellable]
  rfl

/-- A limit that is left out because it is zero has to be zero already. -/
theorem read_printed {limits final : Limits} {keyword : Text} {number : Int}
    (unset : number = 0 → limits = final)
    (read : limits.withClause (keyword ++ ' ' :: ofInt number) = .ok final) :
    (printed keyword number).foldlM withClause limits = .ok final := by
  unfold printed
  by_cases zero : number = 0
  · rw [if_pos zero, unset zero]
    rfl
  · rw [if_neg zero, List.foldlM_cons, read]
    rfl

theorem read_clauses {limits : Limits} (tellable : limits.IsTellable) :
    limits.clauses.foldlM withClause {} = .ok limits := by
  have first : (printed ['m', 'i', 'n'] limits.minimum).foldlM withClause {} =
      .ok { minimum := limits.minimum } := by
    apply read_printed _ (with_minimum {} tellable.minimum)
    intro zero
    rw [zero]
  have second : (printed ['m', 'a', 'x'] limits.maximum).foldlM withClause
      { minimum := limits.minimum } = .ok limits := by
    apply read_printed _ (with_maximum { minimum := limits.minimum } tellable.maximum)
    intro zero
    rw [← zero]
  rw [clauses, List.foldlM_append, first]
  exact second

end Limits

theorem split_on_parts {separator : Char} {parts : List Text}
    (absent : ∀ part ∈ parts, separator ∉ part) {first : Text} (absentFirst : separator ∉ first) :
    splitOn separator (first ++ parts.flatMap (separator :: ·)) = first :: parts := by
  induction parts generalizing first with
  | nil => rw [List.flatMap_nil, List.append_nil, split_on_of_not_mem absentFirst]
  | cons part parts ih =>
      obtain ⟨here, others⟩ := List.forall_mem_cons.mp absent
      rw [List.flatMap_cons, List.cons_append, split_on_append absentFirst, ih others here]

theorem printed_chars {keyword : Text} {number : Int} :
    ∀ clause ∈ Limits.printed keyword number, ∀ char ∈ clause,
      char ∈ keyword ∨ char ∈ [' ', '-'] ∨ char.isDigit = true := by
  intro clause isClause char member
  unfold Limits.printed at isClause
  split at isClause
  · cases isClause
  · rw [List.mem_singleton.mp isClause, List.mem_append, List.mem_cons] at member
    rcases member with letter | rfl | inside
    · exact .inl letter
    · exact .inr (.inl (by decide))
    · rcases of_int_chars number char inside with rfl | ascii
      · exact .inr (.inl (by decide))
      · exact .inr (.inr ascii)

theorem not_mem_clause {limits : Limits} {char : Char}
    (other : char ∉ "min".toList ∧ char ∉ "max".toList ∧ char ∉ [' ', '-'])
    (noDigit : char.isDigit = false) : ∀ clause ∈ limits.clauses, char ∉ clause := by
  obtain ⟨noMinimum, noMaximum, noSign⟩ := other
  intro clause isClause member
  rcases List.mem_append.mp isClause with first | second
  · rcases printed_chars clause first char member with letter | sign | ascii
    · exact noMinimum letter
    · exact noSign sign
    · exact Bool.false_ne_true (noDigit.symm.trans ascii)
  · rcases printed_chars clause second char member with letter | sign | ascii
    · exact noMaximum letter
    · exact noSign sign
    · exact Bool.false_ne_true (noDigit.symm.trans ascii)

theorem split_limits_printed {expression : Text} (noBar : '|' ∉ expression) {limits : Limits}
    (tellable : limits.IsTellable) :
    splitLimits (expression ++ limits.toText) = .ok (expression, limits) := by
  rw [splitLimits, limits.to_text_eq,
    split_on_parts (not_mem_clause (by decide) (by decide)) noBar]
  simp only [Limits.read_clauses tellable]
  rfl

theorem stops_limits (limits : Limits) : Stops continuesWord limits.toText := by
  rw [limits.to_text_eq]
  cases limits.clauses with
  | nil => exact stops_nil _
  | cons clause clauses => exact stops_cons.mpr (not_continues_word '|' (by decide))

theorem confirmation_of_limits (limits : Limits) (before : Bool) :
    someWordStart startsConfirmation before limits.toText = false := by
  have silent : ∀ char ∈ limits.toText, ∀ rest, startsConfirmation (char :: rest) = false := by
    intro char member rest
    apply starts_confirmation_of_ne
    rintro rfl
    rw [limits.to_text_eq, List.mem_flatMap] at member
    obtain ⟨clause, isClause, inside⟩ := member
    rcases List.mem_cons.mp inside with bar | inside
    · cases bar
    · exact not_mem_clause (by decide) (by decide) clause isClause inside
  have searched := some_word_start_append_of_quiet silent before []
  rw [List.append_nil] at searched
  exact searched

end TabletopDice
