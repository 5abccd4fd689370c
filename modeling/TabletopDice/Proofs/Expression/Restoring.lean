import TabletopDice.Proofs.Expression.Written
import TabletopDice.Proofs.Number.DecimalText

/-!
Values that are printed and read again. A constant comes back if fifteen places tell
it, a die group if its text says which attempt counts, and neither does if its label
means something else behind a blank.
-/

namespace TabletopDice

open Text

namespace DieGroup

def request (group : DieGroup) : Text :=
  (if group.initialMax then ['>'] else []) ++ (group.shape ++
    if group.rerolls ≤ 0 then [] else ' ' :: (choiceWords group.best ++ ofInt (group.rerolls + 1)))

def pieces (group : DieGroup) (choice : Option (Bool × Text)) (label : Text) : DieNotation where
  initialMax := group.initialMax
  numerator := ofInt group.numerator
  denominator := if 0 < group.denominator then some (ofInt group.denominator) else none
  sides := some (ofInt group.sides)
  choice := choice
  label := label

end DieGroup

theorem is_digits_of_int {number : Int} (nonnegative : 0 ≤ number) : IsDigits (ofInt number) := by
  obtain ⟨natural, rfl⟩ := Int.eq_ofNat_of_zero_le nonnegative
  exact is_digits_of_nat natural

theorem whole_number_of_int {number : Int} (nonnegative : 0 ≤ number)
    (tellable : isTellable number = true) : wholeNumber (ofInt number) = .ok number.toNat := by
  obtain ⟨natural, rfl⟩ := Int.eq_ofNat_of_zero_le nonnegative
  apply whole_number_of_nat
  simpa [isTellable] using tellable

theorem read_shape {group : DieGroup} (proper : group.IsProper) {tail : Text}
    (stops : Stops isDigit tail) :
    DieNotation.read? ((if group.initialMax then ['>'] else []) ++ (group.shape ++ tail)) =
      some (group.pieces (readAttempts (trimLeft tail)).1 (trim (readAttempts (trimLeft tail)).2)) := by
  have count := is_digits_of_int proper.numerator
  have sides := is_digits_of_int (Int.le_trans (by decide) proper.sides)
  have letter := read_letter_digits sides tail
  have printed := read_sides_digits sides stops
  have visible : Stops isBlank ('d' :: (ofInt group.sides ++ tail)) := stops_cons.mpr (by decide)
  have letters : Stops isDigit ('d' :: (ofInt group.sides ++ tail)) := stops_cons.mpr (by decide)
  have mark (rest : Text) : readMark ((if group.initialMax then ['>'] else []) ++
      (ofInt group.numerator ++ rest)) = (group.initialMax, ofInt group.numerator ++ rest) := by
    cases group.initialMax with
    | true => exact read_mark_mark (count.stops (fun _ digit => is_visible_of_digit digit) rest)
    | false => exact DieNotation.read_mark_digits count rest
  by_cases bar : 0 < group.denominator
  · have below := is_digits_of_int proper.denominator
    have shape : group.shape ++ tail = ofInt group.numerator ++
        '/' :: (ofInt group.denominator ++ 'd' :: (ofInt group.sides ++ tail)) := by
      simp [DieGroup.shape, bar]
    rw [shape, DieGroup.pieces, if_pos bar]
    exact DieNotation.read_eq (mark _) (count.span (stops_cons.mpr (by decide)))
      (read_bar_digits below letters visible) letter printed
  · have shape : group.shape ++ tail =
        ofInt group.numerator ++ 'd' :: (ofInt group.sides ++ tail) := by
      simp [DieGroup.shape, bar]
    rw [shape, DieGroup.pieces, if_neg bar]
    refine DieNotation.read_eq (mark _) (count.span letters) ?_ letter printed
    rw [trim_left_of_stops visible]
    exact read_bar_of_stops (stops_cons.mpr rfl)

theorem die_to_text {group : DieGroup} (proper : group.IsProper) :
    (Component.die group).toText = labelled group.request group.label := by
  have words : (if group.best then " best of ".toList else " worst of ".toList) =
      ' ' :: choiceWords group.best := by
    cases group.best <;> rfl
  simp only [Component.toText, DieGroup.request, labelled, proper.dieBonus, words, if_true,
    List.append_nil, List.append_assoc, List.cons_append]

theorem stops_labelled_nil {kind : Char → Bool} (blank : kind ' ' = false) (label : Text) :
    Stops kind (labelled [] label) := by
  by_cases named : label = []
  · subst named
    exact stops_nil kind
  · rw [labelled_of_ne_nil [] named]
    exact stops_cons.mpr blank

theorem labelled_append (head more label : Text) :
    labelled (head ++ more) label = head ++ labelled more label := List.append_assoc ..

theorem trim_left_labelled {label : Text} (isLabel : IsLabel label) :
    trimLeft (labelled [] label) = label := by
  by_cases named : label = []
  · subst named
    rfl
  · rw [labelled_of_ne_nil [] named]
    exact trim_left_of_stops isLabel.stops_blank

theorem trim_labelled {label : Text} (isLabel : IsLabel label) :
    trim (labelled [] label) = label := by
  have right := isLabel.trimmed
  rw [trim, trim_left_of_stops isLabel.stops_blank] at right
  rw [trim, trim_left_labelled isLabel, right]

theorem read_choosing {group : DieGroup} (written : group.IsWritten) (choosing : 0 < group.rerolls) :
    DieNotation.read? (labelled group.request group.label) =
      some (group.pieces (some (group.best, ofInt (group.rerolls + 1))) group.label) := by
  have attempts : IsDigits (ofInt (group.rerolls + 1)) := is_digits_of_int (by omega)
  have stops := stops_labelled_nil (rfl : isDigit ' ' = false) group.label
  let choice : Text := choiceWords group.best ++
    (ofInt (group.rerolls + 1) ++ labelled [] group.label)
  have request : labelled group.request group.label =
      (if group.initialMax then ['>'] else []) ++ (group.shape ++ ' ' :: choice) := by
    rw [DieGroup.request, if_neg (Int.not_le.mpr choosing), labelled_append, labelled_append]
    exact congrArg _ (congrArg _ (congrArg _ (List.append_assoc ..)))
  have visible : trimLeft (' ' :: choice) = choice := by
    simp only [choice]
    cases group.best <;> rfl
  have found : readAttempts choice =
      (some (group.best, ofInt (group.rerolls + 1)), labelled [] group.label) := by
    rw [readAttempts, read_choice_printed group.best attempts stops]
  rw [request, read_shape written.proper (stops_cons.mpr (by decide)), visible, found,
    trim_labelled written.label]

/-- A die group without a choice may find one in its label. -/
theorem read_plain {group : DieGroup} (written : group.IsWritten) (plain : group.rerolls ≤ 0) :
    DieNotation.read? (labelled group.request group.label) =
      some (group.pieces (readAttempts group.label).1 (trim (readAttempts group.label).2)) := by
  have request : labelled group.request group.label =
      (if group.initialMax then ['>'] else []) ++ (group.shape ++ labelled [] group.label) := by
    rw [DieGroup.request, if_pos plain, labelled_append, labelled_append]
  rw [request, read_shape written.proper (stops_labelled_nil (by decide) group.label),
    trim_left_labelled written.label]

theorem check_label_of_written {group : DieGroup} (written : group.IsWritten)
    (choice : Option (Bool × Text)) (part : Text) :
    (group.pieces choice group.label).checkLabel part = .ok () := by
  rcases written.label.bare with named | bare
  · simp [DieNotation.checkLabel, DieGroup.pieces, named]
    rfl
  · simp [DieNotation.checkLabel, DieGroup.pieces, written.noDie, bare]
    rfl

theorem to_group_pieces {group : DieGroup} (written : group.IsWritten) (part expression : Text)
    (choice : Option (Bool × Text)) {attempts : Nat} (silent : mentionsLimit part = false)
    (counted : choice.elim (pure 1) (fun choice => wholeNumber choice.2) = .ok attempts)
    (positive : ¬attempts = 0) :
    (group.pieces choice group.label).toGroup part expression =
      .ok { group with rerolls := attempts - 1, best := choice.elim true Prod.fst } := by
  have proper := written.proper
  have tellable := written.tellable
  simp only [List.forall_mem_cons] at tellable
  obtain ⟨tellSides, tellNumerator, tellDenominator, -⟩ := tellable
  have someSides : 0 ≤ group.sides := Int.le_trans (by decide) proper.sides
  have sides := whole_number_of_int someSides tellSides
  have numerator : (group.pieces choice group.label).count = .ok group.numerator.toNat := by
    have nonempty := (is_digits_of_int proper.numerator).nonempty
    rw [DieNotation.count, DieGroup.pieces, if_neg (by simpa using nonempty)]
    exact whole_number_of_int proper.numerator tellNumerator
  have denominator : (group.pieces choice group.label).denominator.elim (pure 0) wholeNumber =
      .ok group.denominator.toNat := by
    unfold DieGroup.pieces
    by_cases bar : 0 < group.denominator
    · rw [if_pos bar]
      exact whole_number_of_int proper.denominator tellDenominator
    · have none : group.denominator = 0 := Int.le_antisymm (Int.not_lt.mp bar) proper.denominator
      rw [if_neg bar, none]
      rfl
  apply to_group_eq_ok.mpr
  refine ⟨Bool.eq_false_iff.mp silent, _, sides, ?_, attempts, counted, positive, (),
    check_label_of_written written choice part, _, numerator, _, denominator, ?_⟩
  · have positiveSides := proper.sides
    omega
  · simp only [Int.toNat_of_nonneg someSides, Int.toNat_of_nonneg proper.numerator,
      Int.toNat_of_nonneg proper.denominator, ← proper.dieBonus]
    rfl

/-- A constant or a die group that is read as itself when it stands alone. -/
def Component.ReadsBack : Component → Prop
  | .constant value name =>
      value.IsShort ∧ mentionsLimit name = false ∧
        ¬(value.isInteger = true ∧ (DieNotation.read? name).isSome = true)
  | .die group =>
      (0 < group.rerolls ∨ (group.best = true ∧ readChoice? group.label = none)) ∧
        mentionsLimit group.label = false
  | _ => True

instance : DecidablePred Component.ReadsBack
  | .constant value name => inferInstanceAs (Decidable (value.IsShort ∧ mentionsLimit name = false ∧
      ¬(value.isInteger = true ∧ (DieNotation.read? name).isSome = true)))
  | .die group => inferInstanceAs (Decidable
      ((0 < group.rerolls ∨ (group.best = true ∧ readChoice? group.label = none)) ∧
        mentionsLimit group.label = false))
  | .operator _ | .openGroup | .closeGroup | .label _ => .isTrue trivial

def isHeadChar (char : Char) : Bool := isDigit char || ">/d bestofwr.in".toList.contains char

theorem IsDigits.head_chars {digits : Text} (run : IsDigits digits) :
    ∀ char ∈ digits, isHeadChar char = true := by
  intro char member
  rw [isHeadChar, run.digits char member, Bool.true_or]

theorem request_chars {group : DieGroup} (proper : group.IsProper) :
    ∀ char ∈ group.request, isHeadChar char = true := by
  have count := (is_digits_of_int proper.numerator).head_chars
  have sides := (is_digits_of_int (Int.le_trans (by decide) proper.sides)).head_chars
  have attempts := (is_digits_of_int (Int.le_trans proper.rerolls (Int.le_add_one
    (Int.le_refl _)))).head_chars
  have below := (is_digits_of_int proper.denominator).head_chars
  have mark : ∀ char ∈ (if group.initialMax then ['>'] else []), isHeadChar char = true := by
    cases group.initialMax <;> exact List.all_eq_true.mp (by decide)
  have words : ∀ char ∈ choiceWords group.best, isHeadChar char = true := by
    cases group.best <;> exact List.all_eq_true.mp (by decide)
  have bar : ∀ char ∈ (if 0 < group.denominator then '/' :: ofInt group.denominator else []),
      isHeadChar char = true := by
    split
    · exact List.forall_mem_cons.mpr ⟨rfl, below⟩
    · intro char member
      cases member
  have choice : ∀ char ∈ (if group.rerolls ≤ 0 then []
      else ' ' :: (choiceWords group.best ++ ofInt (group.rerolls + 1))),
      isHeadChar char = true := by
    split
    · intro char member
      cases member
    · exact List.forall_mem_cons.mpr ⟨rfl, List.forall_mem_append.mpr ⟨words, attempts⟩⟩
  have shape : ∀ char ∈ group.shape, isHeadChar char = true :=
    List.forall_mem_append.mpr ⟨List.forall_mem_append.mpr ⟨count, bar⟩,
      List.forall_mem_cons.mpr ⟨rfl, sides⟩⟩
  exact List.forall_mem_append.mpr ⟨mark, List.forall_mem_append.mpr ⟨shape, choice⟩⟩

theorem not_mem_head {head : Text} (chars : ∀ char ∈ head, isHeadChar char = true) {char : Char}
    (other : isHeadChar char = false) : char ∉ head := by
  intro member
  rw [chars char member] at other
  cases other

theorem request_quiet {group : DieGroup} (proper : group.IsProper) : 'm' ∉ group.request :=
  not_mem_head (request_chars proper) rfl

theorem parse_value_of_read {part expression : Text} {pieces : DieNotation} {group : DieGroup}
    (read : DieNotation.read? part = some pieces) :
    parseValue part expression = .ok (.die group) ↔ pieces.toGroup part expression = .ok group := by
  simp only [parseValue, read, bind_eq_ok, pure_eq_ok, Component.die.injEq, exists_eq_right]

/-- A group that tells its choice comes back unless its label looks like a limit. -/
theorem parse_value_choosing {group : DieGroup} (written : group.IsWritten)
    (choosing : 0 < group.rerolls) (expression : Text) :
    parseValue (labelled group.request group.label) expression = .ok (.die group) ↔
      mentionsLimit group.label = false := by
  have mentions := limit_of_labelled (request_quiet written.proper) group.label
  rw [parse_value_of_read (read_choosing written choosing), ← mentions]
  constructor
  · intro accepted
    exact Bool.eq_false_iff.mpr (to_group_eq_ok.mp accepted).1
  · intro silent
    have tellable := written.tellable (group.rerolls + 1) (by simp)
    have counted := whole_number_of_int (by omega : 0 ≤ group.rerolls + 1) tellable
    have accepted := to_group_pieces written _ expression
      (some (group.best, ofInt (group.rerolls + 1))) silent counted (by omega)
    rw [accepted]
    have attempts : ((group.rerolls + 1).toNat : Int) - 1 = group.rerolls := by omega
    rw [attempts]
    rfl

/-- A group without a choice comes back as the best of one attempt, unless its label looks like
a choice or a limit. -/
theorem parse_value_plain {group : DieGroup} (written : group.IsWritten)
    (plain : group.rerolls ≤ 0) (expression : Text) :
    parseValue (labelled group.request group.label) expression = .ok (.die group) ↔
      (group.best = true ∧ readChoice? group.label = none) ∧ mentionsLimit group.label = false := by
  have mentions := limit_of_labelled (request_quiet written.proper) group.label
  rw [parse_value_of_read (read_plain written plain), ← mentions]
  cases found : readChoice? group.label with
  | some choice =>
      obtain ⟨choice, rest⟩ := choice
      have attempts : readAttempts group.label = (some choice, rest) := by rw [readAttempts, found]
      rw [attempts]
      constructor
      · intro accepted
        obtain ⟨-, _, -, -, _, -, -, _, -, _, -, _, -, same⟩ := to_group_eq_ok.mp accepted
        have label : trim rest = group.label := congrArg DieGroup.label same
        have shorter := length_read_choice found
        have trimmed := length_trim_le rest
        rw [label] at trimmed
        omega
      · rintro ⟨⟨-, none⟩, -⟩
        cases none
  | none =>
      have attempts : readAttempts group.label = (none, group.label) := by rw [readAttempts, found]
      rw [attempts, written.label.trimmed]
      constructor
      · intro accepted
        obtain ⟨silent, _, -, -, _, -, -, _, -, _, -, _, -, same⟩ := to_group_eq_ok.mp accepted
        exact ⟨⟨(congrArg DieGroup.best same).symm, rfl⟩, Bool.eq_false_iff.mpr silent⟩
      · rintro ⟨⟨best, -⟩, silent⟩
        have counted : (none : Option (Bool × Text)).elim (pure 1)
            (fun choice => wholeNumber choice.2) = .ok 1 := rfl
        have accepted := to_group_pieces written _ expression none silent counted (by decide)
        have once : group.rerolls = 0 := Int.le_antisymm plain written.proper.rerolls
        have attempts : ((1 : Nat) : Int) - 1 = group.rerolls := once.symm
        have choice : (none : Option (Bool × Text)).elim true Prod.fst = group.best := best.symm
        rw [accepted, attempts, choice]

theorem parse_value_die {group : DieGroup} (written : group.IsWritten) (expression : Text) :
    parseValue (Component.die group).toText expression = .ok (.die group) ↔
      (Component.die group).ReadsBack := by
  rw [die_to_text written.proper, Component.ReadsBack]
  by_cases choosing : 0 < group.rerolls
  · rw [parse_value_choosing written choosing]
    simp [choosing]
  · rw [parse_value_plain written (Int.not_lt.mp choosing)]
    simp [choosing]

theorem Double.are_digits (units : Nat) :
    ∀ char ∈ Double.wholeDigits units ++ Double.fractionDigits units, isDigit char = true :=
  fun char member => isDigit_of_ascii (Double.digits_are_ascii units char member)

theorem is_digits_of_whole (units : Nat) : IsDigits (Double.wholeDigits units) :=
  is_digits_of_nat _

theorem labelled_eq_append (head label : Text) : labelled head label = head ++ labelled [] label :=
  rfl

theorem read_constant_pointed {whole fraction label : Text} (run : IsDigits whole)
    (digits : ∀ char ∈ fraction, isDigit char = true) (isLabel : IsLabel label) :
    readConstant? (labelled (Double.pointed whole fraction) label) =
      some (Double.ofDecimal whole fraction, label) := by
  have stops := stops_labelled_nil (rfl : isDigit ' ' = false) label
  have trimmed := trim_labelled isLabel
  rw [labelled_eq_append]
  by_cases integer : fraction = []
  · subst integer
    have behind : readFraction (labelled [] label) = ([], labelled [] label) := by
      unfold readFraction
      split
      next same =>
        have point : Stops (· == '.') (labelled [] label) := stops_labelled_nil rfl label
        rw [same] at point
        cases stops_cons.mp point
      next => rfl
    rw [Double.pointed_nil]
    simp [readConstant?, run.trim_left, run.span stops, behind, run.nonempty, trimmed]
  · have places : IsDigits fraction := ⟨integer, digits⟩
    have point : Stops isDigit ('.' :: (fraction ++ labelled [] label)) :=
      stops_cons.mpr (by decide)
    have behind : readFraction ('.' :: (fraction ++ labelled [] label)) =
        (fraction, labelled [] label) := places.span stops
    rw [Double.pointed_of_ne_nil whole integer, List.append_assoc, List.cons_append]
    simp [readConstant?, run.trim_left, run.span point, behind, integer, trimmed]

/-- A number with a point is no die group, and a whole one only if its label is. -/
theorem read_pointed {whole label : Text} (run : IsDigits whole) (fraction : Text)
    (isLabel : IsLabel label) :
    (DieNotation.read? (labelled (Double.pointed whole fraction) label)).isSome = true ↔
      fraction = [] ∧ (DieNotation.read? label).isSome = true := by
  by_cases integer : fraction = []
  · subst integer
    rw [Double.pointed_nil, DieNotation.read_labelled run isLabel]
    simp
  · have point := DieNotation.read_point run (fraction ++ labelled [] label)
    rw [labelled_eq_append, Double.pointed_of_ne_nil whole integer, List.append_assoc,
      List.cons_append, point]
    simp [integer]

theorem parse_constant_of_read {part expression label : Text} {value : Double}
    (noDie : DieNotation.read? part = none) (read : readConstant? part = some (value, label))
    (isLabel : IsLabel label) (component : Component) :
    parseValue part expression = .ok component ↔
      mentionsLimit part = false ∧ .constant value label = component := by
  have bare : ¬(!label.isEmpty && !isBareLabel label) = true := by
    rcases isLabel.bare with rfl | bare
    · simp
    · simp [bare]
  simp only [parseValue, noDie, parseConstant, read]
  by_cases mentions : mentionsLimit part = true
  · rw [if_pos mentions]
    simp [refuse, mentions]
  · rw [if_neg mentions, if_neg bare]
    simp only [pure_eq_ok]
    simp [mentions]

theorem pointed_chars {whole fraction : Text}
    (digits : ∀ char ∈ whole ++ fraction, isDigit char = true) :
    ∀ char ∈ Double.pointed whole fraction, isHeadChar char = true := by
  have chars : ∀ char ∈ whole ++ fraction, isHeadChar char = true := by
    intro char member
    rw [isHeadChar, digits char member, Bool.true_or]
  obtain ⟨front, places⟩ := List.forall_mem_append.mp chars
  refine List.forall_mem_append.mpr ⟨front, ?_⟩
  split
  · intro char member
    cases member
  · exact List.forall_mem_cons.mpr ⟨rfl, places⟩

theorem value_chars {value : Double} (nonnegative : value.IsNonnegative) :
    ∀ char ∈ value.toText, isHeadChar char = true := by
  cases value with
  | finite negative units =>
      cases nonnegative
      rw [Double.to_text_of_finite]
      exact pointed_chars (Double.are_digits units)
  | infinite negative =>
      cases nonnegative
      exact List.all_eq_true.mp (by decide)
  | notANumber negative => cases nonnegative

theorem parse_value_pointed {whole fraction label : Text} (nonempty : whole ≠ [])
    (digits : ∀ char ∈ whole ++ fraction, isDigit char = true) (isLabel : IsLabel label)
    (value : Double) (expression : Text) :
    parseValue (labelled (Double.pointed whole fraction) label) expression =
        .ok (.constant value label) ↔
      Double.ofDecimal whole fraction = value ∧ mentionsLimit label = false ∧
        ¬(fraction = [] ∧ (DieNotation.read? label).isSome = true) := by
  obtain ⟨front, places⟩ := List.forall_mem_append.mp digits
  have run : IsDigits whole := ⟨nonempty, front⟩
  have mentions := limit_of_labelled (not_mem_head (pointed_chars digits) rfl : 'm' ∉ _) label
  have die := read_pointed run fraction isLabel
  rw [← die, ← mentions]
  cases found : DieNotation.read? (labelled (Double.pointed whole fraction) label) with
  | some pieces =>
      constructor
      · intro parsed
        simp only [parseValue, found, bind_eq_ok, pure_eq_ok] at parsed
        obtain ⟨group, -, same⟩ := parsed
        cases same
      · rintro ⟨-, -, none⟩
        exact absurd rfl none
  | none =>
      rw [parse_constant_of_read found (read_constant_pointed run places isLabel) isLabel]
      simp [and_comm]

theorem parse_value_letter (rest expression : Text) (component : Component) :
    parseValue ('i' :: rest) expression ≠ .ok component := by
  have digits : Stops isDigit ('i' :: rest) := stops_cons.mpr (by decide)
  have visible : Stops isBlank ('i' :: rest) := stops_cons.mpr (by decide)
  have mark := read_mark_of_stops visible (stops_cons.mpr rfl)
  have bar : readBar (trimLeft ('i' :: rest)) = (none, 'i' :: rest) := by
    rw [trim_left_of_stops visible]
    exact read_bar_of_stops (stops_cons.mpr rfl)
  have noDie : DieNotation.read? ('i' :: rest) = none := by
    have found := DieNotation.read_is_some mark (span_digits_of_stops digits) bar
    exact Option.isNone_iff_eq_none.mp (Option.isSome_eq_false_iff.mp found)
  have noNumber : readConstant? ('i' :: rest) = none := by
    rw [readConstant?, trim_left_of_stops visible, span_digits_of_stops digits]
    rfl
  intro parsed
  simp only [parseValue, noDie, parseConstant, noNumber] at parsed
  cases parsed

theorem parse_value_constant {value : Double} {name : Text} (nonnegative : value.IsNonnegative)
    (isLabel : IsLabel name) (expression : Text) :
    parseValue (Component.constant value name).toText expression = .ok (.constant value name) ↔
      (Component.constant value name).ReadsBack := by
  cases value with
  | finite negative units =>
      cases nonnegative
      have parsed := parse_value_pointed (Double.whole_ne_nil units) (Double.are_digits units)
        isLabel (.finite false units) expression
      rw [Double.of_decimal_digits, ← Double.to_text_of_finite, ← Double.is_short_finite] at parsed
      change parseValue (labelled (Double.finite false units).toText name) expression = _ ↔ _
      rw [parsed, Component.ReadsBack]
      constructor
      · rintro ⟨short, rest⟩
        rw [← Double.is_integer_iff short] at rest
        exact ⟨short, rest⟩
      · rintro ⟨short, rest⟩
        rw [Double.is_integer_iff short] at rest
        exact ⟨short, rest⟩
  | infinite negative =>
      cases nonnegative
      constructor
      · intro parsed
        exact absurd parsed (parse_value_letter _ expression _)
      · intro back
        exact back.1.elim
  | notANumber negative => cases nonnegative

end TabletopDice
