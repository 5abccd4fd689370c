import TabletopDice.Proofs.Dice.Kinds
import TabletopDice.Proofs.Expression.SpelledExpressions
import TabletopDice.Proofs.Number.WholeNumber

/-!
Dice that are built from numbers. Their components are the row of a tree, and their text spells a
tree that rolls alike: it differs only where a constant below zero is written as the negation of
its digits. So the text is read as dice with the same totals, unless a number in it is too long.
-/

namespace TabletopDice

open Text

theorem lead_nil : ∀ char ∈ ([] : Text), char = '+' ∨ isBlank char = true := by
  intro char member
  cases member

def noLead : Lead := ⟨[], lead_nil⟩

theorem blanks_nil : allBlank [] = true := rfl

def noBlanks : Blanks := ⟨[], blanks_nil⟩

namespace Spelling

def ofNumber (number : Nat) : Spelling :=
  constant noLead (.whole ⟨ofNat number, is_digits_of_nat number⟩) noBlanks

def ofDice (count sides denominator : Nat) (positive : sides ≠ 0) : Spelling :=
  die noLead {
    mark := none
    count := some {
      digits := ⟨ofNat count, is_digits_of_nat count⟩
      behind := noBlanks
      fraction := if denominator = 0 then none
        else some ⟨noBlanks, ⟨ofNat denominator, is_digits_of_nat denominator⟩, noBlanks⟩ }
    capital := false
    behindLetter := noBlanks
    sides := some ⟨⟨ofNat sides, is_digits_of_nat sides⟩, by rwa [digits_value_of_nat]⟩
    choice := none } noBlanks

theorem exists_visible (spelling : Spelling) : ∃ char ∈ spelling.text, isBlank char = false := by
  cases spelling with
  | constant lead number behind =>
      obtain ⟨char, member, visible⟩ := number.exists_visible
      exact ⟨char, List.mem_append_right _ (List.mem_append_left _ member), visible⟩
  | die lead dice behind =>
      obtain ⟨char, member, visible⟩ := dice.exists_visible
      exact ⟨char, List.mem_append_right _ (List.mem_append_left _ member), visible⟩
  | negation lead operand =>
      exact ⟨'-', List.mem_append_right _ List.mem_cons_self, by decide⟩
  | binary op ascii left right =>
      have glyph : ∃ char ∈ op.val.spelled ascii, isBlank char = false := by
        cases op.val <;> cases ascii <;> exact ⟨_, List.mem_cons_self, rfl⟩
      obtain ⟨char, member, visible⟩ := glyph
      exact ⟨char, List.mem_append_right _ (List.mem_append_left _ member), visible⟩
  | group lead inner behind =>
      exact ⟨'(', List.mem_append_right _ List.mem_cons_self, by decide⟩

/-- The text of the row of a tree is the spelling, which rolls like the tree. -/
structure Prints (spelling : Spelling) (built : Tree) : Prop where
  text : built.flatten.flatMap Component.toText = spelling.text
  tieredBuilt : built.IsTiered
  tiered : spelling.tree.IsTiered
  roll : ∀ maximize, spelling.tree.roll maximize = built.roll maximize

section Printing

variable {left right : Spelling} {first second : Tree}

theorem prints_binary {op : Operator} (isBinary : op ≠ .negate) (one : left.Prints first)
    (other : right.Prints second) (looseFirst : op.precedence ≤ first.tier)
    (tightSecond : op.precedence < second.tier) (looseLeft : op.precedence ≤ left.tree.tier)
    (tightRight : op.precedence < right.tree.tier) :
    (binary ⟨op, isBinary⟩ false left right).Prints (.binary op first second) where
  text := by
    have symbol : op.spelled false = [op.symbol] := by cases op <;> rfl
    rw [Tree.flatten, List.flatMap_append, List.flatMap_cons, one.text, other.text, text, textWith,
      symbol]
    rfl
  tieredBuilt := ⟨isBinary, one.tieredBuilt, other.tieredBuilt, looseFirst, tightSecond⟩
  tiered := ⟨isBinary, one.tiered, other.tiered, looseLeft, tightRight⟩
  roll maximize := by
    simp only [tree, Tree.roll, one.roll, other.roll]

theorem prints_group (one : left.Prints first) :
    (group noLead left noBlanks).Prints (.group first none) where
  text := by
    have inner := one.text
    have label : Component.ofLabel none = [] := rfl
    rw [Tree.flatten, label, List.flatMap_cons, List.flatMap_append, inner]
    rfl
  tieredBuilt := one.tieredBuilt
  tiered := one.tiered
  roll maximize := by
    simp only [tree, Tree.roll, one.roll]

end Printing

theorem tree_of_dice {count sides denominator : Nat} (positive : sides ≠ 0) :
    (ofDice count sides denominator positive).tree =
      .die { sides, numerator := count, denominator } := by
  by_cases whole : denominator = 0
  · simp [ofDice, tree, DieSpelling.group, digits_value_of_nat, whole]
  · simp [ofDice, tree, DieSpelling.group, digits_value_of_nat, whole]

theorem text_of_dice {count sides denominator : Nat} (positive : sides ≠ 0) :
    (ofDice count sides denominator positive).text =
      Component.toText (.die { sides, numerator := count, denominator }) := by
  by_cases whole : denominator = 0
  · simp [ofDice, text, textWith, noLead, noBlanks, DieSpelling.text, DieSpelling.markText,
      DieSpelling.countText, CountSpelling.text, DieSpelling.tail, DieSpelling.letter,
      DieSpelling.sidesText, DieSpelling.choiceText, Component.toText, DieGroup.shape, of_int_nat,
      whole]
  · have slash : 0 < denominator := Nat.pos_of_ne_zero whole
    simp [ofDice, text, textWith, noLead, noBlanks, DieSpelling.text, DieSpelling.markText,
      DieSpelling.countText, CountSpelling.text, FractionSpelling.text, DieSpelling.tail,
      DieSpelling.letter, DieSpelling.sidesText, DieSpelling.choiceText, Component.toText,
      DieGroup.shape, of_int_nat, whole, slash]

theorem prints_dice {count sides denominator : Nat} (positive : sides ≠ 0) :
    (ofDice count sides denominator positive).Prints
      (.die { sides, numerator := count, denominator }) := by
  have same := @tree_of_dice count sides denominator positive
  refine ⟨?_, trivial, ?_, ?_⟩
  · rw [text_of_dice, Tree.flatten, List.flatMap_singleton]
  · rw [same]
    trivial
  · intro maximize
    rw [same]

theorem text_of_number (number : Nat) : (ofNumber number).text = ofNat number :=
  List.append_nil _

theorem exists_prints_constant {value : Int} {double : Double}
    (fits : Double.ofInt? value = .ok double) :
    ∃ spelling : Spelling, spelling.Prints (.constant double []) ∧ spelling.numerals = [] ∧
      spelling.tree.tier = Operator.negate.precedence ∧
      (0 ≤ value → spelling.tree = .constant double []) := by
  obtain ⟨number, rfl, nonzero, read⟩ := Double.exists_whole_of_int fits
  have digits : (ofNumber number).tree = .constant (.finite false (number * Double.one)) [] :=
    congrArg (Tree.constant · []) read
  have printed (double : Double) :
      (Tree.constant double []).flatten.flatMap Component.toText = double.toText := by
    rw [Tree.flatten, List.flatMap_singleton]
    exact List.append_nil _
  by_cases negative : value < 0
  · rw [decide_eq_true negative]
    refine ⟨.negation noLead (ofNumber number), ⟨?_, trivial, ?_, ?_⟩, rfl, rfl, by omega⟩
    · have digits : (negation noLead (ofNumber number)).text = '-' :: ofNat number :=
        congrArg ('-' :: ·) (text_of_number number)
      rw [printed, digits, Double.to_text_of_negative (nonzero (by omega))]
    · rw [tree, digits]
      exact ⟨trivial, Nat.le_refl _⟩
    · intro maximize
      rw [tree, Tree.roll, digits]
      rfl
  · rw [decide_eq_false negative]
    refine ⟨ofNumber number, ⟨?_, trivial, ?_, ?_⟩, rfl, rfl, fun _ => digits⟩
    · rw [printed, text_of_number, Double.to_text_of_integer]
    · rw [digits]
      trivial
    · intro maximize
      rw [digits]

/-- The text of the row is read as the row of the spelled tree, if its numbers can be read. -/
theorem Prints.parse {spelling : Spelling} {built : Tree} (prints : spelling.Prints built) :
    Dice.parse ({ components := built.flatten } : Dice).toText =
      requireReadable spelling.numerals >>= fun _ =>
        pure { components := spelling.tree.flatten } := by
  have written : ({ components := built.flatten } : Dice).toText = spelling.text := by
    rw [Dice.toText, prints.text]
    exact List.append_nil _
  have whole : ({ body := spelling, clauses := [] } : ExpressionSpelling).text = spelling.text :=
    List.append_nil _
  have read := ExpressionSpelling.parse_text { body := spelling, clauses := [] }
  rw [whole] at read
  obtain ⟨char, member, visible⟩ := spelling.exists_visible
  have notBlank : ¬allBlank spelling.text = true := by
    intro blank
    rw [List.all_eq_true.mp blank char member] at visible
    cases visible
  rw [written, Dice.parse, if_neg notBlank, read]
  simp only [bind_assoc, pure_bind]
  rfl

theorem Prints.total {spelling : Spelling} {built : Tree} (prints : spelling.Prints built)
    (maximize : Bool) (bonus : Int) :
    Evaluation.total <$> ({ components := built.flatten } : Dice).evaluate maximize bonus =
      Evaluation.total <$>
        ({ components := spelling.tree.flatten } : Dice).evaluate maximize bonus := by
  rw [Dice.total_evaluate prints.tieredBuilt rfl, Dice.total_evaluate prints.tiered rfl,
    Tree.rollTotal, Tree.rollTotal, prints.roll]

end Spelling

namespace Dice

def sumComponents (count sides bonus denominator : Int) :
    Except NumberFault (List Component) := do
  let dice : List Component :=
    if 0 < count ∧ 0 < sides then [.die { sides, numerator := count, denominator }] else []
  if bonus = 0 then pure dice
  else if dice.isEmpty then pure [.constant (← Double.ofInt? bonus) []]
  else pure (dice ++ [.operator (if 0 < bonus then .add else .subtract),
    .constant (← Double.ofInt? bonus.natAbs) []])

section Building

variable {count sides bonus denominator factor : Int}

theorem of_die_type_eq : ofDieType count sides bonus 0 denominator factor = do
    let sum ← sumComponents count sides bonus denominator
    if factor = 0 then return { components := sum }
    else return {
      components := .openGroup :: sum ++
        [.closeGroup, .operator .multiply, .constant (← Double.ofInt? factor) []] } := by
  unfold ofDieType sumComponents
  dsimp only
  split
  · rfl
  · split
    · simp only [List.isEmpty_cons, Bool.false_eq_true, if_false, bind_assoc, pure_bind]
    · simp only [List.isEmpty_nil, if_true, bind_assoc, pure_bind]

/-- The digits of the whole numbers in the text; the bonus and the factor are constants. -/
def builtNumerals (count sides denominator : Int) : List Text :=
  if 0 < count ∧ 0 < sides then
    [ofInt sides, ofInt count] ++ if denominator = 0 then [] else [ofInt denominator]
  else []

theorem exists_dice_sum {dice : Spelling} {group : DieGroup} (prints : dice.Prints (.die group))
    (same : dice.tree = .die group) {double : Double}
    (fits : Double.ofInt? bonus = .ok double) :
    ∃ (magnitude : Double) (op : Operator) (spelling : Spelling),
      Double.ofInt? bonus.natAbs = .ok magnitude ∧
      op = (if 0 < bonus then .add else .subtract) ∧
      spelling.Prints (.binary op (.die group) (.constant magnitude [])) ∧
      spelling.numerals = dice.numerals ∧
      spelling.tree = .binary op (.die group) (.constant magnitude []) := by
  obtain ⟨magnitude, absolute⟩ := Double.of_int_nat_abs fits
  obtain ⟨digits, printed, none, tier, plain⟩ := Spelling.exists_prints_constant absolute
  have isBinary : (if 0 < bonus then Operator.add else .subtract) ≠ .negate := by
    split
    · decide
    · decide
  have loose := Tree.precedence_lt_negate isBinary
  refine ⟨magnitude, _, .binary ⟨_, isBinary⟩ false dice digits, absolute, rfl, ?_, ?_, ?_⟩
  · apply Spelling.prints_binary isBinary prints printed (Nat.le_of_lt loose) loose
    · rw [same]
      exact Nat.le_of_lt loose
    · rw [tier]
      exact loose
  · rw [Spelling.numerals, none, List.append_nil]
  · rw [Spelling.tree, same, plain (Int.natCast_nonneg _)]

theorem exists_sum (whole : 0 ≤ denominator) (something : (0 < count ∧ 0 < sides) ∨ bonus ≠ 0)
    {double : Double} (fits : Double.ofInt? bonus = .ok double) :
    ∃ (spelling : Spelling) (built : Tree),
      sumComponents count sides bonus denominator = .ok built.flatten ∧ spelling.Prints built ∧
      spelling.numerals = builtNumerals count sides denominator ∧
      ((0 < count ∧ 0 < sides) ∨ 0 < bonus → spelling.tree = built) := by
  by_cases present : 0 < count ∧ 0 < sides
  · obtain ⟨dice, rfl⟩ := Int.eq_ofNat_of_zero_le (Int.le_of_lt present.1)
    obtain ⟨high, rfl⟩ := Int.eq_ofNat_of_zero_le (Int.le_of_lt present.2)
    obtain ⟨below, rfl⟩ := Int.eq_ofNat_of_zero_le whole
    have positive : high ≠ 0 := by omega
    have prints := @Spelling.prints_dice dice high below positive
    have same := @Spelling.tree_of_dice dice high below positive
    have numerals : (Spelling.ofDice dice high below positive).numerals =
        builtNumerals dice high below := by
      rw [builtNumerals, if_pos present]
      by_cases unit : below = 0
      · simp [unit, Spelling.ofDice, Spelling.numerals, DieSpelling.numerals, of_int_nat]
      · simp [unit, Spelling.ofDice, Spelling.numerals, DieSpelling.numerals, of_int_nat]
    by_cases none : bonus = 0
    · refine ⟨_, _, ?_, prints, numerals, fun _ => same⟩
      simp only [sumComponents, if_pos present, if_pos none]
      rfl
    · obtain ⟨magnitude, op, spelling, absolute, sign, printed, digits, plain⟩ :=
        exists_dice_sum prints same fits
      refine ⟨spelling, _, ?_, printed, digits.trans numerals, fun _ => plain⟩
      simp only [sumComponents, if_pos present, if_neg none, absolute, sign]
      rfl
  · have bonusOnly : bonus ≠ 0 := something.resolve_left present
    obtain ⟨digits, printed, none, -, plain⟩ := Spelling.exists_prints_constant fits
    refine ⟨digits, _, ?_, printed, ?_, ?_⟩
    · simp only [sumComponents, if_neg present, if_neg bonusOnly, fits]
      rfl
    · rw [none, builtNumerals, if_neg present]
    · intro positive
      exact plain (Int.le_of_lt (positive.resolve_left present))

theorem exists_built (whole : 0 ≤ denominator) (something : (0 < count ∧ 0 < sides) ∨ bonus ≠ 0)
    {raise scale : Double} (bonusFits : Double.ofInt? bonus = .ok raise)
    (factorFits : Double.ofInt? factor = .ok scale) :
    ∃ (spelling : Spelling) (built : Tree),
      ofDieType count sides bonus 0 denominator factor = .ok { components := built.flatten } ∧
      spelling.Prints built ∧ spelling.numerals = builtNumerals count sides denominator ∧
      (0 ≤ factor → (0 < count ∧ 0 < sides) ∨ 0 < bonus → spelling.tree = built) := by
  obtain ⟨spelling, sum, components, printed, numerals, same⟩ :=
    exists_sum whole something bonusFits
  rw [of_die_type_eq, components]
  by_cases unscaled : factor = 0
  · refine ⟨spelling, sum, ?_, printed, numerals, fun _ => same⟩
    simp only [if_pos unscaled]
    rfl
  · obtain ⟨digits, scaled, quiet, tier, plain⟩ := Spelling.exists_prints_constant factorFits
    have isBinary : Operator.multiply ≠ .negate := by decide
    have loose := Tree.precedence_lt_negate isBinary
    refine ⟨.binary ⟨.multiply, isBinary⟩ false (.group noLead spelling noBlanks) digits,
      .binary .multiply (.group sum none) (.constant scale []), ?_, ?_, ?_, ?_⟩
    · have row : (Tree.binary .multiply (.group sum none) (.constant scale [])).flatten =
          .openGroup :: sum.flatten ++
            [.closeGroup, .operator .multiply, .constant scale []] := by
        simp [Tree.flatten, Component.ofLabel]
      simp only [if_neg unscaled, factorFits, row]
      rfl
    · apply Spelling.prints_binary isBinary (Spelling.prints_group printed) scaled
        (Nat.le_of_lt loose) loose (Nat.le_of_lt loose)
      rw [tier]
      exact loose
    · rw [Spelling.numerals, Spelling.numerals, quiet, List.append_nil, numerals]
    · intro nonnegative positive
      rw [Spelling.tree, Spelling.tree, same positive, plain nonnegative]

theorem readable_iff (whole : 0 ≤ denominator) :
    (∀ digits ∈ builtNumerals count sides denominator, digits.length ≤ maxDigits) ↔
      (0 < count ∧ 0 < sides →
        isTellable count = true ∧ isTellable sides = true ∧ isTellable denominator = true) := by
  have short {number : Int} (nonnegative : 0 ≤ number) :
      (ofInt number).length ≤ maxDigits ↔ isTellable number = true := by
    obtain ⟨natural, rfl⟩ := Int.eq_ofNat_of_zero_le nonnegative
    exact (@is_tellable_iff_length natural).symm
  unfold builtNumerals
  split
  next present =>
    have dice : (∀ digits ∈ [ofInt sides, ofInt count], digits.length ≤ maxDigits) ↔
        isTellable sides = true ∧ isTellable count = true := by
      rw [List.forall_mem_cons, List.forall_mem_singleton, short (Int.le_of_lt present.2),
        short (Int.le_of_lt present.1)]
    have below : (∀ digits ∈ if denominator = 0 then [] else [ofInt denominator],
        digits.length ≤ maxDigits) ↔ isTellable denominator = true := by
      by_cases unit : denominator = 0
      · subst unit
        exact iff_of_true (fun _ member => nomatch member) (by decide +kernel)
      · rw [if_neg unit, List.forall_mem_singleton, short whole]
    rw [List.forall_mem_append, dice, below]
    tauto
  next absent => exact iff_of_true (fun _ member => nomatch member) fun present => absurd present absent

end Building

theorem numbers_of_sum {count sides bonus denominator : Int} {sum : List Component}
    (summed : sumComponents count sides bonus denominator = .ok sum) :
    sum.flatMap (Component.numbers none) =
      if 0 < count ∧ 0 < sides then
        ({ sides, numerator := count, denominator } : DieGroup).requestNumbers
      else [] := by
  unfold sumComponents at summed
  by_cases present : 0 < count ∧ 0 < sides
  · simp only [if_pos present, List.isEmpty_cons, Bool.false_eq_true, if_false] at summed ⊢
    split at summed
    · cases summed
      rfl
    · obtain ⟨_, -, same⟩ := bind_eq_ok.mp summed
      cases same
      rfl
  · simp only [if_neg present, List.isEmpty_nil, if_true] at summed ⊢
    split at summed
    · cases summed
      rfl
    · obtain ⟨_, -, same⟩ := bind_eq_ok.mp summed
      cases same
      rfl

theorem numbers_of_die_type {count sides bonus denominator factor : Int} {dice : Dice}
    (built : ofDieType count sides bonus 0 denominator factor = .ok dice) :
    dice.bodyNumbers [] 0 =
      (if 0 < count ∧ 0 < sides then
        ({ sides, numerator := count, denominator } : DieGroup).requestNumbers
      else []) ++ [0, 0, 0] := by
  rw [of_die_type_eq] at built
  obtain ⟨sum, summed, scaled⟩ := bind_eq_ok.mp built
  rw [← numbers_of_sum summed]
  split at scaled
  · cases scaled
    rw [bodyNumbers, flat_map_shown_nil]
  · obtain ⟨_, -, same⟩ := bind_eq_ok.mp scaled
    cases same
    rw [bodyNumbers, flat_map_shown_nil, List.flatMap_append, List.flatMap_cons]
    exact congrArg (· ++ _) (List.append_nil _)

/-- Built dice have a text exactly if the numbers of their die group can be told. -/
theorem description_of_die_type {count sides bonus denominator factor : Int} (whole : 0 ≤ denominator)
    {dice : Dice} (built : ofDieType count sides bonus 0 denominator factor = .ok dice) :
    dice.description = if (0 < count ∧ 0 < sides →
        isTellable count = true ∧ isTellable sides = true ∧ isTellable denominator = true) then
      .ok dice.toText else .error (.number .tooManyDigits) := by
  have zero : isTellable 0 = true := @is_tellable_small 0 (by decide)
  have one : isTellable 1 = true := @is_tellable_small 1 (by decide)
  have tellable : (dice.bodyNumbers [] 0).all isTellable = true ↔ (0 < count ∧ 0 < sides →
      isTellable count = true ∧ isTellable sides = true ∧ isTellable denominator = true) := by
    rw [numbers_of_die_type built]
    by_cases present : 0 < count ∧ 0 < sides
    · simp [DieGroup.requestNumbers, present, Int.max_eq_right whole, zero, one]
      tauto
    · simp [present, zero]
  unfold description requireTellable
  simp only [tellable]
  split
  · rfl
  · rfl

/-- Dice that are built from numbers have a text unless a number in it has too many digits. Then they
are read again from it, and what is read rolls alike: for every bonus and on every source, rolled or
with every die on its highest side, both have the same total or fail alike, and they leave the same
source. What is read is the very dice where nothing in them is below zero. -/
theorem parse_of_die_type {count sides bonus denominator factor : Int} (whole : 0 ≤ denominator)
    (something : (0 < count ∧ 0 < sides) ∨ bonus ≠ 0) {raise scale : Double}
    (bonusFits : Double.ofInt? bonus = .ok raise) (factorFits : Double.ofInt? factor = .ok scale) :
    ∃ dice reparsed : Dice,
      ofDieType count sides bonus 0 denominator factor = .ok dice ∧
      dice.description = (if (0 < count ∧ 0 < sides →
          isTellable count = true ∧ isTellable sides = true ∧ isTellable denominator = true) then
        .ok dice.toText else .error (.number .tooManyDigits)) ∧
      parse dice.toText = (if (0 < count ∧ 0 < sides →
          isTellable count = true ∧ isTellable sides = true ∧ isTellable denominator = true) then
        .ok reparsed else .error (.number .tooManyDigits)) ∧
      (∀ extra source,
        (Evaluation.total <$> reparsed.roll extra).run.run source =
          (Evaluation.total <$> dice.roll extra).run.run source ∧
        (Evaluation.total <$> reparsed.maxRoll extra).run.run source =
          (Evaluation.total <$> dice.maxRoll extra).run.run source) ∧
      (0 ≤ factor → (0 < count ∧ 0 < sides) ∨ 0 < bonus → reparsed = dice) := by
  obtain ⟨spelling, built, components, printed, numerals, same⟩ :=
    exists_built whole something bonusFits factorFits
  refine ⟨_, { components := spelling.tree.flatten }, components,
    description_of_die_type whole components, ?_, ?_, ?_⟩
  · have readable := @readable_iff count sides denominator whole
    rw [printed.parse, numerals, requireReadable]
    simp only [readable]
    split
    · rfl
    · rfl
  · intro extra source
    rw [roll, roll, maxRoll, maxRoll, printed.total, printed.total]
    exact ⟨rfl, rfl⟩
  · intro nonnegative positive
    rw [same nonnegative positive]

/-- Halved dice less a bonus, times a factor below zero, which is read as a negation. -/
theorem parse_of_die_type_of_negative_factor :
    let dice : Dice := { components := [.openGroup,
      .die { sides := 6, numerator := 2, denominator := 2 }, .operator .subtract,
      .constant (.finite false (3 * Double.one)) [], .closeGroup, .operator .multiply,
      .constant (.finite true (2 * Double.one)) []] }
    (0 : Int) ≤ 2 ∧ ((0 : Int) < 2 ∧ (0 : Int) < 6 ∨ (-3 : Int) ≠ 0) ∧
      Double.ofInt? (-3) = .ok (.finite true (3 * Double.one)) ∧
      Double.ofInt? (-2) = .ok (.finite true (2 * Double.one)) ∧
      ofDieType 2 6 (-3) 0 2 (-2) = .ok dice ∧ dice.description = .ok "(2/2d6-3)×-2".toList ∧
      ∃ reparsed, parse "(2/2d6-3)×-2".toList = .ok reparsed ∧ reparsed ≠ dice ∧
        ∀ extra source, (Evaluation.total <$> reparsed.roll extra).run.run source =
          (Evaluation.total <$> dice.roll extra).run.run source := by
  intro dice
  have whole : (0 : Int) ≤ 2 := by decide
  have something : (0 : Int) < 2 ∧ (0 : Int) < 6 ∨ (-3 : Int) ≠ 0 := by decide
  have bonusFits : Double.ofInt? (-3) = .ok (.finite true (3 * Double.one)) := by decide +kernel
  have factorFits : Double.ofInt? (-2) = .ok (.finite true (2 * Double.one)) := by decide +kernel
  have built : ofDieType 2 6 (-3) 0 2 (-2) = .ok dice := by decide +kernel
  have told : dice.description = .ok "(2/2d6-3)×-2".toList := by decide +kernel
  have text : dice.toText = "(2/2d6-3)×-2".toList := by decide +kernel
  obtain ⟨_, reparsed, same, -, read, rolls, -⟩ :=
    parse_of_die_type whole something bonusFits factorFits
  rw [built] at same
  cases same
  rw [text, if_pos (by decide +kernel)] at read
  refine ⟨whole, something, bonusFits, factorFits, built, told, reparsed, read, ?_,
    fun extra source => (rolls extra source).1⟩
  rintro rfl
  exact absurd read (by decide +kernel)

/-- More dice than can be told have no text, and what it would be is refused. -/
theorem not_parse_of_die_type_of_many_dice :
    ∃ dice, ofDieType firstTooLong 6 0 0 0 0 = .ok dice ∧
      dice.description = .error (.number .tooManyDigits) ∧
      dice.toText = ofNat firstTooLong ++ "d6".toList ∧
      parse dice.toText = .error (.number .tooManyDigits) := by
  have printed := @Spelling.prints_dice firstTooLong 6 0 (by decide)
  have long : ¬∀ digits ∈ (Spelling.ofDice firstTooLong 6 0 (by decide)).numerals,
      digits.length ≤ maxDigits := by
    intro short
    have count := short (ofNat firstTooLong) (.tail _ (.head _))
    exact absurd ((@is_tellable_iff_length firstTooLong).mpr count) (by decide +kernel)
  refine ⟨{ components := [.die { sides := 6, numerator := firstTooLong }] }, ?_, ?_, ?_, ?_⟩
  · decide +kernel
  · decide +kernel
  · have six : ofInt 6 = ['6'] := rfl
    simp [toText, Component.toText, DieGroup.shape, of_int_nat, Limits.toText, six]
  · have read := printed.parse
    rw [requireReadable, if_neg long] at read
    exact read

end Dice

end TabletopDice
