import TabletopDice.Proofs.Expression.Clauses
import TabletopDice.Proofs.Expression.Tree

/-!
The ways to write a tree of operators without labels. Numbers stand in the digits of
any script, blanks may stand between any two tokens and pluses in front of any value,
and the operators that are no ASCII characters have an ASCII form. Normalization turns
every operator into one glyph and leaves the rest of the text as it is.
-/

namespace TabletopDice

open Text

abbrev Blanks := { text : Text // allBlank text = true }

abbrev Lead := { text : Text // ∀ char ∈ text, char = '+' ∨ isBlank char = true }

abbrev DigitRun := { digits : Text // IsDigits digits }

abbrev PositiveRun := { digits : DigitRun // digitsValue digits.val ≠ 0 }

abbrev BinaryOperator := { op : Operator // op ≠ .negate }

inductive NumberSpelling
  | whole (digits : DigitRun)
  | pointed (front : Option DigitRun) (fraction : DigitRun)

namespace NumberSpelling

def text : NumberSpelling → Text
  | whole digits => digits.val
  | pointed front fraction => front.elim [] Subtype.val ++ '.' :: fraction.val

def value : NumberSpelling → Double
  | whole digits => Double.ofDecimal digits.val []
  | pointed front fraction => Double.ofDecimal (front.elim [] Subtype.val) fraction.val

end NumberSpelling

structure FractionSpelling where
  before : Blanks
  digits : DigitRun
  behind : Blanks

def FractionSpelling.text (fraction : FractionSpelling) : Text :=
  '/' :: (fraction.before.val ++ (fraction.digits.val ++ fraction.behind.val))

structure CountSpelling where
  digits : DigitRun
  behind : Blanks
  fraction : Option FractionSpelling

def CountSpelling.text (count : CountSpelling) : Text :=
  count.digits.val ++ (count.behind.val ++ count.fraction.elim [] FractionSpelling.text)

structure ChoiceSpelling where
  before : Blanks
  best : Bool
  behindWord : Blanks
  behindOf : Blanks
  attempts : PositiveRun

namespace ChoiceSpelling

def word (choice : ChoiceSpelling) : Text := if choice.best then "best".toList else "worst".toList

def text (choice : ChoiceSpelling) : Text :=
  choice.before.val ++ (choice.word ++ (choice.behindWord.val ++
    ("of".toList ++ (choice.behindOf.val ++ choice.attempts.val.val))))

end ChoiceSpelling

structure DieSpelling where
  /-- The mark of a first die on its highest side, with the blanks behind it. -/
  mark : Option Blanks
  count : Option CountSpelling
  capital : Bool
  behindLetter : Blanks
  /-- The number of sides; a percent sign has none. -/
  sides : Option PositiveRun
  choice : Option ChoiceSpelling

namespace DieSpelling

def markText (die : DieSpelling) : Text := die.mark.elim [] fun blanks => '>' :: blanks.val

def countText (die : DieSpelling) : Text := die.count.elim [] CountSpelling.text

def letter (die : DieSpelling) : Char := if die.capital then 'D' else 'd'

def sidesText (die : DieSpelling) : Text := die.sides.elim ['%'] fun digits => digits.val.val

def choiceText (die : DieSpelling) : Text := die.choice.elim [] ChoiceSpelling.text

def tail (die : DieSpelling) : Text :=
  die.letter :: (die.behindLetter.val ++ (die.sidesText ++ die.choiceText))

def text (die : DieSpelling) : Text := die.markText ++ (die.countText ++ die.tail)

def pieces (die : DieSpelling) : DieNotation where
  initialMax := die.mark.isSome
  numerator := die.count.elim [] fun count => count.digits.val
  denominator := (die.count.bind CountSpelling.fraction).map fun fraction => fraction.digits.val
  sides := die.sides.map fun digits => digits.val.val
  choice := die.choice.map fun choice => (choice.best, choice.attempts.val.val)
  label := []

def group (die : DieSpelling) : DieGroup where
  sides := (die.sides.elim 100 fun digits => digitsValue digits.val.val : Nat)
  numerator := (die.count.elim 1 fun count => digitsValue count.digits.val : Nat)
  denominator := ((die.count.bind CountSpelling.fraction).elim 0 fun fraction =>
    digitsValue fraction.digits.val : Nat)
  rerolls := (die.choice.elim 1 fun choice => digitsValue choice.attempts.val.val : Nat) - 1
  best := die.choice.elim true ChoiceSpelling.best
  initialMax := die.mark.isSome

/-- The digits of the whole numbers in the text, in the order in which they are read. -/
def numerals (die : DieSpelling) : List Text :=
  (die.sides.map fun digits => digits.val.val).toList ++
    (die.choice.map fun choice => choice.attempts.val.val).toList ++
    (die.count.map fun count => count.digits.val).toList ++
    ((die.count.bind CountSpelling.fraction).map fun fraction => fraction.digits.val).toList

end DieSpelling

namespace Operator

def spelled : Operator → Bool → Text
  | multiply, true => ['*']
  | divide, true => ['/', '/']
  | atMost, true => ['<', '=']
  | atLeast, true => ['>', '=']
  | op, _ => [op.symbol]

def glyph : Operator → Bool → Char
  | multiply, true => '*'
  | op, _ => op.symbol

end Operator

/-- A tree as it is written. A value has its lead in front and blanks behind it. -/
inductive Spelling
  | constant (lead : Lead) (number : NumberSpelling) (behind : Blanks)
  | die (lead : Lead) (dice : DieSpelling) (behind : Blanks)
  | negation (lead : Lead) (operand : Spelling)
  | binary (op : BinaryOperator) (ascii : Bool) (left right : Spelling)
  | group (lead : Lead) (inner : Spelling) (behind : Blanks)

namespace Spelling

def tree : Spelling → Tree
  | constant _ number _ => .constant number.value []
  | die _ dice _ => .die dice.group
  | negation _ operand => .negation operand.tree
  | binary op _ left right => .binary op.val left.tree right.tree
  | group _ inner _ => .group inner.tree none

def textWith (spell : Operator → Bool → Text) : Spelling → Text
  | constant lead number behind => lead.val ++ (number.text ++ behind.val)
  | die lead dice behind => lead.val ++ (dice.text ++ behind.val)
  | negation lead operand => lead.val ++ '-' :: operand.textWith spell
  | binary op ascii left right =>
      left.textWith spell ++ (spell op.val ascii ++ right.textWith spell)
  | group lead inner behind => lead.val ++ '(' :: (inner.textWith spell ++ ')' :: behind.val)

def text : Spelling → Text := textWith Operator.spelled

def normalized : Spelling → Text := textWith fun op ascii => [op.glyph ascii]

/-- The digits of the whole numbers in the die groups; constants are not among them. -/
def numerals : Spelling → List Text
  | constant _ _ _ => []
  | die _ dice _ => dice.numerals
  | negation _ operand => operand.numerals
  | binary _ _ left right => left.numerals ++ right.numerals
  | group _ inner _ => inner.numerals

end Spelling

structure ClauseSpelling where
  before : Blanks
  isMaximum : Bool
  behindWord : Blanks
  /-- The sign if there is one: whether it is a minus. -/
  sign : Option Bool
  digits : DigitRun
  behind : Blanks

namespace ClauseSpelling

def word (clause : ClauseSpelling) : Text :=
  if clause.isMaximum then ['m', 'a', 'x'] else ['m', 'i', 'n']

def signText (clause : ClauseSpelling) : Text :=
  clause.sign.elim [] fun negative => if negative then ['-'] else ['+']

def body (clause : ClauseSpelling) : Text :=
  clause.before.val ++ (clause.word ++ (clause.behindWord.val ++ (clause.signText ++
    (clause.digits.val ++ clause.behind.val))))

def text (clause : ClauseSpelling) : Text := '|' :: clause.body

def number (clause : ClauseSpelling) : Int :=
  if clause.sign = some true then -(digitsValue clause.digits.val : Int)
  else digitsValue clause.digits.val

def limit (limits : Limits) (clause : ClauseSpelling) : Limits :=
  if clause.isMaximum then { limits with maximum := clause.number }
  else { limits with minimum := clause.number }

end ClauseSpelling

def isValueChar (char : Char) : Bool :=
  isDigit char || isBlank char || ">/dD%bestworf.".toList.contains char

theorem not_value_char : ∀ char ∈ "()+-*×÷≤≥=|<mc".toList, isValueChar char = false :=
  forall_not_of_any (by decide +kernel)

theorem not_mem_of_value_chars {text : Text} (chars : ∀ char ∈ text, isValueChar char = true)
    {char : Char} (other : isValueChar char = false) : char ∉ text := by
  intro member
  rw [chars char member] at other
  cases other

theorem IsDigits.value_chars {digits : Text} (run : IsDigits digits) :
    ∀ char ∈ digits, isValueChar char = true := by
  intro char member
  rw [isValueChar, run.digits char member, Bool.true_or, Bool.true_or]

theorem Blanks.value_chars (blanks : Blanks) : ∀ char ∈ blanks.val, isValueChar char = true := by
  intro char member
  rw [isValueChar, List.all_eq_true.mp blanks.property char member, Bool.or_true, Bool.true_or]

theorem Blanks.not_mem (blanks : Blanks) {char : Char} (visible : isBlank char = false) :
    char ∉ blanks.val := by
  intro member
  rw [List.all_eq_true.mp blanks.property char member] at visible
  cases visible

theorem IsDigits.not_mem {digits : Text} (run : IsDigits digits) {char : Char}
    (other : isDigit char = false) : char ∉ digits := by
  intro member
  rw [run.digits char member] at other
  cases other

theorem Lead.not_mem (lead : Lead) {char : Char} (visible : isBlank char = false)
    (other : char ≠ '+') : char ∉ lead.val := by
  intro member
  rcases lead.property char member with plus | blank
  · exact other plus
  · rw [blank] at visible
    cases visible

theorem NumberSpelling.value_chars (number : NumberSpelling) :
    ∀ char ∈ number.text, isValueChar char = true := by
  cases number with
  | whole digits => exact digits.property.value_chars
  | pointed front fraction =>
      refine List.forall_mem_append.mpr ⟨?_, List.forall_mem_cons.mpr
        ⟨by decide, fraction.property.value_chars⟩⟩
      cases front with
      | none =>
          intro char member
          cases member
      | some digits => exact digits.property.value_chars

namespace DieSpelling

theorem value_chars_mark (die : DieSpelling) : ∀ char ∈ die.markText, isValueChar char = true := by
  rw [markText]
  cases die.mark with
  | none =>
      intro char member
      cases member
  | some blanks => exact List.forall_mem_cons.mpr ⟨by decide, blanks.value_chars⟩

theorem value_chars_count (die : DieSpelling) : ∀ char ∈ die.countText, isValueChar char = true := by
  rw [countText]
  cases die.count with
  | none =>
      intro char member
      cases member
  | some count =>
      obtain ⟨digits, behind, fraction⟩ := count
      refine List.forall_mem_append.mpr ⟨digits.property.value_chars,
        List.forall_mem_append.mpr ⟨behind.value_chars, ?_⟩⟩
      cases fraction with
      | none =>
          intro char member
          cases member
      | some fraction =>
          exact List.forall_mem_cons.mpr ⟨by decide, List.forall_mem_append.mpr
            ⟨fraction.before.value_chars, List.forall_mem_append.mpr
              ⟨fraction.digits.property.value_chars, fraction.behind.value_chars⟩⟩⟩

theorem forall_tail (die : DieSpelling) (kind : Char → Bool)
    (blank : ∀ char, isBlank char = true → kind char = true)
    (digit : ∀ char, isDigit char = true → kind char = true)
    (letters : "dD%bestworf".toList.all kind = true) : ∀ char ∈ die.tail, kind char = true := by
  have letter {text : Text} (inside : text ⊆ "dD%bestworf".toList) :
      ∀ char ∈ text, kind char = true :=
    fun char member => List.all_eq_true.mp letters char (inside member)
  have blanks (text : Blanks) : ∀ char ∈ text.val, kind char = true :=
    fun char member => blank char (List.all_eq_true.mp text.property char member)
  have digits (run : DigitRun) : ∀ char ∈ run.val, kind char = true :=
    fun char member => digit char (run.property.digits char member)
  have first : kind die.letter = true := by
    rw [DieSpelling.letter]
    split
    · exact List.all_eq_true.mp letters 'D' (by decide)
    · exact List.all_eq_true.mp letters 'd' (by decide)
  have sides : ∀ char ∈ die.sidesText, kind char = true := by
    rw [sidesText]
    cases die.sides with
    | none => exact letter (by decide)
    | some run => exact digits run.val
  have choice : ∀ char ∈ die.choiceText, kind char = true := by
    rw [choiceText]
    cases die.choice with
    | none =>
        intro char member
        cases member
    | some choice =>
        have word : ∀ char ∈ choice.word, kind char = true := by
          rw [ChoiceSpelling.word]
          split
          · exact letter (by decide)
          · exact letter (by decide)
        exact List.forall_mem_append.mpr ⟨blanks choice.before, List.forall_mem_append.mpr
          ⟨word, List.forall_mem_append.mpr ⟨blanks choice.behindWord, List.forall_mem_append.mpr
            ⟨letter (by decide), List.forall_mem_append.mpr
              ⟨blanks choice.behindOf, digits choice.attempts.val⟩⟩⟩⟩⟩
  exact List.forall_mem_cons.mpr ⟨first, List.forall_mem_append.mpr
    ⟨blanks die.behindLetter, List.forall_mem_append.mpr ⟨sides, choice⟩⟩⟩

theorem value_chars (die : DieSpelling) : ∀ char ∈ die.text, isValueChar char = true := by
  have tail : ∀ char ∈ die.tail, isValueChar char = true := by
    apply die.forall_tail isValueChar
    · intro char blank
      rw [isValueChar, blank, Bool.or_true, Bool.true_or]
    · intro char digit
      rw [isValueChar, digit, Bool.true_or, Bool.true_or]
    · decide
  exact List.forall_mem_append.mpr ⟨die.value_chars_mark,
    List.forall_mem_append.mpr ⟨die.value_chars_count, tail⟩⟩

theorem not_mem_tail (die : DieSpelling) {char : Char} (visible : isBlank char = false)
    (noDigit : isDigit char = false) (other : char ∉ "dD%bestworf".toList) : char ∉ die.tail := by
  have tail := die.forall_tail
    (fun next => isBlank next || isDigit next || "dD%bestworf".toList.contains next)
    (fun next blank => by rw [blank, Bool.true_or, Bool.true_or])
    (fun next digit => by rw [digit, Bool.or_true, Bool.true_or]) (by decide)
  intro member
  have inside := tail char member
  rw [visible, noDigit, Bool.false_or, Bool.false_or, List.contains_iff_mem] at inside
  exact other inside

theorem slashed_front (die : DieSpelling) : Slashed (die.markText ++ die.countText) := by
  have mark : '/' ∉ die.markText := by
    rw [markText]
    cases die.mark with
    | none => exact List.not_mem_nil
    | some blanks => simpa using blanks.not_mem (by decide)
  rw [countText]
  cases die.count with
  | none =>
      rw [Option.elim_none, List.append_nil]
      exact slashed_of_not_mem mark
  | some count =>
      obtain ⟨digits, behind, fraction⟩ := count
      have count : '/' ∉ die.markText ++ (digits.val ++ behind.val) := by
        simp only [List.mem_append, not_or]
        exact ⟨mark, digits.property.not_mem (by decide), behind.not_mem (by decide)⟩
      rw [Option.elim_some, CountSpelling.text]
      cases fraction with
      | none =>
          rw [Option.elim_none, List.append_nil]
          exact slashed_of_not_mem count
      | some fraction =>
          rw [Option.elim_some, FractionSpelling.text, ← List.append_assoc digits.val,
            ← List.append_assoc]
          apply slashed_between count
          simp only [List.mem_append, not_or]
          exact ⟨fraction.before.not_mem (by decide),
            fraction.digits.property.not_mem (by decide), fraction.behind.not_mem (by decide)⟩

end DieSpelling

section Normalization

variable {first second glyph : Char}

theorem replace_pairs_cons_of_ne {char : Char} (other : char ≠ first) (rest : Text) :
    replacePairs first second glyph (char :: rest) = char :: replacePairs first second glyph rest := by
  cases rest with
  | nil => rfl
  | cons next rest => rw [replacePairs, if_neg fun same => other same.1]

theorem replace_pairs_append_of_not_mem {left : Text} (absent : first ∉ left) (rest : Text) :
    replacePairs first second glyph (left ++ rest) = left ++ replacePairs first second glyph rest := by
  induction left with
  | nil => rfl
  | cons char left ih =>
      rw [List.cons_append, replace_pairs_cons_of_ne (Ne.symm (List.ne_of_not_mem_cons absent)),
        ih (List.not_mem_of_not_mem_cons absent), List.cons_append]

/-- A text without such a pair stays as it is where nothing completes one behind it. -/
theorem replace_pairs_append_of_chain {left rest : Text}
    (apart : left.IsChain fun char next => ¬(char = first ∧ next = second))
    (stops : Stops (· == second) rest) :
    replacePairs first second glyph (left ++ rest) = left ++ replacePairs first second glyph rest := by
  induction left with
  | nil => rfl
  | cons char left ih =>
      obtain ⟨here, behind⟩ := List.isChain_cons.mp apart
      rw [List.cons_append, List.cons_append, ← ih behind]
      cases text : left ++ rest with
      | nil => rfl
      | cons next more =>
          rw [replacePairs, if_neg]
          rintro ⟨same, rfl⟩
          cases left with
          | nil =>
              rw [List.nil_append] at text
              rw [text] at stops
              exact absurd (stops_cons.mp stops) (by simp)
          | cons _ _ =>
              cases text
              exact here _ rfl ⟨same, rfl⟩

/-- Two characters that are typed for one glyph, and what keeps them out of the other text. -/
structure IsTypedPair (first second : Char) : Prop where
  visible : isBlank first = false
  noDigit : isDigit first = false
  others : ∀ char ∈ "+-().".toList ++ "dD%bestworf".toList, char ≠ first
  noLetter : second ≠ 'd' ∧ second ≠ 'D'
  kinds : (first = '/' ∧ second = '/') ∨ second = '='

theorem replace_pairs_die (pair : IsTypedPair first second) (die : DieSpelling) (rest : Text) :
    replacePairs first second glyph (die.text ++ rest) =
      die.text ++ replacePairs first second glyph rest := by
  have front : (die.markText ++ die.countText).IsChain
      fun char next => ¬(char = first ∧ next = second) := by
    rcases pair.kinds with ⟨rfl, rfl⟩ | rfl
    · exact die.slashed_front
    · apply chain_of_not_mem
      right
      rw [List.mem_append, not_or]
      exact ⟨not_mem_of_value_chars die.value_chars_mark (by decide),
        not_mem_of_value_chars die.value_chars_count (by decide)⟩
  have letter : Stops (· == second) (die.tail ++ rest) := by
    apply stops_cons.mpr
    apply beq_false_of_ne
    rw [DieSpelling.letter]
    split
    · exact pair.noLetter.2.symm
    · exact pair.noLetter.1.symm
  have tail : first ∉ die.tail := by
    apply die.not_mem_tail pair.visible pair.noDigit
    intro member
    exact pair.others first (List.mem_append_right _ member) rfl
  have cut (behind : Text) : die.text ++ behind =
      (die.markText ++ die.countText) ++ (die.tail ++ behind) := by
    simp only [DieSpelling.text, List.append_assoc]
  rw [cut, cut, replace_pairs_append_of_chain front letter, replace_pairs_append_of_not_mem tail]

theorem NumberSpelling.not_mem (number : NumberSpelling) {char : Char}
    (noDigit : isDigit char = false) (noPoint : char ≠ '.') : char ∉ number.text := by
  cases number with
  | whole digits => exact digits.property.not_mem noDigit
  | pointed front fraction =>
      have places := fraction.property.not_mem noDigit
      cases front with
      | none => simp [text, noPoint, places]
      | some digits => simp [text, noPoint, places, digits.property.not_mem noDigit]

theorem replace_pairs_text (pair : IsTypedPair first second) {spell : Operator → Bool → Text}
    (spelled : ∀ op ascii rest, replacePairs first second glyph (spell op ascii ++ rest) =
      replacePairs first second glyph (spell op ascii) ++ replacePairs first second glyph rest)
    (spelling : Spelling) (rest : Text) :
    replacePairs first second glyph (spelling.textWith spell ++ rest) =
      spelling.textWith (fun op ascii => replacePairs first second glyph (spell op ascii)) ++
        replacePairs first second glyph rest := by
  have blanks (blanks : Blanks) : first ∉ blanks.val := blanks.not_mem pair.visible
  have lead (lead : Lead) : first ∉ lead.val :=
    lead.not_mem pair.visible (pair.others '+' (by decide)).symm
  have digits (number : NumberSpelling) : first ∉ number.text :=
    number.not_mem pair.noDigit (pair.others '.' (by decide)).symm
  induction spelling generalizing rest with
  | constant start number behind =>
      simp only [Spelling.textWith, List.append_assoc, replace_pairs_append_of_not_mem (lead start),
        replace_pairs_append_of_not_mem (digits number),
        replace_pairs_append_of_not_mem (blanks behind)]
  | die start dice behind =>
      simp only [Spelling.textWith, List.append_assoc, replace_pairs_append_of_not_mem (lead start),
        replace_pairs_die pair, replace_pairs_append_of_not_mem (blanks behind)]
  | negation start operand ih =>
      simp only [Spelling.textWith, List.append_assoc, List.cons_append,
        replace_pairs_append_of_not_mem (lead start),
        replace_pairs_cons_of_ne (pair.others '-' (by decide)), ih]
  | binary op ascii left right ihLeft ihRight =>
      simp only [Spelling.textWith, List.append_assoc, ihLeft, spelled, ihRight]
  | group start inner behind ih =>
      simp only [Spelling.textWith, List.append_assoc, List.cons_append,
        replace_pairs_append_of_not_mem (lead start),
        replace_pairs_cons_of_ne (pair.others '(' (by decide)), ih,
        replace_pairs_cons_of_ne (pair.others ')' (by decide)),
        replace_pairs_append_of_not_mem (blanks behind)]

theorem normalize_text (spelling : Spelling) : normalize spelling.text = spelling.normalized := by
  have whole {first second glyph : Char} (pair : IsTypedPair first second)
      {spell : Operator → Bool → Text}
      (spelled : ∀ op ascii rest, replacePairs first second glyph (spell op ascii ++ rest) =
        replacePairs first second glyph (spell op ascii) ++ replacePairs first second glyph rest) :
      replacePairs first second glyph (spelling.textWith spell) =
        spelling.textWith fun op ascii => replacePairs first second glyph (spell op ascii) := by
    have replaced := replace_pairs_text pair spelled spelling []
    simpa [replacePairs] using replaced
  have glyphs : (fun op ascii => replacePairs '<' '=' '≤' (replacePairs '>' '=' '≥'
      (replacePairs '/' '/' '÷' (Operator.spelled op ascii)))) = fun op ascii => [op.glyph ascii] := by
    funext op ascii
    cases op <;> cases ascii <;> rfl
  rw [normalize, Spelling.text, whole ⟨by decide, by decide, by decide, by decide, by decide⟩,
    whole ⟨by decide, by decide, by decide, by decide, by decide⟩,
    whole ⟨by decide, by decide, by decide, by decide, by decide⟩, glyphs]
  · rfl
  all_goals
    intro op ascii rest
    cases op <;> cases ascii
    all_goals first
      | rfl
      | exact replace_pairs_append_of_not_mem (by decide) rest

end Normalization

end TabletopDice
