import TabletopDice.Proofs.Dice.TreeRoll
import TabletopDice.Proofs.Expression.SpelledValues

/-!
Every spelling of a tree is read as the row of the tree, and so it rolls the tree. The
induction follows the tree: each part of a spelling is read up to its end, whatever
stands behind it.
-/

namespace TabletopDice

open Text

def EndsRun (text : Text) : Prop := ∀ token ∈ (Token.ofText text).head?, token.isRun = false

theorem ends_run_nil : EndsRun [] := by
  intro token found
  cases found

theorem ends_run_glyph {glyph : Char} (isGlyph : isGlyph glyph = true) (rest : Text) :
    EndsRun (glyph :: rest) := by
  intro token found
  rw [Token.of_text_glyph isGlyph] at found
  cases found
  rfl

theorem not_glyph_of_value_char {char : Char} (inside : isValueChar char = true) :
    isGlyph char = false := by
  cases glyph : isGlyph char with
  | false => rfl
  | true =>
      have listed : char ∈ "()+-*×÷≤≥=|<mc".toList := List.mem_append_left _ (mem_glyphs glyph)
      rw [not_value_char char listed] at inside
      cases inside

theorem of_text_value {part rest : Text} (nonempty : part ≠ [])
    (chars : ∀ char ∈ part, isValueChar char = true) (ends : EndsRun rest) :
    Token.ofText (part ++ rest) = .run part :: Token.ofText rest :=
  Token.of_text_run nonempty (fun char member => not_glyph_of_value_char (chars char member)) ends

section Tokens

variable {expression : Text} {depth : Nat}

theorem skip_blanks (expected : Expected) (blanks : Blanks) {rest : Text} (ends : EndsRun rest) :
    parseTokens expression expected depth (Token.ofText (blanks.val ++ rest)) =
      parseTokens expression expected depth (Token.ofText rest) := by
  by_cases none : blanks.val = []
  · rw [none, List.nil_append]
  · rw [of_text_value none blanks.value_chars ends]
    cases expected with
    | value => rw [parseTokens, if_pos blanks.property]
    | operator => rw [parseTokens, if_pos blanks.property]

theorem skip_lead (lead : Lead) {text : Text} {result : Except Failure (List Component)}
    (reads : ∀ blanks : Blanks,
      parseTokens expression .value depth (Token.ofText (blanks.val ++ text)) = result) :
    parseTokens expression .value depth (Token.ofText (lead.val ++ text)) = result := by
  obtain ⟨chars, kinds⟩ := lead
  suffices every : ∀ blanks : Blanks,
      parseTokens expression .value depth (Token.ofText (blanks.val ++ (chars ++ text))) = result from
    every ⟨[], rfl⟩
  induction chars with
  | nil => exact reads
  | cons char chars ih =>
      obtain ⟨kind, others⟩ := List.forall_mem_cons.mp kinds
      intro blanks
      rcases kind with rfl | blank
      · rw [List.cons_append, skip_blanks .value blanks (ends_run_glyph (by decide) _),
          Token.of_text_glyph (by decide), parseTokens, if_pos rfl]
        exact ih others ⟨[], rfl⟩
      · have longer : allBlank (blanks.val ++ [char]) = true := by
          rw [allBlank, List.all_append, Bool.and_eq_true]
          exact ⟨blanks.property, by simp [blank]⟩
        have same : blanks.val ++ (char :: chars ++ text) = (blanks.val ++ [char]) ++ (chars ++ text) := by
          simp
        rw [same]
        exact ih others ⟨_, longer⟩

theorem take_value (before : Blanks) {text : Text} (chars : ∀ char ∈ text, isValueChar char = true)
    (shown : ∃ char ∈ text, isBlank char = false) (behind : Blanks) {rest : Text}
    (ends : EndsRun rest) :
    parseTokens expression .value depth
        (Token.ofText (before.val ++ ((text ++ behind.val) ++ rest))) = do
      let component ← parseValue (before.val ++ (text ++ behind.val)) expression
      return component :: (← parseTokens expression .operator depth (Token.ofText rest)) := by
  obtain ⟨char, member, visible⟩ := shown
  have inside : char ∈ before.val ++ (text ++ behind.val) :=
    List.mem_append_right _ (List.mem_append_left _ member)
  have notBlank := not_all_blank inside visible
  rw [← List.append_assoc, of_text_value (List.ne_nil_of_mem inside)
    (value_chars_between before chars behind) ends, parseTokens, if_neg (by simp [notBlank])]

theorem take_operator {glyph : Char} {op : Operator} (known : Operator.ofGlyph? glyph = some op)
    (tokens : List Token) :
    parseTokens expression .operator depth (.glyph glyph :: tokens) = do
      return .operator op :: (← parseTokens expression .value depth tokens) := by
  have noClose : glyph ≠ ')' := by
    rintro rfl
    cases known
  cases depth with
  | zero => rw [parseTokens, if_neg noClose, known]
  | succ depth => rw [parseTokens, if_neg noClose, known]

end Tokens

theorem NumberSpelling.exists_visible (number : NumberSpelling) :
    ∃ char ∈ number.text, isBlank char = false := by
  cases number with
  | whole digits => exact digits.property.exists_visible
  | pointed front fraction => exact ⟨'.', by simp [text], by decide⟩

theorem DieSpelling.exists_visible (die : DieSpelling) : ∃ char ∈ die.text, isBlank char = false := by
  have letter : isBlank die.letter = false := stops_cons.mp (die.stops_letter [] isBlank (by decide) (by decide))
  exact ⟨die.letter, by simp [text, tail], letter⟩

namespace Operator

variable {op : Operator}

theorem is_glyph_glyph (op : Operator) (ascii : Bool) : isGlyph (op.glyph ascii) = true := by
  cases op <;> cases ascii <;> decide

theorem of_glyph_glyph (isBinary : op ≠ .negate) (ascii : Bool) :
    Operator.ofGlyph? (op.glyph ascii) = some op := by
  cases op <;> cases ascii
  all_goals first
    | rfl
    | exact absurd rfl isBinary

end Operator

namespace Spelling

/-- A spelling is read from left to right, and what follows it afterwards. -/
theorem parse_tokens (spelling : Spelling) (expression : Text) (depth : Nat) {rest : Text}
    (ends : EndsRun rest) :
    parseTokens expression .value depth (Token.ofText (spelling.normalized ++ rest)) = do
      requireReadable spelling.numerals
      return spelling.tree.flatten ++
        (← parseTokens expression .operator depth (Token.ofText rest)) := by
  induction spelling generalizing depth rest with
  | constant lead number behind =>
      have text : (constant lead number behind).normalized ++ rest =
          lead.val ++ ((number.text ++ behind.val) ++ rest) := List.append_assoc ..
      rw [text]
      apply skip_lead
      intro blanks
      rw [take_value blanks number.value_chars number.exists_visible behind ends,
        number.parse_value]
      rfl
  | die lead dice behind =>
      have text : (die lead dice behind).normalized ++ rest =
          lead.val ++ ((dice.text ++ behind.val) ++ rest) := List.append_assoc ..
      rw [text]
      apply skip_lead
      intro blanks
      rw [take_value blanks dice.value_chars dice.exists_visible behind ends, dice.parse_value,
        bind_assoc]
      rfl
  | negation lead operand ih =>
      have text : (negation lead operand).normalized ++ rest =
          lead.val ++ ('-' :: (operand.normalized ++ rest)) := List.append_assoc ..
      rw [text]
      apply skip_lead
      intro blanks
      rw [skip_blanks .value blanks (ends_run_glyph (by decide) _), Token.of_text_glyph (by decide),
        parseTokens, if_neg (by decide), if_pos rfl, ih depth ends]
      simp only [bind_assoc, pure_bind]
      rfl
  | binary op ascii left right ihLeft ihRight =>
      have isGlyph := op.val.is_glyph_glyph ascii
      have text : (binary op ascii left right).normalized ++ rest =
          left.normalized ++ (op.val.glyph ascii :: (right.normalized ++ rest)) :=
        List.append_assoc ..
      rw [text, ihLeft depth (ends_run_glyph isGlyph _), Token.of_text_glyph isGlyph,
        take_operator (Operator.of_glyph_glyph op.property ascii)]
      simp only [ihRight depth ends, bind_assoc, pure_bind, numerals, require_readable_append, tree,
        Tree.flatten, List.append_assoc, List.cons_append]
  | group lead inner behind ih =>
      have text : (group lead inner behind).normalized ++ rest =
          lead.val ++ ('(' :: (inner.normalized ++ (')' :: (behind.val ++ rest)))) := by
        simp [normalized, textWith]
      rw [text]
      apply skip_lead
      intro blanks
      rw [skip_blanks .value blanks (ends_run_glyph (by decide) _), Token.of_text_glyph (by decide),
        parseTokens, if_neg (by decide), if_neg (by decide), if_pos rfl,
        ih (depth + 1) (ends_run_glyph (by decide) _), Token.of_text_glyph (by decide), parseTokens,
        if_pos rfl, skip_blanks .operator behind ends]
      simp only [bind_assoc, pure_bind, numerals, tree, Tree.flatten, List.append_assoc,
        List.cons_append]
      rfl

end Spelling

theorem Numeral.read_eq (numeral : Numeral) :
    numeral.read = requireReadable [numeral.digits] >>= fun _ =>
      pure (if numeral.negative then -(digitsValue numeral.digits : Int)
        else digitsValue numeral.digits) := by
  simp only [read, value, magnitude, requireReadable, List.forall_mem_singleton]
  split
  · rfl
  · rfl

namespace ClauseSpelling

theorem read_integer (clause : ClauseSpelling) :
    readInteger? (trimLeft (clause.behindWord.val ++ (clause.signText ++
        (clause.digits.val ++ clause.behind.val)))) =
      some ({ negative := clause.sign.getD false, digits := clause.digits.val },
        clause.behind.val) := by
  have run := clause.digits.property
  have stops := clause.behind.stops not_digit_of_blank
  rw [trim_left_append clause.behindWord.property, signText]
  cases clause.sign with
  | none =>
      rw [Option.elim_none, List.nil_append, run.trim_left]
      exact read_integer_signed run stops (split_sign_digits run _)
  | some negative =>
      cases negative with
      | true => exact read_integer_signed run stops rfl
      | false => exact read_integer_signed run stops rfl

theorem front (clause : ClauseSpelling) :
    trimLeft clause.body = clause.word ++ (clause.behindWord.val ++ (clause.signText ++
      (clause.digits.val ++ clause.behind.val))) := by
  rw [body, trim_left_append clause.before.property, word]
  split
  · exact trim_left_of_stops (stops_cons.mpr (by decide))
  · exact trim_left_of_stops (stops_cons.mpr (by decide))

theorem read_limit (clause : ClauseSpelling) :
    readLimit? clause.word clause.body =
      some { negative := clause.sign.getD false, digits := clause.digits.val } := by
  have blank : allBlank clause.behind.val = true := clause.behind.property
  rw [readLimit?, clause.front, after_append]
  simp only [Option.bind_eq_bind, Option.bind_some, clause.read_integer, blank, if_true]

theorem with_clause (clause : ClauseSpelling) (limits : Limits) :
    limits.withClause clause.body =
      requireReadable [clause.digits.val] >>= fun _ => pure (limit limits clause) := by
  have found := clause.read_limit
  have number : (if clause.sign.getD false = true then -(digitsValue clause.digits.val : Int)
      else digitsValue clause.digits.val) = clause.number := by
    rw [ClauseSpelling.number]
    cases clause.sign with
    | none => rfl
    | some negative => cases negative <;> rfl
  cases isMaximum : clause.isMaximum with
  | false =>
      have word : clause.word = ['m', 'i', 'n'] := by rw [ClauseSpelling.word, isMaximum]; rfl
      rw [word] at found
      simp only [Limits.withClause, found, Numeral.read_eq, bind_assoc, pure_bind, number, limit,
        isMaximum, Bool.false_eq_true, if_false]
  | true =>
      have word : clause.word = ['m', 'a', 'x'] := by rw [ClauseSpelling.word, isMaximum]; rfl
      have other : readLimit? ['m', 'i', 'n'] clause.body = none := by
        rw [readLimit?, clause.front, word]
        rfl
      rw [word] at found
      simp only [Limits.withClause, other, found, Numeral.read_eq, bind_assoc, pure_bind, number,
        limit, isMaximum, if_true]

/-- Clauses are read from left to right, so a later one replaces an earlier one of its kind. -/
theorem with_clauses (clauses : List ClauseSpelling) (limits : Limits) :
    (clauses.map body).foldlM Limits.withClause limits =
      requireReadable (clauses.map fun clause => clause.digits.val) >>= fun _ =>
        pure (clauses.foldl ClauseSpelling.limit limits) := by
  induction clauses generalizing limits with
  | nil => rfl
  | cons clause clauses ih =>
      have numerals := require_readable_append [clause.digits.val]
        (clauses.map fun clause => clause.digits.val)
      rw [List.map_cons, List.map_cons, List.foldlM_cons, with_clause, List.foldl_cons]
      rw [List.singleton_append] at numerals
      simp only [numerals, bind_assoc, pure_bind, ih]

theorem not_mem (clause : ClauseSpelling) {char : Char} (visible : isBlank char = false)
    (noDigit : isDigit char = false) (other : char ∉ "maxin+-".toList) : char ∉ clause.body := by
  have inside {text : Text} (listed : text ⊆ "maxin+-".toList) : char ∉ text :=
    fun member => other (listed member)
  have word : char ∉ clause.word := by
    rw [ClauseSpelling.word]
    split
    · exact inside (by decide)
    · exact inside (by decide)
  have sign : char ∉ clause.signText := by
    rw [signText]
    cases clause.sign with
    | none => exact inside (by decide)
    | some negative => cases negative <;> exact inside (by decide)
  simp only [body, List.mem_append, not_or]
  exact ⟨clause.before.not_mem visible, word, clause.behindWord.not_mem visible, sign,
    clause.digits.property.not_mem noDigit, clause.behind.not_mem visible⟩

end ClauseSpelling

namespace Spelling

theorem not_mem (spelling : Spelling) {char : Char} (noValue : isValueChar char = false)
    (other : char ∉ "()+-*×÷≤≥/<>=".toList) : char ∉ spelling.text := by
  have visible : isBlank char = false := by
    simp only [isValueChar, Bool.or_eq_false_iff] at noValue
    exact noValue.1.2
  have apart (glyph : Char) (listed : glyph ∈ "()+-*×÷≤≥/<>=".toList) : char ≠ glyph := by
    rintro rfl
    exact other listed
  have lead (lead : Lead) : char ∉ lead.val := lead.not_mem visible (apart '+' (by decide))
  have blanks (blanks : Blanks) : char ∉ blanks.val := blanks.not_mem visible
  have spelled (op : Operator) (ascii : Bool) : char ∉ op.spelled ascii := by
    have listed : op.spelled ascii ⊆ "()+-*×÷≤≥/<>=".toList := by
      cases op <;> cases ascii <;> decide
    exact fun member => other (listed member)
  induction spelling with
  | constant start number behind =>
      have absent := not_mem_of_value_chars number.value_chars noValue
      simp only [text, textWith, List.mem_append, not_or]
      exact ⟨lead start, absent, blanks behind⟩
  | die start dice behind =>
      have absent := not_mem_of_value_chars dice.value_chars noValue
      simp only [text, textWith, List.mem_append, not_or]
      exact ⟨lead start, absent, blanks behind⟩
  | negation start operand ih =>
      simp only [text, textWith, List.mem_append, List.mem_cons, not_or]
      exact ⟨lead start, apart '-' (by decide), ih⟩
  | binary op ascii left right ihLeft ihRight =>
      simp only [text, textWith, List.mem_append, not_or]
      exact ⟨ihLeft, spelled op.val ascii, ihRight⟩
  | group start inner behind ih =>
      simp only [text, textWith, List.mem_append, List.mem_cons, not_or]
      exact ⟨lead start, apart '(' (by decide), ih, apart ')' (by decide), blanks behind⟩

theorem normalized_ne_nil (spelling : Spelling) : spelling.normalized ≠ [] := by
  cases spelling with
  | constant lead number behind =>
      obtain ⟨char, member, -⟩ := number.exists_visible
      exact List.ne_nil_of_mem (List.mem_append_right _ (List.mem_append_left _ member))
  | die lead dice behind =>
      obtain ⟨char, member, -⟩ := dice.exists_visible
      exact List.ne_nil_of_mem (List.mem_append_right _ (List.mem_append_left _ member))
  | negation lead operand => simp [normalized, textWith]
  | binary op ascii left right => simp [normalized, textWith]
  | group lead inner behind => simp [normalized, textWith]

/-- The spelling in parentheses, unless it binds at least as tightly as it has to. -/
def enclosed (least : Nat) (spelling : Spelling) : Spelling :=
  if least ≤ spelling.tree.tier then spelling else group ⟨[], by decide⟩ spelling ⟨[], rfl⟩

def parenthesized : Spelling → Spelling
  | constant lead number behind => constant lead number behind
  | die lead dice behind => die lead dice behind
  | negation lead operand =>
      negation lead (operand.parenthesized.enclosed Operator.negate.precedence)
  | binary op ascii left right =>
      binary op ascii (left.parenthesized.enclosed op.val.precedence)
        (right.parenthesized.enclosed (op.val.precedence + 1))
  | group lead inner behind => group lead inner.parenthesized behind

theorem tier_enclosed {spelling : Spelling} {least : Nat}
    (possible : least ≤ Operator.negate.precedence) : least ≤ (spelling.enclosed least).tree.tier := by
  unfold enclosed
  split
  next tight => exact tight
  next => exact possible

theorem tiered_enclosed {spelling : Spelling} (tiered : spelling.tree.IsTiered) (least : Nat) :
    (spelling.enclosed least).tree.IsTiered := by
  unfold enclosed
  split
  · exact tiered
  · exact tiered

theorem ungrouped_enclosed (spelling : Spelling) (least : Nat) :
    (spelling.enclosed least).tree.ungrouped = spelling.tree.ungrouped := by
  unfold enclosed
  split
  · rfl
  · rfl

theorem tiered_parenthesized (spelling : Spelling) : spelling.parenthesized.tree.IsTiered := by
  induction spelling with
  | constant _ _ _ | die _ _ _ => trivial
  | negation lead operand ih =>
      exact ⟨tiered_enclosed ih _, tier_enclosed (Nat.le_refl _)⟩
  | binary op ascii left right ihLeft ihRight =>
      have below := Tree.precedence_lt_negate op.property
      exact ⟨op.property, tiered_enclosed ihLeft _, tiered_enclosed ihRight _,
        tier_enclosed (Nat.le_of_lt below), tier_enclosed below⟩
  | group lead inner behind ih => exact ih

theorem ungrouped_parenthesized (spelling : Spelling) :
    spelling.parenthesized.tree.ungrouped = spelling.tree.ungrouped := by
  induction spelling with
  | constant _ _ _ | die _ _ _ => rfl
  | negation lead operand ih =>
      simp only [parenthesized, tree, Tree.ungrouped, ungrouped_enclosed, ih]
  | binary op ascii left right ihLeft ihRight =>
      simp only [parenthesized, tree, Tree.ungrouped, ungrouped_enclosed, ihLeft, ihRight]
  | group lead inner behind ih => exact ih

end Spelling

structure ExpressionSpelling where
  body : Spelling
  clauses : List ClauseSpelling

namespace ExpressionSpelling

def text (spelling : ExpressionSpelling) : Text :=
  spelling.body.text ++ spelling.clauses.flatMap ClauseSpelling.text

/-- The limits; of two of one kind the later counts. -/
def limits (spelling : ExpressionSpelling) : Limits :=
  spelling.clauses.foldl ClauseSpelling.limit {}

def numerals (spelling : ExpressionSpelling) : List Text :=
  spelling.clauses.map (fun clause => clause.digits.val) ++ spelling.body.numerals

def dice (spelling : ExpressionSpelling) : Dice where
  components := spelling.body.tree.flatten
  limits := spelling.limits

theorem split_limits (spelling : ExpressionSpelling) :
    splitLimits spelling.text =
      requireReadable (spelling.clauses.map fun clause => clause.digits.val) >>= fun _ =>
        pure (spelling.body.text, spelling.limits) := by
  have parts : spelling.clauses.flatMap ClauseSpelling.text =
      (spelling.clauses.map ClauseSpelling.body).flatMap ('|' :: ·) := by
    rw [List.flatMap_map]
    rfl
  have noBar : ∀ part ∈ spelling.clauses.map ClauseSpelling.body, '|' ∉ part := by
    intro part member
    obtain ⟨clause, -, rfl⟩ := List.mem_map.mp member
    exact clause.not_mem (by decide) (by decide) (by decide)
  rw [splitLimits, text, parts, split_on_parts noBar (spelling.body.not_mem (by decide) (by decide))]
  simp only [ClauseSpelling.with_clauses, bind_assoc, pure_bind, limits]

theorem no_confirmation (spelling : ExpressionSpelling) :
    mentionsConfirmation spelling.text = false := by
  have quiet : 'c' ∉ spelling.text := by
    rw [text, List.mem_append, not_or]
    refine ⟨spelling.body.not_mem (by decide) (by decide), ?_⟩
    intro member
    obtain ⟨clause, -, inside⟩ := List.mem_flatMap.mp member
    rcases List.mem_cons.mp inside with bar | inside
    · cases bar
    · exact clause.not_mem (by decide) (by decide) (by decide) inside
  have silent := confirmation_of_labelled quiet [] (stops_nil continuesWord) false
  rw [labelled_nil, List.append_nil] at silent
  exact silent

theorem parse_text (spelling : ExpressionSpelling) :
    parseExpression spelling.text =
      requireReadable spelling.numerals >>= fun _ =>
        pure (spelling.body.tree.flatten, spelling.limits) := by
  have tokens := spelling.body.parse_tokens spelling.body.text 0 ends_run_nil
  have finished : parseTokens spelling.body.text .operator 0 (Token.ofText []) = pure [] := rfl
  rw [List.append_nil, finished] at tokens
  have nonempty : Token.ofText spelling.body.normalized ≠ [] := by
    intro empty
    apply spelling.body.normalized_ne_nil
    rw [← Token.toText_ofText spelling.body.normalized, empty]
    rfl
  have noConfirmation := spelling.no_confirmation
  rw [parseExpression, if_neg (by simp [noConfirmation]), split_limits, numerals,
    require_readable_append]
  simp only [bind_assoc, pure_bind, normalize_text, tokens, List.append_nil]

/-- A spelled tree is read as its row and with the limits behind it, if its whole numbers have
few enough digits, and that row rolls the tree. -/
theorem parse_and_roll (spelling : ExpressionSpelling) (tiered : spelling.body.tree.IsTiered) :
    parseExpression spelling.text =
        (if ∀ digits ∈ spelling.numerals, digits.length ≤ maxDigits then
          .ok (spelling.body.tree.flatten, spelling.limits)
        else .error (.number .tooManyDigits)) ∧
      ∀ bonus, Evaluation.total <$> spelling.dice.roll bonus =
        spelling.body.tree.ungrouped.rollTotal false spelling.limits bonus := by
  constructor
  · rw [parse_text, requireReadable]
    split
    · rfl
    · rfl
  · intro bonus
    have same : spelling.body.tree.flatten = spelling.dice.components := rfl
    have rolled := Dice.total_evaluate tiered same false bonus
    rw [Tree.rollTotal, Tree.roll_ungrouped]
    exact rolled

def halved : ExpressionSpelling where
  body := .binary ⟨.divide, by decide⟩ true
    (.die ⟨['+', ' '], by decide⟩ {
      mark := none
      count := some { digits := ⟨['2'], by decide, by decide⟩, behind := ⟨[], rfl⟩, fraction := none }
      capital := true
      behindLetter := ⟨[' '], rfl⟩
      sides := some ⟨⟨['6'], by decide, by decide⟩, by decide⟩
      choice := none } ⟨[' '], rfl⟩)
    (.group ⟨[], by decide⟩
      (.constant ⟨[], by decide⟩ (.whole ⟨['2'], by decide, by decide⟩) ⟨[], rfl⟩) ⟨[], rfl⟩)
  clauses := [{
    before := ⟨[' '], rfl⟩
    isMaximum := true
    behindWord := ⟨[' '], rfl⟩
    sign := none
    digits := ⟨['5'], by decide, by decide⟩
    behind := ⟨[], rfl⟩ }]

theorem parse_and_roll_of_halved :
    halved.text = "+ 2D 6 //(2)| max 5".toList ∧ halved.body.tree.IsTiered ∧
      parseExpression halved.text = .ok (
        [.die { sides := 6, numerator := 2 }, .operator .divide, .openGroup,
          .constant (Double.ofDecimal ['2'] []) [], .closeGroup], { maximum := 5 }) ∧
      ∀ bonus, Evaluation.total <$> halved.dice.roll bonus =
        (Tree.binary .divide (.die { sides := 6, numerator := 2 })
          (.constant (Double.ofDecimal ['2'] []) [])).rollTotal false { maximum := 5 } bonus := by
  have tiered : halved.body.tree.IsTiered := ⟨by decide, trivial, trivial, by decide, by decide⟩
  obtain ⟨parsed, rolled⟩ := parse_and_roll halved tiered
  rw [if_pos (by decide)] at parsed
  exact ⟨by decide, tiered, parsed, rolled⟩

def manyDice (more : Nat) : ExpressionSpelling where
  body := .die ⟨[], by decide⟩ {
    mark := none
    count := some {
      digits := ⟨List.replicate (more + 1) '1', List.cons_ne_nil _ _, fun char member => by
        rw [List.eq_of_mem_replicate member]
        decide⟩
      behind := ⟨[], rfl⟩
      fraction := none }
    capital := false
    behindLetter := ⟨[], rfl⟩
    sides := some ⟨⟨['6'], by decide, by decide⟩, by decide⟩
    choice := none } ⟨[], rfl⟩
  clauses := []

theorem text_many_dice (more : Nat) :
    (manyDice more).text = List.replicate (more + 1) '1' ++ "d6".toList := by
  simp [manyDice, text, Spelling.text, Spelling.textWith, DieSpelling.text, DieSpelling.markText,
    DieSpelling.countText, CountSpelling.text, DieSpelling.tail, DieSpelling.letter,
    DieSpelling.sidesText, DieSpelling.choiceText]

theorem not_parse_many_dice :
    (manyDice 4300).text = List.replicate 4301 '1' ++ "d6".toList ∧
      (manyDice 4300).body.tree.IsTiered ∧
      parseExpression (manyDice 4300).text = .error (.number .tooManyDigits) := by
  have long : ¬ ∀ digits ∈ (manyDice 4300).numerals, digits.length ≤ maxDigits := by
    intro short
    have count := short (List.replicate 4301 '1') (.tail _ (.head _))
    rw [List.length_replicate] at count
    exact absurd count (by decide)
  refine ⟨text_many_dice 4300, trivial, ?_⟩
  rw [parse_text, requireReadable, if_neg long]
  rfl

end ExpressionSpelling

end TabletopDice
