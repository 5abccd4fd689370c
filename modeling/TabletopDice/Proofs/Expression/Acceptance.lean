import TabletopDice.Proofs.Expression.Reading

/-!
Accepted expressions derive from the grammar, and their numbers are in range. While
tokens are read, what is left of the row is a continuation of the operand read
last: further operands behind binary operators, and the ends of the open groups.
-/

namespace TabletopDice

open Text

/-- What can follow an operand inside a number of open groups. -/
inductive Continues : Nat → List Component → Prop
  | finish : Continues 0 []
  | binary {depth : Nat} {op : Operator} {operand row : List Component}
      (isBinary : op ≠ .negate) (second : Derives .operand operand) (rest : Continues depth row) :
      Continues depth (.operator op :: (operand ++ row))
  | close {depth : Nat} {row : List Component} (label : Option Text) (rest : Continues depth row) :
      Continues (depth + 1) (.closeGroup :: (Component.ofLabel label ++ row))

/-- The operands behind an expression are added to it up to the end of the innermost group. -/
theorem exists_group_end {depth : Nat} {row : List Component}
    (continues : Continues (depth + 1) row) :
    ∃ inner label rest, row = inner ++ .closeGroup :: (Component.ofLabel label ++ rest) ∧
      (∀ expression, Derives .expression expression → Derives .expression (expression ++ inner)) ∧
      Continues depth rest := by
  generalize inside : depth + 1 = opened at continues
  induction continues with
  | finish => cases inside
  | @binary _ op operand row isBinary second _ ih =>
      obtain ⟨inner, label, rest, rfl, grows, remaining⟩ := ih inside
      refine ⟨.operator op :: (operand ++ inner), label, rest, by simp, ?_, remaining⟩
      intro expression derived
      have longer := grows _ (Derives.binary derived isBinary second)
      rwa [List.append_assoc, List.cons_append] at longer
  | close label remaining =>
      cases inside
      refine ⟨[], label, _, rfl, ?_, remaining⟩
      intro expression derived
      rwa [List.append_nil]

theorem derives_of_continues {row : List Component} (continues : Continues 0 row) :
    ∀ expression, Derives .expression expression → Derives .expression (expression ++ row) := by
  generalize outside : 0 = depth at continues
  induction continues with
  | finish =>
      intro expression derived
      rwa [List.append_nil]
  | @binary _ op operand row isBinary second _ ih =>
      intro expression derived
      have longer := ih outside _ (Derives.binary derived isBinary second)
      rwa [List.append_assoc, List.cons_append] at longer
  | close label remaining => cases outside

/-- What is left to read: an operand and its continuation, or a continuation behind the label of
the group that has just been closed. -/
def Remains (tokens : List Token) : Expected → Nat → List Component → Prop
  | .value, depth, row =>
      ∃ operand rest, row = operand ++ rest ∧ Derives .operand operand ∧ Continues depth rest
  | .operator, depth, row =>
      ∃ label rest, row = Component.ofLabel label ++ rest ∧ Continues depth rest ∧
        (label ≠ none → ∃ part behind, tokens = .run part :: behind)

theorem of_glyph_ne_negate {char : Char} {op : Operator}
    (known : Operator.ofGlyph? char = some op) : op ≠ .negate := by
  intro negation
  subst negation
  unfold Operator.ofGlyph? at known
  split at known <;> cases known

/-- What a part is that is read as a value: a die group, or a number where no die is, which
mentions no limit and has a label behind it or nothing. -/
inductive AcceptedValue (part expression : Text) : Component → Prop
  | die {pieces : DieNotation} {group : DieGroup} (found : DieNotation.read? part = some pieces)
      (made : pieces.toGroup part expression = .ok group) :
      AcceptedValue part expression (.die group)
  | constant {value : Double} {label : Text} (noDie : DieNotation.read? part = none)
      (found : readConstant? part = some (value, label)) (silent : mentionsLimit part = false)
      (bare : label = [] ∨ isBareLabel label = true) :
      AcceptedValue part expression (.constant value label)

theorem accepted_of_parse_value {part expression : Text} {component : Component}
    (read : parseValue part expression = .ok component) :
    AcceptedValue part expression component := by
  unfold parseValue at read
  split at read
  next pieces found =>
    simp only [bind_eq_ok, pure_eq_ok] at read
    obtain ⟨group, made, rfl⟩ := read
    exact .die found made
  next noDie =>
    unfold parseConstant at read
    split at read
    · cases read
    next value label found =>
      split at read
      · cases read
      next silent =>
        split at read
        · cases read
        next bare =>
          cases read
          refine .constant noDie found (Bool.eq_false_iff.mpr silent) ?_
          by_cases empty : label = []
          · exact .inl empty
          · right
            simpa [empty] using bare

theorem parse_value_is_value {part expression : Text} {component : Component}
    (read : parseValue part expression = .ok component) : component.isValue = true := by
  cases accepted_of_parse_value read with
  | die => rfl
  | constant => rfl

theorem derives_value {component : Component} (isValue : component.isValue = true) :
    Derives .operand [component] := by
  cases component with
  | constant value label => exact .term (.constant value label)
  | die group => exact .term (.die group)
  | _ => cases isValue

theorem continues_of_remains {token : Token} {tokens : List Token} {depth : Nat}
    {row : List Component} (run : token.isRun = true)
    (alternates : Token.Alternates (token :: tokens))
    (remains : Remains tokens .operator depth row) : Continues depth row := by
  obtain ⟨label, rest, rfl, continues, labelled⟩ := remains
  cases label with
  | none => exact continues
  | some text =>
      obtain ⟨part, behind, rfl⟩ := labelled (by simp)
      unfold Token.Alternates at alternates
      rw [List.isChain_cons] at alternates
      exact absurd ⟨run, rfl⟩ (alternates.1 (.run part) rfl)

theorem remains_of_reads {expression : Text} {expected : Expected} {depth : Nat}
    {tokens : List Token} {row : List Component}
    (reads : Reads expression expected depth tokens row)
    (alternates : Token.Alternates tokens) : Remains tokens expected depth row := by
  induction reads with
  | finish => exact ⟨none, [], rfl, .finish, fun labelled => absurd rfl labelled⟩
  | @skip expected depth tokens row token skipped rest ih =>
      have remains := ih alternates.tail
      match expected, token with
      | .value, _ => exact remains
      | .operator, .run part =>
          exact ⟨none, row, rfl, continues_of_remains rfl alternates remains,
            fun labelled => absurd rfl labelled⟩
  | negation rest ih =>
      obtain ⟨operand, behind, rfl, derived, continues⟩ := ih alternates.tail
      exact ⟨_, behind, rfl, .negation derived, continues⟩
  | openGroup rest ih =>
      obtain ⟨operand, behind, rfl, derived, continues⟩ := ih alternates.tail
      obtain ⟨inner, label, outer, rfl, grows, remaining⟩ := exists_group_end continues
      have grouped := Derives.group (grows operand (.operand derived)) label
      exact ⟨_, outer, by simp, .term grouped, remaining⟩
  | value read rest ih =>
      have continues := continues_of_remains rfl alternates (ih alternates.tail)
      exact ⟨_, _, rfl, derives_value (parse_value_is_value read), continues⟩
  | closeGroup rest ih =>
      obtain ⟨label, behind, rfl, continues, -⟩ := ih alternates.tail
      exact ⟨none, _, rfl, .close label continues, fun labelled => absurd rfl labelled⟩
  | binary known rest ih =>
      obtain ⟨operand, behind, rfl, derived, continues⟩ := ih alternates.tail
      exact ⟨none, _, rfl, .binary (of_glyph_ne_negate known) derived continues,
        fun labelled => absurd rfl labelled⟩
  | label bare noDie rest ih =>
      have continues := continues_of_remains rfl alternates (ih alternates.tail)
      exact ⟨some _, _, rfl, continues, fun _ => ⟨_, _, rfl⟩⟩

theorem derives_of_reads {expression : Text} {tokens : List Token} {row : List Component}
    (reads : Reads expression .value 0 tokens row) (alternates : Token.Alternates tokens) :
    Derives .expression row := by
  obtain ⟨operand, rest, rfl, derived, continues⟩ := remains_of_reads reads alternates
  exact derives_of_continues continues operand (.operand derived)

theorem nearest_is_nonnegative (numerator denominator : Nat) :
    (Double.nearest false numerator denominator).IsNonnegative := by
  simp only [Double.nearest]
  split
  · rfl
  · rfl

theorem read_constant_is_nonnegative {text label : Text} {value : Double}
    (read : readConstant? text = some (value, label)) : value.IsNonnegative := by
  simp only [readConstant?] at read
  split at read
  · simp only [Option.some.injEq, Prod.mk.injEq] at read
    obtain ⟨rfl, -⟩ := read
    exact nearest_is_nonnegative _ _
  · split at read
    · simp only [Option.some.injEq, Prod.mk.injEq] at read
      obtain ⟨rfl, -⟩ := read
      exact nearest_is_nonnegative _ _
    · cases read

theorem to_group_eq_ok {pieces : DieNotation} {part expression : Text} {group : DieGroup} :
    pieces.toGroup part expression = .ok group ↔
      ¬mentionsLimit part = true ∧
        ∃ sides, pieces.sides.elim (pure 100) wholeNumber = .ok sides ∧ ¬sides = 0 ∧
        ∃ attempts, pieces.choice.elim (pure 1) (fun choice => wholeNumber choice.2) = .ok attempts ∧
          ¬attempts = 0 ∧
        ∃ _checked, pieces.checkLabel part = .ok _checked ∧
        ∃ numerator, pieces.count = .ok numerator ∧
        ∃ denominator, pieces.denominator.elim (pure 0) wholeNumber = .ok denominator ∧
          DieGroup.mk sides numerator denominator 0 (attempts - 1) (pieces.choice.elim true Prod.fst)
            pieces.initialMax pieces.label = group := by
  simp only [DieNotation.toGroup, guard_eq_ok, bind_eq_ok, pure_eq_ok]

theorem to_group_is_proper {pieces : DieNotation} {part expression : Text} {group : DieGroup}
    (accepted : pieces.toGroup part expression = .ok group) : group.IsProper := by
  obtain ⟨-, sides, -, someSides, attempts, -, someAttempts, -, -, numerator, -, denominator, -,
    rfl⟩ := to_group_eq_ok.mp accepted
  constructor
  · change 1 ≤ (sides : Int)
    omega
  · exact Int.natCast_nonneg numerator
  · exact Int.natCast_nonneg denominator
  · change 0 ≤ (attempts : Int) - 1
    omega
  · rfl

theorem parse_value_is_proper {part expression : Text} {component : Component}
    (read : parseValue part expression = .ok component) : component.IsProper := by
  cases accepted_of_parse_value read with
  | die _ made => exact to_group_is_proper made
  | constant _ found => exact read_constant_is_nonnegative found

theorem proper_of_reads {expression : Text} {expected : Expected} {depth : Nat}
    {tokens : List Token} {row : List Component}
    (reads : Reads expression expected depth tokens row) :
    ∀ component ∈ row, component.IsProper := by
  induction reads with
  | finish =>
      intro component member
      cases member
  | skip _ _ ih => exact ih
  | value read _ ih => exact List.forall_mem_cons.mpr ⟨parse_value_is_proper read, ih⟩
  | negation _ ih | openGroup _ ih | closeGroup _ ih | binary _ _ ih | label _ _ _ ih =>
      exact List.forall_mem_cons.mpr ⟨trivial, ih⟩

structure WellFormed (row : List Component) : Prop where
  derived : Derives .expression row
  proper : ∀ component ∈ row, component.IsProper

/-- What an accepted text is: no confirmation in it, and a reading of its tokens. -/
theorem parse_expression_eq_ok {text : Text} {row : List Component} {limits : Limits} :
    parseExpression text = .ok (row, limits) ↔
      ¬mentionsConfirmation text = true ∧
        ∃ expression, splitLimits text = .ok (expression, limits) ∧
          Token.ofText (normalize expression) ≠ [] ∧
          parseTokens expression .value 0 (Token.ofText (normalize expression)) = .ok row := by
  unfold parseExpression
  simp only [guard_eq_ok, bind_eq_ok, Prod.exists]
  constructor
  · rintro ⟨clean, expression, found, cut, rest⟩
    split at rest
    · cases rest
    next notEmpty =>
      simp only [bind_eq_ok, pure_eq_ok, Prod.mk.injEq] at rest
      obtain ⟨_, parsed, rfl, rfl⟩ := rest
      exact ⟨clean, expression, cut, notEmpty, parsed⟩
  · rintro ⟨clean, expression, cut, notEmpty, parsed⟩
    refine ⟨clean, expression, limits, cut, ?_⟩
    split
    next empty => exact absurd empty notEmpty
    next =>
      simp only [bind_eq_ok, pure_eq_ok]
      exact ⟨row, parsed, rfl⟩

theorem well_formed_of_parse_expression {text : Text} {row : List Component} {limits : Limits}
    (accepted : parseExpression text = .ok (row, limits)) : WellFormed row := by
  obtain ⟨-, expression, -, -, parsed⟩ := parse_expression_eq_ok.mp accepted
  have reads := reads_of_parse_tokens parsed
  exact ⟨derives_of_reads reads (Token.alternates_of_text _), proper_of_reads reads⟩

end TabletopDice
