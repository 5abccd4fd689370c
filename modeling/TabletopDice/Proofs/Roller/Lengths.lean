import TabletopDice.Proofs.Roller.Clauses
import TabletopDice.Proofs.Roller.Validation

/-!
Specifications that are short. Their parts are no longer than the whole, and putting
alternatives into their places at most doubles it; so a short specification is refused
for what it says alone, and all dice that it gives are modest.
-/

namespace TabletopDice

open Text

namespace Segment

def written : Segment → Text
  | plain text => text
  | choice values => '{' :: values ++ ['}']

theorem written_cons_plain (char : Char) (segments : List Segment) :
    (consPlain char segments).flatMap written = char :: segments.flatMap written := by
  unfold consPlain
  split
  · rw [List.flatMap_cons, List.flatMap_cons]
    rfl
  · rw [List.flatMap_cons]
    rfl

theorem written_append_plain (text : Text) (segments : List Segment) :
    (appendPlain text segments).flatMap written = text ++ segments.flatMap written := by
  induction text with
  | nil => rfl
  | cons char text ih =>
      have first := written_cons_plain char (appendPlain text segments)
      rw [ih] at first
      exact first

/-- Nothing is lost between the segments, whether a pair of braces is open or not. -/
theorem written_split (opened : Option Text) (text : Text) :
    (split opened text).flatMap written =
      (opened.elim [] fun read => '{' :: read.reverse) ++ text := by
  induction text generalizing opened with
  | nil =>
      cases opened with
      | none => rfl
      | some read => exact written_append_plain ('{' :: read.reverse) []
  | cons char rest ih =>
      cases opened with
      | none =>
          simp only [split]
          split
          next opening =>
            rw [ih, opening]
            rfl
          next =>
            rw [written_cons_plain, ih]
            rfl
      | some read =>
          simp only [split]
          split
          next closing =>
            rw [List.flatMap_cons, ih, closing]
            simp [written]
          next =>
            split
            next lineEnd =>
              rw [written_append_plain, ih, lineEnd]
              simp
            next =>
              rw [ih]
              simp

theorem written_of_text (text : Text) : (ofText text).flatMap written = text :=
  written_split none text

theorem values_cons_plain (char : Char) (segments : List Segment) :
    (consPlain char segments).filterMap values? = segments.filterMap values? := by
  cases segments with
  | nil => rfl
  | cons segment segments =>
      cases segment with
      | plain text => rfl
      | choice values => rfl

theorem values_append_plain (text : Text) (segments : List Segment) :
    (appendPlain text segments).filterMap values? = segments.filterMap values? := by
  induction text with
  | nil => rfl
  | cons char text ih => exact (values_cons_plain char _).trans ih

/-- A brace is not open any more at the end of its line. -/
theorem no_line_feed_in_split {opened : Option Text} (oneLine : ∀ read ∈ opened, '\n' ∉ read)
    (text : Text) : ∀ values ∈ (split opened text).filterMap values?, '\n' ∉ values := by
  have closed : ∀ read ∈ (none : Option Text), '\n' ∉ read := nofun
  induction text generalizing opened with
  | nil =>
      cases opened with
      | none => exact fun _ member => absurd member List.not_mem_nil
      | some read =>
          rw [split, values_append_plain]
          exact fun _ member => absurd member List.not_mem_nil
  | cons char text ih =>
      cases opened with
      | none =>
          rw [split]
          split
          · exact ih fun read same => Option.some.inj same ▸ List.not_mem_nil
          · rw [values_cons_plain]
            exact ih closed
      | some read =>
          have before := oneLine read rfl
          rw [split]
          split
          · refine List.forall_mem_cons.mpr ⟨?_, ih closed⟩
            exact fun member => before (List.mem_reverse.mp member)
          split
          · rw [values_append_plain]
            exact ih closed
          next sameLine =>
            refine ih fun longer same => ?_
            rw [← Option.some.inj same]
            exact List.not_mem_cons_of_ne_of_not_mem (Ne.symm sameLine) before

theorem no_line_feed_in_values (text : Text) :
    ∀ values ∈ (ofText text).filterMap values?, '\n' ∉ values := by
  have closed : ∀ read ∈ (none : Option Text), '\n' ∉ read := nofun
  exact no_line_feed_in_split closed text

theorem length_place {index : Nat} (few : index < 100) : (place index).length ≤ 4 := by
  have hundred : 100 ≤ tenPow 2 := by decide +kernel
  have digits : (ofNat index).length ≤ 2 :=
    length_of_nat_le (by decide) (Nat.lt_of_lt_of_le few hundred)
  rw [place, List.length_append, List.length_cons, List.length_singleton]
  omega

/-- A place and the values for it are at most twice as long as the braces with the values. -/
theorem length_template (segments : List Segment) (index : Nat)
    (few : 2 * index + (segments.flatMap written).length ≤ 200) :
    (template index segments).length + ((segments.filterMap values?).map List.length).sum ≤
      2 * (segments.flatMap written).length := by
  induction segments generalizing index with
  | nil => exact Nat.le_refl _
  | cons segment segments ih =>
      rw [List.flatMap_cons, List.length_append] at few
      rw [List.flatMap_cons, List.length_append]
      cases segment with
      | plain text =>
          have behind := ih index (by omega)
          have same : (plain text).written.length = text.length := rfl
          rw [List.filterMap_cons_none rfl, template, List.length_append]
          omega
      | choice values =>
          have braces : (choice values).written.length = values.length + 2 := by
            rw [written, List.length_append, List.length_cons, List.length_singleton]
          have behind := ih (index + 1) (by omega)
          have here := length_place (by omega : index < 100)
          have listed : values? (choice values) = some values := rfl
          rw [List.filterMap_cons_some listed, template, List.length_append, List.map_cons,
            List.sum_cons]
          omega

end Segment

theorem length_substitute_le (index : Nat) (template : Text) (values : List Text) :
    (substitute index template values).length ≤
      template.length + (values.map List.length).sum := by
  induction values generalizing index template with
  | nil => exact Nat.le_refl _
  | cons value values ih =>
      have rest := ih (index + 1) (replaceFirst (Segment.place index) value template)
      have first := length_replace_first_le (Segment.place index) value template
      rw [substitute, List.map_cons, List.sum_cons]
      omega

namespace Specification

theorem refusal_of_read_alternatives {tooLong : Prop} {texts : List Text}
    (oneLine : ∀ values ∈ texts, '\n' ∉ values) :
    FailsOnly (Failure.IsRefusal tooLong) (readAlternatives texts) := by
  induction texts with
  | nil => exact fails_only_ok _
  | cons values texts ih =>
      obtain ⟨first, others⟩ := List.forall_mem_cons.mp oneLine
      unfold readAlternatives
      exact refusal_of_guard first (fails_only_bind (ih others) fun _ => fails_only_ok _)

theorem length_of_combination (texts : List Text) :
    ∀ values ∈ combinations (texts.map (splitOn '/')),
      (values.map List.length).sum ≤ (texts.map List.length).sum := by
  induction texts with
  | nil =>
      intro values member
      rw [List.mem_singleton.mp member]
  | cons text texts ih =>
      intro values member
      obtain ⟨value, chosen, combined⟩ := List.mem_flatMap.mp member
      obtain ⟨rest, inside, rfl⟩ := List.mem_map.mp combined
      have first := length_of_mem_split_on chosen
      have behind := ih rest inside
      rw [List.map_cons, List.sum_cons, List.map_cons, List.sum_cons]
      omega

/-- With alternatives in their places a short expression is at most twice as long. -/
theorem length_combined {expression : Text} (short : expression.length ≤ 125)
    {sets : List (List Text)}
    (read : readAlternatives ((Segment.ofText expression).filterMap Segment.values?) = .ok sets) :
    ∀ values ∈ combinations sets,
      (substitute 0 (Segment.template 0 (Segment.ofText expression)) values).length ≤ 250 := by
  intro values member
  rw [(read_alternatives_eq_ok.mp read).1] at member
  have whole := Segment.written_of_text expression
  have placed := Segment.length_template (Segment.ofText expression) 0 (by rw [whole]; omega)
  have combined := length_of_combination _ values member
  have substituted := length_substitute_le 0 (Segment.template 0 (Segment.ofText expression)) values
  rw [whole] at placed
  omega

section Parts

variable {text expression : Text} {modifiers final : Modifiers} {clauses : List Text} {length : Nat}

theorem length_hide_comparisons_le (text : Text) : (hideComparisons text).length ≤ text.length :=
  Nat.le_trans (length_replace_pairs_le _ _ _ _) (length_replace_pairs_le _ _ _ _)

theorem length_split_title_le (text : Text) : (splitTitle text).2.length ≤ text.length := by
  unfold splitTitle
  split
  next title rest found =>
    have parts := length_split_first found
    have trimmed := length_trim_le rest
    dsimp only
    omega
  next => exact Nat.le_refl _

theorem refusal_of_read_clauses (expression : Text) (modifiers : Modifiers)
    (fits : ∀ clause ∈ clauses, clause.length ≤ length) :
    FailsOnly (Failure.IsRefusal (maxDigits < length))
      (readClauses expression modifiers clauses) := by
  rw [read_clauses_eq]
  have settings : FailsOnly (Failure.IsRefusal (maxDigits < length))
      (clauses.foldlM Modifiers.withText modifiers) :=
    fails_only_foldlM fun clause member before =>
      Modifiers.refusal_of_with_text before (fits clause member)
  exact fails_only_bind settings fun _ => fails_only_ok _

/-- The limits that go back to the expression make it no longer than it was with all clauses. -/
theorem length_read_clauses {read : Text}
    (accepted : readClauses expression modifiers clauses = .ok (read, final)) :
    read.length ≤ expression.length + (clauses.map fun clause => clause.length + 1).sum := by
  induction clauses generalizing expression modifiers with
  | nil =>
      cases accepted
      exact Nat.le_refl _
  | cons clause clauses ih =>
      simp only [readClauses, bind_eq_ok] at accepted
      obtain ⟨next, -, rest⟩ := accepted
      have behind := ih rest
      rw [List.map_cons, List.sum_cons]
      split at behind
      · rw [List.length_append, List.length_cons] at behind
        omega
      · omega

theorem lengths_of_parts {first second : Text} {more : List Text}
    (parts : splitOn '|' text = first :: second :: more) :
    ∀ clause ∈ second :: more, clause.length ≤ text.length := by
  intro clause member
  apply length_of_mem_split_on
  rw [parts]
  exact List.mem_cons_of_mem _ member

theorem refusal_of_split_modifiers (modifiers : Modifiers) (fits : text.length ≤ length) :
    FailsOnly (Failure.IsRefusal (maxDigits < length)) (splitModifiers modifiers text) := by
  unfold splitModifiers
  split
  next first second more parts =>
    apply refusal_of_read_clauses
    intro clause member
    exact Nat.le_trans (lengths_of_parts parts clause member) fits
  next => exact fails_only_ok _

theorem length_split_modifiers
    (accepted : splitModifiers modifiers text = .ok (expression, final)) :
    expression.length ≤ text.length := by
  unfold splitModifiers at accepted
  split at accepted
  next first second more parts =>
    have whole := length_split_on '|' text
    have trimmed := length_trim_le first
    have read := length_read_clauses accepted
    rw [parts, List.map_cons, List.sum_cons] at whole
    omega
  next =>
    cases accepted
    exact Nat.le_refl _

theorem modest_of_split_modifiers (modest : modifiers.IsModest (4 * text.length))
    (accepted : splitModifiers modifiers text = .ok (expression, final)) :
    final.IsModest (4 * text.length) :=
  kept_of_split_modifiers
    (fun _ member _ _ small added =>
      Modifiers.modest_with_text small (length_of_mem_split_on member) added)
    modest accepted

theorem length_read_chance {digits label : Text}
    (found : readChance? text = some (digits, label)) : digits.length ≤ text.length := by
  have trimmed := length_trim_left_le text
  have whole := length_span_digits (trimLeft text)
  unfold readChance? at found
  split at found
  · cases found
  next parts =>
    cases found
    rw [parts] at whole
    dsimp only at whole
    omega
  · cases found

theorem refusal_of_check_chance {tooLong : Prop} (modifiers : Modifiers) (expression : Text) :
    FailsOnly (Failure.IsRefusal tooLong) (checkChance modifiers expression) := by
  unfold checkChance
  iterate 5 apply refusal_of_guard List.not_mem_nil
  split
  · exact refusal_of_refuse List.not_mem_nil
  · exact fails_only_ok _

theorem refusal_of_build_dice (modifiers : Modifiers) (fits : expression.length ≤ length) :
    FailsOnly (Failure.IsRefusal (maxDigits < length)) (buildDice modifiers expression) := by
  unfold buildDice
  apply refusal_of_guard List.not_mem_nil
  apply fails_only_bind (Dice.refusal_of_parse fits)
  intro dice
  split
  · split
    · apply refusal_of_refuse
      cases modifiers.confirm <;> exact List.not_mem_nil
    · exact fails_only_ok _
  · exact fails_only_ok _

theorem check_combinations_fails_only {allowed : Failure → Prop} {combinations : List (List Text)}
    (every : ∀ values ∈ combinations,
      FailsOnly allowed (buildDice modifiers (substitute 0 modifiers.template values))) :
    FailsOnly allowed (checkCombinations modifiers combinations) := by
  induction combinations with
  | nil => exact fails_only_ok _
  | cons values rest ih =>
      obtain ⟨first, others⟩ := List.forall_mem_cons.mp every
      exact fails_only_bind first fun _ => ih others

end Parts

/-- A number of a specification is too long only where the specification has more than 125
characters. -/
theorem refusal_of_parse (text : Text) :
    FailsOnly (Failure.IsRefusal (125 < text.length)) (parse text) := by
  have limit : 250 ≤ maxDigits := by decide
  have hidden := length_hide_comparisons_le text
  have titled := length_split_title_le (hideComparisons text)
  have long {length : Nat} (within : length ≤ text.length) (tooLong : maxDigits < length) :
      125 < text.length := by omega
  unfold parse
  generalize splitTitle (hideComparisons text) = parts at titled ⊢
  obtain ⟨title, rest⟩ := parts
  dsimp only at titled ⊢
  apply fails_only_bind_of_ok
  · have clauses := refusal_of_split_modifiers { title } (Nat.le_refl rest.length)
    exact refusal_mono clauses (long (by omega))
  rintro ⟨expression, modifiers⟩ cut
  have expressionLength := length_split_modifiers cut
  have slashes := length_replace_pairs_le '/' '/' '÷' expression
  dsimp only
  generalize replacePairs '/' '/' '÷' expression = expression at slashes ⊢
  apply fails_only_bind_of_ok
  · exact refusal_of_read_alternatives (Segment.no_line_feed_in_values expression)
  intro alternatives read
  split
  next digits label found =>
    apply fails_only_bind (refusal_of_check_chance _ _)
    intro _
    have digitsLength := length_read_chance found
    have chance := refusal_of_whole_number (Nat.le_refl digits.length)
    exact fails_only_bind (refusal_mono chance (long (by omega))) fun _ => fails_only_ok _
  next =>
    split
    next =>
      have built := refusal_of_build_dice
        { modifiers with alternatives } (Nat.le_refl expression.length)
      exact fails_only_bind (refusal_mono built (long (by omega))) fun _ => fails_only_ok _
    next present =>
      refine fails_only_bind (check_combinations_fails_only ?_) fun _ => fails_only_ok _
      intro values member
      apply refusal_mono (refusal_of_build_dice _ (Nat.le_refl _))
      intro tooLong
      -- Alternatives at most double the expression, which leaves it far from the limit.
      by_contra short
      have combined := length_combined (by omega : expression.length ≤ 125) read values member
      dsimp only at tooLong
      omega

end Specification

/-- The dice of a short text weigh four binary digits for each character of it. -/
theorem Dice.modest_of_parse {text : Text} {dice : Dice}
    (accepted : Dice.parse text = .ok dice) (short : text.length ≤ 250) : dice.IsModest 1000 := by
  have wellFormed := well_formed_of_dice_parse accepted
  have tellable := Dice.tellable_of_parse accepted
  unfold Dice.parse at accepted
  split at accepted
  · cases accepted
    have twenty : (Component.die { sides := 20 }).Weighs 1000 :=
      ⟨by decide +kernel, by decide +kernel⟩
    exact ⟨wellFormed, tellable, .cons twenty (.nil : RowWeighs 0 []), ⟨Nat.zero_le _, Nat.zero_le _⟩⟩
  · simp only [bind_eq_ok, pure_eq_ok, Prod.exists] at accepted
    obtain ⟨row, limits, parsed, rfl⟩ := accepted
    obtain ⟨-, expression, cut, -, tokens⟩ := parse_expression_eq_ok.mp parsed
    have expressionLength := length_split_limits cut
    have within := Limits.within_of_split cut
    have tokensLength := tokens_length_of_text expression
    have weighs := weighs_of_reads (reads_of_parse_tokens tokens) (by omega)
    exact ⟨wellFormed, tellable, weighs.mono (by omega), Limits.within_mono within (by omega)⟩

/-- Whatever the roller remembers is modest, or it cannot be rolled for what it says. -/
structure Roller.IsModest (roller : Roller) : Prop where
  modifiers : roller.modifiers.IsModest 1000
  dice : ∀ result ∈ roller.sequence, Settles Failure.IsRequest (Dice.IsModest 1000) result
  told : ∀ dice ∈ roller.dice, dice.IsTellable

theorem Dice.settles_parse {text : Text} (short : text.length ≤ 250) :
    Settles Failure.IsRequest (Dice.IsModest 1000) (Dice.parse text) := by
  have limit : 250 ≤ maxDigits := by decide
  cases parsed : Dice.parse text with
  | ok dice => exact modest_of_parse parsed short
  | error failure =>
      have refusal := refusal_of_parse (Nat.le_refl text.length) failure parsed
      exact refusal.request (by omega)

namespace Specification

theorem tellable_percentile_dice : percentileDice.IsTellable :=
  Dice.tellable_of_single (by decide +kernel)

theorem modest_percentile_dice : percentileDice.IsModest 1000 := by
  have hundred : (Component.die { sides := 100 }).Weighs 1000 :=
    ⟨by decide +kernel, by decide +kernel⟩
  refine ⟨(rollable_percentile_dice {}).wellFormed, tellable_percentile_dice, ?_,
    ⟨Nat.zero_le _, Nat.zero_le _⟩⟩
  exact .cons hundred (.nil : RowWeighs 0 [])

theorem modest_of_single {modifiers : Modifiers} {dice : Dice}
    (modest : modifiers.IsModest 1000) (noTemplate : modifiers.template = [])
    (modestDice : dice.IsModest 1000) :
    (Roller.ofSpecification { modifiers, dice := some dice }).IsModest := by
  refine ⟨modest, ?_, ?_⟩
  · intro result member
    rw [sequence_of_single dice noTemplate] at member
    rw [List.mem_singleton.mp member]
    exact modestDice
  · rintro _ ⟨⟩
    exact modestDice.tellable

theorem modest_of_combinations {modifiers : Modifiers} (modest : modifiers.IsModest 1000)
    (template : modifiers.template ≠ [])
    (short : ∀ values ∈ combinations modifiers.alternatives,
      (substitute 0 modifiers.template values).length ≤ 250) :
    (Roller.ofSpecification { modifiers, dice := none }).IsModest := by
  refine ⟨modest, ?_, nofun⟩
  intro result member
  rw [sequence_of_template none template] at member
  obtain ⟨values, combined, rfl⟩ := List.mem_map.mp member
  exact Dice.settles_parse (short values combined)

theorem Cuts.short {text expression : Text} {modifiers : Modifiers}
    (cut : Cuts text expression modifiers) (short : text.length ≤ 125) :
    expression.length ≤ 125 ∧ modifiers.IsModest 1000 := by
  obtain ⟨written, found, rfl⟩ := cut
  have hidden := length_hide_comparisons_le text
  have titled := length_split_title_le (hideComparisons text)
  have whole := length_split_modifiers found
  have small := modest_of_split_modifiers ⟨Nat.zero_le _, Nat.zero_le _, Nat.zero_le _⟩ found
  have slashes := length_replace_pairs_le '/' '/' '÷' written
  exact ⟨by omega, small.mono (by omega)⟩

theorem modest_of_parse {text : Text} {specification : Specification}
    (short : text.length ≤ 125) (accepted : parse text = .ok specification) :
    (Roller.ofSpecification specification).IsModest := by
  cases accepted_of_parse accepted with
  | chance cut =>
      obtain ⟨-, modest⟩ := cut.short short
      exact modest_of_single ⟨modest.confirmBonus, modest.target, modest.difficulty⟩ rfl
        modest_percentile_dice
  | single cut _ built =>
      obtain ⟨expressionShort, modest⟩ := cut.short short
      have parsed := (rollable_of_build_dice built).1
      exact modest_of_single ⟨modest.confirmBonus, modest.target, modest.difficulty⟩ rfl
        (Dice.modest_of_parse parsed (by omega))
  | several cut offered present =>
      obtain ⟨expressionShort, modest⟩ := cut.short short
      exact modest_of_combinations ⟨modest.confirmBonus, modest.target, modest.difficulty⟩
        (template_of_offers offered present) (length_combined expressionShort offered)

end Specification

end TabletopDice
