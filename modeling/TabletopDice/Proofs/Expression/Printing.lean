import TabletopDice.Expression.Token
import TabletopDice.Proofs.Expression.Restoring

/-!
Rows of components as text. The text of a row falls back into one token for each
component: no two neighbours are both written without a glyph, and what is written
without one holds none.
-/

namespace TabletopDice

open Text

theorem replace_pairs_of_chain {first second : Char} {text : Text} (glyph : Char)
    (apart : text.IsChain fun char next => ¬(char = first ∧ next = second)) :
    replacePairs first second glyph text = text := by
  induction text with
  | nil => rfl
  | cons char rest ih =>
      cases rest with
      | nil => rfl
      | cons next rest =>
          obtain ⟨here, behind⟩ := List.isChain_cons_cons.mp apart
          rw [replacePairs, if_neg here, ih behind]

theorem chain_of_not_mem {first second : Char} {text : Text}
    (absent : first ∉ text ∨ second ∉ text) :
    text.IsChain fun char next => ¬(char = first ∧ next = second) := by
  induction text with
  | nil => exact List.isChain_nil
  | cons char rest ih =>
      rw [List.isChain_cons]
      constructor
      · rintro next found ⟨rfl, rfl⟩
        rcases absent with absent | absent
        · exact absent List.mem_cons_self
        · exact absent (List.mem_cons_of_mem _ (List.mem_of_mem_head? found))
      · apply ih
        rcases absent with absent | absent
        · exact .inl fun member => absent (List.mem_cons_of_mem _ member)
        · exact .inr fun member => absent (List.mem_cons_of_mem _ member)

theorem split_on_of_not_mem {separator : Char} {text : Text} (absent : separator ∉ text) :
    splitOn separator text = [text] := by
  induction text with
  | nil => rfl
  | cons char rest ih =>
      have other := List.ne_of_not_mem_cons absent
      rw [splitOn, if_neg (Ne.symm other), ih (List.not_mem_of_not_mem_cons absent)]

theorem split_on_append {separator : Char} {left : Text} (absent : separator ∉ left)
    (right : Text) : splitOn separator (left ++ separator :: right) = left :: splitOn separator right := by
  induction left with
  | nil => rw [List.nil_append, splitOn, if_pos rfl]
  | cons char left ih =>
      have other := List.ne_of_not_mem_cons absent
      rw [List.cons_append, splitOn, if_neg (Ne.symm other),
        ih (List.not_mem_of_not_mem_cons absent)]

namespace Component

def head : Component → Text
  | constant value _ => value.toText
  | die group => group.request
  | _ => []

def name : Component → Text
  | constant _ name | label name => name
  | die group => group.label
  | _ => []

def token : Component → Token
  | operator op => .glyph op.symbol
  | openGroup => .glyph '('
  | closeGroup => .glyph ')'
  | component => .run component.toText

variable {component : Component}

theorem is_run_token (component : Component) : component.token.isRun = component.isRun := by
  cases component <;> rfl

theorem to_text_of_run (run : component.isRun = true) (written : component.IsWritten) :
    component.toText = labelled component.head component.name := by
  cases component with
  | constant value name => rfl
  | die group => exact die_to_text written.proper
  | label name =>
      have named : name ≠ [] := by
        rintro rfl
        cases written.2.1
      exact (labelled_of_ne_nil [] named).symm
  | _ => cases run

theorem head_chars (written : component.IsWritten) : ∀ char ∈ component.head, isHeadChar char = true := by
  cases component with
  | constant value name => exact value_chars written.1
  | die group => exact request_chars written.proper
  | _ =>
      intro char member
      cases member

theorem is_label_name (written : component.IsWritten) : IsLabel component.name := by
  cases component with
  | constant value name => exact written.2
  | die group => exact written.label
  | label name => exact written.1
  | _ => exact ⟨rfl, .inl rfl⟩

end Component

def isRunChar (char : Char) : Bool := isHeadChar char || isLabelChar char

theorem not_run_char : ∀ char ∈ "()+-*×÷≤≥=|".toList, isRunChar char = false :=
  forall_not_of_any (by decide +kernel)

theorem labelled_chars {head label : Text} (front : ∀ char ∈ head, isHeadChar char = true)
    (isLabel : IsLabel label) : ∀ char ∈ labelled head label, isRunChar char = true := by
  have first : ∀ char ∈ head, isRunChar char = true := by
    intro char member
    rw [isRunChar, front char member, Bool.true_or]
  have second : ∀ char ∈ label, isRunChar char = true := by
    intro char member
    rw [isRunChar, isLabel.chars char member, Bool.or_true]
  by_cases named : label = []
  · subst named
    rw [labelled_nil]
    exact first
  · rw [labelled_of_ne_nil head named]
    exact List.forall_mem_append.mpr ⟨first, List.forall_mem_cons.mpr ⟨by decide, second⟩⟩

theorem run_chars {component : Component} (run : component.isRun = true)
    (written : component.IsWritten) : ∀ char ∈ component.toText, isRunChar char = true := by
  rw [component.to_text_of_run run written]
  exact labelled_chars (component.head_chars written) (component.is_label_name written)

theorem mem_glyphs {char : Char} (glyph : isGlyph char = true) :
    char ∈ "()+-*×÷≤≥=|".toList := by
  simp only [isGlyph, Bool.or_eq_true, beq_iff_eq] at glyph
  rcases glyph with (rfl | rfl) | known
  · decide
  · decide
  · unfold Operator.ofGlyph? at known
    split at known
    all_goals first
      | decide
      | cases known

theorem not_glyph_of_run_char {char : Char} (inside : isRunChar char = true) :
    isGlyph char = false := by
  cases glyph : isGlyph char with
  | false => rfl
  | true =>
      rw [not_run_char char (mem_glyphs glyph)] at inside
      cases inside

theorem value_ne_nil {value : Double} (nonnegative : value.IsNonnegative) : value.toText ≠ [] := by
  cases value with
  | finite negative units =>
      cases nonnegative
      rw [Double.to_text_of_finite]
      exact List.append_ne_nil_of_left_ne_nil (Double.whole_ne_nil units) _
  | infinite negative =>
      cases nonnegative
      decide
  | notANumber negative => cases nonnegative

theorem request_ne_nil {group : DieGroup} (proper : group.IsProper) : group.request ≠ [] := by
  have count := (is_digits_of_int proper.numerator).nonempty
  apply List.append_ne_nil_of_right_ne_nil
  apply List.append_ne_nil_of_left_ne_nil
  simp [DieGroup.shape, count]

theorem run_ne_nil {component : Component} (run : component.isRun = true)
    (written : component.IsWritten) : component.toText ≠ [] := by
  cases component with
  | constant value name => exact List.append_ne_nil_of_left_ne_nil (value_ne_nil written.1) _
  | die group =>
      rw [die_to_text written.proper]
      exact List.append_ne_nil_of_left_ne_nil (request_ne_nil written.proper) _
  | label name => exact List.cons_ne_nil _ _
  | _ => cases run

namespace Token

theorem of_text_glyph {glyph : Char} (isGlyph : isGlyph glyph = true) (rest : Text) :
    ofText (glyph :: rest) = .glyph glyph :: ofText rest := by
  rw [ofText, if_pos isGlyph]

theorem of_text_run {part rest : Text} (nonempty : part ≠ [])
    (plain : ∀ char ∈ part, isGlyph char = false)
    (border : ∀ token ∈ (ofText rest).head?, token.isRun = false) :
    ofText (part ++ rest) = .run part :: ofText rest := by
  induction part with
  | nil => exact absurd rfl nonempty
  | cons char part ih =>
      obtain ⟨first, others⟩ := List.forall_mem_cons.mp plain
      rw [List.cons_append, ofText, if_neg (by simp [first])]
      by_cases more : part = []
      · subst more
        rw [List.nil_append]
        split
        next found =>
          rw [found] at border
          cases border _ rfl
        next => rfl
      · rw [ih more others]

end Token

theorem exists_glyph {component : Component} (noRun : component.isRun = false) :
    ∃ glyph, component.toText = [glyph] ∧ component.token = .glyph glyph ∧ isGlyph glyph = true := by
  cases component with
  | operator op => cases op <;> exact ⟨_, rfl, rfl, rfl⟩
  | openGroup => exact ⟨'(', rfl, rfl, rfl⟩
  | closeGroup => exact ⟨')', rfl, rfl, rfl⟩
  | _ => cases noRun

theorem token_of_run {component : Component} (run : component.isRun = true) :
    component.token = .run component.toText := by
  cases component with
  | constant value name => rfl
  | die group => rfl
  | label name => rfl
  | _ => cases run

def rowText (row : List Component) : Text := row.flatMap Component.toText

theorem row_text_cons (component : Component) (row : List Component) :
    rowText (component :: row) = component.toText ++ rowText row := rfl

theorem tokens_of_row {row : List Component} (separated : Separated row)
    (written : ∀ component ∈ row, component.IsWritten) :
    Token.ofText (rowText row) = row.map Component.token := by
  induction row with
  | nil => rfl
  | cons component row ih =>
      obtain ⟨first, others⟩ := List.forall_mem_cons.mp written
      have behind := ih (List.IsChain.tail separated) others
      rw [row_text_cons, List.map_cons]
      cases run : component.isRun with
      | false =>
          obtain ⟨glyph, text, token, isGlyph⟩ := exists_glyph run
          rw [text, token, List.singleton_append, Token.of_text_glyph isGlyph, behind]
      | true =>
          have plain : ∀ char ∈ component.toText, isGlyph char = false :=
            fun char member => not_glyph_of_run_char (run_chars run first char member)
          rw [Token.of_text_run (run_ne_nil run first) plain, behind, token_of_run run]
          rw [behind]
          intro token found
          cases row with
          | nil => cases found
          | cons next row =>
              cases found
              rw [Component.is_run_token]
              have apart := (List.isChain_cons_cons.mp separated).1
              rw [run] at apart
              simpa using apart

def Slashed (text : Text) : Prop := text.IsChain fun char next => ¬(char = '/' ∧ next = '/')

theorem slashed_append {left right : Text} (first : Slashed left) (second : Slashed right)
    (stops : Stops (· == '/') right) : Slashed (left ++ right) := by
  refine List.isChain_append.mpr ⟨first, second, ?_⟩
  rintro last - next found ⟨-, rfl⟩
  cases stops _ found

theorem slashed_of_not_mem {text : Text} (absent : '/' ∉ text) : Slashed text :=
  chain_of_not_mem (.inl absent)

theorem stops_of_not_mem {char : Char} {text : Text} (absent : char ∉ text) :
    Stops (· == char) text := by
  intro first found
  apply beq_false_of_ne
  rintro rfl
  exact absent (List.mem_of_mem_head? found)

theorem slashed_between {left right : Text} (before : '/' ∉ left) (behind : '/' ∉ right) :
    Slashed (left ++ '/' :: right) := by
  have first := slashed_of_not_mem before
  have second : Slashed ('/' :: right) := by
    refine List.isChain_cons.mpr ⟨?_, slashed_of_not_mem behind⟩
    rintro next found ⟨-, rfl⟩
    exact behind (List.mem_of_mem_head? found)
  refine List.isChain_append.mpr ⟨first, second, ?_⟩
  rintro last found next - ⟨rfl, -⟩
  exact before (List.mem_of_mem_getLast? found)

theorem IsDigits.no_slash {digits : Text} (run : IsDigits digits) : '/' ∉ digits := by
  intro member
  cases run.digits '/' member

theorem slashed_request {group : DieGroup} (proper : group.IsProper) :
    Slashed group.request ∧ Stops (· == '/') group.request := by
  have count := is_digits_of_int proper.numerator
  have sides := (is_digits_of_int (Int.le_trans (by decide) proper.sides)).no_slash
  have attempts := (is_digits_of_int (Int.le_trans proper.rerolls (Int.le_add_one
    (Int.le_refl _)))).no_slash
  have below := (is_digits_of_int proper.denominator).no_slash
  let front : Text := (if group.initialMax then ['>'] else []) ++ ofInt group.numerator
  let back : Text := 'd' :: (ofInt group.sides ++ if group.rerolls ≤ 0 then []
    else ' ' :: (choiceWords group.best ++ ofInt (group.rerolls + 1)))
  have noFront : '/' ∉ front := by
    simp only [front]
    cases group.initialMax <;> simp [count.no_slash]
  have noBack : '/' ∉ back := by
    have words : '/' ∉ choiceWords group.best := by cases group.best <;> decide
    simp only [back]
    split
    · simp [sides]
    · simp [sides, words, attempts]
  have nonempty : front ≠ [] := List.append_ne_nil_of_right_ne_nil _ count.nonempty
  by_cases bar : 0 < group.denominator
  · have request : group.request = front ++ '/' :: (ofInt group.denominator ++ back) := by
      simp [DieGroup.request, DieGroup.shape, bar, front, back]
    have noRest : '/' ∉ ofInt group.denominator ++ back := by
      rw [List.mem_append]
      exact not_or.mpr ⟨below, noBack⟩
    rw [request]
    exact ⟨slashed_between noFront noRest, stops_append nonempty (stops_of_not_mem noFront)⟩
  · have request : group.request = front ++ back := by
      simp [DieGroup.request, DieGroup.shape, bar, front, back]
    have none : '/' ∉ front ++ back := by
      rw [List.mem_append]
      exact not_or.mpr ⟨noFront, noBack⟩
    rw [request]
    exact ⟨slashed_of_not_mem none, stops_of_not_mem none⟩

theorem label_no_slash {label : Text} (isLabel : IsLabel label) : '/' ∉ labelled [] label := by
  have absent : '/' ∉ label := by
    intro member
    have inside := isLabel.chars '/' member
    rw [not_label_char '/' (by decide)] at inside
    cases inside
  by_cases named : label = []
  · subst named
    exact List.not_mem_nil
  · rw [labelled_of_ne_nil [] named]
    simp [absent]

theorem value_no_slash {value : Double} (nonnegative : value.IsNonnegative) :
    '/' ∉ value.toText := by
  cases value with
  | finite negative units =>
      cases nonnegative
      have digits := Double.digits_are_ascii units
      have absent : '/' ∉ Double.wholeDigits units ++ Double.fractionDigits units := by
        intro member
        cases digits '/' member
      rw [List.mem_append, not_or] at absent
      rw [Double.to_text_of_finite, Double.pointed]
      split <;> simp [absent]
  | infinite negative =>
      cases nonnegative
      decide
  | notANumber negative => cases nonnegative

theorem slashed_run {component : Component} (run : component.isRun = true)
    (written : component.IsWritten) :
    Slashed component.toText ∧ Stops (· == '/') component.toText := by
  have label := label_no_slash (component.is_label_name written)
  rw [component.to_text_of_run run written, labelled_eq_append]
  cases component with
  | constant value name =>
      have none : '/' ∉ value.toText ++ labelled [] name := by
        rw [List.mem_append]
        exact not_or.mpr ⟨value_no_slash written.1, label⟩
      exact ⟨slashed_of_not_mem none, stops_of_not_mem none⟩
  | die group =>
      obtain ⟨slashed, stops⟩ := slashed_request written.proper
      exact ⟨slashed_append slashed (slashed_of_not_mem label) (stops_of_not_mem label),
        stops_append (request_ne_nil written.proper) stops⟩
  | label name => exact ⟨slashed_of_not_mem label, stops_of_not_mem label⟩
  | _ => cases run

theorem slashed_row {row : List Component} (written : ∀ component ∈ row, component.IsWritten) :
    Slashed (rowText row) ∧ Stops (· == '/') (rowText row) := by
  induction row with
  | nil => exact ⟨List.isChain_nil, stops_nil _⟩
  | cons component row ih =>
      obtain ⟨first, others⟩ := List.forall_mem_cons.mp written
      obtain ⟨slashed, stops⟩ := ih others
      have here : Slashed component.toText ∧ Stops (· == '/') component.toText ∧
          component.toText ≠ [] := by
        cases run : component.isRun with
        | true =>
            obtain ⟨slashedRun, stopsRun⟩ := slashed_run run first
            exact ⟨slashedRun, stopsRun, run_ne_nil run first⟩
        | false =>
            obtain ⟨glyph, text, -, isGlyph⟩ := exists_glyph run
            rw [text]
            refine ⟨List.isChain_singleton _, stops_cons.mpr ?_, List.cons_ne_nil _ _⟩
            apply beq_false_of_ne
            rintro rfl
            cases isGlyph
      rw [row_text_cons]
      exact ⟨slashed_append here.1 slashed stops, stops_append here.2.2 here.2.1⟩

theorem not_mem_row {row : List Component} (written : ∀ component ∈ row, component.IsWritten)
    {char : Char} (other : char = '=' ∨ char = '|') : char ∉ rowText row := by
  intro member
  obtain ⟨component, inside, place⟩ := List.mem_flatMap.mp member
  cases run : component.isRun with
  | true =>
      have plain := run_chars run (written component inside) char place
      rcases other with rfl | rfl
      · rw [not_run_char '=' (by decide)] at plain
        cases plain
      · rw [not_run_char '|' (by decide)] at plain
        cases plain
  | false =>
      obtain ⟨glyph, text, -, isGlyph⟩ := exists_glyph run
      rw [text, List.mem_singleton] at place
      subst place
      rcases other with rfl | rfl
      · cases isGlyph
      · cases isGlyph

theorem normalize_row {row : List Component} (written : ∀ component ∈ row, component.IsWritten) :
    normalize (rowText row) = rowText row := by
  have noEqual := not_mem_row written (.inl rfl)
  rw [normalize, replace_pairs_of_chain _ (slashed_row written).1,
    replace_pairs_of_chain _ (chain_of_not_mem (.inr noEqual)),
    replace_pairs_of_chain _ (chain_of_not_mem (.inr noEqual))]

end TabletopDice
