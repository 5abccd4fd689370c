import TabletopDice.Proofs.Json.Quotation
import TabletopDice.Proofs.Text.Numeral

/-!
White space in a JSON text. Of its layout only the tokens count, and at the end white space
makes none. A line feed stands between tokens, so the character behind it begins a token. Many
characters begin a word that stands for nothing, among them those beyond ASCII and blank ones that
are no white space to JSON.
-/

namespace TabletopDice.Json

open Text

theorem ne_of_beyond {char ascii : Char} (beyond : 0x80 ≤ char.toNat) (below : ascii.toNat < 0x80) :
    char ≠ ascii := by
  rintro rfl
  omega

namespace Token

theorem lex_spaces {spaces : Text} (space : ∀ char ∈ spaces, isSpace char = true)
    (lexing : Lexing) : lex lexing spaces = lex lexing [] := by
  induction spaces generalizing lexing with
  | nil => rfl
  | cons char rest ih =>
      obtain ⟨here, others⟩ := List.forall_mem_cons.mp space
      cases lexing with
      | between =>
          have passed : lex .between (char :: rest) = lex .between rest := by rw [lex, if_pos here]
          rw [passed, ih others]
      | word read =>
          have ended : lex (.word read) (char :: rest) = endWord read (lex .between rest) := by
            rw [lex, if_pos here]
          rw [ended, ih others]
          rfl
      | escape read => exact ih others (.string (char :: read))
      | string read =>
          have noQuote : char ≠ '"' := by
            rintro rfl
            cases here
          have noBackslash : char ≠ '\\' := by
            rintro rfl
            cases here
          have kept : lex (.string read) (char :: rest) = lex (.string (char :: read)) rest := by
            rw [lex, if_neg noQuote, if_neg noBackslash]
          rw [kept, ih others]
          rfl

theorem of_text_append_spaces {spaces : Text} (space : ∀ char ∈ spaces, isSpace char = true)
    (text : Text) : ofText (text ++ spaces) = ofText text := by
  obtain ⟨tokens, later, -, lexed⟩ := lex_append .between text
  have alone := lexed []
  rw [List.append_nil] at alone
  rw [ofText, ofText, lexed, lex_spaces space, alone]

theorem exists_word (read text : Text) :
    ∃ more tokens, lex (.word read) text = .word (read.reverse ++ more) :: tokens := by
  induction text generalizing read with
  | nil => exact ⟨[], [], by rw [lex, endWord, List.append_nil]⟩
  | cons char rest ih =>
      cases ends : endsWord char with
      | true => exact ⟨[], _, by rw [lex_word_end ends, List.append_nil]⟩
      | false =>
          obtain ⟨more, tokens, same⟩ := ih (char :: read)
          refine ⟨char :: more, tokens, ?_⟩
          rw [lex_word_word ends, same, List.reverse_cons, List.append_assoc, List.singleton_append]

/-- The character is no part of the structure, and no literal or number begins with it. -/
structure IsForeign (char : Char) : Prop where
  inWord : endsWord char = false
  noDigit : char.isDigit = false
  noLetter : char ∉ ['n', 't', 'f', 'N', 'I', '-']

theorem foreign_of_beyond {char : Char} (beyond : 0x80 ≤ char.toNat) : IsForeign char where
  inWord := by
    have noMark : structure? char = none := by
      unfold structure?
      split
      iterate 6
        · exact absurd beyond (by decide)
      · rfl
    have noSpace : isSpace char = false := by
      simp [isSpace, ne_of_beyond beyond]
    rw [endsWord, noMark, noSpace, beq_false_of_ne (ne_of_beyond beyond (by decide))]
    rfl
  noDigit := by
    apply Bool.eq_false_iff.mpr
    intro digit
    have code := code_of_ascii_digit digit
    omega
  noLetter := by
    intro member
    have below : ∀ letter ∈ ['n', 't', 'f', 'N', 'I', '-'], letter.toNat < 0x80 := by decide
    exact ne_of_beyond beyond (below char member) rfl

theorem foreign_of_blank {char : Char} (blank : isBlank char = true)
    (noSpace : isSpace char = false) : IsForeign char where
  inWord := by
    have noMark : structure? char = none := by
      unfold structure?
      split
      iterate 6
        · exact absurd blank (by decide)
      · rfl
    have noQuote : char ≠ '"' := by
      rintro rfl
      exact absurd blank (by decide)
    rw [endsWord, noMark, noSpace, beq_false_of_ne noQuote]
    rfl
  noDigit := by
    apply Bool.eq_false_iff.mpr
    intro digit
    rw [is_visible_of_ascii digit] at blank
    cases blank
  noLetter := by
    intro member
    have visible : ∀ letter ∈ ['n', 't', 'f', 'N', 'I', '-'], isBlank letter = false := by decide
    rw [visible char member] at blank
    cases blank

/-- Behind white space outside of strings a foreign character begins a word. -/
theorem exists_word_of_space {left : Text} (outside : Quotation.outside.after left = .outside)
    {space char : Char} (isSpace : isSpace space = true) (foreign : IsForeign char) (right : Text) :
    ∃ more, .word (char :: more) ∈ ofText (left ++ space :: char :: right) := by
  obtain ⟨more, tokens, begun⟩ := exists_word [char] right
  have passed : lex .between (space :: char :: right) = lex .between (char :: right) := by
    rw [lex, if_pos isSpace]
  have behind : .word (char :: more) ∈ lex .between (space :: char :: right) := by
    rw [passed, lex_between_word foreign.inWord, begun]
    exact List.mem_cons_self
  obtain ⟨before, later, last, lexed⟩ := lex_append .between left
  refine ⟨more, ?_⟩
  rw [ofText, lexed]
  apply List.mem_append_right
  cases later with
  | between => exact behind
  | word read =>
      have ends : endsWord space = true := by rw [endsWord, isSpace]; rfl
      rw [lex_word_end ends]
      exact List.mem_cons_of_mem _ behind
  | string read | escape read => cases last.trans outside

end Token

theorem of_word_of_foreign {char : Char} (foreign : Token.IsForeign char) (rest : Text) :
    ofWord? (char :: rest) = none := by
  have noLiteral (first : Char) (among : first ∈ ['n', 't', 'f', 'N', 'I', '-']) (more : Text) :
      String.ofList (char :: rest) ≠ String.ofList (first :: more) := by
    intro same
    obtain ⟨rfl, -⟩ := List.cons.inj (String.ofList_injective same)
    exact foreign.noLetter among
  have noMinus : char ≠ '-' := by
    rintro rfl
    exact foreign.noLetter (by decide)
  have noNumber : numberOfWord? (char :: rest) = none := by
    simp [numberOfWord?, noMinus, foreign.noDigit]
  unfold ofWord?
  split
  next same => exact absurd same (noLiteral 'n' (by decide) "ull".toList)
  next same => exact absurd same (noLiteral 't' (by decide) "rue".toList)
  next same => exact absurd same (noLiteral 'f' (by decide) "alse".toList)
  next same => exact absurd same (noLiteral 'N' (by decide) "aN".toList)
  next same => exact absurd same (noLiteral 'I' (by decide) "nfinity".toList)
  next same => exact absurd same (noLiteral '-' (by decide) "Infinity".toList)
  next => exact noNumber

theorem step_unknown_word {bounds : Bounds} {word : Text} (unknown : ofWord? word = none)
    (parse : Parse) : ∃ fault, parse.step bounds (.word word) = .error fault := by
  refine step_of_no_start parse (.inr (.inr ⟨word, rfl⟩)) ?_ ⟨.malformed, rfl⟩
  rw [Parse.startValue, unknown]
  split
  · exact ⟨.beyondBounds, rfl⟩
  · exact ⟨.malformed, rfl⟩

section Foreign

variable (bounds : Bounds) (left : Text) {char : Char} (foreign : Token.IsForeign char) (right : Text)

include foreign

/-- No foreign character follows white space outside of the strings of a text that is read. -/
theorem parse_of_foreign (outside : Quotation.outside.after left = .outside) {space : Char}
    (isSpace : isSpace space = true) :
    ∃ fault, parse bounds (left ++ space :: char :: right) = .error fault := by
  obtain ⟨more, member⟩ := Token.exists_word_of_space outside isSpace foreign right
  exact parse_of_failing ⟨_, member, step_unknown_word (of_word_of_foreign foreign more)⟩

/-- No line of a text that is read begins with a foreign character, be it in a string or outside. -/
theorem parse_of_line_foreign :
    ∃ fault, parse bounds (left ++ '\n' :: char :: right) = .error fault := by
  by_cases outside : Quotation.outside.after left = .outside
  · exact parse_of_foreign bounds left foreign right outside rfl
  · exact parse_of_refused (Token.refused_of_line_feed outside (char :: right))

end Foreign

theorem closed_of_parse {bounds : Bounds} {text : Text} {value : Json}
    (read : parse bounds text = .ok value) : Quotation.outside.after text = .outside := by
  by_contra isOpen
  obtain ⟨fault, failed⟩ : ∃ fault, parse bounds text = .error fault :=
    parse_of_refused (Token.refused_of_open isOpen)
  rw [read] at failed
  cases failed

theorem parse_eq_of_tokens (bounds : Bounds) {text other : Text}
    (same : Token.ofText text = Token.ofText other) : parse bounds text = parse bounds other := by
  rw [parse, parse, same]

end TabletopDice.Json
