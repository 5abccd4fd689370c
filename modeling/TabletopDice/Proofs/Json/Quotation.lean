import TabletopDice.Json.Parser
import TabletopDice.Proofs.Computation

/-!
Which part of a JSON text stands in strings. A string that is not closed, or that a
line feed stands in, makes a token that the parser takes nowhere, so a text that ends
inside a string or breaks a line there is malformed.
-/

namespace TabletopDice.Json

open Text

/-- Whether a string is open, and a backslash was the last character in it. -/
inductive Quotation
  | outside
  | inside
  | escaped
  deriving DecidableEq, Repr

namespace Quotation

def next : Quotation → Char → Quotation
  | outside, char => if char = '"' then inside else outside
  | inside, char => if char = '"' then outside else if char = '\\' then escaped else inside
  | escaped, _ => inside

def after (quotation : Quotation) (text : Text) : Quotation := text.foldl next quotation

theorem after_append (quotation : Quotation) (left right : Text) :
    quotation.after (left ++ right) = (quotation.after left).after right :=
  List.foldl_append

theorem next_eq_next (quotation : Quotation) {char other : Char} (noQuote : char ≠ '"' ∧ other ≠ '"')
    (noBackslash : char ≠ '\\' ∧ other ≠ '\\') : quotation.next char = quotation.next other := by
  cases quotation with
  | outside => simp [next, noQuote]
  | inside => simp [next, noQuote, noBackslash]
  | escaped => rfl

theorem after_map (quotation : Quotation) {change : Char → Char}
    (same : ∀ (quotation : Quotation) (char : Char),
      quotation.next (change char) = quotation.next char) (text : Text) :
    quotation.after (text.map change) = quotation.after text := by
  induction text generalizing quotation with
  | nil => rfl
  | cons char rest ih =>
      change (quotation.next (change char)).after (rest.map change) = (quotation.next char).after rest
      rw [same, ih]

theorem outside_of_next {quotation : Quotation} {char : Char} (noQuote : char ≠ '"')
    (isOpen : quotation.next char ≠ outside) : quotation ≠ outside := by
  rintro rfl
  exact isOpen (if_neg noQuote)

/-- From here on, every character beyond ASCII stands in a string. -/
def Guards (quotation : Quotation) (text : Text) : Prop :=
  ∀ left char right, text = left ++ char :: right → 0x80 ≤ char.toNat → quotation.after left ≠ outside

theorem guards_of_ascii (quotation : Quotation) {text : Text}
    (ascii : ∀ char ∈ text, char.toNat < 0x80) : quotation.Guards text := by
  intro left char right same beyond
  have below := ascii char (by simp [same])
  omega

theorem guards_append {quotation : Quotation} {left right : Text} (first : quotation.Guards left)
    (second : (quotation.after left).Guards right) : quotation.Guards (left ++ right) := by
  intro before char behind same beyond
  rcases List.append_eq_append_iff.mp same with ⟨more, rfl, rest⟩ | ⟨more, rfl, rest⟩
  · rw [after_append]
    exact second more char behind rest beyond
  · cases more with
    | nil =>
        rw [List.append_nil] at second
        exact second [] char behind rest.symm beyond
    | cons other more =>
        obtain ⟨rfl, -⟩ := List.cons.inj rest
        exact first before char more rfl beyond

theorem guards_of_append {quotation : Quotation} {left right : Text}
    (guards : quotation.Guards (left ++ right)) : quotation.Guards left := by
  rintro before char behind rfl beyond
  exact guards before char (behind ++ right) (by simp) beyond

end Quotation

def Lexing.quotation : Lexing → Quotation
  | between | word _ => .outside
  | string _ => .inside
  | escape _ => .escaped

namespace Token

/-- A string that is not closed or that a line feed stands in, or a number that is too long. -/
def IsRefused (bounds : Bounds) : Token → Prop
  | openString => True
  | string written => '\n' ∈ written
  | word text => bounds.excludes text = true
  | _ => False

variable {bounds : Bounds}

def endsWord (char : Char) : Bool := isSpace char || char == '"' || (structure? char).isSome

theorem lex_between_word {char : Char} (inWord : endsWord char = false) (rest : Text) :
    lex .between (char :: rest) = lex (.word [char]) rest := by
  simp only [endsWord, Bool.or_eq_false_iff, beq_eq_false_iff_ne, Option.isSome_eq_false_iff,
    Option.isNone_iff_eq_none] at inWord
  obtain ⟨⟨noSpace, noQuote⟩, noStructure⟩ := inWord
  rw [lex, if_neg (by simp [noSpace]), if_neg noQuote, noStructure]

theorem lex_word_word {char : Char} (inWord : endsWord char = false) (read rest : Text) :
    lex (.word read) (char :: rest) = lex (.word (char :: read)) rest := by
  simp only [endsWord, Bool.or_eq_false_iff, beq_eq_false_iff_ne, Option.isSome_eq_false_iff,
    Option.isNone_iff_eq_none] at inWord
  obtain ⟨⟨noSpace, noQuote⟩, noStructure⟩ := inWord
  rw [lex, if_neg (by simp [noSpace]), if_neg noQuote, noStructure]

theorem lex_word_end {char : Char} (ends : endsWord char = true) (read rest : Text) :
    lex (.word read) (char :: rest) = word read.reverse :: lex .between (char :: rest) := by
  rw [lex, lex]
  split
  next => rfl
  next noSpace =>
    split
    next => rfl
    next noQuote =>
      split
      next => rfl
      next noStructure => simp [endsWord, noSpace, noQuote, noStructure] at ends

/-- Between tokens, one character is passed over, opens a string, is a token or begins a word. -/
theorem lex_between_cons (char : Char) :
    ∃ tokens later, Lexing.quotation later = Quotation.outside.next char ∧
      ∀ rest, lex .between (char :: rest) = tokens ++ lex later rest := by
  by_cases quote : char = '"'
  · subst quote
    exact ⟨[], .string [], rfl, fun rest => rfl⟩
  have outside : Quotation.outside.next char = .outside := if_neg quote
  cases space : isSpace char with
  | true => exact ⟨[], .between, outside.symm, fun rest => by rw [lex, if_pos space]; rfl⟩
  | false =>
      have noSpace : ¬isSpace char = true := by simp [space]
      cases found : structure? char with
      | some token =>
          refine ⟨[token], .between, outside.symm, fun rest => ?_⟩
          rw [lex, if_neg noSpace, if_neg quote, found]
          rfl
      | none =>
          refine ⟨[], .word [char], outside.symm, fun rest => ?_⟩
          rw [lex, if_neg noSpace, if_neg quote, found]
          rfl

/-- One character yields the tokens that end at it, and the lexer goes on behind it. -/
theorem lex_cons (lexing : Lexing) (char : Char) :
    ∃ tokens later, Lexing.quotation later = lexing.quotation.next char ∧
      ∀ rest, lex lexing (char :: rest) = tokens ++ lex later rest := by
  cases lexing with
  | between => exact lex_between_cons char
  | word read =>
      cases ends : endsWord char with
      | true =>
          obtain ⟨tokens, later, same, lexed⟩ := lex_between_cons char
          refine ⟨word read.reverse :: tokens, later, same, fun rest => ?_⟩
          rw [lex_word_end ends, lexed, List.cons_append]
      | false =>
          have noQuote : char ≠ '"' := by
            rintro rfl
            cases ends
          exact ⟨[], .word (char :: read), (if_neg noQuote).symm, lex_word_word ends read⟩
  | escape read => exact ⟨[], .string (char :: read), rfl, fun rest => rfl⟩
  | string read =>
      by_cases quote : char = '"'
      · subst quote
        exact ⟨[string read.reverse], .between, rfl, fun rest => rfl⟩
      by_cases backslash : char = '\\'
      · subst backslash
        exact ⟨[], .escape ('\\' :: read), rfl, fun rest => rfl⟩
      refine ⟨[], .string (char :: read), ?_, fun rest => ?_⟩
      · simp [Lexing.quotation, Quotation.next, quote, backslash]
      · rw [lex, if_neg quote, if_neg backslash, List.nil_append]

theorem lex_append (lexing : Lexing) (left : Text) :
    ∃ tokens later, Lexing.quotation later = lexing.quotation.after left ∧
      ∀ rest, lex lexing (left ++ rest) = tokens ++ lex later rest := by
  induction left generalizing lexing with
  | nil => exact ⟨[], lexing, rfl, fun rest => rfl⟩
  | cons char left ih =>
      obtain ⟨tokens, next, moved, lexed⟩ := lex_cons lexing char
      obtain ⟨more, later, last, behind⟩ := ih next
      refine ⟨tokens ++ more, later, ?_, fun rest => ?_⟩
      · rw [last, moved]
        rfl
      · rw [List.cons_append, lexed, behind, List.append_assoc]

theorem refused_of_open {text : Text} (isOpen : Quotation.outside.after text ≠ .outside) :
    ∃ token ∈ ofText text, IsRefused bounds token := by
  obtain ⟨tokens, later, last, lexed⟩ := lex_append .between text
  have whole := lexed []
  rw [List.append_nil] at whole
  refine ⟨.openString, ?_, trivial⟩
  rw [ofText, whole]
  apply List.mem_append_right
  cases later with
  | string read => exact List.mem_singleton_self _
  | escape read => exact List.mem_singleton_self _
  | between => exact absurd last.symm isOpen
  | word read => exact absurd last.symm isOpen

theorem refused_of_read {lexing : Lexing} {read : Text} (member : '\n' ∈ read)
    (inString : lexing = .string read ∨ lexing = .escape read) (text : Text) :
    ∃ token ∈ lex lexing text, IsRefused bounds token := by
  induction text generalizing lexing read with
  | nil =>
      rcases inString with rfl | rfl
      · exact ⟨.openString, List.mem_singleton_self _, trivial⟩
      · exact ⟨.openString, List.mem_singleton_self _, trivial⟩
  | cons char rest ih =>
      have longer : '\n' ∈ char :: read := List.mem_cons_of_mem _ member
      rcases inString with rfl | rfl
      · rw [lex]
        split
        next => exact ⟨.string read.reverse, List.mem_cons_self, List.mem_reverse.mpr member⟩
        next =>
          split
          next => exact ih longer (.inr rfl)
          next => exact ih longer (.inl rfl)
      · exact ih longer (.inl rfl)

theorem refused_of_line_feed {left : Text} (isOpen : Quotation.outside.after left ≠ .outside)
    (right : Text) : ∃ token ∈ ofText (left ++ '\n' :: right), IsRefused bounds token := by
  obtain ⟨tokens, later, last, lexed⟩ := lex_append .between left
  have inString : ∃ token ∈ lex later ('\n' :: right), IsRefused bounds token := by
    cases later with
    | string read => exact refused_of_read List.mem_cons_self (.inl rfl) right
    | escape read => exact refused_of_read List.mem_cons_self (.inl rfl) right
    | between => exact absurd last.symm isOpen
    | word read => exact absurd last.symm isOpen
  obtain ⟨token, member, refused⟩ := inString
  refine ⟨token, ?_, refused⟩
  rw [ofText, lexed]
  exact List.mem_append_right _ member

end Token

theorem unescape_of_line_feed {written : Text} (member : '\n' ∈ written) :
    unescape written = none := by
  fun_induction unescape written with
  | case1 => cases member
  | case2 first second third fourth rest ih =>
      simp only [List.mem_cons] at member
      rcases member with same | same | rfl | rfl | rfl | rfl | member
      · cases same
      · cases same
      · rfl
      · cases hexValue? first <;> rfl
      · cases hexValue? first <;> cases hexValue? second <;> rfl
      · cases hexValue? first <;> cases hexValue? second <;> cases hexValue? third <;> rfl
      · rw [ih member]
        simp
  | case3 letter rest _ ih =>
      simp only [List.mem_cons] at member
      rcases member with same | rfl | member
      · cases same
      · rfl
      · rw [ih member]
        simp
  | case4 => rfl
  | case5 char rest _ _ allowed ih =>
      rcases List.mem_cons.mp member with rfl | member
      · exact absurd (.inr (by decide)) allowed
      · rw [ih member]
        rfl

theorem of_written_of_line_feed {written : Text} (member : '\n' ∈ written) :
    ofWritten? written = none := by
  rw [ofWritten?, unescape_of_line_feed member]
  rfl

/-- A string or a word that is neither a value nor a name cannot be taken anywhere. -/
theorem step_of_no_start {bounds : Bounds} (parse : Parse) {token : Token}
    (noMark : (∃ written, token = .string written) ∨ token = .openString ∨ ∃ word, token = .word word)
    (noValue : ∃ fault, Parse.startValue bounds parse.frames token = .error fault)
    (noName : ∃ fault, Parse.startName parse.frames token = .error fault) :
    ∃ fault, parse.step bounds token = .error fault := by
  have behind {result : Except Fault Unit} {next : Except Fault Parse}
      (failed : ∃ fault, next = .error fault) :
      ∃ fault, (result >>= fun _ => next) = .error fault := by
    cases result with
    | error fault => exact ⟨fault, rfl⟩
    | ok _ => exact failed
  have noEnd : Parse.close parse.frames token = .error .malformed := by
    rcases noMark with ⟨written, rfl⟩ | rfl | ⟨word, rfl⟩
    all_goals
      unfold Parse.close
      split <;> trivial
  obtain ⟨frames, awaiting⟩ := parse
  rcases noMark with ⟨written, rfl⟩ | rfl | ⟨word, rfl⟩
  all_goals
    cases awaiting with
    | value | valueOrEnd => exact behind noValue
    | name | nameOrEnd => exact behind noName
    | more => exact ⟨.malformed, noEnd⟩
    | colon _ | nothing _ => exact ⟨.malformed, rfl⟩

theorem step_refused {bounds : Bounds} (parse : Parse) {token : Token}
    (refused : token.IsRefused bounds) : ∃ fault, parse.step bounds token = .error fault := by
  cases token with
  | openString =>
      exact step_of_no_start parse (.inr (.inl rfl)) ⟨.malformed, rfl⟩ ⟨.malformed, rfl⟩
  | string written =>
      apply step_of_no_start parse (.inl ⟨written, rfl⟩)
      · exact ⟨.malformed, by rw [Parse.startValue, of_written_of_line_feed refused]; rfl⟩
      · exact ⟨.malformed, by rw [Parse.startName, of_written_of_line_feed refused]; rfl⟩
  | word text =>
      exact step_of_no_start parse (.inr (.inr ⟨text, rfl⟩)) ⟨.beyondBounds, if_pos refused⟩
        ⟨.malformed, rfl⟩
  | _ => cases refused

theorem parse_of_failing {bounds : Bounds} {text : Text}
    (found : ∃ token ∈ Token.ofText text,
      ∀ parse : Parse, ∃ fault, parse.step bounds token = .error fault) :
    ∃ fault, parse bounds text = .error fault := by
  obtain ⟨token, member, fails⟩ := found
  have failed (tokens : List Token) (started : Parse) (member : token ∈ tokens) :
      ∃ fault, tokens.foldlM (Parse.step bounds) started = .error fault := by
    induction tokens generalizing started with
    | nil => cases member
    | cons first tokens ih =>
        rw [List.foldlM_cons]
        rcases List.mem_cons.mp member with rfl | member
        · obtain ⟨fault, failed⟩ := fails started
          exact ⟨fault, by rw [failed]; rfl⟩
        · cases started.step bounds first with
          | error fault => exact ⟨fault, rfl⟩
          | ok next => exact ih next member
  obtain ⟨fault, failed⟩ := failed _ {} member
  exact ⟨fault, by rw [parse, failed]; rfl⟩

theorem parse_of_refused {bounds : Bounds} {text : Text}
    (found : ∃ token ∈ Token.ofText text, token.IsRefused bounds) :
    ∃ fault, parse bounds text = .error fault := by
  obtain ⟨token, member, refused⟩ := found
  exact parse_of_failing ⟨token, member, fun parse => step_refused parse refused⟩

end TabletopDice.Json
