import TabletopDice.Proofs.Json.Values
import TabletopDice.Proofs.Text.Lines

/-!
Objects of strings and whole numbers, printed with one member a line and read back.
The text is lexed into the tokens of its members, and the parser takes them one
member after the other, unless a number is too long for it.
-/

namespace TabletopDice.Json

open Text

def IsFlat : Json → Prop
  | string _ | integer _ => True
  | _ => False

def token : Json → Token
  | string text => .string (text.flatMap escapeChar)
  | value => .word value.print

def memberTokens (member : Text × Json) : List Token :=
  [.string (member.1.flatMap escapeChar), .colon, member.2.token]

theorem lex_print {value : Json} (flat : value.IsFlat) {next : Char}
    (ends : Token.endsWord next = true) (rest : Text) :
    Token.lex .between (value.print ++ next :: rest) =
      value.token :: Token.lex .between (next :: rest) := by
  cases value with
  | string text => exact lex_print_string text _
  | integer value => exact lex_print_int value ends rest
  | _ => cases flat

theorem lex_member {member : Text × Json} (flat : member.2.IsFlat) {next : Char}
    (ends : Token.endsWord next = true) (rest : Text) :
    Token.lex .between (printIndentedMember member ++ next :: rest) =
      memberTokens member ++ Token.lex .between (next :: rest) := by
  have indented (text : Text) : Token.lex .between ("\n    ".toList ++ text) =
      Token.lex .between text := rfl
  have colon (text : Text) : Token.lex .between (':' :: ' ' :: text) =
      .colon :: Token.lex .between text := rfl
  change Token.lex .between ("\n    ".toList ++ printString member.1 ++
    ':' :: ' ' :: member.2.print ++ next :: rest) = _
  rw [List.append_assoc, List.append_assoc, indented, lex_print_string, List.cons_append,
    List.cons_append, colon, lex_print flat ends]
  rfl

theorem lex_members {members : List (Text × Json)} (flat : ∀ member ∈ members, member.2.IsFlat)
    (rest : Text) :
    Token.lex .between (join [','] (members.map printIndentedMember) ++ '\n' :: rest) =
      [.comma].intercalate (members.map memberTokens) ++ Token.lex .between rest := by
  induction members with
  | nil => rfl
  | cons member members ih =>
      obtain ⟨first, others⟩ := List.forall_mem_cons.mp flat
      cases members with
      | nil =>
          rw [List.map_singleton, List.map_singleton, join, lex_member first rfl,
            List.intercalate_singleton]
          rfl
      | cons second members =>
          have comma (text : Text) : Token.lex .between (',' :: text) =
              .comma :: Token.lex .between text := rfl
          have behind := ih others
          rw [List.map_cons, List.map_cons] at behind
          rw [List.map_cons, List.map_cons, List.map_cons, List.map_cons, join_cons_cons, List.append_assoc,
            List.append_assoc, List.singleton_append, lex_member first rfl, comma, behind,
            List.intercalate_cons_cons]
          simp

theorem lex_print_indented {members : List (Text × Json)}
    (flat : ∀ member ∈ members, member.2.IsFlat) :
    Token.ofText (printIndented members) =
      .openBrace :: [.comma].intercalate (members.map memberTokens) ++ [.closeBrace] := by
  unfold printIndented
  split
  next none =>
    rw [List.isEmpty_iff.mp none]
    rfl
  next =>
    have brace (text : Text) : Token.ofText ('\x7b' :: text) =
        .openBrace :: Token.lex .between text := rfl
    rw [List.cons_append, brace, lex_members flat]
    rfl

section Parsing

variable {bounds : Bounds}

def IsWithin (bounds : Bounds) (value : Json) : Prop := ¬value.token.IsRefused bounds

theorem start_value_flat {value : Json} (flat : value.IsFlat) (within : value.IsWithin bounds)
    (frames : List Frame) :
    Parse.startValue bounds frames value.token = .ok (Parse.complete value frames) := by
  cases value with
  | string text =>
      rw [token, Parse.startValue, of_written_escaped]
      rfl
  | integer value =>
      have short : ¬bounds.excludes (ofInt value) = true := within
      change Parse.startValue bounds frames (.word (ofInt value)) = _
      rw [Parse.startValue, if_neg short, of_word_of_int]
      rfl
  | _ => cases flat

theorem foldl_member {member : Text × Json} (flat : member.2.IsFlat)
    (within : member.2.IsWithin bounds) (depth : 1 ≤ bounds.depth) {awaiting : Awaiting}
    (ready : awaiting = .name ∨ awaiting = .nameOrEnd) (before : List (Text × Json))
    (tokens : List Token) :
    (memberTokens member ++ tokens).foldlM (Parse.step bounds)
        { frames := [.object before], awaiting } =
      tokens.foldlM (Parse.step bounds) { frames := [.object (member :: before)], awaiting := .more } := by
  have shallow (frame : Frame) : Parse.requireDepth bounds [frame] = .ok () :=
    if_neg (Nat.not_lt.mpr depth)
  have name : Parse.step bounds { frames := [.object before], awaiting }
      (.string (member.1.flatMap escapeChar)) =
        .ok { frames := [.object before], awaiting := .colon (some member.1) } := by
    have started : (do
        Parse.requireDepth bounds [.object before]
        Parse.startName [.object before] (.string (member.1.flatMap escapeChar))) =
          .ok { frames := [.object before], awaiting := .colon (some member.1) } := by
      rw [shallow, Parse.startName, of_written_escaped]
      rfl
    rcases ready with rfl | rfl
    · exact started
    · exact started
  have value : Parse.step bounds
      { frames := [.member before (some member.1)], awaiting := .value } member.2.token =
        .ok { frames := [.object (member :: before)], awaiting := .more } := by
    change (do
      Parse.requireDepth bounds [.member before (some member.1)]
      Parse.startValue bounds [.member before (some member.1)] member.2.token) = _
    rw [shallow, start_value_flat flat within]
    rfl
  rw [memberTokens, List.cons_append, List.cons_append, List.singleton_append, List.foldlM_cons,
    name]
  change Parse.step bounds { frames := [.member before (some member.1)], awaiting := .value }
    member.2.token >>= _ = _
  rw [value]
  rfl

theorem foldl_members {members : List (Text × Json)} (flat : ∀ member ∈ members, member.2.IsFlat)
    (within : ∀ member ∈ members, member.2.IsWithin bounds) (depth : 1 ≤ bounds.depth)
    (nonempty : members ≠ []) {awaiting : Awaiting}
    (ready : awaiting = .name ∨ awaiting = .nameOrEnd) (before : List (Text × Json)) :
    ([Token.comma].intercalate (members.map memberTokens) ++ [Token.closeBrace]).foldlM (Parse.step bounds)
        { frames := [.object before], awaiting } =
      .ok { frames := [], awaiting := .nothing (.object (before.reverse ++ members)) } := by
  induction members generalizing before awaiting with
  | nil => exact absurd rfl nonempty
  | cons member members ih =>
      obtain ⟨first, others⟩ := List.forall_mem_cons.mp flat
      obtain ⟨firstWithin, othersWithin⟩ := List.forall_mem_cons.mp within
      cases members with
      | nil =>
          rw [List.map_singleton, List.intercalate_singleton,
            foldl_member first firstWithin depth ready]
          change Except.ok (Parse.complete (.object (member :: before).reverse) []) = _
          rw [List.reverse_cons]
          rfl
      | cons second members =>
          have behind := ih others othersWithin (List.cons_ne_nil _ _) (.inl rfl) (member :: before)
          rw [List.reverse_cons, List.append_assoc, List.singleton_append, List.map_cons] at behind
          rw [List.map_cons, List.map_cons, List.intercalate_cons_cons, List.append_assoc,
            List.append_assoc, foldl_member first firstWithin depth ready, ← behind]
          rfl

theorem parse_print_indented {members : List (Text × Json)}
    (flat : ∀ member ∈ members, member.2.IsFlat)
    (within : ∀ member ∈ members, member.2.IsWithin bounds) (depth : 1 ≤ bounds.depth) :
    parse bounds (printIndented members) = .ok (.object members) := by
  have opened (tokens : List Token) : (Token.openBrace :: tokens).foldlM (Parse.step bounds) {} =
      tokens.foldlM (Parse.step bounds) { frames := [.object []], awaiting := .nameOrEnd } := rfl
  have folded : (Token.ofText (printIndented members)).foldlM (Parse.step bounds) {} =
      .ok { frames := [], awaiting := .nothing (.object members) } := by
    rw [lex_print_indented flat, List.cons_append, opened]
    by_cases none : members = []
    · subst none
      rfl
    · exact foldl_members flat within depth none (.inr rfl) []
  rw [parse, folded]
  rfl

end Parsing

end TabletopDice.Json
