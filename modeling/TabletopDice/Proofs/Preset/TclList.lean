import Mathlib.Data.List.Infix
import TabletopDice.Proofs.Computation
import TabletopDice.Preset.TclList
import TabletopDice.Proofs.Text.Lines

/-!
What the elements of a list are read from. A word spells an element if reading it where an
element can start leads to the end of just this element, whatever has been read before. There are
three kinds of words: a run of ordinary characters, and a text in quotes or in braces, where only
braces and the closing quote mean anything. A character behind a backslash means nothing at all,
so each kind is described by what is left of a word without its escapes. A text of words with
separators between them is read as the list of what its words spell.
-/

namespace TabletopDice.TclList

open Text

structure IsBalanced (text : Text) : Prop where
  nested : ∀ front, front <+: text → front.count '\x7d' ≤ front.count '\x7b'
  closed : text.count '\x7d' = text.count '\x7b'

instance (text : Text) : Decidable (IsBalanced text) :=
  decidable_of_iff ((∀ front ∈ text.inits, front.count '\x7d' ≤ front.count '\x7b') ∧
      text.count '\x7d' = text.count '\x7b')
    ⟨fun ⟨nested, closed⟩ =>
        ⟨fun front early => nested front ((List.mem_inits front text).mpr early), closed⟩,
      fun ⟨nested, closed⟩ =>
        ⟨fun front early => nested front ((List.mem_inits front text).mp early), closed⟩⟩

structure IsBraceable (text : Text) : Prop extends IsBalanced text where
  plain : '\\' ∉ text

instance (text : Text) : Decidable (IsBraceable text) :=
  decidable_of_iff (IsBalanced text ∧ '\\' ∉ text)
    ⟨fun ⟨balanced, plain⟩ => ⟨balanced, plain⟩, fun ⟨balanced, plain⟩ => ⟨balanced, plain⟩⟩

def braced (text : Text) : Text := '\x7b' :: text ++ ['\x7d']

/-- The character starts, ends and changes no element. -/
structure IsOrdinary (char : Char) : Prop where
  noSeparator : isSeparator char = false
  unmarked : char ≠ '\\' ∧ char ≠ '"' ∧ char ≠ '\x7b' ∧ char ≠ '\x7d'

theorem ne_backslash_of_separator {char : Char} (separates : isSeparator char = true) :
    char ≠ '\\' := by
  rintro rfl
  cases separates

/-- The word is read as one element, up to its end. -/
def Spells (word element : Text) : Prop :=
  ∀ elements, ∃ position, (position = .bare ∨ position = .closed) ∧
    word.foldlM Reading.step { elements } = .ok { elements, current := element.reverse, position }

section Escapes

/-- The text with something in place of each escape, a backslash and the character behind it.
A backslash at the end, with nothing behind it, stays. -/
def replaceEscapes (read : Char → Text) : Text → Text
  | [] => []
  | [char] => [char]
  | char :: next :: rest =>
      if char = '\\' then read next ++ replaceEscapes read rest
      else char :: replaceEscapes read (next :: rest)

def literally (char : Char) : Text := if isSpecial char then [char] else ['\\', char]

def unescaped (text : Text) : Text := replaceEscapes (fun _ => []) text

def standsFor (text : Text) : Text := replaceEscapes literally text

variable {read : Char → Text} {char : Char} {text : Text}

theorem replace_escapes_escape (char : Char) (rest : Text) :
    replaceEscapes read ('\\' :: char :: rest) = read char ++ replaceEscapes read rest := if_pos rfl

theorem replace_escapes_cons (plain : char ≠ '\\') (rest : Text) :
    replaceEscapes read (char :: rest) = char :: replaceEscapes read rest := by
  cases rest with
  | nil => rfl
  | cons next rest => exact if_neg plain

theorem replace_escapes_of_plain (plain : '\\' ∉ text) : replaceEscapes read text = text := by
  induction text with
  | nil => rfl
  | cons char text ih =>
      obtain ⟨first, others⟩ := not_or.mp (List.mem_cons.not.mp plain)
      rw [replace_escapes_cons (Ne.symm first), ih others]

theorem unescaped_escape (char : Char) (rest : Text) :
    unescaped ('\\' :: char :: rest) = unescaped rest := replace_escapes_escape char rest

theorem unescaped_cons (plain : char ≠ '\\') (rest : Text) :
    unescaped (char :: rest) = char :: unescaped rest := replace_escapes_cons plain rest

theorem stands_for_escape (char : Char) (rest : Text) :
    standsFor ('\\' :: char :: rest) = literally char ++ standsFor rest :=
  replace_escapes_escape char rest

theorem stands_for_cons (plain : char ≠ '\\') (rest : Text) :
    standsFor (char :: rest) = char :: standsFor rest := replace_escapes_cons plain rest

/-- The text consists of escapes and of other characters: it does not end in a lone backslash. -/
inductive IsWhole : Text → Prop
  | nil : IsWhole []
  | escape (char : Char) {rest : Text} (more : IsWhole rest) : IsWhole ('\\' :: char :: rest)
  | cons {char : Char} (plain : char ≠ '\\') {rest : Text} (more : IsWhole rest) :
      IsWhole (char :: rest)

theorem is_whole_of_unescaped (none : '\\' ∉ unescaped text) : IsWhole text := by
  induction text using replaceEscapes.induct with
  | case1 => exact .nil
  | case2 char =>
      have plain : char ≠ '\\' := fun same => none (by rw [same]; exact List.mem_cons_self)
      exact .cons plain .nil
  | case3 next rest ih =>
      rw [unescaped_escape] at none
      exact .escape next (ih none)
  | case4 char next rest plain ih =>
      rw [unescaped_cons plain] at none
      exact .cons plain (ih fun member => none (List.mem_cons_of_mem _ member))

theorem foldlM_of_escape {reading : Reading} (ready : reading.escaped = false) (char : Char)
    (rest : Text) : ('\\' :: char :: rest).foldlM Reading.step reading =
      rest.foldlM Reading.step
        { reading with current := (literally char).reverse ++ reading.current } := by
  obtain ⟨elements, current, depth, position, _⟩ := reading
  subst ready
  have read : (if isSpecial char then char :: current else char :: '\\' :: current) =
      (literally char).reverse ++ current := by
    unfold literally
    split
    · rfl
    · rfl
  rw [← read]
  rfl

end Escapes

section Bare

variable {char : Char} {text : Text}

theorem step_of_ordinary {reading : Reading} (ordinary : IsOrdinary char)
    (ready : reading.escaped = false)
    (opened : reading.position = .between ∨ reading.position = .bare) :
    reading.step char = .ok (reading.append char) := by
  obtain ⟨noSeparator, noEscape, noQuote, noOpening, noClosing⟩ := ordinary
  have unclosed : reading.position ≠ .closed := by
    intro closed
    rw [closed] at opened
    rcases opened with same | same
    · cases same
    · cases same
  simp [Reading.step, ready, unclosed, noSeparator, noEscape, noQuote, noOpening, noClosing,
    pure, Except.pure]

/-- Escapes alone do not start an element; the first other character does. -/
theorem foldlM_of_ordinary (ordinary : ∀ char ∈ unescaped text, IsOrdinary char)
    {position : Position} (opened : position = .between ∨ position = .bare)
    (elements : List Text) (current : Text) :
    text.foldlM Reading.step { elements, current, position } = .ok {
      elements, current := (standsFor text).reverse ++ current
      position := if unescaped text = [] then position else .bare } := by
  have whole := is_whole_of_unescaped fun member => (ordinary _ member).unmarked.1 rfl
  induction whole generalizing current position with
  | nil => rfl
  | escape char more ih =>
      rw [unescaped_escape] at ordinary ⊢
      rw [foldlM_of_escape rfl, ih ordinary opened, stands_for_escape, List.reverse_append,
        List.append_assoc]
  | @cons char plain rest more ih =>
      rw [unescaped_cons plain] at ordinary ⊢
      obtain ⟨first, others⟩ := List.forall_mem_cons.mp ordinary
      have started : Reading.append { elements, current, position } char =
          { elements, current := char :: current, position := .bare } := by
        rcases opened with rfl | rfl
        · rfl
        · rfl
      rw [List.foldlM_cons, step_of_ordinary first rfl opened, started, stands_for_cons plain,
        List.reverse_cons, List.append_assoc, if_neg (List.cons_ne_nil _ _)]
      refine (ih others (.inr rfl) (char :: current)).trans ?_
      rw [ite_self]
      rfl

theorem spells_of_ordinary (nonempty : text ≠ []) (ordinary : ∀ char ∈ text, IsOrdinary char) :
    Spells text text := by
  intro elements
  have plain : '\\' ∉ text := fun member => (ordinary _ member).unmarked.1 rfl
  have same : unescaped text = text := replace_escapes_of_plain plain
  have read := @foldlM_of_ordinary text (by rwa [same]) .between (.inl rfl) elements []
  rw [same, if_neg nonempty, standsFor, replace_escapes_of_plain plain, List.append_nil] at read
  exact ⟨.bare, .inl rfl, read⟩

end Bare

inductive Marks
  | braces
  | quotes
  deriving DecidableEq, Repr

namespace Marks

def opening : Marks → Char
  | braces => '\x7b'
  | quotes => '"'

def closing : Marks → Char
  | braces => '\x7d'
  | quotes => '"'

def around (marks : Marks) (text : Text) : Text := marks.opening :: text ++ [marks.closing]

def position : Marks → Position
  | braces => .braced
  | quotes => .quoted

/-- The marks count as open braces themselves. -/
def depth : Marks → Nat
  | braces => 1
  | quotes => 0

def inside (marks : Marks) (elements : List Text) (current : Text) (depth : Nat) : Reading :=
  { elements, current, depth := depth + marks.depth, position := marks.position }

/-- The marks do not end within the text, its escapes apart: a quote ends quotes. -/
def Unbroken (marks : Marks) (text : Text) : Prop := marks = quotes → '"' ∉ unescaped text

end Marks

section Marked

variable {marks : Marks} {current text : Text} {char : Char} {depth : Nat} (elements : List Text)

theorem step_of_opening : Reading.step { elements, current } marks.opening =
    .ok (marks.inside elements current 0) := by
  cases marks with
  | braces => rfl
  | quotes => rfl

theorem step_of_closing (closes : marks = .braces → depth = 0) :
    (marks.inside elements current depth).step marks.closing =
      .ok { elements, current, depth, position := .closed } := by
  cases marks with
  | braces =>
      rw [closes rfl]
      rfl
  | quotes => rfl

theorem step_of_inside (plain : char ≠ '\\') (unbroken : marks = .quotes → char ≠ '"')
    (deep : char = '\x7d' → depth ≠ 0) :
    (marks.inside elements current depth).step char = .ok (marks.inside elements (char :: current)
      (depth + [char].count '\x7b' - [char].count '\x7d')) := by
  by_cases opening : char = '\x7b'
  · subst opening
    cases marks with
    | braces => rfl
    | quotes => rfl
  by_cases closing : char = '\x7d'
  · subst closing
    obtain ⟨more, rfl⟩ := Nat.exists_eq_succ_of_ne_zero (deep rfl)
    cases marks with
    | braces => rfl
    | quotes =>
        have unclosed : ¬(more = 0 ∧ Position.quoted = .braced) := fun both => nomatch both.2
        exact (if_neg unclosed).trans rfl
  have same : depth + [char].count '\x7b' - [char].count '\x7d' = depth := by
    rw [List.count_singleton, List.count_singleton]
    simp [opening, closing]
  rw [same]
  by_cases quote : char = '"'
  · subst quote
    cases marks with
    | braces => rfl
    | quotes => exact absurd rfl (unbroken rfl)
  · cases marks with
    | braces | quotes =>
        simp [Reading.step, Reading.append, Marks.inside, Marks.position, plain, opening, closing,
          quote, pure, Except.pure]

/-- Where no more braces are closed than are open, the text is kept as it stands. -/
theorem foldlM_of_inside (whole : IsWhole text) (unbroken : marks.Unbroken text)
    (nested : ∀ front, front <+: unescaped text →
      front.count '\x7d' ≤ depth + front.count '\x7b') :
    text.foldlM Reading.step (marks.inside elements current depth) =
      .ok (marks.inside elements ((standsFor text).reverse ++ current)
        (depth + (unescaped text).count '\x7b' - (unescaped text).count '\x7d')) := by
  unfold Marks.Unbroken at unbroken
  induction whole generalizing current depth with
  | nil => rfl
  | escape char more ih =>
      rw [unescaped_escape] at unbroken nested ⊢
      rw [foldlM_of_escape rfl, stands_for_escape, List.reverse_append, List.append_assoc]
      exact ih unbroken nested
  | @cons char plain rest more ih =>
      rw [unescaped_cons plain] at unbroken nested ⊢
      have first := nested [char] (List.prefix_append [char] _)
      have deep : char = '\x7d' → depth ≠ 0 := by
        rintro rfl
        change 1 ≤ depth + 0 at first
        omega
      have count (glyph : Char) (front : Text) :
          (char :: front).count glyph = [char].count glyph + front.count glyph := by
        rw [← List.count_append]
        rfl
      have behind (front : Text) (early : front <+: unescaped rest) : front.count '\x7d' ≤
          depth + [char].count '\x7b' - [char].count '\x7d' + front.count '\x7b' := by
        have longer := nested (char :: front) (List.cons_prefix_cons.mpr ⟨rfl, early⟩)
        have closed := count '\x7d' front
        have opened := count '\x7b' front
        omega
      have remaining : depth + [char].count '\x7b' - [char].count '\x7d' +
          (unescaped rest).count '\x7b' - (unescaped rest).count '\x7d' =
            depth + (char :: unescaped rest).count '\x7b' - (char :: unescaped rest).count '\x7d' := by
        have whole := nested _ (List.prefix_refl (char :: unescaped rest))
        have closed := count '\x7d' (unescaped rest)
        have opened := count '\x7b' (unescaped rest)
        omega
      rw [List.foldlM_cons, step_of_inside elements plain
        (fun quotes same => unbroken quotes (same ▸ List.mem_cons_self)) deep, stands_for_cons plain,
        List.reverse_cons, List.append_assoc, ← remaining]
      exact ih (fun quotes member => unbroken quotes (List.mem_cons_of_mem _ member)) behind

theorem spells_around (whole : IsWhole text) (unbroken : marks.Unbroken text)
    (balanced : IsBalanced (unescaped text)) : Spells (marks.around text) (standsFor text) := by
  intro elements
  have read := @foldlM_of_inside marks [] text 0 elements whole unbroken
    (fun front early => Nat.le_trans (balanced.nested front early) (Nat.le_add_left _ _))
  rw [Nat.zero_add, balanced.closed, Nat.sub_self, List.append_nil] at read
  refine ⟨.closed, .inr rfl, ?_⟩
  rw [Marks.around, List.cons_append, List.foldlM_cons, step_of_opening]
  change (text ++ [marks.closing]).foldlM Reading.step (marks.inside elements [] 0) = _
  rw [List.foldlM_append, read]
  exact (bind_pure _).trans (step_of_closing elements fun _ => rfl)

end Marked

theorem spells_braced {text : Text} (braceable : IsBraceable text) : Spells (braced text) text := by
  have same : unescaped text = text := replace_escapes_of_plain braceable.plain
  have whole := is_whole_of_unescaped (by rw [same]; exact braceable.plain)
  have spells := @spells_around .braces text whole nofun (by rw [same]; exact braceable.toIsBalanced)
  rwa [standsFor, replace_escapes_of_plain braceable.plain] at spells

section Ends

variable {position : Position} (ended : position = .bare ∨ position = .closed) (element : Text)
  (elements : List Text)

include ended

theorem separate_of_ended :
    Reading.separate { elements, current := element.reverse, position } =
      { elements := element :: elements } := by
  have started : position ≠ .between := by
    rcases ended with rfl | rfl
    · decide
    · decide
  rw [Reading.separate, if_neg started, Reading.element, List.reverse_reverse]

theorem step_of_ended {separator : Char} (separates : isSeparator separator = true) :
    Reading.step { elements, current := element.reverse, position } separator =
      .ok { elements := element :: elements } := by
  have plain := ne_backslash_of_separator separates
  rw [← separate_of_ended ended]
  rcases ended with rfl | rfl
  · simp [Reading.step, separates, plain, pure, Except.pure]
  · simp [Reading.step, separates, plain, pure, Except.pure]

theorem finish_of_ended :
    Reading.finish { elements, current := element.reverse, position } =
      .ok (elements.reverse ++ [element]) := by
  have whole : elements.reverse ++ [element] =
      (Reading.separate { elements, current := element.reverse, position }).elements.reverse := by
    rw [separate_of_ended ended, List.reverse_cons]
  rw [whole]
  rcases ended with rfl | rfl
  · rfl
  · rfl

end Ends

/-- The text is a list of words with separators between them. Any separators can stand in front of
the first word and behind the last one. -/
inductive Lists (spells : Text → Text → Prop) : Text → List Text → Prop
  | gap (gap : Text) (blank : ∀ char ∈ gap, isSeparator char = true) : Lists spells gap []
  | last (gap : Text) {word element : Text} (blank : ∀ char ∈ gap, isSeparator char = true)
      (spelled : spells word element) : Lists spells (gap ++ word) [element]
  | cons (gap : Text) {word element rest : Text} {elements : List Text} {separator : Char}
      (blank : ∀ char ∈ gap, isSeparator char = true) (spelled : spells word element)
      (separates : isSeparator separator = true) (more : Lists spells rest elements) :
      Lists spells (gap ++ word ++ separator :: rest) (element :: elements)

theorem Lists.mono {one other : Text → Text → Prop} {text : Text} {elements : List Text}
    (weaker : ∀ word element, one word element → other word element)
    (lists : Lists one text elements) : Lists other text elements := by
  induction lists with
  | gap gap blank => exact .gap gap blank
  | last gap blank spelled => exact .last gap blank (weaker _ _ spelled)
  | cons gap blank spelled separates _ ih =>
      exact .cons gap blank (weaker _ _ spelled) separates ih

theorem lists_join {words elements : List Text} {spells : Text → Text → Prop}
    (spelled : List.Forall₂ spells words elements) : Lists spells (join [' '] words) elements := by
  induction spelled with
  | nil => exact .gap [] nofun
  | @cons word element words elements spells rest ih =>
      cases rest with
      | nil => exact .last [] nofun spells
      | cons _ _ =>
          rw [join_cons_cons, List.append_assoc]
          exact .cons [] nofun spells rfl ih

theorem foldlM_of_gap {gap : Text} (blank : ∀ char ∈ gap, isSeparator char = true)
    (elements : List Text) (current : Text) :
    gap.foldlM Reading.step { elements, current } = .ok { elements, current } := by
  induction gap with
  | nil => rfl
  | cons char gap ih =>
      obtain ⟨first, others⟩ := List.forall_mem_cons.mp blank
      have plain := ne_backslash_of_separator first
      have passed : Reading.step { elements, current } char = .ok { elements, current } := by
        simp [Reading.step, Reading.separate, first, plain, pure, Except.pure]
      rw [List.foldlM_cons, passed]
      exact ih others

def Reading.complete (reading : Reading) (text : Text) : Except Fault (List Text) :=
  text.foldlM Reading.step reading >>= Reading.finish

theorem parse_eq (text : Text) : parse text = Reading.complete {} text := rfl

theorem complete_append {reading next : Reading} {front : Text}
    (read : front.foldlM Reading.step reading = .ok next) (rest : Text) :
    reading.complete (front ++ rest) = next.complete rest := by
  rw [Reading.complete, List.foldlM_append, read]
  rfl

theorem complete_cons {reading next : Reading} {char : Char} (stepped : reading.step char = .ok next)
    (rest : Text) : reading.complete (char :: rest) = next.complete rest := by
  rw [Reading.complete, List.foldlM_cons, stepped]
  rfl

/-- The elements in front of a list do not matter to how it is read. -/
theorem complete_of_lists {text : Text} {elements : List Text} (lists : Lists Spells text elements)
    (front : List Text) :
    Reading.complete { elements := front } text = .ok (front.reverse ++ elements) := by
  induction lists generalizing front with
  | gap gap blank =>
      rw [Reading.complete, foldlM_of_gap blank, List.append_nil]
      rfl
  | @last gap word element blank spelled =>
      obtain ⟨position, ended, read⟩ := spelled front
      rw [complete_append (foldlM_of_gap blank front []), ← List.append_nil word,
        complete_append read]
      exact finish_of_ended ended element front
  | @cons gap word element rest elements separator blank spelled separates _ ih =>
      obtain ⟨position, ended, read⟩ := spelled front
      have shifted : front.reverse ++ element :: elements =
          (element :: front).reverse ++ elements := by
        rw [List.reverse_cons, List.append_assoc, List.singleton_append]
      rw [List.append_assoc, complete_append (foldlM_of_gap blank front []), complete_append read,
        complete_cons (step_of_ended ended element front separates), shifted]
      exact ih (element :: front)

theorem parse_words {words elements : List Text} (spelled : List.Forall₂ Spells words elements) :
    parse (join [' '] words) = .ok elements :=
  complete_of_lists (lists_join spelled) []

end TabletopDice.TclList
