import TabletopDice.Proofs.Preset.TclList

/-!
Lists as they are written. An element in one of the three forms of a word, with any separators
around it, is read as it was written. A bare word in which a backslash stands in front of each
special character is read as it was written only if it holds another character as well: an escape
does not start an element, so a word of escapes alone goes over into the next word, and at the end
of the text it is lost.
-/

namespace TabletopDice.TclList

open Text

inductive Writes : Text → Text → Prop
  | bare {text : Text} (nonempty : text ≠ []) (ordinary : ∀ char ∈ text, IsOrdinary char) :
      Writes text text
  | quoted {text : Text}
      (plain : '"' ∉ text ∧ '\x7b' ∉ text ∧ '\x7d' ∉ text ∧ '\\' ∉ text) :
      Writes ('"' :: text ++ ['"']) text
  | braced {text : Text} (braceable : IsBraceable text) :
      Writes ('\x7b' :: text ++ ['\x7d']) text

theorem is_balanced_of_unbraced {text : Text} (noOpening : '\x7b' ∉ text)
    (noClosing : '\x7d' ∉ text) : IsBalanced text where
  nested front early := by
    have none : '\x7d' ∉ front := fun member => noClosing (early.subset member)
    rw [List.count_eq_zero_of_not_mem none]
    exact Nat.zero_le _
  closed := by
    rw [List.count_eq_zero_of_not_mem noOpening, List.count_eq_zero_of_not_mem noClosing]

theorem Writes.spells {word element : Text} (writes : Writes word element) :
    Spells word element := by
  cases writes with
  | bare nonempty ordinary => exact spells_of_ordinary nonempty ordinary
  | quoted plain =>
      obtain ⟨noQuote, noOpening, noClosing, noBackslash⟩ := plain
      have same : unescaped element = element := replace_escapes_of_plain noBackslash
      have whole := is_whole_of_unescaped (by rwa [same])
      have spells := @spells_around .quotes element whole (fun _ => by rwa [same])
        (by rw [same]; exact is_balanced_of_unbraced noOpening noClosing)
      rwa [standsFor, replace_escapes_of_plain noBackslash] at spells
  | braced braceable => exact spells_braced braceable

/-- A list of elements in the three forms, with separators between them and any around them, is read
as these elements. -/
theorem parse_of_lists {text : Text} {elements : List Text} (lists : Lists Writes text elements) :
    parse text = .ok elements :=
  complete_of_lists (lists.mono fun _ _ writes => writes.spells) []

/-- Nested braces and quotes in braces, separators in both, empty elements in both. -/
theorem parse_of_lists_of_all_forms :
    let text := "\t\n\x7ba \x7b\"b\x7d \x7b\x7d\"\"\x7d\x0b\r\"c \t\" d#\x0c\"\" \x7b\x7d ".toList
    let elements := ["a \x7b\"b\x7d \x7b\x7d\"\"".toList, "c \t".toList, "d#".toList, [], []]
    Lists Writes text elements ∧ parse text = .ok elements := by
  intro text elements
  have braces : Writes ('\x7b' :: "a \x7b\"b\x7d \x7b\x7d\"\"".toList ++ ['\x7d'])
      "a \x7b\"b\x7d \x7b\x7d\"\"".toList := .braced (by decide)
  have quotes : Writes ('"' :: "c \t".toList ++ ['"']) "c \t".toList := .quoted (by decide)
  have bare : Writes "d#".toList "d#".toList := by
    refine .bare (by decide) ?_
    rw [show "d#".toList = ['d', '#'] from rfl, List.forall_mem_cons, List.forall_mem_singleton]
    exact ⟨⟨rfl, by decide⟩, ⟨rfl, by decide⟩⟩
  have noQuotes : Writes ('"' :: [] ++ ['"']) [] := .quoted (by decide)
  have noBraces : Writes ('\x7b' :: [] ++ ['\x7d']) [] := .braced (by decide)
  have lists : Lists Writes text elements :=
    .cons ['\t', '\n'] (by decide) braces rfl <| .cons ['\r'] (by decide) quotes rfl <|
      .cons [] nofun bare rfl <| .cons [] nofun noQuotes rfl <|
        .cons [] nofun noBraces rfl (.gap [] nofun)
  exact ⟨lists, parse_of_lists lists⟩

section Escaped

/-- The bare word for an element, with a backslash in front of each special character. -/
def escape : Text → Text
  | [] => []
  | char :: element => if isSpecial char then '\\' :: char :: escape element else char :: escape element

/-- The elements that are read from words with escapes. What has been carried over stands in front of
the next element; an element of special characters alone is carried over itself. -/
def merged : Text → List Text → List Text
  | _, [] => []
  | carried, element :: elements =>
      if element.all isSpecial then merged (carried ++ element) elements
      else (carried ++ element) :: merged [] elements

theorem ne_backslash_of_not_special {char : Char} (other : ¬isSpecial char = true) :
    char ≠ '\\' := fun same => other (by rw [same]; rfl)

theorem unescaped_escaped (element : Text) :
    unescaped (escape element) = element.filter fun char => !isSpecial char := by
  induction element with
  | nil => rfl
  | cons char element ih =>
      rw [escape]
      by_cases special : isSpecial char = true
      · rw [if_pos special, unescaped_escape, ih, List.filter_cons_of_neg (by simp [special])]
      · rw [if_neg special, unescaped_cons (ne_backslash_of_not_special special), ih,
          List.filter_cons_of_pos (by simp [special])]

theorem stands_for_escaped (element : Text) : standsFor (escape element) = element := by
  induction element with
  | nil => rfl
  | cons char element ih =>
      rw [escape]
      by_cases special : isSpecial char = true
      · rw [if_pos special, stands_for_escape, ih, literally, if_pos special]
        rfl
      · rw [if_neg special, stands_for_cons (ne_backslash_of_not_special special), ih]

variable {element : Text}

theorem unescaped_escaped_eq_nil : unescaped (escape element) = [] ↔ element.all isSpecial = true := by
  rw [unescaped_escaped, List.filter_eq_nil_iff, List.all_eq_true]
  simp

theorem ordinary_of_escaped (spaced : ∀ char ∈ element, isSeparator char = true → char = ' ') :
    ∀ char ∈ unescaped (escape element), IsOrdinary char := by
  rw [unescaped_escaped]
  intro char member
  obtain ⟨inside, other⟩ := List.mem_filter.mp member
  have unmarked {glyph : Char} (special : isSpecial glyph = true) : char ≠ glyph := by
    rintro rfl
    rw [special] at other
    cases other
  refine ⟨?_, unmarked rfl, unmarked rfl, unmarked rfl, unmarked rfl⟩
  cases separator : isSeparator char with
  | false => rfl
  | true => exact absurd (spaced char inside separator) (unmarked rfl)

theorem foldlM_of_escaped (spaced : ∀ char ∈ element, isSeparator char = true → char = ' ')
    (front : List Text) (carried : Text) :
    (escape element).foldlM Reading.step { elements := front, current := carried.reverse } = .ok {
      elements := front, current := (carried ++ element).reverse
      position := if element.all isSpecial then .between else .bare } := by
  rw [foldlM_of_ordinary (ordinary_of_escaped spaced) (.inl rfl), stands_for_escaped,
    List.reverse_append]
  simp only [unescaped_escaped_eq_nil]

theorem complete_of_escaped {elements : List Text}
    (spaced : ∀ element ∈ elements, ∀ char ∈ element, isSeparator char = true → char = ' ')
    (front : List Text) (carried : Text) :
    Reading.complete { elements := front, current := carried.reverse }
        (join [' '] (elements.map escape)) = .ok (front.reverse ++ merged carried elements) := by
  induction elements generalizing front carried with
  | nil =>
      rw [merged, List.append_nil]
      rfl
  | cons element elements ih =>
      obtain ⟨first, others⟩ := List.forall_mem_cons.mp spaced
      have read := foldlM_of_escaped first front carried
      rw [merged]
      cases elements with
      | nil =>
          rw [List.map_cons, List.map_nil, join, ← List.append_nil (escape element),
            complete_append read]
          by_cases special : element.all isSpecial = true
          · rw [if_pos special, if_pos special, merged, List.append_nil]
            rfl
          · rw [if_neg special, if_neg special, merged]
            exact finish_of_ended (.inl rfl) (carried ++ element) front
      | cons next more =>
          rw [List.map_cons, List.map_cons, join_cons_cons, List.append_assoc, complete_append read,
            ← List.map_cons]
          by_cases special : element.all isSpecial = true
          · rw [if_pos special, if_pos special, ← ih others front (carried ++ element)]
            exact complete_cons rfl _
          · rw [if_neg special, if_neg special]
            refine (complete_cons (step_of_ended (.inl rfl) _ _ rfl) _).trans ?_
            refine (ih others (_ :: front) []).trans ?_
            rw [List.reverse_cons, List.append_assoc, List.singleton_append]

theorem length_merged (carried : Text) (elements : List Text) : (merged carried elements).length =
    elements.countP fun element => !element.all isSpecial := by
  induction elements generalizing carried with
  | nil => rfl
  | cons element elements ih =>
      rw [merged, List.countP_cons]
      by_cases special : element.all isSpecial = true
      · rw [if_pos special, ih, special]
        rfl
      · rw [if_neg special, List.length_cons, ih, eq_false_of_ne_true special]
        rfl

/-- Nothing is carried over exactly if no element consists of special characters alone. -/
theorem merged_eq_self_iff {elements : List Text} : merged [] elements = elements ↔
    ∀ element ∈ elements, ∃ char ∈ element, isSpecial char = false := by
  have some (element : Text) : (!element.all isSpecial) = true ↔
      ∃ char ∈ element, isSpecial char = false := by
    simp
  constructor
  · intro same
    have all := length_merged [] elements
    rw [same] at all
    intro element member
    exact (some element).mp (List.countP_eq_length.mp all.symm element member)
  · intro each
    induction elements with
    | nil => rfl
    | cons element elements ih =>
        obtain ⟨first, others⟩ := List.forall_mem_cons.mp each
        have ordinary := (some element).mpr first
        rw [Bool.not_eq_true', ← Bool.not_eq_true] at ordinary
        rw [merged, if_neg ordinary, ih others, List.nil_append]

/-- Elements without separators other than spaces, each written as a bare word with escapes: each of
special characters alone goes over into the next one, so all are read as they were written exactly
if each holds another character. -/
theorem parse_of_escaped {elements : List Text}
    (spaced : ∀ element ∈ elements, ∀ char ∈ element, isSeparator char = true → char = ' ') :
    parse (join [' '] (elements.map escape)) = .ok (merged [] elements) ∧
      (parse (join [' '] (elements.map escape)) = .ok elements ↔
        ∀ element ∈ elements, ∃ char ∈ element, isSpecial char = false) := by
  have read : parse (join [' '] (elements.map escape)) = .ok (merged [] elements) :=
    complete_of_escaped spaced [] []
  refine ⟨read, ?_⟩
  rw [read, Except.ok.injEq]
  exact merged_eq_self_iff

/-- A quotation mark that starts an element, a brace and a backslash that are one, and one more at the
end. -/
theorem parse_of_escaped_of_lone_marks :
    let elements := ["\"a b".toList, "\x7b\\".toList, "# c\x7d".toList, " ".toList]
    (∀ element ∈ elements, ∀ char ∈ element, isSeparator char = true → char = ' ') ∧
      join [' '] (elements.map escape) = "\\\"a\\ b \\\x7b\\\\ \\#\\ c\\\x7d \\ ".toList ∧
      parse (join [' '] (elements.map escape)) = .ok ["\"a b".toList, "\x7b\\# c\x7d".toList] ∧
      parse (join [' '] (elements.map escape)) ≠ .ok elements := by
  intro elements
  have spaced : ∀ element ∈ elements, ∀ char ∈ element, isSeparator char = true → char = ' ' := by
    decide
  obtain ⟨read, whole⟩ := parse_of_escaped spaced
  refine ⟨spaced, rfl, read, fun same => ?_⟩
  obtain ⟨char, member, other⟩ := whole.mp same " ".toList (by decide)
  rw [List.eq_of_mem_singleton member] at other
  cases other

/-- A space alone is lost. -/
theorem not_parse_of_escaped :
    ¬∀ elements : List Text, (∀ element ∈ elements, element ≠ [] ∧
      ∀ char ∈ element, isSeparator char = true → char = ' ') →
        parse (join [' '] (elements.map escape)) = .ok elements := by
  intro read
  have same := read [[' ']] (by decide)
  have lost : parse (join [' '] ([[' ']].map escape)) = .ok [] := rfl
  rw [lost] at same
  cases same

end Escaped

end TabletopDice.TclList
