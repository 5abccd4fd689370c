import TabletopDice.Proofs.Preset.TclList

/-!
Text directly behind an element in braces or quotes. Where it starts with anything but an escape
the list is refused. An escape is taken into the element, as if it stood in front of the closing
mark: what is behind the mark is accepted if it consists of escapes up to a separator or the end.
-/

namespace TabletopDice.TclList

open Text

/-- An element can start behind the text: it is empty, or a list and one more separator. -/
def IsFront (text : Text) : Prop :=
  text = [] ∨ ∃ list elements separator, parse list = .ok elements ∧
    isSeparator separator = true ∧ text = list ++ [separator]

/-- A text that stands between the marks, and behind which the closing mark ends the element. Braces
have to be balanced in braces only. -/
structure Marks.Holds (marks : Marks) (body : Text) : Prop where
  whole : IsWhole body
  unbroken : marks.Unbroken body
  balanced : marks = .braces → IsBalanced (unescaped body)

section Fronts

def Reading.IsSound (reading : Reading) : Prop := reading.position = .braced → reading.depth ≠ 0

variable {reading next : Reading}

theorem is_sound_of_step {char : Char} (sound : reading.IsSound)
    (stepped : reading.step char = .ok next) : next.IsSound := by
  unfold Reading.IsSound at *
  -- An opening brace leads into braces, and closing the last open brace leads out of them.
  simp only [Reading.step, pure, Except.pure, throw, throwThe, MonadExceptOf.throw] at stepped
  grind [Reading.literal, Reading.separate, Reading.append]

theorem is_sound_of_foldlM {text : Text} (sound : reading.IsSound)
    (read : text.foldlM Reading.step reading = .ok next) : next.IsSound :=
  kept_of_foldlM (fun _ _ _ _ sound stepped => is_sound_of_step sound stepped) sound read

theorem finish_eq_ok {elements : List Text} (finished : reading.finish = .ok elements) :
    reading.depth = 0 ∧ reading.position ≠ .quoted ∧ reading.escaped = false := by
  unfold Reading.finish at finished
  split at finished
  next => cases finished
  next closed =>
    split at finished
    next => cases finished
    next unquoted =>
      split at finished
      next => cases finished
      next ready => exact ⟨Decidable.not_not.mp closed, unquoted, eq_false_of_ne_true ready⟩

theorem step_of_finished {elements : List Text} {separator : Char} (sound : reading.IsSound)
    (finished : reading.finish = .ok elements) (separates : isSeparator separator = true) :
    ∃ elements current, reading.step separator = .ok { elements, current } := by
  obtain ⟨closed, unquoted, ready⟩ := finish_eq_ok finished
  have plain := ne_backslash_of_separator separates
  have unbraced : reading.position ≠ .braced := fun braced => sound braced closed
  have stepped : reading.step separator = .ok reading.separate := by
    simp [Reading.step, ready, plain, separates, unbraced, unquoted, pure, Except.pure]
  obtain ⟨elements, current, depth, position, escaped⟩ := reading
  obtain rfl : depth = 0 := closed
  obtain rfl : escaped = false := ready
  rw [stepped]
  unfold Reading.separate
  split
  next between =>
    obtain rfl : position = .between := between
    exact ⟨_, _, rfl⟩
  next => exact ⟨_, _, rfl⟩

theorem exists_start_of_front {front : Text} (start : IsFront front) :
    ∃ elements current, front.foldlM Reading.step {} = .ok { elements, current } := by
  rcases start with rfl | ⟨list, listed, separator, parsed, separates, rfl⟩
  · exact ⟨[], [], rfl⟩
  · obtain ⟨reading, read, finished⟩ := bind_eq_ok.mp parsed
    have start : Reading.IsSound {} := fun braced => nomatch braced
    have sound := is_sound_of_foldlM start read
    obtain ⟨elements, current, stepped⟩ := step_of_finished sound finished separates
    refine ⟨elements, current, ?_⟩
    rw [List.foldlM_append, read]
    exact (bind_pure _).trans stepped

end Fronts

section Bodies

variable {marks : Marks} {body : Text} {elements : List Text} {current : Text} {depth : Nat}

/-- A text in quotes leads to where a quote ends it, unless it closes a brace that is not open. -/
theorem foldlM_of_quoted (whole : IsWhole body) (unbroken : '"' ∉ unescaped body) :
    (∃ fault, body.foldlM Reading.step (Marks.quotes.inside elements current depth) =
      .error fault) ∨
    ∃ current' depth', body.foldlM Reading.step (Marks.quotes.inside elements current depth) =
      .ok (Marks.quotes.inside elements current' depth') := by
  induction whole generalizing current depth with
  | nil => exact .inr ⟨current, depth, rfl⟩
  | escape char more ih =>
      rw [unescaped_escape] at unbroken
      rw [foldlM_of_escape rfl]
      exact ih unbroken
  | @cons char plain rest more ih =>
      rw [unescaped_cons plain] at unbroken
      obtain ⟨first, others⟩ := not_or.mp (List.mem_cons.not.mp unbroken)
      by_cases stray : char = '\x7d' ∧ depth = 0
      · obtain ⟨rfl, rfl⟩ := stray
        exact .inl ⟨.unopenedBrace current.reverse, rfl⟩
      · rw [List.foldlM_cons, step_of_inside elements plain (fun _ same => first same.symm)
          fun closing shut => stray ⟨closing, shut⟩]
        exact ih others

/-- Reading up to the closing mark either fails, whatever comes then, or leads to where the mark ends
the element. -/
theorem parse_of_holds {front : Text} (start : IsFront front) (held : marks.Holds body) :
    (∃ fault, ∀ tail, parse (front ++ marks.opening :: (body ++ tail)) = .error fault) ∨
    ∃ elements current depth, (marks = .braces → depth = 0) ∧
      ∀ tail, parse (front ++ marks.opening :: (body ++ tail)) =
        (marks.inside elements current depth).complete tail := by
  obtain ⟨elements, current, started⟩ := exists_start_of_front start
  have opened (tail : Text) : parse (front ++ marks.opening :: (body ++ tail)) =
      (marks.inside elements current 0).complete (body ++ tail) := by
    rw [parse_eq, complete_append started]
    exact complete_cons (step_of_opening elements) _
  cases marks with
  | braces =>
      have balanced := held.balanced rfl
      have read := @foldlM_of_inside .braces current body 0 elements held.whole held.unbroken
        fun front early => Nat.le_trans (balanced.nested front early) (Nat.le_add_left _ _)
      rw [Nat.zero_add, balanced.closed, Nat.sub_self] at read
      refine .inr ⟨elements, (standsFor body).reverse ++ current, 0, fun _ => rfl, fun tail => ?_⟩
      rw [opened, complete_append read]
  | quotes =>
      rcases @foldlM_of_quoted body elements current 0 held.whole (held.unbroken rfl) with
        ⟨fault, failed⟩ | ⟨current', depth, read⟩
      · refine .inl ⟨fault, fun tail => ?_⟩
        rw [opened, Reading.complete, List.foldlM_append, failed]
        rfl
      · have other : Marks.quotes = .braces → depth = 0 := by
          intro same
          cases same
        refine .inr ⟨elements, current', depth, other, fun tail => ?_⟩
        rw [opened, complete_append read]

theorem complete_escape {reading : Reading} (ready : reading.escaped = false) (char : Char)
    (rest : Text) : reading.complete ('\\' :: char :: rest) =
      Reading.complete { reading with current := (literally char).reverse ++ reading.current }
        rest := by
  rw [Reading.complete, foldlM_of_escape ready]
  rfl

variable (closes : marks = .braces → depth = 0)

include closes

/-- Escapes behind the closing mark are read as if they stood in front of it. -/
theorem complete_of_closed_escapes {escapes : Text} (escaped : unescaped escapes = [])
    (behind : Text) :
    (marks.inside elements current depth).complete (marks.closing :: (escapes ++ behind)) =
      (marks.inside elements current depth).complete (escapes ++ marks.closing :: behind) := by
  have whole : IsWhole escapes := is_whole_of_unescaped (by rw [escaped]; exact List.not_mem_nil)
  induction whole generalizing current with
  | nil => rfl
  | @escape char rest more ih =>
      rw [unescaped_escape] at escaped
      have inside := @ih ((literally char).reverse ++ current) escaped
      rw [complete_cons (step_of_closing elements closes)] at inside ⊢
      rw [List.cons_append, List.cons_append, List.cons_append, List.cons_append,
        complete_escape rfl, complete_escape rfl]
      exact inside
  | cons plain more ih =>
      rw [unescaped_cons plain] at escaped
      cases escaped

theorem refuses_of_closed {next : Char} (trailing : isSeparator next = false) (plain : next ≠ '\\')
    (rest : Text) : ∃ fault, (marks.inside elements current depth).complete
      (marks.closing :: next :: rest) = .error fault := by
  refine ⟨.trailingText current.reverse next, ?_⟩
  rw [complete_cons (step_of_closing elements closes), Reading.complete, List.foldlM_cons]
  have refused : Reading.step { elements, current, depth, position := .closed } next =
      .error (.trailingText current.reverse next) := by
    simp [Reading.step, Reading.element, trailing, plain, throw, throwThe, MonadExceptOf.throw]
  rw [refused]
  rfl

theorem refuses_of_lone_backslash : ∃ fault, (marks.inside elements current depth).complete
    [marks.closing, '\\'] = .error fault := by
  rw [complete_cons (step_of_closing elements closes)]
  cases depth with
  | zero => exact ⟨.danglingBackslash, rfl⟩
  | succ depth => exact ⟨.unclosedBrace, rfl⟩

end Bodies

theorem exists_escapes (text : Text) : ∃ escapes behind, text = escapes ++ behind ∧
    unescaped escapes = [] ∧
      (behind = [] ∨ behind = ['\\'] ∨ ∃ char rest, behind = char :: rest ∧ char ≠ '\\') := by
  induction text using replaceEscapes.induct with
  | case1 => exact ⟨[], [], rfl, rfl, .inl rfl⟩
  | case2 char =>
      refine ⟨[], [char], rfl, rfl, .inr ?_⟩
      by_cases backslash : char = '\\'
      · exact .inl (by rw [backslash])
      · exact .inr ⟨char, [], rfl, backslash⟩
  | case3 next rest ih =>
      obtain ⟨escapes, behind, rfl, escaped, ends⟩ := ih
      exact ⟨'\\' :: next :: escapes, behind, rfl, escaped, ends⟩
  | case4 char next rest plain =>
      exact ⟨[], char :: next :: rest, rfl, rfl, .inr (.inr ⟨char, next :: rest, rfl, plain⟩)⟩

theorem unescaped_append {first : Text} (whole : IsWhole first) (second : Text) :
    unescaped (first ++ second) = unescaped first ++ unescaped second := by
  induction whole with
  | nil => rfl
  | escape char more ih =>
      rw [List.cons_append, List.cons_append, unescaped_escape, unescaped_escape, ih]
  | cons plain more ih =>
      rw [List.cons_append, unescaped_cons plain, unescaped_cons plain, ih, List.cons_append]

theorem is_whole_append {first second : Text} (whole : IsWhole first) (more : IsWhole second) :
    IsWhole (first ++ second) := by
  induction whole with
  | nil => exact more
  | escape char _ ih => exact .escape char ih
  | cons plain _ ih => exact .cons plain ih

theorem Marks.Holds.append {marks : Marks} {body escapes : Text} (held : marks.Holds body)
    (escaped : unescaped escapes = []) : marks.Holds (body ++ escapes) := by
  have more : IsWhole escapes := is_whole_of_unescaped (by rw [escaped]; exact List.not_mem_nil)
  have same : unescaped (body ++ escapes) = unescaped body := by
    rw [unescaped_append held.whole, escaped, List.append_nil]
  refine ⟨is_whole_append held.whole more, ?_, ?_⟩
  · unfold Marks.Unbroken
    rw [same]
    exact held.unbroken
  · rw [same]
    exact held.balanced

theorem around_append (marks : Marks) (front body behind : Text) :
    front ++ marks.around body ++ behind =
      front ++ marks.opening :: (body ++ marks.closing :: behind) := by
  simp [Marks.around]

section Trailing

variable {front body rest : Text} {marks : Marks} {next : Char}

theorem parse_of_escapes (start : IsFront front) (held : marks.Holds body) {escapes : Text}
    (escaped : unescaped escapes = []) (behind : Text) :
    parse (front ++ marks.around body ++ (escapes ++ behind)) =
      parse (front ++ marks.around (body ++ escapes) ++ behind) := by
  rw [around_append, around_append, List.append_assoc]
  rcases parse_of_holds start held with ⟨fault, failed⟩ | ⟨elements, current, depth, closes, read⟩
  · rw [failed, failed]
  · rw [read, read, complete_of_closed_escapes closes escaped]

theorem refuses_unescaped (start : IsFront front) (held : marks.Holds body)
    (trailing : isSeparator next = false) (plain : next ≠ '\\') (rest : Text) :
    ∃ fault, parse (front ++ marks.around body ++ next :: rest) = .error fault := by
  rw [around_append]
  rcases parse_of_holds start held with ⟨fault, failed⟩ | ⟨elements, current, depth, closes, read⟩
  · exact ⟨fault, failed _⟩
  · rw [read]
    exact refuses_of_closed closes trailing plain rest

theorem refuses_lone_backslash (start : IsFront front) (held : marks.Holds body) :
    ∃ fault, parse (front ++ marks.around body ++ ['\\']) = .error fault := by
  rw [around_append]
  rcases parse_of_holds start held with ⟨fault, failed⟩ | ⟨elements, current, depth, closes, read⟩
  · exact ⟨fault, failed _⟩
  · rw [read]
    exact refuses_of_lone_backslash closes

/-- An element in braces or quotes with a character directly behind it that is no separator: unless
that is a backslash, the list is refused. It is accepted exactly if there are escapes up to a
separator or the end, and the list is one with these escapes inside the element; then it is read as
that list. -/
theorem refuses_trailing_text_iff (start : IsFront front) (held : marks.Holds body)
    (trailing : isSeparator next = false) :
    (next ≠ '\\' → ∃ fault, parse (front ++ marks.around body ++ next :: rest) = .error fault) ∧
    ((∃ fault, parse (front ++ marks.around body ++ next :: rest) = .error fault) ↔
      ¬∃ escapes behind elements, next :: rest = escapes ++ behind ∧ unescaped escapes = [] ∧
        (∀ char ∈ behind.head?, isSeparator char = true) ∧
          parse (front ++ marks.around (body ++ escapes) ++ behind) = .ok elements) ∧
    ∀ escapes behind, next :: rest = escapes ++ behind → unescaped escapes = [] →
      parse (front ++ marks.around body ++ next :: rest) =
        parse (front ++ marks.around (body ++ escapes) ++ behind) := by
  have moved (escapes behind : Text) (split : next :: rest = escapes ++ behind)
      (escaped : unescaped escapes = []) :
      parse (front ++ marks.around body ++ next :: rest) =
        parse (front ++ marks.around (body ++ escapes) ++ behind) := by
    rw [split]
    exact parse_of_escapes start held escaped behind
  refine ⟨fun plain => refuses_unescaped start held trailing plain rest, ⟨?_, ?_⟩, moved⟩
  · rintro ⟨fault, failed⟩ ⟨escapes, behind, elements, split, escaped, -, accepted⟩
    rw [moved escapes behind split escaped, accepted] at failed
    cases failed
  · intro none
    obtain ⟨escapes, behind, split, escaped, ends⟩ := exists_escapes (next :: rest)
    have refused (stops : ∀ char ∈ behind.head?, isSeparator char = true) :
        ∃ fault, parse (front ++ marks.around (body ++ escapes) ++ behind) = .error fault := by
      cases parsed : parse (front ++ marks.around (body ++ escapes) ++ behind) with
      | ok elements => exact absurd ⟨escapes, behind, elements, split, escaped, stops, parsed⟩ none
      | error fault => exact ⟨fault, rfl⟩
    rw [moved escapes behind split escaped]
    rcases ends with rfl | rfl | ⟨char, more, rfl, plain⟩
    · exact refused nofun
    · exact refuses_lone_backslash start (held.append escaped)
    · cases separates : isSeparator char with
      | true =>
          apply refused
          rintro _ ⟨⟩
          exact separates
      | false => exact refuses_unescaped start (held.append escaped) separates plain more

/-- A letter behind a quote that ends an element with a quote and a brace in it. -/
theorem refuses_trailing_text_iff_of_letter :
    let front := "x \x7by \x7bz\x7d\x7d\t".toList
    let body := "a\\\" \x7b".toList
    IsFront front ∧ Marks.quotes.Holds body ∧ isSeparator 'b' = false ∧ 'b' ≠ '\\' ∧
      ∃ fault, parse (front ++ Marks.quotes.around body ++ 'b' :: " \x7d".toList) = .error fault := by
  intro front body
  have start : IsFront front :=
    .inr ⟨"x \x7by \x7bz\x7d\x7d".toList, ["x".toList, "y \x7bz\x7d".toList], '\t', rfl, rfl, rfl⟩
  have held : Marks.quotes.Holds body :=
    ⟨is_whole_of_unescaped (by decide), fun _ => by decide, nofun⟩
  exact ⟨start, held, rfl, by decide, (refuses_trailing_text_iff start held rfl).1 (by decide)⟩

/-- A backslash behind a closing brace is accepted. -/
theorem not_refuses_trailing_text :
    ¬∀ (front body rest : Text) (marks : Marks) (next : Char), IsFront front → marks.Holds body →
      isSeparator next = false →
        ∃ fault, parse (front ++ marks.around body ++ next :: rest) = .error fault := by
  intro refused
  have held : Marks.braces.Holds ['a'] :=
    ⟨is_whole_of_unescaped (by decide), nofun, fun _ => by decide⟩
  obtain ⟨fault, failed⟩ := refused [] ['a'] ['b'] .braces '\\' (.inl rfl) held rfl
  have accepted : parse ("\x7ba\x7d\\b".toList) = .ok ["a\\b".toList] := rfl
  change parse ("\x7ba\x7d\\b".toList) = _ at failed
  rw [accepted] at failed
  cases failed

end Trailing

end TabletopDice.TclList
