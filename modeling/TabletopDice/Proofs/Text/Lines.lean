import TabletopDice.Text.Lines

/-!
Lines and the text they were cut from. A text without carriage returns is cut at every
single break, so the lines in front of a break do not depend on what follows it, and
the lines put together again are the text with line feeds for its breaks.
-/

namespace TabletopDice.Text

theorem join_cons_cons (separator part next : Text) (parts : List Text) :
    join separator (part :: next :: parts) = part ++ separator ++ join separator (next :: parts) :=
  rfl

def unifyBreaks (text : Text) : Text :=
  text.map fun char => if isLineBreak char then '\n' else char

def BreaksByLineFeed (text : Text) : Prop := ∀ char ∈ text, isLineBreak char = true → char = '\n'

instance (text : Text) : Decidable (BreaksByLineFeed text) :=
  decidableForallMem text

theorem no_return_of_by_line_feed {text : Text} (plain : BreaksByLineFeed text) : '\r' ∉ text :=
  fun member => absurd (plain '\r' member rfl) (by decide)

theorem unify_breaks_append (left right : Text) :
    unifyBreaks (left ++ right) = unifyBreaks left ++ unifyBreaks right :=
  List.map_append

theorem unify_breaks_of_line_feeds {text : Text} (plain : BreaksByLineFeed text) :
    unifyBreaks text = text := by
  induction text with
  | nil => rfl
  | cons char rest ih =>
      have behind := ih fun next member => plain next (List.mem_cons_of_mem _ member)
      unfold unifyBreaks at behind ⊢
      rw [List.map_cons, behind]
      split
      next isBreak => rw [plain char List.mem_cons_self isBreak]
      next => rfl

theorem split_lines_break {char : Char} (isBreak : isLineBreak char = true) (single : char ≠ '\r')
    (rest : Text) : splitLines (char :: rest) = [] :: splitLines rest := by
  rw [splitLines.eq_3 _ _ fun _ same _ => single same, if_pos isBreak]

theorem split_lines_plain {char : Char} (plain : isLineBreak char = false) (rest : Text) :
    splitLines (char :: rest) = match splitLines rest with
      | [] => [[char]]
      | line :: lines => (char :: line) :: lines := by
  have single : char ≠ '\r' := by
    rintro rfl
    cases plain
  exact (splitLines.eq_3 _ _ fun _ same _ => single same).trans (if_neg (by simp [plain]))

theorem split_lines_ne_nil (text : Text) : splitLines (text ++ ['\n']) ≠ [] := by
  generalize same : text ++ ['\n'] = whole
  have nonempty : whole ≠ [] := same ▸ List.append_ne_nil_of_right_ne_nil text (List.cons_ne_nil _ _)
  fun_cases splitLines whole with
  | case1 => exact absurd rfl nonempty
  | case2 => exact List.cons_ne_nil _ _
  | case3 => exact List.cons_ne_nil _ _
  | case4 => exact List.cons_ne_nil _ _
  | case5 => exact List.cons_ne_nil _ _

theorem exists_first_line {char : Char} (plain : isLineBreak char = false) (rest : Text) :
    ∃ line lines, splitLines (char :: rest) = (char :: line) :: lines := by
  rw [split_lines_plain plain]
  cases splitLines rest with
  | nil => exact ⟨[], [], rfl⟩
  | cons line lines => exact ⟨line, lines, rfl⟩

theorem split_lines_plain_append {lead : Text} (plain : ∀ char ∈ lead, isLineBreak char = false)
    {text line : Text} {lines : List Text} (behind : splitLines text = line :: lines) :
    splitLines (lead ++ text) = (lead ++ line) :: lines := by
  induction lead with
  | nil => exact behind
  | cons char lead ih =>
      obtain ⟨first, others⟩ := List.forall_mem_cons.mp plain
      rw [List.cons_append, split_lines_plain first, ih others]
      rfl

theorem split_lines_of_plain {text : Text} (plain : ∀ char ∈ text, isLineBreak char = false)
    (nonempty : text ≠ []) : splitLines text = [text] := by
  induction text with
  | nil => exact absurd rfl nonempty
  | cons char rest ih =>
      obtain ⟨first, others⟩ := List.forall_mem_cons.mp plain
      rw [split_lines_plain first]
      cases rest with
      | nil => rfl
      | cons next rest => rw [ih others (List.cons_ne_nil _ _)]

theorem split_lines_line_feed_append {line : Text} (plain : ∀ char ∈ line, isLineBreak char = false)
    (rest : Text) : splitLines (line ++ '\n' :: rest) = line :: splitLines rest := by
  have isBreak : isLineBreak '\n' = true := rfl
  have parted := split_lines_plain_append plain (split_lines_break isBreak (by decide) rest)
  rwa [List.append_nil] at parted

theorem split_lines_join {line : Text} {lines : List Text}
    (plain : ∀ other ∈ line :: lines, other ≠ [] ∧ ∀ char ∈ other, isLineBreak char = false)
    {ending : Text} (ended : ending = [] ∨ ending = ['\n']) :
    splitLines (join ['\n'] (line :: lines) ++ ending) = line :: lines := by
  induction lines generalizing line with
  | nil =>
      obtain ⟨nonempty, unbroken⟩ := plain line List.mem_cons_self
      rcases ended with rfl | rfl
      · rw [join, List.append_nil, split_lines_of_plain unbroken nonempty]
      · exact split_lines_line_feed_append unbroken []
  | cons next lines ih =>
      obtain ⟨⟨-, unbroken⟩, others⟩ := List.forall_mem_cons.mp plain
      rw [join_cons_cons, List.append_assoc, List.append_assoc, List.singleton_append,
        split_lines_line_feed_append unbroken, ih others]

theorem exists_lines_of_break {char : Char} (isBreak : isLineBreak char = true) (rest : Text) :
    ∃ lines, splitLines (char :: rest) = [] :: lines := by
  generalize whole : char :: rest = text
  fun_cases splitLines text with
  | case1 => cases whole
  | case2 => exact ⟨_, rfl⟩
  | case3 => exact ⟨_, rfl⟩
  | case4 | case5 =>
      cases whole
      contradiction

theorem exists_lines_behind {line rest : Text} (plain : ∀ char ∈ line, isLineBreak char = false)
    (nonempty : line ≠ []) (ended : ∀ char ∈ rest.head?, isLineBreak char = true) :
    ∃ lines, splitLines (line ++ rest) = line :: lines := by
  cases rest with
  | nil =>
      rw [List.append_nil]
      exact ⟨[], split_lines_of_plain plain nonempty⟩
  | cons char rest =>
      obtain ⟨lines, behind⟩ := exists_lines_of_break (ended char rfl) rest
      have parted := split_lines_plain_append plain behind
      rw [List.append_nil] at parted
      exact ⟨lines, parted⟩

theorem head_of_split_lines {text line : Text} {lines : List Text} {char : Char}
    (split : splitLines text = line :: lines) (begins : line.head? = some char) :
    ∃ rest, text = char :: rest := by
  fun_cases splitLines text with
  | case1 => cases split
  | case2 rest => cases split; cases begins
  | case3 first rest _ isBreak =>
      rw [splitLines.eq_3 _ _ ‹_›, if_pos isBreak] at split
      cases split
      cases begins
  | case4 first rest _ plain none =>
      rw [splitLines.eq_3 _ _ ‹_›, if_neg plain, none] at split
      cases split
      cases begins
      exact ⟨rest, rfl⟩
  | case5 first rest _ plain next more found =>
      rw [splitLines.eq_3 _ _ ‹_›, if_neg plain, found] at split
      cases split
      cases begins
      exact ⟨rest, rfl⟩

theorem split_lines_append {left : Text} (single : '\r' ∉ left) {char : Char}
    (isBreak : isLineBreak char = true) (noReturn : char ≠ '\r') (right : Text) :
    splitLines (left ++ char :: right) = splitLines (left ++ ['\n']) ++ splitLines right := by
  induction left with
  | nil =>
      rw [List.nil_append, split_lines_break isBreak noReturn]
      rfl
  | cons first left ih =>
      have behind := ih (List.not_mem_of_not_mem_cons single)
      have noFirst : first ≠ '\r' := Ne.symm (List.ne_of_not_mem_cons single)
      cases firstBreak : isLineBreak first with
      | true =>
          rw [List.cons_append, List.cons_append, split_lines_break firstBreak noFirst,
            split_lines_break firstBreak noFirst, behind, List.cons_append]
      | false =>
          rw [List.cons_append, List.cons_append, split_lines_plain firstBreak,
            split_lines_plain firstBreak, behind]
          cases lines : splitLines (left ++ ['\n']) with
          | nil => exact absurd lines (split_lines_ne_nil left)
          | cons line more => rfl

theorem split_lines_line_feed {text : Text} (single : '\r' ∉ text) {last : Char}
    (plain : isLineBreak last = false) :
    splitLines (text ++ [last] ++ ['\n']) = splitLines (text ++ [last]) := by
  induction text with
  | nil => rw [List.nil_append, List.singleton_append, split_lines_plain plain,
      split_lines_plain plain]; rfl
  | cons first text ih =>
      have behind := ih (List.not_mem_of_not_mem_cons single)
      have noFirst : first ≠ '\r' := Ne.symm (List.ne_of_not_mem_cons single)
      cases firstBreak : isLineBreak first with
      | true =>
          rw [List.cons_append, List.cons_append, split_lines_break firstBreak noFirst,
            split_lines_break firstBreak noFirst, behind]
      | false =>
          rw [List.cons_append, List.cons_append, split_lines_plain firstBreak,
            split_lines_plain firstBreak, behind]

theorem join_lines {text : Text} (single : '\r' ∉ text) :
    join ['\n'] (splitLines (text ++ ['\n'])) = unifyBreaks text := by
  induction text with
  | nil => rfl
  | cons char text ih =>
      have behind := ih (List.not_mem_of_not_mem_cons single)
      have noReturn : char ≠ '\r' := Ne.symm (List.ne_of_not_mem_cons single)
      have unified : unifyBreaks (char :: text) =
          (if isLineBreak char then '\n' else char) :: unifyBreaks text := rfl
      rw [unified, ← behind, List.cons_append]
      cases lines : splitLines (text ++ ['\n']) with
      | nil => exact absurd lines (split_lines_ne_nil text)
      | cons line more =>
          cases isBreak : isLineBreak char with
          | true =>
              rw [split_lines_break isBreak noReturn, lines]
              rfl
          | false =>
              rw [split_lines_plain isBreak, lines]
              cases more with
              | nil => rfl
              | cons _ _ => rfl

theorem exists_break {text : Text} (single : '\r' ∉ text) {front behind : List Text}
    {line : Text} (lines : splitLines text = front ++ line :: behind) (some : front ≠ []) :
    ∃ left char right, text = left ++ char :: right ∧ isLineBreak char = true ∧
      splitLines (left ++ ['\n']) = front ∧ splitLines right = line :: behind := by
  induction text generalizing front with
  | nil =>
      rw [splitLines] at lines
      cases front with
      | nil => exact absurd rfl some
      | cons _ _ => cases lines
  | cons first text ih =>
      have singleText : '\r' ∉ text := List.not_mem_of_not_mem_cons single
      have noFirst : first ≠ '\r' := Ne.symm (List.ne_of_not_mem_cons single)
      obtain ⟨head, more, rfl⟩ := List.exists_cons_of_ne_nil some
      cases firstBreak : isLineBreak first with
      | true =>
          rw [split_lines_break firstBreak noFirst] at lines
          obtain ⟨rfl, rest⟩ := List.cons.inj lines
          by_cases none : more = []
          · subst none
            exact ⟨[], first, text, rfl, firstBreak, rfl, rest⟩
          · obtain ⟨left, char, right, rfl, isBreak, before, after⟩ := ih singleText rest none
            refine ⟨first :: left, char, right, rfl, isBreak, ?_, after⟩
            rw [List.cons_append, split_lines_break firstBreak noFirst, before]
      | false =>
          rw [split_lines_plain firstBreak] at lines
          cases found : splitLines text with
          | nil =>
              rw [found] at lines
              cases more <;> cases lines
          | cons next rest =>
              rw [found] at lines
              obtain ⟨rfl, rfl⟩ := List.cons.inj lines
              obtain ⟨left, char, right, rfl, isBreak, before, after⟩ :=
                ih singleText (show _ = (next :: more) ++ _ from found) (List.cons_ne_nil _ _)
              refine ⟨first :: left, char, right, rfl, isBreak, ?_, after⟩
              rw [List.cons_append, split_lines_plain firstBreak, before]

end TabletopDice.Text
