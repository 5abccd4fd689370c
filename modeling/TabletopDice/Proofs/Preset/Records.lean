import TabletopDice.Preset.Reader
import TabletopDice.Proofs.Json.Framing

/-!
A written file as its reader sees it: the records one after the other, each on the
lines from its mark up to the next mark. Where a string of a record breaks a line,
the reader takes a line feed into the string or cuts the record off inside it, and
in both cases the record is malformed.
-/

namespace TabletopDice

open Text

namespace PresetFile

def RecordKind.mark : RecordKind → Text
  | .metadata => metadataMark
  | .preset => presetMark

/-- A record that can be written: its members are strings and whole numbers. -/
structure Entry where
  kind : RecordKind
  members : List (Text × Json)
  flat : ∀ member ∈ members, member.2.IsFlat

namespace Entry

def json (entry : Entry) : Text := Json.printIndented entry.members

def text (entry : Entry) : Text := writeRecord entry.kind.mark entry.members

def lead (entry : Entry) : Text := entry.kind.mark ++ [' ']

theorem text_eq (entry : Entry) : entry.text = entry.lead ++ (entry.json ++ ['\n']) := by
  rw [text, lead, writeRecord, json]
  simp

theorem framed (entry : Entry) : Json.IsFramed (entry.json ++ ['\n']) := by
  have lineFeed : Json.IsFramed ['\n'] := .of_ascii (by decide) (by decide) (by decide)
  exact (Json.framed_print_indented entry.flat).append lineFeed

/-- No string in the record holds a character that breaks lines and is written as itself. -/
def IsUnbroken (entry : Entry) : Prop := BreaksByLineFeed entry.json

end Entry

def body (entries : List Entry) : Text := entries.flatMap Entry.text ++ endMark

theorem body_cons (entry : Entry) (entries : List Entry) :
    body (entry :: entries) = entry.text ++ body entries := by
  rw [body, List.flatMap_cons, List.append_assoc, body]

theorem body_eq (entries : List Entry) : ∃ rest, body entries = guillemet :: rest := by
  cases entries with
  | nil => exact ⟨_, rfl⟩
  | cons entry entries =>
      rw [body_cons, Entry.text, writeRecord]
      cases entry.kind with
      | metadata => exact ⟨_, rfl⟩
      | preset => exact ⟨_, rfl⟩

def flush (file : PresetFile) : Option (RecordKind × List Text) → Except PresetError PresetFile
  | none => return file
  | some (kind, collected) => addRecord file kind (join ['\n'] collected.reverse)

theorem read_records_marked {line : Text} (marked : line.head? = some guillemet) (file : PresetFile)
    (pending : Option (RecordKind × List Text)) (lines : List Text) :
    readRecords file pending (line :: lines) =
      flush file pending >>= fun file => readRecords file none (line :: lines) := by
  cases pending with
  | none => rfl
  | some record =>
      obtain ⟨kind, collected⟩ := record
      rw [readRecords, if_pos marked, flush]
      simp only [readRecords]

theorem read_records_collect {others : List Text}
    (unmarked : ∀ line ∈ others, line.head? ≠ some guillemet) (file : PresetFile) (kind : RecordKind)
    (collected lines : List Text) :
    readRecords file (some (kind, collected)) (others ++ lines) =
      readRecords file (some (kind, others.reverse ++ collected)) lines := by
  induction others generalizing collected with
  | nil => rfl
  | cons line others ih =>
      obtain ⟨first, behind⟩ := List.forall_mem_cons.mp unmarked
      rw [List.cons_append, readRecords, if_neg first, ih behind, List.reverse_cons,
        List.append_assoc, List.singleton_append]

theorem read_record_line (kind : RecordKind) (char : Char) (data : Text) :
    readRecordLine? (kind.mark ++ ' ' :: char :: data) = some (kind, char :: data) := by
  cases kind with
  | metadata => rfl
  | preset => rfl

theorem line_meaning_start (kind : RecordKind) (char : Char) (data : Text) :
    lineMeaning (kind.mark ++ ' ' :: char :: data) = .ok (.recordStart kind (char :: data)) := by
  have marked : allBlank (kind.mark ++ ' ' :: char :: data) = false ∧
      kind.mark ++ ' ' :: char :: data ≠ endMark := by
    cases kind with
    | metadata =>
        refine ⟨rfl, fun same => ?_⟩
        have fourth : some 'M' = some 'E' := congrArg (fun line => (line.drop 3).head?) same
        cases fourth
    | preset =>
        refine ⟨rfl, fun same => ?_⟩
        have second : some 'P' = some '_' := congrArg (fun line => (line.drop 1).head?) same
        cases second
  rw [lineMeaning, if_neg (by simp [marked.1]), if_neg marked.2, read_record_line]
  rfl

def IsRecordError (error : PresetError) : Prop := ∃ problems, error = .badRecord problems

theorem read_fails_only {Value : Type} (fields : List (Text × Json) → Checked Value) (data : Text) :
    FailsOnly IsRecordError (Record.read fields data) := by
  unfold Record.read
  split
  next => exact fails_only_error ⟨_, rfl⟩
  next =>
    split
    next => exact fails_only_error ⟨_, rfl⟩
    next =>
      split
      next => exact fails_only_map_error (fun _ _ => trivial) fun problems (_ : True) => ⟨problems, rfl⟩
      next => exact fails_only_error ⟨_, rfl⟩

theorem add_record_fails_only (file : PresetFile) (kind : RecordKind) (data : Text) :
    FailsOnly IsRecordError (addRecord file kind data) := by
  cases kind with
  | metadata => exact fails_only_bind (read_fails_only _ data) fun _ => fails_only_ok _
  | preset => exact fails_only_bind (read_fails_only _ data) fun _ => fails_only_ok _

theorem add_record_malformed {data : Text}
    (malformed : ∃ fault, Json.parse Record.bounds data = .error fault) (file : PresetFile)
    (kind : RecordKind) : ∃ problems, addRecord file kind data = .error (.badRecord problems) := by
  obtain ⟨fault, failed⟩ := malformed
  have unread {Value : Type} (fields : List (Text × Json) → Checked Value) :
      ∃ problems, Record.read fields data = .error (.badRecord problems) := by
    rw [Record.read, failed]
    exact ⟨_, rfl⟩
  cases kind with
  | metadata =>
      obtain ⟨problems, same⟩ := unread (Record.readMetadata file.metadata.version)
      exact ⟨problems, by rw [addRecord, same]; rfl⟩
  | preset =>
      obtain ⟨problems, same⟩ := unread Record.readPreset
      exact ⟨problems, by rw [addRecord, same]; rfl⟩

/-- A line feed in the place of a break opens and closes no string. -/
theorem after_unify_breaks (quotation : Json.Quotation) (text : Text) :
    quotation.after (unifyBreaks text) = quotation.after text := by
  apply Json.Quotation.after_map
  intro quotation char
  split
  next isBreak =>
    apply Json.Quotation.next_eq_next
    · refine ⟨by decide, ?_⟩
      rintro rfl
      cases isBreak
    · refine ⟨by decide, ?_⟩
      rintro rfl
      cases isBreak
  next => rfl

/-- A break in front of a character beyond ASCII stands in a string, as that character does. -/
theorem open_in_front {left right : Text} {char next : Char}
    (guarded : Json.Quotation.outside.Guards (left ++ char :: next :: right))
    (isBreak : isLineBreak char = true) (beyond : 0x80 ≤ next.toNat) :
    Json.Quotation.outside.after left ≠ .outside := by
  have inside := guarded (left ++ [char]) next right (by simp) beyond
  rw [Json.Quotation.after_append] at inside
  refine Json.Quotation.outside_of_next ?_ inside
  rintro rfl
  cases isBreak

/-- Where a mark begins a line, a break stands in front of it. -/
theorem exists_marked_line {text first : Text} {others : List Text} (single : '\r' ∉ text)
    (lines : splitLines text = first :: others)
    (marked : ∃ line ∈ others, line.head? = some guillemet) :
    ∃ left char right front line behind, text = left ++ char :: guillemet :: right ∧
      isLineBreak char = true ∧ splitLines (left ++ ['\n']) = first :: front ∧
      others = front ++ line :: behind ∧ line.head? = some guillemet ∧
      ∀ line ∈ front, line.head? ≠ some guillemet := by
  have found : (others.find? fun line => line.head? = some guillemet).isSome := by
    simpa using marked
  obtain ⟨line, found⟩ := Option.isSome_iff_exists.mp found
  obtain ⟨mark, front, behind, rfl, unmarked⟩ := List.find?_eq_some_iff_append.mp found
  rw [decide_eq_true_eq] at mark
  obtain ⟨left, char, right, rfl, isBreak, before, after⟩ :=
    exists_break single (show splitLines text = (first :: front) ++ line :: behind from lines)
      (List.cons_ne_nil _ _)
  obtain ⟨right, rfl⟩ := head_of_split_lines after mark
  exact ⟨left, char, right, front, line, behind, rfl, isBreak, before, rfl, mark, by simpa using unmarked⟩

/-- A record in which a mark begins a line is cut off inside a string. -/
theorem read_records_interrupted {text first : Text} {others : List Text} (single : '\r' ∉ text)
    (guarded : Json.Quotation.outside.Guards text) (lines : splitLines text = first :: others)
    (marked : ∃ line ∈ others, line.head? = some guillemet) (file : PresetFile) (kind : RecordKind)
    (more : List Text) : ∃ problems,
      readRecords file (some (kind, [first])) (others ++ more) = .error (.badRecord problems) := by
  obtain ⟨left, char, right, front, line, behind, rfl, isBreak, before, rfl, mark, unmarked⟩ :=
    exists_marked_line single lines marked
  have collected : join ['\n'] (first :: front) = unifyBreaks left := by
    rw [← before]
    exact join_lines fun member => single (List.mem_append_left _ member)
  have malformed : ∃ fault, Json.parse Record.bounds (unifyBreaks left) = .error fault := by
    apply Json.parse_of_refused
    apply Json.Token.refused_of_open
    rw [after_unify_breaks]
    exact open_in_front guarded isBreak (by decide)
  obtain ⟨problems, failed⟩ := add_record_malformed malformed file kind
  refine ⟨problems, ?_⟩
  rw [List.append_assoc, read_records_collect unmarked, List.cons_append,
    read_records_marked mark, flush, List.reverse_append, List.reverse_reverse]
  change addRecord file kind (join ['\n'] (first :: front)) >>= _ = _
  rw [collected, failed]
  rfl

theorem add_record_broken {entry : Entry} (broken : ¬entry.IsUnbroken) (file : PresetFile) :
    ∃ problems, addRecord file entry.kind (unifyBreaks entry.json) = .error (.badRecord problems) := by
  simp only [Entry.IsUnbroken, BreaksByLineFeed, not_forall] at broken
  obtain ⟨char, member, isBreak, other⟩ := broken
  have framed : Json.IsFramed entry.json := Json.framed_print_indented entry.flat
  have beyond : 0x80 ≤ char.toNat := by
    have visible : 0x20 ≤ char.toNat := (framed.visible char member).resolve_left other
    simp only [isLineBreak, Bool.or_eq_true, Bool.and_eq_true, decide_eq_true_eq, beq_iff_eq]
      at isBreak
    omega
  obtain ⟨left, right, same⟩ := List.append_of_mem member
  have isOpen := framed.guarded left char right same beyond
  have lineFeed : unifyBreaks (char :: right) = '\n' :: unifyBreaks right := by
    rw [unifyBreaks, List.map_cons, if_pos isBreak, unifyBreaks]
  apply add_record_malformed
  apply Json.parse_of_refused
  rw [same, unify_breaks_append, lineFeed]
  apply Json.Token.refused_of_line_feed
  rw [after_unify_breaks]
  exact isOpen

theorem Entry.json_eq (entry : Entry) : ∃ rest, entry.json = '\x7b' :: rest := by
  rw [Entry.json, Json.printIndented]
  split
  · exact ⟨_, rfl⟩
  · exact ⟨_, rfl⟩

theorem Entry.single (entry : Entry) {part : Text} (begins : part <+: entry.json ++ ['\n']) :
    '\r' ∉ part := by
  intro member
  rcases entry.framed.visible _ (begins.subset member) with same | visible
  · cases same
  · exact absurd visible (by decide)

/-- A line feed stands in no string, so no mark begins a line after one. -/
theorem Entry.broken_of_marked (entry : Entry) {first : Text} {others : List Text}
    (lines : splitLines (entry.json ++ ['\n']) = first :: others)
    (marked : ∃ line ∈ others, line.head? = some guillemet) : ¬entry.IsUnbroken := by
  obtain ⟨left, char, right, -, -, -, same, isBreak, -⟩ :=
    exists_marked_line (entry.single (List.prefix_refl _)) lines marked
  have isOpen := open_in_front (same ▸ entry.framed.guarded) isBreak (by decide)
  intro unbroken
  have lineFeed : char = '\n' := by
    have member : char ∈ entry.json ++ ['\n'] := by simp [same]
    rcases List.mem_append.mp member with member | last
    · exact unbroken char member isBreak
    · exact List.mem_singleton.mp last
  subst lineFeed
  exact isOpen (entry.framed.parted left _ same)

theorem read_records_begun (kind : RecordKind) {text data : Text} {char : Char}
    {others : List Text} (lines : splitLines text = (char :: data) :: others) (file : PresetFile) :
    readRecords file none (splitLines (kind.mark ++ ' ' :: text)) =
      readRecords file (some (kind, [char :: data])) others := by
  have plain : ∀ char ∈ kind.mark ++ [' '], isLineBreak char = false := by
    cases kind with
    | metadata => decide
    | preset => decide
  have start := line_meaning_start kind char data
  have parted := split_lines_plain_append plain lines
  rw [List.append_assoc, List.append_assoc, List.singleton_append, List.singleton_append] at parted
  rw [parted, readRecords, start]
  rfl

theorem read_records_start (entry : Entry) {text first : Text} {others : List Text}
    (lines : splitLines text = first :: others) (begins : first.head? = some '\x7b')
    (file : PresetFile) :
    readRecords file none (splitLines (entry.lead ++ text)) =
      readRecords file (some (entry.kind, [first])) others := by
  obtain ⟨data, rfl⟩ := List.head?_eq_some_iff.mp begins
  rw [Entry.lead, List.append_assoc, List.singleton_append]
  exact read_records_begun entry.kind lines file

/-- A record in which no line begins with a mark is read as a whole, up to the mark behind it. -/
theorem read_records_whole (kind : RecordKind) {text data : Text} {char : Char} {others : List Text}
    (single : '\r' ∉ text) (lines : splitLines (text ++ ['\n']) = (char :: data) :: others)
    (unmarked : ∀ line ∈ others, line.head? ≠ some guillemet) {rest : Text}
    (marked : rest.head? = some guillemet) (file : PresetFile) :
    readRecords file none (splitLines (kind.mark ++ ' ' :: (text ++ '\n' :: rest))) =
      addRecord file kind (unifyBreaks text) >>= fun file =>
        readRecords file none (splitLines rest) := by
  have parted : splitLines (text ++ '\n' :: rest) =
      (char :: data) :: (others ++ splitLines rest) := by
    rw [split_lines_append single rfl (by decide), lines, List.cons_append]
  have collected : join ['\n'] ((char :: data) :: others) = unifyBreaks text := by
    rw [← lines]
    exact join_lines single
  obtain ⟨behind, rfl⟩ := List.head?_eq_some_iff.mp marked
  obtain ⟨line, more, split⟩ :=
    exists_first_line (show isLineBreak guillemet = false from rfl) behind
  rw [read_records_begun kind parted file, read_records_collect unmarked, split,
    read_records_marked rfl, flush, List.reverse_append, List.reverse_reverse]
  change addRecord file kind (join ['\n'] ((char :: data) :: others)) >>= _ = _
  rw [collected]

/-- The part of the file that follows a record does not matter for it, as long as it begins with
a mark. -/
theorem read_records_entry (entry : Entry) {rest : Text} (marked : rest.head? = some guillemet)
    (file : PresetFile) : ∃ added,
      readRecords file none (splitLines (entry.text ++ rest)) =
        (added >>= fun file => readRecords file none (splitLines rest)) ∧
      (entry.IsUnbroken → added = addRecord file entry.kind entry.json) ∧
      (¬entry.IsUnbroken → ∃ problems, added = .error (.badRecord problems)) := by
  obtain ⟨tail, brace⟩ := entry.json_eq
  obtain ⟨data, others, lines⟩ := exists_first_line (show isLineBreak '\x7b' = false from rfl) (tail ++ ['\n'])
  rw [← List.cons_append, ← brace] at lines
  have single := entry.single (List.prefix_refl _)
  have singleJson : '\r' ∉ entry.json := fun member => single (List.mem_append_left _ member)
  have parts : entry.text ++ rest = entry.kind.mark ++ ' ' :: (entry.json ++ '\n' :: rest) := by
    rw [entry.text_eq, Entry.lead]
    simp
  rw [parts]
  by_cases interrupted : ∃ line ∈ others, line.head? = some guillemet
  · have parted : splitLines (entry.json ++ '\n' :: rest) =
        ('\x7b' :: data) :: (others ++ splitLines rest) := by
      rw [split_lines_append singleJson rfl (by decide), lines, List.cons_append]
    obtain ⟨problems, failed⟩ := read_records_interrupted single entry.framed.guarded lines
      interrupted file entry.kind (splitLines rest)
    have broken := entry.broken_of_marked lines interrupted
    rw [read_records_begun entry.kind parted file, failed]
    exact ⟨.error (.badRecord problems), rfl, fun unbroken => absurd unbroken broken,
      fun _ => ⟨problems, rfl⟩⟩
  · have unmarked : ∀ line ∈ others, line.head? ≠ some guillemet := by simpa using interrupted
    refine ⟨addRecord file entry.kind (unifyBreaks entry.json),
      read_records_whole entry.kind singleJson lines unmarked marked file, ?_, ?_⟩
    · intro unbroken
      rw [unify_breaks_of_line_feeds unbroken]
    · intro broken
      exact add_record_broken broken file

theorem flat_text_member (name : String) (value : Text) :
    ∀ member ∈ textMember name value, member.2.IsFlat := by
  unfold textMember
  split
  · simp
  · simp [Json.IsFlat]

def presetEntry (preset : Preset) : Entry where
  kind := .preset
  members := presetMembers preset
  flat := by
    intro member here
    rw [presetMembers] at here
    rcases List.mem_append.mp here with here | here
    · rcases List.mem_cons.mp here with rfl | here
      · trivial
      · exact flat_text_member _ _ member here
    · rw [List.mem_singleton.mp here]
      trivial

def metadataEntry (metadata : Metadata) : Entry where
  kind := .metadata
  members := metadataMembers metadata
  flat := by
    intro member here
    rw [metadataMembers] at here
    rcases List.mem_append.mp here with here | here
    · rcases List.mem_append.mp here with here | here
      · split at here
        · cases here
        · rw [List.mem_singleton.mp here]
          trivial
      · exact flat_text_member _ _ member here
    · exact flat_text_member _ _ member here

def entries (clock : Clock) (file : PresetFile) : List Entry :=
  metadataEntry (stamp clock file.metadata) :: (sortByName file.presets).map presetEntry

theorem text_eq (clock : Clock) (file : PresetFile) :
    text clock file = headerLine ++ '\n' :: (body (entries clock file) ++ ['\n']) := by
  have records : (entries clock file).flatMap Entry.text =
      writeRecord metadataMark (metadataMembers (stamp clock file.metadata)) ++
        (sortByName file.presets).flatMap fun preset =>
          writeRecord presetMark (presetMembers preset) := by
    rw [entries, List.flatMap_cons, List.flatMap_map]
    rfl
  rw [body, records, text]
  simp only [List.append_assoc, List.cons_append, List.nil_append]

theorem write_of_tellable {clock : Clock} {file : PresetFile}
    (tellable : isTellable (stamp clock file.metadata).timestamp = true) :
    write clock file = .ok (text clock file) :=
  if_pos tellable

theorem tellable_of_write {clock : Clock} {file : PresetFile} {written : Text}
    (wrote : write clock file = .ok written) :
    isTellable (stamp clock file.metadata).timestamp = true ∧ written = text clock file := by
  unfold write at wrote
  split at wrote
  next tellable => exact ⟨tellable, (Except.ok.inj wrote).symm⟩
  next => cases wrote

theorem read_header (rest : Text) : read (headerLine ++ '\n' :: rest) =
    (readRecords { metadata := { version := 2 } } none (splitLines rest)).mapError .format := by
  have lines : splitLines (headerLine ++ '\n' :: rest) = headerLine :: splitLines rest :=
    split_lines_append (by decide) rfl (by decide) rest
  rw [read, lines]
  rfl

end PresetFile

end TabletopDice
