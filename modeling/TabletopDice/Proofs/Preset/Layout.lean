import TabletopDice.Proofs.Json.WhiteSpace
import TabletopDice.Proofs.Preset.Records
import TabletopDice.Proofs.Preset.Refusals

/-!
Files that were laid out by hand. The JSON of a record may be broken over lines anywhere between
its tokens, with blank lines behind it and any text behind the end mark. The reader collects
the lines of one record after the other, none of them begins with a mark, and put together they
have the tokens of the record; so of the layout nothing is seen in what is read.

The lines behind a record belong to it up to the next mark, so JSON decides which of them are blank.
To it only spaces and tabs are, while the lines in front of the first record may hold whatever is
blank in a text.
-/

namespace TabletopDice

open Text

theorem exists_of_append_cons {front tail left right : Text} {char : Char} (absent : char ∉ tail)
    (same : front ++ tail = left ++ char :: right) : ∃ more, front = left ++ char :: more := by
  rcases List.append_eq_append_iff.mp same with ⟨more, -, behind⟩ | ⟨more, before, behind⟩
  · exact absurd (behind ▸ List.mem_append_right more List.mem_cons_self) absent
  · cases more with
    | nil =>
        rw [List.nil_append] at behind
        exact absurd (behind ▸ List.mem_cons_self) absent
    | cons next more =>
        obtain ⟨rfl, -⟩ := List.cons.inj behind
        exact ⟨more, before⟩

namespace Record

variable {Value : Type} {fields : List (Text × Json) → Checked Value} {text other : Text}
  {value : Value}

/-- What is read as a record is the JSON of an object, of which the fields are read. -/
theorem read_eq_ok :
    read fields text = .ok value ↔
      ∃ members, Json.parse bounds text = .ok (.object members) ∧
        (Json.object members).someValue Json.isBroken = false ∧ fields members = .ok value := by
  constructor
  · intro accepted
    unfold read at accepted
    split at accepted
    next => cases accepted
    next whole parsed =>
      dsimp only at accepted
      split at accepted
      next => cases accepted
      next unbroken =>
        split at accepted
        next members =>
          refine ⟨members, parsed, by simpa using unbroken, ?_⟩
          cases result : fields members with
          | ok _ =>
              rw [result] at accepted
              cases accepted
              rfl
          | error _ =>
              rw [result] at accepted
              cases accepted
        next => cases accepted
  · rintro ⟨members, parsed, unbroken, accepted⟩
    rw [read, parsed]
    simp only [unbroken, Bool.false_eq_true, if_false, accepted]
    rfl

theorem read_of_tokens (same : Json.Token.ofText text = Json.Token.ofText other)
    (accepted : read fields text = .ok value) : read fields other = .ok value := by
  rw [read_eq_ok] at accepted ⊢
  rwa [← Json.parse_eq_of_tokens bounds same]

theorem version_of_read {version : Nat} {metadata : Metadata}
    (accepted : read (readMetadata version) text = .ok metadata) : metadata.version = version := by
  obtain ⟨members, -, -, checked⟩ := read_eq_ok.mp accepted
  unfold readMetadata at checked
  dsimp only at checked
  split at checked
  next =>
    cases checked
    rfl
  next => cases checked

end Record

namespace PresetFile

inductive Holding
  | metadata (value : Metadata)
  | preset (value : Preset)
  deriving DecidableEq, Repr

namespace Holding

def kind : Holding → RecordKind
  | metadata _ => .metadata
  | preset _ => .preset

def metadata? : Holding → Option Metadata
  | metadata value => some value
  | preset _ => none

def preset? : Holding → Option Preset
  | metadata _ => none
  | preset value => some value

def IsRead (text : Text) : Holding → Prop
  | metadata value => Record.read (Record.readMetadata 2) text = .ok value
  | preset value => Record.read Record.readPreset text = .ok value

def addTo (file : PresetFile) : Holding → PresetFile
  | metadata value => { file with metadata := value }
  | preset value => { file with presets := file.presets ++ [value] }

variable {holding : Holding} {text other : Text}

theorem IsRead.of_tokens (read : holding.IsRead text)
    (same : Json.Token.ofText text = Json.Token.ofText other) : holding.IsRead other := by
  cases holding with
  | metadata => exact Record.read_of_tokens same read
  | preset => exact Record.read_of_tokens same read

theorem IsRead.parse (read : holding.IsRead text) :
    ∃ members, Json.parse Record.bounds text = .ok (.object members) := by
  cases holding with
  | metadata | preset =>
      obtain ⟨members, parsed, -⟩ := Record.read_eq_ok.mp read
      exact ⟨members, parsed⟩

theorem IsRead.add (read : holding.IsRead text) {file : PresetFile}
    (current : file.metadata.version = 2) :
    addRecord file holding.kind text = .ok (holding.addTo file) := by
  cases holding with
  | metadata =>
      rw [kind, addRecord, current, read]
      rfl
  | preset =>
      rw [kind, addRecord, read]
      rfl

theorem IsRead.version (read : holding.IsRead text) {file : PresetFile}
    (current : file.metadata.version = 2) : (holding.addTo file).metadata.version = 2 := by
  cases holding with
  | metadata => exact Record.version_of_read read
  | preset => exact current

end Holding

/-- A record as it may be laid out: with other white space between the tokens of its JSON, broken
by line feeds alone, and with blank lines behind it. -/
structure LaidRecord where
  holding : Holding
  /-- A text that is accepted as the record. -/
  source : Text
  /-- The text with its tokens in their layout. -/
  json : Text
  /-- The blank lines behind the record. -/
  blanks : List Text
  read : holding.IsRead source
  sameTokens : Json.Token.ofText json = Json.Token.ofText source
  /-- The JSON begins on the line of the mark. -/
  begun : json.head? ≠ some '\n'
  byLineFeed : BreaksByLineFeed json
  blank : ∀ line ∈ blanks, allBlank line = true ∧ ∀ char ∈ line, isLineBreak char = false

namespace LaidRecord

/-- The blank lines behind the record are white space to JSON too. -/
def IsSpaced (record : LaidRecord) : Prop :=
  ∀ line ∈ record.blanks, ∀ char ∈ line, char = ' ' ∨ char = '\t'

instance (record : LaidRecord) : Decidable record.IsSpaced :=
  inferInstanceAs (Decidable (∀ line ∈ record.blanks, ∀ char ∈ line, _))

def data (record : LaidRecord) : Text := record.json ++ record.blanks.flatMap ('\n' :: ·)

def text (record : LaidRecord) : Text :=
  record.holding.kind.mark ++ ' ' :: (record.data ++ ['\n'])

variable (record : LaidRecord)

theorem blank_blanks : ∀ char ∈ record.blanks.flatMap ('\n' :: ·),
    char = '\n' ∨ isBlank char = true ∧ isLineBreak char = false := by
  intro char member
  obtain ⟨line, listed, inside⟩ := List.mem_flatMap.mp member
  obtain ⟨blank, plain⟩ := record.blank line listed
  rcases List.mem_cons.mp inside with rfl | inside
  · exact .inl rfl
  · exact .inr ⟨List.all_eq_true.mp blank char inside, plain char inside⟩

theorem data_by_line_feed : BreaksByLineFeed record.data := by
  intro char member isBreak
  rcases List.mem_append.mp member with json | blanks
  · exact record.byLineFeed char json isBreak
  · rcases record.blank_blanks char blanks with lineFeed | ⟨-, plain⟩
    · exact lineFeed
    · rw [plain] at isBreak
      cases isBreak

theorem single : '\r' ∉ record.data := no_return_of_by_line_feed record.data_by_line_feed

theorem read_json : record.holding.IsRead record.json :=
  record.read.of_tokens record.sameTokens.symm

theorem read_data (spaced : record.IsSpaced) : record.holding.IsRead record.data := by
  have space : ∀ char ∈ record.blanks.flatMap ('\n' :: ·), Json.isSpace char = true := by
    intro char member
    obtain ⟨line, listed, inside⟩ := List.mem_flatMap.mp member
    rcases List.mem_cons.mp inside with rfl | inside
    · rfl
    · rcases spaced line listed char inside with rfl | rfl
      · rfl
      · rfl
  apply record.read.of_tokens
  rw [data, Json.Token.of_text_append_spaces space, record.sameTokens]

theorem exists_first_line : ∃ char data others,
    splitLines (record.data ++ ['\n']) = (char :: data) :: others := by
  cases json : record.json with
  | nil =>
      obtain ⟨parsed, read⟩ := record.read_json.parse
      rw [json] at read
      cases read
  | cons char rest =>
      have plain : isLineBreak char = false := by
        apply Bool.eq_false_iff.mpr
        intro isBreak
        have lineFeed := record.byLineFeed char (json ▸ List.mem_cons_self) isBreak
        subst lineFeed
        exact record.begun (json ▸ rfl)
      obtain ⟨first, others, lines⟩ := Text.exists_first_line plain
        (rest ++ record.blanks.flatMap ('\n' :: ·) ++ ['\n'])
      refine ⟨char, first, others, ?_⟩
      rw [data, json]
      exact lines

/-- The JSON is read, so no line of it begins with a mark behind the first one, and no blank line
does. -/
theorem unmarked {first : Text} {others : List Text}
    (lines : splitLines (record.data ++ ['\n']) = first :: others) :
    ∀ line ∈ others, line.head? ≠ some guillemet := by
  intro line member mark
  have whole : BreaksByLineFeed (record.data ++ ['\n']) :=
    Json.by_line_feed_append.mpr
      ⟨record.data_by_line_feed, fun _ member _ => List.mem_singleton.mp member⟩
  obtain ⟨left, char, right, -, -, -, same, isBreak, -⟩ :=
    exists_marked_line (no_return_of_by_line_feed whole) lines ⟨line, member, mark⟩
  have isLineFeed : char = '\n' := whole char (by simp [same]) isBreak
  have noMark : guillemet ∉ record.blanks.flatMap ('\n' :: ·) ++ ['\n'] := by
    intro inside
    rcases List.mem_append.mp inside with inside | inside
    · rcases record.blank_blanks guillemet inside with lineFeed | ⟨blank, -⟩
      · cases lineFeed
      · cases blank
    · exact absurd inside (by decide)
  have parts : record.json ++ (record.blanks.flatMap ('\n' :: ·) ++ ['\n']) =
      (left ++ ['\n']) ++ guillemet :: right := by
    rw [← List.append_assoc, ← data, same, isLineFeed, List.append_assoc, List.singleton_append]
  obtain ⟨more, json⟩ := exists_of_append_cons noMark parts
  obtain ⟨parsed, read⟩ := record.read_json.parse
  obtain ⟨fault, failed⟩ := Json.parse_of_line_foreign Record.bounds left
    (Json.Token.foreign_of_beyond (show 0x80 ≤ guillemet.toNat by decide)) more
  rw [json, List.append_assoc, List.singleton_append, failed] at read
  cases read

theorem read_records {rest : Text} (marked : rest.head? = some guillemet) (file : PresetFile) :
    readRecords file none (splitLines (record.text ++ rest)) =
      addRecord file record.holding.kind record.data >>= fun file =>
        readRecords file none (splitLines rest) := by
  obtain ⟨char, data, others, lines⟩ := record.exists_first_line
  have parts : record.text ++ rest =
      record.holding.kind.mark ++ ' ' :: (record.data ++ '\n' :: rest) := by
    simp [text]
  rw [parts, read_records_whole _ record.single lines (record.unmarked lines) marked,
    unify_breaks_of_line_feeds record.data_by_line_feed]

/-- A blank character that is no white space to JSON follows the record and some white space. -/
theorem exists_foreign (unspaced : ¬record.IsSpaced) :
    ∃ spaces space char rest,
      record.blanks.flatMap ('\n' :: ·) = spaces ++ space :: char :: rest ∧
        Json.isSpace space = true ∧ Json.Token.IsForeign char := by
  simp only [IsSpaced, not_forall, not_or] at unspaced
  obtain ⟨line, listed, other, inside, noBlank, noTab⟩ := unspaced
  obtain ⟨blank, plain⟩ := record.blank line listed
  have noSpace : Json.isSpace other = false := by
    have noLineFeed : other ≠ '\n' := by
      rintro rfl
      cases plain '\n' inside
    have noReturn : other ≠ '\r' := by
      rintro rfl
      cases plain '\r' inside
    simp [Json.isSpace, noBlank, noTab, noLineFeed, noReturn]
  have found : (line.find? fun char => !Json.isSpace char).isSome :=
    List.find?_isSome.mpr ⟨other, inside, by rw [noSpace]; rfl⟩
  obtain ⟨char, found⟩ := Option.isSome_iff_exists.mp found
  obtain ⟨first, front, right, rfl, spaces⟩ := List.find?_eq_some_iff_append.mp found
  obtain ⟨initial, space, ends⟩ : ∃ initial space, '\n' :: front = initial ++ [space] :=
    ⟨_, _, (List.dropLast_concat_getLast (List.cons_ne_nil '\n' front)).symm⟩
  have isSpace : Json.isSpace space = true := by
    have member : space ∈ '\n' :: front := ends ▸ List.mem_append_right initial List.mem_cons_self
    rcases List.mem_cons.mp member with rfl | member
    · rfl
    · simpa using spaces space member
  obtain ⟨before, behind, lines⟩ := List.append_of_mem listed
  refine ⟨before.flatMap ('\n' :: ·) ++ initial, space, char,
    right ++ behind.flatMap ('\n' :: ·), ?_, isSpace, ?_⟩
  · rw [lines, List.flatMap_append, List.flatMap_cons, ← List.cons_append, ← List.cons_append, ends]
    simp
  · have isBlank := List.all_eq_true.mp blank char (by simp)
    exact Json.Token.foreign_of_blank isBlank (by simpa using first)

theorem add_unspaced (unspaced : ¬record.IsSpaced) (file : PresetFile) :
    ∃ problems, addRecord file record.holding.kind record.data = .error (.badRecord problems) := by
  obtain ⟨spaces, space, char, rest, same, isSpace, foreign⟩ := record.exists_foreign unspaced
  obtain ⟨members, read⟩ := record.read_json.parse
  have noQuote : '"' ∉ spaces := by
    intro member
    rcases record.blank_blanks '"' (same ▸ List.mem_append_left _ member) with lineFeed | ⟨blank, -⟩
    · cases lineFeed
    · cases blank
  have outside : Json.Quotation.outside.after (record.json ++ spaces) = .outside := by
    rw [Json.Quotation.after_append, Json.closed_of_parse read, Json.after_of_no_quote noQuote]
  apply add_record_malformed
  rw [data, same, ← List.append_assoc]
  exact Json.parse_of_foreign Record.bounds _ foreign rest outside isSpace

theorem version_add (record : LaidRecord) {file : PresetFile}
    (current : file.metadata.version = 2) : (record.holding.addTo file).metadata.version = 2 :=
  record.read.version current

end LaidRecord

structure Layout where
  /-- What follows the version in the first line. -/
  note : Text
  /-- The blank lines in front of the first record. -/
  leading : List Text
  records : List LaidRecord
  /-- What follows the end mark. -/
  trailing : Text
  noDigit : Stops isDigit note
  oneLine : ∀ char ∈ note, isLineBreak char = false
  blank : ∀ line ∈ leading, allBlank line = true ∧ ∀ char ∈ line, isLineBreak char = false
  ended : ∀ char ∈ trailing.head?, isLineBreak char = true

namespace Layout

def text (layout : Layout) : Text :=
  headerLine ++ layout.note ++ '\n' :: (layout.leading.flatMap (· ++ ['\n']) ++
    (layout.records.flatMap LaidRecord.text ++ (endMark ++ layout.trailing)))

def IsSpaced (layout : Layout) : Prop := ∀ record ∈ layout.records, record.IsSpaced

instance (layout : Layout) : Decidable layout.IsSpaced :=
  inferInstanceAs (Decidable (∀ record ∈ layout.records, record.IsSpaced))

/-- All presets in their order, and the last metadata. -/
def contents (layout : Layout) : PresetFile where
  presets := layout.records.filterMap fun record => record.holding.preset?
  metadata :=
    (layout.records.filterMap fun record => record.holding.metadata?).getLast?.getD { version := 2 }

theorem read_header_line {note : Text} (noDigit : Stops isDigit note)
    (oneLine : ∀ char ∈ note, isLineBreak char = false) (rest : Text) :
    read (headerLine ++ note ++ '\n' :: rest) =
      (readRecords { metadata := { version := 2 } } none (splitLines rest)).mapError .format := by
  have plain : ∀ char ∈ headerLine ++ note, isLineBreak char = false :=
    List.forall_mem_append.mpr ⟨by decide, oneLine⟩
  have header : readHeader? (headerLine ++ note) = some (['2'], trimLeft note) :=
    read_header_eq_some.mpr ⟨note, rfl, ⟨List.cons_ne_nil _ _, by decide⟩, noDigit, rfl⟩
  rw [read, split_lines_line_feed_append plain]
  simp only [header]
  rfl

theorem read_records_blank {leading : List Text}
    (blank : ∀ line ∈ leading, allBlank line = true ∧ ∀ char ∈ line, isLineBreak char = false)
    (file : PresetFile) (rest : Text) :
    readRecords file none (splitLines (leading.flatMap (· ++ ['\n']) ++ rest)) =
      readRecords file none (splitLines rest) := by
  induction leading with
  | nil => rfl
  | cons line leading ih =>
      obtain ⟨⟨isBlank, plain⟩, others⟩ := List.forall_mem_cons.mp blank
      rw [List.flatMap_cons, List.append_assoc, List.append_assoc, List.singleton_append,
        split_lines_line_feed_append plain, readRecords, lineMeaning, if_pos isBlank, ← ih others]
      rfl

theorem read_records_end {trailing : Text}
    (ended : ∀ char ∈ trailing.head?, isLineBreak char = true) (file : PresetFile) :
    readRecords file none (splitLines (endMark ++ trailing)) = .ok file := by
  have plain : ∀ char ∈ endMark, isLineBreak char = false := by decide
  obtain ⟨lines, split⟩ := exists_lines_behind plain (List.cons_ne_nil _ _) ended
  rw [split]
  rfl

theorem marked_records (records : List LaidRecord) (trailing : Text) :
    (records.flatMap LaidRecord.text ++ (endMark ++ trailing)).head? = some guillemet := by
  cases records with
  | nil => rfl
  | cons next records =>
      rw [List.flatMap_cons, LaidRecord.text]
      cases next.holding with
      | metadata => rfl
      | preset => rfl

theorem read_records_spaced {records : List LaidRecord}
    (spaced : ∀ record ∈ records, record.IsSpaced) {trailing : Text}
    (ended : ∀ char ∈ trailing.head?, isLineBreak char = true) {file : PresetFile}
    (current : file.metadata.version = 2) :
    readRecords file none (splitLines (records.flatMap LaidRecord.text ++ (endMark ++ trailing))) =
      .ok (records.foldl (fun file record => record.holding.addTo file) file) := by
  induction records generalizing file with
  | nil => exact read_records_end ended file
  | cons record records ih =>
      obtain ⟨here, others⟩ := List.forall_mem_cons.mp spaced
      rw [List.flatMap_cons, List.append_assoc,
        record.read_records (marked_records records trailing), (record.read_data here).add current]
      exact ih others (record.version_add current)

/-- The first record with other characters in the blank lines behind it fails. -/
theorem read_records_unspaced {records : List LaidRecord}
    (unspaced : ¬∀ record ∈ records, record.IsSpaced) (trailing : Text) {file : PresetFile}
    (current : file.metadata.version = 2) :
    ∃ problems, readRecords file none
      (splitLines (records.flatMap LaidRecord.text ++ (endMark ++ trailing))) =
        .error (.badRecord problems) := by
  induction records generalizing file with
  | nil => exact absurd (List.forall_mem_nil _) unspaced
  | cons record records ih =>
      rw [List.flatMap_cons, List.append_assoc,
        record.read_records (marked_records records trailing)]
      by_cases here : record.IsSpaced
      · rw [(record.read_data here).add current]
        exact ih (fun others => unspaced (List.forall_mem_cons.mpr ⟨here, others⟩))
          (record.version_add current)
      · obtain ⟨problems, failed⟩ := record.add_unspaced here file
        exact ⟨problems, by rw [failed]; rfl⟩

theorem foldl_add (records : List LaidRecord) (file : PresetFile) :
    records.foldl (fun file record => record.holding.addTo file) file =
      { presets := file.presets ++ records.filterMap fun record => record.holding.preset?
        metadata :=
          (records.filterMap fun record => record.holding.metadata?).getLast?.getD file.metadata } := by
  induction records generalizing file with
  | nil => simp
  | cons record records ih =>
      rw [List.foldl_cons, ih]
      cases held : record.holding with
      | metadata value =>
          simp [Holding.addTo, Holding.preset?, Holding.metadata?, held, List.getLast?_cons]
      | preset value => simp [Holding.addTo, Holding.preset?, Holding.metadata?, held]

theorem version_foldl_add (records : List LaidRecord) {file : PresetFile}
    (current : file.metadata.version = 2) :
    (records.foldl (fun file record => record.holding.addTo file) file).metadata.version = 2 := by
  induction records generalizing file with
  | nil => exact current
  | cons record records ih => exact ih (record.version_add current)

section Reading

variable (layout : Layout)

theorem read_text :
    read layout.text = (readRecords { metadata := { version := 2 } } none
      (splitLines (layout.records.flatMap LaidRecord.text ++ (endMark ++ layout.trailing)))).mapError
        .format := by
  rw [text, read_header_line layout.noDigit layout.oneLine, read_records_blank layout.blank]

theorem contents_eq_foldl :
    layout.contents = layout.records.foldl (fun file record => record.holding.addTo file)
      { metadata := { version := 2 } } :=
  (foldl_add layout.records { metadata := { version := 2 } }).symm

theorem read_of_spaced (spaced : layout.IsSpaced) : read layout.text = .ok layout.contents := by
  rw [layout.read_text, read_records_spaced spaced layout.ended rfl, layout.contents_eq_foldl]
  rfl

theorem refused_of_unspaced (unspaced : ¬layout.IsSpaced) :
    ∃ problems, read layout.text = .error (.format (.badRecord problems)) := by
  obtain ⟨problems, failed⟩ := read_records_unspaced unspaced layout.trailing
    (show ({ metadata := { version := 2 } } : PresetFile).metadata.version = 2 from rfl)
  exact ⟨problems, by rw [layout.read_text, failed]; rfl⟩

/-- Of the layout of a file nothing is seen in what is read: the presets in their order, and the
last metadata as a whole, or the defaults if there are none, of the current version. Only a blank
line behind a record must not hold more than spaces and tabs, or the record is refused. -/
theorem read_layout :
    layout.contents.metadata.version = 2 ∧
      (layout.IsSpaced → read layout.text = .ok layout.contents) ∧
      (¬layout.IsSpaced →
        ∃ problems, read layout.text = .error (.format (.badRecord problems))) := by
  refine ⟨?_, layout.read_of_spaced, layout.refused_of_unspaced⟩
  rw [layout.contents_eq_foldl]
  exact version_foldl_add layout.records rfl

end Reading

/-- Records that are broken in odd places, two of them metadata, with blank lines in between and a
mark in a string, one behind the other. -/
theorem read_layout_of_scattered_records :
    let lines := ["__DICE__:2 by hand", " \u00a0", "«__META__» \x7b", "\"Timestamp\"",
      ":5,\"Comment\"", ":\t\"old\"\x7d", "", " \t", "«PRESET» \x7b\"Name\":", "",
      "\"«__EOF__»\",\"DieRollSpec\"", ":\"8d6\"", "\x7d", "«__META__» \x7b\"comment\"",
      ":\"new\"\x7d", "«PRESET»  \x7b", "\"spec\":\"d20\",", "\"name\":\"axe\"\x7d", ""]
    let text := (lines.flatMap fun line => line.toList ++ ['\n']) ++
      "«__EOF__»\r«PRESET» \x7b".toList
    let contents : PresetFile := {
      presets := [{ name := "«__EOF__»".toList, specification := "8d6".toList },
        { name := "axe".toList, specification := "d20".toList }]
      metadata := { comment := "new".toList, version := 2 } }
    ∃ layout : Layout, layout.text = text ∧ layout.contents = contents ∧
      read text = .ok contents := by
  intro lines text contents
  let old : LaidRecord := {
    holding := .metadata { timestamp := 5, comment := "old".toList, version := 2 }
    source := "\x7b\"Timestamp\": 5, \"Comment\": \"old\"\x7d".toList
    json := "\x7b\n\"Timestamp\"\n:5,\"Comment\"\n:\t\"old\"\x7d".toList
    blanks := [[], " \t".toList]
    read := eq_ok_of_to_option (by decide +kernel)
    sameTokens := by decide +kernel
    begun := by decide
    byLineFeed := by decide +kernel
    blank := by decide }
  let marked : LaidRecord := {
    holding := .preset { name := "«__EOF__»".toList, specification := "8d6".toList }
    source := "\x7b\"Name\": \"«__EOF__»\", \"DieRollSpec\": \"8d6\"\x7d".toList
    json := "\x7b\"Name\":\n\n\"«__EOF__»\",\"DieRollSpec\"\n:\"8d6\"\n\x7d".toList
    blanks := []
    read := eq_ok_of_to_option (by decide +kernel)
    sameTokens := by decide +kernel
    begun := by decide
    byLineFeed := by decide +kernel
    blank := by decide }
  let new : LaidRecord := {
    holding := .metadata { comment := "new".toList, version := 2 }
    source := "\x7b\"comment\": \"new\"\x7d".toList
    json := "\x7b\"comment\"\n:\"new\"\x7d".toList
    blanks := []
    read := eq_ok_of_to_option (by decide +kernel)
    sameTokens := by decide +kernel
    begun := by decide
    byLineFeed := by decide +kernel
    blank := by decide }
  let axe : LaidRecord := {
    holding := .preset { name := "axe".toList, specification := "d20".toList }
    source := "\x7b\"spec\": \"d20\", \"name\": \"axe\"\x7d".toList
    json := " \x7b\n\"spec\":\"d20\",\n\"name\":\"axe\"\x7d".toList
    blanks := [[]]
    read := eq_ok_of_to_option (by decide +kernel)
    sameTokens := by decide +kernel
    begun := by decide
    byLineFeed := by decide +kernel
    blank := by decide }
  let layout : Layout := {
    note := " by hand".toList
    leading := [" \u00a0".toList]
    records := [old, marked, new, axe]
    trailing := "\r«PRESET» \x7b".toList
    noDigit := stops_cons.mpr rfl
    oneLine := by decide
    blank := by decide
    ended := by
      rintro char ⟨⟩
      rfl }
  have written : layout.text = text := by decide +kernel
  have held : layout.contents = contents := by decide +kernel
  have back := (read_layout layout).2.1 (by decide)
  rw [written, held] at back
  exact ⟨layout, written, held, back⟩

/-- A line behind the record that holds a no-break space is blank, and refused. -/
theorem not_read_layout_of_no_break_space :
    let text := ("__DICE__:2\n«PRESET» \x7b\"Name\": \"a\", \"DieRollSpec\": \"d6\"\x7d\n" ++
      "\u00a0\n«__EOF__»\n").toList
    let contents : PresetFile := {
      presets := [{ name := "a".toList, specification := "d6".toList }]
      metadata := { version := 2 } }
    ∃ layout : Layout, layout.text = text ∧ layout.contents = contents ∧
      read text ≠ .ok contents ∧ ∃ problems, read text = .error (.format (.badRecord problems)) := by
  intro text contents
  let json := "\x7b\"Name\": \"a\", \"DieRollSpec\": \"d6\"\x7d".toList
  let record : LaidRecord := {
    holding := .preset { name := "a".toList, specification := "d6".toList }
    source := json
    json := json
    blanks := ["\u00a0".toList]
    read := eq_ok_of_to_option (by decide +kernel)
    sameTokens := rfl
    begun := by decide
    byLineFeed := by decide +kernel
    blank := by decide }
  let layout : Layout := {
    note := []
    leading := []
    records := [record]
    trailing := ['\n']
    noDigit := stops_nil isDigit
    oneLine := by decide
    blank := by decide
    ended := by
      rintro char ⟨⟩
      rfl }
  have written : layout.text = text := by decide +kernel
  obtain ⟨problems, failed⟩ := layout.refused_of_unspaced (by decide)
  rw [written] at failed
  refine ⟨layout, written, by decide +kernel, ?_, problems, failed⟩
  rw [failed]
  rintro ⟨⟩

end Layout

end PresetFile

end TabletopDice
