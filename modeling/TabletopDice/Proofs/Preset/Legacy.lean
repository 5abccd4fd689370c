import TabletopDice.Proofs.Preset.Refusals
import TabletopDice.Proofs.Preset.RoundTrip
import TabletopDice.Proofs.Preset.TclList

/-!
Files of the old version of the format. They hold the same presets as files of the
current one, in the order of the file. Every text that can stand in braces on one line
comes back, and so does the timestamp if it is not too long to be read.
-/

namespace TabletopDice

open Text

/-- A text that can stand in braces on one line. -/
structure IsLegacyField (text : Text) : Prop extends TclList.IsBraceable text where
  unbroken : ∀ char ∈ text, isLineBreak char = false

instance (text : Text) : Decidable (IsLegacyField text) :=
  decidable_of_iff (TclList.IsBraceable text ∧ ∀ char ∈ text, isLineBreak char = false)
    ⟨fun ⟨braceable, unbroken⟩ => ⟨braceable, unbroken⟩,
      fun ⟨braceable, unbroken⟩ => ⟨braceable, unbroken⟩⟩

structure LegacyFile where
  /-- A number in the digits of any script. -/
  timestamp : Text
  date : Text
  presets : List Preset
  /-- A line feed ends the last line. -/
  closed : Bool
  numeric : IsDigits timestamp
  dated : IsLegacyField date
  fields : ∀ preset ∈ presets,
    IsLegacyField preset.name ∧ IsLegacyField preset.description ∧
      IsLegacyField preset.specification

theorem is_blank_of_separator {char : Char} (separator : TclList.isSeparator char = true) :
    isBlank char = true := by
  simp only [TclList.isSeparator, isBlank, Bool.or_eq_true, Bool.and_eq_true, decide_eq_true_eq,
    beq_iff_eq] at separator ⊢
  rcases separator with rfl | between
  · decide
  · omega

theorem is_blank_of_line_break {char : Char} (isBreak : isLineBreak char = true) :
    isBlank char = true := by
  simp only [isLineBreak, isBlank, Bool.or_eq_true, Bool.and_eq_true, decide_eq_true_eq,
    beq_iff_eq] at isBreak ⊢
  omega

theorem IsLegacyField.storable {text : Text} (field : IsLegacyField text) :
    PresetFile.IsStorable text := by
  intro char member wide
  have visible : 0x20 ≤ char.toNat := by
    unfold Json.IsWideBreak at wide
    omega
  have isBreak := (Json.is_line_break_of_visible visible).mpr wide
  rw [field.unbroken char member] at isBreak
  cases isBreak

namespace LegacyFile

open TclList PresetFile

def metadataLine (file : LegacyFile) : Text := join [' '] [file.timestamp, braced file.date]

def record (preset : Preset) : Text :=
  join [' '] [braced preset.name, braced preset.description, braced preset.specification]

def text (file : LegacyFile) : Text :=
  join ['\n'] ((headerLead ++ ['1'] ++ ' ' :: file.metadataLine) :: file.presets.map record) ++
    if file.closed then ['\n'] else []

def contents (file : LegacyFile) : PresetFile where
  presets := file.presets
  metadata := {
    timestamp := digitsValue file.timestamp, dateTime := file.date, version := 1 }

theorem ordinary_of_digit {char : Char} (digit : isDigit char = true) : IsOrdinary char where
  noSeparator := by
    cases separator : isSeparator char with
    | false => rfl
    | true =>
        rw [not_digit_of_blank char (is_blank_of_separator separator)] at digit
        cases digit
  unmarked := by
    have other {glyph : Char} (noDigit : isDigit glyph = false) : char ≠ glyph :=
      ne_of_beq_false (ne_of_digit digit noDigit)
    exact ⟨other rfl, other rfl, other rfl, other rfl⟩

theorem unbroken_of_digits {digits : Text} (run : IsDigits digits) :
    ∀ char ∈ digits, isLineBreak char = false := by
  intro char member
  cases isBreak : isLineBreak char with
  | false => rfl
  | true =>
      have digit := run.digits char member
      rw [not_digit_of_blank char (is_blank_of_line_break isBreak)] at digit
      cases digit

theorem unbroken_braced {text : Text} (field : IsLegacyField text) :
    ∀ char ∈ braced text, isLineBreak char = false := by
  rw [braced, List.cons_append, List.forall_mem_cons, List.forall_mem_append,
    List.forall_mem_singleton]
  exact ⟨rfl, field.unbroken, rfl⟩

theorem unbroken_join {words : List Text}
    (unbroken : ∀ word ∈ words, ∀ char ∈ word, isLineBreak char = false) :
    ∀ char ∈ join [' '] words, isLineBreak char = false := by
  induction words with
  | nil => exact nofun
  | cons word words ih =>
      obtain ⟨first, others⟩ := List.forall_mem_cons.mp unbroken
      cases words with
      | nil => exact first
      | cons next words =>
          rw [join_cons_cons, List.forall_mem_append, List.forall_mem_append,
            List.forall_mem_singleton]
          exact ⟨⟨first, rfl⟩, ih others⟩

theorem read_record {preset : Preset} (name : IsLegacyField preset.name)
    (description : IsLegacyField preset.description)
    (specification : IsLegacyField preset.specification) :
    readLegacyRecord (record preset) = .ok preset := by
  have listed : TclList.parse (record preset) =
      .ok [preset.name, preset.description, preset.specification] :=
    parse_words (.cons (spells_braced name.toIsBraceable)
      (.cons (spells_braced description.toIsBraceable)
        (.cons (spells_braced specification.toIsBraceable) .nil)))
  rw [readLegacyRecord, listed]
  rfl

theorem read_records_listed {presets : List Preset}
    (each : ∀ preset ∈ presets, readLegacyRecord (record preset) = .ok preset) :
    (presets.map record).mapM readLegacyRecord = .ok presets := by
  induction presets with
  | nil => rfl
  | cons preset presets ih =>
      obtain ⟨first, others⟩ := List.forall_mem_cons.mp each
      rw [List.map_cons, List.mapM_cons, first, ih others]
      rfl

variable (file : LegacyFile)

theorem split_text : splitLines file.text =
    (headerLead ++ ['1'] ++ ' ' :: file.metadataLine) :: file.presets.map record := by
  apply split_lines_join
  · rw [List.forall_mem_cons, List.forall_mem_map]
    constructor
    · refine ⟨nofun, ?_⟩
      rw [List.forall_mem_append, List.forall_mem_cons]
      refine ⟨by decide, rfl, unbroken_join ?_⟩
      rw [List.forall_mem_cons, List.forall_mem_singleton]
      exact ⟨unbroken_of_digits file.numeric, unbroken_braced file.dated⟩
    · intro preset member
      obtain ⟨name, description, specification⟩ := file.fields preset member
      refine ⟨nofun, unbroken_join ?_⟩
      rw [List.forall_mem_cons, List.forall_mem_cons, List.forall_mem_singleton]
      exact ⟨unbroken_braced name, unbroken_braced description, unbroken_braced specification⟩
  · cases file.closed with
    | false => exact .inl rfl
    | true => exact .inr rfl

theorem heads_text : Heads file.text ['1'] (' ' :: file.metadataLine) where
  first := by rw [split_text]; rfl
  run := ⟨by decide, by decide⟩
  stops := stops_cons.mpr rfl

theorem parse_metadata_line :
    TclList.parse file.metadataLine = .ok [file.timestamp, file.date] := by
  have timestamp : Spells file.timestamp file.timestamp :=
    spells_of_ordinary file.numeric.nonempty fun char member =>
      ordinary_of_digit (file.numeric.digits char member)
  exact parse_words (.cons timestamp (.cons (spells_braced file.dated.toIsBraceable) .nil))

theorem read_metadata_line : readLegacyMetadata 1 file.metadataLine =
    if file.timestamp.length ≤ maxDigits then .ok file.contents.metadata
    else .error .unreadableNumber := by
  have numeric : IsNumeric file.timestamp := by
    refine ⟨file.numeric.nonempty, fun char member => ?_⟩
    rw [file.numeric.digits char member, Bool.true_or]
  split
  next short =>
    have decimal : ¬(!file.timestamp.all isDigit) = true := by
      rw [exists_variant_iff]
      rintro ⟨char, member, variant⟩
      rw [file.numeric.digits char member] at variant
      cases variant
    rw [readLegacyMetadata, parse_metadata_line]
    change (if _ then _ else _) = _
    rw [if_neg (is_numeric_iff.mp numeric), if_neg decimal, read_number_of_short short]
    rfl
  next long =>
    exact read_legacy_metadata_eq_unreadable.mpr
      ⟨_, _, file.parse_metadata_line, numeric, .inr (Nat.not_le.mp long)⟩

theorem read_text : read file.text =
    if file.timestamp.length ≤ maxDigits then .ok file.contents else .error .unreadableNumber := by
  have trimmed : trimLeft (' ' :: file.metadataLine) = file.metadataLine := by
    change trimLeft (file.timestamp ++ [' '] ++ _) = file.timestamp ++ [' '] ++ _
    rw [List.append_assoc]
    exact file.numeric.trim_left _
  have records := read_records_listed fun preset member =>
    let ⟨name, description, specification⟩ := file.fields preset member
    read_record name description specification
  rw [read_of_old file.heads_text (by decide) rfl, trimmed, split_text, List.tail_cons, records,
    read_metadata_line]
  split
  · rfl
  · rfl

/-- A file of the old version is read as its presets in their order, with its timestamp and date, if
its timestamp is not too long. A file of the current version that is written with the same
presets is read as the same presets in the order of their names. -/
theorem reads_like_current (clock : Clock) {metadata : Metadata}
    (storable : IsStorableFile { metadata := stamp clock metadata }) :
    (read file.text =
      if file.timestamp.length ≤ maxDigits then .ok file.contents else .error .unreadableNumber) ∧
    ∃ written stored, write clock { presets := file.presets, metadata } = .ok written ∧
      IsSortedByName file.presets stored ∧ read written = .ok {
        presets := stored, metadata := { stamp clock metadata with version := 2 } } := by
  let current : PresetFile := { presets := file.presets, metadata }
  have whole : IsStorableFile { current with metadata := stamp clock current.metadata } := by
    refine ⟨?_, storable.2⟩
    intro preset member
    obtain ⟨name, description, specification⟩ := file.fields preset member
    exact ⟨name.storable, description.storable, specification.storable⟩
  obtain ⟨written, wrote, back⟩ := read_write_stamped clock whole
  exact ⟨file.read_text, written, sortByName file.presets, wrote, sorted_by_name file.presets, back⟩

/-- Nested braces, quotes, blanks and empty fields are kept in both versions. -/
theorem reads_like_current_of_nested_braces :
    let presets : List Preset := [
      { name := "fire \x7b\x7bball\x7d \"x\"\x7d".toList, description := []
        specification := "8d6".toList },
      { name := "axe".toList, description := "\x7b\x7d\t#".toList, specification := "d8".toList }]
    let clock : Clock := { seconds := 1700000000, localTime := "noon".toList }
    ∃ file : LegacyFile, file.presets = presets ∧
      file.text = "__DICE__:1 0042 \x7b\x7d\n".toList ++
        "\x7bfire \x7b\x7bball\x7d \"x\"\x7d\x7d \x7b\x7d \x7b8d6\x7d\n".toList ++
        "\x7baxe\x7d \x7b\x7b\x7d\t#\x7d \x7bd8\x7d".toList ∧
      IsStorableFile { metadata := stamp clock {} } ∧
      read file.text = .ok {
        presets, metadata := { timestamp := 42, version := 1 } } ∧
      ∃ written stored, write clock { presets } = .ok written ∧ IsSortedByName presets stored ∧
        read written = .ok {
        presets := stored
        metadata := { timestamp := 1700000000, dateTime := "noon".toList, version := 2 } } := by
  intro presets clock
  let file : LegacyFile := {
    timestamp := "0042".toList, date := [], presets, closed := false
    numeric := ⟨by decide, by decide⟩
    dated := by decide
    fields := by decide }
  have storable : IsStorableFile { metadata := stamp clock {} } := by
    unfold IsStorableFile IsStorable
    decide +kernel
  obtain ⟨old, current⟩ := file.reads_like_current clock storable
  exact ⟨file, rfl, by decide, storable, old, current⟩

/-- A timestamp of too many digits makes the file unreadable. -/
theorem not_reads_like_current_of_long_timestamp :
    let timestamp : Text := List.replicate (maxDigits + 1) '1'
    let text := "__DICE__:1 ".toList ++ timestamp ++
      " \x7bd\x7d\n\x7ba\x7d \x7b\x7d \x7bd6\x7d".toList
    read text = .error .unreadableNumber ∧ ∀ file, read text ≠ .ok file := by
  intro timestamp text
  let file : LegacyFile := {
    timestamp, date := ['d'], closed := false
    presets := [{ name := ['a'], specification := ['d', '6'] }]
    numeric := ⟨nofun, fun char member => by rw [List.eq_of_mem_replicate member]; rfl⟩
    dated := by decide
    fields := by decide }
  have long : ¬file.timestamp.length ≤ maxDigits := by
    change ¬(List.replicate (maxDigits + 1) '1').length ≤ maxDigits
    rw [List.length_replicate]
    omega
  have same : text = file.text := by
    change "__DICE__:1 ".toList ++ timestamp ++ _ =
      headerLead ++ ['1'] ++ ' ' :: (timestamp ++ [' '] ++ braced ['d']) ++ ['\n'] ++ _ ++ []
    rw [List.append_nil]
    simp only [List.append_assoc, List.cons_append]
    rfl
  have failed : read text = .error .unreadableNumber := by
    rw [same, read_text, if_neg long]
  refine ⟨failed, fun other read => ?_⟩
  rw [failed] at read
  cases read

end LegacyFile

end TabletopDice
