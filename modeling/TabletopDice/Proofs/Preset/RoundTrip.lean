import Mathlib.Data.List.Pairwise
import TabletopDice.Proofs.Preset.Records

/-!
A written file read back. The records come back one by one, the presets in the order
of their names. The format cannot carry texts with the Unicode line breaks, which are
written as themselves, nor a timestamp that is too long to be read.
-/

namespace TabletopDice

open Text

namespace Text

theorem is_ordered_cons {char next : Char} {rest more : Text} :
    isOrdered (char :: rest) (next :: more) = true ↔
      char.toNat < next.toNat ∨ char.toNat = next.toNat ∧ isOrdered rest more = true := by
  rw [isOrdered, Bool.or_eq_true, Bool.and_eq_true, decide_eq_true_eq, beq_iff_eq, Char.toNat_inj]

theorem is_ordered_iff (left right : Text) :
    isOrdered left right = true ↔ ¬List.Lex (· < ·) (right.map Char.toNat) (left.map Char.toNat) := by
  induction left generalizing right with
  | nil => simp [isOrdered]
  | cons char rest ih =>
      cases right with
      | nil => simp [isOrdered]
      | cons next more =>
          rw [is_ordered_cons, ih, List.map_cons, List.map_cons, List.cons_lex_cons_iff, not_or,
            not_and]
          rcases Nat.lt_trichotomy char.toNat next.toNat with less | same | greater
          · exact iff_of_true (.inl less) ⟨by omega, fun same => by omega⟩
          · simp [same]
          · exact iff_of_false (by omega) (by omega)

theorem is_ordered_trans {first second third : Text} (one : isOrdered first second = true)
    (other : isOrdered second third = true) : isOrdered first third = true := by
  induction first generalizing second third with
  | nil => rfl
  | cons char rest ih =>
      cases second with
      | nil => cases one
      | cons next more =>
          cases third with
          | nil => cases other
          | cons last behind =>
              rw [is_ordered_cons] at one other ⊢
              rcases one with less | ⟨same, one⟩
              · left
                omega
              · rcases other with less | ⟨alike, other⟩
                · left
                  omega
                · exact .inr ⟨same.trans alike, ih one other⟩

theorem is_ordered_total (first second : Text) :
    isOrdered first second = true ∨ isOrdered second first = true := by
  induction first generalizing second with
  | nil => exact .inl rfl
  | cons char rest ih =>
      cases second with
      | nil => exact .inr rfl
      | cons next more =>
          rw [is_ordered_cons, is_ordered_cons]
          rcases Nat.lt_trichotomy char.toNat next.toNat with less | same | greater
          · exact .inl (.inl less)
          · rcases ih more with one | other
            · exact .inl (.inr ⟨same, one⟩)
            · exact .inr (.inr ⟨same.symm, other⟩)
          · exact .inr (.inl greater)

end Text

namespace PresetFile

/-- The presets in the order of the code points of their names, where equal names keep their
order. -/
structure IsSortedByName (presets stored : List Preset) : Prop where
  same : stored.Perm presets
  ordered : stored.Pairwise fun first second =>
    ¬List.Lex (· < ·) (second.name.map Char.toNat) (first.name.map Char.toNat)
  stable : ∀ name, stored.filter (·.name = name) = presets.filter (·.name = name)

theorem sorted_by_name (presets : List Preset) : IsSortedByName presets (sortByName presets) := by
  have trans (first second third : Preset) (one : isOrdered first.name second.name = true)
      (other : isOrdered second.name third.name = true) :
      isOrdered first.name third.name = true := is_ordered_trans one other
  have total (first second : Preset) :
      (isOrdered first.name second.name || isOrdered second.name first.name) = true := by
    rw [Bool.or_eq_true]
    exact is_ordered_total first.name second.name
  have same : (sortByName presets).Perm presets := List.mergeSort_perm presets _
  refine ⟨same, ?_, fun name => ?_⟩
  · exact (List.pairwise_mergeSort trans total presets).imp fun ordered =>
      (is_ordered_iff _ _).mp ordered
  · -- The presets of one name are in order as they are, so sorting keeps them.
    have alike : (presets.filter (·.name = name)).Pairwise fun first second =>
        isOrdered first.name second.name = true := by
      apply List.pairwise_of_forall_mem_list
      intro first one second other
      have firstName := decide_eq_true_eq.mp (List.mem_filter.mp one).2
      have secondName := decide_eq_true_eq.mp (List.mem_filter.mp other).2
      rw [firstName, secondName]
      exact or_self_iff.mp (is_ordered_total name name)
    have kept := (List.sublist_mergeSort trans total alike List.filter_sublist).filter (·.name = name)
    rw [List.filter_filter] at kept
    simp only [Bool.and_self] at kept
    exact (kept.eq_of_length (same.filter _).length_eq.symm).symm

def addEntries (file : PresetFile) (entries : List Entry) : Except PresetError PresetFile :=
  entries.foldlM (fun file entry => addRecord file entry.kind entry.json) file

theorem read_records_body {entries : List Entry} (unbroken : ∀ entry ∈ entries, entry.IsUnbroken)
    (file : PresetFile) :
    readRecords file none (splitLines (body entries ++ ['\n'])) = addEntries file entries := by
  induction entries generalizing file with
  | nil => rfl
  | cons entry entries ih =>
      obtain ⟨first, others⟩ := List.forall_mem_cons.mp unbroken
      obtain ⟨rest, begun⟩ := body_eq entries
      have marked : (body entries ++ ['\n']).head? = some guillemet := by
        rw [begun]
        rfl
      obtain ⟨added, read, same, -⟩ := read_records_entry entry marked file
      rw [body_cons, List.append_assoc, read, same first, addEntries, List.foldlM_cons]
      congr
      funext next
      exact ih others next

theorem read_records_broken {entries : List Entry} {entry : Entry} (here : entry ∈ entries)
    (broken : ¬entry.IsUnbroken) (file : PresetFile) : ∃ problems,
      readRecords file none (splitLines (body entries ++ ['\n'])) = .error (.badRecord problems) := by
  induction entries generalizing file with
  | nil => cases here
  | cons first entries ih =>
      obtain ⟨rest, begun⟩ := body_eq entries
      have marked : (body entries ++ ['\n']).head? = some guillemet := by
        rw [begun]
        rfl
      obtain ⟨added, read, same, failed⟩ := read_records_entry first marked file
      rw [body_cons, List.append_assoc, read]
      by_cases unbroken : first.IsUnbroken
      · rw [same unbroken]
        have only := add_record_fails_only file first.kind first.json
        cases result : addRecord file first.kind first.json with
        | error error =>
            obtain ⟨problems, rfl⟩ := only error result
            exact ⟨problems, rfl⟩
        | ok next =>
            rcases List.mem_cons.mp here with rfl | here
            · exact absurd unbroken broken
            · exact ih here next
      · obtain ⟨problems, rfl⟩ := failed unbroken
        exact ⟨problems, rfl⟩

def IsStorable (text : Text) : Prop := ∀ char ∈ text, ¬Json.IsWideBreak char

theorem storable_text_member {name : String} {value : Text} (ascii : IsStorable name.toList) :
    (∀ member ∈ textMember name value, IsStorable member.1 ∧ IsStorable member.2.held) ↔
      IsStorable value := by
  unfold textMember
  split
  next empty =>
    rw [List.isEmpty_iff.mp empty]
    exact iff_of_true (by simp) (by simp [IsStorable])
  next =>
    rw [List.forall_mem_singleton]
    exact and_iff_right ascii

theorem unbroken_preset_entry (preset : Preset) : (presetEntry preset).IsUnbroken ↔
    IsStorable preset.name ∧ IsStorable preset.description ∧ IsStorable preset.specification := by
  have name : IsStorable "Name".toList := by unfold IsStorable; decide
  have description : IsStorable "Description".toList := by unfold IsStorable; decide
  have specification : IsStorable "DieRollSpec".toList := by unfold IsStorable; decide
  refine (Json.by_line_feed_print_indented (presetEntry preset).flat).trans ?_
  change (∀ member ∈ presetMembers preset, IsStorable member.1 ∧ IsStorable member.2.held) ↔ _
  rw [presetMembers, List.forall_mem_append, List.forall_mem_cons, List.forall_mem_singleton,
    storable_text_member description, and_assoc]
  exact and_congr (and_iff_right name) (and_congr Iff.rfl (and_iff_right specification))

theorem unbroken_metadata_entry (metadata : Metadata) : (metadataEntry metadata).IsUnbroken ↔
    IsStorable metadata.dateTime ∧ IsStorable metadata.comment := by
  have timestamp : IsStorable "Timestamp".toList := by unfold IsStorable; decide
  have dateTime : IsStorable "DateTime".toList := by unfold IsStorable; decide
  have comment : IsStorable "Comment".toList := by unfold IsStorable; decide
  refine (Json.by_line_feed_print_indented (metadataEntry metadata).flat).trans ?_
  change (∀ member ∈ metadataMembers metadata, IsStorable member.1 ∧ IsStorable member.2.held) ↔ _
  rw [metadataMembers, List.forall_mem_append, List.forall_mem_append, storable_text_member dateTime,
    storable_text_member comment, and_assoc]
  apply and_iff_right
  split
  · simp
  · rw [List.forall_mem_singleton]
    exact ⟨timestamp, fun char member => absurd member List.not_mem_nil⟩

theorem not_broken_of_flat {members : List (Text × Json)}
    (flat : ∀ member ∈ members, member.2.IsFlat) :
    (Json.object members).someValue Json.isBroken = false := by
  change Json.someMember Json.isBroken members = false
  induction members with
  | nil => rfl
  | cons member members ih =>
      obtain ⟨name, value⟩ := member
      obtain ⟨first, others⟩ := List.forall_mem_cons.mp flat
      have whole : value.someValue Json.isBroken = false := by
        cases value with
        | string _ | integer _ => rfl
        | _ => cases first
      rw [Json.someMember, whole, Bool.false_or, ih others]

theorem read_of_parse {Value : Type} {fields : List (Text × Json) → Checked Value} {data : Text}
    {members : List (Text × Json)} (parsed : Json.parse Record.bounds data = .ok (.object members))
    (flat : ∀ member ∈ members, member.2.IsFlat) :
    Record.read fields data = (fields members).mapError .badRecord := by
  rw [Record.read, parsed]
  simp only [not_broken_of_flat flat, Bool.false_eq_true, if_false]

theorem read_preset_members (preset : Preset) :
    Record.readPreset (presetMembers preset) = .ok preset := by
  obtain ⟨name, description, specification⟩ := preset
  cases description with
  | nil => rfl
  | cons char rest => rfl

theorem read_metadata_members (version : Nat) (metadata : Metadata) :
    Record.readMetadata version (metadataMembers metadata) = .ok { metadata with version } := by
  obtain ⟨timestamp, dateTime, comment, old⟩ := metadata
  unfold metadataMembers textMember
  by_cases zero : timestamp = 0
  · subst zero
    cases dateTime <;> cases comment <;> rfl
  · simp only [zero, if_false]
    cases dateTime <;> cases comment <;> rfl

theorem within_text (text : Text) : (Json.string text).IsWithin Record.bounds := by
  intro refused
  obtain ⟨char, -, member⟩ := List.mem_flatMap.mp refused
  exact absurd ((Json.escaped_escape_char char).visible '\n' member) (by decide)

theorem within_text_member (name : String) (value : Text) :
    ∀ member ∈ textMember name value, member.2.IsWithin Record.bounds := by
  unfold textMember
  split
  · simp
  · rw [List.forall_mem_singleton]
    exact within_text value

theorem within_metadata {metadata : Metadata} (tellable : isTellable metadata.timestamp = true) :
    ∀ member ∈ metadataMembers metadata, member.2.IsWithin Record.bounds := by
  have within : (Json.integer metadata.timestamp).IsWithin Record.bounds := by
    intro refused
    change Record.bounds.excludes (ofInt metadata.timestamp) = true at refused
    rw [Json.excludes_of_int, tellable] at refused
    cases refused
  rw [metadataMembers, List.forall_mem_append, List.forall_mem_append]
  refine ⟨⟨?_, within_text_member _ _⟩, within_text_member _ _⟩
  split
  · simp
  · rw [List.forall_mem_singleton]
    exact within

theorem add_preset_entry (file : PresetFile) (preset : Preset) :
    addRecord file .preset (presetEntry preset).json =
      .ok { file with presets := file.presets ++ [preset] } := by
  have within : ∀ member ∈ presetMembers preset, member.2.IsWithin Record.bounds := by
    rw [presetMembers, List.forall_mem_append, List.forall_mem_cons, List.forall_mem_singleton]
    exact ⟨⟨within_text _, within_text_member _ _⟩, within_text _⟩
  have flat := (presetEntry preset).flat
  have parsed := Json.parse_print_indented flat within (by decide)
  have read : Record.read Record.readPreset (presetEntry preset).json = .ok preset := by
    rw [Entry.json, read_of_parse parsed flat]
    change (Record.readPreset (presetMembers preset)).mapError _ = _
    rw [read_preset_members]
    rfl
  rw [addRecord, read]
  rfl

theorem add_metadata_entry {metadata : Metadata} (tellable : isTellable metadata.timestamp = true)
    (file : PresetFile) : addRecord file .metadata (metadataEntry metadata).json =
      .ok { file with metadata := { metadata with version := file.metadata.version } } := by
  have flat := (metadataEntry metadata).flat
  have parsed := Json.parse_print_indented flat (within_metadata tellable) (by decide)
  have read : Record.read (Record.readMetadata file.metadata.version) (metadataEntry metadata).json =
      .ok { metadata with version := file.metadata.version } := by
    rw [Entry.json, read_of_parse parsed flat]
    change (Record.readMetadata _ (metadataMembers metadata)).mapError _ = _
    rw [read_metadata_members]
    rfl
  rw [addRecord, read]
  rfl

theorem add_presets (file : PresetFile) (presets : List Preset) :
    addEntries file (presets.map presetEntry) =
      .ok { file with presets := file.presets ++ presets } := by
  induction presets generalizing file with
  | nil => rw [List.append_nil]; rfl
  | cons preset presets ih =>
      have first := add_preset_entry file preset
      have behind := ih { file with presets := file.presets ++ [preset] }
      rw [List.append_assoc, List.singleton_append] at behind
      rw [← behind, addEntries, List.map_cons, List.foldlM_cons]
      change addRecord file .preset (presetEntry preset).json >>= _ = _
      rw [first]
      rfl

/-- No text in the file holds a line break that is written as itself, and the timestamp can be
told. -/
def IsStorableFile (file : PresetFile) : Prop :=
  (∀ preset ∈ file.presets, IsStorable preset.name ∧ IsStorable preset.description ∧
      IsStorable preset.specification) ∧
    IsStorable file.metadata.dateTime ∧ IsStorable file.metadata.comment ∧
      isTellable file.metadata.timestamp = true

theorem read_write_stamped (clock : Clock) {file : PresetFile}
    (storable : IsStorableFile { file with metadata := stamp clock file.metadata }) :
    ∃ written, write clock file = .ok written ∧ read written = .ok {
      presets := sortByName file.presets
      metadata := { stamp clock file.metadata with version := 2 } } := by
  obtain ⟨presets, dateTime, comment, tellable⟩ := storable
  have unbroken : ∀ entry ∈ entries clock file, entry.IsUnbroken := by
    rw [entries, List.forall_mem_cons, List.forall_mem_map]
    refine ⟨(unbroken_metadata_entry _).mpr ⟨dateTime, comment⟩, fun preset member => ?_⟩
    exact (unbroken_preset_entry preset).mpr
      (presets preset ((sorted_by_name file.presets).same.mem_iff.mp member))
  refine ⟨text clock file, write_of_tellable tellable, ?_⟩
  rw [text_eq, read_header, read_records_body unbroken, addEntries, entries, List.foldlM_cons]
  change (addRecord _ .metadata (metadataEntry (stamp clock file.metadata)).json >>= _).mapError _ = _
  rw [add_metadata_entry tellable]
  change (addEntries _ ((sortByName file.presets).map presetEntry)).mapError _ = _
  rw [add_presets]
  rfl

theorem read_write_storable (clock : Clock) {file : PresetFile}
    (stamped : file.metadata.timestamp ≠ 0) (storable : IsStorableFile file) :
    ∃ written, write clock file = .ok written ∧ read written = .ok
      { presets := sortByName file.presets, metadata := { file.metadata with version := 2 } } := by
  have kept : stamp clock file.metadata = file.metadata := if_neg stamped
  have whole : IsStorableFile { file with metadata := stamp clock file.metadata } := by
    rwa [kept]
  have back := read_write_stamped clock whole
  rwa [kept] at back

/-- What is written has a timestamp that can be told, so a text in it holds a line break. -/
theorem read_write_not_storable {clock : Clock} {file : PresetFile} {written : Text}
    (wrote : write clock file = .ok written) (stamped : file.metadata.timestamp ≠ 0)
    (notStorable : ¬IsStorableFile file) :
    ∃ problems, read written = .error (.format (.badRecord problems)) := by
  obtain ⟨tellable, rfl⟩ := tellable_of_write wrote
  have kept : stamp clock file.metadata = file.metadata := if_neg stamped
  rw [kept] at tellable
  have broken : ¬∀ entry ∈ entries clock file, entry.IsUnbroken := by
    intro unbroken
    have first := unbroken (metadataEntry (stamp clock file.metadata)) List.mem_cons_self
    have others (preset : Preset) (member : preset ∈ file.presets) :=
      unbroken (presetEntry preset) (List.mem_cons_of_mem _
        (List.mem_map_of_mem ((sorted_by_name file.presets).same.mem_iff.mpr member)))
    rw [kept, unbroken_metadata_entry] at first
    exact notStorable ⟨fun preset member => (unbroken_preset_entry preset).mp (others preset member),
      first.1, first.2, tellable⟩
  simp only [not_forall] at broken
  obtain ⟨entry, here, broken⟩ := broken
  obtain ⟨problems, failed⟩ := read_records_broken here broken { metadata := { version := 2 } }
  exact ⟨problems, by rw [text_eq, read_header, failed]; rfl⟩

/-- A file with a timestamp is written just if the timestamp can be told. It comes back as it was
written, sorted by name and in the newest version of the format, if and only if it is storable.
Otherwise what was written has a malformed record. -/
theorem read_write_iff (clock : Clock) (file : PresetFile) (stamped : file.metadata.timestamp ≠ 0) :
    ((∃ written stored, write clock file = .ok written ∧ IsSortedByName file.presets stored ∧
        read written =
          .ok { presets := stored, metadata := { file.metadata with version := 2 } }) ↔
      IsStorableFile file) ∧
    (write clock file = .error .tooManyDigits ↔ isTellable file.metadata.timestamp = false) ∧
    (∀ written, write clock file = .ok written → ¬IsStorableFile file → ∃ problems,
      read written = .error (.format (.badRecord problems))) := by
  refine ⟨⟨?_, fun storable => ?_⟩, ?_, fun _ wrote => read_write_not_storable wrote stamped⟩
  · rintro ⟨written, stored, wrote, -, back⟩
    by_contra notStorable
    obtain ⟨problems, failed⟩ := read_write_not_storable wrote stamped notStorable
    rw [failed] at back
    cases back
  · obtain ⟨written, wrote, back⟩ := read_write_storable clock stamped storable
    exact ⟨written, sortByName file.presets, wrote, sorted_by_name file.presets, back⟩
  · have kept : stamp clock file.metadata = file.metadata := if_neg stamped
    unfold write
    rw [kept]
    cases isTellable file.metadata.timestamp with
    | true => exact iff_of_false nofun nofun
    | false => exact iff_of_true rfl rfl

/-- Quotes, backslashes, marks behind line feeds and a negative timestamp all come back. -/
theorem read_write_of_marks :
    let clock : Clock := { seconds := 1700000000, localTime := "noon".toList }
    let file : PresetFile := {
      presets := [{ name := "fire\n«__EOF__»".toList, specification := "4d6|+2".toList },
        { name := "axe".toList, description := "\"\\\r\x00«PRESET» \x7b".toList,
          specification := "d8×2".toList }]
      metadata := { timestamp := -12, dateTime := "«__META__»".toList, version := 1 } }
    file.metadata.timestamp ≠ 0 ∧ IsStorableFile file ∧
      ∃ written stored, write clock file = .ok written ∧ IsSortedByName file.presets stored ∧
        read written = .ok { presets := stored, metadata := { file.metadata with version := 2 } } := by
  intro clock file
  have stamped : file.metadata.timestamp ≠ 0 := by decide
  have storable : IsStorableFile file := by
    unfold IsStorableFile IsStorable
    decide +kernel
  exact ⟨stamped, storable, (read_write_iff clock file stamped).1.mpr storable⟩

/-- A name with a line separator makes the whole file unreadable. -/
theorem not_read_write_of_line_separator :
    let clock : Clock := { seconds := 1700000000, localTime := "noon".toList }
    let file : PresetFile := {
      presets := [{ name := "fire\u2028ball".toList, specification := "8d6".toList }]
      metadata := { timestamp := 1 } }
    ∃ written problems, write clock file = .ok written ∧
      read written = .error (.format (.badRecord problems)) ∧
      ¬∃ stored, IsSortedByName file.presets stored ∧ read written =
        .ok { presets := stored, metadata := { file.metadata with version := 2 } } := by
  intro clock file
  have notStorable : ¬IsStorableFile file := by
    unfold IsStorableFile IsStorable
    decide +kernel
  have wrote : write clock file = .ok (text clock file) :=
    write_of_tellable (by decide +kernel)
  obtain ⟨problems, failed⟩ := read_write_not_storable wrote (by decide) notStorable
  refine ⟨text clock file, problems, wrote, failed, ?_⟩
  rintro ⟨stored, -, back⟩
  rw [failed] at back
  cases back

end PresetFile

end TabletopDice
