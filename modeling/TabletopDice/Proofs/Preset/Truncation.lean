import Mathlib.Data.List.Infix
import TabletopDice.Proofs.Preset.Records

/-!
A file that was cut off is never taken for a shorter file. Its last record stays open
or the last mark is torn, so the reader meets the end too early or a line that means
nothing, unless a mark inside a string has already made a record malformed.
-/

namespace TabletopDice

open Text

namespace PresetFile

def IsCorruption (error : PresetError) : Prop := error.kindName = "CorruptFileError"

theorem add_record_corrupt (file : PresetFile) (kind : RecordKind) (data : Text) :
    FailsOnly IsCorruption (addRecord file kind data) := by
  intro error failed
  obtain ⟨problems, rfl⟩ := add_record_fails_only file kind data error failed
  rfl

theorem line_meaning_corrupt (line : Text) : FailsOnly IsCorruption (lineMeaning line) := by
  unfold lineMeaning
  split
  next => exact fails_only_ok _
  next =>
    split
    next => exact fails_only_ok _
    next =>
      split
      next => exact fails_only_ok _
      next => exact fails_only_error rfl

theorem read_records_corrupt (file : PresetFile) (pending : Option (RecordKind × List Text))
    (lines : List Text) : FailsOnly IsCorruption (readRecords file pending lines) := by
  have marked (lines : List Text) (line : Text)
      (behind : ∀ file pending, FailsOnly IsCorruption (readRecords file pending lines))
      (file : PresetFile) : FailsOnly IsCorruption (readRecords file none (line :: lines)) := by
    rw [readRecords]
    apply fails_only_bind (line_meaning_corrupt line)
    intro meaning
    cases meaning with
    | nothing => exact behind file none
    | fileEnd => exact fails_only_ok file
    | recordStart kind data => exact behind file (some (kind, [data]))
  induction lines generalizing file pending with
  | nil => exact fails_only_error rfl
  | cons line lines ih =>
      cases pending with
      | none => exact marked lines line ih file
      | some record =>
          obtain ⟨kind, collected⟩ := record
          rw [readRecords]
          split
          next =>
            apply fails_only_bind (add_record_corrupt file kind _)
            intro file
            have same := marked lines line ih file
            rwa [readRecords] at same
          next => exact ih file _

def IsTorn (torn : Text) : Prop :=
  torn <+: metadataMark ++ [' '] ∨ torn <+: presetMark ++ [' '] ∨ torn <+: endMark.dropLast

theorem torn_lines {torn : Text} (isTorn : IsTorn torn) (nonempty : torn ≠ []) :
    allBlank torn = false ∧ torn ≠ endMark ∧ readRecordLine? torn = none ∧
      ∀ char ∈ torn, isLineBreak char = false := by
  have every : ∀ torn ∈ (metadataMark ++ [' ']).inits ++ (presetMark ++ [' ']).inits ++
      endMark.dropLast.inits, torn ≠ [] → allBlank torn = false ∧ torn ≠ endMark ∧
        readRecordLine? torn = none ∧ ∀ char ∈ torn, isLineBreak char = false := by
    decide +kernel
  apply every torn _ nonempty
  rw [List.mem_append, List.mem_append, List.mem_inits, List.mem_inits, List.mem_inits, or_assoc]
  exact isTorn

theorem read_records_torn {torn : Text} (isTorn : IsTorn torn) (file : PresetFile) :
    ∃ error, readRecords file none (splitLines torn) = .error error := by
  by_cases none : torn = []
  · subst none
    exact ⟨.unexpectedEnd, rfl⟩
  · obtain ⟨noBlank, noEnd, noRecord, plain⟩ := torn_lines isTorn none
    refine ⟨.unexpectedData torn, ?_⟩
    rw [split_lines_of_plain plain none, readRecords, lineMeaning, if_neg (by simp [noBlank]),
      if_neg noEnd, noRecord]
    rfl

/-- A record without what follows it, or without its own end. -/
theorem read_records_cut (entry : Entry) {part : Text} (begins : part <+: entry.json ++ ['\n'])
    (nonempty : part ≠ []) (file : PresetFile) :
    ∃ error, readRecords file none (splitLines (entry.lead ++ part)) = .error error := by
  obtain ⟨first, more, rfl⟩ := List.exists_cons_of_ne_nil nonempty
  obtain ⟨tail, brace⟩ := entry.json_eq
  have single := entry.single begins
  have guarded : Json.Quotation.outside.Guards (first :: more) := by
    obtain ⟨behind, whole⟩ := begins
    have guards := entry.framed.guarded
    rw [← whole] at guards
    exact Json.Quotation.guards_of_append guards
  have same : first = '\x7b' := by
    rw [brace, List.cons_append] at begins
    exact (List.cons_prefix_cons.mp begins).1
  subst same
  obtain ⟨data, others, lines⟩ := exists_first_line (show isLineBreak '\x7b' = false from rfl) more
  rw [read_records_start entry lines rfl]
  by_cases interrupted : ∃ line ∈ others, line.head? = some guillemet
  · obtain ⟨problems, failed⟩ := read_records_interrupted single guarded lines interrupted file
      entry.kind []
    rw [List.append_nil] at failed
    exact ⟨_, failed⟩
  · have unmarked : ∀ line ∈ others, line.head? ≠ some guillemet := by simpa using interrupted
    have collected := read_records_collect unmarked file entry.kind ['\x7b' :: data] []
    rw [List.append_nil] at collected
    exact ⟨.unexpectedEnd, by rw [collected]; rfl⟩

theorem prefix_append {cut left right : Text} (begins : cut <+: left ++ right) :
    cut <+: left ∨ ∃ more, cut = left ++ more ∧ more ≠ [] ∧ more <+: right := by
  rcases List.prefix_or_prefix_of_prefix begins (List.prefix_append left right) with within | ⟨more, rfl⟩
  · exact .inl within
  · by_cases none : more = []
    · subst none
      rw [List.append_nil]
      exact .inl (List.prefix_refl left)
    · exact .inr ⟨more, rfl, none, (List.prefix_append_right_inj left).mp begins⟩

theorem read_records_cut_body (entries : List Entry) {cut : Text} (begins : cut <+: body entries)
    (proper : cut ≠ body entries) (file : PresetFile) :
    ∃ error, readRecords file none (splitLines cut) = .error error := by
  induction entries generalizing cut file with
  | nil =>
      apply read_records_torn
      refine .inr (.inr ?_)
      have whole : body [] = endMark.dropLast ++ ['»'] := rfl
      rw [whole] at begins proper
      rcases prefix_append begins with within | ⟨more, rfl, nonempty, last⟩
      · exact within
      · obtain ⟨first, more, rfl⟩ := List.exists_cons_of_ne_nil nonempty
        obtain ⟨rfl, none⟩ := List.cons_prefix_cons.mp last
        rw [List.prefix_nil.mp none] at proper
        exact absurd rfl proper
  | cons entry entries ih =>
      rw [body_cons] at begins proper
      rcases prefix_append begins with within | ⟨more, rfl, nonempty, behind⟩
      · rw [entry.text_eq] at within
        rcases prefix_append within with torn | ⟨part, rfl, nonempty, behind⟩
        · apply read_records_torn
          unfold Entry.lead at torn
          cases kind : entry.kind with
          | metadata =>
              rw [kind] at torn
              exact .inl torn
          | preset =>
              rw [kind] at torn
              exact .inr (.inl torn)
        · exact read_records_cut entry behind nonempty file
      · have marked : more.head? = some guillemet := by
          obtain ⟨first, more, rfl⟩ := List.exists_cons_of_ne_nil nonempty
          obtain ⟨rest, begun⟩ := body_eq entries
          rw [begun] at behind
          rw [(List.cons_prefix_cons.mp behind).1]
          rfl
        obtain ⟨added, read, -⟩ := read_records_entry entry marked file
        rw [read]
        cases added with
        | error error => exact ⟨error, rfl⟩
        | ok file =>
            apply ih behind
            rintro rfl
            exact proper rfl

theorem read_header_cut {cut : Text} (begins : cut <+: headerLine ++ ['\n']) (nonempty : cut ≠ []) :
    ∃ error, read cut = .error (.format error) ∧ IsCorruption error := by
  have parts : headerLine ++ ['\n'] = headerLead ++ ['2', '\n'] := by decide
  rw [parts] at begins
  rcases prefix_append begins with within | ⟨more, rfl, some, behind⟩
  · have every : ∀ cut ∈ headerLead.inits, cut ≠ [] →
        splitLines cut = [cut] ∧ readHeader? cut = none := by
      decide +kernel
    obtain ⟨line, noHeader⟩ := every cut ((List.mem_inits _ _).mpr within) nonempty
    exact ⟨.badHeader, by rw [read, line]; simp only [noHeader]; rfl, rfl⟩
  · have every : ∀ more ∈ ['2', '\n'].inits, more ≠ [] → more = ['2'] ∨ more = ['2', '\n'] := by
      decide
    rcases every more ((List.mem_inits _ _).mpr behind) some with rfl | rfl
    · exact ⟨.unexpectedEnd, rfl, rfl⟩
    · exact ⟨.unexpectedEnd, rfl, rfl⟩

theorem read_without_line_feed (entries : List Entry) :
    splitLines (body entries ++ ['\n']) = splitLines (body entries) := by
  have whole : body entries = (entries.flatMap Entry.text ++ endMark.dropLast) ++ ['»'] := by
    rw [body, List.append_assoc]
    rfl
  have single : '\r' ∉ entries.flatMap Entry.text ++ endMark.dropLast := by
    intro member
    rcases List.mem_append.mp member with member | member
    · obtain ⟨entry, -, member⟩ := List.mem_flatMap.mp member
      rw [entry.text_eq, List.mem_append] at member
      rcases member with lead | json
      · unfold Entry.lead at lead
        cases kind : entry.kind with
        | metadata =>
            rw [kind] at lead
            exact absurd lead (by decide)
        | preset =>
            rw [kind] at lead
            exact absurd lead (by decide)
      · exact entry.single (List.prefix_refl _) json
    · exact absurd member (by decide)
  rw [whole]
  exact split_lines_line_feed single rfl

/-- What is missing at the end of a written file is noticed, whatever the file holds, unless it
is only the last line feed. -/
theorem read_cut_write {clock : Clock} {file : PresetFile} {written cut : Text}
    (wrote : write clock file = .ok written) (begins : cut <+: written) (nonempty : cut ≠ [])
    (proper : cut ≠ written) :
    (cut ++ ['\n'] = written → read cut = read written) ∧
      (cut ++ ['\n'] ≠ written →
        ∃ error, read cut = .error (.format error) ∧ error.kindName = "CorruptFileError") := by
  have parts : written = (headerLine ++ ['\n']) ++ (body (entries clock file) ++ ['\n']) := by
    rw [(tellable_of_write wrote).2, text_eq]
    simp
  have reading (rest : Text) : read ((headerLine ++ ['\n']) ++ rest) =
      (readRecords { metadata := { version := 2 } } none (splitLines rest)).mapError .format := by
    rw [List.append_assoc]
    exact read_header rest
  rw [parts] at begins proper ⊢
  rcases prefix_append begins with within | ⟨more, rfl, some, behind⟩
  · constructor
    · intro same
      have lengths := congrArg List.length same
      obtain ⟨rest, begun⟩ := body_eq (entries clock file)
      have short := within.length_le
      simp only [begun, List.length_append, List.length_cons, List.length_nil] at lengths short
      omega
    · intro _
      exact read_header_cut within nonempty
  · rcases prefix_append behind with within | ⟨last, rfl, some, lineFeed⟩
    · by_cases complete : more = body (entries clock file)
      · subst complete
        constructor
        · intro _
          rw [reading, reading, read_without_line_feed]
        · intro other
          exact absurd (List.append_assoc _ _ _) other
      · constructor
        · intro same
          rw [List.append_assoc] at same
          exact absurd (List.append_cancel_right (List.append_cancel_left same)) complete
        · intro _
          obtain ⟨error, failed⟩ := read_records_cut_body (entries clock file) within complete
            { metadata := { version := 2 } }
          have corrupt := read_records_corrupt _ _ _ error failed
          exact ⟨error, by rw [reading, failed]; rfl, corrupt⟩
    · obtain ⟨first, last, rfl⟩ := List.exists_cons_of_ne_nil some
      obtain ⟨rfl, none⟩ := List.cons_prefix_cons.mp lineFeed
      rw [List.prefix_nil.mp none] at proper
      exact absurd rfl proper

/-- A name that holds a line break and an end mark, in a file that ends behind that mark. -/
theorem read_cut_write_of_inner_mark :
    let clock : Clock := { seconds := 1700000000, localTime := "noon".toList }
    let file : PresetFile :=
      { presets := [{ name := "a\u2028«__EOF__»".toList, specification := "d6".toList }]
        metadata := { timestamp := 7 } }
    let cut := "__DICE__:2\n«__META__» \x7b\n    \"Timestamp\": 7\n\x7d\n«PRESET» \x7b
    \"Name\": \"a\u2028«__EOF__»".toList
    let behind := "\",\n    \"DieRollSpec\": \"d6\"\n\x7d\n«__EOF__»\n".toList
    write clock file = .ok (cut ++ behind) ∧ cut ≠ [] ∧ cut ≠ cut ++ behind ∧
      cut ++ ['\n'] ≠ cut ++ behind ∧
      ∃ error, read cut = .error (.format error) ∧ error.kindName = "CorruptFileError" := by
  intro clock file cut behind
  have wrote : write clock file = .ok (cut ++ behind) := by
    have sorted : sortByName file.presets = file.presets := List.mergeSort_singleton _
    rw [write_of_tellable (by decide +kernel), text, sorted]
    decide +kernel
  have nonempty : cut ≠ [] := by decide +kernel
  have proper : cut ≠ cut ++ behind := by
    intro same
    exact absurd (List.self_eq_append_right.mp same) (by decide)
  have shorter : cut ++ ['\n'] ≠ cut ++ behind := by
    intro same
    exact absurd (List.append_cancel_left same) (by decide)
  exact ⟨wrote, nonempty, proper, shorter,
    (read_cut_write wrote (List.prefix_append cut behind) nonempty proper).2 shorter⟩

end PresetFile

end TabletopDice
