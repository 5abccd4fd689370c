import TabletopDice.Proofs.Computation
import TabletopDice.Proofs.Expression.Notation
import TabletopDice.Preset.Reader

/-!
How reading a preset file fails. Every text is either a file or is refused as corrupt or
of an unknown version, with one exception: the numbers of the first line are read before
it is known that they are numbers that can be read.
-/

namespace TabletopDice

open Text

def PresetFailure.IsReported (failure : PresetFailure) : Prop :=
  ∃ error : PresetError, failure = .format error ∧
    (error.kindName = "UnsupportedVersionError" ∨ error.kindName = "CorruptFileError")

namespace PresetFile

/-- The first line names a version with these digits, and `rest` follows them. -/
structure Heads (text digits rest : Text) : Prop where
  first : (splitLines text).head? = some (headerLead ++ digits ++ rest)
  run : IsDigits digits
  stops : Stops isDigit rest

/-- A field that counts as a number: all its characters are digits, but maybe not decimal ones. -/
def IsNumeric (field : Text) : Prop :=
  field ≠ [] ∧ ∀ char ∈ field, (isDigit char || isDigitVariant char) = true

/-- A number in the first line that cannot be read: a version that is too long, or in the old
format a timestamp that is too long or has a digit that is not decimal. -/
inductive HasUnreadableNumber (text : Text) : Prop
  | version {digits rest : Text} (heads : Heads text digits rest)
      (long : maxDigits < digits.length)
  | timestamp {digits rest field : Text} {fields : List Text} (heads : Heads text digits rest)
      (short : digits.length ≤ maxDigits) (old : digitsValue digits = 1)
      (listed : TclList.parse (trimLeft rest) = .ok (field :: fields)) (numeric : IsNumeric field)
      (unreadable : (∃ char ∈ field, isDigit char = false) ∨ maxDigits < field.length)

theorem read_header_eq_some {line digits rest : Text} :
    readHeader? line = some (digits, rest) ↔
      ∃ behind, line = headerLead ++ digits ++ behind ∧ IsDigits digits ∧ Stops isDigit behind ∧
        rest = trimLeft behind := by
  unfold readHeader?
  constructor
  · intro read
    split at read
    next digit more behind found =>
      cases read
      obtain ⟨text, lead, span⟩ := Option.map_eq_some_iff.mp found
      have front : text.takeWhile isDigit = digit :: more := congrArg Prod.fst span
      have last : text.dropWhile isDigit = behind := congrArg Prod.snd span
      refine ⟨behind, ?_, ⟨List.cons_ne_nil _ _, ?_⟩, ?_, rfl⟩
      · rw [List.append_assoc, ← front, ← last, List.takeWhile_append_dropWhile]
        exact eq_append_of_after lead
      · rw [← front]
        exact fun _ member => List.mem_takeWhile_imp member
      · rw [← last]
        exact stops_drop_while isDigit text
    next => cases read
  · rintro ⟨behind, rfl, run, stops, rfl⟩
    rw [List.append_assoc, after_append, Option.map_some, run.span stops]
    obtain ⟨digit, more, rfl⟩ := List.exists_cons_of_ne_nil run.nonempty
    rfl

theorem Heads.read {text digits rest : Text} (heads : Heads text digits rest) :
    ∃ lines, splitLines text = (headerLead ++ digits ++ rest) :: lines ∧
      readHeader? (headerLead ++ digits ++ rest) = some (digits, trimLeft rest) := by
  have header := read_header_eq_some.mpr ⟨rest, rfl, heads.run, heads.stops, rfl⟩
  obtain ⟨lines, split⟩ := List.head?_eq_some_iff.mp heads.first
  exact ⟨lines, split, header⟩

theorem heads_of_read {text line digits rest : Text} {lines : List Text}
    (split : splitLines text = line :: lines) (read : readHeader? line = some (digits, rest)) :
    ∃ behind, Heads text digits behind ∧ rest = trimLeft behind := by
  obtain ⟨behind, rfl, run, stops, rfl⟩ := read_header_eq_some.mp read
  refine ⟨behind, ⟨?_, run, stops⟩, rfl⟩
  rw [split]
  rfl

theorem read_number_of_short {digits : Text} (short : digits.length ≤ maxDigits) :
    readNumber digits = .ok (digitsValue digits) := by
  rw [readNumber, Numeral.magnitude_of_short short]
  rfl

theorem read_number_of_long {digits : Text} (long : maxDigits < digits.length) :
    readNumber digits = .error .unreadableNumber := by
  rw [readNumber, Numeral.magnitude, if_neg (Nat.not_le.mpr long)]
  rfl

theorem is_numeric_iff {field : Text} : IsNumeric field ↔
    ¬(field.isEmpty || !field.all fun char => isDigit char || isDigitVariant char) = true := by
  rw [Bool.not_eq_true, Bool.or_eq_false_iff, List.isEmpty_eq_false_iff, Bool.not_eq_false',
    List.all_eq_true]
  rfl

theorem exists_variant_iff {field : Text} :
    (!field.all isDigit) = true ↔ ∃ char ∈ field, isDigit char = false := by
  simp only [Bool.not_eq_true', List.all_eq_false, Bool.not_eq_true]

/-- The metadata of an old file have an unreadable number only in their first field. -/
theorem read_legacy_metadata_eq_unreadable {version : Nat} {text : Text} :
    readLegacyMetadata version text = .error .unreadableNumber ↔
      ∃ field fields, TclList.parse text = .ok (field :: fields) ∧ IsNumeric field ∧
        ((∃ char ∈ field, isDigit char = false) ∨ maxDigits < field.length) := by
  unfold readLegacyMetadata
  cases listed : TclList.parse text with
  | error fault => exact iff_of_false nofun nofun
  | ok fields =>
      cases fields with
      | nil => exact iff_of_false nofun nofun
      | cons field fields =>
          constructor
          · intro failed
            refine ⟨field, fields, rfl, ?_⟩
            change (if _ then _ else _) = _ at failed
            split at failed
            next => cases failed
            next isNumber =>
              refine ⟨is_numeric_iff.mpr isNumber, ?_⟩
              split at failed
              next variant => exact .inl (exists_variant_iff.mp variant)
              next =>
                right
                by_contra short
                rw [read_number_of_short (Nat.not_lt.mp short)] at failed
                cases failed
          · rintro ⟨_, _, same, isNumber, unreadable⟩
            cases same
            change (if _ then _ else _) = _
            rw [if_neg (is_numeric_iff.mp isNumber)]
            split
            next => rfl
            next decimal =>
              have long := unreadable.resolve_left fun variant =>
                decimal (exists_variant_iff.mpr variant)
              rw [read_number_of_long long]
              rfl

section Versions

variable {text digits rest : Text}

theorem read_of_long (heads : Heads text digits rest) (long : maxDigits < digits.length) :
    read text = .error .unreadableNumber := by
  obtain ⟨lines, split, header⟩ := heads.read
  simp only [read, split, header, read_number_of_long long]
  rfl

theorem read_of_short (heads : Heads text digits rest) (short : digits.length ≤ maxDigits) :
    read text =
      if digitsValue digits < 1 ∨ 2 < digitsValue digits then
        .error (.format (.unsupportedVersion (digitsValue digits)))
      else if digitsValue digits < 2 then do
        let metadata ← readLegacyMetadata (digitsValue digits) (trimLeft rest)
        let presets ← ((splitLines text).tail.mapM readLegacyRecord).mapError .format
        return { presets, metadata }
      else
        (readRecords { metadata := { version := digitsValue digits } } none
          (splitLines text).tail).mapError .format := by
  obtain ⟨lines, split, header⟩ := heads.read
  simp only [read, split, header, read_number_of_short short]
  rfl

theorem read_of_old (heads : Heads text digits rest) (short : digits.length ≤ maxDigits)
    (old : digitsValue digits = 1) :
    read text = readLegacyMetadata 1 (trimLeft rest) >>= fun metadata =>
      (((splitLines text).tail.mapM readLegacyRecord).map fun presets =>
        { presets, metadata }).mapError .format := by
  rw [read_of_short heads short, old, if_neg (by decide), if_pos (by decide)]
  cases (splitLines text).tail.mapM readLegacyRecord with
  | ok presets => rfl
  | error error => rfl

/-- Of any other version there is nothing that could not be reported. -/
theorem read_of_other (heads : Heads text digits rest) (short : digits.length ≤ maxDigits)
    (other : digitsValue digits ≠ 1) :
    ∃ result : Except PresetError PresetFile, read text = result.mapError .format := by
  rw [read_of_short heads short]
  split
  next => exact ⟨.error _, rfl⟩
  next known =>
    rw [if_neg (by omega)]
    exact ⟨_, rfl⟩

theorem read_of_headless (headless : ∀ digits rest, ¬Heads text digits rest) :
    ∃ result : Except PresetError PresetFile, read text = result.mapError .format := by
  unfold read
  split
  next => exact ⟨.ok {}, rfl⟩
  next line lines split =>
    cases found : readHeader? line with
    | none => exact ⟨.error .badHeader, rfl⟩
    | some header =>
        obtain ⟨behind, heads, -⟩ := heads_of_read split found
        exact absurd heads (headless _ _)

end Versions

theorem read_eq_unreadable_iff {text : Text} :
    read text = .error .unreadableNumber ↔ HasUnreadableNumber text := by
  have reported {Value : Type} (result : Except PresetError Value) :
      result.mapError PresetFailure.format ≠ .error .unreadableNumber := by
    cases result with
    | ok value => exact nofun
    | error error => exact nofun
  constructor
  · intro failed
    by_cases headless : ∀ digits rest, ¬Heads text digits rest
    · obtain ⟨result, same⟩ := read_of_headless headless
      exact absurd (same.symm.trans failed) (reported result)
    · push Not at headless
      obtain ⟨digits, rest, heads⟩ := headless
      by_cases long : maxDigits < digits.length
      · exact .version heads long
      · have short := Nat.not_lt.mp long
        by_cases old : digitsValue digits = 1
        · have same := read_of_old heads short old
          cases metadata : readLegacyMetadata 1 (trimLeft rest) with
          | error failure =>
              rw [same, metadata] at failed
              cases failed
              obtain ⟨field, fields, listed, numeric, unreadable⟩ :=
                read_legacy_metadata_eq_unreadable.mp metadata
              exact .timestamp heads short old listed numeric unreadable
          | ok metadata =>
              rw [same, metadata] at failed
              exact absurd failed (reported _)
        · obtain ⟨result, same⟩ := read_of_other heads short old
          exact absurd (same.symm.trans failed) (reported result)
  · intro unreadable
    cases unreadable with
    | version heads long => exact read_of_long heads long
    | timestamp heads short old listed numeric unreadable =>
        have same := read_of_old heads short old
        rw [same, read_legacy_metadata_eq_unreadable.mpr ⟨_, _, listed, numeric, unreadable⟩]
        rfl

/-- Reading a text either gives a file or fails as corrupt or of an unsupported version, unless
a number in its first line cannot be read. -/
theorem read_reported_iff (text : Text) :
    FailsOnly PresetFailure.IsReported (read text) ↔ ¬HasUnreadableNumber text := by
  rw [← read_eq_unreadable_iff]
  constructor
  · intro only failed
    obtain ⟨error, same, -⟩ := only _ failed
    cases same
  · intro readable failure failed
    cases failure with
    | format error =>
        refine ⟨error, rfl, ?_⟩
        cases error with
        | unsupportedVersion version => exact .inl rfl
        | _ => exact .inr rfl
    | unreadableNumber => exact absurd failed readable

/-- A superscript is a digit, but no decimal one. -/
theorem not_read_reported_of_superscript :
    ¬FailsOnly PresetFailure.IsReported (read "__DICE__:1 ²".toList) := by
  intro only
  have failed : read "__DICE__:1 ²".toList = .error .unreadableNumber := rfl
  obtain ⟨error, same, -⟩ := only _ failed
  cases same

end PresetFile

end TabletopDice
