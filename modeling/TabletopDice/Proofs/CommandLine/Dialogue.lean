import TabletopDice.CommandLine.Run
import TabletopDice.Proofs.Dice.AuditTrail
import TabletopDice.Proofs.Roller.Calls

/-!
Specifications from one argument, and the same ones from the lines of the input. Either way one
roller is called for each in order. So long as no call fails, what is printed together at the end
of a batch is what a dialogue prints bit by bit; the first call that fails ends a batch.
-/

namespace TabletopDice

namespace Text

theorem split_on_lines {lines : List Text} (single : ∀ line ∈ lines, '\n' ∉ line) :
    splitOn '\n' (lines.flatMap fun line => line ++ ['\n']) = lines ++ [[]] := by
  induction lines with
  | nil => rfl
  | cons line lines ih =>
      obtain ⟨first, others⟩ := List.forall_mem_cons.mp single
      rw [List.flatMap_cons, List.append_assoc, List.singleton_append, split_on_append first,
        ih others, List.cons_append]

theorem split_line_feeds_of_lines {lines : List Text} (single : ∀ line ∈ lines, '\n' ∉ line) :
    splitLineFeeds (lines.flatMap fun line => line ++ ['\n']) = lines := by
  unfold splitLineFeeds
  rw [split_on_lines single]
  dsimp only
  rw [if_pos List.getLast?_concat, List.dropLast_concat]

end Text

namespace CommandLine

def rollEach (texts : List Text) : SessionM (List ResultSet) :=
  texts.mapM fun text => SessionM.roll (Text.trim text)

/-- The call for this specification is the first that fails; the session is the one it leaves. -/
def FailsFirst (session : Session) (before : List Text) (text : Text) (failure : Failure)
    (last : Session) : Prop :=
  ∃ sets middle, (rollEach before).run.run session = (.ok sets, middle) ∧
    (SessionM.roll (Text.trim text)).run.run middle = (.error failure, last)

section Calls

variable {text : Text} {texts before : List Text} {session middle last : Session} {set : ResultSet}
  {sets : List ResultSet} {failure : Failure}

theorem roll_each_cons (text : Text) (texts : List Text) :
    rollEach (text :: texts) = do
      let set ← SessionM.roll (Text.trim text)
      let others ← rollEach texts
      return set :: others :=
  List.mapM_cons

theorem roll_each_cons_eq_ok :
    (rollEach (text :: texts)).run.run session = (.ok sets, last) ↔
      ∃ set middle others, (SessionM.roll (Text.trim text)).run.run session = (.ok set, middle) ∧
        (rollEach texts).run.run middle = (.ok others, last) ∧ sets = set :: others := by
  rw [roll_each_cons, run_bind_eq_ok]
  constructor
  · rintro ⟨set, middle, first, rest⟩
    obtain ⟨others, after, behind, done⟩ := run_bind_eq_ok.mp rest
    obtain ⟨rfl, rfl⟩ := run_pure_eq_ok.mp done
    exact ⟨set, middle, others, first, behind, rfl⟩
  · rintro ⟨set, middle, others, first, behind, rfl⟩
    exact ⟨set, middle, first, run_bind_eq_ok.mpr ⟨others, last, behind, rfl⟩⟩

theorem FailsFirst.cons (first : (SessionM.roll (Text.trim text)).run.run session = (.ok set, middle))
    {other : Text} (fails : FailsFirst middle before other failure last) :
    FailsFirst session (text :: before) other failure last := by
  obtain ⟨sets, reached, rolled, failed⟩ := fails
  exact ⟨set :: sets, reached, roll_each_cons_eq_ok.mpr ⟨set, middle, sets, first, rolled, rfl⟩,
    failed⟩

theorem rolled_or_fails (texts : List Text) (session : Session) :
    (∃ sets last, (rollEach texts).run.run session = (.ok sets, last)) ∨
      ∃ before text behind failure last, texts = before ++ text :: behind ∧
        FailsFirst session before text failure last := by
  induction texts generalizing session with
  | nil => exact .inl ⟨[], session, rfl⟩
  | cons text texts ih =>
      rcases first : (SessionM.roll (Text.trim text)).run.run session with ⟨failure | set, middle⟩
      · exact .inr ⟨[], text, texts, failure, middle, rfl, [], session, rfl, first⟩
      · rcases ih middle with ⟨sets, last, rest⟩ | ⟨before, other, behind, failure, last, rfl, fails⟩
        · exact .inl ⟨set :: sets, last,
            roll_each_cons_eq_ok.mpr ⟨set, middle, sets, first, rest, rfl⟩⟩
        · exact .inr ⟨text :: before, other, behind, failure, last, rfl, fails.cons first⟩

theorem roll_all_of_roll_each (rolled : (rollEach texts).run.run session = (.ok sets, last))
    (place : Nat) : rollAll place texts session = (.ok sets, last) := by
  induction texts generalizing place session sets with
  | nil =>
      cases rolled
      rfl
  | cons text texts ih =>
      obtain ⟨set, middle, others, first, rest, rfl⟩ := roll_each_cons_eq_ok.mp rolled
      rw [rollAll, first]
      dsimp only
      rw [ih rest]

theorem roll_all_of_fails_first (fails : FailsFirst session before text failure last)
    (start : Nat) (behind : List Text) :
    rollAll start (before ++ text :: behind) session =
      (.error (start + before.length, failure), last) := by
  obtain ⟨sets, middle, rolled, failed⟩ := fails
  induction before generalizing start session sets with
  | nil =>
      cases rolled
      rw [List.nil_append, rollAll, failed]
      rfl
  | cons first before ih =>
      obtain ⟨set, after, others, here, rest, -⟩ := roll_each_cons_eq_ok.mp rolled
      rw [List.cons_append, rollAll, here]
      dsimp only
      rw [ih (start + 1) others rest, List.length_cons, Nat.add_right_comm, Nat.add_assoc]

theorem interact_of_roll_each (plain : ∀ text ∈ texts, Text.trim text ≠ "help".toList)
    (rolled : (rollEach texts).run.run session = (.ok sets, last)) :
    interact texts session =
      { output := sets.flatMap ResultSet.report, ending := .exit 0, session := last } := by
  induction texts generalizing session sets with
  | nil =>
      cases rolled
      rfl
  | cons text texts ih =>
      obtain ⟨noHelp, others⟩ := List.forall_mem_cons.mp plain
      obtain ⟨set, middle, behind, first, rest, rfl⟩ := roll_each_cons_eq_ok.mp rolled
      have answered : respond text session = (.ok (ResultSet.report set), middle) := by
        unfold respond
        dsimp only
        rw [if_neg noHelp, first]
      rw [interact, answered]
      dsimp only
      rw [ih others rest, List.flatMap_cons]

/-- The calls to a roller never leave it with a specification that it cannot roll. -/
theorem settled_roll_each (texts : List Text) :
    Sound Session.IsSettled Failure.IsOneLine (rollEach texts) fun _ => True := by
  induction texts with
  | nil => exact sound_pure trivial
  | cons text texts ih =>
      rw [roll_each_cons]
      exact sound_bind (one_line_roll _) fun _ _ => sound_bind ih fun _ _ => sound_pure trivial

theorem FailsFirst.is_one_line (settled : session.IsSettled)
    (fails : FailsFirst session before text failure last) : failure.IsOneLine := by
  obtain ⟨sets, middle, rolled, failed⟩ := fails
  have kept := ((settled_roll_each before).of_ok settled rolled).2
  exact ((one_line_roll (Text.trim text)).of_error kept failed).1

end Calls

section Batches

variable {texts : List Text} {seed reported : Option Seed} {dice : Text} {session : Session}

theorem batch_of_roll_each (pieces : Text.splitOn ';' dice = texts) {sets : List ResultSet}
    {last : Session} (rolled : (rollEach texts).run.run session = (.ok sets, last)) :
    batch { seed, dice } reported session =
      { output := sets.flatMap ResultSet.report, ending := .exit 0, session := last } := by
  unfold batch
  rw [pieces, roll_all_of_roll_each rolled]
  rfl

section Failing

variable {before behind : List Text} {text : Text} {last : Session}
  (pieces : Text.splitOn ';' dice = before ++ text :: behind)

include pieces

theorem batch_of_fails_first {error : DiceError}
    (fails : FailsFirst session before text (.dice error) last) :
    batch { seed, dice } reported session =
      { output := "ERROR: die-roll expression #".toList ++ Text.ofNat (before.length + 1) ++
          ": ".toList ++ error.message.toList ++ ['\n'],
        ending := .exit 1, session := last } := by
  unfold batch
  rw [pieces, roll_all_of_fails_first fails 1 behind, Nat.add_comm 1]
  rfl

theorem batch_of_breakdown {fault : NumberFault}
    (fails : FailsFirst session before text (.number fault) last) :
    batch { seed, dice } reported session =
      { output := [], ending := .breakdown (.number fault), session := last } := by
  unfold batch
  rw [pieces, roll_all_of_fails_first fails 1 behind]

end Failing

theorem batch_succeeds_iff (pieces : Text.splitOn ';' dice = texts) :
    (batch { seed, dice } reported session).ending = .exit 0 ↔
      ∃ sets last, (rollEach texts).run.run session = (.ok sets, last) := by
  constructor
  · intro done
    refine (rolled_or_fails texts session).resolve_right ?_
    rintro ⟨before, text, behind, error | fault, last, rfl, fails⟩
    · rw [batch_of_fails_first pieces fails] at done
      cases done
    · rw [batch_of_breakdown pieces fails] at done
      cases done
  · rintro ⟨sets, last, rolled⟩
    rw [batch_of_roll_each pieces rolled]

theorem batch_fails_iff (pieces : Text.splitOn ';' dice = texts) :
    (batch { seed, dice } reported session).ending = .exit 1 ↔
      ∃ before text behind error last, texts = before ++ text :: behind ∧
        FailsFirst session before text (.dice error) last := by
  constructor
  · intro failed
    rcases rolled_or_fails texts session with
      ⟨sets, last, rolled⟩ | ⟨before, text, behind, error | fault, last, rfl, fails⟩
    · rw [batch_of_roll_each pieces rolled] at failed
      cases failed
    · exact ⟨before, text, behind, error, last, rfl, fails⟩
    · rw [batch_of_breakdown pieces fails] at failed
      cases failed
  · rintro ⟨before, text, behind, error, last, rfl, fails⟩
    rw [batch_of_fails_first pieces fails]

theorem interact_of_batch (pieces : Text.splitOn ';' dice = texts)
    (plain : ∀ text ∈ texts, Text.trim text ≠ "help".toList)
    (done : (batch { seed, dice } reported session).ending = .exit 0) :
    interact texts session = batch { seed, dice } reported session := by
  obtain ⟨sets, last, rolled⟩ := (batch_succeeds_iff pieces).mp done
  rw [batch_of_roll_each pieces rolled]
  exact interact_of_roll_each plain rolled

end Batches

section Runs

variable {arguments : List Text} {seed : Option Seed} {dice : Text}

theorem options_of_dice (isValue : Argument.ofText dice = .value dice) :
    Invocation.ofTexts ["--dice".toList, dice] = .options { dice } := by
  have name : "--dice".toList ≠ ['-', '-'] := nofun
  have read : Argument.ofText "--dice".toList = .switch .dice none := rfl
  have noMark : dice ≠ ['-', '-'] := by
    rintro rfl
    cases isValue
  unfold Invocation.ofTexts
  rw [Argument.ofTexts, if_neg name, read, Argument.ofTexts, if_neg noMark, isValue,
    Argument.ofTexts]
  dsimp only
  rw [if_neg nofun]
  rfl

/-- Behind the equals sign any text can be given, except two dashes. -/
theorem options_of_attached_dice (isValue : dice ≠ ['-', '-']) :
    Invocation.ofTexts ["--dice=".toList ++ dice] = .options { dice } := by
  have longer : "--dice=".toList ++ dice ≠ ['-', '-'] := nofun
  have read : Argument.ofText ("--dice=".toList ++ dice) = .switch .dice (some dice) := rfl
  unfold Invocation.ofTexts
  rw [Argument.ofTexts, if_neg longer, read, Argument.ofTexts]
  dsimp only
  rw [if_neg nofun, Invocation.read, Invocation.setAttached, if_neg isValue]
  rfl

theorem task_of_dice (given : Invocation.ofTexts arguments = .options { seed, dice })
    (present : dice ≠ []) : Task.ofTexts arguments = .batch { seed, dice } := by
  have nonempty : dice.isEmpty = false := List.isEmpty_eq_false_iff.mpr present
  unfold Task.ofTexts
  rw [given]
  dsimp only
  rw [if_neg nofun, if_neg nofun, nonempty, if_neg nofun]

theorem task_of_no_dice (given : Invocation.ofTexts arguments = .options { seed }) :
    Task.ofTexts arguments = .interact seed := by
  unfold Task.ofTexts
  rw [given]
  rfl

end Runs

/-- A batch succeeds if every call does, and then prints what a dialogue with the same
specifications prints after its banner, and draws the same. It fails with a message if the first
call that fails does, and then prints one line on it, and nothing of the results before it. -/
theorem batch_agrees_with_dialogue {texts : List Text}
    (apart : ∀ text ∈ texts, ';' ∉ text ∧ '\n' ∉ text)
    (plain : ∀ text ∈ texts, Text.trim text ≠ "help".toList)
    (present : Text.join [';'] texts ≠ []) {arguments others : List Text} {seed : Option Seed}
    (given : Invocation.ofTexts arguments = .options { seed, dice := Text.join [';'] texts })
    (without : Invocation.ofTexts others = .options { seed }) (surroundings : Surroundings)
    (source : Option Seed → Source) :
    let start : Session := { source := source (seed <|> surroundings.defaultSeed) }
    let input := texts.flatMap fun text => text ++ ['\n']
    let batch := run surroundings source arguments
    let dialogue := run { surroundings with input } source others
    (batch.ending = .exit 0 ↔ ∃ sets last, (rollEach texts).run.run start = (.ok sets, last)) ∧
    (batch.ending = .exit 0 →
      dialogue.output = banner ++ batch.output ∧ dialogue.ending = .exit 0 ∧
        dialogue.session = batch.session) ∧
    (batch.ending = .exit 1 ↔
      ∃ before text behind error last, texts = before ++ text :: behind ∧
        FailsFirst start before text (.dice error) last) ∧
    ∀ before text behind error last, texts = before ++ text :: behind →
      FailsFirst start before text (.dice error) last →
        batch.output = "ERROR: die-roll expression #".toList ++ Text.ofNat (before.length + 1) ++
          ": ".toList ++ error.message.toList ++ ['\n'] ∧
        '\n' ∉ error.message.toList := by
  intro start input batch dialogue
  have pieces : Text.splitOn ';' (Text.join [';'] texts) = texts := by
    cases texts with
    | nil => exact absurd rfl present
    | cons text texts => exact Text.split_on_join fun text member => (apart text member).1
  have lines : Text.splitLineFeeds input = texts :=
    Text.split_line_feeds_of_lines fun text member => (apart text member).2
  have batched : batch = CommandLine.batch { seed, dice := Text.join [';'] texts }
      (seed <|> surroundings.defaultSeed) start := by
    simp only [batch, run, task_of_dice given present]
    rfl
  have answered : dialogue =
      { interact texts start with output := banner ++ (interact texts start).output } := by
    simp only [dialogue, run, task_of_no_dice without, lines]
    rfl
  rw [batched, answered]
  refine ⟨batch_succeeds_iff pieces, ?_, batch_fails_iff pieces, ?_⟩
  · intro done
    rw [interact_of_batch pieces plain done]
    exact ⟨rfl, done, rfl⟩
  · rintro before text behind error last rfl fails
    rw [batch_of_fails_first pieces fails]
    exact ⟨rfl, fails.is_one_line (settled_of_fresh _)⟩

/-- Three specifications that are rolled, a blank one among them; and four of which the third is
refused after a blank one was rolled. -/
theorem batch_agrees_with_dialogue_of_blank_and_of_refused :
    let source : Option Seed → Source := fun _ => Source.highest
    let rolled := ["2d6 fire".toList, [], "Attack=d20+7".toList]
    let batch := run {} source ["--dice".toList, Text.join [';'] rolled]
    let dialogue := run { input := rolled.flatMap fun text => text ++ ['\n'] } source []
    let refused := ["d6".toList, [], "12+".toList, "d8".toList]
    let broken := run {} source ["--dice=".toList ++ Text.join [';'] refused]
    (batch.ending = .exit 0 ∧ dialogue.output = banner ++ batch.output) ∧
    broken.ending = .exit 1 ∧
      ∃ before text behind error last, refused = before ++ text :: behind ∧
        FailsFirst { source := Source.highest } before text (.dice error) last ∧
        broken.output = "ERROR: die-roll expression #".toList ++
          Text.ofNat (before.length + 1) ++ ": ".toList ++ error.message.toList ++ ['\n'] := by
  intro source rolled batch dialogue refused broken
  have noDice : Invocation.ofTexts [] = .options {} := rfl
  have succeeds : batch.ending = .exit 0 := by decide +kernel
  have fails : broken.ending = .exit 1 := by decide +kernel
  have fine := batch_agrees_with_dialogue (by decide : ∀ text ∈ rolled, ';' ∉ text ∧ '\n' ∉ text)
    (by decide) (by decide) (options_of_dice rfl) noDice {} source
  have reported := batch_agrees_with_dialogue
    (by decide : ∀ text ∈ refused, ';' ∉ text ∧ '\n' ∉ text)
    (by decide) (by decide) (options_of_attached_dice (by decide)) noDice {} source
  obtain ⟨before, text, behind, error, last, whole, first⟩ := reported.2.2.1.mp fails
  obtain ⟨printed, -⟩ := reported.2.2.2 before text behind error last whole first
  exact ⟨⟨succeeds, (fine.2.1 succeeds).1⟩, fails, before, text, behind, error, last, whole,
    first, printed⟩

end CommandLine

end TabletopDice
