import TabletopDice.Proofs.Roller.Refusal
import TabletopDice.Proofs.Roller.Trimming

/-!
Titles. Whatever stands in front of the first equals sign is kept as it is written, without
its outer blanks, and nothing of it is read. What is behind the sign is accepted or refused
as it is without a title, and it is rolled as it is without one, now and whatever is rolled
afterwards; only the title is told in addition.
-/

namespace TabletopDice

open Text

section Separators

variable {first second glyph : Char}

theorem replace_pairs_append_cons (other : second ≠ first) {left : Text} (absent : second ∉ left)
    (ends : left.getLast? ≠ some first) (rest : Text) :
    replacePairs first second glyph (left ++ second :: rest) =
      left ++ second :: replacePairs first second glyph rest := by
  induction left with
  | nil => exact replace_pairs_cons_of_ne other rest
  | cons char left ih =>
      have behind := List.not_mem_of_not_mem_cons absent
      cases left with
      | nil =>
          have visible : char ≠ first := fun same => ends (congrArg some same)
          rw [List.cons_append, replace_pairs_cons_of_ne visible]
          exact congrArg (char :: ·) (replace_pairs_cons_of_ne other rest)
      | cons next left =>
          have apart : ¬(char = first ∧ next = second) := fun both => absent (by simp [both.2])
          change replacePairs first second glyph (char :: next :: (left ++ second :: rest)) = _
          rw [replacePairs, if_neg apart]
          exact congrArg (char :: ·) (ih behind (by simpa using ends))

theorem split_first_append_cons {separator : Char} {left : Text} (absent : separator ∉ left)
    (rest : Text) : splitFirst? separator (left ++ separator :: rest) = some (left, rest) := by
  induction left with
  | nil => exact if_pos rfl
  | cons char left ih =>
      obtain ⟨other, behind⟩ := List.ne_and_not_mem_of_not_mem_cons absent
      rw [List.cons_append, splitFirst?, if_neg (Ne.symm other), ih behind]
      rfl

end Separators

namespace Modifiers

def titled (title : Text) (modifiers : Modifiers) : Modifiers := { modifiers with title }

variable (title : Text)

theorem apply_titled (modifiers : Modifiers) (made : Setting) :
    made.apply (modifiers.titled title) = (made.apply modifiers).titled title := by
  cases made <;> rfl

theorem with_text_titled (modifiers : Modifiers) (clause : Text) :
    (modifiers.titled title).withText clause = (modifiers.withText clause).map (titled title) := by
  have set (read : Clause) :
      (modifiers.titled title).withClause read = (modifiers.withClause read).map (titled title) := by
    rw [Clause.with_clause_eq, Clause.with_clause_eq]
    cases read.setting with
    | error failure => rfl
    | ok made => exact congrArg Except.ok (apply_titled title modifiers made)
  unfold withText
  split
  · rfl
  · rfl
  next read _ _ =>
    rw [set]
    cases modifiers.withClause read with
    | error failure => rfl
    | ok next =>
        change (if next.total ≠ 0 ∧ next.target ≠ 0 then _ else _) =
          (if next.total ≠ 0 ∧ next.target ≠ 0 then _ else _ : Except Failure Modifiers).map _
        split
        · rfl
        · rfl

theorem foldlM_titled (modifiers : Modifiers) (clauses : List Text) :
    clauses.foldlM withText (modifiers.titled title) =
      (clauses.foldlM withText modifiers).map (titled title) := by
  induction clauses generalizing modifiers with
  | nil => rfl
  | cons clause clauses ih =>
      rw [List.foldlM_cons, List.foldlM_cons, with_text_titled]
      cases modifiers.withText clause with
      | error failure => rfl
      | ok next => exact ih next

end Modifiers

namespace Plan

def titled (title : Text) (plan : Plan) : Plan :=
  { plan with modifiers := plan.modifiers.titled title }

end Plan

namespace Specification

theorem cut_titled (title : Text) (modifiers : Modifiers) (text : Text) :
    cut (modifiers.titled title) text =
      (cut modifiers text).map fun (written, final) => (written, final.titled title) := by
  obtain ⟨first, clauses, parts⟩ := List.exists_cons_of_ne_nil (splitOn_ne_nil '|' text)
  rw [cut_eq parts, cut_eq parts, Modifiers.foldlM_titled]
  cases clauses.foldlM Modifiers.withText modifiers <;> rfl

theorem planned_assemble_titled (title : Text) (modifiers : Modifiers) (expression : Text) :
    planned (assemble (modifiers.titled title) expression) =
      (planned (assemble modifiers expression)).map (Plan.titled title) := by
  change planned (assemble (modifiers.headed title modifiers.repeatFor) expression) = _
  rw [assemble_headed]
  cases assembled : assemble modifiers expression with
  | error failure => rfl
  | ok specification =>
      obtain ⟨-, count⟩ := heading_of_assemble assembled
      rw [← count]
      rfl

section Texts

variable {title text : Text} (noEquals : '=' ∉ title)
  (ends : title.getLast? ≠ some '<' ∧ title.getLast? ≠ some '>')

include noEquals ends

theorem hide_comparisons_titled (text : Text) :
    hideComparisons (title ++ '=' :: text) = title ++ '=' :: hideComparisons text := by
  rw [hideComparisons, replace_pairs_append_cons (by decide) noEquals ends.2,
    replace_pairs_append_cons (by decide) noEquals ends.1, hideComparisons]

theorem split_title_titled (text : Text) :
    splitTitle (hideComparisons (title ++ '=' :: text)) =
      (trim title, trim (hideComparisons text)) := by
  rw [hide_comparisons_titled noEquals ends, splitTitle, split_first_append_cons noEquals]

/-- A title is added to the plan, or the text is refused for the same kind of reason. -/
theorem planned_parse_titled (plain : '=' ∉ hideComparisons text) :
    planned (parse (title ++ '=' :: text)) =
      (planned (parse text)).map (Plan.titled (trim title)) := by
  have untitled : splitTitle (hideComparisons text) = ([], hideComparisons text) := by
    rw [splitTitle, split_first_of_not_mem plain]
  rw [planned_parse, planned_parse, partsOf, partsOf, split_title_titled noEquals ends, untitled,
    cut_trim]
  change verdict (cut (Modifiers.titled (trim title) { title := [] }) (hideComparisons text)) >>= _ = _
  rw [cut_titled]
  cases cut { title := [] } (hideComparisons text) with
  | error failure => rfl
  | ok found => exact planned_assemble_titled (trim title) found.2 _

end Texts

end Specification

namespace SessionM

theorem rolls_as_titled (title : Text) (modifiers : Modifiers) :
    RollsAs modifiers (modifiers.titled title) where
  dice _ _ _ := rfl
  repeatFor := rfl
  advance _ _ := rfl

def toldResults (rolled : Except Failure (Text × List RollResult)) : Except Failure (List RollResult) :=
  rolled.map Prod.snd

/-- Sessions on the same source that remember specifications of plans which differ in their titles
alone, or remember nothing. -/
inductive Matches : Session → Session → Prop
  | remembered {first second : Session} {text rest : Text} {one other : Specification}
      (same : first.source = second.source) (accepted : Specification.parse text = .ok one)
      (also : Specification.parse rest = .ok other) (plans : one.plan.titled [] = other.plan.titled [])
      (left : Remembers one first) (right : Remembers other second) : Matches first second
  | cleared {first second : Session} (same : first.source = second.source) :
      Matches first.cleared second.cleared

theorem Matches.source {first second : Session} (alike : Matches first second) :
    first.source = second.source := by
  cases alike with
  | remembered same => exact same
  | cleared same => exact same

theorem run_roll_specification (specification : Specification) (name : Text) (session : Session) :
    (rollSpecification specification name).run.run session =
      (do
        let untitled := specification.plan.titled []
        let results ← rollPasses untitled.modifiers untitled.sequence name maxPasses {}
        return (specification.modifiers.title, results) : SessionM _).run.run session := by
  have passes := roll_passes_of_rolls_as (rolls_as_titled [] specification.plan.modifiers)
    specification.plan.sequence name maxPasses {}
  rw [roll_specification_eq, Plan.roll, ← passes]
  rfl

theorem alike_of_plans {one other : Specification}
    (plans : one.plan.titled [] = other.plan.titled []) (name otherName : Text)
    {first second : Session} (same : first.source = second.source) :
    let left := (rollSpecification one name).run.run first
    let right := (rollSpecification other otherName).run.run second
    toldResults left.1 = toldResults right.1 ∧ left.2.source = right.2.source := by
  have passes := @corresponds_roll_passes Eq (other.plan.titled []).modifiers
    (fun _ _ => corresponds_eq_of_draw _) (other.plan.titled []).sequence name otherName maxPasses {}
    first second same
  intro left right
  simp only [left, right]
  rw [run_roll_specification, run_roll_specification, plans, run_bind, run_bind]
  generalize (rollPasses _ _ name maxPasses {}).run.run first = one at passes ⊢
  generalize (rollPasses _ _ otherName maxPasses {}).run.run second = other at passes ⊢
  obtain ⟨result, after⟩ := one
  obtain ⟨_, behind⟩ := other
  obtain ⟨rfl, sources⟩ := passes
  cases result with
  | error failure => exact ⟨rfl, sources⟩
  | ok found => exact ⟨rfl, sources⟩

theorem run_roll_of_refused {text : Text} {failure : Failure} (given : text ≠ [])
    (refused : Specification.parse text = .error failure) (session : Session) :
    (roll text).run.run session = (.error failure, session.cleared) := by
  rw [roll_eq]
  exact run_bind_of_error (run_require_of_refused given refused session) _

/-- Whatever is rolled next, titles aside the same comes of it, and the sessions still match. -/
theorem matches_roll {first second : Session} (alike : Matches first second) (text : Text) :
    let left := (roll text).run.run first
    let right := (roll text).run.run second
    toldResults left.1 = toldResults right.1 ∧ Matches left.2 right.2 := by
  have rolled {text rest : Text} {one other : Specification} {first second : Session}
      (left : Remembers one first) (right : Remembers other second)
      (same : first.source = second.source) (accepted : Specification.parse text = .ok one)
      (also : Specification.parse rest = .ok other) (plans : one.plan.titled [] = other.plan.titled [])
      (name otherName : Text) :
      toldResults ((rollSpecification one name).run.run first).1 =
          toldResults ((rollSpecification other otherName).run.run second).1 ∧
        Matches ((rollSpecification one name).run.run first).2
          ((rollSpecification other otherName).run.run second).2 := by
    obtain ⟨told, sources⟩ := alike_of_plans plans name otherName same
    exact ⟨told, .remembered sources accepted also plans
      (keeps_roll_specification one name _ left).2
      (keeps_roll_specification other otherName _ right).2⟩
  intro left right
  simp only [left, right]
  by_cases given : text = []
  · subst given
    cases alike with
    | remembered same accepted also plans left right =>
        rw [run_reroll accepted left, run_reroll also right]
        exact rolled left right same accepted also plans _ _
    | cleared same => exact ⟨rfl, .cleared same⟩
  · cases accepted : Specification.parse text with
    | error failure =>
        rw [run_roll_of_refused given accepted, run_roll_of_refused given accepted]
        exact ⟨rfl, .cleared alike.source⟩
    | ok specification =>
        rw [run_roll_given accepted, run_roll_given accepted]
        exact rolled (remembers_of_set specification first)
          (remembers_of_set specification second) alike.source accepted accepted rfl _ _

def resultsOf (texts : List Text) (session : Session) :
    List (Except Failure (List RollResult) × Source) :=
  (transcript texts session).map fun (rolled, source) => (toldResults rolled, source)

theorem results_of_matches {first second : Session} (alike : Matches first second)
    (texts : List Text) : resultsOf texts first = resultsOf texts second := by
  induction texts generalizing first second with
  | nil => rfl
  | cons text texts ih =>
      obtain ⟨told, next⟩ := matches_roll alike text
      have rest := ih next
      rw [resultsOf, resultsOf] at rest ⊢
      rw [transcript, transcript, List.map_cons, List.map_cons, rest]
      dsimp only
      rw [told, next.source]

theorem title_of_rerolls {text : Text} {specification : Specification}
    (accepted : Specification.parse text = .ok specification) (count : Nat) {session : Session}
    (remembers : Remembers specification session) :
    ∀ call ∈ transcript (List.replicate count []) session, ∀ title rolled,
      call.1 = .ok (title, rolled) → title = specification.modifiers.title := by
  induction count generalizing session with
  | zero => exact fun _ member => absurd member List.not_mem_nil
  | succ count ih =>
      have kept := (keeps_roll_specification specification specification.modifiers.title
        session remembers).2
      rw [List.replicate_succ, transcript, run_reroll accepted remembers]
      refine List.forall_mem_cons.mpr ⟨fun title rolled told => ?_, ih kept⟩
      rcases run : (rollSpecification specification specification.modifiers.title).run.run session
        with ⟨failure | found, after⟩
      · rw [run] at told
        cases told
      · rw [run] at told
        simp only [rollSpecification, run_bind_eq_ok, run_pure_eq_ok] at run
        obtain ⟨_, _, -, rfl, -⟩ := run
        cases told
        rfl

/-- A specification is accepted with any title or with none, or it is refused for the same kind of
reason. The title is kept as it is written, without its outer blanks, and rerolls tell it.
Whatever is rolled from then on, the results are the same call by call, and so are the sources,
as without the title, whatever either roller has done before. -/
theorem title_is_transparent {title text : Text} (noEquals : '=' ∉ title)
    (ends : title.getLast? ≠ some '<' ∧ title.getLast? ≠ some '>')
    (plain : '=' ∉ Specification.hideComparisons text) {first second : Session}
    (same : first.source = second.source) :
    let titled := (setSpecification (title ++ '=' :: text)).run.run first
    let untitled := (setSpecification text).run.run second
    verdict titled.1 = verdict untitled.1 ∧ titled.2.source = first.source ∧
      (titled.1 = .ok () → titled.2.roller.modifiers.title = trim title ∧
        ∀ count, ∀ call ∈ transcript (List.replicate count []) titled.2, ∀ told rolled,
          call.1 = .ok (told, rolled) → told = trim title) ∧
      ∀ texts, resultsOf texts titled.2 = resultsOf texts untitled.2 := by
  have plans := Specification.planned_parse_titled noEquals ends plain
  intro titled untitled
  simp only [titled, untitled, run_set_specification]
  cases accepted : Specification.parse (title ++ '=' :: text) with
  | error failure =>
      cases also : Specification.parse text with
      | error refusal =>
          rw [accepted, also] at plans
          refine ⟨?_, rfl, fun taken => ?_, results_of_matches (.cleared same)⟩
          · exact congrArg Except.error (Except.error.inj plans)
          · cases taken
      | ok other =>
          rw [accepted, also] at plans
          cases plans
  | ok one =>
      cases also : Specification.parse text with
      | error refusal =>
          rw [accepted, also] at plans
          cases plans
      | ok other =>
          rw [accepted, also] at plans
          have plan : one.plan = other.plan.titled (trim title) := Except.ok.inj plans
          have told : one.modifiers.title = trim title :=
            congrArg (fun plan => plan.modifiers.title) plan
          have left := remembers_of_set one first
          have right := remembers_of_set other second
          have alike : one.plan.titled [] = other.plan.titled [] := by
            rw [plan]
            rfl
          refine ⟨rfl, rfl, fun _ => ⟨told, fun count => ?_⟩, ?_⟩
          · rw [← told]
            exact title_of_rerolls accepted count left
          · exact results_of_matches (.remembered same accepted also alike left right)

/-- A title with clauses and alternatives, of which none is read. -/
theorem title_is_transparent_of_misleading_title :
    let title := " 5% < hit|c|\x7b1/2\x7d\n|until 3|bad ".toList
    let text := "(d20 >= 11) * \x7b2/3\x7d |repeat 2|min 1 ".toList
    let second : Session := { source := Source.ofFaces [12, 7, 11, 20] }
    let first := afterCalls second [.set "Old = 2d6|sf".toList]
    '=' ∉ title ∧ (title.getLast? ≠ some '<' ∧ title.getLast? ≠ some '>') ∧
      '=' ∉ Specification.hideComparisons text ∧ first.source = second.source ∧
      let titled := (setSpecification (title ++ '=' :: text)).run.run first
      let untitled := (setSpecification text).run.run second
      titled.1 = .ok () ∧ verdict titled.1 = verdict untitled.1 ∧
        titled.2.roller.modifiers.title = trim title ∧
        resultsOf [[], "d6".toList, []] titled.2 = resultsOf [[], "d6".toList, []] untitled.2 ∧
        (toldResults ((roll []).run.run titled.2).1).map (List.map RollResult.total) =
          .ok [24, 33, 22, 60] := by
  intro title text second first
  have noEquals : '=' ∉ title := by decide
  have ends : title.getLast? ≠ some '<' ∧ title.getLast? ≠ some '>' := by decide
  have plain : '=' ∉ Specification.hideComparisons text := by decide +kernel
  have same : first.source = second.source := source_set_specification _ second
  have taken : ((setSpecification (title ++ '=' :: text)).run.run first).1 = .ok () := by
    decide +kernel
  have totals : (toldResults ((roll []).run.run
      ((setSpecification (title ++ '=' :: text)).run.run first).2).1).map
        (List.map RollResult.total) = .ok [24, 33, 22, 60] := by decide +kernel
  -- From here on it does not matter what the texts are.
  clear_value first title text
  obtain ⟨kinds, -, told, rolled⟩ := title_is_transparent noEquals ends plain same
  exact ⟨noEquals, ends, plain, same, taken, kinds, (told taken).1, rolled _, totals⟩

end SessionM

end TabletopDice
