import TabletopDice.Proofs.Dice.Maximum
import TabletopDice.Proofs.Roller.ClauseOrder
import TabletopDice.Proofs.Roller.Combinations
import TabletopDice.Proofs.Roller.Independence

/-!
Maximized rolls. A clause that asks for the maximum sets it for good, and every draw of such a
roll, the confirmations and the combinations included, leaves the source as it is. So the
source does not count, and what is rolled is the highest roll of the dice.
-/

namespace TabletopDice

open Text SessionM

namespace Clause

theorem read_trim (clause : Text) : read? (trim clause) = read? clause := by
  have idempotent : trimLeft (trimLeft clause) = trimLeft clause := List.dropWhile_idempotent ..
  have front : read? (trimLeft clause) = read? clause := by
    rw [read_eq, read_eq, trim, trim, idempotent]
  rw [trim, eq_of_trim_right read? (fun text _ blank => read_append_blanks blank text), front]

def AsksMaximum (clause : Text) : Prop :=
  trim clause = ['!'] ∨ trim clause = "maximized".toList

theorem read_of_asks_maximum {clause : Text} (asks : AsksMaximum clause) :
    read? clause = some .maximized := by
  rw [← read_trim]
  rcases asks with sign | word
  · rw [sign]
    rfl
  · rw [word]
    rfl

end Clause

namespace Modifiers

variable {modifiers final : Modifiers}

theorem maximized_with_text {text : Text}
    (maximized : modifiers.maximized = true ∨ Clause.AsksMaximum text)
    (read : modifiers.withText text = .ok final) : final.maximized = true := by
  obtain ⟨made, ⟨clause, found, set⟩, rfl, -⟩ := setting_of_with_text read
  rcases maximized with kept | asked
  · cases made with
    | maximized => rfl
    | _ => exact kept
  · rw [Clause.read_of_asks_maximum asked] at found
    cases found
    cases set
    rfl

end Modifiers

namespace Specification

/-- The clauses of a text: what stands behind each of its bars. -/
def clausesOf (text : Text) : List Text :=
  (splitOn '|' (splitTitle (hideComparisons text)).2).drop 1

variable {text expression : Text} {modifiers final : Modifiers}

theorem Cuts.read_clauses (cut : Cuts text expression modifiers) :
    (clausesOf text).foldlM Modifiers.withText
      { title := (splitTitle (hideComparisons text)).1 } = .ok modifiers := by
  obtain ⟨written, split, -⟩ := cut
  unfold splitModifiers at split
  unfold clausesOf
  generalize splitOn '|' (splitTitle (hideComparisons text)).2 = parts at split
  match parts with
  | [] | [_] =>
      cases split
      rfl
  | expression :: clause :: clauses =>
      exact (read_clauses_eq_ok.mp split).1

theorem maximized_of_clauses {clauses : List Text}
    (asked : modifiers.maximized = true ∨ ∃ clause ∈ clauses, Clause.AsksMaximum clause)
    (read : clauses.foldlM Modifiers.withText modifiers = .ok final) :
    final.maximized = true := by
  induction clauses generalizing modifiers with
  | nil =>
      cases read
      exact asked.resolve_right nofun
  | cons clause clauses ih =>
      rw [List.foldlM_cons, bind_eq_ok] at read
      obtain ⟨next, added, rest⟩ := read
      rw [List.exists_mem_cons_iff, ← or_assoc] at asked
      exact ih (asked.imp_left fun now => Modifiers.maximized_with_text now added) rest

theorem maximized_of_parse {specification : Specification}
    (accepted : parse text = .ok specification)
    (asks : ∃ clause ∈ clausesOf text, Clause.AsksMaximum clause) :
    specification.modifiers.maximized = true := by
  cases accepted_of_parse accepted with
  | chance cut | single cut | several cut =>
      have set := maximized_of_clauses (.inr asks) cut.read_clauses
      exact set

end Specification

namespace SessionM

theorem corresponds_maximized_roll {specification : Specification}
    (maximized : specification.modifiers.maximized = true) (one other : Source) (name : Text) :
    Corresponds (fun left right => left = one ∧ right = other)
      (rollSpecification specification name) (rollSpecification specification name) := by
  apply corresponds_roll_specification
  intro dice bonus first second sources
  obtain ⟨result, same⟩ := Dice.draws_nothing_evaluate dice bonus
  rw [maximized, run_of_draw, run_of_draw, same, same]
  exact ⟨rfl, sources⟩

theorem maximized_roll {text : Text} {specification : Specification}
    (accepted : Specification.parse text = .ok specification)
    (asks : ∃ clause ∈ Specification.clausesOf text, Clause.AsksMaximum clause)
    (first second : Session) :
    ((roll text).run.run first).1 = ((roll text).run.run second).1 ∧
      ((roll text).run.run first).2.source = first.source := by
  have maximized := Specification.maximized_of_parse accepted asks
  have same := corresponds_maximized_roll maximized first.source second.source
    (if specification.modifiers.title.isEmpty then text else specification.modifiers.title)
    { first with roller := Roller.ofSpecification specification }
    { second with roller := Roller.ofSpecification specification } ⟨rfl, rfl⟩
  rw [run_roll_given accepted, run_roll_given accepted]
  exact ⟨same.1, same.2.1⟩

end SessionM

theorem Dice.maximum_counts_as_highest_roll {text : Text} {dice : Dice}
    (accepted : Dice.parse text = .ok dice) (bonus : Int) {highest : Source}
    (isHighest : highest.IsHighest) (source : Source) :
    ((dice.maxRoll bonus).run.run source).2 = source ∧
      ((dice.maxRoll bonus).run.run source).1.map Evaluation.counted =
        ((dice.roll bonus).run.run highest).1.map Evaluation.counted := by
  constructor
  · obtain ⟨result, same⟩ := draws_nothing_evaluate dice bonus
    rw [maxRoll, same]
  · have proper := (well_formed_of_dice_parse accepted).proper
    have agree := (matches_highest_evaluate proper bonus highest source isHighest).1
    exact (agree.map_eq fun _ _ counted => counted).symm

/-- The maximum of accepted dice draws nothing. Its total, its natural face and its threat are those
of a roll on a source on which every die shows its highest side, and where the one fails, so does
the other. A roll whose text asks for the maximum draws nothing either, and comes to the same on
any two sources. -/
theorem maximum_needs_no_source :
    (∀ (text : Text) (dice : Dice), Dice.parse text = .ok dice →
      ∀ (bonus : Int) (highest : Source), highest.IsHighest → ∀ source : Source,
        ((dice.maxRoll bonus).run.run source).2 = source ∧
          ((dice.maxRoll bonus).run.run source).1.map Evaluation.counted =
            ((dice.roll bonus).run.run highest).1.map Evaluation.counted) ∧
      ∀ (text : Text) (specification : Specification),
        Specification.parse text = .ok specification →
        (∃ clause ∈ Specification.clausesOf text, Clause.AsksMaximum clause) →
        ∀ first second : Session,
          ((roll text).run.run first).1 = ((roll text).run.run second).1 ∧
            ((roll text).run.run first).2.source = first.source :=
  ⟨fun _ _ accepted bonus _ isHighest => Dice.maximum_counts_as_highest_roll accepted bonus isHighest,
    fun _ _ accepted => maximized_roll accepted⟩

/-- A forced first die among several attempts, less than one die, and a roll of two combinations
that is repeated and confirmed. -/
theorem maximum_needs_no_source_of_forced_dice :
    let dice := "(>3d6 best of 2 - 1/3d8) × 2 |max 36".toList
    let text := "Hit = d20+{4/2} |c19| repeat 2 | ! ".toList
    let first : Session := { source := Source.ofFaces [2, 4, 1] }
    let second : Session := { source := Source.highest }
    (∃ parsed, Dice.parse dice = .ok parsed ∧
      ((parsed.maxRoll 5).run.run first.source).2 = first.source ∧
      ((parsed.maxRoll 5).run.run first.source).1.map Evaluation.counted =
        ((parsed.roll 5).run.run Source.highest).1.map Evaluation.counted) ∧
    (∃ specification, Specification.parse text = .ok specification) ∧
    ((roll text).run.run first).1 = ((roll text).run.run second).1 ∧
    ((roll text).run.run first).2.source = first.source ∧
    ((roll text).run.run first).1.map (fun rolled => rolled.2.length) = .ok 8 := by
  intro dice text first second
  obtain ⟨parsed, accepted⟩ : ∃ parsed, Dice.parse dice = .ok parsed :=
    exists_of_is_ok (by decide +kernel)
  obtain ⟨specification, taken⟩ : ∃ specification, Specification.parse text = .ok specification :=
    exists_of_is_ok (by decide +kernel)
  have asks : ∃ clause ∈ Specification.clausesOf text, Clause.AsksMaximum clause :=
    ⟨" !".toList, by decide +kernel, .inl rfl⟩
  have counted : ((roll text).run.run first).1.map (fun rolled => rolled.2.length) = .ok 8 := by
    decide +kernel
  obtain ⟨maximum, maximized⟩ := maximum_needs_no_source
  have highest := maximum dice parsed accepted 5 Source.highest Source.is_highest_highest first.source
  obtain ⟨same, untouched⟩ := maximized text specification taken asks first second
  exact ⟨⟨parsed, accepted, highest⟩, ⟨specification, taken⟩, same, untouched, counted⟩

end TabletopDice
