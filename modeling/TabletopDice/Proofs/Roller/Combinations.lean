import TabletopDice.Proofs.Expression.Alphabet
import TabletopDice.Proofs.Roller.Calls

/-!
Alternatives in an accepted specification. The values of a combination are put into their
places one after another, and a value may hold anything, even a brace; but a brace that
is not the beginning of a place would be left over in the end, and no dice are written
with braces. So every combination that is accepted has all its values in their places, as
if they were put there at once.
-/

namespace TabletopDice

open Text

namespace Segment

/-- The segments with values in place of the braces, all at once. Braces for which there is no
value are left. -/
def fill : List Segment → List Text → Text
  | [], _ => []
  | plain text :: segments, values => text ++ fill segments values
  | choice _ :: segments, value :: values => value ++ fill segments values
  | choice values :: segments, [] => '{' :: values ++ '}' :: fill segments []

theorem count_place (index : Nat) : (place index).count '{' = 1 := by
  have digits : '{' ∉ ofNat index := fun member =>
    absurd (is_ascii_digit_of_nat member) (by decide)
  rw [place, List.cons_append, List.count_cons_self, List.count_append,
    List.count_eq_zero_of_not_mem digits]
  rfl

theorem count_template (index : Nat) (segments : List Segment) :
    (segments.filterMap values?).length ≤ (template index segments).count '{' := by
  induction segments generalizing index with
  | nil => exact Nat.le_refl _
  | cons segment segments ih =>
      cases segment with
      | plain text =>
          rw [List.filterMap_cons_none rfl, template, List.count_append]
          exact Nat.le_trans (ih index) (Nat.le_add_left ..)
      | choice values =>
          have listed : values? (choice values) = some values := rfl
          have behind := ih (index + 1)
          rw [List.filterMap_cons_some listed, template, List.count_append, count_place,
            List.length_cons]
          omega

end Segment

theorem count_substitute (index : Nat) (template : Text) (values : List Text) :
    template.count '{' ≤ (substitute index template values).count '{' + values.length := by
  induction values generalizing index template with
  | nil => exact Nat.le_refl _
  | cons value values ih =>
      have first := count_replace_first '{' (Segment.place index) value template
      have behind := ih (index + 1) (replaceFirst (Segment.place index) value template)
      rw [Segment.count_place] at first
      rw [substitute, List.length_cons]
      omega

theorem replace_first_place (index : Nat) (value : Text) {front : Text} (plain : '{' ∉ front)
    (rest : Text) :
    replaceFirst (Segment.place index) value (front ++ Segment.place index ++ rest) =
      front ++ value ++ rest := by
  induction front with
  | nil =>
      have here := after_append (Segment.place index) rest
      rw [Segment.place, List.cons_append, List.cons_append] at here
      rw [List.nil_append, Segment.place, List.cons_append, List.cons_append, replaceFirst, here]
      rfl
  | cons char front ih =>
      obtain ⟨other, behind⟩ := List.ne_and_not_mem_of_not_mem_cons plain
      have absent (text : Text) : after? (Segment.place index) (char :: text) = none := by
        rw [Segment.place, List.cons_append, after?, if_neg (Ne.symm other)]
      rw [List.cons_append, List.cons_append, replaceFirst, absent, ih behind]
      rfl

/-- If no brace is left over, the values stand in their places. Every step takes away one brace
at most, so where all are gone no brace stood in front of the place, and no value had one. -/
theorem substitute_append_template (index : Nat) {front : Text} {segments : List Segment}
    {values : List Text} (enough : values.length = (segments.filterMap Segment.values?).length)
    (clean : '{' ∉ substitute index (front ++ Segment.template index segments) values) :
    substitute index (front ++ Segment.template index segments) values =
      front ++ Segment.fill segments values := by
  induction segments generalizing index front values with
  | nil =>
      rw [List.eq_nil_of_length_eq_zero enough]
      rfl
  | cons segment segments ih =>
      cases segment with
      | plain text =>
          rw [Segment.template, ← List.append_assoc] at clean ⊢
          rw [Segment.fill, ← List.append_assoc]
          exact ih index enough clean
      | choice written =>
          cases values with
          | nil => cases enough
          | cons value values =>
              -- A brace in front would be one more than there are steps to take braces away.
              have plain : '{' ∉ front := by
                have whole := count_substitute index
                  (front ++ Segment.template index (.choice written :: segments)) (value :: values)
                have places := Segment.count_template index (.choice written :: segments)
                rw [List.count_eq_zero_of_not_mem clean, List.count_append, enough] at whole
                exact List.count_eq_zero.mp (by omega)
              have placed := replace_first_place index value plain
                (Segment.template (index + 1) segments)
              rw [List.append_assoc] at placed
              rw [Segment.template, substitute, placed] at clean ⊢
              rw [Segment.fill, ← List.append_assoc]
              exact ih (index + 1) (Nat.succ.inj enough) clean

theorem substitute_eq_fill {segments : List Segment} {values : List Text}
    (enough : values.length = (segments.filterMap Segment.values?).length)
    (clean : '{' ∉ substitute 0 (Segment.template 0 segments) values) :
    substitute 0 (Segment.template 0 segments) values = Segment.fill segments values := by
  rw [← List.nil_append (Segment.template 0 segments)] at clean ⊢
  exact substitute_append_template 0 enough clean

section Positions

/-- The positions of values, one in every set; the last varies fastest. -/
def positions : List (List Text) → List (List Nat)
  | [] => [[]]
  | values :: sets =>
      (List.range values.length).flatMap fun index => (positions sets).map (index :: ·)

def valuesAt : List (List Text) → List Nat → List Text
  | values :: sets, index :: position => values.getD index [] :: valuesAt sets position
  | _, _ => []

example : positions [[['1'], ['2']], [['6'], ['8']]] = [[0, 0], [0, 1], [1, 0], [1, 1]] := rfl

theorem mem_positions {sets : List (List Text)} {position : List Nat} :
    position ∈ positions sets ↔
      List.Forall₂ (fun index values => index < values.length) position sets := by
  induction sets generalizing position with
  | nil => rw [positions, List.mem_singleton, List.forall₂_nil_right_iff]
  | cons values sets ih =>
      rw [positions, List.mem_flatMap]
      constructor
      · rintro ⟨index, inside, member⟩
        obtain ⟨behind, others, rfl⟩ := List.mem_map.mp member
        exact .cons (List.mem_range.mp inside) (ih.mp others)
      · intro inside
        cases inside with
        | cons first others =>
            exact ⟨_, List.mem_range.mpr first, List.mem_map.mpr ⟨_, ih.mpr others, rfl⟩⟩

theorem positions_sorted (sets : List (List Text)) : (positions sets).Pairwise (· < ·) := by
  induction sets with
  | nil => exact List.pairwise_singleton ..
  | cons values sets ih =>
      rw [positions, List.pairwise_flatMap]
      constructor
      · intro index _
        rw [List.pairwise_map]
        exact ih.imp fun less => List.cons_lt_cons_iff.mpr (.inr ⟨rfl, less⟩)
      · refine List.pairwise_lt_range.imp ?_
        intro first second less one isOne other isOther
        obtain ⟨_, -, rfl⟩ := List.mem_map.mp isOne
        obtain ⟨_, -, rfl⟩ := List.mem_map.mp isOther
        exact List.cons_lt_cons_iff.mpr (.inl less)

theorem map_range_values (values : List Text) :
    (List.range values.length).map (fun index => values.getD index []) = values := by
  apply List.ext_getElem
  · rw [List.length_map, List.length_range]
  · intro index _ inside
    rw [List.getElem_map, List.getElem_range, List.getD_eq_getElem?_getD,
      List.getElem?_eq_getElem inside]
    rfl

theorem combinations_eq (sets : List (List Text)) :
    combinations sets = (positions sets).map (valuesAt sets) := by
  induction sets with
  | nil => rfl
  | cons values sets ih =>
      calc
        combinations (values :: sets) =
            values.flatMap fun value => (combinations sets).map (value :: ·) := rfl
        _ = (List.range values.length).flatMap fun index =>
              (combinations sets).map (values.getD index [] :: ·) := by
          conv_lhs => rw [← map_range_values values]
          rw [List.flatMap_map]
        _ = (positions (values :: sets)).map (valuesAt (values :: sets)) := by
          rw [ih, positions, List.map_flatMap]
          simp only [List.map_map]
          rfl

end Positions

namespace Specification

section Expressions

variable {text expression read : Text} {modifiers final : Modifiers}

/-- What is rolled of a text: without its title, with glyphs for the digraphs, and with the
limits of its clauses behind it. -/
def coreExpression (text : Text) : Text :=
  let rest := (splitTitle (hideComparisons text)).2
  replacePairs '/' '/' '÷' <|
    match splitOn '|' rest with
    | expression :: clause :: clauses =>
        trim expression ++
          ((clause :: clauses).filter Clause.startsWithLimit).flatMap fun limit => '|' :: limit
    | _ => rest

theorem Cuts.core (cut : Cuts text expression modifiers) : expression = coreExpression text := by
  obtain ⟨written, accepted, same⟩ := cut
  rw [same]
  unfold splitModifiers at accepted
  unfold coreExpression
  split at accepted
  next first second more parts =>
    simp only [parts]
    rw [(read_clauses_eq_ok.mp accepted).2]
  next few =>
    cases accepted
    dsimp only
    split
    next first second more parts => exact absurd parts (few first second more)
    next => rfl

def valueSets (expression : Text) : List (List Text) :=
  ((Segment.ofText expression).filterMap Segment.values?).map (splitOn '/')

theorem Cuts.value_sets {sets : List (List Text)} (cut : Cuts text expression modifiers)
    (offered : Offers expression sets) : valueSets (coreExpression text) = sets := by
  rw [← cut.core]
  exact (read_alternatives_eq_ok.mp offered).1.symm

theorem length_of_mem_combinations {sets : List (List Text)} :
    ∀ values ∈ combinations sets, values.length = sets.length := by
  induction sets with
  | nil => exact List.forall_mem_singleton.mpr rfl
  | cons set sets ih =>
      intro values member
      obtain ⟨value, -, combined⟩ := List.mem_flatMap.mp member
      obtain ⟨rest, inside, rfl⟩ := List.mem_map.mp combined
      exact congrArg (· + 1) (ih rest inside)

/-- Dice that are accepted are written without braces, so in each combination all values are in
their places. -/
theorem substitute_of_checked {sets : List (List Text)} (sameSets : sets = valueSets expression)
    (template : modifiers.template = Segment.template 0 (Segment.ofText expression))
    (checked : checkCombinations modifiers (combinations sets) = .ok ()) :
    ∀ values ∈ combinations sets, ∃ dice,
      substitute 0 modifiers.template values =
        Segment.fill (Segment.ofText expression) values ∧
      Dice.parse (Segment.fill (Segment.ofText expression) values) = .ok dice := by
  intro values member
  obtain ⟨dice, accepted, -⟩ := rollable_of_combinations checked values member
  have enough : values.length =
      ((Segment.ofText expression).filterMap Segment.values?).length := by
    rw [length_of_mem_combinations values member, sameSets, valueSets, List.length_map]
  have clean := (Dice.no_brace_of_parse accepted).1
  rw [template] at accepted clean ⊢
  have filled := substitute_eq_fill enough clean
  rw [filled] at accepted
  exact ⟨dice, filled, accepted⟩

theorem parse_eq_ok_of_value_sets {specification : Specification}
    (accepted : parse text = .ok specification) (grouped : valueSets (coreExpression text) ≠ []) :
    specification.modifiers.alternatives = valueSets (coreExpression text) ∧
      specification.modifiers.template =
        Segment.template 0 (Segment.ofText (coreExpression text)) ∧
      checkCombinations specification.modifiers
        (combinations specification.modifiers.alternatives) = .ok () := by
  cases accepted_of_parse accepted with
  | chance cut offered | single cut offered => exact absurd (cut.value_sets offered) grouped
  | several cut offered _ checked =>
      rw [cut.value_sets offered, ← cut.core]
      exact ⟨rfl, rfl, checked⟩

end Expressions

end Specification

namespace SessionM

open Specification

/-- An accepted expression with sets of values in braces stands for one expression for every
choice of a position in each set, in lexicographic order. It is the core expression with the
chosen values in place of the braces, all at once; no brace is left in it, and it is dice. A
roll passes over just these dice. -/
theorem roll_combinations {text : Text} {specification : Specification}
    (accepted : Specification.parse text = .ok specification)
    (grouped : valueSets (coreExpression text) ≠ []) :
    let sets := valueSets (coreExpression text)
    let chosen position :=
      Segment.fill (Segment.ofText (coreExpression text)) (valuesAt sets position)
    ∃ positions : List (List Nat),
      positions.Pairwise (· < ·) ∧
      (∀ position, position ∈ positions ↔
        List.Forall₂ (fun index values => index < values.length) position sets) ∧
      (∀ position ∈ positions,
        substitute 0 specification.modifiers.template (valuesAt sets position) =
          chosen position ∧
        '{' ∉ chosen position ∧ '}' ∉ chosen position ∧
        ∃ dice, Dice.parse (chosen position) = .ok dice) ∧
      ∀ session : Session, (roll text).run.run session =
        (do
          let results ← rollPasses specification.modifiers
            (positions.map fun position => Dice.parse (chosen position))
            (if specification.modifiers.title.isEmpty then text else specification.modifiers.title)
            maxPasses {}
          return (specification.modifiers.title, results) : SessionM _).run.run
            { session with roller := Roller.ofSpecification specification } := by
  intro sets chosen
  obtain ⟨alternatives, template, checked⟩ := parse_eq_ok_of_value_sets accepted grouped
  have filled : ∀ position ∈ positions sets, ∃ dice,
      substitute 0 specification.modifiers.template (valuesAt sets position) = chosen position ∧
        Dice.parse (chosen position) = .ok dice := by
    intro position member
    apply substitute_of_checked alternatives template checked
    rw [alternatives, combinations_eq]
    exact List.mem_map_of_mem member
  refine ⟨positions sets, positions_sorted sets, fun _ => mem_positions, ?_, ?_⟩
  · intro position member
    obtain ⟨dice, same, parsed⟩ := filled position member
    obtain ⟨noOpening, noClosing⟩ := Dice.no_brace_of_parse parsed
    exact ⟨same, noOpening, noClosing, dice, parsed⟩
  · intro session
    have places : specification.modifiers.template ≠ [] := by
      rw [template]
      exact template_ne_nil 0 fun none => grouped (congrArg (List.map (splitOn '/')) none)
    have sequence : (Roller.ofSpecification specification).sequence =
        (positions sets).map fun position => Dice.parse (chosen position) := by
      have combined := sequence_of_template specification.dice places
      rw [alternatives, combinations_eq, List.map_map] at combined
      refine combined.trans (List.map_congr_left ?_)
      intro position member
      obtain ⟨dice, same, -⟩ := filled position member
      exact congrArg Dice.parse same
    rw [run_roll accepted, sequence]

/-- Two sets whose values look like the numbers of places, with a limit behind them. -/
theorem roll_combinations_of_two_sets :
    let text := "Hit={1/0}d{6/8}|max 9".toList
    valueSets (coreExpression text) ≠ [] ∧
      ∃ (specification : Specification) (positions : List (List Nat)),
        Specification.parse text = .ok specification ∧ positions.Pairwise (· < ·) ∧
        [1, 0] ∈ positions ∧ [1, 2] ∉ positions ∧
        substitute 0 specification.modifiers.template ["0".toList, "6".toList] =
          "0d6|max 9".toList ∧
        ∃ dice, Dice.parse "0d6|max 9".toList = .ok dice := by
  intro text
  have sets : valueSets (coreExpression text) =
      [["1".toList, "0".toList], ["6".toList, "8".toList]] := by decide +kernel
  have grouped : valueSets (coreExpression text) ≠ [] := by
    rw [sets]
    nofun
  have filled : Segment.fill (Segment.ofText (coreExpression text)) ["0".toList, "6".toList] =
      "0d6|max 9".toList := by decide +kernel
  have taken : (Specification.parse text).isOk = true := by decide +kernel
  cases accepted : Specification.parse text with
  | error failure =>
      rw [accepted] at taken
      cases taken
  | ok specification =>
      obtain ⟨positions, sorted, members, chosen, -⟩ := roll_combinations accepted grouped
      rw [sets] at members chosen
      have first : [1, 0] ∈ positions := (members _).mpr (.cons (by decide) (.cons (by decide) .nil))
      have none : [1, 2] ∉ positions := by
        intro member
        cases (members _).mp member with
        | cons _ rest => cases rest with
          | cons inside _ => exact absurd inside (by decide)
      obtain ⟨placed, -, -, parsed⟩ := chosen [1, 0] first
      refine ⟨grouped, specification, positions, rfl, sorted, first, none, ?_, ?_⟩
      · exact placed.trans filled
      · rw [← filled]
        exact parsed

end SessionM

end TabletopDice
