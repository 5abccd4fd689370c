import TabletopDice.Proofs.Expression.LimitOrder
import TabletopDice.Proofs.Roller.ClauseOrder
import TabletopDice.Proofs.Roller.Independence
import TabletopDice.Proofs.Roller.Tails

/-!
Specifications with their clauses in another order. The clauses are read one by one, and the
limits among them come behind the expression again; so the order of the other clauses is one
of settings, and the order of the limits is one of tails. Neither counts: both orders are
accepted or none, and they are rolled alike.
-/

namespace TabletopDice

open Text

/-- Behind clauses with a bar in front of each, only the last one is trimmed. -/
theorem exists_trim_right_append {clauses : List Text} (some : clauses ≠ []) (text : Text) :
    ∃ trimmed : List Text, trimRight (text ++ clauses.flatMap ('|' :: ·)) =
        text ++ trimmed.flatMap ('|' :: ·) ∧ trimmed.map trimRight = clauses.map trimRight := by
  obtain ⟨front, last, rfl⟩ := (List.eq_nil_or_concat' clauses).resolve_left some
  have idempotent : trimRight (trimRight last) = trimRight last := List.rdropWhile_idempotent ..
  have cut : trimRight (text ++ front.flatMap ('|' :: ·) ++ '|' :: last) =
      text ++ front.flatMap ('|' :: ·) ++ '|' :: trimRight last :=
    drop_trailing_append_cons rfl _ last
  refine ⟨front ++ [trimRight last], ?_, ?_⟩
  · simpa using cut
  · rw [List.map_append, List.map_append, List.map_singleton, List.map_singleton, idempotent]

namespace Specification

/-- The clause has no character that would end a title, a set of values or a clause. -/
def IsPlain (clause : Text) : Prop := ∀ char ∈ clause, char ∉ ['{', '}', '=', '|']

instance (clause : Text) : Decidable (IsPlain clause) :=
  decidableForallMem clause

theorem plain_of_reordered {clauses others : List Text}
    (reordered : (clauses.map trimRight).Perm (others.map trimRight))
    (plain : ∀ clause ∈ clauses, IsPlain clause) : ∀ clause ∈ others, IsPlain clause := by
  intro clause member char inside special
  have visible : ∀ char ∈ ['{', '}', '=', '|'], isBlank char = false := by decide
  refine not_mem_of_reordered reordered (visible char special) ?_ clause member inside
  exact fun other isClause also => plain other isClause char also special

def withClauses (front : Text) (clauses : List Text) : Text :=
  front ++ clauses.flatMap ('|' :: ·)

section Front

variable {clauses : List Text} (plain : ∀ clause ∈ clauses, IsPlain clause) (front : Text)

include plain

omit front in
theorem not_mem_of_plain {char : Char} (special : char ∈ ['{', '}', '=']) :
    char ∉ clauses.flatMap ('|' :: ·) := by
  intro member
  obtain ⟨clause, isClause, inside⟩ := List.mem_flatMap.mp member
  rcases List.mem_cons.mp inside with rfl | inside
  · exact absurd special (by decide)
  · exact plain clause isClause char inside (List.mem_append_left ['|'] special)

theorem hide_comparisons_append :
    hideComparisons (front ++ clauses.flatMap ('|' :: ·)) =
      hideComparisons front ++ clauses.flatMap ('|' :: ·) := by
  have noEquals : '=' ∉ clauses.flatMap ('|' :: ·) := not_mem_of_plain plain (by decide)
  have stops : Stops (· == '=') (clauses.flatMap ('|' :: ·)) := stops_clauses rfl clauses
  have kept (first glyph : Char) :
      replacePairs first '=' glyph (clauses.flatMap ('|' :: ·)) = clauses.flatMap ('|' :: ·) :=
    replace_pairs_of_chain glyph (chain_of_not_mem (.inr noEquals))
  unfold hideComparisons
  rw [replace_pairs_append stops, kept, replace_pairs_append stops, kept]

theorem exists_split_title (some : clauses ≠ [])
    (core : '|' ∉ (splitTitle (hideComparisons front)).2) :
    ∃ (first : Text) (trimmed : List Text),
      splitTitle (hideComparisons (front ++ clauses.flatMap ('|' :: ·))) =
        ((splitTitle (hideComparisons front)).1, first ++ trimmed.flatMap ('|' :: ·)) ∧
      '|' ∉ first ∧ trim first = trim (splitTitle (hideComparisons front)).2 ∧
      trimmed.map trimRight = clauses.map trimRight := by
  have noEquals : '=' ∉ clauses.flatMap ('|' :: ·) := not_mem_of_plain plain (by decide)
  rw [hide_comparisons_append plain]
  unfold splitTitle at core ⊢
  rw [split_first_append noEquals]
  cases found : splitFirst? '=' (hideComparisons front) with
  | none =>
      rw [found] at core
      exact ⟨hideComparisons front, clauses, rfl, core, rfl, rfl⟩
  | some parts =>
      obtain ⟨title, rest⟩ := parts
      rw [found] at core
      obtain ⟨trimmed, cut, same⟩ := exists_trim_right_append some (trimLeft rest)
      have behind : trim (rest ++ clauses.flatMap ('|' :: ·)) =
          trimLeft rest ++ trimmed.flatMap ('|' :: ·) := by
        rw [trim, trim_left_append_of_stops (stops_clauses rfl clauses), cut]
      refine ⟨trimLeft rest, trimmed, congrArg (trim title, ·) behind, ?_, ?_, same⟩
      · intro bar
        exact core ((mem_trim_right (by decide)).mpr bar)
      · have once : trimLeft (trimLeft rest) = trimLeft rest :=
          trim_left_of_stops (stops_drop_while isBlank rest)
        calc
          trim (trimLeft rest) = trim rest := congrArg trimRight once
          _ = trim (trim rest) := (trim_trim rest).symm

end Front

variable {clauses others : List Text} {front : Text}

/-- With clauses behind it a specification is read in two steps: the clauses set what is not of
the expression, and the limits among them come back behind the core. -/
theorem exists_parse_eq (some : clauses ≠ []) (plain : ∀ clause ∈ clauses, IsPlain clause)
    (core : '|' ∉ (splitTitle (hideComparisons front)).2) :
    ∃ limits : List Text,
      limits.map trimRight = (clauses.filter Clause.startsWithLimit).map trimRight ∧
      parse (withClauses front clauses) =
        clauses.foldlM Modifiers.withText { title := (splitTitle (hideComparisons front)).1 } >>=
          fun modifiers => assemble modifiers
            (replacePairs '/' '/' '÷' (trim (splitTitle (hideComparisons front)).2) ++
              replacePairs '/' '/' '÷' (limits.flatMap ('|' :: ·))) := by
  obtain ⟨first, trimmed, cut, noBar, same, trims⟩ := exists_split_title plain front some core
  have bars : ∀ clause ∈ trimmed, '|' ∉ clause := fun clause member bar =>
    plain_of_reordered (.of_eq trims.symm) plain clause member '|' bar (by decide)
  have parts : splitOn '|' (first ++ trimmed.flatMap ('|' :: ·)) = first :: trimmed :=
    split_on_parts bars noBar
  have limits : (trimmed.filter Clause.startsWithLimit).map trimRight =
      (clauses.filter Clause.startsWithLimit).map trimRight := by
    rw [← Clause.filter_limits_trim_right, trims, Clause.filter_limits_trim_right]
  have settings (modifiers : Modifiers) :
      trimmed.foldlM Modifiers.withText modifiers =
        clauses.foldlM Modifiers.withText modifiers := by
    rw [← Modifiers.foldlM_trim_right, trims, Modifiers.foldlM_trim_right]
  refine ⟨trimmed.filter Clause.startsWithLimit, limits, ?_⟩
  obtain ⟨last, more, rfl⟩ : ∃ last more, trimmed = last :: more := by
    apply List.exists_cons_of_ne_nil
    rintro rfl
    exact some (List.map_eq_nil_iff.mp trims.symm)
  rw [withClauses, parse_eq, cut, splitModifiers]
  dsimp only
  rw [parts, ← settings]
  dsimp only
  rw [read_clauses_eq, same]
  cases (last :: more).foldlM Modifiers.withText { title := _ } with
  | error failure => rfl
  | ok modifiers =>
      dsimp only [Except.map, bind, Except.bind]
      rw [replace_pairs_append (stops_clauses rfl _)]

theorem kind_of_limit {clause : Text} (limit : Clause.startsWithLimit clause = true) :
    Clause.kind? clause = some (if Limits.isMinimum clause then .minimum else .maximum) := by
  have read : Clause.read? clause = some .limit := if_pos limit
  rw [Clause.kind?, read]
  rfl

theorem pairwise_limits (distinct : (clauses.filterMap Clause.kind?).Nodup) :
    ((clauses.filter Clause.startsWithLimit).map trimRight).Pairwise fun one other =>
      Limits.isMinimum one ≠ Limits.isMinimum other := by
  rw [List.pairwise_map, List.pairwise_filter]
  refine (List.pairwise_filterMap.mp distinct).imp ?_
  intro one other different limit otherLimit same
  rw [Limits.is_minimum_trim_right, Limits.is_minimum_trim_right] at same
  apply different _ (kind_of_limit limit) _ (kind_of_limit otherLimit)
  rw [same]

theorem exchangeable_of_reordered {limits tail : List Text}
    (plain : ∀ limit ∈ limits, IsPlain limit)
    (reordered : (limits.map trimRight).Perm (tail.map trimRight))
    (apart : (limits.map trimRight).Pairwise fun one other =>
      Limits.isMinimum one ≠ Limits.isMinimum other) :
    Exchangeable (replacePairs '/' '/' '÷' (limits.flatMap ('|' :: ·)))
      (replacePairs '/' '/' '÷' (tail.flatMap ('|' :: ·))) := by
  have tailPlain := plain_of_reordered reordered plain
  have noBrace {texts : List Text} (plain : ∀ text ∈ texts, IsPlain text) {brace : Char}
      (special : brace ∈ ['{', '}', '=']) :
      brace ∉ replacePairs '/' '/' '÷' (texts.flatMap ('|' :: ·)) := by
    intro member
    rcases mem_of_mem_replace_pairs member with rfl | inside
    · exact absurd special (by decide)
    · exact not_mem_of_plain plain special inside
  refine ⟨⟨⟨?_, ?_⟩, ?_, ?_⟩, ?_, ?_⟩
  · exact noBrace plain (by decide)
  · exact noBrace plain (by decide)
  · exact noBrace tailPlain (by decide)
  · exact noBrace tailPlain (by decide)
  · have lengths : limits.length = tail.length := by simpa using reordered.length_eq
    rw [replace_pairs_clauses, replace_pairs_clauses]
    cases limits with
    | nil =>
        left
        rw [List.eq_nil_of_length_eq_zero lengths.symm]
        exact ⟨rfl, rfl⟩
    | cons limit limits =>
        cases tail with
        | nil => cases lengths
        | cons other tail => exact .inr ⟨_, _, rfl, rfl⟩
  · have bars : ∀ limit ∈ limits, '|' ∉ limit :=
      fun limit member bar => plain limit member '|' bar (by decide)
    exact fun text dice accepted => Dice.parse_of_reordered bars reordered apart accepted

theorem parse_of_reordered {specification : Specification}
    (plain : ∀ clause ∈ clauses, IsPlain clause)
    (core : '|' ∉ (splitTitle (hideComparisons front)).2)
    (distinct : (clauses.filterMap Clause.kind?).Nodup) (reordered : clauses.Perm others)
    (accepted : parse (withClauses front clauses) = .ok specification) :
    ∃ exchanged, parse (withClauses front others) = .ok exchanged ∧
      RollsAlike specification exchanged := by
  by_cases none : clauses = []
  · subst none
    rw [reordered.nil_eq] at accepted
    exact ⟨specification, accepted, RollsAlike.refl specification⟩
  · have some : others ≠ [] := by
      rintro rfl
      exact none reordered.eq_nil
    have otherPlain : ∀ clause ∈ others, IsPlain clause :=
      fun clause member => plain clause (reordered.mem_iff.mpr member)
    obtain ⟨limits, same, read⟩ := exists_parse_eq none plain core
    obtain ⟨tail, sameTail, readOther⟩ := exists_parse_eq some otherPlain core
    rw [read, bind_eq_ok] at accepted
    obtain ⟨modifiers, set, assembled⟩ := accepted
    have plainLimits : ∀ limit ∈ limits, IsPlain limit :=
      plain_of_reordered (.of_eq same.symm) fun clause limit =>
        plain clause (List.mem_of_mem_filter limit)
    have exchangeable : Exchangeable (replacePairs '/' '/' '÷' (limits.flatMap ('|' :: ·)))
        (replacePairs '/' '/' '÷' (tail.flatMap ('|' :: ·))) := by
      apply exchangeable_of_reordered plainLimits
      · rw [same, sameTail]
        exact (reordered.filter _).map trimRight
      · rw [same]
        exact pairwise_limits distinct
    obtain ⟨exchanged, built, alike⟩ := assemble_of_exchanged exchangeable assembled
    refine ⟨exchanged, ?_, alike⟩
    rw [readOther, bind_eq_ok]
    exact ⟨modifiers, Modifiers.foldlM_of_reordered _ reordered distinct set, built⟩

end Specification

namespace SessionM

open Specification

/-- The template is not looked at again once the dice of its combinations are made. -/
theorem rolls_as_with_template (modifiers : Modifiers) (template : Text) :
    RollsAs modifiers { modifiers with template } where
  dice _ _ _ := rfl
  repeatFor := rfl
  advance _ _ := rfl

theorem alike_of_rolls_alike {one other : Specification} (alike : RollsAlike one other)
    (name otherName : Text) :
    Alike (rollSpecification one name) (rollSpecification other otherName) := by
  have rolled : rollSpecification other otherName = rollSpecification one otherName := by
    rw [rollSpecification, rollSpecification, alike.sequence, alike.modifiers,
      roll_passes_of_rolls_as (rolls_as_with_template _ _)]
  rw [rolled]
  exact alike_roll_specification one name otherName

theorem is_ok_set_specification (text : Text) (session : Session) :
    ((setSpecification text).run.run session).1.isOk = (parse text).isOk := by
  rw [run_set_specification]
  cases parse text with
  | ok specification => rfl
  | error failure => rfl

variable {front : Text} {clauses others : List Text}

/-- The order of clauses of different kinds does not count. In front of them stand a title with its
equals sign, or none, and a core, which is any text without a bar. Both specifications are
accepted or none; and if they are, then on the same source a roll gives the same title and the
same results, or fails alike, and leaves the same source, whatever was rolled before. -/
theorem roll_of_reordered (plain : ∀ clause ∈ clauses, IsPlain clause)
    (core : '|' ∉ (splitTitle (hideComparisons front)).2)
    (distinct : (clauses.filterMap Clause.kind?).Nodup) (reordered : clauses.Perm others)
    (first second : Session) :
    ((setSpecification (withClauses front clauses)).run.run first).1.isOk =
        ((setSpecification (withClauses front others)).run.run second).1.isOk ∧
      (((setSpecification (withClauses front clauses)).run.run first).1.isOk = true →
        first.source = second.source →
          let one := (roll (withClauses front clauses)).run.run first
          let other := (roll (withClauses front others)).run.run second
          one.1 = other.1 ∧ one.2.source = other.2.source) := by
  have otherPlain : ∀ clause ∈ others, IsPlain clause :=
    fun clause member => plain clause (reordered.mem_iff.mpr member)
  have otherDistinct : (others.filterMap Clause.kind?).Nodup :=
    (reordered.filterMap _).nodup_iff.mp distinct
  rw [is_ok_set_specification, is_ok_set_specification]
  cases accepted : parse (withClauses front clauses) with
  | ok specification =>
      obtain ⟨exchanged, otherAccepted, alike⟩ :=
        parse_of_reordered plain core distinct reordered accepted
      refine ⟨by rw [otherAccepted]; rfl, ?_⟩
      intro _ same
      dsimp only
      rw [run_roll_given accepted, run_roll_given otherAccepted]
      exact alike_of_rolls_alike alike _ _ _ _ same
  | error failure =>
      refine ⟨?_, nofun⟩
      cases otherAccepted : parse (withClauses front others) with
      | error failure => rfl
      | ok specification =>
          obtain ⟨_, same, -⟩ :=
            parse_of_reordered otherPlain core otherDistinct reordered.symm otherAccepted
          rw [accepted] at same
          cases same

/-- An attack with a title and two dice to choose from. In the other order the messages stand in
front of the confirmation that must not replace them, and the maximum in front of the minimum. -/
theorem roll_of_reordered_attack :
    let front := "Hit >= 1 = d{20/12} + 3".toList
    let clauses :=
      [" c19+2", "min 5 ", "repeat 2", "sf YES//NO", "max 30", "until 9"].map String.toList
    let others :=
      ["max 30", "sf YES//NO", " c19+2", "until 9", "repeat 2", "min 5 "].map String.toList
    let first : Session := { source := Source.ofFaces [19, 7, 3] }
    let second : Session := { first with roller := Roller.cleared }
    (∀ clause ∈ clauses, IsPlain clause) ∧ '|' ∉ (splitTitle (hideComparisons front)).2 ∧
      (clauses.filterMap Clause.kind?).Nodup ∧ clauses.Perm others ∧
      ((setSpecification (withClauses front others)).run.run second).1.isOk = true ∧
      ((roll (withClauses front clauses)).run.run first).1 =
        ((roll (withClauses front others)).run.run second).1 := by
  intro front clauses others first second
  have plain : ∀ clause ∈ clauses, IsPlain clause := by decide
  have core : '|' ∉ (splitTitle (hideComparisons front)).2 := by decide +kernel
  have distinct : (clauses.filterMap Clause.kind?).Nodup := by decide +kernel
  have reordered : clauses.Perm others := by decide
  have accepted : (parse (withClauses front clauses)).isOk = true := by decide +kernel
  have set : ((setSpecification (withClauses front clauses)).run.run first).1.isOk = true :=
    (is_ok_set_specification _ first).trans accepted
  obtain ⟨same, rolled⟩ := roll_of_reordered plain core distinct reordered first second
  exact ⟨plain, core, distinct, reordered, same.symm.trans set, (rolled set rfl).1⟩

end SessionM

end TabletopDice
