import TabletopDice.Proofs.Dice.Attempts
import TabletopDice.Proofs.Dice.Kinds
import TabletopDice.Proofs.Expression.Printing

/-!
What the description of a rolled group tells of its attempts. Each attempt has a fragment of its
own, in the order of the draws, from which its faces can be read again; the one that counts is told
as the roll, the others as discarded, and none of those is better. The sum is told apart where
there is more than one die to add.
-/

namespace TabletopDice

theorem map_m_of_read {Value Written : Type} {read : Written → Option Value}
    {write : Value → Written} {values : List Value}
    (back : ∀ value ∈ values, read (write value) = some value) :
    (values.map write).mapM read = some values := by
  induction values with
  | nil => rfl
  | cons value values ih =>
      obtain ⟨first, others⟩ := List.forall_mem_cons.mp back
      rw [List.map_cons, List.mapM_cons, first, ih others]
      rfl

namespace Text

theorem trim_number_of_visible {text : Text} (visible : ∀ char ∈ text, isBlank char = false) :
    trimNumber text = text := by
  have kept : ∀ char ∈ text, isNumberBlank char = false := by
    intro char member
    rw [isNumberBlank, visible char member, Bool.false_and]
  have front : text.dropWhile isNumberBlank = text :=
    drop_while_of_stops fun char first => kept char (List.mem_of_head? first)
  rw [trimNumber, front]
  cases text with
  | nil => rfl
  | cons char rest => exact drop_trailing_append [] (List.cons_ne_nil char rest) kept

theorem ungrouped_of_not_mem {digits : Text} (absent : '_' ∉ digits) :
    ungrouped? digits = some digits := by
  induction digits with
  | nil => rfl
  | cons char rest ih =>
      have first := List.ne_of_not_mem_cons absent
      cases rest with
      | nil => simp [ungrouped?, Ne.symm first]
      | cons next rest =>
          have behind := List.not_mem_of_not_mem_cons absent
          have second := List.ne_of_not_mem_cons behind
          simp [ungrouped?, Ne.symm first, Ne.symm second, ih behind]

theorem read_int_of_digits {number : Nat} (short : (ofNat number).length ≤ maxDigits)
    (negative : Bool) {text : Text} (visible : ∀ char ∈ text, isBlank char = false)
    (signed : splitSign text = (negative, ofNat number)) :
    readInt? text = some (if negative then -(number : Int) else number) := by
  have ascii : ∀ char ∈ ofNat number, char.isDigit = true := fun _ => is_ascii_digit_of_nat
  have whole : ungrouped? (ofNat number) = some (ofNat number) :=
    ungrouped_of_not_mem fun member => absurd (ascii _ member) (by decide)
  have digits : (ofNat number).all isDigit = true :=
    List.all_eq_true.mpr fun char member => isDigit_of_ascii (ascii char member)
  have value := digits_value_of_nat number
  unfold readInt?
  rw [trim_number_of_visible visible, signed]
  dsimp only
  rw [whole]
  cases written : ofNat number with
  | nil => exact absurd written (of_nat_ne_nil number)
  | cons digit rest =>
      rw [written] at short digits value
      have room : rest.length < maxDigits := short
      simp only [digits, room, value, decide_true, Bool.and_self, if_true]

theorem read_int_of_int {number : Int} (tellable : isTellable number = true) :
    readInt? (ofInt number) = some number := by
  have short := is_tellable_iff_length.mp tellable
  have visible : ∀ char ∈ ofInt number, isBlank char = false := by
    intro char member
    rcases of_int_chars number char member with rfl | ascii
    · decide
    · exact is_visible_of_ascii ascii
  cases number with
  | ofNat number =>
      have unsigned : splitSign (ofNat number) = (false, ofNat number) := by
        unfold splitSign
        split
        next written =>
          exact absurd (is_ascii_digit_of_nat (written ▸ List.mem_cons_self)) (by decide)
        next written =>
          exact absurd (is_ascii_digit_of_nat (written ▸ List.mem_cons_self)) (by decide)
        next => rfl
      exact read_int_of_digits short false visible unsigned
  | negSucc number => exact read_int_of_digits short true visible rfl

/-- The whole numbers that stand between the commas; an empty text lists none. -/
def readList? : Text → Option (List Int)
  | [] => some []
  | text => (splitOn ',' text).mapM readInt?

theorem split_on_join {separator : Char} {part : Text} {parts : List Text}
    (absent : ∀ text ∈ part :: parts, separator ∉ text) :
    splitOn separator (join [separator] (part :: parts)) = part :: parts := by
  induction parts generalizing part with
  | nil => exact split_on_of_not_mem (absent part List.mem_cons_self)
  | cons next parts ih =>
      obtain ⟨first, others⟩ := List.forall_mem_cons.mp absent
      rw [join, List.append_assoc, List.singleton_append, split_on_append first, ih others]
      exact List.cons_ne_nil _ _

end Text

open Text

theorem read_list_of_comma_list {values : List Int}
    (tellable : ∀ value ∈ values, isTellable value = true) :
    readList? (commaList values) = some values := by
  cases values with
  | nil => rfl
  | cons value values =>
      have absent : ∀ text ∈ (value :: values).map ofInt, ',' ∉ text := by
        intro text member inside
        obtain ⟨number, -, rfl⟩ := List.mem_map.mp member
        rcases of_int_chars number ',' inside with sign | ascii
        · exact absurd sign (by decide)
        · exact absurd ascii (by decide)
      have parts : splitOn ',' (commaList (value :: values)) = (value :: values).map ofInt :=
        split_on_join absent
      have each : ((value :: values).map ofInt).mapM readInt? = some (value :: values) :=
        map_m_of_read fun value member => read_int_of_int (tellable value member)
      unfold readList?
      split
      next empty =>
        -- An empty text would hold one empty number.
        rw [empty] at parts
        exact absurd (List.cons.inj parts).1.symm (of_int_ne_nil value)
      next => rw [parts, each]

def FragmentKind.isAttempt : FragmentKind → Bool
  | .discarded | .maximumRoll | .roll => true
  | _ => false

abbrev attemptPart (told : List Fragment) : List Fragment :=
  partOf FragmentKind.isAttempt told

abbrev subtotalPart (told : List Fragment) : List Fragment :=
  partOf (fun kind => kind == .subtotal) told

namespace DieGroup

/-- What a description of a rolled group tells: every attempt in the order of the draws, all but
the one that counts as discarded, of which none is better, and the sum of more than one die. -/
structure IsTrail (group : DieGroup) (outcome : DieOutcome) (told : List Fragment) : Prop where
  attempts : ((attemptPart told).map Fragment.value).mapM readList? = some outcome.attempts
  roll : ∃ before roll behind faces,
    attemptPart told = before ++ roll :: behind ∧ before.length = outcome.chosen ∧
    (∀ fragment ∈ before ++ behind, fragment.kind = .discarded) ∧ roll.kind = outcome.rollKind ∧
    readList? roll.value = some faces ∧ outcome.attempts[outcome.chosen]? = some faces ∧
    sumFaces faces = outcome.value
  choice : ∀ faces ∈ outcome.attempts,
    if group.best then sumFaces faces ≤ outcome.value else outcome.value ≤ sumFaces faces
  subtotal : (subtotalPart told).map (fun fragment => readInt? fragment.value) =
    if 1 < group.numerator then [some outcome.value] else []

section Description

variable {group : DieGroup} {outcome : DieOutcome}

/-- Without a choice the first attempt is the only one. -/
theorem attempt_part_describe (alone : group.rerolls ≤ 0 →
    ∃ faces, outcome.attempts = [faces] ∧ outcome.chosen = 0) :
    attemptPart (group.describe (some outcome)) = outcome.attemptFragments := by
  have kept : ∀ kind ∈ attemptKinds, kind.isAttempt = true := by decide
  rw [attemptPart, part_describe_outcome group (by decide), shownFragments, part_append]
  have quiet : partOf FragmentKind.isAttempt
      (if 1 < (outcome.attempts.headD []).length then [Fragment.int .subtotal outcome.value]
        else []) = [] := by
    split
    · rfl
    · rfl
  rw [quiet, List.nil_append]
  split
  next single =>
    obtain ⟨faces, one, first⟩ := alone single
    rw [part_cons_of_pass (kept _ (roll_kind_mem outcome)), DieOutcome.attemptFragments, one, first]
    rfl
  next => exact part_eq_self (kind_of_attempt_fragments outcome) kept

theorem subtotal_part_describe :
    subtotalPart (group.describe (some outcome)) =
      if 1 < (outcome.attempts.headD []).length then [Fragment.int .subtotal outcome.value]
      else [] := by
  have dropped : ∀ kind ∈ attemptKinds, (kind == FragmentKind.subtotal) = false := by decide
  have rolled := dropped _ (roll_kind_mem outcome)
  have quiet : subtotalPart outcome.attemptFragments = [] :=
    part_eq_nil (kind_of_attempt_fragments outcome) dropped
  rw [subtotalPart, part_describe_outcome group (by decide), shownFragments]
  simp (disch := exact rolled) only [part_append, part_ite, part_cons_of_fail, part_nil, quiet,
    ite_self, List.append_nil]
  rfl

theorem values_of_attempt_fragments (outcome : DieOutcome) :
    outcome.attemptFragments.map Fragment.value = outcome.attempts.map commaList := by
  apply List.ext_getElem
  · rw [List.length_map, List.length_map, DieOutcome.attemptFragments, List.length_mapIdx]
  · intro index _ _
    simp only [DieOutcome.attemptFragments, List.getElem_map, List.getElem_mapIdx]

theorem attempt_fragments_split {before behind : List (List Int)} {faces : List Int}
    (attempts : outcome.attempts = before ++ faces :: behind)
    (place : before.length = outcome.chosen) :
    outcome.attemptFragments =
      before.map (fun faces => ⟨.discarded, commaList faces⟩) ++
        ⟨outcome.rollKind, commaList faces⟩ ::
          behind.map (fun faces => ⟨.discarded, commaList faces⟩) := by
  have elsewhere (attempts : List (List Int)) (shift : Nat)
      (apart : ∀ index < attempts.length, index + shift ≠ outcome.chosen) :
      attempts.mapIdx (fun index faces => (⟨if index + shift = outcome.chosen then outcome.rollKind
        else .discarded, commaList faces⟩ : Fragment)) =
        attempts.map fun faces => ⟨.discarded, commaList faces⟩ := by
    apply List.ext_getElem
    · rw [List.length_mapIdx, List.length_map]
    · intro index inside _
      rw [List.length_mapIdx] at inside
      rw [List.getElem_mapIdx, List.getElem_map, if_neg (apart index inside)]
  have front := elsewhere before 0 fun index inside => by omega
  have back := elsewhere behind (before.length + 1) fun index _ => by omega
  have chosen : 0 + before.length = outcome.chosen := by omega
  have shifted (index : Nat) : index + 1 + before.length = index + (before.length + 1) := by omega
  simp only [Nat.add_zero] at front
  rw [DieOutcome.attemptFragments, attempts, List.mapIdx_append, List.mapIdx_cons, if_pos chosen]
  simp only [shifted]
  rw [front, back]

end Description

section Outcomes

variable {group : DieGroup} {maximize : Bool} {source after : Source} {outcome : DieOutcome}

theorem Selects.choice {sums : List Int} {place : Nat} {counted : Int}
    (selects : group.Selects sums place counted) {sum : Int} (member : sum ∈ sums) :
    if group.best then sum ≤ counted else counted ≤ sum := by
  have extreme := selects.extreme
  split at extreme
  next best =>
    rw [if_pos best]
    exact (List.max?_eq_some_iff.mp extreme).2 sum member
  next worst =>
    rw [if_neg worst]
    exact (List.min?_eq_some_iff.mp extreme).2 sum member

section Telling

variable (alone : group.rerolls ≤ 0 → outcome.attempts.length = 1)
  (tellable : ∀ number ∈ group.outcomeNumbers outcome, isTellable number = true)

include tellable

include alone in
theorem is_tellable_face :
    ∀ faces ∈ outcome.attempts, ∀ face ∈ faces, isTellable face = true := by
  intro faces member face shown
  apply tellable
  unfold outcomeNumbers
  refine List.mem_append_right _ ?_
  split
  next single =>
    obtain ⟨only, one⟩ := List.length_eq_one_iff.mp (alone single)
    rw [one, List.mem_singleton] at member
    rw [one, ← member]
    exact shown
  next => exact List.mem_flatten.mpr ⟨faces, member, shown⟩

theorem is_tellable_value (several : 1 < (outcome.attempts.headD []).length) :
    isTellable outcome.value = true := by
  apply tellable
  unfold outcomeNumbers
  refine List.mem_append_left _ ?_
  rw [if_pos several]
  exact List.mem_singleton_self _

end Telling

/-- Attempts with as many faces as the group has dice are told as they are. -/
theorem is_trail_describe (numerator : 0 ≤ group.numerator) {attempts : List (List Int)}
    (recorded : outcome = group.outcomeOf maximize attempts) (nonempty : attempts ≠ [])
    (dice : ∀ faces ∈ attempts, faces.length = group.numerator.toNat)
    (alone : group.rerolls ≤ 0 → attempts.length = 1)
    (tellable : ∀ number ∈ group.outcomeNumbers outcome, isTellable number = true) :
    group.IsTrail outcome (group.describe (some outcome)) := by
  have same : outcome.attempts = attempts := by rw [recorded]; rfl
  have selects : group.Selects (attempts.map sumFaces) outcome.chosen outcome.value := by
    rw [recorded]
    exact group.selects_outcome maximize nonempty
  obtain ⟨faces, counted, sum⟩ := Option.map_eq_some_iff.mp
    (List.getElem?_map.symm.trans selects.there)
  obtain ⟨inside, place⟩ := List.getElem?_eq_some_iff.mp counted
  have short := is_tellable_face (fun single => same ▸ alone single) tellable
  rw [same] at short
  have part : attemptPart (group.describe (some outcome)) = outcome.attemptFragments := by
    apply attempt_part_describe
    intro single
    obtain ⟨only, one⟩ := List.length_eq_one_iff.mp (alone single)
    refine ⟨only, same.trans one, ?_⟩
    rw [one] at inside
    exact Nat.lt_one_iff.mp inside
  have around : attempts =
      attempts.take outcome.chosen ++ faces :: attempts.drop (outcome.chosen + 1) := by
    rw [← place, List.getElem_cons_drop, List.take_append_drop]
  have before : (attempts.take outcome.chosen).length = outcome.chosen :=
    List.length_take_of_le (Nat.le_of_lt inside)
  have fragments := attempt_fragments_split (same.trans around) before
  constructor
  case attempts =>
    rw [part, values_of_attempt_fragments, same]
    exact map_m_of_read fun faces member => read_list_of_comma_list (short faces member)
  case roll =>
    refine ⟨_, _, _, faces, part.trans fragments, ?_, ?_, rfl,
      read_list_of_comma_list (short faces (List.mem_of_getElem? counted)), same ▸ counted, sum⟩
    · rw [List.length_map, before]
    · intro fragment member
      rw [← List.map_append] at member
      obtain ⟨_, -, rfl⟩ := List.mem_map.mp member
      rfl
  case choice =>
    intro faces member
    rw [same] at member
    exact selects.choice (List.mem_map_of_mem member)
  case subtotal =>
    have first : (attempts.headD []).length = group.numerator.toNat := by
      cases attempts with
      | nil => exact absurd rfl nonempty
      | cons first more => exact dice first List.mem_cons_self
    have several : 1 < (outcome.attempts.headD []).length ↔ 1 < group.numerator := by
      rw [same, first]
      omega
    rw [subtotal_part_describe]
    simp only [several]
    split
    next many =>
      have value := is_tellable_value tellable (several.mpr many)
      rw [List.map_singleton]
      exact congrArg (fun read => [read]) (read_int_of_int value)
    next => rfl

theorem outcome_of_roll (sides : 1 ≤ group.sides) (rerolls : 0 ≤ group.rerolls)
    (rolled : (group.roll maximize).run.run source = (.ok outcome, after)) :
    outcome = group.outcomeOf maximize
      (if maximize then [group.highestAttempt] else group.attemptsOn source) := by
  cases maximize with
  | false =>
      rw [run_roll source sides rerolls] at rolled
      cases rolled
      rfl
  | true =>
      rw [run_roll_highest source sides] at rolled
      cases rolled
      rfl

end Outcomes

theorem tell_eq (group : DieGroup) (outcome : DieOutcome) :
    group.tell (some outcome) =
      if (group.requestNumbers ++ group.outcomeNumbers outcome).all isTellable then
        .ok (group.describe (some outcome))
      else .error (.number .tooManyDigits) := by
  change (requireTellable (group.requestNumbers ++ group.outcomeNumbers outcome) >>=
    fun _ => pure (group.describe (some outcome))) = _
  unfold requireTellable
  split
  · rfl
  · rfl

/-- The description of a rolled group is the trail of its attempts, in the order of their draws. It
is told unless one of its numbers is too long. -/
theorem tell_roll {group : DieGroup} (sides : 1 ≤ group.sides) (numerator : 0 ≤ group.numerator)
    (rerolls : 0 ≤ group.rerolls) {maximize : Bool} {source after : Source} {outcome : DieOutcome}
    (rolled : (group.roll maximize).run.run source = (.ok outcome, after)) :
    outcome.maximized = maximize ∧
    outcome.attempts = (if maximize then [group.highestAttempt] else group.attemptsOn source) ∧
    ((∀ number ∈ group.requestNumbers ++ group.outcomeNumbers outcome, isTellable number = true) →
      group.tell (some outcome) = .ok (group.describe (some outcome)) ∧
      group.IsTrail outcome (group.describe (some outcome))) ∧
    ((∃ number ∈ group.requestNumbers ++ group.outcomeNumbers outcome,
        isTellable number = false) →
      group.tell (some outcome) = .error (.number .tooManyDigits)) := by
  have recorded := outcome_of_roll sides rerolls rolled
  refine ⟨by rw [recorded]; rfl, by rw [recorded]; rfl, ?_, ?_⟩
  · intro tellable
    refine ⟨by rw [tell_eq, if_pos (List.all_eq_true.mpr tellable)], ?_⟩
    apply is_trail_describe numerator recorded
    · split
      · exact List.cons_ne_nil _ _
      · exact group.attempts_ne_nil source
    · intro faces member
      split at member
      · rw [List.mem_singleton.mp member, highestAttempt, List.length_replicate]
      · obtain ⟨attempt, -, rfl⟩ := List.mem_map.mp member
        exact length_faces source attempt
    · intro single
      split
      · rfl
      · rw [attemptsOn, List.length_map, List.length_range]
        omega
    · exact fun number member => tellable number (List.mem_append_right _ member)
  · rintro ⟨number, member, long⟩
    rw [tell_eq, if_neg]
    intro all
    exact Bool.false_ne_true (long.symm.trans (List.all_eq_true.mp all number member))

/-- The best of three attempts at two dice counts the second one, and tells the other two as
discarded. -/
theorem tell_roll_of_best_of_three :
    let group : DieGroup := { sides := 6, numerator := 2, rerolls := 2 }
    let source := Source.ofFaces [1, 2, 6, 5, 3, 4]
    1 ≤ group.sides ∧ 0 ≤ group.numerator ∧ 0 ≤ group.rerolls ∧ ∃ outcome : DieOutcome,
      (group.roll false).run.run source = (.ok outcome, source.skip 6) ∧
      outcome.attempts = [[1, 2], [6, 5], [3, 4]] ∧ outcome.chosen = 1 ∧
      group.IsTrail outcome (group.describe (some outcome)) ∧
      group.tell (some outcome) = .ok [⟨.die, "2d6".toList⟩, ⟨.subtotal, "11".toList⟩,
        ⟨.best, "3".toList⟩, ⟨.discarded, "1,2".toList⟩, ⟨.roll, "6,5".toList⟩,
        ⟨.discarded, "3,4".toList⟩] := by
  intro group source
  have sides : 1 ≤ group.sides := by decide
  have numerator : 0 ≤ group.numerator := by decide
  have rerolls : 0 ≤ group.rerolls := by decide
  have rolled := run_roll source sides rerolls
  obtain ⟨-, attempts, told, -⟩ := tell_roll sides numerator rerolls rolled
  obtain ⟨whole, trail⟩ := told (by decide +kernel)
  refine ⟨sides, numerator, rerolls, _, rolled, attempts.trans (by decide), by decide, trail, ?_⟩
  rw [whole]
  decide +kernel

/-- The sum of two dice may have a digit more than the longest number that can be told. -/
theorem not_tell_roll_of_long_sum :
    let group : DieGroup := { sides := firstTooLong - 1, numerator := 2 }
    let source := Source.ofFaces []
    ∃ outcome : DieOutcome, (group.roll true).run.run source = (.ok outcome, source) ∧
      (∀ faces ∈ outcome.attempts, ∀ face ∈ faces, isTellable face = true) ∧
      group.tell (some outcome) = .error (.number .tooManyDigits) := by
  intro group source
  refine ⟨_, run_roll_highest source (by decide +kernel), by decide +kernel, ?_⟩
  rw [tell_eq]
  decide +kernel

end DieGroup

end TabletopDice
