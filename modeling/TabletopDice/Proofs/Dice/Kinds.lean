import TabletopDice.Proofs.Dice.Telling

/-!
Fragments by their kinds. What is told of one thing, the request or the attempts or a sum, is a
part of all that is told: the fragments whose kinds pass a test. A part is taken fragment by
fragment, so it is known for a description once it is known for the kinds that occur in it.
-/

namespace TabletopDice

def partOf (test : FragmentKind → Bool) (fragments : List Fragment) : List Fragment :=
  fragments.filter fun fragment => test fragment.kind

section Parts

variable {test : FragmentKind → Bool}

theorem part_nil : partOf test [] = [] := rfl

theorem part_append (left right : List Fragment) :
    partOf test (left ++ right) = partOf test left ++ partOf test right :=
  List.filter_append ..

theorem part_ite {condition : Prop} [Decidable condition] (left right : List Fragment) :
    partOf test (if condition then left else right) =
      if condition then partOf test left else partOf test right :=
  apply_ite (partOf test) condition left right

theorem part_cons_of_pass {kind : FragmentKind} (pass : test kind = true) (value : Text)
    (more : List Fragment) : partOf test (⟨kind, value⟩ :: more) = ⟨kind, value⟩ :: partOf test more :=
  List.filter_cons_of_pos pass

theorem part_cons_of_fail {kind : FragmentKind} (fail : test kind = false) (value : Text)
    (more : List Fragment) : partOf test (⟨kind, value⟩ :: more) = partOf test more :=
  List.filter_cons_of_neg (Bool.eq_false_iff.mp fail)

variable {kinds : List FragmentKind} {fragments : List Fragment}
  (told : ∀ fragment ∈ fragments, fragment.kind ∈ kinds)

include told

theorem part_eq_self (pass : ∀ kind ∈ kinds, test kind = true) : partOf test fragments = fragments :=
  List.filter_eq_self.mpr fun fragment member => pass fragment.kind (told fragment member)

theorem part_eq_nil (fail : ∀ kind ∈ kinds, test kind = false) : partOf test fragments = [] :=
  List.filter_eq_nil_iff.mpr fun fragment member =>
    Bool.eq_false_iff.mp (fail fragment.kind (told fragment member))

end Parts

def groupKinds : List FragmentKind := [.forcedMaximum, .die, .dieBonus, .best, .worst, .label]

def componentKinds : List FragmentKind :=
  .constant :: .operator :: .openGroup :: .closeGroup :: groupKinds

def attemptKinds : List FragmentKind := [.roll, .maximumRoll, .discarded]

def shownKinds : List FragmentKind := .subtotal :: attemptKinds

def limitKinds : List FragmentKind := [.delimiter, .minimum, .maximum]

def totalKinds : List FragmentKind := [.success, .fail, .result, .separator]

theorem roll_kind_mem (outcome : DieOutcome) : outcome.rollKind ∈ attemptKinds := by
  unfold DieOutcome.rollKind
  split
  · decide
  · decide

theorem kind_of_attempt_fragments (outcome : DieOutcome) :
    ∀ fragment ∈ outcome.attemptFragments, fragment.kind ∈ attemptKinds := by
  intro fragment told
  obtain ⟨index, _, rfl⟩ := List.mem_mapIdx.mp told
  dsimp only
  split
  · exact roll_kind_mem outcome
  · decide

namespace DieGroup

variable {test : FragmentKind → Bool} (group : DieGroup)

theorem choice_kind_mem : (if group.best then FragmentKind.best else .worst) ∈ groupKinds := by
  split
  · decide
  · decide

/-- What the group showed: the sum, if there is something to add, and the attempts. -/
def shownFragments (outcome : DieOutcome) : List Fragment :=
  (if 1 < (outcome.attempts.headD []).length then [Fragment.int .subtotal outcome.value] else []) ++
    if group.rerolls ≤ 0 then [⟨outcome.rollKind, commaList (outcome.attempts.headD [])⟩]
    else outcome.attemptFragments

theorem part_shown_eq_nil (fail : ∀ kind ∈ shownKinds, test kind = false) (outcome : DieOutcome) :
    partOf test (group.shownFragments outcome) = [] := by
  obtain ⟨subtotal, attempts⟩ := List.forall_mem_cons.mp fail
  have rolled := attempts _ (roll_kind_mem outcome)
  have silent := part_eq_nil (kind_of_attempt_fragments outcome) attempts
  simp (disch := first | exact rolled | exact subtotal) only [shownFragments, Fragment.int,
    part_append, part_ite, part_cons_of_fail, part_nil, silent, ite_self, List.append_nil]

/-- What a request tells with is all that is told without an outcome. -/
theorem part_describe_request (pass : ∀ kind ∈ groupKinds, test kind = true)
    (fail : ∀ kind ∈ shownKinds, test kind = false) (outcome : Option DieOutcome) :
    partOf test (group.describe outcome) = group.describe none := by
  have choice := group.choice_kind_mem
  obtain ⟨subtotal, attempts⟩ := List.forall_mem_cons.mp fail
  have kept {kind : FragmentKind} (among : kind ∈ groupKinds) (value : Text) (more : List Fragment) :
      partOf test (⟨kind, value⟩ :: more) = ⟨kind, value⟩ :: partOf test more :=
    part_cons_of_pass (pass kind among) value more
  cases outcome with
  | none =>
      simp (disch := first | decide | exact choice) only [describe, Fragment.int, part_append,
        part_ite, kept, part_nil]
  | some outcome =>
      have rolled := attempts _ (roll_kind_mem outcome)
      have silent := part_eq_nil (kind_of_attempt_fragments outcome) attempts
      simp (disch := first | decide | exact choice | exact rolled | exact subtotal) only [describe,
        Fragment.int, part_append, part_ite, kept, part_cons_of_fail, part_nil, silent, ite_self]

section Silent

variable (fail : ∀ kind ∈ groupKinds, test kind = false)

include fail

theorem part_of_group_kind {kind : FragmentKind} (among : kind ∈ groupKinds) (value : Text) :
    partOf test [⟨kind, value⟩] = [] :=
  part_cons_of_fail (fail kind among) value []

/-- Apart from the kinds of a request the description of a rolled group tells what it showed. -/
theorem part_describe_outcome (outcome : DieOutcome) :
    partOf test (group.describe (some outcome)) = partOf test (group.shownFragments outcome) := by
  have choice := group.choice_kind_mem
  have first : (outcome.attempts.head?).getD [] = outcome.attempts.headD [] :=
    (List.headD_eq_head?_getD ..).symm
  simp (disch := first | decide | exact choice) only [describe, shownFragments, Option.bind_some,
    first, Fragment.int, part_append, part_ite, part_of_group_kind fail, part_nil, ite_self,
    List.nil_append, List.append_nil]

theorem part_describe_eq_nil (shown : ∀ kind ∈ shownKinds, test kind = false)
    (outcome : Option DieOutcome) : partOf test (group.describe outcome) = [] := by
  cases outcome with
  | none =>
      have choice := group.choice_kind_mem
      simp (disch := first | decide | exact choice) only [describe, Fragment.int, part_append,
        part_ite, part_of_group_kind fail, part_nil, ite_self, List.append_nil]
  | some outcome => rw [part_describe_outcome group fail, part_shown_eq_nil group shown]

end Silent

end DieGroup

namespace Component

variable {test : FragmentKind → Bool} (component : Component) (outcome : Option DieOutcome)

theorem kind_of_describe (noDie : component.dieGroup? = none) :
    ∀ fragment ∈ component.describe outcome, fragment.kind ∈ componentKinds := by
  cases component with
  | die group => cases noDie
  | constant value name =>
      refine List.forall_mem_cons.mpr ⟨by simp [componentKinds], ?_⟩
      split
      · exact List.forall_mem_nil _
      · exact List.forall_mem_singleton.mpr (by simp [componentKinds, groupKinds])
  | _ => exact List.forall_mem_singleton.mpr (by simp [componentKinds, groupKinds])

theorem part_describe_request (pass : ∀ kind ∈ componentKinds, test kind = true)
    (fail : ∀ kind ∈ shownKinds, test kind = false) :
    partOf test (component.describe outcome) = component.describe none := by
  cases component with
  | die group =>
      exact group.part_describe_request (fun kind among => pass kind (by simp [componentKinds, among]))
        fail outcome
  | _ => exact part_eq_self (kind_of_describe _ outcome rfl) pass

theorem part_describe_eq_nil (fail : ∀ kind ∈ componentKinds, test kind = false)
    (shown : ∀ kind ∈ shownKinds, test kind = false) :
    partOf test (component.describe outcome) = [] := by
  cases component with
  | die group =>
      exact group.part_describe_eq_nil (fun kind among => fail kind (by simp [componentKinds, among]))
        shown outcome
  | _ => exact part_eq_nil (kind_of_describe _ outcome rfl) fail

end Component

namespace Dice

variable {test : FragmentKind → Bool}

/-- Where the part of a description does not depend on what was shown, neither does that of all
components. -/
theorem part_flat_map_shown {part : Component → List Fragment}
    (each : ∀ component outcome, partOf test (component.describe outcome) = part component)
    (row : List Component) (outcomes : List (Option DieOutcome)) :
    partOf test (flatMapShown Component.describe row outcomes) = row.flatMap part := by
  induction row generalizing outcomes with
  | nil => rfl
  | cons component row ih =>
      cases outcomes with
      | nil => rw [flatMapShown, part_append, each, ih, List.flatMap_cons]
      | cons outcome outcomes => rw [flatMapShown, part_append, each, ih, List.flatMap_cons]

theorem flat_map_shown_nil {Value : Type} (give : Option DieOutcome → Component → List Value)
    (row : List Component) : flatMapShown give row [] = row.flatMap (give none) := by
  induction row with
  | nil => rfl
  | cons component row ih => rw [flatMapShown, ih, List.flatMap_cons]

theorem kind_of_automatic_fragments {dice : Dice} {evaluation : Evaluation} {success fail : Text}
    {fragments : List Fragment}
    (told : dice.automaticFragments evaluation success fail = .ok fragments) :
    ∀ fragment ∈ fragments, fragment.kind ∈ [FragmentKind.success, .fail] := by
  unfold automaticFragments at told
  split at told
  · cases told
  · split at told
    · cases told
    · cases told
      split
      · exact List.forall_mem_singleton.mpr (List.mem_cons_of_mem _ List.mem_cons_self)
      · split
        · exact List.forall_mem_singleton.mpr List.mem_cons_self
        · exact List.forall_mem_nil _

theorem kind_of_total_fragments {dice : Dice} {evaluation : Evaluation}
    {automatic : Option (Text × Text)} {fragments : List Fragment}
    (told : dice.totalFragments evaluation automatic = .ok fragments) :
    fragments ≠ [] ∧
      ∀ fragment ∈ fragments, fragment.kind ∈ totalKinds := by
  have behind {marker : List Fragment}
      (kinds : ∀ fragment ∈ marker, fragment.kind ∈ [FragmentKind.success, .fail])
      (ended : (do
        requireTellable [evaluation.total]
        return marker ++ [Fragment.int .result evaluation.total, ⟨.separator, ['=']⟩] :
          Except Failure (List Fragment)) = .ok fragments) :
      fragments ≠ [] ∧ ∀ fragment ∈ fragments, fragment.kind ∈ totalKinds := by
    simp only [bind_eq_ok, pure_eq_ok] at ended
    obtain ⟨_, -, rfl⟩ := ended
    refine ⟨List.append_ne_nil_of_right_ne_nil _ nofun, List.forall_mem_append.mpr ⟨?_, ?_⟩⟩
    · intro fragment member
      have marked : fragment.kind ∈ [FragmentKind.success, .fail] ++ [.result, .separator] :=
        List.mem_append_left _ (kinds fragment member)
      exact marked
    · exact List.forall_mem_cons.mpr ⟨by simp [totalKinds, Fragment.int],
        List.forall_mem_singleton.mpr (by simp [totalKinds])⟩
  cases automatic with
  | none => exact behind (List.forall_mem_nil _) told
  | some messages =>
      obtain ⟨marker, marked, ended⟩ := bind_eq_ok.mp told
      exact behind (kind_of_automatic_fragments marked) ended

theorem kind_of_limit_fragments (limits : Limits) :
    ∀ fragment ∈ limitFragments limits, fragment.kind ∈ limitKinds := by
  refine List.forall_mem_append.mpr ⟨?_, ?_⟩
  all_goals
    split
    · exact List.forall_mem_nil _
    · exact List.forall_mem_cons.mpr ⟨by simp [limitKinds, Fragment.bar],
        List.forall_mem_singleton.mpr (by simp [limitKinds, Fragment.int])⟩

theorem part_body_request (dice : Dice) (outcomes : List (Option DieOutcome))
    (pass : ∀ kind ∈ componentKinds ++ limitKinds, test kind = true)
    (fail : ∀ kind ∈ shownKinds, test kind = false) :
    partOf test (dice.bodyFragments outcomes 0) = dice.bodyFragments [] 0 := by
  obtain ⟨components, limits⟩ := List.forall_mem_append.mp pass
  have each (component : Component) (outcome : Option DieOutcome) :=
    component.part_describe_request outcome components fail
  rw [bodyFragments, bodyFragments, if_pos rfl, List.append_nil, List.append_nil, part_append,
    part_flat_map_shown each, flat_map_shown_nil,
    part_eq_self (kind_of_limit_fragments dice.limits) limits]

theorem part_body_eq_nil (dice : Dice) (outcomes : List (Option DieOutcome)) (bonus : Int)
    (fail : ∀ kind ∈ .bonus :: componentKinds ++ limitKinds, test kind = false)
    (shown : ∀ kind ∈ shownKinds, test kind = false) :
    partOf test (dice.bodyFragments outcomes bonus) = [] := by
  obtain ⟨request, limits⟩ := List.forall_mem_append.mp fail
  obtain ⟨added, components⟩ := List.forall_mem_cons.mp request
  have each (component : Component) (outcome : Option DieOutcome) :=
    component.part_describe_eq_nil outcome components shown
  rw [bodyFragments, part_append, part_append, part_flat_map_shown each, part_ite,
    part_cons_of_fail added, part_nil, ite_self,
    part_eq_nil (kind_of_limit_fragments dice.limits) limits]
  simp

end Dice

end TabletopDice
