import TabletopDice.Dice.Basic
import TabletopDice.Proofs.Expression.Clauses
import TabletopDice.Proofs.Expression.Written

/-!
Which dice can be told. A description tells the numbers of the request, the bonus of the
roll and what the dice showed. Those of the request can always be told if the dice were
read from a text, for then the text told them.
-/

namespace TabletopDice

open Text

theorem require_tellable {numbers : List Int}
    (tellable : ∀ number ∈ numbers, isTellable number = true) :
    requireTellable numbers = .ok () :=
  if_pos (List.all_eq_true.mpr tellable)

namespace DieGroup

variable {group : DieGroup}

theorem request_tellable_of_written (written : group.IsWritten) :
    ∀ number ∈ group.requestNumbers, isTellable number = true := by
  have denominator := written.proper.denominator
  have rerolls := written.proper.rerolls
  intro number member
  rw [requestNumbers, written.proper.dieBonus, Int.max_eq_right denominator,
    Int.max_eq_right rerolls] at member
  simp only [List.mem_cons, List.not_mem_nil, or_false] at member
  rcases member with rfl | rfl | rfl | rfl | rfl
  case inr.inr.inr.inl => exact is_tellable_small (by decide)
  all_goals exact written.tellable _ (by simp)

theorem mem_outcome_numbers {outcome : DieOutcome} {number : Int}
    (member : number ∈ group.outcomeNumbers outcome) :
    number ∈ outcome.value :: outcome.attempts.flatten := by
  have first : ∀ face ∈ outcome.attempts.headD [], face ∈ outcome.attempts.flatten := by
    cases outcome.attempts with
    | nil => exact nofun
    | cons faces attempts => exact fun face inside => List.mem_append_left _ inside
  rcases List.mem_append.mp member with subtotal | shown
  · split at subtotal
    · exact List.mem_cons.mpr (.inl (List.mem_singleton.mp subtotal))
    · cases subtotal
  · apply List.mem_cons_of_mem
    split at shown
    · exact first number shown
    · exact shown

end DieGroup

theorem Component.numbers_of_no_die {component : Component}
    (noDie : component.dieGroup? = none) (shown : Option DieOutcome) :
    component.numbers shown = [] := by
  cases component with
  | die group => cases noDie
  | _ => rfl

namespace Dice

theorem mem_flat_map_shown {Value : Type} {give : Option DieOutcome → Component → List Value}
    {row : List Component} {outcomes : List (Option DieOutcome)} {value : Value}
    (member : value ∈ flatMapShown give row outcomes) :
    ∃ component ∈ row, ∃ outcome, value ∈ give outcome component ∧
      ∀ shown ∈ outcome, shown ∈ outcomes.filterMap id := by
  induction row generalizing outcomes with
  | nil => cases member
  | cons component row ih =>
      cases outcomes with
      | nil =>
          rcases List.mem_append.mp member with here | behind
          · exact ⟨component, List.mem_cons_self, none, here, nofun⟩
          · obtain ⟨other, inside, outcome, given, shown⟩ := ih behind
            exact ⟨other, List.mem_cons_of_mem _ inside, outcome, given, shown⟩
      | cons first outcomes =>
          rcases List.mem_append.mp member with here | behind
          · refine ⟨component, List.mem_cons_self, first, here, ?_⟩
            rintro shown rfl
            exact List.mem_cons_self
          · obtain ⟨other, inside, outcome, given, shown⟩ := ih behind
            refine ⟨other, List.mem_cons_of_mem _ inside, outcome, given, fun seen told => ?_⟩
            obtain ⟨_, among, same⟩ := List.mem_filterMap.mp (shown seen told)
            exact List.mem_filterMap.mpr ⟨_, List.mem_cons_of_mem _ among, same⟩

structure IsTellable (dice : Dice) : Prop where
  groups : ∀ group, .die group ∈ dice.components →
    ∀ number ∈ group.requestNumbers, isTellable number = true
  limits : dice.limits.IsTellable

variable {dice : Dice}

theorem tellable_body (tellable : dice.IsTellable) {outcomes : List (Option DieOutcome)}
    (shown : ∀ outcome ∈ outcomes.filterMap id, ∀ number ∈ outcome.value :: outcome.attempts.flatten,
      isTellable number = true) {bonus : Int} (bonusTellable : isTellable bonus = true) :
    ∀ number ∈ dice.bodyNumbers outcomes bonus, isTellable number = true := by
  intro number member
  rcases List.mem_append.mp member with inside | behind
  · obtain ⟨component, isPart, outcome, told, among⟩ := mem_flat_map_shown inside
    cases component with
    | die group =>
        rcases List.mem_append.mp told with requested | rolled
        · exact tellable.groups group isPart number requested
        · cases outcome with
          | none => cases rolled
          | some outcome =>
              exact shown outcome (among outcome rfl) number (DieGroup.mem_outcome_numbers rolled)
    | _ => cases told
  · simp only [List.mem_cons, List.not_mem_nil, or_false] at behind
    rcases behind with rfl | rfl | rfl
    · exact bonusTellable
    · exact tellable.limits.minimum
    · exact tellable.limits.maximum

theorem tellable_request (tellable : dice.IsTellable) :
    ∀ number ∈ dice.bodyNumbers [] 0, isTellable number = true :=
  tellable_body tellable (fun _ member => absurd member List.not_mem_nil) (@is_tellable_small 0 (by decide))

theorem describe_request (tellable : dice.IsTellable) :
    dice.describe none none 0 = .ok (dice.bodyFragments [] 0) := by
  rw [describe, tellBody, require_tellable (tellable_request tellable)]
  rfl

theorem description_of_tellable (tellable : dice.IsTellable) :
    dice.description = .ok dice.toText := by
  rw [description, require_tellable (tellable_request tellable)]
  rfl

theorem tellable_of_single {group : DieGroup}
    (tellable : ∀ number ∈ group.requestNumbers, isTellable number = true) :
    ({ components := [.die group] } : Dice).IsTellable := by
  have zero : isTellable 0 = true := @is_tellable_small 0 (by decide)
  refine ⟨?_, ⟨zero, zero⟩⟩
  intro other member
  cases List.mem_singleton.mp member
  exact tellable

theorem tellable_of_parse {text : Text} (accepted : parse text = .ok dice) : dice.IsTellable := by
  unfold parse at accepted
  split at accepted
  · cases accepted
    exact tellable_of_single (by decide +kernel)
  · simp only [bind_eq_ok, pure_eq_ok, Prod.exists] at accepted
    obtain ⟨row, limits, parsed, rfl⟩ := accepted
    obtain ⟨-, _, cut, -, -⟩ := parse_expression_eq_ok.mp parsed
    have written := written_of_parse_expression parsed
    refine ⟨?_, Limits.tellable_of_split cut⟩
    exact fun group member => DieGroup.request_tellable_of_written (written _ member)

end Dice

end TabletopDice
