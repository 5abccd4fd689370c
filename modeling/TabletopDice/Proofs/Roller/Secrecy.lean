import TabletopDice.Proofs.Dice.Kinds
import TabletopDice.Proofs.Roller.Calls
import TabletopDice.Proofs.Roller.Passes

/-!
What a secret roll tells. Of the fragments of a roll some tell what came of it and
the others what was asked for. The explanation of a secret roll consists of the notice
and of just those fragments that the roll tells of its request, in their order.
-/

namespace TabletopDice

open Text

def FragmentKind.isOutcome : FragmentKind → Bool
  | .result | .separator | .success | .fail | .subtotal | .roll | .maximumRoll | .discarded
  | .iteration | .cumulative | .met | .exceeded | .short => true
  | _ => false

abbrev requestPart (fragments : List Fragment) : List Fragment :=
  partOf (fun kind => !kind.isOutcome) fragments

def RollResult.isConfirmation (result : RollResult) : Bool :=
  result.details.head?.any fun fragment => fragment.kind == .confirmLabel

section Fragments

theorem request_margin (target result : Int) : requestPart [Modifiers.margin target result] = [] := by
  unfold Modifiers.margin
  split
  · rfl
  · split
    · rfl
    · rfl

theorem not_confirmation_of_outcome {kind : FragmentKind} (outcome : kind.isOutcome = true)
    (total : Int) (value : Text) (more : List Fragment) :
    RollResult.isConfirmation { total, details := ⟨kind, value⟩ :: more } = false := by
  cases kind with
  | confirmLabel => cases outcome
  | _ => rfl

theorem request_body_fragments (dice : Dice) (outcomes : List (Option DieOutcome)) :
    requestPart (dice.bodyFragments outcomes 0) = dice.bodyFragments [] 0 :=
  dice.part_body_request outcomes (by decide) (by decide)

theorem outcome_of_total_fragments {dice : Dice} {evaluation : Evaluation}
    {automatic : Option (Text × Text)} {fragments : List Fragment}
    (told : dice.totalFragments evaluation automatic = .ok fragments) :
    requestPart fragments = [] ∧ fragments ≠ [] := by
  obtain ⟨present, kinds⟩ := Dice.kind_of_total_fragments told
  exact ⟨part_eq_nil kinds (by decide), present⟩

theorem outcome_of_describe {dice : Dice} {evaluation : Evaluation}
    {automatic : Option (Text × Text)} {bonus : Int} {fragments : List Fragment}
    (told : dice.describe (some evaluation) automatic bonus = .ok fragments) :
    ∃ first more, fragments = first :: more ∧ first.kind.isOutcome = true := by
  simp only [Dice.describe, bind_eq_ok, pure_eq_ok] at told
  obtain ⟨total, first, body, -, rfl⟩ := told
  obtain ⟨silent, present⟩ := outcome_of_total_fragments first
  obtain ⟨fragment, more, rfl⟩ := List.exists_cons_of_ne_nil present
  have outcome := List.filter_eq_nil_iff.mp silent fragment List.mem_cons_self
  exact ⟨fragment, _, List.cons_append, by simpa using outcome⟩

/-- Of a roll without a bonus everything that was asked for is told, behind an outcome, and
nothing else is. -/
theorem request_describe_dice {dice : Dice} {evaluation : Evaluation}
    {automatic : Option (Text × Text)} {fragments : List Fragment}
    (told : dice.describe (some evaluation) automatic 0 = .ok fragments) :
    requestPart fragments = dice.bodyFragments [] 0 ∧
      ∃ first more, fragments = first :: more ∧ first.kind.isOutcome = true := by
  refine ⟨?_, outcome_of_describe told⟩
  simp only [Dice.describe, Dice.tellBody, bind_eq_ok, pure_eq_ok] at told
  obtain ⟨total, first, body, behind, rfl⟩ := told
  obtain ⟨silent, -⟩ := outcome_of_total_fragments first
  obtain ⟨_, -, rfl⟩ := behind
  simp only [part_append, silent, List.nil_append, request_body_fragments]

namespace Modifiers

variable (modifiers : Modifiers)

theorem request_option_fragments (result : Int) (pass : Nat) (sum : Int) :
    requestPart (modifiers.optionFragments (some (result, pass, sum))) =
      modifiers.optionFragments none := by
  simp (disch := decide) only [optionFragments, Fragment.int, Fragment.bar, part_append, part_ite,
    part_cons_of_pass, part_cons_of_fail, part_nil, request_margin]

theorem request_maximized_fragments :
    requestPart modifiers.maximizedFragments = modifiers.maximizedFragments := by
  simp (disch := decide) only [maximizedFragments, Fragment.bar, part_ite, part_cons_of_pass,
    part_nil]

theorem request_chance_fragments (chance : Nat) :
    requestPart (modifiers.chanceFragments chance) = modifiers.chanceFragments chance := by
  unfold chanceFragments
  split
  · rfl
  · rfl

def request (dice : Dice) : List Fragment :=
  match modifiers.chance with
  | some chance => modifiers.chanceFragments chance ++ modifiers.maximizedFragments
  | none =>
      dice.bodyFragments [] 0 ++ modifiers.optionFragments none ++ modifiers.maximizedFragments

end Modifiers

theorem Roller.request_fragments_of_dice {roller : Roller} {dice : Dice}
    (remembered : roller.dice = some dice) (tellable : dice.IsTellable) (text : Text) :
    roller.requestFragments text = .ok (roller.modifiers.request dice) := by
  simp only [requestFragments, remembered, Modifiers.request]
  cases roller.modifiers.chance with
  | none =>
      dsimp only
      rw [Dice.describe_request tellable]
      rfl
  | some chance => rfl

end Fragments

namespace SessionM

variable {modifiers : Modifiers} {dice : Dice}

abbrev Yields {Value : Type} (computation : SessionM Value) (promised : Value → Prop) : Prop :=
  Sound Always (fun _ => True) computation promised

theorem yields_anything {Value : Type} (computation : SessionM Value) :
    Yields computation fun _ => True :=
  fun _ _ => ⟨settles_anything _, trivial⟩

theorem yields_of_except {Value : Type} {result : Except Failure Value} {promised : Value → Prop}
    (kept : ∀ value, result = .ok value → promised value) : Yields (ofExcept result) promised := by
  cases result with
  | ok value => exact sound_pure (kept value rfl)
  | error failure => exact sound_throw trivial promised

/-- The results of one elementary roll: the roll itself, which tells the request, and what
confirms it. -/
def TellsRequest (request : List Fragment) : List RollResult → Prop
  | [] => False
  | first :: more =>
      first.isConfirmation = false ∧ requestPart first.details = request ∧
        ∀ result ∈ more, result.isConfirmation = true

theorem TellsRequest.plain {request : List Fragment} {results : List RollResult}
    (tells : TellsRequest request results) :
    ∀ result ∈ results, result.isConfirmation = false → requestPart result.details = request := by
  cases results with
  | nil => exact tells.elim
  | cons first more =>
      refine List.forall_mem_cons.mpr ⟨fun _ => tells.2.1, ?_⟩
      intro result member plain
      rw [tells.2.2 result member] at plain
      cases plain

theorem yields_roll_chance {chance : Nat} (percentile : modifiers.chance = some chance) :
    Yields (rollChance modifiers chance dice) fun rolled =>
      TellsRequest (modifiers.request dice) rolled.2 := by
  apply sound_bind (yields_anything _)
  intro evaluation _
  have verdict : (if decide (evaluation.total ≤ chance) = true then
      (⟨.success, modifiers.chanceMessages.1⟩ : Fragment)
      else ⟨.fail, modifiers.chanceMessages.2⟩).kind.isOutcome = true := by
    split
    · rfl
    · rfl
  have shown : requestPart (if modifiers.maximized then
        Fragment.int .maximumRoll evaluation.total :: modifiers.maximizedFragments
      else [Fragment.int .roll evaluation.total]) = modifiers.maximizedFragments := by
    unfold Modifiers.maximizedFragments
    split
    · rfl
    · rfl
  refine sound_pure ⟨not_confirmation_of_outcome verdict _ _ _, ?_, ?_⟩
  · have silent {kind : FragmentKind} (outcome : kind.isOutcome = true) (value : Text)
        (more : List Fragment) : requestPart (⟨kind, value⟩ :: more) = requestPart more :=
      part_cons_of_fail (by rw [outcome]; rfl) value more
    refine (silent verdict _ _).trans ((silent rfl _ _).trans ?_)
    change requestPart (modifiers.chanceFragments chance ++ _) = _
    simp only [part_append, modifiers.request_chance_fragments, shown, Modifiers.request, percentile]
  · exact fun _ member => absurd member List.not_mem_nil

theorem yields_confirm_roll (first : Evaluation) :
    Yields (confirmRoll modifiers dice first) fun results =>
      ∀ result ∈ results, result.isConfirmation = true := by
  apply sound_confirm_roll _ _ _ (yields_anything _)
  · exact fun _ _ _ _ => trivial
  · exact fun _ _ => rfl
  · exact fun _ => trivial
  · exact fun _ => trivial

theorem yields_roll_dice (modifiers : Modifiers) (dice : Dice) (pass : Nat) (sum : Int) :
    Yields (rollDice modifiers pass sum dice) fun rolled =>
      TellsRequest (modifiers.request dice) rolled.2 := by
  unfold rollDice
  split
  next chance percentile => exact yields_roll_chance percentile
  next plain =>
    apply sound_bind (yields_anything _)
    intro evaluation _
    apply sound_bind (yields_of_except fun _ told => request_describe_dice told)
    rintro _ ⟨requested, first, more, rfl, outcome⟩
    apply sound_bind (yields_anything _)
    intro _ _
    have tells {confirmation : List RollResult}
        (confirms : ∀ result ∈ confirmation, result.isConfirmation = true) :
        TellsRequest (modifiers.request dice) ({
          total := evaluation.total
          details := first :: more ++
            modifiers.optionFragments (some (evaluation.total, pass, sum)) ++
            modifiers.maximizedFragments } :: confirmation) := by
      refine ⟨not_confirmation_of_outcome outcome _ _ _, ?_, confirms⟩
      simp only [part_append, requested, modifiers.request_option_fragments,
        modifiers.request_maximized_fragments, Modifiers.request, plain]
    split
    next =>
      apply sound_bind (yields_confirm_roll evaluation)
      intro results confirms
      exact sound_pure (tells confirms)
    next => exact sound_pure (tells fun _ member => absurd member List.not_mem_nil)

theorem yields_roll_passes {property : RollResult → Prop} {sequence : List (Except Failure Dice)}
    (each : ∀ dice, .ok dice ∈ sequence → ∀ pass sum,
      Yields (rollDice modifiers pass sum dice) fun rolled => ∀ result ∈ rolled.2, property result)
    (name : Text) (left : Nat) (progress : Progress) :
    Yields (rollPasses modifiers sequence name left progress) fun results =>
      ∀ result ∈ results, property result := by
  have settled : ∀ result ∈ sequence,
      Settles (fun _ => True) (fun dice => .ok dice ∈ sequence) result := by
    intro result member
    cases result with
    | ok dice => exact member
    | error failure => trivial
  apply sound_roll_passes property (fun _ _ => True) (fun _ _ _ => trivial) ?_ name trivial
  intro left progress _
  refine sound_roll_sequence property (fun _ => True) settled ?_ trivial
  intro dice member
  exact sound_imp (each dice member _ progress.sum) fun _ told => ⟨trivial, told⟩

theorem dice_of_parse {text : Text} {specification : Specification}
    (accepted : Specification.parse text = .ok specification)
    (plain : specification.modifiers.alternatives = []) :
    ∃ dice, specification.dice = some dice ∧
      (Roller.ofSpecification specification).sequence = [.ok dice] := by
  cases Specification.accepted_of_parse accepted with
  | chance => exact ⟨_, rfl, Specification.sequence_of_single _ rfl⟩
  | single => exact ⟨_, rfl, Specification.sequence_of_single _ rfl⟩
  | several _ _ present => exact absurd plain present

theorem tellable_of_accepted {text : Text} {specification : Specification}
    (accepted : Specification.parse text = .ok specification) :
    ∀ dice ∈ specification.dice, dice.IsTellable := by
  cases Specification.accepted_of_parse accepted with
  | chance =>
      rintro _ ⟨⟩
      exact Specification.tellable_percentile_dice
  | single _ _ built =>
      rintro _ ⟨⟩
      exact Dice.tellable_of_parse (Specification.rollable_of_build_dice built).1
  | several => exact nofun

theorem yields_roll {text : Text} {specification : Specification}
    (accepted : Specification.parse text = .ok specification)
    (sequence : (Roller.ofSpecification specification).sequence = [.ok dice]) :
    Yields (roll text) fun rolled => rolled.1 = specification.modifiers.title ∧
      ∀ result ∈ rolled.2, result.isConfirmation = false →
        requestPart result.details = specification.modifiers.request dice := by
  have each : ∀ row, .ok row ∈ [(.ok dice : Except Failure Dice)] → ∀ pass sum,
      Yields (rollDice specification.modifiers pass sum row) fun rolled =>
        ∀ result ∈ rolled.2, result.isConfirmation = false →
          requestPart result.details = specification.modifiers.request dice := by
    intro row member pass sum
    cases List.mem_singleton.mp member
    exact sound_imp (yields_roll_dice specification.modifiers dice pass sum) fun _ tells =>
      TellsRequest.plain tells
  intro session _
  rw [run_roll accepted, sequence]
  exact sound_bind (yields_roll_passes each _ maxPasses {})
    (fun _ told => sound_pure ⟨rfl, told⟩) _ trivial

/-- A secret roll of an accepted specification draws nothing. It tells the title and, behind the
notice, what every roll of the specification tells of its request, whatever its source. -/
theorem explanation_tells_request {text : Text} {specification : Specification}
    (accepted : Specification.parse text = .ok specification)
    (plain : specification.modifiers.alternatives = []) (notice : Text) (session other : Session) :
    ∃ request,
      (explainSecret text notice).run.run session =
        (.ok (specification.modifiers.title,
          { suppressed := true, details := ⟨.notice, notice⟩ :: request }),
          { session with roller := Roller.ofSpecification specification }) ∧
      ∀ title results after, (roll text).run.run other = (.ok (title, results), after) →
        title = specification.modifiers.title ∧
          ∀ result ∈ results, result.isConfirmation = false →
            requestPart result.details = request := by
  obtain ⟨dice, single, sequence⟩ := dice_of_parse accepted plain
  refine ⟨specification.modifiers.request dice, ?_, ?_⟩
  · have request : (Roller.ofSpecification specification).requestFragments text = _ :=
      Roller.request_fragments_of_dice single (tellable_of_accepted accepted dice single) text
    rw [explainSecret, run_bind, run_require_specification accepted]
    simp only [run_bind, run_get, request]
    rfl
  · intro title results after rolled
    have told := yields_roll accepted sequence other trivial
    rw [rolled] at told
    exact told.1

/-- Two rolls, each with its confirmation, and what is told of them in secret. -/
theorem explanation_tells_request_of_confirmed_roll :
    let text := "Hit = d20+4|c15+2|dc 12|sf|repeat 2".toList
    let session : Session := { source := Source.highest }
    ∃ specification request results after,
      Specification.parse text = .ok specification ∧ specification.modifiers.alternatives = [] ∧
      (explainSecret text []).run.run session =
        (.ok (specification.modifiers.title,
          { suppressed := true, details := ⟨.notice, []⟩ :: request }),
          { session with roller := Roller.ofSpecification specification }) ∧
      (roll text).run.run session = (.ok (specification.modifiers.title, results), after) ∧
      results.length = 4 ∧
      ∀ result ∈ results, result.isConfirmation = false →
        requestPart result.details = request := by
  intro text session
  have taken : (Specification.parse text).map (fun specification =>
      specification.modifiers.alternatives) = .ok [] := by decide +kernel
  have counted : ((roll text).run.run session).1.map (fun rolled => rolled.2.length) = .ok 4 := by
    decide +kernel
  cases accepted : Specification.parse text with
  | error failure =>
      rw [accepted] at taken
      cases taken
  | ok specification =>
      have plain : specification.modifiers.alternatives = [] := by
        rw [accepted] at taken
        exact Except.ok.inj taken
      obtain ⟨request, explained, told⟩ := explanation_tells_request accepted plain [] session session
      rcases rolled : (roll text).run.run session with ⟨failure | ⟨title, results⟩, after⟩
      · rw [rolled] at counted
        cases counted
      · rw [rolled] at counted
        obtain ⟨rfl, tells⟩ := told title results after rolled
        exact ⟨specification, request, results, after, rfl, plain, explained, rfl,
          Except.ok.inj counted, tells⟩

end SessionM

end TabletopDice
