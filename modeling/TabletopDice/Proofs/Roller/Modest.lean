import TabletopDice.Proofs.Roller.Lengths
import TabletopDice.Proofs.Roller.Rerolling

/-!
Rolling a modest specification. Every number that is rolled, and every number that is
worked out from it, is small enough for the arithmetic and short enough to be told, over
all passes; so what fails is the request.
-/

namespace TabletopDice

open Text

theorem is_tellable_of_small {number : Int} (small : number.natAbs ≤ twoPow 1009) :
    isTellable number = true := by
  have limit : twoPow 1009 < firstTooLong := by decide +kernel
  unfold isTellable
  exact decide_eq_true (Nat.lt_of_le_of_lt small limit)

theorem Dice.describe_requests {dice : Dice} (modest : dice.IsModest 1000) {evaluation : Evaluation}
    (small : evaluation.IsWithin 1001) (automatic : Option (Text × Text)) {bonus : Int}
    (bonusSmall : bonus.natAbs ≤ twoPow 1000) :
    FailsOnly Failure.IsRequest (dice.describe (some evaluation) automatic bonus) := by
  have refused (error : DiceError) :
      FailsOnly Failure.IsRequest (refuse error : Except Failure (List Fragment)) :=
    fails_only_error ⟨error, rfl⟩
  have few {weight : Nat} (fits : weight ≤ 1009) {number : Int}
      (bound : number.natAbs ≤ twoPow weight) : isTellable number = true :=
    is_tellable_of_small (Nat.le_trans bound (twoPow_le fits))
  apply describe_fails_only
  · intro messages _
    unfold automaticFragments
    split
    · exact refused _
    · split
      · exact refused _
      · exact fails_only_ok _
  · rw [require_tellable (List.forall_mem_singleton.mpr (few (by decide) small.total))]
    exact fails_only_ok _
  · have shown : ∀ outcome ∈ evaluation.outcomes.filterMap id,
        ∀ number ∈ outcome.value :: outcome.attempts.flatten, isTellable number = true :=
      fun outcome seen number inside => few (by decide) (small.shown outcome seen number inside)
    rw [require_tellable (tellable_body modest.tellable shown (few (by decide) bonusSmall))]
    exact fails_only_ok _

/-- What the options tell of a result is small, as long as the sum of the passes is. -/
theorem Modifiers.option_numbers_small {modifiers : Modifiers} (modest : modifiers.IsModest 1000)
    {result sum : Int} (small : result.natAbs ≤ twoPow 1001)
    (sumSmall : sum.natAbs ≤ maxPasses * twoPow 1001) :
    ∀ number ∈ modifiers.optionNumbers result sum, number.natAbs ≤ twoPow 1009 := by
  have double := twoPow_succ 1000
  have wide : twoPow 1009 = twoPow 1001 * twoPow 8 := twoPow_add 1001 8
  have factor : twoPow 8 = 256 := by decide +kernel
  have target := modest.target
  have difficulty := modest.difficulty
  rw [factor] at wide
  rw [maxPasses] at sumSmall
  generalize twoPow 1009 = limit at wide ⊢
  generalize twoPow 1001 = bound at *
  generalize twoPow 1000 = least at *
  intro number member
  unfold optionNumbers at member
  rw [List.mem_append, List.mem_append] at member
  rcases member with (member | member) | member
  all_goals
    split at member
    · rw [List.mem_singleton.mp member]
      omega
    · cases member

def Session.IsModest (session : Session) : Prop := session.roller.IsModest

namespace SessionM

variable {modifiers : Modifiers} {dice : Dice}

/-- A computation on the session that keeps it modest and fails by its request alone. -/
abbrev Requests {Value : Type} (computation : SessionM Value) (promised : Value → Prop) : Prop :=
  Sound Session.IsModest Failure.IsRequest computation promised

theorem requests_evaluate (modifiers : Modifiers) (modest : dice.IsModest 1000) {bonus : Int}
    (small : bonus.natAbs ≤ twoPow 1000) :
    Requests (evaluate modifiers dice bonus) fun evaluation =>
      evaluation.IsWithin 1001 := by
  have drawn := Dice.sound_numbers modest (by decide) modifiers.maximized small
  apply sound_bind (sound_of_draw (fun _ _ modest => modest) drawn)
  intro evaluation numbers
  have remembered : Requests (remember dice evaluation) fun _ => True :=
    sound_modify fun _ modest => ⟨modest.modifiers, modest.dice, modest.told⟩
  apply sound_bind remembered
  intro _ _
  exact sound_pure numbers

theorem requests_confirm_roll (modest : modifiers.IsModest 1000) (modestDice : dice.IsModest 1000)
    (first : Evaluation) : Requests (confirmRoll modifiers dice first) fun _ => True := by
  have rolled := requests_evaluate modifiers modestDice modest.confirmBonus
  refine sound_imp (sound_confirm_roll (fun _ => True) ?_ ?_ rolled ?_ ?_) fun _ _ => trivial
  · exact fun _ => ⟨_, rfl⟩
  · exact fun _ => ⟨_, rfl⟩
  · exact fun _ small => Dice.describe_requests modestDice small _ modest.confirmBonus
  · exact fun _ _ => trivial

theorem requests_roll_dice (modest : modifiers.IsModest 1000) (modestDice : dice.IsModest 1000)
    (pass : Nat) {sum : Int} (sumSmall : sum.natAbs ≤ maxPasses * twoPow 1001) :
    Requests (rollDice modifiers pass sum dice) fun rolled => rolled.1.natAbs ≤ twoPow 1001 := by
  apply sound_roll_dice (fun value => value.natAbs ≤ twoPow 1001)
    (requests_evaluate modifiers modestDice (Nat.zero_le _)) fun _ small => small.total
  · exact fun _ small => Dice.describe_requests modestDice small _ (Nat.zero_le _)
  · intro evaluation small
    have options := Modifiers.option_numbers_small modest small.total sumSmall
    rw [require_tellable fun number member => is_tellable_of_small (options number member)]
    exact fails_only_ok _
  · exact fun _ evaluation _ => requests_confirm_roll modest modestDice evaluation

theorem requests_roll_sequence (modest : modifiers.IsModest 1000) {sequence : List (Except Failure Dice)}
    (settled : ∀ result ∈ sequence, Settles Failure.IsRequest (Dice.IsModest 1000) result)
    (pass : Nat) {sum result : Int} (sumSmall : sum.natAbs ≤ maxPasses * twoPow 1001)
    (small : result.natAbs ≤ twoPow 1001) :
    Requests (rollSequence modifiers pass sum result sequence) fun rolled =>
      rolled.1.natAbs ≤ twoPow 1001 := by
  refine sound_imp (sound_roll_sequence (fun _ => True)
    (fun value => value.natAbs ≤ twoPow 1001) settled ?_ small) fun _ both => both.1
  intro dice modestDice
  exact sound_imp (requests_roll_dice modest modestDice pass sumSmall) fun _ counted =>
    ⟨counted, fun _ _ => trivial⟩

theorem Progress.small_of_advance (progress : Progress) (modifiers : Modifiers) {result : Int}
    {left : Nat} (sumSmall : progress.sum.natAbs + (left + 1) * twoPow 1001 ≤ maxPasses * twoPow 1001)
    (small : result.natAbs ≤ twoPow 1001) :
    (progress.advance modifiers result).sum.natAbs + left * twoPow 1001 ≤
      maxPasses * twoPow 1001 := by
  rw [Nat.add_mul, Nat.one_mul] at sumSmall
  have added : (progress.sum + result).natAbs ≤ progress.sum.natAbs + result.natAbs :=
    Int.natAbs_add_le _ _
  unfold advance
  dsimp only
  split
  · split
    · change 0 + _ ≤ _
      omega
    · change (progress.sum + result).natAbs + _ ≤ _
      omega
  · split
    · change (progress.sum + result).natAbs + _ ≤ _
      omega
    · change (progress.sum + result).natAbs + _ ≤ _
      omega

/-- However many passes there are, the sum of all their results can be told. -/
theorem requests_roll_passes (modest : modifiers.IsModest 1000) {sequence : List (Except Failure Dice)}
    (settled : ∀ result ∈ sequence, Settles Failure.IsRequest (Dice.IsModest 1000) result)
    (name : Text) (left : Nat) (progress : Progress)
    (sumSmall : progress.sum.natAbs + left * twoPow 1001 ≤ maxPasses * twoPow 1001) :
    Requests (rollPasses modifiers sequence name left progress) fun _ => True := by
  have each (left : Nat) (progress : Progress)
      (sumSmall : progress.sum.natAbs + (left + 1) * twoPow 1001 ≤ maxPasses * twoPow 1001) :
      Requests (rollSequence modifiers (maxPasses - (left + 1)) progress.sum 0 sequence)
        fun rolled => (progress.advance modifiers rolled.1).sum.natAbs + left * twoPow 1001 ≤
          maxPasses * twoPow 1001 ∧ ∀ result ∈ rolled.2, True := by
    have sum : progress.sum.natAbs ≤ maxPasses * twoPow 1001 :=
      Nat.le_trans (Nat.le_add_right ..) sumSmall
    exact sound_imp (requests_roll_sequence modest settled _ sum (Nat.zero_le _)) fun _ small =>
      ⟨progress.small_of_advance modifiers sumSmall small, fun _ _ => trivial⟩
  exact sound_imp (sound_roll_passes (fun _ => True)
    (fun left progress => progress.sum.natAbs + left * twoPow 1001 ≤ maxPasses * twoPow 1001)
    (fun _ _ modest => modest) each name sumSmall) fun _ _ => trivial

end SessionM

end TabletopDice
