import TabletopDice.Proofs.Roller.Passes

/-!
What rolling leaves as it is. A roll draws from the source and becomes the last roll;
besides that it may only end with a warning. So whatever is said of a session without
these three is kept by every part of a roll, whether the part fails or not.
-/

namespace TabletopDice

/-- What is said of a session speaks neither of its source nor of its last roll. -/
structure IgnoresRolls (invariant : Session → Prop) : Prop where
  source : ∀ session source, invariant session → invariant { session with source }
  last : ∀ session last, invariant session →
    invariant { session with roller := { session.roller with last } }

namespace SessionM

variable {invariant : Session → Prop} {modifiers : Modifiers} {dice : Dice}

abbrev Keeps {Value : Type} (invariant : Session → Prop) (computation : SessionM Value) : Prop :=
  Sound invariant (fun _ => True) computation fun _ => True

theorem keeps_bind {First Second : Type} {computation : SessionM First}
    {next : First → SessionM Second} (before : Keeps invariant computation)
    (behind : ∀ value, Keeps invariant (next value)) : Keeps invariant (computation >>= next) :=
  sound_bind before fun value _ => behind value

theorem keeps_pure {Value : Type} (value : Value) : Keeps invariant (pure value) :=
  sound_pure trivial

theorem keeps_evaluate (ignores : IgnoresRolls invariant) (bonus : Int) :
    Keeps invariant (evaluate modifiers dice bonus) := by
  have drawn : Sound Always (fun _ => True) (dice.evaluate modifiers.maximized bonus) fun _ => True :=
    fun _ _ => ⟨settles_anything _, trivial⟩
  apply keeps_bind (sound_of_draw ignores.source drawn)
  intro evaluation
  have remembered : Keeps invariant (remember dice evaluation) :=
    sound_modify fun session holds => ignores.last session _ holds
  exact keeps_bind remembered fun _ => keeps_pure evaluation

theorem keeps_confirm_roll (ignores : IgnoresRolls invariant) (first : Evaluation) :
    Keeps invariant (confirmRoll modifiers dice first) := by
  refine sound_imp (sound_confirm_roll (fun _ => True) ?_ ?_ (keeps_evaluate ignores _) ?_ ?_)
    fun _ _ => trivial
  · exact fun _ => trivial
  · exact fun _ => trivial
  · exact fun _ _ _ _ => trivial
  · exact fun _ _ => trivial

theorem keeps_roll_dice (ignores : IgnoresRolls invariant) (pass : Nat) (sum : Int) :
    Keeps invariant (rollDice modifiers pass sum dice) := by
  apply sound_roll_dice (fun _ => True) (keeps_evaluate ignores 0)
  · exact fun _ _ => trivial
  · exact fun _ _ _ _ => trivial
  · exact fun _ _ _ _ => trivial
  · exact fun _ evaluation _ => keeps_confirm_roll ignores evaluation

theorem keeps_roll_sequence (ignores : IgnoresRolls invariant) (pass : Nat) (sum result : Int)
    (sequence : List (Except Failure Dice)) :
    Keeps invariant (rollSequence modifiers pass sum result sequence) := by
  have settled : ∀ result ∈ sequence, Settles (fun _ => True) (fun _ => True) result :=
    fun result _ => settles_anything result
  refine sound_imp (sound_roll_sequence (fun _ => True) (fun _ => True) settled ?_ trivial)
    fun _ _ => trivial
  intro dice _
  exact sound_imp (keeps_roll_dice ignores pass sum) fun _ _ => ⟨trivial, fun _ _ => trivial⟩

theorem keeps_roll_passes (ignores : IgnoresRolls invariant)
    (warned : ∀ session warnings, invariant session → invariant { session with warnings })
    (sequence : List (Except Failure Dice)) (name : Text) (left : Nat) (progress : Progress) :
    Keeps invariant (rollPasses modifiers sequence name left progress) := by
  refine sound_imp (sound_roll_passes (fun _ => True) (fun _ _ => True) warned ?_ name trivial)
    fun _ _ => trivial
  intro left progress _
  exact sound_imp (keeps_roll_sequence ignores _ _ 0 sequence) fun _ _ =>
    ⟨trivial, fun _ _ => trivial⟩

end SessionM

end TabletopDice
