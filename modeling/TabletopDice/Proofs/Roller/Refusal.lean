import TabletopDice.Proofs.Roller.Calls

/-!
Refused specifications. Whichever check refuses a text, the roller is left with nothing
remembered and nothing rolled, and the source is as it was. From then on every request
without a text is refused too and changes nothing, until a text is accepted.
-/

namespace TabletopDice

open Text SessionM

def Session.cleared (session : Session) : Session :=
  { session with roller := { modifiers := {}, dice := none, last := none } }

namespace Call

def isDraw : Call → Bool
  | randInt _ | randFloat => true
  | _ => false

def isRequest : Call → Bool
  | roll _ | rollOnce _ | explainSecret _ _ => true
  | _ => false

/-- The call brings no specification that is accepted. -/
def AcceptsNothing (call : Call) : Prop := (Specification.parse call.text).isOk = false

instance (call : Call) : Decidable call.AcceptsNothing := inferInstanceAs (Decidable (_ = _))

theorem AcceptsNothing.refused {call : Call} (nothing : call.AcceptsNothing) :
    ∃ failure, Specification.parse call.text = .error failure := by
  unfold AcceptsNothing at nothing
  cases refused : Specification.parse call.text with
  | error failure => exact ⟨failure, rfl⟩
  | ok specification =>
      rw [refused] at nothing
      cases nothing

end Call

section Refused

variable {text : Text} {failure : Failure}

theorem run_set_of_refused (refused : Specification.parse text = .error failure)
    (session : Session) :
    (setSpecification text).run.run session = (.error failure, session.cleared) := by
  rw [run_set_specification, refused]
  rfl

theorem run_require_of_refused (given : text ≠ [])
    (refused : Specification.parse text = .error failure) (session : Session) :
    (requireSpecification text).run.run session = (.error failure, session.cleared) := by
  rw [require_specification_eq, if_neg given]
  exact run_bind_of_error (run_set_of_refused refused session) _

theorem run_require_of_cleared (session : Session) :
    (requireSpecification []).run.run session.cleared =
      (.error (.dice .nothingToReroll), session.cleared) := rfl

end Refused

section Draws

variable {Value Result : Type}

/-- The computation moves the source, and it neither sees nor changes anything else. -/
def MovesSource (computation : SessionM Value) : Prop :=
  ∃ move : Source → Source, ∀ session,
    (computation.run.run session).2 = { session with source := move session.source }

theorem moves_of_draw (draw : Draw Value) : MovesSource (ofDraw draw) :=
  ⟨fun source => (draw.run.run source).2, fun session => congrArg Prod.snd (run_of_draw draw session)⟩

theorem MovesSource.then_pure {computation : SessionM Value} (moves : MovesSource computation)
    (change : Value → Result) : MovesSource (computation >>= fun value => pure (change value)) := by
  obtain ⟨move, moved⟩ := moves
  refine ⟨move, fun session => ?_⟩
  rw [← moved, run_bind]
  rcases computation.run.run session with ⟨failure | value, after⟩
  · rfl
  · rfl

end Draws

namespace Call

variable {call : Call} {failure : Failure} {session after : Session}

/-- A request starts by requiring a specification. -/
theorem run_of_unmet (isRequest : call.isRequest = true)
    (unmet : (requireSpecification call.text).run.run session = (.error failure, after)) :
    call.run.run.run session = (.error failure, after) := by
  cases call with
  | roll text => exact run_bind_of_error (run_bind_of_error unmet _) _
  | rollOnce text => exact run_bind_of_error (run_bind_of_error (run_bind_of_error unmet _) _) _
  | explainSecret text notice => exact run_bind_of_error (run_bind_of_error unmet _) _
  | set text => cases isRequest
  | randInt bound => cases isRequest
  | randFloat => cases isRequest

/-- A call with a text that is refused fails for the reason for which the text is refused. -/
theorem run_of_refused (given : call.text ≠ [])
    (refused : Specification.parse call.text = .error failure) (session : Session) :
    call.run.run.run session = (.error failure, session.cleared) := by
  have unmet := run_require_of_refused given refused session
  cases call with
  | set text => exact run_set_of_refused refused session
  | roll text => exact run_of_unmet rfl unmet
  | rollOnce text => exact run_of_unmet rfl unmet
  | explainSecret text notice => exact run_of_unmet rfl unmet
  | randInt bound => exact absurd rfl given
  | randFloat => exact absurd rfl given

/-- Without a text there is nothing to roll. -/
theorem run_of_cleared (isRequest : call.isRequest = true) (blank : call.text = [])
    (session : Session) :
    call.run.run.run session.cleared = (.error (.dice .nothingToReroll), session.cleared) := by
  apply run_of_unmet isRequest
  rw [blank]
  exact run_require_of_cleared session

theorem moves_source (isDraw : call.isDraw = true) : MovesSource call.run := by
  cases call with
  | randInt bound =>
      have moves : MovesSource (SessionM.randInt bound) := by
        unfold SessionM.randInt
        split
        · exact ⟨id, fun session => rfl⟩
        · exact (moves_of_draw _).then_pure _
      exact moves.then_pure _
  | randFloat => exact (moves_of_draw Draw.unit).then_pure _
  | set text => cases isDraw
  | roll text => cases isDraw
  | rollOnce text => cases isDraw
  | explainSecret text notice => cases isDraw

/-- Whatever is called but an accepted specification, the roller stays cleared and only draws
move the source. -/
theorem session_of_cleared (nothing : call.AcceptsNothing) (session : Session) :
    (call.run.run.run session.cleared).2 =
      (if call.isDraw then (call.run.run.run session).2 else session).cleared := by
  cases isDraw : call.isDraw with
  | true =>
      obtain ⟨move, moved⟩ := moves_source isDraw
      rw [if_pos rfl, moved, moved]
      rfl
  | false =>
      rw [if_neg Bool.false_ne_true]
      obtain ⟨failure, refused⟩ := nothing.refused
      by_cases blank : call.text = []
      · cases call with
        | set text => exact congrArg Prod.snd (run_set_of_refused refused session.cleared)
        | roll text | rollOnce text | explainSecret text notice => rw [run_of_cleared rfl blank]
        | randInt bound | randFloat => cases isDraw
      · rw [run_of_refused blank refused]
        rfl

end Call

/-- Calls of which none brings an accepted specification leave a cleared roller cleared, and the
source where their draws alone would have left it. -/
theorem after_calls_of_cleared {calls : List Call} (nothing : ∀ call ∈ calls, call.AcceptsNothing)
    (session : Session) :
    afterCalls session.cleared calls = (afterCalls session (calls.filter Call.isDraw)).cleared := by
  induction calls generalizing session with
  | nil => rfl
  | cons call calls ih =>
      obtain ⟨first, others⟩ := List.forall_mem_cons.mp nothing
      have step : afterCalls session.cleared (call :: calls) =
          afterCalls (call.run.run.run session.cleared).2 calls := rfl
      rw [step, Call.session_of_cleared first, ih others]
      cases isDraw : call.isDraw with
      | true =>
          rw [List.filter_cons_of_pos isDraw]
          rfl
      | false =>
          rw [List.filter_cons_of_neg (by simp [isDraw])]
          rfl

/-- A call with a text that is refused, for whatever reason, clears the roller and draws nothing.
After any further calls of which none brings an accepted specification, the roller is still
cleared, and the source is where their draws alone have left it. No roll has shown a natural face
then, and a request without a text finds nothing to roll and changes nothing. -/
theorem refused_until_accepted {text : Text} {failure : Failure} (given : text ≠ [])
    (refused : Specification.parse text = .error failure) (session : Session) {calls : List Call}
    (nothing : ∀ call ∈ calls, call.AcceptsNothing) :
    (∀ call : Call, call.text = text →
      call.run.run.run session = (.error failure, session.cleared)) ∧
    let after := afterCalls session.cleared calls
    after = (afterCalls session (calls.filter Call.isDraw)).cleared ∧
      after.roller.isNaturalMax = false ∧ after.roller.isNaturalOne = false ∧
      DiceError.nothingToReroll.kind.name = "DiceSyntaxError" ∧
      ∀ call : Call, call.isRequest = true → call.text = [] →
        call.run.run.run after = (.error (.dice .nothingToReroll), after) := by
  constructor
  · rintro call rfl
    exact Call.run_of_refused given refused session
  · intro after
    have same : after = (afterCalls session (calls.filter Call.isDraw)).cleared :=
      after_calls_of_cleared nothing session
    refine ⟨same, ?_, ?_, rfl, ?_⟩
    · rw [same]
      rfl
    · rw [same]
      rfl
    · intro call isRequest blank
      rw [same]
      exact Call.run_of_cleared isRequest blank _

/-- A roller that has shown a natural twenty is given an attack of which only the second
alternative is refused. -/
theorem refused_until_accepted_of_attack :
    let text := "Hit = d20+{1/d6}|c|dc 15".toList
    let refusal : Failure := .dice .confirmationNeedsOneDie
    let session := afterCalls { source := Source.highest } [.roll "d20".toList]
    let calls : List Call :=
      [.randInt 6, .rollOnce "2d6+".toList, .explainSecret [] "later".toList, .set "50%|dc 3".toList]
    let after := afterCalls session.cleared calls
    session.roller.isNaturalMax = true ∧ text ≠ [] ∧ Specification.parse text = .error refusal ∧
      (∀ call ∈ calls, call.AcceptsNothing) ∧
      (Call.rollOnce text).run.run.run session = (.error refusal, session.cleared) ∧
      after.roller.isNaturalMax = false ∧
      (Call.roll []).run.run.run after = (.error (.dice .nothingToReroll), after) := by
  intro text refusal session calls after
  have shown : session.roller.isNaturalMax = true := by decide +kernel
  have given : text ≠ [] := by decide
  have refused : Specification.parse text = .error refusal := by decide +kernel
  have nothing : ∀ call ∈ calls, call.AcceptsNothing := by decide +kernel
  obtain ⟨clears, -, noMaximum, -, -, unmet⟩ := refused_until_accepted given refused session nothing
  exact ⟨shown, given, refused, nothing, clears _ rfl, noMaximum, unmet _ rfl rfl⟩

end TabletopDice
