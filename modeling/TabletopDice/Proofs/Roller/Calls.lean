import TabletopDice.Proofs.Roller.Modest

/-!
Rolls after any calls to a roller. A roller remembers a specification from one call to
the next, so what is promised of its rolls is an invariant that every call keeps,
whether it fails or not.
-/

namespace TabletopDice

open Text SessionM

/-- A call to a roller. Its queries change nothing and are left out. -/
inductive Call
  | set (text : Text)
  | roll (text : Text)
  | rollOnce (text : Text)
  | explainSecret (text notice : Text)
  | randInt (bound : Int)
  | randFloat
  deriving DecidableEq, Repr

namespace Call

def run : Call → SessionM Unit
  | set text => setSpecification text
  | roll text => do
      let _ ← SessionM.roll text
  | rollOnce text => do
      let _ ← SessionM.rollOnce text
  | explainSecret text notice => do
      let _ ← SessionM.explainSecret text notice
  | randInt bound => do
      let _ ← SessionM.randInt bound
  | randFloat => do
      let _ ← SessionM.randFloat

def text : Call → Text
  | set text | roll text | rollOnce text | explainSecret text _ => text
  | randInt _ | randFloat => []

end Call

def afterCalls (session : Session) (calls : List Call) : Session :=
  calls.foldl (fun session call => (call.run.run.run session).2) session

def requireRemembered : SessionM Unit := do
  if !(← get).roller.isSet then throw (.dice .nothingToReroll)

theorem require_specification_eq (text : Text) : requireSpecification text =
    if text = [] then requireRemembered
    else setSpecification text >>= fun _ => requireRemembered := by
  cases text with
  | nil => rfl
  | cons char rest => rfl

section Invariants

variable {invariant : Session → Prop} {allowed : Failure → Prop} {text : Text}

/-- The specification can be set, rolled and told: the invariant is kept, and failures are allowed
ones. -/
structure Withstands (invariant : Session → Prop) (allowed : Failure → Prop) (text : Text) : Prop where
  set : Sound invariant allowed (setSpecification text) fun _ => True
  roll : Sound invariant allowed (roll text) fun _ => True
  told : ∀ session, invariant session → ∀ dice ∈ session.roller.dice,
    FailsOnly allowed (dice.describe none none 0)

theorem sound_require_specification (unset : allowed (.dice .nothingToReroll))
    (set : Sound invariant allowed (setSpecification text) fun _ => True) :
    Sound invariant allowed (requireSpecification text) fun _ => True := by
  have remembered : Sound invariant allowed requireRemembered fun _ => True := by
    apply sound_bind sound_get
    intro session _
    split
    · exact sound_throw unset _
    · exact sound_pure trivial
  rw [require_specification_eq]
  split
  · exact remembered
  · exact sound_bind set fun _ _ => remembered

theorem sound_roll_once (requested : ∀ error, allowed (.dice error))
    (withstands : Withstands invariant allowed text) :
    Sound invariant allowed (rollOnce text) fun _ => True := by
  apply sound_bind withstands.roll
  intro rolled _
  split
  · exact sound_pure trivial
  · exact sound_throw (requested _) _

theorem sound_explain_secret (requested : ∀ error, allowed (.dice error))
    (withstands : Withstands invariant allowed text) (notice : Text) :
    Sound invariant allowed (explainSecret text notice) fun _ => True := by
  apply sound_bind (sound_require_specification (requested _) withstands.set)
  intro _ _
  apply sound_bind sound_get
  intro session holds
  have told : FailsOnly allowed (session.roller.requestFragments text) := by
    unfold Roller.requestFragments
    dsimp only
    split
    · exact fails_only_ok _
    · exact fails_only_ok _
    next dice _ remembered =>
      exact fails_only_bind (withstands.told session holds dice remembered) fun _ => fails_only_ok _
  exact sound_bind (sound_of_settles (settles_of_fails_only told)) fun _ _ => sound_pure trivial

theorem sound_draws (allowed : Failure → Prop)
    (keeps : ∀ session source, invariant session → invariant { session with source }) :
    (∀ bound, Sound invariant allowed (randInt bound) fun _ => True) ∧
      Sound invariant allowed randFloat fun _ => True := by
  have drawn {Value : Type} (value : Source → Value) : Sound Always allowed (do
      let source ← get
      set { source with drawn := source.drawn + 1 }
      return value source : Draw Value) fun _ => True :=
    fun _ _ => ⟨trivial, trivial⟩
  constructor
  · intro bound
    unfold randInt
    split
    · exact sound_pure trivial
    · exact sound_bind (sound_of_draw keeps (drawn _)) fun _ _ => sound_pure trivial
  · exact sound_of_draw keeps (drawn _)

theorem sound_call (requested : ∀ error, allowed (.dice error))
    (keeps : ∀ session source, invariant session → invariant { session with source }) {call : Call}
    (withstands : Withstands invariant allowed call.text) :
    Sound invariant allowed call.run fun _ => True := by
  have ended {Value : Type} {computation : SessionM Value}
      (sound : Sound invariant allowed computation fun _ => True) :
      Sound invariant allowed (do let _ ← computation) fun _ => True :=
    sound_bind sound fun _ _ => sound_pure trivial
  obtain ⟨drawInt, drawFloat⟩ := sound_draws allowed keeps
  cases call with
  | set text => exact withstands.set
  | roll text => exact ended withstands.roll
  | rollOnce text => exact ended (sound_roll_once requested withstands)
  | explainSecret text notice => exact ended (sound_explain_secret requested withstands notice)
  | randInt bound => exact ended (drawInt bound)
  | randFloat => exact ended drawFloat

theorem invariant_after_calls (requested : ∀ error, allowed (.dice error))
    (keeps : ∀ session source, invariant session → invariant { session with source })
    {calls : List Call} (withstand : ∀ call ∈ calls, Withstands invariant allowed call.text)
    {session : Session} (holds : invariant session) : invariant (afterCalls session calls) := by
  induction calls generalizing session with
  | nil => exact holds
  | cons call calls ih =>
      obtain ⟨first, others⟩ := List.forall_mem_cons.mp withstand
      exact ih others (sound_call requested keeps first session holds).2

end Invariants

section Requests

theorem is_set_of_remembered (session : Session)
    (accepted : (requireRemembered.run.run session).1 = .ok ()) :
    (requireRemembered.run.run session).2.roller.isSet = true := by
  simp only [requireRemembered, run_bind, run_get] at accepted ⊢
  cases isSet : session.roller.isSet with
  | true => exact isSet
  | false =>
      rw [isSet] at accepted
      cases accepted

theorem is_set_of_require (text : Text) (session : Session)
    (accepted : ((requireSpecification text).run.run session).1 = .ok ()) :
    ((requireSpecification text).run.run session).2.roller.isSet = true := by
  rw [require_specification_eq] at accepted ⊢
  by_cases given : text = []
  · rw [if_pos given] at accepted ⊢
    exact is_set_of_remembered session accepted
  · rw [if_neg given, run_bind] at accepted ⊢
    generalize (setSpecification text).run.run session = run at accepted ⊢
    obtain ⟨failure | _, after⟩ := run
    · cases accepted
    · exact is_set_of_remembered after accepted

theorem parse_nil : Specification.parse [] = .error (.dice .emptyExpression) := rfl

theorem run_require_specification {text : Text} {specification : Specification}
    (parsed : Specification.parse text = .ok specification) (session : Session) :
    (requireSpecification text).run.run session =
      (.ok (), { session with roller := Roller.ofSpecification specification }) := by
  have given : text ≠ [] := by
    rintro rfl
    rw [parse_nil] at parsed
    cases parsed
  have set : (setSpecification text).run.run session =
      (.ok (), { session with roller := Roller.ofSpecification specification }) := by
    rw [run_set_specification, parsed]
  have isSet : (Roller.ofSpecification specification).isSet = true :=
    (Specification.ready_of_parse parsed).set
  rw [require_specification_eq, if_neg given, run_bind, set]
  simp only [requireRemembered, run_bind, run_get, isSet]
  rfl

theorem run_roll {text : Text} {specification : Specification}
    (parsed : Specification.parse text = .ok specification) (session : Session) :
    (roll text).run.run session =
      (do
        let results ← rollPasses specification.modifiers
          (Roller.ofSpecification specification).sequence
          (if specification.modifiers.title.isEmpty then text else specification.modifiers.title)
          maxPasses {}
        return (specification.modifiers.title, results) : SessionM _).run.run
          { session with roller := Roller.ofSpecification specification } := by
  rw [roll_eq, run_bind, run_require_specification parsed]
  rfl

theorem settles_roll {text : Text} {specification : Specification}
    (parsed : Specification.parse text = .ok specification) (session : Session) :
    Settles Failure.IsNumerical (fun _ => True) ((roll text).run.run session).1 := by
  have ready : Session.IsReady { session with roller := Roller.ofSpecification specification } :=
    Specification.ready_of_parse parsed
  rw [roll_eq, run_bind, run_require_specification parsed]
  exact (safe_roll_remembered text _ ready).1

theorem sound_roll {invariant : Session → Prop} {allowed : Failure → Prop} {text : Text}
    (unset : allowed (.dice .nothingToReroll))
    (set : Sound invariant allowed (setSpecification text) fun _ => True)
    (rolled : Sound (fun session => session.roller.isSet = true ∧ invariant session) allowed
      (rollRemembered text) fun _ => True) :
    Sound invariant allowed (roll text) fun _ => True := by
  intro session holds
  have required := sound_require_specification unset set session holds
  have isSet := is_set_of_require text session
  rw [roll_eq, run_bind]
  generalize (requireSpecification text).run.run session = run at required isSet ⊢
  obtain ⟨failure | _, after⟩ := run
  · exact required
  · obtain ⟨settles, -, kept⟩ := rolled after ⟨isSet rfl, required.2⟩
    exact ⟨settles, kept⟩

end Requests

section Short

variable {text : Text}

theorem requests_set_specification (short : text.length ≤ 125) :
    Requests (setSpecification text) fun _ => True := by
  have cleared : Roller.cleared.IsModest :=
    ⟨⟨Nat.zero_le _, Nat.zero_le _, Nat.zero_le _⟩, fun _ member => absurd member List.not_mem_nil,
      nofun⟩
  apply sound_set_specification (fun _ _ => cleared)
  · exact fun failure refused =>
      (Specification.refusal_of_parse text failure refused).request (by omega)
  · exact fun specification parsed _ _ => Specification.modest_of_parse short parsed

theorem requests_roll (short : text.length ≤ 125) : Requests (roll text) fun _ => True := by
  apply sound_bind (sound_require_specification ⟨_, rfl⟩
    (requests_set_specification short))
  intro _ _
  apply sound_bind sound_get
  intro session modest
  apply sound_bind (requests_roll_passes modest.modifiers modest.dice _ maxPasses {} ?_)
  · intro _ _
    exact sound_pure trivial
  · exact Nat.le_of_eq (Nat.zero_add _)

theorem withstands_short (short : text.length ≤ 125) :
    Withstands Session.IsModest Failure.IsRequest text :=
  ⟨requests_set_specification short, requests_roll short, fun _ modest dice remembered => by
    rw [Dice.describe_request (modest.told dice remembered)]
    exact fails_only_ok _⟩

/-- A roller that has remembered nothing yet rolls a die with twenty sides. -/
theorem modest_of_fresh (session : Session) : Session.IsModest { session with roller := {} } := by
  have blank : Dice.parse [] = .ok Dice.twentySided := rfl
  have twenty : Dice.twentySided.IsModest 1000 := Dice.modest_of_parse blank (by decide)
  refine ⟨⟨Nat.zero_le _, Nat.zero_le _, Nat.zero_le _⟩, ?_, ?_⟩
  · intro result member
    rw [List.mem_singleton.mp member]
    exact twenty
  · rintro _ ⟨⟩
    exact twenty.tellable

theorem roll_of_given (given : text ≠ []) (session : Session) :
    (roll text).run.run session = (roll text).run.run { session with roller := {} } := by
  have set : (setSpecification text).run.run session =
      (setSpecification text).run.run { session with roller := {} } := by
    rw [run_set_specification, run_set_specification]
  unfold roll
  rw [require_specification_eq, if_neg given]
  simp only [run_bind, set]

end Short

section Reported

variable {text : Text}

def Session.IsSettled (session : Session) : Prop := session.roller.isSet = true → session.IsReady

def Failure.IsReported (failure : Failure) : Prop := failure.IsRequest ∨ failure.IsNumerical

theorem settled_of_ready {session : Session} (ready : session.IsReady) : session.IsSettled :=
  fun _ => ready

/-- What is refused is not remembered, and what is accepted can be rolled. -/
theorem settled_set_specification {allowed : Failure → Prop}
    (refused : FailsOnly allowed (Specification.parse text)) :
    Sound Session.IsSettled allowed (setSpecification text) fun _ => True := by
  apply sound_set_specification ?_ refused
  · exact fun _ parsed _ _ => settled_of_ready (Specification.ready_of_parse parsed)
  · intro session _ isSet
    cases isSet

theorem settled_roll {allowed : Failure → Prop}
    (refused : FailsOnly allowed (Specification.parse text))
    (unset : allowed (.dice .nothingToReroll))
    (numerical : ∀ failure : Failure, failure.IsNumerical → allowed failure) :
    Sound Session.IsSettled allowed (roll text) fun _ => True := by
  apply sound_roll unset (settled_set_specification refused)
  intro session settled
  have ready : session.IsReady := settled.2 settled.1
  have rolled := safe_roll_remembered text session ready
  generalize (rollRemembered text).run.run session = run at rolled ⊢
  obtain ⟨failure | _, after⟩ := run
  · exact ⟨numerical failure rolled.1, rolled.2.set, settled_of_ready rolled.2⟩
  · exact ⟨trivial, rolled.2.set, settled_of_ready rolled.2⟩

theorem parse_is_reported (text : Text) :
    FailsOnly Failure.IsReported (Specification.parse text) := by
  intro failure failed
  rcases Specification.refusal_of_parse text failure failed with ⟨error, -, request⟩ | ⟨-, long⟩
  · exact .inl ⟨error, request⟩
  · exact .inr (.inr long)

theorem reported_set_specification (text : Text) :
    Sound Session.IsSettled Failure.IsReported (setSpecification text) fun _ => True :=
  settled_set_specification (parse_is_reported text)

theorem reported_roll (text : Text) :
    Sound Session.IsSettled Failure.IsReported (roll text) fun _ => True :=
  settled_roll (parse_is_reported text) (.inl ⟨_, rfl⟩) fun _ numerical => .inr numerical

theorem withstands_any (text : Text) : Withstands Session.IsSettled Failure.IsReported text :=
  ⟨reported_set_specification text, reported_roll text, fun _ _ dice _ failure failed =>
    .inr (dice.request_fails_only failure failed)⟩

def Failure.IsOneLine : Failure → Prop
  | .dice error => TabletopDice.IsOneLine error.message
  | .number _ => True

theorem one_line_of_numerical {failure : Failure} (numerical : failure.IsNumerical) :
    failure.IsOneLine := by
  cases failure with
  | number fault => trivial
  | dice error =>
      rcases numerical with arithmetic | ⟨⟨⟩⟩
      cases arithmetic
      exact is_one_line_message List.not_mem_nil

theorem one_line_roll (text : Text) :
    Sound Session.IsSettled Failure.IsOneLine (roll text) fun _ => True := by
  apply settled_roll ?_ (is_one_line_message List.not_mem_nil) fun _ => one_line_of_numerical
  intro failure failed
  rcases Specification.refusal_of_parse text failure failed with ⟨error, oneLine, rfl⟩ | ⟨-, rfl⟩
  · exact oneLine
  · trivial

theorem settled_of_fresh (source : Source) : Session.IsSettled { source } := by
  apply settled_of_ready
  refine ⟨rfl, ?_⟩
  intro result member
  have blank : Dice.parse [] = .ok Dice.twentySided := rfl
  exact ⟨Dice.twentySided, List.mem_singleton.mp member, well_formed_of_dice_parse blank,
    fun _ => ⟨{ sides := 20 }, rfl, rfl⟩⟩

end Reported

/-- Whatever was called before, a roll fails by its request or by its numbers. It fails by its
request alone if the specification that it rolls is short: the one that is given, or else all
that may have been remembered. -/
theorem roll_fails_only (source : Source) (calls : List Call) (text : Text) (failure : Failure)
    (failed : ((roll text).run.run (afterCalls { source } calls)).1 = .error failure) :
    (failure.IsRequest ∨ failure.IsNumerical) ∧
      (text.length ≤ 125 → (text = [] → ∀ call ∈ calls, call.text.length ≤ 125) →
        failure.IsRequest) := by
  constructor
  · have settled : Session.IsSettled (afterCalls { source } calls) :=
      invariant_after_calls (fun error => .inl ⟨error, rfl⟩) (fun _ _ kept => kept)
        (fun call _ => withstands_any call.text) (settled_of_fresh source)
    have reported := (reported_roll text _ settled).1
    rw [failed] at reported
    exact reported
  · intro short earlier
    by_cases given : text = []
    · have modest := invariant_after_calls (fun error => ⟨error, rfl⟩) (fun _ _ kept => kept)
        (fun call member => withstands_short (earlier given call member))
        (modest_of_fresh { source })
      -- An empty text rolls what the calls have left.
      have requests := (requests_roll short _ modest).1
      rw [failed] at requests
      exact requests
    · -- The text replaces what is remembered, so the calls may as well have left nothing.
      have requests := (requests_roll short _ (modest_of_fresh (afterCalls { source } calls))).1
      rw [← roll_of_given given, failed] at requests
      exact requests

/-- What an earlier call has set is rolled again, and divides by zero. -/
theorem roll_fails_only_of_zero_divisor :
    let calls : List Call :=
      [.roll "2d6|repeat 2".toList, .randInt 5, .set "Odds = 1 // (d6 - d6)".toList, .randFloat]
    ((roll []).run.run (afterCalls { source := Source.highest } calls)).1 =
        .error (.dice .divisionByZero) ∧
      Failure.IsRequest (.dice .divisionByZero) := by
  intro calls
  have failed : ((roll []).run.run (afterCalls { source := Source.highest } calls)).1 =
      .error (.dice .divisionByZero) := by decide +kernel
  have short : ∀ call ∈ calls, call.text.length ≤ 125 := by decide
  exact ⟨failed, (roll_fails_only Source.highest calls [] _ failed).2 (by decide) fun _ => short⟩

/-- A constant that is too large for a double fails by its number, and not by the request. -/
theorem roll_of_large_constant :
    ((roll (List.replicate 310 '1')).run.run { source := Source.highest }).1 =
        .error (.number .overflow) ∧
      ¬Failure.IsRequest (.number .overflow) := by
  constructor
  · decide +kernel
  · rintro ⟨error, same⟩
    cases same

end TabletopDice
