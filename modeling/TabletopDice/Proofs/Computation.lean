import TabletopDice.Source

/-!
How computations can fail. `FailsOnly` speaks of a single result. `Sound` speaks of a
computation on a state: started where an invariant holds it keeps the invariant, and
either its value is as promised or its failure is one that is allowed. `RunsAlike` speaks of two
computations side by side.
-/

namespace TabletopDice

/-- The request is at fault, and not its numbers. -/
def Failure.IsRequest (failure : Failure) : Prop := ∃ error, failure = .dice error

section Results

variable {Fault Other Value Result : Type} {allowed : Fault → Prop}

def FailsOnly (allowed : Fault → Prop) (result : Except Fault Value) : Prop :=
  ∀ fault, result = .error fault → allowed fault

theorem fails_only_ok (value : Value) : FailsOnly allowed (.ok value : Except Fault Value) := by
  intro fault failed
  cases failed

theorem fails_only_error {fault : Fault} (permitted : allowed fault) :
    FailsOnly allowed (.error fault : Except Fault Value) := by
  intro other failed
  cases failed
  exact permitted

theorem fails_only_bind_of_ok {result : Except Fault Value} {next : Value → Except Fault Result}
    (first : FailsOnly allowed result)
    (second : ∀ value, result = .ok value → FailsOnly allowed (next value)) :
    FailsOnly allowed (result >>= next) := by
  cases result with
  | ok value => exact second value rfl
  | error fault => exact fails_only_error (first fault rfl)

theorem fails_only_bind {result : Except Fault Value} {next : Value → Except Fault Result}
    (first : FailsOnly allowed result) (second : ∀ value, FailsOnly allowed (next value)) :
    FailsOnly allowed (result >>= next) :=
  fails_only_bind_of_ok first fun value _ => second value

theorem fails_only_map_error {permitted : Other → Prop} {result : Except Fault Value}
    {change : Fault → Other} (only : FailsOnly allowed result)
    (changed : ∀ fault, allowed fault → permitted (change fault)) :
    FailsOnly permitted (result.mapError change) := by
  cases result with
  | ok value => exact fails_only_ok value
  | error fault => exact fails_only_error (changed fault (only fault rfl))

theorem bind_eq_ok {result : Except Fault Value} {next : Value → Except Fault Result}
    {final : Result} :
    result >>= next = .ok final ↔ ∃ value, result = .ok value ∧ next value = .ok final := by
  cases result with
  | ok value =>
      constructor
      · intro succeeded
        exact ⟨value, rfl, succeeded⟩
      · rintro ⟨_, same, succeeded⟩
        cases same
        exact succeeded
  | error fault =>
      constructor
      · intro succeeded
        cases succeeded
      · rintro ⟨_, same, _⟩
        cases same

theorem pure_eq_ok {value other : Value} :
    (pure value : Except Fault Value) = .ok other ↔ value = other := by
  constructor
  · intro same
    cases same
    rfl
  · rintro rfl
    rfl

theorem exists_of_is_ok {result : Except Fault Value} (succeeded : result.isOk = true) :
    ∃ value, result = .ok value := by
  cases result with
  | ok value => exact ⟨value, rfl⟩
  | error fault => cases succeeded

theorem eq_ok_of_to_option {result : Except Fault Value} {value : Value}
    (succeeded : result.toOption = some value) : result = .ok value := by
  cases result with
  | ok other => exact congrArg Except.ok (Option.some.inj succeeded)
  | error fault => cases succeeded

section Folds

variable {State Item : Type} {step : State → Item → Except Fault State} {items : List Item}
  {state final : State}

/-- What every step keeps is kept by all of them. -/
theorem kept_of_foldlM {property : State → Prop}
    (keeps : ∀ item ∈ items, ∀ before behind, property before →
      step before item = .ok behind → property behind)
    (holds : property state) (done : items.foldlM step state = .ok final) : property final := by
  induction items generalizing state with
  | nil =>
      cases done
      exact holds
  | cons item items ih =>
      obtain ⟨first, others⟩ := List.forall_mem_cons.mp keeps
      rw [List.foldlM_cons, bind_eq_ok] at done
      obtain ⟨next, stepped, rest⟩ := done
      exact ih others (first state next holds stepped) rest

/-- Where the end is reached, each item has been taken by a step. -/
theorem step_of_foldlM (done : items.foldlM step state = .ok final) :
    ∀ item ∈ items, ∃ before behind, step before item = .ok behind := by
  induction items generalizing state with
  | nil => exact fun _ member => absurd member List.not_mem_nil
  | cons item items ih =>
      rw [List.foldlM_cons, bind_eq_ok] at done
      obtain ⟨next, stepped, rest⟩ := done
      exact List.forall_mem_cons.mpr ⟨⟨state, next, stepped⟩, ih rest⟩

theorem fails_only_foldlM (each : ∀ item ∈ items, ∀ state, FailsOnly allowed (step state item)) :
    FailsOnly allowed (items.foldlM step state) := by
  induction items generalizing state with
  | nil => exact fails_only_ok _
  | cons item items ih =>
      obtain ⟨first, others⟩ := List.forall_mem_cons.mp each
      rw [List.foldlM_cons]
      exact fails_only_bind (first state) fun next => ih others

end Folds

/-- Steps that can change places, and of which none spoils that another is ready, come to the same
in every order. -/
theorem foldlM_of_perm {State Item : Type} {step : State → Item → Except Fault State}
    (apart : Item → Item → Prop) (ready : State → Item → Prop)
    (symmetric : ∀ {one other}, apart one other → apart other one)
    (stays : ∀ {state next one other}, apart one other → ready state other →
      step state one = .ok next → ready next other)
    (swaps : ∀ {state middle final one other}, apart one other → ready state one →
      step state one = .ok middle → step middle other = .ok final →
        ∃ between, step state other = .ok between ∧ step between one = .ok final)
    {items others : List Item} (reordered : items.Perm others) {state final : State}
    (distinct : items.Pairwise apart) (start : ∀ item ∈ items, ready state item)
    (done : items.foldlM step state = .ok final) : others.foldlM step state = .ok final := by
  induction reordered generalizing state with
  | nil => exact done
  | cons item _ ih =>
      obtain ⟨away, rest⟩ := List.pairwise_cons.mp distinct
      obtain ⟨-, waiting⟩ := List.forall_mem_cons.mp start
      rw [List.foldlM_cons, bind_eq_ok] at done ⊢
      obtain ⟨next, first, behind⟩ := done
      exact ⟨next, first,
        ih rest (fun other member => stays (away other member) (waiting other member) first) behind⟩
  | swap one other rest =>
      obtain ⟨away, -⟩ := List.pairwise_cons.mp distinct
      obtain ⟨firstReady, -⟩ := List.forall_mem_cons.mp start
      simp only [List.foldlM_cons, bind_eq_ok] at done ⊢
      obtain ⟨middle, first, final, second, behind⟩ := done
      obtain ⟨between, before, after⟩ := swaps (away one List.mem_cons_self) firstReady first second
      exact ⟨between, before, final, after, behind⟩
  | trans before _ ihFirst ihSecond =>
      refine ihSecond ((before.pairwise_iff symmetric).mp distinct) ?_
        (ihFirst distinct start done)
      exact fun item member => start item (before.mem_iff.mpr member)

end Results

section States

variable {Fault State Value Result : Type} {invariant : State → Prop}
  {allowed permitted : Fault → Prop}

theorem run_get (state : State) :
    (get : ExceptT Fault (StateM State) State).run.run state = (.ok state, state) :=
  rfl

/-- A sequence goes on with the value and the state of its first part, unless that fails. -/
theorem run_bind (computation : ExceptT Fault (StateM State) Value)
    (next : Value → ExceptT Fault (StateM State) Result) (state : State) :
    (computation >>= next).run.run state =
      match computation.run.run state with
      | (.ok value, after) => (next value).run.run after
      | (.error fault, after) => (.error fault, after) := by
  simp only [ExceptT.run_bind, StateT.run_bind]
  rcases computation.run.run state with ⟨fault | value, after⟩
  · rfl
  · rfl

theorem run_bind_of_error {computation : ExceptT Fault (StateM State) Value} {fault : Fault}
    {state after : State} (failed : computation.run.run state = (.error fault, after))
    (next : Value → ExceptT Fault (StateM State) Result) :
    (computation >>= next).run.run state = (.error fault, after) := by
  rw [run_bind, failed]

theorem run_bind_eq_ok {computation : ExceptT Fault (StateM State) Value}
    {next : Value → ExceptT Fault (StateM State) Result} {final : Result} {state last : State} :
    (computation >>= next).run.run state = (.ok final, last) ↔
      ∃ value after, computation.run.run state = (.ok value, after) ∧
        (next value).run.run after = (.ok final, last) := by
  rw [run_bind]
  rcases computation.run.run state with ⟨fault | value, after⟩
  · constructor
    · intro succeeded
      cases succeeded
    · rintro ⟨_, _, same, -⟩
      cases same
  · constructor
    · intro succeeded
      exact ⟨value, after, rfl, succeeded⟩
    · rintro ⟨_, _, same, succeeded⟩
      cases same
      exact succeeded

theorem run_pure_eq_ok {value final : Value} {state last : State} :
    (pure value : ExceptT Fault (StateM State) Value).run.run state = (.ok final, last) ↔
      value = final ∧ state = last := by
  constructor
  · intro same
    cases same
    exact ⟨rfl, rfl⟩
  · rintro ⟨rfl, rfl⟩
    rfl

theorem run_guard_eq_ok {condition : Prop} [Decidable condition] {fault : Fault}
    {next : Unit → ExceptT Fault (StateM State) Value} {value : Value} {state last : State} :
    (if condition then throw fault >>= next else next ()).run.run state = (.ok value, last) ↔
      ¬condition ∧ (next ()).run.run state = (.ok value, last) := by
  by_cases holds : condition
  · rw [if_pos holds]
    exact iff_of_false nofun fun allowed => allowed.1 holds
  · rw [if_neg holds]
    exact (and_iff_right holds).symm

/-- The result is a value as promised or an allowed failure. -/
def Settles (allowed : Fault → Prop) (promised : Value → Prop) : Except Fault Value → Prop
  | .ok value => promised value
  | .error fault => allowed fault

theorem settles_anything (result : Except Fault Value) :
    Settles (fun _ => True) (fun _ => True) result := by
  cases result with
  | ok value => trivial
  | error fault => trivial

theorem settles_of_fails_only {result : Except Fault Value} (only : FailsOnly allowed result) :
    Settles allowed (fun _ => True) result := by
  cases result with
  | ok value => trivial
  | error fault => exact only fault rfl

/-- The computation keeps the invariant, and its result is as promised or allowed. -/
def Sound (invariant : State → Prop) (allowed : Fault → Prop)
    (computation : ExceptT Fault (StateM State) Value) (promised : Value → Prop) : Prop :=
  ∀ state, invariant state →
    Settles allowed promised (computation.run.run state).1 ∧
      invariant (computation.run.run state).2

theorem Sound.of_ok {computation : ExceptT Fault (StateM State) Value} {promised : Value → Prop}
    (sound : Sound invariant allowed computation promised) {state after : State} {value : Value}
    (holds : invariant state) (succeeded : computation.run.run state = (.ok value, after)) :
    promised value ∧ invariant after := by
  have both := sound state holds
  rw [succeeded] at both
  exact both

theorem Sound.of_error {computation : ExceptT Fault (StateM State) Value} {promised : Value → Prop}
    (sound : Sound invariant allowed computation promised) {state after : State} {fault : Fault}
    (holds : invariant state) (failed : computation.run.run state = (.error fault, after)) :
    allowed fault ∧ invariant after := by
  have both := sound state holds
  rw [failed] at both
  exact both

theorem sound_pure {value : Value} {promised : Value → Prop} (kept : promised value) :
    Sound invariant allowed (pure value) promised :=
  fun _ holds => ⟨kept, holds⟩

theorem sound_throw {fault : Fault} (permitted : allowed fault) (promised : Value → Prop) :
    Sound invariant allowed (throw fault) promised :=
  fun _ holds => ⟨permitted, holds⟩

theorem sound_get : Sound invariant allowed get invariant :=
  fun _ holds => ⟨holds, holds⟩

theorem sound_modify {change : State → State}
    (keeps : ∀ state, invariant state → invariant (change state)) :
    Sound invariant allowed (modify change) fun _ => True :=
  fun state holds => ⟨trivial, keeps state holds⟩

theorem sound_bind {computation : ExceptT Fault (StateM State) Value}
    {next : Value → ExceptT Fault (StateM State) Result} {first : Value → Prop}
    {promised : Result → Prop} (before : Sound invariant allowed computation first)
    (behind : ∀ value, first value → Sound invariant allowed (next value) promised) :
    Sound invariant allowed (computation >>= next) promised := by
  intro state holds
  have part := before state holds
  rw [run_bind]
  generalize computation.run.run state = run at part ⊢
  obtain ⟨fault | value, after⟩ := run
  · exact part
  · exact behind value part.1 after part.2

theorem sound_mono {computation : ExceptT Fault (StateM State) Value}
    {first promised : Value → Prop} (before : Sound invariant allowed computation first)
    (failing : ∀ fault, allowed fault → permitted fault)
    (succeeding : ∀ value, first value → promised value) :
    Sound invariant permitted computation promised := by
  intro state holds
  have part := before state holds
  generalize computation.run.run state = run at part ⊢
  obtain ⟨fault | value, after⟩ := run
  · exact ⟨failing fault part.1, part.2⟩
  · exact ⟨succeeding value part.1, part.2⟩

theorem sound_imp {computation : ExceptT Fault (StateM State) Value}
    {first promised : Value → Prop} (before : Sound invariant allowed computation first)
    (succeeding : ∀ value, first value → promised value) :
    Sound invariant allowed computation promised :=
  sound_mono before (fun _ permitted => permitted) succeeding

theorem sound_and {computation : ExceptT Fault (StateM State) Value}
    {first second : Value → Prop} (one : Sound invariant allowed computation first)
    (other : Sound invariant permitted computation second) :
    Sound invariant allowed computation fun value => first value ∧ second value := by
  intro state holds
  have left := one state holds
  have right := other state holds
  generalize computation.run.run state = run at left right ⊢
  obtain ⟨fault | value, after⟩ := run
  · exact left
  · exact ⟨⟨left.1, right.1⟩, left.2⟩

end States

section Pairs

variable {Fault State OtherState One Other First Second Value : Type}

/-- Both fail alike, or both succeed with related values. -/
inductive Agree (related : One → Other → Prop) : Except Fault One → Except Fault Other → Prop
  | ok {value : One} {other : Other} (holds : related value other) :
      Agree related (.ok value) (.ok other)
  | error (fault : Fault) : Agree related (.error fault) (.error fault)

theorem agree_eq {one other : Except Fault One} : Agree Eq one other ↔ one = other := by
  constructor
  · rintro (⟨rfl⟩ | _)
    · rfl
    · rfl
  · rintro rfl
    cases one with
    | ok value => exact .ok rfl
    | error fault => exact .error fault

theorem Agree.map_eq {related : One → Other → Prop} {one : Except Fault One}
    {other : Except Fault Other} (agree : Agree related one other) {tell : One → Value}
    {tellOther : Other → Value}
    (same : ∀ value found, related value found → tell value = tellOther found) :
    one.map tell = other.map tellOther := by
  cases agree with
  | ok holds => exact congrArg Except.ok (same _ _ holds)
  | error fault => rfl

theorem Agree.imp {related implied : One → Other → Prop} {one : Except Fault One}
    {other : Except Fault Other} (agree : Agree related one other)
    (imply : ∀ value found, related value found → implied value found) :
    Agree implied one other := by
  cases agree with
  | ok holds => exact .ok (imply _ _ holds)
  | error fault => exact .error fault

/-- Started on related states, the computations fail alike or give related values, and they leave
related states. -/
def RunsAlike (states : State → OtherState → Prop) (related : One → Other → Prop)
    (one : ExceptT Fault (StateM State) One) (other : ExceptT Fault (StateM OtherState) Other) :
    Prop :=
  ∀ first second, states first second →
    Agree related (one.run.run first).1 (other.run.run second).1 ∧
      states (one.run.run first).2 (other.run.run second).2

variable {states : State → OtherState → Prop} {related : One → Other → Prop}
  {one : ExceptT Fault (StateM State) One} {other : ExceptT Fault (StateM OtherState) Other}

theorem runs_alike_pure {value : One} {found : Other} (holds : related value found) :
    RunsAlike states related (pure value : ExceptT Fault (StateM State) One) (pure found) :=
  fun _ _ kept => ⟨.ok holds, kept⟩

theorem runs_alike_bind {behind : First → Second → Prop}
    {next : One → ExceptT Fault (StateM State) First}
    {following : Other → ExceptT Fault (StateM OtherState) Second}
    (before : RunsAlike states related one other)
    (after : ∀ value found, related value found →
      RunsAlike states behind (next value) (following found)) :
    RunsAlike states behind (one >>= next) (other >>= following) := by
  intro first second kept
  have parts := before first second kept
  rw [run_bind, run_bind]
  generalize one.run.run first = left at parts ⊢
  generalize other.run.run second = right at parts ⊢
  obtain ⟨result, left⟩ := left
  obtain ⟨found, right⟩ := right
  obtain ⟨agree, kept⟩ := parts
  cases agree with
  | ok holds => exact after _ _ holds left right kept
  | error fault => exact ⟨.error fault, kept⟩

theorem runs_alike_imp {implied : One → Other → Prop} (alike : RunsAlike states related one other)
    (imply : ∀ value found, related value found → implied value found) :
    RunsAlike states implied one other := by
  intro first second kept
  obtain ⟨agree, kept⟩ := alike first second kept
  exact ⟨agree.imp imply, kept⟩

end Pairs

end TabletopDice
