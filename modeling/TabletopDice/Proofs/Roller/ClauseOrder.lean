import TabletopDice.Proofs.Roller.ClauseBlanks

/-!
Clauses in another order. Every clause makes one setting, and settings of different kinds
do not get in each other's way: explicit messages count whether they stand before or behind
a confirmation, and a sum with a target is refused wherever the two stand.
-/

namespace TabletopDice

open Text

inductive ClauseKind
  | minimum
  | maximum
  | confirmation
  | difficulty
  | automatic
  | target
  | repetition
  | total
  | maximized
  deriving DecidableEq, Repr

/-- What a clause sets, with its numbers read. -/
inductive Setting
  /-- A limit; it is set with the expression. -/
  | keep
  | confirmation (threat : Option Nat) (bonus : Option Int)
  | target (value : Int)
  | repetition (count : Nat)
  | total (value : Nat)
  | maximized
  | difficulty (value : Int)
  | automatic (written success fail : Text)
  deriving DecidableEq, Repr

namespace Setting

def apply (modifiers : Modifiers) : Setting → Modifiers
  | keep => modifiers
  | confirmation threat bonus =>
      { modifiers with
        confirm := true
        threat := threat.getD modifiers.threat
        confirmBonus := bonus.getD modifiers.confirmBonus
        successMessage :=
          if modifiers.successMessage.isEmpty then "HIT".toList else modifiers.successMessage
        failMessage :=
          if modifiers.failMessage.isEmpty then "MISS".toList else modifiers.failMessage }
  | target value => { modifiers with target := value }
  | repetition count => { modifiers with repeatFor := count }
  | total value => { modifiers with total := value }
  | maximized => { modifiers with maximized := true }
  | difficulty value => { modifiers with difficulty := value }
  | automatic written success fail =>
      { modifiers with automatic := written, successMessage := success, failMessage := fail }

/-- The kind of the setting; a limit sets nothing here. -/
def kind? : Setting → Option ClauseKind
  | keep => none
  | confirmation _ _ => some .confirmation
  | target _ => some .target
  | repetition _ => some .repetition
  | total _ => some .total
  | maximized => some .maximized
  | difficulty _ => some .difficulty
  | automatic _ _ _ => some .automatic

/-- Explicit messages are not empty, so that they cannot be taken for missing ones. -/
def IsTold : Setting → Prop
  | automatic _ success fail => success ≠ [] ∧ fail ≠ []
  | _ => True

/-- A confirmation keeps explicit messages, and they replace those that it has set. -/
theorem apply_confirmation_automatic (modifiers : Modifiers) (threat : Option Nat)
    (bonus : Option Int) {written success fail : Text}
    (told : (automatic written success fail).IsTold) :
    (automatic written success fail).apply ((confirmation threat bonus).apply modifiers) =
      (confirmation threat bonus).apply ((automatic written success fail).apply modifiers) := by
  obtain ⟨someSuccess, someFail⟩ := told
  simp only [apply, List.isEmpty_iff, if_neg someSuccess, if_neg someFail]

theorem apply_comm (modifiers : Modifiers) {one other : Setting} (told : one.IsTold)
    (otherTold : other.IsTold) (apart : ∀ kind ∈ one.kind?, kind ∉ other.kind?) :
    other.apply (one.apply modifiers) = one.apply (other.apply modifiers) := by
  cases one with
  | keep => rfl
  | confirmation threat bonus =>
      cases other with
      | confirmation => exact absurd rfl (apart _ rfl)
      | automatic => exact apply_confirmation_automatic modifiers threat bonus otherTold
      | _ => rfl
  | automatic written success fail =>
      cases other with
      | automatic => exact absurd rfl (apart _ rfl)
      | confirmation threat bonus =>
          exact (apply_confirmation_automatic modifiers threat bonus told).symm
      | _ => rfl
  | target =>
      cases other with
      | target => exact absurd rfl (apart _ rfl)
      | _ => rfl
  | repetition =>
      cases other with
      | repetition => exact absurd rfl (apart _ rfl)
      | _ => rfl
  | total =>
      cases other with
      | total => exact absurd rfl (apart _ rfl)
      | _ => rfl
  | maximized =>
      cases other with
      | maximized => exact absurd rfl (apart _ rfl)
      | _ => rfl
  | difficulty =>
      cases other with
      | difficulty => exact absurd rfl (apart _ rfl)
      | _ => rfl

theorem total_apply (modifiers : Modifiers) {setting : Setting} (other : setting.kind? ≠ some .total) :
    (setting.apply modifiers).total = modifiers.total := by
  cases setting with
  | total => exact absurd rfl other
  | _ => rfl

theorem target_apply (modifiers : Modifiers) {setting : Setting}
    (other : setting.kind? ≠ some .target) : (setting.apply modifiers).target = modifiers.target := by
  cases setting with
  | target => exact absurd rfl other
  | _ => rfl

end Setting

namespace Clause

def setting : Clause → Except Failure Setting
  | limit => return .keep
  | confirm threat bonus => do
      let threat ← threat.elim (pure none) fun digits => return some (← wholeNumber digits)
      let bonus ← bonus.elim (pure none) fun numeral => return some (← numeral.read)
      return .confirmation threat bonus
  | target value => return .target (← value.read)
  | repetition count => return .repetition (← wholeNumber count)
  | total value => return .total (← wholeNumber value)
  | maximized => return .maximized
  | difficulty value => return .difficulty (← value.read)
  | automatic written success fail => return .automatic written success fail

theorem elim_pure_eq_map {Written Value : Type} (written : Option Written)
    (read : Written → Except Failure Value) (other : Value) :
    written.elim (pure other) read =
      (written.elim (pure none) fun text => return some (← read text) :
        Except Failure (Option Value)).map (Option.getD · other) := by
  cases written with
  | none => rfl
  | some text =>
      dsimp only [Option.elim_some]
      cases read text with
      | error failure => rfl
      | ok value => rfl

theorem with_clause_eq (modifiers : Modifiers) (clause : Clause) :
    modifiers.withClause clause = clause.setting.map (Setting.apply modifiers) := by
  cases clause with
  | confirm threat bonus =>
      rw [Modifiers.withClause, setting, elim_pure_eq_map threat, elim_pure_eq_map bonus]
      generalize (threat.elim (pure none) fun digits => return some (← wholeNumber digits) :
        Except Failure (Option Nat)) = readThreat
      generalize (bonus.elim (pure none) fun numeral => return some (← numeral.read) :
        Except Failure (Option Int)) = readBonus
      cases readThreat with
      | error failure => rfl
      | ok threat =>
          cases readBonus with
          | error failure => rfl
          | ok bonus => rfl
  | target value | difficulty value =>
      rw [Modifiers.withClause, setting]
      cases value.read with
      | error failure => rfl
      | ok number => rfl
  | repetition count | total count =>
      rw [Modifiers.withClause, setting]
      cases wholeNumber count with
      | error failure => rfl
      | ok number => rfl
  | _ => rfl

def kind? (text : Text) : Option ClauseKind :=
  (read? text).map fun
    | limit => if Limits.isMinimum text then .minimum else .maximum
    | confirm _ _ => .confirmation
    | target _ => .target
    | repetition _ => .repetition
    | total _ => .total
    | maximized => .maximized
    | difficulty _ => .difficulty
    | automatic _ _ _ => .automatic

def Sets (text : Text) (made : Setting) : Prop :=
  ∃ clause, read? text = some clause ∧ clause.setting = .ok made

theorem Sets.kind {text : Text} {made : Setting} (sets : Sets text made) :
    ∀ kind ∈ made.kind?, kind ∈ kind? text := by
  obtain ⟨clause, read, accepted⟩ := sets
  rw [kind?, read]
  cases clause with
  | confirm threat bonus =>
      simp only [setting, bind_eq_ok, pure_eq_ok] at accepted
      obtain ⟨_, -, _, -, rfl⟩ := accepted
      exact fun _ same => same
  | target value | repetition value | total value | difficulty value =>
      simp only [setting, bind_eq_ok, pure_eq_ok] at accepted
      obtain ⟨_, -, rfl⟩ := accepted
      exact fun _ same => same
  | limit =>
      cases accepted
      exact nofun
  | maximized | automatic =>
      cases accepted
      exact fun _ same => same

theorem fail_message_ne_nil (success : Text) : failMessageFor success ≠ [] := by
  unfold failMessageFor
  dsimp only
  split
  · exact List.cons_ne_nil _ _
  · split
    · exact List.cons_ne_nil _ _
    · split
      · exact List.cons_ne_nil _ _
      · split
        · exact List.cons_ne_nil _ _
        · exact List.append_ne_nil_of_left_ne_nil (List.cons_ne_nil _ _) _

theorem split_messages_ne_nil {text success fail : Text}
    (cut : splitMessages? text = some (success, fail)) : fail ≠ [] := by
  induction text using splitMessages?.induct generalizing success with
  | case1 => cases cut
  | case2 next rest blank ih =>
      rw [splitMessages?, if_pos blank] at cut
      obtain ⟨⟨before, behind⟩, found, same⟩ := Option.map_eq_some_iff.mp cut
      cases same
      exact ih found
  | case3 next rest visible =>
      rw [splitMessages?, if_neg visible] at cut
      cases cut
      exact List.cons_ne_nil _ _
  | case4 char rest other ih =>
      rw [splitMessages?] at cut
      · obtain ⟨⟨before, behind⟩, found, same⟩ := Option.map_eq_some_iff.mp cut
        cases same
        exact ih found
      · exact other

theorem messages_of_read_automatic {text whole written success fail : Text}
    (read : readAutomatic? whole text = some (automatic written success fail)) :
    success ≠ [] ∧ fail ≠ [] := by
  unfold readAutomatic? at read
  split at read
  · cases read
    exact ⟨List.cons_ne_nil _ _, List.cons_ne_nil _ _⟩
  · cases read
  · split at read
    · cases read
    · split at read
      next cut =>
        cases read
        exact ⟨List.cons_ne_nil _ _, split_messages_ne_nil cut⟩
      next =>
        cases read
        exact ⟨List.cons_ne_nil _ _, fail_message_ne_nil _⟩

theorem not_automatic_of_read_confirm {text written success fail : Text} :
    readConfirm? text ≠ some (automatic written success fail) := by
  intro read
  rw [read_confirm_eq] at read
  dsimp only at read
  split at read
  · split at read
    · split at read
      · cases read
      · cases read
    · cases read
  · split at read
    · cases read
    · cases read

theorem messages_ne_nil {text written success fail : Text}
    (read : read? text = some (automatic written success fail)) : success ≠ [] ∧ fail ≠ [] := by
  have mapped {Value : Type} {kind : Value → Clause} {found : Option Value}
      (other : ∀ value, kind value ≠ automatic written success fail) :
      found.map kind ≠ some (automatic written success fail) := by
    intro same
    obtain ⟨value, -, made⟩ := Option.map_eq_some_iff.mp same
    exact other value made
  rw [read_eq] at read
  split at read
  · cases read
  · split at read
    · exact absurd read not_automatic_of_read_confirm
    · split at read
      · split at read
        · cases read
        · cases read
      · unfold readKeyword? at read
        split at read
        · exact absurd read (mapped nofun)
        · split at read
          · exact absurd read (mapped nofun)
          · split at read
            · exact absurd read (mapped nofun)
            · split at read
              · split at read
                · cases read
                · cases read
              · split at read
                · exact absurd read (mapped nofun)
                · split at read
                  · exact messages_of_read_automatic read
                  · cases read

theorem Sets.told {text : Text} {made : Setting} (sets : Sets text made) : made.IsTold := by
  obtain ⟨clause, read, accepted⟩ := sets
  cases clause with
  | confirm threat bonus =>
      simp only [setting, bind_eq_ok, pure_eq_ok] at accepted
      obtain ⟨_, -, _, -, rfl⟩ := accepted
      trivial
  | target value | repetition value | total value | difficulty value =>
      simp only [setting, bind_eq_ok, pure_eq_ok] at accepted
      obtain ⟨_, -, rfl⟩ := accepted
      trivial
  | limit | maximized =>
      cases accepted
      trivial
  | automatic written success fail =>
      cases accepted
      exact messages_ne_nil read

end Clause

namespace Modifiers

def HasOneGoal (modifiers : Modifiers) : Prop := modifiers.total = 0 ∨ modifiers.target = 0

variable {modifiers final : Modifiers} {text : Text}

theorem not_both_goals_iff (final : Modifiers) :
    ¬(final.total ≠ 0 ∧ final.target ≠ 0) ↔ final.HasOneGoal := by
  rw [not_and_or, not_not, not_not]
  rfl

/-- A clause that is read makes its setting, and adds no second goal. -/
theorem setting_of_with_text (read : modifiers.withText text = .ok final) :
    ∃ made, Clause.Sets text made ∧ final = made.apply modifiers ∧
      (modifiers.HasOneGoal → final.HasOneGoal) := by
  unfold withText at read
  split at read
  next => cases read
  next limit =>
    cases read
    exact ⟨.keep, ⟨.limit, limit, rfl⟩, rfl, fun goal => goal⟩
  next clause _ found =>
    rw [Clause.with_clause_eq, bind_eq_ok] at read
    obtain ⟨next, added, last⟩ := read
    cases accepted : clause.setting with
    | error failure =>
        rw [accepted] at added
        cases added
    | ok made =>
        rw [accepted] at added
        cases added
        split at last
        next => cases last
        next single =>
          cases last
          exact ⟨made, ⟨clause, found, accepted⟩, rfl, fun _ => (not_both_goals_iff _).mp single⟩

theorem with_text_eq_ok (goal : modifiers.HasOneGoal) :
    modifiers.withText text = .ok final ↔
      ∃ made, Clause.Sets text made ∧ final = made.apply modifiers ∧ final.HasOneGoal := by
  constructor
  · intro read
    obtain ⟨made, sets, same, single⟩ := setting_of_with_text read
    exact ⟨made, sets, same, single goal⟩
  · rintro ⟨made, ⟨clause, found, accepted⟩, rfl, single⟩
    have added : modifiers.withClause clause = .ok (made.apply modifiers) := by
      rw [Clause.with_clause_eq, accepted]
      rfl
    unfold withText
    rw [found]
    cases clause with
    | limit =>
        cases accepted
        rfl
    | _ =>
        dsimp only
        rw [added]
        exact if_neg ((not_both_goals_iff _).mpr single)

/-- Nothing has been set yet that the clause with this text may set as a goal. -/
structure IsReady (modifiers : Modifiers) (text : Text) : Prop where
  goal : modifiers.HasOneGoal
  total : Clause.kind? text = some .total → modifiers.total = 0
  target : Clause.kind? text = some .target → modifiers.target = 0

/-- The texts are of clauses of different kinds, if they are clauses at all. -/
def Apart (one other : Text) : Prop := ∀ kind ∈ Clause.kind? one, kind ∉ Clause.kind? other

theorem Apart.symm {one other : Text} (apart : Apart one other) : Apart other one :=
  fun kind first second => apart kind second first

theorem IsReady.with_text {one other : Text} (waiting : modifiers.IsReady other) (apart : Apart one other)
    (read : modifiers.withText one = .ok final) : final.IsReady other := by
  obtain ⟨made, sets, rfl, goal⟩ := (with_text_eq_ok waiting.goal).mp read
  have unset {kind : ClauseKind} (same : Clause.kind? other = some kind) : made.kind? ≠ some kind :=
    fun set => apart kind (sets.kind kind set) same
  refine ⟨goal, ?_, ?_⟩
  · intro total
    rw [Setting.total_apply modifiers (unset total)]
    exact waiting.total total
  · intro target
    rw [Setting.target_apply modifiers (unset target)]
    exact waiting.target target

theorem with_text_swap {one other : Text} {middle : Modifiers} (apart : Apart one other)
    (ready : modifiers.IsReady one) (first : modifiers.withText one = .ok middle)
    (second : middle.withText other = .ok final) :
    ∃ between, modifiers.withText other = .ok between ∧ between.withText one = .ok final := by
  obtain ⟨made, sets, rfl, goal⟩ := (with_text_eq_ok ready.goal).mp first
  obtain ⟨added, otherSets, rfl, both⟩ := (with_text_eq_ok goal).mp second
  have settings : ∀ kind ∈ made.kind?, kind ∉ added.kind? := fun kind set also =>
    apart kind (sets.kind kind set) (otherSets.kind kind also)
  have same := Setting.apply_comm modifiers sets.told otherSets.told settings
  rw [same] at both ⊢
  -- What the first clause sets as a goal was not set before, so it can be left out.
  have between : (added.apply modifiers).HasOneGoal := by
    by_cases total : made.kind? = some .total
    · left
      rw [Setting.total_apply modifiers (settings _ total)]
      exact ready.total (sets.kind _ total)
    · by_cases target : made.kind? = some .target
      · right
        rw [Setting.target_apply modifiers (settings _ target)]
        exact ready.target (sets.kind _ target)
      · rw [HasOneGoal, Setting.total_apply _ total, Setting.target_apply _ target] at both
        exact both
  exact ⟨added.apply modifiers, (with_text_eq_ok ready.goal).mpr ⟨added, otherSets, rfl, between⟩,
    (with_text_eq_ok between).mpr ⟨made, sets, rfl, both⟩⟩

theorem foldlM_of_reordered {clauses others : List Text} (title : Text)
    (reordered : clauses.Perm others) (distinct : (clauses.filterMap Clause.kind?).Nodup)
    (read : clauses.foldlM withText { title } = .ok final) :
    others.foldlM withText { title } = .ok final := by
  refine foldlM_of_perm Apart IsReady Apart.symm (fun apart waiting => waiting.with_text apart)
    with_text_swap reordered ?_ ?_ read
  · refine (List.pairwise_filterMap.mp distinct).imp ?_
    intro one other different kind first second
    exact different kind first kind second rfl
  · exact fun _ _ => ⟨.inl rfl, fun _ => rfl, fun _ => rfl⟩

end Modifiers

end TabletopDice
