import TabletopDice.Proofs.Roller.Independence
import TabletopDice.Proofs.Roller.Secrecy

/-!
Two computations side by side. They may differ in what they tell, so long as their values
are related; they draw the same and fail alike. The relation is carried from part to part,
so what is to be shown of two rolls is shown of their elementary rolls.
-/

namespace TabletopDice

namespace SessionM

variable {One Other First Second : Type}

/-- Started on the same source, the computations give related values or fail alike, and they leave
the same source, whatever else their sessions hold. -/
abbrev Mirrors (related : One → Other → Prop) (one : SessionM One) (other : SessionM Other) : Prop :=
  RunsAlike (fun first second : Session => first.source = second.source) related one other

theorem mirrors_of_alike {one other : SessionM One} (alike : Alike one other) :
    Mirrors (fun value found => found = value) one other :=
  runs_alike_imp (corresponds_iff_runs_alike.mp (alike_iff_corresponds.mp alike)) fun _ _ => Eq.symm

theorem mirrors_self {computation : SessionM One} {promised : One → Prop}
    (alike : Alike computation computation) (yields : Yields computation promised) :
    Mirrors (fun value other => other = value ∧ promised value) computation computation := by
  intro first second same
  obtain ⟨results, sources⟩ := alike first second same
  have told := (yields first trivial).1
  rw [← results]
  generalize computation.run.run first = run at told sources ⊢
  obtain ⟨failure | value, after⟩ := run
  · exact ⟨.error failure, sources⟩
  · exact ⟨.ok ⟨rfl, told⟩, sources⟩

end SessionM

end TabletopDice
