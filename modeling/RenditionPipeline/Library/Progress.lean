import RenditionPipeline.Library.Run

/-!
# What can still be reached

An invariant says what no run can leave; the other half of the picture is what some run
can still come to. A state leads to another (`RenditionPipeline.Leads`) when a run of
guarded steps goes from the one to the other, and it is shown to lead to a goal by a
measure: as long as the goal is not reached, some run keeps the invariant and makes the
measure smaller (`RenditionPipeline.Leads.exists_of_measure`). The runs that do so may be
long, and may take the measure up in between.
-/

namespace RenditionPipeline

variable {S A : Type} {step : S → A → Option S} {guard : S → A → Prop}

/-- **A state leads to another** by steps that meet the guard. -/
abbrev Leads (step : S → A → Option S) (guard : S → A → Prop) (s t : S) : Prop :=
  Reaches step guard (· = s) t

namespace Leads

variable {s t u : S} {a : A}

theorem refl (s : S) : Leads step guard s s := Reaches.start rfl

/-- One step. -/
theorem single (hg : guard s a) (h : step s a = some t) : Leads step guard s t :=
  Reaches.step (refl s) hg h

theorem trans (h : Leads step guard s t) (h' : Leads step guard t u) : Leads step guard s u := by
  induction h' with
  | start hu =>
    subst hu
    exact h
  | step _ hg he ih => exact Reaches.step ih hg he

/-- **What is led to from a state that is reached is reached**, if the guard of the one is no
weaker than that of the other. -/
theorem reaches {guard' : S → A → Prop} {start : S → Prop} (h : Leads step guard s t)
    (hg : ∀ s a, guard s a → guard' s a) (hs : Reaches step guard' start s) :
    Reaches step guard' start t := by
  induction h with
  | start ht =>
    subst ht
    exact hs
  | step _ hga he ih => exact Reaches.step ih (hg _ _ hga) he

/-- **The rule of the decreasing measure**: a goal can be reached if, from every state that
is not one and meets the invariant, some run leads to a state that meets it and is smaller. -/
theorem exists_of_measure {I G : S → Prop} (m : S → ℕ)
    (hdec : ∀ s, I s → ¬ G s → ∃ t, Leads step guard s t ∧ I t ∧ m t < m s) (hs : I s) :
    ∃ t, Leads step guard s t ∧ I t ∧ G t := by
  induction hn : m s using Nat.strongRecOn generalizing s with
  | _ n ih =>
    by_cases hG : G s
    · exact ⟨s, refl s, hs, hG⟩
    obtain ⟨t, hst, ht, hlt⟩ := hdec s hs hG
    obtain ⟨u, htu, hu, hGu⟩ := ih (m t) (hn ▸ hlt) ht rfl
    exact ⟨u, hst.trans htu, hu, hGu⟩

end Leads

end RenditionPipeline
