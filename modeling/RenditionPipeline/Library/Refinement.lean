import RenditionPipeline.Library.Run

/-!
# Refinement

A system of many parts is often looked at through one of them: what can be seen of
that part is an abstract state, and a step of the system is no move of the part, or a
few. That the system *refines* the part's own automaton
(`RenditionPipeline.Refines`) is proved of one step, and then holds of every run
(`RenditionPipeline.Refines.run`).

Where the moves of the automaton decrease a measure, the part comes to rest: in every
run, however long, it changes at most as often as the measure allows
(`RenditionPipeline.Refines.changes_add_le`).
-/

namespace RenditionPipeline

open Relation

variable {S A T : Type}

/-- **A system refines an automaton** through an abstraction: in the states of an
invariant, which is kept, a step is a path of the automaton. -/
structure Refines (step : S → A → Option S) (guard : S → A → Prop) (inv : S → Prop)
    (abs : S → T) (move : T → T → Prop) : Prop where
  keeps : ∀ s a s', inv s → guard s a → step s a = some s' → inv s'
  path : ∀ s a s', inv s → guard s a → step s a = some s' → ReflTransGen move (abs s) (abs s')

/-- **How often what is seen of a system changes** while some actions are taken. -/
def changes [DecidableEq T] (step : S → A → Option S) (abs : S → T) : S → List A → ℕ
  | _, [] => 0
  | s, a :: as =>
    match step s a with
    | none => 0
    | some s' => (if abs s' = abs s then 0 else 1) + changes step abs s' as

/-- A path that decreases a measure along each of its moves decreases it, unless it goes
nowhere. -/
theorem eq_or_lt_of_path {move : T → T → Prop} {P : T → Prop} {m : T → ℕ}
    (hm : ∀ t t', P t → move t t' → P t' ∧ m t' < m t) {t t' : T} (hP : P t)
    (h : ReflTransGen move t t') : P t' ∧ (t' = t ∨ m t' < m t) := by
  induction h with
  | refl => exact ⟨hP, Or.inl rfl⟩
  | @tail u v _ huv ih =>
    obtain ⟨hPu, hu⟩ := ih
    obtain ⟨hPv, hlt⟩ := hm u v hPu huv
    refine ⟨hPv, Or.inr ?_⟩
    rcases hu with rfl | hu
    · exact hlt
    · exact Nat.lt_trans hlt hu

namespace Refines

variable {step : S → A → Option S} {guard : S → A → Prop} {inv : S → Prop} {abs : S → T}
  {move : T → T → Prop} [∀ s a, Decidable (guard s a)] {s s' : S} {as : List A}

/-- **A run is a path of the automaton.** -/
theorem run (h : Refines step guard inv abs move) (hs : inv s)
    (hrun : guardedRun step guard s as = some s') :
    inv s' ∧ ReflTransGen move (abs s) (abs s') := by
  induction as generalizing s with
  | nil =>
    obtain rfl : s = s' := by simpa [guardedRun] using hrun
    exact ⟨hs, ReflTransGen.refl⟩
  | cons a as ih =>
    obtain ⟨hg, t, ht, hrest⟩ := guardedRun_cons_iff.mp hrun
    obtain ⟨hs', hpath⟩ := ih (h.keeps s a t hs hg ht) hrest
    exact ⟨hs', (h.path s a t hs hg ht).trans hpath⟩

/-- **A part whose moves decrease a measure comes to rest**: in every run it changes at
most as often as the measure decreases. -/
theorem changes_add_le [DecidableEq T] (h : Refines step guard inv abs move) {P : T → Prop}
    {m : T → ℕ} (hm : ∀ t t', P t → move t t' → P t' ∧ m t' < m t) (hs : inv s)
    (hP : P (abs s)) (hrun : guardedRun step guard s as = some s') :
    changes step abs s as + m (abs s') ≤ m (abs s) := by
  induction as generalizing s with
  | nil =>
    obtain rfl : s = s' := by simpa [guardedRun] using hrun
    simp [changes]
  | cons a as ih =>
    obtain ⟨hg, t, ht, hrest⟩ := guardedRun_cons_iff.mp hrun
    obtain ⟨hPt, hchange⟩ := eq_or_lt_of_path hm hP (h.path s a t hs hg ht)
    have hih := ih (h.keeps s a t hs hg ht) hPt hrest
    simp only [changes, ht]
    rcases hchange with he | hlt
    · rw [if_pos he]
      rw [he] at hih
      omega
    · have hone : (if abs t = abs s then 0 else 1) ≤ 1 := by split <;> omega
      omega

end Refines

end RenditionPipeline
