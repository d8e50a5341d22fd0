import Mathlib.Data.List.Perm.Basic
import Mathlib.Logic.Relation

/-!
# Runs of a system

A system is a partial step function on states: an action either cannot be taken
in a state, or leads to one next state, so that a run is a list of actions and
can be executed. Everything that is free in the system – which party moves, what
a call returns, what a clock reads – is part of the action.

Reachability is relative to a *guard* on the steps
(`RenditionPipeline.Reaches`): the guard that is always true gives the states of
every run, and a proper one gives the states of the runs all of whose steps meet
a condition. An invariant is proved once, by
`RenditionPipeline.Reaches.invariant`, and a run written out as a list of actions
is turned into reachability by `RenditionPipeline.Reaches.of_guardedRun`.
-/

namespace RenditionPipeline

variable {S A : Type}

/-- **The states reached** from a start state by steps that meet the guard. -/
inductive Reaches (step : S → A → Option S) (guard : S → A → Prop) (start : S → Prop) :
    S → Prop
  /-- A start state is reached. -/
  | start {s : S} : start s → Reaches step guard start s
  /-- A guarded step from a reached state reaches the next one. -/
  | step {s s' : S} {a : A} : Reaches step guard start s → guard s a → step s a = some s' →
      Reaches step guard start s'

/-- The guard every step meets. -/
def Unguarded : S → A → Prop := fun _ _ => True

instance (s : S) (a : A) : Decidable (Unguarded s a) := isTrue trivial

namespace Reaches

variable {step : S → A → Option S} {guard : S → A → Prop} {start : S → Prop}

/-- **The invariant rule**: what holds at the start and is kept by every guarded
step holds of every state reached. -/
theorem invariant {I : S → Prop} (hstart : ∀ s, start s → I s)
    (hstep : ∀ s a s', I s → guard s a → step s a = some s' → I s') {s : S}
    (h : Reaches step guard start s) : I s := by
  induction h with
  | start hs => exact hstart _ hs
  | step _ hg he ih => exact hstep _ _ _ ih hg he

/-- The invariant rule on top of a fact already known of every state reached. -/
theorem invariant_of {I J : S → Prop} (hJ : ∀ s, Reaches step guard start s → J s)
    (hstart : ∀ s, start s → I s)
    (hstep : ∀ s a s', J s → I s → guard s a → step s a = some s' → I s') {s : S}
    (h : Reaches step guard start s) : I s := by
  induction h with
  | start hs => exact hstart _ hs
  | step hr hg he ih => exact hstep _ _ _ (hJ _ hr) ih hg he

/-- A weaker guard and more start states reach more. -/
theorem mono {guard' : S → A → Prop} {start' : S → Prop} (hg : ∀ s a, guard s a → guard' s a)
    (hs : ∀ s, start s → start' s) {s : S} (h : Reaches step guard start s) :
    Reaches step guard' start' s := by
  induction h with
  | start h0 => exact Reaches.start (hs _ h0)
  | step _ h1 he ih => exact Reaches.step ih (hg _ _ h1) he

end Reaches

/-- **Executing a list of actions**, where each must be possible and meet the
guard. -/
def guardedRun (step : S → A → Option S) (guard : S → A → Prop)
    [∀ s a, Decidable (guard s a)] : S → List A → Option S
  | s, [] => some s
  | s, a :: as =>
    if guard s a then
      match step s a with
      | some s' => guardedRun step guard s' as
      | none => none
    else none

section Executing

variable {step : S → A → Option S} {guard : S → A → Prop} [∀ s a, Decidable (guard s a)]
  {s s' : S} {a : A} {as bs : List A}

/-- An execution is a guarded step and an execution. -/
theorem guardedRun_cons_iff : guardedRun step guard s (a :: as) = some s' ↔
    guard s a ∧ ∃ t, step s a = some t ∧ guardedRun step guard t as = some s' := by
  rw [guardedRun]
  by_cases hg : guard s a
  · rw [if_pos hg]
    cases step s a <;> simp [hg]
  · simp [hg]

/-- An execution goes through the state after its first part. -/
theorem guardedRun_append_iff : guardedRun step guard s (as ++ bs) = some s' ↔
    ∃ t, guardedRun step guard s as = some t ∧ guardedRun step guard t bs = some s' := by
  induction as generalizing s with
  | nil => simp [guardedRun]
  | cons a as ih =>
    simp only [List.cons_append, guardedRun_cons_iff, ih]
    constructor
    · rintro ⟨hg, t, ht, u, hu, hrest⟩
      exact ⟨u, ⟨hg, t, ht, hu⟩, hrest⟩
    · rintro ⟨u, ⟨hg, t, ht, hu⟩, hrest⟩
      exact ⟨hg, t, ht, u, hu, hrest⟩

/-- A run that can be executed reaches its last state. -/
theorem Reaches.of_guardedRun {start : S → Prop} (hs : Reaches step guard start s)
    (h : guardedRun step guard s as = some s') : Reaches step guard start s' := by
  induction as generalizing s with
  | nil =>
    obtain rfl : s = s' := by simpa [guardedRun] using h
    exact hs
  | cons a as ih =>
    obtain ⟨hg, t, ht, hrest⟩ := guardedRun_cons_iff.mp h
    exact ih (Reaches.step hs hg ht) hrest

end Executing

/-! ### Parties under way -/

/-- **One of the parties under way is taken off the list**: what holds between any
two of them holds between it and each of the others. -/
theorem rel_of_mem_eraseIdx {P : Type} {R : P → P → Prop} (hsymm : ∀ {a b}, R a b → R b a)
    {l : List P} (h : l.Pairwise R) {i : ℕ} {a b : P} (ha : l[i]? = some a)
    (hb : b ∈ l.eraseIdx i) : R a b := by
  obtain ⟨hlt, rfl⟩ := List.getElem?_eq_some_iff.mp ha
  have hperm := h.perm (List.getElem_cons_eraseIdx_perm hlt).symm hsymm
  exact List.rel_of_pairwise_cons hperm hb

/-- **One of the parties under way moves on**: what holds between any two of them by
what does not change of it still holds. -/
theorem pairwise_set {P K : Type} {f : P → K} {R : K → K → Prop} {l : List P}
    (h : l.Pairwise fun a b => R (f a) (f b)) {i : ℕ} {a a' : P} (ha : l[i]? = some a)
    (hf : f a' = f a) : (l.set i a').Pairwise fun a b => R (f a) (f b) := by
  have hkeys : (l.set i a').map f = l.map f := by
    refine List.ext_getElem? fun j => ?_
    rw [List.map_set, hf, List.getElem?_set]
    split
    · rename_i hj
      subst hj
      rw [List.length_map, List.getElem?_map, ha, Option.map_some]
      exact if_pos (List.getElem?_eq_some_iff.mp ha).1
    · rfl
  rw [← List.pairwise_map, hkeys]
  exact List.pairwise_map.mpr h

/-! ### Chains of labelled moves -/

section Chain

variable {E : Type} {move move' : S → List E → S → Prop}

/-- **A chain of moves**, where each move tells some events and the chain tells
them all, in order. -/
inductive Chain (move : S → List E → S → Prop) : S → List E → S → Prop
  | nil (s : S) : Chain move s [] s
  | cons {s s' s'' : S} {e es : List E} : move s e s' → Chain move s' es s'' →
      Chain move s (e ++ es) s''

namespace Chain

theorem single {s s' : S} {e : List E} (h : move s e s') : Chain move s e s' := by
  simpa using Chain.cons h (Chain.nil s')

/-- What every move keeps, a chain keeps. -/
theorem keep {I : S → Prop} (hmove : ∀ s e s', I s → move s e s' → I s') {s s' : S}
    {es : List E} (h : Chain move s es s') (hs : I s) : I s' := by
  induction h with
  | nil => exact hs
  | cons hm _ ih => exact ih (hmove _ _ _ hs hm)

/-- **The invariant rule with a log**: what every move keeps, with its events
appended to the log, a chain keeps. -/
theorem keep_log {I : S → List E → Prop}
    (hmove : ∀ s e s' l, I s l → move s e s' → I s' (l ++ e)) {s s' : S} {es l : List E}
    (h : Chain move s es s') (hs : I s l) : I s' (l ++ es) := by
  induction h generalizing l with
  | nil => simpa using hs
  | cons hm _ ih => simpa using ih (hmove _ _ _ _ hs hm)

theorem mono (hmove : ∀ s e s', move s e s' → move' s e s') {s s' : S} {es : List E}
    (h : Chain move s es s') : Chain move' s es s' := by
  induction h with
  | nil => exact Chain.nil _
  | cons hm _ ih => exact Chain.cons (hmove _ _ _ hm) ih

end Chain

end Chain

end RenditionPipeline
