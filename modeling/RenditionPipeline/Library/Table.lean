import Mathlib.Data.List.Lookmap
import Mathlib.Data.List.Nodup
import Mathlib.Data.List.Perm.Basic

/-!
# Keyed tables

A table is a finite list of rows under a primary key, and the key is unique by
construction: `RenditionPipeline.Table` carries the proof, so no later statement
has to assume it. Everything an application does to a row in place goes through
`RenditionPipeline.Table.modify`, everything it creates through
`RenditionPipeline.Table.insert`, and every query through
`RenditionPipeline.Table.select`; the lemmas of this file say how the three read
through one another, so that no proof above has to look at the list of rows.

The last section is the write-back of a *unit of work*: a session loads rows,
changes its copies, and on commit writes only the columns it changed
(`RenditionPipeline.Table.flush`). Between load and commit the table may have
moved on, so the write-back has three arguments – what was loaded, what the
session made of it, and what is committed now. Where nothing has come in between,
a column gives back what the session made of it
(`RenditionPipeline.Table.flushColumn_self`).
-/

namespace RenditionPipeline

/-- A table of rows `V` under the primary key `K`. -/
structure Table (K V : Type) where
  /-- The rows with their keys, in insertion order. -/
  rows : List (K × V)
  /-- The primary key is unique. -/
  nodup_keys : (rows.map Prod.fst).Nodup

namespace Table

variable {K V : Type}

/-- The table without rows. -/
def empty : Table K V := ⟨[], List.nodup_nil⟩

/-- Two tables with the same rows are the same table. -/
@[ext] theorem ext {t t' : Table K V} (h : t.rows = t'.rows) : t = t' := by
  cases t
  cases t'
  cases h
  rfl

variable [DecidableEq K]

/-- The row under a key. -/
def get? (t : Table K V) (k : K) : Option V := t.rows.lookup k

theorem lookup_eq_some_iff {l : List (K × V)} (h : (l.map Prod.fst).Nodup) {k : K} {v : V} :
    l.lookup k = some v ↔ (k, v) ∈ l := by
  induction l with
  | nil => simp
  | cons p l ih =>
    obtain ⟨k', v'⟩ := p
    rw [List.map_cons, List.nodup_cons] at h
    rcases eq_or_ne k k' with rfl | hne
    · have hnot : ∀ w, (k, w) ∉ l := fun w hw => h.1 (List.mem_map.mpr ⟨(k, w), hw, rfl⟩)
      simp [hnot, eq_comm]
    · rw [List.lookup_cons, beq_false_of_ne hne, ih h.2]
      simp [hne]

/-- **A lookup answers with a row, and every row answers its lookup.** -/
theorem get?_eq_some_iff {t : Table K V} {k : K} {v : V} :
    t.get? k = some v ↔ (k, v) ∈ t.rows :=
  lookup_eq_some_iff t.nodup_keys

theorem get?_eq_none_iff {t : Table K V} {k : K} :
    t.get? k = none ↔ ∀ v, (k, v) ∉ t.rows := by
  rw [Option.eq_none_iff_forall_ne_some]
  exact forall_congr' fun v => not_congr get?_eq_some_iff

/-! ### Changing rows in place -/

/-- Apply a function to the row under a key, and leave every other row alone. -/
def modify (t : Table K V) (k : K) (f : V → V) : Table K V where
  rows := t.rows.map fun p => if p.1 = k then (p.1, f p.2) else p
  nodup_keys := by
    have h : (t.rows.map fun p => if p.1 = k then (p.1, f p.2) else p).map Prod.fst
        = t.rows.map Prod.fst := by
      rw [List.map_map]
      refine List.map_congr_left fun p _ => ?_
      by_cases hp : p.1 = k <;> simp [hp]
    rw [h]
    exact t.nodup_keys

theorem mem_rows_modify {t : Table K V} {k : K} {f : V → V} {q : K × V} :
    q ∈ (t.modify k f).rows ↔
      (q ∈ t.rows ∧ q.1 ≠ k) ∨ ∃ v, (k, v) ∈ t.rows ∧ q = (k, f v) := by
  simp only [modify, List.mem_map]
  constructor
  · rintro ⟨p, hp, rfl⟩
    by_cases hk : p.1 = k
    · rw [if_pos hk]
      exact Or.inr ⟨p.2, by rw [← hk]; exact hp, by rw [hk]⟩
    · rw [if_neg hk]
      exact Or.inl ⟨hp, hk⟩
  · rintro (⟨hq, hne⟩ | ⟨v, hv, rfl⟩)
    · exact ⟨q, hq, if_neg hne⟩
    · exact ⟨(k, v), hv, if_pos rfl⟩

/-- **A modification is seen under its key and nowhere else.** -/
theorem get?_modify (t : Table K V) (k : K) (f : V → V) (k' : K) :
    (t.modify k f).get? k' = if k' = k then (t.get? k').map f else t.get? k' := by
  refine Option.ext fun w => ?_
  rw [get?_eq_some_iff, mem_rows_modify]
  by_cases hk : k' = k
  · subst hk
    rw [if_pos rfl]
    simp only [ne_eq, not_true_eq_false, and_false, false_or, Prod.mk.injEq, true_and,
      Option.map_eq_some_iff, get?_eq_some_iff]
    exact exists_congr fun v => and_congr_right fun _ => eq_comm
  · rw [if_neg hk, get?_eq_some_iff]
    simp [hk]

@[simp] theorem get?_modify_self (t : Table K V) (k : K) (f : V → V) :
    (t.modify k f).get? k = (t.get? k).map f := by
  rw [get?_modify, if_pos rfl]

theorem get?_modify_of_ne {k k' : K} (h : k' ≠ k) (t : Table K V) (f : V → V) :
    (t.modify k f).get? k' = t.get? k' := by
  rw [get?_modify, if_neg h]

/-- A modification removes no row. -/
theorem get?_modify_eq_none_iff {t : Table K V} {k k' : K} {f : V → V} :
    (t.modify k f).get? k' = none ↔ t.get? k' = none := by
  rw [get?_modify]
  split
  · exact Option.map_eq_none_iff
  · rfl

/-- Two modifications under one key are one. -/
theorem modify_modify (t : Table K V) (k : K) (f g : V → V) :
    (t.modify k f).modify k g = t.modify k (g ∘ f) := by
  refine Table.ext ?_
  simp only [modify, List.map_map]
  refine List.map_congr_left fun p _ => ?_
  by_cases hp : p.1 = k <;> simp [hp]

/-- Two modifications that agree on the row are one. -/
theorem modify_congr {t : Table K V} {k : K} {f g : V → V}
    (h : ∀ v, t.get? k = some v → f v = g v) : t.modify k f = t.modify k g := by
  refine Table.ext ?_
  simp only [modify]
  refine List.map_congr_left fun p hp => ?_
  by_cases hk : p.1 = k
  · rw [if_pos hk, if_pos hk, h p.2 (get?_eq_some_iff.mpr (by rw [← hk]; exact hp))]
  · rw [if_neg hk, if_neg hk]

/-- A modification that changes nothing leaves the table as it is. -/
theorem modify_eq_self {t : Table K V} {k : K} {f : V → V}
    (h : ∀ v, t.get? k = some v → f v = v) : t.modify k f = t := by
  refine Table.ext ?_
  simp only [modify]
  refine (List.map_congr_left fun p hp => ?_).trans (List.map_id _)
  by_cases hk : p.1 = k
  · rw [if_pos hk, h p.2 (get?_eq_some_iff.mpr (by rw [← hk]; exact hp))]
    rfl
  · rw [if_neg hk]
    rfl

/-! ### Adding rows -/

/-- Add a row under a key that is not in use. -/
def insert (t : Table K V) (k : K) (v : V) (h : t.get? k = none) : Table K V where
  rows := t.rows ++ [(k, v)]
  nodup_keys := by
    rw [List.map_append, List.map_singleton]
    refine List.Nodup.append t.nodup_keys (List.nodup_singleton k) ?_
    intro a ha hak
    obtain rfl : a = k := by simpa using hak
    obtain ⟨p, hp, rfl⟩ := List.mem_map.mp ha
    exact get?_eq_none_iff.mp h p.2 hp

/-- Add a row, refusing a key that is in use: the primary-key constraint. -/
def insert? (t : Table K V) (k : K) (v : V) : Option (Table K V) :=
  if h : t.get? k = none then some (t.insert k v h) else none

theorem get?_insert (t : Table K V) (k : K) (v : V) (h : t.get? k = none) (k' : K) :
    (t.insert k v h).get? k' = if k' = k then some v else t.get? k' := by
  refine Option.ext fun w => ?_
  rw [get?_eq_some_iff]
  simp only [insert, List.mem_append, List.mem_singleton, Prod.mk.injEq]
  rw [← get?_eq_some_iff]
  by_cases hk : k' = k
  · subst hk
    simp [h, eq_comm]
  · simp [hk]

/-- **After an insertion** a row is the new one or an old one. -/
theorem get?_insert_eq_some_iff {t : Table K V} {k k' : K} {v w : V} (h : t.get? k = none) :
    (t.insert k v h).get? k' = some w ↔ (k' = k ∧ w = v) ∨ t.get? k' = some w := by
  rw [get?_insert]
  by_cases hk : k' = k
  · simp [hk, h, eq_comm]
  · simp [hk]

@[simp] theorem get?_insert_self (t : Table K V) (k : K) (v : V) (h : t.get? k = none) :
    (t.insert k v h).get? k = some v :=
  (get?_insert_eq_some_iff h).mpr (Or.inl ⟨rfl, rfl⟩)

/-- A row that is there stays. -/
theorem get?_insert_of_some {t : Table K V} {k k' : K} {w : V} (hw : t.get? k' = some w) (v : V)
    (h : t.get? k = none) : (t.insert k v h).get? k' = some w :=
  (get?_insert_eq_some_iff h).mpr (Or.inr hw)

theorem insert?_eq_some_iff {t t' : Table K V} {k : K} {v : V} :
    t.insert? k v = some t' ↔ ∃ h : t.get? k = none, t' = t.insert k v h := by
  unfold insert?
  by_cases h : t.get? k = none
  · rw [dif_pos h]
    simp [h, eq_comm]
  · rw [dif_neg h]
    simp [h]

/-- Put a row under a key, in place of the one that is there. -/
def put (t : Table K V) (k : K) (v : V) : Table K V :=
  if h : t.get? k = none then t.insert k v h else t.modify k fun _ => v

/-- **A row that is put is seen under its key and nowhere else.** -/
theorem get?_put (t : Table K V) (k : K) (v : V) (k' : K) :
    (t.put k v).get? k' = if k' = k then some v else t.get? k' := by
  rw [put]
  by_cases h : t.get? k = none
  · rw [dif_pos h, get?_insert]
  · rw [dif_neg h, get?_modify]
    obtain ⟨w, hw⟩ := Option.ne_none_iff_exists'.mp h
    by_cases hk : k' = k
    · rw [if_pos hk, if_pos hk, hk, hw, Option.map_some]
    · rw [if_neg hk, if_neg hk]

/-! ### Queries -/

/-- The rows that satisfy a condition, in table order. -/
def select (t : Table K V) (p : K → V → Bool) : List (K × V) :=
  t.rows.filter fun q => p q.1 q.2

theorem mem_select {t : Table K V} {p : K → V → Bool} {k : K} {v : V} :
    (k, v) ∈ t.select p ↔ t.get? k = some v ∧ p k v = true := by
  rw [select, List.mem_filter, get?_eq_some_iff]

omit [DecidableEq K] in
theorem nodup_keys_select (t : Table K V) (p : K → V → Bool) :
    ((t.select p).map Prod.fst).Nodup :=
  List.Nodup.sublist (List.Sublist.map _ List.filter_sublist) t.nodup_keys

/-- **A query loses a row**: what it returns was returned before, and a row that was is not
returned any more. -/
theorem length_select_lt {t t' : Table K V} {p q : K → V → Bool}
    (hsub : ∀ k v', t'.get? k = some v' → q k v' = true → ∃ v, t.get? k = some v ∧ p k v = true)
    {k : K} {v : V} (hk : t.get? k = some v) (hp : p k v = true)
    (hout : ∀ v', t'.get? k = some v' → q k v' = false) :
    (t'.select q).length < (t.select p).length := by
  have hmem : k ∈ (t.select p).map Prod.fst :=
    List.mem_map.mpr ⟨(k, v), mem_select.mpr ⟨hk, hp⟩, rfl⟩
  have hsubset : (t'.select q).map Prod.fst ⊆ ((t.select p).map Prod.fst).erase k := by
    intro k' hk'
    obtain ⟨⟨k', v'⟩, hrow, rfl⟩ := List.mem_map.mp hk'
    obtain ⟨hget, hq⟩ := mem_select.mp hrow
    have hne : k' ≠ k := by
      rintro rfl
      rw [hout v' hget] at hq
      cases hq
    obtain ⟨v₀, hv₀, hp₀⟩ := hsub k' v' hget hq
    exact (List.mem_erase_of_ne hne).mpr
      (List.mem_map.mpr ⟨(k', v₀), mem_select.mpr ⟨hv₀, hp₀⟩, rfl⟩)
  have hle := (List.subperm_of_subset (nodup_keys_select t' q) hsubset).length_le
  have hpos := List.length_pos_of_mem hmem
  rw [List.length_erase_of_mem hmem, List.length_map, List.length_map] at hle
  rw [List.length_map] at hpos
  omega

/-- **A query that does not look at what a modification changes** returns the
same rows in the same order, the modified one in its new form. -/
theorem select_modify {t : Table K V} {k : K} {f : V → V} {p : K → V → Bool}
    (h : ∀ v, t.get? k = some v → p k (f v) = p k v) :
    (t.modify k f).select p =
      (t.select p).map fun q => if q.1 = k then (q.1, f q.2) else q := by
  simp only [select, modify, List.filter_map]
  congr 1
  refine List.filter_congr fun q hq => ?_
  by_cases hk : q.1 = k
  · simp only [Function.comp_apply, if_pos hk]
    rw [hk, h q.2 (get?_eq_some_iff.mpr (by rw [← hk]; exact hq))]
  · simp only [Function.comp_apply, if_neg hk]

theorem select_insert {t : Table K V} {k : K} {v : V} {h : t.get? k = none}
    {p : K → V → Bool} :
    (t.insert k v h).select p = t.select p ++ if p k v then [(k, v)] else [] := by
  simp only [select, insert, List.filter_append]
  by_cases hp : p k v <;> simp [hp]

/-! ### Adding several rows -/

section Append

variable {t t' : Table K V} {l : List (K × V)}

theorem rows_insert?_eq_some {k : K} {v : V} (h : t.insert? k v = some t') :
    t'.rows = t.rows ++ [(k, v)] := by
  obtain ⟨_, rfl⟩ := insert?_eq_some_iff.mp h
  rfl

theorem get?_append_iff (h : t'.rows = t.rows ++ l) {k : K} {v : V} :
    t'.get? k = some v ↔ t.get? k = some v ∨ (k, v) ∈ l := by
  rw [get?_eq_some_iff, get?_eq_some_iff, h, List.mem_append]

theorem get?_append_of_some (h : t'.rows = t.rows ++ l) {k : K} {v : V}
    (hv : t.get? k = some v) : t'.get? k = some v :=
  (get?_append_iff h).mpr (Or.inl hv)

/-- An added row was not there before. -/
theorem get?_eq_none_of_mem_append (h : t'.rows = t.rows ++ l) {k : K} {v : V}
    (hv : (k, v) ∈ l) : t.get? k = none := by
  have hn := t'.nodup_keys
  rw [h, List.map_append, List.nodup_append] at hn
  rw [get?_eq_none_iff]
  intro w hw
  exact hn.2.2 k (List.mem_map_of_mem hw) k (List.mem_map_of_mem hv) rfl

omit [DecidableEq K] in
theorem nodup_keys_append (h : t'.rows = t.rows ++ l) : (l.map Prod.fst).Nodup := by
  have hn := t'.nodup_keys
  rw [h, List.map_append, List.nodup_append] at hn
  exact hn.2.1

omit [DecidableEq K] in
theorem select_append (h : t'.rows = t.rows ++ l) (p : K → V → Bool) :
    t'.select p = t.select p ++ l.filter fun q => p q.1 q.2 := by
  rw [select, select, h, List.filter_append]

end Append

/-! ### What a change leaves alone -/

/-- A view of the rows: what a function reads off the row under each key. -/
def view {W : Type} (t : Table K V) (f : V → W) (k : K) : Option W := (t.get? k).map f

theorem view_eq_some_iff {W : Type} {t : Table K V} {f : V → W} {k : K} {w : W} :
    t.view f k = some w ↔ ∃ v, t.get? k = some v ∧ f v = w := Option.map_eq_some_iff

theorem view_eq_none_iff {W : Type} {t : Table K V} {f : V → W} {k : K} :
    t.view f k = none ↔ t.get? k = none := Option.map_eq_none_iff

theorem view_of_get? {W : Type} {t : Table K V} {f : V → W} {k : K} {v : V}
    (h : t.get? k = some v) : t.view f k = some (f v) := by rw [view, h, Option.map_some]

/-- **A modification is invisible in a view of what it keeps.** -/
theorem view_modify {W : Type} {t : Table K V} {f : V → W} {k : K} {g : V → V}
    (h : ∀ v, t.get? k = some v → f (g v) = f v) : (t.modify k g).view f = t.view f := by
  funext k'
  rw [view, view, get?_modify]
  by_cases hk : k' = k
  · subst hk
    rw [if_pos rfl]
    cases hv : t.get? k' with
    | none => rfl
    | some v => simp [h v hv]
  · rw [if_neg hk]

/-- A row that a view has seen is there after every change the view does not see. -/
theorem get?_of_view_eq {W : Type} {t t' : Table K V} {f : V → W} (h : t'.view f = t.view f)
    {k : K} {v : V} (hv : t.get? k = some v) : ∃ v', t'.get? k = some v' ∧ f v' = f v := by
  have hk := congrFun h k
  rw [view_of_get? hv, view_eq_some_iff] at hk
  exact hk

/-! ### The write-back of a unit of work -/

/-- The write-back of one column: a session writes the column only where its
value differs from the one it loaded. -/
def flushColumn {α : Type} [DecidableEq α] (loaded new committed : α) : α :=
  if new = loaded then committed else new

@[simp] theorem flushColumn_same {α : Type} [DecidableEq α] (a c : α) :
    flushColumn a a c = c := if_pos rfl

/-- With nothing committed in between, the column ends as the session left it. -/
@[simp] theorem flushColumn_self {α : Type} [DecidableEq α] (a b : α) :
    flushColumn a b a = b := by
  rw [flushColumn]
  by_cases h : b = a
  · rw [if_pos h, h]
  · rw [if_neg h]

/-- **The write-back of a session**: each committed row the session has loaded is
written column by column, and the rows the session has added are appended. -/
def flush (col : V → V → V → V) (loaded new committed : Table K V) : Table K V where
  rows :=
    (committed.rows.map fun p =>
      match loaded.get? p.1, new.get? p.1 with
      | some a, some b => (p.1, col a b p.2)
      | _, _ => p) ++
    new.rows.filter fun p => (loaded.get? p.1).isNone && (committed.get? p.1).isNone
  nodup_keys := by
    rw [List.map_append]
    have hkeys : (committed.rows.map fun p =>
        match loaded.get? p.1, new.get? p.1 with
        | some a, some b => (p.1, col a b p.2)
        | _, _ => p).map Prod.fst = committed.rows.map Prod.fst := by
      rw [List.map_map]
      refine List.map_congr_left fun p _ => ?_
      simp only [Function.comp_apply]
      split <;> rfl
    rw [hkeys]
    refine List.Nodup.append committed.nodup_keys
      (List.Nodup.sublist (List.Sublist.map _ List.filter_sublist) new.nodup_keys) ?_
    intro a ha ha'
    obtain ⟨p, hp, rfl⟩ := List.mem_map.mp ha
    obtain ⟨q, hq, hqp⟩ := List.mem_map.mp ha'
    have hnone := (List.mem_filter.mp hq).2
    simp only [Bool.and_eq_true, Option.isNone_iff_eq_none] at hnone
    exact get?_eq_none_iff.mp hnone.2 p.2 (by rw [hqp]; exact hp)

/-- **What a committed row is after a write-back.** -/
theorem get?_flush_of_some {col : V → V → V → V} {loaded new committed : Table K V}
    {k : K} {a b c : V} (hl : loaded.get? k = some a) (hn : new.get? k = some b)
    (hc : committed.get? k = some c) :
    (flush col loaded new committed).get? k = some (col a b c) := by
  rw [get?_eq_some_iff]
  refine List.mem_append_left _ (List.mem_map.mpr ⟨(k, c), get?_eq_some_iff.mp hc, ?_⟩)
  simp [hl, hn]

/-- A row the session has not loaded is left as it is committed. -/
theorem get?_flush_of_not_loaded {col : V → V → V → V} {loaded new committed : Table K V}
    {k : K} {c : V} (hl : loaded.get? k = none) (hc : committed.get? k = some c) :
    (flush col loaded new committed).get? k = some c := by
  rw [get?_eq_some_iff]
  refine List.mem_append_left _ (List.mem_map.mpr ⟨(k, c), get?_eq_some_iff.mp hc, ?_⟩)
  simp [hl]

theorem get?_flush_of_none {col : V → V → V → V} {loaded new committed : Table K V}
    {k : K} (hc : committed.get? k = none) :
    (flush col loaded new committed).get? k =
      if (loaded.get? k).isNone then new.get? k else none := by
  refine Option.ext fun w => ?_
  rw [get?_eq_some_iff]
  simp only [flush, List.mem_append, List.mem_map, List.mem_filter, Bool.and_eq_true]
  constructor
  · rintro (⟨p, hp, hpe⟩ | ⟨hk, hl, -⟩)
    · have hkey : p.1 = k := by
        revert hpe
        split <;> intro hpe <;> simp [Prod.ext_iff] at hpe <;> exact hpe.1
      exact absurd (by rw [← hkey]; exact hp) (get?_eq_none_iff.mp hc p.2)
    · rw [if_pos hl]
      exact get?_eq_some_iff.mpr hk
  · intro h
    by_cases hl : (loaded.get? k).isNone
    · rw [if_pos hl] at h
      exact Or.inr ⟨get?_eq_some_iff.mp h, hl, by simp [hc]⟩
    · rw [if_neg hl] at h
      cases h

/-- **A write-back that adds no rows** writes the committed ones in place. -/
theorem flush_rows {col : V → V → V → V} {loaded new committed : Table K V}
    (hkeys : ∀ k, loaded.get? k = none → new.get? k = none) :
    (flush col loaded new committed).rows = committed.rows.map fun p =>
      match loaded.get? p.1, new.get? p.1 with
      | some a, some b => (p.1, col a b p.2)
      | _, _ => p := by
  have hnone : (new.rows.filter fun p =>
      (loaded.get? p.1).isNone && (committed.get? p.1).isNone) = [] := by
    refine List.filter_eq_nil_iff.mpr fun p hp hboth => ?_
    simp only [Bool.and_eq_true, Option.isNone_iff_eq_none] at hboth
    exact get?_eq_none_iff.mp (hkeys p.1 hboth.1) p.2 hp
  simp only [flush, hnone, List.append_nil]

/-- **A session that has changed nothing writes nothing.** -/
theorem flush_unchanged {col : V → V → V → V} (hcol : ∀ a c, col a a c = c)
    (loaded committed : Table K V) : flush col loaded loaded committed = committed := by
  refine Table.ext ?_
  rw [flush_rows fun _ h => h]
  refine (List.map_congr_left fun p _ => ?_).trans (List.map_id _)
  cases hl : loaded.get? p.1 with
  | none => rfl
  | some a => simp [hcol]

/-- **A session that has changed one row in place** writes that row alone. -/
theorem flush_modify {col : V → V → V → V} (hcol : ∀ a c, col a a c = c)
    {loaded : Table K V} {k : K} {a : V} (hl : loaded.get? k = some a) (f : V → V)
    (committed : Table K V) :
    flush col loaded (loaded.modify k f) committed = committed.modify k fun c => col a (f a) c := by
  refine Table.ext ?_
  rw [flush_rows fun _ h => get?_modify_eq_none_iff.mpr h]
  refine List.map_congr_left fun p _ => ?_
  by_cases hk : p.1 = k
  · have hn : (loaded.modify k f).get? p.1 = some (f a) := by
      rw [hk, get?_modify_self, hl, Option.map_some]
    rw [if_pos hk, hn, hk, hl]
  · have hn : (loaded.modify k f).get? p.1 = loaded.get? p.1 := get?_modify_of_ne hk _ _
    rw [if_neg hk, hn]
    cases hv : loaded.get? p.1 with
    | none => rfl
    | some v => simp [hcol]

/-- Changing one row in place with nothing committed in between. -/
theorem flush_modify_self {col : V → V → V → V} (hcol : ∀ a c, col a a c = c)
    {t : Table K V} {k : K} {a : V} {f : V → V} (ha : t.get? k = some a)
    (hf : col a (f a) a = f a) : flush col t (t.modify k f) t = t.modify k f := by
  rw [flush_modify hcol ha]
  refine modify_congr fun v hv => ?_
  obtain rfl := Option.some.inj (ha.symm.trans hv)
  exact hf

/-- **A session that has only added rows**, with nothing committed in between. -/
theorem flush_append_self {col : V → V → V → V} (hcol : ∀ a c, col a a c = c)
    {t t' : Table K V} {l : List (K × V)} (h : t'.rows = t.rows ++ l) : flush col t t' t = t' := by
  refine Table.ext ?_
  have hnew : t'.rows.filter (fun p => (t.get? p.1).isNone && (t.get? p.1).isNone) = l := by
    have hold : t.rows.filter (fun p => (t.get? p.1).isNone && (t.get? p.1).isNone) = [] := by
      rw [List.filter_eq_nil_iff]
      rintro ⟨k, v⟩ hp
      simp [get?_eq_some_iff.mpr hp]
    rw [h, List.filter_append, hold, List.nil_append, List.filter_eq_self]
    rintro ⟨k, v⟩ hp
    simp [get?_eq_none_of_mem_append h hp]
  simp only [flush, hnew]
  rw [h]
  congr 1
  refine (List.map_congr_left fun p hp => ?_).trans (List.map_id _)
  have hp' : t.get? p.1 = some p.2 := get?_eq_some_iff.mpr hp
  rw [hp', get?_append_of_some h hp']
  simp [hcol]

/-- A row that the session has left as it was stays as it is committed. -/
theorem get?_flush_of_eq {col : V → V → V → V} (hcol : ∀ a c, col a a c = c)
    {loaded new committed : Table K V} {k : K} (h : new.get? k = loaded.get? k) :
    (flush col loaded new committed).get? k = committed.get? k := by
  cases hc : committed.get? k with
  | none =>
    rw [get?_flush_of_none hc, h]
    cases loaded.get? k <;> rfl
  | some c =>
    cases hl : loaded.get? k with
    | none => exact get?_flush_of_not_loaded hl hc
    | some a =>
      rw [hl] at h
      rw [get?_flush_of_some hl h hc, hcol]

/-- **A write-back is invisible in a view that it leaves alone**, where the session has
added no rows. -/
theorem view_flush {W : Type} {f : V → W} {col : V → V → V → V} {loaded new committed : Table K V}
    (hcol : ∀ k a b c, loaded.get? k = some a → new.get? k = some b →
      committed.get? k = some c → f (col a b c) = f c)
    (hkeys : ∀ k, loaded.get? k = none ↔ new.get? k = none) :
    (flush col loaded new committed).view f = committed.view f := by
  funext k
  cases hc : committed.get? k with
  | none =>
    rw [view, view, get?_flush_of_none hc, hc]
    cases hl : loaded.get? k with
    | none =>
      rw [(hkeys k).mp hl]
      rfl
    | some a => rfl
  | some c =>
    rw [view_of_get? hc]
    cases hl : loaded.get? k with
    | none => rw [view_of_get? (get?_flush_of_not_loaded hl hc)]
    | some a =>
      have hn : new.get? k ≠ none := fun hn => by
        rw [(hkeys k).mpr hn] at hl
        cases hl
      obtain ⟨b, hb⟩ := Option.ne_none_iff_exists'.mp hn
      rw [view_of_get? (get?_flush_of_some hl hb hc), hcol k a b c hl hb hc]

end Table

end RenditionPipeline
