import Mathlib.Data.List.Sort
import RenditionPipeline.Library.Blocks

/-!
# Reading a query page by page

A query asks for its rows by a key, the greatest first, and of rows with the same key it
says nothing, so that the database may answer the same query in different orders
(`RenditionPipeline.Paging.Ordered`). Read page by page, with a query for each page, the
keys come out in order whatever orders are taken
(`RenditionPipeline.Paging.map_key_concat`); but every row comes out once just when no
two rows with the same key are on different sides of the boundary of two pages
(`RenditionPipeline.Paging.perm_concat_iff`).
-/

namespace RenditionPipeline

namespace Paging

variable {α κ : Type} [LinearOrder κ]

/-- **An order of some rows by a key**, the greatest first. -/
structure Ordered (key : α → κ) (rows order : List α) : Prop where
  perm : order.Perm rows
  sorted : order.Pairwise fun a b => key b ≤ key a

/-- The keys of some rows in order. -/
def keys (key : α → κ) (rows : List α) : List κ := (rows.map key).insertionSort (· ≥ ·)

/-- The boundary after `m` rows has the same key on both sides. -/
def TieAt (key : α → κ) (rows : List α) (m : ℕ) : Prop :=
  0 < m ∧ m < rows.length ∧ (keys key rows)[m - 1]? = (keys key rows)[m]?

instance (key : α → κ) (rows : List α) (m : ℕ) : Decidable (TieAt key rows m) :=
  inferInstanceAs (Decidable (_ ∧ _ ∧ _))

/-- The first `n` pages of length `p`, one after another, where the query for the page
number `k` is answered in the order `pages k`. -/
def concat (p : ℕ) (pages : ℕ → List α) (n : ℕ) : List α :=
  (List.range n).flatMap fun k => Blocks.block p (pages k) k

variable {key : α → κ} {rows o o' : List α} {pages : ℕ → List α} {p m n k : ℕ}

theorem ordered_insertionSort (key : α → κ) (rows : List α) :
    Ordered key rows (rows.insertionSort fun a b => key b ≤ key a) :=
  ⟨List.perm_insertionSort _ _, by
    have : Std.Total fun a b : α => key b ≤ key a := ⟨fun a b => le_total (key b) (key a)⟩
    have : IsTrans α fun a b => key b ≤ key a := ⟨fun a b c hab hbc => hbc.trans hab⟩
    exact List.pairwise_insertionSort _ _⟩

/-- Whatever the order, the keys are in the same places. -/
theorem Ordered.map_key (h : Ordered key rows o) : o.map key = keys key rows := by
  have hperm : (o.map key).Perm (keys key rows) :=
    (h.perm.map key).trans (List.perm_insertionSort _ _).symm
  exact hperm.eq_of_pairwise' (List.pairwise_map.mpr h.sorted) (List.pairwise_insertionSort _ _)

/-- Rows with the keys in the same places are in order as well. -/
theorem Ordered.of_map_key (h : Ordered key rows o) (hperm : o'.Perm o)
    (hkeys : o'.map key = o.map key) : Ordered key rows o' := by
  refine ⟨hperm.trans h.perm, ?_⟩
  have hsorted : (o.map key).Pairwise fun a b => b ≤ a := List.pairwise_map.mpr h.sorted
  rw [← hkeys] at hsorted
  exact List.pairwise_map.mp hsorted

/-! ### The rows before a boundary -/

/-- Where the key falls, the rows before are those with greater keys. -/
theorem filter_eq_take {a b : List α} {x y : α}
    (h : (a ++ x :: y :: b).Pairwise fun a b => key b ≤ key a) (hne : key x ≠ key y) :
    (a ++ x :: y :: b).filter (fun z => key x ≤ key z) = a ++ [x] := by
  rw [List.pairwise_append] at h
  obtain ⟨-, hxyb, ha⟩ := h
  rw [List.pairwise_cons] at hxyb
  obtain ⟨hx, hyb⟩ := hxyb
  rw [List.pairwise_cons] at hyb
  have hyx : key y < key x := lt_of_le_of_ne (hx y List.mem_cons_self) hne.symm
  have hbefore : a.filter (fun z => key x ≤ key z) = a :=
    List.filter_eq_self.mpr fun z hz => by simpa using ha z hz x List.mem_cons_self
  have hafter : (y :: b).filter (fun z => key x ≤ key z) = [] := by
    refine List.filter_eq_nil_iff.mpr fun z hz => ?_
    have hzx : key z < key x := by
      rcases List.mem_cons.mp hz with rfl | hz
      · exact hyx
      · exact (hyb.1 z hz).trans_lt hyx
    simpa using hzx
  rw [List.filter_append, hbefore, List.filter_cons_of_pos (by simp), hafter]

/-- A list around a boundary. -/
theorem exists_around (hpos : 0 < m) (hlt : m < o.length) :
    ∃ a x y b, o = a ++ x :: y :: b ∧ a.length + 1 = m := by
  refine ⟨o.take (m - 1), o[m - 1], o[m], o.drop (m + 1), ?_, ?_⟩
  · have hnext : m - 1 + 1 = m := by omega
    calc o = o.take (m - 1) ++ o.drop (m - 1) := (List.take_append_drop _ _).symm
      _ = o.take (m - 1) ++ o[m - 1] :: o.drop (m - 1 + 1) := by
        rw [List.drop_eq_getElem_cons (by omega)]
      _ = _ := by rw [hnext, List.drop_eq_getElem_cons hlt]
  · rw [List.length_take]
    omega

theorem take_around {a b : List α} {x y : α} (ha : a.length + 1 = m) :
    (a ++ x :: y :: b).take m = a ++ [x] := by
  have hlength : m = (a ++ [x]).length := by rw [List.length_append, List.length_singleton, ha]
  rw [List.append_cons, hlength, List.take_left]

/-- The keys on the two sides of a boundary. -/
theorem keys_around {a b : List α} {x y : α} (h : Ordered key rows (a ++ x :: y :: b))
    (ha : a.length + 1 = m) :
    (keys key rows)[m - 1]? = some (key x) ∧ (keys key rows)[m]? = some (key y) := by
  subst ha
  rw [← h.map_key, List.getElem?_map, List.getElem?_map, Nat.add_sub_cancel]
  constructor <;> simp

/-- **Before a boundary without a tie every order has the same rows.** -/
theorem Ordered.take_perm (h : Ordered key rows o) (h' : Ordered key rows o')
    (hm : ¬ TieAt key rows m) : (o.take m).Perm (o'.take m) := by
  have hperm : o.Perm o' := h.perm.trans h'.perm.symm
  rcases Nat.eq_zero_or_pos m with rfl | hpos
  · simp
  rcases Nat.lt_or_ge m rows.length with hlt | hge
  · obtain ⟨a, x, y, b, rfl, ha⟩ := exists_around hpos (by rw [h.perm.length_eq]; exact hlt)
    obtain ⟨a', x', y', b', rfl, ha'⟩ := exists_around hpos (by rw [h'.perm.length_eq]; exact hlt)
    obtain ⟨hx, hy⟩ := keys_around h ha
    obtain ⟨hx', hy'⟩ := keys_around h' ha'
    have hxx : key x = key x' := Option.some.inj (hx.symm.trans hx')
    have hyy : key y = key y' := Option.some.inj (hy.symm.trans hy')
    have hne : key x ≠ key y := fun he => hm ⟨hpos, hlt, by rw [hx, hy, he]⟩
    have hne' : key x' ≠ key y' := by rwa [← hxx, ← hyy]
    rw [take_around ha, take_around ha', ← filter_eq_take h.sorted hne,
      ← filter_eq_take h'.sorted hne', hxx]
    exact hperm.filter _
  · rw [List.take_of_length_le (by rw [h.perm.length_eq]; exact hge),
      List.take_of_length_le (by rw [h'.perm.length_eq]; exact hge)]
    exact hperm

/-- **At a tie the two rows may come the other way round.** -/
theorem Ordered.exists_swapped (h : Ordered key rows o) (hm : TieAt key rows m) :
    ∃ o', Ordered key rows o' ∧ o'[m]? = o[m - 1]? ∧ m ≤ o.length := by
  obtain ⟨hpos, hlt, htie⟩ := hm
  obtain ⟨a, x, y, b, rfl, ha⟩ := exists_around hpos (by rw [h.perm.length_eq]; exact hlt)
  obtain ⟨hx, hy⟩ := keys_around h ha
  rw [hx, hy, Option.some.injEq] at htie
  refine ⟨a ++ y :: x :: b, h.of_map_key ?_ ?_, ?_, by rw [h.perm.length_eq]; exact hlt.le⟩
  · exact (List.Perm.swap x y b).append_left a
  · simp [htie]
  · subst ha
    simp

/-! ### The pages of a query -/

theorem concat_succ (p : ℕ) (pages : ℕ → List α) (n : ℕ) :
    concat p pages (n + 1) = concat p pages n ++ Blocks.block p (pages n) n := by
  rw [concat, List.range_succ, List.flatMap_append, List.flatMap_singleton]
  rfl

/-- **The keys come out in order**, whatever orders are taken. -/
theorem map_key_concat (h : ∀ k, Ordered key rows (pages k)) (p n : ℕ) :
    (concat p pages n).map key = (keys key rows).take (n * p) := by
  induction n with
  | zero => simp [concat]
  | succ n ih =>
    rw [concat_succ, List.map_append, ih, Blocks.map_block, (h n).map_key, Blocks.take_succ_mul]

/-- **Every row comes out once** if no boundary has a tie. -/
theorem perm_concat (h : ∀ k, Ordered key rows (pages k)) (ho : Ordered key rows o)
    (hties : ∀ k, ¬ TieAt key rows (k * p)) (n : ℕ) :
    (concat p pages n).Perm (o.take (n * p)) := by
  induction n with
  | zero => simp [concat]
  | succ n ih =>
    have hblock : (Blocks.block p (pages n) n).Perm (Blocks.block p o n) := by
      have hbefore := (h n).take_perm ho (hties n)
      have hupto := (h n).take_perm ho (hties (n + 1))
      rw [Blocks.take_succ_mul, Blocks.take_succ_mul] at hupto
      refine (List.perm_append_left_iff (o.take (n * p))).mp ?_
      exact (hbefore.symm.append_right _).trans hupto
    rw [concat_succ, Blocks.take_succ_mul]
    exact ih.append hblock

/-- **A row may come out twice** if a boundary has a tie. -/
theorem exists_not_nodup_concat (hp : 0 < p) (hk : TieAt key rows (k * p)) (hn : k < n) :
    ∃ pages, (∀ j, Ordered key rows (pages j)) ∧ ¬ (concat p pages n).Nodup := by
  obtain ⟨o, ho⟩ : ∃ o, Ordered key rows o := ⟨_, ordered_insertionSort key rows⟩
  obtain ⟨o', ho', hswapped, hle⟩ := ho.exists_swapped hk
  obtain ⟨j, rfl⟩ : ∃ j, k = j + 1 :=
    ⟨k - 1, by have hpos : 0 < k := Nat.pos_of_mul_pos_right hk.1; omega⟩
  -- the queries up to the boundary take one order, and the others the other one
  refine ⟨fun i => if i ≤ j then o else o', fun i => ?_, fun hnodup => ?_⟩
  · by_cases hi : i ≤ j
    · simp only [if_pos hi]
      exact ho
    · simp only [if_neg hi]
      exact ho'
  · have hlast : (j + 1) * p - 1 = j * p + (p - 1) := by
      rw [Nat.succ_mul]
      omega
    obtain ⟨x, hx⟩ : ∃ x, o[j * p + (p - 1)]? = some x := by
      refine ⟨_, List.getElem?_eq_getElem ?_⟩
      rw [Nat.succ_mul] at hle
      omega
    have hbefore : x ∈ Blocks.block p o j := by
      refine List.mem_of_getElem? (i := p - 1) ?_
      rw [Blocks.getElem?_block (by omega), hx]
    have hafter : x ∈ Blocks.block p o' (j + 1) := by
      refine List.mem_of_getElem? (i := 0) ?_
      rw [Blocks.getElem?_block hp, Nat.add_zero, hswapped, hlast, hx]
    have hdisjoint := List.pairwise_iff_getElem.mp (List.nodup_flatMap.mp hnodup).2 j (j + 1)
      (by rw [List.length_range]; omega) (by rw [List.length_range]; omega) (by omega)
    simp only [List.getElem_range, Function.onFun, le_refl, if_true, Nat.not_succ_le_self,
      if_false] at hdisjoint
    exact hdisjoint hbefore hafter

/-- **Reading page by page gives every row once**, whatever orders are taken, just when no
boundary of two pages has a tie. -/
theorem perm_concat_iff (hp : 0 < p) (hnodup : rows.Nodup) :
    (∀ pages, (∀ k, Ordered key rows (pages k)) →
        (concat p pages (rows.length / p + 1)).Perm rows) ↔
      ∀ k, ¬ TieAt key rows (k * p) := by
  constructor
  · intro hall k hk
    have hlt : k < rows.length / p + 1 :=
      Nat.lt_succ_of_le ((Nat.le_div_iff_mul_le hp).mpr hk.2.1.le)
    obtain ⟨pages, hpages, hrepeats⟩ := exists_not_nodup_concat hp hk hlt
    exact hrepeats ((hall pages hpages).nodup_iff.mpr hnodup)
  · intro hties pages hpages
    have ho := ordered_insertionSort key rows
    have hend : rows.length ≤ (rows.length / p + 1) * p :=
      ((Nat.div_lt_iff_lt_mul hp).mp (Nat.lt_succ_self _)).le
    have hperm := perm_concat hpages ho hties (rows.length / p + 1)
    rw [List.take_of_length_le (by rw [ho.perm.length_eq]; exact hend)] at hperm
    exact hperm.trans ho.perm

end Paging

end RenditionPipeline
