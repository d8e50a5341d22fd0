import Mathlib.Algebra.Order.Floor.Div

/-!
# Blocks of a list

A list of length `s` is cut into blocks of length `p`, of which only the last may be
shorter. There are `⌈s / p⌉` of them (`RenditionPipeline.Blocks.lt_count_iff`), and one
after another they are the list again
(`RenditionPipeline.Blocks.flatMap_block_count`).
-/

namespace RenditionPipeline

namespace Blocks

variable {α : Type} {p s k : ℕ}

/-- How many blocks of length `p` a list of length `s` has: the quotient rounded up. -/
def count (p s : ℕ) : ℕ := (s + p - 1) / p

/-- The block number `k` of a list, from `0`. -/
def block (p : ℕ) (l : List α) (k : ℕ) : List α := (l.drop (k * p)).take p

theorem count_eq_ceilDiv (p s : ℕ) : count p s = s ⌈/⌉ p := rfl

/-- **A block is one of a list** just when it begins inside it. -/
theorem lt_count_iff (hp : 0 < p) : k < count p s ↔ k * p < s := by
  rw [count_eq_ceilDiv, ← not_le, ceilDiv_le_iff_le_mul hp, not_le, Nat.mul_comm]

/-- The blocks reach to the end. -/
theorem le_count_mul (hp : 0 < p) : s ≤ count p s * p :=
  not_lt.mp fun h => lt_irrefl _ ((lt_count_iff hp).mpr h)

theorem count_pos (hp : 0 < p) (hs : 0 < s) : 0 < count p s :=
  (lt_count_iff hp).mpr (by rwa [Nat.zero_mul])

/-- A block that another one follows is full. -/
theorem add_le_of_succ_lt_count (hp : 0 < p) (h : k + 1 < count p s) : k * p + p ≤ s := by
  have hlt := (lt_count_iff hp).mp h
  rw [Nat.succ_mul] at hlt
  exact hlt.le

/-- The last block reaches to the end. -/
theorem le_add_of_succ_eq_count (hp : 0 < p) (h : k + 1 = count p s) : s ≤ k * p + p := by
  have hle := le_count_mul (s := s) hp
  rwa [← h, Nat.succ_mul] at hle

/-- The beginning of a list with a block more. -/
theorem take_succ_mul (p : ℕ) (l : List α) (k : ℕ) :
    l.take ((k + 1) * p) = l.take (k * p) ++ block p l k := by
  rw [Nat.succ_mul, List.take_add]
  rfl

/-- The first blocks, one after another, are the beginning of the list. -/
theorem flatMap_block (p : ℕ) (l : List α) (n : ℕ) :
    (List.range n).flatMap (block p l) = l.take (n * p) := by
  induction n with
  | zero => simp
  | succ n ih =>
    rw [List.range_succ, List.flatMap_append, ih, List.flatMap_singleton, take_succ_mul]

theorem map_block {β : Type} (f : α → β) (p : ℕ) (l : List α) (k : ℕ) :
    (block p l k).map f = block p (l.map f) k := by
  rw [block, block, List.map_take, List.map_drop]

theorem getElem?_block {i : ℕ} (h : i < p) (l : List α) (k : ℕ) :
    (block p l k)[i]? = l[k * p + i]? := by
  rw [block, List.getElem?_take_of_lt h, List.getElem?_drop]

/-- A block is shorter than the others just when the list ends in it. -/
theorem length_block (p : ℕ) (l : List α) (k : ℕ) :
    (block p l k).length = min p (l.length - k * p) := by
  rw [block, List.length_take, List.length_drop]

/-- **All blocks, one after another, are the list.** -/
theorem flatMap_block_count (hp : 0 < p) (l : List α) :
    (List.range (count p l.length)).flatMap (block p l) = l := by
  rw [flatMap_block, List.take_of_length_le (le_count_mul hp)]

end Blocks

end RenditionPipeline
