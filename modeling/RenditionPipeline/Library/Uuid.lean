import Mathlib.Data.List.Basic
import Mathlib.Data.Nat.Basic
import Mathlib.Tactic.Ring

/-!
# UUIDs and their text

A UUID is a 128-bit number, and its text is the familiar one: 32 lower-case
hexadecimal digits, most significant first, in groups of 8, 4, 4, 4 and 12 with a
dash between two groups. Two facts about the text are all that is ever used of
it: it determines the UUID (`RenditionPipeline.UUID.str_injective`) and contains
no slash (`RenditionPipeline.UUID.slash_not_mem_str`), so that it can stand
between slashes in a path.
-/

namespace RenditionPipeline

/-- A UUID: a 128-bit number. -/
structure UUID where
  /-- The number. -/
  int : Fin (2 ^ 128)
deriving DecidableEq

/-- There is a UUID, so that its number may be written as a literal. -/
instance UUID.neZero : NeZero (2 ^ 128) := ⟨by decide⟩

namespace UUID

/-- The hexadecimal digit of weight `16 ^ k`. -/
def nibble (u : UUID) (k : ℕ) : ℕ := (u.int : ℕ) / 16 ^ k % 16

/-- The places of the text: the weight of a digit, or a dash. -/
def layout : List (Option ℕ) :=
  [some 31, some 30, some 29, some 28, some 27, some 26, some 25, some 24, none,
    some 23, some 22, some 21, some 20, none, some 19, some 18, some 17, some 16, none,
    some 15, some 14, some 13, some 12, none, some 11, some 10, some 9, some 8, some 7,
    some 6, some 5, some 4, some 3, some 2, some 1, some 0]

/-- The character at a place of the text. -/
def charAt (u : UUID) : Option ℕ → Char
  | some k => Nat.digitChar (u.nibble k)
  | none => '-'

/-- The text of a UUID. -/
def str (u : UUID) : String := String.ofList (layout.map u.charAt)

theorem toList_str (u : UUID) : u.str.toList = layout.map u.charAt := String.toList_ofList

theorem nibble_lt (u : UUID) (k : ℕ) : u.nibble k < 16 := Nat.mod_lt _ (by omega)

theorem digitChar_inj : ∀ a < 16, ∀ b < 16, Nat.digitChar a = Nat.digitChar b → a = b := by
  decide

theorem digitChar_ne_slash : ∀ a < 16, Nat.digitChar a ≠ '/' := by decide

theorem layout_complete : ∀ k < 32, some k ∈ layout := by decide

/-- A number is determined by its hexadecimal digits. -/
theorem eq_of_nibbles {n : ℕ} : ∀ {a b : ℕ}, a < 16 ^ n → b < 16 ^ n →
    (∀ k < n, a / 16 ^ k % 16 = b / 16 ^ k % 16) → a = b := by
  induction n with
  | zero => intro a b ha hb _; simp at ha hb; omega
  | succ n ih =>
    intro a b ha hb h
    have h0 : a % 16 = b % 16 := by simpa using h 0 (Nat.succ_pos n)
    have hpow : 16 ^ (n + 1) = 16 ^ n * 16 := pow_succ 16 n
    have hdiv : a / 16 = b / 16 := by
      refine ih (Nat.div_lt_of_lt_mul (by omega)) (Nat.div_lt_of_lt_mul (by omega)) ?_
      intro k hk
      have hk' := h (k + 1) (by omega)
      rw [pow_succ', ← Nat.div_div_eq_div_mul, ← Nat.div_div_eq_div_mul] at hk'
      exact hk'
    omega

/-- **The text of a UUID determines it.** -/
theorem str_injective : Function.Injective str := by
  intro u w h
  have hmap : layout.map u.charAt = layout.map w.charAt := by
    rw [← toList_str, ← toList_str, h]
  have hnib : ∀ k < 32, u.nibble k = w.nibble k := fun k hk =>
    digitChar_inj _ (u.nibble_lt k) _ (w.nibble_lt k)
      (List.map_inj_left.mp hmap _ (layout_complete k hk))
  have hint : (u.int : ℕ) = w.int :=
    eq_of_nibbles (n := 32) (lt_of_lt_of_le u.int.isLt (by norm_num))
      (lt_of_lt_of_le w.int.isLt (by norm_num)) hnib
  cases u
  cases w
  exact congrArg UUID.mk (Fin.ext hint)

/-- **The text of a UUID contains no slash.** -/
theorem slash_not_mem_str (u : UUID) : '/' ∉ u.str.toList := by
  rw [toList_str, List.mem_map]
  rintro ⟨p, -, hp⟩
  cases p with
  | none => exact absurd (show '-' = '/' from hp) (by decide)
  | some k => exact digitChar_ne_slash _ (u.nibble_lt k) hp

end UUID

end RenditionPipeline
