import Mathlib.Data.Int.Log
import Mathlib.Data.Rat.Floor
import Mathlib.Tactic.Linarith
import Mathlib.Tactic.NormNum
import Mathlib.Tactic.Ring

/-!
# Rounding to the fractions of a machine

The fractions of a machine have 53 binary digits and an exponent in a range. A number is
rounded to the nearest of them, and to the even one of two
(`RenditionPipeline.Binary64.round`), unless it is too large, which it is from the middle
between the largest fraction and the next power of two on
(`RenditionPipeline.Binary64.round_eq_none_iff`).
-/

namespace RenditionPipeline

namespace Binary64

/-- The whole number that is nearest, and of two the even one. -/
def halfEven (q : ℚ) : ℤ :=
  if q - ⌊q⌋ < 1 / 2 then ⌊q⌋
  else if 1 / 2 < q - ⌊q⌋ then ⌊q⌋ + 1
  else if ⌊q⌋ % 2 = 0 then ⌊q⌋ else ⌊q⌋ + 1

/-- The distance of two fractions next to each other, around a number. -/
def spacing (m : ℚ) : ℚ := 2 ^ max (Int.log 2 m - 52) (-1074)

/-- The nearest fraction, of a number that is not negative. -/
def nearest (m : ℚ) : ℚ := halfEven (m / spacing m) * spacing m

/-- **Round a number to a fraction of the machine**, if it is not too large for one. -/
def round (q : ℚ) : Option ℚ :=
  if nearest |q| < (2 : ℚ) ^ (1024 : ℤ) then
    some (if q < 0 then -nearest |q| else nearest |q|)
  else none

/-! ### Whole numbers -/

section Whole

variable {q : ℚ} {n : ℤ}

theorem halfEven_intCast (n : ℤ) : halfEven n = n := by
  simp [halfEven]

theorem floor_le_halfEven (q : ℚ) : ⌊q⌋ ≤ halfEven q := by
  rw [halfEven]
  split_ifs <;> omega

theorem halfEven_le_floor_add_one (q : ℚ) : halfEven q ≤ ⌊q⌋ + 1 := by
  rw [halfEven]
  split_ifs <;> omega

theorem le_halfEven (h : (n : ℚ) ≤ q) : n ≤ halfEven q :=
  (Int.le_floor.mpr h).trans (floor_le_halfEven q)

/-- Rounding does not go beyond a whole number that is larger. -/
theorem halfEven_le (h : q ≤ n) : halfEven q ≤ n := by
  rcases h.lt_or_eq with hlt | rfl
  · have hfloor : ⌊q⌋ < n := Int.floor_lt.mpr hlt
    have hle := halfEven_le_floor_add_one q
    omega
  · rw [halfEven_intCast]

/-- **An even number is reached from the middle below it on.** -/
theorem le_halfEven_iff (hn : n % 2 = 0) : n ≤ halfEven q ↔ (n : ℚ) - 1 / 2 ≤ q := by
  have hlow := Int.floor_le q
  have hhigh := Int.lt_floor_add_one q
  rcases lt_trichotomy ⌊q⌋ (n - 1) with hlt | heq | hgt
  · have hle := halfEven_le_floor_add_one q
    have hcast : (⌊q⌋ : ℚ) + 1 ≤ n - 1 := by exact_mod_cast (by omega : ⌊q⌋ + 1 ≤ n - 1)
    constructor
    · intro h
      omega
    · intro h
      linarith
  · have hcast : (⌊q⌋ : ℚ) = n - 1 := by exact_mod_cast heq
    have hodd : ¬ ⌊q⌋ % 2 = 0 := by omega
    rw [halfEven]
    split_ifs with h₁ h₂
    · rw [hcast] at h₁
      constructor
      · intro h
        omega
      · intro h
        linarith
    · rw [hcast] at h₂
      exact ⟨fun _ => by linarith, fun _ => by omega⟩
    · rw [hcast] at h₁
      exact ⟨fun _ => by linarith, fun _ => by omega⟩
  · have hle := floor_le_halfEven q
    have hcast : (n : ℚ) ≤ ⌊q⌋ := by exact_mod_cast (by omega : n ≤ ⌊q⌋)
    exact ⟨fun _ => by linarith, fun _ => by omega⟩

end Whole

/-! ### Large numbers -/

section Large

variable {m : ℚ}

theorem two_zpow_pos (e : ℤ) : (0 : ℚ) < 2 ^ e := zpow_pos (by norm_num) e

/-- Powers of two are multiplied by adding up the exponents. -/
theorem two_zpow_mul (a b : ℤ) : (2 : ℚ) ^ a * 2 ^ b = 2 ^ (a + b) :=
  (zpow_add₀ (by norm_num) a b).symm

theorem spacing_pos (m : ℚ) : 0 < spacing m := two_zpow_pos _

/-- A number has at most 53 digits before the spacing. -/
theorem div_spacing_le (m : ℚ) : m / spacing m ≤ (2 : ℚ) ^ (53 : ℤ) := by
  rw [div_le_iff₀ (spacing_pos m), spacing, two_zpow_mul]
  have hlt := Int.lt_zpow_succ_log_self (b := 2) (by decide) m
  refine hlt.le.trans ?_
  have hmax := le_max_left (Int.log 2 m - 52) (-1074)
  exact zpow_le_zpow_right₀ (by norm_num) (by omega)

/-- Below the last range of exponents nothing is too large. -/
theorem nearest_lt (h : m < (2 : ℚ) ^ (1023 : ℤ)) : nearest m < (2 : ℚ) ^ (1024 : ℤ) := by
  have hlog : Int.log 2 m < 1023 := by
    rcases le_or_gt m 0 with hm | hm
    · rw [Int.log_of_right_le_zero 2 hm]
      decide
    · exact (Int.lt_zpow_iff_log_lt (by decide) hm).mp (by simpa using h)
  have hwhole : (halfEven (m / spacing m) : ℚ) ≤ (2 : ℚ) ^ (53 : ℤ) := by
    have hle : halfEven (m / spacing m) ≤ 2 ^ 53 := halfEven_le (by exact_mod_cast div_spacing_le m)
    exact_mod_cast hle
  calc nearest m ≤ (2 : ℚ) ^ (53 : ℤ) * spacing m :=
        mul_le_mul_of_nonneg_right hwhole (spacing_pos m).le
    _ = (2 : ℚ) ^ (53 + max (Int.log 2 m - 52) (-1074)) := two_zpow_mul _ _
    _ < (2 : ℚ) ^ (1024 : ℤ) := zpow_lt_zpow_right₀ (by norm_num) (by omega)

/-- A number that is too large stays too large. -/
theorem le_nearest (h : (2 : ℚ) ^ (1024 : ℤ) ≤ m) : (2 : ℚ) ^ (1024 : ℤ) ≤ nearest m := by
  have hm : 0 < m := (two_zpow_pos _).trans_le h
  have hlog : 1024 ≤ Int.log 2 m := (Int.zpow_le_iff_le_log (by decide) hm).mp (by simpa using h)
  have hspacing : spacing m = (2 : ℚ) ^ (Int.log 2 m - 52) := by
    rw [spacing, max_eq_left (by omega)]
  have hdiv : ((2 ^ 52 : ℤ) : ℚ) ≤ m / spacing m := by
    rw [le_div_iff₀ (spacing_pos m), hspacing]
    have hpow := Int.zpow_log_le_self (b := 2) (by decide) hm
    have hmul := two_zpow_mul 52 (Int.log 2 m - 52)
    rw [show (52 : ℤ) + (Int.log 2 m - 52) = Int.log 2 m by ring] at hmul
    calc ((2 ^ 52 : ℤ) : ℚ) * 2 ^ (Int.log 2 m - 52)
        = (2 : ℚ) ^ (52 : ℤ) * 2 ^ (Int.log 2 m - 52) := by norm_num
      _ ≤ m := by rw [hmul]; exact_mod_cast hpow
  have hwhole : (2 : ℚ) ^ (52 : ℤ) ≤ halfEven (m / spacing m) := by
    exact_mod_cast le_halfEven hdiv
  calc (2 : ℚ) ^ (1024 : ℤ) ≤ (2 : ℚ) ^ (52 + (Int.log 2 m - 52)) :=
        zpow_le_zpow_right₀ (by norm_num) (by omega)
    _ = (2 : ℚ) ^ (52 : ℤ) * spacing m := by rw [hspacing, two_zpow_mul]
    _ ≤ nearest m := mul_le_mul_of_nonneg_right hwhole (spacing_pos m).le

/-- In the last range of exponents the middle decides. -/
theorem le_nearest_iff (hlow : (2 : ℚ) ^ (1023 : ℤ) ≤ m) (hhigh : m < (2 : ℚ) ^ (1024 : ℤ)) :
    (2 : ℚ) ^ (1024 : ℤ) ≤ nearest m ↔ (2 : ℚ) ^ (1024 : ℤ) - 2 ^ (970 : ℤ) ≤ m := by
  have hm : 0 < m := (two_zpow_pos _).trans_le hlow
  have hlog : Int.log 2 m = 1023 := by
    have h₁ : 1023 ≤ Int.log 2 m :=
      (Int.zpow_le_iff_le_log (by decide) hm).mp (by simpa using hlow)
    have h₂ : Int.log 2 m < 1024 :=
      (Int.lt_zpow_iff_log_lt (by decide) hm).mp (by simpa using hhigh)
    omega
  have hspacing : spacing m = (2 : ℚ) ^ (971 : ℤ) := by
    rw [spacing, hlog]
    rfl
  have hnear : (2 : ℚ) ^ (1024 : ℤ) ≤ nearest m ↔ (2 ^ 53 : ℤ) ≤ halfEven (m / spacing m) := by
    rw [nearest, ← div_le_iff₀ (spacing_pos m)]
    have hquot : (2 : ℚ) ^ (1024 : ℤ) / spacing m = ((2 ^ 53 : ℤ) : ℚ) := by
      rw [hspacing, div_eq_iff (two_zpow_pos _).ne']
      have hmul := two_zpow_mul 53 971
      rw [show (53 : ℤ) + 971 = 1024 by norm_num] at hmul
      rw [← hmul]
      norm_num
    rw [hquot, Int.cast_le]
  have hmiddle : (((2 ^ 53 : ℤ) : ℚ) - 1 / 2) * spacing m
      = (2 : ℚ) ^ (1024 : ℤ) - 2 ^ (970 : ℤ) := by
    have h₁ := two_zpow_mul 54 970
    have h₂ := two_zpow_mul 1 970
    rw [show (54 : ℤ) + 970 = 1024 by norm_num] at h₁
    rw [show (1 : ℤ) + 970 = 971 by norm_num] at h₂
    rw [hspacing, ← h₁, ← h₂]
    generalize (2 : ℚ) ^ (970 : ℤ) = p
    push_cast
    ring
  rw [hnear, le_halfEven_iff (by decide), le_div_iff₀ (spacing_pos m), hmiddle]

/-- **What is too large**: everything from the middle between the largest fraction and the
next power of two on. -/
theorem round_eq_none_iff {q : ℚ} :
    round q = none ↔ (2 : ℚ) ^ (1024 : ℤ) - 2 ^ (970 : ℤ) ≤ |q| := by
  have hstep := two_zpow_mul 1 1023
  rw [show (1 : ℤ) + 1023 = 1024 by norm_num] at hstep
  have hsmall : (2 : ℚ) ^ (970 : ℤ) ≤ 2 ^ (1023 : ℤ) :=
    zpow_le_zpow_right₀ (by norm_num) (by decide)
  have hlimit : round q = none ↔ (2 : ℚ) ^ (1024 : ℤ) ≤ nearest |q| := by
    rw [round]
    split_ifs with h
    · exact ⟨fun hn => (by cases hn), fun hle => absurd h (not_lt.mpr (by exact_mod_cast hle))⟩
    · exact ⟨fun _ => by exact_mod_cast not_lt.mp h, fun _ => rfl⟩
  rw [hlimit]
  rcases lt_or_ge |q| ((2 : ℚ) ^ (1023 : ℤ)) with hlow | hlow
  · refine ⟨fun h => absurd (nearest_lt hlow) (not_lt.mpr h), fun h => absurd h (not_le.mpr ?_)⟩
    rw [zpow_one] at hstep
    revert hlow hsmall
    rw [← hstep]
    generalize (2 : ℚ) ^ (1023 : ℤ) = a
    generalize (2 : ℚ) ^ (970 : ℤ) = b
    intro hsmall hlow
    linarith
  · rcases lt_or_ge |q| ((2 : ℚ) ^ (1024 : ℤ)) with hhigh | hhigh
    · exact le_nearest_iff hlow hhigh
    · exact ⟨fun _ => (sub_le_self _ (two_zpow_pos _).le).trans hhigh, fun _ => le_nearest hhigh⟩

end Large

end Binary64

end RenditionPipeline
