import Mathlib.Algebra.Order.Floor.Ring
import Mathlib.Algebra.Ring.Int.Parity
import Mathlib.Data.Int.Log
import Mathlib.Tactic.FieldSimp
import Mathlib.Tactic.Linarith
import Mathlib.Tactic.NormNum
import Mathlib.Tactic.Positivity

/-!
# Rounding to a number of bits

A number is rounded to the nearest one with a given number of significant bits, and to the even one of two that are as
near. The exponent has no bounds.
-/

namespace Rounding

variable {K : Type*} [Field K] [LinearOrder K] [FloorRing K]

/-- The nearest integer, and of two that are as near the even one. -/
def roundEven (x : K) : ℤ :=
  if Int.fract x < 1 / 2 then ⌊x⌋
  else if 1 / 2 < Int.fract x then ⌊x⌋ + 1
  else if Even ⌊x⌋ then ⌊x⌋ else ⌊x⌋ + 1

/-- What the last bit of a number counts. -/
def ulp (bits : ℕ) (x : K) : K := 2 ^ (Int.log 2 |x| + 1 - bits)

def round (bits : ℕ) (x : K) : K := roundEven (x / ulp bits x) * ulp bits x

variable {x : K} {n : ℤ} {bits : ℕ}

/-! ### To an integer -/

theorem roundEven_cases (x : K) : roundEven x = ⌊x⌋ ∨ roundEven x = ⌊x⌋ + 1 := by
  rw [roundEven]
  split_ifs <;> simp

theorem le_roundEven (h : n ≤ x) : n ≤ roundEven x := by
  have hfloor : n ≤ ⌊x⌋ := Int.le_floor.mpr h
  obtain heq | heq := roundEven_cases x <;> omega

variable [IsStrictOrderedRing K]

theorem roundEven_le (h : x ≤ n) : roundEven x ≤ n := by
  have hfloor : ⌊x⌋ ≤ n := Int.cast_le.mp ((Int.floor_le x).trans h)
  obtain hlt | rfl := hfloor.lt_or_eq
  · obtain heq | heq := roundEven_cases x <;> omega
  · have hfract : Int.fract x = 0 := by
      rw [Int.fract, sub_eq_zero]
      exact h.antisymm (Int.floor_le x)
    rw [roundEven, hfract, if_pos (half_pos one_pos)]

theorem roundEven_intCast (n : ℤ) : roundEven (n : K) = n :=
  (roundEven_le le_rfl).antisymm (le_roundEven le_rfl)

/-- An even number draws what is half way below it. -/
theorem le_roundEven_iff (hn : Even n) : n ≤ roundEven x ↔ (n : K) - 1 / 2 ≤ x := by
  have hsplit := Int.floor_add_fract x
  have hone : (1 : K) / 2 + 1 / 2 = 1 := add_halves 1
  obtain hlt | heq | hgt := lt_trichotomy ⌊x⌋ (n - 1)
  · have hcast : (⌊x⌋ : K) + 1 ≤ n - 1 := by exact_mod_cast (by omega : ⌊x⌋ + 1 ≤ n - 1)
    have hfract := Int.fract_lt_one x
    refine iff_of_false (fun h => ?_) fun h => ?_
    · obtain heq | heq := roundEven_cases x <;> omega
    · linarith
  · have hodd : ¬ Even ⌊x⌋ := by
      rw [heq]
      exact Int.not_even_iff_odd.mpr (hn.sub_odd odd_one)
    have hcast : (⌊x⌋ : K) = n - 1 := by exact_mod_cast heq
    rw [roundEven, if_neg hodd, heq]
    split_ifs with hbelow
    · exact iff_of_false (by omega) fun h => by linarith
    · exact iff_of_true (by omega) (by linarith [not_lt.mp hbelow])
    · exact iff_of_true (by omega) (by linarith [not_lt.mp hbelow])
  · have hle : n ≤ ⌊x⌋ := by omega
    have hcast : (n : K) ≤ ⌊x⌋ := Int.cast_le.mpr hle
    refine iff_of_true ?_ ?_
    · obtain heq | heq := roundEven_cases x <;> omega
    · linarith [Int.fract_nonneg x]

/-! ### To a number of bits -/

theorem ulp_pos (bits : ℕ) (x : K) : 0 < ulp bits x := zpow_pos two_pos _

theorem round_one (hbits : 0 < bits) : round bits (1 : K) = 1 := by
  have hulp : ulp bits (1 : K) = (2 ^ (bits - 1))⁻¹ := by
    rw [ulp, abs_one, Int.log_one_right, ← zpow_natCast, ← zpow_neg]
    congr 1
    omega
  have hcount : 1 / (2 ^ (bits - 1))⁻¹ = ((2 ^ (bits - 1) : ℤ) : K) := by
    rw [one_div, inv_inv]
    push_cast
    rfl
  rw [round, hulp, hcount, roundEven_intCast, ← hcount, one_div, inv_inv, mul_inv_cancel₀ (by positivity)]

theorem zpow_le_round (hbits : 0 < bits) (hx : 0 < x) : (2 : K) ^ Int.log 2 x ≤ round bits x := by
  have hpower : (2 : K) ^ Int.log 2 x = ((2 ^ (bits - 1) : ℤ) : K) * ulp bits x := by
    rw [ulp, abs_of_pos hx, Int.cast_pow, Int.cast_ofNat, ← zpow_natCast, ← zpow_add₀ two_ne_zero]
    congr 1
    omega
  rw [hpower, round]
  refine mul_le_mul_of_nonneg_right (Int.cast_le.mpr (le_roundEven ?_)) (ulp_pos bits x).le
  rw [le_div_iff₀ (ulp_pos bits x), ← hpower]
  exact Int.zpow_log_le_self one_lt_two hx

theorem round_le_zpow (hx : 0 < x) : round bits x ≤ (2 : K) ^ (Int.log 2 x + 1) := by
  have hpower : (2 : K) ^ (Int.log 2 x + 1) = ((2 ^ bits : ℤ) : K) * ulp bits x := by
    rw [ulp, abs_of_pos hx, Int.cast_pow, Int.cast_ofNat, ← zpow_natCast, ← zpow_add₀ two_ne_zero]
    congr 1
    omega
  rw [hpower, round]
  refine mul_le_mul_of_nonneg_right (Int.cast_le.mpr (roundEven_le ?_)) (ulp_pos bits x).le
  rw [div_le_iff₀ (ulp_pos bits x), ← hpower]
  exact (Int.lt_zpow_succ_log_self one_lt_two x).le

theorem round_nonpos (bits : ℕ) (hx : x ≤ 0) : round bits x ≤ 0 := by
  refine mul_nonpos_of_nonpos_of_nonneg (Int.cast_nonpos.mpr (roundEven_le ?_)) (ulp_pos bits x).le
  rw [Int.cast_zero]
  exact div_nonpos_of_nonpos_of_nonneg hx (ulp_pos bits x).le

/-- What is rounded to 1 or more is less than 1 by half of what the last bit counts there, at most. -/
theorem one_le_round_iff (hbits : 0 < bits) : 1 ≤ round bits x ↔ 1 - 1 / 2 ^ (bits + 1) ≤ x := by
  have hquarter : (1 : K) / 2 ^ (bits + 1) ≤ 1 / 4 := by
    rw [show (4 : K) = 2 ^ 2 by norm_num]
    exact one_div_le_one_div_of_le (by positivity) (pow_le_pow_right₀ one_le_two (by omega))
  obtain hx | hx := le_or_gt x 0
  · exact iff_of_false (by linarith [round_nonpos bits hx]) (by linarith)
  obtain hone | hone := le_or_gt 1 x
  · have hlog : 0 ≤ Int.log 2 x := Int.log_of_one_le_right 2 hone ▸ Int.natCast_nonneg _
    refine iff_of_true ((one_le_zpow₀ one_le_two hlog).trans (zpow_le_round hbits hx)) ?_
    have hpos : (0 : K) ≤ 1 / 2 ^ (bits + 1) := by positivity
    linarith
  obtain hhalf | hhalf := lt_or_ge x (1 / 2)
  · have hlog : Int.log 2 x + 1 ≤ -1 := by
      have hlt : Int.log 2 x < -1 := (Int.lt_zpow_iff_log_lt one_lt_two hx).mp (by simpa using hhalf)
      omega
    have hround : round bits x ≤ (2 : K) ^ (-1 : ℤ) :=
      (round_le_zpow hx).trans (zpow_le_zpow_right₀ one_le_two hlog)
    rw [zpow_neg_one] at hround
    exact iff_of_false (by linarith [inv_lt_one_of_one_lt₀ (one_lt_two : (1 : K) < 2)]) (by linarith)
  · have hlog : Int.log 2 x = -1 := by
      have hlow : -1 ≤ Int.log 2 x := (Int.zpow_le_iff_le_log one_lt_two hx).mp (by simpa using hhalf)
      have hhigh : Int.log 2 x < 0 := (Int.lt_zpow_iff_log_lt one_lt_two hx).mp (by simpa using hone)
      omega
    have hulp : ulp bits x = (2 ^ bits)⁻¹ := by
      rw [ulp, abs_of_pos hx, hlog, ← zpow_natCast, ← zpow_neg]
      congr 1
      omega
    have heven : Even (2 ^ bits : ℤ) := (even_two).pow_of_ne_zero (by omega)
    have hpos : (0 : K) < 2 ^ bits := by positivity
    have hcount : 1 ≤ round bits x ↔ (2 ^ bits : ℤ) ≤ roundEven (x / ulp bits x) := by
      rw [round, hulp, ← div_eq_mul_inv, le_div_iff₀ hpos, one_mul]
      exact_mod_cast Iff.rfl
    rw [hcount, le_roundEven_iff heven, hulp, div_inv_eq_mul, ← div_le_iff₀ hpos]
    have hsame : (((2 ^ bits : ℤ) : K) - 1 / 2) / 2 ^ bits = 1 - 1 / 2 ^ (bits + 1) := by
      push_cast
      rw [pow_succ]
      field_simp
    rw [hsame]

end Rounding
