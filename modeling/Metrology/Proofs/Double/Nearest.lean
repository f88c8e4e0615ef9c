/-
Rounding to the nearest double, as a function of natural numbers. The
product of two doubles is a whole number of the finest units, squares of
the smallest positive double. Rounding it keeps 53 bits, or fewer where
the last bit kept would be worth less than the smallest double.

Rounding keeps the order (`nearest_mono`), and leaves what is short enough
as it is (`nearest_of_dvd`).
-/
import Mathlib.Algebra.Order.Ring.Nat
import Mathlib.Tactic.Positivity
import Metrology.Numeral.Exact

namespace Metrology.Double

open Metrology.Numeral (roundDiv)

-- ============================================================ quotients

/-- A rounded quotient is not below the floor. -/
theorem div_le_roundDiv (n d : ℕ) : n / d ≤ roundDiv n d := by
  unfold roundDiv
  dsimp only
  repeat' split
  all_goals omega

theorem roundDiv_le (n d : ℕ) : roundDiv n d ≤ n / d + 1 := by
  unfold roundDiv
  dsimp only
  repeat' split
  all_goals omega

/-- A quotient without remainder is not rounded. -/
theorem roundDiv_mul_left (q : ℕ) {d : ℕ} (hd : 0 < d) :
    roundDiv (q * d) d = q := by
  unfold roundDiv
  dsimp only
  rw [Nat.mul_mod_left, Nat.mul_div_cancel q hd, if_pos (by omega)]

/-- A common factor does not matter. -/
theorem roundDiv_mul_mul (n d : ℕ) {c : ℕ} (hc : 0 < c) :
    roundDiv (n * c) (d * c) = roundDiv n d := by
  have hlt : ∀ a b : ℕ, a * c < b * c ↔ a < b :=
    fun a b => Nat.mul_lt_mul_right hc
  unfold roundDiv
  dsimp only
  rw [Nat.mul_div_mul_right n d hc, Nat.mul_mod_mul_right, ← Nat.mul_assoc]
  simp only [hlt]

/-- Rounded quotients grow with the dividend. -/
theorem roundDiv_mono {n k : ℕ} (d : ℕ) (h : n ≤ k) :
    roundDiv n d ≤ roundDiv k d := by
  rcases (Nat.div_le_div_right h : n / d ≤ k / d).lt_or_eq with hlt | heq
  · have hn := roundDiv_le n d
    have hk := div_le_roundDiv k d
    omega
  · -- on one step of the grid only the remainders count
    have hmod : n % d ≤ k % d := by
      have hn := Nat.div_add_mod n d
      have hk := Nat.div_add_mod k d
      rw [heq] at hn
      omega
    unfold roundDiv
    dsimp only
    rw [heq]
    repeat' split
    all_goals omega

-- ============================================================= rounding

/-- The last bit that is kept of a number of finest units. -/
def grain (n : ℕ) : ℕ := max 1074 (n.log2 - 52)

/-- The nearest double, in finest units. -/
def nearest (n : ℕ) : ℕ := roundDiv n (2 ^ grain n) * 2 ^ grain n

/-- A larger number has no fewer bits. -/
theorem log2_le_log2 {n k : ℕ} (h : n ≤ k) : n.log2 ≤ k.log2 := by
  rcases Nat.eq_zero_or_pos n with rfl | hn
  · simp
  · exact (Nat.le_log2 (by omega)).mpr
      (Nat.le_trans (Nat.log2_self_le (by omega)) h)

/-- A power of two on the grid is not rounded. -/
theorem roundDiv_two_pow {g j : ℕ} (h : g ≤ j) :
    roundDiv (2 ^ j) (2 ^ g) * 2 ^ g = 2 ^ j := by
  have hsplit : 2 ^ j = 2 ^ (j - g) * 2 ^ g := by
    rw [← pow_add, Nat.sub_add_cancel h]
  rw [hsplit, roundDiv_mul_left _ (by positivity)]

/-- A power of two on the grid bounds the results as it bounds the
arguments. -/
theorem nearest_le_two_pow {n j : ℕ} (h : n ≤ 2 ^ j) (hj : grain n ≤ j) :
    nearest n ≤ 2 ^ j := by
  rw [nearest, ← roundDiv_two_pow hj]
  exact Nat.mul_le_mul_right _ (roundDiv_mono _ h)

theorem two_pow_le_nearest {n j : ℕ} (h : 2 ^ j ≤ n) (hj : grain n ≤ j) :
    2 ^ j ≤ nearest n := by
  rw [nearest, ← roundDiv_two_pow hj]
  exact Nat.mul_le_mul_right _ (roundDiv_mono _ h)

/-- Rounding keeps the order. -/
theorem nearest_mono {n k : ℕ} (h : n ≤ k) : nearest n ≤ nearest k := by
  have hlog := log2_le_log2 h
  by_cases hgrain : grain n = grain k
  · rw [nearest, nearest, hgrain]
    exact Nat.mul_le_mul_right _ (roundDiv_mono _ h)
  · -- the larger number is on a coarser grid, and between the two there
    -- is the power of two where that grid begins
    unfold grain at hgrain
    have hk : k ≠ 0 := by
      rintro rfl
      simp at hgrain hlog
      omega
    have hbelow : n ≤ 2 ^ k.log2 := by
      have hlt : n < 2 ^ (n.log2 + 1) := Nat.lt_log2_self
      have hle : 2 ^ (n.log2 + 1) ≤ 2 ^ k.log2 :=
        Nat.pow_le_pow_right (by decide) (by omega)
      omega
    calc nearest n
        ≤ 2 ^ k.log2 := nearest_le_two_pow hbelow (by unfold grain; omega)
      _ ≤ nearest k :=
          two_pow_le_nearest (Nat.log2_self_le hk) (by unfold grain; omega)

/-- What lies on the grid is not rounded. -/
theorem nearest_of_dvd {n : ℕ} (h : 2 ^ grain n ∣ n) : nearest n = n := by
  obtain ⟨q, hq⟩ := h
  rw [nearest]
  nth_rewrite 1 [hq]
  rw [Nat.mul_comm (2 ^ grain n) q, roundDiv_mul_left _ (by positivity),
    Nat.mul_comm]
  exact hq.symm

end Metrology.Double
