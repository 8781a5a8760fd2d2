import Mathlib.Algebra.Order.Field.Power
import Mathlib.Data.Rat.Cast.Order
import Mathlib.Tactic.Linarith
import Mathlib.Tactic.NormNum
import Mathlib.Tactic.Positivity
import Mathlib.Tactic.Ring

/-!
# Dyadic magnitudes

Natural numbers scaled by a power of two of either sign. Two of them are compared or added after
the one with the larger exponent is shifted to the smaller one.
-/
namespace Aarchvm.Lib

def dyadic (m : ℕ) (e : ℤ) : ℚ := m * 2 ^ e

variable {m n : ℕ} {e k : ℤ}

theorem dyadic_nonneg (m : ℕ) (e : ℤ) : 0 ≤ dyadic m e := by
  rw [dyadic]
  positivity

theorem dyadic_eq_zero : dyadic m e = 0 ↔ m = 0 := by
  have hpow : (2 : ℚ) ^ e ≠ 0 := by positivity
  rw [dyadic, mul_eq_zero, or_iff_left hpow, Nat.cast_eq_zero]

theorem dyadic_pos (h : m ≠ 0) (e : ℤ) : 0 < dyadic m e :=
  (dyadic_nonneg m e).lt_of_ne fun hzero => h (dyadic_eq_zero.1 hzero.symm)

theorem dyadic_lt : dyadic m e < dyadic n e ↔ m < n := by
  have hpow : (0 : ℚ) < 2 ^ e := by positivity
  rw [dyadic, dyadic, mul_lt_mul_iff_left₀ hpow, Nat.cast_lt]

theorem dyadic_shift (m k : ℕ) (e : ℤ) : dyadic (m * 2 ^ k) e = dyadic m (e + k) := by
  rw [dyadic, dyadic, zpow_add₀ (by norm_num), zpow_natCast]
  push_cast
  ring

theorem dyadic_add (m n : ℕ) (e : ℤ) : dyadic (m + n) e = dyadic m e + dyadic n e := by
  rw [dyadic, dyadic, dyadic]
  push_cast
  ring

theorem dyadic_sub (h : n ≤ m) (e : ℤ) : dyadic (m - n) e = dyadic m e - dyadic n e := by
  rw [dyadic, dyadic, dyadic, Nat.cast_sub h]
  ring

theorem dyadic_mul (m n : ℕ) (e k : ℤ) : dyadic m e * dyadic n k = dyadic (m * n) (e + k) := by
  rw [dyadic, dyadic, dyadic, zpow_add₀ (by norm_num)]
  push_cast
  ring

/-- Only the leading bit counts against a power of two. -/
theorem dyadic_lt_two_zpow (h : m ≠ 0) :
    dyadic m e < 2 ^ k ↔ e < k ∧ m.log2 < (k - e).toNat := by
  have hpow : (0 : ℚ) < 2 ^ e := by positivity
  rcases Int.lt_or_le e k with hlt | hle
  · obtain ⟨d, hd⟩ := Int.eq_ofNat_of_zero_le (show 0 ≤ k - e by omega)
    have hk : k = d + e := by omega
    rw [and_iff_right hlt, hd, Int.toNat_natCast, Nat.log2_lt h, hk, dyadic,
      zpow_add₀ (by norm_num), mul_lt_mul_iff_left₀ hpow, zpow_natCast]
    exact_mod_cast Iff.rfl
  · refine iff_of_false (not_lt.2 ?_) fun hlt => absurd hlt.1 (not_lt.2 hle)
    have hone : (1 : ℚ) ≤ m := by exact_mod_cast Nat.pos_of_ne_zero h
    calc (2 : ℚ) ^ k ≤ 2 ^ e := zpow_le_zpow_right₀ (by norm_num) hle
      _ ≤ dyadic m e := le_mul_of_one_le_left hpow.le hone

/-! ## Signs -/

def signed (negative : Bool) (x : ℚ) : ℚ := if negative then -x else x

variable {a b : Bool} {x y : ℚ}

theorem signed_not (a : Bool) (x : ℚ) : signed (!a) x = -signed a x := by
  cases a
  · rfl
  · exact (neg_neg x).symm

theorem signed_mul (a b : Bool) (x y : ℚ) : signed a x * signed b y = signed (a != b) (x * y) := by
  cases a <;> cases b
  · rfl
  · exact mul_neg x y
  · exact neg_mul x y
  · exact neg_mul_neg x y

theorem signed_div (a b : Bool) (x y : ℚ) : signed a x / signed b y = signed (a != b) (x / y) := by
  cases a <;> cases b
  · rfl
  · exact div_neg x
  · exact neg_div y x
  · exact neg_div_neg_eq x y

theorem signed_eq_zero : signed a x = 0 ↔ x = 0 := by
  cases a
  · rfl
  · exact neg_eq_zero

theorem abs_signed (a : Bool) (h : 0 ≤ x) : |signed a x| = x := by
  cases a
  · exact abs_of_nonneg h
  · exact (abs_neg x).trans (abs_of_nonneg h)

theorem signed_neg_iff (h : 0 < x) : signed a x < 0 ↔ a = true := by
  cases a
  · exact iff_of_false (not_lt.2 h.le) Bool.false_ne_true
  · exact iff_of_true (neg_lt_zero.2 h) rfl

/-- Terms of unlike signs: the larger one gives the sign. -/
theorem signed_add_of_ne (h : a ≠ b) : signed a x + signed b y = signed a (x - y) := by
  rw [Bool.eq_not_of_ne h, signed_not]
  cases b
  · change -x + y = -(x - y)
    ring
  · change - -x + -y = x - y
    ring

theorem signed_add (a : Bool) (x y : ℚ) : signed a x + signed a y = signed a (x + y) := by
  cases a
  · rfl
  · exact (neg_add x y).symm

end Aarchvm.Lib
