import Mathlib.Algebra.BigOperators.Group.Finset.Basic
import Mathlib.Algebra.Order.BigOperators.Group.Finset
import Mathlib.Tactic.Linarith
import Mathlib.Tactic.Ring

/-!
# Positional notation

A number by its digits, the least significant one first. The digits are a function, so that a
number read beyond its last digit has zeros there.
-/
namespace Aarchvm.Lib

/-- The number with the digits `d 0, ..., d (n - 1)` in base `B`. -/
def positional (B : ℕ) (d : ℕ → ℕ) (n : ℕ) : ℕ := ∑ i ∈ Finset.range n, d i * B ^ i

variable {B : ℕ} {d e : ℕ → ℕ} {n m k : ℕ}

theorem positional_succ (B : ℕ) (d : ℕ → ℕ) (n : ℕ) :
    positional B d (n + 1) = positional B d n + d n * B ^ n :=
  Finset.sum_range_succ _ _

theorem positional_congr (h : ∀ i < n, d i = e i) : positional B d n = positional B e n :=
  Finset.sum_congr rfl fun i hi => congrArg (· * B ^ i) (h i (Finset.mem_range.1 hi))

theorem positional_lt (h : ∀ i < n, d i < B) : positional B d n < B ^ n := by
  induction n with
  | zero => exact Nat.one_pos
  | succ n ih =>
    have hlow := ih fun i hi => h i (Nat.lt_succ_of_lt hi)
    have htop : (d n + 1) * B ^ n ≤ B * B ^ n := Nat.mul_le_mul_right _ (h n (Nat.lt_succ_self n))
    rw [positional_succ, Nat.pow_succ']
    linarith

/-- Zeros above do not count. -/
theorem positional_extend (hmn : m ≤ n) (h : ∀ i, m ≤ i → i < n → d i = 0) :
    positional B d n = positional B d m := by
  induction n, hmn using Nat.le_induction with
  | base => rfl
  | succ n hmn ih =>
    rw [positional_succ, h n hmn (Nat.lt_succ_self n), Nat.zero_mul, Nat.add_zero]
    exact ih fun i hi hin => h i hi (Nat.lt_succ_of_lt hin)

/-- Replacing one digit. -/
theorem positional_update (v : ℕ) (h : k < n) (hk : e k = v) (hother : ∀ i, i ≠ k → e i = d i) :
    positional B e n + d k * B ^ k = positional B d n + v * B ^ k := by
  induction n, Nat.succ_le_of_lt h using Nat.le_induction with
  | base =>
    have hlow : positional B e k = positional B d k :=
      positional_congr fun i hi => hother i (Nat.ne_of_lt hi)
    rw [Nat.succ_eq_add_one, positional_succ, positional_succ, hlow, hk]
    exact Nat.add_right_comm _ _ _
  | succ n hkn ih =>
    have hn := ih hkn
    rw [positional_succ, positional_succ, hother n (Nat.ne_of_gt hkn)]
    linarith

/-- The highest digit decides. -/
theorem positional_lt_of_top (hd : ∀ i < n, d i < B) (h : d n < e n) :
    positional B d (n + 1) < positional B e (n + 1) := by
  have hlow := positional_lt hd
  have htop : (d n + 1) * B ^ n ≤ e n * B ^ n := Nat.mul_le_mul_right _ h
  rw [positional_succ, positional_succ]
  linarith

end Aarchvm.Lib
