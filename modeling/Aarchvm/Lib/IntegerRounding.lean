import Mathlib.Algebra.Order.Floor.Ring
import Mathlib.Tactic.Linarith
import Mathlib.Tactic.NormNum
import Mathlib.Tactic.Ring

/-!
# Rounding to integers

The roundings as conditions on the result. Each of them picks the floor or the integer after it.
-/
namespace Aarchvm.Lib

/-- Where a number that is no integer goes. -/
inductive IntegerRounding where
  | tiesEven
  | tiesAway
  | up
  | down
  | zero
  deriving DecidableEq, Repr

namespace IntegerRounding

variable {K : Type} [Field K] [LinearOrder K] [IsStrictOrderedRing K]

/-- The integer `n` is `v` rounded. -/
def IsRounded (rounding : IntegerRounding) (v : K) (n : ℤ) : Prop :=
  match rounding with
  | tiesEven => |v - n| ≤ 1 / 2 ∧ (|v - n| = 1 / 2 → n % 2 = 0)
  | tiesAway => |v - n| ≤ 1 / 2 ∧ (|v - n| = 1 / 2 → |v| ≤ |(n : K)|)
  | up => v ≤ n ∧ n < v + 1
  | down => n ≤ v ∧ v < n + 1
  | zero => |(n : K)| ≤ |v| ∧ |v - n| < 1

variable {v : K} {n m : ℤ}

/-- Two integers at distance half are neighbours around `v`. -/
theorem halves_of_lt (hn : |v - n| ≤ 1 / 2) (hm : |v - m| ≤ 1 / 2) (hlt : n < m) :
    m = n + 1 ∧ v = n + 1 / 2 := by
  have hnext : ((n + 1 : ℤ) : K) ≤ m := by exact_mod_cast hlt
  obtain ⟨-, hn⟩ := abs_le.1 hn
  obtain ⟨hm, -⟩ := abs_le.1 hm
  push_cast at hnext
  have hle : (m : K) ≤ ((n + 1 : ℤ) : K) := by
    push_cast
    linarith
  exact ⟨le_antisymm (by exact_mod_cast hle) hlt, by linarith⟩

theorem not_lt_of_isRounded {rounding : IntegerRounding} (hn : rounding.IsRounded v n)
    (hm : rounding.IsRounded v m) : ¬ n < m := by
  intro hlt
  have hnext : ((n + 1 : ℤ) : K) ≤ m := by exact_mod_cast hlt
  push_cast at hnext
  cases rounding with
  | tiesEven =>
    obtain ⟨rfl, hv⟩ := halves_of_lt hn.1 hm.1 hlt
    have hlow : |v - n| = 1 / 2 := by
      rw [hv, add_sub_cancel_left, abs_of_pos (by norm_num)]
    have hhigh : |v - (n + 1 : ℤ)| = 1 / 2 := by
      push_cast
      rw [hv, abs_of_neg (by linarith)]
      linarith
    have heven := hn.2 hlow
    have heven' := hm.2 hhigh
    omega
  | tiesAway =>
    obtain ⟨rfl, hv⟩ := halves_of_lt hn.1 hm.1 hlt
    have hlow : |v - n| = 1 / 2 := by
      rw [hv, add_sub_cancel_left, abs_of_pos (by norm_num)]
    have hhigh : |v - (n + 1 : ℤ)| = 1 / 2 := by
      push_cast
      rw [hv, abs_of_neg (by linarith)]
      linarith
    have haway := hn.2 hlow
    have haway' := hm.2 hhigh
    push_cast at haway'
    -- the one of them on the side of zero is nearer to zero than `v`
    rcases le_or_gt 0 n with h | h
    · have hcast : (0 : K) ≤ n := by exact_mod_cast h
      rw [abs_of_nonneg (by linarith), abs_of_nonneg hcast] at haway
      linarith
    · have hcast : ((n + 1 : ℤ) : K) ≤ 0 := by exact_mod_cast h
      push_cast at hcast
      rw [abs_of_nonpos (by linarith), abs_of_nonpos hcast] at haway'
      linarith
  | up => linarith [hn.1, hm.2]
  | down => linarith [hn.2, hm.1]
  | zero =>
    obtain ⟨hn, hn'⟩ := hn
    obtain ⟨hm, hm'⟩ := hm
    rw [abs_lt] at hn' hm'
    rcases le_or_gt 0 v with h | h
    · rw [abs_of_nonneg h] at hm
      linarith [(abs_le.1 hm).2]
    · rw [abs_of_neg h] at hn
      linarith [(abs_le.1 hn).1]

theorem IsRounded.unique {rounding : IntegerRounding} (hn : rounding.IsRounded v n)
    (hm : rounding.IsRounded v m) : n = m :=
  le_antisymm (not_lt.1 (not_lt_of_isRounded hm hn)) (not_lt.1 (not_lt_of_isRounded hn hm))

/-- Whether the integer after the floor is taken. -/
def roundsUp (rounding : IntegerRounding) (floor : ℤ) (error : K) : Prop :=
  match rounding with
  | tiesEven => 1 / 2 < error ∨ error = 1 / 2 ∧ floor % 2 ≠ 0
  | tiesAway => 1 / 2 < error ∨ error = 1 / 2 ∧ 0 ≤ floor
  | up => error ≠ 0
  | down => False
  | zero => error ≠ 0 ∧ floor < 0

variable (rounding : IntegerRounding)

theorem isRounded_floor_succ (hlo : n ≤ v) (hhi : v < n + 1) (h : rounding.roundsUp n (v - n)) :
    rounding.IsRounded v (n + 1) := by
  have hcast : ((n + 1 : ℤ) : K) = n + 1 := by push_cast; rfl
  have habs : |v - (n + 1 : ℤ)| = n + 1 - v := by
    rw [hcast, abs_of_neg (by linarith)]
    ring
  cases rounding with
  | tiesEven =>
    refine ⟨?_, fun hhalf => ?_⟩
    · rw [habs]
      rcases h with h | h <;> linarith
    · rw [habs] at hhalf
      rcases h with h | ⟨-, hodd⟩
      · linarith
      · omega
  | tiesAway =>
    refine ⟨?_, fun hhalf => ?_⟩
    · rw [habs]
      rcases h with h | h <;> linarith
    · rw [habs] at hhalf
      rcases h with h | ⟨-, hpos⟩
      · linarith
      · have hn : (0 : K) ≤ n := by exact_mod_cast hpos
        rw [hcast, abs_of_nonneg (by linarith), abs_of_nonneg (by linarith)]
        linarith
  | up =>
    refine ⟨by linarith, ?_⟩
    have hne : (n : K) < v := lt_of_le_of_ne hlo fun heq => h (by rw [heq, sub_self])
    linarith
  | down => exact absurd h id
  | zero =>
    obtain ⟨hne, hneg⟩ := h
    have hlt : (n : K) < v := lt_of_le_of_ne hlo fun heq => hne (by rw [heq, sub_self])
    have hn : ((n + 1 : ℤ) : K) ≤ 0 := by exact_mod_cast hneg
    refine ⟨?_, ?_⟩
    · rw [abs_of_nonpos hn, abs_of_nonpos (by linarith)]
      linarith
    · rw [habs]
      linarith

theorem isRounded_floor (hlo : n ≤ v) (hhi : v < n + 1) (h : ¬ rounding.roundsUp n (v - n)) :
    rounding.IsRounded v n := by
  have habs : |v - n| = v - n := abs_of_nonneg (by linarith)
  cases rounding with
  | tiesEven =>
    obtain ⟨hle, htie⟩ := not_or.1 h
    refine ⟨habs.trans_le (not_lt.1 hle), fun hhalf => ?_⟩
    by_contra hodd
    exact htie ⟨habs.symm.trans hhalf, hodd⟩
  | tiesAway =>
    obtain ⟨hle, htie⟩ := not_or.1 h
    refine ⟨habs.trans_le (not_lt.1 hle), fun hhalf => ?_⟩
    have hneg : n < 0 := by
      by_contra hpos
      exact htie ⟨habs.symm.trans hhalf, not_lt.1 hpos⟩
    have hn : ((n + 1 : ℤ) : K) ≤ 0 := by exact_mod_cast hneg
    push_cast at hn
    rw [abs_of_nonpos (by linarith), abs_of_nonpos (by linarith)]
    linarith
  | up =>
    have heq : v - n = 0 := not_not.1 h
    exact ⟨by linarith, by linarith⟩
  | down => exact ⟨hlo, hhi⟩
  | zero =>
    rcases le_or_gt 0 n with hpos | hneg
    · have hn : (0 : K) ≤ n := by exact_mod_cast hpos
      refine ⟨?_, by linarith⟩
      rw [abs_of_nonneg hn, abs_of_nonneg (by linarith)]
      exact hlo
    · have heq : v - n = 0 := by
        by_contra hne
        exact h ⟨hne, hneg⟩
      have hv : v = n := by linarith
      refine ⟨by rw [hv], ?_⟩
      rw [heq, abs_zero]
      exact one_pos

end IntegerRounding
end Aarchvm.Lib
