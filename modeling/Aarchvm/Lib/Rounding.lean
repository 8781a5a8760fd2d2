import Mathlib.Algebra.Order.Field.Power
import Mathlib.Data.Rat.Cast.Order
import Mathlib.Tactic.Linarith
import Mathlib.Tactic.Positivity
import Mathlib.Tactic.Ring
import Mathlib.Tactic.NormNum

/-!
# Rounding to floating-point numbers

Nonnegative numbers of a binary format, counted from zero upwards: the count is the exponent
and fraction fields taken as one number. The exponent has no upper limit here, as rounding
wants it. Rounding a scaled integer is an integer division.
-/
namespace Aarchvm.Lib

/-- Where a magnitude is rounded to. -/
inductive Rounding where
  | nearest
  | up
  | down
  deriving DecidableEq, Repr

/-- The integer part of `v / 2 ^ shift` or the next integer. -/
def Rounding.shift (dir : Rounding) (v shift : ℕ) : ℕ :=
  let quotient := v / 2 ^ shift
  let remainder := v % 2 ^ shift
  if remainder = 0 then quotient
  else
    match dir with
    | nearest =>
      if 2 ^ shift < 2 * remainder ∨ 2 ^ shift = 2 * remainder ∧ quotient % 2 = 1 then quotient + 1
      else quotient
    | up => quotient + 1
    | down => quotient

theorem Rounding.shift_exact (dir : Rounding) {v shift : ℕ} (h : v % 2 ^ shift = 0) :
    dir.shift v shift = v / 2 ^ shift := if_pos h

theorem Rounding.shift_inexact (dir : Rounding) {v shift : ℕ} (h : v % 2 ^ shift ≠ 0) :
    dir.shift v shift = match dir with
      | nearest =>
        if 2 ^ shift < 2 * (v % 2 ^ shift) ∨
            2 ^ shift = 2 * (v % 2 ^ shift) ∧ v / 2 ^ shift % 2 = 1 then v / 2 ^ shift + 1
        else v / 2 ^ shift
      | up => v / 2 ^ shift + 1
      | down => v / 2 ^ shift := if_neg h

theorem Rounding.shift_cases (dir : Rounding) (v shift : ℕ) :
    dir.shift v shift = v / 2 ^ shift ∨ dir.shift v shift = v / 2 ^ shift + 1 := by
  by_cases h : v % 2 ^ shift = 0
  · exact .inl (dir.shift_exact h)
  · rw [dir.shift_inexact h]
    cases dir with
    | nearest => exact (ite_eq_or_eq ..).symm
    | up => exact .inr rfl
    | down => exact .inl rfl

/-- The integer part of `v / 2 ^ shift`, made odd if bits are lost. -/
def oddShift (v shift : ℕ) : ℕ :=
  if v % 2 ^ shift ≠ 0 ∧ v / 2 ^ shift % 2 = 0 then v / 2 ^ shift + 1 else v / 2 ^ shift

theorem oddShift_exact {v shift : ℕ} (h : v % 2 ^ shift = 0) : oddShift v shift = v / 2 ^ shift :=
  if_neg fun hlost => hlost.1 h

theorem oddShift_cases {v shift : ℕ} (h : v % 2 ^ shift ≠ 0) :
    oddShift v shift % 2 = 1 ∧
      (oddShift v shift = v / 2 ^ shift ∨ oddShift v shift = v / 2 ^ shift + 1) := by
  rw [oddShift]
  split
  · next heven => omega
  · next hodd =>
    have hodd : ¬ v / 2 ^ shift % 2 = 0 := fun heven => hodd ⟨h, heven⟩
    omega

theorem le_oddShift (v shift : ℕ) : v / 2 ^ shift ≤ oddShift v shift := by
  rw [oddShift]
  split <;> omega

theorem oddShift_lt {v shift b : ℕ} (h : v / 2 ^ shift < 2 * b) : oddShift v shift < 2 * b := by
  rw [oddShift]
  split <;> omega

theorem oddShift_div (v shift : ℕ) {j : ℕ} (hj : 1 ≤ j) :
    oddShift v shift / 2 ^ j = v / 2 ^ shift / 2 ^ j := by
  obtain ⟨i, rfl⟩ := Nat.exists_eq_add_of_le hj
  have hhalf : oddShift v shift / 2 = v / 2 ^ shift / 2 := by
    rw [oddShift]
    split <;> omega
  rw [Nat.pow_add, ← Nat.div_div_eq_div_mul, ← Nat.div_div_eq_div_mul, Nat.pow_one, hhalf]

/-- Two bits more than the second rounding keeps are enough for the sticky information. -/
theorem Rounding.shift_oddShift (dir : Rounding) {v k j : ℕ} (hj : 2 ≤ j) :
    dir.shift (oddShift v k) j = dir.shift v (k + j) := by
  have hdiv : oddShift v k / 2 ^ j = v / 2 ^ (k + j) := by
    rw [oddShift_div v k (by omega), Nat.div_div_eq_div_mul, ← Nat.pow_add]
  have hmod : v % 2 ^ (k + j) = v % 2 ^ k + 2 ^ k * (v / 2 ^ k % 2 ^ j) := by
    rw [Nat.pow_add, Nat.mod_mul]
  obtain ⟨i, rfl⟩ := Nat.exists_eq_add_of_le hj
  have hj4 : 2 ^ (2 + i) = 4 * 2 ^ i := Nat.pow_add 2 2 i
  have hk : 0 < 2 ^ k := Nat.two_pow_pos k
  have hr : v % 2 ^ k < 2 ^ k := Nat.mod_lt _ hk
  by_cases hexact : v % 2 ^ k = 0
  · -- nothing is lost, and both remainders differ by a factor
    have hrem : v % 2 ^ (k + (2 + i)) = 2 ^ k * (oddShift v k % 2 ^ (2 + i)) := by
      rw [hmod, hexact, Nat.zero_add, oddShift_exact hexact]
    have hzero : oddShift v k % 2 ^ (2 + i) = 0 ↔ v % 2 ^ (k + (2 + i)) = 0 := by
      rw [hrem, Nat.mul_eq_zero, or_iff_right hk.ne']
    have hmore : 2 ^ (2 + i) < 2 * (oddShift v k % 2 ^ (2 + i)) ↔
        2 ^ (k + (2 + i)) < 2 * (v % 2 ^ (k + (2 + i))) := by
      rw [hrem, Nat.pow_add 2 k, Nat.mul_left_comm, Nat.mul_lt_mul_left hk]
    have htie : 2 ^ (2 + i) = 2 * (oddShift v k % 2 ^ (2 + i)) ↔
        2 ^ (k + (2 + i)) = 2 * (v % 2 ^ (k + (2 + i))) := by
      rw [hrem, Nat.pow_add 2 k, Nat.mul_left_comm, Nat.mul_right_inj hk.ne']
    simp only [Rounding.shift, hzero, hmore, htie, hdiv]
  · -- something is lost, so neither is exact or a tie
    obtain ⟨hodd, hcases⟩ := oddShift_cases hexact
    have hparity : oddShift v k % 2 ^ (2 + i) % 2 = 1 :=
      (Nat.mod_mod_of_dvd _ (Dvd.intro_left (2 * 2 ^ i) (by rw [hj4]; ring))).trans hodd
    have hlow := Nat.div_add_mod (oddShift v k) (2 ^ (2 + i))
    have hhigh := Nat.div_add_mod (v / 2 ^ k) (2 ^ (2 + i))
    rw [oddShift_div v k (by omega)] at hlow
    have hpos : v % 2 ^ (k + (2 + i)) ≠ 0 := by
      rw [hmod]
      exact fun h => hexact (Nat.eq_zero_of_add_eq_zero_right h)
    have hpos' : oddShift v k % 2 ^ (2 + i) ≠ 0 := fun h => by
      rw [h] at hparity
      exact absurd hparity (by decide)
    rw [dir.shift_inexact hpos', dir.shift_inexact hpos, hdiv]
    cases dir with
    | up => rfl
    | down => rfl
    | nearest =>
      have hwide : 2 ^ (k + (2 + i)) = 2 * (2 ^ k * (2 * 2 ^ i)) := by
        rw [Nat.pow_add 2 k, hj4]
        ring
      rw [hmod, hwide, hj4]
      rw [hj4] at hparity hlow hhigh
      generalize v / 2 ^ k % (4 * 2 ^ i) = q at *
      generalize oddShift v k % (4 * 2 ^ i) = p at *
      generalize 4 * 2 ^ i * (v / 2 ^ k / (4 * 2 ^ i)) = block at *
      rcases Nat.lt_or_ge q (2 * 2 ^ i) with h | h
      · have hle : 2 ^ k * (q + 1) ≤ 2 ^ k * (2 * 2 ^ i) := Nat.mul_le_mul_left _ h
        rw [Nat.mul_succ] at hle
        rw [if_neg (by omega), if_neg (by omega)]
      · have hle : 2 ^ k * (2 * 2 ^ i) ≤ 2 ^ k * q := Nat.mul_le_mul_left _ h
        rw [if_pos (.inl (by omega)), if_pos (.inl (by omega))]

/-- The width of the fraction and the least exponent. -/
structure FloatFormat where
  frac : ℕ
  emin : ℤ

namespace FloatFormat

variable (F : FloatFormat)

/-- The number with a given code. -/
def value (code : ℕ) : ℚ :=
  if code < 2 ^ F.frac then code * 2 ^ (F.emin - F.frac)
  else (2 ^ F.frac + code % 2 ^ F.frac : ℕ) *
    2 ^ (F.emin - F.frac + (code / 2 ^ F.frac - 1 : ℕ))

/-- The code `n` is `x` rounded. -/
def IsRounded (dir : Rounding) (x : ℚ) (n : ℕ) : Prop :=
  match dir with
  | .down => F.value n ≤ x ∧ ∀ m, F.value m ≤ x → F.value m ≤ F.value n
  | .up => x ≤ F.value n ∧ ∀ m, x ≤ F.value m → F.value n ≤ F.value m
  | .nearest => ∀ m, |x - F.value n| ≤ |x - F.value m| ∧
      (m ≠ n → |x - F.value m| = |x - F.value n| → n % 2 = 0)

/-- The code `n` is `x`, or `x` is no number and `n` is the odd one of its neighbours. -/
def IsRoundedOdd (x : ℚ) (n : ℕ) : Prop :=
  F.value n = x ∨
    (∀ m, F.value m ≠ x) ∧ n % 2 = 1 ∧ F.value (n - 1) < x ∧ x < F.value (n + 1)

/-- A significand of at most one bit too many, at an exponent `e` above the least. -/
theorem value_split {e j : ℕ} (hj : j ≤ 2 ^ (F.frac + 1)) (h : e = 0 ∨ 2 ^ F.frac ≤ j) :
    F.value (e * 2 ^ F.frac + j) = j * 2 ^ (F.emin - F.frac + e) := by
  have hpos : 0 < 2 ^ F.frac := Nat.two_pow_pos F.frac
  have htwo : 2 ^ (F.frac + 1) = 2 * 2 ^ F.frac := Nat.pow_succ'
  rw [value]
  by_cases hlow : j < 2 ^ F.frac
  · have hzero : e = 0 := h.resolve_right (Nat.not_le.2 hlow)
    subst hzero
    rw [Nat.zero_mul, Nat.zero_add, if_pos hlow, Nat.cast_zero, add_zero]
  · have hge : ¬ e * 2 ^ F.frac + j < 2 ^ F.frac := by
      have := Nat.zero_le (e * 2 ^ F.frac)
      omega
    rw [if_neg hge]
    by_cases hfull : j = 2 ^ (F.frac + 1)
    · have hcode : e * 2 ^ F.frac + j = (e + 2) * 2 ^ F.frac := by
        rw [hfull, htwo]
        ring
      rw [hcode, Nat.mul_mod_left, Nat.mul_div_cancel _ hpos, hfull, htwo]
      have hexp : F.emin - F.frac + ((e + 2 - 1 : ℕ) : ℤ) = F.emin - F.frac + e + 1 := by
        push_cast [Nat.add_sub_cancel]
        omega
      rw [hexp, zpow_add_one₀ (by norm_num)]
      push_cast
      ring
    · obtain ⟨r, hr⟩ := Nat.exists_eq_add_of_le (Nat.le_of_not_lt hlow)
      have hrlt : r < 2 ^ F.frac := by omega
      have hcode : e * 2 ^ F.frac + j = r + (e + 1) * 2 ^ F.frac := by
        rw [hr]
        ring
      rw [hcode, Nat.add_mul_mod_self_right, Nat.mod_eq_of_lt hrlt, Nat.add_mul_div_right _ _ hpos,
        Nat.div_eq_of_lt hrlt, Nat.zero_add, Nat.add_sub_cancel, hr]

/-- An integer of at most `frac` bits below its leading one. -/
theorem value_natCast {m k : ℕ} {e : ℤ} (hk : k ≤ F.frac) (hlo : 2 ^ k ≤ m) (hhi : m < 2 ^ (k + 1))
    (he : F.emin + e = k) (hpos : 0 ≤ e) :
    F.value (e.toNat * 2 ^ F.frac + m * 2 ^ (F.frac - k)) = m := by
  obtain ⟨d, hd⟩ := Nat.exists_eq_add_of_le hk
  have hsub : F.frac - k = d := by omega
  have hle : m * 2 ^ d ≤ 2 ^ (F.frac + 1) := by
    rw [hd, Nat.add_right_comm, Nat.pow_add]
    exact Nat.mul_le_mul_right _ hhi.le
  have hge : 2 ^ F.frac ≤ m * 2 ^ d := by
    rw [hd, Nat.pow_add]
    exact Nat.mul_le_mul_right _ hlo
  have hexp : F.emin - F.frac + (e.toNat : ℤ) = -(d : ℤ) := by omega
  rw [hsub, F.value_split hle (.inr hge), hexp, zpow_neg, zpow_natCast]
  push_cast
  rw [mul_assoc, mul_inv_cancel₀ (by positivity), mul_one]

theorem value_lt_succ (n : ℕ) : F.value n < F.value (n + 1) := by
  have hpos : 0 < 2 ^ F.frac := Nat.two_pow_pos F.frac
  have htwo : 2 ^ (F.frac + 1) = 2 * 2 ^ F.frac := Nat.pow_succ'
  -- the block of the code, and the significand in it
  obtain ⟨e, j, hn, hj, h⟩ : ∃ e j, n = e * 2 ^ F.frac + j ∧ j + 1 ≤ 2 ^ (F.frac + 1) ∧
      (e = 0 ∨ 2 ^ F.frac ≤ j) := by
    have hmod := Nat.mod_lt n hpos
    have hdiv := Nat.div_add_mod' n (2 ^ F.frac)
    by_cases hzero : n / 2 ^ F.frac = 0
    · refine ⟨0, n, by omega, ?_, .inl rfl⟩
      rw [hzero] at hdiv
      omega
    · obtain ⟨e, he⟩ := Nat.exists_eq_succ_of_ne_zero hzero
      refine ⟨e, 2 ^ F.frac + n % 2 ^ F.frac, ?_, by omega, .inr (Nat.le_add_right ..)⟩
      rw [he, Nat.succ_mul] at hdiv
      omega
  rw [hn, Nat.add_assoc, F.value_split (by omega) h,
    F.value_split hj (h.imp_right fun hle => by omega)]
  push_cast
  have hq : (0 : ℚ) < 2 ^ (F.emin - F.frac + (e : ℤ)) := by positivity
  linarith

theorem value_strictMono : StrictMono F.value := strictMono_nat_of_lt_succ F.value_lt_succ

theorem value_zero : F.value 0 = 0 := by
  rw [value, if_pos (Nat.two_pow_pos _), Nat.cast_zero, zero_mul]

/-- One of the first `finite` numbers. -/
def Representable (finite : ℕ) (x : ℚ) : Prop := ∃ m < finite, F.value m = x

/-! ## Rounding between two neighbours -/

variable {F} {x : ℚ} {n : ℕ}

theorem isRounded_exact (dir : Rounding) (h : F.value n = x) : F.IsRounded dir x n := by
  cases dir with
  | nearest =>
    intro m
    rw [h, sub_self, abs_zero]
    refine ⟨abs_nonneg _, fun hne heq => absurd ?_ hne⟩
    have hm : x - F.value m = 0 := abs_eq_zero.1 heq
    exact F.value_strictMono.injective (by linarith)
  | up => exact ⟨h.ge, fun m hm => h.le.trans hm⟩
  | down => exact ⟨h.le, fun m hm => hm.trans h.ge⟩

theorem le_or_ge (m : ℕ) : F.value m ≤ F.value n ∨ F.value (n + 1) ≤ F.value m := by
  rcases Nat.lt_or_ge n m with h | h
  · exact .inr (F.value_strictMono.monotone h)
  · exact .inl (F.value_strictMono.monotone h)

theorem IsRounded.eq_of_value {dir : Rounding} {m : ℕ} (h : F.IsRounded dir x n)
    (hm : F.value m = x) : F.value n = x := by
  subst hm
  cases dir with
  | nearest =>
    have hle := (h m).1
    rw [sub_self, abs_zero] at hle
    linarith [abs_nonpos_iff.1 hle]
  | up => exact le_antisymm (h.2 m le_rfl) h.1
  | down => exact le_antisymm h.1 (h.2 m le_rfl)

theorem IsRounded.representable_iff {dir : Rounding} {finite : ℕ} (h : F.IsRounded dir x n) :
    F.Representable finite x ↔ n < finite ∧ F.value n = x := by
  constructor
  · rintro ⟨m, hm, heq⟩
    have hn := h.eq_of_value heq
    have hmn : m = n := F.value_strictMono.injective (heq.trans hn.symm)
    exact ⟨hmn ▸ hm, hn⟩
  · exact fun hn => ⟨n, hn⟩

theorem IsRounded.le_of_value_le {dir : Rounding} {m : ℕ} (h : F.IsRounded dir x n)
    (hm : F.value m ≤ x) : m ≤ n := by
  by_contra hlt
  have hvalue := F.value_strictMono (Nat.lt_of_not_le hlt)
  cases dir with
  | nearest =>
    have hle := (h m).1
    rw [abs_of_nonneg (by linarith), abs_of_nonneg (by linarith)] at hle
    linarith
  | up => linarith [h.1]
  | down => linarith [h.2 m hm]

theorem IsRounded.unique {dir : Rounding} {m : ℕ} (hn : F.IsRounded dir x n)
    (hm : F.IsRounded dir x m) : n = m := by
  cases dir with
  | nearest =>
    by_contra hne
    wlog hlt : n < m generalizing n m
    · exact this hm hn (Ne.symm hne) (by omega)
    have heq : |x - F.value m| = |x - F.value n| := le_antisymm (hm n).1 (hn m).1
    have heven := (hn m).2 (Ne.symm hne) heq
    have heven' := (hm n).2 hne heq.symm
    -- both are even, so there is a number between them, which is closer
    have hlow := F.value_strictMono (Nat.lt_succ_self n)
    have hhigh := F.value_strictMono (show n + 1 < m by omega)
    have hclose := (hn (n + 1)).1
    have hclose' := (hm (n + 1)).1
    rcases abs_cases (x - F.value (n + 1)) with h | h <;>
      rcases abs_cases (x - F.value n) with h' | h' <;>
      rcases abs_cases (x - F.value m) with h'' | h'' <;> linarith
  | up => exact F.value_strictMono.injective (le_antisymm (hn.2 m hm.1) (hm.2 n hn.1))
  | down => exact F.value_strictMono.injective (le_antisymm (hm.2 n hn.1) (hn.2 m hm.1))

section Between

variable (hlo : F.value n < x) (hhi : x < F.value (n + 1))
include hlo hhi

theorem isRounded_down : F.IsRounded .down x n := by
  refine ⟨hlo.le, fun m hm => ?_⟩
  rcases le_or_ge (F := F) (n := n) m with h | h
  · exact h
  · linarith

theorem isRounded_up : F.IsRounded .up x (n + 1) := by
  refine ⟨hhi.le, fun m hm => ?_⟩
  rcases le_or_ge (F := F) (n := n) m with h | h
  · linarith
  · exact h

/-- The distance to any number is one of the two to the neighbours, or larger. -/
theorem distance_cases (m : ℕ) :
    m = n ∨ m = n + 1 ∨ x - F.value n < |x - F.value m| ∨
      F.value (n + 1) - x < |x - F.value m| := by
  rcases Nat.lt_trichotomy m n with h | h | h
  · have hlt := F.value_strictMono h
    refine .inr (.inr (.inl ?_))
    rw [abs_of_pos (by linarith)]
    linarith
  · exact .inl h
  · rcases Nat.lt_or_eq_of_le h with h | h
    · have hlt := F.value_strictMono h
      refine .inr (.inr (.inr ?_))
      rw [abs_of_neg (by linarith)]
      linarith
    · exact .inr (.inl h.symm)

theorem isRounded_nearest_lower (h : x - F.value n < F.value (n + 1) - x ∨
    x - F.value n = F.value (n + 1) - x ∧ n % 2 = 0) : F.IsRounded .nearest x n := by
  intro m
  have habs : |x - F.value n| = x - F.value n := abs_of_pos (by linarith)
  have hnext : |x - F.value (n + 1)| = F.value (n + 1) - x := by
    rw [abs_of_neg (by linarith)]
    ring
  have hle : x - F.value n ≤ F.value (n + 1) - x := h.elim le_of_lt fun heq => heq.1.le
  rw [habs]
  rcases distance_cases hlo hhi m with rfl | rfl | hm | hm
  · exact ⟨habs.ge, fun hne => absurd rfl hne⟩
  · rw [hnext]
    refine ⟨hle, fun _ heq => ?_⟩
    rcases h with hlt | ⟨-, heven⟩
    · exact absurd heq hlt.ne'
    · exact heven
  · exact ⟨hm.le, fun _ heq => absurd heq hm.ne'⟩
  · exact ⟨hle.trans hm.le, fun _ heq => absurd heq (hle.trans_lt hm).ne'⟩

theorem isRounded_nearest_upper (h : F.value (n + 1) - x < x - F.value n ∨
    F.value (n + 1) - x = x - F.value n ∧ (n + 1) % 2 = 0) : F.IsRounded .nearest x (n + 1) := by
  intro m
  have habs : |x - F.value n| = x - F.value n := abs_of_pos (by linarith)
  have hnext : |x - F.value (n + 1)| = F.value (n + 1) - x := by
    rw [abs_of_neg (by linarith)]
    ring
  have hle : F.value (n + 1) - x ≤ x - F.value n := h.elim le_of_lt fun heq => heq.1.le
  rw [hnext]
  rcases distance_cases hlo hhi m with rfl | rfl | hm | hm
  · rw [habs]
    refine ⟨hle, fun _ heq => ?_⟩
    rcases h with hlt | ⟨-, heven⟩
    · exact absurd heq hlt.ne'
    · exact heven
  · exact ⟨hnext.ge, fun hne => absurd rfl hne⟩
  · exact ⟨hle.trans hm.le, fun _ heq => absurd heq (hle.trans_lt hm).ne'⟩
  · exact ⟨hm.le, fun _ heq => absurd heq hm.ne'⟩

/-- Between neighbours `modulus` units apart, `remainder` units above the lower. -/
theorem isRounded_nearest {unit : ℚ} {remainder modulus : ℕ} (hunit : 0 < unit)
    (hbelow : x = F.value n + remainder * unit)
    (habove : F.value (n + 1) = F.value n + modulus * unit) : F.IsRounded .nearest x
      (if modulus < 2 * remainder ∨ modulus = 2 * remainder ∧ n % 2 = 1 then n + 1 else n) := by
  have hgap : F.value (n + 1) - x - (x - F.value n) = (modulus - 2 * remainder) * unit := by
    linarith
  split_ifs with hup
  · refine isRounded_nearest_upper hlo hhi ?_
    rcases hup with hmore | ⟨htie, hodd⟩
    · have hcast : (modulus : ℚ) < 2 * remainder := by exact_mod_cast hmore
      have := mul_neg_of_neg_of_pos (sub_neg.2 hcast) hunit
      exact .inl (by linarith)
    · have hcast : (modulus : ℚ) = 2 * remainder := by exact_mod_cast htie
      rw [hcast, sub_self, zero_mul] at hgap
      exact .inr ⟨by linarith, by omega⟩
  · refine isRounded_nearest_lower hlo hhi ?_
    rcases Nat.lt_trichotomy modulus (2 * remainder) with hmore | htie | hless
    · exact absurd (.inl hmore) hup
    · have hcast : (modulus : ℚ) = 2 * remainder := by exact_mod_cast htie
      have heven : ¬ n % 2 = 1 := fun hodd => hup (.inr ⟨htie, hodd⟩)
      rw [hcast, sub_self, zero_mul] at hgap
      exact .inr ⟨by linarith, by omega⟩
    · have hcast : 2 * (remainder : ℚ) < modulus := by exact_mod_cast hless
      have := mul_pos (sub_pos.2 hcast) hunit
      exact .inl (by linarith)

end Between

/-! ## Rounding a scaled integer -/

theorem unit_eq (F : FloatFormat) (e shift : ℕ) : (2 : ℚ) ^ (F.emin - F.frac + (e : ℤ)) =
    2 ^ shift * 2 ^ (F.emin - F.frac + (e : ℤ) - shift) := by
  rw [← zpow_natCast, ← zpow_add₀ two_ne_zero]
  congr 1
  ring

section Scaled

variable {v shift e : ℕ} (hx : x = v * 2 ^ (F.emin - F.frac + e - shift))
  (hlo : e = 0 ∨ 2 ^ F.frac ≤ v / 2 ^ shift) (hhi : v / 2 ^ shift < 2 ^ (F.frac + 1))
include hlo hhi

theorem value_quotient_succ : F.value (e * 2 ^ F.frac + v / 2 ^ shift + 1) =
    F.value (e * 2 ^ F.frac + v / 2 ^ shift) + 2 ^ shift * 2 ^ (F.emin - F.frac + e - shift) := by
  rw [Nat.add_assoc, F.value_split hhi (hlo.imp_right Nat.le_succ_of_le),
    F.value_split hhi.le hlo, ← F.unit_eq]
  push_cast
  ring

include hx

/-- What the quotient leaves of `x`. -/
theorem value_quotient : x = F.value (e * 2 ^ F.frac + v / 2 ^ shift) +
    (v % 2 ^ shift : ℕ) * 2 ^ (F.emin - F.frac + e - shift) := by
  have hv : (v : ℚ) = (v / 2 ^ shift : ℕ) * 2 ^ shift + (v % 2 ^ shift : ℕ) := by
    exact_mod_cast (Nat.div_add_mod' v (2 ^ shift)).symm
  rw [F.value_split hhi.le hlo, F.unit_eq e shift, hx, ← mul_assoc, ← add_mul, ← hv]

theorem isRounded_shift (hp : 0 < F.frac) (dir : Rounding) :
    F.IsRounded dir x (e * 2 ^ F.frac + dir.shift v shift) := by
  have hunit : (0 : ℚ) < 2 ^ (F.emin - F.frac + (e : ℤ) - shift) := by positivity
  have hquot := value_quotient hx hlo hhi
  have hsucc := value_quotient_succ (F := F) hlo hhi
  have hrem : v % 2 ^ shift < 2 ^ shift := Nat.mod_lt _ (Nat.two_pow_pos shift)
  by_cases hzero : v % 2 ^ shift = 0
  · rw [dir.shift_exact hzero]
    refine isRounded_exact dir ?_
    rw [hquot, hzero, Nat.cast_zero, zero_mul, add_zero]
  · -- `x` is strictly between two neighbours, at distances in the ratio of the remainder
    have hpos : (0 : ℚ) < (v % 2 ^ shift : ℕ) := Nat.cast_pos.2 (Nat.pos_of_ne_zero hzero)
    have hlt : ((v % 2 ^ shift : ℕ) : ℚ) < 2 ^ shift := by exact_mod_cast hrem
    have hbelow := mul_pos hpos hunit
    have habove := mul_lt_mul_of_pos_right hlt hunit
    have hparity : (e * 2 ^ F.frac + v / 2 ^ shift) % 2 = v / 2 ^ shift % 2 := by
      obtain ⟨p, hfrac⟩ := Nat.exists_eq_succ_of_ne_zero hp.ne'
      rw [hfrac, Nat.pow_succ, ← Nat.mul_assoc, Nat.mul_add_mod_self_right]
    rw [dir.shift_inexact hzero]
    generalize v / 2 ^ shift = q at *
    generalize v % 2 ^ shift = r at *
    generalize e * 2 ^ F.frac = block at *
    generalize (2 : ℚ) ^ (F.emin - F.frac + (e : ℤ) - shift) = unit at *
    have hlower : F.value (block + q) < x := by linarith
    have hupper : x < F.value (block + q + 1) := by linarith
    cases dir with
    | down => exact isRounded_down hlower hupper
    | up => exact isRounded_up hlower hupper
    | nearest =>
      have hcast : F.value (block + q + 1) = F.value (block + q) + (2 ^ shift : ℕ) * unit := by
        exact_mod_cast hsucc
      have hnearest := isRounded_nearest hlower hupper hunit hquot hcast
      rw [hparity] at hnearest
      rwa [add_ite, ← Nat.add_assoc]

theorem value_shift_iff (dir : Rounding) :
    F.value (e * 2 ^ F.frac + dir.shift v shift) = x ↔ v % 2 ^ shift = 0 := by
  have hunit : (0 : ℚ) < 2 ^ (F.emin - F.frac + (e : ℤ) - shift) := by positivity
  have hquot := value_quotient hx hlo hhi
  constructor
  · intro heq
    rcases dir.shift_cases v shift with hdown | hup
    · rw [hdown] at heq
      have hzero : ((v % 2 ^ shift : ℕ) : ℚ) * 2 ^ (F.emin - F.frac + (e : ℤ) - shift) = 0 := by
        linarith
      exact_mod_cast (mul_eq_zero.1 hzero).resolve_right hunit.ne'
    · have hlt : ((v % 2 ^ shift : ℕ) : ℚ) < 2 ^ shift := by
        exact_mod_cast Nat.mod_lt v (Nat.two_pow_pos shift)
      rw [hup, ← Nat.add_assoc, value_quotient_succ hlo hhi] at heq
      have := mul_lt_mul_of_pos_right hlt hunit
      linarith
  · intro hzero
    rw [dir.shift_exact hzero, hquot, hzero, Nat.cast_zero, zero_mul, add_zero]

omit hx in
theorem value_oddShift : F.value (e * 2 ^ F.frac + oddShift v shift) =
    oddShift v shift * 2 ^ (F.emin - F.frac + e) := by
  have hle := le_oddShift v shift
  refine F.value_split ?_ (hlo.imp_right hle.trans')
  rw [oddShift]
  split <;> omega

theorem isRoundedOdd_shift (hp : 0 < F.frac) :
    F.IsRoundedOdd x (e * 2 ^ F.frac + oddShift v shift) := by
  have hunit : (0 : ℚ) < 2 ^ (F.emin - F.frac + (e : ℤ) - shift) := by positivity
  have hquot := value_quotient hx hlo hhi
  have hsucc := value_quotient_succ (F := F) hlo hhi
  by_cases hzero : v % 2 ^ shift = 0
  · rw [oddShift_exact hzero]
    refine .inl ?_
    rw [hquot, hzero, Nat.cast_zero, zero_mul, add_zero]
  · have hpos : (0 : ℚ) < (v % 2 ^ shift : ℕ) := Nat.cast_pos.2 (Nat.pos_of_ne_zero hzero)
    have hlt : ((v % 2 ^ shift : ℕ) : ℚ) < 2 ^ shift := by
      exact_mod_cast Nat.mod_lt v (Nat.two_pow_pos shift)
    have hbelow := mul_pos hpos hunit
    have habove := mul_lt_mul_of_pos_right hlt hunit
    have hblock : e * 2 ^ F.frac % 2 = 0 := by
      obtain ⟨p, hfrac⟩ := Nat.exists_eq_succ_of_ne_zero hp.ne'
      rw [hfrac, Nat.pow_succ, ← Nat.mul_assoc, Nat.mul_mod_left]
    obtain ⟨hodd, hcases⟩ := oddShift_cases hzero
    generalize oddShift v shift = q' at *
    generalize v / 2 ^ shift = q at *
    generalize e * 2 ^ F.frac = block at *
    have hlower : F.value (block + q) < x := by linarith
    have hupper : x < F.value (block + q + 1) := by linarith
    refine .inr ⟨fun m hm => ?_, by omega, ?_, ?_⟩
    · rcases le_or_ge (F := F) (n := block + q) m with h | h <;> linarith
    · exact (F.value_strictMono.monotone (show block + q' - 1 ≤ block + q by omega)).trans_lt hlower
    · exact hupper.trans_le (F.value_strictMono.monotone (by omega))

end Scaled

/-! ## Rounding a significand -/

section Significand

variable (F) (fracBits significand : ℕ) (exponent : ℤ)

/-- The low bits of a significand of `fracBits` fraction bits that have no place. -/
def dropped : ℕ := fracBits - F.frac + (F.emin - exponent).toNat

/-- The code of a rounded significand. -/
def narrow (dir : Rounding) : ℕ :=
  (exponent - F.emin).toNat * 2 ^ F.frac + dir.shift significand (F.dropped fracBits exponent)

variable {F fracBits significand exponent}
variable (hfrac : F.frac ≤ fracBits) (hlo : 2 ^ fracBits ≤ significand)
  (hhi : significand < 2 ^ (fracBits + 1))
include hlo hhi

theorem tiny_iff : (significand * 2 ^ (exponent - fracBits) : ℚ) < 2 ^ F.emin ↔
    exponent < F.emin := by
  have hunit : (0 : ℚ) < 2 ^ (exponent - (fracBits : ℤ)) := by positivity
  have hbase : (2 : ℚ) ^ fracBits * 2 ^ (exponent - (fracBits : ℤ)) = 2 ^ exponent := by
    rw [← zpow_natCast, ← zpow_add₀ two_ne_zero]
    congr 1
    ring
  have hge : (2 : ℚ) ^ exponent ≤ significand * 2 ^ (exponent - (fracBits : ℤ)) := by
    rw [← hbase]
    exact mul_le_mul_of_nonneg_right (by exact_mod_cast hlo) hunit.le
  have hlt : significand * 2 ^ (exponent - (fracBits : ℤ)) < (2 : ℚ) ^ (exponent + 1) := by
    rw [zpow_add_one₀ two_ne_zero, ← hbase, mul_right_comm, ← pow_succ]
    exact mul_lt_mul_of_pos_right (by exact_mod_cast hhi) hunit
  constructor
  · intro h
    exact (zpow_lt_zpow_iff_right₀ one_lt_two).1 (hge.trans_lt h)
  · intro h
    exact hlt.trans_le ((zpow_le_zpow_iff_right₀ one_lt_two).2 h)

include hfrac

omit hhi in
theorem le_quotient (h : F.emin ≤ exponent) :
    2 ^ F.frac ≤ significand / 2 ^ F.dropped fracBits exponent := by
  have hexact : F.dropped fracBits exponent = fracBits - F.frac := by
    rw [dropped]
    omega
  rw [hexact, Nat.le_div_iff_mul_le (Nat.two_pow_pos _), ← Nat.pow_add, Nat.add_sub_cancel' hfrac]
  exact hlo

theorem quotient_bounds :
    ((exponent - F.emin).toNat = 0 ∨
      2 ^ F.frac ≤ significand / 2 ^ F.dropped fracBits exponent) ∧
    significand / 2 ^ F.dropped fracBits exponent < 2 ^ (F.frac + 1) := by
  constructor
  · rcases Int.lt_or_le exponent F.emin with h | h
    · exact .inl (by omega)
    · exact .inr (le_quotient hfrac hlo h)
  · rw [Nat.div_lt_iff_lt_mul (Nat.two_pow_pos _), ← Nat.pow_add]
    refine hhi.trans_le (Nat.pow_le_pow_right Nat.two_pos ?_)
    rw [dropped]
    omega

omit hlo hhi in
theorem significand_scaled : (significand * 2 ^ (exponent - fracBits) : ℚ) =
    significand * 2 ^ (F.emin - F.frac + (exponent - F.emin).toNat -
      (F.dropped fracBits exponent : ℕ)) := by
  congr 2
  rw [dropped]
  omega

theorem isRounded_narrow (hp : 0 < F.frac) (dir : Rounding) :
    F.IsRounded dir (significand * 2 ^ (exponent - fracBits))
      (F.narrow fracBits significand exponent dir) := by
  obtain ⟨hlow, hhigh⟩ := quotient_bounds hfrac hlo hhi
  exact isRounded_shift (significand_scaled hfrac) hlow hhigh hp dir

theorem value_narrow_iff (dir : Rounding) :
    F.value (F.narrow fracBits significand exponent dir) =
      significand * 2 ^ (exponent - fracBits) ↔
        significand % 2 ^ F.dropped fracBits exponent = 0 := by
  obtain ⟨hlow, hhigh⟩ := quotient_bounds hfrac hlo hhi
  exact value_shift_iff (significand_scaled hfrac) hlow hhigh dir

theorem shift_dropped_le (dir : Rounding) :
    dir.shift significand (F.dropped fracBits exponent) ≤ 2 ^ (F.frac + 1) := by
  have hhigh : significand / 2 ^ F.dropped fracBits exponent < 2 ^ (F.frac + 1) :=
    (quotient_bounds hfrac hlo hhi).2
  rcases dir.shift_cases significand (F.dropped fracBits exponent) with h | h <;> omega

omit hhi in
theorem le_shift_dropped (h : F.emin ≤ exponent) (dir : Rounding) :
    2 ^ F.frac ≤ dir.shift significand (F.dropped fracBits exponent) := by
  have hquot := le_quotient hfrac hlo h
  rcases dir.shift_cases significand (F.dropped fracBits exponent) with hs | hs <;> omega

omit hlo in
theorem shift_dropped_le_of_tiny (h : exponent < F.emin) (dir : Rounding) :
    dir.shift significand (F.dropped fracBits exponent) ≤ 2 ^ F.frac := by
  have hquot : significand / 2 ^ F.dropped fracBits exponent < 2 ^ F.frac := by
    rw [Nat.div_lt_iff_lt_mul (Nat.two_pow_pos _), ← Nat.pow_add]
    refine hhi.trans_le (Nat.pow_le_pow_right Nat.two_pos ?_)
    rw [dropped]
    omega
  rcases dir.shift_cases significand (F.dropped fracBits exponent) with h | h <;> omega

omit hhi in
theorem le_narrow (h : F.emin ≤ exponent) (dir : Rounding) :
    ((exponent - F.emin).toNat + 1) * 2 ^ F.frac ≤
      F.narrow fracBits significand exponent dir := by
  rw [narrow, Nat.succ_mul]
  exact Nat.add_le_add_left (le_shift_dropped hfrac hlo h dir) _

/-! ## Rounding twice -/

variable (F fracBits significand exponent) in
omit hfrac hlo hhi in
/-- The code of a significand rounded to odd. -/
def narrowOdd : ℕ :=
  (exponent - F.emin).toNat * 2 ^ F.frac + oddShift significand (F.dropped fracBits exponent)

theorem isRoundedOdd_narrowOdd (hp : 0 < F.frac) :
    F.IsRoundedOdd (significand * 2 ^ (exponent - fracBits))
      (F.narrowOdd fracBits significand exponent) := by
  obtain ⟨hlow, hhigh⟩ := quotient_bounds hfrac hlo hhi
  exact isRoundedOdd_shift (significand_scaled hfrac) hlow hhigh hp

/-- A number rounded to odd in a format two bits wider rounds as the number itself. -/
theorem isRounded_narrowOdd {G : FloatFormat} (hp : 0 < G.frac) (hwider : G.frac + 2 ≤ F.frac)
    (hemin : F.emin ≤ G.emin) (dir : Rounding) {n : ℕ} :
    G.IsRounded dir (F.value (F.narrowOdd fracBits significand exponent)) n ↔
      G.IsRounded dir (significand * 2 ^ (exponent - fracBits)) n := by
  have hfrac' : G.frac ≤ fracBits := by omega
  obtain ⟨j, hj⟩ : ∃ j, G.dropped fracBits exponent = F.dropped fracBits exponent + j ∧ 2 ≤ j :=
    ⟨G.dropped fracBits exponent - F.dropped fracBits exponent, by
      rw [dropped, dropped]
      omega⟩
  obtain ⟨hlow, hhigh⟩ := quotient_bounds hfrac hlo hhi (F := F)
  obtain ⟨hlow', hhigh'⟩ := quotient_bounds hfrac' hlo hhi
  have hdiv : oddShift significand (F.dropped fracBits exponent) / 2 ^ j =
      significand / 2 ^ G.dropped fracBits exponent := by
    rw [oddShift_div _ _ (by omega), Nat.div_div_eq_div_mul, ← Nat.pow_add, hj.1]
  have hscale : F.value (F.narrowOdd fracBits significand exponent) =
      oddShift significand (F.dropped fracBits exponent) *
        2 ^ (G.emin - G.frac + (exponent - G.emin).toNat - (j : ℕ)) := by
    rw [narrowOdd, value_oddShift hlow hhigh]
    congr 2
    rw [dropped, dropped] at hj
    omega
  have htwice := isRounded_shift hscale (by rwa [hdiv]) (by rwa [hdiv]) hp dir
  rw [dir.shift_oddShift hj.2, ← hj.1] at htwice
  have honce : G.IsRounded dir (significand * 2 ^ (exponent - fracBits))
      (G.narrow fracBits significand exponent dir) := isRounded_narrow hfrac' hlo hhi hp dir
  exact ⟨fun h => h.unique htwice ▸ honce, fun h => h.unique honce ▸ htwice⟩

end Significand

end FloatFormat
end Aarchvm.Lib
