import Mathlib.Data.Nat.Bitwise
import Mathlib.Logic.Function.Iterate

/-!
# Division of polynomials by shifting

One step of a shift register whose lowest bit selects the divisor. The steps are linear, so
dividend bits may be added all at once or only when they reach the bottom.
-/
namespace Aarchvm.Lib

/-- One step: the lowest bit leaves, and takes the divisor with it. -/
def lfsr (p x : Nat) : Nat := x >>> 1 ^^^ if x.testBit 0 then p else 0

variable {p : Nat}

theorem lfsr_testBit (x i : Nat) :
    (lfsr p x).testBit i = ((x.testBit (i + 1)) ^^ (x.testBit 0 && p.testBit i)) := by
  rw [lfsr, Nat.testBit_xor, Nat.testBit_shiftRight, Nat.add_comm 1 i]
  cases x.testBit 0 with
  | true => rfl
  | false =>
    rw [if_neg Bool.false_ne_true, Nat.zero_testBit]
    rfl

/-- Bits that have not reached the bottom only move down. -/
theorem lfsr_xor_shift (x y : Nat) : lfsr p (x ^^^ y <<< 1) = lfsr p x ^^^ y := by
  apply Nat.eq_of_testBit_eq
  intro i
  have hlow : (y <<< 1).testBit 0 = false := by
    rw [Nat.testBit_shiftLeft]
    rfl
  have hup : (y <<< 1).testBit (i + 1) = y.testBit i := by
    rw [Nat.testBit_shiftLeft, decide_eq_true (by omega), Bool.true_and]
    rfl
  rw [Nat.testBit_xor, lfsr_testBit, lfsr_testBit, Nat.testBit_xor, Nat.testBit_xor, hlow, hup,
    Bool.xor_false]
  cases x.testBit (i + 1) <;> cases y.testBit i <;> cases x.testBit 0 <;> cases p.testBit i <;> rfl

theorem iterate_lfsr_xor_shift (n x y : Nat) :
    (lfsr p)^[n] (x ^^^ y <<< n) = (lfsr p)^[n] x ^^^ y := by
  induction n generalizing x with
  | zero => rfl
  | succ n ih =>
    have hstep : lfsr p (x ^^^ y <<< (n + 1)) = lfsr p x ^^^ y <<< n := by
      rw [Nat.shiftLeft_add]
      exact lfsr_xor_shift x (y <<< n)
    rw [Function.iterate_succ_apply, Function.iterate_succ_apply, hstep, ih]

/-- A dividend of `m + n` bits: the upper ones may be added after `n` steps. -/
theorem iterate_lfsr_split (x y m n : Nat) :
    (lfsr p)^[n + m] (x ^^^ y) =
      (lfsr p)^[m] ((lfsr p)^[n] (x ^^^ y % 2 ^ n) ^^^ y >>> n) := by
  have hsplit : y = y % 2 ^ n ^^^ (y >>> n) <<< n := by
    apply Nat.eq_of_testBit_eq
    intro i
    rw [Nat.testBit_xor, Nat.testBit_mod_two_pow, Nat.testBit_shiftLeft, Nat.testBit_shiftRight]
    by_cases hi : i < n
    · rw [decide_eq_true hi, decide_eq_false (by omega), Bool.true_and, Bool.false_and,
        Bool.xor_false]
    · rw [decide_eq_false hi, decide_eq_true (by omega), Bool.false_and, Bool.true_and,
        Bool.false_xor, Nat.add_sub_cancel' (by omega)]
  have hfirst : (lfsr p)^[n] (x ^^^ y) = (lfsr p)^[n] (x ^^^ y % 2 ^ n) ^^^ y >>> n := by
    rw [← iterate_lfsr_xor_shift, Nat.xor_assoc, ← hsplit]
  rw [Nat.add_comm, Function.iterate_add_apply, hfirst]

end Aarchvm.Lib
