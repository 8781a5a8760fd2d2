import Aarchvm.Cpu.DataProcessing
import Aarchvm.Lib.Lfsr
import Mathlib.Data.List.Basic

/-!
# Checksums

The pseudocode divides a reversed polynomial from its top bit down; the program divides
byte by byte from the lowest bit up. Both are the same number of register steps.
-/
namespace Aarchvm

open Lib

namespace A64

/-- The dividend that is left, lowest bit first. -/
theorem poly32Mod2_reverse {w : Nat} (poly : U32) (data : BitVec w) (n s : Nat)
    (hw : n + 32 ≤ w)
    (h : ∀ i, s.testBit i = (decide (i < n + 32) && data.getLsbD (n + 31 - i))) :
    (poly32Mod2 poly data n).reverse.toNat = (lfsr poly.reverse.toNat)^[n] s := by
  induction n generalizing data s with
  | zero =>
    apply Nat.eq_of_testBit_eq
    intro i
    rw [poly32Mod2, ← BitVec.getLsbD, BitVec.getLsbD_reverse, BitVec.getMsbD,
      BitVec.getLsbD_setWidth, Function.iterate_zero, id, h]
    by_cases hi : i < 32
    · simp [hi]
      omega
    · simp [hi]
  | succ n ih =>
    rw [poly32Mod2, Function.iterate_succ_apply]
    refine ih _ _ (by omega) fun i => ?_
    have hlow : s.testBit 0 = data.getLsbD (n + 32) := by
      rw [h, decide_eq_true (by omega), Bool.true_and]
      rfl
    have hup : s.testBit (i + 1) = (decide (i < n + 32) && data.getLsbD (n + 31 - i)) := by
      rw [h]
      have hlt : i + 1 < n + 1 + 32 ↔ i < n + 32 := by omega
      have hindex : n + 1 + 31 - (i + 1) = n + 31 - i := by omega
      rw [hindex]
      simp only [hlt]
    rw [lfsr_testBit, hlow, hup]
    cases hbit : data.getLsbD (n + 32) with
    | false => simp
    | true =>
      have hpoly : poly.reverse.toNat.testBit i = (decide (i < 32) && poly.getLsbD (31 - i)) := by
        rw [← BitVec.getLsbD, BitVec.getLsbD_reverse, BitVec.getMsbD]
      rw [Bool.true_and, hpoly, if_pos rfl, BitVec.getLsbD_xor, BitVec.getLsbD_shiftLeft,
        BitVec.getLsbD_setWidth]
      by_cases hi : i < 32
      · have hin : n + 31 - i < w := by omega
        have hpos : ¬ n + 31 - i < n := by omega
        have hpos' : 31 - i < w := by omega
        have hindex : n + 31 - i - n = 31 - i := by omega
        have hout : i < n + 32 := by omega
        simp [hin, hpos, hindex, hpos', hi, hout]
      · by_cases hout : i < n + 32
        · have hpos : n + 31 - i < n := by omega
          simp [hi, hout, hpos]
        · simp [hi, hout]

/-- A reversed value at the top, read from the top. -/
theorem getLsbD_reverse_shiftLeft {n w m i : Nat} (x : BitVec n) (hw : w = n + m) (hi : i < w) :
    (x.reverse.setWidth w <<< m).getLsbD (w - 1 - i) = x.getLsbD i := by
  have hin : w - 1 - i < w := by omega
  rw [BitVec.getLsbD_shiftLeft, BitVec.getLsbD_setWidth, BitVec.getLsbD_reverse, BitVec.getMsbD,
    decide_eq_true hin, Bool.true_and]
  by_cases hlow : i < n
  · have hm : ¬ w - 1 - i < m := by omega
    have hrest : w - 1 - i - m < w := by omega
    have hrest' : w - 1 - i - m < n := by omega
    have hindex : n - 1 - (w - 1 - i - m) = i := by omega
    rw [decide_eq_false hm, decide_eq_true hrest, decide_eq_true hrest', hindex]
    simp only [Bool.not_false, Bool.true_and]
  · have hm : w - 1 - i < m := by omega
    rw [decide_eq_true hm, BitVec.getLsbD_of_ge x i (by omega), Bool.not_true, Bool.false_and]

/-- A checksum is register steps over the accumulator and the value together. -/
theorem crc32_toNat (acc : U32) {size : Nat} (value : BitVec size) (poly : U32) :
    (crc32 acc value poly).toNat =
      (lfsr poly.reverse.toNat)^[size] (acc.toNat ^^^ value.toNat) := by
  rw [crc32]
  refine poly32Mod2_reverse poly _ size _ (Nat.le_refl _) fun i => ?_
  rw [Nat.testBit_xor, ← BitVec.getLsbD, ← BitVec.getLsbD]
  by_cases hi : i < size + 32
  · rw [decide_eq_true hi, Bool.true_and]
    have hacc := getLsbD_reverse_shiftLeft acc (Nat.add_comm size 32) hi
    have hvalue := getLsbD_reverse_shiftLeft value rfl hi
    have hindex : size + 32 - 1 - i = size + 31 - i := by omega
    rw [hindex] at hacc hvalue
    rw [BitVec.getLsbD_xor, hacc, hvalue]
  · rw [decide_eq_false hi, Bool.false_and, BitVec.getLsbD_of_ge _ _ (by omega),
      BitVec.getLsbD_of_ge _ _ (by omega)]
    rfl

end A64

/-! ## The program -/

theorem crc32Update_toNat (crc : U32) (data : U64) (bytes : Nat) (poly : U32) :
    (crc32Update crc data bytes poly).toNat =
      (lfsr poly.toNat)^[8 * bytes] (crc.toNat ^^^ data.toNat % 2 ^ (8 * bytes)) := by
  have hstep : Function.Semiconj BitVec.toNat
      (fun crc : U32 => (crc >>> 1) ^^^ (if crc.getLsbD 0 then poly else 0)) (lfsr poly.toNat) := by
    intro x
    rw [lfsr, BitVec.toNat_xor, BitVec.toNat_ushiftRight, ← BitVec.getLsbD]
    cases x.getLsbD 0 <;> rfl
  induction bytes with
  | zero =>
    rw [Nat.mul_zero, Nat.pow_zero, Nat.mod_one, Nat.xor_zero]
    rfl
  | succ bytes ih =>
    have hbyte : (((data >>> (8 * bytes)) &&& 0xFF).setWidth 32).toNat =
        (data.toNat % 2 ^ (8 * (bytes + 1))) >>> (8 * bytes) := by
      apply Nat.eq_of_testBit_eq
      intro i
      have hmask : (0xFF : U64).getLsbD i = decide (i < 8) := Nat.testBit_two_pow_sub_one 8 i
      have hlt : 8 * bytes + i < 8 * (bytes + 1) ↔ i < 8 := by omega
      rw [Nat.testBit_shiftRight, Nat.testBit_mod_two_pow, ← BitVec.getLsbD, ← BitVec.getLsbD,
        BitVec.getLsbD_setWidth, BitVec.getLsbD_and, BitVec.getLsbD_ushiftRight, hmask]
      simp only [hlt]
      by_cases hi : i < 8
      · have hi' : i < 32 := by omega
        simp [hi, hi']
      · simp [hi]
    have hlow : data.toNat % 2 ^ (8 * (bytes + 1)) % 2 ^ (8 * bytes) =
        data.toNat % 2 ^ (8 * bytes) :=
      Nat.mod_mod_of_dvd _ (Nat.pow_dvd_pow 2 (by omega))
    rw [crc32Update, @List.range_succ bytes, List.foldl_append, List.foldl_cons, List.foldl_nil,
      ← crc32Update, List.foldl_const, List.length_range, hstep.iterate_right 8 _,
      BitVec.toNat_xor, ih, hbyte, ← hlow, ← iterate_lfsr_split]
    rfl

/-- `bytes` bytes of data. -/
theorem crc32Update_eq (crc : U32) (data : U64) (bytes : Nat) {polyReflected poly : U32}
    (h : polyReflected = poly.reverse) :
    crc32Update crc data bytes polyReflected = A64.crc32 crc (data.setWidth (8 * bytes)) poly := by
  apply BitVec.eq_of_toNat_eq
  rw [crc32Update_toNat, A64.crc32_toNat, BitVec.toNat_setWidth, h]

end Aarchvm
