import Aarchvm.Cpu.DataProcessing
import Mathlib.Data.Nat.Bitwise

/-!
# Bit order and bit counts

The reversals of bits and bytes, and the counts of leading bits, against the pseudocode.
-/
namespace Aarchvm

open Lib

namespace A64

theorem ofBits_getLsbD (bit : Nat → Bool) (w i : Nat) :
    (ofBits bit w).getLsbD i = (decide (i < w) && bit i) := by
  induction w with
  | zero => simp
  | succ w ih =>
    rw [ofBits, BitVec.getLsbD_cons, ih]
    by_cases hi : i = w
    · simp [hi]
    · rw [if_neg hi]
      have hlt : i < w + 1 ↔ i < w := by omega
      simp only [hlt]

theorem reverseBytes_getLsbD {w : Nat} (x : BitVec w) (c : Nat) {i : Nat} (hi : i < w) :
    (reverseBytes x c).getLsbD i =
      x.getLsbD (i / c * c + (c - 8 - i % c / 8 * 8) + i % 8) := by
  rw [reverseBytes, ofBits_getLsbD, decide_eq_true hi, Bool.true_and]

end A64

/-! ## Reversals -/

theorem bitReverse_succ (value : U64) (n : Nat) :
    bitReverse value (n + 1) = (bitReverse value n <<< 1) ||| ((value >>> n) &&& 1) := by
  rw [bitReverse, List.range_succ, List.foldl_append, ← bitReverse]
  rfl

theorem bitReverse_getLsbD (value : U64) {n : Nat} (hn : n ≤ 64) (i : Nat) :
    (bitReverse value n).getLsbD i = (decide (i < n) && value.getLsbD (n - 1 - i)) := by
  induction n generalizing i with
  | zero => exact BitVec.getLsbD_zero
  | succ n ih =>
    have hone : (1 : U64).getLsbD i = decide (i = 0) := by
      rw [show (1 : U64) = BitVec.twoPow 64 0 from rfl, BitVec.getLsbD_twoPow]
      simp [eq_comm]
    rw [bitReverse_succ, BitVec.getLsbD_or, BitVec.getLsbD_and, BitVec.getLsbD_shiftLeft,
      BitVec.getLsbD_ushiftRight, hone, ih (by omega)]
    cases i with
    | zero => simp
    | succ i =>
      have hlt : i + 1 < n + 1 ↔ i < n := by omega
      have hindex : n + 1 - 1 - (i + 1) = n - 1 - i := by omega
      rw [hindex]
      simp only [hlt]
      by_cases hi : i < n
      · have hin : i + 1 < 64 := by omega
        simp [hi, hin]
      · simp [hi]

theorem bitReverse_eq {w : Nat} (x : BitVec w) (hw : w ≤ 64) :
    (bitReverse (x.setWidth 64) w).setWidth w = x.reverse := by
  apply BitVec.eq_of_getLsbD_eq
  intro i hi
  have hin : w - 1 - i < 64 := by omega
  rw [BitVec.getLsbD_setWidth, bitReverse_getLsbD _ hw, BitVec.getLsbD_setWidth,
    BitVec.getLsbD_reverse, BitVec.getMsbD, decide_eq_true hi, decide_eq_true hin]
  simp

/-- The two bytes of each halfword change places. -/
theorem swapBytes_eq {w : Nat} (x low high : BitVec w) (hw : 16 ∣ w)
    (hlow : ∀ i, i < w → low.getLsbD i = decide (i % 16 < 8))
    (hhigh : ∀ i, i < w → high.getLsbD i = decide (8 ≤ i % 16)) :
    ((x &&& low) <<< 8) ||| ((x &&& high) >>> 8) = A64.reverseBytes x 16 := by
  obtain ⟨k, hk⟩ := hw
  apply BitVec.eq_of_getLsbD_eq
  intro i hi
  rw [A64.reverseBytes_getLsbD x 16 hi, BitVec.getLsbD_or, BitVec.getLsbD_shiftLeft,
    BitVec.getLsbD_ushiftRight, BitVec.getLsbD_and, BitVec.getLsbD_and, decide_eq_true hi,
    Bool.true_and]
  by_cases hbyte : i % 16 < 8
  · have hindex : i / 16 * 16 + (16 - 8 - i % 16 / 8 * 8) + i % 8 = 8 + i := by omega
    rw [hindex, hhigh (8 + i) (by omega), decide_eq_true (show 8 ≤ (8 + i) % 16 by omega),
      Bool.and_true]
    by_cases hsmall : i < 8
    · simp [hsmall]
    · rw [hlow (i - 8) (by omega), decide_eq_false (show ¬ (i - 8) % 16 < 8 by omega)]
      simp
  · have hindex : i / 16 * 16 + (16 - 8 - i % 16 / 8 * 8) + i % 8 = i - 8 := by omega
    have hlarge : ¬ i < 8 := by omega
    rw [hindex, hlow (i - 8) (by omega), decide_eq_true (show (i - 8) % 16 < 8 by omega),
      decide_eq_false hlarge]
    by_cases hend : 8 + i < w
    · rw [hhigh (8 + i) hend, decide_eq_false (show ¬ 8 ≤ (8 + i) % 16 by omega)]
      simp
    · rw [BitVec.getLsbD_of_ge x (8 + i) (by omega)]
      simp

theorem bswap32_getLsbD (x : U32) {i : Nat} (hi : i < 32) :
    (bswap32 x).getLsbD i = x.getLsbD (24 - i / 8 * 8 + i % 8) := by
  simp only [bswap32, BitVec.getLsbD_append, BitVec.getLsbD_extractLsb']
  interval_cases i <;> rfl

theorem bswap32_eq (x : U32) : bswap32 x = A64.reverseBytes x 32 := by
  apply BitVec.eq_of_getLsbD_eq
  intro i hi
  rw [bswap32_getLsbD x hi, A64.reverseBytes_getLsbD x 32 hi]
  congr 1
  omega

theorem bswap64_eq (x : U64) : bswap64 x = A64.reverseBytes x 64 := by
  apply BitVec.eq_of_getLsbD_eq
  intro i hi
  rw [A64.reverseBytes_getLsbD x 64 hi]
  simp only [bswap64, BitVec.getLsbD_append, BitVec.getLsbD_extractLsb']
  interval_cases i <;> rfl

/-- REV32: the words in place, each reversed. -/
theorem bswap32_words_eq (x : U64) :
    ((bswap32 ((x >>> 32).setWidth 32)).setWidth 64 <<< 32) |||
        (bswap32 ((x &&& 0xFFFFFFFF).setWidth 32)).setWidth 64 = A64.reverseBytes x 32 := by
  apply BitVec.eq_of_getLsbD_eq
  intro i hi
  rw [A64.reverseBytes_getLsbD x 32 hi, BitVec.getLsbD_or, BitVec.getLsbD_shiftLeft,
    BitVec.getLsbD_setWidth, BitVec.getLsbD_setWidth, and_low32, setWidth_low32]
  by_cases hlow : i < 32
  · have hindex : 24 - i / 8 * 8 + i % 8 = i / 32 * 32 + (32 - 8 - i % 32 / 8 * 8) + i % 8 := by
      omega
    have hin : i / 32 * 32 + (32 - 8 - i % 32 / 8 * 8) + i % 8 < 32 := by omega
    rw [bswap32_getLsbD _ hlow, hindex, BitVec.getLsbD_setWidth]
    simp [hlow, hi, hin]
  · have hindex : 32 + (24 - (i - 32) / 8 * 8 + (i - 32) % 8) =
        i / 32 * 32 + (32 - 8 - i % 32 / 8 * 8) + i % 8 := by
      omega
    have hin : 24 - (i - 32) / 8 * 8 + (i - 32) % 8 < 32 := by omega
    have hrest : i - 32 < 64 := by omega
    rw [bswap32_getLsbD _ (show i - 32 < 32 by omega), BitVec.getLsbD_setWidth,
      BitVec.getLsbD_ushiftRight, hindex,
      BitVec.getLsbD_of_ge (bswap32 _) i (Nat.le_of_not_lt hlow)]
    simp [hlow, hi, hin, hrest]

/-! ## Counts -/

theorem clz_eq {w : Nat} (x : BitVec w) :
    (if x = 0 then w else builtinClz x) = A64.countLeadingZeroBits x := by
  rw [A64.countLeadingZeroBits, builtinClz]
  split
  · next h =>
    rw [h]
    simp
  · rfl

/-- A number and its half first differ at the highest bit of the number. -/
theorem size_xor_half (n : Nat) : (n ^^^ n >>> 1).size = n.size := by
  apply Nat.le_antisymm
  · have hn := Nat.lt_size_self n
    have hhalf : n >>> 1 ≤ n := by
      rw [Nat.shiftRight_eq_div_pow]
      exact Nat.div_le_self ..
    exact Nat.size_le.2 (Nat.xor_lt_two_pow hn (Nat.lt_of_le_of_lt hhalf hn))
  · by_cases hzero : n = 0
    · rw [hzero]
      rfl
    · obtain ⟨i, hi, hup⟩ := Nat.exists_most_significant_bit hzero
      have hbit : (n ^^^ n >>> 1).testBit i = true := by
        rw [Nat.testBit_xor, Nat.testBit_shiftRight, hi, hup (1 + i) (by omega)]
        rfl
      have hsize : n.size ≤ i + 1 :=
        Nat.size_le.2 (Nat.lt_pow_two_of_testBit n fun j hj => hup j (by omega))
      have hxor : i < (n ^^^ n >>> 1).size := Nat.lt_size.2 (Nat.ge_two_pow_of_testBit hbit)
      omega

/-- A value or its complement, whichever has no sign. -/
def unsigned {w : Nat} (x : BitVec w) : BitVec w := if x.msb then ~~~x else x

theorem unsigned_getLsbD {w : Nat} (x : BitVec w) {i : Nat} (hi : i < w) :
    (unsigned x).getLsbD i = (x.getLsbD i ^^ x.msb) := by
  rw [unsigned]
  cases x.msb with
  | true => simp [hi]
  | false => simp

/-- The bits that differ from the next higher one. -/
theorem signChanges_toNat {w : Nat} (x : BitVec w) :
    (x.extractLsb' 1 (w - 1) ^^^ x.extractLsb' 0 (w - 1)).toNat =
      (unsigned x).toNat ^^^ (unsigned x).toNat >>> 1 := by
  apply Nat.eq_of_testBit_eq
  intro i
  rw [Nat.testBit_xor, Nat.testBit_shiftRight, ← BitVec.getLsbD, ← BitVec.getLsbD,
    ← BitVec.getLsbD, BitVec.getLsbD_xor, BitVec.getLsbD_extractLsb', BitVec.getLsbD_extractLsb',
    Nat.zero_add]
  by_cases hi : i < w - 1
  · rw [unsigned_getLsbD x (show i < w by omega), unsigned_getLsbD x (show 1 + i < w by omega),
      decide_eq_true hi]
    cases x.getLsbD i <;> cases x.getLsbD (1 + i) <;> cases x.msb <;> rfl
  · have hnext : (unsigned x).getLsbD (1 + i) = false :=
      BitVec.getLsbD_of_ge _ _ (by omega)
    have hlast : (unsigned x).getLsbD i = false := by
      by_cases hw : i < w
      · have hmsb : x.getLsbD i = x.msb := by
          rw [BitVec.msb_eq_getLsbD_last]
          congr 1
          omega
        rw [unsigned_getLsbD x hw, hmsb, Bool.xor_self]
      · exact BitVec.getLsbD_of_ge _ _ (by omega)
    rw [decide_eq_false hi, hnext, hlast]
    rfl

theorem cls_eq {w : Nat} (x : BitVec w) : cls x = A64.countLeadingSignBits x := by
  rw [A64.countLeadingSignBits, A64.countLeadingZeroBits, signChanges_toNat, size_xor_half, cls,
    ← unsigned]
  split
  · next h =>
    rw [h]
    simp
  · rw [builtinClz]
    omega

end Aarchvm
