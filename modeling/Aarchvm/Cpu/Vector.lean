import Aarchvm.Cpu.Operands

/-!
# Bits of a vector register

A register is two words; a range of its bits may lie in either or in both.
-/
namespace Aarchvm

/-- `std::array<std::uint64_t, 2>`. -/
structure QReg where
  lo : U64
  hi : U64
  deriving DecidableEq, Repr

def vectorGetBits (qreg : QReg) (lsb width : Nat) : U64 :=
  if width = 0 ∨ 64 < width ∨ 128 ≤ lsb then 0
  else if 64 ≤ lsb then (qreg.hi >>> (lsb - 64)) &&& ones width
  else if lsb + width ≤ 64 then (qreg.lo >>> lsb) &&& ones width
  else
    let lowBits := 64 - lsb
    let low := (qreg.lo >>> lsb) &&& ones lowBits
    let high := qreg.hi &&& ones (width - lowBits)
    low ||| (high <<< lowBits)

def vectorSetBits (qreg : QReg) (lsb width : Nat) (value : U64) : QReg :=
  if width = 0 ∨ 64 < width ∨ 128 ≤ lsb then qreg
  else
    let value := value &&& ones width
    if 64 ≤ lsb then
      let off := lsb - 64
      let mask : U64 := if width = 64 then ~~~0 else ones width <<< off
      { qreg with hi := (qreg.hi &&& ~~~mask) ||| ((value <<< off) &&& mask) }
    else if lsb + width ≤ 64 then
      let mask : U64 := if width = 64 then ~~~0 else ones width <<< lsb
      { qreg with lo := (qreg.lo &&& ~~~mask) ||| ((value <<< lsb) &&& mask) }
    else
      let lowBits := 64 - lsb
      let highBits := width - lowBits
      let lowMask := ones lowBits <<< lsb
      let highMask := ones highBits
      { lo := (qreg.lo &&& ~~~lowMask) ||| ((value &&& ones lowBits) <<< lsb)
        hi := (qreg.hi &&& ~~~highMask) ||| ((value >>> lowBits) &&& highMask) }

/-- The bits of both words in order. -/
def QReg.bit (qreg : QReg) (i : Nat) : Bool :=
  if i < 64 then qreg.lo.getLsbD i else qreg.hi.getLsbD (i - 64)

theorem QReg.bit_low (qreg : QReg) {i : Nat} (h : i < 64) : qreg.bit i = qreg.lo.getLsbD i :=
  if_pos h

theorem QReg.bit_high (qreg : QReg) {i : Nat} (h : 64 ≤ i) :
    qreg.bit i = qreg.hi.getLsbD (i - 64) := if_neg (Nat.not_lt.2 h)

/-! ## Fields of a word -/

theorem ones_shiftLeft_getLsbD {n off : Nat} (hend : off + n ≤ 64) (i : Nat) :
    (ones n <<< off).getLsbD i = decide (off ≤ i ∧ i < off + n) := by
  rw [BitVec.getLsbD_shiftLeft, ones_getLsbD, Bool.eq_iff_iff]
  simp only [Bool.and_eq_true, Bool.not_eq_true', decide_eq_true_eq, decide_eq_false_iff_not]
  omega

/-- The mask of a field; a field of 64 bits fills its word. -/
theorem mask_eq {n off : Nat} (hend : off + n ≤ 64) :
    (if n = 64 then ~~~0 else ones n <<< off : U64) = ones n <<< off := by
  split
  · next hfull =>
    have hoff : off = 0 := by omega
    rw [hfull, hoff]
    rfl
  · rfl

theorem merge_getLsbD (word x : U64) {n off : Nat} (hend : off + n ≤ 64) (i : Nat) :
    ((word &&& ~~~(ones n <<< off)) ||| (x &&& (ones n <<< off))).getLsbD i =
      if off ≤ i ∧ i < off + n then x.getLsbD i else word.getLsbD i := by
  rw [BitVec.getLsbD_or, BitVec.getLsbD_and, BitVec.getLsbD_and, BitVec.getLsbD_not,
    ones_shiftLeft_getLsbD hend]
  by_cases hin : off ≤ i ∧ i < off + n
  · rw [if_pos hin, decide_eq_true hin, Bool.not_true, Bool.and_false, Bool.and_false,
      Bool.false_or, Bool.and_true]
  · rw [if_neg hin, decide_eq_false hin, Bool.not_false, Bool.and_true, Bool.and_false,
      Bool.or_false]
    by_cases hi : i < 64
    · rw [decide_eq_true hi, Bool.and_true]
    · rw [decide_eq_false hi, Bool.and_false, BitVec.getLsbD_of_ge _ _ (Nat.le_of_not_lt hi)]

theorem field_getLsbD (x : U64) (off n i : Nat) :
    ((x >>> off) &&& ones n).getLsbD i = (decide (i < n) && x.getLsbD (off + i)) := by
  rw [BitVec.getLsbD_and, BitVec.getLsbD_ushiftRight, ones_getLsbD, Bool.and_comm]
  by_cases hi : i < 64
  · rw [decide_eq_true hi, Bool.and_true]
  · rw [BitVec.getLsbD_of_ge x _ (by omega), Bool.and_false, Bool.and_false]

/-! ## Ranges of a register -/

theorem vectorGetBits_getLsbD (qreg : QReg) {lsb width : Nat} (hw : width ≤ 64)
    (hend : lsb + width ≤ 128) (i : Nat) :
    (vectorGetBits qreg lsb width).getLsbD i = (decide (i < width) && qreg.bit (lsb + i)) := by
  rw [vectorGetBits]
  split_ifs with hempty hhigh hlow
  · have hi : ¬ i < width := by omega
    rw [decide_eq_false hi, Bool.false_and]
    exact BitVec.getLsbD_zero
  · have hindex : lsb - 64 + i = lsb + i - 64 := by omega
    rw [field_getLsbD, qreg.bit_high (by omega), hindex]
  · rw [field_getLsbD]
    by_cases hi : i < width
    · rw [qreg.bit_low (by omega)]
    · rw [decide_eq_false hi, Bool.false_and, Bool.false_and]
  · -- the range straddles the words
    rw [BitVec.getLsbD_or, field_getLsbD, BitVec.getLsbD_shiftLeft, BitVec.getLsbD_and,
      ones_getLsbD]
    by_cases hin : i < 64 - lsb
    · have hi : i < width := by omega
      rw [qreg.bit_low (by omega), decide_eq_true hin, decide_eq_true hi, Bool.not_true,
        Bool.and_false, Bool.false_and, Bool.or_false]
    · have hindex : i - (64 - lsb) = lsb + i - 64 := by omega
      rw [qreg.bit_high (by omega), decide_eq_false hin, hindex, Bool.false_and, Bool.false_or,
        Bool.not_false, Bool.and_true]
      by_cases hi : i < width
      · have hout : lsb + i - 64 < width - (64 - lsb) := by omega
        have hi64 : i < 64 := by omega
        have hout64 : lsb + i - 64 < 64 := by omega
        rw [decide_eq_true hi, decide_eq_true hout, decide_eq_true hi64, decide_eq_true hout64,
          Bool.true_and, Bool.true_and, Bool.true_and, Bool.and_true]
      · have hout : ¬ lsb + i - 64 < width - (64 - lsb) := by omega
        rw [decide_eq_false hi, decide_eq_false hout, Bool.false_and, Bool.false_and,
          Bool.and_false, Bool.and_false]

/-- A truncated value in the place of a field. -/
theorem placed_getLsbD (value : U64) {off n m i : Nat} (hend : off + n ≤ 64) (hm : n ≤ m)
    (hi : off ≤ i ∧ i < off + n) :
    ((value &&& ones m) <<< off).getLsbD i = value.getLsbD (i - off) := by
  have hlow : ¬ i < off := by omega
  have hin : i - off < m := by omega
  have hi64 : i < 64 := by omega
  have hin64 : i - off < 64 := by omega
  rw [BitVec.getLsbD_shiftLeft, BitVec.getLsbD_and, ones_getLsbD, decide_eq_true hi64,
    decide_eq_false hlow, decide_eq_true hin, decide_eq_true hin64, Bool.not_false, Bool.and_true,
    Bool.and_true, Bool.true_and]

section Set

variable (qreg : QReg) {lsb width : Nat} (value : U64)

theorem vectorSetBits_high (hwidth : width ≠ 0) (hlsb : 64 ≤ lsb) (hend : lsb + width ≤ 128) :
    vectorSetBits qreg lsb width value =
      { qreg with hi := (qreg.hi &&& ~~~(ones width <<< (lsb - 64))) |||
          (((value &&& ones width) <<< (lsb - 64)) &&& (ones width <<< (lsb - 64))) } := by
  rw [vectorSetBits, if_neg (by omega), if_pos hlsb]
  simp only [mask_eq (show lsb - 64 + width ≤ 64 by omega)]

theorem vectorSetBits_low (hwidth : width ≠ 0) (hend : lsb + width ≤ 64) :
    vectorSetBits qreg lsb width value =
      { qreg with lo := (qreg.lo &&& ~~~(ones width <<< lsb)) |||
          (((value &&& ones width) <<< lsb) &&& (ones width <<< lsb)) } := by
  rw [vectorSetBits, if_neg (by omega), if_neg (by omega), if_pos hend]
  simp only [mask_eq hend]

theorem vectorSetBits_straddle (hw : width ≤ 64) (hlsb : lsb < 64) (hend : 64 < lsb + width) :
    vectorSetBits qreg lsb width value =
      { lo := (qreg.lo &&& ~~~(ones (64 - lsb) <<< lsb)) |||
          (((value &&& ones width) <<< lsb) &&& (ones (64 - lsb) <<< lsb))
        hi := (qreg.hi &&& ~~~(ones (width - (64 - lsb)) <<< 0)) |||
          (((value &&& ones width) >>> (64 - lsb)) &&& (ones (width - (64 - lsb)) <<< 0)) } := by
  rw [vectorSetBits, if_neg (by omega), if_neg (by omega), if_neg (by omega),
    ← BitVec.shiftLeft_and_distrib, BitVec.shiftLeft_zero]

theorem vectorSetBits_bit (hw : width ≤ 64) (hend : lsb + width ≤ 128) (i : Nat) :
    (vectorSetBits qreg lsb width value).bit i =
      if lsb ≤ i ∧ i < lsb + width then value.getLsbD (i - lsb) else qreg.bit i := by
  by_cases hwidth : width = 0
  · have hout : ¬ (lsb ≤ i ∧ i < lsb + width) := by omega
    rw [if_neg hout, vectorSetBits, if_pos (.inl hwidth)]
  rcases Nat.lt_or_ge lsb 64 with hlsb | hlsb
  · rcases Nat.lt_or_ge 64 (lsb + width) with hcross | hlow
    · rw [vectorSetBits_straddle qreg value hw hlsb hcross]
      rcases Nat.lt_or_ge i 64 with hi | hi
      · rw [QReg.bit_low _ hi, QReg.bit_low _ hi, merge_getLsbD _ _ (by omega)]
        by_cases hin : lsb ≤ i
        · rw [if_pos (by omega), if_pos (by omega),
            placed_getLsbD value (show lsb + (64 - lsb) ≤ 64 by omega) (by omega) (by omega)]
        · rw [if_neg (by omega), if_neg (by omega)]
      · rw [QReg.bit_high _ hi, QReg.bit_high _ hi, merge_getLsbD _ _ (by omega)]
        by_cases hin : i < lsb + width
        · have hindex : 64 - lsb + (i - 64) = i - lsb := by omega
          have hin' : i - lsb < width := by omega
          have hin64 : i - lsb < 64 := by omega
          rw [if_pos (by omega), if_pos (by omega), BitVec.getLsbD_ushiftRight, BitVec.getLsbD_and,
            ones_getLsbD, hindex, decide_eq_true hin', decide_eq_true hin64, Bool.and_true,
            Bool.and_true]
        · rw [if_neg (by omega), if_neg (by omega)]
    · rw [vectorSetBits_low qreg value hwidth hlow]
      rcases Nat.lt_or_ge i 64 with hi | hi
      · rw [QReg.bit_low _ hi, QReg.bit_low _ hi, merge_getLsbD _ _ hlow]
        by_cases hin : lsb ≤ i ∧ i < lsb + width
        · rw [if_pos hin, if_pos hin, placed_getLsbD value hlow le_rfl hin]
        · rw [if_neg hin, if_neg hin]
      · rw [QReg.bit_high _ hi, QReg.bit_high _ hi, if_neg (by omega)]
  · rw [vectorSetBits_high qreg value hwidth hlsb hend]
    rcases Nat.lt_or_ge i 64 with hi | hi
    · rw [QReg.bit_low _ hi, QReg.bit_low _ hi, if_neg (by omega)]
    · rw [QReg.bit_high _ hi, QReg.bit_high _ hi, merge_getLsbD _ _ (by omega)]
      by_cases hin : lsb ≤ i ∧ i < lsb + width
      · have hindex : i - 64 - (lsb - 64) = i - lsb := by omega
        rw [if_pos (by omega), if_pos hin,
          placed_getLsbD value (show lsb - 64 + width ≤ 64 by omega) le_rfl (by omega), hindex]
      · rw [if_neg (by omega), if_neg hin]

end Set

/-- What is set is read back, and no other bit changes. -/
theorem vectorSetBits_exact (qreg : QReg) (lsb width : Nat) (value : U64) (hw : width ≤ 64)
    (hend : lsb + width ≤ 128) :
    vectorGetBits (vectorSetBits qreg lsb width value) lsb width =
        (value.setWidth width).setWidth 64 ∧
      ∀ i, ¬ (lsb ≤ i ∧ i < lsb + width) →
        (vectorSetBits qreg lsb width value).bit i = qreg.bit i := by
  refine ⟨BitVec.eq_of_getLsbD_eq fun i hi => ?_, fun i hout => ?_⟩
  · rw [vectorGetBits_getLsbD _ hw hend, vectorSetBits_bit _ _ hw hend, BitVec.getLsbD_setWidth,
      BitVec.getLsbD_setWidth, decide_eq_true hi, Bool.true_and, Nat.add_sub_cancel_left]
    by_cases hin : i < width
    · rw [if_pos (by omega)]
    · rw [decide_eq_false hin, Bool.false_and, Bool.false_and]
  · rw [vectorSetBits_bit _ _ hw hend, if_neg hout]

theorem vectorSetBits_exact_straddle :
    vectorGetBits (vectorSetBits ⟨0, 0⟩ 56 16 0xABCDE) 56 16 = 0xBCDE :=
  (vectorSetBits_exact ⟨0, 0⟩ 56 16 0xABCDE (by decide) (by decide)).1

end Aarchvm
