import Aarchvm.Cpu.FpRounding
import Mathlib.Data.Nat.Bitwise

/-!
# The conversions are correctly rounded

Each conversion divides a normalized significand once, so the code of its result is the
rounded code, with the carry into the next exponent already in it.
-/
namespace Aarchvm

open Lib

/-! ## The two narrowing conversions -/

theorem rmode_cases (mode : U32) :
    mode &&& 3 = 0 ∨ mode &&& 3 = 1 ∨ mode &&& 3 = 2 ∨ mode &&& 3 = 3 := by
  have hthree : (3 : U32).toNat = 2 ^ 2 - 1 := rfl
  have hlt : (mode &&& 3).toNat < 4 := by
    rw [BitVec.toNat_and, hthree, Nat.and_two_pow_sub_one_eq_mod]
    exact Nat.mod_lt _ (by decide)
  have hcases : (mode &&& 3).toNat = 0 ∨ (mode &&& 3).toNat = 1 ∨ (mode &&& 3).toNat = 2 ∨
      (mode &&& 3).toNat = 3 := by omega
  exact hcases.imp BitVec.eq_of_toNat_eq
    (.imp BitVec.eq_of_toNat_eq (.imp BitVec.eq_of_toNat_eq BitVec.eq_of_toNat_eq))

section Narrow

variable {f : A64.Interchange} {fracBits significand : ℕ} {exponent : ℤ}
  (hpos : 0 < f.fracBits) (hfrac : f.fracBits ≤ fracBits) (hlo : 2 ^ fracBits ≤ significand)
  (hhi : significand < 2 ^ (fracBits + 1))
include hpos hfrac hlo hhi

/-- A rounded significand is representable if no bit of it is dropped. -/
theorem representable_iff (dir : Rounding) (finite : ℕ) :
    f.format.Representable finite (significand * 2 ^ (exponent - fracBits)) ↔
      f.format.narrow fracBits significand exponent dir < finite ∧
        significand % 2 ^ f.format.dropped fracBits exponent = 0 := by
  have hrounded : f.format.IsRounded dir (significand * 2 ^ (exponent - fracBits))
      (f.format.narrow fracBits significand exponent dir) :=
    FloatFormat.isRounded_narrow hfrac hlo hhi hpos dir
  have hvalue : f.format.value (f.format.narrow fracBits significand exponent dir) = _ ↔ _ :=
    FloatFormat.value_narrow_iff hfrac hlo hhi dir
  rw [hrounded.representable_iff, hvalue]

variable {rmode : ℕ} {sign : Bool} {n result : ℕ} {ofc ufc ixc : Bool}
  (hn : n = f.format.narrow fracBits significand exponent (A64.direction rmode sign))

include hn in
theorem fpRound_of_narrow
    (hresult : result = f.pattern sign (if n < f.infinity then n
      else if A64.direction rmode sign = .down then f.infinity - 1 else f.infinity))
    (hofc : ofc = true ↔ f.infinity ≤ n)
    (hufc : ufc = true ↔ exponent < f.format.emin ∧ ixc = true)
    (hixc : ixc = true ↔ ofc = true ∨ significand % 2 ^ f.format.dropped fracBits exponent ≠ 0) :
    A64.FPRound f rmode sign (significand * 2 ^ (exponent - fracBits)) result
      (fpsrFlags false ofc ufc ixc) := by
  have hrounded : f.format.IsRounded (A64.direction rmode sign)
      (significand * 2 ^ (exponent - fracBits)) n := by
    rw [hn]
    exact FloatFormat.isRounded_narrow hfrac hlo hhi hpos _
  have hinexact : ¬ f.format.Representable f.infinity (significand * 2 ^ (exponent - fracBits)) ↔
      ixc = true := by
    rw [representable_iff hpos hfrac hlo hhi (A64.direction rmode sign), ← hn, not_and_or,
      Nat.not_lt, hixc, hofc]
  refine ⟨n, hrounded, hresult, fpsrFlags_raised (by simp) hofc.symm ?_ hinexact⟩
  rw [hufc, ← hinexact, FloatFormat.tiny_iff hlo hhi]

end Narrow

/-- The same for the alternative format. -/
theorem fpRoundAlt_of_narrow {fracBits significand rmode n result : ℕ} {exponent : ℤ}
    {sign ioc ufc ixc : Bool} (hfrac : 10 ≤ fracBits) (hlo : 2 ^ fracBits ≤ significand)
    (hhi : significand < 2 ^ (fracBits + 1))
    (hn : n = A64.binary16.format.narrow fracBits significand exponent (A64.direction rmode sign))
    (hresult : result = A64.binary16.pattern sign (if n < 2 ^ 15 then n else 2 ^ 15 - 1))
    (hioc : ioc = true ↔ 2 ^ 15 ≤ n)
    (hufc : ufc = true ↔ exponent < -14 ∧
      (2 ^ 15 ≤ n ∨ significand % 2 ^ A64.binary16.format.dropped fracBits exponent ≠ 0))
    (hixc : ixc = true ↔ n < 2 ^ 15 ∧
      significand % 2 ^ A64.binary16.format.dropped fracBits exponent ≠ 0) :
    A64.FPRoundAlt rmode sign (significand * 2 ^ (exponent - fracBits)) result
      (fpsrFlags ioc false ufc ixc) := by
  have hrounded : A64.binary16.format.IsRounded (A64.direction rmode sign)
      (significand * 2 ^ (exponent - fracBits)) n := by
    rw [hn]
    exact FloatFormat.isRounded_narrow hfrac hlo hhi (show 0 < 10 by decide) _
  have hinexact : ¬ A64.binary16.format.Representable (2 ^ 15)
        (significand * 2 ^ (exponent - fracBits)) ↔
      2 ^ 15 ≤ n ∨ significand % 2 ^ A64.binary16.format.dropped fracBits exponent ≠ 0 := by
    rw [representable_iff (show 0 < 10 by decide) hfrac hlo hhi (A64.direction rmode sign), ← hn,
      not_and_or, Nat.not_lt]
  refine ⟨n, hrounded, hresult, fpsrFlags_raised hioc.symm (by simp) ?_ ?_⟩
  · rw [hufc, ← hinexact, FloatFormat.tiny_iff hlo hhi]
    rfl
  · rw [hixc, hinexact]
    exact and_congr_right fun hlt => or_iff_right (Nat.not_le.2 hlt)

/-- A zero keeps its sign. -/
theorem fpRound_zero (f : A64.Interchange) (rmode : ℕ) (sign : Bool) (hinf : 0 < f.infinity) :
    A64.FPRound f rmode sign 0 (f.pattern sign 0) 0 := by
  have hvalue := f.format.value_zero
  have hrep : f.format.Representable f.infinity 0 := ⟨0, hinf, hvalue⟩
  refine ⟨0, FloatFormat.isRounded_exact _ hvalue, by rw [if_pos hinf], ?_⟩
  have hflags : (0 : U64) = fpsrFlags false false false false := rfl
  rw [hflags]
  exact fpsrFlags_raised (by simp) (by simp [hinf.ne']) (by simp [hrep]) (by simp [hrep])

/-! ## Double to single -/

theorem fp32OverflowResult_eq (sign : Bool) (fpcrMode : U32) :
    (fp32OverflowResult sign fpcrMode 0).1.toNat = A64.binary32.pattern sign
        (if A64.direction (fpcrMode &&& 3).toNat sign = .down then A64.binary32.infinity - 1
          else A64.binary32.infinity) ∧
      (fp32OverflowResult sign fpcrMode 0).2 = fpsrFlags false true false true := by
  rw [fp32OverflowResult]
  rcases rmode_cases fpcrMode with h | h | h | h <;> rw [h] <;> cases sign <;> decide

section Single

variable {sign : Bool} {significand : U64} {exponent : Int} {fpcrMode : U32}

theorem fp64ToFp32Significand_overflow (h : 127 < exponent) :
    fp64ToFp32Significand sign significand exponent fpcrMode 0 =
      fp32OverflowResult sign fpcrMode 0 := if_pos h

theorem fp64ToFp32Significand_normal (hfz : fpcrFlushToZeroEnabled fpcrMode = false)
    (hlo : -126 ≤ exponent) (hhi : exponent ≤ 127) {rounded : U64} {inexact : Bool}
    (hr : fpRoundShiftRight significand 29 fpcrMode sign = (rounded, inexact)) :
    fp64ToFp32Significand sign significand exponent fpcrMode 0 =
      if 127 < (carried 23 rounded exponent).2 then fp32OverflowResult sign fpcrMode 0
      else
        (fpZeroBits .single sign |||
            (BitVec.ofInt 32 ((carried 23 rounded exponent).2 + 127) <<< 23) |||
            ((carried 23 rounded exponent).1.setWidth 32 &&& 0x007FFFFF),
          fpsrFlags false false false inexact) := by
  rw [fp64ToFp32Significand, if_neg (by omega), hfz, Bool.false_and, if_neg (by decide), if_pos hlo,
    hr]
  by_cases hcarry : rounded = (1 : U64) <<< 24
  · have hcarried : carried 23 rounded exponent = (rounded >>> 1, exponent + 1) := if_pos hcarry
    simp only [if_pos hcarry, hcarried, fpFlushOutputDenormalBits_off _ _ hfz]
    cases inexact <;> rfl
  · have hcarried : carried 23 rounded exponent = (rounded, exponent) := if_neg hcarry
    simp only [if_neg hcarry, hcarried, fpFlushOutputDenormalBits_off _ _ hfz]
    cases inexact <;> rfl

theorem fp64ToFp32Significand_subnormal (hfz : fpcrFlushToZeroEnabled fpcrMode = false)
    (hlo : exponent < -126) {rounded : U64} {inexact : Bool}
    (hr : fpRoundShiftRight significand (29 + (-126 - exponent).toNat) fpcrMode sign =
      (rounded, inexact)) :
    fp64ToFp32Significand sign significand exponent fpcrMode 0 =
      (if (1 : U64) <<< 23 ≤ rounded then fpZeroBits .single sign ||| 0x00800000
        else fpZeroBits .single sign ||| rounded.setWidth 32,
        fpsrFlags false false inexact inexact) := by
  rw [fp64ToFp32Significand, if_neg (by omega), hfz, Bool.false_and, if_neg (by decide),
    if_neg (by omega)]
  simp only [hr, fpFlushOutputDenormalBits_off _ _ hfz]
  cases inexact <;> exact (apply_ite (Prod.mk · _) ..).symm

variable (hlo : 2 ^ 52 ≤ significand.toNat) (hhi : significand.toNat < 2 ^ (52 + 1))
include hlo hhi

theorem fp32OverflowResult_rounded (hmin : -126 ≤ exponent)
    (hge : A64.binary32.infinity ≤ A64.binary32.format.narrow 52 significand.toNat exponent
      (A64.direction (fpcrMode &&& 3).toNat sign)) :
    A64.FPRound A64.binary32 (fpcrMode &&& 3).toNat sign
      (significand.toNat * 2 ^ (exponent - (52 : ℕ))) (fp32OverflowResult sign fpcrMode 0).1.toNat
      (fp32OverflowResult sign fpcrMode 0).2 := by
  have hemin : A64.binary32.format.emin = -126 := rfl
  obtain ⟨hresult, hflags⟩ := fp32OverflowResult_eq sign fpcrMode
  rw [hresult, hflags]
  refine fpRound_of_narrow (by decide) (by decide) hlo hhi rfl ?_ ?_ ?_ ?_
  · rw [if_neg (Nat.not_lt.2 hge)]
  · exact iff_of_true rfl hge
  · rw [hemin]
    exact iff_of_false (by decide) fun htiny => by omega
  · exact iff_of_true rfl (.inl rfl)

theorem fp64ToFp32Significand_large (h : 127 < exponent) :
    A64.FPRound A64.binary32 (fpcrMode &&& 3).toNat sign
      (significand.toNat * 2 ^ (exponent - (52 : ℕ)))
      (fp64ToFp32Significand sign significand exponent fpcrMode 0).1.toNat
      (fp64ToFp32Significand sign significand exponent fpcrMode 0).2 := by
  have hemin : A64.binary32.format.emin = -126 := rfl
  rw [fp64ToFp32Significand_overflow h]
  refine fp32OverflowResult_rounded hlo hhi (by omega) ?_
  refine Nat.le_trans ?_ (FloatFormat.le_narrow (by decide) hlo (by omega) _)
  exact Nat.mul_le_mul_right (2 ^ 23) (show 255 ≤ (exponent - -126).toNat + 1 by omega)

theorem fp64ToFp32Significand_middle (hfz : fpcrFlushToZeroEnabled fpcrMode = false)
    (hmin : -126 ≤ exponent) (hmax : exponent ≤ 127) :
    A64.FPRound A64.binary32 (fpcrMode &&& 3).toNat sign
      (significand.toNat * 2 ^ (exponent - (52 : ℕ)))
      (fp64ToFp32Significand sign significand exponent fpcrMode 0).1.toNat
      (fp64ToFp32Significand sign significand exponent fpcrMode 0).2 := by
  have hemin : A64.binary32.format.emin = -126 := rfl
  cases hr : fpRoundShiftRight significand 29 fpcrMode sign with
  | mk rounded inexact =>
    obtain ⟨hnext, hcode, hinexact⟩ := carried_narrow (f := A64.binary32) (by decide) (by decide)
      hlo hhi (by decide) (hemin.trans_le hmin) hr
    rw [fp64ToFp32Significand_normal hfz hmin hmax hr]
    rcases Int.lt_or_le 127 (carried 23 rounded exponent).2 with hover | hover
    · rw [if_pos hover]
      refine fp32OverflowResult_rounded hlo hhi hmin ?_
      rw [← hcode]
      refine Nat.le_trans (Nat.mul_le_mul_right (2 ^ 23) ?_) (Nat.le_add_right ..)
      exact show 255 ≤ ((carried 23 rounded exponent).2 + 127).toNat by omega
    · rw [if_neg (Int.not_lt.2 hover)]
      have hexp : 1 ≤ (carried 23 rounded exponent).2 + 127 := hnext
      have hsum : ((carried 23 rounded exponent).2 + 127).toNat * 2 ^ 23 +
          (carried 23 rounded exponent).1.toNat % 2 ^ 23 < 255 * 2 ^ 23 := by
        have hmod := Nat.mod_lt (carried 23 rounded exponent).1.toNat (Nat.two_pow_pos 23)
        omega
      have hlt : A64.binary32.format.narrow 52 significand.toNat exponent
          (A64.direction (fpcrMode &&& 3).toNat sign) < A64.binary32.infinity :=
        hcode.symm.trans_lt hsum
      have hfrac : ((carried 23 rounded exponent).1.setWidth 32 &&& 0x007FFFFF#32).toNat =
          (carried 23 rounded exponent).1.toNat % 2 ^ 23 := by
        rw [and_mask_toNat _ (show (0x007FFFFF#32).toNat = 2 ^ 23 - 1 from rfl),
          BitVec.toNat_setWidth, Nat.mod_mod_of_dvd _ (Nat.pow_dvd_pow 2 (by decide))]
      refine fpRound_of_narrow (by decide) (by decide) hlo hhi rfl ?_ ?_ ?_ ?_
      · rw [if_pos hlt]
        exact packed_toNat (t := .single) hexp hcode (hlt.trans (by decide)) hfrac
      · exact iff_of_false (by decide) (Nat.not_le.2 hlt)
      · rw [hemin]
        exact iff_of_false (by decide) fun htiny => by omega
      · rw [hinexact]
        simp

theorem fp64ToFp32Significand_tiny (hfz : fpcrFlushToZeroEnabled fpcrMode = false)
    (hmin : exponent < -126) :
    A64.FPRound A64.binary32 (fpcrMode &&& 3).toNat sign
      (significand.toNat * 2 ^ (exponent - (52 : ℕ)))
      (fp64ToFp32Significand sign significand exponent fpcrMode 0).1.toNat
      (fp64ToFp32Significand sign significand exponent fpcrMode 0).2 := by
  have hemin : A64.binary32.format.emin = -126 := rfl
  cases hr : fpRoundShiftRight significand (29 + (-126 - exponent).toNat) fpcrMode sign with
  | mk rounded inexact =>
    obtain ⟨hle, hcode, hinexact⟩ := rounded_narrow (f := A64.binary32) (by decide) hhi
      (by omega) (hmin.trans_eq hemin.symm) hr
    rw [fp64ToFp32Significand_subnormal hfz hmin hr]
    have hlt : A64.binary32.format.narrow 52 significand.toNat exponent
        (A64.direction (fpcrMode &&& 3).toNat sign) < A64.binary32.infinity := by
      rw [← hcode]
      exact hle.trans_lt (by decide)
    refine fpRound_of_narrow (by decide) (by decide) hlo hhi rfl ?_ ?_ ?_ ?_
    · rw [if_pos hlt, ← hcode]
      exact packed_tiny_toNat (t := .single) rfl hle
    · exact iff_of_false (by decide) (Nat.not_le.2 hlt)
    · rw [hemin]
      exact (and_iff_right hmin).symm
    · rw [hinexact]
      simp

theorem fp64ToFp32Significand_rounded (hfz : fpcrFlushToZeroEnabled fpcrMode = false) :
    A64.FPRound A64.binary32 (fpcrMode &&& 3).toNat sign
      (significand.toNat * 2 ^ (exponent - (52 : ℕ)))
      (fp64ToFp32Significand sign significand exponent fpcrMode 0).1.toNat
      (fp64ToFp32Significand sign significand exponent fpcrMode 0).2 := by
  rcases Int.lt_or_le exponent (-126) with hmin | hmin
  · exact fp64ToFp32Significand_tiny hlo hhi hfz hmin
  · rcases Int.lt_or_le 127 exponent with hmax | hmax
    · exact fp64ToFp32Significand_large hlo hhi hmax
    · exact fp64ToFp32Significand_middle hlo hhi hfz hmin hmax

end Single

theorem code_split (n expBits fracBits : ℕ) :
    n % 2 ^ (expBits + fracBits) =
      n / 2 ^ fracBits % 2 ^ expBits * 2 ^ fracBits + n % 2 ^ fracBits := by
  rw [Nat.add_comm expBits, Nat.pow_add, Nat.mod_mul, Nat.mul_comm, Nat.add_comm]

/-- The fields of a pattern, shifted down and then masked. -/
theorem shifted_fields (f : A64.Interchange) {w : ℕ} (bits expMask fracMask : BitVec w)
    (hw : w = f.expBits + f.fracBits + 1) (hexpMask : expMask.toNat = 2 ^ f.expBits - 1)
    (hfracMask : fracMask.toNat = 2 ^ f.fracBits - 1) :
    (bits >>> (f.expBits + f.fracBits) != 0) = f.sign bits.toNat ∧
      f.code bits.toNat = (bits >>> f.fracBits &&& expMask).toNat * 2 ^ f.fracBits +
        (bits &&& fracMask).toNat ∧
      (bits &&& fracMask).toNat < 2 ^ f.fracBits := by
  have hfrac : (bits &&& fracMask).toNat = bits.toNat % 2 ^ f.fracBits :=
    and_mask_toNat bits hfracMask
  have hexp : (bits >>> f.fracBits &&& expMask).toNat =
      bits.toNat / 2 ^ f.fracBits % 2 ^ f.expBits := by
    rw [and_mask_toNat _ hexpMask, BitVec.toNat_ushiftRight, Nat.shiftRight_eq_div_pow]
  refine ⟨?_, ?_, ?_⟩
  · have hlt : bits.toNat / 2 ^ (f.expBits + f.fracBits) < 2 := by
      rw [Nat.div_lt_iff_lt_mul (Nat.two_pow_pos _), ← Nat.pow_succ']
      exact hw ▸ bits.isLt
    rw [Bool.eq_iff_iff, bne_iff_ne, ne_eq, ← BitVec.toNat_inj, BitVec.toNat_ushiftRight,
      A64.Interchange.sign, Nat.shiftRight_eq_div_pow, Nat.testBit_eq_decide_div_mod_eq,
      decide_eq_true_eq]
    change ¬ bits.toNat / 2 ^ (f.expBits + f.fracBits) = 0 ↔ _
    generalize bits.toNat / 2 ^ (f.expBits + f.fracBits) = top at hlt ⊢
    omega
  · rw [hexp, hfrac]
    exact code_split bits.toNat f.expBits f.fracBits
  · rw [hfrac]
    exact Nat.mod_lt _ (Nat.two_pow_pos _)

/-- The fields of a double. -/
theorem double_fields (bits : U64) :
    (bits >>> 63 != 0) = A64.binary64.sign bits.toNat ∧
      A64.binary64.code bits.toNat =
        ((bits >>> 52 &&& 0x7FF).setWidth 32).toNat * 2 ^ 52 +
          (bits &&& 0x000FFFFFFFFFFFFF).toNat ∧
      (bits &&& 0x000FFFFFFFFFFFFF).toNat < 2 ^ 52 := by
  obtain ⟨hsign, hcode, hlt⟩ := shifted_fields A64.binary64 bits 0x7FF 0x000FFFFFFFFFFFFF
    rfl rfl rfl
  have hnarrow : ((bits >>> 52 &&& 0x7FF).setWidth 32).toNat = (bits >>> 52 &&& 0x7FF).toNat := by
    have hmask : (0x7FF : U64).toNat = 2 ^ 11 - 1 := rfl
    rw [BitVec.toNat_setWidth, and_mask_toNat _ hmask, Nat.mod_eq_of_lt]
    exact (Nat.mod_lt _ (Nat.two_pow_pos 11)).trans (by decide)
  refine ⟨hsign, ?_, hlt⟩
  rw [hnarrow]
  exact hcode

theorem fp64ToFp32Bits_finite {bits : U64} {fpcrMode : U32}
    (hexp : (bits >>> 52 &&& 0x7FF).setWidth 32 ≠ (0x7FF : U32))
    (hfz : fpcrFlushToZeroEnabled fpcrMode = false) :
    fp64ToFp32Bits bits fpcrMode =
      if (bits >>> 52 &&& 0x7FF).setWidth 32 = (0 : U32) ∧ bits &&& 0x000FFFFFFFFFFFFF = 0 then
        (fpZeroBits .single (bits >>> 63 != 0), 0)
      else
        fp64ToFp32Significand (bits >>> 63 != 0)
          (normalizedSignificand 52 1023 ((bits >>> 52 &&& 0x7FF).setWidth 32)
            (bits &&& 0x000FFFFFFFFFFFFF)).1
          (normalizedSignificand 52 1023 ((bits >>> 52 &&& 0x7FF).setWidth 32)
            (bits &&& 0x000FFFFFFFFFFFFF)).2 fpcrMode 0 := by
  have hflush : fpFlushInputDenormalBits .double bits fpcrMode 0 = (bits, 0) :=
    fpFlushInputDenormalBits_off (t := .double) bits 0 hfz
  rw [fp64ToFp32Bits, if_neg hexp, hflush]
  rfl

theorem fp64ToFp32Bits_single {bits : U64} {fpcrMode : U32}
    (hfinite : A64.binary64.IsFinite bits.toNat) (hfz : fpcrFlushToZeroEnabled fpcrMode = false) :
    A64.FPRound A64.binary32 (fpcrMode &&& 3).toNat (A64.binary64.sign bits.toNat)
      (A64.binary64.magnitude bits.toNat) (fp64ToFp32Bits bits fpcrMode).1.toNat
      (fp64ToFp32Bits bits fpcrMode).2 := by
  obtain ⟨hsign, hcode, hfrac⟩ := double_fields bits
  rw [A64.Interchange.IsFinite, hcode] at hfinite
  have hspecial : (bits >>> 52 &&& 0x7FF).setWidth 32 ≠ (0x7FF : U32) := by
    intro h
    rw [h] at hfinite
    exact Nat.not_lt.2 (Nat.le_add_right (2047 * 2 ^ 52) _) hfinite
  rw [fp64ToFp32Bits_finite hspecial hfz, hsign, A64.Interchange.magnitude, hcode]
  generalize (bits >>> 52 &&& 0x7FF).setWidth 32 = exp
  generalize bits &&& 0x000FFFFFFFFFFFFF = frac at hfrac ⊢
  split
  · next hzero =>
    have hexp : exp.toNat = 0 := congrArg BitVec.toNat hzero.1
    have hfrac : frac.toNat = 0 := congrArg BitVec.toNat hzero.2
    rw [hexp, hfrac, Nat.zero_mul, FloatFormat.value_zero, fpZeroBits_toNat]
    exact fpRound_zero A64.binary32 _ _ (by decide)
  · next hzero =>
    obtain ⟨hlo, hhi, hvalue⟩ := normalizedSignificand_eq 1023 (show 52 < 63 by decide) hfrac hzero
    have hformat : A64.binary64.format = ⟨52, 1 - 1023⟩ := rfl
    rw [hformat, hvalue]
    exact fp64ToFp32Significand_rounded hlo hhi hfz

/-- The narrowing of a double to a single is `FPRound`. -/
theorem fp64ToFp32Bits_rounded (bits : U64) (fpcrMode : U32)
    (hfinite : A64.binary64.IsFinite bits.toNat) (hfz : fpcrFlushToZeroEnabled fpcrMode = false) :
    A64.FPRound A64.binary32 (fpcrMode &&& 3).toNat (A64.binary64.sign bits.toNat)
      (A64.binary64.magnitude bits.toNat) (fp64ToFp32Bits bits fpcrMode).1.toNat
      (fp64ToFp32Bits bits fpcrMode).2 := fp64ToFp32Bits_single hfinite hfz

theorem fp64ToFp32Bits_rounded_third :
    A64.FPRound A64.binary32 1 true (A64.binary64.magnitude 0xBFD5555555555555)
      (fp64ToFp32Bits 0xBFD5555555555555 1).1.toNat (fp64ToFp32Bits 0xBFD5555555555555 1).2 :=
  fp64ToFp32Bits_rounded 0xBFD5555555555555 1 (by decide) (by decide)

/-! ## To half -/

section Half

variable {src : ℕ} {sign : Bool} {significand : U64} {exponent : Int} {fpcrMode : U32}

/-- The largest exponent, which the alternative format does not keep for infinity. -/
def halfMaxExp (fpcrMode : U32) : Int := if fpcrAlternativeHalfEnabled fpcrMode then 16 else 15

theorem fpToFp16Significand_large (h : halfMaxExp fpcrMode < exponent) :
    fpToFp16Significand src sign significand exponent fpcrMode 0 =
      fp16OverflowResult sign fpcrMode 0 := if_pos h

theorem fpToFp16Significand_normal (hlo : -14 ≤ exponent) (hhi : exponent ≤ halfMaxExp fpcrMode)
    {rounded : U64} {inexact : Bool}
    (hr : fpRoundShiftRight significand (src - 10) fpcrMode sign = (rounded, inexact)) :
    fpToFp16Significand src sign significand exponent fpcrMode 0 =
      if halfMaxExp fpcrMode < (carried 10 rounded exponent).2 then
        fp16OverflowResult sign fpcrMode 0
      else
        (fpZeroBits .half sign |||
          (BitVec.ofInt 16 ((carried 10 rounded exponent).2 + 15) <<< 10) |||
            ((carried 10 rounded exponent).1 &&& 0x03FF).setWidth 16,
          fpsrFlags false false false inexact) := by
  rw [halfMaxExp] at hhi ⊢
  rw [fpToFp16Significand, if_neg (Int.not_lt.2 hhi), if_pos hlo, hr]
  by_cases hcarry : rounded = (1 : U64) <<< 11
  · have hcarried : carried 10 rounded exponent = (rounded >>> 1, exponent + 1) := if_pos hcarry
    simp only [if_pos hcarry, hcarried]
    cases inexact <;> rfl
  · have hcarried : carried 10 rounded exponent = (rounded, exponent) := if_neg hcarry
    simp only [if_neg hcarry, hcarried]
    cases inexact <;> rfl

theorem fpToFp16Significand_subnormal (hlo : exponent < -14) {rounded : U64} {inexact : Bool}
    (hr : fpRoundShiftRight significand (src - 10 + (-14 - exponent).toNat) fpcrMode sign =
      (rounded, inexact)) :
    fpToFp16Significand src sign significand exponent fpcrMode 0 =
      (if (1 : U64) <<< 10 ≤ rounded then fpZeroBits .half sign ||| 0x0400
        else fpZeroBits .half sign ||| rounded.setWidth 16,
        fpsrFlags false false inexact inexact) := by
  have hmax : ¬ halfMaxExp fpcrMode < exponent := by
    rw [halfMaxExp]
    split <;> omega
  rw [halfMaxExp] at hmax
  rw [fpToFp16Significand, if_neg hmax, if_neg (by omega)]
  simp only [hr]
  cases inexact <;> exact (apply_ite (Prod.mk · _) ..).symm

/-- The first code past the largest number. -/
def halfFinite (fpcrMode : U32) : ℕ :=
  if fpcrAlternativeHalfEnabled fpcrMode then 2 ^ 15 else A64.binary16.infinity

theorem halfFinite_eq (fpcrMode : U32) :
    halfFinite fpcrMode = (halfMaxExp fpcrMode + 16).toNat * 2 ^ 10 := by
  rw [halfFinite, halfMaxExp]
  split <;> rfl

theorem le_halfMaxExp (fpcrMode : U32) : 15 ≤ halfMaxExp fpcrMode ∧ halfMaxExp fpcrMode ≤ 16 := by
  rw [halfMaxExp]
  split <;> decide

/-- What the function returns for the rounded code `n`. -/
def HalfResult (sign : Bool) (fpcrMode : U32) (tiny : Bool) (inexact : Prop) (n : ℕ)
    (result : U16 × U64) : Prop :=
  (n < halfFinite fpcrMode ∧ ∃ b : Bool, (b = true ↔ inexact) ∧
    result.1.toNat = A64.binary16.pattern sign n ∧
    result.2 = fpsrFlags false false (tiny && b) b) ∨
  (halfFinite fpcrMode ≤ n ∧ tiny = false ∧ result = fp16OverflowResult sign fpcrMode 0)

variable (hsrc : 10 ≤ src) (hbits : src < 63) (hlo : 2 ^ src ≤ significand.toNat)
  (hhi : significand.toNat < 2 ^ (src + 1))
include hsrc

include hlo in
theorem fpToFp16Significand_large_code (h : halfMaxExp fpcrMode < exponent) :
    HalfResult sign fpcrMode (exponent < -14)
      (significand.toNat % 2 ^ A64.binary16.format.dropped src exponent ≠ 0)
      (A64.binary16.format.narrow src significand.toNat exponent
        (A64.direction (fpcrMode &&& 3).toNat sign))
      (fpToFp16Significand src sign significand exponent fpcrMode 0) := by
  have hemin : A64.binary16.format.emin = -14 := rfl
  have hlarge := le_halfMaxExp fpcrMode
  refine .inr ⟨?_, decide_eq_false (by omega), fpToFp16Significand_large h⟩
  rw [halfFinite_eq]
  refine Nat.le_trans ?_ (FloatFormat.le_narrow hsrc hlo (by omega) _)
  exact Nat.mul_le_mul_right (2 ^ 10) (show _ ≤ (exponent - -14).toNat + 1 by omega)

include hbits hhi

theorem fpToFp16Significand_tiny_code (hmin : exponent < -14) :
    HalfResult sign fpcrMode (exponent < -14)
      (significand.toNat % 2 ^ A64.binary16.format.dropped src exponent ≠ 0)
      (A64.binary16.format.narrow src significand.toNat exponent
        (A64.direction (fpcrMode &&& 3).toNat sign))
      (fpToFp16Significand src sign significand exponent fpcrMode 0) := by
  have hemin : A64.binary16.format.emin = -14 := rfl
  have hlarge := le_halfMaxExp fpcrMode
  cases hr : fpRoundShiftRight significand (src - 10 + (-14 - exponent).toNat) fpcrMode sign with
  | mk rounded inexact =>
    obtain ⟨hle, hcode, hinexact⟩ := rounded_narrow (f := A64.binary16) hsrc hhi
      (hhi.trans_le (Nat.pow_le_pow_right Nat.two_pos hbits)) (hmin.trans_eq hemin.symm) hr
    rw [fpToFp16Significand_subnormal hmin hr, ← hcode]
    refine .inl ⟨hle.trans_lt ?_, inexact, hinexact, packed_tiny_toNat (t := .half) rfl hle, ?_⟩
    · rw [halfFinite_eq]
      exact show 2 ^ 10 < (halfMaxExp fpcrMode + 16).toNat * 2 ^ 10 by omega
    · rw [decide_eq_true hmin, Bool.true_and]

include hlo

theorem fpToFp16Significand_middle_code (hmin : -14 ≤ exponent)
    (hmax : exponent ≤ halfMaxExp fpcrMode) :
    HalfResult sign fpcrMode (exponent < -14)
      (significand.toNat % 2 ^ A64.binary16.format.dropped src exponent ≠ 0)
      (A64.binary16.format.narrow src significand.toNat exponent
        (A64.direction (fpcrMode &&& 3).toNat sign))
      (fpToFp16Significand src sign significand exponent fpcrMode 0) := by
  have hemin : A64.binary16.format.emin = -14 := rfl
  have hlarge := le_halfMaxExp fpcrMode
  have hnormal : decide (exponent < -14) = false := decide_eq_false (Int.not_lt.2 hmin)
  cases hr : fpRoundShiftRight significand (src - 10) fpcrMode sign with
  | mk rounded inexact =>
    obtain ⟨hnext, hcode, hinexact⟩ := carried_narrow (f := A64.binary16) hsrc (by omega) hlo
      hhi (by decide) (hemin.trans_le hmin) hr
    have hexp : 1 ≤ (carried 10 rounded exponent).2 + 15 := hnext
    have hsum : ((carried 10 rounded exponent).2 + 15).toNat * 2 ^ 10 +
        (carried 10 rounded exponent).1.toNat % 2 ^ 10 = _ := hcode
    have hmod := Nat.mod_lt (carried 10 rounded exponent).1.toNat (Nat.two_pow_pos 10)
    rw [fpToFp16Significand_normal hmin hmax hr, hnormal]
    rcases Int.lt_or_le (halfMaxExp fpcrMode) (carried 10 rounded exponent).2 with hover | hover
    · rw [if_pos hover]
      refine .inr ⟨?_, rfl, rfl⟩
      rw [halfFinite_eq, ← hsum]
      omega
    · have hlt : A64.binary16.format.narrow src significand.toNat exponent
          (A64.direction (fpcrMode &&& 3).toNat sign) < halfFinite fpcrMode := by
        rw [halfFinite_eq, ← hsum]
        omega
      have hfits : halfFinite fpcrMode ≤ 2 ^ 15 := by
        rw [halfFinite_eq]
        omega
      have hfrac : (((carried 10 rounded exponent).1 &&& 0x03FF).setWidth 16).toNat =
          (carried 10 rounded exponent).1.toNat % 2 ^ 10 := by
        have hmask : (0x03FF : U64).toNat = 2 ^ 10 - 1 := rfl
        rw [BitVec.toNat_setWidth, and_mask_toNat _ hmask, Nat.mod_eq_of_lt (by omega)]
      rw [if_neg (Int.not_lt.2 hover)]
      exact .inl ⟨hlt, inexact, hinexact,
        packed_toNat (t := .half) hexp hcode (hlt.trans_le hfits) hfrac, rfl⟩

theorem fpToFp16Significand_code :
    HalfResult sign fpcrMode (exponent < -14)
      (significand.toNat % 2 ^ A64.binary16.format.dropped src exponent ≠ 0)
      (A64.binary16.format.narrow src significand.toNat exponent
        (A64.direction (fpcrMode &&& 3).toNat sign))
      (fpToFp16Significand src sign significand exponent fpcrMode 0) := by
  rcases Int.lt_or_le exponent (-14) with hmin | hmin
  · exact fpToFp16Significand_tiny_code hsrc hbits hhi hmin
  · rcases Int.lt_or_le (halfMaxExp fpcrMode) exponent with hmax | hmax
    · exact fpToFp16Significand_large_code hsrc hlo hmax
    · exact fpToFp16Significand_middle_code hsrc hbits hlo hhi hmin hmax

/-- The rounding that `FPCR.AHP` selects. -/
def FPRoundHalf (fpcrMode : U32) (sign : Bool) (x : ℚ) (result : U16 × U64) : Prop :=
  if fpcrAlternativeHalfEnabled fpcrMode then
    A64.FPRoundAlt (fpcrMode &&& 3).toNat sign x result.1.toNat result.2
  else A64.FPRound A64.binary16 (fpcrMode &&& 3).toNat sign x result.1.toNat result.2

omit hsrc hbits hlo hhi in
theorem fp16OverflowResult_eq (h : fpcrAlternativeHalfEnabled fpcrMode = false) :
    (fp16OverflowResult sign fpcrMode 0).1.toNat = A64.binary16.pattern sign
        (if A64.direction (fpcrMode &&& 3).toNat sign = .down then A64.binary16.infinity - 1
          else A64.binary16.infinity) ∧
      (fp16OverflowResult sign fpcrMode 0).2 = fpsrFlags false true false true := by
  rw [fp16OverflowResult, h, if_neg (by decide), fpRoundOverflowToInf]
  rcases rmode_cases fpcrMode with h | h | h | h <;> rw [h] <;> cases sign <;> decide

omit hsrc hbits hlo hhi in
theorem fp16OverflowResult_alt (h : fpcrAlternativeHalfEnabled fpcrMode = true) :
    (fp16OverflowResult sign fpcrMode 0).1.toNat = A64.binary16.pattern sign (2 ^ 15 - 1) ∧
      (fp16OverflowResult sign fpcrMode 0).2 = fpsrFlags true false false false := by
  rw [fp16OverflowResult, h, if_pos rfl]
  cases sign <;> decide

theorem fpToFp16Significand_ieee (h : fpcrAlternativeHalfEnabled fpcrMode = false) :
    A64.FPRound A64.binary16 (fpcrMode &&& 3).toNat sign
      (significand.toNat * 2 ^ (exponent - src))
      (fpToFp16Significand src sign significand exponent fpcrMode 0).1.toNat
      (fpToFp16Significand src sign significand exponent fpcrMode 0).2 := by
  have hemin : A64.binary16.format.emin = -14 := rfl
  have hfinite : halfFinite fpcrMode = A64.binary16.infinity := by
    rw [halfFinite, h]
    rfl
  have hcode : HalfResult sign fpcrMode (exponent < -14) _ _ _ :=
    fpToFp16Significand_code hsrc hbits hlo hhi
  rcases hcode with ⟨hlt, inexact, hinexact, hresult, hflags⟩ | ⟨hge, htiny, hover⟩
  · rw [hfinite] at hlt
    rw [hresult, hflags]
    refine fpRound_of_narrow (by decide) hsrc hlo hhi rfl ?_ ?_ ?_ ?_
    · rw [if_pos hlt]
    · exact iff_of_false (by decide) (Nat.not_le.2 hlt)
    · rw [hemin, Bool.and_eq_true, decide_eq_true_eq]
    · rw [hinexact]
      simp
  · rw [hfinite] at hge
    obtain ⟨hresult, hflags⟩ := fp16OverflowResult_eq h
    rw [hover, hresult, hflags]
    refine fpRound_of_narrow (by decide) hsrc hlo hhi rfl ?_ ?_ ?_ ?_
    · rw [if_neg (Nat.not_lt.2 hge)]
    · exact iff_of_true rfl hge
    · rw [hemin]
      exact iff_of_false (by decide) fun hlow => of_decide_eq_false htiny hlow.1
    · exact iff_of_true rfl (.inl rfl)

theorem fpToFp16Significand_alt (h : fpcrAlternativeHalfEnabled fpcrMode = true) :
    A64.FPRoundAlt (fpcrMode &&& 3).toNat sign (significand.toNat * 2 ^ (exponent - src))
      (fpToFp16Significand src sign significand exponent fpcrMode 0).1.toNat
      (fpToFp16Significand src sign significand exponent fpcrMode 0).2 := by
  have hfinite : halfFinite fpcrMode = 2 ^ 15 := by
    rw [halfFinite, h]
    rfl
  have hcode : HalfResult sign fpcrMode (exponent < -14) _ _ _ :=
    fpToFp16Significand_code hsrc hbits hlo hhi
  rcases hcode with ⟨hlt, inexact, hinexact, hresult, hflags⟩ | ⟨hge, htiny, hover⟩
  · rw [hfinite] at hlt
    rw [hresult, hflags]
    refine fpRoundAlt_of_narrow hsrc hlo hhi rfl ?_ ?_ ?_ ?_
    · rw [if_pos hlt]
    · exact iff_of_false (by decide) (Nat.not_le.2 hlt)
    · rw [Bool.and_eq_true, decide_eq_true_eq, hinexact, or_iff_right (Nat.not_le.2 hlt)]
    · rw [hinexact, and_iff_right hlt]
  · rw [hfinite] at hge
    obtain ⟨hresult, hflags⟩ := fp16OverflowResult_alt h
    rw [hover, hresult, hflags]
    refine fpRoundAlt_of_narrow hsrc hlo hhi rfl ?_ ?_ ?_ ?_
    · rw [if_neg (Nat.not_lt.2 hge)]
    · exact iff_of_true rfl hge
    · exact iff_of_false (by decide) fun hlow => of_decide_eq_false htiny hlow.1
    · exact iff_of_false (by decide) fun hlow => Nat.not_lt.2 hge hlow.1

theorem fpToFp16Significand_rounded :
    FPRoundHalf fpcrMode sign (significand.toNat * 2 ^ (exponent - src))
      (fpToFp16Significand src sign significand exponent fpcrMode 0) := by
  rw [FPRoundHalf]
  split
  · next h => exact fpToFp16Significand_alt hsrc hbits hlo hhi h
  · next h => exact fpToFp16Significand_ieee hsrc hbits hlo hhi (Bool.eq_false_iff.2 h)

end Half

theorem fpRoundHalf_zero (fpcrMode : U32) (sign : Bool) :
    FPRoundHalf fpcrMode sign 0 (fpZeroBits .half sign, 0) := by
  have hpattern : (fpZeroBits .half sign).toNat = A64.binary16.pattern sign 0 :=
    pattern_eq (t := .half) 0
  rw [FPRoundHalf, hpattern]
  split
  · have hvalue := A64.binary16.format.value_zero
    have hrep : A64.binary16.format.Representable (2 ^ 15) 0 := ⟨0, by decide, hvalue⟩
    have hflags : (0 : U64) = fpsrFlags false false false false := rfl
    refine ⟨0, FloatFormat.isRounded_exact _ hvalue, rfl, ?_⟩
    rw [hflags]
    exact fpsrFlags_raised (by simp) (by simp)
      (iff_of_false (fun htiny => htiny.2 hrep) (by decide))
      (iff_of_false (fun hlost => hlost.2 hrep) (by decide))
  · exact fpRound_zero A64.binary16 _ _ (by decide)

/-- The fields of a pattern of any type. -/
theorem masked_fields (t : FpType) (bits : BitVec t.width) :
    (bits &&& fpSignMaskBits t != 0) = t.interchange.sign bits.toNat ∧
      t.interchange.code bits.toNat =
        (((bits &&& fpExpMaskBits t) >>> fpFracBitsCount t).setWidth 32).toNat *
            2 ^ fpFracBitsCount t + (bits &&& fpFracMaskBits t).toNat ∧
      (bits &&& fpFracMaskBits t).toNat < 2 ^ fpFracBitsCount t := by
  have hfrac : (bits &&& fpFracMaskBits t).toNat = bits.toNat % 2 ^ fpFracBitsCount t :=
    and_mask_toNat bits (by cases t <;> rfl)
  have hmask : (fpExpMaskBits t).toNat >>> fpFracBitsCount t = 2 ^ fpExpBitsCount t - 1 := by
    cases t <;> rfl
  have hsign : (fpSignMaskBits t).toNat = 2 ^ (t.interchange.expBits + t.interchange.fracBits) := by
    cases t <;> rfl
  have hexp : (((bits &&& fpExpMaskBits t) >>> fpFracBitsCount t).setWidth 32).toNat =
      bits.toNat / 2 ^ fpFracBitsCount t % 2 ^ fpExpBitsCount t := by
    have hlt := Nat.mod_lt (bits.toNat / 2 ^ fpFracBitsCount t)
      (Nat.two_pow_pos (fpExpBitsCount t))
    have hfits : 2 ^ fpExpBitsCount t < 2 ^ 32 := by
      cases t <;> decide
    rw [BitVec.toNat_setWidth, BitVec.toNat_ushiftRight, BitVec.toNat_and,
      Nat.shiftRight_and_distrib, hmask, Nat.and_two_pow_sub_one_eq_mod, Nat.shiftRight_eq_div_pow,
      Nat.mod_eq_of_lt (hlt.trans hfits)]
  refine ⟨?_, ?_, ?_⟩
  · rw [Bool.eq_iff_iff, bne_iff_ne, ne_eq, ← BitVec.toNat_inj, BitVec.toNat_and, hsign,
      Nat.and_two_pow, A64.Interchange.sign]
    cases bits.toNat.testBit (t.interchange.expBits + t.interchange.fracBits) <;> simp
  · rw [hexp, hfrac, ← code_split]
    cases t <;> rfl
  · rw [hfrac]
    exact Nat.mod_lt _ (Nat.two_pow_pos _)

theorem fpToFp16Bits_finite {src : FpType} {bits : BitVec src.width} {fpcrMode : U32} {exp : U32}
    {frac : BitVec src.width}
    (hexp : ((bits &&& fpExpMaskBits src) >>> fpFracBitsCount src).setWidth 32 = exp)
    (hfrac : bits &&& fpFracMaskBits src = frac)
    (hspecial : exp ≠ ((1 : U32) <<< fpExpBitsCount src) - 1)
    (hfz : fpcrFlushToZeroEnabled fpcrMode = false) :
    fpToFp16Bits src bits fpcrMode =
      if exp = 0 ∧ frac = 0 then (fpZeroBits .half (bits &&& fpSignMaskBits src != 0), 0)
      else
        fpToFp16Significand (fpFracBitsCount src) (bits &&& fpSignMaskBits src != 0)
          (normalizedSignificand (fpFracBitsCount src) (fpExpBias src) exp (frac.setWidth 64)).1
          (normalizedSignificand (fpFracBitsCount src) (fpExpBias src) exp (frac.setWidth 64)).2
          fpcrMode 0 := by
  have hflush : fpFlushInputDenormalBits src bits fpcrMode 0 = (bits, 0) :=
    fpFlushInputDenormalBits_off bits 0 hfz
  subst hexp hfrac
  rw [fpToFp16Bits, if_neg hspecial, hflush]
  rfl

theorem fpToFp16Bits_half (src : FpType) (hsrc : src ≠ .half) {bits : BitVec src.width}
    {fpcrMode : U32} (hfinite : src.interchange.IsFinite bits.toNat)
    (hfz : fpcrFlushToZeroEnabled fpcrMode = false) :
    FPRoundHalf fpcrMode (src.interchange.sign bits.toNat) (src.interchange.magnitude bits.toNat)
      (fpToFp16Bits src bits fpcrMode) := by
  obtain ⟨hsign, hcode, hlt⟩ := masked_fields src bits
  have hformat : src.interchange.format = ⟨fpFracBitsCount src, 1 - fpExpBias src⟩ := by
    cases src <;> rfl
  have hbits : 10 ≤ fpFracBitsCount src ∧ fpFracBitsCount src < 63 := by
    cases src <;> first | exact absurd rfl hsrc | decide
  have hinf : src.interchange.infinity =
      (((1 : U32) <<< fpExpBitsCount src) - 1).toNat * 2 ^ fpFracBitsCount src := by
    cases src <;> rfl
  rw [A64.Interchange.IsFinite, hcode, hinf] at hfinite
  rw [A64.Interchange.magnitude, hcode, hformat]
  generalize hexp : ((bits &&& fpExpMaskBits src) >>> fpFracBitsCount src).setWidth 32 = exp at *
  generalize hfrac : bits &&& fpFracMaskBits src = frac at *
  have hspecial : exp ≠ ((1 : U32) <<< fpExpBitsCount src) - 1 := by
    intro h
    rw [h] at hfinite
    exact Nat.not_lt.2 (Nat.le_add_right _ _) hfinite
  have hwide : (frac.setWidth 64).toNat = frac.toNat := by
    have hwidth : src.width ≤ 64 := by
      cases src <;> decide
    rw [BitVec.toNat_setWidth, Nat.mod_eq_of_lt]
    exact frac.isLt.trans_le (Nat.pow_le_pow_right Nat.two_pos hwidth)
  rw [fpToFp16Bits_finite hexp hfrac hspecial hfz, hsign]
  split
  · next hzero =>
    have hexp : exp.toNat = 0 := congrArg BitVec.toNat hzero.1
    have hfrac : frac.toNat = 0 := by
      rw [hzero.2]
      rfl
    rw [hexp, hfrac, Nat.zero_mul, FloatFormat.value_zero]
    exact fpRoundHalf_zero _ _
  · next hzero =>
    have hne : ¬ (exp = 0 ∧ frac.setWidth 64 = 0) := by
      rintro ⟨he, hf⟩
      refine hzero ⟨he, BitVec.eq_of_toNat_eq ?_⟩
      rw [← hwide, hf]
      rfl
    rw [← hwide] at hlt ⊢
    obtain ⟨hlo, hhi, hvalue⟩ := normalizedSignificand_eq (fpExpBias src) hbits.2 hlt hne
    rw [hvalue]
    exact fpToFp16Significand_rounded hbits.1 hbits.2 hlo hhi

/-- The narrowing to a half is `FPRound`, in the format that `FPCR.AHP` selects. -/
theorem fpToFp16Bits_rounded (src : FpType) (hsrc : src ≠ .half) (bits : BitVec src.width)
    (fpcrMode : U32) (hfinite : src.interchange.IsFinite bits.toNat)
    (hfz : fpcrFlushToZeroEnabled fpcrMode = false) :
    FPRoundHalf fpcrMode (src.interchange.sign bits.toNat) (src.interchange.magnitude bits.toNat)
      (fpToFp16Bits src bits fpcrMode) :=
  fpToFp16Bits_half src hsrc hfinite hfz

theorem fpToFp16Bits_rounded_third :
    FPRoundHalf 1 true (A64.binary32.magnitude 0xBEAAAAAB) (fpToFp16Bits .single 0xBEAAAAAB#32 1) :=
  fpToFp16Bits_rounded .single (by decide) 0xBEAAAAAB#32 1 (by decide) (by decide)

end Aarchvm
