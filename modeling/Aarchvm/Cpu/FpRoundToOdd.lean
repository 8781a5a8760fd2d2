import Aarchvm.Cpu.FpExact
import Mathlib.Tactic.NormNum

/-!
# Rounding to odd

`FCVTXN` narrows so that a later narrowing to half sees whether bits were lost. A double that
overflows a single overflows a half as well.
-/
namespace Aarchvm

open Lib

theorem roundShiftRightOdd_eq (value : U64) (shift : Nat) :
    (roundShiftRightOdd value shift).1.toNat = oddShift value.toNat shift ∧
      ((roundShiftRightOdd value shift).2 = true ↔ value.toNat % 2 ^ shift ≠ 0) := by
  have hquot : (if 64 ≤ shift then (0 : U64) else value >>> shift).toNat =
      value.toNat / 2 ^ shift := by
    split
    · next h =>
      have hpow : 2 ^ 64 ≤ 2 ^ shift := Nat.pow_le_pow_right Nat.two_pos h
      exact (Nat.div_eq_of_lt (value.isLt.trans_le hpow)).symm
    · rw [BitVec.toNat_ushiftRight, Nat.shiftRight_eq_div_pow]
  have hrem : (if 64 ≤ shift then value else value &&& ones shift).toNat =
      value.toNat % 2 ^ shift := by
    split
    · next h =>
      have hpow : 2 ^ 64 ≤ 2 ^ shift := Nat.pow_le_pow_right Nat.two_pos h
      exact (Nat.mod_eq_of_lt (value.isLt.trans_le hpow)).symm
    · rw [and_ones_eq, BitVec.toNat_setWidth, BitVec.toNat_setWidth]
      exact Nat.mod_eq_of_lt (Nat.lt_of_le_of_lt (Nat.mod_le ..) value.isLt)
  rw [roundShiftRightOdd]
  generalize (if 64 ≤ shift then (0 : U64) else value >>> shift) = quotient at *
  generalize (if 64 ≤ shift then value else value &&& ones shift) = remainder at *
  have hlost : (remainder != 0) = true ↔ value.toNat % 2 ^ shift ≠ 0 := by
    rw [bne_iff_ne, ne_eq, ← BitVec.toNat_inj, hrem]
    rfl
  have heven : (quotient &&& 1 == 0) = true ↔ value.toNat / 2 ^ shift % 2 = 0 := by
    have hone : (1 : U64).toNat = 1 := rfl
    rw [beq_iff_eq, ← BitVec.toNat_inj, BitVec.toNat_and, hquot, hone, Nat.and_one_is_mod]
    rfl
  refine ⟨?_, hlost⟩
  have hup : (remainder != 0 && quotient &&& 1 == 0) = true ↔
      value.toNat % 2 ^ shift ≠ 0 ∧ value.toNat / 2 ^ shift % 2 = 0 := by
    rw [Bool.and_eq_true, hlost, heven]
  rw [oddShift]
  by_cases h : value.toNat % 2 ^ shift ≠ 0 ∧ value.toNat / 2 ^ shift % 2 = 0
  · have hsmall : quotient.toNat + 1 < 2 ^ 64 := by
      have hlt := quotient.isLt
      rw [← hquot] at h
      omega
    have hsucc : (quotient + 1).toNat = quotient.toNat + 1 := by
      rw [BitVec.toNat_add]
      exact Nat.mod_eq_of_lt hsmall
    rw [if_pos h, ← hquot, ← hsucc]
    exact congrArg BitVec.toNat (if_pos (hup.2 h))
  · rw [if_neg h, ← hquot]
    exact congrArg BitVec.toNat (if_neg (mt hup.1 h))

section Single

variable {sign : Bool} {significand : U64} {exponent : Int} {fpcrMode : U32}

theorem fp64ToFp32SignificandRoundToOdd_overflow (h : 127 < exponent) :
    (fp64ToFp32SignificandRoundToOdd sign significand exponent fpcrMode 0).1.toNat =
      A64.binary32.pattern sign (A64.binary32.infinity - 1) := by
  rw [fp64ToFp32SignificandRoundToOdd, if_pos h, fp32OddOverflowResult]
  cases sign <;> rfl

variable (hfz : fpcrFlushToZeroEnabled fpcrMode = false)
  (hhi : significand.toNat < 2 ^ (52 + 1))
include hfz hhi

theorem fp64ToFp32SignificandRoundToOdd_tiny (h : exponent < -126) :
    A64.binary32.format.narrowOdd 52 significand.toNat exponent < A64.binary32.infinity ∧
      (fp64ToFp32SignificandRoundToOdd sign significand exponent fpcrMode 0).1.toNat =
        A64.binary32.pattern sign
          (A64.binary32.format.narrowOdd 52 significand.toNat exponent) := by
  have hemin : A64.binary32.format.emin = -126 := rfl
  have hdrop : A64.binary32.format.dropped 52 exponent = 29 + (-126 - exponent).toNat := rfl
  have hzero : (exponent - A64.binary32.format.emin).toNat = 0 := by omega
  have hnarrow : A64.binary32.format.narrowOdd 52 significand.toNat exponent =
      oddShift significand.toNat (29 + (-126 - exponent).toNat) := by
    rw [FloatFormat.narrowOdd, hzero, hdrop, Nat.zero_mul, Nat.zero_add]
  have hquot : significand.toNat / 2 ^ (29 + (-126 - exponent).toNat) < 2 * 2 ^ 22 := by
    rw [Nat.div_lt_iff_lt_mul (Nat.two_pow_pos _), Nat.mul_comm 2, ← Nat.pow_succ, ← Nat.pow_add]
    exact hhi.trans_le (Nat.pow_le_pow_right Nat.two_pos (by omega))
  have hsmall := oddShift_lt hquot
  cases hr : roundShiftRightOdd significand (29 + (-126 - exponent).toNat) with
  | mk rounded inexact =>
    have hrounded := (roundShiftRightOdd_eq significand (29 + (-126 - exponent).toNat)).1
    rw [hr] at hrounded
    dsimp only at hrounded
    have hle : rounded.toNat ≤ 2 ^ 23 := by omega
    have hlow : ¬ (1 : U64) <<< 23 ≤ rounded := by
      rw [BitVec.le_def]
      exact Nat.not_le.2 (hrounded.trans_lt hsmall)
    have hpacked : (if (1 : U64) <<< 23 ≤ rounded then fpZeroBits .single sign ||| 0x00800000#32
        else fpZeroBits .single sign ||| rounded.setWidth 32).toNat =
          A64.binary32.pattern sign rounded.toNat := packed_tiny_toNat (t := .single) rfl hle
    rw [hnarrow]
    refine ⟨hsmall.trans (by decide), ?_⟩
    rw [fp64ToFp32SignificandRoundToOdd, if_neg (by omega), hfz, Bool.false_and,
      if_neg (by decide), if_neg (by omega)]
    simp only [hr, fpFlushOutputDenormalBits_off _ _ hfz]
    rw [← hrounded]
    exact (congrArg BitVec.toNat (if_neg hlow)).symm.trans hpacked

variable (hlo : 2 ^ 52 ≤ significand.toNat)
include hlo

theorem fp64ToFp32SignificandRoundToOdd_normal (hmin : -126 ≤ exponent) (hmax : exponent ≤ 127) :
    A64.binary32.format.narrowOdd 52 significand.toNat exponent < A64.binary32.infinity ∧
      (fp64ToFp32SignificandRoundToOdd sign significand exponent fpcrMode 0).1.toNat =
        A64.binary32.pattern sign
          (A64.binary32.format.narrowOdd 52 significand.toNat exponent) := by
  have hemin : A64.binary32.format.emin = -126 := rfl
  have hzero : (A64.binary32.format.emin - exponent).toNat = 0 := by omega
  have hnarrow : A64.binary32.format.narrowOdd 52 significand.toNat exponent =
      (exponent + 126).toNat * 2 ^ 23 + oddShift significand.toNat 29 := by
    rw [FloatFormat.narrowOdd, FloatFormat.dropped, hzero]
    rfl
  have hquot : significand.toNat / 2 ^ 29 < 2 * 2 ^ 23 := by omega
  have hsmall := oddShift_lt hquot
  have hlarge : 2 ^ 23 ≤ oddShift significand.toNat 29 :=
    Nat.le_trans (by omega) (le_oddShift significand.toNat 29)
  cases hr : roundShiftRightOdd significand 29 with
  | mk rounded inexact =>
    have hrounded := (roundShiftRightOdd_eq significand 29).1
    rw [hr] at hrounded
    dsimp only at hrounded
    have hnocarry : rounded ≠ (1 : U64) <<< 24 := by
      rintro rfl
      exact absurd hrounded (Nat.ne_of_gt hsmall)
    have hcode : (exponent + 127).toNat * 2 ^ 23 + rounded.toNat % 2 ^ 23 =
        A64.binary32.format.narrowOdd 52 significand.toNat exponent := by
      omega
    have hfrac : (rounded.setWidth 32 &&& 0x007FFFFF#32).toNat = rounded.toNat % 2 ^ 23 := by
      rw [and_mask_toNat _ (show (0x007FFFFF#32).toNat = 2 ^ 23 - 1 from rfl),
        BitVec.toNat_setWidth, Nat.mod_mod_of_dvd _ (Nat.pow_dvd_pow 2 (by decide))]
    have hlt : A64.binary32.format.narrowOdd 52 significand.toNat exponent <
        A64.binary32.infinity := by
      rw [hnarrow]
      exact show _ < 255 * 2 ^ 23 by omega
    refine ⟨hlt, ?_⟩
    rw [fp64ToFp32SignificandRoundToOdd, if_neg (by omega), hfz, Bool.false_and,
      if_neg (by decide), if_pos hmin, hr]
    simp only [if_neg hnocarry, if_neg (Int.not_lt.2 hmax), fpFlushOutputDenormalBits_off _ _ hfz]
    exact packed_toNat (t := .single) (show 1 ≤ exponent + 127 by omega) hcode
      (hlt.trans (by decide)) hfrac

end Single

/-! ## Two numbers that round alike -/

/-- To a half `x` and `y` round to one code, or both to a code with no number. -/
def RoundAlike (x y : ℚ) : Prop :=
  ∀ dir n m, A64.binary16.format.IsRounded dir x n → A64.binary16.format.IsRounded dir y m →
    n = m ∨ 2 ^ 15 ≤ n ∧ 2 ^ 15 ≤ m

theorem RoundAlike.refl (x : ℚ) : RoundAlike x x := fun _ _ _ hn hm => .inl (hn.unique hm)

theorem RoundAlike.of_large {x y : ℚ} (hx : 2 ^ 17 ≤ x) (hy : 2 ^ 17 ≤ y) : RoundAlike x y := by
  have hvalue : A64.binary16.format.value (2 ^ 15) = 2 ^ 17 := by
    norm_num [FloatFormat.value, A64.binary16, A64.Interchange.format, A64.Interchange.bias]
  rw [← hvalue] at hx hy
  exact fun _ _ _ hn hm => .inr ⟨hn.le_of_value_le hx, hm.le_of_value_le hy⟩

theorem FPRoundHalf.bits_eq {fpcrMode : U32} {sign : Bool} {x y : ℚ} {r r' : U16 × U64}
    (h : FPRoundHalf fpcrMode sign x r) (h' : FPRoundHalf fpcrMode sign y r')
    (halike : RoundAlike x y) : r.1 = r'.1 := by
  have hinf : A64.binary16.infinity ≤ 2 ^ 15 := by decide
  apply BitVec.eq_of_toNat_eq
  rw [FPRoundHalf] at h h'
  split at h
  · next halt =>
    rw [if_pos halt] at h'
    obtain ⟨n, hn, hresult, -⟩ := h
    obtain ⟨m, hm, hresult', -⟩ := h'
    rw [hresult, hresult']
    rcases halike _ n m hn hm with rfl | ⟨hlarge, hlarge'⟩
    · rfl
    · rw [if_neg (Nat.not_lt.2 hlarge), if_neg (Nat.not_lt.2 hlarge')]
  · next halt =>
    rw [if_neg halt] at h'
    obtain ⟨n, hn, hresult, -⟩ := h
    obtain ⟨m, hm, hresult', -⟩ := h'
    rw [hresult, hresult']
    rcases halike _ n m hn hm with rfl | ⟨hlarge, hlarge'⟩
    · rfl
    · rw [if_neg (Nat.not_lt.2 (hinf.trans hlarge)), if_neg (Nat.not_lt.2 (hinf.trans hlarge'))]

/-! ## Narrowing a double -/

/-- `n` is the code that rounding `x` to odd gives. -/
structure OddCode (x : ℚ) (n : ℕ) : Prop where
  finite : n < A64.binary32.infinity
  odd : x ≤ A64.binary32.format.value (A64.binary32.infinity - 1) →
    A64.binary32.format.IsRoundedOdd x n
  alike : RoundAlike (A64.binary32.format.value n) x

theorem oddCode_zero : OddCode 0 0 where
  finite := by decide
  odd _ := .inl A64.binary32.format.value_zero
  alike := by
    rw [FloatFormat.value_zero]
    exact RoundAlike.refl 0

theorem largest_single : A64.binary32.format.value (A64.binary32.infinity - 1) =
    (2 ^ 24 - 1) * 2 ^ 104 := by
  norm_num [FloatFormat.value, A64.binary32, A64.Interchange.format, A64.Interchange.bias,
    A64.Interchange.infinity]

section Code

variable {sign : Bool} {significand : ℕ} {exponent : Int} (hlo : 2 ^ 52 ≤ significand)
include hlo

theorem oddCode_overflow (h : 127 < exponent) :
    OddCode (significand * 2 ^ (exponent - (52 : ℕ))) (A64.binary32.infinity - 1) := by
  have hlarge : (2 : ℚ) ^ 128 ≤ significand * 2 ^ (exponent - (52 : ℕ)) := by
    have hscale : (2 : ℚ) ^ 128 = (2 ^ 52 : ℕ) * 2 ^ (76 : ℤ) := by norm_num
    have hpow : (2 : ℚ) ^ (76 : ℤ) ≤ 2 ^ (exponent - (52 : ℕ)) :=
      (zpow_le_zpow_iff_right₀ one_lt_two).2 (by omega)
    rw [hscale]
    exact mul_le_mul (by exact_mod_cast hlo) hpow (by positivity) (by positivity)
  refine ⟨by decide, fun hle => ?_, RoundAlike.of_large ?_ (le_trans (by norm_num) hlarge)⟩
  · rw [largest_single] at hle
    norm_num at hle hlarge
    linarith
  · rw [largest_single]
    norm_num

theorem oddCode_narrowOdd (hhi : significand < 2 ^ (52 + 1))
    (hlt : A64.binary32.format.narrowOdd 52 significand exponent < A64.binary32.infinity) :
    OddCode (significand * 2 ^ (exponent - (52 : ℕ)))
      (A64.binary32.format.narrowOdd 52 significand exponent) := by
  refine ⟨hlt, fun _ => FloatFormat.isRoundedOdd_narrowOdd (by decide) hlo hhi (by decide),
    fun dir n m hn hm => .inl ?_⟩
  have honce := (FloatFormat.isRounded_narrowOdd (G := A64.binary16.format) (by decide) hlo hhi
    (by decide) (by decide) (by decide) dir).1 hn
  exact honce.unique hm

end Code

theorem fp64ToFp32BitsRoundToOdd_finite {bits : U64} {fpcrMode : U32}
    (hexp : (bits >>> 52 &&& 0x7FF).setWidth 32 ≠ (0x7FF : U32))
    (hfz : fpcrFlushToZeroEnabled fpcrMode = false) :
    fp64ToFp32BitsRoundToOdd bits fpcrMode =
      if (bits >>> 52 &&& 0x7FF).setWidth 32 = (0 : U32) ∧ bits &&& 0x000FFFFFFFFFFFFF = 0 then
        (fpZeroBits .single (bits >>> 63 != 0), 0)
      else
        fp64ToFp32SignificandRoundToOdd (bits >>> 63 != 0)
          (normalizedSignificand 52 1023 ((bits >>> 52 &&& 0x7FF).setWidth 32)
            (bits &&& 0x000FFFFFFFFFFFFF)).1
          (normalizedSignificand 52 1023 ((bits >>> 52 &&& 0x7FF).setWidth 32)
            (bits &&& 0x000FFFFFFFFFFFFF)).2 fpcrMode 0 := by
  have hflush : fpFlushInputDenormalBits .double bits fpcrMode 0 = (bits, 0) :=
    fpFlushInputDenormalBits_off (t := .double) bits 0 hfz
  rw [fp64ToFp32BitsRoundToOdd, if_neg hexp, hflush]
  rfl

theorem fp64ToFp32BitsRoundToOdd_code {bits : U64} {fpcrMode : U32}
    (hfinite : A64.binary64.IsFinite bits.toNat) (hfz : fpcrFlushToZeroEnabled fpcrMode = false) :
    ∃ n, (fp64ToFp32BitsRoundToOdd bits fpcrMode).1.toNat =
        A64.binary32.pattern (A64.binary64.sign bits.toNat) n ∧
      OddCode (A64.binary64.magnitude bits.toNat) n := by
  obtain ⟨hsign, hcode, hfrac⟩ := double_fields bits
  rw [A64.Interchange.IsFinite, hcode] at hfinite
  have hspecial : (bits >>> 52 &&& 0x7FF).setWidth 32 ≠ (0x7FF : U32) := by
    intro h
    rw [h] at hfinite
    exact Nat.not_lt.2 (Nat.le_add_right (2047 * 2 ^ 52) _) hfinite
  rw [fp64ToFp32BitsRoundToOdd_finite hspecial hfz, hsign, A64.Interchange.magnitude, hcode]
  generalize (bits >>> 52 &&& 0x7FF).setWidth 32 = exp
  generalize bits &&& 0x000FFFFFFFFFFFFF = frac at hfrac ⊢
  split
  · next hzero =>
    have hexp : exp.toNat = 0 := congrArg BitVec.toNat hzero.1
    have hfrac : frac.toNat = 0 := congrArg BitVec.toNat hzero.2
    rw [hexp, hfrac, Nat.zero_mul, FloatFormat.value_zero]
    exact ⟨0, pattern_eq (t := .single) 0, oddCode_zero⟩
  · next hzero =>
    obtain ⟨hlo, hhi, hvalue⟩ := normalizedSignificand_eq 1023 (show 52 < 63 by decide) hfrac hzero
    have hformat : A64.binary64.format = ⟨52, 1 - 1023⟩ := rfl
    rw [hformat, hvalue]
    generalize (normalizedSignificand 52 1023 exp frac).1 = significand at *
    generalize (normalizedSignificand 52 1023 exp frac).2 = exponent at *
    rcases Int.lt_or_le 127 exponent with hmax | hmax
    · exact ⟨_, fp64ToFp32SignificandRoundToOdd_overflow hmax, oddCode_overflow hlo hmax⟩
    · rcases Int.lt_or_le exponent (-126) with hmin | hmin
      · obtain ⟨hlt, hresult⟩ := fp64ToFp32SignificandRoundToOdd_tiny hfz hhi hmin
        exact ⟨_, hresult, oddCode_narrowOdd hlo hhi hlt⟩
      · obtain ⟨hlt, hresult⟩ := fp64ToFp32SignificandRoundToOdd_normal hfz hhi hlo hmin hmax
        exact ⟨_, hresult, oddCode_narrowOdd hlo hhi hlt⟩

/-- Narrowing to a half by way of a single rounded to odd is narrowing directly, and the single
is the double or its odd neighbour. -/
theorem fp64ToFp32BitsRoundToOdd_innocuous (bits : U64) (fpcrMode : U32)
    (hfinite : A64.binary64.IsFinite bits.toNat) (hfz : fpcrFlushToZeroEnabled fpcrMode = false) :
    (fpToFp16Bits .single (fp64ToFp32BitsRoundToOdd bits fpcrMode).1 fpcrMode).1 =
        (fpToFp16Bits .double bits fpcrMode).1 ∧
      (A64.binary64.magnitude bits.toNat ≤
          A64.binary32.format.value (A64.binary32.infinity - 1) →
        ∃ n < A64.binary32.infinity,
          (fp64ToFp32BitsRoundToOdd bits fpcrMode).1.toNat =
            A64.binary32.pattern (A64.binary64.sign bits.toNat) n ∧
          A64.binary32.format.IsRoundedOdd (A64.binary64.magnitude bits.toNat) n) := by
  obtain ⟨n, hresult, hodd⟩ := fp64ToFp32BitsRoundToOdd_code hfinite hfz
  refine ⟨?_, fun hle => ⟨n, hodd.finite, hresult, hodd.odd hle⟩⟩
  have hwidth : n < 2 ^ (8 + 23) := hodd.finite.trans (by decide)
  have hcode := A64.Interchange.code_pattern (f := A64.binary32)
    (A64.binary64.sign bits.toNat) hwidth
  have hsign := A64.Interchange.sign_pattern (f := A64.binary32)
    (A64.binary64.sign bits.toNat) hwidth
  have honce : FPRoundHalf fpcrMode (A64.binary64.sign bits.toNat) _ _ :=
    fpToFp16Bits_half .double (by decide) hfinite hfz
  have hsingle : A64.binary32.IsFinite (fp64ToFp32BitsRoundToOdd bits fpcrMode).1.toNat := by
    rw [A64.Interchange.IsFinite, hresult, hcode]
    exact hodd.finite
  have htwice : FPRoundHalf fpcrMode
      (A64.binary32.sign (fp64ToFp32BitsRoundToOdd bits fpcrMode).1.toNat) _ _ :=
    fpToFp16Bits_half .single (by decide) hsingle hfz
  rw [hresult, hsign] at htwice
  refine htwice.bits_eq honce ?_
  have hmagnitude : A64.binary32.magnitude (A64.binary32.pattern (A64.binary64.sign bits.toNat) n) =
      A64.binary32.format.value n := congrArg A64.binary32.format.value hcode
  exact hmagnitude ▸ hodd.alike

theorem fp64ToFp32BitsRoundToOdd_innocuous_sticky :
    (fpToFp16Bits .single (fp64ToFp32BitsRoundToOdd 0x3FF0020000000001 0).1 0).1 = 0x3C01 := by
  have hdirect : (fpToFp16Bits .double 0x3FF0020000000001 0).1 = 0x3C01 := by decide
  exact (fp64ToFp32BitsRoundToOdd_innocuous 0x3FF0020000000001 0 (by decide)
    (by decide)).1.trans hdirect

end Aarchvm
