import Aarchvm.Cpu.FpExact

/-!
# Integers to floating point

An integer is a significand whose exponent is the place of its leading bit.
-/
namespace Aarchvm

open Lib

section Magnitude

variable {w : Nat} (isSigned : Bool) (value : BitVec w)

/-- The integer that a word of the type is. -/
def integerOf : ℤ := if isSigned then value.toInt else value.toNat

def magnitudeOf : BitVec w := if isSigned && value.msb then -(value + 1) + 1 else value

theorem integerOf_neg : (isSigned && value.msb) = decide (integerOf isSigned value < 0) := by
  cases isSigned with
  | false =>
    rw [Bool.false_and, integerOf, if_neg (by decide)]
    exact (decide_eq_false (by omega)).symm
  | true =>
    rw [Bool.true_and, integerOf, if_pos rfl, BitVec.msb_eq_toInt]

theorem magnitudeOf_toNat :
    (magnitudeOf isSigned value).toNat = (integerOf isSigned value).natAbs := by
  cases isSigned with
  | false => rfl
  | true =>
    rw [magnitudeOf, integerOf, if_pos rfl, Bool.true_and, BitVec.toInt_eq_msb_cond]
    cases hmsb : value.msb with
    | false => rfl
    | true =>
      have hneg : -(value + 1) + 1 = -value := by
        rw [neg_add, neg_add_cancel_right]
      have hlt := value.isLt
      have hpos : 0 < value.toNat := by
        refine Nat.pos_of_ne_zero fun hzero => ?_
        rw [BitVec.msb_eq_decide, hzero, decide_eq_true_eq] at hmsb
        exact absurd hmsb (Nat.not_le.2 (Nat.two_pow_pos _))
      rw [if_pos rfl, if_pos rfl, hneg, BitVec.toNat_neg, Nat.mod_eq_of_lt (by omega)]
      omega

end Magnitude

section Convert

variable {dst : FpType} {w : Nat} {isSigned : Bool} {value : BitVec w} {fpcrMode : U32}
  {magnitude : U64}

theorem fpIntToFpBits_zero (h : magnitudeOf isSigned value = 0) :
    fpIntToFpBits dst isSigned value fpcrMode = (0, 0) := if_pos h

theorem fpIntToFpBits_exact (h : magnitudeOf isSigned value ≠ 0)
    (hmag : (magnitudeOf isSigned value).setWidth 64 = magnitude)
    (hle : 63 - builtinClz magnitude ≤ fpFracBitsCount dst) :
    fpIntToFpBits dst isSigned value fpcrMode =
      (fpZeroBits dst (isSigned && value.msb) |||
        (BitVec.ofInt dst.width ((63 - builtinClz magnitude : Nat) + fpExpBias dst) <<<
          fpFracBitsCount dst) |||
        ((magnitude <<< (fpFracBitsCount dst - (63 - builtinClz magnitude))).setWidth dst.width &&&
          fpFracMaskBits dst), fpsrFlags false false false false) := by
  subst hmag
  exact (if_neg h).trans (if_pos hle)

theorem fpIntToFpBits_rounding (h : magnitudeOf isSigned value ≠ 0)
    (hmag : (magnitudeOf isSigned value).setWidth 64 = magnitude)
    (hlt : fpFracBitsCount dst < 63 - builtinClz magnitude) {rounded : U64} {inexact : Bool}
    (hr : fpRoundShiftRight magnitude (63 - builtinClz magnitude - fpFracBitsCount dst) fpcrMode
      (isSigned && value.msb) = (rounded, inexact)) :
    fpIntToFpBits dst isSigned value fpcrMode =
      (fpZeroBits dst (isSigned && value.msb) |||
        (BitVec.ofInt dst.width
          ((carried (fpFracBitsCount dst) rounded (63 - builtinClz magnitude : Nat)).2 +
            fpExpBias dst) <<< fpFracBitsCount dst) |||
        ((carried (fpFracBitsCount dst) rounded (63 - builtinClz magnitude : Nat)).1.setWidth
          dst.width &&& fpFracMaskBits dst), fpsrFlags false false false inexact) := by
  subst hmag
  refine (if_neg h).trans ((if_neg (Nat.not_le.2 hlt)).trans ?_)
  rw [magnitudeOf] at hr ⊢
  rw [hr]
  by_cases hcarry : rounded = (1 : U64) <<< (fpFracBitsCount dst + 1)
  · simp only [carried, if_pos hcarry]
    cases inexact <;> rfl
  · simp only [carried, if_neg hcarry]
    cases inexact <;> rfl

theorem fixedToFP_of {f : A64.Interchange} {rmode : ℕ} {i : ℤ} {n result : ℕ} {inexact : Bool}
    (hlt : n < f.infinity) (hrounded : f.format.IsRounded (A64.direction rmode (i < 0)) i.natAbs n)
    (hresult : result = f.pattern (i < 0) n)
    (hinexact : inexact = true ↔ f.format.value n ≠ i.natAbs) :
    A64.FixedToFP f rmode i result (fpsrFlags false false false inexact) := by
  refine ⟨n, hlt, hrounded, hresult, fpsrFlags_raised (by simp) (by simp) (by simp) ?_⟩
  rw [hrounded.representable_iff, and_iff_right hlt, hinexact]

theorem lt_infinity_of {f : A64.Interchange} {exponent fraction : ℕ}
    (hexp : exponent + 1 < 2 ^ f.expBits) (hfrac : fraction < 2 ^ f.fracBits) :
    exponent * 2 ^ f.fracBits + fraction < f.infinity := by
  have hle := Nat.mul_le_mul_right (2 ^ f.fracBits) (show exponent + 1 ≤ 2 ^ f.expBits - 1 by omega)
  rw [Nat.succ_mul] at hle
  exact Nat.lt_of_lt_of_le (Nat.add_lt_add_left hfrac _) hle

/-- What the proof needs of a destination. -/
structure IsDestination (dst : FpType) : Prop where
  fracBits : fpFracBitsCount dst = dst.interchange.fracBits
  bias : fpExpBias dst = dst.interchange.bias
  pos : 0 < dst.interchange.fracBits
  narrow : dst.interchange.fracBits < 63
  mask : (fpFracMaskBits dst).toNat = 2 ^ dst.interchange.fracBits - 1
  fits : dst.interchange.fracBits ≤ dst.width
  low : 1 ≤ dst.interchange.bias
  high : dst.interchange.bias + 65 < 2 ^ dst.interchange.expBits

theorem isDestination {dst : FpType} (hdst : dst ≠ .half) : IsDestination dst := by
  cases dst with
  | half => exact absurd rfl hdst
  | single => exact ⟨rfl, rfl, by decide, by decide, rfl, by decide, by decide, by decide⟩
  | double => exact ⟨rfl, rfl, by decide, by decide, rfl, by decide, by decide, by decide⟩

theorem masked_toNat {dst : FpType} (hd : IsDestination dst) (x : U64) :
    (x.setWidth dst.width &&& fpFracMaskBits dst).toNat =
      x.toNat % 2 ^ dst.interchange.fracBits := by
  rw [and_mask_toNat _ hd.mask, BitVec.toNat_setWidth,
    Nat.mod_mod_of_dvd _ (Nat.pow_dvd_pow 2 hd.fits)]

/-- The leading bit of an integer that is not zero. -/
theorem leading_bounds (hne : magnitude ≠ 0) :
    2 ^ (63 - builtinClz magnitude) ≤ magnitude.toNat ∧
      magnitude.toNat < 2 ^ (63 - builtinClz magnitude + 1) ∧ 63 - builtinClz magnitude < 64 := by
  have hpos : 0 < magnitude.toNat :=
    Nat.pos_of_ne_zero fun hzero => hne (BitVec.eq_of_toNat_eq hzero)
  have hsize : magnitude.toNat.size ≤ 64 := Nat.size_le.2 magnitude.isLt
  have hsizepos : 0 < magnitude.toNat.size := Nat.size_pos.2 hpos
  have hleading : 63 - builtinClz magnitude = magnitude.toNat.size - 1 := by
    rw [builtinClz]
    omega
  rw [hleading, Nat.sub_add_cancel hsizepos]
  refine ⟨?_, Nat.lt_size_self _, by omega⟩
  rw [← Nat.lt_size]
  omega

section Leading

variable (hd : IsDestination dst) (hne : magnitudeOf isSigned value ≠ 0)
  (hmag : (magnitudeOf isSigned value).setWidth 64 = magnitude)
  (habs : magnitude.toNat = (integerOf isSigned value).natAbs)
  (hlo : 2 ^ (63 - builtinClz magnitude) ≤ magnitude.toNat)
  (hhi : magnitude.toNat < 2 ^ (63 - builtinClz magnitude + 1))
  (hlead : 63 - builtinClz magnitude < 64)
include hd hne hmag habs hlo hhi hlead

theorem fpIntToFpBits_small (hle : 63 - builtinClz magnitude ≤ fpFracBitsCount dst) :
    A64.FixedToFP dst.interchange (fpcrMode &&& 3).toNat (integerOf isSigned value)
      (fpIntToFpBits dst isSigned value fpcrMode).1.toNat
      (fpIntToFpBits dst isSigned value fpcrMode).2 := by
  have hsign := integerOf_neg isSigned value
  rw [fpIntToFpBits_exact hne hmag hle]
  generalize 63 - builtinClz magnitude = leading at *
  rw [hd.fracBits] at *
  rw [hd.bias, hsign]
  have hbias := hd.low
  have hsplit : leading + (dst.interchange.fracBits - leading) = dst.interchange.fracBits :=
    Nat.add_sub_cancel' hle
  -- the significand has its leading bit above the fraction
  have hlow : 2 ^ dst.interchange.fracBits ≤
      magnitude.toNat * 2 ^ (dst.interchange.fracBits - leading) := by
    refine Nat.le_trans ?_ (Nat.mul_le_mul_right _ hlo)
    rw [← Nat.pow_add, hsplit]
  have hhigh : magnitude.toNat * 2 ^ (dst.interchange.fracBits - leading) <
      2 ^ (dst.interchange.fracBits + 1) := by
    refine Nat.lt_of_lt_of_le (Nat.mul_lt_mul_of_pos_right hhi (Nat.two_pow_pos _)) ?_
    rw [← Nat.pow_add, Nat.add_right_comm, hsplit]
  have hshift : (magnitude <<< (dst.interchange.fracBits - leading)).toNat =
      magnitude.toNat * 2 ^ (dst.interchange.fracBits - leading) := by
    have hwide : 2 ^ (dst.interchange.fracBits + 1) ≤ 2 ^ 64 :=
      Nat.pow_le_pow_right Nat.two_pos (by have := hd.narrow; omega)
    rw [BitVec.toNat_shiftLeft, Nat.shiftLeft_eq, Nat.mod_eq_of_lt (hhigh.trans_le hwide)]
  have hvalue : dst.interchange.format.value
      ((leading + dst.interchange.bias - 1).toNat * 2 ^ dst.interchange.fracBits +
        magnitude.toNat * 2 ^ (dst.interchange.fracBits - leading)) =
          (integerOf isSigned value).natAbs := by
    rw [← habs]
    exact dst.interchange.format.value_natCast hle hlo hhi
      (show 1 - dst.interchange.bias + _ = (leading : ℤ) by omega) (by omega)
  have hcode : (leading + dst.interchange.bias).toNat * 2 ^ dst.interchange.fracBits +
      (magnitude <<< (dst.interchange.fracBits - leading)).toNat % 2 ^ dst.interchange.fracBits =
        (leading + dst.interchange.bias - 1).toNat * 2 ^ dst.interchange.fracBits +
          magnitude.toNat * 2 ^ (dst.interchange.fracBits - leading) := by
    obtain ⟨r, hr⟩ := Nat.exists_eq_add_of_le hlow
    have hnext : (leading + dst.interchange.bias).toNat =
        (leading + dst.interchange.bias - 1).toNat + 1 := by omega
    rw [hshift, hr, Nat.add_mod_left, Nat.mod_eq_of_lt (by omega), hnext, Nat.succ_mul,
      Nat.add_assoc]
  have hfinite : (leading + dst.interchange.bias - 1).toNat * 2 ^ dst.interchange.fracBits +
      magnitude.toNat * 2 ^ (dst.interchange.fracBits - leading) < dst.interchange.infinity := by
    have hhigh := hd.high
    rw [← hcode]
    refine lt_infinity_of ?_ (Nat.mod_lt _ (Nat.two_pow_pos _))
    zify
    omega
  refine fixedToFP_of hfinite (FloatFormat.isRounded_exact _ hvalue) ?_ ?_
  · exact packed_toNat (by omega) hcode (hfinite.trans dst.infinity_lt) (masked_toNat hd _)
  · exact iff_of_false (by decide) fun hne => hne hvalue

theorem fpIntToFpBits_large (hlt : fpFracBitsCount dst < 63 - builtinClz magnitude) :
    A64.FixedToFP dst.interchange (fpcrMode &&& 3).toNat (integerOf isSigned value)
      (fpIntToFpBits dst isSigned value fpcrMode).1.toNat
      (fpIntToFpBits dst isSigned value fpcrMode).2 := by
  have hsign := integerOf_neg isSigned value
  cases hr : fpRoundShiftRight magnitude (63 - builtinClz magnitude - fpFracBitsCount dst) fpcrMode
      (isSigned && value.msb) with
  | mk rounded inexact =>
    rw [fpIntToFpBits_rounding hne hmag hlt hr]
    generalize 63 - builtinClz magnitude = leading at *
    rw [hd.fracBits] at *
    obtain ⟨hnext, hcode, hinexact⟩ := carried_narrow (f := dst.interchange) hlt.le hlead hlo hhi
      hd.narrow (show 1 - dst.interchange.bias ≤ (leading : ℤ) by have := hd.low; omega) hr
    rw [hd.bias] at *
    have hx : (magnitude.toNat * 2 ^ ((leading : ℤ) - leading) : ℚ) =
        (integerOf isSigned value).natAbs := by
      rw [sub_self, zpow_zero, mul_one, habs]
    have hrounded : dst.interchange.format.IsRounded
        (A64.direction (fpcrMode &&& 3).toNat (isSigned && value.msb))
        (integerOf isSigned value).natAbs
        (dst.interchange.format.narrow leading magnitude.toNat leading
          (A64.direction (fpcrMode &&& 3).toNat (isSigned && value.msb))) := by
      rw [← hx]
      exact FloatFormat.isRounded_narrow hlt.le hlo hhi hd.pos _
    have hexact : dst.interchange.format.value
        (dst.interchange.format.narrow leading magnitude.toNat leading
          (A64.direction (fpcrMode &&& 3).toNat (isSigned && value.msb))) =
            (integerOf isSigned value).natAbs ↔
        magnitude.toNat % 2 ^ dst.interchange.format.dropped leading leading = 0 := by
      rw [← hx]
      exact FloatFormat.value_narrow_iff hlt.le hlo hhi _
    rw [hsign] at *
    have hfinite : dst.interchange.format.narrow leading magnitude.toNat leading
        (A64.direction (fpcrMode &&& 3).toNat (decide (integerOf isSigned value < 0))) <
          dst.interchange.infinity := by
      have hle := carried_le dst.interchange.fracBits rounded leading
      have hhigh := hd.high
      rw [← hcode]
      refine lt_infinity_of ?_ (Nat.mod_lt _ (Nat.two_pow_pos _))
      zify
      omega
    refine fixedToFP_of hfinite hrounded ?_ (hinexact.trans hexact.not.symm)
    exact packed_toNat hnext hcode (hfinite.trans dst.infinity_lt) (masked_toNat hd _)

end Leading

/-- The conversion of an integer is `FixedToFP`. -/
theorem fpIntToFpBits_rounded (dst : FpType) (hdst : dst ≠ .half) {w : Nat} (hw : w ≤ 64)
    (isSigned : Bool) (value : BitVec w) (fpcrMode : U32) :
    A64.FixedToFP dst.interchange (fpcrMode &&& 3).toNat (integerOf isSigned value)
      (fpIntToFpBits dst isSigned value fpcrMode).1.toNat
      (fpIntToFpBits dst isSigned value fpcrMode).2 := by
  have hd := isDestination hdst
  have habs := magnitudeOf_toNat isSigned value
  by_cases hzero : magnitudeOf isSigned value = 0
  · have hint : integerOf isSigned value = 0 := by
      rw [hzero] at habs
      exact Int.natAbs_eq_zero.1 habs.symm
    rw [fpIntToFpBits_zero hzero, hint]
    have hvalue : dst.interchange.format.value 0 = ((0 : ℤ).natAbs : ℚ) :=
      dst.interchange.format.value_zero.trans Nat.cast_zero.symm
    have hfinite : 0 < dst.interchange.infinity := by
      cases dst <;> decide
    have hflags : (0 : U64) = fpsrFlags false false false false := rfl
    rw [hflags]
    refine fixedToFP_of hfinite (FloatFormat.isRounded_exact _ hvalue) ?_ ?_
    · cases dst <;> rfl
    · exact iff_of_false (by decide) fun hne => hne hvalue
  · have hwide : ((magnitudeOf isSigned value).setWidth 64).toNat =
        (magnitudeOf isSigned value).toNat := by
      rw [BitVec.toNat_setWidth, Nat.mod_eq_of_lt]
      exact (magnitudeOf isSigned value).isLt.trans_le (Nat.pow_le_pow_right Nat.two_pos hw)
    have hne : (magnitudeOf isSigned value).setWidth 64 ≠ 0 := by
      intro h
      refine hzero (BitVec.eq_of_toNat_eq ?_)
      rw [← hwide, h]
      rfl
    obtain ⟨hlo, hhi, hlead⟩ := leading_bounds hne
    rcases Nat.lt_or_ge (fpFracBitsCount dst)
      (63 - builtinClz ((magnitudeOf isSigned value).setWidth 64)) with hlt | hle
    · exact fpIntToFpBits_large hd hzero rfl (hwide.trans habs) hlo hhi hlead hlt
    · exact fpIntToFpBits_small hd hzero rfl (hwide.trans habs) hlo hhi hlead hle

theorem fpIntToFpBits_rounded_min :
    A64.FixedToFP A64.binary32 2 (integerOf true (0x8000000000000001#64))
      (fpIntToFpBits .single true 0x8000000000000001#64 2).1.toNat
      (fpIntToFpBits .single true 0x8000000000000001#64 2).2 :=
  fpIntToFpBits_rounded .single (by decide) (by decide) true 0x8000000000000001#64 2

end Convert

end Aarchvm
