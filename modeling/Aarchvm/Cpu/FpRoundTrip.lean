import Aarchvm.Cpu.FpExact

/-!
# Widening and narrowing back

A finite number widens without rounding, so narrowing gives it back. A NaN keeps its payload
on the way, but both narrowing conversions set a bit in a payload that is zero.
-/
namespace Aarchvm

open Lib

/-! ## Exact results -/

theorem raised_none {e : A64.Exceptions} {fpsr : U64} (h : e.Raised fpsr) (hioc : ¬ e.invalid)
    (hofc : ¬ e.overflow) (hufc : ¬ e.underflow) (hixc : ¬ e.inexact) : fpsr = 0 := by
  apply BitVec.eq_of_getLsbD_eq
  intro i _
  have hclear : fpsr.getLsbD i = false := by
    rw [Bool.eq_false_iff, ne_eq, h i]
    tauto
  rw [hclear]
  exact BitVec.getLsbD_zero.symm

/-- A number of the format rounds to itself. -/
theorem fpRound_exact {f : A64.Interchange} {rmode code result : ℕ} {sign : Bool} {fpsr : U64}
    (h : A64.FPRound f rmode sign (f.format.value code) result fpsr) (hcode : code < f.infinity) :
    result = f.pattern sign code ∧ fpsr = 0 := by
  obtain ⟨n, hn, hresult, hraised⟩ := h
  obtain rfl := hn.unique (FloatFormat.isRounded_exact _ rfl)
  have hrep : f.format.Representable f.infinity (f.format.value n) := ⟨n, hcode, rfl⟩
  rw [if_pos hcode] at hresult
  exact ⟨hresult, raised_none hraised id (Nat.not_le.2 hcode) (fun h => h.2 hrep) fun h => h hrep⟩

/-- A significand of fewer fraction bits, moved up. -/
theorem value_widened {f : A64.Interchange} {fracBits significand : ℕ} {exponent : ℤ}
    (hfrac : fracBits ≤ f.fracBits) (hlo : 2 ^ fracBits ≤ significand)
    (hhi : significand < 2 ^ (fracBits + 1)) (hmin : f.format.emin ≤ exponent) :
    f.format.value ((exponent + f.bias).toNat * 2 ^ f.fracBits +
        significand * 2 ^ (f.fracBits - fracBits) % 2 ^ f.fracBits) =
      significand * 2 ^ (exponent - fracBits) := by
  have hemin : f.format.emin = 1 - f.bias := rfl
  obtain ⟨d, hd⟩ := Nat.exists_eq_add_of_le hfrac
  obtain ⟨e, he⟩ : ∃ e : ℕ, exponent + f.bias = e + 1 := ⟨(exponent + f.bias - 1).toNat, by omega⟩
  have hsub : f.fracBits - fracBits = d := by omega
  have hlow : 2 ^ f.fracBits ≤ significand * 2 ^ d := by
    rw [hd, Nat.pow_add]
    exact Nat.mul_le_mul_right _ hlo
  have hhigh : significand * 2 ^ d < 2 ^ (f.fracBits + 1) := by
    rw [hd, Nat.add_right_comm, Nat.pow_add]
    exact Nat.mul_lt_mul_of_pos_right hhi (Nat.two_pow_pos d)
  have hmod : significand * 2 ^ d % 2 ^ f.fracBits = significand * 2 ^ d - 2 ^ f.fracBits := by
    rw [Nat.mod_eq_sub_mod hlow, Nat.mod_eq_of_lt]
    rw [Nat.pow_succ] at hhigh
    omega
  have hcode : (exponent + f.bias).toNat * 2 ^ f.fracBits +
      significand * 2 ^ (f.fracBits - fracBits) % 2 ^ f.fracBits =
        e * 2 ^ f.fracBits + significand * 2 ^ d := by
    have hnext : (exponent + f.bias).toNat = e + 1 := by omega
    rw [hsub, hmod, hnext, Nat.succ_mul]
    omega
  have hunit : (2 : ℚ) ^ (exponent - fracBits) = 2 ^ d * 2 ^ (1 - f.bias - f.fracBits + e : ℤ) := by
    rw [← zpow_natCast, ← zpow_add₀ two_ne_zero]
    congr 1
    omega
  have hvalue : f.format.value (e * 2 ^ f.fracBits + significand * 2 ^ d) =
      (significand * 2 ^ d : ℕ) * 2 ^ (1 - f.bias - f.fracBits + e : ℤ) :=
    f.format.value_split hhigh.le (.inr hlow)
  rw [hcode, hvalue, hunit, Nat.cast_mul, Nat.cast_pow, Nat.cast_ofNat]
  exact mul_assoc (significand : ℚ) _ _

/-! ## Quiet payloads -/

/-- A payload with the quiet bit set. -/
def quieted (t : FpType) (payload : ℕ) : ℕ :=
  if payload < 2 ^ (fpFracBitsCount t - 1) then payload + 2 ^ (fpFracBitsCount t - 1) else payload

section Quiet

variable {t : FpType}

theorem two_pow_frac (t : FpType) : 2 ^ fpFracBitsCount t = 2 * 2 ^ (fpFracBitsCount t - 1) := by
  cases t <;> rfl

theorem quieted_bounds {payload : ℕ} (hlt : payload < 2 ^ fpFracBitsCount t) :
    2 ^ (fpFracBitsCount t - 1) ≤ quieted t payload ∧
      quieted t payload < 2 ^ fpFracBitsCount t := by
  have hdouble := two_pow_frac t
  rw [quieted]
  split <;> omega

theorem fpQuietNanBit_toNat (t : FpType) :
    (fpQuietNanBit t).toNat = 2 ^ (fpFracBitsCount t - 1) := by
  cases t <;> rfl

theorem and_quiet_eq_zero (bits : BitVec t.width) : bits &&& fpQuietNanBit t = 0 ↔
    bits.toNat % 2 ^ fpFracBitsCount t < 2 ^ (fpFracBitsCount t - 1) := by
  have hpos : 0 < 2 ^ (fpFracBitsCount t - 1) := Nat.two_pow_pos _
  have hzero : (0 : BitVec t.width).toNat = 0 := Nat.zero_mod _
  have hmod : bits.toNat % 2 ^ fpFracBitsCount t / 2 ^ (fpFracBitsCount t - 1) =
      bits.toNat / 2 ^ (fpFracBitsCount t - 1) % 2 := by
    rw [two_pow_frac, Nat.mul_comm, Nat.mod_mul_right_div_self]
  rw [← BitVec.toNat_inj, BitVec.toNat_and, fpQuietNanBit_toNat, Nat.and_two_pow,
    Nat.testBit_eq_decide_div_mod_eq, hzero, Nat.mul_eq_zero, or_iff_left hpos.ne',
    Bool.toNat_eq_zero, decide_eq_false_iff_not, ← Nat.div_eq_zero_iff_lt hpos, hmod]
  omega

theorem or_quiet_toNat {frac : BitVec t.width} (hlt : frac.toNat < 2 ^ fpFracBitsCount t) :
    (frac ||| fpQuietNanBit t).toNat = quieted t frac.toNat := by
  rw [quieted]
  split
  · next h =>
    rw [BitVec.toNat_or, fpQuietNanBit_toNat, Nat.or_comm, or_eq_add h (Nat.mod_self _),
      Nat.add_comm]
  · next h =>
    have hset : frac.toNat.testBit (fpFracBitsCount t - 1) = true := by
      rw [Nat.testBit_eq_decide_div_mod_eq, decide_eq_true_eq]
      have hdouble := two_pow_frac t
      have hone : frac.toNat / 2 ^ (fpFracBitsCount t - 1) = 1 :=
        Nat.div_eq_of_lt_le (by omega) (by omega)
      rw [hone]
    apply Nat.eq_of_testBit_eq
    intro i
    rw [BitVec.toNat_or, fpQuietNanBit_toNat, Nat.testBit_or, Nat.testBit_two_pow]
    by_cases hi : fpFracBitsCount t - 1 = i
    · subst hi
      rw [hset, Bool.true_or]
    · simp [hi]

theorem bits_eq_pattern (bits : BitVec t.width) : bits.toNat =
    t.interchange.pattern (t.interchange.sign bits.toNat) (t.interchange.code bits.toNat) := by
  have hwidth : t.width = t.interchange.expBits + t.interchange.fracBits + 1 := by
    cases t <;> rfl
  have hlt : bits.toNat < 2 ^ (t.interchange.expBits + t.interchange.fracBits + 1) :=
    hwidth ▸ bits.isLt
  have hdiv := Nat.div_add_mod bits.toNat (2 ^ (t.interchange.expBits + t.interchange.fracBits))
  have htop : bits.toNat / 2 ^ (t.interchange.expBits + t.interchange.fracBits) < 2 := by
    rw [Nat.div_lt_iff_lt_mul (Nat.two_pow_pos _), ← Nat.pow_succ']
    exact hlt
  rw [A64.Interchange.pattern, A64.Interchange.sign, A64.Interchange.code,
    Nat.testBit_eq_decide_div_mod_eq, Nat.mod_eq_of_lt htop]
  generalize bits.toNat / 2 ^ (t.interchange.expBits + t.interchange.fracBits) = top at *
  rcases Nat.lt_succ_iff_lt_or_eq.1 htop with h | rfl
  · obtain rfl : top = 0 := by omega
    exact hdiv.symm.trans (congrArg (· + _) (Nat.mul_zero _))
  · exact hdiv.symm.trans (congrArg (· + _) (Nat.mul_one _))

theorem code_lt (bits : BitVec t.width) :
    t.interchange.code bits.toNat < 2 ^ fpExpBitsCount t * 2 ^ fpFracBitsCount t := by
  rw [← Nat.pow_add]
  cases t <;> exact Nat.mod_lt _ (Nat.two_pow_pos _)

theorem infinity_eq (t : FpType) : t.interchange.infinity =
    (2 ^ fpExpBitsCount t - 1) * 2 ^ fpFracBitsCount t := by
  cases t <;> rfl

/-- The codes above infinity are the NaNs. -/
theorem fpIsNanBits_iff (bits : BitVec t.width) :
    fpIsNanBits t bits = true ↔ t.interchange.infinity < t.interchange.code bits.toNat := by
  obtain ⟨-, hcode, hlt⟩ := masked_fields t bits
  have hbound := code_lt bits
  have hzero : (0 : BitVec t.width).toNat = 0 := Nat.zero_mod _
  have hmask : (fpExpMaskBits t).toNat = 2 ^ fpFracBitsCount t * (2 ^ fpExpBitsCount t - 1) := by
    cases t <;> rfl
  have hlow : (bits &&& fpExpMaskBits t).toNat % 2 ^ fpFracBitsCount t = 0 := by
    have hdisjoint : fpExpMaskBits t &&& fpFracMaskBits t = 0 := by
      cases t <;> rfl
    have hlowmask : (fpFracMaskBits t).toNat = 2 ^ fpFracBitsCount t - 1 := by
      cases t <;> rfl
    rw [← and_mask_toNat _ hlowmask, BitVec.and_assoc,
      hdisjoint, BitVec.toNat_and, hzero, Nat.and_zero]
  have hexp : (((bits &&& fpExpMaskBits t) >>> fpFracBitsCount t).setWidth 32).toNat =
      (bits &&& fpExpMaskBits t).toNat / 2 ^ fpFracBitsCount t := by
    have hfits : (bits &&& fpExpMaskBits t).toNat / 2 ^ fpFracBitsCount t < 2 ^ 32 := by
      rw [Nat.div_lt_iff_lt_mul (Nat.two_pow_pos _), ← Nat.pow_add]
      refine (bits &&& fpExpMaskBits t).isLt.trans_le (Nat.pow_le_pow_right Nat.two_pos ?_)
      cases t <;> decide
    rw [BitVec.toNat_setWidth, BitVec.toNat_ushiftRight, Nat.shiftRight_eq_div_pow,
      Nat.mod_eq_of_lt hfits]
  have hsplit := Nat.div_add_mod (bits &&& fpExpMaskBits t).toNat (2 ^ fpFracBitsCount t)
  rw [hlow, Nat.add_zero] at hsplit
  rw [hcode, hexp] at hbound
  have hle := Nat.le_sub_one_of_lt
    (Nat.lt_of_mul_lt_mul_right (Nat.lt_of_le_of_lt (Nat.le_add_right ..) hbound))
  rw [fpIsNanBits, Bool.and_eq_true, beq_iff_eq, bne_iff_ne, ne_eq, ← BitVec.toNat_inj,
    ← BitVec.toNat_inj, hmask, hcode, hexp, infinity_eq, ← hsplit, hzero,
    Nat.mul_right_inj (Nat.two_pow_pos _).ne', Nat.mul_div_cancel_left _ (Nat.two_pow_pos _)]
  generalize (bits &&& fpExpMaskBits t).toNat / 2 ^ fpFracBitsCount t = exp at *
  generalize 2 ^ fpExpBitsCount t - 1 = top at *
  generalize (bits &&& fpFracMaskBits t).toNat = frac at *
  rcases Nat.lt_or_eq_of_le hle with h | rfl
  · have hmul := Nat.mul_le_mul_right (2 ^ fpFracBitsCount t) (Nat.succ_le_of_lt h)
    rw [Nat.succ_mul] at hmul
    exact iff_of_false (fun heq => h.ne heq.1) (by omega)
  · omega

theorem fpIsSignalingNanBits_iff (bits : BitVec t.width) : fpIsSignalingNanBits t bits = true ↔
    t.interchange.infinity < t.interchange.code bits.toNat ∧
      t.interchange.code bits.toNat - t.interchange.infinity < 2 ^ (fpFracBitsCount t - 1) := by
  have hbound := code_lt bits
  have htop : 2 ^ fpExpBitsCount t * 2 ^ fpFracBitsCount t =
      t.interchange.infinity + 2 ^ fpFracBitsCount t := by
    cases t <;> rfl
  have hcode : bits.toNat % 2 ^ fpFracBitsCount t =
      t.interchange.code bits.toNat % 2 ^ fpFracBitsCount t := by
    have hdvd : 2 ^ fpFracBitsCount t ∣ 2 ^ (t.width - 1) := by
      refine Nat.pow_dvd_pow 2 ?_
      cases t <;> decide
    rw [A64.Interchange.code, ← t.width_eq, Nat.mod_mod_of_dvd _ hdvd]
  rw [fpIsSignalingNanBits, Bool.and_eq_true, fpIsNanBits_iff, beq_iff_eq, and_quiet_eq_zero, hcode]
  refine and_congr_right fun hnan => ?_
  obtain ⟨payload, hpayload⟩ := Nat.exists_eq_add_of_lt hnan
  have hmod : t.interchange.code bits.toNat % 2 ^ fpFracBitsCount t =
      t.interchange.code bits.toNat - t.interchange.infinity := by
    rw [Nat.sub_eq_of_eq_add' (Nat.add_assoc .. ▸ hpayload), hpayload, Nat.add_assoc, infinity_eq,
      Nat.mul_comm, Nat.mul_add_mod, Nat.mod_eq_of_lt (by omega)]
  rw [hmod]

/-- The pattern with a signalling NaN made quiet. -/
def quietedBits (t : FpType) (bits : BitVec t.width) : BitVec t.width :=
  if fpIsSignalingNanBits t bits then bits ||| fpQuietNanBit t else bits

theorem quietedBits_toNat (bits : BitVec t.width) : (quietedBits t bits).toNat =
    t.interchange.pattern (t.interchange.sign bits.toNat)
      (if t.interchange.code bits.toNat ≤ t.interchange.infinity then
        t.interchange.code bits.toNat
      else t.interchange.infinity +
        quieted t (t.interchange.code bits.toNat - t.interchange.infinity)) := by
  have hbits := bits_eq_pattern bits
  have hiff := fpIsSignalingNanBits_iff bits
  have hhigh := code_lt bits
  have htop : t.interchange.infinity + 2 * 2 ^ (fpFracBitsCount t - 1) = 2 ^ (t.width - 1) := by
    cases t <;> rfl
  have hwidth : 2 ^ t.width = 2 ^ (t.interchange.expBits + t.interchange.fracBits + 1) := by
    cases t <;> rfl
  rw [quietedBits]
  by_cases hnan : fpIsSignalingNanBits t bits = true
  · obtain ⟨hinf, hquiet⟩ := hiff.1 hnan
    have hclear : bits &&& fpQuietNanBit t = 0 := by
      rw [fpIsSignalingNanBits, Bool.and_eq_true, beq_iff_eq] at hnan
      exact hnan.2
    have hcode : t.interchange.code bits.toNat + 2 ^ (fpFracBitsCount t - 1) =
        t.interchange.infinity + (t.interchange.code bits.toNat - t.interchange.infinity +
          2 ^ (fpFracBitsCount t - 1)) := by omega
    have hlt : t.interchange.code bits.toNat + 2 ^ (fpFracBitsCount t - 1) <
        2 ^ (t.interchange.expBits + t.interchange.fracBits) := by
      rw [← t.width_eq]
      omega
    have hsum : bits.toNat + 2 ^ (fpFracBitsCount t - 1) =
        t.interchange.pattern (t.interchange.sign bits.toNat)
          (t.interchange.code bits.toNat + 2 ^ (fpFracBitsCount t - 1)) :=
      (congrArg (· + _) hbits).trans (Nat.add_assoc ..)
    rw [if_pos hnan, if_neg (Nat.not_le.2 hinf), quieted, if_pos hquiet,
      ← BitVec.add_eq_or_of_and_eq_zero _ _ hclear, BitVec.toNat_add, fpQuietNanBit_toNat, hsum,
      ← hcode]
    exact Nat.mod_eq_of_lt ((A64.Interchange.pattern_lt _ hlt).trans_eq hwidth.symm)
  · rw [if_neg hnan]
    refine hbits.trans (congrArg _ ?_)
    split
    · rfl
    · next hinf =>
      have hloud := mt hiff.2 hnan
      rw [quieted, if_neg (by omega)]
      omega

end Quiet

/-! ## Between the two conversions -/

/-- A pattern and its widened one: the same number, or the payload with the quiet bit set
moved up. -/
structure Widened (t u : FpType) (bits : BitVec t.width) (wide : BitVec u.width) : Prop where
  sign : u.interchange.sign wide.toNat = t.interchange.sign bits.toNat
  finite : t.interchange.IsFinite bits.toNat → u.interchange.IsFinite wide.toNat ∧
    u.interchange.magnitude wide.toNat = t.interchange.magnitude bits.toNat
  infinite : t.interchange.code bits.toNat = t.interchange.infinity →
    u.interchange.code wide.toNat = u.interchange.infinity
  nan : t.interchange.infinity < t.interchange.code bits.toNat →
    ∃ payload, u.interchange.code wide.toNat = u.interchange.infinity + payload ∧
      payload / 2 ^ (fpFracBitsCount u - fpFracBitsCount t) =
        quieted t (t.interchange.code bits.toNat - t.interchange.infinity)

/-- The pattern with any NaN made quiet and a zero payload made one. -/
def guarded (t : FpType) (code : ℕ) : ℕ :=
  if code ≤ t.interchange.infinity then code
  else if quieted t (code - t.interchange.infinity) = 2 ^ (fpFracBitsCount t - 1) then
    t.interchange.infinity + 2 ^ (fpFracBitsCount t - 1) + 1
  else t.interchange.infinity + quieted t (code - t.interchange.infinity)

/-- What narrowing makes of it. -/
def Narrowed (t : FpType) (bits : BitVec t.width) (result : BitVec t.width × U64) : Prop :=
  result.1.toNat =
      t.interchange.pattern (t.interchange.sign bits.toNat)
        (guarded t (t.interchange.code bits.toNat)) ∧
    result.2 = 0

/-- The narrowed pattern is the given one, made quiet, and only a signalling NaN is reported. -/
def ComesBack (t : FpType) (bits : BitVec t.width) (wideFpsr : U64)
    (narrow : BitVec t.width × U64) : Prop :=
  narrow.1 = quietedBits t bits ∧
    wideFpsr ||| narrow.2 = if fpIsSignalingNanBits t bits then kFpsrIoc else 0

theorem Narrowed.comesBack_iff {t : FpType} {bits : BitVec t.width} {wideFpsr : U64}
    {narrow : BitVec t.width × U64} (h : Narrowed t bits narrow)
    (hfpsr : wideFpsr = if fpIsSignalingNanBits t bits then kFpsrIoc else 0) :
    ComesBack t bits wideFpsr narrow ↔
      t.interchange.code bits.toNat ≠ t.interchange.infinity + 2 ^ (fpFracBitsCount t - 1) := by
  obtain ⟨hresult, hflags⟩ := h
  have hor : wideFpsr ||| narrow.2 = wideFpsr :=
    (congrArg (wideFpsr ||| ·) hflags).trans BitVec.or_zero
  have hpos : 0 < 2 ^ (fpFracBitsCount t - 1) := Nat.two_pow_pos _
  rw [ComesBack, hor, and_iff_left hfpsr, ← BitVec.toNat_inj, hresult, quietedBits_toNat,
    A64.Interchange.pattern, A64.Interchange.pattern, Nat.add_left_cancel_iff, guarded, quieted]
  split_ifs <;> omega

/-! ## Narrowing -/

/-- The fields of an infinity or a NaN. -/
theorem special_fields {exp frac top payload size : ℕ} (hfrac : frac < size)
    (hpayload : payload < size) (h : exp * size + frac = top * size + payload) :
    exp = top ∧ frac = payload := by
  have hpos : 0 < size := Nat.zero_lt_of_lt hfrac
  have hdiv := congrArg (· / size) h
  have hmod := congrArg (· % size) h
  simp only [Nat.mul_comm _ size, Nat.mul_add_div hpos, Nat.mul_add_mod, Nat.div_eq_of_lt hfrac,
    Nat.div_eq_of_lt hpayload, Nat.mod_eq_of_lt hfrac, Nat.mod_eq_of_lt hpayload,
    Nat.add_zero] at hdiv hmod
  exact ⟨hdiv, hmod⟩

section Join

variable {t : FpType} (sign : Bool)

theorem nan_toNat {frac : BitVec t.width} (hlt : frac.toNat < 2 ^ fpFracBitsCount t) :
    (fpZeroBits t sign ||| fpExpMaskBits t ||| frac).toNat =
      t.interchange.pattern sign (t.interchange.infinity + frac.toNat) := by
  have hmask : fpExpMaskBits t =
      BitVec.ofInt t.width (2 ^ fpExpBitsCount t - 1 : ℕ) <<< fpFracBitsCount t := by
    cases t <;> rfl
  have hfit : (2 ^ fpExpBitsCount t - 1) * 2 ^ fpFracBitsCount t + 2 ^ fpFracBitsCount t ≤
      2 ^ (t.width - 1) := by
    cases t <;> decide
  rw [hmask, fields_toNat (fpZeroBits_toNat_mod t sign) hfit hlt, ← infinity_eq, pattern_eq]

theorem guardedNan_toNat {q : BitVec t.width} {guard : Prop} [Decidable guard]
    (hlow : 2 ^ (fpFracBitsCount t - 1) ≤ q.toNat) (hhigh : q.toNat < 2 ^ fpFracBitsCount t)
    (hguard : guard ↔ q.toNat = 2 ^ (fpFracBitsCount t - 1)) :
    (fpZeroBits t sign ||| fpExpMaskBits t |||
        ((if guard then q ||| 1 else q) &&& fpFracMaskBits t)).toNat =
      t.interchange.pattern sign (if q.toNat = 2 ^ (fpFracBitsCount t - 1) then
        t.interchange.infinity + 2 ^ (fpFracBitsCount t - 1) + 1
      else t.interchange.infinity + q.toNat) := by
  have hmask : (fpFracMaskBits t).toNat = 2 ^ fpFracBitsCount t - 1 := by
    cases t <;> rfl
  have hdouble := two_pow_frac t
  have hone : 1 < 2 ^ (fpFracBitsCount t - 1) := by
    cases t <;> decide
  by_cases h : guard
  · have hq := hguard.1 h
    have hset : (q ||| 1).toNat = 2 ^ (fpFracBitsCount t - 1) + 1 := by
      have hunit : (1 : BitVec t.width).toNat = 1 := by
        cases t <;> rfl
      rw [BitVec.toNat_or, hq, hunit, or_eq_add hone (Nat.mod_self _)]
    have hfrac : ((q ||| 1) &&& fpFracMaskBits t).toNat = 2 ^ (fpFracBitsCount t - 1) + 1 := by
      rw [and_mask_toNat _ hmask, hset, Nat.mod_eq_of_lt (by omega)]
    rw [if_pos h, if_pos hq, nan_toNat sign (hfrac.trans_lt (by omega)), hfrac, Nat.add_assoc]
  · have hfrac : (q &&& fpFracMaskBits t).toNat = q.toNat := by
      rw [and_mask_toNat _ hmask, Nat.mod_eq_of_lt hhigh]
    rw [if_neg h, if_neg (mt hguard.2 h), nan_toNat sign (hfrac.trans_lt hhigh), hfrac]

end Join

/-- The upper bits of a payload with the quiet bit already set. -/
theorem payload_toNat {t u : FpType} {frac : BitVec u.width} {q : ℕ} (hw : t.width ≤ u.width)
    (hq : frac.toNat / 2 ^ (fpFracBitsCount u - fpFracBitsCount t) = q)
    (hlow : 2 ^ (fpFracBitsCount t - 1) ≤ q) (hhigh : q < 2 ^ fpFracBitsCount t) :
    ((frac >>> (fpFracBitsCount u - fpFracBitsCount t)).setWidth t.width |||
      fpQuietNanBit t).toNat = q := by
  have hfits : q < 2 ^ t.width := hhigh.trans_le (Nat.pow_le_pow_right Nat.two_pos (by
    cases t <;> decide))
  have hupper : ((frac >>> (fpFracBitsCount u - fpFracBitsCount t)).setWidth t.width).toNat =
      q := by
    rw [BitVec.toNat_setWidth, BitVec.toNat_ushiftRight, Nat.shiftRight_eq_div_pow, hq,
      Nat.mod_eq_of_lt hfits]
  rw [or_quiet_toNat (hupper.trans_lt hhigh), hupper, quieted, if_neg (Nat.not_lt.2 hlow)]

theorem fp64ToFp32Bits_nan {wide : U64} {fpcrMode : U32} {payload q : ℕ}
    (hcode : A64.binary64.code wide.toNat = A64.binary64.infinity + payload)
    (hq : payload / 2 ^ 29 = q) (hlow : 2 ^ 22 ≤ q) (hdn : fpcrDefaultNanEnabled fpcrMode = false) :
    (fp64ToFp32Bits wide fpcrMode).1.toNat =
        A64.binary32.pattern (A64.binary64.sign wide.toNat)
          (if q = 2 ^ 22 then A64.binary32.infinity + 2 ^ 22 + 1 else A64.binary32.infinity + q) ∧
      (fp64ToFp32Bits wide fpcrMode).2 = 0 := by
  obtain ⟨hsign, hfields, hlt⟩ := double_fields wide
  have hbound : A64.binary64.code wide.toNat < 2 ^ 11 * 2 ^ 52 := code_lt (t := .double) wide
  have hinf : A64.binary64.infinity = 2047 * 2 ^ 52 := rfl
  have hsize : payload < 2 ^ 52 := by omega
  have hsum : _ = 2047 * 2 ^ 52 + payload := hfields.symm.trans hcode
  obtain ⟨hexp, hfrac⟩ := special_fields hlt hsize hsum
  have hspecial : (wide >>> 52 &&& 0x7FF).setWidth 32 = (0x7FF : U32) :=
    BitVec.eq_of_toNat_eq hexp
  have hnonzero : ¬ wide &&& 0x000FFFFFFFFFFFFF = 0 := by
    intro h
    have hzero : payload = 0 := hfrac.symm.trans (congrArg BitVec.toNat h)
    omega
  have hquiet : fpIsSignalingNanBits .double wide = false := by
    rw [Bool.eq_false_iff, ne_eq, fpIsSignalingNanBits_iff]
    rintro ⟨-, hloud⟩
    have hsub : A64.binary64.code wide.toNat - A64.binary64.infinity < 2 ^ 51 := hloud
    omega
  have hpayload : (((wide &&& 0x000FFFFFFFFFFFFF) >>> 29).setWidth 32 |||
      (0x00400000 : U32)).toNat = q :=
    payload_toNat (t := .single) (u := .double) (by decide)
      ((congrArg (· / 2 ^ 29) hfrac).trans hq) hlow (by rw [fpFracBitsCount]; omega)
  have hbody : fp64ToFp32Bits wide fpcrMode =
      (fpZeroBits .single (wide >>> 63 != 0) ||| fpExpMaskBits .single |||
        ((if (((wide &&& 0x000FFFFFFFFFFFFF) >>> 29).setWidth 32 ||| 0x00400000) &&&
              0x003FFFFF = 0 then
            ((wide &&& 0x000FFFFFFFFFFFFF) >>> 29).setWidth 32 ||| 0x00400000 ||| 1
          else ((wide &&& 0x000FFFFFFFFFFFFF) >>> 29).setWidth 32 ||| 0x00400000) &&&
            fpFracMaskBits .single), 0) := by
    rw [fp64ToFp32Bits, if_pos hspecial, if_neg hnonzero, hquiet, hdn, if_neg (by decide)]
    rfl
  generalize ((wide &&& 0x000FFFFFFFFFFFFF) >>> 29).setWidth 32 ||| (0x00400000 : U32) = p at *
  have hguard : p &&& 0x003FFFFF = 0 ↔ p.toNat = 2 ^ 22 := by
    have hmask : (0x003FFFFF : U32).toNat = 2 ^ 22 - 1 := rfl
    rw [← BitVec.toNat_inj, and_mask_toNat p hmask]
    change p.toNat % 2 ^ 22 = 0 ↔ _
    omega
  have hnan := guardedNan_toNat (t := .single) (wide >>> 63 != 0) (hpayload.ge.trans' hlow)
    (show p.toNat < 2 ^ 23 by omega) hguard
  rw [hbody, ← hpayload, ← hsign]
  exact ⟨hnan, rfl⟩

theorem fp64ToFp32Bits_infinity {wide : U64} {fpcrMode : U32}
    (hcode : A64.binary64.code wide.toNat = A64.binary64.infinity) :
    (fp64ToFp32Bits wide fpcrMode).1.toNat =
        A64.binary32.pattern (A64.binary64.sign wide.toNat) A64.binary32.infinity ∧
      (fp64ToFp32Bits wide fpcrMode).2 = 0 := by
  obtain ⟨hsign, hfields, hlt⟩ := double_fields wide
  have hsum : _ = 2047 * 2 ^ 52 + 0 := hfields.symm.trans hcode
  obtain ⟨hexp, hfrac⟩ := special_fields hlt (Nat.two_pow_pos 52) hsum
  have hspecial : (wide >>> 52 &&& 0x7FF).setWidth 32 = (0x7FF : U32) :=
    BitVec.eq_of_toNat_eq hexp
  have hzero : wide &&& 0x000FFFFFFFFFFFFF = 0 := BitVec.eq_of_toNat_eq hfrac
  rw [fp64ToFp32Bits, if_pos hspecial, if_pos hzero, ← hsign]
  cases wide >>> 63 != 0 <;> exact ⟨rfl, rfl⟩

/-- A narrowing that treats the three kinds of pattern so. -/
theorem Widened.narrowed {t u : FpType} {bits : BitVec t.width} {wide : BitVec u.width}
    {result : BitVec t.width × U64} (rmode : ℕ) (h : Widened t u bits wide)
    (hfinite : u.interchange.IsFinite wide.toNat →
      A64.FPRound t.interchange rmode (u.interchange.sign wide.toNat)
        (u.interchange.magnitude wide.toNat) result.1.toNat result.2)
    (hinfinite : u.interchange.code wide.toNat = u.interchange.infinity →
      result.1.toNat =
          t.interchange.pattern (u.interchange.sign wide.toNat) t.interchange.infinity ∧
        result.2 = 0)
    (hnan : ∀ payload q,
      u.interchange.code wide.toNat = u.interchange.infinity + payload →
      payload / 2 ^ (fpFracBitsCount u - fpFracBitsCount t) = q →
      2 ^ (fpFracBitsCount t - 1) ≤ q →
      result.1.toNat =
          t.interchange.pattern (u.interchange.sign wide.toNat)
            (if q = 2 ^ (fpFracBitsCount t - 1) then
              t.interchange.infinity + 2 ^ (fpFracBitsCount t - 1) + 1
            else t.interchange.infinity + q) ∧
        result.2 = 0) : Narrowed t bits result := by
  rw [h.sign] at hfinite hinfinite hnan
  rw [Narrowed, guarded]
  rcases Nat.lt_trichotomy (t.interchange.code bits.toNat) t.interchange.infinity with
    hlt | heq | hgt
  · obtain ⟨hwide, hvalue⟩ := h.finite hlt
    have hround := hfinite hwide
    rw [hvalue] at hround
    rw [if_pos hlt.le]
    exact fpRound_exact hround hlt
  · rw [if_pos heq.le, heq]
    exact hinfinite (h.infinite heq)
  · obtain ⟨payload, hpayload, hq⟩ := h.nan hgt
    have hbound : t.interchange.code bits.toNat - t.interchange.infinity <
        2 ^ fpFracBitsCount t := by
      have hlt := code_lt bits
      have htop : 2 ^ fpExpBitsCount t * 2 ^ fpFracBitsCount t =
          t.interchange.infinity + 2 ^ fpFracBitsCount t := by
        cases t <;> rfl
      omega
    rw [if_neg (Nat.not_le.2 hgt)]
    exact hnan payload _ hpayload hq (quieted_bounds hbound).1

theorem fp64ToFp32Bits_narrowed {bits : U32} {wide : U64} {fpcrMode : U32}
    (h : Widened .single .double bits wide) (hdn : fpcrDefaultNanEnabled fpcrMode = false)
    (hfz : fpcrFlushToZeroEnabled fpcrMode = false) :
    Narrowed .single bits (fp64ToFp32Bits wide fpcrMode) :=
  Widened.narrowed _ h (fun hfinite => fp64ToFp32Bits_single hfinite hfz) fp64ToFp32Bits_infinity
    fun _ _ hcode hq hlow => fp64ToFp32Bits_nan hcode hq hlow hdn

section Half

variable {u : FpType} {wide : BitVec u.width} {fpcrMode : U32}
  (hahp : fpcrAlternativeHalfEnabled fpcrMode = false)

/-- The fields of an infinity or a NaN of any type. -/
theorem special_masked (payload : ℕ)
    (hcode : u.interchange.code wide.toNat = u.interchange.infinity + payload) :
    ((wide &&& fpExpMaskBits u) >>> fpFracBitsCount u).setWidth 32 =
        ((1 : U32) <<< fpExpBitsCount u) - 1 ∧
      (wide &&& fpFracMaskBits u).toNat = payload ∧ payload < 2 ^ fpFracBitsCount u := by
  obtain ⟨-, hfields, hlt⟩ := masked_fields u wide
  have hbound := code_lt wide
  have htop : 2 ^ fpExpBitsCount u * 2 ^ fpFracBitsCount u =
      u.interchange.infinity + 2 ^ fpFracBitsCount u := by
    cases u <;> rfl
  have hsize : payload < 2 ^ fpFracBitsCount u := by omega
  have hsum := hfields.symm.trans hcode
  rw [infinity_eq] at hsum
  obtain ⟨hexp, hfrac⟩ := special_fields hlt hsize hsum
  have hmask : (((1 : U32) <<< fpExpBitsCount u) - 1).toNat = 2 ^ fpExpBitsCount u - 1 := by
    cases u <;> rfl
  exact ⟨BitVec.eq_of_toNat_eq (hexp.trans hmask.symm), hfrac, hsize⟩

include hahp

theorem fpToFp16Bits_infinity
    (hcode : u.interchange.code wide.toNat = u.interchange.infinity) :
    (fpToFp16Bits u wide fpcrMode).1.toNat =
        A64.binary16.pattern (u.interchange.sign wide.toNat) A64.binary16.infinity ∧
      (fpToFp16Bits u wide fpcrMode).2 = 0 := by
  obtain ⟨hspecial, hfrac, -⟩ := special_masked 0 hcode
  have hzero : wide &&& fpFracMaskBits u = 0 :=
    BitVec.eq_of_toNat_eq (hfrac.trans (Nat.zero_mod _).symm)
  rw [fpToFp16Bits, if_pos hspecial, if_pos hzero, hahp, if_neg (by decide),
    ← (masked_fields u wide).1]
  cases wide &&& fpSignMaskBits u != 0 <;> exact ⟨rfl, rfl⟩

theorem fpToFp16Bits_nan (hu : u ≠ .half) {payload q : ℕ}
    (hcode : u.interchange.code wide.toNat = u.interchange.infinity + payload)
    (hq : payload / 2 ^ (fpFracBitsCount u - 10) = q) (hlow : 2 ^ 9 ≤ q)
    (hdn : fpcrDefaultNanEnabled fpcrMode = false) :
    (fpToFp16Bits u wide fpcrMode).1.toNat =
        A64.binary16.pattern (u.interchange.sign wide.toNat)
          (if q = 2 ^ 9 then A64.binary16.infinity + 2 ^ 9 + 1 else A64.binary16.infinity + q) ∧
      (fpToFp16Bits u wide fpcrMode).2 = 0 := by
  obtain ⟨hspecial, hfrac, hsize⟩ := special_masked payload hcode
  have hwider : 10 ≤ fpFracBitsCount u ∧ 16 ≤ u.width := by
    cases u <;> decide
  have hquiet : 2 ^ (fpFracBitsCount u - 1) ≤ payload := by
    have hmul : 2 ^ 9 * 2 ^ (fpFracBitsCount u - 10) ≤ payload :=
      (Nat.le_div_iff_mul_le (Nat.two_pow_pos _)).1 (hlow.trans_eq hq.symm)
    have hexp : 9 + (fpFracBitsCount u - 10) = fpFracBitsCount u - 1 := by omega
    rwa [← Nat.pow_add, hexp] at hmul
  have hnonzero : ¬ wide &&& fpFracMaskBits u = 0 := by
    intro h
    have hpos := Nat.two_pow_pos (fpFracBitsCount u - 1)
    have hzero : payload = 0 := hfrac.symm.trans ((congrArg BitVec.toNat h).trans (Nat.zero_mod _))
    omega
  have hsnan : fpIsSignalingNanBits u wide = false := by
    rw [Bool.eq_false_iff, ne_eq, fpIsSignalingNanBits_iff]
    rintro ⟨-, hloud⟩
    omega
  have hhigh : q < 2 ^ 10 := by
    have hexp : fpFracBitsCount u = 10 + (fpFracBitsCount u - 10) := by omega
    rw [← hq, Nat.div_lt_iff_lt_mul (Nat.two_pow_pos _), ← Nat.pow_add, ← hexp]
    exact hsize
  have hpayload : (((wide &&& fpFracMaskBits u) >>> (fpFracBitsCount u - 10)).setWidth 16 |||
      (0x0200 : U16)).toNat = q :=
    payload_toNat (t := .half) hwider.2 ((congrArg (· / _) hfrac).trans hq) hlow hhigh
  have hbody : fpToFp16Bits u wide fpcrMode =
      (fpZeroBits .half (wide &&& fpSignMaskBits u != 0) ||| fpExpMaskBits .half |||
        ((if (((wide &&& fpFracMaskBits u) >>> (fpFracBitsCount u - 10)).setWidth 16 |||
              0x0200) &&& 0x03FF = 0x0200 then
            ((wide &&& fpFracMaskBits u) >>> (fpFracBitsCount u - 10)).setWidth 16 |||
              0x0200 ||| 1
          else ((wide &&& fpFracMaskBits u) >>> (fpFracBitsCount u - 10)).setWidth 16 |||
            0x0200) &&& fpFracMaskBits .half), 0) := by
    rw [fpToFp16Bits, if_pos hspecial, if_neg hnonzero, hahp, if_neg (by decide), hsnan, hdn,
      if_neg (by decide)]
    rfl
  generalize ((wide &&& fpFracMaskBits u) >>> (fpFracBitsCount u - 10)).setWidth 16 |||
    (0x0200 : U16) = p at *
  have hguard : p &&& 0x03FF = 0x0200 ↔ p.toNat = 2 ^ 9 := by
    have hmask : (0x03FF : U16).toNat = 2 ^ 10 - 1 := rfl
    rw [← BitVec.toNat_inj, and_mask_toNat p hmask]
    change p.toNat % 2 ^ 10 = 2 ^ 9 ↔ _
    omega
  have hnan := guardedNan_toNat (t := .half) (wide &&& fpSignMaskBits u != 0)
    (hpayload.ge.trans' hlow) (hpayload.trans_lt hhigh) hguard
  rw [hbody, ← hpayload, ← (masked_fields u wide).1]
  exact ⟨hnan, rfl⟩

theorem fpToFp16Bits_narrowed (hu : u ≠ .half) {bits : U16} (h : Widened .half u bits wide)
    (hdn : fpcrDefaultNanEnabled fpcrMode = false)
    (hfz : fpcrFlushToZeroEnabled fpcrMode = false) :
    Narrowed .half bits (fpToFp16Bits u wide fpcrMode) := by
  refine Widened.narrowed (fpcrMode &&& 3).toNat h (fun hfinite => ?_)
    (fpToFp16Bits_infinity hahp) fun _ _ hcode hq hlow => fpToFp16Bits_nan hahp hu hcode hq hlow hdn
  have hround := fpToFp16Bits_half u hu hfinite hfz
  rwa [FPRoundHalf, hahp, if_neg (by decide)] at hround

end Half

/-! ## Widening -/

section Widen

variable {t u : FpType} {bits : BitVec t.width} {wide : BitVec u.width} {code : ℕ}

theorem wide_fields
    (hwide : wide.toNat = u.interchange.pattern (t.interchange.sign bits.toNat) code)
    (hlt : code < u.interchange.infinity + 2 ^ fpFracBitsCount u) :
    u.interchange.sign wide.toNat = t.interchange.sign bits.toNat ∧
      u.interchange.code wide.toNat = code := by
  have htop : u.interchange.infinity + 2 ^ fpFracBitsCount u =
      2 ^ (u.interchange.expBits + u.interchange.fracBits) := by
    cases u <;> rfl
  rw [hwide]
  exact ⟨A64.Interchange.sign_pattern _ (hlt.trans_eq htop),
    A64.Interchange.code_pattern _ (hlt.trans_eq htop)⟩

/-- A number of another exponent and a longer fraction. -/
theorem widened_number {significand : ℕ} {exponent : ℤ} {frac : BitVec u.width}
    (hfinite : t.interchange.IsFinite bits.toNat) (hfrac : fpFracBitsCount t ≤ fpFracBitsCount u)
    (hlo : 2 ^ fpFracBitsCount t ≤ significand) (hhi : significand < 2 ^ (fpFracBitsCount t + 1))
    (hvalue : t.interchange.magnitude bits.toNat =
      significand * 2 ^ (exponent - fpFracBitsCount t))
    (hmin : 1 ≤ exponent + fpExpBias u)
    (hmax : exponent + fpExpBias u < 2 ^ fpExpBitsCount u - 1)
    (hlow : frac.toNat = significand * 2 ^ (fpFracBitsCount u - fpFracBitsCount t) %
      2 ^ fpFracBitsCount u) :
    Widened t u bits (fpZeroBits u (t.interchange.sign bits.toNat) |||
      (BitVec.ofInt u.width (exponent + fpExpBias u) <<< fpFracBitsCount u) ||| frac) := by
  have hbits : u.interchange.fracBits = fpFracBitsCount u := by
    cases u <;> rfl
  have hbias : u.interchange.bias = fpExpBias u := by
    cases u <;> rfl
  have hemin : u.interchange.format.emin = 1 - fpExpBias u := by
    cases u <;> rfl
  have hnumber : u.interchange.format.value ((exponent + fpExpBias u).toNat *
      2 ^ fpFracBitsCount u + frac.toNat) =
        significand * 2 ^ (exponent - fpFracBitsCount t) := by
    have h := value_widened (f := u.interchange) (hbits ▸ hfrac) hlo hhi
      (show u.interchange.format.emin ≤ exponent by omega)
    rwa [hbits, hbias, ← hlow] at h
  have hsize : frac.toNat < 2 ^ fpFracBitsCount u := by
    rw [hlow]
    exact Nat.mod_lt _ (Nat.two_pow_pos _)
  obtain ⟨e, he⟩ : ∃ e : ℕ, exponent + fpExpBias u = e :=
    ⟨(exponent + fpExpBias u).toNat, by omega⟩
  have hlt : e + 1 ≤ 2 ^ fpExpBitsCount u - 1 := by
    have hcast : ((2 ^ fpExpBitsCount u : ℕ) : ℤ) = 2 ^ fpExpBitsCount u := by push_cast; rfl
    omega
  have hcode : e * 2 ^ fpFracBitsCount u + 2 ^ fpFracBitsCount u ≤
      u.interchange.infinity := by
    rw [infinity_eq, ← Nat.succ_mul]
    exact Nat.mul_le_mul_right _ hlt
  have hfit : e * 2 ^ fpFracBitsCount u + 2 ^ fpFracBitsCount u ≤ 2 ^ (u.width - 1) :=
    hcode.trans FpType.infinity_lt.le
  rw [he, Int.toNat_natCast] at hnumber
  have hwide := fields_toNat (fpZeroBits_toNat_mod u (t.interchange.sign bits.toNat)) hfit hsize
  rw [pattern_eq] at hwide
  obtain ⟨hsign, hwidecode⟩ := wide_fields hwide (by omega)
  rw [he]
  refine ⟨hsign, fun _ => ⟨?_, ?_⟩, fun h => absurd hfinite (Nat.not_lt.2 h.ge),
    fun h => absurd hfinite (Nat.not_lt.2 h.le)⟩
  · rw [A64.Interchange.IsFinite, hwidecode]
    omega
  · rw [A64.Interchange.magnitude, hwidecode, hnumber, hvalue]

theorem widened_zero (hcode : t.interchange.code bits.toNat = 0) :
    Widened t u bits (fpZeroBits u (t.interchange.sign bits.toNat)) := by
  have hinf : 0 < u.interchange.infinity ∧ 0 < t.interchange.infinity := by
    cases u <;> cases t <;> decide
  obtain ⟨hsign, hwide⟩ := wide_fields (pattern_eq (t := u) 0) (Nat.add_pos_left hinf.1 _)
  refine ⟨hsign, fun _ => ⟨hwide.trans_lt hinf.1, ?_⟩, fun h => absurd h (by omega),
    fun h => absurd h (by omega)⟩
  rw [A64.Interchange.magnitude, A64.Interchange.magnitude, hcode]
  exact (congrArg _ hwide).trans ((FloatFormat.value_zero _).trans (FloatFormat.value_zero _).symm)

theorem widened_infinity (hcode : t.interchange.code bits.toNat = t.interchange.infinity) :
    Widened t u bits (fpZeroBits u (t.interchange.sign bits.toNat) ||| fpExpMaskBits u) := by
  have hzero : (0 : BitVec u.width).toNat = 0 := Nat.zero_mod _
  have hwide := nan_toNat (t := u) (t.interchange.sign bits.toNat)
    (hzero.trans_lt (Nat.two_pow_pos _))
  have hor : fpZeroBits u (t.interchange.sign bits.toNat) ||| fpExpMaskBits u ||| 0 =
      fpZeroBits u (t.interchange.sign bits.toNat) ||| fpExpMaskBits u := BitVec.or_zero
  rw [hor, hzero, Nat.add_zero] at hwide
  obtain ⟨hsign, hwidecode⟩ := wide_fields hwide (Nat.lt_add_of_pos_right (Nat.two_pow_pos _))
  exact ⟨hsign, fun h => absurd hcode h.ne, fun _ => hwidecode, fun h => absurd hcode h.ne'⟩

theorem widened_nan {frac : BitVec u.width}
    (hnan : t.interchange.infinity < t.interchange.code bits.toNat)
    (hlt : frac.toNat < 2 ^ fpFracBitsCount u)
    (hfrac : frac.toNat / 2 ^ (fpFracBitsCount u - fpFracBitsCount t) =
      quieted t (t.interchange.code bits.toNat - t.interchange.infinity)) :
    Widened t u bits
      (fpZeroBits u (t.interchange.sign bits.toNat) ||| fpExpMaskBits u ||| frac) := by
  obtain ⟨hsign, hcode⟩ := wide_fields (nan_toNat _ hlt) (Nat.add_lt_add_left hlt _)
  refine ⟨hsign, fun h => absurd h (Nat.not_lt.2 hnan.le), fun h => absurd h hnan.ne', fun _ => ?_⟩
  exact ⟨_, hcode, hfrac⟩

end Widen

/-- A payload moved up and made quiet there. -/
theorem widened_payload {t u : FpType} {frac : BitVec t.width}
    (hd : fpFracBitsCount t ≤ fpFracBitsCount u) (hlt : frac.toNat < 2 ^ fpFracBitsCount t) :
    (frac.setWidth u.width <<< (fpFracBitsCount u - fpFracBitsCount t) |||
      fpQuietNanBit u).toNat =
        quieted t frac.toNat * 2 ^ (fpFracBitsCount u - fpFracBitsCount t) := by
  have hwidth : fpFracBitsCount u ≤ u.width := by
    cases u <;> decide
  have htype : t.width ≤ u.width := by
    cases t <;> cases u <;> first | decide | exact absurd hd (by decide)
  have hpos : 0 < fpFracBitsCount t := by
    cases t <;> decide
  have hnarrow : (frac.setWidth u.width).toNat = frac.toNat := by
    rw [BitVec.toNat_setWidth]
    exact Nat.mod_eq_of_lt (frac.isLt.trans_le (Nat.pow_le_pow_right Nat.two_pos htype))
  have hmoved : frac.toNat * 2 ^ (fpFracBitsCount u - fpFracBitsCount t) < 2 ^ u.width := by
    have hexp : fpFracBitsCount t + (fpFracBitsCount u - fpFracBitsCount t) =
        fpFracBitsCount u := by omega
    refine (Nat.mul_lt_mul_of_pos_right hlt (Nat.two_pow_pos _)).trans_le ?_
    rw [← Nat.pow_add, hexp]
    exact Nat.pow_le_pow_right Nat.two_pos hwidth
  have hquiet : (fpQuietNanBit u).toNat =
      (fpQuietNanBit t).toNat <<< (fpFracBitsCount u - fpFracBitsCount t) := by
    rw [fpQuietNanBit_toNat, fpQuietNanBit_toNat, Nat.shiftLeft_eq, ← Nat.pow_add]
    congr 1
    omega
  rw [BitVec.toNat_or, BitVec.toNat_shiftLeft, hnarrow, Nat.shiftLeft_eq, Nat.mod_eq_of_lt hmoved,
    ← Nat.shiftLeft_eq, hquiet, ← Nat.shiftLeft_or_distrib, ← BitVec.toNat_or, or_quiet_toNat hlt,
    Nat.shiftLeft_eq]

/-! ### Single to double -/

/-- The fields of a single. -/
theorem single_fields (bits : U32) :
    (bits >>> 31 != 0) = A64.binary32.sign bits.toNat ∧
      A64.binary32.code bits.toNat =
        (bits >>> 23 &&& 0xFF).toNat * 2 ^ 23 + (bits &&& 0x007FFFFF).toNat ∧
      (bits &&& 0x007FFFFF).toNat < 2 ^ 23 :=
  shifted_fields A64.binary32 bits 0xFF 0x007FFFFF rfl rfl rfl

theorem normalizedSignificand_bounds (fracBits : Nat) (bias : Int) (exp : U32) (frac : U64) :
    1 - bias - fracBits ≤ (normalizedSignificand fracBits bias exp frac).2 ∧
      (normalizedSignificand fracBits bias exp frac).2 ≤ max 1 exp.toNat - bias := by
  rw [normalizedSignificand]
  split
  · next h =>
    constructor <;> dsimp only <;> omega
  · next h =>
    have hpos : exp.toNat ≠ 0 := fun hzero => h (BitVec.eq_of_toNat_eq hzero)
    constructor <;> dsimp only <;> omega

theorem floatToDouble_widened {bits : U32} (hfinite : A64.binary32.IsFinite bits.toNat)
    (hnonzero : ¬ (bits >>> 23 &&& 0xFF = 0 ∧ bits &&& 0x007FFFFF = 0)) :
    Widened .single .double bits (floatToDouble bits) := by
  obtain ⟨hsign, hcode, hlt⟩ := single_fields bits
  have hwide : ((bits &&& 0x007FFFFF).setWidth 64).toNat = (bits &&& 0x007FFFFF).toNat := by
    rw [BitVec.toNat_setWidth, Nat.mod_eq_of_lt (hlt.trans (by decide))]
  have hne : ¬ (bits >>> 23 &&& 0xFF = 0 ∧ (bits &&& 0x007FFFFF).setWidth 64 = 0) := by
    rintro ⟨hexp, hfrac⟩
    have hzero : (bits &&& 0x007FFFFF).toNat = 0 := by
      rw [← hwide, hfrac]
      rfl
    exact hnonzero ⟨hexp, BitVec.eq_of_toNat_eq hzero⟩
  obtain ⟨hlo, hhi, hvalue⟩ := normalizedSignificand_eq 127 (show 23 < 63 by decide)
    (hwide.trans_lt hlt) hne
  obtain ⟨hmin, hmax⟩ := normalizedSignificand_bounds 23 127 (bits >>> 23 &&& 0xFF)
    ((bits &&& 0x007FFFFF).setWidth 64)
  have hexp : (bits >>> 23 &&& 0xFF).toNat < 255 := by
    rw [A64.Interchange.IsFinite, hcode] at hfinite
    have hinf : A64.binary32.infinity = 255 * 2 ^ 23 := rfl
    omega
  have hbody : floatToDouble bits = fpZeroBits .double (bits >>> 31 != 0) |||
      (BitVec.ofInt 64 ((normalizedSignificand 23 127 (bits >>> 23 &&& 0xFF)
        ((bits &&& 0x007FFFFF).setWidth 64)).2 + 1023) <<< 52) |||
      (((normalizedSignificand 23 127 (bits >>> 23 &&& 0xFF)
        ((bits &&& 0x007FFFFF).setWidth 64)).1 <<< 29) &&& 0x000FFFFFFFFFFFFF) := rfl
  rw [hbody, hsign]
  generalize (normalizedSignificand 23 127 (bits >>> 23 &&& 0xFF)
    ((bits &&& 0x007FFFFF).setWidth 64)).1 = significand at *
  generalize (normalizedSignificand 23 127 (bits >>> 23 &&& 0xFF)
    ((bits &&& 0x007FFFFF).setWidth 64)).2 = exponent at *
  have hnumber : A64.binary32.magnitude bits.toNat =
      significand.toNat * 2 ^ (exponent - (23 : ℕ)) := by
    rw [A64.Interchange.magnitude, hcode, ← hwide]
    exact hvalue
  refine widened_number (t := .single) (u := .double) hfinite (by decide) hlo hhi hnumber
    (show 1 ≤ exponent + 1023 by omega) (show exponent + 1023 < 2 ^ 11 - 1 by omega) ?_
  have hmask : (0x000FFFFFFFFFFFFF : U64).toNat = 2 ^ 52 - 1 := rfl
  have hmoved : significand.toNat * 2 ^ 29 < 2 ^ 64 := by omega
  rw [and_mask_toNat _ hmask, BitVec.toNat_shiftLeft, Nat.shiftLeft_eq, Nat.mod_eq_of_lt hmoved]
  rfl

theorem fp32ToFp64Bits_widened (bits : U32) {fpcrMode : U32}
    (hdn : fpcrDefaultNanEnabled fpcrMode = false)
    (hfz : fpcrFlushToZeroEnabled fpcrMode = false) :
    Widened .single .double bits (fp32ToFp64Bits bits fpcrMode).1 ∧
      (fp32ToFp64Bits bits fpcrMode).2 =
        if fpIsSignalingNanBits .single bits then kFpsrIoc else 0 := by
  obtain ⟨hsign, hcode, hlt⟩ := single_fields bits
  have hinf : A64.binary32.infinity = 255 * 2 ^ 23 := rfl
  have hflush : fpFlushInputDenormalBits .single bits fpcrMode 0 = (bits, 0) :=
    fpFlushInputDenormalBits_off (t := .single) bits 0 hfz
  have hquiet : A64.binary32.code bits.toNat ≤ A64.binary32.infinity →
      (0 : U64) = if fpIsSignalingNanBits .single bits then kFpsrIoc else 0 := by
    intro hle
    have hnot : ¬ fpIsSignalingNanBits .single bits = true := fun h =>
      Nat.not_lt.2 hle ((fpIsSignalingNanBits_iff (t := .single) bits).1 h).1
    rw [if_neg hnot]
  rw [fp32ToFp64Bits]
  by_cases hexp : bits >>> 23 &&& 0xFF = 0xFF
  · have hexpnat : (bits >>> 23 &&& 0xFF).toNat = 255 := congrArg BitVec.toNat hexp
    by_cases hfrac : bits &&& 0x007FFFFF = 0
    · have hfracnat : (bits &&& 0x007FFFFF).toNat = 0 := congrArg BitVec.toNat hfrac
      have heq : A64.binary32.code bits.toNat = A64.binary32.infinity := by omega
      rw [if_pos hexp, if_pos hfrac, hsign]
      exact ⟨widened_infinity (t := .single) (u := .double) heq, hquiet heq.le⟩
    · have hfracnat : (bits &&& 0x007FFFFF).toNat ≠ 0 := fun h =>
        hfrac (BitVec.eq_of_toNat_eq h)
      have hgt : A64.binary32.infinity < A64.binary32.code bits.toNat := by omega
      have hpayload : ((bits &&& 0x007FFFFF).setWidth 64 <<< 29 |||
          (0x0008000000000000 : U64)).toNat =
            quieted .single (bits &&& 0x007FFFFF).toNat * 2 ^ 29 :=
        widened_payload (t := .single) (u := .double) (by decide) hlt
      have hbounds : _ ∧ quieted .single (bits &&& 0x007FFFFF).toNat < 2 ^ 23 :=
        quieted_bounds (t := .single) hlt
      have hmask : (0x000FFFFFFFFFFFFF : U64).toNat = 2 ^ 52 - 1 := rfl
      have hkept : (((bits &&& 0x007FFFFF).setWidth 64 <<< 29 ||| 0x0008000000000000) &&&
          (0x000FFFFFFFFFFFFF : U64)).toNat =
            quieted .single (bits &&& 0x007FFFFF).toNat * 2 ^ 29 := by
        rw [and_mask_toNat _ hmask, hpayload, Nat.mod_eq_of_lt (by omega)]
      have hsub : A64.binary32.code bits.toNat - A64.binary32.infinity =
          (bits &&& 0x007FFFFF).toNat := by omega
      rw [if_pos hexp, if_neg hfrac, hdn, if_neg (by decide), hsign]
      refine ⟨widened_nan (t := .single) (u := .double) hgt (hkept.trans_lt ?_) ?_, rfl⟩
      · exact show quieted .single (bits &&& 0x007FFFFF).toNat * 2 ^ 29 < 2 ^ 52 by omega
      · refine (congrArg (· / 2 ^ 29) hkept).trans ?_
        exact (Nat.mul_div_cancel _ (by decide)).trans (congrArg _ hsub.symm)
  · have hbound : A64.binary32.code bits.toNat < 2 ^ 8 * 2 ^ 23 := code_lt (t := .single) bits
    have hexpnat : (bits >>> 23 &&& 0xFF).toNat ≠ 255 := fun h => hexp (BitVec.eq_of_toNat_eq h)
    have hfinite : A64.binary32.IsFinite bits.toNat := by
      rw [A64.Interchange.IsFinite]
      omega
    rw [if_neg hexp, hflush]
    dsimp only
    by_cases hzero : bits >>> 23 &&& 0xFF = 0 ∧ bits &&& 0x007FFFFF = 0
    · have hexpzero : (bits >>> 23 &&& 0xFF).toNat = 0 := congrArg BitVec.toNat hzero.1
      have hfraczero : (bits &&& 0x007FFFFF).toNat = 0 := congrArg BitVec.toNat hzero.2
      have hcodezero : A64.binary32.code bits.toNat = 0 := by omega
      rw [if_pos hzero, hsign]
      exact ⟨widened_zero (t := .single) (u := .double) hcodezero, hquiet hfinite.le⟩
    · rw [if_neg hzero]
      exact ⟨floatToDouble_widened hfinite hzero, hquiet hfinite.le⟩

/-! ### Half to single or double -/

/-- The loop shifts the leading one to bit 10. -/
theorem normalizeHalf_eq (fuel : Nat) : ∀ (frac : U32) (exponent : Int), frac.toNat < 2 ^ 11 →
    2 ^ 10 ≤ frac.toNat * 2 ^ fuel →
    ∃ k ≤ fuel, (normalizeHalf fuel frac exponent).1.toNat = frac.toNat * 2 ^ k ∧
      (normalizeHalf fuel frac exponent).2 = exponent - k ∧
      2 ^ 10 ≤ frac.toNat * 2 ^ k ∧ frac.toNat * 2 ^ k < 2 ^ 11 := by
  induction fuel with
  | zero =>
    intro frac exponent hhi hlo
    refine ⟨0, le_rfl, (Nat.mul_one _).symm, (Int.sub_zero _).symm, hlo, ?_⟩
    rwa [Nat.pow_zero, Nat.mul_one]
  | succ fuel ih =>
    intro frac exponent hhi hlo
    have hbit : frac &&& 0x400 = 0 ↔ frac.toNat < 2 ^ 10 := by
      have hmask : (0x400 : U32).toNat = 2 ^ 10 := rfl
      rw [← BitVec.toNat_inj, BitVec.toNat_and, hmask, Nat.and_two_pow,
        Nat.testBit_eq_decide_div_mod_eq]
      change _ = 0 ↔ _
      rw [Nat.mul_eq_zero, or_iff_left (by decide), Bool.toNat_eq_zero, decide_eq_false_iff_not]
      omega
    by_cases hlow : frac.toNat < 2 ^ 10
    · have hdouble : (frac <<< 1).toNat = frac.toNat * 2 := by
        rw [BitVec.toNat_shiftLeft, Nat.shiftLeft_eq, Nat.mod_eq_of_lt (by omega)]
      have hstep : normalizeHalf (fuel + 1) frac exponent =
          normalizeHalf fuel (frac <<< 1) (exponent - 1) := if_pos (hbit.2 hlow)
      obtain ⟨k, hk, hfrac, hexp, hge, hlt⟩ := ih (frac <<< 1) (exponent - 1) (by omega) (by
        rw [hdouble, Nat.mul_assoc, ← Nat.pow_succ']
        exact hlo)
      rw [hdouble, Nat.mul_assoc, ← Nat.pow_succ'] at hfrac hge hlt
      refine ⟨k + 1, Nat.succ_le_succ hk, hstep ▸ hfrac, ?_, hge, hlt⟩
      rw [hstep, hexp]
      push_cast
      ring
    · have hstep : normalizeHalf (fuel + 1) frac exponent = (frac, exponent) :=
        if_neg (mt hbit.1 hlow)
      refine ⟨0, Nat.zero_le _, ?_, ?_, ?_, ?_⟩
      · rw [hstep, Nat.pow_zero, Nat.mul_one]
      · rw [hstep]
        exact (Int.sub_zero _).symm
      · omega
      · omega

/-- `normalized_frac` and `exponent` of `fp16_to_fp_bits`, outside the alternative format. -/
def halfSignificand (exp frac : U32) : U32 × Int :=
  if exp = 0 then ((normalizeHalf 10 frac (-14)).1 &&& 0x03FF, (normalizeHalf 10 frac (-14)).2)
  else (frac, exp.toNat - 15)

theorem halfSignificand_eq {exp frac : U32} (hlt : frac.toNat < 2 ^ 10)
    (hne : ¬ (exp = 0 ∧ frac = 0)) :
    ∃ significand, 2 ^ 10 ≤ significand ∧ significand < 2 ^ 11 ∧
      (halfSignificand exp frac).1.toNat = significand - 2 ^ 10 ∧
      A64.binary16.format.value (exp.toNat * 2 ^ 10 + frac.toNat) =
        significand * 2 ^ ((halfSignificand exp frac).2 - (10 : ℕ)) ∧
      -24 ≤ (halfSignificand exp frac).2 ∧
      (halfSignificand exp frac).2 ≤ max 1 exp.toNat - 15 := by
  have hemin : A64.binary16.format.emin = -14 := rfl
  have hfrac : A64.binary16.format.frac = 10 := rfl
  rw [halfSignificand]
  by_cases hexp : exp = 0
  · have hpos : frac.toNat ≠ 0 := fun h => hne ⟨hexp, BitVec.eq_of_toNat_eq h⟩
    have hzero : exp.toNat = 0 := congrArg BitVec.toNat hexp
    obtain ⟨k, hk, hshifted, hexponent, hge, hhigh⟩ :=
      normalizeHalf_eq 10 frac (-14) (by omega) (by omega)
    have hmask : (0x03FF : U32).toNat = 2 ^ 10 - 1 := rfl
    have hvalue := A64.binary16.format.value_split (e := 0) (j := frac.toNat)
      (hlt.le.trans (by decide)) (.inl rfl)
    have hunit := A64.binary16.format.unit_eq 0 k
    rw [if_pos hexp]
    refine ⟨frac.toNat * 2 ^ k, hge, hhigh, ?_, ?_, ?_, ?_⟩
    · rw [and_mask_toNat _ hmask, hshifted]
      omega
    · rw [hfrac] at hvalue hunit
      rw [hzero, hvalue, hunit, hexponent, hemin]
      push_cast
      rw [mul_assoc]
      congr 3
      ring
    · dsimp only
      omega
    · dsimp only
      omega
  · have hpos : exp.toNat ≠ 0 := fun h => hexp (BitVec.eq_of_toNat_eq h)
    obtain ⟨e, he⟩ := Nat.exists_eq_succ_of_ne_zero hpos
    have hvalue := A64.binary16.format.value_split (e := e) (j := 2 ^ 10 + frac.toNat)
      (by rw [hfrac]; omega) (.inr (by rw [hfrac]; exact Nat.le_add_right ..))
    have hcode : exp.toNat * 2 ^ 10 + frac.toNat = e * 2 ^ 10 + (2 ^ 10 + frac.toNat) := by
      omega
    rw [if_neg hexp]
    refine ⟨2 ^ 10 + frac.toNat, Nat.le_add_right .., by omega,
      (Nat.add_sub_cancel_left ..).symm, ?_, ?_, ?_⟩
    · rw [hfrac] at hvalue
      rw [hcode, hvalue, hemin, he]
      congr 2
      push_cast
      ring
    · dsimp only
      omega
    · dsimp only
      omega

theorem fp16ToFpBits_number {dst : FpType} (hdst : dst ≠ .half) {bits : U16} {exp frac : U32}
    (hfinite : A64.binary16.IsFinite bits.toNat)
    (hcode : A64.binary16.code bits.toNat = exp.toNat * 2 ^ 10 + frac.toNat)
    (hlt : frac.toNat < 2 ^ 10) (hne : ¬ (exp = 0 ∧ frac = 0)) :
    Widened .half dst bits (fpZeroBits dst (A64.binary16.sign bits.toNat) |||
      (BitVec.ofInt dst.width ((halfSignificand exp frac).2 + fpExpBias dst) <<<
        fpFracBitsCount dst) |||
      ((halfSignificand exp frac).1.setWidth dst.width <<< (fpFracBitsCount dst - 10))) := by
  obtain ⟨significand, hlo, hhi, hfrac, hvalue, hmin, hmax⟩ := halfSignificand_eq hlt hne
  have hexp : exp.toNat < 31 := by
    rw [A64.Interchange.IsFinite, hcode] at hfinite
    have hinf : A64.binary16.infinity = 31 * 2 ^ 10 := rfl
    omega
  have hwide : 10 ≤ fpFracBitsCount dst ∧ 32 ≤ dst.width ∧ fpFracBitsCount dst ≤ dst.width := by
    cases dst <;> first | exact absurd rfl hdst | decide
  have hbias : 25 ≤ fpExpBias dst ∧ fpExpBias dst + 17 < 2 ^ fpExpBitsCount dst - 1 := by
    cases dst <;> first | exact absurd rfl hdst | decide
  refine widened_number (t := .half) hfinite hwide.1 hlo hhi
    ((congrArg A64.binary16.format.value hcode).trans hvalue) (by omega) (by omega) ?_
  -- the leading one is dropped here, as `% 2 ^ fracBits` does there
  have hsmall : (halfSignificand exp frac).1.toNat < 2 ^ 10 := by omega
  have hpow : 2 ^ 10 * 2 ^ (fpFracBitsCount dst - 10) = 2 ^ fpFracBitsCount dst := by
    rw [← Nat.pow_add, Nat.add_sub_cancel' hwide.1]
  have hmoved : (halfSignificand exp frac).1.toNat * 2 ^ (fpFracBitsCount dst - 10) <
      2 ^ fpFracBitsCount dst :=
    (Nat.mul_lt_mul_of_pos_right hsmall (Nat.two_pow_pos _)).trans_eq hpow
  have hfits : 2 ^ fpFracBitsCount dst ≤ 2 ^ dst.width :=
    Nat.pow_le_pow_right Nat.two_pos hwide.2.2
  have hsum : significand * 2 ^ (fpFracBitsCount dst - 10) =
      2 ^ fpFracBitsCount dst +
        (halfSignificand exp frac).1.toNat * 2 ^ (fpFracBitsCount dst - 10) := by
    rw [hfrac, ← hpow, ← Nat.add_mul, Nat.add_sub_cancel' hlo]
  have hnarrow : ((halfSignificand exp frac).1.setWidth dst.width).toNat =
      (halfSignificand exp frac).1.toNat := by
    rw [BitVec.toNat_setWidth]
    exact Nat.mod_eq_of_lt ((halfSignificand exp frac).1.isLt.trans_le
      (Nat.pow_le_pow_right Nat.two_pos hwide.2.1))
  rw [BitVec.toNat_shiftLeft, hnarrow, Nat.shiftLeft_eq, Nat.mod_eq_of_lt (hmoved.trans_le hfits)]
  exact ((congrArg (· % 2 ^ fpFracBitsCount dst) hsum).trans
    ((Nat.add_mod_left _ _).trans (Nat.mod_eq_of_lt hmoved))).symm

/-- The payload of a widened half; the bit that its guard sets is below the ones it came from. -/
theorem fp16_payload {dst : FpType} (hdst : dst ≠ .half) {frac : U16} (hlt : frac.toNat < 2 ^ 10) :
    ((if ((frac.setWidth 32).setWidth dst.width <<< (fpFracBitsCount dst - 10) |||
            fpQuietNanBit dst) &&& (fpQuietNanBit dst - 1) = 0 then
          (frac.setWidth 32).setWidth dst.width <<< (fpFracBitsCount dst - 10) |||
            fpQuietNanBit dst ||| 1
        else (frac.setWidth 32).setWidth dst.width <<< (fpFracBitsCount dst - 10) |||
          fpQuietNanBit dst) &&& fpFracMaskBits dst).toNat / 2 ^ (fpFracBitsCount dst - 10) =
        quieted .half frac.toNat ∧
      ((if ((frac.setWidth 32).setWidth dst.width <<< (fpFracBitsCount dst - 10) |||
            fpQuietNanBit dst) &&& (fpQuietNanBit dst - 1) = 0 then
          (frac.setWidth 32).setWidth dst.width <<< (fpFracBitsCount dst - 10) |||
            fpQuietNanBit dst ||| 1
        else (frac.setWidth 32).setWidth dst.width <<< (fpFracBitsCount dst - 10) |||
          fpQuietNanBit dst) &&& fpFracMaskBits dst).toNat < 2 ^ fpFracBitsCount dst := by
  have hwidth : 10 ≤ fpFracBitsCount dst ∧ 16 ≤ dst.width := by
    cases dst <;> decide
  have hguard : 1 < 2 ^ (fpFracBitsCount dst - 10) := by
    cases dst <;> first | exact absurd rfl hdst | decide
  have hmask : (fpFracMaskBits dst).toNat = 2 ^ fpFracBitsCount dst - 1 := by
    cases dst <;> rfl
  have hone : (1 : BitVec dst.width).toNat = 1 := by
    cases dst <;> rfl
  have htwice : (frac.setWidth 32).setWidth dst.width = frac.setWidth dst.width := by
    apply BitVec.eq_of_toNat_eq
    rw [BitVec.toNat_setWidth, BitVec.toNat_setWidth, BitVec.toNat_setWidth,
      Nat.mod_eq_of_lt (hlt.trans (by decide))]
  have hmoved :
    (frac.setWidth dst.width <<< (fpFracBitsCount dst - 10) ||| fpQuietNanBit dst).toNat =
      quieted .half frac.toNat * 2 ^ (fpFracBitsCount dst - 10) :=
    widened_payload (t := .half) hwidth.1 hlt
  have hbounds : _ ∧ quieted .half frac.toNat < 2 ^ 10 := quieted_bounds (t := .half) hlt
  have hpow : 2 ^ 10 * 2 ^ (fpFracBitsCount dst - 10) = 2 ^ fpFracBitsCount dst := by
    rw [← Nat.pow_add, Nat.add_sub_cancel' hwidth.1]
  have hfits : (quieted .half frac.toNat + 1) * 2 ^ (fpFracBitsCount dst - 10) ≤
      2 ^ fpFracBitsCount dst := by
    rw [← hpow]
    exact Nat.mul_le_mul_right _ hbounds.2
  rw [Nat.succ_mul] at hfits
  rw [htwice, and_mask_toNat _ hmask]
  refine ⟨?_, Nat.mod_lt _ (Nat.two_pow_pos _)⟩
  split
  · rw [BitVec.toNat_or, hmoved, hone, or_eq_add hguard (Nat.mul_mod_left ..),
      Nat.mod_eq_of_lt (by omega), Nat.add_comm, Nat.add_mul_div_right _ _ (Nat.two_pow_pos _),
      Nat.div_eq_of_lt hguard, Nat.zero_add]
  · rw [hmoved, Nat.mod_eq_of_lt (by omega), Nat.mul_div_cancel _ (Nat.two_pow_pos _)]

theorem fp16ToFpBits_widened {dst : FpType} (hdst : dst ≠ .half) (bits : U16) {fpcrMode : U32}
    (hdn : fpcrDefaultNanEnabled fpcrMode = false)
    (hahp : fpcrAlternativeHalfEnabled fpcrMode = false) :
    Widened .half dst bits (fp16ToFpBits dst bits fpcrMode).1 ∧
      (fp16ToFpBits dst bits fpcrMode).2 =
        if fpIsSignalingNanBits .half bits then kFpsrIoc else 0 := by
  obtain ⟨hsign, hcode, hlt⟩ := masked_fields .half bits
  have hsign : (bits &&& 0x8000 != 0) = A64.binary16.sign bits.toNat := hsign
  have hcode : A64.binary16.code bits.toNat =
      (((bits &&& 0x7C00) >>> 10).setWidth 32).toNat * 2 ^ 10 + (bits &&& 0x03FF).toNat := hcode
  have hlt : (bits &&& 0x03FF).toNat < 2 ^ 10 := hlt
  have hinf : A64.binary16.infinity = 31 * 2 ^ 10 := rfl
  have hwide : ((bits &&& 0x03FF).setWidth 32).toNat = (bits &&& 0x03FF).toNat := by
    rw [BitVec.toNat_setWidth, Nat.mod_eq_of_lt (hlt.trans (by decide))]
  have hzero : (bits &&& 0x03FF).setWidth 32 = (0 : U32) ↔ (bits &&& 0x03FF).toNat = 0 := by
    rw [← BitVec.toNat_inj, hwide]
    rfl
  have hquiet : A64.binary16.code bits.toNat ≤ A64.binary16.infinity →
      (0 : U64) = if fpIsSignalingNanBits .half bits then kFpsrIoc else 0 := by
    intro hle
    have hnot : ¬ fpIsSignalingNanBits .half bits = true := fun h =>
      Nat.not_lt.2 hle ((fpIsSignalingNanBits_iff (t := .half) bits).1 h).1
    rw [if_neg hnot]
  rw [fp16ToFpBits, hahp]
  dsimp only
  rw [hsign]
  by_cases hexp : ((bits &&& 0x7C00) >>> 10).setWidth 32 = (31 : U32)
  · have hexpnat : (((bits &&& 0x7C00) >>> 10).setWidth 32).toNat = 31 :=
      congrArg BitVec.toNat hexp
    rw [if_pos ⟨hexp, rfl⟩]
    by_cases hfrac : (bits &&& 0x03FF).setWidth 32 = (0 : U32)
    · have heq : A64.binary16.code bits.toNat = A64.binary16.infinity := by
        have := hzero.1 hfrac
        omega
      rw [if_pos hfrac]
      exact ⟨widened_infinity (t := .half) heq, hquiet heq.le⟩
    · have hgt : A64.binary16.infinity < A64.binary16.code bits.toNat := by
        have := mt hzero.2 hfrac
        omega
      have hnan : fpIsNanBits .half bits = true := (fpIsNanBits_iff (t := .half) bits).2 hgt
      rw [if_neg hfrac, hdn, if_neg (by decide)]
      refine ⟨?_, ?_⟩
      · have hsub : A64.binary16.code bits.toNat - A64.binary16.infinity =
            (bits &&& 0x03FF).toNat := by omega
        obtain ⟨hmoved, hkept⟩ := fp16_payload hdst hlt
        exact widened_nan (t := .half) hgt hkept (hmoved.trans (congrArg _ hsub.symm))
      · rw [fpIsSignalingNanBits, hnan, Bool.true_and]
        rfl
  · have hbound : A64.binary16.code bits.toNat < 2 ^ 5 * 2 ^ 10 := code_lt (t := .half) bits
    have hexpnat : (((bits &&& 0x7C00) >>> 10).setWidth 32).toNat ≠ 31 := fun h =>
      hexp (BitVec.eq_of_toNat_eq h)
    have hfinite : A64.binary16.IsFinite bits.toNat := by
      rw [A64.Interchange.IsFinite]
      omega
    rw [if_neg fun h => hexp h.1]
    by_cases hnone : ((bits &&& 0x7C00) >>> 10).setWidth 32 = (0 : U32) ∧
        (bits &&& 0x03FF).setWidth 32 = (0 : U32)
    · have hexpzero : (((bits &&& 0x7C00) >>> 10).setWidth 32).toNat = 0 :=
        congrArg BitVec.toNat hnone.1
      have hcodezero : A64.binary16.code bits.toNat = 0 := by
        have := hzero.1 hnone.2
        omega
      rw [if_pos hnone]
      exact ⟨widened_zero (t := .half) hcodezero, hquiet hfinite.le⟩
    · rw [if_neg hnone]
      have hnumber := fp16ToFpBits_number hdst hfinite (hcode.trans (congrArg (_ + ·) hwide.symm))
        (hwide.trans_lt hlt) hnone
      rw [halfSignificand] at hnumber
      exact ⟨hnumber, hquiet hfinite.le⟩

/-! ## There and back -/

/-- A single widened to a double, and a half widened to either type, come back the same unless
they are the quiet NaN of zero payload. -/
theorem widen_narrow_iff (fpcrMode : U32) (hdn : fpcrDefaultNanEnabled fpcrMode = false)
    (hfz : fpcrFlushToZeroEnabled fpcrMode = false) :
    (∀ bits : U32,
      ComesBack .single bits (fp32ToFp64Bits bits fpcrMode).2
          (fp64ToFp32Bits (fp32ToFp64Bits bits fpcrMode).1 fpcrMode) ↔
        bits &&& 0x7FFFFFFF ≠ 0x7FC00000) ∧
    (fpcrAlternativeHalfEnabled fpcrMode = false → ∀ dst : FpType, dst ≠ .half → ∀ bits : U16,
      ComesBack .half bits (fp16ToFpBits dst bits fpcrMode).2
          (fpToFp16Bits dst (fp16ToFpBits dst bits fpcrMode).1 fpcrMode) ↔
        bits &&& 0x7FFF ≠ 0x7E00) := by
  constructor
  · intro bits
    obtain ⟨hwidened, hfpsr⟩ := fp32ToFp64Bits_widened bits hdn hfz
    rw [(fp64ToFp32Bits_narrowed hwidened hdn hfz).comesBack_iff hfpsr, ne_eq, ne_eq,
      ← BitVec.toNat_inj, and_mask_toNat bits (show (0x7FFFFFFF : U32).toNat = 2 ^ 31 - 1 from rfl)]
    rfl
  · intro hahp dst hdst bits
    obtain ⟨hwidened, hfpsr⟩ := fp16ToFpBits_widened hdst bits hdn hahp
    rw [(fpToFp16Bits_narrowed hahp hdst hwidened hdn hfz).comesBack_iff hfpsr, ne_eq, ne_eq,
      ← BitVec.toNat_inj, and_mask_toNat bits (show (0x7FFF : U16).toNat = 2 ^ 15 - 1 from rfl)]
    rfl

theorem widen_narrow_iff_one :
    ComesBack .single 0x3F800000#32 (fp32ToFp64Bits 0x3F800000 0).2
      (fp64ToFp32Bits (fp32ToFp64Bits 0x3F800000 0).1 0) :=
  ((widen_narrow_iff 0 (by decide) (by decide)).1 0x3F800000).2 (by decide)

theorem widen_narrow_quiet_nan :
    (fp64ToFp32Bits (fp32ToFp64Bits 0x7FC00000 0).1 0).1 = 0x7FC00001 ∧
      (fpToFp16Bits .single (fp16ToFpBits .single 0x7E00 0).1 0).1 = 0x7E01 ∧
      ¬ ComesBack .single 0x7FC00000#32 (fp32ToFp64Bits 0x7FC00000 0).2
        (fp64ToFp32Bits (fp32ToFp64Bits 0x7FC00000 0).1 0) ∧
      ¬ ComesBack .half 0x7E00#16 (fp16ToFpBits .single 0x7E00 0).2
        (fpToFp16Bits .single (fp16ToFpBits .single 0x7E00 0).1 0) := by
  have hsingle : (fp64ToFp32Bits (fp32ToFp64Bits 0x7FC00000 0).1 0).1 = 0x7FC00001 := by decide
  have hhalf : (fpToFp16Bits .single (fp16ToFpBits .single 0x7E00 0).1 0).1 = 0x7E01 := by decide
  refine ⟨hsingle, hhalf, fun h => ?_, fun h => ?_⟩
  · have hsame := hsingle.symm.trans h.1
    exact absurd hsame (by decide)
  · have hsame := hhalf.symm.trans h.1
    exact absurd hsame (by decide)

end Aarchvm
