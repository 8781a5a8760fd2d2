import Aarchvm.A64.Float
import Aarchvm.Cpu.FpConvert

/-!
# The rounding helpers

The shift is the division of `Rounding`, and a finite pattern unpacks to a normalized
significand of the same value.
-/
namespace Aarchvm

open Lib

/-! ## The shift -/

theorem fpRoundShiftRight_wide {value : U64} {shift : Nat} (mode : U32) (sign : Bool)
    (hshift : 64 ≤ shift) (hvalue : value ≠ 0) (hlt : value.toNat < 2 ^ 63) :
    (fpRoundShiftRight value shift mode sign).1.toNat =
        (A64.direction (mode &&& 3).toNat sign).shift value.toNat shift ∧
      (fpRoundShiftRight value shift mode sign).2 = true := by
  have hpow : 2 ^ 64 ≤ 2 ^ shift := Nat.pow_le_pow_right Nat.two_pos hshift
  have hpos : value.toNat ≠ 0 := fun h => hvalue (BitVec.eq_of_toNat_eq h)
  have hmod : value.toNat % 2 ^ shift = value.toNat := Nat.mod_eq_of_lt (by omega)
  have hdiv : value.toNat / 2 ^ shift = 0 := Nat.div_eq_of_lt (by omega)
  have hnear : ¬ (2 ^ shift < 2 * value.toNat ∨ 2 ^ shift = 2 * value.toNat ∧ 0 % 2 = 1) := by
    omega
  rw [Rounding.shift_inexact _ (by omega), hmod, hdiv, fpRoundShiftRight, if_neg (by omega),
    if_neg hvalue]
  by_cases hfar : 128 ≤ shift
  · rw [if_pos hfar]
    match (mode &&& 3).toNat with
    | 0 => exact ⟨(if_neg hnear).symm, rfl⟩
    | 1 => cases sign <;> exact ⟨rfl, rfl⟩
    | 2 => cases sign <;> exact ⟨rfl, rfl⟩
    | _ + 3 => exact ⟨rfl, rfl⟩
  · rw [if_neg hfar]
    simp only [if_pos hshift, if_neg hvalue, if_neg (Nat.not_lt.2 hshift)]
    match (mode &&& 3).toNat with
    | 0 => exact ⟨(if_neg hnear).symm, trivial⟩
    | 1 => cases sign <;> exact ⟨rfl, trivial⟩
    | 2 => cases sign <;> exact ⟨rfl, trivial⟩
    | _ + 3 => exact ⟨rfl, trivial⟩

theorem fpRoundShiftRight_narrow {value : U64} {shift : Nat} (mode : U32) (sign : Bool)
    (hzero : shift ≠ 0) (hshift : shift < 64) (hvalue : value ≠ 0) :
    (fpRoundShiftRight value shift mode sign).1.toNat =
        (A64.direction (mode &&& 3).toNat sign).shift value.toNat shift ∧
      ((fpRoundShiftRight value shift mode sign).2 = true ↔ value.toNat % 2 ^ shift ≠ 0) := by
  have hquot : (value >>> shift).toNat = value.toNat / 2 ^ shift := by
    rw [BitVec.toNat_ushiftRight, Nat.shiftRight_eq_div_pow]
  have hrem : (value &&& ones shift).toNat = value.toNat % 2 ^ shift := by
    rw [and_ones_eq, BitVec.toNat_setWidth, BitVec.toNat_setWidth]
    exact Nat.mod_eq_of_lt (Nat.lt_of_le_of_lt (Nat.mod_le ..) value.isLt)
  have hsucc : (value >>> shift + 1).toNat = value.toNat / 2 ^ shift + 1 := by
    have hhalf : value.toNat / 2 ^ shift ≤ value.toNat / 2 :=
      Nat.div_le_div_left (Nat.le_self_pow hzero 2) Nat.two_pos
    rw [BitVec.toNat_add, hquot]
    exact Nat.mod_eq_of_lt (show value.toNat / 2 ^ shift + 1 < 2 ^ 64 by omega)
  have hone : (1 : U64).toNat = 1 := rfl
  have hhalf : ((1 : U64) <<< (shift - 1)).toNat * 2 = 2 ^ shift := by
    obtain ⟨k, rfl⟩ := Nat.exists_eq_succ_of_ne_zero hzero
    have hlt : 2 ^ k < 2 ^ 64 := Nat.pow_lt_pow_right Nat.one_lt_two (by omega)
    rw [BitVec.toNat_shiftLeft, Nat.succ_sub_one, hone, Nat.shiftLeft_eq,
      Nat.one_mul, Nat.mod_eq_of_lt hlt, Nat.pow_succ]
  have hodd : (value >>> shift &&& 1 != 0) = true ↔ value.toNat / 2 ^ shift % 2 = 1 := by
    rw [bne_iff_ne, ne_eq, ← BitVec.toNat_inj, BitVec.toNat_and, hquot, hone,
      Nat.and_one_is_mod]
    change ¬ value.toNat / 2 ^ shift % 2 = 0 ↔ _
    omega
  rw [fpRoundShiftRight, if_neg hzero, if_neg hvalue, if_neg (by omega)]
  have hlow : ¬ 64 ≤ shift := by omega
  simp only [if_neg hlow, if_pos hshift]
  by_cases hexact : value &&& ones shift = 0
  · have hmod : value.toNat % 2 ^ shift = 0 := by rw [← hrem, hexact]; rfl
    rw [if_pos hexact, Rounding.shift_exact _ hmod, hmod]
    exact ⟨hquot, by simp⟩
  · have hmod : value.toNat % 2 ^ shift ≠ 0 := by
      rw [← hrem]
      exact fun h => hexact (BitVec.eq_of_toNat_eq h)
    rw [if_neg hexact, Rounding.shift_inexact _ hmod]
    refine ⟨?_, by simp [hmod]⟩
    match (mode &&& 3).toNat with
    | 0 =>
      have hiff : ((1 : U64) <<< (shift - 1) < value &&& ones shift ||
          value &&& ones shift == (1 : U64) <<< (shift - 1) && value >>> shift &&& 1 != 0) = true ↔
          2 ^ shift < 2 * (value.toNat % 2 ^ shift) ∨
            2 ^ shift = 2 * (value.toNat % 2 ^ shift) ∧ value.toNat / 2 ^ shift % 2 = 1 := by
        rw [Bool.or_eq_true, Bool.and_eq_true, hodd, decide_eq_true_eq, beq_iff_eq, BitVec.lt_def,
          ← BitVec.toNat_inj, hrem, ← hhalf]
        omega
      by_cases hup : 2 ^ shift < 2 * (value.toNat % 2 ^ shift) ∨
          2 ^ shift = 2 * (value.toNat % 2 ^ shift) ∧ value.toNat / 2 ^ shift % 2 = 1
      · exact (congrArg BitVec.toNat (if_pos (hiff.2 hup))).trans (hsucc.trans (if_pos hup).symm)
      · exact (congrArg BitVec.toNat (if_neg (mt hiff.1 hup))).trans (hquot.trans (if_neg hup).symm)
    | 1 => cases sign <;> [exact hsucc; exact hquot]
    | 2 => cases sign <;> [exact hquot; exact hsucc]
    | _ + 3 => exact hquot

theorem fpRoundShiftRight_eq {value : U64} {shift : Nat} (mode : U32) (sign : Bool)
    (hlt : shift < 64 ∨ value.toNat < 2 ^ 63) :
    (fpRoundShiftRight value shift mode sign).1.toNat =
        (A64.direction (mode &&& 3).toNat sign).shift value.toNat shift ∧
      ((fpRoundShiftRight value shift mode sign).2 = true ↔ value.toNat % 2 ^ shift ≠ 0) := by
  by_cases hzero : shift = 0
  · subst hzero
    have hmod : value.toNat % 2 ^ 0 = 0 := Nat.mod_one _
    rw [fpRoundShiftRight, if_pos rfl, Rounding.shift_exact _ hmod, hmod, Nat.pow_zero, Nat.div_one]
    exact ⟨rfl, by simp⟩
  by_cases hvalue : value = 0
  · subst hvalue
    have hmod : (0 : U64).toNat % 2 ^ shift = 0 := Nat.zero_mod _
    rw [fpRoundShiftRight, if_neg hzero, if_pos rfl, Rounding.shift_exact _ hmod, hmod]
    exact ⟨(Nat.zero_div _).symm, by simp⟩
  rcases Nat.lt_or_ge shift 64 with hshift | hshift
  · exact fpRoundShiftRight_narrow mode sign hzero hshift hvalue
  · obtain ⟨hvalue', hinexact⟩ := fpRoundShiftRight_wide mode sign hshift hvalue
      (hlt.resolve_left (Nat.not_lt.2 hshift))
    have hpow : 2 ^ 64 ≤ 2 ^ shift := Nat.pow_le_pow_right Nat.two_pos hshift
    have hmod : value.toNat % 2 ^ shift = value.toNat := Nat.mod_eq_of_lt (by omega)
    rw [hinexact, hmod]
    exact ⟨hvalue', iff_of_true rfl fun h => hvalue (BitVec.eq_of_toNat_eq h)⟩

/-! ## Fields of a pattern -/

/-- Joining a field with zeroes below it and a field that fits there. -/
theorem or_eq_add {a b p : Nat} (hb : b < 2 ^ p) (ha : a % 2 ^ p = 0) : a ||| b = a + b := by
  obtain ⟨k, rfl⟩ := Nat.dvd_of_mod_eq_zero ha
  exact (Nat.two_pow_add_eq_or_of_lt hb k).symm

/-- A finite pattern that is not zero. -/
theorem normalizedSignificand_eq {fracBits : Nat} (bias : Int) {exp : U32} {frac : U64}
    (hbits : fracBits < 63) (hfrac : frac.toNat < 2 ^ fracBits) (hne : ¬ (exp = 0 ∧ frac = 0)) :
    2 ^ fracBits ≤ (normalizedSignificand fracBits bias exp frac).1.toNat ∧
      (normalizedSignificand fracBits bias exp frac).1.toNat < 2 ^ (fracBits + 1) ∧
      (FloatFormat.mk fracBits (1 - bias)).value (exp.toNat * 2 ^ fracBits + frac.toNat) =
        (normalizedSignificand fracBits bias exp frac).1.toNat *
          2 ^ ((normalizedSignificand fracBits bias exp frac).2 - fracBits) := by
  have hwide : 2 ^ (fracBits + 1) < 2 ^ 64 := Nat.pow_lt_pow_right Nat.one_lt_two (by omega)
  have hpow : 2 ^ (fracBits + 1) = 2 * 2 ^ fracBits := Nat.pow_succ'
  by_cases hexp : exp = 0
  · -- a denormalized number is shifted up
    have hpos : 0 < frac.toNat := by
      refine Nat.pos_of_ne_zero fun h => hne ⟨hexp, BitVec.eq_of_toNat_eq h⟩
    have hsize : frac.toNat.size ≤ fracBits := Nat.size_le.2 hfrac
    have hsizepos : 0 < frac.toNat.size := Nat.size_pos.2 hpos
    obtain ⟨k, hk⟩ : ∃ k, fracBits = frac.toNat.size - 1 + k :=
      ⟨fracBits - (frac.toNat.size - 1), by omega⟩
    have hshift : fracBits - (63 - builtinClz frac) = k := by
      rw [builtinClz]
      omega
    have hbody : normalizedSignificand fracBits bias exp frac = (frac <<< k, 1 - bias - k) := by
      have h : normalizedSignificand fracBits bias exp frac =
          (frac <<< (fracBits - (63 - builtinClz frac)),
            1 - bias - (fracBits - (63 - builtinClz frac) : Nat)) := if_pos hexp
      rw [h, hshift]
    have hlo : 2 ^ (frac.toNat.size - 1) ≤ frac.toNat := by
      rw [← Nat.lt_size]
      omega
    have hhi : frac.toNat < 2 ^ (frac.toNat.size - 1 + 1) := by
      rw [Nat.sub_add_cancel hsizepos]
      exact Nat.lt_size_self _
    have hlo' : 2 ^ fracBits ≤ frac.toNat * 2 ^ k := by
      rw [hk, Nat.pow_add]
      exact Nat.mul_le_mul_right _ hlo
    have hhi' : frac.toNat * 2 ^ k < 2 ^ (fracBits + 1) := by
      rw [hk, Nat.add_right_comm, Nat.pow_add]
      exact Nat.mul_lt_mul_of_pos_right hhi (Nat.two_pow_pos k)
    have hmul : (frac <<< k).toNat = frac.toNat * 2 ^ k := by
      rw [BitVec.toNat_shiftLeft, Nat.shiftLeft_eq, Nat.mod_eq_of_lt (hhi'.trans hwide)]
    rw [hbody]
    refine ⟨hlo'.trans hmul.ge, hmul.trans_lt hhi', ?_⟩
    have hvalue := (FloatFormat.mk fracBits (1 - bias)).value_split
      (show frac.toNat ≤ 2 ^ (fracBits + 1) by omega) (.inl rfl)
    have hzero : (0 : U32).toNat = 0 := rfl
    have hexponent : (1 - bias - k - fracBits : ℤ) = 1 - bias - fracBits + (0 : ℕ) - k := by
      push_cast
      ring
    have hunit := (FloatFormat.mk fracBits (1 - bias)).unit_eq 0 k
    dsimp only at hvalue hunit
    rw [hexp, hzero, hvalue, hmul, hexponent, hunit, ← mul_assoc]
    push_cast
    rfl
  · have hor : (((1 : U64) <<< fracBits) ||| frac).toNat = 2 ^ fracBits + frac.toNat := by
      have hone : (1 : U64).toNat = 1 := rfl
      rw [BitVec.toNat_or, BitVec.toNat_shiftLeft, hone, Nat.one_shiftLeft,
        Nat.mod_eq_of_lt (by omega)]
      exact or_eq_add hfrac (Nat.mod_self _)
    have hbody : normalizedSignificand fracBits bias exp frac =
        (((1 : U64) <<< fracBits) ||| frac, exp.toNat - bias) := if_neg hexp
    obtain ⟨e, he⟩ := Nat.exists_eq_succ_of_ne_zero fun h => hexp (BitVec.eq_of_toNat_eq h)
    have hcode : exp.toNat * 2 ^ fracBits + frac.toNat =
        e * 2 ^ fracBits + (2 ^ fracBits + frac.toNat) := by
      rw [he, Nat.succ_mul, Nat.add_assoc]
    have hvalue := (FloatFormat.mk fracBits (1 - bias)).value_split
      (show 2 ^ fracBits + frac.toNat ≤ 2 ^ (fracBits + 1) by omega) (e := e)
      (.inr (Nat.le_add_right ..))
    have hexponent : (1 - bias - fracBits + e : ℤ) = (e.succ : Nat) - bias - fracBits := by
      push_cast
      ring
    rw [hbody]
    refine ⟨?_, ?_, ?_⟩
    · rw [hor]
      exact Nat.le_add_right ..
    · rw [hor]
      omega
    · rw [hor, hcode, hvalue, he, hexponent]

theorem fpFlushInputDenormalBits_off {t : FpType} {fpcrMode : U32} (bits : BitVec t.width)
    (fpsrBits : U64) (hfz : fpcrFlushToZeroEnabled fpcrMode = false) :
    fpFlushInputDenormalBits t bits fpcrMode fpsrBits = (bits, fpsrBits) := by
  rw [fpFlushInputDenormalBits, hfz, Bool.false_and, if_neg (by decide)]

theorem fpFlushOutputDenormalBits_off {t : FpType} {fpcrMode : U32} (bits : BitVec t.width)
    (fpsrBits : U64) (hfz : fpcrFlushToZeroEnabled fpcrMode = false) :
    fpFlushOutputDenormalBits t bits fpcrMode fpsrBits = (bits, fpsrBits) := by
  rw [fpFlushOutputDenormalBits, hfz, Bool.false_and, if_neg (by decide)]

/-! ## Joining the fields -/

/-- The significand and exponent after the carry into the next binade. -/
def carried (fracBits : Nat) (rounded : U64) (exponent : Int) : U64 × Int :=
  if rounded = (1 : U64) <<< (fracBits + 1) then (rounded >>> 1, exponent + 1)
  else (rounded, exponent)

theorem carried_le (fracBits : Nat) (rounded : U64) (exponent : Int) :
    (carried fracBits rounded exponent).2 ≤ exponent + 1 := by
  rw [carried]
  split
  · exact le_rfl
  · exact Int.le_add_one le_rfl

/-- The carry keeps the code. -/
theorem carried_code {fracBits : Nat} {rounded : U64} {exponent bias : Int}
    (hbits : fracBits < 63) (hlo : 2 ^ fracBits ≤ rounded.toNat)
    (hhi : rounded.toNat ≤ 2 ^ (fracBits + 1)) (hexp : 1 ≤ exponent + bias) :
    1 ≤ (carried fracBits rounded exponent).2 + bias ∧
      ((carried fracBits rounded exponent).2 + bias).toNat * 2 ^ fracBits +
          (carried fracBits rounded exponent).1.toNat % 2 ^ fracBits =
        (exponent + bias - 1).toNat * 2 ^ fracBits + rounded.toNat := by
  have hwide : 2 ^ (fracBits + 1) < 2 ^ 64 := Nat.pow_lt_pow_right Nat.one_lt_two (by omega)
  have hpow : 2 ^ (fracBits + 1) = 2 * 2 ^ fracBits := Nat.pow_succ'
  have hone : ((1 : U64) <<< (fracBits + 1)).toNat = 2 ^ (fracBits + 1) := by
    have h : (1 : U64).toNat = 1 := rfl
    rw [BitVec.toNat_shiftLeft, h, Nat.one_shiftLeft, Nat.mod_eq_of_lt hwide]
  obtain ⟨e, he⟩ : ∃ e : Nat, exponent + bias = e + 1 := ⟨(exponent + bias - 1).toNat, by omega⟩
  have hbase : (exponent + bias - 1).toNat = e := by omega
  rw [hbase]
  by_cases hcarry : rounded = (1 : U64) <<< (fracBits + 1)
  · have hhalf : (rounded >>> 1).toNat = 2 ^ fracBits := by
      rw [BitVec.toNat_ushiftRight, hcarry, hone, Nat.shiftRight_eq_div_pow, hpow]
      omega
    have hnext : exponent + 1 + bias = (e + 2 : Nat) := by
      push_cast
      omega
    rw [carried, if_pos hcarry]
    refine ⟨by omega, ?_⟩
    rw [hhalf, Nat.mod_self, hnext, Int.toNat_natCast, hcarry, hone, hpow]
    ring
  · have hlt : rounded.toNat < 2 ^ (fracBits + 1) :=
      Nat.lt_of_le_of_ne hhi fun h => hcarry (BitVec.eq_of_toNat_eq (h.trans hone.symm))
    obtain ⟨r, hr⟩ := Nat.exists_eq_add_of_le hlo
    have hnext : exponent + bias = (e + 1 : Nat) := by
      push_cast
      omega
    rw [carried, if_neg hcarry]
    refine ⟨by omega, ?_⟩
    rw [hr, Nat.add_mod_left, Nat.mod_eq_of_lt (by omega), hnext, Int.toNat_natCast]
    ring

theorem fpZeroBits_toNat (t : FpType) (sign : Bool) :
    (fpZeroBits t sign).toNat = if sign then 2 ^ (t.width - 1) else 0 := by
  cases t <;> cases sign <;> rfl

theorem fpZeroBits_toNat_mod (t : FpType) (sign : Bool) :
    (fpZeroBits t sign).toNat % 2 ^ (t.width - 1) = 0 := by
  rw [fpZeroBits_toNat]
  cases sign
  · exact Nat.zero_mod _
  · exact Nat.mod_self _

theorem and_mask_toNat {w p : Nat} {mask : BitVec w} (x : BitVec w) (h : mask.toNat = 2 ^ p - 1) :
    (x &&& mask).toNat = x.toNat % 2 ^ p := by
  rw [BitVec.toNat_and, h, Nat.and_two_pow_sub_one_eq_mod]

/-- A sign, an exponent and a fraction in their fields. -/
theorem fields_toNat {w fracBits : Nat} {signBit frac : BitVec w} {exp : Nat}
    (hsign : signBit.toNat % 2 ^ (w - 1) = 0)
    (hfit : exp * 2 ^ fracBits + 2 ^ fracBits ≤ 2 ^ (w - 1)) (hfrac : frac.toNat < 2 ^ fracBits) :
    (signBit ||| (BitVec.ofInt w exp <<< fracBits) ||| frac).toNat =
      signBit.toNat + (exp * 2 ^ fracBits + frac.toNat) := by
  have htop : 2 ^ (w - 1) ≤ 2 ^ w := Nat.pow_le_pow_right Nat.two_pos (Nat.sub_le w 1)
  have hpos : 0 < 2 ^ fracBits := Nat.two_pow_pos fracBits
  have hle : exp ≤ exp * 2 ^ fracBits := Nat.le_mul_of_pos_right exp hpos
  have hfield : (BitVec.ofInt w (exp : Int) <<< fracBits).toNat = exp * 2 ^ fracBits := by
    rw [BitVec.ofInt_natCast, BitVec.toNat_shiftLeft, BitVec.toNat_ofNat, Nat.shiftLeft_eq,
      Nat.mod_eq_of_lt (show exp < 2 ^ w by omega), Nat.mod_eq_of_lt (by omega)]
  rw [BitVec.or_assoc, BitVec.toNat_or, BitVec.toNat_or, hfield,
    or_eq_add hfrac (Nat.mul_mod_left ..), or_eq_add (by omega) hsign]

/-! ## The fields of a type -/

def FpType.interchange : FpType → A64.Interchange
  | .half => A64.binary16
  | .single => A64.binary32
  | .double => A64.binary64

section Pack

variable {t : FpType} {sign : Bool}

theorem FpType.width_eq : t.width - 1 = t.interchange.expBits + t.interchange.fracBits := by
  cases t <;> rfl

theorem FpType.infinity_lt : t.interchange.infinity < 2 ^ (t.width - 1) := by
  cases t <;> decide

theorem pattern_eq (code : Nat) :
    (fpZeroBits t sign).toNat + code = t.interchange.pattern sign code := by
  rw [fpZeroBits_toNat, t.width_eq]
  rfl

/-- A normal number. -/
theorem packed_toNat {frac : BitVec t.width} {rounded : U64} {exponent : Int} {code : Nat}
    (hexp : 1 ≤ exponent)
    (hcode : exponent.toNat * 2 ^ t.interchange.fracBits +
      rounded.toNat % 2 ^ t.interchange.fracBits = code)
    (hlt : code < 2 ^ (t.width - 1))
    (hfrac : frac.toNat = rounded.toNat % 2 ^ t.interchange.fracBits) :
    (fpZeroBits t sign ||| (BitVec.ofInt t.width exponent <<< t.interchange.fracBits) |||
      frac).toNat = t.interchange.pattern sign code := by
  obtain ⟨e, rfl⟩ := Int.eq_ofNat_of_zero_le (show 0 ≤ exponent by omega)
  have hmod := Nat.mod_lt rounded.toNat (Nat.two_pow_pos t.interchange.fracBits)
  rw [Int.toNat_natCast] at hcode
  have hfit : e * 2 ^ t.interchange.fracBits + 2 ^ t.interchange.fracBits ≤ 2 ^ (t.width - 1) := by
    rw [t.width_eq, Nat.pow_add] at hlt ⊢
    rw [← Nat.succ_mul]
    have hmul : e * 2 ^ t.interchange.fracBits <
        2 ^ t.interchange.expBits * 2 ^ t.interchange.fracBits := by omega
    exact Nat.mul_le_mul_right _ (Nat.succ_le_of_lt (Nat.lt_of_mul_lt_mul_right hmul))
  refine (fields_toNat (fpZeroBits_toNat_mod t sign) hfit (hfrac.trans_lt hmod)).trans ?_
  rw [hfrac, hcode, pattern_eq]

/-- A tiny number; rounding may give it the exponent of a normal one. -/
theorem packed_tiny_toNat {one : BitVec t.width} {rounded : U64}
    (hone : one.toNat = 2 ^ t.interchange.fracBits)
    (hle : rounded.toNat ≤ 2 ^ t.interchange.fracBits) :
    (if (1 : U64) <<< t.interchange.fracBits ≤ rounded then fpZeroBits t sign ||| one
      else fpZeroBits t sign ||| rounded.setWidth t.width).toNat =
        t.interchange.pattern sign rounded.toNat := by
  have hbits : 2 ^ t.interchange.fracBits < 2 ^ (t.width - 1) := by
    cases t <;> decide
  have hbound : ((1 : U64) <<< t.interchange.fracBits).toNat = 2 ^ t.interchange.fracBits := by
    cases t <;> rfl
  have hwide : 2 ^ (t.width - 1) ≤ 2 ^ t.width := Nat.pow_le_pow_right Nat.two_pos (Nat.sub_le _ 1)
  have hsign := fpZeroBits_toNat_mod t sign
  by_cases hfull : (1 : U64) <<< t.interchange.fracBits ≤ rounded
  · have hge : 2 ^ t.interchange.fracBits ≤ rounded.toNat := hbound.ge.trans hfull
    rw [if_pos hfull, BitVec.toNat_or, hone, or_eq_add hbits hsign, Nat.le_antisymm hle hge,
      pattern_eq]
  · have hnarrow : (rounded.setWidth t.width).toNat = rounded.toNat := by
      rw [BitVec.toNat_setWidth, Nat.mod_eq_of_lt (by omega)]
    rw [if_neg hfull, BitVec.toNat_or, hnarrow, or_eq_add (by omega) hsign, pattern_eq]

end Pack

section Narrow

variable {f : A64.Interchange} {fracBits : Nat} {significand rounded : U64} {exponent : Int}
  {fpcrMode : U32} {sign inexact : Bool} (hfrac : f.fracBits ≤ fracBits) (hbits : fracBits < 64)
  (hlo : 2 ^ fracBits ≤ significand.toNat) (hhi : significand.toNat < 2 ^ (fracBits + 1))
include hfrac hbits hlo hhi

/-- The carried significand of a normal number has the rounded code. -/
theorem carried_narrow (hf : f.fracBits < 63) (hmin : f.format.emin ≤ exponent)
    (hr : fpRoundShiftRight significand (fracBits - f.fracBits) fpcrMode sign =
      (rounded, inexact)) :
    1 ≤ (carried f.fracBits rounded exponent).2 + f.bias ∧
      ((carried f.fracBits rounded exponent).2 + f.bias).toNat * 2 ^ f.fracBits +
          (carried f.fracBits rounded exponent).1.toNat % 2 ^ f.fracBits =
        f.format.narrow fracBits significand.toNat exponent
          (A64.direction (fpcrMode &&& 3).toNat sign) ∧
      (inexact = true ↔ significand.toNat % 2 ^ f.format.dropped fracBits exponent ≠ 0) := by
  have hemin : f.format.emin = 1 - f.bias := rfl
  have hdrop : f.format.dropped fracBits exponent = fracBits - f.fracBits := by
    have hzero : (f.format.emin - exponent).toNat = 0 := by omega
    exact congrArg (fracBits - f.fracBits + ·) hzero
  obtain ⟨hvalue, hinexact⟩ := fpRoundShiftRight_eq fpcrMode sign
    (.inl (show fracBits - f.fracBits < 64 by omega))
  rw [hr, ← hdrop] at hvalue hinexact
  have hlow : 2 ^ f.fracBits ≤ rounded.toNat := by
    rw [hvalue]
    exact FloatFormat.le_shift_dropped hfrac hlo hmin _
  have hhigh : rounded.toNat ≤ 2 ^ (f.fracBits + 1) := by
    rw [hvalue]
    exact FloatFormat.shift_dropped_le hfrac hlo hhi _
  obtain ⟨hnext, hcode⟩ := carried_code hf hlow hhigh
    (show 1 ≤ exponent + f.bias by omega)
  refine ⟨hnext, ?_, hinexact⟩
  have hbase : exponent + f.bias - 1 = exponent - f.format.emin := by omega
  rw [hcode, hbase, hvalue]
  rfl

omit hbits hlo in
/-- So has the significand of a tiny number. -/
theorem rounded_narrow (hwide : significand.toNat < 2 ^ 63) (hmin : exponent < f.format.emin)
    (hr : fpRoundShiftRight significand
        (fracBits - f.fracBits + (f.format.emin - exponent).toNat) fpcrMode sign =
      (rounded, inexact)) :
    rounded.toNat ≤ 2 ^ f.fracBits ∧
      rounded.toNat = f.format.narrow fracBits significand.toNat exponent
          (A64.direction (fpcrMode &&& 3).toNat sign) ∧
      (inexact = true ↔ significand.toNat % 2 ^ f.format.dropped fracBits exponent ≠ 0) := by
  obtain ⟨hvalue, hinexact⟩ := fpRoundShiftRight_eq fpcrMode sign (.inr hwide)
  rw [hr] at hvalue hinexact
  have hzero : (exponent - f.format.emin).toNat = 0 := by omega
  refine ⟨?_, ?_, hinexact⟩
  · rw [hvalue]
    exact FloatFormat.shift_dropped_le_of_tiny hfrac hhi hmin _
  · rw [hvalue, FloatFormat.narrow, hzero, Nat.zero_mul, Nat.zero_add]
    rfl

end Narrow

/-! ## Exceptions -/

/-- The bits of `fpsr_bits` that the conversions put there. -/
def fpsrFlags (ioc ofc ufc ixc : Bool) : U64 :=
  (if ioc then kFpsrIoc else 0) ||| (if ofc then kFpsrOfc else 0) |||
    ((if ufc then kFpsrUfc else 0) ||| (if ixc then kFpsrIxc else 0))

theorem flag_getLsbD (b : Bool) {k : Nat} (hk : k < 64) (i : Nat) :
    (if b then (1 : U64) <<< k else 0).getLsbD i = true ↔ b = true ∧ i = k := by
  cases b with
  | false => simp
  | true =>
    have hone : ∀ j, (1 : U64).getLsbD j = true ↔ j = 0 := fun j =>
      Nat.testBit_one_eq_true_iff_self_eq_zero
    rw [if_pos rfl, BitVec.getLsbD_shiftLeft, Bool.and_eq_true, hone, Bool.and_eq_true,
      Bool.not_eq_true', decide_eq_true_eq, decide_eq_false_iff_not]
    exact ⟨fun h => ⟨rfl, by omega⟩, fun h => by omega⟩

theorem fpsrFlags_raised {e : A64.Exceptions} {ioc ofc ufc ixc : Bool}
    (hioc : e.invalid ↔ ioc = true) (hofc : e.overflow ↔ ofc = true)
    (hufc : e.underflow ↔ ufc = true) (hixc : e.inexact ↔ ixc = true) :
    e.Raised (fpsrFlags ioc ofc ufc ixc) := by
  intro i
  rw [fpsrFlags, BitVec.getLsbD_or, BitVec.getLsbD_or, BitVec.getLsbD_or, Bool.or_eq_true,
    Bool.or_eq_true, Bool.or_eq_true, kFpsrIoc, kFpsrOfc, kFpsrUfc, kFpsrIxc,
    flag_getLsbD ioc (by decide), flag_getLsbD ofc (by decide), flag_getLsbD ufc (by decide),
    flag_getLsbD ixc (by decide), hioc, hofc, hufc, hixc]
  tauto

end Aarchvm
