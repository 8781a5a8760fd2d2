import Aarchvm.A64.Integer
import Aarchvm.Cpu.Operands
import Mathlib.Tactic.Linarith
import Mathlib.Tactic.Positivity

/-!
# Saturating SIMD arithmetic

The helpers compute in 64 and 128 bits. Their intermediate values are exact, so each returns
the clamped exact result. The template arguments are widths here.
-/
namespace Aarchvm

/-! ## The helpers -/

/-- `saturate_signed_value` to a type of `n` bits. -/
def saturateSignedValue (n : ℕ) {w : ℕ} (value : BitVec w) : BitVec n :=
  if value.slt ((BitVec.intMin n).signExtend w) then BitVec.intMin n
  else if ((BitVec.intMax n).signExtend w).slt value then BitVec.intMax n
  else value.setWidth n

/-- `saturate_unsigned_value` to a type of `n` bits. -/
def saturateUnsignedValue (n : ℕ) {w : ℕ} (value : BitVec w) : BitVec n :=
  if (BitVec.allOnes n).setWidth w < value then BitVec.allOnes n else value.setWidth n

/-- `saturate_signed_to_unsigned_value` to a type of `n` bits. -/
def saturateSignedToUnsignedValue (n : ℕ) {w : ℕ} (value : BitVec w) : BitVec n :=
  if value.sle 0 then 0
  else if ((BitVec.allOnes n).setWidth w).slt value then BitVec.allOnes n
  else value.setWidth n

def roundShiftRightUnsigned (value : U64) (shift : ℕ) (round : Bool) : U64 :=
  let wide : BitVec 128 := value.setWidth 128
  let wide := if round then wide + (1 : BitVec 128) <<< (shift - 1) else wide
  (wide >>> shift).setWidth 64

def roundShiftRightSigned (value : U64) (shift : ℕ) (round : Bool) : U64 :=
  let wide := value.signExtend 128
  let wide := if round then wide + (1 : BitVec 128) <<< (shift - 1) else wide
  (wide.sshiftRight shift).setWidth 64

def roundShiftRightSignedWide (value : BitVec 128) (shift : ℕ) (round : Bool) : BitVec 128 :=
  let value := if round then value + (1 : BitVec 128) <<< (shift - 1) else value
  value.sshiftRight shift

def signExtendBits (value : U64) (bits : ℕ) : U64 :=
  if bits = 0 ∨ 64 ≤ bits then value
  else
    let shift := 64 - bits
    (value <<< shift).sshiftRight shift

inductive ShiftRightNarrowMode where
  | plainUnsigned
  | signedToSignedSaturating
  | unsignedToUnsignedSaturating
  | signedToUnsignedSaturating
  deriving DecidableEq, Repr

/-- `shift_right_narrow_result`, with `saturated` as the second component. -/
def shiftRightNarrowResult (value : U64) (srcEsizeBits dstEsizeBits shift : ℕ) (round : Bool)
    (mode : ShiftRightNarrowMode) : U64 × Bool :=
  let supported : Bool := dstEsizeBits == 8 || dstEsizeBits == 16 || dstEsizeBits == 32
  match mode with
  | .plainUnsigned => (roundShiftRightUnsigned value shift round &&& ones dstEsizeBits, false)
  | .signedToSignedSaturating =>
    let shifted := roundShiftRightSigned (signExtendBits value srcEsizeBits) shift round
    if supported then
      ((saturateSignedValue dstEsizeBits shifted).setWidth 64,
        shifted.slt ((BitVec.intMin dstEsizeBits).signExtend 64) ||
          ((BitVec.intMax dstEsizeBits).signExtend 64).slt shifted)
    else (0, false)
  | .unsignedToUnsignedSaturating =>
    let shifted := roundShiftRightUnsigned value shift round
    if supported then
      ((saturateUnsignedValue dstEsizeBits shifted).setWidth 64,
        (BitVec.allOnes dstEsizeBits).setWidth 64 < shifted)
    else (0, false)
  | .signedToUnsignedSaturating =>
    let shifted := roundShiftRightSigned (signExtendBits value srcEsizeBits) shift round
    if supported then
      ((saturateSignedToUnsignedValue dstEsizeBits shifted).setWidth 64,
        shifted.slt 0 || ((BitVec.allOnes dstEsizeBits).setWidth 64).slt shifted)
    else (0, false)

def satUnsignedAddSub (lhs rhs : U64) (esizeBits : ℕ) (subtract : Bool) : U64 × Bool :=
  let mask := ones esizeBits
  let lhs := lhs &&& mask
  let rhs := rhs &&& mask
  if subtract then
    let saturated : Bool := lhs < rhs
    (if saturated then 0 else (lhs - rhs) &&& mask, saturated)
  else
    let maxValue : BitVec 128 :=
      if esizeBits = 64 then (~~~0 : U64).setWidth 128 else ((1 : BitVec 128) <<< esizeBits) - 1
    let sum : BitVec 128 := lhs.setWidth 128 + rhs.setWidth 128
    let saturated : Bool := maxValue < sum
    let sum := if saturated then maxValue else sum
    (sum.setWidth 64 &&& mask, saturated)

def satSignedAddSub (lhs rhs : U64) (esizeBits : ℕ) (subtract : Bool) : U64 × Bool :=
  let lhsValue := (signExtendBits lhs esizeBits).signExtend 128
  let rhsValue := (signExtendBits rhs esizeBits).signExtend 128
  let result := if subtract then lhsValue - rhsValue else lhsValue + rhsValue
  let minValue := -((1 : BitVec 128) <<< (esizeBits - 1))
  let maxValue := ((1 : BitVec 128) <<< (esizeBits - 1)) - 1
  let saturated := result.slt minValue || maxValue.slt result
  let result :=
    if result.slt minValue then minValue else if maxValue.slt result then maxValue else result
  (result.setWidth 64 &&& ones esizeBits, saturated)

def sqdmulhResult (lhs rhs : U64) (esizeBits : ℕ) (round : Bool) : U64 × Bool :=
  let element1 := (signExtendBits lhs esizeBits).signExtend 128
  let element2 := (signExtendBits rhs esizeBits).signExtend 128
  let product := roundShiftRightSignedWide (2 * element1 * element2) esizeBits round
  if esizeBits = 16 ∨ esizeBits = 32 then
    ((saturateSignedValue esizeBits product).setWidth 64,
      product.slt ((BitVec.intMin esizeBits).signExtend 128) ||
        ((BitVec.intMax esizeBits).signExtend 128).slt product)
  else (0, false)

def sqdmullProductResult (lhs rhs : U64) (esizeBits : ℕ) : U64 × Bool :=
  let element1 := (signExtendBits lhs esizeBits).signExtend 128
  let element2 := (signExtendBits rhs esizeBits).signExtend 128
  let product := 2 * element1 * element2
  if esizeBits = 16 ∨ esizeBits = 32 then
    ((saturateSignedValue (2 * esizeBits) product).setWidth 64,
      product.slt ((BitVec.intMin (2 * esizeBits)).signExtend 128) ||
        ((BitVec.intMax (2 * esizeBits)).signExtend 128).slt product)
  else (0, false)

def sqdmlLongAccumulateResult (acc lhs rhs : U64) (esizeBits : ℕ) (subtract : Bool) : U64 × Bool :=
  let (product, satProduct) := sqdmullProductResult lhs rhs esizeBits
  let (result, satAcc) := satSignedAddSub acc product (esizeBits * 2) subtract
  (result, satProduct || satAcc)

/-! ## Signed values -/

theorem signExtendBits_eq (value : U64) {bits : ℕ} (hpos : 0 < bits) (hle : bits ≤ 64) :
    signExtendBits value bits = (value.setWidth bits).signExtend 64 := by
  rw [signExtendBits]
  split
  · next h =>
    obtain rfl : bits = 64 := by omega
    rw [BitVec.setWidth_eq, BitVec.signExtend_eq]
  · next h =>
    apply BitVec.eq_of_getLsbD_eq
    intro i hi
    have htop : (value <<< (64 - bits)).msb = value.getLsbD (bits - 1) := by
      have hsub : 64 - 1 - (64 - bits) = bits - 1 := by omega
      rw [BitVec.msb_eq_getLsbD_last, BitVec.getLsbD_shiftLeft, hsub]
      simp
      omega
    have htop' : (value.setWidth bits).msb = value.getLsbD (bits - 1) := by
      rw [BitVec.msb_setWidth]
      simp
      omega
    rw [BitVec.getLsbD_sshiftRight, BitVec.getLsbD_signExtend, htop, htop']
    by_cases hlow : i < bits
    · rw [if_pos (by omega), if_pos hlow, BitVec.getLsbD_shiftLeft, BitVec.getLsbD_setWidth,
        Nat.add_sub_cancel_left]
      have hfar : ¬ 64 ≤ i := Nat.not_le.2 hi
      have hsum : 64 - bits + i < 64 := by omega
      simp [hlow, hfar, hsum, hi]
    · rw [if_neg (by omega), if_neg hlow]
      simp [hi]

theorem toInt_signExtendBits (value : U64) {bits : ℕ} (hpos : 0 < bits) (hle : bits ≤ 64) :
    (signExtendBits value bits).toInt = (value.setWidth bits).toInt := by
  rw [signExtendBits_eq value hpos hle, BitVec.toInt_signExtend_of_le hle]

theorem toInt_intMin_signExtend {n w : ℕ} (hpos : 0 < n) (hle : n ≤ w) :
    ((BitVec.intMin n).signExtend w).toInt = -2 ^ (n - 1) := by
  rw [BitVec.toInt_signExtend_of_le hle, BitVec.toInt_intMin_of_pos hpos]

theorem toInt_intMax_signExtend {n w : ℕ} (hle : n ≤ w) :
    ((BitVec.intMax n).signExtend w).toInt = 2 ^ (n - 1) - 1 := by
  rw [BitVec.toInt_signExtend_of_le hle, BitVec.toInt_intMax]

/-- A type that holds the value keeps it. -/
theorem toInt_setWidth_of_bounds {n w : ℕ} {value : BitVec w} (hpos : 0 < n) (hle : n ≤ w)
    (hlo : -2 ^ (n - 1) ≤ value.toInt) (hhi : value.toInt < 2 ^ (n - 1)) :
    (value.setWidth n).toInt = value.toInt := by
  rw [← BitVec.signExtend_eq_setWidth_of_le _ hle]
  exact BitVec.toInt_ofInt_eq_self hpos hlo hhi

theorem saturateSignedValue_toInt {n w : ℕ} (value : BitVec w) (hpos : 0 < n) (hle : n ≤ w) :
    (saturateSignedValue n value).toInt = A64.signedSat n value.toInt := by
  have hpow : (0 : ℤ) < 2 ^ (n - 1) := by positivity
  rw [saturateSignedValue, A64.signedSat, BitVec.slt, BitVec.slt, toInt_intMin_signExtend hpos hle,
    toInt_intMax_signExtend hle]
  simp only [decide_eq_true_eq]
  split
  · rw [BitVec.toInt_intMin_of_pos hpos]
    omega
  · split
    · rw [BitVec.toInt_intMax]
      omega
    · rw [toInt_setWidth_of_bounds hpos hle (by omega) (by omega)]
      omega

/-- The pattern of a saturated element, with the flag. -/
theorem signedSaturates_of_toInt {n : ℕ} {x : ℤ} {pattern : BitVec n} {saturated : Bool}
    (hle : n ≤ 64) (hvalue : pattern.toInt = A64.signedSat n x)
    (hsat : saturated = true ↔ x < -2 ^ (n - 1) ∨ 2 ^ (n - 1) - 1 < x) :
    A64.SignedSaturates n x (pattern.setWidth 64, saturated) := by
  have hpow : (0 : ℤ) < 2 ^ (n - 1) := by positivity
  refine ⟨?_, ?_, ?_⟩
  · rw [BitVec.toNat_setWidth]
    exact (Nat.mod_le _ _).trans_lt pattern.isLt
  · rw [BitVec.setWidth_setWidth_of_le _ hle, BitVec.setWidth_eq, hvalue]
  · rw [hsat, A64.signedSat]
    omega

/-! ## Narrowing shifts -/

theorem toInt_ofInt_wide {z : ℤ} (hlo : -2 ^ 127 ≤ z) (hhi : z < 2 ^ 127) :
    (BitVec.ofInt 128 z).toInt = z := BitVec.toInt_ofInt_eq_self (by decide) hlo hhi

theorem shiftLeft_one_wide (shift : ℕ) :
    (1 : BitVec 128) <<< shift = BitVec.ofInt 128 (2 ^ shift) := by
  have hone : (1 : BitVec 128).toNat = 1 := rfl
  have hcast : ((2 : ℤ) ^ shift) = ((2 ^ shift : ℕ) : ℤ) := by push_cast; rfl
  apply BitVec.eq_of_toNat_eq
  rw [BitVec.toNat_shiftLeft, hone, Nat.one_shiftLeft, hcast, BitVec.ofInt_natCast,
    BitVec.toNat_ofNat]

theorem add_roundingTerm (z : ℤ) (shift : ℕ) (round : Bool) :
    (if round then BitVec.ofInt 128 z + (1 : BitVec 128) <<< (shift - 1) else BitVec.ofInt 128 z) =
      BitVec.ofInt 128 (z + A64.roundingTerm round shift) := by
  rw [A64.roundingTerm, shiftLeft_one_wide]
  cases round
  · rw [if_neg (by decide), if_neg (by decide), Int.add_zero]
  · rw [if_pos rfl, if_pos rfl, BitVec.ofInt_add]

theorem sshiftRight_ofInt {z : ℤ} (shift : ℕ) (hlo : -2 ^ 127 ≤ z) (hhi : z < 2 ^ 127) :
    ((BitVec.ofInt 128 z).sshiftRight shift).toInt = z / 2 ^ shift := by
  rw [BitVec.toInt_sshiftRight, toInt_ofInt_wide hlo hhi, Int.shiftRight_eq_div_pow]
  push_cast
  rfl

theorem roundingTerm_bounds (round : Bool) {shift : ℕ} (h : shift ≤ 64) :
    0 ≤ A64.roundingTerm round shift ∧ A64.roundingTerm round shift ≤ 2 ^ 63 := by
  rw [A64.roundingTerm]
  split
  · exact ⟨by positivity, pow_le_pow_right₀ (by norm_num) (by omega)⟩
  · exact ⟨le_rfl, by norm_num⟩

/-- Neither the rounding nor the shift leaves the range of the value. -/
theorem ediv_bounds {v r p : ℤ} (hlo : -2 ^ 63 ≤ v) (hhi : v < 2 ^ 63) (hr : 0 ≤ r)
    (hr' : r ≤ 2 ^ 63) (hp : 2 ≤ p) : -2 ^ 63 ≤ (v + r) / p ∧ (v + r) / p < 2 ^ 63 := by
  constructor
  · rw [Int.le_ediv_iff_mul_le (by omega)]
    linarith
  · refine Int.ediv_lt_of_lt_mul (by omega) ?_
    linarith

theorem two_le_two_pow {shift : ℕ} (hpos : 0 < shift) : (2 : ℤ) ≤ 2 ^ shift := by
  calc (2 : ℤ) = 2 ^ 1 := (pow_one 2).symm
    _ ≤ 2 ^ shift := pow_le_pow_right₀ (by norm_num) hpos

/-- A signed 64-bit value is shifted exactly. -/
theorem roundShiftRightSigned_toInt (value : U64) {shift : ℕ} (round : Bool) (hpos : 0 < shift)
    (hle : shift ≤ 64) : (roundShiftRightSigned value shift round).toInt =
      (value.toInt + A64.roundingTerm round shift) / 2 ^ shift := by
  have hlo : -2 ^ 63 ≤ value.toInt := BitVec.le_toInt value
  have hhi : value.toInt < 2 ^ 63 := BitVec.toInt_lt
  obtain ⟨hround, hround'⟩ := roundingTerm_bounds round hle
  obtain ⟨hdivlo, hdivhi⟩ := ediv_bounds hlo hhi hround hround' (two_le_two_pow hpos)
  have hshifted : ((BitVec.ofInt 128 (value.toInt + A64.roundingTerm round shift)).sshiftRight
      shift).toInt = (value.toInt + A64.roundingTerm round shift) / 2 ^ shift :=
    sshiftRight_ofInt shift (by omega) (by omega)
  have hbody : roundShiftRightSigned value shift round =
      ((BitVec.ofInt 128 (value.toInt + A64.roundingTerm round shift)).sshiftRight
        shift).setWidth 64 := by
    rw [← add_roundingTerm]
    rfl
  rw [hbody, toInt_setWidth_of_bounds (by decide) (by decide) (hshifted ▸ hdivlo)
    (hshifted ▸ hdivhi), hshifted]

theorem roundShiftRightUnsigned_toNat (value : U64) {shift : ℕ} (round : Bool) (hpos : 0 < shift)
    (hle : shift ≤ 64) : ((roundShiftRightUnsigned value shift round).toNat : ℤ) =
      (value.toNat + A64.roundingTerm round shift) / 2 ^ shift := by
  have hlt := value.isLt
  obtain ⟨hround, hround'⟩ := roundingTerm_bounds round hle
  obtain ⟨r, hr⟩ := Int.eq_ofNat_of_zero_le hround
  have hwide : value.setWidth 128 = BitVec.ofInt 128 value.toNat := by
    rw [BitVec.ofInt_natCast]
    exact (BitVec.ofNat_toNat 128 value).symm
  have hsum : BitVec.ofInt 128 (value.toNat + A64.roundingTerm round shift) =
      BitVec.ofNat 128 (value.toNat + r) := by
    rw [hr, ← Nat.cast_add, BitVec.ofInt_natCast]
  have hbody : roundShiftRightUnsigned value shift round =
      (BitVec.ofNat 128 (value.toNat + r) >>> shift).setWidth 64 := by
    rw [← hsum, ← add_roundingTerm, ← hwide]
    rfl
  have htwo : 2 ≤ 2 ^ shift := Nat.le_self_pow hpos.ne' 2
  have hquot : (value.toNat + r) / 2 ^ shift < 2 ^ 64 := by
    rw [Nat.div_lt_iff_lt_mul (Nat.two_pow_pos _)]
    omega
  rw [hbody, BitVec.toNat_setWidth, BitVec.toNat_ushiftRight, BitVec.toNat_ofNat,
    Nat.shiftRight_eq_div_pow, Nat.mod_eq_of_lt (show value.toNat + r < 2 ^ 128 by omega),
    Nat.mod_eq_of_lt hquot, hr]
  push_cast
  rfl

/-! ## Saturating a value -/

theorem saturateSignedValue_saturates {n w : ℕ} (value : BitVec w) (hpos : 0 < n) (hle : n ≤ w)
    (hfits : n ≤ 64) :
    A64.SignedSaturates n value.toInt ((saturateSignedValue n value).setWidth 64,
      value.slt ((BitVec.intMin n).signExtend w) ||
        ((BitVec.intMax n).signExtend w).slt value) := by
  refine signedSaturates_of_toInt hfits (saturateSignedValue_toInt value hpos hle) ?_
  rw [Bool.or_eq_true, BitVec.slt, BitVec.slt, decide_eq_true_eq, decide_eq_true_eq,
    toInt_intMin_signExtend hpos hle, toInt_intMax_signExtend hle]

theorem toNat_allOnes_setWidth {n w : ℕ} (hle : n ≤ w) :
    ((BitVec.allOnes n).setWidth w).toNat = 2 ^ n - 1 := by
  have hpow : 2 ^ n ≤ 2 ^ w := Nat.pow_le_pow_right Nat.two_pos hle
  have hpos := Nat.two_pow_pos n
  rw [BitVec.toNat_setWidth, BitVec.toNat_allOnes, Nat.mod_eq_of_lt (by omega)]

/-- The pattern of a saturated unsigned element, with the flag. -/
theorem unsignedSaturates_of_toNat {n : ℕ} {x : ℤ} {pattern : BitVec n} {saturated : Bool}
    (hle : n ≤ 64) (hvalue : (pattern.toNat : ℤ) = A64.unsignedSat n x)
    (hsat : saturated = true ↔ x < 0 ∨ 2 ^ n - 1 < x) :
    A64.UnsignedSaturates n x (pattern.setWidth 64, saturated) := by
  have hpow : (0 : ℤ) < 2 ^ n := by positivity
  refine ⟨?_, ?_⟩
  · rw [BitVec.toNat_setWidth, Nat.mod_eq_of_lt, hvalue]
    exact pattern.isLt.trans_le (Nat.pow_le_pow_right Nat.two_pos hle)
  · rw [hsat, A64.unsignedSat]
    omega

theorem saturateUnsignedValue_saturates {n : ℕ} (value : U64) (hle : n ≤ 64) :
    A64.UnsignedSaturates n value.toNat ((saturateUnsignedValue n value).setWidth 64,
      (BitVec.allOnes n).setWidth 64 < value) := by
  have hpos := Nat.two_pow_pos n
  have hmax : ((BitVec.allOnes n).setWidth 64 < value) ↔ 2 ^ n - 1 < value.toNat := by
    rw [BitVec.lt_def, toNat_allOnes_setWidth hle]
  have hcast : ((2 ^ n : ℕ) : ℤ) = 2 ^ n := by push_cast; rfl
  refine unsignedSaturates_of_toNat hle ?_ ?_
  · rw [saturateUnsignedValue, A64.unsignedSat]
    split
    · next h =>
      have hover := hmax.1 h
      rw [BitVec.toNat_allOnes]
      omega
    · next h =>
      have hfits := mt hmax.2 h
      rw [BitVec.toNat_setWidth, Nat.mod_eq_of_lt (by omega)]
      omega
  · rw [decide_eq_true_eq, hmax]
    omega

theorem saturateSignedToUnsignedValue_saturates {n : ℕ} (value : U64) (hle : n < 64) :
    A64.UnsignedSaturates n value.toInt ((saturateSignedToUnsignedValue n value).setWidth 64,
      value.slt 0 || ((BitVec.allOnes n).setWidth 64).slt value) := by
  have hpos := Nat.two_pow_pos n
  have hcast : ((2 ^ n : ℕ) : ℤ) = 2 ^ n := by push_cast; rfl
  have hhalf : 2 ^ n ≤ 2 ^ 63 := Nat.pow_le_pow_right Nat.two_pos (by omega)
  have hlimit : ((BitVec.allOnes n).setWidth 64).toInt = 2 ^ n - 1 := by
    rw [BitVec.toInt_eq_toNat_of_lt, toNat_allOnes_setWidth hle.le]
    · omega
    · rw [toNat_allOnes_setWidth hle.le]
      omega
  have hzero : (0 : U64).toInt = 0 := rfl
  refine unsignedSaturates_of_toNat hle.le ?_ ?_
  · rw [saturateSignedToUnsignedValue, A64.unsignedSat, BitVec.sle, BitVec.slt, hzero, hlimit]
    simp only [decide_eq_true_eq]
    split
    · have hnone : (0 : BitVec n).toNat = 0 := Nat.zero_mod _
      rw [hnone]
      omega
    · split
      · rw [BitVec.toNat_allOnes]
        omega
      · -- a positive value has its own bits
        have hsame : value.toInt = value.toNat := by
          rw [BitVec.toInt_eq_toNat_cond] at *
          split at * <;> omega
        rw [BitVec.toNat_setWidth, Nat.mod_eq_of_lt (by omega)]
        omega
  · rw [Bool.or_eq_true, BitVec.slt, BitVec.slt, decide_eq_true_eq, decide_eq_true_eq, hzero,
      hlimit]

/-! ## Narrowing shifts -/

section Narrow

variable {dst shift : ℕ} (hdst : dst = 8 ∨ dst = 16 ∨ dst = 32) (hpos : 0 < shift)
  (hle : shift ≤ dst) (x : BitVec (2 * dst)) (round : Bool)
include hdst

theorem supported_eq : (dst == 8 || dst == 16 || dst == 32) = true := by
  rcases hdst with rfl | rfl | rfl <;> rfl

/-- An element, sign-extended again. -/
theorem toInt_signExtendBits_element :
    (signExtendBits (x.setWidth 64) (2 * dst)).toInt = x.toInt := by
  rw [toInt_signExtendBits _ (by omega) (by omega), BitVec.setWidth_setWidth_of_le _ (by omega),
    BitVec.setWidth_eq]

theorem toNat_element : (x.setWidth 64).toNat = x.toNat := by
  rw [BitVec.toNat_setWidth, Nat.mod_eq_of_lt]
  exact x.isLt.trans_le (Nat.pow_le_pow_right Nat.two_pos (by omega))

include hpos hle

theorem shiftRightNarrowResult_signed :
    A64.SignedSaturates dst ((x.toInt + A64.roundingTerm round shift) / 2 ^ shift)
      (shiftRightNarrowResult (x.setWidth 64) (2 * dst) dst shift round
        .signedToSignedSaturating) := by
  have hsat := saturateSignedValue_saturates (n := dst)
    (roundShiftRightSigned (signExtendBits (x.setWidth 64) (2 * dst)) shift round)
    (by omega) (by omega) (by omega)
  rw [roundShiftRightSigned_toInt _ round hpos (by omega),
    toInt_signExtendBits_element hdst] at hsat
  rw [shiftRightNarrowResult, supported_eq hdst]
  exact hsat

theorem shiftRightNarrowResult_unsigned :
    A64.UnsignedSaturates dst ((x.toNat + A64.roundingTerm round shift) / 2 ^ shift)
      (shiftRightNarrowResult (x.setWidth 64) (2 * dst) dst shift round
        .unsignedToUnsignedSaturating) := by
  have hsat := saturateUnsignedValue_saturates (n := dst)
    (roundShiftRightUnsigned (x.setWidth 64) shift round) (by omega)
  rw [roundShiftRightUnsigned_toNat _ round hpos (by omega), toNat_element hdst] at hsat
  rw [shiftRightNarrowResult, supported_eq hdst]
  exact hsat

theorem shiftRightNarrowResult_signed_unsigned :
    A64.UnsignedSaturates dst ((x.toInt + A64.roundingTerm round shift) / 2 ^ shift)
      (shiftRightNarrowResult (x.setWidth 64) (2 * dst) dst shift round
        .signedToUnsignedSaturating) := by
  have hsat := saturateSignedToUnsignedValue_saturates (n := dst)
    (roundShiftRightSigned (signExtendBits (x.setWidth 64) (2 * dst)) shift round) (by omega)
  rw [roundShiftRightSigned_toInt _ round hpos (by omega),
    toInt_signExtendBits_element hdst] at hsat
  rw [shiftRightNarrowResult, supported_eq hdst]
  exact hsat

end Narrow

/-! ## Sums and differences -/

theorem and_ones_toNat (value : U64) {n : ℕ} (hle : n ≤ 64) :
    (value &&& ones n).toNat = (value.setWidth n).toNat := by
  rw [and_ones_eq, BitVec.toNat_setWidth, Nat.mod_eq_of_lt]
  exact (value.setWidth n).isLt.trans_le (Nat.pow_le_pow_right Nat.two_pos hle)

/-- `max_value` of `sat_unsigned_add_sub`. -/
theorem maxValue_toNat {n : ℕ} (hle : n ≤ 64) :
    (if n = 64 then (~~~0 : U64).setWidth 128 else ((1 : BitVec 128) <<< n) - 1).toNat =
      2 ^ n - 1 := by
  split
  · next h =>
    subst h
    rfl
  · next h =>
    have hone : (1 : BitVec 128).toNat = 1 := rfl
    have hpow : 2 ^ n < 2 ^ 128 := Nat.pow_lt_pow_right Nat.one_lt_two (by omega)
    have hshift : ((1 : BitVec 128) <<< n).toNat = 2 ^ n := by
      rw [BitVec.toNat_shiftLeft, hone, Nat.one_shiftLeft, Nat.mod_eq_of_lt hpow]
    have hge : (1 : BitVec 128) ≤ (1 : BitVec 128) <<< n := by
      rw [BitVec.le_def, hshift, hone]
      exact Nat.one_le_two_pow
    rw [BitVec.toNat_sub_of_le hge, hshift, hone]

theorem satUnsignedAddSub_saturates {n : ℕ} (hle : n ≤ 64) (lhs rhs : U64) (subtract : Bool) :
    A64.UnsignedSaturates n
      (if subtract then (lhs.setWidth n).toNat - (rhs.setWidth n).toNat
        else (lhs.setWidth n).toNat + (rhs.setWidth n).toNat)
      (satUnsignedAddSub lhs rhs n subtract) := by
  have hl := and_ones_toNat lhs hle
  have hr := and_ones_toNat rhs hle
  have hlt := (lhs.setWidth n).isLt
  have hlt' := (rhs.setWidth n).isLt
  rw [← hl] at hlt ⊢
  rw [← hr] at hlt' ⊢
  rw [satUnsignedAddSub]
  generalize lhs &&& ones n = l at *
  generalize rhs &&& ones n = r at *
  have hcast : ((2 ^ n : ℕ) : ℤ) = 2 ^ n := by push_cast; rfl
  have hpow : 2 ^ n ≤ 2 ^ 64 := Nat.pow_le_pow_right Nat.two_pos hle
  have hmask : ∀ v : U64, v.toNat < 2 ^ n → (v &&& ones n).toNat = v.toNat := fun v hv => by
    rw [and_ones_toNat v hle, BitVec.toNat_setWidth, Nat.mod_eq_of_lt hv]
  cases subtract with
  | true =>
    simp only [if_true]
    by_cases h : l < r
    · have hless : l.toNat < r.toNat := h
      rw [decide_eq_true h, if_pos rfl]
      refine ⟨?_, iff_of_true rfl ?_⟩
      · rw [A64.unsignedSat]
        exact (show ((0 : ℕ) : ℤ) = _ by omega)
      · rw [A64.unsignedSat]
        omega
    · have hge : r.toNat ≤ l.toNat := Nat.not_lt.1 h
      have hsub : (l - r).toNat = l.toNat - r.toNat := BitVec.toNat_sub_of_le hge
      rw [decide_eq_false h, if_neg (by decide)]
      refine ⟨?_, iff_of_false Bool.false_ne_true ?_⟩
      · rw [hmask _ (by omega), hsub, A64.unsignedSat]
        omega
      · rw [A64.unsignedSat]
        omega
  | false =>
    have hsum : (l.setWidth 128 + r.setWidth 128).toNat = l.toNat + r.toNat := by
      rw [BitVec.toNat_add, BitVec.toNat_setWidth, BitVec.toNat_setWidth]
      omega
    have hmax := maxValue_toNat hle
    simp only [Bool.false_eq_true, if_false]
    generalize (if n = 64 then (~~~0 : U64).setWidth 128
      else ((1 : BitVec 128) <<< n) - 1) = limit at *
    generalize l.setWidth 128 + r.setWidth 128 = sum at *
    have hover : limit < sum ↔ 2 ^ n - 1 < l.toNat + r.toNat := by
      rw [BitVec.lt_def, hmax, hsum]
    have hnarrow : ∀ v : BitVec 128, v.toNat < 2 ^ n →
        (v.setWidth 64 &&& ones n).toNat = v.toNat := fun v hv => by
      have hv' : (v.setWidth 64).toNat = v.toNat := by
        rw [BitVec.toNat_setWidth, Nat.mod_eq_of_lt (hv.trans_le hpow)]
      rw [hmask _ (hv'.trans_lt hv), hv']
    refine ⟨?_, ?_⟩
    · by_cases h : limit < sum
      · rw [decide_eq_true h, if_pos rfl, hnarrow _ (by omega), hmax, A64.unsignedSat]
        have := hover.1 h
        omega
      · have := mt hover.2 h
        rw [decide_eq_false h, if_neg (by decide), hnarrow _ (by omega), hsum, A64.unsignedSat]
        omega
    · rw [decide_eq_true_eq, hover, A64.unsignedSat]
      omega

/-- An element of the operands as the helpers extend it. -/
theorem signExtendBits_wide (value : U64) {n : ℕ} (hpos : 0 < n) (hle : n ≤ 64) :
    (signExtendBits value n).signExtend 128 = BitVec.ofInt 128 (value.setWidth n).toInt := by
  rw [← toInt_signExtendBits value hpos hle]
  rfl

theorem element_bounds (value : U64) {n : ℕ} (hpos : 0 < n) (hle : n ≤ 64) :
    -2 ^ 63 ≤ (value.setWidth n).toInt ∧ (value.setWidth n).toInt < 2 ^ 63 := by
  rw [← toInt_signExtendBits value hpos hle]
  exact ⟨BitVec.le_toInt _, BitVec.toInt_lt⟩

theorem ofInt_sub_wide (x y : ℤ) :
    BitVec.ofInt 128 (x - y) = BitVec.ofInt 128 x - BitVec.ofInt 128 y := by
  rw [Int.sub_eq_add_neg, BitVec.ofInt_add, BitVec.ofInt_neg, ← BitVec.sub_eq_add_neg]

theorem toInt_minValue {n : ℕ} (hle : n ≤ 64) :
    (-((1 : BitVec 128) <<< (n - 1))).toInt = -2 ^ (n - 1) := by
  have hpow : (2 : ℤ) ^ (n - 1) ≤ 2 ^ 63 := pow_le_pow_right₀ (by norm_num) (by omega)
  have hpos : (0 : ℤ) < 2 ^ (n - 1) := by positivity
  rw [shiftLeft_one_wide, ← BitVec.ofInt_neg, toInt_ofInt_wide (by omega) (by omega)]

theorem toInt_maxValue {n : ℕ} (hle : n ≤ 64) :
    ((1 : BitVec 128) <<< (n - 1) - 1).toInt = 2 ^ (n - 1) - 1 := by
  have hpow : (2 : ℤ) ^ (n - 1) ≤ 2 ^ 63 := pow_le_pow_right₀ (by norm_num) (by omega)
  have hpos : (0 : ℤ) < 2 ^ (n - 1) := by positivity
  have hone : (1 : BitVec 128) = BitVec.ofInt 128 1 := rfl
  rw [shiftLeft_one_wide, hone, ← ofInt_sub_wide, toInt_ofInt_wide (by omega) (by omega)]

theorem satSignedAddSub_saturates {n : ℕ} (hpos : 0 < n) (hle : n ≤ 64) (lhs rhs : U64)
    (subtract : Bool) :
    A64.SignedSaturates n
      (if subtract then (lhs.setWidth n).toInt - (rhs.setWidth n).toInt
        else (lhs.setWidth n).toInt + (rhs.setWidth n).toInt)
      (satSignedAddSub lhs rhs n subtract) := by
  obtain ⟨hllo, hlhi⟩ := element_bounds lhs hpos hle
  obtain ⟨hrlo, hrhi⟩ := element_bounds rhs hpos hle
  rw [satSignedAddSub, signExtendBits_wide lhs hpos hle, signExtendBits_wide rhs hpos hle]
  generalize (lhs.setWidth n).toInt = l at *
  generalize (rhs.setWidth n).toInt = r at *
  have hexact : (if subtract then BitVec.ofInt 128 l - BitVec.ofInt 128 r
      else BitVec.ofInt 128 l + BitVec.ofInt 128 r) =
        BitVec.ofInt 128 (if subtract then l - r else l + r) := by
    cases subtract
    · exact (BitVec.ofInt_add l r).symm
    · exact (ofInt_sub_wide l r).symm
  have hrange : -2 ^ 64 ≤ (if subtract then l - r else l + r) ∧
      (if subtract then l - r else l + r) ≤ 2 ^ 64 := by
    split <;> omega
  rw [hexact]
  generalize (if subtract then l - r else l + r) = x at *
  have hvalue := toInt_ofInt_wide (show -2 ^ 127 ≤ x by omega) (by omega)
  generalize BitVec.ofInt 128 x = result at *
  have hmin := toInt_minValue hle
  have hmax := toInt_maxValue hle
  generalize -((1 : BitVec 128) <<< (n - 1)) = minValue at *
  generalize (1 : BitVec 128) <<< (n - 1) - 1 = maxValue at *
  have hpow : (0 : ℤ) < 2 ^ (n - 1) := by positivity
  have hlow : result.slt minValue = true ↔ x < -2 ^ (n - 1) := by
    rw [BitVec.slt, decide_eq_true_eq, hvalue, hmin]
  have hhigh : maxValue.slt result = true ↔ 2 ^ (n - 1) - 1 < x := by
    rw [BitVec.slt, decide_eq_true_eq, hvalue, hmax]
  have hclamp : (if result.slt minValue then minValue
      else if maxValue.slt result then maxValue else result).toInt = A64.signedSat n x := by
    rw [A64.signedSat]
    by_cases h : result.slt minValue = true
    · have := hlow.1 h
      rw [if_pos h, hmin]
      omega
    · have := mt hlow.2 h
      by_cases h' : maxValue.slt result = true
      · have := hhigh.1 h'
        rw [if_neg h, if_pos h', hmax]
        omega
      · have := mt hhigh.2 h'
        rw [if_neg h, if_neg h', hvalue]
        omega
  generalize (if result.slt minValue then minValue
    else if maxValue.slt result then maxValue else result) = clamped at *
  have hpattern : clamped.setWidth 64 &&& ones n = (clamped.setWidth n).setWidth 64 := by
    rw [and_ones_eq, BitVec.setWidth_setWidth_of_le _ hle]
  rw [hpattern]
  refine signedSaturates_of_toInt hle ?_ ?_
  · rw [toInt_setWidth_of_bounds hpos (by omega), hclamp] <;>
      (rw [hclamp, A64.signedSat]; omega)
  · rw [Bool.or_eq_true, hlow, hhigh]

/-! ## Doubled products -/

/-- The doubled product of two elements of at most 32 bits. -/
theorem product_wide (lhs rhs : U64) {n : ℕ} (hpos : 0 < n) (hle : n ≤ 32) :
    2 * (signExtendBits lhs n).signExtend 128 * (signExtendBits rhs n).signExtend 128 =
        BitVec.ofInt 128 (2 * (lhs.setWidth n).toInt * (rhs.setWidth n).toInt) ∧
      -2 ^ 63 ≤ 2 * (lhs.setWidth n).toInt * (rhs.setWidth n).toInt ∧
      2 * (lhs.setWidth n).toInt * (rhs.setWidth n).toInt ≤ 2 ^ 63 := by
  have htwo : (2 : BitVec 128) = BitVec.ofInt 128 2 := rfl
  have hpow : (2 : ℤ) ^ (n - 1) ≤ 2 ^ 31 := pow_le_pow_right₀ (by norm_num) (by omega)
  have hllo := BitVec.le_toInt (lhs.setWidth n)
  have hlhi := BitVec.toInt_lt (x := lhs.setWidth n)
  have hrlo := BitVec.le_toInt (rhs.setWidth n)
  have hrhi := BitVec.toInt_lt (x := rhs.setWidth n)
  rw [signExtendBits_wide lhs hpos (by omega), signExtendBits_wide rhs hpos (by omega), htwo,
    ← BitVec.ofInt_mul, ← BitVec.ofInt_mul]
  generalize (lhs.setWidth n).toInt = l at *
  generalize (rhs.setWidth n).toInt = r at *
  have habs : |l * r| ≤ 2 ^ 31 * 2 ^ 31 := by
    rw [abs_mul]
    exact mul_le_mul (abs_le.2 ⟨by omega, by omega⟩) (abs_le.2 ⟨by omega, by omega⟩)
      (abs_nonneg r) (by norm_num)
  obtain ⟨hlo, hhi⟩ := abs_le.1 habs
  exact ⟨rfl, by linarith, by linarith⟩

theorem sqdmulhResult_saturates {n : ℕ} (hn : n = 16 ∨ n = 32) (lhs rhs : U64) (round : Bool) :
    A64.SignedSaturates n
      ((2 * (lhs.setWidth n).toInt * (rhs.setWidth n).toInt + A64.roundingTerm round n) / 2 ^ n)
      (sqdmulhResult lhs rhs n round) := by
  obtain ⟨hproduct, hlo, hhi⟩ := product_wide lhs rhs (n := n) (by omega) (by omega)
  obtain ⟨hround, hround'⟩ := roundingTerm_bounds round (show n ≤ 64 by omega)
  rw [sqdmulhResult, hproduct, if_pos hn]
  generalize 2 * (lhs.setWidth n).toInt * (rhs.setWidth n).toInt = x at *
  have hbody : roundShiftRightSignedWide (BitVec.ofInt 128 x) n round =
      (BitVec.ofInt 128 (x + A64.roundingTerm round n)).sshiftRight n := by
    rw [← add_roundingTerm]
    rfl
  have hvalue : (roundShiftRightSignedWide (BitVec.ofInt 128 x) n round).toInt =
      (x + A64.roundingTerm round n) / 2 ^ n := by
    rw [hbody, sshiftRight_ofInt n (by omega) (by omega)]
  rw [← hvalue]
  exact saturateSignedValue_saturates _ (by omega) (by omega) (by omega)

theorem sqdmullProductResult_saturates {n : ℕ} (hn : n = 16 ∨ n = 32) (lhs rhs : U64) :
    A64.SignedSaturates (2 * n) (2 * (lhs.setWidth n).toInt * (rhs.setWidth n).toInt)
      (sqdmullProductResult lhs rhs n) := by
  obtain ⟨hproduct, hlo, hhi⟩ := product_wide lhs rhs (n := n) (by omega) (by omega)
  rw [sqdmullProductResult, hproduct, if_pos hn]
  generalize 2 * (lhs.setWidth n).toInt * (rhs.setWidth n).toInt = x at *
  have hvalue : (BitVec.ofInt 128 x).toInt = x := toInt_ofInt_wide (by omega) (by omega)
  nth_rewrite 1 [← hvalue]
  exact saturateSignedValue_saturates _ (by omega) (by omega) (by omega)

/-- The two saturation points of the accumulating forms. -/
structure Accumulates (n : ℕ) (acc product : ℤ) (subtract : Bool) (result : U64 × Bool) : Prop where
  fits : result.1.toNat < 2 ^ n
  value : (result.1.setWidth n).toInt =
    A64.signedSat n (if subtract then acc - A64.signedSat n product
      else acc + A64.signedSat n product)
  saturated : result.2 = true ↔ A64.signedSat n product ≠ product ∨
    A64.signedSat n (if subtract then acc - A64.signedSat n product
      else acc + A64.signedSat n product) ≠
        if subtract then acc - A64.signedSat n product else acc + A64.signedSat n product

theorem sqdmlLongAccumulateResult_accumulates {n : ℕ} (hn : n = 16 ∨ n = 32) (acc lhs rhs : U64)
    (subtract : Bool) :
    Accumulates (2 * n) (acc.setWidth (2 * n)).toInt
      (2 * (lhs.setWidth n).toInt * (rhs.setWidth n).toInt) subtract
      (sqdmlLongAccumulateResult acc lhs rhs n subtract) := by
  obtain ⟨-, hvalue, hsat⟩ := sqdmullProductResult_saturates hn lhs rhs
  obtain ⟨hfits', hvalue', hsat'⟩ := satSignedAddSub_saturates (n := 2 * n) (by omega) (by omega)
    acc (sqdmullProductResult lhs rhs n).1 subtract
  have hbody : sqdmlLongAccumulateResult acc lhs rhs n subtract =
      ((satSignedAddSub acc (sqdmullProductResult lhs rhs n).1 (2 * n) subtract).1,
        (sqdmullProductResult lhs rhs n).2 ||
          (satSignedAddSub acc (sqdmullProductResult lhs rhs n).1 (2 * n) subtract).2) := by
    rw [Nat.mul_comm 2]
    rfl
  rw [hvalue] at hvalue' hsat'
  rw [hbody]
  refine ⟨hfits', hvalue', ?_⟩
  rw [Bool.or_eq_true, hsat, hsat']

/-! ## All of them -/

/-- Saturating arithmetic is clamping of the exact results, for every element size, operand and
shift. -/
theorem saturating_exact :
    (∀ n : ℕ, n = 8 ∨ n = 16 ∨ n = 32 ∨ n = 64 → ∀ lhs rhs subtract,
      A64.UnsignedSaturates n
        (if subtract then (lhs.setWidth n).toNat - (rhs.setWidth n).toNat
          else (lhs.setWidth n).toNat + (rhs.setWidth n).toNat)
        (satUnsignedAddSub lhs rhs n subtract) ∧
      A64.SignedSaturates n
        (if subtract then (lhs.setWidth n).toInt - (rhs.setWidth n).toInt
          else (lhs.setWidth n).toInt + (rhs.setWidth n).toInt)
        (satSignedAddSub lhs rhs n subtract)) ∧
    (∀ dst : ℕ, dst = 8 ∨ dst = 16 ∨ dst = 32 → ∀ shift, 0 < shift → shift ≤ dst →
      ∀ (x : BitVec (2 * dst)) (round : Bool),
      A64.SignedSaturates dst ((x.toInt + A64.roundingTerm round shift) / 2 ^ shift)
        (shiftRightNarrowResult (x.setWidth 64) (2 * dst) dst shift round
          .signedToSignedSaturating) ∧
      A64.UnsignedSaturates dst ((x.toNat + A64.roundingTerm round shift) / 2 ^ shift)
        (shiftRightNarrowResult (x.setWidth 64) (2 * dst) dst shift round
          .unsignedToUnsignedSaturating) ∧
      A64.UnsignedSaturates dst ((x.toInt + A64.roundingTerm round shift) / 2 ^ shift)
        (shiftRightNarrowResult (x.setWidth 64) (2 * dst) dst shift round
          .signedToUnsignedSaturating)) ∧
    (∀ n : ℕ, n = 16 ∨ n = 32 → ∀ lhs rhs : U64,
      (∀ round : Bool, A64.SignedSaturates n
        ((2 * (lhs.setWidth n).toInt * (rhs.setWidth n).toInt +
          A64.roundingTerm round n) / 2 ^ n)
        (sqdmulhResult lhs rhs n round)) ∧
      A64.SignedSaturates (2 * n) (2 * (lhs.setWidth n).toInt * (rhs.setWidth n).toInt)
        (sqdmullProductResult lhs rhs n) ∧
      ∀ acc subtract, Accumulates (2 * n) (acc.setWidth (2 * n)).toInt
        (2 * (lhs.setWidth n).toInt * (rhs.setWidth n).toInt) subtract
        (sqdmlLongAccumulateResult acc lhs rhs n subtract)) := by
  refine ⟨fun n hn lhs rhs subtract => ⟨?_, ?_⟩,
    fun dst hdst shift hpos hle x round => ⟨?_, ?_, ?_⟩,
    fun n hn lhs rhs => ⟨fun round => ?_, ?_, fun acc subtract => ?_⟩⟩
  · exact satUnsignedAddSub_saturates (by omega) lhs rhs subtract
  · exact satSignedAddSub_saturates (by omega) (by omega) lhs rhs subtract
  · exact shiftRightNarrowResult_signed hdst hpos hle x round
  · exact shiftRightNarrowResult_unsigned hdst hpos hle x round
  · exact shiftRightNarrowResult_signed_unsigned hdst hpos hle x round
  · exact sqdmulhResult_saturates hn lhs rhs round
  · exact sqdmullProductResult_saturates hn lhs rhs
  · exact sqdmlLongAccumulateResult_accumulates hn acc lhs rhs subtract

theorem saturating_exact_least :
    A64.SignedSaturates 8 (-2 ^ 7 + -2 ^ 7) (satSignedAddSub 0x80 0x80 8 false) ∧
      A64.SignedSaturates 8 ((-2 ^ 15 + 2 ^ 0) / 2 ^ 1)
        (shiftRightNarrowResult 0x8000 16 8 1 true .signedToSignedSaturating) ∧
      A64.SignedSaturates 32 (2 * -2 ^ 15 * -2 ^ 15) (sqdmullProductResult 0x8000 0x8000 16) :=
  ⟨(saturating_exact.1 8 (.inl rfl) 0x80 0x80 false).2,
    (saturating_exact.2.1 8 (.inl rfl) 1 (by decide) (by decide) 0x8000 true).1,
    (saturating_exact.2.2 16 (.inl rfl) 0x8000 0x8000).2.1⟩

end Aarchvm
