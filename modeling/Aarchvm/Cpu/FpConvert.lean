import Aarchvm.Cpu.DataProcessing

/-!
# Floating-point conversions

The helpers on bit patterns, the narrowing and widening conversions and the conversion from
integers.
Each returns its result and the bits it puts into `fpsr_bits`.
-/
namespace Aarchvm

def kFpsrIoc : U64 := (1 : U64) <<< 0
def kFpsrOfc : U64 := (1 : U64) <<< 2
def kFpsrUfc : U64 := (1 : U64) <<< 3
def kFpsrIxc : U64 := (1 : U64) <<< 4
def kFpsrIdc : U64 := (1 : U64) <<< 7

def kFpcrCtlDn : U32 := (1 : U32) <<< 2
def kFpcrCtlFz : U32 := (1 : U32) <<< 3
def kFpcrCtlAhp : U32 := (1 : U32) <<< 4

def fpcrDefaultNanEnabled (fpcrMode : U32) : Bool := fpcrMode &&& kFpcrCtlDn != 0
def fpcrFlushToZeroEnabled (fpcrMode : U32) : Bool := fpcrMode &&& kFpcrCtlFz != 0
def fpcrAlternativeHalfEnabled (fpcrMode : U32) : Bool := fpcrMode &&& kFpcrCtlAhp != 0

/-- The template argument `UIntT`: two, four or eight bytes. -/
inductive FpType where
  | half
  | single
  | double
  deriving DecidableEq, Repr

@[reducible] def FpType.width : FpType → Nat
  | .half => 16
  | .single => 32
  | .double => 64

def fpSignMaskBits : (t : FpType) → BitVec t.width
  | .half => 0x8000#16
  | .single => 0x80000000#32
  | .double => 0x8000000000000000#64

def fpExpMaskBits : (t : FpType) → BitVec t.width
  | .half => 0x7C00#16
  | .single => 0x7F800000#32
  | .double => 0x7FF0000000000000#64

def fpFracMaskBits : (t : FpType) → BitVec t.width
  | .half => 0x03FF#16
  | .single => 0x007FFFFF#32
  | .double => 0x000FFFFFFFFFFFFF#64

def fpQuietNanBit : (t : FpType) → BitVec t.width
  | .half => 0x0200#16
  | .single => 0x00400000#32
  | .double => 0x0008000000000000#64

def fpFracBitsCount : FpType → Nat
  | .half => 10
  | .single => 23
  | .double => 52

def fpExpBitsCount : FpType → Nat
  | .half => 5
  | .single => 8
  | .double => 11

def fpExpBias : FpType → Int
  | .half => 15
  | .single => 127
  | .double => 1023

def fpIsNanBits (t : FpType) (bits : BitVec t.width) : Bool :=
  bits &&& fpExpMaskBits t == fpExpMaskBits t && bits &&& fpFracMaskBits t != 0

def fpIsSignalingNanBits (t : FpType) (bits : BitVec t.width) : Bool :=
  fpIsNanBits t bits && bits &&& fpQuietNanBit t == 0

def fpDefaultNanBits (t : FpType) : BitVec t.width := fpExpMaskBits t ||| fpQuietNanBit t

def fpZeroBits (t : FpType) (sign : Bool) : BitVec t.width := if sign then fpSignMaskBits t else 0

def fpIsSubnormalBits (t : FpType) (bits : BitVec t.width) : Bool :=
  bits &&& fpExpMaskBits t == 0 && bits &&& fpFracMaskBits t != 0

def fpFlushInputDenormalBits (t : FpType) (bits : BitVec t.width) (fpcrMode : U32)
    (fpsrBits : U64) : BitVec t.width × U64 :=
  if fpcrFlushToZeroEnabled fpcrMode && fpIsSubnormalBits t bits then
    (fpZeroBits t (bits &&& fpSignMaskBits t != 0), fpsrBits ||| kFpsrIdc)
  else (bits, fpsrBits)

def fpFlushOutputDenormalBits (t : FpType) (bits : BitVec t.width) (fpcrMode : U32)
    (fpsrBits : U64) : BitVec t.width × U64 :=
  if fpcrFlushToZeroEnabled fpcrMode && fpIsSubnormalBits t bits then
    (fpZeroBits t (bits &&& fpSignMaskBits t != 0), fpsrBits &&& ~~~kFpsrIxc ||| kFpsrUfc)
  else (bits, fpsrBits)

def fpRoundOverflowToInf (mode : U32) (sign : Bool) : Bool :=
  match (mode &&& 3).toNat with
  | 0 => true
  | 1 => !sign
  | 2 => sign
  | _ => false

/-- `fp_round_shift_right`, with `inexact` as the second component. -/
def fpRoundShiftRight (value : U64) (shift : Nat) (mode : U32) (sign : Bool) : U64 × Bool :=
  if shift = 0 then (value, false)
  else if value = 0 then (0, false)
  else if 128 ≤ shift then
    match (mode &&& 3).toNat with
    | 1 => (if sign then 0 else 1, true)
    | 2 => (if sign then 1 else 0, true)
    | _ => (0, true)
  else
    let quotient := if 64 ≤ shift then 0 else value >>> shift
    let remainder := if 64 ≤ shift then value else value &&& ones shift
    if remainder = 0 then (quotient, false)
    else
      let roundUp :=
        match (mode &&& 3).toNat with
        | 0 =>
          if shift < 64 then
            let half := (1 : U64) <<< (shift - 1)
            half < remainder || remainder == half && quotient &&& 1 != 0
          else false
        | 1 => !sign
        | 2 => sign
        | _ => false
      (if roundUp then quotient + 1 else quotient, true)

/-- The significand with its leading bit at `fracBits`, and its exponent. -/
def normalizedSignificand (fracBits : Nat) (bias : Int) (exp : U32) (frac : U64) : U64 × Int :=
  if exp = 0 then
    let msb := 63 - builtinClz frac
    let normalizeShift := fracBits - msb
    (frac <<< normalizeShift, 1 - bias - normalizeShift)
  else (((1 : U64) <<< fracBits) ||| frac, exp.toNat - bias)

/-- `overflow_result` of `fp64_to_fp32_bits`. -/
def fp32OverflowResult (sign : Bool) (fpcrMode : U32) (fpsrBits : U64) : U32 × U64 :=
  let signBit : U32 := if sign then 0x80000000 else 0
  let toInf := (fpcrMode &&& 3 == 0) || (fpcrMode &&& 3 == 1 && !sign) ||
    (fpcrMode &&& 3 == 2 && sign)
  (signBit ||| (if toInf then 0x7F800000 else 0x7F7FFFFF), fpsrBits ||| (kFpsrOfc ||| kFpsrIxc))

/-- `fp64_to_fp32_bits` after its `overflow_result`. -/
def fp64ToFp32Significand (sign : Bool) (significand : U64) (exponent : Int) (fpcrMode : U32)
    (fpsrBits : U64) : U32 × U64 :=
  let signBit : U32 := if sign then 0x80000000 else 0
  if 127 < exponent then fp32OverflowResult sign fpcrMode fpsrBits
  else if fpcrFlushToZeroEnabled fpcrMode && exponent < -126 then (signBit, fpsrBits ||| kFpsrUfc)
  else if -126 ≤ exponent then
    let (rounded, inexact) := fpRoundShiftRight significand 29 fpcrMode sign
    let (rounded, exponent) :=
      if rounded = (1 : U64) <<< 24 then (rounded >>> 1, exponent + 1) else (rounded, exponent)
    if 127 < exponent then fp32OverflowResult sign fpcrMode fpsrBits
    else
      let fpsrBits := if inexact then fpsrBits ||| kFpsrIxc else fpsrBits
      let resultBits := signBit ||| (BitVec.ofInt 32 (exponent + 127) <<< 23) |||
        (rounded.setWidth 32 &&& 0x007FFFFF)
      fpFlushOutputDenormalBits .single resultBits fpcrMode fpsrBits
  else
    let subShift := 29 + (-126 - exponent).toNat
    let (rounded, inexact) := fpRoundShiftRight significand subShift fpcrMode sign
    let fpsrBits := if inexact then fpsrBits ||| (kFpsrUfc ||| kFpsrIxc) else fpsrBits
    if (1 : U64) <<< 23 ≤ rounded then (signBit ||| 0x00800000, fpsrBits)
    else fpFlushOutputDenormalBits .single (signBit ||| rounded.setWidth 32) fpcrMode fpsrBits

/-- `fp64_to_fp32_bits`. -/
def fp64ToFp32Bits (bits : U64) (fpcrMode : U32) : U32 × U64 :=
  let sign := bits >>> 63 != 0
  let signBit : U32 := if sign then 0x80000000 else 0
  let exp : U32 := (bits >>> 52 &&& 0x7FF).setWidth 32
  let frac := bits &&& 0x000FFFFFFFFFFFFF
  if exp = 0x7FF then
    if frac = 0 then (signBit ||| 0x7F800000, 0)
    else
      let fpsrBits := if fpIsSignalingNanBits .double bits then kFpsrIoc else 0
      if fpcrDefaultNanEnabled fpcrMode then (fpDefaultNanBits .single, fpsrBits)
      else
        let payload : U32 := (frac >>> 29).setWidth 32 ||| 0x00400000
        let payload := if payload &&& 0x003FFFFF = 0 then payload ||| 1 else payload
        (signBit ||| 0x7F800000 ||| (payload &&& 0x007FFFFF), fpsrBits)
  else
    let (bits, fpsrBits) := fpFlushInputDenormalBits .double bits fpcrMode 0
    let sign := bits >>> 63 != 0
    let signBit : U32 := if sign then 0x80000000 else 0
    let exp : U32 := (bits >>> 52 &&& 0x7FF).setWidth 32
    let frac := bits &&& 0x000FFFFFFFFFFFFF
    if exp = 0 ∧ frac = 0 then (signBit, fpsrBits)
    else
      let (significand, exponent) := normalizedSignificand 52 1023 exp frac
      fp64ToFp32Significand sign significand exponent fpcrMode fpsrBits

/-- `round_shift_right_odd` of `fp64_to_fp32_bits_round_to_odd`. -/
def roundShiftRightOdd (value : U64) (shift : Nat) : U64 × Bool :=
  let quotient := if 64 ≤ shift then 0 else value >>> shift
  let remainder := if 64 ≤ shift then value else value &&& ones shift
  let inexact := remainder != 0
  (if inexact && quotient &&& 1 == 0 then quotient + 1 else quotient, inexact)

/-- `overflow_result` of `fp64_to_fp32_bits_round_to_odd`. -/
def fp32OddOverflowResult (sign : Bool) (fpsrBits : U64) : U32 × U64 :=
  let signBit : U32 := if sign then 0x80000000 else 0
  (signBit ||| 0x7F7FFFFF, fpsrBits ||| (kFpsrOfc ||| kFpsrIxc))

/-- `fp64_to_fp32_bits_round_to_odd` after its lambdas. -/
def fp64ToFp32SignificandRoundToOdd (sign : Bool) (significand : U64) (exponent : Int)
    (fpcrMode : U32) (fpsrBits : U64) : U32 × U64 :=
  let signBit : U32 := if sign then 0x80000000 else 0
  if 127 < exponent then fp32OddOverflowResult sign fpsrBits
  else if fpcrFlushToZeroEnabled fpcrMode && exponent < -126 then (signBit, fpsrBits ||| kFpsrUfc)
  else if -126 ≤ exponent then
    let (rounded, inexact) := roundShiftRightOdd significand 29
    let (rounded, exponent) :=
      if rounded = (1 : U64) <<< 24 then (rounded >>> 1, exponent + 1) else (rounded, exponent)
    if 127 < exponent then fp32OddOverflowResult sign fpsrBits
    else
      let fpsrBits := if inexact then fpsrBits ||| kFpsrIxc else fpsrBits
      let resultBits := signBit ||| (BitVec.ofInt 32 (exponent + 127) <<< 23) |||
        (rounded.setWidth 32 &&& 0x007FFFFF)
      fpFlushOutputDenormalBits .single resultBits fpcrMode fpsrBits
  else
    let subShift := 29 + (-126 - exponent).toNat
    let (rounded, inexact) := roundShiftRightOdd significand subShift
    let fpsrBits := if inexact then fpsrBits ||| (kFpsrUfc ||| kFpsrIxc) else fpsrBits
    fpFlushOutputDenormalBits .single (signBit ||| rounded.setWidth 32) fpcrMode fpsrBits

/-- `fp64_to_fp32_bits_round_to_odd`. -/
def fp64ToFp32BitsRoundToOdd (bits : U64) (fpcrMode : U32) : U32 × U64 :=
  let sign := bits >>> 63 != 0
  let signBit : U32 := if sign then 0x80000000 else 0
  let exp : U32 := (bits >>> 52 &&& 0x7FF).setWidth 32
  let frac := bits &&& 0x000FFFFFFFFFFFFF
  if exp = 0x7FF then
    if frac = 0 then (signBit ||| 0x7F800000, 0)
    else
      let fpsrBits := if fpIsSignalingNanBits .double bits then kFpsrIoc else 0
      if fpcrDefaultNanEnabled fpcrMode then (fpDefaultNanBits .single, fpsrBits)
      else
        let payload : U32 := (frac >>> 29).setWidth 32 ||| 0x00400000
        let payload := if payload &&& 0x003FFFFF = 0 then payload ||| 1 else payload
        (signBit ||| 0x7F800000 ||| (payload &&& 0x007FFFFF), fpsrBits)
  else
    let (bits, fpsrBits) := fpFlushInputDenormalBits .double bits fpcrMode 0
    let sign := bits >>> 63 != 0
    let signBit : U32 := if sign then 0x80000000 else 0
    let exp : U32 := (bits >>> 52 &&& 0x7FF).setWidth 32
    let frac := bits &&& 0x000FFFFFFFFFFFFF
    if exp = 0 ∧ frac = 0 then (signBit, fpsrBits)
    else
      let (significand, exponent) := normalizedSignificand 52 1023 exp frac
      fp64ToFp32SignificandRoundToOdd sign significand exponent fpcrMode fpsrBits

/-- `overflow_result` of `fp_to_fp16_bits`. -/
def fp16OverflowResult (sign : Bool) (fpcrMode : U32) (fpsrBits : U64) : U16 × U64 :=
  let signBit : U16 := if sign then 0x8000 else 0
  if fpcrAlternativeHalfEnabled fpcrMode then (signBit ||| 0x7FFF, fpsrBits ||| kFpsrIoc)
  else
    (signBit ||| (if fpRoundOverflowToInf fpcrMode sign then 0x7C00 else 0x7BFF),
      fpsrBits ||| (kFpsrOfc ||| kFpsrIxc))

/-- `fp_to_fp16_bits` after its `overflow_result`. -/
def fpToFp16Significand (srcFracBits : Nat) (sign : Bool) (significand : U64) (exponent : Int)
    (fpcrMode : U32) (fpsrBits : U64) : U16 × U64 :=
  let altHp := fpcrAlternativeHalfEnabled fpcrMode
  let signBit : U16 := if sign then 0x8000 else 0
  let halfMaxExp : Int := if altHp then 16 else 15
  if halfMaxExp < exponent then fp16OverflowResult sign fpcrMode fpsrBits
  else
    let roundShift := srcFracBits - 10
    if -14 ≤ exponent then
      let (rounded, inexact) := fpRoundShiftRight significand roundShift fpcrMode sign
      let (rounded, exponent) :=
        if rounded = (1 : U64) <<< 11 then (rounded >>> 1, exponent + 1) else (rounded, exponent)
      if halfMaxExp < exponent then fp16OverflowResult sign fpcrMode fpsrBits
      else
        let fpsrBits := if inexact then fpsrBits ||| kFpsrIxc else fpsrBits
        (signBit ||| (BitVec.ofInt 16 (exponent + 15) <<< 10) ||| (rounded &&& 0x03FF).setWidth 16,
          fpsrBits)
    else
      let subShift := roundShift + (-14 - exponent).toNat
      let (rounded, inexact) := fpRoundShiftRight significand subShift fpcrMode sign
      let fpsrBits := if inexact then fpsrBits ||| (kFpsrUfc ||| kFpsrIxc) else fpsrBits
      if (1 : U64) <<< 10 ≤ rounded then (signBit ||| 0x0400, fpsrBits)
      else (signBit ||| rounded.setWidth 16, fpsrBits)

/-- `fp_to_fp16_bits`; its `static_assert` keeps `half` out. -/
def fpToFp16Bits (src : FpType) (bits : BitVec src.width) (fpcrMode : U32) : U16 × U64 :=
  let altHp := fpcrAlternativeHalfEnabled fpcrMode
  let sign := bits &&& fpSignMaskBits src != 0
  let signBit : U16 := if sign then 0x8000 else 0
  let srcFracBits := fpFracBitsCount src
  let exp : U32 := ((bits &&& fpExpMaskBits src) >>> srcFracBits).setWidth 32
  let frac := bits &&& fpFracMaskBits src
  if exp = ((1 : U32) <<< fpExpBitsCount src) - 1 then
    if frac = 0 then
      if altHp then (signBit ||| 0x7FFF, kFpsrIoc) else (signBit ||| 0x7C00, 0)
    else if altHp then (signBit, kFpsrIoc)
    else
      let fpsrBits := if fpIsSignalingNanBits src bits then kFpsrIoc else 0
      if fpcrDefaultNanEnabled fpcrMode then (fpDefaultNanBits .half, fpsrBits)
      else
        let payload : U16 := (frac >>> (srcFracBits - 10)).setWidth 16 ||| 0x0200
        let payload := if payload &&& 0x03FF = 0x0200 then payload ||| 1 else payload
        (signBit ||| 0x7C00 ||| (payload &&& 0x03FF), fpsrBits)
  else
    let (bits, fpsrBits) := fpFlushInputDenormalBits src bits fpcrMode 0
    let sign := bits &&& fpSignMaskBits src != 0
    let signBit : U16 := if sign then 0x8000 else 0
    let exp : U32 := ((bits &&& fpExpMaskBits src) >>> srcFracBits).setWidth 32
    let frac := bits &&& fpFracMaskBits src
    if exp = 0 ∧ frac = 0 then (signBit, fpsrBits)
    else
      let (significand, exponent) :=
        normalizedSignificand srcFracBits (fpExpBias src) exp (frac.setWidth 64)
      fpToFp16Significand srcFracBits sign significand exponent fpcrMode fpsrBits

/-- The host's conversion of a nonzero finite float to a double, which is exact. -/
def floatToDouble (bits : U32) : U64 :=
  let signBit : U64 := if bits >>> 31 != 0 then 0x8000000000000000 else 0
  let (significand, exponent) := normalizedSignificand 23 127 (bits >>> 23 &&& 0xFF)
    ((bits &&& 0x007FFFFF).setWidth 64)
  signBit ||| (BitVec.ofInt 64 (exponent + 1023) <<< 52) |||
    ((significand <<< 29) &&& 0x000FFFFFFFFFFFFF)

/-- `fp32_to_fp64_bits`. -/
def fp32ToFp64Bits (bits : U32) (fpcrMode : U32) : U64 × U64 :=
  let sign := bits >>> 31 != 0
  let signBit : U64 := if sign then 0x8000000000000000 else 0
  let exp := bits >>> 23 &&& 0xFF
  let frac := bits &&& 0x007FFFFF
  if exp = 0xFF then
    if frac = 0 then (signBit ||| 0x7FF0000000000000, 0)
    else
      let fpsrBits := if fpIsSignalingNanBits .single bits then kFpsrIoc else 0
      if fpcrDefaultNanEnabled fpcrMode then (fpDefaultNanBits .double, fpsrBits)
      else
        let payload : U64 := frac.setWidth 64 <<< 29 ||| 0x0008000000000000
        (signBit ||| 0x7FF0000000000000 ||| (payload &&& 0x000FFFFFFFFFFFFF), fpsrBits)
  else
    let (bits, fpsrBits) := fpFlushInputDenormalBits .single bits fpcrMode 0
    let sign := bits >>> 31 != 0
    let signBit : U64 := if sign then 0x8000000000000000 else 0
    let exp := bits >>> 23 &&& 0xFF
    let frac := bits &&& 0x007FFFFF
    if exp = 0 ∧ frac = 0 then (signBit, fpsrBits) else (floatToDouble bits, fpsrBits)

/-- The loop of `fp16_to_fp_bits`, which ends with bit 10 set. -/
def normalizeHalf : Nat → U32 → Int → U32 × Int
  | 0, normalizedFrac, exponent => (normalizedFrac, exponent)
  | fuel + 1, normalizedFrac, exponent =>
    if normalizedFrac &&& 0x400 = 0 then normalizeHalf fuel (normalizedFrac <<< 1) (exponent - 1)
    else (normalizedFrac, exponent)

/-- `fp16_to_fp_bits`; its `static_assert` keeps `half` out. -/
def fp16ToFpBits (dst : FpType) (bits : U16) (fpcrMode : U32) : BitVec dst.width × U64 :=
  let altHp := fpcrAlternativeHalfEnabled fpcrMode
  let sign := bits &&& 0x8000 != 0
  let signBit := if sign then fpSignMaskBits dst else 0
  let exp : U32 := ((bits &&& 0x7C00) >>> 10).setWidth 32
  let frac : U32 := (bits &&& 0x03FF).setWidth 32
  if exp = 31 ∧ altHp = false then
    if frac = 0 then (signBit ||| fpExpMaskBits dst, 0)
    else
      let signalingNan := bits &&& 0x0200 == 0
      let fpsrBits := if signalingNan then kFpsrIoc else 0
      if fpcrDefaultNanEnabled fpcrMode then (fpDefaultNanBits dst, fpsrBits)
      else
        let payload := frac.setWidth dst.width <<< (fpFracBitsCount dst - 10) ||| fpQuietNanBit dst
        let payload := if payload &&& (fpQuietNanBit dst - 1) = 0 then payload ||| 1 else payload
        (signBit ||| fpExpMaskBits dst ||| (payload &&& fpFracMaskBits dst), fpsrBits)
  else if exp = 0 ∧ frac = 0 then (signBit, 0)
  else
    let (normalizedFrac, exponent) :=
      if exp = 0 then
        let (normalizedFrac, exponent) := normalizeHalf 10 frac (-14)
        (normalizedFrac &&& 0x03FF, exponent)
      else (frac, if altHp && exp == 31 then 16 else (exp.toNat : Int) - 15)
    (signBit ||| (BitVec.ofInt dst.width (exponent + fpExpBias dst) <<< fpFracBitsCount dst) |||
      (normalizedFrac.setWidth dst.width <<< (fpFracBitsCount dst - 10)), 0)

/-- `fp_int_to_fp_bits` of an integer type of `w` bits; its `static_assert` keeps `half` out. -/
def fpIntToFpBits (dst : FpType) {w : Nat} (isSigned : Bool) (value : BitVec w) (fpcrMode : U32) :
    BitVec dst.width × U64 :=
  let fracBits := fpFracBitsCount dst
  let expBias := fpExpBias dst
  let sign := isSigned && value.msb
  let signBit := if sign then fpSignMaskBits dst else 0
  let magnitude := if sign then -(value + 1) + 1 else value
  if magnitude = 0 then (0, 0)
  else
    let leading := 63 - builtinClz (magnitude.setWidth 64)
    let exponent : Int := leading
    if leading ≤ fracBits then
      let significand : BitVec dst.width :=
        (magnitude.setWidth 64 <<< (fracBits - leading)).setWidth dst.width
      (signBit ||| (BitVec.ofInt dst.width (exponent + expBias) <<< fracBits) |||
        (significand &&& fpFracMaskBits dst), 0)
    else
      let (rounded, inexact) :=
        fpRoundShiftRight (magnitude.setWidth 64) (leading - fracBits) fpcrMode sign
      let (rounded, roundedExponent) :=
        if rounded = (1 : U64) <<< (fracBits + 1) then (rounded >>> 1, exponent + 1)
        else (rounded, exponent)
      let fpsrBits := if inexact then kFpsrIxc else 0
      (signBit ||| (BitVec.ofInt dst.width (roundedExponent + expBias) <<< fracBits) |||
        (rounded.setWidth dst.width &&& fpFracMaskBits dst), fpsrBits)

end Aarchvm
