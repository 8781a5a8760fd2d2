import Aarchvm.Cpu.BigUInt
import Aarchvm.Cpu.FpConvert

/-!
# Tininess before rounding

The predicates compare exact magnitudes. Their last argument and second result is
`*negative_result`, which they write on the paths to a comparison.
-/
namespace Aarchvm

open BigUInt

structure ExactFpValue where
  finite : Bool
  zero : Bool
  negative : Bool
  magnitude : BigUInt
  exp2 : Int

def fpExactValueBits (t : FpType) (bits : BitVec t.width) : Option ExactFpValue :=
  let negative := bits &&& fpSignMaskBits t != 0
  let exp : U32 := ((bits &&& fpExpMaskBits t) >>> fpFracBitsCount t).setWidth 32
  let frac := bits &&& fpFracMaskBits t
  if exp = ((1 : U32) <<< fpExpBitsCount t) - 1 then some ⟨false, true, negative, [], 0⟩
  else if exp = 0 then
    if frac = 0 then some ⟨true, true, negative, [], 0⟩
    else
      some ⟨true, false, negative, ofU64 (frac.setWidth 64),
        1 - fpExpBias t - fpFracBitsCount t⟩
  else do
    let implicit ← shiftLeft (ofU64 1) (BitVec.ofNat 32 (fpFracBitsCount t))
    let magnitude ← add implicit (ofU64 (frac.setWidth 64))
    some ⟨true, false, negative, magnitude, exp.toNat - fpExpBias t - fpFracBitsCount t⟩

def exactScalePow2 (value : BigUInt) (shift : U32) : Option BigUInt := shiftLeft value shift

def exactAbsLtPowerOfTwo (magnitude : BigUInt) (exp2 thresholdExp2 : Int) : Option Bool :=
  if isZero magnitude then some false
  else if thresholdExp2 ≤ exp2 then some false
  else do
    let index ← msbIndex magnitude
    some (index < BitVec.ofInt 32 (thresholdExp2 - exp2))

/-- The comparison with the least normal number, once the sign is known. -/
def exactTiny (t : FpType) (magnitude : BigUInt) (exp2 : Int) (negativeResult : Bool) :
    Option (Bool × Bool) := do
  let tiny ← exactAbsLtPowerOfTwo magnitude exp2 (1 - fpExpBias t)
  some (tiny, negativeResult)

def fpExactTinySumTerms (t : FpType) (lhsNegative : Bool) (lhsMagnitude : BigUInt) (lhsExp2 : Int)
    (rhsNegative : Bool) (rhsMagnitude : BigUInt) (rhsExp2 : Int) (negativeResult : Bool) :
    Option (Bool × Bool) := do
  let commonExp2 := min lhsExp2 rhsExp2
  let lhs ← exactScalePow2 lhsMagnitude (BitVec.ofInt 32 (lhsExp2 - commonExp2))
  let rhs ← exactScalePow2 rhsMagnitude (BitVec.ofInt 32 (rhsExp2 - commonExp2))
  if lhsNegative = rhsNegative then
    let magnitude ← add lhs rhs
    exactTiny t magnitude commonExp2 lhsNegative
  else
    let cmp ← compare lhs rhs
    if cmp = 0 then some (false, negativeResult)
    else if 0 < cmp then
      let magnitude ← sub lhs rhs
      exactTiny t magnitude commonExp2 lhsNegative
    else
      let magnitude ← sub rhs lhs
      exactTiny t magnitude commonExp2 rhsNegative

def fpAddSubTinyBeforeRound (t : FpType) (lhsBits rhsBits : BitVec t.width) (subtractRhs : Bool)
    (negativeResult : Bool) : Option (Bool × Bool) := do
  let lhs ← fpExactValueBits t lhsBits
  let rhs ← fpExactValueBits t rhsBits
  if !lhs.finite || !rhs.finite || lhs.zero && rhs.zero then some (false, negativeResult)
  else
    fpExactTinySumTerms t lhs.negative lhs.magnitude lhs.exp2
      (if subtractRhs then !rhs.negative else rhs.negative) rhs.magnitude rhs.exp2 negativeResult

def fpMulTinyBeforeRound (t : FpType) (lhsBits rhsBits : BitVec t.width) (negativeResult : Bool) :
    Option (Bool × Bool) := do
  let lhs ← fpExactValueBits t lhsBits
  let rhs ← fpExactValueBits t rhsBits
  if !lhs.finite || !rhs.finite || lhs.zero || rhs.zero then some (false, negativeResult)
  else
    let product ← mul lhs.magnitude rhs.magnitude
    exactTiny t product (lhs.exp2 + rhs.exp2) (lhs.negative != rhs.negative)

def fpDivTinyBeforeRound (t : FpType) (lhsBits rhsBits : BitVec t.width) (negativeResult : Bool) :
    Option (Bool × Bool) := do
  let lhs ← fpExactValueBits t lhsBits
  let rhs ← fpExactValueBits t rhsBits
  if !lhs.finite || !rhs.finite || lhs.zero || rhs.zero then some (false, negativeResult)
  else
    let negativeResult := lhs.negative != rhs.negative
    let delta := lhs.exp2 - rhs.exp2 - (1 - fpExpBias t)
    if 0 ≤ delta then
      let scaled ← exactScalePow2 lhs.magnitude (BitVec.ofInt 32 delta)
      let cmp ← compare scaled rhs.magnitude
      some (cmp < 0, negativeResult)
    else
      let scaled ← exactScalePow2 rhs.magnitude (BitVec.ofInt 32 (-delta))
      let cmp ← compare lhs.magnitude scaled
      some (cmp < 0, negativeResult)

def fpFmaTinyBeforeRound (t : FpType) (lhsBits rhsBits addendBits : BitVec t.width)
    (negativeResult : Bool) : Option (Bool × Bool) := do
  let lhs ← fpExactValueBits t lhsBits
  let rhs ← fpExactValueBits t rhsBits
  let addend ← fpExactValueBits t addendBits
  if !lhs.finite || !rhs.finite || !addend.finite then some (false, negativeResult)
  else if lhs.zero || rhs.zero then
    if addend.zero then some (false, negativeResult)
    else exactTiny t addend.magnitude addend.exp2 addend.negative
  else
    let product ← mul lhs.magnitude rhs.magnitude
    if addend.zero then
      exactTiny t product (lhs.exp2 + rhs.exp2) (lhs.negative != rhs.negative)
    else
      fpExactTinySumTerms t (lhs.negative != rhs.negative) product (lhs.exp2 + rhs.exp2)
        addend.negative addend.magnitude addend.exp2 negativeResult

def fpSqrtTinyBeforeRound (t : FpType) (bits : BitVec t.width) : Option Bool := do
  let value ← fpExactValueBits t bits
  if !value.finite || value.zero || value.negative then some false
  else exactAbsLtPowerOfTwo value.magnitude value.exp2 (2 * (1 - fpExpBias t))

end Aarchvm
