import Aarchvm.Lib.CountedLoop
import Aarchvm.Lib.Positional
import Aarchvm.Word
import Mathlib.Data.List.DropRight

/-!
# Big natural numbers

`BigUInt` is a vector of 32-bit limbs, the least significant one first. An operation that leaves
a vector has no result.
-/
namespace Aarchvm

open Lib

/-- `BigUInt::limbs_`. -/
abbrev BigUInt := List U32

namespace BigUInt

/-- `limbs[i] = limb`. -/
def store (limbs : BigUInt) (i : ℕ) (limb : U32) : Option BigUInt :=
  if i < limbs.length then some (limbs.set i limb) else none

/-- `i < limbs.size() ? limbs[i] : 0u`. -/
def limbOrZero (limbs : BigUInt) (i : ℕ) : U64 := (limbs.getD i 0).setWidth 64

def normalize (limbs : BigUInt) : BigUInt := limbs.rdropWhile (· == 0)

/-- The constructor from a word. -/
def ofU64 (value : U64) : BigUInt :=
  if value = 0 then []
  else
    let high := (value >>> 32).setWidth 32
    value.setWidth 32 :: if high = 0 then [] else [high]

def isZero (limbs : BigUInt) : Bool := limbs.isEmpty

/-- The position of the top bit as an `unsigned`. -/
def msbIndex (limbs : BigUInt) : Option U32 := do
  let limb ← limbs.getLast?
  some (BitVec.ofNat 32 ((limbs.length - 1) * 32 + (31 - limb.clz).toNat))

/-- The loop of `shift_left` by whole limbs. -/
def moveLimb (limbs : BigUInt) (limbShift i : ℕ) (shifted : BigUInt) : Option BigUInt := do
  let limb ← limbs[i]?
  store shifted (i + limbShift) limb

/-- The loop of `shift_left` with the limbs moved, the carry and `out`. -/
def shiftCarry (limbs : BigUInt) (bitShift : ℕ) (i : ℕ) :
    BigUInt × U32 × ℕ → Option (BigUInt × U32 × ℕ)
  | (shifted, carry, out) => do
    let limb ← limbs[i]?
    let wide : U64 := (limb.setWidth 64 <<< bitShift) ||| carry.setWidth 64
    let shifted ← store shifted out (wide.setWidth 32)
    some (shifted, (wide >>> 32).setWidth 32, out + 1)

def shiftLeft (limbs : BigUInt) (shift : U32) : Option BigUInt :=
  if isZero limbs ∨ shift = 0 then some limbs
  else
    let limbShift := shift.toNat / 32
    let bitShift := shift.toNat % 32
    let shifted := List.replicate (limbs.length + limbShift + if bitShift ≠ 0 then 1 else 0) 0
    if bitShift = 0 then
      countedLoop limbs.length shifted (moveLimb limbs limbShift)
    else do
      let (shifted, carry, out) ←
        countedLoop limbs.length (shifted, 0, limbShift) (shiftCarry limbs bitShift)
      let shifted ← if carry ≠ 0 then store shifted out carry else some shifted
      some (normalize shifted)

/-- The loop of `compare` over the limbs below `i`. -/
def compareBelow (lhs rhs : BigUInt) : ℕ → Option ℤ
  | 0 => some 0
  | i + 1 => do
    let lhsLimb ← lhs[i]?
    let rhsLimb ← rhs[i]?
    if lhsLimb ≠ rhsLimb then some (if lhsLimb < rhsLimb then -1 else 1)
    else compareBelow lhs rhs i

def compare (lhs rhs : BigUInt) : Option ℤ :=
  if lhs.length ≠ rhs.length then some (if lhs.length < rhs.length then -1 else 1)
  else compareBelow lhs rhs lhs.length

def addStep (lhs rhs : BigUInt) (i : ℕ) : BigUInt × U64 → Option (BigUInt × U64)
  | (sum, carry) => do
    let wide := limbOrZero lhs i + limbOrZero rhs i + carry
    let sum ← store sum i (wide.setWidth 32)
    some (sum, wide >>> 32)

/-- `operator+`. -/
def add (lhs rhs : BigUInt) : Option BigUInt := do
  let count := max lhs.length rhs.length
  let (sum, carry) ← countedLoop count (List.replicate (count + 1) 0, 0) (addStep lhs rhs)
  let sum ← store sum count (carry.setWidth 32)
  some (normalize sum)

def subStep (lhs rhs : BigUInt) (i : ℕ) : BigUInt × U64 → Option (BigUInt × U64)
  | (diff, borrow) => do
    let limb ← lhs[i]?
    let lhsLimb := limb.setWidth 64
    let subtrahend := limbOrZero rhs i + borrow
    let diff ← store diff i ((lhsLimb - subtrahend).setWidth 32)
    some (diff, if lhsLimb < subtrahend then 1 else 0)

/-- `operator-`. -/
def sub (lhs rhs : BigUInt) : Option BigUInt := do
  let (diff, _) ← countedLoop lhs.length (List.replicate lhs.length 0, 0) (subStep lhs rhs)
  some (normalize diff)

/-- The inner loop of `operator*`, with `limb` the limb `i` of the left factor. -/
def mulStep (limb : U32) (rhs : BigUInt) (i j : ℕ) : BigUInt × U64 → Option (BigUInt × U64)
  | (product, carry) => do
    let rhsLimb ← rhs[j]?
    let low ← product[i + j]?
    let wide := limb.setWidth 64 * rhsLimb.setWidth 64 + low.setWidth 64 + carry
    let product ← store product (i + j) (wide.setWidth 32)
    some (product, wide >>> 32)

/-- The `while` loop of `operator*`. -/
def carryInto (product : BigUInt) (k : ℕ) (carry : U64) : Option BigUInt :=
  if carry = 0 then some product
  else if h : k < product.length then
    let wide := product[k].setWidth 64 + carry
    carryInto (product.set k (wide.setWidth 32)) (k + 1) (wide >>> 32)
  else none
termination_by product.length - k
decreasing_by
  rw [List.length_set]
  omega

/-- The outer loop of `operator*`. -/
def mulRow (lhs rhs : BigUInt) (i : ℕ) (product : BigUInt) : Option BigUInt := do
  let limb ← lhs[i]?
  let (product, carry) ← countedLoop rhs.length (product, 0) (mulStep limb rhs i)
  carryInto product (i + rhs.length) carry

/-- `operator*`. -/
def mul (lhs rhs : BigUInt) : Option BigUInt :=
  if isZero lhs ∨ isZero rhs then some []
  else do
    let product ← countedLoop lhs.length (List.replicate (lhs.length + rhs.length) 0)
      (mulRow lhs rhs)
    some (normalize product)

/-! ## The number -/

def limbAt (limbs : BigUInt) (i : ℕ) : ℕ := (limbs.getD i 0).toNat

/-- The number that the limbs represent. -/
def value (limbs : BigUInt) : ℕ := positional (2 ^ 32) (limbAt limbs) limbs.length

/-- No leading zero limb; zero has no limbs. -/
def Normalised (limbs : BigUInt) : Prop := limbs.getLast? ≠ some 0

/-- The operation stays within its vectors, and its result is `n`. -/
def Computes (result : Option BigUInt) (n : ℕ) : Prop :=
  ∃ limbs, result = some limbs ∧ Normalised limbs ∧ value limbs = n

/-- The values that the class can build. -/
inductive Built : BigUInt → Prop
  | zero : Built []
  | ofU64 (v : U64) : Built (ofU64 v)
  | shiftLeft {a c : BigUInt} (shift : U32) : Built a → shiftLeft a shift = some c → Built c
  | add {a b c : BigUInt} : Built a → Built b → add a b = some c → Built c
  | sub {a b c : BigUInt} : Built a → Built b → sub a b = some c → Built c
  | mul {a b c : BigUInt} : Built a → Built b → mul a b = some c → Built c

end BigUInt
end Aarchvm
