import Aarchvm.Lib.AddWithCarry
import Aarchvm.Lib.Pattern
import Aarchvm.Word
import Mathlib.Data.BitVec
import Mathlib.Data.Nat.Size

/-!
# Integer instructions of A64

The pseudocode of the integer data-processing classes, in any operand width: what an
instruction reads, and what it writes. `none` is an unallocated encoding.
-/
namespace Aarchvm.A64

open Lib

/-- The general registers, the current stack pointer and the condition flags. -/
structure View where
  r : Nat → U64
  sp : U64
  flags : Flags

/-- `X[n, w]`. -/
def View.x (v : View) (w n : Nat) : BitVec w := if n = 31 then 0 else (v.r n).setWidth w

/-- `X[n, w]` where register 31 is the stack pointer. -/
def View.xSp (v : View) (w n : Nat) : BitVec w := (if n = 31 then v.sp else v.r n).setWidth w

/-- Where a result goes; `X[31]` takes no value. -/
inductive Dest where
  | x (d : Nat)
  | sp
  deriving DecidableEq, Repr

/-- What an instruction writes. -/
structure Effect where
  result : Option (Dest × U64)
  flags : Option Flags
  deriving DecidableEq, Repr

/-- `X[d, w] = value`. -/
def Effect.toX {w : Nat} (d : Nat) (value : BitVec w) (flags : Option Flags) : Effect :=
  ⟨some (.x d, value.setWidth 64), flags⟩

/-- `X[d, w] = value` where register 31 is the stack pointer. -/
def Effect.toXSp {w : Nat} (d : Nat) (value : BitVec w) : Effect :=
  ⟨some (if d = 31 then .sp else .x d, value.setWidth 64), none⟩

/-- The operand width of the field `sf`. -/
def width (insn : U32) : Nat := if insn.getLsbD 31 then 64 else 32

/-! ## Shared pseudocode -/

/-- `ConditionHolds`. -/
def conditionHolds (f : Flags) (cond : Nat) : Bool :=
  let result := match cond / 2 with
    | 0 => f.z
    | 1 => f.c
    | 2 => f.n
    | 3 => f.v
    | 4 => f.c && !f.z
    | 5 => f.n == f.v
    | 6 => f.n == f.v && !f.z
    | _ => true
  if cond % 2 = 1 ∧ cond ≠ 15 then !result else result

/-- `ShiftReg`. -/
def shiftReg {w : Nat} (x : BitVec w) (type amount : Nat) : BitVec w :=
  match type with
  | 0 => x <<< amount
  | 1 => x >>> amount
  | 2 => x.sshiftRight amount
  | _ => x.rotateRight amount

/-- `ExtendReg`: the low bits, extended and shifted left. -/
def extendReg {w : Nat} (x : BitVec w) (type shift : Nat) : BitVec w :=
  let len := min (8 <<< (type % 4)) w
  (if type < 4 then (x.setWidth len).setWidth w else (x.setWidth len).signExtend w) <<< shift

/-- The flags of a logical result. -/
def logicFlags {w : Nat} (x : BitVec w) : Flags := ⟨x.msb, x == 0, false, false⟩

/-- `HighestSetBit(immN:NOT(imms))`. -/
def maskLen (immN imms : Nat) : Option Nat :=
  ((List.range 7).filter fun i => (64 * immN + (63 - imms)).testBit i).getLast?

/-- `DecodeBitMasks`; `none` for the reserved encodings, and for an element wider than `w`. -/
def decodeBitMasks (w immN imms immr : Nat) (immediate : Bool) : Option (BitVec w × BitVec w) :=
  match maskLen immN imms with
  | none => none
  | some len =>
    let levels := 2 ^ len - 1
    let s := imms % 2 ^ len
    let r := immr % 2 ^ len
    let d := (s + 2 ^ len - r) % 2 ^ len
    if len = 0 ∨ w < 2 ^ len ∨ immediate ∧ s = levels then none
    else
      let welem := (BitVec.allOnes (s + 1)).setWidth (2 ^ len)
      let telem := (BitVec.allOnes (d + 1)).setWidth (2 ^ len)
      some (((welem.rotateRight r).replicate (w / 2 ^ len)).setWidth w,
        (telem.replicate (w / 2 ^ len)).setWidth w)

/-- `CountLeadingZeroBits`: above the highest set bit. -/
def countLeadingZeroBits {w : Nat} (x : BitVec w) : Nat := w - x.toNat.size

/-- `CountLeadingSignBits`. -/
def countLeadingSignBits {w : Nat} (x : BitVec w) : Nat :=
  countLeadingZeroBits (x.extractLsb' 1 (w - 1) ^^^ x.extractLsb' 0 (w - 1))

/-- The word with the given bits. -/
def ofBits (bit : Nat → Bool) : (w : Nat) → BitVec w
  | 0 => .nil
  | w + 1 => .cons (bit w) (ofBits bit w)

/-- The bytes of each container of `c` bits in reverse order. -/
def reverseBytes {w : Nat} (x : BitVec w) (c : Nat) : BitVec w :=
  ofBits (fun i => x.getLsbD (i / c * c + (c - 8 - i % c / 8 * 8) + i % 8)) w

/-- `Poly32Mod2`: the remainder of a polynomial over `n + 32` bits. -/
def poly32Mod2 (poly : U32) {w : Nat} (data : BitVec w) : Nat → U32
  | 0 => data.setWidth 32
  | n + 1 =>
    poly32Mod2 poly
      (if data.getLsbD (n + 32) then data ^^^ (poly.setWidth w <<< n) else data) n

/-- The body of CRC32 and CRC32C. -/
def crc32 (acc : U32) {size : Nat} (value : BitVec size) (poly : U32) : U32 :=
  let tempacc := acc.reverse.setWidth (size + 32) <<< size
  let tempval := value.reverse.setWidth (size + 32) <<< 32
  (poly32Mod2 poly (tempacc ^^^ tempval) size).reverse

/-! ## Classes

The operand width is a parameter; `width` gives it. -/

section Classes

variable (w : Nat) (insn : U32) (v : View)

/-- A sum or difference, its flags set. -/
def addSubFlags {w : Nat} (sub : Bool) (d : Nat) (x y : BitVec w) : Effect :=
  .toX d (addOrSub sub x y).1 (some (addOrSub sub x y).2)

/-- ADD, SUB, ADDS, SUBS (immediate): `sf op S 10001 shift imm12 Rn Rd`. -/
def addSubImmediate : Option Effect :=
  let x := v.xSp w (bitField insn 5 5)
  let d := bitField insn 0 5
  let imm : Option (BitVec w) := match bitField insn 22 2 with
    | 0 => some (BitVec.ofNat w (bitField insn 10 12))
    | 1 => some (BitVec.ofNat w (bitField insn 10 12) <<< 12)
    | _ => none
  imm.map fun y =>
    if insn.getLsbD 29 then addSubFlags (insn.getLsbD 30) d x y
    else .toXSp d (addOrSub (insn.getLsbD 30) x y).1

/-- ADD, SUB, ADDS, SUBS (shifted register): `sf op S 01011 shift 0 Rm imm6 Rn Rd`. -/
def addSubShifted : Option Effect :=
  let type := bitField insn 22 2
  let amount := bitField insn 10 6
  let d := bitField insn 0 5
  if type = 3 ∨ w ≤ amount then none
  else
    let x := v.x w (bitField insn 5 5)
    let y := shiftReg (v.x w (bitField insn 16 5)) type amount
    some (if insn.getLsbD 29 then addSubFlags (insn.getLsbD 30) d x y
      else .toX d (addOrSub (insn.getLsbD 30) x y).1 none)

/-- ADD, SUB, ADDS, SUBS (extended register): `sf op S 01011 opt 1 Rm option imm3 Rn Rd`. -/
def addSubExtended : Option Effect :=
  let d := bitField insn 0 5
  let shift := bitField insn 10 3
  if bitField insn 22 2 ≠ 0 ∨ 4 < shift then none
  else
    let x := v.xSp w (bitField insn 5 5)
    let y := extendReg (v.x w (bitField insn 16 5)) (bitField insn 13 3) shift
    some (if insn.getLsbD 29 then addSubFlags (insn.getLsbD 30) d x y
      else .toXSp d (addOrSub (insn.getLsbD 30) x y).1)

/-- ADC, ADCS, SBC, SBCS: `sf op S 11010000 Rm 000000 Rn Rd`. -/
def addSubCarry : Option Effect :=
  if bitField insn 10 6 ≠ 0 then none
  else
    let y := v.x w (bitField insn 16 5)
    let sum := addWithCarry (v.x w (bitField insn 5 5))
      (if insn.getLsbD 30 then ~~~y else y) v.flags.c
    some (.toX (bitField insn 0 5) sum.1 (if insn.getLsbD 29 then some sum.2 else none))

/-- MOVN, MOVZ, MOVK: `sf opc 100101 hw imm16 Rd`. -/
def moveWide : Option Effect :=
  let d := bitField insn 0 5
  let pos := 16 * bitField insn 21 2
  let imm := BitVec.ofNat w (bitField insn 5 16) <<< pos
  if w ≤ pos then none
  else
    match bitField insn 29 2 with
    | 0 => some (.toX d (~~~imm) none)
    | 2 => some (.toX d imm none)
    | 3 => some (.toX d ((v.x w d &&& ~~~(BitVec.ofNat w 0xFFFF <<< pos)) ||| imm) none)
    | _ => none

/-- AND, ORR, EOR, ANDS (immediate): `sf opc 100100 N immr imms Rn Rd`. -/
def logicalImmediate : Option Effect :=
  let x := v.x w (bitField insn 5 5)
  let d := bitField insn 0 5
  (decodeBitMasks w (bitField insn 22 1) (bitField insn 10 6) (bitField insn 16 6) true).map
    fun masks => match bitField insn 29 2 with
      | 0 => .toXSp d (x &&& masks.1)
      | 1 => .toXSp d (x ||| masks.1)
      | 2 => .toXSp d (x ^^^ masks.1)
      | _ => .toX d (x &&& masks.1) (some (logicFlags (x &&& masks.1)))

/-- SBFM, BFM, UBFM: `sf opc 100110 N immr imms Rn Rd`. -/
def bitfield : Option Effect :=
  let d := bitField insn 0 5
  let opc := bitField insn 29 2
  let immr := bitField insn 16 6
  let imms := bitField insn 10 6
  if opc = 3 ∨ (bitField insn 22 1 = 1) ≠ (w = 64) ∨ w ≤ immr ∨ w ≤ imms then none
  else
    (decodeBitMasks w (bitField insn 22 1) imms immr false).map fun masks =>
      let dst := if opc = 1 then v.x w d else 0
      let src := v.x w (bitField insn 5 5)
      let bot := (dst &&& ~~~masks.1) ||| (src.rotateRight immr &&& masks.1)
      let top := if opc = 0 then (if src.getLsbD imms then BitVec.allOnes w else 0) else dst
      .toX d ((top &&& ~~~masks.2) ||| (bot &&& masks.2)) none

/-- CSEL, CSINC, CSINV, CSNEG: `sf op S 11010100 Rm cond op2 Rn Rd`. -/
def conditionalSelect : Option Effect :=
  if insn.getLsbD 29 ∨ insn.getLsbD 11 then none
  else
    let y := v.x w (bitField insn 16 5)
    let y := if insn.getLsbD 30 then ~~~y else y
    let y := if insn.getLsbD 10 then y + 1 else y
    some (.toX (bitField insn 0 5)
      (if conditionHolds v.flags (bitField insn 12 4) then v.x w (bitField insn 5 5) else y) none)

/-- The immediate flags of a conditional comparison. -/
def nzcvField : Flags :=
  ⟨insn.getLsbD 3, insn.getLsbD 2, insn.getLsbD 1, insn.getLsbD 0⟩

/-- CCMN, CCMP: `sf op S 11010010 Rm/imm5 cond imm o2 Rn o3 nzcv`. -/
def conditionalCompare : Option Effect :=
  if ¬ insn.getLsbD 29 ∨ insn.getLsbD 10 ∨ insn.getLsbD 4 then none
  else
    let y := if insn.getLsbD 11 then BitVec.ofNat w (bitField insn 16 5)
      else v.x w (bitField insn 16 5)
    some ⟨none, some (if conditionHolds v.flags (bitField insn 12 4) then
      (addOrSub (insn.getLsbD 30) (v.x w (bitField insn 5 5)) y).2 else nzcvField insn)⟩

/-- RBIT, REV16, REV32, REV, CLZ, CLS: `sf 1 S 11010110 opcode2 opcode Rn Rd`. -/
def oneSource : Option Effect :=
  let x := v.x w (bitField insn 5 5)
  let result : Option (BitVec w) := match bitField insn 10 6 with
    | 0 => some x.reverse
    | 1 => some (reverseBytes x 16)
    | 2 => some (reverseBytes x 32)
    | 3 => if w = 64 then some (reverseBytes x 64) else none
    | 4 => some (BitVec.ofNat w (countLeadingZeroBits x))
    | 5 => some (BitVec.ofNat w (countLeadingSignBits x))
    | _ => none
  if insn.getLsbD 29 ∨ bitField insn 16 5 ≠ 0 then none
  else result.map fun y => .toX (bitField insn 0 5) y none

/-- UDIV, SDIV, LSLV, LSRV, ASRV, RORV, CRC32, CRC32C: `sf 0 S 11010110 Rm opcode Rn Rd`. -/
def twoSource : Option Effect :=
  let d := bitField insn 0 5
  let x := v.x w (bitField insn 5 5)
  let m := bitField insn 16 5
  let y := v.x w m
  let opcode := bitField insn 10 6
  if insn.getLsbD 29 then none
  else if opcode = 2 then some (.toX d (x / y) none)
  else if opcode = 3 then some (.toX d (BitVec.ofInt w (x.toInt.tdiv y.toInt)) none)
  else if opcode / 4 = 2 then some (.toX d (shiftReg x (opcode % 4) (y.toNat % w)) none)
  else if opcode / 8 = 2 ∧ (opcode % 4 = 3 ↔ w = 64) then
    let poly : U32 := if opcode / 4 % 2 = 1 then 0x1EDC6F41 else 0x04C11DB7
    some (.toX d (crc32 (v.x 32 (bitField insn 5 5)) (v.x (8 <<< (opcode % 4)) m) poly) none)
  else none

/-- MADD, MSUB, SMADDL, SMSUBL, SMULH, UMADDL, UMSUBL, UMULH:
`sf op54 11011 op31 Rm o0 Ra Rn Rd`. -/
def threeSource : Option Effect :=
  let d := bitField insn 0 5
  let n := bitField insn 5 5
  let m := bitField insn 16 5
  let a := bitField insn 10 5
  let sub := insn.getLsbD 15
  let long (product : Int) : Effect :=
    let sum := if sub then (v.x 64 a).toInt - product else (v.x 64 a).toInt + product
    .toX d (BitVec.ofInt 64 sum) none
  if bitField insn 29 2 ≠ 0 then none
  else
    match bitField insn 21 3 with
    | 0 => some (.toX d (if sub then v.x w a - v.x w n * v.x w m
        else v.x w a + v.x w n * v.x w m) none)
    | 1 => if w = 64 then some (long ((v.x 32 n).toInt * (v.x 32 m).toInt)) else none
    | 2 => if w = 64 ∧ ¬ sub then
        some (.toX d (BitVec.ofInt 64 ((v.x 64 n).toInt * (v.x 64 m).toInt / 2 ^ 64)) none)
      else none
    | 5 => if w = 64 then some (long ((v.x 32 n).toNat * (v.x 32 m).toNat)) else none
    | 6 => if w = 64 ∧ ¬ sub then
        some (.toX d (BitVec.ofNat 64 ((v.x 64 n).toNat * (v.x 64 m).toNat / 2 ^ 64)) none)
      else none
    | _ => none

/-- EXTR: `sf op21 100111 N o0 Rm imms Rn Rd`. -/
def extract : Option Effect :=
  let lsb := bitField insn 10 6
  if bitField insn 29 2 ≠ 0 ∨ insn.getLsbD 21 ∨
      (insn.getLsbD 22 = true) ≠ (w = 64) ∨ w ≤ lsb then none
  else
    some (.toX (bitField insn 0 5)
      ((v.x w (bitField insn 5 5) ++ v.x w (bitField insn 16 5)).extractLsb' lsb w) none)

end Classes

/-! ## Saturation -/

/-- `SignedSat`. -/
def signedSat (n : ℕ) (x : ℤ) : ℤ := max (-2 ^ (n - 1)) (min (2 ^ (n - 1) - 1) x)

/-- `UnsignedSat`. -/
def unsignedSat (n : ℕ) (x : ℤ) : ℤ := max 0 (min (2 ^ n - 1) x)

/-- An element of `n` bits and whether it saturated, as `SignedSatQ` gives them for `x`. -/
structure SignedSaturates (n : ℕ) (x : ℤ) (result : U64 × Bool) : Prop where
  fits : result.1.toNat < 2 ^ n
  value : (result.1.setWidth n).toInt = signedSat n x
  saturated : result.2 = true ↔ signedSat n x ≠ x

/-- The same for `UnsignedSatQ`. -/
structure UnsignedSaturates (n : ℕ) (x : ℤ) (result : U64 × Bool) : Prop where
  value : (result.1.toNat : ℤ) = unsignedSat n x
  saturated : result.2 = true ↔ unsignedSat n x ≠ x

/-- What rounding adds before a right shift. -/
def roundingTerm (round : Bool) (shift : ℕ) : ℤ := if round then 2 ^ (shift - 1) else 0

end Aarchvm.A64
