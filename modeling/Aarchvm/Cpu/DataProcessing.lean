import Aarchvm.Cpu.Flags

/-!
# Integer data processing

The integer part of `exec_data_processing`: its bodies, and its tests in their order.
A body that returns false gives `none`. The tests for scalar and vector instructions that
stand before them take no word of these classes and are left out.
-/
namespace Aarchvm

open Lib

/-! ## Helpers -/

/-- `bit_reverse`. -/
def bitReverse (value : U64) (width : Nat) : U64 :=
  (List.range width).foldl (fun out i => (out <<< 1) ||| ((value >>> i) &&& 1)) 0

/-- `__builtin_clz` and `__builtin_clzll`; not called at zero. -/
def builtinClz {w : Nat} (value : BitVec w) : Nat := w - value.toNat.size

/-- `cls32` and `cls64`. -/
def cls {w : Nat} (value : BitVec w) : Nat :=
  let x := if value.msb then ~~~value else value
  if x = 0 then w - 1 else builtinClz x - 1

/-- `__builtin_bswap32`. -/
def bswap32 (x : U32) : U32 :=
  x.extractLsb' 0 8 ++ x.extractLsb' 8 8 ++ x.extractLsb' 16 8 ++ x.extractLsb' 24 8

/-- `__builtin_bswap64`. -/
def bswap64 (x : U64) : U64 :=
  x.extractLsb' 0 8 ++ x.extractLsb' 8 8 ++ x.extractLsb' 16 8 ++ x.extractLsb' 24 8 ++
    x.extractLsb' 32 8 ++ x.extractLsb' 40 8 ++ x.extractLsb' 48 8 ++ x.extractLsb' 56 8

def crc32Update (crc : U32) (data : U64) (bytes : Nat) (polyReflected : U32) : U32 :=
  (List.range bytes).foldl (fun crc i =>
    (List.range 8).foldl
      (fun crc _ => (crc >>> 1) ^^^ (if crc.getLsbD 0 then polyReflected else 0))
      (crc ^^^ ((data >>> (8 * i)) &&& 0xFF).setWidth 32)) crc

def umulh64 (lhs rhs : U64) : U64 :=
  let lhsLo := lhs &&& 0xFFFFFFFF
  let lhsHi := lhs >>> 32
  let rhsLo := rhs &&& 0xFFFFFFFF
  let rhsHi := rhs >>> 32
  let p00 := lhsLo * rhsLo
  let p01 := lhsLo * rhsHi
  let p10 := lhsHi * rhsLo
  let p11 := lhsHi * rhsHi
  let middle := (p00 >>> 32) + (p01 &&& 0xFFFFFFFF) + (p10 &&& 0xFFFFFFFF)
  p11 + (p01 >>> 32) + (p10 >>> 32) + (middle >>> 32)

def smulh64 (lhs rhs : U64) : U64 :=
  let high := umulh64 lhs rhs
  let high := if lhs.getLsbD 63 then high - rhs else high
  if rhs.getLsbD 63 then high - lhs else high

/-- `decode_bit_masks`; the two masks when it returns true. -/
def decodeBitMasks (n imms immr datasize : Nat) : Option (U64 × U64) :=
  let notImms := 63 - imms
  let concat := 64 * n + notImms
  match (List.range 7).reverse.find? fun i => concat.testBit i with
  | none => none
  | some len =>
    if len < 1 then none
    else
      let levels := 2 ^ len - 1
      let s := imms &&& levels
      let r := immr &&& levels
      let esize := 2 ^ len
      let d := (s + 2 ^ 32 - r) % 2 ^ 32 &&& levels
      let welem := ones (s + 1)
      let telem := ones (d + 1)
      some (replicate (ror welem r esize) esize datasize, replicate telem esize datasize)

namespace Cpu

/-- The result and flags of ADC and SBC, in the width of the operands. -/
def adcSbc {w : Nat} (isSub carryIn : Bool) (lhs rhs : BitVec w) : BitVec w × Flags :=
  if isSub then
    let borrow : BitVec w := if carryIn then 0 else 1
    let res := lhs - rhs - borrow
    let borrowOut := decide (lhs < rhs) || borrow != 0 && lhs == rhs
    (res, ⟨res.msb, res == 0, !borrowOut, ((lhs ^^^ rhs) &&& (lhs ^^^ res)).msb⟩)
  else
    let sum := lhs + rhs
    let carry1 := decide (sum < lhs)
    let res := sum + if carryIn then 1 else 0
    let carry2 := decide (res < sum)
    (res, ⟨res.msb, res == 0, carry1 || carry2, (~~~(lhs ^^^ rhs) &&& (lhs ^^^ res)).msb⟩)

variable (c : Cpu)

/-- `sf ? reg(i) : reg32(i)`. -/
def regOf (sf : Bool) (i : Nat) : U64 := if sf then c.reg i else (c.reg32 i).setWidth 64

/-- `set_reg` or, without `sf`, `set_reg32`. -/
def setRegOf (sf : Bool) (i : Nat) (value : U64) : Cpu :=
  if sf then c.setReg i value else c.setReg32 i (value.setWidth 32)

/-- `enter_sync_exception(pc_ - 4, 0x00, 0, false, 0)`. -/
def undefined : Cpu := c.enterSyncException (c.pc - 4) 0 0 false 0

/-! ## Bodies -/

variable (insn : U32)

/-- ADC, ADCS, SBC, SBCS. -/
def execAdcSbc : Option Cpu :=
  let sf := insn.getLsbD 31
  let isSub := insn.getLsbD 30
  let rd := bitField insn 0 5
  let rn := bitField insn 5 5
  let rm := bitField insn 16 5
  let carryIn := c.sysregs.pstate.c
  let (c₁, flags) :=
    if sf then
      let r := adcSbc isSub carryIn (c.reg rn) (c.reg rm)
      (c.setReg rd r.1, r.2)
    else
      let r := adcSbc isSub carryIn (c.reg32 rn) (c.reg32 rm)
      (c.setReg32 rd r.1, r.2)
  some (if insn.getLsbD 29 then c₁.setFlags flags else c₁)

/-- The signed immediate of ADR and ADRP. -/
def adrImmediate : U64 :=
  signExtend (BitVec.ofNat 64 (4 * bitField insn 5 19 + bitField insn 29 2)) 21

def execAdr : Option Cpu :=
  some (c.setReg (bitField insn 0 5) (c.pc - 4 + adrImmediate insn))

def execAdrp : Option Cpu :=
  some (c.setReg (bitField insn 0 5) (((c.pc - 4) &&& ~~~(0xFFF : U64)) + adrImmediate insn <<< 12))

def execMovz : Option Cpu :=
  let sf := insn.getLsbD 31
  let value := BitVec.ofNat 64 (bitField insn 5 16) <<< (bitField insn 21 2 * 16)
  some (c.setRegOf sf (bitField insn 0 5) value)

def execMovk : Option Cpu :=
  let sf := insn.getLsbD 31
  let rd := bitField insn 0 5
  let imm16 := BitVec.ofNat 64 (bitField insn 5 16)
  let hw := bitField insn 21 2
  let shift := hw * 16
  if sf then
    let mask := ~~~((0xFFFF : U64) <<< shift)
    some (c.setReg rd ((c.reg rd &&& mask) ||| (imm16 <<< shift)))
  else if 1 < hw then none
  else
    let mask := ~~~((0xFFFF : U32) <<< shift)
    some (c.setReg32 rd ((c.reg32 rd &&& mask) ||| (imm16 <<< shift).setWidth 32))

def execMovn : Option Cpu :=
  let sf := insn.getLsbD 31
  let rd := bitField insn 0 5
  let hw := bitField insn 21 2
  let value := ~~~(BitVec.ofNat 64 (bitField insn 5 16) <<< (hw * 16))
  if sf then some (c.setReg rd value)
  else if 1 < hw then none
  else some (c.setReg32 rd (value.setWidth 32))

/-- The end of every ADD and SUB: `value` is the result. -/
def finishAddSub (sf isSub setFlags : Bool) (rd : Nat) (lhs rhs value : U64) : Cpu :=
  if setFlags then
    let c₁ := c.setRegOf sf rd value
    let low (x : U64) : U64 := (x.setWidth 32).setWidth 64
    match isSub, sf with
    | true, true => c₁.setFlagsSub lhs rhs value false
    | true, false => c₁.setFlagsSub (low lhs) (low rhs) (low value) true
    | false, true => c₁.setFlagsAdd lhs rhs value false
    | false, false => c₁.setFlagsAdd (low lhs) (low rhs) (low value) true
  else c.setSpOrReg rd value (!sf)

/-- The result of ADD, SUB and their variants with flags. Some forms add the low words of the
operands and some take the low word of the sum. -/
def addSubValue (sf isSub : Bool) (lhs rhs : U64) : U64 :=
  match isSub, sf with
  | true, true => lhs - rhs
  | true, false => ((lhs - rhs).setWidth 32).setWidth 64
  | false, true => lhs + rhs
  | false, false => ((lhs + rhs).setWidth 32).setWidth 64

/-- ADD, ADDS and, with `isSub`, SUB, SUBS (immediate). -/
def execAddSubImmediate (isSub : Bool) : Option Cpu :=
  let sf := insn.getLsbD 31
  let imm12 := BitVec.ofNat 64 (bitField insn 10 12)
  let rhs := imm12 <<< (if insn.getLsbD 22 then 12 else 0)
  let lhs := c.spOrReg (bitField insn 5 5)
  some (c.finishAddSub sf isSub (insn.getLsbD 29) (bitField insn 0 5) lhs rhs
    (addSubValue sf isSub lhs rhs))

/-- The second operand of the shifted register forms; shift type 3 is not called. -/
def shiftedOperand (sf : Bool) (rm shiftType imm6 : Nat) : U64 :=
  if sf then
    let v := c.reg rm
    let sh := imm6 % 64
    if shiftType = 0 then v <<< sh else if shiftType = 1 then v >>> sh else v.sshiftRight sh
  else
    let v := c.reg32 rm
    let sh := imm6 % 32
    (if shiftType = 0 then v <<< sh else if shiftType = 1 then v >>> sh
      else v.sshiftRight sh).setWidth 64

/-- ADD, ADDS and, with `isSub`, SUB, SUBS (shifted register). -/
def execAddSubShifted (isSub : Bool) : Option Cpu :=
  let sf := insn.getLsbD 31
  let shiftType := bitField insn 22 2
  if 2 < shiftType then none
  else
    let rhs := c.shiftedOperand sf (bitField insn 16 5) shiftType (bitField insn 10 6)
    let lhs := c.regOf sf (bitField insn 5 5)
    some (c.finishAddSub sf isSub (insn.getLsbD 29) (bitField insn 0 5) lhs rhs
      (addSubValue sf isSub lhs rhs))

/-- ADD, ADDS, SUB, SUBS (extended register). -/
def execAddSubExtended : Option Cpu :=
  let sf := insn.getLsbD 31
  let isSub := insn.getLsbD 30
  let rm := bitField insn 16 5
  let imm3 := bitField insn 10 3
  if 4 < imm3 then none
  else
    let rmX := c.reg rm
    let rmW := (c.reg32 rm).setWidth 64
    let rhs : U64 := match bitField insn 13 3 with
      | 0 => rmW &&& 0xFF
      | 1 => rmW &&& 0xFFFF
      | 2 => rmW
      | 3 => if sf then rmX else rmW
      | 4 => signExtend (rmW &&& 0xFF) 8
      | 5 => signExtend (rmW &&& 0xFFFF) 16
      | 6 => signExtend rmW 32
      | _ => if sf then rmX else rmW
    let rhs := rhs <<< imm3
    let lhs := c.spOrReg (bitField insn 5 5)
    some (c.finishAddSub sf isSub (insn.getLsbD 29) (bitField insn 0 5) lhs rhs
      (addSubValue sf isSub lhs rhs))

/-- CSEL, CSINC, CSINV, CSNEG. -/
def execCsel : Option Cpu :=
  let sf := insn.getLsbD 31
  let op := insn.getLsbD 30
  let s := insn.getLsbD 10
  let takeRn := c.conditionHolds (BitVec.ofNat 32 (bitField insn 12 4))
  let rnVal := c.regOf sf (bitField insn 5 5)
  let rmVal := c.regOf sf (bitField insn 16 5)
  let falseVal := match op, s with
    | false, true => rmVal + 1
    | true, false => ~~~rmVal
    | true, true => -rmVal
    | false, false => rmVal
  some (c.setRegOf sf (bitField insn 0 5) (if takeRn then rnVal else falseVal))

/-- CRC32 and CRC32C. -/
def execCrc32 (bytes : Nat) (poly : U32) : Option Cpu :=
  let rm := bitField insn 16 5
  let crcIn := c.reg32 (bitField insn 5 5)
  let data := if bytes = 8 then c.reg rm else (c.reg32 rm).setWidth 64
  some (c.setReg32 (bitField insn 0 5) (crc32Update crcIn data bytes poly))

/-- RBIT, REV16, REV32, REV, CLZ, CLS. -/
def execOneSource : Option Cpu :=
  let sf := insn.getLsbD 31
  let src := c.regOf sf (bitField insn 5 5)
  let x := src.setWidth 32
  let result : Option U64 := match bitField insn 10 6 with
    | 0 => some (bitReverse src (if sf then 64 else 32))
    | 1 =>
      some (if sf then
        ((src &&& 0x00FF00FF00FF00FF) <<< 8) ||| ((src &&& 0xFF00FF00FF00FF00) >>> 8)
      else (((x &&& 0x00FF00FF) <<< 8) ||| ((x &&& 0xFF00FF00) >>> 8)).setWidth 64)
    | 2 =>
      some (if sf then
        ((bswap32 ((src >>> 32).setWidth 32)).setWidth 64 <<< 32) |||
          (bswap32 ((src &&& 0xFFFFFFFF).setWidth 32)).setWidth 64
      else (bswap32 x).setWidth 64)
    | 3 => if sf then some (bswap64 src) else none
    | 4 =>
      some (BitVec.ofNat 64 (if sf then if src = 0 then 64 else builtinClz src
        else if x = 0 then 32 else builtinClz x))
    | 5 => some (BitVec.ofNat 64 (if sf then cls src else cls x))
    | _ => none
  result.map (c.setRegOf sf (bitField insn 0 5))

/-- The quotient of UDIV and SDIV, in the width of the operands. -/
def quotient {w : Nat} (isSigned : Bool) (lhs rhs : BitVec w) : BitVec w :=
  if rhs = 0 then 0
  else if isSigned then
    if lhs = BitVec.twoPow w (w - 1) ∧ rhs = -1 then lhs else lhs.sdiv rhs
  else lhs / rhs

/-- UDIV, SDIV. -/
def execDiv : Option Cpu :=
  let isSigned := insn.getLsbD 10
  let rd := bitField insn 0 5
  let rn := bitField insn 5 5
  let rm := bitField insn 16 5
  if insn.getLsbD 31 then some (c.setReg rd (quotient isSigned (c.reg rn) (c.reg rm)))
  else some (c.setReg32 rd (quotient isSigned (c.reg32 rn) (c.reg32 rm)))

/-- LSLV, LSRV, ASRV, RORV. -/
def execShiftVariable : Option Cpu :=
  let sf := insn.getLsbD 31
  let width := if sf then 64 else 32
  let rm := bitField insn 16 5
  let amount := (if sf then c.reg rm &&& 63 else (c.reg32 rm).setWidth 64 &&& 31).toNat
  let src := c.regOf sf (bitField insn 5 5)
  let mask := ones width
  let result := match bitField insn 10 2 with
    | 0 => (src <<< amount) &&& mask
    | 1 => (src &&& mask) >>> amount
    | 2 =>
      if sf then src.sshiftRight amount
      else ((src.setWidth 32).sshiftRight amount).setWidth 64
    | _ => ror src amount width
  some (c.setRegOf sf (bitField insn 0 5) result)

/-- MADD, MSUB. -/
def execMaddMsub : Option Cpu :=
  let isSub := insn.getLsbD 15
  let rd := bitField insn 0 5
  let rn := bitField insn 5 5
  let rm := bitField insn 16 5
  let ra := bitField insn 10 5
  if insn.getLsbD 31 then
    let prod := c.reg rn * c.reg rm
    some (c.setReg rd (if isSub then c.reg ra - prod else c.reg ra + prod))
  else
    let prod := c.reg32 rn * c.reg32 rm
    some (c.setReg32 rd (if isSub then c.reg32 ra - prod else c.reg32 ra + prod))

/-- SMADDL, SMSUBL, UMADDL, UMSUBL. -/
def execMaddMsubLong : Option Cpu :=
  let isUnsigned := insn.getLsbD 23
  let isSub := insn.getLsbD 15
  let lhs := c.reg32 (bitField insn 5 5)
  let rhs := c.reg32 (bitField insn 16 5)
  let acc := c.reg (bitField insn 10 5)
  let prod : U64 := if isUnsigned then lhs.setWidth 64 * rhs.setWidth 64
    else lhs.signExtend 64 * rhs.signExtend 64
  some (c.setReg (bitField insn 0 5) (if isSub then acc - prod else acc + prod))

/-- UMULH, SMULH. -/
def execMulHigh : Option Cpu :=
  let lhs := c.reg (bitField insn 5 5)
  let rhs := c.reg (bitField insn 16 5)
  some (c.setReg (bitField insn 0 5)
    (if insn.getLsbD 23 then umulh64 lhs rhs else smulh64 lhs rhs))

/-- The flags of CCMP and CCMN, in the width of the operands. -/
def compareFlags {w : Nat} (isCcmn : Bool) (lhs rhs : BitVec w) : Flags :=
  if isCcmn then
    let result := lhs + rhs
    ⟨result.msb, result == 0, result < lhs, lhs.msb == rhs.msb && lhs.msb != result.msb⟩
  else
    let result := lhs - rhs
    ⟨result.msb, result == 0, rhs ≤ lhs, lhs.msb != rhs.msb && lhs.msb != result.msb⟩

/-- CCMP, CCMN. -/
def execCcmp : Option Cpu :=
  let sf := insn.getLsbD 31
  let isCcmn := !insn.getLsbD 30
  let rm := bitField insn 16 5
  let lhs := c.regOf sf (bitField insn 5 5)
  let rhs := if insn.getLsbD 11 then BitVec.ofNat 64 rm else c.regOf sf rm
  some (c.setFlags (
    if c.conditionHolds (BitVec.ofNat 32 (bitField insn 12 4)) then
      if sf then compareFlags isCcmn lhs rhs
      else compareFlags isCcmn (lhs.setWidth 32) (rhs.setWidth 32)
    else A64.nzcvField insn))

/-- EXTR. -/
def execExtr : Option Cpu :=
  let sf := insn.getLsbD 31
  let n := insn.getLsbD 22
  let lsb := bitField insn 10 6
  let width := if sf then 64 else 32
  if sf && !n || !sf && n then none
  else if !sf && 32 ≤ lsb || 64 ≤ lsb then none
  else
    let mask := ones width
    let rnVal := c.regOf sf (bitField insn 5 5) &&& mask
    let rmVal := c.regOf sf (bitField insn 16 5) &&& mask
    some (c.setRegOf sf (bitField insn 0 5)
      (if lsb = 0 then rmVal else (rmVal >>> lsb) ||| ((rnVal <<< (width - lsb)) &&& mask)))

/-- The second operand of the logical shifted register forms. -/
def logicalOperand (sf n : Bool) (rm shiftType imm6 : Nat) : U64 :=
  let widthMask : U64 := if sf then ~~~0 else 0xFFFFFFFF
  let sh := if sf then imm6 % 64 else imm6 % 32
  let rhsSrc := c.regOf sf rm
  let rhs := match shiftType with
    | 0 => rhsSrc <<< sh
    | 1 => (rhsSrc &&& widthMask) >>> sh
    | 2 =>
      if sf then rhsSrc.sshiftRight sh
      else ((rhsSrc.setWidth 32).sshiftRight sh).setWidth 64
    | _ => ror rhsSrc sh (if sf then 64 else 32)
  let rhs := rhs &&& widthMask
  if n then ~~~rhs &&& widthMask else rhs

/-- The end of the logical forms. -/
def finishLogical (sf : Bool) (opc rd : Nat) (lhs rhs : U64) : Cpu :=
  match opc with
  | 0 => c.setRegOf sf rd (lhs &&& rhs)
  | 1 => c.setRegOf sf rd (lhs ||| rhs)
  | 2 => c.setRegOf sf rd (lhs ^^^ rhs)
  | _ =>
    let c₁ := c.setFlagsLogic (lhs &&& rhs) (!sf)
    if rd = 31 then c₁ else c₁.setRegOf sf rd (lhs &&& rhs)

/-- AND, BIC, ORR, ORN, EOR, EON, ANDS, BICS (shifted register). -/
def execLogicalShifted : Option Cpu :=
  let sf := insn.getLsbD 31
  let imm6 := bitField insn 10 6
  if !sf && insn.getLsbD 15 then none
  else
    let rhs := c.logicalOperand sf (insn.getLsbD 21) (bitField insn 16 5) (bitField insn 22 2) imm6
    let lhs := c.regOf sf (bitField insn 5 5)
    some (c.finishLogical sf (bitField insn 29 2) (bitField insn 0 5) lhs rhs)

/-- AND, ORR, EOR, ANDS (immediate). -/
def execLogicalImmediate : Option Cpu :=
  let sf := insn.getLsbD 31
  let n := bitField insn 22 1
  if !sf && n != 0 then none
  else
    (decodeBitMasks n (bitField insn 10 6) (bitField insn 16 6) (if sf then 64 else 32)).map
      fun masks =>
        let lhs := c.regOf sf (bitField insn 5 5)
        c.finishLogical sf (bitField insn 29 2) (bitField insn 0 5) lhs masks.1

/-- The result of SBFM, BFM, UBFM. -/
def bitfieldResult (opc immr imms datasize : Nat) (src dst : U64) (masks : U64 × U64) :
    Option U64 :=
  let bot := ror src immr datasize &&& masks.1
  match opc with
  | 0 =>
    let sign := src.getLsbD (imms &&& (datasize - 1))
    let top := if sign then ones datasize else 0
    some ((top &&& ~~~masks.2) ||| (bot &&& masks.2))
  | 1 =>
    let merged := (dst &&& ~~~masks.1) ||| bot
    some ((dst &&& ~~~masks.2) ||| (merged &&& masks.2))
  | 2 => some (bot &&& masks.2)
  | _ => none

/-- SBFM, BFM, UBFM. -/
def execBitfield : Option Cpu :=
  let sf := insn.getLsbD 31
  let rd := bitField insn 0 5
  let n := bitField insn 22 1
  let immr := bitField insn 16 6
  let imms := bitField insn 10 6
  let datasize := if sf then 64 else 32
  if sf && n != 1 || !sf && n != 0 then none
  else
    (decodeBitMasks n imms immr datasize).bind fun masks =>
      (bitfieldResult (bitField insn 29 2) immr imms datasize (c.regOf sf (bitField insn 5 5))
        (c.regOf sf rd) masks).map (c.setRegOf sf rd)

end Cpu

/-! ## Tests -/

/-- What a test of `exec_data_processing` leads to. -/
inductive IntegerOp where
  | undefined
  | adcSbc
  | adr
  | adrp
  | movz
  | movk
  | movn
  | addSubImmediate (isSub : Bool)
  | addSubShifted (isSub : Bool)
  | addSubExtended
  | csel
  | crc32 (bytes : Nat) (poly : U32)
  | oneSource
  | div
  | shiftVariable
  | maddMsub
  | maddMsubLong
  | mulHigh
  | ccmp
  | extr
  | logicalShifted
  | logicalImmediate
  | bitfield
  deriving DecidableEq, Repr

def Cpu.execIntegerOp (c : Cpu) (insn : U32) : IntegerOp → Option Cpu
  | .undefined => some c.undefined
  | .adcSbc => c.execAdcSbc insn
  | .adr => c.execAdr insn
  | .adrp => c.execAdrp insn
  | .movz => c.execMovz insn
  | .movk => c.execMovk insn
  | .movn => c.execMovn insn
  | .addSubImmediate isSub => c.execAddSubImmediate insn isSub
  | .addSubShifted isSub => c.execAddSubShifted insn isSub
  | .addSubExtended => c.execAddSubExtended insn
  | .csel => c.execCsel insn
  | .crc32 bytes poly => c.execCrc32 insn bytes poly
  | .oneSource => c.execOneSource insn
  | .div => c.execDiv insn
  | .shiftVariable => c.execShiftVariable insn
  | .maddMsub => c.execMaddMsub insn
  | .maddMsubLong => c.execMaddMsubLong insn
  | .mulHigh => c.execMulHigh insn
  | .ccmp => c.execCcmp insn
  | .extr => c.execExtr insn
  | .logicalShifted => c.execLogicalShifted insn
  | .logicalImmediate => c.execLogicalImmediate insn
  | .bitfield => c.execBitfield insn

/-- Encodings of absent extensions inside the integer classes: FEAT_FlagM and FEAT_PAuth. -/
def integerGuards : List (Pattern 32 × IntegerOp) :=
  [(⟨0xFFE07C10, 0xBA000400⟩, .undefined), (⟨0xFFFFBC1F, 0x3A00080D⟩, .undefined),
   (⟨0xFFFFFFE0, 0xDAC143E0⟩, .undefined), (⟨0xFFFFFFE0, 0xDAC147E0⟩, .undefined),
   (⟨0xFFFFFC00, 0xDAC10000⟩, .undefined), (⟨0xFFFFFFE0, 0xDAC123E0⟩, .undefined),
   (⟨0xFFFFFC00, 0xDAC10400⟩, .undefined), (⟨0xFFFFFFE0, 0xDAC127E0⟩, .undefined),
   (⟨0xFFFFFC00, 0xDAC10800⟩, .undefined), (⟨0xFFFFFFE0, 0xDAC12BE0⟩, .undefined),
   (⟨0xFFFFFC00, 0xDAC10C00⟩, .undefined), (⟨0xFFFFFFE0, 0xDAC12FE0⟩, .undefined),
   (⟨0xFFFFFC00, 0xDAC11000⟩, .undefined), (⟨0xFFFFFFE0, 0xDAC133E0⟩, .undefined),
   (⟨0xFFFFFC00, 0xDAC11400⟩, .undefined), (⟨0xFFFFFFE0, 0xDAC137E0⟩, .undefined),
   (⟨0xFFFFFC00, 0xDAC11800⟩, .undefined), (⟨0xFFFFFFE0, 0xDAC13BE0⟩, .undefined),
   (⟨0xFFFFFC00, 0xDAC11C00⟩, .undefined), (⟨0xFFFFFFE0, 0xDAC13FE0⟩, .undefined),
   (⟨0xFFE0FC00, 0x9AC03000⟩, .undefined)]

/-- The tests of the integer part, in its order. -/
def integerCases : List (Pattern 32 × IntegerOp) :=
  integerGuards ++
  [(⟨0x7FE0FC00, 0x1A000000⟩, .adcSbc), (⟨0x7FE0FC00, 0x3A000000⟩, .adcSbc),
   (⟨0x7FE0FC00, 0x5A000000⟩, .adcSbc), (⟨0x7FE0FC00, 0x7A000000⟩, .adcSbc),
   (⟨0x9F000000, 0x10000000⟩, .adr), (⟨0x9F000000, 0x90000000⟩, .adrp),
   (⟨0x7F800000, 0x52800000⟩, .movz), (⟨0x7F800000, 0x72800000⟩, .movk),
   (⟨0x7F800000, 0x12800000⟩, .movn),
   (⟨0x7FC00000, 0x11800000⟩, .undefined), (⟨0x7FC00000, 0x51800000⟩, .undefined),
   (⟨0x7F000000, 0x11000000⟩, .addSubImmediate false),
   (⟨0x7F000000, 0x31000000⟩, .addSubImmediate false),
   (⟨0x7F000000, 0x51000000⟩, .addSubImmediate true),
   (⟨0x7F000000, 0x71000000⟩, .addSubImmediate true),
   (⟨0x7F200000, 0x0B000000⟩, .addSubShifted false),
   (⟨0x7F200000, 0x2B000000⟩, .addSubShifted false),
   (⟨0x7F200000, 0x4B000000⟩, .addSubShifted true),
   (⟨0x7F200000, 0x6B000000⟩, .addSubShifted true),
   (⟨0x1F200000, 0x0B200000⟩, .addSubExtended),
   (⟨0x1FE00C00, 0x1A800000⟩, .csel), (⟨0x1FE00C00, 0x1A800400⟩, .csel),
   (⟨0xFFC0FC00, 0x1AC04000⟩, .crc32 1 0xEDB88320),
   (⟨0xFFC0FC00, 0x1AC04400⟩, .crc32 2 0xEDB88320),
   (⟨0xFFC0FC00, 0x1AC04800⟩, .crc32 4 0xEDB88320),
   (⟨0xFFC0FC00, 0x9AC04C00⟩, .crc32 8 0xEDB88320),
   (⟨0xFFC0FC00, 0x1AC05000⟩, .crc32 1 0x82F63B78),
   (⟨0xFFC0FC00, 0x1AC05400⟩, .crc32 2 0x82F63B78),
   (⟨0xFFC0FC00, 0x1AC05800⟩, .crc32 4 0x82F63B78),
   (⟨0xFFC0FC00, 0x9AC05C00⟩, .crc32 8 0x82F63B78),
   (⟨0x5FE0FC00, 0x5AC00000⟩, .oneSource), (⟨0x5FE0FC00, 0x5AC00400⟩, .oneSource),
   (⟨0x5FE0FC00, 0x5AC00800⟩, .oneSource), (⟨0x5FE0FC00, 0x5AC00C00⟩, .oneSource),
   (⟨0x5FE0FC00, 0x5AC01000⟩, .oneSource), (⟨0x5FE0FC00, 0x5AC01400⟩, .oneSource),
   (⟨0x7FE0FC00, 0x1AC00800⟩, .div), (⟨0x7FE0FC00, 0x1AC00C00⟩, .div),
   (⟨0x7FE0FC00, 0x1AC02000⟩, .shiftVariable), (⟨0x7FE0FC00, 0x1AC02400⟩, .shiftVariable),
   (⟨0x7FE0FC00, 0x1AC02800⟩, .shiftVariable), (⟨0x7FE0FC00, 0x1AC02C00⟩, .shiftVariable),
   (⟨0x1FE08000, 0x1B000000⟩, .maddMsub), (⟨0x1FE08000, 0x1B008000⟩, .maddMsub),
   (⟨0xFFE08000, 0x9B200000⟩, .maddMsubLong), (⟨0xFFE08000, 0x9B208000⟩, .maddMsubLong),
   (⟨0xFFE08000, 0x9BA00000⟩, .maddMsubLong), (⟨0xFFE08000, 0x9BA08000⟩, .maddMsubLong),
   (⟨0xFFE0FC00, 0x9BC07C00⟩, .mulHigh), (⟨0xFFE0FC00, 0x9B407C00⟩, .mulHigh),
   (⟨0x1FE00010, 0x1A400000⟩, .ccmp),
   (⟨0x1F800000, 0x13800000⟩, .extr),
   (⟨0x1F000000, 0x0A000000⟩, .logicalShifted),
   (⟨0x1F000000, 0x12000000⟩, .logicalImmediate),
   (⟨0x1F800000, 0x13000000⟩, .bitfield)]

/-- `exec_data_processing` on an integer word; `none` when it returns false. -/
def Cpu.execDataProcessing (c : Cpu) (insn : U32) : Option Cpu :=
  (Pattern.decode integerCases insn).bind (c.execIntegerOp insn)

end Aarchvm
