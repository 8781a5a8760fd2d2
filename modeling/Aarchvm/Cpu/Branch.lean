import Aarchvm.Cpu.Conditions
import Aarchvm.Cpu.Extended
import Aarchvm.Lib.Fields

/-!
# Branches

The branches of `step` and `exec_branch`, and the predecoded ones of `decode_insn` and
`exec_decoded`, against the branch instructions of A64. Both paths run with the PC past the word.
-/
namespace Aarchvm

open Lib

/-! ## The architecture -/

namespace A64

inductive BranchClass where
  | immediate | conditional | compare | test | register
  deriving DecidableEq, Repr

/-- The branches among the encodings whose bits 28:26 are 101. -/
def branchClass (insn : U32) : Option BranchClass :=
  if bitField insn 26 3 ≠ 5 then none
  else
    match bitField insn 29 3 with
    | 0 | 4 => some .immediate
    | 1 | 5 => some (if insn.getLsbD 25 then .test else .compare)
    | 2 => if bitField insn 24 2 = 0 ∧ insn.getLsbD 4 = false then some .conditional else none
    | 6 =>
      if insn.getLsbD 25 ∧ bitField insn 21 4 < 3 ∧ bitField insn 10 11 = 0x7C0 ∧
        bitField insn 0 5 = 0 then some .register
      else none
    | _ => none

/-- The byte offset of a signed field that counts words. -/
def branchOffset (insn : U32) (lo len : Nat) : U64 :=
  BitVec.ofInt 64 (4 * (insn.extractLsb' lo len).toInt)

/-- Where a branch at `pc` goes, and whether it links. -/
def branch (insn : U32) (v : View) (pc : U64) : Option (U64 × Bool) :=
  let goTo (taken : Bool) (len : Nat) :=
    (if taken then pc + branchOffset insn 5 len else pc + 4, false)
  (branchClass insn).map fun
    | .immediate => (pc + branchOffset insn 0 26, insn.getLsbD 31)
    | .conditional => goTo (conditionHolds v.flags (bitField insn 0 4)) 19
    | .compare => goTo ((v.x (width insn) (bitField insn 0 5) == 0) != insn.getLsbD 24) 19
    | .test =>
      let pos := 32 * bitField insn 31 1 + bitField insn 19 5
      goTo ((v.x 64 (bitField insn 0 5)).getLsbD pos == insn.getLsbD 24) 14
    | .register => (v.x 64 (bitField insn 5 5), bitField insn 21 4 == 1)

/-- B.NV, which architecturally is taken like B.AL. -/
def IsBranchNever (insn : U32) : Prop :=
  branchClass insn = some .conditional ∧ bitField insn 0 4 = 15

instance decidableIsBranchNever (insn : U32) : Decidable (IsBranchNever insn) :=
  inferInstanceAs (Decidable (_ ∧ _))

end A64

/-! ## The program -/

/-- The tests of `exec_branch`, with which `decode_insn` starts as well. -/
inductive BranchOp where
  | bImm | bCond | cbz | tbz
  deriving DecidableEq, Repr

def branchCases : List (Pattern 32 × BranchOp) :=
  [(⟨0x7C000000, 0x14000000⟩, .bImm), (⟨0xFF000010, 0x54000000⟩, .bCond),
   (⟨0x7F000000, 0x34000000⟩, .cbz), (⟨0x7F000000, 0x35000000⟩, .cbz),
   (⟨0x7F000000, 0x36000000⟩, .tbz), (⟨0x7F000000, 0x37000000⟩, .tbz)]

def imm26 (insn : U32) : U64 := signExtend (((insn &&& 0x03FFFFFF) <<< 2).setWidth 64) 28
def branchImm19 (insn : U32) : U64 :=
  signExtend ((((insn >>> 5) &&& 0x7FFFF) <<< 2).setWidth 64) 21
def imm14 (insn : U32) : U64 := signExtend ((((insn >>> 5) &&& 0x3FFF) <<< 2).setWidth 64) 16

/-- The part of `DecodedInsn` that branches use. -/
structure DecodedBranch where
  kind : BranchOp
  simm : U32
  rd : Nat := 31
  aux : Nat := 0
  link : Bool := false
  sf : Bool := false
  nonZero : Bool := false
  deriving DecidableEq, Repr

/-- `decode_insn` on the branches. -/
def decodeBranch (insn : U32) : Option DecodedBranch :=
  (Pattern.decode branchCases insn).map fun
    | .bImm => { kind := .bImm, simm := (imm26 insn).setWidth 32, link := insn.getLsbD 31 }
    | .bCond =>
      { kind := .bCond, aux := bitField insn 0 4, simm := (branchImm19 insn).setWidth 32 }
    | .cbz =>
      { kind := .cbz, rd := bitField insn 0 5, simm := (branchImm19 insn).setWidth 32,
        sf := insn.getLsbD 31, nonZero := insn.getLsbD 24 }
    | .tbz =>
      { kind := .tbz, rd := bitField insn 0 5,
        aux := (bitField insn 31 1 <<< 5) ||| bitField insn 19 5,
        simm := (imm14 insn).setWidth 32, nonZero := insn.getLsbD 24 }

namespace Cpu

variable (c : Cpu)

/-- `pc_ + off - 4` when the branch is taken. -/
def takeBranch (take : Bool) (off : U64) : Cpu :=
  if take then { c with pc := c.pc + off - 4 } else c

/-- `exec_branch`; `none` when it returns false. -/
def execBranch (insn : U32) : Option Cpu :=
  (Pattern.decode branchCases insn).map fun
    | .bImm =>
      (if insn.getLsbD 31 then c.setReg 30 c.pc else c).takeBranch true (imm26 insn)
    | .bCond =>
      c.takeBranch (c.conditionHolds (BitVec.ofNat 32 (bitField insn 0 4))) (branchImm19 insn)
    | .cbz =>
      let value := c.regOf (insn.getLsbD 31) (bitField insn 0 5)
      c.takeBranch (if insn.getLsbD 24 then value != 0 else value == 0) (branchImm19 insn)
    | .tbz =>
      let bitpos := (bitField insn 31 1 <<< 5) ||| bitField insn 19 5
      let bitSet := (c.reg (bitField insn 0 5)).getLsbD bitpos
      c.takeBranch (if insn.getLsbD 24 then bitSet else !bitSet) (imm14 insn)

/-- The branches of `exec_decoded`. -/
def execDecodedBranch (decoded : DecodedBranch) : Cpu :=
  let off := decoded.simm.signExtend 64
  match decoded.kind with
  | .bImm => (if decoded.link then c.setReg 30 c.pc else c).takeBranch true off
  | .bCond => c.takeBranch (c.conditionHolds (BitVec.ofNat 32 decoded.aux)) off
  | .cbz =>
    let value := c.regOf decoded.sf decoded.rd
    c.takeBranch (if decoded.nonZero then value != 0 else value == 0) off
  | .tbz =>
    let bitSet := (c.reg decoded.rd).getLsbD decoded.aux
    c.takeBranch (if decoded.nonZero then bitSet else !bitSet) off

end Cpu

/-! ## Offsets -/

/-- The bits of a field that counts words. -/
theorem extract_words (insn : U32) (lo : Nat) {len : Nat} (hlen : len ≤ 30) :
    ((((insn >>> lo) &&& BitVec.ofNat 32 (2 ^ len - 1)) <<< 2).setWidth 64).setWidth (len + 2) =
      insn.extractLsb' lo len ++ 0#2 := by
  apply BitVec.eq_of_getLsbD_eq
  intro i hi
  simp only [BitVec.getLsbD_setWidth, BitVec.getLsbD_shiftLeft, BitVec.getLsbD_and,
    BitVec.getLsbD_ushiftRight, BitVec.getLsbD_ofNat, Nat.testBit_two_pow_sub_one,
    BitVec.getLsbD_append, BitVec.getLsbD_extractLsb']
  have h32 : i < 32 := by omega
  have h64 : i < 64 := by omega
  by_cases hlow : i < 2
  · simp [hlow]
  · have hfield : i - 2 < len := by omega
    have hword : i - 2 < 32 := by omega
    simp [hi, hlow, h32, h64, hfield, hword]

/-- A field that counts words, as `exec_branch` extends it. -/
theorem signExtend_words (insn : U32) (lo : Nat) {len : Nat} (hlen : len ≤ 30) :
    signExtend ((((insn >>> lo) &&& BitVec.ofNat 32 (2 ^ len - 1)) <<< 2).setWidth 64) (len + 2) =
      A64.branchOffset insn lo len := by
  have hbytes : (2 : Int) ^ 2 = 4 := rfl
  rw [signExtend_eq _ (by omega) (by omega), extract_words insn lo hlen, A64.branchOffset,
    BitVec.signExtend, BitVec.toInt_append_zero, hbytes]

theorem imm26_eq (insn : U32) : imm26 insn = A64.branchOffset insn 0 26 := by
  have hmask : (0x03FFFFFF : U32) = BitVec.ofNat 32 (2 ^ 26 - 1) := rfl
  have hwords := @signExtend_words insn 0 26 (by decide)
  rw [BitVec.ushiftRight_zero] at hwords
  rw [imm26, hmask]
  exact hwords

theorem branchImm19_eq (insn : U32) : branchImm19 insn = A64.branchOffset insn 5 19 := by
  have hmask : (0x7FFFF : U32) = BitVec.ofNat 32 (2 ^ 19 - 1) := rfl
  rw [branchImm19, hmask]
  exact @signExtend_words insn 5 19 (by decide)

theorem imm14_eq (insn : U32) : imm14 insn = A64.branchOffset insn 5 14 := by
  have hmask : (0x3FFF : U32) = BitVec.ofNat 32 (2 ^ 14 - 1) := rfl
  rw [imm14, hmask]
  exact @signExtend_words insn 5 14 (by decide)

/-- A value that fits in an `int32_t` survives it. -/
theorem signExtend_narrow {k : Nat} (x : BitVec k) (hk : k ≤ 32) :
    ((x.signExtend 64).setWidth 32).signExtend 64 = x.signExtend 64 := by
  rw [setWidth_signExtend _ (by decide), BitVec.signExtend, BitVec.toInt_signExtend_of_le hk]
  rfl

theorem branchOffset_narrow (insn : U32) (lo : Nat) {len : Nat} (hlen : len ≤ 30) :
    ((A64.branchOffset insn lo len).setWidth 32).signExtend 64 = A64.branchOffset insn lo len := by
  have hwords : A64.branchOffset insn lo len = (insn.extractLsb' lo len ++ 0#2).signExtend 64 := by
    rw [A64.branchOffset, BitVec.signExtend, BitVec.toInt_append_zero]
    rfl
  rw [hwords, signExtend_narrow _ (by omega)]

/-! ## Classes -/

/-- What `exec_branch` has for a class. -/
def A64.BranchClass.op : A64.BranchClass → Option BranchOp
  | .immediate => some .bImm
  | .conditional => some .bCond
  | .compare => some .cbz
  | .test => some .tbz
  | .register => none

namespace Cpu

variable (c : Cpu)

/-! ## Bodies -/

/-- The predecoded bodies are the plain ones. -/
theorem execDecodedBranch_eq (insn : U32) :
    (decodeBranch insn).map c.execDecodedBranch = c.execBranch insn := by
  rw [decodeBranch, execBranch, Option.map_map]
  congr 1
  funext op
  cases op with
  | bImm =>
    change ((if insn.getLsbD 31 then c.setReg 30 c.pc else c).takeBranch true
      (((imm26 insn).setWidth 32).signExtend 64)) = _
    rw [imm26_eq, branchOffset_narrow _ _ (by decide)]
  | bCond =>
    change c.takeBranch _ (((branchImm19 insn).setWidth 32).signExtend 64) = _
    rw [branchImm19_eq, branchOffset_narrow _ _ (by decide)]
  | cbz =>
    change c.takeBranch _ (((branchImm19 insn).setWidth 32).signExtend 64) = _
    rw [branchImm19_eq, branchOffset_narrow _ _ (by decide)]
  | tbz =>
    change c.takeBranch _ (((imm14 insn).setWidth 32).signExtend 64) = _
    rw [imm14_eq, branchOffset_narrow _ _ (by decide)]

end Cpu
end Aarchvm
