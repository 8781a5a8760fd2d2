import Aarchvm.Cpu.LoadStoreBodies

/-!
# The forms of loads and stores

The tests of `exec_load_store` that lead to no exclusive, atomic or ordered access, each with what
it leads to, and the whole function made of both parts. Where a test is followed by `return false`
no later test matches the word.
-/
namespace Aarchvm

open Lib

/-! ## The fields of a word -/

def fieldRm (insn : U32) : Nat := ((insn >>> 16) &&& 0x1F).toNat
def fieldOption (insn : U32) : Nat := ((insn >>> 13) &&& 0x7).toNat

def simm9 (insn : U32) : U64 := signExtend (((insn >>> 12) &&& 0x1FF).setWidth 64) 9
def imm7 (insn : U32) : U64 := signExtend (((insn >>> 15) &&& 0x7F).setWidth 64) 7
def imm12 (insn : U32) : U64 := ((insn >>> 10) &&& 0xFFF).setWidth 64
def imm19 (insn : U32) : U64 := signExtend (((insn >>> 5) &&& 0x7FFFF).setWidth 64) 19 <<< 2

/-- UXTW, LSL, SXTW and SXTX. -/
def validOption (insn : U32) : Bool := fieldOption insn ∈ [2, 3, 6, 7]

/-- `decode_vec_single_struct`. -/
def decodeVecSingleStruct (insn : U32) : Option SingleStruct :=
  let q := ((insn >>> 30) &&& 1).toNat
  let r := ((insn >>> 21) &&& 1).toNat
  let opcode := ((insn >>> 13) &&& 0x7).toNat
  let s := ((insn >>> 12) &&& 1).toNat
  let size := ((insn >>> 10) &&& 0x3).toNat
  let isLoad := insn.getLsbD 22
  let regCount := opcode % 2 * 2 + r + 1
  let element (scale laneIndex : Nat) : SingleStruct :=
    ⟨isLoad, false, regCount, 8 <<< scale, laneIndex, 64 <<< q⟩
  match opcode / 2 with
  | 3 =>
    if !isLoad || s != 0 then none
    else some { element size 0 with replicate := true }
  | 0 => some (element 0 (q * 8 + s * 4 + size))
  | 1 => if size % 2 ≠ 0 then none else some (element 1 (q * 4 + s * 2 + size / 2))
  | _ =>
    if 2 ≤ size then none
    else if size = 0 then some (element 2 (q * 2 + s))
    else if s ≠ 0 then none
    else some (element 3 q)

/-! ## The forms -/

/-- What a test leads to. -/
inductive MemForm where
  /-- `enter_sync_exception(pc_ - 4u, 0x00u, 0u, false, 0u)` -/
  | undefined
  /-- PRFM and PRFUM -/
  | prefetch
  | vecUnsigned (isLoad : Bool) (size : Nat)
  | vecUnscaled (isLoad : Bool) (size : Nat)
  | vecIndexed (isLoad : Bool) (mode : IndexMode) (size : Nat)
  | vecRegister (isLoad : Bool) (size : Nat)
  | vecSingle (postIndex : Bool)
  | vecMultiple (isLoad interleaved postIndex : Bool) (regCount : Nat)
  | vecPostPre (isLoad : Bool) (mode : IndexMode) (size : Nat)
  | vecPair (isLoad : Bool) (mode : IndexMode) (size : Nat)
  | vecLiteral
  | loadUnprivileged (ext : LoadExtend) (size : Nat)
  | storeUnprivileged (size : Nat)
  | load (ext : LoadExtend) (mode : IndexMode) (size : Nat)
  | store (mode : IndexMode) (size : Nat)
  | loadUnsigned (ext : LoadExtend) (size : Nat)
  | storeUnsigned (size : Nat)
  | loadRegister (ext : LoadExtend) (size : Nat)
  /-- LDR and STR with a register offset, of the size in bits 31:30 -/
  | register
  | loadPair (ext : LoadExtend) (mode : IndexMode) (size : Nat)
  | storePair (mode : IndexMode) (size : Nat)
  | literal (ext : LoadExtend) (size : Nat)
  deriving DecidableEq, Repr

namespace MemForm

/-- The further conditions under which the function does not return false. -/
def allocated (insn : U32) : MemForm → Bool
  | vecRegister _ _ => validOption insn
  | loadRegister _ _ => validOption insn
  | register => validOption insn
  | vecSingle _ => (decodeVecSingleStruct insn).isSome
  | vecLiteral => fieldSize insn != 3
  | _ => true

/-- The body of a form on the fields of its word. -/
def body {β : Type} (port : BusPort β) (insn : U32) : MemForm → Exec β Unit :=
  let rt := fieldRt insn
  let rt2 := fieldRt2 insn
  let rn := fieldRn insn
  let rm := fieldRm insn
  let option := fieldOption insn
  let scaled := insn.getLsbD 12
  let regBytes := if insn.getLsbD 30 then 16 else 8
  fun form =>
    match form with
    | undefined => Exec.modifyCpu fun c => c.enterSyncException (c.pc - 4) 0 0 false 0
    | prefetch => pure ()
    | vecUnsigned isLoad size =>
      Exec.transferVecImm port isLoad .offset rn rt (imm12 insn * BitVec.ofNat 64 size) size
    | vecUnscaled isLoad size => Exec.transferVecImm port isLoad .offset rn rt (simm9 insn) size
    | vecIndexed isLoad mode size => Exec.transferVecImm port isLoad mode rn rt (simm9 insn) size
    | vecRegister isLoad size => Exec.transferVecReg port isLoad rn rm rt option scaled size
    | vecSingle postIndex =>
      match decodeVecSingleStruct insn with
      | none => pure ()
      | some d => Exec.transferVecSingle port d postIndex rn rm rt
    | vecMultiple isLoad interleaved postIndex regCount =>
      Exec.transferVecMultiple port isLoad interleaved postIndex rn rm rt regBytes regCount
    | vecPostPre isLoad mode size => Exec.postPreFp port isLoad mode rn rt (simm9 insn) size
    | vecPair isLoad mode size =>
      Exec.execFpPairTransfer port isLoad mode rn rt rt2 (imm7 insn * BitVec.ofNat 64 size) size
    | vecLiteral => Exec.literalVec port rn rt (imm19 insn) (4 <<< fieldSize insn)
    | loadUnprivileged ext size => Exec.loadUnprivileged port ext rn rt (simm9 insn) size
    | storeUnprivileged size => Exec.storeUnprivileged port rn rt (simm9 insn) size
    | load ext mode size => Exec.load port ext mode rn rt (simm9 insn) size
    | store mode size => Exec.store port mode rn rt (simm9 insn) size
    | loadUnsigned ext size =>
      Exec.load port ext .offset rn rt (imm12 insn * BitVec.ofNat 64 size) size
    | storeUnsigned size => Exec.store port .offset rn rt (imm12 insn * BitVec.ofNat 64 size) size
    | loadRegister ext size => Exec.loadReg port ext rn rm rt option scaled size
    | register =>
      let size := sizeOfCode (fieldSize insn)
      if insn.getLsbD 22 then Exec.loadReg port .zero rn rm rt option scaled size
      else Exec.storeReg port rn rm rt option scaled size
    | loadPair ext mode size =>
      Exec.loadPair port ext mode rn rt rt2 (imm7 insn * BitVec.ofNat 64 size) size
    | storePair mode size =>
      Exec.storePair port mode rn rt rt2 (imm7 insn * BitVec.ofNat 64 size) size
    | literal ext size => Exec.literal port ext rt (imm19 insn) size

end MemForm

/-! ## The tests, in order -/

abbrev MemFormCase := Pattern 32 × MemForm

def tests (mask : U32) (tags : List (U32 × MemForm)) : List MemFormCase :=
  tags.map fun tag => (⟨mask, tag.1⟩, tag.2)

/-- The SIMD&FP forms that come first. -/
def vecForms : List MemFormCase :=
  tests 0xFFC00000 [(0x3D800000, .vecUnsigned false 16), (0x3DC00000, .vecUnsigned true 16),
    (0x3D000000, .vecUnsigned false 1), (0x3D400000, .vecUnsigned true 1),
    (0x7D000000, .vecUnsigned false 2), (0x7D400000, .vecUnsigned true 2),
    (0xBD000000, .vecUnsigned false 4), (0xBD400000, .vecUnsigned true 4),
    (0xFD000000, .vecUnsigned false 8), (0xFD400000, .vecUnsigned true 8)] ++
  tests 0xFFC00C00 [(0x3C800C00, .vecIndexed false .pre 16), (0x3CC00C00, .vecIndexed true .pre 16),
    (0x3C800400, .vecIndexed false .post 16), (0x3CC00400, .vecIndexed true .post 16)] ++
  tests 0xFFE00C00 [(0x3C200800, .vecRegister false 1), (0x3C600800, .vecRegister true 1),
    (0x7C200800, .vecRegister false 2), (0x7C600800, .vecRegister true 2),
    (0xBC200800, .vecRegister false 4), (0xBC600800, .vecRegister true 4),
    (0xFC200800, .vecRegister false 8), (0xFC600800, .vecRegister true 8),
    (0x3CA00800, .vecRegister false 16), (0x3CE00800, .vecRegister true 16)] ++
  tests 0xFFC00C00 [(0x3C000000, .vecUnscaled false 1), (0x3C400000, .vecUnscaled true 1),
    (0x7C000000, .vecUnscaled false 2), (0x7C400000, .vecUnscaled true 2),
    (0x3C800000, .vecUnscaled false 16), (0x3CC00000, .vecUnscaled true 16),
    (0xBC000000, .vecUnscaled false 4), (0xBC400000, .vecUnscaled true 4),
    (0xFC000000, .vecUnscaled false 8), (0xFC400000, .vecUnscaled true 8)] ++
  tests 0xBF9F0000 [(0x0D000000, .vecSingle false)] ++
  tests 0xBF800000 [(0x0D800000, .vecSingle true)]

/-- LD1 to LD4 and ST1 to ST4 of whole registers; the opcode is in bits 15:12. -/
def vecMultipleForms (opcode : U32) (interleaved : Bool) (regCount : Nat) : List MemFormCase :=
  tests 0xBFFFFC00 [(0x0C400000 ||| opcode, .vecMultiple true interleaved false regCount),
    (0x0C000000 ||| opcode, .vecMultiple false interleaved false regCount)] ++
  tests 0xBFE0FC00 [(0x0CC00000 ||| opcode, .vecMultiple true interleaved true regCount),
    (0x0C800000 ||| opcode, .vecMultiple false interleaved true regCount)]

/-- LDTR, STTR and PRFM. -/
def unprivilegedForms : List MemFormCase :=
  tests 0xFFE00C00 [(0x38400800, .loadUnprivileged .zero 1),
    (0x38C00800, .loadUnprivileged .sign32 1), (0x38800800, .loadUnprivileged .sign64 1),
    (0x78400800, .loadUnprivileged .zero 2), (0x78C00800, .loadUnprivileged .sign32 2),
    (0x78800800, .loadUnprivileged .sign64 2), (0xB8400800, .loadUnprivileged .zero 4),
    (0xB8800800, .loadUnprivileged .sign64 4), (0xF8400800, .loadUnprivileged .zero 8),
    (0x38000800, .storeUnprivileged 1), (0x78000800, .storeUnprivileged 2),
    (0xB8000800, .storeUnprivileged 4), (0xF8000800, .storeUnprivileged 8)] ++
  tests 0xFF000000 [(0xD8000000, .prefetch)] ++
  tests 0xFFC00000 [(0xF9800000, .prefetch)] ++
  tests 0xFFE00C00 [(0xF8A00800, .prefetch), (0xF8800000, .prefetch)]

/-- The forms with a register offset, and the literals. -/
def registerForms : List MemFormCase :=
  tests 0xFFE00C00 [(0x38E00800, .loadRegister .sign32 1), (0x38A00800, .loadRegister .sign64 1),
    (0x78E00800, .loadRegister .sign32 2), (0x78A00800, .loadRegister .sign64 2),
    (0xB8A00800, .loadRegister .sign64 4)] ++
  tests 0x3FE00C00 [(0x38200800, .register), (0x38600800, .register)] ++
  tests 0xFF000000 [(0x58000000, .literal .zero 8), (0x18000000, .literal .zero 4),
    (0x98000000, .literal .sign64 4)] ++
  tests 0x3F000000 [(0x1C000000, .vecLiteral)]

/-- The forms with a signed offset of nine bits. -/
def indexedForms : List MemFormCase :=
  tests 0xFFC00C00 [(0x38400400, .load .zero .post 1), (0x38000400, .store .post 1),
    (0x38400C00, .load .zero .pre 1), (0x38000C00, .store .pre 1),
    (0x78400400, .load .zero .post 2), (0x78000400, .store .post 2),
    (0x78400C00, .load .zero .pre 2), (0x78000C00, .store .pre 2),
    (0xB8400400, .load .zero .post 4), (0xB8000400, .store .post 4),
    (0xB8400C00, .load .zero .pre 4), (0xB8000C00, .store .pre 4),
    (0xF8400400, .load .zero .post 8), (0xF8000400, .store .post 8),
    (0xF8400C00, .load .zero .pre 8), (0xF8000C00, .store .pre 8),
    (0xBC400400, .vecPostPre true .post 4), (0xBC000400, .vecPostPre false .post 4),
    (0xBC400C00, .vecPostPre true .pre 4), (0xBC000C00, .vecPostPre false .pre 4),
    (0x3C400400, .vecPostPre true .post 1), (0x3C000400, .vecPostPre false .post 1),
    (0x3C400C00, .vecPostPre true .pre 1), (0x3C000C00, .vecPostPre false .pre 1),
    (0x7C400400, .vecPostPre true .post 2), (0x7C000400, .vecPostPre false .post 2),
    (0x7C400C00, .vecPostPre true .pre 2), (0x7C000C00, .vecPostPre false .pre 2),
    (0xFC400400, .vecPostPre true .post 8), (0xFC000400, .vecPostPre false .post 8),
    (0xFC400C00, .vecPostPre true .pre 8), (0xFC000C00, .vecPostPre false .pre 8)] ++
  tests 0xFFE00C00 [(0x38C00400, .load .sign32 .post 1), (0x38800400, .load .sign64 .post 1),
    (0x38C00C00, .load .sign32 .pre 1), (0x38800C00, .load .sign64 .pre 1),
    (0x78C00400, .load .sign32 .post 2), (0x78800400, .load .sign64 .post 2),
    (0x78C00C00, .load .sign32 .pre 2), (0x78800C00, .load .sign64 .pre 2)] ++
  tests 0xFFC00C00 [(0xF8400000, .load .zero .offset 8), (0x38400000, .load .zero .offset 1),
    (0x38C00000, .load .sign32 .offset 1), (0x38800000, .load .sign64 .offset 1),
    (0x38000000, .store .offset 1), (0x78400000, .load .zero .offset 2),
    (0x78C00000, .load .sign32 .offset 2), (0x78800000, .load .sign64 .offset 2),
    (0x78000000, .store .offset 2), (0xF8000000, .store .offset 8),
    (0xB8400000, .load .zero .offset 4), (0xB8000000, .store .offset 4),
    (0x7C800C00, .vecPostPre false .pre 8), (0x7CC00C00, .vecPostPre true .pre 8),
    (0x7C800400, .vecPostPre false .post 8), (0x7CC00400, .vecPostPre true .post 8)]

/-- The pairs and the forms with an unsigned offset. -/
def pairForms : List MemFormCase :=
  tests 0xFFC00000 [(0x2D800000, .vecPair false .pre 4), (0x2C800000, .vecPair false .post 4),
    (0x2D000000, .vecPair false .offset 4), (0x2C000000, .vecPair false .offset 4),
    (0x2DC00000, .vecPair true .pre 4), (0x2CC00000, .vecPair true .post 4),
    (0x2D400000, .vecPair true .offset 4), (0x2C400000, .vecPair true .offset 4),
    (0x6D800000, .vecPair false .pre 8), (0x6C800000, .vecPair false .post 8),
    (0x6D000000, .vecPair false .offset 8), (0x6C000000, .vecPair false .offset 8),
    (0x6DC00000, .vecPair true .pre 8), (0x6CC00000, .vecPair true .post 8),
    (0x6D400000, .vecPair true .offset 8), (0x6C400000, .vecPair true .offset 8),
    (0xAD800000, .vecPair false .pre 16), (0xAC800000, .vecPair false .post 16),
    (0xAD000000, .vecPair false .offset 16), (0xAC000000, .vecPair false .offset 16),
    (0xADC00000, .vecPair true .pre 16), (0xACC00000, .vecPair true .post 16),
    (0xAD400000, .vecPair true .offset 16), (0xAC400000, .vecPair true .offset 16),
    (0xA9800000, .storePair .pre 8), (0x29800000, .storePair .pre 4),
    (0xA8800000, .storePair .post 8), (0x28800000, .storePair .post 4),
    (0xA9000000, .storePair .offset 8), (0xA8000000, .storePair .offset 8),
    (0x29000000, .storePair .offset 4), (0x28000000, .storePair .offset 4),
    (0xA9C00000, .loadPair .zero .pre 8), (0x29C00000, .loadPair .zero .pre 4),
    (0xA8C00000, .loadPair .zero .post 8), (0x28C00000, .loadPair .zero .post 4),
    (0xA9400000, .loadPair .zero .offset 8), (0xA8400000, .loadPair .zero .offset 8),
    (0x29400000, .loadPair .zero .offset 4), (0x28400000, .loadPair .zero .offset 4),
    (0x69C00000, .loadPair .sign64 .pre 4), (0x68C00000, .loadPair .sign64 .post 4),
    (0x69400000, .loadPair .sign64 .offset 4),
    (0xF9400000, .loadUnsigned .zero 8), (0xF9000000, .storeUnsigned 8),
    (0xB9400000, .loadUnsigned .zero 4), (0xB9800000, .loadUnsigned .sign64 4)] ++
  tests 0xFFC00C00 [(0xB8800000, .load .sign64 .offset 4), (0xB8800C00, .load .sign64 .pre 4),
    (0xB8800400, .load .sign64 .post 4)] ++
  tests 0xFFC00000 [(0xB9000000, .storeUnsigned 4), (0x39C00000, .loadUnsigned .sign32 1),
    (0x39800000, .loadUnsigned .sign64 1), (0x79C00000, .loadUnsigned .sign32 2),
    (0x79800000, .loadUnsigned .sign64 2), (0x39400000, .loadUnsigned .zero 1),
    (0x39000000, .storeUnsigned 1), (0x79400000, .loadUnsigned .zero 2),
    (0x79000000, .storeUnsigned 2)]

/-- The tests of `exec_load_store` that lead elsewhere than to the exclusives, in its order. -/
def memFormCases : List MemFormCase :=
  tests 0xFF200400 [(0xF8200400, .undefined)] ++ vecForms ++
  vecMultipleForms 0x7000 false 1 ++ vecMultipleForms 0xA000 false 2 ++
  vecMultipleForms 0x6000 false 3 ++ vecMultipleForms 0x2000 false 4 ++
  vecMultipleForms 0x8000 true 2 ++ vecMultipleForms 0x4000 true 3 ++
  vecMultipleForms 0x0000 true 4 ++ unprivilegedForms ++
  formsBetween.map (fun c => (c.1, .undefined)) ++ registerForms ++ indexedForms ++ pairForms

def decodeMemForm (insn : U32) : Option MemForm := Pattern.decode memFormCases insn

namespace VecCore

variable {β : Type} (port : BusPort β)

def execMemForm (insn : U32) (s : VecCore β) : Bool × VecCore β :=
  match decodeMemForm insn with
  | none => (false, s)
  | some form =>
    if form.allocated insn then (true, (form.body port insn).finish s) else (false, s)

/-- `exec_load_store`, with nothing left elsewhere. -/
def execLoadStore (insn : U32) (s : VecCore β) : Bool × VecCore β :=
  match decodeLoadStore insn with
  | none => (false, s)
  | some .elsewhere => s.execMemForm port insn
  | some op =>
    let (taken, core) := s.core.execOp port (fun _ core => (false, core)) insn op
    (taken, s.setCore core)

end VecCore
end Aarchvm
