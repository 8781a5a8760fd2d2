import Aarchvm.Cpu.Monitor
import Aarchvm.Cpu.Tlbi
import Aarchvm.Lib.Pattern

/-!
# Decoding of exclusive and atomic accesses

`exec_load_store` tests a word against masks and tags in order. Every test of the
function is listed; those of other classes lead `elsewhere`. Against it stands the A64
table of the class with bits 29:24 = 001000, read off the fields of the word.
Acquire and release have no effect of their own here, so the flags are not kept.
-/
namespace Aarchvm

open Lib

/-! ## The fields of a word -/

def fieldRt (insn : U32) : Nat := (insn &&& 0x1F).toNat
def fieldRn (insn : U32) : Nat := ((insn >>> 5) &&& 0x1F).toNat
def fieldRt2 (insn : U32) : Nat := ((insn >>> 10) &&& 0x1F).toNat
def fieldRs (insn : U32) : Nat := ((insn >>> 16) &&& 0x1F).toNat
def fieldSize (insn : U32) : Nat := (insn >>> 30).toNat

/-- The function of an atomic read-modify-write. -/
inductive AtomicFn where
  | swp | add | clr | eor | set
  deriving DecidableEq, Repr

/-- What `exec_load_store` does with a word: one of the bodies modelled here, or the rest
of the function. -/
inductive LoadStoreOp where
  | ldxr (size : Nat)
  | stxr (size : Nat)
  | ldxp (elemSize : Nat)
  | stxp (elemSize : Nat)
  | casp (elemSize : Nat)
  | cas (size : Nat)
  | rmw (fn : AtomicFn) (size : Nat)
  | ldar (size : Nat)
  | stlr (size : Nat)
  | elsewhere
  deriving DecidableEq, Repr

/-! ## Bodies -/

namespace Cpu

/-- `reg` for an access of eight bytes, `reg32` for a narrower one. -/
def regSized (c : Cpu) (i size : Nat) : U64 :=
  if size = 8 then c.reg i else ((c.reg i).setWidth 32).setWidth 64

end Cpu

/-- `mask` of the atomics. -/
def operandMask (size : Nat) : U64 := if size = 8 then ~~~0 else 0xFFFFFFFF

/-- The switch over the tag of an atomic. -/
def AtomicFn.apply (old src mask : U64) : AtomicFn → U64
  | swp => src
  | add => (old + src) &&& mask
  | clr => old &&& (~~~src &&& mask)
  | eor => (old ^^^ src) &&& mask
  | set => (old ||| src) &&& mask

namespace Core

variable {β : Type} (port : BusPort β)

/-- CASP and its variants; here and below the flag is false when an access failed. -/
def compareAndSwapPair (s : Core β) (rs rt rn elemSize : Nat) : Bool × Core β :=
  let mask := operandMask elemSize
  let addr := s.cpu.spOrReg rn
  match s.cpu.maybeTakeSpAlignmentFault rn with
  | some c => (false, s.setCpu c)
  | none =>
    match s.cpu.maybeTakeDataAlignmentFault (port.readDesc s.bus) (port.hasRam s.bus) addr
        (elemSize * 2) .read true with
    | some c => (false, s.setCpu c)
    | none =>
      match s.mmuRead port rn addr elemSize true with
      | (none, s₁) => (false, s₁.dataAbort addr)
      | (some oldLo, s₁) =>
        match s₁.mmuRead port rn (addr + BitVec.ofNat 64 elemSize) elemSize true with
        | (none, s₂) => (false, s₂.dataAbort addr)
        | (some oldHi, s₂) =>
          let oldLo := oldLo &&& mask
          let oldHi := oldHi &&& mask
          let compareLo := s₂.cpu.regSized rs elemSize &&& mask
          let compareHi := s₂.cpu.regSized (rs + 1) elemSize &&& mask
          let desiredLo := s₂.cpu.regSized rt elemSize &&& mask
          let desiredHi := s₂.cpu.regSized (rt + 1) elemSize &&& mask
          let stored :=
            if oldLo = compareLo ∧ oldHi = compareHi then
              s₂.rawMmuWritePairAtomic port addr desiredLo desiredHi elemSize
            else (true, s₂)
          match stored with
          | (false, s₃) => (false, s₃.dataAbort addr)
          | (true, s₃) =>
            (true, s₃.setCpu
              ((s₃.cpu.setRegSized rs oldLo elemSize).setRegSized (rs + 1) oldHi elemSize))

/-- CAS and its variants. -/
def compareAndSwap (s : Core β) (rs rt rn size : Nat) : Bool × Core β :=
  let mask := operandMask size
  let addr := s.cpu.spOrReg rn
  match s.mmuRead port rn addr size true with
  | (none, s₁) => (false, s₁.dataAbort addr)
  | (some old, s₁) =>
    let old := old &&& mask
    let compare := s₁.cpu.regSized rs size &&& mask
    let desired := s₁.cpu.regSized rt size &&& mask
    let stored :=
      if old = compare then s₁.mmuWrite port rn addr desired size .write true else (true, s₁)
    match stored with
    | (false, s₂) => (false, s₂.dataAbort addr)
    | (true, s₂) => (true, s₂.setCpu (s₂.cpu.setRegSized rs old size))

/-- SWP, LDADD, LDCLR, LDEOR, LDSET and their variants. -/
def atomicRmw (s : Core β) (fn : AtomicFn) (rs rt rn size : Nat) : Bool × Core β :=
  let mask := operandMask size
  let addr := s.cpu.spOrReg rn
  match s.mmuRead port rn addr size true with
  | (none, s₁) => (false, s₁.dataAbort addr)
  | (some old, s₁) =>
    let old := old &&& mask
    let src := s₁.cpu.regSized rs size &&& mask
    match s₁.mmuWrite port rn addr (fn.apply old src mask) size .write true with
    | (false, s₂) => (false, s₂.dataAbort addr)
    | (true, s₂) => (true, s₂.setCpu (s₂.cpu.setRegSized rt old size))

/-- LDAR and its variants. -/
def loadAcquire (s : Core β) (rt rn size : Nat) : Bool × Core β :=
  let addr := s.cpu.spOrReg rn
  match s.mmuRead port rn addr size true with
  | (none, s₁) => (false, s₁.dataAbort addr)
  | (some value, s₁) => (true, s₁.setCpu (s₁.cpu.setRegSized rt value size))

/-- STLR and its variants. -/
def storeRelease (s : Core β) (rt rn size : Nat) : Bool × Core β :=
  let addr := s.cpu.spOrReg rn
  match s.mmuWrite port rn addr (s.cpu.regSized rt size) size .write true with
  | (false, s₁) => (false, s₁.dataAbort addr)
  | (true, s₁) => (true, s₁)

/-- The rest of `exec_load_store`, from the first test of another class that matches. -/
abbrev Elsewhere (β : Type) := U32 → Core β → Bool × Core β

/-- One body on the fields of its word; the flag is the result of `exec_load_store`. -/
def execOp (other : Elsewhere β) (insn : U32) (s : Core β) : LoadStoreOp → Bool × Core β
  | .ldxr size =>
    (true, (s.loadExclusive port (fieldRt insn) (fieldRn insn) (s.cpu.spOrReg (fieldRn insn))
      size).2)
  | .stxr size =>
    (true, (s.storeExclusive port (fieldRs insn) (fieldRn insn) (s.cpu.spOrReg (fieldRn insn))
      (s.cpu.regSized (fieldRt insn) size) size).2)
  | .ldxp elemSize =>
    (true, (s.loadExclusivePair port (fieldRt insn) (fieldRt2 insn) (fieldRn insn)
      (s.cpu.spOrReg (fieldRn insn)) elemSize).2)
  | .stxp elemSize =>
    (true, (s.storeExclusivePair port (fieldRs insn) (fieldRn insn)
      (s.cpu.spOrReg (fieldRn insn)) (s.cpu.regSized (fieldRt insn) elemSize)
      (s.cpu.regSized (fieldRt2 insn) elemSize) elemSize).2)
  | .casp elemSize =>
    (true, (s.compareAndSwapPair port (fieldRs insn) (fieldRt insn) (fieldRn insn) elemSize).2)
  | .cas size =>
    (true, (s.compareAndSwap port (fieldRs insn) (fieldRt insn) (fieldRn insn) size).2)
  | .rmw fn size =>
    (true, (s.atomicRmw port fn (fieldRs insn) (fieldRt insn) (fieldRn insn) size).2)
  | .ldar size => (true, (s.loadAcquire port (fieldRt insn) (fieldRn insn) size).2)
  | .stlr size => (true, (s.storeRelease port (fieldRt insn) (fieldRn insn) size).2)
  | .elsewhere => other insn s

end Core

/-! ## The tests, in order -/

/-- A test and what it leads to, by the size field of the word. -/
abbrev LoadStoreCase := Pattern 32 × (Nat → LoadStoreOp)

def elsewhere (mask : U32) (tags : List U32) : List LoadStoreCase :=
  tags.map fun tag => (⟨mask, tag⟩, fun _ => .elsewhere)

/-- `(size_code == 0u) ? 1u : (size_code == 1u) ? 2u : (size_code == 2u) ? 4u : 8u`. -/
def sizeOfCode (code : Nat) : Nat :=
  if code = 0 then 1 else if code = 1 then 2 else if code = 2 then 4 else 8

/-- `((insn >> 30) & 0x1u) != 0u ? 8u : 4u`. -/
def elemSizeOfCode (code : Nat) : Nat := if code % 2 ≠ 0 then 8 else 4

/-- The tests before the load-exclusives: LDRAA, SIMD&FP, LDTR and STTR, PRFM. -/
def formsBefore : List LoadStoreCase :=
  elsewhere 0xFF200400 [0xF8200400] ++
  elsewhere 0xFFC00000 [0x3D800000, 0x3DC00000, 0x3D000000, 0x3D400000, 0x7D000000, 0x7D400000,
    0xBD000000, 0xBD400000, 0xFD000000, 0xFD400000] ++
  elsewhere 0xFFC00C00 [0x3C800C00, 0x3CC00C00, 0x3C800400, 0x3CC00400] ++
  elsewhere 0xFFE00C00 [0x3C200800, 0x3C600800, 0x7C200800, 0x7C600800, 0xBC200800, 0xBC600800,
    0xFC200800, 0xFC600800, 0x3CA00800, 0x3CE00800] ++
  elsewhere 0xFFC00C00 [0x3C000000, 0x3C400000, 0x7C000000, 0x7C400000, 0x3C800000, 0x3CC00000,
    0xBC000000, 0xBC400000, 0xFC000000, 0xFC400000] ++
  elsewhere 0xBF9F0000 [0x0D000000] ++
  elsewhere 0xBF800000 [0x0D800000] ++
  elsewhere 0xBFFFFC00 [0x0C407000, 0x0C007000] ++
  elsewhere 0xBFE0FC00 [0x0CC07000, 0x0C807000] ++
  elsewhere 0xBFFFFC00 [0x0C40A000, 0x0C00A000] ++
  elsewhere 0xBFE0FC00 [0x0CC0A000, 0x0C80A000] ++
  elsewhere 0xBFFFFC00 [0x0C406000, 0x0C006000] ++
  elsewhere 0xBFE0FC00 [0x0CC06000, 0x0C806000] ++
  elsewhere 0xBFFFFC00 [0x0C402000, 0x0C002000] ++
  elsewhere 0xBFE0FC00 [0x0CC02000, 0x0C802000] ++
  elsewhere 0xBFFFFC00 [0x0C408000, 0x0C008000] ++
  elsewhere 0xBFE0FC00 [0x0CC08000, 0x0C808000] ++
  elsewhere 0xBFFFFC00 [0x0C404000, 0x0C004000] ++
  elsewhere 0xBFE0FC00 [0x0CC04000, 0x0C804000] ++
  elsewhere 0xBFFFFC00 [0x0C400000, 0x0C000000] ++
  elsewhere 0xBFE0FC00 [0x0CC00000, 0x0C800000] ++
  elsewhere 0xFFE00C00 [0x38400800, 0x38C00800, 0x38800800, 0x78400800, 0x78C00800, 0x78800800,
    0xB8400800, 0xB8800800, 0xF8400800, 0x38000800, 0x78000800, 0xB8000800, 0xF8000800] ++
  elsewhere 0xFF000000 [0xD8000000] ++
  elsewhere 0xFFC00000 [0xF9800000] ++
  elsewhere 0xFFE00C00 [0xF8A00800, 0xF8800000]

/-- The tests between LDAR and LDXP: LDAPR, LDAPUR and LD64B, which are UNDEFINED. -/
def formsBetween : List LoadStoreCase :=
  elsewhere 0xFFE0FC00 [0x38A0C000, 0x78A0C000, 0xB8A0C000, 0xF8A0C000] ++
  elsewhere 0xFFE00C00 [0x19400000, 0x19C00000, 0x19800000, 0x59400000, 0x59C00000, 0x59800000,
    0x99400000, 0x99800000, 0x19000000, 0x59000000, 0x99000000] ++
  elsewhere 0xFFE0FC00 [0xF820D000, 0xF8209000, 0xF820B000, 0xF820A000]

/-- The tests after LDXP: the other loads and stores. -/
def formsAfter : List LoadStoreCase :=
  elsewhere 0xFFE00C00 [0x38E00800, 0x38A00800, 0x78E00800, 0x78A00800, 0xB8A00800] ++
  elsewhere 0x3FE00C00 [0x38200800, 0x38600800] ++
  elsewhere 0xFF000000 [0x58000000, 0x18000000, 0x98000000] ++
  elsewhere 0x3F000000 [0x1C000000] ++
  elsewhere 0xFFC00C00 [0x38400400, 0x38000400, 0x38400C00, 0x38000C00, 0x78400400, 0x78000400,
    0x78400C00, 0x78000C00, 0xB8400400, 0xB8000400, 0xB8400C00, 0xB8000C00, 0xF8400400,
    0xF8000400, 0xF8400C00, 0xF8000C00, 0xBC400400, 0xBC000400, 0xBC400C00, 0xBC000C00,
    0x3C400400, 0x3C000400, 0x3C400C00, 0x3C000C00, 0x7C400400, 0x7C000400, 0x7C400C00,
    0x7C000C00, 0xFC400400, 0xFC000400, 0xFC400C00, 0xFC000C00] ++
  elsewhere 0xFFE00C00 [0x38C00400, 0x38800400, 0x38C00C00, 0x38800C00, 0x78C00400, 0x78800400,
    0x78C00C00, 0x78800C00] ++
  elsewhere 0xFFC00C00 [0xF8400000, 0x38400000, 0x38C00000, 0x38800000, 0x38000000, 0x78400000,
    0x78C00000, 0x78800000, 0x78000000, 0xF8000000, 0xB8400000, 0xB8000000, 0x7C800C00,
    0x7CC00C00, 0x7C800400, 0x7CC00400] ++
  elsewhere 0xFFC00000 [0x2D800000, 0x2C800000, 0x2D000000, 0x2C000000, 0x2DC00000, 0x2CC00000,
    0x2D400000, 0x2C400000, 0x6D800000, 0x6C800000, 0x6D000000, 0x6C000000, 0x6DC00000,
    0x6CC00000, 0x6D400000, 0x6C400000, 0xAD800000, 0xAC800000, 0xAD000000, 0xAC000000,
    0xADC00000, 0xACC00000, 0xAD400000, 0xAC400000, 0xA9800000, 0x29800000, 0xA8800000,
    0x28800000, 0xA9000000, 0xA8000000, 0x29000000, 0x28000000, 0xA9C00000, 0x29C00000,
    0xA8C00000, 0x28C00000, 0xA9400000, 0xA8400000, 0x29400000, 0x28400000, 0x69C00000,
    0x68C00000, 0x69400000, 0xF9400000, 0xF9000000, 0xB9400000, 0xB9800000] ++
  elsewhere 0xFFC00C00 [0xB8800000, 0xB8800C00, 0xB8800400] ++
  elsewhere 0xFFC00000 [0xB9000000, 0x39C00000, 0x39800000, 0x79C00000, 0x79800000, 0x39400000,
    0x39000000, 0x79400000, 0x79000000]

/-- LDXR and STXR. -/
def formsSingle : List LoadStoreCase :=
  [(⟨0xFFE0FC00, 0x08407C00⟩, fun _ => .ldxr 1), (⟨0xFFE0FC00, 0x0840FC00⟩, fun _ => .ldxr 1),
   (⟨0xFFE0FC00, 0x48407C00⟩, fun _ => .ldxr 2), (⟨0xFFE0FC00, 0x4840FC00⟩, fun _ => .ldxr 2),
   (⟨0xFFE0FC00, 0x88407C00⟩, fun _ => .ldxr 4), (⟨0xFFE0FC00, 0x8840FC00⟩, fun _ => .ldxr 4),
   (⟨0xFFE0FC00, 0xC8407C00⟩, fun _ => .ldxr 8), (⟨0xFFE0FC00, 0xC840FC00⟩, fun _ => .ldxr 8),
   (⟨0xFFE0FC00, 0x08007C00⟩, fun _ => .stxr 1), (⟨0xFFE0FC00, 0x0800FC00⟩, fun _ => .stxr 1),
   (⟨0xFFE0FC00, 0x48007C00⟩, fun _ => .stxr 2), (⟨0xFFE0FC00, 0x4800FC00⟩, fun _ => .stxr 2),
   (⟨0xFFE0FC00, 0x88007C00⟩, fun _ => .stxr 4), (⟨0xFFE0FC00, 0x8800FC00⟩, fun _ => .stxr 4),
   (⟨0xFFE0FC00, 0xC8007C00⟩, fun _ => .stxr 8), (⟨0xFFE0FC00, 0xC800FC00⟩, fun _ => .stxr 8)]

/-- CASP and CAS. -/
def formsCompare : List LoadStoreCase :=
  [(⟨0x3FA07C00, 0x08207C00⟩, fun code => .casp (elemSizeOfCode code)),
   (⟨0x3FA07C00, 0x08A07C00⟩, fun code => .cas (sizeOfCode code))]

/-- SWP, LDADD, LDCLR, LDEOR and LDSET. -/
def formsRmw : List LoadStoreCase :=
  [(⟨0x3F20FC00, 0x38208000⟩, fun code => .rmw .swp (sizeOfCode code)),
   (⟨0x3F20FC00, 0x38200000⟩, fun code => .rmw .add (sizeOfCode code)),
   (⟨0x3F20FC00, 0x38201000⟩, fun code => .rmw .clr (sizeOfCode code)),
   (⟨0x3F20FC00, 0x38202000⟩, fun code => .rmw .eor (sizeOfCode code)),
   (⟨0x3F20FC00, 0x38203000⟩, fun code => .rmw .set (sizeOfCode code))]

/-- LDAR and STLR. -/
def formsOrdered : List LoadStoreCase :=
  [(⟨0xFFE0FC00, 0x08C0FC00⟩, fun _ => .ldar 1), (⟨0xFFE0FC00, 0x48C0FC00⟩, fun _ => .ldar 2),
   (⟨0xFFE0FC00, 0x88C0FC00⟩, fun _ => .ldar 4), (⟨0xFFE0FC00, 0xC8C0FC00⟩, fun _ => .ldar 8),
   (⟨0xFFE0FC00, 0x0880FC00⟩, fun _ => .stlr 1), (⟨0xFFE0FC00, 0x4880FC00⟩, fun _ => .stlr 2),
   (⟨0xFFE0FC00, 0x8880FC00⟩, fun _ => .stlr 4), (⟨0xFFE0FC00, 0xC880FC00⟩, fun _ => .stlr 8)]

/-- LDXP and STXP. -/
def formsPair : List LoadStoreCase :=
  [(⟨0xFFE08000, 0x88600000⟩, fun _ => .ldxp 4), (⟨0xFFE08000, 0x88608000⟩, fun _ => .ldxp 4),
   (⟨0xFFE08000, 0x88200000⟩, fun _ => .stxp 4), (⟨0xFFE08000, 0x88208000⟩, fun _ => .stxp 4),
   (⟨0xFFE08000, 0xC8600000⟩, fun _ => .ldxp 8), (⟨0xFFE08000, 0xC8608000⟩, fun _ => .ldxp 8),
   (⟨0xFFE08000, 0xC8200000⟩, fun _ => .stxp 8), (⟨0xFFE08000, 0xC8208000⟩, fun _ => .stxp 8)]

/-- The tests of `exec_load_store` in its order. -/
def loadStoreCases : List LoadStoreCase :=
  formsBefore ++ formsSingle ++ formsCompare ++ formsRmw ++ formsOrdered ++ formsBetween ++
    formsPair ++ formsAfter

def decodeLoadStore (insn : U32) : Option LoadStoreOp :=
  (Pattern.decode loadStoreCases insn).map fun op => op (fieldSize insn)

namespace Core

variable {β : Type} (port : BusPort β)

/-- `exec_load_store`. -/
def execLoadStore (other : Elsewhere β) (insn : U32) (s : Core β) : Bool × Core β :=
  match decodeLoadStore insn with
  | some op => s.execOp port other insn op
  | none => (false, s)

/-- `enter_sync_exception(pc, 0x00, 0, false, 0)`. -/
def undefined (s : Core β) : Core β :=
  s.setCpu (s.cpu.enterSyncException (s.cpu.pc - 4) 0 0 false 0)

/-- The end of `step`: a word that nothing takes is UNDEFINED. -/
def stepLoadStore (other : Elsewhere β) (insn : U32) (s : Core β) : Core β :=
  match s.execLoadStore port other insn with
  | (true, s') => s'
  | (false, s') => s'.undefined

end Core

end Aarchvm
