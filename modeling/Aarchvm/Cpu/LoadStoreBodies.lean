import Aarchvm.Cpu.LoadStore
import Aarchvm.Cpu.Vector
import Aarchvm.Lib.Stopping

/-!
# The other loads and stores

What `exec_load_store` does with the words that are no exclusives, atomics or ordered accesses: the
lambdas of the function and the bodies made of them. A body stops at the first access that fails,
with the address that goes to `data_abort`, or where an alignment check has entered its exception.
-/
namespace Aarchvm

open Lib

/-- `vector_get_elem`. -/
def vectorGetElem (qreg : QReg) (esizeBits index : Nat) : U64 :=
  vectorGetBits qreg (esizeBits * index) esizeBits

/-- `vector_set_elem`. -/
def vectorSetElem (qreg : QReg) (esizeBits index : Nat) (value : U64) : QReg :=
  vectorSetBits qreg (esizeBits * index) esizeBits value

/-! ## Registers -/

namespace Cpu

variable (c : Cpu)

/-- The value that a store of `size` bytes takes from its register. -/
def storeValue (rt size : Nat) : U64 :=
  if size = 8 then c.reg rt
  else if size = 4 then (c.reg32 rt).setWidth 64
  else if size = 2 then (c.reg32 rt).setWidth 64 &&& 0xFFFF
  else (c.reg32 rt).setWidth 64 &&& 0xFF

/-- The destination of a zero-extending load of `size` bytes. -/
def setLoaded (rt : Nat) (value : U64) (size : Nat) : Cpu :=
  if size = 8 then c.setReg rt value else c.setReg32 rt ((value &&& ones (8 * size)).setWidth 32)

/-- The destination of a sign-extending load of `size` bytes. -/
def setSigned (rt : Nat) (value : U64) (size : Nat) (dest64 : Bool) : Cpu :=
  let sx := signExtend (value &&& ones (8 * size)) (8 * size)
  if dest64 then c.setReg rt sx else c.setReg32 rt (sx.setWidth 32)

/-- The offset of a register form: UXTW, SXTW, or the whole register. -/
def offsetReg (rm option : Nat) : U64 :=
  if option = 2 then (c.reg32 rm).setWidth 64
  else if option = 6 then signExtend ((c.reg32 rm).setWidth 64) 32
  else c.reg rm

end Cpu

/-! ## What the forms differ in -/

/-- How a form with an immediate uses its base register. -/
inductive IndexMode where
  | offset | pre | post
  deriving DecidableEq, Repr

/-- The address of the access. -/
def IndexMode.addr (mode : IndexMode) (base imm : U64) : U64 :=
  match mode with
  | .post => base
  | _ => base + imm

/-- The destination of a load: zero-extended, or sign-extended to 32 or 64 bits. -/
inductive LoadExtend where
  | zero | sign32 | sign64
  deriving DecidableEq, Repr

def LoadExtend.apply (ext : LoadExtend) (c : Cpu) (rt : Nat) (value : U64) (size : Nat) : Cpu :=
  match ext with
  | .zero => c.setLoaded rt value size
  | .sign32 => c.setSigned rt value size false
  | .sign64 => c.setSigned rt value size true

/-- The destination of an unprivileged load: a zero-extending one of one or two bytes takes the
low 32 bits of what the bus returned, where the other loads mask them to the access. -/
def LoadExtend.applyUnprivileged (ext : LoadExtend) (c : Cpu) (rt : Nat) (value : U64)
    (size : Nat) :
    Cpu :=
  match ext with
  | .zero => if size = 8 then c.setReg rt value else c.setReg32 rt (value.setWidth 32)
  | .sign32 => c.setSigned rt value size false
  | .sign64 => c.setSigned rt value size true

/-- The two agree on a bus that returns no more than the bytes of the access. -/
theorem LoadExtend.applyUnprivileged_of_narrow (ext : LoadExtend) (c : Cpu) (rt : Nat) {value : U64}
    {size : Nat} (hnarrow : value &&& ones (8 * size) = value) :
    ext.applyUnprivileged c rt value size = ext.apply c rt value size := by
  cases ext with
  | zero => rw [applyUnprivileged, apply, Cpu.setLoaded, hnarrow]
  | sign32 => rfl
  | sign64 => rfl

/-- What `decode_vec_single_struct` reads off a word. -/
structure SingleStruct where
  isLoad : Bool
  replicate : Bool
  regCount : Nat
  esizeBits : Nat
  laneIndex : Nat
  datasizeBits : Nat
  deriving DecidableEq, Repr

/-! ## Accesses -/

/-- A CPU with its vector registers, and the bus. -/
structure VecCore (β : Type) where
  core : Core β
  qregs : Nat → QReg

/-- Why a body stops: an alignment check entered its exception and the body returns, or an
access failed and the body calls `data_abort(va)`. -/
inductive Stop where
  | raised
  | failed (va : U64)
  deriving DecidableEq, Repr

abbrev Exec (β α : Type) := Stopping (VecCore β) Stop α

namespace VecCore

variable {β : Type} (s : VecCore β)

def cpu : Cpu := s.core.cpu

def setCpu (c : Cpu) : VecCore β := { s with core := s.core.setCpu c }

def setCore (core : Core β) : VecCore β := { s with core := core }

/-- Write `count` vector registers from `vt` on, wrapping at 31. -/
def setQregs (vt count : Nat) (regs : Nat → QReg) : VecCore β :=
  { s with
    qregs := (List.range count).foldl (fun q i => Function.update q ((vt + i) % 32) (regs i))
      s.qregs }

end VecCore

namespace Exec

variable {β : Type}

def cpu : Exec β Cpu := Stopping.read VecCore.cpu

def modifyCpu (f : Cpu → Cpu) : Exec β Unit := Stopping.modify fun s => s.setCpu (f s.cpu)

def qregs : Exec β (Nat → QReg) := Stopping.read VecCore.qregs

def setQreg (i : Nat) (q : QReg) : Exec β Unit := Stopping.modify (·.setQregs i 1 fun _ => q)

/-- `data_abort(va)` when an access fails. -/
def failingAt {α : Type} (va : U64) (m : Exec β α) : Exec β α :=
  m.mapStop fun _ e =>
    match e with
    | .raised => .raised
    | .failed _ => .failed va

/-- `data_abort(last_data_fault_va_.value_or(va))` when an access fails. -/
def failingAtFault {α : Type} (va : U64) (m : Exec β α) : Exec β α :=
  m.mapStop fun s e =>
    match e with
    | .raised => .raised
    | .failed _ => .failed (s.cpu.lastDataFaultVa.getD va)

/-- `maybe_take_sp_alignment_fault`. -/
def checkSpAlignment (rn : Nat) : Exec β Unit := fun s =>
  match s.cpu.maybeTakeSpAlignmentFault rn with
  | some c => (.error .raised, s.setCpu c)
  | none => (.ok (), s)

variable (port : BusPort β)

/-- `maybe_take_data_alignment_fault`. -/
def checkDataAlignment (va : U64) (size : Nat) (access : AccessType) : Exec β Unit := fun s =>
  match s.cpu.maybeTakeDataAlignmentFault (port.readDesc s.core.bus) (port.hasRam s.core.bus) va
      size access false with
  | some c => (.error .raised, s.setCpu c)
  | none => (.ok (), s)

/-- `raw_mmu_read`, and `mmu_read_value` with another access. -/
def rawMmuRead (va : U64) (size : Nat) (access : AccessType) : Exec β U64 := fun s =>
  match s.core.mmuReadValue port va size access with
  | (some value, core) => (.ok value, s.setCore core)
  | (none, core) => (.error (.failed va), s.setCore core)

/-- `raw_mmu_write`, and `mmu_write_value` with another access. -/
def rawMmuWrite (va value : U64) (size : Nat) (access : AccessType) : Exec β Unit := fun s =>
  match s.core.mmuWriteValue port va value size access with
  | (true, core) => (.ok (), s.setCore core)
  | (false, core) => (.error (.failed va), s.setCore core)

/-- `mmu_read`. -/
def mmuRead (rn : Nat) (va : U64) (size : Nat) : Exec β U64 := do
  checkSpAlignment rn
  checkDataAlignment port va size .read
  rawMmuRead port va size .read

/-- `mmu_write`. -/
def mmuWrite (rn : Nat) (va value : U64) (size : Nat) : Exec β Unit := do
  checkSpAlignment rn
  checkDataAlignment port va size .write
  rawMmuWrite port va value size .write

/-! ## Vector transfers -/

/-- `load_vec`. -/
def loadVec (rn : Nat) (addr : U64) (vt size : Nat) : Exec β Unit :=
  if size = 16 then do
    let lo ← mmuRead port rn addr 8
    let hi ← mmuRead port rn (addr + 8) 8
    setQreg vt ⟨lo, hi⟩
  else do
    let value ← mmuRead port rn addr size
    setQreg vt ⟨value &&& ones (8 * size), 0⟩

/-- `store_vec`. -/
def storeVec (rn : Nat) (addr : U64) (vt size : Nat) : Exec β Unit := do
  let q ← qregs
  if size = 16 then do
    mmuWrite port rn addr (q vt).lo 8
    mmuWrite port rn (addr + 8) (q vt).hi 8
  else mmuWrite port rn addr ((q vt).lo &&& ones (8 * size)) size

/-- `load_vec_whole`. -/
def loadVecWhole (rn : Nat) (addr : U64) (vt size : Nat) : Exec β Unit := do
  checkSpAlignment rn
  checkDataAlignment port addr size .read
  if size = 16 then do
    let lo ← failingAtFault addr (rawMmuRead port addr 8 .read)
    let hi ← failingAtFault (addr + 8) (rawMmuRead port (addr + 8) 8 .read)
    setQreg vt ⟨lo, hi⟩
  else do
    let value ← failingAtFault addr (rawMmuRead port addr size .read)
    setQreg vt ⟨value &&& ones (8 * size), 0⟩

/-- `store_vec_whole`. -/
def storeVecWhole (rn : Nat) (addr : U64) (vt size : Nat) : Exec β Unit := do
  checkSpAlignment rn
  checkDataAlignment port addr size .write
  let q ← qregs
  if size = 16 then do
    failingAtFault addr (rawMmuWrite port addr (q vt).lo 8 .write)
    failingAtFault (addr + 8) (rawMmuWrite port (addr + 8) (q vt).hi 8 .write)
  else failingAtFault addr (rawMmuWrite port addr ((q vt).lo &&& ones (8 * size)) size .write)

def transferVecWhole (isLoad : Bool) (rn : Nat) (addr : U64) (vt size : Nat) : Exec β Unit :=
  if isLoad then loadVecWhole port rn addr vt size else storeVecWhole port rn addr vt size

def transferVec (isLoad : Bool) (rn : Nat) (addr : U64) (vt size : Nat) : Exec β Unit :=
  if isLoad then loadVec port rn addr vt size else storeVec port rn addr vt size

/-- `load_vec_pair` and `store_vec_pair`. -/
def transferVecPair (isLoad : Bool) (rn : Nat) (addr : U64) (vt vt2 elemSize : Nat) :
    Exec β Unit := do
  transferVecWhole port isLoad rn addr vt elemSize
  transferVecWhole port isLoad rn (addr + BitVec.ofNat 64 elemSize) vt2 elemSize

/-- A byte of a multiple-structure transfer: its register, counted from the first, its lane
and its address. -/
structure LanePlace where
  reg : Nat
  lane : Nat
  addr : U64

/-- The order of `load_vec_seq_element_bytes`: one register after another. -/
def seqPlaces (addr : U64) (regBytes regCount : Nat) : List LanePlace :=
  (List.range regCount).flatMap fun reg =>
    (List.range regBytes).map fun lane =>
      ⟨reg, lane, addr + BitVec.ofNat 64 (reg * regBytes + lane)⟩

/-- The order of `load_vec_struct_bytes`: one lane after another. -/
def structPlaces (addr : U64) (regBytes regCount : Nat) : List LanePlace :=
  (List.range regBytes).flatMap fun lane =>
    (List.range regCount).map fun reg => ⟨reg, lane, addr + BitVec.ofNat 64 (lane * regCount + reg)⟩

/-- `load_vec_seq_element_bytes` and `load_vec_struct_bytes`: the registers are written when
every byte is read. -/
def loadVecBytes (rn vt regCount : Nat) (places : List LanePlace) : Exec β Unit := do
  let regs ← Stopping.fold (fun (regs : Nat → QReg) (p : LanePlace) => do
      let value ← failingAt p.addr (mmuRead port rn p.addr 1)
      pure (Function.update regs p.reg
        (vectorSetElem (regs p.reg) 8 p.lane (value &&& 0xFF)))) (fun _ => ⟨0, 0⟩) places
  Stopping.modify (·.setQregs vt regCount regs)

/-- `store_vec_seq_element_bytes` and `store_vec_struct_bytes`. -/
def storeVecBytes (rn vt : Nat) (places : List LanePlace) : Exec β Unit := do
  let q ← qregs
  Stopping.fold (fun _ (p : LanePlace) =>
    failingAt p.addr (mmuWrite port rn p.addr
      (vectorGetElem (q ((vt + p.reg) % 32)) 8 p.lane &&& 0xFF) 1)) () places

/-- The bytes of one element of `access_vec_single_struct`, lowest first. -/
def loadElem (elemAddr : U64) (ebytes : Nat) : Exec β U64 :=
  Stopping.fold (fun (value : U64) (byte : Nat) => do
    let part ← rawMmuRead port (elemAddr + BitVec.ofNat 64 byte) 1 .read
    pure (value ||| ((part &&& 0xFF) <<< (byte * 8)))) 0 (List.range ebytes)

def storeElem (elemAddr elem : U64) (ebytes : Nat) : Exec β Unit :=
  Stopping.fold (fun _ (byte : Nat) =>
    rawMmuWrite port (elemAddr + BitVec.ofNat 64 byte) ((elem >>> (byte * 8)) &&& 0xFF) 1 .write) ()
    (List.range ebytes)

/-- `access_vec_single_struct`. -/
def accessVecSingleStruct (d : SingleStruct) (rn : Nat) (addr : U64) (vt : Nat) : Exec β Unit := do
  let ebytes := d.esizeBits / 8
  let q ← qregs
  if d.isLoad then do
    let regs ← Stopping.fold (fun (regs : Nat → QReg) (i : Nat) => do
        let elemAddr := addr + BitVec.ofNat 64 (i * ebytes)
        checkSpAlignment rn
        checkDataAlignment port elemAddr ebytes .read
        let value ← loadElem port elemAddr ebytes
        let dst :=
          if d.replicate then
            (List.range (d.datasizeBits / d.esizeBits)).foldl
              (fun dst lane => vectorSetElem dst d.esizeBits lane (value &&& ones d.esizeBits))
              ⟨0, 0⟩
          else vectorSetElem (q ((vt + i) % 32)) d.esizeBits d.laneIndex
            (value &&& ones d.esizeBits)
        pure (Function.update regs i dst)) (fun _ => ⟨0, 0⟩) (List.range d.regCount)
    Stopping.modify (·.setQregs vt d.regCount regs)
  else
    Stopping.fold (fun _ (i : Nat) => do
      let elemAddr := addr + BitVec.ofNat 64 (i * ebytes)
      checkSpAlignment rn
      checkDataAlignment port elemAddr ebytes .write
      storeElem port elemAddr
        (vectorGetElem (q ((vt + i) % 32)) d.esizeBits d.laneIndex &&& ones d.esizeBits) ebytes) ()
      (List.range d.regCount)

/-- `checked_fp_mem_base`. -/
def checkedFpMemBase (rn : Nat) : Exec β U64 := do
  checkSpAlignment rn
  let c ← cpu
  pure (c.spOrReg rn)

/-- What a multiple-structure transfer writes back: the offset register, or the bytes moved. -/
def writeBackVec (rn rm : Nat) (addr : U64) (bytes : Nat) : Exec β Unit :=
  modifyCpu fun c =>
    c.setSpOrReg rn (addr + if rm = 31 then BitVec.ofNat 64 bytes else c.reg rm) false

/-- LD1 to LD4 and ST1 to ST4 of whole registers: `exec_vec_seq_postindex`,
`exec_vec_struct_postindex` and the forms without write-back. -/
def transferVecMultiple (isLoad interleaved postIndex : Bool) (rn rm vt regBytes regCount : Nat) :
    Exec β Unit := do
  let addr ← checkedFpMemBase rn
  let places :=
    if interleaved then structPlaces addr regBytes regCount else seqPlaces addr regBytes regCount
  if isLoad then loadVecBytes port rn vt regCount places else storeVecBytes port rn vt places
  if postIndex then writeBackVec rn rm addr (regBytes * regCount) else pure ()

/-- LD1 to LD4 and ST1 to ST4 of one element, and LD1R to LD4R. -/
def transferVecSingle (d : SingleStruct) (postIndex : Bool) (rn rm vt : Nat) : Exec β Unit := do
  let addr ← checkedFpMemBase rn
  accessVecSingleStruct port d rn addr vt
  if postIndex then writeBackVec rn rm addr (d.regCount * (d.esizeBits / 8)) else pure ()

/-- Write the base register back, unless the form is a plain offset. -/
def writeBack (mode : IndexMode) (rn : Nat) (base imm : U64) : Exec β Unit :=
  match mode with
  | .offset => pure ()
  | _ => modifyCpu (·.setSpOrReg rn (base + imm) false)

/-- SIMD&FP loads and stores with an immediate that check the base register first. -/
def transferVecImm (isLoad : Bool) (mode : IndexMode) (rn vt : Nat) (imm : U64) (size : Nat) :
    Exec β Unit := do
  let base ← checkedFpMemBase rn
  transferVecWhole port isLoad rn (mode.addr base imm) vt size
  writeBack mode rn base imm

/-- The shift of a register offset, when the word asks for one. -/
def offsetShift (size : Nat) : Nat :=
  if size = 16 then 4 else if size = 8 then 3 else if size = 4 then 2 else if size = 2 then 1 else 0

/-- SIMD&FP loads and stores with a register offset. -/
def transferVecReg (isLoad : Bool) (rn rm vt option : Nat) (scaled : Bool) (size : Nat) :
    Exec β Unit := do
  let c ← cpu
  let off := c.offsetReg rm option <<< (if scaled then offsetShift size else 0)
  let base ← checkedFpMemBase rn
  transferVecWhole port isLoad rn (base + off) vt size

/-- `post_pre_fp`. -/
def postPreFp (isLoad : Bool) (mode : IndexMode) (rn vt : Nat) (imm : U64) (size : Nat) :
    Exec β Unit := do
  let c ← cpu
  let base := c.spOrReg rn
  failingAt (mode.addr base imm) (transferVec port isLoad rn (mode.addr base imm) vt size)
  writeBack mode rn base imm

/-- `exec_fp_pair_transfer`. -/
def execFpPairTransfer (isLoad : Bool) (mode : IndexMode) (rn vt vt2 : Nat) (imm : U64)
    (elemSize : Nat) : Exec β Unit := do
  let base ← checkedFpMemBase rn
  transferVecPair port isLoad rn (mode.addr base imm) vt vt2 elemSize
  writeBack mode rn base imm

/-- LDR of a SIMD&FP register from a literal. -/
def literalVec (rn vt : Nat) (imm : U64) (size : Nat) : Exec β Unit := do
  let c ← cpu
  let addr := c.pc - 4 + imm
  failingAtFault addr (loadVec port rn addr vt size)

/-! ## General register transfers -/

/-- LDTR and its variants. -/
def loadUnprivileged (ext : LoadExtend) (rn rt : Nat) (imm : U64) (size : Nat) : Exec β Unit := do
  let c ← cpu
  let addr := c.spOrReg rn + imm
  checkSpAlignment rn
  checkDataAlignment port addr size .unprivilegedRead
  let value ← rawMmuRead port addr size .unprivilegedRead
  modifyCpu (ext.applyUnprivileged · rt value size)

/-- STTR and its variants. -/
def storeUnprivileged (rn rt : Nat) (imm : U64) (size : Nat) : Exec β Unit := do
  let c ← cpu
  let addr := c.spOrReg rn + imm
  checkSpAlignment rn
  checkDataAlignment port addr size .unprivilegedWrite
  rawMmuWrite port addr (c.storeValue rt size) size .unprivilegedWrite

/-- The loads of one register: `post_pre`, `post_pre_signed`, and the forms with an unscaled or
an unsigned offset. -/
def load (ext : LoadExtend) (mode : IndexMode) (rn rt : Nat) (imm : U64) (size : Nat) :
    Exec β Unit := do
  let c ← cpu
  let base := c.spOrReg rn
  let value ← mmuRead port rn (mode.addr base imm) size
  modifyCpu (ext.apply · rt value size)
  writeBack mode rn base imm

/-- The stores of one register. -/
def store (mode : IndexMode) (rn rt : Nat) (imm : U64) (size : Nat) : Exec β Unit := do
  let c ← cpu
  let base := c.spOrReg rn
  mmuWrite port rn (mode.addr base imm) (c.storeValue rt size) size
  writeBack mode rn base imm

/-- LDR and LDRSW of a literal. -/
def literal (ext : LoadExtend) (rt : Nat) (imm : U64) (size : Nat) : Exec β Unit := do
  let c ← cpu
  let value ← rawMmuRead port (c.pc - 4 + imm) size .read
  modifyCpu (ext.apply · rt value size)

/-- The loads with a register offset. -/
def loadReg (ext : LoadExtend) (rn rm rt option : Nat) (scaled : Bool) (size : Nat) :
    Exec β Unit := do
  let c ← cpu
  let off := c.offsetReg rm option <<< (if scaled then offsetShift size else 0)
  let value ← mmuRead port rn (c.spOrReg rn + off) size
  modifyCpu (ext.apply · rt value size)

/-- The stores with a register offset. -/
def storeReg (rn rm rt option : Nat) (scaled : Bool) (size : Nat) : Exec β Unit := do
  let c ← cpu
  let off := c.offsetReg rm option <<< (if scaled then offsetShift size else 0)
  mmuWrite port rn (c.spOrReg rn + off) (c.storeValue rt size) size

/-- LDP, LDNP and LDPSW. -/
def loadPair (ext : LoadExtend) (mode : IndexMode) (rn rt rt2 : Nat) (imm : U64) (size : Nat) :
    Exec β Unit := do
  let c ← cpu
  let base := c.spOrReg rn
  let addr := mode.addr base imm
  let v1 ← failingAt addr (mmuRead port rn addr size)
  let v2 ← failingAt addr (mmuRead port rn (addr + BitVec.ofNat 64 size) size)
  modifyCpu fun c => ext.apply (ext.apply c rt v1 size) rt2 v2 size
  writeBack mode rn base imm

/-- STP and STNP. -/
def storePair (mode : IndexMode) (rn rt rt2 : Nat) (imm : U64) (size : Nat) : Exec β Unit := do
  let c ← cpu
  let base := c.spOrReg rn
  let addr := mode.addr base imm
  failingAt addr (mmuWrite port rn addr (c.regSized rt size) size)
  failingAt addr (mmuWrite port rn (addr + BitVec.ofNat 64 size) (c.regSized rt2 size) size)
  writeBack mode rn base imm

/-- The end of the function: `data_abort` for the access that failed. -/
def finish (m : Exec β Unit) (s : VecCore β) : VecCore β :=
  match m s with
  | (.ok _, s') => s'
  | (.error .raised, s') => s'
  | (.error (.failed va), s') => s'.setCore (s'.core.dataAbort va)

/-! ## The checks and the accesses, by how they end -/

section Ends

variable {R : VecCore β → VecCore β → Prop} {F : Stop → VecCore β → VecCore β → Prop} {port}

theorem checkSpAlignment_ends {rn : Nat} (hpass : ∀ s, R s s)
    (hraise : ∀ {s : VecCore β} {c}, s.cpu.maybeTakeSpAlignmentFault rn = some c →
      F .raised s (s.setCpu c)) :
    Stopping.Keeps R F (checkSpAlignment rn) where
  ended := by
    intro s a s' heq
    rw [checkSpAlignment] at heq
    split at heq
    · cases heq
    · cases heq
      exact hpass s
  stopped := by
    intro s e s' heq
    rw [checkSpAlignment] at heq
    split at heq
    · next c hc =>
      cases heq
      exact hraise hc
    · cases heq

theorem checkDataAlignment_ends {va : U64} {size : Nat} {access : AccessType}
    (hpass : ∀ s, R s s)
    (hraise : ∀ {s : VecCore β} {c}, s.cpu.maybeTakeDataAlignmentFault
      (port.readDesc s.core.bus) (port.hasRam s.core.bus) va size access false = some c →
        F .raised s (s.setCpu c)) :
    Stopping.Keeps R F (checkDataAlignment port va size access) where
  ended := by
    intro s a s' heq
    rw [checkDataAlignment] at heq
    split at heq
    · cases heq
    · cases heq
      exact hpass s
  stopped := by
    intro s e s' heq
    rw [checkDataAlignment] at heq
    split at heq
    · next c hc =>
      cases heq
      exact hraise hc
    · cases heq

theorem rawMmuRead_ends {va : U64} {size : Nat} {access : AccessType}
    (hread : ∀ {s : VecCore β} {value core},
      s.core.mmuReadValue port va size access = (some value, core) → R s (s.setCore core))
    (hfail : ∀ {s : VecCore β} {core},
      s.core.mmuReadValue port va size access = (none, core) →
        F (.failed va) s (s.setCore core)) :
    Stopping.Keeps R F (rawMmuRead port va size access) where
  ended := by
    intro s a s' heq
    rw [rawMmuRead] at heq
    split at heq
    · next value core hcore =>
      cases heq
      exact hread hcore
    · cases heq
  stopped := by
    intro s e s' heq
    rw [rawMmuRead] at heq
    split at heq
    · cases heq
    · next core hcore =>
      cases heq
      exact hfail hcore

theorem rawMmuWrite_ends {va value : U64} {size : Nat} {access : AccessType}
    (hwrite : ∀ {s : VecCore β} {core},
      s.core.mmuWriteValue port va value size access = (true, core) → R s (s.setCore core))
    (hfail : ∀ {s : VecCore β} {core},
      s.core.mmuWriteValue port va value size access = (false, core) →
        F (.failed va) s (s.setCore core)) :
    Stopping.Keeps R F (rawMmuWrite port va value size access) where
  ended := by
    intro s a s' heq
    rw [rawMmuWrite] at heq
    split at heq
    · next core hcore =>
      cases heq
      exact hwrite hcore
    · cases heq
  stopped := by
    intro s e s' heq
    rw [rawMmuWrite] at heq
    split at heq
    · cases heq
    · next core hcore =>
      cases heq
      exact hfail hcore

end Ends

end Exec
end Aarchvm
