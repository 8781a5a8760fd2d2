import Aarchvm.Cpu.Exception
import Aarchvm.Cpu.Translate

/-!
# Data accesses

What loads and stores are made of: the alignment and watchpoint checks, the
translated reads and writes of `mmu_read_value` and `mmu_write_value`, the pair
store, DC ZVA and `data_abort`. The bus and its devices are a state `β` behind a
port; a store reports the physical writes for which it ran the `memory_write`
callback. The fast RAM paths and the decode cache are left out.
-/
namespace Aarchvm

/-- The bus as the CPU sees it. A read or a write may change the devices. -/
structure BusPort (β : Type) where
  read : β → U64 → Nat → Option U64 × β
  write : β → (pa value : U64) → (size : Nat) → Bool × β
  /-- the 8-byte read of a translation table descriptor -/
  readDesc : β → U64 → Option U64
  /-- `ram_ptr(pa, 1) != nullptr` -/
  hasRam : β → U64 → Bool

/-- A write that the bus accepted, as `memory_write` is told of it. -/
structure PhysWrite where
  pa : U64
  size : Nat
  deriving DecidableEq, Repr

/-- A CPU and the bus during one instruction, with the writes made so far. -/
structure Core (β : Type) where
  cpu : Cpu
  bus : β
  writes : List PhysWrite

/-- The bytes of an access at a virtual or physical address. -/
def bytesFrom (addr : U64) (size : Nat) : List U64 :=
  (List.range size).map fun i => addr + BitVec.ofNat 64 i

/-! ## Syndromes -/

/-- `fault_status_code`. -/
def faultStatusCode (f : TranslationFault) : U32 :=
  let level : U32 := BitVec.ofNat 32 f.level &&& 0x3
  let fsc : U32 :=
    match f.kind with
    | .addressSize => level
    | .translation => 0x4 + level
    | .accessFlag => 0x8 + level
    | .permission => 0xC + level
    | .externalAbortOnWalk => 0x14 + level
  if f.write then fsc ||| 0x40 else fsc

/-- `data_abort_iss`. -/
def dataAbortIss (f : TranslationFault) (cacheMaintenanceOrTranslation : Bool) : U32 :=
  if cacheMaintenanceOrTranslation then faultStatusCode f ||| 0x100 ||| 0x40 else faultStatusCode f

def syncExternalAbortFsc : U32 := 0x10

/-- `external_abort_iss`. -/
def externalAbortIss (write cacheMaintenanceOrTranslation : Bool) : U32 :=
  let iss := if write then syncExternalAbortFsc ||| 0x40 else syncExternalAbortFsc
  if cacheMaintenanceOrTranslation then iss ||| 0x100 ||| 0x40 else iss

def kDebugExceptionIfsc : U32 := 0x22

/-- The watchpoints that the reset value of ID_AA64DFR0_EL1 advertises. -/
def kWatchpointResourceCount : Nat := 2

namespace Cpu

variable (c : Cpu)

/-- `sp_or_reg`; the current stack pointer is register 31. -/
def spOrReg (i : Nat) : U64 := c.regs i

/-- `set_reg`; register 31 is the zero register. -/
def setReg (i : Nat) (value : U64) : Cpu :=
  if 31 ≤ i then c else { c with regs := Function.update c.regs i value }

/-- `set_reg` for an access of eight bytes, `set_reg32` for a narrower one. -/
def setRegSized (i : Nat) (value : U64) (size : Nat) : Cpu :=
  c.setReg i (if size = 8 then value else (value.setWidth 32).setWidth 64)

def alignmentCheckEnabled : Bool := c.sysregs.sctlrEl1.getLsbD 1

def spAlignmentCheckEnabled : Bool :=
  if c.sysregs.inEl0 then c.sysregs.sctlrEl1.getLsbD 4 else c.sysregs.sctlrEl1.getLsbD 3

/-- The exception class of a fault taken from the current exception level. -/
def classFrom (lower same : U32) : U32 := if c.sysregs.inEl0 then lower else same

/-- `data_abort`. -/
def dataAbort (va : U64) (cacheMaintenanceOrTranslation : Bool) : Cpu :=
  if c.exceptionTakenThisStep then c
  else
    let iss := c.lastDataAbortIssOverride.getD
      ((c.lastTranslationFault.map (dataAbortIss · cacheMaintenanceOrTranslation)).getD 0)
    { c.enterSyncException (c.pc - 4) (c.classFrom 0x24 0x25) iss true (c.lastDataFaultVa.getD va)
        with lastDataAbortIssOverride := none, lastDataFaultVa := none }

/-- `note_external_data_abort`, then `last_data_fault_va_` as its callers set it again. -/
def noteExternalDataAbort (write : Bool) (faultVa : U64) : Cpu :=
  { c with
    lastTranslationFault := none
    lastDataAbortIssOverride := some (externalAbortIss write false)
    lastDataFaultVa := some faultVa }

/-- `maybe_take_sp_alignment_fault`; `none` when there is no fault. -/
def maybeTakeSpAlignmentFault (baseReg : Nat) : Option Cpu :=
  if baseReg = 31 ∧ c.spAlignmentCheckEnabled = true ∧ c.regs 31 &&& 0xF ≠ 0 then
    some (c.clearFaultLatches.enterSyncException (c.pc - 4) 0x26 0 false 0)
  else none

/-- The memory type that decides whether an unaligned access faults; `none` when the
translation that would tell it fails. -/
def alignmentMemoryType (readDesc : U64 → Option U64) (hasRam : U64 → Bool) (addr : U64)
    (access : AccessType) : Option MemoryType :=
  if !c.sysregs.mmuEnabled then
    some (if hasRam (stage1DisabledOutputPa (c.effectiveVa addr)) then .normal else .device)
  else
    match c.sysregs.walkPageTables readDesc (c.effectiveVa addr) access false false true with
    | .error _ => none
    | .ok result => some result.attrs.memoryType

/-- `maybe_take_data_alignment_fault`; `none` when there is no fault. -/
def maybeTakeDataAlignmentFault (readDesc : U64 → Option U64) (hasRam : U64 → Bool) (addr : U64)
    (align : Nat) (access : AccessType) (forceCheck : Bool) : Option Cpu :=
  if align ≤ 1 ∨ addr.toNat % align = 0 then none
  else if !forceCheck && !c.alignmentCheckEnabled &&
      c.alignmentMemoryType readDesc hasRam addr access != some .device then none
  else
    let iss : U32 := if access.isWrite then 0x21 ||| 0x40 else 0x21
    some (c.clearFaultLatches.enterSyncException (c.pc - 4) (c.classFrom 0x24 0x25) iss true addr)

/-- `debug_privilege_matches`. -/
def debugPrivilegeMatches (ctrl : U64) : Bool :=
  if c.sysregs.inEl0 then ctrl.getLsbD 2
  else if c.sysregs.currentEl = 1 then ctrl.getLsbD 1
  else false

/-- The first byte of the access that watchpoint `i` watches. -/
def watchpointHit (i : Nat) (va : U64) (size : Nat) (write : Bool) : Option U64 :=
  let ctrl := c.sysregs.dbgwcrEl1 i
  if !ctrl.getLsbD 0 || !c.debugPrivilegeMatches ctrl then none
  else if !(if write then ctrl.getLsbD 4 else ctrl.getLsbD 3) then none
  else
    let base := c.sysregs.dbgwvrEl1 i &&& ~~~0x7
    (bytesFrom va size).find? fun byteVa =>
      decide (base ≤ byteVa) && decide (byteVa < base + 8) &&
        ctrl.getLsbD (5 + (byteVa - base).toNat)

/-- `maybe_take_watchpoint_exception`; `none` when there is no hit. -/
def maybeTakeWatchpointException (va : U64) (size : Nat) (access : AccessType) : Option Cpu :=
  if access = .fetch ∨ size = 0 ∨ c.sysregs.breakpointWatchpointEnabledCurrent = false then none
  else
    ((List.range kWatchpointResourceCount).findSome? fun i =>
      c.watchpointHit i va size access.isWrite).map fun byteVa =>
        c.enterSyncException (c.pc - 4) (c.classFrom 0x34 0x35)
          (if access.isWrite then kDebugExceptionIfsc ||| 0x40 else kDebugExceptionIfsc) true byteVa

/-- Translate one byte after another, up to the first that faults. -/
def translateEach (readDesc : U64 → Option U64) (access : AccessType) :
    Cpu → List U64 → Option (List U64) × Cpu
  | c, [] => (some [], c)
  | c, va :: vas =>
    match c.translateDataAddressFast readDesc va access with
    | (.error _, c') => (none, { c' with lastDataFaultVa := some va })
    | (.ok pa, c') =>
      let rest := translateEach readDesc access c' vas
      (rest.1.map (pa :: ·), rest.2)

def clearExclusiveMonitor : Cpu := { c with exclusive := none }

end Cpu

/-- The bytes of `value`, lowest first. -/
def valueByte (value : U64) (i : Nat) : U64 := (value >>> (i * 8)) &&& 0xFF

namespace BusPort

variable {β : Type} (port : BusPort β)

/-- One write of a store: where the program wrote it, where it goes and what it stores. -/
structure Request where
  va : U64
  pa : U64
  value : U64

/-- Write one request after another, up to the first that the bus rejects. The results are
the address of that one, the bus, and the writes it accepted. -/
def writeEach (size : Nat) : β → List Request → Option U64 × β × List PhysWrite
  | b, [] => (none, b, [])
  | b, r :: rs =>
    match port.write b r.pa r.value size with
    | (false, b') => (some r.va, b', [])
    | (true, b') =>
      let rest := writeEach size b' rs
      (rest.1, rest.2.1, ⟨r.pa, size⟩ :: rest.2.2)

/-- Read one byte after another into a value, up to the first that the bus rejects. -/
def readEach : β → List (U64 × U64) → Except U64 (List U64) × β
  | b, [] => (.ok [], b)
  | b, (va, pa) :: rs =>
    match port.read b pa 1 with
    | (none, b') => (.error va, b')
    | (some byte, b') =>
      let rest := readEach b' rs
      (rest.1.map (byte :: ·), rest.2)

end BusPort

/-- The value of its bytes, lowest first. -/
def joinBytes : List U64 → U64
  | [] => 0
  | byte :: bytes => (byte &&& 0xFF) ||| (joinBytes bytes <<< 8)

namespace Core

variable {β : Type} (port : BusPort β)

/-- The page offset and size of an access that stays in its page. -/
def inPage (va : U64) (size : Nat) : Bool := (va &&& 0xFFF).toNat + size ≤ 0x1000

def setCpu (s : Core β) (c : Cpu) : Core β := { s with cpu := c }

/-- `mmu_read_value`. -/
def mmuReadValue (s : Core β) (va : U64) (size : Nat) (access : AccessType) :
    Option U64 × Core β :=
  let c₀ := { s.cpu with lastDataAbortIssOverride := none, lastDataFaultVa := none }
  if size = 0 ∨ 8 < size then (none, s.setCpu c₀)
  else if inPage va size then
    match c₀.translateDataAddressFast (port.readDesc s.bus) va access with
    | (.error _, c₁) => (none, s.setCpu { c₁ with lastDataFaultVa := some va })
    | (.ok pa, c₁) =>
      match c₁.maybeTakeWatchpointException va size access with
      | some c₂ => (none, s.setCpu c₂)
      | none =>
        match port.read s.bus pa size with
        | (none, b) =>
          (none, { s with bus := b, cpu := c₁.noteExternalDataAbort access.isWrite va })
        | (some value, b) => (some value, { s with bus := b, cpu := c₁ })
  else
    match c₀.translateEach (port.readDesc s.bus) access (bytesFrom va size) with
    | (none, c₁) => (none, s.setCpu c₁)
    | (some pas, c₁) =>
      match c₁.maybeTakeWatchpointException va size access with
      | some c₂ => (none, s.setCpu c₂)
      | none =>
        match port.readEach s.bus ((bytesFrom va size).zip pas) with
        | (.error byteVa, b) =>
          (none, { s with bus := b, cpu := c₁.noteExternalDataAbort access.isWrite byteVa })
        | (.ok bytes, b) => (some (joinBytes bytes), { s with bus := b, cpu := c₁ })

/-- The writes of a store and, when all are accepted, the clearing of its own monitor. -/
def commit (s : Core β) (size : Nat) (requests : List BusPort.Request)
    (onReject : Cpu → U64 → Cpu) : Bool × Core β :=
  match port.writeEach size s.bus requests with
  | (some va, b, ws) =>
    (false, { s with bus := b, writes := s.writes ++ ws, cpu := onReject s.cpu va })
  | (none, b, ws) =>
    (true, { s with bus := b, writes := s.writes ++ ws, cpu := s.cpu.clearExclusiveMonitor })

/-- The byte requests of `value`, the low byte first. -/
def byteRequests (va : U64) (pas : List U64) (byteOf : Nat → U64) : List BusPort.Request :=
  (pas.zipIdx).map fun p => ⟨va + BitVec.ofNat 64 p.2, p.1, byteOf p.2⟩

/-- `mmu_write_value`. -/
def mmuWriteValue (s : Core β) (va value : U64) (size : Nat) (access : AccessType) :
    Bool × Core β :=
  let c₀ := { s.cpu with lastDataAbortIssOverride := none, lastDataFaultVa := none }
  let reject (c : Cpu) (byteVa : U64) : Cpu := c.noteExternalDataAbort access.isWrite byteVa
  if size = 0 ∨ 8 < size then (false, s.setCpu c₀)
  else if inPage va size then
    match c₀.translateDataAddressFast (port.readDesc s.bus) va access with
    | (.error _, c₁) => (false, s.setCpu { c₁ with lastDataFaultVa := some va })
    | (.ok pa, c₁) =>
      match c₁.maybeTakeWatchpointException va size access with
      | some c₂ => (false, s.setCpu c₂)
      | none => (s.setCpu c₁).commit port size [⟨va, pa, value⟩] reject
  else
    match c₀.translateEach (port.readDesc s.bus) access (bytesFrom va size) with
    | (none, c₁) => (false, s.setCpu c₁)
    | (some pas, c₁) =>
      match c₁.maybeTakeWatchpointException va size access with
      | some c₂ => (false, s.setCpu c₂)
      | none => (s.setCpu c₁).commit port 1 (byteRequests va pas (valueByte value)) reject

/-- `raw_mmu_write_pair_atomic`. -/
def rawMmuWritePairAtomic (s : Core β) (addr first second : U64) (elemSize : Nat) :
    Bool × Core β :=
  let c₀ := { s.cpu with lastDataFaultVa := none }
  if elemSize = 0 ∨ 16 < elemSize * 2 then (false, s.setCpu c₀)
  else
    match c₀.translateEach (port.readDesc s.bus) .write (bytesFrom addr (elemSize * 2)) with
    | (none, c₁) => (false, s.setCpu c₁)
    | (some pas, c₁) =>
      match c₁.maybeTakeWatchpointException addr (elemSize * 2) .write with
      | some c₂ => (false, s.setCpu c₂)
      | none =>
        (s.setCpu c₁).commit port 1
          (byteRequests addr pas fun i =>
            if i < elemSize then valueByte first i else valueByte second (i - elemSize))
          (·.noteExternalDataAbort true)

/-- `mmu_read` and, with `forceCheck`, `mmu_strict_read`. -/
def mmuRead (s : Core β) (rn : Nat) (va : U64) (size : Nat) (forceCheck : Bool) :
    Option U64 × Core β :=
  match s.cpu.maybeTakeSpAlignmentFault rn with
  | some c => (none, s.setCpu c)
  | none =>
    match s.cpu.maybeTakeDataAlignmentFault (port.readDesc s.bus) (port.hasRam s.bus) va size .read
        forceCheck with
    | some c => (none, s.setCpu c)
    | none => s.mmuReadValue port va size .read

/-- `mmu_write`, with `forceCheck` `mmu_strict_write`, and with the access of STTR its own
sequence of the same checks. -/
def mmuWrite (s : Core β) (rn : Nat) (va value : U64) (size : Nat) (access : AccessType)
    (forceCheck : Bool) : Bool × Core β :=
  match s.cpu.maybeTakeSpAlignmentFault rn with
  | some c => (false, s.setCpu c)
  | none =>
    match s.cpu.maybeTakeDataAlignmentFault (port.readDesc s.bus) (port.hasRam s.bus) va size access
        forceCheck with
    | some c => (false, s.setCpu c)
    | none => s.mmuWriteValue port va value size access

/-- `data_abort(va)` after an access that failed. -/
def dataAbort (s : Core β) (va : U64) : Core β := s.setCpu (s.cpu.dataAbort va false)

def kDataCacheLineBytes : Nat := 64

/-- The first loop of DC ZVA: translate each doubleword of the block. -/
def zvaTranslate (readDesc : U64 → Option U64) : Cpu → List U64 → Option (List U64) × Cpu
  | c, [] => (some [], c)
  | c, va :: vas =>
    match c.translateAddress readDesc va .write true true true with
    | (.error _, c') => (none, c'.dataAbort va false)
    | (.ok result, c') =>
      if result.attrs.memoryType = .device then
        (none, c'.enterSyncException (c'.pc - 4) (c'.classFrom 0x24 0x25) (0x21 ||| 0x40) true va)
      else
        let rest := zvaTranslate readDesc c' vas
        (rest.1.map (result.pa :: ·), rest.2)

/-- DC ZVA of the block that holds `addr`. -/
def dcZva (s : Core β) (addr : U64) : Bool × Core β :=
  let base := addr &&& ~~~(BitVec.ofNat 64 kDataCacheLineBytes - 1)
  let vas := (List.range (kDataCacheLineBytes / 8)).map fun i => base + BitVec.ofNat 64 (8 * i)
  match zvaTranslate (port.readDesc s.bus) s.cpu vas with
  | (none, c) => (false, s.setCpu c)
  | (some pas, c) =>
    match c.maybeTakeWatchpointException base kDataCacheLineBytes .write with
    | some c' => (false, s.setCpu c')
    | none =>
      (s.setCpu c).commit port 8 ((vas.zip pas).map fun p => ⟨p.1, p.2, 0⟩) fun c va =>
        c.enterSyncException (c.pc - 4) (c.classFrom 0x24 0x25)
          (externalAbortIss true false) true va

end Core
end Aarchvm
