import Aarchvm.Cpu.Monitor
import Aarchvm.Cpu.TlbSound
import Aarchvm.Cpu.Icc
import Aarchvm.Gic.Line

/-!
# CPUs sharing memory

Any number of CPUs on one bus, with DMA. A run is any interleaving of stores,
exclusives, waits, exceptions, translations and everything else, which may change
whatever the monitor and the event register do not depend on. After each step the
writes it made are announced to the other CPUs, as `on_cpu_memory_write` does, or to
all of them for DMA. The log of loads-exclusive and writes is kept for the
specification only.
-/
namespace Aarchvm

/-- An instruction of one CPU, with its operands read from the registers. -/
inductive MemInsn where
  | load (rn : Nat) (va : U64) (size : Nat) (forceCheck : Bool)
  | store (rn : Nat) (va value : U64) (size : Nat) (access : AccessType) (forceCheck : Bool)
  /-- the store of CASP -/
  | storePair (addr first second : U64) (elemSize : Nat)
  | dcZva (addr : U64)
  | loadExclusive (rt rn : Nat) (addr : U64) (log2Size : Fin 4)
  | loadExclusivePair (rt rt2 rn : Nat) (addr : U64) (log2Size : Fin 4)
  | storeExclusive (rs rn : Nat) (addr value : U64) (log2Size : Fin 4)
  | storeExclusivePair (rs rn : Nat) (addr first second : U64) (log2Size : Fin 4)
  | clrex
  | wfe
  | wfi
  | sevl

namespace Cpu

/-- WFE. -/
def wfe (c : Cpu) : Cpu :=
  if c.sysregs.inEl0 && !c.sysregs.sctlrEl1.getLsbD 18 then
    c.enterSyncException (c.pc - 4) 0x01 0x1 false 0
  else if c.eventRegister then { c with eventRegister := false }
  else { c with waitingForEvent := true }

/-- WFI. -/
def wfi (c : Cpu) : Cpu :=
  if c.sysregs.inEl0 && !c.sysregs.sctlrEl1.getLsbD 16 then
    c.enterSyncException (c.pc - 4) 0x01 0x0 false 0
  else { c with waitingForInterrupt := true }

/-- `step` of a CPU in WFI or WFE. -/
def waitStep (c : Cpu) (g : GicV3) : Cpu × GicV3 :=
  if c.waitingForInterrupt then
    let pending := g.hasPending c.cpuIndex 0xFF
    if pending.1 then
      let c₁ := { c with waitingForInterrupt := false }
      if c₁.shouldTryIrq pending.2 then (c₁.tryTakeIrq pending.2).2 else (c₁, pending.2)
    else (c, pending.2)
  else if c.waitingForEvent then
    if c.eventRegister then ({ c with eventRegister := false, waitingForEvent := false }, g)
    else
      let ready := c.irqWakeupReady g
      if ready.1 && ready.2.1.shouldTryIrq ready.2.2 then
        let taken := ready.2.1.tryTakeIrq ready.2.2
        if taken.1 then ({ taken.2.1 with waitingForEvent := false }, taken.2.2) else taken.2
      else ready.2
  else (c, g)

/-- `halted_`, or waiting: `step` executes no instruction. -/
def idle (c : Cpu) : Bool := c.halted || c.waitingForInterrupt || c.waitingForEvent

/-- The notifications of a list of writes. -/
def notifyAll (c : Cpu) (ws : List PhysWrite) : Cpu := ws.foldl notifyExternalMemoryWrite c

end Cpu

namespace Core

variable {β : Type} (port : BusPort β)

/-- One instruction. The flag is false when it faulted; a store-exclusive that is refused by
the monitor does not store and does not fault. -/
def execute (s : Core β) : MemInsn → Bool × Core β
  | .load rn va size forceCheck =>
    match s.mmuRead port rn va size forceCheck with
    | (none, s') => (false, s'.dataAbort va)
    | (some _, s') => (true, s')
  | .store rn va value size access forceCheck =>
    match s.mmuWrite port rn va value size access forceCheck with
    | (false, s') => (false, s'.dataAbort va)
    | (true, s') => (true, s')
  | .storePair addr first second elemSize =>
    match s.rawMmuWritePairAtomic port addr first second elemSize with
    | (false, s') => (false, s'.dataAbort addr)
    | (true, s') => (true, s')
  | .dcZva addr => s.dcZva port addr
  | .loadExclusive rt rn addr k => s.loadExclusive port rt rn addr (2 ^ k.val)
  | .loadExclusivePair rt rt2 rn addr k => s.loadExclusivePair port rt rt2 rn addr (2 ^ k.val)
  | .storeExclusive rs rn addr value k =>
    let r := s.storeExclusive port rs rn addr value (2 ^ k.val)
    (r.1 != .faulted, r.2)
  | .storeExclusivePair rs rn addr first second k =>
    let r := s.storeExclusivePair port rs rn addr first second (2 ^ k.val)
    (r.1 != .faulted, r.2)
  | .clrex => (true, s.setCpu s.cpu.clearExclusiveMonitor)
  | .wfe => (true, s.setCpu s.cpu.wfe)
  | .wfi => (true, s.setCpu s.cpu.wfi)
  | .sevl => (true, s.setCpu { s.cpu with eventRegister := true })

/-- The store-exclusive stores: its status is 0. -/
def stores (s : Core β) : MemInsn → Bool
  | .storeExclusive rs rn addr value k =>
    (s.storeExclusive port rs rn addr value (2 ^ k.val)).1 == .stored
  | .storeExclusivePair rs rn addr first second k =>
    (s.storeExclusivePair port rs rn addr first second (2 ^ k.val)).1 == .stored
  | _ => false

end Core

/-! ## The system -/

/-- What the specification speaks about. A successful store-exclusive is logged before its own
writes. -/
inductive MemEvent where
  | loadExclusive (cpu : Nat) (bytes : List U64)
  | storeExclusive (cpu : Nat) (bytes : List U64)
  /-- a write by a CPU, or by a device -/
  | write (source : Option Nat) (w : PhysWrite)
  deriving DecidableEq, Repr

structure Smp (β : Type) where
  cpus : Nat → Cpu
  gic : GicV3
  bus : β
  log : List MemEvent

inductive SmpOp (β : Type) where
  | insn (i : Nat) (insn : MemInsn)
  | sev (i : Nat)
  | eret (i : Nat)
  | tryTakeIrq (i : Nat)
  | enterSyncException (i : Nat) (faultPc : U64) (ec iss : U32) (farValid : Bool) (far : U64)
  | waitStep (i : Nat)
  /-- translation for a fetch or a probe, TLB maintenance, a translation register write -/
  | mmu (i : Nat) (op : MmuOp)
  /-- any other change of the CPU -/
  | other (i : Nat) (after : Cpu)
  | dma (w : PhysWrite)
  | devices (after : β)
  | gic (op : GicOp)

namespace Smp

variable {β : Type} (port : BusPort β)

/-- CPU `i` before an instruction. -/
def core (s : Smp β) (i : Nat) : Core β := ⟨s.cpus i, s.bus, []⟩

def setCpu (s : Smp β) (i : Nat) (c : Cpu) : Smp β := { s with cpus := Function.update s.cpus i c }

/-- What an instruction adds to the log besides its writes. -/
def exclusiveEvents (s : Smp β) (i : Nat) (insn : MemInsn) : List MemEvent :=
  let r := (s.core i).execute port insn
  match insn with
  | MemInsn.loadExclusive _ _ _ _ | MemInsn.loadExclusivePair _ _ _ _ _ =>
    if r.1 then [MemEvent.loadExclusive i ((r.2.cpu.exclusive.map (·.physAddrs)).getD [])] else []
  | MemInsn.storeExclusive _ _ _ _ _ | MemInsn.storeExclusivePair _ _ _ _ _ _ =>
    if (s.core i).stores port insn then
      [MemEvent.storeExclusive i (writtenBytes r.2.writes)] else []
  | _ => []

/-- The instruction, and `on_cpu_memory_write` for each of its writes. -/
def commit (s : Smp β) (i : Nat) (r : Core β) (events : List MemEvent) : Smp β where
  cpus := Function.update (fun j => (s.cpus j).notifyAll r.writes) i r.cpu
  gic := s.gic
  bus := r.bus
  log := s.log ++ (events ++ r.writes.map (MemEvent.write (some i)))

/-- The change of everything that the monitor, the event register and the translation buffer do
not depend on. -/
def keepMonitor (c after : Cpu) : Cpu :=
  { after with
    exclusive := c.exclusive, eventRegister := c.eventRegister,
    waitingForEvent := c.waitingForEvent, tlb := c.tlb, exceptions := c.exceptions }

def step (s : Smp β) : SmpOp β → Smp β
  | .insn i insn =>
    if (s.cpus i).idle then s
    else s.commit i ((s.core i).execute port insn).2 (s.exclusiveEvents port i insn)
  | .sev i =>
    if (s.cpus i).idle then s
    else { s with cpus := fun j => { s.cpus j with eventRegister := true } }
  | .eret i =>
    if (s.cpus i).idle then s
    else
      let r := (s.cpus i).eret s.gic
      { s.setCpu i r.1 with gic := r.2 }
  | .tryTakeIrq i =>
    if (s.cpus i).idle then s
    else
      let r := (s.cpus i).tryTakeIrq s.gic
      { s.setCpu i r.2.1 with gic := r.2.2 }
  | .enterSyncException i faultPc ec iss farValid far =>
    if (s.cpus i).idle then s
    else s.setCpu i ((s.cpus i).enterSyncException faultPc ec iss farValid far)
  | .waitStep i =>
    if (s.cpus i).halted then s
    else
      let r := (s.cpus i).waitStep s.gic
      { s.setCpu i r.1 with gic := r.2 }
  | .mmu i op => s.setCpu i (Mmu.step ⟨s.cpus i, port.readDesc s.bus⟩ op).cpu
  | .other i after => s.setCpu i (keepMonitor (s.cpus i) after)
  | .dma w =>
    { s with
      cpus := fun j => (s.cpus j).notifyExternalMemoryWrite w
      log := s.log ++ [MemEvent.write none w] }
  | .devices after => { s with bus := after }
  | .gic op => { s with gic := s.gic.step op }

end Smp
end Aarchvm
