import Aarchvm.Lib.Least
import Aarchvm.Word
import Mathlib.Data.Prod.Lex

/-!
# Interrupt controller state

`GicV3` from `gicv3.hpp` and the operations of `gicv3.cpp` that devices and CPUs
call. The bit arrays of one kind share one function, so that a setter and its
lemma are written once. INTIDs and CPU indices are naturals; SPI arrays are
indexed by INTID rather than by `spi_index`. Trace output and performance
counters are left out.
-/
namespace Aarchvm

def kNumIntIds : Nat := 1024
def kLocalIntIds : Nat := 32
def kFirstSpiIntId : Nat := 32
def kDefaultPriority : U8 := 0xC0

/-- The four bit arrays kept for every INTID. -/
inductive GicBit where
  | pending | enabled | active | lineLevel
  deriving DecidableEq, Repr

/-- `GicV3::LocalCpuState`: the SGIs and PPIs of one CPU. -/
structure LocalCpuState where
  bits : GicBit → Nat → Bool
  priorities : Nat → U8
  gicrWaker : U32
  gicrIgroupr0 : U32
  gicrIcfgr0 : U32
  gicrIcfgr1 : U32
  mpidr : U64

def LocalCpuState.initial : LocalCpuState where
  bits := fun _ _ => false
  priorities := fun _ => kDefaultPriority
  gicrWaker := 0
  gicrIgroupr0 := 0xFFFFFFFF
  gicrIcfgr0 := 0xAAAAAAAA
  gicrIcfgr1 := 0
  mpidr := 0

/-- `GicV3::PendingQueryCache`. -/
structure PendingQueryCache where
  valid : Bool
  value : Bool
  pmr : U8
  epoch : Nat

structure GicV3 where
  cpuCount : Nat
  cpuCount_pos : 0 < cpuCount
  /-- `locals_`, of length `cpuCount` -/
  locals : Nat → LocalCpuState
  spi : GicBit → Nat → Bool
  spiPriorities : Nat → U8
  gicdCtlr : U32
  stateEpoch : Nat
  pendingQueryCache : Nat → PendingQueryCache

/-- Which array holds an interrupt's bits: a CPU's own for SGIs and PPIs, the shared one
for SPIs. -/
inductive Bank where
  | own (idx : Nat)
  | shared
  deriving DecidableEq, Repr

namespace GicV3

/-- The constructor followed by `set_cpu_count`. -/
def reset (cpuCount : Nat) : GicV3 where
  cpuCount := max 1 cpuCount
  cpuCount_pos := by omega
  locals := fun _ => .initial
  spi := fun _ _ => false
  spiPriorities := fun _ => kDefaultPriority
  gicdCtlr := 0
  stateEpoch := 3
  pendingQueryCache := fun _ => ⟨false, false, 0xFF, 0⟩

/-- The index `local_cpu` clamps to. -/
def localIdx (g : GicV3) (cpuIndex : Nat) : Nat := min cpuIndex (g.cpuCount - 1)

/-- `local_cpu`. -/
def localCpu (g : GicV3) (cpuIndex : Nat) : LocalCpuState := g.locals (g.localIdx cpuIndex)

def modifyLocal (g : GicV3) (idx : Nat) (f : LocalCpuState → LocalCpuState) : GicV3 :=
  { g with locals := Function.update g.locals idx (f (g.locals idx)) }

/-- `set_cpu_affinity`. -/
def setCpuAffinity (g : GicV3) (cpuIndex : Nat) (mpidr : U64) : GicV3 :=
  g.modifyLocal (g.localIdx cpuIndex) ({ · with mpidr := mpidr })

/-- Is INTID `intid` one of a CPU's own? -/
def isLocalIntid (intid : Nat) : Bool := intid < kLocalIntIds

/-- The bank in which `cpuIndex` sees `intid`. -/
def bankOf (g : GicV3) (cpuIndex intid : Nat) : Bank :=
  if isLocalIntid intid then .own (g.localIdx cpuIndex) else .shared

def bit (g : GicV3) (k : GicBit) (b : Bank) (intid : Nat) : Bool :=
  match b with
  | .own idx => (g.locals idx).bits k intid
  | .shared => g.spi k intid

def prio (g : GicV3) (b : Bank) (intid : Nat) : U8 :=
  match b with
  | .own idx => (g.locals idx).priorities intid
  | .shared => g.spiPriorities intid

/-- The body shared by the six bit setters: nothing when the bit has the value already,
otherwise the bit and the epoch change. -/
def setBit (g : GicV3) (k : GicBit) (b : Bank) (intid : Nat) (value : Bool) : GicV3 :=
  if g.bit k b intid = value then g
  else
    match b with
    | .own idx =>
      { g.modifyLocal idx fun l =>
          { l with bits := Function.update l.bits k (Function.update (l.bits k) intid value) } with
        stateEpoch := g.stateEpoch + 1 }
    | .shared =>
      { g with
        spi := Function.update g.spi k (Function.update (g.spi k) intid value)
        stateEpoch := g.stateEpoch + 1 }

def setLocalBit (k : GicBit) (g : GicV3) (cpuIndex intid : Nat) (value : Bool) : GicV3 :=
  if kLocalIntIds ≤ intid then g else g.setBit k (.own (g.localIdx cpuIndex)) intid value

def setSpiBit (k : GicBit) (g : GicV3) (intid : Nat) (value : Bool) : GicV3 :=
  if intid < kFirstSpiIntId ∨ kNumIntIds ≤ intid then g else g.setBit k .shared intid value

def setLocalPendingBit := setLocalBit .pending
def setLocalEnabledBit := setLocalBit .enabled
def setLocalActiveBit := setLocalBit .active
def setSpiPendingBit := setSpiBit .pending
def setSpiEnabledBit := setSpiBit .enabled
def setSpiActiveBit := setSpiBit .active

/-- The dispatch shared by `set_pending`, `set_level` and `eoi`: a CPU's own interrupt, no
interrupt at all, or a shared one. -/
def onBank (g : GicV3) (cpuIndex intid : Nat) (f : Bank → GicV3) : GicV3 :=
  if isLocalIntid intid then f (.own (g.localIdx cpuIndex))
  else if kNumIntIds ≤ intid then g
  else f .shared

/-- `set_pending(cpu_index, intid)`. -/
def setPendingOn (g : GicV3) (cpuIndex intid : Nat) : GicV3 :=
  g.onBank cpuIndex intid fun b => g.setBit .pending b intid true

/-- `set_pending(intid)`. -/
def setPending (g : GicV3) (intid : Nat) : GicV3 := g.setPendingOn 0 intid

/-- The body shared by the two halves of `set_level`: record the new level and make an
asserted inactive interrupt pending. -/
def recordLevel (g : GicV3) (intid : Nat) (asserted : Bool) (b : Bank) : GicV3 :=
  if g.bit .lineLevel b intid = asserted then g
  else
    let g' := g.setBit .lineLevel b intid asserted
    if asserted && !g'.bit .active b intid then g'.setBit .pending b intid true else g'

/-- `set_level(cpu_index, intid, asserted)`. -/
def setLevelOn (g : GicV3) (cpuIndex intid : Nat) (asserted : Bool) : GicV3 :=
  g.onBank cpuIndex intid (g.recordLevel intid asserted)

/-- `set_level(intid, asserted)`. -/
def setLevel (g : GicV3) (intid : Nat) (asserted : Bool) : GicV3 := g.setLevelOn 0 intid asserted

def matchAffinity (g : GicV3) (cpuIndex : Nat) (aff3 aff2 aff1 : U8) : Bool :=
  let mpidr := (g.localCpu cpuIndex).mpidr
  mpidr.extractLsb' 32 8 == aff3 && mpidr.extractLsb' 16 8 == aff2 &&
    mpidr.extractLsb' 8 8 == aff1

/-- Is `cpu` a target of the SGI register value? -/
def sgiTarget (g : GicV3) (sourceCpu : Nat) (value : U64) (cpu : Nat) : Bool :=
  if value.getLsbD 40 then cpu != sourceCpu
  else
    let aff0 := ((g.localCpu cpu).mpidr.extractLsb' 0 8).toNat
    g.matchAffinity cpu (value.extractLsb' 48 8) (value.extractLsb' 32 8) (value.extractLsb' 16 8)
      && decide (aff0 < 16) && value.getLsbD aff0

/-- `(value >> 24) & 0xF`. -/
def sgiIntid (value : U64) : Nat := (value.extractLsb' 24 4).toNat

/-- `send_sgi`. The `intid >= 16` exit cannot be taken. -/
def sendSgi (g : GicV3) (sourceCpu : Nat) (value : U64) : GicV3 :=
  (List.range g.cpuCount).foldl (fun g cpu =>
    if g.sgiTarget sourceCpu value cpu then g.setLocalPendingBit cpu (sgiIntid value) true else g) g

/-! ## Selection, acknowledgement, deactivation -/

/-- An INTID that `consider` looks at, with its priority. -/
structure Candidate where
  prio : U8
  intid : Nat
  deriving DecidableEq, Repr

/-- The order `consider` compares by: priority value first, then INTID. -/
def Candidate.key (c : Candidate) : Nat ×ₗ Nat := toLex (c.prio.toNat, c.intid)

theorem Candidate.key_injective : Function.Injective Candidate.key := by
  intro c c' h
  obtain ⟨hp, hi⟩ := Prod.mk.inj (toLex.injective h)
  cases c
  cases c'
  simp_all [BitVec.toNat_inj]

instance : LinearOrder Candidate := LinearOrder.lift' Candidate.key Candidate.key_injective

/-- One call of the lambda `consider`. -/
def consider (best : Option Candidate) (c : Candidate) : Option Candidate :=
  match best with
  | none => some c
  | some b => if c.prio < b.prio ∨ (c.prio = b.prio ∧ c.intid < b.intid) then some c else some b

/-- `local_candidate` and `spi_candidate`. -/
def candidate (g : GicV3) (b : Bank) (intid : Nat) (pmr : U8) : Bool :=
  g.bit .pending b intid && g.bit .enabled b intid && decide (g.prio b intid < pmr)

def localCandidate (g : GicV3) (cpuIndex intid : Nat) (pmr : U8) : Bool :=
  g.candidate (.own (g.localIdx cpuIndex)) intid pmr

def spiCandidate (g : GicV3) (intid : Nat) (pmr : U8) : Bool := g.candidate .shared intid pmr

/-- The candidates in the order `highest_pending` visits them. -/
def candidates (g : GicV3) (idx : Nat) (pmr : U8) : List Candidate :=
  ((List.range kLocalIntIds).filter (g.localCandidate idx · pmr)).map
      (fun i => ⟨(g.localCpu idx).priorities i, i⟩) ++
    ((List.range' kFirstSpiIntId (kNumIntIds - kFirstSpiIntId)).filter (g.spiCandidate · pmr)).map
      (fun i => ⟨g.spiPriorities i, i⟩)

/-- `highest_pending`; `none` is the `false` return with INTID 1023. -/
def highestPending (g : GicV3) (cpuIndex : Nat) (pmr : U8) : Option Nat :=
  ((g.candidates (g.localIdx cpuIndex) pmr).foldl consider none).map (·.intid)

/-- `has_pending`, with its per-CPU result cache. -/
def hasPending (g : GicV3) (cpuIndex : Nat) (pmr : U8) : Bool × GicV3 :=
  let idx := g.localIdx cpuIndex
  let cache := g.pendingQueryCache idx
  if cache.valid && cache.epoch == g.stateEpoch && cache.pmr == pmr then (cache.value, g)
  else
    let pending := (g.highestPending idx pmr).isSome
    (pending, { g with
      pendingQueryCache :=
        Function.update g.pendingQueryCache idx ⟨true, pending, pmr, g.stateEpoch⟩ })

/-- `acknowledge`; `none` is the `false` return with INTID 1023. -/
def acknowledge (g : GicV3) (cpuIndex : Nat) (pmr : U8) : Option Nat × GicV3 :=
  match g.highestPending cpuIndex pmr with
  | none => (none, g)
  | some intid =>
    let b := g.bankOf cpuIndex intid
    (some intid, (g.setBit .pending b intid false).setBit .active b intid true)

/-- The body shared by the two halves of `eoi`: clear active, and make an interrupt whose
line is still asserted pending again. -/
def dropActive (g : GicV3) (intid : Nat) (b : Bank) : GicV3 :=
  let g' := g.setBit .active b intid false
  if g'.bit .lineLevel b intid then g'.setBit .pending b intid true else g'

/-- `eoi`. -/
def eoi (g : GicV3) (cpuIndex intid : Nat) : GicV3 := g.onBank cpuIndex intid (g.dropActive intid)

end GicV3
end Aarchvm
