import Aarchvm.Gic.State
import Mathlib.Tactic.SplitIfs

/-!
# Interrupt controller registers

`GicV3::read` and `GicV3::write`: the distributor, one redistributor frame per
CPU, and the splitting of bus accesses into 32-bit register accesses. Offsets
are naturals; masking the low bits of an offset is division and multiplication.
-/
namespace Aarchvm

def kDistSize : Nat := 0x10000
def kRedistBase : Nat := 0x0A0000
def kRedistFrameSize : Nat := 0x20000

def kGicdCtlr : Nat := 0x0000
def kGicdTyper : Nat := 0x0004
def kGicdIidr : Nat := 0x0008
def kGicdIsenabler : Nat := 0x0100
def kGicdIcenabler : Nat := 0x0180
def kGicdIsactiver : Nat := 0x0300
def kGicdIcactiver : Nat := 0x0380
def kGicdIpriorityr : Nat := 0x0400
def kGicdPidr2 : Nat := 0xFFE8

def kGicrTyper : Nat := 0x0008
def kGicrWaker : Nat := 0x0014
def kGicrPidr2 : Nat := 0xFFE8
def kGicrSgiIgroupr0 : Nat := 0x10080
def kGicrSgiIsenabler0 : Nat := 0x10100
def kGicrSgiIcenabler0 : Nat := 0x10180
def kGicrSgiIspendr0 : Nat := 0x10200
def kGicrSgiIcpendr0 : Nat := 0x10280
def kGicrSgiIsactiver0 : Nat := 0x10300
def kGicrSgiIcactiver0 : Nat := 0x10380
def kGicrSgiIpriorityr : Nat := 0x10400
def kGicrSgiIcfgr0 : Nat := 0x10C00
def kGicrSgiIcfgr1 : Nat := 0x10C04

def kGicArchRevGicv3 : U32 := 0x30

/-- `offset >= base && offset < base + len`. -/
def regRange (offset base len : Nat) : Bool :=
  decide (base ≤ offset) && decide (offset < base + len)

def isWrite1BitmapRegister (offset : Nat) : Bool :=
  regRange offset kGicdIsenabler 0x80 || regRange offset kGicdIcenabler 0x80 ||
  regRange offset kGicdIsactiver 0x80 || regRange offset kGicdIcactiver 0x80 ||
  regRange offset (kRedistBase + kGicrSgiIsenabler0) 4 ||
  regRange offset (kRedistBase + kGicrSgiIcenabler0) 4 ||
  regRange offset (kRedistBase + kGicrSgiIspendr0) 4 ||
  regRange offset (kRedistBase + kGicrSgiIcpendr0) 4 ||
  regRange offset (kRedistBase + kGicrSgiIsactiver0) 4 ||
  regRange offset (kRedistBase + kGicrSgiIcactiver0) 4

/-- `read_part`: the addressed byte or halfword of a register value. -/
def readPart (value : U32) (offset size : Nat) : U32 :=
  let shift := (offset % 4) * 8
  if size = 1 then (value >>> shift) &&& 0xFF
  else if size = 2 then (value >>> shift) &&& 0xFFFF
  else value

/-- The loop that builds a register value from 32 flags. -/
def collectBits (flag : Nat → Bool) : U32 :=
  (List.range 32).foldl (fun value i => if flag i then value ||| (1 <<< i) else value) 0

/-- The loop that builds a register value from four priority bytes. -/
def collectBytes (byte : Nat → U8) : U32 :=
  (List.range 4).foldl (fun value i => value ||| ((byte i).setWidth 32 <<< (i * 8))) 0

def gicrAffinityValue (mpidr : U64) : U32 :=
  ((mpidr.extractLsb' 32 8).setWidth 32 <<< 24) |||
    ((mpidr.extractLsb' 16 8).setWidth 32 <<< 16) |||
    ((mpidr.extractLsb' 8 8).setWidth 32 <<< 8) ||| (mpidr.extractLsb' 0 8).setWidth 32

namespace GicV3

/-! ## Reads -/

/-- `get_spi_enable_range` and `get_spi_active_range`. -/
def getSpiRange (k : GicBit) (g : GicV3) (firstIntid : Nat) : U32 :=
  collectBits fun bit =>
    let intid := firstIntid + bit
    !(decide (kNumIntIds ≤ intid) || decide (intid < kFirstSpiIntId)) && g.spi k intid

def getSpiEnableRange := getSpiRange .enabled
def getSpiActiveRange := getSpiRange .active

def getPriorityRange (g : GicV3) (firstIntid : Nat) : U32 :=
  collectBytes fun i =>
    let intid := firstIntid + i
    if intid < kLocalIntIds then (g.locals 0).priorities intid
    else if intid < kNumIntIds then g.spiPriorities intid
    else kDefaultPriority

/-- A read of one of the distributor's bitmap registers; the first word is not backed. -/
def readDistBitmap (k : GicBit) (g : GicV3) (offset base : Nat) : U32 :=
  let n := (offset - base) / 4
  if n = 0 then 0 else getSpiRange k g (n * 32)

def readDistReg32 (g : GicV3) (offset : Nat) : U32 :=
  if offset = kGicdCtlr then g.gicdCtlr
  else if offset = kGicdTyper then 1
  else if offset = kGicdIidr then 0x0102043B
  else if regRange offset kGicdIsenabler 0x80 then readDistBitmap .enabled g offset kGicdIsenabler
  else if regRange offset kGicdIcenabler 0x80 then readDistBitmap .enabled g offset kGicdIcenabler
  else if regRange offset kGicdIsactiver 0x80 then readDistBitmap .active g offset kGicdIsactiver
  else if regRange offset kGicdIcactiver 0x80 then readDistBitmap .active g offset kGicdIcactiver
  else if regRange offset kGicdIpriorityr kNumIntIds then
    g.getPriorityRange (offset - kGicdIpriorityr)
  else if offset = kGicdPidr2 then kGicArchRevGicv3
  else 0

def readRedistReg32 (g : GicV3) (offset : Nat) : U32 :=
  if offset < kRedistBase then 0
  else
    let rel := offset - kRedistBase
    let frame := rel / kRedistFrameSize
    if g.cpuCount ≤ frame then 0
    else
      let inner := rel % kRedistFrameSize
      let l := g.localCpu frame
      if inner = kGicrTyper then
        (if frame + 1 = g.cpuCount then 0x10 else 0) ||| (BitVec.ofNat 32 frame <<< 8)
      else if inner = kGicrTyper + 4 then gicrAffinityValue l.mpidr
      else if inner = kGicrWaker then l.gicrWaker &&& ~~~4
      else if inner = kGicrPidr2 then kGicArchRevGicv3
      else if inner = kGicrSgiIgroupr0 then l.gicrIgroupr0
      else if inner = kGicrSgiIsenabler0 ∨ inner = kGicrSgiIcenabler0 then
        collectBits (l.bits .enabled)
      else if inner = kGicrSgiIspendr0 ∨ inner = kGicrSgiIcpendr0 then
        collectBits (l.bits .pending)
      else if inner = kGicrSgiIsactiver0 ∨ inner = kGicrSgiIcactiver0 then
        collectBits (l.bits .active)
      else if regRange inner kGicrSgiIpriorityr kLocalIntIds then
        -- The loop stops at the first INTID past the local ones.
        let first := inner - kGicrSgiIpriorityr
        collectBytes fun i => if first + i < kLocalIntIds then l.priorities (first + i) else 0
      else if inner = kGicrSgiIcfgr0 then l.gicrIcfgr0
      else if inner = kGicrSgiIcfgr1 then l.gicrIcfgr1
      else 0

/-- The register read that `read` makes for an offset. -/
def read32 (g : GicV3) (off : Nat) : U32 :=
  if off < kDistSize then g.readDistReg32 (off / 4 * 4) else g.readRedistReg32 (off / 4 * 4)

def read (g : GicV3) (offset size : Nat) : U64 :=
  if size ≠ 1 ∧ size ≠ 2 ∧ size ≠ 4 ∧ size ≠ 8 then 0
  else
    let value32 := g.read32 offset
    if size = 8 then
      value32.setWidth 64 ||| ((g.read32 (offset / 8 * 8 + 4)).setWidth 64 <<< 32)
    else (readPart value32 offset size).setWidth 64

/-! ## Writes -/

/-- The loop over the set bits of a written bitmap value. -/
def forBits (bits : U32) (f : GicV3 → Nat → GicV3) (g : GicV3) : GicV3 :=
  (List.range 32).foldl (fun g bit => if bits.getLsbD bit then f g bit else g) g

/-- `set_spi_enable_range` and `set_spi_active_range`. -/
def setSpiRange (k : GicBit) (g : GicV3) (firstIntid : Nat) (bits : U32) (value : Bool) : GicV3 :=
  forBits bits (fun g bit => setSpiBit k g (firstIntid + bit) value) g

def setSpiEnableRange := setSpiRange .enabled
def setSpiActiveRange := setSpiRange .active

/-- `set_priority_range` with `start_byte = 0` and `count = 4`, as every caller has it. -/
def setPriorityRange (g : GicV3) (firstIntid : Nat) (value : U32) (cpuIndex : Nat)
    (isLocal : Bool) : GicV3 :=
  let byte := fun i => value.extractLsb' (i * 8) 8
  let written := (List.range 4).foldl (fun g i =>
    let intid := firstIntid + i
    if isLocal then
      if intid < kLocalIntIds then
        g.modifyLocal (g.localIdx cpuIndex) fun l =>
          { l with priorities := Function.update l.priorities intid (byte i) }
      else g
    else if kFirstSpiIntId ≤ intid ∧ intid < kNumIntIds then
      { g with spiPriorities := Function.update g.spiPriorities intid (byte i) }
    else g) g
  { written with stateEpoch := written.stateEpoch + 1 }

/-- A write to one of the distributor's bitmap registers; the first word is not backed. -/
def writeDistBitmap (k : GicBit) (g : GicV3) (offset base : Nat) (value : U32) (set : Bool) :
    GicV3 :=
  let n := (offset - base) / 4
  if n ≠ 0 then setSpiRange k g (n * 32) value set else g

def writeDistReg32 (g : GicV3) (offset : Nat) (value : U32) : GicV3 :=
  if offset = kGicdCtlr then { g with gicdCtlr := value &&& 0x13 }
  else if regRange offset kGicdIsenabler 0x80 then
    writeDistBitmap .enabled g offset kGicdIsenabler value true
  else if regRange offset kGicdIcenabler 0x80 then
    writeDistBitmap .enabled g offset kGicdIcenabler value false
  else if regRange offset kGicdIsactiver 0x80 then
    writeDistBitmap .active g offset kGicdIsactiver value true
  else if regRange offset kGicdIcactiver 0x80 then
    writeDistBitmap .active g offset kGicdIcactiver value false
  else if regRange offset kGicdIpriorityr kNumIntIds then
    g.setPriorityRange (offset - kGicdIpriorityr) value 0 false
  else g

/-- A write to one of a frame's bitmap registers. -/
def writeFrameBitmap (k : GicBit) (g : GicV3) (frame : Nat) (value : U32) (set : Bool) : GicV3 :=
  forBits value (fun g intid => setLocalBit k g frame intid set) g

def writeRedistReg32 (g : GicV3) (offset : Nat) (value : U32) : GicV3 :=
  if offset < kRedistBase then g
  else
    let rel := offset - kRedistBase
    let frame := rel / kRedistFrameSize
    if g.cpuCount ≤ frame then g
    else
      let inner := rel % kRedistFrameSize
      let idx := g.localIdx frame
      if inner = kGicrWaker then g.modifyLocal idx ({ · with gicrWaker := value &&& 2 })
      else if inner = kGicrSgiIgroupr0 then g.modifyLocal idx ({ · with gicrIgroupr0 := value })
      else if inner = kGicrSgiIsenabler0 then g.writeFrameBitmap .enabled frame value true
      else if inner = kGicrSgiIcenabler0 then g.writeFrameBitmap .enabled frame value false
      else if inner = kGicrSgiIspendr0 then g.writeFrameBitmap .pending frame value true
      else if inner = kGicrSgiIcpendr0 then g.writeFrameBitmap .pending frame value false
      else if inner = kGicrSgiIsactiver0 then g.writeFrameBitmap .active frame value true
      else if inner = kGicrSgiIcactiver0 then g.writeFrameBitmap .active frame value false
      else if regRange inner kGicrSgiIpriorityr kLocalIntIds then
        g.setPriorityRange (inner - kGicrSgiIpriorityr) value frame true
      else if inner = kGicrSgiIcfgr0 then g.modifyLocal idx ({ · with gicrIcfgr0 := value })
      else if inner = kGicrSgiIcfgr1 then g.modifyLocal idx ({ · with gicrIcfgr1 := value })
      else g

/-- The register write that `write` makes for an offset. -/
def write32 (g : GicV3) (off : Nat) (val : U32) : GicV3 :=
  if off < kDistSize then g.writeDistReg32 off val else g.writeRedistReg32 off val

def write (g : GicV3) (offset : Nat) (value : U64) (size : Nat) : GicV3 :=
  if size ≠ 1 ∧ size ≠ 2 ∧ size ≠ 4 ∧ size ≠ 8 then g
  else if size = 8 then
    (g.write32 (offset / 8 * 8) (value.extractLsb' 0 32)).write32 (offset / 8 * 8 + 4)
      (value.extractLsb' 32 32)
  else if size ≠ 4 then
    let aligned := offset / 4 * 4
    let shift := (offset % 4) * 8
    let mask : U32 := if size = 1 then 0xFF else 0xFFFF
    let part := (value.setWidth 32 &&& mask) <<< shift
    if isWrite1BitmapRegister aligned then g.write32 aligned part
    else if offset % 4 ≠ 0 then
      let cur := if aligned < kDistSize then g.readDistReg32 aligned else g.readRedistReg32 aligned
      g.write32 aligned ((cur &&& ~~~(mask <<< shift)) ||| part)
    else g.write32 offset (value.setWidth 32)
  else g.write32 offset (value.setWidth 32)

/-- The 32-bit register writes a bus write breaks into, in order. -/
def regWrites (g : GicV3) (offset : Nat) (value : U64) (size : Nat) : List (Nat × U32) :=
  if size ≠ 1 ∧ size ≠ 2 ∧ size ≠ 4 ∧ size ≠ 8 then []
  else if size = 8 then
    [(offset / 8 * 8, value.extractLsb' 0 32), (offset / 8 * 8 + 4, value.extractLsb' 32 32)]
  else if size ≠ 4 then
    let aligned := offset / 4 * 4
    let shift := (offset % 4) * 8
    let mask : U32 := if size = 1 then 0xFF else 0xFFFF
    let part := (value.setWidth 32 &&& mask) <<< shift
    if isWrite1BitmapRegister aligned then [(aligned, part)]
    else if offset % 4 ≠ 0 then
      let cur := if aligned < kDistSize then g.readDistReg32 aligned else g.readRedistReg32 aligned
      [(aligned, (cur &&& ~~~(mask <<< shift)) ||| part)]
    else [(offset, value.setWidth 32)]
  else [(offset, value.setWidth 32)]

/-- A bus write is its register writes in order. -/
theorem write_eq_foldl_regWrites (g : GicV3) (offset : Nat) (value : U64) (size : Nat) :
    g.write offset value size =
      (g.regWrites offset value size).foldl (fun g w => g.write32 w.1 w.2) g := by
  unfold write regWrites
  dsimp only
  split_ifs <;> rfl

end GicV3
end Aarchvm
