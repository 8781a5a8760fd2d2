import Aarchvm.Bus.Map

/-!
# Split virtqueues in guest memory

What `VirtioBlkMmio` and `VirtioNetMmio` share: their queue registers, the access
to guest RAM through the bus and the descriptors found there. Both classes have
their own copy of each function here, with the same body.
-/
namespace Aarchvm.Virtio

def kQueueSize : U32 := 128

def kVringDescFNext : U16 := 1
def kVringDescFWrite : U16 := 2
def kVringDescFIndirect : U16 := 4

def kInterruptVring : U32 := 1

/-- `QueueState`. `write_queue_register` caps `num` and `load_state` refuses a larger one. -/
structure QueueState where
  num : U32
  ready : Bool
  descAddr : U64
  availAddr : U64
  usedAddr : U64
  lastAvailIdx : U16
  usedIdx : U16
  num_le : num ≤ kQueueSize
  deriving DecidableEq

def QueueState.reset : QueueState := ⟨0, false, 0, 0, 0, 0, 0, by decide⟩

/-- `TransferSegment`. -/
structure TransferSegment where
  addr : U64
  len : U32
  writable : Bool
  deriving DecidableEq, Repr

/-- `load_le<T>(bytes + off)` for a `T` of `n` bytes. -/
def leWord (bytes : List U8) (off n : Nat) : U64 := loadLe (bytes.getD · 0) off n

/-- `store_le` of a `T` of `n` bytes. -/
def leBytes (n : Nat) (value : U64) : List U8 := (List.range n).map (byteOf value)

section Guest

variable {D : Type} (b : Bus D)

/-- `read_guest`; `none` is the `false` return. -/
def readGuest (addr size : U64) : Option (List U8) :=
  if size = 0 then some []
  else
    match b.ramPtr addr size with
    | none => none
    | some p =>
      some ((List.range size.toNat).map fun k => (b.rams p.ram).data (p.offset.toNat + k))

/-- `write_guest`; `none` is the `false` return. -/
def writeGuest (addr : U64) (src : List U8) : Option (Bus D) :=
  b.writeRamBuffer addr (some (src.getD · 0)) (BitVec.ofNat 64 src.length)

def readGuestU16 (addr : U64) : Option U16 :=
  (readGuest b addr 2).map fun bytes => (leWord bytes 0 2).setWidth 16

def writeGuestU16 (addr : U64) (value : U16) : Option (Bus D) :=
  writeGuest b addr (leBytes 2 (value.setWidth 64))

def writeGuestU32 (addr : U64) (value : U32) : Option (Bus D) :=
  writeGuest b addr (leBytes 4 (value.setWidth 64))

/-- What `read_descriptor` fills in. -/
structure Descriptor where
  addr : U64
  len : U32
  flags : U16
  next : U16
  deriving DecidableEq, Repr

namespace Descriptor

def hasNext (d : Descriptor) : Bool := d.flags &&& kVringDescFNext != 0
def isWrite (d : Descriptor) : Bool := d.flags &&& kVringDescFWrite != 0
def isIndirect (d : Descriptor) : Bool := d.flags &&& kVringDescFIndirect != 0
def segment (d : Descriptor) : TransferSegment := ⟨d.addr, d.len, d.isWrite⟩

end Descriptor

/-- `read_descriptor`; `none` is the `false` return. -/
def readDescriptor (q : QueueState) (index : U16) : Option Descriptor :=
  if q.num = 0 ∨ q.num ≤ index.setWidth 32 then none
  else
    let descAddr := q.descAddr + index.setWidth 64 * 16
    (readGuest b descAddr 16).map fun desc =>
      { addr := leWord desc 0 8
        len := (leWord desc 8 4).setWidth 32
        flags := (leWord desc 12 2).setWidth 16
        next := (leWord desc 14 2).setWidth 16 }

/-- The bytes of a chain's segments, in order; `none` when one of them is not readable. -/
def gather : List TransferSegment → Option (List U8)
  | [] => some []
  | seg :: segs =>
    match readGuest b seg.addr (seg.len.setWidth 64), gather segs with
    | some bytes, some rest => some (bytes ++ rest)
    | _, _ => none

/-- The address of the available ring's entry for `last_avail_idx`. -/
def ringAddr (q : QueueState) : U64 :=
  q.availAddr + 4 + (q.lastAvailIdx.setWidth 32 % q.num).setWidth 64 * 2

/-- The address of the used ring's element for `used_idx`. -/
def usedElemAddr (q : QueueState) : U64 :=
  q.usedAddr + 4 + ((q.usedIdx.setWidth 32 % q.num) * 8).setWidth 64

/-- One used element: the head index, then the length. The bus is what the stores that
went through left; the flag is the return value. -/
def writeUsed (q : QueueState) (headIndex : U16) (usedLen : U32) : Bus D × Bool :=
  match writeGuestU32 b (usedElemAddr q) (headIndex.setWidth 32) with
  | none => (b, false)
  | some b =>
    match writeGuestU32 b (usedElemAddr q + 4) usedLen with
    | none => (b, false)
    | some b => (b, true)

end Guest

/-! ## Queue registers -/

def kRegMagicValue : U64 := 0x000
def kRegVersion : U64 := 0x004
def kRegDeviceId : U64 := 0x008
def kRegVendorId : U64 := 0x00c
def kRegDeviceFeatures : U64 := 0x010
def kRegDeviceFeaturesSel : U64 := 0x014
def kRegDriverFeatures : U64 := 0x020
def kRegDriverFeaturesSel : U64 := 0x024
def kRegGuestPageSize : U64 := 0x028
def kRegQueueSel : U64 := 0x030
def kRegQueueNumMax : U64 := 0x034
def kRegQueueNum : U64 := 0x038
def kRegQueueReady : U64 := 0x044
def kRegQueueNotify : U64 := 0x050
def kRegInterruptStatus : U64 := 0x060
def kRegInterruptAck : U64 := 0x064
def kRegStatus : U64 := 0x070
def kRegQueueDescLow : U64 := 0x080
def kRegQueueDescHigh : U64 := 0x084
def kRegQueueAvailLow : U64 := 0x090
def kRegQueueAvailHigh : U64 := 0x094
def kRegQueueUsedLow : U64 := 0x0a0
def kRegQueueUsedHigh : U64 := 0x0a4
def kRegConfigGeneration : U64 := 0x0fc
def kRegConfig : U64 := 0x100
def kConfigSize : U64 := 0x100

def kMagicValue : U64 := 0x74726976
def kVersionModern : U64 := 2
def kVendorId : U64 := 0x41564d31

/-- `access_matches<std::uint32_t>`. -/
def accessMatches (offset size reg : U64) : Bool := offset == reg && size == 4

/-- The registers `read_queue_register` goes on with. -/
def queueReadRegs : List U64 :=
  [kRegQueueSel, kRegQueueNum, kRegQueueReady, kRegQueueDescLow, kRegQueueDescHigh,
   kRegQueueAvailLow, kRegQueueAvailHigh, kRegQueueUsedLow, kRegQueueUsedHigh]

/-- The registers `write_queue_register` goes on with. -/
def queueWriteRegs : List U64 := kRegQueueNotify :: queueReadRegs

/-- `(addr & 0xffffffff00000000) | uint32(value)`. -/
def setLow (addr value : U64) : U64 :=
  (addr &&& 0xffffffff00000000) ||| (value.setWidth 32).setWidth 64

/-- `(addr & 0x00000000ffffffff) | (uint64(uint32(value)) << 32)`. -/
def setHigh (addr value : U64) : U64 :=
  (addr &&& 0x00000000ffffffff) ||| ((value.setWidth 32).setWidth 64 <<< 32)

/-- `driver_features_` after a write to the word `selector` picks. -/
def mergeFeatures (features : U64) (selector : U32) (value : U64) : U64 :=
  let shift := if selector = 0 then 0 else 32
  let mask := (0xffffffff : U64) <<< shift
  (features &&& ~~~mask) ||| (((value.setWidth 32).setWidth 64 <<< shift) &&& mask)

namespace QueueState

/-- The queue's own registers in `read_queue_register`. -/
def readReg (q : QueueState) (offset : U64) : U64 :=
  if offset = kRegQueueNum then q.num.setWidth 64
  else if offset = kRegQueueReady then if q.ready then 1 else 0
  else if offset = kRegQueueDescLow then (q.descAddr.setWidth 32).setWidth 64
  else if offset = kRegQueueDescHigh then ((q.descAddr >>> 32).setWidth 32).setWidth 64
  else if offset = kRegQueueAvailLow then (q.availAddr.setWidth 32).setWidth 64
  else if offset = kRegQueueAvailHigh then ((q.availAddr >>> 32).setWidth 32).setWidth 64
  else if offset = kRegQueueUsedLow then (q.usedAddr.setWidth 32).setWidth 64
  else if offset = kRegQueueUsedHigh then ((q.usedAddr >>> 32).setWidth 32).setWidth 64
  else 0

/-- `std::min(static_cast<std::uint32_t>(value), kQueueSize)`. -/
def setNum (q : QueueState) (value : U64) : QueueState :=
  if h : value.setWidth 32 ≤ kQueueSize then { q with num := value.setWidth 32, num_le := h }
  else { q with num := kQueueSize, num_le := by decide }

def setReady (q : QueueState) (value : U64) : QueueState :=
  if value ≠ 0 then { q with ready := true }
  else { q with ready := false, lastAvailIdx := 0, usedIdx := 0 }

/-- The `switch` of `write_queue_register`. -/
def writeReg (q : QueueState) (offset value : U64) : QueueState :=
  if offset = kRegQueueNum then q.setNum value
  else if offset = kRegQueueReady then q.setReady value
  else if offset = kRegQueueDescLow then { q with descAddr := setLow q.descAddr value }
  else if offset = kRegQueueDescHigh then { q with descAddr := setHigh q.descAddr value }
  else if offset = kRegQueueAvailLow then { q with availAddr := setLow q.availAddr value }
  else if offset = kRegQueueAvailHigh then { q with availAddr := setHigh q.availAddr value }
  else if offset = kRegQueueUsedLow then { q with usedAddr := setLow q.usedAddr value }
  else if offset = kRegQueueUsedHigh then { q with usedAddr := setHigh q.usedAddr value }
  else q

/-- The guards at the top of `process_queue`, `process_tx` and `process_rx`. -/
def idle (q : QueueState) : Bool :=
  !q.ready || q.num == 0 || q.descAddr == 0 || q.availAddr == 0 || q.usedAddr == 0

end QueueState
end Aarchvm.Virtio
