import Aarchvm.Lib.Bytes
import Aarchvm.Virtio.Queue

/-!
# The virtio block device

`VirtioBlkMmio` from `virtio_blk_mmio.cpp`: its registers and `process_queue`. The
state change observer only tells the scheduler to look at the interrupt level
again and is left out.
-/
namespace Aarchvm.Virtio

open Lib.Bytes

def kSectorSize : Nat := 512

def kReqTypeIn : U32 := 0
def kReqTypeOut : U32 := 1
def kReqTypeFlush : U32 := 4
def kReqTypeGetId : U32 := 8

def kReqStatusOk : U8 := 0
def kReqStatusIoErr : U8 := 1
def kReqStatusUnsupported : U8 := 2

/-- `image_`. `set_image` pads it and `load_state` refuses any other length. -/
structure Image where
  bytes : List U8
  sectors : kSectorSize ∣ bytes.length
  fits : bytes.length < 2 ^ 64

namespace Image

def empty : Image := ⟨[], by decide, by decide⟩

/-- `image_.size()`. -/
def size (i : Image) : U64 := BitVec.ofNat 64 i.bytes.length

/-- `memcpy(image_.data() + off, ys.data(), ys.size())`. -/
def copyIn (i : Image) (off : Nat) (ys : List U8) : Image where
  bytes := overwrite i.bytes off ys
  sectors := by
    rw [length_overwrite]
    exact i.sectors
  fits := by
    rw [length_overwrite]
    exact i.fits

@[ext] theorem ext {i j : Image} (h : i.bytes = j.bytes) : i = j := by
  cases i
  cases j
  cases h
  rfl

@[simp] theorem bytes_copyIn (i : Image) (off : Nat) (ys : List U8) :
    (i.copyIn off ys).bytes = overwrite i.bytes off ys := rfl

theorem toNat_size (i : Image) : i.size.toNat = i.bytes.length := by
  rw [size, BitVec.toNat_ofNat]
  exact Nat.mod_eq_of_lt i.fits

end Image

structure VirtioBlkMmio where
  image : Image
  deviceFeaturesSel : U32
  driverFeaturesSel : U32
  driverFeatures : U64
  guestPageSize : U32
  queueSel : U32
  queue : QueueState
  interruptStatus : U32
  status : U32
  configGeneration : U32

namespace VirtioBlkMmio

/-- A constructed device without an image. -/
def init : VirtioBlkMmio where
  image := .empty
  deviceFeaturesSel := 0
  driverFeaturesSel := 0
  driverFeatures := 0
  guestPageSize := 4096
  queueSel := 0
  queue := .reset
  interruptStatus := 0
  status := 0
  configGeneration := 0

def devicePresent (v : VirtioBlkMmio) : Bool := !v.image.bytes.isEmpty

def raiseInterrupt (v : VirtioBlkMmio) (bits : U32) : VirtioBlkMmio :=
  { v with interruptStatus := v.interruptStatus ||| bits }

def clearInterrupt (v : VirtioBlkMmio) (bits : U32) : VirtioBlkMmio :=
  { v with interruptStatus := v.interruptStatus &&& ~~~bits }

def resetDeviceState (v : VirtioBlkMmio) : VirtioBlkMmio :=
  { v with
    deviceFeaturesSel := 0
    driverFeaturesSel := 0
    driverFeatures := 0
    guestPageSize := 4096
    queueSel := 0
    queue := .reset
    status := 0
    interruptStatus := 0 }

/-- `set_image`, for a vector whose padding still fits a `size_t`. -/
def setImage (v : VirtioBlkMmio) (image : Image) : VirtioBlkMmio :=
  resetDeviceState { v with image := image, configGeneration := v.configGeneration + 1 }

def numBlocks (v : VirtioBlkMmio) : U64 := v.image.size / 512

/-- `kFeatureVersion1 | kFeatureBlkSize`. -/
def deviceFeatures (v : VirtioBlkMmio) : U64 :=
  if v.devicePresent then (1 <<< 32) ||| (1 <<< 6) else 0

def deviceFeaturesWord (v : VirtioBlkMmio) (selector : U32) : U32 :=
  if selector = 0 then v.deviceFeatures.setWidth 32
  else if selector = 1 then (v.deviceFeatures >>> 32).setWidth 32
  else 0

/-- `read_config`: the capacity at 0 and the block size at 20. -/
def readConfig (v : VirtioBlkMmio) (offset size : U64) : U64 :=
  if !v.devicePresent ∨ size = 0 ∨ 8 < size ∨ kConfigSize < offset + size then 0
  else
    let config := overwrite (overwrite (List.replicate 256 0) 0 (leBytes 8 v.numBlocks)) 20
      (leBytes 4 512)
    leWord config offset.toNat size.toNat

def readQueueRegister (v : VirtioBlkMmio) (offset size : U64) : U64 :=
  if ¬ queueReadRegs.any (accessMatches offset size) then 0
  else if offset = kRegQueueSel then v.queueSel.setWidth 64
  else if v.queueSel ≠ 0 then 0
  else v.queue.readReg offset

/-- `VirtioBlkMmio::read`. -/
def read (v : VirtioBlkMmio) (offset size : U64) : U64 :=
  if kRegConfig ≤ offset ∧ offset < kRegConfig + kConfigSize then
    v.readConfig (offset - kRegConfig) size
  else if accessMatches offset size kRegMagicValue then kMagicValue
  else if accessMatches offset size kRegVersion then kVersionModern
  else if accessMatches offset size kRegDeviceId then if v.devicePresent then 2 else 0
  else if accessMatches offset size kRegVendorId then kVendorId
  else if accessMatches offset size kRegDeviceFeatures then
    (v.deviceFeaturesWord v.deviceFeaturesSel).setWidth 64
  else if accessMatches offset size kRegQueueNumMax then
    if v.devicePresent ∧ v.queueSel = 0 then kQueueSize.setWidth 64 else 0
  else if accessMatches offset size kRegInterruptStatus then v.interruptStatus.setWidth 64
  else if accessMatches offset size kRegStatus then v.status.setWidth 64
  else if accessMatches offset size kRegConfigGeneration then v.configGeneration.setWidth 64
  else v.readQueueRegister offset size

/-! ## Requests -/

section Requests

variable {D : Type}

/-- What the walk of a well-formed chain yields. -/
structure Request where
  type : U32
  sector : U64
  segments : List TransferSegment
  statusAddr : U64
  statusLen : U32

/-- The descriptor loop of `process_request`. `fuel` is how many more hops
`++hops > queue_.num` lets through. -/
def walkChain (q : QueueState) (b : Bus D) :
    Nat → U16 → List TransferSegment → Option (List TransferSegment × U64 × U32)
  | 0, _, _ => none
  | fuel + 1, index, segments =>
    match readDescriptor b q index with
    | none => none
    | some d =>
      if d.isIndirect then none
      else if d.hasNext then walkChain q b fuel d.next (segments ++ [d.segment])
      else if !d.isWrite ∨ d.len = 0 then none
      else some (segments, d.addr, d.len)

/-- The header and the chain; `none` is a return before the request has a status byte. -/
def readRequest (q : QueueState) (b : Bus D) (headIndex : U16) : Option Request :=
  match readDescriptor b q headIndex with
  | none => none
  | some d =>
    if d.len < 16 ∨ d.isWrite ∨ d.isIndirect ∨ !d.hasNext then none
    else
      match readGuest b d.addr 16 with
      | none => none
      | some hdr =>
        (walkChain q b q.num.toNat d.next []).map fun (segments, statusAddr, statusLen) =>
          { type := (leWord hdr 0 4).setWidth 32
            sector := leWord hdr 8 8
            segments := segments
            statusAddr := statusAddr
            statusLen := statusLen }

/-- `total_data_bytes`. -/
def totalDataBytes (segments : List TransferSegment) : U64 :=
  segments.foldl (fun total seg => total + seg.len.setWidth 64) 0

/-- What `process_request` returns, fills in and leaves behind. -/
structure Response (D : Type) where
  image : Image
  bus : Bus D
  usedLen : U32
  statusByte : U8
  ok : Bool

/-- `return write_status(byte)`. -/
def writeStatus (r : Request) (image : Image) (b : Bus D) (usedLen : U32) (byte : U8) :
    Response D :=
  match if r.statusLen = 0 then none else writeGuest b r.statusAddr [byte] with
  | none => ⟨image, b, usedLen, byte, false⟩
  | some b' => ⟨image, b', usedLen, byte, true⟩

/-- The tests `kReqTypeIn` and `kReqTypeOut` start with. -/
def rejects (image : Image) (r : Request) : Bool :=
  let imageOffset := r.sector * 512
  totalDataBytes r.segments % 512 != 0 ||
    (decide (image.size < imageOffset) ||
      decide (image.size - imageOffset < totalDataBytes r.segments))

/-- The loop of `kReqTypeIn`, from position `off` of the image; the flag is false when a
segment stops it. -/
def writeSegments (image : Image) (off : Nat) : Bus D → List TransferSegment → Bus D × Bool
  | b, [] => (b, true)
  | b, seg :: segs =>
    if !seg.writable then (b, false)
    else
      match writeGuest b seg.addr (slice image.bytes off seg.len.toNat) with
      | none => (b, false)
      | some b' => writeSegments image (off + seg.len.toNat) b' segs

/-- The loop of `kReqTypeOut`, which fills the image as it goes. -/
def readSegments (b : Bus D) : Nat → Image → List TransferSegment → Image × Bool
  | _, image, [] => (image, true)
  | off, image, seg :: segs =>
    if seg.writable then (image, false)
    else
      match readGuest b seg.addr (seg.len.setWidth 64) with
      | none => (image, false)
      | some tmp => readSegments b (off + tmp.length) (image.copyIn off tmp) segs

/-- `id_bytes`: `"aarchvm-virtblk"`, padded. -/
def idBytes : List U8 :=
  [0x61, 0x61, 0x72, 0x63, 0x68, 0x76, 0x6d, 0x2d, 0x76, 0x69, 0x72, 0x74, 0x62, 0x6c, 0x6b,
   0, 0, 0, 0, 0]

/-- The loop of `kReqTypeGetId`: the bytes copied, or `none` when a segment fails. -/
def writeId : Nat → Bus D → List TransferSegment → Bus D × Option Nat
  | copied, b, [] => (b, some copied)
  | copied, b, seg :: segs =>
    if !seg.writable then (b, none)
    else
      let chunk := min seg.len.toNat (idBytes.length - copied)
      if chunk = 0 then (b, some copied)
      else
        match writeGuest b seg.addr (slice idBytes copied chunk) with
        | none => (b, none)
        | some b' => writeId (copied + chunk) b' segs

/-- The `switch` of `process_request`. -/
def serve (image : Image) (b : Bus D) (r : Request) : Response D :=
  let off := (r.sector * 512).toNat
  if r.type = kReqTypeIn then
    if rejects image r then writeStatus r image b 0 kReqStatusIoErr
    else
      match writeSegments image off b r.segments with
      | (b', false) => writeStatus r image b' 0 kReqStatusIoErr
      | (b', true) =>
        writeStatus r image b' ((totalDataBytes r.segments + 1).setWidth 32) kReqStatusOk
  else if r.type = kReqTypeOut then
    if rejects image r then writeStatus r image b 0 kReqStatusIoErr
    else
      match readSegments b off image r.segments with
      | (image', false) => writeStatus r image' b 0 kReqStatusIoErr
      | (image', true) => writeStatus r image' b 1 kReqStatusOk
  else if r.type = kReqTypeFlush then writeStatus r image b 1 kReqStatusOk
  else if r.type = kReqTypeGetId then
    if r.segments = [] then writeStatus r image b 0 kReqStatusIoErr
    else
      match writeId 0 b r.segments with
      | (b', none) => writeStatus r image b' 0 kReqStatusIoErr
      | (b', some copied) =>
        if copied < idBytes.length then writeStatus r image b' 0 kReqStatusIoErr
        else writeStatus r image b' 21 kReqStatusOk
  else writeStatus r image b 1 kReqStatusUnsupported

/-- `process_request`. -/
def processRequest (v : VirtioBlkMmio) (b : Bus D) (headIndex : U16) : Response D :=
  match readRequest v.queue b headIndex with
  | none => ⟨v.image, b, 0, kReqStatusIoErr, false⟩
  | some r => serve v.image b r

/-- One turn of the loop of `process_queue`, after the head index was read. The flag says
whether the loop goes on, having completed the request. -/
def completeRequest (v : VirtioBlkMmio) (b : Bus D) (headIndex : U16) :
    VirtioBlkMmio × Bus D × Bool :=
  let r := v.processRequest b headIndex
  let v := { v with image := r.image }
  let usedLen := if r.ok then r.usedLen else 1
  match writeUsed r.bus v.queue headIndex usedLen with
  | (b, false) => (v, b, false)
  | (b, true) =>
    let queue := { v.queue with
      lastAvailIdx := v.queue.lastAvailIdx + 1
      usedIdx := v.queue.usedIdx + 1 }
    let v := { v with queue := queue }
    match writeGuestU16 b (queue.usedAddr + 2) queue.usedIdx with
    | none => (v, b, false)
    | some b => (v, b, true)

/-- The loop of `process_queue`. A turn that does not break moves `last_avail_idx` one
closer to `avail_idx`, so `2 ^ 16` turns always do. -/
def processLoop (availIdx : U16) : Nat → VirtioBlkMmio → Bus D → Bool →
    VirtioBlkMmio × Bus D × Bool
  | 0, v, b, anyCompleted => (v, b, anyCompleted)
  | fuel + 1, v, b, anyCompleted =>
    if v.queue.lastAvailIdx = availIdx then (v, b, anyCompleted)
    else
      match readGuestU16 b (ringAddr v.queue) with
      | none => (v, b, anyCompleted)
      | some headIndex =>
        match v.completeRequest b headIndex with
        | (v', b', false) => (v', b', anyCompleted)
        | (v', b', true) => processLoop availIdx fuel v' b' true

/-- `process_queue`. -/
def processQueue (v : VirtioBlkMmio) (b : Bus D) (queueIndex : U32) : VirtioBlkMmio × Bus D :=
  if queueIndex ≠ 0 ∨ !v.devicePresent ∨ v.queue.idle then (v, b)
  else
    match readGuestU16 b (v.queue.availAddr + 2) with
    | none => (v, b)
    | some availIdx =>
      match processLoop availIdx (2 ^ 16) v b false with
      | (v', b', true) => (v'.raiseInterrupt kInterruptVring, b')
      | (v', b', false) => (v', b')

def writeQueueRegister (v : VirtioBlkMmio) (b : Bus D) (offset value size : U64) :
    VirtioBlkMmio × Bus D :=
  if ¬ queueWriteRegs.any (accessMatches offset size) then (v, b)
  else if offset = kRegQueueSel then ({ v with queueSel := value.setWidth 32 }, b)
  else if offset = kRegQueueNotify then v.processQueue b (value.setWidth 32)
  else if v.queueSel ≠ 0 then (v, b)
  else ({ v with queue := v.queue.writeReg offset value }, b)

/-- `VirtioBlkMmio::write`. -/
def write (v : VirtioBlkMmio) (b : Bus D) (offset value size : U64) : VirtioBlkMmio × Bus D :=
  if kRegConfig ≤ offset ∧ offset < kRegConfig + kConfigSize then (v, b)
  else if accessMatches offset size kRegDeviceFeaturesSel then
    ({ v with deviceFeaturesSel := value.setWidth 32 }, b)
  else if accessMatches offset size kRegDriverFeaturesSel then
    ({ v with driverFeaturesSel := value.setWidth 32 }, b)
  else if accessMatches offset size kRegDriverFeatures then
    ({ v with driverFeatures := mergeFeatures v.driverFeatures v.driverFeaturesSel value }, b)
  else if accessMatches offset size kRegGuestPageSize then
    ({ v with guestPageSize := value.setWidth 32 }, b)
  else if accessMatches offset size kRegInterruptAck then
    (v.clearInterrupt (value.setWidth 32), b)
  else if accessMatches offset size kRegStatus then
    if value.setWidth 32 = (0 : U32) then (v.resetDeviceState, b)
    else ({ v with status := value.setWidth 32 }, b)
  else v.writeQueueRegister b offset value size

end Requests
end VirtioBlkMmio
end Aarchvm.Virtio
