import Aarchvm.Lib.Bytes
import Aarchvm.Virtio.Queue
import Mathlib

/-!
# The virtio network device

`VirtioNetMmio` from `virtio_net_mmio.cpp`. The host side of a transmission is
`tx_frame_handler_`; it may answer before it returns, so what it injects is an
input of the call that transmits. Chains have at most 128 segments of a 32-bit
length, so the sums of lengths fit a `size_t` and are taken over the naturals.
-/
namespace Aarchvm.Virtio

open Lib.Bytes

def kFeatureMac : U64 := 1 <<< 5
def kFeatureMrgRxbuf : U64 := 1 <<< 15
def kFeatureStatus : U64 := 1 <<< 16
def kFeatureVersion1 : U64 := 1 <<< 32

def kVirtioNetHdrSize : Nat := 10
def kVirtioNetMrgRxbufHdrSize : Nat := 12

/-- `mac_`. -/
structure Mac where
  bytes : List U8
  length_eq : bytes.length = 6
  deriving DecidableEq

structure VirtioNetMmio where
  present : Bool
  loopbackEnabled : Bool
  mac : Mac
  pendingRxFrames : List (List U8)
  deviceFeaturesSel : U32
  driverFeaturesSel : U32
  driverFeatures : U64
  guestPageSize : U32
  queueSel : U32
  /-- `queues_[kQueueRx]` and `queues_[kQueueTx]` -/
  rx : QueueState
  tx : QueueState
  interruptStatus : U32
  status : U32
  configGeneration : U32
  guestHeaderSize : Nat
  deriving DecidableEq

/-- The device with the memory it copies through and the frames it has handed to
`tx_frame_handler_`, oldest first. -/
structure NetState (D : Type) where
  dev : VirtioNetMmio
  bus : Bus D
  sent : List (List U8)

/-- `tx_frame_handler_`, if one is set: given the frames handed over so far, the frames it
injects before it returns. -/
abbrev TxFrameHandler := Option (List (List U8) → List (List U8))

namespace VirtioNetMmio

def init : VirtioNetMmio where
  present := false
  loopbackEnabled := false
  mac := ⟨[0x02, 0x41, 0x56, 0x4d, 0x00, 0x01], rfl⟩
  pendingRxFrames := []
  deviceFeaturesSel := 0
  driverFeaturesSel := 0
  driverFeatures := 0
  guestPageSize := 4096
  queueSel := 0
  rx := .reset
  tx := .reset
  interruptStatus := 0
  status := 0
  configGeneration := 0
  guestHeaderSize := kVirtioNetHdrSize

def raiseInterrupt (v : VirtioNetMmio) (bits : U32) : VirtioNetMmio :=
  { v with interruptStatus := v.interruptStatus ||| bits }

def clearInterrupt (v : VirtioNetMmio) (bits : U32) : VirtioNetMmio :=
  { v with interruptStatus := v.interruptStatus &&& ~~~bits }

def resetDeviceState (v : VirtioNetMmio) : VirtioNetMmio :=
  { v with
    deviceFeaturesSel := 0
    driverFeaturesSel := 0
    driverFeatures := 0
    guestHeaderSize := kVirtioNetHdrSize
    guestPageSize := 4096
    queueSel := 0
    rx := .reset
    tx := .reset
    status := 0
    interruptStatus := 0 }

/-- `attach_host_backend`, `attach_loopback` and `detach`. -/
def attach (v : VirtioNetMmio) (present loopback : Bool) (mac : Mac) : VirtioNetMmio :=
  resetDeviceState { v with
    mac := mac
    present := present
    loopbackEnabled := loopback
    pendingRxFrames := []
    configGeneration := v.configGeneration + 1 }

def attachHostBackend (v : VirtioNetMmio) (mac : Mac) : VirtioNetMmio := v.attach true false mac
def attachLoopback (v : VirtioNetMmio) (mac : Mac) : VirtioNetMmio := v.attach true true mac
def detach (v : VirtioNetMmio) : VirtioNetMmio := v.attach false false v.mac

def deviceFeatures (v : VirtioNetMmio) : U64 :=
  if v.present then kFeatureMac ||| kFeatureMrgRxbuf ||| kFeatureStatus ||| kFeatureVersion1 else 0

def deviceFeaturesWord (v : VirtioNetMmio) (selector : U32) : U32 :=
  if selector = 0 then v.deviceFeatures.setWidth 32
  else if selector = 1 then (v.deviceFeatures >>> 32).setWidth 32
  else 0

/-- `read_config`: the MAC at 0 and the link status at 6. -/
def readConfig (v : VirtioNetMmio) (offset size : U64) : U64 :=
  if !v.present ∨ size = 0 ∨ 8 < size ∨ kConfigSize < offset + size then 0
  else
    let config := overwrite (overwrite (List.replicate 256 0) 0 v.mac.bytes) 6 (leBytes 2 1)
    leWord config offset.toNat size.toNat

/-- `queues_[queue_sel_]`, when the selector is below `kQueueCount`. -/
def selected (v : VirtioNetMmio) : Option QueueState :=
  if v.queueSel = 0 then some v.rx else if v.queueSel = 1 then some v.tx else none

def readQueueRegister (v : VirtioNetMmio) (offset size : U64) : U64 :=
  if ¬ queueReadRegs.any (accessMatches offset size) then 0
  else if offset = kRegQueueSel then v.queueSel.setWidth 64
  else
    match v.selected with
    | none => 0
    | some q => q.readReg offset

/-- `VirtioNetMmio::read`. -/
def read (v : VirtioNetMmio) (offset size : U64) : U64 :=
  if kRegConfig ≤ offset ∧ offset < kRegConfig + kConfigSize then
    v.readConfig (offset - kRegConfig) size
  else if accessMatches offset size kRegMagicValue then kMagicValue
  else if accessMatches offset size kRegVersion then kVersionModern
  else if accessMatches offset size kRegDeviceId then if v.present then 1 else 0
  else if accessMatches offset size kRegVendorId then kVendorId
  else if accessMatches offset size kRegDeviceFeatures then
    (v.deviceFeaturesWord v.deviceFeaturesSel).setWidth 64
  else if accessMatches offset size kRegQueueNumMax then
    if v.present ∧ v.queueSel < 2 then kQueueSize.setWidth 64 else 0
  else if accessMatches offset size kRegInterruptStatus then v.interruptStatus.setWidth 64
  else if accessMatches offset size kRegStatus then v.status.setWidth 64
  else if accessMatches offset size kRegConfigGeneration then v.configGeneration.setWidth 64
  else v.readQueueRegister offset size

/-! ## Header widths -/

def netHeaderSize (v : VirtioNetMmio) : Nat :=
  if v.driverFeatures &&& kFeatureMrgRxbuf != 0 then kVirtioNetMrgRxbufHdrSize
  else kVirtioNetHdrSize

def activeHeaderSize (v : VirtioNetMmio) : Nat := max v.netHeaderSize v.guestHeaderSize

def looksLikeEthernetFrame (data : List U8) : Bool :=
  decide (14 ≤ data.length) &&
    decide ((0x0600 : U16) ≤
      ((data.getD 12 0).setWidth 16 <<< 8) ||| (data.getD 13 0).setWidth 16)

def detectTxHeaderSize (v : VirtioNetMmio) (segments : List TransferSegment)
    (chainBytes : List U8) : Nat :=
  let room := kVirtioNetMrgRxbufHdrSize ≤ chainBytes.length
  if v.guestHeaderSize = kVirtioNetMrgRxbufHdrSize ∧ room then kVirtioNetMrgRxbufHdrSize
  else if v.netHeaderSize = kVirtioNetMrgRxbufHdrSize ∧ room then kVirtioNetMrgRxbufHdrSize
  else if segments.head?.any (fun seg => decide (kVirtioNetMrgRxbufHdrSize ≤ seg.len.toNat)) ∧
      room ∧ (chainBytes.take kVirtioNetMrgRxbufHdrSize).all (· == 0) ∧
      looksLikeEthernetFrame (chainBytes.drop kVirtioNetMrgRxbufHdrSize) then
    kVirtioNetMrgRxbufHdrSize
  else kVirtioNetHdrSize

/-! ## Queues -/

section Queues

variable {D : Type}

/-- `collect_chain`. `fuel` is how many more hops `++hops > queue.num` lets through. -/
def collectChain (b : Bus D) (q : QueueState) :
    Nat → U16 → List TransferSegment → Option (List TransferSegment)
  | 0, _, _ => none
  | fuel + 1, index, segments =>
    match readDescriptor b q index with
    | none => none
    | some d =>
      if d.isIndirect then none
      else if d.hasNext then collectChain b q fuel d.next (segments ++ [d.segment])
      else some (segments ++ [d.segment])

def chainLength (segments : List TransferSegment) : Nat := (segments.map (·.len.toNat)).sum

/-- `++last_avail_idx; ++used_idx`. -/
def advance (q : QueueState) : QueueState :=
  { q with lastAvailIdx := q.lastAvailIdx + 1, usedIdx := q.usedIdx + 1 }

/-- The header the device puts in front of a received frame, and the frame. -/
def payload (hdrSize : Nat) (frame : List U8) : List U8 :=
  let header := List.replicate hdrSize 0
  (if hdrSize = kVirtioNetMrgRxbufHdrSize then overwrite header kVirtioNetHdrSize [1, 0]
    else header) ++ frame

/-- The copy loop of `process_rx`; the flag is false when a store fails or bytes remain. -/
def writePayload : Bus D → List TransferSegment → List U8 → Bus D × Bool
  | b, _, [] => (b, true)
  | b, [], _ :: _ => (b, false)
  | b, seg :: segs, data =>
    match writeGuest b seg.addr (data.take seg.len.toNat) with
    | none => (b, false)
    | some b' => writePayload b' segs (data.drop seg.len.toNat)

/-- One turn of `process_rx` for the frame at the front; the flag says whether the loop
goes on. -/
def receive (s : NetState D) (hdrSize : Nat) (frame : List U8) (rest : List (List U8))
    (headIndex : U16) : NetState D × Bool :=
  match collectChain s.bus s.dev.rx s.dev.rx.num.toNat headIndex [] with
  | none => (s, false)
  | some segments =>
    if segments = [] ∨ segments.any (fun seg => !seg.writable) then (s, false)
    else
      let data := payload hdrSize frame
      if chainLength segments < data.length then (s, false)
      else
        match writePayload s.bus segments data with
        | (b, false) => ({ s with bus := b }, false)
        | (b, true) =>
          match writeUsed b s.dev.rx headIndex (BitVec.ofNat 32 data.length) with
          | (b, false) => ({ s with bus := b }, false)
          | (b, true) =>
            let rx := advance s.dev.rx
            let dev := { s.dev with rx := rx, pendingRxFrames := rest }
            match writeGuestU16 b (rx.usedAddr + 2) rx.usedIdx with
            | none => ({ s with dev := dev, bus := b }, false)
            | some b => ({ s with dev := dev, bus := b }, true)

/-- The loop of `process_rx`, with `any_completed`. A turn that goes on moves
`last_avail_idx`, so `2 ^ 16` turns always do. -/
def rxLoop (hdrSize : Nat) (availIdx : U16) : Nat → NetState D → Bool → NetState D × Bool
  | 0, s, anyCompleted => (s, anyCompleted)
  | fuel + 1, s, anyCompleted =>
    if s.dev.rx.lastAvailIdx = availIdx then (s, anyCompleted)
    else
      match s.dev.pendingRxFrames with
      | [] => (s, anyCompleted)
      | frame :: rest =>
        match readGuestU16 s.bus (ringAddr s.dev.rx) with
        | none => (s, anyCompleted)
        | some headIndex =>
          match receive s hdrSize frame rest headIndex with
          | (s', false) => (s', anyCompleted)
          | (s', true) => rxLoop hdrSize availIdx fuel s' true

/-- `process_rx`. -/
def processRx (s : NetState D) : NetState D × Bool :=
  let hdrSize := s.dev.activeHeaderSize
  if s.dev.pendingRxFrames = [] ∨ s.dev.rx.idle then (s, false)
  else
    match readGuestU16 s.bus (s.dev.rx.availAddr + 2) with
    | none => (s, false)
    | some availIdx => rxLoop hdrSize availIdx (2 ^ 16) s false

def raise (s : NetState D) : NetState D := { s with dev := s.dev.raiseInterrupt kInterruptVring }

/-- `enqueue_rx_frame`. -/
def enqueueRxFrame (s : NetState D) (frame : List U8) : NetState D × Bool :=
  if !s.dev.present then (s, false)
  else
    let dev := { s.dev with pendingRxFrames := s.dev.pendingRxFrames ++ [frame] }
    match processRx { s with dev := dev } with
    | (s', true) => (raise s', true)
    | (s', false) => (s', true)

/-- `tx_frame_handler_(std::move(frame))`. -/
def handOver (handler : TxFrameHandler) (s : NetState D) (frame : List U8) : NetState D :=
  match handler with
  | none => s
  | some answer =>
    let s := { s with sent := s.sent ++ [frame] }
    (answer s.sent).foldl (fun s frame => (enqueueRxFrame s frame).1) s

/-- One turn of `process_tx`; the flag says whether the loop goes on. -/
def transmit (handler : TxFrameHandler) (s : NetState D) (headIndex : U16) : NetState D × Bool :=
  match collectChain s.bus s.dev.tx s.dev.tx.num.toNat headIndex [] with
  | none => (s, false)
  | some segments =>
    if segments = [] ∨ segments.any (·.writable) ∨ chainLength segments < kVirtioNetHdrSize then
      (s, false)
    else
      match gather s.bus segments with
      | none => (s, false)
      | some chainBytes =>
        let hdrSize := s.dev.detectTxHeaderSize segments chainBytes
        let frame := chainBytes.drop hdrSize
        let dev := { s.dev with
          guestHeaderSize := hdrSize
          driverFeatures :=
            if hdrSize = kVirtioNetMrgRxbufHdrSize then s.dev.driverFeatures ||| kFeatureMrgRxbuf
            else s.dev.driverFeatures }
        let s := { s with dev := dev }
        let s :=
          if s.dev.loopbackEnabled then
            { s with dev := { dev with pendingRxFrames := dev.pendingRxFrames ++ [frame] } }
          else handOver handler s frame
        match writeUsed s.bus s.dev.tx headIndex 0 with
        | (b, false) => ({ s with bus := b }, false)
        | (b, true) =>
          let tx := advance s.dev.tx
          let dev := { s.dev with tx := tx }
          match writeGuestU16 b (tx.usedAddr + 2) tx.usedIdx with
          | none => ({ s with dev := dev, bus := b }, false)
          | some b => ({ s with dev := dev, bus := b }, true)

/-- The loop of `process_tx`, with `any_completed`. -/
def txLoop (handler : TxFrameHandler) (availIdx : U16) :
    Nat → NetState D → Bool → NetState D × Bool
  | 0, s, anyCompleted => (s, anyCompleted)
  | fuel + 1, s, anyCompleted =>
    if s.dev.tx.lastAvailIdx = availIdx then (s, anyCompleted)
    else
      match readGuestU16 s.bus (ringAddr s.dev.tx) with
      | none => (s, anyCompleted)
      | some headIndex =>
        match transmit handler s headIndex with
        | (s', false) => (s', anyCompleted)
        | (s', true) => txLoop handler availIdx fuel s' true

/-- `process_tx`. -/
def processTx (handler : TxFrameHandler) (s : NetState D) : NetState D × Bool :=
  if s.dev.tx.idle then (s, false)
  else
    match readGuestU16 s.bus (s.dev.tx.availAddr + 2) with
    | none => (s, false)
    | some availIdx => txLoop handler availIdx (2 ^ 16) s false

/-- `process_queue`. -/
def processQueue (handler : TxFrameHandler) (s : NetState D) (queueIndex : U32) : NetState D :=
  if !s.dev.present then s
  else if queueIndex = 1 then
    let (s, completed) := processTx handler s
    let (s, completed) :=
      if s.dev.pendingRxFrames = [] then (s, completed)
      else
        let (s, received) := processRx s
        (s, received || completed)
    if completed then raise s else s
  else if queueIndex = 0 then
    let (s, completed) := processRx s
    if completed then raise s else s
  else s

def setSelected (v : VirtioNetMmio) (f : QueueState → QueueState) : VirtioNetMmio :=
  if v.queueSel = 0 then { v with rx := f v.rx }
  else if v.queueSel = 1 then { v with tx := f v.tx }
  else v

def writeQueueRegister (handler : TxFrameHandler) (s : NetState D) (offset value size : U64) :
    NetState D :=
  if ¬ queueWriteRegs.any (accessMatches offset size) then s
  else if offset = kRegQueueSel then { s with dev := { s.dev with queueSel := value.setWidth 32 } }
  else if offset = kRegQueueNotify then processQueue handler s (value.setWidth 32)
  else { s with dev := s.dev.setSelected (·.writeReg offset value) }

/-- The registers `VirtioNetMmio::write` handles itself. -/
def writeRegister (v : VirtioNetMmio) (offset value size : U64) : Option VirtioNetMmio :=
  if kRegConfig ≤ offset ∧ offset < kRegConfig + kConfigSize then some v
  else if accessMatches offset size kRegDeviceFeaturesSel then
    some { v with deviceFeaturesSel := value.setWidth 32 }
  else if accessMatches offset size kRegDriverFeaturesSel then
    some { v with driverFeaturesSel := value.setWidth 32 }
  else if accessMatches offset size kRegDriverFeatures then
    some { v with driverFeatures := mergeFeatures v.driverFeatures v.driverFeaturesSel value }
  else if accessMatches offset size kRegGuestPageSize then
    some { v with guestPageSize := value.setWidth 32 }
  else if accessMatches offset size kRegInterruptAck then
    some (v.clearInterrupt (value.setWidth 32))
  else if accessMatches offset size kRegStatus then
    if value.setWidth 32 = (0 : U32) then some v.resetDeviceState
    else some { v with status := value.setWidth 32 }
  else none

/-- `VirtioNetMmio::write`. -/
def write (handler : TxFrameHandler) (s : NetState D) (offset value size : U64) : NetState D :=
  match s.dev.writeRegister offset value size with
  | some dev => { s with dev := dev }
  | none => writeQueueRegister handler s offset value size

end Queues
end VirtioNetMmio
end Aarchvm.Virtio
