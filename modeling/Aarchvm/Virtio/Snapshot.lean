import Aarchvm.Lib.Reader
import Aarchvm.Lib.Run
import Aarchvm.Virtio.Blk
import Aarchvm.Virtio.Net

/-!
# Saving and loading the virtio devices

`save_state` and `load_state` of both devices over `snapshot_io`. A load that
returns `false` is `none`; what such a load leaves in the device is not modelled.
-/
namespace Aarchvm

open Lib

namespace SnapshotIo

/-- `snapshot_io::write` of an unsigned integer of `n` bytes. -/
def write {w : Nat} (n : Nat) (value : BitVec w) : List U8 := Reader.putWord n value

def writeBool (value : Bool) : List U8 := [if value then 1 else 0]

/-- `snapshot_io::write_vector` of bytes. -/
def writeVector (values : List U8) : List U8 :=
  write 8 (BitVec.ofNat 64 values.length) ++ values

/-- `snapshot_io::read`. -/
def read (w n : Nat) : Reader U8 (BitVec w) := Reader.getWord w n

def readBool : Reader U8 Bool
  | [] => none
  | b :: rest => some (b != 0, rest)

/-- `snapshot_io::read_vector` of bytes. -/
def readVector : Reader U8 (List U8) := do
  let size ← read 64 8
  if (1 <<< 31 : U64) < size then Reader.fail else Reader.take size.toNat

theorem read_write {w n : Nat} (h : w ≤ 8 * n) (value : BitVec w) (rest : List U8) :
    read w n (write n value ++ rest) = some (value, rest) :=
  Reader.getWord_putWord h value rest

theorem readBool_writeBool (value : Bool) (rest : List U8) :
    readBool (writeBool value ++ rest) = some (value, rest) := by
  cases value <;> rfl

/-- A vector is read back unless it is longer than the reader allows. -/
theorem readVector_writeVector {values : List U8} (hfits : values.length < 2 ^ 64)
    (rest : List U8) :
    readVector (writeVector values ++ rest) =
      if values.length ≤ 2 ^ 31 then some (values, rest) else none := by
  have hsize : (BitVec.ofNat 64 values.length).toNat = values.length := by
    rw [BitVec.toNat_ofNat, Nat.mod_eq_of_lt hfits]
  have hlimit : ((1 <<< 31 : U64) < BitVec.ofNat 64 values.length) ↔ ¬ values.length ≤ 2 ^ 31 := by
    rw [BitVec.lt_def, hsize, Nat.not_le]
    rfl
  unfold readVector writeVector
  rw [List.append_assoc, Reader.bind_of_some (read_write (by decide) _ _)]
  by_cases h : values.length ≤ 2 ^ 31
  · rw [if_neg (mt hlimit.1 (not_not.2 h)), if_pos h, hsize]
    exact Reader.take_append rfl rest
  · rw [if_pos (hlimit.2 h), if_neg h]
    rfl

end SnapshotIo

namespace Virtio

open Lib.Run SnapshotIo

/-! ## The block device -/

namespace VirtioBlkMmio

/-- `VirtioBlkMmio::save_state`. -/
def saveState (v : VirtioBlkMmio) : List U8 :=
  writeVector v.image.bytes ++
  SnapshotIo.write 4 v.deviceFeaturesSel ++
  SnapshotIo.write 4 v.driverFeaturesSel ++
  SnapshotIo.write 8 v.driverFeatures ++
  SnapshotIo.write 4 v.guestPageSize ++
  SnapshotIo.write 4 v.queueSel ++
  SnapshotIo.write 4 v.queue.num ++
  writeBool v.queue.ready ++
  SnapshotIo.write 8 v.queue.descAddr ++
  SnapshotIo.write 8 v.queue.availAddr ++
  SnapshotIo.write 8 v.queue.usedAddr ++
  SnapshotIo.write 2 v.queue.lastAvailIdx ++
  SnapshotIo.write 2 v.queue.usedIdx ++
  SnapshotIo.write 4 v.interruptStatus ++
  SnapshotIo.write 4 v.status ++
  SnapshotIo.write 4 v.configGeneration

/-- `VirtioBlkMmio::load_state`. -/
def loadState : Reader U8 VirtioBlkMmio := do
  let image ← readVector
  let deviceFeaturesSel ← SnapshotIo.read 32 4
  let driverFeaturesSel ← SnapshotIo.read 32 4
  let driverFeatures ← SnapshotIo.read 64 8
  let guestPageSize ← SnapshotIo.read 32 4
  let queueSel ← SnapshotIo.read 32 4
  let num ← SnapshotIo.read 32 4
  let ready ← readBool
  let descAddr ← SnapshotIo.read 64 8
  let availAddr ← SnapshotIo.read 64 8
  let usedAddr ← SnapshotIo.read 64 8
  let lastAvailIdx ← SnapshotIo.read 16 2
  let usedIdx ← SnapshotIo.read 16 2
  let interruptStatus ← SnapshotIo.read 32 4
  let status ← SnapshotIo.read 32 4
  let configGeneration ← SnapshotIo.read 32 4
  if h : (kSectorSize ∣ image.length ∧ image.length < 2 ^ 64) ∧ num ≤ kQueueSize then
    if queueSel = 0 ∧ deviceFeaturesSel ≤ 1 ∧ driverFeaturesSel ≤ 1 then
      pure {
        image := ⟨image, h.1.1, h.1.2⟩
        deviceFeaturesSel, driverFeaturesSel, driverFeatures, guestPageSize, queueSel
        queue := ⟨num, ready, descAddr, availAddr, usedAddr, lastAvailIdx, usedIdx, h.2⟩
        interruptStatus, status, configGeneration }
    else Reader.fail
  else Reader.fail

/-- The selectors are ones the loader takes, and the image is not longer than it reads. -/
def Restorable (v : VirtioBlkMmio) : Prop :=
  v.image.bytes.length ≤ 2 ^ 31 ∧
    v.queueSel = 0 ∧ v.deviceFeaturesSel ≤ 1 ∧ v.driverFeaturesSel ≤ 1

instance (v : VirtioBlkMmio) : Decidable v.Restorable :=
  inferInstanceAs (Decidable (_ ∧ _ ∧ _ ∧ _))

/-- A saved device is loaded back as it was, or not at all. -/
theorem loadState_saveState (v : VirtioBlkMmio) (rest : List U8) :
    loadState (v.saveState ++ rest) = if v.Restorable then some (v, rest) else none := by
  have hvec := readVector_writeVector v.image.fits
  simp only [saveState, List.append_assoc]
  unfold loadState
  by_cases himage : v.image.bytes.length ≤ 2 ^ 31
  · rw [Reader.bind_of_some ((hvec _).trans (if_pos himage))]
    iterate 6 rw [Reader.bind_of_some (read_write (by decide) _ _)]
    rw [Reader.bind_of_some (readBool_writeBool _ _)]
    iterate 8 rw [Reader.bind_of_some (read_write (by decide) _ _)]
    have hfields : (kSectorSize ∣ v.image.bytes.length ∧ v.image.bytes.length < 2 ^ 64) ∧
        v.queue.num ≤ kQueueSize := ⟨⟨v.image.sectors, v.image.fits⟩, v.queue.num_le⟩
    rw [dif_pos hfields]
    by_cases hsel : v.queueSel = 0 ∧ v.deviceFeaturesSel ≤ 1 ∧ v.driverFeaturesSel ≤ 1
    · rw [if_pos hsel, if_pos ⟨himage, hsel⟩]
      rfl
    · rw [if_neg hsel, if_neg fun h => hsel h.2]
      rfl
  · rw [Reader.bind_of_none ((hvec _).trans (if_neg himage)), if_neg fun h => himage h.1]

end VirtioBlkMmio

/-! ## The network device -/

/-- The bytes of a `QueueState` object, padding included, as `snapshot_io::read` of
`queues_` copies them. -/
structure RawQueue where
  num : U32
  ready : Bool
  descAddr : U64
  availAddr : U64
  usedAddr : U64
  lastAvailIdx : U16
  usedIdx : U16

namespace RawQueue

def ofState (q : QueueState) : RawQueue :=
  ⟨q.num, q.ready, q.descAddr, q.availAddr, q.usedAddr, q.lastAvailIdx, q.usedIdx⟩

def toState (q : RawQueue) (h : q.num ≤ kQueueSize) : QueueState :=
  ⟨q.num, q.ready, q.descAddr, q.availAddr, q.usedAddr, q.lastAvailIdx, q.usedIdx, h⟩

/-- The object representation; nothing in the program sets its padding bytes. -/
def write (padding : Nat → U8) (q : RawQueue) : List U8 :=
  SnapshotIo.write 4 q.num ++
  writeBool q.ready ++
  [padding 0, padding 1, padding 2] ++
  SnapshotIo.write 8 q.descAddr ++
  SnapshotIo.write 8 q.availAddr ++
  SnapshotIo.write 8 q.usedAddr ++
  SnapshotIo.write 2 q.lastAvailIdx ++
  SnapshotIo.write 2 q.usedIdx ++
  [padding 3, padding 4, padding 5, padding 6]

def read : Reader U8 RawQueue := do
  let num ← SnapshotIo.read 32 4
  let ready ← readBool
  let _ ← Reader.take 3
  let descAddr ← SnapshotIo.read 64 8
  let availAddr ← SnapshotIo.read 64 8
  let usedAddr ← SnapshotIo.read 64 8
  let lastAvailIdx ← SnapshotIo.read 16 2
  let usedIdx ← SnapshotIo.read 16 2
  let _ ← Reader.take 4
  pure ⟨num, ready, descAddr, availAddr, usedAddr, lastAvailIdx, usedIdx⟩

theorem read_write (padding : Nat → U8) (q : RawQueue) (rest : List U8) :
    read (q.write padding ++ rest) = some (q, rest) := by
  have hready := @Reader.take_append U8 [padding 0, padding 1, padding 2] 3 rfl
  have htail := @Reader.take_append U8 [padding 3, padding 4, padding 5, padding 6] 4 rfl
  unfold read write
  simp only [List.append_assoc]
  rw [Reader.bind_of_some (SnapshotIo.read_write (by decide) _ _),
    Reader.bind_of_some (readBool_writeBool _ _), Reader.bind_of_some (hready _)]
  iterate 5 rw [Reader.bind_of_some (SnapshotIo.read_write (by decide) _ _)]
  rw [Reader.bind_of_some (htail _)]
  rfl

end RawQueue

namespace VirtioNetMmio

/-- `VirtioNetMmio::save_state`. -/
def saveState (rxPadding txPadding : Nat → U8) (v : VirtioNetMmio) : List U8 :=
  writeBool v.present ++
  writeBool v.loopbackEnabled ++
  v.mac.bytes ++
  SnapshotIo.write 4 v.deviceFeaturesSel ++
  SnapshotIo.write 4 v.driverFeaturesSel ++
  SnapshotIo.write 8 v.driverFeatures ++
  SnapshotIo.write 4 v.guestPageSize ++
  SnapshotIo.write 4 v.queueSel ++
  (RawQueue.ofState v.rx).write rxPadding ++
  (RawQueue.ofState v.tx).write txPadding ++
  SnapshotIo.write 4 v.interruptStatus ++
  SnapshotIo.write 4 v.status ++
  SnapshotIo.write 4 v.configGeneration ++
  SnapshotIo.write 8 (BitVec.ofNat 64 v.pendingRxFrames.length) ++
  v.pendingRxFrames.flatMap writeVector

/-- `VirtioNetMmio::load_state`, which sets the header width from the features. -/
def loadState : Reader U8 VirtioNetMmio := do
  let present ← readBool
  let loopbackEnabled ← readBool
  let mac ← Reader.take 6
  let deviceFeaturesSel ← SnapshotIo.read 32 4
  let driverFeaturesSel ← SnapshotIo.read 32 4
  let driverFeatures ← SnapshotIo.read 64 8
  let guestPageSize ← SnapshotIo.read 32 4
  let queueSel ← SnapshotIo.read 32 4
  let rx ← RawQueue.read
  let tx ← RawQueue.read
  let interruptStatus ← SnapshotIo.read 32 4
  let status ← SnapshotIo.read 32 4
  let configGeneration ← SnapshotIo.read 32 4
  let pendingCount ← SnapshotIo.read 64 8
  if 1024 < pendingCount then Reader.fail
  else
    let pendingRxFrames ← Reader.replicate readVector pendingCount.toNat
    if 1 < deviceFeaturesSel ∨ 1 < driverFeaturesSel ∨ 2 ≤ queueSel then Reader.fail
    else if h : mac.length = 6 ∧ rx.num ≤ kQueueSize ∧ tx.num ≤ kQueueSize then
      let v : VirtioNetMmio := {
        present, loopbackEnabled
        mac := ⟨mac, h.1⟩
        pendingRxFrames, deviceFeaturesSel, driverFeaturesSel, driverFeatures, guestPageSize,
        queueSel
        rx := rx.toState h.2.1
        tx := tx.toState h.2.2
        interruptStatus, status, configGeneration
        guestHeaderSize := kVirtioNetHdrSize }
      pure { v with guestHeaderSize := v.netHeaderSize }
    else Reader.fail

/-- What the loader asks of the state that was saved. -/
def Loads (v : VirtioNetMmio) : Prop :=
  (v.deviceFeaturesSel ≤ 1 ∧ v.driverFeaturesSel ≤ 1 ∧ v.queueSel < 2) ∧
    v.pendingRxFrames.length ≤ 1024 ∧ ∀ frame ∈ v.pendingRxFrames, frame.length ≤ 2 ^ 31

instance (v : VirtioNetMmio) : Decidable v.Loads :=
  inferInstanceAs (Decidable ((_ ∧ _ ∧ _) ∧ _ ∧ _))

/-- The device as it comes back: the header width seen from the guest is lost. -/
def reloaded (v : VirtioNetMmio) : VirtioNetMmio := { v with guestHeaderSize := v.netHeaderSize }

/-- Lengths a `size_t` can hold, as every container of the host has. -/
def Addressable (v : VirtioNetMmio) : Prop :=
  v.pendingRxFrames.length < 2 ^ 64 ∧ ∀ frame ∈ v.pendingRxFrames, frame.length < 2 ^ 64

theorem Loads.addressable {v : VirtioNetMmio} (h : v.Loads) : v.Addressable := by
  obtain ⟨-, hcount, hlen⟩ := h
  refine ⟨by omega, fun frame hf => ?_⟩
  have hle := hlen frame hf
  omega

/-- The queue of frames is read back unless one of them is too long. -/
theorem frames_read {frames : List (List U8)} (hfits : ∀ frame ∈ frames, frame.length < 2 ^ 64)
    (rest : List U8) :
    Reader.replicate readVector frames.length (frames.flatMap writeVector ++ rest) =
      if ∀ frame ∈ frames, frame.length ≤ 2 ^ 31 then some (frames, rest) else none := by
  have hread := fun frame hf rest => readVector_writeVector (hfits frame hf) rest
  by_cases hlen : ∀ frame ∈ frames, frame.length ≤ 2 ^ 31
  · rw [if_pos hlen]
    apply Reader.replicate_append
    intro frame hf rest
    rw [hread frame hf, if_pos (hlen frame hf)]
  · rw [if_neg hlen]
    obtain ⟨bad, hbad, hlong⟩ : ∃ frame ∈ frames, ¬ frame.length ≤ 2 ^ 31 := by
      by_contra hall
      exact hlen fun frame hf => by
        by_contra hlong
        exact hall ⟨frame, hf, hlong⟩
    apply Reader.replicate_eq_none (x := bad)
    · intro frame hf rest
      rw [hread frame hf]
      by_cases h : frame.length ≤ 2 ^ 31
      · exact .inl (if_pos h)
      · exact .inr (if_neg h)
    · exact hbad
    · intro rest
      rw [hread bad hbad, if_neg hlong]

/-- A saved device is loaded back with its header width recomputed, or not at all. -/
theorem loadState_saveState {v : VirtioNetMmio} (hfits : v.Addressable)
    (rxPadding txPadding : Nat → U8) (rest : List U8) :
    loadState (v.saveState rxPadding txPadding ++ rest) =
      if v.Loads then some (v.reloaded, rest) else none := by
  have hcount : (BitVec.ofNat 64 v.pendingRxFrames.length).toNat = v.pendingRxFrames.length := by
    rw [BitVec.toNat_ofNat, Nat.mod_eq_of_lt hfits.1]
  simp only [saveState, List.append_assoc]
  unfold loadState
  rw [Reader.bind_of_some (readBool_writeBool _ _), Reader.bind_of_some (readBool_writeBool _ _),
    Reader.bind_of_some (Reader.take_append v.mac.length_eq _)]
  iterate 5 rw [Reader.bind_of_some (SnapshotIo.read_write (by decide) _ _)]
  rw [Reader.bind_of_some (RawQueue.read_write _ _ _),
    Reader.bind_of_some (RawQueue.read_write _ _ _)]
  iterate 4 rw [Reader.bind_of_some (SnapshotIo.read_write (by decide) _ _)]
  by_cases hmany : 1024 < BitVec.ofNat 64 v.pendingRxFrames.length
  · rw [if_pos hmany, if_neg]
    · rfl
    · rintro ⟨-, hle, -⟩
      rw [BitVec.lt_def, hcount] at hmany
      exact absurd hmany (Nat.not_lt.2 hle)
  rw [if_neg hmany, hcount]
  have hfew : v.pendingRxFrames.length ≤ 1024 := by
    rw [BitVec.lt_def, hcount] at hmany
    exact Nat.not_lt.1 hmany
  by_cases hlen : ∀ frame ∈ v.pendingRxFrames, frame.length ≤ 2 ^ 31
  · rw [Reader.bind_of_some ((frames_read hfits.2 rest).trans (if_pos hlen))]
    have hfields : v.mac.bytes.length = 6 ∧ (RawQueue.ofState v.rx).num ≤ kQueueSize ∧
        (RawQueue.ofState v.tx).num ≤ kQueueSize := ⟨v.mac.length_eq, v.rx.num_le, v.tx.num_le⟩
    by_cases hsel : 1 < v.deviceFeaturesSel ∨ 1 < v.driverFeaturesSel ∨ 2 ≤ v.queueSel
    · rw [if_pos hsel, if_neg]
      · rfl
      · rintro ⟨⟨hdev, hdrv, hqueue⟩, -⟩
        rcases hsel with h | h | h
        · exact absurd h (BitVec.not_lt.2 hdev)
        · exact absurd h (BitVec.not_lt.2 hdrv)
        · exact absurd hqueue (BitVec.not_lt.2 h)
    · obtain ⟨hdev, hdrv, hqueue⟩ := by simpa only [not_or] using hsel
      have hloads : v.Loads := by
        refine ⟨⟨BitVec.not_lt.1 hdev, BitVec.not_lt.1 hdrv, BitVec.not_le.1 hqueue⟩, hfew, hlen⟩
      rw [if_neg hsel, if_pos hloads, dif_pos hfields]
      rfl
  · rw [Reader.bind_of_none ((frames_read hfits.2 rest).trans (if_neg hlen)), if_neg]
    exact fun h => hlen h.2.2

end VirtioNetMmio
end Virtio
end Aarchvm
