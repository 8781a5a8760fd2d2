import Aarchvm.Lib.Run
import Aarchvm.Virtio.Blk
import Mathlib

/-!
# The block device as a sector array

The purpose of the device, stated without its queues: a disk is a list of bytes, an
OUT request overwrites the stretch that starts at 512 times its sector, an IN
request returns such a stretch. Every request the device serves in a run is
compared with that.
-/
namespace Aarchvm.Virtio

open Lib.Bytes Lib.Run

variable {D : Type}

namespace VirtioBlkMmio

/-! ## Requests over the natural numbers -/

/-- The first byte of the disk a request is about. -/
def Request.start (r : Request) : Nat := 512 * r.sector.toNat

def Request.length (r : Request) : Nat := (r.segments.map (·.len.toNat)).sum

/-- Only IN and OUT name a stretch of the disk. -/
def Request.transfers (r : Request) : Bool := r.type == kReqTypeIn || r.type == kReqTypeOut

/-- A stretch past the end of the disk, or one that is not whole sectors. -/
def Request.Bad (r : Request) (disk : List U8) : Prop :=
  disk.length < r.start + r.length ∨ ¬ 512 ∣ r.length

/-- `data` laid out over a chain's segments, in order. -/
def scatter : Bus D → List TransferSegment → List U8 → Option (Bus D)
  | b, [], _ => some b
  | b, seg :: segs, data =>
    match writeGuest b seg.addr (data.take seg.len.toNat) with
    | none => none
    | some b' => scatter b' segs (data.drop seg.len.toNat)

/-- A request as the device came to it. -/
structure Served (D : Type) where
  device : VirtioBlkMmio
  bus : Bus D
  headIndex : U16

namespace Served

def request (s : Served D) : Option Request := readRequest s.device.queue s.bus s.headIndex

def response (s : Served D) : Response D := s.device.processRequest s.bus s.headIndex

/-- The disk after the request: a completed OUT has written its data. -/
def apply (disk : List U8) (s : Served D) : List U8 :=
  match s.request with
  | none => disk
  | some r =>
    if r.type = kReqTypeOut ∧ s.response.statusByte = kReqStatusOk then
      overwrite disk r.start ((gather s.bus r.segments).getD [])
    else disk

/-- The answer to a request, given the disk it was served on. -/
structure Answers (disk : List U8) (s : Served D) (r : Request) : Prop where
  /-- IN: the segments hold the stretch of the disk, and the status follows. -/
  data_in : r.type = kReqTypeIn → s.response.statusByte = kReqStatusOk →
    ∃ b', scatter s.bus r.segments (slice disk r.start r.length) = some b' ∧
      s.response = writeStatus r s.device.image b' (BitVec.ofNat 32 (r.length + 1)) kReqStatusOk
  /-- OUT: there was data in all segments. -/
  data_out : r.type = kReqTypeOut → s.response.statusByte = kReqStatusOk →
    ∃ data, gather s.bus r.segments = some data ∧ data.length = r.length
  /-- A completed transfer is inside the disk. -/
  inside : r.transfers → s.response.statusByte = kReqStatusOk →
    r.start + r.length ≤ disk.length ∧ 512 ∣ r.length
  /-- Any other is answered by the error status alone. -/
  refused : r.transfers → r.Bad disk →
    s.response = writeStatus r s.device.image s.bus 0 kReqStatusIoErr

end Served

/-! ## Runs -/

structure Machine (D : Type) where
  blk : VirtioBlkMmio
  bus : Bus D

/-- What happens around the device: a register write, or any change of memory by the
CPUs and the other devices. -/
inductive Op (D : Type) where
  | write (offset value size : U64)
  | memory (b : Bus D)

def step (m : Machine D) : Op D → Machine D
  | .write offset value size =>
    let r := m.blk.write m.bus offset value size
    ⟨r.1, r.2⟩
  | .memory b => ⟨m.blk, b⟩

/-- The requests `processLoop` comes to. -/
def servedLoop (availIdx : U16) : Nat → VirtioBlkMmio → Bus D → List (Served D)
  | 0, _, _ => []
  | fuel + 1, v, b =>
    if v.queue.lastAvailIdx = availIdx then []
    else
      match readGuestU16 b (ringAddr v.queue) with
      | none => []
      | some headIndex =>
        ⟨v, b, headIndex⟩ ::
          match v.completeRequest b headIndex with
          | (_, _, false) => []
          | (v', b', true) => servedLoop availIdx fuel v' b'

/-- The requests of one notification. -/
def servedQueue (v : VirtioBlkMmio) (b : Bus D) (queueIndex : U32) : List (Served D) :=
  if queueIndex ≠ 0 ∨ !v.devicePresent ∨ v.queue.idle then []
  else
    match readGuestU16 b (v.queue.availAddr + 2) with
    | none => []
    | some availIdx => servedLoop availIdx (2 ^ 16) v b

/-- The requests of one operation: only a notification serves any. -/
def served (m : Machine D) : Op D → List (Served D)
  | .write offset value size =>
    if accessMatches offset size kRegQueueNotify then servedQueue m.blk m.bus (value.setWidth 32)
    else []
  | .memory _ => []

def servedRun (m : Machine D) : List (Op D) → List (Served D)
  | [] => []
  | op :: ops => served m op ++ servedRun (step m op) ops

/-- The image is the disk the completed OUT requests leave, and every request is answered
from the disk as its predecessors left it. -/
structure Refines (m : Machine D) (ops : List (Op D)) : Prop where
  image : (run step m ops).blk.image.bytes =
    (servedRun m ops).foldl Served.apply m.blk.image.bytes
  answers : ∀ before s after, servedRun m ops = before ++ s :: after →
    ∀ r, s.request = some r → s.Answers (before.foldl Served.apply m.blk.image.bytes) r

/-! ## When a request is served as on the disk -/

/-- A segment the OUT loop copies. -/
def readable (b : Bus D) (seg : TransferSegment) : Bool :=
  !seg.writable && (readGuest b seg.addr (seg.len.setWidth 64)).isSome

/-- No segment with data comes before one the OUT loop stops at. -/
def whole (b : Bus D) : List TransferSegment → Bool
  | [] => true
  | seg :: segs =>
    if !readable b seg then true
    else if seg.len = 0 then whole b segs
    else segs.all (readable b)

/-- Past the device's own tests, the product did not wrap and an OUT is not cut short. -/
def Served.sound (s : Served D) : Bool :=
  match s.request with
  | none => true
  | some r =>
    !r.transfers || rejects s.device.image r ||
      (decide (r.sector.toNat < 2 ^ 55) && (r.type != kReqTypeOut || whole s.bus r.segments))

/-! ## Lengths -/

theorem walkChain_length {q : QueueState} {b : Bus D} :
    ∀ {fuel : Nat} {index : U16} {segs segs' : List TransferSegment} {addr : U64} {len : U32},
      walkChain q b fuel index segs = some (segs', addr, len) →
        segs'.length ≤ segs.length + fuel := by
  intro fuel
  induction fuel with
  | zero =>
    intro index segs segs' addr len h
    exact nomatch h
  | succ fuel ih =>
    intro index segs segs' addr len h
    simp only [walkChain] at h
    cases hd : readDescriptor b q index with
    | none =>
      rw [hd] at h
      exact nomatch h
    | some d =>
      rw [hd] at h
      dsimp only at h
      split at h
      · exact nomatch h
      split at h
      · have hlen := ih h
        rw [List.length_append] at hlen
        simp only [List.length_cons, List.length_nil] at hlen
        omega
      split at h
      · exact nomatch h
      · obtain ⟨rfl, -⟩ := Prod.mk.inj (Option.some.inj h)
        omega

/-- A request has at most as many segments as the queue has entries. -/
theorem readRequest_segments {q : QueueState} {b : Bus D} {headIndex : U16} {r : Request}
    (h : readRequest q b headIndex = some r) : r.segments.length ≤ 128 := by
  unfold readRequest at h
  split at h
  · exact nomatch h
  split at h
  · exact nomatch h
  split at h
  · exact nomatch h
  · obtain ⟨⟨segs, addr, len⟩, hwalk, rfl⟩ := Option.map_eq_some_iff.1 h
    have hlen := walkChain_length hwalk
    have hnum : q.num.toNat ≤ 128 := q.num_le
    simp only [List.length_nil] at hlen
    exact Nat.le_trans hlen (by omega)

theorem sum_len_le (segs : List TransferSegment) :
    (segs.map (·.len.toNat)).sum ≤ segs.length * (2 ^ 32 - 1) := by
  induction segs with
  | nil => simp
  | cons seg segs ih =>
    have hseg := seg.len.isLt
    simp only [List.map_cons, List.sum_cons, List.length_cons]
    omega

theorem toNat_foldl_len (segs : List TransferSegment) (total : U64)
    (h : total.toNat + (segs.map (·.len.toNat)).sum < 2 ^ 64) :
    (segs.foldl (fun total seg => total + seg.len.setWidth 64) total).toNat =
      total.toNat + (segs.map (·.len.toNat)).sum := by
  induction segs generalizing total with
  | nil => simp
  | cons seg segs ih =>
    simp only [List.map_cons, List.sum_cons, List.foldl_cons] at h ⊢
    have hadd : (total + seg.len.setWidth 64).toNat = total.toNat + seg.len.toNat := by
      rw [BitVec.toNat_add, BitVec.toNat_setWidth,
        Nat.mod_eq_of_lt (by omega : seg.len.toNat < 2 ^ 64),
        Nat.mod_eq_of_lt (by omega)]
    rw [ih _ (by omega), hadd]
    omega

/-- `total_data_bytes` does not wrap. -/
theorem toNat_totalDataBytes {r : Request} (h : r.segments.length ≤ 128) :
    (totalDataBytes r.segments).toNat = r.length ∧ r.length < 2 ^ 40 := by
  have hsum := sum_len_le r.segments
  have hlt : r.length < 2 ^ 40 := by
    unfold Request.length
    omega
  refine ⟨?_, hlt⟩
  unfold totalDataBytes
  rw [toNat_foldl_len _ _ (by unfold Request.length at hlt; simp; omega)]
  simp [Request.length]

theorem length_readGuest {b : Bus D} {addr size : U64} {bytes : List U8}
    (h : readGuest b addr size = some bytes) : bytes.length = size.toNat := by
  unfold readGuest at h
  split at h
  case isTrue hz =>
    obtain rfl := Option.some.inj h
    rw [hz]
    rfl
  split at h
  · exact nomatch h
  · obtain rfl := Option.some.inj h
    simp

/-! ## The bounds test -/

/-- Where the product does not wrap the device's tests are the ones over the natural
numbers. -/
theorem rejects_iff {image : Image} {r : Request} (hsegs : r.segments.length ≤ 128)
    (hsector : r.sector.toNat < 2 ^ 55) : rejects image r = true ↔ r.Bad image.bytes := by
  obtain ⟨htotal, hlen⟩ := toNat_totalDataBytes hsegs
  have hstart : (r.sector * 512).toNat = r.start := by
    rw [BitVec.toNat_mul, Request.start]
    simp
    omega
  have hsize := image.toNat_size
  have hmod : (totalDataBytes r.segments % 512 != 0) = true ↔ ¬ 512 ∣ r.length := by
    rw [bne_iff_ne, ne_eq, ← BitVec.toNat_inj, BitVec.toNat_umod, htotal, Nat.dvd_iff_mod_eq_zero]
    rfl
  simp only [rejects, Bool.or_eq_true, hmod, decide_eq_true_eq, BitVec.lt_def, hsize, hstart,
    Request.Bad, htotal]
  by_cases hs : image.bytes.length < r.start
  · constructor
    · intro _
      exact .inl (by omega)
    · intro _
      exact .inr (.inl hs)
  · have hsub : (image.size - r.sector * 512).toNat = image.bytes.length - r.start := by
      rw [BitVec.toNat_sub_of_le (by rw [BitVec.le_def, hsize, hstart]; omega), hsize, hstart]
    rw [hsub]
    constructor
    · rintro (h | h | h)
      · exact .inr h
      · exact .inl (by omega)
      · exact .inl (by omega)
    · rintro (h | h)
      · exact .inr (.inr (by omega))
      · exact .inl h

/-! ## The transfer loops -/

/-- The IN loop lays out the image from `off` on. -/
theorem scatter_of_writeSegments {image : Image} {segs : List TransferSegment} :
    ∀ {off : Nat} {b b' : Bus D}, writeSegments image off b segs = (b', true) →
      scatter b segs (slice image.bytes off (segs.map (·.len.toNat)).sum) = some b' := by
  induction segs with
  | nil =>
    intro off b b' h
    obtain ⟨rfl, -⟩ := Prod.mk.inj h
    rfl
  | cons seg segs ih =>
    intro off b b' h
    simp only [writeSegments] at h
    split at h
    · exact nomatch (Prod.mk.inj h).2
    split at h
    · exact nomatch (Prod.mk.inj h).2
    · rename_i b₁ hwrite
      simp only [scatter, List.map_cons, List.sum_cons, take_slice, drop_slice, hwrite]
      exact ih h

/-- The OUT loop, when nothing stops it, copies the gathered data. -/
theorem gather_of_readSegments {b : Bus D} {segs : List TransferSegment} :
    ∀ {off : Nat} {image image' : Image}, readSegments b off image segs = (image', true) →
      ∃ data, gather b segs = some data ∧ data.length = (segs.map (·.len.toNat)).sum ∧
        image'.bytes = overwrite image.bytes off data := by
  induction segs with
  | nil =>
    intro off image image' h
    obtain ⟨rfl, -⟩ := Prod.mk.inj h
    exact ⟨[], rfl, rfl, (overwrite_nil _ _).symm⟩
  | cons seg segs ih =>
    intro off image image' h
    simp only [readSegments] at h
    split at h
    · exact nomatch (Prod.mk.inj h).2
    split at h
    · exact nomatch (Prod.mk.inj h).2
    · rename_i tmp hread
      obtain ⟨data, hgather, hlen, himage⟩ := ih h
      have htmp := length_readGuest hread
      refine ⟨tmp ++ data, ?_, ?_, ?_⟩
      · simp only [gather, hread, hgather]
      · simp only [List.length_append, List.map_cons, List.sum_cons, hlen, htmp,
          BitVec.toNat_setWidth]
        have hseg := seg.len.isLt
        omega
      · rw [himage, Image.bytes_copyIn, overwrite_overwrite]

theorem readSegments_of_all {b : Bus D} {segs : List TransferSegment}
    (h : segs.all (readable b) = true) :
    ∀ (off : Nat) (image : Image), (readSegments b off image segs).2 = true := by
  induction segs with
  | nil =>
    intro off image
    rfl
  | cons seg segs ih =>
    intro off image
    simp only [List.all_cons, Bool.and_eq_true, readable, Bool.not_eq_true'] at h
    obtain ⟨⟨hw, hread⟩, hall⟩ := h
    obtain ⟨tmp, htmp⟩ := Option.isSome_iff_exists.1 hread
    simp only [readSegments, hw, htmp]
    exact ih (by simpa [readable] using hall) _ _

/-- The OUT loop, stopped before it copied anything, leaves the image. -/
theorem image_of_readSegments {b : Bus D} {segs : List TransferSegment}
    (hwhole : whole b segs = true) :
    ∀ {off : Nat} {image image' : Image}, readSegments b off image segs = (image', false) →
      image' = image := by
  induction segs with
  | nil =>
    intro off image image' h
    exact nomatch (Prod.mk.inj h).2
  | cons seg segs ih =>
    intro off image image' h
    by_cases hr : readable b seg = true
    · obtain ⟨hw, hread⟩ : seg.writable = false ∧
          (readGuest b seg.addr (seg.len.setWidth 64)).isSome = true := by
        simpa [readable] using hr
      obtain ⟨tmp, htmp⟩ := Option.isSome_iff_exists.1 hread
      simp only [whole, hr, Bool.not_true, Bool.false_eq_true, if_false] at hwhole
      by_cases hlen : seg.len = 0
      · rw [if_pos hlen] at hwhole
        have hnil : tmp = [] := by
          apply List.eq_nil_of_length_eq_zero
          rw [length_readGuest htmp, hlen]
          rfl
        simp only [readSegments, hw, htmp, hnil] at h
        have himage := ih hwhole h
        rw [himage]
        exact Image.ext (overwrite_nil _ _)
      · rw [if_neg hlen] at hwhole
        have hall : (seg :: segs).all (readable b) = true := by
          rw [List.all_cons, hr, hwhole]
          rfl
        have htrue := readSegments_of_all hall off image
        rw [h] at htrue
        exact nomatch htrue
    · simp only [readable, Bool.and_eq_true, Bool.not_eq_true', not_and, Bool.not_eq_true,
        Option.isSome_eq_false_iff, Option.isNone_iff_eq_none] at hr
      cases hw : seg.writable with
      | true =>
        simp only [readSegments, hw, if_true] at h
        exact (Prod.mk.inj h).1.symm
      | false =>
        simp only [readSegments, hw, hr hw, Bool.false_eq_true, if_false] at h
        exact (Prod.mk.inj h).1.symm

/-! ## One request -/

@[simp] theorem writeStatus_image (r : Request) (image : Image) (b : Bus D) (usedLen : U32)
    (byte : U8) : (writeStatus r image b usedLen byte).image = image := by
  unfold writeStatus
  split <;> rfl

@[simp] theorem writeStatus_statusByte (r : Request) (image : Image) (b : Bus D) (usedLen : U32)
    (byte : U8) : (writeStatus r image b usedLen byte).statusByte = byte := by
  unfold writeStatus
  split <;> rfl

theorem serve_of_rejects {image : Image} {b : Bus D} {r : Request} (ht : r.transfers = true)
    (h : rejects image r = true) : serve image b r = writeStatus r image b 0 kReqStatusIoErr := by
  simp only [Request.transfers, Bool.or_eq_true, beq_iff_eq] at ht
  unfold serve
  rcases ht with hin | hout
  · rw [if_pos hin, if_pos h]
  · rw [if_neg (by rw [hout]; decide), if_pos hout, if_pos h]

/-- An accepted IN: either a segment stopped it, or the data is out and the status follows. -/
theorem serve_in {image : Image} {b : Bus D} {r : Request} (ht : r.type = kReqTypeIn)
    (h : rejects image r = false) :
    (serve image b r).image = image ∧
      ((serve image b r).statusByte = kReqStatusOk →
        ∃ b', scatter b r.segments (slice image.bytes (r.sector * 512).toNat r.length) = some b' ∧
          serve image b r =
            writeStatus r image b' ((totalDataBytes r.segments + 1).setWidth 32) kReqStatusOk) := by
  unfold serve
  simp only [ht, h, if_true, Bool.false_eq_true, if_false]
  cases hloop : writeSegments image (r.sector * 512).toNat b r.segments with
  | mk b' done =>
    cases done with
    | false =>
      refine ⟨writeStatus_image .., fun hok => ?_⟩
      rw [writeStatus_statusByte] at hok
      exact absurd hok (by decide)
    | true => exact ⟨writeStatus_image .., fun _ => ⟨b', scatter_of_writeSegments hloop, rfl⟩⟩

/-- An accepted OUT: the gathered data is in the image, or a segment stopped it. -/
theorem serve_out {image : Image} {b : Bus D} {r : Request} (ht : r.type = kReqTypeOut)
    (h : rejects image r = false) (hwhole : whole b r.segments = true) :
    (∃ data, gather b r.segments = some data ∧ data.length = r.length ∧
      (serve image b r).statusByte = kReqStatusOk ∧
      (serve image b r).image.bytes = overwrite image.bytes (r.sector * 512).toNat data) ∨
    ((serve image b r).statusByte = kReqStatusIoErr ∧ (serve image b r).image = image) := by
  have hne : r.type ≠ kReqTypeIn := by
    rw [ht]
    decide
  unfold serve
  dsimp only
  rw [if_neg hne, if_pos ht, h, if_neg Bool.false_ne_true]
  cases hloop : readSegments b (r.sector * 512).toNat image r.segments with
  | mk image' done =>
    cases done with
    | false =>
      obtain rfl := image_of_readSegments hwhole hloop
      exact .inr ⟨writeStatus_statusByte .., writeStatus_image ..⟩
    | true =>
      obtain ⟨data, hgather, hlen, himage⟩ := gather_of_readSegments hloop
      refine .inl ⟨data, hgather, hlen, writeStatus_statusByte .., ?_⟩
      rw [writeStatus_image]
      exact himage

/-- The other types leave the image. -/
theorem serve_other {image : Image} {b : Bus D} {r : Request} (ht : r.transfers = false) :
    (serve image b r).image = image := by
  simp only [Request.transfers, Bool.or_eq_false_iff, beq_eq_false_iff_ne] at ht
  unfold serve
  simp only [if_neg ht.1, if_neg ht.2]
  split
  · exact writeStatus_image ..
  split
  · split
    · exact writeStatus_image ..
    split
    · exact writeStatus_image ..
    · split <;> exact writeStatus_image ..
  · exact writeStatus_image ..

namespace Served

theorem response_eq {s : Served D} {r : Request} (hr : s.request = some r) :
    s.response = serve s.device.image s.bus r := by
  unfold request at hr
  rw [response, processRequest, hr]

theorem sound_iff {s : Served D} {r : Request} (hr : s.request = some r) :
    s.sound = true ↔ (r.transfers = true → rejects s.device.image r = false →
      r.sector.toNat < 2 ^ 55 ∧ (r.type = kReqTypeOut → whole s.bus r.segments = true)) := by
  simp only [sound, hr]
  cases r.transfers <;> cases rejects s.device.image r <;> simp
  tauto

/-- A sound transfer is refused exactly when it is bad. -/
theorem rejects_iff_bad {s : Served D} {r : Request} (hr : s.request = some r)
    (hs : s.sound = true) (ht : r.transfers = true) :
    rejects s.device.image r = true ↔ r.Bad s.device.image.bytes := by
  have hsegs := readRequest_segments hr
  by_cases hsector : r.sector.toNat < 2 ^ 55
  · exact rejects_iff hsegs hsector
  · have hrej : rejects s.device.image r = true := by
      cases h : rejects s.device.image r with
      | true => rfl
      | false => exact absurd ((sound_iff hr).1 hs ht h).1 hsector
    refine ⟨fun _ => ?_, fun _ => hrej⟩
    have hfits := s.device.image.fits
    left
    unfold Request.start
    omega

/-- The image after a sound request is the disk after it. -/
theorem image_response {s : Served D} (hs : s.sound = true) :
    s.response.image.bytes = s.apply s.device.image.bytes := by
  cases hr : s.request with
  | none =>
    have hreq : readRequest s.device.queue s.bus s.headIndex = none := hr
    simp only [apply, hr, response, processRequest, hreq]
  | some r =>
    simp only [apply, hr, response_eq hr]
    cases ht : r.transfers with
    | false =>
      have hne : r.type ≠ kReqTypeOut := by
        intro h
        rw [Request.transfers, h] at ht
        exact absurd ht (by decide)
      rw [serve_other ht, if_neg fun h => hne h.1]
    | true =>
      cases hrej : rejects s.device.image r with
      | true =>
        rw [serve_of_rejects ht hrej, writeStatus_image, writeStatus_statusByte,
          if_neg fun h => absurd h.2 (by decide)]
      | false =>
        obtain ⟨hsector, hwhole⟩ := (sound_iff hr).1 hs ht hrej
        by_cases hout : r.type = kReqTypeOut
        · have hstart : (r.sector * 512).toNat = r.start := by
            rw [BitVec.toNat_mul, Request.start]
            simp
            omega
          rcases serve_out hout hrej (hwhole hout) with
            ⟨data, hgather, -, hok, himage⟩ | ⟨herr, himage⟩
          · rw [if_pos ⟨hout, hok⟩, himage, hgather, hstart]
            rfl
          · rw [if_neg fun h => absurd (herr.symm.trans h.2) (by decide), himage]
        · have hin : r.type = kReqTypeIn := by
            simpa [Request.transfers, hout] using ht
          rw [(serve_in hin hrej).1, if_neg fun h => hout h.1]

/-- A sound request is answered from the image it was served on. -/
theorem answers_of_sound {s : Served D} {r : Request} (hr : s.request = some r)
    (hs : s.sound = true) : s.Answers s.device.image.bytes r := by
  have hsegs := readRequest_segments hr
  obtain ⟨htotal, hlen⟩ := toNat_totalDataBytes hsegs
  have hbad := rejects_iff_bad hr hs
  have hstart : r.sector.toNat < 2 ^ 55 → (r.sector * 512).toNat = r.start := by
    intro h
    rw [BitVec.toNat_mul, Request.start]
    simp
    omega
  have haccept : r.transfers = true → s.response.statusByte = kReqStatusOk →
      rejects s.device.image r = false := by
    intro ht hok
    cases hrej : rejects s.device.image r with
    | false => rfl
    | true =>
      rw [response_eq hr, serve_of_rejects ht hrej, writeStatus_statusByte] at hok
      exact absurd hok (by decide)
  constructor
  · intro hin hok
    have ht : r.transfers = true := by
      rw [Request.transfers, hin]
      rfl
    have hrej := haccept ht hok
    obtain ⟨hsector, -⟩ := (sound_iff hr).1 hs ht hrej
    rw [response_eq hr] at hok ⊢
    obtain ⟨b', hscatter, hserve⟩ := (serve_in hin hrej).2 hok
    rw [hstart hsector] at hscatter
    refine ⟨b', hscatter, ?_⟩
    rw [hserve]
    congr 1
    apply BitVec.eq_of_toNat_eq
    rw [BitVec.toNat_setWidth, BitVec.toNat_add, htotal, BitVec.toNat_ofNat]
    simp
  · intro hout hok
    have ht : r.transfers = true := by
      rw [Request.transfers, hout]
      rfl
    have hrej := haccept ht hok
    obtain ⟨-, hwhole⟩ := (sound_iff hr).1 hs ht hrej
    rw [response_eq hr] at hok
    rcases serve_out hout hrej (hwhole hout) with ⟨data, hgather, hdata, -, -⟩ | ⟨herr, -⟩
    · exact ⟨data, hgather, hdata⟩
    · exact absurd (herr.symm.trans hok) (by decide)
  · intro ht hok
    have hgood : ¬ r.Bad s.device.image.bytes := by
      rw [← hbad ht, haccept ht hok]
      decide
    obtain ⟨hinside, haligned⟩ := not_or.1 hgood
    exact ⟨Nat.le_of_not_lt hinside, not_not.1 haligned⟩
  · intro ht h
    rw [response_eq hr]
    exact serve_of_rejects ht ((hbad ht).2 h)

/-- Each request of the list came to the device on the disk its predecessors left. -/
def Followed : List U8 → List (Served D) → Prop
  | _, [] => True
  | disk, s :: rest => s.device.image.bytes = disk ∧ Followed (s.apply disk) rest

theorem followed_append {disk : List U8} {l l' : List (Served D)} :
    Followed disk (l ++ l') ↔ Followed disk l ∧ Followed (l.foldl apply disk) l' := by
  induction l generalizing disk with
  | nil => simp [Followed]
  | cons s l ih => simp only [List.cons_append, Followed, List.foldl_cons, ih, and_assoc]

theorem Followed.at {disk : List U8} {before after : List (Served D)} {s : Served D}
    (h : Followed disk (before ++ s :: after)) :
    s.device.image.bytes = before.foldl apply disk :=
  (followed_append.1 h).2.1

end Served

/-! ## The run -/

theorem completeRequest_image (v : VirtioBlkMmio) (b : Bus D) (headIndex : U16) :
    (v.completeRequest b headIndex).1.image = (v.processRequest b headIndex).image := by
  unfold completeRequest
  dsimp only
  split
  · rfl
  · split <;> rfl

/-- One loop of `process_queue`, by induction on the turns left. -/
theorem processLoop_followed {availIdx : U16} :
    ∀ {fuel : Nat} {v : VirtioBlkMmio} {b : Bus D} {any : Bool},
      (∀ s ∈ servedLoop availIdx fuel v b, s.sound = true) →
        Served.Followed v.image.bytes (servedLoop availIdx fuel v b) ∧
          (processLoop availIdx fuel v b any).1.image.bytes =
            (servedLoop availIdx fuel v b).foldl Served.apply v.image.bytes := by
  intro fuel
  induction fuel with
  | zero =>
    intro v b any _
    exact ⟨trivial, rfl⟩
  | succ fuel ih =>
    intro v b any hsound
    unfold servedLoop at hsound ⊢
    unfold processLoop
    by_cases hdone : v.queue.lastAvailIdx = availIdx
    · rw [if_pos hdone, if_pos hdone]
      exact ⟨trivial, rfl⟩
    rw [if_neg hdone] at hsound
    rw [if_neg hdone, if_neg hdone]
    cases hhead : readGuestU16 b (ringAddr v.queue) with
    | none => exact ⟨trivial, rfl⟩
    | some headIndex =>
      rw [hhead] at hsound
      dsimp only at hsound ⊢
      have hfirst := Served.image_response (hsound _ List.mem_cons_self)
      have himage := completeRequest_image v b headIndex
      cases hturn : v.completeRequest b headIndex with
      | mk v' rest =>
        obtain ⟨b', goesOn⟩ := rest
        rw [hturn] at hsound himage
        have hv' : v'.image.bytes =
            Served.apply v.image.bytes (⟨v, b, headIndex⟩ : Served D) := by
          rw [← hfirst]
          exact congrArg Image.bytes himage
        cases goesOn with
        | false => exact ⟨⟨rfl, trivial⟩, hv'⟩
        | true =>
          obtain ⟨hfollowed, hend⟩ :=
            @ih v' b' true fun s hs => hsound s (List.mem_cons_of_mem _ hs)
          rw [hv'] at hfollowed hend
          exact ⟨⟨rfl, hfollowed⟩, hend⟩

theorem processQueue_followed {v : VirtioBlkMmio} {b : Bus D} {queueIndex : U32}
    (hsound : ∀ s ∈ servedQueue v b queueIndex, s.sound = true) :
    Served.Followed v.image.bytes (servedQueue v b queueIndex) ∧
      (v.processQueue b queueIndex).1.image.bytes =
        (servedQueue v b queueIndex).foldl Served.apply v.image.bytes := by
  unfold servedQueue at hsound ⊢
  unfold processQueue
  by_cases hidle : queueIndex ≠ 0 ∨ !v.devicePresent ∨ v.queue.idle
  · rw [if_pos hidle, if_pos hidle]
    exact ⟨trivial, rfl⟩
  rw [if_neg hidle] at hsound
  rw [if_neg hidle, if_neg hidle]
  cases havail : readGuestU16 b (v.queue.availAddr + 2) with
  | none => exact ⟨trivial, rfl⟩
  | some availIdx =>
    rw [havail] at hsound
    obtain ⟨hfollowed, hend⟩ := @processLoop_followed _ _ _ _ _ false hsound
    refine ⟨hfollowed, ?_⟩
    dsimp only
    rw [← hend]
    split
    · rename_i heq
      rw [heq]
      rfl
    · rename_i heq
      rw [heq]

theorem write_notify (v : VirtioBlkMmio) (b : Bus D) {offset value size : U64}
    (h : accessMatches offset size kRegQueueNotify = true) :
    v.write b offset value size = v.processQueue b (value.setWidth 32) := by
  obtain ⟨rfl, rfl⟩ : offset = kRegQueueNotify ∧ size = 4 := by
    simpa [accessMatches] using h
  rfl

/-- No other register write touches the image. -/
theorem write_image (v : VirtioBlkMmio) (b : Bus D) {offset value size : U64}
    (h : accessMatches offset size kRegQueueNotify = false) :
    (v.write b offset value size).1.image = v.image := by
  unfold write
  iterate 6
    split
    · rfl
  split
  · split <;> rfl
  unfold writeQueueRegister
  split
  · rfl
  rename_i hreg
  split
  · rfl
  split
  · rename_i hoff
    obtain ⟨reg, -, hmatch⟩ := List.any_eq_true.1 (not_not.1 hreg)
    simp only [accessMatches, Bool.and_eq_true, beq_iff_eq] at hmatch
    rw [accessMatches, hoff, hmatch.2] at h
    exact absurd h (by decide)
  · split <;> rfl

theorem step_followed {m : Machine D} {op : Op D} (hsound : ∀ s ∈ served m op, s.sound = true) :
    Served.Followed m.blk.image.bytes (served m op) ∧
      (step m op).blk.image.bytes = (served m op).foldl Served.apply m.blk.image.bytes := by
  cases op with
  | memory b => exact ⟨trivial, rfl⟩
  | write offset value size =>
    unfold served at hsound ⊢
    dsimp only [step] at hsound ⊢
    by_cases h : accessMatches offset size kRegQueueNotify = true
    · rw [if_pos h] at hsound ⊢
      rw [write_notify _ _ h]
      exact processQueue_followed hsound
    · rw [if_neg h, write_image _ _ (Bool.eq_false_iff.2 h)]
      exact ⟨trivial, rfl⟩

theorem run_followed {ops : List (Op D)} :
    ∀ {m : Machine D}, (∀ s ∈ servedRun m ops, s.sound = true) →
      Served.Followed m.blk.image.bytes (servedRun m ops) ∧
        (run step m ops).blk.image.bytes =
          (servedRun m ops).foldl Served.apply m.blk.image.bytes := by
  induction ops with
  | nil =>
    intro m _
    exact ⟨trivial, rfl⟩
  | cons op ops ih =>
    intro m hsound
    simp only [servedRun] at hsound ⊢
    obtain ⟨hfirst, himage⟩ :=
      step_followed fun s hs => hsound s (List.mem_append_left _ hs)
    obtain ⟨hrest, hend⟩ := ih fun s hs => hsound s (List.mem_append_right _ hs)
    rw [himage] at hrest hend
    rw [List.foldl_append, run_cons]
    exact ⟨Served.followed_append.2 ⟨hfirst, hrest⟩, hend⟩

/-- In every run all of whose requests are sound the device is the sector array. -/
theorem refines_of_sound (m : Machine D) (ops : List (Op D))
    (hsound : ∀ s ∈ servedRun m ops, s.sound = true) : Refines m ops := by
  obtain ⟨hfollowed, himage⟩ := run_followed hsound
  refine ⟨himage, ?_⟩
  intro before s after heq r hr
  have hs : s.sound = true := by
    apply hsound
    rw [heq]
    exact List.mem_append_right _ List.mem_cons_self
  rw [heq] at hfollowed
  rw [← hfollowed.at]
  exact Served.answers_of_sound hr hs

/-! ### Three requests -/

/-- SDRAM with a queue of four entries and one OUT request: descriptors at 0, the
available ring at 0x100, the used ring at 0x200, the header at 0x300, data at 0x400 and
the status byte at 0x900. `sectorTop` is bits 48 to 55 of the sector. -/
def requestBytes (descs : List U8) (sectorTop : U8) (i : Nat) : U8 :=
  if i < 0x40 then descs.getD i 0
  else if i = 0x102 then 1
  else if i = 0x300 then 1
  else if i = 0x30e then sectorTop
  else if 0x400 ≤ i then 0xaa
  else 0

def requestBus (descs : List U8) (sectorTop : U8) : Bus Unit :=
  (socBus false ()).setRam 2 ⟨kSdramSize, requestBytes descs sectorTop⟩

/-- Header, 512 bytes of data, status. -/
def oneSegment : List U8 :=
  [0x00, 0x03, 0, 0x40, 0, 0, 0, 0, 16, 0, 0, 0, 1, 0, 1, 0,
   0x00, 0x04, 0, 0x40, 0, 0, 0, 0, 0, 2, 0, 0, 1, 0, 2, 0,
   0x00, 0x09, 0, 0x40, 0, 0, 0, 0, 1, 0, 0, 0, 2, 0, 0, 0]

/-- Header, 512 bytes of data, 512 bytes the driver marked for the device to write,
status. -/
def mixedSegments : List U8 :=
  [0x00, 0x03, 0, 0x40, 0, 0, 0, 0, 16, 0, 0, 0, 1, 0, 1, 0,
   0x00, 0x04, 0, 0x40, 0, 0, 0, 0, 0, 2, 0, 0, 1, 0, 2, 0,
   0x00, 0x06, 0, 0x40, 0, 0, 0, 0, 0, 2, 0, 0, 3, 0, 3, 0,
   0x00, 0x09, 0, 0x40, 0, 0, 0, 0, 1, 0, 0, 0, 2, 0, 0, 0]

def zeroSectors (n : Nat) (h : kSectorSize * n < 2 ^ 64) : Image where
  bytes := List.replicate (kSectorSize * n) 0
  sectors := by
    rw [List.length_replicate]
    exact Nat.dvd_mul_right ..
  fits := by
    rw [List.length_replicate]
    exact h

/-- A disk of `n` zero sectors behind that queue. -/
def zeroDisk (n : Nat) (h : kSectorSize * n < 2 ^ 64) : VirtioBlkMmio :=
  { init with
    image := zeroSectors n h
    queue := ⟨4, true, kSdramBase, kSdramBase + 0x100, kSdramBase + 0x200, 0, 0, by decide⟩
    configGeneration := 1 }

def notified (n : Nat) (h : kSectorSize * n < 2 ^ 64) (descs : List U8) (sectorTop : U8) :
    Machine Unit :=
  ⟨zeroDisk n h, requestBus descs sectorTop⟩

/-- A write of sector zero. -/
theorem writes_sector_zero :
    Refines (notified 1 (by decide) oneSegment 0) [.write kRegQueueNotify 0 4] ∧
      (run step (notified 1 (by decide) oneSegment 0)
        [.write kRegQueueNotify 0 4]).blk.image.bytes = List.replicate 512 0xaa := by
  refine ⟨refines_of_sound _ _ ?_, by decide +kernel⟩
  decide +kernel

/-- A write of sector `2 ^ 55` to a disk of one sector succeeds, on sector zero. A write of
two segments to a disk of two sectors fails at the second, which is not readable, after
the first has changed the disk. -/
theorem wrapped_and_cut_short :
    ¬ Refines (notified 1 (by decide) oneSegment 0x80) [.write kRegQueueNotify 0 4] ∧
      ¬ Refines (notified 2 (by decide) mixedSegments 0) [.write kRegQueueNotify 0 4] := by
  constructor
  · intro h
    have hone : (servedRun (notified 1 (by decide) oneSegment 0x80)
        [.write kRegQueueNotify 0 4]).length = 1 := by decide +kernel
    obtain ⟨s, hs⟩ := List.length_eq_one_iff.1 hone
    have hserved : ((servedRun (notified 1 (by decide) oneSegment 0x80)
        [.write kRegQueueNotify 0 4]).all fun s => s.request.any fun r =>
          r.type == kReqTypeOut && s.response.statusByte == kReqStatusOk &&
            decide (512 < r.start)) = true := by decide +kernel
    rw [hs, List.all_cons, List.all_nil, Bool.and_true] at hserved
    obtain ⟨r, hr, htest⟩ := (Option.any_eq_true _ _).1 hserved
    simp only [Bool.and_eq_true, beq_iff_eq, decide_eq_true_eq] at htest
    obtain ⟨⟨hout, hok⟩, hstart⟩ := htest
    have ht : r.transfers = true := by
      rw [Request.transfers, hout]
      rfl
    obtain ⟨hinside, -⟩ := (h.answers [] s [] hs r hr).inside ht hok
    have hdisk : (notified 1 (by decide) oneSegment 0x80).blk.image.bytes.length = 512 :=
      List.length_replicate
    rw [List.foldl_nil, hdisk] at hinside
    omega
  · intro h
    have himage := h.image
    revert himage
    decide +kernel

end VirtioBlkMmio
end Aarchvm.Virtio
