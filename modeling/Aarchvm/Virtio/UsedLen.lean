import Aarchvm.Virtio.BlkImage
import Mathlib.Data.List.TakeWhile

/-!
# The used length of a block request

The pieces a request writes into the driver's buffers, apart from how the device
reports them: data for IN and GET_ID, then the status byte. The length in the
used ring is compared with what landed.
-/
namespace Aarchvm.Virtio

open Lib.Bytes

variable {D : Type}

/-! ## Stores to guest memory -/

/-- Is there RAM for a store of `n` bytes at `addr`? -/
def hasRam (b : Bus D) (addr : U64) (n : Nat) : Bool :=
  BitVec.ofNat 64 n == (0 : U64) || (b.ramMutPtr addr (BitVec.ofNat 64 n)).isSome

theorem writeGuest_isSome (b : Bus D) (addr : U64) (src : List U8) :
    (writeGuest b addr src).isSome = hasRam b addr src.length := by
  unfold writeGuest Bus.writeRamBuffer hasRam
  by_cases hz : BitVec.ofNat 64 src.length = (0 : U64)
  · rw [if_pos hz, hz]
    rfl
  · rw [if_neg hz]
    dsimp only
    have hne : (BitVec.ofNat 64 src.length == (0 : U64)) = false := by simpa using hz
    rw [hne, Bool.false_or]
    cases b.ramMutPtr addr (BitVec.ofNat 64 src.length) <;> rfl

/-- Same mappings and RAM sizes: where there is RAM does not change. -/
structure SameLayout (b b' : Bus D) : Prop where
  mappings : b'.mappings = b.mappings
  fastPath : b'.fastPath = b.fastPath
  size : ∀ id, (b'.rams id).size = (b.rams id).size

namespace SameLayout

theorem refl (b : Bus D) : SameLayout b b := ⟨rfl, rfl, fun _ => rfl⟩

theorem trans {b b' b'' : Bus D} (h : SameLayout b b') (h' : SameLayout b' b'') :
    SameLayout b b'' :=
  ⟨h'.mappings.trans h.mappings, h'.fastPath.trans h.fastPath,
    fun id => (h'.size id).trans (h.size id)⟩

theorem ramMutPtr {b b' : Bus D} (h : SameLayout b b') (addr size : U64) :
    b'.ramMutPtr addr size = b.ramMutPtr addr size := by
  unfold Bus.ramMutPtr Bus.findRamPtr Bus.find
  rw [h.mappings, h.fastPath]
  simp only [h.size]

theorem hasRam {b b' : Bus D} (h : SameLayout b b') (addr : U64) (n : Nat) :
    hasRam b' addr n = Virtio.hasRam b addr n := by
  unfold Virtio.hasRam
  rw [h.ramMutPtr]

theorem writeGuest {b b' : Bus D} {addr : U64} {src : List U8}
    (h : Virtio.writeGuest b addr src = some b') : SameLayout b b' := by
  unfold Virtio.writeGuest Bus.writeRamBuffer at h
  by_cases hz : BitVec.ofNat 64 src.length = (0 : U64)
  · rw [if_pos hz] at h
    cases h
    exact refl b
  · rw [if_neg hz] at h
    dsimp only at h
    split at h
    · exact nomatch h
    · rename_i p hp
      cases h
      refine ⟨rfl, rfl, fun id => ?_⟩
      by_cases hid : id = p.ram
      · subst hid
        simp [Bus.copyTo, Bus.setRam]
      · simp [Bus.copyTo, Bus.setRam, hid]

end SameLayout

/-- A stretch of bytes for one descriptor. -/
structure Piece where
  writable : Bool
  addr : U64
  bytes : List U8

/-- Does the device get the piece into memory? -/
def Piece.lands (b : Bus D) (p : Piece) : Bool := p.writable && hasRam b p.addr p.bytes.length

/-- The piece goes into one of the segments. -/
def Piece.Within (p : Piece) (segs : List TransferSegment) : Prop :=
  ∃ seg ∈ segs, p.writable = seg.writable ∧ p.addr = seg.addr ∧ p.bytes.length ≤ seg.len.toNat

/-- The stores of `pieces`, in order. -/
def put (b : Bus D) (pieces : List Piece) : Bus D :=
  pieces.foldl (fun b p => (writeGuest b p.addr p.bytes).getD b) b

/-- The pieces that land before one does not. -/
def landed (b : Bus D) (pieces : List Piece) : List Piece := pieces.takeWhile (·.lands b)

def byteCount (pieces : List Piece) : Nat := (pieces.map (·.bytes.length)).sum

theorem landed_congr {b b' : Bus D} (h : SameLayout b b') (pieces : List Piece) :
    landed b' pieces = landed b pieces ∧ pieces.all (·.lands b') = pieces.all (·.lands b) := by
  have hlands : (fun p : Piece => p.lands b') = fun p => p.lands b := by
    funext p
    unfold Piece.lands
    rw [h.hasRam]
  unfold landed
  rw [hlands]
  exact ⟨rfl, rfl⟩

theorem landed_of_all {b : Bus D} {pieces : List Piece} (h : pieces.all (·.lands b) = true) :
    landed b pieces = pieces :=
  List.takeWhile_eq_self_iff.2 (List.all_eq_true.1 h)

/-- The first piece decides whether anything lands. -/
theorem landed_cons (b : Bus D) (p : Piece) (pieces : List Piece) :
    landed b (p :: pieces) = if p.lands b then p :: landed b pieces else [] := by
  unfold landed
  rw [List.takeWhile_cons]

theorem sameLayout_put (b : Bus D) (pieces : List Piece) : SameLayout b (put b pieces) := by
  induction pieces generalizing b with
  | nil => exact .refl b
  | cons p pieces ih =>
    have hp : SameLayout b ((writeGuest b p.addr p.bytes).getD b) := by
      cases hw : writeGuest b p.addr p.bytes with
      | none => exact .refl b
      | some b' => exact .writeGuest hw
    exact hp.trans (ih _)

theorem put_append (b : Bus D) (l l' : List Piece) : put b (l ++ l') = put (put b l) l' :=
  List.foldl_append ..

namespace VirtioBlkMmio

/-! ## The pieces of a request -/

/-- IN: the image from `off` on, laid out over the segments. -/
def inPieces (image : Image) : Nat → List TransferSegment → List Piece
  | _, [] => []
  | off, seg :: segs =>
    ⟨seg.writable, seg.addr, slice image.bytes off seg.len.toNat⟩ ::
      inPieces image (off + seg.len.toNat) segs

/-- GET_ID: the identifier from `copied` on; a segment that takes nothing ends it. -/
def idPieces : Nat → List TransferSegment → List Piece
  | _, [] => []
  | copied, seg :: segs =>
    let chunk := min seg.len.toNat (idBytes.length - copied)
    ⟨seg.writable, seg.addr, slice idBytes copied chunk⟩ ::
      if chunk = 0 then [] else idPieces (copied + chunk) segs

/-- What a request would write besides its status. -/
def dataPieces (image : Image) (r : Request) : List Piece :=
  if r.type = kReqTypeIn then
    if rejects image r then [] else inPieces image (r.sector * 512).toNat r.segments
  else if r.type = kReqTypeGetId then idPieces 0 r.segments
  else []

/-- The status byte: its descriptor was checked to be writable. -/
def statusPiece (r : Request) (byte : U8) : Piece := ⟨r.statusLen != 0, r.statusAddr, [byte]⟩

theorem lands_eq (b : Bus D) (writable : Bool) (addr : U64) (bytes : List U8) :
    Piece.lands b ⟨writable, addr, bytes⟩ = (writable && (writeGuest b addr bytes).isSome) := by
  rw [writeGuest_isSome]
  rfl

/-- The IN loop stores the pieces that land and reports whether all did. -/
theorem writeSegments_eq (image : Image) (off : Nat) (b : Bus D) (segs : List TransferSegment) :
    writeSegments image off b segs =
      (put b (landed b (inPieces image off segs)), (inPieces image off segs).all (·.lands b)) := by
  induction segs generalizing off b with
  | nil => rfl
  | cons seg segs ih =>
    simp only [writeSegments, inPieces, landed_cons, List.all_cons, lands_eq]
    cases hw : seg.writable with
    | false => rfl
    | true =>
      cases hg : writeGuest b seg.addr (slice image.bytes off seg.len.toNat) with
      | none => rfl
      | some b' =>
        obtain ⟨hl, ha⟩ := landed_congr (.writeGuest hg) (inPieces image (off + seg.len.toNat) segs)
        simp only [Option.isSome_some, Bool.not_true, Bool.false_eq_true, if_false, Bool.true_and,
          if_true]
        rw [ih, hl, ha]
        simp only [put, List.foldl_cons, hg, Option.getD_some]

theorem byteCount_cons (p : Piece) (pieces : List Piece) :
    byteCount (p :: pieces) = p.bytes.length + byteCount pieces := rfl

/-- The GET_ID loop stores the pieces that land and reports how many bytes, if all did. -/
theorem writeId_eq (copied : Nat) (hcopied : copied ≤ idBytes.length) (b : Bus D)
    (segs : List TransferSegment) :
    writeId copied b segs =
      (put b (landed b (idPieces copied segs)),
        if (idPieces copied segs).all (·.lands b) then
          some (copied + byteCount (idPieces copied segs)) else none) := by
  induction segs generalizing copied b with
  | nil => rfl
  | cons seg segs ih =>
    simp only [writeId, idPieces, landed_cons, List.all_cons, lands_eq]
    have hchunk : min seg.len.toNat (idBytes.length - copied) ≤ idBytes.length - copied :=
      Nat.min_le_right _ _
    generalize min seg.len.toNat (idBytes.length - copied) = chunk at hchunk
    have hlen : (slice idBytes copied chunk).length = chunk := length_slice (by omega)
    cases hw : seg.writable with
    | false => rfl
    | true =>
      by_cases hz : chunk = 0
      · have hnil : slice idBytes copied chunk = [] := List.length_eq_zero_iff.1 (hlen.trans hz)
        rw [hnil, hz]
        rfl
      · simp only [hz, if_false, Bool.not_true, Bool.false_eq_true]
        cases hg : writeGuest b seg.addr (slice idBytes copied chunk) with
        | none => rfl
        | some b' =>
          obtain ⟨hl, ha⟩ := landed_congr (.writeGuest hg) (idPieces (copied + chunk) segs)
          simp only [Option.isSome_some, Bool.true_and, if_true]
          rw [ih _ (by omega), hl, ha, byteCount_cons, hlen, Nat.add_assoc]
          simp only [put, List.foldl_cons, hg, Option.getD_some]

/-- The OUT loop reports whether every segment could be read. -/
theorem readSegments_snd (b : Bus D) (off : Nat) (image : Image) (segs : List TransferSegment) :
    (readSegments b off image segs).2 = segs.all (readable b) := by
  induction segs generalizing off image with
  | nil => rfl
  | cons seg segs ih =>
    simp only [readSegments, List.all_cons, readable]
    cases hw : seg.writable with
    | true => rfl
    | false =>
      cases hr : readGuest b seg.addr (seg.len.setWidth 64) with
      | none => rfl
      | some tmp =>
        simp only [Bool.false_eq_true, if_false, Bool.not_false, Option.isSome_some,
          Bool.true_and]
        rw [ih]

theorem writeStatus_eq (r : Request) (image : Image) (b : Bus D) (usedLen : U32) (byte : U8) :
    writeStatus r image b usedLen byte =
      ⟨image, put b (landed b [statusPiece r byte]), usedLen, byte,
        (statusPiece r byte).lands b⟩ := by
  unfold writeStatus
  rw [landed_cons, statusPiece, lands_eq]
  by_cases hz : r.statusLen = 0
  · have hne : (r.statusLen != 0) = false := by simp [hz]
    rw [if_pos hz, hne]
    rfl
  · have hne : (r.statusLen != 0) = true := bne_iff_ne.2 hz
    rw [if_neg hz, hne, Bool.true_and]
    cases hg : writeGuest b r.statusAddr [byte] with
    | none => rfl
    | some b' =>
      simp only [Option.isSome_some, if_true, landed, List.takeWhile_nil, put, List.foldl_cons,
        List.foldl_nil, hg, Option.getD_some]

/-! ## A request as a whole -/

/-- Does the request come to its successful end, the status byte apart? -/
def completes (image : Image) (b : Bus D) (r : Request) : Bool :=
  if r.type = kReqTypeIn then
    !rejects image r && (dataPieces image r).all (·.lands b)
  else if r.type = kReqTypeOut then !rejects image r && r.segments.all (readable b)
  else if r.type = kReqTypeGetId then
    !r.segments.isEmpty && (dataPieces image r).all (·.lands b) &&
      decide (idBytes.length ≤ byteCount (dataPieces image r))
  else true

/-- The length that a successful request reports. -/
def reportedLen (r : Request) : U32 :=
  if r.type = kReqTypeIn then (totalDataBytes r.segments + 1).setWidth 32
  else if r.type = kReqTypeGetId then 21
  else 1

/-- Every request writes the data pieces that land, then its status. -/
theorem serve_eq (image : Image) (b : Bus D) (r : Request) :
    ∃ image' byte, serve image b r =
      writeStatus r image' (put b (landed b (dataPieces image r)))
        (if completes image b r then reportedLen r else 0) byte := by
  unfold serve completes reportedLen
  by_cases hin : r.type = kReqTypeIn
  · simp only [dataPieces, hin, if_true]
    cases hrej : rejects image r with
    | true => exact ⟨image, kReqStatusIoErr, rfl⟩
    | false =>
      simp only [Bool.false_eq_true, if_false, Bool.not_false, Bool.true_and]
      rw [writeSegments_eq]
      cases (inPieces image (r.sector * 512).toNat r.segments).all (·.lands b) with
      | true => exact ⟨image, kReqStatusOk, rfl⟩
      | false => exact ⟨image, kReqStatusIoErr, rfl⟩
  by_cases hout : r.type = kReqTypeOut
  · simp only [dataPieces, hout, if_true]
    cases hrej : rejects image r with
    | true => exact ⟨image, kReqStatusIoErr, rfl⟩
    | false =>
      have hread := readSegments_snd b (r.sector * 512).toNat image r.segments
      simp only [Bool.false_eq_true, if_false, Bool.not_false, Bool.true_and, ← hread]
      cases readSegments b (r.sector * 512).toNat image r.segments with
      | mk image' done =>
        cases done with
        | true => exact ⟨image', kReqStatusOk, rfl⟩
        | false => exact ⟨image', kReqStatusIoErr, rfl⟩
  by_cases hid : r.type = kReqTypeGetId
  · have hnot : ¬ kReqTypeGetId = kReqTypeFlush := by decide
    rw [hid] at hin hout
    simp only [dataPieces, hin, hout, hid, hnot, if_true, if_false]
    cases hsegs : r.segments with
    | nil => exact ⟨image, kReqStatusIoErr, rfl⟩
    | cons seg segs =>
      rw [writeId_eq 0 (Nat.zero_le _)]
      simp only [reduceCtorEq, if_false, List.isEmpty_cons, Bool.not_false, Bool.true_and]
      cases (idPieces 0 (seg :: segs)).all (·.lands b) with
      | false => exact ⟨image, kReqStatusIoErr, rfl⟩
      | true =>
        simp only [if_true, Nat.zero_add, Bool.true_and]
        by_cases hlen : byteCount (idPieces 0 (seg :: segs)) < idBytes.length
        · rw [if_pos hlen, decide_eq_false (Nat.not_le.2 hlen)]
          exact ⟨image, kReqStatusIoErr, rfl⟩
        · rw [if_neg hlen, decide_eq_true (Nat.le_of_not_lt hlen)]
          exact ⟨image, kReqStatusOk, rfl⟩
  · simp only [dataPieces, hin, hout, hid, if_false, if_true]
    split
    · exact ⟨image, kReqStatusOk, rfl⟩
    · exact ⟨image, kReqStatusUnsupported, rfl⟩

/-! ## Counting -/

theorem byteCount_inPieces {image : Image} {segs : List TransferSegment} {off : Nat}
    (h : off + (segs.map (·.len.toNat)).sum ≤ image.bytes.length) :
    byteCount (inPieces image off segs) = (segs.map (·.len.toNat)).sum := by
  induction segs generalizing off with
  | nil => rfl
  | cons seg segs ih =>
    rw [List.map_cons, List.sum_cons] at h
    rw [inPieces, byteCount_cons, ih (by omega), List.map_cons, List.sum_cons,
      length_slice (by omega)]

theorem byteCount_idPieces_le (copied : Nat) (segs : List TransferSegment) :
    byteCount (idPieces copied segs) ≤ idBytes.length - copied := by
  induction segs generalizing copied with
  | nil => exact Nat.zero_le _
  | cons seg segs ih =>
    rw [idPieces]
    have hchunk : min seg.len.toNat (idBytes.length - copied) ≤ idBytes.length - copied :=
      Nat.min_le_right _ _
    generalize min seg.len.toNat (idBytes.length - copied) = chunk at hchunk
    have hslice : (slice idBytes copied chunk).length ≤ chunk := by
      simp only [slice, List.length_take]
      exact Nat.min_le_left _ _
    rw [byteCount_cons]
    by_cases hz : chunk = 0
    · rw [if_pos hz]
      show (slice idBytes copied chunk).length + 0 ≤ _
      omega
    · rw [if_neg hz]
      have hrest := ih (copied + chunk)
      show (slice idBytes copied chunk).length + _ ≤ _
      omega

/-- An accepted request lies inside the image, whatever the product wrapped to. -/
theorem inside_of_not_rejects {image : Image} {r : Request} (hsegs : r.segments.length ≤ 128)
    (h : rejects image r = false) :
    (r.sector * 512).toNat + r.length ≤ image.bytes.length := by
  obtain ⟨htotal, -⟩ := toNat_totalDataBytes hsegs
  have hsize := image.toNat_size
  simp only [rejects, Bool.or_eq_false_iff, decide_eq_false_iff_not, BitVec.lt_def, htotal] at h
  obtain ⟨-, hstart, hlen⟩ := h
  rw [BitVec.toNat_sub_of_le (by rw [BitVec.le_def]; omega)] at hlen
  omega

/-! ## The used length -/

/-- The length `process_queue` stores in the used ring for a request. -/
def usedLength (v : VirtioBlkMmio) (b : Bus D) (headIndex : U16) : U32 :=
  if (v.processRequest b headIndex).ok then (v.processRequest b headIndex).usedLen else 1

/-- The stores of a request, its status byte last. -/
def writtenPieces (v : VirtioBlkMmio) (b : Bus D) (headIndex : U16) : List Piece :=
  match readRequest v.queue b headIndex with
  | none => []
  | some r =>
    landed b (dataPieces v.image r) ++
      landed b [statusPiece r (v.processRequest b headIndex).statusByte]

/-- Does the status byte of the request have a place in memory? -/
def statusLands (b : Bus D) (r : Request) : Bool :=
  r.statusLen != 0 && hasRam b r.statusAddr 1

/-- When the used length is right: the status byte is stored and the request comes to its
successful end with a length that fits; or the status byte is not stored and the data
stored is one byte. -/
def UsedLenRight (v : VirtioBlkMmio) (b : Bus D) (headIndex : U16) : Prop :=
  ∃ r, readRequest v.queue b headIndex = some r ∧
    if statusLands b r then
      completes v.image b r = true ∧ (r.type = kReqTypeIn → r.length + 1 < 2 ^ 32)
    else byteCount (landed b (dataPieces v.image r)) = 1

theorem statusPiece_lands (b : Bus D) (r : Request) (byte : U8) :
    (statusPiece r byte).lands b = statusLands b r := rfl

theorem byteCount_append (l l' : List Piece) :
    byteCount (l ++ l') = byteCount l + byteCount l' := by
  simp [byteCount]

/-- The successful end reports what landed, as far as the length fits. -/
theorem reportedLen_iff {image : Image} {b : Bus D} {r : Request} (hsegs : r.segments.length ≤ 128)
    (h : completes image b r = true) :
    (reportedLen r).toNat = byteCount (landed b (dataPieces image r)) + 1 ↔
      (r.type = kReqTypeIn → r.length + 1 < 2 ^ 32) := by
  unfold completes at h
  unfold reportedLen
  by_cases hin : r.type = kReqTypeIn
  · rw [if_pos hin, Bool.and_eq_true, Bool.not_eq_true'] at h
    obtain ⟨hrej, hall⟩ := h
    have hpieces : dataPieces image r = inPieces image (r.sector * 512).toNat r.segments := by
      rw [dataPieces, if_pos hin, hrej]
      rfl
    obtain ⟨htotal, hlt⟩ := toNat_totalDataBytes hsegs
    have hone : (1 : U64).toNat = 1 := rfl
    rw [if_pos hin, landed_of_all hall, hpieces,
      byteCount_inPieces (inside_of_not_rejects hsegs hrej), BitVec.toNat_setWidth,
      BitVec.toNat_add, htotal, hone]
    show (r.length + 1) % 2 ^ 64 % 2 ^ 32 = r.length + 1 ↔ _
    constructor
    · intro heq _
      omega
    · intro hfit
      have := hfit hin
      omega
  by_cases hid : r.type = kReqTypeGetId
  · rw [if_neg hin, if_neg (by rw [hid]; decide), if_pos hid, Bool.and_eq_true, Bool.and_eq_true,
      decide_eq_true_eq] at h
    obtain ⟨⟨-, hall⟩, hlen⟩ := h
    have hpieces : dataPieces image r = idPieces 0 r.segments := by
      rw [dataPieces, if_neg hin, if_pos hid]
    have hle := byteCount_idPieces_le 0 r.segments
    have hids : idBytes.length = 20 := rfl
    rw [hpieces, hids] at hlen
    rw [hids] at hle
    have h21 : (21 : U32).toNat = 21 := rfl
    rw [if_neg hin, if_pos hid, landed_of_all hall, hpieces, h21]
    exact ⟨fun _ hin' => absurd hin' hin, fun _ => by omega⟩
  · have hpieces : dataPieces image r = [] := by
      rw [dataPieces, if_neg hin, if_neg hid]
    rw [if_neg hin, if_neg hid, hpieces]
    exact ⟨fun _ hin' => absurd hin' hin, fun _ => rfl⟩

theorem within_head (seg : TransferSegment) (segs : List TransferSegment) (bytes : List U8)
    (off : Nat) {len : Nat} (hlen : len ≤ seg.len.toNat) :
    (⟨seg.writable, seg.addr, slice bytes off len⟩ : Piece).Within (seg :: segs) := by
  refine ⟨seg, List.mem_cons_self, rfl, rfl, ?_⟩
  simp only [slice, List.length_take]
  exact Nat.le_trans (Nat.min_le_left _ _) hlen

theorem within_tail {p : Piece} {segs : List TransferSegment} (h : p.Within segs)
    (seg : TransferSegment) : p.Within (seg :: segs) := by
  obtain ⟨seg', hmem, hrest⟩ := h
  exact ⟨seg', List.mem_cons_of_mem _ hmem, hrest⟩

theorem within_of_inPieces {image : Image} {p : Piece} {segs : List TransferSegment} {off : Nat}
    (h : p ∈ inPieces image off segs) : p.Within segs := by
  induction segs generalizing off with
  | nil => exact absurd h List.not_mem_nil
  | cons seg segs ih =>
    rcases List.mem_cons.1 h with rfl | h
    · exact within_head seg segs image.bytes off (Nat.le_refl _)
    · exact within_tail (ih h) seg

theorem within_of_idPieces {p : Piece} {segs : List TransferSegment} {copied : Nat}
    (h : p ∈ idPieces copied segs) : p.Within segs := by
  induction segs generalizing copied with
  | nil => exact absurd h List.not_mem_nil
  | cons seg segs ih =>
    rw [idPieces] at h
    rcases List.mem_cons.1 h with rfl | h
    · exact within_head seg segs idBytes copied (Nat.min_le_left _ _)
    · split at h
      · exact absurd h List.not_mem_nil
      · exact within_tail (ih h) seg

/-- Where the data pieces go: into the chain's data segments. -/
theorem mem_dataPieces {image : Image} {r : Request} {p : Piece} (hp : p ∈ dataPieces image r) :
    p.Within r.segments := by
  unfold dataPieces at hp
  split at hp
  · split at hp
    · exact absurd hp List.not_mem_nil
    · exact within_of_inPieces hp
  · split at hp
    · exact within_of_idPieces hp
    · exact absurd hp List.not_mem_nil

/-- Every store of a request goes into a writable data segment of its chain or is the status
byte. -/
theorem writtenPieces_inside {v : VirtioBlkMmio} {b : Bus D} {headIndex : U16} {r : Request}
    (hr : readRequest v.queue b headIndex = some r) {p : Piece}
    (hp : p ∈ v.writtenPieces b headIndex) :
    (∃ seg ∈ r.segments, seg.writable = true ∧ p.addr = seg.addr ∧
      p.bytes.length ≤ seg.len.toNat) ∨ p.addr = r.statusAddr ∧ p.bytes.length = 1 := by
  simp only [writtenPieces, hr, List.mem_append] at hp
  rcases hp with hdata | hstatus
  · left
    obtain ⟨seg, hmem, hw, haddr, hlen⟩ := mem_dataPieces (List.takeWhile_subset _ hdata)
    have hlands := List.mem_takeWhile_imp hdata
    simp only [Piece.lands, Bool.and_eq_true] at hlands
    exact ⟨seg, hmem, hw ▸ hlands.1, haddr, hlen⟩
  · right
    rw [List.mem_singleton.1 (List.takeWhile_subset _ hstatus)]
    exact ⟨rfl, rfl⟩

/-- `process_queue` stores `usedLength` next to the head index. -/
theorem completeRequest_usedLength (v : VirtioBlkMmio) (b : Bus D) (headIndex : U16) :
    v.completeRequest b headIndex =
      match writeUsed (v.processRequest b headIndex).bus v.queue headIndex
          (v.usedLength b headIndex) with
      | (b', false) => ({ v with image := (v.processRequest b headIndex).image }, b', false)
      | (b', true) =>
        let queue := { v.queue with
          lastAvailIdx := v.queue.lastAvailIdx + 1
          usedIdx := v.queue.usedIdx + 1 }
        let v' := { v with image := (v.processRequest b headIndex).image, queue := queue }
        match writeGuestU16 b' (queue.usedAddr + 2) queue.usedIdx with
        | none => (v', b', false)
        | some b' => (v', b', true) := rfl

/-- A request changes memory by its pieces alone, and the used length counts them exactly when
the request comes to its successful end. -/
theorem usedLength_iff (v : VirtioBlkMmio) (b : Bus D) (headIndex : U16) :
    (v.processRequest b headIndex).bus = put b (v.writtenPieces b headIndex) ∧
    ((v.usedLength b headIndex).toNat = byteCount (v.writtenPieces b headIndex) ↔
      v.UsedLenRight b headIndex) := by
  unfold usedLength writtenPieces UsedLenRight
  cases hr : readRequest v.queue b headIndex with
  | none =>
    have hresp : v.processRequest b headIndex = ⟨v.image, b, 0, kReqStatusIoErr, false⟩ := by
      rw [processRequest, hr]
    simp only [hresp, Bool.false_eq_true, if_false, reduceCtorEq, false_and, exists_false,
      iff_false]
    exact ⟨rfl, by decide⟩
  | some r =>
    have hsegs := readRequest_segments hr
    obtain ⟨image', byte, hserve⟩ := serve_eq v.image b r
    have hsame := sameLayout_put b (landed b (dataPieces v.image r))
    obtain ⟨hland, -⟩ := landed_congr hsame [statusPiece r byte]
    have hok : (statusPiece r byte).lands (put b (landed b (dataPieces v.image r))) =
        statusLands b r := by
      rw [statusPiece_lands, statusLands, hsame.hasRam]
      rfl
    have hresp : v.processRequest b headIndex =
        ⟨image', put b (landed b (dataPieces v.image r) ++ landed b [statusPiece r byte]),
          if completes v.image b r then reportedLen r else 0, byte, statusLands b r⟩ := by
      rw [processRequest, hr]
      dsimp only
      rw [hserve, writeStatus_eq, hok, hland, put_append]
    simp only [hresp, Option.some.injEq, exists_eq_left', true_and]
    rw [byteCount_append, landed_cons, statusPiece_lands]
    cases statusLands b r with
    | false =>
      have hone : (1 : U32).toNat = 1 := rfl
      simp only [Bool.false_eq_true, if_false, hone]
      exact eq_comm
    | true =>
      simp only [if_true]
      have hcount : byteCount (statusPiece r byte :: landed b []) = 1 := rfl
      rw [hcount]
      cases hcomp : completes v.image b r with
      | true =>
        simp only [if_true, true_and]
        exact reportedLen_iff hsegs hcomp
      | false =>
        have hzero : (0 : U32).toNat = 0 := rfl
        simp only [Bool.false_eq_true, if_false, hzero, false_and, iff_false]
        omega

/-- A chain without a header is completed with length 1 although nothing was stored; a transfer
past the end of the disk with length 0 although its status was. -/
theorem usedLength_of_errors :
    ¬ ((zeroDisk 1 (by decide)).usedLength (requestBus [] 0) 0).toNat =
        byteCount ((zeroDisk 1 (by decide)).writtenPieces (requestBus [] 0) 0) ∧
    ¬ ((zeroDisk 1 (by decide)).usedLength (requestBus oneSegment 1) 0).toNat =
        byteCount ((zeroDisk 1 (by decide)).writtenPieces (requestBus oneSegment 1) 0) := by
  constructor
  · decide +kernel
  · decide +kernel

end VirtioBlkMmio
end Aarchvm.Virtio
