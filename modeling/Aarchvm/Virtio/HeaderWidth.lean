import Aarchvm.Virtio.Loopback
import Aarchvm.Virtio.Restore

/-!
# The width of the network header

The device takes a transmitted chain apart and puts a header in front of a received frame with a
width it keeps between the two. The width follows the features, and where they leave it at ten
bytes a chain that looks like one with twelve makes it twelve from then on.
-/
namespace Aarchvm.Virtio

open Lib.Run VirtioNetMmio

/-- What decides the next width: `driver_features_` and `guest_header_size_`. -/
structure Header where
  driverFeatures : U64
  guestHeaderSize : Nat
  deriving DecidableEq

def VirtioNetMmio.header (v : VirtioNetMmio) : Header := ⟨v.driverFeatures, v.guestHeaderSize⟩

/-- A frame passing the device, with the bytes on both sides of it. -/
inductive Crossing where
  /-- a chain of the transmit ring, and the frame handed on -/
  | sent (segments : List TransferSegment) (chainBytes frame : List U8)
  /-- a frame, and what is put into a chain of the receive ring -/
  | received (frame data : List U8)
  deriving DecidableEq

/-- Twelve zero bytes and what may be a frame, with the first buffer holding the header. -/
def LooksMerged (segments : List TransferSegment) (chainBytes : List U8) : Prop :=
  segments.head?.any (fun seg => decide (12 ≤ seg.len.toNat)) ∧
    (chainBytes.take 12).all (· == 0) ∧ looksLikeEthernetFrame (chainBytes.drop 12)

instance (segments : List TransferSegment) (chainBytes : List U8) :
    Decidable (LooksMerged segments chainBytes) := inferInstanceAs (Decidable (_ ∧ _ ∧ _))

namespace Header

/-- Twelve bytes are negotiated, or were found before. -/
def Wide (h : Header) : Prop :=
  h.guestHeaderSize = 12 ∨ (h.driverFeatures &&& kFeatureMrgRxbuf != 0) = true

instance (h : Header) : Decidable h.Wide := inferInstanceAs (Decidable (_ ∨ _))

def txWidth (h : Header) (segments : List TransferSegment) (chainBytes : List U8) : Nat :=
  if 12 ≤ chainBytes.length ∧ (h.Wide ∨ LooksMerged segments chainBytes) then 12 else 10

def rxWidth (h : Header) : Nat :=
  max (if h.driverFeatures &&& kFeatureMrgRxbuf != 0 then 12 else 10) h.guestHeaderSize

/-- The width of a transmitted chain is kept, and twelve bytes count as negotiated. -/
def learn (h : Header) (width : Nat) : Header :=
  ⟨if width = 12 then h.driverFeatures ||| kFeatureMrgRxbuf else h.driverFeatures, width⟩

def after (h : Header) : Crossing → Header
  | .sent segments chainBytes _ => h.learn (h.txWidth segments chainBytes)
  | .received _ _ => h

/-- The frame goes without the header, and arrives with one. -/
def Allows (h : Header) : Crossing → Prop
  | .sent segments chainBytes frame =>
    chainBytes.length = chainLength segments ∧
      frame = chainBytes.drop (h.txWidth segments chainBytes)
  | .received frame data => data = payload h.rxWidth frame

end Header

theorem VirtioNetMmio.netHeaderSize_eq_iff (v : VirtioNetMmio) :
    v.netHeaderSize = kVirtioNetMrgRxbufHdrSize ↔
      (v.driverFeatures &&& kFeatureMrgRxbuf != 0) = true := by
  rw [netHeaderSize]
  split
  · next h => exact iff_of_true rfl h
  · next h => exact iff_of_false (by decide) h

theorem VirtioNetMmio.detectTxHeaderSize_eq (v : VirtioNetMmio) (segments : List TransferSegment)
    (chainBytes : List U8) :
    v.detectTxHeaderSize segments chainBytes = v.header.txWidth segments chainBytes := by
  have hwide : v.header.Wide ↔ v.guestHeaderSize = kVirtioNetMrgRxbufHdrSize ∨
      v.netHeaderSize = kVirtioNetMrgRxbufHdrSize := or_congr_right (v.netHeaderSize_eq_iff).symm
  rw [detectTxHeaderSize, Header.txWidth]
  by_cases hroom : kVirtioNetMrgRxbufHdrSize ≤ chainBytes.length
  · have hroom' : 12 ≤ chainBytes.length := hroom
    by_cases hguest : v.guestHeaderSize = kVirtioNetMrgRxbufHdrSize
    · rw [if_pos ⟨hguest, hroom⟩, if_pos ⟨hroom', .inl (hwide.2 (.inl hguest))⟩]
      rfl
    · rw [if_neg fun h => hguest h.1]
      by_cases hnet : v.netHeaderSize = kVirtioNetMrgRxbufHdrSize
      · rw [if_pos ⟨hnet, hroom⟩, if_pos ⟨hroom', .inl (hwide.2 (.inr hnet))⟩]
        rfl
      · rw [if_neg fun h => hnet h.1]
        by_cases hlooks : LooksMerged segments chainBytes
        · rw [if_pos ⟨hlooks.1, hroom, hlooks.2⟩, if_pos ⟨hroom', .inr hlooks⟩]
          rfl
        · rw [if_neg fun h => hlooks ⟨h.1, h.2.2⟩,
            if_neg fun h => h.2.elim (fun hw => (hwide.1 hw).elim hguest hnet) hlooks]
          rfl
  · rw [if_neg fun h => hroom h.2, if_neg fun h => hroom h.2, if_neg fun h => hroom h.2.1,
      if_neg fun h => hroom h.1]
    rfl

theorem gather_length {D : Type} {b : Bus D} {segments : List TransferSegment} {bytes : List U8}
    (h : gather b segments = some bytes) : bytes.length = chainLength segments := by
  induction segments generalizing bytes with
  | nil =>
    cases h
    rfl
  | cons seg segs ih =>
    rw [gather] at h
    split at h
    · next head rest hhead hrest =>
      cases h
      rw [List.length_append, VirtioBlkMmio.length_readGuest hhead, ih hrest,
        BitVec.toNat_setWidth_of_le (by decide)]
      exact List.sum_cons.symm
    · cases h

/-! ## What a call lets pass -/

section Logs

variable {D : Type}

/-- What one turn of `process_rx` puts into its chain. -/
def receiveLog (s : NetState D) (hdrSize : Nat) (frame : List U8) (headIndex : U16) :
    List Crossing :=
  match collectChain s.bus s.dev.rx s.dev.rx.num.toNat headIndex [] with
  | none => []
  | some segments =>
    if segments = [] ∨ segments.any (fun seg => !seg.writable) then []
    else
      let data := payload hdrSize frame
      if chainLength segments < data.length then [] else [.received frame data]

/-- The turns of `rxLoop`. -/
def rxLoopLog (hdrSize : Nat) (availIdx : U16) : Nat → NetState D → List Crossing
  | 0, _ => []
  | fuel + 1, s =>
    if s.dev.rx.lastAvailIdx = availIdx then []
    else
      match s.dev.pendingRxFrames with
      | [] => []
      | frame :: rest =>
        match readGuestU16 s.bus (ringAddr s.dev.rx) with
        | none => []
        | some headIndex =>
          receiveLog s hdrSize frame headIndex ++
            match receive s hdrSize frame rest headIndex with
            | (_, false) => []
            | (s', true) => rxLoopLog hdrSize availIdx fuel s'

def processRxLog (s : NetState D) : List Crossing :=
  let hdrSize := s.dev.activeHeaderSize
  if s.dev.pendingRxFrames = [] ∨ s.dev.rx.idle then []
  else
    match readGuestU16 s.bus (s.dev.rx.availAddr + 2) with
    | none => []
    | some availIdx => rxLoopLog hdrSize availIdx (2 ^ 16) s

def enqueueLog (s : NetState D) (frame : List U8) : List Crossing :=
  if !s.dev.present then []
  else
    let dev := { s.dev with pendingRxFrames := s.dev.pendingRxFrames ++ [frame] }
    processRxLog { s with dev := dev }

/-- The frames injected one after the other. -/
def injectLog : NetState D → List (List U8) → List Crossing
  | _, [] => []
  | s, frame :: frames => enqueueLog s frame ++ injectLog (enqueueRxFrame s frame).1 frames

def handOverLog (handler : TxFrameHandler) (s : NetState D) (frame : List U8) : List Crossing :=
  match handler with
  | none => []
  | some answer =>
    let s := { s with sent := s.sent ++ [frame] }
    injectLog s (answer s.sent)

/-- What one turn of `process_tx` takes from its chain, and what the host answers. -/
def transmitLog (handler : TxFrameHandler) (s : NetState D) (headIndex : U16) : List Crossing :=
  match collectChain s.bus s.dev.tx s.dev.tx.num.toNat headIndex [] with
  | none => []
  | some segments =>
    if segments = [] ∨ segments.any (·.writable) ∨ chainLength segments < kVirtioNetHdrSize then []
    else
      match gather s.bus segments with
      | none => []
      | some chainBytes =>
        let hdrSize := s.dev.detectTxHeaderSize segments chainBytes
        let frame := chainBytes.drop hdrSize
        .sent segments chainBytes frame ::
          if s.dev.loopbackEnabled then []
          else handOverLog handler { s with dev := s.dev.learn hdrSize } frame

/-- The turns of `txLoop`. -/
def txLoopLog (handler : TxFrameHandler) (availIdx : U16) : Nat → NetState D → List Crossing
  | 0, _ => []
  | fuel + 1, s =>
    if s.dev.tx.lastAvailIdx = availIdx then []
    else
      match readGuestU16 s.bus (ringAddr s.dev.tx) with
      | none => []
      | some headIndex =>
        transmitLog handler s headIndex ++
          match transmit handler s headIndex with
          | (_, false) => []
          | (s', true) => txLoopLog handler availIdx fuel s'

def processTxLog (handler : TxFrameHandler) (s : NetState D) : List Crossing :=
  if s.dev.tx.idle then []
  else
    match readGuestU16 s.bus (s.dev.tx.availAddr + 2) with
    | none => []
    | some availIdx => txLoopLog handler availIdx (2 ^ 16) s

def processQueueLog (handler : TxFrameHandler) (s : NetState D) (queueIndex : U32) :
    List Crossing :=
  if !s.dev.present then []
  else if queueIndex = 1 then
    processTxLog handler s ++
      let s := (processTx handler s).1
      if s.dev.pendingRxFrames = [] then [] else processRxLog s
  else if queueIndex = 0 then processRxLog s
  else []

/-! ## The width follows the crossings -/

/-- The crossings have the widths of the header at their time, and the header has become what they
make of it. -/
def Follows (s s' : NetState D) (log : List Crossing) : Prop :=
  Along Header.after Header.Allows s.dev.header log ∧
    s'.dev.header = run Header.after s.dev.header log

variable {s s' s'' : NetState D} {log log' : List Crossing}

theorem follows_nil (h : s'.dev.header = s.dev.header) : Follows s s' [] := ⟨trivial, h⟩

theorem Follows.append (h : Follows s s' log) (h' : Follows s' s'' log') :
    Follows s s'' (log ++ log') := by
  refine ⟨(along_append _ _ _).2 ⟨h.1, h.2 ▸ h'.1⟩, ?_⟩
  rw [run_append, ← h.2]
  exact h'.2

theorem Follows.congr (h : Follows s s' log) (hheader : s''.dev.header = s'.dev.header) :
    Follows s s'' log := ⟨h.1, hheader.trans h.2⟩

/-- A turn of `process_rx` keeps the header, whether it gets to its end or not. -/
theorem receive_header (s : NetState D) (hdrSize : Nat) (frame : List U8) (rest : List (List U8))
    (headIndex : U16) : (receive s hdrSize frame rest headIndex).1.dev.header = s.dev.header := by
  rw [receive]
  split
  · rfl
  · split
    · rfl
    · dsimp only
      split
      · rfl
      · split
        · rfl
        · split
          · rfl
          · split <;> rfl

theorem receiveLog_allowed (s : NetState D) (frame : List U8) (headIndex : U16) :
    Along Header.after Header.Allows s.dev.header
        (receiveLog s s.dev.header.rxWidth frame headIndex) ∧
      run Header.after s.dev.header (receiveLog s s.dev.header.rxWidth frame headIndex) =
        s.dev.header := by
  rw [receiveLog]
  split
  · exact ⟨trivial, rfl⟩
  · split
    · exact ⟨trivial, rfl⟩
    · dsimp only
      split
      · exact ⟨trivial, rfl⟩
      · exact ⟨⟨rfl, trivial⟩, rfl⟩

theorem receive_follows (s : NetState D) (frame : List U8) (rest : List (List U8))
    (headIndex : U16) :
    Follows s (receive s s.dev.header.rxWidth frame rest headIndex).1
      (receiveLog s s.dev.header.rxWidth frame headIndex) := by
  obtain ⟨halong, hrun⟩ := receiveLog_allowed s frame headIndex
  exact ⟨halong, (receive_header s _ frame rest headIndex).trans hrun.symm⟩

theorem rxLoop_follows (availIdx : U16) (fuel : Nat) (s : NetState D) (any : Bool) :
    Follows s (rxLoop s.dev.header.rxWidth availIdx fuel s any).1
      (rxLoopLog s.dev.header.rxWidth availIdx fuel s) := by
  induction fuel generalizing s any with
  | zero => exact follows_nil rfl
  | succ fuel ih =>
    rw [rxLoop, rxLoopLog]
    by_cases hlast : s.dev.rx.lastAvailIdx = availIdx
    · rw [if_pos hlast, if_pos hlast]
      exact follows_nil rfl
    · rw [if_neg hlast, if_neg hlast]
      cases hpending : s.dev.pendingRxFrames with
      | nil => exact follows_nil rfl
      | cons frame rest =>
        cases hhead : readGuestU16 s.bus (ringAddr s.dev.rx) with
        | none => exact follows_nil rfl
        | some headIndex =>
          have hturn := receive_follows s frame rest headIndex
          have hheader := receive_header s s.dev.header.rxWidth frame rest headIndex
          dsimp only
          rcases hreceive : receive s s.dev.header.rxWidth frame rest headIndex with ⟨s', more⟩
          rw [hreceive] at hturn hheader
          cases more with
          | false => exact hturn.append (follows_nil rfl)
          | true =>
            have hrest := ih s' true
            rw [hheader] at hrest
            exact hturn.append hrest

theorem processRx_follows (s : NetState D) : Follows s (processRx s).1 (processRxLog s) := by
  rw [processRx, processRxLog]
  by_cases hidle : s.dev.pendingRxFrames = [] ∨ s.dev.rx.idle
  · rw [if_pos hidle, if_pos hidle]
    exact follows_nil rfl
  · rw [if_neg hidle, if_neg hidle]
    cases readGuestU16 s.bus (s.dev.rx.availAddr + 2) with
    | none => exact follows_nil rfl
    | some availIdx => exact rxLoop_follows availIdx _ s false

theorem enqueueRxFrame_follows (s : NetState D) (frame : List U8) :
    Follows s (enqueueRxFrame s frame).1 (enqueueLog s frame) := by
  rw [enqueueRxFrame, enqueueLog]
  by_cases hpresent : (!s.dev.present) = true
  · rw [if_pos hpresent, if_pos hpresent]
    exact follows_nil rfl
  · rw [if_neg hpresent, if_neg hpresent]
    have h := processRx_follows
      { s with dev := { s.dev with pendingRxFrames := s.dev.pendingRxFrames ++ [frame] } }
    dsimp only
    rcases hrx : processRx
      { s with dev := { s.dev with pendingRxFrames := s.dev.pendingRxFrames ++ [frame] } } with
      ⟨s', completed⟩
    rw [hrx] at h
    cases completed with
    | false => exact h
    | true => exact h

theorem inject_follows (frames : List (List U8)) (s : NetState D) :
    Follows s (frames.foldl (fun s frame => (enqueueRxFrame s frame).1) s)
      (injectLog s frames) := by
  induction frames generalizing s with
  | nil => exact follows_nil rfl
  | cons frame frames ih => exact (enqueueRxFrame_follows s frame).append (ih _)

theorem handOver_follows (handler : TxFrameHandler) (s : NetState D) (frame : List U8) :
    Follows s (handOver handler s frame) (handOverLog handler s frame) := by
  cases handler with
  | none => exact follows_nil rfl
  | some answer => exact inject_follows _ { s with sent := s.sent ++ [frame] }

/-- A chain taken apart: the frame is what stands behind the width, and the width is kept. -/
theorem learn_follows (s : NetState D) {segments : List TransferSegment} {chainBytes : List U8}
    (hgather : gather s.bus segments = some chainBytes) :
    Follows s { s with dev := s.dev.learn (s.dev.detectTxHeaderSize segments chainBytes) }
      [.sent segments chainBytes
        (chainBytes.drop (s.dev.detectTxHeaderSize segments chainBytes))] := by
  rw [s.dev.detectTxHeaderSize_eq segments chainBytes]
  exact ⟨⟨⟨gather_length hgather, rfl⟩, trivial⟩, rfl⟩

/-- The end of a turn of `process_tx`: the used ring is written and the indices move. -/
def completeTx (s : NetState D) (headIndex : U16) : NetState D × Bool :=
  match writeUsed s.bus s.dev.tx headIndex 0 with
  | (b, false) => ({ s with bus := b }, false)
  | (b, true) =>
    let tx := advance s.dev.tx
    let dev := { s.dev with tx := tx }
    match writeGuestU16 b (tx.usedAddr + 2) tx.usedIdx with
    | none => ({ s with dev := dev, bus := b }, false)
    | some b => ({ s with dev := dev, bus := b }, true)

theorem completeTx_header (s : NetState D) (headIndex : U16) :
    (completeTx s headIndex).1.dev.header = s.dev.header := by
  rw [completeTx]
  split
  · rfl
  · dsimp only
    split
    · rfl
    · rfl

theorem transmit_follows (handler : TxFrameHandler) (s : NetState D) (headIndex : U16) :
    Follows s (transmit handler s headIndex).1 (transmitLog handler s headIndex) := by
  rw [transmit, transmitLog]
  cases hchain : collectChain s.bus s.dev.tx s.dev.tx.num.toNat headIndex [] with
  | none => exact follows_nil rfl
  | some segments =>
    dsimp only
    by_cases hinvalid : segments = [] ∨ segments.any (·.writable) ∨
        chainLength segments < kVirtioNetHdrSize
    · rw [if_pos hinvalid, if_pos hinvalid]
      exact follows_nil rfl
    · rw [if_neg hinvalid, if_neg hinvalid]
      cases hgather : gather s.bus segments with
      | none => exact follows_nil rfl
      | some chainBytes =>
        have hlearn := learn_follows s hgather
        let hdrSize := s.dev.detectTxHeaderSize segments chainBytes
        let frame := chainBytes.drop hdrSize
        let s₁ : NetState D := { s with dev := s.dev.learn hdrSize }
        let s₂ : NetState D :=
          if s.dev.loopbackEnabled then
            { s₁ with
              dev := { s₁.dev with pendingRxFrames := s₁.dev.pendingRxFrames ++ [frame] } }
          else handOver handler s₁ frame
        have hframe : Follows s₁ s₂
            (if s.dev.loopbackEnabled then [] else handOverLog handler s₁ frame) := by
          by_cases hloop : s.dev.loopbackEnabled = true
          · simp only [s₂, if_pos hloop]
            exact follows_nil rfl
          · simp only [s₂, if_neg hloop]
            exact handOver_follows handler s₁ frame
        have htaken := hlearn.append hframe
        exact htaken.congr (completeTx_header s₂ headIndex)

theorem txLoop_follows (handler : TxFrameHandler) (availIdx : U16) (fuel : Nat) (s : NetState D)
    (any : Bool) :
    Follows s (txLoop handler availIdx fuel s any).1 (txLoopLog handler availIdx fuel s) := by
  induction fuel generalizing s any with
  | zero => exact follows_nil rfl
  | succ fuel ih =>
    rw [txLoop, txLoopLog]
    by_cases hlast : s.dev.tx.lastAvailIdx = availIdx
    · rw [if_pos hlast, if_pos hlast]
      exact follows_nil rfl
    · rw [if_neg hlast, if_neg hlast]
      cases hhead : readGuestU16 s.bus (ringAddr s.dev.tx) with
      | none => exact follows_nil rfl
      | some headIndex =>
        have hturn := transmit_follows handler s headIndex
        dsimp only
        rcases htransmit : transmit handler s headIndex with ⟨s', more⟩
        rw [htransmit] at hturn
        cases more with
        | false => exact hturn.append (follows_nil rfl)
        | true => exact hturn.append (ih s' true)

theorem processTx_follows (handler : TxFrameHandler) (s : NetState D) :
    Follows s (processTx handler s).1 (processTxLog handler s) := by
  rw [processTx, processTxLog]
  by_cases hidle : s.dev.tx.idle
  · rw [if_pos hidle, if_pos hidle]
    exact follows_nil rfl
  · rw [if_neg hidle, if_neg hidle]
    cases readGuestU16 s.bus (s.dev.tx.availAddr + 2) with
    | none => exact follows_nil rfl
    | some availIdx => exact txLoop_follows handler availIdx _ s false

theorem raise_header (s : NetState D) : (raise s).dev.header = s.dev.header := rfl

/-- `process_queue` raises the interrupt or not, after its loops. -/
theorem Follows.interrupt {completed : Bool} (h : Follows s s' log) :
    Follows s (if completed then raise s' else s') log := by
  cases completed with
  | false => exact h
  | true => exact h.congr (raise_header s')

theorem processQueue_follows (handler : TxFrameHandler) (s : NetState D) (queueIndex : U32) :
    Follows s (processQueue handler s queueIndex) (processQueueLog handler s queueIndex) := by
  rw [processQueue, processQueueLog]
  by_cases hpresent : (!s.dev.present) = true
  · rw [if_pos hpresent, if_pos hpresent]
    exact follows_nil rfl
  rw [if_neg hpresent, if_neg hpresent]
  by_cases htx : queueIndex = 1
  · rw [if_pos htx, if_pos htx]
    have hsent := processTx_follows handler s
    rcases hcall : processTx handler s with ⟨s', completed⟩
    rw [hcall] at hsent
    dsimp only
    by_cases hnone : s'.dev.pendingRxFrames = []
    · rw [if_pos hnone, if_pos hnone, List.append_nil]
      exact hsent.interrupt
    · rw [if_neg hnone, if_neg hnone]
      exact (hsent.append (processRx_follows s')).interrupt
  rw [if_neg htx, if_neg htx]
  by_cases hrx : queueIndex = 0
  · rw [if_pos hrx, if_pos hrx]
    exact (processRx_follows s).interrupt
  · rw [if_neg hrx, if_neg hrx]
    exact follows_nil rfl

/-! ## Where the frames go -/

/-- The transmitted frames of a log. -/
def sentFrames (log : List Crossing) : List (List U8) :=
  log.filterMap fun
    | .sent _ _ frame => some frame
    | .received _ _ => none

/-- And the received ones. -/
def receivedFrames (log : List Crossing) : List (List U8) :=
  log.filterMap fun
    | .sent _ _ _ => none
    | .received frame _ => some frame

/-- The frames handed on: in a loopback to the receive side, else to the host. -/
def handed (s : NetState D) : List (List U8) :=
  if s.dev.loopbackEnabled then s.dev.pendingRxFrames else s.sent

/-- The receive side changes neither what the host was handed nor the setting of the loopback. -/
structure SameHost (s s' : NetState D) : Prop where
  sent : s'.sent = s.sent
  loopback : s'.dev.loopbackEnabled = s.dev.loopbackEnabled

theorem SameHost.refl (s : NetState D) : SameHost s s := ⟨rfl, rfl⟩

theorem SameHost.trans {s s' s'' : NetState D} (h : SameHost s s') (h' : SameHost s' s'') :
    SameHost s s'' :=
  ⟨h'.sent.trans h.sent, h'.loopback.trans h.loopback⟩

theorem receive_sameHost (s : NetState D) (hdrSize : Nat) (frame : List U8)
    (rest : List (List U8)) (headIndex : U16) :
    SameHost s (receive s hdrSize frame rest headIndex).1 := by
  rw [receive]
  split
  · exact .refl s
  · split
    · exact .refl s
    · dsimp only
      split
      · exact .refl s
      · split
        · exact ⟨rfl, rfl⟩
        · split
          · exact ⟨rfl, rfl⟩
          · split <;> exact ⟨rfl, rfl⟩

theorem rxLoop_sameHost (hdrSize : Nat) (availIdx : U16) (fuel : Nat) (s : NetState D)
    (any : Bool) : SameHost s (rxLoop hdrSize availIdx fuel s any).1 := by
  induction fuel generalizing s any with
  | zero => exact .refl s
  | succ fuel ih =>
    rw [rxLoop]
    split
    · exact .refl s
    · split
      · exact .refl s
      · next frame rest _ =>
        split
        · exact .refl s
        · next headIndex _ =>
          have hturn := receive_sameHost s hdrSize frame rest headIndex
          split
          · next s' hreceive =>
            rw [hreceive] at hturn
            exact hturn
          · next s' hreceive =>
            rw [hreceive] at hturn
            exact hturn.trans (ih s' true)

theorem processRx_sameHost (s : NetState D) : SameHost s (processRx s).1 := by
  rw [processRx]
  split
  · exact .refl s
  · split
    · exact .refl s
    · exact rxLoop_sameHost ..

theorem enqueueRxFrame_sameHost (s : NetState D) (frame : List U8) :
    SameHost s (enqueueRxFrame s frame).1 := by
  rw [enqueueRxFrame]
  split
  · exact .refl s
  · have hrx := processRx_sameHost
      { s with dev := { s.dev with pendingRxFrames := s.dev.pendingRxFrames ++ [frame] } }
    dsimp only
    split
    · next s' hcall =>
      rw [hcall] at hrx
      exact ⟨hrx.sent, hrx.loopback⟩
    · next s' hcall =>
      rw [hcall] at hrx
      exact ⟨hrx.sent, hrx.loopback⟩

theorem inject_sameHost (frames : List (List U8)) (s : NetState D) :
    SameHost s (frames.foldl (fun s frame => (enqueueRxFrame s frame).1) s) := by
  induction frames generalizing s with
  | nil => exact .refl s
  | cons frame frames ih => exact (enqueueRxFrame_sameHost s frame).trans (ih _)

theorem sentFrames_receiveLog (s : NetState D) (hdrSize : Nat) (frame : List U8)
    (headIndex : U16) : sentFrames (receiveLog s hdrSize frame headIndex) = [] := by
  unfold receiveLog
  split
  · rfl
  · split
    · rfl
    · dsimp only
      split <;> rfl

theorem sentFrames_rxLoopLog (hdrSize : Nat) (availIdx : U16) (fuel : Nat) (s : NetState D) :
    sentFrames (rxLoopLog hdrSize availIdx fuel s) = [] := by
  induction fuel generalizing s with
  | zero => rfl
  | succ fuel ih =>
    rw [rxLoopLog]
    split
    · rfl
    · split
      · rfl
      · split
        · rfl
        · rw [sentFrames, List.filterMap_append]
          refine List.append_eq_nil_iff.2 ⟨sentFrames_receiveLog .., ?_⟩
          split
          · rfl
          · exact ih _

/-- And it lets no transmitted frame pass. -/
theorem sentFrames_processRxLog (s : NetState D) : sentFrames (processRxLog s) = [] := by
  unfold processRxLog
  dsimp only
  split
  · rfl
  · split
    · rfl
    · exact sentFrames_rxLoopLog ..

theorem sentFrames_injectLog (frames : List (List U8)) (s : NetState D) :
    sentFrames (injectLog s frames) = [] := by
  induction frames generalizing s with
  | nil => rfl
  | cons frame frames ih =>
    rw [injectLog, sentFrames, List.filterMap_append]
    refine List.append_eq_nil_iff.2 ⟨?_, ih _⟩
    unfold enqueueLog
    split
    · rfl
    · exact sentFrames_processRxLog _

/-- The frames that the log sent are handed on, where there is somebody to hand them to. -/
def Hands (handler : TxFrameHandler) (s s' : NetState D) (log : List Crossing) : Prop :=
  s'.dev.loopbackEnabled = s.dev.loopbackEnabled ∧
    (s.dev.loopbackEnabled = true ∨ handler.isSome = true →
      handed s' = handed s ++ sentFrames log)

theorem hands_nil {handler : TxFrameHandler} (s : NetState D) : Hands handler s s [] :=
  ⟨rfl, fun _ => (List.append_nil _).symm⟩

theorem Hands.append {handler : TxFrameHandler} {s s' s'' : NetState D} {log log' : List Crossing}
    (h : Hands handler s s' log) (h' : Hands handler s' s'' log') :
    Hands handler s s'' (log ++ log') := by
  refine ⟨h'.1.trans h.1, fun hto => ?_⟩
  rw [h'.2 (by rwa [h.1]), h.2 hto, sentFrames, sentFrames, sentFrames, List.filterMap_append,
    List.append_assoc]

theorem completeTx_handed (s : NetState D) (headIndex : U16) :
    (completeTx s headIndex).1.dev.loopbackEnabled = s.dev.loopbackEnabled ∧
      handed (completeTx s headIndex).1 = handed s := by
  rw [completeTx]
  split
  · exact ⟨rfl, rfl⟩
  · dsimp only
    split <;> exact ⟨rfl, rfl⟩

/-- The host has the frame behind those it had, and what it injects in answer is not sent. -/
theorem handOver_hands (answer : List (List U8) → List (List U8)) {s : NetState D}
    (hloop : ¬ s.dev.loopbackEnabled = true) (segments : List TransferSegment)
    (chainBytes frame : List U8) :
    Hands (some answer) s (handOver (some answer) s frame)
      (.sent segments chainBytes frame :: handOverLog (some answer) s frame) := by
  have hhost := inject_sameHost (answer (s.sent ++ [frame])) { s with sent := s.sent ++ [frame] }
  have hoff : ¬ (handOver (some answer) s frame).dev.loopbackEnabled = true :=
    fun hon => hloop (hhost.loopback.symm.trans hon)
  have hnone := sentFrames_injectLog (answer (s.sent ++ [frame]))
    { s with sent := s.sent ++ [frame] }
  refine ⟨hhost.loopback, fun _ => ?_⟩
  rw [handed, if_neg hoff, handed, if_neg hloop]
  exact hhost.sent.trans (congrArg (fun rest => s.sent ++ frame :: rest) hnone.symm)

theorem transmit_hands (handler : TxFrameHandler) (s : NetState D) (headIndex : U16) :
    Hands handler s (transmit handler s headIndex).1 (transmitLog handler s headIndex) := by
  rw [transmit, transmitLog]
  cases collectChain s.bus s.dev.tx s.dev.tx.num.toNat headIndex [] with
  | none => exact hands_nil s
  | some segments =>
    dsimp only
    by_cases hinvalid : segments = [] ∨ segments.any (·.writable) ∨
        chainLength segments < kVirtioNetHdrSize
    · rw [if_pos hinvalid, if_pos hinvalid]
      exact hands_nil s
    · rw [if_neg hinvalid, if_neg hinvalid]
      cases gather s.bus segments with
      | none => exact hands_nil s
      | some chainBytes =>
        let hdrSize := s.dev.detectTxHeaderSize segments chainBytes
        let frame := chainBytes.drop hdrSize
        let s₁ : NetState D := { s with dev := s.dev.learn hdrSize }
        let s₂ : NetState D :=
          if s.dev.loopbackEnabled then
            { s₁ with
              dev := { s₁.dev with pendingRxFrames := s₁.dev.pendingRxFrames ++ [frame] } }
          else handOver handler s₁ frame
        have hframe : Hands handler s s₂ (.sent segments chainBytes frame ::
            if s.dev.loopbackEnabled then [] else handOverLog handler s₁ frame) := by
          by_cases hloop : s.dev.loopbackEnabled = true
          · simp only [s₂, if_pos hloop]
            refine ⟨rfl, fun _ => ?_⟩
            have hafter : (s₁.dev.loopbackEnabled) = true := hloop
            simp only [handed, hloop, hafter, if_true]
            rfl
          · simp only [s₂, if_neg hloop]
            cases handler with
            | none =>
              exact ⟨rfl, fun hto => absurd hto (by simp [hloop])⟩
            | some answer => exact handOver_hands answer (s := s₁) hloop segments chainBytes frame
        obtain ⟨hsame, hkept⟩ := completeTx_handed s₂ headIndex
        exact ⟨hsame.trans hframe.1, fun hto => hkept.trans (hframe.2 hto)⟩

theorem txLoop_hands (handler : TxFrameHandler) (availIdx : U16) (fuel : Nat) (s : NetState D)
    (any : Bool) :
    Hands handler s (txLoop handler availIdx fuel s any).1 (txLoopLog handler availIdx fuel s) := by
  induction fuel generalizing s any with
  | zero => exact hands_nil s
  | succ fuel ih =>
    rw [txLoop, txLoopLog]
    by_cases hlast : s.dev.tx.lastAvailIdx = availIdx
    · rw [if_pos hlast, if_pos hlast]
      exact hands_nil s
    · rw [if_neg hlast, if_neg hlast]
      cases readGuestU16 s.bus (ringAddr s.dev.tx) with
      | none => exact hands_nil s
      | some headIndex =>
        have hturn := transmit_hands handler s headIndex
        dsimp only
        rcases htransmit : transmit handler s headIndex with ⟨s', more⟩
        rw [htransmit] at hturn
        cases more with
        | false => exact hturn.append (hands_nil s')
        | true => exact hturn.append (ih s' true)

/-- The transmitted frames of a call of `process_tx` are those it hands on: in a loopback they are
pending behind the ones before, else the host has them. -/
theorem processTx_hands (handler : TxFrameHandler) (s : NetState D) :
    Hands handler s (processTx handler s).1 (processTxLog handler s) := by
  rw [processTx, processTxLog]
  by_cases hidle : s.dev.tx.idle
  · rw [if_pos hidle, if_pos hidle]
    exact hands_nil s
  · rw [if_neg hidle, if_neg hidle]
    cases readGuestU16 s.bus (s.dev.tx.availAddr + 2) with
    | none => exact hands_nil s
    | some availIdx => exact txLoop_hands handler availIdx _ s false

/-- The receive side takes pending frames from the front, and the frames of the log are these and at
most one more, which was being put into its chain when the call broke off. -/
def Takes (s s' : NetState D) (log : List Crossing) : Prop :=
  ∃ k, s'.dev.pendingRxFrames = s.dev.pendingRxFrames.drop k ∧
    (receivedFrames log = s.dev.pendingRxFrames.take k ∨
      receivedFrames log = s.dev.pendingRxFrames.take (k + 1))

theorem takes_nil (s : NetState D) : Takes s s [] := ⟨0, rfl, .inl rfl⟩

/-- A turn that goes on has taken its frame; one that does not may have. -/
theorem receive_takes {s : NetState D} (hdrSize : Nat) {frame : List U8} {rest : List (List U8)}
    (hpending : s.dev.pendingRxFrames = frame :: rest) (headIndex : U16) :
    Takes s (receive s hdrSize frame rest headIndex).1 (receiveLog s hdrSize frame headIndex) ∧
      ((receive s hdrSize frame rest headIndex).2 = true →
        (receive s hdrSize frame rest headIndex).1.dev.pendingRxFrames = rest ∧
          receivedFrames (receiveLog s hdrSize frame headIndex) = [frame]) := by
  have hkept : ∀ s' : NetState D, s'.dev.pendingRxFrames = frame :: rest → ∀ data,
      Takes s s' [.received frame data] := by
    intro s' hsame data
    exact ⟨0, by rw [hsame, hpending]; rfl, .inr (by rw [hpending]; rfl)⟩
  have htaken : ∀ s' : NetState D, s'.dev.pendingRxFrames = rest → ∀ data,
      Takes s s' [.received frame data] := by
    intro s' hrest data
    exact ⟨1, by rw [hrest, hpending]; rfl, .inl (by rw [hpending]; rfl)⟩
  rw [receive, receiveLog]
  cases collectChain s.bus s.dev.rx s.dev.rx.num.toNat headIndex [] with
  | none => exact ⟨takes_nil s, fun h => absurd h Bool.false_ne_true⟩
  | some segments =>
    dsimp only
    by_cases hinvalid : segments = [] ∨ segments.any (fun seg => !seg.writable)
    · rw [if_pos hinvalid, if_pos hinvalid]
      exact ⟨takes_nil s, fun h => absurd h Bool.false_ne_true⟩
    rw [if_neg hinvalid, if_neg hinvalid]
    by_cases hshort : chainLength segments < (payload hdrSize frame).length
    · rw [if_pos hshort, if_pos hshort]
      exact ⟨takes_nil s, fun h => absurd h Bool.false_ne_true⟩
    rw [if_neg hshort, if_neg hshort]
    split
    · exact ⟨hkept _ hpending _, fun h => absurd h Bool.false_ne_true⟩
    · split
      · exact ⟨hkept _ hpending _, fun h => absurd h Bool.false_ne_true⟩
      · split
        · exact ⟨htaken _ rfl _, fun h => absurd h Bool.false_ne_true⟩
        · exact ⟨htaken _ rfl _, fun _ => ⟨rfl, rfl⟩⟩

theorem rxLoop_takes (hdrSize : Nat) (availIdx : U16) (fuel : Nat) (s : NetState D) (any : Bool) :
    Takes s (rxLoop hdrSize availIdx fuel s any).1 (rxLoopLog hdrSize availIdx fuel s) := by
  induction fuel generalizing s any with
  | zero => exact takes_nil s
  | succ fuel ih =>
    rw [rxLoop, rxLoopLog]
    by_cases hlast : s.dev.rx.lastAvailIdx = availIdx
    · rw [if_pos hlast, if_pos hlast]
      exact takes_nil s
    · rw [if_neg hlast, if_neg hlast]
      cases hpending : s.dev.pendingRxFrames with
      | nil => exact takes_nil s
      | cons frame rest =>
        cases readGuestU16 s.bus (ringAddr s.dev.rx) with
        | none => exact takes_nil s
        | some headIndex =>
          obtain ⟨hturn, hon⟩ := receive_takes hdrSize hpending headIndex
          dsimp only
          rcases hreceive : receive s hdrSize frame rest headIndex with ⟨s', more⟩
          rw [hreceive] at hturn hon
          cases more with
          | false =>
            rw [List.append_nil]
            exact hturn
          | true =>
            -- the frame is gone, and the rest of the loop takes from those behind it
            obtain ⟨hrest, hframe⟩ := hon rfl
            obtain ⟨k, hdrop, htake⟩ := ih s' true
            dsimp only at hrest
            rw [hrest] at hdrop htake
            have hlog : ∀ log, receivedFrames (receiveLog s hdrSize frame headIndex ++ log) =
                frame :: receivedFrames log := by
              intro log
              rw [receivedFrames, List.filterMap_append]
              exact congrArg (· ++ receivedFrames log) hframe
            refine ⟨k + 1, ?_, ?_⟩
            · rw [hpending]
              exact hdrop
            · rw [hpending, hlog]
              exact htake.imp (congrArg (frame :: ·)) (congrArg (frame :: ·))

/-- The received frames of a call of `process_rx` are those it takes from the pending ones. -/
theorem processRx_takes (s : NetState D) : Takes s (processRx s).1 (processRxLog s) := by
  rw [processRx, processRxLog]
  by_cases hidle : s.dev.pendingRxFrames = [] ∨ s.dev.rx.idle
  · rw [if_pos hidle, if_pos hidle]
    exact takes_nil s
  · rw [if_neg hidle, if_neg hidle]
    cases readGuestU16 s.bus (s.dev.rx.availAddr + 2) with
    | none => exact takes_nil s
    | some availIdx => exact rxLoop_takes _ availIdx _ s false

/-! ## Runs -/

/-- What passes in a run, and what the driver writes that the width depends on. -/
inductive NetEvent where
  | crossing (c : Crossing)
  | features (selector : U32) (value : U64)
  | reset
  deriving DecidableEq

def Header.next (h : Header) : NetEvent → Header
  | .crossing c => h.after c
  | .features selector value =>
    { h with driverFeatures := mergeFeatures h.driverFeatures selector value }
  | .reset => ⟨0, kVirtioNetHdrSize⟩

def Header.Admits (h : Header) : NetEvent → Prop
  | .crossing c => h.Allows c
  | _ => True

def registerLog (v : VirtioNetMmio) (offset value size : U64) : List NetEvent :=
  if accessMatches offset size kRegDriverFeatures then [.features v.driverFeaturesSel value]
  else if accessMatches offset size kRegStatus ∧ value.setWidth 32 = (0 : U32) then [.reset]
  else []

def notifyLog (handler : TxFrameHandler) (s : NetState D) (offset value size : U64) :
    List NetEvent :=
  if accessMatches offset size kRegQueueNotify then
    (processQueueLog handler s (value.setWidth 32)).map .crossing
  else []

def opLog (s : NetState D) : Op D → List NetEvent
  | .write handler offset value size =>
    match s.dev.writeRegister offset value size with
    | some _ => registerLog s.dev offset value size
    | none => notifyLog handler s offset value size
  | .enqueue frame => (enqueueLog s frame).map .crossing
  | .memory _ => []

def runLog : NetState D → List (Op D) → List NetEvent
  | _, [] => []
  | s, op :: ops => opLog s op ++ runLog (step s op) ops

/-- `Follows`, with what the driver writes. -/
def Records (s s' : NetState D) (log : List NetEvent) : Prop :=
  Along Header.next Header.Admits s.dev.header log ∧
    s'.dev.header = run Header.next s.dev.header log

theorem records_nil (h : s'.dev.header = s.dev.header) : Records s s' [] := ⟨trivial, h⟩

theorem along_crossings (h : Header) (log : List Crossing) :
    Along Header.next Header.Admits h (log.map .crossing) ↔
      Along Header.after Header.Allows h log := by
  induction log generalizing h with
  | nil => exact Iff.rfl
  | cons c log ih => exact and_congr_right fun _ => ih (h.after c)

theorem run_crossings (h : Header) (log : List Crossing) :
    run Header.next h (log.map .crossing) = run Header.after h log := List.foldl_map

theorem Follows.records (h : Follows s s' log) : Records s s' (log.map .crossing) :=
  ⟨(along_crossings _ _).2 h.1, h.2.trans (run_crossings _ _).symm⟩

theorem offset_eq_of_accessMatches {offset size reg : U64}
    (h : accessMatches offset size reg = true) : offset = reg := by
  rw [accessMatches, Bool.and_eq_true, beq_iff_eq] at h
  exact h.1

theorem registerLog_other (v : VirtioNetMmio) {offset : U64} (value size : U64)
    (hfeatures : offset ≠ kRegDriverFeatures) (hstatus : offset ≠ kRegStatus) :
    registerLog v offset value size = [] := by
  rw [registerLog, if_neg fun h => hfeatures (offset_eq_of_accessMatches h),
    if_neg fun h => hstatus (offset_eq_of_accessMatches h.1)]

theorem writeRegister_records {v v' : VirtioNetMmio} {offset value size : U64}
    (h : v.writeRegister offset value size = some v') (s : NetState D) :
    Records { s with dev := v } { s with dev := v' } (registerLog v offset value size) := by
  have hother : ∀ reg, reg ≠ kRegDriverFeatures → reg ≠ kRegStatus →
      accessMatches offset size reg = true → registerLog v offset value size = [] := by
    intro reg hfeatures hstatus hmatch
    obtain rfl := offset_eq_of_accessMatches hmatch
    exact registerLog_other v value size hfeatures hstatus
  unfold writeRegister at h
  split_ifs at h with hconfig hdeviceSel hdriverSel hfeatures hpage hack hstatus hzero
  all_goals obtain rfl := Option.some.inj h
  · rw [registerLog_other v value size]
    · exact records_nil rfl
    · rintro rfl
      exact absurd hconfig.1 (by decide)
    · rintro rfl
      exact absurd hconfig.1 (by decide)
  · rw [hother kRegDeviceFeaturesSel (by decide) (by decide) hdeviceSel]
    exact records_nil rfl
  · rw [hother kRegDriverFeaturesSel (by decide) (by decide) hdriverSel]
    exact records_nil rfl
  · rw [registerLog, if_pos hfeatures]
    exact ⟨⟨trivial, trivial⟩, rfl⟩
  · rw [hother kRegGuestPageSize (by decide) (by decide) hpage]
    exact records_nil rfl
  · rw [hother kRegInterruptAck (by decide) (by decide) hack]
    exact records_nil rfl
  · rw [registerLog, if_neg hfeatures, if_pos ⟨hstatus, hzero⟩]
    exact ⟨⟨trivial, trivial⟩, rfl⟩
  · rw [registerLog, if_neg hfeatures, if_neg fun h => hzero h.2]
    exact records_nil rfl

theorem setSelected_header (v : VirtioNetMmio) (f : QueueState → QueueState) :
    (v.setSelected f).header = v.header := by
  unfold setSelected
  split_ifs <;> rfl

theorem writeQueueRegister_records (handler : TxFrameHandler) (s : NetState D)
    (offset value size : U64) :
    Records s (writeQueueRegister handler s offset value size)
      (notifyLog handler s offset value size) := by
  rw [writeQueueRegister, notifyLog]
  by_cases hnotify : accessMatches offset size kRegQueueNotify = true
  · have hreg : queueWriteRegs.any (accessMatches offset size) = true :=
      List.any_eq_true.2 ⟨_, List.mem_cons_self, hnotify⟩
    have hoffset := offset_eq_of_accessMatches hnotify
    have hsel : ¬ offset = kRegQueueSel := by
      rw [hoffset]
      decide
    rw [if_neg (not_not_intro hreg), if_neg hsel, if_pos hoffset, if_pos hnotify]
    exact (processQueue_follows handler s _).records
  · rw [if_neg hnotify]
    by_cases hreg : queueWriteRegs.any (accessMatches offset size) = true
    · have hoffset : ¬ offset = kRegQueueNotify := by
        rintro rfl
        obtain ⟨reg, -, hmatch⟩ := List.any_eq_true.1 hreg
        exact hnotify (by rwa [← offset_eq_of_accessMatches hmatch] at hmatch)
      rw [if_neg (not_not_intro hreg)]
      by_cases hsel : offset = kRegQueueSel
      · rw [if_pos hsel]
        exact records_nil rfl
      · rw [if_neg hsel, if_neg hoffset]
        exact records_nil (setSelected_header _ _)
    · rw [if_pos hreg]
      exact records_nil rfl

theorem step_records (s : NetState D) (op : Op D) : Records s (step s op) (opLog s op) := by
  cases op with
  | write handler offset value size =>
    rw [step, opLog, write]
    cases hreg : s.dev.writeRegister offset value size with
    | some v => exact writeRegister_records hreg s
    | none => exact writeQueueRegister_records handler s offset value size
  | enqueue frame => exact (enqueueRxFrame_follows s frame).records
  | memory b => exact records_nil rfl

/-- A run, by induction on its operations. -/
theorem run_records (s : NetState D) (ops : List (Op D)) :
    Records s (run step s ops) (runLog s ops) := by
  induction ops generalizing s with
  | nil => exact records_nil rfl
  | cons op ops ih =>
    have hstep := step_records s op
    have hrest := ih (step s op)
    refine ⟨(along_append _ _ _).2 ⟨hstep.1, hstep.2 ▸ hrest.1⟩, ?_⟩
    rw [runLog, run_append, ← hstep.2]
    exact hrest.2

end Logs

/-! ## Two runs -/

/-- Everything but the frames a run delivers. -/
def NetEvent.fromDriver : NetEvent → Bool
  | .crossing (.received _ _) => false
  | _ => true

def driverEvents (log : List NetEvent) : List NetEvent := log.filter (·.fromDriver)

theorem driverEvents_append (log log' : List NetEvent) :
    driverEvents (log ++ log') = driverEvents log ++ driverEvents log' := List.filter_append ..

/-- The same registers written with the same values, or chains with buffers of the same lengths. -/
def SameShape : NetEvent → NetEvent → Prop
  | .crossing (.sent segments _ _), .crossing (.sent segments' _ _) =>
    segments.map (·.len) = segments'.map (·.len)
  | .features selector value, .features selector' value' => selector = selector' ∧ value = value'
  | .reset, .reset => True
  | _, _ => False

/-- While the width is still open, the bytes of both chains look like twelve or neither does. -/
def Header.SameGuess (h : Header) : NetEvent → NetEvent → Prop
  | .crossing (.sent segments chainBytes _), .crossing (.sent segments' chainBytes' _) =>
    ¬ h.Wide → 12 ≤ chainBytes.length →
      (LooksMerged segments chainBytes ↔ LooksMerged segments' chainBytes')
  | _, _ => True

def SameGuesses (h : Header) (log log' : List NetEvent) : Prop :=
  Along (fun h (p : NetEvent × NetEvent) => h.next p.1) (fun h p => h.SameGuess p.1 p.2) h
    ((driverEvents log).zip (driverEvents log'))

namespace Crossing

def isSent : Crossing → Bool
  | .sent _ _ _ => true
  | .received _ _ => false

/-- The bytes stripped from a chain, or put in front of a frame. -/
def width : Crossing → Nat
  | .sent _ chainBytes frame => chainBytes.length - frame.length
  | .received frame data => data.length - frame.length

end Crossing

/-- Frames that pass after equally many events of the driver, in the same direction, pass with the
same width. -/
def SameWidths (log log' : List NetEvent) : Prop :=
  ∀ before c after before' c' after', log = before ++ .crossing c :: after →
    log' = before' ++ .crossing c' :: after' →
    (driverEvents before).length = (driverEvents before').length → c.isSent = c'.isSent →
      c.width = c'.width

theorem chainLength_congr {segments segments' : List TransferSegment}
    (h : segments.map (·.len) = segments'.map (·.len)) :
    chainLength segments = chainLength segments' := by
  have hlen (segments : List TransferSegment) :
      chainLength segments = ((segments.map (·.len)).map BitVec.toNat).sum := by
    rw [List.map_map]
    rfl
  rw [hlen, hlen, h]

/-- The width detected for chains of one shape. -/
theorem Header.txWidth_congr {h : Header} {segments segments' : List TransferSegment}
    {chainBytes chainBytes' frame frame' : List U8}
    (hallowed : h.Allows (.sent segments chainBytes frame))
    (hallowed' : h.Allows (.sent segments' chainBytes' frame'))
    (hshape : segments.map (·.len) = segments'.map (·.len))
    (hguess : h.SameGuess (.crossing (.sent segments chainBytes frame))
      (.crossing (.sent segments' chainBytes' frame'))) :
    chainBytes.length = chainBytes'.length ∧
      h.txWidth segments chainBytes = h.txWidth segments' chainBytes' := by
  have hlength : chainBytes.length = chainBytes'.length := by
    rw [hallowed.1, hallowed'.1, chainLength_congr hshape]
  refine ⟨hlength, ?_⟩
  rw [txWidth, txWidth, ← hlength]
  refine if_congr (and_congr_right fun hroom => ?_) rfl rfl
  by_cases hwide : h.Wide
  · exact iff_of_true (.inl hwide) (.inl hwide)
  · exact or_congr_right (hguess hwide hroom)

/-- Events of one shape leave one width. -/
theorem Header.next_congr {h : Header} {e e' : NetEvent} (hallowed : h.Admits e)
    (hallowed' : h.Admits e') (hshape : SameShape e e') (hguess : h.SameGuess e e') :
    h.next e = h.next e' := by
  cases e with
  | crossing c =>
    cases e' with
    | crossing c' =>
      cases c with
      | sent segments chainBytes frame =>
        cases c' with
        | sent segments' chainBytes' frame' =>
          exact congrArg h.learn (txWidth_congr hallowed hallowed' hshape hguess).2
        | received frame' data' => exact hshape.elim
      | received frame data => exact hshape.elim
    | features selector' value' => cases c <;> exact hshape.elim
    | reset => cases c <;> exact hshape.elim
  | features selector value =>
    cases e' with
    | crossing c' => exact hshape.elim
    | features selector' value' =>
      obtain ⟨rfl, rfl⟩ := hshape
      rfl
    | reset => exact hshape.elim
  | reset =>
    cases e' with
    | crossing c' => exact hshape.elim
    | features selector' value' => exact hshape.elim
    | reset => rfl

/-- The header is what the driver's events make of it. -/
theorem along_driverEvents {h : Header} {log : List NetEvent}
    (halong : Along Header.next Header.Admits h log) :
    Along Header.next Header.Admits h (driverEvents log) ∧
      run Header.next h log = run Header.next h (driverEvents log) := by
  induction log generalizing h with
  | nil => exact ⟨trivial, rfl⟩
  | cons e log ih =>
    obtain ⟨hallowed, hrest⟩ := halong
    obtain ⟨hdriver, hrun⟩ := ih hrest
    cases hfrom : e.fromDriver with
    | true =>
      rw [driverEvents, List.filter_cons_of_pos hfrom]
      exact ⟨⟨hallowed, hdriver⟩, hrun⟩
    | false =>
      have hkept : h.next e = h := by
        cases e with
        | crossing c =>
          cases c with
          | sent segments chainBytes frame => exact nomatch hfrom
          | received frame data => rfl
        | features selector value => exact nomatch hfrom
        | reset => exact nomatch hfrom
      rw [hkept] at hdriver hrun
      rw [driverEvents, List.filter_cons_of_neg (by rw [hfrom]; decide), run_cons, hkept]
      exact ⟨hdriver, hrun⟩

/-- Two drivers that do the same up to the payload come to the same width, by induction on what
they do. -/
theorem run_driver_congr {es es' : List NetEvent} (hshape : List.Forall₂ SameShape es es')
    {h : Header} (halong : Along Header.next Header.Admits h es)
    (halong' : Along Header.next Header.Admits h es')
    (hguess : Along (fun h (p : NetEvent × NetEvent) => h.next p.1)
      (fun h p => h.SameGuess p.1 p.2) h (es.zip es')) :
    run Header.next h es = run Header.next h es' := by
  induction hshape generalizing h with
  | nil => rfl
  | cons hhead _ ih =>
    have hnext := Header.next_congr halong.1 halong'.1 hhead hguess.1
    rw [run_cons, run_cons, ← hnext]
    exact ih halong.2 (hnext ▸ halong'.2) hguess.2

theorem forall₂_append_iff {α β : Type} {R : α → β → Prop} {as as₂ : List α} {bs bs₂ : List β}
    (hlength : as.length = bs.length) :
    List.Forall₂ R (as ++ as₂) (bs ++ bs₂) ↔ List.Forall₂ R as bs ∧ List.Forall₂ R as₂ bs₂ := by
  induction as generalizing bs with
  | nil =>
    obtain rfl := List.eq_nil_of_length_eq_zero hlength.symm
    exact (and_iff_right List.Forall₂.nil).symm
  | cons a as ih =>
    cases bs with
    | nil => exact nomatch hlength
    | cons b bs =>
      rw [List.cons_append, List.cons_append, List.forall₂_cons, List.forall₂_cons,
        ih (Nat.succ.inj hlength), and_assoc]

theorem run_zip {es es' : List NetEvent} (hlength : es.length = es'.length) (h : Header) :
    run (fun h (p : NetEvent × NetEvent) => h.next p.1) h (es.zip es') =
      run Header.next h es := by
  have hfst := List.map_fst_zip (Nat.le_of_eq hlength)
  calc run (fun h (p : NetEvent × NetEvent) => h.next p.1) h (es.zip es')
      = run Header.next h ((es.zip es').map Prod.fst) := List.foldl_map.symm
    _ = run Header.next h es := by rw [hfst]

theorem payload_length (hdrSize : Nat) (frame : List U8) :
    (payload hdrSize frame).length = hdrSize + frame.length := by
  rw [payload, List.length_append]
  split
  · rw [Lib.Bytes.length_overwrite, List.length_replicate]
  · rw [List.length_replicate]

theorem sameWidths_of_sameGuesses {h : Header} {log log' : List NetEvent}
    (halong : Along Header.next Header.Admits h log)
    (halong' : Along Header.next Header.Admits h log')
    (hdriver : List.Forall₂ SameShape (driverEvents log) (driverEvents log'))
    (hguess : SameGuesses h log log') : SameWidths log log' := by
  rintro before c after before' c' after' rfl rfl hcount hdirection
  obtain ⟨hbefore, hallowed, -⟩ := (along_append _ _ _).1 halong
  obtain ⟨hbefore', hallowed', -⟩ := (along_append _ _ _).1 halong'
  rw [driverEvents_append, driverEvents_append, forall₂_append_iff hcount] at hdriver
  rw [SameGuesses, driverEvents_append, driverEvents_append, List.zip_append hcount,
    along_append] at hguess
  obtain ⟨halike, hnext⟩ := hdriver
  obtain ⟨hguessed, hguess⟩ := hguess
  have hheader : run Header.next h before = run Header.next h before' := by
    rw [(along_driverEvents hbefore).2, (along_driverEvents hbefore').2]
    exact run_driver_congr halike (along_driverEvents hbefore).1 (along_driverEvents hbefore').1
      hguessed
  rw [← hheader] at hallowed'
  cases c with
  | received frame data =>
    cases c' with
    | sent segments' chainBytes' frame' => exact nomatch hdirection
    | received frame' data' =>
      rw [Crossing.width, Crossing.width, show data = _ from hallowed,
        show data' = _ from hallowed', payload_length, payload_length, Nat.add_sub_cancel_right,
        Nat.add_sub_cancel_right]
  | sent segments chainBytes frame =>
    cases c' with
    | received frame' data' => exact nomatch hdirection
    | sent segments' chainBytes' frame' =>
      have hshape : segments.map (·.len) = segments'.map (·.len) := (List.forall₂_cons.1 hnext).1
      have hguess := hguess.1
      rw [run_zip hcount, ← (along_driverEvents hbefore).2] at hguess
      obtain ⟨hlength, hwidth⟩ := Header.txWidth_congr hallowed hallowed' hshape hguess
      rw [Crossing.width, Crossing.width, hallowed.2, hallowed'.2, List.length_drop,
        List.length_drop, hlength, hwidth]

/-! ## The features -/

/-- Twelve bytes are taken from a chain. -/
def Crossing.Merged : Crossing → Prop
  | .sent _ chainBytes frame => 12 ≤ chainBytes.length ∧ frame = chainBytes.drop 12
  | .received _ _ => False

/-- The features after a call of `process_tx`: the merged-buffers bit may come in. -/
theorem features_of_follows {h : Header} {log : List Crossing}
    (halong : Along Header.after Header.Allows h log) :
    (run Header.after h log).driverFeatures = h.driverFeatures ∨
      (∃ c ∈ log, c.Merged) ∧
        (run Header.after h log).driverFeatures = h.driverFeatures ||| kFeatureMrgRxbuf := by
  induction log generalizing h with
  | nil => exact .inl rfl
  | cons c log ih =>
    obtain ⟨hallowed, hrest⟩ := halong
    have hlater := ih hrest
    rw [run_cons]
    cases c with
    | received frame data =>
      refine hlater.imp_right fun hmerged => ⟨?_, hmerged.2⟩
      obtain ⟨c, hc, hmerged⟩ := hmerged.1
      exact ⟨c, List.mem_cons_of_mem _ hc, hmerged⟩
    | sent segments chainBytes frame =>
      by_cases hwide : 12 ≤ chainBytes.length ∧ (h.Wide ∨ LooksMerged segments chainBytes)
      · have hwidth : h.txWidth segments chainBytes = 12 := if_pos hwide
        have hafter : (h.after (.sent segments chainBytes frame)).driverFeatures =
            h.driverFeatures ||| kFeatureMrgRxbuf := by
          rw [Header.after, hwidth]
          rfl
        have hframe := hallowed.2
        rw [hwidth] at hframe
        refine .inr ⟨⟨_, List.mem_cons_self, hwide.1, hframe⟩, ?_⟩
        rw [hafter] at hlater
        rcases hlater with hkept | ⟨-, hset⟩
        · exact hkept
        · rw [hset, BitVec.or_assoc, BitVec.or_self]
      · have hwidth : h.txWidth segments chainBytes = 10 := if_neg hwide
        have hafter : (h.after (.sent segments chainBytes frame)).driverFeatures =
            h.driverFeatures := by
          rw [Header.after, hwidth]
          rfl
        rw [hafter] at hlater
        refine hlater.imp_right fun hmerged => ⟨?_, hmerged.2⟩
        obtain ⟨c, hc, hmerged⟩ := hmerged.1
        exact ⟨c, List.mem_cons_of_mem _ hc, hmerged⟩

/-- Two runs whose drivers do the same up to the payload, and in which no chain that leaves the
width open looks like twelve bytes of header in one and not in the other, strip and prepend the
same widths. In every run these are the ones of the header at the time. -/
theorem headerWidth_sameGuesses {D : Type} (s t : NetState D) (ops ops' : List (Op D))
    (hheader : s.dev.header = t.dev.header)
    (hdriver : List.Forall₂ SameShape (driverEvents (runLog s ops)) (driverEvents (runLog t ops')))
    (hguess : SameGuesses s.dev.header (runLog s ops) (runLog t ops')) :
    SameWidths (runLog s ops) (runLog t ops') ∧
      (∀ (s : NetState D) ops, Along Header.next Header.Admits s.dev.header (runLog s ops) ∧
        (run step s ops).dev.header = run Header.next s.dev.header (runLog s ops)) ∧
      ∀ handler (s : NetState D),
        (processTx handler s).1.dev.driverFeatures = s.dev.driverFeatures ∨
          (∃ c ∈ processTxLog handler s, c.Merged) ∧
            (processTx handler s).1.dev.driverFeatures =
              s.dev.driverFeatures ||| kFeatureMrgRxbuf := by
  have hs := run_records s ops
  have ht := run_records t ops'
  refine ⟨sameWidths_of_sameGuesses hs.1 (hheader ▸ ht.1) hdriver hguess, run_records, ?_⟩
  intro handler s
  obtain ⟨halong, hheader⟩ := processTx_follows handler s
  have hfeatures : (processTx handler s).1.dev.driverFeatures =
      (run Header.after s.dev.header (processTxLog handler s)).driverFeatures :=
    congrArg Header.driverFeatures hheader
  rw [hfeatures]
  exact features_of_follows halong

/-! A chain of one buffer: ten zero bytes, two bytes, and what may be a frame from the third on -/

def chainImage (first last : U8) (k : Nat) : U8 :=
  if k < 16 then [0x00, 0x06, 0, 0x40, 0, 0, 0, 0, 26, 0, 0, 0, 0, 0, 0, 0].getD k 0
  else if k = 0x102 ∨ k = 0x402 then 1
  else if 0x300 ≤ k ∧ k < 0x310 then
    [0x00, 0x07, 0, 0x40, 0, 0, 0, 0, 16, 0, 0, 0, 2, 0, 0, 0].getD (k - 0x300) 0
  else if k = 0x60A then first
  else if k = 0x618 then 8
  else if k = 0x619 then last
  else 0

def chainState (first last : U8) : NetState Unit where
  dev := { loopbackDevice with loopbackEnabled := false }
  bus := (Aarchvm.socBus false ()).setRam 2 ⟨kSdramSize, chainImage first last⟩
  sent := []

def notifyTx : Op Unit := .write none kRegQueueNotify 1 4

def chainEvent (first last : U8) (hdrSize : Nat) : NetEvent :=
  let bytes := List.replicate 10 0 ++ [first, 0] ++ List.replicate 12 0 ++ [8, last]
  .crossing (.sent [⟨kSdramBase + 0x600, 26, false⟩] bytes (bytes.drop hdrSize))

theorem chainState_log :
    runLog (chainState 0 0) [notifyTx, .enqueue [1]] =
        [chainEvent 0 0 12, .crossing (.received [1] (payload 12 [1]))] ∧
      runLog (chainState 0 7) [notifyTx, .enqueue [2, 3]] =
        [chainEvent 0 7 12, .crossing (.received [2, 3] (payload 12 [2, 3]))] := by
  decide +kernel

/-- Two payloads that look like twelve bytes of header, and two frames. -/
theorem headerWidth_sameGuesses_frames :
    SameWidths (runLog (chainState 0 0) [notifyTx, .enqueue [1]])
        (runLog (chainState 0 7) [notifyTx, .enqueue [2, 3]]) ∧
      (∀ (s : NetState Unit) ops, Along Header.next Header.Admits s.dev.header (runLog s ops) ∧
        (run step s ops).dev.header = run Header.next s.dev.header (runLog s ops)) ∧
      ∀ handler (s : NetState Unit),
        (processTx handler s).1.dev.driverFeatures = s.dev.driverFeatures ∨
          (∃ c ∈ processTxLog handler s, c.Merged) ∧
            (processTx handler s).1.dev.driverFeatures =
              s.dev.driverFeatures ||| kFeatureMrgRxbuf := by
  obtain ⟨hlog, hlog'⟩ := chainState_log
  refine headerWidth_sameGuesses _ _ _ _ rfl ?_ ?_
  · rw [hlog, hlog']
    exact .cons rfl .nil
  · rw [hlog, hlog']
    refine ⟨fun _ _ => ?_, trivial⟩
    decide

/-- Chains of one shape, one of which looks like twelve bytes of header: twelve bytes are stripped
from it and ten from the other, and the feature bit comes in. -/
theorem headerWidth_guessed :
    (chainState 0 0).dev.header = (chainState 1 0).dev.header ∧
      List.Forall₂ SameShape (driverEvents (runLog (chainState 0 0) [notifyTx]))
        (driverEvents (runLog (chainState 1 0) [notifyTx])) ∧
      ¬ SameWidths (runLog (chainState 0 0) [notifyTx]) (runLog (chainState 1 0) [notifyTx]) ∧
      (processTx none (chainState 0 0)).1.dev.driverFeatures ≠
        (chainState 0 0).dev.driverFeatures := by
  have hlog : runLog (chainState 0 0) [notifyTx] = [chainEvent 0 0 12] := by decide +kernel
  have hlog' : runLog (chainState 1 0) [notifyTx] = [chainEvent 1 0 10] := by decide +kernel
  rw [hlog, hlog']
  refine ⟨rfl, .cons rfl .nil, fun hsame => ?_, by decide +kernel⟩
  have hwidth := hsame [] _ [] [] _ [] rfl rfl rfl rfl
  exact absurd hwidth (by decide)

end Aarchvm.Virtio
