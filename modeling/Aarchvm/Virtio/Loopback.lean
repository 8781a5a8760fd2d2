import Aarchvm.Lib.Fifo
import Aarchvm.Lib.Run
import Aarchvm.Virtio.RingMemory

/-!
# The loopback

With the loopback attached the network device is a first-in first-out queue between its
two rings: a notification takes the frames of the chains it consumes from the transmit
ring in at the back, and hands the frames it puts into receive chains out at the front.
The driver may do anything to its memory in between.
-/
namespace Aarchvm.Virtio

open SocBus Lib.Ring

variable {D : Type}

/-! ## The queues in memory -/

/-- A queue with its three parts in RAM, and its used ring apart from what the driver writes. -/
structure Placed (q : QueueState) : Prop where
  rings : RingsInRam q
  table : ∃ p, At q.descAddr q.tableBytes p
  apart : Apart q.usedAddr q.usedBytes q.descAddr q.tableBytes

/-- The segments of the chain that an entry of the available ring heads. -/
def chainOf (b : Bus D) (q : QueueState) (entry : Option U16) : List TransferSegment :=
  (entry.bind fun head => VirtioNetMmio.collectChain b q q.num.toNat head []).getD []

/-- The buffers of `n` entries of the available ring from `idx` on. -/
def buffersFrom (b : Bus D) (q : QueueState) (idx : U16) (n : Nat) : List TransferSegment :=
  (entries q.num.toNat (availRing b q) idx n).flatMap (chainOf b q)

theorem buffersFrom_succ (b : Bus D) (q : QueueState) (idx : U16) (n : Nat) :
    buffersFrom b q idx (n + 1) =
      chainOf b q (availRing b q (slot q.num.toNat idx)) ++ buffersFrom b q (idx + 1) n := rfl

theorem Placed.advance {q : QueueState} (h : Placed q) : Placed (VirtioNetMmio.advance q) :=
  ⟨⟨h.rings.avail, h.rings.used, h.rings.apart⟩, h.table, h.apart⟩

theorem chainOf_advance (b : Bus D) (q : QueueState) (entry : Option U16) :
    chainOf b (VirtioNetMmio.advance q) entry = chainOf b q entry := by
  cases entry with
  | none => rfl
  | some head => exact congrArg (Option.getD · []) (collectChain_advance b q _ head [])

theorem buffersFrom_advance (b : Bus D) (q : QueueState) (idx : U16) (n : Nat) :
    buffersFrom b (VirtioNetMmio.advance q) idx n = buffersFrom b q idx n := by
  have hchain : chainOf b (VirtioNetMmio.advance q) = chainOf b q := funext (chainOf_advance b q)
  unfold buffersFrom
  rw [hchain]
  rfl

/-- What the driver wrote for a queue is in `b` as it was in `b₀`. -/
structure Agrees (b₀ b : Bus D) (q : QueueState) : Prop where
  wired : SocWired b
  avail : Keeps b₀ b q.availAddr q.availBytes
  table : Keeps b₀ b q.descAddr q.tableBytes

section Agrees

variable {b₀ b b' : Bus D} {q : QueueState}

theorem Agrees.refl (hb : SocWired b) (q : QueueState) : Agrees b b q :=
  ⟨hb, Keeps.refl b _ _, Keeps.refl b _ _⟩

theorem Agrees.trans {b'' : Bus D} (h : Agrees b b' q) (h' : Agrees b' b'' q) : Agrees b b'' q :=
  ⟨h'.wired, h.avail.trans h'.avail, h.table.trans h'.table⟩

theorem Agrees.availRing (h : Agrees b₀ b q) (hb₀ : SocWired b₀) (hq : Placed q) {i : Nat}
    (hi : i < q.num.toNat) : availRing b q i = availRing b₀ q i := by
  obtain ⟨p, hp⟩ := hq.rings.avail
  exact availRing_congr hb₀ h.wired hp (h.avail p hp) hi

theorem Agrees.collectChain (h : Agrees b₀ b q) (hb₀ : SocWired b₀) (hq : Placed q)
    (fuel : Nat) (head : U16) (segments : List TransferSegment) :
    VirtioNetMmio.collectChain b q fuel head segments =
      VirtioNetMmio.collectChain b₀ q fuel head segments :=
  collectChain_congr (readDescriptor_keeps hb₀ h.wired hq.table h.table) fuel head segments

theorem Agrees.readAvailIdx (h : Agrees b₀ b q) (hb₀ : SocWired b₀)
    (hq : Placed q) :
    readGuestU16 b (q.availAddr + 2) = readGuestU16 b₀ (q.availAddr + 2) := by
  have hsize : q.availBytes = 4 + q.num.toNat * 2 := rfl
  unfold readGuestU16
  rw [show (2 : U64) = BitVec.ofNat 64 2 from rfl,
    readGuest_keeps hb₀ h.wired hq.rings.avail h.avail (by omega)]

/-- A change in the used ring alone. -/
theorem Published.agrees {headIndex : U16} {usedLen : U32} (h : Published b b' q headIndex usedLen)
    (hq : Placed q) : Agrees b b' q :=
  ⟨h.wired, fun _ hat => h.other hat hq.rings.apart, fun _ hat => h.other hat hq.apart⟩

end Agrees

/-! ## Completed chains -/

/-- A completed chain: its head index, its buffers, the width of the header in front of the frame,
and the frame. -/
structure Completed where
  head : U16
  segments : List TransferSegment
  hdrSize : Nat
  frame : List U8

namespace Completed

/-- The bytes of a receive chain: header and frame. -/
def payload (c : Completed) : List U8 := VirtioNetMmio.payload c.hdrSize c.frame

/-- The used element of a transmit chain, and of a receive chain. -/
def sentEntry (c : Completed) : U16 × U32 := (c.head, 0)
def receivedEntry (c : Completed) : U16 × U32 := (c.head, BitVec.ofNat 32 c.payload.length)

end Completed

namespace VirtioNetMmio

/-- What `process_tx` keeps of the header width it detected. -/
def learn (v : VirtioNetMmio) (hdrSize : Nat) : VirtioNetMmio :=
  { v with
    guestHeaderSize := hdrSize
    driverFeatures :=
      if hdrSize = kVirtioNetMrgRxbufHdrSize then v.driverFeatures ||| kFeatureMrgRxbuf
      else v.driverFeatures }

/-- The chain is the one in memory, and the frame is what its buffers hold behind the header. -/
def Frames (b : Bus D) (q : QueueState) (v : VirtioNetMmio) (c : Completed) : Prop :=
  collectChain b q q.num.toNat c.head [] = some c.segments ∧
    ∃ bytes, gather b c.segments = some bytes ∧
      c.hdrSize = v.detectTxHeaderSize c.segments bytes ∧ c.frame = bytes.drop c.hdrSize

/-- The chains hold their frames, each with the header width detected after those before it. -/
def Sent (b : Bus D) (q : QueueState) : VirtioNetMmio → List Completed → Prop
  | _, [] => True
  | v, c :: cs => Frames b q v c ∧ Sent b q (v.learn c.hdrSize) cs

theorem sent_advance {b : Bus D} {q : QueueState} {v : VirtioNetMmio} {cs : List Completed}
    (h : Sent b (advance q) v cs) : Sent b q v cs := by
  induction cs generalizing v with
  | nil => trivial
  | cons c cs ih =>
    obtain ⟨⟨hchain, hframe⟩, hrest⟩ := h
    exact ⟨⟨(collectChain_advance b q _ _ _).symm.trans hchain, hframe⟩, ih hrest⟩

/-- The detection looks at the features and the last width only. -/
theorem sent_congr {b : Bus D} {q : QueueState} {v v' : VirtioNetMmio}
    (hsize : v'.guestHeaderSize = v.guestHeaderSize)
    (hfeatures : v'.driverFeatures = v.driverFeatures) {cs : List Completed}
    (h : Sent b q v cs) : Sent b q v' cs := by
  induction cs generalizing v v' with
  | nil => trivial
  | cons c cs ih =>
    obtain ⟨⟨hchain, bytes, hbytes, hwidth, hframe⟩, hrest⟩ := h
    refine ⟨⟨hchain, bytes, hbytes, ?_, hframe⟩, ?_⟩
    · rw [hwidth, detectTxHeaderSize, detectTxHeaderSize, netHeaderSize, netHeaderSize, hsize,
        hfeatures]
    · refine ih ?_ ?_ hrest
      · rfl
      · simp only [learn, hfeatures]

/-! ## One chain -/

/-- A turn of `process_tx` leaves everything as it is or completes the chain. -/
theorem transmit_spec (handler : TxFrameHandler) {s : NetState D} (hb : SocWired s.bus)
    (hq : Placed s.dev.tx) (hnum : 0 < s.dev.tx.num.toNat)
    (hloop : s.dev.loopbackEnabled = true) (headIndex : U16) :
    transmit handler s headIndex = (s, false) ∨
      ∃ c b', c.head = headIndex ∧ Frames s.bus s.dev.tx s.dev c ∧
        transmit handler s headIndex =
          ({ s with
              dev := { s.dev.learn c.hdrSize with
                pendingRxFrames := s.dev.pendingRxFrames ++ [c.frame]
                tx := advance s.dev.tx }
              bus := b' }, true) ∧
        Published s.bus b' s.dev.tx headIndex 0 := by
  rw [transmit]
  split
  · exact .inl rfl
  · next segments hchain =>
    split
    · exact .inl rfl
    · split
      · exact .inl rfl
      · next bytes hbytes =>
        right
        obtain ⟨b₁, b', hused, hindex, hpublished⟩ := publish hb hq.rings hnum headIndex 0
        refine ⟨⟨headIndex, segments, s.dev.detectTxHeaderSize segments bytes,
          bytes.drop (s.dev.detectTxHeaderSize segments bytes)⟩, b', rfl,
          ⟨hchain, bytes, hbytes, rfl, rfl⟩, ?_, hpublished⟩
        dsimp only
        rw [if_pos hloop]
        dsimp only
        rw [hused]
        dsimp only [advance]
        rw [hindex]
        rfl

/-! ## The transmit ring -/

/-- The entries from `last_avail_idx` up to the driver's index. -/
def pending (q : QueueState) (availIdx : U16) : Nat := (availIdx - q.lastAvailIdx).toNat

/-- What `process_tx` makes of the entries up to `availIdx`: `done` are completed, in order, with
their frames as `b₀` has them, and nothing but the used ring is written. -/
structure Transmitted (b₀ : Bus D) (availIdx : U16) (s s' : NetState D) (done : List Completed) :
    Prop where
  count : done.length ≤ pending s.dev.tx availIdx
  sent : Sent b₀ s.dev.tx s.dev done
  consumed : Consumed s.bus s'.bus s.dev.tx s'.dev.tx (done.map Completed.sentEntry)
  wired : SocWired s'.bus
  other : ∀ addr n, Apart s.dev.tx.usedAddr s.dev.tx.usedBytes addr n → Keeps s.bus s'.bus addr n
  frames : s'.dev.pendingRxFrames = s.dev.pendingRxFrames ++ done.map Completed.frame
  rx : s'.dev.rx = s.dev.rx
  present : s'.dev.present = s.dev.present
  loopback : s'.dev.loopbackEnabled = s.dev.loopbackEnabled

theorem transmitted_nil {b₀ : Bus D} {availIdx : U16} {s : NetState D} (hb : SocWired s.bus) :
    Transmitted b₀ availIdx s s [] where
  count := Nat.zero_le _
  sent := trivial
  consumed := consumed_nil _ _
  wired := hb
  other addr n _ := Keeps.refl _ addr n
  frames := (List.append_nil _).symm
  rx := rfl
  present := rfl
  loopback := rfl

theorem transmitted_stop {b₀ : Bus D} {availIdx : U16} {s : NetState D} (any : Bool)
    (hb : SocWired s.bus) :
    ∃ s' done, (s, any) = (s', any || !done.isEmpty) ∧ Transmitted b₀ availIdx s s' done :=
  ⟨s, [], by rw [List.isEmpty_nil, Bool.not_true, Bool.or_false], transmitted_nil hb⟩

/-- The chain of the entry at `last_avail_idx`, before the others. -/
theorem buffersFrom_pending {b : Bus D} {q : QueueState} {availIdx : U16}
    (h : q.lastAvailIdx ≠ availIdx) :
    pending q availIdx = pending (advance q) availIdx + 1 ∧
      buffersFrom b q q.lastAvailIdx (pending q availIdx) =
        chainOf b q (availRing b q (slot q.num.toNat q.lastAvailIdx)) ++
          buffersFrom b (advance q) (advance q).lastAvailIdx (pending (advance q) availIdx) := by
  have hcount : pending q availIdx = pending (advance q) availIdx + 1 := toNat_sub_succ h
  refine ⟨hcount, ?_⟩
  rw [hcount, buffersFrom_succ, buffersFrom_advance]
  rfl

/-- A completed chain, and then the others. -/
theorem Transmitted.cons {b₀ : Bus D} {availIdx : U16} {s s' : NetState D} {c : Completed}
    {b' : Bus D} {done : List Completed} (hb : SocWired s.bus) (hq : Placed s.dev.tx)
    (hnum : 0 < s.dev.tx.num.toNat)
    (hcount : pending s.dev.tx availIdx = pending (advance s.dev.tx) availIdx + 1)
    (hentry : availRing s.bus s.dev.tx (slot s.dev.tx.num.toNat s.dev.tx.lastAvailIdx) =
      some c.head)
    (hframes : Frames b₀ s.dev.tx s.dev c) (hpublished : Published s.bus b' s.dev.tx c.head 0)
    (h : Transmitted b₀ availIdx
      { s with
        dev := { s.dev.learn c.hdrSize with
          pendingRxFrames := s.dev.pendingRxFrames ++ [c.frame]
          tx := advance s.dev.tx }
        bus := b' } s' done) :
    Transmitted b₀ availIdx s s' (c :: done) where
  count := by
    have hdone : done.length ≤ pending (advance s.dev.tx) availIdx := h.count
    rw [List.length_cons, hcount]
    exact Nat.succ_le_succ hdone
  sent := by
    have hrest := sent_advance (q := s.dev.tx) h.sent
    refine ⟨hframes, sent_congr ?_ ?_ hrest⟩
    · rfl
    · rfl
  consumed := Consumed.cons hnum hentry
    (fun _ hi => (hpublished.agrees hq).availRing hb hq hi) hpublished.used hpublished.index
    h.consumed
  wired := h.wired
  other addr n hapart :=
    Keeps.trans (fun _ hat => hpublished.other hat hapart) (h.other addr n hapart)
  frames := by
    rw [h.frames, List.map_cons]
    exact List.append_assoc _ _ _
  rx := h.rx
  present := h.present
  loopback := h.loopback

/-- The loop of `process_tx`, by induction on the turns left; `b₀` is the memory it began with. -/
theorem txLoop_spec (handler : TxFrameHandler) {availIdx : U16} {b₀ : Bus D} (hb₀ : SocWired b₀)
    (fuel : Nat) {s : NetState D} (any : Bool) (hq : Placed s.dev.tx)
    (hnum : 0 < s.dev.tx.num.toNat) (hloop : s.dev.loopbackEnabled = true)
    (hagree : Agrees b₀ s.bus s.dev.tx)
    (hbuf : ∀ seg ∈ buffersFrom b₀ s.dev.tx s.dev.tx.lastAvailIdx (pending s.dev.tx availIdx),
      seg.InRam ∧ seg.ClearOf s.dev.tx.usedAddr s.dev.tx.usedBytes ∧
        Keeps b₀ s.bus seg.addr seg.len.toNat) :
    ∃ s' done, txLoop handler availIdx fuel s any = (s', any || !done.isEmpty) ∧
      Transmitted b₀ availIdx s s' done := by
  induction fuel generalizing s any with
  | zero => exact transmitted_stop any hagree.wired
  | succ fuel ih =>
    rw [txLoop]
    split
    · exact transmitted_stop any hagree.wired
    · next hmore =>
      obtain ⟨headIndex, hentry⟩ :=
        hq.rings.readAvail hagree.wired (slot_lt hnum s.dev.tx.lastAvailIdx)
      have hhead : readGuestU16 s.bus (ringAddr s.dev.tx) = some headIndex := by
        rw [ringAddr_eq]
        exact hentry
      rw [hhead]
      dsimp only
      rcases transmit_spec handler hagree.wired hq hnum hloop headIndex with
        hturn | ⟨c, b', rfl, hframes, hturn, hpublished⟩
      · rw [hturn]
        exact transmitted_stop any hagree.wired
      · rw [hturn]
        dsimp only
        obtain ⟨hcount, hsplit⟩ := buffersFrom_pending (b := b₀) hmore
        rw [hsplit] at hbuf
        have hentry₀ :=
          (hagree.availRing hb₀ hq (slot_lt hnum s.dev.tx.lastAvailIdx)).symm.trans hentry
        have hchain : VirtioNetMmio.collectChain b₀ s.dev.tx s.dev.tx.num.toNat c.head [] =
            some c.segments := (hagree.collectChain hb₀ hq _ _ _).symm.trans hframes.1
        have hfirst : chainOf b₀ s.dev.tx
            (availRing b₀ s.dev.tx (slot s.dev.tx.num.toNat s.dev.tx.lastAvailIdx)) =
              c.segments := by
          rw [hentry₀]
          exact congrArg (Option.getD · []) hchain
        rw [hfirst] at hbuf
        have hbytes : gather s.bus c.segments = gather b₀ c.segments :=
          gather_keeps hb₀ hagree.wired (fun seg hseg => (hbuf seg (List.mem_append_left _ hseg)).1)
            fun seg hseg => (hbuf seg (List.mem_append_left _ hseg)).2.2
        have hframes₀ : Frames b₀ s.dev.tx s.dev c :=
          ⟨hchain, by rw [← hbytes]; exact hframes.2⟩
        have hagree' := hagree.trans (hpublished.agrees hq)
        obtain ⟨s', done, hrest, htransmitted⟩ := ih
          (s := { s with
            dev := { s.dev.learn c.hdrSize with
              pendingRxFrames := s.dev.pendingRxFrames ++ [c.frame]
              tx := advance s.dev.tx }
            bus := b' })
          true hq.advance hnum hloop ⟨hagree'.wired, hagree'.avail, hagree'.table⟩
          fun seg hseg => by
            obtain ⟨hram, hclear, hkept⟩ := hbuf seg (List.mem_append_right _ hseg)
            exact ⟨hram, hclear, hkept.trans fun _ hat => hpublished.other hat hclear.symm⟩
        refine ⟨s', c :: done, hrest.trans ?_,
          Transmitted.cons hagree.wired hq hnum hcount hentry hframes₀ hpublished htransmitted⟩
        rw [Bool.true_or, List.isEmpty_cons, Bool.not_false, Bool.or_true]

/-! ## The receive ring -/

/-- A buffer that the device may fill: in RAM, and clear of the queue's own parts. -/
structure Fillable (q : QueueState) (seg : TransferSegment) : Prop where
  inRam : seg.InRam
  table : seg.ClearOf q.descAddr q.tableBytes
  avail : seg.ClearOf q.availAddr q.availBytes
  used : seg.ClearOf q.usedAddr q.usedBytes

/-- A received chain: its bytes are those of the payload, its element is in the used ring, and
nothing else changed. -/
structure Filled (b b' : Bus D) (q : QueueState) (c : Completed) : Prop where
  chain : collectChain b q q.num.toNat c.head [] = some c.segments
  placed : readChain b' c.segments c.payload.length = some c.payload
  agrees : Agrees b b' q
  other : ∀ addr n, Apart q.usedAddr q.usedBytes addr n →
    (∀ seg ∈ c.segments, seg.ClearOf addr n) → Keeps b b' addr n
  used : ∀ i < q.num.toNat, usedRing b' q i =
    Function.update (usedRing b q) (slot q.num.toNat q.usedIdx)
      (some (c.head.setWidth 32, BitVec.ofNat 32 c.payload.length)) i
  index : usedIndex b' q = some (q.usedIdx + 1)

/-- The payload first, and then the element. -/
theorem filled_of_published {b b₁ b' : Bus D} {q : QueueState} {c : Completed} (hb : SocWired b)
    (hb₁ : SocWired b₁) (hq : Placed q)
    (hchain : collectChain b q q.num.toNat c.head [] = some c.segments)
    (hfill : ∀ seg ∈ c.segments, Fillable q seg)
    (hother : ∀ addr n, (∀ seg ∈ c.segments, seg.ClearOf addr n) → Keeps b b₁ addr n)
    (hread : readChain b₁ c.segments c.payload.length = some c.payload)
    (hpublished : Published b₁ b' q c.head (BitVec.ofNat 32 c.payload.length)) :
    Filled b b' q c where
  chain := hchain
  placed := by
    rw [readChain_keeps hb₁ hpublished.wired (fun seg hseg => (hfill seg hseg).inRam)
      fun seg hseg _ hat => hpublished.other hat (hfill seg hseg).used.symm, hread]
  agrees := Agrees.trans
    ⟨hb₁, hother _ _ fun seg hseg => (hfill seg hseg).avail,
      hother _ _ fun seg hseg => (hfill seg hseg).table⟩ (hpublished.agrees hq)
  other addr n hapart hclear :=
    (hother addr n hclear).trans fun _ hat => hpublished.other hat hapart
  used i hi := by
    obtain ⟨p, hp⟩ := hq.rings.used
    have hsize : q.usedBytes = 4 + q.num.toNat * 8 := rfl
    have hkept := hother _ _ fun seg hseg => (hfill seg hseg).used
    rw [hpublished.used i hi]
    by_cases heq : i = slot q.num.toNat q.usedIdx
    · rw [heq, Function.update_self, Function.update_self]
    · rw [Function.update_of_ne heq, Function.update_of_ne heq]
      exact usedRing_congr hb hb₁ hp hi fun j hj => hkept p hp _ (by omega)
  index := hpublished.index

/-- A turn of `process_rx` leaves everything as it is or completes the chain with the frame. -/
theorem receive_spec {s : NetState D} (hb : SocWired s.bus) (hq : Placed s.dev.rx)
    (hnum : 0 < s.dev.rx.num.toNat) (hdrSize : Nat) (frame : List U8) (rest : List (List U8))
    {headIndex : U16} (hfill : ∀ seg ∈ chainOf s.bus s.dev.rx (some headIndex),
      Fillable s.dev.rx seg)
    (hpair : (chainOf s.bus s.dev.rx (some headIndex)).Pairwise fun seg seg' =>
      seg.ClearOf seg'.addr seg'.len.toNat) :
    receive s hdrSize frame rest headIndex = (s, false) ∨
      ∃ segments b', receive s hdrSize frame rest headIndex =
          ({ s with
              dev := { s.dev with rx := advance s.dev.rx, pendingRxFrames := rest }
              bus := b' }, true) ∧
        Filled s.bus b' s.dev.rx ⟨headIndex, segments, hdrSize, frame⟩ := by
  rw [receive]
  split
  · exact .inl rfl
  · next segments hchain =>
    have hsegs : chainOf s.bus s.dev.rx (some headIndex) = segments :=
      congrArg (Option.getD · []) hchain
    rw [hsegs] at hfill hpair
    split
    · exact .inl rfl
    · dsimp only
      split
      · exact .inl rfl
      · next hroom =>
        right
        obtain ⟨b₁, hwrite, hb₁, hother, hread⟩ := writePayload_spec hb
          (fun seg hseg => (hfill seg hseg).inRam) hpair (Nat.le_of_not_lt hroom)
        obtain ⟨b₂, b', hused, hindex, hpublished⟩ := publish hb₁ hq.rings hnum headIndex
          (BitVec.ofNat 32 (payload hdrSize frame).length)
        refine ⟨segments, b', ?_,
          filled_of_published hb hb₁ hq hchain hfill hother hread hpublished⟩
        rw [hwrite]
        dsimp only
        rw [hused]
        dsimp only [advance]
        rw [hindex]

/-- What `process_rx` makes of the entries up to `availIdx`: `done` are completed, in order, each
with the next pending frame. `b₀` is the memory it began with. -/
structure Received (b₀ : Bus D) (availIdx : U16) (hdrSize : Nat) (s s' : NetState D)
    (done : List Completed) : Prop where
  count : done.length ≤ pending s.dev.rx availIdx
  placed : ∀ c ∈ done, c.hdrSize = hdrSize ∧
    collectChain b₀ s.dev.rx s.dev.rx.num.toNat c.head [] = some c.segments ∧
    readChain s'.bus c.segments c.payload.length = some c.payload
  consumed : Consumed s.bus s'.bus s.dev.rx s'.dev.rx (done.map Completed.receivedEntry)
  wired : SocWired s'.bus
  other : ∀ addr n, Apart s.dev.rx.usedAddr s.dev.rx.usedBytes addr n →
    (∀ seg ∈ buffersFrom b₀ s.dev.rx s.dev.rx.lastAvailIdx (pending s.dev.rx availIdx),
      seg.ClearOf addr n) → Keeps s.bus s'.bus addr n
  frames : s.dev.pendingRxFrames = done.map Completed.frame ++ s'.dev.pendingRxFrames
  width : s'.dev.activeHeaderSize = s.dev.activeHeaderSize
  tx : s'.dev.tx = s.dev.tx
  present : s'.dev.present = s.dev.present
  loopback : s'.dev.loopbackEnabled = s.dev.loopbackEnabled

theorem received_stop {b₀ : Bus D} {availIdx : U16} {hdrSize : Nat} {s : NetState D} (any : Bool)
    (hb : SocWired s.bus) :
    ∃ s' done, (s, any) = (s', any || !done.isEmpty) ∧
      Received b₀ availIdx hdrSize s s' done := by
  refine ⟨s, [], by rw [List.isEmpty_nil, Bool.not_true, Bool.or_false], ?_⟩
  exact ⟨Nat.zero_le _, fun _ hc => absurd hc List.not_mem_nil, consumed_nil _ _, hb,
    fun addr n _ _ => Keeps.refl _ addr n, rfl, rfl, rfl, rfl, rfl⟩

/-- The buffers of the entries are apart and may be filled. -/
structure Buffers (b₀ : Bus D) (q : QueueState) (availIdx : U16) : Prop where
  fillable : ∀ seg ∈ buffersFrom b₀ q q.lastAvailIdx (pending q availIdx), Fillable q seg
  apart : (buffersFrom b₀ q q.lastAvailIdx (pending q availIdx)).Pairwise fun seg seg' =>
    seg.ClearOf seg'.addr seg'.len.toNat

/-- The buffers of the first entry, and those of the others. -/
theorem Buffers.split {b₀ : Bus D} {q : QueueState} {availIdx : U16} (h : Buffers b₀ q availIdx)
    (hmore : q.lastAvailIdx ≠ availIdx) {segments : List TransferSegment}
    (hfirst : chainOf b₀ q (availRing b₀ q (slot q.num.toNat q.lastAvailIdx)) = segments) :
    (∀ seg ∈ segments, Fillable q seg) ∧
      segments.Pairwise (fun seg seg' => seg.ClearOf seg'.addr seg'.len.toNat) ∧
      Buffers b₀ (advance q) availIdx ∧
      ∀ seg ∈ segments, ∀ seg' ∈ buffersFrom b₀ (advance q) (advance q).lastAvailIdx
        (pending (advance q) availIdx), seg.ClearOf seg'.addr seg'.len.toNat := by
  obtain ⟨hfill, hpair⟩ := h
  obtain ⟨-, hsplit⟩ := buffersFrom_pending (b := b₀) hmore
  rw [hsplit, hfirst] at hfill hpair
  obtain ⟨hpair₁, hpair₂, hcross⟩ := List.pairwise_append.1 hpair
  refine ⟨fun seg hseg => hfill seg (List.mem_append_left _ hseg), hpair₁,
    ⟨fun seg hseg => ?_, hpair₂⟩, hcross⟩
  obtain ⟨hram, htable, havail, hused⟩ := hfill seg (List.mem_append_right _ hseg)
  exact ⟨hram, htable, havail, hused⟩

/-- A completed chain, and then the others. -/
theorem Received.cons {b₀ : Bus D} {availIdx : U16} {s s' : NetState D} {c : Completed}
    {b' : Bus D} {rest : List (List U8)} {done : List Completed} (hb : SocWired s.bus)
    (hq : Placed s.dev.rx) (hnum : 0 < s.dev.rx.num.toNat)
    (hmore : s.dev.rx.lastAvailIdx ≠ availIdx) (hbuf : Buffers b₀ s.dev.rx availIdx)
    (hentry : availRing s.bus s.dev.rx (slot s.dev.rx.num.toNat s.dev.rx.lastAvailIdx) =
      some c.head)
    (hfirst : chainOf b₀ s.dev.rx
      (availRing b₀ s.dev.rx (slot s.dev.rx.num.toNat s.dev.rx.lastAvailIdx)) = c.segments)
    (hchain : collectChain b₀ s.dev.rx s.dev.rx.num.toNat c.head [] = some c.segments)
    (hpending : s.dev.pendingRxFrames = c.frame :: rest)
    (hfilled : Filled s.bus b' s.dev.rx c)
    (h : Received b₀ availIdx c.hdrSize
      { s with
        dev := { s.dev with rx := advance s.dev.rx, pendingRxFrames := rest }
        bus := b' } s' done) :
    Received b₀ availIdx c.hdrSize s s' (c :: done) := by
  obtain ⟨hcount, hsplit⟩ := buffersFrom_pending (b := b₀) hmore
  obtain ⟨hfill, -, -, hcross⟩ := hbuf.split hmore hfirst
  refine ⟨?_, ?_, ?_, h.wired, ?_, ?_, h.width, h.tx, h.present, h.loopback⟩
  · have hdone : done.length ≤ pending (advance s.dev.rx) availIdx := h.count
    rw [List.length_cons, hcount]
    exact Nat.succ_le_succ hdone
  · intro d hd
    rcases List.mem_cons.1 hd with rfl | hd
    · refine ⟨rfl, hchain, ?_⟩
      rw [readChain_keeps hfilled.agrees.wired h.wired (fun seg hseg => (hfill seg hseg).inRam) ?_,
        hfilled.placed]
      intro seg hseg
      exact h.other _ _ (hfill seg hseg).used.symm fun seg' hseg' =>
        (hcross seg hseg seg' hseg').symm
    · obtain ⟨hwidth, hdchain, hread⟩ := h.placed d hd
      exact ⟨hwidth, (collectChain_advance b₀ s.dev.rx _ _ _).symm.trans hdchain, hread⟩
  · exact Consumed.cons hnum hentry (fun _ hi => hfilled.agrees.availRing hb hq hi) hfilled.used
      hfilled.index h.consumed
  · intro addr n hapart hclear
    rw [hsplit, hfirst] at hclear
    exact (hfilled.other addr n hapart fun seg hseg =>
      hclear seg (List.mem_append_left _ hseg)).trans
      (h.other addr n hapart fun seg hseg => hclear seg (List.mem_append_right _ hseg))
  · rw [hpending, List.map_cons, List.cons_append]
    exact congrArg _ h.frames

/-- The loop of `process_rx`, by induction on the turns left. -/
theorem rxLoop_spec {availIdx : U16} (hdrSize : Nat) {b₀ : Bus D} (hb₀ : SocWired b₀) (fuel : Nat)
    {s : NetState D} (any : Bool) (hq : Placed s.dev.rx) (hnum : 0 < s.dev.rx.num.toNat)
    (hagree : Agrees b₀ s.bus s.dev.rx) (hbuf : Buffers b₀ s.dev.rx availIdx) :
    ∃ s' done, rxLoop hdrSize availIdx fuel s any = (s', any || !done.isEmpty) ∧
      Received b₀ availIdx hdrSize s s' done := by
  induction fuel generalizing s any with
  | zero => exact received_stop any hagree.wired
  | succ fuel ih =>
    rw [rxLoop]
    split
    · exact received_stop any hagree.wired
    · next hmore =>
      split
      · exact received_stop any hagree.wired
      · next frame rest hpending =>
        obtain ⟨headIndex, hentry⟩ :=
          hq.rings.readAvail hagree.wired (slot_lt hnum s.dev.rx.lastAvailIdx)
        have hhead : readGuestU16 s.bus (ringAddr s.dev.rx) = some headIndex := by
          rw [ringAddr_eq]
          exact hentry
        rw [hhead]
        dsimp only
        have hentry₀ :=
          (hagree.availRing hb₀ hq (slot_lt hnum s.dev.rx.lastAvailIdx)).symm.trans hentry
        have hsame : chainOf b₀ s.dev.rx
            (availRing b₀ s.dev.rx (slot s.dev.rx.num.toNat s.dev.rx.lastAvailIdx)) =
              chainOf s.bus s.dev.rx (some headIndex) := by
          rw [hentry₀]
          exact congrArg (Option.getD · []) (hagree.collectChain hb₀ hq _ headIndex []).symm
        obtain ⟨hfill, hpair, hbuf', -⟩ := hbuf.split hmore hsame
        rcases receive_spec hagree.wired hq hnum hdrSize frame rest hfill hpair with
          hturn | ⟨segments, b', hturn, hfilled⟩
        · rw [hturn]
          exact received_stop any hagree.wired
        · rw [hturn]
          dsimp only
          have hagree' := hagree.trans hfilled.agrees
          have hfirst : chainOf s.bus s.dev.rx (some headIndex) = segments :=
            congrArg (Option.getD · []) hfilled.chain
          obtain ⟨s', done, hrest, hreceived⟩ := ih
            (s := { s with
              dev := { s.dev with rx := advance s.dev.rx, pendingRxFrames := rest }
              bus := b' })
            true hq.advance hnum ⟨hagree'.wired, hagree'.avail, hagree'.table⟩ hbuf'
          refine ⟨s', ⟨headIndex, segments, hdrSize, frame⟩ :: done, hrest.trans ?_,
            Received.cons hagree.wired hq hnum hmore hbuf hentry (hsame.trans hfirst)
              ((hagree.collectChain hb₀ hq _ _ _).symm.trans hfilled.chain) hpending hfilled
              hreceived⟩
          rw [Bool.true_or, List.isEmpty_cons, Bool.not_false, Bool.or_true]

/-! ## One notification -/

/-- The parts of the queues that are in use lie in RAM and apart: each used ring from everything
that the driver writes, and the receive buffers from both queues and from each other. -/
structure Layout (b : Bus D) (v : VirtioNetMmio) : Prop where
  tx : v.tx.idle = false → Placed v.tx ∧
    ∀ availIdx, readGuestU16 b (v.tx.availAddr + 2) = some availIdx →
      ∀ seg ∈ buffersFrom b v.tx v.tx.lastAvailIdx (pending v.tx availIdx),
        seg.InRam ∧ seg.ClearOf v.tx.usedAddr v.tx.usedBytes
  rx : v.rx.idle = false → Placed v.rx ∧
    ∀ availIdx, readGuestU16 b (v.rx.availAddr + 2) = some availIdx → Buffers b v.rx availIdx
  cross : v.tx.idle = false → v.rx.idle = false →
    Apart v.tx.usedAddr v.tx.usedBytes v.rx.descAddr v.rx.tableBytes ∧
    Apart v.tx.usedAddr v.tx.usedBytes v.rx.availAddr v.rx.availBytes ∧
    Apart v.tx.usedAddr v.tx.usedBytes v.rx.usedAddr v.rx.usedBytes ∧
    ∀ availIdx, readGuestU16 b (v.rx.availAddr + 2) = some availIdx →
      ∀ seg ∈ buffersFrom b v.rx v.rx.lastAvailIdx (pending v.rx availIdx),
        seg.ClearOf v.tx.usedAddr v.tx.usedBytes

/-- What one notification did: which chains it completed, what they hold, the entries it put into
the used rings, and where their frames went. -/
structure Notified (s s' : NetState D) (sent delivered : List Completed) : Prop where
  sentAvailable : ∀ availIdx, readGuestU16 s.bus (s.dev.tx.availAddr + 2) = some availIdx →
    sent.length ≤ pending s.dev.tx availIdx
  sentFrames : Sent s.bus s.dev.tx s.dev sent
  sentUsed : s.dev.tx.idle = false →
    Consumed s.bus s'.bus s.dev.tx s'.dev.tx (sent.map Completed.sentEntry)
  sentIdle : s.dev.tx.idle = true → sent = [] ∧ s'.dev.tx = s.dev.tx
  deliveredAvailable : ∀ availIdx, readGuestU16 s.bus (s.dev.rx.availAddr + 2) = some availIdx →
    delivered.length ≤ pending s.dev.rx availIdx
  deliveredPlaced : ∀ c ∈ delivered, c.hdrSize = s'.dev.activeHeaderSize ∧
    collectChain s.bus s.dev.rx s.dev.rx.num.toNat c.head [] = some c.segments ∧
    readChain s'.bus c.segments c.payload.length = some c.payload
  deliveredUsed : s.dev.rx.idle = false →
    Consumed s.bus s'.bus s.dev.rx s'.dev.rx (delivered.map Completed.receivedEntry)
  deliveredIdle : s.dev.rx.idle = true → delivered = [] ∧ s'.dev.rx = s.dev.rx
  fifo : Lib.Fifo.Step s.dev.pendingRxFrames (sent.map Completed.frame)
    (delivered.map Completed.frame) s'.dev.pendingRxFrames

theorem num_pos {q : QueueState} (h : q.idle = false) : 0 < q.num.toNat := by
  simp only [QueueState.idle, Bool.or_eq_false_iff, beq_eq_false_iff_ne] at h
  obtain ⟨⟨⟨⟨-, hne⟩, -⟩, -⟩, -⟩ := h
  rw [Nat.pos_iff_ne_zero]
  exact fun hz => hne (BitVec.eq_of_toNat_eq hz)

/-- `process_tx` did nothing, or ran over the entries of a ready queue. -/
def TxPart (s s' : NetState D) (sent : List Completed) : Prop :=
  (s' = s ∧ sent = []) ∨
    s.dev.tx.idle = false ∧ ∃ availIdx,
      readGuestU16 s.bus (s.dev.tx.availAddr + 2) = some availIdx ∧
        Transmitted s.bus availIdx s s' sent

/-- The same of `process_rx`, in a call that began with the memory `b₀`. -/
def RxPart (b₀ : Bus D) (s s' : NetState D) (delivered : List Completed) : Prop :=
  (s' = s ∧ delivered = []) ∨
    s.dev.rx.idle = false ∧ ∃ availIdx,
      readGuestU16 s.bus (s.dev.rx.availAddr + 2) = some availIdx ∧
        Received b₀ availIdx s.dev.activeHeaderSize s s' delivered

theorem processTx_spec (handler : TxFrameHandler) {s : NetState D} (hb : SocWired s.bus)
    (hlayout : Layout s.bus s.dev) (hloop : s.dev.loopbackEnabled = true) :
    ∃ s' sent, processTx handler s = (s', !sent.isEmpty) ∧ TxPart s s' sent := by
  rw [processTx]
  split
  · exact ⟨s, [], rfl, .inl ⟨rfl, rfl⟩⟩
  · next hready =>
    have hidle := Bool.eq_false_of_not_eq_true hready
    obtain ⟨hq, hbuf⟩ := hlayout.tx hidle
    obtain ⟨availIdx, havail⟩ := hq.rings.readAvailIdx hb
    rw [havail]
    obtain ⟨s', sent, hloop', htransmitted⟩ := txLoop_spec handler hb (2 ^ 16) false hq
      (num_pos hidle) hloop (Agrees.refl hb _) fun seg hseg =>
        ⟨(hbuf availIdx havail seg hseg).1, (hbuf availIdx havail seg hseg).2, Keeps.refl _ _ _⟩
    exact ⟨s', sent, hloop', .inr ⟨hidle, availIdx, havail, htransmitted⟩⟩

theorem processRx_spec {b₀ : Bus D} {s : NetState D} (hb₀ : SocWired b₀)
    (hq : s.dev.rx.idle = false → Placed s.dev.rx ∧ Agrees b₀ s.bus s.dev.rx ∧
      ∀ availIdx, readGuestU16 s.bus (s.dev.rx.availAddr + 2) = some availIdx →
        Buffers b₀ s.dev.rx availIdx) :
    ∃ s' delivered, processRx s = (s', !delivered.isEmpty) ∧ RxPart b₀ s s' delivered := by
  rw [processRx]
  split
  · exact ⟨s, [], rfl, .inl ⟨rfl, rfl⟩⟩
  · next hready =>
    have hidle := Bool.eq_false_of_not_eq_true (not_or.1 hready).2
    obtain ⟨hplaced, hagree, hbuf⟩ := hq hidle
    obtain ⟨availIdx, havail⟩ := hplaced.rings.readAvailIdx hagree.wired
    rw [havail]
    obtain ⟨s', delivered, hloop, hreceived⟩ := rxLoop_spec s.dev.activeHeaderSize hb₀
      (2 ^ 16) false hplaced (num_pos hidle) hagree (hbuf availIdx havail)
    exact ⟨s', delivered, hloop, .inr ⟨hidle, availIdx, havail, hreceived⟩⟩

section Parts

variable {s s₁ s₂ : NetState D} {sent delivered : List Completed}

/-- What transmitting leaves for receiving. -/
theorem TxPart.kept (h : TxPart s s₁ sent) (hb : SocWired s.bus) (hlayout : Layout s.bus s.dev) :
    SocWired s₁.bus ∧ s₁.dev.rx = s.dev.rx ∧ s₁.dev.present = s.dev.present ∧
      s₁.dev.loopbackEnabled = s.dev.loopbackEnabled ∧
      (s.dev.rx.idle = false → Agrees s.bus s₁.bus s.dev.rx ∧
        Keeps s.bus s₁.bus s.dev.rx.usedAddr s.dev.rx.usedBytes) := by
  rcases h with ⟨rfl, -⟩ | ⟨hidle, availIdx, -, h⟩
  · exact ⟨hb, rfl, rfl, rfl, fun _ => ⟨Agrees.refl hb _, Keeps.refl _ _ _⟩⟩
  · refine ⟨h.wired, h.rx, h.present, h.loopback, fun hrx => ?_⟩
    obtain ⟨htable, havail, hused, -⟩ := hlayout.cross hidle hrx
    exact ⟨⟨h.wired, h.other _ _ havail, h.other _ _ htable⟩, h.other _ _ hused⟩

/-- What receiving leaves of the transmit ring. -/
theorem RxPart.kept (h : RxPart s.bus s₁ s₂ delivered) (hb₁ : SocWired s₁.bus)
    (hlayout : Layout s.bus s.dev) (hrx : s₁.dev.rx = s.dev.rx)
    (hread : s.dev.rx.idle = false → readGuestU16 s₁.bus (s.dev.rx.availAddr + 2) =
      readGuestU16 s.bus (s.dev.rx.availAddr + 2)) :
    SocWired s₂.bus ∧ s₂.dev.tx = s₁.dev.tx ∧ s₂.dev.present = s₁.dev.present ∧
      s₂.dev.loopbackEnabled = s₁.dev.loopbackEnabled ∧
      (s.dev.tx.idle = false →
        Keeps s₁.bus s₂.bus s.dev.tx.usedAddr s.dev.tx.usedBytes) := by
  rcases h with ⟨rfl, -⟩ | ⟨hidle, availIdx, havail, h⟩
  · exact ⟨hb₁, rfl, rfl, rfl, fun _ => Keeps.refl _ _ _⟩
  · refine ⟨h.wired, h.tx, h.present, h.loopback, fun htx => ?_⟩
    rw [hrx] at hidle havail
    obtain ⟨-, -, hused, hbuf⟩ := hlayout.cross htx hidle
    have hother := h.other s.dev.tx.usedAddr s.dev.tx.usedBytes
    rw [hrx] at hother
    exact hother hused.symm (hbuf availIdx ((hread hidle).symm.trans havail))

/-- Both parts of a call. -/
theorem notified_of_parts (hb : SocWired s.bus) (hlayout : Layout s.bus s.dev)
    (htx : TxPart s s₁ sent) (hrx : RxPart s.bus s₁ s₂ delivered) :
    Notified s s₂ sent delivered ∧ SocWired s₂.bus ∧ s₂.dev.present = s.dev.present ∧
      s₂.dev.loopbackEnabled = s.dev.loopbackEnabled := by
  obtain ⟨hb₁, hsame, hpresent₁, hloop₁, hkept⟩ := htx.kept hb hlayout
  have hread : s.dev.rx.idle = false → readGuestU16 s₁.bus (s.dev.rx.availAddr + 2) =
      readGuestU16 s.bus (s.dev.rx.availAddr + 2) :=
    fun hidle => (hkept hidle).1.readAvailIdx hb (hlayout.rx hidle).1
  obtain ⟨hb₂, htxSame, hpresent₂, hloop₂, hused⟩ := hrx.kept hb₁ hlayout hsame hread
  refine ⟨⟨?_, ?_, ?_, ?_, ?_, ?_, ?_, ?_, ?_⟩, hb₂, hpresent₂.trans hpresent₁,
    hloop₂.trans hloop₁⟩
  · intro availIdx havail
    rcases htx with ⟨-, rfl⟩ | ⟨-, idx, hidx, h⟩
    · exact Nat.zero_le _
    · obtain rfl := Option.some.inj (hidx.symm.trans havail)
      exact h.count
  · rcases htx with ⟨-, rfl⟩ | ⟨-, _, -, h⟩
    · trivial
    · exact h.sent
  · intro hidle
    obtain ⟨p, hp⟩ := (hlayout.tx hidle).1.rings.used
    have hconsumed : Consumed s.bus s₁.bus s.dev.tx s₁.dev.tx (sent.map Completed.sentEntry) := by
      rcases htx with ⟨rfl, rfl⟩ | ⟨-, _, -, h⟩
      · exact consumed_nil _ _
      · exact h.consumed
    rw [htxSame]
    exact hconsumed.after hb₁ hb₂ hp (hused hidle p hp)
  · intro hidle
    rcases htx with ⟨rfl, rfl⟩ | ⟨hready, -⟩
    · exact ⟨rfl, htxSame⟩
    · rw [hidle] at hready
      cases hready
  · intro availIdx havail
    rcases hrx with ⟨-, rfl⟩ | ⟨hready, idx, hidx, h⟩
    · exact Nat.zero_le _
    · have hcount := h.count
      rw [hsame] at hready hidx hcount
      obtain rfl := Option.some.inj ((hread hready).symm.trans hidx |>.symm.trans havail)
      exact hcount
  · intro c hc
    rcases hrx with ⟨-, rfl⟩ | ⟨-, _, -, h⟩
    · exact absurd hc List.not_mem_nil
    · obtain ⟨hwidth, hchain, hplaced⟩ := h.placed c hc
      rw [hsame] at hchain
      exact ⟨hwidth.trans h.width.symm, hchain, hplaced⟩
  · intro hidle
    obtain ⟨hq, -⟩ := hlayout.rx hidle
    obtain ⟨pa, hpa⟩ := hq.rings.avail
    obtain ⟨pu, hpu⟩ := hq.rings.used
    obtain ⟨hagree, hring⟩ := hkept hidle
    have hconsumed : Consumed s₁.bus s₂.bus s.dev.rx s₂.dev.rx
        (delivered.map Completed.receivedEntry) := by
      rcases hrx with ⟨rfl, rfl⟩ | ⟨-, _, -, h⟩
      · rw [hsame]
        exact consumed_nil _ _
      · have hall := h.consumed
        rw [hsame] at hall
        exact hall
    exact hconsumed.before (num_pos hidle) hb hb₁ hpa hpu (hagree.avail pa hpa) (hring pu hpu)
  · intro hidle
    rcases hrx with ⟨rfl, rfl⟩ | ⟨hready, -⟩
    · exact ⟨rfl, hsame⟩
    · rw [hsame, hidle] at hready
      cases hready
  · have hin : Lib.Fifo.Step s.dev.pendingRxFrames (sent.map Completed.frame) []
        s₁.dev.pendingRxFrames := by
      rcases htx with ⟨rfl, rfl⟩ | ⟨-, _, -, h⟩
      · exact Lib.Fifo.Step.refl _
      · rw [h.frames]
        exact Lib.Fifo.Step.enqueue _ _
    have hout : Lib.Fifo.Step s₁.dev.pendingRxFrames [] (delivered.map Completed.frame)
        s₂.dev.pendingRxFrames := by
      rcases hrx with ⟨rfl, rfl⟩ | ⟨-, _, -, h⟩
      · exact Lib.Fifo.Step.refl _
      · rw [h.frames]
        exact Lib.Fifo.Step.dequeue _ _
    have hboth := hin.trans hout
    rwa [List.append_nil, List.nil_append] at hboth

/-- The interrupt is apart from all that. -/
theorem Notified.raise (h : Notified s s₁ sent delivered) :
    Notified s (raise s₁) sent delivered :=
  ⟨h.sentAvailable, h.sentFrames, h.sentUsed, h.sentIdle, h.deliveredAvailable, h.deliveredPlaced,
    h.deliveredUsed, h.deliveredIdle, h.fifo⟩

/-- A notification of either queue, or of none. -/
theorem processQueue_notified (handler : TxFrameHandler) (hb : SocWired s.bus)
    (hlayout : Layout s.bus s.dev) (hpresent : s.dev.present = true)
    (hloop : s.dev.loopbackEnabled = true) (queueIndex : U32) :
    ∃ sent delivered, Notified s (processQueue handler s queueIndex) sent delivered ∧
      SocWired (processQueue handler s queueIndex).bus ∧
      (processQueue handler s queueIndex).dev.present = true ∧
      (processQueue handler s queueIndex).dev.loopbackEnabled = true := by
  have hraise : ∀ (s' : NetState D) (completed : Bool) (sent delivered : List Completed),
      (Notified s s' sent delivered ∧ SocWired s'.bus ∧ s'.dev.present = s.dev.present ∧
        s'.dev.loopbackEnabled = s.dev.loopbackEnabled) →
      Notified s (if completed then raise s' else s') sent delivered ∧
        SocWired (if completed then raise s' else s').bus ∧
        (if completed then raise s' else s').dev.present = true ∧
        (if completed then raise s' else s').dev.loopbackEnabled = true := by
    rintro s' completed sent delivered ⟨hnotified, hb', hp, hl⟩
    cases completed with
    | false => exact ⟨hnotified, hb', hp.trans hpresent, hl.trans hloop⟩
    | true => exact ⟨hnotified.raise, hb', hp.trans hpresent, hl.trans hloop⟩
  -- receiving after `sent` were transmitted
  have hreceive : ∀ (s₁ : NetState D) (sent : List Completed), TxPart s s₁ sent →
      ∃ s₂ delivered, processRx s₁ = (s₂, !delivered.isEmpty) ∧ RxPart s.bus s₁ s₂ delivered := by
    intro s₁ sent htx
    obtain ⟨-, hsame, -, -, hkept⟩ := htx.kept hb hlayout
    refine processRx_spec hb fun hidle => ?_
    rw [hsame] at hidle ⊢
    obtain ⟨hq, hbuf⟩ := hlayout.rx hidle
    obtain ⟨hagree, -⟩ := hkept hidle
    exact ⟨hq, hagree, fun availIdx havail =>
      hbuf availIdx ((hagree.readAvailIdx hb hq).symm.trans havail)⟩
  rw [processQueue, if_neg (by rw [hpresent]; decide)]
  by_cases htxq : queueIndex = 1
  · rw [if_pos htxq]
    obtain ⟨s₁, sent, htx, htxPart⟩ := processTx_spec handler hb hlayout hloop
    rw [htx]
    dsimp only
    by_cases hnone : s₁.dev.pendingRxFrames = []
    · rw [if_pos hnone]
      exact ⟨sent, [], hraise s₁ _ sent [] (notified_of_parts hb hlayout htxPart (.inl ⟨rfl, rfl⟩))⟩
    · rw [if_neg hnone]
      obtain ⟨s₂, delivered, hrx, hrxPart⟩ := hreceive s₁ sent htxPart
      rw [hrx]
      exact ⟨sent, delivered,
        hraise s₂ _ sent delivered (notified_of_parts hb hlayout htxPart hrxPart)⟩
  · rw [if_neg htxq]
    have hidle : TxPart s s [] := .inl ⟨rfl, rfl⟩
    by_cases hrxq : queueIndex = 0
    · rw [if_pos hrxq]
      obtain ⟨s₂, delivered, hrx, hrxPart⟩ := hreceive s [] hidle
      rw [hrx]
      exact ⟨[], delivered, hraise s₂ _ [] delivered (notified_of_parts hb hlayout hidle hrxPart)⟩
    · rw [if_neg hrxq]
      exact ⟨[], [], hraise s false [] [] (notified_of_parts hb hlayout hidle (.inl ⟨rfl, rfl⟩))⟩

end Parts

/-! ## Runs -/

/-- The driver changes its memory, or writes a queue's index to QueueNotify. -/
inductive LoopOp (D : Type) where
  | driver (bus : Bus D)
  | notify (queueIndex : U32)

def loopStep (handler : TxFrameHandler) (s : NetState D) : LoopOp D → NetState D
  | .driver bus => { s with bus := bus }
  | .notify queueIndex => processQueue handler s queueIndex

/-- The memory of the guest stays that of the SoC, and is laid out when a queue is notified. -/
def LoopOp.Ok (s : NetState D) : LoopOp D → Prop
  | .driver bus => SocWired bus
  | .notify _ => Layout s.bus s.dev

/-- `sent` and `delivered` are what the notifications of a run completed, in order. -/
def History (handler : TxFrameHandler) :
    NetState D → List (LoopOp D) → List Completed → List Completed → Prop
  | _, [], sent, delivered => sent = [] ∧ delivered = []
  | s, .driver bus :: ops, sent, delivered =>
    History handler (loopStep handler s (.driver bus)) ops sent delivered
  | s, .notify queueIndex :: ops, sent, delivered =>
    ∃ sent₁ delivered₁ sent₂ delivered₂,
      Notified s (processQueue handler s queueIndex) sent₁ delivered₁ ∧
      History handler (loopStep handler s (.notify queueIndex)) ops sent₂ delivered₂ ∧
      sent = sent₁ ++ sent₂ ∧ delivered = delivered₁ ++ delivered₂

/-- Along a run the device is a queue of frames, by induction on the run. -/
theorem history_fifo (handler : TxFrameHandler) {s : NetState D} (hb : SocWired s.bus)
    (hpresent : s.dev.present = true) (hloop : s.dev.loopbackEnabled = true)
    {ops : List (LoopOp D)} (hok : Lib.Run.Along (loopStep handler) LoopOp.Ok s ops) :
    ∃ sent delivered, History handler s ops sent delivered ∧
      Lib.Fifo.Step s.dev.pendingRxFrames (sent.map Completed.frame)
        (delivered.map Completed.frame)
        (Lib.Run.run (loopStep handler) s ops).dev.pendingRxFrames := by
  induction ops generalizing s with
  | nil => exact ⟨[], [], ⟨rfl, rfl⟩, Lib.Fifo.Step.refl _⟩
  | cons op ops ih =>
    obtain ⟨hop, hrest⟩ := hok
    cases op with
    | driver bus => exact ih hop hpresent hloop hrest
    | notify queueIndex =>
      obtain ⟨sent₁, delivered₁, hnotified, hb', hpresent', hloop'⟩ :=
        processQueue_notified handler hb hop hpresent hloop queueIndex
      obtain ⟨sent₂, delivered₂, hhistory, hfifo⟩ := ih hb' hpresent' hloop' hrest
      refine ⟨sent₁ ++ sent₂, delivered₁ ++ delivered₂,
        ⟨sent₁, delivered₁, sent₂, delivered₂, hnotified, hhistory, rfl, rfl⟩, ?_⟩
      rw [List.map_append, List.map_append]
      exact hnotified.fifo.trans hfifo

/-- From a loopback that holds no frame, the frames of the completed receive chains are a prefix of
those of the completed transmit chains, and the others are pending in their order. -/
theorem loopback_exactlyOnce (handler : TxFrameHandler) {s : NetState D} (hb : SocWired s.bus)
    (hpresent : s.dev.present = true) (hloop : s.dev.loopbackEnabled = true)
    (hempty : s.dev.pendingRxFrames = []) {ops : List (LoopOp D)}
    (hok : Lib.Run.Along (loopStep handler) LoopOp.Ok s ops) :
    ∃ sent delivered, History handler s ops sent delivered ∧
      delivered.map Completed.frame <+: sent.map Completed.frame ∧
      sent.map Completed.frame = delivered.map Completed.frame ++
        (Lib.Run.run (loopStep handler) s ops).dev.pendingRxFrames := by
  obtain ⟨sent, delivered, hhistory, hfifo⟩ := history_fifo handler hb hpresent hloop hok
  rw [hempty] at hfifo
  exact ⟨sent, delivered, hhistory, hfifo.isPrefix, (List.nil_append _).symm.trans hfifo⟩

/-! A chain with a header of ten zero bytes and a frame of two, and a buffer of 16 bytes -/

/-- Both queues have one descriptor; the parts lie 256 bytes apart. -/
def loopbackBytes (k : Nat) : U8 :=
  if k < 16 then [0x00, 0x06, 0, 0x40, 0, 0, 0, 0, 12, 0, 0, 0, 0, 0, 0, 0].getD k 0
  else if k = 0x102 ∨ k = 0x402 then 1
  else if 0x300 ≤ k ∧ k < 0x310 then
    [0x00, 0x07, 0, 0x40, 0, 0, 0, 0, 16, 0, 0, 0, 2, 0, 0, 0].getD (k - 0x300) 0
  else if k = 0x60A then 0xAB
  else if k = 0x60B then 0xCD
  else 0

def loopbackBus : Bus Unit := (Aarchvm.socBus false ()).setRam 2 ⟨kSdramSize, loopbackBytes⟩

def loopbackDevice : VirtioNetMmio :=
  { init with
    present := true
    loopbackEnabled := true
    tx := ⟨1, true, kSdramBase, kSdramBase + 0x100, kSdramBase + 0x200, 0, 0, by decide⟩
    rx := ⟨1, true, kSdramBase + 0x300, kSdramBase + 0x400, kSdramBase + 0x500, 0, 0, by decide⟩ }

theorem sdram_at {pa : U64} {n : Nat} (hlo : kSdramBase ≤ pa)
    (hhi : pa.toNat + n ≤ kSdramBase.toNat + kSdramSize.toNat) :
    ∃ p, At pa n p :=
  ⟨⟨2, pa - kSdramBase⟩, sdramMapping, sdram_mapped, rfl, hlo, hhi, rfl⟩

theorem loopbackBus_wired : SocWired loopbackBus := by
  refine ⟨rfl, nofun, ?_⟩
  intro id
  by_cases hid : id = 2
  · subst hid
    rfl
  · simp only [loopbackBus, Bus.setRam, Function.update_of_ne hid]
    rfl

theorem loopback_layout : Layout loopbackBus loopbackDevice := by
  have htxIdx : readGuestU16 loopbackBus (loopbackDevice.tx.availAddr + 2) = some 1 := by
    decide +kernel
  have hrxIdx : readGuestU16 loopbackBus (loopbackDevice.rx.availAddr + 2) = some 1 := by
    decide +kernel
  have htxBuf : buffersFrom loopbackBus loopbackDevice.tx 0 1 =
      [⟨kSdramBase + 0x600, 12, false⟩] := by decide +kernel
  have hrxBuf : buffersFrom loopbackBus loopbackDevice.rx 0 1 =
      [⟨kSdramBase + 0x700, 16, true⟩] := by decide +kernel
  refine ⟨fun _ => ⟨⟨⟨?_, ?_, ?_⟩, ?_, ?_⟩, ?_⟩, fun _ => ⟨⟨⟨?_, ?_, ?_⟩, ?_, ?_⟩, ?_⟩,
    fun _ _ => ⟨?_, ?_, ?_, ?_⟩⟩
  · exact sdram_at (by decide) (by decide)
  · exact sdram_at (by decide) (by decide)
  · decide +kernel
  · exact sdram_at (by decide) (by decide)
  · decide +kernel
  · intro availIdx havail seg hseg
    obtain rfl := Option.some.inj (htxIdx.symm.trans havail)
    obtain rfl := List.mem_singleton.1 ((congrArg (seg ∈ ·) htxBuf).mp hseg)
    exact ⟨sdram_at (by decide) (by decide), by unfold TransferSegment.ClearOf; decide +kernel⟩
  · exact sdram_at (by decide) (by decide)
  · exact sdram_at (by decide) (by decide)
  · decide +kernel
  · exact sdram_at (by decide) (by decide)
  · decide +kernel
  · intro availIdx havail
    obtain rfl := Option.some.inj (hrxIdx.symm.trans havail)
    refine ⟨fun seg hseg => ?_, ?_⟩
    · obtain rfl := List.mem_singleton.1 ((congrArg (seg ∈ ·) hrxBuf).mp hseg)
      refine ⟨sdram_at (by decide) (by decide), ?_, ?_, ?_⟩
      · unfold TransferSegment.ClearOf
        decide +kernel
      · unfold TransferSegment.ClearOf
        decide +kernel
      · unfold TransferSegment.ClearOf
        decide +kernel
    · have hone := congrArg (List.Pairwise fun seg seg' : TransferSegment =>
        seg.ClearOf seg'.addr seg'.len.toNat) hrxBuf
      exact hone.mpr (List.pairwise_singleton _ _)
  · decide +kernel
  · decide +kernel
  · decide +kernel
  · intro availIdx havail seg hseg
    obtain rfl := Option.some.inj (hrxIdx.symm.trans havail)
    obtain rfl := List.mem_singleton.1 ((congrArg (seg ∈ ·) hrxBuf).mp hseg)
    unfold TransferSegment.ClearOf
    decide +kernel

/-- What the first notification can have completed is the one frame. -/
theorem loopback_sent {c : Completed} (hhead : c.head = 0)
    (h : Frames loopbackBus loopbackDevice.tx loopbackDevice c) : c.frame = [0xAB, 0xCD] := by
  obtain ⟨hchain, bytes, hbytes, hsize, hframe⟩ := h
  have hsegments : collectChain loopbackBus loopbackDevice.tx loopbackDevice.tx.num.toNat 0 [] =
      some [⟨kSdramBase + 0x600, 12, false⟩] := by decide +kernel
  have hgathered : gather loopbackBus [⟨kSdramBase + 0x600, 12, false⟩] =
      some [0, 0, 0, 0, 0, 0, 0, 0, 0, 0, 0xAB, 0xCD] := by decide +kernel
  rw [hhead] at hchain
  obtain hc := Option.some.inj (hchain.symm.trans hsegments)
  rw [hc] at hbytes hsize
  obtain rfl := Option.some.inj (hbytes.symm.trans hgathered)
  rw [hframe, hsize]
  decide +kernel

/-- A notification that moves the receive queue on by one has delivered the frame. -/
theorem loopback_delivered {s' : NetState Unit} {sent delivered : List Completed}
    (h : Notified ⟨loopbackDevice, loopbackBus, []⟩ s' sent delivered)
    (hmoved : s'.dev.rx.lastAvailIdx = 1) : delivered.map Completed.frame = [[0xAB, 0xCD]] := by
  have htxIdx : readGuestU16 loopbackBus (loopbackDevice.tx.availAddr + 2) = some 1 := by
    decide +kernel
  have hrxIdx : readGuestU16 loopbackBus (loopbackDevice.rx.availAddr + 2) = some 1 := by
    decide +kernel
  have hsentLe : sent.length ≤ 1 := h.sentAvailable 1 htxIdx
  have hdeliveredLe : delivered.length ≤ 1 := h.deliveredAvailable 1 hrxIdx
  have hdelivered : delivered.length = 1 := by
    have hqueue := (h.deliveredUsed (by decide)).queue
    rw [hqueue, List.length_map] at hmoved
    by_contra hne
    rw [show delivered.length = 0 by omega] at hmoved
    exact absurd hmoved (by decide)
  have hprefix : delivered.map Completed.frame <+: sent.map Completed.frame :=
    Lib.Fifo.Step.isPrefix h.fifo
  have hsent : sent.length = 1 := by
    have hle := hprefix.length_le
    rw [List.length_map, List.length_map] at hle
    omega
  obtain ⟨c, rfl⟩ := List.length_eq_one_iff.1 hsent
  have hframe : c.frame = [0xAB, 0xCD] := by
    refine loopback_sent ?_ h.sentFrames.1
    have hheads := (h.sentUsed (by decide)).heads
    have hentries : entries loopbackDevice.tx.num.toNat (availRing loopbackBus loopbackDevice.tx)
        loopbackDevice.tx.lastAvailIdx 1 = [some 0] := by decide +kernel
    exact Option.some.inj (List.head_eq_of_cons_eq (hheads.trans hentries))
  have hsame := hprefix.eq_of_length (by simp [hdelivered])
  rw [hsame, List.map_singleton, hframe]

/-- The driver publishes both entries and notifies the transmit queue: the frame is delivered. -/
theorem loopback_exactlyOnce_frame :
    (Lib.Run.run (loopStep none) ⟨loopbackDevice, Aarchvm.socBus false (), []⟩
        [.driver loopbackBus, .notify 1]).dev.pendingRxFrames = [] ∧
      ∃ sent delivered, History none ⟨loopbackDevice, Aarchvm.socBus false (), []⟩
          [.driver loopbackBus, .notify 1] sent delivered ∧
        delivered.map Completed.frame = [[0xAB, 0xCD]] ∧
        delivered.map Completed.frame <+: sent.map Completed.frame ∧
        sent.map Completed.frame = delivered.map Completed.frame ++
          (Lib.Run.run (loopStep none) ⟨loopbackDevice, Aarchvm.socBus false (), []⟩
            [.driver loopbackBus, .notify 1]).dev.pendingRxFrames := by
  have hb : SocWired (Aarchvm.socBus false ()) := ⟨rfl, nofun, fun _ => rfl⟩
  obtain ⟨sent, delivered, hhistory, hprefix, hqueue⟩ :=
    @loopback_exactlyOnce Unit none ⟨loopbackDevice, Aarchvm.socBus false (), []⟩ hb rfl rfl rfl
      [.driver loopbackBus, .notify 1] ⟨loopbackBus_wired, loopback_layout, trivial⟩
  refine ⟨by decide +kernel, sent, delivered, hhistory, ?_, hprefix, hqueue⟩
  obtain ⟨sent₁, delivered₁, sent₂, delivered₂, hnotified, ⟨rfl, rfl⟩, rfl, rfl⟩ := hhistory
  rw [List.append_nil]
  exact loopback_delivered hnotified (by decide +kernel)

end VirtioNetMmio
end Aarchvm.Virtio
