import Aarchvm.Virtio.QueueRun
import Aarchvm.Virtio.Net

/-!
# Chains and buffers in guest memory

What the network device reads of a queue while it stores elsewhere: the descriptor table
gives the same chains, and a buffer that a store does not name the same bytes. Scattering
a payload over a chain of disjoint buffers and reading it back gives the payload.
-/
namespace Aarchvm.Virtio

open SocBus Lib.Ring

variable {D : Type} {b b' : Bus D}

theorem Apart.symm {a a' : U64} {n n' : Nat} (h : Apart a n a' n') : Apart a' n' a n :=
  fun i hi j hj heq => h j hj i hi heq.symm

/-- The bytes of a stretch of RAM are in `b'` what they are in `b`. -/
def Keeps (b b' : Bus D) (pa : U64) (n : Nat) : Prop :=
  ∀ p, At pa n p → ∀ k < n, byteAt b' p k = byteAt b p k

theorem Keeps.refl (b : Bus D) (pa : U64) (n : Nat) : Keeps b b pa n := fun _ _ _ _ => rfl

theorem Keeps.trans {b'' : Bus D} {pa : U64} {n : Nat} (h : Keeps b b' pa n)
    (h' : Keeps b' b'' pa n) : Keeps b b'' pa n :=
  fun p hat k hk => (h' p hat k hk).trans (h p hat k hk)

theorem readGuest_keeps (hb : SocWired b) (hb' : SocWired b') {pa : U64} {n : Nat}
    (hat : ∃ p, At pa n p) (h : Keeps b b' pa n) {i k : Nat} (hk : i + k ≤ n) :
    readGuest b' (pa + BitVec.ofNat 64 i) (BitVec.ofNat 64 k) =
      readGuest b (pa + BitVec.ofNat 64 i) (BitVec.ofNat 64 k) := by
  obtain ⟨p, hp⟩ := hat
  exact readGuest_congr hb hb' hp hk fun j hj => h p hp _ (by omega)

/-! ## Buffers -/

def TransferSegment.InRam (seg : TransferSegment) : Prop := ∃ p, At seg.addr seg.len.toNat p

/-- No byte of the segment is among `n` from `addr`. -/
def TransferSegment.ClearOf (seg : TransferSegment) (addr : U64) (n : Nat) : Prop :=
  Apart seg.addr seg.len.toNat addr n

theorem setWidth_len (seg : TransferSegment) :
    (seg.len.setWidth 64 : U64) = BitVec.ofNat 64 seg.len.toNat := by
  apply BitVec.eq_of_toNat_eq
  rw [BitVec.toNat_setWidth, BitVec.toNat_ofNat]

/-- The bytes of a chain of kept buffers. -/
theorem gather_keeps (hb : SocWired b) (hb' : SocWired b') {segs : List TransferSegment}
    (hram : ∀ seg ∈ segs, seg.InRam) (h : ∀ seg ∈ segs, Keeps b b' seg.addr seg.len.toNat) :
    gather b' segs = gather b segs := by
  induction segs with
  | nil => rfl
  | cons seg segs ih =>
    have hread : readGuest b' seg.addr (seg.len.setWidth 64) =
        readGuest b seg.addr (seg.len.setWidth 64) := by
      have hfirst := readGuest_keeps hb hb' (hram seg List.mem_cons_self)
        (h seg List.mem_cons_self) (i := 0) (k := seg.len.toNat) (by omega)
      rw [setWidth_len]
      rwa [show seg.addr + BitVec.ofNat 64 0 = seg.addr from BitVec.add_zero _] at hfirst
    rw [gather, gather, hread, ih (fun s hs => hram s (List.mem_cons_of_mem _ hs))
      (fun s hs => h s (List.mem_cons_of_mem _ hs))]

/-! ## The descriptor table -/

def QueueState.tableBytes (q : QueueState) : Nat := q.num.toNat * 16

theorem readDescriptor_keeps (hb : SocWired b) (hb' : SocWired b') {q : QueueState}
    (hat : ∃ p, At q.descAddr q.tableBytes p) (h : Keeps b b' q.descAddr q.tableBytes)
    (index : U16) : readDescriptor b' q index = readDescriptor b q index := by
  unfold readDescriptor
  split
  · rfl
  · next hin =>
    have hlt : index.toNat < q.num.toNat := by
      rw [not_or, BitVec.not_le, BitVec.lt_def, BitVec.toNat_setWidth_of_le (by decide)] at hin
      exact hin.2
    have hoff : (index.setWidth 64 * 16 : U64) = BitVec.ofNat 64 (index.toNat * 16) := by
      have hsixteen : (16 : U64).toNat = 16 := rfl
      apply BitVec.eq_of_toNat_eq
      rw [BitVec.toNat_mul, BitVec.toNat_setWidth_of_le (by decide), BitVec.toNat_ofNat, hsixteen]
    have hsize : q.tableBytes = q.num.toNat * 16 := rfl
    dsimp only
    rw [hoff, show (16 : U64) = BitVec.ofNat 64 16 from rfl,
      readGuest_keeps hb hb' hat h (by omega)]

/-- A chain is what its descriptors say. -/
theorem collectChain_congr {q q' : QueueState}
    (h : ∀ index, readDescriptor b' q' index = readDescriptor b q index) (fuel : Nat) (index : U16)
    (segments : List TransferSegment) :
    VirtioNetMmio.collectChain b' q' fuel index segments =
      VirtioNetMmio.collectChain b q fuel index segments := by
  induction fuel generalizing index segments with
  | zero => rfl
  | succ fuel ih =>
    rw [VirtioNetMmio.collectChain, VirtioNetMmio.collectChain, h]
    split
    · rfl
    · split
      · rfl
      · split
        · exact ih _ _
        · rfl

theorem collectChain_advance (b : Bus D) (q : QueueState) (fuel : Nat) (index : U16)
    (segments : List TransferSegment) :
    VirtioNetMmio.collectChain b (VirtioNetMmio.advance q) fuel index segments =
      VirtioNetMmio.collectChain b q fuel index segments :=
  @collectChain_congr _ b b q (VirtioNetMmio.advance q) (fun _ => rfl) fuel index segments

/-! ## Scattered payloads -/

/-- The first `n` bytes of a chain of buffers, as its owner reads them. -/
def readChain (b : Bus D) : List TransferSegment → Nat → Option (List U8)
  | _, 0 => some []
  | [], _ + 1 => none
  | seg :: segs, n + 1 =>
    match readGuest b seg.addr (BitVec.ofNat 64 (min seg.len.toNat (n + 1))),
      readChain b segs (n + 1 - seg.len.toNat) with
    | some bytes, some rest => some (bytes ++ rest)
    | _, _ => none

theorem readChain_cons (b : Bus D) (seg : TransferSegment) (segs : List TransferSegment)
    {n : Nat} (hn : 0 < n) :
    readChain b (seg :: segs) n =
      match readGuest b seg.addr (BitVec.ofNat 64 (min seg.len.toNat n)),
        readChain b segs (n - seg.len.toNat) with
      | some bytes, some rest => some (bytes ++ rest)
      | _, _ => none := by
  obtain ⟨m, rfl⟩ : ∃ m, n = m + 1 := ⟨n - 1, by omega⟩
  rfl

theorem readChain_keeps (hb : SocWired b) (hb' : SocWired b') {segs : List TransferSegment}
    (hram : ∀ seg ∈ segs, seg.InRam) (h : ∀ seg ∈ segs, Keeps b b' seg.addr seg.len.toNat)
    (n : Nat) : readChain b' segs n = readChain b segs n := by
  induction segs generalizing n with
  | nil => cases n <;> rfl
  | cons seg segs ih =>
    rcases Nat.eq_zero_or_pos n with rfl | hn
    · rfl
    · have hread := readGuest_keeps hb hb' (hram seg List.mem_cons_self)
        (h seg List.mem_cons_self) (i := 0) (k := min seg.len.toNat n) (by omega)
      rw [show seg.addr + BitVec.ofNat 64 0 = seg.addr from BitVec.add_zero _] at hread
      rw [readChain_cons b' _ _ hn, readChain_cons b _ _ hn, hread,
        ih (fun s hs => hram s (List.mem_cons_of_mem _ hs))
          (fun s hs => h s (List.mem_cons_of_mem _ hs))]

theorem map_byteAt_eq {p : RamPtr} {src : List U8}
    (h : ∀ j < src.length, byteAt b p j = src.getD j 0) :
    ((List.range src.length).map fun j => byteAt b p (0 + j)) = src := by
  apply List.ext_getElem
  · rw [List.length_map, List.length_range]
  · intro j hj hj'
    rw [List.getElem_map, List.getElem_range, Nat.zero_add, h j hj',
      List.getD_eq_getElem?_getD, List.getElem?_eq_getElem hj']
    rfl

/-- A store into a buffer goes through, is read back and leaves what is apart from the buffer. -/
theorem writeGuest_buffer (hb : SocWired b) {seg : TransferSegment} (hram : seg.InRam)
    {src : List U8} (hlen : src.length ≤ seg.len.toNat) :
    ∃ b', writeGuest b seg.addr src = some b' ∧ SocWired b' ∧
      (∀ addr n, seg.ClearOf addr n → Keeps b b' addr n) ∧
      readGuest b' seg.addr (BitVec.ofNat 64 src.length) = some src := by
  obtain ⟨p, hat⟩ := hram
  have hzero : seg.addr + BitVec.ofNat 64 0 = seg.addr := BitVec.add_zero _
  rcases Nat.eq_zero_or_pos src.length with hnil | hpos
  · obtain rfl := List.length_eq_zero_iff.1 hnil
    exact ⟨b, rfl, hb, fun addr n _ => Keeps.refl b addr n, rfl⟩
  · obtain ⟨b', hw, hbytes⟩ := writeGuest_at hb hat (i := 0) hpos (by omega)
    rw [hzero] at hw
    have hb' := (SameLayout.writeGuest hw).wired hb
    refine ⟨b', hw, hb', fun addr n hclear p' hat' k hk => ?_, ?_⟩
    · exact writeGuest_apart hb hw hat' hk fun j hj => hclear j (by omega) k hk
    · have hread := readGuest_at hb' hat (i := 0) (k := src.length) (by omega)
      rw [hzero] at hread
      rw [hread, map_byteAt_eq fun j hj => by rw [hbytes, if_pos (by omega), Nat.sub_zero]]

/-- A payload that fits is scattered over disjoint buffers and read back from them. -/
theorem writePayload_spec (hb : SocWired b) {segs : List TransferSegment} {data : List U8}
    (hram : ∀ seg ∈ segs, seg.InRam)
    (hpair : segs.Pairwise fun seg seg' => seg.ClearOf seg'.addr seg'.len.toNat)
    (hroom : data.length ≤ VirtioNetMmio.chainLength segs) :
    ∃ b', VirtioNetMmio.writePayload b segs data = (b', true) ∧ SocWired b' ∧
      (∀ addr n, (∀ seg ∈ segs, seg.ClearOf addr n) → Keeps b b' addr n) ∧
      readChain b' segs data.length = some data := by
  induction segs generalizing b data with
  | nil =>
    obtain rfl : data = [] := List.length_eq_zero_iff.1 (Nat.le_zero.1 hroom)
    exact ⟨b, rfl, hb, fun addr n _ => Keeps.refl b addr n, rfl⟩
  | cons seg segs ih =>
    rcases List.eq_nil_or_concat data with rfl | hsome
    · exact ⟨b, rfl, hb, fun addr n _ => Keeps.refl b addr n, rfl⟩
    have hpos : 0 < data.length := by
      obtain ⟨init, last, rfl⟩ := hsome
      rw [List.concat_eq_append, List.length_append, List.length_singleton]
      exact Nat.succ_pos _
    obtain ⟨hfirst, hrest⟩ := List.pairwise_cons.1 hpair
    have hroom' : data.length ≤ seg.len.toNat + VirtioNetMmio.chainLength segs := hroom
    have htake : (data.take seg.len.toNat).length ≤ seg.len.toNat := List.length_take_le _ _
    obtain ⟨b₁, hw, hb₁, hother, hread⟩ :=
      writeGuest_buffer hb (hram seg List.mem_cons_self) htake
    have hroomRest : (data.drop seg.len.toNat).length ≤ VirtioNetMmio.chainLength segs := by
      rw [List.length_drop]
      omega
    obtain ⟨b₂, hloop, hb₂, hother₂, hread₂⟩ :=
      ih hb₁ (fun s hs => hram s (List.mem_cons_of_mem _ hs)) hrest hroomRest
    refine ⟨b₂, ?_, hb₂, ?_, ?_⟩
    · cases data with
      | nil => exact absurd hpos (Nat.lt_irrefl _)
      | cons d data =>
        rw [VirtioNetMmio.writePayload, hw]
        · exact hloop
        · exact nofun
    · intro addr n hclear
      exact (hother addr n (hclear seg List.mem_cons_self)).trans
        (hother₂ addr n fun s hs => hclear s (List.mem_cons_of_mem _ hs))
    · -- the later buffers are apart from this one
      have hkept : Keeps b₁ b₂ seg.addr seg.len.toNat :=
        hother₂ _ _ fun s hs => (hfirst s hs).symm
      have hfirstRead := readGuest_keeps hb₁ hb₂ (hram seg List.mem_cons_self) hkept
        (i := 0) (k := (data.take seg.len.toNat).length) (by omega)
      rw [show seg.addr + BitVec.ofNat 64 0 = seg.addr from BitVec.add_zero _, hread,
        List.length_take] at hfirstRead
      rw [List.length_drop] at hread₂
      rw [readChain_cons _ _ _ hpos, hfirstRead, hread₂]
      exact congrArg some (List.take_append_drop _ _)

end Aarchvm.Virtio
