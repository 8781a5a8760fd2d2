import Aarchvm.Lib.Ring
import Aarchvm.Virtio.GuestMemory

/-!
# What `process_queue` does to the rings

For rings in RAM that no request buffer reaches into: every available entry is served
once and in order, and its element goes to the slot of its used index. The indices are
16-bit words, the slots are taken modulo a queue size that need not divide `2 ^ 16`.
-/
namespace Aarchvm.Virtio

open SocBus Lib.Ring

variable {D : Type}

/-! ## The rings as the guest sees them -/

/-- The head index in a slot of the available ring. -/
def availRing (b : Bus D) (q : QueueState) (s : Nat) : Option U16 :=
  readGuestU16 b (q.availAddr + BitVec.ofNat 64 (4 + s * 2))

/-- The element in a slot of the used ring: a head index and a length. -/
def usedRing (b : Bus D) (q : QueueState) (s : Nat) : Option (U32 × U32) :=
  (readGuest b (q.usedAddr + BitVec.ofNat 64 (4 + s * 8)) 8).map fun bytes =>
    ((leWord bytes 0 4).setWidth 32, (leWord bytes 4 4).setWidth 32)

def usedIndex (b : Bus D) (q : QueueState) : Option U16 := readGuestU16 b (q.usedAddr + 2)

def QueueState.availBytes (q : QueueState) : Nat := 4 + q.num.toNat * 2
def QueueState.usedBytes (q : QueueState) : Nat := 4 + q.num.toNat * 8

/-- Both rings are in RAM, apart from each other. -/
structure RingsInRam (q : QueueState) : Prop where
  avail : ∃ p, At q.availAddr q.availBytes p
  used : ∃ p, At q.usedAddr q.usedBytes p
  apart : Apart q.usedAddr q.usedBytes q.availAddr q.availBytes

/-- No byte of `n` from `addr` is in a ring. -/
def ClearOfRings (q : QueueState) (addr : U64) (n : Nat) : Prop :=
  Apart addr n q.availAddr q.availBytes ∧ Apart addr n q.usedAddr q.usedBytes

instance (q : QueueState) (addr : U64) (n : Nat) : Decidable (ClearOfRings q addr n) :=
  inferInstanceAs (Decidable (_ ∧ _))

theorem add_four (a : U64) (k : Nat) : a + 4 + BitVec.ofNat 64 k = a + BitVec.ofNat 64 (4 + k) := by
  rw [BitVec.ofNat_add, ← BitVec.add_assoc]
  rfl

theorem ringAddr_eq (q : QueueState) :
    ringAddr q = q.availAddr + BitVec.ofNat 64 (4 + slot q.num.toNat q.lastAvailIdx * 2) := by
  have hmod : (q.lastAvailIdx.setWidth 32 % q.num).toNat = slot q.num.toNat q.lastAvailIdx := by
    rw [BitVec.toNat_umod, BitVec.toNat_setWidth_of_le (by decide)]
    rfl
  have hlt : slot q.num.toNat q.lastAvailIdx < 2 ^ 16 :=
    Nat.lt_of_le_of_lt (Nat.mod_le _ _) q.lastAvailIdx.isLt
  have htwo : (2 : U64).toNat = 2 := rfl
  have hoff : (q.lastAvailIdx.setWidth 32 % q.num).setWidth 64 * 2 =
      BitVec.ofNat 64 (slot q.num.toNat q.lastAvailIdx * 2) := by
    apply BitVec.eq_of_toNat_eq
    rw [BitVec.toNat_mul, BitVec.toNat_setWidth, hmod, BitVec.toNat_ofNat, htwo]
    omega
  rw [← add_four, ringAddr, hoff]

theorem usedElemAddr_eq (q : QueueState) :
    usedElemAddr q = q.usedAddr + BitVec.ofNat 64 (4 + slot q.num.toNat q.usedIdx * 8) := by
  have hmod : (q.usedIdx.setWidth 32 % q.num).toNat = slot q.num.toNat q.usedIdx := by
    rw [BitVec.toNat_umod, BitVec.toNat_setWidth_of_le (by decide)]
    rfl
  have hlt : slot q.num.toNat q.usedIdx < 2 ^ 16 :=
    Nat.lt_of_le_of_lt (Nat.mod_le _ _) q.usedIdx.isLt
  have height : (8 : U32).toNat = 8 := rfl
  have hoff : ((q.usedIdx.setWidth 32 % q.num) * 8).setWidth 64 =
      BitVec.ofNat 64 (slot q.num.toNat q.usedIdx * 8) := by
    apply BitVec.eq_of_toNat_eq
    rw [BitVec.toNat_setWidth, BitVec.toNat_mul, hmod, BitVec.toNat_ofNat, height]
    omega
  rw [← add_four, usedElemAddr, hoff]

/-! ## Reading a field -/

theorem getD_map_range (f : Nat → U8) {n k : Nat} (hk : k < n) :
    ((List.range n).map f).getD k 0 = f k := by
  rw [List.getD_eq_getElem?_getD, List.getElem?_map, List.getElem?_range hk]
  rfl

/-- The bytes of a stretch decide what is read there. -/
theorem readGuest_congr {b b' : Bus D} (hb : SocWired b) (hb' : SocWired b') {pa : U64} {n : Nat}
    {p : RamPtr} (hat : At pa n p) {i k : Nat} (hk : i + k ≤ n)
    (h : ∀ j < k, byteAt b' p (i + j) = byteAt b p (i + j)) :
    readGuest b' (pa + BitVec.ofNat 64 i) (BitVec.ofNat 64 k) =
      readGuest b (pa + BitVec.ofNat 64 i) (BitVec.ofNat 64 k) := by
  rw [readGuest_at hb hat hk, readGuest_at hb' hat hk]
  congr 1
  exact List.map_congr_left fun j hj => h j (List.mem_range.1 hj)

/-- A field that holds the bytes of a value is read as the value. -/
theorem leWord_of_bytes {n m off : Nat} (hn : n ≤ 8) (hm : off + n ≤ m) {f : Nat → U8}
    {value : BitVec (8 * n)} (h : ∀ i < n, f (off + i) = bytesOf value i) :
    (leWord ((List.range m).map f) off n).setWidth (8 * n) = value := by
  apply loadLe_of_bytes hn
  intro i hi
  rw [getD_map_range f (by omega), h i hi]

/-- What a store of a little-endian value leaves in its bytes. -/
theorem byteAt_store {b b' : Bus D} {p : RamPtr} {i n : Nat} {value : U64}
    (h : ∀ k, byteAt b' p k = if i ≤ k ∧ k < i + (leBytes n value).length then
      (leBytes n value).getD (k - i) 0 else byteAt b p k) :
    (∀ j < n, byteAt b' p (i + j) = bytesOf value j) ∧
      ∀ k, k < i ∨ i + n ≤ k → byteAt b' p k = byteAt b p k := by
  rw [length_leBytes] at h
  constructor
  · intro j hj
    rw [h, if_pos (by omega), Nat.add_sub_cancel_left, getD_leBytes hj]
  · intro k hk
    rw [h, if_neg (by omega)]

/-- A little-endian store in RAM goes through, with its value in its bytes and everything else
in the window as it was. -/
theorem storeField {b : Bus D} (hb : SocWired b) {pa : U64} {m : Nat} {p : RamPtr} (hat : At pa m p)
    {i n : Nat} (hn : 0 < n) (hk : i + n ≤ m) (value : U64) :
    ∃ b', writeGuest b (pa + BitVec.ofNat 64 i) (leBytes n value) = some b' ∧ SocWired b' ∧
      (∀ j < n, byteAt b' p (i + j) = bytesOf value j) ∧
      (∀ k, k < i ∨ i + n ≤ k → byteAt b' p k = byteAt b p k) ∧
      ∀ {pa' : U64} {m' : Nat} {p' : RamPtr}, At pa' m' p' → Apart pa m pa' m' →
        ∀ k < m', byteAt b' p' k = byteAt b p' k := by
  have hlen := length_leBytes n value
  obtain ⟨b', hw, hbytes⟩ := writeGuest_at hb hat (hlen.symm ▸ hn) (hlen.symm ▸ hk)
  obtain ⟨hin, hout⟩ := byteAt_store hbytes
  refine ⟨b', hw, (SameLayout.writeGuest hw).wired hb, hin, hout, ?_⟩
  intro pa' m' p' hat' hapart k hk'
  apply writeGuest_apart hb hw hat' hk'
  intro j hj
  rw [hlen] at hj
  rw [BitVec.add_assoc, ← BitVec.ofNat_add]
  exact hapart _ (by omega) _ hk'

/-! ## One entry of the used ring -/

section Rings

variable {b b' : Bus D} {q : QueueState}

theorem RingsInRam.readAvail (hrings : RingsInRam q) (hb : SocWired b) {i : Nat}
    (hi : i < q.num.toNat) : ∃ headIndex, availRing b q i = some headIndex := by
  obtain ⟨pa, hpa⟩ := hrings.avail
  have hsize : q.availBytes = 4 + q.num.toNat * 2 := rfl
  unfold availRing readGuestU16
  rw [show (2 : U64) = BitVec.ofNat 64 2 from rfl, readGuest_at hb hpa (by omega)]
  exact ⟨_, rfl⟩

theorem RingsInRam.readAvailIdx (hrings : RingsInRam q) (hb : SocWired b) :
    ∃ availIdx, readGuestU16 b (q.availAddr + 2) = some availIdx := by
  obtain ⟨pa, hpa⟩ := hrings.avail
  have hsize : q.availBytes = 4 + q.num.toNat * 2 := rfl
  have hread := @readGuest_at _ _ hb _ _ _ hpa 2 2 (by omega)
  unfold readGuestU16
  rw [show (2 : U64) = BitVec.ofNat 64 2 from rfl, hread]
  exact ⟨_, rfl⟩

theorem availRing_congr (hb : SocWired b) (hb' : SocWired b') {p : RamPtr}
    (hat : At q.availAddr q.availBytes p)
    (h : ∀ k < q.availBytes, byteAt b' p k = byteAt b p k) {i : Nat} (hi : i < q.num.toNat) :
    availRing b' q i = availRing b q i := by
  have hsize : q.availBytes = 4 + q.num.toNat * 2 := rfl
  unfold availRing readGuestU16
  rw [show (2 : U64) = BitVec.ofNat 64 2 from rfl,
    readGuest_congr hb hb' hat (by omega) fun j hj => h _ (by omega)]

theorem usedRing_congr (hb : SocWired b) (hb' : SocWired b') {p : RamPtr}
    (hat : At q.usedAddr q.usedBytes p) {i : Nat} (hi : i < q.num.toNat)
    (h : ∀ j < 8, byteAt b' p (4 + i * 8 + j) = byteAt b p (4 + i * 8 + j)) :
    usedRing b' q i = usedRing b q i := by
  have hsize : q.usedBytes = 4 + q.num.toNat * 8 := rfl
  unfold usedRing
  rw [show (8 : U64) = BitVec.ofNat 64 8 from rfl, readGuest_congr hb hb' hat (by omega) h]

theorem usedIndex_congr (hb : SocWired b) (hb' : SocWired b') {p : RamPtr}
    (hat : At q.usedAddr q.usedBytes p) (h : ∀ j < 2, byteAt b' p (2 + j) = byteAt b p (2 + j)) :
    usedIndex b' q = usedIndex b q := by
  have hsize : q.usedBytes = 4 + q.num.toNat * 8 := rfl
  unfold usedIndex readGuestU16
  rw [show (2 : U64) = BitVec.ofNat 64 2 from rfl, readGuest_congr hb hb' hat (by omega) h]

/-- The element is in the slot of the used index and the index one further; nothing outside the
used ring changed. -/
structure Published (b b' : Bus D) (q : QueueState) (headIndex : U16) (usedLen : U32) : Prop where
  wired : SocWired b'
  other : ∀ {pa : U64} {n : Nat} {p : RamPtr}, At pa n p → Apart q.usedAddr q.usedBytes pa n →
    ∀ k < n, byteAt b' p k = byteAt b p k
  used : ∀ i < q.num.toNat, usedRing b' q i =
    Function.update (usedRing b q) (slot q.num.toNat q.usedIdx)
      (some (headIndex.setWidth 32, usedLen)) i
  index : usedIndex b' q = some (q.usedIdx + 1)

/-- The element and then the index go through. -/
theorem publish (hb : SocWired b) (hrings : RingsInRam q) (hnum : 0 < q.num.toNat)
    (headIndex : U16) (usedLen : U32) :
    ∃ b₁ b', writeUsed b q headIndex usedLen = (b₁, true) ∧
      writeGuestU16 b₁ (q.usedAddr + 2) (q.usedIdx + 1) = some b' ∧
      Published b b' q headIndex usedLen := by
  obtain ⟨pu, hpu⟩ := hrings.used
  have hslot := slot_lt hnum q.usedIdx
  generalize hs : slot q.num.toNat q.usedIdx = s at *
  have hsize : q.usedBytes = 4 + q.num.toNat * 8 := rfl
  -- the head index, the length and then the used index
  obtain ⟨b₁, hw₁, hb₁, hin₁, hout₁, hother₁⟩ :=
    @storeField _ _ hb _ _ _ hpu (4 + s * 8) 4 (by decide) (by omega)
      ((headIndex.setWidth 32).setWidth 64)
  obtain ⟨b₂, hw₂, hb₂, hin₂, hout₂, hother₂⟩ :=
    @storeField _ _ hb₁ _ _ _ hpu (4 + s * 8 + 4) 4 (by decide) (by omega) (usedLen.setWidth 64)
  obtain ⟨b₃, hw₃, hb₃, hin₃, hout₃, hother₃⟩ :=
    @storeField _ _ hb₂ _ _ _ hpu 2 2 (by decide) (by omega) ((q.usedIdx + 1).setWidth 64)
  have hhead : ∀ j < 4, byteAt b₃ pu (4 + s * 8 + j) = bytesOf (headIndex.setWidth 32) j := by
    intro j hj
    rw [hout₃ _ (by omega), hout₂ _ (by omega), hin₁ j hj]
    exact bytesOf_setWidth (headIndex.setWidth 32) (show j < 8 by omega)
  have hlen : ∀ j < 4, byteAt b₃ pu (4 + s * 8 + (4 + j)) = bytesOf usedLen j := by
    intro j hj
    rw [hout₃ _ (by omega), ← Nat.add_assoc, hin₂ j hj]
    exact bytesOf_setWidth usedLen (show j < 8 by omega)
  have hindex : ∀ j < 2, byteAt b₃ pu (2 + j) = bytesOf (q.usedIdx + 1) j := by
    intro j hj
    rw [hin₃ j hj]
    exact bytesOf_setWidth (q.usedIdx + 1) (show j < 8 by omega)
  refine ⟨b₂, b₃, ?_, ?_, hb₃, ?_, ?_, ?_⟩
  · unfold writeUsed writeGuestU32
    rw [usedElemAddr_eq, hs, hw₁]
    dsimp only
    rw [BitVec.ofNat_add, ← BitVec.add_assoc] at hw₂
    rw [show (4 : U64) = BitVec.ofNat 64 4 from rfl, hw₂]
  · unfold writeGuestU16
    rw [show (2 : U64) = BitVec.ofNat 64 2 from rfl, hw₃]
  · intro pa n p hat hapart k hk
    rw [hother₃ hat hapart k hk, hother₂ hat hapart k hk, hother₁ hat hapart k hk]
  · intro i hi
    rw [hs]
    by_cases heq : i = s
    · subst heq
      unfold usedRing
      rw [Function.update_self, show (8 : U64) = BitVec.ofNat 64 8 from rfl,
        readGuest_at hb₃ hpu (by omega), Option.map_some]
      have hheadWord := @leWord_of_bytes 4 8 0 (by decide) (by decide)
        (fun j => byteAt b₃ pu (4 + i * 8 + j)) (headIndex.setWidth 32) (fun j hj => by
          rw [Nat.zero_add]
          exact hhead j hj)
      have hlenWord := @leWord_of_bytes 4 8 4 (by decide) (by decide)
        (fun j => byteAt b₃ pu (4 + i * 8 + j)) usedLen hlen
      rw [hheadWord, hlenWord]
    · rw [Function.update_of_ne heq]
      refine usedRing_congr hb hb₃ hpu hi fun j hj => ?_
      rw [hout₃ _ (by omega), hout₂ _ (by omega), hout₁ _ (by omega)]
  · unfold usedIndex readGuestU16
    rw [show (2 : U64) = BitVec.ofNat 64 2 from rfl, readGuest_at hb₃ hpu (by omega),
      Option.map_some]
    have hword := @leWord_of_bytes 2 2 0 (by decide) (by decide)
      (fun j => byteAt b₃ pu (2 + j)) (q.usedIdx + 1) (fun j hj => by
        rw [Nat.zero_add]
        exact hindex j hj)
    exact congrArg some hword

/-! ## Entries in a row -/

/-- The elements were put into the used ring one after the other, for the entries of the available
ring in their order. -/
structure Consumed (b b' : Bus D) (q q' : QueueState) (elems : List (U16 × U32)) : Prop where
  heads : elems.map (some ·.1) =
    entries q.num.toNat (availRing b q) q.lastAvailIdx elems.length
  queue : q' = { q with
    lastAvailIdx := q.lastAvailIdx + BitVec.ofNat 16 elems.length
    usedIdx := q.usedIdx + BitVec.ofNat 16 elems.length }
  used : ∀ i < q.num.toNat, usedRing b' q i =
    fill q.num.toNat (usedRing b q) q.usedIdx (elems.map fun e => some (e.1.setWidth 32, e.2)) i
  index : usedIndex b' q =
    if elems = [] then usedIndex b q else some (q.usedIdx + BitVec.ofNat 16 elems.length)

theorem consumed_nil (b : Bus D) (q : QueueState) : Consumed b b q q [] where
  heads := rfl
  queue := by
    rw [List.length_nil, show q.lastAvailIdx + BitVec.ofNat 16 0 = q.lastAvailIdx from
      BitVec.add_zero _, show q.usedIdx + BitVec.ofNat 16 0 = q.usedIdx from BitVec.add_zero _]
  used _ _ := rfl
  index := rfl

theorem ofNat_succ (idx : U16) (n : Nat) :
    idx + 1 + BitVec.ofNat 16 n = idx + BitVec.ofNat 16 (n + 1) := by
  rw [Nat.add_comm, BitVec.ofNat_add, BitVec.add_assoc]
  rfl

/-- One entry, and then the others. -/
theorem Consumed.cons {b'' : Bus D} {q' : QueueState} {headIndex : U16} {usedLen : U32}
    {elems : List (U16 × U32)} (hnum : 0 < q.num.toNat)
    (hentry : availRing b q (slot q.num.toNat q.lastAvailIdx) = some headIndex)
    (havail : ∀ i < q.num.toNat, availRing b' q i = availRing b q i)
    (hused : ∀ i < q.num.toNat, usedRing b' q i =
      Function.update (usedRing b q) (slot q.num.toNat q.usedIdx)
        (some (headIndex.setWidth 32, usedLen)) i)
    (hindex : usedIndex b' q = some (q.usedIdx + 1))
    (h : Consumed b' b'' { q with
      lastAvailIdx := q.lastAvailIdx + 1, usedIdx := q.usedIdx + 1 } q' elems) :
    Consumed b b'' q q' ((headIndex, usedLen) :: elems) where
  heads := by
    rw [List.map_cons, List.length_cons, entries, hentry,
      ← entries_congr hnum havail (q.lastAvailIdx + 1) elems.length]
    exact congrArg _ h.heads
  queue := by
    rw [h.queue, List.length_cons, ← ofNat_succ, ← ofNat_succ]
  used i hi := by
    rw [List.map_cons, fill,
      ← fill_congr hused (q.usedIdx + 1) (elems.map fun e => some (e.1.setWidth 32, e.2)) i hi]
    exact h.used i hi
  index := by
    rw [if_neg (List.cons_ne_nil _ _), List.length_cons, ← ofNat_succ]
    refine h.index.trans ?_
    by_cases hnil : elems = []
    · rw [if_pos hnil, hnil]
      exact hindex.trans (congrArg some (BitVec.add_zero _).symm)
    · rw [if_neg hnil]

/-- The used ring stays as the entries left it. -/
theorem Consumed.after {b'' : Bus D} {q' : QueueState} {elems : List (U16 × U32)}
    (h : Consumed b b' q q' elems) (hb' : SocWired b') (hb'' : SocWired b'') {p : RamPtr}
    (hat : At q.usedAddr q.usedBytes p)
    (hkept : ∀ k < q.usedBytes, byteAt b'' p k = byteAt b' p k) : Consumed b b'' q q' elems := by
  have hsize : q.usedBytes = 4 + q.num.toNat * 8 := rfl
  refine ⟨h.heads, h.queue, fun i hi => ?_, ?_⟩
  · rw [usedRing_congr hb' hb'' hat hi fun j hj => hkept _ (by omega), h.used i hi]
  · rw [usedIndex_congr hb' hb'' hat fun j hj => hkept _ (by omega), h.index]

/-- The rings were already so before. -/
theorem Consumed.before {b'' : Bus D} {q' : QueueState} {elems : List (U16 × U32)}
    (h : Consumed b' b'' q q' elems) (hnum : 0 < q.num.toNat) (hb : SocWired b) (hb' : SocWired b')
    {p p' : RamPtr} (hat : At q.availAddr q.availBytes p) (hat' : At q.usedAddr q.usedBytes p')
    (havail : ∀ k < q.availBytes, byteAt b' p k = byteAt b p k)
    (hused : ∀ k < q.usedBytes, byteAt b' p' k = byteAt b p' k) : Consumed b b'' q q' elems := by
  have hsize : q.usedBytes = 4 + q.num.toNat * 8 := rfl
  have hring : ∀ i < q.num.toNat, usedRing b' q i = usedRing b q i :=
    fun i hi => usedRing_congr hb hb' hat' hi fun j hj => hused _ (by omega)
  refine ⟨?_, h.queue, fun i hi => ?_, ?_⟩
  · rw [h.heads]
    exact entries_congr hnum (fun i hi => availRing_congr hb hb' hat havail hi) _ _
  · rw [h.used i hi]
    exact fill_congr hring _ _ i hi
  · rw [h.index, usedIndex_congr hb hb' hat' fun j hj => hused _ (by omega)]

end Rings

/-! ## One request -/

theorem put_apart {b : Bus D} (hb : SocWired b) {pieces : List Piece} {pa : U64} {n : Nat}
    {p : RamPtr} (hat : At pa n p) (h : ∀ x ∈ pieces, Apart x.addr x.bytes.length pa n) {k : Nat}
    (hk : k < n) : SocWired (put b pieces) ∧ byteAt (put b pieces) p k = byteAt b p k := by
  refine ⟨(sameLayout_put b pieces).wired hb, ?_⟩
  induction pieces generalizing b with
  | nil => rfl
  | cons x pieces ih =>
    have hrest : ∀ y ∈ pieces, Apart y.addr y.bytes.length pa n :=
      fun y hy => h y (List.mem_cons_of_mem _ hy)
    show byteAt (put ((writeGuest b x.addr x.bytes).getD b) pieces) p k = _
    cases hw : writeGuest b x.addr x.bytes with
    | none => exact ih hb hrest
    | some b' =>
      have hb' := (SameLayout.writeGuest hw).wired hb
      calc byteAt (put b' pieces) p k = byteAt b' p k := ih hb' hrest
        _ = byteAt b p k := by
          apply writeGuest_apart hb hw hat hk
          intro j hj
          exact h x List.mem_cons_self j hj k hk

namespace VirtioBlkMmio

/-- No buffer that a request writes reaches into a ring. -/
def Served.BuffersClear (s : Served D) : Prop :=
  ∀ r, s.request = some r →
    (∀ seg ∈ r.segments, seg.writable = true → ClearOfRings s.device.queue seg.addr seg.len.toNat) ∧
      ClearOfRings s.device.queue r.statusAddr 1

instance (s : Served D) : Decidable s.BuffersClear :=
  match h : s.request with
  | none => .isTrue fun _ hr => nomatch h.symm.trans hr
  | some r =>
    decidable_of_iff
      ((∀ seg ∈ r.segments, seg.writable = true →
          ClearOfRings s.device.queue seg.addr seg.len.toNat) ∧
        ClearOfRings s.device.queue r.statusAddr 1)
      ⟨fun hr _ hr' => Option.some.inj (h.symm.trans hr') ▸ hr, fun hs => hs r h⟩

/-- What the device writes for a request into the used ring. -/
def Served.element (s : Served D) : U32 × U32 :=
  (s.headIndex.setWidth 32, s.device.usedLength s.bus s.headIndex)

theorem writtenPieces_clear {s : Served D} (h : s.BuffersClear) {x : Piece}
    (hx : x ∈ s.device.writtenPieces s.bus s.headIndex) :
    ClearOfRings s.device.queue x.addr x.bytes.length := by
  cases hr : readRequest s.device.queue s.bus s.headIndex with
  | none =>
    simp only [writtenPieces, hr] at hx
    exact absurd hx List.not_mem_nil
  | some r =>
    obtain ⟨hsegs, hstatus⟩ := h r hr
    rcases writtenPieces_inside hr hx with ⟨seg, hmem, hw, haddr, hlen⟩ | ⟨haddr, hlen⟩
    · obtain ⟨havail, hused⟩ := hsegs seg hmem hw
      rw [haddr]
      exact ⟨havail.shorter hlen, hused.shorter hlen⟩
    · rw [haddr, hlen]
      exact hstatus

/-- A turn of the loop goes through: the available ring is as it was, the used ring has the
request's element in the slot of the used index, and both indices have moved on. -/
theorem completeRequest_clear {s : Served D} (hb : SocWired s.bus)
    (hrings : RingsInRam s.device.queue) (hnum : 0 < s.device.queue.num.toNat)
    (hclear : s.BuffersClear) :
    ∃ image b', s.device.completeRequest s.bus s.headIndex =
        ({ s.device with
            image := image
            queue := { s.device.queue with
              lastAvailIdx := s.device.queue.lastAvailIdx + 1
              usedIdx := s.device.queue.usedIdx + 1 } }, b', true) ∧
      SocWired b' ∧
      (∀ i < s.device.queue.num.toNat,
        availRing b' s.device.queue i = availRing s.bus s.device.queue i) ∧
      (∀ i < s.device.queue.num.toNat, usedRing b' s.device.queue i =
        Function.update (usedRing s.bus s.device.queue)
          (slot s.device.queue.num.toNat s.device.queue.usedIdx) (some s.element) i) ∧
      usedIndex b' s.device.queue = some (s.device.queue.usedIdx + 1) := by
  obtain ⟨v, b, headIndex⟩ := s
  dsimp only at *
  obtain ⟨pa, hpa⟩ := hrings.avail
  obtain ⟨pu, hpu⟩ := hrings.used
  have hsize : v.queue.usedBytes = 4 + v.queue.num.toNat * 8 := rfl
  -- the request itself
  obtain ⟨hbus, -⟩ := usedLength_iff v b headIndex
  have hpieces : ∀ x ∈ v.writtenPieces b headIndex,
      ClearOfRings v.queue x.addr x.bytes.length := fun x hx => writtenPieces_clear hclear hx
  have hb₁ : SocWired (v.processRequest b headIndex).bus := by
    rw [hbus]
    exact (sameLayout_put b _).wired hb
  have havail₁ : ∀ k < v.queue.availBytes,
      byteAt (v.processRequest b headIndex).bus pa k = byteAt b pa k := by
    intro k hk
    rw [hbus]
    exact (put_apart hb hpa (fun x hx => (hpieces x hx).1) hk).2
  have hused₁ : ∀ k < v.queue.usedBytes,
      byteAt (v.processRequest b headIndex).bus pu k = byteAt b pu k := by
    intro k hk
    rw [hbus]
    exact (put_apart hb hpu (fun x hx => (hpieces x hx).2) hk).2
  -- and its entry in the used ring
  obtain ⟨b₂, b₃, hstore, hindexStore, hb₃, hother, hused, hindex⟩ :=
    publish hb₁ hrings hnum headIndex (v.usedLength b headIndex)
  have havail : ∀ k < v.queue.availBytes, byteAt b₃ pa k = byteAt b pa k := by
    intro k hk
    rw [hother hpa hrings.apart k hk, havail₁ k hk]
  refine ⟨(v.processRequest b headIndex).image, b₃, ?_, hb₃,
    fun i hi => availRing_congr hb hb₃ hpa havail hi, fun i hi => ?_, hindex⟩
  · rw [completeRequest_usedLength, hstore]
    dsimp only
    rw [hindexStore]
  · rw [hused i hi]
    by_cases heq : i = slot v.queue.num.toNat v.queue.usedIdx
    · rw [heq, Function.update_self, Function.update_self]
      rfl
    · rw [Function.update_of_ne heq, Function.update_of_ne heq]
      exact usedRing_congr hb hb₁ hpu hi fun j hj => hused₁ _ (by omega)

/-! ## The whole queue -/

/-- The requests `served` take `v` and `b` to `v'` and `b'`: one for each available entry, in
ring order, with an element for each put into the used ring in the same order. -/
structure Drained (availIdx : U16) (v : VirtioBlkMmio) (b : Bus D) (served : List (Served D))
    (v' : VirtioBlkMmio) (b' : Bus D) : Prop where
  count : served.length = (availIdx - v.queue.lastAvailIdx).toNat
  heads : served.map (some ·.headIndex) =
    entries v.queue.num.toNat (availRing b v.queue) v.queue.lastAvailIdx served.length
  queue : v'.queue = { v.queue with
    lastAvailIdx := availIdx
    usedIdx := v.queue.usedIdx + BitVec.ofNat 16 served.length }
  avail : ∀ i < v.queue.num.toNat, availRing b' v.queue i = availRing b v.queue i
  used : ∀ i < v.queue.num.toNat, usedRing b' v.queue i =
    fill v.queue.num.toNat (usedRing b v.queue) v.queue.usedIdx (served.map (some ·.element)) i
  index : usedIndex b' v.queue =
    if served = [] then usedIndex b v.queue
    else some (v.queue.usedIdx + BitVec.ofNat 16 served.length)

/-- The used element of a request is in its slot until a later one goes there. -/
theorem Drained.element {availIdx : U16} {v v' : VirtioBlkMmio} {b b' : Bus D}
    {served : List (Served D)} (h : Drained availIdx v b served v' b')
    (hnum : 0 < v.queue.num.toNat) {k : Nat} (hk : k < served.length)
    (hlast : ∀ j, k < j → j < served.length →
      slot v.queue.num.toNat (v.queue.usedIdx + BitVec.ofNat 16 j) ≠
        slot v.queue.num.toNat (v.queue.usedIdx + BitVec.ofNat 16 k)) :
    usedRing b' v.queue (slot v.queue.num.toNat (v.queue.usedIdx + BitVec.ofNat 16 k)) =
      some served[k].element := by
  have hlen : (served.map (some ·.element)).length = served.length := List.length_map _
  rw [h.used _ (slot_lt hnum _), fill_at (hlen.symm ▸ hk) fun j hkj hj => hlast j hkj (hlen ▸ hj)]
  exact List.getElem_map _

/-- A slot of the used ring that no request comes to is as it was. -/
theorem Drained.untouched {availIdx : U16} {v v' : VirtioBlkMmio} {b b' : Bus D}
    {served : List (Served D)} (h : Drained availIdx v b served v' b') {i : Nat}
    (hi : i < v.queue.num.toNat)
    (hnone : ∀ k < served.length,
      slot v.queue.num.toNat (v.queue.usedIdx + BitVec.ofNat 16 k) ≠ i) :
    usedRing b' v.queue i = usedRing b v.queue i := by
  have hlen : (served.map (some ·.element)).length = served.length := List.length_map _
  rw [h.used _ hi, fill_of_ne fun k hk => hnone k (hlen ▸ hk)]

/-- The entry of a request: its head index and its used length. -/
def Served.entry (s : Served D) : U16 × U32 := (s.headIndex, s.device.usedLength s.bus s.headIndex)

theorem Drained.consumed {availIdx : U16} {v v' : VirtioBlkMmio} {b b' : Bus D}
    {served : List (Served D)} (h : Drained availIdx v b served v' b') :
    Consumed b b' v.queue v'.queue (served.map Served.entry) where
  heads := by
    rw [List.map_map, List.length_map]
    exact h.heads
  queue := by
    have hidx : v.queue.lastAvailIdx + BitVec.ofNat 16 served.length = availIdx := by
      rw [h.count, BitVec.ofNat_toNat, BitVec.setWidth_eq, BitVec.add_comm, BitVec.sub_add_cancel]
    rw [h.queue, List.length_map, hidx]
  used i hi := by
    rw [List.map_map]
    exact h.used i hi
  index := by
    rw [h.index, List.length_map]
    simp only [List.map_eq_nil_iff]

theorem drained_nil {v : VirtioBlkMmio} {b : Bus D} :
    Drained v.queue.lastAvailIdx v b [] v b where
  count := by
    rw [BitVec.sub_self]
    rfl
  heads := rfl
  queue := by
    rw [show v.queue.usedIdx + BitVec.ofNat 16 ([] : List (Served D)).length = v.queue.usedIdx from
      BitVec.add_zero _]
  avail := fun _ _ => rfl
  used := fun _ _ => rfl
  index := rfl

/-- The loop of `process_queue`, by induction on the turns left. -/
theorem processLoop_drained {availIdx : U16} {fuel : Nat} {v : VirtioBlkMmio} {b : Bus D}
    (any : Bool) (hb : SocWired b) (hrings : RingsInRam v.queue) (hnum : 0 < v.queue.num.toNat)
    (hfuel : (availIdx - v.queue.lastAvailIdx).toNat < fuel)
    (hclear : ∀ s ∈ servedLoop availIdx fuel v b, s.BuffersClear) :
    ∃ v' b', processLoop availIdx fuel v b any =
        (v', b', any || !(servedLoop availIdx fuel v b).isEmpty) ∧
      v'.interruptStatus = v.interruptStatus ∧
      Drained availIdx v b (servedLoop availIdx fuel v b) v' b' := by
  induction fuel generalizing v b any with
  | zero => exact absurd hfuel (Nat.not_lt_zero _)
  | succ fuel ih =>
    unfold servedLoop at hclear ⊢
    unfold processLoop
    by_cases hdone : v.queue.lastAvailIdx = availIdx
    · subst hdone
      rw [if_pos rfl, if_pos rfl]
      exact ⟨v, b, by rw [List.isEmpty_nil, Bool.not_true, Bool.or_false], rfl, drained_nil⟩
    rw [if_neg hdone] at hclear
    rw [if_neg hdone, if_neg hdone]
    obtain ⟨headIndex, hentry⟩ := hrings.readAvail hb (slot_lt hnum v.queue.lastAvailIdx)
    have hhead : readGuestU16 b (ringAddr v.queue) = some headIndex := by
      rw [ringAddr_eq]
      exact hentry
    rw [hhead] at hclear ⊢
    dsimp only at hclear ⊢
    obtain ⟨image, b', hturn, hb', havail, hused, hindex⟩ :=
      @completeRequest_clear _ ⟨v, b, headIndex⟩ hb hrings hnum (hclear _ List.mem_cons_self)
    dsimp only at hturn havail hused hindex
    rw [hturn] at hclear ⊢
    dsimp only at hclear ⊢
    have hcount := toNat_sub_succ hdone
    obtain ⟨v', b'', hloop, hirq, hrest⟩ := @ih
      { v with
        image := image
        queue := { v.queue with
          lastAvailIdx := v.queue.lastAvailIdx + 1
          usedIdx := v.queue.usedIdx + 1 } } b' true hb' ⟨hrings.avail, hrings.used, hrings.apart⟩
      hnum (by dsimp only; omega) fun s hs => hclear s (List.mem_cons_of_mem _ hs)
    refine ⟨v', b'', ?_, hirq, ?_⟩
    · rw [hloop, Bool.true_or, List.isEmpty_cons, Bool.not_false, Bool.or_true]
    · generalize servedLoop availIdx fuel _ b' = served at hrest ⊢
      have hall := Consumed.cons hnum hentry havail hused hindex hrest.consumed
      have hlen : (served.map Served.entry).length = served.length := List.length_map _
      refine ⟨?_, ?_, ?_, ?_, ?_, ?_⟩
      · rw [List.length_cons, hrest.count, hcount]
      · have hheads := hall.heads
        rw [List.length_cons, hlen, List.map_cons, List.map_map] at hheads
        exact hheads
      · have hidx := ofNat_succ v.queue.usedIdx served.length
        rw [hrest.queue, List.length_cons, ← hidx]
      · intro i hi
        rw [← havail i hi]
        exact hrest.avail i hi
      · intro i hi
        have hfill := hall.used i hi
        rw [List.map_cons, List.map_map] at hfill
        exact hfill
      · have hlast := hall.index
        rw [if_neg (List.cons_ne_nil _ _), List.length_cons, hlen] at hlast
        rw [if_neg (List.cons_ne_nil _ _), List.length_cons]
        exact hlast

/-- The requests completed one after the other, each as the one before left device and memory. -/
def completeAll (m : VirtioBlkMmio × Bus D) (served : List (Served D)) : VirtioBlkMmio × Bus D :=
  served.foldl (fun m s =>
    ((m.1.completeRequest m.2 s.headIndex).1, (m.1.completeRequest m.2 s.headIndex).2.1)) m

/-- The loop completes the requests it comes to and no others, and comes to each as its
predecessors left device and memory. -/
theorem processLoop_completes (availIdx : U16) (fuel : Nat) (v : VirtioBlkMmio) (b : Bus D)
    (any : Bool) :
    ((processLoop availIdx fuel v b any).1, (processLoop availIdx fuel v b any).2.1) =
        completeAll (v, b) (servedLoop availIdx fuel v b) ∧
      ∀ before s after, servedLoop availIdx fuel v b = before ++ s :: after →
        (s.device, s.bus) = completeAll (v, b) before := by
  have hnone : ∀ before (s : Served D) after, ([] : List (Served D)) = before ++ s :: after →
      (s.device, s.bus) = completeAll (v, b) before := by
    intro before s after h
    exact absurd h (by simp)
  induction fuel generalizing v b any with
  | zero => exact ⟨rfl, hnone⟩
  | succ fuel ih =>
    unfold processLoop servedLoop
    by_cases hdone : v.queue.lastAvailIdx = availIdx
    · rw [if_pos hdone, if_pos hdone]
      exact ⟨rfl, hnone⟩
    rw [if_neg hdone, if_neg hdone]
    cases readGuestU16 b (ringAddr v.queue) with
    | none => exact ⟨rfl, hnone⟩
    | some headIndex =>
      dsimp only
      rcases hturn : v.completeRequest b headIndex with ⟨v', b', more⟩
      have hfirst : ∀ served, completeAll (v, b) (⟨v, b, headIndex⟩ :: served) =
          completeAll (v', b') served := by
        intro served
        rw [completeAll, List.foldl_cons, hturn]
        rfl
      have hsplit : ∀ served : List (Served D),
          (∀ before s after, served = before ++ s :: after →
            (s.device, s.bus) = completeAll (v', b') before) →
          ∀ before s after, (⟨v, b, headIndex⟩ : Served D) :: served = before ++ s :: after →
            (s.device, s.bus) = completeAll (v, b) before := by
        intro served hrest before s after h
        cases before with
        | nil =>
          obtain ⟨rfl, -⟩ := List.cons.inj h
          rfl
        | cons first before =>
          obtain ⟨rfl, htail⟩ := List.cons.inj h
          rw [hfirst]
          exact hrest before s after htail
      cases more with
      | false =>
        dsimp only
        rw [hfirst]
        exact ⟨rfl, hsplit [] fun before s after h => absurd h (by simp)⟩
      | true =>
        obtain ⟨hstate, hrest⟩ := ih v' b' true fun before s after h => absurd h (by simp)
        dsimp only
        rw [hfirst]
        exact ⟨hstate, hsplit _ hrest⟩

/-- A notification completes the requests it serves and no others: the memory, the image and the
queue are as they leave them, and each is come to as those before it left them. -/
theorem processQueue_completes (v : VirtioBlkMmio) (b : Bus D) (queueIndex : U32) :
    ((v.processQueue b queueIndex).2 = (completeAll (v, b) (servedQueue v b queueIndex)).2 ∧
      (v.processQueue b queueIndex).1.image =
        (completeAll (v, b) (servedQueue v b queueIndex)).1.image ∧
      (v.processQueue b queueIndex).1.queue =
        (completeAll (v, b) (servedQueue v b queueIndex)).1.queue) ∧
      ∀ before s after, servedQueue v b queueIndex = before ++ s :: after →
        (s.device, s.bus) = completeAll (v, b) before := by
  unfold processQueue servedQueue
  by_cases hguard : queueIndex ≠ 0 ∨ !v.devicePresent ∨ v.queue.idle
  · rw [if_pos hguard, if_pos hguard]
    exact ⟨⟨rfl, rfl, rfl⟩, fun before s after h => absurd h (by simp)⟩
  rw [if_neg hguard, if_neg hguard]
  cases readGuestU16 b (v.queue.availAddr + 2) with
  | none => exact ⟨⟨rfl, rfl, rfl⟩, fun before s after h => absurd h (by simp)⟩
  | some availIdx =>
    obtain ⟨hloop, hcome⟩ := processLoop_completes availIdx (2 ^ 16) v b false
    refine ⟨?_, hcome⟩
    dsimp only
    rcases hcall : processLoop availIdx (2 ^ 16) v b false with ⟨v', b', any⟩
    rw [hcall] at hloop
    rw [← hloop]
    cases any <;> exact ⟨rfl, rfl, rfl⟩

/-- A ready queue with its rings in RAM, clear of the request buffers, is served exactly once:
the requests are the available entries up to the driver's index, in ring order, each gets its
used element, and the interrupt is raised if there were any. -/
theorem processQueue_exactlyOnce {v : VirtioBlkMmio} {b : Bus D} (hb : SocWired b)
    (hpresent : v.devicePresent = true) (hready : v.queue.idle = false)
    (hrings : RingsInRam v.queue) (hclear : ∀ s ∈ servedQueue v b 0, s.BuffersClear) :
    ∃ availIdx, readGuestU16 b (v.queue.availAddr + 2) = some availIdx ∧
      Drained availIdx v b (servedQueue v b 0) (v.processQueue b 0).1 (v.processQueue b 0).2 ∧
      (v.processQueue b 0).1.interruptStatus =
        if servedQueue v b 0 = [] then v.interruptStatus
        else v.interruptStatus ||| kInterruptVring := by
  have hguard : ¬ ((0 : U32) ≠ 0 ∨ !v.devicePresent ∨ v.queue.idle) := by
    simp [hpresent, hready]
  have hnum : 0 < v.queue.num.toNat := by
    simp only [QueueState.idle, Bool.or_eq_false_iff, beq_eq_false_iff_ne] at hready
    obtain ⟨⟨⟨⟨-, hne⟩, -⟩, -⟩, -⟩ := hready
    rw [Nat.pos_iff_ne_zero]
    exact fun hz => hne (BitVec.eq_of_toNat_eq hz)
  obtain ⟨availIdx, havail⟩ := hrings.readAvailIdx hb
  have hserved : servedQueue v b 0 = servedLoop availIdx (2 ^ 16) v b := by
    rw [servedQueue, if_neg hguard, havail]
  rw [hserved] at hclear ⊢
  rw [processQueue, if_neg hguard, havail]
  dsimp only
  obtain ⟨v', b', hloop, hirq, hdrained⟩ := processLoop_drained false hb hrings hnum
    (availIdx - v.queue.lastAvailIdx).isLt hclear
  refine ⟨availIdx, rfl, ?_⟩
  rw [Bool.false_or] at hloop
  generalize servedLoop availIdx (2 ^ 16) v b = served at hloop hdrained ⊢
  rw [hloop]
  cases served with
  | nil => exact ⟨hdrained, hirq⟩
  | cons s served =>
    refine ⟨⟨hdrained.count, hdrained.heads, hdrained.queue, hdrained.avail, hdrained.used,
      hdrained.index⟩, ?_⟩
    rw [if_neg (List.cons_ne_nil _ _), ← hirq]
    rfl

/-- The queue of one write request. -/
theorem processQueue_exactlyOnce_oneSegment :
    (servedQueue (zeroDisk 1 (by decide)) (requestBus oneSegment 0) 0).length = 1 ∧
      ∃ availIdx, readGuestU16 (requestBus oneSegment 0) (kSdramBase + 0x100 + 2) = some availIdx ∧
        Drained availIdx (zeroDisk 1 (by decide)) (requestBus oneSegment 0)
          (servedQueue (zeroDisk 1 (by decide)) (requestBus oneSegment 0) 0)
          ((zeroDisk 1 (by decide)).processQueue (requestBus oneSegment 0) 0).1
          ((zeroDisk 1 (by decide)).processQueue (requestBus oneSegment 0) 0).2 ∧
        ((zeroDisk 1 (by decide)).processQueue (requestBus oneSegment 0) 0).1.interruptStatus =
          if servedQueue (zeroDisk 1 (by decide)) (requestBus oneSegment 0) 0 = [] then 0
          else 0 ||| kInterruptVring := by
  refine ⟨by decide +kernel, @processQueue_exactlyOnce _ (zeroDisk 1 (by decide))
    (requestBus oneSegment 0) ?_ ?_ ?_ ?_ ?_⟩
  · refine ⟨rfl, nofun, ?_⟩
    intro id
    by_cases hid : id = 2
    · subst hid
      rfl
    · simp only [requestBus, Bus.setRam, Function.update_of_ne hid]
      rfl
  · decide
  · decide
  · refine ⟨⟨⟨2, 0x100⟩, sdramMapping, sdram_mapped, rfl, by decide, by decide, by decide⟩,
      ⟨⟨2, 0x200⟩, sdramMapping, sdram_mapped, rfl, by decide, by decide, by decide⟩, ?_⟩
    decide +kernel
  · decide +kernel

end VirtioBlkMmio
end Aarchvm.Virtio
