import Aarchvm.Bus.RamBytes
import Aarchvm.Virtio.Chain
import Aarchvm.Virtio.UsedLen

/-!
# Guest memory byte by byte

On the bus of the SoC a device's store changes the bytes it names and no others, and
what is read back is what was stored. A store whose range runs past the address space
is not excluded: it has no byte at an address it does not name.
-/
namespace Aarchvm.Virtio

open SocBus

variable {D : Type}

/-- A bus with the SoC's table, its fast path or none, and the SoC's RAM sizes. -/
structure SocWired (b : Bus D) : Prop where
  mappings : b.mappings = socMappings
  fastPath : ∀ f, b.fastPath = some f → f = SocBus.fastPath
  size : ∀ id, (b.rams id).size = (socRams id).size

theorem SameLayout.wired {b b' : Bus D} (h : SameLayout b b') (hb : SocWired b) : SocWired b' where
  mappings := h.mappings.trans hb.mappings
  fastPath := by
    rw [h.fastPath]
    exact hb.fastPath
  size id := (h.size id).trans (hb.size id)

/-- No address is in both `n` bytes from `a` and `n'` bytes from `a'`. -/
def Apart (a : U64) (n : Nat) (a' : U64) (n' : Nat) : Prop :=
  ∀ i < n, ∀ j < n', a + BitVec.ofNat 64 i ≠ a' + BitVec.ofNat 64 j

instance (a : U64) (n : Nat) (a' : U64) (n' : Nat) : Decidable (Apart a n a' n') :=
  inferInstanceAs (Decidable (∀ i < n, ∀ j < n', _))

theorem Apart.shorter {a a' : U64} {n n' m : Nat} (h : Apart a n a' n') (hm : m ≤ n) :
    Apart a m a' n' :=
  fun i hi => h i (Nat.lt_of_lt_of_le hi hm)

/-- The byte `i` bytes behind a pointer. -/
def byteAt (b : Bus D) (p : RamPtr) (i : Nat) : U8 := (b.rams p.ram).data (p.offset.toNat + i)

/-! ## Pointers -/

/-- A pointer is into the RAM of some window, at the distance from its base. -/
theorem window_of_ramMutPtr {b : Bus D} (hb : SocWired b) {addr size : U64} (hsize : 0 < size.toNat)
    {p : RamPtr} (h : b.ramMutPtr addr size = some p) :
    ∃ m ∈ socMappings, m.device = .ram p.ram ∧ p.offset = addr - m.base := by
  have hslow : b.findRamPtr addr size = some p →
      ∃ m ∈ socMappings, m.device = .ram p.ram ∧ p.offset = addr - m.base := by
    intro hfind
    obtain ⟨m, hm, hdev, hoff, -⟩ := Bus.findRamPtr_eq_some_iff.1 hfind
    have hmem := Bus.mem_of_find hm
    rw [hb.mappings] at hmem
    exact ⟨m, hmem, hdev, hoff⟩
  unfold Bus.ramMutPtr at h
  cases hf : b.fastPath with
  | none =>
    rw [hf] at h
    exact hslow h
  | some f =>
    rw [hf, hb.fastPath f hf, Option.bind_some] at h
    cases hfast : SocBus.fastPath.ramMutPtr addr size with
    | none =>
      rw [hfast] at h
      exact hslow h
    | some q =>
      rw [hfast] at h
      cases h
      obtain ⟨-, m, hm, hdev, hoff⟩ := find_of_ramMutPtr hsize hfast
      exact ⟨m, Bus.mem_of_find hm, hdev, hoff⟩

/-- Both pointers to bytes inside a RAM window. -/
theorem ptr_at {b : Bus D} (hb : SocWired b) {pa : U64} {n : Nat} {p : RamPtr} (hat : At pa n p)
    (hn : 0 < n) :
    b.ramPtr pa (BitVec.ofNat 64 n) = some p ∧ b.ramMutPtr pa (BitVec.ofNat 64 n) = some p := by
  have hlt := hat.bound
  obtain ⟨m, hfind, hm, hdev, hin, hoff⟩ := hat.find hn
  have hsize : (BitVec.ofNat 64 n).toNat = n := by
    rw [BitVec.toNat_ofNat]
    exact Nat.mod_eq_of_lt (by omega)
  have hslow : b.findRamPtr pa (BitVec.ofNat 64 n) = some p := by
    refine Bus.findRamPtr_eq_some_iff.2 ⟨m, ?_, hdev, hoff, ?_⟩
    · rw [← hfind]
      unfold SocBus.find Bus.find
      rw [hb.mappings]
      rfl
    · obtain ⟨hlo, hhi⟩ := hin
      have hbase : (pa - m.base).toNat = pa.toNat - m.base.toNat := BitVec.toNat_sub_of_le hlo
      rw [hb.size, ← ram_size m hm _ hdev, BitVec.lt_def, BitVec.toNat_add, hbase, hsize]
      rw [hsize] at hhi
      have hmax := m.size.isLt
      rw [Nat.mod_eq_of_lt (by omega)]
      omega
  unfold Bus.ramPtr Bus.ramMutPtr
  cases hf : b.fastPath with
  | none => exact ⟨hslow, hslow⟩
  | some f =>
    obtain ⟨hread, hwrite⟩ :=
      ramPtr_of_find (hsize.symm ▸ hn) (not_wraps_of_inside hm hin) hfind hdev
    rw [← hoff] at hread hwrite
    rw [hb.fastPath f hf, Option.bind_some, Option.bind_some, hread, hwrite]
    exact ⟨rfl, rfl⟩

/-! ## Loads and stores -/

theorem readGuest_at {b : Bus D} (hb : SocWired b) {pa : U64} {n : Nat} {p : RamPtr}
    (hat : At pa n p) {i k : Nat} (hk : i + k ≤ n) :
    readGuest b (pa + BitVec.ofNat 64 i) (BitVec.ofNat 64 k) =
      some ((List.range k).map fun j => byteAt b p (i + j)) := by
  have hlt := hat.bound
  obtain ⟨hsub, hoff⟩ := hat.sub hk
  have hsize : (BitVec.ofNat 64 k).toNat = k := by
    rw [BitVec.toNat_ofNat]
    exact Nat.mod_eq_of_lt (by omega)
  unfold readGuest
  rcases Nat.eq_zero_or_pos k with rfl | hpos
  · rfl
  · have hne : BitVec.ofNat 64 k ≠ 0 := by
      intro hz
      have := congrArg BitVec.toNat hz
      rw [hsize] at this
      exact absurd this (Nat.pos_iff_ne_zero.1 hpos)
    obtain ⟨hptr, -⟩ := ptr_at hb hsub hpos
    rw [if_neg hne, hptr]
    simp only [hsize, hoff, byteAt, Nat.add_assoc]

/-- A store leaves the bytes that it does not name. -/
theorem writeGuest_apart {b b' : Bus D} (hb : SocWired b) {addr : U64} {src : List U8}
    (h : writeGuest b addr src = some b') {pa : U64} {n : Nat} {p : RamPtr} (hat : At pa n p)
    {i : Nat} (hi : i < n)
    (hapart : ∀ j < src.length, addr + BitVec.ofNat 64 j ≠ pa + BitVec.ofNat 64 i) :
    byteAt b' p i = byteAt b p i := by
  unfold writeGuest Bus.writeRamBuffer at h
  by_cases hz : BitVec.ofNat 64 src.length = (0 : U64)
  · rw [if_pos hz] at h
    cases h
    rfl
  rw [if_neg hz] at h
  dsimp only at h
  have hpos : 0 < (BitVec.ofNat 64 src.length).toNat := by
    rw [Nat.pos_iff_ne_zero]
    intro hzero
    exact hz (BitVec.eq_of_toNat_eq hzero)
  cases hptr : b.ramMutPtr addr (BitVec.ofNat 64 src.length) with
  | none =>
    rw [hptr] at h
    exact nomatch h
  | some q =>
    rw [hptr] at h
    cases h
    unfold byteAt Bus.copyTo Bus.setRam
    by_cases hram : p.ram = q.ram
    · rw [hram]
      simp only [Function.update_self]
      unfold storeBytes
      apply if_neg
      rintro ⟨hlo, hhi⟩
      obtain ⟨m', hm', hdev', hoff'⟩ := window_of_ramMutPtr hb hpos hptr
      obtain ⟨m, hm, hdev, hbase, hend, hoff⟩ := hat
      have hsame := window_unique m hm m' hm' p.ram hdev (hram ▸ hdev')
      subst hsame
      have hwin := soc_not_wraps m hm
      rw [Lib.WordInterval.Wraps] at hwin
      have hlen : (BitVec.ofNat 64 src.length).toNat ≤ src.length := by
        rw [BitVec.toNat_ofNat]
        exact Nat.mod_le _ _
      -- the byte of the store that would land here has this byte's address
      apply hapart (p.offset.toNat + i - q.offset.toNat) (by omega)
      rw [hoff, hoff'] at hlo ⊢
      have hp : (pa - m.base).toNat = pa.toNat - m.base.toNat := BitVec.toNat_sub_of_le hbase
      rw [hp] at hlo ⊢
      generalize hd : (addr - m.base).toNat = d at hlo
      apply BitVec.eq_of_toNat_eq
      rw [BitVec.toNat_add, BitVec.toNat_add, BitVec.toNat_ofNat, BitVec.toNat_ofNat]
      rw [BitVec.toNat_sub] at hd
      have haddr := addr.isLt
      have hmb := m.base.isLt
      have hpa := pa.isLt
      omega
    · simp only [Function.update_of_ne hram]

/-- A store inside a RAM window is read back, and the rest of the window is as it was. -/
theorem writeGuest_at {b : Bus D} (hb : SocWired b) {pa : U64} {n : Nat} {p : RamPtr}
    (hat : At pa n p) {i : Nat} {src : List U8} (hpos : 0 < src.length) (hk : i + src.length ≤ n) :
    ∃ b', writeGuest b (pa + BitVec.ofNat 64 i) src = some b' ∧
      ∀ k, byteAt b' p k =
        if i ≤ k ∧ k < i + src.length then src.getD (k - i) 0 else byteAt b p k := by
  have hlt := hat.bound
  obtain ⟨hsub, hoff⟩ := hat.sub hk
  obtain ⟨-, hptr⟩ := ptr_at hb hsub hpos
  have hsize : (BitVec.ofNat 64 src.length).toNat = src.length := by
    rw [BitVec.toNat_ofNat]
    exact Nat.mod_eq_of_lt (by omega)
  have hne : BitVec.ofNat 64 src.length ≠ 0 := by
    intro hz
    have := congrArg BitVec.toNat hz
    rw [hsize] at this
    exact absurd this (Nat.pos_iff_ne_zero.1 hpos)
  refine ⟨b.copyTo ⟨p.ram, p.offset + BitVec.ofNat 64 i⟩ (src.getD · 0)
    (BitVec.ofNat 64 src.length), ?_, ?_⟩
  · unfold writeGuest Bus.writeRamBuffer
    rw [if_neg hne]
    dsimp only
    rw [hptr]
  · intro k
    unfold byteAt Bus.copyTo Bus.setRam
    simp only [Function.update_self, hsize, hoff, storeBytes]
    by_cases hin : i ≤ k ∧ k < i + src.length
    · rw [if_pos hin, if_pos (by omega)]
      congr 1
      omega
    · rw [if_neg hin, if_neg (by omega)]

/-! ## Little-endian fields -/

/-- A load of the bytes of a value gives the value. -/
theorem loadLe_of_bytes {n : Nat} (hn : n ≤ 8) {data : Nat → U8} {off : Nat}
    {value : BitVec (8 * n)}
    (h : ∀ i < n, data (off + i) = bytesOf value i) :
    (loadLe data off n).setWidth (8 * n) = value := by
  apply BitVec.eq_of_getLsbD_eq
  intro k hk
  rw [BitVec.getLsbD_setWidth, loadLe_getLsbD data off k hn, h (k / 8) (by omega), getLsbD_bytesOf]
  have heq : 8 * (k / 8) + k % 8 = k := Nat.div_add_mod k 8
  simp [hk, heq, Nat.mod_lt k (show 0 < 8 by omega)]

/-- A field of the bytes behind a pointer. -/
theorem leWord_byteAt {b : Bus D} {p : RamPtr} {off n m : Nat} (hn : n ≤ 8) (hm : off + n ≤ m)
    {value : BitVec (8 * n)} (h : ∀ k < n, byteAt b p (off + k) = bytesOf value k) :
    (leWord ((List.range m).map (byteAt b p)) off n).setWidth (8 * n) = value := by
  refine loadLe_of_bytes hn fun k hk => Eq.trans ?_ (h k hk)
  have hlt : off + k < ((List.range m).map (byteAt b p)).length := by
    rw [List.length_map, List.length_range]
    omega
  rw [List.getD_eq_getElem _ _ hlt, List.getElem_map, List.getElem_range]

/-- The sixteen bytes behind the pointer are the descriptor, field after field. -/
structure Describes (b : Bus D) (p : RamPtr) (d : Descriptor) : Prop where
  addr : ∀ k < 8, byteAt b p (0 + k) = bytesOf d.addr k
  len : ∀ k < 4, byteAt b p (8 + k) = bytesOf d.len k
  flags : ∀ k < 2, byteAt b p (12 + k) = bytesOf d.flags k
  next : ∀ k < 2, byteAt b p (14 + k) = bytesOf d.next k

theorem readDescriptor_at {b : Bus D} (hb : SocWired b) {q : QueueState} {i : U16} {p : RamPtr}
    (hi : i.toNat < q.num.toNat) (hat : At (q.descAddr + i.setWidth 64 * 16) 16 p)
    {d : Descriptor} (h : Describes b p d) : readDescriptor b q i = some d := by
  have hread : readGuest b (q.descAddr + i.setWidth 64 * 16) 16 =
      some ((List.range 16).map (byteAt b p)) := by
    have hstart := readGuest_at hb hat (i := 0) (k := 16) (Nat.le_refl _)
    simp only [Nat.zero_add] at hstart
    rwa [BitVec.add_zero] at hstart
  have hguard : ¬ (q.num = 0 ∨ q.num ≤ i.setWidth 32) := by
    rw [not_or, BitVec.not_le, BitVec.lt_def, BitVec.toNat_setWidth]
    refine ⟨fun hz => ?_, (Nat.mod_le _ _).trans_lt hi⟩
    rw [hz] at hi
    exact absurd hi (Nat.not_lt_zero _)
  have haddr : leWord ((List.range 16).map (byteAt b p)) 0 8 = d.addr := by
    rw [← BitVec.setWidth_eq (leWord _ 0 8)]
    exact leWord_byteAt (n := 8) (by omega) (by omega) h.addr
  unfold readDescriptor
  rw [if_neg hguard]
  dsimp only
  rw [hread, Option.map_some, haddr, leWord_byteAt (n := 4) (by omega) (by omega) h.len,
    leWord_byteAt (n := 2) (by omega) (by omega) h.flags,
    leWord_byteAt (n := 2) (by omega) (by omega) h.next]

/-- An entry of the descriptor table in RAM is what its sixteen bytes say. -/
theorem descTable_at {b : Bus D} (hb : SocWired b) {q : QueueState} {i : U16} {p : RamPtr}
    (hi : i.toNat < q.num.toNat) (hat : At (q.descAddr + i.setWidth 64 * 16) 16 p)
    {d : Descriptor} (h : Describes b p d) :
    descTable q b i =
      if d.isIndirect then none else some (d, if d.hasNext then some d.next else none) := by
  rw [descTable_eq, readDescriptor_at hb hi hat h]

theorem length_leBytes (n : Nat) (value : U64) : (leBytes n value).length = n := by
  rw [leBytes, List.length_map, List.length_range]

theorem getD_leBytes {n i : Nat} (hi : i < n) (value : U64) :
    (leBytes n value).getD i 0 = bytesOf value i := by
  rw [leBytes, List.getD_eq_getElem?_getD, List.getElem?_map, List.getElem?_range hi]
  rfl

end Aarchvm.Virtio
