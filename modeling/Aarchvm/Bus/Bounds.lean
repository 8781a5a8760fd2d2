import Aarchvm.Bus.Map

/-!
# What the bus range checks accept

Every accept path compares `addr + size` as a 64-bit sum. The results here say,
for any mapping table, address and length, which accepted accesses stay inside
the mapping (and the byte vector) they were matched against, and which reach it
only because the sum wrapped.
-/
namespace Aarchvm

open Lib.WordInterval

namespace Mapping

/-- The physical addresses of the mapping, as natural numbers. -/
def Contains (m : Mapping) (addr size : U64) : Prop := span addr size ⊆ span m.base m.size

/-- The range check of `Bus::find` passes for this mapping only by wrap-around. -/
def Wrapped (m : Mapping) (addr size : U64) : Prop := WrapsInto m.base m.size addr size

instance (m : Mapping) (addr size : U64) : Decidable (m.Wrapped addr size) :=
  inferInstanceAs (Decidable (WrapsInto _ _ _ _))

end Mapping

namespace Bus

variable {D : Type}

/-- `m` is passed by a wrapped sum, and no earlier mapping of the table contains the
access or is passed by a wrapped sum. -/
def FirstWrapped (b : Bus D) (addr size : U64) (m : Mapping) : Prop :=
  m.Wrapped addr size ∧ ∃ earlier later, b.mappings = earlier ++ m :: later ∧
    ∀ m' ∈ earlier, ¬ Inside m'.base m'.size addr size ∧ ¬ m'.Wrapped addr size

/-- The bytes `[offset, offset+size)` of a RAM are all in its vector. -/
def InVector (r : Ram) (offset size : U64) : Prop :=
  span offset size ⊆ Set.Ico 0 r.size.toNat

/-- What a pointer to `size` bytes at `addr` promises: the bytes are in the vector, and the
addresses are in one mapping, which is the selected one when the table was searched. -/
def PtrInBounds (b : Bus D) (hit : Option RamPtr) (addr size : U64) (p : RamPtr) : Prop :=
  InVector (b.rams p.ram) p.offset size ∧
    ∃ m ∈ b.mappings, (hit = some p ∨ b.find addr size = some m) ∧ m.Contains addr size

def FindInBounds (b : Bus D) (addr size : U64) : Prop :=
  ∀ m, b.find addr size = some m → m.Contains addr size

def RamPtrInBounds (b : Bus D) (addr size : U64) : Prop :=
  ∀ p, b.ramPtr addr size = some p →
    b.PtrInBounds (b.fastPath.bind (·.ramPtr addr size)) addr size p

def RamMutPtrInBounds (b : Bus D) (addr size : U64) : Prop :=
  ∀ p, b.ramMutPtr addr size = some p →
    b.PtrInBounds (b.fastPath.bind (·.ramMutPtr addr size)) addr size p

/-- An accepted nonempty copy went through a pointer that is in bounds. -/
def WriteRamBufferInBounds (b : Bus D) (addr : U64) (src : Option (Nat → U8)) (size : U64) :
    Prop :=
  (b.writeRamBuffer addr src size).isSome → size ≠ 0 →
    ∃ p, b.ramMutPtr addr size = some p ∧
      b.PtrInBounds (b.fastPath.bind (·.ramMutPtr addr size)) addr size p

/-- A wrapped access is turned away at the vector's own bounds check. -/
def VectorRejects (b : Bus D) (addr size : U64) : Prop :=
  ∀ m r, b.FirstWrapped addr size m → m.device = .ram r →
    (b.rams r).size < addr - m.base + size

/-- What the `SoC` constructor establishes before it attaches a fast path: each of the
three windows is mapped to the RAM the fast path refers to, and that RAM fills it. -/
structure FastPathWired (b : Bus D) (f : BusFastPath) : Prop where
  sdram : ⟨kSdramBase, kSdramSize, .ram f.sdram⟩ ∈ b.mappings
  sdram_size : kSdramSize ≤ (b.rams f.sdram).size
  bootRam : ⟨kBootRamBase, kBootRamSize, .ram f.bootRam⟩ ∈ b.mappings
  bootRam_size : kBootRamSize ≤ (b.rams f.bootRam).size
  framebufferRam : ⟨kFramebufferBase, kFramebufferSize, .ram f.framebufferRam⟩ ∈ b.mappings
  framebufferRam_size : kFramebufferSize ≤ (b.rams f.framebufferRam).size

/-! ## Table search -/

theorem find_eq (b : Bus D) (addr size : U64) :
    b.find addr size = b.mappings.find? fun m => wordCheck m.base m.size addr size := rfl

theorem mem_of_find {b : Bus D} {addr size : U64} {m : Mapping}
    (h : b.find addr size = some m) : m ∈ b.mappings :=
  List.mem_of_find?_eq_some h

/-- A first wrapped mapping is what the search returns. -/
theorem find_of_firstWrapped {b : Bus D} {addr size : U64} {m : Mapping}
    (h : b.FirstWrapped addr size m) : b.find addr size = some m := by
  obtain ⟨hm, earlier, later, hl, hearlier⟩ := h
  have hw : Wraps addr size := hm.2.1
  rw [find_eq, List.find?_eq_some_iff_append]
  refine ⟨WrapsInto.wordCheck hm, earlier, later, hl, ?_⟩
  intro m' hm'
  have hnot : ¬ wordCheck m'.base m'.size addr size = true := by
    rw [wordCheck_iff_of_wraps hw]
    exact not_or.2 (hearlier m' hm')
  simpa using hnot

/-- What the search returns contains the access unless it is the first wrapped mapping. -/
theorem inside_or_firstWrapped {b : Bus D} {addr size : U64} {m : Mapping}
    (h : b.find addr size = some m) :
    Inside m.base m.size addr size ∨ b.FirstWrapped addr size m := by
  rw [find_eq, List.find?_eq_some_iff_append] at h
  obtain ⟨hm, earlier, later, hl, hearlier⟩ := h
  by_cases hw : Wraps addr size
  · refine ((wordCheck_iff_of_wraps hw).1 hm).imp_right fun hwm => ⟨hwm, earlier, later, hl, ?_⟩
    intro m' hm'
    have hnot : ¬ wordCheck m'.base m'.size addr size = true := by simpa using hearlier m' hm'
    rw [wordCheck_iff_of_wraps hw] at hnot
    exact not_or.1 hnot
  · exact .inl (inside_of_wordCheck hw hm)

theorem findInBounds_iff (b : Bus D) (addr size : U64) :
    b.FindInBounds addr size ↔ ∀ m, ¬ b.FirstWrapped addr size m := by
  constructor
  · intro h m hm
    exact hm.1.not_span_subset (h m (find_of_firstWrapped hm))
  · intro h m hm
    exact ((inside_or_firstWrapped hm).resolve_right (h m)).span_subset

/-! ## Pointers into RAM -/

/-- The access inside a mapping gives offsets inside a vector that fills at least the
checked range. -/
theorem inVector_of_inside {m : Mapping} {r : Ram} {addr size : U64}
    (hm : Inside m.base m.size addr size) (hr : ¬ r.size < addr - m.base + size) :
    InVector r (addr - m.base) size := by
  obtain ⟨hb, he⟩ := hm
  have hoff : (addr - m.base).toNat = addr.toNat - m.base.toNat := BitVec.toNat_sub_of_le hb
  have hs := m.size.isLt
  have hw : ¬ Wraps (addr - m.base) size := by
    unfold Wraps
    omega
  rw [BitVec.not_lt, BitVec.le_def, toNat_add_of_not_wraps hw] at hr
  exact Set.Ico_subset_Ico (Nat.zero_le _) hr

/-- A window of the fast path only hands out pointers whose range it contains. -/
theorem windowPtr_inside {ram : RamId} {base winSize addr size : U64} {p : RamPtr}
    (hw : inWindow base winSize addr = true) (hbase : ¬ Wraps base winSize)
    (h : windowPtr ram base winSize addr size = some p) :
    p = ⟨ram, addr - base⟩ ∧ Inside base winSize addr size ∧
      (addr - base).toNat + size.toNat ≤ winSize.toNat := by
  obtain ⟨hlo, hhi⟩ : base ≤ addr ∧ addr < base + winSize := by simpa [inWindow] using hw
  rw [BitVec.lt_def, toNat_add_of_not_wraps hbase] at hhi
  have hlo' : base.toNat ≤ addr.toNat := hlo
  have hoff : (addr - base).toNat = addr.toNat - base.toNat := BitVec.toNat_sub_of_le hlo
  simp only [windowPtr] at h
  split at h
  case isTrue hs =>
    have hle : addr - base ≤ winSize := by
      rw [BitVec.le_def]
      omega
    rw [BitVec.le_def, BitVec.toNat_sub_of_le hle] at hs
    refine ⟨(Option.some.inj h).symm, ⟨hlo', ?_⟩, ?_⟩ <;> omega
  case isFalse => exact nomatch h

/-- One wired window: its pointers are in bounds, and no wrapping access gets one. -/
theorem window_inBounds {b : Bus D} {ram : RamId} {base winSize addr size : U64} {p : RamPtr}
    (hmap : ⟨base, winSize, .ram ram⟩ ∈ b.mappings) (hsize : winSize ≤ (b.rams ram).size)
    (hbase : ¬ Wraps base winSize) (hw : inWindow base winSize addr = true)
    (h : windowPtr ram base winSize addr size = some p) :
    b.PtrInBounds (some p) addr size p ∧ ¬ Wraps addr size := by
  obtain ⟨rfl, hin, hoff⟩ := windowPtr_inside hw hbase h
  refine ⟨⟨Set.Ico_subset_Ico (Nat.zero_le _) (Nat.le_trans hoff hsize), _, hmap, .inl rfl,
    hin.span_subset⟩, ?_⟩
  intro hwraps
  exact hbase (Nat.le_trans hwraps hin.2)

private theorem sdram_not_wraps : ¬ Wraps kSdramBase kSdramSize := by decide
private theorem bootRam_not_wraps : ¬ Wraps kBootRamBase kBootRamSize := by decide
private theorem framebuffer_not_wraps : ¬ Wraps kFramebufferBase kFramebufferSize := by decide

theorem fast_ramPtr_inBounds {b : Bus D} {f : BusFastPath} (hf : b.FastPathWired f)
    {addr size : U64} {p : RamPtr} (h : f.ramPtr addr size = some p) :
    b.PtrInBounds (some p) addr size p ∧ ¬ Wraps addr size := by
  unfold BusFastPath.ramPtr at h
  split at h
  case isTrue hw => exact window_inBounds hf.sdram hf.sdram_size sdram_not_wraps hw h
  split at h
  case isTrue hw => exact window_inBounds hf.bootRam hf.bootRam_size bootRam_not_wraps hw h
  split at h
  case isTrue hw =>
    exact window_inBounds hf.framebufferRam hf.framebufferRam_size framebuffer_not_wraps hw h
  exact nomatch h

theorem fast_ramMutPtr_inBounds {b : Bus D} {f : BusFastPath} (hf : b.FastPathWired f)
    {addr size : U64} {p : RamPtr} (h : f.ramMutPtr addr size = some p) :
    b.PtrInBounds (some p) addr size p ∧ ¬ Wraps addr size := by
  unfold BusFastPath.ramMutPtr at h
  split at h
  case isTrue hw => exact window_inBounds hf.bootRam hf.bootRam_size bootRam_not_wraps hw h
  split at h
  case isTrue hw => exact window_inBounds hf.sdram hf.sdram_size sdram_not_wraps hw h
  split at h
  case isTrue hw =>
    exact window_inBounds hf.framebufferRam hf.framebufferRam_size framebuffer_not_wraps hw h
  exact nomatch h

/-- What the slow half returns, spelled out. -/
theorem findRamPtr_eq_some_iff {b : Bus D} {addr size : U64} {p : RamPtr} :
    b.findRamPtr addr size = some p ↔
      ∃ m, b.find addr size = some m ∧ m.device = .ram p.ram ∧ p.offset = addr - m.base ∧
        ¬ (b.rams p.ram).size < addr - m.base + size := by
  obtain ⟨ram, offset⟩ := p
  unfold findRamPtr
  cases hfind : b.find addr size with
  | none => simp
  | some m =>
    cases hdev : m.device with
    | mmio dev => simp [hdev]
    | ram r =>
      by_cases hr : (b.rams r).size < addr - m.base + size
      · simp only [hr, ↓reduceIte, Option.some.injEq, exists_eq_left', hdev, DeviceRef.ram.injEq]
        constructor
        · exact nofun
        · rintro ⟨rfl, -, hn⟩
          exact absurd hr hn
      · simp only [hr, ↓reduceIte, Option.some.injEq, exists_eq_left', hdev, DeviceRef.ram.injEq,
          RamPtr.mk.injEq]
        constructor
        · rintro ⟨rfl, rfl⟩
          exact ⟨rfl, rfl, hr⟩
        · rintro ⟨rfl, rfl, -⟩
          exact ⟨rfl, rfl⟩

/-- A pointer request whose fast half answers `hit`: it is in bounds exactly when the
first wrapped mapping, if it is a RAM, rejects the access at its vector. -/
theorem ptrInBounds_iff {b : Bus D} {hit : Option RamPtr} {addr size : U64}
    (hhit : ∀ p, hit = some p → b.PtrInBounds (some p) addr size p ∧ ¬ Wraps addr size) :
    (∀ p, (match hit with | some p => some p | none => b.findRamPtr addr size) = some p →
      b.PtrInBounds hit addr size p) ↔ b.VectorRejects addr size := by
  constructor
  · intro h m r hm hdev
    by_contra hr
    have hnone : hit = none := by
      cases hh : hit with
      | none => rfl
      | some p => exact absurd hm.1.2.1 (hhit p hh).2
    subst hnone
    have hfind := find_of_firstWrapped hm
    have hptr : b.findRamPtr addr size = some ⟨r, addr - m.base⟩ :=
      findRamPtr_eq_some_iff.2 ⟨m, hfind, hdev, rfl, hr⟩
    obtain ⟨-, m', -, hsel, hin⟩ := h _ hptr
    have heq : b.find addr size = some m' := hsel.resolve_left nofun
    rw [hfind] at heq
    cases heq
    exact hm.1.not_span_subset hin
  · intro h p hp
    cases hh : hit with
    | some q =>
      rw [hh] at hp
      obtain rfl : p = q := (Option.some.inj hp).symm
      exact (hhit p hh).1
    | none =>
      rw [hh] at hp
      obtain ⟨m, hfind, hdev, hoff, hr⟩ := findRamPtr_eq_some_iff.1 hp
      have hin : Inside m.base m.size addr size :=
        (inside_or_firstWrapped hfind).resolve_right fun hm => hr (h m p.ram hm hdev)
      refine ⟨?_, m, mem_of_find hfind, .inr hfind, hin.span_subset⟩
      rw [hoff]
      exact inVector_of_inside hin hr

theorem ramPtrInBounds_iff (b : Bus D) (hf : ∀ f, b.fastPath = some f → b.FastPathWired f)
    (addr size : U64) : b.RamPtrInBounds addr size ↔ b.VectorRejects addr size := by
  apply ptrInBounds_iff
  intro p hp
  obtain ⟨f, hfast, hp⟩ := Option.bind_eq_some_iff.1 hp
  exact fast_ramPtr_inBounds (hf f hfast) hp

theorem ramMutPtrInBounds_iff (b : Bus D) (hf : ∀ f, b.fastPath = some f → b.FastPathWired f)
    (addr size : U64) : b.RamMutPtrInBounds addr size ↔ b.VectorRejects addr size := by
  apply ptrInBounds_iff
  intro p hp
  obtain ⟨f, hfast, hp⟩ := Option.bind_eq_some_iff.1 hp
  exact fast_ramMutPtr_inBounds (hf f hfast) hp

/-- A copy of nothing and a null source never reach a pointer; every other copy is as
good as its destination. -/
theorem writeRamBufferInBounds_iff (b : Bus D)
    (hf : ∀ f, b.fastPath = some f → b.FastPathWired f)
    (addr : U64) (src : Option (Nat → U8)) (size : U64) :
    b.WriteRamBufferInBounds addr src size ↔
      size = 0 ∨ src = none ∨ b.VectorRejects addr size := by
  unfold WriteRamBufferInBounds writeRamBuffer
  by_cases hsize : size = 0#64
  · simp [hsize]
  cases src with
  | none => simp [hsize]
  | some bytes =>
    rw [← ramMutPtrInBounds_iff b hf]
    cases hptr : b.ramMutPtr addr size with
    | none => simp [hsize, hptr, RamMutPtrInBounds]
    | some dst => simp [hsize, hptr, RamMutPtrInBounds]

end Bus

/-! ## Byte vectors -/

namespace Ram

def ReadFastInBounds (r : Ram) (offset size : U64) : Prop :=
  (r.readFast offset size).isSome → Bus.InVector r offset size

def WriteFastInBounds (r : Ram) (offset value size : U64) : Prop :=
  (r.writeFast offset value size).isSome → Bus.InVector r offset size

/-- A width the accessors take, whose end wraps to at most the vector's length. -/
def WrappedWidth (r : Ram) (offset size : U64) : Prop :=
  fastSize size = true ∧ WrapsInto 0 r.size offset size

theorem inVector_eq (r : Ram) (offset size : U64) :
    Bus.InVector r offset size ↔ span offset size ⊆ span 0 r.size := by
  simp [Bus.InVector, span]

/-- The shared check of `read_fast` and `write_fast`. -/
theorem inVector_iff_not_wrappedWidth (r : Ram) (offset size : U64) :
    (fastSize size = true ∧ wordCheck 0 r.size offset size = true → Bus.InVector r offset size) ↔
      ¬ r.WrappedWidth offset size := by
  rw [inVector_eq]
  constructor
  · intro h hw
    exact hw.2.not_span_subset (h ⟨hw.1, hw.2.wordCheck⟩)
  · rintro h ⟨hsize, hcheck⟩
    exact (span_subset_or_wrapsInto hcheck).resolve_right fun hw => h ⟨hsize, hw⟩

theorem readFastInBounds_iff (r : Ram) (offset size : U64) :
    r.ReadFastInBounds offset size ↔ ¬ r.WrappedWidth offset size := by
  rw [← inVector_iff_not_wrappedWidth, ← readFast_isSome_iff]
  rfl

theorem writeFastInBounds_iff (r : Ram) (offset value size : U64) :
    r.WriteFastInBounds offset value size ↔ ¬ r.WrappedWidth offset size := by
  rw [← inVector_iff_not_wrappedWidth, ← writeFast_isSome_iff]
  rfl

end Ram

/-! ## All accept paths -/

/-- Each accept path stays in bounds exactly when no wrapped sum lets the access through:
the search has no first wrapped mapping, a RAM pointer's first wrapped mapping is turned
away by its vector, and an accessor's width does not wrap into its vector. -/
theorem accepted_inBounds_iff {D : Type} (b : Bus D)
    (hf : ∀ f, b.fastPath = some f → b.FastPathWired f)
    (addr size : U64) (src : Option (Nat → U8)) (r : Ram) (value : U64) :
    (b.FindInBounds addr size ↔ ∀ m, ¬ b.FirstWrapped addr size m) ∧
    (b.RamPtrInBounds addr size ↔ b.VectorRejects addr size) ∧
    (b.RamMutPtrInBounds addr size ↔ b.VectorRejects addr size) ∧
    (b.WriteRamBufferInBounds addr src size ↔
      size = 0 ∨ src = none ∨ b.VectorRejects addr size) ∧
    (r.ReadFastInBounds addr size ↔ ¬ r.WrappedWidth addr size) ∧
    (r.WriteFastInBounds addr value size ↔ ¬ r.WrappedWidth addr size) :=
  ⟨b.findInBounds_iff addr size, b.ramPtrInBounds_iff hf addr size,
    b.ramMutPtrInBounds_iff hf addr size, b.writeRamBufferInBounds_iff hf addr src size,
    r.readFastInBounds_iff addr size, r.writeFastInBounds_iff addr value size⟩

theorem not_firstWrapped_of_not_wraps {D : Type} (b : Bus D) {addr size : U64}
    (hw : ¬ Wraps addr size) (m : Mapping) : ¬ b.FirstWrapped addr size m :=
  fun hm => hw hm.1.2.1

/-- The `SoC` constructor wires the fast path it attaches. -/
theorem socBus_wired {D : Type} (fast : Bool) (devices : D) (f : BusFastPath)
    (h : (socBus fast devices).fastPath = some f) : (socBus fast devices).FastPathWired f := by
  cases fast with
  | false => exact nomatch h
  | true =>
    obtain rfl : f = ⟨0, 1, 2⟩ := (Option.some.inj h).symm
    constructor <;> simp [socBus, socMappings, socRams, Ram.zeroed]

/-- The boot RAM mapping passes a wrapped access to the last eight bytes of the address
space, first in the table. -/
theorem soc_firstWrapped {D : Type} (fast : Bool) (devices : D) :
    (socBus fast devices).FirstWrapped 0xFFFFFFFFFFFFFFF8 8
      ⟨kBootRamBase, kBootRamSize, .ram 0⟩ :=
  ⟨by decide, [], socMappings.tail, rfl, nofun⟩

theorem soc_accepted_inBounds :
    (socBus true ()).RamPtrInBounds kSdramBase 4096 ∧
      ¬ (socBus true ()).RamPtrInBounds 0xFFFFFFFFFFFFFFF8 8 := by
  have h := fun addr size => (accepted_inBounds_iff (socBus true ()) (socBus_wired true ())
    addr size none (Ram.zeroed 16) 0).2.1
  constructor
  · exact (h kSdramBase 4096).2 fun m r hm _ =>
      absurd hm (not_firstWrapped_of_not_wraps _ (by decide) m)
  · rw [h 0xFFFFFFFFFFFFFFF8 8]
    intro hr
    exact absurd (hr _ 0 (soc_firstWrapped true ()) rfl) (by decide)

/-- Eight bytes at `2 ^ 64 - 8` on the SoC map: all accept paths take the access, no
mapping contains it and the boot RAM's vector does not reach it. -/
theorem soc_accepts_top_of_address_space :
    ((socBus false ()).find 0xFFFFFFFFFFFFFFF8 8 = some ⟨kBootRamBase, kBootRamSize, .ram 0⟩ ∧
      ∀ m ∈ socMappings, ¬ m.Contains 0xFFFFFFFFFFFFFFF8 8) ∧
    (socBus false ()).ramPtr 0xFFFFFFFFFFFFFFF8 8 = some ⟨0, 0xFFFFFFFFFFFFFFF8⟩ ∧
    (socBus false ()).ramMutPtr 0xFFFFFFFFFFFFFFF8 8 = some ⟨0, 0xFFFFFFFFFFFFFFF8⟩ ∧
    ((socBus false ()).writeRamBuffer 0xFFFFFFFFFFFFFFF8 (some fun _ => 1) 8).isSome ∧
    ((socRams 0).readFast 0xFFFFFFFFFFFFFFF8 8).isSome ∧
    ((socRams 0).writeFast 0xFFFFFFFFFFFFFFF8 1 8).isSome ∧
    ¬ Bus.InVector (socRams 0) 0xFFFFFFFFFFFFFFF8 8 := by
  refine ⟨⟨by decide, ?_⟩, by decide, by decide, by decide, by decide, by decide, ?_⟩
  · intro m hm
    rw [Mapping.Contains, span_subset_iff (by decide)]
    revert m
    decide
  · rw [Ram.inVector_eq, span_subset_iff (by decide)]
    decide

end Aarchvm
