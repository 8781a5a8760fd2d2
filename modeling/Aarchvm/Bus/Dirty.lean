import Aarchvm.Bus.FastPath
import Aarchvm.Lib.Run

/-!
# Dirty rows of the framebuffer

Every routine that changes the framebuffer RAM, the rows each of them marks, and what
`consume_dirty_rows` reports to the window. The stores of the CPUs and the loads of the
host mark what they write; `Bus::write_ram_buffer`, by which the devices copy, tells the
CPUs only.
-/
namespace Aarchvm

open Lib.Run

def kFramebufferHeight : U32 := 600
def kFramebufferStride : U32 := 800 * 4

/-- The bytes of the rows; the framebuffer RAM goes on behind them. -/
def kSurfaceBytes : Nat := 600 * 3200

/-- `FramebufferDirtyTracker::RowSpan`. -/
structure RowSpan where
  first : Nat
  last : Nat
  deriving DecidableEq, Repr

def RowSpan.Covers (span : RowSpan) (row : Nat) : Prop := span.first ≤ row ∧ row ≤ span.last

instance RowSpan.decidableCovers (span : RowSpan) (row : Nat) : Decidable (span.Covers row) :=
  inferInstanceAs (Decidable (_ ∧ _))

/-- The variables of the loop in `consume_dirty_rows`. -/
structure SpanScan where
  inRun : Bool
  runFirst : Nat
  out : List RowSpan

namespace SpanScan

/-- The body of the loop. -/
def row (dirty : Nat → Bool) (s : SpanScan) (row : Nat) : SpanScan :=
  if dirty row then
    if s.inRun then s else { s with runFirst := row, inRun := true }
  else if s.inRun then { s with out := s.out ++ [⟨s.runFirst, row - 1⟩], inRun := false }
  else s

/-- The rows the loop has reported or is about to report once it has looked at `n` rows. -/
def Covered (s : SpanScan) (n r : Nat) : Prop :=
  (∃ span ∈ s.out, span.Covers r) ∨ s.inRun = true ∧ s.runFirst ≤ r ∧ r < n

/-- What the loop has established before row `n`: it covers the dirty rows below `n`. -/
structure Upto (dirty : Nat → Bool) (s : SpanScan) (n : Nat) : Prop where
  covered : ∀ r, s.Covered n r ↔ r < n ∧ dirty r = true
  started : s.inRun = true → s.runFirst < n

variable {dirty : Nat → Bool} {s : SpanScan} {n : Nat}

/-- Ending the open run at the row before adds its span and covers nothing else. -/
theorem covers_close_iff (hrun : s.inRun = true) (hstart : s.runFirst < n) (r : Nat) :
    (∃ span ∈ s.out ++ [⟨s.runFirst, n - 1⟩], span.Covers r) ↔ s.Covered n r := by
  have hlast : s.runFirst ≤ r ∧ r ≤ n - 1 ↔ s.runFirst ≤ r ∧ r < n := by omega
  simp only [Covered, hrun, true_and, List.mem_append, List.mem_singleton]
  rw [← hlast]
  constructor
  · rintro ⟨span, hmem | rfl, hspan⟩
    · exact .inl ⟨span, hmem, hspan⟩
    · exact .inr hspan
  · rintro (⟨span, hmem, hspan⟩ | hspan)
    · exact ⟨span, .inl hmem, hspan⟩
    · exact ⟨_, .inr rfl, hspan⟩

theorem covered_of_closed (hrun : ¬ s.inRun = true) (r : Nat) :
    s.Covered n r ↔ ∃ span ∈ s.out, span.Covers r := by
  simp only [Covered, hrun, Bool.false_eq_true, false_and, or_false]

theorem Upto.row (h : Upto dirty s n) : Upto dirty (s.row dirty n) (n + 1) := by
  obtain ⟨hcov, hstart⟩ := h
  unfold SpanScan.row
  by_cases hd : dirty n = true
  · rw [if_pos hd]
    by_cases hrun : s.inRun = true
    · -- the open run grows by one row
      rw [if_pos hrun]
      refine ⟨fun r => ?_, fun _ => Nat.lt_succ_of_lt (hstart hrun)⟩
      have hr := hcov r
      have hn := hstart hrun
      simp only [Covered, hrun, true_and] at hr ⊢
      by_cases hrn : r = n
      · subst hrn
        simp only [hd, and_true]
        exact ⟨fun _ => by omega, fun _ => .inr ⟨by omega, by omega⟩⟩
      · have hiff : r < n + 1 ↔ r < n := by omega
        rw [hiff]
        exact hr
    · rw [if_neg hrun]
      refine ⟨fun r => ?_, fun _ => Nat.lt_succ_self n⟩
      have hr := (covered_of_closed hrun r).symm.trans (hcov r)
      simp only [Covered, true_and]
      rw [hr]
      constructor
      · rintro (⟨hlt, hdirty⟩ | ⟨hle, hlt⟩)
        · exact ⟨by omega, hdirty⟩
        · obtain rfl : r = n := by omega
          exact ⟨hlt, hd⟩
      · rintro ⟨hlt, hdirty⟩
        rcases Nat.lt_succ_iff_lt_or_eq.1 hlt with h | rfl
        · exact .inl ⟨h, hdirty⟩
        · exact .inr ⟨Nat.le_refl _, hlt⟩
  · have hskip : ∀ r, (r < n + 1 ∧ dirty r = true) ↔ (r < n ∧ dirty r = true) := by
      intro r
      constructor
      · rintro ⟨hlt, hdirty⟩
        rcases Nat.lt_succ_iff_lt_or_eq.1 hlt with h | rfl
        · exact ⟨h, hdirty⟩
        · exact absurd hdirty hd
      · rintro ⟨hlt, hdirty⟩
        exact ⟨Nat.lt_succ_of_lt hlt, hdirty⟩
    rw [if_neg hd]
    by_cases hrun : s.inRun = true
    · -- the run ends on the row before
      rw [if_pos hrun]
      refine ⟨fun r => ?_, fun h => nomatch h⟩
      rw [hskip, ← hcov r, ← covers_close_iff hrun (hstart hrun)]
      exact covered_of_closed Bool.false_ne_true r
    · rw [if_neg hrun]
      refine ⟨fun r => ?_, fun h => absurd h hrun⟩
      rw [hskip, ← hcov r, covered_of_closed hrun, covered_of_closed hrun]

theorem upto_foldl (dirty : Nat → Bool) (n : Nat) :
    Upto dirty ((List.range n).foldl (SpanScan.row dirty) ⟨false, 0, []⟩) n := by
  induction n with
  | zero =>
    refine ⟨fun r => ?_, fun h => nomatch h⟩
    simp [Covered]
  | succ n ih =>
    rw [List.range_succ, List.foldl_append]
    exact ih.row

end SpanScan

namespace FramebufferDirtyTracker

/-- `row_is_dirty`. -/
def rowIsDirty (t : FramebufferDirtyTracker) (row : Nat) : Bool :=
  t.dirtyRows (row / 64) &&& ((1 : U64) <<< (row % 64)) != 0

/-- The spans `consume_dirty_rows` fills `out` with. -/
def dirtySpans (t : FramebufferDirtyTracker) : List RowSpan :=
  let s := (List.range t.height.toNat).foldl (SpanScan.row t.rowIsDirty) ⟨false, 0, []⟩
  if s.inRun then s.out ++ [⟨s.runFirst, t.height.toNat - 1⟩] else s.out

theorem dirtySpans_covers_iff (t : FramebufferDirtyTracker) (row : Nat) :
    (∃ span ∈ t.dirtySpans, span.Covers row) ↔
      row < t.height.toNat ∧ t.rowIsDirty row = true := by
  have hscan := SpanScan.upto_foldl t.rowIsDirty t.height.toNat
  unfold dirtySpans
  generalize (List.range t.height.toNat).foldl (SpanScan.row t.rowIsDirty) ⟨false, 0, []⟩ = s
    at hscan ⊢
  rw [← hscan.covered row]
  by_cases hrun : s.inRun = true
  · rw [if_pos hrun]
    exact SpanScan.covers_close_iff hrun (hscan.started hrun) row
  · rw [if_neg hrun]
    exact (SpanScan.covered_of_closed hrun row).symm

/-! ### Marks -/

/-- The test of `row_is_dirty` reads one bit. -/
theorem rowIsDirty_eq (t : FramebufferDirtyTracker) (row : Nat) :
    t.rowIsDirty row = (t.dirtyRows (row / 64)).getLsbD (row % 64) := by
  have hlt : row % 64 < 64 := Nat.mod_lt row (by decide)
  have hpow : (1 : U64) <<< (row % 64) = BitVec.twoPow 64 (row % 64) := rfl
  rw [rowIsDirty, hpow, BitVec.and_twoPow]
  cases (t.dirtyRows (row / 64)).getLsbD (row % 64) with
  | false => rfl
  | true =>
    rw [if_pos rfl, bne_iff_ne]
    intro h
    have hbit := congrArg (BitVec.getLsbD · (row % 64)) h
    simp [hlt] at hbit

theorem rowIsDirty_markRow (t : FramebufferDirtyTracker) (row r : Nat) :
    (t.markRow row).rowIsDirty r = (decide (r = row) || t.rowIsDirty r) := by
  have hpow : (1 : U64) <<< (row % 64) = BitVec.twoPow 64 (row % 64) := rfl
  have hrow : row % 64 < 64 := Nat.mod_lt row (by decide)
  simp only [rowIsDirty_eq, markRow]
  by_cases hword : r / 64 = row / 64
  · rw [hword, Function.update_self, hpow, BitVec.getLsbD_or, BitVec.getLsbD_twoPow, Bool.or_comm]
    congr 1
    have hsame : row % 64 = r % 64 ↔ r = row := by omega
    simp [hsame, hrow]
  · rw [Function.update_of_ne hword]
    have hne : r ≠ row := fun h => hword (h ▸ rfl)
    simp [hne]

theorem rowIsDirty_foldl_markRow (rows : List Nat) (t : FramebufferDirtyTracker) (r : Nat) :
    (rows.foldl markRow t).rowIsDirty r = (decide (r ∈ rows) || t.rowIsDirty r) := by
  induction rows generalizing t with
  | nil => simp
  | cons row rows ih =>
    rw [List.foldl_cons, ih, rowIsDirty_markRow, ← Bool.or_assoc]
    congr 1
    rw [Bool.or_comm]
    simp

/-- The surface the `SoC` configures: 600 rows of 3200 bytes in a RAM that holds more. -/
structure OnSurface (t : FramebufferDirtyTracker) : Prop where
  height : t.height = kFramebufferHeight
  stride : t.stride = kFramebufferStride
  frameBytes : t.frameBytes = kFramebufferSize

theorem foldl_markRow_frame (rows : List Nat) (t : FramebufferDirtyTracker) :
    (rows.foldl markRow t).height = t.height ∧ (rows.foldl markRow t).stride = t.stride ∧
      (rows.foldl markRow t).frameBytes = t.frameBytes ∧
      (rows.foldl markRow t).dirtyGeneration = t.dirtyGeneration := by
  induction rows generalizing t with
  | nil => exact ⟨rfl, rfl, rfl, rfl⟩
  | cons row rows ih => exact ih (t.markRow row)

/-- What a write of the bytes from `lo` to before `hi` does to the tracker: nothing, and
then no row holds any of them, or their rows are marked and the mark is counted. -/
inductive Marked (t t' : FramebufferDirtyTracker) (lo hi : Nat) : Prop where
  | none (same : t' = t) (outside : ∀ i, lo ≤ i → i < hi → kSurfaceBytes ≤ i)
  | rows (surface : t'.OnSurface) (counted : t'.dirtyGeneration = t.dirtyGeneration + 1)
      (keeps : ∀ r, t.rowIsDirty r = true → t'.rowIsDirty r = true)
      (covers : ∀ i, lo ≤ i → i < hi → i < kSurfaceBytes →
        t'.rowIsDirty (i / kFramebufferStride.toNat) = true)

/-- The rows marked hold every surface byte of the write. -/
theorem foldl_markRow_marked {t : FramebufferDirtyTracker} (h : t.OnSurface) {lo hi : Nat}
    (rows : List Nat)
    (hrows : ∀ i, lo ≤ i → i < hi → i < kSurfaceBytes → i / 3200 ∈ rows) :
    Marked t { rows.foldl markRow t with
      dirtyGeneration := (rows.foldl markRow t).dirtyGeneration + 1 } lo hi := by
  obtain ⟨hh, hs, hf, hg⟩ := foldl_markRow_frame rows t
  have hdirty : ∀ r, rowIsDirty { rows.foldl markRow t with
      dirtyGeneration := (rows.foldl markRow t).dirtyGeneration + 1 } r =
        (decide (r ∈ rows) || t.rowIsDirty r) := rowIsDirty_foldl_markRow rows t
  refine .rows ⟨hh.trans h.height, hs.trans h.stride, hf.trans h.frameBytes⟩
    (congrArg (· + 1) hg) (fun r hr => ?_) fun i hlo hhi hsurf => ?_
  · rw [hdirty, hr, Bool.or_true]
  · have hmem : i / kFramebufferStride.toNat ∈ rows := hrows i hlo hhi hsurf
    rw [hdirty, decide_eq_true hmem, Bool.true_or]

theorem markRows_marked {t : FramebufferDirtyTracker} (h : t.OnSurface) {lo hi : Nat}
    {firstRow lastRow : U32} (hfirst : firstRow.toNat = lo / 3200)
    (hlast : ∀ i, lo ≤ i → i < hi → i < kSurfaceBytes → i / 3200 ≤ lastRow.toNat) :
    Marked t (t.markRows firstRow lastRow) lo hi := by
  have hheight : t.height.toNat = 600 := by rw [h.height]; rfl
  unfold markRows
  by_cases hout : t.height ≤ firstRow
  · rw [if_pos hout]
    refine .none rfl fun i hlo _ => ?_
    rw [BitVec.le_def, hheight, hfirst] at hout
    simp only [kSurfaceBytes]
    omega
  · rw [if_neg hout]
    apply foldl_markRow_marked h
    intro i hlo hhi hsurf
    have hi := hlast i hlo hhi hsurf
    have hrow : i / 3200 < 600 := by
      simp only [kSurfaceBytes] at hsurf
      omega
    have hlastRow : i / 3200 ≤
        (if lastRow ≤ t.height - 1 then lastRow else t.height - 1).toNat := by
      split
      · exact hi
      · rw [h.height]
        exact Nat.le_of_lt_succ hrow
    rw [List.mem_range'_1, hfirst]
    omega

/-- The row of a byte inside the frame. -/
theorem toNat_rowOf {x : U64} (hx : x.toNat < 4194304) :
    ((x / kFramebufferStride.setWidth 64).setWidth 32).toNat = x.toNat / 3200 := by
  have hwide : (kFramebufferStride.setWidth 64).toNat = 3200 := rfl
  rw [BitVec.toNat_setWidth, BitVec.toNat_udiv, hwide]
  omega

theorem toNat_lastByte {offset size : U64} (hsize : size ≠ 0)
    (hfit : offset.toNat + size.toNat ≤ 2 ^ 64) :
    (offset + size - 1).toNat = offset.toNat + size.toNat - 1 := by
  have hpos : 0 < size.toNat := Nat.pos_of_ne_zero fun hz => hsize (BitVec.eq_of_toNat_eq hz)
  have hone : (1 : U64).toNat = 1 := rfl
  rw [BitVec.toNat_sub, BitVec.toNat_add, hone]
  omega

theorem onRamWrite_marked {t : FramebufferDirtyTracker} (h : t.OnSurface) {offset size : U64}
    (hfit : offset.toNat + size.toNat ≤ 2 ^ 64) :
    Marked t (t.onRamWrite offset size) offset.toNat (offset.toNat + size.toNat) := by
  unfold onRamWrite
  have hstride : t.stride ≠ 0 := by rw [h.stride]; decide
  have hheight : t.height ≠ 0 := by rw [h.height]; decide
  by_cases hsize : size = 0
  · rw [if_pos (.inl hsize)]
    refine .none rfl fun i hlo hhi => ?_
    have hzero : size.toNat = 0 := by rw [hsize]; rfl
    omega
  · rw [if_neg (by tauto)]
    by_cases hout : t.frameBytes ≤ offset
    · rw [if_pos hout]
      refine .none rfl fun i hlo _ => ?_
      rw [h.frameBytes, BitVec.le_def] at hout
      have hframe : kFramebufferSize.toNat = 4194304 := rfl
      simp only [kSurfaceBytes]
      omega
    · rw [if_neg hout]
      rw [h.frameBytes, h.stride] at *
      have hoff : offset.toNat < 4194304 := by
        rw [BitVec.not_le, BitVec.lt_def] at hout
        exact hout
      have hwrite := toNat_lastByte hsize hfit
      apply markRows_marked h
      · exact toNat_rowOf hoff
      · intro i hlo hhi hsurf
        have hframe : (kFramebufferSize - 1).toNat = 4194303 := rfl
        simp only [kSurfaceBytes] at hsurf
        by_cases hle : kFramebufferSize - 1 ≤ offset + size - 1
        · rw [if_pos hle, toNat_rowOf (by rw [hframe]; omega), hframe]
          omega
        · rw [if_neg hle]
          rw [BitVec.not_le, BitVec.lt_def, hframe, hwrite] at hle
          rw [toNat_rowOf (by rw [hwrite]; omega), hwrite]
          omega

end FramebufferDirtyTracker

/-! ## The routines that write a RAM -/

/-- The bytes of a `std::vector`. -/
structure HostBytes where
  bytes : List U8
  /-- `max_size` -/
  length_lt : bytes.length < 2 ^ 63

namespace HostBytes

def size (b : HostBytes) : U64 := BitVec.ofNat 64 b.bytes.length

def byte (b : HostBytes) (k : Nat) : U8 := b.bytes.getD k 0

theorem size_toNat (b : HostBytes) : b.size.toNat = b.bytes.length := by
  have h := b.length_lt
  rw [size, BitVec.toNat_ofNat]
  omega

end HostBytes

namespace World

variable {E : Type}

/-- The bytes of the framebuffer RAM. -/
def framebuffer (w : World E) : Nat → U8 := (w.rams 1).data

/-- One RAM gets other bytes. -/
def setData (w : World E) (id : RamId) (data : Nat → U8) : World E where
  rams := Function.update w.rams id { w.rams id with data := data }
  tracker := w.tracker
  accesses := w.accesses
  devices := w.devices
  size_eq := by
    intro i
    by_cases hi : i = id
    · subst hi
      rw [Function.update_self]
      exact w.size_eq i
    · rw [Function.update_of_ne hi]
      exact w.size_eq i

/-- `memcpy(data + offset, src, size)` into one RAM. -/
def copy (w : World E) (id : RamId) (offset size : U64) (src : Nat → U8) : World E :=
  w.setData id (storeBytes (w.rams id).data offset.toNat size.toNat src)

/-- `Ram::load_bytes`; `none` is the `false` return. -/
def loadBytes (w : World E) (id : RamId) (offset : U64) (b : HostBytes) : Option (World E) :=
  if (w.rams id).size < offset + b.size then none
  else if b.bytes = [] then some w
  else some ((w.copy id offset b.size b.byte).notifyWrite id offset b.size)

/-- `SoC::load_binary`, which drops what the CPUs have decoded after a load. -/
def loadBinary (w : World E) (addr : U64) (b : HostBytes) : Option (World E) :=
  if inWindow kBootRamBase kBootRamSize addr then w.loadBytes 0 (addr - kBootRamBase) b
  else if inWindow kFramebufferBase kFramebufferSize addr then
    w.loadBytes 1 (addr - kFramebufferBase) b
  else if inWindow kSdramBase kSdramSize addr then w.loadBytes 2 (addr - kSdramBase) b
  else none

/-- `Ram::load_state` with a vector of the right length. -/
def loadState (w : World E) (id : RamId) (data : Nat → U8) : World E :=
  (w.setData id data).notifyWrite id 0 (w.rams id).size

/-- The bus over this world. -/
def bus (fast : Option BusFastPath) (w : World E) : Bus E := ⟨socMappings, fast, w.rams, w.devices⟩

/-- `Bus::write_ram_buffer` here. Its observer, `on_external_ram_write`, goes to the CPUs. -/
def writeRamBuffer (fast : Option BusFastPath) (w : World E) (addr : U64)
    (src : Option (Nat → U8)) (size : U64) : Option (World E) :=
  if size = 0 then some w
  else
    match src with
    | none => none
    | some bytes => ((w.bus fast).ramMutPtr addr size).map fun dst =>
      w.copy dst.ram dst.offset size bytes

/-- What a routine that tells the tracker leaves behind: either no byte of a row has
changed, or the rows of the changed bytes are marked. -/
inductive Tracked (w w' : World E) : Prop where
  | unseen (tracker : w'.tracker = w.tracker)
      (bytes : ∀ i < kSurfaceBytes, w'.framebuffer i = w.framebuffer i)
  | marked (surface : w'.tracker.OnSurface)
      (counted : w'.tracker.dirtyGeneration = w.tracker.dirtyGeneration + 1)
      (keeps : ∀ r, w.tracker.rowIsDirty r = true → w'.tracker.rowIsDirty r = true)
      (covers : ∀ i < kSurfaceBytes, w'.framebuffer i ≠ w.framebuffer i →
        w'.tracker.rowIsDirty (i / kFramebufferStride.toNat) = true)

variable {w w' : World E}

theorem Tracked.of_onRamWrite (h : w.tracker.OnSurface) {offset size : U64}
    (hfit : offset.toNat + size.toNat ≤ 2 ^ 64)
    (htracker : w'.tracker = w.tracker.onRamWrite offset size)
    (hbytes : ∀ i < kSurfaceBytes, w'.framebuffer i ≠ w.framebuffer i →
      offset.toNat ≤ i ∧ i < offset.toNat + size.toNat) : Tracked w w' := by
  have hmark := FramebufferDirtyTracker.onRamWrite_marked h hfit
  rw [← htracker] at hmark
  cases hmark with
  | none same outside =>
    refine .unseen same fun i hi => ?_
    by_contra hne
    obtain ⟨hlo, hhi⟩ := hbytes i hi hne
    exact absurd (outside i hlo hhi) (Nat.not_le.2 hi)
  | rows surface counted keeps covers =>
    refine .marked surface counted keeps fun i hi hne => ?_
    obtain ⟨hlo, hhi⟩ := hbytes i hi hne
    exact covers i hlo hhi hi

theorem storeBytes_ne {data : Nat → U8} {off n : Nat} {src : Nat → U8} {i : Nat}
    (h : storeBytes data off n src i ≠ data i) : off ≤ i ∧ i < off + n := by
  by_contra hout
  exact h (if_neg hout)

theorem framebuffer_setData_of_ne (w : World E) {id : RamId} (h : id ≠ 1) (data : Nat → U8) :
    (w.setData id data).framebuffer = w.framebuffer := by
  simp [framebuffer, setData, Function.update_of_ne (Ne.symm h)]

@[simp] theorem framebuffer_setData (w : World E) (data : Nat → U8) :
    (w.setData 1 data).framebuffer = data := by
  simp [framebuffer, setData]

@[simp] theorem framebuffer_notifyWrite (w : World E) (id : RamId) (offset size : U64) :
    (w.notifyWrite id offset size).framebuffer = w.framebuffer := by
  unfold notifyWrite
  split <;> rfl

/-- New bytes in a RAM, announced by `notify_write`. -/
theorem tracked_notifyWrite (h : w.tracker.OnSurface) {id : RamId} {offset size : U64}
    (hfit : offset.toNat + size.toNat ≤ 2 ^ 64) {data : Nat → U8}
    (hbytes : id = 1 → ∀ i < kSurfaceBytes, data i ≠ w.framebuffer i →
      offset.toNat ≤ i ∧ i < offset.toNat + size.toNat) :
    Tracked w ((w.setData id data).notifyWrite id offset size) := by
  by_cases hid : id = 1
  · subst hid
    by_cases hsize : size = 0
    · refine .unseen (by simp [notifyWrite, hsize, setData]) fun i hi => ?_
      by_contra hne
      rw [framebuffer_notifyWrite, framebuffer_setData] at hne
      obtain ⟨hlo, hhi⟩ := hbytes rfl i hi hne
      have hzero : size.toNat = 0 := by rw [hsize]; rfl
      omega
    · apply Tracked.of_onRamWrite h hfit
      · rw [notifyWrite, if_pos ⟨rfl, hsize⟩]
        rfl
      · intro i hi hne
        rw [framebuffer_notifyWrite, framebuffer_setData] at hne
        exact hbytes rfl i hi hne
  · refine .unseen (by simp [notifyWrite, hid, setData]) fun i _ => ?_
    rw [framebuffer_notifyWrite, framebuffer_setData_of_ne w hid]

/-- A copy announced by `notify_write`, when its end is an address. -/
theorem tracked_copy (h : w.tracker.OnSurface) (id : RamId) {offset size : U64}
    (hfit : offset.toNat + size.toNat ≤ 2 ^ 64) (src : Nat → U8) :
    Tracked w ((w.copy id offset size src).notifyWrite id offset size) := by
  apply tracked_notifyWrite h hfit
  rintro rfl i _ hne
  exact storeBytes_ne hne

/-- A store of up to eight bytes, announced: past the top of the address space it is past
the rows. -/
theorem tracked_store (h : w.tracker.OnSurface) (id : RamId) (offset value : U64) {size : U64}
    (hs : Ram.fastSize size = true) :
    Tracked w ((w.store id offset value size).notifyWrite id offset size) := by
  by_cases hfit : offset.toNat + size.toNat ≤ 2 ^ 64
  · exact tracked_copy h id hfit (byteOf value)
  · have hsmall : size.toNat ≤ 8 := by
      simp only [Ram.fastSize, Bool.or_eq_true, beq_iff_eq] at hs
      rcases hs with ((rfl | rfl) | rfl) | rfl <;> decide
    have hpast : w.tracker.frameBytes ≤ offset := by
      have hframe : kFramebufferSize.toNat = 4194304 := rfl
      rw [h.frameBytes, BitVec.le_def, hframe]
      omega
    refine .unseen ?_ fun i hi => ?_
    · unfold notifyWrite
      split
      · simp only [markFramebuffer, FramebufferDirtyTracker.onRamWrite]
        split
        · rfl
        · exact if_pos hpast
      · rfl
    · rw [framebuffer_notifyWrite]
      by_cases hid : id = 1
      · subst hid
        by_contra hne
        obtain ⟨hlo, -⟩ := storeBytes_ne hne
        simp only [kSurfaceBytes] at hi
        omega
      · rw [show w.store id offset value size = w.setData id _ from rfl,
          framebuffer_setData_of_ne w hid]

theorem tracked_loadBytes (h : w.tracker.OnSurface) {id : RamId} {offset : U64} {b : HostBytes}
    (hoff : offset.toNat < 2 ^ 63) (hload : w.loadBytes id offset b = some w') : Tracked w w' := by
  unfold loadBytes at hload
  split at hload
  · cases hload
  · split at hload
    · cases hload
      exact .unseen rfl fun _ _ => rfl
    · cases hload
      have hsize := b.size_toNat
      have hlen := b.length_lt
      exact tracked_copy h id (by omega) b.byte

theorem tracked_loadBinary (h : w.tracker.OnSurface) {addr : U64} {b : HostBytes}
    (hload : w.loadBinary addr b = some w') : Tracked w w' := by
  have hoff : ∀ base winSize : U64, winSize.toNat < 2 ^ 62 → base.toNat < 2 ^ 62 →
      inWindow base winSize addr = true → (addr - base).toNat < 2 ^ 63 := by
    intro base winSize hwin hbase hin
    simp only [inWindow, Bool.and_eq_true, decide_eq_true_eq, BitVec.le_def, BitVec.lt_def,
      BitVec.toNat_add] at hin
    rw [BitVec.toNat_sub_of_le (BitVec.le_def.2 hin.1)]
    omega
  unfold loadBinary at hload
  split at hload
  · next hin => exact tracked_loadBytes h (hoff _ _ (by decide) (by decide) hin) hload
  · split at hload
    · next hin => exact tracked_loadBytes h (hoff _ _ (by decide) (by decide) hin) hload
    · split at hload
      · next hin => exact tracked_loadBytes h (hoff _ _ (by decide) (by decide) hin) hload
      · cases hload

theorem tracked_loadState (h : w.tracker.OnSurface) (id : RamId) (data : Nat → U8) :
    Tracked w (w.loadState id data) := by
  have hsize : (w.rams id).size.toNat ≤ 2 ^ 64 := Nat.le_of_lt (w.rams id).size.isLt
  have hzero : (0 : U64).toNat = 0 := rfl
  apply tracked_notifyWrite h (by omega)
  rintro rfl i hi _
  have hfb : (w.rams 1).size.toNat = 4194304 := by rw [w.size_eq 1]; rfl
  simp only [kSurfaceBytes] at hi
  omega

/-! ### Guest stores -/

/-- A device that changes its own state only. What it copies through RAM is a step of the
run of its own. -/
def deviceIo (dev : MmioDevice → U64 → U64 → U64 → E → E) : DeviceIo E where
  read := fun _ _ _ w => (0, w)
  write := fun d offset value size w => { w with devices := dev d offset value size w.devices }

/-- The fast path when it is attached. -/
def fast (attached : Bool) : Option BusFastPath := if attached then some SocBus.fastPath else none

/-- Behind the framebuffer test of `write_ram_only` no pointer is into the framebuffer. -/
theorem ramMutPtr_ram_ne {addr size : U64} {p : RamPtr}
    (htest : ¬ (inWindow kFramebufferBase kFramebufferSize addr = true ∧
      size ≤ kFramebufferSize - (addr - kFramebufferBase)))
    (hp : SocBus.fastPath.ramMutPtr addr size = some p) : p.ram ≠ 1 := by
  simp only [BusFastPath.ramMutPtr, windowPtr] at hp
  split at hp
  · split at hp <;> cases hp
    exact Nat.zero_ne_one
  · split at hp
    · split at hp <;> cases hp
      exact Nat.succ_ne_self 1
    · split at hp
      · next hin =>
        split at hp
        · next hfits => exact absurd ⟨hin, hfits⟩ htest
        · cases hp
      · cases hp

theorem tracked_writeRamOnly (h : w.tracker.OnSurface) {addr value size : U64}
    (hw : SocBus.fastPath.writeRamOnly w addr value size = some w') : Tracked w w' := by
  simp only [BusFastPath.writeRamOnly] at hw
  split at hw
  · split at hw
    · next hs =>
      cases hw
      have hstore := tracked_store h 1 (addr - kFramebufferBase) value hs
      have hne : size ≠ 0 := by
        rintro rfl
        exact absurd hs (by decide)
      rwa [notifyWrite, if_pos ⟨rfl, hne⟩] at hstore
    · cases hw
  · next htest =>
    split at hw
    · next p hp =>
      have hram := ramMutPtr_ram_ne htest hp
      split at hw
      · next hs =>
        cases hw
        have hstore := tracked_store h p.ram p.offset value hs
        rwa [notifyWrite, if_neg (fun hone => hram hone.1)] at hstore
      · cases hw
    · cases hw

variable (dev : MmioDevice → U64 → U64 → U64 → E → E)

theorem tracked_deviceWrite (h : w.tracker.OnSurface) (offset value size : U64) (d : DeviceRef) :
    Tracked w (w.deviceWrite (deviceIo dev) offset value size d) := by
  cases d with
  | ram id =>
    simp only [deviceWrite]
    cases hwrite : (w.rams id).writeFast offset value size with
    | none => exact .unseen rfl fun _ _ => rfl
    | some r =>
      have hs := ((w.rams id).writeFast_isSome_iff offset value size).1 (by rw [hwrite]; rfl)
      exact tracked_store h id offset value hs.1
  | mmio d => exact .unseen rfl fun _ _ => rfl

theorem tracked_write (h : w.tracker.OnSurface) (attached : Bool) {addr value size : U64}
    (hw : SocBus.write (fast attached) (deviceIo dev) w addr value size = some w') :
    Tracked w w' := by
  have hplain : ∀ u : Option (World E), u = (SocBus.find addr size).map
      (fun m => w.deviceWrite (deviceIo dev) (addr - m.base) value size m.device) →
      u = some w' → Tracked w w' := by
    rintro u rfl hu
    obtain ⟨m, -, rfl⟩ := Option.map_eq_some_iff.1 hu
    exact tracked_deviceWrite dev h _ value size m.device
  unfold SocBus.write at hw
  split at hw
  · next w'' hfast =>
    cases hw
    cases attached with
    | false => cases hfast
    | true =>
      change SocBus.fastPath.write (deviceIo dev) w addr value size = some w' at hfast
      unfold BusFastPath.write at hfast
      split at hfast
      · next hram =>
        cases hfast
        exact tracked_writeRamOnly h hram
      · obtain ⟨q, -, rfl⟩ := Option.map_eq_some_iff.1 hfast
        exact tracked_deviceWrite dev h _ value size (.mmio q.1)
  · exact hplain _ rfl hw

theorem tracked_writeRamFast (h : w.tracker.OnSurface) (attached : Bool) {addr value size : U64}
    (hw : SocBus.writeRamFast (fast attached) w addr value size = some w') : Tracked w w' := by
  cases attached with
  | false => cases hw
  | true => exact tracked_writeRamOnly h hw

end World

/-! ## The window -/

/-- The world with the rest of the tracker and what has changed on the screen. -/
structure Display (E : Type) where
  world : World E
  /-- `consumed_generation_` -/
  consumedGeneration : U64
  /-- the bytes of the framebuffer RAM that a step has changed since the last present -/
  changed : Set Nat

namespace Display

variable {E : Type}

/-- `has_dirty`. -/
def hasDirty (s : Display E) : Bool := s.world.tracker.dirtyGeneration != s.consumedGeneration

/-- `consume_dirty_rows` and the spans it gives. -/
def consumeDirtyRows (s : Display E) : List RowSpan × Display E :=
  if !s.hasDirty then ([], s)
  else
    (s.world.tracker.dirtySpans,
      { s with
        world := { s.world with tracker := { s.world.tracker with dirtyRows := fun _ => 0 } }
        consumedGeneration := s.world.tracker.dirtyGeneration })

/-- A present now would upload this row. -/
def Reports (s : Display E) (row : Nat) : Prop := ∃ span ∈ s.consumeDirtyRows.1, span.Covers row

/-- `FramebufferSdl::present` when its time has come, with the result of
`SDL_UpdateTexture`; a present that is not due touches nothing. -/
def present (s : Display E) (uploaded : Bool) : Display E :=
  if !s.hasDirty then s
  else
    let (rows, s) := s.consumeDirtyRows
    if rows.isEmpty then s else if uploaded then { s with changed := ∅ } else s

/-- The constructor of `FramebufferSdl`: the whole frame is shown and the marks consumed. -/
def openWindow (s : Display E) : Display E := { s.consumeDirtyRows.2 with changed := ∅ }

/-- The result of a routine that writes, if it took the write. -/
def write (s : Display E) : Option (World E) → Display E
  | none => s
  | some w => { s with
      world := w
      changed := s.changed ∪ {i | w.framebuffer i ≠ s.world.framebuffer i} }

/-- What can happen to the framebuffer. -/
inductive Act where
  /-- `Bus::write` -/
  | store (addr value size : U64)
  /-- `Bus::write_ram_fast` -/
  | storeRamFast (addr value size : U64)
  /-- `Bus::write_ram_buffer`, the copy of a device -/
  | copy (addr : U64) (src : Option (Nat → U8)) (size : U64)
  | loadBinary (addr : U64) (bytes : HostBytes)
  | loadState (id : RamId) (data : Nat → U8)
  | present (uploaded : Bool)
  | openWindow

variable (attached : Bool) (dev : MmioDevice → U64 → U64 → U64 → E → E)

def step (s : Display E) : Act → Display E
  | .store addr value size =>
    s.write (SocBus.write (World.fast attached) (World.deviceIo dev) s.world addr value size)
  | .storeRamFast addr value size =>
    s.write (SocBus.writeRamFast (World.fast attached) s.world addr value size)
  | .copy addr src size => s.write (s.world.writeRamBuffer (World.fast attached) addr src size)
  | .loadBinary addr bytes => s.write (s.world.loadBinary addr bytes)
  | .loadState id data => s.write (some (s.world.loadState id data))
  | .present uploaded => s.present uploaded
  | .openWindow => s.openWindow

/-- Every byte of a row that has changed since the last present is in a row the tracker
reports. -/
def Complete (s : Display E) : Prop :=
  ∀ i ∈ s.changed, i < kSurfaceBytes → s.Reports (i / kFramebufferStride.toNat)

/-- The 64-bit count of marks does not come round to the count last consumed. -/
def CountOk (s : Display E) : Act → Prop
  | .store .. | .storeRamFast .. | .loadBinary .. | .loadState .. =>
    s.world.tracker.dirtyGeneration + 1 ≠ s.consumedGeneration
  | _ => True

/-- The steps that leave the tracking complete: a device copies other bytes only into rows
that are reported already, and an upload fails only where no row has changed. -/
def StepOk (s : Display E) : Act → Prop
  | .copy addr src size => ∀ bytes dst, src = some bytes →
      (s.world.bus (World.fast attached)).ramMutPtr addr size = some dst → dst.ram = 1 →
      ∀ k < size.toNat, dst.offset.toNat + k < kSurfaceBytes →
        bytes k ≠ s.world.framebuffer (dst.offset.toNat + k) →
        s.Reports ((dst.offset.toNat + k) / kFramebufferStride.toNat)
  | .present uploaded => uploaded = true ∨ ∀ i ∈ s.changed, kSurfaceBytes ≤ i
  | _ => True

/-- A new `SoC` without a window. -/
def boot (e : E) : Display E where
  world :=
    { rams := socRams
      tracker := ⟨kFramebufferHeight, kFramebufferStride, kFramebufferSize, fun _ => 0, 0⟩
      accesses := []
      devices := e
      size_eq := SocBus.quietWorld.size_eq }
  consumedGeneration := 0
  changed := ∅

/-! ### What one step preserves -/

variable {s : Display E}

theorem reports_iff (s : Display E) (row : Nat) :
    s.Reports row ↔ s.hasDirty = true ∧ row < s.world.tracker.height.toNat ∧
      s.world.tracker.rowIsDirty row = true := by
  unfold Reports consumeDirtyRows
  by_cases hd : s.hasDirty = true
  · simp only [hd, Bool.not_true, Bool.false_eq_true, if_false, true_and]
    exact s.world.tracker.dirtySpans_covers_iff row
  · simp [hd]

/-- After `consume_dirty_rows` no row is reported. -/
theorem not_reports_consumed (s : Display E) (row : Nat) :
    ¬ s.consumeDirtyRows.2.Reports row := by
  rw [reports_iff]
  rintro ⟨hd, -⟩
  unfold consumeDirtyRows at hd
  split at hd
  · next hn => rw [hd] at hn; cases hn
  · simp [hasDirty] at hd

/-- The invariant: the surface the `SoC` configured, tracked completely. -/
structure Inv (s : Display E) : Prop where
  surface : s.world.tracker.OnSurface
  complete : s.Complete

theorem boot_inv (e : E) : (boot e).Inv where
  surface := ⟨rfl, rfl, rfl⟩
  complete := fun _ hi => hi.elim

/-- A routine that tells the tracker. -/
theorem Inv.write_tracked (h : s.Inv)
    (hcount : s.world.tracker.dirtyGeneration + 1 ≠ s.consumedGeneration)
    {u : Option (World E)} (hu : ∀ w', u = some w' → World.Tracked s.world w') :
    (s.write u).Inv := by
  cases u with
  | none => exact h
  | some w' =>
    cases hu w' rfl with
    | unseen tracker bytes =>
      refine ⟨?_, fun i hi hsurf => ?_⟩
      · show w'.tracker.OnSurface
        rw [tracker]
        exact h.surface
      · have hold : i ∈ s.changed := by
          rcases hi with hi | hi
          · exact hi
          · exact absurd (bytes i hsurf) hi
        have hrep := h.complete i hold hsurf
        rw [reports_iff] at hrep ⊢
        simp only [write, hasDirty, tracker] at hrep ⊢
        exact hrep
    | marked surface counted keeps covers =>
      refine ⟨surface, fun i hi hsurf => ?_⟩
      rw [reports_iff]
      refine ⟨?_, ?_, ?_⟩
      · simp only [write, hasDirty, counted, bne_iff_ne]
        exact hcount
      · have hheight : kFramebufferHeight.toNat = 600 := rfl
        have hstride : kFramebufferStride.toNat = 3200 := rfl
        simp only [write, surface.height, hheight, hstride]
        simp only [kSurfaceBytes] at hsurf
        omega
      · rcases hi with hi | hi
        · have hrep := h.complete i hi hsurf
          rw [reports_iff] at hrep
          exact keeps _ hrep.2.2
        · exact covers i hsurf hi

/-- A routine that does not tell the tracker. -/
theorem Inv.write_complete_iff (h : s.Inv) {w' : World E}
    (htracker : w'.tracker = s.world.tracker) :
    (s.write (some w')).Complete ↔
      ∀ i < kSurfaceBytes, w'.framebuffer i ≠ s.world.framebuffer i →
        s.Reports (i / kFramebufferStride.toNat) := by
  have hrep : ∀ r, (s.write (some w')).Reports r ↔ s.Reports r := by
    intro r
    rw [reports_iff, reports_iff]
    simp only [write, hasDirty, htracker]
  constructor
  · intro hc i hsurf hne
    exact (hrep _).1 (hc i (.inr hne) hsurf)
  · intro hok i hi hsurf
    rw [hrep]
    rcases hi with hi | hi
    · exact h.complete i hi hsurf
    · exact hok i hsurf hi

theorem framebuffer_copy_ne_iff (w : World E) (dst : RamPtr) (size : U64) (bytes : Nat → U8)
    (i : Nat) :
    (w.copy dst.ram dst.offset size bytes).framebuffer i ≠ w.framebuffer i ↔
      dst.ram = 1 ∧ ∃ k < size.toNat, i = dst.offset.toNat + k ∧ bytes k ≠ w.framebuffer i := by
  by_cases hram : dst.ram = 1
  · rw [hram, World.copy, World.framebuffer_setData, storeBytes]
    by_cases hin : dst.offset.toNat ≤ i ∧ i < dst.offset.toNat + size.toNat
    · rw [if_pos hin]
      constructor
      · exact fun hne => ⟨rfl, i - dst.offset.toNat, by omega, by omega, hne⟩
      · rintro ⟨-, k, -, rfl, hne⟩
        rwa [Nat.add_sub_cancel_left]
    · rw [if_neg hin]
      constructor
      · exact fun hne => absurd rfl hne
      · rintro ⟨-, k, hk, rfl, -⟩
        exact absurd ⟨Nat.le_add_right _ k, Nat.add_lt_add_left hk _⟩ hin
  · rw [World.copy, World.framebuffer_setData_of_ne w hram]
    exact ⟨fun hne => absurd rfl hne, fun hone => absurd hone.1 hram⟩

/-- A device's copy: complete exactly when the rows it changes are reported already. -/
theorem Inv.copy_complete_iff (h : s.Inv) (addr : U64) (src : Option (Nat → U8)) (size : U64) :
    (step attached dev s (.copy addr src size)).Complete ↔
      StepOk attached s (.copy addr src size) := by
  simp only [step, World.writeRamBuffer, StepOk]
  by_cases hsize : size = 0
  · rw [if_pos hsize, h.write_complete_iff rfl]
    constructor
    · intro _ bytes dst _ _ _ k hk
      rw [hsize] at hk
      exact absurd hk (Nat.not_lt_zero k)
    · exact fun _ i _ hne => absurd rfl hne
  · rw [if_neg hsize]
    cases src with
    | none => exact ⟨fun _ _ _ hsrc => (nomatch hsrc), fun _ => h.complete⟩
    | some bytes =>
      cases hptr : (s.world.bus (World.fast attached)).ramMutPtr addr size with
      | none => exact ⟨fun _ _ _ _ hdst => (nomatch hdst), fun _ => h.complete⟩
      | some dst =>
        have htracker : (s.world.copy dst.ram dst.offset size bytes).tracker =
          s.world.tracker := rfl
        simp only [Option.map_some]
        rw [h.write_complete_iff htracker]
        constructor
        · rintro hall bytes' dst' ⟨⟩ ⟨⟩ hram k hk hsurf hne
          exact hall _ hsurf ((framebuffer_copy_ne_iff s.world dst size bytes _).2
            ⟨hram, k, hk, rfl, hne⟩)
        · intro hok i hsurf hne
          obtain ⟨hram, k, hk, rfl, hne⟩ := (framebuffer_copy_ne_iff s.world dst size bytes i).1 hne
          exact hok bytes dst rfl rfl hram k hk hsurf hne

theorem consumed_surface (h : s.world.tracker.OnSurface) :
    s.consumeDirtyRows.2.world.tracker.OnSurface := by
  unfold consumeDirtyRows
  split
  · exact h
  · exact ⟨h.height, h.stride, h.frameBytes⟩

theorem consumed_changed (s : Display E) : s.consumeDirtyRows.2.changed = s.changed := by
  unfold consumeDirtyRows
  split <;> rfl

theorem present_surface (h : s.world.tracker.OnSurface) (uploaded : Bool) :
    (s.present uploaded).world.tracker.OnSurface := by
  have hc := consumed_surface h
  simp only [present]
  split
  · exact h
  · split
    · exact hc
    · split <;> exact hc

/-- A present leaves nothing out unless an upload fails with a changed row in hand. -/
theorem Inv.present_complete_iff (h : s.Inv) (uploaded : Bool) :
    (s.present uploaded).Complete ↔ StepOk attached s (.present uploaded) := by
  simp only [present, StepOk]
  by_cases hd : s.hasDirty = true
  · have hconsumed : s.consumeDirtyRows.2.Complete ↔ ∀ i ∈ s.changed, kSurfaceBytes ≤ i := by
      rw [Complete, consumed_changed]
      constructor
      · intro hc i hi
        by_contra hsurf
        exact not_reports_consumed s _ (hc i hi (Nat.not_le.1 hsurf))
      · exact fun hout i hi hsurf => absurd (hout i hi) (Nat.not_le.2 hsurf)
    rw [hd, Bool.not_true, if_neg Bool.false_ne_true]
    by_cases hempty : s.consumeDirtyRows.1.isEmpty = true
    · -- nothing reported, so nothing changed
      rw [if_pos hempty, hconsumed]
      have hnone : ∀ i ∈ s.changed, kSurfaceBytes ≤ i := by
        intro i hi
        by_contra hsurf
        obtain ⟨span, hmem, -⟩ := h.complete i hi (Nat.not_le.1 hsurf)
        rw [List.isEmpty_iff.1 hempty] at hmem
        cases hmem
      exact ⟨fun _ => .inr hnone, fun _ => hnone⟩
    · rw [if_neg hempty]
      cases uploaded with
      | true => exact ⟨fun _ => .inl rfl, fun _ _ hi _ => hi.elim⟩
      | false =>
        rw [if_neg Bool.false_ne_true, hconsumed]
        exact ⟨.inr, fun hok => hok.resolve_left Bool.false_ne_true⟩
  · rw [Bool.eq_false_iff.2 hd, Bool.not_false, if_pos rfl]
    refine ⟨fun _ => .inr fun i hi => ?_, fun _ => h.complete⟩
    by_contra hsurf
    have hrep := h.complete i hi (Nat.not_le.1 hsurf)
    rw [reports_iff] at hrep
    exact hd hrep.1

theorem openWindow_inv (h : s.world.tracker.OnSurface) : s.openWindow.Inv :=
  ⟨consumed_surface h, fun _ hi => hi.elim⟩

/-- What one step does to the invariant. -/
theorem Inv.step (h : s.Inv) (a : Act) (hcount : s.CountOk a) :
    (step attached dev s a).world.tracker.OnSurface ∧
      ((step attached dev s a).Complete ↔ StepOk attached s a) := by
  have hwrite : ∀ {u : Option (World E)}, s.world.tracker.dirtyGeneration + 1 ≠
      s.consumedGeneration → (∀ w', u = some w' → World.Tracked s.world w') →
      (s.write u).world.tracker.OnSurface ∧ ((s.write u).Complete ↔ True) := by
    intro u hc hu
    have hinv := h.write_tracked hc hu
    exact ⟨hinv.surface, iff_true_intro hinv.complete⟩
  cases a with
  | store addr value size =>
    exact hwrite hcount fun w' hw => World.tracked_write dev h.surface attached hw
  | storeRamFast addr value size =>
    exact hwrite hcount fun w' hw => World.tracked_writeRamFast h.surface attached hw
  | copy addr src size =>
    refine ⟨?_, h.copy_complete_iff attached dev addr src size⟩
    have htracker : (Display.step attached dev s (.copy addr src size)).world.tracker =
        s.world.tracker := by
      simp only [Display.step, World.writeRamBuffer]
      split
      · rfl
      · cases src with
        | none => rfl
        | some bytes =>
          cases (s.world.bus (World.fast attached)).ramMutPtr addr size <;> rfl
    rw [htracker]
    exact h.surface
  | loadBinary addr bytes =>
    exact hwrite hcount fun w' hw => World.tracked_loadBinary h.surface hw
  | loadState id data =>
    have htracked := World.tracked_loadState h.surface id data
    exact hwrite hcount fun w' hw => Option.some.inj hw ▸ htracked
  | present uploaded =>
    exact ⟨present_surface h.surface uploaded, h.present_complete_iff attached uploaded⟩
  | openWindow =>
    have hinv := openWindow_inv h.surface
    exact ⟨hinv.surface, iff_true_intro hinv.complete⟩

/-! ### What a run preserves -/

theorem Inv.run_complete_iff {acts : List Act} (h : s.Inv)
    (hcount : Along (Display.step attached dev) CountOk s acts) :
    (∀ before, before <+: acts → (run (Display.step attached dev) s before).Complete) ↔
      Along (Display.step attached dev) (StepOk attached) s acts := by
  induction acts generalizing s with
  | nil =>
    refine ⟨fun _ => trivial, fun _ before hb => ?_⟩
    rw [List.prefix_nil.1 hb]
    exact h.complete
  | cons a acts ih =>
    obtain ⟨hsurface, hstep⟩ := h.step attached dev a hcount.1
    rw [along_cons, ← hstep]
    constructor
    · intro hall
      have hc := hall [a] (List.prefix_cons_inj a |>.2 List.nil_prefix)
      refine ⟨hc, (ih ⟨hsurface, hc⟩ hcount.2).1 fun before hb => ?_⟩
      exact hall (a :: before) ((List.prefix_cons_inj a).2 hb)
    · rintro ⟨hc, hrest⟩ before hb
      cases before with
      | nil => exact h.complete
      | cons b before =>
        obtain ⟨rfl, htail⟩ := List.cons_prefix_cons.1 hb
        exact (ih ⟨hsurface, hc⟩ hcount.2).2 hrest before htail

/-- Over every run in which the count of marks does not come round: the tracking is
complete in every state reached exactly when no device copies other bytes into rows that
are not reported, and no upload fails over a changed row. -/
theorem framebuffer_tracked_iff (e : E) (acts : List Act)
    (hcount : Along (Display.step attached dev) CountOk (boot e) acts) :
    (∀ before, before <+: acts → (run (Display.step attached dev) (boot e) before).Complete) ↔
      Along (Display.step attached dev) (StepOk attached) (boot e) acts :=
  (boot_inv e).run_complete_iff attached dev hcount

/-- A guest stores into row 1, the window shows it, a device copies into the SDRAM. -/
def drawing : List Act :=
  [.store (kFramebufferBase + 3200) 0xFF 8, .present true, .copy kSdramBase (some fun _ => 7) 512]

theorem framebuffer_tracked_drawing :
    drawing.length = 3 ∧ ∀ before, before <+: drawing →
      (run (Display.step true fun _ _ _ _ e => e) (boot ()) before).Complete := by
  have hcount : Along (Display.step true fun _ _ _ _ e => e) CountOk (boot ()) drawing := by
    refine ⟨?_, trivial, trivial, trivial⟩
    show (0 : U64) + 1 ≠ 0
    decide
  refine ⟨rfl, (framebuffer_tracked_iff true (fun _ _ _ _ e => e) () drawing hcount).2 ?_⟩
  refine ⟨trivial, .inl rfl, ?_, trivial⟩
  intro bytes dst _ hdst hram
  obtain rfl : dst = ⟨2, 0⟩ := Option.some.inj (hdst.symm.trans rfl)
  cases hram

/-- A device copies one byte into row 1: no row is reported. -/
theorem copied_byte_not_reported :
    ¬ (run (Display.step true fun _ _ _ _ e => e) (boot ())
      [.copy (kFramebufferBase + 3200) (some fun _ => 0xFF) 1]).Complete := by
  intro hc
  have hstep := ((boot_inv ()).step true (fun _ _ _ _ e => e)
    (.copy (kFramebufferBase + 3200) (some fun _ => 0xFF) 1) trivial).2.1 hc
  have hrep := hstep (fun _ => 0xFF) ⟨1, 3200⟩ rfl rfl rfl 0 (by decide) (by decide) (by decide)
  rw [reports_iff] at hrep
  exact absurd hrep.1 (by decide)

end Display
end Aarchvm
