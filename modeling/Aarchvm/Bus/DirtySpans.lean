import Aarchvm.Bus.Dirty

/-!
# The spans of the dirty tracker

A tracker of any size over runs of writes and consumes. The rows of a write are cast to 32 bits
before they are compared with the height, so a frame of more than `2 ^ 32` rows can lose rows or
mark rows that were not written.
-/
namespace Aarchvm

open Lib.Run

/-- There is a row between the two spans. -/
def RowSpan.Before (a b : RowSpan) : Prop := a.last + 1 < b.first

namespace SpanScan

/-- What the loop keeps of its spans: each is in order, and two of them have a clean row between
them. -/
structure Separated (s : SpanScan) (n : Nat) : Prop where
  ordered : ∀ span ∈ s.out, span.first ≤ span.last
  separated : s.out.Pairwise RowSpan.Before
  before : ∀ span ∈ s.out, span.last + 1 < n
  beforeRun : s.inRun = true → s.runFirst < n ∧ ∀ span ∈ s.out, span.last + 1 < s.runFirst

variable {dirty : Nat → Bool} {s : SpanScan} {n : Nat}

/-- The spans after the open run has ended. -/
theorem Separated.close (h : Separated s n) (hrun : s.inRun = true) :
    (∀ span ∈ s.out ++ [(⟨s.runFirst, n - 1⟩ : RowSpan)], span.first ≤ span.last) ∧
      (s.out ++ [(⟨s.runFirst, n - 1⟩ : RowSpan)]).Pairwise RowSpan.Before := by
  obtain ⟨hstart, hbefore⟩ := h.beforeRun hrun
  constructor
  · intro span hspan
    rcases List.mem_append.1 hspan with hspan | hspan
    · exact h.ordered span hspan
    · rw [List.mem_singleton.1 hspan]
      dsimp only
      omega
  · refine List.pairwise_append.2 ⟨h.separated, List.pairwise_singleton _ _, ?_⟩
    intro a ha b hb
    rw [List.mem_singleton.1 hb]
    exact hbefore a ha

theorem Separated.row (h : Separated s n) : Separated (s.row dirty n) (n + 1) := by
  unfold SpanScan.row
  by_cases hd : dirty n = true
  · rw [if_pos hd]
    by_cases hrun : s.inRun = true
    · rw [if_pos hrun]
      refine ⟨h.ordered, h.separated, fun span hspan => Nat.lt_succ_of_lt (h.before span hspan), ?_⟩
      intro _
      obtain ⟨hstart, hbefore⟩ := h.beforeRun hrun
      exact ⟨Nat.lt_succ_of_lt hstart, hbefore⟩
    · rw [if_neg hrun]
      exact ⟨h.ordered, h.separated, fun span hspan => Nat.lt_succ_of_lt (h.before span hspan),
        fun _ => ⟨Nat.lt_succ_self n, h.before⟩⟩
  · rw [if_neg hd]
    by_cases hrun : s.inRun = true
    · rw [if_pos hrun]
      obtain ⟨hordered, hseparated⟩ := h.close hrun
      refine ⟨hordered, hseparated, fun span hspan => ?_, fun hopen => nomatch hopen⟩
      have hstart := (h.beforeRun hrun).1
      rcases List.mem_append.1 hspan with hspan | hspan
      · exact Nat.lt_succ_of_lt (h.before span hspan)
      · rw [List.mem_singleton.1 hspan]
        dsimp only
        omega
    · rw [if_neg hrun]
      exact ⟨h.ordered, h.separated, fun span hspan => Nat.lt_succ_of_lt (h.before span hspan),
        fun hopen => absurd hopen hrun⟩

theorem separated_foldl (dirty : Nat → Bool) (n : Nat) :
    Separated ((List.range n).foldl (SpanScan.row dirty) ⟨false, 0, []⟩) n := by
  induction n with
  | zero => exact ⟨nofun, .nil, nofun, nofun⟩
  | succ n ih =>
    rw [List.range_succ, List.foldl_append]
    exact ih.row

end SpanScan

namespace FramebufferDirtyTracker

theorem dirtySpans_separated (t : FramebufferDirtyTracker) :
    (∀ span ∈ t.dirtySpans, span.first ≤ span.last) ∧
      t.dirtySpans.Pairwise RowSpan.Before := by
  have hscan := SpanScan.separated_foldl t.rowIsDirty t.height.toNat
  unfold dirtySpans
  generalize (List.range t.height.toNat).foldl (SpanScan.row t.rowIsDirty) ⟨false, 0, []⟩ = s
    at hscan ⊢
  by_cases hrun : s.inRun = true
  · rw [if_pos hrun]
    exact hscan.close hrun
  · rw [if_neg hrun]
    exact ⟨hscan.ordered, hscan.separated⟩

/-! ## The rows of a write -/

/-- The row of the first byte of a write. -/
def firstRow (t : FramebufferDirtyTracker) (offset : U64) : Nat := offset.toNat / t.stride.toNat

/-- The row of the last byte of a write below the frame size. -/
def lastRow (t : FramebufferDirtyTracker) (offset size : U64) : Nat :=
  min (t.frameBytes.toNat - 1) (offset.toNat + size.toNat - 1) / t.stride.toNat

/-- A byte of the write below the frame size lies in the row. -/
def Touches (t : FramebufferDirtyTracker) (offset size : U64) (row : Nat) : Prop :=
  ∃ i, offset.toNat ≤ i ∧ i < offset.toNat + size.toNat ∧ i < t.frameBytes.toNat ∧
    row * t.stride.toNat ≤ i ∧ i < (row + 1) * t.stride.toNat

variable {t : FramebufferDirtyTracker} {offset size : U64}

/-- The bytes of the write below the frame size are an interval, and so are their rows. -/
theorem touches_iff (hstride : t.stride ≠ 0) (row : Nat) :
    t.Touches offset size row ↔ (size ≠ 0 ∧ offset.toNat < t.frameBytes.toNat) ∧
      t.firstRow offset ≤ row ∧ row ≤ t.lastRow offset size := by
  have hpos : 0 < t.stride.toNat :=
    Nat.pos_of_ne_zero fun h => hstride (BitVec.eq_of_toNat_eq h)
  have hsize : size ≠ 0 ↔ 0 < size.toNat := by
    rw [Nat.pos_iff_ne_zero]
    exact not_congr ⟨fun h => congrArg BitVec.toNat h, fun h => BitVec.eq_of_toNat_eq h⟩
  rw [firstRow, lastRow, hsize, Nat.div_le_iff_le_mul_add_pred hpos, Nat.le_div_iff_mul_le hpos,
    Touches, Nat.succ_mul, Nat.mul_comm t.stride.toNat]
  generalize row * t.stride.toNat = start
  constructor
  · rintro ⟨i, hlo, hhi, hframe, hrow, hrow'⟩
    omega
  · rintro ⟨⟨hne, hframe⟩, hfirst, hlast⟩
    exact ⟨max offset.toNat start, by omega, by omega, by omega, by omega, by omega⟩

/-- The write marks rows. -/
def Marks (t : FramebufferDirtyTracker) (offset size : U64) : Prop :=
  size ≠ 0 ∧ offset.toNat < t.frameBytes.toNat ∧ t.firstRow offset % 2 ^ 32 < t.height.toNat

/-- The cast of the first and the last row to 32 bits does not show. -/
def RowsOk (t : FramebufferDirtyTracker) (offset size : U64) : Prop :=
  size ≠ 0 → offset.toNat < t.frameBytes.toNat →
    (t.firstRow offset < t.height.toNat → t.lastRow offset size < 2 ^ 32 ∨
      t.height.toNat ≤ t.lastRow offset size % 2 ^ 32 + 1) ∧
    (2 ^ 32 ≤ t.firstRow offset → t.height.toNat ≤ t.firstRow offset % 2 ^ 32 ∨
      t.lastRow offset size % 2 ^ 32 < t.firstRow offset % 2 ^ 32)

/-- The rows that the write marks are those it touches exactly when the cast does not show. -/
theorem rowsOk_iff (hstride : t.stride ≠ 0) :
    t.RowsOk offset size ↔ ∀ row < t.height.toNat,
      (size ≠ 0 ∧ offset.toNat < t.frameBytes.toNat) ∧ t.firstRow offset % 2 ^ 32 ≤ row ∧
        row ≤ t.lastRow offset size % 2 ^ 32 ↔ t.Touches offset size row := by
  simp only [touches_iff hstride, and_congr_right_iff]
  have hheight := t.height.isLt
  have hle : size ≠ 0 ∧ offset.toNat < t.frameBytes.toNat →
      t.firstRow offset ≤ t.lastRow offset size := by
    rintro ⟨hne, hframe⟩
    have hpos : size.toNat ≠ 0 := fun h => hne (BitVec.eq_of_toNat_eq h)
    exact Nat.div_le_div_right (by omega)
  rw [RowsOk]
  constructor
  · intro h row hrow hin
    obtain ⟨hlow, hhigh⟩ := h hin.1 hin.2
    have hle := hle hin
    generalize t.firstRow offset = first at *
    generalize t.lastRow offset size = last at *
    omega
  · intro h hne hframe
    have hle := hle ⟨hne, hframe⟩
    have h := fun row hrow => h row hrow ⟨hne, hframe⟩
    generalize t.firstRow offset = first at *
    generalize t.lastRow offset size = last at *
    constructor
    · intro hfirst
      have htop := h (t.height.toNat - 1) (by omega)
      omega
    · intro hfirst
      by_contra hcast
      have hrow := h (first % 2 ^ 32) (by omega)
      omega

theorem markRows_rows (t : FramebufferDirtyTracker) (first last : U32) {row : Nat}
    (hrow : row < t.height.toNat) :
    (t.markRows first last).rowIsDirty row = true ↔
      first.toNat ≤ row ∧ row ≤ last.toNat ∨ t.rowIsDirty row = true := by
  have hone : (1 : U32).toNat = 1 := rfl
  have hlast : (t.height - 1).toNat = t.height.toNat - 1 := by
    rw [BitVec.toNat_sub, hone]
    omega
  unfold markRows
  by_cases hout : t.height ≤ first
  · rw [if_pos hout]
    have hout := BitVec.le_def.1 hout
    exact (or_iff_right fun h => by omega).symm
  · have hfirst : first.toNat < t.height.toNat :=
      Nat.lt_of_not_le fun h => hout (BitVec.le_def.2 h)
    rw [if_neg hout]
    refine (Bool.eq_iff_iff.1 (rowIsDirty_foldl_markRow _ t row)).trans ?_
    rw [Bool.or_eq_true, decide_eq_true_eq, List.mem_range'_1]
    refine or_congr_left ?_
    split
    · next hle => omega
    · next hgt =>
      have hgt := Nat.lt_of_not_le fun h => hgt (BitVec.le_def.2 h)
      omega

/-- What `mark_rows` keeps, and that it counts the mark. -/
theorem markRows_frame (t : FramebufferDirtyTracker) {first : U32} (last : U32)
    (h : first.toNat < t.height.toNat) :
    (t.markRows first last).height = t.height ∧ (t.markRows first last).stride = t.stride ∧
      (t.markRows first last).frameBytes = t.frameBytes ∧
      (t.markRows first last).dirtyGeneration = t.dirtyGeneration + 1 := by
  have hin : ¬ t.height ≤ first := fun hle => Nat.not_le_of_lt h (BitVec.le_def.1 hle)
  unfold markRows
  rw [if_neg hin]
  obtain ⟨hheight, hstride, hframe, hcount⟩ := foldl_markRow_frame _ t
  exact ⟨hheight, hstride, hframe, congrArg (· + 1) hcount⟩

theorem toNat_row (x : U64) (stride : U32) :
    ((x / stride.setWidth 64).setWidth 32).toNat = x.toNat / stride.toNat % 2 ^ 32 := by
  rw [BitVec.toNat_setWidth, BitVec.toNat_udiv, BitVec.toNat_setWidth_of_le (by decide)]

theorem toNat_clamp {x y : U64} : (if x ≤ y then x else y).toNat = min x.toNat y.toNat := by
  split
  · next h => exact (Nat.min_eq_left (BitVec.le_def.1 h)).symm
  · next h => exact (Nat.min_eq_right (Nat.le_of_not_le fun hle => h (BitVec.le_def.2 hle))).symm

/-- `on_ram_write` marks the rows from the first to the last, both cast to 32 bits. -/
theorem onRamWrite_eq (hstride : t.stride ≠ 0) (hheight : t.height ≠ 0)
    (hfit : offset.toNat + size.toNat < 2 ^ 64) (hsize : size ≠ 0)
    (hframe : offset.toNat < t.frameBytes.toNat) :
    t.onRamWrite offset size = t.markRows (BitVec.ofNat 32 (t.firstRow offset))
      (BitVec.ofNat 32 (t.lastRow offset size)) := by
  have hone : (1 : U64).toNat = 1 := rfl
  have hlast : (t.frameBytes - 1).toNat = t.frameBytes.toNat - 1 := by
    have hlt := t.frameBytes.isLt
    rw [BitVec.toNat_sub, hone]
    omega
  have hout : ¬ t.frameBytes ≤ offset := fun h => Nat.not_le_of_lt hframe (BitVec.le_def.1 h)
  rw [onRamWrite, if_neg (by tauto), if_neg hout]
  have hfirst : (offset / t.stride.setWidth 64).setWidth 32 =
      BitVec.ofNat 32 (t.firstRow offset) := by
    apply BitVec.eq_of_toNat_eq
    rw [toNat_row, BitVec.toNat_ofNat]
    rfl
  have hlast : ((if t.frameBytes - 1 ≤ offset + size - 1 then t.frameBytes - 1
      else offset + size - 1) / t.stride.setWidth 64).setWidth 32 =
        BitVec.ofNat 32 (t.lastRow offset size) := by
    apply BitVec.eq_of_toNat_eq
    rw [toNat_row, toNat_clamp, hlast, toNat_lastByte hsize hfit.le, BitVec.toNat_ofNat, lastRow]
  dsimp only
  rw [hfirst, hlast]

theorem onRamWrite_outside (h : ¬ (size ≠ 0 ∧ offset.toNat < t.frameBytes.toNat)) :
    t.onRamWrite offset size = t := by
  rw [onRamWrite]
  split
  · rfl
  · next hguard =>
    have hout : t.frameBytes ≤ offset :=
      BitVec.le_def.2 (Nat.le_of_not_lt fun hlt => h ⟨fun hs => hguard (.inl hs), hlt⟩)
    rw [if_pos hout]

theorem onRamWrite_unmarked (hstride : t.stride ≠ 0) (hfit : offset.toNat + size.toNat < 2 ^ 64)
    (h : ¬ t.Marks offset size) : t.onRamWrite offset size = t := by
  by_cases hin : size ≠ 0 ∧ offset.toNat < t.frameBytes.toNat
  · by_cases hheight : t.height = 0
    · exact if_pos (.inr (.inr hheight))
    · rw [onRamWrite_eq hstride hheight hfit hin.1 hin.2]
      refine if_pos (BitVec.le_def.2 (Nat.le_of_not_lt fun hlt => h ⟨hin.1, hin.2, ?_⟩))
      rw [BitVec.toNat_ofNat] at hlt
      exact hlt
  · exact onRamWrite_outside hin

/-- The configuration is kept, and a mark is counted. -/
theorem onRamWrite_marked_frame (hstride : t.stride ≠ 0)
    (hfit : offset.toNat + size.toNat < 2 ^ 64) (h : t.Marks offset size) :
    (t.onRamWrite offset size).height = t.height ∧ (t.onRamWrite offset size).stride = t.stride ∧
      (t.onRamWrite offset size).frameBytes = t.frameBytes ∧
      (t.onRamWrite offset size).dirtyGeneration = t.dirtyGeneration + 1 := by
  obtain ⟨hsize, hframe, hlt⟩ := h
  have hheight : t.height ≠ 0 := fun hzero => by
    rw [hzero] at hlt
    exact Nat.not_lt_zero _ hlt
  rw [onRamWrite_eq hstride hheight hfit hsize hframe]
  refine t.markRows_frame _ ?_
  rw [BitVec.toNat_ofNat]
  exact hlt

/-- The rows dirty after a write whose cast does not show. -/
theorem onRamWrite_rows (hstride : t.stride ≠ 0) (hfit : offset.toNat + size.toNat < 2 ^ 64)
    (hrows : t.RowsOk offset size) {row : Nat} (hrow : row < t.height.toNat) :
    (t.onRamWrite offset size).rowIsDirty row = true ↔
      t.Touches offset size row ∨ t.rowIsDirty row = true := by
  have hheight : t.height ≠ 0 := fun h => by
    rw [h] at hrow
    exact Nat.not_lt_zero _ hrow
  have htouch := (rowsOk_iff hstride).1 hrows row hrow
  by_cases hin : size ≠ 0 ∧ offset.toNat < t.frameBytes.toNat
  · rw [onRamWrite_eq hstride hheight hfit hin.1 hin.2, markRows_rows t _ _ hrow, ← htouch,
      BitVec.toNat_ofNat, BitVec.toNat_ofNat, and_iff_right hin]
  · rw [onRamWrite_outside hin, ← htouch, or_iff_right fun h => hin h.1]

end FramebufferDirtyTracker

/-! ## Runs -/

/-- A tracker with the writes since the last consume. -/
structure Tracking where
  tracker : FramebufferDirtyTracker
  consumedGeneration : U64
  written : List (U64 × U64)

namespace Tracking

/-- The constructor. -/
def boot (height stride : U32) (frameBytes : U64) : Tracking :=
  ⟨⟨height, stride, frameBytes, fun _ => 0, 0⟩, 0, []⟩

def hasDirty (s : Tracking) : Bool := s.tracker.dirtyGeneration != s.consumedGeneration

/-- `consume_dirty_rows` and the spans it gives. -/
def consumeDirtyRows (s : Tracking) : List RowSpan × Tracking :=
  if !s.hasDirty then ([], { s with written := [] })
  else
    (s.tracker.dirtySpans,
      { tracker := { s.tracker with dirtyRows := fun _ => 0 }
        consumedGeneration := s.tracker.dirtyGeneration
        written := [] })

inductive Act where
  /-- `on_ram_write` -/
  | write (offset size : U64)
  /-- `consume_dirty_rows` -/
  | consume

def step (s : Tracking) : Act → Tracking
  | .write offset size =>
    { s with
      tracker := s.tracker.onRamWrite offset size
      written := s.written ++ [(offset, size)] }
  | .consume => s.consumeDirtyRows.2

/-- A consume now would give the spans of the rows written since the last one, and the next
consume would give none. -/
structure SpansExact (s : Tracking) : Prop where
  ordered : ∀ span ∈ s.consumeDirtyRows.1, span.first ≤ span.last
  separated : s.consumeDirtyRows.1.Pairwise RowSpan.Before
  covers : ∀ row, (∃ span ∈ s.consumeDirtyRows.1, span.Covers row) ↔
    row < s.tracker.height.toNat ∧
      ∃ write ∈ s.written, s.tracker.Touches write.1 write.2 row
  again : s.consumeDirtyRows.2.consumeDirtyRows.1 = []

/-- The write ends below `2 ^ 64`, its rows survive the cast to 32 bits, and a mark does not
bring the count round to the one last consumed. -/
def StepOk (s : Tracking) : Act → Prop
  | .write offset size => offset.toNat + size.toNat < 2 ^ 64 ∧ s.tracker.RowsOk offset size ∧
      (s.tracker.Marks offset size → s.tracker.dirtyGeneration + 1 ≠ s.consumedGeneration)
  | .consume => True

/-- The dirty rows are those written since the last consume, and then there is a mark. -/
structure Inv (s : Tracking) : Prop where
  stride : s.tracker.stride ≠ 0
  rows : ∀ row < s.tracker.height.toNat, s.tracker.rowIsDirty row = true ↔
    ∃ write ∈ s.written, s.tracker.Touches write.1 write.2 row
  counted : s.hasDirty = false → ∀ row < s.tracker.height.toNat, s.tracker.rowIsDirty row = false

variable {s : Tracking}

theorem rowIsDirty_cleared (t : FramebufferDirtyTracker) (row : Nat) :
    FramebufferDirtyTracker.rowIsDirty { t with dirtyRows := fun _ => 0 } row = false := by
  rw [FramebufferDirtyTracker.rowIsDirty_eq]
  exact BitVec.getLsbD_zero

theorem boot_inv {stride : U32} (hstride : stride ≠ 0) (height : U32) (frameBytes : U64) :
    (boot height stride frameBytes).Inv := by
  have hclean : ∀ row, (boot height stride frameBytes).tracker.rowIsDirty row = false :=
    rowIsDirty_cleared (boot height stride frameBytes).tracker
  refine ⟨hstride, fun row _ => ?_, fun _ row _ => hclean row⟩
  rw [hclean row]
  exact iff_of_false Bool.false_ne_true nofun

theorem consumeDirtyRows_clean (h : s.hasDirty = false) :
    s.consumeDirtyRows = ([], { s with written := [] }) := by
  rw [consumeDirtyRows, h]
  rfl

theorem consumeDirtyRows_dirty (h : s.hasDirty = true) :
    s.consumeDirtyRows = (s.tracker.dirtySpans,
      { tracker := { s.tracker with dirtyRows := fun _ => 0 }
        consumedGeneration := s.tracker.dirtyGeneration
        written := [] }) := by
  rw [consumeDirtyRows, h]
  rfl

theorem not_hasDirty_consumed (s : Tracking) : s.consumeDirtyRows.2.hasDirty = false := by
  cases hd : s.hasDirty with
  | false =>
    rw [consumeDirtyRows_clean hd]
    exact hd
  | true =>
    rw [consumeDirtyRows_dirty hd]
    exact bne_self_eq_false _

theorem Inv.consume (h : s.Inv) : s.consumeDirtyRows.2.Inv := by
  cases hd : s.hasDirty with
  | false =>
    rw [consumeDirtyRows_clean hd]
    refine ⟨h.stride, fun row hrow => ?_, h.counted⟩
    rw [show s.tracker.rowIsDirty row = false from h.counted hd row hrow]
    exact iff_of_false Bool.false_ne_true nofun
  | true =>
    rw [consumeDirtyRows_dirty hd]
    refine ⟨h.stride, fun row _ => ?_, fun _ row _ => rowIsDirty_cleared s.tracker row⟩
    rw [rowIsDirty_cleared s.tracker row]
    exact iff_of_false Bool.false_ne_true nofun

theorem Inv.write (h : s.Inv) {offset size : U64} (hok : s.StepOk (.write offset size)) :
    (s.step (.write offset size)).Inv := by
  obtain ⟨hfit, hrows, hcount⟩ := hok
  obtain ⟨hheight, hstride, hframe⟩ : (s.tracker.onRamWrite offset size).height = s.tracker.height ∧
      (s.tracker.onRamWrite offset size).stride = s.tracker.stride ∧
      (s.tracker.onRamWrite offset size).frameBytes = s.tracker.frameBytes := by
    by_cases hmarks : s.tracker.Marks offset size
    · obtain ⟨hheight, hstride, hframe, -⟩ :=
        FramebufferDirtyTracker.onRamWrite_marked_frame h.stride hfit hmarks
      exact ⟨hheight, hstride, hframe⟩
    · rw [FramebufferDirtyTracker.onRamWrite_unmarked h.stride hfit hmarks]
      exact ⟨rfl, rfl, rfl⟩
  have htouches : ∀ offset' size' row,
      (s.tracker.onRamWrite offset size).Touches offset' size' row ↔
        s.tracker.Touches offset' size' row := by
    intro offset' size' row
    rw [FramebufferDirtyTracker.Touches, hstride, hframe]
    rfl
  refine ⟨hstride.trans_ne h.stride, fun row hrow => ?_, fun hclean row hrow => ?_⟩
  · have hrow : row < s.tracker.height.toNat := hrow.trans_eq (congrArg BitVec.toNat hheight)
    change (s.tracker.onRamWrite offset size).rowIsDirty row = true ↔
      ∃ write ∈ s.written ++ [(offset, size)],
        (s.tracker.onRamWrite offset size).Touches write.1 write.2 row
    simp only [htouches, List.mem_append, List.mem_singleton, or_and_right, exists_or,
      exists_eq_left]
    rw [FramebufferDirtyTracker.onRamWrite_rows h.stride hfit hrows hrow, h.rows row hrow]
    exact or_comm
  · -- a mark is counted, so that without one the tracker is as it was
    have hclean : (s.tracker.onRamWrite offset size).dirtyGeneration = s.consumedGeneration :=
      bne_eq_false_iff_eq.1 hclean
    by_cases hmarks : s.tracker.Marks offset size
    · obtain ⟨-, -, -, hcounted⟩ :=
        FramebufferDirtyTracker.onRamWrite_marked_frame h.stride hfit hmarks
      exact absurd (hcounted.symm.trans hclean) (hcount hmarks)
    · have hsame := FramebufferDirtyTracker.onRamWrite_unmarked h.stride hfit hmarks
      change (s.tracker.onRamWrite offset size).height.toNat > row at hrow
      change (s.tracker.onRamWrite offset size).rowIsDirty row = false
      rw [hsame] at hrow hclean ⊢
      exact h.counted (bne_eq_false_iff_eq.2 hclean) row hrow

theorem Inv.spansExact (h : s.Inv) : s.SpansExact := by
  have hagain : s.consumeDirtyRows.2.consumeDirtyRows.1 = [] := by
    rw [consumeDirtyRows_clean (not_hasDirty_consumed s)]
  cases hd : s.hasDirty with
  | false =>
    have hclean := consumeDirtyRows_clean hd
    refine ⟨?_, ?_, fun row => ?_, hagain⟩
    · rw [hclean]
      exact nofun
    · rw [hclean]
      exact .nil
    · rw [hclean]
      refine iff_of_false nofun fun ⟨hrow, hwritten⟩ => ?_
      have hdirty := (h.rows row hrow).2 hwritten
      rw [h.counted hd row hrow] at hdirty
      exact Bool.false_ne_true hdirty
  | true =>
    have hspans : s.consumeDirtyRows.1 = s.tracker.dirtySpans := by
      rw [consumeDirtyRows_dirty hd]
    obtain ⟨hordered, hseparated⟩ := s.tracker.dirtySpans_separated
    refine ⟨hspans ▸ hordered, hspans ▸ hseparated, fun row => ?_, hagain⟩
    rw [hspans, s.tracker.dirtySpans_covers_iff row]
    exact and_congr_right (h.rows row)

theorem Inv.run {acts : List Act} (h : s.Inv) (hok : Along step StepOk s acts) :
    (run step s acts).Inv := by
  induction acts generalizing s with
  | nil => exact h
  | cons a acts ih =>
    cases a with
    | write offset size => exact ih (h.write hok.1) hok.2
    | consume => exact ih h.consume hok.2

/-- In every run of writes and consumes in which no cast of a row shows and the count of marks
does not come round, the spans are exact in every state. -/
theorem spans_exact (height stride : U32) (frameBytes : U64) (hstride : stride ≠ 0)
    (acts : List Act) (hok : Along step StepOk (boot height stride frameBytes) acts) :
    (run step (boot height stride frameBytes) acts).SpansExact :=
  ((boot_inv hstride height frameBytes).run hok).spansExact

/-- Two writes of which the second runs past the frame. -/
theorem spans_exact_overlapping :
    (run step (boot 130 4 600) [.write 252 8, .write 512 1000]).SpansExact := by
  refine spans_exact 130 4 600 (by decide) _ ⟨⟨by decide, ?_, ?_⟩, ⟨by decide, ?_, ?_⟩, trivial⟩
  · exact fun _ _ => ⟨fun _ => .inl (by decide), fun h => absurd h (by decide)⟩
  · exact fun _ => by decide
  · exact fun _ _ => ⟨fun _ => .inl (by decide), fun h => absurd h (by decide)⟩
  · exact fun _ => by decide

/-- One row of one byte in a frame of more than `2 ^ 32` bytes: the write to byte `2 ^ 32` marks
the row. -/
theorem spans_not_exact :
    ¬ (run step (boot 1 1 0x100000001) [.write 0x100000000 1]).SpansExact := by
  intro h
  have hspans : (run step (boot 1 1 0x100000001) [.write 0x100000000 1]).consumeDirtyRows.1 =
      [⟨0, 0⟩] := by decide
  have hcovers := (h.covers 0).1 ⟨⟨0, 0⟩, hspans ▸ List.mem_singleton_self _, le_rfl, le_rfl⟩
  obtain ⟨-, write, hwrite, i, hlo, -, -, -, hhi⟩ := hcovers
  rw [List.mem_singleton.1 hwrite] at hlo
  exact absurd (hlo.trans_lt hhi) (by decide)

end Tracking
end Aarchvm
