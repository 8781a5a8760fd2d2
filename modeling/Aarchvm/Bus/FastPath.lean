import Aarchvm.Bus.Bounds
import Mathlib

/-!
# The fast path against the mapping table

`BusFastPath` decodes an address with constants of its own before `Bus` looks at
its table. Here both decoders run over one world, in which a device may change
anything (a virtio device copies through RAM), and are compared result by result.
-/
namespace Aarchvm

open Lib.WordInterval

/-- `FramebufferDirtyTracker`, as far as a RAM write changes it. -/
structure FramebufferDirtyTracker where
  height : U32
  stride : U32
  frameBytes : U64
  /-- `dirty_rows_`, by word index -/
  dirtyRows : Nat → U64
  dirtyGeneration : U64

namespace FramebufferDirtyTracker

/-- `dirty_rows_[row / 64u] |= 1ull << (row % 64u)`. -/
def markRow (t : FramebufferDirtyTracker) (row : Nat) : FramebufferDirtyTracker :=
  let word := t.dirtyRows (row / 64) ||| ((1 : U64) <<< (row % 64))
  { t with dirtyRows := Function.update t.dirtyRows (row / 64) word }

/-- `mark_rows`. -/
def markRows (t : FramebufferDirtyTracker) (firstRow lastRow : U32) : FramebufferDirtyTracker :=
  if t.height ≤ firstRow then t
  else
    let last := if lastRow ≤ t.height - 1 then lastRow else t.height - 1
    let rows := List.range' firstRow.toNat (last.toNat + 1 - firstRow.toNat)
    let t := rows.foldl markRow t
    { t with dirtyGeneration := t.dirtyGeneration + 1 }

/-- `on_ram_write`. -/
def onRamWrite (t : FramebufferDirtyTracker) (offset size : U64) : FramebufferDirtyTracker :=
  if size = 0 ∨ t.stride = 0 ∨ t.height = 0 then t
  else if t.frameBytes ≤ offset then t
  else
    let frameLast := t.frameBytes - 1
    let writeLast := offset + size - 1
    let clampedLast := if frameLast ≤ writeLast then frameLast else writeLast
    let firstRow := (offset / t.stride.setWidth 64).setWidth 32
    let lastRow := (clampedLast / t.stride.setWidth 64).setWidth 32
    t.markRows firstRow lastRow

end FramebufferDirtyTracker

/-- One call of `Device::read` or `Device::write` on a device that is not a `Ram`. -/
inductive DeviceAccess where
  | read (dev : MmioDevice) (offset size : U64)
  | write (dev : MmioDevice) (offset value size : U64)
  deriving DecidableEq, Repr

/-- What an access can change. The RAMs keep the sizes they were built with:
`Ram::load_state` refuses a vector of another length and nothing else resizes one. -/
structure World (E : Type) where
  rams : RamId → Ram
  tracker : FramebufferDirtyTracker
  /-- the device accesses so far, oldest first -/
  accesses : List DeviceAccess
  devices : E
  size_eq : ∀ id, (rams id).size = (socRams id).size

/-- The devices' own `read` and `write`. -/
structure DeviceIo (E : Type) where
  read : MmioDevice → U64 → U64 → World E → U64 × World E
  write : MmioDevice → U64 → U64 → U64 → World E → World E

namespace World

variable {E : Type}

/-- `memcpy(data + offset, &value, size)` into one RAM. -/
def store (w : World E) (id : RamId) (offset value size : U64) : World E where
  rams := Function.update w.rams id
    { w.rams id with data := storeBytes (w.rams id).data offset.toNat size.toNat (byteOf value) }
  tracker := w.tracker
  accesses := w.accesses
  devices := w.devices
  size_eq := by
    intro i
    by_cases hi : i = id
    · subst hi
      rw [Function.update_self]
      exact w.size_eq i
    · rw [Function.update_of_ne hi]
      exact w.size_eq i

def markFramebuffer (w : World E) (offset size : U64) : World E :=
  { w with tracker := w.tracker.onRamWrite offset size }

def logged (w : World E) (a : DeviceAccess) : World E :=
  { w with accesses := w.accesses ++ [a] }

/-- `Ram::notify_write`: the `SoC` constructor sets a write observer on the framebuffer
RAM only. -/
def notifyWrite (w : World E) (id : RamId) (offset size : U64) : World E :=
  if id = 1 ∧ size ≠ 0 then w.markFramebuffer offset size else w

/-- `mapping->device->read(offset, size)`. -/
def deviceRead (io : DeviceIo E) (w : World E) (offset size : U64) : DeviceRef → U64 × World E
  | .ram id => ((w.rams id).read offset size, w)
  | .mmio dev => io.read dev offset size (w.logged (.read dev offset size))

/-- `mapping->device->write(offset, value, size)`. -/
def deviceWrite (io : DeviceIo E) (w : World E) (offset value size : U64) :
    DeviceRef → World E
  | .ram id =>
    match (w.rams id).writeFast offset value size with
    | some _ => (w.store id offset value size).notifyWrite id offset size
    | none => w
  | .mmio dev => io.write dev offset value size (w.logged (.write dev offset value size))

end World

/-! ## The fast path -/

/-- One device block of `BusFastPath::read` and `BusFastPath::write`. -/
structure DeviceWindow where
  base : U64
  size : U64
  device : MmioDevice
  deriving DecidableEq

/-- `kBase <= addr && addr < kBase + kSize`, then `size <= kSize - off`. A block whose
second test fails falls through to the next one. -/
def DeviceWindow.offset (d : DeviceWindow) (addr size : U64) : Option U64 :=
  if inWindow d.base d.size addr then
    let off := addr - d.base
    if size ≤ d.size - off then some off else none
  else none

namespace BusFastPath

variable {E : Type}

/-- The device blocks, in the order of the source. -/
def deviceWindows : List DeviceWindow :=
  [⟨kUartBase, kUartSize, .uart⟩,
   ⟨kPerfBase, kPerfSize, .perf⟩,
   ⟨kVirtioBlkBase, kVirtioBlkSize, .virtioBlk⟩,
   ⟨kVirtioNetBase, kVirtioNetSize, .virtioNet⟩,
   ⟨kGicBase, kGicSize, .gic⟩,
   ⟨kTimerBase, kTimerSize, .timer⟩]

/-- The device and offset of the first block that takes the access. -/
def device (addr size : U64) : Option (MmioDevice × U64) :=
  deviceWindows.findSome? fun d => (d.offset addr size).map (d.device, ·)

/-- `BusFastPath::read_ram_only`; `load_ram` has a case for each width of `fastSize`. -/
def readRamOnly (f : BusFastPath) (w : World E) (addr size : U64) : Option U64 :=
  match f.ramPtr addr size with
  | some p =>
    if Ram.fastSize size then some (loadLe (w.rams p.ram).data p.offset.toNat size.toNat)
    else none
  | none => none

/-- `BusFastPath::write_ram_only`; the tracker pointer is set in every `SoC`. -/
def writeRamOnly (f : BusFastPath) (w : World E) (addr value size : U64) : Option (World E) :=
  let fbOff := addr - kFramebufferBase
  if inWindow kFramebufferBase kFramebufferSize addr ∧ size ≤ kFramebufferSize - fbOff then
    if Ram.fastSize size then
      some ((w.store f.framebufferRam fbOff value size).markFramebuffer fbOff size)
    else none
  else
    match f.ramMutPtr addr size with
    | some p => if Ram.fastSize size then some (w.store p.ram p.offset value size) else none
    | none => none

/-- `BusFastPath::read`; `none` is the `false` return. -/
def read (f : BusFastPath) (io : DeviceIo E) (w : World E) (addr size : U64) :
    Option (U64 × World E) :=
  match f.readRamOnly w addr size with
  | some value => some (value, w)
  | none =>
    (device addr size).map fun p => w.deviceRead io p.2 size (.mmio p.1)

/-- `BusFastPath::write`; `none` is the `false` return. -/
def write (f : BusFastPath) (io : DeviceIo E) (w : World E) (addr value size : U64) :
    Option (World E) :=
  match f.writeRamOnly w addr value size with
  | some w' => some w'
  | none =>
    (device addr size).map fun p => w.deviceWrite io p.2 value size (.mmio p.1)

end BusFastPath

/-! ## The bus of the SoC -/

namespace SocBus

variable {E : Type}

/-- `Bus::find` on the table the `SoC` builds. -/
def find (addr size : U64) : Option Mapping := (socBus false ()).find addr size

/-- `Bus::read` with `fast` as `fast_path_raw_`. -/
def read (fast : Option BusFastPath) (io : DeviceIo E) (w : World E) (addr size : U64) :
    Option (U64 × World E) :=
  match fast.bind (·.read io w addr size) with
  | some r => some r
  | none => (find addr size).map fun m => w.deviceRead io (addr - m.base) size m.device

/-- `Bus::write` with `fast` as `fast_path_raw_`. -/
def write (fast : Option BusFastPath) (io : DeviceIo E) (w : World E)
    (addr value size : U64) : Option (World E) :=
  match fast.bind (·.write io w addr value size) with
  | some w' => some w'
  | none => (find addr size).map fun m => w.deviceWrite io (addr - m.base) value size m.device

/-- `Bus::read_ram_fast`. -/
def readRamFast (fast : Option BusFastPath) (w : World E) (addr size : U64) : Option U64 :=
  fast.bind (·.readRamOnly w addr size)

/-- `Bus::write_ram_fast`. -/
def writeRamFast (fast : Option BusFastPath) (w : World E) (addr value size : U64) :
    Option (World E) :=
  fast.bind (·.writeRamOnly w addr value size)

/-- The fast path `rebuild_fast_path` constructs. -/
def fastPath : BusFastPath := ⟨0, 1, 2⟩

/-- A window inside the KMI or the RTC, the two devices `BusFastPath` has no block for. -/
def Uncovered (addr size : U64) : Prop :=
  Inside kKmiBase kKmiSize addr size ∨ Inside kRtcBase kRtcSize addr size

/-- An access inside one of the three RAMs. -/
def InRam (addr size : U64) : Prop :=
  Inside kBootRamBase kBootRamSize addr size ∨
    Inside kFramebufferBase kFramebufferSize addr size ∨ Inside kSdramBase kSdramSize addr size

instance (addr size : U64) : Decidable (Uncovered addr size) :=
  inferInstanceAs (Decidable (_ ∨ _))

instance (addr size : U64) : Decidable (InRam addr size) :=
  inferInstanceAs (Decidable (_ ∨ _ ∨ _))

/-! ### The table -/

/-- No window of the table runs past the address space. -/
theorem soc_not_wraps : ∀ m ∈ socMappings, ¬ Wraps m.base m.size := by decide

/-- Two windows of the table that are not the same end before one another. -/
theorem soc_disjoint : ∀ m ∈ socMappings, ∀ m' ∈ socMappings, m = m' ∨
    m.base.toNat + m.size.toNat ≤ m'.base.toNat ∨
    m'.base.toNat + m'.size.toNat ≤ m.base.toNat := by decide

theorem soc_unique {m m' : Mapping} (hm : m ∈ socMappings) (hm' : m' ∈ socMappings)
    {addr size : U64} (hsize : 0 < size.toNat) (h : Inside m.base m.size addr size)
    (h' : Inside m'.base m'.size addr size) : m = m' := by
  obtain ⟨hlo, hhi⟩ := h
  obtain ⟨hlo', hhi'⟩ := h'
  rcases soc_disjoint m hm m' hm' with heq | hbefore | hafter
  · exact heq
  · omega
  · omega

theorem not_wraps_of_inside {m : Mapping} (hm : m ∈ socMappings) {addr size : U64}
    (h : Inside m.base m.size addr size) : ¬ Wraps addr size := by
  have hwin := soc_not_wraps m hm
  intro hw
  exact hwin (Nat.le_trans hw h.2)

/-- Away from the top of the address space the search finds the one window that contains
the access. -/
theorem find_eq_some_iff {addr size : U64} (hsize : 0 < size.toNat) (hw : ¬ Wraps addr size)
    {m : Mapping} :
    find addr size = some m ↔ m ∈ socMappings ∧ Inside m.base m.size addr size := by
  constructor
  · intro h
    refine ⟨Bus.mem_of_find h, ?_⟩
    rcases Bus.inside_or_firstWrapped h with hin | hfirst
    · exact hin
    · exact absurd hfirst (not_firstWrapped_of_not_wraps _ hw m)
  · rintro ⟨hm, hin⟩
    cases hfind : find addr size with
    | none =>
      have hall := List.find?_eq_none.1 hfind m hm
      have hcheck : wordCheck m.base m.size addr size = true := by
        have hend := toNat_add_of_not_wraps hw
        have hwin := toNat_add_of_not_wraps (soc_not_wraps m hm)
        obtain ⟨hlo, hhi⟩ := hin
        simp only [wordCheck, Bool.and_eq_true, decide_eq_true_eq, BitVec.le_def]
        omega
      exact absurd hcheck hall
    | some m' =>
      have hm' : m' ∈ socMappings := Bus.mem_of_find hfind
      have hin' : Inside m'.base m'.size addr size := by
        rcases Bus.inside_or_firstWrapped hfind with h | h
        · exact h
        · exact absurd h (not_firstWrapped_of_not_wraps _ hw m')
      rw [soc_unique hm' hm hsize hin' hin]

/-! ### The windows of the fast path -/

/-- `addr` passes the two tests of a block exactly when the access is inside its window. -/
theorem inWindow_and_fits_iff {base winSize addr size : U64} (hbase : ¬ Wraps base winSize)
    (hsize : 0 < size.toNat) :
    (inWindow base winSize addr = true ∧ size ≤ winSize - (addr - base)) ↔
      Inside base winSize addr size := by
  have hend := toNat_add_of_not_wraps hbase
  have hin : inWindow base winSize addr = true ↔
      base.toNat ≤ addr.toNat ∧ addr.toNat < base.toNat + winSize.toNat := by
    simp [inWindow, BitVec.le_def, BitVec.lt_def, hend]
  constructor
  · rintro ⟨hwin, hfits⟩
    obtain ⟨hlo, hhi⟩ := hin.1 hwin
    have hoff : (addr - base).toNat = addr.toNat - base.toNat := BitVec.toNat_sub_of_le hlo
    have hle : addr - base ≤ winSize := by
      rw [BitVec.le_def]
      omega
    rw [BitVec.le_def, BitVec.toNat_sub_of_le hle] at hfits
    exact ⟨hlo, by omega⟩
  · rintro ⟨hlo, hhi⟩
    have hoff : (addr - base).toNat = addr.toNat - base.toNat := BitVec.toNat_sub_of_le hlo
    have hle : addr - base ≤ winSize := by
      rw [BitVec.le_def]
      omega
    refine ⟨hin.2 ⟨hlo, by omega⟩, ?_⟩
    rw [BitVec.le_def, BitVec.toNat_sub_of_le hle]
    omega

theorem offset_eq_some_iff {d : DeviceWindow} (hbase : ¬ Wraps d.base d.size)
    {addr size off : U64} (hsize : 0 < size.toNat) :
    d.offset addr size = some off ↔ Inside d.base d.size addr size ∧ off = addr - d.base := by
  rw [← inWindow_and_fits_iff hbase hsize]
  unfold DeviceWindow.offset
  by_cases hwin : inWindow d.base d.size addr = true
  · by_cases hfits : size ≤ d.size - (addr - d.base)
    · simp [hwin, hfits, eq_comm]
    · simp [hwin, hfits]
  · simp [hwin]

/-- A device block stands for a mapping of the table. -/
theorem deviceWindows_mapped : ∀ d ∈ BusFastPath.deviceWindows,
    (⟨d.base, d.size, .mmio d.device⟩ : Mapping) ∈ socMappings ∧
      d.device ≠ .kmi ∧ d.device ≠ .rtc := by decide

/-- Every mapping of a device has a block, the KMI and the RTC apart. -/
theorem deviceWindows_complete : ∀ m ∈ socMappings, ∀ dev, m.device = .mmio dev →
    dev = .kmi ∨ dev = .rtc ∨ ⟨m.base, m.size, dev⟩ ∈ BusFastPath.deviceWindows := by
  intro m hm dev hdev
  simp only [socMappings, List.mem_cons, List.not_mem_nil, or_false] at hm
  rcases hm with rfl | rfl | rfl | rfl | rfl | rfl | rfl | rfl | rfl | rfl | rfl <;>
    cases hdev <;> decide

/-- The device blocks answer for the mapping the search finds, unless it is the KMI's or
the RTC's. -/
theorem device_eq_some_iff {addr size : U64} (hsize : 0 < size.toNat) (hw : ¬ Wraps addr size)
    {dev : MmioDevice} {off : U64} :
    BusFastPath.device addr size = some (dev, off) ↔
      ∃ m, find addr size = some m ∧ m.device = .mmio dev ∧ off = addr - m.base ∧
        dev ≠ .kmi ∧ dev ≠ .rtc := by
  have hsound : ∀ dev off, BusFastPath.device addr size = some (dev, off) →
      ∃ m, find addr size = some m ∧ m.device = .mmio dev ∧ off = addr - m.base ∧
        dev ≠ .kmi ∧ dev ≠ .rtc := by
    intro dev off h
    obtain ⟨d, hd, hmap⟩ := List.exists_of_findSome?_eq_some h
    obtain ⟨o, ho, heq⟩ := Option.map_eq_some_iff.1 hmap
    obtain ⟨rfl, rfl⟩ := Prod.mk.inj heq
    obtain ⟨hm, hkmi, hrtc⟩ := deviceWindows_mapped d hd
    obtain ⟨hin, rfl⟩ := (offset_eq_some_iff (soc_not_wraps _ hm) hsize).1 ho
    exact ⟨_, (find_eq_some_iff hsize hw).2 ⟨hm, hin⟩, rfl, rfl, hkmi, hrtc⟩
  constructor
  · exact hsound dev off
  · rintro ⟨m, hfind, hdev, rfl, hkmi, hrtc⟩
    obtain ⟨hm, hin⟩ := (find_eq_some_iff hsize hw).1 hfind
    have hd := ((deviceWindows_complete m hm dev hdev).resolve_left hkmi).resolve_left hrtc
    cases hlook : BusFastPath.device addr size with
    | none =>
      have hnone := List.findSome?_eq_none_iff.1 hlook _ hd
      rw [Option.map_eq_none_iff] at hnone
      have hsome := (offset_eq_some_iff (d := ⟨m.base, m.size, dev⟩) (soc_not_wraps m hm)
        hsize).2 ⟨hin, rfl⟩
      rw [hnone] at hsome
      exact nomatch hsome
    | some p =>
      obtain ⟨dev', off'⟩ := p
      obtain ⟨m', hfind', hdev', rfl, -⟩ := hsound dev' off' hlook
      obtain rfl : m' = m := Option.some.inj (hfind'.symm.trans hfind)
      obtain rfl : dev' = dev := DeviceRef.mmio.inj (hdev'.symm.trans hdev)
      rfl

/-- An access inside one window of the table has its first byte in no other. -/
theorem inWindow_of_inside {m m' : Mapping} (hm : m ∈ socMappings) (hm' : m' ∈ socMappings)
    {addr size : U64} (hsize : 0 < size.toNat) (hin : Inside m.base m.size addr size) :
    inWindow m'.base m'.size addr = decide (m = m') := by
  have hend := toNat_add_of_not_wraps (soc_not_wraps m' hm')
  obtain ⟨hlo, hhi⟩ := hin
  simp only [inWindow, BitVec.le_def, BitVec.lt_def, hend]
  rcases soc_disjoint m hm m' hm' with rfl | hdis
  · simp only [decide_true, Bool.and_eq_true, decide_eq_true_eq]
    omega
  · have hne : m ≠ m' := by
      rintro rfl
      omega
    simp only [hne, decide_false, Bool.and_eq_false_iff, decide_eq_false_iff_not]
    omega

theorem windowPtr_of_inside {m : Mapping} (hm : m ∈ socMappings) {addr size : U64}
    (hsize : 0 < size.toNat) (hin : Inside m.base m.size addr size) (ram : RamId) :
    windowPtr ram m.base m.size addr size = some ⟨ram, addr - m.base⟩ := by
  obtain ⟨-, hfits⟩ := (inWindow_and_fits_iff (soc_not_wraps m hm) hsize).2 hin
  simp [windowPtr, hfits]

def bootRamMapping : Mapping := ⟨kBootRamBase, kBootRamSize, .ram 0⟩
def framebufferMapping : Mapping := ⟨kFramebufferBase, kFramebufferSize, .ram 1⟩
def sdramMapping : Mapping := ⟨kSdramBase, kSdramSize, .ram 2⟩

theorem bootRam_mapped : bootRamMapping ∈ socMappings := by decide
theorem framebuffer_mapped : framebufferMapping ∈ socMappings := by decide
theorem sdram_mapped : sdramMapping ∈ socMappings := by decide

theorem ram_cases : ∀ m ∈ socMappings, ∀ id, m.device = .ram id →
    m = bootRamMapping ∨ m = framebufferMapping ∨ m = sdramMapping := by
  intro m hm id hdev
  simp only [socMappings, List.mem_cons, List.not_mem_nil, or_false] at hm
  rcases hm with rfl | rfl | rfl | rfl | rfl | rfl | rfl | rfl | rfl | rfl | rfl
  · exact .inl rfl
  · exact .inr (.inl rfl)
  · exact .inr (.inr rfl)
  all_goals cases hdev

/-- A pointer of one RAM window is what the table gives. -/
theorem find_of_windowPtr {m : Mapping} (hm : m ∈ socMappings) {ram : RamId}
    (hdev : m.device = .ram ram) {addr size : U64} (hsize : 0 < size.toNat) {p : RamPtr}
    (hwin : inWindow m.base m.size addr = true)
    (h : windowPtr ram m.base m.size addr size = some p) :
    ¬ Wraps addr size ∧
      ∃ m, find addr size = some m ∧ m.device = .ram p.ram ∧ p.offset = addr - m.base := by
  obtain ⟨rfl, hin, -⟩ := Bus.windowPtr_inside hwin (soc_not_wraps m hm) h
  have hw := not_wraps_of_inside hm hin
  exact ⟨hw, m, (find_eq_some_iff hsize hw).2 ⟨hm, hin⟩, hdev, rfl⟩

theorem find_of_ramPtr {addr size : U64} (hsize : 0 < size.toNat) {p : RamPtr}
    (h : fastPath.ramPtr addr size = some p) :
    ¬ Wraps addr size ∧
      ∃ m, find addr size = some m ∧ m.device = .ram p.ram ∧ p.offset = addr - m.base := by
  unfold BusFastPath.ramPtr at h
  split at h
  case isTrue hwin => exact find_of_windowPtr sdram_mapped rfl hsize hwin h
  split at h
  case isTrue hwin => exact find_of_windowPtr bootRam_mapped rfl hsize hwin h
  split at h
  case isTrue hwin => exact find_of_windowPtr framebuffer_mapped rfl hsize hwin h
  exact nomatch h

theorem find_of_ramMutPtr {addr size : U64} (hsize : 0 < size.toNat) {p : RamPtr}
    (h : fastPath.ramMutPtr addr size = some p) :
    ¬ Wraps addr size ∧
      ∃ m, find addr size = some m ∧ m.device = .ram p.ram ∧ p.offset = addr - m.base := by
  unfold BusFastPath.ramMutPtr at h
  split at h
  case isTrue hwin => exact find_of_windowPtr bootRam_mapped rfl hsize hwin h
  split at h
  case isTrue hwin => exact find_of_windowPtr sdram_mapped rfl hsize hwin h
  split at h
  case isTrue hwin => exact find_of_windowPtr framebuffer_mapped rfl hsize hwin h
  exact nomatch h

/-- Both pointer decoders answer for a RAM of the table, with the table's RAM and offset. -/
theorem ramPtr_of_find {addr size : U64} (hsize : 0 < size.toNat) (hw : ¬ Wraps addr size)
    {m : Mapping} (hfind : find addr size = some m) {id : RamId} (hdev : m.device = .ram id) :
    fastPath.ramPtr addr size = some ⟨id, addr - m.base⟩ ∧
      fastPath.ramMutPtr addr size = some ⟨id, addr - m.base⟩ := by
  obtain ⟨hm, hin⟩ := (find_eq_some_iff hsize hw).1 hfind
  have hboot : inWindow kBootRamBase kBootRamSize addr = decide (m = bootRamMapping) :=
    inWindow_of_inside hm bootRam_mapped hsize hin
  have hfb : inWindow kFramebufferBase kFramebufferSize addr = decide (m = framebufferMapping) :=
    inWindow_of_inside hm framebuffer_mapped hsize hin
  have hsdram : inWindow kSdramBase kSdramSize addr = decide (m = sdramMapping) :=
    inWindow_of_inside hm sdram_mapped hsize hin
  have hptr := windowPtr_of_inside hm hsize hin id
  rw [BusFastPath.ramPtr, BusFastPath.ramMutPtr, hboot, hfb, hsdram]
  rcases ram_cases m hm id hdev with rfl | rfl | rfl <;> cases hdev
  · exact ⟨hptr, hptr⟩
  · exact ⟨hptr, hptr⟩
  · exact ⟨hptr, hptr⟩

theorem ramPtr_eq_none {addr size : U64} (hsize : 0 < size.toNat)
    (h : ∀ m id, ¬ Wraps addr size → find addr size = some m → m.device ≠ .ram id) :
    fastPath.ramPtr addr size = none ∧ fastPath.ramMutPtr addr size = none := by
  constructor
  · cases hp : fastPath.ramPtr addr size with
    | none => rfl
    | some p =>
      obtain ⟨hw, m, hfind, hdev, -⟩ := find_of_ramPtr hsize hp
      exact absurd hdev (h m p.ram hw hfind)
  · cases hp : fastPath.ramMutPtr addr size with
    | none => rfl
    | some p =>
      obtain ⟨hw, m, hfind, hdev, -⟩ := find_of_ramMutPtr hsize hp
      exact absurd hdev (h m p.ram hw hfind)

/-! ### RAM -/

variable (w : World E) {addr size : U64}

/-- The vector behind a RAM window is as long as the window. -/
theorem ram_size : ∀ m ∈ socMappings, ∀ id, m.device = .ram id → m.size = (socRams id).size := by
  intro m hm id hdev
  rcases ram_cases m hm id hdev with rfl | rfl | rfl <;> cases hdev <;> rfl

/-- An access inside a RAM window passes the RAM's own bounds check. -/
theorem vector_accepts {m : Mapping} (hm : m ∈ socMappings) {id : RamId}
    (hdev : m.device = .ram id) (hin : Inside m.base m.size addr size) :
    ¬ (w.rams id).size < addr - m.base + size := by
  obtain ⟨hlo, hhi⟩ := hin
  have hoff : (addr - m.base).toNat = addr.toNat - m.base.toNat := BitVec.toNat_sub_of_le hlo
  have hmax := m.size.isLt
  rw [w.size_eq id, ← ram_size m hm id hdev, BitVec.lt_def, BitVec.toNat_add, hoff,
    Nat.mod_eq_of_lt (by omega)]
  omega

theorem pos_of_fastSize (hs : Ram.fastSize size = true) : 0 < size.toNat := by
  rcases Nat.eq_zero_or_pos size.toNat with h | h
  · obtain rfl : size = 0 := BitVec.eq_of_toNat_eq h
    exact absurd hs (by decide)
  · exact h

/-- `read_ram_only` is `Ram::read` of the mapping found, when that is a RAM. -/
theorem readRamOnly_of_ram (hs : Ram.fastSize size = true) (hw : ¬ Wraps addr size) {m : Mapping}
    (hfind : find addr size = some m) {id : RamId} (hdev : m.device = .ram id) :
    fastPath.readRamOnly w addr size = some ((w.rams id).read (addr - m.base) size) := by
  have hsize := pos_of_fastSize hs
  obtain ⟨hm, hin⟩ := (find_eq_some_iff hsize hw).1 hfind
  have hptr := (ramPtr_of_find hsize hw hfind hdev).1
  have hvec := vector_accepts w hm hdev hin
  simp [BusFastPath.readRamOnly, hptr, hs, Ram.read, Ram.readFast, hvec]

/-- The first test of `write_ram_only`. -/
theorem framebuffer_test_iff (addr : U64) (hsize : 0 < size.toNat) :
    (inWindow kFramebufferBase kFramebufferSize addr = true ∧
        size ≤ kFramebufferSize - (addr - kFramebufferBase)) ↔
      Inside kFramebufferBase kFramebufferSize addr size :=
  inWindow_and_fits_iff (soc_not_wraps _ framebuffer_mapped) hsize

/-- `write_ram_only` is `Ram::write` of the mapping found, observer included, when that is
a RAM. -/
theorem writeRamOnly_of_ram (io : DeviceIo E) (hs : Ram.fastSize size = true)
    (hw : ¬ Wraps addr size) {m : Mapping} (hfind : find addr size = some m) {id : RamId}
    (hdev : m.device = .ram id) (value : U64) :
    fastPath.writeRamOnly w addr value size =
      some (w.deviceWrite io (addr - m.base) value size m.device) := by
  have hsize := pos_of_fastSize hs
  obtain ⟨hm, hin⟩ := (find_eq_some_iff hsize hw).1 hfind
  have hptr := (ramPtr_of_find hsize hw hfind hdev).2
  have hvec := vector_accepts w hm hdev hin
  have hne : size ≠ 0 := by
    rintro rfl
    exact absurd hsize (by decide)
  have hplain : w.deviceWrite io (addr - m.base) value size m.device =
      (w.store id (addr - m.base) value size).notifyWrite id (addr - m.base) size := by
    simp [hdev, World.deviceWrite, Ram.writeFast, hs, hvec]
  have hfb := framebuffer_test_iff addr hsize
  rw [hplain]
  -- the framebuffer block comes first and marks the rows itself
  by_cases hone : m = framebufferMapping
  · subst hone
    cases hdev
    have htest := hfb.2 hin
    rw [BusFastPath.writeRamOnly, if_pos htest, if_pos hs, World.notifyWrite, if_pos ⟨rfl, hne⟩]
    rfl
  · have hid : id ≠ 1 := by
      rcases ram_cases m hm id hdev with rfl | rfl | rfl <;> cases hdev
      · decide
      · exact absurd rfl hone
      · decide
    have htest := mt hfb.1 fun h => hone (soc_unique hm framebuffer_mapped hsize hin h)
    rw [BusFastPath.writeRamOnly, if_neg htest, hptr, World.notifyWrite, if_neg fun h => hid h.1]
    simp only [hs, if_true]

/-- Where the search finds no RAM, both RAM halves decline. -/
theorem ramOnly_eq_none (hs : Ram.fastSize size = true)
    (h : ∀ m id, ¬ Wraps addr size → find addr size = some m → m.device ≠ .ram id) (value : U64) :
    fastPath.readRamOnly w addr size = none ∧ fastPath.writeRamOnly w addr value size = none := by
  have hsize := pos_of_fastSize hs
  obtain ⟨hread, hwrite⟩ := ramPtr_eq_none hsize h
  have hfb := framebuffer_test_iff addr hsize
  have htest := mt hfb.1 fun hin => by
    have hw := not_wraps_of_inside framebuffer_mapped hin
    exact h _ 1 hw ((find_eq_some_iff hsize hw).2 ⟨framebuffer_mapped, hin⟩) rfl
  constructor
  · simp [BusFastPath.readRamOnly, hread]
  · rw [BusFastPath.writeRamOnly, if_neg htest, hwrite]

theorem inRam_iff (hsize : 0 < size.toNat) (hw : ¬ Wraps addr size) :
    InRam addr size ↔ ∃ m id, find addr size = some m ∧ m.device = .ram id := by
  constructor
  · rintro (h | h | h)
    · exact ⟨_, 0, (find_eq_some_iff hsize hw).2 ⟨bootRam_mapped, h⟩, rfl⟩
    · exact ⟨_, 1, (find_eq_some_iff hsize hw).2 ⟨framebuffer_mapped, h⟩, rfl⟩
    · exact ⟨_, 2, (find_eq_some_iff hsize hw).2 ⟨sdram_mapped, h⟩, rfl⟩
  · rintro ⟨m, id, hfind, hdev⟩
    obtain ⟨hm, hin⟩ := (find_eq_some_iff hsize hw).1 hfind
    rcases ram_cases m hm id hdev with rfl | rfl | rfl
    · exact .inl hin
    · exact .inr (.inl hin)
    · exact .inr (.inr hin)

theorem uncovered_iff (hsize : 0 < size.toNat) (hw : ¬ Wraps addr size) :
    Uncovered addr size ↔
      ∃ m, find addr size = some m ∧ (m.device = .mmio .kmi ∨ m.device = .mmio .rtc) := by
  have hkmi : (⟨kKmiBase, kKmiSize, .mmio .kmi⟩ : Mapping) ∈ socMappings := by decide
  have hrtc : (⟨kRtcBase, kRtcSize, .mmio .rtc⟩ : Mapping) ∈ socMappings := by decide
  constructor
  · rintro (h | h)
    · exact ⟨_, (find_eq_some_iff hsize hw).2 ⟨hkmi, h⟩, .inl rfl⟩
    · exact ⟨_, (find_eq_some_iff hsize hw).2 ⟨hrtc, h⟩, .inr rfl⟩
  · rintro ⟨m, hfind, hdev⟩
    obtain ⟨hm, hin⟩ := (find_eq_some_iff hsize hw).1 hfind
    simp only [socMappings, List.mem_cons, List.not_mem_nil, or_false] at hm
    rcases hm with rfl | rfl | rfl | rfl | rfl | rfl | rfl | rfl | rfl | rfl | rfl <;>
      simp only [reduceCtorEq, DeviceRef.mmio.injEq, or_self, or_true, true_or] at hdev
    · exact .inl hin
    · exact .inr hin

/-! ### Agreement -/

variable (io : DeviceIo E)

theorem device_eq_none (hsize : 0 < size.toNat)
    (h : ∀ m dev, ¬ Wraps addr size → find addr size = some m → m.device = .mmio dev →
      dev = .kmi ∨ dev = .rtc) : BusFastPath.device addr size = none := by
  cases hlook : BusFastPath.device addr size with
  | none => rfl
  | some p =>
    obtain ⟨dev, off⟩ := p
    have hw : ¬ Wraps addr size := by
      obtain ⟨d, hd, hmap⟩ := List.exists_of_findSome?_eq_some hlook
      obtain ⟨o, ho, -⟩ := Option.map_eq_some_iff.1 hmap
      have hm := (deviceWindows_mapped d hd).1
      exact not_wraps_of_inside hm ((offset_eq_some_iff (soc_not_wraps _ hm) hsize).1 ho).1
    obtain ⟨m, hfind, hdev, -, hkmi, hrtc⟩ := (device_eq_some_iff hsize hw).1 hlook
    rcases h m dev hw hfind hdev with hd | hd
    · exact absurd hd hkmi
    · exact absurd hd hrtc

/-- A mapping the fast path has a window for: it makes the call the table makes. -/
theorem fastPath_of_find (hs : Ram.fastSize size = true) (hw : ¬ Wraps addr size) {m : Mapping}
    (hfind : find addr size = some m) (hkmi : m.device ≠ .mmio .kmi)
    (hrtc : m.device ≠ .mmio .rtc) (value : U64) :
    fastPath.read io w addr size = some (w.deviceRead io (addr - m.base) size m.device) ∧
      fastPath.write io w addr value size =
        some (w.deviceWrite io (addr - m.base) value size m.device) := by
  have hsize := pos_of_fastSize hs
  cases hdev : m.device with
  | ram id =>
    constructor
    · rw [BusFastPath.read, readRamOnly_of_ram w hs hw hfind hdev]
      rfl
    · rw [BusFastPath.write, writeRamOnly_of_ram w io hs hw hfind hdev value, hdev]
  | mmio dev =>
    rw [hdev] at hkmi hrtc
    obtain ⟨hread, hwrite⟩ : fastPath.readRamOnly w addr size = none ∧
        fastPath.writeRamOnly w addr value size = none := by
      apply ramOnly_eq_none w hs
      intro m' id _ hfind' hdev'
      obtain rfl : m' = m := Option.some.inj (hfind'.symm.trans hfind)
      exact nomatch hdev'.symm.trans hdev
    have hlook : BusFastPath.device addr size = some (dev, addr - m.base) :=
      (device_eq_some_iff hsize hw).2 ⟨m, hfind, hdev, rfl, fun h => hkmi (h ▸ rfl),
        fun h => hrtc (h ▸ rfl)⟩
    constructor
    · rw [BusFastPath.read, hread, hlook]
      rfl
    · rw [BusFastPath.write, hwrite, hlook]
      rfl

/-- Where the search finds nothing, or a device without a window, or only by a wrapped
sum, the fast path declines. -/
theorem fastPath_declines (hs : Ram.fastSize size = true)
    (h : ∀ m, ¬ Wraps addr size → find addr size = some m →
      m.device = .mmio .kmi ∨ m.device = .mmio .rtc) (value : U64) :
    fastPath.read io w addr size = none ∧ fastPath.write io w addr value size = none := by
  have hsize := pos_of_fastSize hs
  obtain ⟨hread, hwrite⟩ : fastPath.readRamOnly w addr size = none ∧
      fastPath.writeRamOnly w addr value size = none := by
    apply ramOnly_eq_none w hs
    intro m id hw hfind hdev
    rcases h m hw hfind with hd | hd
    · exact nomatch hdev.symm.trans hd
    · exact nomatch hdev.symm.trans hd
  have hlook : BusFastPath.device addr size = none := by
    apply device_eq_none hsize
    intro m dev hw hfind hdev
    rcases h m hw hfind with hd | hd
    · exact .inl (DeviceRef.mmio.inj (hdev.symm.trans hd))
    · exact .inr (DeviceRef.mmio.inj (hdev.symm.trans hd))
  constructor
  · rw [BusFastPath.read, hread, hlook]
    rfl
  · rw [BusFastPath.write, hwrite, hlook]
    rfl

/-- Attaching the fast path changes no access, at any address. -/
theorem attached_eq_plain (hs : Ram.fastSize size = true) (value : U64) :
    read (some fastPath) io w addr size = read none io w addr size ∧
      write (some fastPath) io w addr value size = write none io w addr value size := by
  by_cases hcov : ∃ m, ¬ Wraps addr size ∧ find addr size = some m ∧
      m.device ≠ .mmio .kmi ∧ m.device ≠ .mmio .rtc
  · obtain ⟨m, hw, hfind, hkmi, hrtc⟩ := hcov
    obtain ⟨hread, hwrite⟩ := fastPath_of_find w io hs hw hfind hkmi hrtc value
    constructor
    · simp only [read, Option.bind_some, Option.bind_none, hread, hfind, Option.map_some]
    · simp only [write, Option.bind_some, Option.bind_none, hwrite, hfind, Option.map_some]
  · obtain ⟨hread, hwrite⟩ := fastPath_declines w io hs (fun m hw hfind => by
      by_contra hne
      obtain ⟨hkmi, hrtc⟩ := not_or.1 hne
      exact hcov ⟨m, hw, hfind, hkmi, hrtc⟩) value
    constructor
    · simp only [read, Option.bind_some, Option.bind_none, hread]
    · simp only [write, Option.bind_some, Option.bind_none, hwrite]

/-- The fast path called by itself, below the top of the address space: it declines the
KMI and the RTC and is otherwise the plain bus. -/
theorem fastPath_eq_plain (hs : Ram.fastSize size = true) (hw : ¬ Wraps addr size) (value : U64) :
    (Uncovered addr size →
      fastPath.read io w addr size = none ∧ fastPath.write io w addr value size = none) ∧
    (¬ Uncovered addr size →
      fastPath.read io w addr size = read none io w addr size ∧
        fastPath.write io w addr value size = write none io w addr value size) := by
  rw [uncovered_iff (pos_of_fastSize hs) hw]
  constructor
  · rintro ⟨m, hfind, hdev⟩
    apply fastPath_declines w io hs
    intro m' _ hfind'
    obtain rfl : m' = m := Option.some.inj (hfind'.symm.trans hfind)
    exact hdev
  · intro hcov
    cases hfind : find addr size with
    | none =>
      obtain ⟨hread, hwrite⟩ := fastPath_declines w io hs (fun m _ h => nomatch hfind.symm.trans h)
        value
      rw [hread, hwrite, read, write, hfind]
      exact ⟨rfl, rfl⟩
    | some m =>
      have hkmi : m.device ≠ .mmio .kmi := fun h => hcov ⟨m, hfind, .inl h⟩
      have hrtc : m.device ≠ .mmio .rtc := fun h => hcov ⟨m, hfind, .inr h⟩
      obtain ⟨hread, hwrite⟩ := fastPath_of_find w io hs hw hfind hkmi hrtc value
      rw [hread, hwrite, read, write, hfind]
      exact ⟨rfl, rfl⟩

/-- The RAM-only entries: inside a RAM they are the plain bus, elsewhere they decline. -/
theorem ramFast_eq_plain (hs : Ram.fastSize size = true) (hw : ¬ Wraps addr size) (value : U64) :
    (InRam addr size →
      (readRamFast (some fastPath) w addr size).map (·, w) = read none io w addr size ∧
        writeRamFast (some fastPath) w addr value size = write none io w addr value size) ∧
    (¬ InRam addr size →
      readRamFast (some fastPath) w addr size = none ∧
        writeRamFast (some fastPath) w addr value size = none) := by
  rw [inRam_iff (pos_of_fastSize hs) hw]
  constructor
  · rintro ⟨m, id, hfind, hdev⟩
    simp only [readRamFast, writeRamFast, Option.bind_some, read, write, Option.bind_none, hfind,
      Option.map_some]
    rw [readRamOnly_of_ram w hs hw hfind hdev,
      writeRamOnly_of_ram w io hs hw hfind hdev value, hdev]
    exact ⟨rfl, rfl⟩
  · intro h
    apply ramOnly_eq_none w hs
    intro m id _ hfind hdev
    exact h ⟨m, id, hfind, hdev⟩

/-- The fast path, the RAM-only entries and the table agree on acceptance, value, RAM,
device accesses and framebuffer marks, wherever the fast path has a window. -/
theorem fastPath_agrees (hs : Ram.fastSize size = true) (value : U64) :
    (read (some fastPath) io w addr size = read none io w addr size ∧
      write (some fastPath) io w addr value size = write none io w addr value size) ∧
    (¬ Wraps addr size →
      (Uncovered addr size →
        fastPath.read io w addr size = none ∧ fastPath.write io w addr value size = none) ∧
      (¬ Uncovered addr size →
        fastPath.read io w addr size = read none io w addr size ∧
          fastPath.write io w addr value size = write none io w addr value size) ∧
      (InRam addr size →
        (readRamFast (some fastPath) w addr size).map (·, w) = read none io w addr size ∧
          writeRamFast (some fastPath) w addr value size = write none io w addr value size) ∧
      (¬ InRam addr size →
        readRamFast (some fastPath) w addr size = none ∧
          writeRamFast (some fastPath) w addr value size = none)) := by
  refine ⟨attached_eq_plain w io hs value, fun hw => ?_⟩
  obtain ⟨hdeclines, hcovered⟩ := fastPath_eq_plain w io hs hw value
  obtain ⟨hram, hother⟩ := ramFast_eq_plain w io hs hw value
  exact ⟨hdeclines, hcovered, hram, hother⟩

/-- The world of a new `SoC` whose devices read zero and ignore writes. -/
def quietWorld : World Unit where
  rams := socRams
  tracker := ⟨600, 3200, kFramebufferSize, fun _ => 0, 0⟩
  accesses := []
  devices := ()
  size_eq := fun _ => rfl

def quietIo : DeviceIo Unit where
  read := fun _ _ _ w => (0, w)
  write := fun _ _ _ _ w => w

/-- A word in the second row of the framebuffer. -/
theorem fastPath_agrees_framebuffer :
    (write (some fastPath) quietIo quietWorld (kFramebufferBase + 3200) 7 4).isSome = true ∧
      fastPath.write quietIo quietWorld (kFramebufferBase + 3200) 7 4 =
        write none quietIo quietWorld (kFramebufferBase + 3200) 7 4 := by
  have h := @fastPath_agrees _ quietWorld (kFramebufferBase + 3200) 4 quietIo (by decide) 7
  refine ⟨?_, ((h.2 (by decide)).2.1 (by decide)).2⟩
  rw [h.1.2]
  decide

/-- Four bytes of the KMI: the fast path declines what the table takes, and
`write_ram_fast` declines a device the fast path has a window for. -/
theorem fastPath_declines_kmi :
    (fastPath.read quietIo quietWorld kKmiBase 4).isSome = false ∧
      (read none quietIo quietWorld kKmiBase 4).isSome = true ∧
      (writeRamFast (some fastPath) quietWorld kUartBase 1 4).isSome = false ∧
      (write none quietIo quietWorld kUartBase 1 4).isSome = true := by
  decide

end SocBus
end Aarchvm
