import Aarchvm.Bus.Ram

/-!
# The physical bus

`Bus` from `bus.cpp` with the RAM half of `BusFastPath`: a table of mappings
searched in order, and an optional shortcut that answers for three constant RAM
windows before the table is looked at. Performance counters are left out.
-/
namespace Aarchvm

/-- Identity of a `Ram` object; mappings and the fast path hold references to it. -/
abbrev RamId := Nat

/-- The devices behind `Device` that are not a `Ram`. -/
inductive MmioDevice where
  | uart | kmi | perf | rtc | virtioBlk | virtioNet | blockMmio | gic | timer
  deriving DecidableEq, Repr

/-- What `mapping->device` points at. -/
inductive DeviceRef where
  | ram (id : RamId)
  | mmio (dev : MmioDevice)
  deriving DecidableEq, Repr

/-- `Bus::Mapping`. -/
structure Mapping where
  base : U64
  size : U64
  device : DeviceRef
  deriving DecidableEq, Repr

/-- A pointer into the byte vector of a `Ram`. -/
structure RamPtr where
  ram : RamId
  offset : U64
  deriving DecidableEq, Repr

def kBootRamBase : U64 := 0x00000000
def kBootRamSize : U64 := 128 * 1024 * 1024
def kFramebufferBase : U64 := 0x10000000
def kFramebufferSize : U64 := 0x00400000
def kSdramBase : U64 := 0x40000000
def kSdramSize : U64 := 1024 * 1024 * 1024
def kUartBase : U64 := 0x09000000
def kUartSize : U64 := 0x1000
def kKmiBase : U64 := 0x09010000
def kKmiSize : U64 := 0x1000
def kPerfBase : U64 := 0x09020000
def kPerfSize : U64 := 0x1000
def kRtcBase : U64 := 0x09030000
def kRtcSize : U64 := 0x1000
def kVirtioBlkBase : U64 := 0x09040000
def kVirtioBlkSize : U64 := 0x1000
def kVirtioNetBase : U64 := 0x09050000
def kVirtioNetSize : U64 := 0x1000
def kGicBase : U64 := 0x08000000
def kGicSize : U64 := 0x100000
def kTimerBase : U64 := 0x0A000000
def kTimerSize : U64 := 0x1000

/-- The three RAM references a `BusFastPath` is constructed with. -/
structure BusFastPath where
  bootRam : RamId
  framebufferRam : RamId
  sdram : RamId

/-- `base <= addr && addr < base + winSize`. -/
def inWindow (base winSize addr : U64) : Bool :=
  decide (base ≤ addr) && decide (addr < base + winSize)

/-- The body of one RAM window of the fast path, entered when `addr` is in it. -/
def windowPtr (ram : RamId) (base winSize addr size : U64) : Option RamPtr :=
  let off := addr - base
  if size ≤ winSize - off then some ⟨ram, off⟩ else none

/-- `BusFastPath::ram_ptr`. -/
def BusFastPath.ramPtr (f : BusFastPath) (addr size : U64) : Option RamPtr :=
  if inWindow kSdramBase kSdramSize addr then
    windowPtr f.sdram kSdramBase kSdramSize addr size
  else if inWindow kBootRamBase kBootRamSize addr then
    windowPtr f.bootRam kBootRamBase kBootRamSize addr size
  else if inWindow kFramebufferBase kFramebufferSize addr then
    windowPtr f.framebufferRam kFramebufferBase kFramebufferSize addr size
  else none

/-- `BusFastPath::ram_mut_ptr`, which tests the boot window first. -/
def BusFastPath.ramMutPtr (f : BusFastPath) (addr size : U64) : Option RamPtr :=
  if inWindow kBootRamBase kBootRamSize addr then
    windowPtr f.bootRam kBootRamBase kBootRamSize addr size
  else if inWindow kSdramBase kSdramSize addr then
    windowPtr f.sdram kSdramBase kSdramSize addr size
  else if inWindow kFramebufferBase kFramebufferSize addr then
    windowPtr f.framebufferRam kFramebufferBase kFramebufferSize addr size
  else none

/-- The bus with the RAMs its mappings refer to and the state `D` of every other device. -/
structure Bus (D : Type) where
  mappings : List Mapping
  /-- `fast_path_raw_`; `none` is the null pointer. -/
  fastPath : Option BusFastPath
  rams : RamId → Ram
  devices : D

namespace Bus

variable {D : Type}

/-- `Bus::map`. -/
def map (b : Bus D) (base size : U64) (device : DeviceRef) : Bus D :=
  { b with mappings := b.mappings ++ [⟨base, size, device⟩] }

def setRam (b : Bus D) (id : RamId) (r : Ram) : Bus D :=
  { b with rams := Function.update b.rams id r }

/-- `Bus::find`: the first mapping whose range check passes. -/
def find (b : Bus D) (addr size : U64) : Option Mapping :=
  b.mappings.find? fun m => decide (m.base ≤ addr) && decide (addr + size ≤ m.base + m.size)

/-- The common tail of `ram_ptr` and `ram_mut_ptr` after the fast path declined. -/
def findRamPtr (b : Bus D) (addr size : U64) : Option RamPtr :=
  match b.find addr size with
  | none => none
  | some m =>
    match m.device with
    | .mmio _ => none
    | .ram r =>
      let offset := addr - m.base
      if (b.rams r).size < offset + size then none else some ⟨r, offset⟩

/-- `Bus::ram_ptr`; `none` is the null pointer. -/
def ramPtr (b : Bus D) (addr size : U64) : Option RamPtr :=
  match b.fastPath.bind (·.ramPtr addr size) with
  | some p => some p
  | none => b.findRamPtr addr size

/-- `Bus::ram_mut_ptr`; `none` is the null pointer. -/
def ramMutPtr (b : Bus D) (addr size : U64) : Option RamPtr :=
  match b.fastPath.bind (·.ramMutPtr addr size) with
  | some p => some p
  | none => b.findRamPtr addr size

/-- `memcpy(dst, src, size)` at a pointer into a RAM. -/
def copyTo (b : Bus D) (dst : RamPtr) (src : Nat → U8) (size : U64) : Bus D :=
  let r := b.rams dst.ram
  b.setRam dst.ram { r with data := storeBytes r.data dst.offset.toNat size.toNat src }

/-- `Bus::write_ram_buffer`; `none` is the `false` return. The caller of this model
runs `ram_write_observer_(addr, size)` after a copy of a nonempty buffer. -/
def writeRamBuffer (b : Bus D) (addr : U64) (src : Option (Nat → U8)) (size : U64) :
    Option (Bus D) :=
  if size = 0 then some b
  else
    match src with
    | none => none
    | some bytes =>
      match b.ramMutPtr addr size with
      | none => none
      | some dst => some (b.copyTo dst bytes size)

end Bus

/-- The mapping table the `SoC` constructor builds, with the boot RAM, the framebuffer
and the SDRAM as RAM 0, 1 and 2. -/
def socMappings : List Mapping :=
  [⟨kBootRamBase, kBootRamSize, .ram 0⟩,
   ⟨kFramebufferBase, kFramebufferSize, .ram 1⟩,
   ⟨kSdramBase, kSdramSize, .ram 2⟩,
   ⟨kUartBase, kUartSize, .mmio .uart⟩,
   ⟨kKmiBase, kKmiSize, .mmio .kmi⟩,
   ⟨kPerfBase, kPerfSize, .mmio .perf⟩,
   ⟨kRtcBase, kRtcSize, .mmio .rtc⟩,
   ⟨kVirtioBlkBase, kVirtioBlkSize, .mmio .virtioBlk⟩,
   ⟨kVirtioNetBase, kVirtioNetSize, .mmio .virtioNet⟩,
   ⟨kGicBase, kGicSize, .mmio .gic⟩,
   ⟨kTimerBase, kTimerSize, .mmio .timer⟩]

def socRams : RamId → Ram
  | 0 => Ram.zeroed kBootRamSize
  | 1 => Ram.zeroed kFramebufferSize
  | 2 => Ram.zeroed kSdramSize
  | _ => Ram.zeroed 0

/-- The bus of a freshly constructed `SoC`, with or without the fast path attached. -/
def socBus {D : Type} (fast : Bool) (devices : D) : Bus D where
  mappings := socMappings
  fastPath := if fast then some ⟨0, 1, 2⟩ else none
  rams := socRams
  devices := devices

end Aarchvm
