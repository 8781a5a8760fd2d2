import Aarchvm.Virtio.BlkImage
import Aarchvm.Virtio.Snapshot
import Mathlib.Tactic.SplitIfs

/-!
# A restored virtio device

A device saved after any run of guest accesses, notifications and injected frames,
loaded back, and compared with the original over every further run: what its
registers read, what it does to memory, its interrupt line and the frames it sends.
-/
namespace Aarchvm.Virtio

open Lib.Run

variable {D : Type}

/-- What the guest and the host see of a device between two operations. -/
structure View (D : Type) where
  read : U64 → U64 → U64
  bus : Bus D
  irqPending : Bool
  /-- frames handed to `tx_frame_handler_` -/
  sent : List (List U8)

/-! ## The block device -/

namespace VirtioBlkMmio

def view (m : Machine D) : View D :=
  ⟨m.blk.read, m.bus, m.blk.interruptStatus != 0, []⟩

def views : Machine D → List (Op D) → List (View D) :=
  trace step fun m op => view (step m op)

/-- Loading what was saved gives a device nothing tells apart from the saved one. -/
def Restores (m : Machine D) : Prop :=
  ∃ v, loadState m.blk.saveState = some (v, []) ∧
    view ⟨v, m.bus⟩ = view m ∧ ∀ ops, views ⟨v, m.bus⟩ ops = views m ops

theorem restores_of_restorable {m : Machine D} (h : m.blk.Restorable) : Restores m := by
  have hload := loadState_saveState m.blk []
  rw [List.append_nil, if_pos h] at hload
  exact ⟨m.blk, hload, rfl, fun _ => rfl⟩

/-- A device that is not restorable is refused by the loader. -/
theorem restorable_of_restores {m : Machine D} (h : Restores m) : m.blk.Restorable := by
  obtain ⟨v, hload, -⟩ := h
  by_contra hnot
  have hrefused := loadState_saveState m.blk []
  rw [List.append_nil, if_neg hnot, hload] at hrefused
  exact nomatch hrefused

end VirtioBlkMmio

/-! ## The network device -/

namespace VirtioNetMmio

inductive Op (D : Type) where
  | write (handler : TxFrameHandler) (offset value size : U64)
  | enqueue (frame : List U8)
  | memory (b : Bus D)

def step (s : NetState D) : Op D → NetState D
  | .write handler offset value size => write handler s offset value size
  | .enqueue frame => (enqueueRxFrame s frame).1
  | .memory b => { s with bus := b }

def view (s : NetState D) : View D :=
  ⟨s.dev.read, s.bus, s.dev.interruptStatus != 0, s.sent⟩

/-- The view after an operation, and the answer of `enqueue_rx_frame`. -/
def shows (s : NetState D) (op : Op D) : View D × Bool :=
  (view (step s op),
    match op with
    | .enqueue frame => (enqueueRxFrame s frame).2
    | _ => false)

def Restores (s : NetState D) : Prop :=
  ∀ rxPadding txPadding, ∃ v, loadState (s.dev.saveState rxPadding txPadding) = some (v, []) ∧
    view { s with dev := v } = view s ∧
      ∀ ops, trace step shows { s with dev := v } ops = trace step shows s ops

/-- The loader takes the state, and the header width it computes is the one in use. Without
a backend the width is never used. -/
def Restorable (v : VirtioNetMmio) : Prop :=
  v.Loads ∧ (v.present = true → v.guestHeaderSize = v.netHeaderSize)

instance (v : VirtioNetMmio) : Decidable v.Restorable := inferInstanceAs (Decidable (_ ∧ _))

/-! ### A device without a backend -/

def withHeader (v : VirtioNetMmio) (g : Nat) : VirtioNetMmio := { v with guestHeaderSize := g }

/-- Equal, except that without a backend the recorded header widths may differ. -/
def Alike (v w : VirtioNetMmio) : Prop :=
  w = v ∨ v.present = false ∧ ∃ g, w = v.withHeader g

def AlikeState (s t : NetState D) : Prop :=
  Alike s.dev t.dev ∧ t.bus = s.bus ∧ t.sent = s.sent

theorem Alike.read_eq {v w : VirtioNetMmio} (h : Alike v w) : w.read = v.read := by
  rcases h with rfl | ⟨-, g, rfl⟩
  · rfl
  · rfl

theorem Alike.interruptStatus_eq {v w : VirtioNetMmio} (h : Alike v w) :
    w.interruptStatus = v.interruptStatus := by
  rcases h with rfl | ⟨-, g, rfl⟩
  · rfl
  · rfl

theorem AlikeState.view_eq {s t : NetState D} (h : AlikeState s t) : view t = view s := by
  obtain ⟨hdev, hbus, hsent⟩ := h
  rw [view, view, hdev.read_eq, hdev.interruptStatus_eq, hbus, hsent]

/-- A register write does not look at the header width, and keeps the backend. -/
theorem writeRegister_withHeader (v : VirtioNetMmio) (g : Nat) (offset value size : U64) :
    ∃ g', (v.withHeader g).writeRegister offset value size =
      (v.writeRegister offset value size).map (·.withHeader g') := by
  unfold writeRegister
  split_ifs
  all_goals first
    | exact ⟨g, rfl⟩
    | exact ⟨kVirtioNetHdrSize, rfl⟩

theorem writeRegister_present {v v' : VirtioNetMmio} {offset value size : U64}
    (h : v.writeRegister offset value size = some v') : v'.present = v.present := by
  unfold writeRegister at h
  split_ifs at h
  all_goals
    obtain rfl := Option.some.inj h
    rfl

theorem setSelected_withHeader (v : VirtioNetMmio) (g : Nat) (f : QueueState → QueueState) :
    (v.withHeader g).setSelected f = (v.setSelected f).withHeader g := by
  have hsel : (v.withHeader g).queueSel = v.queueSel := rfl
  unfold setSelected
  rw [hsel]
  by_cases hrx : v.queueSel = 0
  · rw [if_pos hrx, if_pos hrx]
    rfl
  · rw [if_neg hrx, if_neg hrx]
    by_cases htx : v.queueSel = 1
    · rw [if_pos htx, if_pos htx]
      rfl
    · rw [if_neg htx, if_neg htx]

theorem setSelected_present (v : VirtioNetMmio) (f : QueueState → QueueState) :
    (v.setSelected f).present = v.present := by
  unfold setSelected
  split_ifs <;> rfl

theorem processQueue_absent {handler : TxFrameHandler} {s : NetState D} (h : s.dev.present = false)
    (queueIndex : U32) : processQueue handler s queueIndex = s := by
  rw [processQueue, h]
  rfl

theorem enqueueRxFrame_absent {s : NetState D} (h : s.dev.present = false) (frame : List U8) :
    enqueueRxFrame s frame = (s, false) := by
  rw [enqueueRxFrame, h]
  rfl

/-- Without a backend a write changes registers only, and the header width is not looked
at. -/
theorem write_withHeader (handler : TxFrameHandler) (v : VirtioNetMmio) (b : Bus D)
    (sent : List (List U8)) (habsent : v.present = false) (g : Nat) (offset value size : U64) :
    ∃ v' g', v'.present = false ∧
      write handler ⟨v, b, sent⟩ offset value size = ⟨v', b, sent⟩ ∧
      write handler ⟨v.withHeader g, b, sent⟩ offset value size = ⟨v'.withHeader g', b, sent⟩ := by
  obtain ⟨g', hreg⟩ := writeRegister_withHeader v g offset value size
  unfold write
  dsimp only
  rw [hreg]
  cases hv : v.writeRegister offset value size with
  | some v' =>
    exact ⟨v', g', (writeRegister_present hv).trans habsent, rfl, rfl⟩
  | none =>
    dsimp only [Option.map_none]
    unfold writeQueueRegister
    by_cases hreg : ¬ queueWriteRegs.any (accessMatches offset size)
    · rw [if_pos hreg, if_pos hreg]
      exact ⟨v, g, habsent, rfl, rfl⟩
    rw [if_neg hreg, if_neg hreg]
    by_cases hsel : offset = kRegQueueSel
    · rw [if_pos hsel, if_pos hsel]
      exact ⟨{ v with queueSel := value.setWidth 32 }, g, habsent, rfl, rfl⟩
    rw [if_neg hsel, if_neg hsel]
    by_cases hnotify : offset = kRegQueueNotify
    · rw [if_pos hnotify, if_pos hnotify, processQueue_absent habsent,
        processQueue_absent (s := ⟨v.withHeader g, b, sent⟩) habsent]
      exact ⟨v, g, habsent, rfl, rfl⟩
    rw [if_neg hnotify, if_neg hnotify]
    refine ⟨v.setSelected (·.writeReg offset value), g, ?_, rfl, ?_⟩
    · rw [setSelected_present, habsent]
    · rw [setSelected_withHeader]

/-- An operation keeps two devices alike. -/
theorem step_alike {s t : NetState D} (op : Op D) (h : AlikeState s t) :
    AlikeState (step s op) (step t op) := by
  obtain ⟨sdev, sbus, ssent⟩ := s
  obtain ⟨tdev, tbus, tsent⟩ := t
  obtain ⟨hdev, hbus, hsent⟩ := h
  obtain rfl : tbus = sbus := hbus
  obtain rfl : tsent = ssent := hsent
  rcases hdev with hdev | ⟨habsent, g, hdev⟩
  · obtain rfl : tdev = sdev := hdev
    exact ⟨.inl rfl, rfl, rfl⟩
  obtain rfl : tdev = sdev.withHeader g := hdev
  cases op with
  | memory b => exact ⟨.inr ⟨habsent, g, rfl⟩, rfl, rfl⟩
  | enqueue frame =>
    have ht := @enqueueRxFrame_absent D ⟨sdev.withHeader g, tbus, tsent⟩ habsent frame
    rw [step, step, enqueueRxFrame_absent habsent, ht]
    exact ⟨.inr ⟨habsent, g, rfl⟩, rfl, rfl⟩
  | write handler offset value size =>
    obtain ⟨v', g', hv', hs, ht⟩ :=
      write_withHeader handler sdev tbus tsent habsent g offset value size
    rw [step, step, hs, ht]
    exact ⟨.inr ⟨hv', g', rfl⟩, rfl, rfl⟩

theorem shows_eq {s t : NetState D} (op : Op D) (h : AlikeState s t) : shows t op = shows s op := by
  have hview := (step_alike op h).view_eq
  cases op with
  | memory b => exact Prod.ext hview rfl
  | write handler offset value size => exact Prod.ext hview rfl
  | enqueue frame =>
    refine Prod.ext hview ?_
    have hpresent : t.dev.present = s.dev.present := by
      rcases h.1 with hdev | ⟨-, g, hdev⟩
      · rw [hdev]
      · rw [hdev]
        rfl
    have haccepts : ∀ s : NetState D, (enqueueRxFrame s frame).2 = s.dev.present := by
      intro s
      unfold enqueueRxFrame
      cases hp : s.dev.present with
      | false => rfl
      | true =>
        simp only [Bool.not_true, Bool.false_eq_true, if_false]
        split <;> rfl
    exact (haccepts t).trans (hpresent.trans (haccepts s).symm)

theorem restores_of_restorable {s : NetState D} (h : s.dev.Restorable) : Restores s := by
  obtain ⟨hloads, hheader⟩ := h
  intro rxPadding txPadding
  have hload := loadState_saveState hloads.addressable rxPadding txPadding []
  rw [List.append_nil, if_pos hloads] at hload
  have halike : AlikeState s { s with dev := s.dev.reloaded } := by
    refine ⟨?_, rfl, rfl⟩
    cases hp : s.dev.present with
    | false => exact .inr ⟨hp, s.dev.netHeaderSize, rfl⟩
    | true =>
      left
      dsimp only [reloaded]
      rw [← hheader hp]
  refine ⟨s.dev.reloaded, hload, halike.view_eq, fun ops => ?_⟩
  exact (trace_eq_of_simulation (fun _ _ op hr => step_alike op hr)
    (fun _ _ op hr => (shows_eq op hr).symm) halike ops).symm

end VirtioNetMmio

/-! ## Both -/

/-- After every run from a constructed device, a state the loader takes and whose header
width is the one the features give is restored. -/
theorem restores_along_runs :
    (∀ (image : Image) (b : Bus D) (ops : List (VirtioBlkMmio.Op D)),
      let m := run VirtioBlkMmio.step ⟨VirtioBlkMmio.init.setImage image, b⟩ ops
      m.blk.Restorable → VirtioBlkMmio.Restores m) ∧
    (∀ (present loopback : Bool) (mac : Mac) (b : Bus D) (ops : List (VirtioNetMmio.Op D)),
      let s := run VirtioNetMmio.step ⟨VirtioNetMmio.init.attach present loopback mac, b, []⟩ ops
      s.dev.Restorable → VirtioNetMmio.Restores s) :=
  ⟨fun _ _ _ h => VirtioBlkMmio.restores_of_restorable h,
    fun _ _ _ _ _ h => VirtioNetMmio.restores_of_restorable h⟩

/-! ### Runs -/

/-- SDRAM with a receive queue: one descriptor of 256 writable bytes at 0, the available
ring at 0x100 with one entry and the used ring at 0x200. -/
def rxBytes (i : Nat) : U8 :=
  if i < 0x10 then [0x00, 0x04, 0, 0x40, 0, 0, 0, 0, 0, 1, 0, 0, 2, 0, 0, 0].getD i 0
  else if i = 0x102 then 1
  else 0

def rxBus : Bus Unit := (socBus false ()).setRam 2 ⟨kSdramSize, rxBytes⟩

/-- The driver sets the receive queue up. -/
def rxSetup : List (VirtioNetMmio.Op Unit) :=
  [.write none kRegQueueNum 4 4, .write none kRegQueueDescLow kSdramBase 4,
   .write none kRegQueueAvailLow (kSdramBase + 0x100) 4,
   .write none kRegQueueUsedLow (kSdramBase + 0x200) 4, .write none kRegQueueReady 1 4]

def netState (ops : List (VirtioNetMmio.Op Unit)) : NetState Unit :=
  run VirtioNetMmio.step
    ⟨VirtioNetMmio.init.attach true false ⟨[2, 0, 0, 0, 0, 1], rfl⟩, rxBus, []⟩ ops

def blkState (ops : List (VirtioBlkMmio.Op Unit)) : VirtioBlkMmio.Machine Unit :=
  run VirtioBlkMmio.step
    ⟨VirtioBlkMmio.init.setImage (VirtioBlkMmio.zeroSectors 1 (by decide)), rxBus⟩ ops

/-- A queue being set up, and a frame that waits for one. -/
theorem restores_setup :
    VirtioBlkMmio.Restores (blkState [.write kRegQueueNum 8 4, .write kRegStatus 1 4]) ∧
      VirtioNetMmio.Restores (netState (.enqueue [1, 2, 3] :: rxSetup)) :=
  ⟨restores_along_runs.1 _ _ _ (by decide +kernel),
    restores_along_runs.2 _ _ _ _ _ (by decide +kernel)⟩

/-- The driver negotiates merged receive buffers. -/
def negotiated : NetState Unit :=
  netState (rxSetup ++ [.write none kRegDriverFeatures 0x8000 4])

/-- It takes the negotiation back, and a frame arrives. -/
def withdrawn : List (VirtioNetMmio.Op Unit) :=
  [.write none kRegDriverFeatures 0 4, .enqueue [0xab]]

/-- A block device whose guest selected queue 1 is refused. A network device restored
between the two writes of the features reports 13 bytes received, the original 11. -/
theorem refused_and_changed :
    ¬ VirtioBlkMmio.Restores (blkState [.write kRegQueueSel 1 4]) ∧
      ¬ VirtioNetMmio.Restores negotiated := by
  constructor
  · intro h
    exact absurd (VirtioBlkMmio.restorable_of_restores h) (by decide +kernel)
  · intro h
    obtain ⟨v, hload, -, htrace⟩ := h (fun _ => 0) (fun _ => 0)
    have hloads : negotiated.dev.Loads := by decide +kernel
    have hreloaded := VirtioNetMmio.loadState_saveState hloads.addressable (fun _ => 0)
      (fun _ => 0) []
    rw [List.append_nil, if_pos hloads, hload] at hreloaded
    obtain rfl : v = negotiated.dev.reloaded :=
      (Prod.mk.inj (Option.some.inj hreloaded)).1
    have hlength := congrArg (List.map fun r => (r.1.bus.rams 2).data 0x208) (htrace withdrawn)
    revert hlength
    decide +kernel

end Aarchvm.Virtio
