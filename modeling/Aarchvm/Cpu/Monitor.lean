import Aarchvm.Cpu.Access

/-!
# The exclusive monitor

The monitor records one physical address for each byte of a load-exclusive. A
store-exclusive of the same size translates its bytes again, as a write, and
stores if they are the recorded ones. The memory-write notification of another
CPU's store or of DMA clears a monitor that it overlaps and sets the event
register.
-/
namespace Aarchvm

/-- `ranges_overlap`. -/
def rangesOverlap (aBase : U64) (aSize : Nat) (bBase : U64) (bSize : Nat) : Bool :=
  if aSize = 0 ∨ bSize = 0 then false
  else
    decide (aBase < bBase + BitVec.ofNat 64 bSize) && decide (bBase < aBase + BitVec.ofNat 64 aSize)

namespace Cpu

/-- `capture_exclusive_phys_addrs`. -/
def captureExclusivePhysAddrs (c : Cpu) (readDesc : U64 → Option U64) (va : U64) (size : Nat)
    (write : Bool) : Option (List U64) × Cpu :=
  if size = 0 ∨ 16 < size then (none, c)
  else translateEach readDesc (if write then .write else .read) c (bytesFrom va size)

theorem translateEach_length {readDesc : U64 → Option U64} {access : AccessType} {c c' : Cpu}
    {vas pas : List U64} (h : translateEach readDesc access c vas = (some pas, c')) :
    pas.length = vas.length := by
  induction vas generalizing c pas with
  | nil =>
    cases h
    rfl
  | cons va vas ih =>
    rw [translateEach] at h
    split at h
    · cases h
    · next pa c₁ _ =>
      cases hr : translateEach readDesc access c₁ vas with
      | mk rest c₂ =>
        rw [hr] at h
        cases rest with
        | none => cases h
        | some pas' =>
          cases h
          rw [List.length_cons, List.length_cons, ih hr]

theorem captureExclusivePhysAddrs_length {c c' : Cpu} {readDesc : U64 → Option U64} {va : U64}
    {size : Nat} {write : Bool} {pas : List U64}
    (h : c.captureExclusivePhysAddrs readDesc va size write = (some pas, c')) :
    pas.length = size := by
  rw [captureExclusivePhysAddrs] at h
  generalize (if write = true then AccessType.write else AccessType.read) = access at h
  split_ifs at h
  · cases h
  · rw [translateEach_length h, bytesFrom, List.length_map, List.length_range]

/-- `set_exclusive_monitor`. -/
def setExclusiveMonitor (c : Cpu) (readDesc : U64 → Option U64) (va : U64) (size : Nat) : Cpu :=
  match h : c.clearExclusiveMonitor.captureExclusivePhysAddrs readDesc va size false with
  | (none, c') => c'
  | (some pas, c') =>
    { c' with exclusive := some ⟨va, size, pas, captureExclusivePhysAddrs_length h⟩ }

/-- `check_exclusive_monitor`; `none` when a byte does not translate for writing. -/
def checkExclusiveMonitor (c : Cpu) (readDesc : U64 → Option U64) (va : U64) (size : Nat) :
    Option Bool × Cpu :=
  match c.exclusive with
  | none => (some false, c)
  | some m =>
    if m.size ≠ size then (some false, c)
    else
      match c.captureExclusivePhysAddrs readDesc va size true with
      | (none, c') => (none, c')
      | (some pas, c') => (some (pas == m.physAddrs), c')

theorem accessed_captureExclusivePhysAddrs (c : Cpu) (readDesc : U64 → Option U64) (va : U64)
    (size : Nat) (write : Bool) :
    Accessed c (c.captureExclusivePhysAddrs readDesc va size write).2 := by
  rw [captureExclusivePhysAddrs]
  split
  · exact Accessed.refl c
  · exact (translateEach_spec c readDesc _ (bytesFrom va size)).1

theorem accessed_checkExclusiveMonitor (c : Cpu) (readDesc : U64 → Option U64) (va : U64)
    (size : Nat) : Accessed c (c.checkExclusiveMonitor readDesc va size).2 := by
  have hcapture := accessed_captureExclusivePhysAddrs c readDesc va size true
  rw [checkExclusiveMonitor]
  split
  · exact Accessed.refl c
  · split
    · exact Accessed.refl c
    · split
      · next hc =>
        rw [hc] at hcapture
        exact hcapture
      · next hc =>
        rw [hc] at hcapture
        exact hcapture

/-- `exclusive_monitor_overlaps`. -/
def exclusiveMonitorOverlaps (c : Cpu) (pa : U64) (size : Nat) : Bool :=
  match c.exclusive with
  | none => false
  | some m => m.physAddrs.any fun byte => rangesOverlap byte 1 pa size

/-- `notify_external_memory_write`. -/
def notifyExternalMemoryWrite (c : Cpu) (w : PhysWrite) : Cpu :=
  if c.exclusiveMonitorOverlaps w.pa w.size then
    { c with eventRegister := true, exclusive := none }
  else c

end Cpu

/-! ## Exclusive instructions -/

/-- How a store-exclusive ends: it stored and its status is 0, it did not and its status is 1, or
it raised an exception. -/
inductive ExclusiveStatus where
  | stored | failed | faulted
  deriving DecidableEq, Repr

namespace Core

variable {β : Type} (port : BusPort β)

/-- LDXR and its variants; the flag is false when the load faulted. -/
def loadExclusive (s : Core β) (rt rn : Nat) (addr : U64) (size : Nat) : Bool × Core β :=
  match s.mmuRead port rn addr size true with
  | (none, s') => (false, s'.dataAbort addr)
  | (some value, s') =>
    (true, s'.setCpu ((s'.cpu.setRegSized rt value size).setExclusiveMonitor
      (port.readDesc s'.bus) addr size))

/-- LDXP and its variants. -/
def loadExclusivePair (s : Core β) (rt rt2 rn : Nat) (addr : U64) (elemSize : Nat) :
    Bool × Core β :=
  match s.cpu.maybeTakeSpAlignmentFault rn with
  | some c => (false, s.setCpu c)
  | none =>
    match s.cpu.maybeTakeDataAlignmentFault (port.readDesc s.bus) (port.hasRam s.bus) addr
        (elemSize * 2) .read true with
    | some c => (false, s.setCpu c)
    | none =>
      match s.mmuRead port rn addr elemSize true with
      | (none, s₁) => (false, s₁.dataAbort addr)
      | (some v1, s₁) =>
        match s₁.mmuRead port rn (addr + BitVec.ofNat 64 elemSize) elemSize true with
        | (none, s₂) => (false, s₂.dataAbort addr)
        | (some v2, s₂) =>
          (true, s₂.setCpu
            (((s₂.cpu.setRegSized rt v1 elemSize).setRegSized rt2 v2 elemSize).setExclusiveMonitor
              (port.readDesc s₂.bus) addr (elemSize * 2)))

/-- What STXR and STXP share: the alignment checks, the monitor, and then `write`. -/
def storeExclusiveWith (s : Core β) (rs rn : Nat) (addr : U64) (size : Nat)
    (write : Core β → Bool × Core β) : ExclusiveStatus × Core β :=
  match s.cpu.maybeTakeSpAlignmentFault rn with
  | some c => (.faulted, s.setCpu c.clearExclusiveMonitor)
  | none =>
    match s.cpu.maybeTakeDataAlignmentFault (port.readDesc s.bus) (port.hasRam s.bus) addr size
        .write true with
    | some c => (.faulted, s.setCpu c.clearExclusiveMonitor)
    | none =>
      match s.cpu.checkExclusiveMonitor (port.readDesc s.bus) addr size with
      | (none, c) => (.faulted, (s.setCpu c.clearExclusiveMonitor).dataAbort addr)
      | (some false, c) => (.failed, s.setCpu (c.clearExclusiveMonitor.setReg rs 1))
      | (some true, c) =>
        match write (s.setCpu c.clearExclusiveMonitor) with
        | (false, s') => (.faulted, s'.dataAbort addr)
        | (true, s') => (.stored, s'.setCpu (s'.cpu.setReg rs 0))

/-- STXR and its variants. -/
def storeExclusive (s : Core β) (rs rn : Nat) (addr value : U64) (size : Nat) :
    ExclusiveStatus × Core β :=
  s.storeExclusiveWith port rs rn addr size fun s' => s'.mmuWriteValue port addr value size .write

/-- STXP and its variants. -/
def storeExclusivePair (s : Core β) (rs rn : Nat) (addr first second : U64) (elemSize : Nat) :
    ExclusiveStatus × Core β :=
  s.storeExclusiveWith port rs rn addr (elemSize * 2) fun s' =>
    s'.rawMmuWritePairAtomic port addr first second elemSize

end Core

/-! ## The bytes of an access within its page -/

theorem toNat_pageOffset (x : U64) : (x &&& 0xFFF).toNat = x.toNat % 4096 := by
  have hm : (0xFFF : U64).toNat = 2 ^ 12 - 1 := rfl
  rw [BitVec.toNat_and, hm, Nat.and_two_pow_sub_one_eq_mod]

theorem toNat_page (x : U64) : (x >>> 12).toNat = x.toNat / 4096 := by
  rw [BitVec.toNat_ushiftRight, Nat.shiftRight_eq_div_pow]

/-- Adding less than what is left of the page stays in the page. -/
theorem add_in_page {x : U64} {i : Nat} (h : (x &&& 0xFFF).toNat + i < 4096) :
    (x + BitVec.ofNat 64 i) >>> 12 = x >>> 12 ∧
      ((x + BitVec.ofNat 64 i) &&& 0xFFF).toNat = (x &&& 0xFFF).toNat + i := by
  rw [toNat_pageOffset] at h
  have hx := x.isLt
  have hadd : (x + BitVec.ofNat 64 i).toNat = x.toNat + i := by
    rw [BitVec.toNat_add, BitVec.toNat_ofNat, Nat.mod_eq_of_lt (show i < 2 ^ 64 by omega),
      Nat.mod_eq_of_lt (by omega)]
  constructor
  · apply BitVec.eq_of_toNat_eq
    rw [toNat_page, toNat_page, hadd]
    omega
  · rw [toNat_pageOffset, toNat_pageOffset, hadd]
    omega

/-- Byte `i` of an access is byte `i` of its physical address. -/
theorem pageAt_add {pa va : U64} {i : Nat} (hpa : pa = pageAt pa va)
    (h : (va &&& 0xFFF).toNat + i < 4096) :
    pageAt pa (va + BitVec.ofNat 64 i) = pa + BitVec.ofNat 64 i := by
  have hoff : pa &&& 0xFFF = va &&& 0xFFF := by
    rw [hpa]
    exact pageAt_offset _ _
  have hpaOff : (pa &&& 0xFFF).toNat + i < 4096 := by rwa [hoff]
  obtain ⟨hpage, hbyte⟩ := add_in_page hpaOff
  symm
  apply eq_pageAt hpage
  apply BitVec.eq_of_toNat_eq
  rw [hbyte, (add_in_page h).2, hoff]

namespace Cpu

variable {c c' : Cpu} {readDesc : U64 → Option U64} {va pa : U64} {access : AccessType} {size : Nat}

theorem translateEach_cons_ok {vas : List U64}
    (h : c.translateDataAddressFast readDesc va access = (.ok pa, c')) :
    translateEach readDesc access c (va :: vas) =
      ((translateEach readDesc access c' vas).1.map (pa :: ·),
        (translateEach readDesc access c' vas).2) := by
  rw [translateEach, h]

theorem translateEach_of_hot {pas : U64 → U64} {vas : List U64}
    (h : ∀ va ∈ vas, c.translateDataAddressFast readDesc va access = (.ok (pas va), c)) :
    translateEach readDesc access c vas = (some (vas.map pas), c) := by
  induction vas with
  | nil => rfl
  | cons va vas ih =>
    rw [translateEach_cons_ok (h va List.mem_cons_self),
      ih fun v hv => h v (List.mem_cons_of_mem _ hv)]
    rfl

theorem mem_bytesFrom {addr b : U64} (h : b ∈ bytesFrom addr size) :
    ∃ i, i < size ∧ b = addr + BitVec.ofNat 64 i := by
  obtain ⟨i, hi, rfl⟩ := List.mem_map.1 h
  exact ⟨i, List.mem_range.1 hi, rfl⟩

theorem inPage_lt {i : Nat} (hin : Core.inPage va size = true) (hi : i < size) :
    (va &&& 0xFFF).toNat + i < 4096 := by
  have h : (va &&& 0xFFF).toNat + size ≤ 0x1000 := of_decide_eq_true hin
  omega

/-- In a page that translates, each byte translates to its physical byte. -/
theorem translateEach_of_translate (hin : Core.inPage va size = true)
    (h : c.translateDataAddressFast readDesc va access = (.ok pa, c')) :
    translateEach readDesc access c' (bytesFrom va size) = (some (bytesFrom pa size), c') := by
  obtain ⟨hpa, hagain⟩ := translate_again h
  have hbytes : ∀ b ∈ bytesFrom va size,
      c'.translateDataAddressFast readDesc b access = (.ok (pageAt pa b), c') := by
    intro b hb
    obtain ⟨i, hi, rfl⟩ := mem_bytesFrom hb
    exact hagain _ (add_in_page (inPage_lt hin hi)).1.symm
  rw [translateEach_of_hot hbytes, bytesFrom, bytesFrom, List.map_map]
  congr 2
  apply List.map_congr_left
  intro i hi
  exact pageAt_add hpa (inPage_lt hin (List.mem_range.1 hi))

theorem bytesFrom_succ (addr : U64) (n : Nat) :
    bytesFrom addr (n + 1) =
      addr :: (List.range n).map fun i => addr + BitVec.ofNat 64 (i + 1) := by
  rw [bytesFrom, List.range_succ_eq_map, List.map_cons, List.map_map]
  congr 1
  exact BitVec.add_zero addr

/-- The byte-by-byte translation of an access within its page. -/
theorem translateEach_bytesFrom (hsize : 0 < size) (hin : Core.inPage va size = true)
    {pas : List U64} (h : translateEach readDesc access c (bytesFrom va size) = (some pas, c')) :
    ∃ pa, c.translateDataAddressFast readDesc va access = (.ok pa, c') ∧
      pas = bytesFrom pa size := by
  obtain ⟨n, rfl⟩ : ∃ n, size = n + 1 := ⟨size - 1, by omega⟩
  cases hc : c.translateDataAddressFast readDesc va access with
  | mk outcome c₁ =>
    rw [bytesFrom_succ] at h
    cases outcome with
    | error f =>
      rw [translateEach, hc] at h
      cases h
    | ok pa =>
      have hall := translateEach_of_translate hin hc
      have hva := (translate_again hc).2 va rfl
      rw [bytesFrom_succ, translateEach_cons_ok hva] at hall
      rw [translateEach_cons_ok hc] at h
      rw [← (translate_again hc).1, h] at hall
      cases hall
      exact ⟨pa, rfl, rfl⟩

/-- A match: the monitor holds the bytes to which `va` translates for writing. -/
theorem checkExclusiveMonitor_matched (hsize : 0 < size) (hin : Core.inPage va size = true)
    (h : c.checkExclusiveMonitor readDesc va size = (some true, c')) :
    ∃ m pa, c.exclusive = some m ∧ c.translateDataAddressFast readDesc va .write = (.ok pa, c') ∧
      m.physAddrs = bytesFrom pa size := by
  rw [checkExclusiveMonitor] at h
  split at h
  · cases h
  · next m hm =>
    split at h
    · cases h
    · cases hc : c.captureExclusivePhysAddrs readDesc va size true with
      | mk captured c₁ =>
        rw [hc] at h
        cases captured with
        | none => cases h
        | some pas =>
          obtain ⟨hmatch, rfl⟩ := Prod.mk.inj h
          rw [captureExclusivePhysAddrs] at hc
          split at hc
          · cases hc
          · obtain ⟨pa, hpa, rfl⟩ := translateEach_bytesFrom hsize hin hc
            exact ⟨m, pa, hm, hpa, (eq_of_beq (Option.some.inj hmatch)).symm⟩

theorem aligned_of_noFault {hasRam : U64 → Bool} {align : Nat}
    (h : c.maybeTakeDataAlignmentFault readDesc hasRam va align access true = none) :
    align ≤ 1 ∨ va.toNat % align = 0 := by
  by_contra hn
  rw [maybeTakeDataAlignmentFault, if_neg hn] at h
  simp at h

/-- An aligned access of 1, 2, 4, 8 or 16 bytes stays in its page. -/
theorem inPage_of_aligned {k : Nat} (hk : k ≤ 4) (h : 2 ^ k ≤ 1 ∨ va.toNat % 2 ^ k = 0) :
    Core.inPage va (2 ^ k) = true := by
  rw [Core.inPage, toNat_pageOffset]
  apply decide_eq_true
  have hlt : k < 5 := by omega
  rcases (by omega : k = 0 ∨ k = 1 ∨ k = 2 ∨ k = 3 ∨ k = 4) with rfl | rfl | rfl | rfl | rfl <;>
    omega

end Cpu

/-- The physical bytes of some writes. -/
def writtenBytes (ws : List PhysWrite) : List U64 := ws.flatMap fun w => bytesFrom w.pa w.size

namespace Core

open Cpu

variable {β : Type} {port : BusPort β} {s : Core β} {va : U64} {size : Nat}

theorem commit_stored {requests : List BusPort.Request} {onReject : Cpu → U64 → Cpu}
    (h : (s.commit port size requests onReject).1 = true) :
    (s.commit port size requests onReject).2.writes =
      s.writes ++ requests.map fun r => ⟨r.pa, size⟩ := by
  have hall := (BusPort.writeEach_spec port size s.bus requests).2
  rw [commit] at h ⊢
  split at h
  · cases h
  · next b ws he =>
    rw [he] at hall
    exact congrArg (s.writes ++ ·) (hall rfl)

theorem byteRequests_pas (va : U64) (pas : List U64) (byteOf : Nat → U64) :
    (byteRequests va pas byteOf).map (·.pa) = pas := by
  rw [byteRequests, List.map_map]
  exact List.zipIdx_map_fst 0 pas

theorem byteRequests_writes (va : U64) (pas : List U64) (byteOf : Nat → U64) :
    (byteRequests va pas byteOf).map (fun r => (⟨r.pa, 1⟩ : PhysWrite)) =
      pas.map fun pa => ⟨pa, 1⟩ := by
  have h := congrArg (List.map fun pa => (⟨pa, 1⟩ : PhysWrite)) (byteRequests_pas va pas byteOf)
  rwa [List.map_map] at h

/-- What a complete store within a page wrote. -/
theorem mmuWriteValue_stored {value : U64} {access : AccessType} (hin : inPage va size = true)
    (h : (s.mmuWriteValue port va value size access).1 = true) :
    ∃ pa c, ({ s.cpu with lastDataAbortIssOverride := none, lastDataFaultVa := none } :
          Cpu).translateDataAddressFast (port.readDesc s.bus) va access = (.ok pa, c) ∧
      (s.mmuWriteValue port va value size access).2.writes = s.writes ++ [⟨pa, size⟩] := by
  simp only [mmuWriteValue, hin, if_true] at h ⊢
  split at h
  · cases h
  · next hsize =>
    rw [if_neg hsize]
    split at h
    · cases h
    · next pa c hc =>
      rw [hc]
      split at h
      · cases h
      · exact ⟨pa, c, rfl, commit_stored h⟩

theorem rawMmuWritePairAtomic_stored {first second : U64} {elemSize : Nat}
    (h : (s.rawMmuWritePairAtomic port va first second elemSize).1 = true) :
    ∃ pas c, translateEach (port.readDesc s.bus) .write { s.cpu with lastDataFaultVa := none }
          (bytesFrom va (elemSize * 2)) = (some pas, c) ∧
      (s.rawMmuWritePairAtomic port va first second elemSize).2.writes =
        s.writes ++ pas.map (⟨·, 1⟩) := by
  simp only [rawMmuWritePairAtomic] at h ⊢
  split at h
  · cases h
  · next hsize =>
    rw [if_neg hsize]
    split at h
    · cases h
    · next pas c hc =>
      rw [hc]
      split at h
      · cases h
      · refine ⟨pas, c, rfl, (commit_stored h).trans ?_⟩
        rw [byteRequests_writes]
        rfl

/-- What a store-exclusive that stores has checked before it writes. -/
theorem storeExclusiveWith_stored {rs rn : Nat} {write : Core β → Bool × Core β}
    (h : (s.storeExclusiveWith port rs rn va size write).1 = .stored) :
    ∃ c s', (size ≤ 1 ∨ va.toNat % size = 0) ∧
      s.cpu.checkExclusiveMonitor (port.readDesc s.bus) va size = (some true, c) ∧
      write (s.setCpu c.clearExclusiveMonitor) = (true, s') ∧
      (s.storeExclusiveWith port rs rn va size write).2 = s'.setCpu (s'.cpu.setReg rs 0) := by
  rw [storeExclusiveWith] at h ⊢
  split at h
  · cases h
  · split at h
    · cases h
    · next halign =>
      split at h
      · cases h
      · cases h
      · next c hc =>
        split at h
        · cases h
        · next s' hs' => exact ⟨c, s', aligned_of_noFault halign, hc, hs', rfl⟩

@[simp] theorem setReg_exclusive (c : Cpu) (i : Nat) (value : U64) :
    (c.setReg i value).exclusive = c.exclusive := by
  rw [Cpu.setReg]
  split <;> rfl

/-- The store of an exclusive translates as the check of the monitor did. -/
theorem translate_after_check {c c' : Cpu} {readDesc : U64 → Option U64} {pa : U64}
    (h : c.translateDataAddressFast readDesc va .write = (.ok pa, c')) :
    ({ c'.clearExclusiveMonitor with lastDataAbortIssOverride := none, lastDataFaultVa := none } :
        Cpu).translateDataAddressFast readDesc va .write =
      (.ok pa, c'.clearExclusiveMonitor) := by
  have hlatch : ({ c'.clearExclusiveMonitor with
      lastDataAbortIssOverride := none, lastDataFaultVa := none } : Cpu) =
      { c' with exclusive := none } := by
    rw [← clearFaultLatches_of_translate h]
    rfl
  have hagain := (translate_again h).2 va rfl
  rw [← (translate_again h).1] at hagain
  rw [hlatch, translate_clearExclusive, hagain]
  rfl

/-- A store-exclusive that stores writes the bytes that the monitor holds. -/
theorem storeExclusive_stored {rs rn k : Nat} {value : U64} (hk : k ≤ 3)
    (h : (s.storeExclusive port rs rn va value (2 ^ k)).1 = .stored) :
    ∃ m ws, s.cpu.exclusive = some m ∧ writtenBytes ws = m.physAddrs ∧
      (s.storeExclusive port rs rn va value (2 ^ k)).2.writes = s.writes ++ ws := by
  obtain ⟨c, s', halign, hcheck, hwrite, hres⟩ := storeExclusiveWith_stored h
  have hin := inPage_of_aligned (show k ≤ 4 by omega) halign
  obtain ⟨m, pa, hm, hpa, hbytes⟩ :=
    checkExclusiveMonitor_matched (Nat.two_pow_pos k) hin hcheck
  have hok := congrArg Prod.fst hwrite
  obtain ⟨pa', c', htr, hws⟩ := mmuWriteValue_stored hin hok
  cases htr.symm.trans (translate_after_check hpa)
  refine ⟨m, [⟨pa, 2 ^ k⟩], hm, ?_, ?_⟩
  · rw [hbytes, writtenBytes, List.flatMap_singleton]
  · rw [hwrite] at hws
    rw [storeExclusive, hres]
    exact hws

theorem writtenBytes_single (pas : List U64) : writtenBytes (pas.map fun pa => ⟨pa, 1⟩) = pas := by
  induction pas with
  | nil => rfl
  | cons pa pas ih =>
    have hcons : writtenBytes ((pa :: pas).map fun pa => ⟨pa, 1⟩) =
        bytesFrom pa 1 ++ writtenBytes (pas.map fun pa => ⟨pa, 1⟩) := rfl
    have hone : bytesFrom pa 1 = [pa] := congrArg (· :: []) (BitVec.add_zero pa)
    rw [hcons, ih, hone]
    rfl

/-- So does a pair store-exclusive. -/
theorem storeExclusivePair_stored {rs rn k : Nat} {first second : U64} (hk : k ≤ 3)
    (h : (s.storeExclusivePair port rs rn va first second (2 ^ k)).1 = .stored) :
    ∃ m ws, s.cpu.exclusive = some m ∧ writtenBytes ws = m.physAddrs ∧
      (s.storeExclusivePair port rs rn va first second (2 ^ k)).2.writes = s.writes ++ ws := by
  obtain ⟨c, s', halign, hcheck, hwrite, hres⟩ := storeExclusiveWith_stored h
  rw [← Nat.pow_succ] at halign
  have hin := inPage_of_aligned (show k + 1 ≤ 4 by omega) halign
  rw [Nat.pow_succ] at hin
  obtain ⟨m, pa, hm, hpa, hbytes⟩ :=
    checkExclusiveMonitor_matched (Nat.mul_pos (Nat.two_pow_pos k) (by decide)) hin hcheck
  have hok := congrArg Prod.fst hwrite
  obtain ⟨pas, c', htr, hws⟩ := rawMmuWritePairAtomic_stored hok
  have hlatch : ({ c.clearExclusiveMonitor with lastDataFaultVa := none } : Cpu) =
      c.clearExclusiveMonitor := by
    rw [← clearFaultLatches_of_translate hpa]
    rfl
  have heach := translateEach_of_translate hin (translate_after_check hpa)
  rw [show (s.setCpu c.clearExclusiveMonitor).cpu = c.clearExclusiveMonitor from rfl, hlatch] at htr
  cases htr.symm.trans heach
  refine ⟨m, (bytesFrom pa (2 ^ k * 2)).map fun pa => ⟨pa, 1⟩, hm, ?_, ?_⟩
  · rw [writtenBytes_single, hbytes]
  · rw [hwrite] at hws
    rw [storeExclusivePair, hres]
    exact hws

end Core
end Aarchvm
