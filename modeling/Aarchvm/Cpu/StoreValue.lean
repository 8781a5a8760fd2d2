import Aarchvm.Cpu.Atomic
import Aarchvm.Cpu.Exclusive

/-!
# One store of up to eight bytes

`mmu_write_value` translates and checks before it writes. A byte that does not
translate or is watched leaves memory, every monitor and the decoded pages alone;
otherwise the bytes go where each of them translates to, whether the access stays in
its page or not. RAM takes widths of 1, 2, 4 and 8 only, so a store of another width
that stays in its page is dropped there.
-/
namespace Aarchvm

open SocBus

/-! ## Decoded pages -/

def kDecodeCachePages : Nat := 64

/-- `DecodePage`, without the instructions it holds. -/
structure DecodePage where
  valid : Bool
  vaPage : U64
  paPage : U64
  deriving DecidableEq, Repr

/-- The decode cache of a CPU: `predecode_enabled_`, `decode_pages_` and `decode_last_page_`. -/
structure DecodeCache where
  predecodeEnabled : Bool
  decodePages : Fin kDecodeCachePages → DecodePage
  decodeLastPage : Option (Fin kDecodeCachePages)

namespace DecodeCache

/-- Drop the pages that `gone` selects. -/
def drop (d : DecodeCache) (gone : Fin kDecodeCachePages → DecodePage → Bool) : DecodeCache :=
  let hit (i : Fin kDecodeCachePages) : Bool := (d.decodePages i).valid && gone i (d.decodePages i)
  { d with
    decodePages := fun i => { d.decodePages i with valid := (d.decodePages i).valid && !hit i }
    decodeLastPage := d.decodeLastPage.filter fun i => !hit i }

/-- `invalidate_decode_va_page`: the one slot the page can be in. -/
def invalidateDecodeVaPage (d : DecodeCache) (vaPage : U64) : DecodeCache :=
  d.drop fun i page => i.val == (vaPage >>> 12).toNat % kDecodeCachePages && page.vaPage == vaPage

/-- `invalidate_decode_pa_page`. -/
def invalidateDecodePaPage (d : DecodeCache) (paPage : U64) : DecodeCache :=
  d.drop fun _ page => page.paPage == paPage

/-- The pages from that of `addr` to that of its last byte. -/
def pagesOf (addr : U64) (size : Nat) : List U64 :=
  let first := addr &&& ~~~0xFFF
  let last := (addr + BitVec.ofNat 64 size - 1) &&& ~~~0xFFF
  (List.range (((last - first) >>> 12).toNat + 1)).map fun i => first + BitVec.ofNat 64 (i * 0x1000)

def invalidateDecodeVa (d : DecodeCache) (va : U64) (size : Nat) : DecodeCache :=
  (pagesOf va size).foldl invalidateDecodeVaPage d

def invalidateDecodePa (d : DecodeCache) (pa : U64) (size : Nat) : DecodeCache :=
  (pagesOf pa size).foldl invalidateDecodePaPage d

/-- `on_code_write`. -/
def onCodeWrite (d : DecodeCache) (tcr va pa : U64) (size : Nat) : DecodeCache :=
  if !d.predecodeEnabled then d
  else (d.invalidateDecodeVa (normalizeStage1Address tcr va) size).invalidateDecodePa pa size

/-- `on_code_write` after each write that the bus accepted: it is told of the writes that
`memory_write` is told of, the `i`-th at `va + i`. -/
def onCodeWrites (d : DecodeCache) (tcr va : U64) (ws : List PhysWrite) : DecodeCache :=
  ws.zipIdx.foldl (fun d w => d.onCodeWrite tcr (va + BitVec.ofNat 64 w.2) w.1.pa w.1.size) d

end DecodeCache

/-! ## The bytes of a store -/

namespace Core

open Cpu

section Store

variable {β : Type} (port : BusPort β) (s : Core β) (va : U64) (size : Nat) (access : AccessType)

/-- Where the bytes of the access translate to, one after the other; `none` when one of them
does not. -/
def bytePas : Option (List U64) :=
  (({ s.cpu with lastDataAbortIssOverride := none, lastDataFaultVa := none } : Cpu).translateEach
    (port.readDesc s.bus) access (bytesFrom va size)).1

/-- A byte of the access does not translate or is not permitted, or a watchpoint hits. -/
def Refuses : Prop :=
  s.bytePas port va size access = none ∨
    (s.cpu.maybeTakeWatchpointException va size access).isSome = true

/-- The writes since. -/
def newWrites (s' : Core β) : List PhysWrite := s'.writes.drop s.writes.length

/-- A store that changed nothing outside the registers: memory and devices, the monitors of
this and of every other CPU, and the decoded pages are as they were. -/
structure LeftAlone (s' : Core β) : Prop where
  bus : s'.bus = s.bus
  monitor : s'.cpu.exclusive = s.cpu.exclusive
  others : ∀ c : Cpu, c.notifyAll (s.newWrites s') = c
  decoded : ∀ d : DecodeCache, d.onCodeWrites s.cpu.sysregs.tcrEl1 va (s.newWrites s') = d

end Store

section Refused

variable {β : Type} {port : BusPort β} {s : Core β} {va : U64} {size : Nat} {access : AccessType}

theorem leftAlone_setCpu {c : Cpu} (h : c.exclusive = s.cpu.exclusive) :
    s.LeftAlone va (s.setCpu c) := by
  have hnone : s.newWrites (s.setCpu c) = [] := List.drop_length
  refine ⟨rfl, h, fun c => ?_, fun d => ?_⟩
  · rw [hnone]
    rfl
  · rw [hnone]
    rfl

/-- The watchpoints look at the system registers alone. -/
theorem watchpoint_congr {c c' : Cpu} (h : c'.sysregs = c.sysregs) :
    (c'.maybeTakeWatchpointException va size access).isSome =
      (c.maybeTakeWatchpointException va size access).isSome := by
  have hhit : ∀ i, c'.watchpointHit i va size access.isWrite =
      c.watchpointHit i va size access.isWrite := by
    intro i
    simp only [watchpointHit, debugPrivilegeMatches, h]
  unfold maybeTakeWatchpointException
  simp only [h, hhit]
  split
  · rfl
  · rw [Option.isSome_map, Option.isSome_map]

/-- In its page an access translates byte by byte as its first byte does. -/
theorem translateEach_page {c c' : Cpu} {readDesc : U64 → Option U64} {pa : U64}
    (hsize : 0 < size) (hin : inPage va size = true)
    (h : c.translateDataAddressFast readDesc va access = (.ok pa, c')) :
    translateEach readDesc access c (bytesFrom va size) = (some (bytesFrom pa size), c') := by
  obtain ⟨n, rfl⟩ : ∃ n, size = n + 1 := ⟨size - 1, by omega⟩
  have hall := translateEach_of_translate hin h
  have hva := (translate_again h).2 va rfl
  rw [bytesFrom_succ, translateEach_cons_ok hva] at hall
  rw [bytesFrom_succ, translateEach_cons_ok h, ← hall, ← (translate_again h).1]

/-- A refused store returns false and has changed nothing. -/
theorem mmuWriteValue_refused {value : U64} (h : s.Refuses port va size access) :
    (s.mmuWriteValue port va value size access).1 = false ∧
      s.LeftAlone va (s.mmuWriteValue port va value size access).2 := by
  have htr := translateEach_spec
    { s.cpu with lastDataAbortIssOverride := none, lastDataFaultVa := none }
    (port.readDesc s.bus) access (bytesFrom va size)
  unfold Refuses bytePas at h
  unfold mmuWriteValue
  dsimp only
  by_cases hsize : size = 0 ∨ 8 < size
  · rw [if_pos hsize]
    exact ⟨rfl, leftAlone_setCpu rfl⟩
  rw [if_neg hsize]
  by_cases hin : inPage va size = true
  · rw [if_pos hin]
    have hone := accessed_translateDataAddressFast
      { s.cpu with lastDataAbortIssOverride := none, lastDataFaultVa := none }
      (port.readDesc s.bus) va access
    split
    · next c₁ hc =>
      rw [hc] at hone
      exact ⟨rfl, leftAlone_setCpu (quiet_of_accessed hone).exclusive⟩
    · next pa c₁ hc =>
      rw [hc] at hone
      rw [translateEach_page (by omega) hin hc] at h
      have hhit := h.resolve_left nofun
      have hregs : c₁.sysregs = s.cpu.sysregs := hone.translated.sysregs
      rw [← watchpoint_congr hregs] at hhit
      obtain ⟨c₂, hc₂⟩ := Option.isSome_iff_exists.1 hhit
      rw [hc₂]
      exact ⟨rfl, leftAlone_setCpu ((quiet_of_raised (raised_of_watchpoint hc₂)).exclusive.trans
        (quiet_of_accessed hone).exclusive)⟩
  · rw [if_neg hin]
    split
    · next c₁ hc =>
      rw [hc] at htr
      exact ⟨rfl, leftAlone_setCpu (quiet_of_accessed htr.1).exclusive⟩
    · next pas c₁ hc =>
      rw [hc] at htr h
      have hhit := h.resolve_left nofun
      have hregs : c₁.sysregs = s.cpu.sysregs := htr.1.translated.sysregs
      rw [← watchpoint_congr hregs] at hhit
      obtain ⟨c₂, hc₂⟩ := Option.isSome_iff_exists.1 hhit
      rw [hc₂]
      exact ⟨rfl, leftAlone_setCpu ((quiet_of_raised (raised_of_watchpoint hc₂)).exclusive.trans
        (quiet_of_accessed htr.1).exclusive)⟩

end Refused
end Core

/-! ## Single bytes of RAM -/

namespace SocBus

variable {pa pa' : U64} {p p' : RamPtr}

/-- A byte is behind one pointer. -/
theorem At.unique (h : At pa 1 p) (h' : At pa 1 p') : p' = p := by
  obtain ⟨m, hm, hdev, hlo, hhi, hoff⟩ := h
  obtain ⟨m', hm', hdev', hlo', hhi', hoff'⟩ := h'
  have hone : (1 : U64).toNat = 1 := rfl
  have hsame : m' = m := @soc_unique m' m hm' hm pa 1 (by decide) ⟨hlo', by rw [hone]; exact hhi'⟩
    ⟨hlo, by rw [hone]; exact hhi⟩
  subst hsame
  obtain ⟨ram, offset⟩ := p
  obtain ⟨ram', offset'⟩ := p'
  dsimp only at *
  rw [hdev] at hdev'
  cases hdev'
  rw [hoff, hoff']

/-- And behind a pointer is one byte. -/
theorem At.injective (h : At pa 1 p) (h' : At pa' 1 p') (hram : p'.ram = p.ram)
    (hoff : p'.offset.toNat = p.offset.toNat) : pa' = pa := by
  obtain ⟨m, hm, hdev, hlo, hhi, hbase⟩ := h
  obtain ⟨m', hm', hdev', hlo', hhi', hbase'⟩ := h'
  rw [hram] at hdev'
  have hsame := window_unique m' hm' m hm p.ram hdev' hdev
  subst hsame
  have hdiff : pa' - m'.base = pa - m'.base := by
    rw [← hbase, ← hbase']
    exact BitVec.eq_of_toNat_eq hoff
  calc pa' = pa' - m'.base + m'.base := (BitVec.sub_add_cancel pa' m'.base).symm
    _ = pa - m'.base + m'.base := by rw [hdiff]
    _ = pa := BitVec.sub_add_cancel pa m'.base

/-- The windows start and end at pages. -/
theorem soc_paged : ∀ m ∈ socMappings, m.base.toNat % 4096 = 0 ∧ m.size.toNat % 4096 = 0 := by
  decide

/-- What starts in RAM and stays in its page is in RAM. -/
theorem At.extend (h : At pa 1 p) {n : Nat} (hn : (pa &&& 0xFFF).toNat + n ≤ 4096) : At pa n p := by
  obtain ⟨m, hm, hdev, hlo, hhi, hoff⟩ := h
  obtain ⟨hbase, hsize⟩ := soc_paged m hm
  rw [toNat_pageOffset] at hn
  refine ⟨m, hm, hdev, hlo, ?_, hoff⟩
  have hpage : pa.toNat - pa.toNat % 4096 + 4096 ≤ m.base.toNat + m.size.toNat := by
    apply block_le
    · exact Nat.dvd_of_mod_eq_zero (by omega)
    · omega
    · omega
  omega

end SocBus

/-- The bytes of `value` are at `pas`, and every other byte of RAM is as it was. -/
structure World.Stored {E : Type} (w w' : World E) (pas : List U64) (value : U64) : Prop where
  bytes : ∀ i (hi : i < pas.length) p, At pas[i] 1 p →
    (w'.rams p.ram).data p.offset.toNat = bytesOf value i
  others : ∀ id off, (∀ pa ∈ pas, ∀ p, At pa 1 p → id = p.ram → off ≠ p.offset.toNat) →
    (w'.rams id).data off = (w.rams id).data off

namespace BusPort

variable {E : Type} {attached : Bool} {io : SocIo E}

/-- Single bytes into RAM, no two of them at one address. -/
theorem writeEach_bytes {rs : List Request} (hram : ∀ r ∈ rs, ∃ p, At r.pa 1 p)
    (hnodup : (rs.map (·.pa)).Nodup) (w : World E) :
    ∃ w' ws, (socPort attached io).writeEach 1 w rs = (none, w', ws) ∧
      (∀ r ∈ rs, ∀ p, At r.pa 1 p →
        (w'.rams p.ram).data p.offset.toNat = bytesOf r.value 0) ∧
      ∀ id off, (∀ r ∈ rs, ∀ p, At r.pa 1 p → id = p.ram → off ≠ p.offset.toNat) →
        (w'.rams id).data off = (w.rams id).data off := by
  induction rs generalizing w with
  | nil => exact ⟨w, [], rfl, fun r hr => absurd hr List.not_mem_nil, fun _ _ _ => rfl⟩
  | cons r rs ih =>
    rw [List.map_cons, List.nodup_cons] at hnodup
    obtain ⟨p, hp⟩ := hram r List.mem_cons_self
    obtain ⟨w₁, hw₁, hex⟩ := @socPort_write_at _ attached io w _ _ _ r.value (.inl rfl) hp
    obtain ⟨w', ws, hrun, hin, hout⟩ :=
      ih (fun r' hr' => hram r' (List.mem_cons_of_mem _ hr')) hnodup.2 w₁
    refine ⟨w', ⟨r.pa, 1⟩ :: ws, ?_, ?_, ?_⟩
    · rw [writeEach, hw₁]
      dsimp only
      rw [hrun]
    · intro r' hr' q hq
      rcases List.mem_cons.1 hr' with rfl | hr'
      · -- no later byte goes where this one went
        rw [hout q.ram q.offset.toNat]
        · obtain rfl := hp.unique hq
          exact hex.after 0 (by decide)
        · intro r'' hr'' q' hq' hid hoff
          apply hnodup.1
          rw [hq'.injective hq hid hoff]
          exact List.mem_map_of_mem hr''
      · exact hin r' hr' q hq
    · intro id off h
      rw [hout id off fun r' hr' => h r' (List.mem_cons_of_mem _ hr')]
      apply hex.others
      intro hid
      have hne := h r List.mem_cons_self p hp hid
      omega

end BusPort

namespace Core

open Cpu

section Stored

variable {E : Type} {attached : Bool} {io : SocIo E} {s : Core (World E)} {va value : U64}
  {size : Nat} {access : AccessType}

/-- Translation keeps the offset in the page. -/
theorem translateEach_offset {c c' : Cpu} {readDesc : U64 → Option U64} {vas pas : List U64}
    (h : translateEach readDesc access c vas = (some pas, c')) :
    pas.map (· &&& 0xFFF) = vas.map (· &&& 0xFFF) := by
  induction vas generalizing c pas with
  | nil =>
    cases h
    rfl
  | cons va vas ih =>
    cases htr : c.translateDataAddressFast readDesc va access with
    | mk outcome c₁ =>
      cases outcome with
      | error f =>
        rw [translateEach, htr] at h
        cases h
      | ok pa =>
        rw [translateEach_cons_ok htr] at h
        cases hrest : translateEach readDesc access c₁ vas with
        | mk found c₂ =>
          rw [hrest] at h
          cases found with
          | none => cases h
          | some pas' =>
            cases h
            rw [List.map_cons, List.map_cons, ih hrest, (translate_again htr).1, pageAt_offset]

/-- No two bytes of a short access are at one offset, so none are at one physical address, even
where two pages are one frame. -/
theorem nodup_of_translateEach {c c' : Cpu} {readDesc : U64 → Option U64} {pas : List U64}
    (hsize : size ≤ 4096)
    (h : translateEach readDesc access c (bytesFrom va size) = (some pas, c')) : pas.Nodup := by
  apply List.Nodup.of_map (· &&& 0xFFF)
  rw [translateEach_offset h, bytesFrom, List.map_map]
  apply List.Nodup.map_on _ List.nodup_range
  intro i hi j hj heq
  have hi := List.mem_range.1 hi
  have hj := List.mem_range.1 hj
  have hoff := congrArg BitVec.toNat heq
  dsimp only [Function.comp_apply] at hoff
  rw [toNat_pageOffset, toNat_pageOffset, BitVec.toNat_add, BitVec.toNat_add, BitVec.toNat_ofNat,
    BitVec.toNat_ofNat] at hoff
  omega

theorem stored_page {w w' : World E} {pa : U64} {p : RamPtr} (hat : At pa size p)
    (hex : w.Exchanged w' p size (fun i => (w.rams p.ram).data (p.offset.toNat + i))
      (bytesOf value)) :
    w.Stored w' (bytesFrom pa size) value := by
  have hbyte : ∀ i < size, At (pa + BitVec.ofNat 64 i) 1 ⟨p.ram, p.offset + BitVec.ofNat 64 i⟩ ∧
      (p.offset + BitVec.ofNat 64 i).toNat = p.offset.toNat + i := fun i hi => hat.sub hi
  constructor
  · intro i hi q hq
    have hlt : i < size := by
      rwa [bytesFrom, List.length_map, List.length_range] at hi
    obtain ⟨hone, hoff⟩ := hbyte i hlt
    have hget : (bytesFrom pa size)[i] = pa + BitVec.ofNat 64 i := by
      simp only [bytesFrom, List.getElem_map, List.getElem_range]
    rw [hget] at hq
    obtain rfl := hone.unique hq
    rw [hoff]
    exact hex.after i hlt
  · intro id off h
    apply hex.others
    intro hid
    by_contra hin
    obtain ⟨i, hi, hoffEq⟩ : ∃ i < size, off = p.offset.toNat + i :=
      ⟨off - p.offset.toNat, by omega, by omega⟩
    obtain ⟨hone, hoff⟩ := hbyte i hi
    have hmem : pa + BitVec.ofNat 64 i ∈ bytesFrom pa size :=
      List.mem_map_of_mem (List.mem_range.2 hi)
    exact h _ hmem _ hone hid (hoffEq.trans hoff.symm)

theorem stored_of_commit_page {pa : U64} {p : RamPtr} {onReject : Cpu → U64 → Cpu}
    (hw : Width size) (hat : At pa size p)
    (h : (s.commit (socPort attached io) size [⟨va, pa, value⟩] onReject).1 = true) :
    s.bus.Stored (s.commit (socPort attached io) size [⟨va, pa, value⟩] onReject).2.bus
      (bytesFrom pa size) value := by
  obtain ⟨w', hw', hex⟩ := @socPort_write_at _ attached io s.bus _ _ _ value hw hat
  obtain ⟨hwrite, -⟩ := @commit_single _ (socPort attached io) s _ ⟨va, pa, value⟩ size onReject _
    (Prod.ext h rfl)
  rw [hw'] at hwrite
  rw [← (Prod.mk.inj hwrite).2]
  exact stored_page hat hex

theorem stored_of_commit_bytes {pas : List U64} {onReject : Cpu → U64 → Cpu} (hnodup : pas.Nodup)
    (hram : ∀ pa ∈ pas, ∃ p, At pa 1 p) :
    s.bus.Stored (s.commit (socPort attached io) 1 (byteRequests va pas (valueByte value))
      onReject).2.bus pas value := by
  have hpas := byteRequests_pas va pas (valueByte value)
  obtain ⟨w', ws, hrun, hin, hout⟩ := @BusPort.writeEach_bytes _ attached io
    (byteRequests va pas (valueByte value)) (fun r hr => hram r.pa (mem_byteRequests hr))
    (hpas.symm ▸ hnodup) s.bus
  rw [commit, hrun]
  constructor
  · intro i hi p hp
    have hmem : (⟨va + BitVec.ofNat 64 i, pas[i], valueByte value i⟩ : BusPort.Request) ∈
        byteRequests va pas (valueByte value) :=
      List.mem_map.2
        ⟨(pas[i], i), List.mk_mem_zipIdx_iff_getElem?.2 (List.getElem?_eq_getElem hi), rfl⟩
    rw [← bytesOf_valueByte]
    exact hin _ hmem p hp
  · intro id off h
    exact hout id off fun r hr => h r.pa (mem_byteRequests hr)

/-- A store that returns true has translated every byte of it; in RAM the bytes of the value are
there, unless RAM has no such width. -/
theorem mmuWriteValue_true
    (h : (s.mmuWriteValue (socPort attached io) va value size access).1 = true) :
    ∃ pas, s.bytePas (socPort attached io) va size access = some pas ∧ pas.length = size ∧
      ((Width size ∨ inPage va size = false) → (∀ pa ∈ pas, ∃ p, At pa 1 p) →
        s.bus.Stored (s.mmuWriteValue (socPort attached io) va value size access).2.bus pas
          value) := by
  unfold bytePas
  unfold mmuWriteValue at h ⊢
  dsimp only at h ⊢
  by_cases hsize : size = 0 ∨ 8 < size
  · rw [if_pos hsize] at h
    cases h
  rw [if_neg hsize] at h ⊢
  by_cases hin : inPage va size = true
  · rw [if_pos hin] at h ⊢
    split at h
    · cases h
    · next pa c₁ hc =>
      split at h
      · cases h
      · rw [translateEach_page (by omega) hin hc]
        refine ⟨bytesFrom pa size, rfl, ?_, ?_⟩
        · rw [bytesFrom, List.length_map, List.length_range]
        · intro hwidth hram
          have hw := hwidth.resolve_right (by rw [hin]; rintro ⟨⟩)
          have hfirst : pa ∈ bytesFrom pa size := by
            have hmem : pa + BitVec.ofNat 64 0 ∈ bytesFrom pa size :=
              List.mem_map_of_mem (List.mem_range.2 hw.pos)
            rwa [show pa + BitVec.ofNat 64 0 = pa from BitVec.add_zero pa] at hmem
          obtain ⟨p, hp⟩ := hram pa hfirst
          have hoff : pa &&& 0xFFF = va &&& 0xFFF := by
            rw [(translate_again hc).1]
            exact pageAt_offset _ _
          have hpage : (va &&& 0xFFF).toNat + size ≤ 4096 := of_decide_eq_true hin
          rw [← hoff] at hpage
          exact stored_of_commit_page hw (hp.extend hpage) h
  · rw [if_neg hin] at h ⊢
    split at h
    · cases h
    · next pas c₁ hc =>
      split at h
      · cases h
      · refine ⟨pas, by rw [hc], ?_, fun _ hram => ?_⟩
        · rw [translateEach_length hc, bytesFrom, List.length_map, List.length_range]
        · exact stored_of_commit_bytes (s := s.setCpu c₁) (nodup_of_translateEach (by omega) hc)
            hram

/-- The law of `mmu_write_value`. Refused for a byte that does not translate or is watched, it
returns false and has changed nothing; returning true, it has stored the bytes where each of them
translates to, provided that RAM has the width of an access within its page. -/
theorem mmuWriteValue_atomic (attached : Bool) (io : SocIo E) (s : Core (World E)) (va value : U64)
    (size : Nat) (access : AccessType) :
    (s.Refuses (socPort attached io) va size access →
      (s.mmuWriteValue (socPort attached io) va value size access).1 = false ∧
        s.LeftAlone va (s.mmuWriteValue (socPort attached io) va value size access).2) ∧
    ((s.mmuWriteValue (socPort attached io) va value size access).1 = true →
      ∃ pas, s.bytePas (socPort attached io) va size access = some pas ∧ pas.length = size ∧
        ((Width size ∨ inPage va size = false) → (∀ pa ∈ pas, ∃ p, At pa 1 p) →
          s.bus.Stored (s.mmuWriteValue (socPort attached io) va value size access).2.bus pas
            value)) :=
  ⟨mmuWriteValue_refused, mmuWriteValue_true⟩

end Stored

/-! Three bytes, across a page and within one -/

theorem bootRam_byte {pa : U64} (h : pa.toNat < 0x8000000) : At pa 1 ⟨0, pa⟩ := by
  refine ⟨bootRamMapping, bootRam_mapped, rfl, Nat.zero_le _, ?_, (BitVec.sub_zero pa).symm⟩
  show pa.toNat + 1 ≤ 0 + 0x8000000
  omega

/-- A table at 0x10000 for 30 address bits: the first page is at 0x20000, the second at 0x40000. -/
def pagePair (k : Nat) : U8 :=
  if k = 0x10000 ∨ k = 0x11000 ∨ k = 0x11008 then 3
  else if k = 0x10001 then 0x10
  else if k = 0x10002 then 1
  else if k = 0x11001 ∨ k = 0x11009 then 4
  else if k = 0x11002 then 2
  else if k = 0x1100A then 4
  else 0

/-- With the MMU on. -/
def pagePairState : Core (World Unit) where
  cpu := { Cpu.reset 0 0 0 with
    sysregs := { SystemRegisters.reset with sctlrEl1 := 1, tcrEl1 := 0x22, ttbr0El1 := 0x10000 } }
  bus := { quietWorld with
    rams := Function.update quietWorld.rams 0 ⟨kBootRamSize, pagePair⟩
    size_eq := fun id => by
      by_cases hid : id = 0
      · subst hid
        rfl
      · rw [Function.update_of_ne hid]
        rfl }
  writes := []

/-- Two bytes of the first page and one of the second, which lie in frames apart. -/
theorem mmuWriteValue_atomic_crossing :
    pagePairState.bytePas (socPort true silentIo) 0xFFE 3 .write =
        some [0x20FFE, 0x20FFF, 0x40000] ∧
      pagePairState.bus.Stored
        (pagePairState.mmuWriteValue (socPort true silentIo) 0xFFE 0x030201 3 .write).2.bus
        [0x20FFE, 0x20FFF, 0x40000] 0x030201 := by
  have hlist : pagePairState.bytePas (socPort true silentIo) 0xFFE 3 .write =
      some [0x20FFE, 0x20FFF, 0x40000] := by decide +kernel
  obtain ⟨pas, hpas, -, hstored⟩ :=
    (mmuWriteValue_atomic true silentIo pagePairState 0xFFE 0x030201 3 .write).2 (by decide +kernel)
  obtain rfl := Option.some.inj (hpas.symm.trans hlist)
  refine ⟨hlist, hstored (.inr (by decide)) fun pa hpa => ⟨⟨0, pa⟩, bootRam_byte ?_⟩⟩
  simp only [List.mem_cons, List.not_mem_nil, or_false] at hpa
  rcases hpa with rfl | rfl | rfl <;> decide

/-- Within a page the store returns true and RAM drops it. -/
theorem mmuWriteValue_three_in_page :
    ∃ pas, casbState.bytePas (socPort true silentIo) 0 3 .write = some pas ∧
      (∀ pa ∈ pas, ∃ p, At pa 1 p) ∧
      (casbState.mmuWriteValue (socPort true silentIo) 0 0x030201 3 .write).1 = true ∧
      ¬ casbState.bus.Stored
        (casbState.mmuWriteValue (socPort true silentIo) 0 0x030201 3 .write).2.bus pas
        0x030201 := by
  refine ⟨[0, 1, 2], by decide +kernel, ?_, by decide +kernel, ?_⟩
  · intro pa hpa
    refine ⟨⟨0, pa⟩, bootRam_byte ?_⟩
    simp only [List.mem_cons, List.not_mem_nil, or_false] at hpa
    rcases hpa with rfl | rfl | rfl <;> decide
  · intro h
    have hbyte := h.bytes 0 (by decide) ⟨0, 0⟩ (bootRam_byte (by decide))
    revert hbyte
    decide +kernel

end Core
end Aarchvm
