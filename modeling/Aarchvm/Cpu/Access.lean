import Aarchvm.Cpu.TlbFill
import Aarchvm.Cpu.Memory

/-!
# What an access leaves

An access that succeeds changes the translation buffer and the fault latches, and a
store clears its CPU's monitor. One that fails has either raised an exception at its
own instruction or left the latches for `data_abort`. Physical addresses stay below
`2 ^ 56`, so the range of a store does not wrap.
-/
namespace Aarchvm

/-! ## Physical addresses have 56 bits -/

/-- No bit from 56 on. -/
def NarrowPa (pa : U64) : Prop := ∀ k, 56 ≤ k → pa.getLsbD k = false

theorem NarrowPa.toNat_lt {pa : U64} (h : NarrowPa pa) : pa.toNat < 2 ^ 56 := by
  have hz : pa >>> 56 = 0 := by
    apply BitVec.eq_of_getLsbD_eq
    intro k _
    rw [BitVec.getLsbD_ushiftRight, h (56 + k) (by omega)]
    exact BitVec.getLsbD_zero.symm
  have hn := congrArg BitVec.toNat hz
  rw [BitVec.toNat_ushiftRight, Nat.shiftRight_eq_div_pow] at hn
  have hz' : (0 : U64).toNat = 0 := rfl
  rw [hz', Nat.div_eq_zero_iff] at hn
  omega

theorem narrowPa_of_page {pa pa' : U64} (h : NarrowPa pa) (hpage : pa' >>> 12 = pa >>> 12) :
    NarrowPa pa' := by
  intro k hk
  rw [getLsbD_of_page hpage (by omega)]
  exact h k hk

theorem narrowPa_stage1DisabledOutputPa (va : U64) : NarrowPa (stage1DisabledOutputPa va) := by
  intro k hk
  have hm : (0x00FFFFFFFFFFFFFF : U64) = lowMask 56 := rfl
  rw [stage1DisabledOutputPa, BitVec.getLsbD_and, hm, lowMask_getLsbD (by decide)]
  simp [show ¬ k < 56 by omega]

theorem kTableAddrMask_high : ∀ k, 56 ≤ k → kTableAddrMask.getLsbD k = false := by
  intro k hk
  by_cases hk64 : k < 64
  · have h : ∀ k < 64, 56 ≤ k → kTableAddrMask.getLsbD k = false := by decide
    exact h k hk64 hk
  · exact BitVec.getLsbD_of_ge _ _ (by omega)

theorem narrowPa_leafOf {tcr mair va : U64} {write : Bool} {level : Nat} {desc : U64}
    {inherited : TableAttrs} {leaf : Leaf}
    (h : leafOf tcr mair va write level desc inherited = .ok leaf) : NarrowPa leaf.pa := by
  rw [leafOf] at h
  split_ifs at h
  cases h
  intro k hk
  rw [BitVec.getLsbD_or, BitVec.getLsbD_and, BitVec.getLsbD_and, BitVec.getLsbD_and,
    kTableAddrMask_high k hk, lowMask_getLsbD (by omega)]
  simp [show ¬ k < 12 + 9 * (3 - level) by omega]

theorem narrowPa_walkLevels {tcr mair va : U64} {readDesc : U64 → Option U64} {write : Bool}
    {n : Nat} {tableBase : U64} {inherited : TableAttrs} {leaf : Leaf}
    (h : walkLevels tcr mair readDesc va write n tableBase inherited = .ok leaf) :
    NarrowPa leaf.pa := by
  induction n generalizing tableBase inherited with
  | zero => cases h
  | succ n ih =>
    simp only [walkLevels] at h
    split at h
    · cases h
    · split_ifs at h
      · exact narrowPa_leafOf h
      · exact ih h
      · exact narrowPa_leafOf h

theorem narrowPa_walkLeaf {r : Regime} {readDesc : U64 → Option U64} {va : U64} {write : Bool}
    {leaf : Leaf} (h : walkLeaf r readDesc va write = .ok leaf) : NarrowPa leaf.pa := by
  rw [walkLeaf] at h
  split at h
  · cases h
  · dsimp only at h
    split_ifs at h
    · exact narrowPa_walkLevels h
    · exact narrowPa_walkLevels h

namespace Cpu

variable {c c' : Cpu} {readDesc : U64 → Option U64} {va pa : U64} {access : AccessType}

/-- The buffer holds no output address of more than 56 bits. -/
def Narrow (c : Cpu) : Prop := ∀ e, c.tlb.Holds e → NarrowPa (e.paPage <<< 12)

theorem narrowPa_of_filled {e : TlbEntry} (h : c.Filled readDesc va e) :
    NarrowPa (e.paPage <<< 12) := by
  obtain ⟨-, leaf, write, hleaf, -, rfl⟩ := h
  intro k hk
  rw [BitVec.getLsbD_shiftLeft, BitVec.getLsbD_ushiftRight, show 12 + (k - 12) = k by omega,
    narrowPa_walkLeaf hleaf k hk, Bool.and_false]

theorem Narrow.of_filled (h : c.Narrow)
    (hheld : ∀ e, c'.tlb.Holds e → c.tlb.Holds e ∨ c.Filled readDesc va e) : c'.Narrow := by
  intro e he
  rcases hheld e he with he | he
  · exact h e he
  · exact narrowPa_of_filled he

theorem Narrow.of_tlb_eq (h : c.Narrow) (ht : c'.tlb = c.tlb) : c'.Narrow := by
  intro e he
  rw [ht] at he
  exact h e he

/-- What a permitted hit of a narrow buffer gives is narrow. -/
theorem narrowPa_of_hit {hot : Option TlbEntry} {e : TlbEntry} (hn : c.Narrow)
    (hhot : ∀ e, hot = some e → c.tlb.Holds e) (hhit : c.tlbHit hot va = some e) :
    NarrowPa (e.pa (c.effectiveVa va)) := by
  rw [pa_eq_pageAt]
  exact narrowPa_of_page (hn e (Tlb.hit_spec hhot hhit).1) (pageAt_page _ _)

theorem narrowPa_of_walk {checkPermissions applyPan : Bool} {result : TranslationResult}
    (h : c.sysregs.walkPageTables readDesc (c.effectiveVa va) access checkPermissions applyPan
      true = .ok result) : NarrowPa result.pa := by
  obtain ⟨leaf, hleaf, -, rfl, -⟩ := SystemRegisters.walkPageTables_ok h
  exact narrowPa_walkLeaf hleaf

/-- A translation from a narrow buffer has a narrow result. -/
theorem narrowPa_of_translate (hn : c.Narrow)
    (h : c.translateDataAddressFast readDesc va access = (.ok pa, c')) : NarrowPa pa := by
  by_cases hmmu : c.sysregs.mmuEnabled = true
  · cases hhit : c.tlbHit c.tlb.lastData va with
    | some e =>
      rw [translateDataAddressFast_of_hit hmmu hhit] at h
      cases hperm : c.sysregs.accessPermitted e.attrs access true with
      | error f =>
        rw [hperm] at h
        cases h
      | ok u =>
        rw [hperm] at h
        cases h
        exact narrowPa_of_hit hn (fun _ h => .inr (.inr h)) hhit
    | none =>
      rw [translateDataAddressFast_of_miss hmmu hhit] at h
      cases hwalk : c.sysregs.walkPageTables readDesc (c.effectiveVa va) access true true true with
      | error f =>
        rw [hwalk] at h
        cases h
      | ok result =>
        rw [hwalk] at h
        cases h
        exact narrowPa_of_walk hwalk
  · simp only [translateDataAddressFast, hmmu, Bool.not_false, if_true] at h
    cases h
    exact narrowPa_stage1DisabledOutputPa _

theorem narrowPa_of_translateAddress {allowTlbFill useTlb applyPan : Bool}
    {result : TranslationResult} (hn : c.Narrow)
    (h : c.translateAddress readDesc va access allowTlbFill useTlb applyPan = (.ok result, c')) :
    NarrowPa result.pa := by
  by_cases hmmu : c.sysregs.mmuEnabled = true
  · rcases hit_or_miss useTlb (c.tlb.hot access) va with ⟨huse, e, hhit⟩ | hmiss
    · rw [translateAddress_of_hit hmmu huse hhit] at h
      cases hperm : c.sysregs.accessPermitted e.attrs access applyPan with
      | error f =>
        rw [hperm] at h
        cases h
      | ok u =>
        rw [hperm] at h
        cases h
        exact narrowPa_of_hit hn (fun _ h => Tlb.holds_hot h) hhit
    · rw [translateAddress_of_miss hmmu hmiss] at h
      cases hwalk :
        c.sysregs.walkPageTables readDesc (c.effectiveVa va) access true applyPan true with
      | error f =>
        rw [hwalk] at h
        cases h
      | ok walked =>
        rw [hwalk] at h
        cases h
        exact narrowPa_of_walk hwalk
  · simp only [translateAddress, hmmu, Bool.not_false, if_true] at h
    cases h
    exact narrowPa_stage1DisabledOutputPa _

/-! ## Accesses -/

/-- An access changed the buffer and the fault latches at most. -/
structure Accessed (c c' : Cpu) : Prop where
  translated : Translated c c'
  narrow : c.Narrow → c'.Narrow

theorem Accessed.refl (c : Cpu) : Accessed c c := ⟨.refl c, id⟩

theorem Accessed.trans {c'' : Cpu} (h : Accessed c c') (h' : Accessed c' c'') : Accessed c c'' :=
  ⟨h.translated.trans h'.translated, fun hn => h'.narrow (h.narrow hn)⟩

/-- Only the latches changed. -/
theorem accessed_of_latches (ht : Translated c c') (htlb : c'.tlb = c.tlb) : Accessed c c' :=
  ⟨ht, fun hn => hn.of_tlb_eq htlb⟩

theorem accessed_translateDataAddressFast (c : Cpu) (readDesc : U64 → Option U64) (va : U64)
    (access : AccessType) : Accessed c (c.translateDataAddressFast readDesc va access).2 :=
  ⟨translated_translateDataAddressFast c readDesc va access, fun hn =>
    hn.of_filled fun _ he => holds_translateDataAddressFast he⟩

theorem accessed_translateAddress (c : Cpu) (readDesc : U64 → Option U64) (va : U64)
    (access : AccessType) (allowTlbFill useTlb applyPan : Bool) :
    Accessed c (c.translateAddress readDesc va access allowTlbFill useTlb applyPan).2 :=
  ⟨translated_translateAddress c readDesc va access allowTlbFill useTlb applyPan, fun hn =>
    hn.of_filled fun _ he => holds_translateAddress he⟩

/-- Byte by byte: what is left, and where the bytes are. -/
theorem translateEach_spec (c : Cpu) (readDesc : U64 → Option U64) (access : AccessType)
    (vas : List U64) :
    Accessed c (translateEach readDesc access c vas).2 ∧
      (c.Narrow → ∀ pas, (translateEach readDesc access c vas).1 = some pas →
        ∀ pa ∈ pas, NarrowPa pa) := by
  induction vas generalizing c with
  | nil =>
    refine ⟨Accessed.refl c, fun _ pas h pa hpa => ?_⟩
    cases h
    cases hpa
  | cons va vas ih =>
    have hfirst := accessed_translateDataAddressFast c readDesc va access
    rw [translateEach]
    split
    · next c₁ hc =>
      rw [hc] at hfirst
      exact ⟨hfirst.trans (accessed_of_latches rfl rfl), fun _ pas h => nomatch h⟩
    · next pa c₁ hc =>
      rw [hc] at hfirst
      refine ⟨hfirst.trans (ih c₁).1, fun hn pas h => ?_⟩
      dsimp only at h
      obtain ⟨rest, hrest, rfl⟩ := Option.map_eq_some_iff.1 h
      intro pa' hpa'
      rcases List.mem_cons.1 hpa' with rfl | hpa'
      · exact narrowPa_of_translate hn hc
      · exact (ih c₁).2 (hfirst.narrow hn) rest hrest pa' hpa'

/-! ## Failed accesses -/

/-- The exception classes of a data access: Data Abort, SP alignment and watchpoint. -/
def DataClass (ec : U32) : Prop := ec ∈ [0x24, 0x25, 0x26, 0x34, (0x35 : U32)]

/-- An exception was raised at the instruction before `pc`; later latches may differ. -/
def Raised (c c' : Cpu) : Prop :=
  ∃ c₁ ec iss farValid far, Accessed c c₁ ∧ DataClass ec ∧
    Accessed (c₁.enterSyncException (c₁.pc - 4) ec iss farValid far) c'

/-- An access failed: nothing is raised yet, or something is. -/
inductive Failed (c c' : Cpu) : Prop
  | pending (h : Accessed c c')
  | raised (h : Raised c c')

theorem dataClass_classFrom (c : Cpu) (lower same : U32) (hl : DataClass lower)
    (hs : DataClass same) : DataClass (c.classFrom lower same) := by
  rw [classFrom]
  split_ifs
  · exact hl
  · exact hs

theorem raised_enterSyncException {c₁ : Cpu} {ec iss : U32} {farValid : Bool} {far : U64}
    (h : Accessed c c₁) (hec : DataClass ec) :
    Raised c (c₁.enterSyncException (c₁.pc - 4) ec iss farValid far) :=
  ⟨c₁, ec, iss, farValid, far, h, hec, Accessed.refl _⟩

theorem Raised.trans {c'' : Cpu} (h : Accessed c c') (h' : Raised c' c'') : Raised c c'' := by
  obtain ⟨c₁, ec, iss, farValid, far, ha, hec, hr⟩ := h'
  exact ⟨c₁, ec, iss, farValid, far, h.trans ha, hec, hr⟩

theorem Failed.trans {c'' : Cpu} (h : Accessed c c') (h' : Failed c' c'') : Failed c c'' := by
  rcases h' with ha | hr
  · exact .pending (h.trans ha)
  · exact .raised (hr.trans h)

theorem accessed_clearFaultLatches (c : Cpu) : Accessed c c.clearFaultLatches :=
  accessed_of_latches rfl rfl

theorem raised_of_spAlignment {baseReg : Nat}
    (h : c.maybeTakeSpAlignmentFault baseReg = some c') : Raised c c' := by
  rw [maybeTakeSpAlignmentFault] at h
  split_ifs at h
  cases h
  exact raised_enterSyncException (accessed_clearFaultLatches c) (by simp [DataClass])

theorem raised_of_dataAlignment {hasRam : U64 → Bool} {align : Nat} {forceCheck : Bool}
    (h : c.maybeTakeDataAlignmentFault readDesc hasRam va align access forceCheck = some c') :
    Raised c c' := by
  rw [maybeTakeDataAlignmentFault] at h
  split at h
  · cases h
  split at h
  · cases h
  cases h
  exact raised_enterSyncException (accessed_clearFaultLatches c)
    (dataClass_classFrom c _ _ (by simp [DataClass]) (by simp [DataClass]))

theorem raised_of_watchpoint {size : Nat}
    (h : c.maybeTakeWatchpointException va size access = some c') : Raised c c' := by
  rw [maybeTakeWatchpointException] at h
  split at h
  · cases h
  obtain ⟨byteVa, -, rfl⟩ := Option.map_eq_some_iff.1 h
  exact raised_enterSyncException (Accessed.refl c)
    (dataClass_classFrom c _ _ (by simp [DataClass]) (by simp [DataClass]))

/-- `data_abort` raises what is pending, unless the flag says that something was raised. -/
theorem raised_of_dataAbort {cacheMaintenanceOrTranslation : Bool}
    (hflag : c.exceptionTakenThisStep = false) :
    Raised c (c.dataAbort va cacheMaintenanceOrTranslation) := by
  rw [dataAbort, hflag]
  exact ⟨c, _, _, _, _, Accessed.refl c,
    dataClass_classFrom c _ _ (by simp [DataClass]) (by simp [DataClass]),
    accessed_of_latches rfl rfl⟩

theorem dataAbort_of_taken {cacheMaintenanceOrTranslation : Bool}
    (hflag : c.exceptionTakenThisStep = true) :
    c.dataAbort va cacheMaintenanceOrTranslation = c := by
  rw [dataAbort, if_pos hflag]

theorem failed_of_dataAbort (c : Cpu) (va : U64) (cacheMaintenanceOrTranslation : Bool) :
    Failed c (c.dataAbort va cacheMaintenanceOrTranslation) := by
  cases hflag : c.exceptionTakenThisStep with
  | true =>
    rw [dataAbort_of_taken hflag]
    exact .pending (Accessed.refl c)
  | false => exact .raised (raised_of_dataAbort hflag)

end Cpu

/-! ## Reads and writes -/

namespace BusPort

variable {β : Type}

/-- The accepted writes are the first of those asked for, and all of them if none is rejected. -/
theorem writeEach_spec (port : BusPort β) (size : Nat) (b : β) (requests : List Request) :
    (port.writeEach size b requests).2.2 <+: requests.map (fun r => ⟨r.pa, size⟩) ∧
      ((port.writeEach size b requests).1 = none →
        (port.writeEach size b requests).2.2 = requests.map fun r => ⟨r.pa, size⟩) := by
  induction requests generalizing b with
  | nil => exact ⟨List.prefix_refl _, fun _ => rfl⟩
  | cons r rs ih =>
    rw [writeEach]
    split
    · exact ⟨List.nil_prefix, fun h => nomatch h⟩
    · next b' _ =>
      obtain ⟨hp, he⟩ := ih b'
      refine ⟨?_, fun h => ?_⟩
      · rw [List.map_cons]
        exact List.cons_prefix_cons.2 ⟨rfl, hp⟩
      · rw [List.map_cons]
        exact congrArg _ (he h)

end BusPort

namespace Core

open Cpu

variable {β : Type} {port : BusPort β} {s : Core β} {va : U64} {size : Nat} {access : AccessType}

/-- What a read leaves. -/
structure ReadSpec (s : Core β) (r : Option U64 × Core β) : Prop where
  accessed : ∀ value, r.1 = some value → Accessed s.cpu r.2.cpu
  failed : r.1 = none → Failed s.cpu r.2.cpu
  writes : r.2.writes = s.writes

/-- What a store leaves: it is complete, its CPU's monitor clear, or it failed. -/
structure WriteSpec (s : Core β) (r : Bool × Core β) : Prop where
  stored : r.1 = true → ∃ c, Accessed s.cpu c ∧ r.2.cpu = c.clearExclusiveMonitor
  failed : r.1 = false → Failed s.cpu r.2.cpu
  writes : ∃ ws, r.2.writes = s.writes ++ ws ∧
    (s.cpu.Narrow → ∀ w ∈ ws, w.pa.toNat + w.size < 2 ^ 64)

theorem readSpec_of_failed {c : Cpu} {b : β} (h : Failed s.cpu c) :
    ReadSpec s (none, ⟨c, b, s.writes⟩) :=
  ⟨fun _ h => (nomatch h), fun _ => h, rfl⟩

theorem readSpec_of_accessed {c : Cpu} {b : β} {value : U64} (h : Accessed s.cpu c) :
    ReadSpec s (some value, ⟨c, b, s.writes⟩) :=
  ⟨fun _ _ => h, fun h => (nomatch h), rfl⟩

theorem writeSpec_of_failed {c : Cpu} (h : Failed s.cpu c) : WriteSpec s (false, s.setCpu c) :=
  ⟨fun h => (nomatch h), fun _ => h, [], (List.append_nil _).symm, fun _ _ h => (nomatch h)⟩

theorem mmuReadValue_spec (s : Core β) (va : U64) (size : Nat) (access : AccessType) :
    ReadSpec s (s.mmuReadValue port va size access) := by
  have hreset : Accessed s.cpu
      { s.cpu with lastDataAbortIssOverride := none, lastDataFaultVa := none } :=
    accessed_of_latches rfl rfl
  simp only [mmuReadValue]
  split_ifs
  · exact readSpec_of_failed (.pending hreset)
  · have htr := hreset.trans (accessed_translateDataAddressFast _ (port.readDesc s.bus) va access)
    split
    · next c₁ hc =>
      rw [hc] at htr
      exact readSpec_of_failed (.pending (htr.trans (accessed_of_latches rfl rfl)))
    · next pa c₁ hc =>
      rw [hc] at htr
      split
      · next c₂ hw =>
        exact readSpec_of_failed (.raised ((raised_of_watchpoint hw).trans htr))
      · split
        · exact readSpec_of_failed (.pending (htr.trans (accessed_of_latches rfl rfl)))
        · exact readSpec_of_accessed htr
  · have htr := hreset.trans
      (translateEach_spec _ (port.readDesc s.bus) access (bytesFrom va size)).1
    split
    · next c₁ hc =>
      rw [hc] at htr
      exact readSpec_of_failed (.pending htr)
    · next pas c₁ hc =>
      rw [hc] at htr
      split
      · next c₂ hw =>
        exact readSpec_of_failed (.raised ((raised_of_watchpoint hw).trans htr))
      · split
        · exact readSpec_of_failed (.pending (htr.trans (accessed_of_latches rfl rfl)))
        · exact readSpec_of_accessed htr

/-- A store that reached the bus. -/
theorem commit_spec {c : Cpu} {requests : List BusPort.Request} {onReject : Cpu → U64 → Cpu}
    (hc : Accessed s.cpu c) (hreject : ∀ byteVa, Failed c (onReject c byteVa))
    (hwrap : s.cpu.Narrow → ∀ r ∈ requests, r.pa.toNat + size < 2 ^ 64) :
    WriteSpec s ((s.setCpu c).commit port size requests onReject) := by
  have hws := (BusPort.writeEach_spec port size s.bus requests).1
  have hwrites : s.cpu.Narrow → ∀ w ∈ (port.writeEach size s.bus requests).2.2,
      w.pa.toNat + w.size < 2 ^ 64 := by
    intro hn w hw
    obtain ⟨r, hr, rfl⟩ := List.mem_map.1 (hws.subset hw)
    exact hwrap hn r hr
  rw [commit]
  split
  · next byteVa b ws he =>
    have heq : ws = (port.writeEach size s.bus requests).2.2 := (congrArg (·.2.2) he).symm
    exact ⟨fun h => (nomatch h), fun _ => (hreject byteVa).trans hc, ws, rfl, heq ▸ hwrites⟩
  · next b ws he =>
    have heq : ws = (port.writeEach size s.bus requests).2.2 := (congrArg (·.2.2) he).symm
    exact ⟨fun _ => ⟨c, hc, rfl⟩, fun h => (nomatch h), ws, rfl, heq ▸ hwrites⟩

theorem accessed_noteExternalDataAbort (c : Cpu) (write : Bool) (faultVa : U64) :
    Accessed c (c.noteExternalDataAbort write faultVa) :=
  accessed_of_latches rfl rfl

theorem mem_byteRequests {pas : List U64} {byteOf : Nat → U64} {r : BusPort.Request}
    (h : r ∈ byteRequests va pas byteOf) : r.pa ∈ pas := by
  obtain ⟨p, hp, rfl⟩ := List.mem_map.1 h
  exact (List.mem_zipIdx' hp).2 ▸ List.getElem_mem _

theorem mmuWriteValue_spec (s : Core β) (va value : U64) (size : Nat) (access : AccessType) :
    WriteSpec s (s.mmuWriteValue port va value size access) := by
  have hreset : Accessed s.cpu
      { s.cpu with lastDataAbortIssOverride := none, lastDataFaultVa := none } :=
    accessed_of_latches rfl rfl
  simp only [mmuWriteValue]
  split_ifs with hsize
  · exact writeSpec_of_failed (.pending hreset)
  · have htr := hreset.trans (accessed_translateDataAddressFast _ (port.readDesc s.bus) va access)
    split
    · next c₁ hc =>
      rw [hc] at htr
      exact writeSpec_of_failed (.pending (htr.trans (accessed_of_latches rfl rfl)))
    · next pa c₁ hc =>
      rw [hc] at htr
      split
      · next c₂ hw =>
        exact writeSpec_of_failed (.raised ((raised_of_watchpoint hw).trans htr))
      · apply commit_spec htr
        · exact fun byteVa => .pending (accessed_noteExternalDataAbort _ _ byteVa)
        · intro hn r hr
          rw [List.mem_singleton.1 hr]
          have hpa := (narrowPa_of_translate (hreset.narrow hn) hc).toNat_lt
          dsimp only
          omega
  · have htr :=
      translateEach_spec { s.cpu with lastDataAbortIssOverride := none, lastDataFaultVa := none }
      (port.readDesc s.bus) access (bytesFrom va size)
    split
    · next c₁ hc =>
      rw [hc] at htr
      exact writeSpec_of_failed (.pending (hreset.trans htr.1))
    · next pas c₁ hc =>
      rw [hc] at htr
      split
      · next c₂ hw =>
        exact writeSpec_of_failed (.raised ((raised_of_watchpoint hw).trans (hreset.trans htr.1)))
      · apply commit_spec (hreset.trans htr.1)
        · exact fun byteVa => .pending (accessed_noteExternalDataAbort _ _ byteVa)
        · intro hn r hr
          have hpa := (htr.2 (hreset.narrow hn) pas rfl r.pa (mem_byteRequests hr)).toNat_lt
          omega

theorem rawMmuWritePairAtomic_spec (s : Core β) (addr first second : U64) (elemSize : Nat) :
    WriteSpec s (s.rawMmuWritePairAtomic port addr first second elemSize) := by
  have hreset : Accessed s.cpu { s.cpu with lastDataFaultVa := none } :=
    accessed_of_latches rfl rfl
  simp only [rawMmuWritePairAtomic]
  split
  · exact writeSpec_of_failed (.pending hreset)
  · have htr :=
      translateEach_spec { s.cpu with lastDataFaultVa := none } (port.readDesc s.bus) .write
      (bytesFrom addr (elemSize * 2))
    split
    · next c₁ hc =>
      rw [hc] at htr
      exact writeSpec_of_failed (.pending (hreset.trans htr.1))
    · next pas c₁ hc =>
      rw [hc] at htr
      split
      · next c₂ hw =>
        exact writeSpec_of_failed (.raised ((raised_of_watchpoint hw).trans (hreset.trans htr.1)))
      · apply commit_spec (hreset.trans htr.1)
        · exact fun byteVa => .pending (accessed_noteExternalDataAbort _ _ byteVa)
        · intro hn r hr
          have hpa := (htr.2 (hreset.narrow hn) pas rfl r.pa (mem_byteRequests hr)).toNat_lt
          omega

/-! ## DC ZVA -/

/-- The translation loop of DC ZVA: what is left, and where the doublewords are. -/
theorem zvaTranslate_spec (c : Cpu) (readDesc : U64 → Option U64) (vas : List U64) :
    (∀ pas, (zvaTranslate readDesc c vas).1 = some pas →
        Accessed c (zvaTranslate readDesc c vas).2 ∧ (c.Narrow → ∀ pa ∈ pas, NarrowPa pa)) ∧
      ((zvaTranslate readDesc c vas).1 = none → Failed c (zvaTranslate readDesc c vas).2) := by
  induction vas generalizing c with
  | nil =>
    refine ⟨fun pas h => ⟨Accessed.refl c, fun _ pa hpa => ?_⟩, fun h => (nomatch h)⟩
    cases h
    cases hpa
  | cons va vas ih =>
    have hfirst := accessed_translateAddress c readDesc va .write true true true
    rw [zvaTranslate]
    split
    · next c₁ hc =>
      rw [hc] at hfirst
      exact ⟨fun _ h => (nomatch h), fun _ => (failed_of_dataAbort c₁ va false).trans hfirst⟩
    · next result c₁ hc =>
      rw [hc] at hfirst
      split_ifs
      · refine ⟨fun _ h => (nomatch h), fun _ => .raised (raised_enterSyncException hfirst ?_)⟩
        exact dataClass_classFrom c₁ _ _ (by simp [DataClass]) (by simp [DataClass])
      · refine ⟨fun pas h => ?_, fun h => ?_⟩
        · obtain ⟨rest, hrest, rfl⟩ := Option.map_eq_some_iff.1 h
          obtain ⟨hacc, hnarrow⟩ := (ih c₁).1 rest hrest
          refine ⟨hfirst.trans hacc, fun hn pa hpa => ?_⟩
          rcases List.mem_cons.1 hpa with rfl | hpa
          · exact narrowPa_of_translateAddress hn hc
          · exact hnarrow (hfirst.narrow hn) pa hpa
        · exact ((ih c₁).2 (Option.map_eq_none_iff.1 h)).trans hfirst

theorem dcZva_spec (s : Core β) (addr : U64) : WriteSpec s (s.dcZva port addr) := by
  simp only [dcZva]
  generalize addr &&& ~~~(BitVec.ofNat 64 kDataCacheLineBytes - 1) = base
  generalize (List.range (kDataCacheLineBytes / 8)).map (fun i => base + BitVec.ofNat 64 (8 * i)) =
    vas
  have htr := zvaTranslate_spec s.cpu (port.readDesc s.bus) vas
  split
  · next c hc =>
    rw [hc] at htr
    exact writeSpec_of_failed (htr.2 rfl)
  · next pas c hc =>
    rw [hc] at htr
    obtain ⟨hacc, hnarrow⟩ := htr.1 pas rfl
    split
    · next c' hw =>
      exact writeSpec_of_failed (.raised ((raised_of_watchpoint hw).trans hacc))
    · apply commit_spec hacc
      · intro byteVa
        exact .raised (raised_enterSyncException (Accessed.refl c)
          (dataClass_classFrom c _ _ (by simp [DataClass]) (by simp [DataClass])))
      · intro hn r hr
        obtain ⟨p, hp, rfl⟩ := List.mem_map.1 hr
        have hpa := (hnarrow hn p.2 (List.of_mem_zip hp).2).toNat_lt
        dsimp only
        omega

/-! ## Checked accesses -/

theorem mmuRead_spec (s : Core β) (rn : Nat) (va : U64) (size : Nat) (forceCheck : Bool) :
    ReadSpec s (s.mmuRead port rn va size forceCheck) := by
  rw [mmuRead]
  split
  · next c hc => exact readSpec_of_failed (.raised (raised_of_spAlignment hc))
  · split
    · next c hc => exact readSpec_of_failed (.raised (raised_of_dataAlignment hc))
    · exact mmuReadValue_spec s va size .read

theorem mmuWrite_spec (s : Core β) (rn : Nat) (va value : U64) (size : Nat) (access : AccessType)
    (forceCheck : Bool) : WriteSpec s (s.mmuWrite port rn va value size access forceCheck) := by
  rw [mmuWrite]
  split
  · next c hc => exact writeSpec_of_failed (.raised (raised_of_spAlignment hc))
  · split
    · next c hc => exact writeSpec_of_failed (.raised (raised_of_dataAlignment hc))
    · exact mmuWriteValue_spec s va value size access

end Core

/-! ## What the reads of a bus keep -/

/-- `R` holds between a bus and what any reads of it leave. -/
structure BusPort.ReadsKeep {β : Type} (port : BusPort β) (R : β → β → Prop) : Prop where
  refl : ∀ b, R b b
  trans : ∀ {b b' b''}, R b b' → R b' b'' → R b b''
  read : ∀ b pa size, R b (port.read b pa size).2

namespace BusPort.ReadsKeep

variable {β : Type} {port : BusPort β} {R : β → β → Prop} (h : port.ReadsKeep R)

include h

theorem readEach (b : β) (requests : List (U64 × U64)) : R b (port.readEach b requests).2 := by
  induction requests generalizing b with
  | nil => exact h.refl b
  | cons r rs ih =>
    have hread := h.read b r.2 1
    rw [BusPort.readEach]
    split
    · next b' hb =>
      rw [hb] at hread
      exact hread
    · next byte b' hb =>
      rw [hb] at hread
      exact h.trans hread (ih b')

/-- Neither the walk of a translation nor an exception writes to memory. -/
theorem mmuReadValue (s : Core β) (va : U64) (size : Nat) (access : AccessType) :
    R s.bus (s.mmuReadValue port va size access).2.bus := by
  simp only [Core.mmuReadValue]
  split_ifs
  · exact h.refl s.bus
  · split
    · exact h.refl s.bus
    · next pa c₁ hc =>
      have hread := h.read s.bus pa size
      split
      · exact h.refl s.bus
      · split
        · next b hb =>
          rw [hb] at hread
          exact hread
        · next value b hb =>
          rw [hb] at hread
          exact hread
  · split
    · exact h.refl s.bus
    · next pas c₁ hc =>
      have hread := h.readEach s.bus ((bytesFrom va size).zip pas)
      split
      · exact h.refl s.bus
      · split
        · next byteVa b hb =>
          rw [hb] at hread
          exact hread
        · next bytes b hb =>
          rw [hb] at hread
          exact hread

theorem mmuRead (s : Core β) (rn : Nat) (va : U64) (size : Nat) (forceCheck : Bool) :
    R s.bus (s.mmuRead port rn va size forceCheck).2.bus := by
  rw [Core.mmuRead]
  split
  · exact h.refl s.bus
  · split
    · exact h.refl s.bus
    · exact h.mmuReadValue s va size .read

end BusPort.ReadsKeep
end Aarchvm
