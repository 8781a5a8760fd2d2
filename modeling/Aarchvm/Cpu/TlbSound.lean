import Aarchvm.Cpu.TlbFill
import Aarchvm.Lib.Run

/-!
# Cached translation against the walk

One CPU's translation regime as a state machine: translations of every kind, TLBI,
the writes of SCTLR_EL1, TCR_EL1, MAIR_EL1 and TTBRn_EL1, changes of PSTATE and of
memory. The invariant is that each held entry is what a walk finds, for every
canonical address of its tag and every ASID it matches. An address that is not
canonical shares its tag with one that is, and a hit does not tell them apart.
-/
namespace Aarchvm

structure Mmu where
  cpu : Cpu
  readDesc : U64 → Option U64

inductive MmuOp where
  | translateData (va : U64) (access : AccessType)
  | translate (va : U64) (access : AccessType) (allowTlbFill useTlb applyPan : Bool)
  | maintain (va : U64) (faultOnEl0NoReadPermission allowTlbFill useTlb : Bool)
  | tlbiVmalle1
  | tlbiVae1 (operand : U64) (allAsids : Bool)
  | tlbiAside1 (operand : U64)
  | writeSctlrEl1 (value : U64)
  | writeTcrEl1 (value : U64)
  | writeMairEl1 (value : U64)
  | writeTtbr0El1 (value : U64)
  | writeTtbr1El1 (value : U64)
  | setPstate (pstate : PState)
  | setMemory (readDesc : U64 → Option U64)

namespace Mmu

def step (m : Mmu) : MmuOp → Mmu
  | .translateData va access =>
    { m with cpu := (m.cpu.translateDataAddressFast m.readDesc va access).2 }
  | .translate va access allowTlbFill useTlb applyPan =>
    { m with
      cpu := (m.cpu.translateAddress m.readDesc va access allowTlbFill useTlb applyPan).2 }
  | .maintain va faultOnEl0 allowTlbFill useTlb =>
    { m with
      cpu :=
        (m.cpu.translateCacheMaintenanceAddress m.readDesc va faultOnEl0 allowTlbFill useTlb).2 }
  | .tlbiVmalle1 => { m with cpu := m.cpu.tlbiVmalle1 }
  | .tlbiVae1 operand allAsids => { m with cpu := m.cpu.tlbiVae1 operand allAsids }
  | .tlbiAside1 operand => { m with cpu := m.cpu.tlbiAside1 operand }
  | .writeSctlrEl1 value => { m with cpu := m.cpu.writeSctlrEl1 value }
  | .writeTcrEl1 value => { m with cpu := m.cpu.writeTcrEl1 value }
  | .writeMairEl1 value => { m with cpu := m.cpu.writeMairEl1 value }
  | .writeTtbr0El1 value => { m with cpu := m.cpu.writeTtbr0El1 value }
  | .writeTtbr1El1 value => { m with cpu := m.cpu.writeTtbr1El1 value }
  | .setPstate pstate => { m with cpu.sysregs.pstate := pstate }
  | .setMemory readDesc => { m with readDesc := readDesc }

/-! ## What a run may do -/

/-- The walk under other table bases than those of TTBR0_EL1 and TTBR1_EL1. -/
def leafUnder (m : Mmu) (bases : U64 × U64) (va : U64) (write : Bool) :
    Except TranslationFault Leaf :=
  walkLeaf ⟨m.cpu.sysregs.tcrEl1, m.cpu.sysregs.mairEl1, bases.1, bases.2⟩ m.readDesc va write

/-- The tables of the current ASID are those it is bound to, and a global leaf of one ASID is
one of all. -/
def Bound (bases : U16 → Option (U64 × U64)) (m : Mmu) : Prop :=
  bases m.cpu.sysregs.currentTranslationAsid =
      some (m.cpu.sysregs.regime.base0, m.cpu.sysregs.regime.base1) ∧
    ∀ asid b asid' b', bases asid = some b → bases asid' = some b' →
      ∀ va write leaf, m.leafUnder b va write = .ok leaf → leaf.attrs.globalEntry = true →
        m.leafUnder b' va write = .ok leaf

/-- Software keeps each ASID bound to its tables and does not modify them. -/
def Admissible (bases : U16 → Option (U64 × U64)) (m : Mmu) : MmuOp → Prop
  | .translateData _ _ | .translate _ _ _ _ _ | .maintain _ _ _ _ =>
    m.cpu.sysregs.mmuEnabled = true → m.Bound bases
  | .setMemory readDesc =>
    ∀ asid b, bases asid = some b → ∀ va write,
      ({ m with readDesc := readDesc } : Mmu).leafUnder b va write = m.leafUnder b va write
  | _ => True

/-- What the caller of `translate_address` learns, the ASID apart. -/
def seen (outcome : Except TranslationFault TranslationResult) :
    Except TranslationFault (U64 × LeafAttrs) :=
  outcome.map fun result => (result.pa, result.attrs)

/-- The step's translation has the outcome of `walk_page_tables` in the same state. -/
def Agrees (m : Mmu) : MmuOp → Prop
  | .translateData va access =>
    m.cpu.sysregs.mmuEnabled = true →
      (m.cpu.translateDataAddressFast m.readDesc va access).1 =
        (m.cpu.sysregs.walkPageTables m.readDesc va access true true true).map (·.pa)
  | .translate va access allowTlbFill useTlb applyPan =>
    m.cpu.sysregs.mmuEnabled = true →
      seen (m.cpu.translateAddress m.readDesc va access allowTlbFill useTlb applyPan).1 =
        seen (m.cpu.sysregs.walkPageTables m.readDesc va access true applyPan true)
  | .maintain va faultOnEl0 allowTlbFill useTlb =>
    m.cpu.sysregs.mmuEnabled = true →
      seen (m.cpu.translateCacheMaintenanceAddress m.readDesc va faultOnEl0 allowTlbFill useTlb).1 =
        seen ((m.cpu.sysregs.walkPageTables m.readDesc va .read false true true).bind
          (m.cpu.maintenancePermitted faultOnEl0))
  | _ => True

/-- The address is canonical, or no matching entry has its tag. -/
def Clean (m : Mmu) (hot : Option TlbEntry) (va : U64) : Prop :=
  Canonical (m.cpu.effectiveVa va) ∨ m.cpu.tlbHit hot va = none

/-- The step is no cached translation, or its address is clean. -/
def Distinguished (m : Mmu) : MmuOp → Prop
  | .translateData va _ => m.cpu.sysregs.mmuEnabled = true → m.Clean m.cpu.tlb.lastData va
  | .translate va access _ useTlb _ =>
    m.cpu.sysregs.mmuEnabled = true → useTlb = true → m.Clean (m.cpu.tlb.hot access) va
  | .maintain va _ _ useTlb =>
    m.cpu.sysregs.mmuEnabled = true → useTlb = true → m.Clean m.cpu.tlb.lastData va
  | _ => True

/-! ## The invariant -/

/-- What `e` says is what a walk finds. -/
def Sound (bases : U16 → Option (U64 × U64)) (m : Mmu) (e : TlbEntry) : Prop :=
  ∀ asid b, bases asid = some b → e.matchesAsid asid = true →
    ∀ va, Canonical va → vaPageOf va = e.vaPage →
      ∀ write, m.leafUnder b va write = .ok ⟨e.pa va, e.attrs, true⟩

def Inv (bases : U16 → Option (U64 × U64)) (m : Mmu) : Prop :=
  ∀ e, m.cpu.tlb.Holds e → m.Sound bases e

end Mmu

namespace Mmu

variable {bases : U16 → Option (U64 × U64)} {m : Mmu} {va : U64}

/-! ## One translation -/

/-- A leaf of the current tables makes a sound entry. -/
theorem sound_of_filled (hb : m.Bound bases) {e : TlbEntry} (h : m.cpu.Filled m.readDesc va e) :
    m.Sound bases e := by
  obtain ⟨-, leaf, write, hleaf, haf, rfl⟩ := h
  intro asid b hasid hmatch va' hcan htag write'
  have hpage := page_eq_of_tag (canonical_of_walkLeaf hleaf) hcan htag.symm
  have hcur : walkLeaf m.cpu.sysregs.regime m.readDesc va' write' = .ok (leaf.at va') :=
    walkLeaf_of_page hpage hleaf
  have hat : leaf.at va' = ⟨((leaf.pa >>> 12) <<< 12) ||| (va' &&& 0xFFF), leaf.attrs, true⟩ := by
    rw [Leaf.at, haf]
  rw [hat] at hcur
  cases hg : leaf.attrs.globalEntry with
  | true => exact hb.2 _ _ _ _ hb.1 hasid va' write' _ hcur hg
  | false =>
    have heq : m.cpu.sysregs.currentTranslationAsid = asid := by
      simpa [TlbEntry.matchesAsid, hg] using hmatch
    have hbases := hb.1
    rw [heq, hasid] at hbases
    cases hbases
    exact hcur

/-- A hit on a canonical address is what a walk finds. -/
theorem walkLeaf_of_hit (hi : m.Inv bases) (hb : m.Bound bases) {hot : Option TlbEntry}
    (hhot : ∀ e, hot = some e → m.cpu.tlb.Holds e) {e : TlbEntry}
    (h : m.cpu.tlbHit hot va = some e) (hcan : Canonical (m.cpu.effectiveVa va)) (write : Bool) :
    walkLeaf m.cpu.sysregs.regime m.readDesc (m.cpu.effectiveVa va) write =
      .ok ⟨e.pa (m.cpu.effectiveVa va), e.attrs, true⟩ := by
  obtain ⟨hheld, htag, hasid⟩ := Tlb.hit_spec hhot h
  exact hi e hheld _ _ hb.1 hasid _ hcan htag.symm write

theorem sound_congr {m' : Mmu} {e : TlbEntry}
    (h : ∀ asid b, bases asid = some b → ∀ va write,
      m'.leafUnder b va write = m.leafUnder b va write)
    (hs : m.Sound bases e) : m'.Sound bases e := by
  intro asid b hasid hmatch va hcan htag write
  rw [h asid b hasid]
  exact hs asid b hasid hmatch va hcan htag write

/-- A step that keeps the walks keeps the invariant if it adds sound entries only. -/
theorem inv_of_holds (hi : m.Inv bases) {m' : Mmu}
    (htcr : m'.cpu.sysregs.tcrEl1 = m.cpu.sysregs.tcrEl1)
    (hmair : m'.cpu.sysregs.mairEl1 = m.cpu.sysregs.mairEl1) (hmem : m'.readDesc = m.readDesc)
    (hheld : ∀ e, m'.cpu.tlb.Holds e → m.cpu.tlb.Holds e ∨ m.Sound bases e) : m'.Inv bases := by
  intro e he
  apply sound_congr (m := m)
  · intro _ b _ va write
    rw [leafUnder, leafUnder, htcr, hmair, hmem]
  · exact (hheld e he).elim (hi e) id

theorem inv_of_nothing_held (h : ∀ e, ¬ m.cpu.tlb.Holds e) : m.Inv bases :=
  fun e he => absurd he (h e)

/-- A translation keeps the invariant: what it fills in is sound. -/
theorem inv_of_filled (hi : m.Inv bases) (hb : m.cpu.sysregs.mmuEnabled = true → m.Bound bases)
    {c : Cpu} (hc : m.cpu.Translated c)
    (hheld : ∀ e, c.tlb.Holds e → m.cpu.tlb.Holds e ∨ m.cpu.Filled m.readDesc va e) :
    ({ m with cpu := c } : Mmu).Inv bases := by
  have htcr : c.sysregs.tcrEl1 = m.cpu.sysregs.tcrEl1 := by
    rw [hc.sysregs]
  have hmair : c.sysregs.mairEl1 = m.cpu.sysregs.mairEl1 := by
    rw [hc.sysregs]
  apply @inv_of_holds bases m hi { m with cpu := c } htcr hmair rfl
  intro e he
  exact (hheld e he).imp_right fun hf => sound_of_filled (hb hf.1) hf

/-- Every admissible step keeps the invariant. -/
theorem inv_step {op : MmuOp} (hi : m.Inv bases) (hadm : m.Admissible bases op) :
    (m.step op).Inv bases := by
  have hof : ∀ p : TlbEntry → Bool,
      ({ m with cpu := { m.cpu with tlb := m.cpu.tlb.invalidate p } } : Mmu).Inv bases :=
    fun p => inv_of_holds hi rfl rfl rfl fun e he => .inl (Tlb.holds_invalidate he).1
  have hflush : ∀ c : Cpu, c.tlb = m.cpu.tlb.flushAll → ({ m with cpu := c } : Mmu).Inv bases :=
    fun c hc => inv_of_nothing_held fun e he => Tlb.not_holds_flushAll (hc ▸ he)
  cases op with
  | translateData va access =>
    exact inv_of_filled hi hadm (Cpu.translated_translateDataAddressFast _ _ _ _) fun _ he =>
      Cpu.holds_translateDataAddressFast he
  | translate va access allowTlbFill useTlb applyPan =>
    exact inv_of_filled hi hadm (Cpu.translated_translateAddress _ _ _ _ _ _ _) fun _ he =>
      Cpu.holds_translateAddress he
  | maintain va faultOnEl0 allowTlbFill useTlb =>
    exact inv_of_filled hi hadm (Cpu.translated_translateCacheMaintenanceAddress _ _ _ _ _ _)
      fun _ he => Cpu.holds_translateCacheMaintenanceAddress he
  | tlbiVmalle1 => exact hflush _ rfl
  | tlbiVae1 operand allAsids =>
    cases allAsids with
    | false => exact hof _
    | true => exact hof _
  | tlbiAside1 operand => exact hof _
  | writeSctlrEl1 value => exact hflush _ rfl
  | writeTcrEl1 value => exact hflush _ rfl
  | writeMairEl1 value => exact hflush _ rfl
  | writeTtbr0El1 value => exact inv_of_holds hi rfl rfl rfl fun e he => .inl he
  | writeTtbr1El1 value => exact inv_of_holds hi rfl rfl rfl fun e he => .inl he
  | setPstate pstate => exact inv_of_holds hi rfl rfl rfl fun e he => .inl he
  | setMemory readDesc => exact fun e he => sound_congr hadm (hi e he)

/-! ## Agreement -/

theorem clean_iff_of_hit {hot : Option TlbEntry} {e : TlbEntry}
    (h : m.cpu.tlbHit hot va = some e) : m.Clean hot va ↔ Canonical (m.cpu.effectiveVa va) := by
  simp [Clean, h]

/-- What fails for want of a permission at most does not fail otherwise. -/
theorem ne_error_of_permission {α : Type} {cached : Except TranslationFault α}
    (h : ∀ f, cached = .error f → f.kind = .permission) {f : TranslationFault}
    (hf : f.kind ≠ .permission) : cached ≠ .error f :=
  fun he => hf (h f he)

theorem map_error_kind {α β : Type} {outcome : Except TranslationFault α} {g : α → β}
    (h : ∀ f, outcome = .error f → f.kind = .permission) {f : TranslationFault}
    (he : outcome.map g = .error f) : f.kind = .permission := by
  cases outcome with
  | error f' =>
    cases he
    exact h _ rfl
  | ok a => cases he

theorem translateData_agrees_iff (hi : m.Inv bases) (access : AccessType)
    (hb : m.cpu.sysregs.mmuEnabled = true → m.Bound bases) :
    m.Agrees (.translateData va access) ↔ m.Distinguished (.translateData va access) := by
  apply imp_congr_right
  intro hmmu
  cases hhit : m.cpu.tlbHit m.cpu.tlb.lastData va with
  | none =>
    apply iff_of_true _ (.inr hhit)
    rw [Cpu.translateDataAddressFast_of_miss hmmu hhit]
    simp only [Cpu.finishTranslation_outcome, Cpu.effectiveVa,
      SystemRegisters.walkPageTables_normalized]
  | some e =>
    rw [clean_iff_of_hit hhit, Cpu.translateDataAddressFast_of_hit hmmu hhit,
      Cpu.finishTranslation_outcome]
    by_cases hcan : Canonical (m.cpu.effectiveVa va)
    · apply iff_of_true _ hcan
      have hleaf := walkLeaf_of_hit hi (hb hmmu) (fun _ h => .inr (.inr h)) hhit hcan access.isWrite
      rw [SystemRegisters.walkPageTables_of_leaf hleaf]
      cases m.cpu.sysregs.accessPermitted e.attrs access true <;> rfl
    · apply iff_of_false _ hcan
      obtain ⟨f, hf, hk⟩ := SystemRegisters.walkPageTables_of_not_canonical hcan
      rw [hf]
      apply ne_error_of_permission _ hk
      intro f' hf'
      exact map_error_kind (fun _ => SystemRegisters.accessPermitted_error_kind) hf'

theorem translate_agrees_iff (hi : m.Inv bases) (access : AccessType)
    (allowTlbFill useTlb applyPan : Bool) (hb : m.cpu.sysregs.mmuEnabled = true → m.Bound bases) :
    m.Agrees (.translate va access allowTlbFill useTlb applyPan) ↔
      m.Distinguished (.translate va access allowTlbFill useTlb applyPan) := by
  apply imp_congr_right
  intro hmmu
  rcases Cpu.hit_or_miss useTlb (m.cpu.tlb.hot access) va with ⟨huse, e, hhit⟩ | hmiss
  · rw [clean_iff_of_hit hhit, Cpu.translateAddress_of_hit hmmu huse hhit,
      Cpu.finishTranslation_outcome, imp_iff_right huse]
    by_cases hcan : Canonical (m.cpu.effectiveVa va)
    · apply iff_of_true _ hcan
      have hleaf :=
        walkLeaf_of_hit hi (hb hmmu) (fun _ h => Tlb.holds_hot h) hhit hcan access.isWrite
      rw [SystemRegisters.walkPageTables_of_leaf hleaf]
      cases m.cpu.sysregs.accessPermitted e.attrs access applyPan <;> rfl
    · apply iff_of_false _ hcan
      obtain ⟨f, hf, hk⟩ := SystemRegisters.walkPageTables_of_not_canonical hcan
      rw [hf]
      apply ne_error_of_permission _ hk
      intro f' hf'
      exact map_error_kind
        (fun _ => map_error_kind fun _ => SystemRegisters.accessPermitted_error_kind) hf'
  · apply iff_of_true _ fun hu => .inr (hmiss hu)
    rw [Cpu.translateAddress_of_miss hmmu hmiss]
    simp only [Cpu.finishTranslation_outcome, Cpu.effectiveVa,
      SystemRegisters.walkPageTables_normalized]

theorem maintain_agrees_iff (hi : m.Inv bases) (faultOnEl0 allowTlbFill useTlb : Bool)
    (hb : m.cpu.sysregs.mmuEnabled = true → m.Bound bases) :
    m.Agrees (.maintain va faultOnEl0 allowTlbFill useTlb) ↔
      m.Distinguished (.maintain va faultOnEl0 allowTlbFill useTlb) := by
  apply imp_congr_right
  intro hmmu
  rcases Cpu.hit_or_miss useTlb m.cpu.tlb.lastData va with ⟨huse, e, hhit⟩ | hmiss
  · rw [clean_iff_of_hit hhit, Cpu.translateCacheMaintenanceAddress_of_hit hmmu huse hhit,
      Cpu.finishTranslation_outcome, imp_iff_right huse]
    by_cases hcan : Canonical (m.cpu.effectiveVa va)
    · apply iff_of_true _ hcan
      have hleaf := walkLeaf_of_hit hi (hb hmmu) (fun _ h => .inr (.inr h)) hhit hcan
        AccessType.read.isWrite
      rw [SystemRegisters.walkPageTables_unchecked_of_leaf hleaf]
      simp only [Except.bind, Cpu.maintenancePermitted]
      split_ifs <;> rfl
    · apply iff_of_false _ hcan
      obtain ⟨f, hf, hk⟩ := SystemRegisters.walkPageTables_of_not_canonical hcan
      rw [hf]
      apply ne_error_of_permission _ hk
      intro f' hf'
      exact map_error_kind (fun _ => Cpu.maintenancePermitted_error_kind) hf'
  · apply iff_of_true _ fun hu => .inr (hmiss hu)
    rw [Cpu.translateCacheMaintenanceAddress_of_miss hmmu hmiss]
    simp only [Cpu.finishTranslation_outcome, Cpu.effectiveVa,
      SystemRegisters.walkPageTables_normalized]

theorem agrees_iff {op : MmuOp} (hi : m.Inv bases) (hadm : m.Admissible bases op) :
    m.Agrees op ↔ m.Distinguished op := by
  cases op with
  | translateData va access => exact translateData_agrees_iff hi access hadm
  | translate va access allowTlbFill useTlb applyPan =>
    exact translate_agrees_iff hi access allowTlbFill useTlb applyPan hadm
  | maintain va faultOnEl0 allowTlbFill useTlb =>
    exact maintain_agrees_iff hi faultOnEl0 allowTlbFill useTlb hadm
  | _ => exact Iff.rfl

open Lib.Run in
/-- From an empty buffer, whatever software does that keeps each ASID bound to its tables: each
translation agrees with the walk if and only if its address is canonical or misses. -/
theorem cached_translation_agrees_iff {ops : List MmuOp} (hempty : ∀ e, ¬ m.cpu.tlb.Holds e)
    (hadm : Along step (fun m op => m.Admissible bases op) m ops) :
    Along step (fun m op => m.Agrees op ↔ m.Distinguished op) m ops :=
  hadm.along_of_invariant (fun _ _ => inv_step) (fun _ _ => agrees_iff) (inv_of_nothing_held hempty)

/-! ## A block at address zero -/

theorem bound_of_one
    (hone : ∀ asid b asid' b', bases asid = some b → bases asid' = some b' → b = b')
    (hcur : bases m.cpu.sysregs.currentTranslationAsid =
      some (m.cpu.sysregs.regime.base0, m.cpu.sysregs.regime.base1)) : m.Bound bases := by
  refine ⟨hcur, ?_⟩
  intro asid b asid' b' hb hb' va write leaf hleaf _
  rwa [← hone asid b asid' b' hb hb']

/-- One level-1 block descriptor, for the first GiB. -/
def blockMapped : Mmu := ⟨.reset 0 0 0, fun pa => if pa = 0x40000000 then some 0x401 else none⟩

def blockBases (asid : U16) : Option (U64 × U64) := if asid = 0 then some (0x40000000, 0) else none

theorem blockBases_one (asid : U16) (b : U64 × U64) (asid' : U16) (b' : U64 × U64)
    (h : blockBases asid = some b) (h' : blockBases asid' = some b') : b = b' := by
  rw [blockBases] at h h'
  split_ifs at h h'
  rw [← Option.some.inj h, ← Option.some.inj h']

/-- Set up a 39-bit space, turn translation on, and load from an address and from the same
address with a tag in its top byte. -/
def taggedLoads : List MmuOp :=
  [.writeTtbr0El1 0x40000000, .writeTcrEl1 25, .writeSctlrEl1 1, .translateData 0x1000 .read,
    .translateData 0x0100000000001000 .read]

theorem taggedLoads_admissible :
    Lib.Run.Along step (fun m op => m.Admissible blockBases op) blockMapped taggedLoads := by
  refine ⟨trivial, trivial, trivial, fun _ => ?_, fun _ => ?_, trivial⟩
  · apply bound_of_one blockBases_one
    decide +kernel
  · apply bound_of_one blockBases_one
    decide +kernel

theorem taggedLoads_agree_iff :
    Lib.Run.Along step (fun m op => m.Agrees op ↔ m.Distinguished op) blockMapped taggedLoads :=
  cached_translation_agrees_iff (fun _ => Tlb.not_holds_empty) taggedLoads_admissible

/-- The tagged load hits where the walk reports an address size fault. -/
theorem tagged_load_hits :
    Lib.Run.Along step (fun m op => m.Admissible blockBases op) blockMapped taggedLoads ∧
      (∀ e, ¬ blockMapped.cpu.tlb.Holds e) ∧
      ¬ Lib.Run.Along step Agrees blockMapped taggedLoads := by
  refine ⟨taggedLoads_admissible, fun _ => Tlb.not_holds_empty, fun h => ?_⟩
  have hlast := h.2.2.2.2.1 (by decide +kernel)
  revert hlast
  decide +kernel

end Mmu
end Aarchvm
