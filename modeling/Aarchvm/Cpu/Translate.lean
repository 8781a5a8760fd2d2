import Aarchvm.Cpu.Walk

/-!
# Cached translation

`translate_data_address_fast`, `translate_address` and
`translate_cache_maintenance_address`: the hot entry, then the set-associative
buffer, then a walk whose leaf is inserted. A hit checks the permissions of the
access against the cached attributes and nothing else.
-/
namespace Aarchvm

/-- `stage1_disabled_output_pa`. -/
def stage1DisabledOutputPa (va : U64) : U64 := va &&& 0x00FFFFFFFFFFFFFF

/-- VA[55:12], the tag of an entry. -/
def vaPageOf (effectiveVa : U64) : U64 := (effectiveVa >>> 12) &&& tlbPageMask

namespace Tlb

/-- The hot entry if it matches, or else what the buffer holds. -/
def hit (t : Tlb) (hot : Option TlbEntry) (page : U64) (asid : U16) : Option TlbEntry :=
  (hot.filter fun e => e.hits page asid).or (t.lookup page asid)

/-- `tlb_insert`. -/
def insert (t : Tlb) (page : U64) (result : TranslationResult) : Tlb :=
  t.insertEntry ⟨page, result.pa >>> 12, result.asid &&& SystemRegisters.mmuAsidMask, result.attrs⟩

def hot (t : Tlb) (access : AccessType) : Option TlbEntry :=
  if access = .fetch then t.lastFetch else t.lastData

/-- `*hot = *hit`. -/
def setHot (t : Tlb) (access : AccessType) (e : TlbEntry) : Tlb :=
  if access = .fetch then { t with lastFetch := some e } else { t with lastData := some e }

end Tlb

/-- `(hit->pa_page << 12) | off`. -/
def TlbEntry.pa (e : TlbEntry) (effectiveVa : U64) : U64 :=
  (e.paPage <<< 12) ||| (effectiveVa &&& 0xFFF)

namespace SystemRegisters

/-- `fill_stage1_disabled_output`. -/
def stage1DisabledOutput (r : SystemRegisters) (effectiveVa : U64) (access : AccessType) :
    TranslationResult where
  pa := stage1DisabledOutputPa effectiveVa
  asid := r.currentTranslationAsid
  attrs :=
    { level := 3
      attrIndex := 0
      mairAttr :=
        if access = .fetch then if r.sctlrEl1.getLsbD 12 then 0xAA else 0x44 else 0x00
      globalEntry := true
      writable := true
      userAccessible := true
      executable := true
      pxn := false
      uxn := false
      memoryType := if access = .fetch then .normal else .device
      leafShareability := 2
      walkAttrs := decodeWalkAttributes r.tcrEl1 (effectiveVa.getLsbD 63) }

end SystemRegisters

namespace Cpu

/-- The latches that every translation clears first. -/
def clearFaultLatches (c : Cpu) : Cpu :=
  { c with lastTranslationFault := none, lastDataAbortIssOverride := none, lastDataFaultVa := none }

def effectiveVa (c : Cpu) (va : U64) : U64 := normalizeStage1Address c.sysregs.tcrEl1 va

/-- The entry that a translation of `va` finds, starting from the given hot entry. -/
def tlbHit (c : Cpu) (hot : Option TlbEntry) (va : U64) : Option TlbEntry :=
  c.tlb.hit hot (vaPageOf (c.effectiveVa va)) c.sysregs.currentTranslationAsid

/-- Leave the outcome, and `last_translation_fault_` when it is a fault. -/
def finishTranslation {α : Type} (c : Cpu) (outcome : Except TranslationFault α) :
    Except TranslationFault α × Cpu :=
  match outcome with
  | .error f => (.error f, { c with lastTranslationFault := some f })
  | .ok a => (.ok a, c)

/-- Insert the leaf of a successful walk. -/
def fillTlb (c : Cpu) (va : U64) (outcome : Except TranslationFault TranslationResult) : Cpu :=
  match outcome with
  | .error _ => c
  | .ok result => { c with tlb := c.tlb.insert (vaPageOf (c.effectiveVa va)) result }

variable (c : Cpu) (readDesc : U64 → Option U64) (va : U64)

/-- `translate_data_address_fast`. -/
def translateDataAddressFast (access : AccessType) : Except TranslationFault U64 × Cpu :=
  let c₀ := c.clearFaultLatches
  if !c.sysregs.mmuEnabled then (.ok (stage1DisabledOutputPa (c.effectiveVa va)), c₀)
  else
    match c.tlbHit c.tlb.lastData va with
    | some e =>
      finishTranslation { c₀ with tlb.lastData := some e }
        ((c.sysregs.accessPermitted e.attrs access true).map fun _ => e.pa (c.effectiveVa va))
    | none =>
      let outcome := c.sysregs.walkPageTables readDesc (c.effectiveVa va) access true true true
      finishTranslation (c₀.fillTlb va outcome) (outcome.map (·.pa))

/-- `translate_address`. -/
def translateAddress (access : AccessType) (allowTlbFill useTlb applyPan : Bool) :
    Except TranslationFault TranslationResult × Cpu :=
  let c₀ := c.clearFaultLatches
  if !c.sysregs.mmuEnabled then
    (.ok (c.sysregs.stage1DisabledOutput (c.effectiveVa va) access), c₀)
  else
    match if useTlb then c.tlbHit (c.tlb.hot access) va else none with
    | some e =>
      finishTranslation { c₀ with tlb := c.tlb.setHot access e }
        ((c.sysregs.accessPermitted e.attrs access applyPan).map fun _ =>
          ⟨e.pa (c.effectiveVa va), e.asid, e.attrs⟩)
    | none =>
      let outcome := c.sysregs.walkPageTables readDesc (c.effectiveVa va) access true applyPan true
      finishTranslation (if allowTlbFill then c₀.fillTlb va outcome else c₀) outcome

/-- The permission check of cache maintenance by address. -/
def maintenancePermitted (faultOnEl0NoReadPermission : Bool) (result : TranslationResult) :
    Except TranslationFault TranslationResult :=
  if c.sysregs.inEl0 && faultOnEl0NoReadPermission && !result.attrs.userAccessible then
    .error ⟨.permission, result.attrs.level, false⟩
  else .ok result

/-- `translate_cache_maintenance_address`. -/
def translateCacheMaintenanceAddress (faultOnEl0NoReadPermission allowTlbFill useTlb : Bool) :
    Except TranslationFault TranslationResult × Cpu :=
  let c₀ := c.clearFaultLatches
  if !c.sysregs.mmuEnabled then
    (.ok (c.sysregs.stage1DisabledOutput (c.effectiveVa va) .read), c₀)
  else
    match if useTlb then c.tlbHit c.tlb.lastData va else none with
    | some e =>
      finishTranslation { c₀ with tlb.lastData := some e }
        (c.maintenancePermitted faultOnEl0NoReadPermission
          ⟨e.pa (c.effectiveVa va), e.asid, e.attrs⟩)
    | none =>
      let outcome :=
        (c.sysregs.walkPageTables readDesc (c.effectiveVa va) .read false true true).bind
        (c.maintenancePermitted faultOnEl0NoReadPermission)
      finishTranslation (if allowTlbFill then c₀.fillTlb va outcome else c₀) outcome

/-! ## TLB maintenance and register writes -/

def tlbiOperandAsid (operand : U64) : U16 :=
  (operand >>> 48).setWidth 16 &&& SystemRegisters.mmuAsidMask

/-- TLBI VMALLE1, its broadcast and `perf_flush_tlb_all`. -/
def tlbiVmalle1 : Cpu := { c with tlb := c.tlb.flushAll }

/-- TLBI VAE1 and, with `allAsids`, VAAE1, and their broadcasts. -/
def tlbiVae1 (operand : U64) (allAsids : Bool) : Cpu :=
  { c with tlb :=
      if allAsids then c.tlb.invalidatePage (operand &&& tlbPageMask) 0 false
      else c.tlb.invalidatePage (operand &&& tlbPageMask) (tlbiOperandAsid operand) true }

/-- TLBI ASIDE1 and its broadcast. -/
def tlbiAside1 (operand : U64) : Cpu := { c with tlb := c.tlb.flushAsid (tlbiOperandAsid operand) }

/-- MSR SCTLR_EL1, TCR_EL1 and MAIR_EL1 flush the buffer; MSR TTBR0_EL1 and TTBR1_EL1 do
not. -/
def writeSctlrEl1 (value : U64) : Cpu :=
  { c with sysregs.sctlrEl1 := sanitizeSctlrEl1 value, tlb := c.tlb.flushAll }

def writeTcrEl1 (value : U64) : Cpu :=
  { c with sysregs.tcrEl1 := sanitizeTcrEl1 value, tlb := c.tlb.flushAll }

def writeMairEl1 (value : U64) : Cpu :=
  { c with sysregs.mairEl1 := value, tlb := c.tlb.flushAll }

def writeTtbr0El1 (value : U64) : Cpu := { c with sysregs.ttbr0El1 := sanitizeTtbrEl1 value }

def writeTtbr1El1 (value : U64) : Cpu := { c with sysregs.ttbr1El1 := sanitizeTtbrEl1 value }

end Cpu
end Aarchvm
