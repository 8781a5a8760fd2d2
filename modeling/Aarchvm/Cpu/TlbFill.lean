import Aarchvm.Cpu.WalkPage

/-!
# What a translation leaves

A hit makes a held entry hot, a miss fills in the leaf of a walk, and nothing else
of the CPU changes but the fault latches. A translation that succeeds leaves its
entry hot, so the next one in the same page with the same access hits it, succeeds,
and changes nothing more.
-/
namespace Aarchvm

/-! ## Outcomes of a walk -/

namespace SystemRegisters

variable {r : SystemRegisters} {readDesc : U64 → Option U64} {va : U64} {access : AccessType}
  {checkPermissions applyPan : Bool}

theorem accessPermitted_error_kind {a : LeafAttrs} {f : TranslationFault}
    (h : r.accessPermitted a access applyPan = .error f) : f.kind = .permission := by
  simp only [accessPermitted] at h
  generalize (if (r.inEl0 || access.isUnprivileged) = true then _ else _) = blocked at h
  split_ifs at h <;> cases h <;> rfl

theorem walkPageTables_normalized :
    r.walkPageTables readDesc (normalizeStage1Address r.tcrEl1 va) access checkPermissions applyPan
        true =
      r.walkPageTables readDesc va access checkPermissions applyPan true := by
  rw [walkPageTables, walkPageTables, normalizeStage1Address_idem]

/-- A walk that succeeds found a leaf with the access flag set that permits the access. -/
theorem walkPageTables_ok {result : TranslationResult}
    (h : r.walkPageTables readDesc va access checkPermissions applyPan true = .ok result) :
    ∃ leaf, walkLeaf r.regime readDesc (normalizeStage1Address r.tcrEl1 va) access.isWrite =
        .ok leaf ∧ leaf.af = true ∧ result = ⟨leaf.pa, r.currentTranslationAsid, leaf.attrs⟩ ∧
      (checkPermissions = true → r.accessPermitted leaf.attrs access applyPan = .ok ()) := by
  simp only [walkPageTables, Bool.true_and] at h
  split at h
  · cases h
  · next leaf hleaf =>
    generalize hp : (if checkPermissions = true then _ else _ : Except TranslationFault Unit) =
      permitted at h
    split_ifs at h with haf
    split at h
    · cases h
    · refine ⟨leaf, hleaf, by simpa using haf, (Except.ok.inj h).symm, ?_⟩
      intro hcheck
      rwa [if_pos hcheck] at hp

theorem walkPageTables_of_leaf {pa : U64} {attrs : LeafAttrs}
    (h : walkLeaf r.regime readDesc (normalizeStage1Address r.tcrEl1 va) access.isWrite =
      .ok ⟨pa, attrs, true⟩) :
    r.walkPageTables readDesc va access true applyPan true =
      (r.accessPermitted attrs access applyPan).map fun _ =>
        ⟨pa, r.currentTranslationAsid, attrs⟩ := by
  simp only [walkPageTables, h, Bool.not_true, Bool.and_false, Bool.false_eq_true,
    if_false, if_true]
  cases r.accessPermitted attrs access applyPan <;> rfl

theorem walkPageTables_unchecked_of_leaf {pa : U64} {attrs : LeafAttrs}
    (h : walkLeaf r.regime readDesc (normalizeStage1Address r.tcrEl1 va) access.isWrite =
      .ok ⟨pa, attrs, true⟩) :
    r.walkPageTables readDesc va access false applyPan true =
      .ok ⟨pa, r.currentTranslationAsid, attrs⟩ := by
  simp only [walkPageTables, h, Bool.not_true, Bool.and_false, Bool.false_eq_true, if_false]

theorem walkPageTables_of_not_canonical
    (h : ¬ Canonical (normalizeStage1Address r.tcrEl1 va)) :
    ∃ f, r.walkPageTables readDesc va access checkPermissions applyPan true = .error f ∧
      f.kind ≠ .permission := by
  obtain ⟨f, hf, hk⟩ := walkLeaf_of_not_canonical r.regime readDesc h access.isWrite
  refine ⟨f, ?_, hk⟩
  simp only [walkPageTables, hf]

theorem currentTranslationAsid_masked (r : SystemRegisters) :
    r.currentTranslationAsid &&& mmuAsidMask = r.currentTranslationAsid := by
  rw [currentTranslationAsid, ttbrAsid, BitVec.and_assoc, BitVec.and_self]

end SystemRegisters

/-! ## What a translation does to the buffer -/

namespace Tlb

theorem hit_spec {t : Tlb} {hot : Option TlbEntry} {page : U64} {asid : U16} {e : TlbEntry}
    (hhot : ∀ e, hot = some e → t.Holds e) (h : t.hit hot page asid = some e) :
    t.Holds e ∧ e.vaPage = page ∧ e.matchesAsid asid = true := by
  rw [hit, Option.or_eq_some_iff] at h
  rcases h with h | ⟨-, h⟩
  · obtain ⟨hs, hh⟩ := Option.filter_eq_some_iff.1 h
    simp only [TlbEntry.hits, Bool.and_eq_true, beq_iff_eq] at hh
    exact ⟨hhot e hs, hh⟩
  · exact lookup_spec h

theorem holds_hot {t : Tlb} {access : AccessType} {e : TlbEntry} (h : t.hot access = some e) :
    t.Holds e := by
  rw [hot] at h
  split_ifs at h
  · exact .inr (.inl h)
  · exact .inr (.inr h)

theorem holds_setHot {t : Tlb} {access : AccessType} {new e : TlbEntry}
    (h : (t.setHot access new).Holds e) : e = new ∨ t.Holds e := by
  rw [setHot] at h
  split_ifs at h
  · rcases h with h | h | h
    · exact .inr (.inl h)
    · exact .inl (Option.some.inj h).symm
    · exact .inr (.inr (.inr h))
  · rcases h with h | h | h
    · exact .inr (.inl h)
    · exact .inr (.inr (.inl h))
    · exact .inl (Option.some.inj h).symm

end Tlb

namespace Cpu

variable {c : Cpu} {va : U64}

@[simp] theorem finishTranslation_tlb {α : Type} (outcome : Except TranslationFault α) :
    (c.finishTranslation outcome).2.tlb = c.tlb := by
  cases outcome <;> rfl

@[simp] theorem finishTranslation_outcome {α : Type} (outcome : Except TranslationFault α) :
    (c.finishTranslation outcome).1 = outcome := by
  cases outcome <;> rfl

theorem holds_fillTlb {outcome : Except TranslationFault TranslationResult} {e : TlbEntry}
    (h : (c.fillTlb va outcome).tlb.Holds e) :
    c.tlb.Holds e ∨ ∃ result, outcome = .ok result ∧
      e = ⟨vaPageOf (c.effectiveVa va), result.pa >>> 12,
        result.asid &&& SystemRegisters.mmuAsidMask, result.attrs⟩ := by
  cases outcome with
  | error f => exact .inl h
  | ok result =>
    rcases Tlb.holds_insertEntry h with h | h
    · exact .inr ⟨result, rfl, h⟩
    · exact .inl h

end Cpu

/-! ## The three translations, by what the buffer finds -/

namespace Cpu

variable {c : Cpu} {readDesc : U64 → Option U64} {va : U64} {access : AccessType}
  {allowTlbFill useTlb applyPan faultOnEl0 : Bool} {e : TlbEntry}

theorem translateDataAddressFast_of_hit (hmmu : c.sysregs.mmuEnabled = true)
    (hhit : c.tlbHit c.tlb.lastData va = some e) :
    c.translateDataAddressFast readDesc va access =
      finishTranslation { c.clearFaultLatches with tlb.lastData := some e }
        ((c.sysregs.accessPermitted e.attrs access true).map fun _ => e.pa (c.effectiveVa va)) := by
  simp only [translateDataAddressFast, hmmu, hhit, Bool.not_true, Bool.false_eq_true, if_false]

theorem translateDataAddressFast_of_miss (hmmu : c.sysregs.mmuEnabled = true)
    (hhit : c.tlbHit c.tlb.lastData va = none) :
    c.translateDataAddressFast readDesc va access =
      let outcome := c.sysregs.walkPageTables readDesc (c.effectiveVa va) access true true true
      finishTranslation (c.clearFaultLatches.fillTlb va outcome) (outcome.map (·.pa)) := by
  simp only [translateDataAddressFast, hmmu, hhit, Bool.not_true, Bool.false_eq_true, if_false]

theorem translateAddress_of_hit (hmmu : c.sysregs.mmuEnabled = true) (huse : useTlb = true)
    (hhit : c.tlbHit (c.tlb.hot access) va = some e) :
    c.translateAddress readDesc va access allowTlbFill useTlb applyPan =
      finishTranslation { c.clearFaultLatches with tlb := c.tlb.setHot access e }
        ((c.sysregs.accessPermitted e.attrs access applyPan).map fun _ =>
          ⟨e.pa (c.effectiveVa va), e.asid, e.attrs⟩) := by
  simp only [translateAddress, hmmu, huse, hhit, Bool.not_true, Bool.false_eq_true,
    if_false, if_true]

theorem translateAddress_of_miss (hmmu : c.sysregs.mmuEnabled = true)
    (hhit : useTlb = true → c.tlbHit (c.tlb.hot access) va = none) :
    c.translateAddress readDesc va access allowTlbFill useTlb applyPan =
      let outcome := c.sysregs.walkPageTables readDesc (c.effectiveVa va) access true applyPan true
      finishTranslation
        (if allowTlbFill then c.clearFaultLatches.fillTlb va outcome else c.clearFaultLatches)
        outcome := by
  have hnone : (if useTlb = true then c.tlbHit (c.tlb.hot access) va else none) = none := by
    split_ifs with huse
    · exact hhit huse
    · rfl
  simp only [translateAddress, hmmu, hnone, Bool.not_true, Bool.false_eq_true, if_false]

theorem translateCacheMaintenanceAddress_of_hit (hmmu : c.sysregs.mmuEnabled = true)
    (huse : useTlb = true) (hhit : c.tlbHit c.tlb.lastData va = some e) :
    c.translateCacheMaintenanceAddress readDesc va faultOnEl0 allowTlbFill useTlb =
      finishTranslation { c.clearFaultLatches with tlb.lastData := some e }
        (c.maintenancePermitted faultOnEl0 ⟨e.pa (c.effectiveVa va), e.asid, e.attrs⟩) := by
  simp only [translateCacheMaintenanceAddress, hmmu, huse, hhit, Bool.not_true, Bool.false_eq_true,
    if_false, if_true]

theorem translateCacheMaintenanceAddress_of_miss (hmmu : c.sysregs.mmuEnabled = true)
    (hhit : useTlb = true → c.tlbHit c.tlb.lastData va = none) :
    c.translateCacheMaintenanceAddress readDesc va faultOnEl0 allowTlbFill useTlb =
      let outcome :=
        (c.sysregs.walkPageTables readDesc (c.effectiveVa va) .read false true true).bind
        (c.maintenancePermitted faultOnEl0)
      finishTranslation
        (if allowTlbFill then c.clearFaultLatches.fillTlb va outcome else c.clearFaultLatches)
        outcome := by
  have hnone : (if useTlb = true then c.tlbHit c.tlb.lastData va else none) = none := by
    split_ifs with huse
    · exact hhit huse
    · rfl
  simp only [translateCacheMaintenanceAddress, hmmu, hnone, Bool.not_true, Bool.false_eq_true,
    if_false]

/-- A look-up that may use the buffer finds an entry, or the buffer decides nothing. -/
theorem hit_or_miss (useTlb : Bool) (hot : Option TlbEntry) (va : U64) :
    (useTlb = true ∧ ∃ e, c.tlbHit hot va = some e) ∨
      (useTlb = true → c.tlbHit hot va = none) := by
  cases c.tlbHit hot va with
  | none => exact .inr fun _ => rfl
  | some e =>
    cases useTlb with
    | false => exact .inr fun huse => (nomatch huse)
    | true => exact .inl ⟨rfl, e, rfl⟩

theorem maintenancePermitted_ok {result result' : TranslationResult}
    (h : c.maintenancePermitted faultOnEl0 result = .ok result') : result' = result := by
  rw [maintenancePermitted] at h
  split_ifs at h
  exact (Except.ok.inj h).symm

theorem maintenancePermitted_error_kind {result : TranslationResult} {f : TranslationFault}
    (h : c.maintenancePermitted faultOnEl0 result = .error f) : f.kind = .permission := by
  rw [maintenancePermitted] at h
  split_ifs at h
  cases h
  rfl

/-! ## What is held afterwards -/

/-- The entry that a miss at `va` fills in. -/
def Filled (c : Cpu) (readDesc : U64 → Option U64) (va : U64) (e : TlbEntry) : Prop :=
  c.sysregs.mmuEnabled = true ∧ ∃ leaf write,
    walkLeaf c.sysregs.regime readDesc (c.effectiveVa va) write = .ok leaf ∧ leaf.af = true ∧
      e = ⟨vaPageOf (c.effectiveVa va), leaf.pa >>> 12, c.sysregs.currentTranslationAsid,
        leaf.attrs⟩

theorem holds_of_hit {hot : Option TlbEntry} (hhot : ∀ e, hot = some e → c.tlb.Holds e)
    (hhit : c.tlbHit hot va = some e) {e' : TlbEntry} (h : (c.tlb.setHot access e).Holds e') :
    c.tlb.Holds e' := by
  rcases Tlb.holds_setHot h with rfl | h
  · exact (Tlb.hit_spec hhot hhit).1
  · exact h

theorem holds_of_fill {checkPermissions : Bool}
    {outcome : Except TranslationFault TranslationResult} (hmmu : c.sysregs.mmuEnabled = true)
    (hout : ∀ result, outcome = .ok result →
      c.sysregs.walkPageTables readDesc (c.effectiveVa va) access checkPermissions applyPan true =
        .ok result)
    (h : (c.clearFaultLatches.fillTlb va outcome).tlb.Holds e) :
    c.tlb.Holds e ∨ c.Filled readDesc va e := by
  rcases holds_fillTlb h with h | ⟨result, hok, rfl⟩
  · exact .inl h
  · have hwalk := hout result hok
    rw [effectiveVa, SystemRegisters.walkPageTables_normalized] at hwalk
    obtain ⟨leaf, hleaf, haf, rfl, -⟩ := SystemRegisters.walkPageTables_ok hwalk
    refine .inr ⟨hmmu, leaf, _, hleaf, haf, ?_⟩
    exact congrArg (TlbEntry.mk (vaPageOf (c.effectiveVa va)) (leaf.pa >>> 12) · leaf.attrs)
      c.sysregs.currentTranslationAsid_masked

theorem holds_translateDataAddressFast
    (h : (c.translateDataAddressFast readDesc va access).2.tlb.Holds e) :
    c.tlb.Holds e ∨ c.Filled readDesc va e := by
  by_cases hmmu : c.sysregs.mmuEnabled = true
  · cases hhit : c.tlbHit c.tlb.lastData va with
    | some hot =>
      rw [translateDataAddressFast_of_hit hmmu hhit, finishTranslation_tlb] at h
      exact .inl (@holds_of_hit _ _ .read _ _ (fun _ h => .inr (.inr h)) hhit _ h)
    | none =>
      rw [translateDataAddressFast_of_miss hmmu hhit, finishTranslation_tlb] at h
      exact holds_of_fill hmmu (fun _ h => h) h
  · simp only [translateDataAddressFast, hmmu, Bool.not_false, if_true] at h
    exact .inl h

theorem holds_translateAddress
    (h : (c.translateAddress readDesc va access allowTlbFill useTlb applyPan).2.tlb.Holds e) :
    c.tlb.Holds e ∨ c.Filled readDesc va e := by
  by_cases hmmu : c.sysregs.mmuEnabled = true
  · rcases hit_or_miss useTlb (c.tlb.hot access) va with ⟨huse, hot, hhit⟩ | hmiss
    · rw [translateAddress_of_hit hmmu huse hhit, finishTranslation_tlb] at h
      exact .inl (holds_of_hit (fun _ h => Tlb.holds_hot h) hhit h)
    · rw [translateAddress_of_miss hmmu hmiss, finishTranslation_tlb] at h
      split_ifs at h
      · exact holds_of_fill hmmu (fun _ h => h) h
      · exact .inl h
  · simp only [translateAddress, hmmu, Bool.not_false, if_true] at h
    exact .inl h

theorem maintenance_walk_ok {walk : Except TranslationFault TranslationResult}
    {result : TranslationResult}
    (h : walk.bind (c.maintenancePermitted faultOnEl0) = .ok result) : walk = .ok result := by
  cases walk with
  | error f => cases h
  | ok leaf => rw [maintenancePermitted_ok h]

theorem holds_translateCacheMaintenanceAddress
    (h : (c.translateCacheMaintenanceAddress readDesc va faultOnEl0 allowTlbFill useTlb).2.tlb.Holds
      e) : c.tlb.Holds e ∨ c.Filled readDesc va e := by
  by_cases hmmu : c.sysregs.mmuEnabled = true
  · rcases hit_or_miss useTlb c.tlb.lastData va with ⟨huse, hot, hhit⟩ | hmiss
    · rw [translateCacheMaintenanceAddress_of_hit hmmu huse hhit, finishTranslation_tlb] at h
      exact .inl (@holds_of_hit _ _ .read _ _ (fun _ h => .inr (.inr h)) hhit _ h)
    · rw [translateCacheMaintenanceAddress_of_miss hmmu hmiss, finishTranslation_tlb] at h
      split_ifs at h
      · exact holds_of_fill hmmu (fun _ hok => maintenance_walk_ok hok) h
      · exact .inl h
  · simp only [translateCacheMaintenanceAddress, hmmu, Bool.not_false, if_true] at h
    exact .inl h

end Cpu

/-- The address of `va`'s page offset in the page of `pa`. -/
def pageAt (pa va : U64) : U64 := ((pa >>> 12) <<< 12) ||| (va &&& 0xFFF)

theorem and_offset_getLsbD (x : U64) (k : Nat) :
    (x &&& 0xFFF).getLsbD k = (x.getLsbD k && decide (k < 12)) := by
  have hoff : (0xFFF : U64) = lowMask 12 := rfl
  rw [hoff, BitVec.getLsbD_and, lowMask_getLsbD (by decide)]

/-- An address is its page and its page offset. -/
theorem eq_pageAt {q pa va : U64} (hpage : q >>> 12 = pa >>> 12)
    (hoff : q &&& 0xFFF = va &&& 0xFFF) :
    q = pageAt pa va := by
  apply BitVec.eq_of_getLsbD_eq
  intro k hk
  rw [pageAt, ← hoff, BitVec.getLsbD_or, and_offset_getLsbD, BitVec.getLsbD_shiftLeft, ← hpage,
    BitVec.getLsbD_ushiftRight]
  by_cases hlow : k < 12
  · simp [hlow]
  · rw [Nat.add_sub_cancel' (by omega)]
    simp [hlow, hk]

theorem pageAt_page (pa va : U64) : pageAt pa va >>> 12 = pa >>> 12 := by
  apply BitVec.eq_of_getLsbD_eq
  intro k _
  rw [pageAt, BitVec.getLsbD_ushiftRight, BitVec.getLsbD_or, and_offset_getLsbD,
    BitVec.getLsbD_shiftLeft, BitVec.getLsbD_ushiftRight]
  by_cases hk : 12 + k < 64
  · simp [hk, show ¬ 12 + k < 12 by omega]
  · simp [hk, BitVec.getLsbD_of_ge pa (12 + k) (by omega)]

theorem pageAt_offset (pa va : U64) : pageAt pa va &&& 0xFFF = va &&& 0xFFF := by
  apply BitVec.eq_of_getLsbD_eq
  intro k _
  rw [and_offset_getLsbD, and_offset_getLsbD, pageAt, BitVec.getLsbD_or, and_offset_getLsbD,
    BitVec.getLsbD_shiftLeft]
  by_cases hk : k < 12
  · simp [hk]
  · simp [hk]

theorem pageAt_pageAt (pa va va' : U64) : pageAt (pageAt pa va) va' = pageAt pa va' :=
  eq_pageAt (by rw [pageAt_page, pageAt_page]) (pageAt_offset _ _)

namespace Cpu

variable {c c' : Cpu} {readDesc : U64 → Option U64} {va va' pa : U64} {access : AccessType}

/-! ## What a translation changes -/

/-- `c'` is `c` but for the buffer and the fault latches. -/
def Translated (c c' : Cpu) : Prop :=
  c' = { c with
    tlb := c'.tlb
    lastTranslationFault := c'.lastTranslationFault
    lastDataAbortIssOverride := c'.lastDataAbortIssOverride
    lastDataFaultVa := c'.lastDataFaultVa }

theorem Translated.refl (c : Cpu) : Translated c c := rfl

theorem Translated.trans {c'' : Cpu} (h : Translated c c') (h' : Translated c' c'') :
    Translated c c'' := by
  rw [Translated] at *
  rw [h', h]

theorem Translated.sysregs (h : Translated c c') : c'.sysregs = c.sysregs := by
  rw [Translated] at h
  rw [h]

theorem translated_finishTranslation {α : Type} (outcome : Except TranslationFault α)
    (h : Translated c c') : Translated c (c'.finishTranslation outcome).2 := by
  cases outcome with
  | error f => exact h.trans rfl
  | ok a => exact h

theorem translated_fillTlb (outcome : Except TranslationFault TranslationResult)
    (h : Translated c c') : Translated c (c'.fillTlb va outcome) := by
  cases outcome with
  | error f => exact h
  | ok result => exact h.trans rfl

theorem translated_translateDataAddressFast (c : Cpu) (readDesc : U64 → Option U64) (va : U64)
    (access : AccessType) : Translated c (c.translateDataAddressFast readDesc va access).2 := by
  rw [translateDataAddressFast]
  split
  · exact rfl
  · split
    · exact translated_finishTranslation _ rfl
    · exact translated_finishTranslation _ (translated_fillTlb _ rfl)

theorem translated_translateAddress (c : Cpu) (readDesc : U64 → Option U64) (va : U64)
    (access : AccessType) (allowTlbFill useTlb applyPan : Bool) :
    Translated c (c.translateAddress readDesc va access allowTlbFill useTlb applyPan).2 := by
  rw [translateAddress]
  split
  · exact rfl
  · split
    · exact translated_finishTranslation _ rfl
    · apply translated_finishTranslation
      split
      · exact translated_fillTlb _ rfl
      · exact rfl

theorem translated_translateCacheMaintenanceAddress (c : Cpu) (readDesc : U64 → Option U64)
    (va : U64) (faultOnEl0 allowTlbFill useTlb : Bool) :
    Translated c
      (c.translateCacheMaintenanceAddress readDesc va faultOnEl0 allowTlbFill useTlb).2 := by
  rw [translateCacheMaintenanceAddress]
  split
  · exact rfl
  · split
    · exact translated_finishTranslation _ rfl
    · apply translated_finishTranslation
      split
      · exact translated_fillTlb _ rfl
      · exact rfl

/-! ## The same page again -/

theorem normalizeStage1Address_of_page (tcr : U64) (h : va >>> 12 = va' >>> 12) :
    normalizeStage1Address tcr va >>> 12 = normalizeStage1Address tcr va' >>> 12 := by
  have h55 : va.getLsbD 55 = va'.getLsbD 55 := getLsbD_of_page h (by decide)
  have htbi : effectiveTbi tcr va = effectiveTbi tcr va' := by
    rw [effectiveTbi, effectiveTbi, h55]
  apply BitVec.eq_of_getLsbD_eq
  intro k _
  have hk : va.getLsbD (12 + k) = va'.getLsbD (12 + k) := getLsbD_of_page h (by omega)
  rw [normalizeStage1Address, normalizeStage1Address, htbi, h55]
  split_ifs <;> simp only [BitVec.getLsbD_ushiftRight, BitVec.getLsbD_or, BitVec.getLsbD_and, hk]

theorem normalizeStage1Address_offset (tcr va : U64) :
    normalizeStage1Address tcr va &&& 0xFFF = va &&& 0xFFF := by
  have hm : (~~~kTopByteMask) &&& 0xFFF = 0xFFF := by decide
  have hm' : kTopByteMask &&& 0xFFF = 0 := by decide
  rw [normalizeStage1Address]
  split_ifs
  · rw [BitVec.and_or_distrib_right, BitVec.and_assoc, hm, hm']
    exact BitVec.or_zero
  · rw [BitVec.and_assoc, hm]
  · rfl

theorem pageAt_congr_offset (pa : U64) (h : va &&& 0xFFF = va' &&& 0xFFF) :
    pageAt pa va = pageAt pa va' := by
  rw [pageAt, pageAt, h]

theorem pa_eq_pageAt (e : TlbEntry) (va : U64) : e.pa va = pageAt (e.paPage <<< 12) va := by
  rw [TlbEntry.pa, pageAt]
  congr 1
  apply BitVec.eq_of_getLsbD_eq
  intro k hk
  simp only [BitVec.getLsbD_shiftLeft, BitVec.getLsbD_ushiftRight]
  by_cases hlow : k < 12
  · simp [hlow]
  · simp [hlow, hk, show 12 + (k - 12) = k by omega]

theorem effectiveVa_page (h : va >>> 12 = va' >>> 12) :
    c.effectiveVa va >>> 12 = c.effectiveVa va' >>> 12 :=
  normalizeStage1Address_of_page _ h

theorem pageAt_effectiveVa (pa : U64) : pageAt pa (c.effectiveVa va) = pageAt pa va :=
  pageAt_congr_offset pa (normalizeStage1Address_offset _ _)

theorem vaPageOf_effectiveVa (h : va >>> 12 = va' >>> 12) :
    vaPageOf (c.effectiveVa va) = vaPageOf (c.effectiveVa va') := by
  rw [vaPageOf, vaPageOf, effectiveVa_page h]

/-- A hot entry of the page of `va` translates any address of that page. -/
theorem translate_of_hot {e : TlbEntry} (hmmu : c.sysregs.mmuEnabled = true)
    (hhot : c.tlb.lastData = some e) (htag : e.vaPage = vaPageOf (c.effectiveVa va))
    (hasid : e.matchesAsid c.sysregs.currentTranslationAsid = true)
    (hperm : c.sysregs.accessPermitted e.attrs access true = .ok ())
    (hclear : c.clearFaultLatches = c) (hpage : va >>> 12 = va' >>> 12) :
    c.translateDataAddressFast readDesc va' access = (.ok (pageAt (e.paPage <<< 12) va'), c) := by
  have hh : e.hits (vaPageOf (c.effectiveVa va')) c.sysregs.currentTranslationAsid = true := by
    rw [TlbEntry.hits, htag, vaPageOf_effectiveVa hpage, hasid, beq_self_eq_true, Bool.and_true]
  have hhit : c.tlbHit c.tlb.lastData va' = some e := by
    rw [tlbHit, Tlb.hit, hhot, Option.filter_some, if_pos hh, Option.some_or]
  have hsame : { c with tlb.lastData := some e } = c := by
    rw [← hhot]
  rw [translateDataAddressFast_of_hit hmmu hhit, hperm, hclear, hsame, ← pageAt_effectiveVa,
    ← pa_eq_pageAt]
  rfl

/-- The output address with translation turned off, in the page of another. -/
theorem stage1DisabledOutputPa_eq_pageAt (h : va >>> 12 = va' >>> 12) :
    stage1DisabledOutputPa (c.effectiveVa va') =
      pageAt (stage1DisabledOutputPa (c.effectiveVa va)) va' := by
  have hm : (0x00FFFFFFFFFFFFFF : U64) &&& 0xFFF = 0xFFF := by decide
  apply eq_pageAt
  · rw [stage1DisabledOutputPa, stage1DisabledOutputPa, BitVec.ushiftRight_and_distrib,
      BitVec.ushiftRight_and_distrib, effectiveVa_page h]
  · rw [stage1DisabledOutputPa, BitVec.and_assoc, hm, effectiveVa, normalizeStage1Address_offset]

/-- So does a leaf just filled in. -/
theorem translate_of_filled {result : TranslationResult} (hmmu : c.sysregs.mmuEnabled = true)
    (hasid : result.asid = c.sysregs.currentTranslationAsid)
    (hperm : c.sysregs.accessPermitted result.attrs access true = .ok ())
    (hpage : va >>> 12 = va' >>> 12) :
    (c.clearFaultLatches.fillTlb va (.ok result)).translateDataAddressFast readDesc va' access =
      (.ok (pageAt result.pa va'), c.clearFaultLatches.fillTlb va (.ok result)) := by
  generalize hc : c.clearFaultLatches.fillTlb va (.ok result) = c₁
  obtain ⟨e, he⟩ : ∃ e : TlbEntry, e = ⟨vaPageOf (c.effectiveVa va), result.pa >>> 12,
    result.asid &&& SystemRegisters.mmuAsidMask, result.attrs⟩ := ⟨_, rfl⟩
  have hregs : c₁.sysregs = c.sysregs := by
    rw [← hc]
    rfl
  have heff : c₁.effectiveVa va = c.effectiveVa va := by
    rw [effectiveVa, effectiveVa, hregs]
  have hhot : c₁.tlb.lastData = some e := by
    rw [← hc, he]
    rfl
  have hclear : c₁.clearFaultLatches = c₁ := by
    rw [← hc]
    rfl
  have hmatch : e.matchesAsid c₁.sysregs.currentTranslationAsid = true := by
    rw [TlbEntry.matchesAsid, he, hregs, hasid, SystemRegisters.currentTranslationAsid_masked,
      beq_self_eq_true,
      Bool.or_true]
  have hpa : pageAt (e.paPage <<< 12) va' = pageAt result.pa va' := by
    rw [← pa_eq_pageAt, he]
    rfl
  rw [← hpa]
  refine translate_of_hot ?_ hhot (?_ : e.vaPage = vaPageOf (c₁.effectiveVa va)) hmatch ?_
    hclear hpage
  · rw [hregs, hmmu]
  · rw [heff, he]
  · rw [hregs, he, hperm]

/-- What a successful translation leaves for its page: the next one succeeds, at the same page,
and changes nothing. -/
theorem translate_again (h : c.translateDataAddressFast readDesc va access = (.ok pa, c')) :
    pa = pageAt pa va ∧
      ∀ va' : U64, va >>> 12 = va' >>> 12 →
        c'.translateDataAddressFast readDesc va' access = (.ok (pageAt pa va'), c') := by
  by_cases hmmu : c.sysregs.mmuEnabled = true
  · cases hhit : c.tlbHit c.tlb.lastData va with
    | some e =>
      rw [translateDataAddressFast_of_hit hmmu hhit] at h
      obtain ⟨-, htag, hasid⟩ := Tlb.hit_spec (fun _ h => .inr (.inr h)) hhit
      cases hperm : c.sysregs.accessPermitted e.attrs access true with
      | error f =>
        rw [hperm] at h
        cases h
      | ok u =>
        rw [hperm] at h
        cases h
        rw [pa_eq_pageAt, pageAt_effectiveVa, pageAt_pageAt]
        refine ⟨rfl, fun va' hpage => ?_⟩
        rw [pageAt_pageAt]
        exact translate_of_hot hmmu rfl htag hasid hperm rfl hpage
    | none =>
      rw [translateDataAddressFast_of_miss hmmu hhit] at h
      cases hwalk : c.sysregs.walkPageTables readDesc (c.effectiveVa va) access true true true with
      | error f =>
        rw [hwalk] at h
        cases h
      | ok result =>
        rw [hwalk] at h
        cases h
        rw [effectiveVa, SystemRegisters.walkPageTables_normalized] at hwalk
        obtain ⟨leaf, hleaf, -, rfl, hperm⟩ := SystemRegisters.walkPageTables_ok hwalk
        have hat : leaf = leaf.at (c.effectiveVa va) :=
          Except.ok.inj (hleaf.symm.trans (walkLeaf_of_page rfl hleaf))
        refine ⟨(congrArg Leaf.pa hat).trans (pageAt_effectiveVa leaf.pa), fun va' hpage => ?_⟩
        exact translate_of_filled hmmu rfl (hperm rfl) hpage
  · have hoff : ∀ c₁ : Cpu, c₁.sysregs = c.sysregs → ∀ va₁,
        c₁.translateDataAddressFast readDesc va₁ access =
          (.ok (stage1DisabledOutputPa (c.effectiveVa va₁)), c₁.clearFaultLatches) := by
      intro c₁ hc₁ va₁
      simp only [translateDataAddressFast, effectiveVa, hc₁, hmmu, Bool.not_false, if_true]
    rw [hoff c rfl va] at h
    cases h
    refine ⟨stage1DisabledOutputPa_eq_pageAt rfl, fun va' hpage => ?_⟩
    rw [hoff c.clearFaultLatches rfl, stage1DisabledOutputPa_eq_pageAt hpage]
    rfl

theorem finishTranslation_ok {α : Type} {outcome : Except TranslationFault α} {a : α}
    (h : c.finishTranslation outcome = (.ok a, c')) : outcome = .ok a ∧ c' = c := by
  cases outcome with
  | error f => cases h
  | ok b =>
    cases h
    exact ⟨rfl, rfl⟩

/-- A translation that succeeds leaves the fault latches clear. -/
theorem clearFaultLatches_of_translate
    (h : c.translateDataAddressFast readDesc va access = (.ok pa, c')) :
    c'.clearFaultLatches = c' := by
  rw [translateDataAddressFast] at h
  split at h
  · cases h
    rfl
  · split at h
    · rw [(finishTranslation_ok h).2]
      rfl
    · rw [(finishTranslation_ok h).2]
      generalize c.sysregs.walkPageTables readDesc (c.effectiveVa va) access true true true =
        outcome
      cases outcome <;> rfl

/-- Translation does not look at the exclusive monitor. -/
theorem translate_clearExclusive (c : Cpu) (readDesc : U64 → Option U64) (va : U64)
    (access : AccessType) :
    ({ c with exclusive := none } : Cpu).translateDataAddressFast readDesc va access =
      ((c.translateDataAddressFast readDesc va access).1,
        { (c.translateDataAddressFast readDesc va access).2 with exclusive := none }) := by
  by_cases hmmu : c.sysregs.mmuEnabled = true
  · cases hhit : c.tlbHit c.tlb.lastData va with
    | some e =>
      rw [translateDataAddressFast_of_hit hmmu hhit,
        @translateDataAddressFast_of_hit { c with exclusive := none } _ _ _ _ hmmu hhit]
      dsimp only
      generalize c.sysregs.accessPermitted e.attrs access true = permitted
      cases permitted <;> rfl
    | none =>
      rw [translateDataAddressFast_of_miss hmmu hhit,
        @translateDataAddressFast_of_miss { c with exclusive := none } _ _ _ hmmu hhit]
      have hva : ({ c with exclusive := none } : Cpu).effectiveVa va = c.effectiveVa va := rfl
      dsimp only
      rw [hva]
      generalize c.sysregs.walkPageTables readDesc (c.effectiveVa va) access true true true =
        outcome
      cases outcome <;> rfl
  · simp only [translateDataAddressFast, hmmu, Bool.not_false, if_true]
    rfl

end Cpu
end Aarchvm
