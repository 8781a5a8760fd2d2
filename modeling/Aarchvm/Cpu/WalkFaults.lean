import Aarchvm.Cpu.WalkReads

/-!
# Faults and permissions of a walk

A walk ends at the last descriptor it reads: this one and the tables above it decide
the fault, its level and its priority. The restrictions of the table descriptors
accumulate, and the access flag comes before the permissions.
-/
namespace Aarchvm

/-! ## What the last descriptor decides -/

/-- A descriptor that names a table of the next level. -/
def isTable (level : Nat) (desc : U64) : Bool := level != 3 && desc.getLsbD 0 && desc.getLsbD 1

/-- An invalid descriptor, or one of an encoding reserved at levels 0 and 3. -/
def isInvalid (level : Nat) (desc : U64) : Bool :=
  !desc.getLsbD 0 || (!desc.getLsbD 1 && (level == 0 || level == 3))

/-- The address that a descriptor holds, of the next table or of the block or page. -/
def outputBase (level : Nat) (desc : U64) : U64 :=
  if isTable level desc then desc &&& kTableAddrMask
  else desc &&& kTableAddrMask &&& ~~~lowMask (indexShift level)

/-- The first fault of the last descriptor of a walk, permissions left out; `none` is a descriptor
that could not be read. -/
def descriptorFault (ipsBits level : Nat) (write : Bool) : Option U64 → Option TranslationFault
  | none => some ⟨.externalAbortOnWalk, level, write⟩
  | some desc =>
    if isInvalid level desc then some ⟨.translation, level, write⟩
    else if !paWithinIps (outputBase level desc) ipsBits then some ⟨.addressSize, level, write⟩
    else if !desc.getLsbD 10 then some ⟨.accessFlag, level, write⟩
    else none

/-- The permissions of a block or page, restricted by the tables above it. -/
structure PagePermissions where
  el0Access : Bool
  writable : Bool
  pxn : Bool
  uxn : Bool

def effectivePermissions (tcr : U64) (tables : List U64) (desc : U64) : PagePermissions where
  el0Access := desc.getLsbD 6 && tables.all fun t => !t.getLsbD 61
  writable := (!desc.getLsbD 7 || (desc.getLsbD 51 && dirtyStateHwUpdateEnabled tcr)) &&
    tables.all fun t => !t.getLsbD 62
  pxn := desc.getLsbD 53 || tables.any fun t => t.getLsbD 59
  uxn := desc.getLsbD 54 || tables.any fun t => t.getLsbD 60

/-- Execution depends on PXN or UXN and on WXN over what the level can write, a data access on the
EL0 access bit, PAN and the write permission. -/
def PagePermissions.permits (p : PagePermissions) (r : SystemRegisters) (access : AccessType)
    (applyPan : Bool) : Bool :=
  let wxn := r.sctlrEl1.getLsbD 19
  if access = .fetch then
    if r.inEl0 then !(p.uxn || (wxn && (p.el0Access && p.writable)))
    else !(p.pxn || (wxn && p.writable))
  else
    (!access.isWrite || p.writable) &&
      if r.inEl0 || access.isUnprivileged then p.el0Access
      else !(applyPan && r.pstate.pan && p.el0Access)

/-! ## The end of the loop -/

/-- The loop body at the last descriptor. -/
def lastStep (tcr mair va : U64) (write : Bool) (level : Nat) (inherited : TableAttrs) :
    Option U64 → LevelStep
  | none => .done (.error ⟨.externalAbortOnWalk, level, write⟩)
  | some desc => walkLevel tcr mair va write level desc inherited

section Levels

variable {tcr mair va : U64} {readDesc : U64 → Option U64} {write : Bool}

/-- The loop body by the kind of the descriptor. -/
theorem walkLevel_eq (level : Nat) (desc : U64) (inherited : TableAttrs) :
    walkLevel tcr mair va write level desc inherited =
      if isInvalid level desc then .done (.error ⟨.translation, level, write⟩)
      else if isTable level desc then
        if paWithinIps (outputBase level desc) (decodeIpsBits tcr) then
          .table (desc &&& kTableAddrMask) (inherited.inherit desc)
        else .done (.error ⟨.addressSize, level, write⟩)
      else .done (leafOf tcr mair va write level desc inherited) := by
  by_cases hvalid : desc.getLsbD 0 = true
  · by_cases hbit : desc.getLsbD 1 = true
    · simp only [walkLevel, outputBase, isInvalid, isTable, hvalid, hbit]
      by_cases h3 : level = 3 <;> simp [h3]
    · rw [Bool.not_eq_true] at hbit
      simp only [walkLevel, outputBase, isInvalid, isTable, hvalid, hbit]
      by_cases h3 : level = 3
      · simp [h3]
      · by_cases h0 : level = 0 <;> simp [h0, h3]
  · rw [Bool.not_eq_true] at hvalid
    simp only [walkLevel, isInvalid, hvalid]
    rfl

theorem walkLevel_isTable {level : Nat} {desc base : U64} {inherited attrs : TableAttrs}
    (h : walkLevel tcr mair va write level desc inherited = .table base attrs) :
    isTable level desc = true ∧ paWithinIps (outputBase level desc) (decodeIpsBits tcr) = true := by
  rw [walkLevel_eq] at h
  split_ifs at h with _ htable hips
  exact ⟨htable, hips⟩

/-- The walk goes through table descriptors to the last descriptor, which ends it with the
restrictions of the tables. -/
theorem walkLevelsReads_ends (n : Nat) (hn : n < 4) (base : U64) (inherited : TableAttrs) :
    ∃ (tables : List U64) (last : Option U64),
      (walkLevelsReads tcr mair readDesc va write (n + 1) base inherited).1.map readDesc =
        tables.map some ++ [last] ∧
      tables.length ≤ n ∧
      (∀ i t, tables[i]? = some t → isTable (3 - n + i) t = true ∧
        paWithinIps (outputBase (3 - n + i) t) (decodeIpsBits tcr) = true) ∧
      lastStep tcr mair va write (3 - n + tables.length) (tables.foldl TableAttrs.inherit inherited)
        last = .done (walkLevelsReads tcr mair readDesc va write (n + 1) base inherited).2 := by
  induction n generalizing base inherited with
  | zero =>
    cases hd : readDesc (base + tableIndex va (3 - 0) * 8) with
    | none =>
      rw [walkLevelsReads_of_none hd]
      exact ⟨[], none, congrArg (fun d => [d]) hd, Nat.le_refl 0, nofun, rfl⟩
    | some desc =>
      cases hstep : walkLevel tcr mair va write (3 - 0) desc inherited with
      | done result =>
        rw [walkLevelsReads_of_done hd hstep]
        exact ⟨[], some desc, congrArg (fun d => [d]) hd, Nat.le_refl 0, nofun, hstep⟩
      | table base' attrs =>
        have htable := (walkLevel_isTable hstep).1
        simp [isTable] at htable
  | succ n ih =>
    cases hd : readDesc (base + tableIndex va (3 - (n + 1)) * 8) with
    | none =>
      rw [walkLevelsReads_of_none hd]
      exact ⟨[], none, congrArg (fun d => [d]) hd, Nat.zero_le _, nofun, rfl⟩
    | some desc =>
      cases hstep : walkLevel tcr mair va write (3 - (n + 1)) desc inherited with
      | done result =>
        rw [walkLevelsReads_of_done hd hstep]
        exact ⟨[], some desc, congrArg (fun d => [d]) hd, Nat.zero_le _, nofun, hstep⟩
      | table base' attrs =>
        obtain ⟨-, rfl⟩ := walkLevel_table hstep
        obtain ⟨tables, last, hreads, hlen, htables, hlast⟩ :=
          ih (by omega) base' (inherited.inherit desc)
        have hlevel : ∀ i, 3 - (n + 1) + (i + 1) = 3 - n + i := by omega
        rw [walkLevelsReads_of_table hd hstep]
        refine ⟨desc :: tables, last, ?_, Nat.succ_le_succ hlen, ?_, ?_⟩
        · rw [List.map_cons, hd, hreads, List.map_cons, List.cons_append]
        · intro i t hi
          cases i with
          | zero =>
            rw [List.getElem?_cons_zero, Option.some_inj] at hi
            rw [← hi]
            exact walkLevel_isTable hstep
          | succ i =>
            rw [List.getElem?_cons_succ] at hi
            rw [hlevel i]
            exact htables i t hi
        · rw [List.length_cons, hlevel, List.foldl_cons, hlast]

/-- A block or page descriptor gives an address size fault or the leaf. -/
theorem leafOf_done {level : Nat} {desc : U64} {inherited : TableAttrs}
    (hvalid : isInvalid level desc = false) (htable : isTable level desc = false) :
    (∃ f, leafOf tcr mair va write level desc inherited = .error f ∧
      descriptorFault (decodeIpsBits tcr) level write (some desc) = some f) ∨
    leafOf tcr mair va write level desc inherited = .ok ⟨outputAddress level desc va,
        leafAttrs tcr mair (va.getLsbD 63) level desc inherited, desc.getLsbD 10⟩ ∧
      descriptorFault (decodeIpsBits tcr) level write (some desc) =
        if !desc.getLsbD 10 then some ⟨.accessFlag, level, write⟩ else none := by
  have hbase :
    outputBase level desc = desc &&& kTableAddrMask &&& ~~~lowMask (indexShift level) := by
    rw [outputBase, htable, if_neg Bool.false_ne_true]
  have hshift : 12 + 9 * (3 - level) = indexShift level := rfl
  simp only [leafOf, hshift, ← hbase, descriptorFault, hvalid, Bool.false_eq_true, if_false]
  cases hips : paWithinIps (outputBase level desc) (decodeIpsBits tcr) with
  | false => exact .inl ⟨_, rfl, rfl⟩
  | true =>
    refine .inr ⟨?_, rfl⟩
    rw [if_pos rfl, outputAddress, hbase]

/-- The last descriptor of a walk has a fault, or it is the leaf. -/
theorem lastStep_done {level : Nat} {inherited : TableAttrs} {last : Option U64}
    {result : Except TranslationFault Leaf}
    (h : lastStep tcr mair va write level inherited last = .done result) :
    (∃ f, result = .error f ∧ descriptorFault (decodeIpsBits tcr) level write last = some f) ∨
    ∃ desc, last = some desc ∧ isTable level desc = false ∧
      result = .ok ⟨outputAddress level desc va,
        leafAttrs tcr mair (va.getLsbD 63) level desc inherited, desc.getLsbD 10⟩ ∧
      descriptorFault (decodeIpsBits tcr) level write last =
        if !desc.getLsbD 10 then some ⟨.accessFlag, level, write⟩ else none := by
  cases last with
  | none => exact .inl ⟨_, (LevelStep.done.inj h).symm, rfl⟩
  | some desc =>
    rw [lastStep, walkLevel_eq] at h
    split_ifs at h with hinvalid htable hips
    · refine .inl ⟨_, (LevelStep.done.inj h).symm, ?_⟩
      rw [descriptorFault, if_pos hinvalid]
    · refine .inl ⟨_, (LevelStep.done.inj h).symm, ?_⟩
      rw [descriptorFault, if_neg hinvalid, if_pos (by simpa using hips)]
    · rw [Bool.not_eq_true] at hinvalid htable
      obtain rfl := LevelStep.done.inj h
      obtain hfault | ⟨hok, hfault⟩ := @leafOf_done tcr mair va write level desc inherited
        hinvalid htable
      · exact .inl hfault
      · exact .inr ⟨desc, rfl, htable, hok, hfault⟩

end Levels

/-! ## Permissions -/

/-- The restrictions of the tables accumulate. -/
theorem foldl_inherit (tables : List U64) (t : TableAttrs) :
    tables.foldl TableAttrs.inherit t =
      { writeProtect := t.writeProtect || tables.any fun d => d.getLsbD 62
        userNoAccess := t.userNoAccess || tables.any fun d => d.getLsbD 61
        pxn := t.pxn || tables.any fun d => d.getLsbD 59
        uxn := t.uxn || tables.any fun d => d.getLsbD 60 } := by
  induction tables generalizing t with
  | nil => simp only [List.foldl_nil, List.any_nil, Bool.or_false]
  | cons d tables ih =>
    simp only [List.foldl_cons, ih, List.any_cons, TableAttrs.inherit, Bool.or_assoc]

/-- The cached attributes of a leaf hold its effective permissions. -/
theorem leafAttrs_permissions (tcr mair : U64) (vaUpper : Bool) (level : Nat) (desc : U64)
    (tables : List U64) :
    (leafAttrs tcr mair vaUpper level desc (tables.foldl TableAttrs.inherit {})).userAccessible =
        (effectivePermissions tcr tables desc).el0Access ∧
      (leafAttrs tcr mair vaUpper level desc (tables.foldl TableAttrs.inherit {})).writable =
        (effectivePermissions tcr tables desc).writable ∧
      (leafAttrs tcr mair vaUpper level desc (tables.foldl TableAttrs.inherit {})).pxn =
        (effectivePermissions tcr tables desc).pxn ∧
      (leafAttrs tcr mair vaUpper level desc (tables.foldl TableAttrs.inherit {})).uxn =
        (effectivePermissions tcr tables desc).uxn := by
  have hall : ∀ k, (tables.all fun t => !t.getLsbD k) = !tables.any fun t => t.getLsbD k := by
    intro k
    rw [List.all_eq_not_any_not]
    simp
  simp only [leafAttrs, effectivePermissions, foldl_inherit, hall, Bool.false_or]
  refine ⟨Bool.and_comm _ _, ?_, trivial, trivial⟩
  cases desc.getLsbD 7 <;> cases desc.getLsbD 51 <;> cases dirtyStateHwUpdateEnabled tcr <;> simp

namespace SystemRegisters

/-- `access_permitted` decides as the effective permissions say, for a fetch from EL0 if EL0 has
data access. -/
theorem accessPermitted_eq (r : SystemRegisters) (a : LeafAttrs) (p : PagePermissions)
    (access : AccessType) (applyPan : Bool) (hu : a.userAccessible = p.el0Access)
    (hw : a.writable = p.writable) (hp : a.pxn = p.pxn) (hx : a.uxn = p.uxn)
    (hfetch : access = .fetch → r.inEl0 = true → p.el0Access = true) :
    r.accessPermitted a access applyPan =
      if p.permits r access applyPan then .ok ()
      else .error ⟨.permission, a.level, access.isWrite⟩ := by
  by_cases hf : access = .fetch
  · subst hf
    have hun : AccessType.fetch.isUnprivileged = false := rfl
    have hwr : AccessType.fetch.isWrite = false := rfl
    simp only [accessPermitted, PagePermissions.permits, hu, hw, hp, hx, hun, hwr, Bool.or_false]
    generalize r.sctlrEl1.getLsbD 19 = wxn
    cases hel0 : r.inEl0 with
    | false => cases p.pxn <;> cases wxn <;> cases p.writable <;> simp
    | true =>
      rw [hfetch rfl hel0]
      cases p.uxn <;> cases wxn <;> cases p.writable <;> simp
  · simp only [accessPermitted, PagePermissions.permits, hu, hw, hf, false_and, if_false]
    generalize (r.inEl0 || access.isUnprivileged) = el0
    generalize r.pstate.pan = pan
    cases el0 <;> cases access.isWrite <;> cases p.el0Access <;> cases p.writable <;>
      cases applyPan <;> cases pan <;> simp [hf]

end SystemRegisters

/-! ## The walk -/

/-- The walk of `va` passed `tables` and ended at `last`. -/
structure EndsAt (r : SystemRegisters) (va : U64) (access : AccessType) (applyPan : Bool)
    (level : Nat) (tables : List U64) (last : Option U64)
    (result : Except TranslationFault TranslationResult) : Prop where
  fault : ∀ f, descriptorFault (decodeIpsBits r.tcrEl1) level access.isWrite last = some f →
    result = .error f
  leaf : ∀ desc, last = some desc →
    descriptorFault (decodeIpsBits r.tcrEl1) level access.isWrite last = none →
    isTable level desc = false ∧
      ((access = .fetch → r.inEl0 = true →
          (effectivePermissions r.tcrEl1 tables desc).el0Access = true) →
        if (effectivePermissions r.tcrEl1 tables desc).permits r access applyPan then
          ∃ t, result = .ok t ∧ t.pa = outputAddress level desc va
        else result = .error ⟨.permission, level, access.isWrite⟩)

/-- The faults and permissions of a walk of the effective address `va`. Left open is the fetch from
EL0 of a page to which EL0 has no data access. -/
structure WalkRules (r : SystemRegisters) (readDesc : U64 → Option U64) (va : U64)
    (access : AccessType) (applyPan : Bool)
    (result : Except TranslationFault TranslationResult) : Prop where
  unsupportedSize : ¬ SizeSupported r.tcrEl1 va → result = .error ⟨.addressSize, 0, access.isWrite⟩
  disabled : SizeSupported r.tcrEl1 va →
    ¬ GranuleSupported r.tcrEl1 va ∨ walksDisabled r.tcrEl1 va = true →
    result = .error ⟨.translation, 0, access.isWrite⟩
  outOfRange : SizeSupported r.tcrEl1 va → GranuleSupported r.tcrEl1 va →
    walksDisabled r.tcrEl1 va = false → ¬ TagRepeats r.tcrEl1 va →
    result = .error ⟨.addressSize, 0, access.isWrite⟩
  firstTable : InRange r.tcrEl1 va →
    paWithinIps (r.ttbr va &&& kTableAddrMask) (decodeIpsBits r.tcrEl1) = false →
    result = .error ⟨.addressSize, 0, access.isWrite⟩
  descriptors : InRange r.tcrEl1 va →
    paWithinIps (r.ttbr va &&& kTableAddrMask) (decodeIpsBits r.tcrEl1) = true →
    ∃ (tables : List U64) (last : Option U64),
      (r.walkLeafReads readDesc va access.isWrite).1.map readDesc = tables.map some ++ [last] ∧
      (∀ i t, tables[i]? = some t →
        isTable (startLevel (inputBits r.tcrEl1 va) + i) t = true ∧
        paWithinIps (outputBase (startLevel (inputBits r.tcrEl1 va) + i) t)
          (decodeIpsBits r.tcrEl1) = true) ∧
      startLevel (inputBits r.tcrEl1 va) + tables.length ≤ 3 ∧
      EndsAt r va access applyPan (startLevel (inputBits r.tcrEl1 va) + tables.length) tables last
        result

namespace SystemRegisters

variable {r : SystemRegisters} {readDesc : U64 → Option U64} {va : U64} {access : AccessType}
  {applyPan : Bool}

theorem walkPageTables_of_walkLeaf_error {f : TranslationFault}
    (h : walkLeaf r.regime readDesc (normalizeStage1Address r.tcrEl1 va) access.isWrite =
      .error f) : r.walkPageTables readDesc va access true applyPan true = .error f := by
  simp only [walkPageTables, h]

theorem walkLeaf_of_walkSetup_error {write : Bool} {f : TranslationFault}
    (h : walkSetup r.tcrEl1 va write = .error f) :
    walkLeaf r.regime readDesc va write = .error f := by
  have htcr : r.regime.tcr = r.tcrEl1 := rfl
  rw [walkLeaf, htcr, h]

/-- The last descriptor decides the walk. -/
theorem endsAt_of_lastStep {level : Nat} {tables : List U64} {last : Option U64}
    {leaf : Except TranslationFault Leaf}
    (hleaf : walkLeaf r.regime readDesc (normalizeStage1Address r.tcrEl1 va) access.isWrite = leaf)
    (h : lastStep r.tcrEl1 r.mairEl1 (normalizeStage1Address r.tcrEl1 va) access.isWrite level
      (tables.foldl TableAttrs.inherit {}) last = .done leaf) :
    EndsAt r (normalizeStage1Address r.tcrEl1 va) access applyPan level tables last
      (r.walkPageTables readDesc va access true applyPan true) := by
  obtain ⟨f, rfl, hfault⟩ | ⟨desc, rfl, htable, rfl, hfault⟩ := lastStep_done h
  · refine ⟨?_, ?_⟩
    · intro f' hf'
      rw [hfault] at hf'
      cases hf'
      exact walkPageTables_of_walkLeaf_error hleaf
    · intro desc _ hnone
      rw [hfault] at hnone
      cases hnone
  · obtain ⟨hu, hw, hp, hx⟩ := leafAttrs_permissions r.tcrEl1 r.mairEl1
      ((normalizeStage1Address r.tcrEl1 va).getLsbD 63) level desc tables
    have hlevel : (leafAttrs r.tcrEl1 r.mairEl1 ((normalizeStage1Address r.tcrEl1 va).getLsbD 63)
      level desc (tables.foldl TableAttrs.inherit {})).level = level := rfl
    generalize leafAttrs r.tcrEl1 r.mairEl1 _ level desc _ = attrs at hleaf hu hw hp hx hlevel
    refine ⟨?_, ?_⟩
    · intro f hf
      rw [hfault] at hf
      split_ifs at hf with haf
      cases hf
      simp only [walkPageTables, hleaf, haf, Bool.and_self, if_true, hlevel]
    · intro desc' hdesc hnone
      obtain rfl := Option.some.inj hdesc
      rw [hfault] at hnone
      split_ifs at hnone with haf
      refine ⟨htable, fun hfetch => ?_⟩
      simp only [walkPageTables, hleaf, haf, Bool.and_false, Bool.false_eq_true, if_false, if_true]
      rw [accessPermitted_eq r attrs _ access applyPan hu hw hp hx hfetch, hlevel]
      split_ifs
      · exact ⟨_, rfl, rfl⟩
      · rfl

theorem walkPageTables_descriptors (h : InRange r.tcrEl1 (normalizeStage1Address r.tcrEl1 va))
    (hips : paWithinIps (r.ttbr (normalizeStage1Address r.tcrEl1 va) &&& kTableAddrMask)
      (decodeIpsBits r.tcrEl1) = true) :
    let effectiveVa := normalizeStage1Address r.tcrEl1 va
    let start := startLevel (inputBits r.tcrEl1 effectiveVa)
    ∃ (tables : List U64) (last : Option U64),
      (r.walkLeafReads readDesc effectiveVa access.isWrite).1.map readDesc =
        tables.map some ++ [last] ∧
      (∀ i t, tables[i]? = some t → isTable (start + i) t = true ∧
        paWithinIps (outputBase (start + i) t) (decodeIpsBits r.tcrEl1) = true) ∧
      start + tables.length ≤ 3 ∧
      EndsAt r effectiveVa access applyPan (start + tables.length) tables last
        (r.walkPageTables readDesc va access true applyPan true) := by
  intro effectiveVa start
  obtain ⟨hstart, hlo, hhi⟩ : start = 4 - walkLevelCount (inputBits r.tcrEl1 effectiveVa) ∧
      2 ≤ walkLevelCount (inputBits r.tcrEl1 effectiveVa) ∧
      walkLevelCount (inputBits r.tcrEl1 effectiveVa) ≤ 4 := startLevel_eq h.size.inputBits_le
  obtain ⟨n, hn⟩ : ∃ n, walkLevelCount (inputBits r.tcrEl1 effectiveVa) = n + 1 :=
    ⟨walkLevelCount (inputBits r.tcrEl1 effectiveVa) - 1, by omega⟩
  have hlevel : 3 - n = start := by omega
  have hreads := @walkLeafReads_of_inRange r readDesc effectiveVa h access.isWrite
  rw [if_pos hips, hn] at hreads
  obtain ⟨tables, last, hmap, hlen, htables, hlast⟩ := @walkLevelsReads_ends r.tcrEl1
    r.mairEl1 effectiveVa readDesc access.isWrite n (by omega)
    (r.ttbr effectiveVa &&& kTableAddrMask) {}
  rw [hlevel] at htables hlast
  rw [← hreads] at hmap hlast
  rw [r.walkLeafReads_snd] at hlast
  exact ⟨tables, last, hmap, htables, by omega, endsAt_of_lastStep rfl hlast⟩

end SystemRegisters

/-- Every walk keeps the rules. -/
theorem walkPageTables_rules (r : SystemRegisters) (readDesc : U64 → Option U64) (va : U64)
    (access : AccessType) (applyPan : Bool) :
    WalkRules r readDesc (normalizeStage1Address r.tcrEl1 va) access applyPan
      (r.walkPageTables readDesc va access true applyPan true) where
  unsupportedSize := by
    intro hsize
    apply SystemRegisters.walkPageTables_of_walkLeaf_error
    apply SystemRegisters.walkLeaf_of_walkSetup_error
    rw [walkSetup_eq, if_pos hsize]
  disabled := by
    intro hsize hdisabled
    apply SystemRegisters.walkPageTables_of_walkLeaf_error
    apply SystemRegisters.walkLeaf_of_walkSetup_error
    rw [walkSetup_eq, if_neg (not_not.2 hsize)]
    by_cases hgranule : GranuleSupported r.tcrEl1 (normalizeStage1Address r.tcrEl1 va)
    · rw [if_neg (not_not.2 hgranule), if_pos (hdisabled.resolve_left (not_not.2 hgranule))]
    · rw [if_pos hgranule]
  outOfRange := by
    intro hsize hgranule henabled htag
    apply SystemRegisters.walkPageTables_of_walkLeaf_error
    apply SystemRegisters.walkLeaf_of_walkSetup_error
    rw [walkSetup_eq, if_neg (not_not.2 hsize), if_neg (not_not.2 hgranule), henabled,
      if_neg Bool.false_ne_true, if_pos htag]
  firstTable := by
    intro h hips
    apply SystemRegisters.walkPageTables_of_walkLeaf_error
    rw [← SystemRegisters.walkLeafReads_snd, SystemRegisters.walkLeafReads_of_inRange h, hips,
      if_neg Bool.false_ne_true]
  descriptors := fun h hips => SystemRegisters.walkPageTables_descriptors h hips

/-- A half of 39 bits, from EL1. -/
def lowerHalf39 : SystemRegisters :=
  { SystemRegisters.reset with tcrEl1 := 0x19, ttbr0El1 := 0x1000 }

/-- An address beyond the 39 bits gives an address size fault, EL1 executes a block that EL0 can
write, and EL0 does not execute a block without UXN, with WXN off, that it may not read. -/
theorem lowerHalf39_not_architectural :
    ¬ (∀ (r : SystemRegisters) (readDesc : U64 → Option U64) (va : U64) (access : AccessType),
        ¬ TagRepeats r.tcrEl1 (normalizeStage1Address r.tcrEl1 va) →
        r.walkPageTables readDesc va access true true true =
          .error ⟨.translation, 0, access.isWrite⟩) ∧
      (∃ t, lowerHalf39.inEl0 = false ∧ t.attrs.userAccessible = true ∧ t.attrs.writable = true ∧
        lowerHalf39.walkPageTables (fun _ => some 0x441) 0 .fetch true true true = .ok t) ∧
      ∃ r : SystemRegisters, r.inEl0 = true ∧ r.sctlrEl1.getLsbD 19 = false ∧
        r.walkPageTables (fun _ => some 0x401) 0 .fetch true true true =
          .error ⟨.permission, 1, false⟩ := by
  refine ⟨?_, ⟨_, rfl, rfl, rfl, rfl⟩, ?_⟩
  · intro hall
    have h := hall lowerHalf39 (fun _ => none) 0x8000000000 .read (by decide)
    exact absurd h (by decide)
  · exact ⟨{ lowerHalf39 with pstate := { mode := 0 } }, rfl, rfl, rfl⟩

end Aarchvm
