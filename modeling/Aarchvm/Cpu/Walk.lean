import Aarchvm.Cpu.State

/-!
# Translation table walk

`walk_page_tables` for the 4 KiB granule. A walk depends on TCR_EL1, MAIR_EL1 and
the two table bases, and on the descriptors it reads; `readDesc` is the 8-byte bus
read of a descriptor. Access flag and permissions are checked on the leaf.
-/
namespace Aarchvm

inductive AccessType where
  | fetch | read | write | unprivilegedRead | unprivilegedWrite
  deriving DecidableEq, Repr

def AccessType.isWrite : AccessType → Bool
  | .write | .unprivilegedWrite => true
  | _ => false

def AccessType.isUnprivileged : AccessType → Bool
  | .unprivilegedRead | .unprivilegedWrite => true
  | _ => false

/-- Bits `[lo + n - 1 : lo]` as a number. -/
def field (x : U64) (lo n : Nat) : Nat := (x.extractLsb' lo n).toNat

/-- `decode_ips_bits`. -/
def decodeIpsBits (tcr : U64) : Nat :=
  match field tcr 32 3 with
  | 0 => 32
  | 1 => 36
  | 2 => 40
  | 3 => 42
  | 4 => 44
  | 5 => 48
  | 6 => 52
  | _ => 48

def paWithinIps (pa : U64) (ipsBits : Nat) : Bool :=
  if 64 ≤ ipsBits then true else pa >>> ipsBits == 0

/-- `decode_walk_attributes`. -/
def decodeWalkAttributes (tcr : U64) (vaUpper : Bool) : WalkAttributes where
  inner := if vaUpper then tcr.extractLsb' 24 2 else tcr.extractLsb' 8 2
  outer := if vaUpper then tcr.extractLsb' 26 2 else tcr.extractLsb' 10 2
  shareability := if vaUpper then tcr.extractLsb' 28 2 else tcr.extractLsb' 12 2
  ipsBits := decodeIpsBits tcr

/-- `decode_memory_type`. -/
def decodeMemoryType (mairAttr : U8) : MemoryType :=
  if mairAttr &&& 0xF0 = 0x00 then .device else .normal

def dirtyStateHwUpdateEnabled (tcr : U64) : Bool := tcr.getLsbD 40

/-- `TableAttrs`: restrictions inherited from the table descriptors above. -/
structure TableAttrs where
  writeProtect : Bool := false
  userNoAccess : Bool := false
  pxn : Bool := false
  uxn : Bool := false

def TableAttrs.inherit (t : TableAttrs) (desc : U64) : TableAttrs where
  writeProtect := t.writeProtect || desc.getLsbD 62
  userNoAccess := t.userNoAccess || desc.getLsbD 61
  uxn := t.uxn || desc.getLsbD 60
  pxn := t.pxn || desc.getLsbD 59

def kTableAddrMask : U64 := 0x0000FFFFFFFFF000

/-- The registers a walk depends on, the table bases masked. -/
structure Regime where
  tcr : U64
  mair : U64
  base0 : U64
  base1 : U64

structure Leaf where
  pa : U64
  attrs : LeafAttrs
  /-- the descriptor's access flag -/
  af : Bool
  deriving DecidableEq, Repr

/-- The attributes of a leaf descriptor. -/
def leafAttrs (tcr mair : U64) (vaUpper : Bool) (level : Nat) (desc : U64)
    (inherited : TableAttrs) :
    LeafAttrs :=
  let leafRo := desc.getLsbD 7
  let dbmWriteable := leafRo && desc.getLsbD 51 && dirtyStateHwUpdateEnabled tcr
  let attrIndex := field desc 2 3
  let mairAttr := (mair >>> (attrIndex * 8)).setWidth 8
  let pxn := desc.getLsbD 53 || inherited.pxn
  { level := level
    attrIndex := attrIndex
    mairAttr := mairAttr
    globalEntry := !desc.getLsbD 11
    writable := !(inherited.writeProtect || (leafRo && !dbmWriteable))
    userAccessible := !inherited.userNoAccess && desc.getLsbD 6
    executable := !pxn
    pxn := pxn
    uxn := desc.getLsbD 54 || inherited.uxn
    memoryType := decodeMemoryType mairAttr
    leafShareability := desc.extractLsb' 8 2
    walkAttrs := decodeWalkAttributes tcr vaUpper }

/-- The page or block that a leaf descriptor of `level` maps. At level 3 the block mask is
the page offset mask. -/
def leafOf (tcr mair va : U64) (write : Bool) (level : Nat) (desc : U64) (inherited : TableAttrs) :
    Except TranslationFault Leaf :=
  let vaUpper := va.getLsbD 63
  let blockMask := lowMask (12 + 9 * (3 - level))
  let paBase := desc &&& kTableAddrMask &&& ~~~blockMask
  if paWithinIps paBase (decodeIpsBits tcr) then
    .ok ⟨paBase ||| (va &&& blockMask), leafAttrs tcr mair vaUpper level desc inherited,
      desc.getLsbD 10⟩
  else .error ⟨.addressSize, level, write⟩

/-- The descriptor index at a level. -/
def tableIndex (va : U64) (level : Nat) : U64 := (va >>> (39 - 9 * level)) &&& 0x1FF

/-- The loop over the levels; `n` levels are left, the current one is `4 - n`. -/
def walkLevels (tcr mair : U64) (readDesc : U64 → Option U64) (va : U64) (write : Bool) :
    (n : Nat) → (tableBase : U64) → (inherited : TableAttrs) → Except TranslationFault Leaf
  | 0, _, _ => .error ⟨.translation, 0, false⟩
  | n + 1, tableBase, inherited =>
    let level := 3 - n
    match readDesc (tableBase + tableIndex va level * 8) with
    | none => .error ⟨.externalAbortOnWalk, level, write⟩
    | some desc =>
      if !desc.getLsbD 0 then .error ⟨.translation, level, write⟩
      else if level = 3 then
        if !desc.getLsbD 1 then .error ⟨.translation, level, write⟩
        else leafOf tcr mair va write level desc inherited
      else if desc.getLsbD 1 then
        if paWithinIps (desc &&& kTableAddrMask) (decodeIpsBits tcr) then
          walkLevels tcr mair readDesc va write n (desc &&& kTableAddrMask) (inherited.inherit desc)
        else .error ⟨.addressSize, level, write⟩
      else if level = 0 then .error ⟨.translation, level, write⟩
      else leafOf tcr mair va write level desc inherited

/-- The checks on TCR_EL1 and the address before the first table is read; the result is the
number of address bits. -/
def walkSetup (tcr va : U64) (write : Bool) : Except TranslationFault Nat :=
  let vaUpper := va.getLsbD 63
  let txsz := if vaUpper then field tcr 16 6 else field tcr 0 6
  let tg := if vaUpper then field tcr 30 2 else field tcr 14 2
  let epd := if vaUpper then tcr.getLsbD 23 else tcr.getLsbD 7
  let vaBits := 64 - txsz
  let lowLimit := lowMask vaBits
  if 39 < txsz then .error ⟨.addressSize, 0, write⟩
  else if vaBits < 12 ∨ 48 < vaBits then .error ⟨.addressSize, 0, write⟩
  else if (!vaUpper && tg != 0) || (vaUpper && tg != 2) then .error ⟨.translation, 0, write⟩
  else if epd then .error ⟨.translation, 0, write⟩
  else if !vaUpper && decide (lowLimit < va) then .error ⟨.addressSize, 0, write⟩
  else if vaUpper && va &&& ~~~lowLimit != ~~~lowLimit then .error ⟨.addressSize, 0, write⟩
  else .ok vaBits

/-- The number of levels for an address of `vaBits` bits. -/
def walkLevelCount (vaBits : Nat) : Nat := if vaBits ≤ 12 then 1 else (vaBits - 12 + 8) / 9

/-- A walk of the normalised address `va` up to the leaf, access flag and permissions not
checked. -/
def walkLeaf (r : Regime) (readDesc : U64 → Option U64) (va : U64) (write : Bool) :
    Except TranslationFault Leaf :=
  match walkSetup r.tcr va write with
  | .error f => .error f
  | .ok vaBits =>
    let tableBase := if va.getLsbD 63 then r.base1 else r.base0
    if paWithinIps tableBase (decodeIpsBits r.tcr) then
      walkLevels r.tcr r.mair readDesc va write (walkLevelCount vaBits) tableBase {}
    else .error ⟨.addressSize, 0, write⟩

namespace SystemRegisters

def regime (r : SystemRegisters) : Regime where
  tcr := r.tcrEl1
  mair := r.mairEl1
  base0 := r.ttbr0El1 &&& kTableAddrMask
  base1 := r.ttbr1El1 &&& kTableAddrMask

/-- `mmu_asid_mask`; ID_AA64MMFR0_EL1.ASIDBits is 0. -/
def mmuAsidMask : U16 := 0x00FF

def ttbrAsid (ttbr : U64) : U16 := (ttbr >>> 48).setWidth 16 &&& mmuAsidMask

/-- `current_translation_asid`, which ignores its parameter. -/
def currentTranslationAsid (r : SystemRegisters) : U16 :=
  ttbrAsid (if r.tcrEl1.getLsbD 22 then r.ttbr1El1 else r.ttbr0El1)

/-- `access_permitted`; the level of the fault is that of the leaf. -/
def accessPermitted (r : SystemRegisters) (a : LeafAttrs) (access : AccessType) (applyPan : Bool) :
    Except TranslationFault Unit :=
  let fault (write : Bool) : Except TranslationFault Unit := .error ⟨.permission, a.level, write⟩
  let useEl0Permissions := r.inEl0 || access.isUnprivileged
  let wxn := r.sctlrEl1.getLsbD 19
  let executeBlocked :=
    if useEl0Permissions then a.uxn || (wxn && a.userAccessible && a.writable)
    else a.pxn || (wxn && a.writable)
  if useEl0Permissions && !a.userAccessible then fault access.isWrite
  else if applyPan && !useEl0Permissions && access != .fetch && r.pstate.pan &&
      a.userAccessible then
    fault access.isWrite
  else if access.isWrite && !a.writable then fault true
  else if access = .fetch ∧ executeBlocked = true then fault false
  else .ok ()

/-- `walk_page_tables`, with its flags for the permission and access flag checks. -/
def walkPageTables (r : SystemRegisters) (readDesc : U64 → Option U64) (va : U64)
    (access : AccessType) (checkPermissions applyPan checkAccessFlag : Bool) :
    Except TranslationFault TranslationResult :=
  let effectiveVa := normalizeStage1Address r.tcrEl1 va
  match walkLeaf r.regime readDesc effectiveVa access.isWrite with
  | .error f => .error f
  | .ok leaf =>
    if checkAccessFlag && !leaf.af then .error ⟨.accessFlag, leaf.attrs.level, access.isWrite⟩
    else
      match if checkPermissions then r.accessPermitted leaf.attrs access applyPan else .ok () with
      | .error f => .error f
      | .ok () => .ok ⟨leaf.pa, r.currentTranslationAsid, leaf.attrs⟩

end SystemRegisters
end Aarchvm
