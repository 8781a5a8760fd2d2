import Aarchvm.Cpu.Atomic
import Aarchvm.Cpu.ExclusiveDecode
import Aarchvm.Cpu.LoadStoreForms
import Aarchvm.Cpu.SoftwareStep

/-!
# Alignment of the stack pointer

A load or store with the stack pointer as its base raises its alignment fault before it does
anything else, and no other load or store raises it: what the bodies do is followed up to their
first check, and past the checks that let them go on.
-/
namespace Aarchvm

open Lib Lib.Stopping Cpu

namespace Cpu

variable {c c' c'' : Cpu}

/-- An exception of class `ec` was delivered: there is a frame more, and ESR_EL1 has the class. -/
def Takes (c c' : Cpu) (ec : U32) : Prop :=
  c'.exceptions.depth = c.exceptions.depth + 1 ∧ c'.sysregs.esrEl1 >>> 26 = ec.setWidth 64

/-- The check of the current exception level is on, and the stack pointer is no multiple of 16. -/
def SpMisaligned (c : Cpu) : Prop := c.spAlignmentCheckEnabled = true ∧ c.regs 31 &&& 0xF ≠ 0

instance (c : Cpu) : Decidable c.SpMisaligned := inferInstanceAs (Decidable (_ ∧ _))

/-- The entry of `maybe_take_sp_alignment_fault`. -/
def spAlignmentFault (c : Cpu) : Cpu :=
  c.clearFaultLatches.enterSyncException (c.pc - 4) 0x26 0 false 0

theorem maybeTakeSpAlignmentFault_of_misaligned (h : c.SpMisaligned) :
    c.maybeTakeSpAlignmentFault 31 = some c.spAlignmentFault := if_pos ⟨rfl, h⟩

theorem maybeTakeSpAlignmentFault_of_not {baseReg : Nat} (h : ¬ (baseReg = 31 ∧ c.SpMisaligned)) :
    c.maybeTakeSpAlignmentFault baseReg = none := if_neg h

/-! ## What raises no alignment fault of the stack pointer -/

/-- The frames and ESR_EL1 are as before. -/
structure Silent (c c' : Cpu) : Prop where
  exceptions : c'.exceptions = c.exceptions
  esr : c'.sysregs.esrEl1 = c.sysregs.esrEl1

theorem Silent.trans (h : Silent c c') (h' : Silent c' c'') : Silent c c'' :=
  ⟨h'.exceptions.trans h.exceptions, h'.esr.trans h.esr⟩

theorem NoEntry.silent (h : NoEntry c c') : Silent c c' := ⟨h.exceptions, by rw [h.sysregs]⟩

/-- The CPU goes on with no exception entry of class 0x26. -/
inductive Otherwise (c : Cpu) : Cpu → Prop
  | refl : Otherwise c c
  | silent {c₁ c₂ : Cpu} (h : Otherwise c c₁) (hsilent : Silent c₁ c₂) : Otherwise c c₂
  | entry {c₁ : Cpu} (h : Otherwise c c₁) {ec : U32} (hec : ec.toNat < 0x26 ∨ ec = 0x34 ∨ ec = 0x35)
      (faultPc : U64) (iss : U32) (farValid : Bool) (far : U64) :
      Otherwise c (c₁.enterSyncException faultPc ec iss farValid far)

theorem Otherwise.trans (h : Otherwise c c') (h' : Otherwise c' c'') : Otherwise c c'' := by
  induction h' with
  | refl => exact h
  | silent _ hsilent ih => exact .silent ih hsilent
  | entry _ hec faultPc iss farValid far ih => exact .entry ih hec faultPc iss farValid far

theorem otherwise_of_silent (h : Silent c c') : Otherwise c c' := .silent .refl h

theorem otherwise_of_accessed (h : Accessed c c') : Otherwise c c' :=
  otherwise_of_silent h.noEntry.silent

theorem enterSyncException_esr {c : Cpu} (faultPc : U64) (ec iss : U32) (farValid : Bool)
    (far : U64) (h : c.exceptions.depth < kExceptionStackCapacity) :
    (c.enterSyncException faultPc ec iss farValid far).sysregs.esrEl1 =
      SystemRegisters.syncSyndrome ec iss := by
  rw [enterSyncException, dif_pos h]
  rfl

/-- Until the first entry the frames are the same; from then on ESR_EL1 has another class. -/
theorem Otherwise.frames_or_class (h : Otherwise c c') :
    c'.exceptions = c.exceptions ∨ c'.sysregs.esrEl1 >>> 26 ≠ 0x26 := by
  induction h with
  | refl => exact .inl rfl
  | silent _ hsilent ih => exact ih.imp hsilent.exceptions.trans fun hclass => hsilent.esr ▸ hclass
  | @entry c₁ _ ec hec faultPc iss farValid far ih =>
    by_cases hroom : c₁.exceptions.depth < kExceptionStackCapacity
    · right
      have hlt : ec.toNat < 64 := by
        rcases hec with hec | rfl | rfl
        · omega
        · decide
        · decide
      rw [enterSyncException_esr _ _ _ _ _ hroom, SystemRegisters.syncSyndrome_class hlt]
      intro heq
      have hnat := congrArg BitVec.toNat heq
      rw [BitVec.toNat_setWidth_of_le (by decide)] at hnat
      rcases hec with hec | rfl | rfl
      · exact absurd hnat (Nat.ne_of_lt hec)
      · exact absurd hnat (by decide)
      · exact absurd hnat (by decide)
    · rw [enterSyncException_of_full _ _ _ _ _ hroom]
      exact ih

theorem Otherwise.not_takes (h : Otherwise c c') : ¬ Takes c c' 0x26 := by
  rintro ⟨hdepth, hclass⟩
  rcases h.frames_or_class with hframes | hother
  · rw [hframes] at hdepth
    omega
  · exact hother hclass

/-- The fault is delivered where there is room for its frame. -/
theorem takes_spAlignmentFault : Takes c c.spAlignmentFault 0x26 ↔
    c.exceptions.depth < kExceptionStackCapacity := by
  have hframes : c.clearFaultLatches.exceptions = c.exceptions := rfl
  constructor
  · rintro ⟨hdepth, -⟩
    by_contra hfull
    rw [← hframes] at hfull
    rw [spAlignmentFault, enterSyncException_of_full _ _ _ _ _ hfull] at hdepth
    exact absurd hdepth (Nat.ne_of_lt (Nat.lt_succ_self _))
  · intro hroom
    rw [← hframes] at hroom
    refine ⟨?_, ?_⟩
    · rw [spAlignmentFault, (enterSyncException_of_room _ _ _ _ _ hroom).1]
      rfl
    · rw [spAlignmentFault, enterSyncException_esr _ _ _ _ _ hroom,
        SystemRegisters.syncSyndrome_class (by decide)]

theorem otherwise_classFrom {c₁ : Cpu} (h : Otherwise c c₁) {lower same : U32}
    (hlower : lower.toNat < 0x26 ∨ lower = 0x34 ∨ lower = 0x35)
    (hsame : same.toNat < 0x26 ∨ same = 0x34 ∨ same = 0x35) (c₂ : Cpu) (faultPc : U64) (iss : U32)
    (farValid : Bool) (far : U64) :
    Otherwise c (c₁.enterSyncException faultPc (c₂.classFrom lower same) iss farValid far) := by
  rw [classFrom]
  split
  · exact h.entry hlower _ _ _ _
  · exact h.entry hsame _ _ _ _

theorem otherwise_of_dataAlignment {readDesc : U64 → Option U64} {hasRam : U64 → Bool} {va : U64}
    {align : Nat} {access : AccessType} {forceCheck : Bool}
    (h : c.maybeTakeDataAlignmentFault readDesc hasRam va align access forceCheck = some c') :
    Otherwise c c' := by
  rw [maybeTakeDataAlignmentFault] at h
  split at h
  · cases h
  split at h
  · cases h
  cases h
  exact otherwise_classFrom (otherwise_of_accessed (accessed_clearFaultLatches c))
    (.inl (by decide)) (.inl (by decide)) c _ _ _ _

theorem otherwise_of_watchpoint {va : U64} {size : Nat} {access : AccessType}
    (h : c.maybeTakeWatchpointException va size access = some c') : Otherwise c c' := by
  rw [maybeTakeWatchpointException] at h
  split at h
  · cases h
  obtain ⟨byteVa, -, rfl⟩ := Option.map_eq_some_iff.1 h
  exact otherwise_classFrom .refl (.inr (.inl rfl)) (.inr (.inr rfl)) c _ _ _ _

theorem otherwise_dataAbort (c : Cpu) (va : U64) (cacheMaintenanceOrTranslation : Bool) :
    Otherwise c (c.dataAbort va cacheMaintenanceOrTranslation) := by
  rw [dataAbort]
  split
  · exact .refl
  · exact .silent (otherwise_classFrom .refl (.inl (by decide)) (.inl (by decide)) c _ _ _ _)
      ⟨rfl, rfl⟩

end Cpu

/-! ## Accesses -/

namespace Core

open Cpu

variable {β : Type} {port : BusPort β}

theorem mmuReadValue_otherwise (s : Core β) (va : U64) (size : Nat) (access : AccessType) :
    Otherwise s.cpu (s.mmuReadValue port va size access).2.cpu := by
  have hreset : Accessed s.cpu
      { s.cpu with lastDataAbortIssOverride := none, lastDataFaultVa := none } :=
    accessed_of_latches rfl rfl
  simp only [mmuReadValue]
  split_ifs
  · exact otherwise_of_accessed hreset
  · have htr := hreset.trans (accessed_translateDataAddressFast _ (port.readDesc s.bus) va access)
    split
    · next c₁ hc =>
      rw [hc] at htr
      exact otherwise_of_accessed (htr.trans (accessed_of_latches rfl rfl))
    · next pa c₁ hc =>
      rw [hc] at htr
      split
      · next c₂ hw => exact (otherwise_of_accessed htr).trans (otherwise_of_watchpoint hw)
      · split
        · exact otherwise_of_accessed (htr.trans (accessed_of_latches rfl rfl))
        · exact otherwise_of_accessed htr
  · have htr := hreset.trans
      (translateEach_spec _ (port.readDesc s.bus) access (bytesFrom va size)).1
    split
    · next c₁ hc =>
      rw [hc] at htr
      exact otherwise_of_accessed htr
    · next pas c₁ hc =>
      rw [hc] at htr
      split
      · next c₂ hw => exact (otherwise_of_accessed htr).trans (otherwise_of_watchpoint hw)
      · split
        · exact otherwise_of_accessed (htr.trans (accessed_of_latches rfl rfl))
        · exact otherwise_of_accessed htr

theorem commit_otherwise {s : Core β} {c : Cpu} {size : Nat} {requests : List BusPort.Request}
    {onReject : Cpu → U64 → Cpu} (hreject : ∀ byteVa, Accessed c (onReject c byteVa)) :
    Otherwise c ((s.setCpu c).commit port size requests onReject).2.cpu := by
  rw [commit]
  split
  · next byteVa b ws he => exact otherwise_of_accessed (hreject byteVa)
  · exact otherwise_of_silent (noEntry_clearExclusiveMonitor c).silent

theorem mmuWriteValue_otherwise (s : Core β) (va value : U64) (size : Nat) (access : AccessType) :
    Otherwise s.cpu (s.mmuWriteValue port va value size access).2.cpu := by
  have hreset : Accessed s.cpu
      { s.cpu with lastDataAbortIssOverride := none, lastDataFaultVa := none } :=
    accessed_of_latches rfl rfl
  simp only [mmuWriteValue]
  split_ifs
  · exact otherwise_of_accessed hreset
  · have htr := hreset.trans (accessed_translateDataAddressFast _ (port.readDesc s.bus) va access)
    split
    · next c₁ hc =>
      rw [hc] at htr
      exact otherwise_of_accessed (htr.trans (accessed_of_latches rfl rfl))
    · next pa c₁ hc =>
      rw [hc] at htr
      split
      · next c₂ hw => exact (otherwise_of_accessed htr).trans (otherwise_of_watchpoint hw)
      · exact (otherwise_of_accessed htr).trans
          (commit_otherwise fun byteVa => accessed_noteExternalDataAbort _ _ byteVa)
  · have htr := hreset.trans
      (translateEach_spec _ (port.readDesc s.bus) access (bytesFrom va size)).1
    split
    · next c₁ hc =>
      rw [hc] at htr
      exact otherwise_of_accessed htr
    · next pas c₁ hc =>
      rw [hc] at htr
      split
      · next c₂ hw => exact (otherwise_of_accessed htr).trans (otherwise_of_watchpoint hw)
      · exact (otherwise_of_accessed htr).trans
          (commit_otherwise fun byteVa => accessed_noteExternalDataAbort _ _ byteVa)

theorem rawMmuWritePairAtomic_otherwise (s : Core β) (addr first second : U64) (elemSize : Nat) :
    Otherwise s.cpu (s.rawMmuWritePairAtomic port addr first second elemSize).2.cpu := by
  have hreset : Accessed s.cpu { s.cpu with lastDataFaultVa := none } :=
    accessed_of_latches rfl rfl
  simp only [rawMmuWritePairAtomic]
  split
  · exact otherwise_of_accessed hreset
  · have htr := hreset.trans
      (translateEach_spec _ (port.readDesc s.bus) .write (bytesFrom addr (elemSize * 2))).1
    split
    · next c₁ hc =>
      rw [hc] at htr
      exact otherwise_of_accessed htr
    · next pas c₁ hc =>
      rw [hc] at htr
      split
      · next c₂ hw => exact (otherwise_of_accessed htr).trans (otherwise_of_watchpoint hw)
      · exact (otherwise_of_accessed htr).trans
          (commit_otherwise fun byteVa => accessed_noteExternalDataAbort _ _ byteVa)

end Core

/-! ## Bodies of loads and stores -/

/-- The check of the base register fails. -/
def Faulty {β : Type} (rn : Nat) (s : VecCore β) : Prop := rn = 31 ∧ s.cpu.SpMisaligned

/-- What a body does as long as it goes on: it keeps the stack pointer and enters no exception. -/
def Moves {β : Type} (s s' : VecCore β) : Prop :=
  NoEntry s.cpu s'.cpu ∧ s'.cpu.regs 31 = s.cpu.regs 31

/-- Where it stops, in a state that began in `P`. -/
def Ends {β : Type} (P : VecCore β → Prop) (_ : Stop) (s s' : VecCore β) : Prop :=
  P s → Otherwise s.cpu s'.cpu

/-- What a whole body does: its last step may write the stack pointer. -/
def Done {β : Type} (s s' : VecCore β) : Prop := Silent s.cpu s'.cpu

/-- Moving keeps `P`, and `P` lets the check of `rn` pass. -/
structure Passing {β : Type} (rn : Nat) (P : VecCore β → Prop) : Prop where
  moves : ∀ {s s'}, Moves s s' → P s → P s'
  passes : ∀ {s}, P s → ¬ Faulty rn s

theorem Cpu.NoEntry.spMisaligned {c c' : Cpu} (h : NoEntry c c') (hsp : c'.regs 31 = c.regs 31) :
    c'.SpMisaligned ↔ c.SpMisaligned := by
  rw [SpMisaligned, SpMisaligned, spAlignmentCheckEnabled, spAlignmentCheckEnabled, h.sysregs, hsp]

theorem passing_not_faulty {β : Type} (rn : Nat) :
    Passing rn (fun s : VecCore β => ¬ Faulty rn s) where
  moves h hP := mt (And.imp_right (h.1.spMisaligned h.2).1) hP
  passes := id

theorem passing_of_ne {β : Type} {rn : Nat} (h : rn ≠ 31) :
    Passing rn (fun _ : VecCore β => True) where
  moves _ _ := trivial
  passes _ hfaulty := h hfaulty.1

namespace Exec

variable {β : Type} {port : BusPort β} {rn : Nat} {P : VecCore β → Prop}

theorem composes (hP : Passing rn P) : Composes Moves (Ends P) where
  refl _ := ⟨.refl _, rfl⟩
  trans h h' := ⟨h.1.trans h'.1, h'.2.trans h.2⟩
  absorbs h h' hPs := (otherwise_of_silent h.1.silent).trans (h' (hP.moves h hPs))

/-- The last step of a body. -/
theorem done_bind (hP : Passing rn P) {α : Type} {m : Exec β α} {f : α → Exec β Unit}
    (hm : Keeps Moves (Ends P) m) (hf : ∀ a, Keeps Done (Ends P) (f a)) :
    Keeps Done (Ends P) (m >>= f) :=
  keeps_bind_last hm hf (fun h h' => h.1.silent.trans h')
    fun h h' hPs => (otherwise_of_silent h.1.silent).trans (h' (hP.moves h hPs))

theorem done_of_moves {m : Exec β Unit} (h : Keeps Moves (Ends P) m) : Keeps Done (Ends P) m :=
  ⟨fun heq => (h.ended heq).1.silent, h.stopped⟩

/-! ### Steps -/

theorem moves_setReg (c : Cpu) (i : Nat) (value : U64) :
    NoEntry c (c.setReg i value) ∧ (c.setReg i value).regs 31 = c.regs 31 := by
  refine ⟨noEntry_setReg c i value, ?_⟩
  rw [Cpu.setReg]
  split
  · rfl
  · next hi => exact Function.update_of_ne (by omega) _ _

theorem moves_apply (ext : LoadExtend) (c : Cpu) (rt : Nat) (value : U64) (size : Nat) :
    NoEntry c (ext.apply c rt value size) ∧ (ext.apply c rt value size).regs 31 = c.regs 31 := by
  cases ext with
  | zero =>
    rw [LoadExtend.apply, Cpu.setLoaded]
    split
    · exact moves_setReg c rt _
    · exact moves_setReg c rt _
  | sign32 => exact moves_setReg c rt _
  | sign64 => exact moves_setReg c rt _

theorem moves_applyUnprivileged (ext : LoadExtend) (c : Cpu) (rt : Nat) (value : U64) (size : Nat) :
    NoEntry c (ext.applyUnprivileged c rt value size) ∧
      (ext.applyUnprivileged c rt value size).regs 31 = c.regs 31 := by
  cases ext with
  | zero =>
    rw [LoadExtend.applyUnprivileged]
    split
    · exact moves_setReg c rt _
    · exact moves_setReg c rt _
  | sign32 => exact moves_setReg c rt _
  | sign64 => exact moves_setReg c rt _

theorem silent_setSpOrReg (c : Cpu) (i : Nat) (value : U64) :
    Silent c (c.setSpOrReg i value false) := by
  rw [Cpu.setSpOrReg]
  split
  · rw [Cpu.setSp]
    split
    · exact ⟨rfl, rfl⟩
    · exact ⟨rfl, rfl⟩
  · exact (noEntry_setReg c i value).silent

theorem keeps_modifyCpu {f : Cpu → Cpu}
    (h : ∀ c, NoEntry c (f c) ∧ (f c).regs 31 = c.regs 31) :
    Keeps Moves (Ends P) (modifyCpu f : Exec β Unit) := keeps_modify fun s => h s.cpu

theorem done_modifyCpu {f : Cpu → Cpu} (h : ∀ c, Silent c (f c)) :
    Keeps Done (Ends P) (modifyCpu f : Exec β Unit) := keeps_modify fun s => h s.cpu

theorem keeps_setQregs (vt count : Nat) (regs : Nat → QReg) :
    Keeps Moves (Ends P) (Stopping.modify (·.setQregs vt count regs) : Exec β Unit) :=
  keeps_modify fun _ => ⟨.refl _, rfl⟩

theorem keeps_checkSpAlignment (hP : Passing rn P) :
    Keeps Moves (Ends P) (checkSpAlignment rn : Exec β Unit) := by
  refine checkSpAlignment_ends (fun _ => ⟨.refl _, rfl⟩) fun {s c} hc hPs => ?_
  rw [maybeTakeSpAlignmentFault_of_not (hP.passes hPs)] at hc
  cases hc

theorem keeps_checkDataAlignment (va : U64) (size : Nat) (access : AccessType) :
    Keeps Moves (Ends P) (checkDataAlignment port va size access) :=
  checkDataAlignment_ends (fun _ => ⟨.refl _, rfl⟩) fun hc _ => otherwise_of_dataAlignment hc

theorem keeps_rawMmuRead (va : U64) (size : Nat) (access : AccessType) :
    Keeps Moves (Ends P) (rawMmuRead port va size access) := by
  refine rawMmuRead_ends (fun {s value core} hcore => ?_) fun {s core} hcore _ => ?_
  · have haccessed := (Core.mmuReadValue_spec s.core va size access).accessed value
      (congrArg Prod.fst hcore)
    rw [hcore] at haccessed
    exact ⟨haccessed.noEntry, congrFun haccessed.regs 31⟩
  · have hother : Otherwise s.core.cpu (s.core.mmuReadValue port va size access).2.cpu :=
      Core.mmuReadValue_otherwise s.core va size access
    rw [hcore] at hother
    exact hother

theorem keeps_rawMmuWrite (va value : U64) (size : Nat) (access : AccessType) :
    Keeps Moves (Ends P) (rawMmuWrite port va value size access) := by
  refine rawMmuWrite_ends (fun {s core} hcore => ?_) fun {s core} hcore _ => ?_
  · obtain ⟨c, haccessed, hcpu⟩ := (Core.mmuWriteValue_spec s.core va value size access).stored
      (congrArg Prod.fst hcore)
    rw [hcore] at hcpu
    refine ⟨?_, ?_⟩
    · change NoEntry s.core.cpu core.cpu
      rw [hcpu]
      exact haccessed.noEntry.trans (noEntry_clearExclusiveMonitor c)
    · change core.cpu.regs 31 = s.core.cpu.regs 31
      rw [hcpu]
      exact congrFun haccessed.regs 31
  · have hother : Otherwise s.core.cpu (s.core.mmuWriteValue port va value size access).2.cpu :=
      Core.mmuWriteValue_otherwise s.core va value size access
    rw [hcore] at hother
    exact hother

theorem keeps_failingAt {α : Type} (va : U64) {m : Exec β α} (h : Keeps Moves (Ends P) m) :
    Keeps Moves (Ends P) (failingAt va m) := keeps_mapStop h fun hends => hends

theorem keeps_failingAtFault {α : Type} (va : U64) {m : Exec β α} (h : Keeps Moves (Ends P) m) :
    Keeps Moves (Ends P) (failingAtFault va m) := keeps_mapStop h fun hends => hends

theorem keeps_mmuRead (hP : Passing rn P) (va : U64) (size : Nat) :
    Keeps Moves (Ends P) (mmuRead port rn va size) :=
  keeps_bind (composes hP) (keeps_checkSpAlignment hP) fun _ =>
    keeps_bind (composes hP) (keeps_checkDataAlignment va size _) fun _ =>
      keeps_rawMmuRead va size _

theorem keeps_mmuWrite (hP : Passing rn P) (va value : U64) (size : Nat) :
    Keeps Moves (Ends P) (mmuWrite port rn va value size) :=
  keeps_bind (composes hP) (keeps_checkSpAlignment hP) fun _ =>
    keeps_bind (composes hP) (keeps_checkDataAlignment va size _) fun _ =>
      keeps_rawMmuWrite va value size _

/-! ### Vector transfers -/

theorem keeps_loadVec (hP : Passing rn P) (addr : U64) (vt size : Nat) :
    Keeps Moves (Ends P) (loadVec port rn addr vt size) := by
  rw [loadVec]
  split
  · exact keeps_bind (composes hP) (keeps_mmuRead hP addr 8) fun lo =>
      keeps_bind (composes hP) (keeps_mmuRead hP (addr + 8) 8) fun hi => keeps_setQregs _ _ _
  · exact keeps_bind (composes hP) (keeps_mmuRead hP addr size) fun value => keeps_setQregs _ _ _

theorem keeps_storeVec (hP : Passing rn P) (addr : U64) (vt size : Nat) :
    Keeps Moves (Ends P) (storeVec port rn addr vt size) := by
  refine keeps_bind (composes hP) (keeps_read (composes hP) _) fun q => ?_
  split
  · exact keeps_bind (composes hP) (keeps_mmuWrite hP addr _ 8) fun _ =>
      keeps_mmuWrite hP (addr + 8) _ 8
  · exact keeps_mmuWrite hP addr _ size

theorem keeps_loadVecWhole (hP : Passing rn P) (addr : U64) (vt size : Nat) :
    Keeps Moves (Ends P) (loadVecWhole port rn addr vt size) := by
  refine keeps_bind (composes hP) (keeps_checkSpAlignment hP) fun _ =>
    keeps_bind (composes hP) (keeps_checkDataAlignment addr size _) fun _ => ?_
  split
  · exact keeps_bind (composes hP) (keeps_failingAtFault _ (keeps_rawMmuRead _ _ _)) fun lo =>
      keeps_bind (composes hP) (keeps_failingAtFault _ (keeps_rawMmuRead _ _ _)) fun hi =>
        keeps_setQregs _ _ _
  · exact keeps_bind (composes hP) (keeps_failingAtFault _ (keeps_rawMmuRead _ _ _)) fun value =>
      keeps_setQregs _ _ _

theorem keeps_storeVecWhole (hP : Passing rn P) (addr : U64) (vt size : Nat) :
    Keeps Moves (Ends P) (storeVecWhole port rn addr vt size) := by
  refine keeps_bind (composes hP) (keeps_checkSpAlignment hP) fun _ =>
    keeps_bind (composes hP) (keeps_checkDataAlignment addr size _) fun _ =>
      keeps_bind (composes hP) (keeps_read (composes hP) _) fun q => ?_
  split
  · exact keeps_bind (composes hP) (keeps_failingAtFault _ (keeps_rawMmuWrite _ _ _ _)) fun _ =>
      keeps_failingAtFault _ (keeps_rawMmuWrite _ _ _ _)
  · exact keeps_failingAtFault _ (keeps_rawMmuWrite _ _ _ _)

theorem keeps_transferVec (hP : Passing rn P) (isLoad : Bool) (addr : U64) (vt size : Nat) :
    Keeps Moves (Ends P) (transferVec port isLoad rn addr vt size) := by
  rw [transferVec]
  split
  · exact keeps_loadVec hP addr vt size
  · exact keeps_storeVec hP addr vt size

theorem keeps_transferVecWhole (hP : Passing rn P) (isLoad : Bool) (addr : U64) (vt size : Nat) :
    Keeps Moves (Ends P) (transferVecWhole port isLoad rn addr vt size) := by
  rw [transferVecWhole]
  split
  · exact keeps_loadVecWhole hP addr vt size
  · exact keeps_storeVecWhole hP addr vt size

theorem keeps_loadVecBytes (hP : Passing rn P) (vt regCount : Nat) (places : List LanePlace) :
    Keeps Moves (Ends P) (loadVecBytes port rn vt regCount places) := by
  refine keeps_bind (composes hP) (keeps_fold (composes hP) (fun regs p => ?_) _ _) fun regs =>
    keeps_setQregs _ _ _
  exact keeps_bind (composes hP) (keeps_failingAt _ (keeps_mmuRead hP _ 1)) fun value =>
    keeps_pure (composes hP) _

theorem keeps_storeVecBytes (hP : Passing rn P) (vt : Nat) (places : List LanePlace) :
    Keeps Moves (Ends P) (storeVecBytes port rn vt places) :=
  keeps_bind (composes hP) (keeps_read (composes hP) _) fun _ =>
    keeps_fold (composes hP) (fun _ _ => keeps_failingAt _ (keeps_mmuWrite hP _ _ 1)) _ _

theorem keeps_accessVecSingleStruct (hP : Passing rn P) (d : SingleStruct) (addr : U64)
    (vt : Nat) : Keeps Moves (Ends P) (accessVecSingleStruct port d rn addr vt) := by
  refine keeps_bind (composes hP) (keeps_read (composes hP) _) fun q => ?_
  split
  · refine keeps_bind (composes hP) (keeps_fold (composes hP) (fun regs i => ?_) _ _) fun regs =>
      keeps_setQregs _ _ _
    refine keeps_bind (composes hP) (keeps_checkSpAlignment hP) fun _ =>
      keeps_bind (composes hP) (keeps_checkDataAlignment _ _ _) fun _ =>
        keeps_bind (composes hP) ?_ fun value => keeps_pure (composes hP) _
    exact keeps_fold (composes hP) (fun value byte =>
      keeps_bind (composes hP) (keeps_rawMmuRead _ _ _) fun part => keeps_pure (composes hP) _) _ _
  · refine keeps_fold (composes hP) (fun _ i => ?_) _ _
    refine keeps_bind (composes hP) (keeps_checkSpAlignment hP) fun _ =>
      keeps_bind (composes hP) (keeps_checkDataAlignment _ _ _) fun _ => ?_
    exact keeps_fold (composes hP) (fun _ byte => keeps_rawMmuWrite _ _ _ _) _ _

theorem keeps_checkedFpMemBase (hP : Passing rn P) :
    Keeps Moves (Ends P) (checkedFpMemBase rn : Exec β U64) :=
  keeps_bind (composes hP) (keeps_checkSpAlignment hP) fun _ =>
    keeps_bind (composes hP) (keeps_read (composes hP) _) fun _ => keeps_pure (composes hP) _

theorem done_writeBack (hP : Passing rn P) (mode : IndexMode) (base imm : U64) :
    Keeps Done (Ends P) (writeBack mode rn base imm : Exec β Unit) := by
  cases mode with
  | offset => exact done_of_moves (keeps_pure (composes hP) ())
  | pre => exact done_modifyCpu fun c => silent_setSpOrReg c rn _
  | post => exact done_modifyCpu fun c => silent_setSpOrReg c rn _

theorem done_writeBackVec (hP : Passing rn P) (postIndex : Bool) (rm : Nat) (addr : U64)
    (bytes : Nat) :
    Keeps Done (Ends P)
      (if postIndex then writeBackVec rn rm addr bytes else Pure.pure () : Exec β Unit) := by
  split
  · exact done_modifyCpu fun c => silent_setSpOrReg c rn _
  · exact done_of_moves (keeps_pure (composes hP) ())

/-! ### Whole bodies -/

theorem done_transferVecMultiple (hP : Passing rn P) (isLoad interleaved postIndex : Bool)
    (rm vt regBytes regCount : Nat) : Keeps Done (Ends P)
      (transferVecMultiple port isLoad interleaved postIndex rn rm vt regBytes regCount) := by
  refine done_bind hP (keeps_checkedFpMemBase hP) fun addr => ?_
  dsimp only
  split
  · exact done_bind hP (keeps_loadVecBytes hP vt regCount _) fun _ =>
      done_writeBackVec hP postIndex rm addr _
  · exact done_bind hP (keeps_storeVecBytes hP vt _) fun _ =>
      done_writeBackVec hP postIndex rm addr _

theorem done_transferVecSingle (hP : Passing rn P) (d : SingleStruct) (postIndex : Bool)
    (rm vt : Nat) : Keeps Done (Ends P) (transferVecSingle port d postIndex rn rm vt) :=
  done_bind hP (keeps_checkedFpMemBase hP) fun addr =>
    done_bind hP (keeps_accessVecSingleStruct hP d addr vt) fun _ =>
      done_writeBackVec hP postIndex rm addr _

theorem done_transferVecImm (hP : Passing rn P) (isLoad : Bool) (mode : IndexMode) (vt : Nat)
    (imm : U64) (size : Nat) :
    Keeps Done (Ends P) (transferVecImm port isLoad mode rn vt imm size) :=
  done_bind hP (keeps_checkedFpMemBase hP) fun base =>
    done_bind hP (keeps_transferVecWhole hP isLoad _ vt size) fun _ =>
      done_writeBack hP mode base imm

theorem done_transferVecReg (hP : Passing rn P) (isLoad : Bool) (rm vt option : Nat)
    (scaled : Bool) (size : Nat) :
    Keeps Done (Ends P) (transferVecReg port isLoad rn rm vt option scaled size) :=
  done_of_moves (keeps_bind (composes hP) (keeps_read (composes hP) _) fun _ =>
    keeps_bind (composes hP) (keeps_checkedFpMemBase hP) fun _ =>
      keeps_transferVecWhole hP isLoad _ vt size)

theorem done_postPreFp (hP : Passing rn P) (isLoad : Bool) (mode : IndexMode) (vt : Nat)
    (imm : U64) (size : Nat) : Keeps Done (Ends P) (postPreFp port isLoad mode rn vt imm size) :=
  done_bind hP (keeps_read (composes hP) _) fun _ =>
    done_bind hP (keeps_failingAt _ (keeps_transferVec hP isLoad _ vt size)) fun _ =>
      done_writeBack hP mode _ imm

theorem done_execFpPairTransfer (hP : Passing rn P) (isLoad : Bool) (mode : IndexMode)
    (vt vt2 : Nat) (imm : U64) (elemSize : Nat) :
    Keeps Done (Ends P) (execFpPairTransfer port isLoad mode rn vt vt2 imm elemSize) :=
  done_bind hP (keeps_checkedFpMemBase hP) fun base =>
    done_bind hP (keeps_bind (composes hP) (keeps_transferVecWhole hP isLoad _ vt elemSize) fun _ =>
      keeps_transferVecWhole hP isLoad _ vt2 elemSize) fun _ => done_writeBack hP mode base imm

theorem done_literalVec (hP : Passing rn P) (vt : Nat) (imm : U64) (size : Nat) :
    Keeps Done (Ends P) (literalVec port rn vt imm size) :=
  done_of_moves (keeps_bind (composes hP) (keeps_read (composes hP) _) fun _ =>
    keeps_failingAtFault _ (keeps_loadVec hP _ vt size))

theorem done_loadUnprivileged (hP : Passing rn P) (ext : LoadExtend) (rt : Nat) (imm : U64)
    (size : Nat) : Keeps Done (Ends P) (loadUnprivileged port ext rn rt imm size) :=
  done_of_moves (keeps_bind (composes hP) (keeps_read (composes hP) _) fun _ =>
    keeps_bind (composes hP) (keeps_checkSpAlignment hP) fun _ =>
      keeps_bind (composes hP) (keeps_checkDataAlignment _ _ _) fun _ =>
        keeps_bind (composes hP) (keeps_rawMmuRead _ _ _) fun value =>
          keeps_modifyCpu fun c => moves_applyUnprivileged ext c rt value size)

theorem done_storeUnprivileged (hP : Passing rn P) (rt : Nat) (imm : U64) (size : Nat) :
    Keeps Done (Ends P) (storeUnprivileged port rn rt imm size) :=
  done_of_moves (keeps_bind (composes hP) (keeps_read (composes hP) _) fun _ =>
    keeps_bind (composes hP) (keeps_checkSpAlignment hP) fun _ =>
      keeps_bind (composes hP) (keeps_checkDataAlignment _ _ _) fun _ => keeps_rawMmuWrite _ _ _ _)

theorem done_load (hP : Passing rn P) (ext : LoadExtend) (mode : IndexMode) (rt : Nat) (imm : U64)
    (size : Nat) : Keeps Done (Ends P) (load port ext mode rn rt imm size) :=
  done_bind hP (keeps_read (composes hP) _) fun _ =>
    done_bind hP (keeps_mmuRead hP _ size) fun value =>
      done_bind hP (keeps_modifyCpu fun c => moves_apply ext c rt value size) fun _ =>
        done_writeBack hP mode _ imm

theorem done_store (hP : Passing rn P) (mode : IndexMode) (rt : Nat) (imm : U64) (size : Nat) :
    Keeps Done (Ends P) (store port mode rn rt imm size) :=
  done_bind hP (keeps_read (composes hP) _) fun _ =>
    done_bind hP (keeps_mmuWrite hP _ _ size) fun _ => done_writeBack hP mode _ imm

theorem done_loadReg (hP : Passing rn P) (ext : LoadExtend) (rm rt option : Nat) (scaled : Bool)
    (size : Nat) : Keeps Done (Ends P) (loadReg port ext rn rm rt option scaled size) :=
  done_of_moves (keeps_bind (composes hP) (keeps_read (composes hP) _) fun _ =>
    keeps_bind (composes hP) (keeps_mmuRead hP _ size) fun value =>
      keeps_modifyCpu fun c => moves_apply ext c rt value size)

theorem done_storeReg (hP : Passing rn P) (rm rt option : Nat) (scaled : Bool) (size : Nat) :
    Keeps Done (Ends P) (storeReg port rn rm rt option scaled size) :=
  done_of_moves (keeps_bind (composes hP) (keeps_read (composes hP) _) fun _ =>
    keeps_mmuWrite hP _ _ size)

theorem done_loadPair (hP : Passing rn P) (ext : LoadExtend) (mode : IndexMode) (rt rt2 : Nat)
    (imm : U64) (size : Nat) : Keeps Done (Ends P) (loadPair port ext mode rn rt rt2 imm size) :=
  done_bind hP (keeps_read (composes hP) _) fun _ =>
    done_bind hP (keeps_failingAt _ (keeps_mmuRead hP _ size)) fun v1 =>
      done_bind hP (keeps_failingAt _ (keeps_mmuRead hP _ size)) fun v2 =>
        done_bind hP (keeps_modifyCpu fun c =>
          have h₁ := moves_apply ext c rt v1 size
          have h₂ := moves_apply ext (ext.apply c rt v1 size) rt2 v2 size
          ⟨h₁.1.trans h₂.1, h₂.2.trans h₁.2⟩) fun _ => done_writeBack hP mode _ imm

theorem done_storePair (hP : Passing rn P) (mode : IndexMode) (rt rt2 : Nat) (imm : U64)
    (size : Nat) : Keeps Done (Ends P) (storePair port mode rn rt rt2 imm size) :=
  done_bind hP (keeps_read (composes hP) _) fun _ =>
    done_bind hP (keeps_failingAt _ (keeps_mmuWrite hP _ _ size)) fun _ =>
      done_bind hP (keeps_failingAt _ (keeps_mmuWrite hP _ _ size)) fun _ =>
        done_writeBack hP mode _ imm

/-- A literal has no base register: the check is not made. -/
theorem done_literal (ext : LoadExtend) (rt : Nat) (imm : U64) (size : Nat) :
    Keeps Done (Ends fun _ => True) (literal port ext rt imm size : Exec β Unit) := by
  have hP : Passing 0 (fun _ : VecCore β => True) := passing_of_ne (by decide)
  exact done_of_moves (keeps_bind (composes hP) (keeps_read (composes hP) _) fun _ =>
    keeps_bind (composes hP) (keeps_rawMmuRead _ _ _) fun value =>
      keeps_modifyCpu fun c => moves_apply ext c rt value size)

/-! ### The first check -/

/-- With a misaligned stack pointer as its base the body enters the fault and does no more. -/
def Checks {β α : Type} (rn : Nat) (m : Exec β α) : Prop :=
  StopsAt (Faulty rn) Stop.raised (fun s => s.setCpu s.cpu.spAlignmentFault) m

theorem checks_checkSpAlignment : Checks rn (checkSpAlignment rn : Exec β Unit) := by
  rintro s ⟨rfl, hsp⟩
  rw [checkSpAlignment, maybeTakeSpAlignmentFault_of_misaligned hsp]

theorem checks_mmuRead (va : U64) (size : Nat) : Checks rn (mmuRead port rn va size) :=
  stopsAt_bind checks_checkSpAlignment _

theorem checks_mmuWrite (va value : U64) (size : Nat) :
    Checks rn (mmuWrite port rn va value size) :=
  stopsAt_bind checks_checkSpAlignment _

theorem checks_checkedFpMemBase : Checks rn (checkedFpMemBase rn : Exec β U64) :=
  stopsAt_bind checks_checkSpAlignment _

theorem checks_failingAt {α : Type} {m : Exec β α} (h : Checks rn m) (va : U64) :
    Checks rn (failingAt va m) := stopsAt_mapStop h fun _ => rfl

theorem checks_transferVec (isLoad : Bool) (addr : U64) (vt size : Nat) :
    Checks rn (transferVec port isLoad rn addr vt size) := by
  rw [transferVec]
  split
  · rw [loadVec]
    split
    · exact stopsAt_bind (checks_mmuRead addr 8) _
    · exact stopsAt_bind (checks_mmuRead addr size) _
  · refine stopsAt_read fun q => ?_
    split
    · exact stopsAt_bind (checks_mmuWrite addr _ 8) _
    · exact checks_mmuWrite addr _ size

/-- Every body on the base register begins with the check. -/
theorem checks_body {form : MemForm} {insn : U32} (hallocated : form.allocated insn = true)
    (hbase : form ≠ .undefined ∧ form ≠ .prefetch ∧ form ≠ .vecLiteral ∧
      ∀ ext size, form ≠ .literal ext size) :
    Checks (fieldRn insn) (form.body port insn) := by
  obtain ⟨hundefined, hprefetch, hvecLiteral, hliteral⟩ := hbase
  cases form with
  | undefined => exact absurd rfl hundefined
  | prefetch => exact absurd rfl hprefetch
  | vecLiteral => exact absurd rfl hvecLiteral
  | literal ext size => exact absurd rfl (hliteral ext size)
  | vecUnsigned isLoad size => exact stopsAt_bind checks_checkedFpMemBase _
  | vecUnscaled isLoad size => exact stopsAt_bind checks_checkedFpMemBase _
  | vecIndexed isLoad mode size => exact stopsAt_bind checks_checkedFpMemBase _
  | vecRegister isLoad size => exact stopsAt_read fun _ => stopsAt_bind checks_checkedFpMemBase _
  | vecSingle postIndex =>
    obtain ⟨d, hd⟩ := Option.isSome_iff_exists.1 hallocated
    rw [MemForm.body, hd]
    exact stopsAt_bind checks_checkedFpMemBase _
  | vecMultiple isLoad interleaved postIndex regCount =>
    exact stopsAt_bind checks_checkedFpMemBase _
  | vecPostPre isLoad mode size =>
    exact stopsAt_read fun _ =>
      stopsAt_bind (checks_failingAt (checks_transferVec isLoad _ _ _) _) _
  | vecPair isLoad mode size => exact stopsAt_bind checks_checkedFpMemBase _
  | loadUnprivileged ext size => exact stopsAt_read fun _ => stopsAt_bind checks_checkSpAlignment _
  | storeUnprivileged size => exact stopsAt_read fun _ => stopsAt_bind checks_checkSpAlignment _
  | load ext mode size => exact stopsAt_read fun _ => stopsAt_bind (checks_mmuRead _ _) _
  | store mode size => exact stopsAt_read fun _ => stopsAt_bind (checks_mmuWrite _ _ _) _
  | loadUnsigned ext size => exact stopsAt_read fun _ => stopsAt_bind (checks_mmuRead _ _) _
  | storeUnsigned size => exact stopsAt_read fun _ => stopsAt_bind (checks_mmuWrite _ _ _) _
  | loadRegister ext size => exact stopsAt_read fun _ => stopsAt_bind (checks_mmuRead _ _) _
  | register =>
    rw [MemForm.body]
    dsimp only
    split
    · exact stopsAt_read fun _ => stopsAt_bind (checks_mmuRead _ _) _
    · exact stopsAt_read fun _ => checks_mmuWrite _ _ _
  | loadPair ext mode size =>
    exact stopsAt_read fun _ => stopsAt_bind (checks_failingAt (checks_mmuRead _ _) _) _
  | storePair mode size =>
    exact stopsAt_read fun _ => stopsAt_bind (checks_failingAt (checks_mmuWrite _ _ _) _) _

/-- No body enters the fault once the check lets it go on. -/
theorem done_body {form : MemForm} {insn : U32} (hP : Passing (fieldRn insn) P)
    (hform : form ≠ .undefined) : Keeps Done (Ends P) (form.body port insn) := by
  cases form with
  | undefined => exact absurd rfl hform
  | prefetch => exact done_of_moves (keeps_pure (composes hP) ())
  | vecLiteral => exact done_literalVec hP _ _ _
  | literal ext size =>
    exact ⟨(done_literal ext _ _ size).ended,
      fun heq _ => (done_literal ext _ _ size).stopped heq trivial⟩
  | vecUnsigned isLoad size => exact done_transferVecImm hP isLoad .offset _ _ size
  | vecUnscaled isLoad size => exact done_transferVecImm hP isLoad .offset _ _ size
  | vecIndexed isLoad mode size => exact done_transferVecImm hP isLoad mode _ _ size
  | vecRegister isLoad size => exact done_transferVecReg hP isLoad _ _ _ _ size
  | vecSingle postIndex =>
    rw [MemForm.body]
    dsimp only
    cases decodeVecSingleStruct insn with
    | none => exact done_of_moves (keeps_pure (composes hP) ())
    | some d => exact done_transferVecSingle hP d postIndex _ _
  | vecMultiple isLoad interleaved postIndex regCount =>
    exact done_transferVecMultiple hP isLoad interleaved postIndex _ _ _ regCount
  | vecPostPre isLoad mode size => exact done_postPreFp hP isLoad mode _ _ size
  | vecPair isLoad mode size => exact done_execFpPairTransfer hP isLoad mode _ _ _ size
  | loadUnprivileged ext size => exact done_loadUnprivileged hP ext _ _ size
  | storeUnprivileged size => exact done_storeUnprivileged hP _ _ size
  | load ext mode size => exact done_load hP ext mode _ _ size
  | store mode size => exact done_store hP mode _ _ size
  | loadUnsigned ext size => exact done_load hP ext .offset _ _ size
  | storeUnsigned size => exact done_store hP .offset _ _ size
  | loadRegister ext size => exact done_loadReg hP ext _ _ _ _ size
  | register =>
    rw [MemForm.body]
    dsimp only
    split
    · exact done_loadReg hP .zero _ _ _ _ _
    · exact done_storeReg hP _ _ _ _ _
  | loadPair ext mode size => exact done_loadPair hP ext mode _ _ _ size
  | storePair mode size => exact done_storePair hP mode _ _ _ size

theorem finish_otherwise {m : Exec β Unit} (h : Keeps Done (Ends P) m) {s : VecCore β} (hs : P s) :
    Otherwise s.cpu (m.finish s).cpu := by
  rw [finish]
  rcases hm : m s with ⟨stop | a, s'⟩
  · have hends := h.stopped hm hs
    cases stop with
    | raised => exact hends
    | failed va => exact hends.trans (otherwise_dataAbort s'.core.cpu va false)
  · exact otherwise_of_silent (h.ended hm)

theorem finish_of_checks {m : Exec β Unit} (h : Checks rn m) {s : VecCore β} (hs : Faulty rn s) :
    m.finish s = s.setCpu s.cpu.spAlignmentFault := by
  rw [finish, h s hs]

end Exec

/-! ## Exclusives, atomics and ordered accesses -/

namespace Core

variable {β : Type} {port : BusPort β} {s : Core β} {rn : Nat}

theorem mmuRead_misaligned (h : s.cpu.SpMisaligned) (va : U64) (size : Nat) (forceCheck : Bool) :
    s.mmuRead port 31 va size forceCheck = (none, s.setCpu s.cpu.spAlignmentFault) := by
  rw [mmuRead, maybeTakeSpAlignmentFault_of_misaligned h]

theorem mmuWrite_misaligned (h : s.cpu.SpMisaligned) (va value : U64) (size : Nat)
    (access : AccessType) (forceCheck : Bool) :
    s.mmuWrite port 31 va value size access forceCheck =
      (false, s.setCpu s.cpu.spAlignmentFault) := by
  rw [mmuWrite, maybeTakeSpAlignmentFault_of_misaligned h]

theorem dataAbort_spAlignmentFault (va : U64) :
    (s.setCpu s.cpu.spAlignmentFault).dataAbort va = s.setCpu s.cpu.spAlignmentFault := by
  have htaken : s.cpu.spAlignmentFault.exceptionTakenThisStep = true :=
    ExclusiveWord.enterSyncException_taken _ _ _ _ _ _
  exact congrArg s.setCpu (dataAbort_of_taken htaken)

theorem storeExclusiveWith_misaligned (h : s.cpu.SpMisaligned) (rs : Nat) (addr : U64)
    (size : Nat) (write : Core β → Bool × Core β) :
    (s.storeExclusiveWith port rs 31 addr size write).2 =
      s.setCpu s.cpu.spAlignmentFault.clearExclusiveMonitor := by
  rw [storeExclusiveWith, maybeTakeSpAlignmentFault_of_misaligned h]

/-- The fault comes first, and a store-exclusive clears its monitor after it. -/
theorem execOp_misaligned (other : Elsewhere β) {insn : U32} {op : LoadStoreOp}
    (hop : op ≠ .elsewhere) (hrn : fieldRn insn = 31) (h : s.cpu.SpMisaligned) :
    ∃ c, s.execOp port other insn op = (true, s.setCpu c) ∧
      (c = s.cpu.spAlignmentFault ∨ c = s.cpu.spAlignmentFault.clearExclusiveMonitor) := by
  cases op with
  | elsewhere => exact absurd rfl hop
  | ldxr size =>
    refine ⟨_, ?_, .inl rfl⟩
    rw [execOp, hrn, loadExclusive, mmuRead_misaligned h]
    exact congrArg (Prod.mk true) (dataAbort_spAlignmentFault _)
  | stxr size =>
    refine ⟨_, ?_, .inr rfl⟩
    rw [execOp, hrn, storeExclusive, storeExclusiveWith_misaligned h]
  | ldxp elemSize =>
    refine ⟨_, ?_, .inl rfl⟩
    rw [execOp, hrn, loadExclusivePair, maybeTakeSpAlignmentFault_of_misaligned h]
  | stxp elemSize =>
    refine ⟨_, ?_, .inr rfl⟩
    rw [execOp, hrn, storeExclusivePair, storeExclusiveWith_misaligned h]
  | casp elemSize =>
    refine ⟨_, ?_, .inl rfl⟩
    rw [execOp, hrn, compareAndSwapPair, maybeTakeSpAlignmentFault_of_misaligned h]
  | cas size =>
    refine ⟨_, ?_, .inl rfl⟩
    rw [execOp, hrn, compareAndSwap, mmuRead_misaligned h]
    exact congrArg (Prod.mk true) (dataAbort_spAlignmentFault _)
  | rmw fn size =>
    refine ⟨_, ?_, .inl rfl⟩
    rw [execOp, hrn, atomicRmw, mmuRead_misaligned h]
    exact congrArg (Prod.mk true) (dataAbort_spAlignmentFault _)
  | ldar size =>
    refine ⟨_, ?_, .inl rfl⟩
    rw [execOp, hrn, loadAcquire, mmuRead_misaligned h]
    exact congrArg (Prod.mk true) (dataAbort_spAlignmentFault _)
  | stlr size =>
    refine ⟨_, ?_, .inl rfl⟩
    rw [execOp, hrn, storeRelease, mmuWrite_misaligned h]
    exact congrArg (Prod.mk true) (dataAbort_spAlignmentFault _)

/-- The check of `rn` passes. -/
def BasePasses (rn : Nat) (c : Cpu) : Prop := ¬ (rn = 31 ∧ c.SpMisaligned)

theorem basePasses_of_accessed {c c' : Cpu} (hpass : BasePasses rn c) (h : Accessed c c') :
    BasePasses rn c' :=
  mt (And.imp_right (h.noEntry.spMisaligned (congrFun h.regs 31)).1) hpass

theorem mmuRead_otherwise (hpass : BasePasses rn s.cpu) (va : U64) (size : Nat)
    (forceCheck : Bool) : Otherwise s.cpu (s.mmuRead port rn va size forceCheck).2.cpu := by
  rw [mmuRead, maybeTakeSpAlignmentFault_of_not hpass]
  dsimp only
  split
  · next c hc => exact otherwise_of_dataAlignment hc
  · exact mmuReadValue_otherwise s va size .read

theorem mmuWrite_otherwise (hpass : BasePasses rn s.cpu) (va value : U64) (size : Nat)
    (access : AccessType) (forceCheck : Bool) :
    Otherwise s.cpu (s.mmuWrite port rn va value size access forceCheck).2.cpu := by
  rw [mmuWrite, maybeTakeSpAlignmentFault_of_not hpass]
  dsimp only
  split
  · next c hc => exact otherwise_of_dataAlignment hc
  · exact mmuWriteValue_otherwise s va value size access

/-- A failed read ends the body; one that succeeds lets it go on with the check still passing. -/
theorem read_then (hpass : BasePasses rn s.cpu) (va : U64) (size : Nat) (forceCheck : Bool)
    (addr : U64) {k : U64 → Core β → Bool × Core β}
    (hk : ∀ value s₁, BasePasses rn s₁.cpu → Otherwise s₁.cpu (k value s₁).2.cpu) :
    Otherwise s.cpu
      (match s.mmuRead port rn va size forceCheck with
        | (none, s₁) => (false, s₁.dataAbort addr)
        | (some value, s₁) => k value s₁).2.cpu := by
  have hread : Otherwise s.cpu (s.mmuRead port rn va size forceCheck).2.cpu :=
    mmuRead_otherwise hpass va size forceCheck
  rcases hcore : s.mmuRead port rn va size forceCheck with ⟨value | _, s₁⟩
  · rw [hcore] at hread
    exact hread.trans (otherwise_dataAbort s₁.cpu addr false)
  · next value =>
    have haccessed := (mmuRead_spec s rn va size forceCheck).accessed value
      (congrArg Prod.fst hcore)
    rw [hcore] at hread haccessed
    exact hread.trans (hk value s₁ (basePasses_of_accessed hpass haccessed))

theorem silent_setRegSized (c : Cpu) (i : Nat) (value : U64) (size : Nat) :
    Silent c (c.setRegSized i value size) := (noEntry_setReg c i _).silent

theorem otherwise_setExclusiveMonitor (c : Cpu) (readDesc : U64 → Option U64) (va : U64)
    (size : Nat) : Otherwise c (c.setExclusiveMonitor readDesc va size) := by
  have hcapture := accessed_captureExclusivePhysAddrs c.clearExclusiveMonitor readDesc va size false
  rw [setExclusiveMonitor]
  split
  · next c' hc =>
    rw [hc] at hcapture
    exact (otherwise_of_silent (noEntry_clearExclusiveMonitor c).silent).trans
      (otherwise_of_accessed hcapture)
  · next pas c' hc =>
    rw [hc] at hcapture
    exact .silent ((otherwise_of_silent (noEntry_clearExclusiveMonitor c).silent).trans
      (otherwise_of_accessed hcapture)) ⟨rfl, rfl⟩

theorem silent_setReg (c : Cpu) (i : Nat) (value : U64) : Silent c (c.setReg i value) :=
  (noEntry_setReg c i value).silent

/-- The end of a body that writes: a failed write aborts, and one that succeeds sets registers. -/
theorem write_then {c : Cpu} {stored : Bool × Core β} (hstored : Otherwise c stored.2.cpu)
    (addr : U64) {f : Cpu → Cpu} (hf : ∀ c, Silent c (f c)) :
    Otherwise c
      (match stored with
        | (false, s₁) => (false, s₁.dataAbort addr)
        | (true, s₁) => (true, s₁.setCpu (f s₁.cpu))).2.cpu := by
  rcases stored with ⟨ok, s₁⟩
  cases ok with
  | false => exact hstored.trans (otherwise_dataAbort s₁.cpu addr false)
  | true => exact .silent hstored (hf s₁.cpu)

/-- The checks of a pair come before its accesses. -/
theorem pair_then (hpass : BasePasses rn s.cpu) {addr : U64} {size : Nat} {access : AccessType}
    {m : Bool × Core β} (hm : Otherwise s.cpu m.2.cpu) :
    Otherwise s.cpu
      (match s.cpu.maybeTakeSpAlignmentFault rn with
        | some c => (false, s.setCpu c)
        | none =>
          match s.cpu.maybeTakeDataAlignmentFault (port.readDesc s.bus) (port.hasRam s.bus) addr
              size access true with
          | some c => (false, s.setCpu c)
          | none => m).2.cpu := by
  rw [maybeTakeSpAlignmentFault_of_not hpass]
  dsimp only
  split
  · next c hc => exact otherwise_of_dataAlignment hc
  · exact hm

theorem storeExclusiveWith_otherwise (hpass : BasePasses rn s.cpu) (rs : Nat) (addr : U64)
    (size : Nat) {write : Core β → Bool × Core β}
    (hwrite : ∀ s₁ : Core β, Otherwise s₁.cpu (write s₁).2.cpu) :
    Otherwise s.cpu (s.storeExclusiveWith port rs rn addr size write).2.cpu := by
  have hclear : ∀ {c c' : Cpu}, Otherwise c c' → Otherwise c c'.clearExclusiveMonitor :=
    fun h => .silent h (noEntry_clearExclusiveMonitor _).silent
  rw [storeExclusiveWith, maybeTakeSpAlignmentFault_of_not hpass]
  dsimp only
  split
  · next c hc => exact hclear (otherwise_of_dataAlignment hc)
  have hcheck := otherwise_of_accessed
    (accessed_checkExclusiveMonitor s.cpu (port.readDesc s.bus) addr size)
  split
  · next c hc =>
    rw [hc] at hcheck
    exact (hclear hcheck).trans (otherwise_dataAbort _ addr false)
  · next c hc =>
    rw [hc] at hcheck
    exact .silent (hclear hcheck) (silent_setReg _ rs 1)
  · next c hc =>
    rw [hc] at hcheck
    have hw := (hclear hcheck).trans (hwrite (s.setCpu c.clearExclusiveMonitor))
    split
    · next s₁ hs₁ =>
      rw [hs₁] at hw
      exact hw.trans (otherwise_dataAbort s₁.cpu addr false)
    · next s₁ hs₁ =>
      rw [hs₁] at hw
      exact .silent hw (silent_setReg _ rs 0)

theorem loadExclusive_otherwise (hpass : BasePasses rn s.cpu) (rt : Nat) (addr : U64)
    (size : Nat) : Otherwise s.cpu (s.loadExclusive port rt rn addr size).2.cpu :=
  read_then hpass addr size true addr fun value s₁ _ =>
    (otherwise_of_silent (silent_setRegSized s₁.cpu rt value size)).trans
      (otherwise_setExclusiveMonitor _ _ addr size)

theorem loadExclusivePair_otherwise (hpass : BasePasses rn s.cpu) (rt rt2 : Nat) (addr : U64)
    (elemSize : Nat) :
    Otherwise s.cpu (s.loadExclusivePair port rt rt2 rn addr elemSize).2.cpu :=
  pair_then hpass (read_then hpass addr elemSize true addr fun v1 _ hpass₁ =>
    read_then hpass₁ _ elemSize true addr fun v2 s₂ _ =>
      ((otherwise_of_silent (silent_setRegSized s₂.cpu rt v1 elemSize)).trans
        (otherwise_of_silent (silent_setRegSized _ rt2 v2 elemSize))).trans
          (otherwise_setExclusiveMonitor _ _ addr (elemSize * 2)))

theorem compareAndSwapPair_otherwise (hpass : BasePasses rn s.cpu) (rs rt elemSize : Nat) :
    Otherwise s.cpu (s.compareAndSwapPair port rs rt rn elemSize).2.cpu := by
  refine pair_then hpass (read_then hpass _ elemSize true _ fun oldLo _ hpass₁ =>
    read_then hpass₁ _ elemSize true _ fun oldHi s₂ _ => ?_)
  refine write_then ?_ _ fun c => (silent_setRegSized c rs _ elemSize).trans
    (silent_setRegSized _ (rs + 1) _ elemSize)
  split
  · exact rawMmuWritePairAtomic_otherwise s₂ _ _ _ elemSize
  · exact .refl

theorem compareAndSwap_otherwise (hpass : BasePasses rn s.cpu) (rs rt size : Nat) :
    Otherwise s.cpu (s.compareAndSwap port rs rt rn size).2.cpu := by
  refine read_then hpass _ size true _ fun old s₁ hpass₁ => ?_
  refine write_then ?_ _ fun c => silent_setRegSized c rs _ size
  split
  · exact mmuWrite_otherwise hpass₁ _ _ size .write true
  · exact .refl

theorem atomicRmw_otherwise (hpass : BasePasses rn s.cpu) (fn : AtomicFn) (rs rt size : Nat) :
    Otherwise s.cpu (s.atomicRmw port fn rs rt rn size).2.cpu :=
  read_then hpass _ size true _ fun _ _ hpass₁ =>
    write_then (mmuWrite_otherwise hpass₁ _ _ size .write true) _
      fun c => silent_setRegSized c rt _ size

theorem loadAcquire_otherwise (hpass : BasePasses rn s.cpu) (rt size : Nat) :
    Otherwise s.cpu (s.loadAcquire port rt rn size).2.cpu :=
  read_then hpass _ size true _ fun value s₁ _ =>
    otherwise_of_silent (silent_setRegSized s₁.cpu rt value size)

theorem storeRelease_otherwise (hpass : BasePasses rn s.cpu) (rt size : Nat) :
    Otherwise s.cpu (s.storeRelease port rt rn size).2.cpu :=
  write_then (f := id) (mmuWrite_otherwise hpass _ _ size .write true) _ fun _ => ⟨rfl, rfl⟩

theorem execOp_otherwise {insn : U32} (hpass : BasePasses (fieldRn insn) s.cpu)
    (other : Elsewhere β) {op : LoadStoreOp} (hop : op ≠ .elsewhere) :
    Otherwise s.cpu (s.execOp port other insn op).2.cpu := by
  cases op with
  | elsewhere => exact absurd rfl hop
  | ldxr size => exact loadExclusive_otherwise hpass _ _ size
  | stxr size =>
    exact storeExclusiveWith_otherwise hpass _ _ size fun s₁ =>
      mmuWriteValue_otherwise s₁ _ _ size .write
  | ldxp elemSize => exact loadExclusivePair_otherwise hpass _ _ _ elemSize
  | stxp elemSize =>
    exact storeExclusiveWith_otherwise hpass _ _ (elemSize * 2) fun s₁ =>
      rawMmuWritePairAtomic_otherwise s₁ _ _ _ elemSize
  | casp elemSize => exact compareAndSwapPair_otherwise hpass _ _ elemSize
  | cas size => exact compareAndSwap_otherwise hpass _ _ size
  | rmw fn size => exact atomicRmw_otherwise hpass fn _ _ size
  | ldar size => exact loadAcquire_otherwise hpass _ size
  | stlr size => exact storeRelease_otherwise hpass _ size

end Core

/-! ## Words -/

/-- The class of the literals: bits 29:27 are 011 and bits 25:24 are 00. -/
def IsLiteral (insn : U32) : Prop := insn &&& 0x3B000000 = 0x18000000

instance (insn : U32) : Decidable (IsLiteral insn) := inferInstanceAs (Decidable (_ = _))

/-- A SIMD&FP literal whose offset has ones where other words have a base register. -/
def SpLikeVecLiteral (insn : U32) : Prop :=
  insn &&& 0x3F000000 = 0x1C000000 ∧ fieldRn insn = 31

instance (insn : U32) : Decidable (SpLikeVecLiteral insn) :=
  inferInstanceAs (Decidable (_ ∧ _))

/-- The word is taken, it is not UNDEFINED, and it is no prefetch. -/
def MakesAccess (insn : U32) : Bool :=
  match decodeLoadStore insn with
  | none => false
  | some .elsewhere =>
    match decodeMemForm insn with
    | none => false
    | some form => form != .undefined && form != .prefetch && form.allocated insn
  | some _ => true

/-- The word accesses memory through a base register, and that is the stack pointer. -/
def BaseIsSp (insn : U32) : Prop :=
  MakesAccess insn = true ∧ ¬ IsLiteral insn ∧ fieldRn insn = 31

instance (insn : U32) : Decidable (BaseIsSp insn) := inferInstanceAs (Decidable (_ ∧ _))

def MemForm.isLiteral : MemForm → Bool
  | literal _ _ => true
  | vecLiteral => true
  | _ => false

theorem memFormCases_literal : ∀ c ∈ memFormCases,
    c.1.mask &&& 0x3B000000 = 0x3B000000 ∧
      (c.1.tag &&& 0x3B000000 = 0x18000000 ↔ c.2.isLiteral = true ∨
        c.2 = .prefetch ∧ c.1.tag &&& 0x3B000000 = 0x18000000) := by
  decide +kernel

theorem memFormCases_vecLiteral : ∀ c ∈ memFormCases,
    c.2 = .vecLiteral → c.1 = ⟨0x3F000000, 0x1C000000⟩ := by
  decide +kernel

theorem loadStoreCases_literal : ∀ c ∈ loadStoreCases, ∀ code < 4, c.2 code ≠ .elsewhere →
    c.1.mask &&& 0x3B000000 = 0x3B000000 ∧ c.1.tag &&& 0x3B000000 ≠ 0x18000000 := by
  decide +kernel

theorem fieldSize_lt (insn : U32) : fieldSize insn < 4 := by
  rw [fieldSize, BitVec.toNat_ushiftRight, Nat.shiftRight_eq_div_pow]
  have := insn.isLt
  omega

theorem isLiteral_iff_form {insn : U32} {form : MemForm} (h : decodeMemForm insn = some form)
    (hprefetch : form ≠ .prefetch) : IsLiteral insn ↔ form.isLiteral = true := by
  obtain ⟨p, hmem, hmatch⟩ := Pattern.mem_of_decode h
  obtain ⟨hmask, htag⟩ := memFormCases_literal _ hmem
  rw [IsLiteral, Pattern.and_eq_of_matches hmatch hmask, htag]
  exact or_iff_left fun hpre => hprefetch hpre.1

theorem and_eq_of_vecLiteral {insn : U32} (h : decodeMemForm insn = some .vecLiteral) :
    insn &&& 0x3F000000 = 0x1C000000 := by
  obtain ⟨p, hmem, hmatch⟩ := Pattern.mem_of_decode h
  obtain rfl : p = ⟨0x3F000000, 0x1C000000⟩ := memFormCases_vecLiteral _ hmem rfl
  exact Pattern.matches_iff.1 hmatch

theorem not_isLiteral_of_op {insn : U32} {op : LoadStoreOp} (h : decodeLoadStore insn = some op)
    (hop : op ≠ .elsewhere) : ¬ IsLiteral insn := by
  obtain ⟨f, hdecode, rfl⟩ := Option.map_eq_some_iff.1 h
  obtain ⟨p, hmem, hmatch⟩ := Pattern.mem_of_decode hdecode
  obtain ⟨hmask, htag⟩ := loadStoreCases_literal _ hmem (fieldSize insn) (fieldSize_lt insn) hop
  rw [IsLiteral, Pattern.and_eq_of_matches hmatch hmask]
  exact htag

/-! ## The whole function -/

namespace VecCore

variable {β : Type} (port : BusPort β) {insn : U32} {s : VecCore β}

theorem execMemForm_misaligned (hform : decodeLoadStore insn = some .elsewhere)
    (hbase : BaseIsSp insn) (hsp : s.cpu.SpMisaligned) :
    s.execMemForm port insn = (true, s.setCpu s.cpu.spAlignmentFault) := by
  obtain ⟨hmakes, hliteral, hrn⟩ := hbase
  rw [MakesAccess, hform] at hmakes
  rw [execMemForm]
  cases hdecode : decodeMemForm insn with
  | none =>
    rw [hdecode] at hmakes
    exact Bool.noConfusion hmakes
  | some form =>
    rw [hdecode] at hmakes
    simp only [Bool.and_eq_true, bne_iff_ne] at hmakes
    obtain ⟨⟨hundefined, hprefetch⟩, hallocated⟩ := hmakes
    rw [isLiteral_iff_form hdecode hprefetch] at hliteral
    have hchecks : Exec.Checks (fieldRn insn) (form.body port insn) :=
      Exec.checks_body hallocated ⟨hundefined, hprefetch,
        fun h => hliteral (by rw [h]; rfl), fun ext size h => hliteral (by rw [h]; rfl)⟩
    dsimp only
    rw [if_pos hallocated, Exec.finish_of_checks hchecks ⟨hrn, hsp⟩]

theorem execMemForm_otherwise (hvec : ¬ SpLikeVecLiteral insn)
    (hform : decodeLoadStore insn = some .elsewhere)
    (hpass : ¬ (BaseIsSp insn ∧ s.cpu.SpMisaligned)) :
    Otherwise s.cpu (s.execMemForm port insn).2.cpu := by
  rw [execMemForm]
  cases hdecode : decodeMemForm insn with
  | none => exact .refl
  | some form =>
    dsimp only
    by_cases hallocated : form.allocated insn = true
    swap
    · rw [if_neg hallocated]
      exact .refl
    rw [if_pos hallocated]
    by_cases hundefined : form = .undefined
    · rw [hundefined]
      exact .entry .refl (.inl (by decide)) _ _ _ _
    by_cases hprefetch : form = .prefetch
    · rw [hprefetch]
      exact .refl
    by_cases hliteral : form.isLiteral = true
    · cases form with
      | literal ext size => exact Exec.finish_otherwise (Exec.done_literal ext _ _ size) trivial
      | vecLiteral =>
        exact Exec.finish_otherwise (Exec.done_body (passing_not_faulty _) hundefined)
          fun hfaulty => hvec ⟨and_eq_of_vecLiteral hdecode, hfaulty.1⟩
      | _ => exact Bool.noConfusion hliteral
    · have hmakes : MakesAccess insn = true := by
        rw [MakesAccess, hform]
        dsimp only
        rw [hdecode]
        simp [hundefined, hprefetch, hallocated]
      rw [← isLiteral_iff_form hdecode hprefetch] at hliteral
      exact Exec.finish_otherwise (Exec.done_body (passing_not_faulty _) hundefined)
        fun hfaulty => hpass ⟨⟨hmakes, hliteral, hfaulty.1⟩, hfaulty.2⟩

theorem execLoadStore_misaligned (hbase : BaseIsSp insn) (hsp : s.cpu.SpMisaligned) :
    ∃ c, s.execLoadStore port insn = (true, s.setCpu c) ∧
      (c = s.cpu.spAlignmentFault ∨ c = s.cpu.spAlignmentFault.clearExclusiveMonitor) := by
  rw [execLoadStore]
  split
  · next hdecode =>
    have hmakes := hbase.1
    rw [MakesAccess, hdecode] at hmakes
    exact Bool.noConfusion hmakes
  · next hdecode => exact ⟨_, execMemForm_misaligned port hdecode hbase hsp, .inl rfl⟩
  · next op hop hdecode =>
    obtain ⟨c, hc, hfault⟩ := Core.execOp_misaligned (s := s.core)
      (fun _ core => (false, core)) hop hbase.2.2 hsp
    refine ⟨c, ?_, hfault⟩
    rw [hc]
    rfl

theorem execLoadStore_otherwise (hvec : ¬ SpLikeVecLiteral insn)
    (hpass : ¬ (BaseIsSp insn ∧ s.cpu.SpMisaligned)) :
    Otherwise s.cpu (s.execLoadStore port insn).2.cpu := by
  rw [execLoadStore]
  split
  · exact .refl
  · next hdecode => exact execMemForm_otherwise port hvec hdecode hpass
  · next op hop hdecode =>
    have hne : op ≠ .elsewhere := hop
    have hmakes : MakesAccess insn = true := by
      rw [MakesAccess, hdecode]
      cases op with
      | elsewhere => exact absurd rfl hne
      | _ => rfl
    have hbase : Core.BasePasses (fieldRn insn) s.core.cpu := fun hfaulty =>
      hpass ⟨⟨hmakes, not_isLiteral_of_op hdecode hne, hfaulty.1⟩, hfaulty.2⟩
    have hother : Otherwise s.core.cpu
        (s.core.execOp port (fun _ core => (false, core)) insn op).2.cpu :=
      Core.execOp_otherwise hbase _ hne
    rcases hcore : s.core.execOp port (fun _ core => (false, core)) insn op with ⟨taken, core⟩
    rw [hcore] at hother
    exact hother

/-- A load or store raises the alignment fault of the stack pointer exactly where it accesses
memory through it, the check of the current exception level is on, and the stack pointer is not
aligned; and then it does nothing else. -/
theorem spAlignment_exact (insn : U32) (s : VecCore β) (hvec : ¬ SpLikeVecLiteral insn) :
    (Takes s.cpu (s.execLoadStore port insn).2.cpu 0x26 ↔
      BaseIsSp insn ∧ s.cpu.SpMisaligned ∧ s.cpu.exceptions.depth < kExceptionStackCapacity) ∧
    (BaseIsSp insn → s.cpu.SpMisaligned →
      ∃ c, s.execLoadStore port insn = (true, s.setCpu c) ∧
        (c = s.cpu.spAlignmentFault ∨ c = s.cpu.spAlignmentFault.clearExclusiveMonitor)) := by
  refine ⟨?_, execLoadStore_misaligned port⟩
  constructor
  · intro htakes
    by_cases hfault : BaseIsSp insn ∧ s.cpu.SpMisaligned
    · obtain ⟨c, hc, hcase⟩ := execLoadStore_misaligned port hfault.1 hfault.2
      rw [hc] at htakes
      have hspfault : Takes s.cpu s.cpu.spAlignmentFault 0x26 := by
        rcases hcase with rfl | rfl
        · exact htakes
        · exact htakes
      exact ⟨hfault.1, hfault.2, takes_spAlignmentFault.1 hspfault⟩
    · exact absurd htakes (execLoadStore_otherwise port hvec hfault).not_takes
  · rintro ⟨hbase, hsp, hroom⟩
    obtain ⟨c, hc, hcase⟩ := execLoadStore_misaligned port hbase hsp
    have hspfault := takes_spAlignmentFault.2 hroom
    rw [hc]
    rcases hcase with rfl | rfl
    · exact hspfault
    · exact hspfault

/-- A CPU after reset with SCTLR_EL1.SA set and 8 in its stack pointer. -/
def misaligned : VecCore Unit where
  core :=
    { cpu := { Cpu.reset 0 8 0 with sysregs := { SystemRegisters.reset with sctlrEl1 := 0x8 } }
      bus := ()
      writes := [] }
  qregs := fun _ => ⟨0, 0⟩

/-- LDR X0, [SP]. -/
theorem spAlignment_exact_ldr :
    Takes misaligned.cpu
        (misaligned.execLoadStore ExclusiveWord.fivePort 0xF94003E0).2.cpu 0x26 ∧
      ∃ c, misaligned.execLoadStore ExclusiveWord.fivePort 0xF94003E0 =
          (true, misaligned.setCpu c) ∧
        (c = misaligned.cpu.spAlignmentFault ∨
          c = misaligned.cpu.spAlignmentFault.clearExclusiveMonitor) :=
  have hbase : BaseIsSp 0xF94003E0 := by decide +kernel
  have hsp : misaligned.cpu.SpMisaligned := by decide
  have hexact := spAlignment_exact ExclusiveWord.fivePort 0xF94003E0 misaligned (by decide)
  ⟨hexact.1.2 ⟨hbase, hsp, by decide⟩, hexact.2 hbase hsp⟩

/-- PRFM has the stack pointer as its base, and raises nothing. -/
theorem prefetch_raises_nothing :
    fieldRn 0xF98003E0 = 31 ∧ misaligned.cpu.SpMisaligned ∧
      misaligned.cpu.exceptions.depth < kExceptionStackCapacity ∧
      (misaligned.execLoadStore ExclusiveWord.fivePort 0xF98003E0).1 = true ∧
      ¬ Takes misaligned.cpu
        (misaligned.execLoadStore ExclusiveWord.fivePort 0xF98003E0).2.cpu 0x26 := by
  have hother : decodeLoadStore 0xF98003E0 = some .elsewhere := by decide +kernel
  have hform : decodeMemForm 0xF98003E0 = some .prefetch := by decide +kernel
  have hexec : misaligned.execLoadStore ExclusiveWord.fivePort 0xF98003E0 = (true, misaligned) := by
    rw [execLoadStore, hother]
    dsimp only
    rw [execMemForm, hform]
    rfl
  rw [hexec]
  exact ⟨by decide, by decide, by decide, rfl, Otherwise.not_takes .refl⟩

end VecCore
end Aarchvm
