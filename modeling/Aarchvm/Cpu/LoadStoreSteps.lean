import Aarchvm.A64.Loads
import Aarchvm.Cpu.SpAlignment
import Mathlib.Data.List.ReduceOption

/-!
# What the steps of a body keep

Each body of a load or store checks and accesses first, and may stop there; then it writes its
registers and does not stop any more. What the checks and accesses keep, and the writes of
registers after them, every body keeps.
-/
namespace Aarchvm

open Lib Lib.Stopping Cpu

namespace MemForm

/-- The form may write to memory. -/
def stores (insn : U32) : MemForm → Bool
  | vecUnsigned isLoad _ | vecUnscaled isLoad _ | vecIndexed isLoad _ _ | vecRegister isLoad _
  | vecMultiple isLoad _ _ _ | vecPostPre isLoad _ _ | vecPair isLoad _ _ => !isLoad
  | vecSingle _ => !insn.getLsbD 22
  | register => !insn.getLsbD 22
  | storeUnprivileged _ | store _ _ | storeUnsigned _ | storePair _ _ => true
  | _ => false

/-- The vector register that the form may write and then still stop: the first of a pair. -/
def early (insn : U32) : MemForm → Option Nat
  | vecPair true _ _ => some (fieldRt insn)
  | _ => none

end MemForm

namespace Exec

/-- What the steps keep: `R` as long as the body can stop, `D` from then on, `F` where it stops.
The body writes to memory if `stores`, and `early` may be written before it can stop no more. -/
structure StepsKeep {β : Type} (port : BusPort β) (stores : Bool) (early : Option Nat)
    (R D : VecCore β → VecCore β → Prop) (F : Stop → VecCore β → VecCore β → Prop) : Prop where
  composes : Composes R F
  weaken : ∀ {s s'}, R s s' → D s s'
  trans : ∀ {s s' s''}, D s s' → D s' s'' → D s s''
  relabel : ∀ {va va' s s'}, F (.failed va) s s' → F (.failed va') s s'
  checkSpAlignment : ∀ rn, Keeps R F (checkSpAlignment rn)
  checkDataAlignment : ∀ va size access, Keeps R F (checkDataAlignment port va size access)
  rawMmuRead : ∀ va size access, Keeps R F (rawMmuRead port va size access)
  rawMmuWrite : stores = true → ∀ va value size access,
    Keeps R F (rawMmuWrite port va value size access)
  setEarly : ∀ vt q, early = some (vt % 32) → Keeps R F (setQreg vt q)
  setQregs : ∀ s vt count regs, D s (VecCore.setQregs s vt count regs)
  setCpu : ∀ s c, Silent (VecCore.cpu s) c → D s (VecCore.setCpu s c)

variable {β : Type} {port : BusPort β} {stores : Bool} {early : Option Nat}
  {R D : VecCore β → VecCore β → Prop} {F : Stop → VecCore β → VecCore β → Prop}

namespace StepsKeep

variable (h : StepsKeep port stores early R D F)

include h

/-! ### Going on -/

theorem bind {α : Type} {m : Exec β α} {f : α → Exec β Unit} (hm : Keeps R F m)
    (hf : ∀ a, Keeps D F (f a)) : Keeps D F (m >>= f) :=
  keeps_bind_last hm hf (fun hR hD => h.trans (h.weaken hR) hD) h.composes.absorbs

/-- The writes of registers at the end. -/
theorem tail {m : Exec β Unit} {f : Exec β Unit} (hm : Keeps D F m)
    (hf : Keeps D (fun _ _ _ => False) f) : Keeps D F (m >>= fun _ => f) :=
  keeps_bind_total hm (fun _ => hf) h.trans

theorem nothing : Keeps D (fun _ _ _ => False) (Pure.pure () : Exec β Unit) where
  ended := by
    rintro s a s' heq
    cases heq
    exact h.weaken (h.composes.refl _)
  stopped := by
    rintro s e s' heq
    cases heq

theorem modifyCpu {f : Cpu → Cpu} (hf : ∀ c, Silent c (f c)) :
    Keeps D (fun _ _ _ => False) (modifyCpu f : Exec β Unit) :=
  keeps_modify fun s => h.setCpu s _ (hf s.cpu)

theorem qregs (vt count : Nat) (regs : Nat → QReg) :
    Keeps D (fun _ _ _ => False) (Stopping.modify (·.setQregs vt count regs) : Exec β Unit) :=
  keeps_modify fun s => h.setQregs s vt count regs

theorem failingAt {α : Type} {T : VecCore β → VecCore β → Prop} (va : U64) {m : Exec β α}
    (hm : Keeps T F m) : Keeps T F (failingAt va m) := by
  refine keeps_mapStop hm fun {e s s'} hF => ?_
  cases e with
  | raised => exact hF
  | failed va' => exact h.relabel hF

theorem failingAtFault {α : Type} {T : VecCore β → VecCore β → Prop} (va : U64) {m : Exec β α}
    (hm : Keeps T F m) : Keeps T F (failingAtFault va m) := by
  refine keeps_mapStop hm fun {e s s'} hF => ?_
  cases e with
  | raised => exact hF
  | failed va' => exact h.relabel hF

/-! ### Accesses -/

theorem mmuRead (rn : Nat) (va : U64) (size : Nat) : Keeps R F (mmuRead port rn va size) :=
  keeps_bind h.composes (h.checkSpAlignment rn) fun _ =>
    keeps_bind h.composes (h.checkDataAlignment va size _) fun _ => h.rawMmuRead va size _

theorem mmuWrite (hs : stores = true) (rn : Nat) (va value : U64) (size : Nat) :
    Keeps R F (mmuWrite port rn va value size) :=
  keeps_bind h.composes (h.checkSpAlignment rn) fun _ =>
    keeps_bind h.composes (h.checkDataAlignment va size _) fun _ =>
      h.rawMmuWrite hs va value size _

theorem checkedFpMemBase (rn : Nat) : Keeps R F (checkedFpMemBase rn : Exec β U64) :=
  keeps_bind h.composes (h.checkSpAlignment rn) fun _ =>
    keeps_bind h.composes (keeps_read h.composes _) fun _ => keeps_pure h.composes _

/-! ### Vector transfers -/

theorem loadVec (rn : Nat) (addr : U64) (vt size : Nat) :
    Keeps D F (loadVec port rn addr vt size) := by
  rw [Exec.loadVec]
  split
  · exact h.bind (h.mmuRead rn addr 8) fun lo => h.bind (h.mmuRead rn (addr + 8) 8) fun hi =>
      (h.qregs vt 1 _).of_total
  · exact h.bind (h.mmuRead rn addr size) fun value => (h.qregs vt 1 _).of_total

theorem storeVec (hs : stores = true) (rn : Nat) (addr : U64) (vt size : Nat) :
    Keeps R F (storeVec port rn addr vt size) := by
  refine keeps_bind h.composes (keeps_read h.composes _) fun q => ?_
  split
  · exact keeps_bind h.composes (h.mmuWrite hs rn addr _ 8) fun _ => h.mmuWrite hs rn _ _ 8
  · exact h.mmuWrite hs rn addr _ size

/-- The register is written last; whether the body can stop after it is up to what follows. -/
theorem loadVecWhole (T : VecCore β → VecCore β → Prop) {vt : Nat}
    (htrans : ∀ {s s' s''}, R s s' → T s' s'' → T s s'')
    (hset : ∀ q, Keeps T F (setQreg vt q : Exec β Unit)) (rn : Nat) (addr : U64) (size : Nat) :
    Keeps T F (loadVecWhole port rn addr vt size) := by
  have hbind : ∀ {α : Type} {m : Exec β α} {f : α → Exec β Unit}, Keeps R F m →
      (∀ a, Keeps T F (f a)) → Keeps T F (m >>= f) :=
    fun hm hf => keeps_bind_last hm hf htrans h.composes.absorbs
  refine hbind (h.checkSpAlignment rn) fun _ => hbind (h.checkDataAlignment addr size _) fun _ => ?_
  split
  · exact hbind (h.failingAtFault _ (h.rawMmuRead _ _ _)) fun lo =>
      hbind (h.failingAtFault _ (h.rawMmuRead _ _ _)) fun hi => hset _
  · exact hbind (h.failingAtFault _ (h.rawMmuRead _ _ _)) fun value => hset _

theorem storeVecWhole (hs : stores = true) (rn : Nat) (addr : U64) (vt size : Nat) :
    Keeps R F (storeVecWhole port rn addr vt size) := by
  refine keeps_bind h.composes (h.checkSpAlignment rn) fun _ =>
    keeps_bind h.composes (h.checkDataAlignment addr size _) fun _ =>
      keeps_bind h.composes (keeps_read h.composes _) fun q => ?_
  split
  · exact keeps_bind h.composes (h.failingAtFault _ (h.rawMmuWrite hs _ _ _ _)) fun _ =>
      h.failingAtFault _ (h.rawMmuWrite hs _ _ _ _)
  · exact h.failingAtFault _ (h.rawMmuWrite hs _ _ _ _)

theorem transferVec {isLoad : Bool} (hs : (!isLoad) = true → stores = true) (rn : Nat) (addr : U64)
    (vt size : Nat) : Keeps D F (transferVec port isLoad rn addr vt size) := by
  cases isLoad with
  | true => exact h.loadVec rn addr vt size
  | false => exact (h.storeVec (hs rfl) rn addr vt size).weaken h.weaken

theorem transferVecWhole {isLoad : Bool} (hs : (!isLoad) = true → stores = true) (rn : Nat)
    (addr : U64) (vt size : Nat) : Keeps D F (transferVecWhole port isLoad rn addr vt size) := by
  cases isLoad with
  | true =>
    exact h.loadVecWhole D (fun hR hD => h.trans (h.weaken hR) hD)
      (fun _ => (h.qregs vt 1 _).of_total) rn addr size
  | false => exact (h.storeVecWhole (hs rfl) rn addr vt size).weaken h.weaken

/-- The first transfer of a pair is followed by one that can stop. -/
theorem transferVecPair {isLoad : Bool} (hs : (!isLoad) = true → stores = true) (rn : Nat)
    (addr : U64) {vt : Nat} (hearly : isLoad = true → early = some (vt % 32)) (vt2 elemSize : Nat) :
    Keeps D F (transferVecPair port isLoad rn addr vt vt2 elemSize) := by
  refine h.bind ?_ fun _ => h.transferVecWhole hs rn _ vt2 elemSize
  cases isLoad with
  | true =>
    exact h.loadVecWhole R h.composes.trans (fun q => h.setEarly vt q (hearly rfl)) rn addr elemSize
  | false => exact h.storeVecWhole (hs rfl) rn addr vt elemSize

theorem loadVecBytes (rn vt regCount : Nat) (places : List LanePlace) :
    Keeps D F (loadVecBytes port rn vt regCount places) := by
  refine h.bind (keeps_fold h.composes (fun regs p => ?_) _ _) fun regs =>
    (h.qregs vt regCount _).of_total
  exact keeps_bind h.composes (h.failingAt _ (h.mmuRead rn _ 1)) fun value =>
    keeps_pure h.composes _

theorem storeVecBytes (hs : stores = true) (rn vt : Nat) (places : List LanePlace) :
    Keeps R F (storeVecBytes port rn vt places) :=
  keeps_bind h.composes (keeps_read h.composes _) fun _ =>
    keeps_fold h.composes (fun _ _ => h.failingAt _ (h.mmuWrite hs rn _ _ 1)) _ _

theorem accessVecSingleStruct {d : SingleStruct} (hs : (!d.isLoad) = true → stores = true)
    (rn : Nat) (addr : U64) (vt : Nat) :
    Keeps D F (accessVecSingleStruct port d rn addr vt) := by
  refine h.bind (keeps_read h.composes _) fun q => ?_
  split
  · refine h.bind (keeps_fold h.composes (fun regs i => ?_) _ _) fun regs =>
      (h.qregs vt d.regCount _).of_total
    refine keeps_bind h.composes (h.checkSpAlignment rn) fun _ =>
      keeps_bind h.composes (h.checkDataAlignment _ _ _) fun _ =>
        keeps_bind h.composes ?_ fun value => keeps_pure h.composes _
    exact keeps_fold h.composes (fun value byte =>
      keeps_bind h.composes (h.rawMmuRead _ _ _) fun part => keeps_pure h.composes _) _ _
  · next hstore =>
    have hs' : stores = true := hs (by rw [Bool.eq_false_iff.2 hstore]; rfl)
    refine (keeps_fold h.composes (fun _ i => ?_) _ _).weaken h.weaken
    refine keeps_bind h.composes (h.checkSpAlignment rn) fun _ =>
      keeps_bind h.composes (h.checkDataAlignment _ _ _) fun _ => ?_
    exact keeps_fold h.composes (fun _ byte => h.rawMmuWrite hs' _ _ _ _) _ _

/-! ### Registers -/

theorem apply (ext : LoadExtend) (rt : Nat) (value : U64) (size : Nat) :
    Keeps D (fun _ _ _ => False) (Exec.modifyCpu (ext.apply · rt value size) : Exec β Unit) :=
  h.modifyCpu fun c => (moves_apply ext c rt value size).1.silent

theorem writeBack (mode : IndexMode) (rn : Nat) (base imm : U64) :
    Keeps D (fun _ _ _ => False) (writeBack mode rn base imm : Exec β Unit) := by
  cases mode with
  | offset => exact h.nothing
  | pre => exact h.modifyCpu fun c => silent_setSpOrReg c rn _
  | post => exact h.modifyCpu fun c => silent_setSpOrReg c rn _

theorem writeBackVec (postIndex : Bool) (rn rm : Nat) (addr : U64) (bytes : Nat) :
    Keeps D (fun _ _ _ => False)
      (if postIndex then writeBackVec rn rm addr bytes else Pure.pure () : Exec β Unit) := by
  split
  · exact h.modifyCpu fun c => silent_setSpOrReg c rn _
  · exact h.nothing

/-! ### Bodies -/

theorem transferVecMultiple {isLoad : Bool} (hs : (!isLoad) = true → stores = true)
    (interleaved postIndex : Bool) (rn rm vt regBytes regCount : Nat) : Keeps D F
      (transferVecMultiple port isLoad interleaved postIndex rn rm vt regBytes regCount) := by
  refine h.bind (h.checkedFpMemBase rn) fun addr => ?_
  dsimp only
  cases isLoad with
  | true => exact h.tail (h.loadVecBytes rn vt regCount _) (h.writeBackVec postIndex rn rm addr _)
  | false =>
    exact h.tail ((h.storeVecBytes (hs rfl) rn vt _).weaken h.weaken)
      (h.writeBackVec postIndex rn rm addr _)

theorem transferVecSingle {d : SingleStruct} (hs : (!d.isLoad) = true → stores = true)
    (postIndex : Bool) (rn rm vt : Nat) :
    Keeps D F (transferVecSingle port d postIndex rn rm vt) :=
  h.bind (h.checkedFpMemBase rn) fun addr =>
    h.tail (h.accessVecSingleStruct hs rn addr vt) (h.writeBackVec postIndex rn rm addr _)

theorem transferVecImm {isLoad : Bool} (hs : (!isLoad) = true → stores = true) (mode : IndexMode)
    (rn vt : Nat) (imm : U64) (size : Nat) :
    Keeps D F (transferVecImm port isLoad mode rn vt imm size) :=
  h.bind (h.checkedFpMemBase rn) fun base =>
    h.tail (h.transferVecWhole hs rn _ vt size) (h.writeBack mode rn base imm)

theorem transferVecReg {isLoad : Bool} (hs : (!isLoad) = true → stores = true)
    (rn rm vt option : Nat) (scaled : Bool) (size : Nat) :
    Keeps D F (transferVecReg port isLoad rn rm vt option scaled size) :=
  h.bind (keeps_read h.composes _) fun _ => h.bind (h.checkedFpMemBase rn) fun _ =>
    h.transferVecWhole hs rn _ vt size

theorem postPreFp {isLoad : Bool} (hs : (!isLoad) = true → stores = true) (mode : IndexMode)
    (rn vt : Nat) (imm : U64) (size : Nat) :
    Keeps D F (postPreFp port isLoad mode rn vt imm size) :=
  h.bind (keeps_read h.composes _) fun _ =>
    h.tail (h.failingAt _ (h.transferVec hs rn _ vt size)) (h.writeBack mode rn _ imm)

theorem execFpPairTransfer {isLoad : Bool} (hs : (!isLoad) = true → stores = true)
    (mode : IndexMode) (rn : Nat) {vt : Nat}
    (hearly : isLoad = true → early = some (vt % 32)) (vt2 : Nat)
    (imm : U64) (elemSize : Nat) :
    Keeps D F (execFpPairTransfer port isLoad mode rn vt vt2 imm elemSize) :=
  h.bind (h.checkedFpMemBase rn) fun base =>
    h.tail (h.transferVecPair hs rn _ hearly vt2 elemSize) (h.writeBack mode rn base imm)

theorem literalVec (rn vt : Nat) (imm : U64) (size : Nat) :
    Keeps D F (literalVec port rn vt imm size) :=
  h.bind (keeps_read h.composes _) fun _ => h.failingAtFault _ (h.loadVec rn _ vt size)

theorem loadUnprivileged (ext : LoadExtend) (rn rt : Nat) (imm : U64) (size : Nat) :
    Keeps D F (loadUnprivileged port ext rn rt imm size) :=
  h.bind (keeps_read h.composes _) fun _ => h.bind (h.checkSpAlignment rn) fun _ =>
    h.bind (h.checkDataAlignment _ _ _) fun _ => h.bind (h.rawMmuRead _ _ _) fun value =>
      (h.modifyCpu fun c => (moves_applyUnprivileged ext c rt value size).1.silent).of_total

theorem storeUnprivileged (hs : stores = true) (rn rt : Nat) (imm : U64) (size : Nat) :
    Keeps D F (storeUnprivileged port rn rt imm size) :=
  h.bind (keeps_read h.composes _) fun _ => h.bind (h.checkSpAlignment rn) fun _ =>
    h.bind (h.checkDataAlignment _ _ _) fun _ =>
      (h.rawMmuWrite hs _ _ _ _).weaken h.weaken

theorem load (ext : LoadExtend) (mode : IndexMode) (rn rt : Nat) (imm : U64) (size : Nat) :
    Keeps D F (load port ext mode rn rt imm size) :=
  h.bind (keeps_read h.composes _) fun _ => h.bind (h.mmuRead rn _ size) fun value =>
    h.tail (h.apply ext rt value size).of_total (h.writeBack mode rn _ imm)

theorem store (hs : stores = true) (mode : IndexMode) (rn rt : Nat) (imm : U64) (size : Nat) :
    Keeps D F (store port mode rn rt imm size) :=
  h.bind (keeps_read h.composes _) fun _ => h.bind (h.mmuWrite hs rn _ _ size) fun _ =>
    (h.writeBack mode rn _ imm).of_total

theorem literal (ext : LoadExtend) (rt : Nat) (imm : U64) (size : Nat) :
    Keeps D F (literal port ext rt imm size) :=
  h.bind (keeps_read h.composes _) fun _ => h.bind (h.rawMmuRead _ _ _) fun value =>
    (h.apply ext rt value size).of_total

theorem loadReg (ext : LoadExtend) (rn rm rt option : Nat) (scaled : Bool) (size : Nat) :
    Keeps D F (loadReg port ext rn rm rt option scaled size) :=
  h.bind (keeps_read h.composes _) fun _ => h.bind (h.mmuRead rn _ size) fun value =>
    (h.apply ext rt value size).of_total

theorem storeReg (hs : stores = true) (rn rm rt option : Nat) (scaled : Bool) (size : Nat) :
    Keeps D F (storeReg port rn rm rt option scaled size) :=
  h.bind (keeps_read h.composes _) fun _ => (h.mmuWrite hs rn _ _ size).weaken h.weaken

theorem loadPair (ext : LoadExtend) (mode : IndexMode) (rn rt rt2 : Nat) (imm : U64)
    (size : Nat) : Keeps D F (loadPair port ext mode rn rt rt2 imm size) := by
  refine h.bind (keeps_read h.composes _) fun _ =>
    h.bind (h.failingAt _ (h.mmuRead rn _ size)) fun v1 =>
      h.bind (h.failingAt _ (h.mmuRead rn _ size)) fun v2 => h.tail ?_ (h.writeBack mode rn _ imm)
  exact (h.modifyCpu fun c => (moves_apply ext c rt v1 size).1.silent.trans
    (moves_apply ext (ext.apply c rt v1 size) rt2 v2 size).1.silent).of_total

theorem storePair (hs : stores = true) (mode : IndexMode) (rn rt rt2 : Nat) (imm : U64)
    (size : Nat) : Keeps D F (storePair port mode rn rt rt2 imm size) :=
  h.bind (keeps_read h.composes _) fun _ =>
    h.bind (h.failingAt _ (h.mmuWrite hs rn _ _ size)) fun _ =>
      h.bind (h.failingAt _ (h.mmuWrite hs rn _ _ size)) fun _ =>
        (h.writeBack mode rn _ imm).of_total

end StepsKeep

theorem fieldRt_lt (insn : U32) : fieldRt insn < 32 := by
  have hmask : (0x1F : U32).toNat = 2 ^ 5 - 1 := rfl
  rw [fieldRt, BitVec.toNat_and, hmask, Nat.and_two_pow_sub_one_eq_mod]
  exact Nat.mod_lt _ (by decide)

theorem isLoad_of_decodeVecSingleStruct {insn : U32} {d : SingleStruct}
    (hd : decodeVecSingleStruct insn = some d) : d.isLoad = insn.getLsbD 22 := by
  unfold decodeVecSingleStruct at hd
  dsimp only at hd
  split at hd
  · split at hd
    · cases hd
    · cases hd
      rfl
  · cases hd
    rfl
  · split at hd
    · cases hd
    · cases hd
      rfl
  · split_ifs at hd
    · cases hd
      rfl
    · cases hd
      rfl

/-- What the steps keep, the body of every form keeps. -/
theorem keeps_body {form : MemForm} {insn : U32}
    (h : StepsKeep port (form.stores insn) (form.early insn) R D F) (hform : form ≠ .undefined) :
    Keeps D F (form.body port insn) := by
  cases form with
  | undefined => exact absurd rfl hform
  | prefetch => exact h.nothing.of_total
  | vecUnsigned isLoad size => exact h.transferVecImm id .offset _ _ _ size
  | vecUnscaled isLoad size => exact h.transferVecImm id .offset _ _ _ size
  | vecIndexed isLoad mode size => exact h.transferVecImm id mode _ _ _ size
  | vecRegister isLoad size => exact h.transferVecReg id _ _ _ _ _ size
  | vecSingle postIndex =>
    rw [MemForm.body]
    dsimp only
    cases hd : decodeVecSingleStruct insn with
    | none => exact h.nothing.of_total
    | some d =>
      refine h.transferVecSingle (fun hstore => ?_) postIndex _ _ _
      rw [isLoad_of_decodeVecSingleStruct hd] at hstore
      exact hstore
  | vecMultiple isLoad interleaved postIndex regCount =>
    exact h.transferVecMultiple id interleaved postIndex _ _ _ _ regCount
  | vecPostPre isLoad mode size => exact h.postPreFp id mode _ _ _ size
  | vecPair isLoad mode size =>
    refine h.execFpPairTransfer id mode _ (fun hload => ?_) _ _ size
    rw [hload, Nat.mod_eq_of_lt (fieldRt_lt insn)]
    rfl
  | vecLiteral => exact h.literalVec _ _ _ _
  | loadUnprivileged ext size => exact h.loadUnprivileged ext _ _ _ size
  | storeUnprivileged size => exact h.storeUnprivileged rfl _ _ _ size
  | load ext mode size => exact h.load ext mode _ _ _ size
  | store mode size => exact h.store rfl mode _ _ _ size
  | loadUnsigned ext size => exact h.load ext .offset _ _ _ size
  | storeUnsigned size => exact h.store rfl .offset _ _ _ size
  | loadRegister ext size => exact h.loadReg ext _ _ _ _ _ size
  | register =>
    rw [MemForm.body]
    dsimp only
    split
    · exact h.loadReg .zero _ _ _ _ _ _
    · next hstore =>
      refine h.storeReg ?_ _ _ _ _ _ _
      rw [MemForm.stores, Bool.eq_false_iff.2 hstore]
      rfl
  | loadPair ext mode size => exact h.loadPair ext mode _ _ _ _ size
  | storePair mode size => exact h.storePair rfl mode _ _ _ _ size
  | literal ext size => exact h.literal ext _ _ size

/-! ## Loads only read the bus -/

/-- The buses of both states are related. -/
def OnBus (K : β → β → Prop) (s s' : VecCore β) : Prop := K s.core.bus s'.core.bus

/-- A body that does not write to memory keeps what the reads of the bus keep. -/
theorem steps_onBus {K : β → β → Prop} (h : port.ReadsKeep K) (early : Option Nat) :
    StepsKeep port false early (OnBus K) (OnBus K) (fun _ : Stop => OnBus K) where
  composes :=
    { refl := fun s => h.refl s.core.bus
      trans := fun hK hK' => h.trans hK hK'
      absorbs := fun hK hK' => h.trans hK hK' }
  weaken := id
  trans hK hK' := h.trans hK hK'
  relabel := id
  checkSpAlignment rn := by
    refine checkSpAlignment_ends ?_ ?_
    · intro s
      exact h.refl s.core.bus
    · intro s c hc
      exact h.refl s.core.bus
  checkDataAlignment va size access := by
    refine checkDataAlignment_ends ?_ ?_
    · intro s
      exact h.refl s.core.bus
    · intro s c hc
      exact h.refl s.core.bus
  rawMmuRead va size access := by
    refine rawMmuRead_ends ?_ ?_
    · intro s value core hcore
      have hread := h.mmuReadValue s.core va size access
      rwa [hcore] at hread
    · intro s core hcore
      have hread := h.mmuReadValue s.core va size access
      rwa [hcore] at hread
  rawMmuWrite hstores := by cases hstores
  setEarly vt q _ := keeps_modify fun s => h.refl s.core.bus
  setQregs s _ _ _ := h.refl s.core.bus
  setCpu s _ _ := h.refl s.core.bus

theorem finish_onBus {K : β → β → Prop} {m : Exec β Unit}
    (h : Keeps (OnBus K) (fun _ : Stop => OnBus K) m) (s : VecCore β) :
    K s.core.bus (m.finish s).core.bus := by
  rw [finish]
  rcases hm : m s with ⟨stop | u, s'⟩
  · have hstopped : OnBus K s s' := h.stopped hm
    cases stop with
    | raised => exact hstopped
    | failed va => exact hstopped
  · exact h.ended hm

end Exec

namespace BusPort.ReadsKeep

variable {β : Type} {port : BusPort β} {K : β → β → Prop} (h : port.ReadsKeep K)

include h

theorem loadExclusive (s : Core β) (rt rn : Nat) (addr : U64) (size : Nat) :
    K s.bus (s.loadExclusive port rt rn addr size).2.bus := by
  have hread := h.mmuRead s rn addr size true
  rw [Core.loadExclusive]
  split
  · next s₁ hc =>
    rw [hc] at hread
    exact hread
  · next value s₁ hc =>
    rw [hc] at hread
    exact hread

theorem loadExclusivePair (s : Core β) (rt rt2 rn : Nat) (addr : U64) (elemSize : Nat) :
    K s.bus (s.loadExclusivePair port rt rt2 rn addr elemSize).2.bus := by
  have hread := h.mmuRead s rn addr elemSize true
  rw [Core.loadExclusivePair]
  split
  · exact h.refl s.bus
  split
  · exact h.refl s.bus
  split
  · next s₁ hc =>
    rw [hc] at hread
    exact hread
  · next v1 s₁ hc =>
    rw [hc] at hread
    have hread₂ := h.mmuRead s₁ rn (addr + BitVec.ofNat 64 elemSize) elemSize true
    split
    · next s₂ hc₂ =>
      rw [hc₂] at hread₂
      exact h.trans hread hread₂
    · next v2 s₂ hc₂ =>
      rw [hc₂] at hread₂
      exact h.trans hread hread₂

theorem loadAcquire (s : Core β) (rt rn size : Nat) :
    K s.bus (s.loadAcquire port rt rn size).2.bus := by
  have hread := h.mmuRead s rn (s.cpu.spOrReg rn) size true
  rw [Core.loadAcquire]
  split
  · next s₁ hc =>
    rw [hc] at hread
    exact hread
  · next value s₁ hc =>
    rw [hc] at hread
    exact hread

end BusPort.ReadsKeep

/-! ### What the tests lead the loads to -/

/-- The body writes to memory, or may. -/
def LoadStoreOp.stores : LoadStoreOp → Bool
  | stxr _ | stxp _ | casp _ | cas _ | rmw _ _ | stlr _ => true
  | ldxr _ | ldxp _ | ldar _ | elsewhere => false

/-- Against the tests of the stores and atomics, in the order of the function: the test of CASP
leaves bit 31 alone, so it takes the load of a pair whose second register is 31. -/
theorem loadPatterns_loadStoreCases : ∀ p ∈ A64.loadPatterns, ∀ e ∈ loadStoreCases,
    p.Conflicts e.1 = true ∨ p.Within e.1 A64.exclusivePairZr = true ∨
      ∀ code < 4, (e.2 code).stores = false := by
  decide +kernel

/-- Against the other tests: a form that a load can lead to only reads, or does when bit 22 is as
in the load. -/
theorem loadPatterns_memFormCases : ∀ p ∈ A64.loadPatterns,
    ∀ form ∈ (p.outcomes memFormCases).reduceOption,
      form.stores 0 = false ∧ form.stores 0x400000 = false ∨
        p.mask.getLsbD 22 = true ∧ form.stores p.tag = false := by
  decide +kernel

/-- Whether a form stores is bit 22 of the word, or the form's own. -/
theorem MemForm.stores_congr (form : MemForm) {insn insn' : U32}
    (hbit : insn.getLsbD 22 = insn'.getLsbD 22) : form.stores insn = form.stores insn' := by
  cases form with
  | register => rw [stores, stores, hbit]
  | vecSingle postIndex => rw [stores, stores, hbit]
  | _ => rfl

theorem stores_of_decodeLoadStore {insn : U32} {op : LoadStoreOp} (hload : A64.IsLoad insn)
    (hpair : A64.exclusivePairZr.Matches insn = false) (hop : decodeLoadStore insn = some op) :
    op.stores = false := by
  obtain ⟨p, hp, hmatch⟩ := hload
  obtain ⟨form, hform, rfl⟩ := Option.map_eq_some_iff.1 hop
  obtain ⟨q, hq, hmatch'⟩ := Pattern.mem_of_decode hform
  rcases loadPatterns_loadStoreCases p hp _ hq with hconflict | hwithin | hreads
  · rw [Pattern.not_matches_of_conflicts hconflict hmatch'] at hmatch
    cases hmatch
  · rw [Pattern.matches_of_within hwithin hmatch hmatch'] at hpair
    cases hpair
  · exact hreads _ (fieldSize_lt insn)

theorem stores_of_decodeMemForm {insn : U32} {form : MemForm} (hload : A64.IsLoad insn)
    (hform : decodeMemForm insn = some form) : form.stores insn = false := by
  obtain ⟨p, hp, hmatch⟩ := hload
  have hmem := @Pattern.decode_mem_outcomes _ _ memFormCases _ _ hmatch
  rw [← decodeMemForm, hform, ← List.reduceOption_mem_iff] at hmem
  rcases loadPatterns_memFormCases p hp form hmem with ⟨hclear, hset⟩ | ⟨hmask, htag⟩
  · cases hbit : insn.getLsbD 22 with
    | false => exact (form.stores_congr hbit).trans hclear
    | true => exact (form.stores_congr hbit).trans hset
  · rw [← htag]
    refine form.stores_congr ?_
    rw [← Pattern.matches_iff.1 hmatch, BitVec.getLsbD_and, hmask, Bool.and_true]

namespace VecCore

variable {β : Type} {port : BusPort β} {K : β → β → Prop}

theorem execMemForm_onBus (h : port.ReadsKeep K) {insn : U32} (s : VecCore β)
    (hload : A64.IsLoad insn) : K s.core.bus (s.execMemForm port insn).2.core.bus := by
  rw [execMemForm]
  cases hdecode : decodeMemForm insn with
  | none => exact h.refl s.core.bus
  | some form =>
    dsimp only
    split
    · by_cases hundefined : form = .undefined
      · rw [hundefined]
        exact h.refl s.core.bus
      · have hsteps := Exec.steps_onBus h (form.early insn)
        rw [← stores_of_decodeMemForm hload hdecode] at hsteps
        exact Exec.finish_onBus (Exec.keeps_body hsteps hundefined) s
    · exact h.refl s.core.bus

/-- Whatever the reads of a bus keep, a load keeps, whether it faults or not. -/
theorem execLoadStore_onBus (h : port.ReadsKeep K) {insn : U32} (s : VecCore β)
    (hload : A64.IsLoad insn) (hpair : A64.exclusivePairZr.Matches insn = false) :
    K s.core.bus (s.execLoadStore port insn).2.core.bus := by
  rw [execLoadStore]
  split
  · exact h.refl s.core.bus
  · exact execMemForm_onBus h s hload
  · next op hop hdecode =>
    have hstores : op.stores = false := stores_of_decodeLoadStore hload hpair hdecode
    have hbus : K s.core.bus
        (s.core.execOp port (fun _ core => (false, core)) insn op).2.bus := by
      cases op with
      | ldxr size => exact h.loadExclusive _ _ _ _ _
      | ldxp elemSize => exact h.loadExclusivePair _ _ _ _ _ _
      | ldar size => exact h.loadAcquire _ _ _ _
      | elsewhere => exact h.refl s.core.bus
      | _ => cases hstores
    exact hbus

/-- On the bus of the SoC no load changes a byte of the RAMs, whether it faults or not: neither the
bytes that it reads, nor the walk of its translation, nor its exception writes one. The load of an
exclusive pair with register 31 as the second is left out, which the source takes for CASP. -/
theorem loads_write_nothing {E : Type} (attached : Bool) (io : SocIo E) (insn : U32)
    (s : VecCore (World E)) (hload : A64.IsLoad insn)
    (hpair : A64.exclusivePairZr.Matches insn = false) :
    (s.execLoadStore (socPort attached io) insn).2.core.bus.rams = s.core.bus.rams :=
  execLoadStore_onBus (socPort_reads_rams attached io) s hload hpair

/-- A CPU after reset on the bus of a new SoC. -/
def resetOnSoc : VecCore (World Unit) :=
  ⟨⟨Cpu.reset 0 0 0, SocBus.quietWorld, []⟩, fun _ => ⟨0, 0⟩⟩

/-- LD4 of the first 64 bytes of the boot RAM. -/
theorem loads_write_nothing_ld4 :
    (resetOnSoc.execLoadStore (socPort true Core.silentIo) 0x4C400000).2.core.bus.rams =
      resetOnSoc.core.bus.rams :=
  loads_write_nothing true Core.silentIo 0x4C400000 resetOnSoc (by decide +kernel)
    (by decide +kernel)

end VecCore
end Aarchvm
