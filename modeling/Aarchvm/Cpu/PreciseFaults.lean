import Aarchvm.Cpu.LoadStoreSteps
import Aarchvm.Cpu.SpBanks
import Aarchvm.Cpu.Step

/-!
# Faults of loads and stores are precise

A load or store that enters an exception has written no general register and no stack pointer, so
that the return from the exception comes back to the instruction with the state it began in. That
an exception is entered is up to the flag of the step: where it is set already, `data_abort` does
nothing and the instruction retires.
-/
namespace Aarchvm

open Lib Lib.Stopping

namespace Cpu

variable {c c' c'' : Cpu}

/-- What the return from an exception gives back is as before. -/
structure Kept (c c' : Cpu) : Prop where
  noEntry : NoEntry c c'
  regs : c'.regs = c.regs

theorem Kept.refl (c : Cpu) : Kept c c := ⟨.refl c, rfl⟩

theorem Kept.trans (h : Kept c c') (h' : Kept c' c'') : Kept c c'' :=
  ⟨h.noEntry.trans h'.noEntry, h'.regs.trans h.regs⟩

theorem kept_of_accessed (h : Accessed c c') : Kept c c' := ⟨h.noEntry, h.regs⟩

theorem kept_clearExclusiveMonitor (c : Cpu) : Kept c c.clearExclusiveMonitor :=
  ⟨noEntry_clearExclusiveMonitor c, rfl⟩

/-- An exception other than SVC was entered at the instruction before `pc`, and no register was
written before it. -/
def Faulted (c c' : Cpu) : Prop :=
  ∃ c₁ ec iss farValid far, Kept c c₁ ∧ ec ≠ 0x15 ∧
    Kept (c₁.enterSyncException (c₁.pc - 4) ec iss farValid far) c'

theorem DataClass.ne_svc {ec : U32} (h : DataClass ec) : ec ≠ 0x15 := by
  rintro rfl
  simp [DataClass] at h

theorem Raised.faulted (h : Raised c c') : Faulted c c' := by
  obtain ⟨c₁, ec, iss, farValid, far, ha, hec, hr⟩ := h
  exact ⟨c₁, ec, iss, farValid, far, kept_of_accessed ha, hec.ne_svc, kept_of_accessed hr⟩

theorem Faulted.after (h : Kept c c') (h' : Faulted c' c'') : Faulted c c'' := by
  obtain ⟨c₁, ec, iss, farValid, far, hk, hec, hr⟩ := h'
  exact ⟨c₁, ec, iss, farValid, far, h.trans hk, hec, hr⟩

theorem Faulted.andThen (h : Faulted c c') (h' : Kept c' c'') : Faulted c c'' := by
  obtain ⟨c₁, ec, iss, farValid, far, hk, hec, hr⟩ := h
  exact ⟨c₁, ec, iss, farValid, far, hk, hec, hr.trans h'⟩

theorem Faulted.taken (h : Faulted c c') : c'.exceptionTakenThisStep = true := by
  obtain ⟨c₁, ec, iss, farValid, far, -, -, hr⟩ := h
  rw [hr.noEntry.taken]
  exact ExclusiveWord.enterSyncException_taken _ _ _ _ _ _

/-- What an access that fails leaves: `data_abort` is still to come, or the exception is entered. -/
def Cut (c c' : Cpu) : Prop := Kept c c' ∨ Faulted c c'

theorem Failed.cut (h : Failed c c') : Cut c c' := by
  rcases h with ha | hr
  · exact .inl (kept_of_accessed ha)
  · exact .inr hr.faulted

theorem Cut.after (h : Kept c c') (h' : Cut c' c'') : Cut c c'' := h'.imp h.trans (.after h)

/-- `data_abort` where no exception has been taken in this step. -/
theorem Cut.dataAbort (h : Cut c c') (hflag : c.exceptionTakenThisStep = false) (va : U64) :
    Faulted c (c'.dataAbort va false) := by
  rcases h with hk | hf
  · exact .after hk (raised_of_dataAbort (hk.noEntry.taken.trans hflag)).faulted
  · rw [dataAbort_of_taken hf.taken]
    exact hf

end Cpu

open Cpu

/-! ## The steps of a body -/

/-- A body that can still stop: the vector registers but `early` are as before. -/
def Pristine {β : Type} (early : Option Nat) (s s' : VecCore β) : Prop :=
  Kept s.cpu s'.cpu ∧ ∀ i, early ≠ some i → s'.qregs i = s.qregs i

/-- Where it stops; a check that stops it has entered its exception. -/
structure Interrupted {β : Type} (early : Option Nat) (stop : Stop) (s s' : VecCore β) : Prop where
  cut : Cut s.cpu s'.cpu
  raised : stop = .raised → Faulted s.cpu s'.cpu
  qregs : ∀ i, early ≠ some i → s'.qregs i = s.qregs i

namespace Exec

variable {β : Type} {port : BusPort β} {stores : Bool} {early : Option Nat}

theorem pristine_setCpu {s : VecCore β} {c : Cpu} (h : Kept s.cpu c) :
    Pristine early s (s.setCpu c) := ⟨h, fun _ _ => rfl⟩

theorem interrupted_of_raised {s : VecCore β} {c : Cpu} (h : Raised s.cpu c) :
    Interrupted early .raised s (s.setCpu c) :=
  ⟨.inr h.faulted, fun _ => h.faulted, fun _ _ => rfl⟩

theorem interrupted_of_failed {s : VecCore β} {core : Core β} (h : Failed s.core.cpu core.cpu)
    (va : U64) : Interrupted early (.failed va) s (s.setCore core) :=
  ⟨h.cut, fun hstop => (by cases hstop), fun _ _ => rfl⟩

theorem steps_pristine (port : BusPort β) (stores : Bool) (early : Option Nat) :
    StepsKeep port stores early (Pristine early)
      (fun s s' : VecCore β => Silent s.cpu s'.cpu) (Interrupted early) where
  composes :=
    { refl := fun s => ⟨.refl _, fun _ _ => rfl⟩
      trans := fun h h' => ⟨h.1.trans h'.1, fun i hi => (h'.2 i hi).trans (h.2 i hi)⟩
      absorbs := fun h h' => ⟨h'.cut.after h.1, fun hstop => (h'.raised hstop).after h.1,
        fun i hi => (h'.qregs i hi).trans (h.2 i hi)⟩ }
  weaken h := h.1.noEntry.silent
  trans h h' := h.trans h'
  relabel h := ⟨h.cut, fun hstop => (by cases hstop), h.qregs⟩
  checkSpAlignment rn := checkSpAlignment_ends (fun _ => pristine_setCpu (.refl _)) fun hc =>
    interrupted_of_raised (raised_of_spAlignment hc)
  checkDataAlignment va size access :=
    checkDataAlignment_ends (fun _ => pristine_setCpu (.refl _)) fun hc =>
      interrupted_of_raised (raised_of_dataAlignment hc)
  rawMmuRead va size access := by
    refine rawMmuRead_ends (fun {s value core} hcore => ?_) fun {s core} hcore => ?_
    · have hspec := (Core.mmuReadValue_spec s.core va size access).accessed value
        (congrArg Prod.fst hcore)
      rw [hcore] at hspec
      exact ⟨kept_of_accessed hspec, fun _ _ => rfl⟩
    · have hspec := (Core.mmuReadValue_spec s.core va size access).failed
        (congrArg Prod.fst hcore)
      rw [hcore] at hspec
      exact interrupted_of_failed hspec va
  rawMmuWrite _ va value size access := by
    refine rawMmuWrite_ends (fun {s core} hcore => ?_) fun {s core} hcore => ?_
    · obtain ⟨c, haccessed, hcpu⟩ := (Core.mmuWriteValue_spec s.core va value size access).stored
        (congrArg Prod.fst hcore)
      rw [hcore] at hcpu
      have hkept : Kept s.core.cpu core.cpu := by
        rw [hcpu]
        exact (kept_of_accessed haccessed).trans (kept_clearExclusiveMonitor c)
      exact ⟨hkept, fun _ _ => rfl⟩
    · have hspec := (Core.mmuWriteValue_spec s.core va value size access).failed
        (congrArg Prod.fst hcore)
      rw [hcore] at hspec
      exact interrupted_of_failed hspec va
  setEarly vt q hearly := by
    refine keeps_modify fun s => ⟨.refl _, fun i hi => ?_⟩
    have hne : i ≠ vt % 32 := fun heq => hi (heq ▸ hearly)
    exact Function.update_of_ne hne _ _
  setQregs s vt count regs := ⟨rfl, rfl⟩
  setCpu s c h := h

end Exec

/-! ## How an instruction ends -/

namespace Cpu

variable {c c' c'' : Cpu}

/-- What is known of an instruction one of whose checks or accesses failed, and of one where all
of them succeeded. -/
structure Ending (fails : Prop) (c c' : Cpu) : Prop where
  through : ¬ fails → Silent c c'
  cut : fails → Cut c c'
  delivered : fails → c.exceptionTakenThisStep = false → Faulted c c'

theorem ending_through {fails : Prop} (hno : ¬ fails) (h : Silent c c') : Ending fails c c' :=
  ⟨fun _ => h, fun hf => absurd hf hno, fun hf => absurd hf hno⟩

theorem ending_raised {fails : Prop} (hf : fails) (h : Faulted c c') : Ending fails c c' :=
  ⟨fun hno => absurd hf hno, fun _ => .inr h, fun _ _ => h⟩

/-- `data_abort` is the last thing that is done for a failed access. -/
theorem ending_dataAbort {fails : Prop} (hf : fails) (h : Cut c c') (va : U64) :
    Ending fails c (c'.dataAbort va false) := by
  refine ⟨fun hno => absurd hf hno, fun _ => ?_, fun _ hflag => h.dataAbort hflag va⟩
  rcases h with hk | hfault
  · exact (failed_of_dataAbort c' va false).cut.after hk
  · rw [dataAbort_of_taken hfault.taken]
    exact .inr hfault

end Cpu

/-! ### Bodies -/

namespace Exec

variable {β : Type} {port : BusPort β}

/-- The body stops: a check enters its exception, or an access fails. -/
def Stops (m : Exec β Unit) (s : VecCore β) : Prop := ∃ stop s', m s = (.error stop, s')

theorem stops_of_error {m : Exec β Unit} {s s' : VecCore β} {stop : Stop}
    (h : m s = (.error stop, s')) : m.Stops s := ⟨stop, s', h⟩

theorem not_stops_of_ok {m : Exec β Unit} {s s' : VecCore β} {a : Unit} (h : m s = (.ok a, s')) :
    ¬ m.Stops s := by
  rintro ⟨stop, s'', hstop⟩
  rw [h] at hstop
  cases hstop

theorem ending_finish {early : Option Nat} {m : Exec β Unit}
    (h : Keeps (fun s s' : VecCore β => Silent s.cpu s'.cpu) (Interrupted early) m)
    (s : VecCore β) :
    Ending (m.Stops s) s.cpu (m.finish s).cpu ∧
      (m.Stops s → ∀ i, early ≠ some i → (m.finish s).qregs i = s.qregs i) := by
  rw [finish]
  rcases hm : m s with ⟨stop | u, s'⟩
  · have hi := h.stopped hm
    have hstops := stops_of_error hm
    cases stop with
    | raised => exact ⟨ending_raised hstops (hi.raised rfl), fun _ => hi.qregs⟩
    | failed va => exact ⟨ending_dataAbort hstops hi.cut va, fun _ => hi.qregs⟩
  · have hno := not_stops_of_ok hm
    exact ⟨ending_through hno (h.ended hm), fun hf => absurd hf hno⟩

end Exec

/-! ### Exclusives, atomics and ordered accesses -/

namespace Core

variable {β : Type} {port : BusPort β} {s s₁ : Core β} {c : Cpu}

/-- The flag of a body is false when an access or a check of it failed. -/
def Tells (c : Cpu) (r : Bool × Core β) : Prop := Ending (r.1 = false) c r.2.cpu

theorem tells_through (h : Silent c s.cpu) : Tells c (true, s) := ending_through (by simp) h

theorem tells_raised {c' : Cpu} (h : Raised c c') : Tells c (false, s.setCpu c') :=
  ending_raised rfl h.faulted

theorem tells_dataAbort (h : Cut c s.cpu) (va : U64) : Tells c (false, s.dataAbort va) :=
  ending_dataAbort rfl h va

theorem cut_of_read {rn size : Nat} {va : U64} {forceCheck : Bool} (hk : Kept c s.cpu)
    (h : s.mmuRead port rn va size forceCheck = (none, s₁)) : Cut c s₁.cpu := by
  have hfailed := (@mmuRead_spec β port s rn va size forceCheck).failed (by rw [h])
  rw [h] at hfailed
  exact hfailed.cut.after hk

theorem kept_of_read {rn size : Nat} {va value : U64} {forceCheck : Bool} (hk : Kept c s.cpu)
    (h : s.mmuRead port rn va size forceCheck = (some value, s₁)) : Kept c s₁.cpu := by
  have haccessed := (@mmuRead_spec β port s rn va size forceCheck).accessed value (by rw [h])
  rw [h] at haccessed
  exact hk.trans (kept_of_accessed haccessed)

theorem cut_of_write {r : Bool × Core β} (hspec : WriteSpec s r) (hk : Kept c s.cpu)
    (h : r = (false, s₁)) : Cut c s₁.cpu := by
  have hfailed := hspec.failed (by rw [h])
  rw [h] at hfailed
  exact hfailed.cut.after hk

theorem kept_of_write {r : Bool × Core β} (hspec : WriteSpec s r) (hk : Kept c s.cpu)
    (h : r = (true, s₁)) : Kept c s₁.cpu := by
  obtain ⟨c₁, haccessed, hcpu⟩ := hspec.stored (by rw [h])
  rw [h] at hcpu
  dsimp only at hcpu
  rw [hcpu]
  exact hk.trans ((kept_of_accessed haccessed).trans (kept_clearExclusiveMonitor c₁))

theorem silent_setExclusiveMonitor (c : Cpu) (readDesc : U64 → Option U64) (va : U64)
    (size : Nat) : Silent c (c.setExclusiveMonitor readDesc va size) := by
  have hcapture := accessed_captureExclusivePhysAddrs c.clearExclusiveMonitor readDesc va size false
  have hclear := (noEntry_clearExclusiveMonitor c).silent
  rw [setExclusiveMonitor]
  split
  · next c' hc =>
    rw [hc] at hcapture
    exact hclear.trans hcapture.noEntry.silent
  · next pas c' hc =>
    rw [hc] at hcapture
    exact (hclear.trans hcapture.noEntry.silent).trans ⟨rfl, rfl⟩

theorem loadExclusive_tells (rt rn : Nat) (addr : U64) (size : Nat) :
    Tells s.cpu (s.loadExclusive port rt rn addr size) := by
  rw [loadExclusive]
  split
  · next s₁ hread => exact tells_dataAbort (cut_of_read (.refl _) hread) addr
  · next value s₁ hread =>
    exact tells_through ((kept_of_read (.refl _) hread).noEntry.silent.trans
      ((silent_setRegSized s₁.cpu rt value size).trans (silent_setExclusiveMonitor _ _ _ _)))

theorem loadExclusivePair_tells (rt rt2 rn : Nat) (addr : U64) (elemSize : Nat) :
    Tells s.cpu (s.loadExclusivePair port rt rt2 rn addr elemSize) := by
  rw [loadExclusivePair]
  split
  · next c hc => exact tells_raised (raised_of_spAlignment hc)
  split
  · next c hc => exact tells_raised (raised_of_dataAlignment hc)
  split
  · next s₁ hread => exact tells_dataAbort (cut_of_read (.refl _) hread) addr
  · next v1 s₁ hread =>
    have hk₁ := kept_of_read (.refl _) hread
    split
    · next s₂ hread₂ => exact tells_dataAbort (cut_of_read hk₁ hread₂) addr
    · next v2 s₂ hread₂ =>
      refine tells_through ((kept_of_read hk₁ hread₂).noEntry.silent.trans ?_)
      exact ((silent_setRegSized s₂.cpu rt v1 elemSize).trans
        (silent_setRegSized _ rt2 v2 elemSize)).trans (silent_setExclusiveMonitor _ _ _ _)

theorem storeExclusiveWith_ending (rs rn : Nat) (addr : U64) (size : Nat)
    {write : Core β → Bool × Core β} (hwrite : ∀ s₁, WriteSpec s₁ (write s₁)) :
    Ending ((s.storeExclusiveWith port rs rn addr size write).1 = .faulted) s.cpu
      (s.storeExclusiveWith port rs rn addr size write).2.cpu := by
  rw [storeExclusiveWith]
  split
  · next c hc =>
    exact ending_raised rfl
      ((raised_of_spAlignment hc).faulted.andThen (kept_clearExclusiveMonitor c))
  split
  · next c hc =>
    exact ending_raised rfl
      ((raised_of_dataAlignment hc).faulted.andThen (kept_clearExclusiveMonitor c))
  have hcheck := accessed_checkExclusiveMonitor s.cpu (port.readDesc s.bus) addr size
  split
  · next c hc =>
    rw [hc] at hcheck
    exact ending_dataAbort rfl
      (.inl ((kept_of_accessed hcheck).trans (kept_clearExclusiveMonitor c))) addr
  · next c hc =>
    rw [hc] at hcheck
    refine ending_through (by simp) ?_
    exact ((kept_of_accessed hcheck).trans (kept_clearExclusiveMonitor c)).noEntry.silent.trans
      (silent_setReg _ rs 1)
  · next c hc =>
    rw [hc] at hcheck
    have hk : Kept s.cpu (s.setCpu c.clearExclusiveMonitor).cpu :=
      (kept_of_accessed hcheck).trans (kept_clearExclusiveMonitor c)
    split
    · next s₁ hw => exact ending_dataAbort rfl (cut_of_write (hwrite _) hk hw) addr
    · next s₁ hw =>
      refine ending_through (by simp) ?_
      exact (kept_of_write (hwrite _) hk hw).noEntry.silent.trans (silent_setReg _ rs 0)

theorem compareAndSwapPair_tells (rs rt rn elemSize : Nat) :
    Tells s.cpu (s.compareAndSwapPair port rs rt rn elemSize) := by
  rw [compareAndSwapPair]
  dsimp only
  split
  · next c hc => exact tells_raised (raised_of_spAlignment hc)
  split
  · next c hc => exact tells_raised (raised_of_dataAlignment hc)
  split
  · next s₁ hread => exact tells_dataAbort (cut_of_read (.refl _) hread) _
  · next oldLo s₁ hread =>
    have hk₁ := kept_of_read (.refl _) hread
    split
    · next s₂ hread₂ => exact tells_dataAbort (cut_of_read hk₁ hread₂) _
    · next oldHi s₂ hread₂ =>
      have hk₂ := kept_of_read hk₁ hread₂
      have hregs : ∀ {s₃ : Core β} {lo hi : U64}, Kept s.cpu s₃.cpu → Tells s.cpu (true,
          s₃.setCpu ((s₃.cpu.setRegSized rs lo elemSize).setRegSized (rs + 1) hi elemSize)) :=
        fun hk => tells_through (hk.noEntry.silent.trans ((silent_setRegSized _ rs _ elemSize).trans
          (silent_setRegSized _ (rs + 1) _ elemSize)))
      split_ifs
      · split
        · next s₃ hw =>
          exact tells_dataAbort (cut_of_write (rawMmuWritePairAtomic_spec s₂ _ _ _ _) hk₂ hw) _
        · next s₃ hw =>
          exact hregs (kept_of_write (rawMmuWritePairAtomic_spec s₂ _ _ _ _) hk₂ hw)
      · exact hregs hk₂

theorem compareAndSwap_tells (rs rt rn size : Nat) :
    Tells s.cpu (s.compareAndSwap port rs rt rn size) := by
  rw [compareAndSwap]
  dsimp only
  split
  · next s₁ hread => exact tells_dataAbort (cut_of_read (.refl _) hread) _
  · next old s₁ hread =>
    have hk₁ := kept_of_read (.refl _) hread
    have hregs : ∀ {s₂ : Core β} {value : U64}, Kept s.cpu s₂.cpu →
        Tells s.cpu (true, s₂.setCpu (s₂.cpu.setRegSized rs value size)) :=
      fun hk => tells_through (hk.noEntry.silent.trans (silent_setRegSized _ rs _ size))
    split_ifs
    · split
      · next s₂ hw =>
        exact tells_dataAbort (cut_of_write (mmuWrite_spec s₁ rn _ _ size .write true) hk₁ hw) _
      · next s₂ hw => exact hregs (kept_of_write (mmuWrite_spec s₁ rn _ _ size .write true) hk₁ hw)
    · exact hregs hk₁

theorem atomicRmw_tells (fn : AtomicFn) (rs rt rn size : Nat) :
    Tells s.cpu (s.atomicRmw port fn rs rt rn size) := by
  rw [atomicRmw]
  dsimp only
  split
  · next s₁ hread => exact tells_dataAbort (cut_of_read (.refl _) hread) _
  · next old s₁ hread =>
    have hk₁ := kept_of_read (.refl _) hread
    split
    · next s₂ hw =>
      exact tells_dataAbort (cut_of_write (mmuWrite_spec s₁ rn _ _ size .write true) hk₁ hw) _
    · next s₂ hw =>
      exact tells_through ((kept_of_write (mmuWrite_spec s₁ rn _ _ size .write true) hk₁
        hw).noEntry.silent.trans (silent_setRegSized _ rt _ size))

theorem loadAcquire_tells (rt rn size : Nat) : Tells s.cpu (s.loadAcquire port rt rn size) := by
  rw [loadAcquire]
  split
  · next s₁ hread => exact tells_dataAbort (cut_of_read (.refl _) hread) _
  · next value s₁ hread =>
    exact tells_through ((kept_of_read (.refl _) hread).noEntry.silent.trans
      (silent_setRegSized _ rt _ size))

theorem storeRelease_tells (rt rn size : Nat) : Tells s.cpu (s.storeRelease port rt rn size) := by
  have hspec := @mmuWrite_spec β port s rn (s.cpu.spOrReg rn) (s.cpu.regSized rt size) size
    .write true
  rw [storeRelease]
  split
  · next s₁ hw => exact tells_dataAbort (cut_of_write hspec (.refl _) hw) _
  · next s₁ hw => exact tells_through (kept_of_write hspec (.refl _) hw).noEntry.silent

variable (port) in
/-- A check or an access of the body fails. -/
def opFails (insn : U32) (s : Core β) : LoadStoreOp → Bool
  | .ldxr size =>
    (s.loadExclusive port (fieldRt insn) (fieldRn insn) (s.cpu.spOrReg (fieldRn insn)) size).1
      == false
  | .stxr size =>
    (s.storeExclusive port (fieldRs insn) (fieldRn insn) (s.cpu.spOrReg (fieldRn insn))
      (s.cpu.regSized (fieldRt insn) size) size).1 == .faulted
  | .ldxp elemSize =>
    (s.loadExclusivePair port (fieldRt insn) (fieldRt2 insn) (fieldRn insn)
      (s.cpu.spOrReg (fieldRn insn)) elemSize).1 == false
  | .stxp elemSize =>
    (s.storeExclusivePair port (fieldRs insn) (fieldRn insn)
      (s.cpu.spOrReg (fieldRn insn)) (s.cpu.regSized (fieldRt insn) elemSize)
      (s.cpu.regSized (fieldRt2 insn) elemSize) elemSize).1 == .faulted
  | .casp elemSize =>
    (s.compareAndSwapPair port (fieldRs insn) (fieldRt insn) (fieldRn insn) elemSize).1 == false
  | .cas size =>
    (s.compareAndSwap port (fieldRs insn) (fieldRt insn) (fieldRn insn) size).1 == false
  | .rmw fn size =>
    (s.atomicRmw port fn (fieldRs insn) (fieldRt insn) (fieldRn insn) size).1 == false
  | .ldar size => (s.loadAcquire port (fieldRt insn) (fieldRn insn) size).1 == false
  | .stlr size => (s.storeRelease port (fieldRt insn) (fieldRn insn) size).1 == false
  | .elsewhere => false

theorem execOp_ending (other : Elsewhere β) {insn : U32} {op : LoadStoreOp}
    (hop : op ≠ .elsewhere) :
    Ending (s.opFails port insn op = true) s.cpu (s.execOp port other insn op).2.cpu := by
  cases op with
  | elsewhere => exact absurd rfl hop
  | ldxr size =>
    rw [opFails, beq_iff_eq]
    exact loadExclusive_tells _ _ _ size
  | stxr size =>
    rw [opFails, beq_iff_eq]
    exact storeExclusiveWith_ending _ _ _ size fun s₁ => mmuWriteValue_spec s₁ _ _ size .write
  | ldxp elemSize =>
    rw [opFails, beq_iff_eq]
    exact loadExclusivePair_tells _ _ _ _ elemSize
  | stxp elemSize =>
    rw [opFails, beq_iff_eq]
    exact storeExclusiveWith_ending _ _ _ _ fun s₁ => rawMmuWritePairAtomic_spec s₁ _ _ _ elemSize
  | casp elemSize =>
    rw [opFails, beq_iff_eq]
    exact compareAndSwapPair_tells _ _ _ elemSize
  | cas size =>
    rw [opFails, beq_iff_eq]
    exact compareAndSwap_tells _ _ _ size
  | rmw fn size =>
    rw [opFails, beq_iff_eq]
    exact atomicRmw_tells fn _ _ _ size
  | ldar size =>
    rw [opFails, beq_iff_eq]
    exact loadAcquire_tells _ _ size
  | stlr size =>
    rw [opFails, beq_iff_eq]
    exact storeRelease_tells _ _ size

end Core

/-! ## The whole function -/

/-- The vector register that the word may write and then still enter an exception. -/
def earlyRegister (insn : U32) : Option Nat :=
  if decodeLoadStore insn = some .elsewhere then (decodeMemForm insn).bind (·.early insn) else none

namespace VecCore

variable {β : Type} (port : BusPort β) {insn : U32}

/-- A check or an access of the instruction fails. -/
def AccessFails (insn : U32) (s : VecCore β) : Prop :=
  ∃ op, decodeLoadStore insn = some op ∧
    if op = .elsewhere then
      ∃ form, decodeMemForm insn = some form ∧ form.allocated insn = true ∧
        (form.body port insn).Stops s
    else s.core.opFails port insn op = true

/-- The forms: UNDEFINED enters its exception and is done. -/
theorem execMemForm_ending (hform : decodeLoadStore insn = some .elsewhere) (s : VecCore β) :
    (decodeMemForm insn = some .undefined ∧ Faulted s.cpu (s.execMemForm port insn).2.cpu ∧
        (s.execMemForm port insn).2.qregs = s.qregs) ∨
      Ending (s.AccessFails port insn) s.cpu (s.execMemForm port insn).2.cpu ∧
        (s.AccessFails port insn → ∀ i, earlyRegister insn ≠ some i →
          (s.execMemForm port insn).2.qregs i = s.qregs i) := by
  have hfails : s.AccessFails port insn ↔ ∃ form, decodeMemForm insn = some form ∧
      form.allocated insn = true ∧ (form.body port insn).Stops s := by
    rw [AccessFails, hform]
    simp
  have hearly : earlyRegister insn = (decodeMemForm insn).bind (·.early insn) := if_pos hform
  rw [execMemForm]
  cases hdecode : decodeMemForm insn with
  | none =>
    have hno : ¬ s.AccessFails port insn := by
      rw [hfails, hdecode]
      simp
    exact .inr ⟨ending_through hno ⟨rfl, rfl⟩, fun hf => absurd hf hno⟩
  | some form =>
    dsimp only
    by_cases hallocated : form.allocated insn = true
    · rw [if_pos hallocated]
      by_cases hundefined : form = .undefined
      · subst hundefined
        exact .inl ⟨rfl, ⟨s.cpu, 0, 0, false, 0, .refl _, by decide, .refl _⟩, rfl⟩
      · have hstops : s.AccessFails port insn ↔ (form.body port insn).Stops s := by
          rw [hfails, hdecode]
          simp [hallocated]
        have hearly' : earlyRegister insn = form.early insn := by rw [hearly, hdecode]; rfl
        rw [hstops, hearly']
        exact .inr
          (Exec.ending_finish (Exec.keeps_body (Exec.steps_pristine port _ _) hundefined) s)
    · rw [if_neg hallocated]
      have hno : ¬ s.AccessFails port insn := by
        rw [hfails, hdecode]
        simp [hallocated]
      exact .inr ⟨ending_through hno ⟨rfl, rfl⟩, fun hf => absurd hf hno⟩

/-- Loads and stores: either it is UNDEFINED, or it ends as its accesses did. -/
theorem execLoadStore_ending (insn : U32) (s : VecCore β) :
    (¬ s.AccessFails port insn ∧ Faulted s.cpu (s.execLoadStore port insn).2.cpu ∧
        (s.execLoadStore port insn).2.qregs = s.qregs) ∨
      Ending (s.AccessFails port insn) s.cpu (s.execLoadStore port insn).2.cpu ∧
        (s.AccessFails port insn → ∀ i, earlyRegister insn ≠ some i →
          (s.execLoadStore port insn).2.qregs i = s.qregs i) := by
  rw [execLoadStore]
  split
  · next hdecode =>
    have hno : ¬ s.AccessFails port insn := by
      rw [AccessFails, hdecode]
      simp
    exact .inr ⟨ending_through hno ⟨rfl, rfl⟩, fun hf => absurd hf hno⟩
  · next hdecode =>
    rcases execMemForm_ending port hdecode s with ⟨hundefined, hfault⟩ | hending
    · refine .inl ⟨?_, hfault⟩
      rw [AccessFails, hdecode]
      rintro ⟨op, hop, hform⟩
      cases hop
      rw [if_pos rfl] at hform
      obtain ⟨form, hform, -, stop, s', hstop⟩ := hform
      rw [hundefined] at hform
      cases hform
      cases hstop
    · exact .inr hending
  · next op hop hdecode =>
    have hne : op ≠ .elsewhere := hop
    have hfails : s.AccessFails port insn ↔ s.core.opFails port insn op = true := by
      rw [AccessFails, hdecode]
      simp [hne]
    have hending := @Core.execOp_ending β port s.core (fun _ core => (false, core)) insn op hne
    rcases hcore : s.core.execOp port (fun _ core => (false, core)) insn op with ⟨taken, core⟩
    rw [hcore, ← hfails] at hending
    exact .inr ⟨hending, fun _ _ _ => rfl⟩

end VecCore

/-! ## Coming back -/

namespace Cpu

variable {c c' : Cpu} {b : Banks}

theorem eret_sameGprs (c : Cpu) (g : GicV3) : SameGprs c (c.eret g).1 := by
  intro i hi
  have hne : i ≠ 31 := by omega
  rw [eret]
  dsimp only
  rw [(Nest.popException_frame _ g).2.1]
  dsimp only [loadCurrentSpFromBank]
  rw [if_neg hne, saveCurrentSpToBank_regs]

theorem Kept.coherent (h : Kept c c') (hc : Nest.Coherent c b) : Nest.Coherent c' b := by
  refine ⟨?_, ?_, ?_, ?_, ?_⟩
  · rw [h.noEntry.sysregs]
    exact hc.legal
  · rw [h.noEntry.sysregs]
    exact hc.spsel
  · rw [h.noEntry.sysregs]
    exact hc.banked.el0
  · rw [h.noEntry.sysregs]
    exact hc.banked.el1
  · rw [h.noEntry.sysregs, h.regs]
    exact hc.banked.current

/-- Where an exception was entered there was room for its frame. -/
theorem Faulted.entered (h : Faulted c c') (hentered : c'.exceptions ≠ c.exceptions) :
    ∃ c₁ ec iss farValid far, Kept c c₁ ∧ ec ≠ 0x15 ∧
      c₁.exceptions.depth < kExceptionStackCapacity ∧
      Kept (c₁.enterSyncException (c₁.pc - 4) ec iss farValid far) c' := by
  obtain ⟨c₁, ec, iss, farValid, far, hk, hec, hr⟩ := h
  refine ⟨c₁, ec, iss, farValid, far, hk, hec, ?_, hr⟩
  by_contra hfull
  refine hentered ?_
  rw [hr.noEntry.exceptions, enterSyncException_of_full _ _ _ _ _ hfull]
  exact hk.noEntry.exceptions

theorem Faulted.sameGprs (h : Faulted c c') : SameGprs c c' := by
  obtain ⟨c₁, ec, iss, farValid, far, hk, -, hr⟩ := h
  intro i hi
  rw [hr.regs, sameGprs_enterSyncException _ _ _ _ _ _ i hi, hk.regs]

theorem enterSyncException_elr {c : Cpu} (faultPc : U64) (ec iss : U32) (farValid : Bool)
    (far : U64) (h : c.exceptions.depth < kExceptionStackCapacity) :
    (c.enterSyncException faultPc ec iss farValid far).sysregs.elrEl1 =
      syncReturnPc faultPc ec := by
  rw [enterSyncException, dif_pos h]
  rfl

theorem Faulted.elr (h : Faulted c c') (hroom : c.exceptions.depth < kExceptionStackCapacity) :
    c'.sysregs.elrEl1 = c.pc - 4 ∧ c'.exceptions.depth = c.exceptions.depth + 1 := by
  obtain ⟨c₁, ec, iss, farValid, far, hk, hec, hr⟩ := h
  rw [← hk.noEntry.exceptions] at hroom ⊢
  constructor
  · rw [hr.noEntry.sysregs, enterSyncException_elr _ _ _ _ _ hroom, syncReturnPc, if_neg hec,
      hk.noEntry.pc]
  · rw [hr.noEntry.exceptions, (enterSyncException_of_room _ _ _ _ _ hroom).1]
    rfl

/-- The handler is done: the general registers, both stack pointers, ELR_EL1 and SPSR_EL1 are as
the entry left them. -/
structure HandsBack (b : Banks) (entered handler : Cpu) : Prop where
  el1 : handler.sysregs.inEl0 = false
  coherent : Nest.Coherent handler b
  gprs : SameGprs entered handler
  elr : handler.sysregs.elrEl1 = entered.sysregs.elrEl1
  spsr : handler.sysregs.spsrEl1 = entered.sysregs.spsrEl1

/-- Every register, the stack pointer, PSTATE but for SS and the mode are those of `c`, and `pc` is
back at the instruction before it. -/
structure Restarted (c c' : Cpu) : Prop where
  pc : c'.pc = c.pc - 4
  regs : ∀ i ≤ 31, c'.regs i = c.regs i
  pstate : c'.sysregs.pstate.SameButSs c.sysregs.pstate
  spsel : c'.sysregs.spsel = c.sysregs.spsel

theorem Faulted.restarted (h : Faulted c c') (hentered : c'.exceptions ≠ c.exceptions)
    (hc : Nest.Coherent c b) {handler : Cpu} (hback : HandsBack b c' handler) (g : GicV3) :
    Restarted c (handler.eret g).1 := by
  have hgprs := h.sameGprs
  obtain ⟨c₁, ec, iss, farValid, far, hk, hec, hroom, hr⟩ := h.entered hentered
  have hc₁ := hk.coherent hc
  have hsaved := Nest.saved_enterSync (c₁.pc - 4) ec iss farValid far hroom hc₁
  have helr : handler.sysregs.elrEl1 =
      (c₁.enterSyncException (c₁.pc - 4) ec iss farValid far).sysregs.elrEl1 := by
    rw [hback.elr, hr.noEntry.sysregs]
  have hspsr : handler.sysregs.spsrEl1 =
      (c₁.enterSyncException (c₁.pc - 4) ec iss farValid far).sysregs.spsrEl1 := by
    rw [hback.spsr, hr.noEntry.sysregs]
  obtain ⟨hpc, hpstate, hspsel, hsp⟩ :=
    Nest.eret_restores g hsaved hback.coherent helr hspsr
  have hret : syncReturnPc (c₁.pc - 4) ec = c.pc - 4 := by
    rw [syncReturnPc, if_neg hec, hk.noEntry.pc]
  refine ⟨hpc.trans hret, fun i hi => ?_, ?_, ?_⟩
  · by_cases hlast : i = 31
    · subst hlast
      rw [hsp, ← hk.regs, hc₁.banked.current]
      rfl
    · have hlt : i < 31 := by omega
      rw [eret_sameGprs handler g i hlt, hback.gprs i hlt, hgprs i hlt]
  · rw [← hk.noEntry.sysregs]
    exact hpstate
  · rw [← hk.noEntry.sysregs]
    exact hspsel

end Cpu

namespace VecCore

variable {β : Type} (port : BusPort β)

/-- A load or store that enters an exception can be executed again: its address is in ELR_EL1, no
general register is written, no vector register but the first of a pair, and when the handler
hands back what it found the return is to the instruction with the state that it began in. -/
theorem fault_restarts (insn : U32) (s : VecCore β) {b : Banks}
    (hcoherent : Nest.Coherent s.cpu b)
    (hentered : (s.execLoadStore port insn).2.cpu.exceptions ≠ s.cpu.exceptions) :
    (s.execLoadStore port insn).2.cpu.sysregs.elrEl1 = s.cpu.pc - 4 ∧
      SameGprs s.cpu (s.execLoadStore port insn).2.cpu ∧
      (∀ i, earlyRegister insn ≠ some i →
        (s.execLoadStore port insn).2.qregs i = s.qregs i) ∧
      ∀ handler g, HandsBack b (s.execLoadStore port insn).2.cpu handler →
        Restarted s.cpu (handler.eret g).1 := by
  have hfault : Faulted s.cpu (s.execLoadStore port insn).2.cpu ∧ ∀ i, earlyRegister insn ≠ some i →
      (s.execLoadStore port insn).2.qregs i = s.qregs i := by
    rcases execLoadStore_ending port insn s with ⟨-, hf, hq⟩ | ⟨hending, hq⟩
    · exact ⟨hf, fun i _ => by rw [hq]⟩
    · by_cases hfails : s.AccessFails port insn
      · rcases hending.cut hfails with hk | hf
        · exact absurd hk.noEntry.exceptions hentered
        · exact ⟨hf, hq hfails⟩
      · exact absurd (hending.through hfails).exceptions hentered
  obtain ⟨c₁, ec, iss, farValid, far, hk, hec, hroom, hr⟩ := hfault.1.entered hentered
  have hroom' : s.cpu.exceptions.depth < kExceptionStackCapacity := by
    rw [← hk.noEntry.exceptions]
    exact hroom
  exact ⟨(hfault.1.elr hroom').1, hfault.1.sameGprs, hfault.2,
    fun handler g hback => hfault.1.restarted hentered hcoherent hback g⟩

/-- A CPU at 0x1000 with SCTLR_EL1.SA set and 8 in its stack pointer. -/
def misalignedCpu : Cpu :=
  { Cpu.reset 0 8 0x1000 with
    sysregs := { SystemRegisters.reset with sctlrEl1 := 0x8, spEl1 := 8 } }

def misalignedLoad : VecCore Unit := ⟨⟨misalignedCpu, (), []⟩, fun _ => ⟨0, 0⟩⟩

/-- LDR X1, [SP], #16. -/
theorem fault_restarts_ldr :
    (misalignedLoad.execLoadStore ExclusiveWord.fivePort 0xF84107E1).2.cpu.sysregs.elrEl1 =
        misalignedLoad.cpu.pc - 4 ∧
      SameGprs misalignedLoad.cpu
        (misalignedLoad.execLoadStore ExclusiveWord.fivePort 0xF84107E1).2.cpu ∧
      (∀ i, earlyRegister 0xF84107E1 ≠ some i →
        (misalignedLoad.execLoadStore ExclusiveWord.fivePort 0xF84107E1).2.qregs i =
          misalignedLoad.qregs i) ∧
      ∀ handler g, HandsBack ⟨0, 8⟩
          (misalignedLoad.execLoadStore ExclusiveWord.fivePort 0xF84107E1).2.cpu handler →
        Restarted misalignedLoad.cpu (handler.eret g).1 := by
  have hbase : BaseIsSp 0xF84107E1 := by decide +kernel
  obtain ⟨c, hc, hcase⟩ :=
    execLoadStore_misaligned ExclusiveWord.fivePort (s := misalignedLoad) hbase (by decide)
  refine fault_restarts _ _ _ ⟨.inr (.inr rfl), rfl, rfl, rfl, rfl⟩ fun heq => ?_
  have hdepth := congrArg Stack.depth heq
  rw [hc] at hdepth
  rcases hcase with rfl | rfl
  · exact absurd hdepth (by decide)
  · exact absurd hdepth (by decide)

end VecCore

/-! ## The step around it -/

namespace StepState

variable {β : Type} {port : BusPort β} {exec : U32 → StepState β → StepState β}
  {s s₂ : StepState β} {insn : U32} {qregs : Nat → QReg}

/-- The CPU with its vector registers as a load or store finds it. -/
def withQregs (s : StepState β) (qregs : Nat → QReg) : VecCore β := ⟨⟨s.cpu, s.bus, []⟩, qregs⟩

/-- `exec_load_store` as `step` calls it. -/
def execLoadStore (port : BusPort β) (qregs : Nat → QReg) (insn : U32) (s : StepState β) :
    StepState β :=
  let s' := ((s.withQregs qregs).execLoadStore port insn).2
  { s with cpu := s'.cpu, bus := s'.core.bus }

/-- The step ended in an exception of the instruction before `pc`. -/
structure Delivers (c c' : Cpu) : Prop where
  depth : c'.exceptions.depth = c.exceptions.depth + 1
  elr : c'.sysregs.elrEl1 = c.pc - 4
  gprs : SameGprs c c'

/-- The instruction retired with `pc` past it: the exceptions, the system registers and the general
registers are as before it. What it stored, and a vector register that it loaded, before the access
that failed stay. -/
structure Retires (c c' : Cpu) : Prop where
  exceptions : c'.exceptions = c.exceptions
  sysregs : c'.sysregs = c.sysregs
  regs : c'.regs = c.regs
  pc : c'.pc = normalizeStage1Address c.sysregs.tcrEl1 c.pc

theorem finishInstruction_of_taken {stepped : Bool} (h : s.cpu.exceptionTakenThisStep = true) :
    (s.finishInstruction stepped insn).cpu = { s.cpu with
      steppedInstructionInFlight := false
      pc := normalizeStage1Address s.cpu.sysregs.tcrEl1 s.cpu.pc } := by
  rw [finishInstruction]
  dsimp only
  rw [h, if_neg (by simp)]
  rfl

theorem delivers_of_faulted {stepped : Bool} {c : Cpu}
    (hroom : c.exceptions.depth < kExceptionStackCapacity) (h : Faulted c s.cpu) :
    Delivers c (s.finishInstruction stepped insn).cpu := by
  obtain ⟨helr, hdepth⟩ := h.elr hroom
  rw [finishInstruction_of_taken h.taken]
  exact ⟨hdepth, helr, h.sameGprs⟩

/-- A load or store one of whose checks or accesses fails, with room on the exception stack: in a
step without an interrupt probe it ends in its exception; after a probe that found nothing it may
retire instead, with its registers as they were. No vector register but the first of a pair load
is written. -/
theorem failing_access_ends (hexecutes : s.executes port = some (insn, s₂))
    (hexec : exec insn s₂ = s₂.execLoadStore port qregs insn)
    (hroom : s₂.cpu.exceptions.depth < kExceptionStackCapacity)
    (hfails : (s₂.withQregs qregs).AccessFails port insn) :
    (s.cpu.shouldTryIrq s.gic = false → Delivers s₂.cpu (s.step port exec).cpu) ∧
      (Delivers s₂.cpu (s.step port exec).cpu ∨
        s.cpu.shouldTryIrq s.gic = true ∧ Retires s₂.cpu (s.step port exec).cpu) ∧
      ∀ i, earlyRegister insn ≠ some i →
        ((s₂.withQregs qregs).execLoadStore port insn).2.qregs i = qregs i := by
  obtain ⟨hstarted, hstep⟩ := executes_spec exec hexecutes
  obtain ⟨hending, hqregs⟩ :
      Ending ((s₂.withQregs qregs).AccessFails port insn) s₂.cpu (exec insn s₂).cpu ∧
        ∀ i, earlyRegister insn ≠ some i →
          ((s₂.withQregs qregs).execLoadStore port insn).2.qregs i = qregs i := by
    rw [hexec]
    rcases VecCore.execLoadStore_ending port insn (s₂.withQregs qregs) with
      ⟨hno, -⟩ | ⟨hending, hqregs⟩
    · exact absurd hfails hno
    · exact ⟨hending, hqregs hfails⟩
  rw [hstep]
  have hdelivers : s.cpu.shouldTryIrq s.gic = false → Delivers s₂.cpu
      ((exec insn s₂).finishInstruction s.cpu.sysregs.softwareStepActiveNotPending insn).cpu :=
    fun hprobe => delivers_of_faulted hroom (hending.delivered hfails (hstarted.noted.trans hprobe))
  refine ⟨hdelivers, ?_, hqregs⟩
  cases hprobe : s.cpu.shouldTryIrq s.gic with
  | false => exact .inl (hdelivers hprobe)
  | true =>
    rcases hending.cut hfails with hk | hfault
    · refine .inr ⟨rfl, ?_⟩
      have htaken : (exec insn s₂).cpu.exceptionTakenThisStep = true :=
        hk.noEntry.taken.trans (hstarted.noted.trans hprobe)
      rw [finishInstruction_of_taken htaken]
      refine ⟨hk.noEntry.exceptions, hk.noEntry.sysregs, hk.regs, ?_⟩
      dsimp only
      rw [hk.noEntry.sysregs, hk.noEntry.pc]
    · exact .inl (delivers_of_faulted hroom hfault)

/-- The CPU of `misalignedLoad` in a memory that holds LDR X1, [SP], #16 everywhere. -/
def misalignedAt : StepState Unit := ⟨VecCore.misalignedCpu, GicV3.reset 1, ()⟩

/-- The state in which the load starts. -/
def misalignedStart : StepState Unit :=
  ((misalignedAt.executes (filledWith 0xF84107E1)).getD (0xF84107E1, misalignedAt)).2

theorem misalignedAt_executes :
    misalignedAt.executes (filledWith 0xF84107E1) = some (0xF84107E1, misalignedStart) := by
  have hword : (misalignedAt.executes (filledWith 0xF84107E1)).map Prod.fst = some 0xF84107E1 := by
    decide +kernel
  rw [misalignedStart]
  cases hexec : misalignedAt.executes (filledWith 0xF84107E1) with
  | none =>
    rw [hexec] at hword
    cases hword
  | some r =>
    rw [hexec] at hword
    obtain ⟨insn, s₂⟩ := r
    obtain rfl : insn = 0xF84107E1 := Option.some.inj hword
    rfl

theorem failing_access_ends_ldr :
    (misalignedAt.cpu.shouldTryIrq misalignedAt.gic = false → Delivers misalignedStart.cpu
        (misalignedAt.step (filledWith 0xF84107E1)
          (execLoadStore (filledWith 0xF84107E1) fun _ => ⟨0, 0⟩)).cpu) ∧
      (Delivers misalignedStart.cpu (misalignedAt.step (filledWith 0xF84107E1)
          (execLoadStore (filledWith 0xF84107E1) fun _ => ⟨0, 0⟩)).cpu ∨
        misalignedAt.cpu.shouldTryIrq misalignedAt.gic = true ∧
          Retires misalignedStart.cpu (misalignedAt.step (filledWith 0xF84107E1)
            (execLoadStore (filledWith 0xF84107E1) fun _ => ⟨0, 0⟩)).cpu) ∧
      ∀ i, earlyRegister 0xF84107E1 ≠ some i →
        ((misalignedStart.withQregs fun _ => ⟨0, 0⟩).execLoadStore (filledWith 0xF84107E1)
          0xF84107E1).2.qregs i = ⟨0, 0⟩ := by
  refine failing_access_ends misalignedAt_executes rfl (by decide +kernel) ?_
  have hform : decodeMemForm 0xF84107E1 = some (.load .zero .post 8) := by decide +kernel
  have hchecks : Exec.Checks (fieldRn 0xF84107E1)
      ((MemForm.load .zero .post 8).body (filledWith 0xF84107E1) 0xF84107E1) :=
    Exec.checks_body rfl ⟨by simp, by simp, by simp, by simp⟩
  have hsp : misalignedStart.cpu.SpMisaligned := by decide +kernel
  refine ⟨.elsewhere, by decide +kernel, ?_⟩
  rw [if_pos rfl]
  exact ⟨_, hform, rfl, .raised, _, hchecks _ ⟨by decide, hsp⟩⟩

end StepState
end Aarchvm
