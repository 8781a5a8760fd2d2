import Aarchvm.Gic.Bits

/-!
# Interrupt selection

`highest_pending` returns the least candidate in the order (priority, INTID)
among the CPU's own interrupts and the shared ones, or nothing when there is no
candidate.
-/
namespace Aarchvm
namespace GicV3

open Lib.Least

/-- Is `intid` eligible for `cpuIndex` below the threshold `pmr`? -/
def Eligible (g : GicV3) (cpuIndex : Nat) (pmr : U8) (intid : Nat) : Prop :=
  intid < kNumIntIds ∧ g.candidate (g.bankOf cpuIndex intid) intid pmr = true

/-- The candidate that `intid` is for `cpuIndex`. -/
def candidateOf (g : GicV3) (cpuIndex intid : Nat) : Candidate :=
  ⟨g.prio (g.bankOf cpuIndex intid) intid, intid⟩

theorem Candidate.lt_iff (c c' : Candidate) :
    c < c' ↔ c.prio < c'.prio ∨ (c.prio = c'.prio ∧ c.intid < c'.intid) := by
  show c.key < c'.key ↔ _
  rw [Candidate.key, Candidate.key, Prod.Lex.toLex_lt_toLex, BitVec.lt_def, BitVec.toNat_inj]

/-- The lambda `consider` keeps the smaller candidate. -/
theorem consider_eq_keep : consider = keep := by
  funext best c
  cases best with
  | none => rfl
  | some b =>
    unfold consider keep
    simp only [Candidate.lt_iff]

theorem localIdx_idem (g : GicV3) (cpuIndex : Nat) :
    g.localIdx (g.localIdx cpuIndex) = g.localIdx cpuIndex :=
  localIdx_of_lt (g.localIdx_lt cpuIndex)

/-- The scanned list holds exactly the eligible INTIDs. -/
theorem mem_candidates_iff (g : GicV3) (cpuIndex : Nat) (pmr : U8) (c : Candidate) :
    c ∈ g.candidates (g.localIdx cpuIndex) pmr ↔
      g.Eligible cpuIndex pmr c.intid ∧ c = g.candidateOf cpuIndex c.intid := by
  unfold candidates Eligible candidateOf
  simp only [List.mem_append, List.mem_map, List.mem_filter, List.mem_range, List.mem_range'_1,
    localCandidate, spiCandidate, localCpu, localIdx_idem]
  constructor
  · rintro (⟨i, ⟨hi, hc⟩, rfl⟩ | ⟨i, ⟨hi, hc⟩, rfl⟩)
    · have hb : g.bankOf cpuIndex i = .own (g.localIdx cpuIndex) := by
        simp [bankOf, isLocalIntid, hi]
      refine ⟨⟨Nat.lt_trans hi (by decide), by rw [hb]; exact hc⟩, ?_⟩
      rw [hb]
      rfl
    · have hlo : ¬ i < kLocalIntIds := Nat.not_lt.2 hi.1
      have hb : g.bankOf cpuIndex i = .shared := by simp [bankOf, isLocalIntid, hlo]
      refine ⟨⟨hi.2, by rw [hb]; exact hc⟩, ?_⟩
      rw [hb]
      rfl
  · rintro ⟨⟨hi, hc⟩, hcand⟩
    by_cases hl : c.intid < kLocalIntIds
    · have hb : g.bankOf cpuIndex c.intid = .own (g.localIdx cpuIndex) := by
        simp [bankOf, isLocalIntid, hl]
      rw [hb] at hc hcand
      exact .inl ⟨c.intid, ⟨hl, hc⟩, hcand.symm⟩
    · have hb : g.bankOf cpuIndex c.intid = .shared := by simp [bankOf, isLocalIntid, hl]
      rw [hb] at hc hcand
      exact .inr ⟨c.intid, ⟨⟨Nat.le_of_not_lt hl, hi⟩, hc⟩, hcand.symm⟩

/-- `highest_pending` returns the eligible INTID of least (priority, INTID). -/
theorem highestPending_eq_some_iff (g : GicV3) (cpuIndex : Nat) (pmr : U8) (intid : Nat) :
    g.highestPending cpuIndex pmr = some intid ↔
      g.Eligible cpuIndex pmr intid ∧ ∀ j, g.Eligible cpuIndex pmr j →
        g.candidateOf cpuIndex intid ≤ g.candidateOf cpuIndex j := by
  unfold highestPending
  rw [consider_eq_keep, Option.map_eq_some_iff]
  constructor
  · rintro ⟨c, hc, rfl⟩
    obtain ⟨hmem, hle⟩ := foldl_keep_eq_some_iff.1 hc
    obtain ⟨he, hcand⟩ := (mem_candidates_iff g cpuIndex pmr c).1 hmem
    refine ⟨he, fun j hj => ?_⟩
    rw [← hcand]
    exact hle _ ((mem_candidates_iff g cpuIndex pmr _).2 ⟨hj, rfl⟩)
  · rintro ⟨he, hle⟩
    refine ⟨g.candidateOf cpuIndex intid, foldl_keep_eq_some_iff.2 ⟨?_, fun c hc => ?_⟩, rfl⟩
    · exact (mem_candidates_iff g cpuIndex pmr _).2 ⟨he, rfl⟩
    · obtain ⟨hj, hcand⟩ := (mem_candidates_iff g cpuIndex pmr c).1 hc
      rw [hcand]
      exact hle c.intid hj

/-- `highest_pending` fails exactly when no INTID is eligible. -/
theorem highestPending_eq_none_iff (g : GicV3) (cpuIndex : Nat) (pmr : U8) :
    g.highestPending cpuIndex pmr = none ↔ ∀ j, ¬ g.Eligible cpuIndex pmr j := by
  unfold highestPending
  rw [consider_eq_keep, Option.map_eq_none_iff, foldl_keep_eq_none_iff,
    List.eq_nil_iff_forall_not_mem]
  constructor
  · intro h j hj
    exact h (g.candidateOf cpuIndex j) ((mem_candidates_iff g cpuIndex pmr _).2 ⟨hj, rfl⟩)
  · intro h c hc
    exact h c.intid ((mem_candidates_iff g cpuIndex pmr c).1 hc).1

theorem highestPending_eligible {g : GicV3} {cpuIndex : Nat} {pmr : U8} {intid : Nat}
    (h : g.highestPending cpuIndex pmr = some intid) : g.Eligible cpuIndex pmr intid :=
  ((highestPending_eq_some_iff g cpuIndex pmr intid).1 h).1

theorem Eligible.pending {g : GicV3} {cpuIndex : Nat} {pmr : U8} {intid : Nat}
    (h : g.Eligible cpuIndex pmr intid) :
    g.bit .pending (g.bankOf cpuIndex intid) intid = true := by
  have hc := h.2
  simp only [candidate, Bool.and_eq_true] at hc
  exact hc.1.1

/-! ## Acknowledgement as a whole -/

/-- What `highest_pending` and `acknowledge` hand back: the return value and the out
parameter `intid`. -/
def outcome (r : Option Nat) : Bool × Nat := (r.isSome, r.getD 1023)

theorem outcome_eq_true_iff (r : Option Nat) (intid : Nat) :
    outcome r = (true, intid) ↔ r = some intid := by
  cases r <;> simp [outcome]

theorem outcome_eq_false_iff (r : Option Nat) : outcome r = (false, 1023) ↔ r = none := by
  cases r <;> simp [outcome]

/-- `g'` is `g` up to the bit arrays and the epoch of the query caches. -/
structure SameBesidesBits (g g' : GicV3) : Prop where
  cpuCount : g'.cpuCount = g.cpuCount
  locals : ∀ idx, { g'.locals idx with bits := (g.locals idx).bits } = g.locals idx
  spiPriorities : g'.spiPriorities = g.spiPriorities
  gicdCtlr : g'.gicdCtlr = g.gicdCtlr
  pendingQueryCache : g'.pendingQueryCache = g.pendingQueryCache

theorem SameBesidesBits.refl (g : GicV3) : SameBesidesBits g g := ⟨rfl, fun _ => rfl, rfl, rfl, rfl⟩

theorem SameBesidesBits.trans {g g' g'' : GicV3} (h : SameBesidesBits g g')
    (h' : SameBesidesBits g' g'') : SameBesidesBits g g'' where
  cpuCount := h'.cpuCount.trans h.cpuCount
  locals idx := by
    rw [← h.locals idx, ← h'.locals idx]
  spiPriorities := h'.spiPriorities.trans h.spiPriorities
  gicdCtlr := h'.gicdCtlr.trans h.gicdCtlr
  pendingQueryCache := h'.pendingQueryCache.trans h.pendingQueryCache

theorem setBit_sameBesidesBits (g : GicV3) (k : GicBit) (b : Bank) (intid : Nat) (value : Bool) :
    SameBesidesBits g (g.setBit k b intid value) := by
  unfold setBit
  split
  · exact .refl g
  · cases b with
    | shared => exact ⟨rfl, fun _ => rfl, rfl, rfl, rfl⟩
    | own idx =>
      refine ⟨rfl, fun i => ?_, rfl, rfl, rfl⟩
      by_cases hi : i = idx
      · subst hi
        simp [modifyLocal]
      · simp [modifyLocal, hi]

theorem acknowledge_sameBesidesBits (g : GicV3) (cpuIndex : Nat) (pmr : U8) :
    SameBesidesBits g (g.acknowledge cpuIndex pmr).2 := by
  unfold acknowledge
  cases g.highestPending cpuIndex pmr with
  | none => exact .refl g
  | some intid => exact (setBit_sameBesidesBits ..).trans (setBit_sameBesidesBits ..)

/-- Distinct eligible INTIDs are strictly ordered, so the least one is unique. -/
theorem highestPending_eq_some_iff_lt (g : GicV3) (cpuIndex : Nat) (pmr : U8) (intid : Nat) :
    g.highestPending cpuIndex pmr = some intid ↔
      g.Eligible cpuIndex pmr intid ∧ ∀ j, g.Eligible cpuIndex pmr j → j ≠ intid →
        g.candidateOf cpuIndex intid < g.candidateOf cpuIndex j := by
  rw [highestPending_eq_some_iff]
  refine and_congr_right fun _ => forall₂_congr fun j _ => ?_
  constructor
  · intro hle hne
    refine lt_of_le_of_ne hle fun heq => hne ?_
    exact (congrArg Candidate.intid heq).symm
  · intro hlt
    by_cases hj : j = intid
    · rw [hj]
    · exact le_of_lt (hlt hj)

/-- Selection is the strict minimum in the order (priority, INTID), and acknowledging takes
that one interrupt from pending to active and touches nothing else. -/
theorem selection_exact (g : GicV3) (cpuIndex : Nat) (pmr : U8) :
    (∀ intid, outcome (g.highestPending cpuIndex pmr) = (true, intid) ↔
      g.Eligible cpuIndex pmr intid ∧ ∀ j, g.Eligible cpuIndex pmr j → j ≠ intid →
        g.prio (g.bankOf cpuIndex intid) intid < g.prio (g.bankOf cpuIndex j) j ∨
        g.prio (g.bankOf cpuIndex intid) intid = g.prio (g.bankOf cpuIndex j) j ∧ intid < j) ∧
    (outcome (g.highestPending cpuIndex pmr) = (false, 1023) ↔
      ∀ j, ¬ g.Eligible cpuIndex pmr j) ∧
    outcome (g.acknowledge cpuIndex pmr).1 = outcome (g.highestPending cpuIndex pmr) ∧
    SameBesidesBits g (g.acknowledge cpuIndex pmr).2 ∧
    (∀ intid, (g.acknowledge cpuIndex pmr).1 = some intid → ∀ k b i,
      (g.acknowledge cpuIndex pmr).2.bit k b i =
        if b = g.bankOf cpuIndex intid ∧ i = intid ∧ (k = .pending ∨ k = .active)
        then decide (k = .active) else g.bit k b i) ∧
    ((g.acknowledge cpuIndex pmr).1 = none → (g.acknowledge cpuIndex pmr).2 = g) := by
  refine ⟨fun intid => ?_, ?_, ?_, acknowledge_sameBesidesBits g cpuIndex pmr, ?_, ?_⟩
  · rw [outcome_eq_true_iff, highestPending_eq_some_iff_lt]
    simp only [Candidate.lt_iff, candidateOf]
  · rw [outcome_eq_false_iff, highestPending_eq_none_iff]
  · rw [acknowledge_fst]
  · intro intid h k b i
    rw [acknowledge_fst] at h
    exact acknowledge_bit g cpuIndex pmr h k b i
  · intro h
    rw [acknowledge_fst] at h
    rw [acknowledge_of_none h]

end GicV3
end Aarchvm
