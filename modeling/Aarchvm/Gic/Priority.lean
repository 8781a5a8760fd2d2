import Aarchvm.Gic.Registers

/-!
# Priority registers

`GICD_IPRIORITYR` and every frame's `GICR_IPRIORITYR` as arrays of bytes: which
INTID a byte offset addresses, and what a write of one, two or four bytes does to
the priorities. A register write stores four priorities at once, so a narrower
write has to fill in the bytes it does not address.
-/
namespace Aarchvm
namespace GicV3

/-! ## Loops over four priorities -/

/-- A loop whose round `j` assigns `val j` to INTID `first + j` of the banks in `ok`. -/
theorem foldl_prio {g₀ : GicV3} {f : GicV3 → Nat → GicV3} {first : Nat}
    {ok : Bank → Nat → Bool} {val : Nat → U8}
    (hf : ∀ g j, SameShape g₀ g → SameShape g₀ (f g j) ∧ ∀ b i,
      (f g j).prio b i = if i = first + j ∧ ok b i = true then val j else g.prio b i)
    (n : Nat) :
    SameShape g₀ ((List.range n).foldl f g₀) ∧ ∀ b i,
      ((List.range n).foldl f g₀).prio b i =
        if first ≤ i ∧ i < first + n ∧ ok b i = true then val (i - first) else g₀.prio b i := by
  induction n with
  | zero => exact ⟨.refl g₀, fun b i => by rw [if_neg (by omega)]; rfl⟩
  | succ n ih =>
    obtain ⟨hs, hp⟩ := ih
    rw [List.range_succ, List.foldl_append]
    obtain ⟨hs', hp'⟩ := hf _ n hs
    refine ⟨hs', fun b i => (hp' b i).trans ?_⟩
    rw [hp]
    by_cases hi : i = first + n
    · subst hi
      by_cases ho : ok b (first + n) = true
      · rw [if_pos ⟨rfl, ho⟩, if_pos ⟨by omega, by omega, ho⟩, Nat.add_sub_cancel_left]
      · rw [if_neg (by tauto), if_neg (by tauto), if_neg (by tauto)]
    · rw [if_neg (by tauto)]
      congr 1
      rw [eq_iff_iff]
      constructor
      · rintro ⟨hlo, hhi, ho⟩
        exact ⟨hlo, by omega, ho⟩
      · rintro ⟨hlo, hhi, ho⟩
        exact ⟨hlo, by omega, ho⟩

/-- Byte `i` of a register value. -/
def wordByte (value : U32) (i : Nat) : U8 := value.extractLsb' (i * 8) 8

/-- The INTIDs of one bank that `set_priority_range` may store to. -/
def storable (g : GicV3) (cpuIndex : Nat) (isLocal : Bool) (b : Bank) (i : Nat) : Bool :=
  if isLocal then decide (b = .own (g.localIdx cpuIndex) ∧ i < kLocalIntIds)
  else decide (b = .shared ∧ kFirstSpiIntId ≤ i ∧ i < kNumIntIds)

theorem modifyLocal_priority (g : GicV3) (idx intid : Nat) (v : U8) (b : Bank) (i : Nat) :
    (g.modifyLocal idx fun l =>
      { l with priorities := Function.update l.priorities intid v }).prio b i =
      if b = .own idx ∧ i = intid then v else g.prio b i := by
  cases b with
  | shared => simp [prio, modifyLocal]
  | own idx' =>
    by_cases hx : idx' = idx <;> by_cases hi : i = intid <;> simp [prio, modifyLocal, hx, hi]

theorem setPriorityRange_prio (g : GicV3) (first : Nat) (value : U32) (cpuIndex : Nat)
    (isLocal : Bool) (b : Bank) (i : Nat) :
    (g.setPriorityRange first value cpuIndex isLocal).prio b i =
      if first ≤ i ∧ i < first + 4 ∧ g.storable cpuIndex isLocal b i = true
      then wordByte value (i - first) else g.prio b i := by
  unfold setPriorityRange
  dsimp only
  refine Eq.trans (by cases b <;> rfl)
    ((@foldl_prio g _ first (g.storable cpuIndex isLocal) (wordByte value)
      (fun g' j hs => ?_) 4).2 b i)
  cases isLocal with
  | true =>
    rw [if_pos rfl]
    by_cases hlt : first + j < kLocalIntIds
    · rw [if_pos hlt]
      refine ⟨hs.trans (modifyLocal_sameShape _ _ _ fun _ => rfl), fun b i => ?_⟩
      rw [modifyLocal_priority, hs.localIdx]
      by_cases hi : i = first + j
      · subst hi
        simp [storable, hlt, wordByte]
      · simp [hi]
    · rw [if_neg hlt]
      refine ⟨hs, fun b i => ?_⟩
      rw [if_neg]
      rintro ⟨rfl, ho⟩
      simp [storable, hlt] at ho
  | false =>
    rw [if_neg (by decide)]
    by_cases hlt : kFirstSpiIntId ≤ first + j ∧ first + j < kNumIntIds
    · rw [if_pos hlt]
      refine ⟨⟨hs.cpuCount, hs.mpidr⟩, fun b i => ?_⟩
      cases b with
      | own idx => simp [prio, storable]
      | shared =>
        by_cases hi : i = first + j
        · subst hi
          simp [prio, storable, hlt, wordByte]
        · simp [prio, hi]
    · rw [if_neg hlt]
      refine ⟨hs, fun b i => ?_⟩
      rw [if_neg]
      rintro ⟨rfl, ho⟩
      simp [storable, hlt] at ho

/-! ## Register bytes -/

/-- The priority that a read of byte offset `a` shows: its bank and INTID. The distributor
shows CPU 0's priorities for the first 32. -/
def priorityByte (g : GicV3) (a : Nat) : Option (Bank × Nat) :=
  if a < kDistSize then
    if regRange a kGicdIpriorityr kNumIntIds then
      some (if isLocalIntid (a - kGicdIpriorityr) then .own 0 else .shared, a - kGicdIpriorityr)
    else none
  else if a < kRedistBase then none
  else
    let frame := (a - kRedistBase) / kRedistFrameSize
    let inner := (a - kRedistBase) % kRedistFrameSize
    if frame < g.cpuCount ∧ regRange inner kGicrSgiIpriorityr kLocalIntIds = true then
      some (.own frame, inner - kGicrSgiIpriorityr)
    else none

/-- Is the byte one that the distributor shows but does not store? -/
def readOnlyByte (a : Nat) : Bool := regRange a kGicdIpriorityr kLocalIntIds

/-- The four priorities `first`, …, `first + 3` of bank `b` fill the register word at `a`. -/
inductive PriorityWord (g : GicV3) (a : Nat) (b : Bank) (first : Nat) : Prop
  | dist (ha : a = kGicdIpriorityr + first) (hf : first % 4 = 0) (hlt : first < kNumIntIds)
      (hb : b = if isLocalIntid first then .own 0 else .shared)
  | frame (f : Nat) (hc : f < g.cpuCount)
      (ha : a = kRedistBase + f * kRedistFrameSize + kGicrSgiIpriorityr + first)
      (hf : first % 4 = 0) (hlt : first < kLocalIntIds) (hb : b = .own f)

theorem frame_decode {f inner : Nat} (h : inner < kRedistFrameSize) :
    ¬ kRedistBase + f * kRedistFrameSize + inner < kRedistBase ∧
    ¬ kRedistBase + f * kRedistFrameSize + inner < kDistSize ∧
    (kRedistBase + f * kRedistFrameSize + inner - kRedistBase) / kRedistFrameSize = f ∧
    (kRedistBase + f * kRedistFrameSize + inner - kRedistBase) % kRedistFrameSize = inner := by
  unfold kRedistBase kRedistFrameSize kDistSize at *
  omega

theorem PriorityWord.of_isSome {g : GicV3} {a : Nat} (h : (g.priorityByte a).isSome) :
    ∃ b first, PriorityWord g (a / 4 * 4) b first := by
  unfold priorityByte at h
  dsimp only at h
  by_cases hd : a < kDistSize
  · rw [if_pos hd] at h
    by_cases hr : regRange a kGicdIpriorityr kNumIntIds = true
    · simp only [regRange, Bool.and_eq_true, decide_eq_true_eq] at hr
      refine ⟨_, a / 4 * 4 - kGicdIpriorityr, .dist ?_ ?_ ?_ rfl⟩ <;>
        · unfold kGicdIpriorityr kNumIntIds at *
          omega
    · rw [if_neg hr] at h
      exact nomatch h
  rw [if_neg hd] at h
  by_cases hl : a < kRedistBase
  · rw [if_pos hl] at h
    exact nomatch h
  rw [if_neg hl] at h
  by_cases hf : (a - kRedistBase) / kRedistFrameSize < g.cpuCount ∧
      regRange ((a - kRedistBase) % kRedistFrameSize) kGicrSgiIpriorityr kLocalIntIds = true
  · obtain ⟨hc, hr⟩ := hf
    simp only [regRange, Bool.and_eq_true, decide_eq_true_eq] at hr
    refine ⟨_, ((a - kRedistBase) % kRedistFrameSize - kGicrSgiIpriorityr) / 4 * 4,
      .frame _ hc ?_ ?_ ?_ rfl⟩ <;>
      · unfold kRedistBase kRedistFrameSize kGicrSgiIpriorityr kLocalIntIds at *
        omega
  · rw [if_neg hf] at h
    exact nomatch h

theorem wordByte_collectBytes (byte : Nat → U8) {k : Nat} (hk : k < 4) :
    wordByte (collectBytes byte) k = byte k := by
  unfold wordByte collectBytes
  simp only [show List.range 4 = [0, 1, 2, 3] from rfl, List.foldl_cons, List.foldl_nil]
  apply BitVec.eq_of_getLsbD_eq
  intro i hi
  simp only [BitVec.getLsbD_extractLsb', BitVec.getLsbD_or, BitVec.getLsbD_shiftLeft,
    BitVec.getLsbD_setWidth]
  obtain rfl | rfl | rfl | rfl : k = 0 ∨ k = 1 ∨ k = 2 ∨ k = 3 := by omega
  all_goals
    simp [hi]
    grind

theorem regRange_iff (offset base len : Nat) :
    regRange offset base len = true ↔ base ≤ offset ∧ offset < base + len := by
  simp [regRange]

/-- The offset of a distributor priority register is that of no other register. -/
structure DistPriority (a first : Nat) : Prop where
  lt_size : a + 3 < kDistSize
  sub : a - kGicdIpriorityr = first
  in_range : regRange a kGicdIpriorityr kNumIntIds = true
  not_special : a ≠ kGicdCtlr ∧ a ≠ kGicdTyper ∧ a ≠ kGicdIidr
  not_bitmap : ∀ base, base = kGicdIsenabler ∨ base = kGicdIcenabler ∨ base = kGicdIsactiver ∨
    base = kGicdIcactiver → ¬ regRange a base 0x80 = true

theorem distPriority {a first : Nat} (ha : a = kGicdIpriorityr + first) (hf : first % 4 = 0)
    (hlt : first < kNumIntIds) : DistPriority a first := by
  unfold kGicdIpriorityr kNumIntIds at *
  constructor
  · unfold kDistSize
    omega
  · unfold kGicdIpriorityr
    omega
  · rw [regRange_iff]
    unfold kGicdIpriorityr kNumIntIds
    omega
  · unfold kGicdCtlr kGicdTyper kGicdIidr
    omega
  · intro base hb
    rw [regRange_iff]
    unfold kGicdIsenabler kGicdIcenabler kGicdIsactiver kGicdIcactiver at hb
    omega

/-- The offset of a frame's priority register is that of no other register of the frame. -/
structure FramePriority (inner first : Nat) : Prop where
  sub : inner - kGicrSgiIpriorityr = first
  in_range : regRange inner kGicrSgiIpriorityr kLocalIntIds = true
  not_special : inner ≠ kGicrTyper ∧ inner ≠ kGicrTyper + 4 ∧ inner ≠ kGicrWaker ∧
    inner ≠ kGicrPidr2 ∧ inner ≠ kGicrSgiIgroupr0
  not_bitmap : inner ≠ kGicrSgiIsenabler0 ∧ inner ≠ kGicrSgiIcenabler0 ∧
    inner ≠ kGicrSgiIspendr0 ∧ inner ≠ kGicrSgiIcpendr0 ∧ inner ≠ kGicrSgiIsactiver0 ∧
    inner ≠ kGicrSgiIcactiver0

theorem framePriority {first : Nat} (hlt : first < kLocalIntIds) :
    FramePriority (kGicrSgiIpriorityr + first) first := by
  unfold kGicrSgiIpriorityr kLocalIntIds at *
  constructor
  · unfold kGicrSgiIpriorityr
    omega
  · rw [regRange_iff]
    unfold kGicrSgiIpriorityr kLocalIntIds
    omega
  · unfold kGicrTyper kGicrWaker kGicrPidr2 kGicrSgiIgroupr0
    omega
  · unfold kGicrSgiIsenabler0 kGicrSgiIcenabler0 kGicrSgiIspendr0 kGicrSgiIcpendr0
      kGicrSgiIsactiver0 kGicrSgiIcactiver0
    omega

namespace PriorityWord

variable {g : GicV3} {a first : Nat} {b : Bank}

theorem aligned (h : PriorityWord g a b first) : a % 4 = 0 := by
  cases h with
  | dist ha hf _ _ =>
    unfold kGicdIpriorityr at ha
    omega
  | frame f _ ha hf _ _ =>
    unfold kRedistBase kRedistFrameSize kGicrSgiIpriorityr at ha
    omega

/-- Only the words of the distributor's first 32 INTIDs are read-only. -/
theorem readOnly_iff (h : PriorityWord g a b first) {s : Nat} (hs : s < 4) :
    readOnlyByte (a + s) = true ↔ a = kGicdIpriorityr + first ∧ first < kLocalIntIds := by
  simp only [readOnlyByte, regRange, Bool.and_eq_true, decide_eq_true_eq]
  cases h with
  | dist ha hf _ _ =>
    unfold kGicdIpriorityr kLocalIntIds at *
    omega
  | frame f _ ha hf hlt _ =>
    unfold kRedistBase kRedistFrameSize kGicrSgiIpriorityr kGicdIpriorityr kLocalIntIds at *
    omega

theorem byte (h : PriorityWord g a b first) {k : Nat} (hk : k < 4) :
    g.priorityByte (a + k) = some (b, first + k) := by
  cases h with
  | dist ha hf hlt hb =>
    have hd : a + k < kDistSize := by
      unfold kGicdIpriorityr kNumIntIds kDistSize at *
      omega
    have hr : regRange (a + k) kGicdIpriorityr kNumIntIds = true := by
      simp only [regRange, Bool.and_eq_true, decide_eq_true_eq]
      unfold kNumIntIds at *
      omega
    have hsub : a + k - kGicdIpriorityr = first + k := by omega
    have hloc : isLocalIntid (first + k) = isLocalIntid first := by
      unfold isLocalIntid kLocalIntIds
      rw [decide_eq_decide]
      omega
    rw [priorityByte, if_pos hd, if_pos hr, hsub, hloc, hb]
  | frame f hc ha hf hlt hb =>
    have hin : kGicrSgiIpriorityr + (first + k) < kRedistFrameSize := by
      unfold kGicrSgiIpriorityr kLocalIntIds kRedistFrameSize at *
      omega
    have hak : a + k = kRedistBase + f * kRedistFrameSize + (kGicrSgiIpriorityr + (first + k)) := by
      omega
    obtain ⟨hlo, hd, hdiv, hmod⟩ := frame_decode (f := f) hin
    rw [hak, priorityByte, if_neg hd, if_neg hlo, hdiv, hmod]
    have hr : regRange (kGicrSgiIpriorityr + (first + k)) kGicrSgiIpriorityr kLocalIntIds = true :=
      by
      simp only [regRange, Bool.and_eq_true, decide_eq_true_eq]
      unfold kLocalIntIds at *
      omega
    dsimp only
    rw [if_pos ⟨hc, hr⟩, Nat.add_sub_cancel_left, hb]

/-- Every read inside the word shows its four priorities. -/
theorem read32 (h : PriorityWord g a b first) {s : Nat} (hs : s < 4) {k : Nat} (hk : k < 4) :
    wordByte (g.read32 (a + s)) k = g.prio b (first + k) := by
  have ha4 := h.aligned
  have hdiv : (a + s) / 4 * 4 = a := by omega
  cases h with
  | dist ha hf hlt hb =>
    have hr := distPriority ha hf hlt
    have hd : a + s < kDistSize := Nat.lt_of_le_of_lt (by omega) hr.lt_size
    have hread : g.readDistReg32 a = g.getPriorityRange first := by
      obtain ⟨hc, ht, hi⟩ := hr.not_special
      unfold readDistReg32
      rw [if_neg hc, if_neg ht, if_neg hi, if_neg (hr.not_bitmap _ (by simp)),
        if_neg (hr.not_bitmap _ (by simp)), if_neg (hr.not_bitmap _ (by simp)),
        if_neg (hr.not_bitmap _ (by simp)), if_pos hr.in_range, hr.sub]
    rw [GicV3.read32, if_pos hd, hdiv, hread, getPriorityRange, wordByte_collectBytes _ hk, hb]
    dsimp only
    unfold kNumIntIds at hlt
    by_cases hl : first < kLocalIntIds
    · have hlk : first + k < kLocalIntIds := by
        unfold kLocalIntIds at *
        omega
      simp [isLocalIntid, hl, hlk, prio]
    · have hlk : ¬ first + k < kLocalIntIds := by omega
      have hn : first + k < kNumIntIds := by
        unfold kNumIntIds
        omega
      simp [isLocalIntid, hl, hlk, hn, prio]
  | frame f hc ha hf hlt hb =>
    have hr := framePriority hlt
    have hin : kGicrSgiIpriorityr + first < kRedistFrameSize := by
      unfold kGicrSgiIpriorityr kLocalIntIds kRedistFrameSize at *
      omega
    obtain ⟨hlo, hd, hdivf, hmod⟩ := frame_decode (f := f) hin
    have hread : g.readRedistReg32 a = collectBytes fun i =>
        if first + i < kLocalIntIds then (g.localCpu f).priorities (first + i) else 0 := by
      obtain ⟨ht, ht4, hw, hp, hgr⟩ := hr.not_special
      obtain ⟨hse, hce, hsp, hcp, hsa, hca⟩ := hr.not_bitmap
      unfold readRedistReg32
      dsimp only
      rw [ha, Nat.add_assoc, if_neg hlo, hdivf, hmod, if_neg (Nat.not_le.2 hc), if_neg ht,
        if_neg ht4, if_neg hw, if_neg hp, if_neg hgr, if_neg (not_or.2 ⟨hse, hce⟩),
        if_neg (not_or.2 ⟨hsp, hcp⟩), if_neg (not_or.2 ⟨hsa, hca⟩), if_pos hr.in_range,
        Nat.add_sub_cancel_left]
    have hd' : ¬ a + s < kDistSize := by omega
    have hlk : first + k < kLocalIntIds := by
      unfold kLocalIntIds at *
      omega
    rw [GicV3.read32, if_neg hd', hdiv, hread, wordByte_collectBytes _ hk, if_pos hlk, hb, localCpu,
      localIdx_of_lt hc]
    rfl

/-- A register write stores the four bytes, except to the distributor's first 32 INTIDs. -/
theorem write32 (h : PriorityWord g a b first) (value : U32) (b' : Bank) (i : Nat) :
    (g.write32 a value).prio b' i =
      if b' = b ∧ first ≤ i ∧ i < first + 4 ∧ readOnlyByte a = false
      then wordByte value (i - first) else g.prio b' i := by
  have hro := h.readOnly_iff (s := 0) (by decide)
  rw [Nat.add_zero] at hro
  cases h with
  | dist ha hf hlt hb =>
    have hr := distPriority ha hf hlt
    have hd : a < kDistSize := Nat.lt_of_le_of_lt (by omega) hr.lt_size
    have hwrite : g.writeDistReg32 a value = g.setPriorityRange first value 0 false := by
      unfold writeDistReg32
      rw [if_neg hr.not_special.1, if_neg (hr.not_bitmap _ (by simp)),
        if_neg (hr.not_bitmap _ (by simp)), if_neg (hr.not_bitmap _ (by simp)),
        if_neg (hr.not_bitmap _ (by simp)), if_pos hr.in_range, hr.sub]
    rw [GicV3.write32, if_pos hd, hwrite, setPriorityRange_prio]
    refine if_congr ?_ rfl rfl
    simp only [storable, Bool.false_eq_true, if_false, decide_eq_true_eq]
    by_cases hl : first < kLocalIntIds
    · rw [hro.2 ⟨ha, hl⟩]
      unfold kLocalIntIds kFirstSpiIntId at *
      constructor
      · rintro ⟨_, _, _, _, _⟩
        omega
      · rintro ⟨_, _, _, hfalse⟩
        exact nomatch hfalse
    · have hro' : readOnlyByte a = false := by
        rw [← Bool.not_eq_true, hro]
        exact fun hh => hl hh.2
      have hshared : b = .shared := by simp [hb, isLocalIntid, hl]
      rw [hro', hshared]
      unfold kLocalIntIds kFirstSpiIntId kNumIntIds at *
      constructor
      · rintro ⟨hlo, hhi, hs, _, _⟩
        exact ⟨hs, hlo, hhi, rfl⟩
      · rintro ⟨hs, hlo, hhi, _⟩
        exact ⟨hlo, hhi, hs, by omega, by omega⟩
  | frame f hc ha hf hlt hb =>
    have hr := framePriority hlt
    have hin : kGicrSgiIpriorityr + first < kRedistFrameSize := by
      unfold kGicrSgiIpriorityr kLocalIntIds kRedistFrameSize at *
      omega
    obtain ⟨hlo, hd, hdivf, hmod⟩ := frame_decode (f := f) hin
    have hwrite : g.writeRedistReg32 a value = g.setPriorityRange first value f true := by
      obtain ⟨-, -, hw, -, hgr⟩ := hr.not_special
      obtain ⟨hse, hce, hsp, hcp, hsa, hca⟩ := hr.not_bitmap
      unfold writeRedistReg32
      dsimp only
      rw [ha, Nat.add_assoc, if_neg hlo, hdivf, hmod, if_neg (Nat.not_le.2 hc), if_neg hw,
        if_neg hgr, if_neg hse, if_neg hce, if_neg hsp, if_neg hcp, if_neg hsa, if_neg hca,
        if_pos hr.in_range, Nat.add_sub_cancel_left]
    have hro' : readOnlyByte a = false := by
      rw [← Bool.not_eq_true, hro]
      rintro ⟨hcon, -⟩
      unfold kGicdIpriorityr kRedistBase kGicrSgiIpriorityr at *
      omega
    have hd' : ¬ a < kDistSize := by omega
    rw [GicV3.write32, if_neg hd', hwrite, setPriorityRange_prio, hro', hb]
    refine if_congr ?_ rfl rfl
    simp only [storable, if_true, decide_eq_true_eq, localIdx_of_lt hc]
    unfold kLocalIntIds at *
    constructor
    · rintro ⟨hl, hh, hs, _⟩
      exact ⟨hs, hl, hh, trivial⟩
    · rintro ⟨hs, hl, hh, _⟩
      exact ⟨hl, hh, hs, by omega⟩

theorem not_bitmap (h : PriorityWord g a b first) : isWrite1BitmapRegister a = false := by
  rw [← Bool.not_eq_true]
  unfold isWrite1BitmapRegister
  simp only [Bool.or_eq_true, regRange_iff, not_or]
  cases h with
  | dist ha hf hlt hb =>
    simp only [kGicdIpriorityr, kNumIntIds] at ha hlt
    simp only [kGicdIsenabler, kGicdIcenabler, kGicdIsactiver, kGicdIcactiver, kRedistBase,
      kGicrSgiIsenabler0, kGicrSgiIcenabler0, kGicrSgiIspendr0, kGicrSgiIcpendr0,
      kGicrSgiIsactiver0, kGicrSgiIcactiver0]
    omega
  | frame f hc ha hf hlt hb =>
    simp only [kRedistBase, kRedistFrameSize, kGicrSgiIpriorityr] at ha
    simp only [kGicdIsenabler, kGicdIcenabler, kGicdIsactiver, kGicdIcactiver, kRedistBase,
      kGicrSgiIsenabler0, kGicrSgiIcenabler0, kGicrSgiIspendr0, kGicrSgiIcpendr0,
      kGicrSgiIsactiver0, kGicrSgiIcactiver0]
    omega

end PriorityWord

/-! ## Narrow accesses -/

theorem wordByte_getLsbD (w : U32) (k i : Nat) :
    (wordByte w k).getLsbD i = (decide (i < 8) && w.getLsbD (k * 8 + i)) :=
  BitVec.getLsbD_extractLsb' ..

theorem byteOf_getLsbD (value : U64) (k i : Nat) :
    (byteOf value k).getLsbD i = (decide (i < 8) && value.getLsbD (8 * k + i)) :=
  BitVec.getLsbD_extractLsb' ..

theorem wordByte_setWidth (value : U64) {j : Nat} (hj : j < 4) :
    wordByte (value.setWidth 32) j = byteOf value j := by
  apply BitVec.eq_of_getLsbD_eq
  intro i hi
  rw [wordByte_getLsbD, byteOf_getLsbD, BitVec.getLsbD_setWidth, Nat.mul_comm]
  have hlt : 8 * j + i < 32 := by omega
  simp [hlt]

/-- The mask of a one- or two-byte access. -/
def narrowMask (size : Nat) : U32 := if size = 1 then 0xFF else 0xFFFF

theorem narrowMask_getLsbD {size : Nat} (hsize : size = 1 ∨ size = 2) (i : Nat) :
    (narrowMask size).getLsbD i = decide (i < 8 * size) := by
  by_cases hi : i < 32
  · obtain rfl | rfl := hsize
    · revert i
      decide
    · revert i
      decide
  · rw [BitVec.getLsbD_of_ge _ _ (by omega)]
    have hge : ¬ i < 8 * size := by omega
    simp [hge]

/-- The read-modify-write of a narrow access replaces the bytes it addresses. -/
theorem wordByte_merge (cur : U32) (value : U64) {size s j : Nat} (hsize : size = 1 ∨ size = 2)
    (hs : s + size ≤ 4) (hj : j < 4) :
    wordByte ((cur &&& ~~~(narrowMask size <<< (s * 8))) |||
        ((value.setWidth 32 &&& narrowMask size) <<< (s * 8))) j =
      if s ≤ j ∧ j < s + size then byteOf value (j - s) else wordByte cur j := by
  apply BitVec.eq_of_getLsbD_eq
  intro i hi
  have hlt : j * 8 + i < 32 := by omega
  simp only [wordByte_getLsbD, BitVec.getLsbD_or, BitVec.getLsbD_and, BitVec.getLsbD_not,
    BitVec.getLsbD_shiftLeft, BitVec.getLsbD_setWidth, narrowMask_getLsbD hsize, hi, hlt,
    decide_true, Bool.true_and]
  by_cases hin : s ≤ j ∧ j < s + size
  · have h1 : ¬ j * 8 + i < s * 8 := by omega
    have h2 : j * 8 + i - s * 8 < 8 * size := by omega
    have h3 : j * 8 + i - s * 8 < 32 := by omega
    have h4 : 8 * (j - s) + i = j * 8 + i - s * 8 := by omega
    rw [if_pos hin, byteOf_getLsbD, h4]
    simp [h1, h2, h3, hi]
  · rw [if_neg hin, wordByte_getLsbD]
    by_cases h1 : j * 8 + i < s * 8
    · simp [h1, hi]
    · have h2 : ¬ j * 8 + i - s * 8 < 8 * size := by omega
      simp [h1, h2, hi]

theorem readPart_getLsbD (w : U32) (off : Nat) {size : Nat} (hsize : size = 1 ∨ size = 2 ∨ size = 4)
    (halign : off % 4 + size ≤ 4) (i : Nat) :
    (readPart w off size).getLsbD i =
      (decide (i < 8 * size) && w.getLsbD (off % 4 * 8 + i)) := by
  have hnarrow : ∀ size, size = 1 ∨ size = 2 →
      ((w >>> (off % 4 * 8)) &&& narrowMask size).getLsbD i =
        (decide (i < 8 * size) && w.getLsbD (off % 4 * 8 + i)) := by
    intro size hs
    rw [BitVec.getLsbD_and, narrowMask_getLsbD hs, BitVec.getLsbD_ushiftRight, Bool.and_comm]
  unfold readPart
  obtain rfl | rfl | rfl := hsize
  · exact hnarrow 1 (.inl rfl)
  · exact hnarrow 2 (.inr rfl)
  · have h0 : off % 4 = 0 := by omega
    rw [if_neg (by decide), if_neg (by decide), h0, Nat.zero_mul, Nat.zero_add]
    by_cases hi : i < 8 * 4
    · rw [decide_eq_true hi, Bool.true_and]
    · rw [BitVec.getLsbD_of_ge _ _ (by omega), Bool.and_false]

/-- A narrow read returns the bytes it addresses. -/
theorem readPart_eq {w : U32} {value : U64} {off size : Nat}
    (hsize : size = 1 ∨ size = 2 ∨ size = 4) (halign : off % 4 + size ≤ 4)
    (h : ∀ k, k < size → wordByte w (off % 4 + k) = byteOf value k) :
    (readPart w off size).setWidth 64 = (value.setWidth (8 * size)).setWidth 64 := by
  apply BitVec.eq_of_getLsbD_eq
  intro i hi
  simp only [BitVec.getLsbD_setWidth, readPart_getLsbD w off hsize halign, hi, decide_true,
    Bool.true_and]
  by_cases hlt : i < 8 * size
  · have hbit := congrArg (BitVec.getLsbD · (i % 8)) (h (i / 8) (by omega))
    simp only [wordByte_getLsbD, byteOf_getLsbD] at hbit
    have h8 : i % 8 < 8 := by omega
    have hw : (off % 4 + i / 8) * 8 + i % 8 = off % 4 * 8 + i := by omega
    have hv : 8 * (i / 8) + i % 8 = i := by omega
    rw [hw, hv, decide_eq_true h8, Bool.true_and, Bool.true_and] at hbit
    rw [decide_eq_true hlt, hbit]
  · rw [decide_eq_false hlt, Bool.false_and, Bool.false_and]

/-! ## Locality of a priority write -/

/-- The word register write that a narrow write to a priority register ends in. Only an access
that starts inside a word is merged with what the register holds. -/
theorem PriorityWord.write {g : GicV3} {a first : Nat} {b : Bank} (h : PriorityWord g a b first)
    (value : U64) {size s : Nat} (hsize : size = 1 ∨ size = 2 ∨ size = 4) (hs : s + size ≤ 4) :
    ∃ w, g.write (a + s) value size = g.write32 a w ∧ ∀ j, j < 4 → wordByte w j =
      if s ≤ j ∧ j < s + size then byteOf value (j - s)
      else if s = 0 then byteOf value j else g.prio b (first + j) := by
  have ha := h.aligned
  have hdiv : (a + s) / 4 * 4 = a := by omega
  have hmod : (a + s) % 4 = s := by omega
  have hbad : ¬ (size ≠ 1 ∧ size ≠ 2 ∧ size ≠ 4 ∧ size ≠ 8) := by omega
  have h8 : ¬ size = 8 := by omega
  -- A write of the whole value to the register.
  have hwhole : s = 0 → ∀ j, j < 4 → wordByte (value.setWidth 32) j =
      if s ≤ j ∧ j < s + size then byteOf value (j - s)
      else if s = 0 then byteOf value j else g.prio b (first + j) := by
    rintro rfl j hj
    rw [wordByte_setWidth value hj, if_pos rfl, Nat.sub_zero, ite_self]
  unfold GicV3.write
  rw [if_neg hbad, if_neg h8]
  by_cases h4 : size = 4
  · have hs0 : s = 0 := by omega
    rw [if_neg (not_not.2 h4), hs0, Nat.add_zero]
    exact ⟨_, rfl, hs0 ▸ hwhole hs0⟩
  have hnarrow : size = 1 ∨ size = 2 := by omega
  rw [if_pos h4]
  dsimp only
  rw [hdiv, hmod, if_neg (by rw [h.not_bitmap]; decide)]
  by_cases hs0 : s = 0
  · rw [if_neg (not_not.2 hs0), hs0, Nat.add_zero]
    exact ⟨_, rfl, hs0 ▸ hwhole hs0⟩
  · rw [if_pos hs0]
    refine ⟨_, rfl, fun j hj => ?_⟩
    rw [if_neg hs0]
    refine (wordByte_merge _ value hnarrow hs hj).trans (if_congr .rfl rfl ?_)
    have hread := h.read32 (s := 0) (by decide) hj
    rw [Nat.add_zero, GicV3.read32, Nat.div_mul_cancel (Nat.dvd_of_mod_eq_zero ha)] at hread
    exact hread

/-- A write of `size` bytes at `off` sets exactly the addressed priorities and reads back. -/
structure PriorityLocal (g g' : GicV3) (off : Nat) (value : U64) (size : Nat) : Prop where
  addressed : ∀ k, k < size → ∀ b i, g.priorityByte (off + k) = some (b, i) →
    g'.prio b i = byteOf value k
  others : ∀ b i, (∀ k, k < size → g.priorityByte (off + k) ≠ some (b, i)) →
    g'.prio b i = g.prio b i
  readBack : g'.read off size = (value.setWidth (8 * size)).setWidth 64

/-- The bytes at `off + lo`, …, `off + hi - 1` hold those of `value` already. -/
def HoldsBytes (g : GicV3) (off : Nat) (value : U64) (lo hi : Nat) : Prop :=
  ∀ k, lo ≤ k → k < hi → ∀ b i, g.priorityByte (off + k) = some (b, i) →
    g.prio b i = byteOf value k

/-- When a priority write is local: the bytes that a write at a word boundary stores besides the
addressed ones, and the addressed ones that the distributor does not store, have their value. -/
def PriorityWriteLands (g : GicV3) (off : Nat) (value : U64) (size : Nat) : Prop :=
  if readOnlyByte off then g.HoldsBytes off value 0 size
  else off % 4 = 0 → g.HoldsBytes off value size 4

theorem PriorityWord.read {g : GicV3} {a first : Nat} {b : Bank} (h : PriorityWord g a b first)
    {value : U64} {size s : Nat} (hsize : size = 1 ∨ size = 2 ∨ size = 4) (hs : s + size ≤ 4)
    (hv : ∀ k, k < size → g.prio b (first + (s + k)) = byteOf value k) :
    g.read (a + s) size = (value.setWidth (8 * size)).setWidth 64 := by
  have ha := h.aligned
  have hmod : (a + s) % 4 = s := by omega
  have hbad : ¬ (size ≠ 1 ∧ size ≠ 2 ∧ size ≠ 4 ∧ size ≠ 8) := by omega
  unfold GicV3.read
  dsimp only
  rw [if_neg hbad, if_neg (by omega)]
  refine readPart_eq hsize (by omega) fun k hk => ?_
  rw [hmod, h.read32 (by omega) (by omega)]
  exact hv k hk

/-- Which frames exist decides what is a priority register. -/
theorem SameShape.priorityWord {g g' : GicV3} (hs : SameShape g g') {a first : Nat} {b : Bank}
    (h : PriorityWord g a b first) : PriorityWord g' a b first := by
  cases h with
  | dist ha hf hlt hb => exact .dist ha hf hlt hb
  | frame f hc ha hf hlt hb => exact .frame f (hs.cpuCount ▸ hc) ha hf hlt hb

/-- Priority writes are local exactly when the unmasked word writes and the dropped distributor
writes make no difference. -/
theorem priorityLocal_iff (g : GicV3) (off : Nat) (value : U64) (size : Nat)
    (hsize : size = 1 ∨ size = 2 ∨ size = 4) (halign : off % size = 0)
    (hreg : (g.priorityByte off).isSome) :
    PriorityLocal g (g.write off value size) off value size ↔
      g.PriorityWriteLands off value size := by
  obtain ⟨b, first, hword⟩ := PriorityWord.of_isSome hreg
  have hfits : off % 4 + size ≤ 4 := by
    obtain rfl | rfl | rfl := hsize <;> omega
  obtain ⟨s, hs4, hoff⟩ : ∃ s, s + size ≤ 4 ∧ off = off / 4 * 4 + s := ⟨off % 4, hfits, by omega⟩
  generalize off / 4 * 4 = a at hword hoff
  subst hoff
  have hbyte : ∀ k, k < size → g.priorityByte (a + s + k) = some (b, first + (s + k)) := by
    intro k hk
    rw [Nat.add_assoc]
    exact hword.byte (by omega)
  obtain ⟨w, hw, hbytes⟩ := hword.write value hsize hs4
  have hword' := ((after_write32 g a w).shape).priorityWord hword
  rw [hw]
  unfold PriorityWriteLands
  by_cases hro : readOnlyByte (a + s) = true
  · -- The distributor's first 32 INTIDs: the write changes no priority.
    have hro' : readOnlyByte a = true := by
      have h0 := hword.readOnly_iff (s := 0) (by decide)
      exact h0.2 ((hword.readOnly_iff (by omega)).1 hro)
    have hsame : ∀ b i, (g.write32 a w).prio b i = g.prio b i := by
      intro b' i
      rw [hword.write32, if_neg]
      rintro ⟨-, -, -, hf⟩
      rw [hro'] at hf
      exact nomatch hf
    rw [if_pos hro]
    constructor
    · intro h k _ hk b' i hb
      rw [← hsame]
      exact h.addressed k hk b' i hb
    · intro h
      refine ⟨fun k hk b' i hb => ?_, fun b' i _ => hsame b' i,
        hword'.read hsize hs4 fun k hk => ?_⟩
      · rw [hsame]
        exact h k (Nat.zero_le k) hk b' i hb
      · rw [hsame]
        exact h k (Nat.zero_le k) hk _ _ (hbyte k hk)
  · have hro' : readOnlyByte a = false := by
      rw [← Bool.not_eq_true]
      intro ht
      exact hro ((hword.readOnly_iff (by omega)).2 ((hword.readOnly_iff (s := 0) (by decide)).1 ht))
    have hstored : ∀ j, j < 4 → (g.write32 a w).prio b (first + j) = wordByte w j := by
      intro j hj
      rw [hword.write32, if_pos ⟨rfl, by omega, by omega, hro'⟩, Nat.add_sub_cancel_left]
    have haddressed :
      ∀ k, k < size → (g.write32 a w).prio b (first + (s + k)) = byteOf value k := by
      intro k hk
      rw [hstored _ (by omega), hbytes _ (by omega), if_pos (by omega), Nat.add_sub_cancel_left]
    have ha := hword.aligned
    rw [if_neg hro, show (a + s) % 4 = s by omega]
    constructor
    · rintro h rfl k hlo hk b' i hb
      rw [Nat.add_zero, hword.byte hk] at hb
      obtain ⟨rfl, rfl⟩ := Prod.mk.inj (Option.some.inj hb)
      have hkeep := h.others b (first + k) fun k' hk' => by
        rw [hbyte k' hk']
        intro heq
        have := (Prod.mk.inj (Option.some.inj heq)).2
        omega
      rw [← hkeep, hstored k hk, hbytes k hk, if_neg (by omega), if_pos rfl]
    · intro h
      refine ⟨fun k hk b' i hb => ?_, fun b' i hb => ?_, hword'.read hsize hs4 haddressed⟩
      · rw [hbyte k hk] at hb
        obtain ⟨rfl, rfl⟩ := Prod.mk.inj (Option.some.inj hb)
        exact haddressed k hk
      · by_cases hin : b' = b ∧ first ≤ i ∧ i < first + 4
        · -- One of the word's other bytes.
          obtain ⟨rfl, hlo, hhi⟩ := hin
          obtain ⟨j, rfl⟩ : ∃ j, i = first + j := ⟨i - first, by omega⟩
          have hj : j < 4 := by omega
          have hout : ¬ (s ≤ j ∧ j < s + size) := by
            rintro ⟨hsj, hjs⟩
            refine hb (j - s) (by omega) ?_
            rw [hbyte _ (by omega), Nat.add_sub_cancel' hsj]
          rw [hstored j hj, hbytes j hj, if_neg hout]
          by_cases hs0 : s = 0
          · rw [if_pos hs0]
            refine (h hs0 j (by omega) hj b' (first + j) ?_).symm
            rw [hs0, Nat.add_zero]
            exact hword.byte hj
          · rw [if_neg hs0]
        · rw [hword.write32, if_neg]
          rintro ⟨hb', hlo, hhi, -⟩
          exact hin ⟨hb', hlo, hhi⟩

/-- A byte write of SPI 33's priority keeps its neighbours. -/
theorem priorityLocal_iff_byte :
    PriorityLocal (reset 1) ((reset 1).write 0x421 0x80 1) 0x421 0x80 1 := by
  refine (priorityLocal_iff (reset 1) 0x421 0x80 1 (.inl rfl) (by decide) (by decide)).2 ?_
  unfold PriorityWriteLands
  rw [if_neg (by decide)]
  intro h
  exact absurd h (by decide)

/-- The same write of SPI 32's priority, at the start of a register word, clears three others. -/
theorem byteWrite_clears_neighbour :
    ¬ PriorityLocal (reset 1) ((reset 1).write 0x420 0x80 1) 0x420 0x80 1 := by
  intro h
  have hkeep := h.others .shared 33 fun k hk => by
    obtain rfl : k = 0 := by omega
    decide
  exact absurd hkeep (by decide)

end GicV3
end Aarchvm
