import Aarchvm.Cpu.TlbFill

/-!
# The descriptors a walk reads

One iteration of the walk's loop, and the walk with the addresses it reads. The
table of a level is indexed by the address bits below the input size of the half,
the first table lies at TTBR[47:x], and a leaf keeps the offset bits of the
address. The walk reads four descriptors at most.
-/
namespace Aarchvm

/-! ## Addresses in range -/

/-- `txsz` of the half of `va`. -/
def txsz (tcr va : U64) : Nat := if va.getLsbD 63 then field tcr 16 6 else field tcr 0 6

def inputBits (tcr va : U64) : Nat := 64 - txsz tcr va

/-- The input sizes the walk supports, 25 to 48 bits. -/
def SizeSupported (tcr va : U64) : Prop := 16 ≤ txsz tcr va ∧ txsz tcr va ≤ 39

/-- The half of `va` has the 4 KiB granule: TG0 is 00, TG1 is 10. -/
def GranuleSupported (tcr va : U64) : Prop :=
  if va.getLsbD 63 then field tcr 30 2 = 2 else field tcr 14 2 = 0

/-- `epd` of the half of `va`. -/
def walksDisabled (tcr va : U64) : Bool := if va.getLsbD 63 then tcr.getLsbD 23 else tcr.getLsbD 7

/-- The bits of `va` above the input size repeat bit 63. -/
def TagRepeats (tcr va : U64) : Prop :=
  ∀ k < 64, inputBits tcr va ≤ k → va.getLsbD k = va.getLsbD 63

instance (tcr va : U64) : Decidable (SizeSupported tcr va) :=
  inferInstanceAs (Decidable (_ ∧ _))

instance (tcr va : U64) : Decidable (GranuleSupported tcr va) :=
  inferInstanceAs (Decidable (ite _ _ _))

instance (tcr va : U64) : Decidable (TagRepeats tcr va) :=
  inferInstanceAs (Decidable (∀ k < 64, inputBits tcr va ≤ k → va.getLsbD k = va.getLsbD 63))

/-- An address the walk is to translate. -/
structure InRange (tcr va : U64) : Prop where
  size : SizeSupported tcr va
  granule : GranuleSupported tcr va
  enabled : walksDisabled tcr va = false
  tag : TagRepeats tcr va

theorem SizeSupported.inputBits_le {tcr va : U64} (h : SizeSupported tcr va) :
    25 ≤ inputBits tcr va ∧ inputBits tcr va ≤ 48 := by
  have hlo := h.1
  have hhi := h.2
  rw [inputBits]
  omega

theorem shiftRight_eq_zero_iff {va : U64} {n : Nat} :
    va >>> n = 0 ↔ ∀ k, n ≤ k → k < 64 → va.getLsbD k = false := by
  constructor
  · intro h k hk _
    have hg := congrArg (·.getLsbD (k - n)) h
    simp only [BitVec.getLsbD_ushiftRight, Nat.add_sub_cancel' hk] at hg
    rw [hg]
    exact BitVec.getLsbD_zero
  · intro h
    apply BitVec.eq_of_getLsbD_eq
    intro i hi
    rw [BitVec.getLsbD_ushiftRight, show (0 : U64).getLsbD i = false from BitVec.getLsbD_zero]
    by_cases hlt : n + i < 64
    · exact h (n + i) (Nat.le_add_right n i) hlt
    · exact BitVec.getLsbD_of_ge va _ (Nat.le_of_not_lt hlt)

theorem and_upper_eq_iff {va : U64} {n : Nat} (hn : n < 64) :
    va &&& ~~~lowMask n = ~~~lowMask n ↔ ∀ k, n ≤ k → k < 64 → va.getLsbD k = true := by
  constructor
  · intro h k hk hlt
    have hg := congrArg (·.getLsbD k) h
    simpa only [BitVec.getLsbD_and, BitVec.getLsbD_not, lowMask_getLsbD hn, hlt,
      show ¬ k < n by omega, decide_true, decide_false, Bool.not_false, Bool.and_true] using hg
  · intro h
    apply BitVec.eq_of_getLsbD_eq
    intro k hk
    simp only [BitVec.getLsbD_and, BitVec.getLsbD_not, lowMask_getLsbD hn]
    by_cases hkn : k < n
    · simp [hkn]
    · rw [h k (by omega) hk, Bool.true_and]

/-- A lower-half address whose tag does not repeat is beyond the low limit, an upper-half one
differs from the upper tag mask. -/
theorem tagRepeats_iff {tcr va : U64} (hs : SizeSupported tcr va) :
    TagRepeats tcr va ↔
      ¬ (!va.getLsbD 63 && decide (lowMask (inputBits tcr va) < va)) = true ∧
      ¬ (va.getLsbD 63 && va &&& ~~~lowMask (inputBits tcr va) != ~~~lowMask (inputBits tcr va)) =
        true := by
  have hlt : inputBits tcr va < 64 := Nat.lt_of_le_of_lt hs.inputBits_le.2 (by decide)
  rw [TagRepeats]
  generalize inputBits tcr va = n at hlt
  cases hu : va.getLsbD 63 with
  | false =>
    simp only [Bool.not_false, Bool.true_and, Bool.false_and, decide_eq_true_eq,
      lowMask_lt_iff hlt, ne_eq, not_not, shiftRight_eq_zero_iff, Bool.false_eq_true,
      not_false_eq_true, and_true]
    exact ⟨fun h k hk hk64 => h k hk64 hk, fun h k hk64 hk => h k hk hk64⟩
  | true =>
    simp only [Bool.not_true, Bool.true_and, Bool.false_and, Bool.false_eq_true,
      not_false_eq_true, true_and, bne_iff_ne, ne_eq, not_not, and_upper_eq_iff hlt]
    exact ⟨fun h k hk hk64 => h k hk64 hk, fun h k hk64 hk => h k hk hk64⟩

/-- The checks before the first read, in order. -/
theorem walkSetup_eq (tcr va : U64) (write : Bool) :
    walkSetup tcr va write =
      if ¬ SizeSupported tcr va then .error ⟨.addressSize, 0, write⟩
      else if ¬ GranuleSupported tcr va then .error ⟨.translation, 0, write⟩
      else if walksDisabled tcr va then .error ⟨.translation, 0, write⟩
      else if ¬ TagRepeats tcr va then .error ⟨.addressSize, 0, write⟩
      else .ok (inputBits tcr va) := by
  have htxsz : (if va.getLsbD 63 = true then field tcr 16 6 else field tcr 0 6) = txsz tcr va := rfl
  have hbits : 64 - txsz tcr va = inputBits tcr va := rfl
  have hepd : (if va.getLsbD 63 = true then tcr.getLsbD 23 else tcr.getLsbD 7) =
    walksDisabled tcr va := rfl
  have htg : ((!va.getLsbD 63 &&
        (if va.getLsbD 63 = true then field tcr 30 2 else field tcr 14 2) != 0 ||
      va.getLsbD 63 && (if va.getLsbD 63 = true then field tcr 30 2 else field tcr 14 2) != 2) =
        true) = ¬ GranuleSupported tcr va := by
    rw [GranuleSupported]
    cases va.getLsbD 63 <;> simp
  simp only [walkSetup, htxsz, hbits, hepd, htg]
  by_cases hs : SizeSupported tcr va
  · have hle := hs.inputBits_le
    rw [if_neg (Nat.not_lt.2 hs.2), if_neg (by omega), if_neg (not_not.2 hs)]
    by_cases ht : TagRepeats tcr va
    · obtain ⟨hlow, hup⟩ := (tagRepeats_iff hs).1 ht
      rw [if_neg hlow, if_neg hup, if_neg (not_not.2 ht)]
    · rw [if_pos ht]
      by_cases hlow : (!va.getLsbD 63 && decide (lowMask (inputBits tcr va) < va)) = true
      · rw [if_pos hlow]
      · rw [if_neg hlow, if_pos (by_contra fun hup => ht ((tagRepeats_iff hs).2 ⟨hlow, hup⟩))]
  · rw [if_pos hs]
    by_cases hhi : 39 < txsz tcr va
    · rw [if_pos hhi]
    · rw [if_neg hhi, if_pos]
      rw [SizeSupported] at hs
      rw [inputBits]
      omega

/-- The checks before the first read pass exactly on the addresses in range. -/
theorem walkSetup_ok_iff {tcr va : U64} {write : Bool} {n : Nat} :
    walkSetup tcr va write = .ok n ↔ InRange tcr va ∧ n = inputBits tcr va := by
  rw [walkSetup_eq]
  constructor
  · intro h
    split_ifs at h with hsize hgranule hepd htag
    exact ⟨⟨hsize, hgranule, by simpa using hepd, htag⟩,
      (Except.ok.inj h).symm⟩
  · rintro ⟨h, rfl⟩
    rw [if_neg (not_not.2 h.size), if_neg (not_not.2 h.granule), h.enabled,
      if_neg Bool.false_ne_true, if_neg (not_not.2 h.tag)]

/-! ## One iteration -/

/-- What the loop does with a descriptor: leave, or go on to the next table. -/
inductive LevelStep where
  | done (result : Except TranslationFault Leaf)
  | table (base : U64) (inherited : TableAttrs)

/-- The loop body once the descriptor is read. -/
def walkLevel (tcr mair va : U64) (write : Bool) (level : Nat) (desc : U64)
    (inherited : TableAttrs) : LevelStep :=
  if !desc.getLsbD 0 then .done (.error ⟨.translation, level, write⟩)
  else if level = 3 then
    if !desc.getLsbD 1 then .done (.error ⟨.translation, level, write⟩)
    else .done (leafOf tcr mair va write level desc inherited)
  else if desc.getLsbD 1 then
    if paWithinIps (desc &&& kTableAddrMask) (decodeIpsBits tcr) then
      .table (desc &&& kTableAddrMask) (inherited.inherit desc)
    else .done (.error ⟨.addressSize, level, write⟩)
  else if level = 0 then .done (.error ⟨.translation, level, write⟩)
  else .done (leafOf tcr mair va write level desc inherited)

theorem walkLevels_succ (tcr mair : U64) (readDesc : U64 → Option U64) (va : U64) (write : Bool)
    (n : Nat) (tableBase : U64) (inherited : TableAttrs) :
    walkLevels tcr mair readDesc va write (n + 1) tableBase inherited =
      match readDesc (tableBase + tableIndex va (3 - n) * 8) with
      | none => .error ⟨.externalAbortOnWalk, 3 - n, write⟩
      | some desc =>
        match walkLevel tcr mair va write (3 - n) desc inherited with
        | .done result => result
        | .table base attrs => walkLevels tcr mair readDesc va write n base attrs := by
  rw [walkLevels]
  cases readDesc (tableBase + tableIndex va (3 - n) * 8) with
  | none => rfl
  | some desc =>
    simp only [walkLevel]
    split_ifs <;> rfl

/-- `walkLevels` with the addresses it reads, in order. -/
def walkLevelsReads (tcr mair : U64) (readDesc : U64 → Option U64) (va : U64) (write : Bool) :
    Nat → U64 → TableAttrs → List U64 × Except TranslationFault Leaf
  | 0, _, _ => ([], .error ⟨.translation, 0, false⟩)
  | n + 1, tableBase, inherited =>
    let level := 3 - n
    let descAddr := tableBase + tableIndex va level * 8
    match readDesc descAddr with
    | none => ([descAddr], .error ⟨.externalAbortOnWalk, level, write⟩)
    | some desc =>
      match walkLevel tcr mair va write level desc inherited with
      | .done result => ([descAddr], result)
      | .table base attrs =>
        let rest := walkLevelsReads tcr mair readDesc va write n base attrs
        (descAddr :: rest.1, rest.2)

section Iteration

variable {tcr mair va : U64} {readDesc : U64 → Option U64} {write : Bool} {n : Nat} {base : U64}
  {inherited : TableAttrs}

theorem walkLevelsReads_of_none (hd : readDesc (base + tableIndex va (3 - n) * 8) = none) :
    walkLevelsReads tcr mair readDesc va write (n + 1) base inherited =
      ([base + tableIndex va (3 - n) * 8], .error ⟨.externalAbortOnWalk, 3 - n, write⟩) := by
  simp only [walkLevelsReads, hd]

theorem walkLevelsReads_of_done {desc : U64} {result : Except TranslationFault Leaf}
    (hd : readDesc (base + tableIndex va (3 - n) * 8) = some desc)
    (hstep : walkLevel tcr mair va write (3 - n) desc inherited = .done result) :
    walkLevelsReads tcr mair readDesc va write (n + 1) base inherited =
      ([base + tableIndex va (3 - n) * 8], result) := by
  simp only [walkLevelsReads, hd, hstep]

theorem walkLevelsReads_of_table {desc base' : U64} {attrs : TableAttrs}
    (hd : readDesc (base + tableIndex va (3 - n) * 8) = some desc)
    (hstep : walkLevel tcr mair va write (3 - n) desc inherited = .table base' attrs) :
    walkLevelsReads tcr mair readDesc va write (n + 1) base inherited =
      ((base + tableIndex va (3 - n) * 8) ::
          (walkLevelsReads tcr mair readDesc va write n base' attrs).1,
        (walkLevelsReads tcr mair readDesc va write n base' attrs).2) := by
  simp only [walkLevelsReads, hd, hstep]

end Iteration

theorem walkLevelsReads_snd (tcr mair : U64) (readDesc : U64 → Option U64) (va : U64)
    (write : Bool) (n : Nat) (tableBase : U64) (inherited : TableAttrs) :
    (walkLevelsReads tcr mair readDesc va write n tableBase inherited).2 =
      walkLevels tcr mair readDesc va write n tableBase inherited := by
  induction n generalizing tableBase inherited with
  | zero => rfl
  | succ n ih =>
    rw [walkLevels_succ]
    cases hd : readDesc (tableBase + tableIndex va (3 - n) * 8) with
    | none => rw [walkLevelsReads_of_none hd]
    | some desc =>
      cases hstep : walkLevel tcr mair va write (3 - n) desc inherited with
      | done result =>
        rw [walkLevelsReads_of_done hd hstep]
        simp only [hstep]
      | table base attrs =>
        rw [walkLevelsReads_of_table hd hstep, ih]
        simp only [hstep]

/-! ## Table and output addresses -/

/-- The level of the first table for an input of `vaBits` bits. -/
def startLevel (vaBits : Nat) : Nat := if 40 ≤ vaBits then 0 else if 31 ≤ vaBits then 1 else 2

/-- The bit of the address below the index of a level. -/
def indexShift (level : Nat) : Nat := 12 + 9 * (3 - level)

/-- The index of a level, from the bits of `va` below the input size. -/
def levelIndex (vaBits : Nat) (va : U64) (level : Nat) : U64 :=
  ((va &&& lowMask vaBits) >>> indexShift level) &&& 0x1FF

/-- The first table has eight bytes for each value of its index, so it is aligned to `2 ^ x` bytes
for this `x`. -/
def startTableAlign (vaBits : Nat) : Nat := 3 + (vaBits - indexShift (startLevel vaBits))

/-- TTBR.BADDR[47:x]. -/
def startTableBase (ttbr : U64) (vaBits : Nat) : U64 :=
  ttbr &&& lowMask 48 &&& ~~~lowMask (startTableAlign vaBits)

/-- The addresses `reads` go down the tables from `base` at `level`, each table after the first
named by the descriptor read before. -/
def DownTheTables (readDesc : U64 → Option U64) (vaBits : Nat) (va : U64) :
    Nat → U64 → List U64 → Prop
  | _, _, [] => True
  | level, base, addr :: rest =>
    addr = base + levelIndex vaBits va level * 8 ∧
      (rest = [] ∨ ∃ desc, readDesc addr = some desc ∧
        DownTheTables readDesc vaBits va (level + 1) (desc &&& kTableAddrMask) rest)

/-- The page or block of a leaf descriptor combined with the low bits of `va`. -/
def outputAddress (level : Nat) (desc va : U64) : U64 :=
  (desc &&& kTableAddrMask &&& ~~~lowMask (indexShift level)) |||
    (va &&& lowMask (indexShift level))

/-- The addresses `reads` and the result of a walk of `va` with the tables at `ttbr`. -/
structure AddressLaw (ttbr : U64) (vaBits : Nat) (va : U64) (readDesc : U64 → Option U64)
    (reads : List U64) (result : Except TranslationFault TranslationResult) : Prop where
  tables : DownTheTables readDesc vaBits va (startLevel vaBits) (startTableBase ttbr vaBits) reads
  output : ∀ t, result = .ok t → ∃ addr desc, reads.getLast? = some addr ∧
    readDesc addr = some desc ∧ t.pa = outputAddress (startLevel vaBits + reads.length - 1) desc va
  atMostFour : reads.length ≤ 4

namespace SystemRegisters

/-- The table base register of the half of `va`. -/
def ttbr (r : SystemRegisters) (va : U64) : U64 := if va.getLsbD 63 then r.ttbr1El1 else r.ttbr0El1

/-- `walkLeaf` with the addresses it reads, in order. -/
def walkLeafReads (r : SystemRegisters) (readDesc : U64 → Option U64) (va : U64) (write : Bool) :
    List U64 × Except TranslationFault Leaf :=
  match walkSetup r.tcrEl1 va write with
  | .error f => ([], .error f)
  | .ok vaBits =>
    let tableBase := r.ttbr va &&& kTableAddrMask
    if paWithinIps tableBase (decodeIpsBits r.tcrEl1) then
      walkLevelsReads r.tcrEl1 r.mairEl1 readDesc va write (walkLevelCount vaBits) tableBase {}
    else ([], .error ⟨.addressSize, 0, write⟩)

theorem walkLeafReads_snd (r : SystemRegisters) (readDesc : U64 → Option U64) (va : U64)
    (write : Bool) :
    (r.walkLeafReads readDesc va write).2 = walkLeaf r.regime readDesc va write := by
  have hbase : (if va.getLsbD 63 = true then r.regime.base1 else r.regime.base0) =
      r.ttbr va &&& kTableAddrMask := by
    rw [ttbr, regime]
    split_ifs <;> rfl
  rw [walkLeafReads, walkLeaf, hbase]
  have htcr : r.regime.tcr = r.tcrEl1 := rfl
  rw [htcr]
  cases walkSetup r.tcrEl1 va write with
  | error f => rfl
  | ok vaBits =>
    dsimp only
    split_ifs
    · exact walkLevelsReads_snd ..
    · rfl

end SystemRegisters

/-! ## The law holds below the first table -/

theorem startLevel_eq {vaBits : Nat} (h : 25 ≤ vaBits ∧ vaBits ≤ 48) :
    startLevel vaBits = 4 - walkLevelCount vaBits ∧ 2 ≤ walkLevelCount vaBits ∧
      walkLevelCount vaBits ≤ 4 := by
  rw [startLevel, walkLevelCount, if_neg (show ¬ vaBits ≤ 12 by omega)]
  split_ifs <;> omega

/-- Below the input size the whole index of a level is used. -/
theorem tableIndex_eq {vaBits level : Nat} (hl : level ≤ 3) (h : indexShift level + 9 ≤ vaBits)
    (hv : vaBits < 64) (va : U64) : tableIndex va level = levelIndex vaBits va level := by
  have hshift : 39 - 9 * level = indexShift level := by
    rw [indexShift]
    omega
  rw [tableIndex, levelIndex, hshift]
  apply BitVec.eq_of_getLsbD_eq
  intro k _
  have hmask : (0x1FF : U64) = lowMask 9 := rfl
  rw [hmask]
  simp only [BitVec.getLsbD_and, BitVec.getLsbD_ushiftRight, lowMask_getLsbD hv,
    lowMask_getLsbD (show 9 < 64 by decide)]
  by_cases hk : k < 9
  · simp [hk, show indexShift level + k < vaBits by omega]
  · simp [hk]

section Levels

variable {tcr mair va : U64} {readDesc : U64 → Option U64} {write : Bool}

theorem walkLevel_table {level : Nat} {desc base : U64} {inherited attrs : TableAttrs}
    (h : walkLevel tcr mair va write level desc inherited = .table base attrs) :
    base = desc &&& kTableAddrMask ∧ attrs = inherited.inherit desc := by
  rw [walkLevel] at h
  split_ifs at h
  cases h
  exact ⟨rfl, rfl⟩

theorem leafOf_ok {level : Nat} {desc : U64} {inherited : TableAttrs} {leaf : Leaf}
    (h : leafOf tcr mair va write level desc inherited = .ok leaf) :
    leaf.pa = outputAddress level desc va := by
  simp only [leafOf] at h
  split_ifs at h
  cases h
  rfl

theorem walkLevel_ok {level : Nat} {desc : U64} {inherited : TableAttrs} {leaf : Leaf}
    (h : walkLevel tcr mair va write level desc inherited = .done (.ok leaf)) :
    leaf.pa = outputAddress level desc va := by
  rw [walkLevel] at h
  split_ifs at h
  · cases h
  · cases h
  · exact leafOf_ok (LevelStep.done.inj h)
  · cases h
  · cases h
  · exact leafOf_ok (LevelStep.done.inj h)

/-- A walk with levels left reads a descriptor, and the rest of it starts from the table that
this one names. -/
theorem walkLevelsReads_succ (n : Nat) (base : U64) (inherited : TableAttrs) :
    ∃ rest, (walkLevelsReads tcr mair readDesc va write (n + 1) base inherited).1 =
        (base + tableIndex va (3 - n) * 8) :: rest ∧
      (rest = [] ∨ ∃ desc attrs, readDesc (base + tableIndex va (3 - n) * 8) = some desc ∧
        rest =
          (walkLevelsReads tcr mair readDesc va write n (desc &&& kTableAddrMask) attrs).1) := by
  cases hd : readDesc (base + tableIndex va (3 - n) * 8) with
  | none => exact ⟨[], by rw [walkLevelsReads_of_none hd], .inl rfl⟩
  | some desc =>
    cases hstep : walkLevel tcr mair va write (3 - n) desc inherited with
    | done result => exact ⟨[], by rw [walkLevelsReads_of_done hd hstep], .inl rfl⟩
    | table base' attrs =>
      obtain ⟨rfl, -⟩ := walkLevel_table hstep
      exact ⟨_, by rw [walkLevelsReads_of_table hd hstep], .inr ⟨desc, attrs, rfl, rfl⟩⟩

/-- From a level whose index lies below the input size on, the walk goes down the tables. -/
theorem walkLevelsReads_downTheTables {vaBits : Nat} (hv : vaBits < 64) {n : Nat}
    (h : n = 0 ∨ indexShift (4 - n) + 9 ≤ vaBits) (hn : n ≤ 4) (base : U64)
    (inherited : TableAttrs) :
    DownTheTables readDesc vaBits va (4 - n) base
      (walkLevelsReads tcr mair readDesc va write n base inherited).1 := by
  induction n generalizing base inherited with
  | zero => trivial
  | succ n ih =>
    have hshift : indexShift (4 - (n + 1)) + 9 ≤ vaBits := h.resolve_left (Nat.succ_ne_zero n)
    have hlevel : 4 - (n + 1) = 3 - n := by omega
    rw [hlevel] at hshift ⊢
    obtain ⟨rest, hreads, hrest⟩ :=
      @walkLevelsReads_succ tcr mair va readDesc write n base inherited
    rw [hreads]
    refine ⟨by rw [tableIndex_eq (by omega) hshift hv], ?_⟩
    obtain rfl | ⟨desc, attrs, hd, rfl⟩ := hrest
    · exact .inl rfl
    · refine .inr ⟨desc, hd, ?_⟩
      have hnext : 3 - n + 1 = 4 - n := by omega
      rw [hnext]
      refine ih ?_ (by omega) _ _
      by_cases hz : n = 0
      · exact .inl hz
      · right
        rw [indexShift] at hshift ⊢
        omega

theorem walkLevelsReads_length (n : Nat) (base : U64) (inherited : TableAttrs) :
    (walkLevelsReads tcr mair readDesc va write n base inherited).1.length ≤ n := by
  induction n generalizing base inherited with
  | zero => exact Nat.le_refl 0
  | succ n ih =>
    obtain ⟨rest, hreads, hrest⟩ :=
      @walkLevelsReads_succ tcr mair va readDesc write n base inherited
    rw [hreads, List.length_cons]
    obtain rfl | ⟨desc, attrs, -, rfl⟩ := hrest
    · exact Nat.succ_le_succ (Nat.zero_le n)
    · exact Nat.succ_le_succ (ih _ _)

/-- The leaf comes from the descriptor read last. -/
theorem walkLevelsReads_ok {n : Nat} (hn : n ≤ 4) {base : U64} {inherited : TableAttrs}
    {leaf : Leaf}
    (h : (walkLevelsReads tcr mair readDesc va write n base inherited).2 = .ok leaf) :
    ∃ addr desc,
      (walkLevelsReads tcr mair readDesc va write n base inherited).1.getLast? = some addr ∧
      readDesc addr = some desc ∧
      leaf.pa = outputAddress
        (4 - n + (walkLevelsReads tcr mair readDesc va write n base inherited).1.length - 1)
        desc va := by
  induction n generalizing base inherited with
  | zero => cases h
  | succ n ih =>
    cases hd : readDesc (base + tableIndex va (3 - n) * 8) with
    | none =>
      rw [walkLevelsReads_of_none hd] at h
      cases h
    | some desc =>
      cases hstep : walkLevel tcr mair va write (3 - n) desc inherited with
      | done result =>
        rw [walkLevelsReads_of_done hd hstep] at h ⊢
        subst h
        refine ⟨_, desc, rfl, hd, ?_⟩
        rw [walkLevel_ok hstep]
        congr 1
        simp only [List.length_singleton]
        omega
      | table base' attrs =>
        rw [walkLevelsReads_of_table hd hstep] at h ⊢
        obtain ⟨addr, last, haddr, hlast, hpa⟩ := ih (by omega) h
        refine ⟨addr, last, ?_, hlast, ?_⟩
        · rw [List.getLast?_cons, haddr]
          rfl
        · rw [hpa, List.length_cons]
          congr 1
          omega

end Levels

/-! ## The first read -/

theorem kTableAddrMask_eq : kTableAddrMask = lowMask 48 &&& ~~~lowMask 12 := by decide

theorem mul_eight (x : U64) : x * (8 : U64) = x <<< (3 : Nat) := by
  apply BitVec.eq_of_toNat_eq
  rw [BitVec.toNat_mul, BitVec.toNat_shiftLeft, Nat.shiftLeft_eq]
  rfl

/-- A base with clear bits below `n` and an offset below `2 ^ n` add up without carries. -/
theorem add_eq_or {base offset : U64} {n : Nat} (hb : ∀ k < n, base.getLsbD k = false)
    (ho : ∀ k, n ≤ k → offset.getLsbD k = false) : base + offset = base ||| offset := by
  apply BitVec.add_eq_or_of_and_eq_zero
  apply BitVec.eq_of_getLsbD_eq
  intro k _
  rw [BitVec.getLsbD_and, show (0#64).getLsbD k = false from BitVec.getLsbD_zero]
  by_cases hk : k < n
  · rw [hb k hk, Bool.false_and]
  · rw [ho k (by omega), Bool.and_false]

section First

variable {ttbr va : U64} {vaBits k : Nat}

theorem tableOffset_getLsbD {level : Nat} (hl : level ≤ 3) :
    (tableIndex va level * 8).getLsbD k =
      (decide (3 ≤ k ∧ k < 12) && va.getLsbD (indexShift level + (k - 3))) := by
  have hshift : 39 - 9 * level = indexShift level := by
    rw [indexShift]
    omega
  have hmask : (0x1FF : U64) = lowMask 9 := rfl
  rw [mul_eight, tableIndex, hshift, hmask]
  simp only [BitVec.getLsbD_shiftLeft, BitVec.getLsbD_and, BitVec.getLsbD_ushiftRight,
    lowMask_getLsbD (show 9 < 64 by decide)]
  by_cases hlo : k < 3
  · simp [hlo, show ¬ 3 ≤ k by omega]
  · by_cases hhi : k < 12
    · simp [hlo, hhi, show 3 ≤ k by omega, show k < 64 by omega, show k - 3 < 9 by omega]
    · simp [hlo, hhi, show ¬ k - 3 < 9 by omega]

theorem levelOffset_getLsbD (hv : vaBits < 64) {level : Nat} :
    (levelIndex vaBits va level * 8).getLsbD k =
      (decide (3 ≤ k ∧ k < 12 ∧ indexShift level + (k - 3) < vaBits) &&
        va.getLsbD (indexShift level + (k - 3))) := by
  have hmask : (0x1FF : U64) = lowMask 9 := rfl
  rw [mul_eight, levelIndex, hmask]
  simp only [BitVec.getLsbD_shiftLeft, BitVec.getLsbD_and, BitVec.getLsbD_ushiftRight,
    lowMask_getLsbD hv, lowMask_getLsbD (show 9 < 64 by decide)]
  by_cases hlo : k < 3
  · simp [hlo, show ¬ 3 ≤ k by omega]
  · by_cases hhi : k < 12
    · simp [hlo, hhi, show 3 ≤ k by omega, show k < 64 by omega, show k - 3 < 9 by omega,
        Bool.and_comm]
    · simp [hlo, hhi, show ¬ k - 3 < 9 by omega]

theorem startTableAlign_le (h : 25 ≤ vaBits ∧ vaBits ≤ 48) :
    startTableAlign vaBits ≤ 12 ∧
      indexShift (startLevel vaBits) + (startTableAlign vaBits - 3) = vaBits := by
  rw [startTableAlign, startLevel]
  split_ifs <;> simp only [indexShift] <;> omega

/-- The first descriptor address is that of TTBR[47:x] and the index below the input size exactly
when the bits [11:x] that the mask drops from the base equal the sign bits that the index takes
in. -/
theorem first_address_iff (h : 25 ≤ vaBits ∧ vaBits ≤ 48)
    (htag : ∀ k < 64, vaBits ≤ k → va.getLsbD k = va.getLsbD 63) :
    (ttbr &&& kTableAddrMask) + tableIndex va (startLevel vaBits) * 8 =
        startTableBase ttbr vaBits + levelIndex vaBits va (startLevel vaBits) * 8 ↔
      ∀ k, startTableAlign vaBits ≤ k → k < 12 → ttbr.getLsbD k = va.getLsbD 63 := by
  obtain ⟨halign, hsum⟩ := startTableAlign_le h
  have hl : startLevel vaBits ≤ 3 := by
    rw [startLevel]
    split_ifs <;> omega
  have hv : vaBits < 64 := by omega
  have hmask : ∀ k, kTableAddrMask.getLsbD k = (decide (k < 48) && !decide (k < 12) &&
      decide (k < 64)) := by
    intro k
    rw [kTableAddrMask_eq, BitVec.getLsbD_and, BitVec.getLsbD_not,
      lowMask_getLsbD (by decide), lowMask_getLsbD (by decide)]
    grind
  have hbase : ∀ k, (startTableBase ttbr vaBits).getLsbD k =
      (ttbr.getLsbD k && decide (k < 48) && (decide (k < 64) &&
        !decide (k < startTableAlign vaBits))) := by
    intro k
    rw [startTableBase, BitVec.getLsbD_and, BitVec.getLsbD_and, BitVec.getLsbD_not,
      lowMask_getLsbD (by decide), lowMask_getLsbD (by omega)]
  have hcode : (ttbr &&& kTableAddrMask) + tableIndex va (startLevel vaBits) * 8 =
      (ttbr &&& kTableAddrMask) ||| tableIndex va (startLevel vaBits) * 8 := by
    apply @add_eq_or _ _ 12
    · intro k hk
      simp [hmask, hk]
    · intro k hk
      rw [tableOffset_getLsbD hl, decide_eq_false (by omega), Bool.false_and]
  have hlaw : startTableBase ttbr vaBits + levelIndex vaBits va (startLevel vaBits) * 8 =
      startTableBase ttbr vaBits ||| levelIndex vaBits va (startLevel vaBits) * 8 := by
    apply @add_eq_or _ _ (startTableAlign vaBits)
    · intro k hk
      simp [hbase, hk]
    · intro k hk
      rw [levelOffset_getLsbD hv, decide_eq_false (by omega), Bool.false_and]
  rw [hcode, hlaw]
  constructor
  · intro heq k hlo hhi
    have hk := congrArg (·.getLsbD k) heq
    have h3 : 3 ≤ startTableAlign vaBits := Nat.le_add_right 3 _
    simp only [BitVec.getLsbD_or, BitVec.getLsbD_and, hmask, hbase, tableOffset_getLsbD hl,
      levelOffset_getLsbD hv] at hk
    have hsign := htag (indexShift (startLevel vaBits) + (k - 3)) (by omega) (by omega)
    rw [hsign] at hk
    simpa [hhi, show k < 48 by omega, show k < 64 by omega,
      show ¬ k < startTableAlign vaBits by omega,
      show 3 ≤ k by omega, show ¬ indexShift (startLevel vaBits) + (k - 3) < vaBits by omega]
      using hk.symm
  · intro hbits
    apply BitVec.eq_of_getLsbD_eq
    intro k hk64
    simp only [BitVec.getLsbD_or, BitVec.getLsbD_and, hmask, hbase, tableOffset_getLsbD hl,
      levelOffset_getLsbD hv, hk64]
    have h3 : 3 ≤ startTableAlign vaBits := Nat.le_add_right 3 _
    by_cases hhi : k < 12
    · by_cases hlo : k < startTableAlign vaBits
      · by_cases h3k : 3 ≤ k
        · simp [hhi, hlo, h3k,
            show indexShift (startLevel vaBits) + (k - 3) < vaBits by omega]
        · simp [hhi, hlo, h3k]
      · have hsign := htag (indexShift (startLevel vaBits) + (k - 3)) (by omega) (by omega)
        rw [hbits k (by omega) hhi, hsign]
        simp [hhi, hlo, show 3 ≤ k by omega, show k < 48 by omega,
          show ¬ indexShift (startLevel vaBits) + (k - 3) < vaBits by omega]
    · simp [hhi, show ¬ k < startTableAlign vaBits by omega]

end First

/-! ## The law -/

/-- From the first level on, only the first address can leave the tables of another base. -/
theorem walkLevelsReads_start {tcr mair va : U64} {readDesc : U64 → Option U64} {write : Bool}
    {vaBits : Nat} (h : 25 ≤ vaBits ∧ vaBits ≤ 48) (base base' : U64) (inherited : TableAttrs) :
    DownTheTables readDesc vaBits va (startLevel vaBits) base'
        (walkLevelsReads tcr mair readDesc va write (walkLevelCount vaBits) base inherited).1 ↔
      base + tableIndex va (startLevel vaBits) * 8 =
        base' + levelIndex vaBits va (startLevel vaBits) * 8 := by
  obtain ⟨hstart, hlo, hhi⟩ := startLevel_eq h
  have hshift : indexShift (startLevel vaBits + 1) + 9 ≤ vaBits := by
    rw [startLevel]
    split_ifs <;> simp only [indexShift] <;> omega
  obtain ⟨n, hn⟩ : ∃ n, walkLevelCount vaBits = n + 1 := ⟨walkLevelCount vaBits - 1, by omega⟩
  obtain ⟨rest, hreads, hrest⟩ := @walkLevelsReads_succ tcr mair va readDesc write n base inherited
  have hlevel : 3 - n = startLevel vaBits := by omega
  have hnext : 4 - n = startLevel vaBits + 1 := by omega
  rw [hn, hreads, hlevel]
  refine ⟨And.left, fun heq => ⟨heq, ?_⟩⟩
  rw [hlevel] at hrest
  obtain rfl | ⟨desc, attrs, hd, rfl⟩ := hrest
  · exact .inl rfl
  · refine .inr ⟨desc, hd, ?_⟩
    rw [← hnext] at hshift ⊢
    exact walkLevelsReads_downTheTables (by omega) (.inr hshift) (by omega) _ _

namespace SystemRegisters

variable {r : SystemRegisters} {readDesc : U64 → Option U64} {va : U64} {access : AccessType}
  {checkPermissions applyPan checkAccessFlag : Bool}

theorem walkLeafReads_of_inRange (h : InRange r.tcrEl1 va) (write : Bool) :
    r.walkLeafReads readDesc va write =
      if paWithinIps (r.ttbr va &&& kTableAddrMask) (decodeIpsBits r.tcrEl1) then
        walkLevelsReads r.tcrEl1 r.mairEl1 readDesc va write
          (walkLevelCount (inputBits r.tcrEl1 va)) (r.ttbr va &&& kTableAddrMask) {}
      else ([], .error ⟨.addressSize, 0, write⟩) := by
  rw [walkLeafReads, walkSetup_ok_iff.2 ⟨h, rfl⟩]

theorem walkPageTables_pa {result : TranslationResult}
    (h : r.walkPageTables readDesc va access checkPermissions applyPan checkAccessFlag =
      .ok result) :
    ∃ leaf, (r.walkLeafReads readDesc (normalizeStage1Address r.tcrEl1 va) access.isWrite).2 =
      .ok leaf ∧ leaf.pa = result.pa := by
  rw [walkLeafReads_snd]
  simp only [walkPageTables] at h
  split at h
  · cases h
  · next leaf hleaf =>
    refine ⟨leaf, hleaf, ?_⟩
    split at h
    · cases h
    · split at h
      · cases h
      · cases h
        rfl

end SystemRegisters

/-- The walk of an address in range keeps the address law exactly when its first table lies beyond
the IPS limit, so that nothing is read, or the bits of TTBR between the alignment of the first
table and bit 11 equal the sign bit of the address. For a first table of 4 KiB there are no such
bits. -/
theorem walkPageTables_addressLaw (r : SystemRegisters) (readDesc : U64 → Option U64) (va : U64)
    (access : AccessType) (checkPermissions applyPan checkAccessFlag : Bool)
    (h : InRange r.tcrEl1 (normalizeStage1Address r.tcrEl1 va)) :
    let effectiveVa := normalizeStage1Address r.tcrEl1 va
    let vaBits := inputBits r.tcrEl1 effectiveVa
    AddressLaw (r.ttbr effectiveVa) vaBits effectiveVa readDesc
        (r.walkLeafReads readDesc effectiveVa access.isWrite).1
        (r.walkPageTables readDesc va access checkPermissions applyPan checkAccessFlag) ↔
      paWithinIps (r.ttbr effectiveVa &&& kTableAddrMask) (decodeIpsBits r.tcrEl1) = false ∨
      ∀ k, startTableAlign vaBits ≤ k → k < 12 →
        (r.ttbr effectiveVa).getLsbD k = effectiveVa.getLsbD 63 := by
  intro effectiveVa vaBits
  have hbits : 25 ≤ vaBits ∧ vaBits ≤ 48 := h.size.inputBits_le
  obtain ⟨hstart, hlo, hhi⟩ := startLevel_eq hbits
  have hreads := @SystemRegisters.walkLeafReads_of_inRange r readDesc effectiveVa h access.isWrite
  have hpa : ∀ t, r.walkPageTables readDesc va access checkPermissions applyPan checkAccessFlag =
      .ok t → ∃ leaf, (r.walkLeafReads readDesc effectiveVa access.isWrite).2 = .ok leaf ∧
        leaf.pa = t.pa := fun t ht => SystemRegisters.walkPageTables_pa ht
  by_cases hips :
    paWithinIps (r.ttbr effectiveVa &&& kTableAddrMask) (decodeIpsBits r.tcrEl1) = true
  · rw [if_pos hips] at hreads
    have htables : DownTheTables readDesc vaBits effectiveVa (startLevel vaBits)
          (startTableBase (r.ttbr effectiveVa) vaBits)
          (r.walkLeafReads readDesc effectiveVa access.isWrite).1 ↔
        ∀ k, startTableAlign vaBits ≤ k → k < 12 →
          (r.ttbr effectiveVa).getLsbD k = effectiveVa.getLsbD 63 := by
      rw [hreads, walkLevelsReads_start hbits]
      exact first_address_iff hbits h.tag
    constructor
    · intro hlaw
      exact .inr (htables.1 hlaw.tables)
    · rintro (hout | hzero)
      · rw [hips] at hout
        cases hout
      · refine ⟨htables.2 hzero, ?_, ?_⟩
        · intro t ht
          obtain ⟨leaf, hleaf, hpa⟩ := hpa t ht
          rw [hreads] at hleaf ⊢
          rw [← hpa, hstart]
          exact walkLevelsReads_ok hhi hleaf
        · rw [hreads]
          exact (walkLevelsReads_length ..).trans hhi
  · rw [if_neg hips] at hreads
    refine ⟨fun _ => .inl (Bool.not_eq_true _ ▸ hips), fun _ => ⟨?_, ?_, ?_⟩⟩
    · rw [hreads]
      trivial
    · intro t ht
      obtain ⟨leaf, hleaf, -⟩ := hpa t ht
      rw [hreads] at hleaf
      cases hleaf
    · rw [hreads]
      exact Nat.zero_le 4

/-- A 48-bit upper half, with a first table of 4 KiB at 0x40000000. -/
def upperHalf48 : SystemRegisters :=
  { SystemRegisters.reset with tcrEl1 := 0x80100000, ttbr1El1 := 0x40000000 }

theorem upperHalf48_addressLaw :
    AddressLaw 0x40000000 48 0xFFFF800000000000 (fun _ => some 0)
      (upperHalf48.walkLeafReads (fun _ => some 0)
        (normalizeStage1Address upperHalf48.tcrEl1 0xFFFF800000000000) AccessType.fetch.isWrite).1
      (upperHalf48.walkPageTables (fun _ => some 0) 0xFFFF800000000000 .fetch true true true) := by
  have h := walkPageTables_addressLaw upperHalf48 (fun _ => some 0) 0xFFFF800000000000 .fetch true
    true true ⟨by decide, by decide, by decide, by decide⟩
  refine h.2 (.inr ?_)
  intro k hlo hhi
  exact absurd (show 12 ≤ k from hlo) (by omega)

/-- A 36-bit upper half whose first table, of 64 descriptors, is at 0x40000000. -/
def upperHalf36 : SystemRegisters :=
  { SystemRegisters.reset with tcrEl1 := 0x801C0000, ttbr1El1 := 0x40000000 }

theorem upperHalf36_inRange :
    InRange upperHalf36.tcrEl1 (normalizeStage1Address upperHalf36.tcrEl1 0xFFFFFFF000000000) :=
  ⟨by decide, by decide, by decide, by decide⟩

/-- The first address of the upper half is looked up at index 0x1C0 of the table, not at index 0:
bits 38 to 36 of the address are sign bits. -/
theorem upperHalf36_past_table :
    ¬ ∀ (r : SystemRegisters) (readDesc : U64 → Option U64) (va : U64) (access : AccessType),
      InRange r.tcrEl1 (normalizeStage1Address r.tcrEl1 va) →
      AddressLaw (r.ttbr (normalizeStage1Address r.tcrEl1 va))
        (inputBits r.tcrEl1 (normalizeStage1Address r.tcrEl1 va))
        (normalizeStage1Address r.tcrEl1 va) readDesc
        (r.walkLeafReads readDesc (normalizeStage1Address r.tcrEl1 va) access.isWrite).1
        (r.walkPageTables readDesc va access true true true) := by
  intro hall
  have hlaw :=
    (hall upperHalf36 (fun _ => none) 0xFFFFFFF000000000 .read upperHalf36_inRange).tables
  have hreads : (upperHalf36.walkLeafReads (fun _ => none)
      (normalizeStage1Address upperHalf36.tcrEl1 0xFFFFFFF000000000) AccessType.read.isWrite).1 =
      [0x40000E00] := by decide
  rw [hreads] at hlaw
  exact absurd hlaw.1 (by decide)

end Aarchvm
