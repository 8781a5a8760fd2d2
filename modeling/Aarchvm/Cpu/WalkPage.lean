import Aarchvm.Cpu.Translate
import Mathlib.Tactic.SplitIfs

/-!
# A walk depends on the page only

Two addresses of one page walk to the same leaf, at the offset of each. A walk
that gets past the checks on the address range has an address whose top byte
repeats bit 55; for such addresses VA[55:12] determines the page, for others it
does not.
-/
namespace Aarchvm

/-! ## Low masks -/

theorem lowMask_toNat {n : Nat} (h : n < 64) : (lowMask n).toNat = 2 ^ n - 1 := by
  have hp : 2 ^ n < 2 ^ 64 := Nat.pow_lt_pow_right (by decide) h
  have h1 : 1 ≤ 2 ^ n := Nat.one_le_two_pow
  have hone : BitVec.toNat (1 : U64) = 1 := rfl
  rw [lowMask, BitVec.toNat_sub, BitVec.toNat_shiftLeft, Nat.shiftLeft_eq, hone, Nat.one_mul,
    Nat.mod_eq_of_lt hp]
  omega

theorem lowMask_getLsbD {n k : Nat} (h : n < 64) : (lowMask n).getLsbD k = decide (k < n) := by
  rw [BitVec.getLsbD, lowMask_toNat h, Nat.testBit_two_pow_sub_one]

theorem lowMask_lt_iff {n : Nat} (h : n < 64) (va : U64) : lowMask n < va ↔ va >>> n ≠ 0 := by
  rw [BitVec.lt_def, lowMask_toNat h, ne_eq, ← BitVec.toNat_inj, BitVec.toNat_ushiftRight,
    Nat.shiftRight_eq_div_pow]
  have h1 : 1 ≤ 2 ^ n := Nat.one_le_two_pow
  have hz : (0 : U64).toNat = 0 := rfl
  rw [hz, Nat.div_eq_zero_iff]
  omega

/-! ## Pages and canonical addresses -/

/-- The top byte repeats bit 55. -/
def Canonical (va : U64) : Prop := (va.setWidth 56).signExtend 64 = va

instance (va : U64) : Decidable (Canonical va) :=
  inferInstanceAs (Decidable ((va.setWidth 56).signExtend 64 = va))

theorem Canonical.getLsbD {va : U64} (h : Canonical va) {k : Nat} (hlo : 56 ≤ k) (hhi : k < 64) :
    va.getLsbD k = va.getLsbD 55 := by
  have hk := congrArg (·.getLsbD k) h
  simp only [BitVec.getLsbD_signExtend, BitVec.msb_eq_getLsbD_last] at hk
  rw [← hk]
  simp [hhi, show ¬ k < 56 by omega]

theorem canonical_of_getLsbD {va : U64}
    (h : ∀ k, 56 ≤ k → k < 64 → va.getLsbD k = va.getLsbD 55) : Canonical va := by
  apply BitVec.eq_of_getLsbD_eq
  intro k hk
  simp only [BitVec.getLsbD_signExtend, BitVec.msb_eq_getLsbD_last]
  by_cases hlo : k < 56
  · simp [hlo, hk]
  · rw [h k (by omega) hk]
    simp [hlo, hk]

theorem getLsbD_of_page {va va' : U64} (h : va >>> 12 = va' >>> 12) {k : Nat} (hk : 12 ≤ k) :
    va.getLsbD k = va'.getLsbD k := by
  have hb := congrArg (·.getLsbD (k - 12)) h
  simp only [BitVec.getLsbD_ushiftRight] at hb
  rwa [Nat.add_sub_cancel' hk] at hb

/-- For canonical addresses the tag determines the page. -/
theorem page_eq_of_tag {va va' : U64} (hc : Canonical va) (hc' : Canonical va')
    (h : vaPageOf va = vaPageOf va') : va >>> 12 = va' >>> 12 := by
  have hbit : ∀ k, 12 ≤ k → k < 56 → va.getLsbD k = va'.getLsbD k := by
    intro k hlo hhi
    have hb := congrArg (·.getLsbD (k - 12)) h
    have hm : tlbPageMask.getLsbD (k - 12) = true := by
      rw [tlbPageMask, lowMask_getLsbD (by decide)]
      exact decide_eq_true (by omega)
    simp only [vaPageOf, BitVec.getLsbD_and, BitVec.getLsbD_ushiftRight, hm, Bool.and_true] at hb
    rwa [Nat.add_sub_cancel' hlo] at hb
  apply BitVec.eq_of_getLsbD_eq
  intro i hi
  simp only [BitVec.getLsbD_ushiftRight]
  by_cases hlt : 12 + i < 56
  · exact hbit (12 + i) (by omega) hlt
  · by_cases hlt' : 12 + i < 64
    · rw [hc.getLsbD (by omega) hlt', hc'.getLsbD (by omega) hlt']
      exact hbit 55 (by decide) (by decide)
    · rw [BitVec.getLsbD_of_ge va _ (by omega), BitVec.getLsbD_of_ge va' _ (by omega)]

theorem shift_of_page {va va' : U64} (h : va >>> 12 = va' >>> 12) {n : Nat} (hn : 12 ≤ n) :
    va >>> n = va' >>> n := by
  obtain ⟨m, rfl⟩ := Nat.exists_eq_add_of_le hn
  rw [BitVec.shiftRight_add, BitVec.shiftRight_add, h]

theorem and_not_lowMask_of_page {va va' : U64} (h : va >>> 12 = va' >>> 12) {n : Nat}
    (hlo : 12 ≤ n) (hhi : n < 64) : va &&& ~~~lowMask n = va' &&& ~~~lowMask n := by
  apply BitVec.eq_of_getLsbD_eq
  intro k hk
  simp only [BitVec.getLsbD_and, BitVec.getLsbD_not, lowMask_getLsbD hhi]
  by_cases hkn : k < n
  · simp [hkn]
  · rw [getLsbD_of_page h (by omega)]

/-! ## The checks on the address range -/

theorem walkSetup_of_page {va va' : U64} (h : va >>> 12 = va' >>> 12) (tcr : U64) (write : Bool) :
    walkSetup tcr va write = walkSetup tcr va' write := by
  have hu : va.getLsbD 63 = va'.getLsbD 63 := getLsbD_of_page h (by decide)
  simp only [walkSetup, hu]
  generalize 64 - (if va'.getLsbD 63 = true then field tcr 16 6 else field tcr 0 6) = vaBits
  by_cases hb : vaBits < 12 ∨ 48 < vaBits
  · simp only [hb, if_true]
  · have hlt : decide (lowMask vaBits < va) = decide (lowMask vaBits < va') := by
      apply decide_eq_decide.2
      rw [lowMask_lt_iff (by omega), lowMask_lt_iff (by omega), shift_of_page h (by omega)]
    rw [hlt, and_not_lowMask_of_page h (by omega) (by omega)]

/-- An address that passes the checks is canonical: at most 48 bits are translated. -/
theorem canonical_of_walkSetup {tcr va : U64} {write : Bool} {vaBits : Nat}
    (h : walkSetup tcr va write = .ok vaBits) : Canonical va := by
  simp only [walkSetup] at h
  generalize 64 - (if va.getLsbD 63 = true then field tcr 16 6 else field tcr 0 6) = bits at h
  generalize (if va.getLsbD 63 = true then field tcr 16 6 else field tcr 0 6) = txsz at h
  generalize (if va.getLsbD 63 = true then field tcr 30 2 else field tcr 14 2) = tg at h
  generalize (if va.getLsbD 63 = true then tcr.getLsbD 23 else tcr.getLsbD 7) = epd at h
  split_ifs at h with _ hb _ _ hlow hup
  have hbit : ∀ k, bits ≤ k → k < 64 → va.getLsbD k = va.getLsbD 63 := by
    intro k hk hk64
    by_cases hu : va.getLsbD 63 = true
    · rw [hu, Bool.true_and, bne_iff_ne, ne_eq, not_not] at hup
      have hg := congrArg (·.getLsbD k) hup
      simp only [BitVec.getLsbD_and, BitVec.getLsbD_not, lowMask_getLsbD (show bits < 64 by omega),
        show ¬ k < bits by omega, hk64, decide_true, decide_false, Bool.not_false, Bool.and_true]
        at hg
      rw [hg, hu]
    · rw [Bool.not_eq_true] at hu
      rw [hu, Bool.not_false, Bool.true_and, decide_eq_true_eq, lowMask_lt_iff (by omega), ne_eq,
        not_not] at hlow
      have hg := congrArg (·.getLsbD (k - bits)) hlow
      simp only [BitVec.getLsbD_ushiftRight, Nat.add_sub_cancel' hk] at hg
      rw [hg, hu]
      exact BitVec.getLsbD_zero
  apply canonical_of_getLsbD
  intro k hlo hhi
  rw [hbit k (by omega) hhi, hbit 55 (by omega) (by decide)]

theorem walkSetup_ok_any_write {tcr va : U64} {write write' : Bool} {vaBits : Nat}
    (h : walkSetup tcr va write = .ok vaBits) : walkSetup tcr va write' = .ok vaBits := by
  simp only [walkSetup] at h ⊢
  generalize (if va.getLsbD 63 = true then tcr.getLsbD 23 else tcr.getLsbD 7) = epd at h ⊢
  split_ifs at h ⊢ <;> exact h

theorem walkSetup_error_kind {tcr va : U64} {write : Bool} {f : TranslationFault}
    (h : walkSetup tcr va write = .error f) : f.kind ≠ .permission := by
  simp only [walkSetup] at h
  generalize (if va.getLsbD 63 = true then tcr.getLsbD 23 else tcr.getLsbD 7) = epd at h
  split_ifs at h <;> cases h <;> exact FaultKind.noConfusion

theorem canonical_of_walkLeaf {r : Regime} {readDesc : U64 → Option U64} {va : U64} {write : Bool}
    {leaf : Leaf} (h : walkLeaf r readDesc va write = .ok leaf) : Canonical va := by
  rw [walkLeaf] at h
  cases hs : walkSetup r.tcr va write with
  | error f =>
    rw [hs] at h
    cases h
  | ok vaBits => exact canonical_of_walkSetup hs

/-- A walk of an address that is not canonical fails, but not for want of a permission. -/
theorem walkLeaf_of_not_canonical (r : Regime) (readDesc : U64 → Option U64) {va : U64}
    (h : ¬ Canonical va) (write : Bool) :
    ∃ f, walkLeaf r readDesc va write = .error f ∧ f.kind ≠ .permission := by
  cases hs : walkSetup r.tcr va write with
  | error f =>
    refine ⟨f, ?_, walkSetup_error_kind hs⟩
    rw [walkLeaf, hs]
  | ok vaBits => exact absurd (canonical_of_walkSetup hs) h

/-! ## Top byte ignore -/

theorem normalizeStage1Address_idem (tcr va : U64) :
    normalizeStage1Address tcr (normalizeStage1Address tcr va) = normalizeStage1Address tcr va := by
  have hbit : (normalizeStage1Address tcr va).getLsbD 55 = va.getLsbD 55 := by
    have hm : kTopByteMask.getLsbD 55 = false := by decide
    rw [normalizeStage1Address]
    split_ifs with _ h55
    · simp only [BitVec.getLsbD_or, BitVec.getLsbD_and, BitVec.getLsbD_not, hm, h55]
      decide
    · simp only [BitVec.getLsbD_and, BitVec.getLsbD_not, hm, h55]
      decide
    · rfl
  have htbi : effectiveTbi tcr (normalizeStage1Address tcr va) = effectiveTbi tcr va := by
    rw [effectiveTbi, effectiveTbi, hbit]
  by_cases ht : effectiveTbi tcr va = true
  · by_cases h55 : va.getLsbD 55 = true
    · have hn : normalizeStage1Address tcr va = (va &&& ~~~kTopByteMask) ||| kTopByteMask := by
        rw [normalizeStage1Address, if_pos ht, if_pos h55]
      rw [hn] at hbit htbi ⊢
      rw [normalizeStage1Address, htbi, if_pos ht, hbit, if_pos h55]
      apply BitVec.eq_of_getLsbD_eq
      intro k hk
      simp only [BitVec.getLsbD_or, BitVec.getLsbD_and, BitVec.getLsbD_not]
      cases kTopByteMask.getLsbD k <;> simp
    · have hn : normalizeStage1Address tcr va = va &&& ~~~kTopByteMask := by
        rw [normalizeStage1Address, if_pos ht, if_neg h55]
      rw [hn] at hbit htbi ⊢
      rw [normalizeStage1Address, htbi, if_pos ht, hbit, if_neg h55, BitVec.and_assoc,
        BitVec.and_self]
  · have hn : normalizeStage1Address tcr va = va := by
      rw [normalizeStage1Address, if_neg ht]
    rw [hn, hn]

/-! ## Leaves -/

/-- The same leaf for another address of its page. -/
def Leaf.at (leaf : Leaf) (va : U64) : Leaf :=
  { leaf with pa := ((leaf.pa >>> 12) <<< 12) ||| (va &&& 0xFFF) }

theorem tableIndex_of_page {va va' : U64} (h : va >>> 12 = va' >>> 12) {level : Nat}
    (hl : level ≤ 3) : tableIndex va level = tableIndex va' level := by
  rw [tableIndex, tableIndex, shift_of_page h (by omega)]

theorem kTableAddrMask_low : ∀ k < 12, kTableAddrMask.getLsbD k = false := by decide

/-- The output address of a leaf, split at the page offset. -/
theorem leaf_pa_of_page {va va' : U64} (h : va >>> 12 = va' >>> 12) {n : Nat} (hlo : 12 ≤ n)
    (hhi : n < 64) (desc : U64) :
    (desc &&& kTableAddrMask &&& ~~~lowMask n) ||| (va' &&& lowMask n) =
      ((((desc &&& kTableAddrMask &&& ~~~lowMask n) ||| (va &&& lowMask n)) >>> 12) <<< 12) |||
        (va' &&& 0xFFF) := by
  have hoff : (0xFFF : U64) = lowMask 12 := rfl
  rw [hoff]
  apply BitVec.eq_of_getLsbD_eq
  intro k hk
  simp only [BitVec.getLsbD_or, BitVec.getLsbD_and, BitVec.getLsbD_not, BitVec.getLsbD_shiftLeft,
    BitVec.getLsbD_ushiftRight, lowMask_getLsbD hhi, lowMask_getLsbD (show 12 < 64 by decide)]
  by_cases hpage : k < 12
  · simp [hpage, kTableAddrMask_low k hpage, show k < n by omega]
  · rw [Nat.add_sub_cancel' (by omega), getLsbD_of_page h (show 12 ≤ k by omega)]
    simp [hpage, hk]

theorem leafOf_of_page {va va' : U64} (h : va >>> 12 = va' >>> 12) {tcr mair desc : U64}
    {write write' : Bool} {level : Nat} {inherited : TableAttrs} {leaf : Leaf}
    (hl : leafOf tcr mair va write level desc inherited = .ok leaf) :
    leafOf tcr mair va' write' level desc inherited = .ok (leaf.at va') := by
  have hu : va.getLsbD 63 = va'.getLsbD 63 := getLsbD_of_page h (by decide)
  simp only [leafOf, hu] at hl ⊢
  split_ifs at hl ⊢ with hp
  cases hl
  rw [Leaf.at, ← leaf_pa_of_page h (show 12 ≤ 12 + 9 * (3 - level) by omega) (by omega) desc]

theorem walkLevels_of_page {va va' : U64} (h : va >>> 12 = va' >>> 12) {tcr mair : U64}
    {readDesc : U64 → Option U64} {write write' : Bool} {n : Nat} {tableBase : U64}
    {inherited : TableAttrs} {leaf : Leaf}
    (hl : walkLevels tcr mair readDesc va write n tableBase inherited = .ok leaf) :
    walkLevels tcr mair readDesc va' write' n tableBase inherited = .ok (leaf.at va') := by
  induction n generalizing tableBase inherited with
  | zero => cases hl
  | succ n ih =>
    simp only [walkLevels, tableIndex_of_page h (show 3 - n ≤ 3 by omega)] at hl ⊢
    split at hl
    · cases hl
    · next desc _ =>
      split_ifs at hl ⊢
      · exact leafOf_of_page h hl
      · exact ih hl
      · exact leafOf_of_page h hl

/-- The walk of another address of the page finds the same leaf, for any kind of access. -/
theorem walkLeaf_of_page {va va' : U64} (h : va >>> 12 = va' >>> 12) {r : Regime}
    {readDesc : U64 → Option U64} {write write' : Bool} {leaf : Leaf}
    (hl : walkLeaf r readDesc va write = .ok leaf) :
    walkLeaf r readDesc va' write' = .ok (leaf.at va') := by
  have hu : va.getLsbD 63 = va'.getLsbD 63 := getLsbD_of_page h (by decide)
  simp only [walkLeaf] at hl ⊢
  cases hs : walkSetup r.tcr va write with
  | error f =>
    rw [hs] at hl
    cases hl
  | ok vaBits =>
    rw [hs] at hl
    rw [walkSetup_ok_any_write (walkSetup_of_page h r.tcr write ▸ hs), ← hu]
    dsimp only at hl ⊢
    split_ifs at hl ⊢
    · exact walkLevels_of_page h hl
    · exact walkLevels_of_page h hl

end Aarchvm
