import Mathlib.Order.Interval.Set.LinearOrder
import Mathlib.Algebra.Group.Nat.Defs

/-!
# Address intervals over machine words

An access of `n` bytes at a `w`-bit address `a` denotes the natural-number
interval `[a, a+n)`. A range check written with word sums compares residues of
interval ends; the lemmas below say exactly which intervals such a check lets
through.
-/
namespace Aarchvm.Lib.WordInterval

variable {w : Nat}

/-- The natural-number interval of `n` bytes at `a`. It may extend past `2 ^ w`. -/
def span (a n : BitVec w) : Set Nat := Set.Ico a.toNat (a.toNat + n.toNat)

/-- The interval's end is not representable, so the word sum `a + n` wraps. -/
def Wraps (a n : BitVec w) : Prop := 2 ^ w ≤ a.toNat + n.toNat

/-- The check `b ≤ a ∧ a + n ≤ b + s`, with both sums taken in the word type. -/
def wordCheck (b s a n : BitVec w) : Bool := decide (b ≤ a) && decide (a + n ≤ b + s)

/-- `[a, a+n)` between the natural-number ends of `[b, b+s)`. -/
def Inside (b s a n : BitVec w) : Prop :=
  b.toNat ≤ a.toNat ∧ a.toNat + n.toNat ≤ b.toNat + s.toNat

/-- The access runs past `2 ^ w`, the window does not, and the wrapped end of the
access is no larger than the window's end. -/
def WrapsInto (b s a n : BitVec w) : Prop :=
  b.toNat ≤ a.toNat ∧ Wraps a n ∧ ¬ Wraps b s ∧
    a.toNat + n.toNat ≤ b.toNat + s.toNat + 2 ^ w

instance (a n : BitVec w) : Decidable (Wraps a n) := inferInstanceAs (Decidable (_ ≤ _))

instance (b s a n : BitVec w) : Decidable (Inside b s a n) :=
  inferInstanceAs (Decidable (_ ∧ _))

instance (b s a n : BitVec w) : Decidable (WrapsInto b s a n) :=
  inferInstanceAs (Decidable (_ ∧ _))

theorem toNat_add_of_not_wraps {a n : BitVec w} (h : ¬ Wraps a n) :
    (a + n).toNat = a.toNat + n.toNat := by
  rw [BitVec.toNat_add]
  exact Nat.mod_eq_of_lt (Nat.lt_of_not_le h)

theorem toNat_add_of_wraps {a n : BitVec w} (h : Wraps a n) :
    (a + n).toNat = a.toNat + n.toNat - 2 ^ w := by
  have ha := a.isLt
  have hn := n.isLt
  unfold Wraps at h
  rw [BitVec.toNat_add, Nat.mod_eq_sub_mod h]
  exact Nat.mod_eq_of_lt (by omega)

theorem Inside.span_subset {b s a n : BitVec w} (h : Inside b s a n) :
    span a n ⊆ span b s :=
  Set.Ico_subset_Ico h.1 h.2

/-- A nonempty interval is a subset exactly when its ends are ordered. -/
theorem span_subset_iff {b s a n : BitVec w} (hn : 0 < n.toNat) :
    span a n ⊆ span b s ↔ Inside b s a n := by
  constructor
  · intro h
    exact (Set.Ico_subset_Ico_iff (by omega)).1 h
  · exact Inside.span_subset

/-- Without a wrap of the access, the word check only lets contained intervals through. -/
theorem inside_of_wordCheck {b s a n : BitVec w} (hw : ¬ Wraps a n) (h : wordCheck b s a n = true) :
    Inside b s a n := by
  obtain ⟨hb, he⟩ : b ≤ a ∧ a + n ≤ b + s := by simpa [wordCheck] using h
  have hbn : b.toNat ≤ a.toNat := hb
  have hen : (a + n).toNat ≤ (b + s).toNat := he
  rw [toNat_add_of_not_wraps hw] at hen
  by_cases hs : Wraps b s
  · rw [toNat_add_of_wraps hs] at hen
    have := s.isLt
    unfold Wraps at hs
    omega
  · rw [toNat_add_of_not_wraps hs] at hen
    exact ⟨hbn, hen⟩

/-- For an access that wraps, the word check accepts the contained intervals and
the ones that wrap into the window, and nothing else. -/
theorem wordCheck_iff_of_wraps {b s a n : BitVec w} (hw : Wraps a n) :
    wordCheck b s a n = true ↔ Inside b s a n ∨ WrapsInto b s a n := by
  have ha := a.isLt
  have hn := n.isLt
  have hg : wordCheck b s a n = true ↔ b.toNat ≤ a.toNat ∧ (a + n).toNat ≤ (b + s).toNat := by
    simp [wordCheck, BitVec.le_def]
  have hwn : 2 ^ w ≤ a.toNat + n.toNat := hw
  rw [hg, toNat_add_of_wraps hw]
  by_cases hs : Wraps b s
  · have hsn : 2 ^ w ≤ b.toNat + s.toNat := hs
    rw [toNat_add_of_wraps hs]
    constructor
    · rintro ⟨h1, h2⟩
      exact .inl ⟨h1, by omega⟩
    · rintro (⟨h1, h2⟩ | ⟨_, _, h3, _⟩)
      · exact ⟨h1, by omega⟩
      · exact absurd hs h3
  · have hsn : b.toNat + s.toNat < 2 ^ w := Nat.lt_of_not_le hs
    rw [toNat_add_of_not_wraps hs]
    constructor
    · rintro ⟨h1, h2⟩
      exact .inr ⟨h1, hw, hs, by omega⟩
    · rintro (⟨h1, h2⟩ | ⟨h1, _, _, h4⟩)
      · omega
      · exact ⟨h1, by omega⟩

theorem WrapsInto.wordCheck {b s a n : BitVec w} (h : WrapsInto b s a n) :
    wordCheck b s a n = true :=
  (wordCheck_iff_of_wraps h.2.1).2 (.inr h)

/-- An access that wraps into a window is not contained in it. -/
theorem WrapsInto.not_span_subset {b s a n : BitVec w} (h : WrapsInto b s a n) :
    ¬ span a n ⊆ span b s := by
  obtain ⟨-, hw, hs, -⟩ := h
  have ha := a.isLt
  unfold Wraps at hw hs
  rw [span_subset_iff (by omega)]
  rintro ⟨-, h2⟩
  omega

/-- What the check accepts is contained, except for the accesses that wrap into the window. -/
theorem span_subset_or_wrapsInto {b s a n : BitVec w} (h : wordCheck b s a n = true) :
    span a n ⊆ span b s ∨ WrapsInto b s a n := by
  by_cases hw : Wraps a n
  · exact ((wordCheck_iff_of_wraps hw).1 h).imp Inside.span_subset id
  · exact .inl (inside_of_wordCheck hw h).span_subset

end Aarchvm.Lib.WordInterval
