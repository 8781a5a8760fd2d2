import Mathlib.Data.BitVec

/-!
# Mask and tag patterns

A decoder tests a word against masks and tags in order. Two patterns that fix one bit
differently match no word both, and a pattern looks only at the bits of its mask.
-/
namespace Aarchvm.Lib

/-- `(x >> lo) & ((1 << len) - 1)`. -/
def bitField {w : Nat} (x : BitVec w) (lo len : Nat) : Nat := (x.extractLsb' lo len).toNat

theorem bitField_lt {w : Nat} (x : BitVec w) (lo len : Nat) : bitField x lo len < 2 ^ len :=
  BitVec.isLt _

theorem bitField_eq {w : Nat} (x : BitVec w) (lo len : Nat) :
    bitField x lo len = x.toNat >>> lo % 2 ^ len := by
  rw [bitField, BitVec.extractLsb'_toNat]

theorem bitField_succ {w : Nat} (x : BitVec w) (lo len : Nat) :
    bitField x lo (len + 1) = bitField x lo len + 2 ^ len * (x.getLsbD (lo + len)).toNat := by
  have hbit : (x.getLsbD (lo + len)).toNat = x.toNat >>> lo / 2 ^ len % 2 := by
    rw [← Nat.toNat_testBit, Nat.testBit_shiftRight]
    rfl
  rw [bitField_eq, bitField_eq, Nat.mod_pow_succ, hbit]

theorem bitField_one {w : Nat} (x : BitVec w) (lo : Nat) :
    bitField x lo 1 = (x.getLsbD lo).toNat := by
  rw [bitField_succ, bitField_eq, Nat.pow_zero, Nat.mod_one, Nat.zero_add, Nat.one_mul]
  rfl

theorem bitField_two {w : Nat} (x : BitVec w) (lo : Nat) :
    bitField x lo 2 = (x.getLsbD lo).toNat + 2 * (x.getLsbD (lo + 1)).toNat := by
  rw [bitField_succ, bitField_one, Nat.pow_one]

theorem testBit_bitField {w : Nat} (x : BitVec w) (lo : Nat) {k len : Nat} (hk : k < len) :
    (bitField x lo len).testBit k = x.getLsbD (lo + k) := by
  rw [bitField_eq, Nat.testBit_mod_two_pow, decide_eq_true hk, Bool.true_and,
    Nat.testBit_shiftRight]
  rfl

/-- The low bits of a field. -/
theorem bitField_mod {w : Nat} (x : BitVec w) (lo : Nat) {m len : Nat} (hm : m ≤ len) :
    bitField x lo len % 2 ^ m = bitField x lo m := by
  rw [bitField_eq, bitField_eq, Nat.mod_mod_of_dvd _ (Nat.pow_dvd_pow 2 hm)]

/-- `(x & mask) == tag`. -/
structure Pattern (w : Nat) where
  mask : BitVec w
  tag : BitVec w
  deriving DecidableEq

namespace Pattern

variable {w : Nat}

def Matches (p : Pattern w) (x : BitVec w) : Bool := x &&& p.mask == p.tag

/-- Some bit is fixed by both, and differently. -/
def Conflicts (p q : Pattern w) : Bool := p.mask &&& q.mask &&& (p.tag ^^^ q.tag) != 0

theorem matches_iff {p : Pattern w} {x : BitVec w} : p.Matches x = true ↔ x &&& p.mask = p.tag :=
  beq_iff_eq

theorem not_matches_of_conflicts {p q : Pattern w} {x : BitVec w} (h : p.Conflicts q = true)
    (hx : q.Matches x = true) : p.Matches x = false := by
  by_contra hp
  rw [Bool.not_eq_false] at hp
  rw [matches_iff] at hp hx
  apply bne_iff_ne.1 h
  rw [← hp, ← hx]
  apply BitVec.eq_of_getLsbD_eq
  intro i _
  have hzero : (0 : BitVec w).getLsbD i = false := BitVec.getLsbD_zero
  simp only [BitVec.getLsbD_and, BitVec.getLsbD_xor, hzero]
  cases x.getLsbD i <;> cases p.mask.getLsbD i <;> cases q.mask.getLsbD i <;> rfl

/-- A word of both `p` and `q` is one of `r`. -/
def Within (p q r : Pattern w) : Bool :=
  (p.mask ||| q.mask) &&& r.mask == r.mask && (p.tag ||| q.tag) &&& r.mask == r.tag

theorem matches_of_within {p q r : Pattern w} {x : BitVec w} (h : p.Within q r = true)
    (hp : p.Matches x = true) (hq : q.Matches x = true) : r.Matches x = true := by
  rw [Within, Bool.and_eq_true, beq_iff_eq, beq_iff_eq] at h
  rw [matches_iff] at hp hq ⊢
  calc x &&& r.mask = x &&& ((p.mask ||| q.mask) &&& r.mask) := by rw [h.1]
    _ = (x &&& p.mask ||| x &&& q.mask) &&& r.mask := by
      rw [← BitVec.and_assoc, BitVec.and_or_distrib_left]
    _ = r.tag := by rw [hp, hq, h.2]

/-- A word of a class of encodings. -/
structure Word (p : Pattern w) where
  insn : BitVec w
  inClass : p.Matches insn = true

/-- Only the bits of the mask matter. -/
theorem matches_and {p : Pattern w} {m : BitVec w} (h : p.mask &&& m = p.mask) (x : BitVec w) :
    p.Matches (x &&& m) = p.Matches x := by
  rw [Matches, Matches, BitVec.and_assoc, BitVec.and_comm m, h]

variable {α : Type*}

/-- The cases of a decoder, tried in order. -/
def decode (cases : List (Pattern w × α)) (x : BitVec w) : Option α :=
  (cases.find? fun c => c.1.Matches x).map (·.2)

/-- A decoded word matches the test that it was decoded by. -/
theorem mem_of_decode {cases : List (Pattern w × α)} {x : BitVec w} {a : α}
    (h : decode cases x = some a) : ∃ p, (p, a) ∈ cases ∧ p.Matches x = true := by
  obtain ⟨c, hfind, rfl⟩ := Option.map_eq_some_iff.1 h
  have hmatch := List.find?_some hfind
  exact ⟨c.1, List.mem_of_find?_eq_some hfind, hmatch⟩

/-- The bits that a test looks at are those of its tag. -/
theorem and_eq_of_matches {p : Pattern w} {x m : BitVec w} (h : p.Matches x = true)
    (hm : p.mask &&& m = m) : x &&& m = p.tag &&& m := by
  rw [← matches_iff.1 h, BitVec.and_assoc, hm]

theorem decode_append (cases cases' : List (Pattern w × α)) (x : BitVec w) :
    decode (cases ++ cases') x = (decode cases x).or (decode cases' x) := by
  rw [decode, decode, decode, List.find?_append]
  cases List.find? (fun c => c.1.Matches x) cases <;> rfl

/-- Cases that all conflict with a pattern the word matches are passed over. -/
theorem decode_eq_none {cases : List (Pattern w × α)} {q : Pattern w} {x : BitVec w}
    (h : ∀ c ∈ cases, c.1.Conflicts q = true) (hx : q.Matches x = true) :
    decode cases x = none := by
  rw [decode, Option.map_eq_none_iff, List.find?_eq_none]
  intro c hc
  rw [not_matches_of_conflicts (h c hc) hx]
  exact Bool.false_ne_true

/-- The mask leaves the field `f` alone, or takes it whole and asks for ones. -/
def AllOrNone (p : Pattern w) (f : BitVec w) : Prop :=
  p.mask &&& f = 0 ∨ p.mask &&& f = f ∧ p.tag &&& f = f

instance decidableAllOrNone (p : Pattern w) (f : BitVec w) : Decidable (p.AllOrNone f) :=
  inferInstanceAs (Decidable (_ ∨ _))

/-- Then a field that is not all ones may as well be zero. -/
theorem matches_clear {p : Pattern w} {f : BitVec w} (h : p.AllOrNone f) {x : BitVec w}
    (hx : x &&& f ≠ f) : p.Matches (x &&& ~~~f) = p.Matches x := by
  rcases h with hnone | ⟨hall, htag⟩
  · have hmask : ~~~f &&& p.mask = p.mask := by
      apply BitVec.eq_of_getLsbD_eq
      intro i hi
      have hbit := congrArg (BitVec.getLsbD · i) hnone
      have hzero : (0 : BitVec w).getLsbD i = false := BitVec.getLsbD_zero
      simp only [BitVec.getLsbD_and, hzero] at hbit
      simp only [BitVec.getLsbD_and, BitVec.getLsbD_not, hi, decide_true, Bool.true_and]
      cases hm : p.mask.getLsbD i <;> cases hf : f.getLsbD i <;> simp_all
    rw [Matches, Matches, BitVec.and_assoc, hmask]
  · have hno : ∀ y, y &&& f ≠ f → p.Matches y = false := by
      intro y hy
      by_contra hp
      rw [Bool.not_eq_false, matches_iff] at hp
      apply hy
      calc y &&& f = y &&& (p.mask &&& f) := by rw [hall]
        _ = p.tag &&& f := by rw [← BitVec.and_assoc, hp]
        _ = f := htag
    rw [hno x hx]
    apply hno
    intro hy
    have hzero : x &&& ~~~f &&& f = 0#w := by
      rw [BitVec.and_assoc, BitVec.and_comm (~~~f), BitVec.and_not_self]
      exact BitVec.and_zero
    rw [hzero] at hy
    rw [← hy] at hx
    exact hx BitVec.and_zero

/-- Only the cases that agree with what is known of the word matter. -/
theorem decode_filter {cases : List (Pattern w × α)} {q : Pattern w} {x : BitVec w}
    (hx : q.Matches x = true) :
    decode cases x = decode (cases.filter fun c => !c.1.Conflicts q) x := by
  induction cases with
  | nil => rfl
  | cons c cases ih =>
    rw [List.filter_cons]
    cases hc : c.1.Conflicts q with
    | true =>
      rw [decode, List.find?_cons_of_neg, ← decode, ih]
      · rfl
      · rw [not_matches_of_conflicts hc hx]
        exact Bool.false_ne_true
    | false =>
      rw [decode, decode] at ih ⊢
      rw [if_pos (show (!false) = true from rfl), List.find?_cons, List.find?_cons]
      cases c.1.Matches x with
      | true => rfl
      | false => exact ih

/-- `q` fixes all that `p` fixes, and alike. -/
def Implies (q p : Pattern w) : Bool := p.mask &&& q.mask == p.mask && q.tag &&& p.mask == p.tag

theorem matches_of_implies {p q : Pattern w} {x : BitVec w} (h : q.Implies p = true)
    (hx : q.Matches x = true) : p.Matches x = true := by
  rw [Implies, Bool.and_eq_true, beq_iff_eq, beq_iff_eq] at h
  rw [matches_iff] at hx ⊢
  calc x &&& p.mask = x &&& (p.mask &&& q.mask) := by rw [h.1]
    _ = x &&& q.mask &&& p.mask := by rw [BitVec.and_comm p.mask, BitVec.and_assoc]
    _ = p.tag := by rw [hx, h.2]

/-- Bit `i` fixed as well. -/
def withBit (q : Pattern w) (i : Nat) (b : Bool) : Pattern w where
  mask := q.mask ||| BitVec.twoPow w i
  tag := q.tag ||| if b then BitVec.twoPow w i else 0

theorem matches_withBit {q : Pattern w} {x : BitVec w} (hx : q.Matches x = true) (i : Nat) :
    (q.withBit i (x.getLsbD i)).Matches x = true := by
  rw [matches_iff] at hx ⊢
  apply BitVec.eq_of_getLsbD_eq
  intro j hj
  have hzero : (0 : BitVec w).getLsbD j = false := BitVec.getLsbD_zero
  have hbit := congrArg (BitVec.getLsbD · j) hx
  simp only [BitVec.getLsbD_and] at hbit
  simp only [withBit, BitVec.getLsbD_and, BitVec.getLsbD_or, BitVec.getLsbD_twoPow, ← hbit]
  by_cases hij : i = j
  · subst hij
    cases x.getLsbD i <;> simp [hj]
  · cases x.getLsbD i <;> simp [hij]

/-- The first case that agrees with `q`, and whether `q` makes a word match it. -/
def first (cases : List (Pattern w × α)) (q : Pattern w) : Option (α × Bool) :=
  (cases.filter fun c => !c.1.Conflicts q).head?.map fun c => (c.2, q.Implies c.1)

theorem decode_of_first {cases : List (Pattern w × α)} {q : Pattern w} {a : α} {x : BitVec w}
    (hx : q.Matches x = true) (hfirst : first cases q = some (a, true)) :
    decode cases x = some a := by
  rw [first] at hfirst
  rw [decode_filter hx]
  generalize (cases.filter fun c => !c.1.Conflicts q) = rest at hfirst
  cases rest with
  | nil => cases hfirst
  | cons c rest =>
    rw [List.head?_cons, Option.map_some, Option.some.injEq, Prod.mk.injEq] at hfirst
    have hmatch := matches_of_implies hfirst.2 hx
    rw [decode, List.find?_cons, hmatch, Option.map_some, hfirst.1]

theorem decode_of_first_none {cases : List (Pattern w × α)} {q : Pattern w} {x : BitVec w}
    (hx : q.Matches x = true) (hfirst : first cases q = none) : decode cases x = none := by
  rw [first, Option.map_eq_none_iff, List.head?_eq_none_iff] at hfirst
  rw [decode_filter hx, hfirst]
  rfl

/-- A class of words needs only the cases that its pattern leaves. -/
theorem decode_of_first_within {cases : List (Pattern w × α)} {p q : Pattern w} {a : α}
    {x : BitVec w} (hp : p.Matches x = true) (hx : q.Matches x = true)
    (hfirst : first (cases.filter fun c => !c.1.Conflicts p) q = some (a, true)) :
    decode cases x = some a := (decode_filter hp).trans (decode_of_first hx hfirst)

/-- The field of `len` bits from `lo` fixed as well. -/
def withField (q : Pattern w) (lo len v : Nat) : Pattern w where
  mask := q.mask ||| BitVec.ofNat w ((2 ^ len - 1) <<< lo)
  tag := q.tag ||| BitVec.ofNat w (v <<< lo)

theorem matches_withField {q : Pattern w} {x : BitVec w} (hx : q.Matches x = true) (lo len : Nat) :
    (q.withField lo len (bitField x lo len)).Matches x = true := by
  rw [matches_iff] at hx ⊢
  apply BitVec.eq_of_getLsbD_eq
  intro j hj
  have hbit := congrArg (·.getLsbD j) hx
  simp only [BitVec.getLsbD_and] at hbit
  simp only [withField, BitVec.getLsbD_and, BitVec.getLsbD_or, BitVec.getLsbD_ofNat, hj,
    decide_true, Bool.true_and, Nat.testBit_shiftLeft, Nat.testBit_two_pow_sub_one, ← hbit]
  by_cases hlo : lo ≤ j
  · by_cases hk : j - lo < len
    · rw [testBit_bitField x lo hk, Nat.add_sub_cancel' hlo]
      simp [hlo, hk]
      cases x.getLsbD j <;> simp
    · have hhigh : (bitField x lo len).testBit (j - lo) = false :=
        Nat.testBit_lt_two_pow (Nat.lt_of_lt_of_le (bitField_lt x lo len)
          (Nat.pow_le_pow_right (by decide) (Nat.le_of_not_lt hk)))
      simp [hhigh, hk]
  · simp [hlo]

/-- What a decoder can give for the words of `q`. -/
def outcomes (q : Pattern w) : List (Pattern w × α) → List (Option α)
  | [] => [none]
  | c :: cases =>
    if c.1.Conflicts q then outcomes q cases
    else if q.Implies c.1 then [some c.2]
    else some c.2 :: outcomes q cases

theorem decode_mem_outcomes {cases : List (Pattern w × α)} {q : Pattern w} {x : BitVec w}
    (hx : q.Matches x = true) : decode cases x ∈ outcomes q cases := by
  induction cases with
  | nil => exact List.mem_singleton_self none
  | cons c cases ih =>
    rw [decode] at ih ⊢
    rw [outcomes, List.find?_cons]
    split_ifs with hconflict himplies
    · rw [not_matches_of_conflicts hconflict hx]
      exact ih
    · rw [matches_of_implies himplies hx]
      exact List.mem_singleton_self _
    · cases c.1.Matches x with
      | true => exact List.mem_cons_self
      | false => exact List.mem_cons_of_mem _ ih

theorem decode_congr {cases : List (Pattern w × α)} {x y : BitVec w}
    (h : ∀ c ∈ cases, c.1.Matches x = c.1.Matches y) : decode cases x = decode cases y := by
  induction cases with
  | nil => rfl
  | cons c cases ih =>
    have htail := ih fun c' hc' => h c' (List.mem_cons_of_mem c hc')
    rw [decode, decode] at htail ⊢
    rw [List.find?_cons, List.find?_cons, h c List.mem_cons_self]
    cases c.1.Matches y with
    | true => rfl
    | false => exact htail

end Pattern
end Aarchvm.Lib
