import Mathlib.Data.List.Basic
import Mathlib.Logic.Function.Basic

/-!
# Rings with free-running counters

A ring of `num` slots whose counter is a word that wraps on its own: entry `idx` is in
slot `idx % num`. `num` need not divide the range of the counter, so two entries in a
row may share a slot where the counter wraps. Nothing here asks that they do not.
-/
namespace Aarchvm.Lib.Ring

universe u

variable {α : Type u} {w : Nat}

def slot (num : Nat) (idx : BitVec w) : Nat := idx.toNat % num

theorem slot_lt {num : Nat} (h : 0 < num) (idx : BitVec w) : slot num idx < num :=
  Nat.mod_lt _ h

/-- The entries `idx`, `idx + 1`, … of a ring, `n` of them. -/
def entries (num : Nat) (ring : Nat → α) : BitVec w → Nat → List α
  | _, 0 => []
  | idx, n + 1 => ring (slot num idx) :: entries num ring (idx + 1) n

/-- The entries depend on the slots of the ring alone. -/
theorem entries_congr {num : Nat} (hnum : 0 < num) {ring ring' : Nat → α}
    (h : ∀ s < num, ring' s = ring s) (idx : BitVec w) (n : Nat) :
    entries num ring' idx n = entries num ring idx n := by
  induction n generalizing idx with
  | zero => rfl
  | succ n ih => rw [entries, entries, ih, h _ (slot_lt hnum idx)]

/-- Entries put one after the other from `idx` on. -/
def fill (num : Nat) : (Nat → α) → BitVec w → List α → Nat → α
  | ring, _, [] => ring
  | ring, idx, x :: xs => fill num (Function.update ring (slot num idx) x) (idx + 1) xs

/-- What is put depends on the slots of the ring alone. -/
theorem fill_congr {num : Nat} {ring ring' : Nat → α} (h : ∀ s < num, ring' s = ring s)
    (idx : BitVec w) (xs : List α) :
    ∀ s < num, fill num ring' idx xs s = fill num ring idx xs s := by
  induction xs generalizing ring ring' idx with
  | nil => exact h
  | cons x xs ih =>
    apply ih
    intro s hs
    by_cases heq : s = slot num idx
    · rw [heq, Function.update_self, Function.update_self]
    · rw [Function.update_of_ne heq, Function.update_of_ne heq, h s hs]

/-- A slot that no entry goes to keeps what it has. -/
theorem fill_of_ne {num : Nat} {ring : Nat → α} {idx : BitVec w} {xs : List α} {s : Nat}
    (h : ∀ k < xs.length, slot num (idx + BitVec.ofNat w k) ≠ s) :
    fill num ring idx xs s = ring s := by
  induction xs generalizing ring idx with
  | nil => rfl
  | cons x xs ih =>
    have hfirst := h 0 (Nat.zero_lt_succ _)
    rw [show idx + BitVec.ofNat w 0 = idx from BitVec.add_zero idx] at hfirst
    rw [fill, ih, Function.update_of_ne (Ne.symm hfirst)]
    intro k hk
    have hnext := h (k + 1) (Nat.succ_lt_succ hk)
    rwa [Nat.add_comm k 1, BitVec.ofNat_add, ← BitVec.add_assoc] at hnext

/-- An entry stays in its slot until a later one goes there. -/
theorem fill_at {num : Nat} {ring : Nat → α} {idx : BitVec w} {xs : List α} {k : Nat}
    (hk : k < xs.length)
    (hlast : ∀ j, k < j → j < xs.length →
      slot num (idx + BitVec.ofNat w j) ≠ slot num (idx + BitVec.ofNat w k)) :
    fill num ring idx xs (slot num (idx + BitVec.ofNat w k)) = xs[k] := by
  induction xs generalizing ring idx k with
  | nil => exact absurd hk (Nat.not_lt_zero _)
  | cons x xs ih =>
    have hshift : ∀ j, idx + 1 + BitVec.ofNat w j = idx + BitVec.ofNat w (j + 1) := by
      intro j
      rw [Nat.add_comm j 1, BitVec.ofNat_add, BitVec.add_assoc]
      rfl
    cases k with
    | zero =>
      have hself : idx + BitVec.ofNat w 0 = idx := BitVec.add_zero idx
      rw [hself] at hlast ⊢
      rw [fill, fill_of_ne, Function.update_self]
      · rfl
      · intro j hj
        rw [hshift]
        exact hlast _ (Nat.zero_lt_succ _) (Nat.succ_lt_succ hj)
    | succ k =>
      rw [fill, ← hshift, ih (Nat.lt_of_succ_lt_succ hk)]
      · rfl
      · intro j hkj hj
        rw [hshift, hshift]
        exact hlast _ (Nat.succ_lt_succ hkj) (Nat.succ_lt_succ hj)

/-- How far a counter is from `stop` goes down by one with each step it takes. -/
theorem toNat_sub_succ {idx stop : BitVec w} (h : idx ≠ stop) :
    (stop - idx).toNat = (stop - (idx + 1)).toNat + 1 := by
  have hpos : 0 < (stop - idx).toNat := by
    rw [Nat.pos_iff_ne_zero]
    intro hz
    have hzero : stop - idx = 0 := BitVec.eq_of_toNat_eq hz
    apply h
    calc idx = 0 + idx := (BitVec.zero_add idx).symm
      _ = stop - idx + idx := by rw [hzero]
      _ = stop := BitVec.sub_add_cancel stop idx
  have hwide : 1 < 2 ^ w := Nat.lt_of_le_of_lt hpos (stop - idx).isLt
  have hone : (1 : BitVec w).toNat = 1 := Nat.mod_eq_of_lt hwide
  have hle : (1 : BitVec w) ≤ stop - idx := by
    rw [BitVec.le_def, hone]
    exact hpos
  rw [← BitVec.sub_sub, BitVec.toNat_sub_of_le hle, hone]
  omega

end Aarchvm.Lib.Ring
