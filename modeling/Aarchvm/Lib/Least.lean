import Mathlib.Order.Basic
import Mathlib.Order.Defs.LinearOrder
import Mathlib.Order.Lattice

/-!
# Selecting a least candidate by a fold

A scan that keeps the best candidate seen so far ends with the least element of
the list it scanned, or with nothing when the list was empty.
-/
namespace Aarchvm.Lib.Least

universe u

variable {α : Type u} [LinearOrder α]

/-- Keep the smaller of the best candidate so far and the next one. -/
def keep (best : Option α) (x : α) : Option α :=
  match best with
  | none => some x
  | some b => if x < b then some x else some b

/-- `m` is in the list and below all of it. -/
def IsLeastOf (l : List α) (m : α) : Prop := m ∈ l ∧ ∀ x ∈ l, m ≤ x

theorem IsLeastOf.unique {l : List α} {m m' : α} (h : IsLeastOf l m) (h' : IsLeastOf l m') :
    m = m' :=
  le_antisymm (h.2 m' h'.1) (h'.2 m h.1)

theorem foldl_keep_some (l : List α) (b : α) :
    ∃ m, l.foldl keep (some b) = some m ∧ IsLeastOf (b :: l) m := by
  induction l generalizing b with
  | nil => exact ⟨b, rfl, by simp [IsLeastOf]⟩
  | cons x l ih =>
    -- The accumulator after `x` is the smaller of `b` and `x`.
    obtain ⟨c, hc, hcb, hcx, hmem⟩ :
        ∃ c, keep (some b) x = some c ∧ c ≤ b ∧ c ≤ x ∧ (c = b ∨ c = x) := by
      by_cases hx : x < b
      · exact ⟨x, by simp [keep, hx], hx.le, le_rfl, .inr rfl⟩
      · exact ⟨b, by simp [keep, hx], le_rfl, not_lt.1 hx, .inl rfl⟩
    obtain ⟨m, hm, hin, hle⟩ := ih c
    have hmc : m ≤ c := hle c List.mem_cons_self
    refine ⟨m, by rw [List.foldl_cons, hc, hm], ?_, ?_⟩
    · rcases List.mem_cons.1 hin with rfl | hl
      · rcases hmem with rfl | rfl <;> simp
      · simp [hl]
    · intro y hy
      rcases List.mem_cons.1 hy with rfl | hy
      · exact hmc.trans hcb
      rcases List.mem_cons.1 hy with rfl | hy
      · exact hmc.trans hcx
      · exact hle y (List.mem_cons_of_mem _ hy)

/-- The scan's result is the least element. -/
theorem foldl_keep_eq_some_iff {l : List α} {m : α} :
    l.foldl keep none = some m ↔ IsLeastOf l m := by
  cases l with
  | nil => simp [IsLeastOf]
  | cons x l =>
    obtain ⟨m', hm', hl⟩ := foldl_keep_some l x
    have hfold : (x :: l).foldl keep none = some m' := hm'
    rw [hfold]
    constructor
    · intro h
      cases h
      exact hl
    · intro h
      rw [hl.unique h]

theorem foldl_keep_eq_none_iff {l : List α} : l.foldl keep none = none ↔ l = [] := by
  cases l with
  | nil => simp
  | cons x l =>
    obtain ⟨m', hm', -⟩ := foldl_keep_some l x
    have hfold : (x :: l).foldl keep none = some m' := hm'
    simp [hfold]

end Aarchvm.Lib.Least
