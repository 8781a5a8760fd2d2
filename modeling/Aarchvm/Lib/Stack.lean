import Mathlib.Data.List.Basic

/-!
# Bounded stacks

A stack that never holds more than `cap` items, most recent first. Pushing takes
the proof that there is room, so an overfull stack cannot be built.
-/
namespace Aarchvm.Lib

universe u

structure Stack (α : Type u) (cap : Nat) where
  items : List α
  fits : items.length ≤ cap

namespace Stack

variable {α : Type u} {cap : Nat}

@[ext] theorem ext {s t : Stack α cap} (h : s.items = t.items) : s = t := by
  cases s
  cases t
  cases h
  rfl

def empty : Stack α cap := ⟨[], Nat.zero_le cap⟩

def depth (s : Stack α cap) : Nat := s.items.length

def top? (s : Stack α cap) : Option α := s.items.head?

def push (s : Stack α cap) (a : α) (h : s.depth < cap) : Stack α cap := ⟨a :: s.items, h⟩

/-- Drop the most recent item, if there is one. -/
def pop (s : Stack α cap) : Stack α cap := ⟨s.items.tail, by
  rw [List.length_tail]
  have := s.fits
  omega⟩

/-- Change the most recent item in place. -/
def modifyTop (s : Stack α cap) (f : α → α) : Stack α cap := ⟨s.items.modifyHead f, by
  rw [List.length_modifyHead]
  exact s.fits⟩

@[simp] theorem items_pop (s : Stack α cap) : s.pop.items = s.items.tail := rfl

@[simp] theorem items_modifyTop (s : Stack α cap) (f : α → α) :
    (s.modifyTop f).items = s.items.modifyHead f := rfl

@[simp] theorem depth_pop (s : Stack α cap) : s.pop.depth = s.depth - 1 := List.length_tail

@[simp] theorem depth_modifyTop (s : Stack α cap) (f : α → α) :
    (s.modifyTop f).depth = s.depth := List.length_modifyHead

theorem items_eq_of_top {s : Stack α cap} {a : α} (h : s.top? = some a) :
    s.items = a :: s.pop.items := by
  obtain ⟨items, fits⟩ := s
  cases items with
  | nil => cases h
  | cons b items =>
    cases h
    rfl

theorem pop_of_top_none {s : Stack α cap} (h : s.top? = none) : s.pop = s := by
  have hi : s.items = [] := List.head?_eq_none_iff.1 h
  refine ext ?_
  rw [items_pop, hi]
  rfl

end Stack
end Aarchvm.Lib
