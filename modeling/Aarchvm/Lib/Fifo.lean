import Mathlib.Data.List.Basic

/-!
# First in, first out

A queue whose steps each take a batch in at the back and hand a batch out at the front.
Nothing else is asked of a step, so any number of items may go straight through it.
-/
namespace Aarchvm.Lib.Fifo

universe u

variable {α : Type u} {q q₁ q' inn inn' out out' : List α}

/-- `inn` goes in at the back and `out` comes out at the front. -/
def Step (q inn out q' : List α) : Prop := q ++ inn = out ++ q'

theorem Step.refl (q : List α) : Step q [] [] q := List.append_nil q

theorem Step.enqueue (q inn : List α) : Step q inn [] (q ++ inn) := rfl

theorem Step.dequeue (out q : List α) : Step (out ++ q) [] out q := List.append_nil _

theorem Step.trans (h : Step q inn out q₁) (h' : Step q₁ inn' out' q') :
    Step q (inn ++ inn') (out ++ out') q' := by
  calc q ++ (inn ++ inn') = q ++ inn ++ inn' := (List.append_assoc ..).symm
    _ = out ++ (q₁ ++ inn') := by rw [h, List.append_assoc]
    _ = out ++ out' ++ q' := by rw [h', List.append_assoc]

/-- What came out of a queue that was empty is a prefix of what went in. -/
theorem Step.isPrefix (h : Step [] inn out q') : out <+: inn := ⟨q', h.symm⟩

end Aarchvm.Lib.Fifo
