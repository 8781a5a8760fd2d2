import Mathlib.Data.List.Basic

/-!
# Counted loops

A `for` loop over `0 .. n - 1` whose body may fail, and the rule for its invariant.
-/
namespace Aarchvm.Lib

universe u

variable {σ : Type u}

/-- `for (i = 0; i < n; ++i) state = step(i, state);`. A step that fails ends it. -/
def countedLoop (n : ℕ) (init : σ) (step : ℕ → σ → Option σ) : Option σ :=
  (List.range n).foldlM (fun s i => step i s) init

theorem countedLoop_succ (n : ℕ) (init : σ) (step : ℕ → σ → Option σ) :
    countedLoop (n + 1) init step = (countedLoop n init step).bind (step n) := by
  rw [countedLoop, List.range_succ, List.foldlM_append]
  change (countedLoop n init step).bind _ = _
  refine congrArg _ (funext fun s => ?_)
  exact Option.bind_fun_some _

/-- An invariant that every step keeps holds at the end, and no step fails. -/
theorem countedLoop_inv {n : ℕ} {init : σ} {step : ℕ → σ → Option σ} (P : ℕ → σ → Prop)
    (hinit : P 0 init) (hstep : ∀ i s, i < n → P i s → ∃ s', step i s = some s' ∧ P (i + 1) s') :
    ∃ s, countedLoop n init step = some s ∧ P n s := by
  induction n with
  | zero => exact ⟨init, rfl, hinit⟩
  | succ n ih =>
    obtain ⟨s, hs, hP⟩ := ih fun i s hi => hstep i s (Nat.lt_succ_of_lt hi)
    obtain ⟨s', hs', hP'⟩ := hstep n s (Nat.lt_succ_self n) hP
    refine ⟨s', ?_, hP'⟩
    rw [countedLoop_succ, hs]
    exact hs'

end Aarchvm.Lib
