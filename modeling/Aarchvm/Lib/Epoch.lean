import Mathlib.Logic.Basic

/-!
# Facts guarded by an epoch

A counter that rises whenever a view of the state changes lets a reader note a fact
about the view together with the counter, and rely on it while the counter stands.
-/
namespace Aarchvm.Lib.Epoch

universe u v w

variable {σ : Type u} {β : Type v} (epoch : σ → Nat) (view : σ → β)

/-- The view changes only where the epoch rises. -/
structure Advances (s s' : σ) : Prop where
  mono : epoch s ≤ epoch s'
  same : epoch s' = epoch s → view s' = view s

/-- `fact`, noted at epoch `e`, holds of the view while the epoch is `e`. -/
def Noted (e : Nat) (fact : β → Prop) (s : σ) : Prop :=
  e ≤ epoch s ∧ (e = epoch s → fact (view s))

variable {epoch view} {s s' s'' : σ}

theorem Advances.refl (s : σ) : Advances epoch view s s := ⟨Nat.le_refl _, fun _ => rfl⟩

theorem Advances.trans (h : Advances epoch view s s') (h' : Advances epoch view s' s'') :
    Advances epoch view s s'' := by
  refine ⟨Nat.le_trans h.mono h'.mono, fun he => ?_⟩
  have hmid : epoch s' = epoch s := Nat.le_antisymm (he ▸ h'.mono) h.mono
  rw [h'.same (he.trans hmid.symm), h.same hmid]

theorem Advances.of_lt (h : epoch s < epoch s') : Advances epoch view s s' :=
  ⟨Nat.le_of_lt h, fun he => absurd he (Nat.ne_of_gt h)⟩

theorem Advances.of_eq (he : epoch s' = epoch s) (hv : view s' = view s) :
    Advances epoch view s s' :=
  ⟨Nat.le_of_eq he.symm, fun _ => hv⟩

theorem Noted.advance {e : Nat} {fact : β → Prop} (h : Noted epoch view e fact s)
    (ha : Advances epoch view s s') : Noted epoch view e fact s' := by
  refine ⟨Nat.le_trans h.1 ha.mono, fun he => ?_⟩
  have hnow : e = epoch s := Nat.le_antisymm h.1 (he ▸ ha.mono)
  rw [ha.same (he.symm.trans hnow)]
  exact h.2 hnow

theorem noted_now {fact : β → Prop} (h : fact (view s)) : Noted epoch view (epoch s) fact s :=
  ⟨Nat.le_refl _, fun _ => h⟩

end Aarchvm.Lib.Epoch
