import Mathlib.Logic.Relator
import Mathlib.Logic.Function.Basic
/-!
# Two systems side by side

Names that two systems have given on their own, paired one to one, and families that are
related point by point and updated on both sides or on one.
-/

namespace Pairing

variable {α β ι σ τ : Type*}

/-- The pairs of `M` and one more. -/
def join (M : α → β → Prop) (a : α) (b : β) : α → β → Prop := fun x y => M x y ∨ (x = a ∧ y = b)

theorem join_self (M : α → β → Prop) (a : α) (b : β) : join M a b a b := .inr ⟨rfl, rfl⟩

theorem biUnique_join {M : α → β → Prop} (h : Relator.BiUnique M) {a : α} {b : β} (ha : ∀ y, ¬ M a y) (hb : ∀ x, ¬ M x b) :
    Relator.BiUnique (join M a b) := by
  obtain ⟨hleft, hright⟩ := h
  constructor
  · rintro x y z (hx | ⟨rfl, rfl⟩) (hy | ⟨rfl, hy⟩)
    · exact hleft hx hy
    · exact absurd (hy ▸ hx) (hb x)
    · exact absurd hy (hb y)
    · rfl
  · rintro x y z (hx | ⟨rfl, rfl⟩) (hy | ⟨hy, rfl⟩)
    · exact hright hx hy
    · exact absurd (hy ▸ hx) (ha y)
    · exact absurd hy (ha z)
    · rfl

section Families

variable [DecidableEq ι] {R : σ → τ → Prop} {f : ι → σ} {g : ι → τ} {i : ι} {x : σ} {y : τ}

theorem update_both (h : ∀ j, R (f j) (g j)) (hxy : R x y) (j : ι) :
    R (Function.update f i x j) (Function.update g i y j) := by
  by_cases hj : j = i
  · subst hj
    simpa using hxy
  · simpa [hj] using h j

theorem update_left (h : ∀ j, R (f j) (g j)) (hx : R x (g i)) (j : ι) : R (Function.update f i x j) (g j) := by
  by_cases hj : j = i
  · subst hj
    simpa using hx
  · simpa [hj] using h j

end Families

end Pairing
