import Mathlib.Order.Basic
import ThatLimit.Framework.Refinement
/-!
# Ranked steps

A rank that every counted step lowers, and that no other step raises, bounds how often a run
takes counted steps, in whatever order. Where short of the goal there is always a step that
lowers the rank, the goal can be reached.
-/

namespace Transition

variable {σ α : Type*} {S : System σ α}

/-- Allowed steps keep `I`, and lower the rank if they count. -/
structure Ranking (S : System σ α) (I : σ → Prop) (allowed counted : α → Bool) (rank : σ → Nat) : Prop where
  step : ∀ s a s', I s → allowed a = true → S.next s a = some s' → I s' ∧ rank s' + (counted a).toNat ≤ rank s

theorem Ranking.countP_le {I : σ → Prop} {allowed counted : α → Bool} {rank : σ → Nat}
    (ranking : Ranking S I allowed counted rank) {s s' : σ} (hs : I s) {as : List α} (hall : ∀ a ∈ as, allowed a = true)
    (he : S.exec s as = some s') : as.countP counted + rank s' ≤ rank s := by
  induction as generalizing s with
  | nil =>
      obtain rfl := Option.some.inj he
      simp
  | cons a as ih =>
      rw [System.exec_cons, Option.bind_eq_some_iff] at he
      obtain ⟨s₁, hnext, he⟩ := he
      obtain ⟨hs₁, hle⟩ := ranking.step s a s₁ hs (hall a List.mem_cons_self) hnext
      have hrest := ih hs₁ (fun b hb => hall b (List.mem_cons_of_mem a hb)) he
      rw [List.countP_cons]
      cases hc : counted a <;> simp only [hc, Bool.toNat_false, Bool.toNat_true] at hle <;> simp <;> omega

/-- The goal is reached by lowering the rank step by step. -/
theorem RunWhen.to_goal {J G : σ → Prop} {g : σ → α → Prop} (rank : σ → Nat)
    (hstep : ∀ s, J s → ¬ G s → ∃ a s', g s a ∧ S.next s a = some s' ∧ J s' ∧ rank s' < rank s) {s : σ} (hs : J s) :
    ∃ s', RunWhen S g s s' ∧ J s' ∧ G s' := by
  induction hn : rank s using Nat.strongRecOn generalizing s with
  | ind n ih =>
      by_cases hgoal : G s
      · exact ⟨s, .refl, hs, hgoal⟩
      · obtain ⟨a, s₁, hg, hnext, hs₁, hlt⟩ := hstep s hs hgoal
        obtain ⟨s', hrun, hs', hgoal'⟩ := ih (rank s₁) (hn ▸ hlt) hs₁ rfl
        exact ⟨s', hrun.head hg hnext, hs', hgoal'⟩

end Transition
