import ThatLimit.Framework.Transition
/-!
# Refinement by whole runs

A `Refinement` relates the states of two systems in such a way that every step of the first
is matched by a run of the second, of any length. What the first one reaches is then related to
something that the second one reaches.
-/

namespace Transition

variable {σ τ α β : Type*}

/-- `s'` is reached from `s` by steps that all satisfy `guard`. -/
inductive RunWhen (S : System σ α) (guard : σ → α → Prop) (s : σ) : σ → Prop
  | refl : RunWhen S guard s s
  | tail {s₁ s₂ : σ} {a : α} (hr : RunWhen S guard s s₁) (hg : guard s₁ a) (hs : S.next s₁ a = some s₂) :
      RunWhen S guard s s₂

/-- The runs without a restriction. -/
abbrev Run (S : System σ α) : σ → σ → Prop := RunWhen S fun _ _ => True

namespace RunWhen

variable {S : System σ α} {guard : σ → α → Prop} {s s₁ s₂ : σ} {a : α}

theorem single (hg : guard s a) (hs : S.next s a = some s₁) : RunWhen S guard s s₁ := .tail .refl hg hs

theorem trans (h : RunWhen S guard s s₁) (h' : RunWhen S guard s₁ s₂) : RunWhen S guard s s₂ := by
  induction h' with
  | refl => exact h
  | tail _ hg hs ih => exact .tail ih hg hs

theorem head (hg : guard s a) (hs : S.next s a = some s₁) (h : RunWhen S guard s₁ s₂) : RunWhen S guard s s₂ :=
  (single hg hs).trans h

theorem mono {guard' : σ → α → Prop} (himp : ∀ s a, guard s a → guard' s a) (h : RunWhen S guard s s₁) :
    RunWhen S guard' s s₁ := by
  induction h with
  | refl => exact .refl
  | tail _ hg hs ih => exact .tail ih (himp _ _ hg) hs

theorem reach (h : RunWhen S guard s s₁) (hs : ReachWhen S guard s) : ReachWhen S guard s₁ := by
  induction h with
  | refl => exact hs
  | tail _ hg hnext ih => exact .step ih hg hnext

/-- Replaying a list of actions that satisfy the guard in every state. -/
theorem of_exec {as : List α} (hall : ∀ a ∈ as, ∀ s, guard s a) (he : S.exec s as = some s₁) : RunWhen S guard s s₁ := by
  induction as generalizing s with
  | nil =>
      obtain rfl := Option.some.inj he
      exact .refl
  | cons a as ih =>
      rw [System.exec_cons, Option.bind_eq_some_iff] at he
      obtain ⟨s₂, hnext, he⟩ := he
      exact (ih (fun b hb => hall b (List.mem_cons_of_mem a hb)) he).head (hall a List.mem_cons_self s) hnext

end RunWhen

theorem Run.step {S : System σ α} {s s₁ s₂ : σ} (a : α) (hs : S.next s a = some s₁) (h : Run S s₁ s₂) : Run S s s₂ :=
  h.head trivial hs

/-- What `S` does, `T` can do as well, in its own steps, as far as `R` shows. -/
structure Refinement (S : System σ α) (gS : σ → α → Prop) (T : System τ β) (gT : τ → β → Prop) (R : σ → τ → Prop) :
    Prop where
  init : ∀ s, S.init s → ∃ t, T.init t ∧ R s t
  step : ∀ s a s' t, ReachWhen S gS s → R s t → gS s a → S.next s a = some s' → ∃ t', RunWhen T gT t t' ∧ R s' t'

theorem Refinement.reach {S : System σ α} {gS : σ → α → Prop} {T : System τ β} {gT : τ → β → Prop} {R : σ → τ → Prop}
    (ref : Refinement S gS T gT R) {s : σ} (h : ReachWhen S gS s) : ∃ t, ReachWhen T gT t ∧ R s t := by
  induction h with
  | init hi =>
      obtain ⟨t, ht, hR⟩ := ref.init _ hi
      exact ⟨t, .init ht, hR⟩
  | step hr hg hs ih =>
      obtain ⟨t, ht, hR⟩ := ih
      obtain ⟨t', hrun, hR'⟩ := ref.step _ _ _ t hr hR hg hs
      exact ⟨t', hrun.reach ht, hR'⟩

end Transition
