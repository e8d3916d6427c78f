import Mathlib.Tactic.TypeStar
/-!
# Guarded transition systems

A system is a set of initial states and a partial executable step function.
`ReachWhen guard` collects the states of the runs all of whose steps satisfy
`guard` in the state they are taken from; `Reach` leaves the steps unrestricted.
Safety is proved by `ReachWhen.invariant`, a concrete run is replayed by
`ReachWhen.execWhen`, and invariants of an abstract system are pulled back along
a `Simulation`.
-/

namespace Transition

variable {σ τ α β : Type*}

/-- Initial states and a step function; `none` marks an action that is not enabled. -/
structure System (σ α : Type*) where
  init : σ → Prop
  next : σ → α → Option σ

/-- The states reached by runs whose every step satisfies `guard`. -/
inductive ReachWhen (S : System σ α) (guard : σ → α → Prop) : σ → Prop
  | init {s : σ} (hi : S.init s) : ReachWhen S guard s
  | step {s s' : σ} {a : α} (hr : ReachWhen S guard s) (hg : guard s a)
      (hs : S.next s a = some s') : ReachWhen S guard s'

/-- The states reached by any run. -/
abbrev Reach (S : System σ α) : σ → Prop := ReachWhen S fun _ _ => True

/-- Performs a list of actions, stopping at the first one that is not enabled. -/
def System.exec (S : System σ α) : σ → List α → Option σ
  | s, [] => some s
  | s, a :: as => (S.next s a).bind fun s' => S.exec s' as

@[simp] theorem System.exec_nil (S : System σ α) (s : σ) : S.exec s [] = some s := rfl

@[simp] theorem System.exec_cons (S : System σ α) (s : σ) (a : α) (as : List α) :
    S.exec s (a :: as) = (S.next s a).bind fun s' => S.exec s' as := rfl

theorem System.exec_invariant {S : System σ α} {I : σ → Prop}
    (hstep : ∀ s a s', I s → S.next s a = some s' → I s')
    {as : List α} {s s' : σ} (hs : I s) (h : S.exec s as = some s') : I s' := by
  induction as generalizing s with
  | nil =>
      simp only [exec_nil, Option.some.injEq] at h
      exact h ▸ hs
  | cons a as ih =>
      rw [exec_cons, Option.bind_eq_some_iff] at h
      obtain ⟨t, ht, h⟩ := h
      exact ih (hstep s a t hs ht) h

/-- Performs a list of actions, stopping at the first one the guard forbids. -/
def System.execWhen (S : System σ α) (guard : σ → α → Bool) : σ → List α → Option σ
  | s, [] => some s
  | s, a :: as => if guard s a then (S.next s a).bind fun s' => S.execWhen guard s' as else none

theorem System.exec_of_execWhen {S : System σ α} {guard : σ → α → Bool} {as : List α} {s s' : σ}
    (h : S.execWhen guard s as = some s') : S.exec s as = some s' := by
  induction as generalizing s with
  | nil => exact h
  | cons a as ih =>
      rw [System.execWhen, Option.ite_none_right_eq_some, Option.bind_eq_some_iff] at h
      obtain ⟨-, t, ht, h⟩ := h
      rw [System.exec_cons, ht]
      exact ih h

namespace ReachWhen

variable {S : System σ α} {guard guard' : σ → α → Prop} {s s' : σ}

/-- The inductive-invariant rule. The reachability of the state before the step is
available, so that an invariant may be proved on top of another one. -/
theorem invariant {I : σ → Prop} (hinit : ∀ s, S.init s → I s)
    (hstep : ∀ s a s', ReachWhen S guard s → I s → guard s a → S.next s a = some s' → I s')
    (h : ReachWhen S guard s) : I s := by
  induction h with
  | init hi => exact hinit _ hi
  | step hr hg hs ih => exact hstep _ _ _ hr ih hg hs

theorem mono (himp : ∀ s a, guard s a → guard' s a) (h : ReachWhen S guard s) :
    ReachWhen S guard' s := by
  induction h with
  | init hi => exact .init hi
  | step _ hg hs ih => exact .step ih (himp _ _ hg) hs

theorem reach (h : ReachWhen S guard s) : Reach S s := h.mono fun _ _ _ => trivial

/-- Replaying a list of actions, with a guard evaluated on the way that implies the one in force. -/
theorem execWhen_of {guard' : σ → α → Bool} {s s' : σ} (himp : ∀ s a, guard' s a = true → guard s a)
    (h : ReachWhen S guard s) (as : List α) (hs : S.execWhen guard' s as = some s') : ReachWhen S guard s' := by
  induction as generalizing s with
  | nil =>
      simp only [System.execWhen, Option.some.injEq] at hs
      exact hs ▸ h
  | cons a as ih =>
      rw [System.execWhen, Option.ite_none_right_eq_some, Option.bind_eq_some_iff] at hs
      obtain ⟨hg, t, ht, hs⟩ := hs
      exact ih (.step h (himp s a hg) ht) hs

theorem execWhen {guard : σ → α → Bool} {s s' : σ} (h : ReachWhen S (guard · ·) s) (as : List α)
    (hs : S.execWhen guard s as = some s') : ReachWhen S (guard · ·) s' :=
  execWhen_of (fun _ _ hg => hg) h as hs

end ReachWhen

theorem Reach.exec {S : System σ α} {s s' : σ} (h : Reach S s) (as : List α)
    (hs : S.exec s as = some s') : Reach S s' := by
  induction as generalizing s with
  | nil =>
      simp only [System.exec_nil, Option.some.injEq] at hs
      exact hs ▸ h
  | cons a as ih =>
      rw [System.exec_cons, Option.bind_eq_some_iff] at hs
      obtain ⟨t, ht, hs⟩ := hs
      exact ih (.step h trivial ht) hs

/-- `f` maps guarded steps of `S` to guarded steps of `T` or to no step at all.
The source state is known to be reached, so invariants of `S` may be used. -/
structure Simulation (S : System σ α) (gS : σ → α → Prop) (T : System τ β)
    (gT : τ → β → Prop) (f : σ → τ) : Prop where
  init : ∀ s, S.init s → T.init (f s)
  step : ∀ s a s', ReachWhen S gS s → gS s a → S.next s a = some s' →
    f s' = f s ∨ ∃ b, gT (f s) b ∧ T.next (f s) b = some (f s')

/-- Every reached state of the concrete system shows a reached abstract state. -/
theorem Simulation.reach {S : System σ α} {gS : σ → α → Prop} {T : System τ β}
    {gT : τ → β → Prop} {f : σ → τ} (sim : Simulation S gS T gT f) {s : σ}
    (h : ReachWhen S gS s) : ReachWhen T gT (f s) := by
  induction h with
  | init hi => exact .init (sim.init _ hi)
  | @step s s' a hr hg hs ih =>
      rcases sim.step s a s' hr hg hs with heq | ⟨b, hb, hnext⟩
      · exact heq ▸ ih
      · exact .step ih hb hnext

end Transition
