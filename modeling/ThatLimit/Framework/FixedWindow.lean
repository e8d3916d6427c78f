import ThatLimit.Framework.Tally
/-!
# Fixed windows and bursts

Units are handed out at times, in windows of one length, up to a quota in each. The next
window is opened after the end of the last one. An interval as long as a window meets at
most two of them.
-/

namespace FixedWindow

open Tally

/-- When the window was opened, and what was handed out in it when. -/
structure Window where
  opened : Nat
  handed : List (Nat × Nat)

def Window.total (w : Window) : Nat := tally Prod.snd w.handed

/-- What of a handout falls into the closed interval from `a` on. -/
def within (a length : Nat) (h : Nat × Nat) : Nat := if a ≤ h.1 ∧ h.1 ≤ a + length then h.2 else 0

/-- What is handed out in an interval. -/
def burst (a length : Nat) (ws : List Window) : Nat := tally (fun w => tally (within a length) w.handed) ws

structure Window.Sound (quota length : Nat) (w : Window) : Prop where
  total_le : w.total ≤ quota
  inside : ∀ h ∈ w.handed, w.opened ≤ h.1 ∧ h.1 ≤ w.opened + length

/-- Windows, the newest first, each opened after the end of the one before. -/
def Spaced (length : Nat) (ws : List Window) : Prop :=
  ws.Pairwise fun newer older => older.opened + length < newer.opened

variable {quota length a : Nat} {w : Window} {ws : List Window}

theorem burst_cons (a length : Nat) (w : Window) (ws : List Window) :
    burst a length (w :: ws) = tally (within a length) w.handed + burst a length ws := rfl

theorem tally_flatMap (a length : Nat) (ws : List Window) :
    tally (within a length) (ws.flatMap Window.handed) = burst a length ws := by
  induction ws with
  | nil => rfl
  | cons w ws ih => rw [List.flatMap_cons, tally_append, ih, burst_cons]

theorem Window.Sound.burst_le (h : w.Sound quota length) : tally (within a length) w.handed ≤ quota := by
  apply Nat.le_trans _ h.total_le
  apply tally_le_tally
  intro x _
  unfold within
  split
  · exact Nat.le_refl _
  · exact Nat.zero_le _

theorem Window.Sound.burst_eq_zero (h : w.Sound quota length)
    (hout : w.opened + length < a ∨ a + length < w.opened) : tally (within a length) w.handed = 0 := by
  apply tally_eq_zero
  intro x hx
  obtain ⟨hfrom, hto⟩ := h.inside x hx
  unfold within
  rw [if_neg]
  omega

theorem burst_eq_zero (hsound : ∀ w ∈ ws, w.Sound quota length) (hended : ∀ w ∈ ws, w.opened + length < a) :
    burst a length ws = 0 :=
  tally_eq_zero fun w hw => (hsound w hw).burst_eq_zero (.inl (hended w hw))

/-- Of the windows opened before the interval only the newest reaches into it. -/
theorem burst_le_quota (hspaced : Spaced length ws) (hsound : ∀ w ∈ ws, w.Sound quota length)
    (hbefore : ∀ w ∈ ws, w.opened < a) : burst a length ws ≤ quota := by
  cases ws with
  | nil => exact Nat.zero_le _
  | cons w ws =>
      obtain ⟨hnewest, -⟩ := List.pairwise_cons.mp hspaced
      have hrest : burst a length ws = 0 := by
        apply burst_eq_zero fun v hv => hsound v (List.mem_cons_of_mem _ hv)
        intro v hv
        have hv' := hnewest v hv
        have hw := hbefore w List.mem_cons_self
        omega
      rw [burst_cons, hrest]
      exact (hsound w List.mem_cons_self).burst_le

/-- An interval of the length of a window sees no more than two quotas. -/
theorem burst_le_two_quotas (hspaced : Spaced length ws) (hsound : ∀ w ∈ ws, w.Sound quota length) :
    burst a length ws ≤ 2 * quota := by
  induction ws with
  | nil => exact Nat.zero_le _
  | cons w ws ih =>
      obtain ⟨hnewest, hspaced⟩ := List.pairwise_cons.mp hspaced
      have hw := hsound w List.mem_cons_self
      have hrest : ∀ v ∈ ws, v.Sound quota length := fun v hv => hsound v (List.mem_cons_of_mem _ hv)
      rw [burst_cons]
      by_cases hlate : a + length < w.opened
      · rw [hw.burst_eq_zero (.inr hlate), Nat.zero_add]
        exact ih hspaced hrest
      · -- the newest window that the interval reaches; the one before it began before the interval
        have hone : burst a length ws ≤ quota := by
          apply burst_le_quota hspaced hrest
          intro v hv
          have hv' := hnewest v hv
          omega
        have hbw : tally (within a length) w.handed ≤ quota := hw.burst_le
        omega

end FixedWindow
