import ThatLimit.Adapters.Display
import ThatLimit.Concurrent.Lonely
/-!
# Ids do not interfere

What the calls for one id get to see in a crowd they could have seen in a system where nobody
else calls.
-/

namespace ThatLimit

open Transition

variable {ι IpAddr : Type} [DecidableEq IpAddr] [ToString IpAddr]

namespace Sys

section Results

variable {cfg : Config} {b : BucketId IpAddr} {s : Sys ι IpAddr}

theorem like_start (clock : ι → Nat) (now : Nat) :
    (start cfg clock now).Like b ⟨fun _ _ => False, fun _ => False⟩ (start cfg clock now : Sys ι IpAddr) := by
  have hworker : Worker.Like b (if cfg.cleanup.enabled then .idle else .off)
      (if cfg.cleanup.enabled then .idle else .off : Worker IpAddr) := by
    split
    · exact .idle
    · exact .off
  refine ⟨fun i => ⟨rfl, rfl, fun _ _ => rfl, ?_, fun _ => rfl, ?_, hworker⟩, fun _ => .none, ⟨⟨rfl, rfl⟩, rfl⟩, rfl,
    ⟨?_, ?_⟩, ?_, ?_, fun _ _ => rfl, fun _ _ => rfl⟩
  · rintro _ ⟨⟩
  · rintro _ _ _ ⟨⟩
  · rintro _ _ _ ⟨⟩
  · rintro _ _ _ ⟨⟩
  · rintro _ _ ⟨⟩
  · rintro _ ⟨⟩

/-- What there is to see of `b` in `s`: the clocks, its buckets, whether it is being refilled, its calls and which of them
have returned what, its key and the leases for it, and its answers. In `s'` this is the same, and there are no other calls. -/
structure Mirror (b : BucketId IpAddr) (s s' : Sys ι IpAddr) : Prop where
  now : ∀ i, (s'.insts i).now = (s.insts i).now
  bucket : ∀ i, (s'.insts i).store.buckets.get b = (s.insts i).store.buckets.get b
  refilling : ∀ i, ((s'.insts i).store.refills.get b).isSome = ((s.insts i).store.refills.get b).isSome
  calls : ∀ t i res, s.tasks t = some ⟨i, b, .done res⟩ ↔ s'.tasks t = some ⟨i, b, .done res⟩
  others : ∀ t k, s'.tasks t = some k → k.id = b
  server : s.ledger.server.Shares b.toKey s'.ledger.server
  answers : s'.answers = s.answers.filter fun a => a.id = b

theorem Like.mirror {N : Names} {s' : Sys ι IpAddr} (h : s.Like b N s') : s.Mirror b s' := by
  refine ⟨fun i => (h.insts i).now, fun i => (h.insts i).bucket, fun i => ?_, fun t i res => ?_, fun t k hk => ?_, h.server,
    h.answers⟩
  · cases hr : (s.insts i).store.refills.get b with
    | none => rw [(h.insts i).free hr]
    | some n =>
        obtain ⟨m, hm, -⟩ := (h.insts i).refilling n hr
        rw [hm]
        rfl
  · have hlike := h.tasks t
    constructor
    · intro hk
      rw [hk] at hlike
      generalize s'.tasks t = k' at hlike ⊢
      cases hlike with
      | own hpc =>
          cases hpc
          rfl
      | foreign hid => exact absurd rfl hid
    · intro hk
      rw [hk] at hlike
      generalize s.tasks t = k at hlike ⊢
      cases hlike with
      | own hpc =>
          cases hpc
          rfl
  · have hlike := h.tasks t
    rw [hk] at hlike
    generalize s.tasks t = k' at hlike
    cases hlike
    rfl

variable [DecidableEq ι]

/-- Everything but the calls of other ids happens in the lonely system too, their work on shared state included. -/
theorem Like.step {N : Names} {s' s₁ : Sys ι IpAddr} {a : Action ι IpAddr}
    (hkeys : Function.Injective (BucketId.toKey : BucketId IpAddr → String)) (h : s.Like b N s')
    (hnext : s.next cfg a = some s₁) : ∃ N', Follows cfg b N' s₁ s' := by
  have hstep {s₂ : Sys ι IpAddr} {N' : Names} (a : Action ι IpAddr) (ha : CallsOnly b s' a)
      (hs : s'.next cfg a = some s₂) (hlike : s₁.Like b N' s₂) : ∃ N', Follows cfg b N' s₁ s' :=
    ⟨N', s₂, .single ha hs, hlike⟩
  have hstay {N' : Names} (hlike : s₁.Like b N' s') : ∃ N', Follows cfg b N' s₁ s' := ⟨N', s', .refl, hlike⟩
  have htask {t : Nat} (hk : s.tasks t = none → False) : ∃ k, s.tasks t = some k :=
    Option.ne_none_iff_exists'.mp hk
  cases a with
  | spawn t i b' =>
      simp only [Sys.next, Option.isNone_iff_eq_none, Option.ite_none_right_eq_some] at hnext
      obtain ⟨hk, hnext⟩ := hnext
      cases hnext
      have hk' : s'.tasks t = none := by
        have hlike := h.tasks t
        rw [hk] at hlike
        generalize s'.tasks t = k' at hlike
        cases hlike
        rfl
      by_cases hid : b' = b
      · subst hid
        exact hstep (.spawn t i b') rfl (by simp only [Sys.next, hk']; rfl) (h.goto .check _ _)
      · exact hstay (h.other_goto hid hk' (by rintro _ _ ⟨⟩))
  | run t =>
      obtain ⟨k, hk⟩ := htask (t := t) fun hk => by simp [Sys.next, Sys.run, hk] at hnext
      by_cases hid : k.id = b
      · obtain ⟨i, b', pc⟩ := k
        obtain rfl : b' = b := hid
        obtain ⟨s₂, N', hrun, hlike⟩ := h.run hk hnext
        exact hstep (.run t) trivial hrun hlike
      · obtain ⟨N', hlike⟩ := h.other_run hk hid hnext
        exact hstay hlike
  | eval t link =>
      obtain ⟨k, hk⟩ := htask (t := t) fun hk => by simp [Sys.next, Sys.eval, hk] at hnext
      by_cases hid : k.id = b
      · obtain ⟨i, b', pc⟩ := k
        obtain rfl : b' = b := hid
        obtain ⟨s₂, heval, hlike⟩ := h.eval hk hnext
        exact hstep (.eval t link) trivial heval hlike
      · exact hstay (h.other_eval hkeys hk hid hnext)
  | cancel t =>
      obtain ⟨k, hk⟩ := htask (t := t) fun hk => by simp [Sys.next, Sys.cancel, hk] at hnext
      by_cases hid : k.id = b
      · obtain ⟨i, b', pc⟩ := k
        obtain rfl : b' = b := hid
        obtain ⟨s₂, hcancel, hlike⟩ := h.cancel hk hnext
        exact hstep (.cancel t) trivial hcancel hlike
      · exact hstay (h.other_cancel hk hid hnext)
  | orphan t =>
      obtain ⟨k, hk⟩ := htask (t := t) fun hk => by simp [Sys.next, Sys.orphan, hk] at hnext
      by_cases hid : k.id = b
      · obtain ⟨i, b', pc⟩ := k
        obtain rfl : b' = b := hid
        obtain ⟨s₂, horphan, hlike⟩ := h.orphan hk hnext
        exact hstep (.orphan t) trivial horphan hlike
      · exact hstay (h.other_orphan hkeys hk hid hnext)
  | elapse i ns =>
      cases hnext
      exact hstep (.elapse i ns) trivial rfl (h.setInst ((h.insts i).elapse ns) i)
  | redisElapse ms =>
      cases hnext
      exact hstep (.redisElapse ms) trivial rfl (h.setLedger (h.server.elapse ms))
  | tick i order =>
      cases step_of_next hnext with
      | tickNothing => exact hstay h
      | plan hp => exact ⟨N, h.plan hp⟩
  | shutdown i order =>
      cases step_of_next hnext with
      | plan hp => exact ⟨N, h.plan hp⟩
  | visit i =>
      cases step_of_next hnext with
      | plan hp => exact ⟨N, h.plan hp⟩
      | note hw hb ht hl => exact ⟨N, h.note (L := s.ledger.note _ _) rfl hw hb ht hl _⟩
  | sweep i c =>
      cases step_of_next hnext with
      | plan hp => cases hp
      | sweep hw hc => exact ⟨N, h.sweep hw hc⟩
  | release i c link =>
      cases step_of_next hnext with
      | plan hp => exact ⟨N, h.plan hp⟩
      | release hw hc => exact ⟨N, h.release hkeys hw hc⟩
  | join i =>
      cases step_of_next hnext with
      | plan hp => exact ⟨N, h.plan hp⟩

theorem like_reach (hkeys : Function.Injective (BucketId.toKey : BucketId IpAddr → String)) (hs : Reach (sys cfg) s)
    (b : BucketId IpAddr) : ∃ s', ReachWhen (sys cfg) (CallsOnly b) s' ∧ ∃ N, s.Like b N s' := by
  have ref : Refinement (sys cfg) (fun _ _ => True) (sys cfg) (CallsOnly b)
      fun s s' : Sys ι IpAddr => ∃ N, s.Like b N s' := by
    constructor
    · rintro _ ⟨clock, now, rfl⟩
      exact ⟨_, ⟨clock, now, rfl⟩, _, like_start clock now⟩
    · rintro s a s₁ s' - ⟨N, h⟩ - hnext
      obtain ⟨N', s₂, hrun, hlike⟩ := h.step hkeys hnext
      exact ⟨s₂, hrun, N', hlike⟩
  exact ref.reach hs

end Results

end Sys

section Results

variable [DecidableEq ι] {cfg : Config}

/-- Whatever the calls for all other ids do, what there is to see of an id is something its own calls alone can bring
about. -/
theorem ids_do_not_interfere {s : Sys ι ThatLimit.IpAddr} (hs : Reach (sys cfg) s) (b : BucketId ThatLimit.IpAddr) :
    ∃ s', ReachWhen (sys cfg) (Sys.CallsOnly b) s' ∧ s.Mirror b s' := by
  obtain ⟨s', hs', N, h⟩ := Sys.like_reach (BucketId.toKey_injective ThatLimit.IpAddr.display_injective) hs b
  exact ⟨s', hs', h.mirror⟩

/-- A user and an address are served by turns. -/
theorem address_is_not_noticed : ∃ s, (sys .default).exec (Sys.start .default (fun _ => 0) 0 : Sys Unit ThatLimit.IpAddr)
      [.spawn 0 () (.protectedSub "valera"), .spawn 1 () (.publicIp (.v4 0)), .run 0, .run 1, .run 0, .run 1, .run 0,
        .run 1, .eval 1 .answers, .eval 0 .answers, .run 1, .run 0, .run 1, .run 0] = some s ∧
    ∃ s', ReachWhen (sys .default) (Sys.CallsOnly (.protectedSub "valera")) s' ∧ s.Mirror (.protectedSub "valera") s' := by
  obtain ⟨s, hs⟩ := Option.isSome_iff_exists.mp (rfl : ((sys .default).exec
    (Sys.start .default (fun _ => 0) 0 : Sys Unit ThatLimit.IpAddr)
      [.spawn 0 () (.protectedSub "valera"), .spawn 1 () (.publicIp (.v4 0)), .run 0, .run 1, .run 0, .run 1, .run 0,
        .run 1, .eval 1 .answers, .eval 0 .answers, .run 1, .run 0, .run 1, .run 0]).isSome = true)
  exact ⟨s, hs, ids_do_not_interfere (Reach.exec (.init ⟨_, _, rfl⟩) _ hs) _⟩

end Results

end ThatLimit
