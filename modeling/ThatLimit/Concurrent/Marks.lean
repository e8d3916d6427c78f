import ThatLimit.Concurrent.LiveTokens
/-!
# The exhausted mark

A lease of nothing marks whatever bucket is in the map when the reply comes back. The
mark is on drained buckets for as long as this bucket is the spent one the task saw.
-/

namespace ThatLimit

open Transition

variable {ι IpAddr : Type} [DecidableEq IpAddr]

/-- A marked bucket has no token that could still be spent. -/
def Inst.Drained (v : Inst IpAddr) : Prop :=
  ∀ b bk, v.store.buckets.get b = some bk → bk.exhausted = true → bk.tokens = 0 ∨ bk.expiresAt ≤ v.now

namespace Sys

def Drained (s : Sys ι IpAddr) : Prop := ∀ i, (s.insts i).Drained

/-- Task `k` is being refused for lack of tokens: by the mark, or by the reply of its own lease. -/
def Refuses (s : Sys ι IpAddr) (k : Task ι IpAddr) : Prop :=
  (k.pc = .check ∧ ∃ e, (s.insts k.inst).store.check (s.insts k.inst).now k.id = .error e) ∨
    ∃ n g ttl window, k.pc = .leased n g 0 ttl window

variable {s s' : Sys ι IpAddr}

theorem Drained.remove (h : s.Drained) (i : ι) (b : BucketId IpAddr) (worker : Worker IpAddr) :
    Inst.Drained { s.insts i with store := (s.insts i).store.removeBucket b, worker } := by
  intro b' bk hb' hx
  exact h i b' bk (DashMap.get_remove_eq_some.mp hb').2 hx

variable [DecidableEq ι]

theorem Drained.update (h : s.Drained) {i : ι} {v : Inst IpAddr} (hinsts : s'.insts = Function.update s.insts i v)
    (hv : v.Drained) : s'.Drained := by
  unfold Sys.Drained
  rw [hinsts]
  exact (Function.forall_update_iff s.insts fun _ => Inst.Drained).mpr ⟨hv, fun j _ => h j⟩

theorem Drained.modify (h : s.Drained) (i : ι) (b : BucketId IpAddr) {f : Bucket → Bucket}
    (hf : ∀ bk, (f bk).tokens ≤ bk.tokens ∧ (f bk).expiresAt = bk.expiresAt ∧ (f bk).exhausted = bk.exhausted) :
    (s.modifyBucket i b f).Drained := by
  apply h.update rfl
  intro b' bk hb' hx
  obtain ⟨bk₀, hb₀, ⟨-, rfl⟩ | ⟨-, rfl⟩⟩ := DashMap.get_modify_eq_some.mp hb'
  · obtain ⟨htokens, hexpires, hmark⟩ := hf bk₀
    rw [hmark] at hx
    show _ = 0 ∨ _ ≤ (s.insts i).now
    rcases h i b' bk₀ hb₀ hx with hzero | hexp <;> omega
  · exact h i b' bk₀ hb₀ hx

theorem Drained.keep (h : s.Drained) {i : ι} {v : Inst IpAddr} (hinsts : s'.insts = Function.update s.insts i v)
    (hbuckets : v.store.buckets = (s.insts i).store.buckets := by rfl)
    (hnow : (s.insts i).now ≤ v.now := by exact Nat.le_refl _) : s'.Drained := by
  apply h.update hinsts
  intro b bk hb hx
  rw [hbuckets] at hb
  exact (h i b bk hb hx).imp_right fun hexp => Nat.le_trans hexp hnow

variable [ToString IpAddr]

/-- A lease of nothing marks a bucket that its task has found spent. -/
theorem Drained.step {cfg : Config} {a : Action ι IpAddr} (h : s.Drained) (hu : s.Unspoiled) (hs : Step cfg s a s') :
    s'.Drained := by
  cases hs with
  | spawn ht => exact h
  | move hk hm => exact h
  | rejected hk hpc hc => exact h
  | claim hk hpc hc => exact h.keep rfl
  | script hk hpc hc => exact h
  | unreachable hk hpc => exact h
  | refusedAbsent hk hpc hb => exact h
  | @refused t k n g ttl window bk hk hpc hb =>
      have hspent : bk.tokens = 0 ∨ bk.expiresAt ≤ (s.insts k.inst).now :=
        hu.claimed t k hk (by simp [Pc.refills, hpc]) bk hb
      apply h.update rfl
      intro b' bk' hb' hx
      obtain ⟨bk₀, hb₀, ⟨rfl, rfl⟩ | ⟨-, rfl⟩⟩ := DashMap.get_modify_eq_some.mp hb'
      · obtain rfl := Option.some.inj (hb.symm.trans hb₀)
        exact hspent
      · exact h k.inst b' bk₀ hb₀ hx
  | @insert t k n g leased ttl window hk hpc hpos =>
      apply h.update rfl
      intro b' bk' hb' hx
      rcases DashMap.get_insert_eq_some.mp hb' with ⟨-, rfl⟩ | ⟨-, hb₀⟩
      · cases hx
      · exact h k.inst b' bk' hb₀ hx
  | unclaim hk hpc hc => exact h.keep rfl
  | @unclaimNone t k n res hk hpc hc =>
      have hset : (s.setStore k.inst ((s.insts k.inst).store.unclaim k.id)).Drained := h.keep rfl
      cases res with
      | ok _ => exact hset
      | error e => exact hset
  | @notify t k n res hk hpc =>
      cases res with
      | ok _ => exact h
      | error e => exact h
  | takeAbsent hk hpc hb => exact h
  | takeEmpty hk hpc hb hl ht => exact h.modify _ _ fun bk => by simp
  | @spend t k bk hk hpc hb hl ht => exact h.modify k.inst k.id fun bk => by simp
  | remove hk hpc => exact h.update rfl (h.remove _ _ _)
  | cancel hk hc => exact h
  | orphan hk hpc => exact h
  | elapse => exact h.keep rfl rfl (Nat.le_add_right ..)
  | redisElapse => exact h
  | tickNothing hw he => exact h
  | plan hp => exact h.keep rfl
  | note hw hb ht hl => exact h.keep rfl
  | sweep hw hc => exact h.update rfl (h.remove _ _ _)
  | release hw hc => exact h.keep rfl

end Sys

section Results

variable [DecidableEq ι] [ToString IpAddr] {cfg : Config} {s : Sys ι IpAddr}

theorem drained (hs : ReachWhen (sys cfg) (Sys.claimsInTime · ·) s) : s.Drained := by
  refine ReachWhen.invariant ?_ (fun s a s' hr h _ hnext => h.step (unspoiled hr) (Sys.step_of_next hnext)) hs
  rintro _ ⟨clock, now, rfl⟩ i b bk hb
  simp [Sys.start, Store.new] at hb

/-- While no refill of an id is completed between a task's check and its claim, marks are on drained
buckets and nobody is refused by an instance that could still serve him. -/
theorem marks_are_on_drained_buckets (hs : ReachWhen (sys cfg) (Sys.claimsInTime · ·) s) :
    s.Drained ∧ ∀ t k, s.tasks t = some k → s.Refuses k → s.Spent k.inst k.id := by
  refine ⟨drained hs, fun t k hk href bk hb => ?_⟩
  rcases href with ⟨hpc, e, he⟩ | ⟨n, g, ttl, window, hpc⟩
  · -- by the mark
    rcases Store.check_cases (s.insts k.inst).store (s.insts k.inst).now k.id with ⟨hc, -⟩ | ⟨_, -, -, -, -, hc⟩ |
      ⟨bk', hb', hx, -⟩
    · rw [hc] at he
      cases he
    · rw [hc] at he
      cases he
    · obtain rfl := Option.some.inj (hb.symm.trans hb')
      exact drained hs k.inst k.id bk hb hx
  · -- by its own lease, taken after the claim
    exact (unspoiled hs).claimed t k hk (by simp [Pc.refills, hpc]) bk hb

/-- The second request of a window of one token marks the bucket that the first has emptied. -/
theorem mark_is_on_the_used_bucket :
    ∃ s, (sys .single).exec (testStart .single) [.spawn 0 () testUser, .run 0, .run 0, .run 0, .eval 0 .answers, .run 0,
        .run 0, .run 0, .run 0, .run 0, .spawn 1 () testUser, .run 1, .run 1, .run 1, .eval 1 .answers, .run 1,
        .run 1] = some s ∧
      (s.insts ()).store.buckets.get testUser = some ⟨0, 60000000000, 60000, true⟩ ∧ s.Drained := by
  have hrun : ((sys .single).execWhen Sys.claimsInTime (testStart .single) [.spawn 0 () testUser, .run 0, .run 0,
      .run 0, .eval 0 .answers, .run 0, .run 0, .run 0, .run 0, .run 0, .spawn 1 () testUser, .run 1, .run 1, .run 1,
      .eval 1 .answers, .run 1, .run 1]).map (fun s => (s.insts ()).store.buckets.get testUser) =
      some (some ⟨0, 60000000000, 60000, true⟩) := rfl
  obtain ⟨s, hs, hb⟩ := Option.map_eq_some_iff.mp hrun
  exact ⟨s, System.exec_of_execWhen hs, hb, (marks_are_on_drained_buckets ((testStart_init _).execWhen _ hs)).1⟩

/-- The first request refills the bucket between the check of the second and its claim. The second then
leases nothing, marks the live bucket and is refused. -/
theorem late_refusal_marks_live_tokens :
    ∃ s, (sys .single).exec (testStart .single) [.spawn 0 () testUser, .spawn 1 () testUser, .run 1, .run 0, .run 0,
        .run 0, .eval 0 .answers, .run 0, .run 0, .run 0, .run 0, .run 1, .run 1, .eval 1 .answers, .run 1,
        .run 1] = some s ∧
      Reach (sys .single) s ∧
      (s.insts ()).store.buckets.get testUser = some ⟨1, 60000000000, 60000, true⟩ ∧ (s.insts ()).now = 0 ∧
      s.tasks 1 = some ⟨(), testUser, .refilled 1 (.error (.exhausted testUser 60000000000))⟩ ∧
      ¬ s.Drained := by
  have hrun : ((sys .single).exec (testStart .single) [.spawn 0 () testUser, .spawn 1 () testUser, .run 1, .run 0,
      .run 0, .run 0, .eval 0 .answers, .run 0, .run 0, .run 0, .run 0, .run 1, .run 1, .eval 1 .answers, .run 1,
      .run 1]).map (fun s => ((s.insts ()).store.buckets.get testUser, (s.insts ()).now, s.tasks 1)) =
      some (some ⟨1, 60000000000, 60000, true⟩, 0,
        some ⟨(), testUser, .refilled 1 (.error (.exhausted testUser 60000000000))⟩) := rfl
  obtain ⟨s, hs, hseen⟩ := Option.map_eq_some_iff.mp hrun
  simp only [Prod.mk.injEq] at hseen
  obtain ⟨hb, hnow, htask⟩ := hseen
  refine ⟨s, hs, Reach.exec (testStart_init _) _ hs, hb, hnow, htask, fun hdrained => ?_⟩
  rcases hdrained () testUser _ hb rfl with hzero | hexp
  · cases hzero
  · simp [hnow] at hexp

end Results

end ThatLimit
