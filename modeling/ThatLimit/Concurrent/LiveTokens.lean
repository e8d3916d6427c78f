import ThatLimit.Concurrent.Refills
/-!
# A refill and the tokens it replaces

A task claims the entry of an id because `check` has found its bucket spent. The
bucket stays spent until the task inserts the next one, as long as no other refill
of the id is completed between the check and the claim.
-/

namespace ThatLimit

open Transition SingleFlight

variable {ι IpAddr : Type}

/-- The task has claimed the entry of its id and has not inserted a bucket yet. -/
def Pc.refills : Pc IpAddr → Bool
  | .lease _ | .eval .. | .reply .. | .leased .. => true
  | _ => false

theorem Pc.leads_of_refills {pc : Pc IpAddr} (h : pc.refills = true) : ∃ n, pc.leads = some n := by
  cases pc <;> simp_all [refills, leads]

namespace Sys

variable [DecidableEq IpAddr]

/-- Instance `i` holds no token for `b` that could still be spent. -/
def Spent (s : Sys ι IpAddr) (i : ι) (b : BucketId IpAddr) : Prop :=
  (s.insts i).store.Spent (s.insts i).now b

/-- What a task relies on that is on its way to replace the bucket of its id. -/
structure Unspoiled (s : Sys ι IpAddr) : Prop where
  checked : ∀ t k seen, s.tasks t = some k → k.pc = .entry seen →
    seen ≤ (s.insts k.inst).version k.id ∧ (seen = (s.insts k.inst).version k.id → s.Spent k.inst k.id)
  claimed : ∀ t k, s.tasks t = some k → k.pc.refills = true → s.Spent k.inst k.id

/-- No bucket was inserted under the id and the spent one has not come back. -/
def Keeps (s s' : Sys ι IpAddr) (i : ι) (b : BucketId IpAddr) : Prop :=
  (s'.insts i).version b = (s.insts i).version b ∧ (s.Spent i b → s'.Spent i b)

variable {s s' s₁ : Sys ι IpAddr}

theorem Keeps.refl (i : ι) (b : BucketId IpAddr) : s.Keeps s i b := ⟨rfl, id⟩

theorem Unspoiled.of_keeps (h : s.Unspoiled) (hk : ∀ i b, s.Keeps s' i b)
    (htasks : s'.tasks = s.tasks := by rfl) : s'.Unspoiled := by
  constructor
  · intro t k seen ht hpc
    obtain ⟨hle, hspent⟩ := h.checked t k seen (htasks ▸ ht) hpc
    obtain ⟨hv, hs⟩ := hk k.inst k.id
    rw [hv]
    exact ⟨hle, fun he => hs (hspent he)⟩
  · intro t k ht hpc
    exact (hk k.inst k.id).2 (h.claimed t k (htasks ▸ ht) hpc)

theorem Unspoiled.of_goto (h : s.Unspoiled) {t : Nat} {k : Task ι IpAddr}
    {pc : Pc IpAddr}
    (hkeep : ∀ i b, s.Keeps s₁ i b ∨ (s.insts i).version b < (s₁.insts i).version b ∧
      ∀ t' k', s.tasks t' = some k' → k'.inst = i → k'.id = b → k'.pc.refills = true → t' = t)
    (hentry : ∀ seen, pc = .entry seen → seen = (s₁.insts k.inst).version k.id ∧ s₁.Spent k.inst k.id)
    (hclaim : pc.refills = true → s₁.Spent k.inst k.id)
    (htasks : s₁.tasks = s.tasks := by rfl) : (s₁.goto t k pc).Unspoiled := by
  constructor
  · intro t' k' seen ht' hpc
    rcases goto_tasks_cases ht' with ⟨rfl, rfl⟩ | ⟨-, hold⟩
    · obtain ⟨he, hspent⟩ := hentry seen hpc
      exact ⟨Nat.le_of_eq he, fun _ => hspent⟩
    · obtain ⟨hle, hspent⟩ := h.checked t' k' seen (htasks ▸ hold) hpc
      rcases hkeep k'.inst k'.id with ⟨hv, hs⟩ | ⟨hlt, -⟩
      · exact ⟨hv ▸ hle, fun he => hs (hspent (he.trans hv))⟩
      · have hlt' := Nat.lt_of_le_of_lt hle hlt
        exact ⟨Nat.le_of_lt hlt', fun he => absurd he (Nat.ne_of_lt hlt')⟩
  · intro t' k' ht' hpc
    rcases goto_tasks_cases ht' with ⟨rfl, rfl⟩ | ⟨ht, hold⟩
    · exact hclaim hpc
    · rw [htasks] at hold
      rcases hkeep k'.inst k'.id with ⟨-, hs⟩ | ⟨-, honly⟩
      · exact hs (h.claimed t' k' hold hpc)
      · exact absurd (honly t' k' hold rfl rfl hpc) ht

theorem Unspoiled.move (h : s.Unspoiled) {t : Nat} {k : Task ι IpAddr}
    {pc : Pc IpAddr} (hk : s.tasks t = some k) (hkeep : ∀ i b, s.Keeps s₁ i b)
    (hentry : ∀ seen, pc ≠ .entry seen) (hclaim : pc.refills = true → k.pc.refills = true)
    (htasks : s₁.tasks = s.tasks := by rfl) :
    (s₁.goto t k pc).Unspoiled :=
  h.of_goto (fun i b => .inl (hkeep i b)) (fun seen he => absurd he (hentry seen))
    (fun hc => (hkeep k.inst k.id).2 (h.claimed t k hk (hclaim hc))) htasks

theorem Unspoiled.answer (h : s.Unspoiled) {t : Nat} {k : Task ι IpAddr}
    (hk : s.tasks t = some k) (hkeep : ∀ i b, s.Keeps s₁ i b) {res}
    (htasks : s₁.tasks = s.tasks := by rfl) : (s₁.answer t k res).Unspoiled :=
  (h.move hk hkeep (by simp) (by simp [Pc.refills]) htasks : (s₁.goto t k (.done res)).Unspoiled).of_keeps
    fun _ _ => ⟨rfl, id⟩

theorem Unspoiled.resume (h : s.Unspoiled) {t : Nat} {k : Task ι IpAddr}
    (hk : s.tasks t = some k) (hkeep : ∀ i b, s.Keeps s₁ i b) {res}
    (htasks : s₁.tasks = s.tasks := by rfl) : (s₁.resume t k res).Unspoiled := by
  cases res with
  | ok _ => exact h.move hk hkeep (by simp) (by simp [Pc.refills]) htasks
  | error e => exact h.answer hk hkeep htasks

variable [DecidableEq ι]

theorem keeps_update {i : ι} {v : Inst IpAddr} (hinsts : s'.insts = Function.update s.insts i v)
    (h : ∀ b, (s.insts i).store.Spent (s.insts i).now b → v.store.Spent v.now b) (j : ι)
    (b : BucketId IpAddr) (hv : v.version = (s.insts i).version := by rfl) : s.Keeps s' j b := by
  unfold Keeps Spent
  rw [hinsts]
  by_cases hj : j = i
  · subst hj
    simpa [hv] using h b
  · simp [hj]

theorem keeps_modifyBucket (i : ι) (b : BucketId IpAddr) {f : Bucket → Bucket}
    (hf : ∀ bk, (f bk).tokens ≤ bk.tokens ∧ (f bk).expiresAt = bk.expiresAt) (j : ι)
    (c : BucketId IpAddr) : s.Keeps (s.modifyBucket i b f) j c := by
  exact keeps_update rfl (fun _ hs => hs.modify b hf) j c

/-- A vacant entry is claimed only if no bucket has been inserted under the id since the task's check. -/
def claimsInTime (s : Sys ι IpAddr) : Action ι IpAddr → Bool
  | .run t => (s.tasks t).all fun k =>
      let v := s.insts k.inst
      match k.pc with
      | .entry seen => (v.store.refills.get k.id).isSome || seen == v.version k.id
      | _ => true
  | _ => true

variable [ToString IpAddr]

/-- What a step keeps: only the leader of the id inserts a bucket under it. -/
theorem Unspoiled.step {cfg : Config} {a : Action ι IpAddr} (h : s.Unspoiled) (hex : Exclusive s.flight)
    (hg : s.claimsInTime a = true) (hs : Step cfg s a s') : s'.Unspoiled := by
  cases hs with
  | @spawn t i b ht =>
      exact h.of_goto (fun _ _ => .inl (.refl ..)) (by simp) (by simp [Pc.refills])
  | @move t k pc hk hm =>
      cases hm with
      | checkSpent hpc hc =>
          refine h.of_goto (fun _ _ => .inl (.refl ..)) ?_ (by simp [Pc.refills])
          rintro _ ⟨⟩
          exact ⟨rfl, Store.spent_of_check hc⟩
      | checkPassed hpc _ | occupied hpc _ | registered hpc | woken hpc _ | expired hpc _ | started hpc
      | failed hpc | replied hpc =>
          exact h.move hk (fun _ _ => .refl ..) (by simp) (by simp [Pc.refills, hpc])
  | rejected hk hpc hc => exact h.answer hk fun _ _ => .refl ..
  | @claim t k seen hk hpc hc =>
      have hseen : seen = (s.insts k.inst).version k.id := by simpa [claimsInTime, hk, hpc, hc] using hg
      have hspent : s.Spent k.inst k.id := (h.checked t k seen hk hpc).2 hseen
      have hkeep : ∀ i b, s.Keeps
          { s.setStore k.inst ((s.insts k.inst).store.claim k.id s.nextNotify) with
            nextNotify := s.nextNotify + 1 } i b := by
        refine keeps_update rfl fun b hs => ?_
        exact hs
      exact h.of_goto (fun i b => .inl (hkeep i b)) (by simp) fun _ => (hkeep k.inst k.id).2 hspent
  | script hk hpc hc => exact h.move hk (by exact fun _ _ => ⟨rfl, id⟩) (by simp) (by simp [Pc.refills, hpc])
  | unreachable hk hpc => exact h.move hk (fun _ _ => .refl ..) (by simp) (by simp [Pc.refills, hpc])
  | refusedAbsent hk hpc hb => exact h.move hk (fun _ _ => .refl ..) (by simp) (by simp [Pc.refills])
  | refused hk hpc hb =>
      refine h.move hk (keeps_modifyBucket _ _ fun bk => ?_) (by simp) (by simp [Pc.refills])
      exact ⟨Nat.le_refl _, rfl⟩
  | @insert t k n g leased ttl window hk hpc hpos =>
      refine h.of_goto ?_ (by simp) (by simp [Pc.refills])
      intro i b
      by_cases hib : i = k.inst ∧ b = k.id
      · obtain ⟨rfl, rfl⟩ := hib
        refine .inr ⟨by simp [insertBucket], ?_⟩
        intro t' k' hk' hi hb hc
        obtain ⟨m, hm⟩ := Pc.leads_of_refills hc
        have hrole : s.flight.role t = .leader (k.inst, k.id) n := by
          rw [flight_role hk]
          exact Task.role_eq_leader.mpr ⟨rfl, by simp [Pc.leads, hpc]⟩
        have hrole' : s.flight.role t' = .leader (k.inst, k.id) m := by
          rw [flight_role hk']
          exact Task.role_eq_leader.mpr ⟨by rw [hi, hb], hm⟩
        exact hex.unique hrole' hrole
      · left
        by_cases hi : i = k.inst
        · subst hi
          have hb : b ≠ k.id := fun hb => hib ⟨rfl, hb⟩
          refine ⟨by simp [insertBucket, hb], fun hs => ?_⟩
          simpa [Spent, Store.Spent, insertBucket, hb] using hs
        · exact ⟨by simp [insertBucket, hi], fun hs => by simpa [Spent, insertBucket, hi] using hs⟩
  | unclaim hk hpc hc =>
      refine h.move hk (keeps_update rfl fun b hs => ?_) (by simp) (by simp [Pc.refills])
      exact hs
  | unclaimNone hk hpc hc =>
      refine h.resume hk (keeps_update rfl fun b hs => ?_)
      exact hs
  | notify hk hpc => exact h.resume hk (by exact fun _ _ => ⟨rfl, id⟩)
  | takeAbsent hk hpc hb => exact h.answer hk fun _ _ => .refl ..
  | takeEmpty hk hpc hb hl ht => exact h.answer hk (keeps_modifyBucket _ _ fun bk => by simp)
  | @spend t k bk hk hpc hb hl ht =>
      have hkeep : ∀ i b, s.Keeps { s.modifyBucket k.inst k.id (fun bk => bk.consume.2) with
          ledger := s.ledger.spend ((s.insts k.inst).origin k.id) } i b :=
        keeps_modifyBucket k.inst k.id fun bk => by simp
      exact h.answer hk hkeep
  | remove hk hpc =>
      refine h.answer hk (keeps_update rfl fun b hs => ?_)
      exact hs.remove _
  | cancel hk hc => exact h.move hk (fun _ _ => .refl ..) (by simp) (by simp [Pc.refills])
  | orphan hk hpc => exact h.move hk (by exact fun _ _ => ⟨rfl, id⟩) (by simp) (by simp [Pc.refills])
  | elapse =>
      refine h.of_keeps (keeps_update rfl fun b hs => ?_)
      exact hs.mono (Nat.le_add_right ..)
  | redisElapse => exact h.of_keeps fun _ _ => ⟨rfl, id⟩
  | tickNothing hw he => exact h
  | plan hp =>
      refine h.of_keeps (keeps_update rfl fun b hs => ?_)
      exact hs
  | note hw hb ht hl =>
      refine h.of_keeps (keeps_update rfl fun b hs => ?_)
      exact hs
  | sweep hw hc =>
      refine h.of_keeps (keeps_update rfl fun b' hs => ?_)
      exact hs.remove _
  | release hw hc =>
      refine h.of_keeps (keeps_update rfl fun b hs => ?_)
      exact hs

end Sys

section Results

variable [DecidableEq ι] [DecidableEq IpAddr] [ToString IpAddr] {cfg : Config} {s : Sys ι IpAddr}

theorem unspoiled (hs : ReachWhen (sys cfg) (Sys.claimsInTime · ·) s) : s.Unspoiled := by
  refine ReachWhen.invariant ?_ ?_ hs
  · rintro _ ⟨clock, now, rfl⟩
    exact ⟨by simp [Sys.start], by simp [Sys.start]⟩
  · intro s a s' hr h hg hnext
    exact h.step (exclusive (flight_reach hr.reach)) hg (Sys.step_of_next hnext)

/-- From its claim of the entry until it inserts a bucket, a task finds the bucket under its id
absent, empty or expired. -/
theorem refilled_bucket_is_spent (hs : ReachWhen (sys cfg) (Sys.claimsInTime · ·) s) {t : Nat}
    {k : Task ι IpAddr} (hk : s.tasks t = some k) (hpc : k.pc.refills = true) {bk : Bucket}
    (hb : (s.insts k.inst).store.buckets.get k.id = some bk) :
    bk.tokens = 0 ∨ bk.expiresAt ≤ (s.insts k.inst).now :=
  (unspoiled hs).claimed t k hk hpc bk hb

/-- A second refill, claimed after an idle check. -/
theorem refilled_bucket_is_spent_again :
    ∃ s, (sys Config.default).exec (testStart .default)
        [.spawn 0 () testUser, .run 0, .run 0, .run 0, .eval 0 .answers, .run 0] = some s ∧
      ∀ bk, (s.insts ()).store.buckets.get testUser = some bk → bk.tokens = 0 ∨ bk.expiresAt ≤ (s.insts ()).now := by
  have hrun : ((sys Config.default).execWhen Sys.claimsInTime (testStart .default) [.spawn 0 () testUser, .run 0,
      .run 0, .run 0, .eval 0 .answers, .run 0]).map (fun s => s.tasks 0) =
      some (some ⟨(), testUser, .leased 0 0 2000 60000000000 60000⟩) := rfl
  obtain ⟨s, hs, hk⟩ := Option.map_eq_some_iff.mp hrun
  exact ⟨s, System.exec_of_execWhen hs,
    fun bk hb => refilled_bucket_is_spent ((testStart_init _).execWhen _ hs) hk rfl hb⟩

/-- The first request completes a whole refill between the check of the second and its claim: the
second goes to Redis and is about to overwrite 1999 tokens that are good for another minute. -/
theorem late_claim_spoils_live_tokens :
    ∃ s, (sys Config.default).exec (testStart .default) [.spawn 0 () testUser, .spawn 1 () testUser, .run 1, .run 0,
        .run 0, .run 0, .eval 0 .answers, .run 0, .run 0, .run 0, .run 0, .run 0, .run 1, .run 1,
        .eval 1 .answers, .run 1] = some s ∧
      Reach (sys Config.default) s ∧
      s.tasks 1 = some ⟨(), testUser, .leased 1 1 2000 60000000000 60000⟩ ∧
      (s.insts ()).store.buckets.get testUser = some ⟨1999, 60000000000, 60000, false⟩ ∧
      (s.insts ()).now = 0 := by
  have hrun : ((sys Config.default).exec (testStart .default) [.spawn 0 () testUser, .spawn 1 () testUser, .run 1,
      .run 0, .run 0, .run 0, .eval 0 .answers, .run 0, .run 0, .run 0, .run 0, .run 0, .run 1, .run 1,
      .eval 1 .answers, .run 1]).map (fun s => (s.tasks 1, (s.insts ()).store.buckets.get testUser, (s.insts ()).now)) =
      some (some ⟨(), testUser, .leased 1 1 2000 60000000000 60000⟩, some ⟨1999, 60000000000, 60000, false⟩, 0) := rfl
  obtain ⟨s, hs, hseen⟩ := Option.map_eq_some_iff.mp hrun
  simp only [Prod.mk.injEq] at hseen
  exact ⟨s, hs, Reach.exec (testStart_init _) _ hs, hseen⟩

end Results

end ThatLimit
