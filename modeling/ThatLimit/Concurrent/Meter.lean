import ThatLimit.Concurrent.Books
/-!
# What a call takes from the buckets

A count beside the system says how many tokens each call has taken from a local bucket.
A bucket never holds more than one lease, so a call that takes a token is answered with
a number below `lease_size`, in the same step. The first call for an id shows that this is
the best bound there is.
-/

namespace ThatLimit

open Transition

variable {ι IpAddr : Type}

section Metering

variable [DecidableEq ι] [DecidableEq IpAddr] [ToString IpAddr]

/-- The task that takes a token from a bucket in this step. -/
def Sys.spender (s : Sys ι IpAddr) : Action ι IpAddr → Option Nat
  | .run t =>
      (s.tasks t).bind fun k =>
        let v := s.insts k.inst
        match k.pc with
        | .take =>
            if (v.store.buckets.get k.id).any fun bk => !bk.isExpired v.now && !bk.isEmpty then some t else none
        | _ => none
  | _ => none

/-- The system, with the tokens that each call has taken so far. -/
def metered (cfg : Config) : System (Sys ι IpAddr × (Nat → Nat)) (Action ι IpAddr) where
  init p := (sys cfg).init p.1 ∧ p.2 = fun _ => 0
  next p a := (p.1.next cfg a).map fun s' =>
    (s', (p.1.spender a).elim p.2 fun t => Function.update p.2 t (p.2 t + 1))

end Metering

/-- `SETEX` accepts the windows of the policy, at least as long as the Redis clock has not moved on. -/
def Policy.Grantable (p : Policy) : Prop := 0 < asSecs p.resetIn ∧ asSecs p.resetIn * 1000 < 2 ^ 63

instance : DecidablePred Policy.Grantable := fun p =>
  inferInstanceAs (Decidable (0 < asSecs p.resetIn ∧ asSecs p.resetIn * 1000 < 2 ^ 63))

/-- The most that one lease can bring. -/
def Policy.granted (p : Policy) : Nat := if p.Grantable then p.leaseSize else 0

/-- At most `size` tokens are on their way to the bucket, and an `Ok` says fewer. -/
def Pc.Within (size : Nat) : Pc IpAddr → Prop
  | .reply _ _ (.ok r) _ => r.leased ≤ size
  | .leased _ _ m _ _ => m ≤ size
  | .done (.ok left) => left ≤ size - 1
  | _ => True

/-- A lease brings no more than that. -/
def Ledger.Grants [ToString IpAddr] (cfg : Config) (L : Ledger ι IpAddr) : Prop :=
  ∀ i b reply L' r, L.lease cfg i b = (.ok reply, L') → reply.decode = .ok r → r.leased ≤ (cfg.policy b).granted

namespace Sys

variable {cfg : Config} {s s₁ s' : Sys ι IpAddr} {t : Nat} {k : Task ι IpAddr} {pc : Pc IpAddr}

theorem stays_goto {res : Except (StoreError IpAddr) Nat} {t' : Nat} {k' : Task ι IpAddr} (hk : s.tasks t = some k)
    (hdone : k.pc = .done res) (hk' : s.tasks t' = some k') (hrunning : ∀ res, k'.pc ≠ .done res)
    (htasks : s₁.tasks = s.tasks := by rfl) : (s₁.goto t' k' pc).tasks t = some k := by
  have hne : t ≠ t' := by
    rintro rfl
    obtain rfl := Option.some.inj (hk.symm.trans hk')
    exact hrunning res hdone
  rw [goto_tasks_ne hne, htasks]
  exact hk

theorem resume_insts (s : Sys ι IpAddr) (t : Nat) (k : Task ι IpAddr) (res : Except (StoreError IpAddr) Unit) :
    (s.resume t k res).insts = s.insts := by
  cases res <;> rfl

theorem stays_resume {res : Except (StoreError IpAddr) Nat} {t' : Nat} {k' : Task ι IpAddr} (hk : s.tasks t = some k)
    (hdone : k.pc = .done res) (hk' : s.tasks t' = some k') (hrunning : ∀ res, k'.pc ≠ .done res)
    {res' : Except (StoreError IpAddr) Unit} (htasks : s₁.tasks = s.tasks := by rfl) :
    (s₁.resume t' k' res').tasks t = some k := by
  cases res' with
  | ok _ => exact stays_goto hk hdone hk' hrunning htasks
  | error e => exact stays_goto hk hdone hk' hrunning htasks

variable [DecidableEq IpAddr]

/-- No bucket holds more than a lease. -/
def Rationed (cfg : Config) (s : Sys ι IpAddr) : Prop :=
  ∀ i b bk, (s.insts i).store.buckets.get b = some bk → bk.tokens ≤ (cfg.policy b).granted

/-- Nor do the tasks bring more. -/
structure Modest (cfg : Config) (s : Sys ι IpAddr) : Prop where
  buckets : s.Rationed cfg
  tasks : ∀ t k, s.tasks t = some k → k.pc.Within (cfg.policy k.id).granted

theorem Rationed.remove (h : s.Rationed cfg) (i : ι) (b : BucketId IpAddr) (b' : BucketId IpAddr) (bk : Bucket)
    (hb' : ((s.insts i).store.removeBucket b).buckets.get b' = some bk) : bk.tokens ≤ (cfg.policy b').granted :=
  h i b' bk (DashMap.get_remove_eq_some.mp hb').2

theorem Modest.goto (h : s.Modest cfg) (hb : s₁.Rationed cfg) (hpc : pc.Within (cfg.policy k.id).granted)
    (htasks : s₁.tasks = s.tasks := by rfl) : (s₁.goto t k pc).Modest cfg := by
  refine ⟨hb, fun t' k' hk' => ?_⟩
  rcases goto_tasks_cases hk' with ⟨rfl, rfl⟩ | ⟨-, hold⟩
  · exact hpc
  · exact h.tasks t' k' (htasks ▸ hold)

theorem spender_eq_some {a : Action ι IpAddr} (h : s.spender a = some t) : ∃ k bk, a = .run t ∧ s.tasks t = some k ∧
    k.pc = .take ∧ (s.insts k.inst).store.buckets.get k.id = some bk ∧ bk.isExpired (s.insts k.inst).now = false ∧
      bk.isEmpty = false := by
  cases a with
  | run t' =>
      obtain ⟨k, hk, hcase⟩ := Option.bind_eq_some_iff.mp h
      simp only at hcase
      split at hcase
      · next hpc =>
          rw [Option.ite_none_right_eq_some, Option.any_eq_true] at hcase
          obtain ⟨⟨bk, hb, hbk⟩, ⟨⟩⟩ := hcase
          simp only [Bool.and_eq_true, Bool.not_eq_true'] at hbk
          exact ⟨k, bk, rfl, hk, hpc, hb, hbk⟩
      · cases hcase
  | _ => cases h

/-- A bucket that stays in its place keeps its tokens. -/
def TokensKept (s s' : Sys ι IpAddr) (i : ι) (b : BucketId IpAddr) : Prop :=
  ∀ bk bk', (s.insts i).store.buckets.get b = some bk → (s'.insts i).store.buckets.get b = some bk' →
    (s'.insts i).version b = (s.insts i).version b → bk'.tokens = bk.tokens

variable {i : ι} {b : BucketId IpAddr}

theorem TokensKept.same (hinsts : s'.insts = s.insts) : s.TokensKept s' i b := by
  intro bk bk' hb hb' _
  rw [hinsts, hb] at hb'
  rw [Option.some.inj hb']

theorem Modest.answer (h : s.Modest cfg) (hb : s₁.Rationed cfg) {res : Except (StoreError IpAddr) Nat}
    (hres : (Pc.done res).Within (cfg.policy k.id).granted) (htasks : s₁.tasks = s.tasks := by rfl) :
    (s₁.answer t k res).Modest cfg := by
  have hgoto : (s₁.goto t k (.done res)).Modest cfg := h.goto hb hres htasks
  exact ⟨hgoto.buckets, hgoto.tasks⟩

theorem Modest.resume (h : s.Modest cfg) (hb : s₁.Rationed cfg) {res : Except (StoreError IpAddr) Unit}
    (htasks : s₁.tasks = s.tasks := by rfl) : (s₁.resume t k res).Modest cfg := by
  cases res with
  | ok _ => exact h.goto hb trivial htasks
  | error e => exact h.answer hb trivial htasks

theorem Modest.move (h : s.Modest cfg) (hk : s.tasks t = some k) (hm : s.Moves k pc) : (s.goto t k pc).Modest cfg := by
  apply h.goto h.buckets
  cases hm with
  | replied hpc => simpa [Pc.Within, hpc] using h.tasks t k hk
  | _ => trivial

variable [DecidableEq ι]

theorem Rationed.update (h : s.Rationed cfg) {i : ι} {v : Inst IpAddr}
    (hinsts : s₁.insts = Function.update s.insts i v)
    (hv : ∀ b bk, v.store.buckets.get b = some bk → bk.tokens ≤ (cfg.policy b).granted) : s₁.Rationed cfg := by
  unfold Sys.Rationed
  rw [hinsts]
  exact (Function.forall_update_iff s.insts fun _ v => ∀ b bk, v.store.buckets.get b = some bk →
    bk.tokens ≤ (cfg.policy b).granted).mpr ⟨hv, fun j _ => h j⟩

theorem Rationed.modify (h : s.Rationed cfg) (i : ι) (b : BucketId IpAddr) {f : Bucket → Bucket}
    (hf : ∀ bk, (f bk).tokens ≤ bk.tokens) : (s.modifyBucket i b f).Rationed cfg := by
  apply h.update rfl
  intro b' bk hb'
  obtain ⟨bk₀, hb₀, ⟨-, rfl⟩ | ⟨-, rfl⟩⟩ := DashMap.get_modify_eq_some.mp hb'
  · exact Nat.le_trans (hf bk₀) (h i b' bk₀ hb₀)
  · exact h i b' bk₀ hb₀

theorem TokensKept.update {j : ι} {v : Inst IpAddr} (hinsts : s'.insts = Function.update s.insts j v)
    (hv : i = j → ∀ bk bk', (s.insts j).store.buckets.get b = some bk → v.store.buckets.get b = some bk' →
      v.version b = (s.insts j).version b → bk'.tokens = bk.tokens) : s.TokensKept s' i b := by
  intro bk bk' hb hb' hversion
  rw [hinsts] at hb' hversion
  by_cases hj : i = j
  · subst hj
    rw [Function.update_self] at hb' hversion
    exact hv rfl bk bk' hb hb' hversion
  · rw [Function.update_of_ne hj, hb] at hb'
    rw [Option.some.inj hb']

theorem TokensKept.frame {j : ι} {v : Inst IpAddr} (hinsts : s'.insts = Function.update s.insts j v)
    (hv : ∀ bk, v.store.buckets.get b = some bk → (s.insts j).store.buckets.get b = some bk) : s.TokensKept s' i b := by
  apply TokensKept.update hinsts
  intro _ bk bk' hb hb' _
  rw [hv bk' hb'] at hb
  rw [Option.some.inj hb]

theorem TokensKept.modify {j : ι} {b' : BucketId IpAddr} {f : Bucket → Bucket}
    (hinsts : s'.insts = (s.modifyBucket j b' f).insts)
    (hf : i = j → b = b' → ∀ bk, (s.insts j).store.buckets.get b' = some bk → (f bk).tokens = bk.tokens) :
    s.TokensKept s' i b := by
  apply TokensKept.update hinsts
  intro hj bk bk' hb hb' _
  obtain ⟨bk₀, hb₀, ⟨hid, rfl⟩ | ⟨-, rfl⟩⟩ := DashMap.get_modify_eq_some.mp hb'
  · rw [hb₀] at hb
    obtain rfl := Option.some.inj hb
    exact hf hj hid bk₀ (hid ▸ hb₀)
  · rw [hb₀] at hb
    rw [Option.some.inj hb]

variable [ToString IpAddr]

theorem Modest.step {a : Action ι IpAddr} (h : s.Modest cfg) (hgrants : s.ledger.Grants cfg)
    (hs : Step cfg s a s') : s'.Modest cfg := by
  cases hs with
  | spawn ht => exact h.goto h.buckets trivial
  | move hk hm => exact h.move hk hm
  | rejected hk hpc hc => exact h.answer h.buckets trivial
  | @claim t k seen hk hpc hc => exact h.goto (h.buckets.update rfl (h.buckets k.inst)) trivial
  | @script t k n started link res hk hpc hc =>
      refine h.goto (by exact h.buckets) ?_
      cases res with
      | error e => trivial
      | ok r =>
          obtain ⟨reply, L, hl, hr⟩ := hc r rfl
          exact hgrants _ _ reply L r hl hr
  | unreachable hk hpc => exact h.goto h.buckets trivial
  | refusedAbsent hk hpc hb => exact h.goto h.buckets trivial
  | refused hk hpc hb => exact h.goto (h.buckets.modify _ _ fun bk => Nat.le_refl _) trivial
  | @insert t k n g leased ttl window hk hpc hleased =>
      have hsize : leased ≤ (cfg.policy k.id).granted := by simpa [Pc.Within, hpc] using h.tasks t k hk
      refine h.goto (h.buckets.update rfl fun b bk hb => ?_) trivial
      rcases DashMap.get_insert_eq_some.mp hb with ⟨rfl, rfl⟩ | ⟨-, hold⟩
      · exact hsize
      · exact h.buckets k.inst b bk hold
  | @unclaim t k n n' res hk hpc hc => exact h.goto (h.buckets.update rfl (h.buckets k.inst)) trivial
  | @unclaimNone t k n res hk hpc hc =>
      have hbuckets : (s.setStore k.inst ((s.insts k.inst).store.unclaim k.id)).Rationed cfg :=
        h.buckets.update (v := { s.insts k.inst with store := (s.insts k.inst).store.unclaim k.id }) rfl
          (h.buckets k.inst)
      exact h.resume hbuckets
  | notify hk hpc => exact h.resume (by exact h.buckets)
  | @takeAbsent t k hk hpc hb => exact h.answer h.buckets (Nat.zero_le _)
  | @takeEmpty t k bk hk hpc hb hl ht => exact h.answer (h.buckets.modify _ _ fun bk => by simp) (Nat.zero_le _)
  | @spend t k bk hk hpc hb hl ht =>
      have hsize := h.buckets k.inst k.id bk hb
      have hbuckets : (s.modifyBucket k.inst k.id fun bk => bk.consume.2).Rationed cfg :=
        h.buckets.modify _ _ fun bk => by simp
      refine h.answer (by exact hbuckets) ?_
      exact Nat.sub_le_sub_right hsize 1
  | @remove t k hk hpc => exact h.answer (h.buckets.update rfl (h.buckets.remove k.inst k.id)) (Nat.zero_le _)
  | cancel hk hc => exact h.goto h.buckets trivial
  | orphan hk hpc => exact h.goto (by exact h.buckets) trivial
  | @elapse i ns => exact ⟨h.buckets.update rfl (h.buckets i), h.tasks⟩
  | redisElapse => exact ⟨h.buckets, h.tasks⟩
  | tickNothing hw he => exact h
  | @plan i a worker hp => exact ⟨h.buckets.update rfl (h.buckets i), h.tasks⟩
  | @note i b todo found bk hw hb ht hl => exact ⟨h.buckets.update rfl (h.buckets i), h.tasks⟩
  | @sweep i c b chunks rest hw hc => exact ⟨h.buckets.update rfl (h.buckets.remove i b), h.tasks⟩
  | @release i c link chunks p rest hw hc => exact ⟨h.buckets.update rfl (h.buckets i), h.tasks⟩

theorem done_stays {a : Action ι IpAddr} {res : Except (StoreError IpAddr) Nat} (hk : s.tasks t = some k)
    (hdone : k.pc = .done res) (hs : Step cfg s a s') : s'.tasks t = some k := by
  cases hs with
  | @spawn t' i b ht =>
      have hne : t ≠ t' := by
        rintro rfl
        rw [ht] at hk
        cases hk
      rw [goto_tasks_ne hne]
      exact hk
  | @move t' k' pc hk' hm =>
      refine stays_goto hk hdone hk' fun res hpc => ?_
      cases hm <;> simp_all
  | rejected hk' hpc hc | claim hk' hpc hc | script hk' hpc hc | unreachable hk' hpc | refusedAbsent hk' hpc hb
  | refused hk' hpc hb | insert hk' hpc hleased | unclaim hk' hpc hc | takeAbsent hk' hpc hb
  | takeEmpty hk' hpc hb hl ht | spend hk' hpc hb hl ht | remove hk' hpc | orphan hk' hpc =>
      exact stays_goto hk hdone hk' (by simp [hpc])
  | unclaimNone hk' hpc hc | notify hk' hpc => exact stays_resume hk hdone hk' (by simp [hpc])
  | cancel hk' hc =>
      refine stays_goto hk hdone hk' fun res hpc => ?_
      rw [hpc] at hc
      cases hc
  | elapse | redisElapse | tickNothing hw he | plan hp | note hw hb ht hl | sweep hw hc | release hw hc => exact hk

/-- The token that is counted is gone from the bucket, and the call is answered. -/
theorem spender_takes {a : Action ι IpAddr} (h : s.spender a = some t) (hs : s.next cfg a = some s') : ∃ k bk,
    s.tasks t = some k ∧ (s.insts k.inst).store.buckets.get k.id = some bk ∧ 0 < bk.tokens ∧
      (s'.insts k.inst).store.buckets.get k.id = some { bk with tokens := bk.tokens - 1 } ∧
      s'.tasks t = some { k with pc := .done (.ok (bk.tokens - 1)) } := by
  obtain ⟨k, bk, rfl, hk, hpc, hb, hl, ht⟩ := spender_eq_some h
  have hlive : (s.insts k.inst).now < bk.expiresAt := by simpa using hl
  have hrun : s' = s.takeToken t k := by simpa [next, run, hk, hpc] using hs.symm
  rw [hrun, takeToken, Store.take_live hb hlive]
  simp only [hb, ht]
  refine ⟨k, bk, hk, hb, by simpa using ht, ?_, goto_tasks_self ..⟩
  simp [hb, Bucket.consume_snd]

theorem spender_of_granted {a : Action ι IpAddr} {left : Nat} (hs : Step cfg s a s') (hk : s'.tasks t = some k)
    (hdone : k.pc = .done (.ok left)) (hleft : 0 < left) : s.tasks t = some k ∨ s.spender a = some t := by
  have hgoto {s₁ : Sys ι IpAddr} {t₀ : Nat} {k₀ : Task ι IpAddr} {pc : Pc IpAddr} (hk : (s₁.goto t₀ k₀ pc).tasks t = some k)
      (hpc : pc = .done (.ok left) → left = 0) (htasks : s₁.tasks = s.tasks := by rfl) : s.tasks t = some k := by
    rcases goto_tasks_cases hk with ⟨-, rfl⟩ | ⟨-, hold⟩
    · exact absurd (hpc hdone) (Nat.ne_of_gt hleft)
    · exact htasks ▸ hold
  cases hs with
  | spawn | claim | script | unreachable | refusedAbsent | refused | insert | unclaim | cancel | orphan =>
      exact .inl (hgoto hk (by simp))
  | move hk' hm =>
      refine .inl (hgoto hk ?_)
      cases hm <;> simp
  | rejected => exact .inl (hgoto hk (by simp))
  | takeAbsent | takeEmpty | remove => exact .inl (hgoto hk (by simp [eq_comm]))
  | @unclaimNone _ _ _ res | @notify _ _ _ res =>
      cases res with
      | ok _ => exact .inl (hgoto hk (by simp))
      | error e => exact .inl (hgoto hk (by simp))
  | elapse | redisElapse | tickNothing | plan | note | sweep | release => exact .inl hk
  | @spend t' k' bk hk' hpc hb hl ht =>
      rcases goto_tasks_cases hk with ⟨rfl, -⟩ | ⟨-, hold⟩
      · exact .inr (by simp [spender, hk', hpc, hb, hl, ht])
      · exact .inl hold

/-- And no other token goes: a bucket that the step does not take a token from keeps them all, unless it is removed or
replaced. -/
theorem tokens_kept {a : Action ι IpAddr} (hs : Step cfg s a s')
    (hno : ∀ t k, s.spender a = some t → s.tasks t = some k → ¬(i = k.inst ∧ b = k.id)) : s.TokensKept s' i b := by
  cases hs with
  | spawn | move | rejected | script | unreachable | refusedAbsent | takeAbsent | cancel | orphan | redisElapse
  | tickNothing => exact .same rfl
  | notify => exact .same (resume_insts ..)
  | claim | unclaim | elapse | plan | note | release => exact .frame rfl fun _ hb => hb
  | unclaimNone => exact .frame (resume_insts ..) fun _ hb => hb
  | remove | sweep => exact .frame rfl fun _ hb => (DashMap.get_remove_eq_some.mp hb).2
  | refused => exact .modify rfl fun _ _ _ _ => rfl
  | @insert t k n g leased ttl window hk hpc hleased =>
      apply TokensKept.update rfl
      intro _ bk bk' hb hb' hversion
      rcases DashMap.get_insert_eq_some.mp hb' with ⟨rfl, -⟩ | ⟨-, hold⟩
      · simp at hversion
      · rw [hold] at hb
        rw [Option.some.inj hb]
  | @takeEmpty t k bk hk hpc hb hl ht =>
      apply TokensKept.modify rfl
      intro _ _ bk' hb'
      rw [hb] at hb'
      obtain rfl := Option.some.inj hb'
      rw [Bucket.consume_of_isEmpty ht]
  | @spend t k bk hk hpc hb hl ht =>
      have hspender : s.spender (.run t) = some t := by simp [spender, hk, hpc, hb, hl, ht]
      apply TokensKept.modify rfl
      intro hi hid
      exact absurd ⟨hi, hid⟩ (hno t k hspender hk)

/-- A refill that nothing gets in the way of, from the check of its task until the lease is there. -/
theorem leased_exec {i : ι} {b : BucketId IpAddr} {L : Ledger ι IpAddr} {r : Leased} {reply : LeaseReply}
    (hk : s.tasks t = some ⟨i, b, .check⟩) (hb : (s.insts i).store.buckets.get b = none)
    (hfree : (s.insts i).store.refills.get b = none) (hl : s.ledger.lease cfg i b = (.ok reply, L))
    (hr : reply.decode = .ok r) : ∃ s' g,
      (sys cfg).exec s [.run t, .run t, .run t, .eval t .answers, .run t] = some s' ∧
      s'.tasks t = some ⟨i, b, .leased s.nextNotify g r.leased (fromMillis r.pttl) r.window⟩ ∧
      s'.insts i = { s.insts i with store := (s.insts i).store.claim b s.nextNotify } := by
  have hcheck : (s.insts i).store.check (s.insts i).now b = .ok false := Store.check_of_absent hb _
  simp [System.exec, sys, next, run, hk, hcheck, goto, hfree, eval, setInst, hl, hr, Except.mapError, Except.bind, leaseTtl]

theorem settled_exec (cfg : Config) {i : ι} {b : BucketId IpAddr} {n : Notify} {g m ttl : Nat} {window : Int}
    (hk : s.tasks t = some ⟨i, b, .leased n g m ttl window⟩) (hclaimed : (s.insts i).store.refills.get b = some n)
    (hpos : 0 < m) : ∃ s', (sys cfg).exec s [.run t, .run t, .run t] = some s' ∧ s'.tasks t = some ⟨i, b, .take⟩ ∧
      (s'.insts i).now = (s.insts i).now ∧
      (s'.insts i).store.buckets.get b = some (.new (s.insts i).now m ttl window) := by
  simp [System.exec, sys, next, run, hk, goto, hclaimed, setInst, settle, Store.leased_pos hpos, Nat.ne_of_gt hpos,
    Store.unclaim, resume]

end Sys

theorem ledger_opens [ToString IpAddr] {cfg : Config} (i : ι) (b : BucketId IpAddr)
    (hgrantable : (cfg.policy b).Grantable) :
    ∃ reply L, (Ledger.start 0 : Ledger ι IpAddr).lease cfg i b = (.ok reply, L) ∧
      reply.leased = (cfg.policy b).leaseSize ∧ 0 < reply.pttl := by
  obtain ⟨hpos, hrange⟩ := hgrantable
  obtain ⟨reply, server, hl⟩ := (Server.start 0).lease_answers b.toKey (cfg.policy b).leaseSize (cfg.policy b).quota
    fun _ => ⟨hpos, by simpa [Server.start] using hrange⟩
  refine ⟨reply, { server, grants := [Grant.new i b (server.epoch b.toKey) reply] }, ?_, ?_⟩
  · unfold Ledger.lease Ledger.start
    simp only [hl]
    rfl
  · rcases Server.lease_cases hl with ⟨-, -, rfl, -⟩ | ⟨e, hf, -⟩ | ⟨e, hf, -⟩
    · exact ⟨rfl, by simp only; omega⟩
    · cases hf
    · cases hf

section Results

variable [DecidableEq ι] [DecidableEq IpAddr] [ToString IpAddr] {cfg : Config} {p : Sys ι IpAddr × (Nat → Nat)}

/-- Without a window that `SETEX` accepts, the key never comes to be. -/
theorem ungranted {s : Account ι IpAddr} (hs : Reach (accounts cfg) s) {b : BucketId IpAddr}
    (hno : ¬(cfg.policy b).Grantable) : s.ledger.server.db b.toKey = none := by
  apply accounts_server (P := fun server => server.db b.toKey = none) _ _ _ _ hs
  · intro now
    rfl
  · intro server b' h
    by_cases hkey : b.toKey = b'.toKey
    · rcases hl : server.lease b'.toKey (cfg.policy b').leaseSize (cfg.policy b').quota
        (asSecs (cfg.policy b').resetIn) with ⟨e | r, server'⟩
      · rw [Server.lease_error hl]
        exact h
      · have hf : server.find b'.toKey = none := by
          rw [← hkey]
          simp [Server.find, Db.find, h]
        obtain ⟨hpos, hrange⟩ := Server.lease_range hf hl
        rw [← cfg.policy_congr hkey] at hpos hrange
        exact absurd ⟨hpos, Nat.lt_of_le_of_lt (Nat.le_add_right ..) hrange⟩ hno
    · rw [(server.lease_other _ _ _ hkey).1]
      exact h
  · intro server key tokens window hw h
    rcases server.release_cases key tokens hw with ⟨e, hf, -, hr⟩ | ⟨-, hr⟩
    · have hkey : b.toKey ≠ key := by
        rintro rfl
        rw [(Db.find_eq_some_iff.mp hf).1] at h
        cases h
      rw [hr]
      exact (Db.set_ne _ _ hkey).trans h
    · rw [hr]
      exact h
  · intro server ms h
    exact h

theorem grants {s : Sys ι IpAddr} (hs : Reach (sys cfg) s) : s.ledger.Grants cfg := by
  intro i b reply L r hl hr
  have haccount : Reach (accounts cfg) s.account := (account_simulation fun _ _ _ _ _ => trivial).reach hs
  obtain ⟨server, hserver, -⟩ := Ledger.lease_ok hl
  obtain ⟨-, -, rfl⟩ := LeaseReply.decode_eq_ok hr
  unfold Policy.granted
  split
  · rcases Server.lease_cases hserver with ⟨-, -, rfl, -⟩ | ⟨e, -, -, rfl, -⟩ | ⟨e, -, -, rfl, -⟩
    all_goals
      simp only
      omega
  · next hno =>
      have hdb : s.ledger.server.db b.toKey = none := ungranted haccount hno
      have hf : s.ledger.server.find b.toKey = none := by simp [Server.find, Db.find, hdb]
      obtain ⟨hpos, hrange⟩ := Server.lease_range hf hserver
      exact absurd ⟨hpos, Nat.lt_of_le_of_lt (Nat.le_add_right ..) hrange⟩ hno

theorem taken_by_done (hp : Reach (metered cfg) p) {t : Nat} (ht : p.2 t ≠ 0) :
    ∃ k left, p.1.tasks t = some k ∧ k.pc = .done (.ok left) := by
  refine ReachWhen.invariant (I := fun p => ∀ t, p.2 t ≠ 0 → ∃ k left, p.1.tasks t = some k ∧
    k.pc = .done (.ok left)) ?_ ?_ hp t ht
  · rintro ⟨s, taken⟩ ⟨-, htaken⟩ t ht
    simp only at htaken
    exact absurd (congrFun htaken t) ht
  · intro p a p' _ h _ hnext t ht
    obtain ⟨s', hs', rfl⟩ := Option.map_eq_some_iff.mp hnext
    have hkeep (hold : p.2 t ≠ 0) : ∃ k left, s'.tasks t = some k ∧ k.pc = .done (.ok left) := by
      obtain ⟨k, left, hk, hdone⟩ := h t hold
      exact ⟨k, left, Sys.done_stays hk hdone (Sys.step_of_next hs'), hdone⟩
    cases hspender : p.1.spender a with
    | none => exact hkeep (by simpa [hspender] using ht)
    | some t' =>
        by_cases htt : t = t'
        · subst htt
          obtain ⟨k, bk, -, -, -, -, hdone⟩ := Sys.spender_takes hspender hs'
          exact ⟨_, _, hdone, rfl⟩
        · exact hkeep (by simpa [hspender, htt] using ht)

/-- A call takes one token at most, and has taken it if it was told of others that are left. -/
theorem taken_once (hp : Reach (metered cfg) p) (t : Nat) :
    p.2 t ≤ 1 ∧ ∀ k left, p.1.tasks t = some k → k.pc = .done (.ok left) → 0 < left → p.2 t = 1 := by
  refine ReachWhen.invariant (I := fun p => ∀ t, p.2 t ≤ 1 ∧ ∀ k left, p.1.tasks t = some k →
    k.pc = .done (.ok left) → 0 < left → p.2 t = 1) ?_ ?_ hp t
  · rintro ⟨s, taken⟩ ⟨⟨clock, now, rfl⟩, htaken⟩ t
    simp only at htaken
    exact ⟨by simp [htaken], by simp [Sys.start]⟩
  · intro p a p' hr h _ hnext t
    obtain ⟨s', hs', rfl⟩ := Option.map_eq_some_iff.mp hnext
    have hstep := Sys.step_of_next hs'
    have hsame (hne : p.1.spender a ≠ some t) : (p.1.spender a).elim p.2 (fun t => Function.update p.2 t (p.2 t + 1)) t = p.2 t := by
      cases hspender : p.1.spender a with
      | none => rfl
      | some t' => exact Function.update_of_ne (fun htt => hne (by rw [hspender, htt])) ..
    by_cases hspender : p.1.spender a = some t
    · have hnone : p.2 t = 0 := by
        by_contra hpos
        obtain ⟨k, left, hk, hdone⟩ := taken_by_done hr hpos
        obtain ⟨k', bk, -, hk', hpc, -⟩ := Sys.spender_eq_some hspender
        obtain rfl := Option.some.inj (hk.symm.trans hk')
        rw [hdone] at hpc
        cases hpc
      simp [hspender, hnone]
    · simp only [hsame hspender]
      refine ⟨(h t).1, fun k left hk hdone hleft => ?_⟩
      rcases Sys.spender_of_granted hstep hk hdone hleft with hold | hspent
      · exact (h t).2 k left hold hdone hleft
      · exact absurd hspent hspender

theorem metered_exec {s s' : Sys ι IpAddr} {as : List (Action ι IpAddr)} (h : (sys cfg).exec s as = some s')
    (m : Nat → Nat) : ∃ m', (metered cfg).exec (s, m) as = some (s', m') := by
  induction as generalizing s m with
  | nil =>
      cases h
      exact ⟨m, rfl⟩
  | cons a as ih =>
      rw [System.exec_cons, Option.bind_eq_some_iff] at h
      obtain ⟨s₁, hs₁, h⟩ := h
      have hs₁ : s.next cfg a = some s₁ := hs₁
      simp only [System.exec_cons, metered, hs₁, Option.map_some, Option.bind_some]
      exact ih h _

theorem metered_take {t : Nat} {i : ι} {b : BucketId IpAddr} {bk : Bucket}
    (hk : p.1.tasks t = some ⟨i, b, .take⟩) (hb : (p.1.insts i).store.buckets.get b = some bk)
    (hlive : (p.1.insts i).now < bk.expiresAt) (ht : 0 < bk.tokens) :
    ∃ p', (metered cfg).next p (.run t) = some p' ∧ p'.1.tasks t = some ⟨i, b, .done (.ok (bk.tokens - 1))⟩ ∧
      p'.2 t = p.2 t + 1 := by
  have hspender : p.1.spender (.run t) = some t := by simp [Sys.spender, hk, hb, hlive, ht]
  have hnext : p.1.next cfg (.run t) = some (p.1.takeToken t ⟨i, b, .take⟩) := by simp [Sys.next, Sys.run, hk]
  obtain ⟨k, bk', hk', hb', -, -, hdone⟩ := Sys.spender_takes hspender hnext
  obtain rfl := Option.some.inj (hk.symm.trans hk')
  obtain rfl := Option.some.inj (hb.symm.trans hb')
  refine ⟨_, by simp only [metered, hnext, hspender, Option.map_some, Option.elim_some]; rfl, hdone, ?_⟩
  exact Function.update_self ..

theorem first_call_takes (i : ι) (b : BucketId IpAddr) (hgrantable : (cfg.policy b).Grantable) :
    ∃ p : Sys ι IpAddr × (Nat → Nat), Reach (metered cfg) p ∧
      p.1.tasks 0 = some ⟨i, b, .done (.ok ((cfg.policy b).leaseSize - 1))⟩ ∧ p.2 0 ≠ 0 := by
  obtain ⟨reply, L, hl, hleased, hpttl⟩ := ledger_opens i b hgrantable
  have hsize := (cfg.policy b).leaseSize_pos
  have hdecode : reply.decode = .ok ⟨reply.leased.toNat, reply.pttl.toNat, reply.window⟩ :=
    LeaseReply.decode_of_nonneg reply.window (by omega) (by omega)
  have htokens : reply.leased.toNat = (cfg.policy b).leaseSize := by omega
  have hlive : 0 < fromMillis reply.pttl.toNat := by
    unfold fromMillis
    omega
  let s₀ : Sys ι IpAddr := Sys.start cfg (fun _ => 0) 0
  have hspawn : Reach (metered cfg) (s₀.goto 0 ⟨i, b, .check⟩ .check, fun _ => 0) := by
    have hinit : (metered cfg).init (s₀, fun _ => 0) := ⟨⟨_, _, rfl⟩, rfl⟩
    have hnext : (metered cfg).next (s₀, fun _ => 0) (.spawn 0 i b) =
      some (s₀.goto 0 ⟨i, b, .check⟩ .check, fun _ => 0) := rfl
    exact .step (.init hinit) trivial hnext
  have hcheck : (s₀.goto 0 ⟨i, b, .check⟩ .check).tasks 0 = some ⟨i, b, .check⟩ := Sys.goto_tasks_self ..
  obtain ⟨s₁, g, hexec₁, hk₁, hinst₁⟩ := Sys.leased_exec hcheck rfl rfl hl hdecode
  have hclaimed : (s₁.insts i).store.refills.get b = some s₀.nextNotify := by
    rw [hinst₁]
    exact DashMap.get_insert_self ..
  obtain ⟨s₂, hexec₂, hk₂, hnow, hb⟩ := Sys.settled_exec cfg hk₁ hclaimed (by simp only; omega)
  obtain ⟨m₁, hmetered₁⟩ := metered_exec hexec₁ fun _ => 0
  obtain ⟨m₂, hmetered₂⟩ := metered_exec hexec₂ m₁
  have hlive : (s₂.insts i).now < (s₁.insts i).now + fromMillis reply.pttl.toNat := by
    rw [hnow]
    exact Nat.lt_add_of_pos_right hlive
  obtain ⟨p, hnext, hdone, hcount⟩ := metered_take (p := (s₂, m₂)) hk₂ hb hlive (by simp only [Bucket.new]; omega)
  refine ⟨p, .step (Reach.exec (Reach.exec hspawn _ hmetered₁) _ hmetered₂) trivial hnext, ?_, by omega⟩
  rw [hdone]
  simp only [Bucket.new, htokens]

end Results

end ThatLimit
