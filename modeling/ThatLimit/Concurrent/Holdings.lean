import ThatLimit.Concurrent.Admission
import ThatLimit.Concurrent.LiveTokens
/-!
# Where the unspent tokens are

As long as no token is thrown away, what is left of a grant is in the bucket of its
instance or on its way there. An instance has one such grant of an id at a time, since
it asks for the next when the bucket is empty and nobody else is asking.
-/

namespace ThatLimit

open Transition Tally SingleFlight

variable {ι IpAddr : Type}

theorem Pc.refills_of_pending {pc : Pc IpAddr} {p : Nat × Nat × Int} (h : pc.pending = some p) : pc.refills = true := by
  cases pc <;> simp_all [Pc.pending, Pc.refills]

section Leases

variable [ToString IpAddr]

theorem Ledger.Balanced.decodes {cfg : Config} {L L' : Ledger ι IpAddr} (h : L.Balanced cfg) {i : ι} {b : BucketId IpAddr}
    {reply : LeaseReply} (hl : L.lease cfg i b = (.ok reply, L')) : ∃ r, reply.decode = .ok r := by
  obtain ⟨server, hserver, -⟩ := lease_ok hl
  have hpttl (e : Entry) (hf : L.server.find b.toKey = some e) : 0 ≤ e.pttl L.server.now := by
    obtain ⟨hdb, hlive⟩ := Db.find_eq_some_iff.mp hf
    obtain ⟨w, hw, -⟩ := h.stored b e hdb
    simp only [Entry.live, hw, decide_eq_true_eq] at hlive
    simp only [Entry.pttl, hw]
    omega
  rcases Server.lease_cases hserver with ⟨-, -, rfl, -⟩ | ⟨e, hf, -, rfl, -⟩ | ⟨e, hf, hpos, rfl, -⟩
  · exact ⟨_, LeaseReply.decode_of_nonneg _ (by omega) (by omega)⟩
  · exact ⟨_, LeaseReply.decode_of_nonneg _ (by omega) (hpttl e hf)⟩
  · exact ⟨_, LeaseReply.decode_of_nonneg _ (by omega) (hpttl e hf)⟩

theorem Ledger.lease_error {cfg : Config} {L L' : Ledger ι IpAddr} {i : ι} {b : BucketId IpAddr} {e : RedisError}
    (hl : L.lease cfg i b = (.error e, L')) : L'.grants = L.grants := by
  unfold Ledger.lease at hl
  split at hl
  · cases hl
    rfl
  · cases hl

end Leases

variable [DecidableEq IpAddr]

/-- The instance holds no token of the id, expired or not. -/
def Inst.dry (v : Inst IpAddr) (b : BucketId IpAddr) : Bool := (v.store.buckets.get b).all Bucket.isEmpty

theorem Inst.dry_iff {v : Inst IpAddr} {b : BucketId IpAddr} :
    v.dry b = true ↔ ∀ bk, v.store.buckets.get b = some bk → bk.tokens = 0 := by
  simp [Inst.dry, Option.all_eq_true]

/-- What instance `i` has left of the grant, when it is one of bucket `b`. -/
def Grant.unspentOn [DecidableEq ι] (i : ι) (b : BucketId IpAddr) (x : Grant ι IpAddr) : Nat :=
  if x.inst = i then if x.id = b then x.tokens - x.spent else 0 else 0

namespace Sys

/-- No token is thrown away: an entry is claimed and a bucket is removed when the bucket is empty, the reply to a
lease reaches its task, and no instance shuts down. -/
def keepsTokens (s : Sys ι IpAddr) : Action ι IpAddr → Bool
  | .run t => (s.tasks t).all fun k =>
      match k.pc with
      | .entry _ => ((s.insts k.inst).store.refills.get k.id).isSome || (s.insts k.inst).dry k.id
      | .expired => (s.insts k.inst).dry k.id
      | _ => true
  | .eval _ (.replyLost _) => false
  | .cancel t => (s.tasks t).all fun k =>
      match k.pc with
      | .eval .. | .reply .. => false
      | _ => true
  | .sweep i c =>
      match (s.insts i).worker with
      | .sweeping chunks => (chunks[c]?).all fun chunk => chunk.head?.all (s.insts i).dry
      | _ => true
  | .shutdown .. => false
  | _ => true

/-- The tokens of grant `g` are in bucket `b` of instance `i`, or with a task that will put them there. -/
def HasGrant (s : Sys ι IpAddr) (g : Nat) (i : ι) (b : BucketId IpAddr) : Prop :=
  ((s.insts i).store.buckets.get b).isSome = true ∧ (s.insts i).origin b = g ∨
  ∃ t k m w, s.tasks t = some k ∧ k.inst = i ∧ k.id = b ∧ k.pc.pending = some (g, m, w)

structure Stocked (s : Sys ι IpAddr) : Prop where
  working : ∀ i, (s.insts i).worker.shutsDown = false
  /-- No script is on its way whose reply nobody waits for. -/
  awaited : ∀ t k, s.tasks t = some k → k.pc ≠ .dropped true
  claimed : ∀ t k, s.tasks t = some k → k.pc.refills = true → (s.insts k.inst).dry k.id = true
  kept : ∀ (g : Nat) x, s.ledger.grants[g]? = some x → x.spent < x.tokens → s.HasGrant g x.inst x.id

/-- No bucket with tokens goes, and none gets any. -/
structure Calm (s s' : Sys ι IpAddr) : Prop where
  working : ∀ i, (s'.insts i).worker.shutsDown = false
  dry : ∀ i b, (s.insts i).dry b = true → (s'.insts i).dry b = true
  held : ∀ i b bk, (s.insts i).store.buckets.get b = some bk → 0 < bk.tokens →
    ((s'.insts i).store.buckets.get b).isSome = true ∧ (s'.insts i).origin b = (s.insts i).origin b

variable {s s' s₁ : Sys ι IpAddr} {t : Nat} {k : Task ι IpAddr} {pc : Pc IpAddr} {cfg : Config}

theorem Stocked.calm_same (h : s.Stocked) (hinsts : s'.insts = s.insts := by rfl) : s.Calm s' :=
  ⟨fun i => hinsts ▸ h.working i, fun i b hd => hinsts ▸ hd, fun i b bk hb _ => by rw [hinsts, hb]; exact ⟨rfl, rfl⟩⟩

/-- Unspent grants are old ones, or accounted for. -/
def GrantsFrom (s s' : Sys ι IpAddr) : Prop :=
  ∀ (g : Nat) x', s'.ledger.grants[g]? = some x' → x'.spent < x'.tokens → s'.HasGrant g x'.inst x'.id ∨
    ∃ x, s.ledger.grants[g]? = some x ∧ x.inst = x'.inst ∧ x.id = x'.id ∧ x.spent < x.tokens

theorem grantsFrom_same (hledger : s'.ledger.grants = s.ledger.grants) : s.GrantsFrom s' :=
  fun _ x' hx' hunspent => .inr ⟨x', hledger ▸ hx', rfl, rfl, hunspent⟩

theorem grantsFrom_amend {g : Nat} {f : Grant ι IpAddr → Grant ι IpAddr} (hledger : s'.ledger = s.ledger.amend g f)
    (hf : ∀ x, (f x).inst = x.inst ∧ (f x).id = x.id ∧ (f x).tokens = x.tokens ∧ x.spent ≤ (f x).spent) :
    s.GrantsFrom s' := by
  intro g' x' hx' hunspent
  rw [hledger, Ledger.getElem?_amend] at hx'
  obtain ⟨x, hx, rfl⟩ := Option.map_eq_some_iff.mp hx'
  right
  refine ⟨x, hx, ?_⟩
  split at hunspent
  · next hg =>
      obtain ⟨hinst, hid, htokens, hspent⟩ := hf x
      simp only [if_pos hg, hinst, hid, true_and]
      omega
  · next hg => simpa only [if_neg hg, true_and] using hunspent

theorem refiller_unique (hex : Exclusive s.flight) {t' : Nat} {k' : Task ι IpAddr} (hk : s.tasks t = some k)
    (hk' : s.tasks t' = some k') (hr : k.pc.refills = true) (hr' : k'.pc.refills = true) (hi : k.inst = k'.inst)
    (hb : k.id = k'.id) : t = t' := by
  obtain ⟨n, hn⟩ := Pc.leads_of_refills hr
  obtain ⟨n', hn'⟩ := Pc.leads_of_refills hr'
  have hrole : s.flight.role t = .leader (k'.inst, k'.id) n := by
    rw [flight_role hk]
    exact Task.role_eq_leader.mpr ⟨by rw [hi, hb], hn⟩
  have hrole' : s.flight.role t' = .leader (k'.inst, k'.id) n' := by
    rw [flight_role hk']
    exact Task.role_eq_leader.mpr ⟨rfl, hn'⟩
  exact hex.unique hrole hrole'

section Replies

variable [ToString IpAddr]

theorem eval_arrives {link : Link} (hv : s.account.Valid cfg) (hlink : s.keepsTokens (.eval t link) = true)
    (hs : s.eval cfg t link = some s') : ∃ k n started res L, s.tasks t = some k ∧ k.pc = .eval n started ∧
      s' = { s with ledger := L }.goto t k (.reply n started res s.ledger.grants.length) ∧
      ((∃ e, res = .error e) ∧ L.grants = s.ledger.grants ∨
        ∃ reply r, s.ledger.lease cfg k.inst k.id = (.ok reply, L) ∧ reply.decode = .ok r ∧ res = .ok r) := by
  unfold eval at hs
  split at hs
  · cases hs
  · next k hk =>
      split at hs
      · next n started hpc =>
          cases link with
          | answers =>
              rcases hl : s.ledger.lease cfg k.inst k.id with ⟨e | reply, L⟩
              · rw [hl] at hs
                cases hs
                exact ⟨k, n, started, _, L, hk, hpc, rfl, .inl ⟨⟨_, rfl⟩, Ledger.lease_error hl⟩⟩
              · obtain ⟨r, hr⟩ := hv.balanced.decodes hl
                rw [hl] at hs
                cases hs
                exact ⟨k, n, started, _, L, hk, hpc, rfl, .inr ⟨reply, r, hl, hr, hr⟩⟩
          | replyLost e => cases hlink
          | unreachable e =>
              cases hs
              exact ⟨k, n, started, _, s.ledger, hk, hpc, rfl, .inl ⟨⟨_, rfl⟩, rfl⟩⟩
      · cases hs

/-- While a task refills an id, what its instance has of the id is on its way to this task. -/
theorem Stocked.pending_of_refills (h : s.Stocked) (hv : s.account.Valid cfg) (hex : Exclusive s.flight)
    (hk : s.tasks t = some k) (hr : k.pc.refills = true) {g : Nat} {x : Grant ι IpAddr}
    (hx : s.ledger.grants[g]? = some x) (hi : x.inst = k.inst) (hb : x.id = k.id) (hunspent : x.spent < x.tokens) :
    ∃ m w, k.pc.pending = some (g, m, w) := by
  rcases h.kept g x hx hunspent with ⟨hheld, rfl⟩ | ⟨t', k', m, w, hk', hi', hb', hp⟩
  · -- the bucket of the grant is empty
    obtain ⟨bk, hbk⟩ := Option.isSome_iff_exists.mp hheld
    obtain ⟨y, hy, -, -, -, htokens⟩ := hv.lots x.inst x.id ⟨bk.tokens, (s.insts x.inst).origin x.id⟩
      (by simp [account, hbk])
    obtain rfl := Option.some.inj (hx.symm.trans hy)
    have hzero : bk.tokens = 0 := Inst.dry_iff.mp (h.claimed t k hk hr) bk (hi ▸ hb ▸ hbk)
    simp only [hzero] at htokens
    omega
  · have hr' := Pc.refills_of_pending hp
    obtain rfl := refiller_unique hex hk' hk hr' hr (hi'.trans hi) (hb'.trans hb)
    obtain rfl := Option.some.inj (hk.symm.trans hk')
    exact ⟨m, w, hp⟩

end Replies

variable [DecidableEq ι]

theorem Stocked.calm_update (h : s.Stocked) {i : ι} {v : Inst IpAddr} (hinsts : s'.insts = Function.update s.insts i v)
    (hv : v.worker.shutsDown = false) (hdry : ∀ b, (s.insts i).dry b = true → v.dry b = true)
    (hheld : ∀ b bk, (s.insts i).store.buckets.get b = some bk → 0 < bk.tokens →
      (v.store.buckets.get b).isSome = true ∧ v.origin b = (s.insts i).origin b) : s.Calm s' := by
  refine ⟨?_, ?_, ?_⟩
  · rw [hinsts]
    exact (Function.forall_update_iff s.insts fun _ v => v.worker.shutsDown = false).mpr ⟨hv, fun j _ => h.working j⟩
  · intro j b hd
    rw [hinsts]
    by_cases hj : j = i
    · subst hj
      simpa using hdry b hd
    · simpa [hj] using hd
  · intro j b bk hb hpos
    rw [hinsts]
    by_cases hj : j = i
    · subst hj
      simpa using hheld b bk hb hpos
    · simp [hj, hb]

theorem Stocked.calm_keep (h : s.Stocked) {i : ι} {v : Inst IpAddr} (hinsts : s'.insts = Function.update s.insts i v)
    (hv : v.worker.shutsDown = false) (hbuckets : v.store.buckets = (s.insts i).store.buckets := by rfl)
    (horigin : v.origin = (s.insts i).origin := by rfl) : s.Calm s' := by
  refine h.calm_update hinsts hv (fun b hd => ?_) fun b bk hb _ => ?_
  · rw [Inst.dry, hbuckets]
    exact hd
  · rw [hbuckets, hb, horigin]
    exact ⟨rfl, rfl⟩

theorem Stocked.calm_modify (h : s.Stocked) (i : ι) (b : BucketId IpAddr) {f : Bucket → Bucket}
    (hf : ∀ bk, (f bk).tokens ≤ bk.tokens) : s.Calm (s.modifyBucket i b f) := by
  refine h.calm_update rfl (h.working i) (fun b' hd => ?_) fun b' bk hb _ => ⟨?_, rfl⟩
  · rw [Inst.dry_iff] at hd ⊢
    intro bk hb
    obtain ⟨bk₀, hb₀, ⟨-, rfl⟩ | ⟨-, rfl⟩⟩ := DashMap.get_modify_eq_some.mp hb
    · exact Nat.le_zero.mp (hd bk₀ hb₀ ▸ hf bk₀)
    · exact hd _ hb₀
  · simp only [DashMap.get_modify]
    split
    · next hid =>
        subst hid
        simp [hb]
    · simp [hb]

theorem Stocked.calm_remove (h : s.Stocked) {i : ι} {b : BucketId IpAddr} (hb : (s.insts i).dry b = true)
    (worker : Worker IpAddr) (hworker : worker.shutsDown = false) :
    s.Calm (s.setInst i { s.insts i with store := (s.insts i).store.removeBucket b, worker }) := by
  refine h.calm_update rfl hworker (fun b' hd => ?_) fun b' bk hb' hpos => ?_
  · rw [Inst.dry_iff] at hd ⊢
    exact fun bk hb' => hd bk (DashMap.get_remove_eq_some.mp hb').2
  · have hne : b' ≠ b := by
      rintro rfl
      exact Nat.ne_of_gt hpos (Inst.dry_iff.mp hb bk hb')
    simp [Store.removeBucket, hne, hb']

theorem unspentOn_pos {i : ι} {b : BucketId IpAddr} {x : Grant ι IpAddr} (h : 0 < x.unspentOn i b) :
    x.inst = i ∧ x.id = b ∧ x.spent < x.tokens := by
  unfold Grant.unspentOn at h
  split_ifs at h with hi hb
  · exact ⟨hi, hb, by omega⟩
  · cases h
  · cases h

variable [ToString IpAddr]

/-- Of what is unspent afterwards, each grant is where it was or is accounted for anew. -/
theorem Stocked.carry (h : s.Stocked) (hbooks : s.Books) (hv : s.account.Valid cfg)
    (hheld : ∀ i b bk, (s.insts i).store.buckets.get b = some bk → 0 < bk.tokens →
      s'.HasGrant ((s.insts i).origin b) i b)
    (hcoming : ∀ t k g m w, s.tasks t = some k → k.pc.pending = some (g, m, w) → 0 < m → s'.HasGrant g k.inst k.id)
    (hgrants : ∀ (g : Nat) x', s'.ledger.grants[g]? = some x' → x'.spent < x'.tokens → s'.HasGrant g x'.inst x'.id ∨
      ∃ x, s.ledger.grants[g]? = some x ∧ x.inst = x'.inst ∧ x.id = x'.id ∧ x.spent < x.tokens) :
    ∀ (g : Nat) x', s'.ledger.grants[g]? = some x' → x'.spent < x'.tokens → s'.HasGrant g x'.inst x'.id := by
  intro g x' hx' hunspent'
  obtain hnew | ⟨x, hx, hinst, hid, hunspent⟩ := hgrants g x' hx' hunspent'
  · exact hnew
  · rw [← hinst, ← hid]
    rcases h.kept g x hx hunspent with ⟨hb, rfl⟩ | ⟨t, k, m, w, hk, hi, hb, hp⟩
    · obtain ⟨bk, hb⟩ := Option.isSome_iff_exists.mp hb
      obtain ⟨y, hy, -, -, -, htokens⟩ := hv.lots x.inst x.id ⟨bk.tokens, (s.insts x.inst).origin x.id⟩
        (by simp [account, hb])
      obtain rfl := Option.some.inj (hx.symm.trans hy)
      exact hheld x.inst x.id bk hb (by simp only at htokens; omega)
    · obtain ⟨y, hy, harrival⟩ := hbooks.pending t k g m w hk hp
      obtain rfl := Option.some.inj (hx.symm.trans hy)
      simp only [Grant.arrival, Prod.mk.injEq] at harrival
      rw [← hi, ← hb]
      exact hcoming t k g m w hk hp (by omega)

theorem Stocked.goto (h : s.Stocked) (hbooks : s.Books) (hv : s.account.Valid cfg) (hc : s.Calm s₁)
    (hpend : ∀ k₀ g m w, s.tasks t = some k₀ → k₀.pc.pending = some (g, m, w) → 0 < m →
      k.inst = k₀.inst ∧ k.id = k₀.id ∧ pc.pending = some (g, m, w))
    (hawait : pc ≠ .dropped true) (hclaim : pc.refills = true → (s₁.insts k.inst).dry k.id = true)
    (hgrants : s.GrantsFrom (s₁.goto t k pc)) (htasks : s₁.tasks = s.tasks := by rfl) : (s₁.goto t k pc).Stocked := by
  refine ⟨hc.working, ?_, ?_, h.carry hbooks hv ?_ ?_ hgrants⟩
  · intro t' k' hk'
    rcases goto_tasks_cases hk' with ⟨rfl, rfl⟩ | ⟨-, hold⟩
    · exact hawait
    · exact h.awaited t' k' (htasks ▸ hold)
  · intro t' k' hk' hpc
    rcases goto_tasks_cases hk' with ⟨rfl, rfl⟩ | ⟨-, hold⟩
    · exact hclaim hpc
    · exact hc.dry _ _ (h.claimed t' k' (htasks ▸ hold) hpc)
  · intro i b bk hb hpos
    exact .inl (hc.held i b bk hb hpos)
  · intro t' k' g m w hk' hp hpos
    right
    by_cases ht : t' = t
    · subst ht
      obtain ⟨hinst, hid, hp'⟩ := hpend k' g m w hk' hp hpos
      exact ⟨t', { k with pc }, m, w, goto_tasks_self .., hinst, hid, hp'⟩
    · exact ⟨t', k', m, w, by rw [goto_tasks_ne ht, htasks, hk'], rfl, rfl, hp⟩

theorem Stocked.move (h : s.Stocked) (hbooks : s.Books) (hv : s.account.Valid cfg) (hk : s.tasks t = some k)
    (hc : s.Calm s₁) (hpend : ∀ g m w, k.pc.pending = some (g, m, w) → 0 < m → pc.pending = some (g, m, w))
    (hawait : pc ≠ .dropped true) (hclaim : pc.refills = true → k.pc.refills = true)
    (hgrants : s.GrantsFrom (s₁.goto t k pc)) (htasks : s₁.tasks = s.tasks := by rfl) : (s₁.goto t k pc).Stocked := by
  refine h.goto hbooks hv hc ?_ hawait (fun hpc => hc.dry _ _ (h.claimed t k hk (hclaim hpc))) hgrants htasks
  intro k₀ g m w hk₀ hp hpos
  obtain rfl := Option.some.inj (hk.symm.trans hk₀)
  exact ⟨rfl, rfl, hpend g m w hp hpos⟩

theorem Stocked.answer (h : s.Stocked) (hbooks : s.Books) (hv : s.account.Valid cfg) (hk : s.tasks t = some k)
    (hc : s.Calm s₁) (hpend : k.pc.pending = none) {res} (hgrants : s.GrantsFrom (s₁.goto t k (.done res)))
    (htasks : s₁.tasks = s.tasks := by rfl) : (s₁.answer t k res).Stocked := by
  have hgoto : (s₁.goto t k (.done res)).Stocked :=
    h.move hbooks hv hk hc (by simp [hpend]) (by simp) (by simp [Pc.refills]) hgrants htasks
  exact ⟨hgoto.working, hgoto.awaited, hgoto.claimed, hgoto.kept⟩

theorem Stocked.resume (h : s.Stocked) (hbooks : s.Books) (hv : s.account.Valid cfg) (hk : s.tasks t = some k)
    (hc : s.Calm s₁) (hpend : k.pc.pending = none) {res} (hledger : s₁.ledger = s.ledger := by rfl)
    (htasks : s₁.tasks = s.tasks := by rfl) : (s₁.resume t k res).Stocked := by
  have hgrants (pc : Pc IpAddr) : s.GrantsFrom (s₁.goto t k pc) := grantsFrom_same (by rw [goto_ledger, hledger])
  cases res with
  | ok _ => exact h.move hbooks hv hk hc (by simp [hpend]) (by simp) (by simp [Pc.refills]) (hgrants _) htasks
  | error e => exact h.answer hbooks hv hk hc hpend (hgrants _) htasks

theorem Stocked.still (h : s.Stocked) (hbooks : s.Books) (hv : s.account.Valid cfg) (hc : s.Calm s')
    (htasks : s'.tasks = s.tasks := by rfl) (hledger : s'.ledger.grants = s.ledger.grants := by rfl) : s'.Stocked := by
  refine ⟨hc.working, fun t k hk => h.awaited t k (htasks ▸ hk),
    fun t k hk hpc => hc.dry _ _ (h.claimed t k (htasks ▸ hk) hpc), h.carry hbooks hv ?_ ?_ (grantsFrom_same hledger)⟩
  · intro i b bk hb hpos
    exact .inl (hc.held i b bk hb hpos)
  · intro t k g m w hk hp _
    exact .inr ⟨t, k, m, w, htasks ▸ hk, rfl, rfl, hp⟩

theorem Stocked.eval (h : s.Stocked) (hbooks : s.Books) (hv : s.account.Valid cfg) {link : Link}
    (hlink : s.keepsTokens (.eval t link) = true) (hs : s.eval cfg t link = some s') : s'.Stocked := by
  obtain ⟨k, n, started, res, L, hk, hpc, rfl, ⟨-, hL⟩ | ⟨reply, r, hl, hr, rfl⟩⟩ := eval_arrives hv hlink hs
  · exact h.move hbooks hv hk h.calm_same (by simp [hpc, Pc.pending]) (by simp) (by simp [hpc, Pc.refills])
      (grantsFrom_same hL)
  · refine h.move hbooks hv hk h.calm_same (by simp [hpc, Pc.pending]) (by simp) (by simp [hpc, Pc.refills]) ?_
    obtain ⟨server, -, rfl⟩ := Ledger.lease_ok hl
    intro g x' hx' hunspent
    rcases lt_or_ge g s.ledger.grants.length with hg | hg
    · right
      exact ⟨x', (List.getElem?_append_left hg).symm.trans hx', rfl, rfl, hunspent⟩
    · -- the new grant is on its way to the task that asked for it
      left
      have hx' : [Grant.new k.inst k.id (server.epoch k.id.toKey) reply][g - s.ledger.grants.length]? = some x' :=
        (List.getElem?_append_right hg).symm.trans hx'
      obtain rfl := List.mem_singleton.mp (List.mem_of_getElem? hx')
      have hlength := (List.getElem?_eq_some_iff.mp hx').1
      rw [List.length_singleton] at hlength
      obtain rfl : g = s.ledger.grants.length := by omega
      exact .inr ⟨t, _, r.leased, r.window, goto_tasks_self .., rfl, rfl, rfl⟩

/-- A lease arrives: nobody else refills its id, and what was there is used up. -/
theorem Stocked.insert (h : s.Stocked) (hbooks : s.Books) (hv : s.account.Valid cfg) (hex : Exclusive s.flight)
    (hk : s.tasks t = some k) {n : Notify} {g m ttl : Nat} {w : Int} (hpc : k.pc = .leased n g m ttl w) {res} :
    ((s.insertBucket k.inst k.id g (.new (s.insts k.inst).now m ttl w)).goto t k (.refilled n res)).Stocked := by
  have halone (t' : Nat) (k' : Task ι IpAddr) (hk' : s.tasks t' = some k') (hi : k'.inst = k.inst) (hb : k'.id = k.id)
      (hr : k'.pc.refills = true) : t' = t := refiller_unique hex hk' hk hr (by simp [hpc, Pc.refills]) hi hb
  have hdry := Inst.dry_iff.mp (h.claimed t k hk (by simp [hpc, Pc.refills]))
  have hother (i : ι) (b : BucketId IpAddr) (hib : ¬(i = k.inst ∧ b = k.id)) :
      ((s.insertBucket k.inst k.id g (.new (s.insts k.inst).now m ttl w)).insts i).store.buckets.get b =
        (s.insts i).store.buckets.get b ∧
      ((s.insertBucket k.inst k.id g (.new (s.insts k.inst).now m ttl w)).insts i).origin b = (s.insts i).origin b := by
    by_cases hi : i = k.inst
    · subst hi
      have hb : b ≠ k.id := fun hb => hib ⟨rfl, hb⟩
      simp [insertBucket, hb]
    · simp [insertBucket, hi]
  refine ⟨?_, ?_, ?_, h.carry hbooks hv ?_ ?_ (grantsFrom_amend rfl fun x => ⟨rfl, rfl, rfl, le_refl _⟩)⟩
  · intro i
    have hworker : ((s.insertBucket k.inst k.id g (.new (s.insts k.inst).now m ttl w)).insts i).worker =
        (s.insts i).worker := by
      refine worker_update rfl ?_ i
      rfl
    rw [goto_insts, hworker]
    exact h.working i
  · intro t' k' hk'
    rcases goto_tasks_cases hk' with ⟨-, rfl⟩ | ⟨-, hold⟩
    · simp
    · exact h.awaited t' k' hold
  · intro t' k' hk' hr
    rcases goto_tasks_cases hk' with ⟨-, rfl⟩ | ⟨ht, hold⟩
    · simp [Pc.refills] at hr
    · have hib : ¬(k'.inst = k.inst ∧ k'.id = k.id) := fun hib => ht (halone t' k' hold hib.1 hib.2 hr)
      rw [goto_insts, Inst.dry, (hother _ _ hib).1]
      exact h.claimed t' k' hold hr
  · intro i b bk hb hpos
    have hib : ¬(i = k.inst ∧ b = k.id) := by
      rintro ⟨rfl, rfl⟩
      exact Nat.ne_of_gt hpos (hdry bk hb)
    left
    rw [goto_insts, (hother i b hib).1, (hother i b hib).2, hb]
    exact ⟨rfl, rfl⟩
  · intro t' k' g' m' w' hk' hp _
    by_cases ht : t' = t
    · subst ht
      obtain rfl := Option.some.inj (hk.symm.trans hk')
      simp only [hpc, Pc.pending, Option.some.injEq, Prod.mk.injEq] at hp
      obtain ⟨rfl, -, -⟩ := hp
      left
      simp [insertBucket]
    · exact .inr ⟨t', k', m', w', (goto_tasks_ne ht _).trans hk', rfl, rfl, hp⟩

theorem Stocked.step {a : Action ι IpAddr} (h : s.Stocked) (hbooks : s.Books) (hv : s.account.Valid cfg)
    (hex : Exclusive s.flight) (hg : s.keepsTokens a = true) (hs : Step cfg s a s') (hnext : s.next cfg a = some s') :
    s'.Stocked := by
  cases hs with
  | spawn ht =>
      refine h.goto hbooks hv h.calm_same ?_ (by simp) (by simp [Pc.refills]) (grantsFrom_same rfl)
      simp [ht]
  | @move t k pc hk hm =>
      refine h.move hbooks hv hk h.calm_same ?_ ?_ ?_ (grantsFrom_same rfl)
      · cases hm with
        | replied hpc => simp [hpc, Pc.pending]
        | checkPassed hpc _ | checkSpent hpc _ | occupied hpc _ | started hpc | failed hpc | registered hpc | woken hpc _
        | expired hpc _ => simp [hpc, Pc.pending]
      · cases hm <;> simp
      · cases hm with
        | started hpc | replied hpc => simp [hpc, Pc.refills]
        | _ => simp [Pc.refills]
  | rejected hk hpc hc => exact h.answer hbooks hv hk h.calm_same (by simp [hpc, Pc.pending]) (grantsFrom_same rfl)
  | @claim t k seen hk hpc hc =>
      have hdry : (s.insts k.inst).dry k.id = true := by simpa [keepsTokens, hk, hpc, hc] using hg
      refine h.goto hbooks hv (h.calm_keep rfl (h.working k.inst)) ?_ (by simp) (fun _ => ?_) (grantsFrom_same rfl)
      · intro k₀ g m w hk₀ hp
        obtain rfl := Option.some.inj (hk.symm.trans hk₀)
        simp [hpc, Pc.pending] at hp
      · simpa [Inst.dry, Store.claim] using hdry
  | script hk hpc hc | unreachable hk hpc => exact h.eval hbooks hv hg hnext
  | refusedAbsent hk hpc hb =>
      refine h.move hbooks hv hk h.calm_same ?_ (by simp) (by simp [Pc.refills]) (grantsFrom_same rfl)
      rintro g m w hp hpos
      simp only [hpc, Pc.pending, Option.some.injEq, Prod.mk.injEq] at hp
      omega
  | refused hk hpc hb =>
      refine h.move hbooks hv hk (h.calm_modify _ _ fun bk => Nat.le_refl _) ?_ (by simp) (by simp [Pc.refills])
        (grantsFrom_same rfl)
      rintro g m w hp hpos
      simp only [hpc, Pc.pending, Option.some.injEq, Prod.mk.injEq] at hp
      omega
  | insert hk hpc hpos => exact h.insert hbooks hv hex hk hpc
  | @unclaim t k n n' res hk hpc hc =>
      exact h.move hbooks hv hk (h.calm_keep rfl (h.working k.inst)) (by simp [hpc, Pc.pending]) (by simp)
        (by simp [Pc.refills]) (grantsFrom_same rfl)
  | @unclaimNone t k n res hk hpc hc =>
      exact h.resume hbooks hv hk (h.calm_keep rfl (by exact h.working k.inst)) (by simp [hpc, Pc.pending])
  | notify hk hpc => exact h.resume hbooks hv hk h.calm_same (by simp [hpc, Pc.pending])
  | takeAbsent hk hpc hb => exact h.answer hbooks hv hk h.calm_same (by simp [hpc, Pc.pending]) (grantsFrom_same rfl)
  | takeEmpty hk hpc hb hl ht =>
      exact h.answer hbooks hv hk (h.calm_modify _ _ fun bk => by simp) (by simp [hpc, Pc.pending]) (grantsFrom_same rfl)
  | @spend t k bk hk hpc hb hl ht =>
      have hcalm : s.Calm (s.modifyBucket k.inst k.id fun bk => bk.consume.2) :=
        h.calm_modify k.inst k.id fun bk => by simp
      have hcalm : s.Calm { s.modifyBucket k.inst k.id (fun bk => bk.consume.2) with
          ledger := s.ledger.spend ((s.insts k.inst).origin k.id) } := ⟨hcalm.working, hcalm.dry, hcalm.held⟩
      refine h.answer hbooks hv hk hcalm (by simp [hpc, Pc.pending]) ?_
      exact grantsFrom_amend rfl fun x => ⟨rfl, rfl, rfl, Nat.le_succ _⟩
  | @remove t k hk hpc =>
      have hdry : (s.insts k.inst).dry k.id = true := by simpa [keepsTokens, hk, hpc] using hg
      exact h.answer hbooks hv hk (h.calm_remove hdry _ (h.working k.inst)) (by simp [hpc, Pc.pending])
        (grantsFrom_same rfl)
  | @cancel t k inFlight hk hc =>
      generalize hpc : k.pc = pc at hc
      cases hc with
      | eval | reply => simp [keepsTokens, hk, hpc] at hg
      | notified =>
          exact h.move hbooks hv hk h.calm_same (by simp [hpc, Pc.pending]) (by simp) (by simp [Pc.refills])
            (grantsFrom_same rfl)
  | orphan hk hpc => exact absurd hpc (h.awaited _ _ hk)
  | @elapse i ns => exact h.still hbooks hv (h.calm_keep rfl (h.working i))
  | redisElapse => exact h.still hbooks hv h.calm_same
  | tickNothing hw he => exact h
  | @plan i a worker hp =>
      refine h.still hbooks hv (h.calm_keep rfl ?_)
      have hi := h.working i
      cases hp with
      | shutdown hw hc | nothingHeld hw hc => simp [keepsTokens] at hg
      | skip hw _ | noted hw | noneNoted hw | unreachable hw _ | released hw _ => simp [hw, Worker.shutsDown] at hi
      | _ => rfl
  | @note i b todo found bk hw hb ht hl => simpa [hw, Worker.shutsDown] using h.working i
  | @sweep i c b chunks rest hw hc =>
      have hdry : (s.insts i).dry b = true := by simpa [keepsTokens, hw, hc] using hg
      exact h.still hbooks hv (h.calm_remove hdry _ rfl)
  | @release i c link chunks p rest hw hc => simpa [hw, Worker.shutsDown] using h.working i

end Sys

section Results

variable [DecidableEq ι] [ToString IpAddr] {cfg : Config} {s : Sys ι IpAddr}

theorem stocked (hs : ReachWhen (sys cfg) (Sys.keepsTokens · ·) s) : s.Stocked := by
  refine ReachWhen.invariant ?_ ?_ hs
  · rintro _ ⟨clock, now, rfl⟩
    refine ⟨fun i => ?_, by simp [Sys.start], by simp [Sys.start], by simp [Sys.start, Ledger.start]⟩
    cases hc : cfg.cleanup.enabled <;> simp [Sys.start, hc, Worker.shutsDown]
  · intro s a s' hr h hg hnext
    obtain ⟨hbooks, hv⟩ := books_valid hr.reach
    exact h.step hbooks hv (exclusive (flight_reach hr.reach)) hg (Sys.step_of_next hnext) hnext

end Results

end ThatLimit
