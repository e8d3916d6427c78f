import ThatLimit.Serial.Cluster
/-!
# Redis is out of reach

While every Redis call fails, a bucket keeps serving its id until its tokens are used up.
A request that needs a lease then fails and leaves the store as it was, so nothing has
to be repaired when Redis is back. The runs start from any state.
-/

namespace ThatLimit

open Transition

variable {ι IpAddr : Type} [DecidableEq IpAddr]

/-- The error of a call that fails, whether or not Redis runs the script. -/
def Link.failure : Link → Option RedisError
  | .answers => none
  | .replyLost e | .unreachable e => some e

theorem Server.lease_log (s : Server) (key : String) (leaseSize quota ttl : Nat) :
    (s.lease key leaseSize quota ttl).2.log.length = s.log.length + 1 := by
  obtain ⟨reply, hs | ⟨-, -, hs⟩ | ⟨e, -, -, hs⟩⟩ := s.lease_effect key leaseSize quota ttl <;> rw [hs] <;> rfl

namespace Node

variable {cfg : Config} {v v' : Node IpAddr} {server server' : Server} {b : BucketId IpAddr} {c : Timing}

/-- How often `Store::consume` calls Redis. -/
def redisCalls (v : Node IpAddr) (b : BucketId IpAddr) : Nat :=
  match v.store.check v.now b with
  | .ok false => if (v.store.refills.get b).isNone then 1 else 0
  | _ => 0

theorem redisCalls_of_spent (hcheck : v.store.check v.now b = .ok false) (hfree : v.store.refills.get b = none) :
    v.redisCalls b = 1 := by
  simp [redisCalls, hcheck, hfree]

variable [ToString IpAddr]

/-- As long as the scripts reach Redis, its log counts the calls. -/
theorem consume_log {res : Except (StoreError IpAddr) Nat} (hfree : v.store.refills.get b = none)
    (h : consume (evalLease cfg) v server b c = some (res, v', server')) (hlink : ∀ e, c.link ≠ .unreachable e) :
    server'.log.length = server.log.length + v.redisCalls b := by
  rcases consume_server hfree h with ⟨hcheck, rfl⟩ | ⟨hcheck, rfl⟩
  · have hlog : (leaseReply (evalLease cfg) server b c).2.log.length = server.log.length + 1 := by
      unfold leaseReply evalLease
      cases hl : c.link with
      | unreachable e => exact absurd hl (hlink e)
      | answers | replyLost e => exact Server.lease_log ..
    simp [redisCalls, hcheck, hfree, hlog]
  · unfold redisCalls
    split
    · next hfalse => exact absurd hfalse hcheck
    · rfl

theorem consume_served (cfg : Config) (server : Server) {bk : Bucket} (hb : v.store.buckets.get b = some bk)
    (hx : bk.exhausted = false) (ht : 0 < bk.tokens) (hlook : v.now + c.toTake < bk.expiresAt) : v.redisCalls b = 0 ∧
    consume (evalLease cfg) v server b c = some (.ok (bk.tokens - 1), { now := v.now + c.toTake, store :=
      { v.store with buckets := v.store.buckets.modify b fun bk => bk.consume.2 } }, server) := by
  have hcheck : v.store.check v.now b = .ok true := Store.check_of_live hb hx ht (by omega)
  have hrefilled : ensureRefilled (evalLease cfg) v server b c = some (.ok (), v, server) := by
    simp only [ensureRefilled, hcheck]
  refine ⟨by simp only [redisCalls, hcheck], ?_⟩
  rw [consume_of_ok hrefilled, look_of_live hb hlook]

theorem consume_failed (cfg : Config) (server : Server) {e : RedisError}
    (hcheck : v.store.check v.now b = .ok false) (hfree : v.store.refills.get b = none) (hlink : c.link.failure = some e) :
    consume (evalLease cfg) v server b c =
      some (.error (.cache (.redis e)), { v with now := v.now + c.toStart + c.toReply },
      (leaseReply (evalLease cfg) server b c).2) := by
  have hreply : (leaseReply (evalLease cfg) server b c).1 = .error (.redis e) := by
    cases hl : c.link with
    | answers => simp [Link.failure, hl] at hlink
    | replyLost e' | unreachable e' =>
        obtain rfl : e' = e := by simpa [Link.failure, hl] using hlink
        simp [leaseReply, evalLease, Link.eval, hl]
  rcases lease_cases (evalLease cfg) v server b c with ⟨e', he', hlease⟩ | ⟨r, hr, -⟩ | ⟨r, hr, -⟩
  · obtain rfl := Except.error.inj (hreply.symm.trans he')
    exact consume_of_error ((ensureRefilled_of_spent hcheck hfree).trans (congrArg some hlease))
  · rw [hreply] at hr
    cases hr
  · rw [hreply] at hr
    cases hr

theorem consume_leased {r : Leased} (hcheck : v.store.check v.now b = .ok false)
    (hfree : v.store.refills.get b = none) (hr : (leaseReply (evalLease cfg) server b c).1 = .ok r) (hpos : 0 < r.leased)
    (hlook : v.settled c + c.toTake < (v.newBucket c r).expiresAt) :
    ∃ v', consume (evalLease cfg) v server b c = some (.ok (r.leased - 1), v', (leaseReply (evalLease cfg) server b c).2) ∧
      v'.store.buckets.get b = some { v.newBucket c r with tokens := r.leased - 1 } := by
  have hbucket : (v.filled b c r).store.buckets.get b = some (v.newBucket c r) := DashMap.get_insert_self ..
  rcases lease_cases (evalLease cfg) v server b c with ⟨e, he, -⟩ | ⟨r', hr', hzero, -⟩ | ⟨r', hr', -, hlease⟩
  · rw [hr] at he
    cases he
  · obtain rfl := Except.ok.inj (hr.symm.trans hr')
    omega
  · obtain rfl := Except.ok.inj (hr.symm.trans hr')
    rw [consume_of_ok ((ensureRefilled_of_spent hcheck hfree).trans (congrArg some hlease)), look_of_live hbucket hlook]
    refine ⟨_, rfl, ?_⟩
    rw [DashMap.get_modify_self, hbucket, Option.map_some, Bucket.consume_snd]
    rfl

theorem consume_now_le {res : Except (StoreError IpAddr) Nat} (hfree : v.store.refills.get b = none)
    (h : consume (evalLease cfg) v server b c = some (res, v', server')) : v.now ≤ v'.now := by
  rcases consume_cases hfree h with ⟨bk, -, -, -, rfl, -⟩ | ⟨bk, -, -, -, -, -, rfl, -⟩ |
    ⟨-, -, -, ⟨e, -, -, rfl⟩ | ⟨r, -, -, -, rfl⟩ | ⟨r, -, -, -, rfl⟩⟩
  · exact Nat.le_refl _
  · rw [look_now]
    omega
  · simp only
    omega
  · simp only [settled]
    omega
  · simp only [look_now, filled, settled]
    omega

end Node

namespace Cluster

variable [DecidableEq ι]

/-- The calls for `b` that instance `i` has answered. -/
def calls (s : Cluster ι IpAddr) (i : ι) (b : BucketId IpAddr) : Nat :=
  s.answers.countP fun a => decide (a.inst = i ∧ a.id = b)

/-- The runs from a given state on. -/
def resumed [ToString IpAddr] (cfg : Config) (s₀ : Cluster ι IpAddr) : System (Cluster ι IpAddr) (Turn ι IpAddr) where
  init s := s = s₀
  next := Cluster.next (evalLease cfg)

/-- No call of Redis succeeds, and instance `i` takes its last look for `b` before the deadline. -/
def Outage (i : ι) (b : BucketId IpAddr) (deadline : Nat) (s : Cluster ι IpAddr) : Turn ι IpAddr → Prop
  | .consume j b' c => c.link.failure.isSome = true ∧ (j = i → b' = b → (s.node i).now + c.toTake < deadline)
  | _ => True

instance (i : ι) (b : BucketId IpAddr) (deadline : Nat) (s : Cluster ι IpAddr) :
    DecidablePred (Outage i b deadline s)
  | .consume .. => inferInstanceAs (Decidable (_ ∧ (_ → _ → _)))
  | .tick _ | .elapse .. | .redisElapse _ => .isTrue trivial

/-- The bucket with a token less for every call since `s₀`, as long as it has any; once expired it may be gone. -/
structure Drains (s₀ : Cluster ι IpAddr) (i : ι) (b : BucketId IpAddr) (bk : Bucket) (s : Cluster ι IpAddr) : Prop where
  free : ∀ b', (s.node i).store.refills.get b' = none
  later : s₀.calls i b ≤ s.calls i b
  bucket : (s.node i).store.buckets.get b = some { bk with tokens := bk.tokens - (s.calls i b - s₀.calls i b) } ∨
    (s.node i).store.buckets.get b = none ∧ bk.expiresAt ≤ (s.node i).now

variable {cfg : Config} {s₀ s s' : Cluster ι IpAddr} {i j : ι} {b b' : BucketId IpAddr} {bk : Bucket} {c : Timing}

theorem Drains.check (h : s₀.Drains i b bk s) (hx : bk.exhausted = false)
    (hn : bk.tokens ≤ s.calls i b - s₀.calls i b) : (s.node i).store.check (s.node i).now b = .ok false := by
  rcases h.bucket with hb | ⟨hb, -⟩
  · exact Store.check_of_spent hb hx (.inl (by simp only; omega))
  · exact Store.check_of_absent hb _

theorem Drains.frame (h : s₀.Drains i b bk s) (hrefills : (s'.node i).store.refills = (s.node i).store.refills)
    (hb : (s'.node i).store.buckets.get b = (s.node i).store.buckets.get b)
    (hnow : (s.node i).now ≤ (s'.node i).now) (hcalls : s'.calls i b = s.calls i b) : s₀.Drains i b bk s' := by
  refine ⟨?_, by rw [hcalls]; exact h.later, ?_⟩
  · rw [hrefills]
    exact h.free
  · rw [hb, hcalls]
    exact h.bucket.imp_right fun ⟨hb, hexpired⟩ => ⟨hb, Nat.le_trans hexpired hnow⟩

theorem Drains.tick (h : s₀.Drains i b bk s) : s₀.Drains i b bk (s.setNode i (s.node i).tick) := by
  have hnode : (s.setNode i (s.node i).tick).node i = (s.node i).tick := Function.update_self ..
  refine ⟨?_, h.later, ?_⟩
  · rw [hnode, Node.tick_refills]
    exact h.free
  · rw [hnode, Node.get_tick, Node.tick_now]
    rcases h.bucket with hb | ⟨hb, hexpired⟩
    · rw [hb, Option.filter_some]
      by_cases hexpired : bk.expiresAt ≤ (s.node i).now
      · exact .inr ⟨by simp [hexpired], hexpired⟩
      · left
        simp [hexpired, calls, setNode]
    · exact .inr ⟨by rw [hb]; rfl, hexpired⟩

variable [ToString IpAddr]

theorem consume_answered (hs : s.consume (evalLease cfg) j b' c = some s') :
    (∃ res, Node.consume (evalLease cfg) (s.node j) s.server b' c = some (res, s'.node j, s'.server)) ∧
    (∀ i, i ≠ j → s'.node i = s.node i) ∧
    ∀ i b, s'.calls i b = s.calls i b + if j = i ∧ b' = b then 1 else 0 := by
  obtain ⟨res, v, server, hc, rfl⟩ := consume_eq_some hs
  refine ⟨⟨res, by simpa [setNode] using hc⟩, fun i hi => Function.update_of_ne hi .., fun i b => ?_⟩
  simp [calls, List.countP_append, List.countP_cons]

/-- A call of instance `i` for `b`: with a token left it takes one, and without it fails. -/
theorem Drains.call (h : s₀.Drains i b bk s) (hx : bk.exhausted = false) (hlink : c.link.failure.isSome = true)
    (hlook : (s.node i).now + c.toTake < bk.expiresAt) (hs : s.consume (evalLease cfg) i b c = some s') :
    s₀.Drains i b bk s' := by
  obtain ⟨⟨res, hc⟩, -, hcalls⟩ := consume_answered hs
  obtain ⟨e, he⟩ := Option.isSome_iff_exists.mp hlink
  have hlater := h.later
  have hcount : s'.calls i b = s.calls i b + 1 := by simp [hcalls]
  rcases Nat.lt_or_ge (s.calls i b - s₀.calls i b) bk.tokens with hn | hn
  · rcases h.bucket with hb | ⟨-, hexpired⟩
    · obtain ⟨-, hserved⟩ := Node.consume_served cfg s.server hb hx (by simp only; omega) hlook
      obtain ⟨-, hnode, -⟩ : res = _ ∧ s'.node i = _ ∧ s'.server = _ := by simpa using hc.symm.trans hserved
      refine ⟨?_, by omega, .inl ?_⟩
      · rw [hnode]
        exact h.free
      · rw [hnode, hcount, DashMap.get_modify_self, hb, Option.map_some, Bucket.consume_snd]
        simp only [Option.some.injEq, Bucket.mk.injEq, and_true]
        omega
    · omega
  · have hfailed := Node.consume_failed cfg s.server (h.check hx hn) (h.free b) he
    obtain ⟨-, hnode, -⟩ : res = _ ∧ s'.node i = _ ∧ s'.server = _ := by simpa using hc.symm.trans hfailed
    refine ⟨?_, by omega, ?_⟩
    · rw [hnode]
      exact h.free
    · have hused : bk.tokens - (s'.calls i b - s₀.calls i b) = bk.tokens - (s.calls i b - s₀.calls i b) := by omega
      rw [hnode, hused]
      refine h.bucket.imp_right fun ⟨hb, hexpired⟩ => ⟨hb, ?_⟩
      simp only
      omega

theorem Drains.other (h : s₀.Drains i b bk s) (hs : s.consume (evalLease cfg) j b' c = some s')
    (hother : ¬(j = i ∧ b' = b)) :
    s₀.Drains i b bk s' := by
  obtain ⟨⟨res, hc⟩, hnodes, hcalls⟩ := consume_answered hs
  have hcount : s'.calls i b = s.calls i b := by simp [hcalls, hother]
  by_cases hj : i = j
  · subst hj
    obtain ⟨hrefills, hbuckets, -⟩ := Node.consume_frame (h.free b') hc
    exact h.frame hrefills (hbuckets b fun hid => hother ⟨rfl, hid.symm⟩) (Node.consume_now_le (h.free b') hc) hcount
  · have hnode := hnodes i hj
    exact h.frame (by rw [hnode]) (by rw [hnode]) (Nat.le_of_eq (by rw [hnode])) hcount

theorem Drains.step {a : Turn ι IpAddr} (h : s₀.Drains i b bk s) (hx : bk.exhausted = false)
    (hg : Outage i b bk.expiresAt s a) (hs : Cluster.next (evalLease cfg) s a = some s') : s₀.Drains i b bk s' := by
  cases a with
  | consume j b' c =>
      by_cases hcall : j = i ∧ b' = b
      · obtain ⟨rfl, rfl⟩ := hcall
        exact h.call hx hg.1 (hg.2 rfl rfl) hs
      · exact h.other hs hcall
  | tick j =>
      cases hs
      by_cases hj : i = j
      · subst hj
        exact h.tick
      · have hnode : (s.setNode j (s.node j).tick).node i = s.node i := Function.update_of_ne hj ..
        exact h.frame (by rw [hnode]) (by rw [hnode]) (Nat.le_of_eq (by rw [hnode])) rfl
  | elapse j ns =>
      cases hs
      refine h.frame (by rw [store_elapse]) (by rw [store_elapse]) ?_ rfl
      by_cases hj : i = j
      · subst hj
        simp [setNode]
      · simp [setNode, hj]
  | redisElapse ms =>
      cases hs
      exact h.frame rfl rfl (Nat.le_refl _) rfl

theorem drains (hfree : ∀ b, (s₀.node i).store.refills.get b = none) (hb : (s₀.node i).store.buckets.get b = some bk)
    (hx : bk.exhausted = false) (hs : ReachWhen (resumed cfg s₀) (Outage i b bk.expiresAt) s) : s₀.Drains i b bk s := by
  refine ReachWhen.invariant ?_ (fun _ _ _ _ h hg hnext => h.step hx hg hnext) hs
  rintro _ rfl
  exact ⟨hfree, Nat.le_refl _, .inl (by simp [hb])⟩

end Cluster

section Results

variable [DecidableEq ι] [ToString IpAddr] {cfg : Config} {s₀ s : Cluster ι IpAddr} {i : ι} {b : BucketId IpAddr}
  {bk : Bucket}

/-- Redis goes away in any state `s₀`, in which instance `i` has a bucket with tokens for `b`, and since then `n` calls
of instance `i` for `b` were answered. The next call gets one of the tokens without asking Redis or, when they are
used up, asks Redis once, fails and changes neither map. With Redis back, it gets a lease. -/
theorem served_through_outage (hfree : ∀ b, (s₀.node i).store.refills.get b = none)
    (hb : (s₀.node i).store.buckets.get b = some bk) (hx : bk.exhausted = false)
    (hs : ReachWhen (Cluster.resumed cfg s₀) (Cluster.Outage i b bk.expiresAt) s) {n : Nat}
    (hn : s.calls i b = s₀.calls i b + n) (c : Timing) :
    (n < bk.tokens → (s.node i).now + c.toTake < bk.expiresAt → (s.node i).redisCalls b = 0 ∧
      ∃ v, Node.consume (evalLease cfg) (s.node i) s.server b c = some (.ok (bk.tokens - 1 - n), v, s.server)) ∧
    (bk.tokens ≤ n → (s.node i).redisCalls b = 1 ∧
      (∀ e, c.link.failure = some e → ∃ v,
        Node.consume (evalLease cfg) (s.node i) s.server b c =
          some (.error (.cache (.redis e)), v, (Node.leaseReply (evalLease cfg) s.server b c).2) ∧
        v.store = (s.node i).store ∧ (∀ b', v.store.refills.get b' = none) ∧
        (c.link = .replyLost e →
          (Node.leaseReply (evalLease cfg) s.server b c).2.log.length = s.server.log.length + 1)) ∧
      (∀ r, (Node.leaseReply (evalLease cfg) s.server b c).1 = .ok r → 0 < r.leased →
        (s.node i).settled c + c.toTake < ((s.node i).newBucket c r).expiresAt → ∃ v,
        Node.consume (evalLease cfg) (s.node i) s.server b c =
          some (.ok (r.leased - 1), v, (Node.leaseReply (evalLease cfg) s.server b c).2) ∧
        v.store.buckets.get b = some { (s.node i).newBucket c r with tokens := r.leased - 1 })) := by
  have h := Cluster.drains hfree hb hx hs
  have hcount : s.calls i b - s₀.calls i b = n := by omega
  constructor
  · intro hleft hlook
    rcases h.bucket with hbucket | ⟨-, hexpired⟩
    · rw [hcount] at hbucket
      obtain ⟨hcalls, hserved⟩ := Node.consume_served cfg s.server hbucket hx (by simp only; omega) hlook
      have hvalue : bk.tokens - n - 1 = bk.tokens - 1 - n := Nat.sub_right_comm ..
      exact ⟨hcalls, _, hvalue ▸ hserved⟩
    · omega
  · intro hused
    have hcheck := h.check hx (hcount ▸ hused)
    have hcalls := Node.redisCalls_of_spent hcheck (h.free b)
    refine ⟨hcalls, ?_, ?_⟩
    · intro e he
      have hfailed := Node.consume_failed cfg s.server hcheck (h.free b) he
      refine ⟨_, hfailed, rfl, h.free, fun hlost => ?_⟩
      rw [← hcalls]
      exact Node.consume_log (h.free b) hfailed (by simp [hlost])
    · intro r hr hpos hlook
      exact Node.consume_leased hcheck (h.free b) hr hpos hlook

/-- A call in which no time passes and Redis is not there. -/
def downCall : Timing := { promptCall with link := .unreachable .io }

/-- One token is left when Redis goes away. -/
def lastToken : Cluster Unit String where
  node _ := { now := 0, store := { buckets := (∅ : DashMap ..).insert testUser ⟨1, 60000000000, 60000, false⟩, refills := ∅ } }
  server := .start 0
  answers := []

theorem served_until_used_up : ∃ s, (Cluster.resumed .default lastToken).exec lastToken
      [.consume () testUser downCall, .consume () testUser downCall] = some s ∧
    (∃ v, Node.consume (evalLease .default) (s.node ()) s.server testUser downCall =
      some (.error (.cache (.redis .io)), v, s.server) ∧ v.store = (s.node ()).store ∧
      ∀ b', v.store.refills.get b' = none) ∧
    ∃ v server, Node.consume (evalLease .default) (s.node ()) s.server testUser promptCall = some (.ok 1999, v, server) := by
  have hrun : ((Cluster.resumed .default lastToken).execWhen
      (fun s a => decide (Cluster.Outage () testUser 60000000000 s a)) lastToken
      [.consume () testUser downCall, .consume () testUser downCall]).map
      (fun s => (s.calls () testUser, (s.node ()).now,
        (Node.leaseReply (evalLease .default) s.server testUser promptCall).1)) =
      some (2, 0, .ok ⟨2000, 60000, 60000⟩) := rfl
  obtain ⟨s, hs, hseen⟩ := Option.map_eq_some_iff.mp hrun
  simp only [Prod.mk.injEq] at hseen
  obtain ⟨hcalls, hnow, hreply⟩ := hseen
  have hreach : ReachWhen (Cluster.resumed .default lastToken) (Cluster.Outage () testUser 60000000000) s :=
    ReachWhen.execWhen_of (fun _ _ hg => of_decide_eq_true hg) (.init rfl) _ hs
  have hfree : ∀ b, (lastToken.node ()).store.refills.get b = none := fun _ => rfl
  have h := served_through_outage hfree rfl rfl hreach (n := 2) hcalls
  obtain ⟨v, hv, hstore, hrefills, -⟩ := ((h downCall).2 (by decide)).2.1 .io rfl
  refine ⟨s, System.exec_of_execWhen hs, ⟨v, hv, hstore, hrefills⟩, ?_⟩
  obtain ⟨v, hv, -⟩ := ((h promptCall).2 (by decide)).2.2 _ hreply (by decide) (by
    simp [Node.settled, hnow, Node.newBucket_expiresAt, promptCall, fromMillis])
  exact ⟨v, _, hv⟩

end Results

end ThatLimit
