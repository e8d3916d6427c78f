import ThatLimit.Core.Store
/-!
# A call from its start to its end (`store.rs`)

`Store::consume` in one piece, for a call that no other task of its instance gets in
the way of. Between the steps of the call the clocks move on as they like.
-/

namespace ThatLimit

/-- An instance between two calls. -/
structure Node (IpAddr : Type) where
  now : Nat
  store : Store IpAddr

/-- How long the pieces of a call take, and how its Redis call fares. -/
structure Timing where
  toStart : Nat
  /-- Milliseconds of the Redis clock until the script runs. -/
  wait : Nat
  link : Link
  toReply : Nat
  toInsert : Nat
  toTake : Nat

variable {IpAddr : Type}

/-- How the lease script is run for an instance: Redis before and after, and what the instance gets to see. -/
abbrev Eval (IpAddr : Type) := Server → BucketId IpAddr → Link → Except CacheError Leased × Server

/-- `Redis::eval` of the lease script, with the arguments `Store::lease` gives it. -/
def evalLease [ToString IpAddr] (cfg : Config) (server : Server) (b : BucketId IpAddr) (link : Link) :
    Except CacheError Leased × Server :=
  link.eval server
    (server.lease b.toKey (cfg.policy b).leaseSize (cfg.policy b).quota (asSecs (cfg.policy b).resetIn))

namespace Node

variable [DecidableEq IpAddr]

/-- `Store::lease`, with `cache::lease` in it. -/
def lease (eval : Eval IpAddr) (v : Node IpAddr) (server : Server) (b : BucketId IpAddr) (c : Timing) :
    Except (StoreError IpAddr) Unit × Node IpAddr × Server :=
  let started := v.now + c.toStart
  let (res, server) := eval (server.elapse c.wait) b c.link
  let now := started + c.toReply
  match res with
  | .error e => (.error (.cache e), { v with now }, server)
  | .ok r =>
      let (res, store) := v.store.leased (now + c.toInsert) b r.leased (leaseTtl r.pttl started now) r.window
      (res, { now := now + c.toInsert, store }, server)

/-- `Store::ensure_refilled`; `none` when it would wait for a task that is not there. -/
def ensureRefilled (eval : Eval IpAddr) (v : Node IpAddr) (server : Server) (b : BucketId IpAddr) (c : Timing) :
    Option (Except (StoreError IpAddr) Unit × Node IpAddr × Server) :=
  match v.store.check v.now b with
  | .error e => some (.error e, v, server)
  | .ok true => some (.ok (), v, server)
  | .ok false =>
      match v.store.refills.get b with
      | some _ => none
      | none =>
          let (res, v', server) := lease eval { v with store := v.store.claim b 0 } server b c
          some (res, { v' with store := v'.store.unclaim b }, server)

/-- The end of `Store::consume`: the last look at the bucket. -/
def look (v : Node IpAddr) (b : BucketId IpAddr) (c : Timing) : Nat × Node IpAddr :=
  let now := v.now + c.toTake
  match v.store.take now b with
  | some (left, store) => (left, { now, store })
  | none => (0, { now, store := v.store.removeBucket b })

/-- `Store::consume`. -/
def consume (eval : Eval IpAddr) (v : Node IpAddr) (server : Server) (b : BucketId IpAddr) (c : Timing) :
    Option (Except (StoreError IpAddr) Nat × Node IpAddr × Server) :=
  match ensureRefilled eval v server b c with
  | none => none
  | some (.error e, v, server) => some (.error e, v, server)
  | some (.ok (), v, server) => some (.ok (v.look b c).1, (v.look b c).2, server)

/-- The buckets a cleanup tick finds expired. -/
def expiredKeys (v : Node IpAddr) : List (BucketId IpAddr) :=
  v.store.buckets.keys.filter fun b => (v.store.buckets.get b).any fun bk => bk.isExpired v.now

/-- A cleanup tick with all its removals. -/
def tick (v : Node IpAddr) : Node IpAddr :=
  if v.store.buckets.isEmpty then v
  else { v with store := v.expiredKeys.foldl Store.removeBucket v.store }

variable {eval : Eval IpAddr} {v : Node IpAddr} {server : Server} {b : BucketId IpAddr} {c : Timing}

/-- The entry of the call in `refills` is gone when the call returns. -/
theorem ensureRefilled_of_spent (hcheck : v.store.check v.now b = .ok false)
    (hfree : v.store.refills.get b = none) : ensureRefilled eval v server b c = some (lease eval v server b c) := by
  simp only [ensureRefilled, hcheck, hfree]
  unfold lease
  simp only
  split
  · simp only [Store.unclaim_claim hfree]
  · simp only [Store.leased_claim]
    rw [Store.unclaim_claim]
    simpa using hfree

end Node

section EvalLease

variable [ToString IpAddr] {cfg : Config} {server server' : Server} {b : BucketId IpAddr} {link : Link} {r : Leased}

theorem evalLease_ok (h : (evalLease cfg server b link).1 = .ok r) : link = .answers ∧ ∃ reply,
    server.lease b.toKey (cfg.policy b).leaseSize (cfg.policy b).quota (asSecs (cfg.policy b).resetIn) =
      (.ok reply, (evalLease cfg server b link).2) ∧ reply.decode = .ok r := Link.eval_ok h

theorem evalLease_zero (h : (evalLease cfg server b link).1 = .ok r) (hzero : r.leased = 0) :
    ∃ reply e, (evalLease cfg server b link).2 = { server with log := ⟨b.toKey, .ok reply⟩ :: server.log } ∧
      reply.leased = 0 ∧ server.find b.toKey = some e ∧ e.value ≤ 0 := by
  obtain ⟨-, reply, hl, hdecode⟩ := evalLease_ok h
  have hsize := (cfg.policy b).leaseSize_pos
  have htokens : reply.leased ≤ 0 := by
    obtain ⟨hnonneg, -, rfl⟩ := LeaseReply.decode_eq_ok hdecode
    simp only at hzero
    omega
  rcases Server.lease_cases hl with ⟨-, -, rfl, -⟩ | ⟨e, hf, hv, rfl, hserver⟩ | ⟨e, hf, hv, rfl, -⟩
  · simp only at htokens
    omega
  · exact ⟨_, e, hserver, rfl, hf, hv⟩
  · simp only at htokens
    omega

/-- An answered script leaves the key with an expiry, which the reply names both as the time left and as
the window. -/
theorem evalLease_window (h : (evalLease cfg server b link).1 = .ok r) : ∃ e w,
    (evalLease cfg server b link).2.db b.toKey = some e ∧ e.expireAt = some w ∧ w = server.now + r.pttl ∧
      r.window = w := by
  obtain ⟨-, reply, hl, hdecode⟩ := evalLease_ok h
  obtain ⟨-, hpttl, rfl⟩ := LeaseReply.decode_eq_ok hdecode
  have hlive {e : Entry} (hf : server.find b.toKey = some e) (hpttl : 0 ≤ e.pttl server.now) :
      ∃ w, e.expireAt = some w ∧ w = server.now + (e.pttl server.now).toNat ∧ e.pexpiretime = w := by
    cases hw : e.expireAt with
    | none => simp [Entry.pttl, hw] at hpttl
    | some w =>
        refine ⟨w, rfl, ?_, by simp [Entry.pexpiretime, hw]⟩
        simp only [Entry.pttl, hw] at hpttl ⊢
        omega
  rcases Server.lease_cases hl with ⟨-, -, rfl, hserver⟩ | ⟨e, hf, -, rfl, hserver⟩ | ⟨e, hf, -, rfl, hserver⟩
  · rw [hserver]
    exact ⟨_, _, Db.set_self .., rfl, by simp only; omega, by simp⟩
  · rw [hserver]
    obtain ⟨w, hw, hpttl, hwindow⟩ := hlive hf hpttl
    exact ⟨e, w, (Db.find_eq_some_iff.mp hf).1, hw, hpttl, hwindow⟩
  · rw [hserver]
    obtain ⟨w, hw, hpttl, hwindow⟩ := hlive hf hpttl
    exact ⟨_, w, Db.set_self .., hw, hpttl, hwindow⟩

theorem evalLease_server (cfg : Config) (server : Server) (b : BucketId IpAddr) (link : Link) :
    (evalLease cfg server b link).2 = server ∨ (evalLease cfg server b link).2 =
      (server.lease b.toKey (cfg.policy b).leaseSize (cfg.policy b).quota (asSecs (cfg.policy b).resetIn)).2 :=
  link.eval_server ..

@[simp] theorem evalLease_now (cfg : Config) (server : Server) (b : BucketId IpAddr) (link : Link) :
    (evalLease cfg server b link).2.now = server.now := by
  rcases evalLease_server cfg server b link with h | h
  · rw [h]
  · rw [h, Server.lease_now]

theorem Server.Sane.evalLease (h : server.Sane) : (evalLease cfg server b link).2.Sane := by
  rcases evalLease_server cfg server b link with hs | hs
  · rw [hs]
    exact h
  · rw [hs]
    exact h.lease _ (cfg.policy b).leaseSize_le _

theorem evalLease_frame (cfg : Config) (server : Server) (b : BucketId IpAddr) (link : Link) :
    (∀ key, key ≠ b.toKey → (evalLease cfg server b link).2.db key = server.db key ∧
      (evalLease cfg server b link).2.epoch key = server.epoch key) ∧
    ((evalLease cfg server b link).2.log = server.log ∨
      ∃ reply, (evalLease cfg server b link).2.log = ⟨b.toKey, reply⟩ :: server.log) := by
  rcases evalLease_server cfg server b link with h | h
  · rw [h]
    exact ⟨fun _ _ => ⟨rfl, rfl⟩, .inl rfl⟩
  · rw [h]
    refine ⟨fun key hk => server.lease_other _ _ _ hk, .inr ?_⟩
    obtain ⟨reply, hs | ⟨-, -, hs⟩ | ⟨e, -, -, hs⟩⟩ := server.lease_effect b.toKey (cfg.policy b).leaseSize
      (cfg.policy b).quota (asSecs (cfg.policy b).resetIn) <;> exact ⟨reply, by rw [hs]⟩

end EvalLease

namespace Node

variable {eval : Eval IpAddr} {v v' : Node IpAddr} {server server' : Server} {b : BucketId IpAddr} {c : Timing}

/-- The clock at the end of `Store::lease`. -/
def settled (v : Node IpAddr) (c : Timing) : Nat := v.now + c.toStart + c.toReply + c.toInsert

/-- What Redis says to the lease of the call, and Redis afterwards. -/
def leaseReply (eval : Eval IpAddr) (server : Server) (b : BucketId IpAddr) (c : Timing) :
    Except CacheError Leased × Server := eval (server.elapse c.wait) b c.link

/-- The bucket built from a reply. -/
def newBucket (v : Node IpAddr) (c : Timing) (r : Leased) : Bucket :=
  .new (v.settled c) r.leased (leaseTtl r.pttl (v.now + c.toStart) (v.now + c.toStart + c.toReply)) r.window

theorem newBucket_expiresAt (v : Node IpAddr) (c : Timing) (r : Leased) :
    (v.newBucket c r).expiresAt = v.settled c + (fromMillis r.pttl - c.toReply) := by
  show v.settled c + leaseTtl r.pttl (v.now + c.toStart) (v.now + c.toStart + c.toReply) = _
  rw [leaseTtl, Nat.add_sub_cancel_left]

variable [DecidableEq IpAddr]

/-- The time left that a lease of nothing reports: of the bucket under the id or, without one, of the reply. -/
def retryAfter (v : Node IpAddr) (b : BucketId IpAddr) (c : Timing) (r : Leased) : Nat :=
  match v.store.buckets.get b with
  | some bk => bk.expiresAt - v.settled c
  | none => leaseTtl r.pttl (v.now + c.toStart) (v.now + c.toStart + c.toReply)

/-- The instance with that bucket. -/
def filled (v : Node IpAddr) (b : BucketId IpAddr) (c : Timing) (r : Leased) : Node IpAddr :=
  { now := v.settled c, store := { v.store with buckets := v.store.buckets.insert b (v.newBucket c r) } }

theorem exists_filled (v : Node IpAddr) (b : BucketId IpAddr) (c : Timing) (r : Leased) :
    ∃ v' bk, v' = v.filled b c r ∧ v'.store.buckets.get b = some bk ∧ bk.tokens = r.leased ∧ bk.exhausted = false :=
  ⟨_, v.newBucket c r, rfl, DashMap.get_insert_self .., rfl, rfl⟩

theorem lease_cases (eval : Eval IpAddr) (v : Node IpAddr) (server : Server) (b : BucketId IpAddr) (c : Timing) :
    (∃ e, (leaseReply eval server b c).1 = .error e ∧ lease eval v server b c =
      (.error (.cache e), { v with now := v.now + c.toStart + c.toReply }, (leaseReply eval server b c).2)) ∨
    (∃ r, (leaseReply eval server b c).1 = .ok r ∧ r.leased = 0 ∧ lease eval v server b c =
      (.error (.exhausted b (v.retryAfter b c r)), { now := v.settled c, store :=
        { v.store with buckets := v.store.buckets.modify b Bucket.setExhausted } }, (leaseReply eval server b c).2)) ∨
    (∃ r, (leaseReply eval server b c).1 = .ok r ∧ 0 < r.leased ∧ lease eval v server b c =
      (.ok (), v.filled b c r, (leaseReply eval server b c).2)) := by
  unfold lease leaseReply
  rcases eval (server.elapse c.wait) b c.link with ⟨e | r, server'⟩
  · exact .inl ⟨e, rfl, rfl⟩
  · right
    rcases Nat.eq_zero_or_pos r.leased with hzero | hpos
    · left
      cases hb : v.store.buckets.get b with
      | none =>
          have hmodify : v.store.buckets.modify b Bucket.setExhausted = v.store.buckets := by
            simp [DashMap.modify, hb]
          exact ⟨r, rfl, hzero, by simp only [hzero, Store.leased_zero_absent hb, hmodify, retryAfter, hb]; rfl⟩
      | some bk => exact ⟨r, rfl, hzero, by simp only [hzero, Store.leased_zero_present hb, retryAfter, hb]; rfl⟩
    · exact .inr ⟨r, rfl, hpos, by simp only [Store.leased_pos hpos]; rfl⟩

theorem ensureRefilled_cases (eval : Eval IpAddr) (server : Server) (c : Timing) (hfree : v.store.refills.get b = none) :
    (∃ bk, v.store.buckets.get b = some bk ∧ bk.exhausted = true ∧
      ensureRefilled eval v server b c = some (.error (.exhausted b (bk.expiresAt - v.now)), v, server)) ∨
    (∃ bk, v.store.buckets.get b = some bk ∧ bk.exhausted = false ∧ 0 < bk.tokens ∧ v.now < bk.expiresAt ∧
      ensureRefilled eval v server b c = some (.ok (), v, server)) ∨
    ((∀ bk, v.store.buckets.get b = some bk → bk.exhausted = false) ∧ v.store.Spent v.now b ∧
      ((∃ e, (leaseReply eval server b c).1 = .error e ∧ ensureRefilled eval v server b c =
        some (.error (.cache e), { v with now := v.now + c.toStart + c.toReply }, (leaseReply eval server b c).2)) ∨
      (∃ r, (leaseReply eval server b c).1 = .ok r ∧ r.leased = 0 ∧ ensureRefilled eval v server b c =
        some (.error (.exhausted b (v.retryAfter b c r)), { now := v.settled c, store :=
          { v.store with buckets := v.store.buckets.modify b Bucket.setExhausted } }, (leaseReply eval server b c).2)) ∨
      (∃ r, (leaseReply eval server b c).1 = .ok r ∧ 0 < r.leased ∧ ensureRefilled eval v server b c =
        some (.ok (), v.filled b c r, (leaseReply eval server b c).2)))) := by
  rcases Store.check_cases v.store v.now b with ⟨hcheck, hx, hspent⟩ | ⟨bk, hb, hx, ht, hl, hcheck⟩ | ⟨bk, hb, hx, hcheck⟩
  · refine .inr (.inr ⟨hx, hspent, ?_⟩)
    rw [ensureRefilled_of_spent hcheck hfree]
    rcases lease_cases eval v server b c with ⟨e, hr, hl⟩ | ⟨r, hr, hzero, hl⟩ | ⟨r, hr, hpos, hl⟩
    · exact .inl ⟨e, hr, congrArg some hl⟩
    · exact .inr (.inl ⟨r, hr, hzero, congrArg some hl⟩)
    · exact .inr (.inr ⟨r, hr, hpos, congrArg some hl⟩)
  · exact .inr (.inl ⟨bk, hb, hx, ht, hl, by simp only [ensureRefilled, hcheck]⟩)
  · exact .inl ⟨bk, hb, hx, by simp only [ensureRefilled, hcheck]⟩

theorem consume_of_error {e : StoreError IpAddr} (he : ensureRefilled eval v server b c = some (.error e, v', server')) :
    consume eval v server b c = some (.error e, v', server') := by
  simp only [consume, he]

theorem consume_of_ok (he : ensureRefilled eval v server b c = some (.ok (), v', server')) :
    consume eval v server b c = some (.ok (v'.look b c).1, (v'.look b c).2, server') := by
  simp only [consume, he]

theorem look_of_live {bk : Bucket} (hb : v.store.buckets.get b = some bk) (hl : v.now + c.toTake < bk.expiresAt) :
    v.look b c = (bk.tokens - 1, { now := v.now + c.toTake, store :=
      { v.store with buckets := v.store.buckets.modify b fun bk => bk.consume.2 } }) := by
  simp only [look, Store.take_live hb hl]

theorem look_other {b' : BucketId IpAddr} (hb : b' ≠ b) (v : Node IpAddr) (c : Timing) :
    (v.look b c).2.store.buckets.get b' = v.store.buckets.get b' := by
  unfold look
  simp only
  split
  · next left store htake =>
      unfold Store.take at htake
      split at htake
      · split at htake
        · cases htake
        · cases htake
          exact DashMap.get_modify_ne _ _ hb
      · cases htake; rfl
  · exact DashMap.get_remove_ne _ hb

@[simp] theorem look_refills (v : Node IpAddr) (b : BucketId IpAddr) (c : Timing) :
    (v.look b c).2.store.refills = v.store.refills := by
  unfold look
  simp only
  split
  · next left store htake =>
      unfold Store.take at htake
      split at htake
      · split at htake
        · cases htake
        · cases htake; rfl
      · cases htake; rfl
  · rfl

theorem get_look {bk' : Bucket} (h : (v.look b c).2.store.buckets.get b = some bk') :
    ∃ bk, v.store.buckets.get b = some bk ∧ bk'.expiresAt = bk.expiresAt ∧ bk'.window = bk.window := by
  unfold look at h
  simp only at h
  cases hb : v.store.buckets.get b with
  | none =>
      simp only [Store.take, hb] at h
      cases h
  | some bk =>
      cases hx : bk.isExpired (v.now + c.toTake) with
      | true =>
          simp only [Store.take, hb, hx, if_true, Store.removeBucket, DashMap.get_remove_self] at h
          cases h
      | false =>
          have hlive : v.now + c.toTake < bk.expiresAt := by simpa using hx
          simp only [Store.take_live hb hlive, DashMap.get_modify_self, hb, Option.map_some, Option.some.injEq] at h
          subst h
          exact ⟨bk, rfl, Bucket.consume_expiresAt bk, Bucket.consume_window bk⟩

@[simp] theorem look_now (v : Node IpAddr) (b : BucketId IpAddr) (c : Timing) :
    (v.look b c).2.now = v.now + c.toTake := by
  unfold look
  simp only
  split <;> rfl

theorem consume_of_marked {bk : Bucket} (hb : v.store.buckets.get b = some bk) (hx : bk.exhausted = true) :
    consume eval v server b c = some (.error (.exhausted b (bk.expiresAt - v.now)), v, server) := by
  simp only [consume, ensureRefilled, Store.check_of_exhausted hb hx]

theorem consume_isSome (hfree : v.store.refills.get b = none) : (consume eval v server b c).isSome = true := by
  rcases ensureRefilled_cases eval server c hfree with ⟨bk, -, -, he⟩ | ⟨bk, -, -, -, -, he⟩ |
    ⟨-, -, ⟨e, -, he⟩ | ⟨r, -, -, he⟩ | ⟨r, -, -, he⟩⟩ <;> simp only [consume, he] <;> rfl

/-- The ways a call can go while nothing refills its id: refused by the mark, served from the bucket, or on to Redis,
which does not answer, has nothing left or fills the bucket. -/
theorem consume_cases {res : Except (StoreError IpAddr) Nat} (hfree : v.store.refills.get b = none)
    (h : consume eval v server b c = some (res, v', server')) :
    (∃ bk, v.store.buckets.get b = some bk ∧ bk.exhausted = true ∧
      res = .error (.exhausted b (bk.expiresAt - v.now)) ∧ v' = v ∧ server' = server) ∨
    (∃ bk, v.store.buckets.get b = some bk ∧ bk.exhausted = false ∧ 0 < bk.tokens ∧ v.now < bk.expiresAt ∧
      res = .ok (v.look b c).1 ∧ v' = (v.look b c).2 ∧ server' = server) ∨
    ((∀ bk, v.store.buckets.get b = some bk → bk.exhausted = false) ∧ v.store.Spent v.now b ∧
      server' = (leaseReply eval server b c).2 ∧
      ((∃ e, (leaseReply eval server b c).1 = .error e ∧ res = .error (.cache e) ∧
        v' = { v with now := v.now + c.toStart + c.toReply }) ∨
      (∃ r, (leaseReply eval server b c).1 = .ok r ∧ r.leased = 0 ∧ res = .error (.exhausted b (v.retryAfter b c r)) ∧
        v' = { now := v.settled c, store :=
          { v.store with buckets := v.store.buckets.modify b Bucket.setExhausted } }) ∨
      (∃ r, (leaseReply eval server b c).1 = .ok r ∧ 0 < r.leased ∧ res = .ok ((v.filled b c r).look b c).1 ∧
        v' = ((v.filled b c r).look b c).2))) := by
  rcases ensureRefilled_cases eval server c hfree with ⟨bk, hb, hx, he⟩ | ⟨bk, hb, hx, ht, hl, he⟩ |
    ⟨hx, hspent, ⟨e, hr, he⟩ | ⟨r, hr, hzero, he⟩ | ⟨r, hr, hpos, he⟩⟩
  · rw [consume_of_error he] at h
    cases h
    exact .inl ⟨bk, hb, hx, rfl, rfl, rfl⟩
  · rw [consume_of_ok he] at h
    cases h
    exact .inr (.inl ⟨bk, hb, hx, ht, hl, rfl, rfl, rfl⟩)
  · rw [consume_of_error he] at h
    cases h
    exact .inr (.inr ⟨hx, hspent, rfl, .inl ⟨e, hr, rfl, rfl⟩⟩)
  · rw [consume_of_error he] at h
    cases h
    exact .inr (.inr ⟨hx, hspent, rfl, .inr (.inl ⟨r, hr, hzero, rfl, rfl⟩)⟩)
  · rw [consume_of_ok he] at h
    cases h
    exact .inr (.inr ⟨hx, hspent, rfl, .inr (.inr ⟨r, hr, hpos, rfl, rfl⟩)⟩)

private theorem foldl_removeBucket (keys : List (BucketId IpAddr)) (s : Store IpAddr) (b : BucketId IpAddr) :
    (keys.foldl Store.removeBucket s).refills = s.refills ∧
    (keys.foldl Store.removeBucket s).buckets.get b = if b ∈ keys then none else s.buckets.get b := by
  induction keys generalizing s with
  | nil => exact ⟨rfl, rfl⟩
  | cons b' keys ih =>
      obtain ⟨hrefills, hget⟩ := ih (s.removeBucket b')
      refine ⟨hrefills, hget.trans ?_⟩
      simp only [Store.removeBucket, DashMap.get_remove, List.mem_cons]
      by_cases hb : b = b'
      · simp [hb]
      · simp [hb]

@[simp] theorem tick_refills (v : Node IpAddr) : v.tick.store.refills = v.store.refills := by
  unfold tick
  split
  · rfl
  · cases hkeys : v.expiredKeys with
    | nil => rfl
    | cons b keys => exact (foldl_removeBucket _ _ b).1

@[simp] theorem tick_now (v : Node IpAddr) : v.tick.now = v.now := by
  unfold tick
  split <;> rfl

theorem tick_of_fresh {v : Node IpAddr} (h : v.expiredKeys.isEmpty = true) : v.tick = v := by
  unfold tick
  rw [List.isEmpty_iff.mp h]
  split <;> rfl

theorem get_tick (v : Node IpAddr) (b : BucketId IpAddr) :
    v.tick.store.buckets.get b = (v.store.buckets.get b).filter fun bk => !bk.isExpired v.now := by
  unfold tick
  split
  · next hempty => rw [DashMap.get_of_isEmpty hempty, Option.filter_none]
  · refine (foldl_removeBucket _ _ b).2.trans ?_
    cases hb : v.store.buckets.get b with
    | none => simp
    | some bk =>
        have hmem : b ∈ v.store.buckets.keys := (DashMap.mem_keys_iff ..).mpr (by rw [hb]; rfl)
        have hexpired : b ∈ v.expiredKeys ↔ bk.isExpired v.now = true := by
          simp only [expiredKeys, List.mem_filter, hmem, hb, Option.any_some, true_and]
        rw [Option.filter_some]
        cases hx : bk.isExpired v.now with
        | false => rw [if_neg (by simp [hexpired, hx])]; rfl
        | true => rw [if_pos (hexpired.mpr hx)]; rfl

theorem consume_now {res : Except (StoreError IpAddr) Nat} (hfree : v.store.refills.get b = none)
    (h : consume eval v server b c = some (res, v', server')) (hstart : c.toStart = 0) (hreply : c.toReply = 0)
    (hinsert : c.toInsert = 0) (htake : c.toTake = 0) : v'.now = v.now := by
  have hsettled : v.settled c = v.now := by simp [settled, hstart, hreply, hinsert]
  rcases consume_cases hfree h with ⟨bk, -, -, -, rfl, -⟩ | ⟨bk, -, -, -, -, -, rfl, -⟩ |
    ⟨-, -, -, ⟨e, -, -, rfl⟩ | ⟨r, -, -, -, rfl⟩ | ⟨r, -, -, -, rfl⟩⟩
  · rfl
  · rw [look_now, htake, Nat.add_zero]
  · simp [hstart, hreply]
  · exact hsettled
  · rw [look_now, htake, Nat.add_zero]
    exact hsettled

/-- What every call leaves: no refill in progress, the buckets of all other ids, and Redis as it was
or as the lease left it. -/
theorem consume_frame {res : Except (StoreError IpAddr) Nat} (hfree : v.store.refills.get b = none)
    (h : consume eval v server b c = some (res, v', server')) :
    v'.store.refills = v.store.refills ∧
    (∀ b', b' ≠ b → v'.store.buckets.get b' = v.store.buckets.get b') ∧
    (server' = server ∨ server' = (leaseReply eval server b c).2) := by
  rcases consume_cases hfree h with ⟨bk, -, -, -, rfl, rfl⟩ | ⟨bk, -, -, -, -, -, rfl, rfl⟩ |
    ⟨-, -, hs, ⟨e, -, -, rfl⟩ | ⟨r, -, -, -, rfl⟩ | ⟨r, -, -, -, rfl⟩⟩
  · exact ⟨rfl, fun _ _ => rfl, .inl rfl⟩
  · exact ⟨look_refills .., fun _ hb => look_other hb .., .inl rfl⟩
  · exact ⟨rfl, fun _ _ => rfl, .inr hs⟩
  · exact ⟨rfl, fun _ hb => DashMap.get_modify_ne _ _ hb, .inr hs⟩
  · exact ⟨look_refills .., fun _ hb => (look_other hb ..).trans (DashMap.get_insert_ne _ _ hb), .inr hs⟩

theorem exhausted_retry {id : BucketId IpAddr} {retry : Nat} (hfree : v.store.refills.get b = none)
    (h : consume eval v server b c = some (.error (.exhausted id retry), v', server')) :
    (∃ bk, v.store.buckets.get b = some bk ∧ retry = bk.expiresAt - v.now) ∨
    ∃ r, (leaseReply eval server b c).1 = .ok r ∧ r.leased = 0 ∧ retry = v.retryAfter b c r := by
  rcases consume_cases hfree h with ⟨bk, hb, -, he, -⟩ | ⟨bk, -, -, -, -, he, -⟩ |
    ⟨-, -, -, ⟨e, -, he, -⟩ | ⟨r, hr, hzero, he, -⟩ | ⟨r, -, -, he, -⟩⟩
  · cases he
    exact .inl ⟨bk, hb, rfl⟩
  · cases he
  · cases he
  · cases he
    exact .inr ⟨r, hr, hzero, rfl⟩
  · cases he

/-- A call has the lease script run if and only if its first look finds nothing to spend and no mark. -/
theorem consume_server {res : Except (StoreError IpAddr) Nat} (hfree : v.store.refills.get b = none)
    (h : consume eval v server b c = some (res, v', server')) :
    (v.store.check v.now b = .ok false ∧ server' = (leaseReply eval server b c).2) ∨
    (v.store.check v.now b ≠ .ok false ∧ server' = server) := by
  rcases consume_cases hfree h with ⟨bk, hb, hx, -, -, rfl⟩ | ⟨bk, hb, hx, ht, hl, -, -, rfl⟩ | ⟨hx, hspent, hs, -⟩
  · rw [Store.check_of_exhausted hb hx]
    exact .inr ⟨by simp, rfl⟩
  · rw [Store.check_of_live hb hx ht hl]
    exact .inr ⟨by simp, rfl⟩
  · exact .inl ⟨Store.check_of_unmarked hx hspent, hs⟩

theorem consume_bucket {res : Except (StoreError IpAddr) Nat} {bk' : Bucket} (hfree : v.store.refills.get b = none)
    (h : consume eval v server b c = some (res, v', server')) (hb : v'.store.buckets.get b = some bk') :
    (∃ bk, v.store.buckets.get b = some bk ∧ bk'.expiresAt = bk.expiresAt ∧ bk'.window = bk.window) ∨
    ∃ r, (leaseReply eval server b c).1 = .ok r ∧ 0 < r.leased ∧ server' = (leaseReply eval server b c).2 ∧
      bk'.expiresAt = (v.newBucket c r).expiresAt ∧ bk'.window = r.window := by
  rcases consume_cases hfree h with ⟨bk, -, -, -, rfl, -⟩ | ⟨bk, -, -, -, -, -, rfl, -⟩ |
    ⟨-, -, hs, ⟨e, -, -, rfl⟩ | ⟨r, -, -, -, rfl⟩ | ⟨r, hr, hpos, -, rfl⟩⟩
  · exact .inl ⟨bk', hb, rfl, rfl⟩
  · exact .inl (get_look hb)
  · exact .inl ⟨bk', hb, rfl, rfl⟩
  · rw [DashMap.get_modify_self] at hb
    obtain ⟨bk, hbk, rfl⟩ := Option.map_eq_some_iff.mp hb
    exact .inl ⟨bk, hbk, rfl, rfl⟩
  · right
    obtain ⟨bk, hbk, hexpires, hwindow⟩ := get_look hb
    obtain rfl : v.newBucket c r = bk := by simpa [filled] using hbk
    exact ⟨r, hr, hpos, hs, hexpires, hwindow⟩

/-- A call is refused for lack of tokens because of the mark on the bucket, or because the lease
script has just found the key live and without tokens. -/
theorem exhausted_cases [ToString IpAddr] {cfg : Config} {id : BucketId IpAddr} {retry : Nat}
    (hfree : v.store.refills.get b = none)
    (h : consume (evalLease cfg) v server b c = some (.error (.exhausted id retry), v', server')) :
    (∃ bk, v.store.buckets.get b = some bk ∧ bk.exhausted = true) ∨
    ∃ reply e, server'.log = ⟨b.toKey, .ok reply⟩ :: server.log ∧ reply.leased = 0 ∧
      (server.elapse c.wait).find b.toKey = some e ∧ e.value ≤ 0 := by
  rcases consume_cases hfree h with ⟨bk, hb, hx, -⟩ | ⟨bk, -, -, -, -, he, -⟩ |
    ⟨-, -, hs, ⟨e, -, he, -⟩ | ⟨r, hr, hzero, -⟩ | ⟨r, -, -, he, -⟩⟩
  · exact .inl ⟨bk, hb, hx⟩
  · cases he
  · cases he
  · obtain ⟨reply, e, hserver, hleased, hf, hv⟩ := evalLease_zero hr hzero
    exact .inr ⟨reply, e, by rw [hs, leaseReply, hserver]; rfl, hleased, hf, hv⟩
  · cases he

end Node

end ThatLimit
