import ThatLimit.Core.Bucket
import ThatLimit.Core.Redis
/-!
# The lease and release scripts (`cache.rs`)

A script runs atomically on Redis. `Server` is the Redis instance together with
history variables: how many windows each key has had, the expiry each key was given
when its last window opened, and the lease scripts that were run, newest first.
-/
namespace ThatLimit

/-- `that_limit_cache::Error`, as far as `Redis::eval` raises it. -/
inductive CacheError
  | redis (e : RedisError)
  deriving DecidableEq, Repr

/-- How a call of `Redis::eval` fares. A lost reply leaves its script run. -/
inductive Link
  | answers
  | replyLost (e : RedisError)
  | unreachable (e : RedisError)

section ToKey

variable {IpAddr : Type} [ToString IpAddr]

/-- `Key::to_key`; `ToString` stands for the address's `Display`. -/
def BucketId.toKey : BucketId IpAddr → String
  | .publicIp ip => "ip:" ++ toString ip
  | .protectedSub sub => "sub:" ++ sub

theorem BucketId.toKey_ip_ne_sub (ip : IpAddr) (sub : String) :
    (BucketId.publicIp ip).toKey ≠ (BucketId.protectedSub sub : BucketId IpAddr).toKey := by
  intro h
  have hl := congrArg String.toList h
  simp [toKey] at hl

theorem BucketId.toKey_injective (hdisplay : Function.Injective (toString : IpAddr → String)) :
    Function.Injective (toKey : BucketId IpAddr → String) := by
  intro b b' h
  cases b with
  | publicIp ip =>
      cases b' with
      | publicIp ip' =>
          simp only [toKey, String.append_right_inj] at h
          rw [hdisplay h]
      | protectedSub sub => exact absurd h (toKey_ip_ne_sub ip sub)
  | protectedSub sub =>
      cases b' with
      | publicIp ip => exact absurd h.symm (toKey_ip_ne_sub ip sub)
      | protectedSub sub' =>
          simp only [toKey, String.append_right_inj] at h
          rw [h]

end ToKey

/-- What the lease script returns: tokens, `PTTL` and `PEXPIRETIME`. -/
structure LeaseReply where
  leased : Int
  pttl : Int
  window : Int
  deriving DecidableEq, Repr

/-- The reply converted to `(u64, u64, i64)`. -/
structure Leased where
  leased : Nat
  pttl : Nat
  window : Int
  deriving DecidableEq, Repr

/-- Neither script replies with a negative count or time, so what a client makes of one does not matter. -/
def LeaseReply.decode (r : LeaseReply) : Except CacheError Leased :=
  if r.leased < 0 ∨ r.pttl < 0 then .error (.redis .unexpectedReturnType)
  else .ok { leased := r.leased.toNat, pttl := r.pttl.toNat, window := r.window }

theorem LeaseReply.decode_of_nonneg {leased pttl : Int} (window : Int) (hleased : 0 ≤ leased) (hpttl : 0 ≤ pttl) :
    LeaseReply.decode ⟨leased, pttl, window⟩ = .ok ⟨leased.toNat, pttl.toNat, window⟩ := by
  unfold LeaseReply.decode
  rw [if_neg (by simp only; omega)]

theorem LeaseReply.decode_eq_ok {reply : LeaseReply} {r : Leased} (h : reply.decode = .ok r) :
    0 ≤ reply.leased ∧ 0 ≤ reply.pttl ∧ r = ⟨reply.leased.toNat, reply.pttl.toNat, reply.window⟩ := by
  unfold LeaseReply.decode at h
  split at h
  · cases h
  · next hneg =>
      cases h
      exact ⟨by omega, by omega, rfl⟩

/-- `LEASE_SCRIPT` with exact numbers; `leaseScriptChecked` has those of Redis. -/
def leaseScript (db : Db) (now : Nat) (key : String) (leaseSize quota defaultTtl : Nat) :
    Except RedisError (LeaseReply × Db) :=
  match db.get now key with
  | none =>
      let remaining : Int := quota - leaseSize
      match db.setex now key defaultTtl remaining with
      | .error e => .error e
      | .ok db' => .ok (⟨leaseSize, db'.pttl now key, db'.pexpiretime now key⟩, db')
  | some tokens =>
      if tokens ≤ 0 then .ok (⟨0, db.pttl now key, db.pexpiretime now key⟩, db)
      else
        let toLease := min tokens leaseSize
        let db' := db.decrby now key toLease
        .ok (⟨toLease, db'.pttl now key, db'.pexpiretime now key⟩, db')

/-- `RELEASE_SCRIPT` with exact numbers; `releaseScriptChecked` has those of Redis. -/
def releaseScript (db : Db) (now : Nat) (key : String) (tokens : Nat) (window : Int) : Nat × Db :=
  if db.pexpiretime now key ≠ window then (0, db)
  else (1, db.incrby now key tokens)

/-- The time left that `cache::lease` returns: `PTTL` less the time since before the call. -/
def leaseTtl (pttl : Nat) (started now : Nat) : Nat :=
  fromMillis pttl - (now - started)

theorem leaseScript_cases {db db' : Db} {now : Nat} {key : String} {leaseSize quota ttl : Nat}
    {r : LeaseReply} (h : leaseScript db now key leaseSize quota ttl = .ok (r, db')) :
    (db.find now key = none ∧ 0 < ttl ∧
      db' = db.set key ⟨quota - leaseSize, some (now + ttl * 1000)⟩ ∧
      r = ⟨leaseSize, ttl * 1000, now + ttl * 1000⟩) ∨
    (∃ e, db.find now key = some e ∧ e.value ≤ 0 ∧ db' = db ∧ r = ⟨0, e.pttl now, e.pexpiretime⟩) ∨
    (∃ e, db.find now key = some e ∧ 0 < e.value ∧
      db' = db.set key { e with value := e.value - min e.value leaseSize } ∧
      r = ⟨min e.value leaseSize, e.pttl now, e.pexpiretime⟩) := by
  unfold leaseScript Db.get at h
  cases hf : db.find now key with
  | none =>
      left
      simp only [hf, Option.map_none, Db.setex] at h
      split at h
      · cases h
      · next db1 hset =>
          split at hset
          · cases hset
          · next httl =>
              cases hset
              have hlive : (⟨(quota : Int) - leaseSize, some (now + ttl * 1000)⟩ : Entry).live now = true := by
                simp [Entry.live]
              simp only [Db.pttl, Db.pexpiretime, Db.find_set_self, hlive, if_true, Option.map_some,
                Option.getD_some, Except.ok.injEq, Prod.mk.injEq] at h
              obtain ⟨rfl, rfl⟩ := h
              refine ⟨rfl, by omega, rfl, ?_⟩
              simp only [Entry.pttl, Entry.pexpiretime, LeaseReply.mk.injEq, true_and]
              omega
  | some e =>
      right
      have hlive := (Db.find_eq_some_iff.mp hf).2
      simp only [hf, Option.map_some] at h
      split at h
      · next hv =>
          left
          simp only [Db.pttl, Db.pexpiretime, hf, Option.map_some, Option.getD_some,
            Except.ok.injEq, Prod.mk.injEq] at h
          exact ⟨e, rfl, hv, h.2.symm, h.1.symm⟩
      · next hv =>
          right
          have hlive' : ({ e with value := e.value + -(min e.value leaseSize) } : Entry).live now = true :=
            hlive
          simp only [Db.decrby, Db.incrby, hf, Db.pttl, Db.pexpiretime, Db.find_set_self, hlive',
            if_true, Option.map_some, Option.getD_some, Except.ok.injEq, Prod.mk.injEq] at h
          exact ⟨e, rfl, by omega, h.2.symm, h.1.symm⟩

theorem leaseScript_answers {db : Db} {now : Nat} {key : String} (leaseSize quota : Nat) {ttl : Nat}
    (h : db.find now key = none → 0 < ttl ∧ ttl * 1000 + now < 2 ^ 63) :
    ∃ r db', leaseScript db now key leaseSize quota ttl = .ok (r, db') := by
  unfold leaseScript Db.get
  cases hf : db.find now key with
  | none =>
      obtain ⟨hpos, hrange⟩ := h hf
      have hvalid : ¬(ttl = 0 ∨ 2 ^ 63 ≤ ttl * 1000 + now) := by omega
      simp only [Option.map_none, Db.setex, if_neg hvalid]
      exact ⟨_, _, rfl⟩
  | some e =>
      simp only [Option.map_some]
      split
      · exact ⟨_, _, rfl⟩
      · exact ⟨_, _, rfl⟩

theorem leaseScript_range {db db' : Db} {now : Nat} {key : String} {leaseSize quota ttl : Nat} {r : LeaseReply}
    (hf : db.find now key = none) (h : leaseScript db now key leaseSize quota ttl = .ok (r, db')) :
    0 < ttl ∧ ttl * 1000 + now < 2 ^ 63 := by
  unfold leaseScript Db.get Db.setex at h
  simp only [hf, Option.map_none] at h
  by_cases hinvalid : ttl = 0 ∨ 2 ^ 63 ≤ ttl * 1000 + now
  · rw [if_pos hinvalid] at h
    cases h
  · omega

/-- The release script adds the tokens to a live key whose expiry is `window`; a key with
an expiry of its own is never created by it when `window` is a time. -/
theorem releaseScript_cases (db : Db) (now : Nat) (key : String) (tokens : Nat) {window : Int}
    (hw : 0 ≤ window) :
    (∃ e, db.find now key = some e ∧ e.pexpiretime = window ∧
      releaseScript db now key tokens window = (1, db.set key { e with value := e.value + tokens })) ∨
    ((∀ e, db.find now key = some e → e.pexpiretime ≠ window) ∧
      releaseScript db now key tokens window = (0, db)) := by
  unfold releaseScript Db.pexpiretime
  cases hf : db.find now key with
  | none =>
      right
      simp only [Option.map_none, Option.getD_none, reduceCtorEq, false_imp_iff, implies_true, true_and]
      rw [if_pos (by omega)]
  | some e =>
      by_cases he : e.pexpiretime = window
      · left
        exact ⟨e, rfl, he, by simp [he, Db.incrby, hf]⟩
      · right
        refine ⟨?_, by simp [he]⟩
        intro e' he'
        cases he'
        exact he

/-- One run of the lease script. -/
structure LeaseRun where
  key : String
  reply : Except RedisError LeaseReply

structure Server where
  db : Db
  now : Nat
  epoch : String → Nat
  opened : String → Nat
  log : List LeaseRun

namespace Server

/-- A Redis instance without keys. -/
def start (now : Nat) : Server :=
  { db := fun _ => none, now, epoch := fun _ => 0, opened := fun _ => 0, log := [] }

def find (s : Server) (key : String) : Option Entry := s.db.find s.now key

def elapse (s : Server) (ms : Nat) : Server := { s with now := s.now + ms }

/-- What Redis is after a lease script with the given end; the key's next window began when there was no live key. -/
def ran (s : Server) (key : String) (ttl : Nat) :
    Except RedisError (LeaseReply × Db) → Except RedisError LeaseReply × Server
  | .error e => (.error e, { s with log := ⟨key, .error e⟩ :: s.log })
  | .ok (r, db) =>
      (.ok r,
        { s with
          db
          epoch := if (s.find key).isNone then Function.update s.epoch key (s.epoch key + 1) else s.epoch
          opened :=
            if (s.find key).isNone then Function.update s.opened key (s.now + ttl * 1000) else s.opened
          log := ⟨key, .ok r⟩ :: s.log })

def lease (s : Server) (key : String) (leaseSize quota ttl : Nat) : Except RedisError LeaseReply × Server :=
  s.ran key ttl (leaseScript s.db s.now key leaseSize quota ttl)

/-- `cache::release` when Redis answers: `Ok(released == 1)`. -/
def release (s : Server) (key : String) (tokens : Nat) (window : Int) : Bool × Server :=
  ((releaseScript s.db s.now key tokens window).1 == 1,
    { s with db := (releaseScript s.db s.now key tokens window).2 })

@[simp] theorem lease_now (s : Server) (key : String) (leaseSize quota ttl : Nat) :
    (s.lease key leaseSize quota ttl).2.now = s.now := by
  unfold lease ran
  split <;> rfl

theorem lease_error {s s' : Server} {key : String} {leaseSize quota ttl : Nat} {e : RedisError}
    (h : s.lease key leaseSize quota ttl = (.error e, s')) :
    s' = { s with log := ⟨key, .error e⟩ :: s.log } := by
  unfold lease ran at h
  split at h
  · cases h; rfl
  · cases h

/-- A lease opens a window, finds it drained, or takes tokens from it. -/
theorem lease_cases {s s' : Server} {key : String} {leaseSize quota ttl : Nat} {r : LeaseReply}
    (h : s.lease key leaseSize quota ttl = (.ok r, s')) :
    (s.find key = none ∧ 0 < ttl ∧ r = ⟨leaseSize, ttl * 1000, s.now + ttl * 1000⟩ ∧
      s' = { s with
        db := s.db.set key ⟨quota - leaseSize, some (s.now + ttl * 1000)⟩
        epoch := Function.update s.epoch key (s.epoch key + 1)
        opened := Function.update s.opened key (s.now + ttl * 1000)
        log := ⟨key, .ok r⟩ :: s.log }) ∨
    (∃ e, s.find key = some e ∧ e.value ≤ 0 ∧ r = ⟨0, e.pttl s.now, e.pexpiretime⟩ ∧
      s' = { s with log := ⟨key, .ok r⟩ :: s.log }) ∨
    (∃ e, s.find key = some e ∧ 0 < e.value ∧
      r = ⟨min e.value leaseSize, e.pttl s.now, e.pexpiretime⟩ ∧
      s' = { s with
        db := s.db.set key { e with value := e.value - min e.value leaseSize }
        log := ⟨key, .ok r⟩ :: s.log }) := by
  unfold lease ran at h
  split at h
  · cases h
  · next r' db hscript =>
      obtain ⟨hr, hs⟩ := Prod.mk.inj h
      cases hr
      rcases leaseScript_cases hscript with ⟨hf, httl, rfl, rfl⟩ | ⟨e, hf, hv, rfl, rfl⟩ | ⟨e, hf, hv, rfl, rfl⟩
      · left
        refine ⟨hf, httl, rfl, ?_⟩
        rw [← hs]
        simp [find, hf]
      · right; left
        refine ⟨e, hf, hv, rfl, ?_⟩
        rw [← hs]
        simp [find, hf]
      · right; right
        refine ⟨e, hf, hv, rfl, ?_⟩
        rw [← hs]
        simp [find, hf]

theorem lease_effect (s : Server) (key : String) (leaseSize quota ttl : Nat) : ∃ reply,
    (s.lease key leaseSize quota ttl).2 = { s with log := ⟨key, reply⟩ :: s.log } ∨
    (s.find key = none ∧ 0 < ttl ∧ (s.lease key leaseSize quota ttl).2 = { s with
      db := s.db.set key ⟨quota - leaseSize, some (s.now + ttl * 1000)⟩
      epoch := Function.update s.epoch key (s.epoch key + 1)
      opened := Function.update s.opened key (s.now + ttl * 1000)
      log := ⟨key, reply⟩ :: s.log }) ∨
    ∃ e, s.find key = some e ∧ 0 < e.value ∧ (s.lease key leaseSize quota ttl).2 = { s with
      db := s.db.set key { e with value := e.value - min e.value leaseSize }
      log := ⟨key, reply⟩ :: s.log } := by
  rcases hl : s.lease key leaseSize quota ttl with ⟨e | r, s'⟩
  · exact ⟨_, .inl (lease_error hl)⟩
  · rcases lease_cases hl with ⟨hf, httl, -, hs⟩ | ⟨e, -, -, -, hs⟩ | ⟨e, hf, hv, -, hs⟩
    · exact ⟨_, .inr (.inl ⟨hf, httl, hs⟩)⟩
    · exact ⟨_, .inl hs⟩
    · exact ⟨_, .inr (.inr ⟨e, hf, hv, hs⟩)⟩

theorem lease_other (s : Server) {key key' : String} (leaseSize quota ttl : Nat) (hkey : key' ≠ key) :
    (s.lease key leaseSize quota ttl).2.db key' = s.db key' ∧
    (s.lease key leaseSize quota ttl).2.epoch key' = s.epoch key' := by
  obtain ⟨reply, hs | ⟨-, -, hs⟩ | ⟨e, -, -, hs⟩⟩ := s.lease_effect key leaseSize quota ttl
  · rw [hs]
    exact ⟨rfl, rfl⟩
  · rw [hs]
    exact ⟨Db.set_ne _ _ hkey, Function.update_of_ne hkey ..⟩
  · rw [hs]
    exact ⟨Db.set_ne _ _ hkey, rfl⟩

theorem past_of_find_none {s : Server} {key : String} {e : Entry} {w : Nat} (hf : s.find key = none)
    (hdb : s.db key = some e) (hw : e.expireAt = some w) : w < s.now := by
  by_contra hle
  have hlive : s.find key = some e :=
    Db.find_eq_some_iff.mpr ⟨hdb, by simp only [Entry.live, hw, decide_eq_true_eq]; omega⟩
  rw [hf] at hlive
  cases hlive

theorem lease_answers (s : Server) (key : String) (leaseSize quota : Nat) {ttl : Nat}
    (h : s.find key = none → 0 < ttl ∧ ttl * 1000 + s.now < 2 ^ 63) :
    ∃ r s', s.lease key leaseSize quota ttl = (.ok r, s') := by
  obtain ⟨r, db, hscript⟩ := leaseScript_answers leaseSize quota h
  unfold lease ran
  rw [hscript]
  exact ⟨_, _, rfl⟩

theorem lease_range {s s' : Server} {key : String} {leaseSize quota ttl : Nat} {r : LeaseReply}
    (hf : s.find key = none) (h : s.lease key leaseSize quota ttl = (.ok r, s')) :
    0 < ttl ∧ ttl * 1000 + s.now < 2 ^ 63 := by
  unfold lease ran at h
  split at h
  · cases h
  · next hscript => exact leaseScript_range hf hscript

theorem release_cases (s : Server) (key : String) (tokens : Nat) {window : Int} (hw : 0 ≤ window) :
    (∃ e, s.find key = some e ∧ e.pexpiretime = window ∧ s.release key tokens window =
      (true, { s with db := s.db.set key { e with value := e.value + tokens } })) ∨
    ((∀ e, s.find key = some e → e.pexpiretime ≠ window) ∧ s.release key tokens window = (false, s)) := by
  rcases releaseScript_cases s.db s.now key tokens hw with ⟨e, hf, he, hr⟩ | ⟨hne, hr⟩
  · exact .inl ⟨e, hf, he, by simp [release, hr]⟩
  · exact .inr ⟨hne, by simp [release, hr]⟩

/-- Every key has a count and an expiry. -/
def Sane (s : Server) : Prop := ∀ key e, s.db key = some e → 0 ≤ e.value ∧ ∃ w, e.expireAt = some w

theorem Sane.lease {s : Server} (h : s.Sane) (key : String) {leaseSize quota : Nat} (hle : leaseSize ≤ quota)
    (ttl : Nat) : (s.lease key leaseSize quota ttl).2.Sane := by
  obtain ⟨reply, hs | ⟨-, -, hs⟩ | ⟨e, hf, hpos, hs⟩⟩ := s.lease_effect key leaseSize quota ttl
  · rw [hs]
    exact h
  · rw [hs]
    exact Db.forall_set h key ⟨by simp only; omega, _, rfl⟩
  · rw [hs]
    apply Db.forall_set h key
    refine ⟨?_, (h key e (Db.find_eq_some_iff.mp hf).1).2⟩
    simp only
    omega

theorem Sane.pttl_nonneg {s : Server} (h : s.Sane) {key : String} {e : Entry} (hf : s.find key = some e) :
    0 ≤ e.pttl s.now := by
  obtain ⟨hdb, hlive⟩ := Db.find_eq_some_iff.mp hf
  obtain ⟨w, hw⟩ := (h _ _ hdb).2
  simp only [Entry.live, hw, decide_eq_true_eq] at hlive
  simp only [Entry.pttl, hw]
  omega

end Server

section Eval

variable {link : Link} {server : Server} {ran : Except RedisError LeaseReply × Server} {r : Leased}

/-- `Redis::eval`, when Redis would run the script as `ran` says. -/
def Link.eval (link : Link) (server : Server) (ran : Except RedisError LeaseReply × Server) :
    Except CacheError Leased × Server :=
  match link with
  | .answers => ((ran.1.mapError CacheError.redis).bind LeaseReply.decode, ran.2)
  | .replyLost e => (.error (.redis e), ran.2)
  | .unreachable e => (.error (.redis e), server)

theorem Link.eval_ok (h : (link.eval server ran).1 = .ok r) : link = .answers ∧ ∃ reply,
    ran = (.ok reply, (link.eval server ran).2) ∧ reply.decode = .ok r := by
  obtain ⟨res, server'⟩ := ran
  cases link with
  | answers =>
      cases res with
      | error e => cases h
      | ok reply => exact ⟨rfl, reply, rfl, h⟩
  | replyLost e | unreachable e => cases h

theorem Link.eval_server (link : Link) (server : Server) (ran : Except RedisError LeaseReply × Server) :
    (link.eval server ran).2 = server ∨ (link.eval server ran).2 = ran.2 := by
  cases link with
  | answers | replyLost e => exact .inr rfl
  | unreachable e => exact .inl rfl

end Eval

end ThatLimit
