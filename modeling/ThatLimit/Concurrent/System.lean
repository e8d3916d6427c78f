import ThatLimit.Core.Store
import ThatLimit.Framework.Chunks
import ThatLimit.Lease.Ledger
/-!
# Tasks, workers and Redis

Any number of instances serve any number of `Store::consume` calls, each a task
with a program counter that stops wherever the call touches shared state. The
worker of an instance is the task `Store::new` spawns for cleanup and shutdown. All
clocks run on their own. The ledger, `origin`, `version` and `answers` are history.
-/
namespace ThatLimit

variable {ι IpAddr : Type}

/-- Where a `Store::consume` call stands, named after the step it takes next. -/
inductive Pc (IpAddr : Type)
  | check
  /-- `check` answered `false`; `seen` buckets had been inserted under the id by then. -/
  | entry (seen : Nat)
  | lease (n : Notify)
  /-- The lease script is on its way to Redis. -/
  | eval (n : Notify) (started : Nat)
  /-- Redis is done with grant `g`, or has failed. -/
  | reply (n : Notify) (started : Nat) (res : Except CacheError Leased) (g : Nat)
  | leased (n : Notify) (g leased ttl : Nat) (window : Int)
  | refilled (n : Notify) (res : Except (StoreError IpAddr) Unit)
  | notify (n : Notify) (res : Except (StoreError IpAddr) Unit)
  | occupied (n : Notify)
  /-- Waits on a `Notified` created when `notify_waiters` had been called `calls` times. -/
  | notified (n : Notify) (calls : Nat)
  | take
  | expired
  | done (res : Except (StoreError IpAddr) Nat)
  /-- The future was dropped; its lease script may still be on its way. -/
  | dropped (inFlight : Bool)

structure Task (ι IpAddr : Type) where
  inst : ι
  id : BucketId IpAddr
  pc : Pc IpAddr

/-- What the shutdown branch collects for a bucket. -/
structure Snapshot (IpAddr : Type) where
  id : BucketId IpAddr
  tokens : Nat
  window : Int
  /-- The grant the bucket was built from. -/
  grant : Nat

/-- The task spawned by `Store::new`, absent when there is no `shutdown_tx`. -/
inductive Worker (IpAddr : Type)
  | off
  | idle
  | collecting (todo expiredKeys : List (BucketId IpAddr))
  | sweeping (chunks : List (List (BucketId IpAddr)))
  | noting (todo : List (BucketId IpAddr)) (replenish : List (Snapshot IpAddr))
  | releasing (chunks : List (List (Snapshot IpAddr)))
  | complete

structure Inst (IpAddr : Type) where
  now : Nat
  store : Store IpAddr
  worker : Worker IpAddr
  /-- The grant the stored bucket was built from. -/
  origin : BucketId IpAddr → Nat
  /-- How many buckets have been inserted under the id. -/
  version : BucketId IpAddr → Nat

structure Sys (ι IpAddr : Type) where
  insts : ι → Inst IpAddr
  tasks : Nat → Option (Task ι IpAddr)
  ledger : Ledger ι IpAddr
  /-- Calls of `notify_waiters`. -/
  calls : Notify → Nat
  nextNotify : Notify
  answers : List (Answer ι IpAddr)

inductive Action (ι IpAddr : Type)
  | spawn (t : Nat) (i : ι) (b : BucketId IpAddr)
  /-- Task `t` takes its next step, other than the run of its lease script. -/
  | run (t : Nat)
  | eval (t : Nat) (link : Link)
  /-- The future of task `t` is dropped at an await. -/
  | cancel (t : Nat)
  /-- Redis runs the lease script of a dropped future. -/
  | orphan (t : Nat)
  | elapse (i : ι) (ns : Nat)
  | redisElapse (ms : Nat)
  | tick (i : ι) (order : List (BucketId IpAddr))
  | shutdown (i : ι) (order : List (BucketId IpAddr))
  /-- The worker looks at the next bucket of its iteration. -/
  | visit (i : ι)
  /-- The task of chunk `c` removes its next key. -/
  | sweep (i : ι) (c : Nat)
  | release (i : ι) (c : Nat) (link : Link)
  /-- All chunks are done. -/
  | join (i : ι)

namespace Sys

variable [DecidableEq ι] [DecidableEq IpAddr] [ToString IpAddr]

def setInst (s : Sys ι IpAddr) (i : ι) (v : Inst IpAddr) : Sys ι IpAddr :=
  { s with insts := Function.update s.insts i v }

def setStore (s : Sys ι IpAddr) (i : ι) (store : Store IpAddr) : Sys ι IpAddr :=
  s.setInst i { s.insts i with store }

def setWorker (s : Sys ι IpAddr) (i : ι) (worker : Worker IpAddr) : Sys ι IpAddr :=
  s.setInst i { s.insts i with worker }

def goto (s : Sys ι IpAddr) (t : Nat) (k : Task ι IpAddr) (pc : Pc IpAddr) : Sys ι IpAddr :=
  { s with tasks := Function.update s.tasks t (some { k with pc }) }

def answer (s : Sys ι IpAddr) (t : Nat) (k : Task ι IpAddr) (res : Except (StoreError IpAddr) Nat) :
    Sys ι IpAddr :=
  { s.goto t k (.done res) with answers := s.answers ++ [⟨k.inst, k.id, res⟩] }

/-- What `ensure_refilled` returned goes on to `consume`. -/
def resume (s : Sys ι IpAddr) (t : Nat) (k : Task ι IpAddr) :
    Except (StoreError IpAddr) Unit → Sys ι IpAddr
  | .ok () => s.goto t k .take
  | .error e => s.answer t k (.error e)

/-- The end of `Store::lease`, with the bucket and its history put under the id. -/
def settle (s : Sys ι IpAddr) (t : Nat) (k : Task ι IpAddr) (n : Notify) (g leased ttl : Nat)
    (window : Int) : Sys ι IpAddr :=
  let v := s.insts k.inst
  let (res, store) := v.store.leased v.now k.id leased ttl window
  if leased = 0 then (s.setStore k.inst store).goto t k (.refilled n res)
  else
    { s.setInst k.inst { v with
        store
        origin := Function.update v.origin k.id g
        version := Function.update v.version k.id (v.version k.id + 1) } with
      ledger := s.ledger.land g }.goto t k (.refilled n res)

/-- The last look at the bucket. A token is spent unless there is none. -/
def takeToken (s : Sys ι IpAddr) (t : Nat) (k : Task ι IpAddr) : Sys ι IpAddr :=
  let v := s.insts k.inst
  match v.store.take v.now k.id with
  | none => s.goto t k .expired
  | some (left, store) =>
      let s' := (s.setStore k.inst store).answer t k (.ok left)
      match v.store.buckets.get k.id with
      | some bk => if bk.isEmpty then s' else { s' with ledger := s.ledger.spend (v.origin k.id) }
      | none => s'

def run (s : Sys ι IpAddr) (t : Nat) : Option (Sys ι IpAddr) :=
  match s.tasks t with
  | none => none
  | some k =>
      let v := s.insts k.inst
      match k.pc with
      | .check =>
          match v.store.check v.now k.id with
          | .error e => some (s.answer t k (.error e))
          | .ok true => some (s.goto t k .take)
          | .ok false => some (s.goto t k (.entry (v.version k.id)))
      | .entry _ =>
          match v.store.refills.get k.id with
          | some n => some (s.goto t k (.occupied n))
          | none =>
              some ({ s.setStore k.inst (v.store.claim k.id s.nextNotify) with
                nextNotify := s.nextNotify + 1 }.goto t k (.lease s.nextNotify))
      | .lease n => some (s.goto t k (.eval n v.now))
      | .reply n _ (.error e) _ => some (s.goto t k (.refilled n (.error (.cache e))))
      | .reply n started (.ok r) g =>
          some (s.goto t k (.leased n g r.leased (leaseTtl r.pttl started v.now) r.window))
      | .leased n g leased ttl window => some (s.settle t k n g leased ttl window)
      | .refilled _ res =>
          let s' := s.setStore k.inst (v.store.unclaim k.id)
          match v.store.refills.get k.id with
          | some n => some (s'.goto t k (.notify n res))
          | none => some (s'.resume t k res)
      | .notify n res =>
          some ({ s with calls := Function.update s.calls n (s.calls n + 1) }.resume t k res)
      | .occupied n => some (s.goto t k (.notified n (s.calls n)))
      | .notified n calls => if s.calls n = calls then none else some (s.goto t k .check)
      | .take => some (s.takeToken t k)
      | .expired => some ((s.setStore k.inst (v.store.removeBucket k.id)).answer t k (.ok 0))
      | .eval .. | .done _ | .dropped _ => none

/-- The lease script of task `t` and what its caller gets to see. -/
def eval (s : Sys ι IpAddr) (cfg : Config) (t : Nat) (link : Link) : Option (Sys ι IpAddr) :=
  match s.tasks t with
  | none => none
  | some k =>
      match k.pc with
      | .eval n started =>
          let g := s.ledger.grants.length
          match link with
          | .answers =>
              let (res, ledger) := s.ledger.lease cfg k.inst k.id
              let res := (res.mapError CacheError.redis).bind LeaseReply.decode
              some ({ s with ledger }.goto t k (.reply n started res g))
          | .replyLost e =>
              some ({ s with ledger := (s.ledger.lease cfg k.inst k.id).2 }.goto t k
                (.reply n started (.error (.redis e)) g))
          | .unreachable e => some (s.goto t k (.reply n started (.error (.redis e)) g))
      | _ => none

def cancel (s : Sys ι IpAddr) (t : Nat) : Option (Sys ι IpAddr) :=
  match s.tasks t with
  | none => none
  | some k =>
      match k.pc with
      | .eval .. => some (s.goto t k (.dropped true))
      | .reply .. => some (s.goto t k (.dropped false))
      | .notified .. => some (s.goto t k (.dropped false))
      | _ => none

def orphan (s : Sys ι IpAddr) (cfg : Config) (t : Nat) : Option (Sys ι IpAddr) :=
  match s.tasks t with
  | none => none
  | some k =>
      match k.pc with
      | .dropped true =>
          some ({ s with ledger := (s.ledger.lease cfg k.inst k.id).2 }.goto t k (.dropped false))
      | _ => none

/-- An iteration sees every key that is there from the beginning, and none twice. -/
def Covers (s : Sys ι IpAddr) (i : ι) (order : List (BucketId IpAddr)) : Prop :=
  order.Nodup ∧ ∀ b ∈ (s.insts i).store.buckets.keys, b ∈ order

instance (s : Sys ι IpAddr) (i : ι) (order : List (BucketId IpAddr)) : Decidable (s.Covers i order) :=
  inferInstanceAs (Decidable (_ ∧ _))

def tick (s : Sys ι IpAddr) (i : ι) (order : List (BucketId IpAddr)) : Option (Sys ι IpAddr) :=
  match (s.insts i).worker with
  | .idle =>
      if (s.insts i).store.buckets.isEmpty then some s
      else if s.Covers i order then some (s.setWorker i (.collecting order [])) else none
  | _ => none

def shutdown (s : Sys ι IpAddr) (i : ι) (order : List (BucketId IpAddr)) : Option (Sys ι IpAddr) :=
  match (s.insts i).worker with
  | .idle =>
      if (s.insts i).store.buckets.isEmpty then some (s.setWorker i .complete)
      else if s.Covers i order then some (s.setWorker i (.noting order [])) else none
  | _ => none

def visit (s : Sys ι IpAddr) (i : ι) : Option (Sys ι IpAddr) :=
  let v := s.insts i
  match v.worker with
  | .collecting (b :: todo) expiredKeys =>
      match v.store.buckets.get b with
      | some bk =>
          if bk.isExpired v.now then some (s.setWorker i (.collecting todo (expiredKeys ++ [b])))
          else some (s.setWorker i (.collecting todo expiredKeys))
      | none => some (s.setWorker i (.collecting todo expiredKeys))
  | .collecting [] expiredKeys =>
      if expiredKeys.isEmpty then some (s.setWorker i .idle)
      else some (s.setWorker i (.sweeping (Chunks.chunks chunkSize expiredKeys)))
  | .noting (b :: todo) replenish =>
      match v.store.buckets.get b with
      | some bk =>
          if bk.isEmpty || bk.isExpired v.now then some (s.setWorker i (.noting todo replenish))
          else
            some { s.setWorker i (.noting todo (replenish ++ [⟨b, bk.tokens, bk.window, v.origin b⟩])) with
              ledger := s.ledger.note (v.origin b) bk.tokens }
      | none => some (s.setWorker i (.noting todo replenish))
  | .noting [] replenish =>
      if replenish.isEmpty then some (s.setWorker i .complete)
      else some (s.setWorker i (.releasing (Chunks.chunks chunkSize replenish)))
  | _ => none

def sweep (s : Sys ι IpAddr) (i : ι) (c : Nat) : Option (Sys ι IpAddr) :=
  match (s.insts i).worker with
  | .sweeping chunks =>
      match chunks[c]? with
      | some (b :: rest) =>
          some (s.setInst i { s.insts i with
            store := (s.insts i).store.removeBucket b, worker := .sweeping (chunks.set c rest) })
      | _ => none
  | _ => none

def release (s : Sys ι IpAddr) (i : ι) (c : Nat) (link : Link) : Option (Sys ι IpAddr) :=
  match (s.insts i).worker with
  | .releasing chunks =>
      match chunks[c]? with
      | some (p :: rest) =>
          let s' := s.setWorker i (.releasing (chunks.set c rest))
          match link with
          | .unreachable _ => some s'
          | _ => some { s' with ledger := (s.ledger.release p.grant p.id p.tokens p.window).2 }
      | _ => none
  | _ => none

def join (s : Sys ι IpAddr) (i : ι) : Option (Sys ι IpAddr) :=
  match (s.insts i).worker with
  | .sweeping chunks => if chunks.all List.isEmpty then some (s.setWorker i .idle) else none
  | .releasing chunks => if chunks.all List.isEmpty then some (s.setWorker i .complete) else none
  | _ => none

/-- Every instance has just been built by `Store::new`; its clock shows `clock i`. -/
def start (cfg : Config) (clock : ι → Nat) (now : Nat) : Sys ι IpAddr where
  insts i :=
    { now := clock i, store := .new, worker := if cfg.cleanup.enabled then .idle else .off
      origin := fun _ => 0, version := fun _ => 0 }
  tasks _ := none
  ledger := .start now
  calls _ := 0
  nextNotify := 0
  answers := []

def next (cfg : Config) (s : Sys ι IpAddr) : Action ι IpAddr → Option (Sys ι IpAddr)
  | .spawn t i b =>
      if (s.tasks t).isNone then some (s.goto t ⟨i, b, .check⟩ .check) else none
  | .run t => s.run t
  | .eval t link => s.eval cfg t link
  | .cancel t => s.cancel t
  | .orphan t => s.orphan cfg t
  | .elapse i ns => some (s.setInst i { s.insts i with now := (s.insts i).now + ns })
  | .redisElapse ms => some { s with ledger := s.ledger.elapse ms }
  | .tick i order => s.tick i order
  | .shutdown i order => s.shutdown i order
  | .visit i => s.visit i
  | .sweep i c => s.sweep i c
  | .release i c link => s.release i c link
  | .join i => s.join i

end Sys

end ThatLimit
