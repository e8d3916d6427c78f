import ThatLimit.Framework.Transition
import ThatLimit.Serial.Call
/-!
# Instances that take turns

Any number of instances under one config, where each call returns before the next one
starts. Cleanup ticks and the passage of time come in between.
-/

namespace ThatLimit

open Transition

variable {ι IpAddr : Type}

structure Cluster (ι IpAddr : Type) where
  node : ι → Node IpAddr
  server : Server
  /-- What the calls have returned, in their order. -/
  answers : List (Answer ι IpAddr)

inductive Turn (ι IpAddr : Type)
  | consume (i : ι) (b : BucketId IpAddr) (c : Timing)
  | tick (i : ι)
  | elapse (i : ι) (ns : Nat)
  | redisElapse (ms : Nat)

variable [DecidableEq ι]

namespace Cluster

def setNode (s : Cluster ι IpAddr) (i : ι) (v : Node IpAddr) : Cluster ι IpAddr :=
  { s with node := Function.update s.node i v }

@[simp] theorem store_elapse (s : Cluster ι IpAddr) (i : ι) (ns : Nat) (j : ι) :
    ((s.setNode i { s.node i with now := (s.node i).now + ns }).node j).store = (s.node j).store := by
  by_cases hj : j = i
  · subst hj
    simp [setNode]
  · simp [setNode, hj]

/-- Every instance has just been built by `Store::new`, and Redis has no keys. -/
def start (clock : ι → Nat) (now : Nat) : Cluster ι IpAddr :=
  { node := fun i => { now := clock i, store := .new }, server := .start now, answers := [] }

variable [DecidableEq IpAddr]

def consume (eval : Eval IpAddr) (s : Cluster ι IpAddr) (i : ι) (b : BucketId IpAddr) (c : Timing) :
    Option (Cluster ι IpAddr) :=
  (Node.consume eval (s.node i) s.server b c).map fun (res, v, server) =>
    { s.setNode i v with server, answers := s.answers ++ [⟨i, b, res⟩] }

def next (eval : Eval IpAddr) (s : Cluster ι IpAddr) : Turn ι IpAddr → Option (Cluster ι IpAddr)
  | .consume i b c => s.consume eval i b c
  | .tick i => some (s.setNode i (s.node i).tick)
  | .elapse i ns => some (s.setNode i { s.node i with now := (s.node i).now + ns })
  | .redisElapse ms => some { s with server := s.server.elapse ms }

/-- Between two turns nothing is being refilled. -/
def Idle (s : Cluster ι IpAddr) : Prop := ∀ i b, (s.node i).store.refills.get b = none

/-- Besides, every key has a value and an expiry. -/
structure Settled (s : Cluster ι IpAddr) : Prop where
  free : s.Idle
  sane : s.server.Sane

end Cluster

variable [DecidableEq IpAddr]

/-- The runs of any number of instances that take turns. -/
def cluster (eval : Eval IpAddr) : System (Cluster ι IpAddr) (Turn ι IpAddr) where
  init s := ∃ clock now, s = Cluster.start clock now
  next := Cluster.next eval

namespace Cluster

variable {eval : Eval IpAddr} {s s' : Cluster ι IpAddr} {i : ι} {b : BucketId IpAddr} {c : Timing}

theorem consume_eq_some (h : s.consume eval i b c = some s') : ∃ res v server,
    Node.consume eval (s.node i) s.server b c = some (res, v, server) ∧
      s' = { s.setNode i v with server, answers := s.answers ++ [⟨i, b, res⟩] } := by
  obtain ⟨⟨res, v, server⟩, hc, rfl⟩ := Option.map_eq_some_iff.mp h
  exact ⟨res, v, server, hc, rfl⟩

theorem Idle.setNode (h : s.Idle) {v : Node IpAddr} (hv : v.store.refills = (s.node i).store.refills) :
    (s.setNode i v).Idle := by
  intro j b
  by_cases hj : j = i
  · subst hj
    simpa [Cluster.setNode, hv] using h j b
  · simpa [Cluster.setNode, hj] using h j b

theorem consume_others (h : s.Idle) (hs : s.consume eval i b c = some s') {b' : BucketId IpAddr} (hid : b' ≠ b)
    (j : ι) : (s'.node j).store.buckets.get b' = (s.node j).store.buckets.get b' := by
  obtain ⟨res, v, server, hc, rfl⟩ := consume_eq_some hs
  by_cases hj : j = i
  · subst hj
    simpa [setNode] using (Node.consume_frame (h j b) hc).2.1 b' hid
  · simp [setNode, hj]

/-- A bucket after a call was there before, or is the one its instance builds from the reply to the lease. -/
theorem consume_buckets (h : s.Idle) (hs : s.consume eval i b c = some s') {j : ι} {b' : BucketId IpAddr}
    {bk' : Bucket} (hb' : (s'.node j).store.buckets.get b' = some bk') :
    (∃ bk, (s.node j).store.buckets.get b' = some bk ∧ bk'.expiresAt = bk.expiresAt ∧ bk'.window = bk.window) ∨
    (j = i ∧ b' = b ∧ ∃ r, (Node.leaseReply eval s.server b c).1 = .ok r ∧
      s'.server = (Node.leaseReply eval s.server b c).2 ∧
      bk'.expiresAt = ((s.node i).newBucket c r).expiresAt ∧ bk'.window = r.window) := by
  by_cases hid : b' = b
  · subst hid
    obtain ⟨res, v, server, hc, rfl⟩ := consume_eq_some hs
    by_cases hj : j = i
    · subst hj
      simp only [setNode, Function.update_self] at hb'
      rcases Node.consume_bucket (h j b') hc hb' with hold | ⟨r, hr, -, hnew⟩
      · exact .inl hold
      · exact .inr ⟨rfl, rfl, r, hr, hnew⟩
    · simp only [setNode, Function.update_of_ne hj] at hb'
      exact .inl ⟨bk', hb', rfl, rfl⟩
  · rw [consume_others h hs hid] at hb'
    exact .inl ⟨bk', hb', rfl, rfl⟩

theorem Idle.step {a : Turn ι IpAddr} (h : s.Idle) (hs : (cluster eval).next s a = some s') : s'.Idle := by
  cases a with
  | consume i b c =>
      obtain ⟨res, v, server, hc, rfl⟩ := consume_eq_some hs
      exact h.setNode (Node.consume_frame (h i b) hc).1
  | tick i =>
      cases hs
      exact h.setNode (Node.tick_refills _)
  | elapse i ns =>
      cases hs
      exact h.setNode rfl
  | redisElapse ms =>
      cases hs
      exact h

theorem server_step {P : Server → Prop} {a : Turn ι IpAddr} (h : s.Idle) (hP : P s.server)
    (hlater : ∀ server ms, P server → P (server.elapse ms))
    (heval : ∀ i b c, a = .consume i b c → P (s.server.elapse c.wait) → P (eval (s.server.elapse c.wait) b c.link).2)
    (hs : (cluster eval).next s a = some s') : P s'.server := by
  cases a with
  | consume i b c =>
      obtain ⟨res, v, server, hc, rfl⟩ := consume_eq_some hs
      rcases (Node.consume_frame (h i b) hc).2.2 with rfl | rfl
      · exact hP
      · exact heval i b c rfl (hlater _ _ hP)
  | tick i | elapse i ns =>
      cases hs
      exact hP
  | redisElapse ms =>
      cases hs
      exact hlater _ _ hP

variable [ToString IpAddr]

theorem Settled.step {cfg : Config} {a : Turn ι IpAddr} (h : s.Settled)
    (hs : (cluster (evalLease cfg)).next s a = some s') : s'.Settled :=
  ⟨h.free.step hs, server_step h.free h.sane (fun _ _ h => h) (fun _ _ _ _ h => h.evalLease) hs⟩

end Cluster

section Results

variable {cfg : Config} {eval : Eval IpAddr} {s : Cluster ι IpAddr}

theorem idle (hs : Reach (cluster eval) s) : s.Idle := by
  refine ReachWhen.invariant ?_ (fun _ _ _ _ h _ hnext => h.step hnext) hs
  rintro _ ⟨clock, now, rfl⟩
  exact fun _ _ => rfl

variable [ToString IpAddr]

theorem settled (hs : Reach (cluster (evalLease cfg)) s) : s.Settled := by
  refine ReachWhen.invariant ?_ (fun _ _ _ _ h _ hnext => h.step hnext) hs
  rintro _ ⟨clock, now, rfl⟩
  exact ⟨fun _ _ => rfl, by simp [Cluster.start, Server.start, Server.Sane]⟩

/-- Every refusal of a call for `b` comes with a lease script run in the call, which finds the key
live and without tokens. -/
def RefusedByRedis (cfg : Config) (v : Node IpAddr) (server : Server) (b : BucketId IpAddr) : Prop :=
  ∀ c id retry v' server', Node.consume (evalLease cfg) v server b c = some (.error (.exhausted id retry), v', server') →
    ∃ reply e, server'.log = ⟨b.toKey, .ok reply⟩ :: server.log ∧ reply.leased = 0 ∧
      (server.elapse c.wait).find b.toKey = some e ∧ e.value ≤ 0

/-- While the id has a bucket, expired or not, all refusals come from Redis if and only if the bucket
is not marked exhausted: the mark outlives the window. -/
theorem refused_by_redis_iff (hs : Reach (cluster (evalLease cfg)) s) {i : ι} {b : BucketId IpAddr} {bk : Bucket}
    (hb : (s.node i).store.buckets.get b = some bk) :
    (∀ c, (Node.consume (evalLease cfg) (s.node i) s.server b c).isSome = true) ∧
      (RefusedByRedis cfg (s.node i) s.server b ↔ bk.exhausted = false) := by
  have hfree := (settled hs).free i b
  refine ⟨fun c => Node.consume_isSome hfree, fun hred => ?_, fun hx c id retry v' server' hc => ?_⟩
  · by_contra hx
    rw [Bool.not_eq_false] at hx
    obtain ⟨reply, e, hlog, -⟩ := hred ⟨0, 0, .answers, 0, 0, 0⟩ _ _ _ _ (Node.consume_of_marked hb hx)
    exact absurd (congrArg List.length hlog) (by simp)
  · rcases Node.exhausted_cases hfree hc with ⟨bk', hb', hx'⟩ | h
    · obtain rfl := Option.some.inj (hb.symm.trans hb')
      rw [hx] at hx'
      cases hx'
    · exact h

/-- A call in which no time passes and Redis answers. -/
def promptCall : Timing := { toStart := 0, wait := 0, link := .answers, toReply := 0, toInsert := 0, toTake := 0 }

def testCluster : Cluster Unit String := .start (fun _ => 0) 0

theorem testCluster_init (eval : Eval String) {guard : Cluster Unit String → Turn Unit String → Prop} :
    ReachWhen (cluster eval) guard testCluster := .init ⟨_, _, rfl⟩

/-- The one token is used, and its window ends. -/
theorem used_bucket_is_refused_by_redis : ∃ s, (cluster (evalLease .single)).exec testCluster
      [.consume () testUser promptCall, .elapse () 61000000000, .redisElapse 61000] = some s ∧
    RefusedByRedis .single (s.node ()) s.server testUser := by
  have hrun : ((cluster (evalLease .single)).exec testCluster
      [.consume () testUser promptCall, .elapse () 61000000000, .redisElapse 61000]).map
      (fun s => (s.node ()).store.buckets.get testUser) = some (some ⟨0, 60000000000, 60000, false⟩) := rfl
  obtain ⟨s, hs, hb⟩ := Option.map_eq_some_iff.mp hrun
  exact ⟨s, hs, (refused_by_redis_iff (Reach.exec (testCluster_init _) _ hs) hb).2.mpr rfl⟩

/-- With a second request in the window, the bucket is marked. After the window, with the key gone
from Redis and the bucket expired, a request is refused without a word to Redis. -/
theorem mark_outlives_window : ∃ s, (cluster (evalLease .single)).exec testCluster [.consume () testUser promptCall,
      .consume () testUser promptCall, .elapse () 61000000000, .redisElapse 61000] = some s ∧
    Reach (cluster (evalLease .single)) s ∧
    (∃ bk, (s.node ()).store.buckets.get testUser = some bk ∧ bk.isExpired (s.node ()).now = true) ∧
    s.server.find testUser.toKey = none ∧
    Node.consume (evalLease .single) (s.node ()) s.server testUser promptCall =
      some (.error (.exhausted testUser 0), s.node (), s.server) ∧
    ¬ RefusedByRedis .single (s.node ()) s.server testUser := by
  have hrun : ((cluster (evalLease .single)).exec testCluster [.consume () testUser promptCall,
      .consume () testUser promptCall, .elapse () 61000000000, .redisElapse 61000]).map
      (fun s => ((s.node ()).store.buckets.get testUser, (s.node ()).now, s.server.find testUser.toKey)) =
      some (some ⟨0, 60000000000, 60000, true⟩, 61000000000, none) := rfl
  obtain ⟨s, hs, hseen⟩ := Option.map_eq_some_iff.mp hrun
  simp only [Prod.mk.injEq] at hseen
  obtain ⟨hb, hnow, hkey⟩ := hseen
  have hc : Node.consume (evalLease .single) (s.node ()) s.server testUser promptCall =
      some (.error (.exhausted testUser 0), s.node (), s.server) := by
    rw [Node.consume_of_marked hb rfl, hnow]
    rfl
  refine ⟨s, hs, Reach.exec (testCluster_init _) _ hs, ⟨_, hb, by rw [hnow]; rfl⟩, hkey, hc, fun hred => ?_⟩
  obtain ⟨reply, e, hlog, -⟩ := hred _ _ _ _ _ hc
  exact absurd (congrArg List.length hlog) (by simp)

end Results

end ThatLimit
