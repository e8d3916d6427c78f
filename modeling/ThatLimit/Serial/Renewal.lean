import ThatLimit.Framework.Pairing
import ThatLimit.Serial.Cluster
import ThatLimit.Window.Keys
/-!
# After a silence

When nobody has asked for anything while the longest window went by, and each instance has had
a cleanup tick, nothing is left of what was before: all that is asked then is answered as by
instances that have just been started. Without the tick this is not so, because a mark
outlives its window.
-/

namespace ThatLimit

open Transition

variable {ι IpAddr : Type}

/-! ## Instances that hold the same -/

theorem Node.evalLease_same [ToString IpAddr] {server server' : Server} (cfg : Config)
    (h : ∀ b : BucketId IpAddr, server.SameAt b.toKey server') (b : BucketId IpAddr) (link : Link) :
    (evalLease cfg server' b link).1 = (evalLease cfg server b link).1 ∧
    ∀ b' : BucketId IpAddr, (evalLease cfg server b link).2.SameAt b'.toKey (evalLease cfg server' b link).2 := by
  obtain ⟨hreply, -⟩ := (h b).lease (cfg.policy b).leaseSize (cfg.policy b).quota (asSecs (cfg.policy b).resetIn)
  have hserver (b' : BucketId IpAddr) := (h b').lease_both (h b) (cfg.policy b).leaseSize (cfg.policy b).quota
    (asSecs (cfg.policy b).resetIn)
  cases link with
  | answers => exact ⟨by simp only [evalLease, Link.eval, hreply], hserver⟩
  | replyLost e => exact ⟨rfl, hserver⟩
  | unreachable e => exact ⟨rfl, h⟩

section Same

variable [DecidableEq IpAddr]

structure Store.Same (s s' : Store IpAddr) : Prop where
  buckets : ∀ b, s'.buckets.get b = s.buckets.get b
  refills : ∀ b, s'.refills.get b = s.refills.get b

structure Node.Same (v v' : Node IpAddr) : Prop where
  now : v'.now = v.now
  store : v.store.Same v'.store

namespace Store

variable {s s' : Store IpAddr}

theorem Same.check (h : s.Same s') (now : Nat) (b : BucketId IpAddr) : s'.check now b = s.check now b := by
  simp only [Store.check, h.buckets]

theorem Same.claim (h : s.Same s') (b : BucketId IpAddr) (n : Notify) : (s.claim b n).Same (s'.claim b n) :=
  ⟨h.buckets, fun b' => by simp only [Store.claim, DashMap.get_insert, h.refills]⟩

theorem Same.unclaim (h : s.Same s') (b : BucketId IpAddr) : (s.unclaim b).Same (s'.unclaim b) :=
  ⟨h.buckets, fun b' => by simp only [Store.unclaim, DashMap.get_remove, h.refills]⟩

theorem Same.removeBucket (h : s.Same s') (b : BucketId IpAddr) : (s.removeBucket b).Same (s'.removeBucket b) :=
  ⟨fun b' => by simp only [Store.removeBucket, DashMap.get_remove, h.buckets], h.refills⟩

theorem Same.modify (h : s.Same s') (b : BucketId IpAddr) (f : Bucket → Bucket) :
    Same { s with buckets := s.buckets.modify b f } { s' with buckets := s'.buckets.modify b f } :=
  ⟨fun b' => by simp only [DashMap.get_modify, h.buckets], h.refills⟩

theorem Same.leased (h : s.Same s') (now : Nat) (b : BucketId IpAddr) (leased ttl : Nat) (window : Int) :
    (s'.leased now b leased ttl window).1 = (s.leased now b leased ttl window).1 ∧
    (s.leased now b leased ttl window).2.Same (s'.leased now b leased ttl window).2 := by
  unfold Store.leased
  rw [h.buckets]
  split
  · cases s.buckets.get b with
    | none => exact ⟨rfl, h⟩
    | some bk => exact ⟨rfl, h.modify b _⟩
  · exact ⟨rfl, fun b' => by simp only [DashMap.get_insert, h.buckets], h.refills⟩

end Store

namespace Node

variable {v v' : Node IpAddr} {server server' : Server} {b : BucketId IpAddr}

theorem Same.look (h : v.Same v') (b : BucketId IpAddr) (c : Timing) :
    (v'.look b c).1 = (v.look b c).1 ∧ (v.look b c).2.Same (v'.look b c).2 := by
  unfold Node.look Store.take
  rw [h.now, h.store.buckets]
  cases v.store.buckets.get b with
  | none => exact ⟨rfl, rfl, h.store⟩
  | some bk =>
      simp only
      cases bk.isExpired (v.now + c.toTake) with
      | true => exact ⟨rfl, rfl, h.store.removeBucket b⟩
      | false => exact ⟨rfl, rfl, h.store.modify b _⟩

theorem Same.tick (h : v.Same v') : v.tick.Same v'.tick := by
  refine ⟨by rw [tick_now, tick_now, h.now], fun b => ?_, fun b => ?_⟩
  · rw [get_tick, get_tick, h.now, h.store.buckets]
  · rw [tick_refills, tick_refills, h.store.refills]

variable [ToString IpAddr]

/-- The same result, and all that a later call can see of the instance and of Redis. -/
structure Alike {ρ : Type} (x x' : ρ × Node IpAddr × Server) : Prop where
  res : x'.1 = x.1
  node : x.2.1.Same x'.2.1
  server : ∀ b : BucketId IpAddr, x.2.2.SameAt b.toKey x'.2.2

theorem lease_alike (cfg : Config) (hv : v.Same v') (hs : ∀ b : BucketId IpAddr, server.SameAt b.toKey server')
    (b : BucketId IpAddr) (c : Timing) :
    Alike (lease (evalLease cfg) v server b c) (lease (evalLease cfg) v' server' b c) := by
  have hsame := evalLease_same cfg (fun b => (hs b).elapse c.wait) b c.link
  revert hsame
  unfold lease
  rw [hv.now]
  rcases evalLease cfg (server.elapse c.wait) b c.link with ⟨res, sv⟩
  rcases evalLease cfg (server'.elapse c.wait) b c.link with ⟨res', sv'⟩
  rintro ⟨hreply, hserver⟩
  obtain rfl : res' = res := hreply
  cases res' with
  | error e => exact ⟨rfl, ⟨rfl, hv.store⟩, hserver⟩
  | ok r =>
      obtain ⟨hres, hstore⟩ := hv.store.leased (v.now + c.toStart + c.toReply + c.toInsert) b r.leased
        (leaseTtl r.pttl (v.now + c.toStart) (v.now + c.toStart + c.toReply)) r.window
      exact ⟨hres, ⟨rfl, hstore⟩, hserver⟩

theorem ensureRefilled_alike (cfg : Config) (hv : v.Same v') (hs : ∀ b : BucketId IpAddr, server.SameAt b.toKey server')
    (b : BucketId IpAddr) (c : Timing) :
    Option.Rel Alike (ensureRefilled (evalLease cfg) v server b c) (ensureRefilled (evalLease cfg) v' server' b c) := by
  unfold ensureRefilled
  rw [hv.now, hv.store.check, hv.store.refills]
  split
  · exact .some ⟨rfl, hv, hs⟩
  · exact .some ⟨rfl, hv, hs⟩
  · split
    · exact .none
    · have hclaimed : Same { v with store := v.store.claim b 0 } { v with store := v'.store.claim b 0 } :=
        ⟨rfl, hv.store.claim b 0⟩
      obtain ⟨hres, hnode, hserver⟩ := lease_alike cfg hclaimed hs b c
      exact .some ⟨hres, ⟨hnode.now, hnode.store.unclaim b⟩, hserver⟩

theorem consume_alike (cfg : Config) (hv : v.Same v') (hs : ∀ b : BucketId IpAddr, server.SameAt b.toKey server')
    (b : BucketId IpAddr) (c : Timing) :
    Option.Rel Alike (consume (evalLease cfg) v server b c) (consume (evalLease cfg) v' server' b c) := by
  have hrefilled := ensureRefilled_alike cfg hv hs b c
  unfold consume
  revert hrefilled
  generalize ensureRefilled (evalLease cfg) v server b c = x
  generalize ensureRefilled (evalLease cfg) v' server' b c = x'
  intro hrefilled
  cases hrefilled with
  | none => exact .none
  | @some x x' h =>
      obtain ⟨res, w, sv⟩ := x
      obtain ⟨res', w', sv'⟩ := x'
      obtain ⟨hres, hnode, hserver⟩ := h
      obtain rfl : res' = res := hres
      cases res' with
      | error e => exact .some ⟨rfl, hnode, hserver⟩
      | ok =>
          obtain ⟨hleft, hlook⟩ := hnode.look b c
          exact .some ⟨congrArg Except.ok hleft, hlook, hserver⟩

end Node

end Same

namespace Cluster

variable [DecidableEq ι] [DecidableEq IpAddr] [ToString IpAddr] {cfg : Config} {s s' : Cluster ι IpAddr}
  {before : List (Answer ι IpAddr)}

/-- Clusters that will answer alike, one of them with answers to earlier calls. -/
structure Same (before : List (Answer ι IpAddr)) (s s' : Cluster ι IpAddr) : Prop where
  node : ∀ i, (s.node i).Same (s'.node i)
  server : ∀ b : BucketId IpAddr, s.server.SameAt b.toKey s'.server
  answers : s.answers = before ++ s'.answers

theorem Same.setNode (h : s.Same before s') (i : ι) {v v' : Node IpAddr} (hv : v.Same v') :
    (s.setNode i v).Same before (s'.setNode i v') :=
  ⟨Pairing.update_both h.node hv, h.server, h.answers⟩

theorem Same.next (cfg : Config) (h : s.Same before s') (a : Turn ι IpAddr) :
    Option.Rel (Same before) ((cluster (evalLease cfg)).next s a) ((cluster (evalLease cfg)).next s' a) := by
  cases a with
  | consume i b c =>
      have hcalled := Node.consume_alike cfg (h.node i) h.server b c
      show Option.Rel (Same before) (s.consume (evalLease cfg) i b c) (s'.consume (evalLease cfg) i b c)
      unfold Cluster.consume
      revert hcalled
      generalize Node.consume (evalLease cfg) (s.node i) s.server b c = x
      generalize Node.consume (evalLease cfg) (s'.node i) s'.server b c = x'
      intro hcalled
      cases hcalled with
      | none => exact .none
      | @some x x' hx =>
          obtain ⟨hres, hnode, hserver⟩ := hx
          have hset := h.setNode i hnode
          refine .some ⟨hset.node, hserver, ?_⟩
          simp only [h.answers, hres, List.append_assoc]
  | tick i => exact .some (h.setNode i (h.node i).tick)
  | elapse i ns => exact .some (h.setNode i ⟨congrArg (· + ns) (h.node i).now, (h.node i).store⟩)
  | redisElapse ms => exact .some ⟨h.node, fun b => (h.server b).elapse ms, h.answers⟩

theorem Same.exec (h : s.Same before s') (as : List (Turn ι IpAddr)) :
    ((cluster (evalLease cfg)).exec s as).map Cluster.answers =
      ((cluster (evalLease cfg)).exec s' as).map fun s => before ++ s.answers := by
  induction as generalizing s s' with
  | nil => exact congrArg some h.answers
  | cons a as ih =>
      rw [System.exec_cons, System.exec_cons]
      have hnext := h.next cfg a
      revert hnext
      generalize (cluster (evalLease cfg)).next s a = x
      generalize (cluster (evalLease cfg)).next s' a = x'
      intro hnext
      cases hnext with
      | none => rfl
      | some h => exact ih h

end Cluster

/-! ## Silence -/

/-- The longest window, in seconds. -/
def Config.longest (cfg : Config) : Nat := max (asSecs cfg.protectedPolicy.resetIn) (asSecs cfg.publicPolicy.resetIn)

theorem Config.resetIn_le_longest (cfg : Config) (b : BucketId IpAddr) : asSecs (cfg.policy b).resetIn ≤ cfg.longest := by
  cases b with
  | publicIp ip => exact Nat.le_max_right ..
  | protectedSub sub => exact Nat.le_max_left ..

section Server

variable [ToString IpAddr] {cfg : Config} {server : Server}

/-- No key lives longer than the longest window. -/
def Server.Brief (IpAddr : Type) [ToString IpAddr] (cfg : Config) (s : Server) : Prop :=
  ∀ (b : BucketId IpAddr) e, s.db b.toKey = some e → ∃ w, e.expireAt = some w ∧ w ≤ s.now + cfg.longest * 1000

theorem Server.Brief.elapse (h : server.Brief IpAddr cfg) (ms : Nat) : (server.elapse ms).Brief IpAddr cfg := by
  intro b e he
  obtain ⟨w, hw, hle⟩ := h b e he
  exact ⟨w, hw, hle.trans (Nat.add_le_add_right (Nat.le_add_right ..) _)⟩

theorem Server.Brief.evalLease (h : server.Brief IpAddr cfg) (b : BucketId IpAddr) (link : Link) :
    (evalLease cfg server b link).2.Brief IpAddr cfg := by
  intro b' e he
  rw [evalLease_now]
  rcases evalLease_server cfg server b link with hs | hs
  · exact h b' e (hs ▸ he)
  · rw [hs] at he
    obtain ⟨reply, hlease | ⟨-, -, hlease⟩ | ⟨e₀, hf, -, hlease⟩⟩ := server.lease_effect b.toKey (cfg.policy b).leaseSize
      (cfg.policy b).quota (asSecs (cfg.policy b).resetIn)
    · rw [hlease] at he
      exact h b' e he
    · rw [hlease] at he
      rcases Db.set_eq_some_iff.mp he with ⟨-, rfl⟩ | ⟨-, hold⟩
      · exact ⟨_, rfl, Nat.add_le_add_left (Nat.mul_le_mul_right _ (cfg.resetIn_le_longest b)) _⟩
      · exact h b' e hold
    · rw [hlease] at he
      rcases Db.set_eq_some_iff.mp he with ⟨hkey, rfl⟩ | ⟨-, hold⟩
      · exact h b' e₀ (hkey ▸ (Db.find_eq_some_iff.mp hf).1)
      · exact h b' e hold

end Server

section Brief

variable [DecidableEq IpAddr] {cfg : Config} {server server' : Server} {v v' : Node IpAddr} {b : BucketId IpAddr}
  {c : Timing}

/-- No bucket lives longer than the longest window. -/
def Node.Brief (cfg : Config) (v : Node IpAddr) : Prop :=
  ∀ b bk, v.store.buckets.get b = some bk → bk.expiresAt ≤ v.now + fromSecs cfg.longest

theorem Node.Brief.look (h : v.Brief cfg) (b : BucketId IpAddr) (c : Timing) : (v.look b c).2.Brief cfg := by
  intro b' bk' hb'
  rw [look_now]
  by_cases hid : b' = b
  · subst hid
    obtain ⟨bk, hb, hexpires, -⟩ := get_look hb'
    have hle := h b' bk hb
    omega
  · rw [look_other hid] at hb'
    have hle := h b' bk' hb'
    omega

theorem Node.Brief.tick (h : v.Brief cfg) : v.tick.Brief cfg := by
  intro b bk hb
  rw [get_tick, Option.filter_eq_some_iff] at hb
  rw [tick_now]
  exact h b bk hb.1

/-- An instance after the silence. -/
def Node.rest (v : Node IpAddr) (ns : Nat) : Node IpAddr := Node.tick { v with now := v.now + ns }

theorem Node.Brief.rest {v : Node IpAddr} (h : v.Brief cfg) (ns : Nat) : (v.rest ns).Brief cfg := by
  apply Node.Brief.tick
  intro b bk hb
  exact (h b bk hb).trans (Nat.add_le_add_right (Nat.le_add_right ..) _)

theorem get_rest {v : Node IpAddr} (h : v.Brief cfg) (hns : fromSecs cfg.longest ≤ ns) (b : BucketId IpAddr) :
    (v.rest ns).store.buckets.get b = none := by
  rw [Node.rest, Node.get_tick, Option.filter_eq_none_iff]
  intro bk hb
  have hle := h b bk hb
  simp only [Bucket.isExpired, Bool.not_eq_true', decide_eq_false_iff_not]
  omega

variable [ToString IpAddr]

structure Cluster.Brief (cfg : Config) (s : Cluster ι IpAddr) : Prop where
  node : ∀ i, (s.node i).Brief cfg
  server : s.server.Brief IpAddr cfg

theorem Node.Brief.consume {res : Except (StoreError IpAddr) Nat} (h : v.Brief cfg) (hserver : server.Brief IpAddr cfg)
    (hfree : v.store.refills.get b = none) (hc : Node.consume (evalLease cfg) v server b c = some (res, v', server')) :
    v'.Brief cfg := by
  have hlater {t : Nat} (ht : v.now ≤ t) : Node.Brief cfg { v with now := t } := by
    intro b bk hb
    exact (h b bk hb).trans (Nat.add_le_add_right ht _)
  have hsettled : v.now ≤ v.settled c := by
    unfold settled
    omega
  rcases consume_cases hfree hc with ⟨bk, -, -, -, rfl, -⟩ | ⟨bk, -, -, -, -, -, rfl, -⟩ |
    ⟨-, -, -, ⟨e, -, -, rfl⟩ | ⟨r, -, -, -, rfl⟩ | ⟨r, hr, -, -, rfl⟩⟩
  · exact h
  · exact h.look b c
  · exact hlater (by omega)
  · intro b' bk' hb'
    obtain ⟨bk, hb, ⟨rfl, rfl⟩ | ⟨-, rfl⟩⟩ := DashMap.get_modify_eq_some.mp hb'
    · exact hlater hsettled b' bk hb
    · exact hlater hsettled b' bk hb
  · apply Node.Brief.look
    intro b' bk' hb'
    rcases DashMap.get_insert_eq_some.mp hb' with ⟨-, rfl⟩ | ⟨-, hb⟩
    · obtain ⟨e, w, hdb, hw, hpttl, -⟩ := evalLease_window hr
      obtain ⟨w', hw', hle⟩ := (hserver.elapse c.wait).evalLease b c.link b e hdb
      obtain rfl := Option.some.inj (hw.symm.trans hw')
      rw [evalLease_now] at hle
      rw [newBucket_expiresAt]
      simp only [filled, fromMillis, fromSecs]
      omega
    · exact hlater hsettled b' bk' hb

variable [DecidableEq ι]

theorem Cluster.Brief.setNode {s : Cluster ι IpAddr} {i : ι} (h : s.Brief cfg) (hv : v.Brief cfg) :
    (s.setNode i v).Brief cfg := by
  refine ⟨fun j => ?_, h.server⟩
  by_cases hj : j = i
  · subst hj
    simpa [Cluster.setNode] using hv
  · simpa [Cluster.setNode, hj] using h.node j

theorem Cluster.Brief.elapse {s : Cluster ι IpAddr} (h : s.Brief cfg) (i : ι) (ns : Nat) :
    (s.setNode i { s.node i with now := (s.node i).now + ns }).Brief cfg := by
  apply h.setNode
  intro b bk hb
  exact (h.node i b bk hb).trans (Nat.add_le_add_right (Nat.le_add_right ..) _)

theorem brief {s : Cluster ι IpAddr} (hs : Reach (cluster (evalLease cfg)) s) : s.Brief cfg := by
  refine ReachWhen.invariant ?_ ?_ hs
  · rintro _ ⟨clock, now, rfl⟩
    exact ⟨by rintro i b bk ⟨⟩, by rintro b e ⟨⟩⟩
  · intro s a s' hr h _ hnext
    cases a with
    | consume i b c =>
        obtain ⟨res, v, server, hc, rfl⟩ := Cluster.consume_eq_some hnext
        have hfree := (settled hr).free i b
        have hserver : server.Brief IpAddr cfg := by
          rcases (Node.consume_frame hfree hc).2.2 with rfl | rfl
          · exact h.server
          · exact (h.server.elapse c.wait).evalLease b c.link
        exact ⟨(h.setNode ((h.node i).consume h.server hfree hc)).node, hserver⟩
    | tick i =>
        cases hnext
        exact h.setNode (h.node i).tick
    | elapse i ns =>
        cases hnext
        exact h.elapse i ns
    | redisElapse ms =>
        cases hnext
        exact ⟨h.node, h.server.elapse ms⟩

end Brief

/-- Time passes for Redis and for each of the instances, which has a cleanup tick after it. -/
def silence (instances : List ι) (ns ms : Nat) : List (Turn ι IpAddr) :=
  .redisElapse ms :: instances.flatMap fun i => [.elapse i ns, .tick i]

section Silence

variable [DecidableEq ι] [DecidableEq IpAddr] [ToString IpAddr] {cfg : Config} {s : Cluster ι IpAddr} {ns ms : Nat}

theorem exec_rest (s : Cluster ι IpAddr) (i : ι) (ns : Nat) (turns : List (Turn ι IpAddr)) :
    (cluster (evalLease cfg)).exec s (.elapse i ns :: .tick i :: turns) =
      (cluster (evalLease cfg)).exec (s.setNode i ((s.node i).rest ns)) turns := by
  simp [System.exec_cons, cluster, Cluster.next, Cluster.setNode, Node.rest]

/-- The instances that had their tick hold nothing, and nothing else has changed but their clocks. -/
theorem exec_ticks (h : s.Brief cfg) (hns : fromSecs cfg.longest ≤ ns) (instances : List ι) :
    ∃ s', (cluster (evalLease cfg)).exec s (instances.flatMap fun i => [.elapse i ns, .tick i]) = some s' ∧
      s'.server = s.server ∧ s'.answers = s.answers ∧
      (∀ i b, i ∈ instances ∨ (s.node i).store.buckets.get b = none → (s'.node i).store.buckets.get b = none) ∧
      ∀ i b, (s'.node i).store.refills.get b = (s.node i).store.refills.get b := by
  induction instances generalizing s with
  | nil => exact ⟨s, rfl, rfl, rfl, by simp, fun _ _ => rfl⟩
  | cons i instances ih =>
      obtain ⟨s', hexec, hserver, hanswers, hnone, hrefills⟩ := ih (h.setNode ((h.node i).rest ns))
      refine ⟨s', ?_, hserver, hanswers, fun j b hj => hnone j b ?_, fun j b => (hrefills j b).trans ?_⟩
      · rw [List.flatMap_cons]
        exact (exec_rest s i ns _).trans hexec
      · by_cases hij : j = i
        · subst hij
          right
          simpa [Cluster.setNode] using get_rest (h.node j) hns b
        · simpa [Cluster.setNode, hij] using hj
      · by_cases hij : j = i
        · subst hij
          simp [Cluster.setNode, Node.rest]
        · simp [Cluster.setNode, hij]

/-- After a silence that outlasts every window, with a cleanup tick on each instance at its end, the cluster is as good
as new: any turns are answered as by instances that have just been started, with nothing in Redis. -/
theorem silence_renews (hs : Reach (cluster (evalLease cfg)) s) {instances : List ι} (hall : ∀ i, i ∈ instances)
    (hns : fromSecs cfg.longest ≤ ns) (hms : cfg.longest * 1000 < ms) :
    ∃ s', (cluster (evalLease cfg)).exec s (silence instances ns ms) = some s' ∧
      ∀ turns, ((cluster (evalLease cfg)).exec s' turns).map Cluster.answers =
        ((cluster (evalLease cfg)).exec (.start (fun i => (s'.node i).now) s'.server.now) turns).map
          fun t => s.answers ++ t.answers := by
  have hbrief := brief hs
  have hrested : Cluster.Brief cfg { s with server := s.server.elapse ms } := ⟨hbrief.node, hbrief.server.elapse ms⟩
  obtain ⟨s', hexec, hserver, hanswers, hnone, hrefills⟩ := exec_ticks hrested hns instances
  refine ⟨s', hexec, Cluster.Same.exec ⟨fun i => ⟨rfl, fun b => ?_, fun b => ?_⟩, fun b => ⟨rfl, ?_⟩, ?_⟩⟩
  · rw [hnone i b (.inl (hall i))]
    rfl
  · rw [hrefills i b]
    exact ((settled hs).free i b).symm
  · rw [hserver]
    symm
    show s.server.db.find (s.server.now + ms) b.toKey = none
    rw [Db.find, Option.filter_eq_none_iff]
    intro e he
    obtain ⟨w, hw, hle⟩ := hbrief.server b e he
    simp only [Entry.live, hw, decide_eq_true_eq]
    omega
  · rw [hanswers]
    exact (List.append_nil _).symm

/-- The user whose token is used up and whose bucket is marked counts as new after an hour in which nobody calls. -/
theorem refused_user_is_new_after_silence : ∃ s s', (cluster (evalLease .single)).exec testCluster
      [.consume () testUser promptCall, .consume () testUser promptCall] = some s ∧
    (cluster (evalLease .single)).exec s (silence [()] 3600000000000 3600001) = some s' ∧
    ∀ turns, ((cluster (evalLease .single)).exec s' turns).map Cluster.answers =
      ((cluster (evalLease .single)).exec (.start (fun i => (s'.node i).now) s'.server.now) turns).map
        fun t => s.answers ++ t.answers := by
  obtain ⟨s, hs⟩ := Option.isSome_iff_exists.mp (rfl : ((cluster (evalLease .single)).exec testCluster
    [.consume () testUser promptCall, .consume () testUser promptCall]).isSome = true)
  have hall : ∀ i : Unit, i ∈ [()] := fun i => List.mem_singleton_self i
  obtain ⟨s', hs', hturns⟩ := silence_renews (Reach.exec (testCluster_init _) _ hs) hall
    (by decide : fromSecs Config.single.longest ≤ 3600000000000) (by decide : Config.single.longest * 1000 < 3600001)
  exact ⟨s, s', hs, hs', hturns⟩

end Silence

end ThatLimit
