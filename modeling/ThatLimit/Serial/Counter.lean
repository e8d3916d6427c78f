import ThatLimit.Core.Range
import ThatLimit.Framework.Pool
import ThatLimit.Serial.Cluster
/-!
# One window seen as a pool of tokens

Inside a window the instances draw the tokens of an id from the key in Redis, in
batches of `lease_size`. Every call is a draw from the pool of its id, so what holds of
pools holds of the calls: nothing gets lost, and one instance counts to the quota.
-/

namespace ThatLimit

open Transition

variable {ι IpAddr : Type}

def Link.isAnswers : Link → Bool
  | .answers => true
  | _ => false

theorem Link.isAnswers_iff {link : Link} : link.isAnswers = true ↔ link = .answers := by
  cases link <;> simp [isAnswers]

/-- The answer to a call for `b` says what the draw says. -/
def Shows (b : BucketId IpAddr) : Option Nat → Except (StoreError IpAddr) Nat → Prop
  | some left, res => res = .ok left
  | none, res => ∃ retry, res = .error (.exhausted b retry)

/-- The results of a counter that hands out its quota in batches and then refuses. -/
def CountsTo (p : Policy) (b : BucketId IpAddr) (results : List (Except (StoreError IpAddr) Nat)) : Prop :=
  ∀ j res, results[j]? = some res →
    if j < p.quota then
      res = .ok (min p.leaseSize (p.quota - p.leaseSize * (j / p.leaseSize)) - 1 - j % p.leaseSize)
    else ∃ retry, res = .error (.exhausted b retry)

theorem CountsTo.snoc {p : Policy} {results : List (Except (StoreError IpAddr) Nat)} (h : CountsTo p b results)
    {res : Except (StoreError IpAddr) Nat}
    (hshows : Shows b (if results.length < p.quota then
      some (min p.leaseSize (p.quota - p.leaseSize * (results.length / p.leaseSize)) - 1 -
        results.length % p.leaseSize) else none) res) : CountsTo p b (results ++ [res]) := by
  intro j res' hj
  rw [List.getElem?_append] at hj
  split at hj
  · exact h j res' hj
  · next hlen =>
      rw [List.getElem?_singleton, Option.ite_none_right_eq_some] at hj
      obtain ⟨hz, hres⟩ := hj
      obtain rfl : j = results.length := by omega
      obtain rfl := Option.some.inj hres
      split
      · next hlt =>
          rw [if_pos hlt] at hshows
          exact hshows
      · next hlt =>
          rw [if_neg hlt] at hshows
          exact hshows

variable [ToString IpAddr]

namespace Server

/-- The tokens of the id still in Redis: all of them before the window is opened. -/
def stock (cfg : Config) (server : Server) (b : BucketId IpAddr) : Nat :=
  ((server.db b.toKey).map fun e => e.value.toNat).getD (cfg.policy b).quota

/-- Lease scripts that were run for the id. -/
def scripts (server : Server) (b : BucketId IpAddr) : Nat := server.log.countP fun run => decide (run.key = b.toKey)

/-- Every key has the expiry its window was opened with. -/
def Dated (s : Server) : Prop := ∀ key e, s.db key = some e →
  e.expireAt = some (s.opened key) ∧ s.opened key < 2 ^ 63 ∧ s.opened key ≤ s.now + maxPttl

/-- The id has no more tokens than its quota, and none that it lacks. -/
def Counted (cfg : Config) (s : Server) (b : BucketId IpAddr) : Prop :=
  ∀ e, s.db b.toKey = some e → 0 ≤ e.value ∧ e.value ≤ (cfg.policy b).quota

theorem Dated.elapse {s : Server} (h : s.Dated) (ms : Nat) : (s.elapse ms).Dated := by
  intro key e he
  obtain ⟨hw, hrange, hmax⟩ := h key e he
  exact ⟨hw, hrange, by simp only [Server.elapse]; omega⟩

theorem stock_of {cfg : Config} {s : Server} {b : BucketId IpAddr} {e : Entry} {n : Nat}
    (hdb : s.db b.toKey = some e) (hvalue : e.value = n) : s.stock cfg b = n := by
  simp [stock, hdb, hvalue]

theorem stock_of_gone {cfg : Config} {s : Server} {b : BucketId IpAddr}
    (hlive : ∀ e, s.db b.toKey = some e → e.live s.now = true) (hf : s.find b.toKey = none) :
    s.stock cfg b = (cfg.policy b).quota := by
  cases hdb : s.db b.toKey with
  | none => simp [stock, hdb]
  | some e => simp [find, Db.find, hdb, hlive e hdb] at hf

theorem Counted.stock_eq {cfg : Config} {s : Server} {b : BucketId IpAddr} {e : Entry} (h : s.Counted cfg b)
    (hdb : s.db b.toKey = some e) : e.value = s.stock cfg b := by
  obtain ⟨hlow, -⟩ := h e hdb
  simp only [stock, hdb, Option.map_some, Option.getD_some]
  omega

theorem Counted.stock_le {cfg : Config} {s : Server} {b : BucketId IpAddr} (h : s.Counted cfg b) :
    s.stock cfg b ≤ (cfg.policy b).quota := by
  unfold stock
  cases hdb : s.db b.toKey with
  | none => simp
  | some e =>
      obtain ⟨-, hle⟩ := h e hdb
      simp only [Option.map_some, Option.getD_some]
      omega

end Server

section EvalLease

variable {cfg : Config} {server : Server} {b : BucketId IpAddr} {link : Link}

theorem evalLeaseChecked_server (cfg : Config) (server : Server) (b : BucketId IpAddr) (link : Link) :
    (evalLeaseChecked cfg server b link).2 = server ∨ (evalLeaseChecked cfg server b link).2 =
      (server.leaseChecked b.toKey (cfg.policy b).leaseSize (cfg.policy b).quota (asSecs (cfg.policy b).resetIn)).2 :=
  link.eval_server ..

theorem evalLeaseChecked_frame (cfg : Config) (server : Server) (b : BucketId IpAddr) (link : Link) :
    (∀ key, key ≠ b.toKey → (evalLeaseChecked cfg server b link).2.db key = server.db key) ∧
    ((evalLeaseChecked cfg server b link).2.log = server.log ∨
      ∃ reply, (evalLeaseChecked cfg server b link).2.log = ⟨b.toKey, reply⟩ :: server.log) := by
  rcases evalLeaseChecked_server cfg server b link with h | h
  · rw [h]
    exact ⟨fun _ _ => rfl, .inl rfl⟩
  · rw [h]
    obtain ⟨reply, hs | ⟨-, -, -, hs⟩ | ⟨e, -, -, -, hs⟩⟩ := server.leaseChecked_effect b.toKey
      (cfg.policy b).leaseSize (cfg.policy b).quota (asSecs (cfg.policy b).resetIn)
    · rw [hs]
      exact ⟨fun _ _ => rfl, .inr ⟨reply, rfl⟩⟩
    · rw [hs]
      exact ⟨fun _ hkey => Db.set_ne _ _ hkey, .inr ⟨reply, rfl⟩⟩
    · rw [hs]
      exact ⟨fun _ hkey => Db.set_ne _ _ hkey, .inr ⟨reply, rfl⟩⟩

theorem Server.Dated.evalLeaseChecked (h : server.Dated) :
    (evalLeaseChecked cfg server b link).2.Dated := by
  rcases evalLeaseChecked_server cfg server b link with hs | hs
  · rw [hs]
    exact h
  · rw [hs]
    obtain ⟨reply, hs | ⟨-, -, hrange, hs⟩ | ⟨e, hf, -, -, hs⟩⟩ := server.leaseChecked_effect b.toKey
      (cfg.policy b).leaseSize (cfg.policy b).quota (asSecs (cfg.policy b).resetIn)
    · rw [hs]
      exact h
    · rw [hs]
      have hmax := double_le_maxPttl (Nat.lt_of_le_of_lt (Nat.le_add_right ..) hrange)
      intro key e he
      rcases Db.set_eq_some_iff.mp he with ⟨rfl, rfl⟩ | ⟨hkey, he⟩
      · simp only [Function.update_self, true_and]
        omega
      · simpa [hkey] using h key e he
    · rw [hs]
      exact Db.forall_set h b.toKey (h _ e (Db.find_eq_some_iff.mp hf).1)

theorem evalLeaseChecked_stock (hquota : (cfg.policy b).quota ≤ 2 ^ 53) (hdated : server.Dated)
    (hcounted : server.Counted cfg b) (hreset : 0 < asSecs (cfg.policy b).resetIn)
    (hrange : double (asSecs (cfg.policy b).resetIn) * 1000 + server.now < 2 ^ 63)
    (hlive : ∀ e, server.db b.toKey = some e → e.live server.now = true) :
    ∃ r e, (evalLeaseChecked cfg server b .answers).1 = .ok r ∧
      r.leased = min (cfg.policy b).leaseSize (server.stock cfg b) ∧
      (evalLeaseChecked cfg server b .answers).2.db b.toKey = some e ∧
      e.value = (server.stock cfg b - r.leased : Nat) ∧
      (evalLeaseChecked cfg server b .answers).2.scripts b = server.scripts b + 1 := by
  have hsize : (cfg.policy b).leaseSize ≤ 2 ^ 53 := Nat.le_trans (cfg.policy b).leaseSize_le hquota
  have hle := hcounted.stock_le
  have hvalue {e : Entry} (hdb : server.db b.toKey = some e) :
      e.value = server.stock cfg b ∧ doubleInt e.value = server.stock cfg b := by
    have hstock := hcounted.stock_eq hdb
    exact ⟨hstock, by rw [doubleInt_of_le (by omega) (by omega), hstock]⟩
  obtain ⟨reply, server', hl⟩ := server.leaseChecked_answers b.toKey (cfg.policy b).quota hsize
    (fun _ => ⟨double_pos hreset, by omega⟩) fun e hf => by
      obtain ⟨hlow, hhigh⟩ := hcounted e (Db.find_eq_some_iff.mp hf).1
      exact ⟨by omega, by omega⟩
  have heval : evalLeaseChecked cfg server b .answers = (reply.decode, server') := by
    simp only [evalLeaseChecked, hl]
    rfl
  have hreply {leased : Nat} {e : Entry} (hleased : leased ≤ 2 ^ 53) (hf : server.find b.toKey = some e) :
      ∃ pttl window, (LeaseReply.ofLua leased (e.pttl server.now) e.pexpiretime).decode = .ok ⟨leased, pttl, window⟩ := by
    obtain ⟨hdb, he⟩ := Db.find_eq_some_iff.mp hf
    obtain ⟨hw, -, hmax⟩ := hdated _ e hdb
    obtain ⟨hleft, hlong⟩ := Entry.pttl_bounds hw he hmax
    exact ⟨_, _, LeaseReply.decode_ofLua _ (by omega) (by omega) hleft hlong⟩
  rw [heval]
  dsimp only
  rcases Server.leaseChecked_cases hl with ⟨hf, -, -, rfl, rfl⟩ | ⟨e, hf, hv, rfl, rfl⟩ | ⟨e, hf, hv, -, -, rfl, rfl⟩
  · have hmax := double_le_maxPttl (Nat.lt_of_le_of_lt (Nat.le_add_right ..) hrange)
    have hsmall := (cfg.policy b).leaseSize_le
    rw [double_of_le hquota, double_of_le hsize, doubleInt_of_le (by omega) (by omega), Server.stock_of_gone hlive hf]
    refine ⟨_, _, LeaseReply.decode_ofLua _ (by omega) (by omega) (by omega) (by omega), ?_, Db.set_self .., ?_, ?_⟩
    · simp only
      omega
    · simp only
      omega
    · simp [Server.scripts]
  · have hdb := (Db.find_eq_some_iff.mp hf).1
    obtain ⟨hstock, hdouble⟩ := hvalue hdb
    have hzero : server.stock cfg b = 0 := by omega
    obtain ⟨pttl, window, hr⟩ := hreply (Nat.zero_le _) hf
    refine ⟨_, e, hr, ?_, hdb, ?_, ?_⟩
    · simp [hzero]
    · simp only
      omega
    · simp [Server.scripts]
  · have hdb := (Db.find_eq_some_iff.mp hf).1
    obtain ⟨hstock, hdouble⟩ := hvalue hdb
    have hmin : min (doubleInt e.value) (double (cfg.policy b).leaseSize) =
        (min (cfg.policy b).leaseSize (server.stock cfg b) : Nat) := by
      rw [double_of_le hsize, hdouble]
      omega
    rw [hmin]
    obtain ⟨pttl, window, hr⟩ := hreply (show min (cfg.policy b).leaseSize (server.stock cfg b) ≤ 2 ^ 53 by omega) hf
    refine ⟨_, _, hr, rfl, Db.set_self .., ?_, ?_⟩
    · simp only
      omega
    · simp [Server.scripts]

end EvalLease

variable [DecidableEq IpAddr]

def Bucket.batch (bk : Bucket) : Batch := { left := bk.tokens, shut := bk.exhausted }

namespace Cluster

/-- Neither the key nor the bucket of a called id expires while it is called, Redis answers and
would accept the expiry of a new key, and a tick finds nothing expired. -/
def inWindow (cfg : Config) (s : Cluster ι IpAddr) : Turn ι IpAddr → Bool
  | .consume i b c =>
      c.link.isAnswers &&
      decide (0 < asSecs (cfg.policy b).resetIn) &&
      decide (double (asSecs (cfg.policy b).resetIn) * 1000 + (s.server.now + c.wait) < 2 ^ 63) &&
      (s.server.db b.toKey).all (fun e => e.live (s.server.now + c.wait)) &&
      ((s.node i).store.buckets.get b).all (fun bk => !bk.isExpired (s.node i).now) &&
      (Node.ensureRefilled (evalLeaseChecked cfg) (s.node i) s.server b c).all fun (_, v, _) =>
        (v.store.buckets.get b).all fun bk => !bk.isExpired (v.now + c.toTake)
  | .tick i => (s.node i).expiredKeys.isEmpty
  | _ => true

/-- Between the calls of a window, Redis is in order and nothing is being refilled. -/
structure Kept (cfg : Config) (b : BucketId IpAddr) (s : Cluster ι IpAddr) : Prop where
  free : s.Idle
  dated : s.server.Dated
  counted : s.server.Counted cfg b

/-- The tokens of `b` as a pool: the stock is in Redis, the batches are the buckets. -/
def pool (cfg : Config) (s : Cluster ι IpAddr) (b : BucketId IpAddr) : Pool ι where
  stock := s.server.stock cfg b
  batch i := ((s.node i).store.buckets.get b).map Bucket.batch
  drawn := admitted s.answers b
  visits := s.server.scripts b

variable {cfg : Config} {s s' : Cluster ι IpAddr} {i : ι} {b : BucketId IpAddr} {c : Timing}

theorem inWindow_consume (hin : s.inWindow cfg (.consume i b c) = true) : c.link = .answers ∧
    0 < asSecs (cfg.policy b).resetIn ∧
    double (asSecs (cfg.policy b).resetIn) * 1000 + (s.server.now + c.wait) < 2 ^ 63 ∧
    ∀ e, s.server.db b.toKey = some e → e.live (s.server.now + c.wait) = true := by
  simp only [inWindow, Bool.and_eq_true, decide_eq_true_eq] at hin
  obtain ⟨⟨⟨⟨⟨hlink, hreset⟩, hrange⟩, hkey⟩, -⟩, -⟩ := hin
  exact ⟨Link.isAnswers_iff.mp hlink, hreset, hrange, fun e he => by simpa [he] using hkey⟩

/-- In the window of its id a lease is answered, and takes up to `lease_size` of the stock. -/
theorem leaseReply_inWindow (hquota : (cfg.policy b).quota ≤ 2 ^ 53) (h : s.Kept cfg b)
    (hin : s.inWindow cfg (.consume i b c) = true) : ∃ r,
      (Node.leaseReply (evalLeaseChecked cfg) s.server b c).1 = .ok r ∧
      r.leased = min (cfg.policy b).leaseSize (s.server.stock cfg b) ∧
      ((Node.leaseReply (evalLeaseChecked cfg) s.server b c).2.db b.toKey).isSome = true ∧
      (Node.leaseReply (evalLeaseChecked cfg) s.server b c).2.stock cfg b = s.server.stock cfg b - r.leased ∧
      (Node.leaseReply (evalLeaseChecked cfg) s.server b c).2.Counted cfg b ∧
      (Node.leaseReply (evalLeaseChecked cfg) s.server b c).2.scripts b = s.server.scripts b + 1 := by
  obtain ⟨hlink, hreset, hrange, hlive⟩ := inWindow_consume hin
  have hdated := h.dated.elapse c.wait
  have hcounted : (s.server.elapse c.wait).Counted cfg b := h.counted
  rw [Node.leaseReply, hlink]
  obtain ⟨r, e, hr, hleased, hdb, hvalue, hscripts⟩ :=
    evalLeaseChecked_stock hquota hdated hcounted hreset hrange hlive
  refine ⟨r, hr, hleased, by rw [hdb]; rfl, Server.stock_of hdb hvalue, fun e' he' => ?_, hscripts⟩
  obtain rfl := Option.some.inj (hdb.symm.trans he')
  have hle := hcounted.stock_le
  omega

variable [DecidableEq ι]

theorem pool_answered (cfg : Config) (s : Cluster ι IpAddr) (i : ι) (b : BucketId IpAddr) (v : Node IpAddr)
    (server : Server) (res : Except (StoreError IpAddr) Nat) :
    pool cfg { s.setNode i v with server, answers := s.answers ++ [⟨i, b, res⟩] } b =
      { stock := server.stock cfg b
        batch := Function.update (s.pool cfg b).batch i ((v.store.buckets.get b).map Bucket.batch)
        drawn := admitted s.answers b + if res.isOk = true then 1 else 0
        visits := server.scripts b } := by
  refine Pool.ext rfl (fun j => ?_) ?_ rfl
  · by_cases hj : j = i
    · subst hj
      simp [pool, setNode]
    · simp [pool, setNode, hj]
  · simp [pool, admitted_snoc]

private theorem consume_pool_of {res : Except (StoreError IpAddr) Nat} {v : Node IpAddr} {server : Server}
    {left : Option Nat} {p : Pool ι}
    (hc : Node.consume (evalLeaseChecked cfg) (s.node i) s.server b c = some (res, v, server))
    (hdraw : (s.pool cfg b).draw (cfg.policy b).leaseSize i = (left, p)) (hstock : server.stock cfg b = p.stock)
    (hbatch : ∀ j, Function.update (s.pool cfg b).batch i ((v.store.buckets.get b).map Bucket.batch) j = p.batch j)
    (hdrawn : (admitted s.answers b + if res.isOk = true then 1 else 0) = p.drawn)
    (hvisits : server.scripts b = p.visits) (hshows : Shows b left res) :
    ∃ res s', s.consume (evalLeaseChecked cfg) i b c = some s' ∧ s'.answers = s.answers ++ [⟨i, b, res⟩] ∧
      s'.pool cfg b = ((s.pool cfg b).draw (cfg.policy b).leaseSize i).2 ∧
      Shows b ((s.pool cfg b).draw (cfg.policy b).leaseSize i).1 res := by
  refine ⟨res, { s.setNode i v with server, answers := s.answers ++ [⟨i, b, res⟩] }, ?_, rfl, ?_, ?_⟩
  · simp only [consume, hc, Option.map_some]
  · rw [hdraw, pool_answered]
    exact Pool.ext hstock hbatch hdrawn hvisits
  · rw [hdraw]
    exact hshows

theorem consume_pool (hquota : (cfg.policy b).quota ≤ 2 ^ 53) (h : s.Kept cfg b)
    (hin : s.inWindow cfg (.consume i b c) = true) :
    ∃ res s', s.consume (evalLeaseChecked cfg) i b c = some s' ∧ s'.answers = s.answers ++ [⟨i, b, res⟩] ∧
      s'.pool cfg b = ((s.pool cfg b).draw (cfg.policy b).leaseSize i).2 ∧
      Shows b ((s.pool cfg b).draw (cfg.policy b).leaseSize i).1 res := by
  obtain ⟨hbucket, hlook⟩ : ((s.node i).store.buckets.get b).all (fun bk => !bk.isExpired (s.node i).now) = true ∧
      ((Node.ensureRefilled (evalLeaseChecked cfg) (s.node i) s.server b c).all fun (_, v, _) =>
        (v.store.buckets.get b).all fun bk => !bk.isExpired (v.now + c.toTake)) = true := by
    simp only [inWindow, Bool.and_eq_true] at hin
    exact ⟨hin.1.2, hin.2⟩
  have hbatch : (s.pool cfg b).batch i = ((s.node i).store.buckets.get b).map Bucket.batch := rfl
  have hput (l : Option Batch) (j : ι) (hl : l = (s.pool cfg b).batch i) :
      Function.update (s.pool cfg b).batch i l j = (s.pool cfg b).batch j := by
    rw [hl, Function.update_eq_self]
  rcases Node.ensureRefilled_cases (evalLeaseChecked cfg) s.server c (h.free i b) with ⟨bk, hb, hx, he⟩ |
    ⟨bk, hb, hx, ht, -, he⟩ | ⟨hx, hspent, hrest⟩
  · -- marked: the holder has given up
    have hshut : (s.pool cfg b).batch i = some bk.batch := by rw [hbatch, hb, Option.map_some]
    exact consume_pool_of (Node.consume_of_error he) (Pool.draw_of_shut hshut hx) rfl
      (fun j => hput _ j rfl) (by simp [pool, Except.isOk, Except.toBool]) rfl ⟨_, rfl⟩
  · -- held: the last look finds the same bucket
    have hheld : (s.pool cfg b).batch i = some ⟨bk.tokens - 1 + 1, false⟩ := by
      rw [hbatch, hb, Option.map_some, Bucket.batch, hx, Nat.sub_add_cancel ht]
    have hlive : (s.node i).now + c.toTake < bk.expiresAt := by simpa [he, hb] using hlook
    have hlooked := Node.look_of_live (c := c) hb hlive
    refine consume_pool_of (Node.consume_of_ok he) (Pool.draw_of_held hheld) rfl (fun j => ?_)
      (by simp [pool, Except.isOk, Except.toBool]) rfl ?_
    · simp [hlooked, hb, Bucket.batch, hx]
    · rw [hlooked]
      rfl
  · -- spent: the next batch comes from Redis
    have hused : ∀ l, (s.pool cfg b).batch i = some l → l.left = 0 ∧ l.shut = false := by
      intro l hl
      obtain ⟨bk, hb, rfl⟩ := Option.map_eq_some_iff.mp hl
      have hlive : (s.node i).now < bk.expiresAt := by simpa [hb] using hbucket
      rcases hspent bk hb with ht | hexp
      · exact ⟨ht, hx bk hb⟩
      · omega
    obtain ⟨r, hreply, hleased, -, hstock, -, hscripts⟩ := leaseReply_inWindow hquota h hin
    have hsize := (cfg.policy b).leaseSize_pos
    have hdraw : (s.pool cfg b).draw (cfg.policy b).leaseSize i = _ := Pool.draw_of_used hused
    have hp : (s.pool cfg b).stock = s.server.stock cfg b := rfl
    rcases hrest with ⟨e, hr, -⟩ | ⟨r', hr, hzero, he⟩ | ⟨r', hr, hpos, he⟩
    · rw [hreply] at hr
      cases hr
    · obtain rfl := Except.ok.inj (hreply.symm.trans hr)
      have hempty : (s.pool cfg b).stock = 0 := by omega
      rw [Pool.visit, if_pos hempty] at hdraw
      refine consume_pool_of (Node.consume_of_error he) hdraw ?_ (fun j => ?_) ?_ hscripts ⟨_, rfl⟩
      · rw [hstock, hzero]
        rfl
      · simp only [DashMap.get_modify_self, hbatch, Option.map_map]
        rfl
      · simp [pool, Except.isOk, Except.toBool]
    · -- the new bucket is kept folded here, its expiry is a long term
      obtain rfl := Except.ok.inj (hreply.symm.trans hr)
      have hfull : (s.pool cfg b).stock ≠ 0 := by omega
      rw [Pool.visit, if_neg hfull, hp, ← hleased] at hdraw
      obtain ⟨v, bk, hv, hnew, htokens, hx⟩ := (s.node i).exists_filled b c r
      rw [← hv] at he
      have hfresh : v.now + c.toTake < bk.expiresAt := by simpa [he, hnew] using hlook
      have hlooked := Node.look_of_live (c := c) hnew hfresh
      refine consume_pool_of (Node.consume_of_ok he) hdraw hstock (fun j => ?_) ?_ hscripts ?_
      · simp [hlooked, hnew, Bucket.batch, htokens, hx]
      · simp [pool, Except.isOk, Except.toBool]
      · rw [hlooked, htokens]
        rfl

/-- The results of the calls for `b`, in their order. -/
def answersOf (s : Cluster ι IpAddr) (b : BucketId IpAddr) : List (Except (StoreError IpAddr) Nat) :=
  (s.answers.filter fun a => decide (a.id = b)).map Answer.res

theorem consume_other {b' : BucketId IpAddr} (h : s.Idle) (hkey : b'.toKey ≠ b.toKey)
    (hs : s.consume (evalLeaseChecked cfg) i b' c = some s') :
    s'.pool cfg b = s.pool cfg b ∧ s'.answersOf b = s.answersOf b := by
  have hid : b' ≠ b := fun he => hkey (congrArg _ he)
  have hbuckets := consume_others h hs (Ne.symm hid)
  obtain ⟨res, v, server, hc, rfl⟩ := consume_eq_some hs
  obtain ⟨-, -, hserver⟩ := Node.consume_frame (h i b') hc
  have hserver : server.db b.toKey = s.server.db b.toKey ∧ server.scripts b = s.server.scripts b := by
    rcases hserver with rfl | rfl
    · exact ⟨rfl, rfl⟩
    · obtain ⟨hdb, hlog⟩ := evalLeaseChecked_frame cfg (s.server.elapse c.wait) b' c.link
      refine ⟨hdb _ (Ne.symm hkey), ?_⟩
      unfold Server.scripts Node.leaseReply
      rcases hlog with hlog | ⟨reply, hlog⟩
      · rw [hlog]
        rfl
      · rw [hlog, List.countP_cons_of_neg (by simpa using hkey)]
        rfl
  refine ⟨Pool.ext ?_ (fun j => ?_) ?_ hserver.2, ?_⟩
  · simp only [pool, Server.stock, hserver.1]
  · exact congrArg (Option.map Bucket.batch) (hbuckets j)
  · simp [pool, admitted_snoc, hid]
  · simp [answersOf, List.filter_append, hid]

end Cluster

/-- No other id of the same key is called. -/
def Turn.spares (b : BucketId IpAddr) : Turn ι IpAddr → Bool
  | .consume _ b' _ => decide (b' = b) || decide (b'.toKey ≠ b.toKey)
  | _ => true

theorem Turn.spares_of_injective (hdisplay : Function.Injective (toString : IpAddr → String)) (b : BucketId IpAddr)
    (a : Turn ι IpAddr) : a.spares b = true := by
  cases a with
  | consume i b' c =>
      by_cases hb : b' = b
      · simp [spares, hb]
      · simp [spares, (BucketId.toKey_injective hdisplay).ne hb]
  | tick _ | elapse _ _ | redisElapse _ => rfl

namespace Cluster

variable [DecidableEq ι] {cfg : Config} {s s' : Cluster ι IpAddr} {b : BucketId IpAddr} {a : Turn ι IpAddr}

theorem Kept.step (hquota : (cfg.policy b).quota ≤ 2 ^ 53) (h : s.Kept cfg b) (hin : s.inWindow cfg a = true)
    (hspares : a.spares b = true) (hs : (cluster (evalLeaseChecked cfg)).next s a = some s') : s'.Kept cfg b := by
  refine ⟨h.free.step hs, server_step h.free h.dated (fun _ ms h => h.elapse ms) ?dated hs,
    server_step (P := fun server => server.Counted cfg b) h.free h.counted (fun _ _ h => h) ?counted hs⟩
  case dated =>
    intro i b' c _ hdated
    exact hdated.evalLeaseChecked
  case counted =>
    rintro i b' c rfl hcounted
    simp only [Turn.spares, Bool.or_eq_true, decide_eq_true_eq] at hspares
    rcases hspares with rfl | hkey
    · obtain ⟨r, -, -, -, -, hkept, -⟩ := leaseReply_inWindow hquota h hin
      exact hkept
    · intro e he
      rw [(evalLeaseChecked_frame ..).1 _ (Ne.symm hkey)] at he
      exact hcounted e he

/-- A turn inside the windows leaves the pool of `b` alone or is a draw from it. -/
theorem pool_step (hquota : (cfg.policy b).quota ≤ 2 ^ 53) (h : s.Kept cfg b) (hin : s.inWindow cfg a = true)
    (hspares : a.spares b = true) (hs : (cluster (evalLeaseChecked cfg)).next s a = some s') :
    (s'.pool cfg b = s.pool cfg b ∧ s'.answersOf b = s.answersOf b) ∨
    ∃ i c res, a = .consume i b c ∧ s'.pool cfg b = ((s.pool cfg b).draw (cfg.policy b).leaseSize i).2 ∧
      s'.answersOf b = s.answersOf b ++ [res] ∧ Shows b ((s.pool cfg b).draw (cfg.policy b).leaseSize i).1 res := by
  cases a with
  | consume i b' c =>
      simp only [Turn.spares, Bool.or_eq_true, decide_eq_true_eq] at hspares
      rcases hspares with rfl | hkey
      · obtain ⟨res, s₁, hc, hanswers, hpool, hshows⟩ := consume_pool hquota h hin
        obtain rfl := Option.some.inj (hc.symm.trans hs)
        refine .inr ⟨i, c, res, rfl, hpool, ?_, hshows⟩
        simp [answersOf, hanswers, List.filter_append]
      · exact .inl (consume_other h.free hkey hs)
  | tick i =>
      cases hs
      left
      rw [Node.tick_of_fresh hin, setNode, Function.update_eq_self]
      exact ⟨rfl, rfl⟩
  | elapse i ns =>
      cases hs
      refine .inl ⟨Pool.ext rfl (fun j => ?_) rfl rfl, rfl⟩
      simp only [pool, store_elapse]
  | redisElapse ms =>
      cases hs
      exact .inl ⟨rfl, rfl⟩

end Cluster

/-- The tokens instance `i` holds for `b`. -/
def Cluster.held (s : Cluster ι IpAddr) (i : ι) (b : BucketId IpAddr) : Nat :=
  ((s.node i).store.buckets.get b).elim 0 Bucket.tokens

theorem Cluster.left_pool (cfg : Config) (s : Cluster ι IpAddr) (i : ι) (b : BucketId IpAddr) :
    (s.pool cfg b).left i = s.held i b := by
  unfold Pool.left Cluster.held Cluster.pool
  cases hb : (s.node i).store.buckets.get b <;> simp [hb, Bucket.batch]

section Results

variable [DecidableEq ι] {cfg : Config} {b : BucketId IpAddr}

theorem spared (hdisplay : Function.Injective (toString : IpAddr → String)) {s : Cluster ι IpAddr}
    (hs : ReachWhen (cluster (evalLeaseChecked cfg)) (fun s a => s.inWindow cfg a = true) s) (b : BucketId IpAddr) :
    ReachWhen (cluster (evalLeaseChecked cfg)) (fun s a => (s.inWindow cfg a && a.spares b) = true) s := by
  apply hs.mono
  intro s a hin
  rw [hin, a.spares_of_injective hdisplay b]
  rfl

theorem stays_kept (hquota : (cfg.policy b).quota ≤ 2 ^ 53) {s : Cluster ι IpAddr}
    (hs : ReachWhen (cluster (evalLeaseChecked cfg)) (fun s a => (s.inWindow cfg a && a.spares b) = true) s) :
    s.Kept cfg b := by
  refine ReachWhen.invariant ?_ ?_ hs
  · rintro _ ⟨clock, now, rfl⟩
    exact ⟨fun _ _ => rfl, by simp [Cluster.start, Server.start, Server.Dated],
      by simp [Cluster.start, Server.start, Server.Counted]⟩
  · intro s a s' _ h hg hnext
    rw [Bool.and_eq_true] at hg
    exact h.step hquota hg.1 hg.2 hnext

theorem pool_sound [Fintype ι] (hquota : (cfg.policy b).quota ≤ 2 ^ 53) {s : Cluster ι IpAddr}
    (hs : ReachWhen (cluster (evalLeaseChecked cfg)) (fun s a => (s.inWindow cfg a && a.spares b) = true) s) :
    (s.pool cfg b).Sound (cfg.policy b).quota (cfg.policy b).leaseSize := by
  refine ReachWhen.invariant
    (I := fun s => (s.pool cfg b).Sound (cfg.policy b).quota (cfg.policy b).leaseSize) ?_ ?_ hs
  · rintro _ ⟨clock, now, rfl⟩
    exact Pool.sound_start ..
  · intro s a s' hr h hg hnext
    rw [Bool.and_eq_true] at hg
    rcases Cluster.pool_step hquota (stays_kept hquota hr) hg.1 hg.2 hnext with ⟨hp, -⟩ | ⟨i, c, res, -, hp, -⟩
    · exact hp ▸ h
    · exact hp ▸ h.draw (cfg.policy b).leaseSize_pos i

/-- In the window of `b` its quota is spread over Redis, the instances and the `Ok`s. An instance that
refuses leaves at most one lease with each of the others. -/
theorem quota_is_conserved [Fintype ι] (hquota : (cfg.policy b).quota ≤ 2 ^ 53) {s : Cluster ι IpAddr}
    (hs : ReachWhen (cluster (evalLeaseChecked cfg)) (fun s a => (s.inWindow cfg a && a.spares b) = true) s) :
    ((cfg.policy b).quota : Int) = (s.server.db b.toKey).elim ((cfg.policy b).quota : Int) Entry.value +
      (∑ i, s.held i b : Nat) + admitted s.answers b ∧
    ∀ i c retry s', s.inWindow cfg (.consume i b c) = true → s.consume (evalLeaseChecked cfg) i b c = some s' →
      s'.answers = s.answers ++ [⟨i, b, .error (.exhausted b retry)⟩] →
      (cfg.policy b).quota - admitted s'.answers b ≤ (Fintype.card ι - 1) * (cfg.policy b).leaseSize := by
  have hkept := stays_kept hquota hs
  have h := pool_sound hquota hs
  constructor
  · have hconserved := h.conserved
    simp only [Cluster.left_pool] at hconserved
    have hstock : (s.server.stock cfg b : Int) =
        (s.server.db b.toKey).elim ((cfg.policy b).quota : Int) Entry.value := by
      unfold Server.stock
      cases hdb : s.server.db b.toKey with
      | none => rfl
      | some e => exact Int.toNat_of_nonneg (hkept.counted e hdb).1
    rw [← hstock]
    simp only [Cluster.pool] at hconserved
    omega
  · intro i c retry s' hin hc hanswers
    obtain ⟨res, s₁, hc₁, hanswers₁, hpool, hshows⟩ := Cluster.consume_pool hquota hkept hin
    obtain rfl := Option.some.inj (hc₁.symm.trans hc)
    have hres : res = .error (.exhausted b retry) := by
      rw [hanswers₁] at hanswers
      simpa using hanswers
    have hrefused : ((s.pool cfg b).draw (cfg.policy b).leaseSize i).1 = none := by
      cases hd : ((s.pool cfg b).draw (cfg.policy b).leaseSize i).1 with
      | none => rfl
      | some left =>
          rw [hd] at hshows
          cases hres.symm.trans hshows
    have hsame : admitted s₁.answers b = admitted s.answers b := by
      rw [hanswers₁, admitted_snoc, hres, if_neg (by simp [Except.isOk, Except.toBool]), Nat.add_zero]
    have hquota := Pool.quota_le_of_refused h hrefused
    simp only [Cluster.pool] at hquota
    omega

/-- One instance counts the requests of an id up to its quota. It goes to Redis once for each batch
and once more to find the key empty. -/
theorem counts_to_quota (hdisplay : Function.Injective (toString : IpAddr → String)) {s : Cluster Unit IpAddr}
    (hs : ReachWhen (cluster (evalLeaseChecked cfg)) (fun s a => s.inWindow cfg a = true) s) (b : BucketId IpAddr)
    (hquota : (cfg.policy b).quota ≤ 2 ^ 53) :
    CountsTo (cfg.policy b) b (s.answersOf b) ∧
    s.server.scripts b = (min (s.answersOf b).length (cfg.policy b).quota ⌈/⌉ (cfg.policy b).leaseSize) +
      (if (cfg.policy b).quota < (s.answersOf b).length then 1 else 0) ∧
    ∀ c, (s.consume (evalLeaseChecked cfg) () b c).isSome = true := by
  have hguard := spared hdisplay hs b
  have h : s.pool cfg b = Pool.after (cfg.policy b).quota (cfg.policy b).leaseSize (s.answersOf b).length ∧
      CountsTo (cfg.policy b) b (s.answersOf b) := by
    refine ReachWhen.invariant (I := fun s : Cluster Unit IpAddr =>
      s.pool cfg b = Pool.after (cfg.policy b).quota (cfg.policy b).leaseSize (s.answersOf b).length ∧
      CountsTo (cfg.policy b) b (s.answersOf b)) ?_ ?_ hguard
    · rintro _ ⟨clock, now, rfl⟩
      exact ⟨(Pool.after_zero ..).symm, by simp [CountsTo, Cluster.answersOf, Cluster.start]⟩
    · rintro s a s' hr ⟨hpool, hcounts⟩ hg hnext
      rw [Bool.and_eq_true] at hg
      rcases Cluster.pool_step hquota (stays_kept hquota hr) hg.1 hg.2 hnext with ⟨hp, ha⟩ |
        ⟨i, c, res, -, hp, ha, hshows⟩
      · rw [hp, ha]
        exact ⟨hpool, hcounts⟩
      · rw [hpool, Pool.draw_after (cfg.policy b).leaseSize_pos (cfg.policy b).quota_pos] at hp hshows
        rw [hp, ha]
        exact ⟨by rw [List.length_append]; rfl, hcounts.snoc hshows⟩
  refine ⟨h.2, congrArg Pool.visits h.1, fun c => ?_⟩
  rw [Cluster.consume, Option.isSome_map]
  exact Node.consume_isSome (idle hs.reach () b)

/-- With one token a minute, the second request finds Redis empty. -/
theorem counts_to_one : ∃ s, (cluster (evalLeaseChecked .single)).exec testCluster
      [.consume () testUser promptCall, .consume () testUser promptCall] = some s ∧
    CountsTo (Config.single.policy testUser) testUser (s.answersOf testUser) ∧
    s.server.scripts testUser = (min 2 1 ⌈/⌉ 1) + (if 1 < 2 then 1 else 0) := by
  have hrun : ((cluster (evalLeaseChecked .single)).execWhen (Cluster.inWindow .single) testCluster
      [.consume () testUser promptCall, .consume () testUser promptCall]).map
      (fun s => (s.answersOf testUser).length) = some 2 := by decide +kernel
  obtain ⟨s, hs, hlength⟩ := Option.map_eq_some_iff.mp hrun
  obtain ⟨hcounts, hscripts, -⟩ := counts_to_quota (fun _ _ h => h) ((testCluster_init _).execWhen _ hs) testUser
    (by decide)
  rw [hlength] at hscripts
  exact ⟨s, System.exec_of_execWhen hs, hcounts, hscripts⟩

/-- One token more than Lua can count, for every subject. -/
def Config.wide : Config :=
  { Config.default with
    protectedPolicy :=
      { criteria := .sub, quota := 2 ^ 53 + 1, leaseSize := 2 ^ 53 + 1, resetIn := 60 * 1000000000
        leaseSize_pos := by decide, leaseSize_le := by decide } }

/-- A call whose request is on its way for 30 seconds. -/
def slowCall : Timing :=
  { toStart := 0, wait := 30000, link := .answers, toReply := 30000000000, toInsert := 0, toTake := 0 }

/-- Lua hands out a token less than the one batch has. And after a slow call the bucket is gone 30 seconds before
its window: the next call leases again, and 1999 tokens are never spent. -/
theorem counts_go_astray :
    (∃ s : Cluster Unit String,
        ReachWhen (cluster (evalLeaseChecked .wide)) (fun s a => s.inWindow .wide a = true) s ∧
      s.answersOf testUser = [.ok (2 ^ 53 - 1)] ∧
      ¬CountsTo (Config.wide.policy testUser) testUser (s.answersOf testUser)) ∧
    ∃ s, (cluster (evalLeaseChecked .default)).exec testCluster
        [.consume () testUser slowCall,
          .elapse () 31000000000, .redisElapse 31000, .consume () testUser promptCall] = some s ∧
      s.server.epoch testUser.toKey = 1 ∧ s.server.find testUser.toKey = some ⟨6000, some 90000⟩ ∧
      s.answersOf testUser = [.ok 1999, .ok 1999] ∧ s.server.scripts testUser = 2 ∧
      ¬CountsTo (Config.default.policy testUser) testUser (s.answersOf testUser) := by
  constructor
  · have hrun : ((cluster (evalLeaseChecked .wide)).execWhen (Cluster.inWindow .wide) testCluster
        [.consume () testUser promptCall]).map (fun s => s.answersOf testUser) = some [.ok (2 ^ 53 - 1)] := by
      decide +kernel
    obtain ⟨s, hs, hanswers⟩ := Option.map_eq_some_iff.mp hrun
    refine ⟨s, (testCluster_init _).execWhen _ hs, hanswers, fun hcounts => ?_⟩
    have hfirst := hcounts 0 (.ok (2 ^ 53 - 1)) (by rw [hanswers]; rfl)
    rw [if_pos (by decide)] at hfirst
    exact absurd hfirst (by decide +kernel)
  · have hrun : ((cluster (evalLeaseChecked .default)).exec testCluster [.consume () testUser slowCall,
        .elapse () 31000000000, .redisElapse 31000, .consume () testUser promptCall]).map
        (fun s => (s.answersOf testUser, s.server.scripts testUser)) = some ([.ok 1999, .ok 1999], 2) := by
      decide +kernel
    have hwindow : ((cluster (evalLeaseChecked .default)).exec testCluster [.consume () testUser slowCall,
        .elapse () 31000000000, .redisElapse 31000, .consume () testUser promptCall]).map
        (fun s => (s.server.epoch testUser.toKey, s.server.find testUser.toKey)) =
        some (1, some ⟨6000, some 90000⟩) := by
      decide +kernel
    obtain ⟨s, hs, hseen⟩ := Option.map_eq_some_iff.mp hrun
    rw [hs, Option.map_some, Option.some.injEq] at hwindow
    obtain ⟨hanswers, hscripts⟩ := Prod.mk.inj hseen
    obtain ⟨hepoch, hkey⟩ := Prod.mk.inj hwindow
    refine ⟨s, hs, hepoch, hkey, hanswers, hscripts, fun hcounts => ?_⟩
    have hsecond := hcounts 1 (.ok 1999) (by rw [hanswers]; rfl)
    rw [if_pos (by decide)] at hsecond
    exact absurd hsecond (by decide +kernel)

/-- Two instances share one token: the first gets it and the second is refused. -/
theorem quota_is_conserved_between_two : ∃ s, (cluster (evalLeaseChecked .single)).exec (Cluster.start (fun _ => 0) 0)
      [.consume (0 : Fin 2) testUser promptCall, .consume 1 testUser promptCall] = some s ∧
    ((Config.single.policy testUser).quota : Int) =
      (s.server.db testUser.toKey).elim ((Config.single.policy testUser).quota : Int) Entry.value +
        (∑ i, s.held i testUser : Nat) + admitted s.answers testUser := by
  have hrun : ((cluster (evalLeaseChecked .single)).execWhen (fun s a => s.inWindow .single a && a.spares testUser)
      (Cluster.start (fun _ => 0) 0)
      [.consume (0 : Fin 2) testUser promptCall, .consume 1 testUser promptCall]).isSome = true := by decide +kernel
  obtain ⟨s, hs⟩ := Option.isSome_iff_exists.mp hrun
  exact ⟨s, System.exec_of_execWhen hs,
    (quota_is_conserved (by decide) (ReachWhen.execWhen (.init ⟨_, _, rfl⟩) _ hs)).1⟩

/-- The token that Lua does not count is nowhere. -/
theorem wide_quota_is_not_conserved : ∃ s : Cluster Unit String, ReachWhen (cluster (evalLeaseChecked .wide))
      (fun s a => (s.inWindow .wide a && a.spares testUser) = true) s ∧
    s.server.db testUser.toKey = some ⟨0, some 60000⟩ ∧ s.held () testUser = 2 ^ 53 - 1 ∧
    admitted s.answers testUser = 1 ∧ 0 + (2 ^ 53 - 1) + 1 ≠ (Config.wide.policy testUser).quota := by
  have hrun : ((cluster (evalLeaseChecked .wide)).execWhen (fun s a => s.inWindow .wide a && a.spares testUser)
      testCluster [.consume () testUser promptCall]).map
      (fun s => (s.server.db testUser.toKey, s.held () testUser, admitted s.answers testUser)) =
      some (some ⟨0, some 60000⟩, 2 ^ 53 - 1, 1) := by decide +kernel
  obtain ⟨s, hs, hseen⟩ := Option.map_eq_some_iff.mp hrun
  simp only [Prod.mk.injEq] at hseen
  obtain ⟨hkey, hheld, hadmitted⟩ := hseen
  exact ⟨s, (testCluster_init _).execWhen _ hs, hkey, hheld, hadmitted, by decide⟩

end Results

end ThatLimit
