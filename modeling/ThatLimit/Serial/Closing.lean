import ThatLimit.Framework.Chunks
import ThatLimit.Serial.Counter
/-!
# Shutting down after the last call

When no call is running any more, every instance gives back what its buckets hold: the
leftovers are collected once, cut into chunks, and each chunk is released from its front.
Instances and chunks get in turn as they like. As long as the windows are open, the key of
each id ends at its quota less the requests that were admitted. The scripts run on the
numbers of Redis.
-/

namespace ThatLimit

open Transition

variable {ι IpAddr : Type}

/-- A key with the tokens left under it and their window. -/
structure Leftover (IpAddr : Type) where
  id : BucketId IpAddr
  tokens : Nat
  window : Int
  deriving DecidableEq

namespace Node

variable [DecidableEq IpAddr]

/-- A bucket that is neither empty nor expired has something to give back. -/
def leftover (v : Node IpAddr) (b : BucketId IpAddr) : Option (Leftover IpAddr) :=
  match v.store.buckets.get b with
  | some bk => if bk.isEmpty || bk.isExpired v.now then none else some ⟨b, bk.tokens, bk.window⟩
  | none => none

/-- `replenish`, in the order of the iteration. -/
def replenish (v : Node IpAddr) (order : List (BucketId IpAddr)) : List (Leftover IpAddr) :=
  order.filterMap v.leftover

/-- The shutdown branch up to `join_all`: the chunks it has to release. -/
def shutdown (v : Node IpAddr) (order : List (BucketId IpAddr)) : List (List (Leftover IpAddr)) :=
  if v.store.buckets.isEmpty then []
  else if (v.replenish order).isEmpty then []
  else Chunks.chunks chunkSize (v.replenish order)

end Node

/-- What a release of tokens under a key and a window does to Redis. -/
abbrev Give := Server → String → Nat → Int → Server

/-- `cache::release` on the numbers of Redis. -/
def giveChecked : Give := fun server key tokens window => (server.releaseChecked key tokens window).2

/-- A cluster whose calls are over, with the releases that are left of every shutdown branch that was entered. -/
structure Closing (ι IpAddr : Type) where
  base : Cluster ι IpAddr
  work : ι → Option (List (List (Leftover IpAddr)))

inductive Close (ι IpAddr : Type)
  | shutdown (i : ι) (order : List (BucketId IpAddr))
  /-- The next release of chunk `c`. -/
  | release (i : ι) (c : Nat)
  | elapse (i : ι) (ns : Nat)
  | redisElapse (ms : Nat)

namespace Closing

variable [DecidableEq ι] {s s' : Closing ι IpAddr} {i : ι}

def setWork (s : Closing ι IpAddr) (i : ι) (chunks : List (List (Leftover IpAddr))) : Closing ι IpAddr :=
  { s with work := Function.update s.work i (some chunks) }

def setServer (s : Closing ι IpAddr) (server : Server) : Closing ι IpAddr := { s with base := { s.base with server } }

section Release

variable [ToString IpAddr]

def release (give : Give) (s : Closing ι IpAddr) (i : ι) (c : Nat) : Option (Closing ι IpAddr) :=
  match s.work i with
  | some chunks =>
      match chunks[c]? with
      | some (p :: rest) =>
          some ((s.setWork i (chunks.set c rest)).setServer (give s.base.server p.id.toKey p.tokens p.window))
      | _ => none
  | none => none

theorem release_eq_some {give : Give} {c : Nat} (h : s.release give i c = some s') : ∃ chunks p rest,
    s.work i = some chunks ∧ chunks[c]? = some (p :: rest) ∧ s' = (s.setWork i (chunks.set c rest)).setServer
      (give s.base.server p.id.toKey p.tokens p.window) := by
  unfold release at h
  split at h
  · next chunks hwork =>
      split at h
      · next p rest hchunk =>
          cases h
          exact ⟨chunks, p, rest, hwork, hchunk, rfl⟩
      · cases h
  · cases h

end Release

variable [DecidableEq IpAddr]

/-- The iteration sees every bucket once. -/
def shutdown (s : Closing ι IpAddr) (i : ι) (order : List (BucketId IpAddr)) : Option (Closing ι IpAddr) :=
  match s.work i with
  | none =>
      if order.Perm (s.base.node i).store.buckets.keys then some (s.setWork i ((s.base.node i).shutdown order)) else none
  | some _ => none

theorem shutdown_eq_some {order : List (BucketId IpAddr)} (h : s.shutdown i order = some s') :
    s.work i = none ∧ order.Perm (s.base.node i).store.buckets.keys ∧
      s' = s.setWork i ((s.base.node i).shutdown order) := by
  unfold shutdown at h
  split at h
  · next hwork =>
      split at h
      · next hperm =>
          cases h
          exact ⟨hwork, hperm, rfl⟩
      · cases h
  · cases h

variable [ToString IpAddr]

def next (give : Give) (s : Closing ι IpAddr) : Close ι IpAddr → Option (Closing ι IpAddr)
  | .shutdown i order => s.shutdown i order
  | .release i c => s.release give i c
  | .elapse i ns => some { s with base := s.base.setNode i { s.base.node i with now := (s.base.node i).now + ns } }
  | .redisElapse ms => some (s.setServer (s.base.server.elapse ms))

/-- Nothing has expired: no bucket when it is collected, and no key when its tokens come back. -/
def inWindow (s : Closing ι IpAddr) : Close ι IpAddr → Bool
  | .shutdown i _ => (s.base.node i).expiredKeys.isEmpty
  | .release i c => (((s.work i).bind (·[c]?)).bind List.head?).all fun p => (s.base.server.find p.id.toKey).isSome
  | _ => true

/-- Every shutdown branch is through with its releases. -/
def Done (s : Closing ι IpAddr) : Prop := ∀ i, ∃ chunks, s.work i = some chunks ∧ chunks.flatten = []

end Closing

/-- The tokens of `b` in a leftover. -/
def Leftover.tokensOf [DecidableEq IpAddr] (b : BucketId IpAddr) (p : Leftover IpAddr) : Nat :=
  if p.id = b then p.tokens else 0

namespace Node

variable [DecidableEq IpAddr] {v : Node IpAddr} {b : BucketId IpAddr} {order : List (BucketId IpAddr)}
  {p : Leftover IpAddr}

theorem leftover_eq_some (h : v.leftover b = some p) :
    ∃ bk, v.store.buckets.get b = some bk ∧ p = ⟨b, bk.tokens, bk.window⟩ := by
  unfold leftover at h
  split at h
  · next bk hb =>
      split at h
      · cases h
      · cases h
        exact ⟨bk, hb, rfl⟩
  · cases h

theorem live_of_fresh {bk : Bucket} (hfresh : v.expiredKeys.isEmpty = true) (hb : v.store.buckets.get b = some bk) :
    bk.isExpired v.now = false := by
  by_contra hexpired
  have hmem : b ∈ v.expiredKeys := by
    simp only [expiredKeys, List.mem_filter, DashMap.mem_keys_iff, hb, Option.isSome_some, Option.any_some, true_and]
    simpa using hexpired
  rw [List.isEmpty_iff.mp hfresh] at hmem
  cases hmem

theorem leftover_of_fresh (hfresh : v.expiredKeys.isEmpty = true) (b : BucketId IpAddr) :
    (v.leftover b).elim 0 Leftover.tokens = (v.store.buckets.get b).elim 0 Bucket.tokens := by
  unfold leftover
  cases hb : v.store.buckets.get b with
  | none => rfl
  | some bk =>
      cases hempty : bk.isEmpty with
      | false => simp [live_of_fresh hfresh hb, hempty]
      | true => simp [(Bucket.isEmpty_iff bk).mp hempty]

theorem tally_replenish (v : Node IpAddr) (b : BucketId IpAddr) (hnodup : order.Nodup) :
    Tally.tally (Leftover.tokensOf b) (v.replenish order) =
      if b ∈ order then (v.leftover b).elim 0 Leftover.tokens else 0 := by
  unfold replenish
  induction order with
  | nil => rfl
  | cons a order ih =>
      obtain ⟨ha, hnodup⟩ := List.nodup_cons.mp hnodup
      have ih := ih hnodup
      cases hp : v.leftover a with
      | none =>
          rw [List.filterMap_cons_none hp, ih]
          by_cases hb : b = a
          · subst hb
            simp [ha, hp]
          · simp [hb]
      | some p =>
          obtain ⟨bk, -, rfl⟩ := leftover_eq_some hp
          rw [List.filterMap_cons_some hp, Tally.tally_cons, ih]
          by_cases hb : b = a
          · subst hb
            simp [ha, hp, Leftover.tokensOf]
          · simp [hb, Ne.symm hb, Leftover.tokensOf]

theorem flatten_shutdown (v : Node IpAddr) (order : List (BucketId IpAddr)) :
    (v.shutdown order).flatten = v.replenish order := by
  unfold shutdown
  split
  · next hempty =>
      have hnone : ∀ b ∈ order, v.leftover b = none := fun b _ => by
        rw [leftover, DashMap.get_of_isEmpty hempty]
      exact (List.filterMap_eq_nil_iff.mpr hnone).symm
  · split
    · next hempty => exact (List.isEmpty_iff.mp hempty).symm
    · exact Chunks.flatten_chunks (by decide) _

end Node

namespace Closing

variable [DecidableEq ι] [DecidableEq IpAddr]

/-- The tokens of `b` that instance `i` has still to give back: all it holds until it collects them. -/
def owed (s : Closing ι IpAddr) (i : ι) (b : BucketId IpAddr) : Nat :=
  match s.work i with
  | none => s.base.held i b
  | some chunks => Tally.tally (Leftover.tokensOf b) chunks.flatten

theorem owed_setWork_self (s : Closing ι IpAddr) (i : ι) (chunks : List (List (Leftover IpAddr)))
    (b : BucketId IpAddr) : (s.setWork i chunks).owed i b = Tally.tally (Leftover.tokensOf b) chunks.flatten := by
  simp [owed, setWork]

theorem owed_setWork_ne (s : Closing ι IpAddr) {i j : ι} (hj : j ≠ i) (chunks : List (List (Leftover IpAddr)))
    (b : BucketId IpAddr) : (s.setWork i chunks).owed j b = s.owed j b := by
  simp [owed, setWork, hj]

end Closing

variable [ToString IpAddr]

/-- The runs of the shutdown branches after some calls. -/
def closing [DecidableEq ι] [DecidableEq IpAddr] (called : Cluster ι IpAddr → Prop) (give : Give) :
    System (Closing ι IpAddr) (Close ι IpAddr) where
  init s := called s.base ∧ s.work = fun _ => none
  next := Closing.next give

/-- The calls were all made inside their windows. -/
def CalledInWindow [DecidableEq ι] [DecidableEq IpAddr] (cfg : Config) (s : Cluster ι IpAddr) : Prop :=
  ReachWhen (cluster (evalLeaseChecked cfg)) (fun s a => s.inWindow cfg a = true) s

section Windowed

theorem evalLeaseChecked_keeps {cfg : Config} {server : Server} {b : BucketId IpAddr} {link : Link}
    (hlive : ∀ e, server.db b.toKey = some e → e.live server.now = true) {key : String}
    (hkey : (server.db key).isSome = true) : ((evalLeaseChecked cfg server b link).2.db key).isSome = true ∧
      (evalLeaseChecked cfg server b link).2.opened key = server.opened key := by
  rcases evalLeaseChecked_server cfg server b link with h | h
  · rw [h]
    exact ⟨hkey, rfl⟩
  · rw [h]
    have hset (e : Entry) : (server.db.set b.toKey e key).isSome = true := by
      by_cases hb : key = b.toKey
      · subst hb
        simp
      · simpa [hb] using hkey
    obtain ⟨reply, hs | ⟨hf, -, -, hs⟩ | ⟨e, hf, -, -, hs⟩⟩ := server.leaseChecked_effect b.toKey
      (cfg.policy b).leaseSize (cfg.policy b).quota (asSecs (cfg.policy b).resetIn)
    · rw [hs]
      exact ⟨hkey, rfl⟩
    · have hother : key ≠ b.toKey := by
        rintro rfl
        obtain ⟨e, he⟩ := Option.isSome_iff_exists.mp hkey
        simp [Server.find, Db.find, he, hlive e he] at hf
      rw [hs]
      exact ⟨hset _, by simp [hother]⟩
    · rw [hs]
      exact ⟨hset _, rfl⟩

theorem evalLeaseChecked_window {cfg : Config} {server : Server} {b : BucketId IpAddr} {link : Link} {r : Leased}
    (hdated : server.Dated) (h : (evalLeaseChecked cfg server b link).1 = .ok r) :
    ((evalLeaseChecked cfg server b link).2.db b.toKey).isSome = true ∧
      r.window = longLong (double ((evalLeaseChecked cfg server b link).2.opened b.toKey)) := by
  obtain ⟨-, reply, hl, hdecode⟩ := Link.eval_ok h
  obtain ⟨-, -, rfl⟩ := LeaseReply.decode_eq_ok hdecode
  have hopen {e : Entry} (hf : server.find b.toKey = some e) :
      longLong (doubleInt e.pexpiretime) = longLong (double (server.opened b.toKey)) := by
    rw [Entry.pexpiretime_eq (hdated _ e (Db.find_eq_some_iff.mp hf).1).1, doubleInt_natCast]
  rcases Server.leaseChecked_cases hl with ⟨-, -, -, rfl, hs⟩ | ⟨e, hf, -, rfl, hs⟩ | ⟨e, hf, -, -, -, rfl, hs⟩
  · rw [evalLeaseChecked, hs]
    exact ⟨by simp, by simp only [Function.update_self, LeaseReply.ofLua, doubleInt_natCast]⟩
  · rw [evalLeaseChecked, hs]
    exact ⟨by simp [(Db.find_eq_some_iff.mp hf).1], hopen hf⟩
  · rw [evalLeaseChecked, hs]
    exact ⟨by simp, hopen hf⟩

variable [DecidableEq IpAddr]

/-- Every bucket is of the window its key is in. -/
structure Cluster.Windowed (s : Cluster ι IpAddr) : Prop where
  dated : s.server.Dated
  stored : ∀ i b bk, (s.node i).store.buckets.get b = some bk →
    (s.server.db b.toKey).isSome = true ∧ bk.window = longLong (double (s.server.opened b.toKey))

variable [DecidableEq ι] {cfg : Config}

theorem Cluster.Windowed.consume {s s' : Cluster ι IpAddr} {i : ι} {b : BucketId IpAddr} {c : Timing}
    (hfree : s.Idle) (h : s.Windowed) (hin : s.inWindow cfg (.consume i b c) = true)
    (hs : s.consume (evalLeaseChecked cfg) i b c = some s') : s'.Windowed ∧
      ∀ key, (s.server.db key).isSome = true → (s'.server.db key).isSome = true := by
  obtain ⟨-, -, -, hlive⟩ := Cluster.inWindow_consume hin
  have hdated := h.dated.elapse c.wait
  have hkept : s'.server.Dated ∧ ∀ key, (s.server.db key).isSome = true →
      (s'.server.db key).isSome = true ∧ s'.server.opened key = s.server.opened key := by
    obtain ⟨res, v, server, hc, rfl⟩ := Cluster.consume_eq_some hs
    rcases (Node.consume_frame (hfree i b) hc).2.2 with rfl | rfl
    · exact ⟨h.dated, fun _ hkey => ⟨hkey, rfl⟩⟩
    · exact ⟨hdated.evalLeaseChecked, fun _ hkey => evalLeaseChecked_keeps hlive hkey⟩
  refine ⟨⟨hkept.1, fun j b' bk' hb' => ?_⟩, fun key hkey => (hkept.2 key hkey).1⟩
  rcases Cluster.consume_buckets hfree hs hb' with ⟨bk, hb, -, hwindow⟩ | ⟨rfl, rfl, r, hr, hs', -, hwindow⟩
  · obtain ⟨hsome, hstored⟩ := h.stored j b' bk hb
    obtain ⟨hsome', hopened⟩ := hkept.2 _ hsome
    exact ⟨hsome', by rw [hwindow, hstored, hopened]⟩
  · rw [hs', hwindow]
    exact evalLeaseChecked_window hdated hr

theorem Cluster.Windowed.elapse {s : Cluster ι IpAddr} (h : s.Windowed) (i : ι) (ns : Nat) :
    (s.setNode i { s.node i with now := (s.node i).now + ns }).Windowed := by
  refine ⟨h.dated, fun j b bk hb => h.stored j b bk ?_⟩
  rwa [Cluster.store_elapse] at hb

theorem Cluster.Windowed.key_of_called {s s' : Cluster ι IpAddr} {i : ι} {b : BucketId IpAddr} {c : Timing}
    (hquota : (cfg.policy b).quota ≤ 2 ^ 53) (hkept : s.Kept cfg b) (h : s.Windowed)
    (hin : s.inWindow cfg (.consume i b c) = true) (hs : s.consume (evalLeaseChecked cfg) i b c = some s') :
    (s'.server.db b.toKey).isSome = true := by
  obtain ⟨res, v, server, hc, rfl⟩ := Cluster.consume_eq_some hs
  rcases Node.consume_server (hkept.free i b) hc with ⟨-, rfl⟩ | ⟨hcheck, rfl⟩
  · obtain ⟨r, -, -, hsome, -⟩ := Cluster.leaseReply_inWindow hquota hkept hin
    exact hsome
  · cases hb : (s.node i).store.buckets.get b with
    | none => exact absurd (Store.check_of_absent hb _) hcheck
    | some bk => exact (h.stored i b bk hb).1

theorem windowed {s : Cluster ι IpAddr} (hs : CalledInWindow cfg s) : s.Windowed := by
  refine ReachWhen.invariant ?_ ?_ hs
  · rintro _ ⟨clock, now, rfl⟩
    refine ⟨?_, ?_⟩
    · intro key e he
      cases he
    · intro i b bk hb
      cases hb
  · intro s a s' hr h hin hnext
    cases a with
    | consume i b c => exact (h.consume (idle hr.reach) hin hnext).1
    | tick i =>
        cases hnext
        rw [Node.tick_of_fresh hin, Cluster.setNode, Function.update_eq_self]
        exact h
    | elapse i ns =>
        cases hnext
        exact h.elapse i ns
    | redisElapse ms =>
        cases hnext
        exact ⟨h.dated.elapse ms, h.stored⟩

theorem called_has_key (hdisplay : Function.Injective (toString : IpAddr → String)) {b : BucketId IpAddr}
    (hquota : (cfg.policy b).quota ≤ 2 ^ 53) {s : Cluster ι IpAddr} (hs : CalledInWindow cfg s) :
    ∀ a ∈ s.answers, a.id = b → (s.server.db b.toKey).isSome = true := by
  refine ReachWhen.invariant
    (I := fun s => ∀ a ∈ s.answers, a.id = b → (s.server.db b.toKey).isSome = true) ?_ ?_ hs
  · rintro _ ⟨clock, now, rfl⟩ a ha
    cases ha
  · intro s a s' hr h hin hnext
    cases a with
    | consume i b' c =>
        have hkey := ((windowed hr).consume (idle hr.reach) hin hnext).2
        intro a ha hid
        obtain ⟨res, v, server, -, rfl⟩ := Cluster.consume_eq_some hnext
        rcases List.mem_append.mp ha with ha | ha
        · exact hkey _ (h a ha hid)
        · obtain rfl := List.mem_singleton.mp ha
          subst hid
          exact (windowed hr).key_of_called hquota (stays_kept hquota (spared hdisplay hr _)) hin hnext
    | tick i | elapse i ns | redisElapse ms =>
        cases hnext
        exact h

end Windowed

namespace Closing

variable [DecidableEq IpAddr] {cfg : Config} {s s' : Closing ι IpAddr} {i : ι}

/-- All tokens on their way back are of the windows that are open. -/
structure Windowed (s : Closing ι IpAddr) : Prop where
  base : s.base.Windowed
  pending : ∀ i chunks p, s.work i = some chunks → p ∈ chunks.flatten →
    (s.base.server.db p.id.toKey).isSome = true ∧ p.window = longLong (double (s.base.server.opened p.id.toKey))

/-- No token of `b` gets lost on the way back. -/
structure Sound [Fintype ι] (cfg : Config) (b : BucketId IpAddr) (s : Closing ι IpAddr) : Prop where
  counted : s.base.server.Counted cfg b
  called : ∀ a ∈ s.base.answers, a.id = b → (s.base.server.db b.toKey).isSome = true
  conserved : s.base.server.stock cfg b + ∑ i, s.owed i b + admitted s.base.answers b = (cfg.policy b).quota

/-- Only the count of one key is another one. -/
structure Recounted (server server' : Server) (key : String) : Prop where
  now : server'.now = server.now
  opened : server'.opened = server.opened
  expiry : ∀ key', (server'.db key').map Entry.expireAt = (server.db key').map Entry.expireAt
  others : ∀ key', key' ≠ key → server'.db key' = server.db key'

section Recounted

variable {server server' : Server} {key key' : String}

theorem Recounted.isSome (h : Recounted server server' key) (hkey : (server.db key').isSome = true) :
    (server'.db key').isSome = true := by
  have hexpiry := congrArg Option.isSome (h.expiry key')
  rwa [Option.isSome_map, Option.isSome_map, hkey] at hexpiry

theorem Recounted.windowed {s : Cluster ι IpAddr} (h : Recounted s.server server' key) (hs : s.Windowed) :
    Cluster.Windowed { s with server := server' } := by
  refine ⟨fun key' e' he' => ?_, fun i b bk hb => ?_⟩
  · have hexpiry := h.expiry key'
    rw [show server'.db key' = some e' from he', Option.map_some] at hexpiry
    obtain ⟨e, he, hexpire⟩ := Option.map_eq_some_iff.mp hexpiry.symm
    simp only [h.opened, h.now, ← hexpire]
    exact hs.dated key' e he
  · obtain ⟨hsome, hwindow⟩ := hs.stored i b bk hb
    exact ⟨h.isSome hsome, by simp only [h.opened, hwindow]⟩

theorem recounted_by_release (server : Server) (key : String) (tokens : Nat) {window : Int} (hwindow : window ≠ -2) :
    Recounted server (giveChecked server key tokens window) key := by
  unfold giveChecked
  rcases server.releaseChecked_effect key tokens hwindow with hs | ⟨e, hf, -, hs⟩
  · rw [hs]
    exact ⟨rfl, rfl, fun _ => rfl, fun _ _ => rfl⟩
  · rw [hs]
    refine ⟨rfl, rfl, fun key' => ?_, fun key' hkey => Db.set_ne _ _ hkey⟩
    by_cases hkey : key' = key
    · subst hkey
      simp [(Db.find_eq_some_iff.mp hf).1]
    · simp [hkey]

/-- Tokens that a key has room for come back to it as long as its window is open. -/
theorem release_of_open {e : Entry} {tokens : Nat} (hdated : server.Dated) (hf : server.find key = some e)
    (hrange : double (server.opened key) < 2 ^ 63) (hlow : 0 ≤ e.value) (hroom : e.value + tokens ≤ 2 ^ 53) :
    (giveChecked server key tokens (longLong (double (server.opened key)))).db key =
      some { e with value := e.value + tokens } := by
  obtain ⟨hw, -⟩ := hdated key e (Db.find_eq_some_iff.mp hf).1
  rw [longLong_of_fits ⟨by omega, by omega⟩]
  have hsame : doubleInt e.pexpiretime = doubleInt (double (server.opened key)) := by
    rw [Entry.pexpiretime_eq hw, doubleInt_double, doubleInt_natCast]
  unfold giveChecked
  rcases server.releaseChecked_cases key tokens (show (double (server.opened key) : Int) ≠ -2 by omega) with
    ⟨e', hf', -, -, -, -, hr⟩ | ⟨e', message, hf', -, hno, -⟩ | ⟨hne, -⟩
  · obtain rfl := Option.some.inj (hf.symm.trans hf')
    rw [hr, double_of_le (show tokens ≤ 2 ^ 53 by omega)]
    exact Db.set_self ..
  · obtain rfl := Option.some.inj (hf.symm.trans hf')
    rw [double_of_le (show tokens ≤ 2 ^ 53 by omega)] at hno
    exact absurd ⟨⟨by omega, by omega⟩, ⟨by omega, by omega⟩, by omega, by omega⟩ hno
  · exact absurd hsame (hne e hf)

end Recounted

theorem Windowed.recounted (h : s.Windowed) {c : Nat} {chunks : List (List (Leftover IpAddr))} {p : Leftover IpAddr}
    {rest : List (Leftover IpAddr)} (hwork : s.work i = some chunks) (hchunk : chunks[c]? = some (p :: rest)) :
    p.window = longLong (double (s.base.server.opened p.id.toKey)) ∧
      Recounted s.base.server (giveChecked s.base.server p.id.toKey p.tokens p.window) p.id.toKey := by
  have hp : p ∈ chunks.flatten := (Chunks.perm_flatten_set hchunk).mem_iff.mpr (List.mem_cons_self ..)
  obtain ⟨hkey, hwindow⟩ := h.pending i chunks p hwork hp
  obtain ⟨e, hdb⟩ := Option.isSome_iff_exists.mp hkey
  have hne := longLong_double_ne_neg_two (h.base.dated _ e hdb).2.1
  exact ⟨hwindow, recounted_by_release _ _ _ (by rwa [hwindow])⟩

/-- What comes back of the tokens of `b` is what was left over. -/
theorem Sound.stock_of_release [Fintype ι] (hdisplay : Function.Injective (toString : IpAddr → String))
    {b : BucketId IpAddr} (hquota : (cfg.policy b).quota ≤ 2 ^ 53) (h : s.Sound cfg b) (hdated : s.base.server.Dated)
    (hrange : double (s.base.server.opened b.toKey) < 2 ^ 63) {p : Leftover IpAddr}
    (hlive : (s.base.server.find p.id.toKey).isSome = true)
    (hwindow : p.window = longLong (double (s.base.server.opened p.id.toKey)))
    (hrecounted : Recounted s.base.server (giveChecked s.base.server p.id.toKey p.tokens p.window) p.id.toKey)
    (howed : p.tokensOf b ≤ s.owed i b) :
    (giveChecked s.base.server p.id.toKey p.tokens p.window).Counted cfg b ∧
      (giveChecked s.base.server p.id.toKey p.tokens p.window).stock cfg b =
        s.base.server.stock cfg b + p.tokensOf b := by
  by_cases hb : p.id = b
  · subst hb
    obtain ⟨e, hf⟩ := Option.isSome_iff_exists.mp hlive
    have hdb := (Db.find_eq_some_iff.mp hf).1
    obtain ⟨hlow, -⟩ := h.counted e hdb
    obtain ⟨n, hn⟩ := Int.eq_ofNat_of_zero_le hlow
    have hold : s.base.server.stock cfg p.id = n := Server.stock_of hdb hn
    have howns : p.tokensOf p.id = p.tokens := if_pos rfl
    have hshare := Finset.single_le_sum (fun j _ => Nat.zero_le (s.owed j p.id)) (Finset.mem_univ i)
    have hconserved := h.conserved
    have hroom : e.value + p.tokens ≤ 2 ^ 53 := by omega
    have hnew := release_of_open hdated hf hrange hlow hroom
    rw [← hwindow] at hnew
    refine ⟨fun e' he' => ?_, ?_⟩
    · obtain rfl := Option.some.inj (hnew.symm.trans he')
      simp only
      omega
    · rw [Server.stock_of hnew (n := n + p.tokens) (by simp only; omega), hold, howns]
  · have hkey : b.toKey ≠ p.id.toKey := (BucketId.toKey_injective hdisplay).ne (Ne.symm hb)
    have hdb := hrecounted.others _ hkey
    refine ⟨fun e he => h.counted e (hdb ▸ he), ?_⟩
    simp only [Server.stock, hdb, Leftover.tokensOf, if_neg hb, Nat.add_zero]

variable [DecidableEq ι]

theorem Windowed.shutdown {order : List (BucketId IpAddr)} (h : s.Windowed) (hs : s.shutdown i order = some s') :
    s'.Windowed := by
  obtain ⟨hwork, -, rfl⟩ := shutdown_eq_some hs
  refine ⟨h.base, fun j chunks p hj hp => ?_⟩
  by_cases hji : j = i
  · subst hji
    obtain rfl : (s.base.node j).shutdown order = chunks := by simpa [setWork] using hj
    rw [Node.flatten_shutdown] at hp
    obtain ⟨b, -, hb⟩ := List.mem_filterMap.mp hp
    obtain ⟨bk, hbk, rfl⟩ := Node.leftover_eq_some hb
    exact h.base.stored j b bk hbk
  · exact h.pending j chunks p (by simpa [setWork, hji] using hj) hp

theorem Sound.shutdown [Fintype ι] {b : BucketId IpAddr} {order : List (BucketId IpAddr)} (h : s.Sound cfg b)
    (hfresh : (s.base.node i).expiredKeys.isEmpty = true) (hs : s.shutdown i order = some s') : s'.Sound cfg b := by
  obtain ⟨hwork, hperm, rfl⟩ := shutdown_eq_some hs
  have howed (j : ι) : (s.setWork i ((s.base.node i).shutdown order)).owed j b = s.owed j b := by
    by_cases hj : j = i
    · subst hj
      rw [owed_setWork_self, Node.flatten_shutdown, Node.tally_replenish _ _
        (hperm.nodup_iff.mpr (s.base.node j).store.buckets.keys_nodup), owed, hwork]
      simp only [hperm.mem_iff, DashMap.mem_keys_iff]
      cases hb : (s.base.node j).store.buckets.get b with
      | none => simp [Cluster.held, hb]
      | some bk => simpa [Cluster.held] using Node.leftover_of_fresh hfresh b
    · exact owed_setWork_ne s hj _ b
  refine ⟨h.counted, h.called, ?_⟩
  simp only [howed]
  exact h.conserved

theorem Windowed.release {c : Nat} (h : s.Windowed) (hs : s.release giveChecked i c = some s') : s'.Windowed := by
  obtain ⟨chunks, p, rest, hwork, hchunk, rfl⟩ := release_eq_some hs
  obtain ⟨-, hrecounted⟩ := h.recounted hwork hchunk
  refine ⟨hrecounted.windowed h.base, fun j chunks' q hj hq => ?_⟩
  have hold : (s.base.server.db q.id.toKey).isSome = true ∧
      q.window = longLong (double (s.base.server.opened q.id.toKey)) := by
    by_cases hji : j = i
    · subst hji
      obtain rfl : chunks.set c rest = chunks' := by simpa [setWork, setServer] using hj
      exact h.pending j chunks q hwork ((Chunks.perm_flatten_set hchunk).mem_iff.mpr (List.mem_cons_of_mem _ hq))
    · exact h.pending j chunks' q (by simpa [setWork, setServer, hji] using hj) hq
  exact ⟨hrecounted.isSome hold.1, by rw [hold.2, setServer, hrecounted.opened]⟩

/-- A release moves the tokens of one leftover from the books of its instance to the key. -/
theorem Sound.release [Fintype ι] (hdisplay : Function.Injective (toString : IpAddr → String)) {b : BucketId IpAddr}
    (hquota : (cfg.policy b).quota ≤ 2 ^ 53) {c : Nat} (hwindowed : s.Windowed)
    (h : double (s.base.server.opened b.toKey) < 2 ^ 63 → s.Sound cfg b)
    (hin : s.inWindow (.release i c) = true) (hs : s.release giveChecked i c = some s')
    (hrange : double (s'.base.server.opened b.toKey) < 2 ^ 63) : s'.Sound cfg b := by
  obtain ⟨chunks, p, rest, hwork, hchunk, rfl⟩ := release_eq_some hs
  obtain ⟨hwindow, hrecounted⟩ := hwindowed.recounted hwork hchunk
  have hrange : double (s.base.server.opened b.toKey) < 2 ^ 63 := by rwa [← hrecounted.opened]
  have h := h hrange
  have hlive : (s.base.server.find p.id.toKey).isSome = true := by simpa [inWindow, hwork, hchunk] using hin
  have hleft : s.owed i b = p.tokensOf b + (s.setWork i (chunks.set c rest)).owed i b := by
    rw [owed_setWork_self, owed, hwork]
    exact Tally.tally_perm _ (Chunks.perm_flatten_set hchunk)
  obtain ⟨hcounted, hstock⟩ := h.stock_of_release hdisplay hquota hwindowed.base.dated hrange hlive hwindow hrecounted
    (i := i) (by omega)
  have hsum := Tally.sum_add_of_eq_off i fun j hj => owed_setWork_ne s hj (chunks.set c rest) b
  have hconserved := h.conserved
  refine ⟨hcounted, fun a ha hid => hrecounted.isSome (h.called a ha hid), ?_⟩
  show (giveChecked s.base.server p.id.toKey p.tokens p.window).stock cfg b +
    ∑ j, (s.setWork i (chunks.set c rest)).owed j b + admitted s.base.answers b = _
  rw [hstock]
  omega

theorem stays_windowed (hs : ReachWhen (closing (CalledInWindow cfg) giveChecked) (fun s a => s.inWindow a = true) s) :
    s.Windowed := by
  refine ReachWhen.invariant ?_ ?_ hs
  · rintro s ⟨hbase, hwork⟩
    refine ⟨windowed hbase, fun i chunks p hi => ?_⟩
    rw [hwork] at hi
    cases hi
  · intro s a s' _ h _ hnext
    cases a with
    | shutdown i order => exact h.shutdown hnext
    | release i c => exact h.release hnext
    | elapse i ns =>
        cases hnext
        exact ⟨h.base.elapse i ns, h.pending⟩
    | redisElapse ms =>
        cases hnext
        exact ⟨⟨h.base.dated.elapse ms, h.base.stored⟩, h.pending⟩

theorem sound [Fintype ι] (hdisplay : Function.Injective (toString : IpAddr → String)) {b : BucketId IpAddr}
    (hquota : (cfg.policy b).quota ≤ 2 ^ 53)
    (hs : ReachWhen (closing (CalledInWindow cfg) giveChecked) (fun s a => s.inWindow a = true) s) :
    double (s.base.server.opened b.toKey) < 2 ^ 63 → s.Sound cfg b := by
  refine ReachWhen.invariant
    (I := fun s => double (s.base.server.opened b.toKey) < 2 ^ 63 → s.Sound cfg b) ?_ ?_ hs
  · rintro s ⟨hbase, hwork⟩ -
    have hspared := spared hdisplay hbase b
    refine ⟨(stays_kept hquota hspared).counted, called_has_key hdisplay hquota hbase, ?_⟩
    have hconserved := (pool_sound hquota hspared).conserved
    simp only [Cluster.left_pool] at hconserved
    simp only [owed, hwork]
    exact hconserved
  · intro s a s' hr h hin hnext hrange
    cases a with
    | shutdown i order =>
        obtain ⟨-, -, rfl⟩ := shutdown_eq_some hnext
        exact (h hrange).shutdown hin hnext
    | release i c => exact Sound.release hdisplay hquota (stays_windowed hr) h hin hnext hrange
    | elapse i ns =>
        cases hnext
        have h := h hrange
        refine ⟨h.counted, h.called, ?_⟩
        have howed (j : ι) : owed { s with
            base := s.base.setNode i { s.base.node i with now := (s.base.node i).now + ns } } j b = s.owed j b := by
          simp only [owed, Cluster.held, Cluster.store_elapse]
        simp only [howed]
        exact h.conserved
    | redisElapse ms =>
        cases hnext
        exact ⟨(h hrange).counted, (h hrange).called, (h hrange).conserved⟩

end Closing

section Results

variable [DecidableEq ι] [DecidableEq IpAddr] {cfg : Config} {s : Closing ι IpAddr}

/-- When all shutdown branches are through, the key of every id that was called has the quota less the admitted
requests, if Lua can count its quota and tell when its window ends, and every key has the expiry its window was
opened with. -/
theorem shutdown_restores_unspent [Fintype ι] (hdisplay : Function.Injective (toString : IpAddr → String))
    (hs : ReachWhen (closing (CalledInWindow cfg) giveChecked) (fun s a => s.inWindow a = true) s) (hdone : s.Done) :
    (∀ a ∈ s.base.answers, (cfg.policy a.id).quota ≤ 2 ^ 53 → double (s.base.server.opened a.id.toKey) < 2 ^ 63 →
      ∃ e, s.base.server.db a.id.toKey = some e ∧
        e.value = ((cfg.policy a.id).quota : Int) - admitted s.base.answers a.id) ∧
    ∀ key e, s.base.server.db key = some e → e.expireAt = some (s.base.server.opened key) := by
  refine ⟨fun a ha hquota hrange => ?_, fun key e he => ((Closing.stays_windowed hs).base.dated key e he).1⟩
  have h := Closing.sound hdisplay hquota hs hrange
  obtain ⟨e, hdb⟩ := Option.isSome_iff_exists.mp (h.called a ha rfl)
  have hnone : ∑ i, s.owed i a.id = 0 := Finset.sum_eq_zero fun i _ => by
    obtain ⟨chunks, hwork, hempty⟩ := hdone i
    rw [Closing.owed, hwork]
    simp only [hempty, Tally.tally_nil]
  have hconserved := h.conserved
  obtain ⟨hlow, -⟩ := h.counted e hdb
  simp only [Server.stock, hdb, Option.map_some, Option.getD_some] at hconserved
  exact ⟨e, hdb, by omega⟩

set_option synthInstance.maxSize 400 in
/-- Three requests for one user on two instances: each leases a batch, and all but the three tokens come back. -/
theorem three_requests_are_missing : ∃ base s,
    (cluster (evalLeaseChecked .default)).exec (Cluster.start (fun _ => 0) 0)
      [.consume (0 : Fin 2) testUser promptCall, .consume 0 testUser promptCall, .consume 1 testUser promptCall] =
        some base ∧
    (closing (CalledInWindow .default) giveChecked).exec { base, work := fun _ => none }
      [.shutdown 0 [testUser], .shutdown 1 [testUser], .release 1 0, .release 0 0] = some s ∧
    ∃ e, s.base.server.db testUser.toKey = some e ∧ e.value = 9997 ∧ e.expireAt = some 60000 := by
  have hcalls : ((cluster (evalLeaseChecked .default)).execWhen (Cluster.inWindow .default)
      (Cluster.start (fun _ => 0) 0) [.consume (0 : Fin 2) testUser promptCall, .consume 0 testUser promptCall,
        .consume 1 testUser promptCall]).isSome = true := by decide +kernel
  obtain ⟨base, hbase⟩ := Option.isSome_iff_exists.mp hcalls
  have hrun : (((cluster (evalLeaseChecked .default)).execWhen (Cluster.inWindow .default)
      (Cluster.start (fun _ => 0) 0) [.consume (0 : Fin 2) testUser promptCall, .consume 0 testUser promptCall,
        .consume 1 testUser promptCall]).bind
      fun base => ((closing (CalledInWindow .default) giveChecked).execWhen Closing.inWindow
        { base, work := fun _ => none }
        [.shutdown 0 [testUser], .shutdown 1 [testUser], .release 1 0, .release 0 0]).map
      fun s => ((s.work 0).map List.flatten, (s.work 1).map List.flatten, s.base.server.opened testUser.toKey,
        s.base.answers.map Answer.id, admitted s.base.answers testUser)) =
      some (some [], some [], 60000, [testUser, testUser, testUser], 3) := by decide +kernel
  rw [hbase, Option.bind_some] at hrun
  obtain ⟨s, hs, hseen⟩ := Option.map_eq_some_iff.mp hrun
  simp only [Prod.mk.injEq] at hseen
  obtain ⟨hfirst, hsecond, hopened, hids, hadmitted⟩ := hseen
  have hreach := ReachWhen.execWhen (S := closing (CalledInWindow .default) giveChecked)
    (.init ⟨ReachWhen.execWhen (.init ⟨_, _, rfl⟩) _ hbase, rfl⟩) _ hs
  have hdone : s.Done := by
    rw [Closing.Done, Fin.forall_fin_two]
    exact ⟨Option.map_eq_some_iff.mp hfirst, Option.map_eq_some_iff.mp hsecond⟩
  obtain ⟨hvalues, hdates⟩ := shutdown_restores_unspent (fun _ _ h => h) hreach hdone
  have hmem : testUser ∈ s.base.answers.map Answer.id := by
    rw [hids]
    exact List.mem_cons_self ..
  obtain ⟨a, ha, hid⟩ := List.mem_map.mp hmem
  obtain ⟨e, he, hvalue⟩ := hvalues a ha (by rw [hid]; decide) (by rw [hid, hopened]; decide +kernel)
  rw [hid] at he hvalue
  rw [hadmitted] at hvalue
  refine ⟨base, s, System.exec_of_execWhen hbase, System.exec_of_execWhen hs, e, he, hvalue, ?_⟩
  rw [hdates _ e he, hopened]

/-- Windows of 292 million years. -/
def Config.endless : Config :=
  { Config.default with
    protectedPolicy := { Config.default.protectedPolicy with resetIn := fromSecs 9223370273294774 } }

set_option synthInstance.maxSize 400 in
private theorem lone_closing (cfg : Config) (now : Nat) (e : Entry)
    (hcalls : ((cluster (evalLeaseChecked cfg)).execWhen (Cluster.inWindow cfg) (Cluster.start (fun _ => 0) now)
      [.consume () testUser promptCall]).isSome = true)
    (hrun : (((cluster (evalLeaseChecked cfg)).execWhen (Cluster.inWindow cfg) (Cluster.start (fun _ => 0) now)
      [.consume () testUser promptCall]).bind
      fun base => ((closing (CalledInWindow cfg) giveChecked).execWhen Closing.inWindow { base, work := fun _ => none }
        [.shutdown () [testUser], .release () 0]).map
      fun s => ((s.work ()).map List.flatten, s.base.answers.map Answer.id, admitted s.base.answers testUser,
        s.base.server.db testUser.toKey)) = some (some [], [testUser], 1, some e)) : ∃ s : Closing Unit String,
    ReachWhen (closing (CalledInWindow cfg) giveChecked) (fun s a => s.inWindow a = true) s ∧ s.Done ∧
      s.base.answers.map Answer.id = [testUser] ∧ admitted s.base.answers testUser = 1 ∧
      s.base.server.db testUser.toKey = some e := by
  obtain ⟨base, hbase⟩ := Option.isSome_iff_exists.mp hcalls
  rw [hbase, Option.bind_some] at hrun
  obtain ⟨s, hs, hseen⟩ := Option.map_eq_some_iff.mp hrun
  simp only [Prod.mk.injEq] at hseen
  obtain ⟨hdone, hids, hadmitted, hkey⟩ := hseen
  have hreach := ReachWhen.execWhen (S := closing (CalledInWindow cfg) giveChecked)
    (.init ⟨ReachWhen.execWhen (.init ⟨_, _, rfl⟩) _ hbase, rfl⟩) _ hs
  exact ⟨s, hreach, fun _ => Option.map_eq_some_iff.mp hdone, hids, hadmitted, hkey⟩

/-- One request for the token more than Lua can count, and what is given back of the rest is one token short. And
when a window ends at a time that Lua rounds to `2 ^ 63`, its name is cut to another one: the 1999 tokens left of a
lease of 2000 do not come back. -/
theorem shutdown_falls_short :
    (∃ s : Closing Unit String,
      ReachWhen (closing (CalledInWindow .wide) giveChecked) (fun s a => s.inWindow a = true) s ∧ s.Done ∧
      s.base.answers.map Answer.id = [testUser] ∧ admitted s.base.answers testUser = 1 ∧
      s.base.server.db testUser.toKey = some ⟨2 ^ 53 - 1, some 60000⟩ ∧
      (2 ^ 53 - 1 : Int) ≠ ((Config.wide.policy testUser).quota : Int) - 1) ∧
    ∃ s : Closing Unit String,
      ReachWhen (closing (CalledInWindow .endless) giveChecked) (fun s a => s.inWindow a = true) s ∧ s.Done ∧
      s.base.answers.map Answer.id = [testUser] ∧ admitted s.base.answers testUser = 1 ∧
      s.base.server.db testUser.toKey = some ⟨8000, some (2 ^ 63 - 100)⟩ ∧
      (8000 : Int) ≠ ((Config.endless.policy testUser).quota : Int) - 1 := by
  constructor
  · obtain ⟨s, hreach, hdone, hids, hadmitted, hkey⟩ := lone_closing .wide 0 ⟨2 ^ 53 - 1, some 60000⟩
      (by decide +kernel) (by decide +kernel)
    exact ⟨s, hreach, hdone, hids, hadmitted, hkey, by decide⟩
  · obtain ⟨s, hreach, hdone, hids, hadmitted, hkey⟩ := lone_closing .endless 1763560001708
      ⟨8000, some (2 ^ 63 - 100)⟩ (by decide +kernel) (by decide +kernel)
    exact ⟨s, hreach, hdone, hids, hadmitted, hkey, by decide⟩

end Results

end ThatLimit
