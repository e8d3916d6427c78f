import ThatLimit.Serial.Counter
/-!
# How often an instance asks for a drained window

A lease of nothing is remembered as a mark on the bucket of the id. Where there is no
bucket to mark, or where it is cleaned up afterwards, the next request goes to Redis
again. The refusals of the current window are counted for each instance.
-/

namespace ThatLimit

open Transition

variable {ι IpAddr : Type}

/-- The script handed out nothing. -/
def LeaseRun.refuses (run : LeaseRun) : Bool :=
  match run.reply with
  | .ok r => r.leased == 0
  | .error _ => false

/-- Redis gets to run the script. -/
def Link.runs : Link → Bool
  | .unreachable _ => false
  | _ => true

namespace Server

/-- Lease scripts that handed out nothing of the key. -/
def refusals (server : Server) (key : String) : Nat :=
  server.log.countP fun run => decide (run.key = key) && run.refuses

/-- The key is live and has no tokens. -/
def drained (server : Server) (key : String) : Bool := (server.find key).any fun e => decide (e.value ≤ 0)

theorem drained_iff {server : Server} {key : String} :
    server.drained key = true ↔ ∃ e, server.find key = some e ∧ e.value ≤ 0 := by
  unfold drained
  cases server.find key <;> simp

/-- A lease is refused if and only if the key is drained, and then no window is opened. -/
theorem lease_refusals (server : Server) (key : String) {leaseSize : Nat} (hsize : 1 ≤ leaseSize) (quota ttl : Nat) :
    (server.lease key leaseSize quota ttl).2.refusals key =
      server.refusals key + (if server.drained key = true then 1 else 0) ∧
    (server.drained key = true → (server.lease key leaseSize quota ttl).2.epoch = server.epoch) := by
  rcases hl : server.lease key leaseSize quota ttl with ⟨e | r, server'⟩
  · have hdrained : server.drained key = false := by
      by_contra hd
      rw [Bool.not_eq_false, drained_iff] at hd
      obtain ⟨e', hf, -⟩ := hd
      have hkey : server.find key = none → 0 < ttl ∧ ttl * 1000 + server.now < 2 ^ 63 := by
        rw [hf]
        exact (nomatch ·)
      obtain ⟨r, s', hanswer⟩ := server.lease_answers key leaseSize quota hkey
      rw [hanswer] at hl
      cases hl
    rw [lease_error hl]
    simp [refusals, LeaseRun.refuses, hdrained]
  · rcases lease_cases hl with ⟨hf, -, rfl, rfl⟩ | ⟨e, hf, hv, rfl, rfl⟩ | ⟨e, hf, hv, rfl, rfl⟩
    · have hsome : ¬leaseSize = 0 := by omega
      simp [refusals, LeaseRun.refuses, drained, hf, hsome]
    · simp [refusals, LeaseRun.refuses, drained, hf, hv]
    · have hsome : ¬min e.value leaseSize = 0 := by omega
      have hleft : ¬e.value ≤ 0 := by omega
      simp [refusals, LeaseRun.refuses, drained, hf, hsome, hleft]

end Server

section EvalLease

variable [ToString IpAddr] {cfg : Config} {server : Server} {b : BucketId IpAddr}

theorem evalLease_refusals (cfg : Config) (server : Server) (b : BucketId IpAddr) (link : Link) :
    (evalLease cfg server b link).2.refusals b.toKey =
      server.refusals b.toKey + (if (link.runs && server.drained b.toKey) = true then 1 else 0) ∧
    (server.drained b.toKey = true → (evalLease cfg server b link).2.epoch = server.epoch) := by
  have hlease := server.lease_refusals b.toKey (cfg.policy b).leaseSize_pos (cfg.policy b).quota
    (asSecs (cfg.policy b).resetIn)
  cases link with
  | answers | replyLost e => exact hlease
  | unreachable e => exact ⟨rfl, fun _ => rfl⟩

theorem evalLease_other {key : String} (cfg : Config) (server : Server) (link : Link) (hkey : b.toKey ≠ key) :
    (evalLease cfg server b link).2.refusals key = server.refusals key ∧
    (evalLease cfg server b link).2.epoch key = server.epoch key := by
  obtain ⟨hother, hlog⟩ := evalLease_frame cfg server b link
  refine ⟨?_, (hother key (Ne.symm hkey)).2⟩
  rcases hlog with hlog | ⟨reply, hlog⟩
  · rw [Server.refusals, hlog]
    rfl
  · rw [Server.refusals, hlog, List.countP_cons_of_neg (by simp [hkey])]
    rfl

theorem evalLease_of_drained (hsane : server.Sane) (hd : server.drained b.toKey = true) :
    ∃ r, (evalLease cfg server b .answers).1 = .ok r ∧ r.leased = 0 := by
  obtain ⟨e, hf, hv⟩ := Server.drained_iff.mp hd
  have hkey : server.find b.toKey = none → 0 < asSecs (cfg.policy b).resetIn ∧
      asSecs (cfg.policy b).resetIn * 1000 + server.now < 2 ^ 63 := by
    rw [hf]
    exact (nomatch ·)
  obtain ⟨reply, server', hl⟩ :=
    server.lease_answers b.toKey (cfg.policy b).leaseSize (cfg.policy b).quota hkey
  have hreply : reply = ⟨0, e.pttl server.now, e.pexpiretime⟩ := by
    rcases Server.lease_cases hl with ⟨hf', -⟩ | ⟨e', hf', -, hr, -⟩ | ⟨e', hf', hv', -⟩
    · rw [hf] at hf'
      cases hf'
    · obtain rfl := Option.some.inj (hf.symm.trans hf')
      exact hr
    · obtain rfl := Option.some.inj (hf.symm.trans hf')
      omega
  refine ⟨⟨0, (e.pttl server.now).toNat, e.pexpiretime⟩, ?_, rfl⟩
  simp only [evalLease, hl, hreply]
  exact LeaseReply.decode_of_nonneg _ (le_refl _) (hsane.pttl_nonneg hf)

end EvalLease

namespace Node

variable [DecidableEq IpAddr] {cfg : Config} {v v' : Node IpAddr} {server server' : Server} {b : BucketId IpAddr}
  {c : Timing}

/-- The bucket of the id is marked exhausted. -/
def Marked (v : Node IpAddr) (b : BucketId IpAddr) : Prop :=
  ∃ bk, v.store.buckets.get b = some bk ∧ bk.exhausted = true

variable [ToString IpAddr]

/-- The call will have a lease script run, and there is nothing to lease. -/
def asksInVain (v : Node IpAddr) (server : Server) (b : BucketId IpAddr) (c : Timing) : Bool :=
  match v.store.check v.now b with
  | .ok false => c.link.runs && (server.elapse c.wait).drained b.toKey
  | _ => false

/-- Every request for the id is refused, and neither the instance nor Redis notices. -/
def AnswersAlone (cfg : Config) (v : Node IpAddr) (server : Server) (b : BucketId IpAddr) : Prop :=
  ∀ c, ∃ retry, consume (evalLease cfg) v server b c = some (.error (.exhausted b retry), v, server)

theorem answersAlone_iff (hfree : v.store.refills.get b = none) : AnswersAlone cfg v server b ↔ v.Marked b := by
  constructor
  · intro halone
    obtain ⟨retry, hc⟩ := halone ⟨0, 0, .unreachable .io, 0, 0, 0⟩
    rcases consume_cases hfree hc with ⟨bk, hb, hx, -⟩ | ⟨bk, -, -, -, -, he, -⟩ |
      ⟨-, -, -, ⟨e, -, he, -⟩ | ⟨r, hr, -⟩ | ⟨r, hr, -⟩⟩
    · exact ⟨bk, hb, hx⟩
    · cases he
    · cases he
    · cases hr
    · cases hr
  · rintro ⟨bk, hb, hx⟩ c
    exact ⟨_, consume_of_marked hb hx⟩

theorem asksInVain_of_marked (h : v.Marked b) : v.asksInVain server b c = false := by
  obtain ⟨bk, hb, hx⟩ := h
  simp only [asksInVain, Store.check_of_exhausted hb hx]

/-- A call has one refused script run if it asks in vain, and otherwise none. -/
theorem consume_refusals {res : Except (StoreError IpAddr) Nat} (hfree : v.store.refills.get b = none)
    (h : consume (evalLease cfg) v server b c = some (res, v', server')) :
    server'.refusals b.toKey = server.refusals b.toKey + (if v.asksInVain server b c = true then 1 else 0) ∧
    (v.asksInVain server b c = true → server'.epoch = server.epoch) := by
  rcases consume_server hfree h with ⟨hcheck, rfl⟩ | ⟨hcheck, rfl⟩
  · obtain ⟨hrefusals, hepoch⟩ := evalLease_refusals cfg (server.elapse c.wait) b c.link
    simp only [asksInVain, hcheck, Bool.and_eq_true] at hrefusals ⊢
    exact ⟨hrefusals, fun hvain => hepoch hvain.2⟩
  · have hquiet : v.asksInVain server' b c = false := by
      unfold asksInVain
      split
      · next hfalse => exact absurd hfalse hcheck
      · rfl
    simp [hquiet]

/-- After a refused script the bucket is marked if the reply came back and there was a bucket. -/
theorem consume_in_vain {res : Except (StoreError IpAddr) Nat} (hfree : v.store.refills.get b = none)
    (hsane : server.Sane) (hvain : v.asksInVain server b c = true)
    (h : consume (evalLease cfg) v server b c = some (res, v', server')) :
    v'.Marked b ↔ c.link.isAnswers = true ∧ (v.store.buckets.get b).isSome = true := by
  have hdrained : c.link.runs = true ∧ (server.elapse c.wait).drained b.toKey = true := by
    unfold asksInVain at hvain
    split at hvain
    · rwa [Bool.and_eq_true] at hvain
    · cases hvain
  have hanswer (hlink : c.link = .answers) : ∃ r, (leaseReply (evalLease cfg) server b c).1 = .ok r ∧ r.leased = 0 := by
    rw [leaseReply, hlink]
    exact evalLease_of_drained (show (server.elapse c.wait).Sane from hsane) hdrained.2
  rcases consume_cases hfree h with ⟨bk, hb, hx, -⟩ | ⟨bk, hb, hx, ht, hl, -⟩ |
    ⟨hx, -, -, ⟨e, hr, -, rfl⟩ | ⟨r, hr, -, -, rfl⟩ | ⟨r, hr, hpos, -⟩⟩
  · rw [asksInVain_of_marked ⟨bk, hb, hx⟩] at hvain
    cases hvain
  · simp only [asksInVain, Store.check_of_live hb hx ht hl] at hvain
    cases hvain
  · -- the reply was lost
    constructor
    · rintro ⟨bk, hb, hmark⟩
      rw [hx bk hb] at hmark
      cases hmark
    · rintro ⟨hlink, -⟩
      obtain ⟨r, hr', -⟩ := hanswer (Link.isAnswers_iff.mp hlink)
      rw [hr] at hr'
      cases hr'
  · have hlink : c.link.isAnswers = true := Link.isAnswers_iff.mpr (evalLease_ok hr).1
    simp only [Marked, DashMap.get_modify_self, hlink, true_and]
    cases hb : v.store.buckets.get b with
    | none => simp
    | some bk => simp [Bucket.setExhausted]
  · obtain ⟨r', hr', hzero⟩ := hanswer (evalLease_ok hr).1
    obtain rfl := Except.ok.inj (hr.symm.trans hr')
    omega

end Node

/-- A cluster, and how many lease scripts of each instance were refused in the current window of one id. -/
structure Asking (ι IpAddr : Type) where
  base : Cluster ι IpAddr
  refused : ι → Nat

namespace Asking

section Count

variable [DecidableEq ι] [ToString IpAddr] {b : BucketId IpAddr} {s : Asking ι IpAddr}

/-- The refusals up to the state `t` after the turn. A new window starts from none. -/
def count (b : BucketId IpAddr) (s : Asking ι IpAddr) (a : Turn ι IpAddr) (t : Cluster ι IpAddr) : ι → Nat :=
  if t.server.epoch b.toKey = s.base.server.epoch b.toKey then
    match a with
    | .consume i _ _ => Function.update s.refused i
        (s.refused i + (t.server.refusals b.toKey - s.base.server.refusals b.toKey))
    | _ => s.refused
  else fun _ => 0

@[simp] theorem count_tick (i : ι) (v : Node IpAddr) : s.count b (.tick i) (s.base.setNode i v) = s.refused :=
  if_pos rfl

@[simp] theorem count_elapse (i : ι) (ns : Nat) (v : Node IpAddr) :
    s.count b (.elapse i ns) (s.base.setNode i v) = s.refused := if_pos rfl

@[simp] theorem count_redisElapse (ms : Nat) :
    s.count b (.redisElapse ms) { s.base with server := s.base.server.elapse ms } = s.refused := if_pos rfl

end Count

variable [DecidableEq ι] [DecidableEq IpAddr] {b : BucketId IpAddr}

/-- Who was refused has a mark. -/
def Noted (b : BucketId IpAddr) (s : Asking ι IpAddr) : Prop :=
  ∀ i, 0 < s.refused i → (s.base.node i).Marked b

private theorem noted_update {node : ι → Node IpAddr} {refused : ι → Nat} {i : ι} {v : Node IpAddr}
    (h : ∀ j, j ≠ i → 0 < refused j → (node j).Marked b) :
    (∀ j, 0 < refused j → (Function.update node i v j).Marked b) ↔ (0 < refused i → v.Marked b) := by
  rw [Function.forall_update_iff node fun j v => 0 < refused j → v.Marked b]
  exact and_iff_left h

variable [ToString IpAddr]

def next (cfg : Config) (b : BucketId IpAddr) (s : Asking ι IpAddr) (a : Turn ι IpAddr) : Option (Asking ι IpAddr) :=
  (s.base.next (evalLease cfg) a).map fun t => { base := t, refused := s.count b a t }

/-- A refused script finds a bucket to mark and its reply comes back, and no tick collects the
bucket of an instance that was refused in this window. -/
def remembers (b : BucketId IpAddr) (s : Asking ι IpAddr) : Turn ι IpAddr → Bool
  | .consume i b' c =>
      !(decide (b' = b) && (s.base.node i).asksInVain s.base.server b c) ||
        c.link.isAnswers && ((s.base.node i).store.buckets.get b).isSome
  | .tick i => decide (s.refused i = 0) ||
      ((s.base.node i).store.buckets.get b).all fun bk => !bk.isExpired (s.base.node i).now
  | _ => true

end Asking

variable [DecidableEq ι] [DecidableEq IpAddr] [ToString IpAddr]

def asking (cfg : Config) (b : BucketId IpAddr) : System (Asking ι IpAddr) (Turn ι IpAddr) where
  init s := ∃ clock now, s = { base := .start clock now, refused := fun _ => 0 }
  next := Asking.next cfg b

namespace Asking

variable {cfg : Config} {b : BucketId IpAddr} {s s' : Asking ι IpAddr} {a : Turn ι IpAddr}

theorem next_eq_some (h : (asking cfg b).next s a = some s') :
    (cluster (evalLease cfg)).next s.base a = some s'.base ∧ s'.refused = s.count b a s'.base := by
  obtain ⟨t, ht, rfl⟩ := Option.map_eq_some_iff.mp h
  exact ⟨ht, rfl⟩

theorem reach_cluster (hs : Reach (asking cfg b) s) : Reach (cluster (evalLease cfg)) s.base := by
  refine ReachWhen.invariant (I := fun s : Asking ι IpAddr => Reach (cluster (evalLease cfg)) s.base) ?_ ?_ hs
  · rintro _ ⟨clock, now, rfl⟩
    exact .init ⟨clock, now, rfl⟩
  · intro s a s' _ h _ hnext
    exact .step h trivial (next_eq_some hnext).1

theorem consume_other_key {i : ι} {b' : BucketId IpAddr} {c : Timing} {t : Cluster ι IpAddr} (hs : s.base.Settled)
    (hkey : b'.toKey ≠ b.toKey) (h : s.base.consume (evalLease cfg) i b' c = some t) :
    s.count b (.consume i b' c) t = s.refused ∧ ∀ j, (s.base.node j).Marked b → (t.node j).Marked b := by
  have hid : b ≠ b' := fun he => hkey (congrArg _ he.symm)
  have hbuckets := Cluster.consume_others hs.free h hid
  obtain ⟨res, v, server, hc, rfl⟩ := Cluster.consume_eq_some h
  obtain ⟨-, -, hserver⟩ := Node.consume_frame (hs.free i b') hc
  have hquiet : server.refusals b.toKey = s.base.server.refusals b.toKey ∧
      server.epoch b.toKey = s.base.server.epoch b.toKey := by
    rcases hserver with rfl | rfl
    · exact ⟨rfl, rfl⟩
    · exact evalLease_other cfg (s.base.server.elapse c.wait) c.link hkey
  constructor
  · rw [count, if_pos hquiet.2]
    simp only [hquiet.1, Nat.sub_self, Nat.add_zero, Function.update_eq_self]
  · rintro j ⟨bk, hb, hx⟩
    exact ⟨bk, (hbuckets j).trans hb, hx⟩

theorem count_consume {i : ι} {c : Timing} {t : Cluster ι IpAddr} (hs : s.base.Settled)
    (h : s.base.consume (evalLease cfg) i b c = some t) :
    ((s.base.node i).asksInVain s.base.server b c = false ∧ s.count b (.consume i b c) t = fun _ => 0) ∨
    s.count b (.consume i b c) t = Function.update s.refused i
      (s.refused i + if (s.base.node i).asksInVain s.base.server b c = true then 1 else 0) := by
  obtain ⟨res, v, server, hc, rfl⟩ := Cluster.consume_eq_some h
  obtain ⟨hrefusals, hepoch⟩ := Node.consume_refusals (hs.free i b) hc
  unfold count
  split
  · right
    rw [hrefusals, Nat.add_sub_cancel_left]
  · next hne =>
      left
      refine ⟨?_, rfl⟩
      by_contra hvain
      exact hne (congrFun (hepoch (by simpa using hvain)) _)

theorem noted_step (hs : s.base.Settled) (h : s.Noted b) (hspares : a.spares b = true)
    (hnext : (asking cfg b).next s a = some s') : s'.Noted b ↔ s.remembers b a = true := by
  obtain ⟨hstep, hcount⟩ := next_eq_some hnext
  have hothers (i : ι) : ∀ j, j ≠ i → 0 < s.refused j → (s.base.node j).Marked b := fun j _ => h j
  unfold Noted
  rw [hcount]
  cases a with
  | consume i b' c =>
      simp only [Turn.spares, Bool.or_eq_true, decide_eq_true_eq] at hspares
      obtain ⟨res, v, server, hc, ht⟩ := Cluster.consume_eq_some hstep
      rcases hspares with rfl | hkey
      · rcases count_consume hs hstep with ⟨hvain, hzero⟩ | hcounted
        · rw [hzero]
          simp [remembers, hvain]
        · rw [hcounted, ht]
          cases hvain : (s.base.node i).asksInVain s.base.server b' c with
          | true =>
              refine (noted_update fun j hj hpos => ?_).trans ?_
              · rw [Function.update_of_ne hj] at hpos
                exact h j hpos
              · rw [Node.consume_in_vain (hs.free i b') hs.sane hvain hc]
                simp [remembers, hvain]
          | false =>
              simp only [remembers, hvain, Bool.false_eq_true, if_false, Nat.add_zero, Function.update_eq_self]
              refine (noted_update (hothers i)).trans (iff_of_true (fun hpos => ?_) (by simp))
              obtain ⟨bk, hb, hx⟩ := h i hpos
              rw [Node.consume_of_marked hb hx] at hc
              cases hc
              exact ⟨bk, hb, hx⟩
      · have hid : b' ≠ b := fun he => hkey (congrArg _ he)
        obtain ⟨hrefused, hmarked⟩ := consume_other_key hs hkey hstep
        rw [hrefused]
        exact iff_of_true (fun j hpos => hmarked j (h j hpos)) (by simp [remembers, hid])
  | tick i =>
      rw [← Option.some.inj hstep, count_tick]
      refine (noted_update (hothers i)).trans ?_
      rcases Nat.eq_zero_or_pos (s.refused i) with hzero | hpos
      · simp [remembers, hzero]
      · obtain ⟨bk, hb, hx⟩ := h i hpos
        have hne : s.refused i ≠ 0 := by omega
        rcases Nat.lt_or_ge (s.base.node i).now bk.expiresAt with hlive | hexpired
        · simp [Node.Marked, Node.get_tick, remembers, hb, hlive, hx]
        · simp [Node.Marked, Node.get_tick, remembers, hb, hne, hpos, Nat.not_lt.mpr hexpired]
  | elapse i ns =>
      rw [← Option.some.inj hstep, count_elapse]
      exact (noted_update (hothers i)).trans (iff_of_true (fun hpos => h i hpos) rfl)
  | redisElapse ms =>
      rw [← Option.some.inj hstep, count_redisElapse]
      exact iff_of_true h rfl

theorem refused_le_one_step (hs : s.base.Settled) (h : s.Noted b) (hle : ∀ i, s.refused i ≤ 1)
    (hspares : a.spares b = true) (hnext : (asking cfg b).next s a = some s') (i : ι) : s'.refused i ≤ 1 := by
  obtain ⟨hstep, hcount⟩ := next_eq_some hnext
  rw [hcount]
  cases a with
  | consume j b' c =>
      simp only [Turn.spares, Bool.or_eq_true, decide_eq_true_eq] at hspares
      rcases hspares with rfl | hkey
      · rcases count_consume hs hstep with ⟨-, hzero⟩ | hcounted
        · rw [hzero]
          exact Nat.zero_le 1
        · rw [hcounted]
          by_cases hj : i = j
          · subst hj
            rw [Function.update_self]
            split
            · next hvain =>
                have hzero : s.refused i = 0 := by
                  by_contra hne
                  rw [Node.asksInVain_of_marked (h i (by omega))] at hvain
                  cases hvain
                omega
            · exact hle i
          · rw [Function.update_of_ne hj]
            exact hle i
      · rw [(consume_other_key hs hkey hstep).1]
        exact hle i
  | tick j =>
      rw [← Option.some.inj hstep, count_tick]
      exact hle i
  | elapse j ns =>
      rw [← Option.some.inj hstep, count_elapse]
      exact hle i
  | redisElapse ms =>
      rw [← Option.some.inj hstep, count_redisElapse]
      exact hle i

end Asking

section Results

variable {cfg : Config} {b : BucketId IpAddr} {s : Asking ι IpAddr}

/-- Inside a window no instance is refused twice by Redis, and one that was refused answers alone from then on, as
long as every turn remembers; a turn that does not leaves an instance that was refused and asks again. -/
theorem asks_drained_window_once
    (hs : ReachWhen (asking cfg b) (fun s a => a.spares b = true ∧ s.remembers b a = true) s) :
    (∀ i, s.refused i ≤ 1 ∧ (0 < s.refused i → Node.AnswersAlone cfg (s.base.node i) s.base.server b)) ∧
    ∀ a s', a.spares b = true → (asking cfg b).next s a = some s' →
      ((∀ i, 0 < s'.refused i → Node.AnswersAlone cfg (s'.base.node i) s'.base.server b) ↔
        s.remembers b a = true) := by
  have hsettled {s : Asking ι IpAddr} (hr : Reach (asking cfg b) s) : s.base.Settled :=
    settled (Asking.reach_cluster hr)
  have h : s.Noted b ∧ ∀ i, s.refused i ≤ 1 := by
    refine ReachWhen.invariant (I := fun s : Asking ι IpAddr => s.Noted b ∧ ∀ i, s.refused i ≤ 1) ?_ ?_ hs
    · rintro _ ⟨clock, now, rfl⟩
      exact ⟨fun _ hpos => absurd hpos (Nat.lt_irrefl 0), fun _ => Nat.zero_le 1⟩
    · rintro s a s' hr ⟨hnoted, hle⟩ ⟨hspares, hremembers⟩ hnext
      exact ⟨(Asking.noted_step (hsettled hr.reach) hnoted hspares hnext).mpr hremembers,
        Asking.refused_le_one_step (hsettled hr.reach) hnoted hle hspares hnext⟩
  have halone {s : Asking ι IpAddr} (hr : Reach (asking cfg b) s) (i : ι) :
      Node.AnswersAlone cfg (s.base.node i) s.base.server b ↔ (s.base.node i).Marked b :=
    Node.answersAlone_iff ((hsettled hr).free i b)
  constructor
  · intro i
    exact ⟨h.2 i, fun hpos => (halone hs.reach i).mpr (h.1 i hpos)⟩
  · intro a s' hspares hnext
    rw [← Asking.noted_step (hsettled hs.reach) h.1 hspares hnext]
    exact forall_congr' fun i => imp_congr_right fun _ => halone (.step hs.reach trivial hnext) i

def testAsking : Asking (Fin 2) String := { base := .start (fun _ => 0) 0, refused := fun _ => 0 }

theorem testAsking_init (cfg : Config) {guard : Asking (Fin 2) String → Turn (Fin 2) String → Prop} :
    ReachWhen (asking cfg testUser) guard testAsking := .init ⟨_, _, rfl⟩

/-- The instance that used the one token is refused once and keeps it in mind. -/
theorem refused_user_is_remembered : ∃ s, (asking .single testUser).exec testAsking
      [.consume 0 testUser promptCall, .consume 0 testUser promptCall] = some s ∧ s.refused 0 = 1 ∧
    Node.AnswersAlone .single (s.base.node 0) s.base.server testUser := by
  have hrun : ((asking .single testUser).execWhen (fun s a => a.spares testUser && s.remembers testUser a) testAsking
      [.consume 0 testUser promptCall, .consume 0 testUser promptCall]).map (fun s => s.refused 0) = some 1 := rfl
  obtain ⟨s, hs, hrefused⟩ := Option.map_eq_some_iff.mp hrun
  have hreach := ReachWhen.execWhen_of (fun _ _ hg => Bool.and_eq_true _ _ ▸ hg) (testAsking_init _) _ hs
  exact ⟨s, System.exec_of_execWhen hs, hrefused,
    ((asks_drained_window_once hreach).1 0).2 (by rw [hrefused]; decide)⟩

/-- The other instance has no bucket to mark: in one window Redis refuses it twice, and would again. -/
theorem refused_user_is_forgotten : ∃ s, (asking .single testUser).exec testAsking
      [.consume 0 testUser promptCall, .consume 1 testUser promptCall, .consume 1 testUser promptCall] = some s ∧
    Reach (asking .single testUser) s ∧ s.base.server.epoch testUser.toKey = 1 ∧
    (s.base.server.find testUser.toKey).isSome = true ∧ s.refused 1 = 2 ∧
    ¬ Node.AnswersAlone .single (s.base.node 1) s.base.server testUser := by
  have hrun : ((asking .single testUser).exec testAsking
      [.consume 0 testUser promptCall, .consume 1 testUser promptCall, .consume 1 testUser promptCall]).map
      (fun s => (s.base.server.epoch testUser.toKey, (s.base.server.find testUser.toKey).isSome, s.refused 1,
        (s.base.node 1).store.buckets.get testUser)) = some (1, true, 2, none) := rfl
  obtain ⟨s, hs, hseen⟩ := Option.map_eq_some_iff.mp hrun
  simp only [Prod.mk.injEq] at hseen
  obtain ⟨hepoch, hlive, hrefused, hb⟩ := hseen
  have hreach := Reach.exec (testAsking_init _) _ hs
  refine ⟨s, hs, hreach, hepoch, hlive, hrefused, fun halone => ?_⟩
  rw [Node.answersAlone_iff ((settled (Asking.reach_cluster hreach)).free 1 testUser)] at halone
  obtain ⟨bk, hmarked, -⟩ := halone
  rw [hb] at hmarked
  cases hmarked

end Results

end ThatLimit
