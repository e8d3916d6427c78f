import ThatLimit.Serial.Cluster
/-!
# Instances and Redis on one clock

Every call is made at one instant, and between the calls the same time passes for all.
The clocks of the instances have origins of their own; Redis counts the milliseconds of
the common clock. A bucket then ends with the window it was leased from, and the
time a refusal names can be held against the window that is open.
-/

namespace ThatLimit

open Transition

variable {ι IpAddr : Type}

/-- Whole milliseconds. -/
def asMillis (ns : Nat) : Nat := ns / 1000000

theorem asMillis_add_fromMillis (ns ms : Nat) : asMillis (ns + fromMillis ms) = asMillis ns + ms :=
  Nat.add_mul_div_right ns ms (by decide)

theorem asMillis_mono {ns ns' : Nat} (h : ns ≤ ns') : asMillis ns ≤ asMillis ns' := Nat.div_le_div_right h

/-- A call in which no time passes. -/
def atOnce (link : Link) : Timing := { toStart := 0, wait := 0, link, toReply := 0, toInsert := 0, toTake := 0 }

/-- A cluster with the time in nanoseconds on a clock that all share. -/
structure Timeline (ι IpAddr : Type) where
  base : Cluster ι IpAddr
  time : Nat

inductive Move (ι IpAddr : Type)
  | consume (i : ι) (b : BucketId IpAddr) (link : Link)
  | tick (i : ι)
  | wait (ns : Nat)

namespace Timeline

theorem newBucket_dated [ToString IpAddr] {cfg : Config} {b : BucketId IpAddr} {v : Node IpAddr} {server : Server}
    {link : Link} {r : Leased} {time : Nat}
    (hclock : server.now = asMillis time) (hr : (Node.leaseReply (evalLease cfg) server b (atOnce link)).1 = .ok r) :
    (time + fromMillis r.pttl) + v.now = (v.newBucket (atOnce link) r).expiresAt + time ∧
      (asMillis (time + fromMillis r.pttl) : Int) = r.window := by
  obtain ⟨e, w, -, -, hw, hwindow⟩ := evalLease_window hr
  have hnow : (server.elapse (atOnce link).wait).now = server.now := Nat.add_zero _
  constructor
  · rw [Node.newBucket_expiresAt]
    show _ = v.now + 0 + 0 + 0 + (fromMillis r.pttl - 0) + time
    omega
  · rw [asMillis_add_fromMillis, ← hclock, hwindow, hw, hnow]

variable [DecidableEq IpAddr]

/-- The same time passes everywhere. -/
def wait (s : Timeline ι IpAddr) (ns : Nat) : Timeline ι IpAddr :=
  { base := { s.base with
      node := fun i => { s.base.node i with now := (s.base.node i).now + ns }
      server := s.base.server.elapse (asMillis (s.time + ns) - asMillis s.time) }
    time := s.time + ns }

/-- Redis shows the common time, and every bucket ends at an instant of its window's last millisecond. -/
structure Timely (s : Timeline ι IpAddr) : Prop where
  settled : s.base.Settled
  clock : s.base.server.now = asMillis s.time
  dated : ∀ i b bk, (s.base.node i).store.buckets.get b = some bk →
    ∃ at_, at_ + (s.base.node i).now = bk.expiresAt + s.time ∧ (asMillis at_ : Int) = bk.window

theorem Timely.wait {s : Timeline ι IpAddr} (h : s.Timely) (ns : Nat) : (s.wait ns).Timely := by
  refine ⟨⟨h.settled.free, h.settled.sane⟩, ?_, fun i b bk hb => ?_⟩
  · have hmono : asMillis s.time ≤ asMillis (s.time + ns) := asMillis_mono (Nat.le_add_right ..)
    show s.base.server.now + (asMillis (s.time + ns) - asMillis s.time) = asMillis (s.time + ns)
    rw [h.clock, Nat.add_sub_cancel' hmono]
  · obtain ⟨at_, hat, hwindow⟩ := h.dated i b bk hb
    refine ⟨at_, ?_, hwindow⟩
    show at_ + ((s.base.node i).now + ns) = bk.expiresAt + (s.time + ns)
    omega

variable [DecidableEq ι]

theorem Timely.tick {s : Timeline ι IpAddr} (h : s.Timely) (i : ι) :
    Timely { s with base := s.base.setNode i (s.base.node i).tick } := by
  refine ⟨⟨h.settled.free.setNode (Node.tick_refills _), h.settled.sane⟩, h.clock, ?_⟩
  intro j b bk hb
  by_cases hj : j = i
  · subst hj
    simp only [Cluster.setNode, Function.update_self, Node.get_tick, Option.filter_eq_some_iff] at hb
    simpa [Cluster.setNode] using h.dated j b bk hb.1
  · simp only [Cluster.setNode, Function.update_of_ne hj] at hb ⊢
    exact h.dated j b bk hb

variable [ToString IpAddr]

def next (cfg : Config) (s : Timeline ι IpAddr) : Move ι IpAddr → Option (Timeline ι IpAddr)
  | .consume i b link => (s.base.consume (evalLease cfg) i b (atOnce link)).map fun base => { s with base }
  | .tick i => some { s with base := s.base.setNode i (s.base.node i).tick }
  | .wait ns => some (s.wait ns)

end Timeline

variable [DecidableEq ι] [DecidableEq IpAddr] [ToString IpAddr]

def timeline (cfg : Config) : System (Timeline ι IpAddr) (Move ι IpAddr) where
  init s := ∃ clock time, s = { base := .start clock (asMillis time), time }
  next := Timeline.next cfg

namespace Timeline

variable {cfg : Config} {s s' : Timeline ι IpAddr} {i : ι} {b : BucketId IpAddr}

theorem Timely.consume {link : Link} (h : s.Timely) (hs : (timeline cfg).next s (.consume i b link) = some s') :
    s'.Timely := by
  obtain ⟨base, hbase, rfl⟩ := Option.map_eq_some_iff.mp hs
  obtain ⟨res, v, server, hc, rfl⟩ := Cluster.consume_eq_some hbase
  have hfree := h.settled.free i b
  have hnow : v.now = (s.base.node i).now := Node.consume_now hfree hc rfl rfl rfl rfl
  refine ⟨h.settled.step (a := .consume i b (atOnce link)) hbase, ?_, ?_⟩
  · show server.now = asMillis s.time
    rw [← h.clock]
    rcases (Node.consume_frame hfree hc).2.2 with rfl | rfl
    · rfl
    · exact evalLease_now ..
  · intro j b' bk' hb'
    have hclock : ((s.base.setNode i v).node j).now = (s.base.node j).now := by
      by_cases hj : j = i
      · subst hj
        simpa [Cluster.setNode] using hnow
      · simp [Cluster.setNode, hj]
    show ∃ at_, at_ + ((s.base.setNode i v).node j).now = bk'.expiresAt + s.time ∧ _
    rw [hclock]
    rcases Cluster.consume_buckets h.settled.free hbase hb' with ⟨bk, hb, hexpires, hwindow⟩ |
      ⟨rfl, rfl, r, hr, -, hexpires, hwindow⟩
    · rw [hexpires, hwindow]
      exact h.dated j b' bk hb
    · rw [hexpires, hwindow]
      exact ⟨_, newBucket_dated h.clock hr⟩

theorem timely (hs : Reach (timeline cfg) s) : s.Timely := by
  refine ReachWhen.invariant ?_ ?_ hs
  · rintro _ ⟨clock, time, rfl⟩
    refine ⟨settled (.init ⟨clock, asMillis time, rfl⟩ : Reach (cluster (evalLease cfg)) _), rfl, ?_⟩
    intro i b bk hb
    cases hb
  · intro s a s' _ h _ hnext
    cases a with
    | consume i b link => exact h.consume hnext
    | tick i =>
        cases hnext
        exact h.tick i
    | wait ns =>
        cases hnext
        exact h.wait ns

/-- The time left of a bucket points to its own window while the bucket lasts, and then to the present. -/
theorem hint_of_bucket {at_ now time expiresAt w : Nat} {window : Int} (hat : at_ + now = expiresAt + time)
    (hwindow : (asMillis at_ : Int) = window) (hopen : asMillis time ≤ w) :
    asMillis (time + (expiresAt - now)) = w ↔ window = w ∨ expiresAt ≤ now ∧ asMillis time = w := by
  rcases Nat.lt_or_ge now expiresAt with hlive | hexpired
  · have hend : time + (expiresAt - now) = at_ := by omega
    rw [hend]
    omega
  · have hpast : asMillis at_ ≤ asMillis time := asMillis_mono (by omega)
    rw [Nat.sub_eq_zero_of_le hexpired, Nat.add_zero]
    omega

end Timeline

section Results

variable {cfg : Config} {s : Timeline ι IpAddr} {i : ι} {b : BucketId IpAddr}

/-- The time in a refusal leads to the end of the open window if and only if the instance holds no bucket of another
window. The exception is a bucket that has expired: it says that the time is now, which is right in the last
millisecond. The times of Redis are exact, as they are in Lua up to `2 ^ 53` milliseconds. -/
theorem hint_is_window_end_iff (hs : Reach (timeline cfg) s) {link : Link} {id : BucketId IpAddr} {retry : Nat}
    {v : Node IpAddr} {server : Server} {e : Entry}
    (hc : Node.consume (evalLease cfg) (s.base.node i) s.base.server b (atOnce link) =
      some (.error (.exhausted id retry), v, server))
    (hkey : s.base.server.find b.toKey = some e) :
    ∃ w, e.expireAt = some w ∧ (asMillis (s.time + retry) = w ↔
      ∀ bk, (s.base.node i).store.buckets.get b = some bk →
        bk.window = w ∨ bk.isExpired (s.base.node i).now = true ∧ s.base.server.now = w) := by
  have h := Timeline.timely hs
  obtain ⟨hdb, hlive⟩ := Db.find_eq_some_iff.mp hkey
  obtain ⟨w, hw⟩ := (h.settled.sane _ _ hdb).2
  have hopen : asMillis s.time ≤ w := by
    rw [← h.clock]
    simpa [Entry.live, hw] using hlive
  refine ⟨w, hw, ?_⟩
  have hbucket {bk : Bucket} (hb : (s.base.node i).store.buckets.get b = some bk)
      (hretry : retry = bk.expiresAt - (s.base.node i).now) : asMillis (s.time + retry) = w ↔
        bk.window = w ∨ bk.isExpired (s.base.node i).now = true ∧ s.base.server.now = w := by
    obtain ⟨at_, hat, hwindow⟩ := h.dated i b bk hb
    rw [hretry, Bucket.isExpired_iff, h.clock]
    exact Timeline.hint_of_bucket hat hwindow hopen
  rcases Node.exhausted_retry (h.settled.free i b) hc with ⟨bk, hb, hretry⟩ | ⟨r, hr, hzero, hretry⟩
  · simpa [hb] using hbucket hb hretry
  · cases hb : (s.base.node i).store.buckets.get b with
    | some bk =>
        have hsame : retry = bk.expiresAt - (s.base.node i).now := by
          simp [hretry, Node.retryAfter, hb, Node.settled, atOnce]
        simpa using hbucket hb hsame
    | none =>
        obtain ⟨e', w', hdb', hw', hpttl, -⟩ := evalLease_window hr
        obtain ⟨reply, -, hserver, -⟩ := evalLease_zero hr hzero
        have hdb'' : s.base.server.db b.toKey = some e' := by
          rw [hserver] at hdb'
          exact hdb'
        obtain rfl := Option.some.inj (hdb.symm.trans hdb'')
        obtain rfl := Option.some.inj (hw.symm.trans hw')
        have hleft : retry = fromMillis r.pttl := by
          simp [hretry, Node.retryAfter, hb, leaseTtl, atOnce]
        refine iff_of_true ?_ (by simp)
        rw [hleft, asMillis_add_fromMillis, ← h.clock, hpttl]
        rfl

def testTimeline : Timeline (Fin 2) String := { base := .start (fun _ => 0) 0, time := 0 }

theorem testTimeline_init (cfg : Config) : Reach (timeline cfg) testTimeline := .init ⟨_, 0, rfl⟩

/-- What a call would be answered, with the key it is about and the time. -/
def preview (cfg : Config) (s : Timeline (Fin 2) String) (i : Fin 2) (b : BucketId String) :
    Option (Except (StoreError String) Nat) × Option Entry × Nat :=
  ((Node.consume (evalLease cfg) (s.base.node i) s.base.server b (atOnce .answers)).map Prod.fst,
    s.base.server.find b.toKey, s.time)

/-- Who comes back after a second is told to wait for the rest of the minute. -/
theorem hint_of_same_window : ∃ s v server e, (timeline .single).exec testTimeline
      [.consume 0 testUser .answers, .wait 1000000000] = some s ∧
    Node.consume (evalLease .single) (s.base.node 0) s.base.server testUser (atOnce .answers) =
      some (.error (.exhausted testUser 59000000000), v, server) ∧
    s.base.server.find testUser.toKey = some e ∧ ∃ w, e.expireAt = some w ∧ asMillis (s.time + 59000000000) = w := by
  have hrun : ((timeline .single).exec testTimeline [.consume 0 testUser .answers, .wait 1000000000]).map
      (fun s => (preview .single s 0 testUser, (s.base.node 0).store.buckets.get testUser)) =
      some ((some (.error (.exhausted testUser 59000000000)), some ⟨0, some 60000⟩, 1000000000),
        some ⟨0, 60000000000, 60000, false⟩) := rfl
  obtain ⟨s, hs, hseen⟩ := Option.map_eq_some_iff.mp hrun
  simp only [preview, Prod.mk.injEq] at hseen
  obtain ⟨⟨hres, hkey, -⟩, hb⟩ := hseen
  obtain ⟨⟨res, v, server⟩, hc, rfl⟩ := Option.map_eq_some_iff.mp hres
  obtain ⟨w, hw, hiff⟩ := hint_is_window_end_iff (Reach.exec (testTimeline_init _) _ hs) hc hkey
  refine ⟨s, v, server, _, hs, hc, hkey, w, hw, hiff.mpr fun bk hbk => ?_⟩
  obtain rfl := Option.some.inj (hb.symm.trans hbk)
  cases hw
  exact .inl rfl

/-- One instance holds the used up bucket of a window that is over, the other one has opened and drained the
next. The first says that the time is now, and the window has a minute to go. -/
theorem hint_of_earlier_window : ∃ s v server, (timeline .single).exec testTimeline
      [.consume 1 testUser .answers, .wait 61000000000, .consume 0 testUser .answers] = some s ∧
    Reach (timeline .single) s ∧
    Node.consume (evalLease .single) (s.base.node 1) s.base.server testUser (atOnce .answers) =
      some (.error (.exhausted testUser 0), v, server) ∧
    s.base.server.find testUser.toKey = some ⟨0, some 121000⟩ ∧ ¬ asMillis (s.time + 0) = 121000 := by
  have hrun : ((timeline .single).exec testTimeline
      [.consume 1 testUser .answers, .wait 61000000000, .consume 0 testUser .answers]).map
      (fun s => preview .single s 1 testUser) =
      some (some (.error (.exhausted testUser 0)), some ⟨0, some 121000⟩, 61000000000) := rfl
  obtain ⟨s, hs, hseen⟩ := Option.map_eq_some_iff.mp hrun
  simp only [preview, Prod.mk.injEq] at hseen
  obtain ⟨hres, hkey, htime⟩ := hseen
  obtain ⟨⟨res, v, server⟩, hc, rfl⟩ := Option.map_eq_some_iff.mp hres
  exact ⟨s, v, server, hs, Reach.exec (testTimeline_init _) _ hs, hc, hkey, by rw [htime]; decide⟩

end Results

end ThatLimit
