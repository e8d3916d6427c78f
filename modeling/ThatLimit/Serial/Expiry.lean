import ThatLimit.Serial.Cluster
/-!
# The bucket and the window it was leased from

`cache::lease` counts the time left from before its call, so the round trip is taken off
twice: once on the way to Redis, where nothing was lost yet, and once on the way back.
The instant at which the bucket is built is a third reading of the clock.
-/

namespace ThatLimit

variable {IpAddr : Type} [DecidableEq IpAddr] [ToString IpAddr]

/-- The local instant at which a key with expiry `w` goes: the script ran at `script`, when the Redis clock
showed `redis`, and both clocks have the same rate. -/
def keyExpiry (script redis w : Nat) : Nat := script + fromMillis (w - redis)

namespace Node

variable {cfg : Config} {v : Node IpAddr} {server : Server} {b : BucketId IpAddr} {c : Timing} {r : Leased}

/-- The bucket of a lease is gone with the window if and only if no more time passes between the reply and the
new bucket than passed between the start and the script, and the window is still open by then. -/
theorem bucket_within_window_iff (hr : (leaseReply (evalLease cfg) server b c).1 = .ok r) (hpos : 0 < r.leased)
    {script : Nat} (hstarted : v.now + c.toStart ≤ script) :
    ∃ v' server' bk e w, lease (evalLease cfg) v server b c = (.ok (), v', server') ∧ v'.store.buckets.get b = some bk ∧
      bk.tokens = r.leased ∧ server'.db b.toKey = some e ∧ e.expireAt = some w ∧
      keyExpiry script (server.now + c.wait) w = script + fromMillis r.pttl ∧
      (bk.expiresAt ≤ keyExpiry script (server.now + c.wait) w ↔
        c.toInsert ≤ script - (v.now + c.toStart) ∧ v.settled c ≤ script + fromMillis r.pttl) := by
  obtain ⟨e, w, hdb, hexpire, hw, -⟩ := evalLease_window hr
  have hkey : keyExpiry script (server.now + c.wait) w = script + fromMillis r.pttl := by
    rw [keyExpiry, hw]
    exact congrArg (script + fromMillis ·) (Nat.add_sub_cancel_left ..)
  rcases lease_cases (evalLease cfg) v server b c with ⟨e', he, -⟩ | ⟨r', hr', hzero, -⟩ | ⟨r', hr', -, hl⟩
  · rw [hr] at he
    cases he
  · obtain rfl := Except.ok.inj (hr.symm.trans hr')
    omega
  · obtain rfl := Except.ok.inj (hr.symm.trans hr')
    refine ⟨_, _, v.newBucket c r, e, w, hl, DashMap.get_insert_self .., rfl, hdb, hexpire, hkey, ?_⟩
    rw [hkey, newBucket_expiresAt, settled]
    omega

/-- With all the time spent before the script, the bucket ends early. -/
theorem bucket_within_window : ∃ v' server' bk, lease (evalLease .default) ⟨0, .new⟩ (.start 0) testUser
      { toStart := 0, wait := 0, link := .answers, toReply := 1000000, toInsert := 1000000, toTake := 0 } =
        (.ok (), v', server') ∧ v'.store.buckets.get testUser = some bk ∧
    bk.expiresAt ≤ keyExpiry 1000000 0 60000 := by
  have hr : (leaseReply (evalLease .default) (.start 0) testUser
      { toStart := 0, wait := 0, link := .answers, toReply := 1000000, toInsert := 1000000, toTake := 0 }).1 =
      .ok ⟨2000, 60000, 60000⟩ := rfl
  obtain ⟨v', server', bk, e, w, hl, hb, -, -, -, hkey, hiff⟩ :=
    bucket_within_window_iff (v := ⟨0, .new⟩) hr (by decide) (show 0 + 0 ≤ 1000000 by decide)
  refine ⟨v', server', bk, hl, hb, ?_⟩
  rw [hkey] at hiff
  exact hiff.mpr ⟨by decide, by decide⟩

/-- The script runs and answers at once, and the task is held up for five milliseconds before it builds the bucket:
the bucket outlives its window by as much. -/
theorem bucket_outlives_window : ∃ v' server' bk e, lease (evalLease .default) ⟨0, .new⟩ (.start 0) testUser
      { toStart := 0, wait := 0, link := .answers, toReply := 0, toInsert := 5000000, toTake := 0 } =
        (.ok (), v', server') ∧ v'.store.buckets.get testUser = some bk ∧ 0 < bk.tokens ∧
    server'.db testUser.toKey = some e ∧ e.expireAt = some 60000 ∧
    ¬ bk.expiresAt ≤ keyExpiry 0 0 60000 := by
  refine ⟨_, _, _, _, rfl, rfl, by decide, rfl, rfl, by decide⟩

end Node

end ThatLimit
