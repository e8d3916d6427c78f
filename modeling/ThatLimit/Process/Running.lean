import ThatLimit.Window.Scripts
/-!
# What an accepted config can do (`config.rs`, `store.rs`)

`config::get` looks at `lease_size` only. The expiry that the lease script gives a new
key and the period of the cleanup task come from the config as well, and Redis and tokio
have their own demands on them.
-/
namespace ThatLimit

open Transition

/-- The leases are those of the config. -/
def ScriptAction.Own (IpAddr : Type) [ToString IpAddr] (cfg : Config) : ScriptAction → Prop
  | .lease key p => ∃ b : BucketId IpAddr, key = b.toKey ∧ p = cfg.policy b
  | _ => True

/-- The count and both times of the entry have 64 bits, and the time left is one that Lua can reply. -/
def Entry.Fits (now : Nat) (e : Entry) : Prop :=
  FitsI64 e.value ∧ ∃ w : Nat, e.expireAt = some w ∧ w ≤ now + maxPttl

section Lease

variable {IpAddr : Type} [ToString IpAddr] {cfg : Config} {s : Server}

theorem own_fits (hquota : ∀ b : BucketId IpAddr, (cfg.policy b).quota < 2 ^ 53)
    (hs : ReachWhen scripts (fun _ a => a.Own IpAddr cfg) s) {key : String} {e : Entry} (hf : s.find key = some e) :
    e.Fits s.now := by
  refine scripts_entries (P := fun now e => e.Fits now) ?_ ?_ ?_ hs key e (Db.find_eq_some_iff.mp hf).1
  · rintro s key p ⟨b, -, rfl⟩ hpos hrange
    have hsize := (cfg.policy b).leaseSize_le
    have hquota := hquota b
    have hmax := double_le_maxPttl (Nat.lt_of_le_of_lt (Nat.le_add_right ..) hrange)
    refine ⟨?_, _, rfl, by omega⟩
    rw [double_of_le (Nat.le_of_lt hquota), double_of_le (n := (cfg.policy b).leaseSize) (by omega),
      doubleInt_of_le (by omega) (by omega)]
    exact ⟨by simp only; omega, by simp only; omega⟩
  · rintro now e value ⟨-, hexpiry⟩ hfits
    exact ⟨hfits, hexpiry⟩
  · rintro now e ms ⟨hvalue, w, hw, hle⟩
    exact ⟨hvalue, w, hw, by omega⟩

theorem own_reply_decodes (hquota : ∀ b : BucketId IpAddr, (cfg.policy b).quota < 2 ^ 53)
    (hs : ReachWhen scripts (fun _ a => a.Own IpAddr cfg) s) {b : BucketId IpAddr} {reply : LeaseReply} {s' : Server}
    (hl : s.leaseChecked b.toKey (cfg.policy b).leaseSize (cfg.policy b).quota (asSecs (cfg.policy b).resetIn) =
      (.ok reply, s')) : ∃ r, reply.decode = .ok r := by
  have hlive {e : Entry} (hf : s.find b.toKey = some e) : 0 ≤ e.pttl s.now ∧ e.pttl s.now ≤ maxPttl := by
    obtain ⟨-, w, hw, hle⟩ := own_fits hquota hs hf
    exact Entry.pttl_bounds hw (Db.find_eq_some_iff.mp hf).2 hle
  have hsize := (cfg.policy b).leaseSize_le
  have hquota := hquota b
  have hexact : double (cfg.policy b).leaseSize = (cfg.policy b).leaseSize := double_of_le (by omega)
  rcases Server.leaseChecked_cases hl with ⟨-, -, hrange, rfl, -⟩ | ⟨e, hf, -, rfl, -⟩ | ⟨e, hf, hv, -, -, rfl, -⟩
  · have hmax := double_le_maxPttl (Nat.lt_of_le_of_lt (Nat.le_add_right ..) hrange)
    rw [hexact]
    exact ⟨_, LeaseReply.decode_ofLua _ (by omega) (by omega) (by omega) (by omega)⟩
  · exact ⟨_, LeaseReply.decode_ofLua _ (by omega) (by omega) (hlive hf).1 (hlive hf).2⟩
  · rw [hexact]
    exact ⟨_, LeaseReply.decode_ofLua _ (by omega) (by omega) (hlive hf).1 (hlive hf).2⟩

/-- `DECRBY` and the reply are always fine, and all depends on `SETEX`. -/
theorem lease_runs_iff (hquota : ∀ b : BucketId IpAddr, (cfg.policy b).quota < 2 ^ 53)
    (hs : ReachWhen scripts (fun _ a => a.Own IpAddr cfg) s) (b : BucketId IpAddr) :
    (∃ r, (evalLeaseChecked cfg s b .answers).1 = .ok r) ↔
      (s.find b.toKey = none → 0 < double (asSecs (cfg.policy b).resetIn) ∧
        double (asSecs (cfg.policy b).resetIn) * 1000 + s.now < 2 ^ 63) := by
  constructor
  · rintro ⟨r, hr⟩ hf
    obtain ⟨-, reply, hl, -⟩ := Link.eval_ok hr
    rcases Server.leaseChecked_cases hl with ⟨-, hpos, hrange, -⟩ | ⟨e, hf', -⟩ | ⟨e, hf', -⟩
    · exact ⟨hpos, hrange⟩
    · rw [hf] at hf'
      cases hf'
    · rw [hf] at hf'
      cases hf'
  · intro hvalid
    have hsize : (cfg.policy b).leaseSize ≤ 2 ^ 53 :=
      Nat.le_trans (cfg.policy b).leaseSize_le (Nat.le_of_lt (hquota b))
    obtain ⟨reply, s', hl⟩ := s.leaseChecked_answers b.toKey (cfg.policy b).quota hsize hvalid
      fun e hf => (own_fits hquota hs hf).1
    obtain ⟨r, hr⟩ := own_reply_decodes hquota hs hl
    refine ⟨r, ?_⟩
    rw [evalLeaseChecked, hl]
    exact hr

end Lease

/-- `tokio::time::interval`, which panics when there is no period. -/
def tokioInterval (period : Nat) : Except String Nat :=
  if period = 0 then .error "`period` must be non-zero." else .ok period

/-- How the task that `Store::new` spawns begins; `main` has it spawned when cleanup is enabled. -/
def Cleanup.start (cleanup : Cleanup) : Except String (Option Nat) :=
  if cleanup.enabled then (tokioInterval cleanup.interval).map some else .ok none

theorem Cleanup.starts_iff (cleanup : Cleanup) :
    (∃ period, cleanup.start = .ok period) ↔ (cleanup.enabled = true → cleanup.interval ≠ 0) := by
  unfold Cleanup.start tokioInterval
  cases cleanup.enabled with
  | false => simp
  | true =>
      by_cases hzero : cleanup.interval = 0
      · simp [hzero, Except.map]
      · simp [hzero, Except.map]

/-- The program can be run with the config until the Redis clock shows `horizon`: whatever its scripts have left in
Redis, the lease script for an id of either kind brings a reply that can be read, and the cleanup task begins. -/
structure Config.Runs (IpAddr : Type) [ToString IpAddr] (cfg : Config) (horizon : Nat) : Prop where
  leases : ∀ s, ReachWhen scripts (fun _ a => a.Own IpAddr cfg) s → s.now ≤ horizon →
    ∀ b : BucketId IpAddr, ∃ r, (evalLeaseChecked cfg s b .answers).1 = .ok r
  cleanup : ∃ period, cfg.cleanup.start = .ok period

/-- Windows of at least one second, which end before the 64 bits do, with their length as Lua has it. -/
def PolicyJson.Runnable (p : PolicyJson) (horizon : Nat) : Prop :=
  0 < p.resetIn ∧ double p.resetIn * 1000 + horizon < 2 ^ 63

/-- What `config::get` would have to look at. -/
def ConfigJson.Runnable (json : ConfigJson) (horizon : Nat) : Prop :=
  json.protectedPolicy.Runnable horizon ∧ json.publicPolicy.Runnable horizon ∧
    (json.cleanupEnabled = true → json.cleanupInterval ≠ 0)

instance (json : ConfigJson) (horizon : Nat) : Decidable (json.Runnable horizon) :=
  inferInstanceAs (Decidable ((_ ∧ _) ∧ (_ ∧ _) ∧ (_ → _)))

section Results

variable {IpAddr : Type} {cfg : Config} {json : ConfigJson}

/-- The part of the file that the policy of an id comes from. -/
def ConfigJson.policy (json : ConfigJson) : BucketId IpAddr → PolicyJson
  | .publicIp _ => json.publicPolicy
  | .protectedSub _ => json.protectedPolicy

theorem policy_of_get (hget : Config.get json = .ok cfg) (b : BucketId IpAddr) :
    (cfg.policy b).quota = (json.policy b).quota ∧ asSecs (cfg.policy b).resetIn = (json.policy b).resetIn := by
  obtain ⟨-, hprotected, hpublic⟩ := Config.get_eq_ok hget
  have hraw : (cfg.policy b).raw = (json.policy b).unchecked := by
    cases b with
    | publicIp ip => exact hpublic
    | protectedSub sub => exact hprotected
  have hquota : (cfg.policy b).quota = (json.policy b).quota := congrArg UncheckedPolicy.quota hraw
  have hreset : (cfg.policy b).resetIn = fromSecs (json.policy b).resetIn := congrArg UncheckedPolicy.resetIn hraw
  exact ⟨hquota, by rw [hreset, asSecs_fromSecs]⟩

theorem double_pos_iff {n : Nat} : 0 < double n ↔ 0 < n := by
  constructor
  · intro h
    by_contra hzero
    obtain rfl : n = 0 := by omega
    exact absurd h (by decide)
  · intro h
    have hmono := double_mono (show 1 ≤ n from h)
    rwa [show double 1 = 1 by decide] at hmono

variable [ToString IpAddr]

/-- Until the Redis clock shows `horizon`, an id can always be leased for if and only if its windows
are long enough and end in time. -/
theorem leases_iff (hget : Config.get json = .ok cfg) (hquota : ∀ b : BucketId IpAddr, (cfg.policy b).quota < 2 ^ 53)
    (b : BucketId IpAddr) (horizon : Nat) :
    (∀ s, ReachWhen scripts (fun _ a => a.Own IpAddr cfg) s → s.now ≤ horizon →
      ∃ r, (evalLeaseChecked cfg s b .answers).1 = .ok r) ↔ (json.policy b).Runnable horizon := by
  have hreset := (policy_of_get hget b).2
  constructor
  · intro h
    have hstart : ReachWhen scripts (fun _ a => a.Own IpAddr cfg) (Server.start horizon) := .init ⟨_, rfl⟩
    have hrun := (lease_runs_iff hquota hstart b).mp (h _ hstart (Nat.le_refl _)) rfl
    rw [hreset, double_pos_iff] at hrun
    exact hrun
  · rintro ⟨hpos, hrange⟩ s hs hnow
    rw [lease_runs_iff hquota hs b, hreset]
    exact fun _ => ⟨double_pos_iff.mpr hpos, by omega⟩

/-- An accepted config can be run exactly if no window and no enabled cleanup has a duration of zero,
and windows end within 64-bit milliseconds. -/
theorem accepted_config_runs_iff [Nonempty IpAddr] (hget : Config.get json = .ok cfg)
    (hprotected : json.protectedPolicy.quota < 2 ^ 53) (hpublic : json.publicPolicy.quota < 2 ^ 53) (horizon : Nat) :
    cfg.Runs IpAddr horizon ↔ json.Runnable horizon := by
  obtain ⟨ip⟩ := ‹Nonempty IpAddr›
  have hquota (b : BucketId IpAddr) : (cfg.policy b).quota < 2 ^ 53 := by
    rw [(policy_of_get hget b).1]
    cases b with
    | publicIp ip => exact hpublic
    | protectedSub sub => exact hprotected
  have hcleanup : (∃ period, cfg.cleanup.start = .ok period) ↔
      (json.cleanupEnabled = true → json.cleanupInterval ≠ 0) := by
    rw [Cleanup.starts_iff, (Config.get_eq_ok hget).1]
    refine imp_congr_right fun _ => ?_
    simp only [fromSecs]
    omega
  constructor
  · rintro ⟨hleases, hstarts⟩
    refine ⟨?_, ?_, hcleanup.mp hstarts⟩
    · exact (leases_iff hget hquota (.protectedSub "") horizon).mp fun s hs hnow => hleases s hs hnow _
    · exact (leases_iff hget hquota (.publicIp ip) horizon).mp fun s hs hnow => hleases s hs hnow _
  · rintro ⟨hprotectedRuns, hpublicRuns, hinterval⟩
    refine ⟨fun s hs hnow b => ?_, hcleanup.mpr hinterval⟩
    cases b with
    | publicIp ip => exact (leases_iff hget hquota (.publicIp ip) horizon).mpr hpublicRuns s hs hnow
    | protectedSub sub => exact (leases_iff hget hquota (.protectedSub sub) horizon).mpr hprotectedRuns s hs hnow

-- the longest window that fits into the 64 bits is longer still to Lua
example : ¬PolicyJson.Runnable { criteria := .sub, quota := 1, leaseSize := 1, resetIn := 9223372036854775 } 0 := by
  unfold PolicyJson.Runnable
  decide +kernel

/-- The config file of the repository. -/
def staticJson : ConfigJson where
  domains := ["that-limit"]
  cleanupEnabled := true
  cleanupInterval := 60
  protectedPolicy := { criteria := .sub, quota := 10000, leaseSize := 2000, resetIn := 600 }
  publicPolicy := { criteria := .ip, quota := 500, leaseSize := 100, resetIn := 3600 }

/-- It is good for the rest of the century. -/
theorem static_config_runs : ∃ cfg, Config.get staticJson = .ok cfg ∧ cfg.Runs String 4102444800000 := by
  have hget : Config.get staticJson = .ok _ := rfl
  exact ⟨_, hget, (accepted_config_runs_iff hget (by decide) (by decide) _).mpr (by decide +kernel)⟩

/-- The same file with all durations zero. -/
def zeroJson : ConfigJson :=
  { staticJson with
    cleanupInterval := 0
    protectedPolicy := { staticJson.protectedPolicy with resetIn := 0 }
    publicPolicy := { staticJson.publicPolicy with resetIn := 0 } }

theorem lease_of_zero {server : Server} {b : BucketId IpAddr} (hf : server.find b.toKey = none)
    (hzero : asSecs (cfg.policy b).resetIn = 0) : (evalLeaseChecked cfg server b .answers).1 =
      .error (.redis (.response "ERR invalid expire time in 'setex' command")) := by
  have hget : server.db.get server.now b.toKey = none := by
    rw [Db.get, show server.db.find server.now b.toKey = none from hf, Option.map_none]
  simp only [evalLeaseChecked, Server.leaseChecked, leaseScriptChecked, hget, hzero]
  rfl

/-- It is accepted as well, but every lease from a fresh Redis ends with an error, and the cleanup task panics. -/
theorem zero_durations_are_accepted : ∃ cfg, Config.get zeroJson = .ok cfg ∧
    zeroJson.protectedPolicy.quota < 2 ^ 53 ∧ zeroJson.publicPolicy.quota < 2 ^ 53 ∧
    ReachWhen scripts (fun _ a => a.Own String cfg) (Server.start 0) ∧
    (∀ b : BucketId String, (evalLeaseChecked cfg (Server.start 0) b .answers).1 =
      .error (.redis (.response "ERR invalid expire time in 'setex' command"))) ∧
    cfg.cleanup.start = .error "`period` must be non-zero." := by
  have hget : Config.get zeroJson = .ok _ := rfl
  refine ⟨_, hget, by decide, by decide, .init ⟨_, rfl⟩, fun b => ?_, ?_⟩
  · apply lease_of_zero rfl
    rw [(policy_of_get hget b).2]
    cases b <;> rfl
  · simp [Cleanup.start, tokioInterval, zeroJson, staticJson, fromSecs, Except.map]

end Results

end ThatLimit
