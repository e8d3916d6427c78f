import ThatLimit.Core.Bucket
/-!
# Policies (`config.rs`)

A `Policy` can only be built from an `UncheckedPolicy` that passes the check, so
the bounds on `lease_size` are fields of the type. `reset_in` is not checked.
-/
namespace ThatLimit

inductive Criteria
  | sub
  | ip
  deriving DecidableEq, Repr

/-- Raw policy as read from JSON, before validation. -/
structure UncheckedPolicy where
  criteria : Criteria
  quota : Nat
  leaseSize : Nat
  resetIn : Nat
  deriving DecidableEq, Repr

structure Policy where
  criteria : Criteria
  quota : Nat
  leaseSize : Nat
  resetIn : Nat
  leaseSize_pos : 1 ≤ leaseSize
  leaseSize_le : leaseSize ≤ quota
  deriving DecidableEq, Repr

/-- `TryFrom<UncheckedPolicy>`. -/
def Policy.tryFrom (p : UncheckedPolicy) : Except String Policy :=
  if h : p.leaseSize = 0 ∨ p.leaseSize > p.quota then
    .error "lease_size must be in 1..=quota"
  else
    .ok { criteria := p.criteria, quota := p.quota, leaseSize := p.leaseSize, resetIn := p.resetIn
          leaseSize_pos := by omega, leaseSize_le := by omega }

/-- A policy as it stands in the JSON file, with `reset_in` in seconds. -/
structure PolicyJson where
  criteria : Criteria
  quota : Nat
  leaseSize : Nat
  resetIn : Nat
  deriving DecidableEq, Repr

/-- `DurationSeconds<u64>` reads whole seconds. -/
def PolicyJson.unchecked (p : PolicyJson) : UncheckedPolicy :=
  { criteria := p.criteria, quota := p.quota, leaseSize := p.leaseSize, resetIn := fromSecs p.resetIn }

/-- The policies that `config::get` accepts. -/
def Policy.Accepted (p : Policy) : Prop := ∃ json : PolicyJson, Policy.tryFrom json.unchecked = .ok p

/-- Forgets the check. -/
def Policy.raw (p : Policy) : UncheckedPolicy :=
  { criteria := p.criteria, quota := p.quota, leaseSize := p.leaseSize, resetIn := p.resetIn }

/-- The check accepts exactly the policies of the type, unchanged. -/
theorem Policy.tryFrom_eq_ok_iff (u : UncheckedPolicy) (p : Policy) :
    Policy.tryFrom u = .ok p ↔ u = p.raw := by
  obtain ⟨criteria, quota, leaseSize, resetIn⟩ := u
  obtain ⟨criteria', quota', leaseSize', resetIn', hpos, hle⟩ := p
  unfold Policy.tryFrom
  split
  · next h =>
      simp only [reduceCtorEq, raw, UncheckedPolicy.mk.injEq, false_iff]
      rintro ⟨-, rfl, rfl, -⟩
      simp only at h
      omega
  · simp [raw]

theorem Policy.Accepted.resetIn_eq {p : Policy} (h : p.Accepted) : p.resetIn = fromSecs (asSecs p.resetIn) := by
  obtain ⟨json, hjson⟩ := h
  have hraw := (Policy.tryFrom_eq_ok_iff _ _).mp hjson
  have hreset : fromSecs json.resetIn = p.resetIn := congrArg UncheckedPolicy.resetIn hraw
  rw [← hreset, asSecs_fromSecs]

theorem Policy.quota_pos (p : Policy) : 1 ≤ p.quota := Nat.le_trans p.leaseSize_pos p.leaseSize_le

structure Cleanup where
  enabled : Bool
  interval : Nat
  deriving DecidableEq, Repr

structure Config where
  domains : List String
  cleanup : Cleanup
  protectedPolicy : Policy
  publicPolicy : Policy
  deriving DecidableEq, Repr

/-- The JSON file, with `interval` in seconds. -/
structure ConfigJson where
  domains : List String
  cleanupEnabled : Bool
  cleanupInterval : Nat
  protectedPolicy : PolicyJson
  publicPolicy : PolicyJson
  deriving DecidableEq, Repr

/-- `config::get`, once the file is read and its fields have their types. -/
def Config.get (json : ConfigJson) : Except String Config := do
  let protectedPolicy ← Policy.tryFrom json.protectedPolicy.unchecked
  let publicPolicy ← Policy.tryFrom json.publicPolicy.unchecked
  return {
    domains := json.domains
    cleanup := { enabled := json.cleanupEnabled, interval := fromSecs json.cleanupInterval }
    protectedPolicy
    publicPolicy }

theorem Config.get_eq_ok {json : ConfigJson} {cfg : Config} (h : Config.get json = .ok cfg) :
    cfg.cleanup = { enabled := json.cleanupEnabled, interval := fromSecs json.cleanupInterval } ∧
    cfg.protectedPolicy.raw = json.protectedPolicy.unchecked ∧ cfg.publicPolicy.raw = json.publicPolicy.unchecked := by
  unfold Config.get at h
  cases hprotected : Policy.tryFrom json.protectedPolicy.unchecked with
  | error e => simp [hprotected, bind, Except.bind] at h
  | ok protectedPolicy =>
      cases hpublic : Policy.tryFrom json.publicPolicy.unchecked with
      | error e => simp [hprotected, hpublic, bind, Except.bind] at h
      | ok publicPolicy =>
          simp only [hprotected, hpublic, bind, Except.bind, pure, Except.pure, Except.ok.injEq] at h
          subst h
          exact ⟨rfl, ((Policy.tryFrom_eq_ok_iff ..).mp hprotected).symm, ((Policy.tryFrom_eq_ok_iff ..).mp hpublic).symm⟩

variable {IpAddr : Type}

/-- The policy `Store::lease` picks for a bucket. -/
def Config.policy (cfg : Config) : BucketId IpAddr → Policy
  | .publicIp _ => cfg.publicPolicy
  | .protectedSub _ => cfg.protectedPolicy

/-- `Config::default`. -/
def Config.default : Config where
  domains := []
  cleanup := { enabled := false, interval := 0 }
  protectedPolicy :=
    { criteria := .sub, quota := 10000, leaseSize := 2000, resetIn := 60 * 1000000000
      leaseSize_pos := by decide, leaseSize_le := by decide }
  publicPolicy :=
    { criteria := .ip, quota := 500, leaseSize := 100, resetIn := 3600 * 1000000000
      leaseSize_pos := by decide, leaseSize_le := by decide }

/-- The default with the cleanup task running. -/
def Config.cleaning : Config := { Config.default with cleanup := { enabled := true, interval := 30 * 1000000000 } }

/-- The default with one token a minute for every subject. -/
def Config.single : Config :=
  { Config.default with
    protectedPolicy :=
      { criteria := .sub, quota := 1, leaseSize := 1, resetIn := 60 * 1000000000
        leaseSize_pos := by decide, leaseSize_le := by decide } }

def testUser : BucketId String := .protectedSub "valera"

end ThatLimit
