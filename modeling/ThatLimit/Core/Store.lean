import ThatLimit.Core.Cache
import ThatLimit.Core.Config
import ThatLimit.Framework.DashMap
/-!
# The store, one step at a time (`store.rs`)

`Store::consume` is cut at the points where it touches shared state: `check`, the
claim in `refills`, the Redis call, the end of `lease`, the removal from
`refills`, and the final look at the bucket. Each piece is a pure function of the
store and of the clock reading it takes; `Serial` and `Concurrent` put them together.
-/
namespace ThatLimit

/-- `CHUNK_SIZE`. -/
def chunkSize : Nat := 2000

/-- The identity of an `Arc<Notify>`. -/
abbrev Notify := Nat

/-- `store::Error`. -/
inductive StoreError (IpAddr : Type)
  | exhausted (id : BucketId IpAddr) (retryAfter : Nat)
  | cache (e : CacheError)
  deriving DecidableEq, Repr

/-- A `Store::consume` call that has returned. -/
structure Answer (ι IpAddr : Type) where
  inst : ι
  id : BucketId IpAddr
  res : Except (StoreError IpAddr) Nat

/-- How many calls for `b` were answered with `Ok`. -/
def admitted {ι IpAddr : Type} [DecidableEq IpAddr] (answers : List (Answer ι IpAddr)) (b : BucketId IpAddr) : Nat :=
  answers.countP fun a => decide (a.id = b) && a.res.isOk

theorem admitted_snoc {ι IpAddr : Type} [DecidableEq IpAddr] (answers : List (Answer ι IpAddr)) (i : ι)
    (b b' : BucketId IpAddr) (res : Except (StoreError IpAddr) Nat) :
    admitted (answers ++ [⟨i, b', res⟩]) b = admitted answers b + if b' = b ∧ res.isOk = true then 1 else 0 := by
  simp [admitted, List.countP_append, List.countP_cons]

theorem Config.policy_congr {IpAddr : Type} [ToString IpAddr] (cfg : Config) {b b' : BucketId IpAddr} (h : b.toKey = b'.toKey) :
    cfg.policy b = cfg.policy b' := by
  cases b with
  | publicIp ip =>
      cases b' with
      | publicIp ip' => rfl
      | protectedSub sub => exact absurd h (BucketId.toKey_ip_ne_sub ip sub)
  | protectedSub sub =>
      cases b' with
      | publicIp ip => exact absurd h.symm (BucketId.toKey_ip_ne_sub ip sub)
      | protectedSub sub' => rfl

structure Store (IpAddr : Type) where
  buckets : DashMap (BucketId IpAddr) Bucket
  refills : DashMap (BucketId IpAddr) Notify

namespace Store

variable {IpAddr : Type} [DecidableEq IpAddr]

def new : Store IpAddr := { buckets := ∅, refills := ∅ }

/-- `Store::check`. The exhausted mark is tested first. -/
def check (s : Store IpAddr) (now : Nat) (b : BucketId IpAddr) : Except (StoreError IpAddr) Bool :=
  match s.buckets.get b with
  | some bk =>
      if bk.isExhausted then .error (.exhausted b (bk.expiresAt - now))
      else if bk.isEmpty then .ok false
      else if bk.isExpired now then .ok false
      else .ok true
  | none => .ok false

/-- The entry inserted by the task that finds none under the id. -/
def claim (s : Store IpAddr) (b : BucketId IpAddr) (n : Notify) : Store IpAddr :=
  { s with refills := s.refills.insert b n }

def unclaim (s : Store IpAddr) (b : BucketId IpAddr) : Store IpAddr :=
  { s with refills := s.refills.remove b }

/-- The end of `Store::lease`, once `cache::lease` has returned. -/
def leased (s : Store IpAddr) (now : Nat) (b : BucketId IpAddr) (leased : Nat) (ttl : Nat)
    (window : Int) : Except (StoreError IpAddr) Unit × Store IpAddr :=
  if leased = 0 then
    match s.buckets.get b with
    | some bk =>
        (.error (.exhausted b (bk.expiresAt - now)),
          { s with buckets := s.buckets.modify b Bucket.setExhausted })
    | none => (.error (.exhausted b ttl), s)
  else
    (.ok (), { s with buckets := s.buckets.insert b (Bucket.new now leased ttl window) })

/-- The end of `Store::consume`; `none` when the bucket has expired and is to be removed. -/
def take (s : Store IpAddr) (now : Nat) (b : BucketId IpAddr) : Option (Nat × Store IpAddr) :=
  match s.buckets.get b with
  | some bk =>
      if bk.isExpired now then none
      else some (bk.consume.1, { s with buckets := s.buckets.modify b fun bk => bk.consume.2 })
  | none => some (0, s)

def removeBucket (s : Store IpAddr) (b : BucketId IpAddr) : Store IpAddr :=
  { s with buckets := s.buckets.remove b }

/-- What the store holds under the id gives no token: nothing, an empty or an expired bucket. -/
def Spent (s : Store IpAddr) (now : Nat) (b : BucketId IpAddr) : Prop :=
  ∀ bk, s.buckets.get b = some bk → bk.tokens = 0 ∨ bk.expiresAt ≤ now

theorem check_of_absent {s : Store IpAddr} {b : BucketId IpAddr} (h : s.buckets.get b = none)
    (now : Nat) : s.check now b = .ok false := by
  simp [check, h]

theorem check_of_exhausted {s : Store IpAddr} {b : BucketId IpAddr} {bk : Bucket}
    (h : s.buckets.get b = some bk) (hx : bk.exhausted = true) (now : Nat) :
    s.check now b = .error (.exhausted b (bk.expiresAt - now)) := by
  simp [check, h, Bucket.isExhausted, hx]

theorem check_of_spent {s : Store IpAddr} {now : Nat} {b : BucketId IpAddr} {bk : Bucket}
    (h : s.buckets.get b = some bk) (hx : bk.exhausted = false)
    (hs : bk.tokens = 0 ∨ bk.expiresAt ≤ now) : s.check now b = .ok false := by
  simp only [check, h, Bucket.isExhausted, hx, Bool.false_eq_true, if_false, Bucket.isEmpty_iff,
    Bucket.isExpired_iff]
  rcases hs with hs | hs <;> simp [hs]

theorem check_of_live {s : Store IpAddr} {now : Nat} {b : BucketId IpAddr} {bk : Bucket}
    (h : s.buckets.get b = some bk) (hx : bk.exhausted = false) (ht : 0 < bk.tokens)
    (hl : now < bk.expiresAt) : s.check now b = .ok true := by
  simp only [check, h, Bucket.isExhausted, hx, Bool.false_eq_true, if_false, Bucket.isEmpty_iff,
    Bucket.isExpired_iff]
  rw [if_neg (by omega), if_neg (by omega)]

theorem check_cases (s : Store IpAddr) (now : Nat) (b : BucketId IpAddr) :
    (s.check now b = .ok false ∧ (∀ bk, s.buckets.get b = some bk → bk.exhausted = false) ∧
      s.Spent now b) ∨
    (∃ bk, s.buckets.get b = some bk ∧ bk.exhausted = false ∧ 0 < bk.tokens ∧ now < bk.expiresAt ∧
      s.check now b = .ok true) ∨
    (∃ bk, s.buckets.get b = some bk ∧ bk.exhausted = true ∧
      s.check now b = .error (.exhausted b (bk.expiresAt - now))) := by
  cases h : s.buckets.get b with
  | none => exact .inl ⟨check_of_absent h now, by simp, by simp [Spent, h]⟩
  | some bk =>
      cases hx : bk.exhausted with
      | true => exact .inr (.inr ⟨bk, rfl, hx, check_of_exhausted h hx now⟩)
      | false =>
          by_cases hs : bk.tokens = 0 ∨ bk.expiresAt ≤ now
          · left
            refine ⟨check_of_spent h hx hs, ?_, ?_⟩
            · rintro _ ⟨⟩
              exact hx
            · rw [Spent, h]
              rintro _ ⟨⟩
              exact hs
          · exact .inr (.inl ⟨bk, rfl, hx, by omega, by omega,
              check_of_live h hx (by omega) (by omega)⟩)

theorem spent_of_check {s : Store IpAddr} {now : Nat} {b : BucketId IpAddr}
    (h : s.check now b = .ok false) : s.Spent now b := by
  rcases check_cases s now b with ⟨-, -, hs⟩ | ⟨bk, -, -, -, -, hc⟩ | ⟨bk, -, -, hc⟩
  · exact hs
  · simp [hc] at h
  · simp [hc] at h

theorem check_of_unmarked {s : Store IpAddr} {now : Nat} {b : BucketId IpAddr}
    (hx : ∀ bk, s.buckets.get b = some bk → bk.exhausted = false) (hspent : s.Spent now b) :
    s.check now b = .ok false := by
  rcases s.check_cases now b with ⟨hcheck, -⟩ | ⟨bk, hb, -, ht, hl, -⟩ | ⟨bk, hb, hmark, -⟩
  · exact hcheck
  · rcases hspent bk hb with hzero | hexp <;> omega
  · rw [hx bk hb] at hmark
    cases hmark

theorem Spent.mono {s : Store IpAddr} {now now' : Nat} {b : BucketId IpAddr} (h : s.Spent now b)
    (hle : now ≤ now') : s.Spent now' b := fun bk hb =>
  (h bk hb).imp_right fun hx => Nat.le_trans hx hle

theorem Spent.remove {s : Store IpAddr} {now : Nat} {b : BucketId IpAddr} (h : s.Spent now b)
    (b' : BucketId IpAddr) : (s.removeBucket b').Spent now b := by
  intro bk hb
  exact h bk (DashMap.get_remove_eq_some.mp hb).2

theorem Spent.modify {s : Store IpAddr} {now : Nat} {b : BucketId IpAddr} (h : s.Spent now b)
    (b' : BucketId IpAddr) {f : Bucket → Bucket}
    (hf : ∀ bk, (f bk).tokens ≤ bk.tokens ∧ (f bk).expiresAt = bk.expiresAt) :
    Store.Spent { s with buckets := s.buckets.modify b' f } now b := by
  intro bk hb
  obtain ⟨bk₀, hb₀, ⟨-, rfl⟩ | ⟨-, rfl⟩⟩ := DashMap.get_modify_eq_some.mp hb
  · obtain ⟨ht, hx⟩ := hf bk₀
    rcases h bk₀ hb₀ with h | h
    · exact .inl (by omega)
    · exact .inr (by omega)
  · exact h bk₀ hb₀

theorem leased_zero_absent {s : Store IpAddr} {b : BucketId IpAddr} (h : s.buckets.get b = none)
    (now : Nat) (ttl : Nat) (window : Int) :
    s.leased now b 0 ttl window = (.error (.exhausted b ttl), s) := by
  simp [leased, h]

theorem leased_zero_present {s : Store IpAddr} {b : BucketId IpAddr} {bk : Bucket}
    (h : s.buckets.get b = some bk) (now : Nat) (ttl : Nat) (window : Int) :
    s.leased now b 0 ttl window = (.error (.exhausted b (bk.expiresAt - now)),
      { s with buckets := s.buckets.modify b Bucket.setExhausted }) := by
  simp [leased, h]

theorem leased_pos {leased : Nat} (h : 0 < leased) (s : Store IpAddr) (now : Nat)
    (b : BucketId IpAddr) (ttl : Nat) (window : Int) :
    s.leased now b leased ttl window =
      (.ok (), { s with buckets := s.buckets.insert b (Bucket.new now leased ttl window) }) := by
  unfold Store.leased
  rw [if_neg (by omega)]

theorem leased_claim (s : Store IpAddr) (now : Nat) (b : BucketId IpAddr) (n : Notify) (leased ttl : Nat)
    (window : Int) : (s.claim b n).leased now b leased ttl window =
      ((s.leased now b leased ttl window).1, (s.leased now b leased ttl window).2.claim b n) := by
  unfold Store.leased claim
  split
  · cases s.buckets.get b <;> rfl
  · rfl

theorem unclaim_claim {s : Store IpAddr} {b : BucketId IpAddr} (h : s.refills.get b = none) (n : Notify) :
    (s.claim b n).unclaim b = s :=
  congrArg (fun refills => { s with refills }) (DashMap.remove_insert _ _ _ h)

@[simp] theorem leased_refills (s : Store IpAddr) (now : Nat) (b : BucketId IpAddr) (leased ttl : Nat)
    (window : Int) : (s.leased now b leased ttl window).2.refills = s.refills := by
  unfold Store.leased
  split
  · cases s.buckets.get b <;> rfl
  · rfl

theorem take_live {s : Store IpAddr} {now : Nat} {b : BucketId IpAddr} {bk : Bucket}
    (h : s.buckets.get b = some bk) (hlive : now < bk.expiresAt) :
    s.take now b = some (bk.tokens - 1,
      { s with buckets := s.buckets.modify b fun bk => bk.consume.2 }) := by
  unfold take
  have hx : bk.isExpired now = false := by simpa using hlive
  simp [h, hx]

end Store

end ThatLimit
