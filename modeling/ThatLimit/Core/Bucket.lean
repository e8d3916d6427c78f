import Mathlib.Order.Basic
import Mathlib.Tactic.Common
/-!
# Bucket ids and local buckets (`bucket.rs`)

`Instant` and `Duration` are numbers of nanoseconds of the monotonic clock. The two atomics of
a bucket are plain fields here: each load, store and `try_update` is one step of
the systems built on top.
-/
namespace ThatLimit

/-- `Duration::from_millis`. -/
def fromMillis (ms : Nat) : Nat := ms * 1000000

/-- `Duration::from_secs`. -/
def fromSecs (secs : Nat) : Nat := secs * 1000000000

/-- `Duration::as_secs`. -/
def asSecs (duration : Nat) : Nat := duration / 1000000000

@[simp] theorem asSecs_fromSecs (secs : Nat) : asSecs (fromSecs secs) = secs :=
  Nat.mul_div_cancel secs (by decide)

theorem fromSecs_eq (secs : Nat) : fromSecs secs = fromMillis (secs * 1000) := by
  unfold fromSecs fromMillis
  omega

/-- `bucket::Id`, over any type of addresses. -/
inductive BucketId (IpAddr : Type)
  | publicIp (ip : IpAddr)
  | protectedSub (sub : String)
  deriving DecidableEq, Repr

structure Bucket where
  tokens : Nat
  expiresAt : Nat
  window : Int
  exhausted : Bool
  deriving DecidableEq, Repr

namespace Bucket

def new (now : Nat) (tokens : Nat) (ttl : Nat) (window : Int) : Bucket :=
  { tokens, expiresAt := now + ttl, window, exhausted := false }

def isEmpty (b : Bucket) : Bool := b.tokens == 0

def isExpired (b : Bucket) (now : Nat) : Bool := decide (b.expiresAt ≤ now)

def setExhausted (b : Bucket) : Bucket := { b with exhausted := true }

def isExhausted (b : Bucket) : Bool := b.exhausted

/-- The answer to the request and the bucket afterwards. `checked_sub` leaves an empty
bucket alone, and `map_or(0, ..)` still answers. -/
def consume (b : Bucket) : Nat × Bucket :=
  match b.tokens with
  | 0 => (0, b)
  | t + 1 => (t, { b with tokens := t })

@[simp] theorem isEmpty_iff (b : Bucket) : b.isEmpty = true ↔ b.tokens = 0 := by simp [isEmpty]

@[simp] theorem isEmpty_eq_false_iff (b : Bucket) : b.isEmpty = false ↔ 0 < b.tokens := by
  simp [isEmpty, Nat.pos_iff_ne_zero]

@[simp] theorem isExpired_iff (b : Bucket) (now : Nat) :
    b.isExpired now = true ↔ b.expiresAt ≤ now := by simp [isExpired]

@[simp] theorem isExpired_eq_false_iff (b : Bucket) (now : Nat) :
    b.isExpired now = false ↔ now < b.expiresAt := by simp [isExpired]

@[simp] theorem consume_expiresAt (b : Bucket) : b.consume.2.expiresAt = b.expiresAt := by
  unfold consume; split <;> rfl

@[simp] theorem consume_window (b : Bucket) : b.consume.2.window = b.window := by
  unfold consume; split <;> rfl

@[simp] theorem consume_exhausted (b : Bucket) : b.consume.2.exhausted = b.exhausted := by
  unfold consume; split <;> rfl

@[simp] theorem consume_tokens (b : Bucket) : b.consume.2.tokens = b.tokens - 1 := by
  unfold consume; split <;> simp_all

@[simp] theorem consume_answer (b : Bucket) : b.consume.1 = b.tokens - 1 := by
  unfold consume; split <;> simp_all

theorem consume_snd (b : Bucket) : b.consume.2 = { b with tokens := b.tokens - 1 } := by
  obtain ⟨tokens, expiresAt, window, exhausted⟩ := b
  cases tokens <;> rfl

theorem consume_of_isEmpty {b : Bucket} (h : b.isEmpty = true) : b.consume = (0, b) := by
  rw [isEmpty_iff] at h
  unfold consume
  simp [h]

end Bucket

end ThatLimit
