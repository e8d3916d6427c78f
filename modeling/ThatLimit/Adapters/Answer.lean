import ThatLimit.Adapters.Identity
import ThatLimit.Concurrent.Meter
/-!
# What a rate limit request is answered with, and what it costs (`envoy-adapter`)

The answer is made from what `Store::consume` returns, when its token is already gone. The
tokens left are 64 bits there and 32 bits in the answer.
-/

namespace ThatLimit

open Transition

/-- `Duration::subsec_nanos`. -/
def subsecNanos (duration : Nat) : Nat := duration % 1000000000

/-- `cast_signed` of an unsigned integer of `w` bits. -/
def castSigned (w n : Nat) : Int := Int.bmod n (2 ^ w)

theorem castSigned_of_lt {w n : Nat} (h : 2 * n < 2 ^ w) : castSigned w n = n :=
  Int.bmod_eq_of_le (by omega) (by omega)

namespace Envoy

/-- `rate_limit_response::Code`. -/
inductive Code
  | ok
  | overLimit
  deriving DecidableEq

/-- `protobuf::Duration`. -/
structure Duration where
  seconds : Int
  nanos : Int
  deriving DecidableEq

structure DescriptorStatus where
  code : Code
  limitRemaining : UInt32
  durationUntilReset : Option Duration
  deriving DecidableEq

structure RateLimitResponse where
  overallCode : Code
  statuses : List DescriptorStatus
  deriving DecidableEq

/-- `Error` of the adapter. -/
inductive ServiceError
  | identity (e : Error)
  | store (e : CacheError)
  | parseInt
  deriving DecidableEq

/-- `tonic::Status`. -/
inductive Status
  | unauthenticated (message : String)
  | invalidArgument (message : String)
  | internal (message : String)
  deriving DecidableEq

/-- `From<Error>`; `redisText` stands for the `Display` of a `RedisError`. -/
def ServiceError.status (redisText : RedisError → String) : ServiceError → Status
  | .identity .unauthorized => .unauthenticated "Unauthenticated"
  | .identity .ipMalformed => .invalidArgument "IP Malformed"
  | .store (.redis e) => .internal ("Redis error occurred: " ++ redisText e)
  | .parseInt => .internal "out of range integral type conversion attempted"

/-- `u32::try_from`. -/
def u32TryFrom (n : Nat) : Except ServiceError UInt32 :=
  if n < 2 ^ 32 then .ok (.ofNat n) else .error .parseInt

def durationUntilReset (retryAfter : Nat) : Duration :=
  { seconds := castSigned 64 (asSecs retryAfter), nanos := castSigned 32 (subsecNanos retryAfter) }

/-- `Service::consume`, once the store has answered. -/
def respond : Except (StoreError IpAddr) Nat → Except ServiceError RateLimitResponse
  | .ok tokensLeft => do
      let limitRemaining ← u32TryFrom tokensLeft
      return { overallCode := .ok, statuses := [{ code := .ok, limitRemaining, durationUntilReset := none }] }
  | .error (.exhausted _ retryAfter) =>
      .ok {
        overallCode := .overLimit
        statuses := [{
          code := .overLimit
          limitRemaining := 0
          durationUntilReset := some (durationUntilReset retryAfter) }] }
  | .error (.cache e) => .error (.store e)

/-- `should_rate_limit`, where `consume` is what the store answers. -/
def rateLimit (redisText : RedisError → String) (cfg : Config) (req : RateLimitRequest)
    (consume : BucketId IpAddr → Except (StoreError IpAddr) Nat) : Except Status RateLimitResponse :=
  match shouldRateLimit cfg req with
  | .error e => .error (ServiceError.status redisText (.identity e))
  | .ok none => .ok { overallCode := .ok, statuses := [] }
  | .ok (some bId) => (respond (consume bId)).mapError (ServiceError.status redisText)

theorem durationUntilReset_exact {retryAfter : Nat} (h : asSecs retryAfter < 2 ^ 63) :
    (durationUntilReset retryAfter).seconds * 1000000000 + (durationUntilReset retryAfter).nanos = retryAfter := by
  have hsecs : castSigned 64 (asSecs retryAfter) = asSecs retryAfter := castSigned_of_lt (by omega)
  have hnanos : castSigned 32 (subsecNanos retryAfter) = subsecNanos retryAfter := by
    apply castSigned_of_lt
    unfold subsecNanos
    omega
  rw [durationUntilReset, hsecs, hnanos]
  simp only [asSecs, subsecNanos]
  omega

section Results

variable {ι : Type} [DecidableEq ι] (redisText : RedisError → String) (cfg : Config) (p : Sys ι IpAddr × (Nat → Nat))
  (req : RateLimitRequest)

/-- How the request can have been answered, and how many tokens its call of the store, if there was one, has taken. -/
inductive Answered : Except Status RateLimitResponse → Nat → Prop
  | unasked (consume : BucketId IpAddr → Except (StoreError IpAddr) Nat)
      (h : ∀ bId, shouldRateLimit cfg req ≠ .ok (some bId)) : Answered (rateLimit redisText cfg req consume) 0
  | asked {t : Nat} {k : Task ι IpAddr} {res : Except (StoreError IpAddr) Nat}
      (h : shouldRateLimit cfg req = .ok (some k.id)) (hk : p.1.tasks t = some k) (hdone : k.pc = .done res) :
      Answered (rateLimit redisText cfg req fun _ => res) (p.2 t)

variable {redisText cfg p req} {b : BucketId IpAddr}

def userRequest : RateLimitRequest := { domain := "shop", descriptors := [⟨[⟨"user_id", "valera"⟩]⟩] }

end Results

end Envoy

end ThatLimit
