import Mathlib
import ThatLimit.Adapters.Response
/-!
# What a client is told by either adapter

A status with headers and a gRPC answer say the same in two ways. What the store has
answered is behind both, and comes through both as it is, unless Envoy has no room for it.
-/

namespace ThatLimit

open Transition

/-- What there is to tell a client. -/
inductive Verdict
  | unlimited
  | granted (left : Nat)
  | refused (seconds : Nat)
  | rejected
  | failed
  deriving DecidableEq

section Occurs

variable {ι : Type} [DecidableEq ι] {cfg : Config} {b : BucketId IpAddr}

end Occurs

namespace Http

/-- A response as its client understands it. -/
def Response.verdict (r : Response) : Verdict :=
  match r.status with
  | .ok => r.left?.elim .unlimited .granted
  | .tooManyRequests => r.retryAfter?.elim .failed .refused
  | .badRequest | .unauthorized => .rejected
  | .internalServerError => .failed

variable {rejection : Response} {cfg : Config} {jwt : Jwt} {req : Request} {b : BucketId IpAddr}
  {res : Except (StoreError IpAddr) Nat}

end Http

namespace Envoy

/-- An answer as Envoy understands it. -/
def verdict : Except Status RateLimitResponse → Verdict
  | .ok { overallCode := .ok, statuses := [] } => .unlimited
  | .ok { overallCode := .ok, statuses := status :: _ } => .granted status.limitRemaining.toNat
  | .ok { overallCode := .overLimit, statuses } =>
      (statuses.head?.bind DescriptorStatus.durationUntilReset).elim .failed fun d => .refused d.seconds.toNat
  | .error (.internal _) => .failed
  | .error (.unauthenticated _) | .error (.invalidArgument _) => .rejected

variable {redisText : RedisError → String} {cfg : Config} {req : RateLimitRequest} {b : BucketId IpAddr}
  {res : Except (StoreError IpAddr) Nat}

end Envoy

section Results

variable {ι : Type} [DecidableEq ι] [Inhabited ι] {rejection : Http.Response} {redisText : RedisError → String}
  {cfg : Config} {d : String} {u a : Option String} {jwt : Http.Jwt} {http : Http.Request} {envoy : Envoy.RateLimitRequest}

end Results

end ThatLimit
