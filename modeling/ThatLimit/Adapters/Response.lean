import Mathlib
import ThatLimit.Adapters.Agreement
import ThatLimit.Adapters.Answer
import ThatLimit.Concurrent.Waits
/-!
# What the HTTP adapter answers (`http-adapter`)

The status and the headers are made from what `Store::consume` returns. The number of
tokens left is written out in full, so that a client reads what the store has counted,
and reads the same from Envoy as long as the number fits there.
-/

namespace ThatLimit

open Transition

namespace Http

/-- `http::StatusCode`. -/
inductive StatusCode
  | ok
  | badRequest
  | unauthorized
  | tooManyRequests
  | internalServerError
  deriving DecidableEq

/-- A response without a body. -/
structure Response where
  status : StatusCode
  headers : List (String × String)
  deriving DecidableEq

/-- `Error` of the adapter. -/
inductive ServiceError
  | cfg (message : String)
  | store (e : StoreError IpAddr)
  | request (e : Error)

def rateLimitHeaderName : String := "ratelimit"

def retryAfter : String := "retry-after"

/-- `Error::into_response`; `rejection` is what `TypedHeader` answers when it cannot read its header. -/
def ServiceError.intoResponse (rejection : Response) : ServiceError → Response
  | .cfg _ => { status := .internalServerError, headers := [] }
  | .store (.exhausted _ expiresAt) =>
      { status := .tooManyRequests, headers := [(retryAfter, toString (asSecs expiresAt))] }
  | .store (.cache _) => { status := .internalServerError, headers := [] }
  | .request .unauthorized => { status := .unauthorized, headers := [] }
  | .request .invalidToken => { status := .badRequest, headers := [] }
  | .request .missingHost => { status := .badRequest, headers := [] }
  | .request .malformedHeader => rejection

/-- `store::consume`, where `answer` is what the store answers. -/
def respond (rejection : Response) (cfg : Config) (jwt : Jwt) (req : Request)
    (answer : BucketId IpAddr → Except (StoreError IpAddr) Nat) : Response :=
  match consume cfg jwt req with
  | .error e => (ServiceError.request e).intoResponse rejection
  | .ok none => { status := .ok, headers := [(rateLimitHeaderName, "\"unknown\"")] }
  | .ok (some bucketId) =>
      match answer bucketId with
      | .ok tokensLeft => { status := .ok, headers := [(rateLimitHeaderName, "r=" ++ toString tokensLeft)] }
      | .error e => (ServiceError.store e).intoResponse rejection

/-- The tokens left, as a client reads them. -/
def Response.left? (r : Response) : Option Nat :=
  (r.headers.lookup rateLimitHeaderName).bind fun value =>
    match value.toList with
    | 'r' :: '=' :: digits => (String.ofList digits).toNat?
    | _ => none

/-- The seconds to wait, as a client reads them. -/
def Response.retryAfter? (r : Response) : Option Nat := (r.headers.lookup retryAfter).bind String.toNat?

theorem left?_granted (status : StatusCode) (n : Nat) :
    Response.left? { status, headers := [(rateLimitHeaderName, "r=" ++ toString n)] } = some n := by
  have hvalue : ("r=" ++ toString n).toList = 'r' :: '=' :: (toString n).toList := by
    rw [String.toList_append]
    rfl
  simp only [Response.left?, List.lookup, beq_self_eq_true, Option.bind_some, hvalue, String.ofList_toList]
  exact Nat.toNat?_repr n

section Answers

variable {rejection : Response} {cfg : Config} {jwt : Jwt} {req : Request}
  {answer : BucketId IpAddr → Except (StoreError IpAddr) Nat}

theorem respond_of_error {e : Error} (h : consume cfg jwt req = .error e) :
    respond rejection cfg jwt req answer = (ServiceError.request e).intoResponse rejection := by
  simp only [respond, h]

theorem respond_of_unlisted (h : consume cfg jwt req = .ok none) : respond rejection cfg jwt req answer =
    { status := .ok, headers := [(rateLimitHeaderName, "\"unknown\"")] } := by
  simp only [respond, h]

theorem respond_of_granted {b : BucketId IpAddr} {left : Nat} (h : consume cfg jwt req = .ok (some b))
    (ha : answer b = .ok left) : respond rejection cfg jwt req answer =
      { status := .ok, headers := [(rateLimitHeaderName, "r=" ++ toString left)] } := by
  simp only [respond, h, ha]

theorem respond_of_refused {b : BucketId IpAddr} {e : StoreError IpAddr} (h : consume cfg jwt req = .ok (some b))
    (ha : answer b = .error e) : respond rejection cfg jwt req answer = (ServiceError.store e).intoResponse rejection := by
  simp only [respond, h, ha]

theorem consume_of_outcome {b : BucketId IpAddr} (h : outcome (consume cfg jwt req) = .consume b) : consume cfg jwt req = .ok (some b) := by
  cases hconsume : consume cfg jwt req with
  | error e => cases e <;> simp [hconsume, outcome] at h
  | ok id =>
      cases id with
      | none => simp [hconsume, outcome] at h
      | some b' => simpa [hconsume, outcome] using h

theorem left?_unasked (hrejection : rejection.left? = none) (h : ∀ b, consume cfg jwt req ≠ .ok (some b)) :
    (respond rejection cfg jwt req answer).left? = none := by
  cases hconsume : consume cfg jwt req with
  | error e =>
      rw [respond_of_error hconsume]
      cases e with
      | malformedHeader => exact hrejection
      | unauthorized | invalidToken | missingHost => rfl
  | ok id =>
      cases id with
      | none =>
          rw [respond_of_unlisted hconsume]
          rfl
      | some b => exact absurd hconsume (h b)

end Answers

section Results

variable {ι : Type} [DecidableEq ι] (rejection : Response) (cfg : Config) (jwt : Jwt) (req : Request)
  (p : Sys ι IpAddr × (Nat → Nat))

/-- How the request can have been answered, and how many tokens its call of the store, if there was one, has taken. -/
inductive Answered : Response → Nat → Prop
  | unasked (answer : BucketId IpAddr → Except (StoreError IpAddr) Nat)
      (h : ∀ bId, consume cfg jwt req ≠ .ok (some bId)) : Answered (respond rejection cfg jwt req answer) 0
  | asked {t : Nat} {k : Task ι IpAddr} {res : Except (StoreError IpAddr) Nat}
      (h : consume cfg jwt req = .ok (some k.id)) (hk : p.1.tasks t = some k) (hdone : k.pc = .done res) :
      Answered (respond rejection cfg jwt req fun _ => res) (p.2 t)

variable {rejection cfg jwt req p}

/-- Whatever the config, an error status means that no token was taken, and so does an answer without a number of
tokens; a number that is not zero means that one was. -/
theorem answers_tell_the_cost (hp : Reach (metered cfg) p) (hrejection : rejection.left? = none) {resp : Response}
    {spent : Nat}
    (h : Answered rejection cfg jwt req p resp spent) : spent ≤ 1 ∧ (resp.status ≠ .ok → spent = 0) ∧ (resp.left? = none → spent = 0) ∧
      ∀ left, resp.left? = some left → 0 < left → spent = 1 := by
  cases h with
  | unasked answer h =>
      refine ⟨Nat.zero_le _, fun _ => rfl, fun _ => rfl, fun left hleft => ?_⟩
      rw [left?_unasked hrejection h] at hleft
      cases hleft
  | @asked t k res h hk hdone =>
      obtain ⟨honce, hgranted⟩ := taken_once hp t
      have hfree (e : StoreError IpAddr) (he : res = .error e) : p.2 t = 0 := by
        by_contra hspent
        obtain ⟨k', left, hk', hdone'⟩ := taken_by_done hp hspent
        obtain rfl := Option.some.inj (hk.symm.trans hk')
        rw [hdone, he] at hdone'
        cases hdone'
      cases res with
      | ok left =>
          rw [respond_of_granted h rfl]
          refine ⟨honce, fun hstatus => absurd rfl hstatus, fun hnone => ?_, fun left' hleft hpos => ?_⟩
          · rw [left?_granted] at hnone
            cases hnone
          · obtain rfl := Option.some.inj ((left?_granted _ _).symm.trans hleft)
            exact hgranted k left hk hdone hpos
      | error e =>
          refine ⟨honce, fun _ => hfree e rfl, fun _ => hfree e rfl, fun left hleft => ?_⟩
          rw [respond_of_refused h rfl] at hleft
          cases e <;> cases hleft

def shopConfig : Config := { Config.default with domains := ["shop"] }

def userRequest : Request where
  authorization := some ⟨("Bearer " ++ testToken).toList⟩
  xForwardedHost := some ⟨"shop".toList⟩
  xForwardedFor := none
  xRealIp := none

theorem userRequest_carries : userRequest.Carries (tokenJwt testToken "valera") "shop" (some "valera") none := by
  refine ⟨rfl, (nomatch ·), fun sub hsub => ?_, rfl, rfl⟩
  cases hsub
  exact ⟨_, testToken, Eq.refl (some _), tokenJwt_bearer _ _, tokenJwt_insecureDecode _ _⟩

/-- The answer to the first request of a user tells of 1999 tokens that are left, and one is gone. -/
theorem first_answer_tells_the_cost : ∃ p : Sys Unit IpAddr × (Nat → Nat), Reach (metered shopConfig) p ∧
    ∃ resp, Answered ⟨.badRequest, []⟩ shopConfig (tokenJwt testToken "valera") userRequest p resp (p.2 0) ∧
      resp.left? = some 1999 ∧ p.2 0 = 1 := by
  have hgrantable : (shopConfig.policy (.protectedSub "valera" : BucketId IpAddr)).Grantable := by decide
  obtain ⟨p, hp, hdone, -⟩ := first_call_takes () _ hgrantable
  have hasked : consume shopConfig (tokenJwt testToken "valera") userRequest = .ok (some (.protectedSub "valera")) :=
    consume_of_outcome (outcome_consume hostLabel_shop (by simp) userRequest_carries)
  have hanswered : Answered ⟨.badRequest, []⟩ shopConfig (tokenJwt testToken "valera") userRequest p
      (respond _ _ _ _ fun _ => .ok 1999) (p.2 0) := .asked hasked hdone rfl
  rw [respond_of_granted hasked rfl] at hanswered
  have hleft := left?_granted .ok 1999
  exact ⟨p, hp, _, hanswered, hleft, (answers_tell_the_cost hp rfl hanswered).2.2.2 _ hleft (by decide)⟩

end Results

end Http

end ThatLimit
