import ThatLimit.Adapters.Address
import ThatLimit.Core.Config
import ThatLimit.Framework.Scan
/-!
# Who a request counts for (`http-adapter`, `envoy-adapter`)

Both adapters turn a request into the id of a bucket, into an answer that does not touch
the store, or into an error. The HTTP adapter extracts the identity before it looks at
the domain, the Envoy adapter after it.
-/
namespace ThatLimit

/-- `split(sep).next()`. -/
def firstPiece (sep : Char) (s : String) : String := String.ofList (s.toList.takeWhile (· ≠ sep))

/-- `Store::should_handle`. -/
def Config.shouldHandle (cfg : Config) (domain : String) : Bool := cfg.domains.contains domain

/-! ## The HTTP adapter -/

namespace Http

/-- The bytes of a header value, as the characters with the same codes. -/
structure HeaderValue where
  bytes : List Char
  deriving DecidableEq

def isVisibleAscii (c : Char) : Bool := (' ' ≤ c && c ≤ '~') || c == '\t'

/-- `HeaderValue::from_str`. -/
def HeaderValue.fromStr (s : String) : Option HeaderValue :=
  if s.toList.all isVisibleAscii then some ⟨s.toList⟩ else none

/-- `HeaderValue::to_str`. -/
def HeaderValue.toStr (h : HeaderValue) : Option String :=
  if h.bytes.all isVisibleAscii then some (String.ofList h.bytes) else none

inductive Error
  | unauthorized
  | invalidToken
  | missingHost
  /-- The rejection of `TypedHeader`. -/
  | malformedHeader
  deriving DecidableEq, Repr

structure Claims where
  sub : String

/-- The parts of the request that the adapter reads. -/
structure Request where
  authorization : Option HeaderValue
  xForwardedHost : Option HeaderValue
  xForwardedFor : Option HeaderValue
  xRealIp : Option HeaderValue

/-- The libraries that read the `Authorization` header and the token in it. -/
structure Jwt where
  /-- `Authorization<Bearer>`. -/
  bearer : HeaderValue → Option String
  /-- `dangerous::insecure_decode::<Claims>`. -/
  insecureDecode : String → Option Claims

/-- `middleware::find_token_claims`: what it puts into the extensions of the request. -/
def findTokenClaims (jwt : Jwt) (req : Request) : Except Error (Option Claims) :=
  match req.authorization with
  | none => .ok none
  | some h =>
      match jwt.bearer h with
      | none => .error .malformedHeader
      | some token =>
          match jwt.insecureDecode token with
          | some claims => .ok (some claims)
          | none => .error .invalidToken

/-- `Host::from_request_parts`. -/
def host (req : Request) : Except Error String :=
  match (req.xForwardedHost.filter fun h => !h.bytes.isEmpty).bind HeaderValue.toStr with
  | some h => .ok h
  | none => .error .missingHost

/-- `Host::hostname`: an address in brackets or what is before the port. -/
def hostname (host : String) : String :=
  if host.toList.head? = some '[' then String.ofList ((firstPiece ']' host).toList.drop 1) else firstPiece ':' host

/-- `Host::domain`. -/
def domain (host : String) : String := firstPiece '.' (hostname host)

/-- `Identifier::from_request_parts`. -/
def identifier (claims : Option Claims) (req : Request) : Except Error (BucketId IpAddr) :=
  match claims with
  | some claims => .ok (.protectedSub claims.sub)
  | none =>
      match ((req.xForwardedFor.or req.xRealIp).bind HeaderValue.toStr).bind fun s => IpAddr.parse (firstPiece ',' s) with
      | some ip => .ok (.publicIp ip)
      | none => .error .unauthorized

/-- `store::consume` behind its middleware and its extractors: the id that `Store::consume` is called with, if
it is called. -/
def consume (cfg : Config) (jwt : Jwt) (req : Request) : Except Error (Option (BucketId IpAddr)) := do
  let claims ← findTokenClaims jwt req
  let host ← host req
  let bucketId ← identifier claims req
  if cfg.shouldHandle (domain host) then return some bucketId
  return none

end Http

/-! ## The Envoy adapter -/

namespace Envoy

inductive Error
  | unauthorized
  | ipMalformed
  deriving DecidableEq, Repr

structure Entry where
  key : String
  value : String

structure Descriptor where
  entries : List Entry

structure RateLimitRequest where
  domain : String
  descriptors : List Descriptor

/-- The inner loop of `extract_identifier`: it returns an id or goes on with `remote_ip_str`. -/
def scanEntries : List Entry → Option String → BucketId IpAddr ⊕ Option String
  | [], remoteIp => .inr remoteIp
  | e :: es, remoteIp =>
      if e.key = "user_id" then .inl (.protectedSub e.value)
      else if e.key = "remote_address" then scanEntries es (some (firstPiece ',' e.value))
      else scanEntries es remoteIp

/-- The outer loop of `extract_identifier`. -/
def scanDescriptors : List Descriptor → Option String → BucketId IpAddr ⊕ Option String
  | [], remoteIp => .inr remoteIp
  | d :: ds, remoteIp =>
      match scanEntries d.entries remoteIp with
      | .inl id => .inl id
      | .inr remoteIp => scanDescriptors ds remoteIp

def extractIdentifier (req : RateLimitRequest) : Except Error (BucketId IpAddr) :=
  match scanDescriptors req.descriptors none with
  | .inl id => .ok id
  | .inr (some s) =>
      match IpAddr.parse s with
      | some ip => .ok (.publicIp ip)
      | none => .error .ipMalformed
  | .inr none => .error .unauthorized

/-- `should_rate_limit`: the id that `Store::consume` is called with, if it is called. -/
def shouldRateLimit (cfg : Config) (req : RateLimitRequest) : Except Error (Option (BucketId IpAddr)) :=
  if cfg.shouldHandle req.domain then (extractIdentifier req).map some else .ok none

/-- The entry that ends both loops. -/
def Entry.user (e : Entry) : Option (BucketId IpAddr) := if e.key = "user_id" then some (.protectedSub e.value) else none

/-- What a loop goes on with. -/
def Entry.remoteIp (e : Entry) : Option String :=
  if e.key = "remote_address" then some (firstPiece ',' e.value) else none

theorem scanEntries_eq_scan (es : List Entry) (remoteIp : Option String) :
    scanEntries es remoteIp = Scan.scan Entry.user Entry.remoteIp es remoteIp := by
  induction es generalizing remoteIp with
  | nil => rfl
  | cons e es ih =>
      rw [scanEntries, Scan.scan, Entry.user, Entry.remoteIp]
      by_cases huser : e.key = "user_id"
      · rw [if_pos huser, if_pos huser]
      · rw [if_neg huser, if_neg huser]
        by_cases haddress : e.key = "remote_address"
        · rw [if_pos haddress, if_pos haddress]
          exact ih _
        · rw [if_neg haddress, if_neg haddress]
          exact ih _

theorem scanDescriptors_eq (ds : List Descriptor) (remoteIp : Option String) :
    scanDescriptors ds remoteIp = scanEntries (ds.flatMap Descriptor.entries) remoteIp := by
  induction ds generalizing remoteIp with
  | nil => rfl
  | cons d ds ih =>
      rw [List.flatMap_cons, scanEntries_eq_scan, Scan.scan_append, ← scanEntries_eq_scan, scanDescriptors]
      cases scanEntries d.entries remoteIp with
      | inl id => rfl
      | inr remoteIp => exact (ih remoteIp).trans (scanEntries_eq_scan _ _)

end Envoy

end ThatLimit
