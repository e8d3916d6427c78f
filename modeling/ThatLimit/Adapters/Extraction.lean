import ThatLimit.Adapters.Identity
import ThatLimit.Framework.Scan
/-!
# Whom the entries of a rate limit request name (`envoy-adapter`)

The two loops of `extract_identifier` are one scan over the entries of all descriptors:
a user is a verdict, an address is only noted.
-/
namespace ThatLimit

namespace Envoy

def Entry.isUser (e : Entry) : Bool := e.key == "user_id"

def Entry.isAddress (e : Entry) : Bool := e.key == "remote_address"

/-- All other keys are passed over. -/
def Entry.identifies (e : Entry) : Bool := e.isUser || e.isAddress

/-- All entries of all descriptors, in their order. -/
def RateLimitRequest.entries (req : RateLimitRequest) : List Entry := req.descriptors.flatMap Descriptor.entries

/-- What a list of entries says about who asks: the first user, or else the last address, up to its first comma. -/
def identity (es : List Entry) : Except Error (BucketId IpAddr) :=
  match es.find? Entry.isUser, es.findRev? Entry.isAddress with
  | some e, _ => .ok (.protectedSub e.value)
  | none, some e =>
      match IpAddr.parse (firstPiece ',' e.value) with
      | some ip => .ok (.publicIp ip)
      | none => .error .ipMalformed
  | none, none => .error .unauthorized

private theorem findSome?_ite (p : Entry → Bool) {δ : Type} (f : Entry → δ) (es : List Entry) :
    es.findSome? (fun e => if p e = true then some (f e) else none) = (es.find? p).map f := by
  induction es with
  | nil => rfl
  | cons e es ih =>
      rw [List.findSome?_cons, List.find?_cons]
      cases p e with
      | true => rfl
      | false => exact ih

private theorem findSome?_user (es : List Entry) :
    es.findSome? Entry.user = (es.find? Entry.isUser).map fun e => .protectedSub e.value := by
  have huser : Entry.user = fun e => if e.isUser = true then some (.protectedSub e.value) else none := by
    funext e
    simp [Entry.user, Entry.isUser]
  rw [huser, findSome?_ite]

private theorem findSomeRev?_remoteIp (es : List Entry) :
    es.findSomeRev? Entry.remoteIp = (es.findRev? Entry.isAddress).map fun e => firstPiece ',' e.value := by
  have haddress : Entry.remoteIp = fun e => if e.isAddress = true then some (firstPiece ',' e.value) else none := by
    funext e
    simp [Entry.remoteIp, Entry.isAddress]
  rw [List.findSomeRev?_eq_findSome?_reverse, List.findRev?_eq_find?_reverse, haddress, findSome?_ite]

theorem scanDescriptors_eq_find (ds : List Descriptor) :
    scanDescriptors ds none = ((ds.flatMap Descriptor.entries).find? Entry.isUser).elim
      (.inr (((ds.flatMap Descriptor.entries).findRev? Entry.isAddress).map fun e => firstPiece ',' e.value))
      fun e => .inl (.protectedSub e.value) := by
  rw [scanDescriptors_eq, scanEntries_eq_scan, Scan.scan_eq, findSome?_user, findSomeRev?_remoteIp, Option.or_none]
  cases (ds.flatMap Descriptor.entries).find? Entry.isUser with
  | none => rfl
  | some e => rfl

theorem extractIdentifier_eq_identity (req : RateLimitRequest) : extractIdentifier req = identity req.entries := by
  rw [extractIdentifier, scanDescriptors_eq_find, identity, RateLimitRequest.entries]
  cases (req.descriptors.flatMap Descriptor.entries).find? Entry.isUser with
  | some e => rfl
  | none =>
      cases (req.descriptors.flatMap Descriptor.entries).findRev? Entry.isAddress with
      | some e =>
          cases hparse : IpAddr.parse (firstPiece ',' e.value) with
          | some ip => simp only [Option.elim_none, Option.map_some, hparse]
          | none => simp only [Option.elim_none, Option.map_some, hparse]
      | none => rfl

theorem scanEntries_filter (es : List Entry) (remoteIp : Option String) :
    scanEntries (es.filter Entry.identifies) remoteIp = scanEntries es remoteIp := by
  rw [scanEntries_eq_scan, scanEntries_eq_scan]
  apply Scan.scan_filter
  intro e he
  simpa [Entry.identifies, Entry.isUser, Entry.isAddress, Entry.user, Entry.remoteIp] using he

/-- Neither the descriptors nor the entries with other keys matter. -/
theorem extractIdentifier_congr {req req' : RateLimitRequest}
    (h : req'.entries.filter Entry.identifies = req.entries.filter Entry.identifies) :
    extractIdentifier req' = extractIdentifier req := by
  have hscan : scanDescriptors req'.descriptors none = scanDescriptors req.descriptors none :=
    calc scanDescriptors req'.descriptors none
      _ = scanEntries (req'.entries.filter Entry.identifies) none := by
          rw [scanEntries_filter, RateLimitRequest.entries, scanDescriptors_eq]
      _ = scanEntries (req.entries.filter Entry.identifies) none := by rw [h]
      _ = scanDescriptors req.descriptors none := by
          rw [scanEntries_filter, RateLimitRequest.entries, scanDescriptors_eq]
  rw [extractIdentifier, hscan, extractIdentifier]

/-- The id of a request is what its entries say about who asks, and any other request whose `user_id` and
`remote_address` entries are the same, in the same order, gets the same. -/
theorem extractIdentifier_identifies (req : RateLimitRequest) :
    extractIdentifier req = identity req.entries ∧
    ∀ req' : RateLimitRequest, req'.entries.filter Entry.identifies = req.entries.filter Entry.identifies →
      extractIdentifier req' = extractIdentifier req :=
  ⟨extractIdentifier_eq_identity req, fun _ h => extractIdentifier_congr h⟩

/-- A broken address before the user does no harm, and of two addresses the last one counts. -/
example : extractIdentifier ⟨"", [⟨[⟨"remote_address", "1.2.3"⟩]⟩, ⟨[⟨"path", "/"⟩, ⟨"user_id", "valera"⟩]⟩]⟩ =
      .ok (.protectedSub "valera") ∧
    extractIdentifier ⟨"", [⟨[⟨"remote_address", "1.2.3"⟩, ⟨"remote_address", "1.2.3.4, 5.6.7.8"⟩]⟩]⟩ =
      .ok (.publicIp (.v4 0x01020304)) := by decide

end Envoy

end ThatLimit
