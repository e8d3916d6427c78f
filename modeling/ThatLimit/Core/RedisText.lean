import Mathlib
import ThatLimit.Core.Redis
import ThatLimit.Framework.Lua
/-!
# Redis as the scripts see it

Redis keeps texts, and so do the commands that a script calls on it: integers are spelled out
in arguments and values, and read back where a command counts. Expired keys may be deleted at any
time, which no script can tell. `TextRedis.ofDb` spells out a `Db`.
-/
namespace ThatLimit

open Lua

structure TextEntry where
  value : String
  expireAt : Option Nat
  deriving DecidableEq, Repr

def TextEntry.live (e : TextEntry) (now : Nat) : Bool :=
  match e.expireAt with
  | some w => decide (now ≤ w)
  | none => true

structure TextRedis where
  db : String → Option TextEntry
  now : Nat

/-- The range of `long long`. -/
def InRange (n : Int) : Prop := -2 ^ 63 ≤ n ∧ n < 2 ^ 63

instance (n : Int) : Decidable (InRange n) := inferInstanceAs (Decidable (_ ∧ _))

/-- `string2ll` takes an integer in its shortest spelling. -/
def string2ll (s : String) : Option Int := s.toInt?.filter fun n => n.repr == s && decide (InRange n)

namespace TextRedis

def notInteger : RedisError := .response "ERR value is not an integer or out of range"

def find (r : TextRedis) (key : String) : Option TextEntry := (r.db key).filter fun e => e.live r.now

def set (r : TextRedis) (key : String) (e : TextEntry) : TextRedis := { r with db := Function.update r.db key (some e) }

def setex (r : TextRedis) (key ttl value : String) : Except RedisError Reply × TextRedis :=
  match string2ll ttl with
  | none => (.error notInteger, r)
  | some ttl =>
      if ttl ≤ 0 ∨ 2 ^ 63 ≤ ttl * 1000 + r.now then
        (.error (.response "ERR invalid expire time in 'setex' command"), r)
      else (.ok (.status "OK"), r.set key { value, expireAt := some (r.now + ttl.toNat * 1000) })

/-- `incrDecrCommand`: an absent key counts as zero and gets no expiry, and a live one keeps its own. -/
def incrDecr (r : TextRedis) (key : String) (n : Int) : Except RedisError Reply × TextRedis :=
  match (r.find key).elim (some 0) fun e => string2ll e.value with
  | none => (.error notInteger, r)
  | some m =>
      if InRange (m + n) then
        (.ok (.int (m + n)), r.set key { value := (m + n).repr, expireAt := (r.find key).bind TextEntry.expireAt })
      else (.error (.response "ERR increment or decrement would overflow"), r)

def incrby (r : TextRedis) (key n : String) : Except RedisError Reply × TextRedis :=
  match string2ll n with
  | none => (.error notInteger, r)
  | some n => r.incrDecr key n

/-- `-2 ^ 63` has no opposite. -/
def decrby (r : TextRedis) (key n : String) : Except RedisError Reply × TextRedis :=
  match string2ll n with
  | none => (.error notInteger, r)
  | some n =>
      if n = -2 ^ 63 then (.error (.response "ERR decrement would overflow"), r) else r.incrDecr key (-n)

def pttl (r : TextRedis) (key : String) : Int :=
  match r.find key with
  | none => -2
  | some e => e.expireAt.elim (-1) fun w => (w : Int) - r.now

def pexpiretime (r : TextRedis) (key : String) : Int :=
  match r.find key with
  | none => -2
  | some e => e.expireAt.elim (-1) fun w => (w : Int)

/-- `redis.call`. -/
def call : List String → TextRedis → Except RedisError Reply × TextRedis
  | ["GET", key], r => (.ok ((r.find key).elim .null fun e => .bulk e.value), r)
  | ["SETEX", key, ttl, value], r => r.setex key ttl value
  | ["INCRBY", key, n], r => r.incrby key n
  | ["DECRBY", key, n], r => r.decrby key n
  | ["PTTL", key], r => (.ok (.int (r.pttl key)), r)
  | ["PEXPIRETIME", key], r => (.ok (.int (r.pexpiretime key)), r)
  | _, r => (.error (.response "ERR unknown command"), r)

/-- The commands the scripts use. -/
def host : Host TextRedis RedisError := { call, fault := .response }

section Commands

variable (r : TextRedis) (key ttl value n : String)

theorem host_get : host.call ["GET", key] r = (.ok ((r.find key).elim .null fun e => .bulk e.value), r) := rfl

theorem host_setex : host.call ["SETEX", key, ttl, value] r = r.setex key ttl value := rfl

theorem host_incrby : host.call ["INCRBY", key, n] r = r.incrby key n := rfl

theorem host_decrby : host.call ["DECRBY", key, n] r = r.decrby key n := rfl

theorem host_pttl : host.call ["PTTL", key] r = (.ok (.int (r.pttl key)), r) := rfl

theorem host_pexpiretime : host.call ["PEXPIRETIME", key] r = (.ok (.int (r.pexpiretime key)), r) := rfl

end Commands

/-- Redis deletes a key that has expired. -/
def purge (r : TextRedis) (key : String) : TextRedis :=
  if r.find key = none then { r with db := Function.update r.db key none } else r

def elapse (r : TextRedis) (ms : Nat) : TextRedis := { r with now := r.now + ms }

/-- The same time and the same live keys. -/
def SameLive (r r' : TextRedis) : Prop := r.now = r'.now ∧ ∀ key, r.find key = r'.find key

theorem find_set (r : TextRedis) (key key' : String) (e : TextEntry) :
    (r.set key e).find key' = if key' = key then (if e.live r.now then some e else none) else r.find key' := by
  by_cases h : key' = key
  · subst h
    have hset : (r.set key' e).db key' = some e := Function.update_self ..
    rw [if_pos rfl, find, hset]
    rfl
  · simp [find, set, h]

variable {r r' : TextRedis}

theorem SameLive.set (h : r.SameLive r') (key : String) (e : TextEntry) : (r.set key e).SameLive (r'.set key e) :=
  ⟨h.1, fun key' => by rw [find_set, find_set, h.1, h.2 key']⟩

theorem SameLive.purge (h : r.SameLive r') (key : String) : (r.purge key).SameLive r' := by
  unfold TextRedis.purge
  split
  · next hdead =>
      refine ⟨h.1, fun key' => ?_⟩
      rw [← h.2 key']
      by_cases hk : key' = key
      · subst hk
        rw [hdead]
        simp [find]
      · simp [find, hk]
  · exact h

theorem find_elapse (r : TextRedis) (ms : Nat) (key : String) :
    (r.elapse ms).find key = (r.find key).filter fun e => e.live (r.now + ms) := by
  rw [find, find, Option.filter_filter]
  apply congrArg (Option.filter · (r.db key))
  funext e
  cases he : e.expireAt with
  | none => simp [TextEntry.live, he]
  | some w =>
      have hnow : (r.elapse ms).now = r.now + ms := rfl
      rw [TextEntry.live, TextEntry.live, TextEntry.live, he, hnow, ← Bool.decide_and, decide_eq_decide]
      omega

theorem SameLive.elapse (h : r.SameLive r') (ms : Nat) : (r.elapse ms).SameLive (r'.elapse ms) :=
  ⟨congrArg (· + ms) h.1, fun key => by rw [find_elapse, find_elapse, h.1, h.2 key]⟩

theorem SameLive.setex (h : r.SameLive r') (key ttl value : String) :
    Agrees SameLive (r.setex key ttl value) (r'.setex key ttl value) := by
  unfold TextRedis.setex
  rw [h.1]
  cases string2ll ttl with
  | none => exact ⟨rfl, h⟩
  | some ttl =>
      simp only
      split
      · exact ⟨rfl, h⟩
      · exact ⟨rfl, h.set ..⟩

theorem SameLive.incrDecr (h : r.SameLive r') (key : String) (n : Int) :
    Agrees SameLive (r.incrDecr key n) (r'.incrDecr key n) := by
  unfold TextRedis.incrDecr
  rw [h.2 key]
  split
  · exact ⟨rfl, h⟩
  · split
    · exact ⟨rfl, h.set ..⟩
    · exact ⟨rfl, h⟩

/-- The commands look at live keys only. -/
theorem host_agree : host.Agree host SameLive where
  call := by
    intro texts r r' h
    change Agrees SameLive (TextRedis.call texts r) (TextRedis.call texts r')
    unfold call
    split
    · exact ⟨by rw [h.2], h⟩
    · exact h.setex ..
    · simp only [incrby]
      split
      · exact ⟨rfl, h⟩
      · exact h.incrDecr ..
    · simp only [decrby]
      split
      · exact ⟨rfl, h⟩
      · split
        · exact ⟨rfl, h⟩
        · exact h.incrDecr ..
    · exact ⟨by rw [pttl, pttl, h.1, h.2], h⟩
    · exact ⟨by rw [pexpiretime, pexpiretime, h.2], h⟩
    · exact ⟨rfl, h⟩
  fault _ := rfl

/-- A `Db` spelled out. -/
def ofDb (db : Db) (now : Nat) : TextRedis :=
  { db := fun key => (db key).map fun e => { value := e.value.repr, expireAt := e.expireAt }, now }

section OfDb

variable (db : Db) (now : Nat) (key : String)

theorem find_ofDb : (ofDb db now).find key =
    (db.find now key).map fun e => { value := e.value.repr, expireAt := e.expireAt } := Option.filter_map

theorem set_ofDb (e : Entry) : (ofDb db now).set key { value := e.value.repr, expireAt := e.expireAt } =
    ofDb (db.set key e) now := by
  unfold set ofDb Db.set
  congr 1
  funext key'
  by_cases h : key' = key
  · subst h
    simp
  · simp [h]

theorem string2ll_repr {n : Int} (h : InRange n) : string2ll n.repr = some n := by
  simp [string2ll, Int.toInt?_repr, h]

theorem call_get : host.call ["GET", key] (ofDb db now) =
    (.ok ((db.get now key).elim .null fun n => .bulk n.repr), ofDb db now) := by
  rw [host_get, find_ofDb, Db.get]
  cases db.find now key <;> rfl

theorem call_pttl : host.call ["PTTL", key] (ofDb db now) = (.ok (.int (db.pttl now key)), ofDb db now) := by
  rw [host_pttl, TextRedis.pttl, find_ofDb, Db.pttl]
  cases db.find now key with
  | none => rfl
  | some e => cases he : e.expireAt <;> simp [Entry.pttl, he, ofDb]

theorem call_pexpiretime : host.call ["PEXPIRETIME", key] (ofDb db now) =
    (.ok (.int (db.pexpiretime now key)), ofDb db now) := by
  rw [host_pexpiretime, TextRedis.pexpiretime, find_ofDb, Db.pexpiretime]
  cases db.find now key with
  | none => rfl
  | some e => cases he : e.expireAt <;> simp [Entry.pexpiretime, he]

variable {db now key}

theorem call_setex {db' : Db} {ttl : Nat} {value : Int} (httl : InRange ttl) (h : db.setex now key ttl value = .ok db') :
    host.call ["SETEX", key, (ttl : Int).repr, value.repr] (ofDb db now) = (.ok (.status "OK"), ofDb db' now) := by
  unfold Db.setex at h
  split at h
  · cases h
  · next hvalid =>
      cases h
      have hvalid' : ¬ ((ttl : Int) ≤ 0 ∨ 2 ^ 63 ≤ (ttl : Int) * 1000 + (ofDb db now).now) := by
        simp only [ofDb]
        omega
      simp only [host_setex, setex, string2ll_repr httl, if_neg hvalid', ← set_ofDb]
      rfl

theorem call_setex_error {ttl : Nat} {value : Int} {e : RedisError} (httl : InRange ttl)
    (h : db.setex now key ttl value = .error e) :
    host.call ["SETEX", key, (ttl : Int).repr, value.repr] (ofDb db now) = (.error e, ofDb db now) := by
  unfold Db.setex at h
  split at h
  · next hinvalid =>
      cases h
      have hinvalid' : (ttl : Int) ≤ 0 ∨ 2 ^ 63 ≤ (ttl : Int) * 1000 + (ofDb db now).now := by
        simp only [ofDb]
        omega
      simp only [host_setex, setex, string2ll_repr httl, if_pos hinvalid']
  · cases h

theorem incrDecr_ofDb {e : Entry} {n : Int} (hf : db.find now key = some e) (he : InRange e.value)
    (hn : InRange (e.value + n)) :
    (ofDb db now).incrDecr key n = (.ok (.int (e.value + n)), ofDb (db.incrby now key n) now) := by
  simp only [incrDecr, find_ofDb, hf, Option.map_some, Option.elim_some, string2ll_repr he, if_pos hn, Db.incrby,
    ← set_ofDb, Option.bind_some]

theorem call_incrby {e : Entry} {n : Int} (hf : db.find now key = some e) (hr : InRange n) (he : InRange e.value)
    (hn : InRange (e.value + n)) : host.call ["INCRBY", key, n.repr] (ofDb db now) =
      (.ok (.int (e.value + n)), ofDb (db.incrby now key n) now) := by
  simp only [host_incrby, incrby, string2ll_repr hr]
  exact incrDecr_ofDb hf he hn

theorem call_decrby {e : Entry} {n : Int} (hf : db.find now key = some e) (hr : 0 ≤ n ∧ n < 2 ^ 63)
    (he : InRange e.value) (hn : InRange (e.value - n)) : host.call ["DECRBY", key, n.repr] (ofDb db now) =
      (.ok (.int (e.value - n)), ofDb (db.decrby now key n) now) := by
  have hr' : InRange n := ⟨by omega, hr.2⟩
  simp only [host_decrby, decrby, string2ll_repr hr']
  rw [if_neg (by omega)]
  exact incrDecr_ofDb hf he hn

end OfDb

end TextRedis

end ThatLimit
