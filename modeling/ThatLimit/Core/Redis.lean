import Mathlib.Algebra.Group.Nat.Defs
import Mathlib.Logic.Function.Basic
import Mathlib.Tactic.SplitIfs
/-!
# The Redis commands the scripts use

Redis is outside the repository; this is the documented behaviour of the six
commands the two scripts call. Times are milliseconds of the Redis clock, which
stands still while a script runs. A key is live up to and including its expiry
millisecond. Integers and Lua numbers are exact here, as they are in Redis up to `2 ^ 53`;
`Core.Range` has the numbers of Redis beyond.
-/
namespace ThatLimit

inductive RedisError
  | io
  | response (message : String)
  | unexpectedReturnType
  deriving DecidableEq, Repr

/-- A string key holding an integer, with its expiry if it has one. -/
structure Entry where
  value : Int
  expireAt : Option Nat
  deriving DecidableEq, Repr

namespace Entry

def live (e : Entry) (now : Nat) : Bool :=
  match e.expireAt with
  | some w => decide (now ≤ w)
  | none => true

def pttl (e : Entry) (now : Nat) : Int :=
  match e.expireAt with
  | some w => (w : Int) - now
  | none => -1

def pexpiretime (e : Entry) : Int :=
  match e.expireAt with
  | some w => w
  | none => -1

theorem pexpiretime_eq {e : Entry} {w : Nat} (hw : e.expireAt = some w) : e.pexpiretime = w := by
  simp [pexpiretime, hw]

end Entry

abbrev Db := String → Option Entry

namespace Db

/-- The entry a command sees: a key past its expiry counts as absent. -/
def find (db : Db) (now : Nat) (key : String) : Option Entry := (db key).filter fun e => e.live now

def set (db : Db) (key : String) (e : Entry) : Db := Function.update db key (some e)

def get (db : Db) (now : Nat) (key : String) : Option Int := (db.find now key).map Entry.value

/-- `SETEX` refuses an expiry of zero and one past the range of 64-bit milliseconds. -/
def setex (db : Db) (now : Nat) (key : String) (ttl : Nat) (value : Int) : Except RedisError Db :=
  if ttl = 0 ∨ 2 ^ 63 ≤ ttl * 1000 + now then
    .error (.response "ERR invalid expire time in 'setex' command")
  else
    .ok (db.set key { value, expireAt := some (now + ttl * 1000) })

/-- `INCRBY` keeps the expiry of a live key and creates an absent one without expiry. For its errors at the ends of
the 64-bit range see `Db.incrbyChecked`. -/
def incrby (db : Db) (now : Nat) (key : String) (n : Int) : Db :=
  match db.find now key with
  | some e => db.set key { e with value := e.value + n }
  | none => db.set key { value := n, expireAt := none }

def decrby (db : Db) (now : Nat) (key : String) (n : Int) : Db := db.incrby now key (-n)

def pttl (db : Db) (now : Nat) (key : String) : Int :=
  ((db.find now key).map fun e => e.pttl now).getD (-2)

def pexpiretime (db : Db) (now : Nat) (key : String) : Int :=
  ((db.find now key).map Entry.pexpiretime).getD (-2)

@[simp] theorem set_self (db : Db) (key : String) (e : Entry) : db.set key e key = some e := by
  simp [set]

@[simp] theorem set_ne (db : Db) {key key' : String} (e : Entry) (h : key' ≠ key) :
    db.set key e key' = db key' := by
  simp [set, h]

theorem set_eq_some_iff {db : Db} {key key' : String} {e e' : Entry} :
    db.set key e key' = some e' ↔ (key' = key ∧ e = e') ∨ (key' ≠ key ∧ db key' = some e') := by
  by_cases h : key' = key
  · subst h
    simp
  · simp [h]

theorem forall_set {P : String → Entry → Prop} {db : Db} (h : ∀ key e, db key = some e → P key e) (key : String)
    {e : Entry} (he : P key e) (key' : String) (e' : Entry) (he' : db.set key e key' = some e') : P key' e' := by
  rcases set_eq_some_iff.mp he' with ⟨rfl, rfl⟩ | ⟨-, hold⟩
  · exact he
  · exact h key' e' hold

theorem find_eq_some_iff {db : Db} {now : Nat} {key : String} {e : Entry} :
    db.find now key = some e ↔ db key = some e ∧ e.live now = true := by
  simp [find, Option.filter_eq_some_iff]

theorem find_set_self (db : Db) (now : Nat) (key : String) (e : Entry) :
    (db.set key e).find now key = if e.live now then some e else none := by
  simp [find, Option.filter]

theorem find_set_of_live (db : Db) {now : Nat} (key : String) {e : Entry} (h : e.live now = true) :
    (db.set key e).find now key = some e := by
  rw [find_set_self, if_pos h]

@[simp] theorem find_set_ne (db : Db) (now : Nat) {key key' : String} (e : Entry) (h : key' ≠ key) :
    (db.set key e).find now key' = db.find now key' := by
  simp [find, h]

theorem expiry_setex {db db' : Db} {now ttl : Nat} {key : String} {value : Int}
    (h : db.setex now key ttl value = .ok db') :
    db'.pttl now key = ttl * 1000 ∧ db'.pexpiretime now key = now + ttl * 1000 := by
  unfold setex at h
  split at h
  · cases h
  · cases h
    have hlive : ({ value, expireAt := some (now + ttl * 1000) } : Entry).live now = true := by simp [Entry.live]
    simp only [pttl, pexpiretime, find_set_of_live _ _ hlive, Option.map_some, Option.getD_some, Entry.pttl,
      Entry.pexpiretime]
    omega

theorem expiry_decrby {db : Db} {now : Nat} {key : String} {e : Entry} (hf : db.find now key = some e) (n : Int) :
    (db.decrby now key n).pttl now key = db.pttl now key ∧
      (db.decrby now key n).pexpiretime now key = db.pexpiretime now key := by
  have hlive : ({ e with value := e.value + -n } : Entry).live now = true := (find_eq_some_iff.mp hf).2
  simp only [pttl, pexpiretime, decrby, incrby, hf, find_set_of_live _ _ hlive]
  exact ⟨rfl, rfl⟩

end Db

end ThatLimit
