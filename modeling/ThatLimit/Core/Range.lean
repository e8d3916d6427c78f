import ThatLimit.Core.Cache
import ThatLimit.Core.Config
import ThatLimit.Framework.Rounding
/-!
# The scripts on the numbers of Redis (`cache.rs`)

Elsewhere the scripts count without bounds. In Redis Lua counts in doubles, a number in a reply
is cut to a 64-bit integer, the counters have 64 bits, and `INCRBY` and `DECRBY` refuse what would
leave them. A double of up to 2^62 is spelt as the integer it is when a command gets it; the texts
of larger ones are not modelled. Up to 2^53 nothing of this is noticed.
-/
namespace ThatLimit

/-- Fits into a signed 64-bit integer. -/
def FitsI64 (n : Int) : Prop := -2 ^ 63 ≤ n ∧ n < 2 ^ 63

-- on natural numbers, since a difference with `2 ^ 63` would be counted down in proofs
instance : DecidablePred FitsI64 := fun n =>
  decidable_of_iff ((-n).toNat ≤ 2 ^ 63 ∧ n.toNat < 2 ^ 63) (by unfold FitsI64; omega)

/-- A natural number as Lua has it. -/
def double (n : Nat) : Nat := Rounding.round 53 n

/-- An integer as Lua has it. -/
def doubleInt (n : Int) : Int := Rounding.roundInt 53 n

/-- The cast of a number to `long long`. -/
def longLong (n : Int) : Int := n.bmod (2 ^ 64)

theorem double_of_le {n : Nat} (h : n ≤ 2 ^ 53) : double n = n := Rounding.round_of_le (by decide) h

theorem doubleInt_of_le {n : Int} (hlow : -2 ^ 53 ≤ n) (hhigh : n ≤ 2 ^ 53) : doubleInt n = n :=
  Rounding.roundInt_of_le (by decide) hlow hhigh

@[simp] theorem doubleInt_natCast (n : Nat) : doubleInt n = double n := rfl

theorem double_mono {m n : Nat} (h : m ≤ n) : double m ≤ double n := Rounding.round_mono (by decide) h

theorem double_pos {n : Nat} (h : 0 < n) : 0 < double n := by
  have hmono := double_mono (Nat.succ_le_of_lt h)
  rwa [double_of_le (show 0 + 1 ≤ 2 ^ 53 by decide)] at hmono

/-- Below `2 ^ 62` doubles tell times apart that differ by more than half a second. -/
theorem double_lt_of_far {m n : Nat} (h : m + 512 < n) (hn : n < 2 ^ 62) : double m < double n := by
  have hm := (Rounding.round_near_of_lt (p := 53) (k := 8) (n := m) (by omega)).2
  have hn := (Rounding.round_near_of_lt (p := 53) (k := 8) hn).1
  unfold double
  omega

theorem doubleInt_double (n : Nat) : doubleInt (double n) = double n :=
  congrArg Int.ofNat (Rounding.round_round (by decide) n)

theorem doubleInt_eq_neg_two {n : Int} (h : doubleInt n = -2) : n = -2 := by
  cases n with
  | ofNat n =>
      have hn : doubleInt (Int.ofNat n) = double n := rfl
      omega
  | negSucc n =>
      have hn : doubleInt (Int.negSucc n) = -(double (n + 1) : Int) := rfl
      have hle : n + 1 ≤ 2 ^ 53 := by
        by_contra hgt
        have hmono := double_mono (show 2 ^ 53 ≤ n + 1 by omega)
        rw [double_of_le (Nat.le_refl _)] at hmono
        omega
      rw [double_of_le hle] at hn
      omega

theorem pos_of_doubleInt_pos {n : Int} (h : 0 < doubleInt n) : 0 < n := by
  by_contra hn
  have := Rounding.roundInt_nonpos 53 (x := n) (by omega)
  unfold doubleInt at h
  omega

theorem longLong_of_fits {n : Int} (h : FitsI64 n) : longLong n = n := by
  obtain ⟨hlow, hhigh⟩ := h
  unfold longLong
  rw [Int.bmod_eq_iff (by decide)]
  omega

theorem longLong_double_ne_neg_two {n : Nat} (h : n < 2 ^ 63) : longLong (double n) ≠ -2 := by
  have hle := double_mono (Nat.le_of_lt h)
  rw [show double (2 ^ 63) = 2 ^ 63 by decide] at hle
  rcases Nat.eq_or_lt_of_le hle with heq | hlt
  · rw [heq]
    decide
  · rw [longLong_of_fits ⟨by omega, by omega⟩]
    omega

/-- No window lasts longer: 9223372036854775 seconds would fit as well, but are none of Lua's numbers. -/
def maxPttl : Nat := 9223372036854774000

theorem double_le_maxPttl {ttl : Nat} (h : double ttl * 1000 < 2 ^ 63) : double ttl * 1000 ≤ maxPttl := by
  unfold maxPttl
  by_contra hlt
  have heven : 2 ∣ double ttl := Rounding.even_round (by decide) (show 2 ^ 53 < double ttl by omega)
  omega

theorem Entry.pttl_bounds {e : Entry} {now w : Nat} (hw : e.expireAt = some w) (hlive : e.live now = true)
    (hmax : w ≤ now + maxPttl) : 0 ≤ e.pttl now ∧ e.pttl now ≤ maxPttl := by
  simp only [Entry.live, hw, decide_eq_true_eq] at hlive
  simp only [Entry.pttl, hw]
  omega

namespace Db

/-- `SETEX` with its checks. -/
def setexChecked (db : Db) (now : Nat) (key : String) (ttl : Nat) (value : Int) : Except RedisError Db :=
  if ¬FitsI64 ttl then .error (.response "ERR value is not an integer or out of range") else db.setex now key ttl value

/-- `INCRBY` with its checks. -/
def incrbyChecked (db : Db) (now : Nat) (key : String) (n : Int) : Except RedisError Db :=
  let value := (db.get now key).getD 0
  if ¬(FitsI64 n ∧ FitsI64 value) then .error (.response "ERR value is not an integer or out of range")
  else if ¬FitsI64 (value + n) then .error (.response "ERR increment or decrement would overflow")
  else .ok (db.incrby now key n)

/-- `DECRBY` with its checks. -/
def decrbyChecked (db : Db) (now : Nat) (key : String) (n : Int) : Except RedisError Db :=
  if ¬FitsI64 n then .error (.response "ERR value is not an integer or out of range")
  else if n = -2 ^ 63 then .error (.response "ERR decrement would overflow")
  else db.incrbyChecked now key (-n)

variable {db db' : Db} {now : Nat} {key : String}

theorem setexChecked_eq_ok_iff {ttl : Nat} {value : Int} : db.setexChecked now key ttl value = .ok db' ↔
    0 < ttl ∧ ttl * 1000 + now < 2 ^ 63 ∧ db' = db.set key { value, expireAt := some (now + ttl * 1000) } := by
  unfold setexChecked setex FitsI64
  by_cases hvalid : 0 < ttl ∧ ttl * 1000 + now < 2 ^ 63
  · rw [if_neg (by omega), if_neg (by omega)]
    simp only [Except.ok.injEq, hvalid, true_and]
    exact eq_comm
  · have hno : ¬(0 < ttl ∧ ttl * 1000 + now < 2 ^ 63 ∧
        db' = db.set key { value, expireAt := some (now + ttl * 1000) }) := fun h => hvalid ⟨h.1, h.2.1⟩
    simp only [hno, iff_false]
    intro h
    split at h
    · cases h
    · split at h
      · cases h
      · next hexpire => exact hvalid (by omega)

theorem incrbyChecked_eq_ok_iff {e : Entry} (hf : db.find now key = some e) {n : Int} :
    db.incrbyChecked now key n = .ok db' ↔
      FitsI64 n ∧ FitsI64 e.value ∧ FitsI64 (e.value + n) ∧ db' = db.set key { e with value := e.value + n } := by
  have hget : db.get now key = some e.value := by rw [get, hf, Option.map_some]
  unfold incrbyChecked
  simp only [hget, Option.getD_some, incrby, hf]
  by_cases hargs : FitsI64 n ∧ FitsI64 e.value
  · rw [if_neg (not_not.mpr hargs)]
    by_cases hsum : FitsI64 (e.value + n)
    · rw [if_neg (not_not.mpr hsum)]
      simp only [hargs, hsum, true_and, Except.ok.injEq]
      exact eq_comm
    · rw [if_pos hsum]
      simp [hsum]
  · rw [if_pos hargs]
    simp only [reduceCtorEq, false_iff]
    exact fun h => hargs ⟨h.1, h.2.1⟩

theorem decrbyChecked_eq_ok_iff {e : Entry} (hf : db.find now key = some e) {n : Int} (hpos : 0 ≤ n) :
    db.decrbyChecked now key n = .ok db' ↔
      FitsI64 n ∧ FitsI64 e.value ∧ FitsI64 (e.value - n) ∧ db' = db.set key { e with value := e.value - n } := by
  have hneg : FitsI64 n → FitsI64 (-n) := fun ⟨hlow, hhigh⟩ => ⟨by omega, by omega⟩
  unfold decrbyChecked
  by_cases hn : FitsI64 n
  · rw [if_neg (not_not.mpr hn), if_neg (by omega), incrbyChecked_eq_ok_iff hf]
    simp only [hn, hneg hn, true_and, Int.sub_eq_add_neg]
  · rw [if_pos hn]
    simp [hn]

end Db

/-- Doubles as an integer reply. -/
def LeaseReply.ofLua (leased pttl window : Int) : LeaseReply :=
  { leased := longLong leased, pttl := longLong (doubleInt pttl), window := longLong (doubleInt window) }

theorem LeaseReply.decode_ofLua {leased pttl : Int} (window : Int) (hleased : 0 ≤ leased) (hsize : leased ≤ 2 ^ 53)
    (hpttl : 0 ≤ pttl) (hmax : pttl ≤ maxPttl) : (LeaseReply.ofLua leased pttl window).decode =
      .ok ⟨leased.toNat, (doubleInt pttl).toNat, longLong (doubleInt window)⟩ := by
  obtain ⟨ms, rfl⟩ := Int.eq_ofNat_of_zero_le hpttl
  have hms : double ms ≤ double maxPttl := double_mono (by omega)
  rw [show double maxPttl = 9223372036854773760 by decide +kernel] at hms
  simp only [ofLua, doubleInt_natCast, longLong_of_fits (n := leased) ⟨by omega, by omega⟩,
    longLong_of_fits (n := double ms) ⟨by omega, by omega⟩]
  exact LeaseReply.decode_of_nonneg _ hleased (Int.natCast_nonneg _)

/-- `LEASE_SCRIPT`, where any command may end it with an error. -/
def leaseScriptChecked (db : Db) (now : Nat) (key : String) (leaseSize quota defaultTtl : Nat) :
    Except RedisError (LeaseReply × Db) :=
  let leaseSize := double leaseSize
  let quota := double quota
  let defaultTtl := double defaultTtl
  match db.get now key with
  | none =>
      let remaining := doubleInt (quota - leaseSize)
      match db.setexChecked now key defaultTtl remaining with
      | .error e => .error e
      | .ok db' => .ok (.ofLua leaseSize (db'.pttl now key) (db'.pexpiretime now key), db')
  | some current =>
      let tokens := doubleInt current
      if tokens ≤ 0 then .ok (.ofLua 0 (db.pttl now key) (db.pexpiretime now key), db)
      else
        let toLease := min tokens leaseSize
        match db.decrbyChecked now key toLease with
        | .error e => .error e
        | .ok db' => .ok (.ofLua toLease (db'.pttl now key) (db'.pexpiretime now key), db')

/-- `RELEASE_SCRIPT`, which may end with an error too. -/
def releaseScriptChecked (db : Db) (now : Nat) (key : String) (tokens : Nat) (window : Int) :
    Except RedisError (Nat × Db) :=
  if doubleInt (db.pexpiretime now key) ≠ doubleInt window then .ok (0, db)
  else
    match db.incrbyChecked now key (double tokens) with
    | .error e => .error e
    | .ok db' => .ok (1, db')

section Scripts

variable {db db' : Db} {now : Nat} {key : String} {leaseSize quota ttl : Nat}

theorem leaseScriptChecked_cases {r : LeaseReply} (h : leaseScriptChecked db now key leaseSize quota ttl = .ok (r, db')) :
    (db.find now key = none ∧ 0 < double ttl ∧ double ttl * 1000 + now < 2 ^ 63 ∧
      db' = db.set key ⟨doubleInt (double quota - double leaseSize), some (now + double ttl * 1000)⟩ ∧
      r = .ofLua (double leaseSize) (double ttl * 1000 : Nat) (now + double ttl * 1000 : Nat)) ∨
    (∃ e, db.find now key = some e ∧ doubleInt e.value ≤ 0 ∧ db' = db ∧ r = .ofLua 0 (e.pttl now) e.pexpiretime) ∨
    (∃ e, db.find now key = some e ∧ 0 < doubleInt e.value ∧ FitsI64 e.value ∧
      FitsI64 (e.value - min (doubleInt e.value) (double leaseSize)) ∧
      db' = db.set key { e with value := e.value - min (doubleInt e.value) (double leaseSize) } ∧
      r = .ofLua (min (doubleInt e.value) (double leaseSize)) (e.pttl now) e.pexpiretime) := by
  unfold leaseScriptChecked Db.get at h
  cases hf : db.find now key with
  | none =>
      left
      simp only [hf, Option.map_none] at h
      split at h
      · cases h
      · next hset =>
          simp only [Except.ok.injEq, Prod.mk.injEq] at h
          obtain ⟨rfl, rfl⟩ := h
          obtain ⟨hpos, hrange, rfl⟩ := Db.setexChecked_eq_ok_iff.mp hset
          refine ⟨rfl, hpos, hrange, rfl, ?_⟩
          simp only [Db.pttl, Db.pexpiretime, Db.find_set_self, Entry.live, Nat.le_add_right, decide_true, if_true,
            Option.map_some, Option.getD_some, Entry.pttl, Entry.pexpiretime]
          rw [show ((now + double ttl * 1000 : Nat) : Int) - now = (double ttl * 1000 : Nat) by omega]
  | some e =>
      right
      have hlive := (Db.find_eq_some_iff.mp hf).2
      simp only [hf, Option.map_some] at h
      split at h
      · next hv =>
          cases h
          left
          exact ⟨e, rfl, hv, rfl, by simp only [Db.pttl, Db.pexpiretime, hf, Option.map_some, Option.getD_some]⟩
      · next hv =>
          right
          split at h
          · cases h
          · next hdecr =>
              cases h
              obtain ⟨-, hvalue, hleft, rfl⟩ := (Db.decrbyChecked_eq_ok_iff hf (by omega)).mp hdecr
              have hfind : (db.set key { e with value := e.value - min (doubleInt e.value) (double leaseSize) }).find
                  now key = some { e with value := e.value - min (doubleInt e.value) (double leaseSize) } :=
                Db.find_set_of_live _ _ hlive
              refine ⟨e, rfl, by omega, hvalue, hleft, rfl, ?_⟩
              simp only [Db.pttl, Db.pexpiretime, hfind, Option.map_some, Option.getD_some, Entry.pttl, Entry.pexpiretime]

theorem leaseScriptChecked_answers (quota : Nat) (hsize : leaseSize ≤ 2 ^ 53)
    (hkey : db.find now key = none → 0 < double ttl ∧ double ttl * 1000 + now < 2 ^ 63)
    (hfits : ∀ e, db.find now key = some e → FitsI64 e.value) :
    ∃ r db', leaseScriptChecked db now key leaseSize quota ttl = .ok (r, db') := by
  unfold leaseScriptChecked Db.get
  cases hf : db.find now key with
  | none =>
      obtain ⟨hpos, hrange⟩ := hkey hf
      simp only [Option.map_none, Db.setexChecked_eq_ok_iff.mpr ⟨hpos, hrange, rfl⟩]
      exact ⟨_, _, rfl⟩
  | some e =>
      simp only [Option.map_some, double_of_le hsize]
      split
      · exact ⟨_, _, rfl⟩
      · next hv =>
          obtain ⟨hlow, hhigh⟩ := hfits e hf
          have hpos := pos_of_doubleInt_pos (n := e.value) (by omega)
          have hargument : FitsI64 (min (doubleInt e.value) leaseSize) := ⟨by omega, by omega⟩
          have hleft : FitsI64 (e.value - min (doubleInt e.value) leaseSize) := ⟨by omega, by omega⟩
          simp only [(Db.decrbyChecked_eq_ok_iff hf (by omega)).mpr ⟨hargument, ⟨hlow, hhigh⟩, hleft, rfl⟩]
          exact ⟨_, _, rfl⟩

end Scripts

namespace Server

/-- Runs the lease script on the numbers of Redis. -/
def leaseChecked (s : Server) (key : String) (leaseSize quota ttl : Nat) : Except RedisError LeaseReply × Server :=
  s.ran key (double ttl) (leaseScriptChecked s.db s.now key leaseSize quota ttl)

/-- `cache::release` when Redis answers. -/
def releaseChecked (s : Server) (key : String) (tokens : Nat) (window : Int) : Except RedisError Bool × Server :=
  match releaseScriptChecked s.db s.now key tokens window with
  | .error e => (.error e, s)
  | .ok (released, db) => (.ok (released == 1), { s with db })

variable {s s' : Server} {key : String} {leaseSize quota ttl : Nat} {r : LeaseReply}

theorem leaseChecked_cases (h : s.leaseChecked key leaseSize quota ttl = (.ok r, s')) :
    (s.find key = none ∧ 0 < double ttl ∧ double ttl * 1000 + s.now < 2 ^ 63 ∧
      r = .ofLua (double leaseSize) (double ttl * 1000 : Nat) (s.now + double ttl * 1000 : Nat) ∧
      s' = { s with
        db := s.db.set key ⟨doubleInt (double quota - double leaseSize), some (s.now + double ttl * 1000)⟩
        epoch := Function.update s.epoch key (s.epoch key + 1)
        opened := Function.update s.opened key (s.now + double ttl * 1000)
        log := ⟨key, .ok r⟩ :: s.log }) ∨
    (∃ e, s.find key = some e ∧ doubleInt e.value ≤ 0 ∧ r = .ofLua 0 (e.pttl s.now) e.pexpiretime ∧
      s' = { s with log := ⟨key, .ok r⟩ :: s.log }) ∨
    (∃ e, s.find key = some e ∧ 0 < doubleInt e.value ∧ FitsI64 e.value ∧
      FitsI64 (e.value - min (doubleInt e.value) (double leaseSize)) ∧
      r = .ofLua (min (doubleInt e.value) (double leaseSize)) (e.pttl s.now) e.pexpiretime ∧
      s' = { s with
        db := s.db.set key { e with value := e.value - min (doubleInt e.value) (double leaseSize) }
        log := ⟨key, .ok r⟩ :: s.log }) := by
  unfold leaseChecked ran at h
  split at h
  · cases h
  · next r' db hscript =>
      obtain ⟨hr, rfl⟩ := Prod.mk.inj h
      obtain rfl := Except.ok.inj hr
      rcases leaseScriptChecked_cases hscript with ⟨hf, hpos, hrange, rfl, hr⟩ | ⟨e, hf, hv, rfl, hr⟩ |
        ⟨e, hf, hv, hfits, hleft, rfl, hr⟩
      · exact .inl ⟨hf, hpos, hrange, hr, by simp [find, hf]⟩
      · exact .inr (.inl ⟨e, hf, hv, hr, by simp [find, hf]⟩)
      · exact .inr (.inr ⟨e, hf, hv, hfits, hleft, hr, by simp [find, hf]⟩)

theorem leaseChecked_effect (s : Server) (key : String) (leaseSize quota ttl : Nat) : ∃ reply,
    (s.leaseChecked key leaseSize quota ttl).2 = { s with log := ⟨key, reply⟩ :: s.log } ∨
    (s.find key = none ∧ 0 < double ttl ∧ double ttl * 1000 + s.now < 2 ^ 63 ∧
      (s.leaseChecked key leaseSize quota ttl).2 = { s with
        db := s.db.set key ⟨doubleInt (double quota - double leaseSize), some (s.now + double ttl * 1000)⟩
        epoch := Function.update s.epoch key (s.epoch key + 1)
        opened := Function.update s.opened key (s.now + double ttl * 1000)
        log := ⟨key, reply⟩ :: s.log }) ∨
    ∃ e, s.find key = some e ∧ 0 < doubleInt e.value ∧
      FitsI64 (e.value - min (doubleInt e.value) (double leaseSize)) ∧
      (s.leaseChecked key leaseSize quota ttl).2 = { s with
        db := s.db.set key { e with value := e.value - min (doubleInt e.value) (double leaseSize) }
        log := ⟨key, reply⟩ :: s.log } := by
  rcases hl : s.leaseChecked key leaseSize quota ttl with ⟨e | r, s'⟩
  · refine ⟨.error e, .inl ?_⟩
    unfold leaseChecked ran at hl
    split at hl
    · cases hl; rfl
    · cases hl
  · rcases leaseChecked_cases hl with ⟨hf, hpos, hrange, -, hs⟩ | ⟨e, -, -, -, hs⟩ | ⟨e, hf, hv, -, hleft, -, hs⟩
    · exact ⟨_, .inr (.inl ⟨hf, hpos, hrange, hs⟩)⟩
    · exact ⟨_, .inl hs⟩
    · exact ⟨_, .inr (.inr ⟨e, hf, hv, hleft, hs⟩)⟩

theorem leaseChecked_answers (s : Server) (key : String) (quota : Nat) (hsize : leaseSize ≤ 2 ^ 53)
    (hkey : s.find key = none → 0 < double ttl ∧ double ttl * 1000 + s.now < 2 ^ 63)
    (hfits : ∀ e, s.find key = some e → FitsI64 e.value) :
    ∃ r s', s.leaseChecked key leaseSize quota ttl = (.ok r, s') := by
  obtain ⟨r, db, hscript⟩ := leaseScriptChecked_answers quota hsize hkey hfits
  unfold leaseChecked ran
  rw [hscript]
  exact ⟨_, _, rfl⟩

/-- A release tops up a live key whose expiry is its window to Lua, unless `INCRBY` objects. -2 is what
`PEXPIRETIME` says of a key that is not there. -/
theorem releaseChecked_cases (s : Server) (key : String) (tokens : Nat) {window : Int} (hw : window ≠ -2) :
    (∃ e, s.find key = some e ∧ doubleInt e.pexpiretime = doubleInt window ∧
      FitsI64 (double tokens) ∧ FitsI64 e.value ∧ FitsI64 (e.value + double tokens) ∧
      s.releaseChecked key tokens window =
        (.ok true, { s with db := s.db.set key { e with value := e.value + double tokens } })) ∨
    (∃ e message, s.find key = some e ∧ doubleInt e.pexpiretime = doubleInt window ∧
      ¬(FitsI64 (double tokens) ∧ FitsI64 e.value ∧ FitsI64 (e.value + double tokens)) ∧
      s.releaseChecked key tokens window = (.error message, s)) ∨
    ((∀ e, s.find key = some e → doubleInt e.pexpiretime ≠ doubleInt window) ∧
      s.releaseChecked key tokens window = (.ok false, s)) := by
  unfold releaseChecked releaseScriptChecked Db.pexpiretime
  cases hf : s.db.find s.now key with
  | none =>
      have hno : doubleInt (-2) ≠ doubleInt window := fun h => hw (doubleInt_eq_neg_two h.symm)
      refine .inr (.inr ⟨fun e he => ?_, ?_⟩)
      · rw [find, hf] at he
        cases he
      · simp only [Option.map_none, Option.getD_none, if_pos hno]
        rfl
  | some e =>
      have hfind : s.find key = some e := hf
      simp only [Option.map_some, Option.getD_some]
      by_cases he : doubleInt e.pexpiretime = doubleInt window
      · rw [if_neg (not_not.mpr he)]
        by_cases hok : FitsI64 (double tokens) ∧ FitsI64 e.value ∧ FitsI64 (e.value + double tokens)
        · simp only [(Db.incrbyChecked_eq_ok_iff hf).mpr ⟨hok.1, hok.2.1, hok.2.2, rfl⟩]
          exact .inl ⟨e, hfind, he, hok.1, hok.2.1, hok.2.2, rfl⟩
        · right; left
          cases hincr : s.db.incrbyChecked s.now key (double tokens) with
          | error message => exact ⟨e, message, hfind, he, hok, rfl⟩
          | ok db =>
              obtain ⟨hargument, hvalue, hsum, -⟩ := (Db.incrbyChecked_eq_ok_iff hf).mp hincr
              exact absurd ⟨hargument, hvalue, hsum⟩ hok
      · rw [if_pos he]
        refine .inr (.inr ⟨fun e' he' => ?_, rfl⟩)
        obtain rfl := Option.some.inj (hfind.symm.trans he')
        exact he

theorem releaseChecked_effect (s : Server) (key : String) (tokens : Nat) {window : Int} (hw : window ≠ -2) :
    (s.releaseChecked key tokens window).2 = s ∨
    ∃ e, s.find key = some e ∧ FitsI64 (e.value + double tokens) ∧ (s.releaseChecked key tokens window).2 =
      { s with db := s.db.set key { e with value := e.value + double tokens } } := by
  rcases s.releaseChecked_cases key tokens hw with ⟨e, hf, -, -, -, hsum, hr⟩ | ⟨e, message, -, -, -, hr⟩ | ⟨-, hr⟩
  · exact .inr ⟨e, hf, hsum, by rw [hr]⟩
  · exact .inl (by rw [hr])
  · exact .inl (by rw [hr])

end Server

/-- `Redis::eval` of the lease script on the numbers of Redis, with the arguments `Store::lease` gives it. -/
def evalLeaseChecked {IpAddr : Type} [ToString IpAddr] (cfg : Config) (server : Server) (b : BucketId IpAddr)
    (link : Link) : Except CacheError Leased × Server :=
  link.eval server
    (server.leaseChecked b.toKey (cfg.policy b).leaseSize (cfg.policy b).quota (asSecs (cfg.policy b).resetIn))

end ThatLimit
