import ThatLimit.Core.Cache
/-!
# Redis as one key sees it

Both scripts read and write the key they are given and no other, so what they reply and leave
there depends on nothing but the live entry of this key and the time.
-/
namespace ThatLimit

/-- Two Redis instances in which a command finds the same under `key`. -/
structure Server.SameAt (key : String) (s s' : Server) : Prop where
  now : s'.now = s.now
  find : s'.find key = s.find key

/-- Besides, `s'` has run the leases for `key` that `s` has run, and no others. -/
structure Server.Shares (key : String) (s s' : Server) : Prop extends Server.SameAt key s s' where
  log : s'.log = s.log.filter fun r => r.key == key

section Scripts

variable {db db' : Db} {now : Nat} {key : String}

theorem leaseScript_congr (h : db'.find now key = db.find now key) (leaseSize quota ttl : Nat) :
    (∃ e, leaseScript db now key leaseSize quota ttl = .error e ∧ leaseScript db' now key leaseSize quota ttl = .error e) ∨
    ∃ r d d', leaseScript db now key leaseSize quota ttl = .ok (r, d) ∧
      leaseScript db' now key leaseSize quota ttl = .ok (r, d') ∧ d'.find now key = d.find now key := by
  unfold leaseScript Db.get
  rw [h]
  cases hfind : db.find now key with
  | none =>
      simp only [Option.map_none, Db.setex]
      by_cases hinvalid : ttl = 0 ∨ 2 ^ 63 ≤ ttl * 1000 + now
      · simp only [if_pos hinvalid]
        exact .inl ⟨_, rfl, rfl⟩
      · simp only [if_neg hinvalid, Db.pttl, Db.pexpiretime, Db.find_set_self]
        exact .inr ⟨_, _, _, rfl, rfl, by simp only [Db.find_set_self]⟩
  | some e =>
      right
      simp only [Option.map_some]
      by_cases hv : e.value ≤ 0
      · simp only [if_pos hv, Db.pttl, Db.pexpiretime, h]
        exact ⟨_, _, _, rfl, rfl, h⟩
      · simp only [if_neg hv, Db.decrby, Db.incrby, h, hfind, Db.pttl, Db.pexpiretime, Db.find_set_self]
        exact ⟨_, _, _, rfl, rfl, by simp only [Db.find_set_self]⟩

theorem releaseScript_congr (h : db'.find now key = db.find now key) (tokens : Nat) (window : Int) :
    (releaseScript db' now key tokens window).1 = (releaseScript db now key tokens window).1 ∧
    (releaseScript db' now key tokens window).2.find now key = (releaseScript db now key tokens window).2.find now key := by
  unfold releaseScript Db.pexpiretime
  rw [h]
  split
  · exact ⟨rfl, h⟩
  · refine ⟨rfl, ?_⟩
    unfold Db.incrby
    rw [h]
    cases db.find now key with
    | none => simp only [Db.find_set_self]
    | some e => simp only [Db.find_set_self]

theorem releaseScript_other {key' : String} (hkey : key' ≠ key) (tokens : Nat) (window : Int) :
    (releaseScript db now key tokens window).2 key' = db key' := by
  unfold releaseScript
  split
  · rfl
  · unfold Db.incrby
    split
    · exact Db.set_ne _ _ hkey
    · exact Db.set_ne _ _ hkey

theorem Db.find_later (db : Db) (now ms : Nat) (key : String) :
    db.find (now + ms) key = (db.find now key).filter fun e => e.live (now + ms) := by
  unfold Db.find
  rw [Option.filter_filter]
  congr 1
  funext e
  unfold Entry.live
  cases e.expireAt with
  | none => rfl
  | some w =>
      simp only [← Bool.decide_and]
      congr 1
      exact propext ⟨fun h => ⟨by omega, h⟩, fun h => h.2⟩

end Scripts

namespace Server

variable {s s' : Server} {key key' : String}

theorem SameAt.db (h : s.SameAt key s') : s'.db.find s.now key = s.db.find s.now key := by
  have hf : s'.db.find s'.now key = s.db.find s.now key := h.find
  rwa [h.now] at hf

theorem find_lease_other (s : Server) (hkey : key ≠ key') (leaseSize quota ttl : Nat) :
    (s.lease key' leaseSize quota ttl).2.find key = s.find key := by
  simp only [find, Db.find, lease_now, (s.lease_other leaseSize quota ttl hkey).1]

theorem SameAt.lease (h : s.SameAt key s') (leaseSize quota ttl : Nat) :
    (s'.lease key leaseSize quota ttl).1 = (s.lease key leaseSize quota ttl).1 ∧
    (s.lease key leaseSize quota ttl).2.SameAt key (s'.lease key leaseSize quota ttl).2 := by
  unfold Server.lease Server.ran
  rw [h.now]
  rcases leaseScript_congr h.db leaseSize quota ttl with ⟨e, hs, hs'⟩ | ⟨r, d, d', hs, hs', hd⟩
  · rw [hs, hs']
    exact ⟨rfl, rfl, h.db⟩
  · rw [hs, hs']
    exact ⟨rfl, rfl, hd⟩

theorem SameAt.lease_other (h : s.SameAt key s') (hkey : key ≠ key') (leaseSize quota ttl : Nat) :
    (s.lease key' leaseSize quota ttl).2.SameAt key s' :=
  ⟨h.now.trans (lease_now ..).symm, h.find.trans (s.find_lease_other hkey ..).symm⟩

theorem SameAt.symm (h : s.SameAt key s') : s'.SameAt key s := ⟨h.now.symm, h.find.symm⟩

theorem SameAt.lease_both (h : s.SameAt key s') (h' : s.SameAt key' s') (leaseSize quota ttl : Nat) :
    (s.lease key' leaseSize quota ttl).2.SameAt key (s'.lease key' leaseSize quota ttl).2 := by
  by_cases hkey : key = key'
  · subst hkey
    exact (h.lease leaseSize quota ttl).2
  · exact ((h.lease_other hkey leaseSize quota ttl).symm.lease_other hkey leaseSize quota ttl).symm

theorem SameAt.release (h : s.SameAt key s') (tokens : Nat) (window : Int) :
    (s.release key tokens window).2.SameAt key (s'.release key tokens window).2 := by
  unfold Server.release
  rw [h.now]
  exact ⟨rfl, (releaseScript_congr h.db tokens window).2⟩

theorem SameAt.release_other (h : s.SameAt key s') (hkey : key ≠ key') (tokens : Nat) (window : Int) :
    (s.release key' tokens window).2.SameAt key s' := by
  refine ⟨h.now, h.find.trans ?_⟩
  show s.db.find s.now key = (releaseScript s.db s.now key' tokens window).2.find s.now key
  rw [Db.find, Db.find, releaseScript_other hkey]

theorem SameAt.elapse (h : s.SameAt key s') (ms : Nat) : (s.elapse ms).SameAt key (s'.elapse ms) := by
  refine ⟨congrArg (· + ms) h.now, ?_⟩
  show s'.db.find (s'.now + ms) key = s.db.find (s.now + ms) key
  rw [Db.find_later, Db.find_later, h.now]
  exact congrArg (Option.filter _) h.db

theorem lease_log_eq (s : Server) (key : String) (leaseSize quota ttl : Nat) :
    (s.lease key leaseSize quota ttl).2.log = ⟨key, (s.lease key leaseSize quota ttl).1⟩ :: s.log := by
  unfold Server.lease Server.ran
  split <;> rfl

theorem Shares.lease (h : s.Shares key s') (leaseSize quota ttl : Nat) :
    (s'.lease key leaseSize quota ttl).1 = (s.lease key leaseSize quota ttl).1 ∧
    (s.lease key leaseSize quota ttl).2.Shares key (s'.lease key leaseSize quota ttl).2 := by
  obtain ⟨hreply, hsame⟩ := h.toSameAt.lease leaseSize quota ttl
  refine ⟨hreply, hsame, ?_⟩
  rw [lease_log_eq, lease_log_eq, hreply, h.log]
  simp

theorem Shares.lease_other (h : s.Shares key s') (hkey : key ≠ key') (leaseSize quota ttl : Nat) :
    (s.lease key' leaseSize quota ttl).2.Shares key s' := by
  refine ⟨h.toSameAt.lease_other hkey .., ?_⟩
  rw [lease_log_eq, h.log]
  simp [Ne.symm hkey]

theorem Shares.release (h : s.Shares key s') (tokens : Nat) (window : Int) :
    (s.release key tokens window).2.Shares key (s'.release key tokens window).2 :=
  ⟨h.toSameAt.release tokens window, h.log⟩

theorem Shares.release_other (h : s.Shares key s') (hkey : key ≠ key') (tokens : Nat) (window : Int) :
    (s.release key' tokens window).2.Shares key s' :=
  ⟨h.toSameAt.release_other hkey tokens window, h.log⟩

theorem Shares.elapse (h : s.Shares key s') (ms : Nat) : (s.elapse ms).Shares key (s'.elapse ms) :=
  ⟨h.toSameAt.elapse ms, h.log⟩

end Server

end ThatLimit
