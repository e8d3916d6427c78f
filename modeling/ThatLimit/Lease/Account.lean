import ThatLimit.Lease.Ledger
/-!
# What the instances do with their leases

The component without its tasks and maps: every instance holds at most one lot of
tokens per id, all of one grant. Lots are spent, lost, noted by a shutdown and given
back, in any order, while Redis grants further leases and its clock moves on. The
tasks of `Concurrent` are shown to be such runs.
-/
namespace ThatLimit

open Transition Tally

variable {ι IpAddr : Type}

/-- The tokens left of one grant. -/
structure Held where
  tokens : Nat
  grant : Nat
  deriving DecidableEq

structure Account (ι IpAddr : Type) where
  ledger : Ledger ι IpAddr
  held : ι × BucketId IpAddr → Option Held

inductive AccountAction (ι IpAddr : Type)
  /-- Instance `i` runs the lease script for bucket `b`. -/
  | lease (i : ι) (b : BucketId IpAddr)
  /-- The tokens of a grant reach its instance, in place of what was held before. -/
  | land (g : Nat)
  | spend (i : ι) (b : BucketId IpAddr)
  /-- Expiry, removal, a crash. -/
  | lose (i : ι) (b : BucketId IpAddr)
  /-- The shutdown snapshot of instance `i` reads bucket `b`, which it does once. -/
  | note (i : ι) (b : BucketId IpAddr)
  | release (g : Nat)
  | elapse (ms : Nat)

namespace Account

variable [DecidableEq ι] [DecidableEq IpAddr] [ToString IpAddr]

def start (now : Nat) : Account ι IpAddr := { ledger := .start now, held := fun _ => none }

def lease (s : Account ι IpAddr) (cfg : Config) (i : ι) (b : BucketId IpAddr) : Account ι IpAddr :=
  { s with ledger := (s.ledger.lease cfg i b).2 }

def land (s : Account ι IpAddr) (g : Nat) : Option (Account ι IpAddr) :=
  match s.ledger.grants[g]? with
  | some x =>
      if x.landed = false ∧ 0 < x.tokens then
        some { ledger := s.ledger.land g
               held := Function.update s.held (x.inst, x.id) (some ⟨x.tokens, g⟩) }
      else none
  | none => none

def spend (s : Account ι IpAddr) (i : ι) (b : BucketId IpAddr) : Option (Account ι IpAddr) :=
  match s.held (i, b) with
  | some ⟨t + 1, g⟩ =>
      some { ledger := s.ledger.spend g, held := Function.update s.held (i, b) (some ⟨t, g⟩) }
  | _ => none

def lose (s : Account ι IpAddr) (i : ι) (b : BucketId IpAddr) : Account ι IpAddr :=
  { s with held := Function.update s.held (i, b) none }

/-- The instance has no snapshot of the id yet. -/
def Unnoted (s : Account ι IpAddr) (i : ι) (b : BucketId IpAddr) : Prop :=
  ∀ x ∈ s.ledger.grants, x.inst = i → x.id = b → x.noted = none

instance (s : Account ι IpAddr) (i : ι) (b : BucketId IpAddr) : Decidable (s.Unnoted i b) :=
  inferInstanceAs (Decidable (∀ x ∈ s.ledger.grants, x.inst = i → x.id = b → x.noted = none))

def note (s : Account ι IpAddr) (i : ι) (b : BucketId IpAddr) : Option (Account ι IpAddr) :=
  match s.held (i, b) with
  | some h => if s.Unnoted i b then some { s with ledger := s.ledger.note h.grant h.tokens } else none
  | none => none

def release (s : Account ι IpAddr) (g : Nat) : Option (Account ι IpAddr) :=
  match s.ledger.grants[g]? with
  | some x =>
      match x.noted with
      | some t =>
          if x.released = false then some { s with ledger := (s.ledger.release g x.id t x.window).2 }
          else none
      | none => none
  | none => none

/-- A lot is the unspent part of the grant it came from. -/
def Lot (s : Account ι IpAddr) (i : ι) (b : BucketId IpAddr) (h : Held) : Prop :=
  ∃ x, s.ledger.grants[h.grant]? = some x ∧ x.inst = i ∧ x.id = b ∧ x.landed = true ∧
    h.tokens + x.spent = x.tokens

structure Valid (cfg : Config) (s : Account ι IpAddr) : Prop where
  balanced : s.ledger.Balanced cfg
  lots : ∀ i b h, s.held (i, b) = some h → s.Lot i b h
  fresh : ∀ x ∈ s.ledger.grants, x.landed = false → x.spent = 0

end Account

section System

variable [DecidableEq ι] [DecidableEq IpAddr] [ToString IpAddr]

/-- The runs of any number of instances under one config. -/
def accounts (cfg : Config) : System (Account ι IpAddr) (AccountAction ι IpAddr) where
  init s := ∃ now, s = Account.start now
  next s
    | .lease i b => some (s.lease cfg i b)
    | .land g => s.land g
    | .spend i b => s.spend i b
    | .lose i b => some (s.lose i b)
    | .note i b => s.note i b
    | .release g => s.release g
    | .elapse ms => some { s with ledger := s.ledger.elapse ms }

end System

namespace Account

variable {cfg : Config} {s s' : Account ι IpAddr}

section Cases

variable [DecidableEq ι] [DecidableEq IpAddr]

theorem land_cases {g : Nat} (h : s.land g = some s') : ∃ x, s.ledger.grants[g]? = some x ∧
    x.landed = false ∧ 0 < x.tokens ∧
    s' = { ledger := s.ledger.land g, held := Function.update s.held (x.inst, x.id) (some ⟨x.tokens, g⟩) } := by
  unfold land at h
  split at h
  · next x hx =>
      rw [Option.ite_none_right_eq_some] at h
      exact ⟨x, hx, h.1.1, h.1.2, (Option.some.inj h.2).symm⟩
  · cases h

theorem spend_cases {i : ι} {b : BucketId IpAddr} (h : s.spend i b = some s') :
    ∃ t g, s.held (i, b) = some ⟨t + 1, g⟩ ∧
      s' = { ledger := s.ledger.spend g, held := Function.update s.held (i, b) (some ⟨t, g⟩) } := by
  unfold spend at h
  split at h
  · next t g hh => exact ⟨t, g, hh, (Option.some.inj h).symm⟩
  · cases h

theorem note_cases {i : ι} {b : BucketId IpAddr} (h : s.note i b = some s') :
    ∃ l, s.held (i, b) = some l ∧ s.Unnoted i b ∧
      s' = { s with ledger := s.ledger.note l.grant l.tokens } := by
  unfold note at h
  split at h
  · next l hh =>
      rw [Option.ite_none_right_eq_some] at h
      exact ⟨l, hh, h.1, (Option.some.inj h.2).symm⟩
  · cases h

end Cases

variable [ToString IpAddr]

theorem release_cases {g : Nat} (h : s.release g = some s') :
    ∃ x t, s.ledger.grants[g]? = some x ∧ x.noted = some t ∧ x.released = false ∧
      s' = { s with ledger := (s.ledger.release g x.id t x.window).2 } := by
  unfold release at h
  split at h
  · next x hx =>
      split at h
      · next t ht =>
          rw [Option.ite_none_right_eq_some] at h
          exact ⟨x, t, hx, ht, h.1, (Option.some.inj h.2).symm⟩
      · cases h
  · cases h

theorem valid_start (cfg : Config) (now : Nat) : (start now : Account ι IpAddr).Valid cfg where
  balanced := Ledger.balanced_start cfg now
  lots := by simp [start]
  fresh := by simp [start, Ledger.start]

theorem Valid.lease (h : s.Valid cfg) (i : ι) (b : BucketId IpAddr) : (s.lease cfg i b).Valid cfg := by
  refine ⟨h.balanced.lease i b, ?_, ?_⟩
  · intro j c l hl
    obtain ⟨x, hx, hrest⟩ := h.lots j c l hl
    refine ⟨x, ?_, hrest⟩
    rcases s.ledger.lease_grants cfg i b with hg | ⟨epoch, r, hg⟩
    · exact (congrArg (·[l.grant]?) hg).trans hx
    · exact (congrArg (·[l.grant]?) hg).trans (by rw [List.getElem?_append_left (List.getElem?_eq_some_iff.mp hx).1, hx])
  · intro x hx
    rcases s.ledger.lease_grants cfg i b with hg | ⟨epoch, r, hg⟩
    · exact h.fresh x (hg ▸ hx)
    · rcases List.mem_append.mp (hg ▸ hx) with hx | hx
      · exact h.fresh x hx
      · obtain rfl := List.mem_singleton.mp hx
        exact fun _ => rfl

private theorem Valid.amend (h : s.Valid cfg) {L : Ledger ι IpAddr} (hL : L.Balanced cfg) {g : Nat}
    {f : Grant ι IpAddr → Grant ι IpAddr} (hg : L.grants = s.ledger.grants.modify g f)
    (hf : ∀ x, (f x).inst = x.inst ∧ (f x).id = x.id ∧ (f x).landed = x.landed ∧
      (f x).tokens = x.tokens ∧ (f x).spent = x.spent) : ({ s with ledger := L } : Account ι IpAddr).Valid cfg := by
  refine ⟨hL, ?_, ?_⟩
  · intro j c l hl
    obtain ⟨y, hy, hrest⟩ := h.lots j c l hl
    by_cases hgl : g = l.grant
    · refine ⟨f y, by simp [hg, hgl, hy], ?_⟩
      obtain ⟨h1, h2, h3, h4, h5⟩ := hf y
      rw [h1, h2, h3, h4, h5]
      exact hrest
    · exact ⟨y, by simp [hg, hgl, hy], hrest⟩
  · intro x hx
    refine forall_mem_modify (P := fun x => x.landed = false → x.spent = 0) h.fresh ?_ x (hg ▸ hx)
    intro y hy hl
    obtain ⟨-, -, h3, -, h5⟩ := hf y
    exact h5.trans (h.fresh y (List.mem_of_getElem? hy) (h3 ▸ hl))

theorem Valid.elapse (h : s.Valid cfg) (ms : Nat) :
    ({ s with ledger := s.ledger.elapse ms } : Account ι IpAddr).Valid cfg :=
  ⟨h.balanced.elapse ms, h.lots, h.fresh⟩

theorem Valid.release (h : s.Valid cfg) {g : Nat} (hs : s.release g = some s') : s'.Valid cfg := by
  obtain ⟨x, t, hx, ht, hr, rfl⟩ := release_cases hs
  exact h.amend (h.balanced.release hx ht hr) rfl fun _ => ⟨rfl, rfl, rfl, rfl, rfl⟩

variable [DecidableEq ι] [DecidableEq IpAddr]

theorem Valid.land (h : s.Valid cfg) {g : Nat} (hs : s.land g = some s') : s'.Valid cfg := by
  obtain ⟨x, hx, hlanded, -, rfl⟩ := land_cases hs
  refine ⟨h.balanced.land g, ?_, forall_mem_modify h.fresh fun y _ => by simp⟩
  intro j c l hl
  by_cases hjc : (j, c) = (x.inst, x.id)
  · obtain ⟨rfl, rfl⟩ := Prod.mk.inj hjc
    obtain rfl : l = ⟨x.tokens, g⟩ := by simpa using hl.symm
    have hspent := h.fresh x (List.mem_of_getElem? hx) hlanded
    exact ⟨{ x with landed := true }, by simp [Ledger.land, Ledger.amend, hx], rfl, rfl, rfl, by simp [hspent]⟩
  · obtain ⟨y, hy, hrest⟩ := h.lots j c l (by simpa [Function.update_of_ne hjc] using hl)
    have hne : g ≠ l.grant := by
      rintro rfl
      obtain rfl := Option.some.inj (hx.symm.trans hy)
      rw [hlanded] at hrest
      exact absurd hrest.2.2.1 (by simp)
    exact ⟨y, by simp [Ledger.land, Ledger.amend, hne, hy], hrest⟩

theorem Valid.spend (h : s.Valid cfg) {i : ι} {b : BucketId IpAddr} (hs : s.spend i b = some s') :
    s'.Valid cfg := by
  obtain ⟨t, g, hh, rfl⟩ := spend_cases hs
  obtain ⟨x, hx, hinst, hid, hlanded, htokens⟩ := h.lots i b _ hh
  refine ⟨h.balanced.spend hx (by simp only at htokens; omega), ?_, ?_⟩
  · intro j c l hl
    by_cases hjc : (j, c) = (i, b)
    · obtain ⟨rfl, rfl⟩ := Prod.mk.inj hjc
      obtain rfl : l = ⟨t, g⟩ := by simpa using hl.symm
      refine ⟨{ x with spent := x.spent + 1 }, by simp [Ledger.spend, Ledger.amend, hx], hinst, hid, hlanded, ?_⟩
      simp only at htokens ⊢
      omega
    · obtain ⟨y, hy, hrest⟩ := h.lots j c l (by simpa [Function.update_of_ne hjc] using hl)
      have hne : g ≠ l.grant := by
        rintro rfl
        obtain rfl := Option.some.inj (hx.symm.trans hy)
        exact hjc (Prod.ext (hrest.1.symm.trans hinst) (hrest.2.1.symm.trans hid))
      exact ⟨y, by simp [Ledger.spend, Ledger.amend, hne, hy], hrest⟩
  · refine forall_mem_modify h.fresh fun y hy hl => ?_
    obtain rfl := Option.some.inj (hx.symm.trans hy)
    simp [hlanded] at hl

theorem Valid.lose (h : s.Valid cfg) (i : ι) (b : BucketId IpAddr) : (s.lose i b).Valid cfg := by
  refine ⟨h.balanced, ?_, h.fresh⟩
  intro j c l hl
  refine h.lots j c l ?_
  by_cases hjc : (j, c) = (i, b)
  · simp [Account.lose, hjc] at hl
  · simpa [Account.lose, Function.update_of_ne hjc] using hl

theorem Valid.note (h : s.Valid cfg) {i : ι} {b : BucketId IpAddr} (hs : s.note i b = some s') :
    s'.Valid cfg := by
  obtain ⟨l, hh, hun, rfl⟩ := note_cases hs
  obtain ⟨x, hx, hinst, hid, -, htokens⟩ := h.lots i b l hh
  have hnone := hun x (List.mem_of_getElem? hx) hinst hid
  exact h.amend (h.balanced.note hx (by omega) hnone) rfl fun _ => ⟨rfl, rfl, rfl, rfl, rfl⟩

theorem Valid.next (h : s.Valid cfg) {a : AccountAction ι IpAddr}
    (hs : (accounts cfg).next s a = some s') : s'.Valid cfg := by
  cases a with
  | lease i b => cases hs; exact h.lease i b
  | land g => exact h.land hs
  | spend i b => exact h.spend hs
  | lose i b => cases hs; exact h.lose i b
  | note i b => exact h.note hs
  | release g => exact h.release hs
  | elapse ms => cases hs; exact h.elapse ms

end Account

section Results

variable [DecidableEq ι] [DecidableEq IpAddr] [ToString IpAddr] {cfg : Config} {s : Account ι IpAddr}

theorem accounts_valid (hs : Reach (accounts cfg) s) : s.Valid cfg := by
  refine ReachWhen.invariant ?_ (fun _ _ _ _ h _ hnext => h.next hnext) hs
  rintro _ ⟨now, rfl⟩
  exact Account.valid_start cfg now

/-- What the two scripts and the passage of time leave true of Redis. -/
theorem accounts_server {P : Server → Prop} (hstart : ∀ now, P (.start now))
    (hlease : ∀ (server : Server) (b : BucketId IpAddr), P server →
      P (server.lease b.toKey (cfg.policy b).leaseSize (cfg.policy b).quota (asSecs (cfg.policy b).resetIn)).2)
    (hrelease : ∀ (server : Server) key tokens window, 0 ≤ window → P server → P (server.release key tokens window).2)
    (helapse : ∀ (server : Server) ms, P server → P (server.elapse ms)) (hs : Reach (accounts cfg) s) :
    P s.ledger.server := by
  apply ReachWhen.invariant (I := fun s => P s.ledger.server) _ _ hs
  · rintro _ ⟨now, rfl⟩
    exact hstart now
  · intro s a s' hr h _ hnext
    cases a with
    | lease i b =>
        cases hnext
        have hscript := hlease s.ledger.server b h
        show P (s.ledger.lease cfg i b).2.server
        unfold Ledger.lease
        split
        all_goals
          next hl => rwa [hl] at hscript
    | land g =>
        obtain ⟨x, -, -, -, rfl⟩ := Account.land_cases hnext
        exact h
    | spend i b =>
        obtain ⟨t, g, -, rfl⟩ := Account.spend_cases hnext
        exact h
    | lose i b =>
        cases hnext
        exact h
    | note i b =>
        obtain ⟨l, -, -, rfl⟩ := Account.note_cases hnext
        exact h
    | release g =>
        obtain ⟨x, t, hx, -, -, rfl⟩ := Account.release_cases hnext
        have hsound := (accounts_valid hr.reach).balanced.sound x (List.mem_of_getElem? hx)
        exact hrelease _ _ _ _ hsound.window_nonneg h
    | elapse ms =>
        cases hnext
        exact helapse _ ms h

theorem accounts_expiry (hs : Reach (accounts cfg) s) : ∀ (b : BucketId IpAddr) e, s.ledger.server.db b.toKey = some e →
    ∃ w, e.expireAt = some w ∧ w ≤ s.ledger.server.now + asSecs (cfg.policy b).resetIn * 1000 := by
  apply accounts_server (P := fun server => ∀ (b : BucketId IpAddr) e, server.db b.toKey = some e →
    ∃ w, e.expireAt = some w ∧ w ≤ server.now + asSecs (cfg.policy b).resetIn * 1000) _ _ _ _ hs
  · intro now b e he
    cases he
  · intro server b' h b e he
    rw [Server.lease_now]
    obtain ⟨reply, hs | ⟨-, -, hs⟩ | ⟨e₀, hf, -, hs⟩⟩ := server.lease_effect b'.toKey (cfg.policy b').leaseSize
      (cfg.policy b').quota (asSecs (cfg.policy b').resetIn)
    · rw [hs] at he
      exact h b e he
    · rw [hs] at he
      rcases Db.set_eq_some_iff.mp he with ⟨hkey, rfl⟩ | ⟨-, hold⟩
      · exact ⟨_, rfl, by rw [cfg.policy_congr hkey]⟩
      · exact h b e hold
    · rw [hs] at he
      rcases Db.set_eq_some_iff.mp he with ⟨hkey, rfl⟩ | ⟨-, hold⟩
      · exact h b e₀ (hkey ▸ (Db.find_eq_some_iff.mp hf).1)
      · exact h b e hold
  · intro server key tokens window hw h b e he
    rcases server.release_cases key tokens hw with ⟨e₀, hf, -, hr⟩ | ⟨-, hr⟩
    · rw [hr] at he
      rcases Db.set_eq_some_iff.mp he with ⟨hkey, rfl⟩ | ⟨-, hold⟩
      · rw [hr]
        exact h b e₀ (hkey ▸ (Db.find_eq_some_iff.mp hf).1)
      · rw [hr]
        exact h b e hold
    · rw [hr] at he ⊢
      exact h b e he
  · intro server ms h b e he
    obtain ⟨w, hw, hle⟩ := h b e he
    exact ⟨w, hw, by simp only [Server.elapse]; omega⟩

theorem grant_le_leaseSize (hs : Reach (accounts cfg) s) :
    ∀ x ∈ s.ledger.grants, x.tokens ≤ (cfg.policy x.id).leaseSize := by
  apply ReachWhen.invariant (I := fun s : Account ι IpAddr => ∀ x ∈ s.ledger.grants, x.tokens ≤ (cfg.policy x.id).leaseSize)
    _ _ hs
  · rintro _ ⟨now, rfl⟩
    simp [Account.start, Ledger.start]
  · intro s a s' _ h _ hnext
    cases a with
    | lease i b =>
        cases hnext
        intro x hx
        rcases Ledger.mem_lease_grants hx with hold | ⟨rfl, hle⟩
        · exact h x hold
        · exact hle
    | land g =>
        obtain ⟨x, -, -, -, rfl⟩ := Account.land_cases hnext
        exact forall_mem_modify h fun y hy => h y (List.mem_of_getElem? hy)
    | spend i b =>
        obtain ⟨t, g, -, rfl⟩ := Account.spend_cases hnext
        exact forall_mem_modify h fun y hy => h y (List.mem_of_getElem? hy)
    | lose i b =>
        cases hnext
        exact h
    | note i b =>
        obtain ⟨l, -, -, rfl⟩ := Account.note_cases hnext
        exact forall_mem_modify h fun y hy => h y (List.mem_of_getElem? hy)
    | release g =>
        obtain ⟨x, t, -, -, -, rfl⟩ := Account.release_cases hnext
        exact forall_mem_modify h fun y hy => h y (List.mem_of_getElem? hy)
    | elapse ms =>
        cases hnext
        exact h

/-- While a key is live it holds the quota less the tokens leased in its window plus the tokens
released into it, stays within the quota and keeps the expiry its window opened with. A lease
hands out what is there up to `lease_size`, and all of `lease_size` when it opens the window. -/
theorem redis_accounts_for_leases (hs : Reach (accounts cfg) s) (b : BucketId IpAddr) :
    (∀ e, s.ledger.server.find b.toKey = some e →
      e.value = (cfg.policy b).quota - (s.ledger.leased b.toKey (s.ledger.server.epoch b.toKey) : Int) +
        s.ledger.returned b.toKey (s.ledger.server.epoch b.toKey) ∧
      0 ≤ e.value ∧ e.value ≤ (cfg.policy b).quota ∧
      e.expireAt = some (s.ledger.server.opened b.toKey)) ∧
    (∀ i r L, s.ledger.lease cfg i b = (.ok r, L) → r.leased =
      match s.ledger.server.find b.toKey with
      | some e => min ((cfg.policy b).leaseSize : Int) e.value
      | none => (cfg.policy b).leaseSize) := by
  have h := (accounts_valid hs).balanced
  have hstored : ∀ e, s.ledger.server.find b.toKey = some e → _ := fun e hf =>
    h.stored b e (Db.find_eq_some_iff.mp hf).1
  constructor
  · intro e hf
    obtain ⟨w, hw, how, hvalue, hpos, -⟩ := hstored e hf
    have hle := Ledger.returned_le_leased h.sound b.toKey (s.ledger.server.epoch b.toKey)
    exact ⟨by omega, hpos, by omega, by rw [hw, how]⟩
  · intro i r L hl
    obtain ⟨server, hserver, -⟩ := Ledger.lease_ok hl
    rcases Server.lease_cases hserver with ⟨hf, -, rfl, -⟩ | ⟨e, hf, hv, rfl, -⟩ | ⟨e, hf, hv, rfl, -⟩
    · simp only [hf]
    · obtain ⟨-, -, -, -, hpos, -⟩ := hstored e hf
      simp only [hf]
      rw [min_eq_right (by omega)]
      omega
    · simp only [hf]
      exact min_comm _ _

/-- Two instances lease 2000 each of the default quota of 10000. -/
theorem redis_accounts_for_two_leases :
    let b : BucketId String := .protectedSub "valera"
    let s := ((Account.start 0).lease Config.default 0 b).lease Config.default 1 b
    s.ledger.leased b.toKey (s.ledger.server.epoch b.toKey) = 4000 ∧ ∀ e, s.ledger.server.find b.toKey = some e →
      e.value = (Config.default.policy b).quota - (s.ledger.leased b.toKey (s.ledger.server.epoch b.toKey) : Int) +
        s.ledger.returned b.toKey (s.ledger.server.epoch b.toKey) := by
  intro b s
  have hstart : Reach (accounts Config.default) (Account.start 0 : Account Nat String) := .init ⟨0, rfl⟩
  have hs : Reach (accounts Config.default) s := hstart.exec [.lease 0 b, .lease 1 b] rfl
  exact ⟨by decide, fun e he => ((redis_accounts_for_leases hs b).1 e he).1⟩

end Results

/-- What the release of the grant's snapshot put back. -/
def Grant.putBack (x : Grant ι IpAddr) : Nat :=
  match x.returned with
  | some (_, tokens) => tokens
  | none => 0

section Shutdown

variable [DecidableEq ι] [DecidableEq IpAddr] [ToString IpAddr] {cfg : Config} {s s' : Account ι IpAddr}

/-- No token is spent of a grant that a snapshot has noted. -/
def SpendsUnnoted (s : Account ι IpAddr) : AccountAction ι IpAddr → Prop
  | .spend i b => ∀ l x, s.held (i, b) = some l → s.ledger.grants[l.grant]? = some x → x.noted = none
  | _ => True

/-- What was noted of a grant has not been spent. -/
def Frozen (s : Account ι IpAddr) : Prop := ∀ x ∈ s.ledger.grants, ∀ t, x.noted = some t → x.spent + t ≤ x.tokens

theorem Frozen.next {a : AccountAction ι IpAddr} (h : Frozen s) (hv : s.Valid cfg) (hg : SpendsUnnoted s a)
    (hs : (accounts cfg).next s a = some s') : Frozen s' := by
  cases a with
  | lease i b =>
      cases hs
      intro x hx
      rcases s.ledger.lease_grants cfg i b with hgrants | ⟨epoch, r, hgrants⟩
      · exact h x (hgrants ▸ hx)
      · rcases List.mem_append.mp (hgrants ▸ hx) with hx | hx
        · exact h x hx
        · obtain rfl := List.mem_singleton.mp hx
          simp [Grant.new]
  | land g =>
      obtain ⟨x, hx, -, -, rfl⟩ := Account.land_cases hs
      exact forall_mem_modify h fun y hy => h y (List.mem_of_getElem? hy)
  | spend i b =>
      obtain ⟨t, g, hh, rfl⟩ := Account.spend_cases hs
      refine forall_mem_modify h fun y hy t' ht' => ?_
      have hnone : y.noted = none := hg ⟨t + 1, g⟩ y hh hy
      rw [hnone] at ht'
      cases ht'
  | lose i b => cases hs; exact h
  | note i b =>
      obtain ⟨l, hh, -, rfl⟩ := Account.note_cases hs
      obtain ⟨x, hx, -, -, -, htokens⟩ := hv.lots i b l hh
      refine forall_mem_modify h fun y hy t ht => ?_
      obtain rfl := Option.some.inj (hx.symm.trans hy)
      obtain rfl : l.tokens = t := Option.some.inj ht
      simp only
      omega
  | release g =>
      obtain ⟨x, t, hx, -, -, rfl⟩ := Account.release_cases hs
      exact forall_mem_modify h fun y hy => h y (List.mem_of_getElem? hy)
  | elapse ms => cases hs; exact h

/-- As long as nothing is spent that was noted, a grant gives no token twice. -/
theorem spent_and_putBack (hs : ReachWhen (accounts cfg) SpendsUnnoted s) {x : Grant ι IpAddr}
    (hx : x ∈ s.ledger.grants) : x.spent + x.putBack ≤ x.tokens := by
  have hf : Frozen s := by
    refine ReachWhen.invariant ?_ (fun _ _ _ hr h hg hnext => h.next (accounts_valid hr.reach) hg hnext) hs
    rintro _ ⟨now, rfl⟩
    simp [Frozen, Account.start, Ledger.start]
  have hsound := (accounts_valid hs.reach).balanced.sound x hx
  unfold Grant.putBack
  split
  · next epoch t hr => exact hf x hx t (hsound.returned_eq _ _ hr).2
  · exact hsound.spent_le

/-- What a snapshot has not noted of a grant has been spent. -/
theorem noted_covers (hs : Reach (accounts cfg) s) {x : Grant ι IpAddr} (hx : x ∈ s.ledger.grants) {t : Nat}
    (ht : x.noted = some t) : x.tokens ≤ x.spent + t := by
  have hall : ∀ x ∈ s.ledger.grants, ∀ t, x.noted = some t → x.tokens ≤ x.spent + t := by
    refine ReachWhen.invariant (I := fun s => ∀ x ∈ s.ledger.grants, ∀ t, x.noted = some t → x.tokens ≤ x.spent + t)
      ?_ ?_ hs
    · rintro _ ⟨now, rfl⟩
      simp [Account.start, Ledger.start]
    · intro s a s' hr h _ hnext
      cases a with
      | lease i b =>
          cases hnext
          intro x hx
          rcases s.ledger.lease_grants cfg i b with hgrants | ⟨epoch, r, hgrants⟩
          · exact h x (hgrants ▸ hx)
          · rcases List.mem_append.mp (hgrants ▸ hx) with hx | hx
            · exact h x hx
            · obtain rfl := List.mem_singleton.mp hx
              simp [Grant.new]
      | land g =>
          obtain ⟨x, hx, -, -, rfl⟩ := Account.land_cases hnext
          exact forall_mem_modify h fun y hy => h y (List.mem_of_getElem? hy)
      | spend i b =>
          obtain ⟨t, g, hh, rfl⟩ := Account.spend_cases hnext
          refine forall_mem_modify h fun y hy t' ht' => ?_
          have hold := h y (List.mem_of_getElem? hy) t' ht'
          simp only
          omega
      | lose i b => cases hnext; exact h
      | note i b =>
          obtain ⟨l, hh, -, rfl⟩ := Account.note_cases hnext
          obtain ⟨x, hx, -, -, -, htokens⟩ := (accounts_valid hr.reach).lots i b l hh
          refine forall_mem_modify h fun y hy t ht => ?_
          obtain rfl := Option.some.inj (hx.symm.trans hy)
          obtain rfl : l.tokens = t := Option.some.inj ht
          simp only
          omega
      | release g =>
          obtain ⟨x, t, hx, -, -, rfl⟩ := Account.release_cases hnext
          exact forall_mem_modify h fun y hy => h y (List.mem_of_getElem? hy)
      | elapse ms => cases hnext; exact h
  exact hall x hx t ht

end Shutdown

end ThatLimit
