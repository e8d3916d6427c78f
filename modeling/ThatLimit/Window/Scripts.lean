import ThatLimit.Core.Range
import ThatLimit.Framework.Transition
/-!
# Windows of a key

Any number of callers run the two scripts on the numbers of Redis, with whatever policies, tokens
and windows, while the Redis clock moves on. A key gets its next window only after the expiry of
the one before and for a second at least, so the expiry times of its windows are more than a second
apart. Lua tells such times apart below 2^62, and a release finds the expiry it carries only while
the window of its lease is open.
-/
namespace ThatLimit

open Transition

inductive ScriptAction
  | lease (key : String) (p : Policy)
  | release (key : String) (tokens : Nat) (window : Int)
  | elapse (ms : Nat)

/-- Runs of the scripts from an empty Redis. No lease names the window -2, which is the reply for a
key that is not there. -/
def scripts : System Server ScriptAction where
  init s := ∃ now, s = Server.start now
  next s
    | .lease key p => some (s.leaseChecked key p.leaseSize p.quota (asSecs p.resetIn)).2
    | .release key tokens window => if window ≠ -2 then some (s.releaseChecked key tokens window).2 else none
    | .elapse ms => some (s.elapse ms)

section Entries

variable {guard : Server → ScriptAction → Prop} {s : Server}

/-- What holds of the entries of new windows, and stays true when the count changes and time goes by, holds
of all entries. -/
theorem scripts_entries {P : Nat → Entry → Prop}
    (hopen : ∀ s key p, guard s (.lease key p) → 0 < double (asSecs p.resetIn) →
      double (asSecs p.resetIn) * 1000 + s.now < 2 ^ 63 →
      P s.now ⟨doubleInt (double p.quota - double p.leaseSize), some (s.now + double (asSecs p.resetIn) * 1000)⟩)
    (hvalue : ∀ now e value, P now e → FitsI64 value → P now { e with value })
    (hlater : ∀ now e ms, P now e → P (now + ms) e) (hs : ReachWhen scripts guard s) :
    ∀ key e, s.db key = some e → P s.now e := by
  refine ReachWhen.invariant (I := fun s => ∀ key e, s.db key = some e → P s.now e) ?_ ?_ hs
  · rintro _ ⟨now, rfl⟩ key e he
    simp [Server.start] at he
  · intro s a s' _ h hg hnext
    have hold {key : String} {e : Entry} (hf : s.find key = some e) : P s.now e := h key e (Db.find_eq_some_iff.mp hf).1
    cases a with
    | lease key p =>
        cases hnext
        obtain ⟨reply, hs | ⟨-, hpos, hrange, hs⟩ | ⟨e, hf, -, hleft, hs⟩⟩ :=
          s.leaseChecked_effect key p.leaseSize p.quota (asSecs p.resetIn)
        · rw [hs]
          exact h
        · rw [hs]
          exact Db.forall_set h key (hopen s key p hg hpos hrange)
        · rw [hs]
          exact Db.forall_set h key (hvalue _ _ _ (hold hf) hleft)
    | release key tokens window =>
        simp only [scripts, Option.ite_none_right_eq_some] at hnext
        obtain ⟨hw, hnext⟩ := hnext
        cases hnext
        rcases s.releaseChecked_effect key tokens hw with hs | ⟨e, hf, hsum, hs⟩
        · rw [hs]
          exact h
        · rw [hs]
          exact Db.forall_set h key (hvalue _ _ _ (hold hf) hsum)
    | elapse ms =>
        cases hnext
        exact fun key e he => hlater _ _ _ (h key e he)

end Entries

/-- The count has not fallen out of the 64 bits, and there is an expiry within them. -/
def Entry.Timed (e : Entry) : Prop := -2 ^ 63 ≤ e.value ∧ ∃ w : Nat, e.expireAt = some w ∧ w < 2 ^ 63

theorem scripts_timed {s : Server} (hs : Reach scripts s) {key : String} {e : Entry} (hf : s.find key = some e) :
    e.Timed := by
  refine scripts_entries (P := fun _ e => e.Timed) ?_ ?_ (fun _ _ _ h => h) hs key e (Db.find_eq_some_iff.mp hf).1
  · intro s key p _ _ hrange
    have hle := double_mono p.leaseSize_le
    refine ⟨?_, _, rfl, by omega⟩
    rw [show (double p.quota - double p.leaseSize : Int) = (double p.quota - double p.leaseSize : Nat) by omega,
      doubleInt_natCast]
    simp only
    omega
  · intro now e value h hfits
    exact ⟨hfits.1, h.2⟩

namespace Server

/-- What is left of the lease that was given window `w` when the key had had `k` windows:
the key's last expiry is still `w`, or the key has had more windows and the last expires later. -/
def Outlived (key : String) (k w : Nat) (s : Server) : Prop :=
  ∃ e w', s.db key = some e ∧ e.expireAt = some w' ∧
    (s.epoch key = k ∧ w' = w ∨ k < s.epoch key ∧ w + 1000 < w')

variable {s s' : Server} {key : String} {k w : Nat}

/-- One lease script gives the key at most one more window, and only past the last expiry. -/
theorem Outlived.lease (h : s.Outlived key k w) (key' : String) (leaseSize quota ttl : Nat) :
    (s.leaseChecked key' leaseSize quota ttl).2.Outlived key k w := by
  obtain ⟨e, w', he, hw', hk⟩ := h
  obtain ⟨reply, hs | ⟨hf, httl, -, hs⟩ | ⟨e', hf, -, -, hs⟩⟩ := s.leaseChecked_effect key' leaseSize quota ttl
  · rw [hs]
    exact ⟨e, w', he, hw', hk⟩
  · rw [hs]
    by_cases hkey : key = key'
    · subst hkey
      have hpast := past_of_find_none hf he hw'
      refine ⟨_, s.now + double ttl * 1000, Db.set_self _ _ _, rfl, .inr ?_⟩
      simp only [Function.update_self]
      omega
    · refine ⟨e, w', (Db.set_ne _ _ hkey).trans he, hw', ?_⟩
      simpa [hkey] using hk
  · rw [hs]
    by_cases hkey : key = key'
    · subst hkey
      obtain rfl : e' = e := Option.some.inj ((Db.find_eq_some_iff.mp hf).1.symm.trans he)
      exact ⟨_, w', Db.set_self _ _ _, hw', hk⟩
    · exact ⟨e, w', (Db.set_ne _ _ hkey).trans he, hw', hk⟩

theorem Outlived.release (h : s.Outlived key k w) (key' : String) (tokens : Nat) {window : Int} (hwin : window ≠ -2) :
    (s.releaseChecked key' tokens window).2.Outlived key k w := by
  obtain ⟨e, w', he, hw', hk⟩ := h
  rcases s.releaseChecked_effect key' tokens hwin with hs | ⟨e', hf, -, hs⟩
  · rw [hs]
    exact ⟨e, w', he, hw', hk⟩
  · rw [hs]
    by_cases hkey : key = key'
    · subst hkey
      obtain rfl : e' = e := Option.some.inj ((Db.find_eq_some_iff.mp hf).1.symm.trans he)
      exact ⟨_, w', Db.set_self _ _ _, hw', hk⟩
    · exact ⟨e, w', (Db.set_ne _ _ hkey).trans he, hw', hk⟩

theorem Outlived.exec (h : s.Outlived key k w) {as : List ScriptAction} (he : ThatLimit.scripts.exec s as = some s') :
    s'.Outlived key k w := by
  refine System.exec_invariant ?_ h he
  intro t a t' ht hnext
  cases a with
  | lease key' p =>
      cases hnext
      exact ht.lease key' _ _ _
  | release key' tokens window =>
      simp only [ThatLimit.scripts, Option.ite_none_right_eq_some] at hnext
      obtain ⟨hwin, hnext⟩ := hnext
      cases hnext
      exact ht.release key' tokens hwin
  | elapse ms =>
      cases hnext
      exact ht

theorem leaseChecked_window {p : Policy} (hs : Reach ThatLimit.scripts s) {r : LeaseReply}
    (h : s.leaseChecked key p.leaseSize p.quota (asSecs p.resetIn) = (.ok r, s')) :
    ∃ e w, s'.find key = some e ∧ e.expireAt = some w ∧ w < 2 ^ 63 ∧ r.window = longLong (double w) := by
  have hexpiry {e : Entry} (hf : s.find key = some e) :
      ∃ w : Nat, e.expireAt = some w ∧ w < 2 ^ 63 ∧ e.pexpiretime = w := by
    obtain ⟨-, w, hw, hrange⟩ := scripts_timed hs hf
    exact ⟨w, hw, hrange, by simp [Entry.pexpiretime, hw]⟩
  rcases leaseChecked_cases h with ⟨-, -, hrange, rfl, rfl⟩ | ⟨e, hf, -, rfl, rfl⟩ | ⟨e, hf, -, -, -, rfl, rfl⟩
  · exact ⟨_, s.now + double (asSecs p.resetIn) * 1000, Db.find_set_of_live _ _ (by simp [Entry.live]), rfl, by omega,
      by simp only [LeaseReply.ofLua, doubleInt_natCast]⟩
  · obtain ⟨w, hw, hrange, hname⟩ := hexpiry hf
    exact ⟨e, w, hf, hw, hrange, by rw [LeaseReply.ofLua, hname, doubleInt_natCast]⟩
  · obtain ⟨w, hw, hrange, hname⟩ := hexpiry hf
    have hlive := (Db.find_eq_some_iff.mp hf).2
    exact ⟨_, w, Db.find_set_of_live _ _ hlive, hw, hrange, by rw [LeaseReply.ofLua, hname, doubleInt_natCast]⟩

/-- The window in which a lease left the server in state `s` is still open in the later state `t`:
the key is live and no newer window was opened. -/
def StillOpen (s t : Server) (key : String) : Prop := (t.find key).isSome ∧ t.epoch key = s.epoch key

/-- A release of `tokens` in state `t`, for a lease that left the server in state `s`: it adds them to the
window of the lease and tells so, or changes nothing and tells so. -/
def Returns (s t : Server) (key : String) (tokens : Nat) (window : Int) : Prop :=
  (s.StillOpen t key → ∃ e, t.find key = some e ∧ t.releaseChecked key tokens window =
    (.ok true, { t with db := t.db.set key { e with value := e.value + tokens } })) ∧
  (¬s.StillOpen t key → t.releaseChecked key tokens window = (.ok false, t))

theorem not_returns_of_open {s t : Server} {key : String} {tokens : Nat} {window : Int} (hopen : s.StillOpen t key)
    (h : (t.releaseChecked key tokens window).2.find key ≠
      (t.find key).map fun e => { e with value := e.value + tokens }) : ¬s.Returns t key tokens window := by
  intro hreturns
  obtain ⟨e, hf, hr⟩ := hreturns.1 hopen
  rw [hr, hf] at h
  exact h (Db.find_set_of_live _ _ (Db.find_eq_some_iff.mp hf).2)

/-- There is room for the tokens in the counter of the key, and its expiry is not too late for Lua. -/
def HasRoom (s : Server) (key : String) (tokens : Nat) : Prop :=
  ∀ e, s.find key = some e → e.value + tokens < 2 ^ 63 ∧ ∀ w, e.expireAt = some w → w < 2 ^ 62

end Server

section Results

variable {s s₁ s₂ : Server} {key : String} {p : Policy} {r : LeaseReply} {as : List ScriptAction}

/-- A key that is live later on is in the window of the lease, or in one that expires more than a second later. -/
theorem lease_is_outlived (hs : Reach scripts s)
    (hl : s.leaseChecked key p.leaseSize p.quota (asSecs p.resetIn) = (.ok r, s₁)) (he : scripts.exec s₁ as = some s₂) :
    ∃ e₁ w, s₁.find key = some e₁ ∧ e₁.expireAt = some w ∧ r.window = longLong (double w) ∧ r.window ≠ -2 ∧
      ∀ e, s₂.find key = some e → ∃ w' : Nat, e.expireAt = some w' ∧
        (s₂.epoch key = s₁.epoch key ∧ w' = w ∨ s₁.epoch key < s₂.epoch key ∧ w + 1000 < w') := by
  obtain ⟨e₁, w, hf₁, hw, hrange, hr⟩ := Server.leaseChecked_window hs hl
  have hout : s₁.Outlived key (s₁.epoch key) w := ⟨e₁, w, (Db.find_eq_some_iff.mp hf₁).1, hw, .inl ⟨rfl, rfl⟩⟩
  obtain ⟨e', w', hdb, hw', hk⟩ := hout.exec he
  refine ⟨e₁, w, hf₁, hw, hr, hr ▸ longLong_double_ne_neg_two hrange, fun e hf => ?_⟩
  obtain rfl : e' = e := Option.some.inj (hdb.symm.trans (Db.find_eq_some_iff.mp hf).1)
  exact ⟨w', hw', hk⟩

theorem named_iff (hs : Reach scripts s) (hl : s.leaseChecked key p.leaseSize p.quota (asSecs p.resetIn) = (.ok r, s₁))
    (he : scripts.exec s₁ as = some s₂) {e : Entry} (hf : s₂.find key = some e)
    (hrange : ∀ w, e.expireAt = some w → w < 2 ^ 62) :
    doubleInt e.pexpiretime = doubleInt r.window ↔ s₂.epoch key = s₁.epoch key := by
  obtain ⟨e₁, w, -, -, hr, -, hout⟩ := lease_is_outlived hs hl he
  obtain ⟨w', hw', hk⟩ := hout e hf
  have hrange := hrange w' hw'
  have hle : double w ≤ 2 ^ 62 := by
    have hmono := double_mono (show w ≤ 2 ^ 62 by omega)
    rwa [show double (2 ^ 62) = 2 ^ 62 by decide] at hmono
  rw [hr, longLong_of_fits ⟨by omega, by omega⟩, doubleInt_double, Entry.pexpiretime_eq hw', doubleInt_natCast]
  rcases hk with ⟨hepoch, rfl⟩ | ⟨hepoch, hfar⟩
  · simp [hepoch]
  · have hlt : double w < double w' := double_lt_of_far (by omega) hrange
    omega

theorem returns_of_hasRoom (hs : Reach scripts s)
    (hl : s.leaseChecked key p.leaseSize p.quota (asSecs p.resetIn) = (.ok r, s₁)) (he : scripts.exec s₁ as = some s₂)
    {tokens : Nat} (htokens : tokens ≤ 2 ^ 53) (hroom : s₂.HasRoom key tokens) :
    s₁.Returns s₂ key tokens r.window := by
  obtain ⟨-, -, -, -, -, hnot, -⟩ := lease_is_outlived hs hl he
  have hs₂ : Reach scripts s₂ :=
    Reach.exec (.step (a := .lease key p) hs trivial (congrArg some (congrArg Prod.snd hl))) as he
  have hnamed {e : Entry} (hf : s₂.find key = some e) := named_iff hs hl he hf (hroom e hf).2
  constructor
  · rintro ⟨hlive, hepoch⟩
    obtain ⟨e, hf⟩ := Option.isSome_iff_exists.mp hlive
    have hlow := (scripts_timed hs₂ hf).1
    have hhigh := (hroom e hf).1
    have hfits : FitsI64 tokens ∧ FitsI64 e.value ∧ FitsI64 (e.value + tokens) :=
      ⟨⟨by omega, by omega⟩, ⟨by omega, by omega⟩, ⟨by omega, by omega⟩⟩
    refine ⟨e, hf, ?_⟩
    rcases s₂.releaseChecked_cases key tokens hnot with ⟨e', hf', -, -, -, -, hrelease⟩ |
      ⟨e', message, hf', -, hno, -⟩ | ⟨hne, -⟩
    · obtain rfl := Option.some.inj (hf.symm.trans hf')
      rwa [double_of_le htokens] at hrelease
    · obtain rfl := Option.some.inj (hf.symm.trans hf')
      rw [double_of_le htokens] at hno
      exact absurd hfits hno
    · exact absurd ((hnamed hf).mpr hepoch) (hne e hf)
  · intro hclosed
    rcases s₂.releaseChecked_cases key tokens hnot with ⟨e, hf, hname, -⟩ | ⟨e, message, hf, hname, -⟩ | ⟨-, hrelease⟩
    · exact absurd ⟨by simp [hf], (hnamed hf).mp hname⟩ hclosed
    · exact absurd ⟨by simp [hf], (hnamed hf).mp hname⟩ hclosed
    · exact hrelease

theorem live_of_release (hs : Reach scripts s) (tokens : Nat) {window : Int} (hw : window ≠ -2) {key' : String}
    {e : Entry} (hf : (s.releaseChecked key tokens window).2.find key' = some e) :
    (s.find key').isSome ∧ e.expireAt.isSome := by
  have hexpiry {key : String} {e : Entry} (hf : s.find key = some e) : e.expireAt.isSome = true := by
    obtain ⟨-, w, hw, -⟩ := scripts_timed hs hf
    rw [hw]
    rfl
  rcases s.releaseChecked_effect key tokens hw with hsame | ⟨e', hf', -, hs'⟩
  · rw [hsame] at hf
    exact ⟨by simp [hf], hexpiry hf⟩
  · rw [hs'] at hf
    by_cases hkey : key' = key
    · subst hkey
      obtain rfl := Option.some.inj ((Db.set_self ..).symm.trans (Db.find_eq_some_iff.mp hf).1)
      have hexpire : e'.expireAt.isSome := hexpiry hf'
      exact ⟨by simp [hf'], hexpire⟩
    · have hold : s.find key' = some e := (Db.find_set_ne _ _ _ hkey).symm.trans hf
      exact ⟨by simp [hold], hexpiry hold⟩

/-- With tokens that Lua can count and room for them in Redis, a release reaches the window of its lease while that
is open, and otherwise changes nothing. Two windows of a key never expire at the same time, and a release makes no key
live and none without expiry. -/
theorem release_reaches_its_window (hs : Reach scripts s)
    (hl : s.leaseChecked key p.leaseSize p.quota (asSecs p.resetIn) = (.ok r, s₁)) (he : scripts.exec s₁ as = some s₂) :
    (∀ tokens ≤ 2 ^ 53, s₂.HasRoom key tokens → s₁.Returns s₂ key tokens r.window) ∧
    (∀ e₁ e₂, s₁.find key = some e₁ → s₂.find key = some e₂ →
      (e₁.pexpiretime = e₂.pexpiretime ↔ s₁.epoch key = s₂.epoch key)) ∧
    ∀ tokens key' e, (s₂.releaseChecked key tokens r.window).2.find key' = some e →
      (s₂.find key').isSome ∧ e.expireAt.isSome := by
  refine ⟨fun tokens htokens => returns_of_hasRoom hs hl he htokens, fun e₁ e₂ hf₁ hf₂ => ?_, fun tokens key' e hf => ?_⟩
  · obtain ⟨e, w, hf, hw, -, -, hout⟩ := lease_is_outlived hs hl he
    obtain rfl := Option.some.inj (hf.symm.trans hf₁)
    obtain ⟨w', hw', hk⟩ := hout e₂ hf₂
    rw [Entry.pexpiretime_eq hw, Entry.pexpiretime_eq hw']
    omega
  · obtain ⟨-, -, -, -, -, hnot, -⟩ := lease_is_outlived hs hl he
    have hs₂ : Reach scripts s₂ :=
      Reach.exec (.step (a := .lease key p) hs trivial (congrArg some (congrArg Prod.snd hl))) as he
    exact live_of_release hs₂ tokens hnot hf

/-- A policy with windows of one second. -/
def briefly (quota leaseSize : Nat) (hpos : 1 ≤ leaseSize := by decide) (hle : leaseSize ≤ quota := by decide) : Policy :=
  { criteria := .sub, quota, leaseSize, resetIn := fromSecs 1, leaseSize_pos := hpos, leaseSize_le := hle }

/-- A window of one second is over after 1100 ms; the tokens do not reach the next one. -/
theorem release_misses_newer_window :
    let p := briefly 100 10
    let s₁ := ((Server.start 0).leaseChecked "sub:valera" p.leaseSize p.quota (asSecs p.resetIn)).2
    let s₂ := ((s₁.elapse 1100).leaseChecked "sub:valera" p.leaseSize p.quota (asSecs p.resetIn)).2
    s₂.releaseChecked "sub:valera" 10 1000 = (.ok false, s₂) := by
  intro p s₁ s₂
  have hs : Reach scripts (Server.start 0) := .init ⟨0, rfl⟩
  have hl : (Server.start 0).leaseChecked "sub:valera" p.leaseSize p.quota (asSecs p.resetIn) =
      (.ok ⟨10, 1000, 1000⟩, s₁) := Prod.ext (by decide +kernel) rfl
  have he : scripts.exec s₁ [.elapse 1100, .lease "sub:valera" p] = some s₂ := rfl
  have hroom : s₂.HasRoom "sub:valera" 10 := by
    intro e hf
    have hkey : s₂.find "sub:valera" = some ⟨90, some 2100⟩ := by decide +kernel
    obtain rfl := Option.some.inj (hkey.symm.trans hf)
    exact ⟨by decide, by simp⟩
  have hnewer : ¬s₁.StillOpen s₂ "sub:valera" := fun h => absurd h.2 (by decide +kernel)
  exact ((release_reaches_its_window hs hl he).1 10 (by decide) hroom).2 hnewer

/-- What goes wrong without these bounds. An odd number of tokens above `2 ^ 53` is rounded by Lua. A counter near the
end of its 64 bits refuses the tokens. Past `2 ^ 62` two windows of one second can have one name in Lua, and the second
gets the tokens of the first. -/
theorem releases_go_astray :
    (∃ s₁, (Server.start 0).leaseChecked "sub:valera" (2 ^ 53 + 2) (2 ^ 53 + 2) 1 = (.ok ⟨2 ^ 53 + 2, 1000, 1000⟩, s₁) ∧
      s₁.find "sub:valera" = some ⟨0, some 1000⟩ ∧
      (s₁.releaseChecked "sub:valera" (2 ^ 53 + 1) 1000).2.find "sub:valera" = some ⟨2 ^ 53, some 1000⟩ ∧
      ¬s₁.Returns s₁ "sub:valera" (2 ^ 53 + 1) 1000) ∧
    (∃ s₁, (Server.start 0).leaseChecked "sub:valera" 1 (2 ^ 62) 1 = (.ok ⟨1, 1000, 1000⟩, s₁) ∧
      (s₁.releaseChecked "sub:valera" (2 ^ 62) 1000).1 =
        .error (.response "ERR increment or decrement would overflow") ∧
      ¬s₁.Returns s₁ "sub:valera" (2 ^ 62) 1000) ∧
    ∃ s₁ s₂, (Server.start (2 ^ 62 - 487)).leaseChecked "sub:valera" 10 100 1 =
        (.ok ⟨10, 1000, 2 ^ 62 + 1024⟩, s₁) ∧
      (s₁.elapse 1001).leaseChecked "sub:valera" 10 100 1 = (.ok ⟨10, 1000, 2 ^ 62 + 1024⟩, s₂) ∧
      s₂.find "sub:valera" = some ⟨90, some (2 ^ 62 + 1514)⟩ ∧
      (s₂.releaseChecked "sub:valera" 5 (2 ^ 62 + 1024)).2.find "sub:valera" = some ⟨95, some (2 ^ 62 + 1514)⟩ ∧
      ¬s₁.Returns s₂ "sub:valera" 5 (2 ^ 62 + 1024) := by
  refine ⟨?odd, ?full, ?late⟩
  case odd =>
    refine ⟨_, Prod.ext (by decide +kernel) rfl, by decide +kernel, by decide +kernel, ?_⟩
    exact Server.not_returns_of_open ⟨by decide +kernel, rfl⟩ (by decide +kernel)
  case full =>
    refine ⟨_, Prod.ext (by decide +kernel) rfl, by decide +kernel, ?_⟩
    exact Server.not_returns_of_open ⟨by decide +kernel, rfl⟩ (by decide +kernel)
  case late =>
    refine ⟨_, _, Prod.ext (by decide +kernel) rfl, Prod.ext (by decide +kernel) rfl, by decide +kernel, by decide +kernel,
      fun hreturns => ?_⟩
    have hdropped := congrArg Prod.fst (hreturns.2 fun hopen => absurd hopen.2 (by decide +kernel))
    exact absurd hdropped (by decide +kernel)

end Results

end ThatLimit
