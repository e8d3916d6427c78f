import ThatLimit.Core.Store
import ThatLimit.Window.Scripts
import ThatLimit.Framework.Tally
/-!
# The ledger of leases

Redis together with a record of every lease it granted: which instance took it in
which window, how much was spent, what a shutdown noted down and what came back.
The records are history; no code reads them. `Balanced` ties the counters of Redis
to them, and each operation of the ledger keeps it.
-/
namespace ThatLimit

open Tally

variable {ι IpAddr : Type}

structure Grant (ι IpAddr : Type) where
  inst : ι
  id : BucketId IpAddr
  /-- The number of the key's window the tokens were taken from. -/
  epoch : Nat
  window : Int
  tokens : Nat
  /-- A `Bucket` has been built from the reply. -/
  landed : Bool
  spent : Nat
  /-- The tokens a shutdown snapshot read from that bucket. -/
  noted : Option Nat
  /-- The release script has been run for the snapshot. -/
  released : Bool
  /-- The window the release landed in, and the tokens it put back. -/
  returned : Option (Nat × Nat)
  deriving DecidableEq

/-- Redis and the leases it granted, oldest first. -/
structure Ledger (ι IpAddr : Type) where
  server : Server
  grants : List (Grant ι IpAddr)

section Operations

variable [ToString IpAddr]

def Grant.new (i : ι) (b : BucketId IpAddr) (epoch : Nat) (r : LeaseReply) : Grant ι IpAddr :=
  { inst := i, id := b, epoch, window := r.window, tokens := r.leased.toNat, landed := false, spent := 0
    noted := none, released := false, returned := none }

namespace Ledger

def start (now : Nat) : Ledger ι IpAddr := { server := Server.start now, grants := [] }

/-- The lease script run for instance `i` and bucket `b`, with the arguments `Store::lease` gives it. -/
def lease (L : Ledger ι IpAddr) (cfg : Config) (i : ι) (b : BucketId IpAddr) :
    Except RedisError LeaseReply × Ledger ι IpAddr :=
  match L.server.lease b.toKey (cfg.policy b).leaseSize (cfg.policy b).quota (asSecs (cfg.policy b).resetIn) with
  | (.error e, server) => (.error e, { L with server })
  | (.ok r, server) => (.ok r, { server, grants := L.grants ++ [Grant.new i b (server.epoch b.toKey) r] })

def amend (L : Ledger ι IpAddr) (g : Nat) (f : Grant ι IpAddr → Grant ι IpAddr) : Ledger ι IpAddr :=
  { L with grants := L.grants.modify g f }

def land (L : Ledger ι IpAddr) (g : Nat) : Ledger ι IpAddr := L.amend g fun x => { x with landed := true }

def spend (L : Ledger ι IpAddr) (g : Nat) : Ledger ι IpAddr :=
  L.amend g fun x => { x with spent := x.spent + 1 }

def note (L : Ledger ι IpAddr) (g tokens : Nat) : Ledger ι IpAddr :=
  L.amend g fun x => { x with noted := some tokens }

/-- The release script run for the snapshot of grant `g`. -/
def release (L : Ledger ι IpAddr) (g : Nat) (b : BucketId IpAddr) (tokens : Nat) (window : Int) :
    Bool × Ledger ι IpAddr :=
  let (ok, server) := L.server.release b.toKey tokens window
  (ok, { server, grants := L.grants.modify g fun x =>
    { x with released := true, returned := if ok then some (server.epoch b.toKey, tokens) else none } })

def elapse (L : Ledger ι IpAddr) (ms : Nat) : Ledger ι IpAddr := { L with server := L.server.elapse ms }

end Ledger

/-- What the grant took from window `epoch` of the key. -/
def Grant.leasedIn (key : String) (epoch : Nat) (x : Grant ι IpAddr) : Nat :=
  if x.id.toKey = key ∧ x.epoch = epoch then x.tokens else 0

/-- What the grant put back into window `epoch` of the key. -/
def Grant.returnedIn (key : String) (epoch : Nat) (x : Grant ι IpAddr) : Nat :=
  match x.returned with
  | some (landed, tokens) => if x.id.toKey = key ∧ landed = epoch then tokens else 0
  | none => 0

/-- Tokens leased in window `epoch` of the key, over all instances. -/
def Ledger.leased (L : Ledger ι IpAddr) (key : String) (epoch : Nat) : Nat :=
  tally (Grant.leasedIn key epoch) L.grants

/-- Tokens released into window `epoch` of the key, over all instances. -/
def Ledger.returned (L : Ledger ι IpAddr) (key : String) (epoch : Nat) : Nat :=
  tally (Grant.returnedIn key epoch) L.grants

/-- A grant spends, notes and returns at most its tokens, and returns only to its own window,
once, what was noted. -/
structure Grant.Sound (x : Grant ι IpAddr) : Prop where
  epoch_pos : 1 ≤ x.epoch
  window_nonneg : 0 ≤ x.window
  spent_le : x.spent ≤ x.tokens
  noted_le : ∀ t, x.noted = some t → t ≤ x.tokens
  unreleased : x.released = false → x.returned = none
  unnoted : x.noted = none → x.released = false
  returned_eq : ∀ k t, x.returned = some (k, t) → k = x.epoch ∧ x.noted = some t

/-- The counters of Redis agree with the ledger. -/
structure Ledger.Balanced (cfg : Config) (L : Ledger ι IpAddr) : Prop where
  /-- The last window of a key holds the quota less what was leased from it plus what was released
  into it, and has the expiry it opened with; its grants carry that expiry, and those of earlier
  windows an earlier one. -/
  stored : ∀ (b : BucketId IpAddr) e, L.server.db b.toKey = some e → ∃ w : Nat,
    e.expireAt = some w ∧ L.server.opened b.toKey = w ∧
    e.value + L.leased b.toKey (L.server.epoch b.toKey) =
      (cfg.policy b).quota + L.returned b.toKey (L.server.epoch b.toKey) ∧
    0 ≤ e.value ∧
    ∀ x ∈ L.grants, x.id.toKey = b.toKey →
      (x.epoch = L.server.epoch b.toKey ∧ x.window = w) ∨ (x.epoch < L.server.epoch b.toKey ∧ x.window < w)
  opened : ∀ (b : BucketId IpAddr) e, L.server.db b.toKey = some e → 1 ≤ L.server.epoch b.toKey
  absent : ∀ b : BucketId IpAddr, L.server.db b.toKey = none →
    L.server.epoch b.toKey = 0 ∧ ∀ x ∈ L.grants, x.id.toKey ≠ b.toKey
  /-- No window, open or past, gave out more than its quota and what came back to it. -/
  bounded : ∀ (b : BucketId IpAddr) k, L.leased b.toKey k ≤ (cfg.policy b).quota + L.returned b.toKey k
  sound : ∀ x ∈ L.grants, x.Sound

namespace Ledger

theorem lease_grants (L : Ledger ι IpAddr) (cfg : Config) (i : ι) (b : BucketId IpAddr) :
    (L.lease cfg i b).2.grants = L.grants ∨
    ∃ epoch r, (L.lease cfg i b).2.grants = L.grants ++ [Grant.new i b epoch r] := by
  unfold Ledger.lease
  split
  · exact .inl rfl
  · exact .inr ⟨_, _, rfl⟩

theorem lease_eq (L : Ledger ι IpAddr) (cfg : Config) (i : ι) (b : BucketId IpAddr) :
    (L.lease cfg i b).1 =
      (L.server.lease b.toKey (cfg.policy b).leaseSize (cfg.policy b).quota (asSecs (cfg.policy b).resetIn)).1 ∧
    (L.lease cfg i b).2.server =
      (L.server.lease b.toKey (cfg.policy b).leaseSize (cfg.policy b).quota (asSecs (cfg.policy b).resetIn)).2 := by
  unfold Ledger.lease
  split
  · next hl => exact ⟨(congrArg Prod.fst hl).symm, (congrArg Prod.snd hl).symm⟩
  · next hl => exact ⟨(congrArg Prod.fst hl).symm, (congrArg Prod.snd hl).symm⟩

theorem lease_ok {L L' : Ledger ι IpAddr} {cfg : Config} {i : ι} {b : BucketId IpAddr} {r : LeaseReply}
    (h : L.lease cfg i b = (.ok r, L')) : ∃ server, L.server.lease b.toKey (cfg.policy b).leaseSize
      (cfg.policy b).quota (asSecs (cfg.policy b).resetIn) = (.ok r, server) ∧
      L' = { server, grants := L.grants ++ [Grant.new i b (server.epoch b.toKey) r] } := by
  unfold Ledger.lease at h
  split at h
  · cases h
  · next r' server hl =>
      obtain ⟨hr, hL⟩ := Prod.mk.inj h
      cases hr
      exact ⟨server, hl, hL.symm⟩

theorem mem_lease_grants {L : Ledger ι IpAddr} {cfg : Config} {i : ι} {b : BucketId IpAddr} {x : Grant ι IpAddr}
    (hx : x ∈ (L.lease cfg i b).2.grants) : x ∈ L.grants ∨ x.id = b ∧ x.tokens ≤ (cfg.policy b).leaseSize := by
  rcases hl : L.lease cfg i b with ⟨e | r, L'⟩
  · rcases L.lease_grants cfg i b with hgrants | ⟨epoch, r, hgrants⟩
    · exact .inl (hgrants ▸ hx)
    · unfold Ledger.lease at hl hgrants
      split at hl
      · next hs =>
          rw [hs] at hgrants
          simp at hgrants
      · cases hl
  · obtain ⟨server, hserver, rfl⟩ := lease_ok hl
    rw [hl] at hx
    rcases List.mem_append.mp hx with hx | hx
    · exact .inl hx
    · obtain rfl := List.mem_singleton.mp hx
      right
      refine ⟨rfl, ?_⟩
      rcases Server.lease_cases hserver with ⟨-, -, rfl, -⟩ | ⟨e, -, -, rfl, -⟩ | ⟨e, -, -, rfl, -⟩
      all_goals
        simp only [Grant.new]
        omega

theorem leased_eq_zero {L : Ledger ι IpAddr} {key : String} {k : Nat}
    (h : ∀ x ∈ L.grants, x.id.toKey = key → x.epoch ≠ k) : L.leased key k = 0 := by
  apply tally_eq_zero
  intro x hx
  simp only [Grant.leasedIn, ite_eq_right_iff, and_imp]
  exact fun hkey hk => absurd hk (h x hx hkey)

theorem returned_eq_zero {L : Ledger ι IpAddr} {key : String} {k : Nat}
    (hsound : ∀ x ∈ L.grants, x.Sound) (h : ∀ x ∈ L.grants, x.id.toKey = key → x.epoch ≠ k) :
    L.returned key k = 0 := by
  apply tally_eq_zero
  intro x hx
  unfold Grant.returnedIn
  split
  · next landed tokens hr =>
      have hl := ((hsound x hx).returned_eq _ _ hr).1
      rw [if_neg]
      rintro ⟨hkey, hk⟩
      exact h x hx hkey (hl.symm.trans hk)
  · rfl

/-- Of every window, no more comes back than was leased. -/
theorem returned_le_leased {L : Ledger ι IpAddr} (hsound : ∀ x ∈ L.grants, x.Sound) (key : String)
    (k : Nat) : L.returned key k ≤ L.leased key k := by
  apply tally_le_tally
  intro x hx
  unfold Grant.returnedIn Grant.leasedIn
  split
  · next landed tokens hr =>
      obtain ⟨hl, hn⟩ := (hsound x hx).returned_eq _ _ hr
      have hle := (hsound x hx).noted_le _ hn
      subst hl
      split_ifs <;> omega
  · omega

theorem Balanced.value_range {cfg : Config} {L : Ledger ι IpAddr} (h : L.Balanced cfg) {b : BucketId IpAddr} {e : Entry}
    (hdb : L.server.db b.toKey = some e) : 0 ≤ e.value ∧ e.value ≤ (cfg.policy b).quota := by
  obtain ⟨w, -, -, hvalue, hpos, -⟩ := h.stored b e hdb
  have hle := returned_le_leased h.sound b.toKey (L.server.epoch b.toKey)
  exact ⟨hpos, by omega⟩

theorem balanced_start (cfg : Config) (now : Nat) :
    (start now : Ledger ι IpAddr).Balanced cfg where
  stored := by simp [start, Server.start]
  opened := by simp [start, Server.start]
  absent := by simp [start, Server.start]
  bounded := by simp [start, leased]
  sound := by simp [start]

/-- Granting a lease: only the key of the new grant changes on the server, and there the
accounts are put right. -/
private theorem Balanced.push {cfg : Config} {L : Ledger ι IpAddr} (h : L.Balanced cfg)
    {server : Server} {b : BucketId IpAddr} {x : Grant ι IpAddr} {e : Entry} {w : Nat}
    (hdb : ∀ key, key ≠ b.toKey → server.db key = L.server.db key)
    (hepoch : ∀ key, key ≠ b.toKey → server.epoch key = L.server.epoch key)
    (hopened : ∀ key, key ≠ b.toKey → server.opened key = L.server.opened key)
    (hid : x.id.toKey = b.toKey) (hret : x.returned = none) (hx : x.Sound)
    (hxe : x.epoch = server.epoch b.toKey) (hxw : x.window = w)
    (he : server.db b.toKey = some e) (hw : e.expireAt = some w)
    (how : server.opened b.toKey = w) (hpos : 0 ≤ e.value)
    (hvalue : e.value + (L.leased b.toKey x.epoch + x.tokens : Nat) =
      (cfg.policy b).quota + L.returned b.toKey x.epoch)
    (hold : ∀ y ∈ L.grants, y.id.toKey = b.toKey →
      (y.epoch = server.epoch b.toKey ∧ y.window = w) ∨ (y.epoch < server.epoch b.toKey ∧ y.window < w)) :
    Balanced cfg { server, grants := L.grants ++ [x] } := by
  have hleased (key k) : leased { server, grants := L.grants ++ [x] } key k =
      L.leased key k + if x.id.toKey = key ∧ x.epoch = k then x.tokens else 0 := by
    simp [leased, Grant.leasedIn]
  have hreturned (key k) : returned { server, grants := L.grants ++ [x] } key k = L.returned key k := by
    simp [returned, Grant.returnedIn, hret]
  refine ⟨?_, ?_, ?_, ?_, ?_⟩
  · intro b' e' he'
    simp only [hleased, hreturned]
    by_cases hk : b'.toKey = b.toKey
    · rw [hk] at he' ⊢
      obtain rfl : e' = e := Option.some.inj (he'.symm.trans he)
      refine ⟨w, hw, how, ?_, hpos, ?_⟩
      · rw [if_pos ⟨hid, hxe⟩, ← hxe, hvalue, cfg.policy_congr hk]
      · intro y hy hykey
        rcases List.mem_append.mp hy with hy | hy
        · exact hold y hy hykey
        · obtain rfl := List.mem_singleton.mp hy
          exact .inl ⟨hxe, hxw⟩
    · rw [hdb _ hk] at he'
      obtain ⟨w', hw', how', hv, hp, hg⟩ := h.stored b' e' he'
      simp only [hepoch _ hk, hopened _ hk]
      refine ⟨w', hw', how', ?_, hp, ?_⟩
      · rw [if_neg (fun hc => hk (hc.1.symm.trans hid)), Nat.add_zero]
        exact hv
      · intro y hy hykey
        rcases List.mem_append.mp hy with hy | hy
        · exact hg y hy hykey
        · obtain rfl := List.mem_singleton.mp hy
          exact absurd (hykey.symm.trans hid) hk
  · intro b' e' he'
    by_cases hk : b'.toKey = b.toKey
    · rw [hk, ← hxe]
      exact hx.epoch_pos
    · rw [hdb _ hk] at he'
      simp only [hepoch _ hk]
      exact h.opened b' e' he'
  · intro b' he'
    by_cases hk : b'.toKey = b.toKey
    · rw [hk, he] at he'
      cases he'
    · rw [hdb _ hk] at he'
      obtain ⟨h0, hg⟩ := h.absent b' he'
      refine ⟨(hepoch _ hk).trans h0, ?_⟩
      intro y hy hykey
      rcases List.mem_append.mp hy with hy | hy
      · exact hg y hy hykey
      · obtain rfl := List.mem_singleton.mp hy
        exact hk (hykey.symm.trans hid)
  · intro b' k
    rw [hleased, hreturned]
    have hb := h.bounded b' k
    by_cases hc : x.id.toKey = b'.toKey ∧ x.epoch = k
    · rw [if_pos hc]
      have hk : b.toKey = b'.toKey := hid.symm.trans hc.1
      rw [← hc.2, ← hk, ← cfg.policy_congr hk]
      omega
    · rw [if_neg hc]
      exact hb
  · intro y hy
    rcases List.mem_append.mp hy with hy | hy
    · exact h.sound y hy
    · exact List.mem_singleton.mp hy ▸ hx

private theorem Balanced.no_future {cfg : Config} {L : Ledger ι IpAddr} (h : L.Balanced cfg)
    (b : BucketId IpAddr) : ∀ x ∈ L.grants, x.id.toKey = b.toKey → x.epoch ≠ L.server.epoch b.toKey + 1 := by
  intro x hx hkey
  cases hdb : L.server.db b.toKey with
  | none => exact absurd hkey ((h.absent b hdb).2 x hx)
  | some e =>
      obtain ⟨w, -, -, -, -, hg⟩ := h.stored b e hdb
      rcases hg x hx hkey with hc | hc <;> omega

omit [ToString IpAddr] in
theorem Grant.new_sound (i : ι) (b : BucketId IpAddr) {epoch : Nat} (h : 1 ≤ epoch) {r : LeaseReply}
    (hr : 0 ≤ r.window) : (Grant.new i b epoch r).Sound where
  epoch_pos := h
  window_nonneg := hr
  spent_le := Nat.zero_le _
  noted_le := by simp [Grant.new]
  unreleased := fun _ => rfl
  unnoted := fun _ => rfl
  returned_eq := by simp [Grant.new]

theorem Balanced.lease {cfg : Config} {L : Ledger ι IpAddr} (h : L.Balanced cfg) (i : ι)
    (b : BucketId IpAddr) : (L.lease cfg i b).2.Balanced cfg := by
  unfold Ledger.lease
  rcases hl : L.server.lease b.toKey (cfg.policy b).leaseSize (cfg.policy b).quota
    (asSecs (cfg.policy b).resetIn) with ⟨_ | r, server⟩
  · rw [Server.lease_error hl]
    exact ⟨h.stored, h.opened, h.absent, h.bounded, h.sound⟩
  · have hsize := (cfg.policy b).leaseSize_le
    rcases Server.lease_cases hl with ⟨hf, httl, rfl, rfl⟩ | ⟨e, hf, hv, rfl, rfl⟩ | ⟨e, hf, hv, rfl, rfl⟩
    · -- a new window: all earlier grants carry an expiry that has passed
      have hleased := leased_eq_zero (h.no_future b)
      have hreturned := returned_eq_zero h.sound (h.no_future b)
      refine h.push (fun key hk => Db.set_ne _ _ hk) (fun key hk => Function.update_of_ne hk _ _)
        (fun key hk => Function.update_of_ne hk _ _) rfl rfl (Grant.new_sound i b (by simp) (by simp only; omega))
        rfl rfl (Db.set_self _ _ _) rfl (by simp) ?_ ?_ ?_
      · simp only
        omega
      · simp only [Grant.new, Function.update_self, hleased, hreturned]
        omega
      · intro y hy hkey
        right
        simp only [Function.update_self]
        cases hdb : L.server.db b.toKey with
        | none => exact absurd hkey ((h.absent b hdb).2 y hy)
        | some e₀ =>
            obtain ⟨w₀, hw₀, -, -, -, hg⟩ := h.stored b e₀ hdb
            have hpast := Server.past_of_find_none hf hdb hw₀
            rcases hg y hy hkey with hc | hc <;> omega
    · have hdb := (Db.find_eq_some_iff.mp hf).1
      obtain ⟨w, hw, how, hvalue, hpos, hg⟩ := h.stored b e hdb
      have hexp : e.pexpiretime = w := by simp [Entry.pexpiretime, hw]
      refine h.push (fun key _ => rfl) (fun key _ => rfl)
        (fun key _ => rfl) rfl rfl (Grant.new_sound i b (h.opened b e hdb) (by simp [hexp])) rfl hexp hdb hw
        how hpos ?_ hg
      simpa [Grant.new] using hvalue
    · have hdb := (Db.find_eq_some_iff.mp hf).1
      obtain ⟨w, hw, how, hvalue, hpos, hg⟩ := h.stored b e hdb
      have hexp : e.pexpiretime = w := by simp [Entry.pexpiretime, hw]
      refine h.push (fun key hk => Db.set_ne _ _ hk) (fun key _ => rfl)
        (fun key _ => rfl) rfl rfl (Grant.new_sound i b (h.opened b e hdb) (by simp [hexp])) rfl hexp
        (Db.set_self _ _ _) hw how ?_ ?_ hg
      · simp only
        omega
      · simp only [Grant.new]
        omega

private theorem Balanced.amend {cfg : Config} {L : Ledger ι IpAddr} (h : L.Balanced cfg) (g : Nat)
    {f : Grant ι IpAddr → Grant ι IpAddr}
    (hf : ∀ x, L.grants[g]? = some x → (f x).id = x.id ∧ (f x).epoch = x.epoch ∧
      (f x).window = x.window ∧ (f x).tokens = x.tokens ∧ (f x).returned = x.returned ∧ (f x).Sound) :
    (L.amend g f).Balanced cfg := by
  have hl (key k) : (L.amend g f).leased key k = L.leased key k := by
    refine tally_modify_of_eq _ _ fun x hx => ?_
    obtain ⟨hid, hepoch, -, htokens, -, -⟩ := hf x hx
    simp only [Grant.leasedIn, hid, hepoch, htokens]
  have hr (key k) : (L.amend g f).returned key k = L.returned key k := by
    refine tally_modify_of_eq _ _ fun x hx => ?_
    obtain ⟨hid, -, -, -, hreturned, -⟩ := hf x hx
    simp only [Grant.returnedIn, hid, hreturned]
  refine ⟨?_, h.opened, ?_, ?_, forall_mem_modify h.sound fun x hx => (hf x hx).2.2.2.2.2⟩
  · intro b e he
    obtain ⟨w, hw, how, hv, hp, hg⟩ := h.stored b e he
    refine ⟨w, hw, how, ?_, hp, ?_⟩
    · rw [hl, hr]
      exact hv
    · refine forall_mem_modify hg fun x hx hkey => ?_
      obtain ⟨hid, hepoch, hwindow, -⟩ := hf x hx
      rw [hepoch, hwindow]
      exact hg x (List.mem_of_getElem? hx) (hid ▸ hkey)
  · intro b hb
    refine ⟨(h.absent b hb).1, forall_mem_modify (h.absent b hb).2 fun x hx => ?_⟩
    rw [(hf x hx).1]
    exact (h.absent b hb).2 x (List.mem_of_getElem? hx)
  · intro b k
    rw [hl, hr]
    exact h.bounded b k

theorem Balanced.land {cfg : Config} {L : Ledger ι IpAddr} (h : L.Balanced cfg) (g : Nat) :
    (L.land g).Balanced cfg := by
  refine h.amend g fun x hx => ⟨rfl, rfl, rfl, rfl, rfl, ?_⟩
  have hs := h.sound x (List.mem_of_getElem? hx)
  exact ⟨hs.epoch_pos, hs.window_nonneg, hs.spent_le, hs.noted_le, hs.unreleased, hs.unnoted, hs.returned_eq⟩

theorem Balanced.spend {cfg : Config} {L : Ledger ι IpAddr} (h : L.Balanced cfg) {g : Nat}
    {x : Grant ι IpAddr} (hx : L.grants[g]? = some x) (hlt : x.spent < x.tokens) :
    (L.spend g).Balanced cfg := by
  refine h.amend g fun y hy => ⟨rfl, rfl, rfl, rfl, rfl, ?_⟩
  obtain rfl := Option.some.inj (hx.symm.trans hy)
  have hs := h.sound x (List.mem_of_getElem? hx)
  exact ⟨hs.epoch_pos, hs.window_nonneg, hlt, hs.noted_le, hs.unreleased, hs.unnoted, hs.returned_eq⟩

/-- A snapshot is noted once, before anything of the grant is released. -/
theorem Balanced.note {cfg : Config} {L : Ledger ι IpAddr} (h : L.Balanced cfg) {g t : Nat}
    {x : Grant ι IpAddr} (hx : L.grants[g]? = some x) (hle : t ≤ x.tokens) (hnone : x.noted = none) :
    (L.note g t).Balanced cfg := by
  refine h.amend g fun y hy => ⟨rfl, rfl, rfl, rfl, rfl, ?_⟩
  obtain rfl := Option.some.inj (hx.symm.trans hy)
  have hs := h.sound x (List.mem_of_getElem? hx)
  refine ⟨hs.epoch_pos, hs.window_nonneg, hs.spent_le, ?_, hs.unreleased, by simp, ?_⟩
  · rintro _ ⟨⟩
    exact hle
  · intro k t' hr
    have hn := (hs.returned_eq k t' hr).2
    rw [hnone] at hn
    cases hn

/-- Releasing a snapshot for the first time. It lands only in the window of its grant. -/
theorem Balanced.release {cfg : Config} {L : Ledger ι IpAddr} (h : L.Balanced cfg) {g t : Nat}
    {x : Grant ι IpAddr} (hx : L.grants[g]? = some x) (hnoted : x.noted = some t)
    (hfirst : x.released = false) : (L.release g x.id t x.window).2.Balanced cfg := by
  have hs := h.sound x (List.mem_of_getElem? hx)
  have hnone := hs.unreleased hfirst
  rcases L.server.release_cases x.id.toKey t hs.window_nonneg with ⟨e, hf, hexp, hr⟩ | ⟨-, hr⟩
  · obtain ⟨w, hw, how, hv, hp, hg⟩ := h.stored x.id e (Db.find_eq_some_iff.mp hf).1
    have hwx : x.window = w := by rw [← hexp]; simp [Entry.pexpiretime, hw]
    -- the expiry of an earlier window would have been smaller
    have hepoch : x.epoch = L.server.epoch x.id.toKey := by
      rcases hg x (List.mem_of_getElem? hx) rfl with hc | hc
      · exact hc.1
      · omega
    have heq : (L.release g x.id t x.window).2 =
        { server := { L.server with db := L.server.db.set x.id.toKey { e with value := e.value + t } }
          grants := L.grants.modify g fun y =>
            { y with released := true, returned := some (L.server.epoch x.id.toKey, t) } } := by
      simp only [Ledger.release, hr]
      rfl
    have hl (key k) : (L.release g x.id t x.window).2.leased key k = L.leased key k := by
      rw [heq]
      exact tally_modify_of_eq _ _ fun y _ => rfl
    have hret (key k) : (L.release g x.id t x.window).2.returned key k = L.returned key k +
        if x.id.toKey = key ∧ L.server.epoch x.id.toKey = k then t else 0 := by
      have hm := tally_modify (Grant.returnedIn key k) (fun y : Grant ι IpAddr =>
        { y with released := true, returned := some (L.server.epoch x.id.toKey, t) }) hx
      rw [heq]
      simpa [Ledger.returned, Grant.returnedIn, hnone] using hm
    refine ⟨?_, ?_, ?_, ?_, ?_⟩
    · intro b e' he'
      rw [hl, hret]
      simp only [heq] at he' ⊢
      by_cases hk : b.toKey = x.id.toKey
      · rw [hk] at he' ⊢
        rw [Db.set_self] at he'
        cases he'
        refine ⟨w, hw, how, ?_, by simp only; omega, ?_⟩
        · rw [if_pos ⟨rfl, rfl⟩, cfg.policy_congr hk]
          simp only
          omega
        · exact forall_mem_modify hg fun y hy hykey => hg y (List.mem_of_getElem? hy) hykey
      · rw [Db.set_ne _ _ hk] at he'
        obtain ⟨w', hw', how', hv', hp', hg'⟩ := h.stored b e' he'
        refine ⟨w', hw', how', ?_, hp', ?_⟩
        · rw [if_neg fun hc => hk hc.1.symm, Nat.add_zero]
          exact hv'
        · exact forall_mem_modify hg' fun y hy hykey => hg' y (List.mem_of_getElem? hy) hykey
    · intro b e' he'
      simp only [heq] at he' ⊢
      by_cases hk : b.toKey = x.id.toKey
      · rw [hk]
        exact h.opened x.id e (Db.find_eq_some_iff.mp hf).1
      · rw [Db.set_ne _ _ hk] at he'
        exact h.opened b e' he'
    · intro b hb
      simp only [heq] at hb ⊢
      by_cases hk : b.toKey = x.id.toKey
      · rw [hk, Db.set_self] at hb
        cases hb
      · rw [Db.set_ne _ _ hk] at hb
        exact ⟨(h.absent b hb).1, forall_mem_modify (h.absent b hb).2 fun y hy =>
          (h.absent b hb).2 y (List.mem_of_getElem? hy)⟩
    · intro b k
      rw [hl, hret]
      exact (h.bounded b k).trans (by omega)
    · rw [heq]
      refine forall_mem_modify h.sound fun y hy => ?_
      obtain rfl := Option.some.inj (hx.symm.trans hy)
      refine ⟨hs.epoch_pos, hs.window_nonneg, hs.spent_le, hs.noted_le, by simp, by simp [hnoted], ?_⟩
      rintro _ _ ⟨⟩
      exact ⟨hepoch.symm, hnoted⟩
  · have heq : (L.release g x.id t x.window).2 =
        L.amend g fun y => { y with released := true, returned := none } := by
      simp only [Ledger.release, hr, Ledger.amend]
      rfl
    rw [heq]
    refine h.amend g fun y hy => ?_
    obtain rfl := Option.some.inj (hx.symm.trans hy)
    refine ⟨rfl, rfl, rfl, rfl, hnone.symm, hs.epoch_pos, hs.window_nonneg, hs.spent_le, hs.noted_le, ?_,
      by simp [hnoted], ?_⟩
    · intro _
      rfl
    · simp

theorem Balanced.elapse {cfg : Config} {L : Ledger ι IpAddr} (h : L.Balanced cfg) (ms : Nat) :
    (L.elapse ms).Balanced cfg :=
  ⟨h.stored, h.opened, h.absent, h.bounded, h.sound⟩

end Ledger

end Operations

end ThatLimit
