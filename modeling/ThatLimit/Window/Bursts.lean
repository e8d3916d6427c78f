import ThatLimit.Core.Store
import ThatLimit.Framework.FixedWindow
import ThatLimit.Framework.Transition
/-!
# Bursts at the edge of a window

Any number of instances run the lease script under one config while the Redis clock
moves on. The handouts of a key fall into windows that do not overlap, so an interval
of the length of a window sees at most two quotas.
-/

namespace ThatLimit

open Transition FixedWindow Tally

variable {IpAddr : Type} [ToString IpAddr]

/-- Redis, and what was handed out under one key in its windows, the newest first. -/
structure Traffic where
  server : Server
  windows : List Window

inductive Request (IpAddr : Type)
  | lease (b : BucketId IpAddr)
  | elapse (ms : Nat)

namespace Traffic

/-- A reply at instant `now` opens a window or belongs to the newest one. -/
def record (ws : List Window) (now : Nat) (opens : Bool) (r : LeaseReply) : List Window :=
  if opens then ⟨now, [(now, r.leased.toNat)]⟩ :: ws
  else
    match ws with
    | w :: ws => { w with handed := w.handed ++ [(now, r.leased.toNat)] } :: ws
    | [] => []

/-- The lease script with the arguments `Store::lease` gives it. -/
def lease (cfg : Config) (s : Traffic) (key : String) (b : BucketId IpAddr) : Traffic :=
  let (res, server) :=
    s.server.lease b.toKey (cfg.policy b).leaseSize (cfg.policy b).quota (asSecs (cfg.policy b).resetIn)
  match res with
  | .ok r =>
      if b.toKey = key then
        { server, windows := record s.windows (fromMillis s.server.now) (s.server.find key).isNone r }
      else { s with server }
  | .error _ => { s with server }

/-- Everything handed out under the key. -/
def handed (s : Traffic) : List (Nat × Nat) := s.windows.flatMap Window.handed

/-- The instants at which a window was opened, the newest first. -/
def openings (s : Traffic) : List Nat := s.windows.map Window.opened

end Traffic

/-- Runs of lease scripts from an empty Redis, watched under one key. -/
def leases (cfg : Config) (key : String) : System Traffic (Request IpAddr) where
  init s := ∃ now, s = ⟨.start now, []⟩
  next s
    | .lease b => some (s.lease cfg key b)
    | .elapse ms => some { s with server := s.server.elapse ms }

namespace Traffic

/-- What Redis holds under the key is what the newest window has not handed out. -/
def Open (p : Policy) (key : String) (server : Server) : List Window → Prop
  | [] => server.db key = none
  | w :: _ => ∃ (e : Entry) (o : Nat), server.db key = some e ∧ w.opened = fromMillis o ∧ o ≤ server.now ∧
      e.expireAt = some (o + asSecs p.resetIn * 1000) ∧ 0 ≤ e.value ∧ e.value + w.total = p.quota

/-- The length of a window as Redis counts it. -/
def length (p : Policy) : Nat := fromSecs (asSecs p.resetIn)

structure Kept (p : Policy) (key : String) (s : Traffic) : Prop where
  spaced : Spaced (length p) s.windows
  sound : ∀ w ∈ s.windows, w.Sound p.quota (length p)
  newest : Open p key s.server s.windows

variable {cfg : Config} {p : Policy} {s : Traffic} {key : String} {b : BucketId IpAddr}

theorem Kept.frame (h : s.Kept p key) {server : Server} (hdb : server.db key = s.server.db key)
    (hnow : s.server.now ≤ server.now := by exact Nat.le_refl _) : Kept p key { s with server } := by
  refine ⟨h.spaced, h.sound, ?_⟩
  have hopen := h.newest
  cases hws : s.windows with
  | nil =>
      rw [hws] at hopen
      exact hdb.trans hopen
  | cons w ws =>
      rw [hws] at hopen
      obtain ⟨e, o, he, ho, hle, hrest⟩ := hopen
      exact ⟨e, o, hdb.trans he, ho, Nat.le_trans hle hnow, hrest⟩

theorem Kept.ended (h : s.Kept p key) (hf : s.server.find key = none) :
    ∀ w ∈ s.windows, w.opened + length p < fromMillis s.server.now := by
  intro v hv
  have hspaced := h.spaced
  have hopen := h.newest
  cases hws : s.windows with
  | nil =>
      rw [hws] at hv
      cases hv
  | cons w ws =>
      rw [hws] at hv hspaced hopen
      obtain ⟨e, o, he, ho, -, hexpire, -⟩ := hopen
      have hpast := Server.past_of_find_none hf he hexpire
      have hw : w.opened + length p < fromMillis s.server.now := by
        rw [ho, length, fromSecs_eq]
        unfold fromMillis
        omega
      rcases List.mem_cons.mp hv with rfl | hv
      · exact hw
      · have hv' := (List.pairwise_cons.mp hspaced).1 v hv
        omega

/-- The first lease after the end of the last window opens the next one. -/
theorem Kept.open (h : s.Kept p key) (hf : s.server.find key = none) {server : Server}
    (hdb : server.db key = some ⟨p.quota - p.leaseSize, some (s.server.now + asSecs p.resetIn * 1000)⟩)
    (hnow : server.now = s.server.now) :
    Kept p key ⟨server, ⟨fromMillis s.server.now, [(fromMillis s.server.now, p.leaseSize)]⟩ :: s.windows⟩ := by
  have hsize := p.leaseSize_le
  have htotal : Window.total ⟨fromMillis s.server.now, [(fromMillis s.server.now, p.leaseSize)]⟩ = p.leaseSize := by
    simp [Window.total]
  refine ⟨List.pairwise_cons.mpr ⟨h.ended hf, h.spaced⟩, ?_, ?_⟩
  · intro v hv
    rcases List.mem_cons.mp hv with rfl | hv
    · refine ⟨by rw [htotal]; exact hsize, ?_⟩
      intro x hx
      obtain rfl := List.mem_singleton.mp hx
      exact ⟨Nat.le_refl _, Nat.le_add_right _ _⟩
    · exact h.sound v hv
  · refine ⟨_, s.server.now, hdb, rfl, Nat.le_of_eq hnow.symm, rfl, by simp only; omega, ?_⟩
    rw [htotal]
    simp only
    omega

theorem Kept.hand (h : s.Kept p key) {e : Entry} (hf : s.server.find key = some e) {r : LeaseReply}
    (hle : r.leased.toNat ≤ e.value) {server : Server}
    (hdb : server.db key = some { e with value := e.value - r.leased.toNat }) (hnow : server.now = s.server.now) :
    Kept p key ⟨server, record s.windows (fromMillis s.server.now) false r⟩ := by
  obtain ⟨he, hlive⟩ := Db.find_eq_some_iff.mp hf
  have hspaced := h.spaced
  have hsound := h.sound
  have hopen := h.newest
  cases hws : s.windows with
  | nil =>
      rw [hws] at hopen
      rw [Open, he] at hopen
      cases hopen
  | cons w ws =>
      rw [hws] at hspaced hsound hopen
      obtain ⟨e', o, he', ho, hopened, hexpire, -, hvalue⟩ := hopen
      obtain rfl := Option.some.inj (he.symm.trans he')
      simp only [Entry.live, hexpire, decide_eq_true_eq] at hlive
      have htotal : Window.total { w with handed := w.handed ++ [(fromMillis s.server.now, r.leased.toNat)] } =
          w.total + r.leased.toNat := by
        show tally Prod.snd (w.handed ++ [_]) = _
        rw [tally_append]
        rfl
      have hw := hsound w List.mem_cons_self
      refine ⟨?_, ?_, ?_⟩
      · obtain ⟨hnewest, hspaced⟩ := List.pairwise_cons.mp hspaced
        exact List.pairwise_cons.mpr ⟨hnewest, hspaced⟩
      · intro v hv
        rcases List.mem_cons.mp hv with rfl | hv
        · refine ⟨by rw [htotal]; omega, ?_⟩
          intro x hx
          rcases List.mem_append.mp hx with hx | hx
          · exact hw.inside x hx
          · obtain rfl := List.mem_singleton.mp hx
            show w.opened ≤ fromMillis s.server.now ∧ fromMillis s.server.now ≤ w.opened + length p
            rw [ho, length, fromSecs_eq]
            unfold fromMillis
            omega
        · exact hsound v (List.mem_cons_of_mem _ hv)
      · refine ⟨_, o, hdb, ho, hnow ▸ hopened, hexpire, by simp only; omega, ?_⟩
        rw [htotal]
        simp only
        omega

theorem Kept.value_nonneg (h : s.Kept p key) {e : Entry} (hf : s.server.find key = some e) : 0 ≤ e.value := by
  have he := (Db.find_eq_some_iff.mp hf).1
  have hopen := h.newest
  cases hws : s.windows with
  | nil =>
      rw [hws, Open, he] at hopen
      cases hopen
  | cons w ws =>
      rw [hws] at hopen
      obtain ⟨e', o, he', -, -, -, hvalue, -⟩ := hopen
      obtain rfl := Option.some.inj (he.symm.trans he')
      exact hvalue

theorem Kept.lease (h : s.Kept p key) (hp : b.toKey = key → cfg.policy b = p) : (s.lease cfg key b).Kept p key := by
  unfold Traffic.lease
  rcases hl : s.server.lease b.toKey (cfg.policy b).leaseSize (cfg.policy b).quota (asSecs (cfg.policy b).resetIn)
    with ⟨_ | r, server⟩
  · rw [Server.lease_error hl]
    exact h.frame rfl
  · by_cases hkey : b.toKey = key
    · subst hkey
      rw [hp rfl] at hl
      show Kept p b.toKey (if b.toKey = b.toKey then _ else _)
      rw [if_pos rfl]
      rcases Server.lease_cases hl with ⟨hf, -, rfl, rfl⟩ | ⟨e, hf, -, rfl, rfl⟩ | ⟨e, hf, hv, rfl, rfl⟩
      · rw [hf]
        exact h.open hf (Db.set_self ..) rfl
      · rw [hf]
        refine h.hand hf ?_ ?_ rfl
        · exact h.value_nonneg hf
        · simpa using (Db.find_eq_some_iff.mp hf).1
      · rw [hf]
        have htoNat : ((min e.value p.leaseSize).toNat : Int) = min e.value p.leaseSize :=
          Int.toNat_of_nonneg (by omega)
        refine h.hand hf ?_ ?_ rfl
        · simp only [htoNat]
          omega
        · simp only [htoNat, Db.set_self]
    · have hdb : server.db key = s.server.db key := by
        have hother := s.server.lease_other (cfg.policy b).leaseSize (cfg.policy b).quota
          (asSecs (cfg.policy b).resetIn) (Ne.symm hkey)
        rw [hl] at hother
        exact hother.1
      have hnow : server.now = s.server.now := by
        have hkept := s.server.lease_now b.toKey (cfg.policy b).leaseSize (cfg.policy b).quota
          (asSecs (cfg.policy b).resetIn)
        rwa [hl] at hkept
      show Kept p key (if b.toKey = key then _ else _)
      rw [if_neg hkey]
      exact h.frame hdb (Nat.le_of_eq hnow.symm)

end Traffic

section Results

variable {cfg : Config} {s : Traffic}

theorem kept {key : String} {p : Policy} (hp : ∀ b : BucketId IpAddr, b.toKey = key → cfg.policy b = p)
    (hs : Reach (leases cfg key : System Traffic (Request IpAddr)) s) : s.Kept p key := by
  refine ReachWhen.invariant ?_ ?_ hs
  · rintro _ ⟨now, rfl⟩
    exact ⟨List.Pairwise.nil, by simp, rfl⟩
  · intro s a s' _ h _ hnext
    cases a with
    | lease b =>
        cases hnext
        exact h.lease (hp b)
    | elapse ms =>
        cases hnext
        exact h.frame rfl (Nat.le_add_right ..)

/-- Under an accepted policy, an interval of length `reset_in` sees at most two quotas of an id, and its windows
are opened more than `reset_in` apart. The script counts without bounds, as Lua does up to `2 ^ 53`. -/
theorem bursts_are_bounded (b : BucketId IpAddr) (hp : (cfg.policy b).Accepted)
    (hs : Reach (leases cfg b.toKey : System Traffic (Request IpAddr)) s) :
    (∀ a, tally (within a (cfg.policy b).resetIn) s.handed ≤ 2 * (cfg.policy b).quota) ∧
    s.openings.Pairwise fun newer older => older + (cfg.policy b).resetIn < newer := by
  have h : s.Kept (cfg.policy b) b.toKey := kept (fun b' hb' => cfg.policy_congr hb') hs
  rw [hp.resetIn_eq]
  constructor
  · intro a
    rw [Traffic.handed, tally_flatMap]
    exact burst_le_two_quotas h.spaced h.sound
  · rw [Traffic.openings, List.pairwise_map]
    exact h.spaced

/-- A token at the end of one window and a lease in the next fall into one minute. -/
theorem burst_over_the_edge : ∃ s, (leases .single testUser.toKey).exec ⟨.start 0, []⟩
      [.lease testUser, .elapse 60001, .lease testUser] = some s ∧
    s.handed = [(60001000000, 1), (0, 1)] ∧
    tally (within 1000000 (Config.single.policy testUser).resetIn) s.handed ≤ 2 * 1 := by
  have hrun : ((leases .single testUser.toKey).exec ⟨.start 0, []⟩
      [.lease testUser, .elapse 60001, .lease testUser]).map Traffic.handed = some [(60001000000, 1), (0, 1)] := rfl
  obtain ⟨s, hs, hhanded⟩ := Option.map_eq_some_iff.mp hrun
  have hreach : Reach (leases .single testUser.toKey) s := Reach.exec (.init ⟨0, rfl⟩) _ hs
  have haccepted : (Config.single.policy testUser).Accepted :=
    ⟨{ criteria := .sub, quota := 1, leaseSize := 1, resetIn := 60 }, rfl⟩
  exact ⟨s, hs, hhanded, (bursts_are_bounded testUser haccepted hreach).1 1000000⟩

end Results

end ThatLimit
