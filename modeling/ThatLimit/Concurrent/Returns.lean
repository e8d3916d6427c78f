import ThatLimit.Concurrent.LiveTokens
import ThatLimit.Concurrent.Passes
/-!
# What a shutdown gives back

A shutdown looks at every key once, notes what it finds, and releases it to Redis in chunks, while
the calls go on. A bucket that was there in the beginning is followed through these lists: as long
as nobody replaces it and it can be spent, the shutdown still has to look at it, has noted it, or
has given it back.
-/

namespace ThatLimit

open Transition

variable {ι IpAddr : Type}

/-- The keys a shutdown has not looked at yet. -/
def Worker.unseen : Worker IpAddr → List (BucketId IpAddr)
  | .noting todo _ => todo
  | _ => []

/-- What a shutdown has noted and not given back yet. -/
def Worker.snapshots : Worker IpAddr → List (Snapshot IpAddr)
  | .noting _ found => found
  | .releasing chunks => chunks.flatten
  | _ => []

namespace Sys

variable {cfg : Config} {s s' : Sys ι IpAddr} {i : ι} {b : BucketId IpAddr}

theorem resume_ledger (s : Sys ι IpAddr) (t : Nat) (k : Task ι IpAddr) (res : Except (StoreError IpAddr) Unit) :
    (s.resume t k res).ledger = s.ledger := by
  cases res <;> rfl

variable [DecidableEq IpAddr]

theorem Wears.spent (h : s.Wears s' i b) (hs : s.Spent i b) : s'.Spent i b := by
  intro bk' hb'
  obtain ⟨bk, hb, htokens, hexp⟩ := h.bucket bk' hb'
  have hnow := h.now
  rcases hs bk hb with hzero | hold
  · exact .inl (by omega)
  · exact .inr (by omega)

variable [DecidableEq ι] [ToString IpAddr]

theorem released_step {a : Action ι IpAddr} (h : Step cfg s a s') {g : Nat} {x : Grant ι IpAddr}
    (hx : s.ledger.grants[g]? = some x) (hreleased : x.released = true) :
    ∃ x', s'.ledger.grants[g]? = some x' ∧ x'.released = true := by
  have hkeeps {L : Ledger ι IpAddr} (hk : s.ledger.Keeps Grant.released L) :
      ∃ x', L.grants[g]? = some x' ∧ x'.released = true := by
    obtain ⟨x', hx', he⟩ := hk g x hx
    exact ⟨x', hx', he.trans hreleased⟩
  cases h with
  | script | orphan => exact hkeeps Ledger.keeps_lease
  | insert | spend => exact hkeeps (Ledger.keeps_amend fun _ _ => rfl)
  | note => exact hkeeps (Ledger.keeps_amend fun _ _ => rfl)
  | @release i c link chunks p rest hw hc =>
      obtain ⟨back, hgrants⟩ := s.ledger.release_grants p.grant p.id p.tokens p.window
      simp only [hgrants, Ledger.getElem?_amend, hx, Option.map_some]
      split
      · exact ⟨_, rfl, rfl⟩
      · exact ⟨x, rfl, hreleased⟩
  | notify | unclaimNone =>
      rw [resume_ledger]
      exact ⟨x, hx, hreleased⟩
  | spawn | move | rejected | claim | unreachable | refusedAbsent | refused | unclaim | takeAbsent | takeEmpty | remove
  | cancel | elapse | redisElapse | tickNothing | plan | sweep => exact ⟨x, hx, hreleased⟩

/-- The shutdown will look at `b`, or it has noted the bucket under `b`, or has given it back. -/
def Owed (s : Sys ι IpAddr) (i : ι) (b : BucketId IpAddr) : Prop :=
  b ∈ (s.insts i).worker.unseen ∨ (∃ p ∈ (s.insts i).worker.snapshots, p.grant = (s.insts i).origin b) ∨
    ∃ x, s.ledger.grants[(s.insts i).origin b]? = some x ∧ x.released = true

/-- No release of instance `i` fails to reach Redis. -/
def releasesArrive (i : ι) : Action ι IpAddr → Prop
  | .release j _ (.unreachable _) => j ≠ i
  | _ => True

/-- A bucket that gives tokens is passed on from one part of the shutdown to the next. -/
theorem owed_works {a : Action ι IpAddr} (h : s.Works i a s') (hg : releasesArrive i a) (hbooks : s.ShutdownBooks i)
    (hlive : ¬ s.Spent i b) (howed : b ∈ (s.insts i).worker.unseen ∨
      ∃ p ∈ (s.insts i).worker.snapshots, p.grant = (s.insts i).origin b) : s'.Owed i b := by
  cases h with
  | plan hp =>
      unfold Owed
      rw [setWorker_eq, setInst_insts_self]
      cases hp with
      | tick hw | shutdown hw | nothingHeld hw | collect hw | keep hw | collected hw | swept hw | noneExpired hw
      | noneNoted hw => simp [hw, Worker.unseen, Worker.snapshots] at howed
      | @skip b' todo found hw hspent =>
          simp only [hw, Worker.unseen, Worker.snapshots, List.mem_cons] at howed
          rcases howed with (rfl | htodo) | hfound
          · exact absurd hspent hlive
          · exact .inl htodo
          · exact .inr (.inl hfound)
      | noted hw =>
          simp only [hw, Worker.unseen, Worker.snapshots, List.not_mem_nil, false_or] at howed
          right; left
          rwa [Worker.snapshots, Chunks.flatten_chunks (by decide)]
      | unreachable hw hc => exact absurd rfl hg
      | @released chunks hw hall =>
          simp only [hw, Worker.unseen, Worker.snapshots, List.not_mem_nil, false_or, List.mem_flatten] at howed
          obtain ⟨p, ⟨chunk, hchunk, hmem⟩, -⟩ := howed
          rw [List.isEmpty_iff.mp (List.all_eq_true.mp hall chunk hchunk)] at hmem
          cases hmem
  | sweep hw => simp [hw, Worker.unseen, Worker.snapshots] at howed
  | @note b' todo found bk hw hb =>
      unfold Owed
      simp only [setWorker_eq, setInst_insts_self, Worker.unseen, Worker.snapshots, List.mem_append, List.mem_singleton]
      simp only [hw, Worker.unseen, Worker.snapshots, List.mem_cons] at howed
      rcases howed with (rfl | htodo) | ⟨p, hp, hgrant⟩
      · exact .inr (.inl ⟨_, .inr rfl, rfl⟩)
      · exact .inl htodo
      · exact .inr (.inl ⟨p, .inl hp, hgrant⟩)
  | @release c link chunks p rest hw hc =>
      have hperm := Chunks.perm_flatten_set hc
      simp only [ShutdownBooks, hw] at hbooks
      simp only [hw, Worker.unseen, Worker.snapshots, List.not_mem_nil, false_or, hperm.mem_iff, List.mem_cons] at howed
      unfold Owed
      simp only [setWorker_eq, setInst_insts_self, Worker.unseen, Worker.snapshots]
      right
      obtain ⟨q, rfl | hq, hgrant⟩ := howed
      · obtain ⟨x, hx, -⟩ := hbooks.2 q (hperm.mem_iff.mpr List.mem_cons_self)
        obtain ⟨back, hgrants⟩ := s.ledger.release_grants q.grant q.id q.tokens q.window
        right
        simp only [hgrants, Ledger.getElem?_amend, ← hgrant, hx, Option.map_some]
        exact ⟨_, rfl, rfl⟩
      · exact .inl ⟨q, hq, hgrant⟩

/-- The bucket that was under `b` at version `v` has been replaced, is spent, or is taken care of. -/
def Settled (s : Sys ι IpAddr) (i : ι) (b : BucketId IpAddr) (v : Nat) : Prop :=
  v < (s.insts i).version b ∨ v = (s.insts i).version b ∧ (¬ s.Spent i b → s.Owed i b)

theorem Settled.step {a : Action ι IpAddr} {v : Nat} (h : s.Settled i b v) (hbooks : s.ShutdownBooks i)
    (hg : releasesArrive i a) (hs : Step cfg s a s') : s'.Settled i b v := by
  rcases wears_step hs i b with hwears | hlt
  · rw [Settled, hwears.version]
    refine h.imp_right fun ⟨hv, howed⟩ => ⟨hv, fun hlive' => ?_⟩
    have hlive : ¬ s.Spent i b := fun hspent => hlive' (hwears.spent hspent)
    have hreleased {x : Grant ι IpAddr} (hx : s.ledger.grants[(s.insts i).origin b]? = some x) (hr : x.released = true) :
        s'.Owed i b := by
      rw [Owed, hwears.origin]
      exact .inr (.inr (released_step hs hx hr))
    rcases works_step hs i with hrests | hworks
    · rcases howed hlive with hunseen | hnoted | ⟨x, hx, hr⟩
      · exact .inl (hrests ▸ hunseen)
      · exact .inr (.inl (by rwa [hrests, hwears.origin]))
      · exact hreleased hx hr
    · rcases howed hlive with hunseen | hnoted | ⟨x, hx, hr⟩
      · exact owed_works hworks hg hbooks hlive (.inl hunseen)
      · exact owed_works hworks hg hbooks hlive (.inr hnoted)
      · exact hreleased hx hr
  · left
    rcases h with hv | ⟨hv, -⟩
    · exact Nat.lt_trans hv hlt
    · exact hv ▸ hlt

theorem Settled.run {v : Nat} (h : s.Settled i b v) (hs : Reach (sys cfg) s)
    (hrun : RunWhen (sys cfg) (fun _ => releasesArrive i) s s') : s'.Settled i b v := by
  induction hrun with
  | refl => exact h
  | tail hr hg hnext ih =>
      have hs₁ : Reach (sys cfg) _ := (hr.mono fun _ _ _ => trivial).reach hs
      exact ih.step ((books_valid hs₁).1.shutdown i) hg (step_of_next hnext)

end Sys

section Shutdown

variable [DecidableEq ι] [DecidableEq IpAddr] [ToString IpAddr] {cfg : Config} {s s' s₁ : Sys ι IpAddr} {i : ι}
  {b : BucketId IpAddr}

/-- When the shutdown of an instance is complete, whatever can still be spent there of a bucket that
nobody has replaced since it began has been given back to Redis, with releases that all arrive. -/
theorem shutdown_is_complete (hs : Reach (sys cfg) s) {order : List (BucketId IpAddr)}
    (hdown : (sys cfg).next s (.shutdown i order) = some s₁) (hrun : RunWhen (sys cfg) (fun _ => Sys.releasesArrive i) s₁ s')
    (hcomplete : (s'.insts i).worker = .complete) (hversion : (s'.insts i).version b = (s.insts i).version b)
    {bk : Bucket} (hb : (s'.insts i).store.buckets.get b = some bk) (htokens : 0 < bk.tokens)
    (hlive : (s'.insts i).now < bk.expiresAt) :
    ∃ x t, s'.ledger.grants[(s'.insts i).origin b]? = some x ∧ x.inst = i ∧ x.id = b ∧ x.released = true ∧
      x.noted = some t ∧ bk.tokens ≤ t := by
  have hs₁ : Reach (sys cfg) s₁ := hs.step trivial hdown
  have hs' : Reach (sys cfg) s' := (hrun.mono fun _ _ _ => trivial).reach hs₁
  have hsettled : s₁.Settled i b ((s.insts i).version b) := by
    cases (Sys.step_of_next hdown : Sys.Step cfg s (.shutdown i order) s₁) with
    | plan hp =>
        right
        cases hp with
        | nothingHeld hw hempty =>
            refine ⟨by simp, fun hlive => absurd (fun bk hb => ?_) hlive⟩
            rw [Sys.setWorker_eq, Sys.setInst_insts_self, DashMap.get_of_isEmpty hempty] at hb
            cases hb
        | shutdown hw hcovers =>
            refine ⟨by simp, fun hlive => ?_⟩
            unfold Sys.Owed
            simp only [Sys.setWorker_eq, Sys.setInst_insts_self, Worker.unseen]
            left
            by_contra hno
            apply hlive
            intro bk hb
            rw [Sys.setWorker_eq, Sys.setInst_insts_self] at hb
            exact absurd (hcovers.2 b ((DashMap.mem_keys_iff _ b).mpr (by rw [hb]; rfl))) hno
  have hend : s'.Settled i b ((s.insts i).version b) := hsettled.run hs₁ hrun
  have hunspent : ¬ s'.Spent i b := by
    intro hspent
    rcases hspent bk hb with hzero | hexp <;> omega
  obtain ⟨x, hx, hreleased⟩ : ∃ x, s'.ledger.grants[(s'.insts i).origin b]? = some x ∧ x.released = true := by
    rcases hend with hlt | ⟨-, howed⟩
    · omega
    · rcases howed hunspent with hunseen | ⟨p, hp, -⟩ | hreleased
      · rw [hcomplete] at hunseen
        cases hunseen
      · rw [hcomplete] at hp
        cases hp
      · exact hreleased
  obtain ⟨-, hvalid⟩ := books_valid hs'
  obtain ⟨y, hy, hinst, hid, -, hleft⟩ := hvalid.lots i b ⟨bk.tokens, (s'.insts i).origin b⟩ (by
    simp only [Sys.account, hb, Option.map_some])
  obtain rfl := Option.some.inj (hx.symm.trans hy)
  have hmem := List.mem_of_getElem? hx
  cases hnoted : x.noted with
  | none =>
      rw [(hvalid.balanced.sound x hmem).unnoted hnoted] at hreleased
      cases hreleased
  | some t =>
      have hcovers := noted_covers ((account_simulation fun _ _ _ _ _ => trivial).reach hs') hmem hnoted
      simp only at hleft
      exact ⟨x, t, hx, hinst, hid, hreleased, hnoted, by omega⟩

/-- A call takes a token between the look at its bucket and the release of what was found there. -/
theorem shutdown_is_complete_under_calls : ∃ s s₁ s', (sys .cleaning).exec (testStart .cleaning) [.spawn 0 () testUser,
      .run 0, .run 0, .run 0, .eval 0 .answers, .run 0, .run 0, .run 0, .run 0, .run 0] = some s ∧
    (sys .cleaning).next s (.shutdown () [testUser]) = some s₁ ∧
    (sys .cleaning).exec s₁ [.visit (), .spawn 1 () testUser, .run 1, .run 1, .visit (), .release () 0 .answers,
      .join ()] = some s' ∧
    ∃ x t, s'.ledger.grants[(s'.insts ()).origin testUser]? = some x ∧ x.inst = () ∧ x.id = testUser ∧
      x.released = true ∧ x.noted = some t ∧ 1998 ≤ t := by
  have hstart : ((sys .cleaning).exec (testStart .cleaning) [.spawn 0 () testUser, .run 0, .run 0, .run 0,
      .eval 0 .answers, .run 0, .run 0, .run 0, .run 0, .run 0]).map (fun s => ((s.insts ()).version testUser,
        ((sys .cleaning).next s (.shutdown () [testUser])).map fun s₁ => ((sys .cleaning).exec s₁ [.visit (),
          .spawn 1 () testUser, .run 1, .run 1, .visit (), .release () 0 .answers, .join ()]).map fun s' =>
            ((s'.insts ()).worker, (s'.insts ()).version testUser, (s'.insts ()).store.buckets.get testUser,
              (s'.insts ()).now))) =
      some (1, some (some (.complete, 1, some ⟨1998, 60000000000, 60000, false⟩, 0))) := rfl
  obtain ⟨s, hs, hseen⟩ := Option.map_eq_some_iff.mp hstart
  obtain ⟨hversion, hdown⟩ := Prod.mk.inj hseen
  obtain ⟨s₁, hs₁, hpass⟩ := Option.map_eq_some_iff.mp hdown
  obtain ⟨s', hs', hend⟩ := Option.map_eq_some_iff.mp hpass
  simp only [Prod.mk.injEq] at hend
  obtain ⟨hcomplete, hversion', hb, hnow⟩ := hend
  have hrun : RunWhen (sys .cleaning) (fun _ => Sys.releasesArrive ()) s₁ s' := by
    apply RunWhen.of_exec _ hs'
    simp [Sys.releasesArrive]
  exact ⟨s, s₁, s', hs, hs₁, hs', shutdown_is_complete (Reach.exec (testStart_init _) _ hs) hs₁ hrun hcomplete
    (hversion'.trans hversion.symm) hb (by decide) (by rw [hnow]; decide)⟩

end Shutdown

end ThatLimit
