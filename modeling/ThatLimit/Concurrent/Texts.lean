import ThatLimit.Concurrent.Books
import ThatLimit.Core.ScriptText
/-!
# The tasks with the scripts as they are sent

The concurrent system with the texts of the scripts in place of what they are meant to do: Redis
keeps texts, runs the scripts it is sent and deletes expired keys when it likes, and a task
goes on with what it reads in the reply. The ledger is history. While the numbers are exact the
tasks cannot tell.
-/

namespace ThatLimit

open Transition Lua

variable {ι IpAddr : Type}

/-- The snapshot that chunk `c` of a shutdown sends next. -/
def Sys.unsent (s : Sys ι IpAddr) (i : ι) (c : Nat) : Option (Snapshot IpAddr) :=
  match (s.insts i).worker with
  | .releasing chunks => chunks[c]?.bind List.head?
  | _ => none

theorem Sys.unsent_eq_some {s : Sys ι IpAddr} {i : ι} {c : Nat} {p : Snapshot IpAddr} (h : s.unsent i c = some p) :
    ∃ chunks rest, (s.insts i).worker = .releasing chunks ∧ chunks[c]? = some (p :: rest) := by
  unfold Sys.unsent at h
  split at h
  · next chunks hw =>
      obtain ⟨l, hl, hp⟩ := Option.bind_eq_some_iff.mp h
      obtain ⟨rest, rfl⟩ := List.head?_eq_some_iff.mp hp
      exact ⟨chunks, rest, hw, hl⟩
  · cases h

variable [ToString IpAddr]

theorem Ledger.lease_now (L : Ledger ι IpAddr) (cfg : Config) (i : ι) (b : BucketId IpAddr) :
    (L.lease cfg i b).2.server.now = L.server.now := by
  rw [(L.lease_eq cfg i b).2, Server.lease_now]

variable [DecidableEq ι] [DecidableEq IpAddr]

structure Texted (ι IpAddr : Type) where
  sys : Sys ι IpAddr
  redis : TextRedis

inductive TextedAction (ι IpAddr : Type)
  | act (a : Action ι IpAddr)
  /-- Redis deletes a key that has expired. -/
  | purge (key : String)

/-- The script that `cache::lease` sends for `Store::lease`. -/
def Config.leaseScript (cfg : Config) (b : BucketId IpAddr) : Script :=
  .lease b.toKey (cfg.policy b).leaseSize (cfg.policy b).quota (asSecs (cfg.policy b).resetIn)

/-- The reply read as `(u64, u64, i64)`. -/
def decodeLease : Except RedisError Reply → Except CacheError Leased
  | .error e => .error (.redis e)
  | .ok (.array [.int leased, .int pttl, .int window]) => LeaseReply.decode ⟨leased, pttl, window⟩
  | .ok _ => .error (.redis .unexpectedReturnType)

/-- The actions that Redis takes part in. -/
def Action.asks : Action ι IpAddr → Bool
  | .eval .. | .orphan _ | .release .. | .redisElapse _ => true
  | _ => false

theorem Sys.server_of_step {cfg : Config} {s s' : Sys ι IpAddr} {a : Action ι IpAddr} (h : Step cfg s a s')
    (ha : a.asks = false) : s'.ledger.server = s.ledger.server := by
  cases h with
  | unclaimNone hk hpc hc => rename_i res; cases res <;> rfl
  | notify hk hpc => rename_i res; cases res <;> rfl
  | script | unreachable | orphan | redisElapse | release => cases ha
  | _ => rfl

namespace Texted

section Steps

variable (R : Type) [Number R]

def eval (s : Texted ι IpAddr) (cfg : Config) (t : Nat) (link : Link) : Option (Texted ι IpAddr) :=
  match s.sys.tasks t with
  | none => none
  | some k =>
      match k.pc with
      | .eval n started =>
          let g := s.sys.ledger.grants.length
          let r := (cfg.leaseScript k.id).execute R s.redis
          let ledger := (s.sys.ledger.lease cfg k.inst k.id).2
          match link with
          | .answers => some { sys := { s.sys with ledger }.goto t k (.reply n started (decodeLease r.1) g), redis := r.2 }
          | .replyLost e =>
              some { sys := { s.sys with ledger }.goto t k (.reply n started (.error (.redis e)) g), redis := r.2 }
          | .unreachable e => some { s with sys := s.sys.goto t k (.reply n started (.error (.redis e)) g) }
      | _ => none

def orphan (s : Texted ι IpAddr) (cfg : Config) (t : Nat) : Option (Texted ι IpAddr) :=
  (s.sys.orphan cfg t).map fun sys =>
    { sys, redis := (s.sys.tasks t).elim s.redis fun k => ((cfg.leaseScript k.id).execute R s.redis).2 }

def release (s : Texted ι IpAddr) (i : ι) (c : Nat) (link : Link) : Option (Texted ι IpAddr) :=
  (s.sys.release i c link).map fun sys =>
    match link with
    | .unreachable _ => { s with sys }
    | _ => { sys, redis := (s.sys.unsent i c).elim s.redis fun p =>
        ((Script.release p.id.toKey p.tokens p.window).execute R s.redis).2 }

def next (cfg : Config) (s : Texted ι IpAddr) : TextedAction ι IpAddr → Option (Texted ι IpAddr)
  | .purge key => some { s with redis := s.redis.purge key }
  | .act (.eval t link) => s.eval R cfg t link
  | .act (.orphan t) => s.orphan R cfg t
  | .act (.release i c link) => s.release R i c link
  | .act (.redisElapse ms) => some { sys := { s.sys with ledger := s.sys.ledger.elapse ms }, redis := s.redis.elapse ms }
  | .act a => (s.sys.next cfg a).map fun sys => { s with sys }

theorem next_act {R : Type} [Number R] {cfg : Config} {s : Texted ι IpAddr} {a : Action ι IpAddr} (h : a.asks = false) :
    s.next R cfg (.act a) = (s.sys.next cfg a).map fun sys => { s with sys } := by
  cases a <;> first | rfl | cases h

end Steps

/-- The windows that would open now end before the numbers cease to be exact. -/
def Early (cfg : Config) (s : Texted ι IpAddr) (_ : TextedAction ι IpAddr) : Prop :=
  ∀ b : BucketId IpAddr, s.sys.ledger.server.now + asSecs (cfg.policy b).resetIn * 1000 ≤ 2 ^ 53

/-- Redis has the live keys that the history says. -/
def Told (s : Texted ι IpAddr) : Prop :=
  s.redis.SameLive (.ofDb s.sys.ledger.server.db s.sys.ledger.server.now)

end Texted

/-- The runs of the tasks over a Redis of texts. -/
def texted (R : Type) [Number R] (cfg : Config) : System (Texted ι IpAddr) (TextedAction ι IpAddr) where
  init s := ∃ clock now, s = { sys := Sys.start cfg clock now, redis := { db := fun _ => none, now } }
  next := Texted.next R cfg

section Numbers

variable {cfg : Config} {s : Sys ι IpAddr} {b : BucketId IpAddr}

theorem fits_of_early (hs : Reach (sys cfg) s) (hquota : (cfg.policy b).quota ≤ 2 ^ 53)
    (hearly : s.ledger.server.now + asSecs (cfg.policy b).resetIn * 1000 ≤ 2 ^ 53) :
    s.ledger.server.db.Fits s.ledger.server.now b.toKey := by
  have haccount : Reach (accounts cfg) s.account := (account_simulation fun _ _ _ _ _ => trivial).reach hs
  unfold Db.Fits Db.pttl Db.pexpiretime Db.get Exact
  cases hf : s.ledger.server.db.find s.ledger.server.now b.toKey with
  | none => simp
  | some e =>
      obtain ⟨hdb, hlive⟩ := Db.find_eq_some_iff.mp hf
      obtain ⟨hpos, hle⟩ := (accounts_valid haccount).balanced.value_range hdb
      obtain ⟨w, hw, hbound⟩ := accounts_expiry haccount b e hdb
      change w ≤ s.ledger.server.now + _ at hbound
      simp only [Entry.live, hw, decide_eq_true_eq] at hlive
      simp only [Option.map_some, Option.getD_some, Entry.pttl, Entry.pexpiretime, hw, Option.some.injEq, forall_eq']
      omega

/-- A snapshot that is to be sent names tokens of its grant and the window they are from. -/
theorem unsent_fits (hs : Reach (sys cfg) s) {i : ι} {c : Nat} {p : Snapshot IpAddr} (hp : s.unsent i c = some p)
    (hquota : (cfg.policy p.id).quota ≤ 2 ^ 53)
    (hearly : s.ledger.server.now + asSecs (cfg.policy p.id).resetIn * 1000 ≤ 2 ^ 53) :
    p.tokens ≤ 2 ^ 53 ∧ 0 ≤ p.window ∧ Exact p.window := by
  have haccount : Reach (accounts cfg) s.account := (account_simulation fun _ _ _ _ _ => trivial).reach hs
  obtain ⟨hbooks, hvalid⟩ := books_valid hs
  obtain ⟨chunks, rest, hw, hc⟩ := Sys.unsent_eq_some hp
  have hnoted := hbooks.shutdown i
  unfold Sys.ShutdownBooks at hnoted
  rw [hw] at hnoted
  obtain ⟨x, hx, hpaper⟩ := hnoted.2 p ((Chunks.perm_flatten_set hc).mem_iff.mpr List.mem_cons_self)
  obtain ⟨-, hid, hwindow, hnote, -⟩ := Grant.paper_eq_some.mp hpaper
  have hmem : x ∈ s.account.ledger.grants := List.mem_of_getElem? hx
  have hsound := hvalid.balanced.sound x hmem
  have htokens := hsound.noted_le _ hnote
  have hgrant := grant_le_leaseSize haccount x hmem
  have hsize := (cfg.policy x.id).leaseSize_le
  have hnonneg := hsound.window_nonneg
  rw [hid] at hgrant hsize
  rw [hwindow] at hnonneg
  refine ⟨by omega, hnonneg, by omega, ?_⟩
  cases hdb : s.account.ledger.server.db p.id.toKey with
  | none => exact absurd (congrArg BucketId.toKey hid) ((hvalid.balanced.absent p.id hdb).2 x hmem)
  | some e =>
      obtain ⟨w, hw, -, -, -, hwindows⟩ := hvalid.balanced.stored p.id e hdb
      obtain ⟨w', hw', hbound⟩ := accounts_expiry haccount p.id e hdb
      obtain rfl := Option.some.inj (hw.symm.trans hw')
      change w ≤ s.ledger.server.now + _ at hbound
      rcases hwindows x hmem (congrArg BucketId.toKey hid) with ⟨-, heq⟩ | ⟨-, hlt⟩ <;> omega

end Numbers

section Results

variable {R : Type} [Number R] [LawfulNumber R] {cfg : Config} {s : Sys ι IpAddr} {redis : TextRedis} {b : BucketId IpAddr}

/-- The text of the lease script replies what the ledger is told, and leaves the live keys it is told of. -/
theorem leaseScript_told (hs : Reach (sys cfg) s) (hquota : (cfg.policy b).quota ≤ 2 ^ 53)
    (hearly : s.ledger.server.now + asSecs (cfg.policy b).resetIn * 1000 ≤ 2 ^ 53)
    (htold : redis.SameLive (.ofDb s.ledger.server.db s.ledger.server.now)) (i : ι) :
    decodeLease ((cfg.leaseScript b).execute R redis).1 =
      ((s.ledger.lease cfg i b).1.mapError CacheError.redis).bind LeaseReply.decode ∧
    ((cfg.leaseScript b).execute R redis).2.SameLive
      (.ofDb (s.ledger.lease cfg i b).2.server.db s.ledger.server.now) := by
  obtain ⟨hreply, hlive⟩ := (cfg.leaseScript b).execute_agree (R := R) htold
  have htext := leaseText_eq (R := R) (cfg.policy b).leaseSize_le hquota hearly (fits_of_early hs hquota hearly)
  obtain ⟨hres, hserver⟩ := s.ledger.lease_eq cfg i b
  change (cfg.leaseScript b).execute R _ = _ at htext
  rw [htext] at hreply hlive
  rw [hreply, hres, hserver]
  unfold Server.lease
  cases hscript : leaseScript s.ledger.server.db s.ledger.server.now b.toKey (cfg.policy b).leaseSize
      (cfg.policy b).quota (asSecs (cfg.policy b).resetIn) with
  | error e =>
      rw [hscript] at hlive
      exact ⟨rfl, hlive⟩
  | ok r =>
      rw [hscript] at hlive
      exact ⟨rfl, hlive⟩

/-- The text of the release script does to the live keys what the ledger is told. -/
theorem releaseScript_told (hs : Reach (sys cfg) s) {i : ι} {c : Nat} {p : Snapshot IpAddr} (hp : s.unsent i c = some p)
    (hquota : (cfg.policy p.id).quota ≤ 2 ^ 53)
    (hearly : s.ledger.server.now + asSecs (cfg.policy p.id).resetIn * 1000 ≤ 2 ^ 53)
    (htold : redis.SameLive (.ofDb s.ledger.server.db s.ledger.server.now)) :
    ((Script.release p.id.toKey p.tokens p.window).execute R redis).2.SameLive
      (.ofDb (s.ledger.release p.grant p.id p.tokens p.window).2.server.db s.ledger.server.now) := by
  obtain ⟨htokens, hnonneg, hwindow⟩ := unsent_fits hs hp hquota hearly
  obtain ⟨-, hlive⟩ := (Script.release p.id.toKey p.tokens p.window).execute_agree (R := R) htold
  have htext := releaseText_eq (R := R) hwindow hnonneg (fits_of_early hs hquota hearly) htokens
  change (Script.release p.id.toKey p.tokens p.window).execute R _ = _ at htext
  rw [htext] at hlive
  exact hlive

theorem texted_eval {s s' : Texted ι IpAddr} {t : Nat} {link : Link}
    (hquota : ∀ b : BucketId IpAddr, (cfg.policy b).quota ≤ 2 ^ 53) (hs : Reach (sys cfg) s.sys) (htold : s.Told)
    (hearly : s.Early cfg (.act (.eval t link))) (hnext : s.eval R cfg t link = some s') :
    s'.Told ∧ (s'.sys = s.sys ∨ ∃ a, (sys cfg).next s.sys a = some s'.sys) := by
  unfold Texted.eval at hnext
  split at hnext
  · cases hnext
  · next k hk =>
      split at hnext
      · next n started hpc =>
          obtain ⟨hreply, hlive⟩ := leaseScript_told (R := R) hs (hquota k.id) (hearly k.id) htold k.inst
          rw [← s.sys.ledger.lease_now cfg k.inst k.id] at hlive
          cases link with
          | answers =>
              simp only [Option.some.injEq] at hnext
              subst hnext
              refine ⟨hlive, .inr ⟨.eval t .answers, ?_⟩⟩
              simp only [sys, Sys.next, Sys.eval, hk, hpc, hreply]
          | replyLost e =>
              cases hnext
              refine ⟨hlive, .inr ⟨.eval t (.replyLost e), ?_⟩⟩
              simp only [sys, Sys.next, Sys.eval, hk, hpc]
          | unreachable e =>
              cases hnext
              refine ⟨htold, .inr ⟨.eval t (.unreachable e), ?_⟩⟩
              simp only [sys, Sys.next, Sys.eval, hk, hpc]
      · cases hnext

/-- Every step is one of the tasks or a deletion, and keeps Redis at what the history says. -/
theorem texted_step {s s' : Texted ι IpAddr} {a : TextedAction ι IpAddr}
    (hquota : ∀ b : BucketId IpAddr, (cfg.policy b).quota ≤ 2 ^ 53) (hs : Reach (sys cfg) s.sys) (htold : s.Told)
    (hearly : s.Early cfg a) (hnext : s.next R cfg a = some s') :
    s'.Told ∧ (s'.sys = s.sys ∨ ∃ a, (sys cfg).next s.sys a = some s'.sys) := by
  cases a with
  | purge key =>
      cases hnext
      exact ⟨htold.purge key, .inl rfl⟩
  | act a =>
      cases hasks : a.asks with
      | false =>
          rw [Texted.next_act hasks] at hnext
          obtain ⟨sys', hsys, rfl⟩ := Option.map_eq_some_iff.mp hnext
          refine ⟨?_, .inr ⟨a, hsys⟩⟩
          unfold Texted.Told
          rw [Sys.server_of_step (Sys.step_of_next hsys) hasks]
          exact htold
      | true =>
          cases a with
          | eval t link => exact texted_eval hquota hs htold hearly hnext
          | orphan t =>
              obtain ⟨sys', hsys, rfl⟩ := Option.map_eq_some_iff.mp hnext
              refine ⟨?_, .inr ⟨.orphan t, hsys⟩⟩
              cases (Sys.step_of_next hsys : Sys.Step cfg s.sys (.orphan t) sys') with
              | @orphan _ k hk hpc =>
                  have hlive := (leaseScript_told (R := R) hs (hquota k.id) (hearly k.id) htold k.inst).2
                  rw [← s.sys.ledger.lease_now cfg k.inst k.id] at hlive
                  simp only [Texted.Told, hk, Option.elim_some]
                  exact hlive
              | plan hp => cases hp
          | release i c link =>
              obtain ⟨sys', hsys, rfl⟩ := Option.map_eq_some_iff.mp hnext
              refine ⟨?_, .inr ⟨.release i c link, by cases link <;> exact hsys⟩⟩
              unfold Sys.release at hsys
              split at hsys
              · next chunks hw =>
                  split at hsys
                  · next p rest hc =>
                      have hp : s.sys.unsent i c = some p := by simp [Sys.unsent, hw, hc]
                      have hlive := releaseScript_told (R := R) hs hp (hquota p.id) (hearly p.id) htold
                      cases link with
                      | unreachable e =>
                          cases hsys
                          exact htold
                      | answers | replyLost e =>
                          cases hsys
                          simp only [Texted.Told, hp, Option.elim_some]
                          exact hlive
                  · cases hsys
              · cases hsys
          | redisElapse ms =>
              cases hnext
              exact ⟨htold.elapse ms, .inr ⟨.redisElapse ms, rfl⟩⟩
          | _ => cases hasks

/-- The tasks over a Redis of texts do nothing that they do not do over the Redis of the model, and Redis has the live
keys the model says. -/
theorem texts_do_as_told (hquota : ∀ b : BucketId IpAddr, (cfg.policy b).quota ≤ 2 ^ 53) {s : Texted ι IpAddr}
    (hs : ReachWhen (texted R cfg) (Texted.Early cfg) s) : Reach (sys cfg) s.sys ∧ s.Told := by
  apply ReachWhen.invariant (I := fun s : Texted ι IpAddr => Reach (sys cfg) s.sys ∧ s.Told) _ _ hs
  · rintro _ ⟨clock, now, rfl⟩
    exact ⟨.init ⟨clock, now, rfl⟩, rfl, fun _ => rfl⟩
  · rintro s a s' - ⟨hsys, htold⟩ hearly hnext
    obtain ⟨htold', heq | ⟨b, hb⟩⟩ := texted_step hquota hsys htold hearly hnext
    · exact ⟨heq ▸ hsys, htold'⟩
    · exact ⟨.step hsys trivial hb, htold'⟩

/-- Integers count like doubles as long as these are exact. -/
instance : Number Int where
  ofInt n := n
  ofString := String.toInt?
  toString := Int.repr
  toInt n := n
  sub a b := a - b
  lt a b := decide (a < b)
  le a b := decide (a ≤ b)
  beq a b := decide (a = b)

instance : LawfulNumber Int where
  ofString_repr _ := Int.toInt?_repr _
  toString_ofInt _ := rfl
  toInt_ofInt _ := rfl
  sub_ofInt _ _ _ := rfl
  lt_ofInt _ _ := rfl
  le_ofInt _ _ := rfl
  beq_ofInt _ _ := rfl

/-- The first call of all has the lease script run. -/
theorem first_text_does_as_told : ∃ s : Texted Unit String,
    (texted Int .default).exec { sys := testStart .default, redis := { db := fun _ => none, now := 0 } }
      [.act (.spawn 0 () testUser), .act (.run 0), .act (.run 0), .act (.run 0), .act (.eval 0 .answers)] = some s ∧
    Reach (sys .default) s.sys ∧ s.Told := by
  have hearly : ∀ (s : Texted Unit String) (a : TextedAction Unit String),
      decide (s.sys.ledger.server.now = 0) = true → Texted.Early .default s a := by
    intro s a h b
    rw [of_decide_eq_true h]
    cases b with
    | publicIp => exact (by decide : 0 + asSecs Config.default.publicPolicy.resetIn * 1000 ≤ 2 ^ 53)
    | protectedSub => exact (by decide : 0 + asSecs Config.default.protectedPolicy.resetIn * 1000 ≤ 2 ^ 53)
  have hstart : ReachWhen (texted Int .default) (Texted.Early .default)
      ({ sys := testStart .default, redis := { db := fun _ => none, now := 0 } } : Texted Unit String) :=
    .init ⟨_, _, rfl⟩
  obtain ⟨s, hs⟩ := Option.isSome_iff_exists.mp (rfl : ((texted Int .default).execWhen
    (fun s _ => decide (s.sys.ledger.server.now = 0)) { sys := testStart .default, redis := { db := fun _ => none, now := 0 } }
      [.act (.spawn 0 () testUser), .act (.run 0), .act (.run 0), .act (.run 0), .act (.eval 0 .answers)]).isSome = true)
  have hquota (b : BucketId String) : (Config.default.policy b).quota ≤ 2 ^ 53 := by
    cases b <;> simp [Config.policy, Config.default]
  exact ⟨s, System.exec_of_execWhen hs, texts_do_as_told hquota (hstart.execWhen_of hearly _ hs)⟩

end Results

end ThatLimit
