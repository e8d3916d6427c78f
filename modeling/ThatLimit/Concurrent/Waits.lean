import ThatLimit.Concurrent.Meter
/-!
# How long a refused request is told to wait

The three clocks move on their own, and a reply may be as late as it likes. All that a
reply, a bucket and a refusal say of the time left goes back to the `PTTL` of a key,
which is never more than a window, and on the way to the request only gets shorter.
-/

namespace ThatLimit

open Transition

variable {ι IpAddr : Type} [DecidableEq IpAddr]

/-- The length of a window as the lease script sets it, in nanoseconds. -/
def Policy.windowTime (p : Policy) : Nat := fromSecs (asSecs p.resetIn)

theorem fromMillis_windowTime (p : Policy) : fromMillis (asSecs p.resetIn * 1000) = p.windowTime := by
  simp only [fromMillis, Policy.windowTime, fromSecs]
  omega

/-- The policy has windows, and the time is within one. -/
def Policy.Allows (p : Policy) (time : Nat) : Prop := p.Grantable ∧ time ≤ p.windowTime

theorem Policy.Allows.mono {p : Policy} {time time' : Nat} (h : p.Allows time) (hle : time' ≤ time) : p.Allows time' :=
  ⟨h.1, hle.trans h.2⟩

/-- A refusal names the id it is about and a time within its window. -/
def StoreError.Brief (b : BucketId IpAddr) (p : Policy) : StoreError IpAddr → Prop
  | .exhausted c retryAfter => c = b ∧ p.Allows retryAfter
  | .cache _ => True

/-- What a task knows of the time left. -/
def Pc.Brief (b : BucketId IpAddr) (p : Policy) : Pc IpAddr → Prop
  | .reply _ _ (.ok r) _ => p.Allows (fromMillis r.pttl)
  | .leased _ _ _ ttl _ => p.Allows ttl
  | .refilled _ (.error e) => e.Brief b p
  | .notify _ (.error e) => e.Brief b p
  | .done (.error e) => e.Brief b p
  | _ => True

namespace Sys

structure Brief (cfg : Config) (s : Sys ι IpAddr) : Prop where
  buckets : ∀ i b bk, (s.insts i).store.buckets.get b = some bk →
    (cfg.policy b).Allows (bk.expiresAt - (s.insts i).now)
  tasks : ∀ t k, s.tasks t = some k → k.pc.Brief k.id (cfg.policy k.id)
  answers : ∀ a e, a ∈ s.answers → a.res = .error e → e.Brief a.id (cfg.policy a.id)

variable {cfg : Config} {s s' s₁ : Sys ι IpAddr} {t : Nat} {k : Task ι IpAddr} {pc : Pc IpAddr}

theorem Brief.goto (h : s.Brief cfg)
    (hbuckets : ∀ i b bk, (s₁.insts i).store.buckets.get b = some bk →
      (cfg.policy b).Allows (bk.expiresAt - (s₁.insts i).now))
    (hpc : pc.Brief k.id (cfg.policy k.id)) (htasks : s₁.tasks = s.tasks := by rfl)
    (hanswers : s₁.answers = s.answers := by rfl) : (s₁.goto t k pc).Brief cfg := by
  refine ⟨hbuckets, fun t' k' hk' => ?_, fun a e ha he => h.answers a e (hanswers ▸ ha) he⟩
  rcases goto_tasks_cases hk' with ⟨-, rfl⟩ | ⟨-, hold⟩
  · exact hpc
  · exact h.tasks t' k' (htasks ▸ hold)

theorem Brief.answer (h : s.Brief cfg)
    (hbuckets : ∀ i b bk, (s₁.insts i).store.buckets.get b = some bk →
      (cfg.policy b).Allows (bk.expiresAt - (s₁.insts i).now))
    {res : Except (StoreError IpAddr) Nat} (hres : ∀ e, res = .error e → e.Brief k.id (cfg.policy k.id))
    (htasks : s₁.tasks = s.tasks := by rfl) (hanswers : s₁.answers = s.answers := by rfl) :
    (s₁.answer t k res).Brief cfg := by
  have hdone : (Pc.done res).Brief k.id (cfg.policy k.id) := by
    cases res with
    | ok left => trivial
    | error e => exact hres e rfl
  have hgoto : (s₁.goto t k (.done res)).Brief cfg := h.goto hbuckets hdone htasks hanswers
  refine ⟨hgoto.buckets, hgoto.tasks, fun a e ha he => ?_⟩
  rcases List.mem_append.mp ha with hold | hnew
  · exact hgoto.answers a e hold he
  · obtain rfl := List.mem_singleton.mp hnew
    exact hres e he

theorem Brief.resume (h : s.Brief cfg)
    (hbuckets : ∀ i b bk, (s₁.insts i).store.buckets.get b = some bk →
      (cfg.policy b).Allows (bk.expiresAt - (s₁.insts i).now))
    {res : Except (StoreError IpAddr) Unit} (hres : ∀ e, res = .error e → e.Brief k.id (cfg.policy k.id))
    (htasks : s₁.tasks = s.tasks := by rfl) (hanswers : s₁.answers = s.answers := by rfl) :
    (s₁.resume t k res).Brief cfg := by
  cases res with
  | ok _ => exact h.goto hbuckets trivial htasks hanswers
  | error e => exact h.answer hbuckets (fun e' he => hres e' (by cases he; rfl)) htasks hanswers

variable [DecidableEq ι]

theorem Brief.update (h : s.Brief cfg) {i : ι} {v : Inst IpAddr} (hinsts : s'.insts = Function.update s.insts i v)
    (hv : ∀ b bk, v.store.buckets.get b = some bk → (cfg.policy b).Allows (bk.expiresAt - v.now)) :
    ∀ j b bk, (s'.insts j).store.buckets.get b = some bk → (cfg.policy b).Allows (bk.expiresAt - (s'.insts j).now) := by
  rw [hinsts]
  exact (Function.forall_update_iff s.insts fun _ v => ∀ b bk, v.store.buckets.get b = some bk →
    (cfg.policy b).Allows (bk.expiresAt - v.now)).mpr ⟨hv, fun j _ => h.buckets j⟩

theorem Brief.modify (h : s.Brief cfg) (i : ι) (b : BucketId IpAddr) {f : Bucket → Bucket}
    (hinsts : s'.insts = (s.modifyBucket i b f).insts) (hf : ∀ bk, (f bk).expiresAt = bk.expiresAt) :
    ∀ j c bk, (s'.insts j).store.buckets.get c = some bk → (cfg.policy c).Allows (bk.expiresAt - (s'.insts j).now) := by
  refine h.update hinsts fun c bk hc => ?_
  obtain ⟨bk₀, hc₀, ⟨-, rfl⟩ | ⟨-, rfl⟩⟩ := DashMap.get_modify_eq_some.mp hc
  · rw [hf]
    exact h.buckets i c bk₀ hc₀
  · exact h.buckets i c _ hc₀

theorem leaseTtl_le (pttl started now : Nat) : leaseTtl pttl started now ≤ fromMillis pttl := Nat.sub_le ..

variable [ToString IpAddr]

theorem allows_pttl (hs : Reach (accounts cfg) s.account) {i : ι} {b : BucketId IpAddr} {reply : LeaseReply}
    {L : Ledger ι IpAddr} (hl : s.ledger.lease cfg i b = (.ok reply, L)) :
    (cfg.policy b).Allows (fromMillis reply.pttl.toNat) := by
  obtain ⟨server, hserver, -⟩ := Ledger.lease_ok hl
  constructor
  · by_contra hno
    have hdb : s.ledger.server.db b.toKey = none := ungranted hs hno
    have hf : s.ledger.server.find b.toKey = none := by simp [Server.find, Db.find, hdb]
    obtain ⟨hpos, hrange⟩ := Server.lease_range hf hserver
    exact hno ⟨hpos, Nat.lt_of_le_of_lt (Nat.le_add_right ..) hrange⟩
  · have hlive (e : Entry) (hf : s.ledger.server.find b.toKey = some e) :
        e.pttl s.ledger.server.now ≤ asSecs (cfg.policy b).resetIn * 1000 := by
      obtain ⟨w, hw, hle⟩ := accounts_expiry hs b e (Db.find_eq_some_iff.mp hf).1
      have hle : w ≤ s.ledger.server.now + asSecs (cfg.policy b).resetIn * 1000 := hle
      simp only [Entry.pttl, hw]
      omega
    rw [← fromMillis_windowTime, fromMillis, fromMillis]
    rcases Server.lease_cases hserver with ⟨-, -, rfl, -⟩ | ⟨e, hf, -, rfl, -⟩ | ⟨e, hf, -, rfl, -⟩
    · simp only
      omega
    · have hle := hlive e hf
      simp only
      omega
    · have hle := hlive e hf
      simp only
      omega

theorem Brief.step {a : Action ι IpAddr} (h : s.Brief cfg) (hr : Reach (accounts cfg) s.account) (hs : Step cfg s a s') :
    s'.Brief cfg := by
  cases hs with
  | spawn ht => exact h.goto h.buckets trivial
  | @move t k pc hk hm =>
      refine h.goto h.buckets ?_
      cases hm with
      | @replied n started g r hpc =>
          have hpttl : (cfg.policy k.id).Allows (fromMillis r.pttl) := by simpa [hpc, Pc.Brief] using h.tasks t k hk
          exact hpttl.mono (leaseTtl_le ..)
      | _ => trivial
  | @rejected t k e hk hpc hc =>
      refine h.answer h.buckets fun e' he => ?_
      cases he
      rcases Store.check_cases (s.insts k.inst).store (s.insts k.inst).now k.id with ⟨hc', -⟩ | ⟨bk, -, -, -, -, hc'⟩ |
        ⟨bk, hb, -, hc'⟩
      · rw [hc'] at hc
        cases hc
      · rw [hc'] at hc
        cases hc
      · rw [hc'] at hc
        cases hc
        exact ⟨rfl, h.buckets k.inst k.id bk hb⟩
  | @claim t k seen hk hpc hc => exact h.goto (h.update rfl (h.buckets k.inst)) trivial
  | @script t k n started link res hk hpc hc =>
      refine h.goto h.buckets ?_
      cases res with
      | error e => trivial
      | ok r =>
          obtain ⟨reply, L, hl, hdecode⟩ := hc r rfl
          obtain ⟨-, -, rfl⟩ := LeaseReply.decode_eq_ok hdecode
          exact allows_pttl hr hl
  | unreachable hk hpc => exact h.goto h.buckets trivial
  | @refusedAbsent t k n g ttl window hk hpc hb =>
      refine h.goto h.buckets ⟨rfl, ?_⟩
      simpa [hpc, Pc.Brief] using h.tasks t k hk
  | @refused t k n g ttl window bk hk hpc hb =>
      exact h.goto (h.modify _ _ rfl fun _ => rfl) ⟨rfl, h.buckets k.inst k.id bk hb⟩
  | @insert t k n g leased ttl window hk hpc hpos =>
      have httl : (cfg.policy k.id).Allows ttl := by simpa [hpc, Pc.Brief] using h.tasks t k hk
      refine h.goto (h.update rfl fun b bk hb => ?_) trivial
      rcases DashMap.get_insert_eq_some.mp hb with ⟨rfl, rfl⟩ | ⟨-, hold⟩
      · exact httl.mono (Nat.sub_le_of_le_add (by rw [Nat.add_comm]; exact Nat.le_refl _))
      · exact h.buckets k.inst b bk hold
  | @unclaim t k n n' res hk hpc hc =>
      refine h.goto (h.update rfl (h.buckets k.inst)) ?_
      cases res with
      | ok _ => trivial
      | error e => simpa [hpc, Pc.Brief] using h.tasks t k hk
  | @unclaimNone t k n res hk hpc hc =>
      refine h.resume (h.update rfl (by exact h.buckets k.inst)) fun e he => ?_
      simpa [hpc, he, Pc.Brief] using h.tasks t k hk
  | @notify t k n res hk hpc =>
      refine h.resume ?_ fun e he => ?_
      · exact h.buckets
      · simpa [hpc, he, Pc.Brief] using h.tasks t k hk
  | takeAbsent hk hpc hb => exact h.answer h.buckets (by simp)
  | takeEmpty hk hpc hb hl ht => exact h.answer (h.modify _ _ rfl fun _ => by simp) (by simp)
  | @spend t k bk hk hpc hb hl ht =>
      refine h.answer ?_ (by simp)
      exact h.modify k.inst k.id rfl fun _ => by simp
  | @remove t k hk hpc =>
      refine h.answer (h.update rfl fun b bk hb => ?_) (by simp)
      exact h.buckets k.inst b bk (DashMap.get_remove_eq_some.mp hb).2
  | cancel hk hc => exact h.goto h.buckets trivial
  | orphan hk hpc => exact h.goto h.buckets trivial
  | @elapse i ns =>
      refine ⟨h.update rfl fun b bk hb => ?_, h.tasks, h.answers⟩
      exact (h.buckets i b bk hb).mono (Nat.sub_le_sub_left (Nat.le_add_right ..) _)
  | redisElapse => exact ⟨h.buckets, h.tasks, h.answers⟩
  | tickNothing hw he => exact h
  | @plan i a worker hp => exact ⟨h.update rfl (h.buckets i), h.tasks, h.answers⟩
  | @note i b todo found bk hw hb ht hl => exact ⟨h.update rfl (h.buckets i), h.tasks, h.answers⟩
  | @sweep i c b chunks rest hw hc =>
      refine ⟨h.update rfl fun b' bk hb' => ?_, h.tasks, h.answers⟩
      exact h.buckets i b' bk (DashMap.get_remove_eq_some.mp hb').2
  | @release i c link chunks p rest hw hc => exact ⟨h.update rfl (h.buckets i), h.tasks, h.answers⟩

end Sys

section Results

variable [DecidableEq ι] [ToString IpAddr] {cfg : Config} {s : Sys ι IpAddr}

theorem brief_reach (hs : Reach (sys cfg) s) : s.Brief cfg := by
  refine ReachWhen.invariant ?_ ?_ hs
  · rintro _ ⟨clock, now, rfl⟩
    exact ⟨by simp [Sys.start, Store.new], by simp [Sys.start], by simp [Sys.start]⟩
  · intro s a s' hr h _ hnext
    exact h.step ((account_simulation fun _ _ _ _ _ => trivial).reach hr) (Sys.step_of_next hnext)

/-- Every refusal names its id and a wait of at most a window, and no bucket and no key stays for longer. Times are
exact, as they are in Lua up to `2 ^ 53`: beyond it the script rounds `reset_in` and `PTTL`. -/
theorem waits_are_brief (hs : Reach (sys cfg) s) :
    (∀ i b c retry, ⟨i, b, .error (.exhausted c retry)⟩ ∈ s.answers → c = b ∧ retry ≤ (cfg.policy b).windowTime) ∧
    (∀ i b bk, (s.insts i).store.buckets.get b = some bk → bk.expiresAt ≤ (s.insts i).now + (cfg.policy b).windowTime) ∧
    ∀ (b : BucketId IpAddr) e, s.ledger.server.find b.toKey = some e →
      0 ≤ e.pttl s.ledger.server.now ∧ fromMillis (e.pttl s.ledger.server.now).toNat ≤ (cfg.policy b).windowTime := by
  have h := brief_reach hs
  have haccount : Reach (accounts cfg) s.account := (account_simulation fun _ _ _ _ _ => trivial).reach hs
  refine ⟨fun i b c retry ha => ?_, fun i b bk hb => ?_, fun b e hf => ?_⟩
  · obtain ⟨hid, -, hle⟩ := h.answers _ _ ha rfl
    exact ⟨hid, hle⟩
  · have hle := (h.buckets i b bk hb).2
    omega
  · obtain ⟨hdb, hlive⟩ := Db.find_eq_some_iff.mp hf
    obtain ⟨w, hw, hle⟩ := accounts_expiry haccount b e hdb
    have hle : w ≤ s.ledger.server.now + asSecs (cfg.policy b).resetIn * 1000 := hle
    simp only [Entry.live, hw, decide_eq_true_eq] at hlive
    rw [← fromMillis_windowTime]
    simp only [Entry.pttl, hw, fromMillis]
    omega

/-- The second of two requests for one token is refused after half a minute, and told to wait for the other half. -/
def lateRequest : List (Action Unit String) :=
  [.spawn 0 () testUser, .run 0, .run 0, .run 0, .eval 0 .answers, .run 0, .run 0, .run 0, .run 0, .run 0,
    .elapse () 30000000000, .redisElapse 30000, .spawn 1 () testUser, .run 1, .run 1, .run 1, .eval 1 .answers, .run 1,
    .run 1, .run 1, .run 1]

theorem late_request_waits_briefly : ∃ s, (sys Config.single).exec (testStart Config.single) lateRequest = some s ∧
    ⟨(), testUser, .error (.exhausted testUser 30000000000)⟩ ∈ s.answers ∧
      30000000000 ≤ (Config.single.policy testUser).windowTime := by
  have hrun : ((sys Config.single).exec (testStart Config.single) lateRequest).map (fun s => s.answers) =
      some [⟨(), testUser, .ok 0⟩, ⟨(), testUser, .error (.exhausted testUser 30000000000)⟩] := rfl
  obtain ⟨s, hs, hanswers⟩ := Option.map_eq_some_iff.mp hrun
  have hmem : ⟨(), testUser, .error (.exhausted testUser 30000000000)⟩ ∈ s.answers := by
    rw [hanswers]
    exact List.mem_cons_of_mem _ List.mem_cons_self
  exact ⟨s, hs, hmem, ((waits_are_brief (Reach.exec (testStart_init _) _ hs)).1 _ _ _ _ hmem).2⟩

end Results

end ThatLimit
