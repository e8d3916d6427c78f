import ThatLimit.Concurrent.Books
/-!
# How many requests are let through

A request answered with `Ok` has spent a token when its last look at the bucket finds
one, and only then. The tokens of one window are leased, hence spent, at most once
each, so that the answers are bounded as long as every last look finds a token.
-/

namespace ThatLimit

open Transition Tally

variable {ι IpAddr : Type} [DecidableEq IpAddr]

/-- Tokens of the grant spent on bucket `b`. -/
def Grant.spentOn (b : BucketId IpAddr) (x : Grant ι IpAddr) : Nat := if x.id = b then x.spent else 0

section Leases

variable [ToString IpAddr] {cfg : Config} {L : Ledger ι IpAddr}

/-- Before any shutdown, all that is spent in the first window of a key stays within the quota. -/
theorem Ledger.Balanced.spent_le_quota (h : L.Balanced cfg)
    (hnoted : ∀ x ∈ L.grants, x.noted = none) {b : BucketId IpAddr} (hwindow : L.server.epoch b.toKey ≤ 1) :
    tally (Grant.spentOn b) L.grants ≤ (cfg.policy b).quota := by
  have hspent : tally (Grant.spentOn b) L.grants ≤ L.leased b.toKey 1 := by
    refine tally_le_tally fun x hx => ?_
    unfold Grant.spentOn Grant.leasedIn
    split
    · next hid =>
        have hepoch : x.epoch = 1 := by
          have hpos := (h.sound x hx).epoch_pos
          have hle : x.epoch ≤ L.server.epoch b.toKey := by
            cases hdb : L.server.db b.toKey with
            | none => exact absurd (congrArg _ hid) ((h.absent b hdb).2 x hx)
            | some e =>
                obtain ⟨w, -, -, -, -, hgrants⟩ := h.stored b e hdb
                rcases hgrants x hx (congrArg _ hid) with hc | hc <;> omega
          omega
        rw [if_pos ⟨congrArg _ hid, hepoch⟩]
        exact (h.sound x hx).spent_le
    · omega
  have hreturned : L.returned b.toKey 1 = 0 := by
    refine tally_eq_zero fun x hx => ?_
    have hnone := (h.sound x hx).unreleased ((h.sound x hx).unnoted (hnoted x hx))
    simp [Grant.returnedIn, hnone]
  have hbounded := h.bounded b 1
  omega

theorem tally_spentOn_lease (i : ι) (c b : BucketId IpAddr) :
    tally (Grant.spentOn b) (L.lease cfg i c).2.grants = tally (Grant.spentOn b) L.grants := by
  rcases L.lease_grants cfg i c with h | ⟨epoch, r, h⟩
  · rw [h]
  · have hnew : Grant.spentOn b (Grant.new i c epoch r) = 0 := ite_self 0
    rw [h, tally_append, tally_cons, tally_nil, hnew, Nat.add_zero]

end Leases

/-- The worker has begun to shut its instance down. -/
def Worker.shutsDown : Worker IpAddr → Bool
  | .noting .. | .releasing _ | .complete => true
  | _ => false

namespace Sys

/-- Requests for `b` that were answered with `Ok`, on all instances. -/
def admitted (s : Sys ι IpAddr) (b : BucketId IpAddr) : Nat := ThatLimit.admitted s.answers b

/-- No instance shuts down, and a request that gets to its last look at the bucket finds a token. -/
def takesHeld (s : Sys ι IpAddr) : Action ι IpAddr → Bool
  | .shutdown .. => false
  | .run t => (s.tasks t).all fun k =>
      let v := s.insts k.inst
      match k.pc with
      | .take => (v.store.buckets.get k.id).any fun bk => !bk.isExpired v.now && !bk.isEmpty
      | _ => true
  | _ => true

/-- Every `Ok` was paid for with a token. -/
structure Paid (s : Sys ι IpAddr) : Prop where
  answered : ∀ b, s.admitted b = tally (Grant.spentOn b) s.ledger.grants
  held : ∀ t k, s.tasks t = some k → k.pc ≠ .expired
  working : ∀ i, (s.insts i).worker.shutsDown = false

variable {s s' s₁ : Sys ι IpAddr} {t : Nat} {k : Task ι IpAddr} {pc : Pc IpAddr}

theorem admitted_answer (s : Sys ι IpAddr) (t : Nat) (k : Task ι IpAddr) (res) (b : BucketId IpAddr) :
    (s.answer t k res).admitted b = s.admitted b + if k.id = b ∧ res.isOk = true then 1 else 0 :=
  admitted_snoc s.answers k.inst b k.id res

theorem Paid.frame (h : s.Paid) (htasks : ∀ t k, s'.tasks t = some k → k.pc ≠ .expired)
    (hworker : ∀ i, (s'.insts i).worker.shutsDown = false) (hanswers : s'.answers = s.answers)
    (hspent : ∀ b, tally (Grant.spentOn b) s'.ledger.grants = tally (Grant.spentOn b) s.ledger.grants) : s'.Paid :=
  ⟨fun b => by rw [hspent, ← h.answered]; simp only [admitted, hanswers], htasks, hworker⟩

theorem Paid.held_goto (h : s.Paid) (htasks : s₁.tasks = s.tasks) (hpc : pc ≠ .expired) :
    ∀ t' k', (s₁.goto t k pc).tasks t' = some k' → k'.pc ≠ .expired := by
  intro t' k' hk'
  rcases goto_tasks_cases hk' with ⟨rfl, rfl⟩ | ⟨-, hold⟩
  · exact hpc
  · exact h.held t' k' (htasks ▸ hold)

theorem Paid.move (h : s.Paid) (hpc : pc ≠ .expired) (hworker : ∀ i, (s₁.insts i).worker.shutsDown = false)
    (htasks : s₁.tasks = s.tasks := by rfl) (hanswers : s₁.answers = s.answers := by rfl)
    (hspent : ∀ b, tally (Grant.spentOn b) s₁.ledger.grants = tally (Grant.spentOn b) s.ledger.grants := by
      exact fun _ => rfl) : (s₁.goto t k pc).Paid :=
  h.frame (h.held_goto htasks hpc) hworker hanswers hspent

theorem Paid.reject (h : s.Paid) (hworker : ∀ i, (s₁.insts i).worker.shutsDown = false) {e}
    (htasks : s₁.tasks = s.tasks := by rfl) (hanswers : s₁.answers = s.answers := by rfl)
    (hledger : s₁.ledger = s.ledger := by rfl) : (s₁.answer t k (.error e)).Paid := by
  refine ⟨fun b => ?_, h.held_goto htasks (by simp), hworker⟩
  rw [admitted_answer, if_neg (by simp [Except.isOk, Except.toBool]), answer_ledger, hledger, ← h.answered]
  simp only [admitted, hanswers, Nat.add_zero]

private theorem Paid.spend (h : s.Paid) (hworker : ∀ i, (s₁.insts i).worker.shutsDown = false) {g left : Nat}
    {x : Grant ι IpAddr} (hx : s.ledger.grants[g]? = some x) (hid : x.id = k.id)
    (htasks : s₁.tasks = s.tasks) (hanswers : s₁.answers = s.answers) (hledger : s₁.ledger = s.ledger.spend g) :
    (s₁.answer t k (.ok left)).Paid := by
  refine ⟨fun b => ?_, h.held_goto htasks (by simp), hworker⟩
  have hm := tally_modify (Grant.spentOn b) (fun y : Grant ι IpAddr => { y with spent := y.spent + 1 }) hx
  have hgrants : (s₁.answer t k (.ok left)).ledger.grants =
      s.ledger.grants.modify g fun y => { y with spent := y.spent + 1 } := by
    rw [answer_ledger, hledger]
    rfl
  have hold : s₁.admitted b = s.admitted b := by simp only [admitted, hanswers]
  have ha := h.answered b
  rw [admitted_answer, hgrants, hold]
  simp only [Grant.spentOn, hid, Except.isOk, Except.toBool, and_true] at hm ha ⊢
  split_ifs at hm ⊢ <;> omega

theorem Paid.resume (h : s.Paid) (hworker : ∀ i, (s₁.insts i).worker.shutsDown = false) {res}
    (htasks : s₁.tasks = s.tasks := by rfl) (hanswers : s₁.answers = s.answers := by rfl)
    (hledger : s₁.ledger = s.ledger := by rfl) : (s₁.resume t k res).Paid := by
  cases res with
  | ok _ => exact h.move (by simp) hworker htasks hanswers fun b => by rw [hledger]
  | error e => exact h.reject hworker htasks hanswers hledger

variable [DecidableEq ι]

theorem Paid.working_update (h : s.Paid) {i : ι} {v : Inst IpAddr} (hinsts : s'.insts = Function.update s.insts i v)
    (hv : v.worker.shutsDown = false) (j : ι) : (s'.insts j).worker.shutsDown = false := by
  rw [hinsts]
  by_cases hj : j = i
  · subst hj
    simpa using hv
  · simpa [hj] using h.working j

theorem Paid.working_same (h : s.Paid) {i : ι} {v : Inst IpAddr} (hinsts : s'.insts = Function.update s.insts i v)
    (j : ι) (hv : v.worker = (s.insts i).worker := by rfl) : (s'.insts j).worker.shutsDown = false :=
  h.working_update hinsts (hv ▸ h.working i) j

variable [ToString IpAddr]

theorem Paid.step {cfg : Config} {a : Action ι IpAddr} (h : s.Paid) (hv : s.account.Valid cfg)
    (hg : s.takesHeld a = true) (hs : Step cfg s a s') : s'.Paid := by
  cases hs with
  | @spawn t i b ht => exact h.move (by simp) h.working
  | @move t k pc hk hm =>
      refine h.move ?_ h.working
      cases hm with
      | expired hpc htake =>
          -- the last look of the guard finds an unexpired bucket
          rw [takesHeld, hk] at hg
          simp only [Option.all_some, hpc, Option.any_eq_true, Bool.and_eq_true, Bool.not_eq_true'] at hg
          obtain ⟨bk, hb, hlive, -⟩ := hg
          simp [Store.take, hb, hlive] at htake
      | _ => simp
  | rejected hk hpc hc => exact h.reject h.working
  | claim hk hpc hc => exact h.move (by simp) (h.working_same rfl)
  | script hk hpc hc =>
      refine h.move (by simp) h.working rfl rfl fun b => ?_
      exact tally_spentOn_lease ..
  | unreachable hk hpc => exact h.move (by simp) h.working
  | refusedAbsent hk hpc hb => exact h.move (by simp) h.working
  | refused hk hpc hb => exact h.move (by simp) (h.working_same rfl)
  | insert hk hpc hpos =>
      refine h.move (by simp) (h.working_same rfl) rfl rfl fun b => ?_
      exact tally_modify_of_eq _ _ fun y _ => rfl
  | unclaim hk hpc hc => exact h.move (by simp) (h.working_same rfl)
  | unclaimNone hk hpc hc => exact h.resume (h.working_same rfl)
  | notify hk hpc => exact h.resume (by exact h.working)
  | takeAbsent hk hpc hb => simp [takesHeld, hk, hpc, hb] at hg
  | takeEmpty hk hpc hb hl ht => simp [takesHeld, hk, hpc, hb, ht] at hg
  | @spend t k bk hk hpc hb hl ht =>
      obtain ⟨x, hx, -, hid, -, -⟩ := hv.lots k.inst k.id ⟨bk.tokens, (s.insts k.inst).origin k.id⟩
        (by simp [account, hb])
      exact h.spend (h.working_same rfl) hx hid rfl rfl rfl
  | remove hk hpc => exact absurd hpc (h.held _ _ hk)
  | cancel hk hc => exact h.move (by simp) h.working
  | orphan hk hpc =>
      refine h.move (by simp) h.working rfl rfl fun b => ?_
      exact tally_spentOn_lease ..
  | elapse => exact h.frame h.held (h.working_same rfl) rfl fun _ => rfl
  | redisElapse => exact h.frame h.held h.working rfl fun _ => rfl
  | tickNothing hw he => exact h
  | @plan i a worker hp =>
      refine h.frame h.held (h.working_update rfl ?_) rfl fun _ => rfl
      have hi := h.working i
      cases hp with
      | shutdown hw hc | nothingHeld hw hc => simp [takesHeld] at hg
      | skip hw _ | noted hw | noneNoted hw | unreachable hw _ | released hw _ => simp [hw, Worker.shutsDown] at hi
      | _ => rfl
  | @note i b todo found bk hw hb ht hl => simpa [hw, Worker.shutsDown] using h.working i
  | @sweep i c b chunks rest hw hc => exact h.frame h.held (h.working_update rfl rfl) rfl fun _ => rfl
  | @release i c link chunks p rest hw hc => simpa [hw, Worker.shutsDown] using h.working i

end Sys

section Results

variable [DecidableEq ι] [ToString IpAddr] {cfg : Config} {s : Sys ι IpAddr}

theorem paid (hs : ReachWhen (sys cfg) (Sys.takesHeld · ·) s) : s.Paid := by
  refine ReachWhen.invariant ?_ ?_ hs
  · rintro _ ⟨clock, now, rfl⟩
    refine ⟨by simp [Sys.start, Sys.admitted, admitted, Ledger.start], by simp [Sys.start], fun i => ?_⟩
    cases hc : cfg.cleanup.enabled <;> simp [Sys.start, hc, Worker.shutsDown]
  · intro s a s' hr h hg hnext
    exact h.step (books_valid hr.reach).2 hg (Sys.step_of_next hnext)

/-- In the first window of its key, an id gets no more than its quota of `Ok`s from all instances
together. The script counts without bounds, as Lua does up to `2 ^ 53`. -/
theorem admitted_le_quota (hs : ReachWhen (sys cfg) (Sys.takesHeld · ·) s) (b : BucketId IpAddr)
    (hwindow : s.ledger.server.epoch b.toKey ≤ 1) : s.admitted b ≤ (cfg.policy b).quota := by
  have h := paid hs
  obtain ⟨hbooks, hvalid⟩ := books_valid hs.reach
  rw [h.answered]
  refine hvalid.balanced.spent_le_quota (fun x hx => ?_) hwindow
  obtain ⟨g, hg⟩ := List.mem_iff_getElem?.mp hx
  have hw := h.working x.inst
  have hshutdown := hbooks.shutdown x.inst
  unfold Sys.ShutdownBooks at hshutdown
  cases hworker : (s.insts x.inst).worker with
  | off | idle | collecting | sweeping =>
      rw [hworker] at hshutdown
      exact hshutdown g x hg rfl trivial
  | noting | releasing | complete => simp [hworker, Worker.shutsDown] at hw

/-- A request from its first check to its answer. -/
def loneRequest : List (Action Unit String) :=
  [.spawn 0 () testUser, .run 0, .run 0, .run 0, .eval 0 .answers, .run 0, .run 0, .run 0, .run 0, .run 0]

theorem admitted_le_quota_alone : ∃ s, (sys Config.single).exec (testStart Config.single) loneRequest = some s ∧
    s.admitted testUser = 1 ∧ s.admitted testUser ≤ (Config.single.policy testUser).quota := by
  have hrun : ((sys Config.single).execWhen Sys.takesHeld (testStart Config.single) loneRequest).map
      (fun s => (s.ledger.server.epoch testUser.toKey, s.admitted testUser)) = some (1, 1) := rfl
  obtain ⟨s, hs, hseen⟩ := Option.map_eq_some_iff.mp hrun
  obtain ⟨hepoch, hadmitted⟩ := Prod.mk.inj hseen
  exact ⟨s, System.exec_of_execWhen hs, hadmitted,
    admitted_le_quota ((testStart_init _).execWhen _ hs) testUser (Nat.le_of_eq hepoch)⟩

/-- Two requests see the one token; the first spends it and the second is let through without. -/
def rivalRequests : List (Action Unit String) :=
  [.spawn 0 () testUser, .run 0, .run 0, .run 0, .eval 0 .answers, .run 0, .run 0, .run 0, .run 0,
    .spawn 1 () testUser, .run 1, .run 0, .run 1]

theorem rival_is_admitted : ∃ s, (sys Config.single).exec (testStart Config.single) rivalRequests = some s ∧
    Reach (sys Config.single) s ∧ s.ledger.server.epoch testUser.toKey = 1 ∧
    (s.ledger.server.find testUser.toKey).isSome = true ∧
    ¬ s.admitted testUser ≤ (Config.single.policy testUser).quota := by
  have hrun : ((sys Config.single).exec (testStart Config.single) rivalRequests).map
      (fun s => (s.ledger.server.epoch testUser.toKey, (s.ledger.server.find testUser.toKey).isSome,
        s.admitted testUser)) = some (1, true, 2) := rfl
  obtain ⟨s, hs, hseen⟩ := Option.map_eq_some_iff.mp hrun
  simp only [Prod.mk.injEq] at hseen
  obtain ⟨hepoch, hlive, hadmitted⟩ := hseen
  exact ⟨s, hs, Reach.exec (testStart_init _) _ hs, hepoch, hlive, by rw [hadmitted]; decide⟩

end Results

end ThatLimit
