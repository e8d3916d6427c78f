import ThatLimit.Concurrent.Holdings
/-!
# What a refusal says about the window

An id is refused when a lease brings nothing, or by the mark that such a lease has left.
By then the whole quota is leased, and the instance that asked has spent its part: what
has not been spent is with the other instances, one lease each at most.
-/

namespace ThatLimit

open Transition Tally SingleFlight

variable {ι IpAddr : Type} [DecidableEq IpAddr]

/-- Tokens of the grant when it is one of bucket `b`. -/
def Grant.tokensOn (b : BucketId IpAddr) (x : Grant ι IpAddr) : Nat := if x.id = b then x.tokens else 0

section Leases

variable [ToString IpAddr] {cfg : Config} {L : Ledger ι IpAddr} {b : BucketId IpAddr}

/-- A lease that brings nothing finds the quota leased. -/
theorem Ledger.Balanced.drained (h : L.Balanced cfg) (hkey : Function.Injective (BucketId.toKey : BucketId IpAddr → String))
    {reply : LeaseReply} (hl : L.lease cfg i b = (.ok reply, L')) (hzero : reply.leased.toNat = 0) :
    (cfg.policy b).quota ≤ tally (Grant.tokensOn b) L.grants := by
  obtain ⟨server, hserver, -⟩ := lease_ok hl
  have hsize := (cfg.policy b).leaseSize_pos
  rcases Server.lease_cases hserver with ⟨-, -, rfl, -⟩ | ⟨e, hf, hvalue, rfl, -⟩ | ⟨e, -, hvalue, rfl, -⟩
  · simp only at hzero
    omega
  · obtain ⟨w, -, -, hcount, hpos, -⟩ := h.stored b e (Db.find_eq_some_iff.mp hf).1
    have hleased : L.leased b.toKey (L.server.epoch b.toKey) ≤ tally (Grant.tokensOn b) L.grants := by
      refine tally_le_tally fun x _ => ?_
      unfold Grant.leasedIn Grant.tokensOn
      split
      · next hx => rw [if_pos (hkey hx.1)]
      · exact Nat.zero_le _
    omega
  · simp only at hzero
    omega

end Leases

section Ledger

variable [DecidableEq ι]

theorem Grant.unspentOn_le_tokensOn (i : ι) (b : BucketId IpAddr) (x : Grant ι IpAddr) : 
    x.unspentOn i b ≤ x.tokensOn b := by
  unfold unspentOn tokensOn
  split_ifs <;> omega

/-- The whole quota of `b` has been leased. Until a window comes that leases more of it, instance `i` has spent what it
got. -/
def Ledger.UsedUp (cfg : Config) (L : Ledger ι IpAddr) (i : ι) (b : BucketId IpAddr) : Prop :=
  (cfg.policy b).quota ≤ tally (Grant.tokensOn b) L.grants ∧
  (tally (Grant.tokensOn b) L.grants = (cfg.policy b).quota → tally (Grant.unspentOn i b) L.grants = 0)

variable {cfg : Config} {L L' : Ledger ι IpAddr} {i : ι} {b : BucketId IpAddr}

theorem Ledger.UsedUp.append (h : L.UsedUp cfg i b) {x : Grant ι IpAddr} (hL : L'.grants = L.grants ++ [x]) :
    L'.UsedUp cfg i b := by
  obtain ⟨hquota, hspent⟩ := h
  unfold UsedUp
  rw [hL, tally_append, tally_append, tally_cons, tally_cons, tally_nil, tally_nil]
  refine ⟨by omega, fun hall => ?_⟩
  have hunspent := x.unspentOn_le_tokensOn i b
  have hold := hspent (by omega)
  omega

theorem Ledger.UsedUp.modify (h : L.UsedUp cfg i b) {g : Nat} {f : Grant ι IpAddr → Grant ι IpAddr}
    (hL : L'.grants = L.grants.modify g f)
    (hf : ∀ x, (f x).inst = x.inst ∧ (f x).id = x.id ∧ (f x).tokens = x.tokens ∧ x.spent ≤ (f x).spent) :
    L'.UsedUp cfg i b := by
  have htokens : tally (Grant.tokensOn b) L'.grants = tally (Grant.tokensOn b) L.grants := by
    rw [hL]
    refine tally_modify_of_eq _ _ fun x _ => ?_
    obtain ⟨-, hid, htokens, -⟩ := hf x
    simp only [Grant.tokensOn, hid, htokens]
  unfold UsedUp
  rw [htokens]
  refine ⟨h.1, fun hall => ?_⟩
  have hzero := h.2 hall
  cases hx : L.grants[g]? with
  | none => rw [hL, List.modify_eq_self (List.getElem?_eq_none_iff.mp hx), hzero]
  | some x =>
      have hm := tally_modify (Grant.unspentOn i b) f hx
      have hle : (f x).unspentOn i b ≤ x.unspentOn i b := by
        obtain ⟨hinst, hid, htokens, hspent⟩ := hf x
        simp only [Grant.unspentOn, hinst, hid, htokens]
        split_ifs <;> omega
      rw [hL]
      omega

variable [ToString IpAddr]

theorem Ledger.UsedUp.lease (h : L.UsedUp cfg i b) (j : ι) (c : BucketId IpAddr) : (L.lease cfg j c).2.UsedUp cfg i b := by
  rcases L.lease_grants cfg j c with hL | ⟨epoch, r, hL⟩
  · unfold UsedUp
    rw [hL]
    exact h
  · exact h.append hL

theorem Account.usedUp_next {A A' : Account ι IpAddr} {act : AccountAction ι IpAddr} (h : A.ledger.UsedUp cfg i b)
    (hnext : (accounts cfg).next A act = some A') : A'.ledger.UsedUp cfg i b := by
  cases act with
  | lease j c =>
      cases hnext
      exact h.lease j c
  | land g =>
      obtain ⟨x, -, -, -, rfl⟩ := land_cases hnext
      exact h.modify rfl fun x => ⟨rfl, rfl, rfl, le_refl _⟩
  | spend j c =>
      obtain ⟨t, g, -, rfl⟩ := spend_cases hnext
      exact h.modify rfl fun x => ⟨rfl, rfl, rfl, Nat.le_succ _⟩
  | lose j c =>
      cases hnext
      exact h
  | note j c =>
      obtain ⟨l, -, -, rfl⟩ := note_cases hnext
      exact h.modify rfl fun x => ⟨rfl, rfl, rfl, le_refl _⟩
  | release g =>
      obtain ⟨x, t, -, -, -, rfl⟩ := release_cases hnext
      exact h.modify rfl fun x => ⟨rfl, rfl, rfl, le_refl _⟩
  | elapse ms =>
      cases hnext
      exact h

end Ledger

/-- The task is being told that no token is left. -/
def Pc.refused : Pc IpAddr → Bool
  | .reply _ _ (.ok r) _ => r.leased == 0
  | .leased _ _ m _ _ => m == 0
  | .refilled _ (.error (.exhausted ..)) => true
  | .notify _ (.error (.exhausted ..)) => true
  | _ => false

/-- Tokens of `b` that requests have spent. -/
def Sys.spent (s : Sys ι IpAddr) (b : BucketId IpAddr) : Nat := tally (Grant.spentOn b) s.ledger.grants

namespace Sys

variable [DecidableEq ι]

/-- Whoever is refused, is refused for good reason. -/
structure Told (cfg : Config) (s : Sys ι IpAddr) : Prop where
  marks : ∀ i b bk, (s.insts i).store.buckets.get b = some bk → bk.exhausted = true → s.ledger.UsedUp cfg i b
  tasks : ∀ t k, s.tasks t = some k → k.pc.refused = true → s.ledger.UsedUp cfg k.inst k.id
  answers : ∀ i b c d, (⟨i, b, .error (.exhausted c d)⟩ : Answer ι IpAddr) ∈ s.answers → s.ledger.UsedUp cfg i b

variable {cfg : Config} {s s' s₁ : Sys ι IpAddr} {t : Nat} {k : Task ι IpAddr} {pc : Pc IpAddr}

theorem Told.goto (h : s.Told cfg) (hkeep : ∀ i b, s.ledger.UsedUp cfg i b → s₁.ledger.UsedUp cfg i b)
    (hmarks : ∀ i b bk, (s₁.insts i).store.buckets.get b = some bk → bk.exhausted = true → s₁.ledger.UsedUp cfg i b)
    (hpc : pc.refused = true → s₁.ledger.UsedUp cfg k.inst k.id) (htasks : s₁.tasks = s.tasks := by rfl)
    (hanswers : s₁.answers = s.answers := by rfl) : (s₁.goto t k pc).Told cfg := by
  refine ⟨hmarks, fun t' k' hk' hr => ?_, fun i b c d ha => hkeep i b (h.answers i b c d (hanswers ▸ ha))⟩
  rcases goto_tasks_cases hk' with ⟨-, rfl⟩ | ⟨-, hold⟩
  · exact hpc hr
  · exact hkeep _ _ (h.tasks t' k' (htasks ▸ hold) hr)

theorem Told.answer (h : s.Told cfg) (hkeep : ∀ i b, s.ledger.UsedUp cfg i b → s₁.ledger.UsedUp cfg i b)
    (hmarks : ∀ i b bk, (s₁.insts i).store.buckets.get b = some bk → bk.exhausted = true → s₁.ledger.UsedUp cfg i b)
    {res : Except (StoreError IpAddr) Nat} (hres : ∀ c d, res = .error (.exhausted c d) → s₁.ledger.UsedUp cfg k.inst k.id)
    (htasks : s₁.tasks = s.tasks := by rfl) (hanswers : s₁.answers = s.answers := by rfl) :
    (s₁.answer t k res).Told cfg := by
  have hgoto : (s₁.goto t k (.done res)).Told cfg := h.goto hkeep hmarks (by simp [Pc.refused]) htasks hanswers
  refine ⟨hgoto.marks, hgoto.tasks, fun i b c d ha => ?_⟩
  rcases List.mem_append.mp ha with hold | hnew
  · exact hgoto.answers i b c d hold
  · obtain ⟨rfl, rfl, rfl⟩ := (Answer.mk.injEq ..).mp (List.mem_singleton.mp hnew)
    exact hres c d rfl

theorem Told.marks_update (h : s.Told cfg) (hkeep : ∀ i b, s.ledger.UsedUp cfg i b → s'.ledger.UsedUp cfg i b) {i : ι}
    {v : Inst IpAddr} (hinsts : s'.insts = Function.update s.insts i v)
    (hv : ∀ b bk, v.store.buckets.get b = some bk → bk.exhausted = true →
      (∃ bk₀, (s.insts i).store.buckets.get b = some bk₀ ∧ bk₀.exhausted = true) ∨ s'.ledger.UsedUp cfg i b) :
    ∀ j b bk, (s'.insts j).store.buckets.get b = some bk → bk.exhausted = true → s'.ledger.UsedUp cfg j b := by
  intro j b bk hb hx
  rw [hinsts] at hb
  by_cases hj : j = i
  · subst hj
    rw [Function.update_self] at hb
    rcases hv b bk hb hx with ⟨bk₀, hb₀, hx₀⟩ | hused
    · exact hkeep j b (h.marks j b bk₀ hb₀ hx₀)
    · exact hused
  · rw [Function.update_of_ne hj] at hb
    exact hkeep j b (h.marks j b bk hb hx)

theorem Told.marks_keep (h : s.Told cfg) (hkeep : ∀ i b, s.ledger.UsedUp cfg i b → s'.ledger.UsedUp cfg i b) {i : ι}
    {v : Inst IpAddr} (hinsts : s'.insts = Function.update s.insts i v)
    (hbuckets : v.store.buckets = (s.insts i).store.buckets := by rfl) :
    ∀ j b bk, (s'.insts j).store.buckets.get b = some bk → bk.exhausted = true → s'.ledger.UsedUp cfg j b :=
  h.marks_update hkeep hinsts fun _ bk hb hx => .inl ⟨bk, hbuckets ▸ hb, hx⟩

theorem Told.marks_modify (h : s.Told cfg) (hkeep : ∀ i b, s.ledger.UsedUp cfg i b → s'.ledger.UsedUp cfg i b) {i : ι}
    {b : BucketId IpAddr} {f : Bucket → Bucket} (hinsts : s'.insts = (s.modifyBucket i b f).insts)
    (hf : ∀ bk, (f bk).exhausted = true → bk.exhausted = true ∨ s'.ledger.UsedUp cfg i b) :
    ∀ j c bk, (s'.insts j).store.buckets.get c = some bk → bk.exhausted = true → s'.ledger.UsedUp cfg j c := by
  refine h.marks_update hkeep hinsts fun c bk hc hx => ?_
  obtain ⟨bk₀, hb₀, ⟨rfl, rfl⟩ | ⟨-, rfl⟩⟩ := DashMap.get_modify_eq_some.mp hc
  · exact (hf bk₀ hx).imp_left fun hx₀ => ⟨bk₀, hb₀, hx₀⟩
  · exact .inl ⟨_, hb₀, hx⟩

theorem Told.resume (h : s.Told cfg) (hkeep : ∀ i b, s.ledger.UsedUp cfg i b → s₁.ledger.UsedUp cfg i b)
    (hmarks : ∀ i b bk, (s₁.insts i).store.buckets.get b = some bk → bk.exhausted = true → s₁.ledger.UsedUp cfg i b)
    {res : Except (StoreError IpAddr) Unit} (hres : ∀ c d, res = .error (.exhausted c d) → s₁.ledger.UsedUp cfg k.inst k.id)
    (htasks : s₁.tasks = s.tasks := by rfl) (hanswers : s₁.answers = s.answers := by rfl) :
    (s₁.resume t k res).Told cfg := by
  cases res with
  | ok _ => exact h.goto hkeep hmarks (by simp [Pc.refused]) htasks hanswers
  | error e => exact h.answer hkeep hmarks (fun c d he => hres c d (by cases he; rfl)) htasks hanswers

variable [ToString IpAddr]

theorem usedUp_step {a : Action ι IpAddr} (hbooks : s.Books) (hs : Step cfg s a s') {i : ι} {b : BucketId IpAddr}
    (h : s.ledger.UsedUp cfg i b) : s'.ledger.UsedUp cfg i b := by
  rcases account_step hbooks hs with hsame | ⟨act, hact, -⟩
  · have hledger : s'.ledger = s.ledger := congrArg Account.ledger hsame
    rw [hledger]
    exact h
  · have hused : s.account.ledger.UsedUp cfg i b := h
    have hused' : s'.account.ledger.UsedUp cfg i b := Account.usedUp_next hused hact
    exact hused'

/-- A lease that brings nothing: nobody else on the instance has tokens of the id. -/
theorem usedUp_of_drained (h : s.Stocked) (hv : s.account.Valid cfg) (hex : Exclusive s.flight)
    (hkey : Function.Injective (BucketId.toKey : BucketId IpAddr → String)) (hk : s.tasks t = some k) {n : Notify}
    {started : Nat} (hpc : k.pc = .eval n started) {reply : LeaseReply} {L : Ledger ι IpAddr}
    (hl : s.ledger.lease cfg k.inst k.id = (.ok reply, L)) (hzero : reply.leased.toNat = 0) :
    L.UsedUp cfg k.inst k.id := by
  have hold : s.ledger.UsedUp cfg k.inst k.id := by
    refine ⟨hv.balanced.drained hkey hl hzero, fun _ => tally_eq_zero fun x hx => ?_⟩
    by_contra hne
    obtain ⟨hi, hb, hunspent⟩ := unspentOn_pos (Nat.pos_of_ne_zero hne)
    obtain ⟨g, hg⟩ := List.mem_iff_getElem?.mp hx
    obtain ⟨m, w, hp⟩ := h.pending_of_refills hv hex hk (by simp [hpc, Pc.refills]) hg hi hb hunspent
    simp [hpc, Pc.pending] at hp
  obtain ⟨server, -, rfl⟩ := Ledger.lease_ok hl
  exact hold.append rfl

theorem Told.eval (h : s.Told cfg) (hst : s.Stocked) (hv : s.account.Valid cfg) (hex : Exclusive s.flight)
    (hkey : Function.Injective (BucketId.toKey : BucketId IpAddr → String)) {link : Link}
    (hlink : s.keepsTokens (.eval t link) = true) (hs : s.eval cfg t link = some s')
    (hkeep : ∀ i b, s.ledger.UsedUp cfg i b → s'.ledger.UsedUp cfg i b) : s'.Told cfg := by
  obtain ⟨k, n, started, res, L, hk, hpc, rfl, ⟨⟨e, rfl⟩, -⟩ | ⟨reply, r, hl, hr, rfl⟩⟩ := eval_arrives hv hlink hs
  · exact h.goto hkeep (fun i b bk hb hx => hkeep i b (h.marks i b bk hb hx)) (by simp [Pc.refused])
  · refine h.goto hkeep (fun i b bk hb hx => hkeep i b (h.marks i b bk hb hx)) fun hzero => ?_
    obtain ⟨-, -, rfl⟩ := LeaseReply.decode_eq_ok hr
    exact usedUp_of_drained hst hv hex hkey hk hpc hl (beq_iff_eq.mp hzero)

theorem Told.step {a : Action ι IpAddr} (h : s.Told cfg) (hst : s.Stocked) (hbooks : s.Books)
    (hv : s.account.Valid cfg) (hex : Exclusive s.flight)
    (hkey : Function.Injective (BucketId.toKey : BucketId IpAddr → String)) (hg : s.keepsTokens a = true)
    (hs : Step cfg s a s') (hnext : s.next cfg a = some s') : s'.Told cfg := by
  have hkeep : ∀ i b, s.ledger.UsedUp cfg i b → s'.ledger.UsedUp cfg i b := fun _ _ => usedUp_step hbooks hs
  cases hs with
  | spawn ht => exact h.goto hkeep h.marks (by simp [Pc.refused])
  | @move t k pc hk hm =>
      refine h.goto hkeep h.marks fun hr => ?_
      cases hm with
      | replied hpc => exact h.tasks t k hk (by simpa [hpc, Pc.refused] using hr)
      | checkPassed | checkSpent | occupied | started | failed | registered | woken | expired => cases hr
  | @rejected t k e hk hpc hc =>
      refine h.answer ?_ h.marks fun c d he => ?_
      · exact hkeep
      rcases Store.check_cases (s.insts k.inst).store (s.insts k.inst).now k.id with ⟨hc', -⟩ | ⟨bk, -, -, -, -, hc'⟩ |
        ⟨bk, hb, hx, -⟩
      · rw [hc'] at hc
        cases hc
      · rw [hc'] at hc
        cases hc
      · exact h.marks k.inst k.id bk hb hx
  | claim hk hpc hc => exact h.goto hkeep (h.marks_keep hkeep rfl) (by simp [Pc.refused])
  | script hk hpc hc | unreachable hk hpc => exact h.eval hst hv hex hkey hg hnext hkeep
  | refusedAbsent hk hpc hb =>
      exact h.goto hkeep h.marks fun _ => h.tasks _ _ hk (by simp [hpc, Pc.refused])
  | @refused t k n g ttl window bk hk hpc hb =>
      have hused := h.tasks t k hk (by simp [hpc, Pc.refused])
      exact h.goto hkeep (h.marks_modify hkeep rfl fun _ _ => .inr hused) fun _ => hused
  | @insert t k n g leased ttl window hk hpc hpos =>
      refine h.goto hkeep (h.marks_update hkeep rfl fun b bk hb hx => ?_) (by simp [Pc.refused])
      rcases DashMap.get_insert_eq_some.mp hb with ⟨-, rfl⟩ | ⟨-, hold⟩
      · cases hx
      · exact .inl ⟨bk, hold, hx⟩
  | @unclaim t k n n' res hk hpc hc =>
      refine h.goto hkeep (h.marks_keep hkeep rfl) fun hr => h.tasks t k hk ?_
      cases res with
      | ok _ => cases hr
      | error e => cases e <;> simp_all [Pc.refused]
  | @unclaimNone t k n res hk hpc hc =>
      have hkeep : ∀ i b, s.ledger.UsedUp cfg i b → s.ledger.UsedUp cfg i b := fun _ _ hused => hused
      refine h.resume ?_ (h.marks_keep ?_ rfl) fun c d he => h.tasks t k hk ?_
      · exact hkeep
      · exact hkeep
      · simp [hpc, he, Pc.refused]
  | @notify t k n res hk hpc =>
      refine h.resume ?_ ?_ fun c d he => h.tasks t k hk ?_
      · exact fun _ _ hused => hused
      · exact h.marks
      · simp [hpc, he, Pc.refused]
  | takeAbsent hk hpc hb =>
      refine h.answer ?_ h.marks (by simp)
      exact hkeep
  | takeEmpty hk hpc hb hl ht =>
      refine h.answer ?_ (h.marks_modify ?_ rfl fun bk hx => .inl ?_) (by simp)
      · exact hkeep
      · exact hkeep
      · simpa using hx
  | @spend t k bk hk hpc hb hl ht =>
      refine h.answer ?_ ?_ ?_
      · exact hkeep
      · refine h.marks_modify hkeep rfl fun bk hx => .inl ?_
        simpa using hx
      · simp
  | remove hk hpc =>
      refine h.answer ?_ (h.marks_update ?_ rfl fun b bk hb hx => ?_) (by simp)
      · exact hkeep
      · exact hkeep
      · exact .inl ⟨bk, (DashMap.get_remove_eq_some.mp hb).2, hx⟩
  | cancel hk hc => exact h.goto hkeep h.marks (by simp [Pc.refused])
  | orphan hk hpc => exact absurd hpc (hst.awaited _ _ hk)
  | elapse => exact ⟨h.marks_keep hkeep rfl, h.tasks, h.answers⟩
  | redisElapse => exact ⟨h.marks, h.tasks, h.answers⟩
  | tickNothing hw he => exact h
  | plan hp => exact ⟨h.marks_keep hkeep rfl, h.tasks, h.answers⟩
  | @note i b todo found bk hw hb ht hl =>
      have hi := hst.working i
      simp [hw, Worker.shutsDown] at hi
  | sweep hw hc =>
      refine ⟨h.marks_update hkeep rfl fun b bk hb hx => ?_, h.tasks, h.answers⟩
      exact .inl ⟨bk, (DashMap.get_remove_eq_some.mp hb).2, hx⟩
  | @release i c link chunks p rest hw hc =>
      have hi := hst.working i
      simp [hw, Worker.shutsDown] at hi

end Sys

/-- Every token that is spent lets a request through. -/
def Sys.Covered (s : Sys ι IpAddr) : Prop := ∀ b, s.spent b ≤ s.admitted b

namespace Sys

variable {cfg : Config} {s s' s₁ : Sys ι IpAddr} {t : Nat} {k : Task ι IpAddr}

theorem Covered.answer (h : s.Covered) {res} (hanswers : s₁.answers = s.answers := by rfl)
    (hledger : s₁.ledger = s.ledger := by rfl) : (s₁.answer t k res).Covered := by
  intro b
  have hspent : (s₁.answer t k res).spent b = s.spent b := by rw [spent, answer_ledger, hledger, spent]
  have hadmitted : s₁.admitted b = s.admitted b := by simp only [admitted, hanswers]
  have hle := h b
  rw [hspent, admitted_answer, hadmitted]
  omega

theorem Covered.amend (h : s.Covered) {g : Nat} {f : Grant ι IpAddr → Grant ι IpAddr}
    (hledger : s'.ledger.grants = s.ledger.grants.modify g f) (hf : ∀ b x, (f x).spentOn b = x.spentOn b)
    (hanswers : s'.answers = s.answers := by rfl) : s'.Covered := by
  intro b
  rw [spent, hledger, tally_modify_of_eq _ _ fun x _ => hf b x, admitted, hanswers]
  exact h b

theorem Covered.resume (h : s.Covered) {res} (hanswers : s₁.answers = s.answers := by rfl)
    (hledger : s₁.ledger = s.ledger := by rfl) : (s₁.resume t k res).Covered := by
  cases res with
  | ok _ =>
      intro b
      have hspent : (s₁.resume t k (.ok ())).spent b = s.spent b := by
        unfold spent
        rw [← hledger]
        rfl
      have hadmitted : (s₁.resume t k (.ok ())).admitted b = s.admitted b := congrArg (ThatLimit.admitted · b) hanswers
      rw [hspent, hadmitted]
      exact h b
  | error e => exact h.answer hanswers hledger

variable [DecidableEq ι]

variable [ToString IpAddr]

theorem Covered.step {a : Action ι IpAddr} (h : s.Covered) (hv : s.account.Valid cfg) (hs : Step cfg s a s') :
    s'.Covered := by
  cases hs with
  | spawn | move | claim | unreachable | refusedAbsent | refused | unclaim | cancel | elapse | redisElapse | tickNothing
  | plan | sweep => exact h
  | rejected | takeAbsent | takeEmpty | remove => exact h.answer
  | unclaimNone | notify => exact h.resume
  | script | orphan => exact fun b => (tally_spentOn_lease ..).trans_le (h b)
  | insert => exact h.amend rfl fun b x => rfl
  | note => exact h.amend rfl fun b x => rfl
  | release => exact h.amend rfl fun b x => rfl
  | @spend t k bk hk hpc hb hl ht =>
      intro b
      obtain ⟨x, hx, -, hid, -, -⟩ := hv.lots k.inst k.id ⟨bk.tokens, (s.insts k.inst).origin k.id⟩
        (by simp [account, hb])
      have hx : s.ledger.grants[(s.insts k.inst).origin k.id]? = some x := hx
      have hm := tally_modify (Grant.spentOn b) (fun y : Grant ι IpAddr => { y with spent := y.spent + 1 }) hx
      have hle := h b
      have hspent : tally (Grant.spentOn b) (s.ledger.spend ((s.insts k.inst).origin k.id)).grants ≤
          s.spent b + if k.id = b then 1 else 0 := by
        simp only [Grant.spentOn, hid] at hm
        simp only [Ledger.spend, Ledger.amend, spent]
        split_ifs at hm ⊢ <;> omega
      rw [admitted_answer]
      simp only [Except.isOk, Except.toBool, and_true]
      exact hspent.trans (Nat.add_le_add_right hle _)

end Sys

section Results

variable [DecidableEq ι] [ToString IpAddr] {cfg : Config} {s : Sys ι IpAddr}

theorem told (hkey : Function.Injective (BucketId.toKey : BucketId IpAddr → String))
    (hs : ReachWhen (sys cfg) (Sys.keepsTokens · ·) s) : s.Told cfg := by
  refine ReachWhen.invariant ?_ ?_ hs
  · rintro _ ⟨clock, now, rfl⟩
    exact ⟨by simp [Sys.start, Store.new], by simp [Sys.start], by simp [Sys.start]⟩
  · intro s a s' hr h hg hnext
    obtain ⟨hbooks, hv⟩ := books_valid hr.reach
    exact h.step (stocked hr) hbooks hv (exclusive (flight_reach hr.reach)) hkey hg (Sys.step_of_next hnext) hnext

end Results

end ThatLimit
