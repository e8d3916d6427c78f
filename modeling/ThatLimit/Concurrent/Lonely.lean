import ThatLimit.Concurrent.Likeness
import ThatLimit.Framework.Refinement
/-!
# Keeping up with a crowd

A system in which nobody else calls takes the steps of the calls for its id as they come, and
stands still while others take theirs. A worker with a single bucket does its pass in a
few steps.
-/

namespace ThatLimit

open Transition

variable {ι IpAddr : Type} [DecidableEq IpAddr]

namespace Sys

section Calls

variable [ToString IpAddr] {cfg : Config} {b : BucketId IpAddr} {N : Names} {s s' s₁ : Sys ι IpAddr} {t : Nat} {i : ι}
  {k : Task ι IpAddr}
  {pc : Pc IpAddr}

theorem Like.task (h : s.Like b N s') (hk : s.tasks t = some ⟨i, b, pc⟩) :
    ∃ pc', s'.tasks t = some ⟨i, b, pc'⟩ ∧ pc.Like N pc' := by
  have hlike := h.tasks t
  rw [hk] at hlike
  generalize s'.tasks t = k' at hlike
  cases hlike with
  | own hpc => exact ⟨_, rfl, hpc⟩
  | foreign hid => exact absurd rfl hid

theorem Like.other_task (h : s.Like b N s') (hk : s.tasks t = some k) (hid : k.id ≠ b) :
    s'.tasks t = none ∧ ∀ n res, k.pc = .notify n res → N.other n := by
  have hlike := h.tasks t
  rw [hk] at hlike
  generalize s'.tasks t = k' at hlike
  cases hlike with
  | own => exact absurd rfl hid
  | foreign _ hpc => exact ⟨rfl, hpc⟩

theorem Like.eval {link : Link} (h : s.Like b N s') (hk : s.tasks t = some ⟨i, b, pc⟩) (heval : s.eval cfg t link = some s₁) :
    ∃ s₂, s'.eval cfg t link = some s₂ ∧ s₁.Like b N s₂ := by
  obtain ⟨pc', hk', hpc⟩ := h.task hk
  obtain ⟨hreply, hserver⟩ := Ledger.lease_shares h.server cfg i
  unfold Sys.eval at heval ⊢
  simp only [hk] at heval
  simp only [hk']
  cases hpc with
  | eval =>
      cases link with
      | answers =>
          cases heval
          simp only [hreply]
          exact ⟨_, rfl, (h.setLedger hserver).goto .reply _ _⟩
      | replyLost e =>
          cases heval
          exact ⟨_, rfl, (h.setLedger hserver).goto .reply _ _⟩
      | unreachable e =>
          cases heval
          exact ⟨_, rfl, h.goto .reply _ _⟩
  | _ => cases heval

theorem Like.cancel (h : s.Like b N s') (hk : s.tasks t = some ⟨i, b, pc⟩) (hcancel : s.cancel t = some s₁) :
    ∃ s₂, s'.cancel t = some s₂ ∧ s₁.Like b N s₂ := by
  obtain ⟨pc', hk', hpc⟩ := h.task hk
  unfold Sys.cancel at hcancel ⊢
  simp only [hk] at hcancel
  simp only [hk']
  cases hpc with
  | eval | reply | notified =>
      cases hcancel
      exact ⟨_, rfl, h.goto .dropped _ _⟩
  | _ => cases hcancel

theorem Like.orphan (h : s.Like b N s') (hk : s.tasks t = some ⟨i, b, pc⟩) (horphan : s.orphan cfg t = some s₁) :
    ∃ s₂, s'.orphan cfg t = some s₂ ∧ s₁.Like b N s₂ := by
  obtain ⟨pc', hk', hpc⟩ := h.task hk
  unfold Sys.orphan at horphan ⊢
  simp only [hk] at horphan
  simp only [hk']
  cases hpc with
  | @dropped inFlight =>
      cases inFlight with
      | true =>
          cases horphan
          exact ⟨_, rfl, (h.setLedger (Ledger.lease_shares h.server cfg i).2).goto .dropped _ _⟩
      | false => cases horphan
  | _ => cases horphan

variable [DecidableEq ι]

theorem Like.settle (h : s.Like b N s') (pc₀ pc₁ : Pc IpAddr) (n m g g' leased ttl : Nat) (window : Int) :
    (s.settle t ⟨i, b, pc₀⟩ n g leased ttl window).Like b N (s'.settle t ⟨i, b, pc₁⟩ m g' leased ttl window) := by
  have hv := h.insts i
  rcases Nat.eq_zero_or_pos leased with rfl | hpos
  · simp only [Sys.settle, if_true]
    cases hb : (s.insts i).store.buckets.get b with
    | none =>
        have hb' := hv.bucket.trans hb
        rw [Store.leased_zero_absent hb, Store.leased_zero_absent hb']
        exact (h.setInst hv i).goto .refilled pc₀ pc₁
    | some bk =>
        have hb' := hv.bucket.trans hb
        rw [Store.leased_zero_present hb, Store.leased_zero_present hb', hv.now]
        exact (h.setInst (hv.modify Bucket.setExhausted) i).goto .refilled pc₀ pc₁
  · rw [settle_pos _ _ _ _ _ _ _ hpos, settle_pos _ _ _ _ _ _ _ hpos]
    simp only [hv.now]
    have hinsert := h.setInst (hv.insert (.new (s.insts i).now leased ttl window) g g' ((s.insts i).version b + 1)
      ((s'.insts i).version b + 1)) i
    have hserver : (s.ledger.land g).server.Shares b.toKey (s'.ledger.land g').server := h.server
    exact (hinsert.setLedger hserver).goto .refilled pc₀ pc₁

theorem Like.takeToken (h : s.Like b N s') (pc₀ pc₁ : Pc IpAddr) :
    (s.takeToken t ⟨i, b, pc₀⟩).Like b N (s'.takeToken t ⟨i, b, pc₁⟩) := by
  have hv := h.insts i
  cases hb : (s.insts i).store.buckets.get b with
  | none =>
      simp only [Sys.takeToken, Store.take, hv.bucket, hb]
      exact (h.setInst hv i).answer pc₀ pc₁
  | some bk =>
      simp only [Sys.takeToken, Store.take, hv.bucket, hv.now, hb]
      cases hx : bk.isExpired (s.insts i).now with
      | true =>
          simp only [if_true]
          exact h.goto .expired pc₀ pc₁
      | false =>
          simp only [Bool.false_eq_true, if_false]
          have htaken := h.setInst (hv.modify fun bk => bk.consume.2) i
          split
          · exact htaken.answer pc₀ pc₁
          · exact .setLedger (htaken.answer pc₀ pc₁) h.server

theorem Like.run (h : s.Like b N s') (hk : s.tasks t = some ⟨i, b, pc⟩) (hrun : s.run t = some s₁) :
    ∃ s₂ N', s'.run t = some s₂ ∧ s₁.Like b N' s₂ := by
  obtain ⟨pc', hk', hpc⟩ := h.task hk
  have hv := h.insts i
  unfold Sys.run at hrun ⊢
  simp only [hk] at hrun
  simp only [hk']
  cases hpc with
  | check =>
      simp only [hv.check] at hrun ⊢
      cases hc : (s.insts i).store.check (s.insts i).now b with
      | error e =>
          simp only [hc, Option.some.injEq] at hrun
          exact ⟨_, N, rfl, hrun ▸ h.answer _ _⟩
      | ok spendable =>
          cases spendable with
          | true =>
              simp only [hc, Option.some.injEq] at hrun
              exact ⟨_, N, rfl, hrun ▸ h.goto .take _ _⟩
          | false =>
              simp only [hc, Option.some.injEq] at hrun
              exact ⟨_, N, rfl, hrun ▸ h.goto .entry _ _⟩
  | entry =>
      cases hr : (s.insts i).store.refills.get b with
      | some n =>
          obtain ⟨m, hm, hsame⟩ := hv.refilling n hr
          simp only [hr, Option.some.injEq] at hrun
          simp only [hm]
          exact ⟨_, N, rfl, hrun ▸ h.goto (.occupied hsame) _ _⟩
      | none =>
          simp only [hr, Option.some.injEq] at hrun
          simp only [hv.free hr]
          obtain ⟨N', hN, hsame, hnamed⟩ := h.name
          exact ⟨_, N', rfl, hrun ▸ (hnamed.setInst ((hv.mono hN).claim hsame) i).goto .lease _ _⟩
  | lease =>
      cases hrun
      rw [hv.now]
      exact ⟨_, N, rfl, h.goto .eval _ _⟩
  | eval => cases hrun
  | @reply n m started res g g' =>
      cases res with
      | error e =>
          cases hrun
          exact ⟨_, N, rfl, h.goto .refilled _ _⟩
      | ok r =>
          cases hrun
          simp only [hv.now]
          exact ⟨_, N, rfl, h.goto .leased _ _⟩
  | leased =>
      cases hrun
      exact ⟨_, N, rfl, h.settle _ _ _ _ _ _ _ _ _⟩
  | refilled =>
      have hunclaimed := h.setInst hv.unclaim i
      cases hr : (s.insts i).store.refills.get b with
      | some n =>
          obtain ⟨m, hm, hsame⟩ := hv.refilling n hr
          simp only [hr, Option.some.injEq] at hrun
          simp only [hm]
          exact ⟨_, N, rfl, hrun ▸ hunclaimed.goto (.notify hsame) _ _⟩
      | none =>
          simp only [hr, Option.some.injEq] at hrun
          simp only [hv.free hr]
          exact ⟨_, N, rfl, hrun ▸ hunclaimed.resume _ _ _⟩
  | notify hsame =>
      cases hrun
      exact ⟨_, N, rfl, (h.call hsame).resume _ _ _⟩
  | occupied hsame =>
      cases hrun
      simp only [(h.same _ _ hsame).2.2.1]
      exact ⟨_, N, rfl, h.goto (.notified hsame) _ _⟩
  | notified hsame =>
      simp only [(h.same _ _ hsame).2.2.1]
      simp only [Option.ite_none_left_eq_some] at hrun ⊢
      obtain ⟨hne, hrun⟩ := hrun
      cases hrun
      exact ⟨_, N, ⟨hne, rfl⟩, h.goto .check _ _⟩
  | take =>
      cases hrun
      exact ⟨_, N, rfl, h.takeToken _ _⟩
  | expired =>
      cases hrun
      exact ⟨_, N, rfl, (h.setInst hv.remove i).answer _ _⟩
  | done => cases hrun
  | dropped => cases hrun

/-- The lonely system stands still while a task of another id takes a step. -/
theorem Like.other_run (h : s.Like b N s') (hk : s.tasks t = some k) (hid : k.id ≠ b) (hrun : s.run t = some s₁) :
    ∃ N', s₁.Like b N' s' := by
  obtain ⟨hk', hpc'⟩ := h.other_task hk hid
  have hv := h.insts k.inst
  cases (step_of_run hrun : Step .default s (.run t) s₁) with
  | move hk₀ hm =>
      obtain rfl := Option.some.inj (hk₀.symm.trans hk)
      exact ⟨N, h.other_goto hid hk' (by cases hm <;> rintro _ _ ⟨⟩)⟩
  | rejected hk₀ =>
      obtain rfl := Option.some.inj (hk₀.symm.trans hk)
      exact ⟨N, h.other_answer hid hk'⟩
  | claim hk₀ =>
      obtain rfl := Option.some.inj (hk₀.symm.trans hk)
      obtain ⟨N', hN, hother, hnamed⟩ := h.other_name
      exact ⟨N', (hnamed.other_inst ((hv.mono hN).other_claim hid hother)).other_goto hid hk' (by rintro _ _ ⟨⟩)⟩
  | refusedAbsent hk₀ =>
      obtain rfl := Option.some.inj (hk₀.symm.trans hk)
      exact ⟨N, h.other_goto hid hk' (by rintro _ _ ⟨⟩)⟩
  | refused hk₀ =>
      obtain rfl := Option.some.inj (hk₀.symm.trans hk)
      exact ⟨N, (h.other_inst (hv.other_modify hid _)).other_goto hid hk' (by rintro _ _ ⟨⟩)⟩
  | insert hk₀ =>
      obtain rfl := Option.some.inj (hk₀.symm.trans hk)
      exact ⟨N, .other_goto (.other_ledger (h.other_inst (hv.other_insert hid _ _ _)) h.server) hid hk' (by rintro _ _ ⟨⟩)⟩
  | unclaim hk₀ _ hn =>
      obtain rfl := Option.some.inj (hk₀.symm.trans hk)
      refine ⟨N, (h.other_inst (hv.other_unclaim hid)).other_goto hid hk' ?_⟩
      rintro _ _ ⟨⟩
      exact hv.other _ _ hid hn
  | unclaimNone hk₀ =>
      obtain rfl := Option.some.inj (hk₀.symm.trans hk)
      exact ⟨N, (h.other_inst (hv.other_unclaim hid)).other_resume hid hk' _⟩
  | notify hk₀ hpc =>
      obtain rfl := Option.some.inj (hk₀.symm.trans hk)
      exact ⟨N, (h.other_call (hpc' _ _ hpc)).other_resume hid hk' _⟩
  | takeAbsent hk₀ =>
      obtain rfl := Option.some.inj (hk₀.symm.trans hk)
      exact ⟨N, h.other_answer hid hk'⟩
  | takeEmpty hk₀ =>
      obtain rfl := Option.some.inj (hk₀.symm.trans hk)
      exact ⟨N, (h.other_inst (hv.other_modify hid _)).other_answer hid hk'⟩
  | spend hk₀ =>
      obtain rfl := Option.some.inj (hk₀.symm.trans hk)
      exact ⟨N, .other_answer (.other_ledger (h.other_inst (hv.other_modify hid _)) h.server) hid hk'⟩
  | remove hk₀ =>
      obtain rfl := Option.some.inj (hk₀.symm.trans hk)
      exact ⟨N, (h.other_inst (hv.other_remove hid)).other_answer hid hk'⟩
  | plan hp => cases hp

theorem Like.other_eval {link : Link} (hkeys : Function.Injective (BucketId.toKey : BucketId IpAddr → String))
    (h : s.Like b N s') (hk : s.tasks t = some k) (hid : k.id ≠ b) (heval : s.eval cfg t link = some s₁) :
    s₁.Like b N s' := by
  obtain ⟨hk', -⟩ := h.other_task hk hid
  have hserver := Ledger.lease_shares_other h.server (fun hkey => hid (hkeys hkey).symm : b.toKey ≠ k.id.toKey) cfg
  cases step_of_eval heval with
  | script hk₀ =>
      obtain rfl := Option.some.inj (hk₀.symm.trans hk)
      exact (h.other_ledger (hserver _)).other_goto hid hk' (by rintro _ _ ⟨⟩)
  | unreachable hk₀ =>
      obtain rfl := Option.some.inj (hk₀.symm.trans hk)
      exact h.other_goto hid hk' (by rintro _ _ ⟨⟩)
  | plan hp => cases hp

theorem Like.other_cancel (h : s.Like b N s') (hk : s.tasks t = some k) (hid : k.id ≠ b)
    (hcancel : s.cancel t = some s₁) : s₁.Like b N s' := by
  obtain ⟨hk', -⟩ := h.other_task hk hid
  cases (step_of_next hcancel : Step .default s (.cancel t) s₁) with
  | cancel hk₀ =>
      obtain rfl := Option.some.inj (hk₀.symm.trans hk)
      exact h.other_goto hid hk' (by rintro _ _ ⟨⟩)
  | plan hp => cases hp

theorem Like.other_orphan (hkeys : Function.Injective (BucketId.toKey : BucketId IpAddr → String)) (h : s.Like b N s')
    (hk : s.tasks t = some k) (hid : k.id ≠ b) (horphan : s.orphan cfg t = some s₁) : s₁.Like b N s' := by
  obtain ⟨hk', -⟩ := h.other_task hk hid
  have hserver := Ledger.lease_shares_other h.server (fun hkey => hid (hkeys hkey).symm : b.toKey ≠ k.id.toKey) cfg
  cases (step_of_next horphan : Step cfg s (.orphan t) s₁) with
  | orphan hk₀ =>
      obtain rfl := Option.some.inj (hk₀.symm.trans hk)
      exact (h.other_ledger (hserver _)).other_goto hid hk' (by rintro _ _ ⟨⟩)
  | plan hp => cases hp

end Calls

/-! ## Passes over a single bucket -/

/-- No call is made for another id. -/
def CallsOnly (b : BucketId IpAddr) (_ : Sys ι IpAddr) : Action ι IpAddr → Prop
  | .spawn _ _ b' => b' = b
  | _ => True

section Passes

variable {cfg : Config} {b : BucketId IpAddr} {s : Sys ι IpAddr} {i : ι} {bk : Bucket} {p : Snapshot IpAddr}

theorem covers_singleton (halone : ∀ b', b' ≠ b → (s.insts i).store.buckets.get b' = none) : s.Covers i [b] := by
  refine ⟨List.nodup_singleton b, fun b' hb' => ?_⟩
  by_contra hne
  rw [DashMap.mem_keys_iff, halone b' (by simpa using hne)] at hb'
  cases hb'

variable [DecidableEq ι] [ToString IpAddr]

/-- A whole pass of the cleanup, up to the removal, when the only bucket has expired. -/
theorem run_sweeps (hw : (s.insts i).worker = .idle) (halone : ∀ b', b' ≠ b → (s.insts i).store.buckets.get b' = none)
    (hb : (s.insts i).store.buckets.get b = some bk) (hx : bk.isExpired (s.insts i).now = true) :
    RunWhen (sys cfg) (CallsOnly b) s (s.setWorker i (.sweeping [[b]])) := by
  have hfull : (s.insts i).store.buckets.isEmpty = false := by
    by_contra hempty
    rw [DashMap.get_of_isEmpty (by simpa using hempty)] at hb
    cases hb
  have htick : s.tick i [b] = some (s.setWorker i (.collecting [b] [])) := by
    simp [Sys.tick, hw, hfull, covers_singleton halone]
  have hvisit : (s.setWorker i (.collecting [b] [])).visit i = some (s.setWorker i (.collecting [] [b])) := by
    simp [Sys.visit, hb, hx, setInst]
  have hcollected : (s.setWorker i (.collecting [] [b])).visit i = some (s.setWorker i (.sweeping [[b]])) := by
    simp [Sys.visit, setInst]
    rfl
  apply RunWhen.head (a := .tick i [b]) trivial htick
  apply RunWhen.head (a := .visit i) trivial hvisit
  exact RunWhen.single (a := .visit i) trivial hcollected

theorem run_swept (hw : (s.insts i).worker = .sweeping [[b]]) : RunWhen (sys cfg) (CallsOnly b) s
    (s.setInst i { s.insts i with store := (s.insts i).store.removeBucket b, worker := .idle }) := by
  have hsweep : s.sweep i 0 = some (s.setInst i
      { s.insts i with store := (s.insts i).store.removeBucket b, worker := .sweeping [[]] }) := by
    simp [Sys.sweep, hw]
  have hjoin : (s.setInst i { s.insts i with store := (s.insts i).store.removeBucket b, worker := .sweeping [[]] }).join i =
      some (s.setInst i { s.insts i with store := (s.insts i).store.removeBucket b, worker := .idle }) := by
    simp [Sys.join, setInst]
  apply RunWhen.head (a := .sweep i 0) trivial hsweep
  exact RunWhen.single (a := .join i) trivial hjoin

/-- A whole shutdown, up to the release, when the only bucket can still be spent. -/
theorem run_notes (hw : (s.insts i).worker = .idle) (halone : ∀ b', b' ≠ b → (s.insts i).store.buckets.get b' = none)
    (hb : (s.insts i).store.buckets.get b = some bk) (ht : bk.isEmpty = false) (hl : bk.isExpired (s.insts i).now = false) :
    RunWhen (sys cfg) (CallsOnly b) s
      { s.setWorker i (.releasing [[⟨b, bk.tokens, bk.window, (s.insts i).origin b⟩]]) with
        ledger := s.ledger.note ((s.insts i).origin b) bk.tokens } := by
  have hfull : (s.insts i).store.buckets.isEmpty = false := by
    by_contra hempty
    rw [DashMap.get_of_isEmpty (by simpa using hempty)] at hb
    cases hb
  have hshutdown : s.shutdown i [b] = some (s.setWorker i (.noting [b] [])) := by
    simp [Sys.shutdown, hw, hfull, covers_singleton halone]
  have hvisit : (s.setWorker i (.noting [b] [])).visit i =
      some { s.setWorker i (.noting [] [⟨b, bk.tokens, bk.window, (s.insts i).origin b⟩]) with
        ledger := s.ledger.note ((s.insts i).origin b) bk.tokens } := by
    simp [Sys.visit, hb, ht, hl, setInst]
  have hnoted : Sys.visit { s.setWorker i (.noting [] [⟨b, bk.tokens, bk.window, (s.insts i).origin b⟩]) with
      ledger := s.ledger.note ((s.insts i).origin b) bk.tokens } i =
      some { s.setWorker i (.releasing [[⟨b, bk.tokens, bk.window, (s.insts i).origin b⟩]]) with
        ledger := s.ledger.note ((s.insts i).origin b) bk.tokens } := by
    simp [Sys.visit, setInst]
    rfl
  apply RunWhen.head (a := .shutdown i [b]) trivial hshutdown
  apply RunWhen.head (a := .visit i) trivial hvisit
  exact RunWhen.single (a := .visit i) trivial hnoted

theorem run_completes (hw : (s.insts i).worker = .idle)
    (halone : ∀ b', b' ≠ b → (s.insts i).store.buckets.get b' = none) (hspent : (s.insts i).store.Spent (s.insts i).now b) :
    RunWhen (sys cfg) (CallsOnly b) s (s.setWorker i .complete) := by
  cases hb : (s.insts i).store.buckets.get b with
  | none =>
      have hempty : (s.insts i).store.buckets.isEmpty = true := by
        apply DashMap.isEmpty_of_get
        intro b'
        by_cases hid : b' = b
        · rw [hid, hb]
        · exact halone b' hid
      have hshutdown : s.shutdown i [] = some (s.setWorker i .complete) := by
        simp [Sys.shutdown, hw, hempty]
      exact RunWhen.single (a := .shutdown i []) trivial hshutdown
  | some bk =>
      have hfull : (s.insts i).store.buckets.isEmpty = false := by
        by_contra hempty
        rw [DashMap.get_of_isEmpty (by simpa using hempty)] at hb
        cases hb
      have hskip : (bk.isEmpty || bk.isExpired (s.insts i).now) = true := by
        simpa using hspent bk hb
      have hshutdown : s.shutdown i [b] = some (s.setWorker i (.noting [b] [])) := by
        simp [Sys.shutdown, hw, hfull, covers_singleton halone]
      have hvisit : (s.setWorker i (.noting [b] [])).visit i = some (s.setWorker i (.noting [] [])) := by
        simp only [Sys.visit, setWorker_eq, setInst_insts_self, hb, hskip, if_true]
        simp [setInst]
      have hnoted : (s.setWorker i (.noting [] [])).visit i = some (s.setWorker i .complete) := by
        simp [Sys.visit, setInst]
      apply RunWhen.head (a := .shutdown i [b]) trivial hshutdown
      apply RunWhen.head (a := .visit i) trivial hvisit
      exact RunWhen.single (a := .visit i) trivial hnoted

theorem run_released (hw : (s.insts i).worker = .releasing [[p]]) : RunWhen (sys cfg) (CallsOnly b) s
    { s.setWorker i .complete with ledger := (s.ledger.release p.grant p.id p.tokens p.window).2 } := by
  have hrelease : s.release i 0 .answers = some { s.setWorker i (.releasing [[]]) with
      ledger := (s.ledger.release p.grant p.id p.tokens p.window).2 } := by
    simp [Sys.release, hw]
  have hjoin : Sys.join { s.setWorker i (.releasing [[]]) with
      ledger := (s.ledger.release p.grant p.id p.tokens p.window).2 } i = some { s.setWorker i .complete with
      ledger := (s.ledger.release p.grant p.id p.tokens p.window).2 } := by
    simp [Sys.join, setInst]
  apply RunWhen.head (a := .release i 0 .answers) trivial hrelease
  exact RunWhen.single (a := .join i) trivial hjoin

theorem run_lost (hw : (s.insts i).worker = .releasing [[p]]) :
    RunWhen (sys cfg) (CallsOnly b) s (s.setWorker i .complete) := by
  have hrelease : s.release i 0 (.unreachable .io) = some (s.setWorker i (.releasing [[]])) := by
    simp [Sys.release, hw]
  have hjoin : (s.setWorker i (.releasing [[]])).join i = some (s.setWorker i .complete) := by
    simp [Sys.join, setInst]
  apply RunWhen.head (a := .release i 0 (.unreachable .io)) trivial hrelease
  exact RunWhen.single (a := .join i) trivial hjoin

end Passes

section Workers

variable [DecidableEq ι] [ToString IpAddr] {cfg : Config} {b : BucketId IpAddr} {N : Names} {s s' s₁ : Sys ι IpAddr}
  {i : ι}

/-- The lonely system can catch up. -/
def Follows (cfg : Config) (b : BucketId IpAddr) (N : Names) (s s' : Sys ι IpAddr) : Prop :=
  ∃ s₂, RunWhen (sys cfg) (CallsOnly b) s' s₂ ∧ s.Like b N s₂

theorem Like.stay (h : s.Like b N s') {w : Worker IpAddr} (hw : w.Like b (s'.insts i).worker) :
    Follows cfg b N (s.setWorker i w) s' :=
  ⟨s', .refl, h.other_inst ((h.insts i).other_plan hw)⟩

theorem Like.catch_up (h : s.Like b N s') {w w' : Worker IpAddr}
    (hrun : RunWhen (sys cfg) (CallsOnly b) s' (s'.setWorker i w')) (hw : w.Like b w') :
    Follows cfg b N (s.setWorker i w) s' :=
  ⟨_, hrun, h.setInst ((h.insts i).plan hw) i⟩

theorem Like.plan (h : s.Like b N s') {a : Action ι IpAddr} {w : Worker IpAddr} (hp : s.Plans i a w) :
    Follows cfg b N (s.setWorker i w) s' := by
  have hv := h.insts i
  have hlike := hv.worker
  cases hp with
  | tick hw hcovers =>
      apply h.stay
      rw [hw] at hlike
      generalize (s'.insts i).worker = w' at hlike ⊢
      cases hlike with
      | idle => exact .collecting List.not_mem_nil hcovers.1
  | @collect b' todo found bk hw hb hx =>
      rw [hw] at hlike
      generalize hw' : (s'.insts i).worker = w' at hlike
      cases hlike with
      | collecting hfound hnodup =>
          obtain ⟨hb', hnodup⟩ := List.nodup_cons.mp hnodup
          by_cases hid : b' = b
          · subst hid
            apply h.catch_up (run_sweeps hw' hv.alone (hv.bucket.trans hb) (hv.now ▸ hx))
            exact .collected (by simp [List.count_eq_zero.mpr hfound]) hb'
          · apply h.stay
            rw [hw']
            exact .collecting (by simp [hfound, Ne.symm hid]) hnodup
      | collected hfound htodo =>
          apply h.stay
          rw [List.mem_cons, not_or] at htodo
          rw [hw']
          exact .collected (by simp [hfound, Ne.symm htodo.1]) htodo.2
  | keep hw hfresh =>
      apply h.stay
      rw [hw] at hlike
      generalize (s'.insts i).worker = w' at hlike ⊢
      cases hlike with
      | collecting hfound hnodup => exact .collecting hfound (List.nodup_cons.mp hnodup).2
      | collected hfound htodo => exact .collected hfound fun hmem => htodo (List.mem_cons_of_mem _ hmem)
  | collected hw =>
      apply h.stay
      rw [hw] at hlike
      generalize (s'.insts i).worker = w' at hlike ⊢
      cases hlike with
      | collecting hfound hnodup => exact .passing (by rwa [Chunks.flatten_chunks (by decide)])
      | collected hfound htodo => exact .sweeping (by rwa [Chunks.flatten_chunks (by decide)])
  | noneExpired hw =>
      apply h.stay
      rw [hw] at hlike
      generalize (s'.insts i).worker = w' at hlike ⊢
      cases hlike with
      | collecting => exact .idle
      | collected hfound => cases hfound
  | swept hw hdone =>
      apply h.stay
      rw [hw] at hlike
      generalize (s'.insts i).worker = w' at hlike ⊢
      cases hlike with
      | passing => exact .idle
      | sweeping hcount =>
          have hnil := List.flatten_eq_nil_iff.mpr fun l hl => List.isEmpty_iff.mp (List.all_eq_true.mp hdone l hl)
          rw [hnil] at hcount
          cases hcount
  | @shutdown order hw hcovers =>
      rw [hw] at hlike
      generalize hw' : (s'.insts i).worker = w' at hlike
      cases hlike with
      | idle =>
          by_cases hmem : b ∈ order
          · apply h.stay
            rw [hw']
            exact .noting hmem hcovers.1 (by simp)
          · have hnone : (s.insts i).store.buckets.get b = none := by
              by_contra hb
              exact hmem (hcovers.2 b ((DashMap.mem_keys_iff ..).mpr (Option.isSome_iff_ne_none.mpr hb)))
            apply h.catch_up (run_completes hw' hv.alone fun bk hb => ?_)
            · exact .skipped hmem (by simp)
            · rw [hv.bucket, hnone] at hb
              cases hb
  | nothingHeld hw hempty =>
      rw [hw] at hlike
      generalize hw' : (s'.insts i).worker = w' at hlike
      cases hlike with
      | idle =>
          apply h.catch_up (run_completes hw' hv.alone fun bk hb => ?_) .complete
          rw [hv.bucket, DashMap.get_of_isEmpty hempty] at hb
          cases hb
  | @skip b' todo found hw hspent =>
      rw [hw] at hlike
      generalize hw' : (s'.insts i).worker = w' at hlike
      cases hlike with
      | noting hmem hnodup hfound =>
          obtain ⟨hb', hnodup⟩ := List.nodup_cons.mp hnodup
          by_cases hid : b' = b
          · subst hid
            apply h.catch_up (run_completes hw' hv.alone fun bk hb => ?_) (.skipped hb' hfound)
            rw [hv.now]
            exact hspent bk (hv.bucket ▸ hb)
          · apply h.stay
            rw [hw']
            exact .noting ((List.mem_cons.mp hmem).resolve_left (Ne.symm hid)) hnodup hfound
      | noted htodo hfound hp =>
          apply h.stay
          rw [hw']
          exact .noted (fun hmem => htodo (List.mem_cons_of_mem _ hmem)) hfound hp
      | skipped htodo hfound =>
          apply h.stay
          rw [hw']
          exact .skipped (fun hmem => htodo (List.mem_cons_of_mem _ hmem)) hfound
  | noted hw =>
      apply h.stay
      rw [hw] at hlike
      generalize (s'.insts i).worker = w' at hlike ⊢
      cases hlike with
      | noting hmem => cases hmem
      | noted htodo hfound hp => exact .releasing (by rwa [Chunks.flatten_chunks (by decide)]) hp
      | skipped htodo hfound => exact .released (by rwa [Chunks.flatten_chunks (by decide)])
  | noneNoted hw =>
      apply h.stay
      rw [hw] at hlike
      generalize (s'.insts i).worker = w' at hlike ⊢
      cases hlike with
      | noting hmem => cases hmem
      | noted htodo hfound => cases hfound
      | skipped => exact .complete
  | @unreachable chunks c p rest e hw hc =>
      rw [hw] at hlike
      rcases hlike.release hc with ⟨-, p', -, hw', hrest⟩ | ⟨-, hrest⟩
      · exact h.catch_up (run_lost hw') hrest
      · exact h.stay hrest
  | released hw hdone =>
      apply h.stay
      rw [hw] at hlike
      generalize (s'.insts i).worker = w' at hlike ⊢
      have hnil := List.flatten_eq_nil_iff.mpr fun l hl => List.isEmpty_iff.mp (List.all_eq_true.mp hdone l hl)
      cases hlike with
      | releasing hp =>
          rw [hnil] at hp
          cases hp
      | released => exact .complete

theorem Like.note (h : s.Like b N s') {b' : BucketId IpAddr} {todo : List (BucketId IpAddr)}
    {found : List (Snapshot IpAddr)} {bk : Bucket} {L : Ledger ι IpAddr} (hL : L.server = s.ledger.server)
    (hw : (s.insts i).worker = .noting (b' :: todo) found) (hb : (s.insts i).store.buckets.get b' = some bk)
    (ht : bk.isEmpty = false) (hl : bk.isExpired (s.insts i).now = false) (g : Nat) :
    Follows cfg b N { s.setWorker i (.noting todo (found ++ [⟨b', bk.tokens, bk.window, g⟩])) with ledger := L } s' := by
  have hv := h.insts i
  have hlike := hv.worker
  have hserver : L.server.Shares b.toKey s'.ledger.server := hL ▸ h.server
  have hstay {w : Worker IpAddr} (hw : w.Like b (s'.insts i).worker) :
      Follows cfg b N { s.setWorker i w with ledger := L } s' :=
    ⟨s', .refl, .other_ledger (h.other_inst (hv.other_plan hw)) hserver⟩
  rw [hw] at hlike
  generalize hw' : (s'.insts i).worker = w' at hlike
  cases hlike with
  | noting hmem hnodup hfound =>
      obtain ⟨hb', hnodup⟩ := List.nodup_cons.mp hnodup
      by_cases hid : b' = b
      · subst hid
        refine ⟨_, run_notes hw' hv.alone (hv.bucket.trans hb) ht (hv.now ▸ hl), .setLedger (h.setInst (hv.plan ?_) i) hserver⟩
        refine .noted (p := ⟨b', bk.tokens, bk.window, g⟩) hb' ?_ ⟨rfl, rfl, rfl⟩
        have hnil : found.filter (fun p => p.id = b') = [] := List.filter_eq_nil_iff.mpr (by simpa using hfound)
        simp [List.filter_append, hnil]
      · apply hstay
        rw [hw']
        apply Worker.Like.noting ((List.mem_cons.mp hmem).resolve_left (Ne.symm hid)) hnodup
        intro p hp
        rcases List.mem_append.mp hp with hp | hp
        · exact hfound p hp
        · rw [List.mem_singleton.mp hp]
          exact hid
  | noted htodo hfound hp =>
      rw [List.mem_cons, not_or] at htodo
      apply hstay
      rw [hw']
      refine .noted htodo.2 ?_ hp
      simp [List.filter_append, hfound, Ne.symm htodo.1]
  | skipped htodo hfound =>
      rw [List.mem_cons, not_or] at htodo
      apply hstay
      rw [hw']
      apply Worker.Like.skipped htodo.2
      intro p hp
      rcases List.mem_append.mp hp with hp | hp
      · exact hfound p hp
      · rw [List.mem_singleton.mp hp]
        exact Ne.symm htodo.1

theorem Like.sweep (h : s.Like b N s') {b' : BucketId IpAddr} {chunks : List (List (BucketId IpAddr))} {c : Nat}
    {rest : List (BucketId IpAddr)} (hw : (s.insts i).worker = .sweeping chunks) (hc : chunks[c]? = some (b' :: rest)) :
    Follows cfg b N (s.setInst i { s.insts i with
      store := (s.insts i).store.removeBucket b', worker := .sweeping (chunks.set c rest) }) s' := by
  have hv := h.insts i
  have hlike := hv.worker
  rw [hw] at hlike
  rcases hlike.sweep hc with ⟨rfl, hw', hrest⟩ | ⟨hid, hrest⟩
  · exact ⟨_, run_swept hw', h.setInst (hv.remove.plan hrest) i⟩
  · exact ⟨s', .refl, h.other_inst ((hv.other_remove hid).other_plan hrest)⟩

theorem Like.release (hkeys : Function.Injective (BucketId.toKey : BucketId IpAddr → String)) (h : s.Like b N s')
    {chunks : List (List (Snapshot IpAddr))} {c : Nat} {p : Snapshot IpAddr} {rest : List (Snapshot IpAddr)}
    (hw : (s.insts i).worker = .releasing chunks) (hc : chunks[c]? = some (p :: rest)) :
    Follows cfg b N { s.setWorker i (.releasing (chunks.set c rest)) with
      ledger := (s.ledger.release p.grant p.id p.tokens p.window).2 } s' := by
  have hv := h.insts i
  have hlike := hv.worker
  rw [hw] at hlike
  rcases hlike.release hc with ⟨hid, p', hp, hw', hrest⟩ | ⟨hid, hrest⟩
  · refine ⟨_, run_released hw', .setLedger (h.setInst (hv.plan hrest) i) ?_⟩
    rw [hp.id, hp.tokens, hp.window, hid]
    exact h.server.release p.tokens p.window
  · have hkey : b.toKey ≠ p.id.toKey := fun hkey => hid (hkeys hkey).symm
    exact ⟨s', .refl, .other_ledger (h.other_inst (hv.other_plan hrest)) (h.server.release_other hkey p.tokens p.window)⟩

end Workers

end Sys

end ThatLimit
