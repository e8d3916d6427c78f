import ThatLimit.Concurrent.Steps
import ThatLimit.Framework.SingleFlight
/-!
# The refills map

Seen through its `refills` maps, its program counters and its notifies, the system
is a single flight over the pairs of an instance and an id. The properties of the
map and of its waiters are pulled back from there.
-/

namespace ThatLimit

open Transition SingleFlight

variable {ι IpAddr : Type}

/-- The notify that the task has put into `refills` and is still to remove. -/
def Pc.leads : Pc IpAddr → Option Notify
  | .lease n | .eval n _ | .reply n _ _ _ | .leased n _ _ _ _ | .refilled n _ => some n
  | _ => none

def Task.role (k : Task ι IpAddr) : Role (ι × BucketId IpAddr) :=
  match k.pc with
  | .lease n | .eval n _ | .reply n _ _ _ | .leased n _ _ _ _ | .refilled n _ => .leader (k.inst, k.id) n
  | .notify n _ => .notifying (k.inst, k.id) n
  | .occupied n => .holding (k.inst, k.id) n
  | .notified n calls => .waiting (k.inst, k.id) n calls
  | .check | .entry _ | .take | .expired | .done _ | .dropped _ => .away

theorem Task.role_eq_leader {k : Task ι IpAddr} {key : ι × BucketId IpAddr} {n : Notify} :
    k.role = .leader key n ↔ (k.inst, k.id) = key ∧ k.pc.leads = some n := by
  unfold Task.role Pc.leads
  cases k.pc <;> simp

theorem Task.role_eq_notifying {k : Task ι IpAddr} {key : ι × BucketId IpAddr} {n : Notify} :
    k.role = .notifying key n ↔ (k.inst, k.id) = key ∧ ∃ res, k.pc = .notify n res := by
  unfold Task.role
  cases k.pc <;> simp

theorem Task.role_eq_waiting {k : Task ι IpAddr} {key : ι × BucketId IpAddr} {n : Notify} {calls : Nat} :
    k.role = .waiting key n calls ↔ (k.inst, k.id) = key ∧ k.pc = .notified n calls := by
  unfold Task.role
  cases k.pc <;> simp

theorem Task.role_eq_holding {k : Task ι IpAddr} {key : ι × BucketId IpAddr} {n : Notify} :
    k.role = .holding key n ↔ (k.inst, k.id) = key ∧ k.pc = .occupied n := by
  unfold Task.role
  cases k.pc <;> simp

namespace Sys

variable [DecidableEq IpAddr]

/-- The single flight the system shows. -/
def flight (s : Sys ι IpAddr) : Flight (ι × BucketId IpAddr) where
  table key := (s.insts key.1).store.refills.get key.2
  role t := (s.tasks t).elim .away Task.role
  calls := s.calls
  fresh := s.nextNotify

variable {s s' : Sys ι IpAddr} {t : Nat} {k : Task ι IpAddr}

theorem flight_role (hk : s.tasks t = some k) : s.flight.role t = k.role := by simp [flight, hk]

theorem task_of_flight_role {r : Role (ι × BucketId IpAddr)} (h : s.flight.role t = r) (hr : r ≠ .away) :
    ∃ k, s.tasks t = some k ∧ k.role = r := by
  cases hk : s.tasks t with
  | none => exact absurd (by simpa [flight, hk] using h.symm) hr
  | some k => exact ⟨k, rfl, by simpa [flight, hk] using h⟩

theorem flight_goto (s : Sys ι IpAddr) (t : Nat) (k : Task ι IpAddr) (pc : Pc IpAddr) :
    (s.goto t k pc).flight = s.flight.play t { k with pc }.role := by
  refine congrArg (fun role => { s.flight with role }) (funext fun t' => ?_)
  by_cases ht : t' = t
  · subst ht
    simp [flight]
  · simp [flight, goto, Function.update_of_ne ht]

theorem flight_stay {s₁ : Sys ι IpAddr} (h : s₁.flight = s.flight) (hk : s.tasks t = some k)
    {pc : Pc IpAddr} (hr : { k with pc }.role = k.role) : (s₁.goto t k pc).flight = s.flight := by
  rw [flight_goto, h, hr, ← flight_role hk]
  exact congrArg (fun role => { s.flight with role }) (Function.update_eq_self ..)

theorem flight_answer (s : Sys ι IpAddr) (t : Nat) (k : Task ι IpAddr) (res) :
    (s.answer t k res).flight = s.flight.play t .away := flight_goto s t k (.done res)

theorem flight_stay_answer {s₁ : Sys ι IpAddr} (h : s₁.flight = s.flight) (hk : s.tasks t = some k)
    (hr : k.role = .away) (res) : (s₁.answer t k res).flight = s.flight :=
  (flight_stay h hk hr.symm : (s₁.goto t k (.done res)).flight = s.flight)

theorem flight_resume (s : Sys ι IpAddr) (t : Nat) (k : Task ι IpAddr) (res) :
    (s.resume t k res).flight = s.flight.play t .away := by
  cases res with
  | ok _ => exact flight_goto s t k .take
  | error e => exact flight_answer s t k (.error e)

variable [DecidableEq ι]

theorem flight_setInst {i : ι} {v : Inst IpAddr} (h : v.store.refills = (s.insts i).store.refills) :
    (s.setInst i v).flight = s.flight := by
  refine congrArg (fun table => { s.flight with table }) (funext fun key => ?_)
  by_cases hi : key.1 = i
  · simp [hi, h]
  · simp [hi]

theorem table_setInst {i : ι} {b : BucketId IpAddr} {v : Inst IpAddr} {r : Option Notify}
    (h : ∀ b', v.store.refills.get b' = if b' = b then r else (s.insts i).store.refills.get b') :
    (s.setInst i v).flight.table = Function.update s.flight.table (i, b) r := by
  funext key
  obtain ⟨j, b'⟩ := key
  by_cases hj : j = i
  · subst hj
    by_cases hb : b' = b
    · simp [flight, h, hb]
    · simp [flight, h, hb]
  · have hne : (j, b') ≠ (i, b) := fun he => hj (Prod.mk.inj he).1
    simp [flight, hj]

theorem flight_modifyBucket (s : Sys ι IpAddr) (i : ι) (b : BucketId IpAddr) (f : Bucket → Bucket) :
    (s.modifyBucket i b f).flight = s.flight := flight_setInst rfl

theorem flight_insertBucket (s : Sys ι IpAddr) (i : ι) (b : BucketId IpAddr) (g : Nat) (bk : Bucket) :
    (s.insertBucket i b g bk).flight = s.flight :=
  flight_setInst (v := { s.insts i with store := { (s.insts i).store with buckets := _ }, origin := _, version := _ }) rfl

theorem flight_removeBucket (s : Sys ι IpAddr) (i : ι) (b : BucketId IpAddr) :
    (s.setStore i ((s.insts i).store.removeBucket b)).flight = s.flight := flight_setInst rfl

variable [ToString IpAddr]

/-- Every step shows a step of the flight or none; only a cancelled task leaves, and tasks
register as they run. -/
theorem flight_step {cfg : Config} {a : Action ι IpAddr} (h : Step cfg s a s') :
    s'.flight = s.flight ∨ ∃ act, s.flight.next act = some s'.flight ∧
      (∀ t, act = .leave t → a = .cancel t) ∧ (∀ t, act = .register t → a = .run t) := by
  cases h with
  | @spawn t i b ht =>
      left
      rw [flight_goto]
      have hr : s.flight.role t = .away := by simp [flight, ht]
      exact (congrArg (fun role => { s.flight with role }) (Function.update_eq_self_iff.mpr hr.symm))
  | @move t k pc hk hm =>
      have hrole := flight_role hk
      cases hm with
      | checkPassed hpc h | checkSpent hpc h | started hpc | failed hpc | replied hpc | expired hpc h =>
          exact .inl (flight_stay rfl hk (by simp [Task.role, hpc]))
      | @occupied seen n hpc h =>
          refine .inr ⟨.look t (k.inst, k.id), ?_, by simp, by simp⟩
          have hr : s.flight.role t = .away := by rw [hrole]; simp [Task.role, hpc]
          have htab : s.flight.table (k.inst, k.id) = some n := h
          simp only [Flight.next, hr, htab, flight_goto]
          rfl
      | @registered n hpc =>
          refine .inr ⟨.register t, ?_, by simp, by simp⟩
          have hr : s.flight.role t = .holding (k.inst, k.id) n := by rw [hrole]; simp [Task.role, hpc]
          simp only [Flight.next, hr, flight_goto]
          rfl
      | @woken n calls hpc h =>
          refine .inr ⟨.wake t, ?_, by simp, by simp⟩
          have hr : s.flight.role t = .waiting (k.inst, k.id) n calls := by rw [hrole]; simp [Task.role, hpc]
          have hne : s.flight.calls n ≠ calls := h
          simp only [Flight.next, hr, if_neg hne, flight_goto]
          rfl
  | rejected hk hpc h => exact .inl (flight_stay_answer rfl hk (by simp [Task.role, hpc]) _)
  | @claim t k seen hk hpc h =>
      refine .inr ⟨.claim t (k.inst, k.id), ?_, by simp, by simp⟩
      have hr : s.flight.role t = .away := by rw [flight_role hk]; simp [Task.role, hpc]
      have htab : s.flight.table (k.inst, k.id) = none := h
      have hset : (s.setStore k.inst ((s.insts k.inst).store.claim k.id s.nextNotify)).flight.table =
          Function.update s.flight.table (k.inst, k.id) (some s.nextNotify) :=
        table_setInst fun b' => DashMap.get_insert ..
      simp only [Flight.next, hr, htab, flight_goto]
      rw [← show _ = Function.update s.flight.table (k.inst, k.id) (some s.flight.fresh) from hset]
      rfl
  | script hk hpc h => exact .inl (flight_stay rfl hk (by simp [Task.role, hpc]))
  | unreachable hk hpc => exact .inl (flight_stay rfl hk (by simp [Task.role, hpc]))
  | refusedAbsent hk hpc hb => exact .inl (flight_stay rfl hk (by simp [Task.role, hpc]))
  | refused hk hpc hb =>
      exact .inl (flight_stay (flight_modifyBucket ..) hk (by simp [Task.role, hpc]))
  | insert hk hpc hpos =>
      exact .inl (flight_stay (flight_insertBucket ..) hk (by simp [Task.role, hpc]))
  | @unclaim t k n n' res hk hpc h =>
      refine .inr ⟨.remove t, ?_, by simp, by simp⟩
      have hr : s.flight.role t = .leader (k.inst, k.id) n := by rw [flight_role hk]; simp [Task.role, hpc]
      have htab : s.flight.table (k.inst, k.id) = some n' := h
      have hset : (s.setStore k.inst ((s.insts k.inst).store.unclaim k.id)).flight.table =
          Function.update s.flight.table (k.inst, k.id) none := table_setInst fun b' => DashMap.get_remove ..
      simp only [Flight.next, hr, htab, flight_goto]
      rw [← hset]
      rfl
  | @unclaimNone t k n res hk hpc h =>
      refine .inr ⟨.remove t, ?_, by simp, by simp⟩
      have hr : s.flight.role t = .leader (k.inst, k.id) n := by rw [flight_role hk]; simp [Task.role, hpc]
      have htab : s.flight.table (k.inst, k.id) = none := h
      have hset : (s.setStore k.inst ((s.insts k.inst).store.unclaim k.id)).flight.table =
          Function.update s.flight.table (k.inst, k.id) none := table_setInst fun b' => DashMap.get_remove ..
      simp only [Flight.next, hr, htab, flight_resume]
      rw [← hset]
      rfl
  | @notify t k n res hk hpc =>
      refine .inr ⟨.notify t, ?_, by simp, by simp⟩
      have hr : s.flight.role t = .notifying (k.inst, k.id) n := by rw [flight_role hk]; simp [Task.role, hpc]
      simp only [Flight.next, hr, flight_resume]
      rfl
  | takeAbsent hk hpc hb => exact .inl (flight_stay_answer rfl hk (by simp [Task.role, hpc]) _)
  | takeEmpty hk hpc hb hl ht =>
      exact .inl (flight_stay_answer (flight_modifyBucket ..) hk (by simp [Task.role, hpc]) _)
  | spend hk hpc hb hl ht =>
      refine .inl (flight_stay_answer ?_ hk (by simp [Task.role, hpc]) _)
      exact flight_modifyBucket s _ _ fun bk => bk.consume.2
  | remove hk hpc => exact .inl (flight_stay_answer (flight_removeBucket ..) hk (by simp [Task.role, hpc]) _)
  | @cancel t k inFlight hk h =>
      exact .inr ⟨.leave t, by rw [flight_goto]; rfl, by simp, by simp⟩
  | orphan hk hpc => exact .inl (flight_stay rfl hk (by simp [Task.role, hpc]))
  | elapse => exact .inl (flight_setInst rfl)
  | redisElapse => exact .inl rfl
  | tickNothing hw h => exact .inl rfl
  | plan h => exact .inl (flight_setInst rfl)
  | note hw hb ht hl => exact .inl (flight_setInst rfl)
  | sweep hw h => exact .inl (flight_setInst rfl)
  | release hw h => exact .inl (flight_setInst rfl)

end Sys

section Results

variable [DecidableEq ι] [DecidableEq IpAddr] [ToString IpAddr] {cfg : Config} {s s' : Sys ι IpAddr}

theorem flight_simulation {g : Sys ι IpAddr → Action ι IpAddr → Prop}
    {g' : Flight (ι × BucketId IpAddr) → Act (ι × BucketId IpAddr) → Prop}
    (hg : ∀ s a act, g s a → (∀ t, act = .leave t → a = .cancel t) →
      (∀ t, act = .register t → a = .run t) → g' s.flight act) :
    Simulation (sys cfg) g flights g' Sys.flight where
  init := by
    rintro _ ⟨clock, now, rfl⟩
    rfl
  step s a s' _ hga hnext := by
    rcases Sys.flight_step (Sys.step_of_next hnext) with h | ⟨act, h, hleave, hregister⟩
    · exact .inl h
    · exact .inr ⟨act, hg s a act hga hleave hregister, h⟩

theorem flight_reach (hs : Reach (sys cfg) s) : Reach flights s.flight :=
  (flight_simulation fun _ _ _ _ _ _ => trivial).reach hs

/-- Between its claim and its removal a task is alone with its id: its own notify is the entry, and the
removal takes out this very notify. -/
theorem refill_is_single_flight (hs : Reach (sys cfg) s) {t : Nat} {k : Task ι IpAddr} {n : Notify}
    (hk : s.tasks t = some k) (hleads : k.pc.leads = some n) :
    (s.insts k.inst).store.refills.get k.id = some n ∧
    (∀ t' k' n', s.tasks t' = some k' → k'.pc.leads = some n' →
      (k'.inst = k.inst ∧ k'.id = k.id) ∨ n' = n → t' = t) ∧
    ∀ m res s', k.pc = .refilled m res → (sys cfg).next s (.run t) = some s' →
      s'.tasks t = some { k with pc := .notify n res } ∧ (s'.insts k.inst).store.refills.get k.id = none := by
  have hex := exclusive (flight_reach hs)
  have hrole : s.flight.role t = .leader (k.inst, k.id) n :=
    (Sys.flight_role hk).trans (Task.role_eq_leader.mpr ⟨rfl, hleads⟩)
  have hstored : (s.insts k.inst).store.refills.get k.id = some n := hex.stored t _ n hrole
  refine ⟨hstored, ?_, ?_⟩
  · intro t' k' n' hk' hleads' hsame
    have hrole' : s.flight.role t' = .leader (k'.inst, k'.id) n' :=
      (Sys.flight_role hk').trans (Task.role_eq_leader.mpr ⟨rfl, hleads'⟩)
    rcases hsame with ⟨hi, hb⟩ | hn
    · rw [hi, hb] at hrole'
      exact hex.unique hrole' hrole
    · rw [hn] at hrole'
      exact hex.distinct t' t _ _ n hrole' hrole
  · intro m res s' hpc hnext
    have hrun : (sys cfg).next s (.run t) = some
        ((s.setStore k.inst ((s.insts k.inst).store.unclaim k.id)).goto t k (.notify n res)) := by
      simp only [sys, Sys.next, Sys.run, hk, hpc, hstored]
    obtain rfl := Option.some.inj (hrun.symm.trans hnext)
    refine ⟨Sys.goto_tasks_self .., ?_⟩
    rw [Sys.goto_insts, Sys.setStore_eq, Sys.setInst_insts_self]
    exact DashMap.get_remove_self ..

/-- A second request finds the entry of the first, which is about to take it out. -/
theorem refill_is_single_flight_of_two :
    ∃ s, (sys Config.default).exec (testStart .default) [.spawn 0 () testUser, .spawn 1 () testUser, .run 0, .run 0,
        .run 1, .run 1, .run 0, .eval 0 .answers, .run 0, .run 0] = some s ∧
      (s.insts ()).store.refills.get testUser = some 0 ∧
      ∀ t' k' n', s.tasks t' = some k' → k'.pc.leads = some n' →
        (k'.inst = () ∧ k'.id = testUser) ∨ n' = 0 → t' = 0 := by
  have hrun : ((sys Config.default).exec (testStart .default) [.spawn 0 () testUser, .spawn 1 () testUser, .run 0,
      .run 0, .run 1, .run 1, .run 0, .eval 0 .answers, .run 0, .run 0]).map (fun s => s.tasks 0) =
      some (some ⟨(), testUser, .refilled 0 (.ok ())⟩) := rfl
  obtain ⟨s, hs, hk⟩ := Option.map_eq_some_iff.mp hrun
  obtain ⟨hstored, hunique, -⟩ := refill_is_single_flight (Reach.exec (testStart_init _) _ hs) hk rfl
  exact ⟨s, hs, hstored, hunique⟩

/-- No future is dropped between its claim of an entry and the removal. -/
def leadersServed (s : Sys ι IpAddr) : Action ι IpAddr → Bool
  | .cancel t => (s.tasks t).all fun k => k.pc.leads.isNone
  | _ => true

/-- While no leader is dropped at its await on Redis, every entry of `refills` belongs to a
task that is going to remove it. -/
theorem refills_are_attended (hs : ReachWhen (sys cfg) (leadersServed · ·) s) {i : ι} {b : BucketId IpAddr}
    {n : Notify} (h : (s.insts i).store.refills.get b = some n) :
    ∃ t k, s.tasks t = some k ∧ k.inst = i ∧ k.id = b ∧ k.pc.leads = some n := by
  have sim : Simulation (sys cfg) (leadersServed · ·) flights LeadersStay (Sys.flight : Sys ι IpAddr → _) := by
    refine flight_simulation fun s a act hg hleave _ t key n hact hrole => ?_
    obtain ⟨k, hk, hr⟩ := Sys.task_of_flight_role hrole (by simp)
    have hleads := (Task.role_eq_leader.mp hr).2
    rw [hleave t hact] at hg
    simp [leadersServed, hk, hleads] at hg
  obtain ⟨t, hrole⟩ := attended (sim.reach hs) (i, b) n h
  obtain ⟨k, hk, hr⟩ := Sys.task_of_flight_role hrole (by simp)
  obtain ⟨hkey, hleads⟩ := Task.role_eq_leader.mp hr
  exact ⟨t, k, hk, (Prod.mk.inj hkey).1, (Prod.mk.inj hkey).2, hleads⟩

/-- The first request for an id attends its entry while it talks to Redis. -/
theorem first_refill_is_attended :
    ∃ s, (sys Config.default).exec (testStart .default) [.spawn 0 () testUser, .run 0, .run 0, .run 0] = some s ∧
      ∃ t k, s.tasks t = some k ∧ k.inst = () ∧ k.id = testUser ∧ k.pc.leads = some 0 := by
  have hrun : ((sys Config.default).execWhen leadersServed (testStart .default) [.spawn 0 () testUser, .run 0,
      .run 0, .run 0]).map (fun s => (s.insts ()).store.refills.get testUser) = some (some 0) := rfl
  obtain ⟨s, hs, hrefill⟩ := Option.map_eq_some_iff.mp hrun
  exact ⟨s, System.exec_of_execWhen hs, refills_are_attended ((testStart_init _).execWhen _ hs) hrefill⟩

/-- The first request for an id is dropped while it waits for Redis: its entry has no leader. -/
theorem dropped_leader_leaves_its_entry :
    ∃ s, (sys Config.default).exec (testStart .default)
        [.spawn 0 () testUser, .run 0, .run 0, .run 0, .cancel 0] = some s ∧
      Reach (sys Config.default) s ∧ (s.insts ()).store.refills.get testUser = some 0 ∧
      ¬ ∃ t k, s.tasks t = some k ∧ k.inst = () ∧ k.id = testUser ∧ k.pc.leads = some 0 := by
  refine ⟨_, rfl, Reach.exec (testStart_init _) [.spawn 0 () testUser, .run 0, .run 0, .run 0, .cancel 0] rfl, rfl, ?_⟩
  rintro ⟨t, k, hk, -, -, hleads⟩
  by_cases ht : t = 0
  · subst ht
    cases hk
    cases hleads
  · simp [testStart, Sys.start, Sys.goto, Sys.setInst, ht] at hk

/-- An entry whose leader was dropped stays for ever. -/
theorem abandoned_refill_stays {i : ι} {b : BucketId IpAddr} {n : Notify}
    (h : (s.insts i).store.refills.get b = some n)
    (hno : ∀ t k, s.tasks t = some k → k.inst = i → k.id = b → k.pc.leads = none)
    {as : List (Action ι IpAddr)} (he : (sys cfg).exec s as = some s') :
    (s'.insts i).store.refills.get b = some n := by
  have hab : Abandoned s.flight (i, b) n := by
    refine ⟨h, fun t m hrole => ?_⟩
    obtain ⟨k, hk, hr⟩ := Sys.task_of_flight_role hrole (by simp)
    obtain ⟨hkey, hleads⟩ := Task.role_eq_leader.mp hr
    rw [hno t k hk (Prod.mk.inj hkey).1 (Prod.mk.inj hkey).2] at hleads
    cases hleads
  have hrun : Abandoned s'.flight (i, b) n := by
    refine System.exec_invariant (S := sys cfg) (I := fun s => Abandoned s.flight (i, b) n) ?_ hab he
    intro s a s' hab hnext
    rcases Sys.flight_step (Sys.step_of_next hnext) with h | ⟨act, h, -⟩
    · exact h ▸ hab
    · exact hab.step (Flight.step_of_next h)
  exact hrun.stored

/-- No future is dropped, and whoever creates a `Notified` does so before `notify_waiters` is
called on its notify. -/
def registersInTime (s : Sys ι IpAddr) : Action ι IpAddr → Bool
  | .cancel _ => false
  | .run t => (s.tasks t).all fun k =>
      match k.pc with
      | .occupied n => s.calls n == 0
      | _ => true
  | _ => true

/-- A waiter that registers in time has been notified or waits on the stored notify, except
between the last two steps of its leader, which has then removed the notify and calls
`notify_waiters` on it next. -/
theorem waiters_are_woken (hs : ReachWhen (sys cfg) (registersInTime · ·) s) {t : Nat} {k : Task ι IpAddr}
    (hk : s.tasks t = some k) {n : Notify} {calls : Nat} (hpc : k.pc = .notified n calls) :
    (s.calls n ≠ calls ∨ (s.insts k.inst).store.refills.get k.id = some n) ↔
      ∀ t' k' res, s.tasks t' = some k' → k'.pc ≠ .notify n res := by
  have sim : Simulation (sys cfg) (registersInTime · ·) flights InTime (Sys.flight : Sys ι IpAddr → _) := by
    refine flight_simulation fun s a act hg hleave hregister => ?_
    cases act with
    | leave t =>
        rw [hleave t rfl] at hg
        cases hg
    | register t =>
        intro key n hrole
        obtain ⟨k, hk, hr⟩ := Sys.task_of_flight_role hrole (by simp)
        rw [hregister t rfl] at hg
        have hcalls : s.calls n = 0 := by simpa [registersInTime, hk, (Task.role_eq_holding.mp hr).2] using hg
        exact hcalls
    | _ => trivial
  have hrole : s.flight.role t = .waiting (k.inst, k.id) n calls := by
    rw [Sys.flight_role hk]
    exact Task.role_eq_waiting.mpr ⟨rfl, hpc⟩
  obtain ⟨rfl, hawaited⟩ := (awake (sim.reach hs)).waiting t _ n calls hrole
  constructor
  · intro h t' k' res hk' hpc'
    have htaken := (singular (flight_reach hs.reach)).taken t' (k'.inst, k'.id) n
      ((Sys.flight_role hk').trans (Task.role_eq_notifying.mpr ⟨rfl, res, hpc'⟩))
    rcases h with hcalls | hstored
    · exact hcalls htaken.2.1
    · exact htaken.2.2 (k.inst, k.id) hstored
  · intro hno
    rcases hawaited with hcalls | hstored | ⟨t', ht'⟩
    · exact .inl hcalls
    · exact .inr hstored
    · obtain ⟨k', hk', hr⟩ := Sys.task_of_flight_role ht' (by simp)
      obtain ⟨-, res, hpc'⟩ := Task.role_eq_notifying.mp hr
      exact absurd hpc' (hno t' k' res hk')

/-- A second request registers while the first is at Redis. -/
theorem second_request_is_awaited :
    ∃ s, (sys Config.default).exec (testStart .default) [.spawn 0 () testUser, .spawn 1 () testUser, .run 0, .run 0,
        .run 1, .run 1, .run 1] = some s ∧
      ((s.calls 0 ≠ 0 ∨ (s.insts ()).store.refills.get testUser = some 0) ↔
        ∀ t' k' res, s.tasks t' = some k' → k'.pc ≠ .notify 0 res) := by
  have hrun : ((sys Config.default).execWhen registersInTime (testStart .default) [.spawn 0 () testUser,
      .spawn 1 () testUser, .run 0, .run 0, .run 1, .run 1, .run 1]).map (fun s => s.tasks 1) =
      some (some ⟨(), testUser, .notified 0 0⟩) := rfl
  obtain ⟨s, hs, hwaiter⟩ := Option.map_eq_some_iff.mp hrun
  exact ⟨s, System.exec_of_execWhen hs, waiters_are_woken ((testStart_init _).execWhen _ hs) hwaiter rfl⟩

/-- The second request holds the notify of the first, which completes before the second has
created its `Notified`. The second then sleeps on a notify that nobody stores or calls. -/
theorem late_waiter_is_not_woken :
    ∃ s, (sys Config.default).exec (testStart .default) [.spawn 0 () testUser, .spawn 1 () testUser, .run 0, .run 1,
        .run 0, .run 1, .run 0, .eval 0 .answers, .run 0, .run 0, .run 0, .run 0, .run 0, .run 1] = some s ∧
      Reach (sys Config.default) s ∧ s.tasks 1 = some ⟨(), testUser, .notified 0 1⟩ ∧ s.calls 0 = 1 ∧
      (s.insts ()).store.refills.get testUser = none ∧
      s.tasks 0 = some ⟨(), testUser, .done (.ok 1999)⟩ := by
  have hrun : ((sys Config.default).exec (testStart .default) [.spawn 0 () testUser, .spawn 1 () testUser, .run 0,
      .run 1, .run 0, .run 1, .run 0, .eval 0 .answers, .run 0, .run 0, .run 0, .run 0, .run 0, .run 1]).map
      (fun s => (s.tasks 1, s.calls 0, (s.insts ()).store.refills.get testUser, s.tasks 0)) =
      some (some ⟨(), testUser, .notified 0 1⟩, 1, none, some ⟨(), testUser, .done (.ok 1999)⟩) := rfl
  obtain ⟨s, hs, hseen⟩ := Option.map_eq_some_iff.mp hrun
  simp only [Prod.mk.injEq] at hseen
  exact ⟨s, hs, Reach.exec (testStart_init _) _ hs, hseen⟩

end Results

end ThatLimit
