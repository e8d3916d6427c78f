import ThatLimit.Concurrent.Refills
import ThatLimit.Framework.Ranking
import ThatLimit.Framework.Tally
/-!
# Calls come to an end

A call can go round several times: a waiter that is woken may find the bucket spent again and
lead or wait for the next refill. But each round needs a `notify_waiters`, after which its caller
does not come back. Without new calls the tasks take boundedly many steps, however they are
scheduled, and as long as nobody is dropped or late for its notify there is always one to take.
-/

namespace ThatLimit

open Transition Tally SingleFlight

variable {ι IpAddr : Type}

/-- The call may still put an entry into `refills`, or wait for one. -/
def Pc.refilling : Pc IpAddr → Bool
  | .take | .expired | .done _ | .dropped _ => false
  | _ => true

/-- A bound on the steps of the task until it calls `notify_waiters`, sleeps or is done. -/
def Pc.rank (calls : Notify → Nat) : Pc IpAddr → Nat
  | .notified n seen => if calls n = seen then 0 else 12
  | .check => 11
  | .entry _ => 10
  | .lease _ | .occupied _ => 9
  | .eval .. => 8
  | .reply .. => 7
  | .leased .. => 6
  | .refilled .. => 5
  | .notify .. => 4
  | .take => 2
  | .expired => 1
  | .done _ => 0
  | .dropped inFlight => inFlight.toNat

/-- The call has nothing left to do, not even at Redis. -/
def Pc.over : Pc IpAddr → Bool
  | .done _ | .dropped false => true
  | _ => false

/-- With `n` tasks, a call of `notify_waiters` pays for those it wakes. -/
def Pc.cost (n : Nat) (calls : Notify → Nat) (pc : Pc IpAddr) : Nat :=
  (if pc.refilling then 12 * n else 0) + pc.rank calls

theorem Pc.not_over_of_cost {n : Nat} {calls : Notify → Nat} {pc : Pc IpAddr} (h : 0 < pc.cost n calls) :
    pc.over = false := by
  cases pc with
  | done res => simp [cost, refilling, rank] at h
  | dropped inFlight =>
      cases inFlight with
      | false => simp [cost, refilling, rank] at h
      | true => rfl
  | _ => rfl

theorem Pc.cost_le (n : Nat) (calls : Notify → Nat) (pc : Pc IpAddr) : pc.cost n calls ≤ 12 * n + 12 := by
  have hrank : pc.rank calls ≤ 12 := by
    cases pc with
    | notified m seen =>
        simp only [Pc.rank]
        split <;> omega
    | dropped inFlight => cases inFlight <;> simp [Pc.rank]
    | _ => simp [Pc.rank]
  unfold Pc.cost
  split <;> omega

/-- The action belongs to a task. -/
def Action.ofTask : Action ι IpAddr → Bool
  | .run _ | .eval .. | .cancel _ | .orphan _ => true
  | _ => false

def Action.spawns : Action ι IpAddr → Bool
  | .spawn .. => true
  | _ => false

namespace Sys

/-- All tasks that are not over have their numbers in the list. -/
def Within (ts : List Nat) (s : Sys ι IpAddr) : Prop :=
  ts.Nodup ∧ ∀ t k, s.tasks t = some k → k.pc.over = false → t ∈ ts

/-- A bound on the steps that the tasks will take. -/
def work (ts : List Nat) (s : Sys ι IpAddr) : Nat :=
  tally (fun t => (s.tasks t).elim 0 fun k => k.pc.cost ts.length s.calls) ts

variable {cfg : Config} {s s' : Sys ι IpAddr} {ts : List Nat} {t : Nat} {k : Task ι IpAddr} {pc : Pc IpAddr}

theorem work_same (hts : s.Within ts) (htasks : s'.tasks = s.tasks) (hcalls : s'.calls = s.calls) :
    s'.Within ts ∧ s'.work ts ≤ s.work ts := by
  unfold Within work
  rw [htasks, hcalls]
  exact ⟨hts, Nat.le_refl _⟩

/-- A task goes on, and each of the others gets up to `c` steps to take. -/
theorem work_goto_of_le (hts : s.Within ts) (hk : s.tasks t = some k) (htasks : s'.tasks = (s.goto t k pc).tasks) (c : Nat)
    (hothers : ∀ pc' : Pc IpAddr, pc'.rank s'.calls ≤ pc'.rank s.calls + c)
    (hlt : pc.cost ts.length s'.calls + c * ts.length < k.pc.cost ts.length s.calls) :
    s'.Within ts ∧ s'.work ts + 1 ≤ s.work ts := by
  have hmem := hts.2 t k hk (Pc.not_over_of_cost (Nat.lt_of_le_of_lt (Nat.zero_le _) hlt))
  constructor
  · refine ⟨hts.1, fun t' k' hk' hover => ?_⟩
    rw [htasks] at hk'
    rcases goto_tasks_cases hk' with ⟨rfl, -⟩ | ⟨-, hold⟩
    · exact hmem
    · exact hts.2 t' k' hold hover
  · have hshift := tally_shift (v := fun t => (s'.tasks t).elim 0 fun k => k.pc.cost ts.length s'.calls)
      (w := fun t => (s.tasks t).elim 0 fun k => k.pc.cost ts.length s.calls) (c := c) hts.1 hmem (by
        intro t' _ hne
        rw [htasks, goto_tasks_ne hne]
        cases s.tasks t' with
        | none => exact Nat.zero_le _
        | some k' =>
            have hle := hothers k'.pc
            simp only [Option.elim_some, Pc.cost]
            omega)
    simp only [htasks, goto_tasks_self, hk, Option.elim_some] at hshift
    unfold work
    simp only [htasks] at hshift ⊢
    omega

theorem work_goto (hts : s.Within ts) (hk : s.tasks t = some k) (htasks : s'.tasks = (s.goto t k pc).tasks)
    (hcalls : s'.calls = s.calls) (hlt : pc.cost ts.length s.calls < k.pc.cost ts.length s.calls) :
    s'.Within ts ∧ s'.work ts + 1 ≤ s.work ts :=
  work_goto_of_le hts hk htasks 0 (by simp [hcalls]) (by simpa [hcalls] using hlt)

theorem work_resume (hts : s.Within ts) (hk : s.tasks t = some k) (hrefilling : k.pc.refilling = true)
    (hrank : 4 ≤ k.pc.rank s.calls) (s₁ : Sys ι IpAddr) (htasks : s₁.tasks = s.tasks) {c : Nat} (hc : c ≤ 12)
    (hothers : ∀ pc' : Pc IpAddr, pc'.rank s₁.calls ≤ pc'.rank s.calls + c) (res : Except (StoreError IpAddr) Unit) :
    (s₁.resume t k res).Within ts ∧ (s₁.resume t k res).work ts + 1 ≤ s.work ts := by
  have hmul := Nat.mul_le_mul_right ts.length hc
  have hcost : 12 * ts.length + 4 ≤ k.pc.cost ts.length s.calls := by
    unfold Pc.cost
    rw [if_pos hrefilling]
    omega
  cases res with
  | ok =>
      have hgoto : (s₁.resume t k (.ok ())).tasks = (s.goto t k .take).tasks := by simp only [resume, goto, htasks]
      apply work_goto_of_le hts hk hgoto c hothers
      show 0 + 2 + c * ts.length < _
      omega
  | error e =>
      have hgoto : (s₁.resume t k (.error e)).tasks = (s.goto t k (.done (.error e))).tasks := by
        simp only [resume, answer, goto, htasks]
      apply work_goto_of_le hts hk hgoto c hothers
      show 0 + 0 + c * ts.length < _
      omega

theorem work_le (ts : List Nat) (s : Sys ι IpAddr) : s.work ts ≤ ts.length * (12 * ts.length + 12) := by
  have hsum := List.sum_le_card_nsmul (ts.map fun t => (s.tasks t).elim 0 fun k => k.pc.cost ts.length s.calls)
    (12 * ts.length + 12) fun cost hcost => by
      obtain ⟨t, -, rfl⟩ := List.mem_map.mp hcost
      cases s.tasks t with
      | none => exact Nat.zero_le _
      | some k => exact k.pc.cost_le ts.length s.calls
  rwa [List.length_map, smul_eq_mul] at hsum

variable [DecidableEq IpAddr]

/-- Whoever holds a notify of `refills` is in time to register on it. -/
def Punctual (s : Sys ι IpAddr) : Prop := ∀ t k n, s.tasks t = some k → k.pc = .occupied n → s.calls n = 0

theorem punctual_iff : s.Punctual ↔ Timely s.flight := by
  constructor
  · intro h t key n hrole
    obtain ⟨k, hk, hr⟩ := task_of_flight_role hrole (by simp)
    exact h t k n hk (Task.role_eq_holding.mp hr).2
  · intro h t k n hk hpc
    exact h t (k.inst, k.id) n ((flight_role hk).trans (Task.role_eq_holding.mpr ⟨rfl, hpc⟩))

variable [DecidableEq ι] [ToString IpAddr]

/-- Every step of a task lowers the bound, and no other step raises it. -/
theorem work_step {a : Action ι IpAddr} (hts : s.Within ts) (h : Step cfg s a s') (hspawn : a.spawns = false) :
    s'.Within ts ∧ s'.work ts + a.ofTask.toNat ≤ s.work ts := by
  cases h with
  | spawn => cases hspawn
  | move hk hm =>
      apply work_goto hts hk rfl rfl
      cases hm with
      | woken hpc hne => simp [Pc.cost, Pc.refilling, Pc.rank, hpc, hne]
      | checkPassed hpc | checkSpent hpc | occupied hpc | started hpc | failed hpc | replied hpc | registered hpc
      | expired hpc => simp [Pc.cost, Pc.refilling, Pc.rank, hpc]
  | rejected hk hpc he => exact work_goto hts hk rfl rfl (by simp [Pc.cost, Pc.refilling, Pc.rank, hpc])
  | claim hk hpc hn => exact work_goto hts hk rfl rfl (by simp [Pc.cost, Pc.refilling, Pc.rank, hpc])
  | script hk hpc hr => exact work_goto hts hk rfl rfl (by simp [Pc.cost, Pc.refilling, Pc.rank, hpc])
  | unreachable hk hpc => exact work_goto hts hk rfl rfl (by simp [Pc.cost, Pc.refilling, Pc.rank, hpc])
  | refusedAbsent hk hpc hb => exact work_goto hts hk rfl rfl (by simp [Pc.cost, Pc.refilling, Pc.rank, hpc])
  | refused hk hpc hb => exact work_goto hts hk rfl rfl (by simp [Pc.cost, Pc.refilling, Pc.rank, hpc])
  | insert hk hpc hpos => exact work_goto hts hk rfl rfl (by simp [Pc.cost, Pc.refilling, Pc.rank, hpc])
  | unclaim hk hpc hn => exact work_goto hts hk rfl rfl (by simp [Pc.cost, Pc.refilling, Pc.rank, hpc])
  | unclaimNone hk hpc hn =>
      exact work_resume hts hk (by simp [Pc.refilling, hpc]) (by simp [Pc.rank, hpc]) (s.setStore _ _) rfl (Nat.zero_le _)
        (fun _ => Nat.le_refl _) _
  | @notify t k n res hk hpc =>
      apply work_resume hts hk (by simp [Pc.refilling, hpc]) (by simp [Pc.rank, hpc])
        { s with calls := Function.update s.calls n (s.calls n + 1) } rfl (Nat.le_refl 12)
      intro pc
      cases pc with
      | notified m seen =>
          simp only [Pc.rank]
          split <;> split <;> omega
      | _ => exact Nat.le_add_right ..
  | takeAbsent hk hpc hb => exact work_goto hts hk rfl rfl (by simp [Pc.cost, Pc.refilling, Pc.rank, hpc])
  | takeEmpty hk hpc hb hl ht => exact work_goto hts hk rfl rfl (by simp [Pc.cost, Pc.refilling, Pc.rank, hpc])
  | spend hk hpc hb hl ht => exact work_goto hts hk rfl rfl (by simp [Pc.cost, Pc.refilling, Pc.rank, hpc])
  | remove hk hpc => exact work_goto hts hk rfl rfl (by simp [Pc.cost, Pc.refilling, Pc.rank, hpc])
  | cancel hk hawait =>
      apply work_goto hts hk rfl rfl
      have hmem := hts.2 _ _ hk
      generalize hpc : Task.pc _ = pc at hawait hmem
      cases hawait with
      | notified =>
          have hpos := List.length_pos_of_mem (hmem rfl)
          simp [Pc.cost, Pc.refilling, Pc.rank]
          omega
      | _ => simp [Pc.cost, Pc.refilling, Pc.rank]
  | orphan hk hpc => exact work_goto hts hk rfl rfl (by simp [Pc.cost, Pc.refilling, Pc.rank, hpc])
  | elapse | redisElapse | tickNothing | note | sweep | release => exact work_same hts rfl rfl
  | plan hp => cases hp <;> exact work_same hts rfl rfl

theorem work_ranking (cfg : Config) (ts : List Nat) :
    Ranking (sys cfg) (Within ts) (fun a : Action ι IpAddr => !a.spawns) Action.ofTask (work ts) :=
  ⟨fun _ _ _ hts hspawn hnext => work_step hts (step_of_next hnext) (by simpa using hspawn)⟩

theorem tasks_step {a : Action ι IpAddr} (h : Step cfg s a s') : s'.tasks = s.tasks ∨
    ∃ t k pc, (∀ k', s.tasks t = some k' → k' = k) ∧ s'.tasks = (s.goto t k pc).tasks ∧
      ∀ inFlight, pc = .dropped inFlight → a = .cancel t ∨ s.tasks t = some k ∧ k.pc = .dropped true := by
  have goes {t k} (pc : Pc IpAddr) (hk : s.tasks t = some k) (htasks : s'.tasks = (s.goto t k pc).tasks)
      (hpc : ∀ inFlight, pc ≠ .dropped inFlight) : s'.tasks = s.tasks ∨
      ∃ t k pc, (∀ k', s.tasks t = some k' → k' = k) ∧ s'.tasks = (s.goto t k pc).tasks ∧
        ∀ inFlight, pc = .dropped inFlight → a = .cancel t ∨ s.tasks t = some k ∧ k.pc = .dropped true :=
    .inr ⟨t, k, pc, fun k' hk' => Option.some.inj (hk'.symm.trans hk), htasks, fun inFlight he => absurd he (hpc inFlight)⟩
  cases h with
  | @spawn t i b hnone => exact .inr ⟨t, _, .check, fun k' hk' => (by rw [hnone] at hk'; cases hk'), rfl, by simp⟩
  | move hk hm => exact goes _ hk rfl (by cases hm <;> simp)
  | unclaimNone hk hpc hn | notify hk hpc =>
      rename_i res
      cases res with
      | ok => exact goes .take hk rfl (by simp)
      | error e => exact goes (.done (.error e)) hk rfl (by simp)
  | @cancel t k inFlight hk _ =>
      exact .inr ⟨t, k, _, fun k' hk' => Option.some.inj (hk'.symm.trans hk), rfl, fun _ _ => .inl rfl⟩
  | @orphan t k hk hpc =>
      exact .inr ⟨t, k, _, fun k' hk' => Option.some.inj (hk'.symm.trans hk), rfl, fun _ _ => .inr ⟨hk, hpc⟩⟩
  | rejected hk | claim hk | script hk | unreachable hk | refusedAbsent hk | refused hk | insert hk | unclaim hk
  | takeAbsent hk | takeEmpty hk | spend hk | remove hk => exact goes _ hk rfl (by simp)
  | elapse | redisElapse | tickNothing | plan | note | sweep | release => exact .inl rfl

theorem exists_within (hs : Reach (sys cfg) s) : ∃ ts, s.Within ts := by
  refine ReachWhen.invariant (I := fun s => ∃ ts, s.Within ts) ?_ ?_ hs
  · rintro _ ⟨clock, now, rfl⟩
    exact ⟨[], List.nodup_nil, fun t k hk => nomatch hk⟩
  · intro s a s' _ hts _ hnext
    obtain ⟨ts, hnodup, hts⟩ := hts
    rcases tasks_step (step_of_next hnext) with htasks | ⟨t, k, pc, -, htasks, -⟩
    · exact ⟨ts, hnodup, htasks ▸ hts⟩
    · refine ⟨ts.insert t, hnodup.insert, fun t' k' hk' hover => ?_⟩
      rw [htasks] at hk'
      rcases goto_tasks_cases hk' with ⟨rfl, -⟩ | ⟨-, hold⟩
      · exact List.mem_insert_self
      · exact List.mem_insert_of_mem (hts t' k' hold hover)

theorem call_step {a : Action ι IpAddr} (h : Step cfg s a s') (hk : s.tasks t = some k) :
    ∃ pc, s'.tasks t = some { k with pc } := by
  rcases tasks_step h with htasks | ⟨t', k', pc, hsame, htasks, -⟩
  · exact ⟨k.pc, htasks ▸ hk⟩
  · rw [htasks]
    by_cases ht : t = t'
    · obtain rfl := ht
      obtain rfl := hsame k hk
      exact ⟨pc, goto_tasks_self ..⟩
    · exact ⟨k.pc, (goto_tasks_ne ht pc).trans hk⟩

theorem task_steps (cfg : Config) (hk : s.tasks t = some k) (hundone : ∀ res, k.pc ≠ .done res)
    (hundropped : ∀ inFlight, k.pc ≠ .dropped inFlight) (hawake : ∀ n seen, k.pc = .notified n seen → s.calls n ≠ seen) :
    ∃ a s', (a = .run t ∨ a = .eval t .answers) ∧ s.next cfg a = some s' := by
  obtain ⟨i, b, pc⟩ := k
  cases pc with
  | eval n started => exact ⟨_, _, .inr rfl, by simp only [next, eval, hk]; rfl⟩
  | done res => exact absurd rfl (hundone res)
  | dropped inFlight => exact absurd rfl (hundropped inFlight)
  | notified n seen => exact ⟨_, _, .inl rfl, by simp only [next, run, hk, if_neg (hawake n seen rfl)]; rfl⟩
  | check =>
      cases hc : (s.insts i).store.check (s.insts i).now b with
      | error e => exact ⟨_, _, .inl rfl, by simp only [next, run, hk, hc]; rfl⟩
      | ok passed => cases passed <;> exact ⟨_, _, .inl rfl, by simp only [next, run, hk, hc]; rfl⟩
  | entry seen | refilled n res =>
      cases hn : (s.insts i).store.refills.get b <;> exact ⟨_, _, .inl rfl, by simp only [next, run, hk, hn]; rfl⟩
  | reply n started res g => cases res <;> exact ⟨_, _, .inl rfl, by simp only [next, run, hk]; rfl⟩
  | _ => exact ⟨_, _, .inl rfl, by simp only [next, run, hk]; rfl⟩

end Sys

section Completion

variable [DecidableEq ι] [DecidableEq IpAddr] [ToString IpAddr] {cfg : Config} {s s' : Sys ι IpAddr}

private theorem flight_inTime (hs : ReachWhen (sys cfg) (registersInTime · ·) s) : ReachWhen flights InTime s.flight := by
  have sim : Simulation (sys cfg) (registersInTime · ·) flights InTime (Sys.flight : Sys ι IpAddr → _) := by
    apply flight_simulation
    intro s a act hg hleave hregister
    cases act with
    | leave t =>
        rw [hleave t rfl] at hg
        cases hg
    | register t =>
        intro key n hrole
        obtain ⟨k, hk, hr⟩ := Sys.task_of_flight_role hrole (by simp)
        rw [hregister t rfl] at hg
        have hcalls : s.calls n = 0 := by simpa [registersInTime, hk, (Task.role_eq_holding.mp hr).2] using hg
        exact hcalls
    | _ => trivial
  exact sim.reach hs

private theorem undropped (hs : ReachWhen (sys cfg) (registersInTime · ·) s) :
    ∀ t k inFlight, s.tasks t = some k → k.pc ≠ .dropped inFlight := by
  refine ReachWhen.invariant (I := fun s => ∀ t k inFlight, s.tasks t = some k → k.pc ≠ .dropped inFlight) ?_ ?_ hs
  · rintro _ ⟨clock, now, rfl⟩ t k inFlight hk
    cases hk
  · intro s a s' _ hno hg hnext t k inFlight hk hpc
    rcases Sys.tasks_step (Sys.step_of_next hnext) with htasks | ⟨t', k', pc', -, htasks, hdropped⟩
    · exact hno t k inFlight (htasks ▸ hk) hpc
    · rw [htasks] at hk
      rcases Sys.goto_tasks_cases hk with ⟨rfl, rfl⟩ | ⟨-, hold⟩
      · rcases hdropped inFlight hpc with rfl | ⟨hk', hpc'⟩
        · cases hg
        · exact hno t k' true hk' hpc'
      · exact hno t k inFlight hold hpc

/-- A call has its answer. -/
def Task.Done (k : Task ι IpAddr) : Prop := ∃ res, k.pc = .done res

/-- Unless all calls are answered, some task can take a step that makes nobody late. -/
private theorem somebody_steps (hs : ReachWhen (sys cfg) (registersInTime · ·) s) (hpunct : s.Punctual) {t : Nat}
    {k : Task ι IpAddr} (hk : s.tasks t = some k) (hundone : ¬ k.Done) :
    ∃ a s', (registersInTime s a = true ∧ a.ofTask = true) ∧ (sys cfg).next s a = some s' ∧ s'.Punctual := by
  by_cases hheld : ∃ t k n, s.tasks t = some k ∧ k.pc = .occupied n
  · obtain ⟨t, k, n, hk, hpc⟩ := hheld
    have hnext : (sys cfg).next s (.run t) = some (s.goto t k (.notified n (s.calls n))) := by
      simp only [sys, Sys.next, Sys.run, hk, hpc]
    refine ⟨.run t, _, ⟨by simp [registersInTime, hk, hpc, hpunct t k n hk hpc], rfl⟩, hnext, ?_⟩
    rw [Sys.punctual_iff, Sys.flight_goto]
    exact (Sys.punctual_iff.mp hpunct).register t (k.inst, k.id) n (s.calls n)
  · have hfree : ∀ t key n, s.flight.role t ≠ .holding key n := by
      intro t key n hrole
      obtain ⟨k, hk, hr⟩ := Sys.task_of_flight_role hrole (by simp)
      exact hheld ⟨t, k, n, hk, (Task.role_eq_holding.mp hr).2⟩
    -- a step of any task will do
    have finish {t k} (hk : s.tasks t = some k) (hundone : ∀ res, k.pc ≠ .done res)
        (hawake : ∀ n seen, k.pc = .notified n seen → s.calls n ≠ seen) :
        ∃ a s', (registersInTime s a = true ∧ a.ofTask = true) ∧ (sys cfg).next s a = some s' ∧ s'.Punctual := by
      obtain ⟨a, s', ha, hnext⟩ := Sys.task_steps cfg hk hundone (fun inFlight => undropped hs t k inFlight hk) hawake
      refine ⟨a, s', ?_, hnext, Sys.punctual_iff.mpr ?_⟩
      · rcases ha with rfl | rfl
        · refine ⟨?_, rfl⟩
          simp only [registersInTime, hk, Option.all_some]
          cases hpc : k.pc with
          | occupied n => exact absurd ⟨t, k, n, hk, hpc⟩ hheld
          | _ => rfl
        · exact ⟨rfl, rfl⟩
      · rcases Sys.flight_step (Sys.step_of_next hnext) with hsame | ⟨act, hact, -, -⟩
        · exact hsame ▸ Sys.punctual_iff.mp hpunct
        · exact .of_step (singular (flight_reach hs.reach)) hfree (Flight.step_of_next hact)
    by_cases hasleep : ∃ n seen, k.pc = .notified n seen ∧ s.calls n = seen
    · -- whoever is going to wake it goes on
      obtain ⟨n, seen, hpc, hseen⟩ := hasleep
      have hled : Attended s.flight := by
        refine attended ((flight_inTime hs).mono fun f act hg t key n hact => ?_)
        subst hact
        exact hg.elim
      rcases (awake (flight_inTime hs)).prospect hled
        ((Sys.flight_role hk).trans (Task.role_eq_waiting.mpr ⟨rfl, hpc⟩)) with hcalls | ⟨t', hrole | hrole⟩
      · exact absurd hseen hcalls
      · obtain ⟨k', hk', hr⟩ := Sys.task_of_flight_role hrole (by simp)
        have hleads := (Task.role_eq_leader.mp hr).2
        exact finish hk' (fun res he => by rw [he] at hleads; cases hleads)
          (fun n seen he => by rw [he] at hleads; cases hleads)
      · obtain ⟨k', hk', hr⟩ := Sys.task_of_flight_role hrole (by simp)
        obtain ⟨-, res, hpc'⟩ := Task.role_eq_notifying.mp hr
        exact finish hk' (by simp [hpc']) (by simp [hpc'])
    · exact finish hk (fun res he => hundone ⟨res, he⟩) (fun n seen hpc hseen => hasleep ⟨n, seen, hpc, hseen⟩)

end Completion

section Results

variable [DecidableEq ι] [DecidableEq IpAddr] [ToString IpAddr] {cfg : Config} {s s' : Sys ι IpAddr}

/-- However the tasks are scheduled, without new calls they take boundedly many steps. -/
theorem tasks_take_boundedly_many_steps {ts : List Nat} (hts : s.Within ts) {as : List (Action ι IpAddr)}
    (hnew : ∀ a ∈ as, a.spawns = false) (he : (sys cfg).exec s as = some s') :
    as.countP Action.ofTask ≤ ts.length * (12 * ts.length + 12) := by
  have hcount := (Sys.work_ranking cfg ts).countP_le hts (fun a ha => by simp [hnew a ha]) he
  have hwork := s.work_le ts
  omega

/-- Two requests, of which the second waits for the first. -/
theorem two_requests_take_boundedly_many_steps :
    ∃ s s', (sys Config.default).exec (testStart .default) [.spawn 0 () testUser, .spawn 1 () testUser] = some s ∧
      (sys Config.default).exec s [.run 0, .run 0, .run 1, .run 1, .run 1, .run 0, .eval 0 .answers, .elapse () 1,
        .run 0, .run 0, .run 0, .run 0, .run 1, .run 1] = some s' ∧
      [.run 0, .run 0, .run 1, .run 1, .run 1, .run 0, .eval 0 .answers, .elapse () 1, .run 0, .run 0, .run 0, .run 0,
        .run 1, .run 1].countP (Action.ofTask : Action Unit String → Bool) ≤ 2 * (12 * 2 + 12) := by
  have hts : Sys.Within [0, 1] ((testStart .default).goto 0 ⟨(), testUser, .check⟩ .check |>.goto 1 ⟨(), testUser, .check⟩
      .check) := by
    refine ⟨by decide, fun t k hk _ => ?_⟩
    rcases Sys.goto_tasks_cases hk with ⟨rfl, -⟩ | ⟨-, hk⟩
    · decide
    · rcases Sys.goto_tasks_cases hk with ⟨rfl, -⟩ | ⟨-, hk⟩
      · decide
      · cases hk
  exact ⟨_, _, rfl, rfl, tasks_take_boundedly_many_steps hts (by decide)
    (rfl : (sys Config.default).exec _ _ = some _)⟩

/-- As long as nobody is dropped or late, all calls can be driven to their answers, by steps of
their own tasks and of Redis alone. -/
theorem calls_get_their_answers (hs : ReachWhen (sys cfg) (registersInTime · ·) s) (hpunct : s.Punctual) :
    ∃ s', RunWhen (sys cfg) (fun s a => registersInTime s a = true ∧ a.ofTask = true) s s' ∧
      ∀ t k, s.tasks t = some k → ∃ res, s'.tasks t = some { k with pc := .done res } := by
  obtain ⟨ts, hts⟩ := Sys.exists_within hs.reach
  obtain ⟨s', hrun, ⟨-, -, -, hcalls⟩, hdone⟩ := RunWhen.to_goal (S := sys cfg)
    (J := fun s' => ReachWhen (sys cfg) (registersInTime · ·) s' ∧ s'.Punctual ∧ s'.Within ts ∧
      ∀ t k, s.tasks t = some k → ∃ pc, s'.tasks t = some { k with pc })
    (G := fun s' => ∀ t k, s'.tasks t = some k → k.Done) (g := fun s a => registersInTime s a = true ∧ a.ofTask = true)
    (Sys.work ts)
    (by
      rintro s₁ ⟨hs₁, hpunct₁, hts₁, hcalls₁⟩ hgoal
      simp only [not_forall] at hgoal
      obtain ⟨t, k, hk, hundone⟩ := hgoal
      obtain ⟨a, s₂, hg, hnext, hpunct₂⟩ := somebody_steps hs₁ hpunct₁ hk hundone
      have hspawn : a.spawns = false := by
        cases a with
        | spawn => cases hg.2
        | _ => rfl
      have hstep := Sys.step_of_next hnext
      obtain ⟨hts₂, hlt⟩ := Sys.work_step hts₁ hstep hspawn
      rw [hg.2] at hlt
      refine ⟨a, s₂, hg, hnext, ⟨hs₁.step hg.1 hnext, hpunct₂, hts₂, fun t k hk => ?_⟩, hlt⟩
      obtain ⟨pc, hk₁⟩ := hcalls₁ t k hk
      obtain ⟨pc', hk₂⟩ := Sys.call_step hstep hk₁
      exact ⟨pc', hk₂⟩)
    ⟨hs, hpunct, hts, fun t k hk => ⟨k.pc, hk⟩⟩
  refine ⟨s', hrun, fun t k hk => ?_⟩
  obtain ⟨pc, hk'⟩ := hcalls t k hk
  obtain ⟨res, hpc⟩ := hdone t _ hk'
  exact ⟨res, hk'.trans (by rw [← hpc])⟩

/-- The second of two requests has found the entry of the first. -/
theorem two_requests_get_their_answers :
    ∃ s s', (sys Config.default).exec (testStart .default) [.spawn 0 () testUser, .spawn 1 () testUser, .run 0, .run 0,
        .run 1, .run 1] = some s ∧ s.tasks 1 = some ⟨(), testUser, .occupied 0⟩ ∧
      RunWhen (sys Config.default) (fun s a => registersInTime s a = true ∧ a.ofTask = true) s s' ∧
      ∀ t k, s.tasks t = some k → ∃ res, s'.tasks t = some { k with pc := .done res } := by
  have hrun : ((sys Config.default).execWhen registersInTime (testStart .default) [.spawn 0 () testUser,
      .spawn 1 () testUser, .run 0, .run 0, .run 1, .run 1]).map (fun s => (s.tasks 1, s.calls)) =
      some (some ⟨(), testUser, .occupied 0⟩, fun _ => 0) := rfl
  obtain ⟨s, hs, hseen⟩ := Option.map_eq_some_iff.mp hrun
  obtain ⟨hheld, hcalls⟩ := Prod.mk.inj hseen
  obtain ⟨s', hrun, hdone⟩ := calls_get_their_answers ((testStart_init _).execWhen _ hs) fun _ _ n _ _ => congrFun hcalls n
  exact ⟨s, s', System.exec_of_execWhen hs, hheld, hrun, hdone⟩

end Results

end ThatLimit
