import ThatLimit.Concurrent.System
import ThatLimit.Framework.Transition
/-!
# What a step can do

The inversion of `Sys.next`: one constructor for each way through it, with what
was found on the way. Invariants are proved by cases on `Step`.
-/

namespace ThatLimit

open Transition

variable {ι IpAddr : Type}

namespace Sys

section Fields

variable (s : Sys ι IpAddr) (i j : ι) (t : Nat) (k : Task ι IpAddr) (v : Inst IpAddr)

@[simp] theorem goto_insts (pc : Pc IpAddr) : (s.goto t k pc).insts = s.insts := rfl
@[simp] theorem goto_ledger (pc : Pc IpAddr) : (s.goto t k pc).ledger = s.ledger := rfl
@[simp] theorem goto_calls (pc : Pc IpAddr) : (s.goto t k pc).calls = s.calls := rfl
@[simp] theorem goto_nextNotify (pc : Pc IpAddr) : (s.goto t k pc).nextNotify = s.nextNotify := rfl
@[simp] theorem goto_answers (pc : Pc IpAddr) : (s.goto t k pc).answers = s.answers := rfl
@[simp] theorem goto_tasks_self (pc : Pc IpAddr) : (s.goto t k pc).tasks t = some { k with pc } :=
  Function.update_self ..
@[simp] theorem answer_insts (res) : (s.answer t k res).insts = s.insts := rfl
@[simp] theorem answer_tasks (res) : (s.answer t k res).tasks = (s.goto t k (.done res)).tasks := rfl
@[simp] theorem answer_ledger (res) : (s.answer t k res).ledger = s.ledger := rfl
@[simp] theorem answer_calls (res) : (s.answer t k res).calls = s.calls := rfl
@[simp] theorem answer_nextNotify (res) : (s.answer t k res).nextNotify = s.nextNotify := rfl

section

variable {s t k}

theorem goto_tasks_ne {t' : Nat} (h : t' ≠ t) (pc : Pc IpAddr) : (s.goto t k pc).tasks t' = s.tasks t' :=
  Function.update_of_ne h ..

theorem goto_tasks_cases {t' : Nat} {pc : Pc IpAddr} {k' : Task ι IpAddr} (h : (s.goto t k pc).tasks t' = some k') :
    (t' = t ∧ k' = { k with pc }) ∨ (t' ≠ t ∧ s.tasks t' = some k') := by
  by_cases ht : t' = t
  · subst ht
    exact .inl ⟨rfl, Option.some.inj (h.symm.trans (goto_tasks_self ..))⟩
  · exact .inr ⟨ht, (goto_tasks_ne ht pc).symm.trans h⟩

end

variable [DecidableEq ι]

@[simp] theorem setInst_insts_self : (s.setInst i v).insts i = v := Function.update_self ..
@[simp] theorem setInst_tasks : (s.setInst i v).tasks = s.tasks := rfl
@[simp] theorem setInst_ledger : (s.setInst i v).ledger = s.ledger := rfl
@[simp] theorem setInst_calls : (s.setInst i v).calls = s.calls := rfl
@[simp] theorem setInst_nextNotify : (s.setInst i v).nextNotify = s.nextNotify := rfl
@[simp] theorem setInst_answers : (s.setInst i v).answers = s.answers := rfl
@[simp] theorem setStore_eq (store : Store IpAddr) :
    s.setStore i store = s.setInst i { s.insts i with store } := rfl
@[simp] theorem setWorker_eq (worker : Worker IpAddr) :
    s.setWorker i worker = s.setInst i { s.insts i with worker } := rfl

variable {s i j v}

@[simp] theorem setInst_insts_ne (h : j ≠ i) : (s.setInst i v).insts j = s.insts j :=
  Function.update_of_ne h ..

theorem worker_update {s' : Sys ι IpAddr} (hinsts : s'.insts = Function.update s.insts i v)
    (h : v.worker = (s.insts i).worker) (j : ι) : (s'.insts j).worker = (s.insts j).worker := by
  rw [hinsts]
  by_cases hj : j = i
  · subst hj
    simp [h]
  · simp [hj]

end Fields

variable [DecidableEq ι] [DecidableEq IpAddr]

/-- A bucket changed in place. -/
def modifyBucket (s : Sys ι IpAddr) (i : ι) (b : BucketId IpAddr) (f : Bucket → Bucket) : Sys ι IpAddr :=
  s.setStore i { (s.insts i).store with buckets := (s.insts i).store.buckets.modify b f }

/-- The bucket built from grant `g`. -/
def insertBucket (s : Sys ι IpAddr) (i : ι) (b : BucketId IpAddr) (g : Nat) (bk : Bucket) : Sys ι IpAddr :=
  { s.setInst i { s.insts i with
      store := { (s.insts i).store with buckets := (s.insts i).store.buckets.insert b bk }
      origin := Function.update (s.insts i).origin b g
      version := Function.update (s.insts i).version b ((s.insts i).version b + 1) } with
    ledger := s.ledger.land g }

theorem settle_pos (s : Sys ι IpAddr) (t : Nat) (k : Task ι IpAddr) (n : Notify) (g : Nat) {leased : Nat} (ttl : Nat)
    (window : Int) (hpos : 0 < leased) : s.settle t k n g leased ttl window =
      (s.insertBucket k.inst k.id g (.new (s.insts k.inst).now leased ttl window)).goto t k (.refilled n (.ok ())) := by
  simp [settle, Store.leased_pos hpos, Nat.ne_of_gt hpos, insertBucket]

/-- The steps that move one task and touch nothing else. -/
inductive Moves (s : Sys ι IpAddr) (k : Task ι IpAddr) : Pc IpAddr → Prop
  | checkPassed (hpc : k.pc = .check)
      (h : (s.insts k.inst).store.check (s.insts k.inst).now k.id = .ok true) : Moves s k .take
  | checkSpent (hpc : k.pc = .check)
      (h : (s.insts k.inst).store.check (s.insts k.inst).now k.id = .ok false) :
      Moves s k (.entry ((s.insts k.inst).version k.id))
  | occupied {seen n} (hpc : k.pc = .entry seen)
      (h : (s.insts k.inst).store.refills.get k.id = some n) : Moves s k (.occupied n)
  | started {n} (hpc : k.pc = .lease n) : Moves s k (.eval n (s.insts k.inst).now)
  | failed {n started e g} (hpc : k.pc = .reply n started (.error e) g) :
      Moves s k (.refilled n (.error (.cache e)))
  | replied {n started g} {r : Leased} (hpc : k.pc = .reply n started (.ok r) g) :
      Moves s k (.leased n g r.leased (leaseTtl r.pttl started (s.insts k.inst).now) r.window)
  | registered {n} (hpc : k.pc = .occupied n) : Moves s k (.notified n (s.calls n))
  | woken {n calls} (hpc : k.pc = .notified n calls) (h : s.calls n ≠ calls) : Moves s k .check
  | expired (hpc : k.pc = .take)
      (h : (s.insts k.inst).store.take (s.insts k.inst).now k.id = none) : Moves s k .expired

/-- The awaits at which a future can be dropped. -/
inductive Awaits : Pc IpAddr → Bool → Prop
  | eval {n started} : Awaits (.eval n started) true
  | reply {n started res g} : Awaits (.reply n started res g) false
  | notified {n calls} : Awaits (.notified n calls) false

/-- The steps of a worker that touch nothing but its work list. -/
inductive Plans (s : Sys ι IpAddr) (i : ι) : Action ι IpAddr → Worker IpAddr → Prop
  | tick {order} (hw : (s.insts i).worker = .idle) (h : s.Covers i order) :
      Plans s i (.tick i order) (.collecting order [])
  | collect {b todo found bk} (hw : (s.insts i).worker = .collecting (b :: todo) found)
      (hb : (s.insts i).store.buckets.get b = some bk) (h : bk.isExpired (s.insts i).now = true) :
      Plans s i (.visit i) (.collecting todo (found ++ [b]))
  | keep {b todo found} (hw : (s.insts i).worker = .collecting (b :: todo) found)
      (h : ∀ bk, (s.insts i).store.buckets.get b = some bk → bk.isExpired (s.insts i).now = false) :
      Plans s i (.visit i) (.collecting todo found)
  | collected {found} (hw : (s.insts i).worker = .collecting [] found) :
      Plans s i (.visit i) (.sweeping (Chunks.chunks chunkSize found))
  | noneExpired (hw : (s.insts i).worker = .collecting [] []) : Plans s i (.visit i) .idle
  | swept {chunks} (hw : (s.insts i).worker = .sweeping chunks) (h : chunks.all List.isEmpty = true) :
      Plans s i (.join i) .idle
  | shutdown {order} (hw : (s.insts i).worker = .idle) (h : s.Covers i order) :
      Plans s i (.shutdown i order) (.noting order [])
  | nothingHeld {order} (hw : (s.insts i).worker = .idle) (h : (s.insts i).store.buckets.isEmpty = true) :
      Plans s i (.shutdown i order) .complete
  | skip {b todo found} (hw : (s.insts i).worker = .noting (b :: todo) found)
      (h : (s.insts i).store.Spent (s.insts i).now b) : Plans s i (.visit i) (.noting todo found)
  | noted {found} (hw : (s.insts i).worker = .noting [] found) :
      Plans s i (.visit i) (.releasing (Chunks.chunks chunkSize found))
  | noneNoted (hw : (s.insts i).worker = .noting [] []) : Plans s i (.visit i) .complete
  | unreachable {chunks c p rest e} (hw : (s.insts i).worker = .releasing chunks)
      (h : chunks[c]? = some (p :: rest)) :
      Plans s i (.release i c (.unreachable e)) (.releasing (chunks.set c rest))
  | released {chunks} (hw : (s.insts i).worker = .releasing chunks) (h : chunks.all List.isEmpty = true) :
      Plans s i (.join i) .complete

variable [ToString IpAddr]

/-- Every step of the system. -/
inductive Step (cfg : Config) (s : Sys ι IpAddr) : Action ι IpAddr → Sys ι IpAddr → Prop
  | spawn {t i b} (h : s.tasks t = none) : Step cfg s (.spawn t i b) (s.goto t ⟨i, b, .check⟩ .check)
  | move {t k pc} (hk : s.tasks t = some k) (hm : s.Moves k pc) : Step cfg s (.run t) (s.goto t k pc)
  | rejected {t k e} (hk : s.tasks t = some k) (hpc : k.pc = .check)
      (h : (s.insts k.inst).store.check (s.insts k.inst).now k.id = .error e) :
      Step cfg s (.run t) (s.answer t k (.error e))
  | claim {t k seen} (hk : s.tasks t = some k) (hpc : k.pc = .entry seen)
      (h : (s.insts k.inst).store.refills.get k.id = none) :
      Step cfg s (.run t) ({ s.setStore k.inst ((s.insts k.inst).store.claim k.id s.nextNotify) with
        nextNotify := s.nextNotify + 1 }.goto t k (.lease s.nextNotify))
  | script {t k n started link res} (hk : s.tasks t = some k) (hpc : k.pc = .eval n started)
      (h : ∀ r, res = .ok r → ∃ reply L, s.ledger.lease cfg k.inst k.id = (.ok reply, L) ∧ reply.decode = .ok r) :
      Step cfg s (.eval t link) ({ s with ledger := (s.ledger.lease cfg k.inst k.id).2 }.goto t k
        (.reply n started res s.ledger.grants.length))
  | unreachable {t k n started e} (hk : s.tasks t = some k) (hpc : k.pc = .eval n started) :
      Step cfg s (.eval t (.unreachable e))
        (s.goto t k (.reply n started (.error (.redis e)) s.ledger.grants.length))
  | refusedAbsent {t k n g ttl window} (hk : s.tasks t = some k) (hpc : k.pc = .leased n g 0 ttl window)
      (hb : (s.insts k.inst).store.buckets.get k.id = none) :
      Step cfg s (.run t) (s.goto t k (.refilled n (.error (.exhausted k.id ttl))))
  | refused {t k n g ttl window bk} (hk : s.tasks t = some k) (hpc : k.pc = .leased n g 0 ttl window)
      (hb : (s.insts k.inst).store.buckets.get k.id = some bk) :
      Step cfg s (.run t) ((s.modifyBucket k.inst k.id Bucket.setExhausted).goto t k
        (.refilled n (.error (.exhausted k.id (bk.expiresAt - (s.insts k.inst).now)))))
  | insert {t k n g leased ttl window} (hk : s.tasks t = some k)
      (hpc : k.pc = .leased n g leased ttl window) (h : 0 < leased) :
      Step cfg s (.run t) ((s.insertBucket k.inst k.id g (.new (s.insts k.inst).now leased ttl window)).goto t k
        (.refilled n (.ok ())))
  | unclaim {t k n n' res} (hk : s.tasks t = some k) (hpc : k.pc = .refilled n res)
      (h : (s.insts k.inst).store.refills.get k.id = some n') :
      Step cfg s (.run t) ((s.setStore k.inst ((s.insts k.inst).store.unclaim k.id)).goto t k (.notify n' res))
  | unclaimNone {t k n res} (hk : s.tasks t = some k) (hpc : k.pc = .refilled n res)
      (h : (s.insts k.inst).store.refills.get k.id = none) :
      Step cfg s (.run t) ((s.setStore k.inst ((s.insts k.inst).store.unclaim k.id)).resume t k res)
  | notify {t k n res} (hk : s.tasks t = some k) (hpc : k.pc = .notify n res) :
      Step cfg s (.run t) ({ s with calls := Function.update s.calls n (s.calls n + 1) }.resume t k res)
  | takeAbsent {t k} (hk : s.tasks t = some k) (hpc : k.pc = .take)
      (hb : (s.insts k.inst).store.buckets.get k.id = none) : Step cfg s (.run t) (s.answer t k (.ok 0))
  | takeEmpty {t k bk} (hk : s.tasks t = some k) (hpc : k.pc = .take)
      (hb : (s.insts k.inst).store.buckets.get k.id = some bk)
      (hl : bk.isExpired (s.insts k.inst).now = false) (ht : bk.isEmpty = true) :
      Step cfg s (.run t) ((s.modifyBucket k.inst k.id fun bk => bk.consume.2).answer t k (.ok 0))
  | spend {t k bk} (hk : s.tasks t = some k) (hpc : k.pc = .take)
      (hb : (s.insts k.inst).store.buckets.get k.id = some bk)
      (hl : bk.isExpired (s.insts k.inst).now = false) (ht : bk.isEmpty = false) :
      Step cfg s (.run t) ({ s.modifyBucket k.inst k.id (fun bk => bk.consume.2) with
        ledger := s.ledger.spend ((s.insts k.inst).origin k.id) }.answer t k (.ok (bk.tokens - 1)))
  | remove {t k} (hk : s.tasks t = some k) (hpc : k.pc = .expired) :
      Step cfg s (.run t)
        ((s.setStore k.inst ((s.insts k.inst).store.removeBucket k.id)).answer t k (.ok 0))
  | cancel {t k inFlight} (hk : s.tasks t = some k) (h : Awaits k.pc inFlight) :
      Step cfg s (.cancel t) (s.goto t k (.dropped inFlight))
  | orphan {t k} (hk : s.tasks t = some k) (hpc : k.pc = .dropped true) :
      Step cfg s (.orphan t)
        ({ s with ledger := (s.ledger.lease cfg k.inst k.id).2 }.goto t k (.dropped false))
  | elapse {i ns} :
      Step cfg s (.elapse i ns) (s.setInst i { s.insts i with now := (s.insts i).now + ns })
  | redisElapse {ms} : Step cfg s (.redisElapse ms) { s with ledger := s.ledger.elapse ms }
  | tickNothing {i order} (hw : (s.insts i).worker = .idle)
      (h : (s.insts i).store.buckets.isEmpty = true) : Step cfg s (.tick i order) s
  | plan {i a worker} (h : s.Plans i a worker) : Step cfg s a (s.setWorker i worker)
  | note {i b todo found bk} (hw : (s.insts i).worker = .noting (b :: todo) found)
      (hb : (s.insts i).store.buckets.get b = some bk) (ht : bk.isEmpty = false)
      (hl : bk.isExpired (s.insts i).now = false) :
      Step cfg s (.visit i)
        { s.setWorker i (.noting todo (found ++ [⟨b, bk.tokens, bk.window, (s.insts i).origin b⟩])) with
          ledger := s.ledger.note ((s.insts i).origin b) bk.tokens }
  | sweep {i c b chunks rest} (hw : (s.insts i).worker = .sweeping chunks)
      (h : chunks[c]? = some (b :: rest)) :
      Step cfg s (.sweep i c) (s.setInst i { s.insts i with
        store := (s.insts i).store.removeBucket b, worker := .sweeping (chunks.set c rest) })
  | release {i c link chunks p rest} (hw : (s.insts i).worker = .releasing chunks)
      (h : chunks[c]? = some (p :: rest)) :
      Step cfg s (.release i c link) { s.setWorker i (.releasing (chunks.set c rest)) with
        ledger := (s.ledger.release p.grant p.id p.tokens p.window).2 }

section Inversion

variable {cfg : Config} {s s' : Sys ι IpAddr}


theorem step_of_settle {t : Nat} {k : Task ι IpAddr} {n : Notify} {g leased ttl : Nat} {window : Int}
    (hk : s.tasks t = some k) (hpc : k.pc = .leased n g leased ttl window) :
    Step cfg s (.run t) (s.settle t k n g leased ttl window) := by
  rcases Nat.eq_zero_or_pos leased with rfl | hpos
  · cases hb : (s.insts k.inst).store.buckets.get k.id with
    | none =>
        have heq : s.settle t k n g 0 ttl window = s.goto t k (.refilled n (.error (.exhausted k.id ttl))) := by
          simp [settle, Store.leased_zero_absent hb, setInst]
        exact heq ▸ .refusedAbsent hk hpc hb
    | some bk =>
        have heq : s.settle t k n g 0 ttl window = (s.modifyBucket k.inst k.id Bucket.setExhausted).goto t k
            (.refilled n (.error (.exhausted k.id (bk.expiresAt - (s.insts k.inst).now)))) := by
          simp [settle, Store.leased_zero_present hb, modifyBucket]
        exact heq ▸ .refused hk hpc hb
  · exact settle_pos s t k n g ttl window hpos ▸ .insert hk hpc hpos

theorem step_of_take {t : Nat} {k : Task ι IpAddr} (hk : s.tasks t = some k) (hpc : k.pc = .take) :
    Step cfg s (.run t) (s.takeToken t k) := by
  cases hb : (s.insts k.inst).store.buckets.get k.id with
  | none =>
      have heq : s.takeToken t k = s.answer t k (.ok 0) := by
        simp [takeToken, Store.take, hb, setInst]
      exact heq ▸ .takeAbsent hk hpc hb
  | some bk =>
      cases hl : bk.isExpired (s.insts k.inst).now with
      | true =>
          have ht : (s.insts k.inst).store.take (s.insts k.inst).now k.id = none := by
            simp [Store.take, hb, hl]
          have heq : s.takeToken t k = s.goto t k .expired := by simp [takeToken, ht]
          exact heq ▸ .move hk (.expired hpc ht)
      | false =>
          cases ht : bk.isEmpty with
          | true =>
              have heq : s.takeToken t k =
                  (s.modifyBucket k.inst k.id fun bk => bk.consume.2).answer t k (.ok 0) := by
                simp [takeToken, Store.take, hb, hl, ht, modifyBucket, Bucket.consume_of_isEmpty ht]
              exact heq ▸ .takeEmpty hk hpc hb hl ht
          | false =>
              have heq : s.takeToken t k = { s.modifyBucket k.inst k.id (fun bk => bk.consume.2) with
                  ledger := s.ledger.spend ((s.insts k.inst).origin k.id) }.answer t k (.ok (bk.tokens - 1)) := by
                simp [takeToken, Store.take, hb, hl, ht, modifyBucket, answer, goto, setInst]
              exact heq ▸ .spend hk hpc hb hl ht

theorem step_of_run {t : Nat} (h : s.run t = some s') : Step cfg s (.run t) s' := by
  unfold run at h
  split at h
  · cases h
  · next k hk =>
      simp only at h
      split at h
      · next hpc =>
          split at h
          · next e he => cases h; exact .rejected hk hpc he
          · next hc => cases h; exact .move hk (.checkPassed hpc hc)
          · next hc => cases h; exact .move hk (.checkSpent hpc hc)
      · next hpc =>
          split at h
          · next hn => cases h; exact .move hk (.occupied hpc hn)
          · next hn => cases h; exact .claim hk hpc hn
      · next hpc => cases h; exact .move hk (.started hpc)
      · next hpc => cases h; exact .move hk (.failed hpc)
      · next hpc => cases h; exact .move hk (.replied hpc)
      · next hpc => cases h; exact step_of_settle hk hpc
      · next hpc =>
          split at h
          · next hn => cases h; exact .unclaim hk hpc hn
          · next hn => cases h; exact .unclaimNone hk hpc hn
      · next hpc => cases h; exact .notify hk hpc
      · next hpc => cases h; exact .move hk (.registered hpc)
      · next hpc =>
          rw [Option.ite_none_left_eq_some] at h
          obtain ⟨hne, h⟩ := h
          cases h
          exact .move hk (.woken hpc hne)
      · next hpc =>
          cases h
          exact step_of_take hk hpc
      · next hpc => cases h; exact .remove hk hpc
      · cases h
      · cases h
      · cases h

theorem step_of_eval {t : Nat} {link : Link} (h : s.eval cfg t link = some s') :
    Step cfg s (.eval t link) s' := by
  unfold eval at h
  split at h
  · cases h
  · next k hk =>
      split at h
      · next n started hpc =>
          cases link with
          | answers =>
              cases hl : s.ledger.lease cfg k.inst k.id with
              | mk res L =>
                  simp only [hl, Option.some.injEq] at h
                  have hL : (s.ledger.lease cfg k.inst k.id).2 = L := by rw [hl]
                  rw [← h, ← hL]
                  refine .script hk hpc fun r hr => ?_
                  cases res with
                  | error e => cases hr
                  | ok reply => exact ⟨reply, L, hl, hr⟩
          | replyLost e => cases h; exact .script hk hpc fun r hr => by cases hr
          | unreachable e => cases h; exact .unreachable hk hpc
      · cases h

theorem step_of_visit {i : ι} (h : s.visit i = some s') : Step cfg s (.visit i) s' := by
  unfold visit at h
  simp only at h
  split at h
  · next b todo found hw =>
      split at h
      · next bk hb =>
          split at h
          · next hx => cases h; exact .plan (.collect hw hb hx)
          · next hx =>
              cases h
              refine .plan (.keep hw fun bk' hb' => ?_)
              rw [hb] at hb'
              cases hb'
              simpa using hx
      · next hb =>
          cases h
          exact .plan (.keep hw fun bk hb' => by simp [hb] at hb')
  · next found hw =>
      split at h
      · next he =>
          cases h
          obtain rfl := List.isEmpty_iff.mp he
          exact .plan (.noneExpired hw)
      · cases h; exact .plan (.collected hw)
  · next b todo found hw =>
      split at h
      · next bk hb =>
          split at h
          · next hx =>
              cases h
              refine .plan (.skip hw fun bk' hb' => ?_)
              rw [hb] at hb'
              cases hb'
              simpa using hx
          · next hx =>
              cases h
              simp only [Bool.or_eq_true, not_or, Bool.not_eq_true] at hx
              exact .note hw hb hx.1 hx.2
      · next hb =>
          cases h
          exact .plan (.skip hw fun bk hb' => by simp [hb] at hb')
  · next found hw =>
      split at h
      · next he =>
          cases h
          obtain rfl := List.isEmpty_iff.mp he
          exact .plan (.noneNoted hw)
      · cases h; exact .plan (.noted hw)
  · cases h

theorem step_of_next {a : Action ι IpAddr} (h : s.next cfg a = some s') : Step cfg s a s' := by
  cases a with
  | spawn t i b =>
      simp only [next, Option.isNone_iff_eq_none, Option.ite_none_right_eq_some] at h
      obtain ⟨hn, h⟩ := h
      cases h
      exact .spawn hn
  | run t => exact step_of_run h
  | eval t link => exact step_of_eval h
  | cancel t =>
      simp only [next, cancel] at h
      split at h
      · cases h
      · next k hk =>
          split at h
          · next hpc => cases h; exact .cancel hk (hpc ▸ .eval)
          · next hpc => cases h; exact .cancel hk (hpc ▸ .reply)
          · next hpc => cases h; exact .cancel hk (hpc ▸ .notified)
          · cases h
  | orphan t =>
      simp only [next, orphan] at h
      split at h
      · cases h
      · next k hk =>
          split at h
          · next hpc => cases h; exact .orphan hk hpc
          · cases h
  | elapse i ns => cases h; exact .elapse
  | redisElapse ms => cases h; exact .redisElapse
  | tick i order =>
      simp only [next, tick] at h
      split at h
      · next hw =>
          split at h
          · next he => cases h; exact .tickNothing hw he
          · rw [Option.ite_none_right_eq_some] at h
            obtain ⟨hc, h⟩ := h
            cases h
            exact .plan (.tick hw hc)
      · cases h
  | shutdown i order =>
      simp only [next, shutdown] at h
      split at h
      · next hw =>
          split at h
          · next he => cases h; exact .plan (.nothingHeld hw he)
          · rw [Option.ite_none_right_eq_some] at h
            obtain ⟨hc, h⟩ := h
            cases h
            exact .plan (.shutdown hw hc)
      · cases h
  | visit i => exact step_of_visit h
  | sweep i c =>
      simp only [next, sweep] at h
      split at h
      · next hw =>
          split at h
          · next hc => cases h; exact .sweep hw hc
          · cases h
      · cases h
  | release i c link =>
      simp only [next, release] at h
      split at h
      · next hw =>
          split at h
          · next hc =>
              split at h
              · cases h; exact .plan (.unreachable hw hc)
              · cases h; exact .release hw hc
          · cases h
      · cases h
  | join i =>
      simp only [next, join] at h
      split at h
      · next hw =>
          rw [Option.ite_none_right_eq_some] at h
          obtain ⟨he, h⟩ := h
          cases h
          exact .plan (.swept hw he)
      · next hw =>
          rw [Option.ite_none_right_eq_some] at h
          obtain ⟨he, h⟩ := h
          cases h
          exact .plan (.released hw he)
      · cases h

end Inversion

end Sys

variable [DecidableEq ι] [DecidableEq IpAddr] [ToString IpAddr]

/-- The runs of any number of instances under one config. -/
def sys (cfg : Config) : System (Sys ι IpAddr) (Action ι IpAddr) where
  init s := ∃ clock now, s = Sys.start cfg clock now
  next s a := s.next cfg a

/-- One instance, with all clocks at zero. -/
def testStart (cfg : Config) : Sys Unit String := Sys.start cfg (fun _ => 0) 0

theorem testStart_init (cfg : Config) {guard : Sys Unit String → Action Unit String → Prop} :
    ReachWhen (sys cfg) guard (testStart cfg) := .init ⟨_, _, rfl⟩

end ThatLimit
