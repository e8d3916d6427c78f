import ThatLimit.Concurrent.Steps
import ThatLimit.Framework.Refinement
import ThatLimit.Serial.Cluster
/-!
# Turns are runs of the tasks

What the instances of a cluster do one call after the other, the tasks and the workers of
the concurrent system can do as well: a call is spawned and runs through all its program
counters while the clocks move on as its timing says, and a cleanup tick is a pass of the
worker that nobody gets in the way of.
-/

namespace ThatLimit

open Transition

variable {ι IpAddr : Type}

/-- The part of an instance that calls have to do with. -/
def Inst.node (v : Inst IpAddr) : Node IpAddr := { now := v.now, store := v.store }

/-- A worker that waits for the next tick, if there is one. -/
def Worker.resting (cfg : Config) : Worker IpAddr := if cfg.cleanup.enabled then .idle else .off

namespace Sys

/-- Nobody is at work, and all else is as in the cluster. -/
structure Shows (cfg : Config) (c : Cluster ι IpAddr) (s : Sys ι IpAddr) : Prop where
  node : ∀ i, (s.insts i).node = c.node i
  worker : ∀ i, (s.insts i).worker = .resting cfg
  server : s.ledger.server = c.server
  answers : s.answers = c.answers
  tasks : ∃ t, ∀ t' k, s.tasks t' = some k → t' < t

/-- Task `t` is at work on a call to instance `i`, which has become `v` in the meantime, and Redis `server`. -/
structure Serves (cfg : Config) (c : Cluster ι IpAddr) (t : Nat) (i : ι) (b : BucketId IpAddr) (v : Node IpAddr)
    (server : Server) (pc : Pc IpAddr) (s : Sys ι IpAddr) : Prop where
  node : (s.insts i).node = v
  others : ∀ j, j ≠ i → (s.insts j).node = c.node j
  worker : ∀ j, (s.insts j).worker = .resting cfg
  server : s.ledger.server = server
  answers : s.answers = c.answers
  task : s.tasks t = some ⟨i, b, pc⟩
  tasks : ∀ t' k, s.tasks t' = some k → t' ≤ t

/-- How `ensure_refilled` leaves the call: on its way to the last look, or answered. -/
def Resumes [DecidableEq ι] (cfg : Config) (c : Cluster ι IpAddr) (t : Nat) (i : ι) (b : BucketId IpAddr) (v : Node IpAddr)
    (server : Server) : Except (StoreError IpAddr) Unit → Sys ι IpAddr → Prop
  | .ok () => Serves cfg c t i b v server .take
  | .error e => Shows cfg { c.setNode i v with server, answers := c.answers ++ [⟨i, b, .error e⟩] }

/-- The worker of instance `i` is at work on a cleanup tick, which has come to `store`. -/
structure Cleans (cfg : Config) (c : Cluster ι IpAddr) (i : ι) (store : Store IpAddr) (w : Worker IpAddr)
    (s : Sys ι IpAddr) : Prop where
  node : (s.insts i).node = { c.node i with store }
  worker : (s.insts i).worker = w
  others : ∀ j, j ≠ i → (s.insts j).node = c.node j ∧ (s.insts j).worker = .resting cfg
  server : s.ledger.server = c.server
  answers : s.answers = c.answers
  tasks : ∃ t, ∀ t' k, s.tasks t' = some k → t' < t

section Calls

variable {cfg : Config} {c : Cluster ι IpAddr} {s s₁ : Sys ι IpAddr} {t : Nat} {i : ι} {b : BucketId IpAddr}
  {v w v' : Node IpAddr} {server server' : Server} {pc pc' : Pc IpAddr}

theorem Serves.inst_eq (h : s.Serves cfg c t i b v server pc) :
    (s.insts i).now = v.now ∧ (s.insts i).store = v.store :=
  ⟨congrArg Node.now h.node, congrArg Node.store h.node⟩

theorem Serves.goto (h : s.Serves cfg c t i b v server pc) (pc' : Pc IpAddr) :
    (s.goto t ⟨i, b, pc⟩ pc').Serves cfg c t i b v server pc' := by
  refine ⟨h.node, h.others, h.worker, h.server, h.answers, goto_tasks_self .., fun t' k hk => ?_⟩
  rcases goto_tasks_cases hk with ⟨rfl, -⟩ | ⟨-, hold⟩
  · exact Nat.le_refl _
  · exact h.tasks t' k hold

theorem Serves.withLedger (h : s.Serves cfg c t i b v server pc) {L : Ledger ι IpAddr} (hL : L.server = server') :
    Sys.Serves cfg c t i b v server' pc { s with ledger := L } :=
  ⟨h.node, h.others, h.worker, hL, h.answers, h.task, h.tasks⟩

variable [DecidableEq ι]

theorem Serves.setInst (h : s.Serves cfg c t i b v server pc) {x : Inst IpAddr} (hx : x.worker = (s.insts i).worker) :
    (s.setInst i x).Serves cfg c t i b x.node server pc := by
  refine ⟨by rw [setInst_insts_self], fun j hj => ?_, fun j => ?_, h.server, h.answers, h.task, h.tasks⟩
  · rw [setInst_insts_ne hj]
    exact h.others j hj
  · by_cases hj : j = i
    · subst hj
      rw [setInst_insts_self, hx]
      exact h.worker j
    · rw [setInst_insts_ne hj]
      exact h.worker j

theorem Serves.setStore (h : s.Serves cfg c t i b v server pc) (store : Store IpAddr) :
    (s.setStore i store).Serves cfg c t i b { v with store } server pc := by
  have hset := h.setInst (x := { s.insts i with store }) rfl
  rwa [show Inst.node { s.insts i with store } = { v with store } by rw [← h.node]; rfl] at hset

theorem Serves.answer (h : s.Serves cfg c t i b v server pc) (res : Except (StoreError IpAddr) Nat) :
    (s.answer t ⟨i, b, pc⟩ res).Shows cfg { c.setNode i v with server, answers := c.answers ++ [⟨i, b, res⟩] } := by
  refine ⟨fun j => ?_, h.worker, h.server, congrArg (· ++ _) h.answers, t + 1, fun t' k hk => ?_⟩
  · by_cases hj : j = i
    · subst hj
      simpa [Cluster.setNode] using h.node
    · simpa [Cluster.setNode, hj] using h.others j hj
  · have hle := (h.goto (.done res)).tasks t' k hk
    omega

theorem Serves.resume (h : s.Serves cfg c t i b v server pc) (res : Except (StoreError IpAddr) Unit) :
    (s.resume t ⟨i, b, pc⟩ res).Resumes cfg c t i b v server res := by
  cases res with
  | ok => exact h.goto .take
  | error e => exact h.answer (.error e)

variable [DecidableEq IpAddr]

theorem Serves.claim (h : s.Serves cfg c t i b v server pc) (n : Notify) :
    Sys.Serves cfg c t i b { v with store := v.store.claim b n } server pc
      { s.setStore i (v.store.claim b n) with nextNotify := n + 1 } :=
  have hset := h.setStore (v.store.claim b n)
  ⟨hset.node, hset.others, hset.worker, hset.server, hset.answers, hset.task, hset.tasks⟩

variable [ToString IpAddr]

theorem Serves.next (h : s₁.Serves cfg c t i b v server pc) (pc' : Pc IpAddr)
    (hrun : s.run t = some (s₁.goto t ⟨i, b, pc⟩ pc')) :
    ∃ s', Run (sys cfg) s s' ∧ s'.Serves cfg c t i b v server pc' :=
  ⟨_, .single (a := .run t) trivial hrun, h.goto pc'⟩

theorem Serves.elapse (h : s.Serves cfg c t i b v server pc) (ns : Nat) :
    ∃ s', Run (sys cfg) s s' ∧ s'.Serves cfg c t i b { v with now := v.now + ns } server pc := by
  refine ⟨_, .single (a := .elapse i ns) trivial rfl, ?_⟩
  have hset := h.setInst (x := { s.insts i with now := (s.insts i).now + ns }) rfl
  rwa [show Inst.node { s.insts i with now := (s.insts i).now + ns } = { v with now := v.now + ns } by
    rw [← h.node]; rfl] at hset

theorem Serves.redisElapse (h : s.Serves cfg c t i b v server pc) (ms : Nat) :
    ∃ s', Run (sys cfg) s s' ∧ s'.Serves cfg c t i b v (server.elapse ms) pc := by
  refine ⟨_, .single (a := .redisElapse ms) trivial rfl, ?_⟩
  exact ⟨h.node, h.others, h.worker, congrArg (Server.elapse · ms) h.server, h.answers, h.task, h.tasks⟩

theorem Shows.spawn (h : s.Shows cfg c) (i : ι) (b : BucketId IpAddr) :
    ∃ t s', Run (sys cfg) s s' ∧ s'.Serves cfg c t i b (c.node i) c.server .check := by
  obtain ⟨t, ht⟩ := h.tasks
  have hfree : s.tasks t = none := by
    cases hk : s.tasks t with
    | none => rfl
    | some k => exact absurd (ht t k hk) (Nat.lt_irrefl _)
  refine ⟨t, _, .single (a := .spawn t i b) trivial (if_pos (by rw [hfree]; rfl)), h.node i, fun j _ => h.node j,
    h.worker, h.server, h.answers, goto_tasks_self .., fun t' k hk => ?_⟩
  rcases goto_tasks_cases hk with ⟨rfl, -⟩ | ⟨-, hold⟩
  · exact Nat.le_refl _
  · exact Nat.le_of_lt (ht t' k hold)

theorem Serves.eval {n : Notify} {started : Nat} (h : s.Serves cfg c t i b v server (.eval n started)) (link : Link) :
    ∃ g s', Run (sys cfg) s s' ∧ s'.Serves cfg c t i b v (evalLease cfg server b link).2
      (.reply n started (evalLease cfg server b link).1 g) := by
  obtain ⟨hres, hserver⟩ := s.ledger.lease_eq cfg i b
  rw [h.server] at hres hserver
  have hnext {s' : Sys ι IpAddr} (hs : s.eval cfg t link = some s') : Run (sys cfg) s s' :=
    .single (a := .eval t link) trivial hs
  refine ⟨s.ledger.grants.length, ?_⟩
  cases link with
  | answers =>
      refine ⟨_, hnext (by simp only [Sys.eval, h.task]; rfl), ?_⟩
      rw [hres]
      exact (h.withLedger hserver).goto _
  | replyLost e =>
      refine ⟨_, hnext (by simp only [Sys.eval, h.task]; rfl), ?_⟩
      exact (h.withLedger hserver).goto _
  | unreachable e =>
      refine ⟨_, hnext (by simp only [Sys.eval, h.task]; rfl), ?_⟩
      exact h.goto _

theorem Serves.settle {n : Notify} {g leased ttl : Nat} {window : Int}
    (h : s.Serves cfg c t i b v server (.leased n g leased ttl window)) :
    ∃ s', Run (sys cfg) s s' ∧ s'.Serves cfg c t i b
      { v with store := (v.store.leased v.now b leased ttl window).2 } server
      (.refilled n (v.store.leased v.now b leased ttl window).1) := by
  obtain ⟨hnow, hstore⟩ := h.inst_eq
  refine ⟨_, .single (a := .run t) trivial (by simp only [sys, Sys.next, Sys.run, h.task]; rfl), ?_⟩
  simp only [Sys.settle, hnow, hstore]
  split
  · exact (h.setStore _).goto _
  · have hinsert := h.setInst (x := { s.insts i with
      now := v.now
      store := (v.store.leased v.now b leased ttl window).2
      origin := Function.update (s.insts i).origin b g
      version := Function.update (s.insts i).version b ((s.insts i).version b + 1) }) rfl
    exact (hinsert.withLedger (L := s.ledger.land g) h.server).goto _

theorem Serves.refilled {n n' : Notify} {res : Except (StoreError IpAddr) Unit}
    (h : s.Serves cfg c t i b v server (.refilled n res)) (hclaimed : v.store.refills.get b = some n') :
    ∃ s', Run (sys cfg) s s' ∧ s'.Resumes cfg c t i b { v with store := v.store.unclaim b } server res := by
  obtain ⟨-, hstore⟩ := h.inst_eq
  obtain ⟨s₁, hrun, hs₁⟩ := (h.setStore (v.store.unclaim b)).next (s := s) (.notify n' res)
    (by simp only [Sys.run, h.task, hstore, hclaimed])
  have hwoken : Sys.Serves cfg c t i b { v with store := v.store.unclaim b } server (.notify n' res)
      { s₁ with calls := Function.update s₁.calls n' (s₁.calls n' + 1) } :=
    ⟨hs₁.node, hs₁.others, hs₁.worker, hs₁.server, hs₁.answers, hs₁.task, hs₁.tasks⟩
  refine ⟨_, hrun.trans (.single (a := .run t) trivial ?_), hwoken.resume res⟩
  simp only [sys, Sys.next, Sys.run, hs₁.task]

theorem Serves.lease {n : Notify} (h : s.Serves cfg c t i b v server (.lease n)) (tm : Timing)
    {res : Except (StoreError IpAddr) Unit} (hl : Node.lease (evalLease cfg) v server b tm = (res, v', server')) :
    ∃ s', Run (sys cfg) s s' ∧ s'.Serves cfg c t i b v' server' (.refilled n res) := by
  obtain ⟨s₁, hrun₁, h₁⟩ := h.elapse tm.toStart
  obtain ⟨s₂, hrun₂, h₂⟩ := h₁.next (s := s₁) (.eval n (v.now + tm.toStart))
    (by simp only [Sys.run, h₁.task, h₁.inst_eq.1])
  obtain ⟨s₃, hrun₃, h₃⟩ := h₂.redisElapse tm.wait
  obtain ⟨g, s₄, hrun₄, h₄⟩ := h₃.eval tm.link
  obtain ⟨s₅, hrun₅, h₅⟩ := h₄.elapse tm.toReply
  have hrun := (((hrun₁.trans hrun₂).trans hrun₃).trans hrun₄).trans hrun₅
  unfold Node.lease at hl
  rcases heval : evalLease cfg (server.elapse tm.wait) b tm.link with ⟨e | r, server''⟩
  · simp only [heval, Prod.mk.injEq] at hl h₅
    obtain ⟨rfl, rfl, rfl⟩ := hl
    obtain ⟨s₆, hrun₆, h₆⟩ := h₅.next (s := s₅) (.refilled n (.error (.cache e)))
      (by simp only [Sys.run, h₅.task])
    exact ⟨s₆, hrun.trans hrun₆, h₆⟩
  · simp only [heval, Prod.mk.injEq] at hl h₅
    obtain ⟨rfl, rfl, rfl⟩ := hl
    obtain ⟨s₆, hrun₆, h₆⟩ := h₅.next (s := s₅) _ (by simp only [Sys.run, h₅.task, h₅.inst_eq.1]; rfl)
    obtain ⟨s₇, hrun₇, h₇⟩ := h₆.elapse tm.toInsert
    obtain ⟨s₈, hrun₈, h₈⟩ := h₇.settle
    exact ⟨s₈, ((hrun.trans hrun₆).trans hrun₇).trans hrun₈, h₈⟩

theorem lease_claim (cfg : Config) (v : Node IpAddr) (server : Server) (b : BucketId IpAddr) (n : Notify) (tm : Timing) :
    Node.lease (evalLease cfg) { v with store := v.store.claim b n } server b tm =
      ((Node.lease (evalLease cfg) v server b tm).1,
      { (Node.lease (evalLease cfg) v server b tm).2.1 with
        store := (Node.lease (evalLease cfg) v server b tm).2.1.store.claim b n },
      (Node.lease (evalLease cfg) v server b tm).2.2) ∧
    (Node.lease (evalLease cfg) v server b tm).2.1.store.refills = v.store.refills := by
  unfold Node.lease
  rcases evalLease cfg (server.elapse tm.wait) b tm.link with ⟨e | r, server'⟩
  · exact ⟨rfl, rfl⟩
  · simp only [Store.leased_claim, Store.leased_refills, and_self]

theorem Serves.ensureRefilled (h : s.Serves cfg c t i b v server .check) (tm : Timing)
    {res : Except (StoreError IpAddr) Unit}
    (he : Node.ensureRefilled (evalLease cfg) v server b tm = some (res, v', server')) :
    ∃ s', Run (sys cfg) s s' ∧ s'.Resumes cfg c t i b v' server' res := by
  obtain ⟨hnow, hstore⟩ := h.inst_eq
  rcases hcheck : v.store.check v.now b with e | ready
  · simp only [Node.ensureRefilled, hcheck, Option.some.injEq, Prod.mk.injEq] at he
    obtain ⟨rfl, rfl, rfl⟩ := he
    refine ⟨_, .single (a := .run t) trivial ?_, h.answer (.error e)⟩
    simp only [sys, Sys.next, Sys.run, h.task, hnow, hstore, hcheck]
  · cases ready with
    | true =>
        simp only [Node.ensureRefilled, hcheck, Option.some.injEq, Prod.mk.injEq] at he
        obtain ⟨rfl, rfl, rfl⟩ := he
        exact h.next _ (by simp only [Sys.run, h.task, hnow, hstore, hcheck])
    | false =>
        cases hfree : v.store.refills.get b with
        | some n => simp only [Node.ensureRefilled, hcheck, hfree, reduceCtorEq] at he
        | none =>
            rw [Node.ensureRefilled_of_spent hcheck hfree, Option.some.injEq] at he
            obtain ⟨s₁, hrun₁, h₁⟩ := h.next (s := s) (.entry ((s.insts i).version b))
              (by simp only [Sys.run, h.task, hnow, hstore, hcheck])
            obtain ⟨s₂, hrun₂, h₂⟩ := (h₁.claim s₁.nextNotify).next (s := s₁) (.lease s₁.nextNotify)
              (by simp only [Sys.run, h₁.task, h₁.inst_eq.2, hfree])
            obtain ⟨hclaim, hrefills⟩ := lease_claim cfg v server b s₁.nextNotify tm
            rw [he] at hclaim hrefills
            obtain ⟨s₃, hrun₃, h₃⟩ := h₂.lease tm hclaim
            obtain ⟨s₄, hrun₄, h₄⟩ := h₃.refilled (DashMap.get_insert_self ..)
            rw [Store.unclaim_claim (by rw [hrefills]; exact hfree)] at h₄
            exact ⟨s₄, ((hrun₁.trans hrun₂).trans hrun₃).trans hrun₄, h₄⟩

theorem Serves.look (h : s.Serves cfg c t i b v server .take) (tm : Timing) :
    ∃ s', Run (sys cfg) s s' ∧ s'.Shows cfg
      { c.setNode i (v.look b tm).2 with server, answers := c.answers ++ [⟨i, b, .ok (v.look b tm).1⟩] } := by
  obtain ⟨s₁, hrun₁, h₁⟩ := h.elapse tm.toTake
  obtain ⟨hnow, hstore⟩ := h₁.inst_eq
  unfold Node.look
  cases htake : v.store.take (v.now + tm.toTake) b with
  | none =>
      simp only [htake]
      obtain ⟨s₂, hrun₂, h₂⟩ := h₁.next (s := s₁) (.expired)
        (by simp only [Sys.run, h₁.task, Sys.takeToken, hnow, hstore, htake])
      refine ⟨_, (hrun₁.trans hrun₂).trans (.single (a := .run t) trivial ?_),
        (h₂.setStore (v.store.removeBucket b)).answer (.ok 0)⟩
      simp only [sys, Sys.next, Sys.run, h₂.task, h₂.inst_eq.2]
  | some r =>
      obtain ⟨left, store⟩ := r
      refine ⟨_, hrun₁.trans (.single (a := .run t) trivial (by simp only [sys, Sys.next, Sys.run, h₁.task]; rfl)), ?_⟩
      simp only [Sys.takeToken, hnow, hstore, htake]
      have hanswer := (h₁.setStore store).answer (.ok left)
      split
      · split
        · exact hanswer
        · exact ⟨hanswer.node, hanswer.worker, hanswer.server, hanswer.answers, hanswer.tasks⟩
      · exact hanswer

theorem Shows.consume (h : s.Shows cfg c) (tm : Timing) {c' : Cluster ι IpAddr}
    (hc : c.consume (evalLease cfg) i b tm = some c') :
    ∃ s', Run (sys cfg) s s' ∧ s'.Shows cfg c' := by
  obtain ⟨res, v, server, hconsume, rfl⟩ := Cluster.consume_eq_some hc
  obtain ⟨t, s₁, hrun₁, h₁⟩ := h.spawn i b
  unfold Node.consume at hconsume
  split at hconsume
  · cases hconsume
  · next e v server he =>
      cases hconsume
      obtain ⟨s₂, hrun₂, h₂⟩ := h₁.ensureRefilled tm he
      exact ⟨s₂, hrun₁.trans hrun₂, h₂⟩
  · next v server he =>
      cases hconsume
      obtain ⟨s₂, hrun₂, h₂⟩ := h₁.ensureRefilled tm he
      obtain ⟨s₃, hrun₃, h₃⟩ := Serves.look h₂ tm
      exact ⟨s₃, (hrun₁.trans hrun₂).trans hrun₃, h₃⟩

end Calls

section Ticks

variable {cfg : Config} {c : Cluster ι IpAddr} {s : Sys ι IpAddr} {i : ι} {store : Store IpAddr} {w : Worker IpAddr}

theorem Cleans.inst_eq (h : s.Cleans cfg c i store w) :
    (s.insts i).now = (c.node i).now ∧ (s.insts i).store = store ∧ (s.insts i).worker = w :=
  ⟨congrArg Node.now h.node, congrArg Node.store h.node, h.worker⟩

variable [DecidableEq ι]

theorem Cleans.rest (henabled : cfg.cleanup.enabled = true) (h : s.Cleans cfg c i store .idle) :
    s.Shows cfg (c.setNode i { c.node i with store }) := by
  have hrest : (.idle : Worker IpAddr) = .resting cfg := by rw [Worker.resting, if_pos henabled]
  refine ⟨fun j => ?_, fun j => ?_, h.server, h.answers, h.tasks⟩
  · by_cases hj : j = i
    · subst hj
      simpa [Cluster.setNode] using h.node
    · simpa [Cluster.setNode, hj] using (h.others j hj).1
  · by_cases hj : j = i
    · subst hj
      rw [h.worker, hrest]
    · exact (h.others j hj).2

theorem Cleans.setInst (h : s.Cleans cfg c i store w) (store' : Store IpAddr) (w' : Worker IpAddr) :
    (s.setInst i { s.insts i with store := store', worker := w' }).Cleans cfg c i store' w' := by
  refine ⟨?_, by rw [setInst_insts_self], fun j hj => ?_, h.server, h.answers, h.tasks⟩
  · rw [setInst_insts_self, Inst.node, h.inst_eq.1]
  · rw [setInst_insts_ne hj]
    exact h.others j hj

theorem Cleans.setWorker (h : s.Cleans cfg c i store w) (w' : Worker IpAddr) :
    (s.setWorker i w').Cleans cfg c i store w' := by
  have hset := h.setInst (s.insts i).store w'
  rw [h.inst_eq.2.1] at hset
  rwa [Sys.setWorker, ← h.inst_eq.2.1] at *

variable [DecidableEq IpAddr]

/-- The keys of `todo` that a tick finds expired. -/
def expiredOf (now : Nat) (store : Store IpAddr) (todo : List (BucketId IpAddr)) : List (BucketId IpAddr) :=
  todo.filter fun b => (store.buckets.get b).any fun bk => bk.isExpired now

theorem Cleans.visit {b : BucketId IpAddr} {todo found : List (BucketId IpAddr)}
    (h : s.Cleans cfg c i store (.collecting (b :: todo) found)) : s.visit i =
      some (s.setWorker i (.collecting todo (found ++ expiredOf (c.node i).now store [b]))) := by
  obtain ⟨hnow, hstore, hworker⟩ := h.inst_eq
  simp only [Sys.visit, hnow, hstore, hworker]
  cases hb : store.buckets.get b with
  | none => simp [expiredOf, hb]
  | some bk => cases hx : bk.isExpired (c.node i).now <;> simp [expiredOf, hb, hx]

variable [ToString IpAddr]

theorem Cleans.visits {todo found : List (BucketId IpAddr)} (h : s.Cleans cfg c i store (.collecting todo found)) :
    ∃ s', Run (sys cfg) s s' ∧
      s'.Cleans cfg c i store (.collecting [] (found ++ expiredOf (c.node i).now store todo)) := by
  induction todo generalizing s found with
  | nil => exact ⟨s, .refl, by simpa [expiredOf] using h⟩
  | cons b todo ih =>
      obtain ⟨s', hrun, hs'⟩ := ih (h.setWorker _)
      refine ⟨s', .step (.visit i) h.visit hrun, ?_⟩
      rw [List.append_assoc, expiredOf, expiredOf, ← List.filter_append] at hs'
      exact hs'

theorem Cleans.sweepChunk (done rest : List (List (BucketId IpAddr))) {chunk : List (BucketId IpAddr)}
    (h : s.Cleans cfg c i store (.sweeping (done ++ chunk :: rest))) :
    ∃ s', Run (sys cfg) s s' ∧
      s'.Cleans cfg c i (chunk.foldl Store.removeBucket store) (.sweeping (done ++ [] :: rest)) := by
  induction chunk generalizing s store with
  | nil => exact ⟨s, .refl, h⟩
  | cons b chunk ih =>
      obtain ⟨-, hstore, hworker⟩ := h.inst_eq
      have hsweep : s.sweep i done.length = some (s.setInst i { s.insts i with
          store := store.removeBucket b, worker := .sweeping (done ++ chunk :: rest) }) := by
        simp [Sys.sweep, hworker, hstore]
      obtain ⟨s', hrun, hs'⟩ := ih (h.setInst _ _)
      exact ⟨s', .step (.sweep i done.length) hsweep hrun, hs'⟩

theorem Cleans.sweeps {chunks : List (List (BucketId IpAddr))} (n : Nat)
    (h : s.Cleans cfg c i store (.sweeping (List.replicate n [] ++ chunks))) :
    ∃ n' s', Run (sys cfg) s s' ∧
      s'.Cleans cfg c i (chunks.flatten.foldl Store.removeBucket store) (.sweeping (List.replicate n' [])) := by
  induction chunks generalizing s store n with
  | nil => exact ⟨n, s, .refl, by simpa using h⟩
  | cons chunk chunks ih =>
      obtain ⟨s₁, hrun₁, h₁⟩ := h.sweepChunk
      have hshift : List.replicate n [] ++ [] :: chunks = List.replicate (n + 1) [] ++ chunks := by
        simp [List.replicate_succ']
      rw [hshift] at h₁
      obtain ⟨n', s₂, hrun₂, h₂⟩ := ih (n + 1) h₁
      exact ⟨n', s₂, hrun₁.trans hrun₂, by rwa [List.flatten_cons, List.foldl_append]⟩

theorem Shows.tick (henabled : cfg.cleanup.enabled = true) (h : s.Shows cfg c) (i : ι) :
    ∃ s', Run (sys cfg) s s' ∧ s'.Shows cfg (c.setNode i (c.node i).tick) := by
  have hidle : (s.insts i).worker = .idle := by rw [h.worker, Worker.resting, if_pos henabled]
  have hstore : (s.insts i).store = (c.node i).store := congrArg Node.store (h.node i)
  have hcleans : s.Cleans cfg c i (c.node i).store .idle :=
    ⟨h.node i, hidle, fun j _ => ⟨h.node j, h.worker j⟩, h.server, h.answers, h.tasks⟩
  unfold Node.tick
  split
  · next hempty =>
      exact ⟨s, .refl, hcleans.rest henabled⟩
  · next hempty =>
      have hcovers : s.Covers i (c.node i).store.buckets.keys := ⟨AList.keys_nodup _, fun b hb => by rwa [hstore] at hb⟩
      have htick : s.tick i (c.node i).store.buckets.keys =
          some (s.setWorker i (.collecting (c.node i).store.buckets.keys [])) := by
        simp only [Sys.tick, hidle, hstore, if_neg hempty, if_pos hcovers]
      obtain ⟨s₁, hrun₁, h₁⟩ := Cleans.visits (hcleans.setWorker (.collecting (c.node i).store.buckets.keys []))
      have hrun₁ := Run.step (S := sys cfg) (.tick i _) htick hrun₁
      rw [List.nil_append] at h₁
      change s₁.Cleans cfg c i _ (.collecting [] (c.node i).expiredKeys) at h₁
      cases hkeys : (c.node i).expiredKeys with
      | nil =>
          rw [hkeys] at h₁
          refine ⟨_, hrun₁.trans (.single (a := .visit i) trivial ?_), (h₁.setWorker .idle).rest henabled⟩
          simp [sys, Sys.next, Sys.visit, h₁.worker]
      | cons b keys =>
          rw [hkeys] at h₁
          have hcollected : s₁.visit i =
              some (s₁.setWorker i (.sweeping (Chunks.chunks chunkSize (b :: keys)))) := by
            simp [Sys.visit, h₁.worker]
          have h₂ : (s₁.setWorker i (.sweeping (Chunks.chunks chunkSize (b :: keys)))).Cleans cfg c i _
              (.sweeping (List.replicate 0 [] ++ Chunks.chunks chunkSize (b :: keys))) := h₁.setWorker _
          obtain ⟨n, s₃, hrun₃, h₃⟩ := h₂.sweeps
          rw [Chunks.flatten_chunks (by decide)] at h₃
          have hjoin : s₃.join i = some (s₃.setWorker i .idle) := by simp [Sys.join, h₃.worker]
          have hrun := hrun₁.trans (Run.step (S := sys cfg) (.visit i) hcollected hrun₃)
          exact ⟨_, hrun.trans (.single (a := .join i) trivial hjoin), (h₃.setWorker .idle).rest henabled⟩

end Ticks

end Sys

section Results

variable [DecidableEq ι] [DecidableEq IpAddr] [ToString IpAddr] {cfg : Config}

/-- An instance has a worker to run its ticks when the cleanup is enabled. -/
def Turn.Manned (cfg : Config) (_ : Cluster ι IpAddr) (a : Turn ι IpAddr) : Prop :=
  ∀ i, a = .tick i → cfg.cleanup.enabled = true

theorem turns_refine_to_tasks (cfg : Config) :
    Refinement (cluster (evalLease cfg)) (Turn.Manned cfg) (sys cfg) (fun _ _ => True)
    (Sys.Shows cfg : Cluster ι IpAddr → Sys ι IpAddr → Prop) where
  init := by
    rintro _ ⟨clock, now, rfl⟩
    exact ⟨.start cfg clock now, ⟨clock, now, rfl⟩, fun _ => rfl, fun _ => rfl, rfl, rfl, 0, fun _ _ hk => by cases hk⟩
  step := by
    intro c a c' s _ h hmanned hnext
    cases a with
    | consume i b tm => exact h.consume tm hnext
    | tick i =>
        cases hnext
        exact h.tick (hmanned i rfl) i
    | elapse i ns =>
        cases hnext
        refine ⟨_, .single (a := .elapse i ns) trivial rfl, fun j => ?_, fun j => ?_, h.server, h.answers, h.tasks⟩
        · by_cases hj : j = i
          · subst hj
            simp [Cluster.setNode, ← h.node j, Inst.node]
          · simpa [Cluster.setNode, hj] using h.node j
        · by_cases hj : j = i
          · subst hj
            simpa using h.worker j
          · simpa [hj] using h.worker j
    | redisElapse ms =>
        cases hnext
        exact ⟨_, .single (a := .redisElapse ms) trivial rfl, h.node, h.worker, congrArg (Server.elapse · ms) h.server,
          h.answers, h.tasks⟩

/-- Whatever the instances of a cluster come to by taking turns, the tasks and workers come to as well: the same
clocks and stores, the same Redis and the same answers in the same order. -/
theorem turns_are_runs {c : Cluster ι IpAddr} (h : ReachWhen (cluster (evalLease cfg)) (Turn.Manned cfg) c) :
    ∃ s, Reach (sys cfg) s ∧ s.Shows cfg c :=
  (turns_refine_to_tasks cfg).reach h

/-- A call, a tick that finds its bucket expired, and another call. -/
theorem cleaning_turns_are_runs : ∃ c s, (cluster (evalLease .cleaning)).exec testCluster [.consume () testUser promptCall,
      .elapse () 61000000000, .redisElapse 61000, .tick (), .consume () testUser promptCall] = some c ∧
    c.answers.length = 2 ∧ Reach (sys .cleaning) s ∧ s.Shows .cleaning c := by
  have hrun : ((cluster (evalLease .cleaning)).execWhen (fun _ _ => true) testCluster [.consume () testUser promptCall,
      .elapse () 61000000000, .redisElapse 61000, .tick (), .consume () testUser promptCall]).map
      (fun c => c.answers.length) = some 2 := rfl
  obtain ⟨c, hc, hlen⟩ := Option.map_eq_some_iff.mp hrun
  obtain ⟨s, hs, hshows⟩ := turns_are_runs
    (ReachWhen.execWhen_of (fun _ _ _ _ _ => rfl) (testCluster_init _) _ hc)
  exact ⟨c, s, System.exec_of_execWhen hc, hlen, hs, hshows⟩

end Results

end ThatLimit
