import ThatLimit.Concurrent.Texts
import ThatLimit.Core.Exact
import ThatLimit.Serial.Closing
import ThatLimit.Serial.Embedding
/-!
# Shutdowns are runs of the workers

While the numbers are exact, the turns of a cluster on the numbers of Redis are those of a
cluster that counts without bounds, so the tasks and workers of the concurrent system can do
them as well. What the shutdown branches give back after the last call, the workers release:
an iteration over the buckets that nobody gets in the way of, and then one release after the
other.
-/

namespace ThatLimit

open Transition

variable {ι IpAddr : Type} {cfg : Config}

def Snapshot.leftover (p : Snapshot IpAddr) : Leftover IpAddr := ⟨p.id, p.tokens, p.window⟩

/-- How far a worker is with the chunks that are left to it; `none` before its shutdown. -/
def Worker.Holds (cfg : Config) (w : Worker IpAddr) : Option (List (List (Leftover IpAddr))) → Prop
  | none => w = .resting cfg
  | some [] => w = .complete
  | some chunks => ∃ taken, w = .releasing taken ∧ taken.map (List.map Snapshot.leftover) = chunks

theorem Worker.holds_iff {w : Worker IpAddr} {chunks : List (List (Leftover IpAddr))} (h : chunks ≠ []) :
    w.Holds cfg (some chunks) ↔ ∃ taken, w = .releasing taken ∧ taken.map (List.map Snapshot.leftover) = chunks := by
  cases chunks with
  | nil => exact absurd rfl h
  | cons chunk chunks => rfl

namespace Sys

/-- The clocks, the stores, Redis and the answers are those of the cluster. -/
structure Mirrors (c : Cluster ι IpAddr) (s : Sys ι IpAddr) : Prop where
  node : ∀ i, (s.insts i).node = c.node i
  server : s.ledger.server = c.server
  answers : s.answers = c.answers

/-- Besides, every worker is where its shutdown branch is. -/
structure Hands (cfg : Config) (c : Closing ι IpAddr) (s : Sys ι IpAddr) : Prop where
  mirrors : s.Mirrors c.base
  worker : ∀ i, (s.insts i).worker.Holds cfg (c.work i)

/-- The worker of instance `i` has collected `found` and not yet seen `todo`; the others are as `insts` says. -/
structure Notes (c : Cluster ι IpAddr) (insts : ι → Inst IpAddr) (i : ι) (todo : List (BucketId IpAddr))
    (found : List (Leftover IpAddr)) (s : Sys ι IpAddr) : Prop where
  mirrors : s.Mirrors c
  worker : ∃ taken, (s.insts i).worker = .noting todo taken ∧ taken.map Snapshot.leftover = found
  others : ∀ j, j ≠ i → s.insts j = insts j

variable {c : Cluster ι IpAddr} {s s₀ : Sys ι IpAddr} {insts : ι → Inst IpAddr} {i : ι}

theorem Mirrors.inst_eq (h : s.Mirrors c) (i : ι) :
    (s.insts i).now = (c.node i).now ∧ (s.insts i).store = (c.node i).store :=
  ⟨congrArg Node.now (h.node i), congrArg Node.store (h.node i)⟩

theorem Mirrors.withLedger (h : s.Mirrors c) {L : Ledger ι IpAddr} {server : Server} (hL : L.server = server) :
    Sys.Mirrors { c with server } { s with ledger := L } :=
  ⟨h.node, hL, h.answers⟩

variable [DecidableEq ι]

theorem Mirrors.setWorker (h : s.Mirrors c) (i : ι) (w : Worker IpAddr) : (s.setWorker i w).Mirrors c := by
  refine ⟨fun j => ?_, h.server, h.answers⟩
  by_cases hj : j = i
  · subst hj
    rw [setWorker_eq, setInst_insts_self]
    exact h.node j
  · rw [setWorker_eq, setInst_insts_ne hj]
    exact h.node j

theorem Notes.goto {todo : List (BucketId IpAddr)} {found : List (Leftover IpAddr)} (h : s.Notes c insts i todo found)
    (todo' : List (BucketId IpAddr)) (taken : List (Snapshot IpAddr)) :
    (s.setWorker i (.noting todo' taken)).Notes c insts i todo' (taken.map Snapshot.leftover) := by
  refine ⟨h.mirrors.setWorker i _, ⟨taken, by simp, rfl⟩, fun j hj => ?_⟩
  rw [setWorker_eq, setInst_insts_ne hj]
  exact h.others j hj

theorem Hands.setWork {c : Closing ι IpAddr} {chunks : List (List (Leftover IpAddr))} (h : s₀.Hands cfg c)
    (hs : s.Mirrors c.base) (hw : (s.insts i).worker.Holds cfg (some chunks))
    (hothers : ∀ j, j ≠ i → s.insts j = s₀.insts j) :
    s.Hands cfg (c.setWork i chunks) := by
  refine ⟨hs, fun j => ?_⟩
  by_cases hj : j = i
  · subst hj
    simpa [Closing.setWork] using hw
  · simpa [Closing.setWork, hj, hothers j hj] using h.worker j

theorem Hands.elapse {c : Closing ι IpAddr} (h : s.Hands cfg c) (i : ι) (ns : Nat) :
    Sys.Hands cfg { c with base := c.base.setNode i { c.base.node i with now := (c.base.node i).now + ns } }
      (s.setInst i { s.insts i with now := (s.insts i).now + ns }) := by
  refine ⟨⟨fun j => ?_, h.mirrors.server, h.mirrors.answers⟩, fun j => ?_⟩
  · by_cases hj : j = i
    · subst hj
      simp [Cluster.setNode, ← h.mirrors.node j, Inst.node]
    · simpa [Cluster.setNode, hj] using h.mirrors.node j
  · by_cases hj : j = i
    · subst hj
      simpa using h.worker j
    · simpa [hj] using h.worker j

variable [DecidableEq IpAddr]

theorem Notes.visit {b : BucketId IpAddr} {todo : List (BucketId IpAddr)} {found : List (Leftover IpAddr)}
    (h : s.Notes c insts i (b :: todo) found) :
    ∃ s', s.visit i = some s' ∧ s'.Notes c insts i todo (found ++ ((c.node i).leftover b).toList) := by
  obtain ⟨taken, hworker, rfl⟩ := h.worker
  obtain ⟨hnow, hstore⟩ := h.mirrors.inst_eq i
  simp only [Sys.visit, hworker, hnow, hstore, Node.leftover]
  cases hb : (c.node i).store.buckets.get b with
  | none => exact ⟨_, rfl, by simpa using h.goto todo taken⟩
  | some bk =>
      simp only
      split
      · exact ⟨_, rfl, by simpa using h.goto todo taken⟩
      · refine ⟨_, rfl, ?_⟩
        have hgoto := h.goto todo (taken ++ [⟨b, bk.tokens, bk.window, (s.insts i).origin b⟩])
        rw [List.map_append] at hgoto
        exact ⟨⟨hgoto.mirrors.node, hgoto.mirrors.server, hgoto.mirrors.answers⟩, hgoto.worker, hgoto.others⟩

end Sys

variable [DecidableEq ι] [DecidableEq IpAddr]

theorem Cluster.consume_congr {eval eval' : Eval IpAddr} {c : Cluster ι IpAddr} {b : BucketId IpAddr} {tm : Timing}
    (h : eval (c.server.elapse tm.wait) b tm.link = eval' (c.server.elapse tm.wait) b tm.link) (i : ι) :
    c.consume eval i b tm = c.consume eval' i b tm := by
  simp only [Cluster.consume, Node.consume, Node.ensureRefilled, Node.lease, h]

variable [ToString IpAddr]

/-- The ticks have a worker, and the leases open windows that end before the numbers cease to be exact. -/
def Turn.Early (cfg : Config) (c : Cluster ι IpAddr) (a : Turn ι IpAddr) : Prop :=
  Turn.Manned cfg c a ∧ ∀ i b tm, a = .consume i b tm →
    c.server.now + tm.wait + asSecs (cfg.policy b).resetIn * 1000 ≤ 2 ^ 53

/-- The shutdowns have a worker, and the releases meet windows that end before the numbers cease to be exact. -/
def Close.Early (cfg : Config) (c : Closing ι IpAddr) (a : Close ι IpAddr) : Prop :=
  (∀ i order, a = .shutdown i order → cfg.cleanup.enabled = true) ∧ ∀ i k, a = .release i k →
    ∀ b : BucketId IpAddr, c.base.server.now + asSecs (cfg.policy b).resetIn * 1000 ≤ 2 ^ 53

section Turns

theorem evalLeaseChecked_eq {s : Sys ι IpAddr} (hs : Reach (sys cfg) s) {server : Server}
    (hserver : s.ledger.server = server) {b : BucketId IpAddr} (hquota : (cfg.policy b).quota ≤ 2 ^ 53)
    (hearly : server.now + asSecs (cfg.policy b).resetIn * 1000 ≤ 2 ^ 53) (link : Link) :
    evalLeaseChecked cfg server b link = evalLease cfg server b link := by
  subst hserver
  rw [evalLeaseChecked, evalLease,
    Server.leaseChecked_eq (cfg.policy b).leaseSize_le hquota hearly (fits_of_early hs hquota hearly)]

/-- Early turns on the numbers of Redis are turns of the cluster that counts without bounds. -/
theorem exact_turns (hquota : ∀ b : BucketId IpAddr, (cfg.policy b).quota ≤ 2 ^ 53) {c : Cluster ι IpAddr}
    (h : ReachWhen (cluster (evalLeaseChecked cfg)) (Turn.Early cfg) c) :
    ReachWhen (cluster (evalLease cfg)) (Turn.Manned cfg) c := by
  induction h with
  | init hi => exact .init hi
  | @step c c' a hr hg hs ih =>
      cases a with
      | consume i b tm =>
          obtain ⟨s, hreach, hshows⟩ := (turns_refine_to_tasks cfg).reach ih
          have helapse : Reach (sys cfg) { s with ledger := s.ledger.elapse tm.wait } :=
            .step (a := .redisElapse tm.wait) hreach trivial rfl
          have heval := evalLeaseChecked_eq helapse (congrArg (Server.elapse · tm.wait) hshows.server) (hquota b)
            (hg.2 i b tm rfl) tm.link
          exact .step (a := .consume i b tm) ih hg.1 ((Cluster.consume_congr heval i).symm.trans hs)
      | tick i | elapse i ns | redisElapse ms =>
          cases hs
          exact .step ih hg.1 rfl

end Turns

namespace Sys

variable {c : Cluster ι IpAddr} {s : Sys ι IpAddr} {insts : ι → Inst IpAddr} {i : ι}

theorem Notes.visits {todo : List (BucketId IpAddr)} {found : List (Leftover IpAddr)}
    (h : s.Notes c insts i todo found) :
    ∃ s', Run (sys cfg) s s' ∧ s'.Notes c insts i [] (found ++ (c.node i).replenish todo) := by
  induction todo generalizing s found with
  | nil => exact ⟨s, .refl, by simpa [Node.replenish] using h⟩
  | cons b todo ih =>
      obtain ⟨s₁, hvisit, h₁⟩ := h.visit
      obtain ⟨s₂, hrun, h₂⟩ := ih h₁
      refine ⟨s₂, .step (.visit i) hvisit hrun, ?_⟩
      have hreplenish : (c.node i).replenish (b :: todo) =
          ((c.node i).leftover b).toList ++ (c.node i).replenish todo := by
        simp only [Node.replenish, List.filterMap_cons]
        cases (c.node i).leftover b <;> rfl
      rwa [hreplenish, ← List.append_assoc]

section Steps

variable {c c' : Closing ι IpAddr}

theorem Hands.shutdown {order : List (BucketId IpAddr)} (h : s.Hands cfg c) (henabled : cfg.cleanup.enabled = true)
    (hc : c.shutdown i order = some c') : ∃ s', Run (sys cfg) s s' ∧ s'.Hands cfg c' := by
  obtain ⟨hwork, hperm, rfl⟩ := Closing.shutdown_eq_some hc
  have hidle : (s.insts i).worker = .idle := by
    have hrest := h.worker i
    rwa [hwork, Worker.Holds, Worker.resting, if_pos henabled] at hrest
  obtain ⟨-, hstore⟩ := h.mirrors.inst_eq i
  have hothers (w : Worker IpAddr) : ∀ j, j ≠ i → (s.setWorker i w).insts j = s.insts j := fun j hj => by simp [hj]
  unfold Node.shutdown
  split
  · next hempty =>
      have hshutdown : s.shutdown i order = some (s.setWorker i .complete) := by
        simp only [Sys.shutdown, hidle, hstore, if_pos hempty]
      exact ⟨_, .single (a := .shutdown i order) trivial hshutdown,
        h.setWork (h.mirrors.setWorker i _) (by simp [Worker.Holds]) (hothers _)⟩
  · next hempty =>
      have hcovers : s.Covers i order := by
        refine ⟨hperm.nodup_iff.mpr (AList.keys_nodup _), fun b hb => ?_⟩
        rw [hstore] at hb
        exact hperm.mem_iff.mpr hb
      have hshutdown : s.shutdown i order = some (s.setWorker i (.noting order [])) := by
        simp only [Sys.shutdown, hidle, hstore, if_neg hempty, if_pos hcovers]
      have hnotes : (s.setWorker i (.noting order [])).Notes c.base s.insts i order [] :=
        ⟨h.mirrors.setWorker i _, ⟨[], by simp, rfl⟩, hothers _⟩
      obtain ⟨s₁, hrun, h₁⟩ := hnotes.visits
      have hrun := Run.step (S := sys cfg) (.shutdown i order) hshutdown hrun
      obtain ⟨taken, hworker, htaken⟩ := h₁.worker
      rw [List.nil_append] at htaken
      have hjoin (w : Worker IpAddr) : ∀ j, j ≠ i → (s₁.setWorker i w).insts j = s.insts j := fun j hj => by
        rw [setWorker_eq, setInst_insts_ne hj, h₁.others j hj]
      rw [← htaken]
      cases htake : taken with
      | nil =>
          have hvisit : s₁.visit i = some (s₁.setWorker i .complete) := by simp [Sys.visit, hworker, htake]
          exact ⟨_, hrun.trans (.single (a := .visit i) trivial hvisit),
            h.setWork (h₁.mirrors.setWorker i _) (by simp [Worker.Holds]) (hjoin _)⟩
      | cons p rest =>
          have hvisit : s₁.visit i = some (s₁.setWorker i (.releasing (Chunks.chunks chunkSize (p :: rest)))) := by
            simp [Sys.visit, hworker, htake]
          refine ⟨_, hrun.trans (.single (a := .visit i) trivial hvisit),
            h.setWork (h₁.mirrors.setWorker i _) ?_ (hjoin _)⟩
          rw [if_neg (by simp), Chunks.chunks_map, setWorker_eq, setInst_insts_self]
          exact ⟨_, rfl, rfl⟩

theorem Hands.release (hs : Reach (sys cfg) s) (hquota : ∀ b : BucketId IpAddr, (cfg.policy b).quota ≤ 2 ^ 53)
    (hearly : ∀ b : BucketId IpAddr, c.base.server.now + asSecs (cfg.policy b).resetIn * 1000 ≤ 2 ^ 53)
    {k : Nat} (h : s.Hands cfg c) (hc : c.release giveChecked i k = some c') :
    ∃ s', Run (sys cfg) s s' ∧ s'.Hands cfg c' := by
  obtain ⟨chunks, p, rest, hwork, hchunk, rfl⟩ := Closing.release_eq_some hc
  have hne : chunks ≠ [] := by
    rintro rfl
    simp at hchunk
  have hholds := h.worker i
  rw [hwork, Worker.holds_iff hne] at hholds
  obtain ⟨taken, hworker, rfl⟩ := hholds
  rw [List.getElem?_map, Option.map_eq_some_iff] at hchunk
  obtain ⟨chunk, hchunk, hmap⟩ := hchunk
  obtain ⟨q, left, rfl, rfl, rfl⟩ := List.map_eq_cons_iff.mp hmap
  have hunsent : s.unsent i k = some q := by simp [Sys.unsent, hworker, hchunk]
  have hrelease : s.release i k .answers = some { s.setWorker i (.releasing (taken.set k left)) with
      ledger := (s.ledger.release q.grant q.id q.tokens q.window).2 } := by
    simp only [Sys.release, hworker, hchunk]
  have hserver : (s.ledger.release q.grant q.id q.tokens q.window).2.server =
      giveChecked c.base.server q.id.toKey q.tokens q.window := by
    rw [← h.mirrors.server] at hearly ⊢
    obtain ⟨htokens, hnonneg, hwindow⟩ := unsent_fits hs hunsent (hquota q.id) (hearly q.id)
    exact (Server.releaseChecked_eq hwindow hnonneg (fits_of_early hs (hquota q.id) (hearly q.id)) htokens).symm
  refine ⟨_, .single (a := .release i k .answers) trivial hrelease, ?_⟩
  have hset : (s.setWorker i (.releasing (taken.set k left))).Hands cfg
      (c.setWork i ((taken.map (List.map Snapshot.leftover)).set k (left.map Snapshot.leftover))) := by
    refine h.setWork (h.mirrors.setWorker i _) ?_ fun j hj => by simp [hj]
    rw [Worker.holds_iff (by simpa using hne), setWorker_eq, setInst_insts_self]
    exact ⟨_, rfl, List.map_set ..⟩
  exact ⟨hset.mirrors.withLedger hserver, hset.worker⟩

end Steps

end Sys

section Results

/-- The shutdown branches after the last turn leave what a run of the tasks and workers leaves: the same clocks and
stores, the same Redis and the same answers, and every worker with the same chunks left. -/
theorem shutdowns_are_runs (hquota : ∀ b : BucketId IpAddr, (cfg.policy b).quota ≤ 2 ^ 53) {c : Closing ι IpAddr}
    (h : ReachWhen (closing (ReachWhen (cluster (evalLeaseChecked cfg)) (Turn.Early cfg)) giveChecked)
      (Close.Early cfg) c) : ∃ s, Reach (sys cfg) s ∧ s.Hands cfg c := by
  induction h with
  | init hi =>
      obtain ⟨hcalled, hwork⟩ := hi
      obtain ⟨s, hs, hshows⟩ := (turns_refine_to_tasks cfg).reach (exact_turns hquota hcalled)
      refine ⟨s, hs, ⟨hshows.node, hshows.server, hshows.answers⟩, fun i => ?_⟩
      rw [hwork]
      exact hshows.worker i
  | @step c c' a hr hg hnext ih =>
      obtain ⟨s, hs, hhands⟩ := ih
      suffices ∃ s', Run (sys cfg) s s' ∧ s'.Hands cfg c' by
        obtain ⟨s', hrun, hhands'⟩ := this
        exact ⟨s', hrun.reach hs, hhands'⟩
      cases a with
      | shutdown i order => exact hhands.shutdown (hg.1 i order rfl) hnext
      | release i k => exact Sys.Hands.release hs hquota (hg.2 i k rfl) hhands hnext
      | elapse i ns =>
          cases hnext
          exact ⟨_, .single (a := .elapse i ns) trivial rfl, hhands.elapse i ns⟩
      | redisElapse ms =>
          cases hnext
          exact ⟨_, .single (a := .redisElapse ms) trivial rfl,
            hhands.mirrors.withLedger (congrArg (Server.elapse · ms) hhands.mirrors.server), hhands.worker⟩

end Results

end ThatLimit
