import ThatLimit.Concurrent.Steps
import ThatLimit.Framework.Pairing
import ThatLimit.Window.Keys
/-!
# What is seen of an id

Two systems look alike for an id when its buckets, its refills, its key and its calls are the
same in both and the second one has nothing else. The names of notifies may differ, and so may
history. The worker of the second system waits until the other one has made up its mind about
the bucket of the id, and then does its whole pass, which is about this bucket alone.
-/

namespace ThatLimit

open Pairing

variable {ι IpAddr : Type}

/-- The notifies of the calls for the id by their names in both systems, and those of all other calls. -/
structure Names where
  same : Notify → Notify → Prop
  other : Notify → Prop

structure Names.Extends (N N' : Names) : Prop where
  same : ∀ n m, N.same n m → N'.same n m
  other : ∀ n, N.other n → N'.other n

/-- The same point of the same call, up to names and history. -/
inductive Pc.Like (N : Names) : Pc IpAddr → Pc IpAddr → Prop
  | check : Like N .check .check
  | entry {seen seen'} : Like N (.entry seen) (.entry seen')
  | lease {n m} : Like N (.lease n) (.lease m)
  | eval {n m started} : Like N (.eval n started) (.eval m started)
  | reply {n m started res g g'} : Like N (.reply n started res g) (.reply m started res g')
  | leased {n m g g' leased ttl window} : Like N (.leased n g leased ttl window) (.leased m g' leased ttl window)
  | refilled {n m res} : Like N (.refilled n res) (.refilled m res)
  | notify {n m res} (h : N.same n m) : Like N (.notify n res) (.notify m res)
  | occupied {n m} (h : N.same n m) : Like N (.occupied n) (.occupied m)
  | notified {n m calls} (h : N.same n m) : Like N (.notified n calls) (.notified m calls)
  | take : Like N .take .take
  | expired : Like N .expired .expired
  | done {res} : Like N (.done res) (.done res)
  | dropped {inFlight} : Like N (.dropped inFlight) (.dropped inFlight)

/-- A call for `b` is there in both systems, any other one in the first alone. -/
inductive Task.Like (b : BucketId IpAddr) (N : Names) : Option (Task ι IpAddr) → Option (Task ι IpAddr) → Prop
  | none : Like b N none none
  | own {i pc pc'} (h : Pc.Like N pc pc') : Like b N (some ⟨i, b, pc⟩) (some ⟨i, b, pc'⟩)
  | foreign {k} (hid : k.id ≠ b) (h : ∀ n res, k.pc = .notify n res → N.other n) : Like b N (some k) none

section Names

variable {b : BucketId IpAddr} {N N' : Names} {pc pc' : Pc IpAddr} {k k' : Option (Task ι IpAddr)}

theorem Pc.Like.mono (hN : N.Extends N') (h : pc.Like N pc') : pc.Like N' pc' := by
  cases h with
  | notify h => exact .notify (hN.same _ _ h)
  | occupied h => exact .occupied (hN.same _ _ h)
  | notified h => exact .notified (hN.same _ _ h)
  | _ => constructor

theorem Task.Like.mono (hN : N.Extends N') (h : Task.Like b N k k') : Task.Like b N' k k' := by
  cases h with
  | none => exact .none
  | own h => exact .own (h.mono hN)
  | foreign hid h => exact .foreign hid fun n res hpc => hN.other n (h n res hpc)

end Names

section Ledgers

variable [ToString IpAddr] {cfg : Config} {b b' : BucketId IpAddr} {L L' : Ledger ι IpAddr} {server : Server}

theorem Ledger.lease_shares (h : L.server.Shares b.toKey L'.server) (cfg : Config) (i : ι) :
    (L'.lease cfg i b).1 = (L.lease cfg i b).1 ∧
    (L.lease cfg i b).2.server.Shares b.toKey (L'.lease cfg i b).2.server := by
  rw [(L'.lease_eq cfg i b).1, (L'.lease_eq cfg i b).2, (L.lease_eq cfg i b).1, (L.lease_eq cfg i b).2]
  exact h.lease _ _ _

theorem Ledger.lease_shares_other (h : L.server.Shares b.toKey server) (hkey : b.toKey ≠ b'.toKey) (cfg : Config) (i : ι) :
    (L.lease cfg i b').2.server.Shares b.toKey server := by
  rw [(L.lease_eq cfg i b').2]
  exact h.lease_other hkey _ _ _

end Ledgers

variable [DecidableEq IpAddr]

/-- The same piece of the same shutdown, up to history. -/
structure Snapshot.Like (p p' : Snapshot IpAddr) : Prop where
  id : p'.id = p.id
  tokens : p'.tokens = p.tokens
  window : p'.window = p.window

/-- How far the worker of the lonely system is. It has nothing to do before the other one has looked at `b`, and after
that nothing but `b`. -/
inductive Worker.Like (b : BucketId IpAddr) : Worker IpAddr → Worker IpAddr → Prop
  | off : Like b .off .off
  | idle : Like b .idle .idle
  | complete : Like b .complete .complete
  | collecting {todo found} (hb : b ∉ found) (hnodup : todo.Nodup) : Like b (.collecting todo found) .idle
  | collected {todo found} (hb : found.count b = 1) (htodo : b ∉ todo) :
      Like b (.collecting todo found) (.sweeping [[b]])
  | passing {chunks} (hb : b ∉ chunks.flatten) : Like b (.sweeping chunks) .idle
  | sweeping {chunks} (hb : chunks.flatten.count b = 1) : Like b (.sweeping chunks) (.sweeping [[b]])
  | noting {todo found} (hb : b ∈ todo) (hnodup : todo.Nodup) (hfound : ∀ p ∈ found, p.id ≠ b) :
      Like b (.noting todo found) .idle
  | noted {todo found p p'} (htodo : b ∉ todo) (hfound : found.filter (fun p => p.id = b) = [p]) (hp : p.Like p') :
      Like b (.noting todo found) (.releasing [[p']])
  | skipped {todo found} (htodo : b ∉ todo) (hfound : ∀ p ∈ found, p.id ≠ b) : Like b (.noting todo found) .complete
  | releasing {chunks p p'} (hp : chunks.flatten.filter (fun p => p.id = b) = [p]) (hlike : p.Like p') :
      Like b (.releasing chunks) (.releasing [[p']])
  | released {chunks} (hp : ∀ p ∈ chunks.flatten, p.id ≠ b) : Like b (.releasing chunks) .complete

/-- What two instances hold for `b` is the same, and the second one holds nothing else. -/
structure Inst.Like (b : BucketId IpAddr) (N : Names) (v v' : Inst IpAddr) : Prop where
  now : v'.now = v.now
  bucket : v'.store.buckets.get b = v.store.buckets.get b
  alone : ∀ b', b' ≠ b → v'.store.buckets.get b' = none
  refilling : ∀ n, v.store.refills.get b = some n → ∃ m, v'.store.refills.get b = some m ∧ N.same n m
  free : v.store.refills.get b = none → v'.store.refills.get b = none
  other : ∀ b' n, b' ≠ b → v.store.refills.get b' = some n → N.other n
  worker : v.worker.Like b v'.worker

namespace Sys

/-- The system `s'`, where all calls are for `b`, shows of `b` what `s` shows of it. -/
structure Like [ToString IpAddr] (b : BucketId IpAddr) (N : Names) (s s' : Sys ι IpAddr) : Prop where
  insts : ∀ i, Inst.Like b N (s.insts i) (s'.insts i)
  tasks : ∀ t, Task.Like b N (s.tasks t) (s'.tasks t)
  server : s.ledger.server.Shares b.toKey s'.ledger.server
  answers : s'.answers = s.answers.filter fun a => a.id = b
  paired : Relator.BiUnique N.same
  same : ∀ n m, N.same n m → n < s.nextNotify ∧ m < s'.nextNotify ∧ s'.calls m = s.calls n ∧ ¬ N.other n
  other : ∀ n, N.other n → n < s.nextNotify
  uncalled : ∀ n, s.nextNotify ≤ n → s.calls n = 0
  uncalled' : ∀ n, s'.nextNotify ≤ n → s'.calls n = 0

end Sys

section Workers

variable {b b' : BucketId IpAddr} {w' : Worker IpAddr} {c : Nat}

/-- One removal of a pass: it is the one of `b`, which ends the pass of the lonely worker, or is not noticed. -/
theorem Worker.Like.sweep {chunks : List (List (BucketId IpAddr))} {rest : List (BucketId IpAddr)}
    (h : Worker.Like b (.sweeping chunks) w') (hc : chunks[c]? = some (b' :: rest)) :
    (b' = b ∧ w' = .sweeping [[b]] ∧ Worker.Like b (.sweeping (chunks.set c rest)) .idle) ∨
    (b' ≠ b ∧ Worker.Like b (.sweeping (chunks.set c rest)) w') := by
  have hperm := Chunks.perm_flatten_set hc
  cases h with
  | passing hb =>
      rw [hperm.mem_iff, List.mem_cons, not_or] at hb
      exact .inr ⟨Ne.symm hb.1, .passing hb.2⟩
  | sweeping hcount =>
      rw [hperm.count_eq, List.count_cons] at hcount
      by_cases hid : b' = b
      · subst hid
        exact .inl ⟨rfl, rfl, .passing (List.count_eq_zero.mp (by simpa using hcount))⟩
      · exact .inr ⟨hid, .sweeping (by simpa [hid] using hcount)⟩

theorem Worker.Like.release {chunks : List (List (Snapshot IpAddr))} {p : Snapshot IpAddr} {rest : List (Snapshot IpAddr)}
    (h : Worker.Like b (.releasing chunks) w') (hc : chunks[c]? = some (p :: rest)) :
    (p.id = b ∧ ∃ p', p.Like p' ∧ w' = .releasing [[p']] ∧ Worker.Like b (.releasing (chunks.set c rest)) .complete) ∨
    (p.id ≠ b ∧ Worker.Like b (.releasing (chunks.set c rest)) w') := by
  have hperm := Chunks.perm_flatten_set hc
  cases h with
  | releasing hp hlike =>
      have hfilter := hperm.filter fun p => p.id = b
      rw [hp] at hfilter
      have hrest := List.singleton_perm.mp hfilter
      by_cases hid : p.id = b
      · simp only [List.filter_cons, hid, decide_true, if_true, List.cons.injEq] at hrest
        obtain ⟨rfl, hnil⟩ := hrest
        refine .inl ⟨hid, _, hlike, rfl, .released fun q hq hqid => ?_⟩
        exact absurd (List.mem_filter.mpr ⟨hq, by simpa using hqid⟩) (hnil ▸ List.not_mem_nil)
      · simp only [List.filter_cons, hid, decide_false, Bool.false_eq_true, if_false] at hrest
        exact .inr ⟨hid, .releasing hrest.symm hlike⟩
  | released hp =>
      exact .inr ⟨hp p (hperm.mem_iff.mpr List.mem_cons_self), .released fun q hq =>
        hp q (hperm.mem_iff.mpr (List.mem_cons_of_mem _ hq))⟩

end Workers

/-! ## Pieces of a step -/

section Instances

variable {b : BucketId IpAddr} {N N' : Names} {v v' : Inst IpAddr}

theorem Inst.Like.mono (hN : N.Extends N') (h : v.Like b N v') : v.Like b N' v' := by
  refine ⟨h.now, h.bucket, h.alone, fun n hn => ?_, h.free, fun b' n hb hn => hN.other n (h.other b' n hb hn), h.worker⟩
  obtain ⟨m, hm, hsame⟩ := h.refilling n hn
  exact ⟨m, hm, hN.same n m hsame⟩

theorem Inst.Like.elapse (h : v.Like b N v') (ns : Nat) :
    Inst.Like b N { v with now := v.now + ns } { v' with now := v'.now + ns } :=
  ⟨congrArg (· + ns) h.now, h.bucket, h.alone, h.refilling, h.free, h.other, h.worker⟩

theorem Inst.Like.check (h : v.Like b N v') : v'.store.check v'.now b = v.store.check v.now b := by
  simp only [Store.check, h.bucket, h.now]

theorem Inst.Like.buckets (h : v.Like b N v') {m m' : DashMap (BucketId IpAddr) Bucket} (hm : m'.get b = m.get b)
    (halone : ∀ b', b' ≠ b → m'.get b' = none) :
    Inst.Like b N { v with store := { v.store with buckets := m } } { v' with store := { v'.store with buckets := m' } } :=
  ⟨h.now, hm, halone, h.refilling, h.free, h.other, h.worker⟩

theorem Inst.Like.modify (h : v.Like b N v') (f : Bucket → Bucket) :
    Inst.Like b N { v with store := { v.store with buckets := v.store.buckets.modify b f } }
      { v' with store := { v'.store with buckets := v'.store.buckets.modify b f } } := by
  apply h.buckets
  · rw [DashMap.get_modify_self, DashMap.get_modify_self, h.bucket]
  · intro b' hb
    rw [DashMap.get_modify_ne _ _ hb, h.alone b' hb]

theorem Inst.Like.insert (h : v.Like b N v') (bk : Bucket) (g g' n n' : Nat) :
    Inst.Like b N { v with
        store := { v.store with buckets := v.store.buckets.insert b bk }
        origin := Function.update v.origin b g, version := Function.update v.version b n }
      { v' with
        store := { v'.store with buckets := v'.store.buckets.insert b bk }
        origin := Function.update v'.origin b g', version := Function.update v'.version b n' } := by
  refine ⟨h.now, ?_, fun b' hb => ?_, h.refilling, h.free, h.other, h.worker⟩
  · rw [DashMap.get_insert_self, DashMap.get_insert_self]
  · rw [DashMap.get_insert_ne _ _ hb, h.alone b' hb]

theorem Inst.Like.remove (h : v.Like b N v') :
    Inst.Like b N { v with store := v.store.removeBucket b } { v' with store := v'.store.removeBucket b } := by
  apply h.buckets
  · rw [DashMap.get_remove_self, DashMap.get_remove_self]
  · intro b' hb
    rw [DashMap.get_remove_ne _ hb, h.alone b' hb]

theorem Inst.Like.claim (h : v.Like b N v') {n m : Notify} (hsame : N.same n m) :
    Inst.Like b N { v with store := v.store.claim b n } { v' with store := v'.store.claim b m } := by
  refine ⟨h.now, h.bucket, h.alone, fun n' hn => ?_, fun hn => ?_, fun b' n' hb hn => ?_, h.worker⟩
  · obtain rfl : n = n' := by simpa [Store.claim] using hn
    exact ⟨m, by simp [Store.claim], hsame⟩
  · simp [Store.claim] at hn
  · exact h.other b' n' hb (by simpa [Store.claim, hb] using hn)

theorem Inst.Like.unclaim (h : v.Like b N v') :
    Inst.Like b N { v with store := v.store.unclaim b } { v' with store := v'.store.unclaim b } := by
  refine ⟨h.now, h.bucket, h.alone, fun n hn => ?_, fun _ => ?_, fun b' n hb hn => ?_, h.worker⟩
  · simp [Store.unclaim] at hn
  · simp [Store.unclaim]
  · exact h.other b' n hb (by simpa [Store.unclaim, hb] using hn)

theorem Inst.Like.plan (h : v.Like b N v') {w w' : Worker IpAddr} (hw : w.Like b w') :
    Inst.Like b N { v with worker := w } { v' with worker := w' } :=
  ⟨h.now, h.bucket, h.alone, h.refilling, h.free, h.other, hw⟩

theorem Inst.Like.other_plan (h : v.Like b N v') {w : Worker IpAddr} (hw : w.Like b v'.worker) :
    Inst.Like b N { v with worker := w } v' :=
  ⟨h.now, h.bucket, h.alone, h.refilling, h.free, h.other, hw⟩

variable {b' : BucketId IpAddr}

theorem Inst.Like.other_buckets (h : v.Like b N v') {w : Inst IpAddr} (hnow : w.now = v.now)
    (hm : w.store.buckets.get b = v.store.buckets.get b) (hrefills : w.store.refills = v.store.refills)
    (hworker : w.worker = v.worker) : w.Like b N v' := by
  refine ⟨h.now.trans hnow.symm, h.bucket.trans hm.symm, h.alone, ?_, ?_, ?_, ?_⟩
  · rw [hrefills]
    exact h.refilling
  · rw [hrefills]
    exact h.free
  · rw [hrefills]
    exact h.other
  · rw [hworker]
    exact h.worker

theorem Inst.Like.other_modify (h : v.Like b N v') (hb : b' ≠ b) (f : Bucket → Bucket) :
    Inst.Like b N { v with store := { v.store with buckets := v.store.buckets.modify b' f } } v' :=
  h.other_buckets rfl (DashMap.get_modify_ne _ f hb.symm) rfl rfl

theorem Inst.Like.other_insert (h : v.Like b N v') (hb : b' ≠ b) (bk : Bucket) (g n : Nat) :
    Inst.Like b N { v with
      store := { v.store with buckets := v.store.buckets.insert b' bk }
      origin := Function.update v.origin b' g, version := Function.update v.version b' n } v' :=
  h.other_buckets rfl (DashMap.get_insert_ne _ bk hb.symm) rfl rfl

theorem Inst.Like.other_remove (h : v.Like b N v') (hb : b' ≠ b) :
    Inst.Like b N { v with store := v.store.removeBucket b' } v' :=
  h.other_buckets rfl (DashMap.get_remove_ne _ hb.symm) rfl rfl

theorem Inst.Like.other_claim (h : v.Like b N v') (hb : b' ≠ b) {n : Notify} (hn : N.other n) :
    Inst.Like b N { v with store := v.store.claim b' n } v' := by
  refine ⟨h.now, h.bucket, h.alone, fun n' hn' => ?_, fun hn' => ?_, fun b'' n' hb' hn' => ?_, h.worker⟩
  · exact h.refilling n' (by simpa [Store.claim, hb.symm] using hn')
  · exact h.free (by simpa [Store.claim, hb.symm] using hn')
  · rcases DashMap.get_insert_eq_some.mp hn' with ⟨-, rfl⟩ | ⟨-, hold⟩
    · exact hn
    · exact h.other b'' n' hb' hold

theorem Inst.Like.other_unclaim (h : v.Like b N v') (hb : b' ≠ b) :
    Inst.Like b N { v with store := v.store.unclaim b' } v' := by
  refine ⟨h.now, h.bucket, h.alone, fun n hn => ?_, fun hn => ?_, fun b'' n hb' hn => ?_, h.worker⟩
  · exact h.refilling n (by simpa [Store.unclaim, hb.symm] using hn)
  · exact h.free (by simpa [Store.unclaim, hb.symm] using hn)
  · exact h.other b'' n hb' (DashMap.get_remove_eq_some.mp hn).2

end Instances

namespace Sys

section Pieces

variable [ToString IpAddr] {b : BucketId IpAddr} {N : Names} {s s' : Sys ι IpAddr} {t : Nat} {i : ι}
  {k : Task ι IpAddr} {pc pc' : Pc IpAddr}
  {v v' : Inst IpAddr} {L L' : Ledger ι IpAddr} {res : Except (StoreError IpAddr) Nat}

theorem Like.goto (h : s.Like b N s') (hpc : pc.Like N pc') (pc₀ pc₁ : Pc IpAddr) :
    (s.goto t ⟨i, b, pc₀⟩ pc).Like b N (s'.goto t ⟨i, b, pc₁⟩ pc') :=
  ⟨h.insts, update_both h.tasks (.own hpc), h.server, h.answers, h.paired, h.same, h.other, h.uncalled, h.uncalled'⟩

theorem Like.answer (h : s.Like b N s') (pc₀ pc₁ : Pc IpAddr) :
    (s.answer t ⟨i, b, pc₀⟩ res).Like b N (s'.answer t ⟨i, b, pc₁⟩ res) := by
  have hgoto : (s.goto t ⟨i, b, pc₀⟩ (.done res)).Like b N (s'.goto t ⟨i, b, pc₁⟩ (.done res)) := h.goto .done pc₀ pc₁
  refine ⟨hgoto.insts, hgoto.tasks, hgoto.server, ?_, hgoto.paired, hgoto.same, hgoto.other, hgoto.uncalled, hgoto.uncalled'⟩
  simp only [Sys.answer, List.filter_append, h.answers]
  simp

theorem Like.resume (h : s.Like b N s') (pc₀ pc₁ : Pc IpAddr) (res : Except (StoreError IpAddr) Unit) :
    (s.resume t ⟨i, b, pc₀⟩ res).Like b N (s'.resume t ⟨i, b, pc₁⟩ res) := by
  cases res with
  | ok => exact h.goto .take pc₀ pc₁
  | error e => exact h.answer pc₀ pc₁

theorem Like.setLedger (h : s.Like b N s') (hL : L.server.Shares b.toKey L'.server) :
    Sys.Like b N { s with ledger := L } { s' with ledger := L' } :=
  ⟨h.insts, h.tasks, hL, h.answers, h.paired, h.same, h.other, h.uncalled, h.uncalled'⟩

theorem Like.other_goto (h : s.Like b N s') (hid : k.id ≠ b) (hk : s'.tasks t = none)
    (hpc : ∀ n res, pc = .notify n res → N.other n) : (s.goto t k pc).Like b N s' :=
  ⟨h.insts, update_left h.tasks (hk ▸ .foreign hid hpc), h.server, h.answers, h.paired, h.same, h.other, h.uncalled, h.uncalled'⟩

theorem Like.other_ledger (h : s.Like b N s') (hL : L.server.Shares b.toKey s'.ledger.server) :
    Sys.Like b N { s with ledger := L } s' :=
  ⟨h.insts, h.tasks, hL, h.answers, h.paired, h.same, h.other, h.uncalled, h.uncalled'⟩

theorem Like.other_call (h : s.Like b N s') {n : Notify} (hn : N.other n) :
    Sys.Like b N { s with calls := Function.update s.calls n (s.calls n + 1) } s' := by
  refine ⟨h.insts, h.tasks, h.server, h.answers, h.paired, fun n' m hsame => ?_, h.other, fun n' hn' => ?_, h.uncalled'⟩
  · obtain ⟨hn', hm, hcalls, hother⟩ := h.same n' m hsame
    have hne : n' ≠ n := by
      rintro rfl
      exact hother hn
    exact ⟨hn', hm, by simpa [hne] using hcalls, hother⟩
  · have hne : n' ≠ n := Nat.ne_of_gt (Nat.lt_of_lt_of_le (h.other n hn) hn')
    simpa [hne] using h.uncalled n' hn'

theorem Like.call (h : s.Like b N s') {n m : Notify} (hsame : N.same n m) :
    Sys.Like b N { s with calls := Function.update s.calls n (s.calls n + 1) }
      { s' with calls := Function.update s'.calls m (s'.calls m + 1) } := by
  obtain ⟨hn, hm, -, -⟩ := h.same n m hsame
  refine ⟨h.insts, h.tasks, h.server, h.answers, h.paired, fun n' m' hsame' => ?_, h.other, fun n' hn' => ?_,
    fun m' hm' => ?_⟩
  · obtain ⟨hn', hm', hcalls, hother⟩ := h.same n' m' hsame'
    refine ⟨hn', hm', ?_, hother⟩
    by_cases hname : n' = n
    · subst hname
      obtain rfl := h.paired.2 hsame hsame'
      simp [hcalls]
    · have hname' : m' ≠ m := by
        rintro rfl
        exact hname (h.paired.1 hsame' hsame)
      simp [hname, hname', hcalls]
  · have hne : n' ≠ n := Nat.ne_of_gt (Nat.lt_of_lt_of_le hn hn')
    simpa [hne] using h.uncalled n' hn'
  · have hne : m' ≠ m := Nat.ne_of_gt (Nat.lt_of_lt_of_le hm hm')
    simpa [hne] using h.uncalled' m' hm'

theorem Like.other_answer (h : s.Like b N s') (hid : k.id ≠ b) (hk : s'.tasks t = none) :
    (s.answer t k res).Like b N s' := by
  have hgoto : (s.goto t k (.done res)).Like b N s' := h.other_goto hid hk (by rintro _ _ ⟨⟩)
  refine ⟨hgoto.insts, hgoto.tasks, hgoto.server, ?_, hgoto.paired, hgoto.same, hgoto.other, hgoto.uncalled, hgoto.uncalled'⟩
  simp only [Sys.answer, List.filter_append, h.answers]
  simp [hid]

theorem Like.name (h : s.Like b N s') : ∃ N', N.Extends N' ∧ N'.same s.nextNotify s'.nextNotify ∧
    Sys.Like b N' { s with nextNotify := s.nextNotify + 1 } { s' with nextNotify := s'.nextNotify + 1 } := by
  have hleft (m : Notify) : ¬ N.same s.nextNotify m := fun hm => absurd (h.same _ _ hm).1 (Nat.lt_irrefl _)
  have hright (n : Notify) : ¬ N.same n s'.nextNotify := fun hn => absurd (h.same _ _ hn).2.1 (Nat.lt_irrefl _)
  have hN : N.Extends { same := Pairing.join N.same s.nextNotify s'.nextNotify, other := N.other } :=
    ⟨fun _ _ hnm => .inl hnm, fun _ hn => hn⟩
  refine ⟨_, hN, join_self .., fun i => (h.insts i).mono hN, fun t => (h.tasks t).mono hN, h.server, h.answers,
    biUnique_join h.paired hleft hright, ?_, fun n hn => Nat.lt_succ_of_lt (h.other n hn),
    fun n hn => h.uncalled n (Nat.le_of_succ_le hn), fun n hn => h.uncalled' n (Nat.le_of_succ_le hn)⟩
  rintro n m (hnm | ⟨rfl, rfl⟩)
  · obtain ⟨hn, hm, hrest⟩ := h.same n m hnm
    exact ⟨Nat.lt_succ_of_lt hn, Nat.lt_succ_of_lt hm, hrest⟩
  · refine ⟨Nat.lt_succ_self _, Nat.lt_succ_self _, ?_, fun hn => absurd (h.other _ hn) (Nat.lt_irrefl _)⟩
    exact (h.uncalled' _ (Nat.le_refl _)).trans (h.uncalled _ (Nat.le_refl _)).symm

theorem Like.other_name (h : s.Like b N s') : ∃ N', N.Extends N' ∧ N'.other s.nextNotify ∧
    Sys.Like b N' { s with nextNotify := s.nextNotify + 1 } s' := by
  have hN : N.Extends { same := N.same, other := fun n => N.other n ∨ n = s.nextNotify } :=
    ⟨fun _ _ hnm => hnm, fun _ hn => .inl hn⟩
  refine ⟨_, hN, .inr rfl, fun i => (h.insts i).mono hN, fun t => (h.tasks t).mono hN, h.server, h.answers, h.paired,
    fun n m hnm => ?_, ?_, fun n hn => h.uncalled n (Nat.le_of_succ_le hn), h.uncalled'⟩
  · obtain ⟨hn, hm, hcalls, hother⟩ := h.same n m hnm
    refine ⟨Nat.lt_succ_of_lt hn, hm, hcalls, ?_⟩
    rintro (hold | rfl)
    · exact hother hold
    · exact absurd hn (Nat.lt_irrefl _)
  · rintro n (hold | rfl)
    · exact Nat.lt_succ_of_lt (h.other n hold)
    · exact Nat.lt_succ_self _

theorem Like.other_resume (h : s.Like b N s') (hid : k.id ≠ b) (hk : s'.tasks t = none)
    (res : Except (StoreError IpAddr) Unit) : (s.resume t k res).Like b N s' := by
  cases res with
  | ok => exact h.other_goto hid hk (by rintro _ _ ⟨⟩)
  | error e => exact h.other_answer hid hk

variable [DecidableEq ι]

theorem Like.setInst (h : s.Like b N s') (hv : v.Like b N v') (i : ι) :
    (s.setInst i v).Like b N (s'.setInst i v') :=
  ⟨update_both h.insts hv, h.tasks, h.server, h.answers, h.paired, h.same, h.other, h.uncalled, h.uncalled'⟩

theorem Like.other_inst (h : s.Like b N s') (hv : v.Like b N (s'.insts i)) : (s.setInst i v).Like b N s' :=
  ⟨update_left h.insts hv, h.tasks, h.server, h.answers, h.paired, h.same, h.other, h.uncalled, h.uncalled'⟩

end Pieces

end Sys

end ThatLimit
