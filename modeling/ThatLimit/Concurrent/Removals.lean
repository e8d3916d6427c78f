import ThatLimit.Concurrent.Steps
/-!
# Removals from the buckets map

A call and a cleanup tick both look at a bucket, find it expired, and remove it later
by its key. Expired buckets stay expired, so the removal takes out an expired bucket
unless a new one has been put under the key in between.
-/

namespace ThatLimit

open Transition

variable {ι IpAddr : Type}

/-- The keys a cleanup tick has found expired and has not removed yet. -/
def Worker.doomed : Worker IpAddr → List (BucketId IpAddr)
  | .collecting _ found => found
  | .sweeping chunks => chunks.flatten
  | _ => []

namespace Sys

variable {s s₁ s' : Sys ι IpAddr}

/-- The removal of `b` is decided: by a call that has seen the bucket expired, or by the worker. -/
def Doomed (s : Sys ι IpAddr) (i : ι) (b : BucketId IpAddr) : Prop :=
  (∃ t k, s.tasks t = some k ∧ k.inst = i ∧ k.id = b ∧ k.pc = .expired) ∨ b ∈ (s.insts i).worker.doomed

theorem doomed_goto {t : Nat} {k : Task ι IpAddr} {pc : Pc IpAddr} {i : ι} {b : BucketId IpAddr}
    (h : (s.goto t k pc).Doomed i b) : s.Doomed i b ∨ k.inst = i ∧ k.id = b ∧ pc = .expired := by
  rcases h with ⟨t', k', hk', hi, hb, hpc⟩ | hw
  · rcases goto_tasks_cases hk' with ⟨rfl, rfl⟩ | ⟨-, hold⟩
    · exact .inr ⟨hi, hb, hpc⟩
    · exact .inl (.inl ⟨t', k', hold, hi, hb, hpc⟩)
  · exact .inl (.inr hw)

variable [DecidableEq IpAddr]

/-- There is no bucket under `b` or it is expired. -/
def Gone (s : Sys ι IpAddr) (i : ι) (b : BucketId IpAddr) : Prop :=
  ∀ bk, (s.insts i).store.buckets.get b = some bk → bk.isExpired (s.insts i).now = true

/-- No removal that is still to come would take out a bucket that is not expired. -/
def Harmless (s : Sys ι IpAddr) : Prop := ∀ i b, s.Doomed i b → s.Gone i b

/-- A bucket that is inserted with time left is not put under a key whose removal is decided. -/
def insertsApart (s : Sys ι IpAddr) : Action ι IpAddr → Prop
  | .run t => ∀ k n g leased ttl window, s.tasks t = some k → k.pc = .leased n g leased ttl window →
      0 < leased → 0 < ttl → ¬ s.Doomed k.inst k.id
  | _ => True

/-- Nothing is doomed and no bucket is brought back. -/
structure Spares (s s' : Sys ι IpAddr) : Prop where
  doomed : ∀ i b, s'.Doomed i b → s.Doomed i b
  gone : ∀ i b, s.Gone i b → s'.Gone i b

theorem Spares.refl : s.Spares s := ⟨fun _ _ => id, fun _ _ => id⟩

theorem Spares.trans (h : s.Spares s₁) (h' : s₁.Spares s') : s.Spares s' :=
  ⟨fun i b hd => h.doomed i b (h'.doomed i b hd), fun i b hg => h'.gone i b (h.gone i b hg)⟩

theorem Spares.harmless (h : s.Spares s') (hs : s.Harmless) : s'.Harmless :=
  fun i b hd => h.gone i b (hs i b (h.doomed i b hd))

theorem spares_goto (s : Sys ι IpAddr) (t : Nat) (k : Task ι IpAddr) {pc : Pc IpAddr} (hpc : pc ≠ .expired) :
    s.Spares (s.goto t k pc) where
  doomed := fun _ _ hd => (doomed_goto hd).resolve_right fun h => hpc h.2.2
  gone := fun _ _ => id

theorem spares_answer (s : Sys ι IpAddr) (t : Nat) (k : Task ι IpAddr) (res) : s.Spares (s.answer t k res) := by
  have h : s.Spares (s.goto t k (.done res)) := spares_goto s t k (by simp)
  exact ⟨h.doomed, h.gone⟩

theorem spares_resume (s : Sys ι IpAddr) (t : Nat) (k : Task ι IpAddr) (res) : s.Spares (s.resume t k res) := by
  cases res with
  | ok _ => exact spares_goto s t k (by simp)
  | error e => exact spares_answer s t k (.error e)

theorem gone_of_take {v : Inst IpAddr} {b : BucketId IpAddr} (h : v.store.take v.now b = none) :
    ∀ bk, v.store.buckets.get b = some bk → bk.isExpired v.now = true := by
  intro bk hb
  by_contra hlive
  simp [Store.take, hb, hlive] at h

variable [DecidableEq ι]

theorem spares_update {i : ι} {v : Inst IpAddr} (hinsts : s'.insts = Function.update s.insts i v)
    (hgone : ∀ b bk, v.store.buckets.get b = some bk →
      ∃ bk₀, (s.insts i).store.buckets.get b = some bk₀ ∧ bk.expiresAt = bk₀.expiresAt)
    (hnow : (s.insts i).now ≤ v.now := by exact Nat.le_refl _)
    (hworker : v.worker.doomed ⊆ (s.insts i).worker.doomed := by exact List.Subset.refl _)
    (htasks : s'.tasks = s.tasks := by rfl) : s.Spares s' := by
  constructor
  · intro j b hd
    rw [Doomed, htasks, hinsts] at hd
    refine hd.imp_right fun hw => ?_
    by_cases hj : j = i
    · subst hj
      rw [Function.update_self] at hw
      exact hworker hw
    · rwa [Function.update_of_ne hj] at hw
  · intro j b hg bk hb
    rw [hinsts] at hb ⊢
    by_cases hj : j = i
    · subst hj
      rw [Function.update_self] at hb ⊢
      obtain ⟨bk₀, hb₀, hexp⟩ := hgone b bk hb
      have hold := hg bk₀ hb₀
      rw [Bucket.isExpired_iff] at hold ⊢
      omega
    · rw [Function.update_of_ne hj] at hb ⊢
      exact hg bk hb

theorem spares_modify (s : Sys ι IpAddr) (i : ι) (b : BucketId IpAddr) {f : Bucket → Bucket}
    (hf : ∀ bk, (f bk).expiresAt = bk.expiresAt) : s.Spares (s.modifyBucket i b f) := by
  apply spares_update rfl
  intro b' bk hb'
  obtain ⟨bk₀, hb₀, ⟨-, rfl⟩ | ⟨-, rfl⟩⟩ := DashMap.get_modify_eq_some.mp hb'
  · exact ⟨bk₀, hb₀, hf bk₀⟩
  · exact ⟨bk₀, hb₀, rfl⟩

theorem gone_remove (v : Inst IpAddr) (b : BucketId IpAddr) (b' : BucketId IpAddr) (bk : Bucket)
    (hb' : (v.store.removeBucket b).buckets.get b' = some bk) :
    ∃ bk₀, v.store.buckets.get b' = some bk₀ ∧ bk.expiresAt = bk₀.expiresAt :=
  ⟨bk, (DashMap.get_remove_eq_some.mp hb').2, rfl⟩

theorem Harmless.plan {i : ι} {a : Action ι IpAddr} {worker : Worker IpAddr} (h : s.Harmless)
    (hp : s.Plans i a worker) : (s.setWorker i worker).Harmless := by
  have hupdate (hsub : worker.doomed ⊆ (s.insts i).worker.doomed) : (s.setWorker i worker).Harmless :=
    Spares.harmless (spares_update rfl (fun _ bk hb => ⟨bk, hb, rfl⟩) (Nat.le_refl _) hsub) h
  cases hp with
  | @collect b todo found bk hw hb hexp =>
      -- the new key is that of a bucket just seen expired
      intro j b' hd
      by_cases hj : j = i
      · subst hj
        have hgone : s.Gone j b' → (s.setWorker j (.collecting todo (found ++ [b]))).Gone j b' := by
          intro hg bk' hb'
          simp only [setWorker_eq, setInst_insts_self] at hb' ⊢
          exact hg bk' hb'
        apply hgone
        rcases hd with htask | hw'
        · exact h j b' (.inl htask)
        · simp only [setWorker_eq, setInst_insts_self, Worker.doomed, List.mem_append, List.mem_singleton] at hw'
          rcases hw' with hfound | rfl
          · exact h j b' (.inr (by rw [hw]; exact hfound))
          · intro bk' hb'
            obtain rfl := Option.some.inj (hb.symm.trans hb')
            exact hexp
      · have hd' : s.Doomed j b' := by simpa [Doomed, hj] using hd
        intro bk' hb'
        simp only [setWorker_eq, setInst_insts_ne hj] at hb' ⊢
        exact h j b' hd' bk' hb'
  | keep hw hlive => exact hupdate (by rw [hw]; exact List.Subset.refl _)
  | collected hw =>
      apply hupdate
      show (Chunks.chunks chunkSize _).flatten ⊆ _
      rw [hw, Chunks.flatten_chunks (by decide)]
      exact List.Subset.refl _
  | _ => exact hupdate (List.nil_subset _)

theorem Harmless.insert {t n g leased ttl : Nat} {k : Task ι IpAddr} {window : Int} (h : s.Harmless)
    (hapart : 0 < ttl → ¬ s.Doomed k.inst k.id) :
    ((s.insertBucket k.inst k.id g (.new (s.insts k.inst).now leased ttl window)).goto t k
      (.refilled n (.ok ()))).Harmless := by
  intro i b hd
  have hd' : s.Doomed i b := by
    rcases (doomed_goto hd).resolve_right (by simp) with htask | hw
    · exact .inl htask
    · right
      by_cases hi : i = k.inst
      · subst hi
        simpa [insertBucket] using hw
      · simpa [insertBucket, hi] using hw
  intro bk hb
  by_cases hi : i = k.inst
  · subst hi
    by_cases hbk : b = k.id
    · subst hbk
      have hnew : bk = .new (s.insts k.inst).now leased ttl window := by
        simpa [insertBucket] using hb.symm
      have hzero : ttl = 0 := Nat.eq_zero_of_not_pos fun hpos => hapart hpos hd'
      simp [hnew, Bucket.new, insertBucket, hzero]
    · have hold : (s.insts k.inst).store.buckets.get b = some bk := by
        simpa [insertBucket, hbk] using hb
      simpa [insertBucket] using h k.inst b hd' bk hold
  · have hold : (s.insts i).store.buckets.get b = some bk := by
      simpa [insertBucket, hi] using hb
    simpa [insertBucket, hi] using h i b hd' bk hold

theorem none_of_update {j : ι} {v : Inst IpAddr} (hinsts : s'.insts = Function.update s.insts j v)
    (hv : ∀ b, v.store.buckets.get b = none → (s.insts j).store.buckets.get b = none) {i : ι} {b : BucketId IpAddr}
    (hnone : (s'.insts i).store.buckets.get b = none) : (s.insts i).store.buckets.get b = none := by
  rw [hinsts] at hnone
  by_cases hi : i = j
  · subst hi
    rw [Function.update_self] at hnone
    exact hv b hnone
  · rwa [Function.update_of_ne hi] at hnone

theorem removed_of_update {j : ι} {v : Inst IpAddr} {b' : BucketId IpAddr}
    (hinsts : s'.insts = Function.update s.insts j v) (hv : v.store = (s.insts j).store.removeBucket b') {i : ι}
    {b : BucketId IpAddr} {bk : Bucket} (hb : (s.insts i).store.buckets.get b = some bk)
    (hnone : (s'.insts i).store.buckets.get b = none) : i = j ∧ b = b' := by
  rw [hinsts] at hnone
  by_cases hi : i = j
  · subst hi
    refine ⟨rfl, ?_⟩
    by_contra hbb
    rw [Function.update_self, hv, Store.removeBucket, DashMap.get_remove_ne _ hbb, hb] at hnone
    cases hnone
  · rw [Function.update_of_ne hi, hb] at hnone
    cases hnone

variable [ToString IpAddr]

theorem Harmless.step {cfg : Config} {a : Action ι IpAddr} (h : s.Harmless) (hg : s.insertsApart a)
    (hs : Step cfg s a s') : s'.Harmless := by
  have hkeep (i : ι) (b : BucketId IpAddr) (bk : Bucket) (hb : (s.insts i).store.buckets.get b = some bk) :
      ∃ bk₀, (s.insts i).store.buckets.get b = some bk₀ ∧ bk.expiresAt = bk₀.expiresAt := ⟨bk, hb, rfl⟩
  have hcalls {s₁ : Sys ι IpAddr} (hinsts : s₁.insts = s.insts) (htasks : s₁.tasks = s.tasks) : s.Spares s₁ :=
    ⟨fun i b hd => by rwa [Doomed, hinsts, htasks] at hd, fun i b hgone => by rwa [Gone, hinsts]⟩
  cases hs with
  | spawn ht => exact (spares_goto s _ _ (by simp)).harmless h
  | @move t k pc hk hm =>
      cases hm with
      | expired hpc htake =>
          intro i b hd
          rcases doomed_goto hd with hd | ⟨rfl, rfl, -⟩
          · exact h i b hd
          · exact gone_of_take htake
      | _ => exact (spares_goto s _ _ (by simp)).harmless h
  | rejected hk hpc hc => exact (spares_answer ..).harmless h
  | @claim t k seen hk hpc hc =>
      have hset : s.Spares { s.setStore k.inst ((s.insts k.inst).store.claim k.id s.nextNotify) with
        nextNotify := s.nextNotify + 1 } := spares_update rfl (hkeep k.inst)
      exact (hset.trans (spares_goto _ _ _ (by simp))).harmless h
  | script hk hpc hc => exact ((hcalls (by rfl) (by rfl)).trans (spares_goto _ _ _ (by simp))).harmless h
  | unreachable hk hpc => exact (spares_goto s _ _ (by simp)).harmless h
  | refusedAbsent hk hpc hb => exact (spares_goto s _ _ (by simp)).harmless h
  | @refused t k n g ttl window bk hk hpc hb =>
      have hset : s.Spares (s.modifyBucket k.inst k.id Bucket.setExhausted) := spares_modify s _ _ fun _ => rfl
      exact (hset.trans (spares_goto _ _ _ (by simp))).harmless h
  | @insert t k n g leased ttl window hk hpc hpos =>
      exact h.insert fun httl => hg k n g leased ttl window hk hpc hpos httl
  | @unclaim t k n n' res hk hpc hc =>
      have hset : s.Spares (s.setStore k.inst ((s.insts k.inst).store.unclaim k.id)) :=
        spares_update rfl (hkeep k.inst)
      exact (hset.trans (spares_goto _ _ _ (by simp))).harmless h
  | @unclaimNone t k n res hk hpc hc =>
      have hset : s.Spares (s.setStore k.inst ((s.insts k.inst).store.unclaim k.id)) :=
        spares_update rfl (hkeep k.inst)
      exact (hset.trans (spares_resume ..)).harmless h
  | notify hk hpc => exact ((hcalls (by rfl) (by rfl)).trans (spares_resume ..)).harmless h
  | takeAbsent hk hpc hb => exact (spares_answer ..).harmless h
  | takeEmpty hk hpc hb hl ht =>
      exact ((spares_modify s _ _ fun bk => by simp).trans (spares_answer ..)).harmless h
  | @spend t k bk hk hpc hb hl ht =>
      have hset := spares_modify s k.inst k.id (f := fun bk => bk.consume.2) fun bk => by simp
      have hspend : s.Spares { s.modifyBucket k.inst k.id (fun bk => bk.consume.2) with
          ledger := s.ledger.spend ((s.insts k.inst).origin k.id) } := ⟨hset.doomed, hset.gone⟩
      exact (hspend.trans (spares_answer ..)).harmless h
  | @remove t k hk hpc =>
      have hset : s.Spares (s.setStore k.inst ((s.insts k.inst).store.removeBucket k.id)) :=
        spares_update rfl (gone_remove (s.insts k.inst) k.id)
      exact (hset.trans (spares_answer ..)).harmless h
  | cancel hk hc => exact (spares_goto s _ _ (by simp)).harmless h
  | orphan hk hpc => exact ((hcalls (by rfl) (by rfl)).trans (spares_goto _ _ _ (by simp))).harmless h
  | elapse => exact Spares.harmless (spares_update rfl (hkeep _) (Nat.le_add_right ..)) h
  | redisElapse => exact (hcalls rfl rfl).harmless h
  | tickNothing hw he => exact h
  | plan hp => exact h.plan hp
  | note hw hb ht hl =>
      exact Spares.harmless (spares_update rfl (hkeep _) (Nat.le_refl _) (List.nil_subset _)) h
  | @sweep i c b chunks rest hw hc =>
      refine Spares.harmless (spares_update rfl (gone_remove (s.insts i) b) (Nat.le_refl _) ?_) h
      rw [hw]
      intro b' hb'
      exact (Chunks.perm_flatten_set hc).mem_iff.mpr (List.mem_cons_of_mem _ hb')
  | release hw hc =>
      exact Spares.harmless (spares_update rfl (hkeep _) (Nat.le_refl _) (List.nil_subset _)) h

/-- Only the two removals take a bucket out of the map, and both have been decided before. -/
theorem doomed_of_removed {cfg : Config} {a : Action ι IpAddr} (hs : Step cfg s a s') {i : ι} {b : BucketId IpAddr}
    {bk : Bucket} (hb : (s.insts i).store.buckets.get b = some bk) (hnone : (s'.insts i).store.buckets.get b = none) :
    s.Doomed i b := by
  have hsame (hkept : (s.insts i).store.buckets.get b = none) : s.Doomed i b := by
    rw [hkept] at hb
    cases hb
  have hkept {s₁ : Sys ι IpAddr} {j : ι} {v : Inst IpAddr} (hinsts : s₁.insts = Function.update s.insts j v)
      (hbuckets : v.store.buckets = (s.insts j).store.buckets) (h : (s₁.insts i).store.buckets.get b = none) :
      s.Doomed i b := hsame (none_of_update hinsts (fun _ h' => hbuckets ▸ h') h)
  have hmodify (j : ι) (b' : BucketId IpAddr) (f : Bucket → Bucket)
      (h : ((s.modifyBucket j b' f).insts i).store.buckets.get b = none) : s.Doomed i b := by
    apply hsame
    apply none_of_update rfl _ h
    intro b'' h''
    exact DashMap.get_modify_eq_none.mp h''
  cases hs with
  | spawn ht => exact hsame hnone
  | move hk hm => exact hsame hnone
  | rejected hk hpc hc => exact hsame hnone
  | claim hk hpc hc => exact hkept rfl (by rfl) hnone
  | script hk hpc hc => exact hsame hnone
  | unreachable hk hpc => exact hsame hnone
  | refusedAbsent hk hpc hb' => exact hsame hnone
  | refused hk hpc hb' => exact hmodify _ _ _ hnone
  | @insert t k n g leased ttl window hk hpc hpos =>
      refine hsame (none_of_update rfl (fun b'' h'' => ?_) hnone)
      by_cases hbb : b'' = k.id
      · subst hbb
        cases (DashMap.get_insert_self ..).symm.trans h''
      · exact (DashMap.get_insert_ne _ _ hbb).symm.trans h''
  | unclaim hk hpc hc => exact hkept rfl (by rfl) hnone
  | @unclaimNone t k n res hk hpc hc =>
      have hset : ((s.setStore k.inst ((s.insts k.inst).store.unclaim k.id)).insts i).store.buckets.get b = none := by
        cases res with
        | ok _ => exact hnone
        | error e => exact hnone
      exact hkept rfl (by rfl) hset
  | @notify t k n res hk hpc =>
      apply hsame
      cases res with
      | ok _ => exact hnone
      | error e => exact hnone
  | takeAbsent hk hpc hb' => exact hsame hnone
  | takeEmpty hk hpc hb' hl ht => exact hmodify _ _ _ hnone
  | @spend t k bk' hk hpc hb' hl ht => exact hmodify k.inst k.id _ hnone
  | @remove t k hk hpc =>
      obtain ⟨rfl, rfl⟩ := removed_of_update rfl rfl hb hnone
      exact .inl ⟨t, k, hk, rfl, rfl, hpc⟩
  | cancel hk hc => exact hsame hnone
  | orphan hk hpc => exact hsame hnone
  | elapse => exact hkept rfl (by rfl) hnone
  | redisElapse => exact hsame hnone
  | tickNothing hw he => exact hsame hnone
  | plan hp => exact hkept rfl (by rfl) hnone
  | note hw hb' ht hl => exact hkept rfl (by rfl) hnone
  | @sweep i' c b' chunks rest hw hc =>
      obtain ⟨rfl, rfl⟩ := removed_of_update rfl rfl hb hnone
      right
      rw [hw]
      exact (Chunks.perm_flatten_set hc).mem_iff.mpr List.mem_cons_self
  | release hw hc => exact hkept rfl (by rfl) hnone

/-- A bucket with time left under a doomed key is there to be removed. -/
theorem insertsApart_of_harmless {cfg : Config} {a : Action ι IpAddr} (hnext : s.next cfg a = some s')
    (h : s'.Harmless) : s.insertsApart a := by
  cases a with
  | run t =>
      intro k n g leased ttl window hk hpc hleased httl hd
      have hsettle : s.next cfg (.run t) = some (s.settle t k n g leased ttl window) := by
        simp only [next, run, hk, hpc]
      rw [settle_pos s t k n g ttl window hleased, hnext] at hsettle
      obtain rfl := Option.some.inj hsettle
      have hd' : Doomed ((s.insertBucket k.inst k.id g (.new (s.insts k.inst).now leased ttl window)).goto t k
          (.refilled n (.ok ()))) k.inst k.id := by
        rcases hd with ⟨t', k', hk', hi, hb, hpc'⟩ | hw
        · left
          have ht : t' ≠ t := by
            intro ht
            subst ht
            obtain rfl := Option.some.inj (hk.symm.trans hk')
            rw [hpc] at hpc'
            cases hpc'
          exact ⟨t', k', (goto_tasks_ne ht _).trans hk', hi, hb, hpc'⟩
        · right
          simpa [insertBucket] using hw
      have hexp := h k.inst k.id hd' (.new (s.insts k.inst).now leased ttl window) (by simp [insertBucket])
      simp [Bucket.new, insertBucket] at hexp
      omega
  | _ => trivial

end Sys

/-- The next step of a task does not insert a bucket. -/
def insertsNothing (s : Sys ι IpAddr) : Action ι IpAddr → Bool
  | .run t => (s.tasks t).all fun k =>
      match k.pc with
      | .leased .. => false
      | _ => true
  | _ => true

theorem insertsApart_of_insertsNothing (s : Sys ι IpAddr) (a : Action ι IpAddr) (h : insertsNothing s a = true) :
    s.insertsApart a := by
  cases a with
  | run t =>
      intro k n g leased ttl window hk hpc
      simp [insertsNothing, hk, hpc] at h
  | _ => trivial

section Results

variable [DecidableEq ι] [DecidableEq IpAddr] [ToString IpAddr] {cfg : Config} {s : Sys ι IpAddr}

/-- As long as no bucket with time left is put under a key whose removal is decided, whatever leaves the
map is expired when it leaves; and from the first bucket put there on, a live bucket is about to leave. -/
theorem only_expired_buckets_leave (hs : ReachWhen (sys cfg) Sys.insertsApart s) {a : Action ι IpAddr}
    {s' : Sys ι IpAddr} (hnext : (sys cfg).next s a = some s') :
    (∀ i b bk, (s.insts i).store.buckets.get b = some bk → (s'.insts i).store.buckets.get b = none →
      bk.isExpired (s.insts i).now = true) ∧ (s'.Harmless ↔ s.insertsApart a) := by
  have hharmless : s.Harmless := by
    refine ReachWhen.invariant ?_ (fun s a s' _ h hg hnext => h.step hg (Sys.step_of_next hnext)) hs
    rintro _ ⟨clock, now, rfl⟩ i b hd bk hb
    simp [Sys.start, Store.new] at hb
  have hstep := Sys.step_of_next hnext
  refine ⟨fun i b bk hb hnone => ?_, Sys.insertsApart_of_harmless hnext, fun hg => hharmless.step hg hstep⟩
  have hdoomed : s.Doomed i b := Sys.doomed_of_removed hstep hb hnone
  exact hharmless i b hdoomed bk hb

/-- A cleanup tick removes the only bucket after its minute. -/
theorem expired_bucket_leaves_on_tick : ∃ s s' bk, Reach (sys .cleaning) s ∧
    (sys .cleaning).next s (.sweep () 0) = some s' ∧ (s.insts ()).store.buckets.get testUser = some bk ∧
    (s'.insts ()).store.buckets.get testUser = none ∧ bk.isExpired (s.insts ()).now = true := by
  -- up to the insertion nobody wants to remove anything
  have hbefore : ∃ s, (sys .cleaning).execWhen insertsNothing (testStart .cleaning)
      [.spawn 0 () testUser, .run 0, .run 0, .run 0, .eval 0 .answers, .run 0] = some s ∧
      ¬ s.Doomed () testUser ∧ (∀ k, s.tasks 0 = some k → k.id = testUser) ∧
      ∃ s₁, (sys .cleaning).next s (.run 0) = some s₁ ∧
      ∃ s₂ s₃, (sys .cleaning).execWhen insertsNothing s₁ [.run 0, .run 0, .run 0, .elapse () 61000000000,
        .tick () [testUser], .visit (), .visit ()] = some s₂ ∧ (sys .cleaning).next s₂ (.sweep () 0) = some s₃ ∧
        (s₂.insts ()).store.buckets.get testUser = some ⟨1999, 60000000000, 60000, false⟩ ∧
        (s₃.insts ()).store.buckets.get testUser = none := by
    refine ⟨_, rfl, ?_, by rintro k ⟨⟩; rfl, _, rfl, _, _, rfl, rfl, rfl, rfl⟩
    rintro (⟨t, k, hk, -, -, hpc⟩ | hw)
    · by_cases ht : t = 0
      · subst ht
        cases hk
        cases hpc
      · simp [testStart, Sys.start, Sys.goto, Sys.setInst, ht] at hk
    · exact absurd hw List.not_mem_nil
  obtain ⟨s, hs, hdoomed, hid, s₁, hinsert, s₂, s₃, hafter, hsweep, hb, hnone⟩ := hbefore
  have hapart : s.insertsApart (.run 0) := by
    intro k n g leased ttl window hk _ _ _
    rw [hid k hk]
    exact hdoomed
  have hr := (testStart_init _).execWhen_of insertsApart_of_insertsNothing _ hs
  have hr' := (hr.step hapart hinsert).execWhen_of insertsApart_of_insertsNothing _ hafter
  exact ⟨s₂, s₃, _, hr'.reach, hsweep, hb, hnone, (only_expired_buckets_leave hr' hsweep).1 () _ _ hb hnone⟩

/-- One request checks a bucket in its last moments and looks at it again when it has expired. Before it
removes it, another request opens the next window: the removal takes out 2000 tokens that are good for a
minute. -/
theorem fresh_bucket_leaves : ∃ s s', (sys .default).exec (testStart .default) [.spawn 0 () testUser, .run 0, .run 0,
      .run 0, .eval 0 .answers, .run 0, .run 0, .run 0, .run 0, .run 0, .spawn 1 () testUser, .run 1,
      .elapse () 61000000000, .redisElapse 61000, .run 1, .spawn 2 () testUser, .run 2, .run 2, .run 2,
      .eval 2 .answers, .run 2, .run 2] = some s ∧
    Reach (sys .default) s ∧ (sys .default).next s (.run 1) = some s' ∧
    (∃ bk, (s.insts ()).store.buckets.get testUser = some bk ∧ bk.tokens = 2000 ∧
      bk.isExpired (s.insts ()).now = false) ∧
    (s'.insts ()).store.buckets.get testUser = none := by
  have hrun : ((sys .default).exec (testStart .default) [.spawn 0 () testUser, .run 0, .run 0, .run 0,
      .eval 0 .answers, .run 0, .run 0, .run 0, .run 0, .run 0, .spawn 1 () testUser, .run 1, .elapse () 61000000000,
      .redisElapse 61000, .run 1, .spawn 2 () testUser, .run 2, .run 2, .run 2, .eval 2 .answers, .run 2,
      .run 2]).map (fun s => ((s.insts ()).store.buckets.get testUser, (s.insts ()).now,
        ((sys .default).next s (.run 1)).map fun s' => (s'.insts ()).store.buckets.get testUser)) =
      some (some ⟨2000, 121000000000, 121000, false⟩, 61000000000, some none) := rfl
  obtain ⟨s, hs, hseen⟩ := Option.map_eq_some_iff.mp hrun
  simp only [Prod.mk.injEq] at hseen
  obtain ⟨hb, hnow, hnext⟩ := hseen
  obtain ⟨s', hs', hnone⟩ := Option.map_eq_some_iff.mp hnext
  refine ⟨s, s', hs, Reach.exec (testStart_init _) _ hs, hs', ⟨_, hb, rfl, ?_⟩, hnone⟩
  rw [hnow]
  decide

end Results

end ThatLimit
