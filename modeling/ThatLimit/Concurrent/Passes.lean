import ThatLimit.Concurrent.Meter
import ThatLimit.Concurrent.Removals
import ThatLimit.Framework.Ranking
/-!
# The worker from tick to rest

The worker goes through a list of keys while the calls go on: buckets run empty, expire, are
removed or replaced under its hands. A pass comes to its end all the same, and the buckets that
had expired when a cleanup began have left the map by then.
-/

namespace ThatLimit

open Transition

variable {ι IpAddr : Type} [DecidableEq IpAddr]

/-- The keys a cleanup tick still has to look at or to remove. -/
def Worker.sought : Worker IpAddr → List (BucketId IpAddr)
  | .collecting todo found => todo ++ found
  | .sweeping chunks => chunks.flatten
  | _ => []

namespace Sys

/-- What is left under `b` has been there before the step, and time and tokens only ran down. -/
structure Wears (s s' : Sys ι IpAddr) (i : ι) (b : BucketId IpAddr) : Prop where
  version : (s'.insts i).version b = (s.insts i).version b
  origin : (s'.insts i).origin b = (s.insts i).origin b
  now : (s.insts i).now ≤ (s'.insts i).now
  bucket : ∀ bk', (s'.insts i).store.buckets.get b = some bk' →
    ∃ bk, (s.insts i).store.buckets.get b = some bk ∧ bk'.tokens ≤ bk.tokens ∧ bk'.expiresAt = bk.expiresAt

variable {cfg : Config} {s s' s₁ : Sys ι IpAddr} {i : ι} {b : BucketId IpAddr}

theorem Wears.same (hinsts : s'.insts = s.insts) : s.Wears s' i b := by
  refine ⟨by rw [hinsts], by rw [hinsts], by rw [hinsts], fun bk' hb' => ⟨bk', ?_, Nat.le_refl _, rfl⟩⟩
  rwa [hinsts] at hb'

theorem Wears.expired (h : s.Wears s' i b) (hs : s.Gone i b) : s'.Gone i b := by
  intro bk' hb'
  obtain ⟨bk, hb, -, hexp⟩ := h.bucket bk' hb'
  have hold := hs bk hb
  have hnow := h.now
  rw [Bucket.isExpired_iff] at hold ⊢
  omega

variable [DecidableEq ι]

theorem Wears.update {j : ι} {v : Inst IpAddr} (hinsts : s'.insts = Function.update s.insts j v)
    (hversion : v.version = (s.insts j).version) (horigin : v.origin = (s.insts j).origin) (hnow : (s.insts j).now ≤ v.now)
    (hbucket : ∀ bk', v.store.buckets.get b = some bk' → ∃ bk, (s.insts j).store.buckets.get b = some bk ∧
      bk'.tokens ≤ bk.tokens ∧ bk'.expiresAt = bk.expiresAt) : s.Wears s' i b := by
  have hinst : s'.insts i = if i = j then v else s.insts i := by
    rw [hinsts]
    exact Function.update_apply ..
  by_cases hj : i = j
  · subst hj
    rw [if_pos rfl] at hinst
    exact ⟨by rw [hinst, hversion], by rw [hinst, horigin], by rw [hinst]; exact hnow, by rw [hinst]; exact hbucket⟩
  · rw [if_neg hj] at hinst
    refine ⟨by rw [hinst], by rw [hinst], by rw [hinst], fun bk' hb' => ⟨bk', ?_, Nat.le_refl _, rfl⟩⟩
    rwa [hinst] at hb'

theorem Wears.modify {j : ι} {b' : BucketId IpAddr} {f : Bucket → Bucket}
    (hinsts : s'.insts = (s.modifyBucket j b' f).insts)
    (hf : ∀ bk, (f bk).tokens ≤ bk.tokens ∧ (f bk).expiresAt = bk.expiresAt) : s.Wears s' i b := by
  apply Wears.update hinsts rfl rfl (Nat.le_refl _)
  intro bk' hb'
  obtain ⟨bk, hb, ⟨-, rfl⟩ | ⟨-, rfl⟩⟩ := DashMap.get_modify_eq_some.mp hb'
  · exact ⟨bk, hb, hf bk⟩
  · exact ⟨bk, hb, Nat.le_refl _, rfl⟩

variable [ToString IpAddr]

theorem wears_step {a : Action ι IpAddr} (h : Step cfg s a s') (i : ι) (b : BucketId IpAddr) :
    s.Wears s' i b ∨ (s.insts i).version b < (s'.insts i).version b := by
  have hsame {j : ι} (bk' : Bucket) (hb' : (s.insts j).store.buckets.get b = some bk') :
      ∃ bk, (s.insts j).store.buckets.get b = some bk ∧ bk'.tokens ≤ bk.tokens ∧ bk'.expiresAt = bk.expiresAt :=
    ⟨bk', hb', Nat.le_refl _, rfl⟩
  have hremove {j : ι} {b' : BucketId IpAddr} (bk' : Bucket)
      (hb' : ((s.insts j).store.removeBucket b').buckets.get b = some bk') :
      ∃ bk, (s.insts j).store.buckets.get b = some bk ∧ bk'.tokens ≤ bk.tokens ∧ bk'.expiresAt = bk.expiresAt :=
    ⟨bk', (DashMap.get_remove_eq_some.mp hb').2, Nat.le_refl _, rfl⟩
  have hconsume (bk : Bucket) : bk.consume.2.tokens ≤ bk.tokens ∧ bk.consume.2.expiresAt = bk.expiresAt := by
    rw [Bucket.consume_snd]
    exact ⟨Nat.sub_le .., rfl⟩
  cases h with
  | spawn | move | rejected | script | unreachable | refusedAbsent | takeAbsent | cancel | orphan | redisElapse
  | tickNothing => exact .inl (.same rfl)
  | notify => exact .inl (.same (resume_insts ..))
  | claim | unclaim | plan | note | release => exact .inl (.update rfl rfl rfl (Nat.le_refl _) hsame)
  | unclaimNone => exact .inl (.update (resume_insts ..) rfl rfl (Nat.le_refl _) hsame)
  | elapse => exact .inl (.update rfl rfl rfl (Nat.le_add_right ..) hsame)
  | remove | sweep => exact .inl (.update rfl rfl rfl (Nat.le_refl _) hremove)
  | refused => exact .inl (.modify rfl fun bk => ⟨Nat.le_refl _, rfl⟩)
  | takeEmpty | spend => exact .inl (.modify rfl hconsume)
  | @insert t k n g leased ttl window hk hpc hpos =>
      have hinst {j : ι} (hj : j ≠ k.inst) : (s.insertBucket k.inst k.id g
          (.new (s.insts k.inst).now leased ttl window)).insts j = s.insts j := Function.update_of_ne hj ..
      by_cases hj : i = k.inst
      · subst hj
        by_cases hid : b = k.id
        · subst hid
          right
          simp [insertBucket]
        · left
          refine ⟨?_, ?_, ?_, fun bk' hb' => ?_⟩
          · simp [insertBucket, hid]
          · simp [insertBucket, hid]
          · simp [insertBucket]
          · simp only [goto_insts, insertBucket, setInst_insts_self] at hb'
            exact hsame bk' ((DashMap.get_insert_ne _ _ hid).symm.trans hb')
      · left
        refine ⟨?_, ?_, ?_, fun bk' hb' => hsame bk' ?_⟩
        · rw [goto_insts, hinst hj]
        · rw [goto_insts, hinst hj]
        · rw [goto_insts, hinst hj]
        · rwa [goto_insts, hinst hj] at hb'

/-- The steps of the worker of an instance. -/
inductive Works (s : Sys ι IpAddr) (i : ι) : Action ι IpAddr → Sys ι IpAddr → Prop
  | plan {a worker} (h : s.Plans i a worker) : Works s i a (s.setWorker i worker)
  | note {b todo found bk} (hw : (s.insts i).worker = .noting (b :: todo) found)
      (hb : (s.insts i).store.buckets.get b = some bk) :
      Works s i (.visit i)
        { s.setWorker i (.noting todo (found ++ [⟨b, bk.tokens, bk.window, (s.insts i).origin b⟩])) with
          ledger := s.ledger.note ((s.insts i).origin b) bk.tokens }
  | sweep {c b chunks rest} (hw : (s.insts i).worker = .sweeping chunks) (h : chunks[c]? = some (b :: rest)) :
      Works s i (.sweep i c) (s.setInst i { s.insts i with
        store := (s.insts i).store.removeBucket b, worker := .sweeping (chunks.set c rest) })
  | release {c link chunks p rest} (hw : (s.insts i).worker = .releasing chunks) (h : chunks[c]? = some (p :: rest)) :
      Works s i (.release i c link) { s.setWorker i (.releasing (chunks.set c rest)) with
        ledger := (s.ledger.release p.grant p.id p.tokens p.window).2 }

theorem works_step {a : Action ι IpAddr} (h : Step cfg s a s') (i : ι) :
    (s'.insts i).worker = (s.insts i).worker ∨ s.Works i a s' := by
  have hother {j : ι} {v : Inst IpAddr} (hinsts : s'.insts = Function.update s.insts j v) (hworks : s.Works j a s') :
      (s'.insts i).worker = (s.insts i).worker ∨ s.Works i a s' := by
    by_cases hj : i = j
    · exact .inr (hj ▸ hworks)
    · rw [hinsts, Function.update_of_ne hj]
      exact .inl rfl
  cases h with
  | spawn | move | rejected | script | unreachable | refusedAbsent | takeAbsent | cancel | orphan | redisElapse
  | tickNothing => exact .inl rfl
  | notify => exact .inl (by rw [resume_insts])
  | unclaimNone => exact .inl (worker_update (resume_insts ..) (by rfl) i)
  | claim | unclaim | elapse | remove | refused | takeEmpty | spend | insert => exact .inl (worker_update rfl (by rfl) i)
  | plan hp => exact hother rfl (.plan hp)
  | note hw hb => exact hother rfl (.note hw hb)
  | sweep hw hc => exact hother rfl (.sweep hw hc)
  | release hw hc => exact hother rfl (.release hw hc)

/-- The bucket that was under `b` at version `v` has been replaced or removed, or it has expired and
the worker is after it. -/
def Pursued (s : Sys ι IpAddr) (i : ι) (b : BucketId IpAddr) (v : Nat) : Prop :=
  v < (s.insts i).version b ∨ v = (s.insts i).version b ∧ ∀ bk, (s.insts i).store.buckets.get b = some bk →
    bk.isExpired (s.insts i).now = true ∧ b ∈ (s.insts i).worker.sought

theorem sought_works {a : Action ι IpAddr} (h : s.Works i a s') (hsought : b ∈ (s.insts i).worker.sought)
    (hgone : s.Gone i b) {bk : Bucket} (hb : (s.insts i).store.buckets.get b = some bk)
    (hb' : (s'.insts i).store.buckets.get b ≠ none) : b ∈ (s'.insts i).worker.sought := by
  cases h with
  | plan hp =>
      rw [setWorker_eq, setInst_insts_self]
      cases hp with
      | tick hw | shutdown hw | nothingHeld hw | skip hw | noted hw | noneNoted hw | unreachable hw | released hw
      | noneExpired hw => simp [hw, Worker.sought] at hsought
      | collect hw => grind [Worker.sought]
      | keep hw hlive =>
          simp only [hw, Worker.sought, List.cons_append, List.mem_cons] at hsought
          refine hsought.resolve_left ?_
          rintro rfl
          exact absurd (hlive bk hb) (by simp [hgone bk hb])
      | collected hw =>
          simp only [hw, Worker.sought, List.nil_append] at hsought
          rwa [Worker.sought, Chunks.flatten_chunks (by decide)]
      | @swept chunks hw hall =>
          simp only [hw, Worker.sought, List.mem_flatten] at hsought
          obtain ⟨chunk, hchunk, hmem⟩ := hsought
          rw [List.isEmpty_iff.mp (List.all_eq_true.mp hall chunk hchunk)] at hmem
          cases hmem
  | note hw | release hw => simp [hw, Worker.sought] at hsought
  | @sweep c b' chunks rest hw hc =>
      simp only [hw, Worker.sought, (Chunks.perm_flatten_set hc).mem_iff, List.mem_cons] at hsought
      rw [setInst_insts_self] at hb' ⊢
      refine hsought.resolve_left ?_
      rintro rfl
      exact hb' (DashMap.get_remove_self ..)

theorem Pursued.step {a : Action ι IpAddr} {v : Nat} (h : s.Pursued i b v) (hs : Step cfg s a s') : s'.Pursued i b v := by
  rcases wears_step hs i b with hwears | hlt
  · rw [Pursued, hwears.version]
    refine h.imp_right fun ⟨hv, hpursued⟩ => ⟨hv, fun bk' hb' => ?_⟩
    have hgone : s.Gone i b := fun bk hb => (hpursued bk hb).1
    obtain ⟨bk, hb, -, -⟩ := hwears.bucket bk' hb'
    refine ⟨hwears.expired hgone bk' hb', ?_⟩
    rcases works_step hs i with hrests | hworks
    · exact hrests ▸ (hpursued bk hb).2
    · exact sought_works hworks (hpursued bk hb).2 hgone hb (by simp [hb'])
  · left
    rcases h with hv | ⟨hv, -⟩
    · exact Nat.lt_trans hv hlt
    · exact hv ▸ hlt

theorem Pursued.run {v : Nat} (h : s.Pursued i b v) (hrun : Run (sys cfg) s s') : s'.Pursued i b v := by
  induction hrun with
  | refl => exact h
  | tail _ _ hnext ih => exact ih.step (step_of_next hnext)

end Sys

section Cleanup

variable [DecidableEq ι] [ToString IpAddr] {cfg : Config} {s s' s₁ : Sys ι IpAddr} {i : ι} {b : BucketId IpAddr}

/-- What has expired when a cleanup tick begins is gone or replaced by the end of the cleanup, whatever
the calls do in the meantime. -/
theorem cleanup_is_complete {order : List (BucketId IpAddr)} (htick : (sys cfg).next s (.tick i order) = some s₁)
    {bk : Bucket} (hb : (s.insts i).store.buckets.get b = some bk) (hexpired : bk.isExpired (s.insts i).now = true)
    (hrun : Run (sys cfg) s₁ s') (hidle : (s'.insts i).worker = .idle) :
    (s'.insts i).store.buckets.get b = none ∨ (s.insts i).version b < (s'.insts i).version b := by
  have hpursued : s₁.Pursued i b ((s.insts i).version b) := by
    cases (Sys.step_of_next htick : Sys.Step cfg s (.tick i order) s₁) with
    | tickNothing hw hempty =>
        rw [DashMap.get_of_isEmpty hempty] at hb
        cases hb
    | plan hp =>
        cases hp with
        | tick hw hcovers =>
            right
            rw [Sys.setWorker_eq, Sys.setInst_insts_self]
            refine ⟨rfl, fun bk' hb' => ?_⟩
            obtain rfl := Option.some.inj (hb.symm.trans hb')
            have hmem := hcovers.2 b ((DashMap.mem_keys_iff _ b).mpr (by rw [hb]; rfl))
            exact ⟨hexpired, by simpa [Worker.sought] using hmem⟩
  rcases hpursued.run hrun with hlt | ⟨-, hgone⟩
  · exact .inr hlt
  · left
    cases hb' : (s'.insts i).store.buckets.get b with
    | none => rfl
    | some bk' =>
        have hsought := (hgone bk' hb').2
        rw [hidle] at hsought
        cases hsought

/-- The cleanup of an expired bucket, while another call finds it expired as well. -/
theorem cleanup_is_complete_under_calls : ∃ s s₁ s', (sys .cleaning).exec (testStart .cleaning) [.spawn 0 () testUser,
      .run 0, .run 0, .run 0, .eval 0 .answers, .run 0, .run 0, .run 0, .run 0, .run 0, .elapse () 61000000000] = some s ∧
    (sys .cleaning).next s (.tick () [testUser]) = some s₁ ∧
    (sys .cleaning).exec s₁ [.spawn 1 () testUser, .run 1, .visit (), .run 1, .visit (), .sweep () 0, .join ()] = some s' ∧
    ((s'.insts ()).store.buckets.get testUser = none ∨
      (s.insts ()).version testUser < (s'.insts ()).version testUser) := by
  have hstart : ((sys .cleaning).exec (testStart .cleaning) [.spawn 0 () testUser, .run 0, .run 0, .run 0,
      .eval 0 .answers, .run 0, .run 0, .run 0, .run 0, .run 0, .elapse () 61000000000]).map (fun s =>
        ((s.insts ()).store.buckets.get testUser, (s.insts ()).now,
          ((sys .cleaning).next s (.tick () [testUser])).map fun s₁ => ((sys .cleaning).exec s₁ [.spawn 1 () testUser,
            .run 1, .visit (), .run 1, .visit (), .sweep () 0, .join ()]).map fun s' => (s'.insts ()).worker)) =
      some (some ⟨1999, 60000000000, 60000, false⟩, 61000000000, some (some .idle)) := rfl
  obtain ⟨s, hs, hseen⟩ := Option.map_eq_some_iff.mp hstart
  simp only [Prod.mk.injEq] at hseen
  obtain ⟨hb, hnow, htick⟩ := hseen
  obtain ⟨s₁, hs₁, hpass⟩ := Option.map_eq_some_iff.mp htick
  obtain ⟨s', hs', hidle⟩ := Option.map_eq_some_iff.mp hpass
  refine ⟨s, s₁, s', hs, hs₁, hs', cleanup_is_complete hs₁ hb ?_ (.of_exec (fun _ _ _ => trivial) hs') hidle⟩
  rw [hnow]
  decide

end Cleanup

section Progress

variable [DecidableEq ι]

/-- A bound on the steps of the worker until it rests. -/
def Worker.work : Worker IpAddr → Nat
  | .collecting todo found => 2 * todo.length + found.length + 2
  | .sweeping chunks => chunks.flatten.length + 1
  | .noting todo found => 2 * todo.length + found.length + 2
  | .releasing chunks => chunks.flatten.length + 1
  | .off | .idle | .complete => 0

/-- Where the worker ends up. -/
def Worker.rest : Worker IpAddr → Worker IpAddr
  | .off => .off
  | .idle | .collecting .. | .sweeping _ => .idle
  | .noting .. | .releasing _ | .complete => .complete

/-- The worker of instance `i` takes a step of its pass. -/
def Action.ofWorker (i : ι) : Action ι IpAddr → Bool
  | .visit j | .sweep j _ | .release j _ _ | .join j => j == i
  | _ => false

/-- A pass of the worker of instance `i` begins. -/
def Action.starts (i : ι) : Action ι IpAddr → Bool
  | .tick j _ | .shutdown j _ => j == i
  | _ => false

namespace Sys

variable [ToString IpAddr] {cfg : Config} {s s' : Sys ι IpAddr} {i : ι}

theorem works_of_ofWorker {a : Action ι IpAddr} (h : Step cfg s a s') (ha : a.ofWorker i = true) : s.Works i a s' := by
  cases h with
  | plan hp =>
      cases hp with
      | tick | shutdown | nothingHeld => cases ha
      | collect hw hb hx => exact (beq_iff_eq.mp ha) ▸ .plan (.collect hw hb hx)
      | keep hw hx => exact (beq_iff_eq.mp ha) ▸ .plan (.keep hw hx)
      | collected hw => exact (beq_iff_eq.mp ha) ▸ .plan (.collected hw)
      | noneExpired hw => exact (beq_iff_eq.mp ha) ▸ .plan (.noneExpired hw)
      | swept hw hx => exact (beq_iff_eq.mp ha) ▸ .plan (.swept hw hx)
      | skip hw hx => exact (beq_iff_eq.mp ha) ▸ .plan (.skip hw hx)
      | noted hw => exact (beq_iff_eq.mp ha) ▸ .plan (.noted hw)
      | noneNoted hw => exact (beq_iff_eq.mp ha) ▸ .plan (.noneNoted hw)
      | unreachable hw hx => exact (beq_iff_eq.mp ha) ▸ .plan (.unreachable hw hx)
      | released hw hx => exact (beq_iff_eq.mp ha) ▸ .plan (.released hw hx)
  | note hw hb => exact (beq_iff_eq.mp ha) ▸ .note hw hb
  | sweep hw hc => exact (beq_iff_eq.mp ha) ▸ .sweep hw hc
  | release hw hc => exact (beq_iff_eq.mp ha) ▸ .release hw hc
  | _ => cases ha

theorem work_works {a : Action ι IpAddr} (h : s.Works i a s') (hstart : a.starts i = false) :
    (s'.insts i).worker.rest = (s.insts i).worker.rest ∧ (s'.insts i).worker.work + 1 ≤ (s.insts i).worker.work := by
  cases h with
  | plan hp =>
      rw [setWorker_eq, setInst_insts_self]
      cases hp with
      | tick | shutdown | nothingHeld => simp [Action.starts] at hstart
      | collect hw | keep hw | skip hw =>
          refine ⟨by rw [hw]; rfl, ?_⟩
          simp only [hw, Worker.work, List.length_cons, List.length_append, List.length_nil]
          omega
      | collected hw | noted hw =>
          refine ⟨by rw [hw]; rfl, ?_⟩
          rw [hw, Worker.work, Worker.work, Chunks.flatten_chunks (by decide), List.length_nil]
          omega
      | noneExpired hw | noneNoted hw | swept hw | released hw =>
          refine ⟨by rw [hw]; rfl, ?_⟩
          simp only [hw, Worker.work]
          omega
      | unreachable hw hc =>
          refine ⟨by rw [hw]; rfl, ?_⟩
          simp only [hw, Worker.work, (Chunks.perm_flatten_set hc).length_eq, List.length_cons]
          omega
  | note hw =>
      simp only [hw, setWorker_eq, setInst_insts_self, Worker.rest, Worker.work, List.length_cons, List.length_append,
        List.length_nil, true_and]
      omega
  | sweep hw hc | release hw hc =>
      simp only [hw, setWorker_eq, setInst_insts_self, Worker.rest, Worker.work, (Chunks.perm_flatten_set hc).length_eq,
        List.length_cons, true_and]
      omega

theorem worker_ranking (cfg : Config) (i : ι) (rest : Worker IpAddr) :
    Ranking (sys cfg) (fun s : Sys ι IpAddr => (s.insts i).worker.rest = rest) (fun a => !a.starts i)
      (Action.ofWorker i) fun s => (s.insts i).worker.work := by
  refine ⟨fun s a s' hrest hstart hnext => ?_⟩
  have hstep := step_of_next hnext
  have hworks (h : s.Works i a s') : (s'.insts i).worker.rest = rest ∧
      (s'.insts i).worker.work + 1 ≤ (s.insts i).worker.work :=
    hrest ▸ work_works h (by simpa using hstart)
  cases ha : a.ofWorker i with
  | true => exact hworks (works_of_ofWorker hstep ha)
  | false =>
      rcases works_step hstep i with hrests | h
      · rw [hrests]
        exact ⟨hrest, Nat.le_refl _⟩
      · exact ⟨(hworks h).1, Nat.le_of_succ_le (hworks h).2⟩

/-- A pass under way always has a next step, whatever becomes of the calls to Redis. -/
theorem worker_steps (cfg : Config) (link : Link) (hbusy : (s.insts i).worker ≠ (s.insts i).worker.rest) :
    ∃ a s', (a.ofWorker i = true ∧ ∀ c l, a = .release i c l → l = link) ∧ (sys cfg).next s a = some s' := by
  have chunk {α : Type} {chunks : List (List α)} (hall : chunks.all List.isEmpty = false) :
      ∃ (c : Nat) (a : α) (rest : List α), chunks[c]? = some (a :: rest) := by
    simp only [List.all_eq_false, List.isEmpty_iff] at hall
    obtain ⟨l, hl, hne⟩ := hall
    obtain ⟨c, hc⟩ := List.mem_iff_getElem?.mp hl
    obtain ⟨a, rest, rfl⟩ := List.exists_cons_of_ne_nil hne
    exact ⟨c, a, rest, hc⟩
  cases hw : (s.insts i).worker with
  | off | idle | complete =>
      rw [hw] at hbusy
      exact absurd rfl hbusy
  | collecting todo found | noting todo found =>
      have hvisit : ∃ s', s.visit i = some s' := by
        cases todo with
        | nil =>
            simp only [visit, hw]
            split <;> exact ⟨_, rfl⟩
        | cons b todo =>
            simp only [visit, hw]
            split
            · split <;> exact ⟨_, rfl⟩
            · exact ⟨_, rfl⟩
      obtain ⟨s', hs'⟩ := hvisit
      exact ⟨.visit i, s', by simp [Action.ofWorker], hs'⟩
  | sweeping chunks =>
      cases hall : chunks.all List.isEmpty with
      | true => exact ⟨.join i, s.setWorker i .idle, by simp [Action.ofWorker], by simp only [sys, next, join, hw, hall, if_true]⟩
      | false =>
          obtain ⟨c, b, rest, hc⟩ := chunk hall
          exact ⟨.sweep i c, _, by simp [Action.ofWorker], by simp only [sys, next, sweep, hw, hc]; rfl⟩
  | releasing chunks =>
      cases hall : chunks.all List.isEmpty with
      | true =>
          exact ⟨.join i, s.setWorker i .complete, by simp [Action.ofWorker], by simp only [sys, next, join, hw, hall, if_true]⟩
      | false =>
          obtain ⟨c, p, rest, hc⟩ := chunk hall
          refine ⟨.release i c link, ?_⟩
          cases link <;> exact ⟨_, by simp [Action.ofWorker], by simp only [sys, next, release, hw, hc]; rfl⟩

end Sys

variable [ToString IpAddr]

/-- Whatever the calls do and whether or not Redis can be reached, a pass of the worker takes boundedly
many steps, and the worker can finish it on its own. -/
theorem passes_end (cfg : Config) (s : Sys ι IpAddr) (i : ι) (link : Link) :
    (∀ as s', (sys cfg).exec s as = some s' → (∀ a ∈ as, a.starts i = false) →
      as.countP (Action.ofWorker i) ≤ (s.insts i).worker.work) ∧
    ∃ s', RunWhen (sys cfg) (fun _ a => a.ofWorker i = true ∧ ∀ c l, a = .release i c l → l = link) s s' ∧
      (s'.insts i).worker = (s.insts i).worker.rest := by
  have hranking := Sys.worker_ranking cfg i (s.insts i).worker.rest
  constructor
  · intro as s' he hstart
    have hcount := hranking.countP_le rfl (fun a ha => by simp [hstart a ha]) he
    omega
  · obtain ⟨s', hrun, hrest, hgoal⟩ := RunWhen.to_goal (S := sys cfg)
      (J := fun s' => (s'.insts i).worker.rest = (s.insts i).worker.rest)
      (G := fun s' => (s'.insts i).worker = (s'.insts i).worker.rest)
      (g := fun _ a => a.ofWorker i = true ∧ ∀ c l, a = .release i c l → l = link) (fun s => (s.insts i).worker.work)
      (by
        intro s₁ hrest₁ hbusy
        obtain ⟨a, s₂, hg, hnext⟩ := Sys.worker_steps cfg link hbusy
        have hstart : a.starts i = false := by
          cases a with
          | tick | shutdown => cases hg.1
          | _ => rfl
        obtain ⟨hrest₂, hlt⟩ := hranking.step s₁ a s₂ hrest₁ (by simp [hstart]) hnext
        rw [hg.1] at hlt
        exact ⟨a, s₂, hg, hnext, hrest₂, hlt⟩)
      rfl
    exact ⟨s', hrun, hgoal.trans hrest⟩

end Progress

end ThatLimit
