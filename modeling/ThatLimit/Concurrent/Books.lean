import ThatLimit.Concurrent.Steps
import ThatLimit.Lease.Account
/-!
# The books of the system

Tasks, buckets and snapshots each carry the number of a grant. `Books` says that the
numbers are right: a reply is for a grant that has not arrived yet, a bucket has the
window of its grant, and a snapshot is what the ledger says was noted. With that every
step of the system is one of the instances' account with Redis, or none.
-/

namespace ThatLimit

open Transition

variable {ι IpAddr : Type}

/-- What a task has to know about a grant to let it arrive. -/
def Grant.arrival (x : Grant ι IpAddr) : ι × BucketId IpAddr × Bool × Nat × Int :=
  (x.inst, x.id, x.landed, x.tokens, x.window)

/-- What the worker of instance `i` has to know about its grants to release them. -/
def Grant.paper [DecidableEq ι] (i : ι) (x : Grant ι IpAddr) :
    Option (BucketId IpAddr × Int × Option Nat × Bool) :=
  if x.inst = i then some (x.id, x.window, x.noted, x.released) else none

theorem Grant.paper_eq_some [DecidableEq ι] {i : ι} {x : Grant ι IpAddr} {b : BucketId IpAddr} {w : Int}
    {t : Option Nat} {r : Bool} : x.paper i = some (b, w, t, r) ↔
      x.inst = i ∧ x.id = b ∧ x.window = w ∧ x.noted = t ∧ x.released = r := by
  unfold paper
  split <;> simp_all

namespace Ledger

/-- The records stay, and `F` of each is the same. -/
def Keeps {β : Type} (F : Grant ι IpAddr → β) (L L' : Ledger ι IpAddr) : Prop :=
  ∀ (g : Nat) x, L.grants[g]? = some x → ∃ x', L'.grants[g]? = some x' ∧ F x' = F x

/-- New records are not noted. -/
def Appends (L L' : Ledger ι IpAddr) : Prop :=
  ∀ (g : Nat) x', L'.grants[g]? = some x' → L.grants[g]? = none → x'.noted = none

variable {β : Type} {F : Grant ι IpAddr → β} {L : Ledger ι IpAddr}

theorem Keeps.refl (F : Grant ι IpAddr → β) (L : Ledger ι IpAddr) : L.Keeps F L := fun _ x hx => ⟨x, hx, rfl⟩

theorem Appends.refl (L : Ledger ι IpAddr) : L.Appends L := fun _ _ hx hn => by simp [hx] at hn

theorem getElem?_amend (L : Ledger ι IpAddr) (g j : Nat) (f : Grant ι IpAddr → Grant ι IpAddr) :
    (L.amend g f).grants[j]? = (L.grants[j]?).map fun x => if g = j then f x else x := by
  rw [amend, List.getElem?_modify]
  cases L.grants[j]? <;> simp

theorem keeps_amend {g : Nat} {f : Grant ι IpAddr → Grant ι IpAddr}
    (hf : ∀ x, L.grants[g]? = some x → F (f x) = F x) : L.Keeps F (L.amend g f) := by
  intro j x hx
  refine ⟨if g = j then f x else x, by rw [getElem?_amend, hx]; rfl, ?_⟩
  split
  · next hj => exact hf x (hj ▸ hx)
  · rfl

theorem appends_amend {g : Nat} {f : Grant ι IpAddr → Grant ι IpAddr} : L.Appends (L.amend g f) := by
  intro j x' hx' hn
  simp [getElem?_amend, hn] at hx'

theorem release_grants [ToString IpAddr] (L : Ledger ι IpAddr) (g : Nat) (b : BucketId IpAddr) (t : Nat)
    (w : Int) : ∃ back, (L.release g b t w).2.grants =
      (L.amend g fun x => { x with released := true, returned := back }).grants := ⟨_, rfl⟩

section Lease

variable [ToString IpAddr] {cfg : Config} {i : ι} {b : BucketId IpAddr}

theorem keeps_lease : L.Keeps F (L.lease cfg i b).2 := by
  intro g x hx
  refine ⟨x, ?_, rfl⟩
  rcases L.lease_grants cfg i b with h | ⟨epoch, r, h⟩
  · rw [h, hx]
  · rw [h, List.getElem?_append_left (List.getElem?_eq_some_iff.mp hx).1, hx]

theorem appends_lease : L.Appends (L.lease cfg i b).2 := by
  intro g x' hx' hn
  rcases L.lease_grants cfg i b with h | ⟨epoch, r, h⟩
  · rw [h, hn] at hx'
    cases hx'
  · rw [h, List.getElem?_append_right (List.getElem?_eq_none_iff.mp hn)] at hx'
    obtain rfl := List.mem_singleton.mp (List.mem_of_getElem? hx')
    rfl

theorem getElem?_lease {reply : LeaseReply} {L' : Ledger ι IpAddr} (h : L.lease cfg i b = (.ok reply, L')) :
    ∃ epoch, (L.lease cfg i b).2.grants[L.grants.length]? = some (Grant.new i b epoch reply) := by
  obtain ⟨server, -, hL⟩ := lease_ok h
  refine ⟨server.epoch b.toKey, ?_⟩
  rw [h, hL]
  simp

end Lease

end Ledger

/-- The grant a task has been answered with and has not put into a bucket. -/
def Pc.pending : Pc IpAddr → Option (Nat × Nat × Int)
  | .reply _ _ (.ok r) g => some (g, r.leased, r.window)
  | .leased _ g m _ window => some (g, m, window)
  | _ => none

namespace Sys

/-- Nothing of instance `i` has been noted, as far as ids in `p` go. -/
def Unnoted (s : Sys ι IpAddr) (i : ι) (p : BucketId IpAddr → Prop) : Prop :=
  ∀ (g : Nat) x, s.ledger.grants[g]? = some x → x.inst = i → p x.id → x.noted = none

/-- Snapshots are of different grants, noted and not released. -/
def Noted [DecidableEq ι] (s : Sys ι IpAddr) (i : ι) (l : List (Snapshot IpAddr)) : Prop :=
  (l.map Snapshot.grant).Nodup ∧ ∀ p ∈ l, ∃ x, s.ledger.grants[p.grant]? = some x ∧
    x.paper i = some (p.id, p.window, some p.tokens, false)

/-- The notes of a shutdown follow the iteration of the worker. -/
def ShutdownBooks [DecidableEq ι] (s : Sys ι IpAddr) (i : ι) : Prop :=
  match (s.insts i).worker with
  | .off | .idle | .collecting .. | .sweeping _ => s.Unnoted i fun _ => True
  | .noting todo replenish => todo.Nodup ∧ s.Unnoted i (· ∈ todo) ∧ s.Noted i replenish
  | .releasing chunks => s.Noted i chunks.flatten
  | .complete => True

structure Books [DecidableEq ι] [DecidableEq IpAddr] (s : Sys ι IpAddr) : Prop where
  pending : ∀ t k g m w, s.tasks t = some k → k.pc.pending = some (g, m, w) →
    ∃ x, s.ledger.grants[g]? = some x ∧ x.arrival = (k.inst, k.id, false, m, w)
  distinct : ∀ t t' k k' g m w m' w', s.tasks t = some k → s.tasks t' = some k' →
    k.pc.pending = some (g, m, w) → k'.pc.pending = some (g, m', w') → t = t'
  window : ∀ i b bk, (s.insts i).store.buckets.get b = some bk →
    ∃ x, s.ledger.grants[(s.insts i).origin b]? = some x ∧ x.window = bk.window
  shutdown : ∀ i, s.ShutdownBooks i

/-- What the tasks wait for in `s'` they waited for in `s`. -/
def PendingFrom (s s' : Sys ι IpAddr) : Prop :=
  ∀ t k' p, s'.tasks t = some k' → k'.pc.pending = some p →
    ∃ k, s.tasks t = some k ∧ k.pc.pending = some p ∧ k'.inst = k.inst ∧ k'.id = k.id

/-- Every bucket of `s'` is one of `s`, with what has been spent of it or marked. -/
def BucketsFrom [DecidableEq IpAddr] (s s' : Sys ι IpAddr) : Prop :=
  ∀ i b bk', (s'.insts i).store.buckets.get b = some bk' → ∃ bk, (s.insts i).store.buckets.get b = some bk ∧
    bk'.window = bk.window ∧ (s'.insts i).origin b = (s.insts i).origin b

section Frame

variable [DecidableEq ι] {s s' : Sys ι IpAddr}

theorem Unnoted.frame {i : ι} {p : BucketId IpAddr → Prop} (h : s.Unnoted i p)
    (hk : s.ledger.Keeps (Grant.paper i) s'.ledger) (ha : s.ledger.Appends s'.ledger) : s'.Unnoted i p := by
  intro g x' hx' hi hp
  cases hx : s.ledger.grants[g]? with
  | none => exact ha g x' hx' hx
  | some x =>
      obtain ⟨x'', hx'', hpaper⟩ := hk g x hx
      obtain rfl := Option.some.inj (hx'.symm.trans hx'')
      obtain ⟨hinst, hid, -, hnoted, -⟩ := Grant.paper_eq_some.mp
        (hpaper.symm.trans (Grant.paper_eq_some.mpr ⟨hi, rfl, rfl, rfl, rfl⟩))
      exact hnoted ▸ h g x hx hinst (hid ▸ hp)

theorem Noted.frame {i : ι} {l : List (Snapshot IpAddr)} (h : s.Noted i l)
    (hk : s.ledger.Keeps (Grant.paper i) s'.ledger) : s'.Noted i l := by
  refine ⟨h.1, fun p hp => ?_⟩
  obtain ⟨x, hx, hpaper⟩ := h.2 p hp
  obtain ⟨x', hx', he⟩ := hk p.grant x hx
  exact ⟨x', hx', he.trans hpaper⟩

theorem ShutdownBooks.frame {i : ι} (h : s.ShutdownBooks i) (hw : (s'.insts i).worker = (s.insts i).worker)
    (hk : s.ledger.Keeps (Grant.paper i) s'.ledger) (ha : s.ledger.Appends s'.ledger) : s'.ShutdownBooks i := by
  unfold ShutdownBooks at h ⊢
  rw [hw]
  cases hw' : (s.insts i).worker with
  | off | idle | collecting | sweeping =>
      rw [hw'] at h
      exact Unnoted.frame h hk ha
  | noting todo found =>
      rw [hw'] at h
      exact ⟨h.1, h.2.1.frame hk ha, h.2.2.frame hk⟩
  | releasing chunks =>
      rw [hw'] at h
      exact Noted.frame h hk
  | complete => trivial

variable [DecidableEq IpAddr]

theorem Books.pending_frame (h : s.Books) (hp : s.PendingFrom s')
    (hk : s.ledger.Keeps Grant.arrival s'.ledger) : ∀ t k g m w, s'.tasks t = some k →
      k.pc.pending = some (g, m, w) →
      ∃ x, s'.ledger.grants[g]? = some x ∧ x.arrival = (k.inst, k.id, false, m, w) := by
  intro t k' g m w ht hpc
  obtain ⟨k, hkk, hpend, hinst, hid⟩ := hp t k' _ ht hpc
  obtain ⟨x, hx, harr⟩ := h.pending t k g m w hkk hpend
  obtain ⟨x', hx', he⟩ := hk g x hx
  exact ⟨x', hx', by rw [he, harr, hinst, hid]⟩

theorem Books.distinct_frame (h : s.Books) (hp : s.PendingFrom s') : ∀ t t' k k' g m w m' w',
    s'.tasks t = some k → s'.tasks t' = some k' → k.pc.pending = some (g, m, w) →
    k'.pc.pending = some (g, m', w') → t = t' := by
  intro t t' k k' g m w m' w' ht ht' hpc hpc'
  obtain ⟨k₁, hk₁, hp₁, -, -⟩ := hp t k _ ht hpc
  obtain ⟨k₂, hk₂, hp₂, -, -⟩ := hp t' k' _ ht' hpc'
  exact h.distinct t t' k₁ k₂ g m w m' w' hk₁ hk₂ hp₁ hp₂

theorem Books.window_frame (h : s.Books) (hb : s.BucketsFrom s') (hk : s.ledger.Keeps Grant.window s'.ledger) :
    ∀ i b bk, (s'.insts i).store.buckets.get b = some bk →
      ∃ x, s'.ledger.grants[(s'.insts i).origin b]? = some x ∧ x.window = bk.window := by
  intro i b bk' hb'
  obtain ⟨bk, hbk, hw, ho⟩ := hb i b bk' hb'
  obtain ⟨x, hx, hxw⟩ := h.window i b bk hbk
  obtain ⟨x', hx', he⟩ := hk _ x hx
  exact ⟨x', by rw [ho, hx'], by rw [he, hxw, hw]⟩

theorem Books.frame (h : s.Books) (hp : s.PendingFrom s') (hb : s.BucketsFrom s')
    (hw : ∀ i, (s'.insts i).worker = (s.insts i).worker)
    (hk : ∀ {β : Type} (F : Grant ι IpAddr → β), (∀ x : Grant ι IpAddr, F { x with spent := x.spent + 1 } = F x) →
      s.ledger.Keeps F s'.ledger) (ha : s.ledger.Appends s'.ledger) : s'.Books where
  pending := h.pending_frame hp (hk _ fun _ => rfl)
  distinct := h.distinct_frame hp
  window := h.window_frame hb (hk _ fun _ => rfl)
  shutdown i := (h.shutdown i).frame (hw i) (hk _ fun _ => rfl) ha

end Frame

section Steps

variable {s s' s₁ : Sys ι IpAddr} {t : Nat} {k : Task ι IpAddr} {pc : Pc IpAddr}

theorem pendingFrom_of_tasks (h : s'.tasks = s.tasks) : s.PendingFrom s' :=
  fun _ k' _ ht hp => ⟨k', h ▸ ht, hp, rfl, rfl⟩

theorem pendingFrom_goto (hk : s.tasks t = some k) (hp : ∀ p, pc.pending = some p → k.pc.pending = some p)
    (htasks : s₁.tasks = s.tasks) : s.PendingFrom (s₁.goto t k pc) := by
  intro t' k' p ht' hpend
  rcases goto_tasks_cases ht' with ⟨rfl, rfl⟩ | ⟨-, hold⟩
  · exact ⟨k, hk, hp p hpend, rfl, rfl⟩
  · exact ⟨k', htasks ▸ hold, hpend, rfl, rfl⟩

theorem pendingFrom_answer (hk : s.tasks t = some k) (htasks : s₁.tasks = s.tasks) (res) :
    s.PendingFrom (s₁.answer t k res) :=
  (pendingFrom_goto hk (by simp [Pc.pending]) htasks : s.PendingFrom (s₁.goto t k (.done res)))

theorem pendingFrom_resume (hk : s.tasks t = some k) (htasks : s₁.tasks = s.tasks) (res) :
    s.PendingFrom (s₁.resume t k res) := by
  cases res with
  | ok _ => exact pendingFrom_goto hk (by simp [Pc.pending]) htasks
  | error e => exact pendingFrom_answer hk htasks (.error e)

variable [DecidableEq IpAddr]

theorem bucketsFrom_of_insts (h : s'.insts = s.insts) : s.BucketsFrom s' :=
  fun i b bk hb => ⟨bk, h ▸ hb, rfl, by rw [h]⟩

/-- The account the system shows: what every bucket holds, and of which grant. -/
def account (s : Sys ι IpAddr) : Account ι IpAddr where
  ledger := s.ledger
  held key := ((s.insts key.1).store.buckets.get key.2).map fun bk =>
    ⟨bk.tokens, (s.insts key.1).origin key.2⟩

theorem account_ext {A : Account ι IpAddr} (hledger : s.ledger = A.ledger)
    (hheld : ∀ i b, s.account.held (i, b) = A.held (i, b)) : s.account = A := by
  cases A
  cases hledger
  exact congrArg (Account.mk _) (funext fun key => hheld key.1 key.2)

theorem account_same (hinsts : s'.insts = s.insts) (hledger : s'.ledger = s.ledger) :
    s'.account = s.account := by
  refine account_ext hledger fun i b => ?_
  simp [account, hinsts]

variable [DecidableEq ι]

theorem bucketsFrom_update {i : ι} {v : Inst IpAddr} (hinsts : s'.insts = Function.update s.insts i v)
    (h : ∀ b bk', v.store.buckets.get b = some bk' → ∃ bk, (s.insts i).store.buckets.get b = some bk ∧
      bk'.window = bk.window) (ho : v.origin = (s.insts i).origin := by rfl) : s.BucketsFrom s' := by
  intro j b bk' hb
  rw [hinsts] at hb ⊢
  by_cases hj : j = i
  · subst hj
    rw [Function.update_self] at hb ⊢
    obtain ⟨bk, hbk, hw⟩ := h b bk' hb
    exact ⟨bk, hbk, hw, by rw [ho]⟩
  · rw [Function.update_of_ne hj] at hb ⊢
    exact ⟨bk', hb, rfl, rfl⟩

theorem bucketsFrom_modify {i : ι} {b : BucketId IpAddr} {f : Bucket → Bucket}
    (hf : ∀ bk, (f bk).window = bk.window) : s.BucketsFrom (s.modifyBucket i b f) := by
  refine bucketsFrom_update rfl fun b' bk' hb => ?_
  simp only [DashMap.get_modify] at hb
  split at hb
  · next hbb =>
      obtain ⟨bk, hbk, rfl⟩ := Option.map_eq_some_iff.mp hb
      exact ⟨bk, hbb ▸ hbk, hf bk⟩
  · exact ⟨bk', hb, rfl⟩

theorem Books.quiet_inst (h : s.Books) (hp : s.PendingFrom s') (hb : s.BucketsFrom s')
    (hw : ∀ i, (s'.insts i).worker = (s.insts i).worker) (hledger : s'.ledger = s.ledger) : s'.Books :=
  h.frame hp hb hw (fun F _ => hledger ▸ .refl F _) (hledger ▸ .refl _)

theorem Books.quiet (h : s.Books) (hp : s.PendingFrom s') (hinsts : s'.insts = s.insts)
    (hledger : s'.ledger.grants = s.ledger.grants) : s'.Books := by
  refine h.frame hp (bucketsFrom_of_insts hinsts) (fun i => by rw [hinsts]) ?_ ?_
  · intro β F _ g x hx
    exact ⟨x, by rw [hledger, hx], rfl⟩
  · intro g x' hx' hn
    rw [hledger, hn] at hx'
    cases hx'

private theorem Books.insert (h : s.Books) (hk : s.tasks t = some k) {n : Notify} {g m ttl : Nat}
    {w : Int} (hpc : k.pc = .leased n g m ttl w) {res} :
    ((s.insertBucket k.inst k.id g (.new (s.insts k.inst).now m ttl w)).goto t k (.refilled n res)).Books := by
  obtain ⟨x, hx, harr⟩ := h.pending t k g m w hk (by simp [hpc, Pc.pending])
  have hpend : s.PendingFrom ((s.insertBucket k.inst k.id g (.new (s.insts k.inst).now m ttl w)).goto t k
      (.refilled n res)) := pendingFrom_goto hk (by simp [Pc.pending]) rfl
  refine ⟨?_, h.distinct_frame hpend, ?_, fun i => (h.shutdown i).frame ?_ ?_ ?_⟩
  · intro t' k' g' m' w' ht' hp
    rcases goto_tasks_cases ht' with ⟨rfl, rfl⟩ | ⟨ht, hold⟩
    · simp [Pc.pending] at hp
    · have hne : g ≠ g' := fun he =>
        ht (h.distinct t' t k' k g' m' w' m w hold hk hp (by simp [hpc, Pc.pending, he]))
      obtain ⟨x', hx', harr'⟩ := h.pending t' k' g' m' w' hold hp
      exact ⟨x', by simp [insertBucket, Ledger.land, Ledger.getElem?_amend, hx', hne], harr'⟩
  · intro i b bk hb
    have hw : x.window = w := by
      simp only [Grant.arrival, Prod.mk.injEq] at harr
      exact harr.2.2.2.2
    by_cases hib : i = k.inst ∧ b = k.id
    · obtain ⟨rfl, rfl⟩ := hib
      obtain rfl : Bucket.new (s.insts k.inst).now m ttl w = bk := by simpa [insertBucket] using hb
      refine ⟨{ x with landed := true }, ?_, hw⟩
      simp [insertBucket, Ledger.land, Ledger.getElem?_amend, hx]
    · have hb' : (s.insts i).store.buckets.get b = some bk ∧
          ((s.insertBucket k.inst k.id g (.new (s.insts k.inst).now m ttl w)).insts i).origin b = (s.insts i).origin b := by
        by_cases hi : i = k.inst
        · subst hi
          have hbne : b ≠ k.id := fun he => hib ⟨rfl, he⟩
          exact ⟨by simpa [insertBucket, hbne] using hb, by simp [insertBucket, hbne]⟩
        · exact ⟨by simpa [insertBucket, hi] using hb, by simp [insertBucket, hi]⟩
      obtain ⟨y, hy, hyw⟩ := h.window i b bk hb'.1
      have hkeep : s.ledger.Keeps Grant.window (s.ledger.land g) := Ledger.keeps_amend fun _ _ => rfl
      obtain ⟨y', hy', he⟩ := hkeep _ y hy
      exact ⟨y', by rw [goto_insts, hb'.2]; exact hy', he.trans hyw⟩
  · refine worker_update rfl ?_ i
    rfl
  · exact Ledger.keeps_amend fun _ _ => rfl
  · exact Ledger.appends_amend

private theorem Books.plan {i : ι} {a : Action ι IpAddr} {worker : Worker IpAddr} (h : s.Books)
    (hp : s.Plans i a worker) : (s.setWorker i worker).Books := by
  refine ⟨h.pending, h.distinct, h.window_frame ?_ (Ledger.Keeps.refl _ _), fun j => ?_⟩
  · refine bucketsFrom_update rfl fun b bk hb => ?_
    exact ⟨bk, hb, rfl⟩
  · by_cases hj : j = i
    · subst hj
      have hs := h.shutdown j
      unfold ShutdownBooks at hs ⊢
      simp only [setWorker_eq, setInst_insts_self]
      cases hp with
      | tick hw _ | collect hw _ _ | keep hw _ | collected hw | noneExpired hw | swept hw _ =>
          rw [hw] at hs
          exact hs
      | shutdown hw hc =>
          rw [hw] at hs
          exact ⟨hc.1, fun g x hx hi _ => hs g x hx hi trivial, by simp, by simp⟩
      | nothingHeld hw _ | noneNoted hw | released hw _ => trivial
      | skip hw _ =>
          rw [hw] at hs
          exact ⟨hs.1.of_cons, fun g x hx hi hm => hs.2.1 g x hx hi (List.mem_cons_of_mem _ hm), hs.2.2⟩
      | @noted found hw =>
          rw [hw] at hs
          simp only [Chunks.flatten_chunks (n := chunkSize) (by decide)]
          exact hs.2.2
      | @unreachable chunks c p rest e hw hc =>
          rw [hw] at hs
          have hperm := Chunks.perm_flatten_set hc
          refine ⟨?_, fun q hq => hs.2 q (hperm.mem_iff.mpr (List.mem_cons_of_mem _ hq))⟩
          exact ((hperm.map Snapshot.grant).nodup_iff.mp hs.1).of_cons
    · exact (h.shutdown j).frame (by simp [hj]) (Ledger.Keeps.refl _ _) (Ledger.Appends.refl _)

private theorem Books.note {i : ι} {b : BucketId IpAddr} {todo : List (BucketId IpAddr)}
    {found : List (Snapshot IpAddr)} {bk : Bucket} (h : s.Books)
    (hw : (s.insts i).worker = .noting (b :: todo) found)
    (hb : (s.insts i).store.buckets.get b = some bk) {x : Grant ι IpAddr}
    (hx : s.ledger.grants[(s.insts i).origin b]? = some x) (hinst : x.inst = i) (hid : x.id = b)
    (hr : x.released = false) :
    ({ s.setWorker i (.noting todo (found ++ [⟨b, bk.tokens, bk.window, (s.insts i).origin b⟩])) with
      ledger := s.ledger.note ((s.insts i).origin b) bk.tokens } : Sys ι IpAddr).Books := by
  have hs := h.shutdown i
  unfold ShutdownBooks at hs
  rw [hw] at hs
  obtain ⟨hnodup, hun, hnoted⟩ := hs
  have hxn : x.noted = none := hun _ x hx hinst (hid ▸ List.mem_cons_self)
  have hxw : x.window = bk.window := by
    obtain ⟨y, hy, hyw⟩ := h.window i b bk hb
    exact Option.some.inj (hx.symm.trans hy) ▸ hyw
  have hget (g : Nat) := s.ledger.getElem?_amend ((s.insts i).origin b) g
    fun y => { y with noted := some bk.tokens }
  -- the grant of the bucket is not among those noted before
  have hfresh : ∀ p ∈ found, (s.insts i).origin b ≠ p.grant := by
    intro p hp he
    obtain ⟨y, hy, hpaper⟩ := hnoted.2 p hp
    rw [← he] at hy
    obtain rfl := Option.some.inj (hx.symm.trans hy)
    have hn := (Grant.paper_eq_some.mp hpaper).2.2.2.1
    rw [hxn] at hn
    cases hn
  refine ⟨h.pending_frame (pendingFrom_of_tasks rfl) (Ledger.keeps_amend fun _ _ => rfl), h.distinct,
    h.window_frame ?_ (Ledger.keeps_amend fun _ _ => rfl), fun j => ?_⟩
  · refine bucketsFrom_update rfl fun b bk hb => ?_
    exact ⟨bk, hb, rfl⟩
  · by_cases hj : j = i
    · subst hj
      unfold ShutdownBooks
      simp only [setWorker_eq, setInst_insts_self]
      refine ⟨hnodup.of_cons, ?_, ?_, ?_⟩
      · intro g y hy hi hm
        obtain ⟨y₀, hy₀, he⟩ := Option.map_eq_some_iff.mp ((hget g).symm.trans hy)
        by_cases hg : (s.insts j).origin b = g
        · subst hg
          obtain rfl := Option.some.inj (hx.symm.trans hy₀)
          rw [if_pos rfl] at he
          subst he
          exact absurd (hid ▸ hm) (List.nodup_cons.mp hnodup).1
        · rw [if_neg hg] at he
          subst he
          exact hun g y₀ hy₀ hi (List.mem_cons_of_mem _ hm)
      · rw [List.map_append, List.nodup_append]
        refine ⟨hnoted.1, by simp, ?_⟩
        intro g hg g' hg' he
        obtain ⟨p, hp, rfl⟩ := List.mem_map.mp hg
        exact hfresh p hp ((List.mem_singleton.mp hg').symm.trans he.symm)
      · intro p hp
        rcases List.mem_append.mp hp with hp | hp
        · obtain ⟨y, hy, hpaper⟩ := hnoted.2 p hp
          exact ⟨y, (hget p.grant).trans (by simp [hy, hfresh p hp]), hpaper⟩
        · obtain rfl := List.mem_singleton.mp hp
          refine ⟨{ x with noted := some bk.tokens }, (hget _).trans (by simp [hx]), ?_⟩
          exact Grant.paper_eq_some.mpr ⟨hinst, hid, hxw, rfl, hr⟩
    · refine (h.shutdown j).frame (by simp [hj]) (Ledger.keeps_amend fun y hy => ?_) Ledger.appends_amend
      obtain rfl := Option.some.inj (hx.symm.trans hy)
      simp [Grant.paper, hinst, Ne.symm hj]

theorem account_update {i : ι} {v : Inst IpAddr} (hinsts : s'.insts = Function.update s.insts i v)
    (h : ∀ b, (v.store.buckets.get b).map Bucket.tokens = ((s.insts i).store.buckets.get b).map Bucket.tokens)
    (hledger : s'.ledger = s.ledger) (ho : v.origin = (s.insts i).origin := by rfl) : s'.account = s.account := by
  refine account_ext hledger fun j b => ?_
  simp only [account, hinsts]
  by_cases hj : j = i
  · subst hj
    have hb := congrArg (Option.map fun t => Held.mk t ((s.insts j).origin b)) (h b)
    simpa [ho, Option.map_map, Function.comp_def] using hb
  · simp [hj]

theorem account_put {i : ι} {b : BucketId IpAddr} {v : Inst IpAddr} {L : Ledger ι IpAddr} {l : Option Held}
    (hinsts : s'.insts = Function.update s.insts i v) (hledger : s'.ledger = L)
    (hself : (v.store.buckets.get b).map (fun bk => Held.mk bk.tokens (v.origin b)) = l)
    (hother : ∀ b', b' ≠ b → v.store.buckets.get b' = (s.insts i).store.buckets.get b' ∧
      v.origin b' = (s.insts i).origin b') :
    s'.account = { ledger := L, held := Function.update s.account.held (i, b) l } := by
  refine account_ext hledger fun j b' => ?_
  by_cases hjb : (j, b') = (i, b)
  · obtain ⟨rfl, rfl⟩ := Prod.mk.inj hjb
    simp [account, hinsts, hself]
  · have hne : Function.update s.account.held (i, b) l (j, b') = s.account.held (j, b') :=
      Function.update_of_ne hjb ..
    refine Eq.trans ?_ hne.symm
    simp only [account, hinsts]
    by_cases hj : j = i
    · subst hj
      obtain ⟨h₁, h₂⟩ := hother b' fun he => hjb (by rw [he])
      simp [h₁, h₂]
    · simp [hj]

variable [ToString IpAddr]

/-- The script: the new grant is the last, so no other task waits for it. -/
private theorem Books.script {cfg : Config} (h : s.Books) (hk : s.tasks t = some k) {n : Notify}
    {started : Nat} {res : Except CacheError Leased} (hres : ∀ r, res = .ok r →
      ∃ reply L, s.ledger.lease cfg k.inst k.id = (.ok reply, L) ∧ reply.decode = .ok r) :
    ({ s with ledger := (s.ledger.lease cfg k.inst k.id).2 }.goto t k
      (.reply n started res s.ledger.grants.length)).Books := by
  have hbound : ∀ t' k' g m w, s.tasks t' = some k' → k'.pc.pending = some (g, m, w) →
      g ≠ s.ledger.grants.length := by
    intro t' k' g m w ht' hp
    obtain ⟨x, hx, -⟩ := h.pending t' k' g m w ht' hp
    exact Nat.ne_of_lt (List.getElem?_eq_some_iff.mp hx).1
  refine ⟨?_, ?_, h.window_frame (bucketsFrom_of_insts rfl) Ledger.keeps_lease,
    fun i => (h.shutdown i).frame rfl Ledger.keeps_lease Ledger.appends_lease⟩
  · intro t' k' g m w ht' hp
    rcases goto_tasks_cases ht' with ⟨rfl, rfl⟩ | ⟨-, hold⟩
    · cases hr : res with
      | error e => simp [Pc.pending, hr] at hp
      | ok r =>
          obtain ⟨reply, L, hl, hdecode⟩ := hres r hr
          obtain ⟨epoch, hx⟩ := Ledger.getElem?_lease hl
          have hgrant : r.leased = reply.leased.toNat ∧ r.window = reply.window := by
            simp only [LeaseReply.decode] at hdecode
            split at hdecode
            · cases hdecode
            · cases hdecode
              exact ⟨rfl, rfl⟩
          simp only [Pc.pending, hr, Option.some.injEq, Prod.mk.injEq] at hp
          obtain ⟨rfl, rfl, rfl⟩ := hp
          exact ⟨_, hx, by simp [Grant.arrival, Grant.new, hgrant]⟩
    · obtain ⟨x, hx, harr⟩ := h.pending t' k' g m w hold hp
      have hkeep : s.ledger.Keeps Grant.arrival (s.ledger.lease cfg k.inst k.id).2 := Ledger.keeps_lease
      obtain ⟨x', hx', he⟩ := hkeep g x hx
      exact ⟨x', hx', he.trans harr⟩
  · have hnew : ∀ g m w, (.reply n started res s.ledger.grants.length : Pc IpAddr).pending = some (g, m, w) →
        g = s.ledger.grants.length := by
      intro g m w hp
      cases res <;> simp [Pc.pending] at hp
      exact hp.1.symm
    intro t₁ t₂ k₁ k₂ g m w m' w' h₁ h₂ hp₁ hp₂
    rcases goto_tasks_cases h₁ with ⟨rfl, rfl⟩ | ⟨-, hold₁⟩
    · rcases goto_tasks_cases h₂ with ⟨rfl, rfl⟩ | ⟨-, hold₂⟩
      · rfl
      · exact absurd (hnew g m w hp₁) (hbound t₂ k₂ g m' w' hold₂ hp₂)
    · rcases goto_tasks_cases h₂ with ⟨rfl, rfl⟩ | ⟨-, hold₂⟩
      · exact absurd (hnew g m' w' hp₂) (hbound t₁ k₁ g m w hold₁ hp₁)
      · exact h.distinct t₁ t₂ k₁ k₂ g m w m' w' hold₁ hold₂ hp₁ hp₂

private theorem Books.release {i : ι} {c : Nat} {chunks : List (List (Snapshot IpAddr))}
    {p : Snapshot IpAddr} {rest : List (Snapshot IpAddr)} (h : s.Books)
    (hw : (s.insts i).worker = .releasing chunks) (hc : chunks[c]? = some (p :: rest)) :
    ({ s.setWorker i (.releasing (chunks.set c rest)) with
      ledger := (s.ledger.release p.grant p.id p.tokens p.window).2 } : Sys ι IpAddr).Books := by
  obtain ⟨back, hgrants⟩ := s.ledger.release_grants p.grant p.id p.tokens p.window
  have hs := h.shutdown i
  unfold ShutdownBooks at hs
  rw [hw] at hs
  have hperm := Chunks.perm_flatten_set hc
  have hnodup := (hperm.map Snapshot.grant).nodup_iff.mp hs.1
  obtain ⟨x, hx, hpaper⟩ := hs.2 p (hperm.mem_iff.mpr List.mem_cons_self)
  have hinst := (Grant.paper_eq_some.mp hpaper).1
  have hkeep {β : Type} {F : Grant ι IpAddr → β}
      (hf : ∀ y, s.ledger.grants[p.grant]? = some y → F { y with released := true, returned := back } = F y) :
      s.ledger.Keeps F (s.ledger.release p.grant p.id p.tokens p.window).2 := by
    unfold Ledger.Keeps
    rw [hgrants]
    exact Ledger.keeps_amend hf
  refine ⟨h.pending_frame (pendingFrom_of_tasks rfl) (hkeep fun _ _ => rfl), h.distinct,
    h.window_frame ?_ (hkeep fun _ _ => rfl), fun j => ?_⟩
  · refine bucketsFrom_update rfl fun b bk hb => ?_
    exact ⟨bk, hb, rfl⟩
  · by_cases hj : j = i
    · subst hj
      unfold ShutdownBooks
      simp only [setWorker_eq, setInst_insts_self]
      refine ⟨hnodup.of_cons, fun q hq => ?_⟩
      obtain ⟨y, hy, hq'⟩ := hs.2 q (hperm.mem_iff.mpr (List.mem_cons_of_mem _ hq))
      have hne : p.grant ≠ q.grant := fun he =>
        (List.nodup_cons.mp hnodup).1 (he ▸ List.mem_map_of_mem hq)
      refine ⟨y, ?_, hq'⟩
      simp only [hgrants]
      rw [Ledger.getElem?_amend, hy]
      simp [hne]
    · refine (h.shutdown j).frame (by simp [hj]) (hkeep fun y hy => ?_) ?_
      · obtain rfl := Option.some.inj (hx.symm.trans hy)
        simp [Grant.paper, hinst, Ne.symm hj]
      · unfold Ledger.Appends
        simp only [hgrants]
        exact Ledger.appends_amend

theorem Books.step {cfg : Config} {a : Action ι IpAddr} (h : s.Books) (hv : s.account.Valid cfg)
    (hs : Step cfg s a s') : s'.Books := by
  cases hs with
  | @spawn t i b ht =>
      refine h.quiet (fun t' k' p ht' hp => ?_) rfl rfl
      rcases goto_tasks_cases ht' with ⟨rfl, rfl⟩ | ⟨-, hold⟩
      · cases hp
      · exact ⟨k', hold, hp, rfl, rfl⟩
  | @move t k pc hk hm =>
      refine h.quiet (pendingFrom_goto hk ?_ rfl) rfl rfl
      cases hm with
      | replied hpc => simp [Pc.pending, hpc]
      | _ => simp [Pc.pending]
  | rejected hk hpc hc => exact h.quiet (pendingFrom_answer hk rfl _) rfl rfl
  | claim hk hpc hc =>
      refine h.quiet_inst (pendingFrom_goto hk (by simp [Pc.pending]) rfl) ?_ ?_ rfl
      · refine bucketsFrom_update rfl fun b bk hb => ?_
        exact ⟨bk, hb, rfl⟩
      · intro i
        refine worker_update rfl ?_ i
        rfl
  | script hk hpc hc => exact h.script hk hc
  | unreachable hk hpc => exact h.quiet (pendingFrom_goto hk (by simp [Pc.pending]) rfl) rfl rfl
  | refusedAbsent hk hpc hb => exact h.quiet (pendingFrom_goto hk (by simp [Pc.pending]) rfl) rfl rfl
  | refused hk hpc hb =>
      refine h.quiet_inst (pendingFrom_goto hk (by simp [Pc.pending]) rfl) ?_ ?_ rfl
      · exact bucketsFrom_modify fun _ => rfl
      · intro i
        refine worker_update rfl ?_ i
        rfl
  | insert hk hpc hpos => exact h.insert hk hpc
  | unclaim hk hpc hc =>
      refine h.quiet_inst (pendingFrom_goto hk (by simp [Pc.pending]) rfl) ?_ ?_ rfl
      · refine bucketsFrom_update rfl fun b bk hb => ?_
        exact ⟨bk, hb, rfl⟩
      · intro i
        refine worker_update rfl ?_ i
        rfl
  | @unclaimNone t k n res hk hpc hc =>
      have hquiet : (s.setStore k.inst ((s.insts k.inst).store.unclaim k.id)).Books := by
        refine h.quiet_inst (pendingFrom_of_tasks rfl) ?_ ?_ rfl
        · refine bucketsFrom_update rfl fun b bk hb => ?_
          exact ⟨bk, hb, rfl⟩
        · intro i
          refine worker_update rfl ?_ i
          rfl
      refine hquiet.quiet (pendingFrom_resume ?_ ?_ res) (by cases res <;> rfl) (by cases res <;> rfl)
      · exact hk
      · rfl
  | @notify t k n res hk hpc =>
      refine h.quiet (pendingFrom_resume hk ?_ res) (by cases res <;> rfl) (by cases res <;> rfl)
      rfl
  | takeAbsent hk hpc hb => exact h.quiet (pendingFrom_answer hk rfl _) rfl rfl
  | takeEmpty hk hpc hb hl ht =>
      refine h.quiet_inst (pendingFrom_answer hk rfl _) ?_ ?_ rfl
      · exact bucketsFrom_modify fun bk => by simp
      · intro i
        refine worker_update rfl ?_ i
        rfl
  | spend hk hpc hb hl ht =>
      refine h.frame (pendingFrom_answer hk rfl _) ?_ ?_ ?_ Ledger.appends_amend
      · exact bucketsFrom_modify fun bk => by simp
      · intro i
        refine worker_update rfl ?_ i
        rfl
      · exact fun F hF => Ledger.keeps_amend fun x _ => hF x
  | remove hk hpc =>
      refine h.quiet_inst (pendingFrom_answer hk rfl _) ?_ ?_ rfl
      · apply bucketsFrom_update rfl
        intro b bk hb
        exact ⟨bk, (DashMap.get_remove_eq_some.mp hb).2, rfl⟩
      · intro i
        refine worker_update rfl ?_ i
        rfl
  | cancel hk hc => exact h.quiet (pendingFrom_goto hk (by simp [Pc.pending]) rfl) rfl rfl
  | orphan hk hpc =>
      exact h.frame (pendingFrom_goto hk (by simp [Pc.pending]) rfl) (bucketsFrom_of_insts rfl) (fun _ => rfl)
        (fun F _ => Ledger.keeps_lease) Ledger.appends_lease
  | elapse =>
      refine h.quiet_inst (pendingFrom_of_tasks rfl) ?_ ?_ rfl
      · refine bucketsFrom_update rfl fun b bk hb => ?_
        exact ⟨bk, hb, rfl⟩
      · intro i
        refine worker_update rfl ?_ i
        rfl
  | redisElapse => exact h.quiet (pendingFrom_of_tasks rfl) rfl rfl
  | tickNothing hw he => exact h
  | plan hp => exact h.plan hp
  | @note i b todo found bk hw hb ht hl =>
      obtain ⟨x, hx, hinst, hid, -, -⟩ := hv.lots i b ⟨bk.tokens, (s.insts i).origin b⟩ (by simp [account, hb])
      have hn : x.noted = none := by
        have hs := h.shutdown i
        unfold ShutdownBooks at hs
        rw [hw] at hs
        exact hs.2.1 _ x hx hinst (hid ▸ List.mem_cons_self)
      have hr : x.released = false := (hv.balanced.sound x (List.mem_of_getElem? hx)).unnoted hn
      exact h.note hw hb hx hinst hid hr
  | @sweep i c b chunks rest hw hc =>
      refine ⟨h.pending, h.distinct, h.window_frame ?_ (Ledger.Keeps.refl _ _), fun j => ?_⟩
      · apply bucketsFrom_update rfl
        intro b' bk hb
        exact ⟨bk, (DashMap.get_remove_eq_some.mp hb).2, rfl⟩
      · by_cases hj : j = i
        · subst hj
          have hsj := h.shutdown j
          unfold ShutdownBooks at hsj ⊢
          rw [hw] at hsj
          rw [setInst_insts_self]
          exact hsj
        · exact (h.shutdown j).frame (by simp [hj]) (Ledger.Keeps.refl _ _) (Ledger.Appends.refl _)
  | release hw hc => exact h.release hw hc

/-- Every step shows a step of the account or none; tokens are spent by tasks at their last look
at an unexpired bucket. -/
theorem account_step {cfg : Config} {a : Action ι IpAddr} (h : s.Books) (hs : Step cfg s a s') :
    s'.account = s.account ∨ ∃ act, (accounts cfg).next s.account act = some s'.account ∧
      ∀ i b, act = .spend i b → ∃ t k bk, a = .run t ∧ s.tasks t = some k ∧ k.inst = i ∧ k.id = b ∧
        k.pc = .take ∧ (s.insts i).store.buckets.get b = some bk ∧ bk.isExpired (s.insts i).now = false ∧
        bk.isEmpty = false := by
  cases hs with
  | spawn ht => exact .inl (account_same rfl rfl)
  | move hk hm => exact .inl (account_same rfl rfl)
  | rejected hk hpc hc => exact .inl (account_same rfl rfl)
  | claim hk hpc hc =>
      refine .inl (account_update rfl (fun b => ?_) rfl)
      rfl
  | @script t k n started link res hk hpc hc =>
      exact .inr ⟨.lease k.inst k.id, rfl, by simp⟩
  | unreachable hk hpc => exact .inl (account_same rfl rfl)
  | refusedAbsent hk hpc hb => exact .inl (account_same rfl rfl)
  | @refused t k n g ttl window bk hk hpc hb =>
      refine .inl (account_update rfl (fun b => ?_) rfl)
      simp only [DashMap.get_modify]
      split
      · next hbb =>
          subst hbb
          simp [hb, Bucket.setExhausted]
      · rfl
  | @insert t k n g leased ttl window hk hpc hpos =>
      obtain ⟨x, hx, harr⟩ := h.pending t k g leased window hk (by simp [hpc, Pc.pending])
      simp only [Grant.arrival, Prod.mk.injEq] at harr
      obtain ⟨hinst, hid, hlanded, htokens, -⟩ := harr
      refine .inr ⟨.land g, ?_, by simp⟩
      have hput : ((s.insertBucket k.inst k.id g (.new (s.insts k.inst).now leased ttl window)).goto t k
          (.refilled n (.ok ()))).account =
          { ledger := s.ledger.land g
            held := Function.update s.account.held (k.inst, k.id) (some ⟨leased, g⟩) } :=
        account_put rfl rfl (by simp [Bucket.new]) fun b' hb' => by simp [hb']
      rw [hput]
      simp only [accounts, Account.land, account, hx, hlanded, htokens, hinst, hid, hpos, and_self, if_true]
  | unclaim hk hpc hc =>
      refine .inl (account_update rfl (fun b => ?_) rfl)
      rfl
  | @unclaimNone t k n res hk hpc hc =>
      refine .inl (account_update (i := k.inst)
        (v := { s.insts k.inst with store := (s.insts k.inst).store.unclaim k.id }) ?_ (fun b => rfl) ?_)
      · cases res <;> rfl
      · cases res <;> rfl
  | @notify t k n res hk hpc => exact .inl (account_same (by cases res <;> rfl) (by cases res <;> rfl))
  | takeAbsent hk hpc hb => exact .inl (account_same rfl rfl)
  | @takeEmpty t k bk hk hpc hb hl ht =>
      refine .inl (account_update rfl (fun b => ?_) rfl)
      simp only [DashMap.get_modify]
      split
      · next hbb =>
          subst hbb
          simp only [hb, Option.map_some, Bucket.consume_of_isEmpty ht]
      · rfl
  | @spend t k bk hk hpc hb hl ht =>
      rw [Bucket.isEmpty_eq_false_iff] at ht
      refine .inr ⟨.spend k.inst k.id, ?_, ?_⟩
      · have hput : ({ s.modifyBucket k.inst k.id (fun bk => bk.consume.2) with
            ledger := s.ledger.spend ((s.insts k.inst).origin k.id) }.answer t k (.ok (bk.tokens - 1))).account =
            { ledger := s.ledger.spend ((s.insts k.inst).origin k.id)
              held := Function.update s.account.held (k.inst, k.id)
                (some ⟨bk.tokens - 1, (s.insts k.inst).origin k.id⟩) } :=
          account_put rfl rfl (by simp [hb]) fun b' hb' => by simp [hb']
        rw [hput]
        have hheld : s.account.held (k.inst, k.id) =
            some ⟨(bk.tokens - 1) + 1, (s.insts k.inst).origin k.id⟩ := by
          simp only [account, hb, Option.map_some]
          rw [Nat.sub_add_cancel ht]
        simp only [accounts, Account.spend, hheld]
        rfl
      · rintro _ _ ⟨⟩
        exact ⟨t, k, bk, rfl, hk, rfl, rfl, hpc, hb, hl, by simpa using ht⟩
  | @remove t k hk hpc =>
      refine .inr ⟨.lose k.inst k.id, ?_, by simp⟩
      have hput : ((s.setStore k.inst ((s.insts k.inst).store.removeBucket k.id)).answer t k (.ok 0)).account =
          { ledger := s.ledger, held := Function.update s.account.held (k.inst, k.id) none } :=
        account_put rfl rfl (by simp [Store.removeBucket]) fun b' hb' => by simp [Store.removeBucket, hb']
      rw [hput]
      rfl
  | cancel hk hc => exact .inl (account_same rfl rfl)
  | @orphan t k hk hpc => exact .inr ⟨.lease k.inst k.id, rfl, by simp⟩
  | elapse =>
      refine .inl (account_update rfl (fun b => ?_) rfl)
      rfl
  | @redisElapse ms => exact .inr ⟨.elapse ms, rfl, by simp⟩
  | tickNothing hw he => exact .inl rfl
  | plan hp =>
      refine .inl (account_update rfl (fun b => ?_) rfl)
      rfl
  | @note i b todo found bk hw hb ht hl =>
      refine .inr ⟨.note i b, ?_, by simp⟩
      have hs := h.shutdown i
      unfold ShutdownBooks at hs
      rw [hw] at hs
      have hheld : s.account.held (i, b) = some ⟨bk.tokens, (s.insts i).origin b⟩ := by simp [account, hb]
      have hun : s.account.Unnoted i b := by
        intro x hx hinst hid
        obtain ⟨g, hg⟩ := List.mem_iff_getElem?.mp hx
        exact hs.2.1 g x hg hinst (hid ▸ List.mem_cons_self)
      have heq : ({ s.setWorker i (.noting todo (found ++ [⟨b, bk.tokens, bk.window, (s.insts i).origin b⟩])) with
          ledger := s.ledger.note ((s.insts i).origin b) bk.tokens } : Sys ι IpAddr).account =
          { s.account with ledger := s.ledger.note ((s.insts i).origin b) bk.tokens } := by
        refine account_ext rfl fun j c => ?_
        by_cases hj : j = i
        · subst hj
          simp [account]
        · simp [account, hj]
      rw [heq]
      simp only [accounts, Account.note, hheld, if_pos hun]
      rfl
  | @sweep i c b chunks rest hw hc =>
      refine .inr ⟨.lose i b, ?_, by simp⟩
      have hput : (s.setInst i { s.insts i with
          store := (s.insts i).store.removeBucket b, worker := .sweeping (chunks.set c rest) }).account =
          { ledger := s.ledger, held := Function.update s.account.held (i, b) none } :=
        account_put rfl rfl (by simp [Store.removeBucket]) fun b' hb' => by simp [Store.removeBucket, hb']
      rw [hput]
      rfl
  | @release i c link chunks p rest hw hc =>
      refine .inr ⟨.release p.grant, ?_, by simp⟩
      have hs := h.shutdown i
      unfold ShutdownBooks at hs
      rw [hw] at hs
      obtain ⟨x, hx, hpaper⟩ := hs.2 p ((Chunks.perm_flatten_set hc).mem_iff.mpr List.mem_cons_self)
      obtain ⟨-, hid, hwin, hnoted, hrel⟩ := Grant.paper_eq_some.mp hpaper
      have heq : ({ s.setWorker i (.releasing (chunks.set c rest)) with
          ledger := (s.ledger.release p.grant p.id p.tokens p.window).2 } : Sys ι IpAddr).account =
          { s.account with ledger := (s.ledger.release p.grant p.id p.tokens p.window).2 } := by
        refine account_ext rfl fun j c => ?_
        by_cases hj : j = i
        · subst hj
          simp [account]
        · simp [account, hj]
      have hx' : s.account.ledger.grants[p.grant]? = some x := hx
      rw [heq]
      simp only [accounts, Account.release, hx', hnoted, hrel, hid, hwin, if_true]
      rfl

end Steps

end Sys

section Results

variable [DecidableEq ι] [DecidableEq IpAddr] [ToString IpAddr] {cfg : Config} {s : Sys ι IpAddr}

theorem books_valid (hs : Reach (sys cfg) s) : s.Books ∧ s.account.Valid cfg := by
  refine ReachWhen.invariant (I := fun s => s.Books ∧ s.account.Valid cfg) ?_ ?_ hs
  · rintro _ ⟨clock, now, rfl⟩
    refine ⟨⟨by simp [Sys.start], by simp [Sys.start], by simp [Sys.start, Store.new], fun i => ?_⟩, ?_⟩
    · unfold Sys.ShutdownBooks
      cases hc : cfg.cleanup.enabled <;> simp [Sys.start, hc, Sys.Unnoted, Ledger.start]
    · exact Account.valid_start cfg now
  · rintro s a s' - ⟨h, hv⟩ - hnext
    have hstep := Sys.step_of_next hnext
    refine ⟨h.step hv hstep, ?_⟩
    rcases Sys.account_step h hstep with he | ⟨act, hact, -⟩
    · exact he ▸ hv
    · exact hv.next hact

/-- The system refines the account: guards on its steps that imply guards on the account's. -/
theorem account_simulation {g : Sys ι IpAddr → Action ι IpAddr → Prop}
    {g' : Account ι IpAddr → AccountAction ι IpAddr → Prop}
    (hg : ∀ s a act, g s a → (∀ i b, act = .spend i b → ∃ t k bk, a = .run t ∧ s.tasks t = some k ∧
      k.inst = i ∧ k.id = b ∧ k.pc = .take ∧ (s.insts i).store.buckets.get b = some bk ∧
      bk.isExpired (s.insts i).now = false ∧ bk.isEmpty = false) → g' s.account act) :
    Simulation (sys cfg) g (accounts cfg) g' Sys.account where
  init := by
    rintro _ ⟨clock, now, rfl⟩
    exact ⟨now, rfl⟩
  step s a s' hr hga hnext := by
    obtain ⟨h, hv⟩ := books_valid hr.reach
    rcases Sys.account_step h (Sys.step_of_next hnext) with he | ⟨act, hact, hspend⟩
    · exact .inl he
    · exact .inr ⟨act, hg s a act hga hspend, hact⟩

end Results

end ThatLimit
