import ThatLimit.Framework.Transition
import Mathlib.Logic.Function.Basic
/-!
# Single flight over a table of notifies

A task that finds no entry under a key puts a fresh notify there and becomes the
leader for the key; later it removes the entry by key and, in a second step, calls
`notify_waiters` on what it removed. A task that finds an entry takes hold of the
notify, then registers on it, and sleeps until the next call. Nothing else is assumed
of the tasks: they may look at any key at any time and leave at any time.
-/

namespace SingleFlight

open Transition

variable {κ : Type*}

inductive Role (κ : Type*)
  | away
  | leader (key : κ) (n : Nat)
  /-- Has removed notify `n` and is about to call `notify_waiters` on it. -/
  | notifying (key : κ) (n : Nat)
  | holding (key : κ) (n : Nat)
  /-- Registered when `notify_waiters` had been called `calls` times. -/
  | waiting (key : κ) (n calls : Nat)

structure Flight (κ : Type*) where
  table : κ → Option Nat
  role : Nat → Role κ
  calls : Nat → Nat
  fresh : Nat

inductive Act (κ : Type*)
  | claim (t : Nat) (key : κ)
  | remove (t : Nat)
  | notify (t : Nat)
  | look (t : Nat) (key : κ)
  | register (t : Nat)
  | wake (t : Nat)
  | leave (t : Nat)

namespace Flight

def play (s : Flight κ) (t : Nat) (r : Role κ) : Flight κ := { s with role := Function.update s.role t r }

def empty : Flight κ := { table := fun _ => none, role := fun _ => .away, calls := fun _ => 0, fresh := 0 }

@[simp] theorem play_table (s : Flight κ) (t : Nat) (r : Role κ) : (s.play t r).table = s.table := rfl
@[simp] theorem play_calls (s : Flight κ) (t : Nat) (r : Role κ) : (s.play t r).calls = s.calls := rfl
@[simp] theorem play_fresh (s : Flight κ) (t : Nat) (r : Role κ) : (s.play t r).fresh = s.fresh := rfl

@[simp] theorem play_role_self (s : Flight κ) (t : Nat) (r : Role κ) : (s.play t r).role t = r :=
  Function.update_self ..

theorem play_role_ne (s : Flight κ) {t t' : Nat} (h : t' ≠ t) (r : Role κ) :
    (s.play t r).role t' = s.role t' := Function.update_of_ne h ..

theorem role_of_play {s : Flight κ} {t t' : Nat} {r r' : Role κ} (h : (s.play t r).role t' = r')
    (hne : r ≠ r') : t' ≠ t ∧ s.role t' = r' := by
  by_cases ht : t' = t
  · rw [ht, play_role_self] at h
    exact absurd h hne
  · rw [play_role_ne s ht] at h
    exact ⟨ht, h⟩

variable [DecidableEq κ]

def next (s : Flight κ) : Act κ → Option (Flight κ)
  | .claim t key =>
      match s.role t, s.table key with
      | .away, none =>
          some ({ s with table := Function.update s.table key (some s.fresh)
                         fresh := s.fresh + 1 }.play t (.leader key s.fresh))
      | _, _ => none
  | .remove t =>
      match s.role t with
      | .leader key _ =>
          let s' := { s with table := Function.update s.table key none }
          match s.table key with
          | some n => some (s'.play t (.notifying key n))
          | none => some (s'.play t .away)
      | _ => none
  | .notify t =>
      match s.role t with
      | .notifying _ n => some ({ s with calls := Function.update s.calls n (s.calls n + 1) }.play t .away)
      | _ => none
  | .look t key =>
      match s.role t, s.table key with
      | .away, some n => some (s.play t (.holding key n))
      | _, _ => none
  | .register t =>
      match s.role t with
      | .holding key n => some (s.play t (.waiting key n (s.calls n)))
      | _ => none
  | .wake t =>
      match s.role t with
      | .waiting _ n calls => if s.calls n = calls then none else some (s.play t .away)
      | _ => none
  | .leave t => some (s.play t .away)

/-- Every way through `next`. -/
inductive Step (s : Flight κ) : Act κ → Flight κ → Prop
  | claim {t key} (hr : s.role t = .away) (h : s.table key = none) :
      Step s (.claim t key) ({ s with table := Function.update s.table key (some s.fresh)
                                      fresh := s.fresh + 1 }.play t (.leader key s.fresh))
  | remove {t key n n'} (hr : s.role t = .leader key n) (h : s.table key = some n') :
      Step s (.remove t) ({ s with table := Function.update s.table key none }.play t (.notifying key n'))
  | removeNone {t key n} (hr : s.role t = .leader key n) (h : s.table key = none) :
      Step s (.remove t) ({ s with table := Function.update s.table key none }.play t .away)
  | notify {t key n} (hr : s.role t = .notifying key n) :
      Step s (.notify t) ({ s with calls := Function.update s.calls n (s.calls n + 1) }.play t .away)
  | look {t key n} (hr : s.role t = .away) (h : s.table key = some n) :
      Step s (.look t key) (s.play t (.holding key n))
  | register {t key n} (hr : s.role t = .holding key n) :
      Step s (.register t) (s.play t (.waiting key n (s.calls n)))
  | wake {t key n calls} (hr : s.role t = .waiting key n calls) (h : s.calls n ≠ calls) :
      Step s (.wake t) (s.play t .away)
  | leave {t} : Step s (.leave t) (s.play t .away)

theorem step_of_next {s s' : Flight κ} {a : Act κ} (h : s.next a = some s') : s.Step a s' := by
  cases a with
  | claim t key =>
      simp only [next] at h
      split at h
      · next hr hk => cases h; exact .claim hr hk
      · cases h
  | remove t =>
      simp only [next] at h
      split at h
      · next hr =>
          split at h
          · next hk => cases h; exact .remove hr hk
          · next hk => cases h; exact .removeNone hr hk
      · cases h
  | notify t =>
      simp only [next] at h
      split at h
      · next hr => cases h; exact .notify hr
      · cases h
  | look t key =>
      simp only [next] at h
      split at h
      · next hr hk => cases h; exact .look hr hk
      · cases h
  | register t =>
      simp only [next] at h
      split at h
      · next hr => cases h; exact .register hr
      · cases h
  | wake t =>
      simp only [next] at h
      split at h
      · next hr =>
          rw [Option.ite_none_left_eq_some] at h
          obtain ⟨hne, h⟩ := h
          cases h
          exact .wake hr hne
      · cases h
  | leave t => cases h; exact .leave

end Flight

def flights [DecidableEq κ] : System (Flight κ) (Act κ) where
  init s := s = Flight.empty
  next := Flight.next

/-- Entries and leaders: a leader's own notify is stored, and no two leaders share one. -/
structure Exclusive (s : Flight κ) : Prop where
  stored : ∀ t key n, s.role t = .leader key n → s.table key = some n
  distinct : ∀ t t' key key' n, s.role t = .leader key n → s.role t' = .leader key' n → t = t'
  bound : ∀ key n, s.table key = some n → n < s.fresh

theorem Exclusive.unique {s : Flight κ} (h : Exclusive s) {t t' : Nat} {key : κ} {n n' : Nat}
    (ht : s.role t = .leader key n) (ht' : s.role t' = .leader key n') : t = t' := by
  obtain rfl : n = n' := Option.some.inj ((h.stored t key n ht).symm.trans (h.stored t' key n' ht'))
  exact h.distinct t t' key key n ht ht'

private theorem Exclusive.play {s : Flight κ} (h : Exclusive s) (t : Nat) {r : Role κ}
    (hr : ∀ key n, r ≠ .leader key n) : Exclusive (s.play t r) where
  stored := fun t' key n ht' => h.stored t' key n (Flight.role_of_play ht' (hr key n)).2
  distinct := fun t₁ t₂ key₁ key₂ n h₁ h₂ =>
    h.distinct t₁ t₂ key₁ key₂ n (Flight.role_of_play h₁ (hr key₁ n)).2 (Flight.role_of_play h₂ (hr key₂ n)).2
  bound := h.bound

variable [DecidableEq κ]

/-- The leader takes out its own entry, so the entries of all other leaders stay. -/
private theorem Exclusive.remove {s : Flight κ} (h : Exclusive s) {t : Nat} {key : κ} {n : Nat}
    (ht : s.role t = .leader key n) {r : Role κ} (hr : ∀ key n, r ≠ .leader key n) :
    Exclusive ({ s with table := Function.update s.table key none }.play t r) := by
  refine ⟨?_, (h.play t hr).distinct, ?_⟩
  · intro t' key' n' ht'
    obtain ⟨hne, ht'⟩ := Flight.role_of_play ht' (hr key' n')
    have hkey : key' ≠ key := fun hk => hne (h.unique (hk ▸ ht') ht)
    exact (Function.update_of_ne hkey ..).trans (h.stored t' key' n' ht')
  · intro key' n' hk'
    by_cases hkey : key' = key
    · simp [hkey] at hk'
    · exact h.bound key' n' ((Function.update_of_ne hkey ..).symm.trans hk')

theorem Exclusive.step {s s' : Flight κ} {a : Act κ} (h : Exclusive s) (hs : s.Step a s') :
    Exclusive s' := by
  cases hs with
  | @claim t key hr hk =>
      refine ⟨?_, ?_, ?_⟩
      · intro t' key' n ht'
        by_cases ht : t' = t
        · rw [ht, Flight.play_role_self] at ht'
          cases ht'
          exact Function.update_self ..
        · have hold := h.stored t' key' n ((Flight.play_role_ne _ ht _).symm.trans ht')
          have hkey : key' ≠ key := fun he => by rw [he, hk] at hold; cases hold
          exact (Function.update_of_ne hkey ..).trans hold
      · -- the notify of the new leader is fresh
        have hfresh : ∀ t' key', s.role t' ≠ .leader key' s.fresh := fun t' key' ht' =>
          Nat.lt_irrefl _ (h.bound key' _ (h.stored t' key' _ ht'))
        intro t₁ t₂ key₁ key₂ n h₁ h₂
        by_cases ht₁ : t₁ = t <;> by_cases ht₂ : t₂ = t
        · rw [ht₁, ht₂]
        · rw [ht₁, Flight.play_role_self] at h₁
          cases h₁
          exact absurd ((Flight.play_role_ne _ ht₂ _).symm.trans h₂) (hfresh t₂ key₂)
        · rw [ht₂, Flight.play_role_self] at h₂
          cases h₂
          exact absurd ((Flight.play_role_ne _ ht₁ _).symm.trans h₁) (hfresh t₁ key₁)
        · exact h.distinct t₁ t₂ key₁ key₂ n ((Flight.play_role_ne _ ht₁ _).symm.trans h₁)
            ((Flight.play_role_ne _ ht₂ _).symm.trans h₂)
      · intro key' n hk'
        by_cases hkey : key' = key
        · subst hkey
          obtain rfl : s.fresh = n := by simpa using hk'
          exact Nat.lt_succ_self _
        · exact Nat.lt_succ_of_lt (h.bound key' n ((Function.update_of_ne hkey ..).symm.trans hk'))
  | remove hr hk => exact h.remove hr (by simp)
  | removeNone hr hk => exact h.remove hr (by simp)
  | @notify t key n hr =>
      have hp := h.play t (r := .away) (by simp)
      exact ⟨hp.stored, hp.distinct, hp.bound⟩
  | look hr hk => exact h.play _ (by simp)
  | register hr => exact h.play _ (by simp)
  | wake hr hne => exact h.play _ (by simp)
  | leave => exact h.play _ (by simp)

theorem exclusive {s : Flight κ} (hs : Reach flights s) : Exclusive s := by
  refine ReachWhen.invariant ?_ (fun _ _ _ _ h _ hnext => h.step (Flight.step_of_next hnext)) hs
  rintro _ rfl
  exact ⟨by simp [Flight.empty], by simp [Flight.empty], by simp [Flight.empty]⟩

/-- A notify is put into the table once, taken out once and called once, in this order. -/
structure Singular (s : Flight κ) : Prop where
  fresh : ∀ n, s.fresh ≤ n → s.calls n = 0
  stored : ∀ key n, s.table key = some n → n < s.fresh ∧ s.calls n = 0
  apart : ∀ key key' n, s.table key = some n → s.table key' = some n → key = key'
  taken : ∀ t key n, s.role t = .notifying key n →
    n < s.fresh ∧ s.calls n = 0 ∧ ∀ key', s.table key' ≠ some n
  once : ∀ t t' key key' n, s.role t = .notifying key n → s.role t' = .notifying key' n → t = t'

omit [DecidableEq κ] in
private theorem Singular.play {s : Flight κ} (h : Singular s) (t : Nat) {r : Role κ}
    (hr : ∀ key n, r ≠ .notifying key n) : Singular (s.play t r) where
  fresh := h.fresh
  stored := h.stored
  apart := h.apart
  taken := fun t' key n ht' => h.taken t' key n (Flight.role_of_play ht' (hr key n)).2
  once := fun t₁ t₂ key₁ key₂ n h₁ h₂ =>
    h.once t₁ t₂ key₁ key₂ n (Flight.role_of_play h₁ (hr key₁ n)).2 (Flight.role_of_play h₂ (hr key₂ n)).2

private theorem Singular.erase {s : Flight κ} (h : Singular s) (key : κ) :
    Singular { s with table := Function.update s.table key none } := by
  have old {key' n} (hk : Function.update s.table key none key' = some n) :
      key' ≠ key ∧ s.table key' = some n := by
    by_cases hkey : key' = key
    · simp [hkey] at hk
    · exact ⟨hkey, (Function.update_of_ne hkey ..).symm.trans hk⟩
  exact ⟨h.fresh, fun key' n hk => h.stored key' n (old hk).2,
    fun k₁ k₂ n h₁ h₂ => h.apart k₁ k₂ n (old h₁).2 (old h₂).2,
    fun t k n ht => ⟨(h.taken t k n ht).1, (h.taken t k n ht).2.1, fun k' hk => (h.taken t k n ht).2.2 k' (old hk).2⟩,
    h.once⟩

theorem Singular.step {s s' : Flight κ} {a : Act κ} (h : Singular s) (hs : s.Step a s') : Singular s' := by
  cases hs with
  | @claim t key hr hk =>
      refine Singular.play (s := { s with table := Function.update s.table key (some s.fresh), fresh := s.fresh + 1 })
        ⟨fun n hn => h.fresh n (Nat.le_of_succ_le hn), ?_, ?_, ?_, h.once⟩ t (by simp)
      · intro key' n hk'
        by_cases hkey : key' = key
        · obtain rfl : s.fresh = n := by simpa [hkey] using hk'
          exact ⟨Nat.lt_succ_self _, h.fresh _ (Nat.le_refl _)⟩
        · obtain ⟨hlt, hc⟩ := h.stored key' n ((Function.update_of_ne hkey ..).symm.trans hk')
          exact ⟨Nat.lt_succ_of_lt hlt, hc⟩
      · -- what was stored before is older than the new notify
        have hne {key' n} (hkey : key' ≠ key) (hk' : Function.update s.table key (some s.fresh) key' = some n) :
            n ≠ s.fresh :=
          Nat.ne_of_lt (h.stored key' n ((Function.update_of_ne hkey ..).symm.trans hk')).1
        intro k₁ k₂ n h₁ h₂
        by_cases hk₁ : k₁ = key <;> by_cases hk₂ : k₂ = key
        · rw [hk₁, hk₂]
        · exact absurd (by simpa [hk₁] using h₁.symm) (hne hk₂ h₂)
        · exact absurd (by simpa [hk₂] using h₂.symm) (hne hk₁ h₁)
        · exact h.apart k₁ k₂ n ((Function.update_of_ne hk₁ ..).symm.trans h₁)
            ((Function.update_of_ne hk₂ ..).symm.trans h₂)
      · intro t' key' n ht'
        obtain ⟨hlt, hc, hno⟩ := h.taken t' key' n ht'
        refine ⟨Nat.lt_succ_of_lt hlt, hc, fun k' hk' => ?_⟩
        by_cases hkey : k' = key
        · have he : s.fresh = n := by simpa [hkey] using hk'
          omega
        · exact hno k' ((Function.update_of_ne hkey ..).symm.trans hk')
  | @remove t key n₀ n hr hk =>
      have he := h.erase key
      obtain ⟨hlt, hc⟩ := h.stored key n hk
      refine ⟨he.fresh, he.stored, he.apart, ?_, ?_⟩
      · intro t' key' n' ht'
        by_cases ht : t' = t
        · rw [ht, Flight.play_role_self] at ht'
          cases ht'
          refine ⟨hlt, hc, fun k' hk' => ?_⟩
          by_cases hkey : k' = key
          · simp [hkey] at hk'
          · exact hkey (h.apart k' key n ((Function.update_of_ne hkey ..).symm.trans hk') hk)
        · exact he.taken t' key' n' ((Flight.play_role_ne _ ht _).symm.trans ht')
      · -- nobody else took it out, as it was still there
        have hnew {t' key'} (ht' : s.role t' = .notifying key' n) : False := (h.taken t' key' n ht').2.2 key hk
        intro t₁ t₂ key₁ key₂ n' h₁ h₂
        by_cases ht₁ : t₁ = t <;> by_cases ht₂ : t₂ = t
        · rw [ht₁, ht₂]
        · rw [ht₁, Flight.play_role_self] at h₁
          cases h₁
          exact (hnew ((Flight.play_role_ne _ ht₂ _).symm.trans h₂)).elim
        · rw [ht₂, Flight.play_role_self] at h₂
          cases h₂
          exact (hnew ((Flight.play_role_ne _ ht₁ _).symm.trans h₁)).elim
        · exact h.once t₁ t₂ key₁ key₂ n' ((Flight.play_role_ne _ ht₁ _).symm.trans h₁)
            ((Flight.play_role_ne _ ht₂ _).symm.trans h₂)
  | @removeNone t key n hr hk => exact (h.erase key).play t (by simp)
  | @notify t key n hr =>
      obtain ⟨hlt, hc, hno⟩ := h.taken t key n hr
      have hcalls {m} (hm : m ≠ n) : Function.update s.calls n (s.calls n + 1) m = s.calls m :=
        Function.update_of_ne hm ..
      refine ⟨fun m hm => (hcalls (by simp only [Flight.play_fresh] at hm; omega)).trans (h.fresh m hm), ?_, h.apart, ?_, ?_⟩
      · intro key' m hk'
        have hm : m ≠ n := fun he => hno key' (he ▸ hk')
        exact ⟨(h.stored key' m hk').1, (hcalls hm).trans (h.stored key' m hk').2⟩
      · intro t' key' m ht'
        obtain ⟨hne, ht'⟩ := Flight.role_of_play ht' (by simp)
        have hm : m ≠ n := fun he => hne (h.once t' t key' key n (he ▸ ht') hr)
        obtain ⟨hlt', hc', hno'⟩ := h.taken t' key' m ht'
        exact ⟨hlt', (hcalls hm).trans hc', hno'⟩
      · exact fun t₁ t₂ key₁ key₂ m h₁ h₂ => h.once t₁ t₂ key₁ key₂ m
          (Flight.role_of_play h₁ (by simp)).2 (Flight.role_of_play h₂ (by simp)).2
  | look hr hk => exact h.play _ (by simp)
  | register hr => exact h.play _ (by simp)
  | wake hr hne => exact h.play _ (by simp)
  | leave => exact h.play _ (by simp)

theorem singular {s : Flight κ} (hs : Reach flights s) : Singular s := by
  refine ReachWhen.invariant ?_ (fun _ _ _ _ h _ hnext => h.step (Flight.step_of_next hnext)) hs
  rintro _ rfl
  exact ⟨by simp [Flight.empty], by simp [Flight.empty], by simp [Flight.empty], by simp [Flight.empty],
    by simp [Flight.empty]⟩

/-- No leader leaves before it has removed its entry. -/
def LeadersStay (s : Flight κ) (a : Act κ) : Prop := ∀ t key n, a = .leave t → s.role t ≠ .leader key n

/-- Every entry has its leader. -/
def Attended (s : Flight κ) : Prop := ∀ key n, s.table key = some n → ∃ t, s.role t = .leader key n

/-- While leaders stay, every entry is going to be removed by somebody. -/
theorem attended {s : Flight κ} (hs : ReachWhen flights LeadersStay s) : Attended s := by
  refine ReachWhen.invariant ?_ ?_ hs
  · rintro _ rfl key n hk
    cases hk
  · intro s a s' hr h hg hnext key' n' hk'
    have keep : ∀ {t r}, (∀ key n, s.role t ≠ .leader key n) → s.table key' = some n' →
        ∃ t', (s.play t r).role t' = .leader key' n' := by
      intro t r hno hk
      obtain ⟨t', ht'⟩ := h key' n' hk
      have hne : t' ≠ t := fun he => hno key' n' (he ▸ ht')
      exact ⟨t', (Flight.play_role_ne s hne r).trans ht'⟩
    have other : ∀ {t key n r}, s.role t = .leader key n → (Function.update s.table key none) key' = some n' →
        ∃ t', (s.play t r).role t' = .leader key' n' := by
      intro t key n r ht hk
      have hkey : key' ≠ key := fun he => by simp [he] at hk
      obtain ⟨t', ht'⟩ := h key' n' ((Function.update_of_ne hkey ..).symm.trans hk)
      have hne : t' ≠ t := fun he => by
        rw [he, ht] at ht'
        cases ht'
        exact hkey rfl
      exact ⟨t', (Flight.play_role_ne s hne r).trans ht'⟩
    cases Flight.step_of_next hnext with
    | @claim t key hrole hk =>
        by_cases hkey : key' = key
        · subst hkey
          obtain rfl : s.fresh = n' := by simpa using hk'
          exact ⟨t, Flight.play_role_self ..⟩
        · exact keep (t := t) (by simp [hrole]) ((Function.update_of_ne hkey ..).symm.trans hk')
    | remove hrole hk => exact other hrole hk'
    | removeNone hrole hk => exact other hrole hk'
    | notify hrole => exact keep (by simp [hrole]) hk'
    | look hrole hk => exact keep (by simp [hrole]) hk'
    | register hrole => exact keep (by simp [hrole]) hk'
    | wake hrole hne => exact keep (by simp [hrole]) hk'
    | leave => exact keep (fun key n => hg _ key n rfl) hk'

/-- An entry without a leader. -/
structure Abandoned (s : Flight κ) (key : κ) (n : Nat) : Prop where
  stored : s.table key = some n
  unled : ∀ t n, s.role t ≠ .leader key n

/-- Nothing removes an abandoned entry, and nobody becomes its leader. -/
theorem Abandoned.step {s s' : Flight κ} {a : Act κ} {key : κ} {n : Nat} (h : Abandoned s key n)
    (hs : s.Step a s') : Abandoned s' key n := by
  have unled : ∀ {t r}, (∀ m, r ≠ .leader key m) → ∀ t' m, (s.play t r).role t' ≠ .leader key m :=
    fun hr t' m ht' => h.unled t' m (Flight.role_of_play ht' (hr m)).2
  cases hs with
  | @claim t key' hr hk =>
      have hkey : key ≠ key' := fun he => by
        rw [← he, h.stored] at hk
        cases hk
      refine ⟨(Function.update_of_ne hkey ..).trans h.stored, unled fun m he => hkey ?_⟩
      cases he
      rfl
  | @remove t key' n₀ n' hr hk =>
      have hkey : key ≠ key' := fun he => h.unled t n₀ (he ▸ hr)
      exact ⟨(Function.update_of_ne hkey ..).trans h.stored, unled (by simp)⟩
  | @removeNone t key' n₀ hr hk =>
      have hkey : key ≠ key' := fun he => h.unled t n₀ (he ▸ hr)
      exact ⟨(Function.update_of_ne hkey ..).trans h.stored, unled (by simp)⟩
  | notify hr => exact ⟨h.stored, unled (by simp)⟩
  | look hr hk => exact ⟨h.stored, unled (by simp)⟩
  | register hr => exact ⟨h.stored, unled (by simp)⟩
  | wake hr hne => exact ⟨h.stored, unled (by simp)⟩
  | leave => exact ⟨h.stored, unled (by simp)⟩

/-- Nobody leaves, and every registration comes before `notify_waiters`. -/
def InTime (s : Flight κ) : Act κ → Prop
  | .leave _ => False
  | .register t => ∀ key n, s.role t = .holding key n → s.calls n = 0
  | _ => True

/-- Whoever is registered on notify `n` of the key has been or will be woken: the call was
made, the notify is still stored, or it was removed and the call is the next step of the remover. -/
def Awaited (s : Flight κ) (key : κ) (n : Nat) : Prop :=
  s.calls n ≠ 0 ∨ s.table key = some n ∨ ∃ t, s.role t = .notifying key n

/-- A sleeper registered before the first call on its notify. -/
structure Awake (s : Flight κ) : Prop where
  holding : ∀ t key n, s.role t = .holding key n → Awaited s key n
  waiting : ∀ t key n calls, s.role t = .waiting key n calls → calls = 0 ∧ Awaited s key n

omit [DecidableEq κ] in
private theorem Awaited.play {s : Flight κ} {key : κ} {n t : Nat} (h : Awaited s key n) (r : Role κ)
    (hno : ∀ key n, s.role t ≠ .notifying key n) : Awaited (s.play t r) key n := by
  rcases h with hc | hk | ⟨t', ht'⟩
  · exact .inl hc
  · exact .inr (.inl hk)
  · have hne : t' ≠ t := fun he => hno key n (he ▸ ht')
    exact .inr (.inr ⟨t', (Flight.play_role_ne s hne r).trans ht'⟩)

private theorem Awaited.step {s s' : Flight κ} {a : Act κ} {key : κ} {n : Nat} (h : Awaited s key n)
    (hg : InTime s a) (hs : s.Step a s') : Awaited s' key n := by
  cases hs with
  | @claim t key' hr hk =>
      rcases h.play (.leader key' s.fresh) (t := t) (by simp [hr]) with hc | htab | hn
      · exact .inl hc
      · have hkey : key ≠ key' := fun he => by
          rw [he] at htab
          exact absurd (hk.symm.trans htab) (by simp)
        exact .inr (.inl ((Function.update_of_ne hkey ..).trans htab))
      · exact .inr (.inr hn)
  | @remove t key' n₀ n' hr hk =>
      rcases h.play (.notifying key' n') (t := t) (by simp [hr]) with hc | htab | hn
      · exact .inl hc
      · by_cases hkey : key = key'
        · subst hkey
          obtain rfl : n' = n := Option.some.inj (hk.symm.trans htab)
          exact .inr (.inr ⟨t, Flight.play_role_self ..⟩)
        · exact .inr (.inl ((Function.update_of_ne hkey ..).trans htab))
      · exact .inr (.inr hn)
  | @removeNone t key' n₀ hr hk =>
      rcases h.play .away (t := t) (by simp [hr]) with hc | htab | hn
      · exact .inl hc
      · have hkey : key ≠ key' := fun he => by
          rw [he] at htab
          exact absurd (hk.symm.trans htab) (by simp)
        exact .inr (.inl ((Function.update_of_ne hkey ..).trans htab))
      · exact .inr (.inr hn)
  | @notify t key' n' hr =>
      by_cases hn : n = n'
      · subst hn
        exact .inl (by simp)
      · rcases h with hc | htab | ⟨t', ht'⟩
        · exact .inl (by simpa [Function.update_of_ne hn] using hc)
        · exact .inr (.inl htab)
        · have hne : t' ≠ t := fun he => by
            rw [he, hr] at ht'
            cases ht'
            exact hn rfl
          exact .inr (.inr ⟨t', (Flight.play_role_ne _ hne _).trans ht'⟩)
  | look hr hk => exact h.play _ (by simp [hr])
  | register hr => exact h.play _ (by simp [hr])
  | wake hr hne => exact h.play _ (by simp [hr])
  | leave => exact hg.elim

private theorem Awake.of_play {s s' : Flight κ} {a : Act κ} (h : Awake s) (hg : InTime s a)
    (hs : s.Step a s') {t : Nat} {r : Role κ} (hroles : s'.role = (s.play t r).role)
    (hhold : ∀ key n, r = .holding key n → Awaited s key n)
    (hwait : ∀ key n calls, r = .waiting key n calls → calls = 0 ∧ Awaited s key n) : Awake s' := by
  constructor
  · intro t' key n ht'
    rw [hroles] at ht'
    by_cases ht : t' = t
    · rw [ht, Flight.play_role_self] at ht'
      exact (hhold key n ht').step hg hs
    · exact (h.holding t' key n ((Flight.play_role_ne s ht r).symm.trans ht')).step hg hs
  · intro t' key n calls ht'
    rw [hroles] at ht'
    by_cases ht : t' = t
    · rw [ht, Flight.play_role_self] at ht'
      exact ⟨(hwait key n calls ht').1, (hwait key n calls ht').2.step hg hs⟩
    · obtain ⟨hc, hw⟩ := h.waiting t' key n calls ((Flight.play_role_ne s ht r).symm.trans ht')
      exact ⟨hc, hw.step hg hs⟩

theorem Awake.step {s s' : Flight κ} {a : Act κ} (h : Awake s) (hg : InTime s a) (hs : s.Step a s') :
    Awake s' := by
  cases hs with
  | claim hr hk => exact h.of_play hg (.claim hr hk) rfl (by simp) (by simp)
  | remove hr hk => exact h.of_play hg (.remove hr hk) rfl (by simp) (by simp)
  | removeNone hr hk => exact h.of_play hg (.removeNone hr hk) rfl (by simp) (by simp)
  | notify hr => exact h.of_play hg (.notify hr) rfl (by simp) (by simp)
  | look hr hk =>
      refine h.of_play hg (.look hr hk) rfl ?_ (by simp)
      rintro _ _ ⟨⟩
      exact .inr (.inl hk)
  | @register t key n hr =>
      refine h.of_play hg (.register hr) rfl (by simp) ?_
      rintro _ _ _ ⟨⟩
      exact ⟨hg key n hr, h.holding t key n hr⟩
  | wake hr hne => exact h.of_play hg (.wake hr hne) rfl (by simp) (by simp)
  | leave => exact hg.elim

theorem awake {s : Flight κ} (hs : ReachWhen flights InTime s) : Awake s := by
  refine ReachWhen.invariant ?_ (fun _ _ _ _ h hg hnext => h.step hg (Flight.step_of_next hnext)) hs
  rintro _ rfl
  exact ⟨by simp [Flight.empty], by simp [Flight.empty]⟩

/-- Whoever holds a notify is in time to register on it. -/
def Timely (s : Flight κ) : Prop := ∀ t key n, s.role t = .holding key n → s.calls n = 0

theorem Timely.of_step {s s' : Flight κ} {a : Act κ} (hs : Singular s) (hfree : ∀ t key n, s.role t ≠ .holding key n)
    (hstep : s.Step a s') : Timely s' := by
  have old : ∀ {t r t' key n}, r ≠ .holding key n → (s.play t r).role t' ≠ .holding key n :=
    fun hr ht' => hfree _ _ _ (Flight.role_of_play ht' hr).2
  intro t' key n ht'
  cases hstep with
  | @look t key₀ m hr hk =>
      by_cases ht : t' = t
      · rw [ht, Flight.play_role_self] at ht'
        cases ht'
        exact (hs.stored key n hk).2
      · exact absurd ((Flight.play_role_ne s ht _).symm.trans ht') (hfree t' key n)
  | claim hr hk | remove hr hk | removeNone hr hk | notify hr | register hr | wake hr hne | leave =>
      exact absurd ht' (old (by simp))

omit [DecidableEq κ] in
theorem Timely.register {s : Flight κ} (h : Timely s) (t : Nat) (key : κ) (n calls : Nat) :
    Timely (s.play t (.waiting key n calls)) :=
  fun t' key' n' ht' => h t' key' n' (Flight.role_of_play ht' (by simp)).2

omit [DecidableEq κ] in
/-- No sleeper is forgotten: it has been notified, or a leader or a notifying task is still under way. -/
theorem Awake.prospect {s : Flight κ} (h : Awake s) (hled : Attended s) {t : Nat} {key : κ} {n calls : Nat}
    (ht : s.role t = .waiting key n calls) :
    s.calls n ≠ calls ∨ ∃ t', s.role t' = .leader key n ∨ s.role t' = .notifying key n := by
  obtain ⟨rfl, hcalls | hstored | ⟨t', ht'⟩⟩ := h.waiting t key n calls ht
  · exact .inl hcalls
  · obtain ⟨t', ht'⟩ := hled key n hstored
    exact .inr ⟨t', .inl ht'⟩
  · exact .inr ⟨t', .inr ht'⟩

end SingleFlight
