import Mathlib.Algebra.BigOperators.Fin
import Mathlib.Algebra.Order.BigOperators.Group.Finset
import Mathlib.Algebra.Order.Floor.Div
import Mathlib.GroupTheory.GroupAction.Ring
import ThatLimit.Framework.Tally
/-!
# Drawing from a common stock in batches

Holders draw units one by one, each from a batch of its own, and go to the common
stock for the next batch. A holder that has had a batch before and finds the stock
empty does not go there again. Whatever the order of the draws, no unit is lost; one
holder alone draws like a plain counter.
-/

/-- What a holder has left, and whether it has given up on the stock. -/
structure Batch where
  left : Nat
  shut : Bool
  deriving DecidableEq

structure Pool (ι : Type*) where
  stock : Nat
  batch : ι → Option Batch
  drawn : Nat
  /-- How often a holder has gone to the stock. -/
  visits : Nat

namespace Pool

variable {ι : Type*}

@[ext] theorem ext {p q : Pool ι} (hstock : p.stock = q.stock) (hbatch : ∀ i, p.batch i = q.batch i)
    (hdrawn : p.drawn = q.drawn) (hvisits : p.visits = q.visits) : p = q := by
  cases p
  cases q
  cases hstock
  cases hdrawn
  cases hvisits
  exact congrArg (fun batch => Pool.mk _ batch _ _) (funext hbatch)

def start (quota : Nat) : Pool ι := { stock := quota, batch := fun _ => none, drawn := 0, visits := 0 }

def left (p : Pool ι) (i : ι) : Nat := ((p.batch i).map Batch.left).getD 0

variable [DecidableEq ι]

/-- Holder `i` takes the next batch from the stock, and a unit from it. -/
def visit (p : Pool ι) (size : Nat) (i : ι) : Option Nat × Pool ι :=
  if p.stock = 0 then
    (none, { p with
      batch := Function.update p.batch i ((p.batch i).map fun b => { b with shut := true })
      visits := p.visits + 1 })
  else
    (some (min size p.stock - 1),
      { stock := p.stock - min size p.stock
        batch := Function.update p.batch i (some ⟨min size p.stock - 1, false⟩)
        drawn := p.drawn + 1
        visits := p.visits + 1 })

/-- Holder `i` draws a unit and is told what is left of its batch, or is refused. -/
def draw (p : Pool ι) (size : Nat) (i : ι) : Option Nat × Pool ι :=
  match p.batch i with
  | some ⟨_, true⟩ => (none, p)
  | some ⟨t + 1, false⟩ =>
      (some t, { p with batch := Function.update p.batch i (some ⟨t, false⟩), drawn := p.drawn + 1 })
  | _ => p.visit size i

variable {p : Pool ι} {size : Nat} {i : ι}

theorem draw_of_shut {b : Batch} (h : p.batch i = some b) (hs : b.shut = true) : p.draw size i = (none, p) := by
  obtain ⟨t, shut⟩ := b
  obtain rfl : shut = true := hs
  simp [draw, h]

theorem draw_of_held {t : Nat} (h : p.batch i = some ⟨t + 1, false⟩) : p.draw size i =
    (some t, { p with batch := Function.update p.batch i (some ⟨t, false⟩), drawn := p.drawn + 1 }) := by
  simp [draw, h]

theorem draw_of_used (h : ∀ b, p.batch i = some b → b.left = 0 ∧ b.shut = false) :
    p.draw size i = p.visit size i := by
  unfold draw
  split
  · next hb => cases (h _ hb).2
  · next t hb => cases (h _ hb).1
  · rfl

theorem draw_cases (p : Pool ι) (size : Nat) (i : ι) :
    (∃ b, p.batch i = some b ∧ b.shut = true ∧ p.draw size i = (none, p)) ∨
    (∃ t, p.batch i = some ⟨t + 1, false⟩ ∧ p.draw size i =
      (some t, { p with batch := Function.update p.batch i (some ⟨t, false⟩), drawn := p.drawn + 1 })) ∨
    ((∀ b, p.batch i = some b → b.left = 0 ∧ b.shut = false) ∧ p.draw size i = p.visit size i) := by
  cases hb : p.batch i with
  | none =>
      have hused : ∀ b, p.batch i = some b → b.left = 0 ∧ b.shut = false := by simp [hb]
      exact .inr (.inr ⟨by simp, draw_of_used hused⟩)
  | some b =>
      obtain ⟨t, shut⟩ := b
      cases shut with
      | true => exact .inl ⟨_, rfl, rfl, draw_of_shut hb rfl⟩
      | false =>
          cases t with
          | zero =>
              have hused : ∀ b, p.batch i = some b → b.left = 0 ∧ b.shut = false := by simp [hb]
              exact .inr (.inr ⟨by simp, draw_of_used hused⟩)
          | succ t => exact .inr (.inl ⟨t, rfl, draw_of_held hb⟩)

section Conservation

variable [Fintype ι] {quota : Nat}

/-- No unit is lost, a batch is within its size, and who has given up holds nothing and misses nothing. -/
structure Sound (quota size : Nat) (p : Pool ι) : Prop where
  conserved : p.stock + ∑ i, p.left i + p.drawn = quota
  bounded : ∀ i, p.left i ≤ size
  shut : ∀ i b, p.batch i = some b → b.shut = true → p.stock = 0 ∧ b.left = 0

omit [DecidableEq ι] in
theorem sound_start (quota size : Nat) : (start quota : Pool ι).Sound quota size where
  conserved := by simp [start, left]
  bounded := by simp [start, left]
  shut := by simp [start]

omit [Fintype ι] in
theorem left_update (p : Pool ι) (i : ι) (b : Option Batch) (stock drawn visits : Nat) (j : ι) :
    left { stock, batch := Function.update p.batch i b, drawn, visits } j =
      Function.update p.left i ((b.map Batch.left).getD 0) j := by
  by_cases hj : j = i
  · subst hj
    simp [left]
  · simp [left, hj]

theorem sum_left_update (p : Pool ι) (i : ι) (b : Option Batch) (stock drawn visits : Nat) :
    ∑ j, left { stock, batch := Function.update p.batch i b, drawn, visits } j + p.left i =
      ∑ j, p.left j + (b.map Batch.left).getD 0 := by
  have hself := left_update p i b stock drawn visits i
  rw [Function.update_self] at hself
  rw [← hself]
  apply Tally.sum_add_of_eq_off
  intro j hj
  rw [left_update, Function.update_of_ne hj]

/-- The batch of the drawing holder is replaced, and what it lacks has been drawn or was in stock. -/
private theorem Sound.put (h : p.Sound quota size) {b : Option Batch} {stock drawn : Nat} (visits : Nat)
    (hsum : stock + (b.map Batch.left).getD 0 + drawn = p.stock + p.left i + p.drawn)
    (hb : (b.map Batch.left).getD 0 ≤ size) (hstock : stock ≤ p.stock)
    (hshut : ∀ b', b = some b' → b'.shut = true → stock = 0 ∧ b'.left = 0) :
    Sound quota size { stock, batch := Function.update p.batch i b, drawn, visits } := by
  refine ⟨?_, fun j => ?_, fun j b' hb' hs => ?_⟩
  · have hc := h.conserved
    have hl := sum_left_update p i b stock drawn visits
    simp only at hl ⊢
    omega
  · rw [left_update]
    by_cases hj : j = i
    · simpa [hj] using hb
    · simpa [hj] using h.bounded j
  · by_cases hj : j = i
    · subst hj
      exact hshut b' (by simpa using hb') hs
    · have hold := h.shut j b' (by simpa [hj] using hb') hs
      exact ⟨Nat.eq_zero_of_le_zero (hold.1 ▸ hstock), hold.2⟩

theorem Sound.draw (h : p.Sound quota size) (hsize : 0 < size) (i : ι) : (p.draw size i).2.Sound quota size := by
  rcases draw_cases p size i with ⟨b, -, -, hd⟩ | ⟨t, hb, hd⟩ | ⟨hused, hd⟩
  · rw [hd]
    exact h
  · rw [hd]
    have hleft : p.left i = t + 1 := by simp [left, hb]
    have hle := h.bounded i
    exact h.put _ (by simp only [Option.map_some, Option.getD_some]; omega)
      (by simp only [Option.map_some, Option.getD_some]; omega) (Nat.le_refl _) (by simp)
  · rw [hd]
    have hleft : p.left i = 0 := by
      cases hb : p.batch i with
      | none => simp [left, hb]
      | some b => simp [left, hb, (hused b hb).1]
    unfold visit
    split
    · next hstock =>
        have hmap : (((p.batch i).map fun b => { b with shut := true }).map Batch.left).getD 0 = 0 := by
          simpa [left, Function.comp_def] using hleft
        refine h.put _ (by rw [hmap, hleft]) (by omega) (Nat.le_refl _) fun b' hb' _ => ⟨hstock, ?_⟩
        obtain ⟨b, hb, rfl⟩ := Option.map_eq_some_iff.mp hb'
        exact (hused b hb).1
    · next hstock =>
        refine h.put _ ?_ ?_ (Nat.sub_le _ _) (by simp)
        · simp only [Option.map_some, Option.getD_some]
          omega
        · simp only [Option.map_some, Option.getD_some]
          omega

theorem refused (h : p.Sound quota size) (hd : (p.draw size i).1 = none) : p.stock = 0 ∧ p.left i = 0 := by
  rcases draw_cases p size i with ⟨b, hb, hs, -⟩ | ⟨t, -, hd'⟩ | ⟨hused, hd'⟩
  · obtain ⟨hstock, hleft⟩ := h.shut i b hb hs
    exact ⟨hstock, by simp [left, hb, hleft]⟩
  · rw [hd'] at hd
    cases hd
  · rw [hd'] at hd
    unfold visit at hd
    split at hd
    · next hstock =>
        refine ⟨hstock, ?_⟩
        cases hb : p.batch i with
        | none => simp [left, hb]
        | some b => simp [left, hb, (hused b hb).1]
    · cases hd

/-- What a refused holder misses is in the batches of the others. -/
theorem quota_le_of_refused (h : p.Sound quota size) (hd : (p.draw size i).1 = none) :
    quota ≤ p.drawn + (Fintype.card ι - 1) * size := by
  obtain ⟨hstock, hleft⟩ := refused h hd
  have hothers : ∑ j ∈ Finset.univ.erase i, p.left j ≤ (Fintype.card ι - 1) * size := by
    have hcard : (Finset.univ.erase i).card = Fintype.card ι - 1 := Finset.card_erase_of_mem (Finset.mem_univ i)
    rw [← hcard]
    exact Finset.sum_le_card_nsmul _ _ _ fun j _ => h.bounded j
  have hsplit := Finset.sum_erase_add Finset.univ p.left (Finset.mem_univ i)
  have hc := h.conserved
  omega

end Conservation

section Alone

/-- The pool after `n` draws by its only holder. -/
def after (quota size n : Nat) : Pool ι :=
  { stock := quota - min (size * (min n quota ⌈/⌉ size)) quota
    batch := fun _ =>
      if n = 0 then none
      else some ⟨min (size * (min n quota ⌈/⌉ size)) quota - min n quota, decide (quota < n)⟩
    drawn := min n quota
    visits := (min n quota ⌈/⌉ size) + if quota < n then 1 else 0 }

omit [DecidableEq ι] in
theorem after_zero (quota size : Nat) : (after quota size 0 : Pool ι) = start quota := by
  refine Pool.ext ?_ ?_ ?_ ?_ <;> simp [after, start]

theorem succ_ceilDiv (hsize : 0 < size) (n : Nat) : (n + 1) ⌈/⌉ size = n / size + 1 := by
  have hpred : n + 1 + size - 1 = n + size := by omega
  rw [Nat.ceilDiv_eq_add_pred_div, hpred, Nat.add_div_right _ hsize]

theorem ceilDiv_cases (hsize : 0 < size) (n : Nat) :
    (n % size = 0 ∧ n ⌈/⌉ size = n / size) ∨ (0 < n % size ∧ n ⌈/⌉ size = n / size + 1) := by
  have hn := Nat.div_add_mod n size
  rcases Nat.eq_zero_or_pos (n % size) with hmod | hmod
  · left
    refine ⟨hmod, ?_⟩
    rw [hmod, Nat.add_zero] at hn
    rw [Nat.ceilDiv_eq_add_pred_div, ← hn, Nat.add_sub_assoc hsize, Nat.mul_add_div hsize,
      Nat.mul_div_cancel_left _ hsize, Nat.div_eq_of_lt (Nat.sub_lt hsize Nat.one_pos), Nat.add_zero]
  · right
    refine ⟨hmod, ?_⟩
    obtain ⟨m, rfl⟩ : ∃ m, n = m + 1 := Nat.exists_eq_succ_of_ne_zero fun h => by simp [h] at hmod
    rw [succ_ceilDiv hsize, Nat.succ_div_of_not_dvd fun h => by rw [Nat.mod_eq_zero_of_dvd h] at hmod; omega]

omit [DecidableEq ι] in
private theorem after_between {quota n : Nat} (hsize : 0 < size) (hn : n < quota) (hmod : n % size = 0) :
    (after quota size n : Pool ι) =
      { stock := quota - n
        batch := fun _ => if n = 0 then none else some ⟨0, false⟩
        drawn := n
        visits := n / size } := by
  have hdiv := Nat.div_add_mod n size
  have hceil : n ⌈/⌉ size = n / size := by
    rcases ceilDiv_cases hsize n with h | h
    · exact h.2
    · omega
  have hhanded : min (size * (n / size)) quota = n := by omega
  have hr : min n quota = n := Nat.min_eq_left (Nat.le_of_lt hn)
  refine Pool.ext ?_ (fun _ => ?_) ?_ ?_ <;> simp [after, hr, hceil, hhanded, Nat.lt_asymm hn]

omit [DecidableEq ι] in
private theorem after_within {quota n : Nat} (hsize : 0 < size) (hn : n < quota) (hmod : 0 < n % size) :
    (after quota size n : Pool ι) =
      { stock := quota - min (size * (n / size + 1)) quota
        batch := fun _ => some ⟨min (size * (n / size + 1)) quota - (n + 1) + 1, false⟩
        drawn := n
        visits := n / size + 1 } := by
  have hdiv := Nat.div_add_mod n size
  have hnext : size * (n / size + 1) = size * (n / size) + size := Nat.mul_succ ..
  have hlt := Nat.mod_lt n hsize
  have hceil : n ⌈/⌉ size = n / size + 1 := by
    rcases ceilDiv_cases hsize n with h | h
    · omega
    · exact h.2
  have hpos : n ≠ 0 := fun h => by simp [h] at hmod
  have hleft : min (size * (n / size + 1)) quota - n = min (size * (n / size + 1)) quota - (n + 1) + 1 := by omega
  have hr : min n quota = n := Nat.min_eq_left (Nat.le_of_lt hn)
  refine Pool.ext ?_ (fun _ => ?_) ?_ ?_ <;> simp [after, hr, hceil, hpos, hleft, Nat.lt_asymm hn]

omit [DecidableEq ι] in
private theorem after_succ {quota n : Nat} (hsize : 0 < size) (hn : n < quota) :
    (after quota size (n + 1) : Pool ι) =
      { stock := quota - min (size * (n / size + 1)) quota
        batch := fun _ => some ⟨min (size * (n / size + 1)) quota - (n + 1), false⟩
        drawn := n + 1
        visits := n / size + 1 } := by
  have hr : min (n + 1) quota = n + 1 := Nat.min_eq_left hn
  have hopen : ¬quota < n + 1 := Nat.not_lt.mpr hn
  refine Pool.ext ?_ (fun _ => ?_) ?_ ?_ <;>
    simp only [after, hr, if_neg hopen, decide_eq_false hopen, if_neg n.succ_ne_zero, succ_ceilDiv hsize, Nat.add_zero]

/-- The draws of a single holder: the units of the stock, batch by batch, then refusals. -/
theorem draw_after [Subsingleton ι] {quota : Nat} (hsize : 0 < size) (hquota : 0 < quota) (n : Nat) (i : ι) :
    (after quota size n : Pool ι).draw size i =
      (if n < quota then some (min size (quota - size * (n / size)) - 1 - n % size) else none,
        after quota size (n + 1)) := by
  have hput (b : Option Batch) (f : ι → Option Batch) (j : ι) : Function.update f i b j = b := by
    rw [Subsingleton.elim j i, Function.update_self]
  have hdiv := Nat.div_add_mod n size
  have hnext : size * (n / size + 1) = size * (n / size) + size := Nat.mul_succ ..
  have hlt := Nat.mod_lt n hsize
  rcases Nat.lt_trichotomy n quota with hn | rfl | hn
  · rw [if_pos hn, after_succ hsize hn]
    rcases Nat.eq_zero_or_pos (n % size) with hmod | hmod
    · rw [after_between hsize hn hmod, draw_of_used, visit, if_neg (by simp only; omega)]
      · refine Prod.ext ?_ (Pool.ext ?_ (fun j => ?_) rfl rfl)
        · simp only [Option.some.injEq]
          omega
        · simp only
          omega
        · simp only [hput, Option.some.injEq, Batch.mk.injEq, and_true]
          omega
      · intro b hb
        simp only [Option.ite_none_left_eq_some] at hb
        cases hb.2
        exact ⟨rfl, rfl⟩
    · rw [after_within hsize hn hmod, draw_of_held rfl]
      refine Prod.ext ?_ (Pool.ext rfl (fun j => hput ..) rfl rfl)
      simp only [Option.some.injEq]
      omega
  · -- the last unit has been drawn: one more visit, in vain
    have hall : min (size * (n ⌈/⌉ size)) n = n := Nat.min_eq_right (le_smul_ceilDiv hsize)
    rw [if_neg (Nat.lt_irrefl _), draw_of_used, visit, if_pos (by simp [after, hall])]
    · refine Prod.ext rfl (Pool.ext ?_ (fun j => ?_) ?_ ?_)
      · simp [after]
      · simp [hput, after, hall, Nat.ne_of_gt hquota]
      · simp [after]
      · simp [after]
    · intro b hb
      simp only [after, Nat.min_self, hall, Nat.sub_self, Nat.lt_irrefl, decide_false,
        Option.ite_none_left_eq_some] at hb
      cases hb.2
      exact ⟨rfl, rfl⟩
  · have hpos : n ≠ 0 := Nat.ne_of_gt (Nat.zero_lt_of_lt hn)
    have hsame : (after quota size n : Pool ι) = after quota size (n + 1) := by
      have hmin : min (n + 1) quota = min n quota := by omega
      refine Pool.ext ?_ (fun _ => ?_) ?_ ?_ <;> simp [after, hmin, hn, Nat.lt_succ_of_lt hn, hpos]
    rw [if_neg (Nat.lt_asymm hn), ← hsame, draw_of_shut (b := ⟨_, true⟩) (by simp [after, hn, hpos]; rfl) rfl]

end Alone

end Pool
