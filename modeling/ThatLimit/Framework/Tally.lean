import Mathlib.Algebra.BigOperators.Fin
import Mathlib.Algebra.Order.BigOperators.Group.Finset
import Mathlib.Algebra.Order.BigOperators.Group.List
import Mathlib.Algebra.Order.Ring.Nat
/-!
# Totals over an append-only list of records

Records are only ever appended or amended in place. `tally w l` is the total
weight of the records; the lemmas say what an append and an amendment do to it. A
total over a finite family, one member of which changes, is treated alike.
-/

namespace Tally

variable {α : Type*}

/-- Total weight of the records of `l`. -/
def tally (w : α → Nat) (l : List α) : Nat := (l.map w).sum

@[simp] theorem tally_nil (w : α → Nat) : tally w [] = 0 := rfl

@[simp] theorem tally_cons (w : α → Nat) (a : α) (l : List α) :
    tally w (a :: l) = w a + tally w l := rfl

@[simp] theorem tally_append (w : α → Nat) (l l' : List α) :
    tally w (l ++ l') = tally w l + tally w l' := by
  simp [tally]

theorem tally_modify (w : α → Nat) (f : α → α) {l : List α} {i : Nat} {a : α}
    (h : l[i]? = some a) : tally w (l.modify i f) + w a = tally w l + w (f a) := by
  induction l generalizing i with
  | nil => simp at h
  | cons b l ih =>
      cases i with
      | zero =>
          obtain rfl : b = a := by simpa using h
          simp only [List.modify_zero_cons, tally_cons]
          omega
      | succ i =>
          have hi := ih (i := i) (by simpa using h)
          simp only [List.modify_succ_cons, tally_cons]
          omega

theorem tally_modify_of_eq (w : α → Nat) (f : α → α) {l : List α} {i : Nat}
    (hf : ∀ a, l[i]? = some a → w (f a) = w a) : tally w (l.modify i f) = tally w l := by
  cases h : l[i]? with
  | none => rw [List.modify_eq_self (List.getElem?_eq_none_iff.mp h)]
  | some a =>
      have hm := tally_modify w f h
      rw [hf a h] at hm
      omega

theorem forall_mem_modify {P : α → Prop} {f : α → α} {l : List α} {i : Nat} (h : ∀ a ∈ l, P a)
    (hf : ∀ a, l[i]? = some a → P (f a)) : ∀ a ∈ l.modify i f, P a := by
  intro a ha
  obtain ⟨j, hj⟩ := List.mem_iff_getElem?.mp ha
  rw [List.getElem?_modify] at hj
  obtain ⟨b, hb, hab⟩ := Option.map_eq_some_iff.mp hj
  split at hab
  · next hij => exact hab ▸ hf b (hij ▸ hb)
  · exact hab ▸ h b (List.mem_of_getElem? hb)

theorem tally_le_tally {v w : α → Nat} {l : List α} (h : ∀ a ∈ l, v a ≤ w a) :
    tally v l ≤ tally w l := List.sum_le_sum h

theorem tally_eq_zero {w : α → Nat} {l : List α} (h : ∀ a ∈ l, w a = 0) : tally w l = 0 := by
  induction l with
  | nil => rfl
  | cons a l ih =>
      rw [tally_cons, h a (by simp), ih fun b hb => h b (by simp [hb])]

theorem tally_add_const (w : α → Nat) (c : Nat) (l : List α) : tally (fun a => w a + c) l = tally w l + c * l.length := by
  induction l with
  | nil => rfl
  | cons a l ih =>
      simp only [tally_cons, List.length_cons, Nat.mul_add, Nat.mul_one, ih]
      omega

/-- One record loses weight, and the others gain at most `c` each. -/
theorem tally_shift {v w : α → Nat} {l : List α} {a : α} {c : Nat} (hnodup : l.Nodup) (ha : a ∈ l)
    (h : ∀ b ∈ l, b ≠ a → v b ≤ w b + c) : tally v l + w a ≤ tally w l + v a + c * l.length := by
  induction l with
  | nil => cases ha
  | cons b l ih =>
      obtain ⟨hb, hnodup⟩ := List.nodup_cons.mp hnodup
      simp only [tally_cons, List.length_cons, Nat.mul_add, Nat.mul_one]
      rcases List.mem_cons.mp ha with rfl | ha
      · have hrest : tally v l ≤ tally (fun b => w b + c) l := tally_le_tally fun x hx =>
          h x (List.mem_cons_of_mem a hx) fun heq => hb (heq ▸ hx)
        rw [tally_add_const] at hrest
        omega
      · have hrest := ih hnodup ha fun x hx => h x (List.mem_cons_of_mem b hx)
        have hhead := h b List.mem_cons_self fun heq => hb (heq ▸ ha)
        omega

theorem tally_perm (w : α → Nat) {l l' : List α} (h : l.Perm l') : tally w l = tally w l' := (h.map w).sum_eq

theorem sum_add_of_eq_off {ι : Type*} [Fintype ι] [DecidableEq ι] {f g : ι → Nat} (i : ι)
    (h : ∀ j, j ≠ i → f j = g j) : ∑ j, f j + g i = ∑ j, g j + f i := by
  have hrest : ∑ j ∈ Finset.univ.erase i, f j = ∑ j ∈ Finset.univ.erase i, g j :=
    Finset.sum_congr rfl fun j hj => h j (Finset.ne_of_mem_erase hj)
  rw [← Finset.sum_erase_add _ f (Finset.mem_univ i), ← Finset.sum_erase_add _ g (Finset.mem_univ i), hrest]
  omega

end Tally
