import Mathlib.Data.List.Basic
/-!
# Work lists in chunks

A work list is cut into chunks that are worked off side by side, each from its
front. What is left to do is the concatenation of the chunks.
-/

namespace Chunks

variable {α : Type*}

/-- The list in pieces of `n`, by recursion on a bound on its length. -/
def split (n : Nat) : Nat → List α → List (List α)
  | 0, _ => []
  | _ + 1, [] => []
  | fuel + 1, a :: l => (a :: l).take n :: split n fuel ((a :: l).drop n)

/-- `slice::chunks`. -/
def chunks (n : Nat) (l : List α) : List (List α) := split n l.length l

theorem flatten_split {n : Nat} (hn : 0 < n) {fuel : Nat} {l : List α} (h : l.length ≤ fuel) :
    (split n fuel l).flatten = l := by
  induction fuel generalizing l with
  | zero =>
      obtain rfl : l = [] := List.length_eq_zero_iff.mp (by omega)
      rfl
  | succ fuel ih =>
      cases l with
      | nil => rfl
      | cons a l =>
          have hdrop : ((a :: l).drop n).length ≤ fuel := by
            rw [List.length_drop]
            omega
          rw [split, List.flatten_cons, ih hdrop, List.take_append_drop]

theorem split_map {β : Type*} (f : α → β) (n fuel : Nat) (l : List α) :
    split n fuel (l.map f) = (split n fuel l).map (List.map f) := by
  induction fuel generalizing l with
  | zero => rfl
  | succ fuel ih =>
      cases l with
      | nil => rfl
      | cons a l => simp only [List.map_cons, split, ← ih, List.map_take, List.map_drop]

theorem chunks_map {β : Type*} (f : α → β) (n : Nat) (l : List α) :
    chunks n (l.map f) = (chunks n l).map (List.map f) := by
  rw [chunks, List.length_map, split_map, chunks]

@[simp] theorem flatten_chunks {n : Nat} (hn : 0 < n) (l : List α) : (chunks n l).flatten = l :=
  flatten_split hn (Nat.le_refl _)

/-- Working off the front of one chunk takes one item from what is left, up to the order. -/
theorem perm_flatten_set {cs : List (List α)} {c : Nat} {a : α} {rest : List α}
    (h : cs[c]? = some (a :: rest)) : cs.flatten.Perm (a :: (cs.set c rest).flatten) := by
  induction cs generalizing c with
  | nil => simp at h
  | cons d cs ih =>
      cases c with
      | zero =>
          obtain rfl : d = a :: rest := by simpa using h
          simp
      | succ c =>
          have hp := ih (c := c) (by simpa using h)
          simp only [List.set_cons_succ, List.flatten_cons]
          exact (hp.append_left d).trans List.perm_middle

end Chunks
