import Mathlib.Data.List.Basic
/-!
# Loops that return early

A loop over a list that returns at the first element with a verdict, and otherwise
ends with the last thing it noted on the way. Elements that give neither do not
matter, and nested loops are one loop over the concatenation.
-/

namespace Scan

variable {α β γ : Type*}

/-- `seen` is what was noted so far. -/
def scan (verdict : α → Option β) (note : α → Option γ) : List α → Option γ → β ⊕ Option γ
  | [], seen => .inr seen
  | x :: xs, seen =>
      match verdict x with
      | some b => .inl b
      | none => scan verdict note xs ((note x).or seen)

variable {verdict : α → Option β} {note : α → Option γ}

/-- The first verdict counts, whatever was noted; without one it is the last note. -/
theorem scan_eq (xs : List α) (seen : Option γ) :
    scan verdict note xs seen =
      (xs.findSome? verdict).elim (.inr ((xs.findSomeRev? note).or seen)) .inl := by
  induction xs generalizing seen with
  | nil => rfl
  | cons x xs ih =>
      rw [scan, List.findSome?_cons, List.findSomeRev?]
      cases verdict x with
      | some b => rfl
      | none =>
          simp only [ih]
          cases xs.findSomeRev? note with
          | some c => rfl
          | none => rfl

theorem scan_append (xs ys : List α) (seen : Option γ) :
    scan verdict note (xs ++ ys) seen = (scan verdict note xs seen).elim .inl (scan verdict note ys) := by
  induction xs generalizing seen with
  | nil => rfl
  | cons x xs ih =>
      rw [List.cons_append, scan, scan]
      cases verdict x with
      | some b => rfl
      | none => exact ih _

theorem scan_filter {p : α → Bool} (hp : ∀ x, p x = false → verdict x = none ∧ note x = none) (xs : List α)
    (seen : Option γ) : scan verdict note (xs.filter p) seen = scan verdict note xs seen := by
  induction xs generalizing seen with
  | nil => rfl
  | cons x xs ih =>
      rw [scan]
      cases hx : p x with
      | true =>
          rw [List.filter_cons_of_pos hx, scan]
          cases verdict x with
          | some b => rfl
          | none => exact ih _
      | false =>
          obtain ⟨hverdict, hnote⟩ := hp x hx
          rw [List.filter_cons_of_neg (by simp [hx]), hverdict, hnote]
          exact ih _

end Scan
