import Mathlib.Algebra.Order.Ring.Nat
import Mathlib.Tactic.Ring
/-!
# Numbers as digits

Reading the digits of a number from the front gives the number back, be they the digits of a
numeral without leading zeros or the places of a number of fixed width.
-/
namespace Digits

/-- The number with the digits `ds` after `acc`. -/
def value (b acc : Nat) (ds : List Nat) : Nat := ds.foldl (fun n d => n * b + d) acc

@[simp] theorem value_nil (b acc : Nat) : value b acc [] = acc := rfl

@[simp] theorem value_cons (b acc d : Nat) (ds : List Nat) : value b acc (d :: ds) = value b (acc * b + d) ds := rfl

theorem value_append (b acc : Nat) (ds ds' : List Nat) : value b acc (ds ++ ds') = value b (value b acc ds) ds' :=
  List.foldl_append

/-- The places of a number, the highest first. -/
def places (b k n : Nat) : List Nat := (List.range k).map fun i => n / b ^ (k - 1 - i) % b

@[simp] theorem length_places (b k n : Nat) : (places b k n).length = k := by simp [places]

theorem places_succ (b k n : Nat) : places b (k + 1) n = n / b ^ k % b :: places b k n := by
  unfold places
  rw [List.range_succ_eq_map, List.map_cons, List.map_map]
  refine congrArg₂ List.cons rfl (List.map_congr_left fun i hi => ?_)
  simp only [Function.comp_apply]
  congr 3
  omega

theorem lt_of_mem_places {b k n d : Nat} (hb : 0 < b) (h : d ∈ places b k n) : d < b := by
  obtain ⟨i, -, rfl⟩ := List.mem_map.mp h
  exact Nat.mod_lt _ hb

theorem value_places (b k n acc : Nat) : value b acc (places b k n) = acc * b ^ k + n % b ^ k := by
  induction k generalizing acc with
  | zero => simp [places, Nat.mod_one]
  | succ k ih =>
      rw [places_succ, value_cons, ih, Nat.mod_pow_succ]
      ring

variable {b : Nat} {digit : Char → Option Nat}

/-- `digit` reads the digits up to the base. -/
def Reads (b : Nat) (digit : Char → Option Nat) : Prop := ∀ d, d < b → digit d.digitChar = some d

theorem isSome_of_mem_toDigits (hb : 1 < b) (hd : Reads b digit) {n : Nat} {c : Char} (hc : c ∈ Nat.toDigits b n) :
    (digit c).isSome = true := by
  induction n using Nat.base_induction b hb with
  | single m hm =>
      obtain rfl : c = m.digitChar := by simpa [Nat.toDigits_of_lt_base hm] using hc
      rw [hd m hm]
      rfl
  | digit m k hk hm ih =>
      rw [← Nat.toDigits_append_toDigits hb hm hk, List.mem_append, Nat.toDigits_of_lt_base hk, List.mem_singleton] at hc
      rcases hc with hc | rfl
      · exact ih hc
      · rw [hd k hk]
        rfl

theorem value_toDigits (hb : 1 < b) (hd : Reads b digit) (n : Nat) :
    value b 0 ((Nat.toDigits b n).filterMap digit) = n := by
  induction n using Nat.base_induction b hb with
  | single m hm => simp [Nat.toDigits_of_lt_base hm, hd m hm]
  | digit m k hk hm ih =>
      rw [← Nat.toDigits_append_toDigits hb hm hk, List.filterMap_append, value_append, ih, Nat.toDigits_of_lt_base hk]
      simp [hd k hk, Nat.mul_comm]

theorem eq_zero_of_head (hb : 1 < b) {n : Nat} (h : (Nat.toDigits b n).head? = some '0') : n = 0 := by
  induction n using Nat.base_induction b hb with
  | single m hm => simpa [Nat.toDigits_of_lt_base hm] using h
  | digit m k hk hm ih =>
      rw [← Nat.toDigits_append_toDigits hb hm hk, List.head?_append, List.head?_eq_some_head Nat.toDigits_ne_nil,
        Option.some_or, ← List.head?_eq_some_head] at h
      have hzero := ih h
      omega

end Digits
