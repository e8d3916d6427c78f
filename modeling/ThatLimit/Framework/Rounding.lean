import Mathlib.Algebra.Order.Group.Nat
import Mathlib.Algebra.Ring.Int.Defs
import Mathlib.Tactic.SplitIfs
/-!
# Integers in a floating-point format

A format of `p` binary digits holds an integer when all but its first `p` digits are zero. The
others are rounded to the nearest one it holds, and of two that are equally near to the one with
an even last digit. Exponents are not limited.
-/
namespace Rounding

/-- The weight of the last digit that is kept. -/
def ulp (p n : Nat) : Nat := 2 ^ (n.log2 + 1 - p)

def round (p n : Nat) : Nat :=
  let unit := ulp p n
  let q := n / unit
  (if 2 * (n % unit) < unit then q else if unit < 2 * (n % unit) then q + 1 else q + q % 2) * unit

def roundInt (p : Nat) : Int → Int
  | .ofNat n => round p n
  | .negSucc n => -round p (n + 1)

variable {p n m k : Nat}

theorem ulp_pos (p n : Nat) : 0 < ulp p n := Nat.two_pow_pos _

theorem ulp_dvd_two_pow (h : n.log2 + 1 - p ≤ k) : ulp p n ∣ 2 ^ k := Nat.pow_dvd_pow 2 h

theorem ulp_of_lt (hp : 0 < p) (h : n < 2 ^ p) : ulp p n = 1 := by
  have hlog : n.log2 + 1 - p = 0 := by
    rcases Nat.eq_zero_or_pos n with rfl | hpos
    · simp only [Nat.log2_zero]
      omega
    · have := (Nat.log2_lt (Nat.ne_of_gt hpos)).mpr h
      omega
  rw [ulp, hlog, Nat.pow_zero]

theorem round_bounds (p n : Nat) :
    n / ulp p n * ulp p n ≤ round p n ∧ round p n ≤ (n / ulp p n + 1) * ulp p n ∧
      (n % ulp p n = 0 → round p n = n / ulp p n * ulp p n) := by
  have hpos := ulp_pos p n
  unfold round
  refine ⟨Nat.mul_le_mul_right _ ?_, Nat.mul_le_mul_right _ ?_, fun hzero => ?_⟩
  · split_ifs <;> omega
  · split_ifs <;> omega
  · simp only [hzero]
    rw [if_pos (by omega)]

theorem round_of_dvd (h : ulp p n ∣ n) : round p n = n := by
  rw [(round_bounds p n).2.2 (Nat.mod_eq_zero_of_dvd h), Nat.div_mul_cancel h]

theorem dvd_round (p n : Nat) : ulp p n ∣ round p n := Nat.dvd_mul_left ..

/-- Nothing that the format holds lies between a number and what it is rounded to. -/
theorem le_round_of_dvd (hk : ulp p n ∣ k) (h : k ≤ n) : k ≤ round p n := by
  obtain ⟨c, rfl⟩ := hk
  have hc : c ≤ n / ulp p n := (Nat.le_div_iff_mul_le (ulp_pos p n)).mpr (by rwa [Nat.mul_comm])
  calc ulp p n * c = c * ulp p n := Nat.mul_comm ..
    _ ≤ n / ulp p n * ulp p n := Nat.mul_le_mul_right _ hc
    _ ≤ round p n := (round_bounds p n).1

theorem round_le_of_dvd (hk : ulp p n ∣ k) (h : n ≤ k) : round p n ≤ k := by
  rcases Nat.eq_or_lt_of_le h with rfl | hlt
  · exact Nat.le_of_eq (round_of_dvd hk)
  · obtain ⟨c, rfl⟩ := hk
    have hc : n / ulp p n < c := (Nat.div_lt_iff_lt_mul (ulp_pos p n)).mpr (by rwa [Nat.mul_comm])
    calc round p n ≤ (n / ulp p n + 1) * ulp p n := (round_bounds p n).2.1
      _ ≤ c * ulp p n := Nat.mul_le_mul_right _ hc
      _ = ulp p n * c := Nat.mul_comm ..

/-- The error is at most half a unit. -/
theorem round_near (p n : Nat) : 2 * n ≤ 2 * round p n + ulp p n ∧ 2 * round p n ≤ 2 * n + ulp p n := by
  have hn := Nat.div_add_mod' n (ulp p n)
  have hrest := Nat.mod_lt n (ulp_pos p n)
  unfold round
  simp only
  split_ifs with hlow hhigh
  · omega
  · rw [Nat.add_mul, Nat.one_mul]
    omega
  · have hmod : n / ulp p n % 2 = 0 ∨ n / ulp p n % 2 = 1 := by omega
    rcases hmod with hmod | hmod
    · rw [hmod, Nat.add_zero]
      omega
    · rw [hmod, Nat.add_mul, Nat.one_mul]
      omega

theorem round_near_of_lt (h : n < 2 ^ (p + 1 + k)) : n ≤ round p n + 2 ^ k ∧ round p n ≤ n + 2 ^ k := by
  have hunit : ulp p n ≤ 2 ^ (k + 1) := by
    apply Nat.pow_le_pow_right (by decide)
    rcases Nat.eq_zero_or_pos n with rfl | hpos
    · simp
      omega
    · have := (Nat.log2_lt (Nat.ne_of_gt hpos)).mpr h
      omega
  have hnear := round_near p n
  rw [Nat.pow_succ] at hunit
  omega

section Digits

variable (hp : 0 < p)
include hp

theorem round_of_le (h : n ≤ 2 ^ p) : round p n = n := by
  rcases Nat.eq_or_lt_of_le h with rfl | hlt
  · apply round_of_dvd
    apply ulp_dvd_two_pow
    rw [Nat.log2_two_pow]
    omega
  · apply round_of_dvd
    rw [ulp_of_lt hp hlt]
    exact Nat.one_dvd _

theorem round_le_two_pow (h : n < 2 ^ k) (hk : n.log2 < k) : round p n ≤ 2 ^ k :=
  round_le_of_dvd (ulp_dvd_two_pow (by omega)) (Nat.le_of_lt h)

theorem two_pow_le_round (h : n ≠ 0) : 2 ^ n.log2 ≤ round p n :=
  le_round_of_dvd (ulp_dvd_two_pow (by omega)) (Nat.log2_self_le h)

theorem round_mono (h : n ≤ m) : round p n ≤ round p m := by
  rcases Nat.eq_zero_or_pos n with rfl | hpos
  · rw [round_of_le hp (Nat.zero_le _)]
    exact Nat.zero_le _
  have hm : m ≠ 0 := by omega
  have hlog : n.log2 ≤ m.log2 := (Nat.le_log2 hm).mpr (Nat.le_trans (Nat.log2_self_le (by omega)) h)
  rcases Nat.eq_or_lt_of_le hlog with heq | hlt
  · have hunit : ulp p m = ulp p n := by rw [ulp, ulp, heq]
    rcases Nat.eq_or_lt_of_le (Nat.div_le_div_right (c := ulp p n) h) with hq | hq
    · have hrest : n % ulp p n ≤ m % ulp p n := by
        have hn := Nat.div_add_mod' n (ulp p n)
        have hm := Nat.div_add_mod' m (ulp p n)
        rw [← hq] at hm
        omega
      unfold round
      simp only [hunit, ← hq]
      apply Nat.mul_le_mul_right
      split_ifs <;> omega
    · calc round p n ≤ (n / ulp p n + 1) * ulp p n := (round_bounds p n).2.1
        _ ≤ m / ulp p n * ulp p n := Nat.mul_le_mul_right _ hq
        _ ≤ round p m := by rw [← hunit]; exact (round_bounds p m).1
  · calc round p n ≤ 2 ^ (n.log2 + 1) := round_le_two_pow hp Nat.lt_log2_self (Nat.lt_succ_self _)
      _ ≤ 2 ^ m.log2 := Nat.pow_le_pow_right (by decide) hlt
      _ ≤ round p m := two_pow_le_round hp hm

theorem round_round (n : Nat) : round p (round p n) = round p n := by
  rcases Nat.eq_zero_or_pos n with rfl | hpos
  · rw [round_of_le hp (Nat.zero_le _), round_of_le hp (Nat.zero_le _)]
  apply round_of_dvd
  have hle : round p n ≤ 2 ^ (n.log2 + 1) := round_le_two_pow hp Nat.lt_log2_self (Nat.lt_succ_self _)
  rcases Nat.eq_or_lt_of_le hle with heq | hlt
  · rw [heq]
    apply ulp_dvd_two_pow
    rw [Nat.log2_two_pow]
    omega
  · refine Nat.dvd_trans (Nat.pow_dvd_pow 2 ?_) (dvd_round p n)
    have hne : round p n ≠ 0 := Nat.ne_of_gt (Nat.lt_of_lt_of_le (Nat.two_pow_pos _) (two_pow_le_round hp (by omega)))
    have := (Nat.log2_lt hne).mpr hlt
    omega

theorem even_round (h : 2 ^ p < round p n) : 2 ∣ round p n := by
  have hn : 2 ^ p ≤ n := by
    by_contra hlt
    rw [round_of_le hp (by omega)] at h
    omega
  have hlog := (Nat.le_log2 (Nat.ne_of_gt (Nat.lt_of_lt_of_le (Nat.two_pow_pos p) hn))).mpr hn
  refine Nat.dvd_trans ?_ (dvd_round p n)
  exact Nat.pow_dvd_pow 2 (m := 1) (by omega)

theorem roundInt_of_le {x : Int} (hlow : -2 ^ p ≤ x) (hhigh : x ≤ 2 ^ p) : roundInt p x = x := by
  cases x with
  | ofNat n =>
      have hn : n ≤ 2 ^ p := by
        have hcast : (n : Int) ≤ 2 ^ p := hhigh
        exact_mod_cast hcast
      rw [roundInt, round_of_le hp hn]
      rfl
  | negSucc n =>
      have hn : n + 1 ≤ 2 ^ p := by
        have hcast : ((n + 1 : Nat) : Int) ≤ 2 ^ p := by omega
        exact_mod_cast hcast
      rw [roundInt, round_of_le hp hn]
      rfl

end Digits

@[simp] theorem roundInt_natCast (p n : Nat) : roundInt p n = round p n := rfl

theorem roundInt_nonpos (p : Nat) {x : Int} (h : x ≤ 0) : roundInt p x ≤ 0 := by
  cases x with
  | ofNat n =>
      obtain rfl : n = 0 := by simpa using h
      simp [roundInt, round]
  | negSucc n => simp [roundInt]

end Rounding
