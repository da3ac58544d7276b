import Mathlib.Tactic

/-!
# Filling a whole by halves

A whole is asked for; what is refused is asked for again at half the size, what is
granted is asked for again at the same size.  Parts so taken never overshoot the whole,
because what is left is a multiple of the part asked for.  How the parts round to units
is a separate matter: rounding each part down loses nothing as long as the remainders
stay below one unit together.
-/

namespace NvmeDriver
namespace Lib

/-! ### Rounding the parts of a sum -/

section Rounding

variable {n : Nat} {l : List Nat}

theorem sum_div_mul_add (n : Nat) (l : List Nat) :
    (l.map (· / n)).sum * n + (l.map (· % n)).sum = l.sum := by
  induction l with
  | nil => simp
  | cons x l ih =>
      have hx : x / n * n + x % n = x := by
        rw [Nat.mul_comm]
        exact Nat.div_add_mod x n
      simp only [List.map_cons, List.sum_cons, Nat.add_mul]
      omega

/-- The parts round down to what the sum rounds down to, if the remainders stay below one
unit together. -/
theorem sum_div_eq_iff (hn : 0 < n) (l : List Nat) :
    (l.map (· / n)).sum = l.sum / n ↔ (l.map (· % n)).sum < n := by
  have hsum := sum_div_mul_add n l
  constructor
  · intro heq
    have hlt : l.sum < (l.sum / n + 1) * n := by
      rw [Nat.mul_comm]
      exact Nat.lt_mul_div_succ _ hn
    rw [← heq, Nat.add_mul] at hlt
    omega
  · intro hlt
    rw [← hsum, Nat.mul_comm, Nat.mul_add_div hn, Nat.div_eq_of_lt hlt, Nat.add_zero]

theorem sum_mod_of_dvd (hdvd : ∀ x, x ∈ l → n ∣ x) : (l.map (· % n)).sum = 0 := by
  induction l with
  | nil => rfl
  | cons x l ih =>
      rw [List.map_cons, List.sum_cons, Nat.mod_eq_zero_of_dvd (hdvd x (List.mem_cons_self ..)),
        ih fun y hy => hdvd y (List.mem_cons_of_mem _ hy)]

end Rounding

/-! ### Halving what is refused -/

section Halves

variable (answers : Nat → Bool)

/-- How often the part asked for has been halved after some answers. -/
def refusals : Nat → Nat
  | 0 => 0
  | m + 1 => if answers m then refusals m else refusals m + 1

/-- How often each granted part had been halved. -/
def grants : Nat → List Nat
  | 0 => []
  | m + 1 => if answers m then grants m ++ [refusals answers m] else grants m

/-- What has been taken, in units of the whole halved `n` times. -/
def taken (n m : Nat) : Nat := ((grants answers m).map fun k => 2 ^ (n - k)).sum

variable {answers : Nat → Bool} {n m : Nat}

theorem refusals_granted (h : answers m = true) :
    refusals answers (m + 1) = refusals answers m := by
  simp [refusals, h]

theorem refusals_refused (h : answers m = false) :
    refusals answers (m + 1) = refusals answers m + 1 := by
  simp [refusals, h]

theorem grants_granted (h : answers m = true) :
    grants answers (m + 1) = grants answers m ++ [refusals answers m] := by
  simp [grants, h]

theorem grants_refused (h : answers m = false) :
    grants answers (m + 1) = grants answers m := by
  simp [grants, h]

theorem taken_granted (h : answers m = true) :
    taken answers n (m + 1) = taken answers n m + 2 ^ (n - refusals answers m) := by
  simp [taken, grants_granted h]

theorem taken_refused (h : answers m = false) : taken answers n (m + 1) = taken answers n m := by
  simp [taken, grants_refused h]

theorem grants_le {k : Nat} (hk : k ∈ grants answers m) : k ≤ refusals answers m := by
  induction m with
  | zero => cases hk
  | succ m ih =>
      cases h : answers m with
      | true =>
          rw [grants_granted h, List.mem_append, List.mem_singleton] at hk
          rw [refusals_granted h]
          rcases hk with hk | rfl
          · exact ih hk
          · exact Nat.le_refl _
      | false =>
          rw [grants_refused h] at hk
          rw [refusals_refused h]
          exact (ih hk).trans (Nat.le_succ _)

/-- What is taken is made up of parts of the size asked for. -/
theorem part_dvd_taken (n m : Nat) : 2 ^ (n - refusals answers m) ∣ taken answers n m := by
  induction m with
  | zero => exact Nat.dvd_zero _
  | succ m ih =>
      cases h : answers m with
      | true =>
          rw [refusals_granted h, taken_granted h]
          exact Nat.dvd_add ih (Nat.dvd_refl _)
      | false =>
          rw [refusals_refused h, taken_refused h]
          exact (pow_dvd_pow 2 (by omega)).trans ih

/-- As long as something is left, the part asked for fits in. -/
theorem part_fits (hm : taken answers n m < 2 ^ n) :
    taken answers n m + 2 ^ (n - refusals answers m) ≤ 2 ^ n := by
  have hrest : 2 ^ (n - refusals answers m) ∣ 2 ^ n - taken answers n m :=
    Nat.dvd_sub (pow_dvd_pow 2 (Nat.sub_le _ _)) (part_dvd_taken n m)
  have hle := Nat.le_of_dvd (Nat.sub_pos_of_lt hm) hrest
  omega

end Halves

end Lib
end NvmeDriver
