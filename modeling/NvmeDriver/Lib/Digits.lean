import Mathlib.Data.Nat.Digits.Defs
import Mathlib.Tactic.Ring
import Mathlib.Tactic.Linarith

/-!
# Schoolbook arithmetic on digit lists

A natural number as the list of its digits in base `b`, least significant first,
and the two in-place loops every wide-integer routine is made of: division by a
small number from the top digit down, multiplication by a small number from the
bottom digit up.  `Nat.ofDigits` says what a list stands for.
-/

namespace NvmeDriver
namespace Lib
namespace Digits

open Nat (ofDigits)

section ShortDivision

variable {b d : Nat}

/-- Division by `d`: the quotient digits and the remainder. -/
def shortDiv (b d : Nat) : List Nat → List Nat × Nat
  | [] => ([], 0)
  | x :: xs =>
      let p := shortDiv b d xs
      ((p.2 * b + x) / d :: p.1, (p.2 * b + x) % d)

theorem shortDiv_rem_lt (hd : 0 < d) (xs : List Nat) : (shortDiv b d xs).2 < d := by
  cases xs with
  | nil => exact hd
  | cons x xs => exact Nat.mod_lt _ hd

/-- Quotient and remainder, as the division algorithm has them. -/
theorem shortDiv_value (xs : List Nat) :
    d * ofDigits b (shortDiv b d xs).1 + (shortDiv b d xs).2 = ofDigits b xs := by
  induction xs with
  | nil => simp [shortDiv]
  | cons x xs ih =>
      rw [Nat.ofDigits_cons, ← ih]
      have hcur := Nat.div_add_mod ((shortDiv b d xs).2 * b + x) d
      simp only [shortDiv, Nat.ofDigits_cons]
      linarith

theorem shortDiv_quot (hd : 0 < d) (xs : List Nat) :
    ofDigits b (shortDiv b d xs).1 = ofDigits b xs / d := by
  have hlt := shortDiv_rem_lt (b := b) hd xs
  rw [← shortDiv_value (b := b) (d := d) xs, Nat.mul_add_div hd, Nat.div_eq_of_lt hlt,
    Nat.add_zero]

theorem shortDiv_rem (hd : 0 < d) (xs : List Nat) :
    (shortDiv b d xs).2 = ofDigits b xs % d := by
  have hlt := shortDiv_rem_lt (b := b) hd xs
  rw [← shortDiv_value (b := b) (d := d) xs, Nat.mul_add_mod, Nat.mod_eq_of_lt hlt]

end ShortDivision

section ShortMultiplication

variable {b m c : Nat}

/-- Multiplication by `m` with `c` carried in: the product digits and what is
carried out of the top one. -/
def shortMul (b m : Nat) : List Nat → Nat → List Nat × Nat
  | [], c => ([], c)
  | x :: xs, c =>
      let p := shortMul b m xs ((x * m + c) / b)
      ((x * m + c) % b :: p.1, p.2)

/-- The product, cut at the width of the list. -/
theorem shortMul_value (xs : List Nat) (c : Nat) :
    ofDigits b (shortMul b m xs c).1 + b ^ xs.length * (shortMul b m xs c).2 =
      ofDigits b xs * m + c := by
  induction xs generalizing c with
  | nil => simp [shortMul]
  | cons x xs ih =>
      have hrest := ih ((x * m + c) / b)
      have hcur := Nat.mod_add_div (x * m + c) b
      simp only [shortMul, Nat.ofDigits_cons, List.length_cons, pow_succ']
      calc (x * m + c) % b + b * ofDigits b (shortMul b m xs ((x * m + c) / b)).1 +
            b * b ^ xs.length * (shortMul b m xs ((x * m + c) / b)).2
          = (x * m + c) % b + b * (ofDigits b (shortMul b m xs ((x * m + c) / b)).1 +
              b ^ xs.length * (shortMul b m xs ((x * m + c) / b)).2) := by ring
        _ = (x * m + c) % b + b * (ofDigits b xs * m + (x * m + c) / b) := by rw [hrest]
        _ = ((x * m + c) % b + b * ((x * m + c) / b)) + b * (ofDigits b xs * m) := by ring
        _ = (x + b * ofDigits b xs) * m + c := by rw [hcur]; ring

/-- What is carried stays below the multiplier. -/
theorem carry_lt {x : Nat} (hx : x < b) (hc : c < m) : (x * m + c) / b < m := by
  have hle : (x + 1) * m ≤ b * m := Nat.mul_le_mul_right m hx
  refine Nat.div_lt_of_lt_mul ?_
  linarith

theorem shortMul_carry_lt {xs : List Nat} (hxs : ∀ x, x ∈ xs → x < b) (hc : c < m) :
    (shortMul b m xs c).2 < m := by
  induction xs generalizing c with
  | nil => exact hc
  | cons x xs ih =>
      have hx := carry_lt (hxs x (List.mem_cons_self ..)) hc
      exact ih (fun y hy => hxs y (List.mem_cons_of_mem _ hy)) hx

end ShortMultiplication

end Digits
end Lib
end NvmeDriver
