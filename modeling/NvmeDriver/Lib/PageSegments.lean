import Mathlib.Tactic

/-!
# Page segments of an address interval

A transfer engine that works page by page sees an interval `[a, a + n)` as the
list of its page segments: the part of the first page, then whole pages, then
the part of the last page.  This module fixes that list for an arbitrary page
size `P` and gives the recursion on the number of bytes left that decoders of
scatter lists follow.
-/

namespace NvmeDriver
namespace Lib

/-- Bytes from `a` to the end of its page. -/
def pageLeft (P a : Nat) : Nat := P - a % P

/-- Segments of an interval that starts on a page boundary. -/
def alignedSegments (P a n : Nat) : List (Nat × Nat) :=
  (List.range ((n + P - 1) / P)).map
    (fun i => (a + i * P, min P (n - i * P)))

/-- Segments of the interval `[a, a + n)`, in address order. -/
def pageSegments (P a n : Nat) : List (Nat × Nat) :=
  if n = 0 then []
  else if n ≤ pageLeft P a then [(a, n)]
  else
    (a, pageLeft P a) ::
      alignedSegments P (a + pageLeft P a) (n - pageLeft P a)

theorem pageLeft_le (P a : Nat) : pageLeft P a ≤ P :=
  Nat.sub_le _ _

@[simp] theorem alignedSegments_zero {P : Nat} (hP : 0 < P) (a : Nat) :
    alignedSegments P a 0 = [] := by
  simp [alignedSegments, hP]

/-- The first page of a nonempty aligned interval, and the rest. -/
theorem alignedSegments_step {P : Nat} (hP : 0 < P) (a : Nat) {n : Nat}
    (hn : 0 < n) :
    alignedSegments P a n =
      (a, min P n) :: alignedSegments P (a + P) (n - P) := by
  have hcount : (n + P - 1) / P = (n - P + P - 1) / P + 1 := by
    by_cases hle : n ≤ P
    · have h0 : n - P = 0 := by omega
      rw [h0]
      have h1 : (0 + P - 1) / P = 0 := Nat.div_eq_of_lt (by omega)
      rw [h1]
      exact Nat.div_eq_of_lt_le (by omega) (by omega)
    · have h2 : n + P - 1 = (n - P + P - 1) + P := by omega
      rw [h2, Nat.add_div_right _ hP]
  unfold alignedSegments
  rw [hcount, List.range_succ_eq_map, List.map_cons, List.map_map]
  congr 1
  · simp
  · apply List.map_congr_left
    intro i _
    simp only [Function.comp, Nat.succ_eq_add_one]
    have h1 : (i + 1) * P = P + i * P := by ring
    rw [h1, Nat.add_assoc, Nat.sub_sub]

/-- The `i`-th segment of an aligned interval. -/
theorem alignedSegments_getElem? (P a n i : Nat)
    (hi : i < (n + P - 1) / P) :
    (alignedSegments P a n)[i]? = some (a + i * P, min P (n - i * P)) := by
  simp [alignedSegments, hi]

end Lib
end NvmeDriver
