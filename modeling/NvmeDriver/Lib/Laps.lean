import Mathlib.Tactic

/-!
# Positions on a ring

The `k`-th entry of a ring of `depth` slots goes to slot `k % depth` in lap
`k / depth`.  Entries less than a lap apart have different slots, and the parity
of the lap tells an entry from the one a lap before it.
-/

namespace NvmeDriver
namespace Lib

variable {depth k n : Nat}

/-- The entry belongs to an even lap. -/
def evenLap (depth k : Nat) : Bool := k / depth % 2 == 0

theorem mod_ne_of_close (hlt : k < n) (hclose : n < k + depth) : k % depth ≠ n % depth := by
  intro heq
  have hdvd : depth ∣ n - k := (Nat.modEq_iff_dvd' hlt.le).mp heq
  have hle := Nat.le_of_dvd (by omega) hdvd
  omega

/-- An entry less than a lap ahead that is not on the head's slot leaves room. -/
theorem room_of_slot_ne (hlt : k < n + depth) (hne : (k + 1) % depth ≠ n % depth) :
    k + 1 < n + depth := by
  rcases Nat.lt_or_eq_of_le (Nat.succ_le_of_lt hlt) with h | h
  · exact h
  · rw [Nat.succ_eq_add_one] at h
    exact absurd (by rw [h, Nat.add_mod_right]) hne

/-- The next entry of a lap, or the first of the next one. -/
theorem succ_position (hpos : 0 < depth) (k : Nat) :
    (k % depth + 1 = depth ∧ (k + 1) % depth = 0 ∧ (k + 1) / depth = k / depth + 1) ∨
      (k % depth + 1 < depth ∧ (k + 1) % depth = k % depth + 1 ∧
        (k + 1) / depth = k / depth) := by
  have hsplit := Nat.div_add_mod k depth
  have hlt := Nat.mod_lt k hpos
  by_cases hwrap : k % depth + 1 = depth
  · left
    have hk : k + 1 = depth * (k / depth + 1) := by
      rw [Nat.mul_add, Nat.mul_one]
      omega
    refine ⟨hwrap, ?_, ?_⟩
    · rw [hk, Nat.mul_mod_right]
    · rw [hk, Nat.mul_div_cancel_left _ hpos]
  · right
    have hk : k + 1 = depth * (k / depth) + (k % depth + 1) := by omega
    have hin : k % depth + 1 < depth := by omega
    refine ⟨hin, ?_, ?_⟩
    · rw [hk, Nat.mul_add_mod, Nat.mod_eq_of_lt hin]
    · rw [hk, Nat.mul_add_div hpos, Nat.div_eq_of_lt hin, Nat.add_zero]

theorem evenLap_succ_of_wrap (hdiv : (k + 1) / depth = k / depth + 1) :
    evenLap depth (k + 1) = !evenLap depth k := by
  unfold evenLap
  rw [hdiv]
  rcases Nat.mod_two_eq_zero_or_one (k / depth) with h | h
  · have h' : (k / depth + 1) % 2 = 1 := by omega
    rw [h, h']
    rfl
  · have h' : (k / depth + 1) % 2 = 0 := by omega
    rw [h, h']
    rfl

/-- The entry a lap earlier has the other parity and the same slot. -/
theorem lap_before (hpos : 0 < depth) (hle : depth ≤ k) :
    (k - depth) % depth = k % depth ∧ evenLap depth (k - depth) = !evenLap depth k := by
  have hk : k = (k - depth) + depth := by omega
  generalize k - depth = j at hk
  subst hk
  refine ⟨(Nat.add_mod_right j depth).symm, ?_⟩
  unfold evenLap
  rw [Nat.add_div_right j hpos]
  rcases Nat.mod_two_eq_zero_or_one (j / depth) with h | h
  · have h' : (j / depth + 1) % 2 = 1 := by omega
    rw [h, h']
    rfl
  · have h' : (j / depth + 1) % 2 = 0 := by omega
    rw [h, h']
    rfl

theorem evenLap_of_lt (hlt : k < depth) : evenLap depth k = true := by
  unfold evenLap
  rw [Nat.div_eq_of_lt hlt]
  rfl

end Lib
end NvmeDriver
