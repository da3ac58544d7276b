import Mathlib.Tactic

/-!
# Clocks that wrap

A clock register shows the time modulo its period `W`.  The difference of two readings,
again modulo `W`, is the time that has passed modulo `W`; so it never exceeds the time
that has passed, unless the readings are taken in the wrong order.  A deadline is tested
by the sign of such a difference, which tells before from after only while the delay is
at most half a period.
-/

namespace NvmeDriver
namespace Lib

/-- The difference of two readings of a clock of period `W`. -/
def wrapSub (W a b : Nat) : Nat := (a + W - b) % W

/-- The reading is not before the deadline, by the sign of their difference in a clock of
period `2 * H`. -/
def deadlinePassed (H now deadline : Nat) : Prop := wrapSub (2 * H) now deadline < H

instance (H now deadline : Nat) : Decidable (deadlinePassed H now deadline) :=
  inferInstanceAs (Decidable (_ < _))

section

variable {W H : Nat}

/-- Adding the difference to the earlier reading gives the later one. -/
theorem wrapSub_add (hW : 0 < W) (a b : Nat) :
    wrapSub W (a % W) (b % W) + b ≡ a [MOD W] := by
  have hb := (Nat.mod_lt b hW).le
  have hsum : a % W + W - b % W + b % W = a % W + W := by omega
  calc wrapSub W (a % W) (b % W) + b
      ≡ (a % W + W - b % W) + b % W [MOD W] :=
        Nat.ModEq.add (Nat.mod_modEq _ _) (Nat.mod_modEq b W).symm
    _ ≡ a % W + W [MOD W] := by rw [hsum]
    _ ≡ a % W [MOD W] := by simp [Nat.ModEq]
    _ ≡ a [MOD W] := Nat.mod_modEq a W

/-- Readings in order: the difference is the time that has passed, modulo the period. -/
theorem wrapSub_of_le (hW : 0 < W) {a b : Nat} (hle : b ≤ a) :
    wrapSub W (a % W) (b % W) = (a - b) % W := by
  have hcancel : wrapSub W (a % W) (b % W) ≡ a - b [MOD W] := by
    refine Nat.ModEq.add_right_cancel' b ((wrapSub_add hW a b).trans ?_)
    rw [Nat.sub_add_cancel hle]
  have hlt : wrapSub W (a % W) (b % W) < W := Nat.mod_lt _ hW
  rw [← Nat.mod_eq_of_lt hlt]
  exact hcancel

/-- Readings in the wrong order: the difference is what is missing to a period. -/
theorem wrapSub_of_lt (hW : 0 < W) {a b : Nat} (hlt : a < b) (hclose : b ≤ a + W) :
    wrapSub W (a % W) (b % W) = (W - (b - a)) % W := by
  have hcancel : wrapSub W (a % W) (b % W) ≡ W - (b - a) [MOD W] := by
    refine Nat.ModEq.add_right_cancel' b ((wrapSub_add hW a b).trans ?_)
    have hsum : W - (b - a) + b = a + W := by omega
    rw [hsum]
    simp [Nat.ModEq]
  have hmod : wrapSub W (a % W) (b % W) < W := Nat.mod_lt _ hW
  rw [← Nat.mod_eq_of_lt hmod]
  exact hcancel

/-- A delay of at most half a period is not over early. -/
theorem not_deadlinePassed (hH : 0 < H) {t d e : Nat} (hd : d ≤ H) (hearly : e < d) :
    ¬deadlinePassed H ((t + e) % (2 * H)) ((t + d) % (2 * H)) := by
  unfold deadlinePassed
  rw [wrapSub_of_lt (by omega) (by omega) (by omega)]
  have hgap : 2 * H - (t + d - (t + e)) = 2 * H - (d - e) := by omega
  rw [hgap, Nat.mod_eq_of_lt (by omega)]
  omega

/-- A delay that is less than a period, but too long by more than has passed, counts as
over. -/
theorem deadlinePassed_of_short {t d e : Nat} (hd : d < 2 * H) (hlong : H + e < d) :
    deadlinePassed H ((t + e) % (2 * H)) ((t + d) % (2 * H)) := by
  unfold deadlinePassed
  rw [wrapSub_of_lt (by omega) (by omega) (by omega)]
  have hgap : 2 * H - (t + d - (t + e)) = 2 * H - (d - e) := by omega
  rw [hgap, Nat.mod_eq_of_lt (by omega)]
  omega

/-- A delay of a period or more counts as over a period before its end. -/
theorem deadlinePassed_of_period (hH : 0 < H) {t d : Nat} (hd : 2 * H ≤ d) :
    deadlinePassed H ((t + (d - 2 * H)) % (2 * H)) ((t + d) % (2 * H)) := by
  have heq : (t + d) % (2 * H) = (t + (d - 2 * H)) % (2 * H) := by
    have hsum : t + d = t + (d - 2 * H) + 2 * H := by omega
    rw [hsum, Nat.add_mod_right]
  unfold deadlinePassed
  rw [heq, wrapSub_of_le (by omega) (le_refl _), Nat.sub_self, Nat.zero_mod]
  exact hH

end

end Lib
end NvmeDriver
