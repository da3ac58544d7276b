import Mathlib.Tactic

/-!
# Slot tables

A table of slots, each empty or holding one value: the shape of every in-flight
table indexed by a tag.  Occupants are counted by predicate, so that moving a
value in or out of a slot is one linear equation about the counts.
-/

namespace NvmeDriver
namespace Lib

variable {α : Type}

/-- A table of slots. -/
abbrev Slots (α : Type) := List (Option α)

/-- One if the slot holds a value with the property, else zero. -/
def hit (p : α → Bool) : Option α → Nat
  | none => 0
  | some a => if p a then 1 else 0

@[simp] theorem hit_none (p : α → Bool) : hit p none = 0 := rfl

@[simp] theorem hit_some (p : α → Bool) (a : α) :
    hit p (some a) = if p a then 1 else 0 := rfl

namespace Slots

/-- The content of a slot; slots outside the table are empty. -/
def read (l : Slots α) (t : Nat) : Option α := l.getD t none

/-- How many occupants have the property. -/
def held (p : α → Bool) (l : Slots α) : Nat := (l.map (hit p)).sum

@[simp] theorem read_nil (t : Nat) : read ([] : Slots α) t = none := by
  simp [read]

theorem read_cons_zero (o : Option α) (l : Slots α) : read (o :: l) 0 = o := rfl

theorem read_cons_succ (o : Option α) (l : Slots α) (t : Nat) :
    read (o :: l) (t + 1) = read l t := by
  simp [read]

theorem read_eq_none_of_le {l : Slots α} {t : Nat} (h : l.length ≤ t) :
    read l t = none := by
  simp [read, List.getElem?_eq_none h]

theorem lt_length_of_read {l : Slots α} {t : Nat} {a : α} (h : read l t = some a) :
    t < l.length := by
  by_contra hle
  rw [read_eq_none_of_le (by omega)] at h
  cases h

theorem read_set_self {l : Slots α} {t : Nat} (o : Option α) (h : t < l.length) :
    read (l.set t o) t = o := by
  simp [read, h]

theorem read_set_other {l : Slots α} {t u : Nat} (o : Option α) (h : t ≠ u) :
    read (l.set t o) u = read l u := by
  simp [read, List.getD_eq_getElem?_getD, h]

theorem mem_iff_read {l : Slots α} {a : α} :
    some a ∈ l ↔ ∃ t, read l t = some a := by
  constructor
  · intro h
    obtain ⟨t, ht, hat⟩ := List.mem_iff_getElem.mp h
    exact ⟨t, by simp [read, ht, hat]⟩
  · rintro ⟨t, hat⟩
    have ht := lt_length_of_read hat
    rw [List.mem_iff_getElem]
    refine ⟨t, ht, ?_⟩
    simpa [read, ht] using hat

/-- Reading every slot of a table, one after the other. -/
theorem map_read_range (l : Slots α) : (List.range l.length).map (read l) = l := by
  refine List.ext_getElem (by simp) ?_
  intro i h₁ h₂
  simp [read, h₂]

@[simp] theorem held_nil (p : α → Bool) : held p ([] : Slots α) = 0 := rfl

theorem held_cons (p : α → Bool) (o : Option α) (l : Slots α) :
    held p (o :: l) = hit p o + held p l := by
  simp [held]

@[simp] theorem held_replicate_none (p : α → Bool) (n : Nat) :
    held p (List.replicate n (none : Option α)) = 0 := by
  simp [held]

/-- Writing one slot moves the count by exactly the two contents. -/
theorem held_set (p : α → Bool) (o : Option α) {l : Slots α} {t : Nat}
    (h : t < l.length) :
    held p (l.set t o) + hit p (read l t) = held p l + hit p o := by
  induction l generalizing t with
  | nil => exact absurd h (Nat.not_lt_zero t)
  | cons x l ih =>
      cases t with
      | zero =>
          rw [List.set_cons_zero, held_cons, held_cons, read_cons_zero]
          omega
      | succ t =>
          have ht : t < l.length := by simpa using h
          have := ih ht
          rw [List.set_cons_succ, held_cons, held_cons, read_cons_succ]
          omega

theorem held_le_length (p : α → Bool) (l : Slots α) : held p l ≤ l.length := by
  induction l with
  | nil => exact Nat.le_refl 0
  | cons x l ih =>
      have hone : hit p x ≤ 1 := by
        cases x with
        | none => exact Nat.zero_le 1
        | some a =>
            rw [hit_some]
            split <;> omega
      rw [held_cons, List.length_cons]
      omega

/-- A counted occupant sits in some slot. -/
theorem exists_read_of_held_pos {p : α → Bool} {l : Slots α} (h : 0 < held p l) :
    ∃ t a, read l t = some a ∧ p a = true := by
  induction l with
  | nil => simp at h
  | cons x l ih =>
      rw [held_cons] at h
      by_cases hl : 0 < held p l
      · obtain ⟨t, a, hat, hp⟩ := ih hl
        exact ⟨t + 1, a, by rw [read_cons_succ]; exact hat, hp⟩
      · cases x with
        | none => simp at h; omega
        | some a =>
            refine ⟨0, a, rfl, ?_⟩
            by_contra hp
            simp [hp] at h
            omega

/-- An occupant with the property is counted. -/
theorem held_pos_of_read {p : α → Bool} {l : Slots α} {t : Nat} {a : α}
    (hat : read l t = some a) (hp : p a = true) : 0 < held p l := by
  have h := held_set p none (lt_length_of_read hat)
  rw [hat, hit_some, if_pos hp, hit_none] at h
  omega

/-- A property that only one slot has is counted once. -/
theorem held_le_one {p : α → Bool} {l : Slots α}
    (huniq : ∀ t u a b, read l t = some a → read l u = some b → p a = true → p b = true → t = u) :
    held p l ≤ 1 := by
  by_contra hmany
  obtain ⟨t, a, hat, hpa⟩ := exists_read_of_held_pos (p := p) (l := l) (by omega)
  have hlt := lt_length_of_read hat
  have hset := held_set p none hlt
  rw [hat, hit_some, if_pos hpa, hit_none] at hset
  obtain ⟨u, b, hbu, hpb⟩ := exists_read_of_held_pos (p := p) (l := l.set t none) (by omega)
  by_cases htu : t = u
  · subst htu
    rw [read_set_self none hlt] at hbu
    cases hbu
  · rw [read_set_other none htu] at hbu
    exact htu (huniq t u a b hat hbu hpa hpb)

theorem countP_filterMap_id (p : α → Bool) (l : Slots α) :
    (l.filterMap id).countP p = held p l := by
  induction l with
  | nil => rfl
  | cons x l ih =>
      cases x with
      | none => simpa [held_cons] using ih
      | some a =>
          rw [held_cons, ← ih]
          simp [List.countP_cons, Nat.add_comm]

end Slots
end Lib
end NvmeDriver
