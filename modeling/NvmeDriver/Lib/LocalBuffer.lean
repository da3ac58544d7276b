import Mathlib.Data.List.Basic

/-!
# Local buffers

Fixed-size arrays that start with nothing in them, and the memory they are
copied to.  A cell without a value is one that has not been stored to; a store or
a copy that leaves the array has no result.
-/

namespace NvmeDriver
namespace Lib

universe u

variable {α : Type u}

/-- A local array, cell by cell. -/
structure LocalBuffer (α : Type u) where
  cells : List (Option α)
deriving DecidableEq, Repr

namespace LocalBuffer

/-- The number of cells. -/
def size (b : LocalBuffer α) : Nat := b.cells.length

/-- An array that was just declared. -/
def fresh (n : Nat) : LocalBuffer α := ⟨List.replicate n none⟩

/-- Store one value. -/
def put (b : LocalBuffer α) (i : Nat) (v : α) : Option (LocalBuffer α) :=
  if i < b.size then some ⟨b.cells.set i (some v)⟩ else none

/-- Store consecutive values. -/
def putAll (b : LocalBuffer α) (i : Nat) : List α → Option (LocalBuffer α)
  | [] => some b
  | v :: vs => (b.put i v).bind (fun b₁ => b₁.putAll (i + 1) vs)

/-- Store fields one after the other, each at its own offset. -/
def putFields (b : LocalBuffer α) : List (Nat × List α) → Option (LocalBuffer α)
  | [] => some b
  | f :: fs => (b.putAll f.1 f.2).bind (fun b₁ => b₁.putFields fs)

/-- Store one value everywhere. -/
def fill (b : LocalBuffer α) (v : α) : LocalBuffer α :=
  ⟨b.cells.map (fun _ => some v)⟩

/-- The first cells, as a copy reads them. -/
def read (b : LocalBuffer α) (n : Nat) : Option (List (Option α)) :=
  if n ≤ b.size then some (b.cells.take n) else none

/-- The array of `n` cells whose first ones hold `vs` and whose others are
empty. -/
def holding (n : Nat) (vs : List α) : LocalBuffer α :=
  ⟨vs.map some ++ List.replicate (n - vs.length) none⟩

variable {n i : Nat} {vs ws : List α} {v : α}

theorem fresh_eq (n : Nat) : (fresh n : LocalBuffer α) = holding n [] := by
  simp [fresh, holding]

theorem size_holding (h : vs.length ≤ n) : (holding n vs).size = n := by
  simp only [size, holding, List.length_append, List.length_map, List.length_replicate]
  omega

/-- A store right behind what is held lengthens it. -/
theorem put_holding_next (h : vs.length < n) (hi : i = vs.length) :
    (holding n vs).put i v = some (holding n (vs ++ [v])) := by
  subst hi
  have hsize : vs.length < (holding n vs).size := by
    rw [size_holding (Nat.le_of_lt h)]
    exact h
  have hrest : n - vs.length = (n - (vs ++ [v]).length) + 1 := by
    simp only [List.length_append, List.length_singleton]
    omega
  rw [put, if_pos hsize]
  unfold holding
  rw [hrest, List.replicate_succ, List.set_append_right _ _ (by simp)]
  simp

/-- A store into what is held replaces one value. -/
theorem put_holding (h : vs.length ≤ n) (hi : i < vs.length) :
    (holding n vs).put i v = some (holding n (vs.set i v)) := by
  have hsize : i < (holding n vs).size := by
    rw [size_holding h]
    omega
  rw [put, if_pos hsize]
  unfold holding
  rw [List.set_append_left _ _ (by simpa using hi), List.length_set, List.map_set]

/-- Consecutive stores right behind what is held lengthen it by all of them. -/
theorem putAll_holding_next (h : vs.length + ws.length ≤ n) (hi : i = vs.length) :
    (holding n vs).putAll i ws = some (holding n (vs ++ ws)) := by
  induction ws generalizing vs i with
  | nil => simp [putAll]
  | cons w ws ih =>
      rw [List.length_cons] at h
      rw [putAll, put_holding_next (by omega) hi, Option.bind_some,
        ih (by simp only [List.length_append, List.length_singleton]; omega) (by simp [hi])]
      simp

/-- Each field starts where the one before it has ended. -/
def Adjacent : Nat → List (Nat × List α) → Prop
  | _, [] => True
  | i, f :: fs => f.1 = i ∧ Adjacent (i + f.2.length) fs

/-- Adjacent fields behind what is held lengthen it by all of them. -/
theorem putFields_holding {fs : List (Nat × List α)} (hadj : Adjacent vs.length fs)
    (h : vs.length + (fs.flatMap Prod.snd).length ≤ n) :
    (holding n vs).putFields fs = some (holding n (vs ++ fs.flatMap Prod.snd)) := by
  induction fs generalizing vs with
  | nil => simp [putFields]
  | cons f fs ih =>
      rw [List.flatMap_cons, List.length_append] at h
      rw [putFields, putAll_holding_next (by omega) hadj.1, Option.bind_some,
        ih (by rw [List.length_append]; exact hadj.2)
          (by rw [List.length_append]; omega)]
      simp

/-- Consecutive stores into what is held replace a stretch of it. -/
theorem putAll_holding {xs ys zs : List α} (h : (xs ++ ys ++ zs).length ≤ n)
    (hi : i = xs.length) (hlen : ws.length = ys.length) :
    (holding n (xs ++ ys ++ zs)).putAll i ws = some (holding n (xs ++ ws ++ zs)) := by
  induction ws generalizing xs ys i with
  | nil =>
      cases ys with
      | nil => rfl
      | cons y ys => simp at hlen
  | cons w ws ih =>
      cases ys with
      | nil => simp at hlen
      | cons y ys =>
          have hset : (xs ++ y :: ys ++ zs).set i w = (xs ++ [w]) ++ ys ++ zs := by
            subst hi
            simp
          have hstep :
              (holding n ((xs ++ [w]) ++ ys ++ zs)).putAll (i + 1) ws =
                some (holding n ((xs ++ [w]) ++ ws ++ zs)) := by
            apply ih
            · simp only [List.length_append, List.length_cons, List.length_nil] at h ⊢
              omega
            · simp [hi]
            · simpa using hlen
          have hput :
              (holding n (xs ++ y :: ys ++ zs)).put i w =
                some (holding n ((xs ++ [w]) ++ ys ++ zs)) := by
            rw [put_holding h (by rw [hi]; simp), hset]
          rw [putAll, hput, Option.bind_some, hstep]
          simp

/-- A copy of held cells has a value in every one. -/
theorem read_holding {k : Nat} (h : vs.length ≤ n) (hk : k ≤ vs.length) :
    (holding n vs).read k = some ((vs.take k).map some) := by
  have hsize : k ≤ (holding n vs).size := by
    rw [size_holding h]
    omega
  rw [read, if_pos hsize]
  unfold holding
  rw [List.take_append_of_le_length (by simpa using hk), List.map_take]

end LocalBuffer

/-! ### Memory -/

/-- Memory by address. -/
abbrev CellMemory (α : Type u) := Nat → Option α

namespace CellMemory

/-- Copy cells to consecutive addresses. -/
def copy (m : CellMemory α) (dst : Nat) (cells : List (Option α)) : CellMemory α :=
  fun a => if dst ≤ a ∧ a < dst + cells.length then cells.getD (a - dst) none else m a

variable {m : CellMemory α} {dst a : Nat} {cells : List (Option α)}

theorem copy_outside (h : a < dst ∨ dst + cells.length ≤ a) : m.copy dst cells a = m a := by
  unfold copy
  rw [if_neg (by omega)]

theorem copy_map {vs : List α} {k : Nat} (hk : k < vs.length) :
    m.copy dst (vs.map some) (dst + k) = vs[k]? := by
  unfold copy
  rw [if_pos (by rw [List.length_map]; omega)]
  simp [hk]

end CellMemory

end Lib
end NvmeDriver
