import NvmeDriver.Lib.Slots

/-!
# Heaps

Objects allocated by number.  A heap carries the fact that no number is used
twice, so reading, writing, allocating and freeing are all determined by the
number alone; objects are counted by predicate as in slot tables.
-/

namespace NvmeDriver
namespace Lib

/-- Live objects by number. -/
structure Heap (α : Type) where
  entries : List (Nat × α)
  nodup : (entries.map Prod.fst).Nodup

namespace Heap

variable {α : Type}

/-- The heap with no object. -/
def empty : Heap α := ⟨[], List.nodup_nil⟩

/-- The object with this number. -/
def get (h : Heap α) (k : Nat) : Option α :=
  (h.entries.find? (fun e => e.1 == k)).map Prod.snd

/-- Remove an object. -/
def erase (h : Heap α) (k : Nat) : Heap α :=
  ⟨h.entries.filter (fun e => e.1 != k),
    (List.filter_sublist.map Prod.fst).nodup h.nodup⟩

theorem not_mem_keys_erase (h : Heap α) (k : Nat) :
    k ∉ (h.erase k).entries.map Prod.fst := by
  simp [erase]

/-- Put an object at a number. -/
def insert (h : Heap α) (k : Nat) (a : α) : Heap α :=
  ⟨(k, a) :: (h.erase k).entries,
    List.nodup_cons.mpr ⟨not_mem_keys_erase h k, (h.erase k).nodup⟩⟩

theorem keys_map (l : List (Nat × α)) (k : Nat) (f : α → α) :
    (l.map (fun e => if e.1 = k then (e.1, f e.2) else e)).map Prod.fst =
      l.map Prod.fst := by
  rw [List.map_map]
  refine List.map_congr_left ?_
  intro e _
  dsimp only [Function.comp]
  split <;> rfl

/-- Change the object with this number, if it is live. -/
def modify (h : Heap α) (k : Nat) (f : α → α) : Heap α :=
  ⟨h.entries.map (fun e => if e.1 = k then (e.1, f e.2) else e), by
    rw [keys_map]
    exact h.nodup⟩

/-- How many live objects have the property. -/
def held (p : α → Bool) (h : Heap α) : Nat := h.entries.countP (fun e => p e.2)

theorem get_eq_some_iff {h : Heap α} {k : Nat} {a : α} :
    h.get k = some a ↔ (k, a) ∈ h.entries := by
  obtain ⟨l, hl⟩ := h
  induction l with
  | nil => simp [get]
  | cons e l ih =>
      obtain ⟨n, b⟩ := e
      rw [List.map_cons, List.nodup_cons] at hl
      have ih' := ih hl.2
      by_cases hn : n = k
      · subst hn
        have hnot : (n, a) ∉ l := by
          intro hmem
          exact hl.1 (List.mem_map.mpr ⟨(n, a), hmem, rfl⟩)
        simp [get, hnot, eq_comm]
      · have hne : ¬k = n := fun he => hn he.symm
        simpa [get, hn, hne] using ih'

@[simp] theorem get_empty (k : Nat) : (empty : Heap α).get k = none := rfl

theorem get_insert (h : Heap α) (k j : Nat) (a : α) :
    (h.insert k a).get j = if j = k then some a else h.get j := by
  have hrest : ∀ b, (j, b) ∈ (h.erase k).entries ↔ j ≠ k ∧ (j, b) ∈ h.entries := by
    intro b
    simp [erase, and_comm]
  split
  · rename_i hjk
    subst hjk
    exact get_eq_some_iff.mpr (List.mem_cons_self ..)
  · rename_i hjk
    refine Option.ext ?_
    intro b
    rw [get_eq_some_iff, get_eq_some_iff]
    simp [insert, hrest, hjk]

theorem get_modify (h : Heap α) (k j : Nat) (f : α → α) :
    (h.modify k f).get j = if j = k then (h.get j).map f else h.get j := by
  refine Option.ext ?_
  intro b
  rw [get_eq_some_iff]
  have hmem : (j, b) ∈ (h.modify k f).entries ↔
      ∃ a, (j, a) ∈ h.entries ∧ b = if j = k then f a else a := by
    simp only [modify, List.mem_map]
    constructor
    · rintro ⟨⟨n, a⟩, hna, he⟩
      split at he
      · rename_i hn
        cases he
        exact ⟨a, hna, by rw [if_pos hn]⟩
      · rename_i hn
        cases he
        exact ⟨b, hna, by rw [if_neg hn]⟩
    · rintro ⟨a, hja, rfl⟩
      refine ⟨(j, a), hja, ?_⟩
      split <;> rfl
  rw [hmem]
  split
  · rw [Option.map_eq_some_iff]
    simp only [get_eq_some_iff, @eq_comm _ b]
  · simp [get_eq_some_iff]

theorem get_erase (h : Heap α) (k j : Nat) :
    (h.erase k).get j = if j = k then none else h.get j := by
  refine Option.ext ?_
  intro b
  rw [get_eq_some_iff]
  split
  · rename_i hjk
    subst hjk
    simp [erase]
  · rename_i hjk
    simp [erase, hjk, get_eq_some_iff]

@[simp] theorem held_empty (p : α → Bool) : held p (empty : Heap α) = 0 := rfl

/-- Freeing a live object. -/
theorem held_erase (p : α → Bool) {h : Heap α} {k : Nat} {a : α}
    (hget : h.get k = some a) :
    held p (h.erase k) + hit p (some a) = held p h := by
  rw [get_eq_some_iff] at hget
  obtain ⟨l, hl⟩ := h
  dsimp only at hget
  have hsplit : ∀ l : List (Nat × α), (l.map Prod.fst).Nodup → (k, a) ∈ l →
      (l.filter (fun e => e.1 != k)).countP (fun e => p e.2) + hit p (some a) =
        l.countP (fun e => p e.2) := by
    intro l
    induction l with
    | nil => simp
    | cons e l ih =>
        intro hnd hmem
        rw [List.map_cons, List.nodup_cons] at hnd
        rcases List.mem_cons.mp hmem with rfl | hmem
        · have hfil : l.filter (fun e => e.1 != k) = l := by
            rw [List.filter_eq_self]
            intro e he
            have : e.1 ≠ k := fun hk =>
              hnd.1 (List.mem_map.mpr ⟨e, he, hk⟩)
            simpa using this
          simp [hfil, List.countP_cons]
        · have hek : e.1 ≠ k := by
            intro hk
            exact hnd.1 (List.mem_map.mpr ⟨(k, a), hmem, hk.symm⟩)
          have := ih hnd.2 hmem
          simp only [List.filter_cons, bne_iff_ne, ne_eq, hek, not_false_eq_true,
            if_true, List.countP_cons]
          omega
  exact hsplit l hl hget

/-- Allocating at a number that is not live. -/
theorem held_insert (p : α → Bool) {h : Heap α} {k : Nat} (a : α)
    (hget : h.get k = none) :
    held p (h.insert k a) = held p h + hit p (some a) := by
  have hfil : h.entries.filter (fun e => e.1 != k) = h.entries := by
    rw [List.filter_eq_self]
    rintro ⟨n, b⟩ he
    have : n ≠ k := by
      rintro rfl
      rw [get_eq_some_iff.mpr he] at hget
      cases hget
    simpa using this
  simp [held, insert, erase, hfil, List.countP_cons]

/-- Changing a live object. -/
theorem held_modify (p : α → Bool) {h : Heap α} {k : Nat} {a : α} (f : α → α)
    (hget : h.get k = some a) :
    held p (h.modify k f) + hit p (some a) = held p h + hit p (some (f a)) := by
  rw [get_eq_some_iff] at hget
  obtain ⟨l, hl⟩ := h
  dsimp only at hget
  have hsplit : ∀ l : List (Nat × α), (l.map Prod.fst).Nodup → (k, a) ∈ l →
      (l.map (fun e => if e.1 = k then (e.1, f e.2) else e)).countP (fun e => p e.2) +
          hit p (some a) =
        l.countP (fun e => p e.2) + hit p (some (f a)) := by
    intro l
    induction l with
    | nil => simp
    | cons e l ih =>
        intro hnd hmem
        rw [List.map_cons, List.nodup_cons] at hnd
        rcases List.mem_cons.mp hmem with rfl | hmem
        · have hmap : l.map (fun e => if e.1 = k then (e.1, f e.2) else e) = l := by
            refine (List.map_congr_left ?_).trans (List.map_id l)
            intro e he
            have : e.1 ≠ k := fun hk =>
              hnd.1 (List.mem_map.mpr ⟨e, he, hk⟩)
            simp [this]
          simp only [List.map_cons, if_true, hmap, List.countP_cons, hit_some]
          omega
        · have hek : e.1 ≠ k := by
            intro hk
            exact hnd.1 (List.mem_map.mpr ⟨(k, a), hmem, hk.symm⟩)
          have := ih hnd.2 hmem
          simp only [List.map_cons, if_neg hek, List.countP_cons]
          omega
  exact hsplit l hl hget

theorem held_modify_same (p : α → Bool) (h : Heap α) (k : Nat) {f : α → α}
    (hf : ∀ a, p (f a) = p a) : held p (h.modify k f) = held p h := by
  unfold held modify
  dsimp only
  rw [List.countP_map]
  refine List.countP_congr ?_
  intro e _
  dsimp only [Function.comp]
  split
  · rw [hf]
  · exact Iff.rfl

/-- Two changes of one object are one. -/
theorem modify_modify (h : Heap α) (k : Nat) (f g : α → α) :
    (h.modify k f).modify k g = h.modify k (fun a => g (f a)) := by
  obtain ⟨l, hl⟩ := h
  have hentries : ((l.map (fun e => if e.1 = k then (e.1, f e.2) else e)).map
      (fun e => if e.1 = k then (e.1, g e.2) else e)) =
      l.map (fun e => if e.1 = k then (e.1, g (f e.2)) else e) := by
    rw [List.map_map]
    refine List.map_congr_left ?_
    rintro ⟨n, a⟩ _
    dsimp only [Function.comp]
    by_cases hn : n = k
    · simp only [if_pos hn]
    · simp only [if_neg hn]
  simp only [modify, hentries]

/-- A change that is undone leaves no trace. -/
theorem modify_undo {h : Heap α} {k : Nat} {f g : α → α}
    (hundo : ∀ a, h.get k = some a → g (f a) = a) : (h.modify k f).modify k g = h := by
  rw [modify_modify]
  obtain ⟨l, hl⟩ := h
  have hentries : l.map (fun e => if e.1 = k then (e.1, g (f e.2)) else e) = l := by
    refine (List.map_congr_left ?_).trans (List.map_id l)
    rintro ⟨n, a⟩ hmem
    by_cases hn : n = k
    · subst hn
      simp only [if_true, id]
      rw [hundo a (get_eq_some_iff.mpr hmem)]
    · simp only [if_neg hn, id]
  simp only [modify, hentries]

end Heap
end Lib
end NvmeDriver
