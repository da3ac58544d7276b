import Mathlib.Tactic

/-!
# Replaying a list of operations

Operations on a set of keys, each of which adds some keys and removes others.  When
no key is added by one operation of a list and removed by another, every operation
is in effect after the list has run, and running the list again changes nothing that
matters.  When a key is both added and removed, the second run adds it anew.
-/

namespace NvmeDriver
namespace Lib

variable {S O K : Type} {apply : S → O → S} {P : O → Prop} {I : S → Prop}
  {has : S → K → Prop} {adds removes : O → K → Prop}

/-- What the operations of a kind `P` do, under an invariant `I`. -/
structure KeyOps (apply : S → O → S) (P : O → Prop) (I : S → Prop) (has : S → K → Prop)
    (adds removes : O → K → Prop) : Prop where
  keeps : ∀ s o, P o → I s → I (apply s o)
  effect : ∀ s o k, P o → I s → (has (apply s o) k ↔ has s k ∧ ¬removes o k ∨ adds o k)

/-- The operation has nothing left to do. -/
def InEffect (has : S → K → Prop) (adds removes : O → K → Prop) (o : O) (s : S) : Prop :=
  (∀ k, adds o k → has s k) ∧ ∀ k, removes o k → ¬has s k

/-- No key is added by one operation of the list and removed by another. -/
def Unmixed (adds removes : O → K → Prop) (ops : List O) : Prop :=
  ∀ o, o ∈ ops → ∀ o', o' ∈ ops → ∀ k, adds o k → ¬removes o' k

theorem InEffect.congr {s t : S} {o : O} (hset : InEffect has adds removes o s)
    (heq : ∀ k, has t k ↔ has s k) : InEffect has adds removes o t :=
  ⟨fun k hk => (heq k).mpr (hset.1 k hk), fun k hk ht => hset.2 k hk ((heq k).mp ht)⟩

namespace KeyOps

theorem foldl_keeps (h : KeyOps apply P I has adds removes) (ops : List O)
    (hops : ∀ o, o ∈ ops → P o) {s : S} (hs : I s) : I (ops.foldl apply s) := by
  induction ops generalizing s with
  | nil => exact hs
  | cons o ops ih =>
      rw [List.forall_mem_cons] at hops
      exact ih hops.2 (h.keeps s o hops.1 hs)

/-- A key that no operation removes stays, and one of them may add it. -/
theorem foldl_has (h : KeyOps apply P I has adds removes) {k : K} (ops : List O)
    (hops : ∀ o, o ∈ ops → P o) (hnot : ∀ o, o ∈ ops → ¬removes o k) {s : S} (hs : I s) :
    has (ops.foldl apply s) k ↔ has s k ∨ ∃ o, o ∈ ops ∧ adds o k := by
  induction ops generalizing s with
  | nil => simp
  | cons o ops ih =>
      rw [List.forall_mem_cons] at hops hnot
      rw [List.foldl_cons, ih hops.2 hnot.2 (h.keeps s o hops.1 hs),
        h.effect s o k hops.1 hs]
      have hkept : ¬removes o k := hnot.1
      simp only [hkept, not_false_eq_true, and_true, List.mem_cons, exists_eq_or_imp, or_assoc]

/-- A key that no operation adds is there in the end when it was there and none removed it. -/
theorem foldl_not_has (h : KeyOps apply P I has adds removes) {k : K} (ops : List O)
    (hops : ∀ o, o ∈ ops → P o) (hnot : ∀ o, o ∈ ops → ¬adds o k) {s : S} (hs : I s) :
    has (ops.foldl apply s) k ↔ has s k ∧ ∀ o, o ∈ ops → ¬removes o k := by
  induction ops generalizing s with
  | nil => simp
  | cons o ops ih =>
      rw [List.forall_mem_cons] at hops hnot
      rw [List.foldl_cons, ih hops.2 hnot.2 (h.keeps s o hops.1 hs),
        h.effect s o k hops.1 hs]
      have hnever : ¬adds o k := hnot.1
      simp only [hnever, or_false, List.forall_mem_cons, and_assoc]

/-- After an unmixed list every operation of it is in effect. -/
theorem foldl_inEffect (h : KeyOps apply P I has adds removes) {ops : List O}
    (hops : ∀ o, o ∈ ops → P o) (hun : Unmixed adds removes ops) {s : S} (hs : I s) :
    ∀ o, o ∈ ops → InEffect has adds removes o (ops.foldl apply s) := by
  intro o ho
  constructor
  · intro k hk
    refine (h.foldl_has ops hops ?_ hs).mpr (.inr ⟨o, ho, hk⟩)
    exact fun o' ho' => hun o ho o' ho' k hk
  · intro k hk hhas
    have hnone : ∀ o', o' ∈ ops → ¬adds o' k := fun o' ho' ha => hun o' ho' o ho k ha hk
    exact ((h.foldl_not_has ops hops hnone hs).mp hhas).2 o ho hk

/-- Operations in effect change nothing. -/
theorem foldl_same (h : KeyOps apply P I has adds removes) {E : S → S → Prop}
    (hrefl : ∀ s, E s s) (htrans : ∀ s t u, E s t → E t u → E s u)
    (hsame : ∀ s o, P o → I s → InEffect has adds removes o s → E s (apply s o))
    (hhas : ∀ s t, E s t → ∀ k, has t k ↔ has s k)
    (ops : List O) (hops : ∀ o, o ∈ ops → P o) {s : S} (hs : I s)
    (hset : ∀ o, o ∈ ops → InEffect has adds removes o s) : E s (ops.foldl apply s) := by
  induction ops generalizing s with
  | nil => exact hrefl s
  | cons o ops ih =>
      rw [List.forall_mem_cons] at hops hset
      have hstep := hsame s o hops.1 hs hset.1
      refine htrans _ _ _ hstep (ih hops.2 (h.keeps s o hops.1 hs) ?_)
      exact fun o' ho' => (hset.2 o' ho').congr (hhas _ _ hstep)

section Growth

variable (count : S → Nat)

theorem foldl_le (h : KeyOps apply P I has adds removes)
    (hmono : ∀ s o, P o → I s → count s ≤ count (apply s o))
    (ops : List O) (hops : ∀ o, o ∈ ops → P o) {s : S} (hs : I s) :
    count s ≤ count (ops.foldl apply s) := by
  induction ops generalizing s with
  | nil => exact Nat.le_refl _
  | cons o ops ih =>
      rw [List.forall_mem_cons] at hops
      exact (hmono s o hops.1 hs).trans (ih hops.2 (h.keeps s o hops.1 hs))

/-- A key that is missing and added by some operation is counted. -/
theorem foldl_lt (h : KeyOps apply P I has adds removes)
    (hmono : ∀ s o, P o → I s → count s ≤ count (apply s o))
    (hgrow : ∀ s o k, P o → I s → adds o k → ¬has s k → count s < count (apply s o))
    {k : K} (ops : List O) (hops : ∀ o, o ∈ ops → P o) {s : S} (hs : I s)
    (hmiss : ¬has s k) (hadd : ∃ o, o ∈ ops ∧ adds o k) :
    count s < count (ops.foldl apply s) := by
  induction ops generalizing s with
  | nil =>
      obtain ⟨o, ho, -⟩ := hadd
      cases ho
  | cons o ops ih =>
      rw [List.forall_mem_cons] at hops
      have hkeep := h.keeps s o hops.1 hs
      by_cases ha : adds o k
      · exact (hgrow s o k hops.1 hs ha hmiss).trans_le (h.foldl_le count hmono ops hops.2 hkeep)
      · refine (hmono s o hops.1 hs).trans_lt (ih hops.2 hkeep ?_ ?_)
        · rw [h.effect s o k hops.1 hs]
          exact fun hhas => hhas.elim (fun hold => hmiss hold.1) ha
        · obtain ⟨o', ho', hadd'⟩ := hadd
          rcases List.mem_cons.mp ho' with rfl | hrest
          · exact absurd hadd' ha
          · exact ⟨o', hrest, hadd'⟩

/-- A key that one operation adds and another removes is added anew by the second run. -/
theorem foldl_again_lt (h : KeyOps apply P I has adds removes)
    (hmono : ∀ s o, P o → I s → count s ≤ count (apply s o))
    (hgrow : ∀ s o k, P o → I s → adds o k → ¬has s k → count s < count (apply s o))
    (hapart : ∀ o k, adds o k → ¬removes o k) {ops : List O} (hops : ∀ o, o ∈ ops → P o)
    (hmix : ¬Unmixed adds removes ops) {s t : S} (hs : I s) (ht : I t)
    (hsame : ∀ k, has t k ↔ has (ops.foldl apply s) k) :
    count t < count (ops.foldl apply t) := by
  unfold Unmixed at hmix
  push Not at hmix
  obtain ⟨o, ho, o', ho', k, hadd, hrem⟩ := hmix
  obtain ⟨before, after, rfl⟩ := List.append_of_mem ho'
  rw [List.forall_mem_append, List.forall_mem_cons] at hops
  obtain ⟨hbefore, hmid, hafter⟩ := hops
  have hgone : ∀ u, I u → ¬has (apply (before.foldl apply u) o') k := by
    intro u hu
    rw [h.effect _ o' k hmid (h.foldl_keeps before hbefore hu)]
    exact fun hhas => hhas.elim (fun hold => hold.2 hrem) (fun ha => hapart o' k ha hrem)
  have hkeep : ∀ u, I u → I (apply (before.foldl apply u) o') := fun u hu =>
    h.keeps _ o' hmid (h.foldl_keeps before hbefore hu)
  by_cases hlater : ∃ p, p ∈ after ∧ adds p k
  · -- removed, then added again within each run
    rw [List.foldl_append, List.foldl_cons]
    have hfirst := h.foldl_le count hmono before hbefore ht
    have hstep := hmono _ o' hmid (h.foldl_keeps before hbefore ht)
    exact (hfirst.trans hstep).trans_lt
      (h.foldl_lt count hmono hgrow after hafter (hkeep t ht) (hgone t ht) hlater)
  · -- missing after the first run
    have hnone : ∀ p, p ∈ after → ¬adds p k := fun p hp ha => hlater ⟨p, hp, ha⟩
    have hmiss : ¬has t k := by
      rw [hsame k, List.foldl_append, List.foldl_cons,
        h.foldl_not_has after hafter hnone (hkeep s hs)]
      exact fun hhas => hgone s hs hhas.1
    refine h.foldl_lt count hmono hgrow _ ?_ ht hmiss ⟨o, ho, hadd⟩
    rw [List.forall_mem_append, List.forall_mem_cons]
    exact ⟨hbefore, hmid, hafter⟩

end Growth

end KeyOps

end Lib
end NvmeDriver
