import Mathlib.Tactic

/-!
# Ledgers

What is held, and whether anything was ever taken while it was held or given back while
it was not.  A chain takes resources one after the other and, where one of them is refused,
gives those before it back in reverse order.
-/

namespace NvmeDriver
namespace Lib

structure Ledger (R : Type) where
  held : R → Bool
  faulty : Bool

namespace Ledger

variable {R : Type}

def empty : Ledger R := ⟨fun _ => false, false⟩

/-- Everything of a kind goes at once. -/
def giveAll (l : Ledger R) (p : R → Bool) : Ledger R := ⟨fun r => l.held r && !p r, l.faulty⟩

/-- Nothing went wrong so far, and just what `p` says is held. -/
structure Exactly (l : Ledger R) (p : R → Bool) : Prop where
  sound : l.faulty = false
  held : ∀ r, l.held r = p r

theorem exactly_empty : Exactly (empty : Ledger R) fun _ => false := ⟨rfl, fun _ => rfl⟩

theorem Exactly.congr {l : Ledger R} {p q : R → Bool} (h : Exactly l p) (hpq : ∀ r, p r = q r) :
    Exactly l q :=
  ⟨h.sound, fun r => (h.held r).trans (hpq r)⟩

theorem Exactly.giveAll {l : Ledger R} {p q : R → Bool} (h : Exactly l p) :
    Exactly (l.giveAll q) fun r => p r && !q r :=
  ⟨h.sound, fun r => congrArg (· && !q r) (h.held r)⟩

variable [DecidableEq R]

def take (l : Ledger R) (r : R) : Ledger R :=
  ⟨Function.update l.held r true, l.faulty || l.held r⟩

def give (l : Ledger R) (r : R) : Ledger R :=
  ⟨Function.update l.held r false, l.faulty || !l.held r⟩

/-- One after the other is taken. -/
def takeEach (l : Ledger R) (rs : List R) : Ledger R := rs.foldl take l

/-- One after the other is given back. -/
def giveEach (l : Ledger R) (rs : List R) : Ledger R := rs.foldl give l

/-- The resources are taken in order, as long as `answers` grants them; one that is
refused sends those before it back. -/
def chain : List R → List Bool → Ledger R → Bool × List Bool × Ledger R
  | [], answers, l => (true, answers, l)
  | r :: rs, answers, l =>
      if answers.headD false then
        let rest := chain rs answers.tail (l.take r)
        (rest.1, rest.2.1, if rest.1 then rest.2.2 else rest.2.2.give r)
      else (false, answers.tail, l)

variable {l : Ledger R} {p q : R → Bool} {r : R} {rs : List R} {answers : List Bool}

theorem Exactly.take (h : Exactly l p) (hfree : p r = false) :
    Exactly (l.take r) (Function.update p r true) := by
  refine ⟨?_, fun r' => ?_⟩
  · change (l.faulty || l.held r) = false
    rw [h.sound, h.held, hfree]
    rfl
  · change Function.update l.held r true r' = _
    rw [show l.held = p from funext h.held]

theorem Exactly.give (h : Exactly l p) (hheld : p r = true) :
    Exactly (l.give r) (Function.update p r false) := by
  refine ⟨?_, fun r' => ?_⟩
  · change (l.faulty || !l.held r) = false
    rw [h.sound, h.held, hheld]
    rfl
  · change Function.update l.held r false r' = _
    rw [show l.held = p from funext h.held]

/-- Taken and given back. -/
theorem Exactly.take_give (h : Exactly l p) (hfree : p r = false) :
    Exactly ((l.take r).give r) p := by
  refine ((h.take hfree).give (Function.update_self ..)).congr fun r' => ?_
  rw [Function.update_idem]
  exact congrFun (Function.update_eq_self_iff.mpr hfree.symm) r'

/-- Taking what was not held, each once. -/
theorem Exactly.takeEach (h : Exactly l p) (hnodup : rs.Nodup)
    (hfree : ∀ r, r ∈ rs → p r = false) :
    Exactly (l.takeEach rs) fun r => p r || decide (r ∈ rs) := by
  induction rs generalizing l p with
  | nil => exact h.congr fun r => by simp
  | cons r rs ih =>
      obtain ⟨hnot, hrest⟩ := List.nodup_cons.mp hnodup
      have hone := h.take (hfree r (List.mem_cons_self ..))
      refine (ih hone hrest fun r' hr' => ?_).congr fun r' => ?_
      · have hne : r' ≠ r := fun heq => hnot (heq ▸ hr')
        rw [Function.update_of_ne hne]
        exact hfree r' (List.mem_cons_of_mem _ hr')
      · by_cases heq : r' = r
        · subst heq
          simp
        · rw [Function.update_of_ne heq]
          simp [heq]

/-- Giving back what was held, each once. -/
theorem Exactly.giveEach (h : Exactly l p) (hnodup : rs.Nodup)
    (hheld : ∀ r, r ∈ rs → p r = true) :
    Exactly (l.giveEach rs) fun r => p r && decide (r ∉ rs) := by
  induction rs generalizing l p with
  | nil => exact h.congr fun r => by simp
  | cons r rs ih =>
      obtain ⟨hnot, hrest⟩ := List.nodup_cons.mp hnodup
      have hone := h.give (hheld r (List.mem_cons_self ..))
      refine (ih hone hrest fun r' hr' => ?_).congr fun r' => ?_
      · have hne : r' ≠ r := fun heq => hnot (heq ▸ hr')
        rw [Function.update_of_ne hne]
        exact hheld r' (List.mem_cons_of_mem _ hr')
      · by_cases heq : r' = r
        · subst heq
          simp
        · rw [Function.update_of_ne heq]
          simp [heq]

/-- A chain takes all of its resources or none. -/
theorem Exactly.chain (h : Exactly l p) (hnodup : rs.Nodup)
    (hfree : ∀ r, r ∈ rs → p r = false) :
    ((chain rs answers l).1 = true →
      Exactly (chain rs answers l).2.2 fun r => p r || decide (r ∈ rs)) ∧
    ((chain rs answers l).1 = false → Exactly (chain rs answers l).2.2 p) := by
  induction rs generalizing l p answers with
  | nil => exact ⟨fun _ => h.congr fun r => by simp, fun hno => by cases hno⟩
  | cons r rs ih =>
      obtain ⟨hnot, hrest⟩ := List.nodup_cons.mp hnodup
      have hr := hfree r (List.mem_cons_self ..)
      have hone := h.take hr
      have hfree' : ∀ r', r' ∈ rs → Function.update p r true r' = false := by
        intro r' hr'
        have hne : r' ≠ r := fun heq => hnot (heq ▸ hr')
        rw [Function.update_of_ne hne]
        exact hfree r' (List.mem_cons_of_mem _ hr')
      obtain ⟨hall, hnone⟩ := @ih _ _ answers.tail hone hrest hfree'
      unfold Ledger.chain
      split
      · dsimp only
        refine ⟨fun hok => ?_, fun hno => ?_⟩
        · rw [if_pos hok]
          refine (hall hok).congr fun r' => ?_
          by_cases heq : r' = r
          · subst heq
            simp
          · rw [Function.update_of_ne heq]
            simp [heq]
        · rw [if_neg (by rw [hno]; exact Bool.false_ne_true)]
          refine ((hnone hno).give (Function.update_self ..)).congr fun r' => ?_
          by_cases heq : r' = r
          · subst heq
            rw [Function.update_self, hr]
          · rw [Function.update_of_ne heq, Function.update_of_ne heq]
      · exact ⟨fun hok => absurd hok Bool.false_ne_true, fun _ => h⟩

end Ledger
end Lib
end NvmeDriver
