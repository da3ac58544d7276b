/-!
# Journals

A journal is a list of entries, newest first, and says of every entry what must hold of the
journal before it.  Entries that say nothing may be added anywhere.
-/

namespace NvmeDriver
namespace Lib

variable {E : Type} {ok : List E → E → Prop}

/-- Every entry is in order with respect to the ones before it. -/
def Ordered (ok : List E → E → Prop) : List E → Prop
  | [] => True
  | e :: tr => ok tr e ∧ Ordered ok tr

/-- Entries that are in order anywhere. -/
theorem Ordered.append {l tr : List E} (hl : ∀ e, e ∈ l → ∀ tr', ok tr' e)
    (htr : Ordered ok tr) : Ordered ok (l ++ tr) := by
  induction l with
  | nil => exact htr
  | cons e l ih =>
      exact ⟨hl e (List.mem_cons_self ..) _, ih (fun e' he' => hl e' (List.mem_cons_of_mem _ he'))⟩

/-- What is older is in order, too. -/
theorem Ordered.suffix {l tr : List E} (h : Ordered ok (l ++ tr)) : Ordered ok tr := by
  induction l with
  | nil => exact h
  | cons e l ih => exact ih h.2

/-- An entry, wherever it stands. -/
theorem Ordered.at {l tr : List E} {e : E} (h : Ordered ok (l ++ e :: tr)) : ok tr e :=
  h.suffix.1

end Lib
end NvmeDriver
