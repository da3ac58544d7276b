import Mathlib.Tactic
import Mathlib.Logic.Relation

/-!
# Paths that keep an invariant

To show that a program goes through steps of a machine one may use, at every
point, what the machine's invariant says there.  `Leads` is a path that may be
built under the invariant of its start; such paths compose once the steps are
known to keep the invariant.
-/

namespace NvmeDriver
namespace Lib

variable {S : Type} {R : S → S → Prop} {Inv : S → Prop}

/-- Every step keeps the property. -/
def Keeps (R : S → S → Prop) (Inv : S → Prop) : Prop :=
  ∀ s t, Inv s → R s t → Inv t

/-- What every step keeps, every path keeps. -/
theorem Keeps.path (h : Keeps R Inv) {s t : S}
    (hpath : Relation.ReflTransGen R s t) (hs : Inv s) : Inv t := by
  induction hpath with
  | refl => exact hs
  | tail _ hstep ih => exact h _ _ ih hstep

/-- From a state with the invariant there is a path. -/
def Leads (R : S → S → Prop) (Inv : S → Prop) (s t : S) : Prop :=
  Inv s → Relation.ReflTransGen R s t

theorem Leads.refl (s : S) : Leads R Inv s s := fun _ => Relation.ReflTransGen.refl

theorem Leads.step {s t : S} (h : Inv s → R s t) : Leads R Inv s t :=
  fun hs => Relation.ReflTransGen.single (h hs)

theorem Leads.trans (hkeep : Keeps R Inv) {s t w : S}
    (h : Leads R Inv s t) (k : Leads R Inv t w) : Leads R Inv s w :=
  fun hs => (h hs).trans (k (hkeep.path (h hs) hs))

/-- The invariant may be used while the path is built. -/
theorem Leads.assume {s t : S} (h : Inv s → Leads R Inv s t) : Leads R Inv s t :=
  fun hs => h hs hs

end Lib
end NvmeDriver
