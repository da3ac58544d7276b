import Mathlib.Tactic

/-!
# Steps that may fail

A step over a state returns whether it succeeded.  A sequence of such steps stops at the
first one that fails, after a clean-up of what the steps before it have done: the `goto`
chains of C.
-/

namespace NvmeDriver
namespace Lib

variable {S : Type} {good good' bad bad' : S → Prop} {out : Bool × S} {s : S}

/-- The step ends well or badly. -/
structure Tries (out : Bool × S) (good bad : S → Prop) : Prop where
  succeeded : out.1 = true → good out.2
  failed : out.1 = false → bad out.2

theorem Tries.success (h : good s) : Tries (true, s) good bad :=
  ⟨fun _ => h, fun hno => absurd hno.symm Bool.false_ne_true⟩

theorem Tries.failure (h : bad s) : Tries (false, s) good bad :=
  ⟨fun hok => absurd hok Bool.false_ne_true, fun _ => h⟩

theorem Tries.any (out : Bool × S) : Tries out (fun _ => True) fun _ => True :=
  ⟨fun _ => trivial, fun _ => trivial⟩

/-- What holds either way. -/
theorem Tries.both (h : good out.2) : Tries out good good := ⟨fun _ => h, fun _ => h⟩

theorem Tries.either (h : Tries out good good) : good out.2 := by
  cases hout : out.1 with
  | true => exact h.succeeded hout
  | false => exact h.failed hout

/-- The rule of a sequence: `s` is what the clean-up leaves when the first step fails. -/
theorem Tries.next {rest : Bool × S} (h : Tries out good bad) (hclean : bad out.2 → bad' s)
    (hrest : good out.2 → Tries rest good' bad') :
    Tries (if !out.1 then (false, s) else rest) good' bad' := by
  cases hout : out.1 with
  | true => exact hrest (h.succeeded hout)
  | false => exact .failure (hclean (h.failed hout))

/-- The last step: `s` is what it leaves when it succeeds, `t` otherwise. -/
theorem Tries.last {t : S} (h : Tries out good bad) (hfinish : good out.2 → good' s)
    (hclean : bad out.2 → bad' t) : Tries (out.1, if out.1 then s else t) good' bad' := by
  cases hout : out.1 with
  | true => exact .success (hfinish (h.succeeded hout))
  | false => exact .failure (hclean (h.failed hout))

/-- Both branches of a test. -/
theorem Tries.test {b : Bool} {yes no : Bool × S} (hyes : b = true → Tries yes good bad)
    (hno : b = false → Tries no good bad) : Tries (if b then yes else no) good bad := by
  cases b with
  | true => exact hyes rfl
  | false => exact hno rfl

end Lib
end NvmeDriver
