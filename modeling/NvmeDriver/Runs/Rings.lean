import NvmeDriver.Ownership.RingCount
import NvmeDriver.Runs.Clients

/-!
# The I/O rings over whole runs

`nvme_submit_io` decides by the published head of the completion queue whether the
submission ring has room.  Over every run, with retries, resets and force-completions, the
slot it writes holds no SQE that the controller may still have to fetch; while every CQE
belongs to a command, it refuses a submission exactly when 255 commands are unaccounted
for, and `drain_cq` drops a CQE exactly when the CID it names has no command outstanding.
-/

namespace NvmeDriver
namespace Runs

open Engine
open Lib
open Ownership
open Refine

/-! ### Every state of a run -/

section Run

variable {maxZeroes : Nat} {events : List Event}

theorem up_ringCount (env : Env) (maxZeroes : Nat) :
    RingCount ⟨(upState env maxZeroes).core, ⟨none, none, none, 0, false, false⟩⟩ := by
  have hheld : ∀ f, heldBy f (upState env maxZeroes).core = 0 :=
    fun f => Slots.held_replicate_none _ _
  constructor
  case depth => exact fun _ => rfl
  case tail => exact fun _ => rfl
  case head => exact fun _ => rfl
  case ahead => rfl
  case seen => exact Nat.le_refl _
  case bound => exact fun _ => Nat.zero_lt_succ 255
  case inflight =>
    intro _
    rw [hheld]
    rfl
  case cids =>
    intro _ _ f
    rw [hheld]
    rfl
  case log => trivial

theorem run_ringCount (env : Env) (maxZeroes : Nat) (events : List Event) :
    RingCount ⟨(run env events (bootState env maxZeroes)).core,
      ⟨none, none, none, 0, false, false⟩⟩ :=
  ((keeps_ringCount env _).path (run_path (meetsAll_all env events _))
    ⟨up_safe env maxZeroes, up_ringCount env maxZeroes⟩).2

/-- Every part of the log of a run is in order. -/
theorem run_logOk {env : Env} {later earlier : List Effect}
    (htrace : (run env events (bootState env maxZeroes)).core.trace = later ++ earlier) :
    LogOk earlier := by
  have h := (run_ringCount env maxZeroes events).log
  rw [htrace] at h
  exact h.suffix

/-- Whatever SQE the slot of a submission held before has been fetched: `fetched` is how
many SQEs the controller has taken off the ring by then, which is no less than the CQEs it
has posted and the driver has consumed. -/
theorem run_overwrites_fetched {env : Env} {later earlier : List Effect} {slot fetched : Nat}
    {r : Request} {owner : Option Nat}
    (htrace : (run env events (bootState env maxZeroes)).core.trace =
      later ++ .sqe slot r owner :: earlier)
    (hq : r.q = .io) (hfetch : since isIoConsumed earlier ≤ fetched) :
    slot = since isIoSqe earlier % nvmeIoQueueSize ∧
      ∀ k, k < since isIoSqe earlier → k % nvmeIoQueueSize = slot → k < fetched := by
  obtain ⟨hok, hrest⟩ := run_logOk htrace
  obtain ⟨hslot, hroom, -⟩ := hok hq
  obtain ⟨-, hseen, -⟩ := LogOk.counts hrest
  refine ⟨hslot, fun k hk hsame => ?_⟩
  -- two SQEs on one slot are a whole ring apart
  have hlap : k + nvmeIoQueueSize ≤ since isIoSqe earlier := by
    by_contra hnear
    exact mod_ne_of_close hk (by omega) (hsame.trans hslot)
  omega

/-- Clients read a block each, one after another.  The command of every read fails five
times with an error that is retried at once, each time under the next CID of its tag, and
then succeeds. -/
def stubbornReads (clients : Nat) : List Event :=
  (List.range clients).flatMap fun k =>
    [.putMsg, .drain, .irq [] ((List.range 6).map fun j =>
      ⟨(6 * k + j) % 16 * 4096, if j < 5 then 0x281 else 0, 0⟩)]

/-- 43 such reads and one that stays in flight: the ring and the CIDs go round. -/
def wrappingReads : List Event := stubbornReads 43 ++ [.putMsg, .drain]

def wrappedReads : State := run sampleEnv wrappingReads (bootState sampleEnv 2048)

/-- The newest entry is the 259th SQE, under a CID that has been used 16 times. -/
def isLastSqe : List Effect → Bool
  | .sqe _ r _ :: earlier =>
      r.q == .io && since isIoSqe earlier == 258 && issuedUnder r.cid earlier == 16
  | _ => false

theorem since_le_countP (p : Effect → Bool) (tr : List Effect) : since p tr ≤ tr.countP p :=
  (List.takeWhile_sublist _).countP_le

/-- What is nowhere on the log of these reads. -/
theorem wrappedReads_since {p : Effect → Bool} {later earlier : List Effect}
    (hnone : wrappedReads.core.trace.any p = false)
    (htrace : wrappedReads.core.trace = later ++ earlier) : since p earlier = 0 := by
  refine Nat.le_zero.mp ((since_le_countP p earlier).trans (Nat.le_of_eq ?_))
  rw [List.countP_eq_zero]
  intro e he
  rw [List.any_eq_false] at hnone
  exact hnone e (htrace ▸ List.mem_append_right _ he)

/-- The log has the last SQE on it, no force-completion and no dropped CQE. -/
theorem wrappedReads_log : wrappedReads.core.ioTab.present = true ∧
    wrappedReads.core.trace.tails.any isLastSqe = true ∧
    wrappedReads.core.trace.any isIoCancel = false ∧
    wrappedReads.core.trace.any isIoStray = false := by
  decide +kernel

theorem wrappedReads_sqe : ∃ later earlier slot r owner,
    wrappedReads.core.trace = later ++ .sqe slot r owner :: earlier ∧ r.q = .io ∧
      since isIoSqe earlier = 258 ∧ issuedUnder r.cid earlier = 16 := by
  obtain ⟨l, hmem, hl⟩ := List.any_eq_true.mp wrappedReads_log.2.1
  obtain ⟨later, htrace⟩ := (List.mem_tails _ _).mp hmem
  match l, hl with
  | .sqe slot r owner :: earlier, hl =>
      simp only [isLastSqe, Bool.and_eq_true, beq_iff_eq] at hl
      exact ⟨later, earlier, slot, r, owner, htrace.symm, hl.1.1, hl.1.2, hl.2⟩

theorem run_overwrites_fetched_read : ∃ later earlier slot r owner,
    wrappedReads.core.trace = later ++ .sqe slot r owner :: earlier ∧ slot = 2 ∧
      ∀ k, k < 258 → k % nvmeIoQueueSize = 2 → k < since isIoConsumed earlier := by
  obtain ⟨later, earlier, slot, r, owner, htrace, hq, hcount, -⟩ := wrappedReads_sqe
  unfold wrappedReads at htrace ⊢
  have h := run_overwrites_fetched htrace hq (Nat.le_refl _)
  rw [hcount] at h
  obtain ⟨rfl, hfetched⟩ := h
  exact ⟨later, earlier, _, r, owner, htrace, rfl, hfetched⟩

/-- While every CQE belongs to a command, `nvme_submit_io` refuses exactly when 255 SQEs are
not accounted for by the CQEs that the driver has given back. -/
theorem run_refuses_exactly {env : Env} {later earlier : List Effect} {e : Effect}
    (htrace : (run env events (bootState env maxZeroes)).core.trace = later ++ e :: earlier)
    (hstray : since isIoStray earlier = 0) :
    (e = .sqFull .io → since isIoSqe earlier = publishedCqes earlier + 255) ∧
      (isIoSqe e = true → since isIoSqe earlier < publishedCqes earlier + 255) := by
  obtain ⟨hok, hrest⟩ := run_logOk htrace
  obtain ⟨hbound, hseen, -⟩ := LogOk.counts hrest
  have hle := LogOk.published_le hrest hstray
  have hring : since isIoSqe earlier < publishedCqes earlier + nvmeIoQueueSize := by
    unfold publishedCqes
    omega
  have hsize : nvmeIoQueueSize = 256 := rfl
  constructor
  · rintro rfl
    have hfull : (since isIoSqe earlier + 1) % nvmeIoQueueSize =
        publishedCqes earlier % nvmeIoQueueSize := hok
    by_contra hne
    exact mod_ne_of_close (show publishedCqes earlier < since isIoSqe earlier + 1 by omega)
      (by omega) hfull.symm
  · intro hsqe
    have hroom := hok.room hsqe
    unfold publishedCqes
    omega

theorem run_refuses_exactly_read : ∃ later earlier slot r owner,
    wrappedReads.core.trace = later ++ .sqe slot r owner :: earlier ∧
      since isIoSqe earlier = 258 ∧ 258 < publishedCqes earlier + 255 := by
  obtain ⟨later, earlier, slot, r, owner, htrace, hq, hcount, -⟩ := wrappedReads_sqe
  have hsplit : wrappedReads.core.trace = (later ++ [.sqe slot r owner]) ++ earlier := by
    simpa using htrace
  have hstray : since isIoStray earlier = 0 := wrappedReads_since wrappedReads_log.2.2.2 hsplit
  unfold wrappedReads at htrace ⊢
  have hroom := (run_refuses_exactly htrace hstray).2 (beq_iff_eq.mpr hq)
  rw [hcount] at hroom
  exact ⟨later, earlier, slot, r, owner, htrace, hcount, hroom⟩

/-- While no command is force-completed, a CID has at most one command outstanding; a command
is written only for a CID that has none, a CQE completes exactly the request whose command
that is, and `drain_cq` drops a CQE exactly when its CID has none. -/
theorem run_matches_exactly {env : Env} {later earlier : List Effect} {e : Effect}
    (htrace : (run env events (bootState env maxZeroes)).core.trace = later ++ e :: earlier)
    (hcancel : since isIoCancel earlier = 0) :
    (∀ slot r owner, e = .sqe slot r owner → r.q = .io →
        issuedUnder r.cid earlier = answeredUnder r.cid earlier) ∧
      (∀ cid n st, e = .cqe .io cid n st →
        issuedUnder cid earlier = answeredUnder cid earlier + 1 ∧
          ∀ m, issuedTo cid m earlier = answeredTo cid m earlier + if m = n then 1 else 0) ∧
      ∀ cid, e = .strayCqe .io cid → issuedUnder cid earlier = answeredUnder cid earlier := by
  have hok := (run_logOk htrace).1
  refine ⟨?_, ?_, ?_⟩
  · rintro slot r owner rfl hq
    exact (hok hq).2.2.2.2 hcancel
  · rintro cid n st rfl
    exact hok.2 hcancel
  · rintro cid rfl
    exact hok hcancel

theorem run_matches_exactly_read : ∃ later earlier slot r owner,
    wrappedReads.core.trace = later ++ .sqe slot r owner :: earlier ∧
      issuedUnder r.cid earlier = 16 ∧ answeredUnder r.cid earlier = 16 := by
  obtain ⟨later, earlier, slot, r, owner, htrace, hq, -, hissued⟩ := wrappedReads_sqe
  have hsplit : wrappedReads.core.trace = (later ++ [.sqe slot r owner]) ++ earlier := by
    simpa using htrace
  have hcancel : since isIoCancel earlier = 0 :=
    wrappedReads_since wrappedReads_log.2.2.1 hsplit
  unfold wrappedReads at htrace ⊢
  have hanswered := (run_matches_exactly htrace hcancel).1 slot r owner rfl hq
  exact ⟨later, earlier, slot, r, owner, htrace, hissued, hanswered.symm.trans hissued⟩

/-- What the two indices of the I/O queue and its in-flight count say, whenever the queue is
set up: how many SQEs were written and how many CQEs consumed, and that the commands written
are those in flight, those answered and those force-completed.  The distance of the indices
is the in-flight count unless CQEs were dropped or commands force-completed. -/
theorem run_ring_accounts (env : Env) (maxZeroes : Nat) (events : List Event)
    (hpres : (run env events (bootState env maxZeroes)).core.ioTab.present = true) :
    let c := (run env events (bootState env maxZeroes)).core
    (c.ring .io).sqTail = since isIoSqe c.trace % 256 ∧
      (c.ring .io).cqHead = since isIoConsumed c.trace % 256 ∧
      since isIoSqe c.trace =
        c.ioTab.inflightCount + since isIoCqe c.trace + since isIoCancel c.trace ∧
      (since isIoStray c.trace = 0 → since isIoCancel c.trace = 0 →
        ((c.ring .io).sqTail + 256 - (c.ring .io).cqHead) % 256 = c.ioTab.inflightCount) := by
  intro c
  have hcount := run_ringCount env maxZeroes events
  have hsafe := run_safe env maxZeroes events
  have htail : (c.ring .io).sqTail = since isIoSqe c.trace % 256 := hcount.tail hpres
  have hhead : (c.ring .io).cqHead = since isIoConsumed c.trace % 256 := hcount.head hpres
  have hheld : c.ioTab.inflightCount = heldBy (fun _ _ => true) c := (hsafe.tabs .io).count
  have hinf : since isIoSqe c.trace =
      c.ioTab.inflightCount + since isIoCqe c.trace + since isIoCancel c.trace := by
    rw [hheld]
    exact hcount.inflight hpres
  refine ⟨htail, hhead, hinf, fun hstray hcancel => ?_⟩
  have hbound : since isIoSqe c.trace + 0 < 256 + since isIoConsumed c.trace :=
    hcount.bound hpres
  rw [since_consumed, hstray] at hbound hhead
  rw [htail, hhead]
  omega

theorem run_ring_accounts_read :
    (wrappedReads.core.ring .io).sqTail = since isIoSqe wrappedReads.core.trace % 256 ∧
      (wrappedReads.core.ring .io).cqHead = since isIoConsumed wrappedReads.core.trace % 256 ∧
      since isIoSqe wrappedReads.core.trace = wrappedReads.core.ioTab.inflightCount +
        since isIoCqe wrappedReads.core.trace + since isIoCancel wrappedReads.core.trace ∧
      (since isIoStray wrappedReads.core.trace = 0 →
        since isIoCancel wrappedReads.core.trace = 0 →
        ((wrappedReads.core.ring .io).sqTail + 256 - (wrappedReads.core.ring .io).cqHead) % 256 =
          wrappedReads.core.ioTab.inflightCount) := by
  have hpres := wrappedReads_log.1
  unfold wrappedReads at hpres ⊢
  exact run_ring_accounts sampleEnv 2048 wrappingReads hpres

end Run

end Runs
end NvmeDriver
