import NvmeDriver.Wire
import NvmeDriver.Runs.Clients

/-!
# Aborts name other commands

Every SQE carries its `command_id` in host order, and the Abort command carries the same
number through `le16`.  The controller therefore reads the two with opposite byte orders:
an Abort names the command it is meant for only if the two bytes of the CID are equal.
-/

namespace NvmeDriver
namespace Runs

open Engine
open Lib
open Ownership
open Refine

/-! ### What is in the tables -/

section Named

variable {q : QueueId} {t : SlotTable} {cid : Nat} {rest : List Nat} {r : Request}

/-- The SQE of every request carries its CID, and every CID has 16 bits. -/
structure TabNamed (t : SlotTable) : Prop where
  free : ∀ cid, cid ∈ t.freeStack → cid < 2 ^ 16
  slots : ∀ tag r, t.read tag = some r → r.cmd.commandId = r.cid ∧ r.cid < 2 ^ 16

theorem nextCid_lt (skip : Bool) (cid : Nat) : nextCid skip cid < 2 ^ 16 := by
  unfold nextCid cidTag
  split <;> omega

theorem TabNamed.claim (hn : TabNamed t) (hfree : t.freeStack = cid :: rest)
    (hname : r.cmd.commandId = r.cid) (hcid : r.cid = cid) :
    TabNamed (nvmeInflightClaim (popped t rest) cid r) := by
  have hlt : r.cid < 2 ^ 16 := hcid ▸ hn.free cid (hfree ▸ List.mem_cons_self)
  constructor
  case free =>
    intro cid' hmem
    exact hn.free cid' (hfree ▸ List.mem_cons_of_mem _ hmem)
  case slots =>
    intro tag r' hr'
    have hset : Slots.read (t.inflight.set (cidTag cid) (some r)) tag = some r' := hr'
    by_cases htag : cidTag cid = tag
    · subst htag
      have hin : cidTag cid < t.inflight.length := by
        have := Slots.lt_length_of_read hset
        rwa [List.length_set] at this
      rw [Slots.read_set_self _ hin] at hset
      cases hset
      exact ⟨hname, hlt⟩
    · rw [Slots.read_set_other _ htag] at hset
      exact hn.slots tag r' hset

theorem TabNamed.release (hn : TabNamed t) : TabNamed (nvmeInflightRelease t cid) := by
  unfold nvmeInflightRelease
  split
  · exact hn
  · constructor
    case free =>
      intro cid' hmem
      rcases List.mem_cons.mp hmem with rfl | hmem
      · exact nextCid_lt _ _
      · exact hn.free cid' hmem
    case slots =>
      intro tag r' hr'
      have hset : Slots.read (t.inflight.set (cidTag cid) none) tag = some r' := hr'
      by_cases htag : cidTag cid = tag
      · subst htag
        have hin : cidTag cid < t.inflight.length := by
          have := Slots.lt_length_of_read hset
          rwa [List.length_set] at this
        rw [Slots.read_set_self _ hin] at hset
        cases hset
      · rw [Slots.read_set_other _ htag] at hset
        exact hn.slots tag r' hset

theorem TabNamed.bump (hn : TabNamed t) (hfree : t.freeStack = cid :: rest) :
    TabNamed (bumped t cid rest) := by
  refine { hn with free := ?_ }
  intro cid' hmem
  rcases List.mem_cons.mp hmem with rfl | hmem
  · exact nextCid_lt _ _
  · exact hn.free cid' (hfree ▸ List.mem_cons_of_mem _ hmem)

theorem TabNamed.edit (hn : TabNamed t) (tag : Nat) (f : Request → Request)
    (hcmd : ∀ r, (f r).cmd = r.cmd) (hcid : ∀ r, (f r).cid = r.cid) :
    TabNamed (t.edit tag f) := by
  refine { hn with slots := ?_ }
  intro u r' hr'
  rw [read_edit] at hr'
  split at hr'
  · obtain ⟨r₀, hr₀, rfl⟩ := Option.map_eq_some_iff.mp hr'
    rw [hcmd, hcid]
    exact hn.slots u r₀ hr₀
  · exact hn.slots u r' hr'

theorem tabNamed_gone : TabNamed SlotTable.gone where
  free := by
    intro cid h
    cases h
  slots := by
    intro tag r h
    simp [SlotTable.gone, SlotTable.read] at h

theorem tabNamed_fresh {depth : Nat} (skip : Bool) (hdepth : depth ≤ 4096) :
    TabNamed (SlotTable.fresh depth skip) where
  free := by
    intro cid h
    have hlt : cid < depth := List.mem_range.mp h
    omega
  slots := by
    intro tag r h
    have hmem : some r ∈ List.replicate depth none := Slots.mem_iff_read.mpr ⟨tag, h⟩
    cases List.eq_of_mem_replicate hmem

/-- Both tables are named. -/
def Named (g : Cfg) : Prop := ∀ q, TabNamed (g.core.tab q)

theorem named_setTab {c : Core} (hold : ∀ q, TabNamed (c.tab q)) (ht : TabNamed t)
    (q' : QueueId) : TabNamed ((c.setTab q t).tab q') := by
  rw [tab_setTab]
  split
  · exact ht
  · exact hold q'

theorem singleOf_named {env : Env} {x : Transfer} (hof : SingleOf env r x) :
    r.cmd.commandId = r.cid := by
  cases x <;> exact hof.1

theorem Move.keeps_named {env : Env} {P : Policy} {g g' : Cfg} (hm : Move env P g g')
    (hold : Named g) : Named g' := by
  intro q
  cases hm with
  | phase hstir hp => cases hp <;> exact hold q
  | @fizzle c h q₀ cid rest n notes hfree hn hnotes =>
      rw [stamp_tab]
      exact named_setTab hold ((hold q₀).bump hfree) q
  | @launchIo c h i cid rest n us notes r t hh hreq hctx hfree hn hnotes hkey hcid hret
      hask hcheck hone hof hroom hring hgate =>
      rw [sent_tab]
      refine named_setTab hold ((hold .io).claim hfree ?_ ?_) q
      · exact singleOf_named hof
      · exact hcid
  | @launchSib c h x cid rest n us notes r ctx hh hreq hget hfree hn hnotes hkey hcid hret
      hstall hmore hcap hof hring hgate =>
      rw [sent_tab]
      refine named_setTab ?_ ((hold .io).claim hfree ?_ ?_) q
      · exact hold
      · exact hof.1
      · exact hcid
  | @launchAdmin c h cid rest n us notes r done waiter hfree hn hnotes hkey hcid hchain
      hfeat hname =>
      rw [sent_tab]
      refine named_setTab hold ((hold .admin).claim hfree ?_ ?_) q
      · exact hname
      · exact hcid
  | @reapCqe c h q₀ r st res hread hh hctx hst =>
      rw [stamp_tab]
      exact named_setTab hold (hold q₀).release q
  | @reapCancel c h q₀ r hread hh hctx hcancel =>
      rw [stamp_tab]
      exact named_setTab hold (hold q₀).release q
  | @relaunch c h r r' cid rest us hh hctx hr' hret hfree hring hgate =>
      rw [sent_tab]
      refine named_setTab hold ((hold r.q).claim hfree ?_ ?_) q <;> rw [hr']
  | @lose c h r cid rest notes hlose hh hfree hnotes =>
      rw [stamp_tab]
      exact named_setTab hold ((hold r.q).bump hfree) q
  | @touch c h q₀ tag us =>
      refine named_setTab hold ((hold q₀).edit tag _ ?_ ?_) q <;> exact fun _ => rfl
  | @teardown c h q₀ notes hstir hlose hnotes hidle =>
      rw [setRing_tab, stamp_tab]
      exact named_setTab hold tabNamed_gone q
  | @setup c h q₀ hstir hvac hio hidle =>
      rw [setRing_tab, stamp_tab]
      exact named_setTab hold (tabNamed_fresh _ (queueSize_le q₀)) q
  | @publish c h q₀ head phase hstir hhead =>
      rw [setRing_tab, stamp_tab]
      exact hold q
  | accept | note | translated | burn | limits | bell | refuse | openBatch | closeBatch | skip
  | takeMsg | takePending | stash | replyHand | discardHand | fizzleBare | revise | park | unpark
  | endReply | endFree | endWait | endDrop | collect | sibDone | allocCtx | ctxError | stall
  | unstall | dropCtx | finish | freeCtx =>
      cases q <;> first | exact hold .admin | exact hold .io

/-- Every request in flight was submitted under its CID. -/
theorem run_named (env : Env) (maxZeroes : Nat) (events : List Event) :
    Named ⟨(run env events (bootState env maxZeroes)).core,
      ⟨none, none, none, 0, false, false⟩⟩ := by
  have hkeep : Keeps (Move env Refine.Policy.all) Named :=
    fun _ _ hold hm => Move.keeps_named hm hold
  refine hkeep.path (run_path (meetsAll_all env events _)) ?_
  intro q
  cases q with
  | admin => exact tabNamed_fresh _ (by decide)
  | io => exact tabNamed_fresh _ (by decide)

end Named

/-! ### The Abort command -/

section Abort

variable {env : Env} {s : State} {r : Request}

/-- The request of the newest SQE on the log. -/
def newestSqe (trace : List Effect) : Option Request :=
  trace.findSome? fun
    | .sqe _ r _ => some r
    | _ => none

/-- How an admin request is filled in for the Abort of `r`. -/
def abortFill (r x : Request) : Request :=
  { x with
    cmd := { abortCommand r.q r.cid with commandId := x.cid }
    done := some Done.abortDone, priv := none, aer := false }

theorem abortFill_cmd (r x : Request) :
    (abortFill r x).cmd = { abortCommand r.q r.cid with commandId := (abortFill r x).cid } := rfl

/-- No memory for an admin request, no tag for it, or no slot in the ring. -/
def AdminShort (env : Env) (s : State) : Prop :=
  env.alloc s.core.allocs = none ∨ s.core.adminTab.freeStack = [] ∨ sqFull s .admin

/-- An Abort fails for want of admin resources, or goes out under a CID of its own. -/
theorem nvmeAbortRequest_cases (ht : TabOk .admin (s.core.tab .admin)) :
    (AdminShort env s ∧ (nvmeAbortRequest env s r).2 ≠ 0) ∨
      ∃ slot a, a.cmd = { abortCommand r.q r.cid with commandId := a.cid } ∧
        ((nvmeAbortRequest env s r).1.core.trace = .sqe slot a none :: s.core.trace ∨
          ∃ tail, (nvmeAbortRequest env s r).1.core.trace =
            .sqDoorbell .admin tail :: .sqe slot a none :: s.core.trace) := by
  rw [nvmeAbortRequest_eq]
  unfold nvmeSubmitAsyncCmd nvmeReqAllocAdmin
  rcases @allocRequest_cases env s .admin id errNoMem errBusy ht (fun _ => rfl) with
    ⟨s₁, heq, -, hmem⟩ | ⟨s₁, heq, -, htag⟩ | ⟨s₁, cid, rest, heq, hh, -⟩
  · rw [heq]
    exact .inl ⟨.inl hmem, fun h => nomatch h⟩
  · rw [heq]
    exact .inl ⟨.inr (.inl htag), fun h => nomatch h⟩
  · rw [heq]
    have h₁ := hh.editSlot (abortFill r) hh.cid
    change (AdminShort env s ∧
        (if (nvmeSubmitIo env (s₁.editSlot .admin (cidTag cid) (abortFill r)) .admin
          (cidTag cid)).2 ≠ nvmeIoAsync then errIo else 0) ≠ 0) ∨
      ∃ slot a, _ ∧
        ((nvmeSubmitIo env (s₁.editSlot .admin (cidTag cid) (abortFill r)) .admin
            (cidTag cid)).1.core.trace = .sqe slot a none :: s.core.trace ∨
          ∃ tail, (nvmeSubmitIo env (s₁.editSlot .admin (cidTag cid) (abortFill r)) .admin
            (cidTag cid)).1.core.trace =
              .sqDoorbell .admin tail :: .sqe slot a none :: s.core.trace)
    rw [h₁.nvmeSubmitIo]
    by_cases hfull : Engine.sqFull (s₁.editSlot .admin (cidTag cid) (abortFill r)) .admin
    · rw [if_pos hfull]
      exact .inl ⟨.inr (.inr (h₁.sqFull.mp hfull)), fun h => nomatch h⟩
    · rw [if_neg hfull]
      refine .inr ⟨(s.core.ring .admin).sqTail,
        abortFill r { id := s.core.allocs, q := .admin, cid := cid }, abortFill_cmd r _, ?_⟩
      obtain ⟨us, hcore | ⟨tail, hcore⟩⟩ := h₁.writeSqe env
      · left
        rw [hcore]
        rfl
      · right
        refine ⟨tail, ?_⟩
        rw [hcore]
        rfl

/-- An Abort that is submitted goes out under a CID of its own. -/
theorem nvmeAbortRequest_sqe (hs : Safe ⟨s.core, ⟨none, none, none, 0, false, false⟩⟩)
    (hok : (nvmeAbortRequest env s r).2 = 0) :
    ∃ a, newestSqe (nvmeAbortRequest env s r).1.core.trace = some a ∧
      a.cmd = { abortCommand r.q r.cid with commandId := a.cid } := by
  rcases @nvmeAbortRequest_cases env s r (hs.tabs .admin) with
    h | ⟨slot, a, hcmd, htrace | ⟨tail, htrace⟩⟩
  · exact absurd hok h.2
  · exact ⟨a, by rw [htrace]; rfl, hcmd⟩
  · exact ⟨a, by rw [htrace]; rfl, hcmd⟩

/-- A request in flight and the Abort for it: the controller reads the same CID in both,
and the queue of the request, exactly if the two bytes of the CID are equal. -/
theorem abort_names_command_iff (env : Env) (maxZeroes : Nat) (events : List Event)
    (q : QueueId) (tag : Nat) (r : Request) (flags : Nat) (body : List Nat)
    (hslot : (run env events (bootState env maxZeroes)).slot q tag = some r)
    (hok : (nvmeAbortRequest env (run env events (bootState env maxZeroes)) r).2 = 0) :
    ∃ a, newestSqe (nvmeAbortRequest env (run env events (bootState env maxZeroes))
          r).1.core.trace = some a ∧
      (decodedAbort (abortBytes a.cmd) = (decodedCid (sqeBytes r flags body), q.qid) ↔
        r.cid / 256 = r.cid % 256) := by
  have hs := run_safe env maxZeroes events
  obtain ⟨hname, hlt⟩ := (run_named env maxZeroes events q).slots tag r hslot
  have hq : r.q = q := ((hs.tabs q).slots tag r hslot).2
  obtain ⟨a, hnew, hcmd⟩ := nvmeAbortRequest_sqe hs hok
  refine ⟨a, hnew, ?_⟩
  rw [hcmd, decodedAbort_abortBytes r.q a.cid hlt, decodedCid_sqeBytes, hname, hq,
    Prod.mk.injEq, and_iff_left rfl]
  exact le16_eq_self_iff hlt

/-- The state after two reads were submitted, under CIDs 0 and 1. -/
def twoReads : State := run sampleEnv [.putMsg, .putMsg, .drain] (bootState sampleEnv 0)

/-- The Abort for the read under CID 0 names it. -/
theorem abort_names_command_zero :
    ∃ r a, twoReads.slot .io 0 = some r ∧
      newestSqe (nvmeAbortRequest sampleEnv twoReads r).1.core.trace = some a ∧
      (decodedAbort (abortBytes a.cmd) = (decodedCid (sqeBytes r 0 []), QueueId.io.qid) ↔
        r.cid / 256 = r.cid % 256) := by
  have hsome : (twoReads.slot .io 0).isSome = true ∧
      ∀ r, twoReads.slot .io 0 = some r → (nvmeAbortRequest sampleEnv twoReads r).2 = 0 := by
    decide +kernel
  obtain ⟨r, hr⟩ := Option.isSome_iff_exists.mp hsome.1
  obtain ⟨a, ha⟩ := abort_names_command_iff sampleEnv 0 [.putMsg, .putMsg, .drain] .io 0 r 0 []
    hr (hsome.2 r hr)
  exact ⟨r, a, hr, ha⟩

/-- The Abort for the read under CID 1 names CID 1; the controller knows the read as 256. -/
theorem abort_names_other_command :
    ∃ r a, twoReads.slot .io 1 = some r ∧
      (nvmeAbortRequest sampleEnv twoReads r).2 = 0 ∧
      newestSqe (nvmeAbortRequest sampleEnv twoReads r).1.core.trace = some a ∧
      decodedAbort (abortBytes a.cmd) = (1, 1) ∧ decodedCid (sqeBytes r 0 []) = 256 := by
  have hrun : (twoReads.slot .io 1).isSome = true ∧
      ∀ r, twoReads.slot .io 1 = some r →
        (nvmeAbortRequest sampleEnv twoReads r).2 = 0 ∧
          decodedCid (sqeBytes r 0 []) = 256 ∧
          (newestSqe (nvmeAbortRequest sampleEnv twoReads r).1.core.trace).map
            (fun a => decodedAbort (abortBytes a.cmd)) = some (1, 1) := by
    decide +kernel
  obtain ⟨r, hr⟩ := Option.isSome_iff_exists.mp hrun.1
  obtain ⟨hok, hcid, hnew⟩ := hrun.2 r hr
  obtain ⟨a, ha, hdec⟩ := Option.map_eq_some_iff.mp hnew
  exact ⟨r, a, hr, hok, ha, hdec, hcid⟩

end Abort

end Runs
end NvmeDriver
