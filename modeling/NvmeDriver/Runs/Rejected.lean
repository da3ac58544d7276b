import NvmeDriver.Refine.Completion
import NvmeDriver.Refine.IoSide

/-!
# Submissions off LIVE

What `nvme_io_submit_rw`, `nvme_io_submit_flush`, `nvme_io_submit_dsm` and
`nvme_io_submit_write_zeroes` leave behind when the controller is not LIVE.  A submission
that gets no request, or that gives it back, leaves no trace.  In a terminal state
`nvme_fail_nonready_command` completes the request with a status that is retried, while its
slot still names it: the slot is never given back.
-/

namespace NvmeDriver
namespace Runs

open Engine
open Lib
open Ownership
open Refine
open Namespace (lbaOutOfRange)

/-! ### Submissions -/

/-- A call of one of the public submitters, on a unit and for a client request. -/
inductive Submission
  | rw (lba blocks opcode buffer : Nat)
  | flush
  | dsm (buffer : Nat) (ranges : List DsmRange) (nr : Nat)
  | writeZeroes (lba blocks : Nat)
deriving DecidableEq, Repr

namespace Submission

/-- The submitter itself. -/
def call (env : Env) (s : State) (u io : Nat) : Submission → State × Int
  | .rw lba blocks opcode buffer => nvmeIoSubmitRw env s u io lba blocks opcode buffer
  | .flush => nvmeIoSubmitFlush env s u io
  | .dsm buffer ranges nr => nvmeIoSubmitDsm env s u io buffer ranges nr
  | .writeZeroes lba blocks => nvmeIoSubmitWriteZeroes env s u io lba blocks

/-- A Write Zeroes that is turned into a DSM command. -/
def deallocates (env : Env) (u lba blocks : Nat) : Prop :=
  blocks ≠ 0 ∧ lbaOutOfRange (env.units u) lba blocks = false ∧
    env.cfg.quirkDeallocateZeroes = true

instance (env : Env) (u lba blocks : Nat) : Decidable (deallocates env u lba blocks) :=
  inferInstanceAs (Decidable (_ ∧ _))

/-- A read or write that passes its checks and fits one command. -/
def singleRw (env : Env) (u lba blocks buffer : Nat) : Prop :=
  let bytes := blocks * 2 ^ (env.units u).blockShift % 2 ^ 32
  let cap := nvmeRwChunkCap env.cfg (env.units u).blockShift lba
  bytes ≠ 0 ∧ buffer ≠ 0 ∧ lbaOutOfRange (env.units u) lba blocks = false ∧
    (cap = 0 ∨ bytes ≤ cap)

instance (env : Env) (u lba blocks buffer : Nat) : Decidable (singleRw env u lba blocks buffer) :=
  inferInstanceAs (Decidable (_ ∧ _))

/-- A Write Zeroes that passes its checks and fits one command. -/
def singleZeroes (env : Env) (s : State) (u lba blocks : Nat) : Prop :=
  blocks ≠ 0 ∧ lbaOutOfRange (env.units u) lba blocks = false ∧
    env.cfg.quirkDeallocateZeroes = false ∧ s.core.maxZeroesSectors ≠ 0 ∧
    blocks * 2 ^ (env.units u).blockShift % 2 ^ 32 ≤ (env.units u).wzMaxBytes

instance (env : Env) (s : State) (u lba blocks : Nat) :
    Decidable (singleZeroes env s u lba blocks) :=
  inferInstanceAs (Decidable (_ ∧ _))

/-- The allocation that gives the submission its request, when it asks for one and there is
memory for it. -/
def request (env : Env) (s : State) (u : Nat) (sub : Submission) : Option Nat :=
  let asked : Option Nat :=
    match sub with
    | .rw lba blocks _ buffer =>
        if singleRw env u lba blocks buffer then some s.core.allocs else none
    | .flush => some s.core.allocs
    | .dsm _ _ _ => some s.core.allocs
    | .writeZeroes lba blocks =>
        if deallocates env u lba blocks then
          if (env.alloc s.core.allocs).isSome then some (s.core.allocs + 1) else none
        else if singleZeroes env s u lba blocks then some s.core.allocs
        else none
  asked.filter (fun n => (env.alloc n).isSome)

/-- The DSM range buffer the submission owns. -/
def rangeBuffer (env : Env) (s : State) (u : Nat) : Submission → Option Nat
  | .dsm buffer _ _ => some buffer
  | .writeZeroes lba blocks =>
      if deallocates env u lba blocks then env.alloc s.core.allocs else none
  | .rw _ _ _ _ => none
  | .flush => none

end Submission

/-! ### No trace -/

/-- An SQE or a doorbell. -/
def ringing : Effect → Bool
  | .sqe _ _ _ => true
  | .sqDoorbell _ _ => true
  | .cqDoorbell _ _ => true
  | _ => false

/-- A reply to a client. -/
def replying : Effect → Bool
  | .reply _ _ _ => true
  | _ => false

/-- The buffer at an address is freed. -/
def freeing (a : Nat) : Effect → Bool
  | .dmaFree _ b => b == a
  | .dmaFreeOther b => b == a
  | _ => false

/-- The errors a submitter returns. -/
def ioerrs : List Int :=
  [ioerrNoCmd, ioerrBadLength, ioerrBadAddress, ioerrUnitBusy, ioerrSelfTest]

/-- What a rejected submission may log: no SQE, no doorbell, the request and the range buffer
freed once each; and how it answers. -/
structure CleanLog (io : Nat) (request buffer : Option Nat) (err : Int)
    (es : List Effect) : Prop where
  ring : ∀ e, e ∈ es → ringing e = false
  request : ∀ id, es.count (.reqFree id) = if request = some id then 1 else 0
  buffer : ∀ a, es.countP (freeing a) = if buffer = some a then 1 else 0
  answer : (err ∈ ioerrs ∧ ∀ e, e ∈ es → replying e = false) ∨
    (err = nvmeIoAsync ∧ ∃ error actual, error ≠ 0 ∧
      es.filter replying = [.reply io error actual])

/-- The queue, its in-flight requests and the retry list are as before. -/
structure Undisturbed (c c' : Core) : Prop where
  tail : c'.ioRing.sqTail = c.ioRing.sqTail
  lastTail : c'.ioRing.lastSqTail = c.ioRing.lastSqTail
  count : c'.ioTab.inflightCount = c.ioTab.inflightCount
  inflight : c'.ioTab.inflight = c.ioTab.inflight
  parked : c'.retryList = c.retryList

/-- A call that took `request` and owned `buffer` has given everything back. -/
def Spotless (s : State) (io : Nat) (request buffer : Option Nat) (result : State × Int) : Prop :=
  Undisturbed s.core result.1.core ∧
    ∃ es, result.1.core.trace = es ++ s.core.trace ∧ CleanLog io request buffer result.2 es

/-- A submission leaves no trace. -/
def LeavesNoTrace (env : Env) (s : State) (u io : Nat) (sub : Submission) : Prop :=
  Spotless s io (sub.request env s u) (sub.rangeBuffer env s u) (sub.call env s u io)

/-! ### Giving up -/

section Undisturbed

variable {c : Core} {cid : Nat} {rest : List Nat} {es : List Effect} {n : Nat}

theorem Undisturbed.stamp (c : Core) (n : Nat) (es : List Effect) :
    Undisturbed c (stamp c n es) :=
  ⟨rfl, rfl, rfl, rfl, rfl⟩

theorem Undisturbed.returned (c : Core) (cid : Nat) (rest : List Nat) (n : Nat)
    (es : List Effect) : Undisturbed c (returned c .io cid rest n es) :=
  ⟨rfl, rfl, rfl, rfl, rfl⟩

end Undisturbed

section CleanLog

variable {io id a : Nat} {err : Int}

/-- Refused before anything was taken. -/
theorem CleanLog.nothing (io : Nat) (herr : err ∈ ioerrs) : CleanLog io none none err [] where
  ring := by simp
  request := by simp
  buffer := by simp
  answer := .inl ⟨herr, by simp⟩

/-- Only the request is given back. -/
theorem CleanLog.requestOnly (io id : Nat) (herr : err ∈ ioerrs) :
    CleanLog io (some id) none err [.reqFree id] where
  ring := by simp [ringing]
  request := by
    intro id'
    rw [List.count_singleton]
    simp
  buffer := by simp [freeing]
  answer := .inl ⟨herr, by simp [replying]⟩

/-- A range buffer is given back as well. -/
theorem CleanLog.withBuffer {request : Option Nat} {es es' : List Effect}
    (hclean : CleanLog io request none err es) (hperm : es'.Perm (.dmaFreeOther a :: es)) :
    CleanLog io request (some a) err es' := by
  have hmem : ∀ e, e ∈ es' → e = .dmaFreeOther a ∨ e ∈ es := by
    intro e he
    exact List.mem_cons.mp (hperm.mem_iff.mp he)
  constructor
  · intro e he
    rcases hmem e he with rfl | he
    · rfl
    · exact hclean.ring e he
  · intro id
    rw [hperm.count_eq, List.count_cons, hclean.request id]
    simp
  · intro b
    have hnone := hclean.buffer b
    simp only [reduceCtorEq, if_false] at hnone
    rw [hperm.countP_eq, List.countP_cons, hnone]
    simp [freeing]
  · rcases hclean.answer with ⟨herr, hno⟩ | ⟨herr, error, actual, hne, hone⟩
    · refine .inl ⟨herr, ?_⟩
      intro e he
      rcases hmem e he with rfl | he
      · rfl
      · exact hno e he
    · refine .inr ⟨herr, error, actual, hne, ?_⟩
      have hlist := hperm.filter replying
      rw [List.filter_cons_of_neg (by simp [replying]), hone] at hlist
      exact List.perm_singleton.mp hlist

end CleanLog

/-! ### A request in hand -/

section Held

variable {env : Env} {c : Core} {q : QueueId} {s : State} {r x : Request} {cid tag : Nat}
  {rest : List Nat} {es : List Effect}

/-- Submitting the request in hand leaves the other slots in use alone. -/
theorem submit_keeps_slot (hh : Holding c q cid rest s r es) (hx : (c.tab q).read tag = some x) :
    ((nvmeSubmitIo env s q (cidTag cid)).1.core.tab q).read tag = some x := by
  have hne : cidTag cid ≠ tag := by
    intro he
    have hnone := (hh.tab.free_head hh.free).2
    rw [he, hx] at hnone
    cases hnone
  rw [hh.nvmeSubmitIo]
  split
  · rw [(hh.log (.sqFull q)).destroy, returned, stamp_tab, tab_setTab, if_pos rfl]
    exact hx
  · have hlaunched : ∀ us n, ((launched c q cid rest r us n es).tab q).read tag = some x := by
      intro us n
      rw [launched, sent_tab, tab_setTab, if_pos rfl, ← hx]
      exact Slots.read_set_other _ hne
    obtain ⟨us, hcore | ⟨tail, hcore⟩⟩ := hh.writeSqe env
    · rw [hcore]
      exact hlaunched us _
    · rw [hcore]
      have hread := hlaunched us s.core.allocs
      cases q <;> exact hread

/-- So does a retry, whatever becomes of it. -/
theorem nvmeResubmitIo_keeps_slot {complete : State → Request → State}
    (ht : TabOk r.q (s.core.tab r.q)) (hx : (s.core.tab r.q).read tag = some x)
    (hcomplete : ((complete s { r with status := nvmeScHostPathError }).core.tab r.q).read tag =
      some x) :
    ((nvmeResubmitIo env complete s r).core.tab r.q).read tag = some x := by
  unfold nvmeResubmitIo nvmeAllocCid
  cases hfree : (s.core.tab r.q).freeStack with
  | nil =>
      have hnil : (s.tab r.q).freeStack = [] := hfree
      rw [hnil]
      exact hcomplete
  | cons cid rest =>
      have hcons : (s.tab r.q).freeStack = cid :: rest := hfree
      rw [hcons]
      let r₁ : Request := { r with cid := cid, cmd := { r.cmd with commandId := cid } }
      let s₁ := s.setTab r.q (nvmeInflightClaim (popped (s.core.tab r.q) rest) cid r₁)
      have hheld : Holding s.core r.q cid rest s₁ r₁ [] := by
        refine ⟨?_, ht, hfree, rfl⟩
        simp only [s₁, State.setTab]
        cases r.q <;> rfl
      exact submit_keeps_slot hheld hx

/-- A request of the dispatchers that is retried or ended leaves every slot in use as it
is. -/
theorem completeRq_keeps_slot (n : Nat) :
    ∀ r : Request, r.q = q → r.ctx = none → r.done = none → r.waiter = none →
      r.status = nvmeScHostPathError → TabOk q (s.core.tab q) →
      (s.core.tab q).read tag = some x →
      ((completeRq env n s r).core.tab q).read tag = some x := by
  induction n with
  | zero =>
      intro r _ _ _ _ _ _ hx
      cases q <;> exact hx
  | succ n ih =>
      intro r hq hctx hdone hwait hstatus ht hx
      unfold completeRq
      split
      · obtain ⟨notes, hcore, -⟩ := nvmeCleanupCmd_core s r
        have hread : ((nvmeCleanupCmd s r).1.core.tab q).read tag = some x := by
          rw [hcore, stamp_tab]
          exact hx
        have hdone' : (nvmeCleanupCmd s r).2.done = none := hdone
        have hwait' : (nvmeCleanupCmd s r).2.waiter = none := hwait
        unfold completeRequest endReq
        rw [hctx]
        dsimp only
        rw [hdone', hwait']
        cases (nvmeCleanupCmd s r).2.io with
        | none => exact hread
        | some i => cases q <;> exact hread
      · unfold nvmeRetryReq
        rw [hstatus]
        dsimp only
        rw [if_neg (by decide)]
        subst hq
        exact nvmeResubmitIo_keeps_slot ht hx (ih _ rfl hctx hdone hwait rfl ht hx)

/-- The request as `nvme_fail_nonready_command` scrubs it. -/
def scrubbed (r : Request) : Request :=
  { r with
    status := 0, retries := 0, cancelled := false, abortSent := false
    aer := false, prpList := false, prpSmall := false }

theorem nvmeFailNonreadyCommand_eq (hh : Holding c .io cid rest s r es) :
    nvmeFailNonreadyCommand env s (cidTag cid) =
      if nvmeStateTerminal s = false ∧ r.cancelled = false then
        (nvmeReqDestroy (s.editSlot .io (cidTag cid) (fun _ => scrubbed r)) .io (cidTag cid),
          ioerrUnitBusy)
      else
        (nvmeCompleteRq env (s.editSlot .io (cidTag cid) (fun _ => scrubbed r))
          { scrubbed r with status := nvmeScHostPathError }, nvmeIoAsync) := by
  unfold nvmeFailNonreadyCommand
  rw [hh.slot]
  rfl

/-- In a transient state the request in hand is given back. -/
theorem fail_transient (env : Env) (hh : Holding c .io cid rest s r es)
    (hterm : nvmeStateTerminal s = false)
    (hcan : r.cancelled = false) (hbounce : r.bounceBuf = none) :
    (nvmeFailNonreadyCommand env s (cidTag cid)).2 = ioerrUnitBusy ∧
      ∃ n, (nvmeFailNonreadyCommand env s (cidTag cid)).1.core =
        returned c .io cid rest n (.reqFree r.id :: es) := by
  have hh' := hh.editSlot (fun _ => scrubbed r) hh.cid
  have hfrees : dmaFrees (scrubbed r) = [] := by simp [dmaFrees, scrubbed, hbounce]
  rw [nvmeFailNonreadyCommand_eq hh, if_pos ⟨hterm, hcan⟩]
  refine ⟨rfl, ?_⟩
  have hcore := hh'.destroy
  rw [hfrees] at hcore
  exact ⟨_, hcore⟩

/-- In a terminal state the slot of the request in hand stays taken. -/
theorem fail_terminal (env : Env) (hh : Holding c .io cid rest s r es)
    (hterm : nvmeStateTerminal s = true)
    (hr : Plain r) (hctx : r.ctx = none) :
    ∃ x, (nvmeFailNonreadyCommand env s (cidTag cid)).1.core.ioTab.read (cidTag cid) = some x := by
  have hh' := hh.editSlot (fun _ => scrubbed r) hh.cid
  have htab : TabOk .io
      ((s.editSlot .io (cidTag cid) (fun _ => scrubbed r)).core.tab .io) := by
    change TabOk .io ((s.editSlot .io (cidTag cid) (fun _ => scrubbed r)).tab .io)
    rw [hh'.tab_eq]
    exact hh.tab.claim hh.free hh.cid hr.queue
  rw [nvmeFailNonreadyCommand_eq hh, if_neg (by simp [hterm])]
  exact ⟨scrubbed r, completeRq_keeps_slot (q := .io) _ _ hr.queue hctx hr.done hr.waiter rfl htab
    hh'.slot⟩

end Held

/-! ### The submitters -/

section Submitters

variable {env : Env} {s : State}

/-- The request `nvme_req_alloc_io` builds. -/
def freshRequest (s : State) (u io cid : Nat) : Request :=
  { id := s.core.allocs, q := .io, cid := cid, io := some io, unit := some u }

theorem freshRequest_plain (s : State) (u io cid : Nat) : Plain (freshRequest s u io cid) :=
  ⟨rfl, rfl, rfl⟩

/-- The three outcomes of `nvme_req_alloc_io`. -/
theorem nvmeReqAllocIo_cases (env : Env) (ht : TabOk .io s.core.ioTab) (u io : Nat) :
    (env.alloc s.core.allocs = none ∧
      ∃ s₁, nvmeReqAllocIo env s u (some io) = (s₁, .error ioerrSelfTest) ∧
        s₁.core = stamp s.core (s.core.allocs + 1) []) ∨
    ((env.alloc s.core.allocs).isSome ∧ s.core.ioTab.freeStack = [] ∧
      ∃ s₁, nvmeReqAllocIo env s u (some io) = (s₁, .error ioerrUnitBusy) ∧
        s₁.core = stamp s.core (s.core.allocs + 1) [.reqFree s.core.allocs]) ∨
    ((env.alloc s.core.allocs).isSome ∧ s.core.ioTab.freeStack ≠ [] ∧
      ∃ s₁ cid rest, nvmeReqAllocIo env s u (some io) = (s₁, .ok (cidTag cid)) ∧
        Holding s.core .io cid rest s₁ (freshRequest s u io cid) []) := by
  unfold nvmeReqAllocIo allocRequest State.allocate
  cases hmem : env.alloc s.core.allocs with
  | none => exact .inl ⟨rfl, _, rfl, rfl⟩
  | some a =>
      right
      dsimp only
      cases hfree : s.core.ioTab.freeStack with
      | nil =>
          left
          simp only [nvmeAllocCid, State.tab, Core.tab, hfree]
          exact ⟨rfl, trivial, _, rfl, rfl⟩
      | cons cid rest =>
          right
          simp only [nvmeAllocCid, State.tab, Core.tab, hfree]
          exact ⟨rfl, List.cons_ne_nil _ _, _, cid, rest, rfl, rfl, ht, hfree, rfl⟩

theorem nvmeCheckReady_eq_false {s₁ : State} (hlive : s.core.state ≠ .live)
    (hstate : s₁.core.state = s.core.state) : nvmeCheckReady s₁ = false := by
  unfold nvmeCheckReady
  rw [hstate]
  simpa using hlive

theorem nvmeStateTerminal_congr {s₁ : State} (hstate : s₁.core.state = s.core.state) :
    nvmeStateTerminal s₁ = nvmeStateTerminal s := by
  unfold nvmeStateTerminal
  rw [hstate]

/-- A slot that was free is taken. -/
theorem not_undisturbed {c c' : Core} {tag : Nat} {x : Request} (hfree : c.ioTab.read tag = none)
    (htaken : c'.ioTab.read tag = some x) : ¬Undisturbed c c' := by
  intro hu
  unfold SlotTable.read at hfree htaken
  rw [hu.inflight, hfree] at htaken
  cases htaken

/-- A submission in a terminal state that gets a request. -/
def Caught (s : State) (request : Option Nat) : Prop :=
  nvmeStateTerminal s = true ∧ request.isSome ∧ s.core.ioTab.freeStack ≠ []

/-- What becomes of a request in hand off LIVE. -/
theorem fail_spotless_iff {s₁ : State} {u io cid : Nat} {rest : List Nat} {es : List Effect}
    (hh : Holding s.core .io cid rest s₁ (freshRequest s u io cid) es)
    {buffer : Option Nat}
    (hclean : CleanLog io (some s.core.allocs) buffer ioerrUnitBusy
      (.reqFree s.core.allocs :: es)) :
    Spotless s io (some s.core.allocs) buffer (nvmeFailNonreadyCommand env s₁ (cidTag cid)) ↔
      nvmeStateTerminal s = false := by
  have hterm : nvmeStateTerminal s₁ = nvmeStateTerminal s := by
    refine nvmeStateTerminal_congr ?_
    rw [hh.core]
    rfl
  constructor
  · intro hspot
    by_contra hcon
    obtain ⟨x, hx⟩ := fail_terminal env hh (hterm.trans (by simpa using hcon))
      (freshRequest_plain s u io cid) rfl
    exact not_undisturbed (hh.tab.free_head hh.free).2 hx hspot.1
  · intro hno
    obtain ⟨herr, n, hcore⟩ := fail_transient env hh (hterm.trans hno) rfl rfl
    constructor
    · rw [hcore]
      exact Undisturbed.returned _ _ _ _ _
    · refine ⟨.reqFree s.core.allocs :: es, ?_, ?_⟩
      · rw [hcore]
        rfl
      · rw [herr]
        exact hclean

/-- The allocation of a request that is asked for next. -/
def nextRequest (env : Env) (s : State) : Option Nat :=
  (some s.core.allocs).filter (fun n => (env.alloc n).isSome)

theorem nextRequest_none (hmem : env.alloc s.core.allocs = none) : nextRequest env s = none := by
  simp [nextRequest, Option.filter, hmem]

theorem nextRequest_some (hmem : (env.alloc s.core.allocs).isSome) :
    nextRequest env s = some s.core.allocs := by
  simp [nextRequest, Option.filter, hmem]

/-- A call that leaves nothing but a clean log. -/
theorem Spotless.of_stamp {s₁ : State} {io n : Nat} {request buffer : Option Nat} {err : Int}
    {es : List Effect} (hcore : s₁.core = stamp s.core n es)
    (hclean : CleanLog io request buffer err es) : Spotless s io request buffer (s₁, err) := by
  refine ⟨?_, es, ?_, hclean⟩
  · rw [hcore]
    exact Undisturbed.stamp _ _ _
  · rw [hcore]
    rfl

/-- An allocation before the call makes no difference. -/
theorem spotless_allocate (env : Env) {io : Nat} {request buffer : Option Nat}
    {result : State × Int} :
    Spotless (s.allocate env).2 io request buffer result ↔
      Spotless s io request buffer result := by
  constructor
  · rintro ⟨⟨htail, hlast, hcount, hinflight, hparked⟩, hlog⟩
    exact ⟨⟨htail, hlast, hcount, hinflight, hparked⟩, hlog⟩
  · rintro ⟨⟨htail, hlast, hcount, hinflight, hparked⟩, hlog⟩
    exact ⟨⟨htail, hlast, hcount, hinflight, hparked⟩, hlog⟩

theorem submitSingle_spotless_iff (ht : TabOk .io s.core.ioTab) (hlive : s.core.state ≠ .live)
    (u io : Nat) (setup : State → Nat → State × Int) :
    Spotless s io (nextRequest env s) none (submitSingle env s u io setup) ↔
      ¬Caught s (nextRequest env s) := by
  unfold submitSingle
  rcases nvmeReqAllocIo_cases env ht u io with
    ⟨hmem, s₁, heq, hcore⟩ | ⟨hmem, hfree, s₁, heq, hcore⟩ | ⟨hmem, hfree, s₁, cid, rest, heq, hh⟩
  · rw [heq, nextRequest_none hmem]
    refine iff_of_true ?_ (fun h => by simp [Caught] at h)
    exact .of_stamp hcore (CleanLog.nothing io (by decide))
  · rw [heq, nextRequest_some hmem]
    refine iff_of_true ?_ (fun h => h.2.2 hfree)
    exact .of_stamp hcore (CleanLog.requestOnly io _ (by decide))
  · have hready : nvmeCheckReady s₁ = false := by
      refine nvmeCheckReady_eq_false hlive ?_
      rw [hh.core]
      rfl
    rw [heq, nextRequest_some hmem]
    dsimp only
    rw [if_pos hready, fail_spotless_iff hh (CleanLog.requestOnly io _ (by decide))]
    simp [Caught, hfree]

theorem nvmeIoSubmitDsm_spotless_iff (ht : TabOk .io s.core.ioTab)
    (hlive : s.core.state ≠ .live) (u io buffer : Nat) (ranges : List DsmRange) (nr : Nat) :
    Spotless s io (nextRequest env s) (some buffer) (nvmeIoSubmitDsm env s u io buffer ranges nr) ↔
      ¬Caught s (nextRequest env s) := by
  unfold nvmeIoSubmitDsm
  rcases nvmeReqAllocIo_cases env ht u io with
    ⟨hmem, s₁, heq, hcore⟩ | ⟨hmem, hfree, s₁, heq, hcore⟩ | ⟨hmem, hfree, s₁, cid, rest, heq, hh⟩
  · rw [heq, nextRequest_none hmem]
    refine iff_of_true ?_ (fun h => by simp [Caught] at h)
    have hlog : (s₁.log (.dmaFreeOther buffer)).core =
        stamp s.core (s.core.allocs + 1) [.dmaFreeOther buffer] := by
      simp only [State.log, hcore]
      rfl
    exact .of_stamp hlog ((CleanLog.nothing io (by decide)).withBuffer (List.Perm.refl _))
  · rw [heq, nextRequest_some hmem]
    refine iff_of_true ?_ (fun h => h.2.2 hfree)
    have hlog : (s₁.log (.dmaFreeOther buffer)).core =
        stamp s.core (s.core.allocs + 1) [.dmaFreeOther buffer, .reqFree s.core.allocs] := by
      simp only [State.log, hcore]
      rfl
    exact .of_stamp hlog ((CleanLog.requestOnly io _ (by decide)).withBuffer (List.Perm.refl _))
  · have hready : nvmeCheckReady s₁ = false := by
      refine nvmeCheckReady_eq_false hlive ?_
      rw [hh.core]
      rfl
    rw [heq, nextRequest_some hmem]
    dsimp only
    rw [if_pos hready, fail_spotless_iff (hh.log (.dmaFreeOther buffer))
      ((CleanLog.requestOnly io _ (by decide)).withBuffer (List.Perm.swap _ _ _))]
    simp [Caught, hfree]

/-- A call that is refused before it takes anything. -/
theorem refused_spotless_iff {io : Nat} {err : Int} (herr : err ∈ ioerrs) :
    Spotless s io none none (s, err) ↔ ¬Caught s none := by
  refine iff_of_true ?_ (fun h => by simp [Caught] at h)
  exact .of_stamp (n := s.core.allocs) rfl (CleanLog.nothing io herr)

theorem notReadyError_mem (s : State) : notReadyError s ∈ ioerrs := by
  unfold notReadyError
  split <;> decide

theorem nvmeIoSubmitRw_spotless_iff (ht : TabOk .io s.core.ioTab) (hlive : s.core.state ≠ .live)
    (u io lba blocks opcode buffer : Nat) :
    LeavesNoTrace env s u io (.rw lba blocks opcode buffer) ↔
      ¬Caught s ((Submission.rw lba blocks opcode buffer).request env s u) := by
  have hready : nvmeCheckReady s = false := nvmeCheckReady_eq_false hlive rfl
  unfold LeavesNoTrace Submission.call Submission.request Submission.rangeBuffer
  by_cases hsingle : Submission.singleRw env u lba blocks buffer
  · have hcall : nvmeIoSubmitRw env s u io lba blocks opcode buffer =
        submitSingle env s u io
          (fun s tag => nvmeSetupRw env s tag lba blocks opcode buffer) := by
      obtain ⟨hbytes, hbuf, hrange, hcap⟩ := hsingle
      simp only [nvmeIoSubmitRw, hbytes, hbuf, hrange, hcap, if_false, if_true,
        Bool.false_eq_true]
    dsimp only
    rw [if_pos hsingle, hcall]
    exact submitSingle_spotless_iff ht hlive u io _
  · have hcall : ∃ err, err ∈ ioerrs ∧
        nvmeIoSubmitRw env s u io lba blocks opcode buffer = (s, err) := by
      unfold nvmeIoSubmitRw
      dsimp only
      split
      · exact ⟨_, by decide, rfl⟩
      · rename_i hbytes
        split
        · exact ⟨_, by decide, rfl⟩
        · rename_i hbuf
          split
          · exact ⟨_, by decide, rfl⟩
          · rename_i hrange
            rw [if_neg (fun hcap => hsingle ⟨hbytes, hbuf, by simpa using hrange, hcap⟩)]
            exact ⟨_, notReadyError_mem s, rfl⟩
    obtain ⟨err, herr, hcall⟩ := hcall
    dsimp only
    rw [if_neg hsingle, hcall]
    exact refused_spotless_iff herr

theorem nvmeIoSubmitWriteZeroes_spotless_iff (ht : TabOk .io s.core.ioTab)
    (hlive : s.core.state ≠ .live) (u io lba blocks : Nat) :
    LeavesNoTrace env s u io (.writeZeroes lba blocks) ↔
      ¬Caught s ((Submission.writeZeroes lba blocks).request env s u) := by
  have hready : nvmeCheckReady s = false := nvmeCheckReady_eq_false hlive rfl
  unfold LeavesNoTrace Submission.call Submission.request Submission.rangeBuffer
  dsimp only
  by_cases hdeal : Submission.deallocates env u lba blocks
  · rw [if_pos hdeal, if_pos hdeal]
    obtain ⟨hblocks, hrange, hquirk⟩ := hdeal
    let s₁ := (s.allocate env).2
    cases hmem : env.alloc s.core.allocs with
    | none =>
        have hcall : nvmeIoSubmitWriteZeroes env s u io lba blocks = (s₁, ioerrSelfTest) := by
          simp only [nvmeIoSubmitWriteZeroes, hblocks, hrange, hquirk, if_false, if_true,
            Bool.false_eq_true, State.allocate, hmem, s₁]
        rw [hcall]
        refine iff_of_true ?_ (fun h => by simp [Caught] at h)
        exact .of_stamp (n := s.core.allocs + 1) rfl (CleanLog.nothing io (by decide))
    | some buffer =>
        -- the buffer's allocation comes before the request's
        have hcall : nvmeIoSubmitWriteZeroes env s u io lba blocks =
            nvmeIoSubmitDsm env s₁ u io buffer [⟨lba, blocks⟩] 1 := by
          simp only [nvmeIoSubmitWriteZeroes, hblocks, hrange, hquirk, if_false, if_true,
            Bool.false_eq_true, State.allocate, hmem, s₁]
        have hlive₁ : s₁.core.state ≠ .live := hlive
        have ht₁ : TabOk .io s₁.core.ioTab := ht
        rw [hcall, if_pos (Option.isSome_some (a := buffer)), ← spotless_allocate env]
        exact nvmeIoSubmitDsm_spotless_iff ht₁ hlive₁ u io buffer _ _
  · rw [if_neg hdeal, if_neg hdeal]
    by_cases hsingle : Submission.singleZeroes env s u lba blocks
    · rw [if_pos hsingle]
      obtain ⟨hblocks, hrange, hquirk, hmax, hbytes⟩ := hsingle
      have hcall : nvmeIoSubmitWriteZeroes env s u io lba blocks =
          submitSingle env s u io
            (fun s tag => (nvmeSetupWriteZeroes env s tag lba blocks, 0)) := by
        simp only [nvmeIoSubmitWriteZeroes, hblocks, hrange, hquirk, hmax, hbytes, if_false,
          if_true, Bool.false_eq_true]
      rw [hcall]
      exact submitSingle_spotless_iff ht hlive u io _
    · rw [if_neg hsingle]
      have hcall : ∃ err, err ∈ ioerrs ∧
          nvmeIoSubmitWriteZeroes env s u io lba blocks = (s, err) := by
        unfold nvmeIoSubmitWriteZeroes
        dsimp only
        split
        · exact ⟨_, by decide, rfl⟩
        · rename_i hblocks
          split
          · exact ⟨_, by decide, rfl⟩
          · rename_i hrange
            have hrange' : lbaOutOfRange (env.units u) lba blocks = false := by
              simpa using hrange
            split
            · rename_i hquirk
              exact absurd ⟨hblocks, hrange', hquirk⟩ hdeal
            · rename_i hquirk
              split
              · exact ⟨_, by decide, rfl⟩
              · rename_i hmax
                rw [if_neg (fun hbytes =>
                  hsingle ⟨hblocks, hrange', by simpa using hquirk, hmax, hbytes⟩)]
                exact ⟨_, notReadyError_mem s, rfl⟩
      obtain ⟨err, herr, hcall⟩ := hcall
      rw [hcall]
      exact refused_spotless_iff herr

end Submitters

/-! ### The contract of a rejection -/

/-- Off LIVE, only a submission that gets a request in a terminal state leaves a trace. -/
theorem noTrace_iff_not_caught {env : Env} {s : State} (ht : TabOk .io s.core.ioTab)
    (hlive : s.core.state ≠ .live) (u io : Nat) (sub : Submission) :
    LeavesNoTrace env s u io sub ↔ ¬Caught s (sub.request env s u) := by
  cases sub with
  | rw lba blocks opcode buffer => exact nvmeIoSubmitRw_spotless_iff ht hlive ..
  | flush => exact submitSingle_spotless_iff ht hlive u io _
  | dsm buffer ranges nr => exact nvmeIoSubmitDsm_spotless_iff ht hlive u io buffer ranges nr
  | writeZeroes lba blocks => exact nvmeIoSubmitWriteZeroes_spotless_iff ht hlive ..

/-- A controller that has come up, in another state. -/
def stateIn (st : CtrlState) : State :=
  { upState sampleEnv 8 with core := { (upState sampleEnv 8).core with state := st } }

theorem stateIn_ioTab (st : CtrlState) : TabOk .io (stateIn st).core.ioTab :=
  tabOk_fresh .io _ (by decide)

end Runs
end NvmeDriver
