import NvmeDriver.Engine.Dispatch

/-!
# The unit task

`drain_cq`, the watchdog, the cancel walkers and the queue gates of
nvme_queue.c, controller reset and shutdown (nvme_probe.c), the exit of the unit
task (unit_task.c), and what the other tasks do to the same state.  A run is any
sequence of these steps; the controller's side is the list of completion queue
entries each drain finds.

Once the unit task waits in `nvme_submit_sync_cmd`, it takes no further step.
-/

namespace NvmeDriver
namespace Engine

open Lib
open Namespace (NVMeUnit)

/-! ### Draining a completion queue -/

/-- A completion queue entry, its status without the phase bit. -/
structure Cqe where
  cid : Nat
  status : Nat
  result : Nat
deriving DecidableEq, Repr

/-- The request a CQE is for: same slot, same generation. -/
def matchCqe (s : State) (q : QueueId) (cqe : Cqe) : Option Request :=
  if cidTag cqe.cid < (s.tab q).depth then
    match s.slot q (cidTag cqe.cid) with
    | none => none
    | some req => if cqe.cid = req.cid then some req else none
  else none

/-- One fresh CQE. -/
def drainOne (env : Env) (s : State) (q : QueueId) (cqe : Cqe) : State :=
  match matchCqe s q cqe with
  | none => s.log (.strayCqe q cqe.cid)
  | some req =>
      let s₁ := s.log (.cqe q cqe.cid req.id cqe.status)
      nvmeCompleteRq env (s₁.releaseSlot q req.cid)
        { req with status := cqe.status, result := cqe.result }

/-- The head of the completion queue after one more entry, and the phase. -/
def advanceHead (depth head : Nat) (phase : Bool) : Nat × Bool :=
  if head + 1 = depth then (0, !phase) else (head + 1, phase)

/-- The loop of `drain_cq` with its local `head` and `phase`; a blocked task
stays inside. -/
def drainLoop (env : Env) (q : QueueId) : List Cqe → State → Nat → Bool →
    State × Nat × Bool
  | [], s, head, phase => (s, head, phase)
  | cqe :: rest, s, head, phase =>
      let s₁ := drainOne env s q cqe
      if s₁.core.unitBlocked then (s₁, head, phase)
      else
        let h := advanceHead (s₁.tab q).depth head phase
        drainLoop env q rest s₁ h.1 h.2

/-- `drain_cq` over the fresh entries it finds. -/
def drainCq (env : Env) (s : State) (q : QueueId) (cqes : List Cqe) : State :=
  if (s.tab q).present = false ∨ cqes = [] then s
  else
    match drainLoop env q cqes s (s.ring q).cqHead (s.ring q).cqPhase with
    | (s₁, head, phase) =>
        if s₁.core.unitBlocked then s₁
        else
          (s₁.setRing q { s₁.ring q with cqHead := head, cqPhase := phase }).log
            (.cqDoorbell q head)

/-- `nvme_process_completions`. -/
def nvmeProcessCompletions (env : Env) (s : State) (admin io : List Cqe) : State :=
  let s₁ := drainCq env s .admin admin
  if s₁.core.unitBlocked then s₁
  else
    let s₂ := drainCq env (nvmeSqBatchBegin s₁ .io) .io io
    if s₂.core.unitBlocked then s₂ else nvmeSqBatchEnd s₂ .io

/-! ### Cancelling -/

/-- One slot of `nvme_flush_queue_inflight`. -/
def flushSlot (env : Env) (q : QueueId) (s : State) (tag : Nat) : State :=
  match s.slot q tag with
  | none => s
  | some req =>
      let s₁ := (s.releaseSlot q req.cid).log (.cancel q req.id)
      nvmeCompleteRq env s₁
        { req with status := nvmeScHostAbortedCmd, cancelled := true }

/-- `nvme_flush_queue_inflight`. -/
def nvmeFlushQueueInflight (env : Env) (s : State) (q : QueueId) : State :=
  (List.range (s.tab q).depth).foldl (flushSlot env q) s

/-! ### Watchdog -/

/-- `nvme_watchdog_escalate`. -/
def nvmeWatchdogEscalate (env : Env) (s : State) (q : QueueId) : State :=
  if s.core.state = .live then nvmeResetCtrl s else nvmeFlushQueueInflight env s q

/-- `(now - then) / 1000`, in 32 bits. -/
def elapsedMs (now since : Nat) : Nat := (now + 2 ^ 32 - since) % 2 ^ 32 / 1000

/-- What the sweep decides about one slot. -/
inductive Verdict
  | leave
  | abort
  | escalate
deriving DecidableEq, Repr

/-- The tests of `watchdog_scan_queue` on one request. -/
def watchdogVerdict (req : Request) (now : Nat) : Verdict :=
  if req.submitUs = 0 ∨ req.aer = true then .leave
  else if req.abortSent then
    if elapsedMs now req.abortUs < nvmeAbortTimeout then .leave else .escalate
  else if elapsedMs now req.submitUs <
      (if req.unit.isSome then nvmeIoTimeout else nvmeAdminTimeout) then .leave
  else if req.cmd.opcode = nvmeAdminAbortCmd then .escalate
  else .abort

/-- The loop of `watchdog_scan_queue`. -/
def watchdogScanLoop (env : Env) (q : QueueId) (now : Nat) : List Nat → State → State
  | [], s => s
  | tag :: rest, s =>
      match s.slot q tag with
      | none => watchdogScanLoop env q now rest s
      | some req =>
          match watchdogVerdict req now with
          | .leave => watchdogScanLoop env q now rest s
          | .escalate => nvmeWatchdogEscalate env s q
          | .abort =>
              match nvmeSubmitAbortSqe env s q req.cid with
              | (s₁, ret) =>
                  if ret ≠ 0 then watchdogScanLoop env q now rest s₁
                  else
                    watchdogScanLoop env q now rest
                      (s₁.editSlot q tag (fun x =>
                        { x with abortSent := true, abortUs := now }))

/-- `watchdog_scan_queue`. -/
def watchdogScanQueue (env : Env) (s : State) (q : QueueId) (now : Nat) : State :=
  watchdogScanLoop env q now (List.range (s.tab q).depth) s

/-- `(s32)(now - deadline_us) < 0`. -/
def notYet (now deadline : Nat) : Prop := 2 ^ 31 ≤ (now + 2 ^ 32 - deadline) % 2 ^ 32

instance (now deadline : Nat) : Decidable (notYet now deadline) :=
  inferInstanceAs (Decidable (_ ≤ _))

/-- One entry of `retry_list` whose time has come. -/
def resubmitParked (env : Env) (s : State) (req : Request) : State :=
  nvmeResubmitIo env (nvmeCompleteRq env)
    { s with core := { s.core with
        retryList := s.core.retryList.eraseP (fun r => r.id == req.id) } } req

/-- The CRDT loop of `nvme_tick_watchdog`, over the list as it found it. -/
def retryLoop (env : Env) (now : Nat) : List Request → State → State
  | [], s => s
  | req :: rest, s =>
      if notYet now req.deadlineUs then retryLoop env now rest s
      else retryLoop env now rest (resubmitParked env s req)

/-- `nvme_tick_watchdog`. -/
def nvmeTickWatchdog (env : Env) (s : State) (admin io : List Cqe) : State :=
  let s₁ := nvmeProcessCompletions env s admin io
  if s₁.core.unitBlocked then s₁
  else
    let t := s₁.getTime env
    let s₂ := watchdogScanQueue env t.2 .admin t.1
    let s₃ := watchdogScanQueue env s₂ .io t.1
    retryLoop env t.1 s₃.core.retryList s₃

/-! ### Reset, shutdown, exit -/

/-- `nvme_disable_ctrl`. -/
def nvmeDisableCtrl (env : Env) (s : State) : State :=
  match (s.log .disable).waitReady env with
  | (true, s₁) => s₁.log .deviceStopped
  | (false, s₁) => s₁

/-- `nvme_setup_admin_queue` and `nvme_enable_ctrl`. -/
def bringUpAdmin (env : Env) (s : State) : State × Bool :=
  match nvmeSetupQueue env s .admin nvmeAdminQueueSize with
  | (s₁, false) => (s₁, false)
  | (s₁, true) =>
      match s₁.waitReady env with
      | (ok, s₂) => (s₂, ok)

/-- `nvme_reset_controller`. -/
def nvmeResetController (env : Env) (s : State) : State :=
  match nvmeChangeCtrlState s .resetting with
  | (s₁, false) => s₁
  | (s₁, true) =>
      let s₂ := nvmeQuiesceAdminQueue (nvmeQuiesceIoQueues (s₁.log .resetBegin))
      let s₃ := nvmeFlushQueueInflight env s₂ .io
      let s₄ := nvmeFlushQueueInflight env s₃ .admin
      let s₅ := nvmeDisableCtrl env s₄
      let s₆ := nvmeTeardownQueue (nvmeTeardownQueue s₅ .io) .admin
      match bringUpAdmin env s₆ with
      | (s₇, false) => nvmeResetFinish env s₇ false
      | (s₇, true) => nvmeResetRebuildIoAsync env (nvmeUnquiesceAdminQueue s₇)

/-- `nvme_ctrl_shutdown`, and the two queues torn down by `nvme_unprobe_all`. -/
def nvmeCtrlShutdown (env : Env) (s : State) : State :=
  let s₁ := nvmeQuiesceAdminQueue (nvmeQuiesceIoQueues s)
  let s₂ := nvmeFlushQueueInflight env s₁ .io
  let s₃ := nvmeFlushQueueInflight env s₂ .admin
  let s₄ := nvmeDisableCtrl env s₃
  nvmeTeardownQueue (nvmeTeardownQueue s₄ .io) .admin

/-- The replies `UnitTask` owes for `io_pending` when it stops. -/
def exitPending : Nat → State → State
  | 0, s => s
  | n + 1, s =>
      match s.core.ioPending with
      | [] => s
      | io :: rest =>
          exitPending n
            (({ s with core := { s.core with ioPending := rest } }).log
              (.reply io ioerrAborted 0))

/-- The parked contexts `UnitTask` finishes when it stops. -/
def exitStalled : Nat → State → State
  | 0, s => s
  | n + 1, s =>
      match s.core.ctxStalled with
      | [] => s
      | c :: rest =>
          let s₁ : State := { s with core := { s.core with ctxStalled := rest } }
          exitStalled n (nvmeIoContextFinish
            (s₁.editCtx c (fun x =>
              { x with stalled := false, firstError := ioerrAborted })) c)

/-- `UnitTask` past its loop. -/
def unitTaskExit (s : State) : State :=
  let s₁ := exitPending s.core.ioPending.length s
  let s₂ := exitStalled s₁.core.ctxStalled.length s₁
  { s₂ with ctl := { s₂.ctl with unitExited := true } }

/-! ### Other tasks -/

/-- `nvme_get_fw_slot_info`. -/
def nvmeGetFwSlotInfo (env : Env) (s : State) : State :=
  match s.allocate env with
  | (none, s₁) => s₁
  | (some buffer, s₁) =>
      match nvmeSubmitAsyncCmd env s₁
          { opcode := nvmeAdminGetLogPage, nsid := 0xFFFFFFFF
            cdw10 := 127 * 2 ^ 16 + 3 }
          (some (buffer, 512)) .fwSlotInfoDone (some buffer) false with
      | (s₂, ret) => if ret ≠ 0 then s₂.log (.dmaFreeOther buffer) else s₂

/-- `nvme_fw_act_work` once it stops polling. -/
def fwActEnd (env : Env) (s : State) (timeout : Bool) : State :=
  let s₁ : State := { s with core := { s.core with fwActRunning := false } }
  if timeout then nvmeResetCtrl s₁
  else
    match nvmeChangeCtrlState s₁ .connecting with
    | (s₂, false) => s₂
    | (s₂, true) =>
        match nvmeChangeCtrlState s₂ .live with
        | (s₃, false) => s₃
        | (s₃, true) =>
            nvmeSubmitAer env (nvmeGetFwSlotInfo env (nvmeUnquiesceIoQueues s₃))

/-- The waiter of a completed synchronous command runs and frees the request. -/
def collectWaiter (s : State) : State :=
  match s.core.waiting with
  | [] => s
  | req :: rest =>
      ({ s with core := { s.core with waiting := rest } }).log (.reqFree req.id)

/-! ### Steps -/

/-- One step of the controller's tasks or of its clients. -/
inductive Event
  /-- a client, or AbortIO, puts the next message on `msgPort` -/
  | putMsg
  /-- the unit task's interrupt branch -/
  | irq (admin io : List Cqe)
  /-- its timer branch -/
  | tick (admin io : List Cqe)
  /-- its reset branch -/
  | reset
  /-- the dispatch at the end of its pass -/
  | drain
  /-- CTRL-C -/
  | stop
  /-- another task submits an admin command and waits -/
  | adminSync (cmd : Command)
  /-- that task runs again -/
  | collect
  | freeze
  | unfreeze
  /-- `nvme_fw_act_work` begins and ends -/
  | fwActBegin
  | fwActEnd (timeout : Bool)
  /-- a namespace scan has run -/
  | scan (dead deac : Nat → Bool) (maxZeroesSectors : Nat)
  /-- device expunge -/
  | shutdown

/-- The unit task can run. -/
def unitRuns (s : State) : Prop :=
  s.core.unitBlocked = false ∧ s.ctl.unitExited = false

instance (s : State) : Decidable (unitRuns s) := inferInstanceAs (Decidable (_ ∧ _))

/-- One step; a step that is not enabled does nothing. -/
def step (env : Env) (s : State) : Event → State
  | .putMsg =>
      { s with core := { s.core with
          msgPort := s.core.msgPort ++ [s.core.accepted]
          accepted := s.core.accepted + 1 } }
  | .irq admin io => if unitRuns s then nvmeProcessCompletions env s admin io else s
  | .tick admin io => if unitRuns s then nvmeTickWatchdog env s admin io else s
  | .reset =>
      if unitRuns s ∧ s.ctl.resetSignal = true then
        nvmeResetController env { s with ctl := { s.ctl with resetSignal := false } }
      else s
  | .drain => if unitRuns s then nvmeDrainMsgport env s else s
  | .stop => if unitRuns s then unitTaskExit s else s
  | .adminSync cmd => (nvmeSubmitSyncCmd env s .otherTask cmd none).1
  | .collect => collectWaiter s
  | .freeze => { s with core := { s.core with frozen := true } }
  | .unfreeze => { s with core := { s.core with frozen := false } }
  | .fwActBegin =>
      if s.core.fwActSignal then
        nvmeQuiesceIoQueues
          { s with core := { s.core with fwActSignal := false, fwActRunning := true } }
      else s
  | .fwActEnd timeout => if s.core.fwActRunning then fwActEnd env s timeout else s
  | .scan dead deac maxZeroes =>
      { core := { s.core with dead := dead, maxZeroesSectors := maxZeroes }
        ctl := { s.ctl with deac := deac } }
  | .shutdown => if unitRuns s then nvmeCtrlShutdown env s else s

/-- The state after a sequence of steps. -/
def run (env : Env) (events : List Event) (s : State) : State :=
  events.foldl (step env) s

/-- A controller that comes up: both queues set up, LIVE, nothing accepted yet. -/
def upState (env : Env) (maxZeroesSectors : Nat) : State :=
  nvmeSetIoMaxInflight env
    { core :=
        { adminTab := SlotTable.fresh nvmeAdminQueueSize env.cfg.quirkSkipCidGen
          ioTab := SlotTable.fresh nvmeIoQueueSize env.cfg.quirkSkipCidGen
          adminRing := Ring.fresh, ioRing := Ring.fresh
          retryList := [], waiting := [], ctxs := Heap.empty, ctxStalled := []
          msgPort := [], ioPending := [], accepted := 0, allocs := 0, state := .live
          fwActSignal := false, fwActRunning := false, unitBlocked := false
          stopped := false, frozen := false
          ioMaxInflight := 0, maxZeroesSectors := maxZeroesSectors
          dead := fun _ => false, trace := [] }
      ctl :=
        { adminStopped := false
          deac := fun u => (env.units u).deac
          resetSignal := false, scanSignal := false, unitExited := false
          times := 0, regs := 0, mem := fun _ => 0 } }

/-- A controller that has just come up, with its first asynchronous event request
posted. -/
def bootState (env : Env) (maxZeroesSectors : Nat) : State :=
  nvmeSubmitAer env (upState env maxZeroesSectors)

/-- A controller without quirks, with one 1 GiB namespace of 512-byte blocks and
memory that never runs out, for concrete runs: every client reads one block. -/
def sampleEnv : Env where
  ios := fun i =>
    { command := .cmdRead, unit := 0, ioOffset := i * 512, ioLength := 512
      ioData := 0x10000000 }
  units := fun _ => Namespace.unitOfInfo 2048 0 (Namespace.plainInfo 1 0x200000 9)
  cfg :=
    { quirkStripeSize := false, quirkDeallocateZeroes := false, quirkQdepthOne := false
      quirkSkipCidGen := false, quirkMediumPrioSq := false, maxTransferBytes := 0x20000
      maxHwSectors := 256, oncsDsm := true, oaes := 0, crdt := fun _ => 0 }
  alloc := fun n => some (0x20000000 + n * 4096)
  time := fun n => n + 1
  regs := fun _ => true
  reachable := fun _ _ => true
  emulate := fun _ c => (0, c)
  emulate_sync := by
    intro u c h
    cases h

end Engine
end NvmeDriver
