import NvmeDriver.Engine.Request

/-!
# Chunk scheduler, admin commands, completion

Section 5 of nvme_io.c (`nvme_io_context_pump`, `nvme_io_context_finish`), the
submit primitives of nvme_admin.c, the callbacks of the asynchronous admin
commands with the reset chain they drive (nvme_queue.c, nvme_probe.c,
nvme_aen.c, nvme_fw.c), and the completion state machine of nvme_completion.c.

`nvme_complete_rq`, `nvme_retry_req` and `nvme_resubmit_io` call each other;
every turn adds a retry, so `nvmeMaxRetries + 1` turns are enough.
-/

namespace NvmeDriver
namespace Engine

open Lib

/-! ### The chunk scheduler -/

/-- Requests of a context that are in the I/O table or parked for a retry. -/
def ctxSiblings (s : State) (c : Nat) : Nat :=
  Slots.held (fun r => r.ctx == some c) s.core.ioTab.inflight +
    s.core.retryList.countP (fun r => r.ctx == some c)

/-- Park a context on `ctx_stalled`. -/
def stallCtx (s : State) (c : Nat) : State :=
  let s₁ := s.editCtx c (fun x => { x with stalled := true })
  { s₁ with core := { s₁.core with ctxStalled := s₁.core.ctxStalled ++ [c] } }

/-- `sib_cap`. -/
def sibCap (s : State) : Nat :=
  if s.core.ioMaxInflight < nvmeMaxInflightPerIo then s.core.ioMaxInflight
  else nvmeMaxInflightPerIo

/-- `next_lba`. -/
def nextLba (env : Env) (ctx : IoContext) : Nat :=
  (ctx.startLba + ctx.dispatched / 2 ^ (env.units ctx.unit).blockShift) % 2 ^ 64

/-- `next_bytes`: the rest, up to the cap of one command. -/
def nextBytes (env : Env) (ctx : IoContext) : Nat :=
  let cap :=
    if ctx.opcode = nvmeCmdWriteZeroes then (env.units ctx.unit).wzMaxBytes
    else nvmeRwChunkCap env.cfg (env.units ctx.unit).blockShift (nextLba env ctx)
  let remaining := ctx.totalBytes - ctx.dispatched
  if cap ≠ 0 ∧ cap < remaining then cap else remaining

/-- `nvme_setup_write_zeroes` or `nvme_setup_rw` for the next chunk. -/
def setupChunk (env : Env) (s : State) (tag : Nat) (ctx : IoContext) (bytes : Nat) :
    State × Int :=
  let blocks := bytes / 2 ^ (env.units ctx.unit).blockShift
  if ctx.opcode = nvmeCmdWriteZeroes then
    (nvmeSetupWriteZeroes env s tag (nextLba env ctx) blocks, 0)
  else
    nvmeSetupRw env s tag (nextLba env ctx) blocks ctx.opcode
      ((ctx.userData + ctx.dispatched) % 2 ^ 32)

/-- What the pump does after a failed submission, with the accounting already
rolled back: pressure parks an idle context, an error is latched. -/
def pumpRefused (s : State) (c : Nat) (inflight : Nat) (suberr : Int) : State × Int :=
  if suberr = ioerrUnitBusy then
    (if inflight = 0 then stallCtx s c else s, nvmeIoAsync)
  else
    (s.editCtx c (fun x => { x with firstError := suberr }),
      if inflight = 0 then suberr else nvmeIoAsync)

/-- One turn of the dispatch loop of `nvme_io_context_pump`, for a context that
has more to dispatch; `none` is "go on". -/
def pumpTurn (env : Env) (s : State) (c : Nat) (ctx : IoContext) :
    State × Option Int :=
  let bytes := nextBytes env ctx
  match nvmeReqAllocIo env s ctx.unit none with
  | (s₁, .error _) =>
      (if ctx.inflight = 0 then stallCtx s₁ c else s₁, some nvmeIoAsync)
  | (s₁, .ok tag) =>
      let s₂ := s₁.editSlot .io tag (fun r => { r with ctx := some c })
      match setupChunk env s₂ tag ctx bytes with
      | (s₃, serr) =>
          if serr ≠ 0 then
            ((nvmeReqDestroy s₃ .io tag).editCtx c
                (fun x => { x with firstError := serr }),
              some (if ctx.inflight = 0 then serr else nvmeIoAsync))
          else
            let s₄ := s₃.editCtx c (fun x =>
              { x with
                dispatched := x.dispatched + bytes
                inflight := x.inflight + 1 })
            match nvmeSubmitIo env s₄ .io tag with
            | (s₅, suberr) =>
                if suberr ≠ nvmeIoAsync then
                  let s₆ := s₅.editCtx c (fun x =>
                    { x with
                      dispatched := x.dispatched - bytes
                      inflight := x.inflight - 1 })
                  let p := pumpRefused s₆ c ctx.inflight suberr
                  (p.1, some p.2)
                else (s₅, none)

/-- The dispatch loop; every turn that goes on adds a sibling. -/
def pumpLoop (env : Env) : Nat → State → Nat → State × Int
  | 0, s, _ => (s, nvmeIoAsync)
  | fuel + 1, s, c =>
      match s.core.ctxs.get c with
      | none => (s.log .fault, nvmeIoAsync)
      | some ctx =>
          if ctx.dispatched < ctx.totalBytes ∧ ctx.inflight < sibCap s then
            match pumpTurn env s c ctx with
            | (s₁, some err) => (s₁, err)
            | (s₁, none) => pumpLoop env fuel s₁ c
          else (s, nvmeIoAsync)

/-- `nvme_io_context_pump`. -/
def nvmeIoContextPump (env : Env) (s : State) (c : Nat) : State × Int :=
  pumpLoop env (nvmeMaxInflightPerIo + 1) s c

/-- `nvme_io_context_finish`. -/
def nvmeIoContextFinish (s : State) (c : Nat) : State :=
  match s.core.ctxs.get c with
  | none => s.log .fault
  | some ctx =>
      let s₁ := s.log (.ctxFinish c (decide (c ∈ s.core.ctxStalled)) (ctxSiblings s c))
      let s₂ :=
        if ctx.dataPrecached = true ∧ ctx.opcode = nvmeCmdRead then
          s₁.log (.cacheInval ctx.userData ctx.totalBytes)
        else s₁
      let s₃ := s₂.log
        (.reply ctx.io ctx.firstError (if ctx.firstError ≠ 0 then 0 else ctx.totalBytes))
      let s₄ := s₃.log (.ctxFree c)
      { s₄ with core := { s₄.core with ctxs := s₄.core.ctxs.erase c } }

/-! ### Admin commands -/

/-- `nvme_stage_admin_prps`. -/
def nvmeStageAdminPrps (cmd : Command) (buffer : Option (Nat × Nat)) : Command :=
  match buffer with
  | none => cmd
  | some (addr, len) =>
      let first := pageLeft Prp.pageSize addr
      { cmd with prp1 := addr, prp2 := if len ≤ first then 0 else addr + first }

/-- The shared body of `nvme_submit_sync_cmd` and `nvme_submit_async_cmd`: the
request in its slot is filled in and submitted. -/
def submitAdmin (env : Env) (s : State) (tag : Nat) (cmd : Command)
    (buffer : Option (Nat × Nat)) (fill : Request → Request) : State × Int :=
  let s₁ := s.editSlot .admin tag (fun x =>
    fill { x with
      cmd := { nvmeStageAdminPrps cmd buffer with commandId := x.cid } })
  let s₂ :=
    match buffer with
    | none => s₁
    | some (addr, len) => s₁.log (.cacheFlush addr len false)
  match nvmeSubmitIo env s₂ .admin tag with
  | (s₃, err) => (s₃, if err ≠ nvmeIoAsync then errIo else 0)

/-- `nvme_submit_async_cmd`. -/
def nvmeSubmitAsyncCmd (env : Env) (s : State) (cmd : Command)
    (buffer : Option (Nat × Nat)) (done : Done) (priv : Option Nat) (aer : Bool) :
    State × Int :=
  match nvmeReqAllocAdmin env s with
  | (s₁, .error e) => (s₁, e)
  | (s₁, .ok tag) =>
      submitAdmin env s₁ tag cmd buffer
        (fun x => { x with done := some done, priv := priv, aer := aer })

/-- `nvme_submit_sync_cmd` up to its `Wait()`; 0 means the caller now waits. -/
def nvmeSubmitSyncCmd (env : Env) (s : State) (w : Waiter) (cmd : Command)
    (buffer : Option (Nat × Nat)) : State × Int :=
  match nvmeReqAllocAdmin env s with
  | (s₁, .error e) => (s₁, e)
  | (s₁, .ok tag) =>
      match s₁.allocate env with
      | (none, s₂) => (nvmeReqDestroy s₂ .admin tag, errNoMem)
      | (some _, s₂) =>
          submitAdmin env s₂ tag cmd buffer (fun x => { x with waiter := some w })

/-- `nvme_submit_abort_sqe`. -/
def nvmeSubmitAbortSqe (env : Env) (s : State) (q : QueueId) (cid : Nat) :
    State × Int :=
  nvmeSubmitAsyncCmd env s
    { opcode := nvmeAdminAbortCmd, cdw10 := cid * 2 ^ 16 + q.qid }
    none .abortDone none false

/-- `nvme_submit_aer`. -/
def nvmeSubmitAer (env : Env) (s : State) : State :=
  (nvmeSubmitAsyncCmd env s { opcode := nvmeAdminAsyncEvent } none .aerDone none true).1

/-! ### Queue lifetime -/

/-- The table `nvme_setup_queue` builds: every tag free, tag 0 on top. -/
def SlotTable.fresh (depth : Nat) (skipCidGen : Bool) : SlotTable :=
  { present := true, depth := depth, skipCidGen := skipCidGen
    inflight := List.replicate depth none, inflightCount := 0
    freeStack := List.range depth }

def Ring.fresh : Ring :=
  { sqTail := 0, lastSqTail := 0, sqBatchDepth := 0, cqHead := 0, cqPhase := true }

/-- `nvme_teardown_queue`; requests still in the table are lost with it. -/
def nvmeTeardownQueue (s : State) (q : QueueId) : State :=
  ((s.log (.teardown (s.tab q).occupants)).setTab q SlotTable.gone).setRing q Ring.gone

/-- `nvme_setup_queue`: SQ, CQ, in-flight table and free stack. -/
def nvmeSetupQueue (env : Env) (s : State) (q : QueueId) (depth : Nat) : State × Bool :=
  let n := s.core.allocs
  let s₁ : State := { s with core := { s.core with allocs := n + 4 } }
  if (env.alloc n).isSome ∧ (env.alloc (n + 1)).isSome ∧
      (env.alloc (n + 2)).isSome ∧ (env.alloc (n + 3)).isSome then
    (((s₁.setTab q (SlotTable.fresh depth env.cfg.quirkSkipCidGen)).setRing q
        Ring.fresh).log (.queueSetup q), true)
  else (nvmeTeardownQueue s₁ q, false)

/-- `nvme_set_io_max_inflight`. -/
def nvmeSetIoMaxInflight (env : Env) (s : State) : State :=
  let d := s.core.ioTab.depth
  { s with core := { s.core with
      ioMaxInflight := if env.cfg.quirkQdepthOne then 1 else if 1 < d then d - 1 else 1 } }

/-! ### Gates and signals -/

/-- `nvme_quiesce_io_queues`. -/
def nvmeQuiesceIoQueues (s : State) : State :=
  { s with core := { s.core with stopped := true } }

/-- `nvme_unquiesce_io_queues`. -/
def nvmeUnquiesceIoQueues (s : State) : State :=
  { s with core := { s.core with stopped := false } }

/-- `nvme_quiesce_admin_queue`. -/
def nvmeQuiesceAdminQueue (s : State) : State :=
  { s with ctl := { s.ctl with adminStopped := true } }

/-- `nvme_unquiesce_admin_queue`. -/
def nvmeUnquiesceAdminQueue (s : State) : State :=
  { s with ctl := { s.ctl with adminStopped := false } }

/-- `nvme_reset_ctrl`. -/
def nvmeResetCtrl (s : State) : State :=
  { s with ctl := { s.ctl with resetSignal := true } }

/-- `nvme_queue_scan`. -/
def nvmeQueueScan (s : State) : State :=
  { s with ctl := { s.ctl with scanSignal := true } }

/-- `nvme_queue_fw_act_work`. -/
def nvmeQueueFwActWork (s : State) : State :=
  { s with core := { s.core with fwActSignal := true } }

/-! ### The end of a reset -/

/-- `NVME_AEN_SUPPORTED`. -/
def nvmeAenSupported : Nat := 0x80000B00

/-- `NVME_FEAT_ASYNC_EVENT`, `NVME_FEAT_NUM_QUEUES`. -/
def nvmeFeatAsyncEvent : Nat := 0x0b

def nvmeFeatNumQueues : Nat := 0x07

/-- `nvme_enable_aen` on the unit task: the Set Features command is synchronous,
so a successful submission leaves the task waiting. -/
def nvmeEnableAen (env : Env) (s : State) : State :=
  let supported := nvmeAenSupported &&& env.cfg.oaes
  if supported = 0 then s
  else
    match nvmeSubmitSyncCmd env s .unitTask
        { opcode := nvmeAdminSetFeatures, cdw10 := nvmeFeatAsyncEvent
          cdw11 := supported } none with
    | (s₁, ret) =>
        if ret = 0 then { s₁ with core := { s₁.core with unitBlocked := true } } else s₁

/-- `nvme_start_ctrl`, as far as the unit task gets. -/
def nvmeStartCtrl (env : Env) (s : State) : State :=
  let s₁ := nvmeEnableAen env s
  if s₁.core.unitBlocked then s₁
  else nvmeUnquiesceIoQueues (nvmeSubmitAer env s₁)

/-- `nvme_reset_finish`, as far as the unit task gets. -/
def nvmeResetFinish (env : Env) (s : State) (ok : Bool) : State :=
  let s₀ := s.log (.resetFinish ok)
  if ok then
    let s₁ := (nvmeChangeCtrlState (nvmeChangeCtrlState s₀ .connecting).1 .live).1
    let s₂ := nvmeStartCtrl env s₁
    if s₂.core.unitBlocked then s₂ else nvmeQueueScan s₂
  else (nvmeChangeCtrlState (nvmeChangeCtrlState s₀ .deleting).1 .dead).1

/-- A step of the rebuild chain that failed after the I/O queue was set up. -/
def rebuildFailed (env : Env) (s : State) : State :=
  nvmeResetFinish env (nvmeTeardownQueue s .io) false

/-- `nvme_io_setup_async_sq`. -/
def nvmeIoSetupAsyncSq (env : Env) (s : State) (status : Nat) : State :=
  if status ≠ 0 then rebuildFailed env s
  else nvmeResetFinish env ((nvmeSetIoMaxInflight env s).log .sqCreated) true

/-- `nvme_io_setup_async_cq`. -/
def nvmeIoSetupAsyncCq (env : Env) (s : State) (status : Nat) : State :=
  if status ≠ 0 then rebuildFailed env s
  else
    match nvmeSubmitAsyncCmd env s
        { opcode := nvmeAdminCreateSq, cdw10 := (nvmeIoQueueSize - 1) * 2 ^ 16 + 1
          cdw11 := 2 ^ 16 + if env.cfg.quirkMediumPrioSq then 5 else 1 }
        none .ioSetupAsyncSq none false with
    | (s₁, ret) => if ret ≠ 0 then rebuildFailed env s₁ else s₁

/-- `nvme_io_setup_async_features`. -/
def nvmeIoSetupAsyncFeatures (env : Env) (s : State) (status : Nat) : State :=
  if status ≠ 0 then nvmeResetFinish env s false
  else
    match nvmeSetupQueue env s .io nvmeIoQueueSize with
    | (s₁, false) => nvmeResetFinish env s₁ false
    | (s₁, true) =>
        match nvmeSubmitAsyncCmd env s₁
            { opcode := nvmeAdminCreateCq
              cdw10 := (nvmeIoQueueSize - 1) * 2 ^ 16 + 1, cdw11 := 3 }
            none .ioSetupAsyncCq none false with
        | (s₂, ret) => if ret ≠ 0 then rebuildFailed env s₂ else s₂

/-- `nvme_reset_rebuild_io_async`. -/
def nvmeResetRebuildIoAsync (env : Env) (s : State) : State :=
  match nvmeSubmitAsyncCmd env s
      { opcode := nvmeAdminSetFeatures, cdw10 := nvmeFeatNumQueues, cdw11 := 0 }
      none .ioSetupAsyncFeatures none false with
  | (s₁, ret) => if ret ≠ 0 then nvmeResetFinish env s₁ false else s₁

/-! ### Callbacks -/

/-- `nvme_handle_aen_notice`. -/
def nvmeHandleAenNotice (s : State) (subtype : Nat) : State :=
  if subtype = 0 then nvmeQueueScan s
  else if subtype = 1 then
    match nvmeChangeCtrlState s .resetting with
    | (s₁, true) => nvmeQueueFwActWork s₁
    | (s₁, false) => s₁
  else s

/-- `nvme_complete_async_event`.  Events that only stash their payload leave
the state alone. -/
def nvmeCompleteAsyncEvent (s : State) (status result : Nat) : State :=
  if status ≠ 0 then s
  else if result % 8 = 2 then nvmeHandleAenNotice s (result / 256 % 256)
  else if result % 8 = 0 ∧ result / 256 % 256 = 3 then nvmeResetCtrl s
  else s

/-- `req->done(req)`; every callback frees the request. -/
def runDone (env : Env) (s : State) (req : Request) : Done → State
  | .abortDone => s.log (.reqFree req.id)
  | .aerDone =>
      nvmeSubmitAer env
        ((nvmeCompleteAsyncEvent s req.status req.result).log (.reqFree req.id))
  | .fwSlotInfoDone =>
      let s₁ :=
        match req.priv with
        | none => s
        | some a => s.log (.dmaFreeOther a)
      s₁.log (.reqFree req.id)
  | .ioSetupAsyncFeatures =>
      nvmeIoSetupAsyncFeatures env (s.log (.reqFree req.id)) req.status
  | .ioSetupAsyncCq => nvmeIoSetupAsyncCq env (s.log (.reqFree req.id)) req.status
  | .ioSetupAsyncSq => nvmeIoSetupAsyncSq env (s.log (.reqFree req.id)) req.status

/-! ### Completion -/

/-- `nvme_error_status`. -/
def nvmeErrorStatus (status : Nat) : Int :=
  let code := statusSctSc status
  if code = 0 then 0
  else if code = nvmeScInvalidNs then tderrBadUnitNum
  else if code = nvmeScCapExceeded ∨ code = nvmeScLbaRange then ioerrBadAddress
  else tderrNotSpecified

/-- `enum nvme_disposition`. -/
inductive Disposition
  | complete
  | retry
deriving DecidableEq, Repr

/-- `nvme_decide_disposition`. -/
def nvmeDecideDisposition (req : Request) : Disposition :=
  if req.status = 0 then .complete
  else if req.cancelled = true ∨ statusDnr req.status = true ∨
      nvmeMaxRetries ≤ req.retries then .complete
  else if statusCodeType req.status = 0 ∧ statusCode req.status ≠ 0 then .complete
  else .retry

/-- The single-shot half of the COMPLETE branch: `nvme_end_req` and the free of
an I/O request. -/
def endReq (env : Env) (s : State) (req : Request) : State :=
  match req.done, req.waiter, req.io with
  | some d, _, _ => runDone env s req d
  | none, some w, _ =>
      let s₁ := s.log (.signal w)
      { s₁ with core := { s₁.core with waiting := req :: s₁.core.waiting } }
  | none, none, some i =>
      let error := nvmeErrorStatus req.status
      let actual := if error = 0 then (env.ios i).ioLength else 0
      (s.log (.reply i error actual)).log (.reqFree req.id)
  | none, none, none => s

/-- A context after one of its siblings has completed. -/
def IoContext.siblingDone (ctx : IoContext) (req : Request) : IoContext :=
  { ctx with
    firstError :=
      if req.status ≠ 0 ∧ ctx.firstError = 0 then nvmeErrorStatus req.status
      else ctx.firstError
    completed := ctx.completed + req.userLen
    inflight := ctx.inflight - 1 }

/-- The end of the chunked half: the last sibling finishes the context, unless
the pump has parked it. -/
def finishIfIdle (s : State) (c : Nat) : State :=
  match s.core.ctxs.get c with
  | none => s.log .fault
  | some ctx =>
      if ctx.inflight = 0 ∧ ctx.stalled = false then nvmeIoContextFinish s c else s

/-- The chunked half of the COMPLETE branch. -/
def completeSibling (env : Env) (s : State) (req : Request) (c : Nat) : State :=
  match s.core.ctxs.get c with
  | none => s.log .fault
  | some ctx =>
      let ctx₁ := ctx.siblingDone req
      let s₁ := (s.editCtx c (fun _ => ctx₁)).log (.reqFree req.id)
      let s₂ :=
        if ctx₁.dispatched < ctx₁.totalBytes ∧ ctx₁.firstError = 0 then
          (nvmeIoContextPump env s₁ c).1
        else s₁
      finishIfIdle s₂ c

/-- The COMPLETE branch of `nvme_complete_rq`. -/
def completeRequest (env : Env) (s : State) (req : Request) : State :=
  match nvmeCleanupCmd s req with
  | (s₁, req₁) =>
      match req.ctx with
      | some c => completeSibling env s₁ req₁ c
      | none => endReq env s₁ req₁

/-- `nvme_resubmit_io`; `complete` is `nvme_complete_rq`. -/
def nvmeResubmitIo (env : Env) (complete : State → Request → State)
    (s : State) (req : Request) : State :=
  match nvmeAllocCid (s.tab req.q) with
  | none => complete s { req with status := nvmeScHostPathError }
  | some (cid, t) =>
      let req₁ := { req with cid := cid, cmd := { req.cmd with commandId := cid } }
      (nvmeSubmitIo env (s.setTab req.q (nvmeInflightClaim t cid req₁)) req.q
        (cidTag cid)).1

/-- `nvme_retry_req`. -/
def nvmeRetryReq (env : Env) (complete : State → Request → State)
    (s : State) (req : Request) : State :=
  let crd := statusCrd req.status
  let req₁ := { req with status := 0, retries := req.retries + 1 }
  if crd ≠ 0 then
    let t := s.getTime env
    let delayMs := env.cfg.crdt (crd - 1) * 100
    let req₂ := { req₁ with deadlineUs := (t.1 + delayMs * 1000) % 2 ^ 32 }
    { t.2 with core := { t.2.core with retryList := t.2.core.retryList ++ [req₂] } }
  else nvmeResubmitIo env complete s req₁

/-- `nvme_complete_rq`, with a bound on the turns. -/
def completeRq (env : Env) : Nat → State → Request → State
  | 0, s, _ => s.log .fault
  | fuel + 1, s, req =>
      match nvmeDecideDisposition req with
      | .complete => completeRequest env s req
      | .retry => nvmeRetryReq env (completeRq env fuel) s req

/-- `nvme_complete_rq`. -/
def nvmeCompleteRq (env : Env) (s : State) (req : Request) : State :=
  completeRq env (nvmeMaxRetries + 1) s req

end Engine
end NvmeDriver
