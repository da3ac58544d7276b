import NvmeDriver.Capacity
import NvmeDriver.Prp
import NvmeDriver.Lib.Heap

/-!
# The state of one controller

Everything the unit task works on: requests, contexts, the two queues, the
message lists and the controller's own flags.  A request is a value that lives
in one place at a time, and is told apart by the number of its allocation; a
context is shared by its siblings, so contexts live on a heap.

`Core` is the part that owns things, with the ring indices, the phase of the
controller, the gates of the dispatch and its limits.  `Ctl` is the rest: flags,
signals and the counters of the oracles.  What the driver does to the outside world goes to
a log of effects, newest first.
-/

namespace NvmeDriver
namespace Engine

open Lib
open Namespace (NVMeUnit)
open Scsi (ScsiCmd)

/-- `nvme_queue.qid`: 0 is the admin queue, 1 the only I/O queue. -/
inductive QueueId
  | admin
  | io
deriving DecidableEq, Repr

def QueueId.qid : QueueId → Nat
  | .admin => 0
  | .io => 1

/-- The completion callbacks of asynchronous admin commands. -/
inductive Done
  | abortDone
  | aerDone
  | fwSlotInfoDone
  | ioSetupAsyncFeatures
  | ioSetupAsyncCq
  | ioSetupAsyncSq
deriving DecidableEq, Repr

/-- A task parked in `nvme_submit_sync_cmd`. -/
inductive Waiter
  | unitTask
  | otherTask
deriving DecidableEq, Repr

/-- `struct nvme_dsm_range`. -/
structure DsmRange where
  slba : Nat
  nlb : Nat
deriving DecidableEq, Repr

/-- `struct nvme_command`: the fields the driver fills in, for every command it
builds.  `ranges` is the range list a DSM command's PRP1 points at. -/
structure Command where
  opcode : Nat
  commandId : Nat := 0
  nsid : Nat := 0
  slba : Nat := 0
  length : Nat := 0
  control : Nat := 0
  nr : Nat := 0
  attributes : Nat := 0
  ranges : List DsmRange := []
  prp1 : Nat := 0
  prp2 : Nat := 0
  cdw10 : Nat := 0
  cdw11 : Nat := 0
deriving DecidableEq, Repr

/-- `struct nvme_request`. -/
structure Request where
  /-- number of the allocation it came from -/
  id : Nat
  q : QueueId
  cid : Nat
  io : Option Nat := none
  unit : Option Nat := none
  ctx : Option Nat := none
  status : Nat := 0
  result : Nat := 0
  retries : Nat := 0
  /-- `NVME_REQ_CANCELLED` -/
  cancelled : Bool := false
  /-- `NVME_REQ_ABORT_SENT` -/
  abortSent : Bool := false
  /-- `NVME_REQ_AER` -/
  aer : Bool := false
  /-- `NVME_REQ_PRP_LIST` -/
  prpList : Bool := false
  /-- `NVME_REQ_PRP_SMALL` -/
  prpSmall : Bool := false
  prpPages : List Nat := []
  userBuf : Nat := 0
  userLen : Nat := 0
  bounceBuf : Option Nat := none
  submitUs : Nat := 0
  deadlineUs : Nat := 0
  abortUs : Nat := 0
  done : Option Done := none
  waiter : Option Waiter := none
  priv : Option Nat := none
  cmd : Command := { opcode := 0 }
deriving DecidableEq, Repr

/-- `struct nvme_io_context`. -/
structure IoContext where
  io : Nat
  unit : Nat
  startLba : Nat
  totalBytes : Nat
  dispatched : Nat := 0
  completed : Nat := 0
  inflight : Nat := 0
  firstError : Int := 0
  opcode : Nat
  dataPrecached : Bool := false
  stalled : Bool := false
  userData : Nat
deriving DecidableEq, Repr

/-- The commands `ProcessCommand` tells apart. -/
inductive IoCommand
  | cmdStart
  | cmdStop
  | cmdRead
  | etdRead
  | tdRead64
  | nscmdTdRead64
  | nscmdEtdRead64
  | cmdWrite
  | etdWrite
  | tdWrite64
  | nscmdTdWrite64
  | nscmdEtdWrite64
  | tdFormat
  | etdFormat
  | tdFormat64
  | nscmdTdFormat64
  | nscmdEtdFormat64
  | nscmdNvmeWriteZeroes
  | nscmdNvmeTrim
  | cmdUpdate
  | etdUpdate
  | hdScsiCmd
  | cmdInternalAbortRequest
  | other (code : Nat)
deriving DecidableEq, Repr

/-- `struct IOStdReq` as it arrives on `msgPort`, with what `io_Data` points at. -/
structure IoRequest where
  command : IoCommand
  /-- number of `io_Unit` -/
  unit : Nat
  ioActual : Nat := 0
  ioOffset : Nat := 0
  ioLength : Nat := 0
  /-- `io_Data`; 0 is NULL -/
  ioData : Nat := 0
  /-- the `NVMeTrimRange` array of a TRIM -/
  trim : List DsmRange := []
  /-- the `SCSICmd` of an `HD_SCSICMD` -/
  scsi : Option ScsiCmd := none
  /-- the request an internal abort is about -/
  target : Nat := 0
deriving DecidableEq, Repr

/-- `enum nvme_ctrl_state`. -/
inductive CtrlState
  | new
  | live
  | resetting
  | connecting
  | deleting
  | deletingNoio
  | dead
deriving DecidableEq, Repr

/-- What the driver does to the world outside its own state, and the points of its
run that the properties of a run refer to. -/
inductive Effect
  /-- an SQE is written to a ring slot; `owner` is the client request served -/
  | sqe (slot : Nat) (r : Request) (owner : Option Nat)
  /-- a submission finds the ring full -/
  | sqFull (q : QueueId)
  | sqDoorbell (q : QueueId) (tail : Nat)
  | cqDoorbell (q : QueueId) (head : Nat)
  /-- a CQE is matched to a request -/
  | cqe (q : QueueId) (cid : Nat) (req : Nat) (status : Nat)
  /-- a CQE is consumed that matches no request -/
  | strayCqe (q : QueueId) (cid : Nat)
  /-- a request is force-completed -/
  | cancel (q : QueueId) (req : Nat)
  | reply (io : Nat) (error : Int) (actual : Nat)
  /-- an internal abort message is freed -/
  | discardIo (io : Nat)
  | scsi (io : Nat) (cmd : ScsiCmd)
  | reqFree (req : Nat)
  | ctxFree (ctx : Nat)
  /-- `nvme_io_context_finish`, with what it finds on `ctx_stalled` and how many
  siblings it finds in flight or parked -/
  | ctxFinish (ctx : Nat) (onStalled : Bool) (siblings : Nat)
  /-- a bounce buffer, PRP-list page or range buffer of a request is freed -/
  | dmaFree (req : Nat) (addr : Nat)
  /-- any other DMA buffer is freed -/
  | dmaFreeOther (addr : Nat)
  | cacheFlush (addr len : Nat) (toDevice : Bool)
  | cacheInval (addr len : Nat)
  | memcpy (dst src len : Nat)
  | signal (w : Waiter)
  /-- a queue's memory is freed with these requests still in its table -/
  | teardown (reqs : List Request)
  /-- `CC.EN` is cleared, or `CC.SHN` is set -/
  | disable
  /-- the controller is seen stopped: `CC.EN = 0` with `CSTS.RDY = 0`, or
  `CSTS.SHST` complete -/
  | deviceStopped
  /-- the rings of a queue are allocated -/
  | queueSetup (q : QueueId)
  /-- Create I/O SQ has completed with success -/
  | sqCreated
  /-- the state of the controller changes -/
  | phase (st : CtrlState)
  /-- `nvme_reset_controller` is not refused -/
  | resetBegin
  /-- `nvme_reset_finish` is called -/
  | resetFinish (ok : Bool)
  /-- a freed context is used -/
  | fault
deriving DecidableEq, Repr

/-- One queue's in-flight table and free stack; the top of the stack first. -/
structure SlotTable where
  /-- `q->sq != NULL` -/
  present : Bool
  depth : Nat
  skipCidGen : Bool
  inflight : Slots Request
  inflightCount : Nat
  freeStack : List Nat

/-- A torn-down queue. -/
def SlotTable.gone : SlotTable :=
  { present := false, depth := 0, skipCidGen := false, inflight := []
    inflightCount := 0, freeStack := [] }

namespace SlotTable

/-- `inflight[tag]`. -/
def read (t : SlotTable) (tag : Nat) : Option Request := Slots.read t.inflight tag

/-- The requests in the table. -/
def occupants (t : SlotTable) : List Request := t.inflight.filterMap id

/-- Change the request in a slot. -/
def edit (t : SlotTable) (tag : Nat) (f : Request → Request) : SlotTable :=
  { t with inflight := t.inflight.set tag ((t.read tag).map f) }

end SlotTable

/-- One queue's rings. -/
structure Ring where
  sqTail : Nat
  lastSqTail : Nat
  sqBatchDepth : Nat
  cqHead : Nat
  cqPhase : Bool

def Ring.gone : Ring :=
  { sqTail := 0, lastSqTail := 0, sqBatchDepth := 0, cqHead := 0, cqPhase := false }

/-- The owning part of the state, the phase of the controller, its gates and limits. -/
structure Core where
  adminTab : SlotTable
  ioTab : SlotTable
  adminRing : Ring
  ioRing : Ring
  retryList : List Request
  /-- completed synchronous requests whose waiter has not run yet -/
  waiting : List Request
  ctxs : Heap IoContext
  ctxStalled : List Nat
  msgPort : List Nat
  ioPending : List Nat
  /-- client requests accepted so far -/
  accepted : Nat
  /-- allocations so far; the next one's number -/
  allocs : Nat
  state : CtrlState
  fwActSignal : Bool
  /-- `nvme_fw_act_work` is polling -/
  fwActRunning : Bool
  /-- the unit task waits in `nvme_submit_sync_cmd` -/
  unitBlocked : Bool
  /-- `NVME_CTRL_STOPPED` -/
  stopped : Bool
  /-- `NVME_CTRL_FROZEN` -/
  frozen : Bool
  ioMaxInflight : Nat
  maxZeroesSectors : Nat
  /-- `NVME_UNIT_DEAD`, by unit -/
  dead : Nat → Bool
  trace : List Effect

/-- The rest of the state. -/
structure Ctl where
  /-- `NVME_CTRL_ADMIN_Q_STOPPED` -/
  adminStopped : Bool
  /-- `NVME_NS_DEAC`, by unit -/
  deac : Nat → Bool
  resetSignal : Bool
  scanSignal : Bool
  /-- the unit task has left its loop -/
  unitExited : Bool
  times : Nat
  regs : Nat
  mem : Prp.Memory

structure State where
  core : Core
  ctl : Ctl

/-- The controller's capabilities, fixed once it is identified. -/
structure Config where
  quirkStripeSize : Bool
  quirkDeallocateZeroes : Bool
  quirkQdepthOne : Bool
  quirkSkipCidGen : Bool
  quirkMediumPrioSq : Bool
  maxTransferBytes : Nat
  maxHwSectors : Nat
  /-- `oncs & NVME_CTRL_ONCS_DSM` -/
  oncsDsm : Bool
  oaes : Nat
  /-- `crdt[0..2]` -/
  crdt : Nat → Nat

/-- What the driver is given: the client requests by acceptance, the units by
number with the geometry they were created with, the controller's capabilities,
and the answers of memory, clock and registers, each by how often it has been
asked.  `emulate` is what the SCSI handlers do that only fill the caller's
buffer. -/
structure Env where
  ios : Nat → IoRequest
  units : Nat → NVMeUnit
  cfg : Config
  alloc : Nat → Option Nat
  time : Nat → Nat
  regs : Nat → Bool
  /-- `dma_addr_reachable` -/
  reachable : Nat → Nat → Bool
  emulate : NVMeUnit → ScsiCmd → Int × ScsiCmd
  emulate_sync : ∀ u c, (emulate u c).1 ≠ nvmeIoAsync

namespace Core

/-- Append to the log. -/
def log (c : Core) (e : Effect) : Core := { c with trace := e :: c.trace }

/-- The in-flight table of a queue. -/
def tab (c : Core) : QueueId → SlotTable
  | .admin => c.adminTab
  | .io => c.ioTab

def setTab (c : Core) (q : QueueId) (t : SlotTable) : Core :=
  match q with
  | .admin => { c with adminTab := t }
  | .io => { c with ioTab := t }

/-- The rings of a queue. -/
def ring (c : Core) : QueueId → Ring
  | .admin => c.adminRing
  | .io => c.ioRing

def setRing (c : Core) (q : QueueId) (r : Ring) : Core :=
  match q with
  | .admin => { c with adminRing := r }
  | .io => { c with ioRing := r }

/-- The client request a request works for. -/
def ownerOf (c : Core) (req : Request) : Option Nat :=
  match req.ctx with
  | none => req.io
  | some x => (c.ctxs.get x).map IoContext.io

end Core

namespace State

/-- Append to the log. -/
def log (s : State) (e : Effect) : State := { s with core := s.core.log e }

/-- The in-flight table of a queue. -/
def tab (s : State) (q : QueueId) : SlotTable := s.core.tab q

def setTab (s : State) (q : QueueId) (t : SlotTable) : State :=
  { s with core := s.core.setTab q t }

/-- The rings of a queue. -/
def ring (s : State) (q : QueueId) : Ring := s.core.ring q

def setRing (s : State) (q : QueueId) (r : Ring) : State :=
  { s with core := s.core.setRing q r }

/-- `q->inflight[tag]`. -/
def slot (s : State) (q : QueueId) (tag : Nat) : Option Request :=
  (s.tab q).read tag

/-- Change the request in a slot. -/
def editSlot (s : State) (q : QueueId) (tag : Nat) (f : Request → Request) : State :=
  s.setTab q ((s.tab q).edit tag f)

/-- Change a context. -/
def editCtx (s : State) (c : Nat) (f : IoContext → IoContext) : State :=
  { s with core := { s.core with ctxs := s.core.ctxs.modify c f } }

/-- The next memory allocation: its number and its address. -/
def allocate (env : Env) (s : State) : Option Nat × State :=
  (env.alloc s.core.allocs,
    { s with core := { s.core with allocs := s.core.allocs + 1 } })

/-- `get_time()`. -/
def getTime (env : Env) (s : State) : Nat × State :=
  (env.time s.ctl.times, { s with ctl := { s.ctl with times := s.ctl.times + 1 } })

/-- `nvme_wait_ready` and the like: whether the register got there in time. -/
def waitReady (env : Env) (s : State) : Bool × State :=
  (env.regs s.ctl.regs, { s with ctl := { s.ctl with regs := s.ctl.regs + 1 } })

end State

/-- `nvme_state_terminal`. -/
def nvmeStateTerminal (s : State) : Bool :=
  match s.core.state with
  | .deleting | .deletingNoio | .dead => true
  | .new | .live | .resetting | .connecting => false

/-- `nvme_change_ctrl_state`: the transition table. -/
def ctrlTransition : CtrlState → CtrlState → Bool
  | .connecting, .live => true
  | .new, .resetting | .live, .resetting => true
  | .new, .connecting | .resetting, .connecting => true
  | .live, .deleting | .resetting, .deleting | .connecting, .deleting => true
  | .deleting, .deletingNoio | .dead, .deletingNoio => true
  | .deleting, .dead => true
  | _, _ => false

/-- `nvme_change_ctrl_state`. -/
def nvmeChangeCtrlState (s : State) (target : CtrlState) : State × Bool :=
  if ctrlTransition s.core.state target then
    ({ s with core := ({ s.core with state := target }).log (.phase target) }, true)
  else (s, false)

end Engine
end NvmeDriver
