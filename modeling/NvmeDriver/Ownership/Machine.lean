import NvmeDriver.Engine.Loop
import NvmeDriver.Lib.Paths

/-!
# Who owns what

The driver's code as a machine of small moves.  A move changes the owning part
of the state and the *hand*: the one client request, request or context that
the running function holds and no list does.  Allocating, setting up and
submitting a request are one move, because nothing can come between them; so is
undoing them.

A `Policy` says which moves a run may use.  The moves are what the driver can
do; what it never does is proved about the moves, once.
-/

namespace NvmeDriver
namespace Ownership

open Engine
open Lib
open Namespace (NVMeUnit lbaOutOfRange)

/-! ### Keys -/

/-- What a request is for; fixed from its allocation on. -/
structure Key where
  id : Nat
  q : QueueId
  io : Option Nat
  ctx : Option Nat
  done : Option Done
  waiter : Option Waiter
deriving DecidableEq

def keyOf (r : Request) : Key :=
  { id := r.id, q := r.q, io := r.io, ctx := r.ctx, done := r.done, waiter := r.waiter }

namespace Key

/-- The request is a step of the queue rebuild after a reset. -/
def isChain (k : Key) : Bool :=
  k.done == some .ioSetupAsyncFeatures || k.done == some .ioSetupAsyncCq ||
    k.done == some .ioSetupAsyncSq

/-- The request is the first step of the rebuild. -/
def isFeatures (k : Key) : Bool := k.done == some .ioSetupAsyncFeatures

/-- A request serves a client, a context or an admin caller, never two. -/
def Sound (k : Key) : Prop :=
  (k.ctx ≠ none → k.io = none ∧ k.q = .io) ∧ (k.io ≠ none → k.q = .io) ∧
    (k.q = .io → (k.io ≠ none ∨ k.ctx ≠ none) ∧ k.done = none ∧ k.waiter = none)

instance (k : Key) : Decidable k.Sound := inferInstanceAs (Decidable (_ ∧ _))

/-- The request is none of the kinds the driver builds. -/
def isUnsound (k : Key) : Bool := !decide k.Sound

end Key

/-! ### Configurations and counts -/

/-- What the running code holds: a client request, a request, a context, completion
queue entries of the I/O queue that are consumed and not yet published, an open
doorbell batch, and the next step of a reset. -/
structure Hand where
  io : Option Nat := none
  req : Option Request := none
  ctx : Option Nat := none
  ahead : Nat := 0
  batch : Bool := false
  owes : Bool := false

/-- A configuration of the machine. -/
structure Cfg where
  core : Core
  hand : Hand

/-- Requests that lost their queue under them. -/
def tornReqs : Effect → List Request
  | .teardown reqs => reqs
  | _ => []

def torn (p : Key → Bool) (trace : List Effect) : Nat :=
  (trace.flatMap tornReqs).countP (p ∘ keyOf)

/-- Requests with the property in the tables and lists, or torn down with them. -/
def coreReqs (p : Key → Bool) (c : Core) : Nat :=
  Slots.held (p ∘ keyOf) c.adminTab.inflight + Slots.held (p ∘ keyOf) c.ioTab.inflight +
    c.retryList.countP (p ∘ keyOf) + c.waiting.countP (p ∘ keyOf) + torn p c.trace

/-- Requests with the property anywhere. -/
def reqCount (p : Key → Bool) (g : Cfg) : Nat :=
  coreReqs p g.core + hit (p ∘ keyOf) g.hand.req

/-- One if the option holds the value. -/
def holds (o : Option Nat) (n : Nat) : Nat := if o = some n then 1 else 0

/-- The client request is given back. -/
def isReply (i : Nat) : Effect → Bool
  | .reply j _ _ => j == i
  | .discardIo j => j == i
  | _ => false

def isReqFree (n : Nat) : Effect → Bool
  | .reqFree m => m == n
  | _ => false

def isCtxFree (x : Nat) : Effect → Bool
  | .ctxFree y => y == x
  | _ => false

def isCtxFinish (x : Nat) : Effect → Bool
  | .ctxFinish y _ _ => y == x
  | _ => false

/-- Places that hold a client request, and replies already sent to it. -/
def ioCount (i : Nat) (g : Cfg) : Nat :=
  g.core.msgPort.count i + g.core.ioPending.count i +
    reqCount (fun k => k.io == some i) g + g.core.ctxs.held (fun x => x.io == i) +
    holds g.hand.io i + g.core.trace.countP (isReply i)

/-- Requests of a context. -/
def sibCount (x : Nat) (g : Cfg) : Nat := reqCount (fun k => k.ctx == some x) g

/-- The effects that own nothing and mark no point of the run. -/
def quiet : Effect → Bool
  | .dmaFreeOther _ | .cacheFlush _ _ _ | .cacheInval _ _ | .memcpy _ _ _
  | .signal _ | .deviceStopped => true
  | _ => false

/-- The effects that own nothing. -/
def ownerless : Effect → Bool
  | .sqDoorbell _ _ | .cqDoorbell _ _ | .strayCqe _ _ | .sqFull _ | .disable | .queueSetup _
  | .sqCreated | .phase _ | .resetBegin | .resetFinish _ | .scsi _ _ => true
  | e => quiet e

/-- Quiet effects, and releases of a request's DMA resources. -/
def quietFor (n : Nat) : Effect → Bool
  | .dmaFree m _ => m == n
  | e => quiet e

/-- What stopping the device logs. -/
def halting : Effect → Bool
  | .disable | .deviceStopped => true
  | _ => false

/-! ### What a command is built from -/

/-- A transfer a client request asks for. -/
inductive Transfer
  | rw (u lba blocks opcode buffer : Nat)
  | writeZeroes (u lba blocks : Nat)
  | dsm (u : Nat) (ranges : List DsmRange)
  | flush (u : Nat)

/-- The client request is answered by a flush. -/
def Flushes (r : IoRequest) : Prop :=
  r.command = .cmdUpdate ∨ r.command = .etdUpdate ∨
    r.command = .hdScsiCmd ∧ ∃ cmd cdb, r.scsi = some cmd ∧ cmd.command = some cdb ∧
      cdb.getD 0 0 = 0x35

/-- The transfers `ProcessCommand` may start for a client request. -/
inductive Asked (env : Env) (i : Nat) : Transfer → Prop
  | plain {opcode : Nat} (hcmd : (env.ios i).command.transfer = some opcode) :
      Asked env i (.rw (env.ios i).unit
        ((env.ios i).decode (env.units (env.ios i).unit)).1
        ((env.ios i).decode (env.units (env.ios i).unit)).2 opcode (env.ios i).ioData)
  | scsi {cmd : Scsi.ScsiCmd} {cdb : List Nat} {lba blocks : Nat}
      (hcmd : (env.ios i).command = .hdScsiCmd) (hscsi : (env.ios i).scsi = some cmd)
      (hcdb : cmd.command = some cdb) (hlen : 6 ≤ cmd.cmdLength)
      (hdec : scsiTransfer cdb = some (lba, blocks))
      (hfits : blocks ≤ cmd.length / 2 ^ (env.units (env.ios i).unit).blockShift) :
      Asked env i (.rw (env.ios i).unit lba blocks
        (if cmd.flagRead then nvmeCmdRead else nvmeCmdWrite) cmd.data)
  | zeroes (hcmd : (env.ios i).command = .nscmdNvmeWriteZeroes)
      (hquirk : env.cfg.quirkDeallocateZeroes = false) :
      Asked env i (.writeZeroes (env.ios i).unit
        ((env.ios i).decode (env.units (env.ios i).unit)).1
        ((env.ios i).decode (env.units (env.ios i).unit)).2)
  | trim {nr : Nat} (hcmd : (env.ios i).command = .nscmdNvmeTrim)
      (hok : ((List.range nr).map (fun j => (env.ios i).trim.getD j ⟨0, 0⟩)).all
        (trimRangeOk (env.units (env.ios i).unit)) = true) :
      Asked env i (.dsm (env.ios i).unit
        ((List.range nr).map (fun j => (env.ios i).trim.getD j ⟨0, 0⟩)))
  | deallocate (hcmd : (env.ios i).command = .nscmdNvmeWriteZeroes)
      (hquirk : env.cfg.quirkDeallocateZeroes = true)
      (hne : ((env.ios i).decode (env.units (env.ios i).unit)).2 ≠ 0)
      (hin : lbaOutOfRange (env.units (env.ios i).unit)
        ((env.ios i).decode (env.units (env.ios i).unit)).1
        ((env.ios i).decode (env.units (env.ios i).unit)).2 = false) :
      Asked env i (.dsm (env.ios i).unit
        [⟨((env.ios i).decode (env.units (env.ios i).unit)).1,
          ((env.ios i).decode (env.units (env.ios i).unit)).2⟩])
  | unmap {cmd : Scsi.ScsiCmd} {cdb : List Nat} {nr : Nat} {ranges : List DsmRange}
      (hcmd : (env.ios i).command = .hdScsiCmd) (hscsi : (env.ios i).scsi = some cmd)
      (hcdb : cmd.command = some cdb) (hop : cdb.getD 0 0 = 0x42)
      (hdsm : env.cfg.oncsDsm = true)
      (hdec : unmapRanges (env.units (env.ios i).unit) cmd.payload nr 8 = some ranges) :
      Asked env i (.dsm (env.ios i).unit ranges)
  | sync (hcmd : Flushes (env.ios i)) : Asked env i (.flush (env.ios i).unit)

/-- The client asks for a read or a write. -/
def AsksRw (env : Env) (i : Nat) : Prop :=
  ∃ u lba blocks opcode buffer, Asked env i (.rw u lba blocks opcode buffer)

/-- Bytes of a transfer, in 32 bits. -/
def transferBytes (env : Env) (u blocks : Nat) : Nat :=
  blocks * 2 ^ (env.units u).blockShift % 2 ^ 32

/-- The checks a transfer passes before it is started. -/
def Checked (env : Env) : Transfer → Prop
  | .rw u lba blocks _ buffer =>
      transferBytes env u blocks ≠ 0 ∧ buffer ≠ 0 ∧
        lbaOutOfRange (env.units u) lba blocks = false
  | .writeZeroes u lba blocks =>
      blocks ≠ 0 ∧ lbaOutOfRange (env.units u) lba blocks = false
  | .dsm _ _ => True
  | .flush _ => True

/-- The transfer goes out as one command. -/
def Single (env : Env) : Transfer → Prop
  | .rw u lba blocks _ _ =>
      nvmeRwChunkCap env.cfg (env.units u).blockShift lba = 0 ∨
        transferBytes env u blocks ≤
          nvmeRwChunkCap env.cfg (env.units u).blockShift lba
  | .writeZeroes u _ blocks => transferBytes env u blocks ≤ (env.units u).wzMaxBytes
  | .dsm _ _ => True
  | .flush _ => True

/-- The request carries the one command of a transfer. -/
def SingleOf (env : Env) (r : Request) : Transfer → Prop
  | .rw u lba blocks opcode buffer =>
      r.cmd.commandId = r.cid ∧ r.cmd.opcode = opcode ∧ r.cmd.nsid = (env.units u).nsid ∧
        r.cmd.slba = lba ∧ r.cmd.length = nlbField blocks ∧ r.userBuf = buffer ∧
        r.userLen = transferBytes env u blocks
  | .writeZeroes u lba blocks =>
      r.cmd.commandId = r.cid ∧ r.cmd.opcode = nvmeCmdWriteZeroes ∧
        r.cmd.nsid = (env.units u).nsid ∧ r.cmd.slba = lba ∧ r.cmd.length = nlbField blocks
  | .dsm u ranges =>
      r.cmd.commandId = r.cid ∧ r.cmd.opcode = nvmeCmdDsm ∧
        r.cmd.nsid = (env.units u).nsid ∧ r.cmd.ranges = ranges
  | .flush u =>
      r.cmd.commandId = r.cid ∧ r.cmd.opcode = nvmeCmdFlush ∧
        r.cmd.nsid = (env.units u).nsid

/-- The context is for a transfer that needs several commands. -/
def ContextOf (env : Env) (ctx : IoContext) : Transfer → Prop
  | .rw u lba blocks opcode buffer =>
      nvmeRwChunkCap env.cfg (env.units u).blockShift lba ≠ 0 ∧
        ctx.unit = u ∧ ctx.startLba = lba ∧
        ctx.totalBytes = transferBytes env u blocks ∧ ctx.opcode = opcode ∧
        ctx.userData = buffer
  | .writeZeroes u lba blocks =>
      ctx.unit = u ∧ ctx.startLba = lba ∧
        ctx.totalBytes = transferBytes env u blocks ∧ ctx.opcode = nvmeCmdWriteZeroes ∧
        ctx.userData = 0
  | .dsm _ _ => False
  | .flush _ => False

/-- The blocks of the next chunk. -/
def nextBlocks (env : Env) (ctx : IoContext) : Nat :=
  nextBytes env ctx / 2 ^ (env.units ctx.unit).blockShift

/-- The request carries the next chunk of a context. -/
def ChunkOf (env : Env) (ctx : IoContext) (r : Request) : Prop :=
  r.cmd.commandId = r.cid ∧ r.cmd.opcode = ctx.opcode ∧
    r.cmd.nsid = (env.units ctx.unit).nsid ∧ r.cmd.slba = nextLba env ctx ∧
    r.cmd.length = nlbField (nextBlocks env ctx) ∧
    (ctx.opcode ≠ nvmeCmdWriteZeroes →
      r.userBuf = (ctx.userData + ctx.dispatched) % 2 ^ 32 ∧
        r.userLen = transferBytes env ctx.unit (nextBlocks env ctx))

/-- `nvme_setup_rw` may fail: memory runs out, or the PRP list does not fit. -/
def SetupFails (env : Env) (buffer bytes : Nat) : Prop :=
  (∃ n, env.alloc n = none) ∨
    ∃ a, (a = buffer ∨ ∃ n, env.alloc n = some a) ∧
      Prp.maxListPages * (Prp.entriesPerPage - 1) <
        Prp.nrDataPages (bytes - pageLeft Prp.pageSize a)

/-- The setup of the next chunk may fail. -/
def ChunkFails (env : Env) (ctx : IoContext) : Prop :=
  ctx.opcode ≠ nvmeCmdWriteZeroes ∧
    SetupFails env ((ctx.userData + ctx.dispatched) % 2 ^ 32)
      (transferBytes env ctx.unit (nextBlocks env ctx))

/-- Setting up a transfer, or its first chunk, may fail. -/
def TransferFails (env : Env) (t : Transfer) : Prop :=
  (∃ n, env.alloc n = none) ∨
    (∃ u lba blocks opcode buffer, t = .rw u lba blocks opcode buffer ∧ Single env t ∧
      SetupFails env buffer (transferBytes env u blocks)) ∨
    ∃ ctx, ContextOf env ctx t ∧ ctx.dispatched = 0 ∧ ChunkFails env ctx

/-- The read, write or Write Zeroes a client asks for with a command of its own. -/
def Direct (env : Env) (i : Nat) (t : Transfer) : Prop :=
  Asked env i t ∧ (env.ios i).command ≠ .hdScsiCmd ∧ (∀ u l, t ≠ .dsm u l) ∧
    ∀ u, t ≠ .flush u

/-- Why a client request may be answered without a command. -/
def Refusal (env : Env) (c : Core) (i : Nat) (e : Int) : Prop :=
  e = ioerrUnitBusy ∨ c.state ≠ .live ∨ c.dead (env.ios i).unit = true ∨
    c.maxZeroesSectors = 0 ∨
    ∀ t, Direct env i t → ¬Checked env t ∨ TransferFails env t

/-! ### Policies -/

/-- What a run may do. -/
structure Policy where
  /-- forget a request of this kind -/
  lose : Key → Prop
  /-- force-complete requests of this queue -/
  cancel : QueueId → Prop
  /-- see a completion of this queue with this status -/
  status : QueueId → Nat → Prop
  /-- abort parked contexts -/
  abort : Prop
  /-- change the phase of the controller, its gates and its queues -/
  stir : Prop
  /-- publish the head of a completion queue -/
  publish : Prop
  /-- consume entries of the I/O completion queue that match no request -/
  stray : Prop
  /-- take a parked I/O request while the I/O queue has no room -/
  exceed : Prop
  /-- submit to the I/O queue in this phase, frozen or not -/
  launch : CtrlState → Bool → Prop
  /-- give up on a firmware activation -/
  timeout : Prop
  /-- take a request off the retry list -/
  resume : Prop
  /-- go on with a context that has failed -/
  spoil : Prop
  /-- fill in the SCSI fields of a client request -/
  translate : Prop
  /-- accept client requests, take them off their lists and stash them -/
  queue : Prop

/-- The same with the heads of the completion queues left alone, too. -/
def Policy.calm (P : Policy) : Policy := { P with stir := False, publish := False }

/-- The error latched in a context that is not fully dispatched: setting up its next chunk
fails, or the unit task exits. -/
structure Latches (env : Env) (P : Policy) (ctx : IoContext) (e : Int) : Prop where
  more : ctx.dispatched < ctx.totalBytes
  fresh : ctx.firstError = 0 ∨ P.spoil
  why : e = ioerrSelfTest ∧ ChunkFails env ctx ∨ e = ioerrAborted ∧ P.abort

/-- A submission of the request. -/
def isSqe (n : Nat) : Effect → Bool
  | .sqe _ r _ => r.id == n
  | _ => false

/-- The request is cancelled, or completes with a status that forbids retries. -/
def dooms (n : Nat) : Effect → Bool
  | .cancel _ m => m == n
  | .cqe _ _ m status => m == n && statusDnr status
  | _ => false

/-- The request must not be submitted again. -/
def Doomed (n : Nat) (trace : List Effect) : Prop := ∃ e, e ∈ trace ∧ dooms n e = true

/-- How the status of a request in hand changes: it stays; a retry clears it; a retry finds
no free tag. -/
inductive Restated (c : Core) (r r' : Request) : Prop
  | same (hst : r'.status = r.status) (hret : r'.retries = r.retries)
      (hcan : r'.cancelled = r.cancelled)
  | retried (hdec : nvmeDecideDisposition r = .retry) (hst : r'.status = 0)
      (hret : r'.retries = r.retries + 1)
  | noTag (hfree : (c.tab r.q).freeStack = []) (hret : r.retries ≠ 0)
      (hst : r'.status = nvmeScHostPathError) (hkept : r'.retries = r.retries)
      (hlive : ¬Doomed r.id c.trace)

/-- Firmware activation is signalled or running. -/
def fwPending (c : Core) : Prop := c.fwActSignal = true ∨ c.fwActRunning = true

def isResetBegin : Effect → Bool
  | .resetBegin => true
  | _ => false

def isResetFinish : Effect → Bool
  | .resetFinish _ => true
  | _ => false

/-- A reset has begun and not been finished. -/
def InReset (trace : List Effect) : Prop :=
  trace.countP isResetBegin = trace.countP isResetFinish + 1

/-- The reset owns the controller and no rebuild command is around. -/
def ChainFree (g : Cfg) : Prop :=
  g.core.state = .resetting ∧ ¬fwPending g.core ∧ reqCount Key.isChain g = 0 ∧
    InReset g.core.trace

/-- A table without occupants. -/
def Vacant (t : SlotTable) : Prop := Slots.held (fun _ => true) t.inflight = 0

/-- The table with a tag taken off the free stack. -/
def popped (t : SlotTable) (rest : List Nat) : SlotTable := { t with freeStack := rest }

/-- The table after a tag was taken and given back unused. -/
def bumped (t : SlotTable) (cid : Nat) (rest : List Nat) : SlotTable :=
  { t with freeStack := nextCid t.skipCidGen cid :: rest }

/-- The core with more allocations and more on the log. -/
def stamp (c : Core) (n : Nat) (es : List Effect) : Core :=
  { c with allocs := n, trace := es ++ c.trace }

/-! ### Rings -/

/-- The ring has no slot for another SQE, as `nvme_submit_io` sees it. -/
def RingFull (depth : Nat) (r : Ring) : Prop := (r.sqTail + 1) % depth = r.cqHead

/-- The ring after an SQE; outside a batch the doorbell follows at once. -/
def pushed (depth : Nat) (r : Ring) : Ring :=
  { r with
    sqTail := (r.sqTail + 1) % depth
    lastSqTail := if r.sqBatchDepth = 0 then (r.sqTail + 1) % depth else r.lastSqTail }

/-- The core after an SQE for the request now in the table. -/
def sent (c : Core) (q : QueueId) (t : SlotTable) (n : Nat) (es : List Effect) : Core :=
  (stamp (c.setTab q t) n es).setRing q (pushed (c.tab q).depth (c.ring q))

/-- One for the I/O queue. -/
def ioOne : QueueId → Nat
  | .admin => 0
  | .io => 1

/-- The size a queue is set up with. -/
def queueSize : QueueId → Nat
  | .admin => nvmeAdminQueueSize
  | .io => nvmeIoQueueSize

/-- `nvme_set_io_max_inflight`. -/
def inflightCap (env : Env) (depth : Nat) : Nat :=
  if env.cfg.quirkQdepthOne then 1 else if 1 < depth then depth - 1 else 1

/-- The I/O queue has room, as `nvme_drain_msgport` sees it. -/
def HasRoom (c : Core) : Prop := c.ioTab.inflightCount < c.ioMaxInflight

/-! ### Moves -/

/-- Changes of phase. -/
inductive PhaseMove (env : Env) (P : Policy) (g : Cfg) : Cfg → Prop
  /-- a firmware activation notice takes the controller off LIVE -/
  | aenFw (hlive : g.core.state = .live ∨ g.core.state = .new) :
      PhaseMove env P g
        ⟨stamp { g.core with state := .resetting, fwActSignal := true } g.core.allocs
          [.phase .resetting], g.hand⟩
  | fwBegin (hsig : g.core.fwActSignal = true) :
      PhaseMove env P g
        ⟨{ g.core with fwActSignal := false, fwActRunning := true, stopped := true },
          g.hand⟩
  | fwTimeout (hrun : g.core.fwActRunning = true) (htime : P.timeout) :
      PhaseMove env P g ⟨{ g.core with fwActRunning := false }, g.hand⟩
  | fwLive (hrun : g.core.fwActRunning = true) (hsig : g.core.fwActSignal = false) :
      PhaseMove env P g
        ⟨stamp { g.core with fwActRunning := false, state := .live, stopped := false }
          g.core.allocs [.phase .live, .phase .connecting], g.hand⟩
  | resetBegin (hlive : g.core.state = .live ∨ g.core.state = .new) :
      PhaseMove env P g
        ⟨stamp { g.core with state := .resetting, stopped := true } g.core.allocs
          [.resetBegin, .phase .resetting], { g.hand with owes := true }⟩
  | resetLive (howes : g.hand.owes = true) :
      PhaseMove env P g
        ⟨stamp { g.core with state := .live } g.core.allocs
          [.phase .live, .phase .connecting, .resetFinish true, .sqCreated],
          { g.hand with owes := false }⟩
  | die (howes : g.hand.owes = true) (hgone : g.core.ioTab = SlotTable.gone) :
      PhaseMove env P g
        ⟨stamp { g.core with state := .dead } g.core.allocs
          [.phase .dead, .phase .deleting, .resetFinish false],
          { g.hand with owes := false }⟩
  /-- the unit task waits for itself -/
  | block (hmask : nvmeAenSupported &&& env.cfg.oaes ≠ 0) :
      PhaseMove env P g ⟨{ g.core with unitBlocked := true }, g.hand⟩
  | quiesce : PhaseMove env P g ⟨{ g.core with stopped := true }, g.hand⟩
  | unquiesce (hlive : g.core.state = .live) :
      PhaseMove env P g ⟨{ g.core with stopped := false }, g.hand⟩
  | freeze (b : Bool) : PhaseMove env P g ⟨{ g.core with frozen := b }, g.hand⟩
  | setCap :
      PhaseMove env P g
        ⟨{ g.core with ioMaxInflight := inflightCap env g.core.ioTab.depth }, g.hand⟩

/-- One move. -/
inductive Move (env : Env) (P : Policy) : Cfg → Cfg → Prop
  | accept {c h} (hq : P.queue) :
      Move env P ⟨c, h⟩
        ⟨{ c with msgPort := c.msgPort ++ [c.accepted], accepted := c.accepted + 1 }, h⟩
  | note {c h} (e : Effect) (hq : quiet e = true) :
      Move env P ⟨c, h⟩ ⟨stamp c c.allocs [e], h⟩
  /-- the SCSI fields of a client request are filled in -/
  | translated {c h} (i : Nat) (cmd : Scsi.ScsiCmd) (htr : P.translate) :
      Move env P ⟨c, h⟩ ⟨stamp c c.allocs [.scsi i cmd], h⟩
  | burn {c h} (n : Nat) :
      Move env P ⟨c, h⟩ ⟨stamp c (c.allocs + n) [], h⟩
  | limits {c h} (mz : Nat) (dead : Nat → Bool) :
      Move env P ⟨c, h⟩ ⟨{ c with maxZeroesSectors := mz, dead := dead }, h⟩
  | phase {g g'} (hstir : P.stir) (hp : PhaseMove env P g g') : Move env P g g'
  /-- a doorbell is rung -/
  | bell {c h} (q : QueueId) (tail : Nat)
      (hgate : q = .io → P.launch c.state c.frozen ∧ c.ioTab.present = true) :
      Move env P ⟨c, h⟩ ⟨stamp c c.allocs [.sqDoorbell q tail], h⟩
  | openBatch {c h} (hb : h.batch = false) :
      Move env P ⟨c, h⟩
        ⟨c.setRing .io { c.ring .io with sqBatchDepth := (c.ring .io).sqBatchDepth + 1 },
          { h with batch := true }⟩
  | closeBatch {c h} (hb : h.batch = true) :
      Move env P ⟨c, h⟩
        ⟨c.setRing .io
            { c.ring .io with sqBatchDepth := 0, lastSqTail := (c.ring .io).sqTail },
          { h with batch := false }⟩
  /-- the head of a completion queue is published -/
  | publish {c h} (q : QueueId) {head : Nat} {phase : Bool} (hpub : P.publish)
      (hhead : q = .io → head = ((c.ring .io).cqHead + h.ahead) % c.ioTab.depth) :
      Move env P ⟨c, h⟩
        ⟨(stamp c c.allocs [.cqDoorbell q head]).setRing q
            { c.ring q with cqHead := head, cqPhase := phase },
          { h with ahead := if q = .io then 0 else h.ahead }⟩
  /-- a completion queue entry matches no request -/
  | skip {c h} (q : QueueId) (cid : Nat) (hstray : q = .io → P.stray)
      (hnone : q = .io → c.ioTab.present = true ∧
        ∀ tag r, c.ioTab.read tag = some r → r.cid ≠ cid) :
      Move env P ⟨c, h⟩
        ⟨stamp c c.allocs [.strayCqe q cid], { h with ahead := h.ahead + ioOne q }⟩
  | takeMsg {c h} {i : Nat} {rest : List Nat}
      (hm : c.msgPort = i :: rest) (hh : h.io = none) (hq : P.queue) :
      Move env P ⟨c, h⟩ ⟨{ c with msgPort := rest }, { h with io := some i }⟩
  | takePending {c h} {i : Nat} {rest : List Nat}
      (hm : c.ioPending = i :: rest) (hh : h.io = none) (hq : P.queue) :
      Move env P ⟨c, h⟩ ⟨{ c with ioPending := rest }, { h with io := some i }⟩
  | stash {c h} {i : Nat} (hh : h.io = some i) (hq : P.queue) :
      Move env P ⟨c, h⟩ ⟨{ c with ioPending := c.ioPending ++ [i] }, { h with io := none }⟩
  | replyHand {c h} {i : Nat} (e : Int) (a : Nat) (hh : h.io = some i)
      (hwhy : Refusal env c i e ∨ P.abort) (hbad : e = 0 → ¬AsksRw env i) :
      Move env P ⟨c, h⟩ ⟨stamp c c.allocs [.reply i e a], { h with io := none }⟩
  | discardHand {c h} {i : Nat} (hh : h.io = some i)
      (ha : (env.ios i).command = .cmdInternalAbortRequest) :
      Move env P ⟨c, h⟩ ⟨stamp c c.allocs [.discardIo i], { h with io := none }⟩
  /-- a request is allocated and freed again for want of a tag -/
  | fizzleBare {c h} :
      Move env P ⟨c, h⟩ ⟨stamp c (c.allocs + 1) [.reqFree c.allocs], h⟩
  /-- a submission finds the ring full -/
  | refuse {c h} (q : QueueId) (hfree : (c.tab q).freeStack ≠ [])
      (hring : RingFull (c.tab q).depth (c.ring q)) :
      Move env P ⟨c, h⟩ ⟨stamp c c.allocs [.sqFull q], h⟩
  /-- a request is allocated, not submitted, and destroyed -/
  | fizzle {c h} (q : QueueId) {cid : Nat} {rest : List Nat} {n : Nat}
      {notes : List Effect} (hfree : (c.tab q).freeStack = cid :: rest)
      (hn : c.allocs < n) (hnotes : ∀ e, e ∈ notes → quietFor c.allocs e = true) :
      Move env P ⟨c, h⟩
        ⟨stamp (c.setTab q (bumped (c.tab q) cid rest)) n (.reqFree c.allocs :: notes), h⟩
  /-- the one command of a client request is submitted -/
  | launchIo {c h} {i cid : Nat} {rest : List Nat} {n us : Nat}
      {notes : List Effect} {r : Request} {t : Transfer}
      (hh : h.io = some i) (hreq : h.req = none) (hctx : h.ctx = none)
      (hfree : (c.tab .io).freeStack = cid :: rest)
      (hn : c.allocs < n) (hnotes : ∀ e, e ∈ notes → quiet e = true)
      (hkey : keyOf r = ⟨c.allocs, .io, some i, none, none, none⟩)
      (hcid : r.cid = cid) (hret : r.retries = 0)
      (hask : Asked env i t) (hcheck : Checked env t) (hone : Single env t)
      (hof : SingleOf env r t) (hroom : HasRoom c)
      (hring : ¬RingFull (c.tab .io).depth (c.ring .io))
      (hgate : P.launch c.state c.frozen) :
      Move env P ⟨c, h⟩
        ⟨sent c .io
            (nvmeInflightClaim (popped (c.tab .io) rest) cid { r with submitUs := us })
            n (.sqe (c.ring .io).sqTail r (some i) :: notes),
          { h with io := none }⟩
  /-- the next chunk of a context is submitted -/
  | launchSib {c h} {x cid : Nat} {rest : List Nat} {n us : Nat}
      {notes : List Effect} {r : Request} {ctx : IoContext}
      (hh : h.ctx = some x) (hreq : h.req = none) (hget : c.ctxs.get x = some ctx)
      (hfree : (c.tab .io).freeStack = cid :: rest)
      (hn : c.allocs < n) (hnotes : ∀ e, e ∈ notes → quiet e = true)
      (hkey : keyOf r = ⟨c.allocs, .io, none, some x, none, none⟩)
      (hcid : r.cid = cid) (hret : r.retries = 0) (hstall : ctx.stalled = false)
      (hmore : ctx.dispatched < ctx.totalBytes) (hcap : ctx.inflight < c.ioMaxInflight)
      (hof : ChunkOf env ctx r)
      (hring : ¬RingFull (c.tab .io).depth (c.ring .io))
      (hgate : P.launch c.state c.frozen) (hfresh : ctx.firstError = 0 ∨ P.spoil) :
      Move env P ⟨c, h⟩
        ⟨sent
            { c with
              ctxs := c.ctxs.modify x (fun y =>
                { y with
                  dispatched := y.dispatched + nextBytes env ctx
                  inflight := y.inflight + 1 }) } .io
            (nvmeInflightClaim (popped (c.tab .io) rest) cid { r with submitUs := us })
            n (.sqe (c.ring .io).sqTail r (some ctx.io) :: notes), h⟩
  /-- an admin command is submitted -/
  | launchAdmin {c h} {cid : Nat} {rest : List Nat} {n us : Nat}
      {notes : List Effect} {r : Request} {done : Option Done} {waiter : Option Waiter}
      (hfree : (c.tab .admin).freeStack = cid :: rest)
      (hn : c.allocs < n) (hnotes : ∀ e, e ∈ notes → quiet e = true)
      (hkey : keyOf r = ⟨c.allocs, .admin, none, none, done, waiter⟩)
      (hcid : r.cid = cid)
      (hchain : (keyOf r).isChain = true → P.stir ∧ h.owes = true)
      (hfeat : (keyOf r).isFeatures = true → c.ioTab = SlotTable.gone)
      (hname : r.cmd.commandId = r.cid) (hret : r.retries = 0) :
      Move env P ⟨c, h⟩
        ⟨sent c .admin
            (nvmeInflightClaim (popped (c.tab .admin) rest) cid { r with submitUs := us })
            n (.sqe (c.ring .admin).sqTail r none :: notes),
          { h with owes := h.owes && !(keyOf r).isChain }⟩
  | reapCqe {c h} (q : QueueId) {r : Request} {st res : Nat}
      (hread : (c.tab q).read (cidTag r.cid) = some r) (hh : h.req = none)
      (hctx : h.ctx = none) (hst : P.status q st) :
      Move env P ⟨c, h⟩
        ⟨stamp (c.setTab q (nvmeInflightRelease (c.tab q) r.cid)) c.allocs
            [.cqe q r.cid r.id st],
          { h with
            req := some ({ r with status := st, result := res })
            ahead := h.ahead + ioOne q }⟩
  | reapCancel {c h} (q : QueueId) {r : Request}
      (hread : (c.tab q).read (cidTag r.cid) = some r) (hh : h.req = none)
      (hctx : h.ctx = none) (hcancel : P.cancel q) :
      Move env P ⟨c, h⟩
        ⟨stamp (c.setTab q (nvmeInflightRelease (c.tab q) r.cid)) c.allocs
            [.cancel q r.id],
          { h with
            req := some ({ r with status := nvmeScHostAbortedCmd, cancelled := true }) }⟩
  /-- the request in hand is worked on: retried, given up on, its DMA resources
  released -/
  | revise {c h} {r r' : Request} {notes : List Effect} (hh : h.req = some r)
      (hkey : keyOf r' = keyOf r) (hcmd : r'.cmd = r.cmd) (hbuf : r'.userBuf = r.userBuf)
      (hlen : r'.userLen = r.userLen)
      (hfirst : r.status = 0 → r.retries = 0 → r'.status = 0 ∧ r'.retries = 0)
      (hnotes : ∀ e, e ∈ notes → quietFor r.id e = true) (hstat : Restated c r r') :
      Move env P ⟨c, h⟩ ⟨stamp c c.allocs notes, { h with req := some r' }⟩
  | park {c h} {r : Request} {d : Nat} (hh : h.req = some r) (hret : r.retries ≠ 0)
      (hdue : c.trace.countP (isSqe r.id) ≤ r.retries) (hlive : ¬Doomed r.id c.trace) :
      Move env P ⟨c, h⟩
        ⟨{ c with retryList := c.retryList ++ [{ r with deadlineUs := d }] },
          { h with req := none }⟩
  | unpark {c h} {r : Request} (hresume : P.resume) (hmem : r ∈ c.retryList)
      (hh : h.req = none)
      (hctx : h.ctx = none) (hroom : r.q = .admin ∨ HasRoom c ∨ P.exceed) :
      Move env P ⟨c, h⟩
        ⟨{ c with retryList := c.retryList.eraseP (fun x => x.id == r.id) },
          { h with req := some r }⟩
  | relaunch {c h} {r r' : Request} {cid : Nat} {rest : List Nat} {us : Nat}
      (hh : h.req = some r) (hctx : h.ctx = none)
      (hr' : r' = { r with cid := cid, cmd := { r.cmd with commandId := cid } })
      (hret : r.retries ≠ 0) (hfree : (c.tab r.q).freeStack = cid :: rest)
      (hring : ¬RingFull (c.tab r.q).depth (c.ring r.q))
      (hgate : r.q = .io → P.launch c.state c.frozen)
      (hdue : c.trace.countP (isSqe r.id) ≤ r.retries) (hlive : ¬Doomed r.id c.trace) :
      Move env P ⟨c, h⟩
        ⟨sent c r.q
            (nvmeInflightClaim (popped (c.tab r.q) rest) cid { r' with submitUs := us })
            c.allocs [.sqe (c.ring r.q).sqTail r' (c.ownerOf r)],
          { h with req := none }⟩
  /-- a retry finds no room in the ring and the request is destroyed -/
  | lose {c h} {r : Request} {cid : Nat} {rest : List Nat} {notes : List Effect}
      (hlose : P.lose (keyOf r)) (hh : h.req = some r)
      (hfree : (c.tab r.q).freeStack = cid :: rest)
      (hnotes : ∀ e, e ∈ notes → quietFor r.id e = true) :
      Move env P ⟨c, h⟩
        ⟨stamp (c.setTab r.q (bumped (c.tab r.q) cid rest)) c.allocs
            (.reqFree r.id :: notes),
          { h with req := none }⟩
  | endReply {c h} {r : Request} {i a : Nat} (hh : h.req = some r)
      (hio : r.io = some i) (hctx : r.ctx = none)
      (ha : a = if nvmeErrorStatus r.status = 0 then (env.ios i).ioLength else 0)
      (hdec : nvmeDecideDisposition r = .complete) :
      Move env P ⟨c, h⟩
        ⟨stamp c c.allocs [.reqFree r.id, .reply i (nvmeErrorStatus r.status) a],
          { h with req := none }⟩
  | endFree {c h} {r : Request} (hh : h.req = some r) (hdone : r.done ≠ none) :
      Move env P ⟨c, h⟩
        ⟨stamp c c.allocs [.reqFree r.id],
          { h with req := none, owes := h.owes || (keyOf r).isChain }⟩
  | endWait {c h} {r : Request} (hh : h.req = some r) (hdone : r.done = none)
      (hwait : r.waiter ≠ none) :
      Move env P ⟨c, h⟩ ⟨{ c with waiting := r :: c.waiting }, { h with req := none }⟩
  | endDrop {c h} {r : Request} (hh : h.req = some r) (hdone : r.done = none)
      (hio : r.io = none) (hctx : r.ctx = none) :
      Move env P ⟨c, h⟩ ⟨c, { h with req := none }⟩
  | collect {c h} {r : Request} {rest : List Request} (hw : c.waiting = r :: rest) :
      Move env P ⟨c, h⟩
        ⟨stamp { c with waiting := rest } c.allocs [.reqFree r.id], h⟩
  /-- a sibling has completed; its context is looked at next -/
  | sibDone {c h} {r : Request} {x : Nat} {ctx : IoContext} (hh : h.req = some r)
      (hctx : r.ctx = some x) (hget : c.ctxs.get x = some ctx) (hnone : h.ctx = none)
      (hdec : nvmeDecideDisposition r = .complete) :
      Move env P ⟨c, h⟩
        ⟨stamp { c with ctxs := c.ctxs.modify x (fun _ => ctx.siblingDone r) } c.allocs
            [.reqFree r.id],
          { h with req := none, ctx := some x }⟩
  | allocCtx {c h} {i : Nat} {ctx : IoContext} {t : Transfer} (hh : h.io = some i)
      (hreq : h.req = none) (hnone : h.ctx = none) (hio : ctx.io = i)
      (hinf : ctx.inflight = 0)
      (hdis : ctx.dispatched = 0) (herr : ctx.firstError = 0)
      (hstall : ctx.stalled = false) (hask : Asked env i t) (hcheck : Checked env t)
      (hof : ContextOf env ctx t) (hroom : HasRoom c) (hmany : ¬Single env t) :
      Move env P ⟨c, h⟩
        ⟨{ c with allocs := c.allocs + 1, ctxs := c.ctxs.insert c.allocs ctx },
          { h with io := none, ctx := some c.allocs }⟩
  | ctxError {c h} {x : Nat} {ctx : IoContext} (e : Int) (hh : h.ctx = some x)
      (hget : c.ctxs.get x = some ctx) (hstall : ctx.stalled = false)
      (he : e ≠ 0) (hwhy : ChunkFails env ctx ∨ P.abort) (hlatch : Latches env P ctx e) :
      Move env P ⟨c, h⟩
        ⟨{ c with ctxs := c.ctxs.modify x (fun y => { y with firstError := e }) }, h⟩
  | stall {c h} {x : Nat} {ctx : IoContext} (hh : h.ctx = some x)
      (hget : c.ctxs.get x = some ctx) (hidle : ctx.inflight = 0)
      (hstall : ctx.stalled = false) (hmore : ctx.dispatched < ctx.totalBytes)
      (hfresh : ctx.firstError = 0 ∨ P.spoil) :
      Move env P ⟨c, h⟩
        ⟨{ c with
            ctxs := c.ctxs.modify x (fun y => { y with stalled := true })
            ctxStalled := c.ctxStalled ++ [x] }, h⟩
  | unstall {c h} {x : Nat} {rest : List Nat} (hlist : c.ctxStalled = x :: rest)
      (hreq : h.req = none) (hnone : h.ctx = none) (hroom : HasRoom c ∨ P.abort) :
      Move env P ⟨c, h⟩
        ⟨{ c with
            ctxStalled := rest
            ctxs := c.ctxs.modify x (fun y => { y with stalled := false }) },
          { h with ctx := some x }⟩
  | dropCtx {c h} {x : Nat} {ctx : IoContext} (hh : h.ctx = some x)
      (hget : c.ctxs.get x = some ctx) (hheld : ctx.stalled = true ∨ 0 < ctx.inflight) :
      Move env P ⟨c, h⟩ ⟨c, { h with ctx := none }⟩
  | finish {c h} {x : Nat} {ctx : IoContext} {notes : List Effect} {sibs : Nat}
      (hh : h.ctx = some x) (hget : c.ctxs.get x = some ctx)
      (hidle : ctx.inflight = 0) (hstall : ctx.stalled = false)
      (hdone : ctx.firstError ≠ 0 ∨ ctx.totalBytes ≤ ctx.dispatched)
      (hsibs : sibs ≤ sibCount x ⟨c, h⟩)
      (hnotes : ∀ e, e ∈ notes → quiet e = true) :
      Move env P ⟨c, h⟩
        ⟨stamp { c with ctxs := c.ctxs.erase x } c.allocs
            (.ctxFree x ::
              .reply ctx.io ctx.firstError
                (if ctx.firstError ≠ 0 then 0 else ctx.totalBytes) ::
              (notes ++ [.ctxFinish x (decide (x ∈ c.ctxStalled)) sibs])),
          { h with ctx := none }⟩
  /-- a context whose first chunk failed is freed; its request is answered next -/
  | freeCtx {c h} {x : Nat} {ctx : IoContext} (hh : h.ctx = some x)
      (hget : c.ctxs.get x = some ctx) (hidle : ctx.inflight = 0)
      (hstall : ctx.stalled = false) (hio : h.io = none) (herr : ctx.firstError ≠ 0)
      (hnew : ctx.dispatched = 0) :
      Move env P ⟨c, h⟩
        ⟨stamp { c with ctxs := c.ctxs.erase x } c.allocs [.ctxFree x],
          { h with ctx := none, io := some ctx.io }⟩
  /-- the watchdog marks a request -/
  | touch {c h} (q : QueueId) {tag us : Nat} :
      Move env P ⟨c, h⟩
        ⟨c.setTab q ((c.tab q).edit tag (fun x =>
            { x with abortSent := true, abortUs := us })), h⟩
  /-- a queue is torn down, perhaps after the device was stopped -/
  | teardown {c h} (q : QueueId) {notes : List Effect} (hstir : P.stir)
      (hlose : ∀ r, r ∈ (c.tab q).occupants → P.lose (keyOf r))
      (hnotes : ∀ e, e ∈ notes → q = .io ∧ halting e = true)
      (hidle : h.ahead = 0 ∧ h.batch = false) :
      Move env P ⟨c, h⟩
        ⟨(stamp (c.setTab q SlotTable.gone) c.allocs
            (.teardown (c.tab q).occupants :: notes)).setRing q Ring.gone, h⟩
  | setup {c h} (q : QueueId) (hstir : P.stir) (hvac : Vacant (c.tab q))
      (hio : q = .io → h.owes = true)
      (hidle : h.ahead = 0 ∧ h.batch = false) :
      Move env P ⟨c, h⟩
        ⟨(stamp (c.setTab q (SlotTable.fresh (queueSize q) env.cfg.quirkSkipCidGen))
            c.allocs [.queueSetup q]).setRing q Ring.fresh, h⟩

end Ownership
end NvmeDriver
