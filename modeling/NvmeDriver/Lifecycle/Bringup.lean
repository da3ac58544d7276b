import NvmeDriver.Engine.State
import NvmeDriver.Lib.Ledger
import NvmeDriver.Lib.Tries

/-!
# Bringing a controller up

`nvme_probe_controller` and the functions it calls, as far as they take and give back
resources: the board, the two memory pools, the slab caches, the two tasks with their
ports and signals, the interrupt, the queue rings, and what is allocated from the DMA
pool on the way (nvme_probe.c, nvme_queue.c, nvme_ctrl.c, nvme_admin.c, unit_task.c,
admin_task.c, irq.c).  What can fail takes its outcome from `answers`, in the order the
code meets it.
-/

namespace NvmeDriver
namespace Lifecycle

open Engine (CtrlState QueueId ctrlTransition)
open Lib (Ledger Tries)

/-! ### Resources -/

/-- The blocks of a queue. -/
inductive Part
  | sq
  | cq
  | inflight
  | freeStack
deriving DecidableEq, Repr

inductive Slab
  | req
  | ctx
  | prpLarge
  | prpSmall
deriving DecidableEq, Repr

inductive Resource
  | board
  | dmaPool
  | metaPool
  | slab (k : Slab)
  /-- the unit task with its message port, its signals and its timer -/
  | unitTask
  | msgPort
  | irqSignal
  | resetSignal
  | tick
  /-- AdminWorker with its port and signals -/
  | adminTask
  | adminPort
  | scanSignal
  | fwActSignal
  | interrupt
  | queue (q : QueueId) (part : Part)
  | effects
  /-- the Host Memory Buffer with its descriptors -/
  | hostMem
  /-- the buffer of an Identify Controller -/
  | identify
  /-- the buffer of a Host Behavior Support feature -/
  | hostBehavior
deriving DecidableEq, Repr

def Part.all : List Part := [.sq, .cq, .inflight, .freeStack]

/-- The blocks of a queue in the order `nvme_setup_queue` takes them. -/
def queueBlocks (q : QueueId) : List Resource := Part.all.map (.queue q)

def unitTaskResources : List Resource := [.unitTask, .msgPort, .irqSignal, .resetSignal, .tick]

def adminTaskResources : List Resource := [.adminTask, .adminPort, .scanSignal, .fwActSignal]

/-- `slab_cache_init` in order; they are destroyed in reverse order. -/
def slabs : List Resource := [.slab .req, .slab .ctx, .slab .prpLarge, .slab .prpSmall]

/-- The pools a block comes from. -/
def inDmaPool : Resource → Bool
  | .queue _ .sq | .queue _ .cq | .effects | .hostMem | .identify | .hostBehavior => true
  | _ => false

def inMetaPool : Resource → Bool
  | .queue _ .inflight | .queue _ .freeStack => true
  | _ => false

/-! ### State -/

/-- What `struct NVMeController` says it has. -/
structure Ctrl where
  bar0 : Bool
  dmaPool : Bool
  metaPool : Bool
  slabs : Bool
  unitTask : Bool
  adminTask : Bool
  /-- `irq_isr` is attached -/
  attached : Bool
  queues : QueueId → Part → Bool
  effects : Bool
  /-- `hmb_descs` -/
  hostMem : Bool
  identified : Bool
  state : CtrlState
  /-- CC.EN and CC.SHN -/
  enabled : Bool
  shutdown : Bool

/-- The controller, the ledger and the outcomes to come. -/
structure World where
  ctrl : Ctrl
  ledger : Ledger Resource
  answers : List Bool
  /-- the rings the controller has been told of: ASQ and ACQ, Create I/O CQ and SQ -/
  told : QueueId → Part → Bool
  /-- a ring it has been told of was freed while CC.EN was set and no shutdown requested -/
  exposed : Bool
  /-- CSTS.RDY never came, or the Create command of a queue failed -/
  mishap : Bool
  /-- `nvme_init_identify` has its buffer -/
  idBuffer : Bool
  /-- `nvme_configure_host_options` has returned without freeing its buffer -/
  lost : Bool

/-- The controller as `AllocMem` with `MEMF_CLEAR` gives it. -/
def Ctrl.zero : Ctrl :=
  { bar0 := false, dmaPool := false, metaPool := false, slabs := false, unitTask := false
    adminTask := false, attached := false, queues := fun _ _ => false, effects := false
    hostMem := false, identified := false, state := .new, enabled := false, shutdown := false }

def World.start (answers : List Bool) : World :=
  { ctrl := .zero, ledger := .empty, answers := answers, told := fun _ _ => false
    exposed := false, mishap := false, idBuffer := false, lost := false }

/-- The outcome of the next thing that can fail; with none left it fails. -/
def World.ask (w : World) : Bool × World :=
  (w.answers.headD false, { w with answers := w.answers.tail })

def World.take (w : World) (r : Resource) : World := { w with ledger := w.ledger.take r }

def World.give (w : World) (r : Resource) : World := { w with ledger := w.ledger.give r }

/-- Resources taken in order, as by a chain of `goto` labels that unwinds it. -/
def World.takeChain (w : World) (rs : List Resource) : Bool × World :=
  let out := Lib.Ledger.chain rs w.answers w.ledger
  (out.1, { w with answers := out.2.1, ledger := out.2.2 })

def World.giveEach (w : World) (rs : List Resource) : World :=
  { w with ledger := w.ledger.giveEach rs }

/-- The memory of a queue goes while the controller may still use it. -/
def World.exposes (w : World) (q : QueueId) : Bool :=
  w.ctrl.enabled && !w.ctrl.shutdown &&
    Part.all.any fun part => w.ctrl.queues q part && w.told q part

/-! ### The board, the pools and the slabs -/

/-- `hw_init`. -/
def hwInit (w : World) : Bool × World :=
  let supported := w.ask
  if !supported.1 then (false, supported.2) else
  let owned := supported.2.ask
  if !owned.1 then (false, owned.2) else
  let mapped := (owned.2.take .board).ask
  if !mapped.1 then (false, mapped.2.give .board) else
  (true, { mapped.2 with ctrl.bar0 := true })

/-- `hw_shutdown`. -/
def hwShutdown (w : World) : World :=
  { w.give .board with ctrl.bar0 := false }

/-- `dma_pool_delete`: the pool goes with its blocks. -/
def dmaPoolDelete (w : World) : World :=
  { w with
    ledger := (w.ledger.giveAll inDmaPool).give .dmaPool
    exposed := w.exposed || w.exposes .admin || w.exposes .io
    ctrl.dmaPool := false }

/-- `DeletePool`. -/
def metaPoolDelete (w : World) : World :=
  { w with
    ledger := (w.ledger.giveAll inMetaPool).give .metaPool
    ctrl.metaPool := false }

/-- `dma_pool_create`. -/
def dmaPoolCreate (w : World) : World :=
  let got := w.ask
  if got.1 then { got.2.take .dmaPool with ctrl.dmaPool := true } else got.2

/-- `CreatePool`. -/
def metaPoolCreate (w : World) : World :=
  let got := w.ask
  if got.1 then { got.2.take .metaPool with ctrl.metaPool := true } else got.2

/-- The two pools; where one of them is refused, the other one is deleted. -/
def createPools (w : World) : Bool × World :=
  let both := metaPoolCreate (dmaPoolCreate w)
  if both.ctrl.dmaPool && both.ctrl.metaPool then (true, both)
  else
    let one := if both.ctrl.dmaPool then dmaPoolDelete both else both
    (false, if one.ctrl.metaPool then metaPoolDelete one else one)

def slabCacheInits (w : World) : World :=
  { w with ledger := w.ledger.takeEach slabs, ctrl.slabs := true }

def slabCacheDestroys (w : World) : World :=
  { w.giveEach slabs.reverse with ctrl.slabs := false }

/-! ### Tasks and the interrupt -/

/-- `drv_task_spawn` of `UnitTask`, up to the signal for its parent. -/
def spawnUnitTask (w : World) : Bool × World :=
  let up := w.takeChain unitTaskResources
  (up.1, if up.1 then { up.2 with ctrl.unitTask := true } else up.2)

/-- `drv_task_spawn` of `AdminWorker`. -/
def spawnAdminWorker (w : World) : Bool × World :=
  let up := w.takeChain adminTaskResources
  (up.1, if up.1 then { up.2 with ctrl.adminTask := true } else up.2)

/-- `drv_task_join`: the task leaves its loop and gives back what it has. -/
def joinUnitTask (w : World) : World :=
  if w.ctrl.unitTask then
    { w.giveEach unitTaskResources.reverse with ctrl.unitTask := false }
  else w

def joinAdminWorker (w : World) : World :=
  if w.ctrl.adminTask then
    { w.giveEach adminTaskResources.reverse with ctrl.adminTask := false }
  else w

/-- `nvme_int_enable`. -/
def nvmeIntEnable (w : World) : Bool × World :=
  let got := w.ask
  (got.1, if got.1 then { got.2.take .interrupt with ctrl.attached := true } else got.2)

/-- `nvme_int_shutdown`. -/
def nvmeIntShutdown (w : World) : World :=
  if w.ctrl.bar0 then { w.give .interrupt with ctrl.attached := false } else w

/-! ### Queues -/

/-- `nvme_setup_queue`. -/
def nvmeSetupQueue (q : QueueId) (w : World) : Bool × World :=
  let up := w.takeChain (queueBlocks q)
  let parts : Part → Bool := fun _ => up.1
  (up.1, { up.2 with
    ctrl.queues := Function.update up.2.ctrl.queues q parts
    told := Function.update up.2.told q fun _ => false })

/-- `nvme_teardown_queue`. -/
def nvmeTeardownQueue (q : QueueId) (w : World) : World :=
  { w with
    ledger := w.ledger.giveEach ((Part.all.filter (w.ctrl.queues q)).map (.queue q))
    exposed := w.exposed || w.exposes q
    ctrl.queues := Function.update w.ctrl.queues q fun _ => false }

/-- `nvme_setup_admin_queue`: AQA, ASQ and ACQ tell the controller of the rings. -/
def nvmeSetupAdminQueue (w : World) : Bool × World :=
  let up := nvmeSetupQueue .admin w
  (up.1, if up.1 then
    { up.2 with told := Function.update up.2.told .admin fun part => part == .sq || part == .cq }
    else up.2)

/-- A command waited for. -/
def nvmeSubmitSyncCmd (w : World) : Bool × World := w.ask

/-- The address of an I/O ring goes to the controller; `ok` is what becomes of the
Create command.  The command is always written: the one before it succeeded and gave back
the request, the tag and the signal bit that this one takes, and with no other command
outstanding the admin ring has room. -/
def World.createQueue (w : World) (part : Part) (ok : Bool) : World :=
  { w with
    told := Function.update w.told .io (Function.update (w.told .io) part true)
    mishap := w.mishap || !ok }

/-- `nvme_setup_io_queue`. -/
def nvmeSetupIoQueue (w : World) : Bool × World :=
  let features := nvmeSubmitSyncCmd w
  if !features.1 then (false, features.2) else
  let up := nvmeSetupQueue .io features.2
  if !up.1 then (false, up.2) else
  let cq := nvmeSubmitSyncCmd up.2
  let w₁ := cq.2.createQueue .cq cq.1
  if !cq.1 then (false, nvmeTeardownQueue .io w₁) else
  let sq := nvmeSubmitSyncCmd w₁
  let w₂ := sq.2.createQueue .sq sq.1
  if !sq.1 then (false, nvmeTeardownQueue .io w₂) else (true, w₂)

/-! ### The controller -/

/-- `nvme_disable_ctrl`. -/
def nvmeDisableCtrl (shutdown : Bool) (w : World) : Bool × World :=
  ({ w with
      ctrl.shutdown := shutdown
      ctrl.enabled := if shutdown then w.ctrl.enabled else false
      told := if shutdown then w.told else Function.update w.told .io fun _ => false }).ask

/-- `nvme_enable_ctrl`: the page size may not fit, or CSTS.RDY never come. -/
def nvmeEnableCtrl (w : World) : Bool × World :=
  let fits := w.ask
  if !fits.1 then (false, fits.2) else
  let ready := ({ fits.2 with ctrl.enabled := true, ctrl.shutdown := false }).ask
  (ready.1, { ready.2 with mishap := ready.2.mishap || !ready.1 })

/-- `nvme_init_effects_log`. -/
def nvmeInitEffectsLog (w : World) : Bool × World :=
  let room := w.ask
  (room.1, if room.1 then { room.2.take .effects with ctrl.effects := true } else room.2)

/-- `nvme_get_effects_log`, and for a failure whether it is an errno.  The answers are
whether a buffer is there, whether the log was read, and if not, whether with an errno. -/
def nvmeGetEffectsLog (w : World) : Bool × Bool × World :=
  let room := w.ask
  if !room.1 then (false, true, room.2) else
  let log := (room.2.take .effects).ask
  if log.1 then (true, false, { log.2 with ctrl.effects := true }) else
  let errno := (log.2.give .effects).ask
  (false, errno.1, errno.2)

/-- `nvme_init_effects`; the first answer is whether LPA has the log. -/
def nvmeInitEffects (w : World) : Bool × World :=
  if w.ctrl.effects then (true, w) else
  let lpa := w.ask
  if !lpa.1 then nvmeInitEffectsLog lpa.2 else
  let log := nvmeGetEffectsLog lpa.2
  if log.1 then (true, log.2.2)
  else if log.2.1 then (false, log.2.2)
  else nvmeInitEffectsLog log.2.2

/-- `nvme_init_identify`. -/
def nvmeInitIdentify (w : World) : Bool × World :=
  let room := w.ask
  if !room.1 then (false, room.2) else
  let read := { room.2.take .identify with idBuffer := true }.ask
  if !read.1 then (false, { read.2.give .identify with idBuffer := false }) else
  let effects := if read.2.ctrl.identified then (true, read.2) else nvmeInitEffects read.2
  (effects.1, { effects.2.give .identify with idBuffer := false })

/-- `nvme_configure_host_options`.  The answers are whether a buffer is there, whether ACRE
or LBAFEE is wanted and whether the feature is set without an errno. -/
def nvmeConfigureHostOptions (w : World) : Bool × World :=
  let room := w.ask
  if !room.1 then (true, room.2) else
  let wanted := (room.2.take .hostBehavior).ask
  if !wanted.1 then (true, { wanted.2 with lost := true }) else
  let set := wanted.2.ask
  (set.1, set.2.give .hostBehavior)

/-- `nvme_init_ctrl_finish`; the timestamp may fail with an errno. -/
def nvmeInitCtrlFinish (w : World) : Bool × World :=
  let identify := nvmeInitIdentify w
  if !identify.1 then (false, identify.2) else
  let timestamp := identify.2.ask
  if !timestamp.1 then (false, timestamp.2) else
  let options := nvmeConfigureHostOptions timestamp.2
  if !options.1 then (false, options.2) else
  (true, { options.2 with ctrl.identified := true })

/-- `nvme_setup_host_mem`, which leaves a buffer or none. -/
def nvmeSetupHostMem (w : World) : World :=
  let got := w.ask
  if got.1 then { got.2.take .hostMem with ctrl.hostMem := true } else got.2

/-- `nvme_free_host_mem`. -/
def nvmeFreeHostMem (w : World) : World :=
  if w.ctrl.hostMem then { w.give .hostMem with ctrl.hostMem := false } else w

/-- `nvme_change_ctrl_state`. -/
def changeState (w : World) (target : CtrlState) : World :=
  if ctrlTransition w.ctrl.state target then { w with ctrl.state := target } else w

/-! ### The probe and its labels -/

def failHw (w : World) : World := hwShutdown w

def failPool (w : World) : World :=
  failHw (metaPoolDelete (dmaPoolDelete (slabCacheDestroys w)))

def failUnitTask (w : World) : World := failPool (joinUnitTask w)

def failAdminTask (w : World) : World := failUnitTask (joinAdminWorker w)

def failInt (w : World) : World := failAdminTask (nvmeIntShutdown w)

def failAdmin (w : World) : World := failInt (nvmeTeardownQueue .admin w)

def failEnable (w : World) : World := failAdmin (nvmeDisableCtrl false w).2

/-- `nvme_probe_controller`. -/
def nvmeProbeController (w : World) : Bool × World :=
  let hw := hwInit w
  if !hw.1 then (false, hw.2) else
  let pools := createPools hw.2
  if !pools.1 then (false, failHw pools.2) else
  let unit := spawnUnitTask (slabCacheInits pools.2)
  if !unit.1 then (false, failPool unit.2) else
  let admin := spawnAdminWorker unit.2
  if !admin.1 then (false, failUnitTask admin.2) else
  let int := nvmeIntEnable admin.2
  if !int.1 then (false, failAdminTask int.2) else
  let disabled := nvmeDisableCtrl false int.2
  if !disabled.1 then (false, failInt disabled.2) else
  let adminQ := nvmeSetupAdminQueue disabled.2
  if !adminQ.1 then (false, failInt adminQ.2) else
  let enabled := nvmeEnableCtrl adminQ.2
  if !enabled.1 then (false, failAdmin enabled.2) else
  let ioQ := nvmeSetupIoQueue enabled.2
  if !ioQ.1 then (false, failEnable ioQ.2) else
  let finish := nvmeInitCtrlFinish (changeState ioQ.2 .connecting)
  if !finish.1 then (false, failEnable finish.2) else
  (true, changeState (nvmeSetupHostMem finish.2) .live)

/-! ### What a controller has -/

/-- The pool of a block of a queue. -/
def Ctrl.poolOf (c : Ctrl) : Part → Bool
  | .sq | .cq => c.dmaPool
  | .inflight | .freeStack => c.metaPool

/-- What the pointers of the controller name, and the buffer that none does. -/
def World.owns (w : World) : Resource → Bool
  | .board => w.ctrl.bar0
  | .dmaPool => w.ctrl.dmaPool
  | .metaPool => w.ctrl.metaPool
  | .slab _ => w.ctrl.slabs
  | .unitTask | .msgPort | .irqSignal | .resetSignal | .tick => w.ctrl.unitTask
  | .adminTask | .adminPort | .scanSignal | .fwActSignal => w.ctrl.adminTask
  | .interrupt => w.ctrl.attached
  | .queue q part => w.ctrl.queues q part && w.ctrl.poolOf part
  | .effects => w.ctrl.effects && w.ctrl.dmaPool
  | .hostMem => w.ctrl.hostMem && w.ctrl.dmaPool
  | .identify => w.idBuffer && w.ctrl.dmaPool
  | .hostBehavior => w.lost && w.ctrl.dmaPool

/-- The rungs of the bring-up: the board, the pools, the slabs, the unit task, AdminWorker,
the interrupt. -/
structure At (n : Nat) (c : Ctrl) : Prop where
  bar0 : c.bar0 = decide (1 ≤ n)
  dmaPool : c.dmaPool = decide (2 ≤ n)
  metaPool : c.metaPool = decide (2 ≤ n)
  slabs : c.slabs = decide (3 ≤ n)
  unitTask : c.unitTask = decide (4 ≤ n)
  adminTask : c.adminTask = decide (5 ≤ n)
  attached : c.attached = decide (6 ≤ n)

/-- The ledger holds just what the controller owns. -/
def Orderly (w : World) : Prop := w.ledger.Exactly w.owns

/-- The controller stands on a rung. -/
structure Standing (n : Nat) (w : World) : Prop where
  ledger : Orderly w
  rung : At n w.ctrl

/-- Neither queues nor anything of the DMA pool. -/
structure Blank (w : World) : Prop where
  queues : ∀ q part, w.ctrl.queues q part = false
  effects : w.ctrl.effects = false
  hostMem : w.ctrl.hostMem = false
  idBuffer : w.idBuffer = false
  lost : w.lost = false

/-- The controller climbs the rungs. -/
structure Climbing (n : Nat) (w : World) : Prop extends Standing n w, Blank w

end Lifecycle
end NvmeDriver
