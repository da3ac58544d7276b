import NvmeDriver.Engine.State

/-!
# Requests: tags, DMA resources, commands, submission

The in-flight table primitives of nvme_queue.h and the first three sections of
nvme_io.c.  A request that has been allocated sits in its slot from then on, so
"the request" of a function here is the content of a slot, named by its tag;
a request that a completion has taken out of its slot is passed by value.
-/

namespace NvmeDriver
namespace Engine

open Lib

/-! ### Tags -/

/-- `cid & 0x0fff`. -/
def cidTag (cid : Nat) : Nat := cid % 4096

/-- The CID a released slot is next handed out with. -/
def nextCid (skipCidGen : Bool) (cid : Nat) : Nat :=
  if skipCidGen then cidTag cid else (cid / 4096 + 1) % 16 * 4096 + cidTag cid

/-- `nvme_alloc_cid`; `none` is 0xFFFF. -/
def nvmeAllocCid (t : SlotTable) : Option (Nat × SlotTable) :=
  match t.freeStack with
  | [] => none
  | cid :: rest => some (cid, { t with freeStack := rest })

/-- `nvme_inflight_claim`. -/
def nvmeInflightClaim (t : SlotTable) (cid : Nat) (req : Request) : SlotTable :=
  { t with
    inflight := t.inflight.set (cidTag cid) (some req)
    inflightCount :=
      match t.read (cidTag cid) with
      | none => t.inflightCount + 1
      | some _ => t.inflightCount }

/-- `nvme_inflight_release`. -/
def nvmeInflightRelease (t : SlotTable) (cid : Nat) : SlotTable :=
  match t.read (cidTag cid) with
  | none => t
  | some _ =>
      { t with
        inflight := t.inflight.set (cidTag cid) none
        inflightCount := t.inflightCount - 1
        freeStack := nextCid t.skipCidGen cid :: t.freeStack }

/-- Release a slot of a queue. -/
def State.releaseSlot (s : State) (q : QueueId) (cid : Nat) : State :=
  s.setTab q (nvmeInflightRelease (s.tab q) cid)

/-! ### DMA resources -/

/-- `nvme_req_free_dma_buffers`: the auxiliary pages, last first, and the
bounce buffer.  Slab pages and `dma_zalloc` buffers are freed alike here. -/
def nvmeReqFreeDmaBuffers (s : State) (req : Request) : State :=
  let s₁ :=
    if req.prpList then
      req.prpPages.reverse.foldl (fun s p => s.log (.dmaFree req.id p)) s
    else s
  match req.bounceBuf with
  | none => s₁
  | some b => s₁.log (.dmaFree req.id b)

/-- The request as `nvme_req_free_dma_buffers` leaves it. -/
def Request.withoutDma (req : Request) : Request :=
  { req with
    prpList := false, prpSmall := false
    prpPages := if req.prpList then [] else req.prpPages
    bounceBuf := none }

/-- `req->ctx && req->ctx->data_precached`. -/
def ctxPrecached (s : State) (ctx : Option Nat) : Bool :=
  match ctx with
  | none => false
  | some c => (s.core.ctxs.get c).any (fun x => x.dataPrecached)

/-- The post-DMA work of a read in `nvme_cleanup_cmd`. -/
def nvmePostDma (s : State) (req : Request) : State :=
  if req.cmd.opcode = nvmeCmdRead ∧ req.userBuf ≠ 0 ∧ req.userLen ≠ 0 then
    match req.bounceBuf with
    | some b =>
        (s.log (.cacheInval b req.userLen)).log (.memcpy req.userBuf b req.userLen)
    | none =>
        if ctxPrecached s req.ctx then s
        else s.log (.cacheInval req.userBuf req.userLen)
  else s

/-- `nvme_cleanup_cmd`. -/
def nvmeCleanupCmd (s : State) (req : Request) : State × Request :=
  (nvmeReqFreeDmaBuffers (nvmePostDma s req) req, req.withoutDma)

/-- `nvme_req_destroy`, of the request in a slot. -/
def nvmeReqDestroy (s : State) (q : QueueId) (tag : Nat) : State :=
  match s.slot q tag with
  | none => s
  | some req =>
      (nvmeReqFreeDmaBuffers (s.releaseSlot q req.cid) req).log
        (.reqFree req.id)

/-- Take a tag for a zeroed request and claim its slot. -/
def allocRequest (env : Env) (s : State) (q : QueueId) (init : Request → Request)
    (noMemory noTag : Int) : State × Except Int Nat :=
  match s.allocate env with
  | (none, s₁) => (s₁, .error noMemory)
  | (some _, s₁) =>
      match nvmeAllocCid (s₁.tab q) with
      | none => (s₁.log (.reqFree s.core.allocs), .error noTag)
      | some (cid, t) =>
          (s₁.setTab q (nvmeInflightClaim t cid
            (init { id := s.core.allocs, q := q, cid := cid })), .ok (cidTag cid))

/-- `nvme_req_alloc_io`. -/
def nvmeReqAllocIo (env : Env) (s : State) (unit : Nat) (io : Option Nat) :
    State × Except Int Nat :=
  allocRequest env s .io (fun r => { r with io := io, unit := some unit })
    ioerrSelfTest ioerrUnitBusy

/-- `-ENOMEM`, `-EBUSY`, `-EIO`. -/
def errNoMem : Int := -12

def errBusy : Int := -16

def errIo : Int := -5

/-- `nvme_req_alloc_admin`. -/
def nvmeReqAllocAdmin (env : Env) (s : State) : State × Except Int Nat :=
  allocRequest env s .admin id errNoMem errBusy

/-! ### Submission -/

/-- `nvme_sq_commit`. -/
def nvmeSqCommit (s : State) (q : QueueId) : State :=
  let r := s.ring q
  if r.sqTail ≠ r.lastSqTail then
    (s.log (.sqDoorbell q r.sqTail)).setRing q { r with lastSqTail := r.sqTail }
  else s

/-- `nvme_sq_batch_begin`. -/
def nvmeSqBatchBegin (s : State) (q : QueueId) : State :=
  s.setRing q { s.ring q with sqBatchDepth := (s.ring q).sqBatchDepth + 1 }

/-- `nvme_sq_batch_end`. -/
def nvmeSqBatchEnd (s : State) (q : QueueId) : State :=
  if (s.ring q).sqBatchDepth = 0 then s
  else
    let s₁ := s.setRing q
      { s.ring q with sqBatchDepth := (s.ring q).sqBatchDepth - 1 }
    if (s₁.ring q).sqBatchDepth = 0 then nvmeSqCommit s₁ q else s₁

/-- No free slot in the ring, as `nvme_submit_io` sees it. -/
def sqFull (s : State) (q : QueueId) : Prop :=
  ((s.ring q).sqTail + 1) % (s.tab q).depth = (s.ring q).cqHead

instance (s : State) (q : QueueId) : Decidable (sqFull s q) :=
  inferInstanceAs (Decidable (_ = _))

/-- `nvme_submit_io` past its checks: the SQE, the tail, the doorbell. -/
def writeSqe (env : Env) (s : State) (q : QueueId) (tag : Nat) (req : Request) : State :=
  let r := s.ring q
  let s₁ := s.log (.sqe r.sqTail req (s.core.ownerOf req))
  let s₂ := s₁.setRing q { r with sqTail := (r.sqTail + 1) % (s.tab q).depth }
  let t := s₂.getTime env
  let s₃ := t.2.editSlot q tag (fun x => { x with submitUs := t.1 })
  if r.sqBatchDepth = 0 then nvmeSqCommit s₃ q else s₃

/-- `nvme_submit_io`, of the request in a slot. -/
def nvmeSubmitIo (env : Env) (s : State) (q : QueueId) (tag : Nat) : State × Int :=
  match s.slot q tag with
  | none => (s, ioerrBadAddress)
  | some req =>
      if (s.tab q).present = false then (nvmeReqDestroy s q tag, ioerrBadAddress)
      else if sqFull s q then (nvmeReqDestroy (s.log (.sqFull q)) q tag, ioerrUnitBusy)
      else (writeSqe env s q tag req, nvmeIoAsync)

/-! ### Building commands -/

/-- `nvme_needs_bounce`. -/
def nvmeNeedsBounce (env : Env) (buffer len : Nat) (toDevice : Bool) : Bool :=
  if !env.reachable buffer len then true
  else if toDevice then buffer % 4 != 0
  else buffer % 64 != 0

/-- `nvme_rw_chunk_cap`; 0 is unlimited. -/
def nvmeRwChunkCap (cfg : Config) (shift lba : Nat) : Nat :=
  let cap := cfg.maxTransferBytes
  if cfg.quirkStripeSize = true ∧ cfg.maxHwSectors ≠ 0 ∧
      cfg.maxHwSectors &&& (cfg.maxHwSectors - 1) = 0 ∧ 9 ≤ shift then
    let stripeBlocks := cfg.maxHwSectors / 2 ^ (shift - 9)
    if stripeBlocks = 0 then cap
    else
      let toBoundary := stripeBlocks - (lba &&& (stripeBlocks - 1))
      let toBytes := toBoundary * 2 ^ shift % 2 ^ 32
      if cap = 0 ∨ toBytes < cap then toBytes else cap
  else cap

/-- `le16((u16)(blocks - 1))`. -/
def nlbField (blocks : Nat) : Nat := (blocks + 2 ^ 32 - 1) % 2 ^ 16

/-- NSID and block shift of a request's unit. -/
def unitNsid (env : Env) (req : Request) : Nat :=
  match req.unit with
  | none => 0
  | some u => (env.units u).nsid

def unitShift (env : Env) (req : Request) : Nat :=
  match req.unit with
  | none => 9
  | some u => (env.units u).blockShift

/-- The second half of `nvme_setup_rw`: command, PRPs, cache maintenance. -/
def setupRwCmd (env : Env) (s : State) (tag : Nat) (req : Request)
    (lba count opcode dmaBuf bytes : Nat) : State × Int :=
  let slab := fun k => env.alloc (s.core.allocs + k)
  let p := Prp.buildPrps slab slab s.ctl.mem 0 dmaBuf bytes
  let cmd : Command :=
    { opcode := opcode, commandId := req.cid, nsid := unitNsid env req
      slba := lba, length := nlbField count, prp1 := p.prp1, prp2 := p.prp2 }
  let s₁ : State :=
    { core := { s.core with
        allocs := s.core.allocs + (p.prpPages.length + p.freed.length + 1) }
      ctl := { s.ctl with mem := p.mem } }
  let s₂ := s₁.editSlot .io tag (fun x =>
    { x with
      cmd := cmd, prpPages := p.prpPages
      prpList := p.prpList, prpSmall := p.prpSmall })
  if p.ok then
    if dmaBuf ≠ 0 ∧ bytes ≠ 0 ∧
        ¬(ctxPrecached s req.ctx = true ∧ req.bounceBuf = none) then
      (s₂.log (.cacheFlush dmaBuf bytes (opcode == nvmeCmdWrite)), 0)
    else (s₂, 0)
  else (p.freed.foldl (fun s a => s.log (.dmaFree req.id a)) s₂, ioerrSelfTest)

/-- `nvme_setup_rw`. -/
def nvmeSetupRw (env : Env) (s : State) (tag : Nat)
    (lba count opcode buffer : Nat) : State × Int :=
  match s.slot .io tag with
  | none => (s, ioerrSelfTest)
  | some req =>
      let bytes := count * 2 ^ unitShift env req % 2 ^ 32
      let req₁ := { req with userBuf := buffer, userLen := bytes, bounceBuf := none }
      let s₁ := s.editSlot .io tag (fun _ => req₁)
      if buffer ≠ 0 ∧ bytes ≠ 0 ∧
          nvmeNeedsBounce env buffer bytes (opcode == nvmeCmdWrite) = true then
        match s₁.allocate env with
        | (none, s₂) => (s₂, ioerrSelfTest)
        | (some b, s₂) =>
            let req₂ := { req₁ with bounceBuf := some b }
            let s₃ := s₂.editSlot .io tag (fun _ => req₂)
            let s₄ :=
              if opcode = nvmeCmdWrite then s₃.log (.memcpy b buffer bytes) else s₃
            setupRwCmd env s₄ tag req₂ lba count opcode b bytes
      else setupRwCmd env s₁ tag req₁ lba count opcode buffer bytes

/-- `NVME_WZ_DEAC`, `NVME_DSMGMT_AD`. -/
def nvmeWzDeac : Nat := 0x200

def nvmeDsmgmtAd : Nat := 4

/-- Whether the namespace of a request supports DEAC. -/
def unitDeac (s : State) (req : Request) : Bool :=
  match req.unit with
  | none => false
  | some u => s.ctl.deac u

/-- `nvme_setup_write_zeroes`. -/
def nvmeSetupWriteZeroes (env : Env) (s : State) (tag slba blocks : Nat) : State :=
  s.editSlot .io tag (fun x =>
    { x with cmd :=
      { opcode := nvmeCmdWriteZeroes, commandId := x.cid, nsid := unitNsid env x
        slba := slba, length := nlbField blocks
        control := if unitDeac s x then nvmeWzDeac else 0 } })

/-- `nvme_setup_flush`. -/
def nvmeSetupFlush (env : Env) (s : State) (tag : Nat) : State :=
  s.editSlot .io tag (fun x =>
    { x with cmd :=
      { opcode := nvmeCmdFlush, commandId := x.cid, nsid := unitNsid env x } })

/-- `nvme_setup_dsm`: whether it accepted the ranges. -/
def nvmeSetupDsm (env : Env) (s : State) (tag buffer : Nat)
    (ranges : List DsmRange) (nr : Nat) : State × Bool :=
  if nr = 0 ∨ nvmeDsmMaxRanges < nr then (s, false)
  else
    ((s.log (.cacheFlush buffer 4096 true)).editSlot .io tag (fun x =>
      { x with
        cmd :=
          { opcode := nvmeCmdDsm, commandId := x.cid, nsid := unitNsid env x
            nr := nr - 1, attributes := nvmeDsmgmtAd, ranges := ranges
            prp1 := buffer }
        prpPages := [buffer], prpList := true }), true)

end Engine
end NvmeDriver
