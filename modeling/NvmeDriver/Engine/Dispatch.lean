import NvmeDriver.Engine.Completion

/-!
# Dispatch

From a client's `IOStdReq` to submitted commands: the readiness gate and the
public dispatchers of nvme_io.c, the block commands of unit_commands_scsi.c,
`ProcessCommand` (unit_commands.c) and `nvme_drain_msgport` (unit_task.c).
-/

namespace NvmeDriver
namespace Engine

open Lib
open Namespace (NVMeUnit lbaOutOfRange)
open Scsi (ScsiCmd scsiMakeSense loadBe)

/-! ### Readiness -/

/-- `nvme_check_ready`. -/
def nvmeCheckReady (s : State) : Bool := s.core.state == .live

/-- `nvme_fail_nonready_command`, of the request in a slot.  In a terminal state
the request completes while its slot still names it. -/
def nvmeFailNonreadyCommand (env : Env) (s : State) (tag : Nat) : State × Int :=
  match s.slot .io tag with
  | none => (s, ioerrUnitBusy)
  | some req =>
      let req₁ : Request :=
        { req with
          status := 0, retries := 0, cancelled := false, abortSent := false
          aer := false, prpList := false, prpSmall := false }
      let s₁ := s.editSlot .io tag (fun _ => req₁)
      if nvmeStateTerminal s = false ∧ req.cancelled = false then
        (nvmeReqDestroy s₁ .io tag, ioerrUnitBusy)
      else
        (nvmeCompleteRq env s₁ { req₁ with status := nvmeScHostPathError }, nvmeIoAsync)

/-- The refusal of a chunked transfer off LIVE. -/
def notReadyError (s : State) : Int :=
  if nvmeStateTerminal s then ioerrBadAddress else ioerrUnitBusy

/-! ### Dispatchers -/

/-- Allocate a context and start pumping it; a synchronous failure frees it. -/
def submitChunked (env : Env) (s : State) (ctx : IoContext) : State × Int :=
  match s.allocate env with
  | (none, s₁) => (s₁, ioerrSelfTest)
  | (some _, s₁) =>
      let c := s.core.allocs
      let s₂ : State := { s₁ with core := { s₁.core with ctxs := s₁.core.ctxs.insert c ctx } }
      let s₃ :=
        if ctx.dataPrecached then
          s₂.log (.cacheFlush ctx.userData ctx.totalBytes (ctx.opcode == nvmeCmdWrite))
        else s₂
      match nvmeIoContextPump env s₃ c with
      | (s₄, err) =>
          if err ≠ nvmeIoAsync then
            let s₅ := s₄.log (.ctxFree c)
            ({ s₅ with core := { s₅.core with ctxs := s₅.core.ctxs.erase c } }, err)
          else (s₄, nvmeIoAsync)

/-- The single-shot path of the dispatchers: a request, the readiness gate, a
setup that may fail, submission. -/
def submitSingle (env : Env) (s : State) (u io : Nat)
    (setup : State → Nat → State × Int) : State × Int :=
  match nvmeReqAllocIo env s u (some io) with
  | (s₁, .error e) => (s₁, e)
  | (s₁, .ok tag) =>
      if nvmeCheckReady s₁ = false then nvmeFailNonreadyCommand env s₁ tag
      else
        match setup s₁ tag with
        | (s₂, serr) =>
            if serr ≠ 0 then (nvmeReqDestroy s₂ .io tag, serr)
            else nvmeSubmitIo env s₂ .io tag

/-- `nvme_io_submit_rw`. -/
def nvmeIoSubmitRw (env : Env) (s : State) (u io lba blocks opcode buffer : Nat) :
    State × Int :=
  let unit := env.units u
  let bytes := blocks * 2 ^ unit.blockShift % 2 ^ 32
  let cap := nvmeRwChunkCap env.cfg unit.blockShift lba
  if bytes = 0 then (s, ioerrBadLength)
  else if buffer = 0 then (s, ioerrBadAddress)
  else if lbaOutOfRange unit lba blocks then (s, ioerrBadAddress)
  else if cap = 0 ∨ bytes ≤ cap then
    submitSingle env s u io (fun s tag => nvmeSetupRw env s tag lba blocks opcode buffer)
  else if nvmeCheckReady s = false then (s, notReadyError s)
  else
    submitChunked env s
      { io := io, unit := u, startLba := lba, totalBytes := bytes, opcode := opcode
        userData := buffer
        dataPrecached := !nvmeNeedsBounce env buffer bytes (opcode == nvmeCmdWrite) }

/-- `nvme_io_submit_flush`. -/
def nvmeIoSubmitFlush (env : Env) (s : State) (u io : Nat) : State × Int :=
  submitSingle env s u io (fun s tag => (nvmeSetupFlush env s tag, 0))

/-- `nvme_io_submit_dsm`; it owns the range buffer from here on. -/
def nvmeIoSubmitDsm (env : Env) (s : State) (u io buffer : Nat)
    (ranges : List DsmRange) (nr : Nat) : State × Int :=
  match nvmeReqAllocIo env s u (some io) with
  | (s₁, .error e) => (s₁.log (.dmaFreeOther buffer), e)
  | (s₁, .ok tag) =>
      if nvmeCheckReady s₁ = false then
        nvmeFailNonreadyCommand env (s₁.log (.dmaFreeOther buffer)) tag
      else
        match nvmeSetupDsm env s₁ tag buffer ranges nr with
        | (s₂, true) => nvmeSubmitIo env s₂ .io tag
        | (s₂, false) =>
            (nvmeReqDestroy (s₂.log (.dmaFreeOther buffer)) .io tag, ioerrSelfTest)

/-- `nvme_io_submit_write_zeroes`. -/
def nvmeIoSubmitWriteZeroes (env : Env) (s : State) (u io lba blocks : Nat) :
    State × Int :=
  let unit := env.units u
  if blocks = 0 then (s, ioerrBadLength)
  else if lbaOutOfRange unit lba blocks then (s, ioerrBadAddress)
  else if env.cfg.quirkDeallocateZeroes then
    match s.allocate env with
    | (none, s₁) => (s₁, ioerrSelfTest)
    | (some buffer, s₁) => nvmeIoSubmitDsm env s₁ u io buffer [⟨lba, blocks⟩] 1
  else if s.core.maxZeroesSectors = 0 then (s, ioerrNoCmd)
  else
    let bytes := blocks * 2 ^ unit.blockShift % 2 ^ 32
    if bytes ≤ unit.wzMaxBytes then
      submitSingle env s u io (fun s tag => (nvmeSetupWriteZeroes env s tag lba blocks, 0))
    else if nvmeCheckReady s = false then (s, notReadyError s)
    else
      submitChunked env s
        { io := io, unit := u, startLba := lba, totalBytes := bytes
          opcode := nvmeCmdWriteZeroes, userData := 0 }

/-! ### SCSI block commands -/

/-- The ranges of an UNMAP parameter list, as far as they pass the range
check; `none` when one does not. -/
def unmapRanges (unit : NVMeUnit) (param : List Nat) : Nat → Nat → Option (List DsmRange)
  | 0, _ => some []
  | n + 1, pos =>
      let slba := loadBe param pos 8
      let blocks := loadBe param (pos + 8) 4
      if lbaOutOfRange unit slba blocks then none
      else (unmapRanges unit param n (pos + 16)).map (fun l => ⟨slba, blocks⟩ :: l)

/-- `scsi_unmap`. -/
def scsiUnmap (env : Env) (s : State) (u io : Nat) (cmd : ScsiCmd) :
    State × Int × ScsiCmd :=
  let unit := env.units u
  let fail := fun (s : State) (e : Int) => (s, e, scsiMakeSense cmd 0 0 e)
  let nrRanges := loadBe cmd.payload 2 2 / 16
  if !env.cfg.oncsDsm then fail s ioerrNoCmd
  else if cmd.length = 0 ∨ cmd.data = 0 then (s, 0, { cmd with actual := 0 })
  else if cmd.length < 8 then fail s ioerrBadLength
  else if nrRanges = 0 then (s, 0, { cmd with actual := 0 })
  else if nvmeDsmMaxRanges < nrRanges then fail s ioerrNoCmd
  else if cmd.length < 8 + loadBe cmd.payload 2 2 then fail s ioerrBadLength
  else
    match s.allocate env with
    | (none, s₁) => fail s₁ ioerrSelfTest
    | (some buffer, s₁) =>
        match unmapRanges unit cmd.payload nrRanges 8 with
        | none => fail (s₁.log (.dmaFreeOther buffer)) ioerrBadAddress
        | some ranges =>
            match nvmeIoSubmitDsm env s₁ u io buffer ranges nrRanges with
            | (s₂, err) =>
                if err ≠ nvmeIoAsync then fail s₂ err
                else (s₂, nvmeIoAsync, { cmd with cmdActual := cmd.cmdLength, status := 0 })

/-- `scsi_sync_cache`. -/
def scsiSyncCache (env : Env) (s : State) (u io : Nat) (cmd : ScsiCmd) :
    State × Int × ScsiCmd :=
  match nvmeIoSubmitFlush env s u io with
  | (s₁, err) =>
      if err ≠ nvmeIoAsync then (s₁, err, scsiMakeSense cmd 0 0 err)
      else (s₁, nvmeIoAsync, { cmd with cmdActual := cmd.cmdLength, status := 0 })

/-- The LBA and block count of a READ or WRITE CDB, if it is one. -/
def scsiTransfer (cdb : List Nat) : Option (Nat × Nat) :=
  let op := cdb.getD 0 0
  if op = 0x08 ∨ op = 0x0A then
    let len := cdb.getD 4 0
    some (cdb.getD 1 0 % 32 * 2 ^ 16 + cdb.getD 2 0 * 2 ^ 8 + cdb.getD 3 0,
      if len = 0 then 256 else len)
  else if op = 0x28 ∨ op = 0x2A then some (loadBe cdb 2 4, loadBe cdb 7 2)
  else if op = 0x88 ∨ op = 0x8A then some (loadBe cdb 2 8, loadBe cdb 10 4)
  else none

/-- `do_scsi_transfer`. -/
def doScsiTransfer (env : Env) (s : State) (u io : Nat) (cmd : ScsiCmd)
    (lba count : Nat) : State × Int × ScsiCmd :=
  let unit := env.units u
  let fail := fun (s : State) (e : Int) =>
    (s, e, scsiMakeSense cmd (lba % 2 ^ 32) count e)
  if cmd.length / 2 ^ unit.blockShift < count then fail s ioerrBadLength
  else
    match nvmeIoSubmitRw env s u io lba count
        (if cmd.flagRead then nvmeCmdRead else nvmeCmdWrite) cmd.data with
    | (s₁, err) =>
        if err ≠ nvmeIoAsync then fail s₁ err
        else (s₁, nvmeIoAsync, { cmd with cmdActual := cmd.cmdLength, status := 0 })

/-- SCSI opcodes answered without the controller. -/
def scsiEmulated (op : Nat) : Bool :=
  op == 0x03 || op == 0x12 || op == 0x1A || op == 0x5A

/-- The switch of `handle_scsi_cmd`. -/
def scsiSwitch (env : Env) (s : State) (u io : Nat) (cmd : ScsiCmd) (cdb : List Nat) :
    State × Int × ScsiCmd :=
  let unit := env.units u
  let op := cdb.getD 0 0
  if op = 0x00 then (s, 0, { cmd with actual := 0 })
  else if scsiEmulated op then (s, env.emulate unit cmd)
  else if op = 0x25 then (s, Namespace.scsiReadCapacity10 unit cmd)
  else if op = 0x9E then (s, Namespace.scsiReadCapacity16 unit cmd)
  else if op = 0x42 then scsiUnmap env s u io cmd
  else if op = 0x35 then scsiSyncCache env s u io cmd
  else
    match scsiTransfer cdb with
    | some (lba, count) => doScsiTransfer env s u io cmd lba count
    | none => (s, ioerrNoCmd, scsiMakeSense cmd 0 0 ioerrNoCmd)

/-- `handle_scsi_cmd`. -/
def handleScsiCmd (env : Env) (s : State) (u io : Nat) (scsi : Option ScsiCmd) :
    State × Int :=
  match scsi with
  | none => (s, ioerrBadAddress)
  | some cmd =>
      match cmd.command with
      | none => (s, ioerrBadAddress)
      | some cdb =>
          if cmd.cmdLength < 6 then (s, ioerrBadLength)
          else
            match scsiSwitch env s u io { cmd with senseActual := 0 } cdb with
            | (s₁, error, cmd₁) =>
                if error = nvmeIoAsync then (s₁.log (.scsi io cmd₁), nvmeIoAsync)
                else
                  (s₁.log (.scsi io { cmd₁ with
                    cmdActual := cmd₁.cmdLength
                    status := if error ≠ 0 then Scsi.checkCondition else 0 }), error)

/-! ### `ProcessCommand` -/

/-- `decode_lba`. -/
def decodeLba (ioActual ioOffset blockShift : Nat) : Nat :=
  let hi := ioActual / 2 ^ blockShift
  let lo := (ioActual * 2 ^ (32 - blockShift) % 2 ^ 32) ||| (ioOffset / 2 ^ blockShift)
  hi * 2 ^ 32 + lo

/-- The commands that pass the high half of the byte offset in `io_Actual`. -/
def IoCommand.is64 : IoCommand → Bool
  | .tdRead64 | .tdWrite64 | .tdFormat64 | .nscmdTdRead64 | .nscmdTdWrite64
  | .nscmdTdFormat64 | .nscmdEtdRead64 | .nscmdEtdWrite64 | .nscmdEtdFormat64
  | .nscmdNvmeWriteZeroes => true
  | _ => false

/-- The opcode of a plain transfer command. -/
def IoCommand.transfer : IoCommand → Option Nat
  | .cmdRead | .etdRead | .tdRead64 | .nscmdTdRead64 | .nscmdEtdRead64 =>
      some nvmeCmdRead
  | .cmdWrite | .etdWrite | .tdWrite64 | .nscmdTdWrite64 | .nscmdEtdWrite64
  | .tdFormat | .etdFormat | .tdFormat64 | .nscmdTdFormat64 | .nscmdEtdFormat64 =>
      some nvmeCmdWrite
  | _ => none

/-- The LBA and block count `ProcessCommand` decodes. -/
def IoRequest.decode (r : IoRequest) (unit : NVMeUnit) : Nat × Nat :=
  (decodeLba (if r.command.is64 then r.ioActual else 0) r.ioOffset unit.blockShift,
    r.ioLength / 2 ^ unit.blockShift)

/-- A TRIM range is non-empty and passes the range check. -/
def trimRangeOk (unit : NVMeUnit) (r : DsmRange) : Bool :=
  decide (r.nlb ≠ 0) && !lbaOutOfRange unit r.slba r.nlb

/-- `sizeof(struct NVMeTrimRange)`. -/
def trimRangeBytes : Nat := 12

/-- `NSCMD_NVME_TRIM`. -/
def processTrim (env : Env) (s : State) (io : Nat) (r : IoRequest) : State × Int :=
  let unit := env.units r.unit
  let nr := if r.ioData = 0 then 0 else r.ioLength / trimRangeBytes
  if nr = 0 ∨ nvmeDsmMaxRanges < nr then (s, ioerrBadLength)
  else
    match s.allocate env with
    | (none, s₁) => (s₁, ioerrSelfTest)
    | (some buffer, s₁) =>
        let ranges := (List.range nr).map (fun i => r.trim.getD i ⟨0, 0⟩)
        if ranges.all (trimRangeOk unit) then
          nvmeIoSubmitDsm env s₁ r.unit io buffer ranges nr
        else (s₁.log (.dmaFreeOther buffer), ioerrBadAddress)

/-- The dispatch of one command; `nvmeIoAsync` when the reply comes later. -/
def dispatch (env : Env) (s : State) (io : Nat) (r : IoRequest) : State × Int :=
  let d := r.decode (env.units r.unit)
  match r.command with
  | .cmdStart | .cmdStop => (s, 0)
  | .nscmdNvmeWriteZeroes => nvmeIoSubmitWriteZeroes env s r.unit io d.1 d.2
  | .nscmdNvmeTrim => processTrim env s io r
  | .cmdUpdate | .etdUpdate => nvmeIoSubmitFlush env s r.unit io
  | .hdScsiCmd => handleScsiCmd env s r.unit io r.scsi
  | .other _ | .cmdInternalAbortRequest => (s, ioerrNoCmd)
  | cmd =>
      match cmd.transfer with
      | some opcode => nvmeIoSubmitRw env s r.unit io d.1 d.2 opcode r.ioData
      | none => (s, ioerrNoCmd)

/-- Whether a request works for a client request. -/
def worksFor (s : State) (target : Nat) (req : Request) : Bool :=
  req.io == some target ||
    (match req.ctx with
      | none => false
      | some c => (s.core.ctxs.get c).any (fun x => x.io == target))

/-- A context is read through a request; one that has been freed shows. -/
def State.readCtx (s : State) (ctx : Option Nat) : State :=
  match ctx with
  | none => s
  | some c => if (s.core.ctxs.get c).isSome then s else s.log .fault

/-- The loop of `nvme_io_abort` over the I/O table. -/
def ioAbortLoop (env : Env) (target : Nat) : List Nat → State → State
  | [], s => s
  | tag :: rest, s =>
      match s.slot .io tag with
      | none => ioAbortLoop env target rest s
      | some req =>
          let s₁ := s.readCtx req.ctx
          if worksFor s₁ target req then
            ioAbortLoop env target rest (nvmeSubmitAbortSqe env s₁ .io req.cid).1
          else ioAbortLoop env target rest s₁

/-- `nvme_io_abort`. -/
def nvmeIoAbort (env : Env) (s : State) (target : Nat) : State :=
  ioAbortLoop env target (List.range s.core.ioTab.depth) s

/-- `ProcessCommand`. -/
def processCommand (env : Env) (s : State) (io : Nat) : State :=
  let r := env.ios io
  if s.core.dead r.unit then s.log (.reply io tderrDiskChanged r.ioActual)
  else if r.command = .cmdInternalAbortRequest then
    (nvmeIoAbort env s r.target).log (.discardIo io)
  else
    match dispatch env s io r with
    | (s₁, error) => if error ≠ nvmeIoAsync then s₁.log (.reply io error 0) else s₁

/-! ### `nvme_drain_msgport` -/

/-- The I/O queue takes another command. -/
def hasRoom (s : State) : Prop := s.core.ioTab.inflightCount < s.core.ioMaxInflight

instance (s : State) : Decidable (hasRoom s) := inferInstanceAs (Decidable (_ < _))

/-- One parked context, already removed from the list, is pumped again; whether
it parked itself again. -/
def repump (env : Env) (s : State) (c : Nat) : State × Bool :=
  let s₁ := s.editCtx c (fun x => { x with stalled := false })
  match nvmeIoContextPump env s₁ c with
  | (s₂, err) =>
      match s₂.core.ctxs.get c with
      | none => (s₂.log .fault, true)
      | some ctx =>
          if ctx.stalled then (s₂, true)
          else if err ≠ nvmeIoAsync ∧ ctx.inflight = 0 then
            (nvmeIoContextFinish s₂ c, false)
          else (s₂, false)

/-- Loop 0 of `nvme_drain_msgport`: parked contexts.  A turn that does not stop
takes one context off the list for good. -/
def drainStalled (env : Env) : Nat → State → State
  | 0, s => s
  | n + 1, s =>
      if hasRoom s then
        match s.core.ctxStalled with
        | [] => s
        | c :: rest =>
            let s₁ : State := { s with core := { s.core with ctxStalled := rest } }
            match repump env s₁ c with
            | (s₂, true) => s₂
            | (s₂, false) => drainStalled env n s₂
      else s

/-- Loop 1: stashed requests. -/
def drainPending (env : Env) : Nat → State → State
  | 0, s => s
  | n + 1, s =>
      if hasRoom s then
        match s.core.ioPending with
        | [] => s
        | io :: rest =>
            let s₁ : State := { s with core := { s.core with ioPending := rest } }
            drainPending env n (processCommand env s₁ io)
      else s

/-- Loop 2: new messages. -/
def drainMessages (env : Env) : Nat → State → State
  | 0, s => s
  | n + 1, s =>
      match s.core.msgPort with
      | [] => s
      | io :: rest =>
          let s₁ : State := { s with core := { s.core with msgPort := rest } }
          if (env.ios io).command ≠ .cmdInternalAbortRequest ∧
              (¬hasRoom s₁ ∨ s₁.core.ioPending ≠ []) then
            drainMessages env n
              { s₁ with core := { s₁.core with ioPending := s₁.core.ioPending ++ [io] } }
          else drainMessages env n (processCommand env s₁ io)

/-- `nvme_drain_msgport`. -/
def nvmeDrainMsgport (env : Env) (s : State) : State :=
  if s.core.stopped ∨ s.core.frozen then s
  else
    let s₁ := nvmeSqBatchBegin s .io
    let s₂ := drainStalled env s₁.core.ctxStalled.length s₁
    let s₃ := drainPending env s₂.core.ioPending.length s₂
    let s₄ := drainMessages env s₃.core.msgPort.length s₃
    nvmeSqBatchEnd s₄ .io

end Engine
end NvmeDriver
