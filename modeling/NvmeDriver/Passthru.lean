import NvmeDriver.Engine.Completion

/-!
# Admin passthrough

`nvme_passthru_process` (nvme_passthru.c) with the synchronous submission it ends in
(nvme_admin.c).  A user's command goes through the completion path of every other
request, so a status that is neither final nor generic makes the driver place the same
command on the queue again.  What memory, tags, the ring and the controller answer is a
parameter, by how often each has been asked.
-/

namespace NvmeDriver
namespace Passthru

open Engine

/-! ### Commands -/

/-- `struct NVMePassthruCmd`; a pointer 0 is NULL. -/
structure NVMePassthruCmd where
  opcode : Nat
  flags : Nat := 0
  nsid : Nat := 0
  cdw2 : Nat := 0
  cdw3 : Nat := 0
  metadata : Nat := 0
  addr : Nat := 0
  metadataLen : Nat := 0
  dataLen : Nat := 0
  cdw10 : Nat := 0
  cdw11 : Nat := 0
  cdw12 : Nat := 0
  cdw13 : Nat := 0
  cdw14 : Nat := 0
  cdw15 : Nat := 0
deriving DecidableEq, Repr

/-- The common view of `struct nvme_command`, its fields as the controller reads them. -/
structure CommonCommand where
  opcode : Nat
  flags : Nat
  commandId : Nat := 0
  nsid : Nat
  cdw2 : Nat
  cdw3 : Nat
  prp1 : Nat := 0
  prp2 : Nat := 0
  cdw10 : Nat
  cdw11 : Nat
  cdw12 : Nat
  cdw13 : Nat
  cdw14 : Nat
  cdw15 : Nat
deriving DecidableEq, Repr

/-- The status, without the phase bit, and the first dword of a completion. -/
structure Answer where
  status : Nat
  result : Nat := 0
deriving DecidableEq, Repr

/-- What one command meets: `cid` and `room` are asked for the first submission and for
each retry by its number, `answer` for each SQE the controller fetches. -/
structure World where
  state : CtrlState := .live
  /-- `nvme_needs_bounce` of a buffer -/
  needsBounce : Nat → Nat → Bool := fun _ _ => false
  /-- `dma_alloc` -/
  bounce : Option Nat := none
  /-- `slab_zalloc` -/
  request : Bool := true
  /-- `AllocSignal` -/
  signal : Bool := true
  cid : Nat → Option Nat := some
  room : Nat → Bool := fun _ => true
  answer : Nat → Answer

/-- How a submission ends: it is refused, its waiter is signalled, or the request is
destroyed under a waiter that nobody signals. -/
inductive Ended
  | errno (err : Int)
  | done (status result : Nat)
  | lost
deriving DecidableEq, Repr

/-- The SQEs placed for one command, oldest first, and how it ends. -/
structure Life where
  sqes : List CommonCommand
  ended : Ended
deriving DecidableEq, Repr

/-! ### Submission and completion -/

/-- `nvme_init_request`: no SGLs. -/
def nvmeInitRequest (cmd : CommonCommand) : CommonCommand :=
  { cmd with flags := cmd.flags % 0x40 }

/-- `nvme_stage_admin_prps`. -/
def nvmeStageAdminPrps (cmd : CommonCommand) (buffer len : Nat) : CommonCommand :=
  if buffer = 0 ∨ len = 0 then cmd
  else
    let first := Prp.pageSize - buffer % Prp.pageSize
    { cmd with
      prp1 := buffer
      prp2 := if len ≤ first then 0 else (buffer + first) / Prp.pageSize * Prp.pageSize }

/-- `nvme_resubmit_io`; `complete` is `nvme_complete_rq`. -/
def nvmeResubmitIo (w : World)
    (complete : Request → CommonCommand → List CommonCommand → Life)
    (req : Request) (cmd : CommonCommand) (sqes : List CommonCommand) : Life :=
  match w.cid req.retries with
  | none => complete { req with status := nvmeScHostPathError } cmd sqes
  | some cid =>
      if w.room req.retries then
        let cmd₁ := { cmd with commandId := cid }
        let a := w.answer sqes.length
        complete { req with cid := cid, status := a.status, result := a.result } cmd₁
          (sqes ++ [cmd₁])
      else ⟨sqes, .lost⟩

/-- `nvme_retry_req`; a retry delay only postpones the resubmission to a later watchdog
tick. -/
def nvmeRetryReq (w : World)
    (complete : Request → CommonCommand → List CommonCommand → Life)
    (req : Request) (cmd : CommonCommand) (sqes : List CommonCommand) : Life :=
  nvmeResubmitIo w complete { req with status := 0, retries := req.retries + 1 } cmd sqes

/-- `nvme_complete_rq` of the waiter's request and everything it leads to; every turn
adds a retry. -/
def completeRq (w : World) : Nat → Request → CommonCommand → List CommonCommand → Life
  | 0, _, _, sqes => ⟨sqes, .lost⟩
  | fuel + 1, req, cmd, sqes =>
      match nvmeDecideDisposition req with
      | .complete => ⟨sqes, .done req.status req.result⟩
      | .retry => nvmeRetryReq w (completeRq w fuel) req cmd sqes

/-- The request of a synchronous command when its first completion arrives. -/
def firstCompletion (w : World) (cid : Nat) : Request :=
  { id := 0, q := .admin, cid := cid, waiter := some .otherTask
    status := (w.answer 0).status, result := (w.answer 0).result }

/-- `nvme_submit_sync_cmd`. -/
def nvmeSubmitSyncCmd (w : World) (cmd : CommonCommand) (buffer len : Nat) : Life :=
  if w.request = false then ⟨[], .errno errNoMem⟩
  else
    match w.cid 0 with
    | none => ⟨[], .errno errBusy⟩
    | some cid =>
        if w.signal = false then ⟨[], .errno errNoMem⟩
        else
          let cmd₁ := nvmeStageAdminPrps { nvmeInitRequest cmd with commandId := cid } buffer len
          if w.room 0 then
            completeRq w (nvmeMaxRetries + 1) (firstCompletion w cid) cmd₁ [cmd₁]
          else ⟨[], .errno errIo⟩

/-! ### The command -/

/-- A byte of an Amiga structure, which is signed. -/
def toByte (v : Nat) : Int := if v % 256 < 128 then v % 256 else (v % 256 : Int) - 256

/-- What the client gets back, if it gets anything, and the SQEs placed for it. -/
structure Outcome where
  sqes : List CommonCommand := []
  ioError : Option Int
  ioActual : Nat := 0
  result : Nat := 0
deriving DecidableEq, Repr

/-- The SQE before it gets its tag and its buffer. -/
def passthruCommand (uc : NVMePassthruCmd) : CommonCommand :=
  { opcode := uc.opcode, flags := uc.flags, nsid := uc.nsid
    cdw2 := uc.cdw2, cdw3 := uc.cdw3, cdw10 := uc.cdw10, cdw11 := uc.cdw11
    cdw12 := uc.cdw12, cdw13 := uc.cdw13, cdw14 := uc.cdw14, cdw15 := uc.cdw15 }

/-- The buffer is copied through a bounce buffer. -/
def wantsBounce (w : World) (uc : NVMePassthruCmd) : Prop :=
  uc.addr ≠ 0 ∧ uc.dataLen ≠ 0 ∧
    (w.needsBounce uc.addr uc.dataLen = true ∨ uc.dataLen % 64 ≠ 0)

instance (w : World) (uc : NVMePassthruCmd) : Decidable (wantsBounce w uc) :=
  inferInstanceAs (Decidable (_ ∧ _))

/-- The end of `nvme_passthru_process`: the status is squeezed into `io_Error`. -/
def replyPassthru (uc : NVMePassthruCmd) (life : Life) : Outcome :=
  match life.ended with
  | .lost => { sqes := life.sqes, ioError := none }
  | .errno _ => { sqes := life.sqes, ioError := some ioerrBadAddress }
  | .done status result =>
      { sqes := life.sqes, ioError := some (toByte status), ioActual := uc.dataLen
        result := result }

/-- `nvme_passthru_process` from the submission on. -/
def passthruSubmit (w : World) (uc : NVMePassthruCmd) (dmaBuf : Nat) : Outcome :=
  replyPassthru uc (nvmeSubmitSyncCmd w (passthruCommand uc) dmaBuf uc.dataLen)

/-- `nvme_passthru_process`; `isIo` tells `NSCMD_NVME_IO_PASS`. -/
def nvmePassthruProcess (w : World) (isIo : Bool) (uc : NVMePassthruCmd) : Outcome :=
  if w.state ≠ .live then { ioError := some ioerrUnitBusy }
  else if isIo then { ioError := some ioerrNoCmd }
  else if uc.metadata ≠ 0 ∨ uc.metadataLen ≠ 0 then { ioError := some ioerrBadLength }
  else if 1024 * 1024 < uc.dataLen then { ioError := some ioerrBadLength }
  else if wantsBounce w uc then
    match w.bounce with
    | none => { ioError := some ioerrBadAddress }
    | some buf => passthruSubmit w uc buf
  else passthruSubmit w uc uc.addr

/-! ### What is executed and reported -/

/-- The user's opcode and dwords. -/
def Carries (sqe : CommonCommand) (uc : NVMePassthruCmd) : Prop :=
  sqe.opcode = uc.opcode ∧ sqe.nsid = uc.nsid ∧ sqe.cdw2 = uc.cdw2 ∧ sqe.cdw3 = uc.cdw3 ∧
    sqe.cdw10 = uc.cdw10 ∧ sqe.cdw11 = uc.cdw11 ∧ sqe.cdw12 = uc.cdw12 ∧
    sqe.cdw13 = uc.cdw13 ∧ sqe.cdw14 = uc.cdw14 ∧ sqe.cdw15 = uc.cdw15

/-- `SCT = 0` and `SC = 0`. -/
def Succeeded (status : Nat) : Prop := statusCodeType status = 0 ∧ statusCode status = 0

/-- A first completion that is not retried: no bit of the status is set, DNR is set, or
the error is a generic one. -/
def Final (status : Nat) : Prop :=
  status = 0 ∨ statusDnr status = true ∨ statusCodeType status = 0 ∧ statusCode status ≠ 0

/-- Memory, a tag and a ring entry are there for the first submission. -/
def Submittable (w : World) (uc : NVMePassthruCmd) : Prop :=
  (wantsBounce w uc → w.bounce ≠ none) ∧ w.request = true ∧ w.cid 0 ≠ none ∧
    w.signal = true ∧ w.room 0 = true

/-- No retry finds a tag. -/
def NoRetryTag (w : World) : Prop := ∀ n, 0 < n → n ≤ nvmeMaxRetries → w.cid n = none

/-- The first completion decides: it is not retried and its type is not lost with the
upper bits of the status, or it has a type and no retry finds a tag. -/
def FirstAnswerStands (w : World) : Prop :=
  (Final (w.answer 0).status ∧
      (statusCode (w.answer 0).status = 0 → statusCodeType (w.answer 0).status = 0)) ∨
    (¬Final (w.answer 0).status ∧ statusCodeType (w.answer 0).status ≠ 0 ∧ NoRetryTag w)

/-- One SQE with the user's fields, and a reply that tells success from failure. -/
def OnceAndTruthful (w : World) (uc : NVMePassthruCmd) (out : Outcome) : Prop :=
  ∃ sqe error, out.sqes = [sqe] ∧ Carries sqe uc ∧ out.ioError = some error ∧
    (error = 0 ↔ Succeeded (w.answer 0).status)

section Life

variable {w : World} {uc : NVMePassthruCmd}

theorem toByte_eq_zero (v : Nat) : toByte v = 0 ↔ statusCode v = 0 := by
  unfold toByte statusCode
  split <;> omega

theorem carries_staged (uc : NVMePassthruCmd) (cid buffer len : Nat) :
    Carries (nvmeStageAdminPrps { nvmeInitRequest (passthruCommand uc) with commandId := cid }
      buffer len) uc := by
  unfold nvmeStageAdminPrps
  split
  · exact ⟨rfl, rfl, rfl, rfl, rfl, rfl, rfl, rfl, rfl, rfl⟩
  · exact ⟨rfl, rfl, rfl, rfl, rfl, rfl, rfl, rfl, rfl, rfl⟩

/-- The disposition of a request that has not been cancelled. -/
theorem disposition_retry_iff {req : Request} (hc : req.cancelled = false) :
    nvmeDecideDisposition req = .retry ↔
      ¬Final req.status ∧ req.retries < nvmeMaxRetries := by
  unfold nvmeDecideDisposition Final
  rw [hc]
  by_cases hz : req.status = 0
  · simp [hz]
  by_cases hd : statusDnr req.status = true
  · simp [hz, hd]
  by_cases hr : nvmeMaxRetries ≤ req.retries
  · simp [hz, hr]
  by_cases hg : statusCodeType req.status = 0 ∧ statusCode req.status ≠ 0
  · simp [hz, hd, hg]
  · rw [if_neg hz, if_neg (by simp [hd, hr]), if_neg hg]
    refine iff_of_true rfl ⟨?_, Nat.lt_of_not_le hr⟩
    rintro (h | h | h)
    · exact hz h
    · exact hd h
    · exact hg h

theorem disposition_complete {req : Request} (hc : req.cancelled = false)
    (hfin : Final req.status ∨ ¬req.retries < nvmeMaxRetries) :
    nvmeDecideDisposition req = .complete := by
  cases hd : nvmeDecideDisposition req with
  | complete => rfl
  | retry =>
      obtain ⟨hnf, hlt⟩ := (disposition_retry_iff hc).mp hd
      rcases hfin with h | h
      · exact absurd h hnf
      · exact absurd hlt h

theorem replyPassthru_sqes (life : Life) : (replyPassthru uc life).sqes = life.sqes := by
  unfold replyPassthru
  split <;> rfl

theorem replyPassthru_lost {life : Life} (hlost : life.ended = .lost) :
    (replyPassthru uc life).ioError = none := by
  unfold replyPassthru
  rw [hlost]

theorem not_final_hostPathError : ¬Final nvmeScHostPathError := by
  rintro (h | h | h)
  · exact absurd h (by decide)
  · exact absurd h (by decide)
  · exact absurd h.1 (by decide)

/-- A command never loses the SQEs placed for it. -/
theorem completeRq_grows (fuel : Nat) :
    ∀ (req : Request) (cmd : CommonCommand) (sqes : List CommonCommand),
      sqes.length ≤ (completeRq w fuel req cmd sqes).sqes.length := by
  induction fuel with
  | zero =>
      intro req cmd sqes
      exact le_rfl
  | succ fuel ih =>
      intro req cmd sqes
      unfold completeRq
      cases nvmeDecideDisposition req with
      | complete => exact le_rfl
      | retry =>
          dsimp only [nvmeRetryReq, nvmeResubmitIo]
          cases w.cid (req.retries + 1) with
          | none => exact ih _ _ _
          | some cid =>
              dsimp only
              split
              · refine le_trans ?_ (ih _ _ _)
                simp
              · exact le_rfl

/-- What becomes of a request that has to be retried: with no tag left it fails with a
path error, otherwise it goes out again or is lost. -/
theorem completeRq_retried (cmd : CommonCommand) (sqes : List CommonCommand) (fuel : Nat) :
    ∀ req : Request, req.cancelled = false → ¬Final req.status →
      req.retries < nvmeMaxRetries → nvmeMaxRetries < fuel + req.retries →
      ((∀ n, req.retries < n → n ≤ nvmeMaxRetries → w.cid n = none) →
        completeRq w fuel req cmd sqes = ⟨sqes, .done nvmeScHostPathError req.result⟩) ∧
      ((∃ n, req.retries < n ∧ n ≤ nvmeMaxRetries ∧ w.cid n ≠ none) →
        (completeRq w fuel req cmd sqes).ended = .lost ∨
          sqes.length < (completeRq w fuel req cmd sqes).sqes.length) := by
  induction fuel with
  | zero =>
      intro req _ _ hlt hfuel
      omega
  | succ fuel ih =>
      intro req hc hnf hlt hfuel
      have hdis := (disposition_retry_iff hc).mpr ⟨hnf, hlt⟩
      unfold completeRq
      rw [hdis]
      dsimp only [nvmeRetryReq, nvmeResubmitIo]
      cases htag : w.cid (req.retries + 1) with
      | some cid =>
          refine ⟨fun hnone => ?_, fun _ => ?_⟩
          · rw [hnone (req.retries + 1) (by omega) hlt] at htag
            cases htag
          · dsimp only
            split
            · right
              refine lt_of_lt_of_le ?_ (completeRq_grows fuel _ _ _)
              simp
            · exact .inl rfl
      | none =>
          dsimp only
          by_cases hlast : req.retries + 1 < nvmeMaxRetries
          · obtain ⟨h₁, h₂⟩ := ih
              { req with status := nvmeScHostPathError, retries := req.retries + 1 } hc
              not_final_hostPathError hlast
              (show nvmeMaxRetries < fuel + (req.retries + 1) by omega)
            refine ⟨fun hnone => h₁ fun n hn => hnone n (Nat.lt_of_succ_lt hn), ?_⟩
            rintro ⟨n, hn, hle, hsome⟩
            refine h₂ ⟨n, lt_of_le_of_ne hn fun heq => ?_, hle, hsome⟩
            exact hsome (heq ▸ htag)
          · obtain ⟨k, rfl⟩ : ∃ k, fuel = k + 1 := ⟨fuel - 1, by omega⟩
            refine ⟨fun _ => ?_, ?_⟩
            · unfold completeRq
              rw [disposition_complete (show ({ req with
                status := nvmeScHostPathError, retries := req.retries + 1 } : Request).cancelled =
                  false from hc) (.inr hlast)]
            · rintro ⟨n, hn, hle, hsome⟩
              have heq : n = req.retries + 1 := by omega
              exact absurd htag (heq ▸ hsome)

/-- A command that is submitted: all that matters is its first completion, and whether a
retry would find a tag. -/
theorem onceAndTruthful_submitted (hcid : ∃ cid, w.cid 0 = some cid) (hreq : w.request = true)
    (hsig : w.signal = true) (hroom : w.room 0 = true) (buffer : Nat) :
    OnceAndTruthful w uc (passthruSubmit w uc buffer) ↔ FirstAnswerStands w := by
  obtain ⟨cid, hcid⟩ := hcid
  let cmd := nvmeStageAdminPrps { nvmeInitRequest (passthruCommand uc) with commandId := cid }
    buffer uc.dataLen
  have hcarries : Carries cmd uc := carries_staged uc cid buffer uc.dataLen
  have hlife : nvmeSubmitSyncCmd w (passthruCommand uc) buffer uc.dataLen =
      completeRq w (nvmeMaxRetries + 1) (firstCompletion w cid) cmd [cmd] := by
    unfold nvmeSubmitSyncCmd
    simp only [hreq, hcid, hsig, hroom]
    rfl
  unfold passthruSubmit
  rw [hlife]
  by_cases hfin : Final (w.answer 0).status
  · have hdis : nvmeDecideDisposition (firstCompletion w cid) = .complete :=
      disposition_complete rfl (.inl hfin)
    have hrun : completeRq w (nvmeMaxRetries + 1) (firstCompletion w cid) cmd [cmd] =
        ⟨[cmd], .done (w.answer 0).status (w.answer 0).result⟩ := by
      unfold completeRq
      rw [hdis]
      rfl
    rw [hrun]
    constructor
    · rintro ⟨sqe, error, -, -, herr, hiff⟩
      cases herr
      refine .inl ⟨hfin, fun hsc => ?_⟩
      exact (hiff.mp ((toByte_eq_zero _).mpr hsc)).1
    · rintro (⟨-, hsct⟩ | ⟨hnot, -⟩)
      · refine ⟨cmd, _, rfl, hcarries, rfl, ?_⟩
        rw [toByte_eq_zero]
        exact ⟨fun hsc => ⟨hsct hsc, hsc⟩, fun h => h.2⟩
      · exact absurd hfin hnot
  · obtain ⟨hnone, hsome⟩ := completeRq_retried (w := w) cmd [cmd] (nvmeMaxRetries + 1)
      (firstCompletion w cid) rfl hfin (by decide : 0 < nvmeMaxRetries)
      (by decide : nvmeMaxRetries < nvmeMaxRetries + 1 + 0)
    by_cases htag : NoRetryTag w
    · rw [hnone htag]
      constructor
      · rintro ⟨sqe, error, -, -, herr, hiff⟩
        cases herr
        refine .inr ⟨hfin, fun hsct => ?_, htag⟩
        have hsc : statusCode (w.answer 0).status = 0 := by
          by_contra hne
          exact hfin (.inr (.inr ⟨hsct, hne⟩))
        exact absurd (hiff.mpr ⟨hsct, hsc⟩) (by decide)
      · rintro (⟨hyes, -⟩ | ⟨-, hsct, -⟩)
        · exact absurd hyes hfin
        · refine ⟨cmd, _, rfl, hcarries, rfl, ?_⟩
          exact iff_of_false (by decide) fun h => hsct h.1
    · have hex : ∃ n, 0 < n ∧ n ≤ nvmeMaxRetries ∧ w.cid n ≠ none := by
        by_contra hno
        exact htag fun n hpos hle => not_not.mp fun hn => hno ⟨n, hpos, hle, hn⟩
      refine iff_of_false ?_ ?_
      · rintro ⟨sqe, error, hsqes, -, herr, -⟩
        rw [replyPassthru_sqes] at hsqes
        rcases hsome hex with hlost | hlong
        · rw [replyPassthru_lost hlost] at herr
          cases herr
        · rw [hsqes] at hlong
          exact absurd hlong (lt_irrefl 1)
      · rintro (⟨hyes, -⟩ | ⟨-, -, hno⟩)
        · exact hfin hyes
        · exact htag hno

/-- A submission that is refused places no SQE. -/
theorem passthruSubmit_refused (buffer : Nat)
    (hno : ¬(w.request = true ∧ w.cid 0 ≠ none ∧ w.signal = true ∧ w.room 0 = true)) :
    (passthruSubmit w uc buffer).sqes = [] := by
  have hlife : ∃ err, nvmeSubmitSyncCmd w (passthruCommand uc) buffer uc.dataLen =
      ⟨[], .errno err⟩ := by
    unfold nvmeSubmitSyncCmd
    cases hreq : w.request with
    | false => exact ⟨_, rfl⟩
    | true =>
        cases hcid : w.cid 0 with
        | none => exact ⟨_, rfl⟩
        | some cid =>
            cases hsig : w.signal with
            | false => exact ⟨_, rfl⟩
            | true =>
                cases hroom : w.room 0 with
                | false => exact ⟨_, rfl⟩
                | true => exact absurd ⟨hreq, by simp [hcid], hsig, hroom⟩ hno
  obtain ⟨err, hlife⟩ := hlife
  unfold passthruSubmit
  rw [hlife, replyPassthru_sqes]

/-- The submission, with the buffer that was chosen. -/
theorem onceAndTruthful_passthruSubmit (buffer : Nat)
    (hbounce : wantsBounce w uc → w.bounce ≠ none) :
    OnceAndTruthful w uc (passthruSubmit w uc buffer) ↔
      Submittable w uc ∧ FirstAnswerStands w := by
  by_cases hok : w.request = true ∧ w.cid 0 ≠ none ∧ w.signal = true ∧ w.room 0 = true
  · obtain ⟨hreq, hcid, hsig, hroom⟩ := hok
    rw [onceAndTruthful_submitted (Option.ne_none_iff_exists'.mp hcid) hreq hsig hroom]
    exact (and_iff_right ⟨hbounce, hreq, hcid, hsig, hroom⟩).symm
  · refine iff_of_false ?_ fun h => hok h.1.2
    rintro ⟨sqe, error, hsqes, -⟩
    rw [passthruSubmit_refused buffer hok] at hsqes
    cases hsqes

end Life

/-- For every passthrough command that passes validation on a LIVE controller and every
answer of memory, tags, the ring and the controller: one SQE with the user's fields is
placed and the reply tells whether it succeeded, if and only if the submission finds what
it needs and either the first completion is not retried and does not have a status code 0
of a non-zero type, or it is to be retried, has a non-zero type, and no retry finds a
tag. -/
theorem passthru_once_and_truthful_iff (w : World) (uc : NVMePassthruCmd)
    (hlive : w.state = .live) (hmeta : uc.metadata = 0 ∧ uc.metadataLen = 0)
    (hlen : uc.dataLen ≤ 1024 * 1024) :
    OnceAndTruthful w uc (nvmePassthruProcess w false uc) ↔
      Submittable w uc ∧ FirstAnswerStands w := by
  have hmeta' : ¬(uc.metadata ≠ 0 ∨ uc.metadataLen ≠ 0) := by
    rintro (h | h)
    · exact h hmeta.1
    · exact h hmeta.2
  have hprocess : nvmePassthruProcess w false uc =
      if wantsBounce w uc then
        match w.bounce with
        | none => { ioError := some ioerrBadAddress }
        | some buf => passthruSubmit w uc buf
      else passthruSubmit w uc uc.addr := by
    unfold nvmePassthruProcess
    rw [if_neg (not_not.mpr hlive), if_neg hmeta', if_neg (Nat.not_lt.mpr hlen)]
    rfl
  rw [hprocess]
  by_cases hwants : wantsBounce w uc
  · rw [if_pos hwants]
    cases hb : w.bounce with
    | none =>
        refine iff_of_false ?_ fun h => h.1.1 hwants hb
        rintro ⟨sqe, error, hsqes, -⟩
        cases hsqes
    | some buf => exact onceAndTruthful_passthruSubmit buf fun _ => by simp [hb]
  · rw [if_neg hwants]
    exact onceAndTruthful_passthruSubmit uc.addr fun h => absurd h hwants

/-- An Identify Controller that succeeds. -/
theorem passthru_once_and_truthful_identify :
    OnceAndTruthful { answer := fun _ => ⟨0, 0⟩ } { opcode := 6, cdw10 := 1 }
      (nvmePassthruProcess { answer := fun _ => ⟨0, 0⟩ } false { opcode := 6, cdw10 := 1 }) :=
  (passthru_once_and_truthful_iff { answer := fun _ => ⟨0, 0⟩ } { opcode := 6, cdw10 := 1 }
    rfl ⟨rfl, rfl⟩ (by decide)).mpr
    ⟨⟨fun h => absurd rfl h.1, rfl, by simp, rfl, rfl⟩,
      .inl ⟨.inl rfl, fun _ => rfl⟩⟩

/-- A Format NVM that fails with a vendor-specific status and no DNR is executed six
times, and one whose command-specific status code is 0 is reported as a success. -/
theorem passthru_repeated_or_mistaken :
    (nvmePassthruProcess { answer := fun _ => ⟨0x7c0, 0⟩ } false
        { opcode := 0x80, nsid := 1 }).sqes.length = 6 ∧
      ¬OnceAndTruthful { answer := fun _ => ⟨0x7c0, 0⟩ } { opcode := 0x80, nsid := 1 }
        (nvmePassthruProcess { answer := fun _ => ⟨0x7c0, 0⟩ } false
          { opcode := 0x80, nsid := 1 }) ∧
      (nvmePassthruProcess { answer := fun _ => ⟨0x4100, 0⟩ } false
        { opcode := 0x80, nsid := 1 }).ioError = some 0 ∧
      ¬Succeeded 0x4100 := by
  have hsix : (nvmePassthruProcess { answer := fun _ => ⟨0x7c0, 0⟩ } false
      { opcode := 0x80, nsid := 1 }).sqes.length = 6 := by decide
  refine ⟨hsix, ?_, by decide, fun h => absurd h.1 (by decide)⟩
  rintro ⟨sqe, error, hsqes, -⟩
  rw [hsqes] at hsix
  cases hsix

end Passthru
end NvmeDriver
