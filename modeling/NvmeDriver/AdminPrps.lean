import NvmeDriver.Passthru
import NvmeDriver.PrpWalk

/-!
# Data pointers of admin commands

`nvme_stage_admin_prps` (nvme_admin.c) describes a data buffer by two data pointers and
never by a list.  `nvme_passthru_process` hands it buffers of up to 1 MiB at any address,
its own bounce buffers among them.  A controller takes PRP2 for a list as soon as more
than one page is left behind the first one, and then follows whatever the second page of
the buffer holds.
-/

namespace NvmeDriver
namespace Passthru

open Lib
open Prp
open Engine (Request nvmeDecideDisposition)

/-! ### What the controller has to find -/

/-- The walk moves exactly the page segments of the buffer, in order, and reads nothing
outside it. -/
def CoversBuffer (w : List Access) (buffer bytes : Nat) : Prop :=
  transfers w = pageSegments pageSize buffer bytes ∧
    ∀ a, a ∈ fetches w → buffer ≤ a ∧ a + 8 ≤ buffer + bytes

/-- A command with data that passes the checks of `nvme_passthru_process`. -/
structure Accepted (w : World) (uc : NVMePassthruCmd) : Prop where
  live : w.state = .live
  metadata : uc.metadata = 0 ∧ uc.metadataLen = 0
  data : uc.addr ≠ 0
  length : 1 ≤ uc.dataLen ∧ uc.dataLen ≤ 1024 * 1024

/-- The buffer the controller gets: the bounce buffer, if there is one. -/
def dmaBuffer (w : World) (uc : NVMePassthruCmd) : Option Nat :=
  if wantsBounce w uc then w.bounce else some uc.addr

/-- The data pointers of an SQE. -/
def pointers (sqe : CommonCommand) : Nat × Nat := (sqe.prp1, sqe.prp2)

section Walk

variable {buffer bytes : Nat}

/-- Past two pages the controller reads its second segment off the buffer. -/
theorem walk_takes_list (mem : Memory) (hlong : pageLeft pageSize buffer + pageSize < bytes) :
    ∃ rest, walk mem buffer (buffer + pageLeft pageSize buffer) bytes =
      .transfer buffer (pageLeft pageSize buffer) ::
        .fetch (buffer + pageLeft pageSize buffer) ::
        .transfer (mem (buffer + pageLeft pageSize buffer)) pageSize :: rest := by
  have hpage : pageSize = 4096 := rfl
  have haligned : (buffer + pageLeft pageSize buffer) % pageSize = 0 := by
    have := Nat.mod_lt buffer (by decide : 0 < pageSize)
    unfold pageLeft
    rw [hpage] at *
    omega
  obtain ⟨fuel, rfl⟩ : ∃ fuel, bytes = fuel + 1 := ⟨bytes - 1, by omega⟩
  rw [walk_list hlong]
  unfold walkList
  rw [if_neg (by omega), if_neg (by rw [haligned]; simp [hpage]),
    Nat.min_eq_left (by omega)]
  exact ⟨_, rfl⟩

/-- The two data pointers describe a buffer, whatever memory holds, exactly when it spans
at most two pages. -/
theorem covers_iff (hbuf : buffer ≠ 0) (hbytes : 0 < bytes) :
    (∀ mem, CoversBuffer (walk mem buffer
        (if bytes ≤ pageLeft pageSize buffer then 0 else buffer + pageLeft pageSize buffer)
        bytes) buffer bytes) ↔
      bytes ≤ pageLeft pageSize buffer + pageSize := by
  constructor
  · intro hall
    by_contra hlong
    have hlong : pageLeft pageSize buffer + pageSize < bytes := Nat.lt_of_not_le hlong
    have hshort : ¬bytes ≤ pageLeft pageSize buffer := by omega
    obtain ⟨rest, hwalk⟩ := walk_takes_list (fun _ => 0) hlong
    have hcover := (hall (fun _ => 0)).1
    rw [if_neg hshort, hwalk, pageSegments_long (by omega),
      alignedSegments_step (by decide) _ (by omega)] at hcover
    simp only [transfers, List.cons.injEq, Prod.mk.injEq] at hcover
    omega
  · intro hle mem
    have hne : bytes ≠ 0 := by omega
    by_cases hshort : bytes ≤ pageLeft pageSize buffer
    · simp [CoversBuffer, walk, pageSegments, hne, hshort]
    · have htwo : bytes - pageLeft pageSize buffer ≤ pageSize := by omega
      rw [if_neg hshort]
      unfold CoversBuffer
      rw [pageSegments_long (Nat.lt_of_not_le hshort),
        alignedSegments_step (by decide) _ (by omega), Nat.sub_eq_zero_of_le htwo,
        alignedSegments_zero (by decide)]
      simp [walk, hne, hshort, htwo]

end Walk

/-! ### The pointers of every SQE -/

section Pointers

variable {w : World} {uc : NVMePassthruCmd}

/-- Staging gives the two data pointers. -/
theorem pointers_staged (cmd : CommonCommand) {buffer len : Nat} (hbuf : buffer ≠ 0)
    (hlen : 0 < len) :
    pointers (nvmeStageAdminPrps cmd buffer len) =
      (buffer, if len ≤ pageLeft pageSize buffer then 0
        else buffer + pageLeft pageSize buffer) := by
  have hdiv : (buffer + pageLeft pageSize buffer) / pageSize * pageSize =
      buffer + pageLeft pageSize buffer := by
    have hpage : pageSize = 4096 := rfl
    have := Nat.mod_lt buffer (by decide : 0 < pageSize)
    unfold pageLeft
    rw [hpage] at *
    omega
  unfold nvmeStageAdminPrps
  rw [if_neg (by omega)]
  unfold pointers
  rw [← hdiv]
  rfl

/-- A retry keeps the data pointers. -/
theorem completeRq_pointers (fuel : Nat) :
    ∀ (req : Request) (cmd : CommonCommand) (sqes : List CommonCommand),
      (∀ sqe, sqe ∈ sqes → pointers sqe = pointers cmd) →
      ∀ sqe, sqe ∈ (completeRq w fuel req cmd sqes).sqes → pointers sqe = pointers cmd := by
  induction fuel with
  | zero =>
      intro req cmd sqes hall
      exact hall
  | succ fuel ih =>
      intro req cmd sqes hall
      unfold completeRq
      cases nvmeDecideDisposition req with
      | complete => exact hall
      | retry =>
          dsimp only [nvmeRetryReq, nvmeResubmitIo]
          cases w.cid (req.retries + 1) with
          | none => exact ih _ _ _ hall
          | some cid =>
              dsimp only
              split
              · refine ih _ { cmd with commandId := cid } _ fun sqe hsqe => ?_
                rcases List.mem_append.mp hsqe with hold | hnew
                · exact hall sqe hold
                · rw [List.mem_singleton.mp hnew]
              · exact hall

/-- A submission that finds what it needs places an SQE, and all of them point at the
buffer. -/
theorem passthruSubmit_pointers {buffer : Nat} (hsub : Submittable w uc) (hbuf : buffer ≠ 0)
    (hlen : 0 < uc.dataLen) :
    (passthruSubmit w uc buffer).sqes ≠ [] ∧
      ∀ sqe, sqe ∈ (passthruSubmit w uc buffer).sqes →
        pointers sqe = (buffer, if uc.dataLen ≤ pageLeft pageSize buffer then 0
          else buffer + pageLeft pageSize buffer) := by
  obtain ⟨-, hreq, hcid, hsig, hroom⟩ := hsub
  obtain ⟨cid, hcid⟩ := Option.ne_none_iff_exists'.mp hcid
  let cmd := nvmeStageAdminPrps { nvmeInitRequest (passthruCommand uc) with commandId := cid }
    buffer uc.dataLen
  have hlife : nvmeSubmitSyncCmd w (passthruCommand uc) buffer uc.dataLen =
      completeRq w (nvmeMaxRetries + 1) (firstCompletion w cid) cmd [cmd] := by
    unfold nvmeSubmitSyncCmd
    simp only [hreq, hcid, hsig, hroom]
    rfl
  unfold passthruSubmit
  rw [hlife, replyPassthru_sqes]
  constructor
  · intro hnil
    have hgrow := completeRq_grows (w := w) (nvmeMaxRetries + 1) (firstCompletion w cid) cmd [cmd]
    rw [hnil] at hgrow
    exact absurd hgrow (by simp)
  · intro sqe hsqe
    rw [completeRq_pointers _ _ cmd [cmd] (by simp) sqe hsqe]
    exact pointers_staged _ hbuf hlen

/-- The path from the checks to the submission. -/
theorem nvmePassthruProcess_accepted {buffer : Nat} (hok : Accepted w uc)
    (hdma : dmaBuffer w uc = some buffer) :
    nvmePassthruProcess w false uc = passthruSubmit w uc buffer := by
  have hmeta : ¬(uc.metadata ≠ 0 ∨ uc.metadataLen ≠ 0) := by
    rintro (h | h)
    · exact h hok.metadata.1
    · exact h hok.metadata.2
  unfold dmaBuffer at hdma
  unfold nvmePassthruProcess
  rw [if_neg (not_not.mpr hok.live), if_neg (by decide), if_neg hmeta,
    if_neg (Nat.not_lt.mpr hok.length.2)]
  split at hdma
  · rename_i hwants
    rw [if_pos hwants, hdma]
  · rename_i hwants
    rw [if_neg hwants, Option.some.inj hdma]

end Pointers

/-- For every command with data that `nvme_passthru_process` accepts and submits, from its
own buffer or a bounce buffer: an SQE is placed, and a controller that walks the data
pointers of the SQEs finds exactly the buffer, if and only if the buffer spans at most two
pages. -/
theorem admin_prps_cover_iff (w : World) (uc : NVMePassthruCmd) (buffer : Nat)
    (hok : Accepted w uc) (hsub : Submittable w uc) (hdma : dmaBuffer w uc = some buffer)
    (hnull : buffer ≠ 0) :
    (nvmePassthruProcess w false uc).sqes ≠ [] ∧
      ((∀ sqe, sqe ∈ (nvmePassthruProcess w false uc).sqes → ∀ mem,
          CoversBuffer (walk mem sqe.prp1 sqe.prp2 uc.dataLen) buffer uc.dataLen) ↔
        uc.dataLen ≤ pageLeft pageSize buffer + pageSize) := by
  rw [nvmePassthruProcess_accepted hok hdma]
  obtain ⟨hne, hall⟩ := passthruSubmit_pointers hsub hnull hok.length.1
  refine ⟨hne, ?_⟩
  rw [← covers_iff hnull hok.length.1]
  constructor
  · intro hcover
    obtain ⟨sqe, hsqe⟩ := List.exists_mem_of_ne_nil _ hne
    obtain ⟨h₁, h₂⟩ := Prod.mk.inj (hall sqe hsqe)
    have := hcover sqe hsqe
    rwa [h₁, h₂] at this
  · intro hcover sqe hsqe
    obtain ⟨h₁, h₂⟩ := Prod.mk.inj (hall sqe hsqe)
    rw [h₁, h₂]
    exact hcover

/-- An Identify Controller into a buffer that straddles two pages. -/
theorem admin_prps_cover_identify :
    (nvmePassthruProcess { answer := fun _ => ⟨0, 0⟩ } false
        { opcode := 6, addr := 0x10000040, dataLen := 4096, cdw10 := 1 }).sqes ≠ [] ∧
      ∀ sqe, sqe ∈ (nvmePassthruProcess { answer := fun _ => ⟨0, 0⟩ } false
          { opcode := 6, addr := 0x10000040, dataLen := 4096, cdw10 := 1 }).sqes → ∀ mem,
        CoversBuffer (walk mem sqe.prp1 sqe.prp2 4096) 0x10000040 4096 := by
  obtain ⟨hne, hcover⟩ := admin_prps_cover_iff { answer := fun _ => ⟨0, 0⟩ }
    { opcode := 6, addr := 0x10000040, dataLen := 4096, cdw10 := 1 } 0x10000040
    ⟨rfl, ⟨rfl, rfl⟩, by decide, by decide⟩
    ⟨fun h => absurd h (by decide), rfl, by simp, rfl, rfl⟩ rfl (by decide)
  exact ⟨hne, hcover.mpr (by decide)⟩

/-- A Firmware Image Download of three pages: the controller takes the first word of the
second page for the address of the next segment. -/
theorem download_reads_image_as_list :
    Accepted { answer := fun _ => ⟨0, 0⟩ }
        { opcode := 0x11, addr := 0x10000000, dataLen := 0x3000 } ∧
      ∃ sqe, sqe ∈ (nvmePassthruProcess { answer := fun _ => ⟨0, 0⟩ } false
          { opcode := 0x11, addr := 0x10000000, dataLen := 0x3000 }).sqes ∧
        ¬CoversBuffer (walk (fun _ => 0xDEAD000) sqe.prp1 sqe.prp2 0x3000)
          0x10000000 0x3000 := by
  refine ⟨⟨rfl, ⟨rfl, rfl⟩, by decide, by decide⟩, _, List.mem_singleton.mpr rfl, ?_⟩
  intro hcover
  exact absurd hcover.1 (by decide +kernel)

end Passthru
end NvmeDriver
