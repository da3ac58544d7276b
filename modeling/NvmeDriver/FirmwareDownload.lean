import NvmeDriver.Passthru

/-!
# Downloading a firmware image

`run_fw_download` sends a file to the controller in chunks of 4096 bytes, each by one
Firmware Image Download with its own offset and length in dwords (nvmeadm_firmware.c,
nvmeadm_core.c).  However it ends, the commands that were reported as successful carry an
initial piece of the file without a gap, and all of it exactly when the tool reports success.
-/

namespace NvmeDriver
namespace Adm

open Passthru (NVMePassthruCmd)

/-! ### Model -/

/-- `FW_DOWNLOAD_CHUNK`. -/
def fwDownloadChunk : Nat := 4096

/-- `nvme_admin_download_fw`. -/
def nvmeAdminDownloadFw : Nat := 0x11

/-- `nvme_bytes_to_numd`, a ULONG. -/
def nvmeBytesToNumd (bytes : Nat) : Nat := (bytes / 4 + (2 ^ 32 - 1)) % 2 ^ 32

/-- `nvmeadm_build_download_fw`. -/
def nvmeadmBuildDownloadFw (buffer size offsetBytes : Nat) : NVMePassthruCmd :=
  { opcode := nvmeAdminDownloadFw, addr := buffer, dataLen := size
    cdw10 := nvmeBytesToNumd size, cdw11 := offsetBytes / 4 }

/-- One turn of the loop: CTRL-C, a `Read` that does not return what was wanted, and the
`io_Error` of the passthrough. -/
structure Turn where
  broken : Bool := false
  short : Bool := false
  error : Int := 0

/-- What `run_fw_download` meets before its loop. -/
structure Start where
  /-- `nvmeadm_require_file` -/
  fileGiven : Bool := true
  /-- `Open` -/
  opened : Bool := true
  /-- `Seek` to the end, and back to the beginning -/
  seekEnd : Bool := true
  seekBeginning : Bool := true
  /-- `nvmeadm_alloc_clear` -/
  buffer : Option Nat := some 0x1000
  /-- `nvmeadm_require_confirm` -/
  confirmed : Bool := true
  /-- `nvmeadm_open_unit` -/
  unitOpened : Bool := true

/-- A command that was reported as successful, with the bytes in its buffer. -/
structure Sent where
  cmd : NVMePassthruCmd
  data : List UInt8

/-- The loop of `run_fw_download` from `offset` on, with the commands it has sent, and whether
it reaches the end. -/
def fwDownloadLoop (file : List UInt8) (buffer : Nat) (turns : Nat → Turn) :
    Nat → Nat → List Sent → Bool × List Sent
  | 0, offset, sent => (decide (file.length ≤ offset), sent)
  | fuel + 1, offset, sent =>
      if offset < file.length then
        let turn := turns (offset / fwDownloadChunk)
        if turn.broken then (false, sent) else
        let chunkSize := min (file.length - offset) fwDownloadChunk
        if turn.short then (false, sent) else
        if turn.error ≠ 0 then (false, sent) else
        fwDownloadLoop file buffer turns fuel (offset + chunkSize)
          (sent ++ [⟨nvmeadmBuildDownloadFw buffer chunkSize offset,
            (file.drop offset).take chunkSize⟩])
      else (true, sent)

/-- `RETURN_OK`. -/
def returnOk : Nat := 0

/-- `RETURN_ERROR`. -/
def returnError : Nat := 10

/-- `RETURN_FAIL`. -/
def returnFail : Nat := 20

/-- `run_fw_download`: what it returns, and what was sent.  A file of 2^31 bytes has a negative
size. -/
def runFwDownload (file : List UInt8) (start : Start) (turns : Nat → Turn) : Nat × List Sent :=
  if !start.fileGiven then (returnError, [])
  else if !start.opened then (returnFail, [])
  else if !start.seekEnd then (returnFail, [])
  else if !start.seekBeginning ∨ 2 ^ 31 ≤ file.length then (returnFail, [])
  else if file.length = 0 then (returnFail, [])
  else if file.length % 4 ≠ 0 then (returnFail, [])
  else
    match start.buffer with
    | none => (returnFail, [])
    | some buffer =>
        if !start.confirmed then (returnFail, [])
        else if !start.unitOpened then (returnFail, [])
        else
          match fwDownloadLoop file buffer turns file.length 0 [] with
          | (true, sent) => (returnOk, sent)
          | (false, sent) => (returnFail, sent)

/-! ### The controller -/

/-- The image of a controller that carries out a Firmware Image Download: NUMD is zero-based,
and both it and the offset count dwords. -/
def receive (image : Nat → Option UInt8) (s : Sent) : Nat → Option UInt8 := fun i =>
  if 4 * s.cmd.cdw11 ≤ i ∧ i < 4 * s.cmd.cdw11 + 4 * (s.cmd.cdw10 + 1) then
    s.data[i - 4 * s.cmd.cdw11]?
  else image i

def received (sent : List Sent) : Nat → Option UInt8 := sent.foldl receive fun _ => none

/-! ### One chunk -/

section Chunk

variable {file : List UInt8} {offset size : Nat}

theorem numd_exact (hpos : 0 < size) (hmul : size % 4 = 0) (hlt : size < 2 ^ 32) :
    4 * (nvmeBytesToNumd size + 1) = size := by
  unfold nvmeBytesToNumd
  omega

theorem receive_bytes (image : Nat → Option UInt8) (s : Sent)
    (hstart : 4 * s.cmd.cdw11 = offset) (hlen : 4 * (s.cmd.cdw10 + 1) = size) (i : Nat) :
    receive image s i =
      if offset ≤ i ∧ i < offset + size then s.data[i - offset]? else image i := by
  unfold receive
  rw [hstart, hlen]

/-- A chunk adds the bytes from `offset` on to those before it. -/
theorem receive_chunk {image : Nat → Option UInt8} (buffer : Nat) (hpos : 0 < size)
    (hmul : size % 4 = 0) (hlt : size < 2 ^ 32) (hoff : offset % 4 = 0)
    (hfit : offset + size ≤ file.length)
    (himage : image = fun i => (file.take offset)[i]?) :
    receive image ⟨nvmeadmBuildDownloadFw buffer size offset, (file.drop offset).take size⟩ =
      fun i => (file.take (offset + size))[i]? := by
  funext i
  have hstart : 4 * (nvmeadmBuildDownloadFw buffer size offset).cdw11 = offset := by
    unfold nvmeadmBuildDownloadFw
    dsimp only
    omega
  have hlen : 4 * ((nvmeadmBuildDownloadFw buffer size offset).cdw10 + 1) = size := by
    unfold nvmeadmBuildDownloadFw
    exact numd_exact hpos hmul hlt
  rw [receive_bytes image ⟨nvmeadmBuildDownloadFw buffer size offset, _⟩ hstart hlen]
  split
  · rename_i hin
    have hat : offset + (i - offset) = i := by omega
    change ((file.drop offset).take size)[i - offset]? = _
    rw [List.getElem?_take_of_lt (by omega), List.getElem?_take_of_lt (by omega),
      List.getElem?_drop, hat]
  · rename_i hout
    rw [himage]
    change (file.take offset)[i]? = _
    by_cases hlow : i < offset
    · rw [List.getElem?_take_of_lt hlow, List.getElem?_take_of_lt (by omega)]
    · rw [List.getElem?_eq_none (by rw [List.length_take]; omega),
        List.getElem?_eq_none (by rw [List.length_take]; omega)]

theorem received_snoc (sent : List Sent) (s : Sent) :
    received (sent ++ [s]) = receive (received sent) s :=
  List.foldl_append ..

end Chunk

/-! ### The loop -/

section Loop

variable {file : List UInt8}

/-- Nothing goes wrong in a turn. -/
def Turn.Fine (t : Turn) : Prop := t.broken = false ∧ t.short = false ∧ t.error = 0

/-- All turns from `offset` on are fine. -/
def FineFrom (file : List UInt8) (turns : Nat → Turn) (offset : Nat) : Prop :=
  ∀ k, offset ≤ fwDownloadChunk * k → fwDownloadChunk * k < file.length → (turns k).Fine

/-- What holds before each turn: the image is the file up to `offset`, which is a multiple of
the chunk size unless the whole file has been sent. -/
structure Reached (file : List UInt8) (offset : Nat) (sent : List Sent) : Prop where
  image : received sent = fun i => (file.take offset)[i]?
  within : offset ≤ file.length
  aligned : offset < file.length → offset % fwDownloadChunk = 0

theorem Reached.next {offset : Nat} {sent : List Sent} (h : Reached file offset sent)
    (buffer : Nat) (hsize : file.length < 2 ^ 32) (hmul : file.length % 4 = 0)
    (hmore : offset < file.length) :
    Reached file (offset + min (file.length - offset) fwDownloadChunk)
      (sent ++ [⟨nvmeadmBuildDownloadFw buffer (min (file.length - offset) fwDownloadChunk) offset,
        (file.drop offset).take (min (file.length - offset) fwDownloadChunk)⟩]) := by
  have halign := h.aligned hmore
  unfold fwDownloadChunk at halign ⊢
  refine ⟨?_, by omega, fun hlt => by unfold fwDownloadChunk; omega⟩
  rw [received_snoc]
  exact receive_chunk buffer (by omega) (by omega) (Nat.lt_of_le_of_lt (by omega) hsize)
    (by omega) (by omega) h.image

/-- The loop stops at the end of the file, or at a turn that is not fine. -/
theorem fwDownloadLoop_spec (buffer : Nat) (turns : Nat → Turn)
    (hsize : file.length < 2 ^ 32) (hmul : file.length % 4 = 0)
    (fuel offset : Nat) (sent : List Sent) (h : Reached file offset sent)
    (hfuel : file.length ≤ offset + fuel) :
    (∃ n, received (fwDownloadLoop file buffer turns fuel offset sent).2 =
        (fun i => (file.take n)[i]?) ∧
      ((fwDownloadLoop file buffer turns fuel offset sent).1 = true → n = file.length)) ∧
    ((fwDownloadLoop file buffer turns fuel offset sent).1 = true ↔
      FineFrom file turns offset) := by
  induction fuel generalizing offset sent with
  | zero =>
      have hend : offset = file.length := Nat.le_antisymm h.within hfuel
      refine ⟨⟨offset, h.image, fun _ => hend⟩, ?_⟩
      unfold fwDownloadLoop
      constructor
      · intro _ k hlow hhigh
        omega
      · intro _
        exact decide_eq_true hfuel
  | succ fuel ih =>
      unfold fwDownloadLoop
      by_cases hmore : offset < file.length
      · have hturn : fwDownloadChunk * (offset / fwDownloadChunk) = offset := by
          have halign := h.aligned hmore
          unfold fwDownloadChunk at halign ⊢
          omega
        -- a turn that is not fine ends the loop
        have hstop : ¬(turns (offset / fwDownloadChunk)).Fine →
            (∃ n, received sent = (fun i => (file.take n)[i]?) ∧
              (false = true → n = file.length)) ∧
            (false = true ↔ FineFrom file turns offset) := by
          intro hbad
          refine ⟨⟨offset, h.image, fun hno => absurd hno Bool.false_ne_true⟩,
            fun hno => absurd hno Bool.false_ne_true, fun hfine => ?_⟩
          have hthis := hfine (offset / fwDownloadChunk) (by rw [hturn])
            (by rw [hturn]; exact hmore)
          exact absurd hthis hbad
        rw [if_pos hmore]
        dsimp only
        split
        · rename_i hbroken
          exact hstop fun hfine => Bool.false_ne_true (hfine.1.symm.trans hbroken)
        rename_i hbroken
        split
        · rename_i hshort
          exact hstop fun hfine => Bool.false_ne_true (hfine.2.1.symm.trans hshort)
        rename_i hshort
        split
        · rename_i herror
          exact hstop fun hfine => herror hfine.2.2
        rename_i herror
        obtain ⟨himage, hiff⟩ := ih _ _ (h.next buffer hsize hmul hmore)
          (by unfold fwDownloadChunk; omega)
        refine ⟨himage, hiff.trans ⟨fun hrest k hlow hhigh => ?_, fun hall k hlow hhigh => ?_⟩⟩
        · by_cases hk : k = offset / fwDownloadChunk
          · rw [hk]
            exact ⟨eq_false_of_ne_true hbroken, eq_false_of_ne_true hshort,
              not_not.mp herror⟩
          · refine hrest k ?_ hhigh
            have hne : fwDownloadChunk * k ≠ offset := fun heq => hk (by
              rw [← heq]
              exact (Nat.mul_div_cancel_left k (by decide)).symm)
            have halign := h.aligned hmore
            unfold fwDownloadChunk at *
            omega
        · exact hall k (by omega) hhigh
      · rw [if_neg hmore]
        have hend : offset = file.length := Nat.le_antisymm h.within (Nat.le_of_not_lt hmore)
        refine ⟨⟨offset, h.image, fun _ => hend⟩, fun _ k hlow hhigh => ?_, fun _ => rfl⟩
        omega

theorem reached_start (file : List UInt8) : Reached file 0 [] :=
  ⟨funext fun i => by rw [List.take_zero]; rfl, Nat.zero_le _, fun _ => rfl⟩

end Loop

/-- Nothing fails before the loop. -/
structure Start.Fine (start : Start) : Prop where
  fileGiven : start.fileGiven = true
  opened : start.opened = true
  seekEnd : start.seekEnd = true
  seekBeginning : start.seekBeginning = true
  buffer : start.buffer ≠ none
  confirmed : start.confirmed = true
  unitOpened : start.unitOpened = true

/-- The download fails before its loop, or nothing does and the loop decides. -/
theorem runFwDownload_cases (file : List UInt8) (start : Start) (turns : Nat → Turn) :
    (¬(start.Fine ∧ 0 < file.length ∧ file.length < 2 ^ 31 ∧ file.length % 4 = 0) ∧
      ∃ rc, rc ≠ returnOk ∧ runFwDownload file start turns = (rc, [])) ∨
    (start.Fine ∧ (0 < file.length ∧ file.length < 2 ^ 31 ∧ file.length % 4 = 0) ∧
      ∃ buffer, runFwDownload file start turns =
        (if (fwDownloadLoop file buffer turns file.length 0 []).1 then returnOk else returnFail,
          (fwDownloadLoop file buffer turns file.length 0 []).2)) := by
  have hfail : returnFail ≠ returnOk := by decide
  unfold runFwDownload
  split
  · rename_i hno
    exact .inl ⟨fun h => by simp [h.1.fileGiven] at hno, _, by decide, rfl⟩
  rename_i hfile
  split
  · rename_i hno
    exact .inl ⟨fun h => by simp [h.1.opened] at hno, _, hfail, rfl⟩
  rename_i hopened
  split
  · rename_i hno
    exact .inl ⟨fun h => by simp [h.1.seekEnd] at hno, _, hfail, rfl⟩
  rename_i hend
  split
  · rename_i hno
    refine .inl ⟨fun h => ?_, _, hfail, rfl⟩
    rw [h.1.seekBeginning] at hno
    exact absurd h.2.2.1 (Nat.not_lt_of_le (hno.resolve_left Bool.false_ne_true))
  rename_i hsize
  rw [not_or] at hsize
  split
  · exact .inl ⟨fun h => by omega, _, hfail, rfl⟩
  rename_i hpos
  split
  · exact .inl ⟨fun h => by omega, _, hfail, rfl⟩
  rename_i hmul
  cases hbuffer : start.buffer with
  | none => exact .inl ⟨fun h => h.1.buffer hbuffer, _, hfail, rfl⟩
  | some buffer =>
      dsimp only
      split
      · rename_i hno
        exact .inl ⟨fun h => by simp [h.1.confirmed] at hno, _, hfail, rfl⟩
      rename_i hconfirmed
      split
      · rename_i hno
        exact .inl ⟨fun h => by simp [h.1.unitOpened] at hno, _, hfail, rfl⟩
      rename_i hunit
      have hstart : start.Fine :=
        { fileGiven := by simpa using hfile
          opened := by simpa using hopened
          seekEnd := by simpa using hend
          seekBeginning := by simpa using hsize.1
          buffer := hbuffer ▸ Option.some_ne_none _
          confirmed := by simpa using hconfirmed
          unitOpened := by simpa using hunit }
      refine .inr ⟨hstart, ⟨by omega, Nat.lt_of_not_le hsize.2, not_not.mp hmul⟩, buffer, ?_⟩
      generalize fwDownloadLoop file buffer turns file.length 0 [] = out
      obtain ⟨done, sent⟩ := out
      cases done <;> rfl

example : (runFwDownload (List.replicate 8 0) {} fun _ => {}).1 = returnOk := by decide

end Adm
end NvmeDriver
