import NvmeDriver.ResponseBytes
import NvmeDriver.Lib.ByteMemory
import NvmeDriver.Engine.Loop

/-!
# What the SCSI handlers read of the CDB

`scsi_CmdLength` says how many bytes `scsi_Command` points at.  `handle_scsi_cmd`
checks it once, for the six bytes of the shortest group; a handler that needs more
has to check again.  The functions here are those of the switch, noting every byte
of the CDB they read on the way to the result they have anyway.

READ and WRITE of the longer groups overlay a packed structure on the bytes; of its
fields they use the LBA and the length.
-/

namespace NvmeDriver
namespace Scsi

open Lib
open Engine (Env State scsiUnmap scsiSyncCache doScsiTransfer scsiTransfer)
open Namespace (NVMeUnit reportedBlockSize)

/-! ### The handlers -/

/-- `command[i]`. -/
def cdbByte (command : List Nat) (i : Nat) : Traced Nat := Traced.byte command i

/-- A big-endian field of the CDB. -/
def cdbField (command : List Nat) (pos n : Nat) : Traced Nat :=
  Traced.load (loadBe command) pos n

section Handlers

variable (ctrl : Option Controller) (unit : NVMeUnit) (mem : CellMemory Nat) (cmd : ScsiCmd)
  (command : List Nat)

/-- `scsi_inquiry`. -/
def scsiInquiryReads : Traced (Option Emulated) :=
  if cmd.cmdLength < 6 then pure (refuse mem cmd ioerrBadLength)
  else do
    let evpd ← cdbByte command 1
    let pageCode ← cdbByte command 2
    let alloc ← cdbField command 3 2
    pure <|
      if evpd % 2 = 0 then scsiInquiryStandard ctrl mem cmd alloc
      else if pageCode = 0x00 then scsiInquiryVpd00 mem cmd alloc
      else if pageCode = 0xB0 then scsiInquiryVpdB0 ctrl unit mem cmd alloc
      else if pageCode = 0xB2 then scsiInquiryVpdB2 ctrl mem cmd alloc
      else refuse mem (scsiMakeSense cmd 0 0 ioerrNoCmd) ioerrNoCmd

/-- `scsi_read_capacity_16`. -/
def scsiReadCapacity16Reads : Traced (Option Emulated) :=
  if cmd.data = 0 then
    pure (refuse mem (scsiMakeSense cmd 0 0 ioerrBadAddress) ioerrBadAddress)
  else if cmd.cmdLength < 16 then pure (refuse mem cmd ioerrBadLength)
  else do
    let alloc ← cdbField command 10 4
    pure ((capacity16Data unit).bind fun data => scsiEmitTo mem cmd data 15 alloc)

/-- The page and subpage check of both MODE SENSE handlers. -/
def servesPage (page subpage : Nat) : Prop :=
  subpage = 0 ∧ (page % 64 = 0x3F ∨ page % 64 = 0x03 ∨ page % 64 = 0x04)

instance (page subpage : Nat) : Decidable (servesPage page subpage) :=
  inferInstanceAs (Decidable (_ ∧ _))

/-- `scsi_mode_sense`. -/
def scsiModeSenseReads : Traced (Option Emulated) :=
  if cmd.data = 0 then pure (refuse mem cmd ioerrBadAddress)
  else if cmd.cmdLength < 6 then pure (refuse mem cmd ioerrBadLength)
  else do
    let page ← cdbByte command 2
    let subpage ← cdbByte command 3
    if ¬servesPage page subpage then
      pure (refuse mem (scsiMakeSense cmd 0 0 ioerrNoCmd) ioerrNoCmd)
    else do
      let alloc ← cdbByte command 4
      pure ((modeSense6Data (page % 64) (reportedBlockSize unit)).bind fun c =>
        scsiEmitTo mem cmd c.data c.idx alloc)

/-- `scsi_mode_sense_10`. -/
def scsiModeSense10Reads : Traced (Option Emulated) :=
  if cmd.data = 0 then pure (refuse mem cmd ioerrBadAddress)
  else if cmd.cmdLength < 10 then pure (refuse mem cmd ioerrBadLength)
  else do
    let page ← cdbByte command 2
    let subpage ← cdbByte command 3
    if ¬servesPage page subpage then
      pure (refuse mem (scsiMakeSense cmd 0 0 ioerrNoCmd) ioerrNoCmd)
    else do
      let alloc ← cdbField command 7 2
      pure ((modeSense10Data (page % 64) (reportedBlockSize unit)).bind fun c =>
        scsiEmitTo mem cmd c.data c.idx alloc)

/-- `scsi_request_sense`. -/
def scsiRequestSenseReads : Traced (Option Emulated) :=
  if cmd.data = 0 then pure (refuse mem cmd ioerrBadAddress)
  else if cmd.cmdLength < 6 then pure (refuse mem cmd ioerrBadLength)
  else do
    let alloc ← cdbByte command 4
    pure (requestSenseData.bind fun sense => scsiEmitTo mem cmd sense fixedSenseBytes alloc)

/-- The part of the switch of `handle_scsi_cmd` that is answered locally;
`scsi_read_capacity_10` takes nothing from the CDB. -/
def emulateReads : EmulatedOp → Traced (Option Emulated)
  | .requestSense => scsiRequestSenseReads mem cmd command
  | .inquiry => scsiInquiryReads ctrl unit mem cmd command
  | .modeSense6 => scsiModeSenseReads unit mem cmd command
  | .modeSense10 => scsiModeSense10Reads unit mem cmd command
  | .readCapacity10 => pure (readCapacity10 unit mem cmd)
  | .readCapacity16 => scsiReadCapacity16Reads unit mem cmd command

end Handlers

/-- `cdb6->lba_high`, `cdb6->lba_mid`, `cdb6->lba_low` and `cdb6->length`. -/
def cdb6Reads (command : List Nat) : Traced (Option (Nat × Nat)) := do
  let lbaHigh ← cdbByte command 1
  let lbaMid ← cdbByte command 2
  let lbaLow ← cdbByte command 3
  let length ← cdbByte command 4
  pure (some (lbaHigh % 32 * 2 ^ 16 + lbaMid * 2 ^ 8 + lbaLow,
    if length = 0 then 256 else length))

/-- `cdb10->lba` and `cdb10->length`. -/
def cdb10Reads (command : List Nat) : Traced (Option (Nat × Nat)) := do
  let lba ← cdbField command 2 4
  let length ← cdbField command 7 2
  pure (some (lba, length))

/-- `cdb16->lba` and `cdb16->length`. -/
def cdb16Reads (command : List Nat) : Traced (Option (Nat × Nat)) := do
  let lba ← cdbField command 2 8
  let length ← cdbField command 10 4
  pure (some (lba, length))

/-- The LBA and block count of a READ or WRITE CDB. -/
def scsiTransferReads (command : List Nat) (op : Nat) : Traced (Option (Nat × Nat)) :=
  if op = 0x08 ∨ op = 0x0A then cdb6Reads command
  else if op = 0x28 ∨ op = 0x2A then cdb10Reads command
  else if op = 0x88 ∨ op = 0x8A then cdb16Reads command
  else pure none

/-- The switch of `handle_scsi_cmd`. -/
def scsiSwitchReads (env : Env) (ctrl : Option Controller) (mem : CellMemory Nat) (s : State)
    (u io : Nat) (cmd : ScsiCmd) (command : List Nat) (op : Nat) :
    Traced (State × Int × ScsiCmd) :=
  if op = 0x00 then pure (s, 0, { cmd with actual := 0 })
  else
    match emulatedOp [op] with
    | some e => do
        let out ← emulateReads ctrl (env.units u) mem cmd command e
        pure <|
          match out with
          | some out => (s, out.error, out.cmd)
          | none => (s, ioerrNoCmd, cmd)
    | none =>
        if op = 0x42 then pure (scsiUnmap env s u io cmd)
        else if op = 0x35 then pure (scsiSyncCache env s u io cmd)
        else do
          let t ← scsiTransferReads command op
          pure <|
            match t with
            | some (lba, count) => doScsiTransfer env s u io cmd lba count
            | none => (s, ioerrNoCmd, scsiMakeSense cmd 0 0 ioerrNoCmd)

/-- The end of `handle_scsi_cmd`. -/
def scsiFinish (io : Nat) : State × Int × ScsiCmd → State × Int
  | (s, error, cmd) =>
      if error = nvmeIoAsync then (s.log (.scsi io cmd), nvmeIoAsync)
      else
        (s.log (.scsi io { cmd with
          cmdActual := cmd.cmdLength
          status := if error ≠ 0 then checkCondition else 0 }), error)

/-- `handle_scsi_cmd`. -/
def handleScsiCmdReads (env : Env) (ctrl : Option Controller) (mem : CellMemory Nat)
    (s : State) (u io : Nat) (cmd : ScsiCmd) : Traced (State × Int) :=
  match cmd.command with
  | none => pure (s, ioerrBadAddress)
  | some command =>
      if cmd.cmdLength < 6 then pure (s, ioerrBadLength)
      else do
        let op ← cdbByte command 0
        let out ← scsiSwitchReads env ctrl mem s u io { cmd with senseActual := 0 } command op
        pure (scsiFinish io out)

/-! ### The same results -/

section Values

variable {ctrl : Option Controller} {unit : NVMeUnit} {mem : CellMemory Nat} {cmd : ScsiCmd}
  {command : List Nat}

theorem scsiInquiryReads_value (hcmd : cmd.command = some command) :
    (scsiInquiryReads ctrl unit mem cmd command).value = scsiInquiry ctrl unit mem cmd := by
  rw [scsiInquiryReads, scsiInquiry, hcmd]
  dsimp only
  split
  · rfl
  · rfl

theorem scsiReadCapacity16Reads_value (hcmd : cmd.command = some command) :
    (scsiReadCapacity16Reads unit mem cmd command).value = readCapacity16 unit mem cmd := by
  rw [scsiReadCapacity16Reads, readCapacity16, hcmd]
  split
  · rfl
  · dsimp only
    split
    · rfl
    · rfl

theorem scsiModeSenseReads_value (hcmd : cmd.command = some command) :
    (scsiModeSenseReads unit mem cmd command).value = scsiModeSense unit mem cmd := by
  rw [scsiModeSenseReads, scsiModeSense, hcmd]
  split
  · rfl
  · dsimp only
    split
    · rfl
    · by_cases hpage : servesModePage command
      · rw [if_neg (not_not.mpr hpage)]
        exact congrArg Traced.value (if_neg (not_not.mpr hpage))
      · rw [if_pos hpage]
        exact congrArg Traced.value (if_pos hpage)

theorem scsiModeSense10Reads_value (hcmd : cmd.command = some command) :
    (scsiModeSense10Reads unit mem cmd command).value = scsiModeSense10 unit mem cmd := by
  rw [scsiModeSense10Reads, scsiModeSense10, hcmd]
  split
  · rfl
  · dsimp only
    split
    · rfl
    · by_cases hpage : servesModePage command
      · rw [if_neg (not_not.mpr hpage)]
        exact congrArg Traced.value (if_neg (not_not.mpr hpage))
      · rw [if_pos hpage]
        exact congrArg Traced.value (if_pos hpage)

theorem scsiRequestSenseReads_value (hcmd : cmd.command = some command) :
    (scsiRequestSenseReads mem cmd command).value = scsiRequestSense mem cmd := by
  rw [scsiRequestSenseReads, scsiRequestSense, hcmd]
  split
  · rfl
  · dsimp only
    split
    · rfl
    · rfl

/-- Noting the reads changes no answer. -/
theorem emulateReads_value (hcmd : cmd.command = some command) (e : EmulatedOp) :
    (emulateReads ctrl unit mem cmd command e).value = emulate ctrl unit mem cmd e := by
  cases e with
  | requestSense => exact scsiRequestSenseReads_value hcmd
  | inquiry => exact scsiInquiryReads_value hcmd
  | modeSense6 => exact scsiModeSenseReads_value hcmd
  | modeSense10 => exact scsiModeSense10Reads_value hcmd
  | readCapacity10 => rfl
  | readCapacity16 => exact scsiReadCapacity16Reads_value hcmd

theorem scsiTransferReads_value (command : List Nat) :
    (scsiTransferReads command (command.getD 0 0)).value = scsiTransfer command := by
  rw [scsiTransferReads, scsiTransfer]
  dsimp only
  split
  · rfl
  · split
    · rfl
    · split
      · rfl
      · rfl

/-- An opcode without an emulated handler, in the order of the switch. -/
theorem not_emulated {op : Nat} (h : emulatedOp [op] = none) :
    Engine.scsiEmulated op = false ∧ op ≠ 0x25 ∧ op ≠ 0x9E := by
  simp only [emulatedOp, List.getD_cons_zero] at h
  split_ifs at h with h03 h12 h1A h5A h25 h9E
  refine ⟨?_, h25, h9E⟩
  simp [Engine.scsiEmulated, h03, h12, h1A, h5A]

theorem scsiSwitchReads_value {env : Env} {s : State} {u io : Nat}
    (henv : env.emulate = emulateFor ctrl) (hcmd : cmd.command = some command) :
    (scsiSwitchReads env ctrl mem s u io cmd command (command.getD 0 0)).value =
      Engine.scsiSwitch env s u io cmd command := by
  by_cases hzero : command.getD 0 0 = 0x00
  · rw [scsiSwitchReads, Engine.scsiSwitch, if_pos hzero, if_pos hzero]
    rfl
  cases hop : emulatedOp [command.getD 0 0] with
  | some e =>
      obtain ⟨out, hrun, hswitch⟩ :=
        @scsiSwitch_emulates mem cmd ctrl command e env s u io henv hcmd hop
      rw [hswitch, scsiSwitchReads, if_neg hzero, hop]
      simp only [Traced.value_bind, emulateReads_value hcmd, hrun, Traced.value_pure]
  | none =>
      obtain ⟨hemulated, h25, h9E⟩ := not_emulated hop
      rw [scsiSwitchReads, Engine.scsiSwitch, if_neg hzero, if_neg hzero, hop, hemulated,
        if_neg Bool.false_ne_true, if_neg h25, if_neg h9E]
      dsimp only
      split
      · rfl
      · split
        · rfl
        · rw [Traced.value_bind, scsiTransferReads_value]
          rfl

/-- The engine's `handle_scsi_cmd` is this one without the notes, on a device whose
emulated commands are answered by the handlers of this driver. -/
theorem handleScsiCmdReads_value {env : Env} {s : State} {u io : Nat}
    (henv : env.emulate = emulateFor ctrl) :
    (handleScsiCmdReads env ctrl mem s u io cmd).value =
      Engine.handleScsiCmd env s u io (some cmd) := by
  cases hcmd : cmd.command with
  | none => simp only [handleScsiCmdReads, Engine.handleScsiCmd, hcmd, Traced.value_pure]
  | some command =>
      have hswitch := @scsiSwitchReads_value ctrl mem { cmd with senseActual := 0 } command env s
        u io henv hcmd
      by_cases hlen : cmd.cmdLength < 6
      · simp only [handleScsiCmdReads, Engine.handleScsiCmd, hcmd, if_pos hlen,
          Traced.value_pure]
      · simp only [handleScsiCmdReads, Engine.handleScsiCmd, hcmd, if_neg hlen]
        rw [hcmd] at hswitch
        exact congrArg (scsiFinish io) hswitch

end Values

/-! ### Which bytes they read -/

section Reads

/-- How many bytes of the CDB the fields of a READ or WRITE lie in. -/
def transferBytes (op : Nat) : Nat :=
  if op = 0x08 ∨ op = 0x0A then 5
  else if op = 0x28 ∨ op = 0x2A then 9
  else if op = 0x88 ∨ op = 0x8A then 14
  else 0

variable {ctrl : Option Controller} {unit : NVMeUnit} {mem : CellMemory Nat} {cmd : ScsiCmd}
  {command : List Nat}

theorem cdbByte_within {i n : Nat} (h : i < n) : (cdbByte command i).Within n :=
  Traced.within_byte.mpr h

theorem cdbField_within {pos k n : Nat} (h : pos + k ≤ n) : (cdbField command pos k).Within n :=
  Traced.within_load h

theorem scsiInquiryReads_within :
    (scsiInquiryReads ctrl unit mem cmd command).Within cmd.cmdLength := by
  rw [scsiInquiryReads]
  split
  · exact Traced.within_pure _ _
  · refine Traced.within_bind (cdbByte_within (by omega)) ?_
    refine Traced.within_bind (cdbByte_within (by omega)) ?_
    exact Traced.within_bind (cdbField_within (by omega)) (Traced.within_pure _ _)

theorem scsiReadCapacity16Reads_within :
    (scsiReadCapacity16Reads unit mem cmd command).Within cmd.cmdLength := by
  rw [scsiReadCapacity16Reads]
  split
  · exact Traced.within_pure _ _
  · split
    · exact Traced.within_pure _ _
    · exact Traced.within_bind (cdbField_within (by omega)) (Traced.within_pure _ _)

theorem scsiModeSenseReads_within :
    (scsiModeSenseReads unit mem cmd command).Within cmd.cmdLength := by
  rw [scsiModeSenseReads]
  split
  · exact Traced.within_pure _ _
  · split
    · exact Traced.within_pure _ _
    · refine Traced.within_bind (cdbByte_within (by omega)) ?_
      refine Traced.within_bind (cdbByte_within (by omega)) ?_
      split
      · exact Traced.within_pure _ _
      · exact Traced.within_bind (cdbByte_within (by omega)) (Traced.within_pure _ _)

theorem scsiModeSense10Reads_within :
    (scsiModeSense10Reads unit mem cmd command).Within cmd.cmdLength := by
  rw [scsiModeSense10Reads]
  split
  · exact Traced.within_pure _ _
  · split
    · exact Traced.within_pure _ _
    · refine Traced.within_bind (cdbByte_within (by omega)) ?_
      refine Traced.within_bind (cdbByte_within (by omega)) ?_
      split
      · exact Traced.within_pure _ _
      · exact Traced.within_bind (cdbField_within (by omega)) (Traced.within_pure _ _)

theorem scsiRequestSenseReads_within :
    (scsiRequestSenseReads mem cmd command).Within cmd.cmdLength := by
  rw [scsiRequestSenseReads]
  split
  · exact Traced.within_pure _ _
  · split
    · exact Traced.within_pure _ _
    · exact Traced.within_bind (cdbByte_within (by omega)) (Traced.within_pure _ _)

/-- Every handler that answers locally checks the length of its group. -/
theorem emulateReads_within (e : EmulatedOp) :
    (emulateReads ctrl unit mem cmd command e).Within cmd.cmdLength := by
  cases e with
  | requestSense => exact scsiRequestSenseReads_within
  | inquiry => exact scsiInquiryReads_within
  | modeSense6 => exact scsiModeSenseReads_within
  | modeSense10 => exact scsiModeSense10Reads_within
  | readCapacity10 => exact Traced.within_pure _ _
  | readCapacity16 => exact scsiReadCapacity16Reads_within

theorem not_within {α : Type} {x : Traced α} {p n : Nat} (hmem : p ∈ x.reads) (hle : n ≤ p) :
    ¬x.Within n := by
  intro h
  have hlt := h p hmem
  omega

/-- The decoding of a transfer looks at the bytes its fields lie in, whatever the length. -/
theorem scsiTransferReads_within_iff {op n : Nat} :
    (scsiTransferReads command op).Within n ↔ transferBytes op ≤ n := by
  rw [scsiTransferReads, transferBytes]
  split
  · constructor
    · intro h
      by_contra hshort
      exact not_within (p := 4) (by simp [cdb6Reads, cdbByte, Traced.byte]) (by omega) h
    · intro h
      refine Traced.within_bind (cdbByte_within (by omega)) ?_
      refine Traced.within_bind (cdbByte_within (by omega)) ?_
      refine Traced.within_bind (cdbByte_within (by omega)) ?_
      exact Traced.within_bind (cdbByte_within (by omega)) (Traced.within_pure _ _)
  · split
    · constructor
      · intro h
        by_contra hshort
        exact not_within (p := 8) (by simp [cdb10Reads, cdbField, Traced.load]) (by omega) h
      · intro h
        refine Traced.within_bind (cdbField_within (by omega)) ?_
        exact Traced.within_bind (cdbField_within (by omega)) (Traced.within_pure _ _)
    · split
      · constructor
        · intro h
          by_contra hshort
          exact not_within (p := 13) (by simp [cdb16Reads, cdbField, Traced.load]) (by omega) h
        · intro h
          refine Traced.within_bind (cdbField_within (by omega)) ?_
          exact Traced.within_bind (cdbField_within (by omega)) (Traced.within_pure _ _)
      · exact ⟨fun _ => Nat.zero_le n, fun _ => Traced.within_pure _ _⟩

/-- Only a READ or WRITE takes fields from the CDB without a look at its length. -/
theorem transferBytes_of_not_transfer {op : Nat} (h : op = 0x00 ∨ emulatedOp [op] ≠ none ∨
    op = 0x42 ∨ op = 0x35) : transferBytes op = 0 := by
  have hlocal : emulatedOp [op] ≠ none →
      op = 0x03 ∨ op = 0x12 ∨ op = 0x1A ∨ op = 0x5A ∨ op = 0x25 ∨ op = 0x9E := by
    intro hne
    by_contra hno
    simp only [not_or] at hno
    obtain ⟨h03, h12, h1A, h5A, h25, h9E⟩ := hno
    exact hne (by simp [emulatedOp, h03, h12, h1A, h5A, h25, h9E])
  rcases h with rfl | h | rfl | rfl
  · rfl
  · rcases hlocal h with rfl | rfl | rfl | rfl | rfl | rfl <;> rfl
  · rfl
  · rfl

theorem scsiSwitchReads_within_iff (env : Env) (s : State) (u io op : Nat) :
    (scsiSwitchReads env ctrl mem s u io cmd command op).Within cmd.cmdLength ↔
      transferBytes op ≤ cmd.cmdLength := by
  have hnone : transferBytes op = 0 → ∀ x : Traced (State × Int × ScsiCmd),
      x.Within cmd.cmdLength → (x.Within cmd.cmdLength ↔ transferBytes op ≤ cmd.cmdLength) := by
    intro hzero x hx
    exact iff_of_true hx (by omega)
  rw [scsiSwitchReads]
  split
  · rename_i hzero
    exact hnone (transferBytes_of_not_transfer (.inl hzero)) _ (Traced.within_pure _ _)
  · cases hop : emulatedOp [op] with
    | some e =>
        have hlocal : transferBytes op = 0 :=
          transferBytes_of_not_transfer (.inr (.inl (by rw [hop]; exact Option.some_ne_none e)))
        exact hnone hlocal _ (Traced.within_bind (emulateReads_within e) (Traced.within_pure _ _))
    | none =>
        dsimp only
        split
        · rename_i hunmap
          exact hnone (transferBytes_of_not_transfer (.inr (.inr (.inl hunmap)))) _
            (Traced.within_pure _ _)
        · split
          · rename_i hsync
            exact hnone (transferBytes_of_not_transfer (.inr (.inr (.inr hsync)))) _
              (Traced.within_pure _ _)
          · rw [← @scsiTransferReads_within_iff command]
            constructor
            · exact fun h p hp => h p (List.mem_append_left _ hp)
            · exact fun h => Traced.within_bind h (Traced.within_pure _ _)

/-- The CDB is long enough for the opcode it holds, or the command is refused before
its opcode matters. -/
def CoversTransfer (cmd : ScsiCmd) : Prop :=
  ∀ command, cmd.command = some command → 6 ≤ cmd.cmdLength →
    transferBytes (command.getD 0 0) ≤ cmd.cmdLength

/-- `handle_scsi_cmd` stays inside the CDB exactly when it covers the fields of a READ
or WRITE. -/
theorem cdb_reads_inside_iff (env : Env) (ctrl : Option Controller) (mem : CellMemory Nat)
    (s : State) (u io : Nat) (cmd : ScsiCmd) :
    (handleScsiCmdReads env ctrl mem s u io cmd).Within cmd.cmdLength ↔ CoversTransfer cmd := by
  rw [handleScsiCmdReads, CoversTransfer]
  cases hcmd : cmd.command with
  | none => exact iff_of_true (Traced.within_pure _ _) fun _ h => nomatch h
  | some command =>
      dsimp only
      split
      · rename_i hshort
        exact iff_of_true (Traced.within_pure _ _) fun _ _ hlen => absurd hlen (by omega)
      · rename_i hlen
        have hswitch := @scsiSwitchReads_within_iff ctrl mem { cmd with senseActual := 0 } command
          env s u io (command.getD 0 0)
        rw [hcmd] at hswitch
        constructor
        · rintro h command' heq -
          cases heq
          refine hswitch.mp fun p hp => h p ?_
          exact List.mem_append_right _ (List.mem_append_left _ hp)
        · intro h
          refine Traced.within_bind (cdbByte_within (by omega)) ?_
          refine Traced.within_bind (hswitch.mpr (h command rfl (by omega))) ?_
          exact Traced.within_pure _ _

/-- READ (10) with a CDB of six bytes. -/
def shortRead10 : ScsiCmd :=
  { data := 0x1000, payload := [], length := 512, flagRead := true, flagAutosense := false
    command := some [0x28, 0, 0, 0, 0, 0], cmdLength := 6, hasSenseData := false
    senseLength := 0, response := [], actual := 0, cmdActual := 0, status := 0
    senseActual := 0, sense := none }

/-- The length is taken from the two bytes behind it. -/
theorem short_read_leaves_cdb :
    ¬(handleScsiCmdReads Engine.sampleEnv none (fun _ => none)
      (Engine.bootState Engine.sampleEnv 2048) 0 0 shortRead10).Within shortRead10.cmdLength :=
  not_within (p := 8) (by decide) (by decide)

end Reads

end Scsi
end NvmeDriver
