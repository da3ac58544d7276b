import NvmeDriver.Constants

/-!
# SCSI command blocks

The data side of `HD_SCSICMD` (unit_commands_scsi.c): the caller's
`struct SCSICmd` with the fields the handlers read and the ones they fill in,
fixed-format sense, big-endian field access and `scsi_emit`, the only writer of
the caller's buffer.
-/

namespace NvmeDriver
namespace Scsi

/-- The bytes of `struct SCSI_FIXED_SENSE` that `scsi_make_sense` fills. -/
structure FixedSense where
  response : Nat
  senseKey : Nat
  info : Nat
  additional : Nat
  specific : Nat
  asc : Nat
  asq : Nat
  fru : Nat
deriving DecidableEq, Repr

/-- `sizeof(struct SCSI_FIXED_SENSE)`. -/
def fixedSenseBytes : Nat := 18

/-- `struct SCSICmd`.  The buffer at `scsi_Data` is split in `payload`, what
the handlers read from it, and `response`, what they put into it. -/
structure ScsiCmd where
  /-- `scsi_Data`; 0 is NULL -/
  data : Nat
  payload : List Nat
  /-- `scsi_Length` -/
  length : Nat
  /-- `scsi_Flags & SCSIF_READ` -/
  flagRead : Bool
  /-- `scsi_Flags & SCSIF_AUTOSENSE` -/
  flagAutosense : Bool
  /-- `scsi_Command`, or `none` for NULL -/
  command : Option (List Nat)
  /-- `scsi_CmdLength` -/
  cmdLength : Nat
  /-- `scsi_SenseData != NULL` -/
  hasSenseData : Bool
  /-- `scsi_SenseLength` -/
  senseLength : Nat
  response : List Nat
  /-- `scsi_Actual` -/
  actual : Nat
  /-- `scsi_CmdActual` -/
  cmdActual : Nat
  /-- `scsi_Status` -/
  status : Nat
  /-- `scsi_SenseActual` -/
  senseActual : Nat
  sense : Option FixedSense
deriving DecidableEq, Repr

/-- `SCSI_CHECK_CONDITION`. -/
def checkCondition : Nat := 0x02

/-- Sense key, ASC and ASCQ for a driver error. -/
def senseFor (error : Int) : Nat × Nat × Nat :=
  if error = ioerrUnitBusy then (0x03, 0x04, 0x00)
  else if error = ioerrBadAddress then (0x03, 0x21, 0x00)
  else if error = ioerrNoCmd then (0x05, 0x20, 0x00)
  else (0x00, 0x00, 0x00)

/-- `scsi_make_sense`. -/
def scsiMakeSense (cmd : ScsiCmd) (info specific : Nat) (error : Int) : ScsiCmd :=
  if !cmd.flagAutosense || error == 0 || !cmd.hasSenseData ||
      decide (cmd.senseLength < fixedSenseBytes) then
    { cmd with senseActual := 0 }
  else
    let k := senseFor error
    { cmd with
      senseActual := fixedSenseBytes
      sense := some
        { response := 0x70, info := info, additional := fixedSenseBytes - 7
          specific := specific, fru := (error % 256).toNat
          senseKey := k.1, asc := k.2.1, asq := k.2.2 } }

/-- `scsi_emit`: the smallest of what was produced, what the CDB asked for and
what the caller's buffer holds. -/
def scsiEmit (cmd : ScsiCmd) (src : List Nat) (alloc : Nat) : ScsiCmd :=
  let len := min (min src.length alloc) cmd.length
  { cmd with response := src.take len, actual := len }

/-- A field of `n` big-endian bytes. -/
def beBytes : Nat → Nat → List Nat
  | 0, _ => []
  | n + 1, v => v / 256 ^ n % 256 :: beBytes n v

/-- The `n` bytes at offset `pos`, read big-endian. -/
def loadBe (bytes : List Nat) (pos : Nat) : Nat → Nat
  | 0 => 0
  | n + 1 => bytes.getD pos 0 * 256 ^ n + loadBe bytes (pos + 1) n

end Scsi
end NvmeDriver
