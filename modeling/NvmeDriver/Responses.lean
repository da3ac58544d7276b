import NvmeDriver.Capacity
import NvmeDriver.Lib.LocalBuffer
import Mathlib.Data.List.ReduceOption

/-!
# Emulated SCSI responses

The handlers of unit_commands_scsi.c that answer from the driver's own state:
INQUIRY with its VPD pages, READ CAPACITY, MODE SENSE and REQUEST SENSE.  Each
builds its response in a local array and hands it to `scsi_emit`.

The packed structures are arrays here too, their fields stored at their offsets
in the order of the source.  A handler has no result when it would leave its
array; `fullResponse` says in closed form what each of them has built.
-/

namespace NvmeDriver
namespace Scsi

open Lib
open Namespace (NVMeUnit reportedBlockSize capacity10 capacity16)

/-- `struct NVMeIdentifyStrings`, with the sizes of its arrays. -/
structure IdStrings where
  model : List Nat
  firmware : List Nat
  serial : List Nat
  model_length : model.length = 40
  firmware_length : firmware.length = 8
  serial_length : serial.length = 20
deriving DecidableEq

/-- The fields of the controller that the handlers read. -/
structure Controller where
  idStrings : IdStrings
  maxTransferBytes : Nat
  oncs : Nat
deriving DecidableEq

/-- What a handler leaves: its error, the caller's command and the caller's
memory. -/
structure Emulated where
  error : Int
  cmd : ScsiCmd
  memory : CellMemory Nat

/-- `copy_padded`: the source up to its first NUL, then spaces. -/
def copyPadded (src : List Nat) (dstlen : Nat) : List Nat :=
  let kept := (src.take dstlen).takeWhile (fun c => c ≠ 0)
  kept.map (fun c => c % 256) ++ List.replicate (dstlen - kept.length) 0x20

/-- `unit_supports_dsm`; `NVME_CTRL_ONCS_DSM` is bit 2. -/
def unitSupportsDsm (ctrl : Option Controller) : Bool :=
  match ctrl with
  | some c => c.oncs.testBit 2
  | none => false

/-- The two caps of `scsi_emit`. -/
def emitLength (cmd : ScsiCmd) (len alloc : Nat) : Nat :=
  let len := if alloc < len then alloc else len
  if cmd.length < len then cmd.length else len

/-- `scsi_emit`, with the copy into the caller's memory. -/
def scsiEmitTo (mem : CellMemory Nat) (cmd : ScsiCmd) (src : LocalBuffer Nat)
    (len alloc : Nat) : Option Emulated :=
  (src.read (emitLength cmd len alloc)).map fun cells =>
    { error := 0
      cmd := { cmd with response := cells.reduceOption, actual := emitLength cmd len alloc }
      memory := mem.copy cmd.data cells }

/-- A handler that returns an error before it has built anything. -/
def refuse (mem : CellMemory Nat) (cmd : ScsiCmd) (error : Int) : Option Emulated :=
  some { error := error, cmd := cmd, memory := mem }

/-! ### INQUIRY -/

/-- `sizeof(struct SCSI_Inquiry)`. -/
def inquiryBytes : Nat := 44

/-- A field of text. -/
def ascii (text : List Char) : List Nat := text.map Char.toNat

/-- The vendor field. -/
def vendorText : List Nat := ascii ['N', 'V', 'M', 'e', ' ', ' ', ' ', ' ']

/-- The product field without an identify string. -/
def productText : List Nat :=
  ascii ['S', 't', 'o', 'r', 'a', 'g', 'e', ' ', 'D', 'e', 'v', 'i', 'c', 'e', ' ', ' ']

/-- `have_id`. -/
def haveId (ctrl : Option Controller) : Option IdStrings :=
  match ctrl with
  | some c => if c.idStrings.model.getD 0 0 ≠ 0 then some c.idStrings else none
  | none => none

/-- The structure `scsi_inquiry_standard` fills in. -/
def inquiryData (ctrl : Option Controller) : Option (LocalBuffer Nat) :=
  (LocalBuffer.fresh inquiryBytes).putFields
    ([(0, [0]),                               -- peripheral_type
      (1, [0]),                               -- removable_media
      (2, [2]),                               -- version
      (3, [2]),                               -- response_format
      (4, [(inquiryBytes - 4) % 256]),        -- additional_length
      (5, [0, 0, 0]),                         -- flags
      (8, vendorText)] ++
      match haveId ctrl with
      | some id =>
          [(16, copyPadded id.model 16), (32, copyPadded id.firmware 4),
            (36, copyPadded id.serial 8)]
      | none =>
          [(16, productText), (32, ascii ['0', '0', '0', '1']), (36, List.replicate 8 0x20)])

/-- `scsi_inquiry_standard`. -/
def scsiInquiryStandard (ctrl : Option Controller) (mem : CellMemory Nat) (cmd : ScsiCmd)
    (alloc : Nat) : Option Emulated :=
  if cmd.data = 0 then refuse mem cmd ioerrBadAddress
  else do
    let data ← inquiryData ctrl
    scsiEmitTo mem cmd data inquiryBytes alloc

/-- The page `scsi_inquiry_vpd_00` fills in. -/
def vpd00Page : Option (LocalBuffer Nat) := do
  let page := LocalBuffer.fresh 7
  let page ← page.put 0 0
  let page ← page.put 1 0x00
  let page ← page.put 2 0
  let page ← page.put 3 3
  let page ← page.put 4 0x00
  let page ← page.put 5 0xB0
  page.put 6 0xB2

/-- `scsi_inquiry_vpd_00`. -/
def scsiInquiryVpd00 (mem : CellMemory Nat) (cmd : ScsiCmd) (alloc : Nat) : Option Emulated :=
  if cmd.data = 0 then refuse mem cmd ioerrBadAddress
  else do
    let page ← vpd00Page
    scsiEmitTo mem cmd page 7 alloc

/-- MAXIMUM TRANSFER LENGTH in blocks; 0 is "no limit". -/
def maxXferBlocks (c : Controller) (unit : NVMeUnit) : Nat :=
  if c.maxTransferBytes ≠ 0 ∧ unit.blockShift ≠ 0 then c.maxTransferBytes / 2 ^ unit.blockShift
  else 0

/-- The page `scsi_inquiry_vpd_b0` fills in. -/
def vpdB0Page (c : Controller) (unit : NVMeUnit) : Option (LocalBuffer Nat) := do
  let page := (LocalBuffer.fresh 64).fill 0
  let page ← page.put 0 0
  let page ← page.put 1 0xB0
  let page ← page.putAll 2 (beBytes 2 60)
  let page ← page.putAll 8 (beBytes 4 (maxXferBlocks c unit))
  if unitSupportsDsm (some c) then
    page.putFields [(20, beBytes 4 0xFFFFFFFF), (24, beBytes 4 nvmeDsmMaxRanges)]
  else some page

/-- `scsi_inquiry_vpd_b0`. -/
def scsiInquiryVpdB0 (ctrl : Option Controller) (unit : NVMeUnit) (mem : CellMemory Nat)
    (cmd : ScsiCmd) (alloc : Nat) : Option Emulated :=
  match ctrl with
  | none => refuse mem cmd ioerrBadAddress
  | some c =>
      if cmd.data = 0 then refuse mem cmd ioerrBadAddress
      else do
        let page ← vpdB0Page c unit
        scsiEmitTo mem cmd page 64 alloc

/-- The page `scsi_inquiry_vpd_b2` fills in. -/
def vpdB2Page (ctrl : Option Controller) : Option (LocalBuffer Nat) := do
  let page := (LocalBuffer.fresh 8).fill 0
  let page ← page.put 0 0
  let page ← page.put 1 0xB2
  let page ← page.putAll 2 (beBytes 2 4)
  let page ← page.put 4 0
  let page ← if unitSupportsDsm ctrl then page.put 5 0x80 else some page
  let page ← page.put 6 0x02
  page.put 7 0

/-- `scsi_inquiry_vpd_b2`. -/
def scsiInquiryVpdB2 (ctrl : Option Controller) (mem : CellMemory Nat) (cmd : ScsiCmd)
    (alloc : Nat) : Option Emulated :=
  if cmd.data = 0 then refuse mem cmd ioerrBadAddress
  else do
    let page ← vpdB2Page ctrl
    scsiEmitTo mem cmd page 8 alloc

/-- `scsi_inquiry`. -/
def scsiInquiry (ctrl : Option Controller) (unit : NVMeUnit) (mem : CellMemory Nat)
    (cmd : ScsiCmd) : Option Emulated :=
  match cmd.command with
  | none => refuse mem cmd ioerrBadLength
  | some command =>
      if cmd.cmdLength < 6 then refuse mem cmd ioerrBadLength
      else
        let evpd := command.getD 1 0 % 2
        let pageCode := command.getD 2 0
        let alloc := loadBe command 3 2
        if evpd = 0 then scsiInquiryStandard ctrl mem cmd alloc
        else if pageCode = 0x00 then scsiInquiryVpd00 mem cmd alloc
        else if pageCode = 0xB0 then scsiInquiryVpdB0 ctrl unit mem cmd alloc
        else if pageCode = 0xB2 then scsiInquiryVpdB2 ctrl mem cmd alloc
        else refuse mem (scsiMakeSense cmd 0 0 ioerrNoCmd) ioerrNoCmd

/-! ### READ CAPACITY -/

/-- The structure `scsi_read_capacity_10` fills in. -/
def capacity10Data (unit : NVMeUnit) : Option (LocalBuffer Nat) :=
  (LocalBuffer.fresh 8).putFields
    [(4, beBytes 4 (capacity10 unit).blockSize),  -- block_size
      (0, beBytes 4 (capacity10 unit).lba)]       -- lba

/-- `scsi_read_capacity_10`, with its local structure. -/
def readCapacity10 (unit : NVMeUnit) (mem : CellMemory Nat) (cmd : ScsiCmd) :
    Option Emulated :=
  if cmd.data = 0 then refuse mem (scsiMakeSense cmd 0 0 ioerrBadAddress) ioerrBadAddress
  else do
    let data ← capacity10Data unit
    scsiEmitTo mem cmd data 8 8

/-- The structure `scsi_read_capacity_16` fills in. -/
def capacity16Data (unit : NVMeUnit) : Option (LocalBuffer Nat) :=
  ((LocalBuffer.fresh 15).fill 0).putFields
    [(8, beBytes 4 (capacity16 unit).blockSize),  -- block_size
      (0, beBytes 8 (capacity16 unit).lba)]       -- lba

/-- `scsi_read_capacity_16`, with its local structure. -/
def readCapacity16 (unit : NVMeUnit) (mem : CellMemory Nat) (cmd : ScsiCmd) :
    Option Emulated :=
  if cmd.data = 0 then refuse mem (scsiMakeSense cmd 0 0 ioerrBadAddress) ioerrBadAddress
  else
    match cmd.command with
    | none => refuse mem cmd ioerrBadLength
    | some command =>
        if cmd.cmdLength < 16 then refuse mem cmd ioerrBadLength
        else do
          let data ← capacity16Data unit
          scsiEmitTo mem cmd data 15 (loadBe command 10 4)

/-! ### MODE SENSE -/

/-- `SCSI_MODE_PAGE_LEN`. -/
def modePageLen : Nat := 0x16

/-- `SCSI_MODE_PAGE_SIZE`. -/
def modePageSize : Nat := 2 + modePageLen

/-- `SCSI_MODE_SENSE_MAX`. -/
def modeSenseMax : Nat := 8 + 2 * modePageSize

/-- The array with the index that runs through it, an 8-bit variable. -/
structure Cursor where
  data : LocalBuffer Nat
  idx : Nat

namespace Cursor

/-- `data[idx++] = v`. -/
def push (c : Cursor) (v : Nat) : Option Cursor := do
  let data ← c.data.put c.idx v
  some { data := data, idx := (c.idx + 1) % 256 }

/-- `n` times `data[idx++] = 0`. -/
def zeroes (c : Cursor) : Nat → Option Cursor
  | 0 => some c
  | n + 1 => do
      let c ← c.push 0
      c.zeroes n

/-- `while (idx < stop) data[idx++] = 0`, with a bound on the rounds. -/
def zeroTo (c : Cursor) (stop : Nat) : Nat → Option Cursor
  | 0 => if c.idx < stop then none else some c
  | n + 1 =>
      if c.idx < stop then do
        let c ← c.push 0
        c.zeroTo stop n
      else some c

end Cursor

/-- Page 0x03 of `scsi_write_mode_pages`: Format Device Parameters. -/
def writeFormatPage (c : Cursor) (blockSize : Nat) : Option Cursor := do
  let start := c.idx
  let c ← c.push 0x03
  let c ← c.push modePageLen
  let c ← c.zeroes 8
  let c ← c.push 0
  let c ← c.push 0
  let c ← c.push (blockSize / 256 % 256)
  let c ← c.push (blockSize % 256)
  c.zeroTo (start + modePageSize) 256

/-- Page 0x04 of `scsi_write_mode_pages`: Rigid Drive Geometry. -/
def writeGeometryPage (c : Cursor) : Option Cursor := do
  let start := c.idx
  let c ← c.push 0x04
  let c ← c.push modePageLen
  c.zeroTo (start + modePageSize) 256

/-- `scsi_write_mode_pages`. -/
def scsiWriteModePages (c : Cursor) (page blockSize : Nat) : Option Cursor :=
  (if page = 0x3F ∨ page = 0x03 then writeFormatPage c blockSize else some c).bind fun c =>
    if page = 0x3F ∨ page = 0x04 then writeGeometryPage c else some c

/-- The pages MODE SENSE answers for: subpage 0 of 0x03, 0x04 or both. -/
def servesModePage (command : List Nat) : Prop :=
  command.getD 3 0 = 0 ∧
    (command.getD 2 0 % 64 = 0x3F ∨ command.getD 2 0 % 64 = 0x03 ∨ command.getD 2 0 % 64 = 0x04)

instance (command : List Nat) : Decidable (servesModePage command) :=
  inferInstanceAs (Decidable (_ ∧ _))

/-- The array `scsi_mode_sense` fills in, with the index behind the pages. -/
def modeSense6Data (page blockSize : Nat) : Option Cursor := do
  let data := LocalBuffer.fresh modeSenseMax
  let data ← data.put 0 3
  let data ← data.put 1 0
  let data ← data.put 2 0
  let data ← data.put 3 0
  let c ← scsiWriteModePages ⟨data, 4⟩ page blockSize
  let data ← c.data.put 0 ((c.idx + 256 - 1) % 256)
  some ⟨data, c.idx⟩

/-- `scsi_mode_sense`. -/
def scsiModeSense (unit : NVMeUnit) (mem : CellMemory Nat) (cmd : ScsiCmd) :
    Option Emulated :=
  if cmd.data = 0 then refuse mem cmd ioerrBadAddress
  else
    match cmd.command with
    | none => refuse mem cmd ioerrBadLength
    | some command =>
        if cmd.cmdLength < 6 then refuse mem cmd ioerrBadLength
        else if ¬servesModePage command then
          refuse mem (scsiMakeSense cmd 0 0 ioerrNoCmd) ioerrNoCmd
        else do
          let c ← modeSense6Data (command.getD 2 0 % 64) (reportedBlockSize unit)
          scsiEmitTo mem cmd c.data c.idx (command.getD 4 0)

/-- The array `scsi_mode_sense_10` fills in, with the index behind the pages. -/
def modeSense10Data (page blockSize : Nat) : Option Cursor := do
  let data := LocalBuffer.fresh modeSenseMax
  let data ← data.putAll 0 [0, 0, 0, 0, 0, 0, 0, 0]
  let c ← scsiWriteModePages ⟨data, 8⟩ page blockSize
  let data ← c.data.putAll 0 (beBytes 2 ((c.idx + 2 ^ 16 - 2) % 2 ^ 16))
  some ⟨data, c.idx⟩

/-- `scsi_mode_sense_10`. -/
def scsiModeSense10 (unit : NVMeUnit) (mem : CellMemory Nat) (cmd : ScsiCmd) :
    Option Emulated :=
  if cmd.data = 0 then refuse mem cmd ioerrBadAddress
  else
    match cmd.command with
    | none => refuse mem cmd ioerrBadLength
    | some command =>
        if cmd.cmdLength < 10 then refuse mem cmd ioerrBadLength
        else if ¬servesModePage command then
          refuse mem (scsiMakeSense cmd 0 0 ioerrNoCmd) ioerrNoCmd
        else do
          let c ← modeSense10Data (command.getD 2 0 % 64) (reportedBlockSize unit)
          scsiEmitTo mem cmd c.data c.idx (loadBe command 7 2)

/-! ### REQUEST SENSE -/

/-- The structure `scsi_request_sense` fills in. -/
def requestSenseData : Option (LocalBuffer Nat) :=
  (LocalBuffer.fresh fixedSenseBytes).putFields
    [(0, [0x70]),                         -- response
      (1, [0]),                           -- pad
      (2, [0x00]),                        -- senseKey
      (3, beBytes 4 0),                   -- info
      (7, [(fixedSenseBytes - 7) % 256]), -- additional
      (8, beBytes 4 0),                   -- specific
      (12, [0x00]),                       -- asc
      (13, [0x00]),                       -- asq
      (14, [0]),                          -- fru
      (15, [0, 0, 0])]                    -- sks

/-- `scsi_request_sense`. -/
def scsiRequestSense (mem : CellMemory Nat) (cmd : ScsiCmd) : Option Emulated :=
  if cmd.data = 0 then refuse mem cmd ioerrBadAddress
  else
    match cmd.command with
    | none => refuse mem cmd ioerrBadLength
    | some command =>
        if cmd.cmdLength < 6 then refuse mem cmd ioerrBadLength
        else do
          let sense ← requestSenseData
          scsiEmitTo mem cmd sense fixedSenseBytes (command.getD 4 0)

/-- The opcodes of `handle_scsi_cmd` that have such a handler. -/
inductive EmulatedOp where
  | requestSense | inquiry | modeSense6 | modeSense10 | readCapacity10 | readCapacity16
deriving DecidableEq, Repr

/-- The handler an opcode selects. -/
def emulatedOp (command : List Nat) : Option EmulatedOp :=
  let op := command.getD 0 0
  if op = 0x03 then some .requestSense
  else if op = 0x12 then some .inquiry
  else if op = 0x1A then some .modeSense6
  else if op = 0x5A then some .modeSense10
  else if op = 0x25 then some .readCapacity10
  else if op = 0x9E then some .readCapacity16
  else none

/-- The part of the switch of `handle_scsi_cmd` that is answered locally. -/
def emulate (ctrl : Option Controller) (unit : NVMeUnit) (mem : CellMemory Nat) (cmd : ScsiCmd) :
    EmulatedOp → Option Emulated
  | .requestSense => scsiRequestSense mem cmd
  | .inquiry => scsiInquiry ctrl unit mem cmd
  | .modeSense6 => scsiModeSense unit mem cmd
  | .modeSense10 => scsiModeSense10 unit mem cmd
  | .readCapacity10 => readCapacity10 unit mem cmd
  | .readCapacity16 => readCapacity16 unit mem cmd

end Scsi
end NvmeDriver
