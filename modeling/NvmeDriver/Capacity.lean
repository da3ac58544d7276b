import NvmeDriver.Namespace
import NvmeDriver.Scsi

/-!
# Capacity reports

The readers of a unit's cached size: READ CAPACITY (10) and (16)
(unit_commands_scsi.c), TD_GETGEOMETRY (device_beginio.c) and the range check
of the dispatch paths.  The field they read is filled by the scan in 512-byte
sectors, while three of the four take it for a count of logical blocks; the
reports agree with the device exactly when the two units coincide, and even
then READ CAPACITY (10) saturates one block early.
-/

namespace NvmeDriver
namespace Namespace

open Scsi

/-- The last LBA and block length of a READ CAPACITY response. -/
structure ScsiCapacity where
  lba : Nat
  blockSize : Nat
deriving DecidableEq, Repr

/-- `unit->blockSize ? unit->blockSize : 512`. -/
def reportedBlockSize (unit : NVMeUnit) : Nat :=
  if unit.blockSize = 0 then 512 else unit.blockSize

/-- The record READ CAPACITY (10) fills in; `lba` is a ULONG. -/
def capacity10 (unit : NVMeUnit) : ScsiCapacity :=
  { blockSize := reportedBlockSize unit
    lba :=
      if unit.logicalSectors < 0xFFFFFFFF then
        (unit.logicalSectors + 2 ^ 64 - 1) % 2 ^ 32
      else 0xFFFFFFFF }

/-- The record READ CAPACITY (16) fills in. -/
def capacity16 (unit : NVMeUnit) : ScsiCapacity :=
  { blockSize := reportedBlockSize unit
    lba := if unit.logicalSectors = 0 then 0 else unit.logicalSectors - 1 }

/-- `scsi_read_capacity_10`; the response is a fixed 8 bytes. -/
def scsiReadCapacity10 (unit : NVMeUnit) (cmd : ScsiCmd) : Int × ScsiCmd :=
  if cmd.data = 0 then
    (ioerrBadAddress, scsiMakeSense cmd 0 0 ioerrBadAddress)
  else
    let c := capacity10 unit
    (0, scsiEmit cmd (beBytes 4 c.lba ++ beBytes 4 c.blockSize) 8)

/-- `scsi_read_capacity_16`; the response ends in three reserved bytes. -/
def scsiReadCapacity16 (unit : NVMeUnit) (cmd : ScsiCmd) : Int × ScsiCmd :=
  if cmd.data = 0 then
    (ioerrBadAddress, scsiMakeSense cmd 0 0 ioerrBadAddress)
  else
    match cmd.command with
    | none => (ioerrBadLength, cmd)
    | some command =>
        if cmd.cmdLength < 16 then (ioerrBadLength, cmd)
        else
          let c := capacity16 unit
          (0, scsiEmit cmd
            (beBytes 8 c.lba ++ beBytes 4 c.blockSize ++ [0, 0, 0])
            (loadBe command 10 4))

/-- The fields of `struct DriveGeometry` that depend on the unit. -/
structure DriveGeometry where
  sectorSize : Nat
  totalSectors : Nat
deriving DecidableEq, Repr

/-- Size of `struct DriveGeometry`: seven ULONGs, then two UBYTEs and a
UWORD. -/
def driveGeometryBytes : Nat := 32

/-- The geometry `do_td_getgeometry` reports. -/
def driveGeometry (unit : NVMeUnit) : DriveGeometry :=
  { sectorSize := reportedBlockSize unit
    totalSectors :=
      if unit.blockSize = 0 then 0
      else
        let sectorsPerBlock := unit.blockSize / 2 ^ 9
        let total64 := unit.logicalSectors * sectorsPerBlock % 2 ^ 64
        if 0xFFFFFFFF < total64 then 0xFFFFFFFF else total64 }

/-- `do_td_getgeometry`: the error, or the geometry and `io_Actual`. -/
def doTdGetgeometry (unit : NVMeUnit) (ioLength : Nat) :
    Except Int (DriveGeometry × Nat) :=
  if ioLength < driveGeometryBytes then .error ioerrBadLength
  else .ok (driveGeometry unit, driveGeometryBytes)

/-! ### Agreement with the device -/

/-- All capacity reports of a unit describe `nsze` blocks of `2 ^ ds` bytes. -/
structure ReportsAgree (unit : NVMeUnit) (nsze ds : Nat) : Prop where
  capacity16 : capacity16 unit = { lba := nsze - 1, blockSize := 2 ^ ds }
  capacity10 : capacity10 unit =
    { lba := if nsze - 1 ≤ 0xFFFFFFFE then nsze - 1 else 0xFFFFFFFF
      blockSize := 2 ^ ds }
  geometry : driveGeometry unit =
    { sectorSize := 2 ^ ds, totalSectors := min nsze 0xFFFFFFFF }
  limit : ∀ lba blocks, lba + blocks < 2 ^ 64 →
    (lbaOutOfRange unit lba blocks = true ↔ nsze < lba + blocks)

section Reports

variable {info : NsInfo} (maxZeroes n : Nat)

/-- The cached size of a plain namespace, without the 64-bit wrap. -/
theorem logicalSectors_plain (h : info.Plain)
    (hsize : info.nsze * 2 ^ info.lbaShift < 2 ^ 64) :
    (unitOfInfo maxZeroes n info).logicalSectors =
      info.nsze * 2 ^ (info.lbaShift - 9) := by
  rw [(unitOfInfo_plain maxZeroes n h).2.2]
  unfold nvmeLbaToSect
  apply Nat.mod_eq_of_lt
  refine lt_of_le_of_lt (Nat.mul_le_mul_left _ ?_) hsize
  exact Nat.pow_le_pow_right (by decide) (Nat.sub_le _ _)

theorem reportedBlockSize_plain (h : info.Plain) :
    reportedBlockSize (unitOfInfo maxZeroes n info) = 2 ^ info.lbaShift := by
  simp [reportedBlockSize, (unitOfInfo_plain maxZeroes n h).2.1]

/-- A namespace with 512-byte blocks is reported as it is, unless it has
exactly `0xFFFFFFFF` blocks. -/
theorem reportsAgree_sector (h : info.Plain) (hpos : 0 < info.nsze)
    (hsize : info.nsze * 2 ^ info.lbaShift < 2 ^ 64)
    (hds : info.lbaShift = 9) (hedge : info.nsze ≠ 0xFFFFFFFF) :
    ReportsAgree (unitOfInfo maxZeroes n info) info.nsze info.lbaShift := by
  have hS : (unitOfInfo maxZeroes n info).logicalSectors = info.nsze := by
    rw [logicalSectors_plain maxZeroes n h hsize, hds]
    simp
  have hbs := reportedBlockSize_plain maxZeroes n h
  have hblock := (unitOfInfo_plain maxZeroes n h).2.1
  have hlt : info.nsze < 2 ^ 64 := by
    rw [hds] at hsize
    omega
  refine ⟨?_, ?_, ?_, ?_⟩
  · have h0 : info.nsze ≠ 0 := by omega
    simp [capacity16, hS, hbs, h0]
  · by_cases hbig : info.nsze < 0xFFFFFFFF
    · have h1 : info.nsze - 1 ≤ 0xFFFFFFFE := by omega
      have h2 : (info.nsze + 2 ^ 64 - 1) % 2 ^ 32 = info.nsze - 1 := by omega
      simp only [capacity10, hS, hbs, if_pos hbig, h2, if_pos h1]
    · have h1 : ¬info.nsze - 1 ≤ 0xFFFFFFFE := by omega
      simp only [capacity10, hS, hbs, if_neg hbig, if_neg h1]
  · have hne : 2 ^ info.lbaShift ≠ 0 := by positivity
    have hper : 2 ^ info.lbaShift / 2 ^ 9 = 1 := by
      rw [hds]
      decide
    simp only [driveGeometry, hblock, if_neg hne, hbs, hS, hper, Nat.mul_one,
      Nat.mod_eq_of_lt hlt]
    congr 1
    split <;> omega
  · intro lba blocks hsum
    simp only [lbaOutOfRange, hS, Nat.mod_eq_of_lt hsum, decide_eq_true_eq]
    omega

/-- Larger blocks: the cached size is a multiple of the block count. -/
theorem not_reportsAgree_large (h : info.Plain) (hpos : 0 < info.nsze)
    (hsize : info.nsze * 2 ^ info.lbaShift < 2 ^ 64)
    (hds : info.lbaShift ≠ 9) :
    ¬ReportsAgree (unitOfInfo maxZeroes n info) info.nsze info.lbaShift := by
  intro hagree
  have hS := logicalSectors_plain maxZeroes n h hsize
  have hlo : 9 ≤ info.lbaShift := h.2.2.2.1
  have htwo : 2 ≤ 2 ^ (info.lbaShift - 9) := by
    calc
      2 = 2 ^ 1 := rfl
      _ ≤ 2 ^ (info.lbaShift - 9) :=
        Nat.pow_le_pow_right (by decide) (by omega)
  have hmore : 2 * info.nsze ≤ info.nsze * 2 ^ (info.lbaShift - 9) := by
    rw [Nat.mul_comm]
    exact Nat.mul_le_mul_left _ htwo
  have hlba := congrArg ScsiCapacity.lba hagree.capacity16
  simp only [capacity16, hS] at hlba
  split at hlba <;> omega

/-- `0xFFFFFFFF` blocks saturate READ CAPACITY (10) although their last LBA
fits it. -/
theorem not_reportsAgree_edge (h : info.Plain)
    (hsize : info.nsze * 2 ^ info.lbaShift < 2 ^ 64)
    (hds : info.lbaShift = 9) (hedge : info.nsze = 0xFFFFFFFF) :
    ¬ReportsAgree (unitOfInfo maxZeroes n info) info.nsze info.lbaShift := by
  intro hagree
  have hS : (unitOfInfo maxZeroes n info).logicalSectors = info.nsze := by
    rw [logicalSectors_plain maxZeroes n h hsize, hds]
    simp
  have hlba := congrArg ScsiCapacity.lba hagree.capacity10
  simp only [capacity10, hS, hedge] at hlba
  exact absurd hlba (by decide)

end Reports

/-- The unit of a plain, nonempty namespace reports the device's capacity if
and only if the device uses 512-byte blocks and does not have exactly
`0xFFFFFFFF` of them. -/
theorem capacity_reports_agree_iff
    (info : NsInfo) (maxZeroes unitNumber : Nat) (hplain : info.Plain)
    (hpos : 0 < info.nsze) (hsize : info.nsze * 2 ^ info.lbaShift < 2 ^ 64) :
    ReportsAgree (unitOfInfo maxZeroes unitNumber info) info.nsze info.lbaShift ↔
      info.lbaShift = 9 ∧ info.nsze ≠ 0xFFFFFFFF := by
  constructor
  · intro hagree
    by_cases hds : info.lbaShift = 9
    · refine ⟨hds, ?_⟩
      intro hedge
      exact not_reportsAgree_edge maxZeroes unitNumber hplain hsize hds hedge hagree
    · exact absurd hagree (not_reportsAgree_large maxZeroes unitNumber hplain hpos hsize hds)
  · rintro ⟨hds, hedge⟩
    exact reportsAgree_sector maxZeroes unitNumber hplain hpos hsize hds hedge

/-- A plain namespace of `nsze` blocks of `2 ^ ds` bytes. -/
def plainInfo (nsid nsze ds : Nat) : NsInfo :=
  { NsInfo.init nsid with isReady := true, lbaShift := ds, nsze := nsze }

theorem capacity_reports_agree_iff_gibibyte :
    ReportsAgree (unitOfInfo 0 0 (plainInfo 1 0x200000 9)) 0x200000 9 ↔
      (9 : Nat) = 9 ∧ (0x200000 : Nat) ≠ 0xFFFFFFFF :=
  capacity_reports_agree_iff (plainInfo 1 0x200000 9) 0 0 (by decide)
    (by decide) (by decide)

/-- A 1 GiB namespace with 4096-byte blocks is reported eight times as large. -/
theorem capacity_reports_4k_disagree :
    (plainInfo 1 0x40000 12).Plain ∧
      capacity16 (unitOfInfo 0 0 (plainInfo 1 0x40000 12)) =
        { lba := 0x1FFFFF, blockSize := 4096 } ∧
      ¬ReportsAgree (unitOfInfo 0 0 (plainInfo 1 0x40000 12)) 0x40000 12 := by
  refine ⟨by decide, by decide, ?_⟩
  intro hagree
  exact absurd hagree.capacity16 (by decide)

end Namespace
end NvmeDriver
