import Mathlib.Tactic

/-!
# Namespaces and units

The three places a namespace's geometry lives in: the gathered Identify data
(`NsInfo`, from `struct nvme_ns_info`), the scan's record of the namespace
(`NvmeNs`, from `struct nvme_ns`) and the unit clients open (`NVMeUnit`).  The
functions here copy it from one to the next: `nvme_update_ns_info` and
`nvme_alloc_ns` (nvme_scan.c), `nvme_alloc_nvmeunit` (nvme_probe.c).

Identify fields that the driver stores but never reads (ANA group, endurance
group, shared, read-only, rotational, volatile-cache hints) are left out.
-/

namespace NvmeDriver
namespace Namespace

/-- `SECTOR_SHIFT`. -/
def sectorShift : Nat := 9

/-- `NVME_CSI_NVM`. -/
def csiNvm : Nat := 0

/-- Identifiers of a namespace, `struct nvme_ns_ids`; byte strings. -/
structure NsIds where
  eui64 : List Nat
  nguid : List Nat
  uuid : List Nat
  csi : Nat
deriving DecidableEq, Repr

/-- The zero-initialised identifiers. -/
def NsIds.zero : NsIds :=
  { eui64 := List.replicate 8 0, nguid := List.replicate 16 0
    uuid := List.replicate 16 0, csi := 0 }

/-- What the scan gathers for one NSID, `struct nvme_ns_info`. -/
structure NsInfo where
  ids : NsIds
  nsid : Nat
  isReady : Bool
  isRemoved : Bool
  lbaShift : Nat
  nsze : Nat
  deac : Bool
  ms : Nat
  piType : Nat
  pic : Nat
  elbaf : Nat
  lbstm : Nat
deriving DecidableEq, Repr

/-- `struct nvme_ns_info info = {.nsid = nsid}`. -/
def NsInfo.init (nsid : Nat) : NsInfo :=
  { ids := NsIds.zero, nsid := nsid, isReady := false, isRemoved := false
    lbaShift := 0, nsze := 0, deac := false, ms := 0, piType := 0
    pic := 0, elbaf := 0, lbstm := 0 }

/-- A namespace the driver can present as plain logical blocks. -/
def NsInfo.Plain (info : NsInfo) : Prop :=
  info.ids.csi = csiNvm ∧ info.ms = 0 ∧ info.piType = 0 ∧
    9 ≤ info.lbaShift ∧ info.lbaShift ≤ 12

instance (info : NsInfo) : Decidable info.Plain :=
  inferInstanceAs (Decidable (_ ∧ _))

/-- A registered namespace, `struct nvme_ns`; `unit` is the number of its
unit. -/
structure NvmeNs where
  nsId : Nat
  ids : NsIds
  lbaShift : Nat
  diskCapacitySectors : Nat
  unit : Option Nat
  ms : Nat
  piType : Nat
  pic : Nat
  elbaf : Nat
  lbstm : Nat
  /-- `NVME_NS_READY` -/
  ready : Bool
deriving DecidableEq, Repr

/-- One Amiga unit, `struct NVMeUnit`. -/
structure NVMeUnit where
  unitNumber : Nat
  nsid : Nat
  /-- `NVME_UNIT_DEAD` -/
  dead : Bool
  blockSize : Nat
  blockShift : Nat
  logicalSectors : Nat
  /-- `features & NVME_NS_DEAC` -/
  deac : Bool
  wzMaxBytes : Nat
  changeCount : Nat
deriving DecidableEq, Repr

/-- `nvme_lba_to_sect`: a device LBA in 512-byte sectors, 64-bit. -/
def nvmeLbaToSect (lbaShift lba : Nat) : Nat :=
  lba * 2 ^ (lbaShift - sectorShift) % 2 ^ 64

/-- `nvme_update_ns_info`, on the namespace and the unit it is linked to. -/
def nvmeUpdateNsInfo
    (ns : NvmeNs) (unit : Option NVMeUnit) (info : NsInfo) :
    NvmeNs × Option NVMeUnit :=
  if info.ids.csi ≠ csiNvm then
    ({ ns with ready := true }, unit)
  else
    let ns₁ : NvmeNs :=
      { ns with
        lbaShift := info.lbaShift, ms := info.ms, piType := info.piType
        pic := info.pic, elbaf := info.elbaf, lbstm := info.lbstm }
    let unit₁ := unit.map (fun u => { u with deac := info.deac })
    let ns₂ : NvmeNs :=
      if info.ms = 0 ∧ info.piType = 0 ∧ 9 ≤ ns₁.lbaShift ∧ ns₁.lbaShift ≤ 12 then
        { ns₁ with diskCapacitySectors := nvmeLbaToSect ns₁.lbaShift info.nsze }
      else ns₁
    ({ ns₂ with ready := true }, unit₁)

/-- The Write Zeroes byte cap cached in a unit: the smaller of
`max_zeroes_sectors` and 65536 blocks, 32-bit, rounded down to a block. -/
def wzMaxBytes (maxZeroesSectors blockShift : Nat) : Nat :=
  let byDev := maxZeroesSectors * 2 ^ sectorShift
  let byNlb := 0x10000 * 2 ^ blockShift % 2 ^ 64
  let lim := if byDev < byNlb then byDev else byNlb
  let lim₃₂ := if 0xFFFFFFFF < lim then 0xFFFFFFFF else lim
  lim₃₂ / 2 ^ blockShift * 2 ^ blockShift

/-- `nvme_alloc_nvmeunit`, once the allocation has succeeded. -/
def nvmeAllocNvmeunit
    (maxZeroesSectors unitNumber nsid blockSize blockShift logicalSectors : Nat)
    (deac : Bool) : NVMeUnit :=
  { unitNumber := unitNumber, nsid := nsid, dead := false
    blockSize := blockSize, blockShift := blockShift
    logicalSectors := logicalSectors, deac := deac
    wzMaxBytes := wzMaxBytes maxZeroesSectors blockShift
    changeCount := 1 }

/-- The zero-initialised namespace `nvme_alloc_ns` fills in. -/
def freshNs (info : NsInfo) : NvmeNs :=
  { nsId := info.nsid, ids := info.ids, lbaShift := 0, diskCapacitySectors := 0
    unit := none, ms := 0, piType := 0, pic := 0, elbaf := 0, lbstm := 0
    ready := false }

/-- The unit `nvme_alloc_ns` creates from the gathered Identify data. -/
def unitOfInfo (maxZeroesSectors unitNumber : Nat) (info : NsInfo) : NVMeUnit :=
  let ns := (nvmeUpdateNsInfo (freshNs info) none info).1
  nvmeAllocNvmeunit maxZeroesSectors unitNumber ns.nsId
    (2 ^ ns.lbaShift % 2 ^ 32) ns.lbaShift ns.diskCapacitySectors info.deac

/-- The range check of the dispatch paths, in 64-bit arithmetic:
`unit->logicalSectors > 0 && lba + blocks > unit->logicalSectors`. -/
def lbaOutOfRange (unit : NVMeUnit) (lba blocks : Nat) : Bool :=
  decide (0 < unit.logicalSectors ∧
    unit.logicalSectors < (lba + blocks) % 2 ^ 64)

/-! ### What a unit's geometry is -/

section Geometry

variable {info : NsInfo} (maxZeroes n : Nat)

/-- The unit of a plain namespace. -/
theorem unitOfInfo_plain (h : info.Plain) :
    (unitOfInfo maxZeroes n info).blockShift = info.lbaShift ∧
      (unitOfInfo maxZeroes n info).blockSize = 2 ^ info.lbaShift ∧
      (unitOfInfo maxZeroes n info).logicalSectors =
        nvmeLbaToSect info.lbaShift info.nsze := by
  obtain ⟨hcsi, hms, hpi, hlo, hhi⟩ := h
  have hpow : 2 ^ info.lbaShift < 4294967296 :=
    Nat.pow_lt_pow_right (by decide) (by omega : info.lbaShift < 32)
  simp [unitOfInfo, nvmeUpdateNsInfo, nvmeAllocNvmeunit, hcsi, hms, hpi, hlo,
    hhi, hpow]

end Geometry

end Namespace
end NvmeDriver
