import NvmeDriver.Rescan
import NvmeDriver.Responses
import Mathlib.Data.List.DropRight

/-!
# Units and their controllers

`NSCMD_NVME_UNIT_INFO` tells a client which units share a controller: a first unit number
and a count (device_beginio.c, nvme.h).  The numbers come from `base->nextUnitNumber`,
which all controllers share; the range comes from two fields of the controller.  Here is
the whole device, its controllers probed and rescanned in any order, one operation of one
scan at a time.
-/

namespace NvmeDriver
namespace Topology

open Namespace
open Scsi (IdStrings)

/-! ### Controllers -/

/-- `struct NVMeController`: what the topology query reads, and what its scans own. -/
structure NVMeController where
  nsCount : Nat
  firstUnitNumber : Nat
  idStrings : IdStrings
  scan : ScanState

/-- `struct NVMeDevice`.  The counter inside a controller's `scan` is this one, copied for
the time of an operation. -/
structure NVMeDevice where
  controllers : List NVMeController
  nextUnitNumber : Nat

/-- The units of the controller on `base->units`. -/
def NVMeController.liveUnits (ctrl : NVMeController) : List NVMeUnit :=
  ctrl.scan.units.filter (fun u => !u.dead)

/-! ### The query -/

/-- `struct NVMeUnitInfo`. -/
structure NVMeUnitInfo where
  structSize : Nat
  unitNumber : Nat
  nsid : Nat
  ctrlFirstUnit : Nat
  ctrlUnitCount : Nat
  capLo : Nat
  capHi : Nat
  version : Nat
  serial : List Nat
  model : List Nat
  firmware : List Nat
deriving DecidableEq

/-- `sizeof(struct NVMeUnitInfo)`: eight words and 24, 44 and 12 characters. -/
def unitInfoBytes : Nat := 8 * 4 + 24 + 44 + 12

/-- `NVME_REG_CAP` and `NVME_REG_VS`. -/
def regCap : Nat := 0x0000

def regVs : Nat := 0x0008

/-- `copy_trimmed`; what the destination holds past the NUL stays. -/
def copyTrimmed (dst src : List Nat) : List Nat :=
  let kept := src.rdropWhile (fun c => c == 0x20 || c == 0)
  kept ++ 0 :: dst.drop (kept.length + 1)

/-- The fields of the request that the query reads and writes; `data` is `none` for a null
`io_Data`. -/
structure UnitInfoIo where
  length : Nat
  data : Option NVMeUnitInfo
  actual : Nat
  error : Int

/-- What `do_nscmd_unit_info` stores in the caller's buffer; `regs` is `nvme_reg_read32`. -/
def fillUnitInfo (ctrl : NVMeController) (unit : NVMeUnit) (regs : Nat → Nat)
    (buf : NVMeUnitInfo) : NVMeUnitInfo :=
  { structSize := unitInfoBytes
    unitNumber := unit.unitNumber % 2 ^ 32
    nsid := unit.nsid
    ctrlFirstUnit := ctrl.firstUnitNumber
    ctrlUnitCount := ctrl.nsCount
    capLo := regs regCap
    capHi := regs (regCap + 4)
    version := regs regVs
    serial := copyTrimmed buf.serial ctrl.idStrings.serial
    model := copyTrimmed buf.model ctrl.idStrings.model
    firmware := copyTrimmed buf.firmware ctrl.idStrings.firmware }

/-- `do_nscmd_unit_info`. -/
def doNscmdUnitInfo (ctrl : NVMeController) (unit : NVMeUnit) (regs : Nat → Nat)
    (io : UnitInfoIo) : UnitInfoIo :=
  match io.data with
  | none => { io with error := ioerrBadLength }
  | some buf =>
      if io.length < unitInfoBytes then { io with error := ioerrBadLength }
      else
        { io with
          data := some (fillUnitInfo ctrl unit regs buf)
          actual := (fillUnitInfo ctrl unit regs buf).structSize
          error := 0 }

/-- beginIO, for this command: a unit whose namespace is gone refuses it. -/
def beginUnitInfo (ctrl : NVMeController) (unit : NVMeUnit) (regs : Nat → Nat)
    (io : UnitInfoIo) : UnitInfoIo :=
  if unit.dead then { io with error := tderrDiskChanged }
  else doNscmdUnitInfo ctrl unit regs { io with error := 0 }

/-- A query of the unit succeeds with this information. -/
def Answers (ctrl : NVMeController) (unit : NVMeUnit) (info : NVMeUnitInfo) : Prop :=
  ∃ regs io, (beginUnitInfo ctrl unit regs io).error = 0 ∧
    (beginUnitInfo ctrl unit regs io).data = some info

/-! ### Probing and rescans -/

/-- A part of `nvme_scan_namespaces`. -/
inductive ScanPart
  /-- the log of the scan starts anew -/
  | start
  /-- `nvme_init_non_mdts_limits` -/
  | limits
  /-- the changed namespace list is read, and ignored -/
  | changedList
  | op (o : ScanOp)

def applyScanPart (r : Responses) (s : ScanState) : ScanPart → ScanState
  | .start => { s with reads := [] }
  | .limits =>
      { s with
        ctrl := (nvmeInitNonMdtsLimits s.ctrl r s.seq).2.1
        seq := (nvmeInitNonMdtsLimits s.ctrl r s.seq).2.2 }
  | .changedList => { s with ctrl := { s.ctrl with nsChanged := false }, seq := s.seq + 1 }
  | .op o => applyScanOp r s o

/-- What happens to the controllers of the device. -/
inductive DeviceStep
  /-- `nvme_probe_controller` fails before its scan: the controller is freed -/
  | probeFails
  /-- `nvme_probe_controller` of a cleared controller reaches its scan -/
  | probe (idStrings : IdStrings) (ctrl : ScanCtrl)
  /-- a controller is identified again after a reset -/
  | reidentify (i : Nat) (idStrings : IdStrings) (ctrl : ScanCtrl)
  /-- a part of a scan of the i-th controller -/
  | scan (i : Nat) (r : Responses) (part : ScanPart)

/-- The scan state of a controller with the counter of the device in it. -/
def NVMeDevice.scanOf (dev : NVMeDevice) (ctrl : NVMeController) : ScanState :=
  { ctrl.scan with nextUnitNumber := dev.nextUnitNumber }

def deviceStep (dev : NVMeDevice) : DeviceStep → NVMeDevice
  | .probeFails => dev
  | .probe idStrings ctrl =>
      { dev with
        controllers := dev.controllers ++
          [{ nsCount := 0, firstUnitNumber := 0, idStrings := idStrings
             scan := unscanned ctrl dev.nextUnitNumber }] }
  | .reidentify i idStrings ctrl =>
      match dev.controllers[i]? with
      | none => dev
      | some c =>
          { dev with
            controllers := dev.controllers.set i
              { c with idStrings := idStrings, scan := { c.scan with ctrl := ctrl } } }
  | .scan i r part =>
      match dev.controllers[i]? with
      | none => dev
      | some c =>
          { controllers := dev.controllers.set i
              { c with scan := applyScanPart r (dev.scanOf c) part }
            nextUnitNumber := (applyScanPart r (dev.scanOf c) part).nextUnitNumber }

/-- The device as `nvme_probe_all` finds it, and after the given steps. -/
def deviceRun (steps : List DeviceStep) : NVMeDevice :=
  steps.foldl deviceStep { controllers := [], nextUnitNumber := 0 }

/-! ### What the report promises -/

/-- The number lies in the range with the given first number and count. -/
def InRange (first count n : Nat) : Prop := first ≤ n ∧ n < first + count

/-- What each live unit is told names a range with its own number in it. -/
def RangesHoldUnits (dev : NVMeDevice) : Prop :=
  ∀ ctrl ∈ dev.controllers, ∀ unit ∈ ctrl.liveUnits, ∀ info, Answers ctrl unit info →
    InRange info.ctrlFirstUnit info.ctrlUnitCount info.unitNumber

/-- The range of each controller holds the numbers of its units and no others. -/
def RangesExact (dev : NVMeDevice) : Prop :=
  ∀ ctrl ∈ dev.controllers, ∀ n,
    InRange ctrl.firstUnitNumber ctrl.nsCount n ↔ n ∈ ctrl.liveUnits.map NVMeUnit.unitNumber

/-- The report over a run: in every state each live unit is told a range it is in, and when
probing ends the ranges are exact. -/
structure TopologyReported (probing later : List DeviceStep) : Prop where
  answers : ∀ steps, steps <+: probing ++ later → RangesHoldUnits (deviceRun steps)
  exact : RangesExact (deviceRun probing)

/-- The operation finds a ready namespace that is not registered, and both allocations
succeed. -/
def createsUnit (r : Responses) (s : ScanState) : ScanOp → Bool
  | .visit nsid =>
      let g := nvmeIdentifyNsInfo s.ctrl r s.seq (NsInfo.init nsid)
      decide (g.ret = 0) && g.info.isReady && (nvmeFindNs s nsid).isNone &&
        r.allocNs g.seq && r.allocUnit g.seq
  | _ => false

def DeviceStep.creates (dev : NVMeDevice) : DeviceStep → Bool
  | .scan i r (.op o) =>
      match dev.controllers[i]? with
      | none => false
      | some c => createsUnit r (dev.scanOf c) o
  | _ => false

/-- No step of the run creates a unit. -/
def NeverCreates (steps : List DeviceStep) : Prop :=
  ∀ done step, done ++ [step] <+: steps → step.creates (deviceRun done) = false

/-! ### What a query answers -/

section Query

variable {ctrl : NVMeController} {unit : NVMeUnit} {info : NVMeUnitInfo}

/-- The trimmed text and its NUL stay inside a longer destination. -/
theorem copyTrimmed_length {dst src : List Nat} (hfits : src.length < dst.length) :
    (copyTrimmed dst src).length = dst.length := by
  have hkept := (List.rdropWhile_prefix (fun c => c == 0x20 || c == 0) src).length_le
  unfold copyTrimmed
  rw [List.length_append, List.length_cons, List.length_drop]
  omega

/-- The texts of an answer keep the sizes of their fields. -/
theorem fillUnitInfo_lengths (regs : Nat → Nat) {buf : NVMeUnitInfo}
    (hserial : buf.serial.length = 24) (hmodel : buf.model.length = 44)
    (hfirmware : buf.firmware.length = 12) :
    (fillUnitInfo ctrl unit regs buf).serial.length = 24 ∧
      (fillUnitInfo ctrl unit regs buf).model.length = 44 ∧
      (fillUnitInfo ctrl unit regs buf).firmware.length = 12 := by
  refine ⟨?_, ?_, ?_⟩
  · rw [← hserial]
    exact copyTrimmed_length (by rw [ctrl.idStrings.serial_length, hserial]; decide)
  · rw [← hmodel]
    exact copyTrimmed_length (by rw [ctrl.idStrings.model_length, hmodel]; decide)
  · rw [← hfirmware]
    exact copyTrimmed_length (by rw [ctrl.idStrings.firmware_length, hfirmware]; decide)

/-- The range in an answer is that of the controller. -/
theorem answers_fields (h : Answers ctrl unit info) :
    info.unitNumber = unit.unitNumber % 2 ^ 32 ∧ info.nsid = unit.nsid ∧
      info.ctrlFirstUnit = ctrl.firstUnitNumber ∧ info.ctrlUnitCount = ctrl.nsCount := by
  obtain ⟨regs, io, herr, hdata⟩ := h
  unfold beginUnitInfo at herr hdata
  split at herr
  · cases herr
  · rename_i hlive
    rw [if_neg hlive] at hdata
    unfold doNscmdUnitInfo at herr hdata
    cases hbuf : io.data with
    | none =>
        simp only [hbuf] at herr
        cases herr
    | some buf =>
        simp only [hbuf] at herr hdata
        split at herr
        · cases herr
        · rename_i hlen
          rw [if_neg hlen] at hdata
          cases hdata
          exact ⟨rfl, rfl, rfl, rfl⟩

/-- A live unit answers a query whose buffer is large enough. -/
theorem answers_live (hlive : unit.dead = false) (regs : Nat → Nat) (buf : NVMeUnitInfo) :
    Answers ctrl unit (fillUnitInfo ctrl unit regs buf) := by
  have hbegin : beginUnitInfo ctrl unit regs ⟨unitInfoBytes, some buf, 0, 0⟩ =
      ⟨unitInfoBytes, some (fillUnitInfo ctrl unit regs buf), unitInfoBytes, 0⟩ := by
    unfold beginUnitInfo
    rw [hlive]
    rfl
  exact ⟨regs, _, congrArg UnitInfoIo.error hbegin, congrArg UnitInfoIo.data hbegin⟩

end Query

/-! ### What an operation does to the units -/

/-- The numbers of the units that are not dead. -/
def liveNumbers (s : ScanState) : List Nat :=
  (s.units.filter (fun u => !u.dead)).map NVMeUnit.unitNumber

section Operations

variable {r : Responses} {s t : ScanState}

theorem mem_liveNumbers {n : Nat} :
    n ∈ liveNumbers s ↔ ∃ u, u ∈ s.units ∧ u.dead = false ∧ u.unitNumber = n := by
  unfold liveNumbers
  rw [List.mem_map]
  constructor
  · rintro ⟨u, hu, hn⟩
    obtain ⟨hmem, hlive⟩ := List.mem_filter.mp hu
    exact ⟨u, hmem, by simpa using hlive, hn⟩
  · rintro ⟨u, hmem, hlive, hn⟩
    refine ⟨u, List.mem_filter.mpr ⟨hmem, ?_⟩, hn⟩
    rw [hlive]
    rfl

theorem liveNumbers_bindings (hb : bindings t = bindings s) : liveNumbers t = liveNumbers s := by
  have hunits : t.units.map (fun u => (u.unitNumber, u.nsid, u.dead)) =
      s.units.map (fun u => (u.unitNumber, u.nsid, u.dead)) :=
    congrArg (fun b => b.2.1) hb
  have hof : ∀ v : ScanState, liveNumbers v =
      ((v.units.map (fun u => (u.unitNumber, u.nsid, u.dead))).filter
        (fun k => !k.2.2)).map Prod.fst := by
    intro v
    rw [List.filter_map, List.map_map]
    rfl
  rw [hof t, hof s, hunits]

theorem liveNumbers_nsRemove (s : ScanState) (ns : NvmeNs) :
    liveNumbers (nvmeNsRemove s ns) ⊆ liveNumbers s := by
  intro n hn
  obtain ⟨u, hu, hlive, rfl⟩ := mem_liveNumbers.mp hn
  refine mem_liveNumbers.mpr ?_
  cases hunit : ns.unit with
  | none =>
      simp only [nvmeNsRemove, hunit] at hu
      exact ⟨u, hu, hlive, rfl⟩
  | some k =>
      simp only [nvmeNsRemove, hunit, updateUnit, List.mem_map] at hu
      obtain ⟨v, hv, rfl⟩ := hu
      split at hlive
      · cases hlive
      · rename_i hne
        rw [if_neg hne]
        exact ⟨v, hv, hlive, rfl⟩

theorem liveNumbers_removeByNsid (s : ScanState) (nsid : Nat) :
    liveNumbers (nvmeNsRemoveByNsid s nsid) ⊆ liveNumbers s := by
  unfold nvmeNsRemoveByNsid
  cases nvmeFindNs s nsid with
  | none => exact List.Subset.refl _
  | some ns => exact liveNumbers_nsRemove s ns

theorem liveNumbers_foldl_nsRemove (l : List NvmeNs) (s : ScanState) :
    liveNumbers (l.foldl nvmeNsRemove s) ⊆ liveNumbers s := by
  induction l generalizing s with
  | nil => exact List.Subset.refl _
  | cons ns l ih =>
      exact List.Subset.trans (ih (nvmeNsRemove s ns)) (liveNumbers_nsRemove s ns)

theorem liveNumbers_validateNs (s : ScanState) (ns : NvmeNs) (info : NsInfo) :
    liveNumbers (nvmeValidateNs s ns info) ⊆ liveNumbers s := by
  unfold nvmeValidateNs
  split
  · rw [liveNumbers_bindings (commitNs_bindings s ns info)]
    exact List.Subset.refl _
  · exact liveNumbers_nsRemove s ns

/-- A registration adds one unit, with the next number, when both allocations succeed. -/
theorem nvmeAllocNs_units (s : ScanState) (r : Responses) (info : NsInfo) :
    if r.allocNs s.seq && r.allocUnit s.seq then
      ∃ u : NVMeUnit, u.dead = false ∧ u.unitNumber = s.nextUnitNumber ∧
        (nvmeAllocNs s r info).1.units = s.units ++ [u]
    else (nvmeAllocNs s r info).1.units = s.units := by
  unfold nvmeAllocNs
  dsimp only
  generalize (!s.ctrl.quirkBogusNid && nvmeNsIdsDuplicate s info.ids) = dup
  cases r.allocNs s.seq with
  | false => cases dup <;> rfl
  | true =>
      cases r.allocUnit s.seq with
      | false => cases dup <;> rfl
      | true =>
          cases dup with
          | false => exact ⟨_, rfl, rfl, rfl⟩
          | true => exact ⟨_, rfl, rfl, rfl⟩

/-- The state in which a visit has removed what the controller says is gone. -/
def afterGone (s : ScanState) (nsid : Nat) (g : Gather) : ScanState :=
  if g.info.isRemoved then nvmeNsRemoveByNsid { s with seq := g.seq } nsid
  else { s with seq := g.seq }

theorem liveNumbers_afterGone (s : ScanState) (nsid : Nat) (g : Gather) :
    liveNumbers (afterGone s nsid g) ⊆ liveNumbers s := by
  unfold afterGone
  split
  · exact liveNumbers_removeByNsid _ nsid
  · exact List.Subset.refl _

/-- A visit whose gathering fails ends with the removal. -/
theorem nvmeScanNs_fails {nsid : Nat}
    (hret : (nvmeIdentifyNsInfo s.ctrl r s.seq (NsInfo.init nsid)).ret ≠ 0) :
    nvmeScanNs s r nsid =
      afterGone s nsid (nvmeIdentifyNsInfo s.ctrl r s.seq (NsInfo.init nsid)) := by
  unfold nvmeScanNs afterGone
  dsimp only
  rw [if_pos hret]

/-- Otherwise the units are those of the branch the data and the record select. -/
theorem nvmeScanNs_units {nsid : Nat}
    (hret : (nvmeIdentifyNsInfo s.ctrl r s.seq (NsInfo.init nsid)).ret = 0) :
    (nvmeScanNs s r nsid).units =
      let g := nvmeIdentifyNsInfo s.ctrl r s.seq (NsInfo.init nsid)
      if g.info.isReady then
        match nvmeFindNs s nsid with
        | some ns => (nvmeValidateNs { s with seq := g.seq } ns g.info).units
        | none => (nvmeAllocNs { s with seq := g.seq } r g.info).1.units
      else s.units := by
  have hkept := nvmeIdentifyNsInfo_isRemoved s.ctrl r s.seq nsid hret
  unfold nvmeScanNs
  dsimp only
  generalize nvmeIdentifyNsInfo s.ctrl r s.seq (NsInfo.init nsid) = g at hret hkept ⊢
  have hfind : nvmeFindNs { s with seq := g.seq } nsid = nvmeFindNs s nsid := rfl
  rw [hkept, if_neg (not_not.mpr hret)]
  simp only [Bool.false_eq_true, if_false, hfind]
  split
  · cases nvmeFindNs s nsid <;> rfl
  · rfl

theorem liveNumbers_congr (hunits : t.units = s.units) : liveNumbers t = liveNumbers s := by
  unfold liveNumbers
  rw [hunits]

/-- An operation that creates no unit leaves no number live that was not. -/
theorem applyScanOp_liveNumbers {o : ScanOp} (hno : createsUnit r s o = false) :
    liveNumbers (applyScanOp r s o) ⊆ liveNumbers s := by
  cases o with
  | tick => exact List.Subset.refl _
  | drop nsid => exact liveNumbers_removeByNsid s nsid
  | cut nsid => exact liveNumbers_foldl_nsRemove _ s
  | visit nsid =>
      change liveNumbers (nvmeScanNs s r nsid) ⊆ liveNumbers s
      by_cases hret : (nvmeIdentifyNsInfo s.ctrl r s.seq (NsInfo.init nsid)).ret = 0
      · have hunits := nvmeScanNs_units hret
        unfold createsUnit at hno
        dsimp only at hno hunits
        generalize nvmeIdentifyNsInfo s.ctrl r s.seq (NsInfo.init nsid) = g at hret hno hunits
        cases hready : g.info.isReady with
        | false =>
            simp only [hready, Bool.false_eq_true, if_false] at hunits
            rw [liveNumbers_congr hunits]
            exact List.Subset.refl _
        | true =>
            simp only [hready, if_true] at hunits
            cases hfind : nvmeFindNs s nsid with
            | some ns =>
                rw [hfind] at hunits
                rw [liveNumbers_congr hunits]
                exact liveNumbers_validateNs { s with seq := g.seq } ns g.info
            | none =>
                rw [hfind] at hunits
                have halloc : (r.allocNs g.seq && r.allocUnit g.seq) = false := by
                  simpa [hret, hready, hfind] using hno
                have hsame := nvmeAllocNs_units { s with seq := g.seq } r g.info
                rw [if_neg (by simpa using halloc)] at hsame
                rw [liveNumbers_congr (hunits.trans hsame)]
                exact List.Subset.refl _
      · rw [nvmeScanNs_fails hret]
        exact liveNumbers_afterGone s nsid _

/-- An operation that creates a unit makes the next number live. -/
theorem applyScanOp_creates {o : ScanOp} (hcreates : createsUnit r s o = true) :
    s.nextUnitNumber ∈ liveNumbers (applyScanOp r s o) := by
  cases o with
  | tick => cases hcreates
  | drop nsid => cases hcreates
  | cut nsid => cases hcreates
  | visit nsid =>
      change s.nextUnitNumber ∈ liveNumbers (nvmeScanNs s r nsid)
      have hunits := @nvmeScanNs_units r s nsid
      unfold createsUnit at hcreates
      dsimp only at hcreates hunits
      generalize nvmeIdentifyNsInfo s.ctrl r s.seq (NsInfo.init nsid) = g at hcreates hunits
      simp only [Bool.and_eq_true, decide_eq_true_eq, Option.isNone_iff_eq_none] at hcreates
      obtain ⟨⟨⟨⟨hret, hready⟩, hfind⟩, hns⟩, hunit⟩ := hcreates
      specialize hunits hret
      simp only [hready, hfind, if_true] at hunits
      have hadd := nvmeAllocNs_units { s with seq := g.seq } r g.info
      rw [if_pos (by simp [hns, hunit])] at hadd
      obtain ⟨u, hlive, hnumber, happend⟩ := hadd
      refine mem_liveNumbers.mpr ⟨u, ?_, hlive, hnumber⟩
      rw [hunits, happend]
      exact List.mem_append_right _ (List.mem_singleton_self u)

end Operations

/-! ### Steps of the device -/

/-- The two fields of the report are as they were allocated. -/
def Unreported (dev : NVMeDevice) : Prop :=
  ∀ ctrl ∈ dev.controllers, ctrl.nsCount = 0 ∧ ctrl.firstUnitNumber = 0

/-- No unit of any controller is live. -/
def Unitless (dev : NVMeDevice) : Prop :=
  ∀ ctrl ∈ dev.controllers, liveNumbers ctrl.scan = []

section Steps

variable {dev : NVMeDevice} {step : DeviceStep}

/-- A scan part other than an operation touches no unit. -/
theorem applyScanPart_liveNumbers {r : Responses} {s : ScanState} {part : ScanPart}
    (hno : ∀ o, part = .op o → createsUnit r s o = false) :
    liveNumbers (applyScanPart r s part) ⊆ liveNumbers s := by
  cases part with
  | start => exact List.Subset.refl _
  | limits => exact List.Subset.refl _
  | changedList => exact List.Subset.refl _
  | op o => exact applyScanOp_liveNumbers (hno o rfl)

/-- A controller after a step is a cleared one, or one from before the step whose report
fields are as they were and whose live units only a creating step adds to. -/
theorem mem_deviceStep {ctrl : NVMeController}
    (hctrl : ctrl ∈ (deviceStep dev step).controllers) :
    (ctrl.nsCount = 0 ∧ ctrl.firstUnitNumber = 0 ∧ liveNumbers ctrl.scan = []) ∨
      ∃ old ∈ dev.controllers, ctrl.nsCount = old.nsCount ∧
        ctrl.firstUnitNumber = old.firstUnitNumber ∧
        (step.creates dev = false → liveNumbers ctrl.scan ⊆ liveNumbers old.scan) := by
  have hsame : ∀ c ∈ dev.controllers, ∃ old ∈ dev.controllers, c.nsCount = old.nsCount ∧
      c.firstUnitNumber = old.firstUnitNumber ∧
      (step.creates dev = false → liveNumbers c.scan ⊆ liveNumbers old.scan) :=
    fun c hc => ⟨c, hc, rfl, rfl, fun _ => List.Subset.refl _⟩
  cases step with
  | probeFails => exact .inr (hsame ctrl hctrl)
  | probe idStrings c =>
      rcases List.mem_append.mp hctrl with hctrl | hctrl
      · exact .inr (hsame ctrl hctrl)
      · rw [List.mem_singleton.mp hctrl]
        exact .inl ⟨rfl, rfl, rfl⟩
  | reidentify i idStrings c =>
      right
      dsimp only [deviceStep] at hctrl
      cases hi : dev.controllers[i]? with
      | none =>
          rw [hi] at hctrl
          exact hsame ctrl hctrl
      | some old =>
          rw [hi] at hctrl
          rcases List.mem_or_eq_of_mem_set hctrl with hctrl | rfl
          · exact hsame ctrl hctrl
          · exact ⟨old, List.mem_of_getElem? hi, rfl, rfl, fun _ => List.Subset.refl _⟩
  | scan i r part =>
      right
      dsimp only [deviceStep] at hctrl
      cases hi : dev.controllers[i]? with
      | none =>
          rw [hi] at hctrl
          exact hsame ctrl hctrl
      | some old =>
          rw [hi] at hctrl
          rcases List.mem_or_eq_of_mem_set hctrl with hctrl | rfl
          · exact hsame ctrl hctrl
          · refine ⟨old, List.mem_of_getElem? hi, rfl, rfl, fun hno => ?_⟩
            refine applyScanPart_liveNumbers (s := dev.scanOf old) ?_
            rintro o rfl
            simpa [DeviceStep.creates, hi] using hno

/-- No step writes `nsCount` or `firstUnitNumber`. -/
theorem deviceStep_unreported (h : Unreported dev) (step : DeviceStep) :
    Unreported (deviceStep dev step) := by
  intro ctrl hctrl
  rcases mem_deviceStep hctrl with ⟨hcount, hfirst, -⟩ | ⟨old, hold, hcount, hfirst, -⟩
  · exact ⟨hcount, hfirst⟩
  · obtain ⟨hcount₀, hfirst₀⟩ := h old hold
    exact ⟨hcount.trans hcount₀, hfirst.trans hfirst₀⟩

/-- A step that creates no unit leaves a device without live units so. -/
theorem deviceStep_unitless (h : Unitless dev) (hno : step.creates dev = false) :
    Unitless (deviceStep dev step) := by
  intro ctrl hctrl
  rcases mem_deviceStep hctrl with ⟨-, -, hnone⟩ | ⟨old, hold, -, -, hsub⟩
  · exact hnone
  · have hkept := hsub hno
    rw [h old hold] at hkept
    exact List.eq_nil_of_subset_nil hkept

/-- A step that creates a unit leaves a controller with a live one. -/
theorem deviceStep_creates (hcreates : step.creates dev = true) :
    ∃ ctrl ∈ (deviceStep dev step).controllers, dev.nextUnitNumber ∈ liveNumbers ctrl.scan := by
  cases step with
  | probeFails => cases hcreates
  | probe idStrings c => cases hcreates
  | reidentify i idStrings c => cases hcreates
  | scan i r part =>
      cases part with
      | start => cases hcreates
      | limits => cases hcreates
      | changedList => cases hcreates
      | op o =>
          dsimp only [DeviceStep.creates] at hcreates
          dsimp only [deviceStep]
          cases hi : dev.controllers[i]? with
          | none =>
              rw [hi] at hcreates
              cases hcreates
          | some old =>
              rw [hi] at hcreates
              have hlt := (List.getElem?_eq_some_iff.mp hi).1
              have hlive : dev.nextUnitNumber ∈ liveNumbers (applyScanOp r (dev.scanOf old) o) :=
                applyScanOp_creates (s := dev.scanOf old) hcreates
              refine ⟨{ old with scan := applyScanPart r (dev.scanOf old) (.op o) }, ?_, hlive⟩
              exact List.mem_set hlt _

/-- A device with live units answers queries outside the ranges it names. -/
theorem not_rangesHoldUnits (h : Unreported dev) {ctrl : NVMeController}
    (hctrl : ctrl ∈ dev.controllers) {n : Nat} (hn : n ∈ liveNumbers ctrl.scan) :
    ¬RangesHoldUnits dev := by
  intro hold
  obtain ⟨u, hu, hlive, -⟩ := mem_liveNumbers.mp hn
  have hmem : u ∈ ctrl.liveUnits := List.mem_filter.mpr ⟨hu, by rw [hlive]; rfl⟩
  let buf : NVMeUnitInfo := ⟨0, 0, 0, 0, 0, 0, 0, 0, [], [], []⟩
  have hanswer : Answers ctrl u (fillUnitInfo ctrl u (fun _ => 0) buf) :=
    answers_live hlive _ buf
  obtain ⟨-, -, hfirst, hcount⟩ := answers_fields hanswer
  obtain ⟨hlo, hhi⟩ := hold ctrl hctrl u hmem _ hanswer
  obtain ⟨hcount₀, hfirst₀⟩ := h ctrl hctrl
  rw [hfirst, hcount, hcount₀, hfirst₀] at hhi
  exact absurd hhi (Nat.not_lt_zero _)

theorem Unitless.rangesHoldUnits (h : Unitless dev) : RangesHoldUnits dev := by
  intro ctrl hctrl u hu
  have hnone : ctrl.liveUnits = [] := List.map_eq_nil_iff.mp (h ctrl hctrl)
  rw [hnone] at hu
  cases hu

theorem Unitless.rangesExact (h : Unitless dev) (hfields : Unreported dev) :
    RangesExact dev := by
  intro ctrl hctrl n
  obtain ⟨hcount, hfirst⟩ := hfields ctrl hctrl
  have hnone : ctrl.liveUnits.map NVMeUnit.unitNumber = [] := h ctrl hctrl
  rw [hnone, hcount, hfirst]
  exact ⟨fun hn => absurd hn.2 (Nat.not_lt_zero n), fun hn => nomatch hn⟩

end Steps

/-! ### Whole scans -/

section Scans

variable (r : Responses)

theorem removeGap_parts (n first : Nat) (s : ScanState) :
    ∃ parts, (removeGap n first s).1 = List.foldl (applyScanPart r) s parts := by
  induction n generalizing first s with
  | zero => exact ⟨[], rfl⟩
  | succ n ih =>
      obtain ⟨parts, hparts⟩ := ih (first + 1) (nvmeNsRemoveByNsid s first)
      exact ⟨.op (.drop first) :: parts, hparts⟩

theorem scanListPage_parts (page : List Nat) (prev : Nat) (s : ScanState) :
    ∃ parts, (scanListPage r page prev s).1 = List.foldl (applyScanPart r) s parts := by
  induction page generalizing prev s with
  | nil => exact ⟨[], rfl⟩
  | cons nsid rest ih =>
      unfold scanListPage
      split
      · exact ⟨[], rfl⟩
      · dsimp only
        generalize (prev + 1) % 2 ^ 32 = first
        obtain ⟨gap, hgap⟩ := removeGap_parts r (nsid - first) first (nvmeScanNs s r nsid)
        obtain ⟨parts, hparts⟩ := ih (removeGap (nsid - first) first (nvmeScanNs s r nsid)).2
          (removeGap (nsid - first) first (nvmeScanNs s r nsid)).1
        refine ⟨.op (.visit nsid) :: (gap ++ parts), ?_⟩
        rw [hparts, hgap, List.foldl_cons, List.foldl_append]
        rfl

theorem nvmeScanNsList_parts (fuel prev : Nat) (s : ScanState) {t : ScanState} {ret : Int}
    (h : nvmeScanNsList r fuel prev s = some (t, ret)) :
    ∃ parts, t = List.foldl (applyScanPart r) s parts := by
  induction fuel generalizing prev s with
  | zero => cases h
  | succ fuel ih =>
      unfold nvmeScanNsList at h
      cases hlist : r.activeList s.seq prev with
      | error e =>
          rw [hlist] at h
          cases h
          exact ⟨[.op .tick], rfl⟩
      | ok nsids =>
          rw [hlist] at h
          dsimp only at h
          obtain ⟨page, hpage⟩ := scanListPage_parts r
            ((nsids ++ List.replicate nsListEntries 0).take nsListEntries) prev
            { s with seq := s.seq + 1 }
          generalize scanListPage r ((nsids ++ List.replicate nsListEntries 0).take
            nsListEntries) prev { s with seq := s.seq + 1 } = p at h hpage
          obtain ⟨s₁, prev₁, ended⟩ := p
          dsimp only at h hpage
          cases ended with
          | true =>
              cases h
              refine ⟨.op .tick :: (page ++ [.op (.cut prev₁)]), ?_⟩
              rw [List.foldl_cons, List.foldl_append, hpage]
              rfl
          | false =>
              obtain ⟨parts, hparts⟩ := ih prev₁ s₁ h
              refine ⟨.op .tick :: (page ++ parts), ?_⟩
              rw [hparts, List.foldl_cons, List.foldl_append, hpage]
              rfl

theorem scanSequentialLoop_parts (n i : Nat) (s : ScanState) :
    ∃ parts, scanSequentialLoop r n i s = List.foldl (applyScanPart r) s parts := by
  induction n generalizing i s with
  | zero => exact ⟨[], rfl⟩
  | succ n ih =>
      obtain ⟨parts, hparts⟩ := ih (i + 1) (nvmeScanNs s r i)
      exact ⟨.op (.visit i) :: parts, hparts⟩

theorem nvmeScanNsSequential_parts {s t : ScanState}
    (h : nvmeScanNsSequential r s = some t) :
    ∃ parts, t = List.foldl (applyScanPart r) s parts := by
  unfold nvmeScanNsSequential at h
  split at h
  · cases h
    exact ⟨[.op .tick], rfl⟩
  · rename_i nn _
    split at h
    · cases h
    · cases h
      obtain ⟨parts, hparts⟩ := scanSequentialLoop_parts r nn 1 { s with seq := s.seq + 1 }
      refine ⟨.op .tick :: (parts ++ [.op (.cut nn)]), ?_⟩
      rw [hparts, List.foldl_cons, List.foldl_append]
      rfl

/-- The limits are read, and a changed namespace list is taken note of. -/
theorem prepared_parts (s : ScanState) :
    ∃ parts, prepared r s = List.foldl (applyScanPart r) s (.start :: parts) := by
  unfold prepared
  dsimp only
  split
  · exact ⟨[.limits, .changedList], rfl⟩
  · exact ⟨[.limits], rfl⟩

/-- A scan is a list of its parts, whatever the controller answers. -/
theorem nvmeScanNamespaces_parts (fuel : Nat) {s t : ScanState}
    (h : nvmeScanNamespaces fuel r s = some t) :
    ∃ parts, t = List.foldl (applyScanPart r) s (.start :: parts) := by
  obtain ⟨first, hfirst⟩ := prepared_parts r s
  have hcons : ∀ parts, List.foldl (applyScanPart r) (prepared r s) parts =
      List.foldl (applyScanPart r) s (.start :: (first ++ parts)) := by
    intro parts
    rw [hfirst, ← List.cons_append, List.foldl_append]
  cases hlive : s.ctrl.live with
  | false =>
      unfold nvmeScanNamespaces at h
      rw [hlive] at h
      cases h
      exact ⟨[], rfl⟩
  | true =>
      by_cases hneg : (nvmeInitNonMdtsLimits s.ctrl r s.seq).1 < 0
      · unfold nvmeScanNamespaces at h
        rw [hlive, if_pos rfl] at h
        dsimp only at h
        rw [if_pos hneg] at h
        cases h
        exact ⟨[.limits], rfl⟩
      · rw [nvmeScanNamespaces_prepared fuel hlive hneg] at h
        split at h
        · split at h
          · cases h
          · rename_i s₃ ret hlist
            obtain ⟨list, hparts⟩ := nvmeScanNsList_parts r fuel 0 (prepared r s) hlist
            split at h
            · obtain ⟨rest, hrest⟩ := nvmeScanNsSequential_parts r h
              refine ⟨first ++ (list ++ rest), ?_⟩
              rw [hrest, hparts, ← List.foldl_append, hcons]
            · cases h
              exact ⟨first ++ list, by rw [hparts, hcons]⟩
        · obtain ⟨rest, hrest⟩ := nvmeScanNsSequential_parts r h
          exact ⟨first ++ rest, by rw [hrest, hcons]⟩

/-- Parts of one controller's scan, with no other step between them. -/
theorem deviceStep_parts (i : Nat) (part : ScanPart) (parts : List ScanPart)
    {dev : NVMeDevice} {c : NVMeController} (hi : dev.controllers[i]? = some c) :
    List.foldl deviceStep dev ((part :: parts).map (DeviceStep.scan i r)) =
      { controllers := dev.controllers.set i
          { c with scan := List.foldl (applyScanPart r) (dev.scanOf c) (part :: parts) }
        nextUnitNumber :=
          (List.foldl (applyScanPart r) (dev.scanOf c) (part :: parts)).nextUnitNumber } := by
  induction parts generalizing part dev c with
  | nil =>
      simp only [List.map_cons, List.map_nil, List.foldl_cons, List.foldl_nil, deviceStep, hi]
  | cons next parts ih =>
      have hlt := (List.getElem?_eq_some_iff.mp hi).1
      have hstep : deviceStep dev (.scan i r part) =
          { controllers := dev.controllers.set i
              { c with scan := applyScanPart r (dev.scanOf c) part }
            nextUnitNumber := (applyScanPart r (dev.scanOf c) part).nextUnitNumber } := by
        simp only [deviceStep, hi]
      rw [List.map_cons, List.foldl_cons, hstep,
        ih next (c := { c with scan := applyScanPart r (dev.scanOf c) part })
          (List.getElem?_set_self hlt)]
      rw [List.set_set]
      rfl

/-- A whole scan of one controller is a run of steps. -/
theorem nvmeScanNamespaces_steps (fuel i : Nat) {dev : NVMeDevice} {c : NVMeController}
    {t : ScanState} (hi : dev.controllers[i]? = some c)
    (h : nvmeScanNamespaces fuel r (dev.scanOf c) = some t) :
    ∃ steps, List.foldl deviceStep dev steps =
      { controllers := dev.controllers.set i { c with scan := t }
        nextUnitNumber := t.nextUnitNumber } := by
  obtain ⟨parts, hparts⟩ := nvmeScanNamespaces_parts r fuel h
  refine ⟨(ScanPart.start :: parts).map (DeviceStep.scan i r), ?_⟩
  rw [deviceStep_parts r i .start parts hi, ← hparts]

end Scans

/-! ### Runs of the device -/

section Runs

theorem deviceRun_snoc (done : List DeviceStep) (step : DeviceStep) :
    deviceRun (done ++ [step]) = deviceStep (deviceRun done) step := by
  unfold deviceRun
  rw [List.foldl_append]
  rfl

/-- No run writes `nsCount` or `firstUnitNumber`. -/
theorem deviceRun_unreported (steps : List DeviceStep) : Unreported (deviceRun steps) := by
  induction steps using List.reverseRecOn with
  | nil => exact fun ctrl hctrl => nomatch hctrl
  | append_singleton done step ih =>
      rw [deviceRun_snoc]
      exact deviceStep_unreported ih step

theorem NeverCreates.of_prefix {steps all : List DeviceStep} (h : NeverCreates all)
    (hupto : steps <+: all) : NeverCreates steps :=
  fun done step hdone => h done step (hdone.trans hupto)

theorem deviceRun_unitless {steps : List DeviceStep} (h : NeverCreates steps) :
    Unitless (deviceRun steps) := by
  induction steps using List.reverseRecOn with
  | nil => exact fun ctrl hctrl => nomatch hctrl
  | append_singleton done step ih =>
      rw [deviceRun_snoc]
      have hdone := ih (h.of_prefix (List.prefix_append done [step]))
      exact deviceStep_unitless hdone (h done step (List.prefix_refl _))

end Runs

/-- The report is right in a run exactly when no step of the run creates a unit. -/
theorem topology_reported_iff (probing later : List DeviceStep) :
    TopologyReported probing later ↔ NeverCreates (probing ++ later) := by
  constructor
  · intro hreport done step hupto
    by_contra hcreates
    rw [Bool.not_eq_false] at hcreates
    have hhold := hreport.answers _ hupto
    have hfields := deviceRun_unreported (done ++ [step])
    rw [deviceRun_snoc] at hhold hfields
    obtain ⟨ctrl, hctrl, hn⟩ := deviceStep_creates hcreates
    exact not_rangesHoldUnits hfields hctrl hn hhold
  · intro hnever
    constructor
    · intro steps hupto
      exact (deviceRun_unitless (hnever.of_prefix hupto)).rangesHoldUnits
    · have hprobing := deviceRun_unitless (hnever.of_prefix (List.prefix_append probing later))
      exact hprobing.rangesExact (deviceRun_unreported probing)

/-- Identify strings of spaces. -/
def blankStrings : IdStrings :=
  { model := List.replicate 40 0x20, firmware := List.replicate 8 0x20
    serial := List.replicate 20 0x20, model_length := rfl, firmware_length := rfl
    serial_length := rfl }

/-- The probe of a controller with one namespace. -/
def soleProbe : List DeviceStep :=
  .probe blankStrings plainCtrl ::
    [ScanPart.start, .limits, .op .tick, .op (.visit 1), .op (.cut 1)].map
      (DeviceStep.scan 0 (soleNamespace 1))

/-- The whole scan has run, unit 0 is there, and its range is empty. -/
theorem sole_unit_outside_range :
    (deviceRun soleProbe).controllers.map (fun c => some c.scan) =
      [nvmeScanNamespaces 2 (soleNamespace 1) (unscanned plainCtrl 0)] ∧
      ¬TopologyReported soleProbe [] := by
  refine ⟨rfl, fun hreport => ?_⟩
  have hhold := hreport.answers soleProbe (List.prefix_append soleProbe [])
  obtain ⟨ctrl, hctrl, hlive⟩ : ∃ ctrl ∈ (deviceRun soleProbe).controllers,
      0 ∈ liveNumbers ctrl.scan :=
    ⟨_, List.mem_singleton_self _, by decide⟩
  exact not_rangesHoldUnits (deviceRun_unreported soleProbe) hctrl hlive hhold

end Topology
end NvmeDriver
