import NvmeDriver.Namespace

/-!
# Identify: gathering the data of one namespace

`nvme_identify_ns_info` and what it calls (nvme_identify.c), with
`nvme_init_non_mdts_limits` (nvme_ctrl.c).  The admin commands go to a
controller that may answer anything: `Responses` holds, for the `n`-th command
of a session, what it answers if that command is of the given kind and about
the given NSID; an error is a negative errno or a positive NVMe status, as in
the driver.
-/

namespace NvmeDriver
namespace Namespace

/-- The controller fields the scan reads and writes. -/
structure ScanCtrl where
  /-- `ctrl->state == NVME_CTRL_LIVE` -/
  live : Bool
  vs : Nat
  /-- `nvme_multi_css` -/
  multiCss : Bool
  quirkBogusNid : Bool
  quirkNoNsDescList : Bool
  quirkIdentifyCns : Bool
  quirkDisableWriteZeroes : Bool
  /-- `ctratt & NVME_CTRL_ATTR_ELBAS` -/
  attrElbas : Bool
  /-- `cap & NVME_CAP_CRMS_CRIMS` -/
  capCrims : Bool
  /-- `NVME_CAP_MPSMIN(cap)` -/
  mpsMin : Nat
  isIoCtrl : Bool
  /-- `oncs & NVME_CTRL_ONCS_WRITE_ZEROES` -/
  oncsWriteZeroes : Bool
  skipIdCnsCs : Bool
  maxHwSectors : Nat
  maxZeroesSectors : Nat
  dmrl : Nat
  dmrsl : Nat
  /-- `NVME_AER_NOTICE_NS_CHANGED` in `ctrl->events` -/
  nsChanged : Bool
deriving DecidableEq, Repr

/-- One LBA format of Identify Namespace. -/
structure LbaFormat where
  ds : Nat
  ms : Nat
deriving DecidableEq, Repr

/-- Identify Namespace (CNS 0x00). -/
structure IdNs where
  nsze : Nat
  ncap : Nat
  flbas : Nat
  lbaf : List LbaFormat
  dps : Nat
  dlfeat : Nat
  eui64 : List Nat
  nguid : List Nat
deriving DecidableEq, Repr

/-- Identify Namespace for the NVM command set (CNS 0x05). -/
structure IdNsNvm where
  elbaf : List Nat
  pic : Nat
  lbstm : Nat
deriving DecidableEq, Repr

/-- Identify Controller for the NVM command set (CNS 0x06). -/
structure IdCtrlNvm where
  wzsl : Nat
  dmrl : Nat
  dmrsl : Nat
deriving DecidableEq, Repr

/-- Answers to the `n`-th command of a session, by kind of command and NSID,
and the outcomes of the two allocations. -/
structure Responses where
  descs : Nat → Nat → Except Int (List Nat)
  ns : Nat → Nat → Except Int IdNs
  nsNvm : Nat → Nat → Except Int IdNsNvm
  /-- `nstat & NVME_NSTAT_NRDY` -/
  nsCsIndep : Nat → Nat → Except Int Bool
  /-- indexed by the NSID the list starts after -/
  activeList : Nat → Nat → Except Int (List Nat)
  /-- `nn` of Identify Controller -/
  ctrlNn : Nat → Except Int Nat
  ctrlNvm : Nat → Except Int IdCtrlNvm
  allocNs : Nat → Bool
  allocUnit : Nat → Bool

/-- `NVME_VS(major, minor, 0)`. -/
def nvmeVs (major minor : Nat) : Nat := major * 2 ^ 16 + minor * 2 ^ 8

/-- `-ENODEV`, `-EINVAL`. -/
def errNoDev : Int := -19

def errInval : Int := -22

/-- `nvme_id_cns_ok`. -/
def nvmeIdCnsOk (ctrl : ScanCtrl) (cns : Nat) : Bool :=
  if nvmeVs 1 2 ≤ ctrl.vs then true
  else if nvmeVs 1 1 ≤ ctrl.vs ∧ ctrl.quirkIdentifyCns = false then
    decide (cns ≤ 3)
  else decide (cns ≤ 1)

/-- `nvme_mps_to_sectors`. -/
def nvmeMpsToSectors (ctrl : ScanCtrl) (units : Nat) : Nat :=
  let shift := units + (ctrl.mpsMin + 12) - 9
  if 32 ≤ shift then 2 ^ 32 - 1 else 2 ^ shift

/-! ### The namespace descriptor list -/

/-- `nvme_process_ns_desc` at offset `pos`: the payload length, or `none` for
an invalid descriptor. -/
def nvmeProcessNsDesc
    (bogusNid : Bool) (data : List Nat) (pos : Nat) (ids : NsIds)
    (csiSeen : Bool) : Option Nat × NsIds × Bool :=
  let nidt := data.getD pos 0
  let nidl := data.getD (pos + 1) 0
  let payload := fun n => (data.drop (pos + 4)).take n
  if nidt = 1 then
    if nidl ≠ 8 then (none, ids, csiSeen)
    else if bogusNid then (some 8, ids, csiSeen)
    else (some 8, { ids with eui64 := payload 8 }, csiSeen)
  else if nidt = 2 then
    if nidl ≠ 16 then (none, ids, csiSeen)
    else if bogusNid then (some 16, ids, csiSeen)
    else (some 16, { ids with nguid := payload 16 }, csiSeen)
  else if nidt = 3 then
    if nidl ≠ 16 then (none, ids, csiSeen)
    else if bogusNid then (some 16, ids, csiSeen)
    else (some 16, { ids with uuid := payload 16 }, csiSeen)
  else if nidt = 4 then
    if nidl ≠ 1 then (none, ids, csiSeen)
    else (some 1, { ids with csi := data.getD (pos + 4) 0 }, true)
  else (some nidl, ids, csiSeen)

/-- `NVME_IDENTIFY_DATA_SIZE`. -/
def identifyDataSize : Nat := 4096

/-- The descriptor loop of `nvme_identify_ns_descs`; every turn moves `pos` by
at least five, so `identifyDataSize` turns are more than enough. -/
def parseNsDescs
    (bogusNid : Bool) (data : List Nat) :
    Nat → Nat → NsIds → Bool → NsIds × Bool
  | 0, _, ids, csiSeen => (ids, csiSeen)
  | fuel + 1, pos, ids, csiSeen =>
      if identifyDataSize ≤ pos then (ids, csiSeen)
      else if data.getD (pos + 1) 0 = 0 then (ids, csiSeen)
      else
        match nvmeProcessNsDesc bogusNid data pos ids csiSeen with
        | (none, ids₁, seen₁) => (ids₁, seen₁)
        | (some len, ids₁, seen₁) =>
            parseNsDescs bogusNid data fuel (pos + (len + 4)) ids₁ seen₁

/-- What a gathering function returns: its result, the updated info and the
number of commands issued so far. -/
structure Gather where
  ret : Int
  info : NsInfo
  seq : Nat

/-- `nvme_identify_ns_descs`. -/
def nvmeIdentifyNsDescs
    (ctrl : ScanCtrl) (r : Responses) (seq : Nat) (info : NsInfo) : Gather :=
  if ctrl.vs < nvmeVs 1 3 ∧ ctrl.multiCss = false then ⟨0, info, seq⟩
  else if ctrl.quirkNoNsDescList then ⟨0, info, seq⟩
  else
    match r.descs seq info.nsid with
    | .error e => ⟨e, info, seq + 1⟩
    | .ok data =>
        let p := parseNsDescs ctrl.quirkBogusNid data identifyDataSize 0
          info.ids false
        let info₁ := { info with ids := p.1 }
        if ctrl.multiCss && !p.2 then ⟨errInval, info₁, seq + 1⟩
        else ⟨0, info₁, seq + 1⟩

/-! ### Identify Namespace -/

/-- `nvme_lbaf_index`. -/
def nvmeLbafIndex (flbas : Nat) : Nat := flbas % 16 + flbas / 32 % 4 * 16

/-- The fields `nvme_ns_info_from_identify` takes from the response. -/
def infoFromIdNs (ctrl : ScanCtrl) (info : NsInfo) (id : IdNs) : NsInfo :=
  let fmt := id.lbaf.getD (nvmeLbafIndex id.flbas) ⟨0, 0⟩
  let zero := fun bytes : List Nat => bytes.all (· == 0)
  let ids :=
    if ctrl.quirkBogusNid then info.ids
    else
      let ids₁ : NsIds :=
        if nvmeVs 1 1 ≤ ctrl.vs ∧ zero info.ids.eui64 = true then
          { info.ids with eui64 := id.eui64 }
        else info.ids
      if nvmeVs 1 2 ≤ ctrl.vs ∧ zero ids₁.nguid = true then
        { ids₁ with nguid := id.nguid }
      else ids₁
  { info with
    isReady := true
    lbaShift := fmt.ds, nsze := id.nsze, ms := fmt.ms, piType := id.dps % 8
    deac := id.dlfeat % 8 == 1 && id.dlfeat / 8 % 2 == 1
    ids := ids }

/-- `nvme_ns_info_from_identify`. -/
def nvmeNsInfoFromIdentify
    (ctrl : ScanCtrl) (r : Responses) (seq : Nat) (info : NsInfo) : Gather :=
  match r.ns seq info.nsid with
  | .error e => ⟨e, info, seq + 1⟩
  | .ok id =>
      if id.ncap = 0 then ⟨errNoDev, { info with isRemoved := true }, seq + 1⟩
      else
        let info₁ := infoFromIdNs ctrl info id
        if ctrl.attrElbas then
          match r.nsNvm (seq + 1) info.nsid with
          | .error e => ⟨if 0 < e then 0 else e, info₁, seq + 2⟩
          | .ok nvm =>
              ⟨0, { info₁ with
                elbaf := nvm.elbaf.getD (nvmeLbafIndex id.flbas) 0
                pic := nvm.pic, lbstm := nvm.lbstm }, seq + 2⟩
        else ⟨0, info₁, seq + 1⟩

/-- `nvme_ns_info_from_id_cs_indep`. -/
def nvmeNsInfoFromIdCsIndep
    (r : Responses) (seq : Nat) (info : NsInfo) : Gather :=
  match r.nsCsIndep seq info.nsid with
  | .error e => ⟨e, info, seq + 1⟩
  | .ok ready => ⟨0, { info with isReady := ready }, seq + 1⟩

/-- `nvme_identify_ns_info`. -/
def nvmeIdentifyNsInfo
    (ctrl : ScanCtrl) (r : Responses) (seq : Nat) (info : NsInfo) : Gather :=
  let g₁ := nvmeIdentifyNsDescs ctrl r seq info
  if g₁.ret ≠ 0 then g₁
  else if g₁.info.ids.csi ≠ csiNvm ∧ ctrl.multiCss = false then
    { g₁ with ret := errInval }
  else
    let g₂ := nvmeNsInfoFromIdentify ctrl r g₁.seq g₁.info
    if g₂.ret ≠ 0 then g₂
    else if ctrl.capCrims ∨ g₂.info.ids.csi ≠ csiNvm ∨ nvmeVs 2 0 ≤ ctrl.vs then
      let g₃ := nvmeNsInfoFromIdCsIndep r g₂.seq g₂.info
      if g₃.ret < 0 then g₃ else { g₃ with ret := 0 }
    else g₂

/-! ### Limits that are not MDTS -/

/-- `nvme_init_non_mdts_limits`: its result, the controller, and the command
count. -/
def nvmeInitNonMdtsLimits
    (ctrl : ScanCtrl) (r : Responses) (seq : Nat) : Int × ScanCtrl × Nat :=
  let ctrl₁ : ScanCtrl :=
    if ctrl.oncsWriteZeroes && !ctrl.quirkDisableWriteZeroes then
      { ctrl with maxZeroesSectors := ctrl.maxHwSectors }
    else { ctrl with maxZeroesSectors := 0 }
  if !ctrl₁.isIoCtrl || !nvmeIdCnsOk ctrl₁ 0x06 || ctrl₁.skipIdCnsCs then
    (0, ctrl₁, seq)
  else
    match r.ctrlNvm seq with
    | .error e =>
        (e, if 0 < e then { ctrl₁ with skipIdCnsCs := true } else ctrl₁, seq + 1)
    | .ok id =>
        let ctrl₂ := { ctrl₁ with dmrl := id.dmrl, dmrsl := id.dmrsl }
        (0,
          if id.wzsl = 0 then ctrl₂
          else { ctrl₂ with maxZeroesSectors := nvmeMpsToSectors ctrl₂ id.wzsl },
          seq + 1)

/-! ### Gathering is about one NSID -/

theorem nvmeIdentifyNsDescs_nsid
    (ctrl : ScanCtrl) (r : Responses) (seq : Nat) (info : NsInfo) :
    (nvmeIdentifyNsDescs ctrl r seq info).info.nsid = info.nsid := by
  unfold nvmeIdentifyNsDescs
  split
  · rfl
  · split
    · rfl
    · cases r.descs seq info.nsid with
      | error e => rfl
      | ok data =>
          dsimp only
          split <;> rfl

theorem nvmeNsInfoFromIdentify_nsid
    (ctrl : ScanCtrl) (r : Responses) (seq : Nat) (info : NsInfo) :
    (nvmeNsInfoFromIdentify ctrl r seq info).info.nsid = info.nsid := by
  unfold nvmeNsInfoFromIdentify
  cases r.ns seq info.nsid with
  | error e => rfl
  | ok id =>
      dsimp only
      split
      · rfl
      · split
        · cases r.nsNvm (seq + 1) info.nsid <;> rfl
        · rfl

theorem nvmeNsInfoFromIdCsIndep_nsid
    (r : Responses) (seq : Nat) (info : NsInfo) :
    (nvmeNsInfoFromIdCsIndep r seq info).info.nsid = info.nsid := by
  unfold nvmeNsInfoFromIdCsIndep
  cases r.nsCsIndep seq info.nsid <;> rfl

/-- The gathered data is data of the NSID it was gathered for. -/
theorem nvmeIdentifyNsInfo_nsid
    (ctrl : ScanCtrl) (r : Responses) (seq : Nat) (info : NsInfo) :
    (nvmeIdentifyNsInfo ctrl r seq info).info.nsid = info.nsid := by
  have h₁ := nvmeIdentifyNsDescs_nsid ctrl r seq info
  have h₂ := nvmeNsInfoFromIdentify_nsid ctrl r
    (nvmeIdentifyNsDescs ctrl r seq info).seq (nvmeIdentifyNsDescs ctrl r seq info).info
  unfold nvmeIdentifyNsInfo
  dsimp only
  split
  · exact h₁
  · split
    · exact h₁
    · split
      · exact h₂.trans h₁
      · split
        · have h₃ := nvmeNsInfoFromIdCsIndep_nsid r
            (nvmeNsInfoFromIdentify ctrl r (nvmeIdentifyNsDescs ctrl r seq info).seq
              (nvmeIdentifyNsDescs ctrl r seq info).info).seq
            (nvmeNsInfoFromIdentify ctrl r (nvmeIdentifyNsDescs ctrl r seq info).seq
              (nvmeIdentifyNsDescs ctrl r seq info).info).info
          split <;> exact h₃.trans (h₂.trans h₁)
        · exact h₂.trans h₁

end Namespace
end NvmeDriver
