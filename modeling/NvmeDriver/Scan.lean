import NvmeDriver.Identify

/-!
# Namespace scan

`nvme_scan_namespaces` and everything below it (nvme_scan.c): the list scan and
its sequential fallback, validation, creation and removal of namespaces and of
the units that stand for them.  The scan runs under `scan_lock` on one task, so
it is a function of the state it finds and the answers it gets; it is partial
because the two scan loops need not end against a hostile controller.

`reads` is a log: for every NSID whose data was gathered, the data and the
namespace record found at that moment, newest first.
-/

namespace NvmeDriver
namespace Namespace

/-- Identify data gathered for one NSID, with the record it met. -/
structure ScanRead where
  nsid : Nat
  info : NsInfo
  before : Option NvmeNs
deriving DecidableEq, Repr

/-- Everything the scan owns.  `units` are all units ever created;
`base->units` are those that are not dead. -/
structure ScanState where
  ctrl : ScanCtrl
  namespaces : List NvmeNs
  units : List NVMeUnit
  nextUnitNumber : Nat
  /-- admin commands issued so far -/
  seq : Nat
  reads : List ScanRead

/-- `nvme_find_ns`. -/
def nvmeFindNs (s : ScanState) (nsid : Nat) : Option NvmeNs :=
  s.namespaces.find? (fun ns => ns.nsId == nsid)

/-- `nvme_ns_ids_equal`. -/
def nvmeNsIdsEqual (a b : NsIds) : Bool :=
  a.uuid == b.uuid && a.nguid == b.nguid && a.eui64 == b.eui64 && a.csi == b.csi

/-- `memchr_inv(bytes, 0, n) != NULL`. -/
def hasId (bytes : List Nat) : Bool := bytes.any (· != 0)

/-- `nvme_ns_ids_duplicate`. -/
def nvmeNsIdsDuplicate (s : ScanState) (ids : NsIds) : Bool :=
  s.namespaces.any (fun ns =>
    (hasId ids.eui64 && ids.eui64 == ns.ids.eui64) ||
    (hasId ids.nguid && ids.nguid == ns.ids.nguid) ||
    (hasId ids.uuid && ids.uuid == ns.ids.uuid))

/-- Change the unit with the given number. -/
def updateUnit (units : List NVMeUnit) (n : Nat) (f : NVMeUnit → NVMeUnit) :
    List NVMeUnit :=
  units.map (fun u => if u.unitNumber = n then f u else u)

/-- `nvme_alloc_ns`; also the final value of `info`, which the duplicate check
may have stripped of its identifiers. -/
def nvmeAllocNs (s : ScanState) (r : Responses) (info : NsInfo) :
    ScanState × NsInfo :=
  let dup := !s.ctrl.quirkBogusNid && nvmeNsIdsDuplicate s info.ids
  let info₁ : NsInfo :=
    if dup then { info with ids := { NsIds.zero with csi := info.ids.csi } }
    else info
  let s₁ : ScanState :=
    if dup then { s with ctrl := { s.ctrl with quirkBogusNid := true } } else s
  if r.allocNs s.seq then
    let ns := (nvmeUpdateNsInfo (freshNs info₁) none info₁).1
    if r.allocUnit s.seq then
      ({ s₁ with
        namespaces := s₁.namespaces ++ [{ ns with unit := some s₁.nextUnitNumber }]
        units := s₁.units ++
          [unitOfInfo s₁.ctrl.maxZeroesSectors s₁.nextUnitNumber info₁]
        nextUnitNumber := s₁.nextUnitNumber + 1 }, info₁)
    else ({ s₁ with namespaces := s₁.namespaces ++ [ns] }, info₁)
  else (s₁, info₁)

/-- `nvme_ns_remove`: the unit is marked dead and both are unlinked. -/
def nvmeNsRemove (s : ScanState) (ns : NvmeNs) : ScanState :=
  { s with
    units :=
      match ns.unit with
      | none => s.units
      | some n => updateUnit s.units n (fun u => { u with dead := true })
    namespaces := s.namespaces.eraseP (fun m => m.nsId == ns.nsId) }

/-- `nvme_ns_remove_by_nsid`. -/
def nvmeNsRemoveByNsid (s : ScanState) (nsid : Nat) : ScanState :=
  match nvmeFindNs s nsid with
  | none => s
  | some ns => nvmeNsRemove s ns

/-- Write back what `nvme_update_ns_info` did to a registered namespace and
its unit. -/
def commitNs (s : ScanState) (ns : NvmeNs) (info : NsInfo) : ScanState :=
  { s with
    namespaces := s.namespaces.map (fun m =>
      if m.nsId = ns.nsId then (nvmeUpdateNsInfo m none info).1 else m)
    units :=
      match ns.unit with
      | none => s.units
      | some n =>
          updateUnit s.units n (fun u =>
            ((nvmeUpdateNsInfo ns (some u) info).2).getD u) }

/-- `nvme_validate_ns`. -/
def nvmeValidateNs (s : ScanState) (ns : NvmeNs) (info : NsInfo) : ScanState :=
  if nvmeNsIdsEqual ns.ids info.ids then commitNs s ns info
  else nvmeNsRemove s ns

/-- `nvme_scan_ns`. -/
def nvmeScanNs (s : ScanState) (r : Responses) (nsid : Nat) : ScanState :=
  let g := nvmeIdentifyNsInfo s.ctrl r s.seq (NsInfo.init nsid)
  let s₁ := { s with seq := g.seq }
  let s₂ := if g.info.isRemoved then nvmeNsRemoveByNsid s₁ nsid else s₁
  if g.ret ≠ 0 then s₂
  else
    let before := nvmeFindNs s₂ nsid
    if g.info.isReady then
      match before with
      | some ns =>
          { nvmeValidateNs s₂ ns g.info with
            reads := ⟨nsid, g.info, some ns⟩ :: s₂.reads }
      | none =>
          let p := nvmeAllocNs s₂ r g.info
          { p.1 with reads := ⟨nsid, p.2, none⟩ :: s₂.reads }
    else { s₂ with reads := ⟨nsid, g.info, before⟩ :: s₂.reads }

/-- `nvme_remove_invalid_namespaces`. -/
def nvmeRemoveInvalidNamespaces (s : ScanState) (nsid : Nat) : ScanState :=
  (s.namespaces.filter (fun ns => decide (nsid < ns.nsId))).foldl nvmeNsRemove s

/-- The loop `while (++prev < nsid) nvme_ns_remove_by_nsid(ctrl, prev)`, with
`n` turns left at `prev`. -/
def removeGap : Nat → Nat → ScanState → ScanState × Nat
  | 0, prev, s => (s, prev)
  | n + 1, prev, s => removeGap n (prev + 1) (nvmeNsRemoveByNsid s prev)

/-- One page of the active list: the state, `prev`, and whether the page ended
the list. -/
def scanListPage (r : Responses) : List Nat → Nat → ScanState →
    ScanState × Nat × Bool
  | [], prev, s => (s, prev, false)
  | nsid :: rest, prev, s =>
      if nsid = 0 then (s, prev, true)
      else
        let first := (prev + 1) % 2 ^ 32
        let p := removeGap (nsid - first) first (nvmeScanNs s r nsid)
        scanListPage r rest p.2 p.1

/-- Entries of one Active Namespace List page. -/
def nsListEntries : Nat := 1024

/-- `nvme_scan_ns_list`: the state and the return value; `none` when the pages
never end. -/
def nvmeScanNsList (r : Responses) : Nat → Nat → ScanState →
    Option (ScanState × Int)
  | 0, _, _ => none
  | fuel + 1, prev, s =>
      match r.activeList s.seq prev with
      | .error e => some ({ s with seq := s.seq + 1 }, e)
      | .ok nsids =>
          let page := (nsids ++ List.replicate nsListEntries 0).take nsListEntries
          match scanListPage r page prev { s with seq := s.seq + 1 } with
          | (s₁, prev₁, true) => some (nvmeRemoveInvalidNamespaces s₁ prev₁, 0)
          | (s₁, prev₁, false) => nvmeScanNsList r fuel prev₁ s₁

/-- The loop of `nvme_scan_ns_sequential`. -/
def scanSequentialLoop (r : Responses) : Nat → Nat → ScanState → ScanState
  | 0, _, s => s
  | n + 1, i, s => scanSequentialLoop r n (i + 1) (nvmeScanNs s r i)

/-- `nvme_scan_ns_sequential`; with `nn = 0xFFFFFFFF` the 32-bit loop counter
never passes the bound. -/
def nvmeScanNsSequential (r : Responses) (s : ScanState) : Option ScanState :=
  match r.ctrlNn s.seq with
  | .error _ => some { s with seq := s.seq + 1 }
  | .ok nn =>
      if 2 ^ 32 - 1 ≤ nn then none
      else
        some (nvmeRemoveInvalidNamespaces
          (scanSequentialLoop r nn 1 { s with seq := s.seq + 1 }) nn)

/-- `status & NVME_STATUS_DNR` of a positive return value. -/
def retDnr (ret : Int) : Bool := ret.toNat / 0x4000 % 2 == 1

/-- `nvme_scan_namespaces`.  A notice that arrives during the scan only signals
another one, so it is not part of the result. -/
def nvmeScanNamespaces (fuel : Nat) (r : Responses) (s : ScanState) :
    Option ScanState :=
  if s.ctrl.live then
    let l := nvmeInitNonMdtsLimits s.ctrl r s.seq
    let s₁ := { s with ctrl := l.2.1, seq := l.2.2, reads := [] }
    if l.1 < 0 then some s₁
    else
      let s₂ : ScanState :=
        if s₁.ctrl.nsChanged then
          { s₁ with ctrl := { s₁.ctrl with nsChanged := false }, seq := s₁.seq + 1 }
        else s₁
      if nvmeIdCnsOk s₂.ctrl 0x02 then
        match nvmeScanNsList r fuel 0 s₂ with
        | none => none
        | some (s₃, ret) =>
            if 0 < ret ∧ retDnr ret = true then nvmeScanNsSequential r s₃
            else some s₃
      else nvmeScanNsSequential r s₂
  else some { s with reads := [] }

end Namespace
end NvmeDriver
