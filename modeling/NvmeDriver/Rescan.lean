import NvmeDriver.ScanGeometry
import NvmeDriver.Lib.Replay

/-!
# Scanning twice

What a scan does is a list of operations that only the controller's answers
determine: visit an NSID, drop one from a gap of the active list, cut off those
above the highest.  As long as the registered namespaces are gathered with the
identifiers they were registered with and no two namespaces share one, an operation
registers or removes the NSIDs it names and no others.  A second scan with the same
answers then changes nothing, unless one scan both finds an NSID and drops it; such
a namespace is removed and created again by every scan.
-/

namespace NvmeDriver
namespace Namespace

open Lib

/-! ### Steady answers -/

/-- The answers, and the outcomes of the allocations, depend on the command only. -/
structure Steady (r : Responses) : Prop where
  descs : ∀ n, r.descs n = r.descs 0
  ns : ∀ n, r.ns n = r.ns 0
  nsNvm : ∀ n, r.nsNvm n = r.nsNvm 0
  nsCsIndep : ∀ n, r.nsCsIndep n = r.nsCsIndep 0
  activeList : ∀ n, r.activeList n = r.activeList 0
  ctrlNn : ∀ n, r.ctrlNn n = r.ctrlNn 0
  ctrlNvm : ∀ n, r.ctrlNvm n = r.ctrlNvm 0
  allocNs : ∀ n, r.allocNs n = r.allocNs 0
  allocUnit : ∀ n, r.allocUnit n = r.allocUnit 0

/-- The controller fields the gathering reads. -/
structure SameIdentify (c d : ScanCtrl) : Prop where
  vs : d.vs = c.vs
  multiCss : d.multiCss = c.multiCss
  bogusNid : d.quirkBogusNid = c.quirkBogusNid
  noNsDescList : d.quirkNoNsDescList = c.quirkNoNsDescList
  identifyCns : d.quirkIdentifyCns = c.quirkIdentifyCns
  attrElbas : d.attrElbas = c.attrElbas
  capCrims : d.capCrims = c.capCrims

theorem SameIdentify.refl (c : ScanCtrl) : SameIdentify c c := ⟨rfl, rfl, rfl, rfl, rfl, rfl, rfl⟩

section Gathering

variable {r : Responses} {c d : ScanCtrl}

/-- Result and data of a gathering, without the command count. -/
def Gather.data (g : Gather) : Int × NsInfo := (g.ret, g.info)

theorem nvmeIdentifyNsDescs_steady (hr : Steady r) (hc : SameIdentify c d) (n : Nat)
    (info : NsInfo) :
    (nvmeIdentifyNsDescs d r n info).data = (nvmeIdentifyNsDescs c r 0 info).data := by
  unfold nvmeIdentifyNsDescs
  rw [hc.vs, hc.multiCss, hc.noNsDescList, hc.bogusNid, hr.descs n]
  split
  · rfl
  · split
    · rfl
    · cases r.descs 0 info.nsid with
      | error e => rfl
      | ok data =>
          dsimp only
          split <;> rfl

theorem infoFromIdNs_congr (hc : SameIdentify c d) (info : NsInfo) (id : IdNs) :
    infoFromIdNs d info id = infoFromIdNs c info id := by
  unfold infoFromIdNs
  rw [hc.vs, hc.bogusNid]

theorem nvmeNsInfoFromIdentify_steady (hr : Steady r) (hc : SameIdentify c d) (n m : Nat)
    (info : NsInfo) :
    (nvmeNsInfoFromIdentify d r n info).data = (nvmeNsInfoFromIdentify c r m info).data := by
  unfold nvmeNsInfoFromIdentify
  rw [hr.ns n, hr.ns m, hr.nsNvm (n + 1), hr.nsNvm (m + 1), hc.attrElbas]
  cases r.ns 0 info.nsid with
  | error e => rfl
  | ok id =>
      dsimp only
      rw [infoFromIdNs_congr hc]
      split
      · rfl
      · split
        · cases r.nsNvm 0 info.nsid <;> rfl
        · rfl

theorem nvmeNsInfoFromIdCsIndep_steady (hr : Steady r) (n m : Nat) (info : NsInfo) :
    (nvmeNsInfoFromIdCsIndep r n info).data = (nvmeNsInfoFromIdCsIndep r m info).data := by
  unfold nvmeNsInfoFromIdCsIndep
  rw [hr.nsCsIndep n, hr.nsCsIndep m]
  cases r.nsCsIndep 0 info.nsid <;> rfl

theorem data_eq {g h : Gather} (heq : g.data = h.data) : g.ret = h.ret ∧ g.info = h.info :=
  Prod.mk.inj heq

/-- The data of an NSID does not depend on when it is gathered. -/
theorem nvmeIdentifyNsInfo_steady (hr : Steady r) (hc : SameIdentify c d) (n : Nat)
    (info : NsInfo) :
    (nvmeIdentifyNsInfo d r n info).data = (nvmeIdentifyNsInfo c r 0 info).data := by
  unfold nvmeIdentifyNsInfo
  have h₁ := nvmeIdentifyNsDescs_steady hr hc n info
  generalize nvmeIdentifyNsDescs d r n info = g₁ at h₁ ⊢
  generalize nvmeIdentifyNsDescs c r 0 info = k₁ at h₁ ⊢
  obtain ⟨hret₁, hinfo₁⟩ := data_eq h₁
  have h₂ := nvmeNsInfoFromIdentify_steady hr hc g₁.seq k₁.seq k₁.info
  dsimp only
  rw [hret₁, hinfo₁, hc.multiCss]
  generalize nvmeNsInfoFromIdentify d r g₁.seq k₁.info = g₂ at h₂ ⊢
  generalize nvmeNsInfoFromIdentify c r k₁.seq k₁.info = k₂ at h₂ ⊢
  obtain ⟨hret₂, hinfo₂⟩ := data_eq h₂
  have h₃ := nvmeNsInfoFromIdCsIndep_steady hr g₂.seq k₂.seq k₂.info
  rw [hret₂, hinfo₂, hc.capCrims, hc.vs]
  generalize nvmeNsInfoFromIdCsIndep r g₂.seq k₂.info = g₃ at h₃ ⊢
  generalize nvmeNsInfoFromIdCsIndep r k₂.seq k₂.info = k₃ at h₃ ⊢
  obtain ⟨hret₃, hinfo₃⟩ := data_eq h₃
  rw [hret₃]
  split
  · exact h₁
  · split
    · rfl
    · split
      · exact h₂
      · split
        · split
          · exact h₃
          · exact Prod.ext rfl hinfo₃
        · exact h₂

end Gathering

/-- What the scan gathers for an NSID. -/
def gathered (r : Responses) (c : ScanCtrl) (nsid : Nat) : Gather :=
  nvmeIdentifyNsInfo c r 0 (NsInfo.init nsid)

/-- The data of a namespace that is there and ready. -/
def found (r : Responses) (c : ScanCtrl) (nsid : Nat) : Option NsInfo :=
  if (gathered r c nsid).ret = 0 ∧ (gathered r c nsid).info.isReady = true then
    some (gathered r c nsid).info
  else none

/-- The controller says that the namespace is gone. -/
def gone (r : Responses) (c : ScanCtrl) (nsid : Nat) : Bool :=
  (gathered r c nsid).info.isRemoved

theorem nvmeIdentifyNsDescs_isRemoved (c : ScanCtrl) (r : Responses) (n : Nat)
    (info : NsInfo) :
    (nvmeIdentifyNsDescs c r n info).info.isRemoved = info.isRemoved := by
  unfold nvmeIdentifyNsDescs
  split
  · rfl
  · split
    · rfl
    · cases r.descs n info.nsid with
      | error e => rfl
      | ok data =>
          dsimp only
          split <;> rfl

theorem nvmeNsInfoFromIdentify_isRemoved (c : ScanCtrl) (r : Responses) (n : Nat)
    {info : NsInfo} (hinfo : info.isRemoved = false)
    (hret : (nvmeNsInfoFromIdentify c r n info).ret = 0) :
    (nvmeNsInfoFromIdentify c r n info).info.isRemoved = false := by
  unfold nvmeNsInfoFromIdentify at hret ⊢
  cases hns : r.ns n info.nsid with
  | error e => exact hinfo
  | ok id =>
      rw [hns] at hret
      dsimp only at hret ⊢
      split at hret
      · cases hret
      · rename_i hcap
        rw [if_neg hcap]
        split
        · cases r.nsNvm (n + 1) info.nsid <;> exact hinfo
        · exact hinfo

/-- A namespace that was gathered without error is not gone. -/
theorem nvmeIdentifyNsInfo_isRemoved (c : ScanCtrl) (r : Responses) (n nsid : Nat)
    (hret : (nvmeIdentifyNsInfo c r n (NsInfo.init nsid)).ret = 0) :
    (nvmeIdentifyNsInfo c r n (NsInfo.init nsid)).info.isRemoved = false := by
  unfold nvmeIdentifyNsInfo at hret ⊢
  have h₁ := nvmeIdentifyNsDescs_isRemoved c r n (NsInfo.init nsid)
  generalize nvmeIdentifyNsDescs c r n (NsInfo.init nsid) = g₁ at h₁ hret ⊢
  dsimp only at hret ⊢
  have hinit : g₁.info.isRemoved = false := h₁
  split at hret
  · rename_i hne
    exact absurd hret hne
  · rename_i hzero
    rw [if_neg hzero]
    split at hret
    · cases hret
    · rename_i hcss
      rw [if_neg hcss]
      have h₂ := @nvmeNsInfoFromIdentify_isRemoved c r g₁.seq g₁.info hinit
      generalize nvmeNsInfoFromIdentify c r g₁.seq g₁.info = g₂ at h₂ hret ⊢
      split at hret
      · rename_i hne
        exact absurd hret hne
      · rename_i hok
        rw [if_neg hok]
        have hkept := h₂ (not_not.mp hok)
        split
        · have h₃ : (nvmeNsInfoFromIdCsIndep r g₂.seq g₂.info).info.isRemoved = false := by
            unfold nvmeNsInfoFromIdCsIndep
            cases r.nsCsIndep g₂.seq g₂.info.nsid <;> exact hkept
          split
          · exact h₃
          · exact h₃
        · exact hkept

/-- A namespace that is gone is not found. -/
theorem found_of_gone {r : Responses} {c : ScanCtrl} {nsid : Nat}
    (hgone : gone r c nsid = true) : found r c nsid = none := by
  refine if_neg ?_
  rintro ⟨hret, -⟩
  have hnot := nvmeIdentifyNsInfo_isRemoved c r 0 nsid hret
  exact Bool.noConfusion (hnot.symm.trans hgone)

/-! ### Operations -/

/-- One operation of a scan. -/
inductive ScanOp
  /-- an admin command that concerns no namespace -/
  | tick
  | visit (nsid : Nat)
  | drop (nsid : Nat)
  | cut (nsid : Nat)

def applyScanOp (r : Responses) (s : ScanState) : ScanOp → ScanState
  | .tick => { s with seq := s.seq + 1 }
  | .visit nsid => nvmeScanNs s r nsid
  | .drop nsid => nvmeNsRemoveByNsid s nsid
  | .cut nsid => nvmeRemoveInvalidNamespaces s nsid

/-- The NSIDs an operation registers. -/
def ScanOp.adds (r : Responses) (c : ScanCtrl) : ScanOp → Nat → Prop
  | .visit nsid, n => n = nsid ∧ found r c nsid ≠ none ∧ r.allocNs 0 = true
  | _, _ => False

/-- The NSIDs an operation removes. -/
def ScanOp.removes (r : Responses) (c : ScanCtrl) : ScanOp → Nat → Prop
  | .tick, _ => False
  | .visit nsid, n => n = nsid ∧ gone r c nsid = true
  | .drop nsid, n => n = nsid
  | .cut nsid, n => nsid < n

/-- The operation visits NSIDs of a set only. -/
def ScanOp.VisitsIn (V : Nat → Prop) : ScanOp → Prop
  | .visit nsid => V nsid
  | _ => True

/-- The NSIDs an operation may register or remove. -/
def ScanOp.touches : ScanOp → Nat → Prop
  | .tick, _ => False
  | .visit nsid, n => n = nsid
  | .drop nsid, n => n = nsid
  | .cut nsid, n => nsid < n

def ScanOp.Apart (o o' : ScanOp) : Prop := ∀ n, o.touches n → ¬o'.touches n

/-- The NSID is registered. -/
def Registered (s : ScanState) (nsid : Nat) : Prop := nsid ∈ s.namespaces.map NvmeNs.nsId

instance (s : ScanState) (nsid : Nat) : Decidable (Registered s nsid) :=
  inferInstanceAs (Decidable (_ ∈ _))

/-- What a scan is about: which NSIDs are registered for which units, the
numbers and states of all units, and the next number. -/
def bindings (s : ScanState) : List (Nat × Option Nat) × List (Nat × Nat × Bool) × Nat :=
  (s.namespaces.map (fun ns => (ns.nsId, ns.unit)),
    s.units.map (fun u => (u.unitNumber, u.nsid, u.dead)), s.nextUnitNumber)

/-- Two namespaces report the same identifier. -/
def collide (a b : NsIds) : Bool :=
  (hasId a.eui64 && a.eui64 == b.eui64) || (hasId a.nguid && a.nguid == b.nguid) ||
    (hasId a.uuid && a.uuid == b.uuid)

/-- The registered namespaces agree with what is gathered for the NSIDs of a set. -/
structure Tame (r : Responses) (c : ScanCtrl) (V : Nat → Prop) (s : ScanState) : Prop where
  ctrl : SameIdentify c s.ctrl
  distinct : (s.namespaces.map NvmeNs.nsId).Nodup
  ids : ∀ ns, ns ∈ s.namespaces → V ns.nsId → ∀ info, found r c ns.nsId = some info →
    ns.ids = info.ids
  apart : c.quirkBogusNid = false → ∀ ns, ns ∈ s.namespaces → ∀ n info, V n → n ≠ ns.nsId →
    found r c n = some info → collide info.ids ns.ids = false

/-- No two namespaces that are found in a set share an identifier. -/
def Separate (r : Responses) (c : ScanCtrl) (V : Nat → Prop) : Prop :=
  c.quirkBogusNid = false → ∀ m n i j, V m → V n → m ≠ n → found r c m = some i →
    found r c n = some j → collide i.ids j.ids = false

section Ops

variable {r : Responses} {c : ScanCtrl} {V : Nat → Prop} {s t : ScanState}

/-- An operation does not remove what it registers. -/
theorem ScanOp.adds_apart (o : ScanOp) (n : Nat) (hadd : o.adds r c n) : ¬o.removes r c n := by
  cases o with
  | visit nsid => exact fun hrem => hadd.2.1 (found_of_gone hrem.2)
  | tick => exact hadd.elim
  | drop nsid => exact hadd.elim
  | cut nsid => exact hadd.elim

theorem registered_of_bindings (hb : bindings t = bindings s) (n : Nat) :
    Registered t n ↔ Registered s n := by
  have h : t.namespaces.map (fun ns => (ns.nsId, ns.unit)) =
      s.namespaces.map (fun ns => (ns.nsId, ns.unit)) := congrArg Prod.fst hb
  have hids := congrArg (List.map Prod.fst) h
  simp only [List.map_map, Function.comp_def] at hids
  unfold Registered
  rw [hids]

theorem nvmeFindNs_none_iff (s : ScanState) (nsid : Nat) :
    nvmeFindNs s nsid = none ↔ ¬Registered s nsid := by
  unfold nvmeFindNs Registered
  simp [List.find?_eq_none]

/-! ### Removal -/

theorem nvmeNsRemove_registered (hd : (s.namespaces.map NvmeNs.nsId).Nodup) (ns : NvmeNs)
    (n : Nat) : Registered (nvmeNsRemove s ns) n ↔ n ≠ ns.nsId ∧ Registered s n := by
  have hmap : (nvmeNsRemove s ns).namespaces.map NvmeNs.nsId =
      (s.namespaces.map NvmeNs.nsId).erase ns.nsId := by
    rw [List.erase_eq_eraseP', List.eraseP_map]
    rfl
  unfold Registered
  rw [hmap, hd.mem_erase_iff]

theorem Tame.remove (ht : Tame r c V s) (ns : NvmeNs) : Tame r c V (nvmeNsRemove s ns) := by
  have hsub : (nvmeNsRemove s ns).namespaces.Sublist s.namespaces := List.eraseP_sublist
  refine ⟨ht.ctrl, (hsub.map NvmeNs.nsId).nodup ht.distinct, ?_, ?_⟩
  · exact fun m hm => ht.ids m (hsub.mem hm)
  · exact fun hb m hm => ht.apart hb m (hsub.mem hm)

theorem Tame.removeByNsid (ht : Tame r c V s) (nsid : Nat) :
    Tame r c V (nvmeNsRemoveByNsid s nsid) := by
  unfold nvmeNsRemoveByNsid
  cases nvmeFindNs s nsid with
  | none => exact ht
  | some ns => exact ht.remove ns

theorem nvmeNsRemoveByNsid_registered (hd : (s.namespaces.map NvmeNs.nsId).Nodup)
    (nsid n : Nat) :
    Registered (nvmeNsRemoveByNsid s nsid) n ↔ n ≠ nsid ∧ Registered s n := by
  unfold nvmeNsRemoveByNsid
  cases hf : nvmeFindNs s nsid with
  | none =>
      have hnone := (nvmeFindNs_none_iff s nsid).mp hf
      refine ⟨fun h => ⟨?_, h⟩, fun h => h.2⟩
      rintro rfl
      exact hnone h
  | some ns =>
      have hid := (nvmeFindNs_some hf).2
      subst hid
      exact nvmeNsRemove_registered hd ns n

theorem foldl_nvmeNsRemove (l : List NvmeNs) (ht : Tame r c V s) :
    Tame r c V (l.foldl nvmeNsRemove s) ∧
      ∀ n, Registered (l.foldl nvmeNsRemove s) n ↔
        n ∉ l.map NvmeNs.nsId ∧ Registered s n := by
  induction l generalizing s with
  | nil => exact ⟨ht, fun n => by simp⟩
  | cons ns l ih =>
      obtain ⟨hkeep, hreg⟩ := ih (ht.remove ns)
      refine ⟨hkeep, fun n => ?_⟩
      rw [List.foldl_cons, hreg n, nvmeNsRemove_registered ht.distinct, List.map_cons,
        List.mem_cons]
      constructor
      · rintro ⟨h₁, h₂, h₃⟩
        exact ⟨fun h => h.elim h₂ h₁, h₃⟩
      · rintro ⟨h₁, h₂⟩
        exact ⟨fun h => h₁ (.inr h), fun h => h₁ (.inl h), h₂⟩

theorem nvmeRemoveInvalidNamespaces_registered (ht : Tame r c V s) (nsid n : Nat) :
    Registered (nvmeRemoveInvalidNamespaces s nsid) n ↔ n ≤ nsid ∧ Registered s n := by
  unfold nvmeRemoveInvalidNamespaces
  rw [(foldl_nvmeNsRemove _ ht).2 n]
  refine and_congr_left (fun hreg => ?_)
  obtain ⟨ns, hmem, rfl⟩ := List.mem_map.mp hreg
  constructor
  · intro hnot
    by_contra hlt
    refine hnot (List.mem_map_of_mem (List.mem_filter.mpr ⟨hmem, ?_⟩))
    simpa using hlt
  · intro hle hin
    obtain ⟨m, hm, hid⟩ := List.mem_map.mp hin
    have := (List.mem_filter.mp hm).2
    simp only [decide_eq_true_eq] at this
    omega

theorem nvmeNsRemoveByNsid_numbers (s : ScanState) (nsid : Nat) :
    (nvmeNsRemoveByNsid s nsid).ctrl = s.ctrl ∧
      (nvmeNsRemoveByNsid s nsid).nextUnitNumber = s.nextUnitNumber := by
  unfold nvmeNsRemoveByNsid
  cases nvmeFindNs s nsid <;> exact ⟨rfl, rfl⟩

theorem foldl_nvmeNsRemove_numbers (l : List NvmeNs) (s : ScanState) :
    (l.foldl nvmeNsRemove s).ctrl = s.ctrl ∧
      (l.foldl nvmeNsRemove s).nextUnitNumber = s.nextUnitNumber := by
  induction l generalizing s with
  | nil => exact ⟨rfl, rfl⟩
  | cons ns l ih => exact ih (nvmeNsRemove s ns)

/-! ### Refreshing and adding -/

/-- The part of the state that names namespaces and units. -/
def owned (s : ScanState) : ScanCtrl × List NvmeNs × List NVMeUnit × Nat :=
  (s.ctrl, s.namespaces, s.units, s.nextUnitNumber)

theorem owned_eq (ho : owned t = owned s) :
    t.ctrl = s.ctrl ∧ t.namespaces = s.namespaces ∧ t.units = s.units ∧
      t.nextUnitNumber = s.nextUnitNumber := by
  simpa [owned] using ho

theorem Tame.congr (ht : Tame r c V s) (ho : owned t = owned s) : Tame r c V t := by
  obtain ⟨h₁, h₂, -, -⟩ := owned_eq ho
  refine ⟨h₁ ▸ ht.ctrl, h₂ ▸ ht.distinct, ?_, ?_⟩
  · rw [h₂]
    exact ht.ids
  · rw [h₂]
    exact ht.apart

theorem bindings_congr (ho : owned t = owned s) : bindings t = bindings s := by
  obtain ⟨-, h₂, h₃, h₄⟩ := owned_eq ho
  simp only [bindings, h₂, h₃, h₄]

theorem commitNs_bindings (s : ScanState) (ns : NvmeNs) (info : NsInfo) :
    bindings (commitNs s ns info) = bindings s := by
  have hns : (commitNs s ns info).namespaces.map (fun ns => (ns.nsId, ns.unit)) =
      s.namespaces.map (fun ns => (ns.nsId, ns.unit)) := by
    simp only [commitNs, List.map_map]
    refine List.map_congr_left (fun m _ => ?_)
    dsimp only [Function.comp]
    split
    · obtain ⟨h₁, -, h₃⟩ := nvmeUpdateNsInfo_key m none info
      rw [h₁, h₃]
    · rfl
  have hunits : (commitNs s ns info).units.map (fun u => (u.unitNumber, u.nsid, u.dead)) =
      s.units.map (fun u => (u.unitNumber, u.nsid, u.dead)) := by
    unfold commitNs
    cases ns.unit with
    | none => rfl
    | some n =>
        simp only [updateUnit, List.map_map]
        refine List.map_congr_left (fun u _ => ?_)
        dsimp only [Function.comp]
        split
        · obtain ⟨d, hd⟩ := nvmeUpdateNsInfo_unit ns u info
          rw [hd]
        · rfl
  unfold bindings
  rw [hns, hunits]
  rfl

theorem Tame.commit (ht : Tame r c V s) (ns : NvmeNs) (info : NsInfo) :
    Tame r c V (commitNs s ns info) := by
  have hkey : ∀ m, m ∈ (commitNs s ns info).namespaces →
      ∃ k, k ∈ s.namespaces ∧ m.nsId = k.nsId ∧ m.ids = k.ids := by
    intro m hm
    simp only [commitNs, List.mem_map] at hm
    obtain ⟨k, hk, rfl⟩ := hm
    refine ⟨k, hk, ?_⟩
    split
    · obtain ⟨h₁, h₂, -⟩ := nvmeUpdateNsInfo_key k none info
      exact ⟨h₁, h₂⟩
    · exact ⟨rfl, rfl⟩
  refine ⟨ht.ctrl, commitNs_nsIds s ns info ▸ ht.distinct, ?_, ?_⟩
  · intro m hm hv i hi
    obtain ⟨k, hk, hid, hids⟩ := hkey m hm
    rw [hids]
    exact ht.ids k hk (hid ▸ hv) i (hid ▸ hi)
  · intro hb m hm n i hv hne hi
    obtain ⟨k, hk, hid, hids⟩ := hkey m hm
    rw [hids]
    exact ht.apart hb k hk n i hv (hid ▸ hne) hi

theorem found_nsid {nsid : Nat} {info : NsInfo} (hf : found r c nsid = some info) :
    info.nsid = nsid := by
  unfold found at hf
  split at hf
  · cases hf
    exact nvmeIdentifyNsInfo_nsid c r 0 (NsInfo.init nsid)
  · cases hf

/-- A namespace that is found and not registered is added as it was found. -/
theorem nvmeAllocNs_found (hr : Steady r) (ht : Tame r c V s) {nsid : Nat} {info : NsInfo}
    (hv : V nsid) (hf : found r c nsid = some info) (hnot : ¬Registered s nsid) :
    (r.allocNs 0 = false ∧ (nvmeAllocNs s r info).1 = s) ∨
      (r.allocNs 0 = true ∧ (nvmeAllocNs s r info).1.ctrl = s.ctrl ∧
        (nvmeAllocNs s r info).1.nextUnitNumber =
          s.nextUnitNumber + (r.allocUnit 0).toNat ∧
        ∃ ns, (nvmeAllocNs s r info).1.namespaces = s.namespaces ++ [ns] ∧
          ns.nsId = nsid ∧ ns.ids = info.ids) := by
  have hdup : (!s.ctrl.quirkBogusNid && nvmeNsIdsDuplicate s info.ids) = false := by
    rw [ht.ctrl.bogusNid]
    cases hb : c.quirkBogusNid with
    | true => rfl
    | false =>
        change nvmeNsIdsDuplicate s info.ids = false
        unfold nvmeNsIdsDuplicate
        rw [List.any_eq_false]
        intro ns hns
        have hne : nsid ≠ ns.nsId := by
          rintro rfl
          exact hnot (List.mem_map_of_mem hns)
        have hcol := ht.apart hb ns hns nsid info hv hne hf
        unfold collide at hcol
        rw [hcol]
        decide
  unfold nvmeAllocNs
  simp only [hdup, Bool.false_eq_true, if_false, hr.allocNs s.seq, hr.allocUnit s.seq]
  cases r.allocNs 0 with
  | false =>
      left
      simp
  | true =>
      right
      obtain ⟨hid, hids, -⟩ := nvmeUpdateNsInfo_key (freshNs info) none info
      simp only [if_true]
      cases r.allocUnit 0 with
      | true => exact ⟨trivial, rfl, rfl, _, rfl, hid.trans (found_nsid hf), hids⟩
      | false => exact ⟨trivial, rfl, rfl, _, rfl, hid.trans (found_nsid hf), hids⟩

theorem Tame.add (ht : Tame r c V s) (hsep : Separate r c V) {nsid : Nat} {info : NsInfo}
    {ns : NvmeNs} (hv : V nsid) (hf : found r c nsid = some info) (hnot : ¬Registered s nsid)
    (hctrl : t.ctrl = s.ctrl) (hlist : t.namespaces = s.namespaces ++ [ns])
    (hid : ns.nsId = nsid) (hids : ns.ids = info.ids) : Tame r c V t := by
  refine ⟨hctrl ▸ ht.ctrl, ?_, ?_, ?_⟩
  · rw [hlist, List.map_append, List.map_singleton, hid]
    exact List.nodup_append.mpr ⟨ht.distinct, List.nodup_singleton _, by
      rintro a ha b hb rfl
      rw [List.mem_singleton.mp hb] at ha
      exact hnot ha⟩
  · intro m hm hvm i hi
    rw [hlist] at hm
    rcases List.mem_append.mp hm with hm | hm
    · exact ht.ids m hm hvm i hi
    · rw [List.mem_singleton.mp hm] at hi ⊢
      rw [hid, hf] at hi
      cases hi
      exact hids
  · intro hb m hm n i hvn hne hi
    rw [hlist] at hm
    rcases List.mem_append.mp hm with hm | hm
    · exact ht.apart hb m hm n i hvn hne hi
    · rw [List.mem_singleton.mp hm] at hne ⊢
      rw [hids]
      exact hsep hb n nsid i info hvn hv (hid ▸ hne) hi hf

/-! ### Visits -/

theorem nvmeNsRemoveByNsid_seq (s : ScanState) (nsid k : Nat) :
    owned (nvmeNsRemoveByNsid { s with seq := k } nsid) =
      owned (nvmeNsRemoveByNsid s nsid) := by
  have hfind : nvmeFindNs { s with seq := k } nsid = nvmeFindNs s nsid := rfl
  unfold nvmeNsRemoveByNsid
  rw [hfind]
  cases nvmeFindNs s nsid <;> rfl

theorem nvmeAllocNs_seq (hr : Steady r) (s : ScanState) (info : NsInfo) (k : Nat) :
    owned (nvmeAllocNs { s with seq := k } r info).1 = owned (nvmeAllocNs s r info).1 := by
  have hdup : nvmeNsIdsDuplicate { s with seq := k } info.ids =
      nvmeNsIdsDuplicate s info.ids := rfl
  unfold nvmeAllocNs
  simp only [hdup, hr.allocNs k, hr.allocNs s.seq, hr.allocUnit k, hr.allocUnit s.seq]
  generalize (!s.ctrl.quirkBogusNid && nvmeNsIdsDuplicate s info.ids) = b
  cases b <;> cases r.allocNs 0 <;> cases r.allocUnit 0 <;> rfl

/-- `nvme_scan_ns` past the gathering. -/
def scanWith (s : ScanState) (r : Responses) (nsid : Nat) (g : Gather) : ScanState :=
  let s₁ := { s with seq := g.seq }
  let s₂ := if g.info.isRemoved then nvmeNsRemoveByNsid s₁ nsid else s₁
  if g.ret ≠ 0 then s₂
  else
    let before := nvmeFindNs s₂ nsid
    if g.info.isReady then
      match before with
      | some ns =>
          { nvmeValidateNs s₂ ns g.info with
            reads := ⟨nsid, g.info, some ns⟩ :: s₂.reads }
      | none =>
          let p := nvmeAllocNs s₂ r g.info
          { p.1 with reads := ⟨nsid, p.2, none⟩ :: s₂.reads }
    else { s₂ with reads := ⟨nsid, g.info, before⟩ :: s₂.reads }

/-- What a visit does, by what is gathered for the NSID. -/
theorem nvmeScanNs_cases (hr : Steady r) (ht : Tame r c V s) {nsid : Nat} (hv : V nsid) :
    (gone r c nsid = true ∧
      owned (nvmeScanNs s r nsid) = owned (nvmeNsRemoveByNsid s nsid)) ∨
    (gone r c nsid = false ∧ found r c nsid = none ∧
      owned (nvmeScanNs s r nsid) = owned s) ∨
    (∃ info ns, gone r c nsid = false ∧ found r c nsid = some info ∧
      nvmeFindNs s nsid = some ns ∧
      owned (nvmeScanNs s r nsid) = owned (commitNs s ns info)) ∨
    ∃ info, gone r c nsid = false ∧ found r c nsid = some info ∧
      nvmeFindNs s nsid = none ∧
      owned (nvmeScanNs s r nsid) = owned (nvmeAllocNs s r info).1 := by
  have hscan : nvmeScanNs s r nsid =
      scanWith s r nsid (nvmeIdentifyNsInfo s.ctrl r s.seq (NsInfo.init nsid)) := rfl
  obtain ⟨hret, hinfo⟩ := data_eq (nvmeIdentifyNsInfo_steady hr ht.ctrl s.seq (NsInfo.init nsid))
  rw [hscan]
  generalize nvmeIdentifyNsInfo s.ctrl r s.seq (NsInfo.init nsid) = g at hret hinfo ⊢
  have hgone : gone r c nsid = g.info.isRemoved := congrArg NsInfo.isRemoved hinfo.symm
  have hfound : found r c nsid =
      if g.ret = 0 ∧ g.info.isReady = true then some g.info else none := by
    rw [hret, hinfo]
    rfl
  have hseq : owned { s with seq := g.seq } = owned s := rfl
  have hfind : nvmeFindNs { s with seq := g.seq } nsid = nvmeFindNs s nsid := rfl
  have hids := ht.ids
  unfold scanWith
  cases hrem : g.info.isRemoved with
  | true =>
      refine .inl ⟨hgone.trans hrem, ?_⟩
      have hnot : ¬(g.ret = 0 ∧ g.info.isReady = true) := by
        intro h
        have hnone := found_of_gone (hgone.trans hrem)
        rw [hfound, if_pos h] at hnone
        cases hnone
      simp only [if_true]
      rw [← nvmeNsRemoveByNsid_seq s nsid g.seq]
      split
      · rfl
      · rename_i hzero
        have hready : g.info.isReady = false := by
          cases h : g.info.isReady with
          | false => rfl
          | true => exact absurd ⟨not_not.mp hzero, h⟩ hnot
        rw [hready]
        rfl
  | false =>
      right
      simp only [Bool.false_eq_true, if_false, hfind]
      by_cases hok : g.ret = 0 ∧ g.info.isReady = true
      · right
        rw [if_pos hok] at hfound
        rw [if_neg (not_not.mpr hok.1), if_pos hok.2]
        cases hns : nvmeFindNs s nsid with
        | some ns =>
            left
            refine ⟨g.info, ns, hgone.trans hrem, hfound, rfl, ?_⟩
            obtain ⟨hmem, hid⟩ := nvmeFindNs_some hns
            have heq : nvmeNsIdsEqual ns.ids g.info.ids = true :=
              (nvmeNsIdsEqual_iff _ _).mpr (hids ns hmem (hid.symm ▸ hv) g.info (hid.symm ▸ hfound))
            simp only [nvmeValidateNs, heq, if_true]
            rfl
        | none =>
            right
            refine ⟨g.info, hgone.trans hrem, hfound, rfl, ?_⟩
            exact nvmeAllocNs_seq hr s g.info g.seq
      · left
        rw [if_neg hok] at hfound
        refine ⟨hgone.trans hrem, hfound, ?_⟩
        split
        · rfl
        · rename_i hzero
          have hready : g.info.isReady = false := by
            cases h : g.info.isReady with
            | false => rfl
            | true => exact absurd ⟨not_not.mp hzero, h⟩ hok
          rw [hready]
          rfl

theorem registered_congr (ho : owned t = owned s) (n : Nat) :
    Registered t n ↔ Registered s n := by
  unfold Registered
  rw [(owned_eq ho).2.1]

theorem registered_add {ns : NvmeNs} (hlist : t.namespaces = s.namespaces ++ [ns]) (n : Nat) :
    Registered t n ↔ Registered s n ∨ n = ns.nsId := by
  unfold Registered
  rw [hlist, List.map_append, List.mem_append, List.map_singleton, List.mem_singleton]

/-- A visit keeps the invariant, and registers or removes its NSID only. -/
theorem nvmeScanNs_spec (hr : Steady r) (hsep : Separate r c V) (ht : Tame r c V s)
    {nsid : Nat} (hv : V nsid) :
    Tame r c V (nvmeScanNs s r nsid) ∧
      ∀ n, Registered (nvmeScanNs s r nsid) n ↔
        Registered s n ∧ ¬(ScanOp.visit nsid).removes r c n ∨
          (ScanOp.visit nsid).adds r c n := by
  rcases nvmeScanNs_cases hr ht hv with ⟨hg, ho⟩ | ⟨hg, hf, ho⟩ |
    ⟨info, ns, hg, hf, hns, ho⟩ | ⟨info, hg, hf, hns, ho⟩
  · have hreg := fun n => (registered_congr ho n).trans
      (nvmeNsRemoveByNsid_registered ht.distinct nsid n)
    refine ⟨(ht.removeByNsid nsid).congr ho, fun n => ?_⟩
    rw [hreg n]
    simp only [ScanOp.removes, ScanOp.adds, hg, found_of_gone hg, ne_eq, not_true_eq_false,
      false_and, and_false, or_false, and_true]
    exact and_comm
  · refine ⟨ht.congr ho, fun n => ?_⟩
    rw [registered_congr ho n]
    simp [ScanOp.removes, ScanOp.adds, hg, hf]
  · refine ⟨(ht.commit ns info).congr ho, fun n => ?_⟩
    rw [registered_congr ho n, registered_of_bindings (commitNs_bindings s ns info) n]
    obtain ⟨hmem, hid⟩ := nvmeFindNs_some hns
    have hthere : Registered s nsid := hid ▸ List.mem_map_of_mem hmem
    simp only [ScanOp.removes, ScanOp.adds, hg, Bool.false_eq_true, and_false,
      not_false_eq_true, and_true]
    exact ⟨.inl, fun h => h.elim id (fun hadd => hadd.1 ▸ hthere)⟩
  · have hnot := (nvmeFindNs_none_iff s nsid).mp hns
    rcases nvmeAllocNs_found hr ht hv hf hnot with
      ⟨hno, hsame⟩ | ⟨hyes, hctrl, -, ns, hlist, hid, hids⟩
    · rw [hsame] at ho
      refine ⟨ht.congr ho, fun n => ?_⟩
      rw [registered_congr ho n]
      simp [ScanOp.removes, ScanOp.adds, hg, hno]
    · refine ⟨(ht.add hsep hv hf hnot hctrl hlist hid hids).congr ho, fun n => ?_⟩
      rw [registered_congr ho n, registered_add hlist n, hid]
      simp [ScanOp.removes, ScanOp.adds, hg, hf, hyes]

/-- A visit in effect changes no binding. -/
theorem nvmeScanNs_same (hr : Steady r) (ht : Tame r c V s) {nsid : Nat} (hv : V nsid)
    (hq : InEffect Registered (ScanOp.adds r c) (ScanOp.removes r c) (.visit nsid) s) :
    bindings (nvmeScanNs s r nsid) = bindings s := by
  rcases nvmeScanNs_cases hr ht hv with ⟨hg, ho⟩ | ⟨-, -, ho⟩ |
    ⟨info, ns, -, -, -, ho⟩ | ⟨info, -, hf, hns, ho⟩
  · rw [bindings_congr ho]
    unfold nvmeNsRemoveByNsid
    rw [(nvmeFindNs_none_iff s nsid).mpr (hq.2 nsid ⟨rfl, hg⟩)]
  · exact bindings_congr ho
  · exact (bindings_congr ho).trans (commitNs_bindings s ns info)
  · have hnot := (nvmeFindNs_none_iff s nsid).mp hns
    rcases nvmeAllocNs_found hr ht hv hf hnot with ⟨-, hsame⟩ | ⟨hyes, -⟩
    · rw [bindings_congr ho, hsame]
    · have hsome : found r c nsid ≠ none := by
        rw [hf]
        exact Option.some_ne_none _
      exact absurd (hq.1 nsid ⟨rfl, hsome, hyes⟩) hnot

/-- A visit leaves the controller's record alone, and numbers the unit of the
namespace it registers. -/
theorem nvmeScanNs_numbers (hr : Steady r) (ht : Tame r c V s) {nsid : Nat} (hv : V nsid) :
    (nvmeScanNs s r nsid).ctrl = s.ctrl ∧
      s.nextUnitNumber ≤ (nvmeScanNs s r nsid).nextUnitNumber ∧
      (r.allocUnit 0 = true → (ScanOp.visit nsid).adds r c nsid → ¬Registered s nsid →
        s.nextUnitNumber < (nvmeScanNs s r nsid).nextUnitNumber) := by
  rcases nvmeScanNs_cases hr ht hv with ⟨hg, ho⟩ | ⟨-, hf, ho⟩ |
    ⟨info, ns, -, -, hns, ho⟩ | ⟨info, -, hf, hns, ho⟩
  · obtain ⟨hctrl, -, -, hnext⟩ := owned_eq ho
    obtain ⟨hkept, hnumber⟩ := nvmeNsRemoveByNsid_numbers s nsid
    rw [hctrl, hnext, hkept, hnumber]
    exact ⟨rfl, Nat.le_refl _, fun _ hadd => absurd (found_of_gone hg) hadd.2.1⟩
  · obtain ⟨hctrl, -, -, hnext⟩ := owned_eq ho
    rw [hctrl, hnext]
    exact ⟨rfl, Nat.le_refl _, fun _ hadd => absurd hf hadd.2.1⟩
  · obtain ⟨hctrl, -, -, hnext⟩ := owned_eq ho
    rw [hctrl, hnext]
    obtain ⟨hmem, hid⟩ := nvmeFindNs_some hns
    exact ⟨rfl, Nat.le_refl _, fun _ _ hnot =>
      absurd (hid ▸ List.mem_map_of_mem hmem) hnot⟩
  · obtain ⟨hctrl, -, -, hnext⟩ := owned_eq ho
    rw [hctrl, hnext]
    have hnot := (nvmeFindNs_none_iff s nsid).mp hns
    rcases nvmeAllocNs_found hr ht hv hf hnot with ⟨hno, hsame⟩ | ⟨-, hkept, hnumber, -⟩
    · rw [hsame]
      refine ⟨rfl, Nat.le_refl _, fun _ hadd => ?_⟩
      exact Bool.noConfusion (hno.symm.trans hadd.2.2)
    · rw [hkept, hnumber]
      refine ⟨rfl, Nat.le_add_right _ _, fun hunit _ _ => ?_⟩
      rw [hunit]
      exact Nat.lt_succ_self _

/-! ### All operations -/

/-- On tame states the operations of a scan register and remove NSIDs. -/
theorem applyScanOp_keyOps (hr : Steady r) (hsep : Separate r c V) :
    KeyOps (applyScanOp r) (ScanOp.VisitsIn V) (Tame r c V) Registered (ScanOp.adds r c)
      (ScanOp.removes r c) := by
  constructor
  · intro s o hv ht
    cases o with
    | tick => exact ht.congr rfl
    | visit nsid => exact (nvmeScanNs_spec hr hsep ht hv).1
    | drop nsid => exact ht.removeByNsid nsid
    | cut nsid => exact (foldl_nvmeNsRemove _ ht).1
  · intro s o n hv ht
    cases o with
    | tick => simp [ScanOp.adds, ScanOp.removes, applyScanOp, Registered]
    | visit nsid => exact (nvmeScanNs_spec hr hsep ht hv).2 n
    | drop nsid =>
        refine (nvmeNsRemoveByNsid_registered ht.distinct nsid n).trans ?_
        simp only [ScanOp.adds, ScanOp.removes, or_false]
        exact and_comm
    | cut nsid =>
        refine (nvmeRemoveInvalidNamespaces_registered ht nsid n).trans ?_
        simp only [ScanOp.adds, ScanOp.removes, or_false, Nat.not_lt]
        exact and_comm

theorem applyScanOp_same (hr : Steady r) {o : ScanOp} (hv : o.VisitsIn V)
    (ht : Tame r c V s)
    (hq : InEffect Registered (ScanOp.adds r c) (ScanOp.removes r c) o s) :
    bindings (applyScanOp r s o) = bindings s := by
  cases o with
  | tick => rfl
  | visit nsid => exact nvmeScanNs_same hr ht hv hq
  | drop nsid =>
      have hnone : nvmeFindNs s nsid = none := (nvmeFindNs_none_iff s nsid).mpr (hq.2 nsid rfl)
      simp only [applyScanOp, nvmeNsRemoveByNsid, hnone]
  | cut nsid =>
      have hnil : s.namespaces.filter (fun ns => decide (nsid < ns.nsId)) = [] := by
        rw [List.filter_eq_nil_iff]
        intro ns hns habove
        have hlt : nsid < ns.nsId := by simpa using habove
        exact hq.2 ns.nsId hlt (List.mem_map_of_mem hns)
      simp only [applyScanOp, nvmeRemoveInvalidNamespaces, hnil, List.foldl_nil]

/-- An operation leaves the controller's record alone, and numbers the units of the
namespaces it registers. -/
theorem applyScanOp_numbers (hr : Steady r) {o : ScanOp} (hv : o.VisitsIn V)
    (ht : Tame r c V s) :
    (applyScanOp r s o).ctrl = s.ctrl ∧
      s.nextUnitNumber ≤ (applyScanOp r s o).nextUnitNumber ∧
      (r.allocUnit 0 = true → ∀ n, o.adds r c n → ¬Registered s n →
        s.nextUnitNumber < (applyScanOp r s o).nextUnitNumber) := by
  cases o with
  | tick => exact ⟨rfl, Nat.le_refl _, fun _ _ hadd => hadd.elim⟩
  | visit nsid =>
      obtain ⟨hctrl, hle, hlt⟩ := nvmeScanNs_numbers hr ht hv
      refine ⟨hctrl, hle, ?_⟩
      rintro hunit n ⟨rfl, hadd⟩ hnot
      exact hlt hunit ⟨rfl, hadd⟩ hnot
  | drop nsid =>
      obtain ⟨hctrl, hnext⟩ := nvmeNsRemoveByNsid_numbers s nsid
      exact ⟨hctrl, hnext.ge, fun _ _ hadd => hadd.elim⟩
  | cut nsid =>
      obtain ⟨hctrl, hnext⟩ := foldl_nvmeNsRemove_numbers
        (s.namespaces.filter (fun ns => decide (nsid < ns.nsId))) s
      exact ⟨hctrl, hnext.ge, fun _ _ hadd => hadd.elim⟩

/-- The operations leave the controller's record alone. -/
theorem foldl_applyScanOp_ctrl (hr : Steady r) (hsep : Separate r c V) (ops : List ScanOp)
    (hops : ∀ o, o ∈ ops → o.VisitsIn V) (ht : Tame r c V s) :
    (ops.foldl (applyScanOp r) s).ctrl = s.ctrl := by
  induction ops generalizing s with
  | nil => rfl
  | cons o ops ih =>
      rw [List.forall_mem_cons] at hops
      have hkeep := (applyScanOp_keyOps hr hsep).keeps s o hops.1 ht
      exact (ih hops.2 hkeep).trans (applyScanOp_numbers hr hops.1 ht).1

/-- Operations that register nothing another one removes change nothing the second time. -/
theorem replay_same (hr : Steady r) (hsep : Separate r c V) (ht : Tame r c V s)
    {ops : List ScanOp} (hops : ∀ o, o ∈ ops → o.VisitsIn V)
    (hun : Unmixed (ScanOp.adds r c) (ScanOp.removes r c) ops) (ht' : Tame r c V t)
    (ho : bindings t = bindings (ops.foldl (applyScanOp r) s)) :
    bindings (ops.foldl (applyScanOp r) t) = bindings t := by
  have hkey := applyScanOp_keyOps hr hsep
  have heffect := hkey.foldl_inEffect hops hun ht
  refine hkey.foldl_same (E := fun s t => bindings t = bindings s) (fun _ => rfl) ?_ ?_ ?_
    ops hops ht' ?_
  · exact fun s t u h₁ h₂ => h₂.trans h₁
  · exact fun s o hv ht hset => applyScanOp_same hr hv ht hset
  · exact fun s t hb => registered_of_bindings hb
  · exact fun o hmem => (heffect o hmem).congr (registered_of_bindings ho)

/-- Otherwise they create a unit anew. -/
theorem replay_creates (hr : Steady r) (hunit : r.allocUnit 0 = true)
    (hsep : Separate r c V) (ht : Tame r c V s) {ops : List ScanOp}
    (hops : ∀ o, o ∈ ops → o.VisitsIn V)
    (hmix : ¬Unmixed (ScanOp.adds r c) (ScanOp.removes r c) ops) (ht' : Tame r c V t)
    (ho : bindings t = bindings (ops.foldl (applyScanOp r) s)) :
    t.nextUnitNumber < (ops.foldl (applyScanOp r) t).nextUnitNumber := by
  refine (applyScanOp_keyOps hr hsep).foldl_again_lt ScanState.nextUnitNumber ?_ ?_
    ScanOp.adds_apart hops hmix ht ht' (registered_of_bindings ho)
  · exact fun s o hv ht => (applyScanOp_numbers hr hv ht).2.1
  · exact fun s o n hv ht => (applyScanOp_numbers hr hv ht).2.2 hunit n

end Ops

/-! ### The operations of a scan -/

/-- The gap below an entry of the active list. -/
def gapOps (first n : Nat) : List ScanOp := (List.range' first n).map ScanOp.drop

/-- The operations of one page, the new `prev`, and whether the page ended the
list. -/
def pageOps : List Nat → Nat → List ScanOp × Nat × Bool
  | [], prev => ([], prev, false)
  | nsid :: rest, prev =>
      if nsid = 0 then ([], prev, true)
      else
        let first := (prev + 1) % 2 ^ 32
        let p := pageOps rest (first + (nsid - first))
        (.visit nsid :: (gapOps first (nsid - first) ++ p.1), p.2)

/-- One page as the driver reads it. -/
def fullPage (nsids : List Nat) : List Nat :=
  (nsids ++ List.replicate nsListEntries 0).take nsListEntries

/-- The operations of the list scan, and its return value. -/
def listOps (r : Responses) : Nat → Nat → Option (List ScanOp × Int)
  | 0, _ => none
  | fuel + 1, prev =>
      match r.activeList 0 prev with
      | .error e => some ([.tick], e)
      | .ok nsids =>
          match pageOps (fullPage nsids) prev with
          | (ops, prev₁, true) => some (.tick :: (ops ++ [.cut prev₁]), 0)
          | (ops, prev₁, false) =>
              (listOps r fuel prev₁).map (fun p => (.tick :: (ops ++ p.1), p.2))

/-- The operations of the sequential scan. -/
def sequentialOps (r : Responses) : Option (List ScanOp) :=
  match r.ctrlNn 0 with
  | .error _ => some [.tick]
  | .ok nn =>
      if 2 ^ 32 - 1 ≤ nn then none
      else some (.tick :: ((List.range' 1 nn).map ScanOp.visit ++ [.cut nn]))

/-- The operations of a scan past the limits. -/
def scanOps (fuel : Nat) (r : Responses) (c : ScanCtrl) : Option (List ScanOp) :=
  if nvmeIdCnsOk c 0x02 then
    match listOps r fuel 0 with
    | none => none
    | some (ops, ret) =>
        if 0 < ret ∧ retDnr ret = true then (sequentialOps r).map (fun l => ops ++ l)
        else some ops
  else sequentialOps r

section Scanning

variable {r : Responses} {c : ScanCtrl}

theorem removeGap_eq (n first : Nat) (s : ScanState) :
    removeGap n first s = ((gapOps first n).foldl (applyScanOp r) s, first + n) := by
  induction n generalizing first s with
  | zero => rfl
  | succ n ih =>
      unfold removeGap
      rw [ih]
      refine Prod.ext rfl ?_
      change first + 1 + n = first + (n + 1)
      omega

theorem scanListPage_eq (page : List Nat) (prev : Nat) (s : ScanState) :
    scanListPage r page prev s =
      ((pageOps page prev).1.foldl (applyScanOp r) s, (pageOps page prev).2) := by
  induction page generalizing prev s with
  | nil => rfl
  | cons nsid rest ih =>
      unfold scanListPage pageOps
      split
      · rfl
      · dsimp only
        rw [removeGap_eq (r := r), ih, List.foldl_cons, List.foldl_append]
        rfl

theorem nvmeScanNsList_eq (hr : Steady r) (fuel prev : Nat) (s : ScanState) :
    nvmeScanNsList r fuel prev s =
      (listOps r fuel prev).map (fun p => (p.1.foldl (applyScanOp r) s, p.2)) := by
  induction fuel generalizing prev s with
  | zero => rfl
  | succ fuel ih =>
      unfold nvmeScanNsList listOps
      rw [hr.activeList s.seq]
      cases r.activeList 0 prev with
      | error e => rfl
      | ok nsids =>
          have hpage : (nsids ++ List.replicate nsListEntries 0).take nsListEntries =
              fullPage nsids := rfl
          dsimp only
          rw [scanListPage_eq, hpage]
          generalize pageOps (fullPage nsids) prev = p
          obtain ⟨ops, prev₁, b⟩ := p
          cases b with
          | true =>
              dsimp only
              rw [Option.map_some, List.foldl_cons, List.foldl_append]
              rfl
          | false =>
              dsimp only
              rw [ih, Option.map_map]
              refine congrArg (fun f => (listOps r fuel prev₁).map f) (funext fun x => ?_)
              dsimp only [Function.comp]
              rw [List.foldl_cons, List.foldl_append]
              rfl

theorem scanSequentialLoop_eq (n i : Nat) (s : ScanState) :
    scanSequentialLoop r n i s =
      ((List.range' i n).map ScanOp.visit).foldl (applyScanOp r) s := by
  induction n generalizing i s with
  | zero => rfl
  | succ n ih =>
      unfold scanSequentialLoop
      rw [ih]
      rfl

theorem nvmeScanNsSequential_eq (hr : Steady r) (s : ScanState) :
    nvmeScanNsSequential r s =
      (sequentialOps r).map (fun ops => ops.foldl (applyScanOp r) s) := by
  unfold nvmeScanNsSequential sequentialOps
  rw [hr.ctrlNn s.seq]
  cases r.ctrlNn 0 with
  | error e => rfl
  | ok nn =>
      dsimp only
      split
      · rfl
      · rw [Option.map_some, List.foldl_cons, List.foldl_append, scanSequentialLoop_eq]
        rfl

/-! ### Order -/

/-- An active list in order, from `prev` on; a zero ends it. -/
def Ascending : Nat → List Nat → Prop
  | _, [] => True
  | prev, nsid :: rest => nsid = 0 ∨ (prev < nsid ∧ nsid < 2 ^ 32 ∧ Ascending nsid rest)

/-- The controller's lists are in order, and a list that has begun does not fail
for good. -/
structure OrderedLists (r : Responses) : Prop where
  ascending : ∀ prev nsids, r.activeList 0 prev = .ok nsids → Ascending prev nsids
  whole : ∀ prev e, prev ≠ 0 → r.activeList 0 prev = .error e → ¬(0 < e ∧ retDnr e = true)

/-- Every operation is about NSIDs above a bound and up to another. -/
def Within (lo hi : Nat) (ops : List ScanOp) : Prop :=
  ∀ o, o ∈ ops → ∀ n, o.touches n → lo < n ∧ n ≤ hi

theorem within_nil (lo hi : Nat) : Within lo hi [] := by
  intro o ho
  cases ho

theorem ascending_append_zeros {prev : Nat} {l : List Nat} (h : Ascending prev l) (k : Nat) :
    Ascending prev (l ++ List.replicate k 0) := by
  induction l generalizing prev with
  | nil =>
      cases k with
      | zero => trivial
      | succ k => exact .inl rfl
  | cons n rest ih => exact h.imp_right (fun h => ⟨h.1, h.2.1, ih h.2.2⟩)

theorem ascending_take {prev : Nat} {l : List Nat} (h : Ascending prev l) (k : Nat) :
    Ascending prev (l.take k) := by
  induction l generalizing prev k with
  | nil =>
      rw [List.take_nil]
      trivial
  | cons n rest ih =>
      cases k with
      | zero => trivial
      | succ k => exact h.imp_right (fun h => ⟨h.1, h.2.1, ih h.2.2 k⟩)

/-- The operations of a page in order do not undo each other. -/
theorem pageOps_order {page : List Nat} {prev : Nat} (hprev : prev < 2 ^ 32)
    (h : Ascending prev page) :
    (pageOps page prev).1.Pairwise ScanOp.Apart ∧
      Within prev (pageOps page prev).2.1 (pageOps page prev).1 ∧
      prev ≤ (pageOps page prev).2.1 ∧ (pageOps page prev).2.1 < 2 ^ 32 := by
  induction page generalizing prev with
  | nil => exact ⟨List.Pairwise.nil, within_nil _ _, Nat.le_refl _, hprev⟩
  | cons nsid rest ih =>
      unfold pageOps
      split
      · exact ⟨List.Pairwise.nil, within_nil _ _, Nat.le_refl _, hprev⟩
      · rename_i hne
        obtain ⟨hlt, hbound, hrest⟩ := h.resolve_left hne
        have hfirst : (prev + 1) % 2 ^ 32 = prev + 1 := Nat.mod_eq_of_lt (by omega)
        have hnext : prev + 1 + (nsid - (prev + 1)) = nsid := by omega
        dsimp only
        rw [hfirst, hnext]
        obtain ⟨hpair, hin, hle, hsmall⟩ := ih hbound hrest
        have hgap : ∀ o, o ∈ gapOps (prev + 1) (nsid - (prev + 1)) → ∀ n, o.touches n →
            prev < n ∧ n < nsid := by
          intro o ho n hn
          obtain ⟨k, hk, rfl⟩ := List.mem_map.mp ho
          rw [List.mem_range'_1] at hk
          change n = k at hn
          omega
        refine ⟨?_, ?_, by omega, hsmall⟩
        · rw [List.pairwise_cons, List.pairwise_append]
          refine ⟨?_, ?_, hpair, ?_⟩
          · intro o ho n hn hon
            change n = nsid at hn
            rcases List.mem_append.mp ho with ho | ho
            · have := hgap o ho n hon
              omega
            · have := hin o ho n hon
              omega
          · unfold gapOps
            rw [List.pairwise_map]
            have hnodup : (List.range' (prev + 1) (nsid - (prev + 1))).Nodup :=
              List.nodup_range'
            refine hnodup.imp ?_
            intro a b hab n hn hon
            change n = a at hn
            change n = b at hon
            omega
          · intro o ho o' ho' n hn hon
            have := hgap o ho n hn
            have := hin o' ho' n hon
            omega
        · intro o ho n hn
          rcases List.mem_cons.mp ho with rfl | ho
          · change n = nsid at hn
            omega
          · rcases List.mem_append.mp ho with ho | ho
            · have := hgap o ho n hn
              omega
            · have := hin o ho n hn
              omega

theorem pageOps_advance {page : List Nat} {prev : Nat} (hprev : prev < 2 ^ 32)
    (h : Ascending prev page) (hne : page ≠ []) (hmore : (pageOps page prev).2.2 = false) :
    prev < (pageOps page prev).2.1 := by
  cases page with
  | nil => exact absurd rfl hne
  | cons nsid rest =>
      unfold pageOps at hmore ⊢
      split at hmore
      · cases hmore
      · rename_i hnz
        obtain ⟨hlt, hbound, hrest⟩ := h.resolve_left hnz
        have hfirst : (prev + 1) % 2 ^ 32 = prev + 1 := Nat.mod_eq_of_lt (by omega)
        have hnext : prev + 1 + (nsid - (prev + 1)) = nsid := by omega
        rw [if_neg hnz]
        dsimp only
        rw [hfirst, hnext]
        have := (pageOps_order hbound hrest).2.2.1
        omega

theorem fullPage_ne_nil (nsids : List Nat) : fullPage nsids ≠ [] := by
  intro h
  have hlen := congrArg List.length h
  rw [fullPage, List.length_take, List.length_append, List.length_replicate,
    List.length_nil] at hlen
  have : nsListEntries = 1024 := rfl
  omega

/-- The operations of the list scan do not undo each other, and only its first
command can fail for good. -/
theorem listOps_order (ho : OrderedLists r) {fuel prev : Nat} {ops : List ScanOp} {ret : Int}
    (hprev : prev < 2 ^ 32) (hops : listOps r fuel prev = some (ops, ret)) :
    ops.Pairwise ScanOp.Apart ∧ (∀ o, o ∈ ops → ∀ n, o.touches n → prev < n) ∧
      (0 < ret ∧ retDnr ret = true → prev = 0 ∧ ops = [.tick]) := by
  induction fuel generalizing prev ops ret with
  | zero => cases hops
  | succ fuel ih =>
      unfold listOps at hops
      cases hlist : r.activeList 0 prev with
      | error e =>
          rw [hlist] at hops
          cases hops
          refine ⟨List.pairwise_singleton _ _, ?_, ?_⟩
          · intro o ho n hn
            rw [List.mem_singleton.mp ho] at hn
            exact hn.elim
          · intro hdnr
            refine ⟨?_, rfl⟩
            by_contra hne
            exact ho.whole prev _ hne hlist hdnr
      | ok nsids =>
          rw [hlist] at hops
          have hasc : Ascending prev (fullPage nsids) :=
            ascending_take (ascending_append_zeros (ho.ascending prev nsids hlist) _) _
          obtain ⟨hpair, hin, hle, hsmall⟩ := pageOps_order hprev hasc
          have hadv := pageOps_advance hprev hasc (fullPage_ne_nil nsids)
          dsimp only at hops
          generalize pageOps (fullPage nsids) prev = p at hops hpair hin hle hsmall hadv
          obtain ⟨pops, prev₁, b⟩ := p
          dsimp only at hpair hin hle hsmall hadv
          have htick : ∀ o : ScanOp, ScanOp.Apart .tick o := fun o n hn => hn.elim
          cases b with
          | true =>
              cases hops
              refine ⟨?_, ?_, ?_⟩
              · rw [List.pairwise_cons, List.pairwise_append]
                refine ⟨fun o _ => htick o, hpair, List.pairwise_singleton _ _, ?_⟩
                intro o hmem o' hmem' n hn hon
                rw [List.mem_singleton.mp hmem'] at hon
                have := (hin o hmem n hn).2
                change prev₁ < n at hon
                omega
              · intro o hmem n hn
                rcases List.mem_cons.mp hmem with rfl | hmem
                · exact hn.elim
                · rcases List.mem_append.mp hmem with hmem | hmem
                  · exact (hin o hmem n hn).1
                  · rw [List.mem_singleton.mp hmem] at hn
                    change prev₁ < n at hn
                    omega
              · rintro ⟨hpos, -⟩
                exact absurd hpos (by decide)
          | false =>
              obtain ⟨⟨ops', ret'⟩, hops', heq⟩ := Option.map_eq_some_iff.mp hops
              cases heq
              have hlt := hadv rfl
              obtain ⟨hpair', habove, hdnr⟩ := ih hsmall hops'
              refine ⟨?_, ?_, ?_⟩
              · rw [List.pairwise_cons, List.pairwise_append]
                refine ⟨fun o _ => htick o, hpair, hpair', ?_⟩
                intro o hmem o' hmem' n hn hon
                have h₁ := (hin o hmem n hn).2
                have h₂ := habove o' hmem' n hon
                omega
              · intro o hmem n hn
                rcases List.mem_cons.mp hmem with rfl | hmem
                · exact hn.elim
                · rcases List.mem_append.mp hmem with hmem | hmem
                  · exact (hin o hmem n hn).1
                  · have := habove o hmem n hn
                    omega
              · intro h
                have := (hdnr h).1
                omega

theorem sequentialOps_order {ops : List ScanOp} (hops : sequentialOps r = some ops) :
    ops.Pairwise ScanOp.Apart := by
  unfold sequentialOps at hops
  cases hnn : r.ctrlNn 0 with
  | error e =>
      rw [hnn] at hops
      cases hops
      exact List.pairwise_singleton _ _
  | ok nn =>
      rw [hnn] at hops
      dsimp only at hops
      split at hops
      · cases hops
      · cases hops
        rw [List.pairwise_cons, List.pairwise_append, List.pairwise_map]
        refine ⟨fun o _ n hn => hn.elim, ?_, List.pairwise_singleton _ _, ?_⟩
        · have hnodup : (List.range' 1 nn).Nodup := List.nodup_range'
          refine hnodup.imp ?_
          intro a b hab n hn hon
          change n = a at hn
          change n = b at hon
          omega
        · intro o hmem o' hmem' n hn hon
          obtain ⟨k, hk, rfl⟩ := List.mem_map.mp hmem
          rw [List.mem_range'_1] at hk
          rw [List.mem_singleton.mp hmem'] at hon
          change n = k at hn
          change nn < n at hon
          omega

theorem scanOps_order (ho : OrderedLists r) {fuel : Nat} {ops : List ScanOp}
    (hops : scanOps fuel r c = some ops) : ops.Pairwise ScanOp.Apart := by
  unfold scanOps at hops
  split at hops
  · cases hlist : listOps r fuel 0 with
    | none =>
        rw [hlist] at hops
        cases hops
    | some p =>
        obtain ⟨lops, ret⟩ := p
        rw [hlist] at hops
        obtain ⟨hpair, -, hdnr⟩ := listOps_order ho (by decide) hlist
        dsimp only at hops
        split at hops
        · rename_i hfall
          obtain ⟨sops, hsops, heq⟩ := Option.map_eq_some_iff.mp hops
          rw [← heq, (hdnr hfall).2, List.singleton_append, List.pairwise_cons]
          exact ⟨fun o _ n hn => hn.elim, sequentialOps_order hsops⟩
        · cases hops
          exact hpair
  · exact sequentialOps_order hops

/-! ### Two scans -/

/-- The controller with its default Write Zeroes limit. -/
def defaultLimit (c : ScanCtrl) : ScanCtrl :=
  if c.oncsWriteZeroes && !c.quirkDisableWriteZeroes then
    { c with maxZeroesSectors := c.maxHwSectors }
  else { c with maxZeroesSectors := 0 }

/-- The limits are not read from the controller. -/
def limitsSkipped (c : ScanCtrl) : Bool :=
  !c.isIoCtrl || !nvmeIdCnsOk c 0x06 || c.skipIdCnsCs

theorem defaultLimit_spec (c : ScanCtrl) :
    SameIdentify c (defaultLimit c) ∧ (defaultLimit c).live = c.live ∧
      limitsSkipped (defaultLimit c) = limitsSkipped c := by
  unfold defaultLimit
  split <;> exact ⟨⟨rfl, rfl, rfl, rfl, rfl, rfl, rfl⟩, rfl, rfl⟩

theorem nvmeInitNonMdtsLimits_eq (c : ScanCtrl) (r : Responses) (n : Nat) :
    nvmeInitNonMdtsLimits c r n =
      if limitsSkipped (defaultLimit c) then (0, defaultLimit c, n)
      else
        match r.ctrlNvm n with
        | .error e =>
            (e, if 0 < e then { defaultLimit c with skipIdCnsCs := true } else defaultLimit c,
              n + 1)
        | .ok id =>
            (0,
              if id.wzsl = 0 then { defaultLimit c with dmrl := id.dmrl, dmrsl := id.dmrsl }
              else
                { defaultLimit c with
                  dmrl := id.dmrl, dmrsl := id.dmrsl
                  maxZeroesSectors := nvmeMpsToSectors
                    { defaultLimit c with dmrl := id.dmrl, dmrsl := id.dmrsl } id.wzsl },
              n + 1) := rfl

theorem nvmeInitNonMdtsLimits_spec (c : ScanCtrl) (r : Responses) (n : Nat) :
    SameIdentify c (nvmeInitNonMdtsLimits c r n).2.1 ∧
      (nvmeInitNonMdtsLimits c r n).2.1.live = c.live := by
  obtain ⟨⟨h₁, h₂, h₃, h₄, h₅, h₆, h₇⟩, hlive, -⟩ := defaultLimit_spec c
  rw [nvmeInitNonMdtsLimits_eq]
  split
  · exact ⟨⟨h₁, h₂, h₃, h₄, h₅, h₆, h₇⟩, hlive⟩
  · cases r.ctrlNvm n with
    | error e =>
        dsimp only
        split <;> exact ⟨⟨h₁, h₂, h₃, h₄, h₅, h₆, h₇⟩, hlive⟩
    | ok id =>
        dsimp only
        split <;> exact ⟨⟨h₁, h₂, h₃, h₄, h₅, h₆, h₇⟩, hlive⟩

/-- The return value depends on the controller's answer and on whether it is asked. -/
theorem nvmeInitNonMdtsLimits_ret (hr : Steady r) (c : ScanCtrl) (n : Nat) :
    (nvmeInitNonMdtsLimits c r n).1 =
      if limitsSkipped c then 0
      else
        match r.ctrlNvm 0 with
        | .error e => e
        | .ok _ => 0 := by
  rw [nvmeInitNonMdtsLimits_eq, (defaultLimit_spec c).2.2, hr.ctrlNvm n]
  split
  · rfl
  · cases r.ctrlNvm 0 <;> rfl

/-- A controller that is not asked again had answered. -/
theorem nvmeInitNonMdtsLimits_skipped (hr : Steady r) {c : ScanCtrl} {n : Nat}
    (hnot : ¬(nvmeInitNonMdtsLimits c r n).1 < 0) (m : Nat) :
    ¬(nvmeInitNonMdtsLimits (nvmeInitNonMdtsLimits c r n).2.1 r m).1 < 0 := by
  rw [nvmeInitNonMdtsLimits_ret hr] at hnot ⊢
  split
  · exact lt_irrefl 0
  · rename_i hasked
    have hbefore : limitsSkipped c = false := by
      cases hskip : limitsSkipped c with
      | false => rfl
      | true =>
          refine absurd ?_ hasked
          rw [nvmeInitNonMdtsLimits_eq, (defaultLimit_spec c).2.2, hskip, if_pos rfl]
          exact (defaultLimit_spec c).2.2.trans hskip
    rwa [hbefore, if_neg Bool.false_ne_true] at hnot

/-- Limits that cannot be read cannot be read a second time. -/
theorem nvmeInitNonMdtsLimits_fails (hr : Steady r) {c : ScanCtrl} {n : Nat}
    (hneg : (nvmeInitNonMdtsLimits c r n).1 < 0) (m : Nat) :
    (nvmeInitNonMdtsLimits (nvmeInitNonMdtsLimits c r n).2.1 r m).1 < 0 := by
  have hasked : limitsSkipped c = false := by
    cases hskip : limitsSkipped c with
    | false => rfl
    | true =>
        rw [nvmeInitNonMdtsLimits_ret hr, hskip, if_pos rfl] at hneg
        exact absurd hneg (lt_irrefl 0)
  have hagain : limitsSkipped (nvmeInitNonMdtsLimits c r n).2.1 = false := by
    rw [nvmeInitNonMdtsLimits_ret hr, hasked, if_neg Bool.false_ne_true] at hneg
    rw [nvmeInitNonMdtsLimits_eq, (defaultLimit_spec c).2.2, hasked, if_neg Bool.false_ne_true,
      hr.ctrlNvm n]
    cases hans : r.ctrlNvm 0 with
    | ok id =>
        rw [hans] at hneg
        exact absurd hneg (lt_irrefl 0)
    | error e =>
        rw [hans] at hneg
        have hnot : ¬0 < e := by
          change e < 0 at hneg
          omega
        dsimp only
        rw [if_neg hnot]
        exact (defaultLimit_spec c).2.2.trans hasked
  rw [nvmeInitNonMdtsLimits_ret hr, hasked] at hneg
  rw [nvmeInitNonMdtsLimits_ret hr, hagain]
  exact hneg

/-- The state in which the operations of a scan begin. -/
def prepared (r : Responses) (s : ScanState) : ScanState :=
  let l := nvmeInitNonMdtsLimits s.ctrl r s.seq
  let s₁ := { s with ctrl := l.2.1, seq := l.2.2, reads := [] }
  if s₁.ctrl.nsChanged then
    { s₁ with ctrl := { s₁.ctrl with nsChanged := false }, seq := s₁.seq + 1 }
  else s₁

/-- The scan gives up before its first operation. -/
def givesUp (r : Responses) (s : ScanState) : Prop :=
  s.ctrl.live = false ∨ (nvmeInitNonMdtsLimits s.ctrl r s.seq).1 < 0

theorem prepared_spec (r : Responses) (s : ScanState) :
    SameIdentify s.ctrl (prepared r s).ctrl ∧ bindings (prepared r s) = bindings s ∧
      (prepared r s).namespaces = s.namespaces := by
  obtain ⟨⟨h₁, h₂, h₃, h₄, h₅, h₆, h₇⟩, -⟩ := nvmeInitNonMdtsLimits_spec s.ctrl r s.seq
  unfold prepared
  dsimp only
  split <;> exact ⟨⟨h₁, h₂, h₃, h₄, h₅, h₆, h₇⟩, rfl, rfl⟩

theorem nvmeIdCnsOk_congr {c d : ScanCtrl} (hc : SameIdentify c d) (cns : Nat) :
    nvmeIdCnsOk d cns = nvmeIdCnsOk c cns := by
  unfold nvmeIdCnsOk
  rw [hc.vs, hc.identifyCns]

theorem scanOps_congr {c d : ScanCtrl} (hc : SameIdentify c d) (fuel : Nat) :
    scanOps fuel r d = scanOps fuel r c := by
  unfold scanOps
  rw [nvmeIdCnsOk_congr hc]

/-- A scan of a live controller that can read its limits. -/
theorem nvmeScanNamespaces_prepared (fuel : Nat) {s : ScanState} (hlive : s.ctrl.live = true)
    (hok : ¬(nvmeInitNonMdtsLimits s.ctrl r s.seq).1 < 0) :
    nvmeScanNamespaces fuel r s =
      if nvmeIdCnsOk (prepared r s).ctrl 0x02 then
        match nvmeScanNsList r fuel 0 (prepared r s) with
        | none => none
        | some (s₃, ret) =>
            if 0 < ret ∧ retDnr ret = true then nvmeScanNsSequential r s₃ else some s₃
      else nvmeScanNsSequential r (prepared r s) := by
  unfold nvmeScanNamespaces
  rw [hlive, if_pos rfl]
  exact if_neg hok

/-- A scan gives up or runs its operations. -/
theorem nvmeScanNamespaces_eq (hr : Steady r) (fuel : Nat) (s : ScanState) :
    (givesUp r s ∧ ∃ s₁, nvmeScanNamespaces fuel r s = some s₁ ∧
      bindings s₁ = bindings s ∧ (s.ctrl.live = false → s₁.ctrl = s.ctrl) ∧
      (s.ctrl.live = true → s₁.ctrl = (nvmeInitNonMdtsLimits s.ctrl r s.seq).2.1)) ∨
    (¬givesUp r s ∧ nvmeScanNamespaces fuel r s =
      (scanOps fuel r s.ctrl).map (fun ops => ops.foldl (applyScanOp r) (prepared r s))) := by
  unfold givesUp
  cases hlive : s.ctrl.live with
  | false =>
      left
      unfold nvmeScanNamespaces
      rw [hlive]
      exact ⟨.inl rfl, _, rfl, rfl, fun _ => rfl, fun h => Bool.noConfusion h⟩
  | true =>
      by_cases hneg : (nvmeInitNonMdtsLimits s.ctrl r s.seq).1 < 0
      · left
        unfold nvmeScanNamespaces
        rw [hlive, if_pos rfl]
        dsimp only
        rw [if_pos hneg]
        exact ⟨.inr hneg, _, rfl, rfl, fun h => Bool.noConfusion h, fun _ => rfl⟩
      · right
        refine ⟨fun h => h.elim Bool.noConfusion hneg, ?_⟩
        rw [nvmeScanNamespaces_prepared fuel hlive hneg]
        rw [← scanOps_congr (prepared_spec r s).1, nvmeScanNsList_eq hr]
        unfold scanOps
        split
        · cases listOps r fuel 0 with
          | none => rfl
          | some p =>
              obtain ⟨ops, ret⟩ := p
              dsimp only [Option.map_some]
              split
              · rw [nvmeScanNsSequential_eq hr, Option.map_map]
                refine congrArg (fun f => (sequentialOps r).map f) (funext fun l => ?_)
                dsimp only [Function.comp]
                rw [List.foldl_append]
              · rfl
        · exact nvmeScanNsSequential_eq hr (prepared r s)

end Scanning

/-- The NSIDs a scan visits. -/
def Visited (fuel : Nat) (r : Responses) (c : ScanCtrl) (nsid : Nat) : Prop :=
  ∃ ops, scanOps fuel r c = some ops ∧ .visit nsid ∈ ops

/-- The scan gives up, or no NSID is both found and dropped by it. -/
def Repeats (fuel : Nat) (r : Responses) (s : ScanState) : Prop :=
  givesUp r s ∨ ∀ ops, scanOps fuel r s.ctrl = some ops →
    Unmixed (ScanOp.adds r s.ctrl) (ScanOp.removes r s.ctrl) ops

section Twice

variable {fuel : Nat} {r : Responses} {s s₁ : ScanState}

theorem visitsIn_visited {c : ScanCtrl} {ops : List ScanOp} (hops : scanOps fuel r c = some ops) :
    ∀ o, o ∈ ops → o.VisitsIn (Visited fuel r c) := by
  intro o ho
  cases o with
  | visit nsid => exact ⟨ops, hops, ho⟩
  | tick => trivial
  | drop nsid => trivial
  | cut nsid => trivial

theorem Tame.prepared {c : ScanCtrl} {V : Nat → Prop} (ht : Tame r c V s) :
    Tame r c V (prepared r s) := by
  obtain ⟨⟨h₁, h₂, h₃, h₄, h₅, h₆, h₇⟩, -, hns⟩ := prepared_spec r s
  obtain ⟨⟨k₁, k₂, k₃, k₄, k₅, k₆, k₇⟩, hd, hids, hapart⟩ := ht
  refine ⟨⟨h₁.trans k₁, h₂.trans k₂, h₃.trans k₃, h₄.trans k₄, h₅.trans k₅, h₆.trans k₆,
    h₇.trans k₇⟩, hns ▸ hd, ?_, ?_⟩
  · rw [hns]
    exact hids
  · rw [hns]
    exact hapart

/-- A controller that gave up gives up again. -/
theorem givesUp_again (hr : Steady r) (hgive : givesUp r s)
    (hdead : s.ctrl.live = false → s₁.ctrl = s.ctrl)
    (hlive : s.ctrl.live = true → s₁.ctrl = (nvmeInitNonMdtsLimits s.ctrl r s.seq).2.1) :
    givesUp r s₁ := by
  cases hl : s.ctrl.live with
  | false => exact .inl ((congrArg ScanCtrl.live (hdead hl)).trans hl)
  | true =>
      right
      have hneg := hgive.resolve_left (fun h => Bool.noConfusion (hl.symm.trans h))
      rw [hlive hl]
      exact nvmeInitNonMdtsLimits_fails hr hneg _

/-- A controller that went through its operations does so again. -/
theorem not_givesUp_again (hr : Steady r) (hnot : ¬givesUp r s)
    (hctrl : s₁.ctrl = (prepared r s).ctrl) : ¬givesUp r s₁ := by
  obtain ⟨hlive, hread⟩ := not_or.mp hnot
  have hagain := nvmeInitNonMdtsLimits_skipped hr hread s₁.seq
  unfold givesUp
  rw [nvmeInitNonMdtsLimits_ret hr, hctrl]
  rw [nvmeInitNonMdtsLimits_ret hr] at hagain
  have hspec := (nvmeInitNonMdtsLimits_spec s.ctrl r s.seq).2
  have hkept : (prepared r s).ctrl.live = s.ctrl.live ∧
      limitsSkipped (prepared r s).ctrl =
        limitsSkipped (nvmeInitNonMdtsLimits s.ctrl r s.seq).2.1 := by
    unfold prepared
    dsimp only
    split <;> exact ⟨hspec, rfl⟩
  rw [hkept.1, hkept.2]
  exact not_or.mpr ⟨hlive, hagain⟩

end Twice

/-- When the registered namespaces are gathered with their identifiers and no two that
are found share one, a second scan with the same answers changes nothing; unless one
scan both finds an NSID and drops it, and then the second scan creates a unit. -/
theorem rescan_changes_nothing (fuel : Nat) (r : Responses) (s s₁ : ScanState)
    (hr : Steady r) (ht : Tame r s.ctrl (Visited fuel r s.ctrl) s)
    (hsep : Separate r s.ctrl (Visited fuel r s.ctrl))
    (hfirst : nvmeScanNamespaces fuel r s = some s₁) :
    ∃ s₂, nvmeScanNamespaces fuel r s₁ = some s₂ ∧
      (Repeats fuel r s → bindings s₂ = bindings s₁) ∧
      (¬Repeats fuel r s → r.allocUnit 0 = true → s₁.nextUnitNumber < s₂.nextUnitNumber) := by
  rcases nvmeScanNamespaces_eq hr fuel s with ⟨hgive, t, hscan, -, hdead, hlive⟩ |
    ⟨hnot, hscan⟩
  · obtain rfl : s₁ = t := Option.some.inj (hfirst.symm.trans hscan)
    have hagain := givesUp_again hr hgive hdead hlive
    rcases nvmeScanNamespaces_eq hr fuel s₁ with ⟨-, s₂, hsecond, hsame, -⟩ | ⟨hno, -⟩
    · exact ⟨s₂, hsecond, fun _ => hsame, fun hrep => absurd (.inl hgive) hrep⟩
    · exact absurd hagain hno
  · rw [hfirst] at hscan
    obtain ⟨ops, hops, heq⟩ := Option.map_eq_some_iff.mp hscan.symm
    have hin := visitsIn_visited hops
    have ht₁ : Tame r s.ctrl (Visited fuel r s.ctrl) s₁ := by
      rw [← heq]
      exact (applyScanOp_keyOps hr hsep).foldl_keeps ops hin ht.prepared
    have hctrl : s₁.ctrl = (prepared r s).ctrl := by
      rw [← heq]
      exact foldl_applyScanOp_ctrl hr hsep ops hin ht.prepared
    rcases nvmeScanNamespaces_eq hr fuel s₁ with ⟨hgive, -⟩ | ⟨-, hsecond⟩
    · exact absurd hgive (not_givesUp_again hr hnot hctrl)
    · rw [scanOps_congr ht₁.ctrl, hops] at hsecond
      have hback : bindings (prepared r s₁) = bindings (ops.foldl (applyScanOp r) (prepared r s)) :=
        heq ▸ (prepared_spec r s₁).2.1
      refine ⟨_, hsecond, fun hrep => ?_, fun hrep hunit => ?_⟩
      · have hun := hrep.resolve_left hnot ops hops
        rw [← (prepared_spec r s₁).2.1]
        exact replay_same hr hsep ht.prepared hin hun ht₁.prepared hback
      · have hmix : ¬Unmixed (ScanOp.adds r s.ctrl) (ScanOp.removes r s.ctrl) ops := by
          intro hun
          refine hrep (.inr fun ops' hops' => ?_)
          obtain rfl : ops = ops' := Option.some.inj (hops.symm.trans hops')
          exact hun
        have hnumber : (prepared r s₁).nextUnitNumber = s₁.nextUnitNumber :=
          congrArg (fun b => b.2.2) (prepared_spec r s₁).2.1
        rw [← hnumber]
        exact replay_creates hr hunit hsep ht.prepared hin hmix ht₁.prepared hback

/-- With lists in order no NSID is both found and dropped. -/
theorem OrderedLists.repeats {r : Responses} (ho : OrderedLists r) (fuel : Nat)
    (s : ScanState) : Repeats fuel r s := by
  right
  intro ops hops o hmem o' hmem' n hadd hrem
  have htouch : o.touches n := by
    cases o with
    | visit nsid => exact hadd.1
    | tick => exact hadd
    | drop nsid => exact hadd.elim
    | cut nsid => exact hadd.elim
  have htouch' : o'.touches n := by
    cases o' with
    | visit nsid => exact hrem.1
    | tick => exact hrem
    | drop nsid => exact hrem
    | cut nsid => exact hrem
  by_cases hsame : o = o'
  · subst hsame
    exact ScanOp.adds_apart o n hadd hrem
  · have hsymm : Std.Symm ScanOp.Apart := ⟨fun a b hab n hb ha => hab n ha hb⟩
    exact (scanOps_order ho hops).forall hmem hmem' hsame n htouch htouch'

/-- A controller with namespace 1 only, whose EUI-64 ends in the given byte. -/
def soleNamespace (tail : Nat) : Responses :=
  { (gibibyteScan 0).responses with
    ns := fun _ nsid =>
      if nsid = 1 then
        .ok { gibibyteNs 0 with eui64 := [0, 0x25, 0x38, 0, 0, 0, 0, tail] }
      else .error 0x4002
    activeList := fun _ prev => .ok (if prev = 0 then [1] else []) }

theorem soleNamespace_steady (tail : Nat) : Steady (soleNamespace tail) :=
  ⟨fun _ => rfl, fun _ => rfl, fun _ => rfl, fun _ => rfl, fun _ => rfl, fun _ => rfl,
    fun _ => rfl, fun _ => rfl, fun _ => rfl⟩

theorem soleNamespace_ordered (tail : Nat) : OrderedLists (soleNamespace tail) := by
  constructor
  · intro prev nsids h
    obtain rfl := Except.ok.inj h
    by_cases hprev : prev = 0
    · rw [if_pos hprev, hprev]
      exact .inr ⟨by decide, by decide, trivial⟩
    · rw [if_neg hprev]
      trivial
  · intro prev e _ h
    cases h

theorem soleNamespace_found {tail m : Nat} {info : NsInfo}
    (h : found (soleNamespace tail) plainCtrl m = some info) : m = 1 := by
  by_contra hm
  have hns : ∀ seq, (soleNamespace tail).ns seq m = .error 0x4002 := fun _ => if_neg hm
  have hret : (gathered (soleNamespace tail) plainCtrl m).ret ≠ 0 := by
    unfold gathered nvmeIdentifyNsInfo nvmeNsInfoFromIdentify
    simp [nvmeIdentifyNsDescs, plainCtrl, nvmeVs, NsInfo.init, NsIds.zero, csiNvm, hns]
  unfold found at h
  rw [if_neg (fun hc => hret hc.1)] at h
  cases h

/-- A controller whose active list is the given one, and whose namespace `n` has an
EUI-64 that ends in the given byte. -/
def listedNamespaces (list : List Nat) (tail : Nat → Nat) : Responses :=
  { (gibibyteScan 0).responses with
    ns := fun _ nsid =>
      .ok { gibibyteNs 0 with eui64 := [0, 0x25, 0x38, 0, 0, 0, 0, tail nsid] }
    activeList := fun _ prev => .ok (if prev = 0 then list else []) }

theorem listedNamespaces_steady (list : List Nat) (tail : Nat → Nat) :
    Steady (listedNamespaces list tail) :=
  ⟨fun _ => rfl, fun _ => rfl, fun _ => rfl, fun _ => rfl, fun _ => rfl, fun _ => rfl,
    fun _ => rfl, fun _ => rfl, fun _ => rfl⟩

/-- The operations of a scan of a list that runs down. -/
theorem listedNamespaces_ops :
    scanOps 2 (listedNamespaces [2, 1] id) plainCtrl =
      some [.tick, .visit 2, .drop 1, .visit 1, .cut 3] := rfl

theorem listedNamespaces_separate :
    Separate (listedNamespaces [2, 1] id) plainCtrl
      (Visited 2 (listedNamespaces [2, 1] id) plainCtrl) := by
  have hvisited : ∀ m, Visited 2 (listedNamespaces [2, 1] id) plainCtrl m → m = 2 ∨ m = 1 := by
    rintro m ⟨ops, hops, hmem⟩
    rw [listedNamespaces_ops, Option.some.injEq] at hops
    subst hops
    simpa using hmem
  intro _ m n i j hm hn hne hi hj
  rcases hvisited m hm with rfl | rfl <;> rcases hvisited n hn with rfl | rfl
  · exact absurd rfl hne
  · cases hi
    cases hj
    decide
  · cases hi
    cases hj
    decide
  · exact absurd rfl hne

theorem rescan_changes_nothing_listed :
    (∃ s₁ s₂, nvmeScanNamespaces 2 (soleNamespace 1) (unscanned plainCtrl 0) = some s₁ ∧
      nvmeScanNamespaces 2 (soleNamespace 1) s₁ = some s₂ ∧ s₁.units.length = 1 ∧
      bindings s₂ = bindings s₁) ∧
    ∃ s₁ s₂, nvmeScanNamespaces 2 (listedNamespaces [2, 1] id) (unscanned plainCtrl 0) = some s₁ ∧
      nvmeScanNamespaces 2 (listedNamespaces [2, 1] id) s₁ = some s₂ ∧
      s₁.nextUnitNumber < s₂.nextUnitNumber := by
  constructor
  · obtain ⟨s₂, hsecond, hsame, -⟩ := rescan_changes_nothing 2 _ (unscanned plainCtrl 0) _
      (soleNamespace_steady 1) ⟨SameIdentify.refl _, List.nodup_nil, fun _ h => (nomatch h),
        fun _ _ h => (nomatch h)⟩
      (fun _ m n i j _ _ hmn hi hj =>
        absurd ((soleNamespace_found hi).trans (soleNamespace_found hj).symm) hmn) rfl
    exact ⟨_, s₂, rfl, hsecond, rfl, hsame ((soleNamespace_ordered 1).repeats 2 _)⟩
  · obtain ⟨s₂, hsecond, -, hnew⟩ := rescan_changes_nothing 2 _ (unscanned plainCtrl 0) _
      (listedNamespaces_steady [2, 1] id) ⟨SameIdentify.refl _, List.nodup_nil,
        fun _ h => (nomatch h), fun _ _ h => (nomatch h)⟩ listedNamespaces_separate rfl
    refine ⟨_, s₂, rfl, hsecond, hnew ?_ rfl⟩
    rintro (hgive | hun)
    · rcases hgive with hdead | hneg
      · cases hdead
      · exact absurd hneg (by decide)
    · refine hun _ listedNamespaces_ops (.visit 1) (by simp) (.drop 1) (by simp) 1 ?_ rfl
      exact ⟨rfl, Option.some_ne_none _, rfl⟩

/-- Two equal scans that differ.  Under NSID 1 the controller now has another namespace:
the first scan removes the old one, and only the second creates a unit for the new one.
A list that runs down: each scan drops NSID 1 from the gap below 2 and then finds it.
Two namespaces with one EUI-64: the first scan stops trusting identifiers at the second
namespace, and the second scan removes the first. -/
theorem rescan_recreates :
    (∃ s s₁ s₂, nvmeScanNamespaces 2 (soleNamespace 1) (unscanned plainCtrl 0) = some s ∧
      nvmeScanNamespaces 2 (soleNamespace 2) s = some s₁ ∧
      nvmeScanNamespaces 2 (soleNamespace 2) s₁ = some s₂ ∧
      Steady (soleNamespace 2) ∧ s₁.units.length = 1 ∧ s₂.units.length = 2 ∧
      bindings s₂ ≠ bindings s₁) ∧
    (∃ s₁ s₂, nvmeScanNamespaces 2 (listedNamespaces [2, 1] id) (unscanned plainCtrl 0) = some s₁ ∧
      nvmeScanNamespaces 2 (listedNamespaces [2, 1] id) s₁ = some s₂ ∧
      Steady (listedNamespaces [2, 1] id) ∧ s₁.units.length = 2 ∧ s₂.units.length = 3 ∧
      bindings s₂ ≠ bindings s₁) ∧
    ∃ s₁ s₂, nvmeScanNamespaces 2 (listedNamespaces [1, 2] (fun _ => 1))
        (unscanned plainCtrl 0) = some s₁ ∧
      nvmeScanNamespaces 2 (listedNamespaces [1, 2] (fun _ => 1)) s₁ = some s₂ ∧
      Steady (listedNamespaces [1, 2] (fun _ => 1)) ∧
      s₁.namespaces.map NvmeNs.nsId = [1, 2] ∧ s₂.namespaces.map NvmeNs.nsId = [2] ∧
      bindings s₂ ≠ bindings s₁ := by
  refine ⟨?_, ?_, ?_⟩
  · exact ⟨_, _, _, rfl, rfl, rfl, soleNamespace_steady 2, by decide, by decide, by decide⟩
  · exact ⟨_, _, rfl, rfl, listedNamespaces_steady _ _, by decide, by decide, by decide⟩
  · exact ⟨_, _, rfl, rfl, listedNamespaces_steady _ _, by decide, by decide, by decide⟩

end Namespace
end NvmeDriver
