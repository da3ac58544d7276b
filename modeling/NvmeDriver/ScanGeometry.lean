import NvmeDriver.Scan

/-!
# Unit geometry over scans

A unit's geometry is written once, by `nvme_alloc_nvmeunit`; a rescan refreshes
the namespace record (`nvme_update_ns_info`) and only the DEAC feature of its
unit.  So the units follow the device over a run of scans exactly as long as
every scan finds the registered namespaces in the format their records already
hold, and finds the write-zeroes limit unchanged.
-/

namespace NvmeDriver
namespace Namespace

/-- The geometry of a unit is what `nvme_alloc_nvmeunit` would compute for this
Identify data and write-zeroes limit. -/
def UnitMatches (maxZeroes : Nat) (u : NVMeUnit) (info : NsInfo) : Prop :=
  u.blockSize = (unitOfInfo maxZeroes u.unitNumber info).blockSize ∧
    u.blockShift = (unitOfInfo maxZeroes u.unitNumber info).blockShift ∧
    u.logicalSectors = (unitOfInfo maxZeroes u.unitNumber info).logicalSectors ∧
    u.wzMaxBytes = (unitOfInfo maxZeroes u.unitNumber info).wzMaxBytes

/-- Every live unit still registered for an NSID has the geometry of the
Identify data the scan read last for that NSID and those identifiers. -/
def GeometryTracks (s : ScanState) : Prop :=
  ∀ ns, ns ∈ s.namespaces → ∀ u, u ∈ s.units →
    ns.unit = some u.unitNumber → u.dead = false →
    ∀ rd, s.reads.find? (fun rd => rd.nsid == ns.nsId) = some rd →
      rd.info.ids = ns.ids →
      UnitMatches s.ctrl.maxZeroesSectors u rd.info

/-- The record describes the format this Identify data describes. -/
def RecordMatches (ns : NvmeNs) (info : NsInfo) : Prop :=
  ns.lbaShift = (nvmeUpdateNsInfo (freshNs info) none info).1.lbaShift ∧
    ns.diskCapacitySectors =
      (nvmeUpdateNsInfo (freshNs info) none info).1.diskCapacitySectors

/-- The data was read for an unregistered NSID, or for other identifiers, or
it describes the format the namespace record already holds. -/
def SteadyRead (rd : ScanRead) : Prop :=
  ∀ ns, rd.before = some ns → rd.info.ids = ns.ids → RecordMatches ns rd.info

/-- The unit has the geometry of the namespace record. -/
def UnitOfRecord (maxZeroes : Nat) (ns : NvmeNs) (u : NVMeUnit) : Prop :=
  u.blockShift = ns.lbaShift ∧ u.blockSize = 2 ^ ns.lbaShift % 2 ^ 32 ∧
    u.logicalSectors = ns.diskCapacitySectors ∧
    u.wzMaxBytes = wzMaxBytes maxZeroes ns.lbaShift

/-- Units and records agree; unit numbers are below the next one, and no NSID
is registered twice. -/
structure Linked (maxZeroes : Nat) (s : ScanState) : Prop where
  distinct : (s.namespaces.map NvmeNs.nsId).Nodup
  unitBound : ∀ u, u ∈ s.units → u.unitNumber < s.nextUnitNumber
  nsBound : ∀ ns, ns ∈ s.namespaces → ∀ n, ns.unit = some n →
    n < s.nextUnitNumber
  geometry : ∀ ns, ns ∈ s.namespaces → ∀ u, u ∈ s.units →
    ns.unit = some u.unitNumber → UnitOfRecord maxZeroes ns u

/-- Records agree with the Identify data read last in this scan. -/
def Current (s : ScanState) : Prop :=
  ∀ ns, ns ∈ s.namespaces →
    ∀ rd, s.reads.find? (fun rd => rd.nsid == ns.nsId) = some rd →
      rd.info.ids = ns.ids → RecordMatches ns rd.info

/-- What holds at every moment of a scan. -/
structure ScanInv (maxZeroes : Nat) (s : ScanState) : Prop where
  limit : s.ctrl.maxZeroesSectors = maxZeroes
  linked : Linked maxZeroes s
  current : Current s

/-! ### Removals -/

/-- The second state has fewer namespaces and units of the same geometry. -/
structure Shrinks (s t : ScanState) : Prop where
  ctrl : t.ctrl = s.ctrl
  reads : t.reads = s.reads
  next : t.nextUnitNumber = s.nextUnitNumber
  namespaces : t.namespaces.Sublist s.namespaces
  units : ∀ u, u ∈ t.units → ∃ v, v ∈ s.units ∧ u = { v with dead := u.dead }

theorem Shrinks.refl (s : ScanState) : Shrinks s s :=
  ⟨rfl, rfl, rfl, List.Sublist.refl _, fun u h => ⟨u, h, rfl⟩⟩

theorem Shrinks.trans {s t w : ScanState}
    (h : Shrinks s t) (k : Shrinks t w) : Shrinks s w := by
  refine ⟨k.ctrl.trans h.ctrl, k.reads.trans h.reads, k.next.trans h.next,
    k.namespaces.trans h.namespaces, ?_⟩
  intro u hu
  obtain ⟨v, hv, huv⟩ := k.units u hu
  obtain ⟨w, hw, hvw⟩ := h.units v hv
  refine ⟨w, hw, ?_⟩
  rw [huv, hvw]

/-- Removals keep the invariant. -/
theorem ScanInv.shrink {maxZeroes : Nat} {s t : ScanState}
    (hinv : ScanInv maxZeroes s) (h : Shrinks s t) :
    ScanInv maxZeroes t := by
  have hmem : ∀ ns, ns ∈ t.namespaces → ns ∈ s.namespaces :=
    fun _ hns => h.namespaces.mem hns
  refine ⟨?_, ⟨?_, ?_, ?_, ?_⟩, ?_⟩
  · rw [h.ctrl]
    exact hinv.limit
  · exact (h.namespaces.map NvmeNs.nsId).nodup hinv.linked.distinct
  · intro u hu
    obtain ⟨v, hv, huv⟩ := h.units u hu
    rw [h.next, huv]
    exact hinv.linked.unitBound v hv
  · intro ns hns n hn
    rw [h.next]
    exact hinv.linked.nsBound ns (hmem ns hns) n hn
  · intro ns hns u hu hnu
    obtain ⟨v, hv, huv⟩ := h.units u hu
    rw [huv] at hnu ⊢
    exact hinv.linked.geometry ns (hmem ns hns) v hv hnu
  · intro ns hns rd hrd
    rw [h.reads] at hrd
    exact hinv.current ns (hmem ns hns) rd hrd

theorem nvmeNsRemove_shrinks (s : ScanState) (ns : NvmeNs) :
    Shrinks s (nvmeNsRemove s ns) := by
  refine ⟨rfl, rfl, rfl, ?_, ?_⟩
  · exact List.eraseP_sublist
  · intro u hu
    cases hunit : ns.unit with
    | none =>
        simp only [nvmeNsRemove, hunit] at hu
        exact ⟨u, hu, rfl⟩
    | some n =>
        simp only [nvmeNsRemove, hunit, updateUnit, List.mem_map] at hu
        obtain ⟨v, hv, rfl⟩ := hu
        refine ⟨v, hv, ?_⟩
        split <;> rfl

theorem nvmeNsRemoveByNsid_shrinks (s : ScanState) (nsid : Nat) :
    Shrinks s (nvmeNsRemoveByNsid s nsid) := by
  unfold nvmeNsRemoveByNsid
  cases nvmeFindNs s nsid with
  | none => exact Shrinks.refl s
  | some ns => exact nvmeNsRemove_shrinks s ns

theorem foldl_nvmeNsRemove_shrinks (l : List NvmeNs) :
    ∀ s, Shrinks s (l.foldl nvmeNsRemove s) := by
  induction l with
  | nil => exact Shrinks.refl
  | cons ns l ih =>
      intro s
      exact (nvmeNsRemove_shrinks s ns).trans (ih _)

theorem nvmeRemoveInvalidNamespaces_shrinks (s : ScanState) (nsid : Nat) :
    Shrinks s (nvmeRemoveInvalidNamespaces s nsid) :=
  foldl_nvmeNsRemove_shrinks _ s

theorem removeGap_shrinks :
    ∀ (n prev : Nat) (s : ScanState), Shrinks s (removeGap n prev s).1 := by
  intro n
  induction n with
  | zero =>
      intro prev s
      exact Shrinks.refl s
  | succ n ih =>
      intro prev s
      exact (nvmeNsRemoveByNsid_shrinks s prev).trans (ih _ _)

/-! ### One namespace -/

/-- Progress of a scan: its log grows, and as long as all it read was steady the
invariant survives. -/
structure Advances (maxZeroes : Nat) (s t : ScanState) : Prop where
  log : s.reads <:+ t.reads
  keeps : (∀ rd, rd ∈ t.reads → SteadyRead rd) →
    ScanInv maxZeroes s → ScanInv maxZeroes t

theorem Advances.refl (maxZeroes : Nat) (s : ScanState) : Advances maxZeroes s s :=
  ⟨List.suffix_refl _, fun _ h => h⟩

theorem Advances.trans {maxZeroes : Nat} {s t w : ScanState}
    (h : Advances maxZeroes s t) (k : Advances maxZeroes t w) :
    Advances maxZeroes s w := by
  refine ⟨h.log.trans k.log, ?_⟩
  intro hsteady hinv
  have hsteady' : ∀ rd, rd ∈ t.reads → SteadyRead rd :=
    fun rd hrd => hsteady rd (k.log.mem hrd)
  exact k.keeps hsteady (h.keeps hsteady' hinv)

theorem Shrinks.advances {s t : ScanState} (maxZeroes : Nat) (h : Shrinks s t) :
    Advances maxZeroes s t :=
  ⟨by rw [h.reads], fun _ hinv => hinv.shrink h⟩

/-- The command counter is no part of the invariant. -/
theorem advances_seq (maxZeroes : Nat) (s : ScanState) (n : Nat) :
    Advances maxZeroes s { s with seq := n } :=
  ⟨List.suffix_refl _, fun _ h => ⟨h.limit, ⟨h.linked.distinct, h.linked.unitBound,
    h.linked.nsBound, h.linked.geometry⟩, h.current⟩⟩

/-- What a new record holds is what its Identify data describes. -/
theorem recordMatches_fresh (info : NsInfo) :
    RecordMatches (nvmeUpdateNsInfo (freshNs info) none info).1 info :=
  ⟨rfl, rfl⟩

/-- An update with the format a record already holds changes neither its shift
nor its capacity. -/
theorem nvmeUpdateNsInfo_steady {ns : NvmeNs} {info : NsInfo}
    (h : RecordMatches ns info) :
    (nvmeUpdateNsInfo ns none info).1.lbaShift = ns.lbaShift ∧
      (nvmeUpdateNsInfo ns none info).1.diskCapacitySectors =
        ns.diskCapacitySectors := by
  obtain ⟨hshift, hcap⟩ := h
  by_cases hcsi : info.ids.csi = csiNvm
  · simp only [nvmeUpdateNsInfo, hcsi, ne_eq, not_true, if_false] at hshift hcap ⊢
    by_cases hplain : info.ms = 0 ∧ info.piType = 0 ∧
        9 ≤ info.lbaShift ∧ info.lbaShift ≤ 12
    · simp only [if_pos hplain] at hshift hcap ⊢
      exact ⟨hshift.symm, hcap.symm⟩
    · simp only [if_neg hplain] at hshift hcap ⊢
      exact ⟨hshift.symm, trivial⟩
  · simp [nvmeUpdateNsInfo, hcsi]

/-- An update keeps what a record is registered under. -/
theorem nvmeUpdateNsInfo_key (ns : NvmeNs) (unit : Option NVMeUnit) (info : NsInfo) :
    (nvmeUpdateNsInfo ns unit info).1.nsId = ns.nsId ∧
      (nvmeUpdateNsInfo ns unit info).1.ids = ns.ids ∧
      (nvmeUpdateNsInfo ns unit info).1.unit = ns.unit := by
  unfold nvmeUpdateNsInfo
  split
  · exact ⟨rfl, rfl, rfl⟩
  · dsimp only
    split <;> exact ⟨rfl, rfl, rfl⟩

/-- An update writes nothing but the DEAC feature of a unit. -/
theorem nvmeUpdateNsInfo_unit (ns : NvmeNs) (u : NVMeUnit) (info : NsInfo) :
    ∃ d, ((nvmeUpdateNsInfo ns (some u) info).2).getD u = { u with deac := d } := by
  unfold nvmeUpdateNsInfo
  split
  · exact ⟨u.deac, rfl⟩
  · exact ⟨info.deac, rfl⟩

theorem nvmeNsIdsEqual_iff (a b : NsIds) : nvmeNsIdsEqual a b = true ↔ a = b := by
  cases a
  cases b
  simp [nvmeNsIdsEqual]
  tauto

theorem nvmeFindNs_some {s : ScanState} {nsid : Nat} {ns : NvmeNs}
    (h : nvmeFindNs s nsid = some ns) : ns ∈ s.namespaces ∧ ns.nsId = nsid := by
  refine ⟨List.mem_of_find?_eq_some h, ?_⟩
  have := List.find?_some h
  simpa using this

theorem nvmeFindNs_none {s : ScanState} {nsid : Nat}
    (h : nvmeFindNs s nsid = none) : ∀ ns, ns ∈ s.namespaces → ns.nsId ≠ nsid := by
  intro ns hns
  have := List.find?_eq_none.mp h ns hns
  simpa using this

/-- Records are told apart by their NSID. -/
theorem Linked.eq_of_nsId {maxZeroes : Nat} {s : ScanState}
    (h : Linked maxZeroes s) {a b : NvmeNs}
    (ha : a ∈ s.namespaces) (hb : b ∈ s.namespaces) (hid : a.nsId = b.nsId) :
    a = b :=
  List.inj_on_of_nodup_map h.distinct ha hb hid

/-- A log entry for an NSID nobody is registered under changes nothing. -/
theorem find?_cons_other {rd : ScanRead} {reads : List ScanRead} {nsid : Nat}
    (h : nsid ≠ rd.nsid) :
    (rd :: reads).find? (fun q => q.nsid == nsid) =
      reads.find? (fun q => q.nsid == nsid) := by
  have hne : (rd.nsid == nsid) = false := by simpa using fun he => h he.symm
  simp [hne]

theorem find?_cons_same (rd : ScanRead) (reads : List ScanRead) :
    (rd :: reads).find? (fun q => q.nsid == rd.nsid) = some rd := by
  simp

/-- A read that only enters the log: nothing is registered or refreshed. -/
theorem advances_log (maxZeroes : Nat) (s : ScanState) (rd : ScanRead)
    (hbefore : rd.before = nvmeFindNs s rd.nsid) :
    Advances maxZeroes s { s with reads := rd :: s.reads } := by
  refine ⟨List.suffix_cons _ _, ?_⟩
  intro hsteady hinv
  refine ⟨hinv.limit, ⟨hinv.linked.distinct, hinv.linked.unitBound,
    hinv.linked.nsBound, hinv.linked.geometry⟩, ?_⟩
  intro ns hns q hq hids
  by_cases hid : ns.nsId = rd.nsid
  · rw [hid] at hq
    dsimp only at hq
    rw [find?_cons_same] at hq
    cases hq
    cases hfind : nvmeFindNs s rd.nsid with
    | none => exact absurd hid (nvmeFindNs_none hfind ns hns)
    | some m =>
        obtain ⟨hm, hmid⟩ := nvmeFindNs_some hfind
        have hmn : m = ns := hinv.linked.eq_of_nsId hm hns (hmid.trans hid.symm)
        refine hsteady rd (List.mem_cons_self ..) ns ?_ hids
        rw [hbefore, hfind, hmn]
  · dsimp only at hq
    rw [find?_cons_other hid] at hq
    exact hinv.current ns hns q hq hids

/-- Units are only ever refreshed in their DEAC feature. -/
theorem mem_updateUnit_deac {units : List NVMeUnit} {n : Nat}
    {f : NVMeUnit → NVMeUnit} (hf : ∀ u, ∃ d, f u = { u with deac := d })
    {u : NVMeUnit} (hu : u ∈ updateUnit units n f) :
    ∃ v, v ∈ units ∧ ∃ d, u = { v with deac := d } := by
  simp only [updateUnit, List.mem_map] at hu
  obtain ⟨v, hv, rfl⟩ := hu
  refine ⟨v, hv, ?_⟩
  split
  · exact hf v
  · exact ⟨v.deac, rfl⟩

theorem mem_commitNs_units {s : ScanState} {ns : NvmeNs} {info : NsInfo} {u : NVMeUnit}
    (hu : u ∈ (commitNs s ns info).units) :
    ∃ v, v ∈ s.units ∧ ∃ d, u = { v with deac := d } := by
  unfold commitNs at hu
  cases hunit : ns.unit with
  | none =>
      simp only [hunit] at hu
      exact ⟨u, hu, u.deac, rfl⟩
  | some n =>
      simp only [hunit] at hu
      exact mem_updateUnit_deac (fun v => nvmeUpdateNsInfo_unit ns v info) hu

/-- Every record after a refresh is a record before it, with the same key, and
the same geometry when the data is steady. -/
theorem mem_commitNs_namespaces {maxZeroes : Nat} {s : ScanState} {ns m : NvmeNs}
    {info : NsInfo} (hlinked : Linked maxZeroes s) (hns : ns ∈ s.namespaces)
    (hmatch : RecordMatches ns info) (hm : m ∈ (commitNs s ns info).namespaces) :
    ∃ k, k ∈ s.namespaces ∧ m.nsId = k.nsId ∧ m.ids = k.ids ∧ m.unit = k.unit ∧
      m.lbaShift = k.lbaShift ∧ m.diskCapacitySectors = k.diskCapacitySectors := by
  simp only [commitNs, List.mem_map] at hm
  obtain ⟨k, hk, rfl⟩ := hm
  refine ⟨k, hk, ?_⟩
  split
  · rename_i hid
    have hkns : k = ns := hlinked.eq_of_nsId hk hns hid
    subst hkns
    obtain ⟨h₁, h₂, h₃⟩ := nvmeUpdateNsInfo_key k none info
    obtain ⟨h₄, h₅⟩ := nvmeUpdateNsInfo_steady hmatch
    exact ⟨h₁, h₂, h₃, h₄, h₅⟩
  · exact ⟨rfl, rfl, rfl, rfl, rfl⟩

theorem commitNs_nsIds (s : ScanState) (ns : NvmeNs) (info : NsInfo) :
    (commitNs s ns info).namespaces.map NvmeNs.nsId =
      s.namespaces.map NvmeNs.nsId := by
  simp only [commitNs, List.map_map]
  refine List.map_congr_left ?_
  intro m hm
  dsimp only [Function.comp]
  split
  · exact (nvmeUpdateNsInfo_key m none info).1
  · rfl

/-- A refresh with steady data. -/
theorem commitNs_inv {maxZeroes : Nat} {s : ScanState} {ns : NvmeNs} {info : NsInfo}
    (hinv : ScanInv maxZeroes s) (hns : ns ∈ s.namespaces)
    (hmatch : RecordMatches ns info) : ScanInv maxZeroes (commitNs s ns info) := by
  have hmem : ∀ m, m ∈ (commitNs s ns info).namespaces → _ :=
    fun m hm => mem_commitNs_namespaces hinv.linked hns hmatch hm
  refine ⟨hinv.limit, ⟨?_, ?_, ?_, ?_⟩, ?_⟩
  · rw [commitNs_nsIds]
    exact hinv.linked.distinct
  · intro u hu
    obtain ⟨v, hv, d, rfl⟩ := mem_commitNs_units hu
    exact hinv.linked.unitBound v hv
  · intro m hm n hn
    obtain ⟨k, hk, -, -, hunit, -⟩ := hmem m hm
    exact hinv.linked.nsBound k hk n (hunit ▸ hn)
  · intro m hm u hu hmu
    obtain ⟨k, hk, -, -, hunit, hshift, hcap⟩ := hmem m hm
    obtain ⟨v, hv, d, rfl⟩ := mem_commitNs_units hu
    unfold UnitOfRecord
    rw [hshift, hcap]
    exact hinv.linked.geometry k hk v hv (hunit ▸ hmu)
  · intro m hm rd hrd hids
    obtain ⟨k, hk, hid, hids', -, hshift, hcap⟩ := hmem m hm
    rw [hid] at hrd
    obtain ⟨h₁, h₂⟩ := hinv.current k hk rd hrd (hids.trans hids')
    exact ⟨hshift.trans h₁, hcap.trans h₂⟩

/-- A unit made with its record has the geometry of the record. -/
theorem unitOfRecord_fresh (maxZeroes n : Nat) (info : NsInfo) :
    UnitOfRecord maxZeroes (nvmeUpdateNsInfo (freshNs info) none info).1
      (unitOfInfo maxZeroes n info) :=
  ⟨rfl, rfl, rfl, rfl⟩

/-- Registering a namespace for a free NSID, with or without a unit. -/
theorem append_inv {maxZeroes : Nat} {s : ScanState} {info : NsInfo} {m : NvmeNs}
    {units : List NVMeUnit} {next : Nat} {ctrl : ScanCtrl}
    (hinv : ScanInv maxZeroes s)
    (hfree : ∀ ns, ns ∈ s.namespaces → ns.nsId ≠ info.nsid)
    (hctrl : ctrl.maxZeroesSectors = s.ctrl.maxZeroesSectors)
    (hid : m.nsId = info.nsid) (hmatch : RecordMatches m info)
    (hnew : (m.unit = none ∧ units = s.units ∧ next = s.nextUnitNumber) ∨
      (m.unit = some s.nextUnitNumber ∧ next = s.nextUnitNumber + 1 ∧
        ∃ v : NVMeUnit, v.unitNumber = s.nextUnitNumber ∧
          UnitOfRecord maxZeroes m v ∧ units = s.units ++ [v])) :
    ScanInv maxZeroes
      { s with
        ctrl := ctrl, units := units, nextUnitNumber := next
        namespaces := s.namespaces ++ [m]
        reads := ⟨info.nsid, info, none⟩ :: s.reads } := by
  have hnext : s.nextUnitNumber ≤ next := by
    rcases hnew with ⟨-, -, h⟩ | ⟨-, h, -⟩ <;> omega
  have hm : ∀ n, m.unit = some n → n = s.nextUnitNumber ∧ n < next := by
    intro n hn
    rcases hnew with ⟨h, -, -⟩ | ⟨h, hn', -⟩
    · rw [h] at hn
      cases hn
    · rw [h] at hn
      cases hn
      exact ⟨rfl, by omega⟩
  have hunits : ∀ u, u ∈ units → u ∈ s.units ∨
      (u.unitNumber = s.nextUnitNumber ∧ u.unitNumber < next ∧
        UnitOfRecord maxZeroes m u) := by
    intro u hu
    rcases hnew with ⟨-, rfl, -⟩ | ⟨-, h₂, v, hv, hrec, rfl⟩
    · exact Or.inl hu
    · rcases List.mem_append.mp hu with hu | hu
      · exact Or.inl hu
      · rw [List.mem_singleton.mp hu]
        exact Or.inr ⟨hv, by omega, hrec⟩
  refine ⟨hctrl.trans hinv.limit, ⟨?_, ?_, ?_, ?_⟩, ?_⟩
  · rw [List.map_append, List.nodup_append]
    refine ⟨hinv.linked.distinct, by simp, ?_⟩
    intro a ha b hb
    obtain ⟨ns, hns, rfl⟩ := List.mem_map.mp ha
    have hb' : b = m.nsId := by simpa using hb
    rw [hb', hid]
    exact hfree ns hns
  · intro u hu
    rcases hunits u hu with hu | ⟨-, hlt, -⟩
    · exact Nat.lt_of_lt_of_le (hinv.linked.unitBound u hu) hnext
    · exact hlt
  · intro ns hns n hn
    rcases List.mem_append.mp hns with hns | hns
    · exact Nat.lt_of_lt_of_le (hinv.linked.nsBound ns hns n hn) hnext
    · rw [List.mem_singleton.mp hns] at hn
      exact (hm n hn).2
  · intro ns hns u hu hnu
    -- an old number is below the counter, so only old meets old and new meets new
    rcases List.mem_append.mp hns with hns | hns
    · rcases hunits u hu with hu | ⟨hnum, -, -⟩
      · exact hinv.linked.geometry ns hns u hu hnu
      · have := hinv.linked.nsBound ns hns _ hnu
        omega
    · rw [List.mem_singleton.mp hns] at hnu ⊢
      rcases hunits u hu with hu | ⟨-, -, hrec⟩
      · have := hinv.linked.unitBound u hu
        have := (hm _ hnu).1
        omega
      · exact hrec
  · intro ns hns rd hrd hrids
    dsimp only at hrd
    rcases List.mem_append.mp hns with hns | hns
    · rw [find?_cons_other (hfree ns hns)] at hrd
      exact hinv.current ns hns rd hrd hrids
    · rw [List.mem_singleton.mp hns] at hrd ⊢
      rw [hid, find?_cons_same ⟨info.nsid, info, none⟩] at hrd
      cases hrd
      exact hmatch

/-- The log entry of a namespace that could not be registered. -/
theorem unregistered_inv {maxZeroes : Nat} {s : ScanState} {rd : ScanRead}
    {ctrl : ScanCtrl} (hinv : ScanInv maxZeroes s)
    (hfree : ∀ ns, ns ∈ s.namespaces → ns.nsId ≠ rd.nsid)
    (hctrl : ctrl.maxZeroesSectors = s.ctrl.maxZeroesSectors) :
    ScanInv maxZeroes { s with ctrl := ctrl, reads := rd :: s.reads } := by
  refine ⟨hctrl.trans hinv.limit, ⟨hinv.linked.distinct, hinv.linked.unitBound,
    hinv.linked.nsBound, hinv.linked.geometry⟩, ?_⟩
  intro ns hns q hq hids
  dsimp only at hq
  rw [find?_cons_other (hfree ns hns)] at hq
  exact hinv.current ns hns q hq hids

/-- `nvme_alloc_ns` for a free NSID. -/
theorem nvmeAllocNs_advances (maxZeroes : Nat) (s : ScanState) (r : Responses)
    (info : NsInfo) (hfree : ∀ ns, ns ∈ s.namespaces → ns.nsId ≠ info.nsid) :
    Advances maxZeroes s
      { (nvmeAllocNs s r info).1 with
        reads := ⟨info.nsid, (nvmeAllocNs s r info).2, none⟩ :: s.reads } := by
  refine ⟨List.suffix_cons _ _, ?_⟩
  intro _ hinv
  generalize hdup : (!s.ctrl.quirkBogusNid && nvmeNsIdsDuplicate s info.ids) = dup
  -- the duplicate check strips identifiers and sets a quirk, nothing else
  obtain ⟨ctrl, info₁, hctrl, hinfo, hresult⟩ :
      ∃ (ctrl : ScanCtrl) (info₁ : NsInfo),
        ctrl.maxZeroesSectors = s.ctrl.maxZeroesSectors ∧ info₁.nsid = info.nsid ∧
        nvmeAllocNs s r info =
          (if r.allocNs s.seq then
            if r.allocUnit s.seq then
              { s with
                ctrl := ctrl
                namespaces := s.namespaces ++
                  [{ (nvmeUpdateNsInfo (freshNs info₁) none info₁).1 with
                    unit := some s.nextUnitNumber }]
                units := s.units ++
                  [unitOfInfo ctrl.maxZeroesSectors s.nextUnitNumber info₁]
                nextUnitNumber := s.nextUnitNumber + 1 }
            else
              { s with
                ctrl := ctrl
                namespaces := s.namespaces ++
                  [(nvmeUpdateNsInfo (freshNs info₁) none info₁).1] }
          else { s with ctrl := ctrl }, info₁) := by
    cases dup with
    | true =>
        refine ⟨{ s.ctrl with quirkBogusNid := true },
          { info with ids := { NsIds.zero with csi := info.ids.csi } }, rfl, rfl, ?_⟩
        simp only [nvmeAllocNs, hdup, if_true]
        split <;> [split <;> rfl; rfl]
    | false =>
        refine ⟨s.ctrl, info, rfl, rfl, ?_⟩
        simp only [nvmeAllocNs, hdup, Bool.false_eq_true, if_false]
        split <;> [split <;> rfl; rfl]
  obtain ⟨hkey, -, hunit⟩ := nvmeUpdateNsInfo_key (freshNs info₁) none info₁
  have hfree₁ : ∀ ns, ns ∈ s.namespaces → ns.nsId ≠ info₁.nsid := by
    intro ns hns
    rw [hinfo]
    exact hfree ns hns
  rw [hresult]
  dsimp only
  rw [← hinfo]
  split
  · split
    · refine append_inv hinv hfree₁ hctrl hkey (recordMatches_fresh info₁)
        (Or.inr ⟨rfl, rfl, _, rfl, ?_, rfl⟩)
      rw [hctrl, hinv.limit]
      exact unitOfRecord_fresh maxZeroes _ info₁
    · exact append_inv hinv hfree₁ hctrl hkey (recordMatches_fresh info₁)
        (Or.inl ⟨hunit, rfl, rfl⟩)
  · exact unregistered_inv (s := s) hinv hfree₁ hctrl

/-- `nvme_validate_ns` for the record found. -/
theorem nvmeValidateNs_advances (maxZeroes : Nat) (s : ScanState) (ns : NvmeNs)
    (info : NsInfo) {nsid : Nat} (hfind : nvmeFindNs s nsid = some ns) :
    Advances maxZeroes s
      { nvmeValidateNs s ns info with
        reads := ⟨nsid, info, some ns⟩ :: s.reads } := by
  have hlog : Advances maxZeroes s
      { s with reads := ⟨nsid, info, some ns⟩ :: s.reads } :=
    advances_log maxZeroes s ⟨nsid, info, some ns⟩ hfind.symm
  refine hlog.trans ?_
  unfold nvmeValidateNs
  split
  · rename_i hids
    refine ⟨List.suffix_refl _, ?_⟩
    intro hsteady hinv
    have hrd : SteadyRead ⟨nsid, info, some ns⟩ :=
      hsteady _ (List.mem_cons_self ..)
    exact commitNs_inv hinv (nvmeFindNs_some hfind).1
      (hrd ns rfl ((nvmeNsIdsEqual_iff _ _).mp hids).symm)
  · exact (nvmeNsRemove_shrinks { s with reads := _ } ns).advances maxZeroes

/-- One NSID of a scan. -/
theorem nvmeScanNs_advances (maxZeroes : Nat) (s : ScanState) (r : Responses)
    (nsid : Nat) : Advances maxZeroes s (nvmeScanNs s r nsid) := by
  have hnsid : (nvmeIdentifyNsInfo s.ctrl r s.seq (NsInfo.init nsid)).info.nsid = nsid :=
    nvmeIdentifyNsInfo_nsid s.ctrl r s.seq (NsInfo.init nsid)
  generalize hg : nvmeIdentifyNsInfo s.ctrl r s.seq (NsInfo.init nsid) = g at hnsid
  have hgone : ∀ t : ScanState, Advances maxZeroes t
      (if g.info.isRemoved then nvmeNsRemoveByNsid t nsid else t) := by
    intro t
    split
    · exact (nvmeNsRemoveByNsid_shrinks t nsid).advances maxZeroes
    · exact Advances.refl maxZeroes t
  have hbase := (advances_seq maxZeroes s g.seq).trans (hgone _)
  unfold nvmeScanNs
  dsimp only
  rw [hg]
  generalize (if g.info.isRemoved then nvmeNsRemoveByNsid { s with seq := g.seq } nsid
    else { s with seq := g.seq }) = s₂ at hbase ⊢
  split
  · exact hbase
  · refine hbase.trans ?_
    split
    · cases hfind : nvmeFindNs s₂ nsid with
      | some ns => exact nvmeValidateNs_advances maxZeroes s₂ ns g.info hfind
      | none =>
          have hfree := nvmeFindNs_none hfind
          rw [← hnsid] at hfree ⊢
          exact nvmeAllocNs_advances maxZeroes s₂ r g.info hfree
    · exact advances_log maxZeroes s₂ ⟨nsid, g.info, nvmeFindNs s₂ nsid⟩ rfl

/-! ### A whole scan -/

theorem scanListPage_advances (maxZeroes : Nat) (r : Responses) (l : List Nat) :
    ∀ (prev : Nat) (s : ScanState),
      Advances maxZeroes s (scanListPage r l prev s).1 := by
  induction l with
  | nil =>
      intro prev s
      exact Advances.refl maxZeroes s
  | cons nsid rest ih =>
      intro prev s
      unfold scanListPage
      split
      · exact Advances.refl maxZeroes s
      · have hgap := (removeGap_shrinks (nsid - (prev + 1) % 2 ^ 32)
          ((prev + 1) % 2 ^ 32) (nvmeScanNs s r nsid)).advances maxZeroes
        exact (nvmeScanNs_advances maxZeroes s r nsid).trans (hgap.trans (ih _ _))

theorem nvmeScanNsList_advances (maxZeroes : Nat) (r : Responses) (fuel : Nat) :
    ∀ (prev : Nat) (s t : ScanState) (ret : Int),
      nvmeScanNsList r fuel prev s = some (t, ret) → Advances maxZeroes s t := by
  induction fuel with
  | zero =>
      intro prev s t ret h
      cases h
  | succ fuel ih =>
      intro prev s t ret h
      have hseq := advances_seq maxZeroes s (s.seq + 1)
      unfold nvmeScanNsList at h
      cases hlist : r.activeList s.seq prev with
      | error e =>
          rw [hlist] at h
          cases h
          exact hseq
      | ok nsids =>
          rw [hlist] at h
          dsimp only at h
          have hpage := scanListPage_advances maxZeroes r
            ((nsids ++ List.replicate nsListEntries 0).take nsListEntries) prev
            { s with seq := s.seq + 1 }
          rcases hp : scanListPage r
              ((nsids ++ List.replicate nsListEntries 0).take nsListEntries) prev
              { s with seq := s.seq + 1 } with ⟨s₁, prev₁, last⟩
          rw [hp] at h hpage
          cases last with
          | true =>
              cases h
              exact hseq.trans (hpage.trans
                ((nvmeRemoveInvalidNamespaces_shrinks s₁ prev₁).advances maxZeroes))
          | false => exact hseq.trans (hpage.trans (ih prev₁ s₁ t ret h))

theorem scanSequentialLoop_advances (maxZeroes : Nat) (r : Responses) (n : Nat) :
    ∀ (i : Nat) (s : ScanState),
      Advances maxZeroes s (scanSequentialLoop r n i s) := by
  induction n with
  | zero =>
      intro i s
      exact Advances.refl maxZeroes s
  | succ n ih =>
      intro i s
      exact (nvmeScanNs_advances maxZeroes s r i).trans (ih _ _)

theorem nvmeScanNsSequential_advances {maxZeroes : Nat} {r : Responses}
    {s t : ScanState} (h : nvmeScanNsSequential r s = some t) :
    Advances maxZeroes s t := by
  have hseq := advances_seq maxZeroes s (s.seq + 1)
  unfold nvmeScanNsSequential at h
  cases hnn : r.ctrlNn s.seq with
  | error e =>
      rw [hnn] at h
      cases h
      exact hseq
  | ok nn =>
      rw [hnn] at h
      dsimp only at h
      split at h
      · cases h
      · cases h
        exact hseq.trans ((scanSequentialLoop_advances maxZeroes r nn 1 _).trans
          ((nvmeRemoveInvalidNamespaces_shrinks _ nn).advances maxZeroes))

/-- The limits read of a scan either fails, which ends the scan, or yields this
write-zeroes limit. -/
def LimitIs (maxZeroes : Nat) (r : Responses) (s : ScanState) : Prop :=
  s.ctrl.live = true → 0 ≤ (nvmeInitNonMdtsLimits s.ctrl r s.seq).1 →
    (nvmeInitNonMdtsLimits s.ctrl r s.seq).2.1.maxZeroesSectors = maxZeroes

/-- A completed scan read nothing, or it advanced from a state with the records
and units it found and an empty log. -/
theorem nvmeScanNamespaces_advances {maxZeroes fuel : Nat} {r : Responses}
    {s t : ScanState} (hlimit : LimitIs maxZeroes r s)
    (h : nvmeScanNamespaces fuel r s = some t) :
    ∃ s₀ : ScanState, s₀.namespaces = s.namespaces ∧ s₀.units = s.units ∧
      s₀.nextUnitNumber = s.nextUnitNumber ∧ s₀.reads = [] ∧
      (t = s₀ ∨ (s₀.ctrl.maxZeroesSectors = maxZeroes ∧ Advances maxZeroes s₀ t)) := by
  unfold nvmeScanNamespaces at h
  split at h
  · rename_i hlive
    dsimp only at h
    split at h
    · refine ⟨t, ?_, ?_, ?_, ?_, Or.inl rfl⟩ <;> (cases h; rfl)
    · rename_i hret
      have hmax := hlimit hlive (by omega)
      -- the state the namespace loops start from
      obtain ⟨s₂, hs₂, hns, hunits, hnext, hreads, hctrl⟩ :
          ∃ s₂ : ScanState, s₂ =
            (if (nvmeInitNonMdtsLimits s.ctrl r s.seq).2.1.nsChanged then
              { s with
                ctrl := { (nvmeInitNonMdtsLimits s.ctrl r s.seq).2.1 with
                  nsChanged := false }
                seq := (nvmeInitNonMdtsLimits s.ctrl r s.seq).2.2 + 1
                reads := [] }
            else
              { s with
                ctrl := (nvmeInitNonMdtsLimits s.ctrl r s.seq).2.1
                seq := (nvmeInitNonMdtsLimits s.ctrl r s.seq).2.2
                reads := [] }) ∧
          s₂.namespaces = s.namespaces ∧ s₂.units = s.units ∧
          s₂.nextUnitNumber = s.nextUnitNumber ∧ s₂.reads = [] ∧
          s₂.ctrl.maxZeroesSectors = maxZeroes := by
        refine ⟨_, rfl, ?_⟩
        split <;> exact ⟨rfl, rfl, rfl, rfl, hmax⟩
      refine ⟨s₂, hns, hunits, hnext, hreads, Or.inr ⟨hctrl, ?_⟩⟩
      rw [← hs₂] at h
      split at h
      · cases hlist : nvmeScanNsList r fuel 0 s₂ with
        | none =>
            rw [hlist] at h
            cases h
        | some p =>
            obtain ⟨s₃, ret⟩ := p
            rw [hlist] at h
            dsimp only at h
            have hadv := nvmeScanNsList_advances maxZeroes r fuel 0 s₂ s₃ ret hlist
            split at h
            · exact hadv.trans (nvmeScanNsSequential_advances h)
            · cases h
              exact hadv
      · exact nvmeScanNsSequential_advances h
  · refine ⟨t, ?_, ?_, ?_, ?_, Or.inl rfl⟩ <;> (cases h; rfl)

/-- Linked records and units, whatever the log and the controller. -/
theorem Linked.congr {maxZeroes : Nat} {s t : ScanState} (h : Linked maxZeroes s)
    (hns : t.namespaces = s.namespaces) (hunits : t.units = s.units)
    (hnext : s.nextUnitNumber ≤ t.nextUnitNumber) : Linked maxZeroes t := by
  refine ⟨?_, ?_, ?_, ?_⟩
  · rw [hns]
    exact h.distinct
  · intro u hu
    rw [hunits] at hu
    exact Nat.lt_of_lt_of_le (h.unitBound u hu) hnext
  · intro ns hmem n hn
    rw [hns] at hmem
    exact Nat.lt_of_lt_of_le (h.nsBound ns hmem n hn) hnext
  · intro ns hmem u hu
    rw [hns] at hmem
    rw [hunits] at hu
    exact h.geometry ns hmem u hu

/-- Units that agree with records that agree with what was read. -/
theorem ScanInv.tracks {maxZeroes : Nat} {s : ScanState} (h : ScanInv maxZeroes s) :
    GeometryTracks s := by
  intro ns hns u hu hunit _ rd hrd hids
  obtain ⟨hshift, hcap⟩ := h.current ns hns rd hrd hids
  obtain ⟨h₁, h₂, h₃, h₄⟩ := h.linked.geometry ns hns u hu hunit
  rw [hshift] at h₁ h₂ h₄
  rw [hcap] at h₃
  rw [h.limit]
  exact ⟨h₂, h₁, h₃, h₄⟩

theorem geometryTracks_of_no_reads {s : ScanState} (h : s.reads = []) :
    GeometryTracks s := by
  intro ns _ u _ _ _ rd hrd
  rw [h] at hrd
  cases hrd

/-- One completed scan. -/
theorem nvmeScanNamespaces_steady {maxZeroes fuel : Nat} {r : Responses}
    {s t : ScanState} (hlinked : Linked maxZeroes s) (hlimit : LimitIs maxZeroes r s)
    (h : nvmeScanNamespaces fuel r s = some t)
    (hsteady : ∀ rd, rd ∈ t.reads → SteadyRead rd) :
    Linked maxZeroes t ∧ GeometryTracks t := by
  obtain ⟨s₀, hns, hunits, hnext, hreads, hcase⟩ := nvmeScanNamespaces_advances hlimit h
  have hlinked₀ : Linked maxZeroes s₀ := hlinked.congr hns hunits hnext.ge
  rcases hcase with rfl | ⟨hmax, hadv⟩
  · exact ⟨hlinked₀, geometryTracks_of_no_reads hreads⟩
  · have hcur : Current s₀ := by
      intro ns _ rd hrd
      rw [hreads] at hrd
      cases hrd
    have hinv := hadv.keeps hsteady ⟨hmax, hlinked₀, hcur⟩
    exact ⟨hinv.linked, hinv.tracks⟩

/-! ### Runs of scans -/

/-- One turn of a run: what happened to the controller since the last scan (a
reset rereads it, a notice marks it changed), the unit numbers other controllers
took meanwhile, and the answers this scan gets. -/
structure ScanTurn where
  ctrl : ScanCtrl
  others : Nat
  fuel : Nat
  responses : Responses

/-- The state a turn's scan starts from. -/
def ScanTurn.begin (i : ScanTurn) (s : ScanState) : ScanState :=
  { s with ctrl := i.ctrl, nextUnitNumber := s.nextUnitNumber + i.others }

/-- The state after a sequence of scans that all completed. -/
def runScans : List ScanTurn → ScanState → Option ScanState
  | [], s => some s
  | i :: rest, s =>
      match nvmeScanNamespaces i.fuel i.responses (i.begin s) with
      | none => none
      | some t => runScans rest t

/-- Every scan of the run finds this write-zeroes limit, and finds registered
namespaces in the format their records hold. -/
def SteadyRun (maxZeroes : Nat) : List ScanTurn → ScanState → Prop
  | [], _ => True
  | i :: rest, s =>
      LimitIs maxZeroes i.responses (i.begin s) ∧
        ∀ t, nvmeScanNamespaces i.fuel i.responses (i.begin s) = some t →
          (∀ rd, rd ∈ t.reads → SteadyRead rd) ∧ SteadyRun maxZeroes rest t

/-- The state before the first scan of a controller. -/
def unscanned (ctrl : ScanCtrl) (nextUnitNumber : Nat) : ScanState :=
  { ctrl := ctrl, namespaces := [], units := [], nextUnitNumber := nextUnitNumber
    seq := 0, reads := [] }

theorem runScans_steady {maxZeroes : Nat} (turns : List ScanTurn) :
    ∀ s t : ScanState, Linked maxZeroes s → GeometryTracks s →
      SteadyRun maxZeroes turns s → runScans turns s = some t → GeometryTracks t := by
  induction turns with
  | nil =>
      intro s t _ htracks _ h
      cases h
      exact htracks
  | cons i rest ih =>
      intro s t hlinked _ hrun h
      obtain ⟨hlimit, hscan⟩ := hrun
      unfold runScans at h
      cases hs : nvmeScanNamespaces i.fuel i.responses (i.begin s) with
      | none =>
          rw [hs] at h
          cases h
      | some s₁ =>
          rw [hs] at h
          obtain ⟨hsteady, hrest⟩ := hscan s₁ hs
          have hbegin : Linked maxZeroes (i.begin s) :=
            hlinked.congr rfl rfl (Nat.le_add_right _ _)
          obtain ⟨hlinked₁, htracks₁⟩ :=
            nvmeScanNamespaces_steady hbegin hlimit hs hsteady
          exact ih s₁ t hlinked₁ htracks₁ hrest h

/-- Over every sequence of scans that finds the write-zeroes limit and the format
of registered namespaces unchanged, the units have the geometry of the Identify
data after each of them. -/
theorem geometry_tracks_over_scans
    (maxZeroes : Nat) (ctrl : ScanCtrl) (nextUnitNumber : Nat)
    (turns : List ScanTurn) (s : ScanState)
    (hsteady : SteadyRun maxZeroes turns (unscanned ctrl nextUnitNumber))
    (hrun : runScans turns (unscanned ctrl nextUnitNumber) = some s) :
    GeometryTracks s := by
  have hlinked : Linked maxZeroes (unscanned ctrl nextUnitNumber) := by
    refine ⟨List.nodup_nil, ?_, ?_, ?_⟩
    · intro u hu
      cases hu
    · intro ns hns
      cases hns
    · intro ns hns
      cases hns
  exact runScans_steady turns _ s hlinked (geometryTracks_of_no_reads rfl) hsteady hrun

instance (rd : ScanRead) : Decidable (SteadyRead rd) :=
  match h : rd.before with
  | none => isTrue (fun ns hns => by rw [h] at hns; cases hns)
  | some m =>
      decidable_of_iff
        (rd.info.ids = m.ids →
          m.lbaShift = (nvmeUpdateNsInfo (freshNs rd.info) none rd.info).1.lbaShift ∧
            m.diskCapacitySectors =
              (nvmeUpdateNsInfo (freshNs rd.info) none rd.info).1.diskCapacitySectors)
        ⟨fun hm ns hns => by rw [h] at hns; cases hns; exact hm, fun hs => hs m h⟩

instance (maxZeroes : Nat) (r : Responses) (s : ScanState) :
    Decidable (LimitIs maxZeroes r s) :=
  inferInstanceAs (Decidable (_ → _ → _))

instance decidableSteadyRun (maxZeroes : Nat) :
    ∀ turns s, Decidable (SteadyRun maxZeroes turns s)
  | [], _ => isTrue trivial
  | i :: rest, s =>
      match h : nvmeScanNamespaces i.fuel i.responses (i.begin s) with
      | none =>
          decidable_of_iff (LimitIs maxZeroes i.responses (i.begin s))
            ⟨fun hl => ⟨hl, fun t ht => by rw [h] at ht; cases ht⟩, fun hr => hr.1⟩
      | some t =>
          haveI := decidableSteadyRun maxZeroes rest t
          decidable_of_iff
            (LimitIs maxZeroes i.responses (i.begin s) ∧
              (∀ rd, rd ∈ t.reads → SteadyRead rd) ∧ SteadyRun maxZeroes rest t)
            ⟨fun ⟨hl, hr, hs⟩ =>
                ⟨hl, fun t' ht => by rw [h] at ht; cases ht; exact ⟨hr, hs⟩⟩,
              fun hr => ⟨hr.1, hr.2 t h⟩⟩

/-- An NVMe 1.2 controller with Write Zeroes and a 1 MiB transfer limit. -/
def plainCtrl : ScanCtrl :=
  { live := true, vs := nvmeVs 1 2, multiCss := false, quirkBogusNid := false
    quirkNoNsDescList := false, quirkIdentifyCns := false
    quirkDisableWriteZeroes := false, attrElbas := false, capCrims := false
    mpsMin := 0, isIoCtrl := true, oncsWriteZeroes := true, skipIdCnsCs := false
    maxHwSectors := 2048, maxZeroesSectors := 0, dmrl := 0, dmrsl := 0
    nsChanged := false }

/-- A namespace 1 of one gibibyte, in 512-byte or in 4096-byte blocks. -/
def gibibyteNs (flbas : Nat) : IdNs :=
  { nsze := if flbas = 0 then 0x200000 else 0x40000
    ncap := if flbas = 0 then 0x200000 else 0x40000
    flbas := flbas, lbaf := [⟨9, 0⟩, ⟨12, 0⟩], dps := 0, dlfeat := 0
    eui64 := [0, 0x25, 0x38, 0, 0, 0, 0, 1], nguid := List.replicate 16 0 }

/-- A scan that finds it. -/
def gibibyteScan (flbas : Nat) : ScanTurn :=
  { ctrl := plainCtrl, others := 0, fuel := 1
    responses :=
      { descs := fun _ _ => .error 1
        ns := fun _ _ => .ok (gibibyteNs flbas)
        nsNvm := fun _ _ => .error 1
        nsCsIndep := fun _ _ => .error 1
        activeList := fun _ _ => .ok [1]
        ctrlNn := fun _ => .ok 1
        ctrlNvm := fun _ => .ok ⟨0, 0, 0⟩
        allocNs := fun _ => true
        allocUnit := fun _ => true } }

theorem geometry_tracks_over_scans_gibibyte :
    SteadyRun 2048 [gibibyteScan 0, gibibyteScan 0] (unscanned plainCtrl 0) ∧
      ∀ s, runScans [gibibyteScan 0, gibibyteScan 0] (unscanned plainCtrl 0) = some s →
        GeometryTracks s := by
  have h : SteadyRun 2048 [gibibyteScan 0, gibibyteScan 0] (unscanned plainCtrl 0) := by
    decide
  exact ⟨h, fun s hs => geometry_tracks_over_scans 2048 plainCtrl 0 _ s h hs⟩

/-- Format NVM from 512-byte to 4096-byte blocks: the rescan refreshes the record
and leaves the unit with 512-byte blocks. -/
theorem geometry_stale_after_format :
    ∃ s, runScans [gibibyteScan 0, gibibyteScan 1] (unscanned plainCtrl 0) = some s ∧
      ¬GeometryTracks s := by
  refine ⟨_, rfl, ?_⟩
  intro h
  have hunit := h _ (List.mem_singleton_self _) _ (List.mem_singleton_self _) rfl rfl _
    rfl rfl
  exact absurd hunit.1 (by decide)

end Namespace
end NvmeDriver
