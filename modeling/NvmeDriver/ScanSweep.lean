import NvmeDriver.Rescan

/-!
# How far a scan has come

A scan works through the NSIDs one by one.  `Swept` says what it has made of the
namespaces and units it began with, for the NSIDs that it is done with, and that it has
not touched the others.  Each operation of a scan adds NSIDs to those that are done with.
The bogus-NID quirk may be latched on the way; from then on a registered namespace that
has an identifier no longer matches what is gathered for it.
-/

namespace NvmeDriver
namespace Namespace

/-! ### Identifiers under the quirk -/

/-- What is left of identifiers that are taken for bogus. -/
def NsIds.bare (ids : NsIds) : NsIds := { NsIds.zero with csi := ids.csi }

def NsInfo.bare (info : NsInfo) : NsInfo := { info with ids := info.ids.bare }

def Gather.bare (g : Gather) : Gather := { g with info := g.info.bare }

/-- `NVME_QUIRK_BOGUS_NID` set or cleared. -/
@[reducible] def ScanCtrl.withQuirk (c : ScanCtrl) (b : Bool) : ScanCtrl :=
  { c with quirkBogusNid := b }

section Bare

variable (c : ScanCtrl) (r : Responses) (seq : Nat) (info : NsInfo)

theorem nvmeProcessNsDesc_bare (data : List Nat) (pos : Nat) (ids : NsIds) (seen : Bool) :
    nvmeProcessNsDesc true data pos ids.bare seen =
      ((nvmeProcessNsDesc false data pos ids seen).1,
        (nvmeProcessNsDesc false data pos ids seen).2.1.bare,
        (nvmeProcessNsDesc false data pos ids seen).2.2) := by
  unfold nvmeProcessNsDesc
  dsimp only
  repeat' split
  all_goals first | rfl | contradiction

theorem parseNsDescs_bare (data : List Nat) (fuel : Nat) :
    ∀ (pos : Nat) (ids : NsIds) (seen : Bool),
      parseNsDescs true data fuel pos ids.bare seen =
        ((parseNsDescs false data fuel pos ids seen).1.bare,
          (parseNsDescs false data fuel pos ids seen).2) := by
  induction fuel with
  | zero => exact fun _ _ _ => rfl
  | succ fuel ih =>
      intro pos ids seen
      unfold parseNsDescs
      split
      · rfl
      · split
        · rfl
        · rw [nvmeProcessNsDesc_bare]
          obtain ⟨len, ids₁, seen₁⟩ := nvmeProcessNsDesc false data pos ids seen
          cases len with
          | none => rfl
          | some len => exact ih _ _ _

theorem nsid_bare : info.bare.nsid = info.nsid := rfl

theorem nvmeIdentifyNsDescs_bare :
    nvmeIdentifyNsDescs (c.withQuirk true) r seq info.bare =
      (nvmeIdentifyNsDescs (c.withQuirk false) r seq info).bare := by
  unfold nvmeIdentifyNsDescs
  rw [apply_ite Gather.bare, apply_ite Gather.bare]
  refine if_congr Iff.rfl rfl (if_congr Iff.rfl rfl ?_)
  rw [nsid_bare]
  cases r.descs seq info.nsid with
  | error e => rfl
  | ok data =>
      have hparse : parseNsDescs true data identifyDataSize 0 info.bare.ids false =
          ((parseNsDescs false data identifyDataSize 0 info.ids false).1.bare,
            (parseNsDescs false data identifyDataSize 0 info.ids false).2) :=
        parseNsDescs_bare data identifyDataSize 0 info.ids false
      change (if _ then _ else _ : Gather) = (if _ then _ else _ : Gather).bare
      have hquirk : (c.withQuirk true).quirkBogusNid = true := rfl
      rw [hquirk, hparse, apply_ite Gather.bare]
      exact if_congr Iff.rfl rfl rfl

theorem infoFromIdNs_bare (id : IdNs) :
    infoFromIdNs (c.withQuirk true) info.bare id =
      (infoFromIdNs (c.withQuirk false) info id).bare := by
  have hcsi : (infoFromIdNs (c.withQuirk false) info id).ids.csi = info.ids.csi := by
    simp only [infoFromIdNs, Bool.false_eq_true, if_false, apply_ite NsIds.csi, ite_self]
  have hids : (infoFromIdNs (c.withQuirk true) info.bare id).ids =
      (infoFromIdNs (c.withQuirk false) info id).ids.bare := by
    unfold NsIds.bare
    rw [hcsi]
    rfl
  unfold NsInfo.bare
  rw [← hids]
  rfl

theorem nvmeNsInfoFromIdentify_bare :
    nvmeNsInfoFromIdentify (c.withQuirk true) r seq info.bare =
      (nvmeNsInfoFromIdentify (c.withQuirk false) r seq info).bare := by
  unfold nvmeNsInfoFromIdentify
  rw [nsid_bare]
  cases r.ns seq info.nsid with
  | error e => rfl
  | ok id =>
      dsimp only
      rw [infoFromIdNs_bare, apply_ite Gather.bare, apply_ite Gather.bare]
      refine if_congr Iff.rfl rfl (if_congr Iff.rfl ?_ rfl)
      cases r.nsNvm (seq + 1) info.nsid <;> rfl

theorem nvmeNsInfoFromIdCsIndep_bare :
    nvmeNsInfoFromIdCsIndep r seq info.bare = (nvmeNsInfoFromIdCsIndep r seq info).bare := by
  unfold nvmeNsInfoFromIdCsIndep
  rw [nsid_bare]
  cases r.nsCsIndep seq info.nsid <;> rfl

/-- Under the quirk the same is gathered, without the identifiers. -/
theorem nvmeIdentifyNsInfo_bare :
    nvmeIdentifyNsInfo (c.withQuirk true) r seq info.bare =
      (nvmeIdentifyNsInfo (c.withQuirk false) r seq info).bare := by
  unfold nvmeIdentifyNsInfo
  rw [nvmeIdentifyNsDescs_bare]
  generalize nvmeIdentifyNsDescs (c.withQuirk false) r seq info = g₁
  dsimp only
  rw [apply_ite Gather.bare, apply_ite Gather.bare]
  refine if_congr Iff.rfl rfl (if_congr Iff.rfl rfl ?_)
  have h₂ : nvmeNsInfoFromIdentify (c.withQuirk true) r g₁.bare.seq g₁.bare.info =
      (nvmeNsInfoFromIdentify (c.withQuirk false) r g₁.seq g₁.info).bare :=
    nvmeNsInfoFromIdentify_bare c r g₁.seq g₁.info
  rw [h₂]
  generalize nvmeNsInfoFromIdentify (c.withQuirk false) r g₁.seq g₁.info = g₂
  rw [apply_ite Gather.bare, apply_ite Gather.bare]
  refine if_congr Iff.rfl rfl (if_congr Iff.rfl ?_ rfl)
  have h₃ : nvmeNsInfoFromIdCsIndep r g₂.bare.seq g₂.bare.info =
      (nvmeNsInfoFromIdCsIndep r g₂.seq g₂.info).bare :=
    nvmeNsInfoFromIdCsIndep_bare r g₂.seq g₂.info
  rw [h₃, apply_ite Gather.bare]
  exact if_congr Iff.rfl rfl rfl

end Bare

/-! ### Active namespaces -/

/-- The identifiers that are gathered for a namespace. -/
def idsAt (ids : Nat → NsIds) (quirk : Bool) (n : Nat) : NsIds :=
  if quirk then (ids n).bare else ids n

/-- The controller's side of a scan without errors: the active namespaces are ready, they
keep their identifiers, no two share one, and memory does not run out. -/
structure Conforming (A : Finset Nat) (ids : Nat → NsIds) (c : ScanCtrl) (r : Responses) :
    Prop where
  valid : ∀ n, n ∈ A → 0 < n ∧ n < 2 ^ 32
  ready : ∀ n, n ∈ A → ∀ seq,
    (nvmeIdentifyNsInfo (c.withQuirk false) r seq (NsInfo.init n)).ret = 0 ∧
      (nvmeIdentifyNsInfo (c.withQuirk false) r seq (NsInfo.init n)).info.isReady = true ∧
      (nvmeIdentifyNsInfo (c.withQuirk false) r seq (NsInfo.init n)).info.ids = ids n
  separate : ∀ m, m ∈ A → ∀ n, n ∈ A → m ≠ n → collide (ids m) (ids n) = false
  allocNs : ∀ seq, r.allocNs seq = true
  allocUnit : ∀ seq, r.allocUnit seq = true

section Visits

variable {A : Finset Nat} {ids : Nat → NsIds} {c : ScanCtrl} {r : Responses}
  {s t : ScanState} {n : Nat}

/-- What is gathered for an active namespace. -/
theorem Conforming.gathered (hc : Conforming A ids c r) (hn : n ∈ A) (b : Bool) (seq : Nat) :
    (nvmeIdentifyNsInfo (c.withQuirk b) r seq (NsInfo.init n)).ret = 0 ∧
      (nvmeIdentifyNsInfo (c.withQuirk b) r seq (NsInfo.init n)).info.isReady = true ∧
      (nvmeIdentifyNsInfo (c.withQuirk b) r seq (NsInfo.init n)).info.ids = idsAt ids b n := by
  obtain ⟨hret, hready, hids⟩ := hc.ready n hn seq
  cases b with
  | false => exact ⟨hret, hready, hids⟩
  | true =>
      have hbare : nvmeIdentifyNsInfo (c.withQuirk true) r seq (NsInfo.init n) =
          (nvmeIdentifyNsInfo (c.withQuirk false) r seq (NsInfo.init n)).bare :=
        nvmeIdentifyNsInfo_bare c r seq (NsInfo.init n)
      rw [hbare]
      exact ⟨hret, hready, congrArg NsIds.bare hids⟩

/-- What a visit of an active namespace does: it is refreshed, or removed if it does not
match what is gathered, or added. -/
theorem nvmeScanNs_active (hc : Conforming A ids c r)
    (hctrl : s.ctrl = c.withQuirk s.ctrl.quirkBogusNid) (hn : n ∈ A) :
    ∃ info seq, info.nsid = n ∧ info.ids = idsAt ids s.ctrl.quirkBogusNid n ∧
      ((∃ ns, nvmeFindNs s n = some ns ∧ ns.ids = info.ids ∧
          owned (nvmeScanNs s r n) = owned (commitNs s ns info)) ∨
        (∃ ns, nvmeFindNs s n = some ns ∧ ns.ids ≠ info.ids ∧
          owned (nvmeScanNs s r n) = owned (nvmeNsRemove s ns)) ∨
        (nvmeFindNs s n = none ∧
          owned (nvmeScanNs s r n) = owned (nvmeAllocNs { s with seq := seq } r info).1)) := by
  have hscan : nvmeScanNs s r n =
      scanWith s r n (nvmeIdentifyNsInfo s.ctrl r s.seq (NsInfo.init n)) := rfl
  obtain ⟨hret, hready, hids⟩ := hc.gathered hn s.ctrl.quirkBogusNid s.seq
  rw [← hctrl] at hret hready hids
  have hrem := nvmeIdentifyNsInfo_isRemoved s.ctrl r s.seq n hret
  have hid := nvmeIdentifyNsInfo_nsid s.ctrl r s.seq (NsInfo.init n)
  rw [hscan]
  generalize nvmeIdentifyNsInfo s.ctrl r s.seq (NsInfo.init n) = g at hret hready hids hrem hid
  refine ⟨g.info, g.seq, hid, hids, ?_⟩
  have hfind : nvmeFindNs { s with seq := g.seq } n = nvmeFindNs s n := rfl
  unfold scanWith
  simp only [hrem, Bool.false_eq_true, if_false, hret, ne_eq, not_true, hfind, hready, if_true]
  cases hns : nvmeFindNs s n with
  | none => exact .inr (.inr ⟨rfl, rfl⟩)
  | some ns =>
      by_cases heq : ns.ids = g.info.ids
      · refine .inl ⟨ns, rfl, heq, ?_⟩
        simp only [nvmeValidateNs, (nvmeNsIdsEqual_iff _ _).mpr heq, if_true]
        rfl
      · refine .inr (.inl ⟨ns, rfl, heq, ?_⟩)
        have hne : nvmeNsIdsEqual ns.ids g.info.ids = false := by
          cases hb : nvmeNsIdsEqual ns.ids g.info.ids with
          | false => rfl
          | true => exact absurd ((nvmeNsIdsEqual_iff _ _).mp hb) heq
        simp only [nvmeValidateNs, hne, Bool.false_eq_true, if_false]
        rfl

/-- What the rest of the driver sees of a unit. -/
def unitKey (u : NVMeUnit) : Nat × Nat × Bool := (u.unitNumber, u.nsid, u.dead)

/-- The identifiers of a new namespace collide with those of a registered one. -/
def duplicate (s : ScanState) (info : NsInfo) : Bool :=
  !s.ctrl.quirkBogusNid && nvmeNsIdsDuplicate s info.ids

/-- A new namespace: with memory it gets the next unit, and a collision latches the
quirk. -/
theorem nvmeAllocNs_memory (hns : ∀ seq, r.allocNs seq = true)
    (hunit : ∀ seq, r.allocUnit seq = true) (s : ScanState) (info : NsInfo) :
    ∃ ns u, (nvmeAllocNs s r info).1.namespaces = s.namespaces ++ [ns] ∧
      (nvmeAllocNs s r info).1.units = s.units ++ [u] ∧
      (nvmeAllocNs s r info).1.nextUnitNumber = s.nextUnitNumber + 1 ∧
      (nvmeAllocNs s r info).1.ctrl =
        s.ctrl.withQuirk (s.ctrl.quirkBogusNid || duplicate s info) ∧
      ns.nsId = info.nsid ∧ ns.unit = some s.nextUnitNumber ∧
      ns.ids = (if duplicate s info then info.ids.bare else info.ids) ∧
      unitKey u = (s.nextUnitNumber, info.nsid, false) := by
  have hdup : (!s.ctrl.quirkBogusNid && nvmeNsIdsDuplicate s info.ids) = duplicate s info := rfl
  unfold nvmeAllocNs
  simp only [hns, hunit, if_true, hdup]
  cases duplicate s info with
  | false =>
      obtain ⟨hid, hids, -⟩ := nvmeUpdateNsInfo_key (freshNs info) none info
      refine ⟨_, _, rfl, rfl, rfl, ?_, hid, rfl, hids, ?_⟩
      · rw [Bool.or_false]
        rfl
      · exact Prod.ext rfl (Prod.ext hid rfl)
  | true =>
      obtain ⟨hid, hids, -⟩ := nvmeUpdateNsInfo_key (freshNs info.bare) none info.bare
      refine ⟨_, _, rfl, rfl, rfl, ?_, hid, rfl, hids, ?_⟩
      · rw [Bool.or_true]
        rfl
      · exact Prod.ext rfl (Prod.ext hid rfl)

end Visits

/-! ### What has been done -/

/-- The units of the namespaces that were taken away: those of NSIDs that are not active
and those of lost namespaces. -/
def Killed (A : Finset Nat) (s₀ : ScanState) (lost P : Nat → Prop) (k : Nat) : Prop :=
  ∃ ns, ns ∈ s₀.namespaces ∧ P ns.nsId ∧ (ns.nsId ∉ A ∨ lost ns.nsId) ∧ ns.unit = some k

open Classical in
/-- The units a scan began with, some of them killed. -/
noncomputable def keptUnits (s₀ : ScanState) (K : Nat → Prop) : List (Nat × Nat × Bool) :=
  s₀.units.map (fun u => (u.unitNumber, u.nsid, u.dead || decide (K u.unitNumber)))

/-- The units of namespaces added one after the other. -/
def newUnits : Nat → List Nat → List (Nat × Nat × Bool)
  | _, [] => []
  | k, n :: rest => (k, n, false) :: newUnits (k + 1) rest

/-- Kill the unit of a namespace that is removed. -/
def markDead (unit : Option Nat) (x : Nat × Nat × Bool) : Nat × Nat × Bool :=
  (x.1, x.2.1, x.2.2 || decide (unit = some x.1))

/-- A scan that began at `s₀` is done with the NSIDs in `P`: of these the active ones are
registered, but for the lost ones, and `added` are new. -/
structure Swept (A : Finset Nat) (ids : Nat → NsIds) (s₀ : ScanState) (lost P : Nat → Prop)
    (added : List Nat) (s : ScanState) : Prop where
  ctrl : s.ctrl = s₀.ctrl.withQuirk s.ctrl.quirkBogusNid
  quirk : s₀.ctrl.quirkBogusNid = true → s.ctrl.quirkBogusNid = true
  distinct : (s.namespaces.map NvmeNs.nsId).Nodup
  ahead : ∀ ns, ¬P ns.nsId → (ns ∈ s.namespaces ↔ ns ∈ s₀.namespaces)
  behind : ∀ n, P n → (Registered s n ↔ n ∈ A ∧ ¬lost n)
  known : s.ctrl.quirkBogusNid = false → ∀ ns, ns ∈ s.namespaces → P ns.nsId →
    ns.ids = ids ns.nsId
  bound : ∀ ns, ns ∈ s₀.namespaces → P ns.nsId → ns.nsId ∈ A → ¬lost ns.nsId →
    ∃ ns', ns' ∈ s.namespaces ∧ ns'.nsId = ns.nsId ∧ ns'.unit = ns.unit
  next : s.nextUnitNumber = s₀.nextUnitNumber + added.length
  units : s.units.map unitKey =
    keptUnits s₀ (Killed A s₀ lost P) ++ newUnits s₀.nextUnitNumber added

section Sweep

variable {A : Finset Nat} {ids : Nat → NsIds} {s₀ s t : ScanState} {lost P Q : Nat → Prop}
  {added : List Nat} {n : Nat}

theorem mem_eraseP_nsId {l : List NvmeNs} (hd : (l.map NvmeNs.nsId).Nodup) (m : NvmeNs) :
    m ∈ l.eraseP (fun x => x.nsId == n) ↔ m ∈ l ∧ m.nsId ≠ n := by
  induction l with
  | nil => simp
  | cons x l ih =>
      rw [List.map_cons, List.nodup_cons] at hd
      by_cases hx : x.nsId = n
      · rw [List.eraseP_cons_of_pos (by simpa using hx)]
        constructor
        · intro hm
          refine ⟨List.mem_cons_of_mem _ hm, fun hmn => hd.1 ?_⟩
          rw [hx, ← hmn]
          exact List.mem_map_of_mem hm
        · rintro ⟨hm, hne⟩
          rcases List.mem_cons.mp hm with rfl | hm
          · exact absurd hx hne
          · exact hm
      · rw [List.eraseP_cons_of_neg (by simpa using hx), List.mem_cons, List.mem_cons, ih hd.2]
        constructor
        · rintro (rfl | ⟨hm, hne⟩)
          · exact ⟨.inl rfl, hx⟩
          · exact ⟨.inr hm, hne⟩
        · rintro ⟨rfl | hm, hne⟩
          · exact .inl rfl
          · exact .inr ⟨hm, hne⟩

theorem nvmeNsRemove_units (s : ScanState) (ns : NvmeNs) :
    (nvmeNsRemove s ns).units.map unitKey = (s.units.map unitKey).map (markDead ns.unit) := by
  unfold nvmeNsRemove
  rw [List.map_map]
  cases ns.unit with
  | none =>
      refine List.map_congr_left (fun u _ => ?_)
      simp [markDead, unitKey]
  | some k =>
      simp only [updateUnit, List.map_map]
      refine List.map_congr_left (fun u _ => ?_)
      by_cases hk : u.unitNumber = k
      · simp [markDead, unitKey, hk]
      · have hk' : ¬k = u.unitNumber := fun h => hk h.symm
        simp [markDead, unitKey, hk, hk']

theorem keptUnits_mark (s₀ : ScanState) (K : Nat → Prop) (unit : Option Nat) :
    (keptUnits s₀ K).map (markDead unit) = keptUnits s₀ (fun k => K k ∨ unit = some k) := by
  classical
  unfold keptUnits
  rw [List.map_map]
  refine List.map_congr_left (fun u _ => ?_)
  simp [markDead, Bool.or_assoc, Bool.decide_or]

theorem newUnits_mark {unit : Option Nat} {next : Nat} (hb : ∀ k, unit = some k → k < next) :
    (newUnits next added).map (markDead unit) = newUnits next added := by
  induction added generalizing next with
  | nil => rfl
  | cons n rest ih =>
      have hne : ¬unit = some next := fun h => Nat.lt_irrefl _ (hb next h)
      rw [newUnits, List.map_cons, ih fun k hk => Nat.lt_succ_of_lt (hb k hk)]
      simp [markDead, hne]

theorem newUnits_append (k : Nat) (l : List Nat) (n : Nat) :
    newUnits k (l ++ [n]) = newUnits k l ++ [(k + l.length, n, false)] := by
  induction l generalizing k with
  | nil => rfl
  | cons x l ih =>
      rw [List.cons_append, newUnits, ih, newUnits, List.cons_append, List.length_cons]
      have : k + 1 + l.length = k + (l.length + 1) := by omega
      rw [this]

theorem keptUnits_congr {K K' : Nat → Prop} (h : ∀ k, K k ↔ K' k) :
    keptUnits s₀ K = keptUnits s₀ K' := by
  rw [funext fun k => propext (h k)]

theorem Swept.congr (h : Swept A ids s₀ lost P added s) (ho : owned t = owned s) :
    Swept A ids s₀ lost P added t := by
  obtain ⟨h₁, h₂, h₃, h₄⟩ := owned_eq ho
  obtain ⟨ctrl, quirk, distinct, ahead, behind, known, bound, next, units⟩ := h
  refine ⟨?_, ?_, ?_, ?_, ?_, ?_, ?_, ?_, ?_⟩
  · rw [h₁]
    exact ctrl
  · rw [h₁]
    exact quirk
  · rw [h₂]
    exact distinct
  · rw [h₂]
    exact ahead
  · exact fun n hn => (registered_congr ho n).trans (behind n hn)
  · rw [h₁, h₂]
    exact known
  · rw [h₂]
    exact bound
  · rw [h₄]
    exact next
  · rw [h₃]
    exact units

theorem Swept.iff (h : Swept A ids s₀ lost P added s) (hpq : ∀ n, P n ↔ Q n) :
    Swept A ids s₀ lost Q added s :=
  (funext fun n => propext (hpq n) : P = Q) ▸ h

/-- At the beginning nothing has been done. -/
theorem Swept.init (hd : (s₀.namespaces.map NvmeNs.nsId).Nodup) (hnone : ∀ n, ¬P n) :
    Swept A ids s₀ lost P [] s₀ where
  ctrl := rfl
  quirk := id
  distinct := hd
  ahead := fun _ _ => Iff.rfl
  behind := fun n hn => absurd hn (hnone n)
  known := fun _ ns _ hp => absurd hp (hnone ns.nsId)
  bound := fun ns _ hp => absurd hp (hnone ns.nsId)
  next := rfl
  units := by
    classical
    have hno : ∀ k, ¬Killed A s₀ lost P k := fun k ⟨ns, _, hp, _⟩ => hnone ns.nsId hp
    rw [newUnits, List.append_nil, keptUnits]
    refine List.map_congr_left (fun u _ => ?_)
    simp [unitKey, hno]

/-- A namespace that is not done with is as it was. -/
theorem Swept.registered_ahead (h : Swept A ids s₀ lost P added s) (hn : ¬P n) :
    Registered s n ↔ Registered s₀ n := by
  unfold Registered
  simp only [List.mem_map]
  constructor
  · rintro ⟨ns, hns, rfl⟩
    exact ⟨ns, (h.ahead ns hn).mp hns, rfl⟩
  · rintro ⟨ns, hns, rfl⟩
    exact ⟨ns, (h.ahead ns hn).mpr hns, rfl⟩

/-- NSIDs that are neither active nor registered need no work. -/
theorem Swept.widen (h : Swept A ids s₀ lost P added s)
    (hq : ∀ n, Q n → ¬P n → ¬Registered s n ∧ n ∉ A) :
    Swept A ids s₀ lost (fun n => P n ∨ Q n) added s := by
  have hold : ∀ ns, ns ∈ s.namespaces → P ns.nsId ∨ Q ns.nsId → P ns.nsId := by
    rintro ns hns (hp | hq')
    · exact hp
    · by_contra hp
      exact (hq ns.nsId hq' hp).1 (List.mem_map_of_mem hns)
  have hold₀ : ∀ ns, ns ∈ s₀.namespaces → P ns.nsId ∨ Q ns.nsId → P ns.nsId := by
    rintro ns hns hpq
    by_contra hp
    exact hp (hold ns ((h.ahead ns hp).mpr hns) hpq)
  refine ⟨h.ctrl, h.quirk, h.distinct, ?_, ?_, ?_, ?_, h.next, ?_⟩
  · exact fun ns hno => h.ahead ns fun hp => hno (.inl hp)
  · rintro n hpq
    by_cases hp : P n
    · exact h.behind n hp
    · obtain ⟨hno, hna⟩ := hq n (hpq.resolve_left hp) hp
      exact iff_of_false hno fun hh => hna hh.1
  · exact fun hb ns hns hpq => h.known hb ns hns (hold ns hns hpq)
  · exact fun ns hns hpq => h.bound ns hns (hold₀ ns hns hpq)
  · rw [h.units]
    refine congrArg (· ++ _) (keptUnits_congr fun k => ?_)
    constructor
    · rintro ⟨ns, hns, hp, hrest⟩
      exact ⟨ns, hns, .inl hp, hrest⟩
    · rintro ⟨ns, hns, hpq, hrest⟩
      exact ⟨ns, hns, hold₀ ns hns hpq, hrest⟩

/-- An NSID that is done with now adds the unit of its namespace to the killed ones. -/
theorem killed_or (hd : (s₀.namespaces.map NvmeNs.nsId).Nodup) {ns : NvmeNs}
    (hns : ns ∈ s₀.namespaces) (hout : ns.nsId ∉ A ∨ lost ns.nsId) (k : Nat) :
    Killed A s₀ lost P k ∨ ns.unit = some k ↔
      Killed A s₀ lost (fun m => P m ∨ m = ns.nsId) k := by
  constructor
  · rintro (⟨m, hm, hp, hrest⟩ | hu)
    · exact ⟨m, hm, .inl hp, hrest⟩
    · exact ⟨ns, hns, .inr rfl, hout, hu⟩
  · rintro ⟨m, hm, hp | hid, hrest, hu⟩
    · exact .inl ⟨m, hm, hp, hrest, hu⟩
    · rw [List.inj_on_of_nodup_map hd hm hns hid] at hu
      exact .inr hu

/-- A namespace that stays kills no unit. -/
theorem killed_stays (hin : n ∈ A) (hkeep : ¬lost n) (k : Nat) :
    Killed A s₀ lost P k ↔ Killed A s₀ lost (fun m => P m ∨ m = n) k := by
  constructor
  · rintro ⟨m, hm, hp, hrest⟩
    exact ⟨m, hm, .inl hp, hrest⟩
  · rintro ⟨m, hm, hp | hid, hrest, hu⟩
    · exact ⟨m, hm, hp, hrest, hu⟩
    · rw [hid] at hrest
      exact absurd hrest fun h => h.elim (fun h => h hin) hkeep

/-- A namespace is taken away. -/
theorem Swept.remove (h : Swept A ids s₀ lost P added s)
    (hd : (s₀.namespaces.map NvmeNs.nsId).Nodup)
    (hb : ∀ ns, ns ∈ s₀.namespaces → ∀ k, ns.unit = some k → k < s₀.nextUnitNumber)
    {ns : NvmeNs} (hns : ns ∈ s.namespaces) (hnew : ¬P ns.nsId)
    (hout : ns.nsId ∉ A ∨ lost ns.nsId) :
    Swept A ids s₀ lost (fun m => P m ∨ m = ns.nsId) added (nvmeNsRemove s ns) := by
  have hns₀ : ns ∈ s₀.namespaces := (h.ahead ns hnew).mp hns
  have hmem : ∀ m, m ∈ (nvmeNsRemove s ns).namespaces ↔ m ∈ s.namespaces ∧ m.nsId ≠ ns.nsId :=
    mem_eraseP_nsId h.distinct
  have hreg := nvmeNsRemove_registered h.distinct ns
  have hsub : (nvmeNsRemove s ns).namespaces.Sublist s.namespaces := List.eraseP_sublist
  refine ⟨h.ctrl, h.quirk, (hsub.map NvmeNs.nsId).nodup h.distinct, ?_, ?_, ?_, ?_, h.next, ?_⟩
  · intro m hno
    rw [hmem]
    have hne : m.nsId ≠ ns.nsId := fun he => hno (.inr he)
    rw [and_iff_left hne]
    exact h.ahead m fun hp => hno (.inl hp)
  · rintro m (hp | rfl)
    · have hne : m ≠ ns.nsId := by
        rintro rfl
        exact hnew hp
      rw [hreg, and_iff_right hne]
      exact h.behind m hp
    · rw [hreg]
      exact iff_of_false (fun hh => hh.1 rfl) fun hh => hout.elim (fun h => h hh.1) hh.2
  · rintro hq m hm (hp | hid)
    · exact h.known hq m ((hmem m).mp hm).1 hp
    · exact absurd hid ((hmem m).mp hm).2
  · rintro m hm (hp | hid) hin hkeep
    · obtain ⟨m', hm', hid', hu⟩ := h.bound m hm hp hin hkeep
      refine ⟨m', (hmem m').mpr ⟨hm', ?_⟩, hid', hu⟩
      rw [hid']
      rintro he
      exact hnew (he ▸ hp)
    · rw [hid] at hin hkeep
      exact absurd hout fun h => h.elim (fun h => h hin) hkeep
  · rw [nvmeNsRemove_units, h.units, List.map_append, keptUnits_mark,
      newUnits_mark (hb ns hns₀)]
    exact congrArg (· ++ _) (keptUnits_congr (killed_or hd hns₀ hout))

/-- An active namespace stays as it is. -/
theorem Swept.refresh (h : Swept A ids s₀ lost P added s) {ns : NvmeNs} {info : NsInfo}
    (hns : nvmeFindNs s n = some ns) (hnew : ¬P n) (hin : n ∈ A) (hkeep : ¬lost n)
    (hids : s.ctrl.quirkBogusNid = false → ns.ids = ids n) :
    Swept A ids s₀ lost (fun m => P m ∨ m = n) added (commitNs s ns info) := by
  obtain ⟨hmem, hid⟩ := nvmeFindNs_some hns
  have hbind := commitNs_bindings s ns info
  have hreg := registered_of_bindings hbind
  have hmap : (commitNs s ns info).namespaces = s.namespaces.map (fun m =>
      if m.nsId = ns.nsId then (nvmeUpdateNsInfo m none info).1 else m) := rfl
  -- every record of the new list is an old one with the same key
  have hback : ∀ m, m ∈ (commitNs s ns info).namespaces →
      ∃ k, k ∈ s.namespaces ∧ m.nsId = k.nsId ∧ m.ids = k.ids ∧ m.unit = k.unit ∧
        (k.nsId ≠ ns.nsId → m = k) := by
    intro m hm
    rw [hmap] at hm
    obtain ⟨k, hk, rfl⟩ := List.mem_map.mp hm
    refine ⟨k, hk, ?_⟩
    split
    · rename_i he
      obtain ⟨h₁, h₂, h₃⟩ := nvmeUpdateNsInfo_key k none info
      exact ⟨h₁, h₂, h₃, fun hne => absurd he hne⟩
    · exact ⟨rfl, rfl, rfl, fun _ => rfl⟩
  have hforth : ∀ k, k ∈ s.namespaces →
      ∃ m, m ∈ (commitNs s ns info).namespaces ∧ m.nsId = k.nsId ∧ m.unit = k.unit ∧
        (k.nsId ≠ ns.nsId → m = k) := by
    intro k hk
    refine ⟨_, hmap ▸ List.mem_map_of_mem hk, ?_⟩
    split
    · rename_i he
      obtain ⟨h₁, -, h₃⟩ := nvmeUpdateNsInfo_key k none info
      exact ⟨h₁, h₃, fun hne => absurd he hne⟩
    · exact ⟨rfl, rfl, fun _ => rfl⟩
  refine ⟨h.ctrl, h.quirk, commitNs_nsIds s ns info ▸ h.distinct, ?_, ?_, ?_, ?_, h.next, ?_⟩
  · intro m hno
    have hne : m.nsId ≠ ns.nsId := fun he => hno (.inr (he.trans hid))
    have hp : ¬P m.nsId := fun hp => hno (.inl hp)
    rw [← h.ahead m hp]
    constructor
    · intro hm
      obtain ⟨k, hk, hkid, -, -, hsame⟩ := hback m hm
      rw [hsame (hkid ▸ hne)]
      exact hk
    · intro hm
      obtain ⟨m', hm', -, -, hsame⟩ := hforth m hm
      exact hsame hne ▸ hm'
  · rintro m (hp | rfl)
    · exact (hreg m).trans (h.behind m hp)
    · refine iff_of_true ((hreg m).mpr ?_) ⟨hin, hkeep⟩
      exact hid ▸ List.mem_map_of_mem hmem
  · rintro hq m hm hp
    obtain ⟨k, hk, hkid, hkids, -, -⟩ := hback m hm
    rw [hkids, hkid]
    by_cases he : k.nsId = n
    · have hkn : k = ns := List.inj_on_of_nodup_map h.distinct hk hmem (he.trans hid.symm)
      rw [he, hkn]
      exact hids hq
    · rw [hkid] at hp
      exact h.known hq k hk (hp.resolve_right he)
  · rintro m hm hp hmin hmkeep
    by_cases he : m.nsId = n
    · have hsame : m ∈ s.namespaces := (h.ahead m (he ▸ hnew)).mpr hm
      obtain ⟨m', hm', hid', hu', -⟩ := hforth m hsame
      exact ⟨m', hm', hid', hu'⟩
    · obtain ⟨k, hk, hkid, hku⟩ := h.bound m hm (hp.resolve_right he) hmin hmkeep
      obtain ⟨m', hm', hid', hu', -⟩ := hforth k hk
      exact ⟨m', hm', hid'.trans hkid, hu'.trans hku⟩
  · have hunits : (commitNs s ns info).units.map unitKey = s.units.map unitKey :=
      congrArg (fun b => b.2.1) hbind
    rw [hunits, h.units]
    exact congrArg (· ++ _) (keptUnits_congr (killed_stays hin hkeep))

/-- An active namespace is added. -/
theorem Swept.add (h : Swept A ids s₀ lost P added s) {ns : NvmeNs} {u : NVMeUnit} {b : Bool}
    (hlist : t.namespaces = s.namespaces ++ [ns]) (hunits : t.units = s.units ++ [u])
    (hnext : t.nextUnitNumber = s.nextUnitNumber + 1)
    (hctrl : t.ctrl = s.ctrl.withQuirk (s.ctrl.quirkBogusNid || b))
    (hid : ns.nsId = n) (hkey : unitKey u = (s.nextUnitNumber, n, false))
    (hfree : ¬Registered s n) (hnew : ¬P n) (hin : n ∈ A) (hkeep : ¬lost n)
    (hids : (s.ctrl.quirkBogusNid || b) = false → ns.ids = ids n) :
    Swept A ids s₀ lost (fun m => P m ∨ m = n) (added ++ [n]) t := by
  have hquirk : t.ctrl.quirkBogusNid = (s.ctrl.quirkBogusNid || b) := by rw [hctrl]
  have hreg := registered_add hlist
  rw [hid] at hreg
  have hfree₀ : ∀ m, m ∈ s₀.namespaces → m.nsId ≠ n := by
    rintro m hm rfl
    exact hfree ((h.registered_ahead hnew).mpr (List.mem_map_of_mem hm))
  refine ⟨?_, ?_, ?_, ?_, ?_, ?_, ?_, ?_, ?_⟩
  · rw [hquirk, hctrl, h.ctrl]
  · intro hq
    rw [hquirk, h.quirk hq]
    rfl
  · rw [hlist, List.map_append, List.map_singleton, hid]
    refine List.nodup_append.mpr ⟨h.distinct, List.nodup_singleton _, ?_⟩
    rintro a ha b hb rfl
    rw [List.mem_singleton.mp hb] at ha
    exact hfree ha
  · intro m hno
    have hne : m ≠ ns := by
      rintro rfl
      exact hno (.inr hid)
    rw [hlist, List.mem_append, List.mem_singleton, or_iff_left hne]
    exact h.ahead m fun hp => hno (.inl hp)
  · rintro m (hp | rfl)
    · have hne : m ≠ n := by
        rintro rfl
        exact hnew hp
      rw [hreg, or_iff_left hne]
      exact h.behind m hp
    · exact iff_of_true ((hreg m).mpr (.inr rfl)) ⟨hin, hkeep⟩
  · intro hq m hm hp
    rw [hquirk] at hq
    rw [hlist] at hm
    rcases List.mem_append.mp hm with hm | hm
    · refine h.known (Bool.or_eq_false_iff.mp hq).1 m hm (hp.resolve_right ?_)
      rintro rfl
      exact hfree (List.mem_map_of_mem hm)
    · rw [List.mem_singleton.mp hm, hid]
      exact hids hq
  · rintro m hm (hp | he) hmin hmkeep
    · obtain ⟨m', hm', hid', hu'⟩ := h.bound m hm hp hmin hmkeep
      exact ⟨m', hlist ▸ List.mem_append_left _ hm', hid', hu'⟩
    · exact absurd he (hfree₀ m hm)
  · rw [hnext, h.next, List.length_append, List.length_singleton]
    rfl
  · rw [hunits, List.map_append, h.units, List.map_singleton, hkey, h.next, newUnits_append,
      List.append_assoc, keptUnits_congr (killed_stays hin hkeep)]

end Sweep

/-! ### The operations of a scan -/

/-- Where a scan without errors starts: NSIDs are distinct and not 0, unit numbers are
handed out in turn, and the registered namespaces that are still active have kept the
identifiers they were registered with. -/
structure ScanStart (A : Finset Nat) (ids : Nat → NsIds) (r : Responses) (s₀ : ScanState) :
    Prop where
  conforming : Conforming A ids s₀.ctrl r
  distinct : (s₀.namespaces.map NvmeNs.nsId).Nodup
  positive : ∀ ns, ns ∈ s₀.namespaces → 0 < ns.nsId
  unitBound : ∀ ns, ns ∈ s₀.namespaces → ∀ k, ns.unit = some k → k < s₀.nextUnitNumber
  unchanged : ∀ ns, ns ∈ s₀.namespaces → ns.nsId ∈ A →
    ns.ids = ids ns.nsId ∨ s₀.ctrl.quirkBogusNid = true ∧ ns.ids = (ids ns.nsId).bare

/-- A namespace that is not active and not done with has an identifier of `n`. -/
def StaleCollision (A : Finset Nat) (ids : Nat → NsIds) (s₀ : ScanState) (P : Nat → Prop)
    (n : Nat) : Prop :=
  ∃ ns, ns ∈ s₀.namespaces ∧ ¬P ns.nsId ∧ ns.nsId ∉ A ∧ collide (ids n) ns.ids = true

section Operations

variable {A : Finset Nat} {ids : Nat → NsIds} {r : Responses} {s₀ s t : ScanState}
  {lost P Q : Nat → Prop} {added : List Nat} {n : Nat}

/-- `nvme_ns_remove_by_nsid` of an NSID that is not active. -/
theorem Swept.removeByNsid (h : Swept A ids s₀ lost P added s) (hs : ScanStart A ids r s₀)
    (hnew : ¬P n) (hout : n ∉ A) :
    Swept A ids s₀ lost (fun m => P m ∨ m = n) added (nvmeNsRemoveByNsid s n) := by
  unfold nvmeNsRemoveByNsid
  cases hf : nvmeFindNs s n with
  | none =>
      refine h.widen ?_
      rintro m rfl _
      exact ⟨(nvmeFindNs_none_iff s m).mp hf, hout⟩
  | some ns =>
      obtain ⟨hmem, rfl⟩ := nvmeFindNs_some hf
      exact h.remove hs.distinct hs.unitBound hmem hnew (.inl hout)

/-- The gap below an entry of the active list. -/
theorem Swept.removeGap (hs : ScanStart A ids r s₀) (k : Nat) :
    ∀ (first : Nat) {s : ScanState} {P : Nat → Prop}, Swept A ids s₀ lost P added s →
      (∀ m, first ≤ m → m < first + k → ¬P m ∧ m ∉ A) →
      Swept A ids s₀ lost (fun m => P m ∨ first ≤ m ∧ m < first + k) added
        (removeGap k first s).1 := by
  induction k with
  | zero =>
      intro first s P h _
      refine h.iff fun m => ?_
      constructor
      · exact .inl
      · rintro (hp | hm)
        · exact hp
        · omega
  | succ k ih =>
      intro first s P h hgap
      obtain ⟨hnew, hout⟩ := hgap first (Nat.le_refl _) (by omega)
      have hnext := ih (first + 1) (h.removeByNsid hs hnew hout) fun m hlo hhi => ?_
      · refine hnext.iff fun m => ?_
        constructor
        · rintro ((hp | rfl) | hm)
          · exact .inl hp
          · exact .inr (by omega)
          · exact .inr (by omega)
        · rintro (hp | hm)
          · exact .inl (.inl hp)
          · by_cases he : m = first
            · exact .inl (.inr he)
            · exact .inr (by omega)
      · obtain ⟨hm, hmout⟩ := hgap m (by omega) (by omega)
        refine ⟨fun hp => hp.elim hm ?_, hmout⟩
        omega

/-- Namespaces are removed one after the other. -/
theorem Swept.removeAll (hs : ScanStart A ids r s₀) (l : List NvmeNs) :
    ∀ {s : ScanState} {P : Nat → Prop}, Swept A ids s₀ lost P added s →
      (l.map NvmeNs.nsId).Nodup →
      (∀ ns, ns ∈ l → ns ∈ s.namespaces ∧ ¬P ns.nsId ∧ ns.nsId ∉ A) →
      Swept A ids s₀ lost (fun m => P m ∨ m ∈ l.map NvmeNs.nsId) added
        (l.foldl nvmeNsRemove s) := by
  induction l with
  | nil =>
      intro s P h _ _
      exact h.iff fun m => by simp
  | cons ns l ih =>
      intro s P h hd hl
      rw [List.map_cons, List.nodup_cons] at hd
      obtain ⟨hmem, hnew, hout⟩ := hl ns List.mem_cons_self
      have hother : ∀ m, m ∈ l → m.nsId ≠ ns.nsId := by
        intro m hm he
        exact hd.1 (he ▸ List.mem_map_of_mem hm)
      have hnext := ih (h.remove hs.distinct hs.unitBound hmem hnew (.inl hout)) hd.2 ?_
      · refine hnext.iff fun m => ?_
        rw [List.map_cons, List.mem_cons]
        exact or_assoc
      · intro m hm
        obtain ⟨hin, hp, hma⟩ := hl m (List.mem_cons_of_mem _ hm)
        refine ⟨(mem_eraseP_nsId h.distinct m).mpr ⟨hin, hother m hm⟩, ?_, hma⟩
        exact fun hor => hor.elim hp (hother m hm)

/-- `nvme_remove_invalid_namespaces` above the last active NSID. -/
theorem Swept.cut (h : Swept A ids s₀ lost P added s) (hs : ScanStart A ids r s₀)
    {last : Nat} (hlast : ∀ m, last < m → ¬P m ∧ m ∉ A) :
    Swept A ids s₀ lost (fun m => P m ∨ last < m) added
      (nvmeRemoveInvalidNamespaces s last) := by
  have hsub : (s.namespaces.filter (fun ns => decide (last < ns.nsId))).Sublist s.namespaces :=
    List.filter_sublist
  have hall := Swept.removeAll hs _ h ((hsub.map NvmeNs.nsId).nodup h.distinct) ?_
  · refine (hall.widen (Q := fun m => last < m) ?_).iff fun m => ?_
    · intro m hm hno
      obtain ⟨hp, hout⟩ := hlast m hm
      refine ⟨fun hreg => ?_, hout⟩
      have hreg₀ := (h.registered_ahead hp).mpr
        ((hall.registered_ahead hno).mp hreg)
      obtain ⟨ns, hns, rfl⟩ := List.mem_map.mp hreg₀
      refine hno (.inr (List.mem_map_of_mem (List.mem_filter.mpr ⟨hns, ?_⟩)))
      simpa using hm
    · constructor
      · rintro ((hp | hm) | hm)
        · exact .inl hp
        · obtain ⟨ns, hns, rfl⟩ := List.mem_map.mp hm
          refine .inr ?_
          simpa using (List.mem_filter.mp hns).2
        · exact .inr hm
      · rintro (hp | hm)
        · exact .inl (.inl hp)
        · exact .inr hm
  · intro ns hns
    obtain ⟨hin, hlt⟩ := List.mem_filter.mp hns
    obtain ⟨hp, hout⟩ := hlast ns.nsId (by simpa using hlt)
    exact ⟨hin, hp, hout⟩

/-- Of the namespaces a new one can collide with, only those that are not active have not
been ruled out. -/
theorem Swept.duplicate_iff (h : Swept A ids s₀ lost P added s) (hs : ScanStart A ids r s₀)
    (hq : s.ctrl.quirkBogusNid = false) (hin : n ∈ A) (hfree : ¬Registered s n) :
    nvmeNsIdsDuplicate s (ids n) = true ↔ StaleCollision A ids s₀ P n := by
  have hq₀ : s₀.ctrl.quirkBogusNid = false := by
    cases hb : s₀.ctrl.quirkBogusNid with
    | false => rfl
    | true => exact absurd (h.quirk hb) (by simp [hq])
  have hany : nvmeNsIdsDuplicate s (ids n) = true ↔
      ∃ ns, ns ∈ s.namespaces ∧ collide (ids n) ns.ids = true := List.any_eq_true
  rw [hany]
  constructor
  · rintro ⟨ns, hns, hcol⟩
    have hne : n ≠ ns.nsId := by
      rintro rfl
      exact hfree (List.mem_map_of_mem hns)
    have hactive : ns.nsId ∈ A → ns.ids ≠ ids ns.nsId := by
      intro ha he
      rw [he, hs.conforming.separate n hin ns.nsId ha hne] at hcol
      cases hcol
    by_cases hp : P ns.nsId
    · have ha := ((h.behind ns.nsId hp).mp (List.mem_map_of_mem hns)).1
      exact absurd (h.known hq ns hns hp) (hactive ha)
    · have hns₀ := (h.ahead ns hp).mp hns
      refine ⟨ns, hns₀, hp, fun ha => hactive ha ?_, hcol⟩
      refine (hs.unchanged ns hns₀ ha).resolve_right fun hbare => ?_
      exact absurd hbare.1 (by simp [hq₀])
  · rintro ⟨ns, hns, hp, -, hcol⟩
    exact ⟨ns, (h.ahead ns hp).mpr hns, hcol⟩

/-- `nvme_scan_ns` of an active NSID.  A registered namespace is lost if it does not match
what is gathered for it now; a new one latches the quirk if it collides. -/
theorem Swept.visit (h : Swept A ids s₀ lost P added s) (hs : ScanStart A ids r s₀)
    (hnew : ¬P n) (hin : n ∈ A)
    (hlost : ∀ ns, ns ∈ s₀.namespaces → ns.nsId = n →
      (lost n ↔ ns.ids ≠ idsAt ids s.ctrl.quirkBogusNid n))
    (hfresh : ¬Registered s₀ n → ¬lost n) :
    Swept A ids s₀ lost (fun m => P m ∨ m = n)
        (if Registered s₀ n then added else added ++ [n]) (nvmeScanNs s r n) ∧
      ((nvmeScanNs s r n).ctrl.quirkBogusNid = true ↔ s.ctrl.quirkBogusNid = true ∨
        ¬Registered s₀ n ∧ StaleCollision A ids s₀ P n) := by
  have hreg := h.registered_ahead hnew
  obtain ⟨info, seq, hid, hids, hcases⟩ := nvmeScanNs_active hs.conforming h.ctrl hin
  rcases hcases with ⟨ns, hns, heq, ho⟩ | ⟨ns, hns, hne, ho⟩ | ⟨hnone, ho⟩
  · obtain ⟨hmem, hnid⟩ := nvmeFindNs_some hns
    have hold : Registered s₀ n := hreg.mp (hnid ▸ List.mem_map_of_mem hmem)
    have hmem₀ := (h.ahead ns (hnid ▸ hnew)).mp hmem
    rw [hids] at heq
    have hkeep : ¬lost n := fun hl => ((hlost ns hmem₀ hnid).mp hl) heq
    rw [if_pos hold, (owned_eq ho).1]
    refine ⟨(h.refresh hns hnew hin hkeep fun hq => ?_).congr ho, ?_⟩
    · rw [heq, hq]
      rfl
    · exact ⟨.inl, fun hh => hh.elim id fun hh => absurd hold hh.1⟩
  · obtain ⟨hmem, hnid⟩ := nvmeFindNs_some hns
    have hold : Registered s₀ n := hreg.mp (hnid ▸ List.mem_map_of_mem hmem)
    have hmem₀ := (h.ahead ns (hnid ▸ hnew)).mp hmem
    rw [hids] at hne
    have hgone : lost n := (hlost ns hmem₀ hnid).mpr hne
    rw [if_pos hold, (owned_eq ho).1]
    subst hnid
    refine ⟨(h.remove hs.distinct hs.unitBound hmem hnew (.inr hgone)).congr ho, ?_⟩
    exact ⟨.inl, fun hh => hh.elim id fun hh => absurd hold hh.1⟩
  · have hfree := (nvmeFindNs_none_iff s n).mp hnone
    have hfree₀ : ¬Registered s₀ n := fun hh => hfree (hreg.mpr hh)
    obtain ⟨ns, u, hlist, hunits, hnext, hctrl, hnid, -, hnids, hkey⟩ :=
      nvmeAllocNs_memory hs.conforming.allocNs hs.conforming.allocUnit
        { s with seq := seq } info
    have hdup : duplicate { s with seq := seq } info =
        (!s.ctrl.quirkBogusNid && nvmeNsIdsDuplicate s info.ids) := rfl
    rw [if_neg hfree₀, (owned_eq ho).1, hctrl]
    rw [hid] at hnid hkey
    refine ⟨(h.add hlist hunits hnext hctrl hnid hkey hfree hnew hin (hfresh hfree₀) ?_).congr
      ho, ?_⟩
    · intro hq
      obtain ⟨hq₁, hq₂⟩ := Bool.or_eq_false_iff.mp hq
      rw [hnids, hq₂, if_neg Bool.false_ne_true, hids]
      exact congrArg (fun b => idsAt ids b n) hq₁
    · rw [hdup, hids]
      cases hq : s.ctrl.quirkBogusNid with
      | true => simp
      | false =>
          simp only [Bool.not_false, Bool.true_and, Bool.false_or, Bool.false_eq_true, false_or]
          refine (h.duplicate_iff hs hq hin hfree).trans ?_
          exact (and_iff_right hfree₀).symm

end Operations

end Namespace
end NvmeDriver
