import NvmeDriver.Scan
import NvmeDriver.Constants

/-!
# The flag word of a unit

`NVME_UNIT_DEAD` and the flags a client passes to OpenDevice share one word of a unit:
`nvme_ns_remove` sets the bit (nvme_scan.c), `UnitOpen` overwrites the word (unit.c), and
beginIO and ProcessCommand refuse requests by it.  The units of all controllers, as opens,
closes, scans and removals change them one after the other; OpenDevice runs under
Forbid(), and so do the two list operations of a scan.
-/

namespace NvmeDriver
namespace Units

open Namespace

/-! ### Units -/

/-- `NVME_UNIT_DEAD`. -/
def nvmeUnitDead : Nat := 1

/-- `struct NVMeUnit`, as far as opens, closes and removals go. -/
structure UnitWord where
  flags : Nat := 0
  openCnt : Nat := 0
  changeCount : Nat := 1
  /-- on `base->units` -/
  linked : Bool := true
  /-- `nvme_ns_remove` has run for it -/
  removed : Bool := false
deriving DecidableEq, Repr

/-- `unit->flags & NVME_UNIT_DEAD`. -/
def UnitWord.isDead (u : UnitWord) : Bool := u.flags &&& nvmeUnitDead != 0

/-- The device: its units by number, and its open count. -/
structure Device where
  units : List UnitWord := []
  libOpenCnt : Nat := 0
deriving DecidableEq, Repr

/-- `UnitOpen`; `none` is `ERR_CONTROLLER_ERROR`. -/
def unitOpen (u : UnitWord) (flags : Nat) : Option UnitWord :=
  if u.isDead then none
  else some { u with flags := flags % 2 ^ 32, openCnt := u.openCnt + 1 }

/-- `openLib` and its `io_Error`. -/
def openLib (d : Device) (n flags : Nat) : Device × Int :=
  match d.units[n]? with
  | none => (d, ioerrOpenFail)
  | some u =>
      if u.linked then
        match unitOpen u flags with
        | none => (d, ioerrOpenFail)
        | some u₁ => ({ units := d.units.set n u₁, libOpenCnt := d.libOpenCnt + 1 }, 0)
      else (d, ioerrOpenFail)

/-- `closeLib`, of a unit that is open. -/
def closeLib (d : Device) (n : Nat) : Device :=
  match d.units[n]? with
  | none => d
  | some u =>
      { units := d.units.set n { u with openCnt := u.openCnt - 1 }
        libOpenCnt := d.libOpenCnt - 1 }

/-- `nvme_alloc_nvmeunit`: the next number. -/
def allocNvmeunit (d : Device) : Device := { d with units := d.units ++ [{}] }

/-- The unit half of `nvme_ns_remove`; a namespace gives up its unit once. -/
def nsRemove (d : Device) (n : Nat) : Device :=
  match d.units[n]? with
  | none => d
  | some u =>
      if u.removed then d
      else
        { d with
          units := d.units.set n
            { u with flags := u.flags ||| nvmeUnitDead, linked := false, removed := true } }

/-- The first checks of beginIO; `etd` is the change count an extended command carries. -/
def beginIoGate (u : UnitWord) (etd : Option Nat) : Option Int :=
  if u.isDead then some tderrDiskChanged
  else
    match etd with
    | none => none
    | some count => if count < u.changeCount then some tderrDiskChanged else none

/-- The first check of ProcessCommand. -/
def processCommandGate (u : UnitWord) : Option Int :=
  if u.isDead then some tderrDiskChanged else none

/-! ### Runs -/

/-- What happens to the units. -/
inductive DeviceEvent
  | allocNvmeunit
  | nsRemove (n : Nat)
  | openLib (n flags : Nat)
  | closeLib (n : Nat)

def deviceStep (d : Device) : DeviceEvent → Device
  | .allocNvmeunit => allocNvmeunit d
  | .nsRemove n => nsRemove d n
  | .openLib n flags => (openLib d n flags).1
  | .closeLib n => closeLib d n

def deviceRun (events : List DeviceEvent) (d : Device) : Device := events.foldl deviceStep d

/-- The word says what happened to the unit: it is dead if it was removed, its requests
are refused then, and otherwise only for a stale change count. -/
structure Truthful (u : UnitWord) : Prop where
  dead : u.isDead = true ↔ u.removed = true
  beginIo : ∀ etd, beginIoGate u etd = some tderrDiskChanged ↔
    u.removed = true ∨ ∃ count, etd = some count ∧ count < u.changeCount
  processCommand : processCommandGate u = some tderrDiskChanged ↔ u.removed = true

/-- An open that finds its unit passes a flag word with bit 0 clear. -/
def CleanOpen (d : Device) : DeviceEvent → Prop
  | .openLib n flags => ∀ u, d.units[n]? = some u → u.linked = true → flags % 2 = 0
  | _ => True

section Words

variable {u : UnitWord} {d : Device}

theorem and_dead (flags : Nat) : (flags &&& nvmeUnitDead != 0) = (flags % 2 == 1) := by
  have hand : flags &&& 1 = flags % 2 := Nat.and_one_is_mod flags
  have hlt : flags % 2 < 2 := Nat.mod_lt _ (by decide)
  unfold nvmeUnitDead
  rw [hand]
  interval_cases flags % 2 <;> rfl

theorem isDead_opened (flags : Nat) :
    UnitWord.isDead { u with flags := flags % 2 ^ 32, openCnt := u.openCnt + 1 } =
      (flags % 2 == 1) := by
  unfold UnitWord.isDead
  rw [and_dead]
  have hmod : flags % 2 ^ 32 % 2 = flags % 2 := Nat.mod_mod_of_dvd flags (by decide)
  rw [hmod]

theorem or_dead (flags : Nat) : (flags ||| nvmeUnitDead) &&& nvmeUnitDead ≠ 0 := by
  intro h
  have hbit : ((flags ||| nvmeUnitDead) &&& nvmeUnitDead).testBit 0 = true := by
    simp [nvmeUnitDead]
  rw [h] at hbit
  cases hbit

/-- What a run keeps: the word is truthful, and the unit is linked until it is removed. -/
def Kept (u : UnitWord) : Prop := u.isDead = u.removed ∧ u.linked = !u.removed

theorem Kept.truthful (hu : Kept u) : Truthful u := by
  constructor
  case dead => rw [hu.1]
  case beginIo =>
    intro etd
    unfold beginIoGate
    rw [hu.1]
    cases u.removed with
    | true => simp
    | false =>
        cases etd with
        | none => simp
        | some count => simp
  case processCommand =>
    unfold processCommandGate
    rw [hu.1]
    cases u.removed <;> simp

theorem deviceStep_kept {ev : DeviceEvent} (hd : ∀ u ∈ d.units, Kept u)
    (hclean : CleanOpen d ev) : ∀ u ∈ (deviceStep d ev).units, Kept u := by
  cases ev with
  | allocNvmeunit =>
      intro u hu
      rcases List.mem_append.mp hu with hu | hu
      · exact hd u hu
      · rw [List.mem_singleton.mp hu]
        exact ⟨rfl, rfl⟩
  | nsRemove n =>
      simp only [deviceStep, nsRemove]
      split
      · exact hd
      · rename_i v hv
        split
        · exact hd
        · intro u hu
          rcases List.mem_or_eq_of_mem_set hu with hu | rfl
          · exact hd u hu
          · exact ⟨bne_iff_ne.mpr (or_dead v.flags), rfl⟩
  | openLib n flags =>
      simp only [deviceStep, openLib]
      split
      · exact hd
      · rename_i v hv
        split
        · rename_i hlinked
          have hkept : Kept v := hd v (List.mem_of_getElem? hv)
          have heven := hclean v hv hlinked
          unfold unitOpen
          split
          · exact hd
          · rename_i v₁ hopen
            split at hopen
            · cases hopen
            · rename_i halive
              cases hopen
              intro u hu
              rcases List.mem_or_eq_of_mem_set hu with hu | rfl
              · exact hd u hu
              · refine ⟨?_, hkept.2⟩
                rw [isDead_opened, heven, ← hkept.1]
                simpa using halive
        · exact hd
  | closeLib n =>
      simp only [deviceStep, closeLib]
      split
      · exact hd
      · rename_i v hv
        intro u hu
        rcases List.mem_or_eq_of_mem_set hu with hu | rfl
        · exact hd u hu
        · exact hd v (List.mem_of_getElem? hv)

/-- An open that finds a live unit and sets bit 0 leaves a live unit marked dead. -/
theorem deviceStep_lies {ev : DeviceEvent} (hd : ∀ u ∈ d.units, Kept u)
    (hdirty : ¬CleanOpen d ev) : ∃ u ∈ (deviceStep d ev).units, ¬Truthful u := by
  cases ev with
  | openLib n flags =>
      simp only [CleanOpen, not_forall] at hdirty
      obtain ⟨u, hu, hlinked, hodd⟩ := hdirty
      have hkept := hd u (List.mem_of_getElem? hu)
      have hlive : u.removed = false := by
        rw [hkept.2] at hlinked
        simpa using hlinked
      have halive : u.isDead = false := hkept.1.trans hlive
      have hlt : n < d.units.length := (List.getElem?_eq_some_iff.mp hu).1
      refine ⟨{ u with flags := flags % 2 ^ 32, openCnt := u.openCnt + 1 }, ?_, ?_⟩
      · simp only [deviceStep, openLib, hu, hlinked, if_true, unitOpen, halive,
          Bool.false_eq_true, if_false]
        exact List.mem_set hlt _
      · intro htrue
        have hdead := htrue.dead.mp
        rw [isDead_opened] at hdead
        have hone : (flags % 2 == 1) = true := by
          simpa using Nat.mod_two_ne_zero.mp hodd
        have := hdead hone
        rw [hlive] at this
        cases this
  | allocNvmeunit => exact absurd trivial hdirty
  | nsRemove n => exact absurd trivial hdirty
  | closeLib n => exact absurd trivial hdirty

end Words

section Runs

variable {events : List DeviceEvent}

theorem deviceRun_snoc (before : List DeviceEvent) (ev : DeviceEvent) (d : Device) :
    deviceRun (before ++ [ev]) d = deviceStep (deviceRun before d) ev := by
  simp [deviceRun]

/-- As long as every open is clean, every word is kept. -/
theorem deviceRun_kept
    (hclean : ∀ before ev after, events = before ++ ev :: after →
      CleanOpen (deviceRun before {}) ev) :
    ∀ before after, events = before ++ after →
      ∀ u ∈ (deviceRun before {}).units, Kept u := by
  intro before
  induction before using List.reverseRecOn with
  | nil =>
      intro after _ u hu
      cases hu
  | append_singleton before ev ih =>
      intro after hsplit
      rw [List.append_assoc] at hsplit
      rw [deviceRun_snoc]
      exact deviceStep_kept (ih _ hsplit) (hclean before ev after hsplit)

/-- If the words are truthful all the way, every open was clean. -/
theorem clean_of_truthful
    (htrue : ∀ before after, events = before ++ after →
      ∀ u ∈ (deviceRun before {}).units, Truthful u) :
    ∀ before ev after, events = before ++ ev :: after →
      CleanOpen (deviceRun before {}) ev := by
  have hstep : ∀ before ev after, events = before ++ ev :: after →
      (∀ u ∈ (deviceRun before {}).units, Kept u) → CleanOpen (deviceRun before {}) ev := by
    intro before ev after hsplit hkept
    by_contra hdirty
    obtain ⟨u, hu, hlie⟩ := deviceStep_lies hkept hdirty
    rw [← deviceRun_snoc] at hu
    exact hlie (htrue (before ++ [ev]) after (by simp [hsplit]) u hu)
  have hkept : ∀ before after, events = before ++ after →
      ∀ u ∈ (deviceRun before {}).units, Kept u := by
    intro before
    induction before using List.reverseRecOn with
    | nil =>
        intro after _ u hu
        cases hu
    | append_singleton before ev ih =>
        intro after hsplit
        rw [List.append_assoc] at hsplit
        rw [deviceRun_snoc]
        exact deviceStep_kept (ih _ hsplit) (hstep before ev after hsplit (ih _ hsplit))
  exact fun before ev after hsplit => hstep before ev after hsplit (hkept before _ hsplit)

end Runs

/-- Over every run from an empty device: the dead bit means removed in every state
reached, if and only if every open that finds its unit has bit 0 of its flags clear. -/
theorem dead_means_removed_iff (events : List DeviceEvent) :
    (∀ before after, events = before ++ after →
        ∀ u ∈ (deviceRun before {}).units, Truthful u) ↔
      ∀ before ev after, events = before ++ ev :: after →
        CleanOpen (deviceRun before {}) ev :=
  ⟨clean_of_truthful, fun hclean before after hsplit u hu =>
    (deviceRun_kept hclean before after hsplit u hu).truthful⟩

/-- A client opens unit 0 with flags 1; its namespace is still there. -/
theorem open_marks_live_unit_dead :
    ∃ u ∈ (deviceRun [.allocNvmeunit, .openLib 0 1] {}).units,
      u.removed = false ∧ u.isDead = true ∧
        beginIoGate u none = some tderrDiskChanged ∧
        processCommandGate u = some tderrDiskChanged := by
  decide

/-! ### Scans -/

section Scans

variable {d : Device} {s s' : ScanState} {r : Responses}

/-- The device holds the units of the scan. -/
structure Tracks (d : Device) (s : ScanState) : Prop where
  next : d.units.length = s.nextUnitNumber
  units : ∀ v, v ∈ s.units → ∃ u, d.units[v.unitNumber]? = some u ∧ u.removed = v.dead

/-- The events of a scan. -/
def DeviceEvent.ofScan : DeviceEvent → Prop
  | .allocNvmeunit => True
  | .nsRemove _ => True
  | _ => False

/-- What a scan does to the units is allocating and removing them. -/
def Unfolds (s s' : ScanState) : Prop :=
  ∀ d, Tracks d s →
    ∃ events : List DeviceEvent, (∀ ev ∈ events, ev.ofScan) ∧ Tracks (deviceRun events d) s'

theorem Unfolds.trans {s'' : ScanState} (h : Unfolds s s') (h' : Unfolds s' s'') :
    Unfolds s s'' := by
  intro d hd
  obtain ⟨events, hscan, hd'⟩ := h d hd
  obtain ⟨events', hscan', hd''⟩ := h' _ hd'
  refine ⟨events ++ events', ?_, ?_⟩
  · intro ev hev
    rcases List.mem_append.mp hev with hev | hev
    · exact hscan ev hev
    · exact hscan' ev hev
  · unfold deviceRun at hd'' ⊢
    rw [List.foldl_append]
    exact hd''

/-- The units keep their numbers and states. -/
theorem Unfolds.same (hnext : s'.nextUnitNumber = s.nextUnitNumber)
    (hunits : ∀ v, v ∈ s'.units → ∃ v₀ ∈ s.units, v.unitNumber = v₀.unitNumber ∧
      v.dead = v₀.dead) : Unfolds s s' := by
  intro d hd
  refine ⟨[], by simp, hd.next.trans hnext.symm, ?_⟩
  intro v hv
  obtain ⟨v₀, hv₀, hnum, hdead⟩ := hunits v hv
  rw [hnum, hdead]
  exact hd.units v₀ hv₀

theorem Unfolds.refl (s : ScanState) : Unfolds s s :=
  .same rfl (fun v hv => ⟨v, hv, rfl, rfl⟩)

theorem unfolds_nsRemove (s : ScanState) (ns : NvmeNs) : Unfolds s (nvmeNsRemove s ns) := by
  cases hunit : ns.unit with
  | none =>
      refine .same rfl (fun v hv => ⟨v, ?_, rfl, rfl⟩)
      simpa [nvmeNsRemove, hunit] using hv
  | some n =>
      intro d hd
      refine ⟨[.nsRemove n], by simp [DeviceEvent.ofScan], ?_, ?_⟩
      · rw [show (nvmeNsRemove s ns).nextUnitNumber = s.nextUnitNumber from rfl, ← hd.next]
        simp only [deviceRun, List.foldl_cons, List.foldl_nil, deviceStep, nsRemove]
        split
        · rfl
        · split
          · rfl
          · simp
      · intro v hv
        simp only [nvmeNsRemove, hunit, updateUnit, List.mem_map] at hv
        obtain ⟨v₀, hv₀, rfl⟩ := hv
        obtain ⟨u, hu, hdead⟩ := hd.units v₀ hv₀
        have hlt := (List.getElem?_eq_some_iff.mp hu).1
        simp only [deviceRun, List.foldl_cons, List.foldl_nil, deviceStep, nsRemove]
        by_cases hn : v₀.unitNumber = n
        · subst hn
          simp only [hu, if_true]
          cases hrem : u.removed with
          | true =>
              simp only [if_true]
              exact ⟨u, hu, hrem⟩
          | false =>
              simp only [Bool.false_eq_true, if_false]
              exact ⟨_, List.getElem?_set_self hlt, rfl⟩
        · rw [if_neg hn]
          split
          · exact ⟨u, hu, hdead⟩
          · split
            · exact ⟨u, hu, hdead⟩
            · refine ⟨u, ?_, hdead⟩
              rw [List.getElem?_set_ne (Ne.symm hn)]
              exact hu

theorem unfolds_allocNs (s : ScanState) (r : Responses) (info : NsInfo) :
    Unfolds s (nvmeAllocNs s r info).1 := by
  unfold nvmeAllocNs
  dsimp only
  generalize (!s.ctrl.quirkBogusNid && nvmeNsIdsDuplicate s info.ids) = dup
  have hstrip : Unfolds s
      (if dup = true then { s with ctrl := { s.ctrl with quirkBogusNid := true } } else s) := by
    split
    · exact .same rfl (fun v hv => ⟨v, hv, rfl, rfl⟩)
    · exact .refl s
  refine hstrip.trans ?_
  generalize (if dup = true then { s with ctrl := { s.ctrl with quirkBogusNid := true } }
    else s) = s₁
  split
  · split
    · intro d hd
      refine ⟨[.allocNvmeunit], by simp [DeviceEvent.ofScan], ?_, ?_⟩
      · simp only [deviceRun, List.foldl_cons, List.foldl_nil, deviceStep, allocNvmeunit,
          List.length_append, List.length_singleton, hd.next]
      · intro v hv
        simp only [deviceRun, List.foldl_cons, List.foldl_nil, deviceStep, allocNvmeunit]
        rcases List.mem_append.mp hv with hv | hv
        · obtain ⟨u, hu, hdead⟩ := hd.units v hv
          refine ⟨u, ?_, hdead⟩
          rw [List.getElem?_append_left (List.getElem?_eq_some_iff.mp hu).1]
          exact hu
        · rw [List.mem_singleton.mp hv]
          refine ⟨{}, ?_, rfl⟩
          change (d.units ++ [({} : UnitWord)])[s₁.nextUnitNumber]? = some ({} : UnitWord)
          rw [← hd.next]
          simp
    · exact .same rfl (fun v hv => ⟨v, hv, rfl, rfl⟩)
  · exact .refl _

theorem unfolds_validateNs (s : ScanState) (ns : NvmeNs) (info : NsInfo) :
    Unfolds s (nvmeValidateNs s ns info) := by
  unfold nvmeValidateNs
  split
  · refine .same rfl (fun v hv => ?_)
    unfold commitNs at hv
    dsimp only at hv
    split at hv
    · exact ⟨v, hv, rfl, rfl⟩
    · simp only [updateUnit, List.mem_map] at hv
      obtain ⟨v₀, hv₀, rfl⟩ := hv
      refine ⟨v₀, hv₀, ?_⟩
      unfold nvmeUpdateNsInfo
      split
      · split <;> exact ⟨rfl, rfl⟩
      · exact ⟨rfl, rfl⟩
  · exact unfolds_nsRemove s ns

theorem unfolds_removeByNsid (s : ScanState) (nsid : Nat) :
    Unfolds s (nvmeNsRemoveByNsid s nsid) := by
  unfold nvmeNsRemoveByNsid
  split
  · exact .refl s
  · exact unfolds_nsRemove s _

/-- The scan's log and its command count are its own. -/
theorem Unfolds.logged {reads : List ScanRead} {seq : Nat} (h : Unfolds s s') :
    Unfolds s { s' with reads := reads, seq := seq } :=
  h.trans (.same rfl (fun v hv => ⟨v, hv, rfl, rfl⟩))

theorem unfolds_scanNs (s : ScanState) (r : Responses) (nsid : Nat) :
    Unfolds s (nvmeScanNs s r nsid) := by
  unfold nvmeScanNs
  dsimp only
  generalize nvmeIdentifyNsInfo s.ctrl r s.seq (NsInfo.init nsid) = g
  have hgone : Unfolds s (if g.info.isRemoved = true then
      nvmeNsRemoveByNsid { s with seq := g.seq } nsid else { s with seq := g.seq }) := by
    have hseq : Unfolds s { s with seq := g.seq } := (Unfolds.refl s).logged
    split
    · exact hseq.trans (unfolds_removeByNsid _ nsid)
    · exact hseq
  refine hgone.trans ?_
  generalize (if g.info.isRemoved = true then
    nvmeNsRemoveByNsid { s with seq := g.seq } nsid else { s with seq := g.seq }) = s₂
  split
  · exact .refl s₂
  · split
    · split
      · exact (unfolds_validateNs s₂ _ g.info).logged
      · exact (unfolds_allocNs s₂ r g.info).logged
    · exact (Unfolds.refl s₂).logged

theorem unfolds_removeAll (l : List NvmeNs) (s : ScanState) :
    Unfolds s (l.foldl nvmeNsRemove s) := by
  induction l generalizing s with
  | nil => exact .refl s
  | cons ns l ih => exact (unfolds_nsRemove s ns).trans (ih _)

theorem unfolds_removeGap (n prev : Nat) (s : ScanState) :
    Unfolds s (removeGap n prev s).1 := by
  induction n generalizing prev s with
  | zero => exact .refl s
  | succ n ih => exact (unfolds_removeByNsid s prev).trans (ih _ _)

theorem unfolds_listPage (page : List Nat) (prev : Nat) (s : ScanState) :
    Unfolds s (scanListPage r page prev s).1 := by
  induction page generalizing prev s with
  | nil => exact .refl s
  | cons nsid page ih =>
      unfold scanListPage
      split
      · exact .refl s
      · exact ((unfolds_scanNs s r nsid).trans (unfolds_removeGap _ _ _)).trans (ih _ _)

theorem unfolds_scanNsList (fuel prev : Nat) (s : ScanState) {p : ScanState × Int}
    (hscan : nvmeScanNsList r fuel prev s = some p) : Unfolds s p.1 := by
  induction fuel generalizing prev s with
  | zero => cases hscan
  | succ fuel ih =>
      unfold nvmeScanNsList at hscan
      split at hscan
      · cases hscan
        exact (Unfolds.refl s).logged
      · rename_i nsids hpage
        have hlist := @unfolds_listPage r ((nsids ++ List.replicate nsListEntries 0).take
          nsListEntries) prev { s with seq := s.seq + 1 }
        dsimp only at hscan
        generalize scanListPage r _ prev { s with seq := s.seq + 1 } = q at hlist hscan
        obtain ⟨s₁, prev₁, last⟩ := q
        have hpre : Unfolds s s₁ := ((Unfolds.refl s).logged).trans hlist
        cases last with
        | true =>
            cases hscan
            exact hpre.trans (unfolds_removeAll _ s₁)
        | false => exact hpre.trans (ih prev₁ s₁ hscan)

theorem unfolds_sequentialLoop (n i : Nat) (s : ScanState) :
    Unfolds s (scanSequentialLoop r n i s) := by
  induction n generalizing i s with
  | zero => exact .refl s
  | succ n ih => exact (unfolds_scanNs s r i).trans (ih _ _)

theorem unfolds_scanNsSequential (hscan : nvmeScanNsSequential r s = some s') :
    Unfolds s s' := by
  unfold nvmeScanNsSequential at hscan
  split at hscan
  · cases hscan
    exact (Unfolds.refl s).logged
  · split at hscan
    · cases hscan
    · cases hscan
      exact (((Unfolds.refl s).logged).trans (unfolds_sequentialLoop _ _ _)).trans
        (unfolds_removeAll _ _)

/-- A whole scan allocates and removes units, and does nothing else to their words. -/
theorem unfolds_scanNamespaces {fuel : Nat} (hscan : nvmeScanNamespaces fuel r s = some s') :
    Unfolds s s' := by
  have hunits : ∀ {ctrl : ScanCtrl} {seq : Nat} {reads : List ScanRead},
      Unfolds s { s with ctrl := ctrl, seq := seq, reads := reads } :=
    .same rfl (fun v hv => ⟨v, hv, rfl, rfl⟩)
  unfold nvmeScanNamespaces at hscan
  split at hscan
  · dsimp only at hscan
    split at hscan
    · cases hscan
      exact hunits
    · generalize hprep : (if (nvmeInitNonMdtsLimits s.ctrl r s.seq).2.1.nsChanged = true then _
        else _ : ScanState) = s₂ at hscan
      have hpre : Unfolds s s₂ := by
        rw [← hprep]
        split
        · exact hunits
        · exact hunits
      refine hpre.trans ?_
      split at hscan
      · cases hlist : nvmeScanNsList r fuel 0 s₂ with
        | none =>
            rw [hlist] at hscan
            cases hscan
        | some p =>
            rw [hlist] at hscan
            dsimp only at hscan
            have hp := unfolds_scanNsList fuel 0 s₂ hlist
            split at hscan
            · exact hp.trans (unfolds_scanNsSequential hscan)
            · cases hscan
              exact hp
      · exact unfolds_scanNsSequential hscan
  · cases hscan
    exact (Unfolds.refl s).logged

end Scans

end Units
end NvmeDriver
