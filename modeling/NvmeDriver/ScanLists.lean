import NvmeDriver.Constants
import NvmeDriver.ScanSweep

/-!
# The list scan and the sequential scan

What `nvme_scan_ns_list` and `nvme_scan_ns_sequential` leave registered when the
controller conforms and nothing fails (nvme_scan.c).  The list scan visits an active NSID
before it removes the gap below it, so a new namespace is compared with namespaces that
are about to go; a match latches the bogus-NID quirk, and every later namespace that has
an identifier is then taken for another one and removed.
-/

namespace NvmeDriver
namespace Namespace

/-! ### The active list -/

/-- One page of the active list: the smallest active NSIDs above `prev`, at most 1024, in
order. -/
structure ActivePage (A : Finset Nat) (prev : Nat) (l : List Nat) : Prop where
  ascending : l.Pairwise (· < ·)
  active : ∀ n, n ∈ l → n ∈ A ∧ prev < n
  smallest : ∀ a, a ∈ A → prev < a → a ∉ l → l.length = nsListEntries ∧ ∀ n, n ∈ l → n < a
  short : l.length ≤ nsListEntries

/-- The controller reports the active NSIDs. -/
def ReportsActive (A : Finset Nat) (r : Responses) : Prop :=
  ∀ seq prev, prev = 0 ∨ prev ∈ A → ∃ l, r.activeList seq prev = .ok l ∧ ActivePage A prev l

/-- The list scan has not come to an NSID `k` that is not active when it visits `m`. -/
def listAhead (A : Finset Nat) (m k : Nat) : Prop := ∀ a, a ∈ A → a < m → a < k

/-- A scan latches the quirk at a new namespace: it has an identifier of one that is not
active and that the scan has not come to. -/
def LatchesAt (ahead : Nat → Nat → Prop) (A : Finset Nat) (ids : Nat → NsIds) (s : ScanState)
    (m : Nat) : Prop :=
  m ∈ A ∧ ¬Registered s m ∧ ∃ ns, ns ∈ s.namespaces ∧ ns.nsId ∉ A ∧ ahead m ns.nsId ∧
    collide (ids m) ns.ids = true

/-- The quirk is set when the scan comes to an NSID. -/
def LatchedBefore (ahead : Nat → Nat → Prop) (A : Finset Nat) (ids : Nat → NsIds)
    (s : ScanState) (n : Nat) : Prop :=
  s.ctrl.quirkBogusNid = true ∨ ∃ m, m < n ∧ LatchesAt ahead A ids s m

/-- A registered namespace that is active but has an identifier the quirk hides. -/
def LosesAt (ahead : Nat → Nat → Prop) (A : Finset Nat) (ids : Nat → NsIds) (s : ScanState)
    (n : Nat) : Prop :=
  n ∈ A ∧ LatchedBefore ahead A ids s n ∧
    ∃ ns, ns ∈ s.namespaces ∧ ns.nsId = n ∧ ns.ids ≠ (ids n).bare

/-- The active NSIDs below a bound that are not registered yet. -/
def newcomers (A : Finset Nat) (s : ScanState) (k : Nat) : List Nat :=
  (List.range k).filter (fun m => decide (m ∈ A ∧ ¬Registered s m))

/-- The list scan is done with the NSIDs up to `prev`. -/
structure SweptTo (A : Finset Nat) (ids : Nat → NsIds) (s₀ : ScanState) (prev : Nat)
    (s : ScanState) : Prop where
  swept : Swept A ids s₀ (LosesAt (listAhead A) A ids s₀) (fun m => m ≤ prev)
    (newcomers A s₀ (prev + 1)) s
  quirk : s.ctrl.quirkBogusNid = true ↔ LatchedBefore (listAhead A) A ids s₀ (prev + 1)
  cursor : prev = 0 ∨ prev ∈ A

section Latching

variable {ahead : Nat → Nat → Prop} {A : Finset Nat} {ids : Nat → NsIds} {r : Responses}
  {s₀ s : ScanState} {P : Nat → Prop} {added : List Nat} {prev n : Nat}

theorem newcomers_gap (s₀ : ScanState) {k j : Nat} (hkj : k ≤ j)
    (hgap : ∀ m, k ≤ m → m < j → m ∉ A) :
    newcomers A s₀ j = newcomers A s₀ k := by
  induction j, hkj using Nat.le_induction with
  | base => rfl
  | succ j hkj ih =>
      have hout := hgap j hkj (Nat.lt_succ_self j)
      rw [← ih fun m hlo hhi => hgap m hlo (by omega)]
      unfold newcomers
      rw [List.range_succ, List.filter_append]
      simp [hout]

theorem newcomers_step (hlt : prev < n) (hgap : ∀ m, prev < m → m < n → m ∉ A) (hin : n ∈ A) :
    newcomers A s₀ (n + 1) =
      if Registered s₀ n then newcomers A s₀ (prev + 1)
      else newcomers A s₀ (prev + 1) ++ [n] := by
  rw [← newcomers_gap s₀ hlt fun m hlo hhi => hgap m hlo hhi]
  unfold newcomers
  rw [List.range_succ, List.filter_append]
  split
  · rename_i hreg
    simp [hreg]
  · rename_i hreg
    simp [hreg, hin]

/-- Between two active NSIDs the quirk is not latched. -/
theorem latchedBefore_gap (hlt : prev < n) (hgap : ∀ m, prev < m → m < n → m ∉ A) :
    LatchedBefore ahead A ids s₀ n ↔ LatchedBefore ahead A ids s₀ (prev + 1) := by
  refine or_congr_right ⟨?_, ?_⟩
  · rintro ⟨m, hm, hlatch⟩
    refine ⟨m, ?_, hlatch⟩
    by_contra hle
    exact hgap m (by omega) hm hlatch.1
  · rintro ⟨m, hm, hlatch⟩
    exact ⟨m, by omega, hlatch⟩

theorem latchedBefore_succ :
    LatchedBefore ahead A ids s₀ (n + 1) ↔
      LatchedBefore ahead A ids s₀ n ∨ LatchesAt ahead A ids s₀ n := by
  constructor
  · rintro (hq | ⟨m, hm, hlatch⟩)
    · exact .inl (.inl hq)
    · rcases Nat.lt_succ_iff_lt_or_eq.mp hm with hm | rfl
      · exact .inl (.inr ⟨m, hm, hlatch⟩)
      · exact .inr hlatch
  · rintro ((hq | ⟨m, hm, hlatch⟩) | hlatch)
    · exact .inl hq
    · exact .inr ⟨m, by omega, hlatch⟩
    · exact .inr ⟨n, Nat.lt_succ_self n, hlatch⟩

/-- A visit of an active NSID, with the state of the quirk known. -/
theorem Swept.visitActive (h : Swept A ids s₀ (LosesAt ahead A ids s₀) P added s)
    (hs : ScanStart A ids r s₀) (hnew : ¬P n) (hin : n ∈ A)
    (hquirk : s.ctrl.quirkBogusNid = true ↔ LatchedBefore ahead A ids s₀ n)
    (hahead : ∀ ns, ns ∈ s₀.namespaces → ns.nsId ∉ A → (ahead n ns.nsId ↔ ¬P ns.nsId)) :
    Swept A ids s₀ (LosesAt ahead A ids s₀) (fun m => P m ∨ m = n)
        (if Registered s₀ n then added else added ++ [n]) (nvmeScanNs s r n) ∧
      ((nvmeScanNs s r n).ctrl.quirkBogusNid = true ↔
        LatchedBefore ahead A ids s₀ (n + 1)) := by
  -- a registered namespace is lost if the quirk hides an identifier of it
  have hlost : ∀ ns, ns ∈ s₀.namespaces → ns.nsId = n →
      (LosesAt ahead A ids s₀ n ↔ ns.ids ≠ idsAt ids s.ctrl.quirkBogusNid n) := by
    rintro ns hns rfl
    cases hb : s.ctrl.quirkBogusNid with
    | true =>
        constructor
        · rintro ⟨-, -, m, hm, hmid, hne⟩
          rw [← List.inj_on_of_nodup_map hs.distinct hm hns hmid]
          rw [← hmid] at hne
          exact hne
        · exact fun hne => ⟨hin, hquirk.mp hb, ns, hns, rfl, hne⟩
    | false =>
        have hnot : ¬LatchedBefore ahead A ids s₀ ns.nsId := fun hl => by
          simp [hquirk.mpr hl] at hb
        refine iff_of_false (fun hl => hnot hl.2.1) (not_not.mpr ?_)
        refine (hs.unchanged ns hns hin).resolve_right fun hbare => ?_
        exact hnot (.inl hbare.1)
  have hfresh : ¬Registered s₀ n → ¬LosesAt ahead A ids s₀ n := by
    rintro hfree ⟨-, -, ns, hns, rfl, -⟩
    exact hfree (List.mem_map_of_mem hns)
  have hlatch : LatchesAt ahead A ids s₀ n ↔
      ¬Registered s₀ n ∧ StaleCollision A ids s₀ P n := by
    constructor
    · rintro ⟨-, hfree, ns, hns, hout, hah, hcol⟩
      exact ⟨hfree, ns, hns, (hahead ns hns hout).mp hah, hout, hcol⟩
    · rintro ⟨hfree, ns, hns, hnot, hout, hcol⟩
      exact ⟨hin, hfree, ns, hns, hout, (hahead ns hns hout).mpr hnot, hcol⟩
  obtain ⟨hvisit, hq⟩ := h.visit hs hnew hin hlost hfresh
  refine ⟨hvisit, ?_⟩
  rw [hq, hquirk, latchedBefore_succ, hlatch]

end Latching

section ListScan

variable {A : Finset Nat} {ids : Nat → NsIds} {r : Responses} {s₀ s : ScanState}
  {prev n : Nat}

theorem removeGap_ctrl (k : Nat) :
    ∀ (first : Nat) (s : ScanState), (removeGap k first s).1.ctrl = s.ctrl := by
  induction k with
  | zero => exact fun _ _ => rfl
  | succ k ih =>
      intro first s
      refine (ih _ _).trans ?_
      unfold nvmeNsRemoveByNsid
      cases nvmeFindNs s first <;> rfl

/-- One entry of the active list. -/
theorem SweptTo.entry (h : SweptTo A ids s₀ prev s) (hs : ScanStart A ids r s₀)
    (hlt : prev < n) (hgap : ∀ m, prev < m → m < n → m ∉ A) (hin : n ∈ A) :
    SweptTo A ids s₀ n (removeGap (n - (prev + 1)) (prev + 1) (nvmeScanNs s r n)).1 := by
  have hahead : ∀ ns, ns ∈ s₀.namespaces → ns.nsId ∉ A →
      (listAhead A n ns.nsId ↔ ¬ns.nsId ≤ prev) := by
    intro ns hns _
    constructor
    · intro hall hle
      rcases h.cursor with rfl | hprev
      · have := hs.positive ns hns
        omega
      · have := hall prev hprev hlt
        omega
    · intro hnot a ha han
      by_contra hle
      exact hgap a (by omega) han ha
  obtain ⟨hvisit, hq⟩ := h.swept.visitActive hs (Nat.not_le.mpr hlt) hin
    (h.quirk.trans (latchedBefore_gap hlt hgap).symm) hahead
  refine ⟨?_, ?_, .inr hin⟩
  · rw [← newcomers_step hlt hgap hin] at hvisit
    refine (Swept.removeGap hs _ _ hvisit fun m hlo hhi => ?_).iff fun m => ?_
    · refine ⟨fun hp => ?_, hgap m (by omega) (by omega)⟩
      omega
    · omega
  · rw [removeGap_ctrl]
    exact hq

/-- The entries of a page, one after the other. -/
theorem SweptTo.entries (hs : ScanStart A ids r s₀) (l rest : List Nat) :
    ∀ {prev : Nat} {s : ScanState}, SweptTo A ids s₀ prev s → l.Pairwise (· < ·) →
      (∀ n, n ∈ l → n ∈ A ∧ prev < n) →
      (∀ a, a ∈ A → prev < a → a ∉ l → ∀ n, n ∈ l → n < a) →
      ∃ prev' s', scanListPage r (l ++ rest) prev s = scanListPage r rest prev' s' ∧
        SweptTo A ids s₀ prev' s' ∧ prev ≤ prev' ∧ (∀ n, n ∈ l → n ≤ prev') ∧
        (l ≠ [] → prev < prev') := by
  induction l with
  | nil =>
      intro prev s h _ _ _
      exact ⟨prev, s, rfl, h, Nat.le_refl _, fun n hn => (nomatch hn), fun hne => absurd rfl hne⟩
  | cons n l ih =>
      intro prev s h hasc hact hsmall
      rw [List.pairwise_cons] at hasc
      obtain ⟨hin, hlt⟩ := hact n List.mem_cons_self
      obtain ⟨hpos, hbound⟩ := hs.conforming.valid n hin
      have hgap : ∀ m, prev < m → m < n → m ∉ A := by
        intro m hlo hhi hm
        have hnot : m ∉ n :: l := by
          rintro hmem
          rcases List.mem_cons.mp hmem with rfl | hmem
          · exact Nat.lt_irrefl _ hhi
          · exact Nat.lt_asymm hhi (hasc.1 m hmem)
        exact Nat.lt_asymm hhi (hsmall m hm hlo hnot n List.mem_cons_self)
      have hfirst : (prev + 1) % 2 ^ 32 = prev + 1 := Nat.mod_eq_of_lt (by omega)
      have hcursor : (removeGap (n - (prev + 1)) (prev + 1) (nvmeScanNs s r n)).2 = n := by
        rw [removeGap_eq (r := r)]
        change prev + 1 + (n - (prev + 1)) = n
        omega
      obtain ⟨prev', s', hpage, hswept, hle, hall, -⟩ := ih (h.entry hs hlt hgap hin) hasc.2
        (fun m hm => ⟨(hact m (List.mem_cons_of_mem _ hm)).1, hasc.1 m hm⟩)
        (fun a ha hna hnot m hm => hsmall a ha (by omega)
          (fun hmem => (List.mem_cons.mp hmem).elim (fun he => by omega) hnot) m
          (List.mem_cons_of_mem _ hm))
      refine ⟨prev', s', ?_, hswept, by omega, ?_, fun _ => by omega⟩
      · rw [List.cons_append, scanListPage, if_neg (by omega : ¬n = 0)]
        dsimp only
        rw [hfirst, hcursor]
        exact hpage
      · intro m hm
        rcases List.mem_cons.mp hm with rfl | hm
        · exact hle
        · exact hall m hm

/-- The list scan ends, and is done with every NSID. -/
theorem SweptTo.list (hs : ScanStart A ids r s₀) (hrep : ReportsActive A r) (fuel : Nat) :
    ∀ {prev : Nat} {s : ScanState}, SweptTo A ids s₀ prev s →
      (A.filter (fun a => prev < a)).card < fuel →
      ∃ s₁ last, nvmeScanNsList r fuel prev s = some (s₁, 0) ∧ (∀ a, a ∈ A → a ≤ last) ∧
        Swept A ids s₀ (LosesAt (listAhead A) A ids s₀) (fun _ => True)
          (newcomers A s₀ (last + 1)) s₁ := by
  induction fuel with
  | zero =>
      intro prev s _ hfuel
      omega
  | succ fuel ih =>
      intro prev s h hfuel
      obtain ⟨l, hlist, hpage⟩ := hrep s.seq prev h.cursor
      have hsmall : ∀ a, a ∈ A → prev < a → a ∉ l → ∀ n, n ∈ l → n < a :=
        fun a ha hlt hnot => (hpage.smallest a ha hlt hnot).2
      have h' : SweptTo A ids s₀ prev { s with seq := s.seq + 1 } :=
        ⟨h.swept.congr rfl, h.quirk, h.cursor⟩
      unfold nvmeScanNsList
      rw [hlist]
      dsimp only
      rcases Nat.lt_or_ge l.length nsListEntries with hshort | hfull
      · -- the page ends with a zero, and holds all that is left
        obtain ⟨zeros, hzeros⟩ : ∃ zeros,
            (l ++ List.replicate nsListEntries 0).take nsListEntries = l ++ 0 :: zeros := by
          obtain ⟨d, hd⟩ : ∃ d, nsListEntries = l.length + (d + 1) :=
            ⟨nsListEntries - l.length - 1, by omega⟩
          refine ⟨List.replicate d 0, ?_⟩
          rw [List.take_append, List.take_of_length_le (by omega), List.take_replicate, hd,
            Nat.add_sub_cancel_left, Nat.min_eq_left (by omega), List.replicate_succ]
        obtain ⟨prev', s', hrun, hswept, hle, hall, -⟩ := SweptTo.entries hs l (0 :: zeros) h'
          hpage.ascending hpage.active hsmall
        have hlast : ∀ a, a ∈ A → a ≤ prev' := by
          intro a ha
          by_cases hlt : prev < a
          · by_cases hmem : a ∈ l
            · exact hall a hmem
            · have := (hpage.smallest a ha hlt hmem).1
              omega
          · omega
        refine ⟨nvmeRemoveInvalidNamespaces s' prev', prev', ?_, hlast, ?_⟩
        · rw [hzeros, hrun]
          rfl
        · refine (hswept.swept.cut hs fun m hm => ?_).iff fun m => ?_
          · refine ⟨Nat.not_le.mpr hm, fun ha => ?_⟩
            have := hlast m ha
            omega
          · refine iff_of_true ?_ trivial
            omega
      · -- a full page: the next one starts after its last entry
        have htake : (l ++ List.replicate nsListEntries 0).take nsListEntries = l ++ [] := by
          rw [List.append_nil, List.take_append_of_le_length hfull,
            List.take_of_length_le hpage.short]
        have hne : l ≠ [] := by
          rintro rfl
          exact absurd hfull (by decide)
        obtain ⟨prev', s', hrun, hswept, hle, hall, hadv⟩ := SweptTo.entries hs l [] h'
          hpage.ascending hpage.active hsmall
        rw [htake, hrun]
        refine ih hswept ?_
        have hcard : (A.filter (fun a => prev' < a)).card <
            (A.filter (fun a => prev < a)).card := by
          obtain ⟨x, hx⟩ := List.exists_mem_of_ne_nil l hne
          refine Finset.card_lt_card (Finset.ssubset_iff_of_subset ?_ |>.mpr ⟨x, ?_, ?_⟩)
          · intro a ha
            rw [Finset.mem_filter] at ha ⊢
            exact ⟨ha.1, by omega⟩
          · exact Finset.mem_filter.mpr (hpage.active x hx)
          · rw [Finset.mem_filter]
            have := hall x hx
            omega
        omega

/-- A scan begins. -/
theorem SweptTo.start (hs : ScanStart A ids r s₀) : SweptTo A ids s₀ 0 s₀ := by
  have hzero : 0 ∉ A := fun h => Nat.lt_irrefl 0 (hs.conforming.valid 0 h).1
  have hempty : newcomers A s₀ (0 + 1) = [] := newcomers_gap s₀ (Nat.zero_le 1)
    fun m _ hm => by
      have : m = 0 := by omega
      exact this ▸ hzero
  refine ⟨?_, ?_, .inl rfl⟩
  · rw [hempty]
    refine ((Swept.init hs.distinct (P := fun _ => False) fun _ h => h).widen
      (Q := fun m => m ≤ 0) ?_).iff fun m => or_iff_right id
    intro m hm _
    obtain rfl : m = 0 := by omega
    refine ⟨fun hreg => ?_, hzero⟩
    obtain ⟨ns, hns, hid⟩ := List.mem_map.mp hreg
    have := hs.positive ns hns
    omega
  · refine ⟨.inl, ?_⟩
    rintro (hq | ⟨m, hm, hlatch⟩)
    · exact hq
    · obtain rfl : m = 0 := by omega
      exact absurd hlatch.1 hzero

end ListScan

/-! ### What the list scan registers -/

/-- The unit belongs to a namespace that is not active any more. -/
def StaleUnit (A : Finset Nat) (s : ScanState) (k : Nat) : Prop :=
  ∃ ns, ns ∈ s.namespaces ∧ ns.nsId ∉ A ∧ ns.unit = some k

instance (A : Finset Nat) (s : ScanState) (k : Nat) : Decidable (StaleUnit A s k) :=
  List.decidableBEx _ s.namespaces

/-- After a scan from `s` exactly the active NSIDs are registered, each once; a namespace
that was registered has its unit still, and exactly the units of NSIDs that are not active
have died. -/
def RegistersExactly (A : Finset Nat) (s s₁ : ScanState) : Prop :=
  (∀ n, Registered s₁ n ↔ n ∈ A) ∧ (s₁.namespaces.map NvmeNs.nsId).Nodup ∧
    (∀ ns, ns ∈ s.namespaces → ns.nsId ∈ A →
      ∃ ns', ns' ∈ s₁.namespaces ∧ ns'.nsId = ns.nsId ∧ ns'.unit = ns.unit) ∧
    ∃ fresh, s₁.units.map unitKey =
        s.units.map (fun u =>
          (u.unitNumber, u.nsid, u.dead || decide (StaleUnit A s u.unitNumber))) ++ fresh ∧
      ∀ x, x ∈ fresh → x.2.2 = false

theorem newUnits_live (k : Nat) (l : List Nat) : ∀ x, x ∈ newUnits k l → x.2.2 = false := by
  induction l generalizing k with
  | nil => exact fun x hx => (nomatch hx)
  | cons n l ih =>
      intro x hx
      rcases List.mem_cons.mp hx with rfl | hx
      · rfl
      · exact ih _ x hx

/-- For every finite set of active NSIDs, every conforming controller and every starting
state: the list scan ends, and registers exactly the active NSIDs if and only if no
registered active namespace has an identifier that the bogus-NID quirk hides when the scan
comes to it. -/
theorem list_scan_registers_exactly_iff (A : Finset Nat) (ids : Nat → NsIds) (r : Responses)
    (s : ScanState) (hs : ScanStart A ids r s) (hrep : ReportsActive A r) (fuel : Nat)
    (hfuel : A.card < fuel) :
    ∃ s₁, nvmeScanNsList r fuel 0 s = some (s₁, 0) ∧
      (RegistersExactly A s s₁ ↔ ∀ n, ¬LosesAt (listAhead A) A ids s n) := by
  obtain ⟨s₁, last, hrun, -, hswept⟩ := SweptTo.list hs hrep fuel (SweptTo.start hs)
    (lt_of_le_of_lt (Finset.card_filter_le _ _) hfuel)
  refine ⟨s₁, hrun, ?_, fun hkeep => ?_⟩
  · rintro ⟨hreg, -⟩ n hlost
    exact ((hswept.behind n trivial).mp ((hreg n).mpr hlost.1)).2 hlost
  · refine ⟨fun n => ?_, hswept.distinct, ?_, ?_⟩
    · rw [hswept.behind n trivial]
      exact and_iff_left (hkeep n)
    · exact fun ns hns hin => hswept.bound ns hns trivial hin (hkeep ns.nsId)
    · refine ⟨newUnits s.nextUnitNumber (newcomers A s (last + 1)), ?_, newUnits_live _ _⟩
      rw [hswept.units]
      refine congrArg (· ++ _) (List.map_congr_left fun u _ => ?_)
      refine Prod.ext rfl (Prod.ext rfl (congrArg (u.dead || ·) ?_))
      refine decide_eq_decide.mpr ?_
      constructor
      · rintro ⟨ns, hns, -, hout, hu⟩
        exact ⟨ns, hns, hout.resolve_right (hkeep ns.nsId), hu⟩
      · rintro ⟨ns, hns, hout, hu⟩
        exact ⟨ns, hns, trivial, .inl hout, hu⟩

/-- An EUI-64 that ends in the given byte. -/
def euiOf (tail : Nat) : List Nat := [0, 0x25, 0x38, 0, 0, 0, 0, tail]

def eui (tail : Nat) : NsIds := { NsIds.zero with eui64 := euiOf tail }

/-- A controller with the namespaces 2 and 3; the identifier of the first is given. -/
def twoActive (tail : Nat) : Responses :=
  { soleNamespace 0 with
    descs := fun _ nsid => if nsid = 2 ∨ nsid = 3 then .ok [] else .error 0x400b
    ns := fun _ nsid =>
      if nsid = 2 then .ok { gibibyteNs 0 with eui64 := euiOf tail }
      else if nsid = 3 then .ok { gibibyteNs 0 with eui64 := euiOf 3 }
      else .ok { gibibyteNs 0 with ncap := 0 }
    ctrlNn := fun _ => .ok 3
    activeList := fun _ prev => .ok ([2, 3].filter (fun n => prev < n)) }

def twoActiveIds (tail n : Nat) : NsIds := if n = 2 then eui tail else eui 3

/-- The driver with the namespaces 1 and 3 registered, whose units are 0 and 1, on a
controller of version 1.2 or 1.3. -/
def oneAndThree (minor : Nat) : ScanState :=
  { unscanned { plainCtrl with vs := nvmeVs 1 minor } 2 with
    namespaces :=
      [{ freshNs { NsInfo.init 1 with ids := eui 1 } with unit := some 0 },
        { freshNs { NsInfo.init 3 with ids := eui 3 } with unit := some 1 }]
    units := [unitOfInfo 2048 0 (NsInfo.init 1), unitOfInfo 2048 1 (NsInfo.init 3)] }

theorem twoActive_start {tail minor : Nat} (htail : tail = 1 ∨ tail = 2)
    (hminor : minor = 2 ∨ minor = 3) :
    ScanStart {2, 3} (twoActiveIds tail) (twoActive tail) (oneAndThree minor) where
  conforming :=
    { valid := by decide
      ready := by
        intro n hn seq
        rw [Finset.mem_insert, Finset.mem_singleton] at hn
        rcases hn with rfl | rfl
        · rcases htail with rfl | rfl <;> rcases hminor with rfl | rfl <;> exact ⟨rfl, rfl, rfl⟩
        · rcases hminor with rfl | rfl <;> exact ⟨rfl, rfl, rfl⟩
      separate := by rcases htail with rfl | rfl <;> decide
      allocNs := fun _ => rfl
      allocUnit := fun _ => rfl }
  distinct := (by decide : ([1, 3] : List Nat).Nodup)
  positive := by
    intro ns hns
    rcases List.mem_pair.mp hns with rfl | rfl <;> decide
  unitBound := by
    intro ns hns k hk
    rcases List.mem_pair.mp hns with rfl | rfl
    · cases hk
      exact (by decide : 0 < 2)
    · cases hk
      exact (by decide : 1 < 2)
  unchanged := by
    intro ns hns hin
    rcases List.mem_pair.mp hns with rfl | rfl
    · exact absurd hin (by decide)
    · exact .inl rfl

theorem twoActive_reports (tail : Nat) : ReportsActive {2, 3} (twoActive tail) := by
  intro seq prev _
  refine ⟨_, rfl, ?_, ?_, ?_, ?_⟩
  · exact List.Pairwise.filter _ (by decide)
  · intro n hn
    rw [List.mem_filter] at hn
    exact ⟨by simpa using hn.1, by simpa using hn.2⟩
  · intro a ha hlt hnot
    refine absurd (List.mem_filter.mpr ⟨?_, ?_⟩) hnot
    · simpa using ha
    · simpa using hlt
  · exact le_trans (List.length_filter_le _ _) (by decide)

/-- No new namespace collides with a registered one. -/
theorem twoActive_latches (ahead : Nat → Nat → Prop) {minor : Nat} (n : Nat) :
    ¬LosesAt ahead {2, 3} (twoActiveIds 2) (oneAndThree minor) n := by
  rintro ⟨-, hlatch, -⟩
  rcases hlatch with hq | ⟨m, -, hm, hfree, ns, hns, -, -, hcol⟩
  · cases hq
  · rw [Finset.mem_insert, Finset.mem_singleton] at hm
    rcases hm with rfl | rfl
    · rcases List.mem_pair.mp hns with rfl | rfl
      · exact absurd hcol (by decide)
      · exact absurd hcol (by decide)
    · exact hfree (List.mem_map_of_mem (List.mem_cons_of_mem _ List.mem_cons_self))

/-- Namespace 2 is new, namespace 1 is gone, and they have different identifiers. -/
theorem list_scan_registers_exactly_two :
    ∃ s₁, nvmeScanNsList (twoActive 2) 3 0 (oneAndThree 2) = some (s₁, 0) ∧
      RegistersExactly {2, 3} (oneAndThree 2) s₁ := by
  obtain ⟨s₁, hrun, hiff⟩ := list_scan_registers_exactly_iff {2, 3} (twoActiveIds 2)
    (twoActive 2) (oneAndThree 2) (twoActive_start (.inr rfl) (.inl rfl)) (twoActive_reports 2)
    3 (by decide)
  exact ⟨s₁, hrun, hiff.mpr (twoActive_latches _)⟩

/-- Namespace 2 is new and has the identifier namespace 1 had, which is gone: the quirk is
latched, and namespace 3 is removed although it is active and unchanged. -/
theorem list_scan_loses_active :
    ScanStart {2, 3} (twoActiveIds 1) (twoActive 1) (oneAndThree 2) ∧
      ReportsActive {2, 3} (twoActive 1) ∧
      ∃ s₁, nvmeScanNsList (twoActive 1) 3 0 (oneAndThree 2) = some (s₁, 0) ∧
        ¬Registered s₁ 3 ∧ ¬RegistersExactly {2, 3} (oneAndThree 2) s₁ := by
  have hgone : ∀ s₁, nvmeScanNsList (twoActive 1) 3 0 (oneAndThree 2) = some (s₁, 0) →
      ¬Registered s₁ 3 := by
    intro s₁ h
    cases h
    decide
  refine ⟨twoActive_start (.inl rfl) (.inl rfl), twoActive_reports 1, _, rfl, hgone _ rfl, ?_⟩
  exact fun h => hgone _ rfl ((h.1 3).mpr (by decide))

/-! ### The sequential scan -/

/-- `nvme_identify_ns_descs` sends its command. -/
def descsConsulted (c : ScanCtrl) : Bool :=
  (decide (nvmeVs 1 3 ≤ c.vs) || c.multiCss) && !c.quirkNoNsDescList

/-- A controller with NSIDs up to `nn`: of an inactive one it returns zeros for Identify
Namespace and an Invalid Namespace status for the descriptor list. -/
structure InactiveAnswers (A : Finset Nat) (nn : Nat) (r : Responses) : Prop where
  bound : nn < 2 ^ 32 - 1
  count : ∀ seq, r.ctrlNn seq = .ok nn
  active : ∀ n, n ∈ A → n ≤ nn
  zeros : ∀ n, 0 < n → n ≤ nn → n ∉ A → ∀ seq, ∃ id, r.ns seq n = .ok id ∧ id.ncap = 0
  invalid : ∀ n, 0 < n → n ≤ nn → n ∉ A → ∀ seq,
    ∃ e : Nat, r.descs seq n = .error (e : Int) ∧ e % 0x800 = nvmeScInvalidNs

/-- The sequential scan has not removed an NSID `k` that is not active when it visits `m`;
where the descriptor list is consulted it removes none up to `nn`. -/
def seqAhead (consulted : Bool) (m k : Nat) : Prop := consulted = true ∨ m < k

/-- The NSIDs the sequential scan is done with. -/
def seqDone (consulted : Bool) (A : Finset Nat) (i m : Nat) : Prop :=
  m ≤ i ∧ (m ∈ A ∨ consulted = false ∨ m = 0)

section Sequential

variable {A : Finset Nat} {ids : Nat → NsIds} {r : Responses} {s₀ s : ScanState}
  {nn i n : Nat}

theorem nsid_init (n : Nat) : (NsInfo.init n).nsid = n := rfl

/-- A visit of an inactive NSID: the failing descriptor list hides that it is gone. -/
theorem nvmeScanNs_inactive (hi : InactiveAnswers A nn r) (s : ScanState) (hpos : 0 < n)
    (hle : n ≤ nn) (hout : n ∉ A) :
    owned (nvmeScanNs s r n) =
      owned (if descsConsulted s.ctrl then s else nvmeNsRemoveByNsid s n) := by
  have hscan : nvmeScanNs s r n =
      scanWith s r n (nvmeIdentifyNsInfo s.ctrl r s.seq (NsInfo.init n)) := rfl
  rw [hscan]
  cases hcon : descsConsulted s.ctrl with
  | true =>
      obtain ⟨e, he, hsc⟩ := hi.invalid n hpos hle hout s.seq
      have hne : (e : Int) ≠ 0 := by
        have : nvmeScInvalidNs = 0xb := rfl
        omega
      have hdescs : nvmeIdentifyNsDescs s.ctrl r s.seq (NsInfo.init n) =
          ⟨e, NsInfo.init n, s.seq + 1⟩ := by
        unfold descsConsulted at hcon
        have hvs : ¬(s.ctrl.vs < nvmeVs 1 3 ∧ s.ctrl.multiCss = false) := by
          rintro ⟨h₁, h₂⟩
          rw [h₂, decide_eq_false (by omega)] at hcon
          cases hcon
        have hquirk : ¬s.ctrl.quirkNoNsDescList = true := by
          intro h
          rw [h, Bool.not_true, Bool.and_false] at hcon
          cases hcon
        unfold nvmeIdentifyNsDescs
        rw [if_neg hvs, if_neg hquirk]
        rw [nsid_init, he]
      have hgather : nvmeIdentifyNsInfo s.ctrl r s.seq (NsInfo.init n) =
          ⟨e, NsInfo.init n, s.seq + 1⟩ := by
        unfold nvmeIdentifyNsInfo
        rw [hdescs]
        exact if_pos hne
      rw [hgather]
      unfold scanWith
      simp only [hne, ne_eq, not_false_eq_true, if_true]
      rfl
  | false =>
      have hdescs : nvmeIdentifyNsDescs s.ctrl r s.seq (NsInfo.init n) =
          ⟨0, NsInfo.init n, s.seq⟩ := by
        unfold nvmeIdentifyNsDescs
        by_cases hvs : s.ctrl.vs < nvmeVs 1 3 ∧ s.ctrl.multiCss = false
        · rw [if_pos hvs]
        · rw [if_neg hvs]
          refine if_pos ?_
          unfold descsConsulted at hcon
          cases hq : s.ctrl.quirkNoNsDescList with
          | true => rfl
          | false =>
              rw [hq] at hcon
              refine absurd ?_ hvs
              simpa using hcon
      obtain ⟨id, hid, hcap⟩ := hi.zeros n hpos hle hout s.seq
      have hgather : nvmeIdentifyNsInfo s.ctrl r s.seq (NsInfo.init n) =
          ⟨errNoDev, { NsInfo.init n with isRemoved := true }, s.seq + 1⟩ := by
        have hns : nvmeNsInfoFromIdentify s.ctrl r s.seq (NsInfo.init n) =
            ⟨errNoDev, { NsInfo.init n with isRemoved := true }, s.seq + 1⟩ := by
          unfold nvmeNsInfoFromIdentify
          rw [nsid_init, hid]
          exact if_pos hcap
        unfold nvmeIdentifyNsInfo
        rw [hdescs]
        dsimp only
        rw [if_neg (not_not.mpr rfl), if_neg (fun h => h.1 rfl), hns]
        exact if_pos (show errNoDev ≠ 0 by decide)
      rw [hgather]
      unfold scanWith
      have hne : errNoDev ≠ 0 := by decide
      simp only [hne, ne_eq, not_false_eq_true, if_true]
      exact nvmeNsRemoveByNsid_seq s n (s.seq + 1)

/-- The sequential scan is done with the NSIDs up to `i`. -/
structure SweptSeq (A : Finset Nat) (ids : Nat → NsIds) (s₀ : ScanState) (i : Nat)
    (s : ScanState) : Prop where
  swept : Swept A ids s₀ (LosesAt (seqAhead (descsConsulted s₀.ctrl)) A ids s₀)
    (seqDone (descsConsulted s₀.ctrl) A i) (newcomers A s₀ (i + 1)) s
  quirk : s.ctrl.quirkBogusNid = true ↔
    LatchedBefore (seqAhead (descsConsulted s₀.ctrl)) A ids s₀ (i + 1)

theorem SweptSeq.start (hs : ScanStart A ids r s₀) : SweptSeq A ids s₀ 0 s₀ := by
  have hzero : 0 ∉ A := fun h => Nat.lt_irrefl 0 (hs.conforming.valid 0 h).1
  refine ⟨?_, ?_⟩
  · have hempty : newcomers A s₀ (0 + 1) = [] := newcomers_gap s₀ (Nat.zero_le 1)
      fun m _ hm => by
        have : m = 0 := by omega
        exact this ▸ hzero
    rw [hempty]
    refine ((Swept.init hs.distinct (P := fun _ => False) fun _ h => h).widen
      (Q := seqDone (descsConsulted s₀.ctrl) A 0) ?_).iff fun m => or_iff_right id
    rintro m ⟨hm, -⟩ _
    obtain rfl : m = 0 := by omega
    refine ⟨fun hreg => ?_, hzero⟩
    obtain ⟨ns, hns, hid⟩ := List.mem_map.mp hreg
    have := hs.positive ns hns
    omega
  · refine ⟨.inl, ?_⟩
    rintro (hq | ⟨m, hm, hlatch⟩)
    · exact hq
    · obtain rfl : m = 0 := by omega
      exact absurd hlatch.1 hzero

/-- One turn of the sequential scan. -/
theorem SweptSeq.turn (h : SweptSeq A ids s₀ i s) (hs : ScanStart A ids r s₀)
    (hi : InactiveAnswers A nn r) (hle : i + 1 ≤ nn) :
    SweptSeq A ids s₀ (i + 1) (nvmeScanNs s r (i + 1)) := by
  have hcon : descsConsulted s.ctrl = descsConsulted s₀.ctrl := by
    rw [h.swept.ctrl]
    rfl
  have hnew : ¬seqDone (descsConsulted s₀.ctrl) A i (i + 1) := fun hd => by
    have := hd.1
    omega
  by_cases hin : i + 1 ∈ A
  · have hahead : ∀ ns, ns ∈ s₀.namespaces → ns.nsId ∉ A →
        (seqAhead (descsConsulted s₀.ctrl) (i + 1) ns.nsId ↔
          ¬seqDone (descsConsulted s₀.ctrl) A i ns.nsId) := by
      intro ns hns hout
      have hpos := hs.positive ns hns
      have hne : ns.nsId ≠ i + 1 := fun he => hout (he ▸ hin)
      unfold seqAhead seqDone
      cases descsConsulted s₀.ctrl with
      | true => exact iff_of_true (.inl rfl) fun h => h.2.elim hout fun h => by simp at h; omega
      | false =>
          constructor
          · rintro (hf | hlt) ⟨hle, -⟩
            · cases hf
            · omega
          · intro hnot
            right
            by_contra hle
            exact hnot ⟨by omega, .inr (.inl rfl)⟩
    obtain ⟨hvisit, hq⟩ := h.swept.visitActive hs hnew hin h.quirk hahead
    refine ⟨?_, hq⟩
    rw [newcomers_step (Nat.lt_succ_self i) (fun m hlo hhi => by omega) hin]
    refine hvisit.iff fun m => ?_
    constructor
    · rintro (⟨hm, hwhy⟩ | rfl)
      · exact ⟨by omega, hwhy⟩
      · exact ⟨Nat.le_refl _, .inl hin⟩
    · rintro ⟨hm, hwhy⟩
      by_cases he : m = i + 1
      · exact .inr he
      · exact .inl ⟨by omega, hwhy⟩
  · have howned := nvmeScanNs_inactive hi s (Nat.succ_pos i) hle hin
    rw [hcon] at howned
    have hgap : newcomers A s₀ (i + 1 + 1) = newcomers A s₀ (i + 1) :=
      newcomers_gap s₀ (Nat.le_succ _) fun m hlo hhi => by
        obtain rfl : m = i + 1 := by omega
        exact hin
    have hlatch : LatchedBefore (seqAhead (descsConsulted s₀.ctrl)) A ids s₀ (i + 1 + 1) ↔
        LatchedBefore (seqAhead (descsConsulted s₀.ctrl)) A ids s₀ (i + 1) := by
      rw [latchedBefore_succ]
      exact or_iff_left fun hl => hin hl.1
    cases hb : descsConsulted s₀.ctrl with
    | true =>
        rw [hb] at howned
        have hsame : owned (nvmeScanNs s r (i + 1)) = owned s := howned
        refine ⟨?_, ?_⟩
        · rw [hgap]
          refine (h.swept.congr hsame).iff fun m => ?_
          rw [hb]
          constructor
          · rintro ⟨hm, hwhy⟩
            exact ⟨by omega, hwhy⟩
          · rintro ⟨hm, hwhy⟩
            refine ⟨?_, hwhy⟩
            by_contra hgt
            obtain rfl : m = i + 1 := by omega
            rcases hwhy with ha | hf | hz
            · exact hin ha
            · cases hf
            · omega
        · rw [hlatch, (owned_eq hsame).1]
          exact h.quirk
    | false =>
        rw [hb] at howned
        have hsame : owned (nvmeScanNs s r (i + 1)) = owned (nvmeNsRemoveByNsid s (i + 1)) :=
          howned
        have hctrl : (nvmeNsRemoveByNsid s (i + 1)).ctrl = s.ctrl := by
          unfold nvmeNsRemoveByNsid
          cases nvmeFindNs s (i + 1) <;> rfl
        refine ⟨?_, ?_⟩
        · rw [hgap]
          refine ((h.swept.removeByNsid hs hnew hin).congr hsame).iff fun m => ?_
          rw [hb]
          constructor
          · rintro (⟨hm, hwhy⟩ | rfl)
            · exact ⟨by omega, hwhy⟩
            · exact ⟨Nat.le_refl _, .inr (.inl rfl)⟩
          · rintro ⟨hm, hwhy⟩
            by_cases he : m = i + 1
            · exact .inr he
            · exact .inl ⟨by omega, hwhy⟩
        · rw [hlatch, (owned_eq hsame).1, hctrl]
          exact h.quirk

/-- The loop of the sequential scan. -/
theorem SweptSeq.loop (hs : ScanStart A ids r s₀) (hi : InactiveAnswers A nn r) (k : Nat) :
    ∀ {i : Nat} {s : ScanState}, SweptSeq A ids s₀ i s → i + k ≤ nn →
      SweptSeq A ids s₀ (i + k) (scanSequentialLoop r k (i + 1) s) := by
  induction k with
  | zero => exact fun h _ => h
  | succ k ih =>
      intro i s h hle
      have hnext := ih (h.turn hs hi (by omega)) (by omega)
      have hsum : i + 1 + k = i + (k + 1) := by omega
      rw [hsum] at hnext
      exact hnext

/-- The sequential scan ends; what it is done with are the active NSIDs, those above `nn`,
and the others if the descriptor list is not consulted. -/
theorem SweptSeq.all (hs : ScanStart A ids r s₀) (hi : InactiveAnswers A nn r) :
    ∃ s₁, nvmeScanNsSequential r s₀ = some s₁ ∧
      Swept A ids s₀ (LosesAt (seqAhead (descsConsulted s₀.ctrl)) A ids s₀)
        (fun m => seqDone (descsConsulted s₀.ctrl) A nn m ∨ nn < m)
        (newcomers A s₀ (nn + 1)) s₁ := by
  have hstart : SweptSeq A ids s₀ 0 { s₀ with seq := s₀.seq + 1 } :=
    ⟨(SweptSeq.start hs).swept.congr rfl, (SweptSeq.start hs).quirk⟩
  have hloop := SweptSeq.loop hs hi nn hstart (by omega)
  rw [Nat.zero_add] at hloop
  refine ⟨_, ?_, hloop.swept.cut hs fun m hm => ?_⟩
  · unfold nvmeScanNsSequential
    rw [hi.count]
    dsimp only
    rw [if_neg (Nat.not_le.mpr hi.bound)]
  · refine ⟨fun hd => ?_, fun ha => ?_⟩
    · have := hd.1
      omega
    · have := hi.active m ha
      omega

end Sequential

/-- Two scans leave the same NSIDs registered and the same units live and dead. -/
def SameOutcome (s₁ s₂ : ScanState) : Prop :=
  (∀ n, Registered s₁ n ↔ Registered s₂ n) ∧ s₁.units.map unitKey = s₂.units.map unitKey

/-- For every controller and every starting state: both scans end, and they leave the same
if and only if no inactive NSID up to `nn` is registered where the descriptor list is
consulted, and both lose the same namespaces to the quirk. -/
theorem sequential_scan_agrees_iff (A : Finset Nat) (ids : Nat → NsIds) (r : Responses)
    (nn : Nat) (s : ScanState) (hs : ScanStart A ids r s) (hrep : ReportsActive A r)
    (hi : InactiveAnswers A nn r) (fuel : Nat) (hfuel : A.card < fuel) :
    ∃ s₁ s₂, nvmeScanNsList r fuel 0 s = some (s₁, 0) ∧ nvmeScanNsSequential r s = some s₂ ∧
      (SameOutcome s₁ s₂ ↔
        (descsConsulted s.ctrl = true →
          ∀ ns, ns ∈ s.namespaces → ns.nsId ∈ A ∨ nn < ns.nsId) ∧
        ∀ n, LosesAt (listAhead A) A ids s n ↔
          LosesAt (seqAhead (descsConsulted s.ctrl)) A ids s n) := by
  obtain ⟨s₁, last, hlist, hlast, h₁⟩ := SweptTo.list hs hrep fuel (SweptTo.start hs)
    (lt_of_le_of_lt (Finset.card_filter_le _ _) hfuel)
  obtain ⟨s₂, hseq, h₂⟩ := SweptSeq.all hs hi
  have hdone : ∀ n, n ∈ A → seqDone (descsConsulted s.ctrl) A nn n ∨ nn < n :=
    fun n ha => .inl ⟨hi.active n ha, .inl ha⟩
  refine ⟨s₁, s₂, hlist, hseq, ?_, ?_⟩
  · rintro ⟨hreg, -⟩
    refine ⟨fun hcon ns hns => ?_, fun n => ?_⟩
    · by_contra hno
      have hout : ns.nsId ∉ A := fun ha => hno (.inl ha)
      have hpos := hs.positive ns hns
      -- the sequential scan is never done with this NSID
      have hleft : ¬(seqDone (descsConsulted s.ctrl) A nn ns.nsId ∨ nn < ns.nsId) := by
        rintro (⟨-, ha | hf | hz⟩ | hgt)
        · exact hout ha
        · exact Bool.noConfusion (hcon.symm.trans hf)
        · omega
        · exact hno (.inr hgt)
      have hreg₂ := (h₂.registered_ahead hleft).mpr (List.mem_map_of_mem hns)
      exact hout ((h₁.behind ns.nsId trivial).mp ((hreg ns.nsId).mpr hreg₂)).1
    · by_cases ha : n ∈ A
      · have hiff := ((h₁.behind n trivial).symm.trans (hreg n)).trans
          (h₂.behind n (hdone n ha))
        rw [and_iff_right ha, and_iff_right ha] at hiff
        exact not_iff_not.mp hiff
      · exact iff_of_false (fun h => ha h.1) fun h => ha h.1
  · rintro ⟨hstale, hlose⟩
    have hall : ∀ ns, ns ∈ s.namespaces →
        seqDone (descsConsulted s.ctrl) A nn ns.nsId ∨ nn < ns.nsId := by
      intro ns hns
      cases hcon : descsConsulted s.ctrl with
      | true =>
          rcases hstale hcon ns hns with ha | hgt
          · exact .inl ⟨hi.active _ ha, .inl ha⟩
          · exact .inr hgt
      | false =>
          by_cases hle : ns.nsId ≤ nn
          · exact .inl ⟨hle, .inr (.inl rfl)⟩
          · exact .inr (Nat.lt_of_not_le hle)
    refine ⟨fun n => ?_, ?_⟩
    · rw [h₁.behind n trivial]
      by_cases hp : seqDone (descsConsulted s.ctrl) A nn n ∨ nn < n
      · rw [h₂.behind n hp, hlose n]
      · refine iff_of_false (fun h => hp (hdone n h.1)) fun hreg => hp ?_
        obtain ⟨ns, hns, rfl⟩ := List.mem_map.mp ((h₂.registered_ahead hp).mp hreg)
        exact hall ns hns
    · have hnew : newcomers A s (last + 1) = newcomers A s (nn + 1) := by
        have hout : ∀ k m, (∀ a, a ∈ A → a ≤ k) → k + 1 ≤ m → m ∉ A :=
          fun k m hk hm ha => by
            have := hk m ha
            omega
        rcases Nat.le_total last nn with hle | hle
        · exact (newcomers_gap s (by omega) fun m hm _ => hout last m hlast hm).symm
        · exact newcomers_gap s (by omega) fun m hm _ => hout nn m hi.active hm
      rw [h₁.units, h₂.units, hnew]
      refine congrArg (· ++ _) (keptUnits_congr fun k => ?_)
      constructor
      · rintro ⟨ns, hns, -, hout, hu⟩
        exact ⟨ns, hns, hall ns hns, hout.imp_right (hlose _).mp, hu⟩
      · rintro ⟨ns, hns, -, hout, hu⟩
        exact ⟨ns, hns, trivial, hout.imp_right (hlose _).mpr, hu⟩

theorem twoActive_inactive (tail : Nat) : InactiveAnswers {2, 3} 3 (twoActive tail) where
  bound := by decide
  count := fun _ => rfl
  active := by decide
  zeros := by
    intro n hpos hle hout seq
    obtain rfl : n = 1 := by
      simp only [Finset.mem_insert, Finset.mem_singleton] at hout
      omega
    exact ⟨_, rfl, rfl⟩
  invalid := by
    intro n hpos hle hout seq
    obtain rfl : n = 1 := by
      simp only [Finset.mem_insert, Finset.mem_singleton] at hout
      omega
    exact ⟨0x400b, rfl, rfl⟩

/-- On a controller of version 1.2 both scans remove namespace 1. -/
theorem sequential_scan_agrees_two :
    ∃ s₁ s₂, nvmeScanNsList (twoActive 2) 3 0 (oneAndThree 2) = some (s₁, 0) ∧
      nvmeScanNsSequential (twoActive 2) (oneAndThree 2) = some s₂ ∧ SameOutcome s₁ s₂ := by
  obtain ⟨s₁, s₂, hlist, hseq, hiff⟩ := sequential_scan_agrees_iff {2, 3} (twoActiveIds 2)
    (twoActive 2) 3 (oneAndThree 2) (twoActive_start (.inr rfl) (.inl rfl))
    (twoActive_reports 2) (twoActive_inactive 2) 3 (by decide)
  refine ⟨s₁, s₂, hlist, hseq, hiff.mpr ⟨fun h => (nomatch h), fun n => ?_⟩⟩
  exact iff_of_false (twoActive_latches _ n) (twoActive_latches _ n)

/-- On a controller of version 1.3 the sequential scan keeps namespace 1 and its unit. -/
theorem sequential_scan_keeps_inactive :
    ScanStart {2, 3} (twoActiveIds 2) (twoActive 2) (oneAndThree 3) ∧
      ReportsActive {2, 3} (twoActive 2) ∧ InactiveAnswers {2, 3} 3 (twoActive 2) ∧
      ∃ s₁ s₂, nvmeScanNsList (twoActive 2) 3 0 (oneAndThree 3) = some (s₁, 0) ∧
        nvmeScanNsSequential (twoActive 2) (oneAndThree 3) = some s₂ ∧
        Registered s₂ 1 ∧ ¬Registered s₁ 1 ∧ ¬SameOutcome s₁ s₂ := by
  have hlist : ∀ s₁, nvmeScanNsList (twoActive 2) 3 0 (oneAndThree 3) = some (s₁, 0) →
      ¬Registered s₁ 1 := by
    intro s₁ h
    cases h
    decide
  have hseq : ∀ s₂, nvmeScanNsSequential (twoActive 2) (oneAndThree 3) = some s₂ →
      Registered s₂ 1 := by
    intro s₂ h
    cases h
    decide
  refine ⟨twoActive_start (.inr rfl) (.inr rfl), twoActive_reports 2, twoActive_inactive 2,
    _, _, rfl, rfl, hseq _ rfl, hlist _ rfl, ?_⟩
  exact fun h => hlist _ rfl ((h.1 1).mpr (hseq _ rfl))

end Namespace
end NvmeDriver
