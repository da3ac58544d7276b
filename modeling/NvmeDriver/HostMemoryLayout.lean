import NvmeDriver.HostMemory

/-!
# How the host memory buffer is laid out

What `nvme_alloc_host_mem` promises of its descriptors, and to which answers of the pool it
keeps the promise.  A buffer below 16 MiB is gathered in halves of halves of its size, and
two of them that are no whole pages may leave a page undescribed that Set Features announces.
-/

namespace NvmeDriver
namespace HostMemory

open Lib

/-! ### What is promised -/

section Promise

/-- The descriptors announced to the controller. -/
def HmbCtrl.descriptors (c : HmbCtrl) : List HostMemBufDesc := c.table.take c.hmbNrDescs

/-- The pages they describe. -/
def HmbCtrl.pages (c : HmbCtrl) : Nat := (c.descriptors.map HostMemBufDesc.size).sum

/-- A buffer the controller may use. -/
structure Described (needs : HmbNeeds) (c : HmbCtrl) : Prop where
  any : 1 ≤ c.hmbNrDescs
  limit : needs.hmmaxd.toNat ≠ 0 → c.hmbNrDescs ≤ needs.hmmaxd.toNat
  table : ∃ addr bytes chunks, c.hmbDescs = some addr ∧
    allocations c.log = (addr, bytes) :: chunks ∧
    c.hmbNrDescs * sizeofHostMemBufDesc ≤ bytes ∧
    List.Forall₂ (fun d chunk => d.addr = chunk.1 ∧ d.size * nvmeCtrlPageSize ≤ chunk.2)
      c.descriptors chunks
  all : c.descriptors.length = c.hmbNrDescs
  floor : ∀ d, d ∈ c.descriptors → max needs.hmminds.toNat 2 ≤ d.size
  sent : c.pages = (nvmeSetHostMem c nvmeHostMemEnable).dword12
  least : needs.hmmin.toNat ≤ c.pages
  most : c.pages ≤ min needs.hmpre.toNat 32768

/-- What `nvme_alloc_host_mem` promises, with its result. -/
def WellLaid (needs : HmbNeeds) (out : HmbCtrl × Int) : Prop :=
  (out.2 = 0 → Described needs out.1) ∧ (out.2 ≠ 0 → Released out.1)

end Promise

/-! ### Descriptors -/

section Descriptors

variable {needs : HmbNeeds} {cap preferred descs descsSize : Nat} {f : Filling}
  {base : HmbCtrl} {cs : List (Nat × Nat)}

theorem size_describe (hf : Filled needs preferred cap base f cs) (hcap : preferred < 2 ^ 32)
    {chunk : Nat × Nat} (hmem : chunk ∈ cs) :
    (describe chunk).size = chunk.2 / nvmeCtrlPageSize := by
  have hle : chunk.2 ≤ (cs.map Prod.snd).sum :=
    List.single_le_sum (fun _ _ => Nat.zero_le _) _ (List.mem_map_of_mem hmem)
  have hlt : chunk.2 / nvmeCtrlPageSize < 2 ^ 32 := by
    have hfits := hf.fits
    rw [hf.total] at hfits
    exact (Nat.div_le_self _ _).trans_lt (by omega)
  exact Nat.mod_eq_of_lt hlt

theorem Filled.pages_eq (hf : Filled needs preferred cap base f cs) (hcap : preferred < 2 ^ 32) :
    ((cs.map describe).map HostMemBufDesc.size).sum =
      ((cs.map Prod.snd).map (· / nvmeCtrlPageSize)).sum := by
  rw [List.map_map, List.map_map]
  exact congrArg List.sum (List.map_congr_left fun chunk hmem => size_describe hf hcap hmem)

/-- Enough is gathered: the descriptors are what they should be, but for there being any and
for the pages the chunks lose by rounding. -/
theorem Filled.described_iff (hf : Filled needs (hmbPreferred needs) cap base f cs)
    (ht : Tabled descs descsSize cap base)
    (hlimit : needs.hmmaxd.toNat ≠ 0 → cap = needs.hmmaxd.toNat)
    (hmin : hmbMinimum needs ≤ f.total) :
    Described needs
        (HmbCtrl.logStep { f.ctrl with hmbNrDescs := f.chunks, hmbSize := f.total % 2 ^ 32 }
          (.cacheFlush descs descsSize)) ↔
      cs ≠ [] ∧ ((cs.map Prod.snd).map (· % nvmeCtrlPageSize)).sum < nvmeCtrlPageSize := by
  obtain ⟨hmax, hpre⟩ := hmbPreferred_cases needs
  have hcap : hmbPreferred needs < 2 ^ 32 := hmax.trans_lt (by decide)
  have hword : f.total % 2 ^ 32 = f.total := Nat.mod_eq_of_lt (hf.fits.trans_lt hcap)
  have hround := sum_div_eq_iff (n := nvmeCtrlPageSize) (by decide) (cs.map Prod.snd)
  rw [← hf.pages_eq hcap, ← hf.total] at hround
  let c : HmbCtrl := HmbCtrl.logStep
    { f.ctrl with hmbNrDescs := f.chunks, hmbSize := f.total % 2 ^ 32 }
    (.cacheFlush descs descsSize)
  have hdescs : c.descriptors = cs.map describe := hf.take_table
  have hpages : c.pages = ((cs.map describe).map HostMemBufDesc.size).sum := by
    rw [HmbCtrl.pages, hdescs]
  have hsent : (nvmeSetHostMem c nvmeHostMemEnable).dword12 = f.total / nvmeCtrlPageSize :=
    congrArg (· / nvmeCtrlPageSize) hword
  constructor
  · intro hd
    refine ⟨fun hnil => ?_, hround.mp ?_⟩
    · have hany : 1 ≤ f.chunks := hd.any
      rw [hf.chunks, hnil] at hany
      exact absurd hany (by decide)
    · rw [← hpages, ← hsent]
      exact hd.sent
  · rintro ⟨hne, hlt⟩
    have hsum : c.pages = f.total / nvmeCtrlPageSize := hpages.trans (hround.mpr hlt)
    constructor
    case any =>
      change 1 ≤ f.chunks
      rw [hf.chunks]
      exact List.length_pos_iff.mpr hne
    case limit =>
      intro hmaxd
      change f.chunks ≤ _
      rw [hf.chunks, ← hlimit hmaxd]
      exact hf.room
    case table =>
      refine ⟨descs, descsSize, cs, hf.descs.trans ht.addr, ?_, ?_, ?_⟩
      · change allocations (f.ctrl.log ++ [.cacheFlush descs descsSize]) = _
        rw [allocations_append, (hf.allocations_eq ht).1]
        exact List.append_nil _
      · change f.chunks * _ ≤ _
        rw [hf.chunks, ht.size]
        exact Nat.mul_le_mul_right _ hf.room
      · change List.Forall₂ _ c.descriptors cs
        rw [hdescs, List.forall₂_map_left_iff, List.forall₂_same]
        intro chunk hmem
        refine ⟨rfl, ?_⟩
        rw [size_describe hf hcap hmem]
        exact Nat.div_mul_le_self _ _
    case all =>
      change c.descriptors.length = f.chunks
      rw [hdescs, List.length_map, hf.chunks]
    case floor =>
      intro d hd
      have hd : d ∈ cs.map describe := hdescs ▸ hd
      obtain ⟨chunk, hmem, rfl⟩ := List.mem_map.mp hd
      have hfloor := hf.floor chunk hmem
      rw [size_describe hf hcap hmem, Nat.le_div_iff_mul_le (by decide)]
      exact (hmbFloor_pages needs).trans hfloor
    case sent => exact hsum.trans hsent.symm
    case least =>
      change _ ≤ c.pages
      rw [hsum, Nat.le_div_iff_mul_le (by decide)]
      exact hmin
    case most =>
      change c.pages ≤ _
      have hfits := hf.fits
      have hle : c.pages * nvmeCtrlPageSize ≤ f.total := hsum ▸ Nat.div_mul_le_self _ _
      unfold nvmeMaxHmbBytes at hmax
      unfold nvmeCtrlPageSize at hpre hle
      omega

/-- What `nvme_alloc_host_mem` promises once the pool has been asked. -/
theorem Filled.wellLaid_iff (hf : Filled needs (hmbPreferred needs) cap base f cs)
    (ht : Tabled descs descsSize cap base)
    (hlimit : needs.hmmaxd.toNat ≠ 0 → cap = needs.hmmaxd.toNat) :
    WellLaid needs (hmbConclude (hmbMinimum needs) descs descsSize f) ↔
      (hmbMinimum needs ≤ f.total →
        cs ≠ [] ∧ ((cs.map Prod.snd).map (· % nvmeCtrlPageSize)).sum < nvmeCtrlPageSize) := by
  unfold hmbConclude WellLaid
  dsimp only
  by_cases hless : f.total < hmbMinimum needs
  · rw [if_pos hless]
    refine ⟨fun _ hle => absurd hless (Nat.not_lt.mpr hle), fun _ => ⟨fun h => ?_, fun _ => ?_⟩⟩
    · cases h
    · exact hf.released ht _
  · rw [if_neg hless]
    have hmin := Nat.le_of_not_lt hless
    have hiff := hf.described_iff ht hlimit hmin
    constructor
    · exact fun h _ => hiff.mp (h.1 rfl)
    · exact fun h => ⟨fun _ => hiff.mpr (h hmin), fun hne => absurd rfl hne⟩

end Descriptors

/-! ### The answers of the pool -/

section Answers

/-- What the pool answers to the calls of phase 2. -/
def fillAnswers (alloc : Nat → Option Pointer) (m : Nat) : Bool := (alloc (2 + m)).isSome

/-- Some chunk is granted: in phase 1, or before the size asked for drops below the floor. -/
def SomeGranted (needs : HmbNeeds) (alloc : Nat → Option Pointer) : Prop :=
  hmbFloor needs ≤ hmbPreferred needs ∧ alloc 1 ≠ none ∨
    ∃ m, fillAnswers alloc m = true ∧
      hmbFloor needs ≤ startChunk (hmbPreferred needs) / 2 ^ m

/-- The parts of the preferred size that the first answers of phase 2 grant. -/
def parts (needs : HmbNeeds) (alloc : Nat → Option Pointer) (m : Nat) : List Nat :=
  (grants (fillAnswers alloc) m).map (hmbPreferred needs / 2 ^ ·)

/-- There is another part to ask for: it has a descriptor, is not below the floor, and the
parts granted so far are not the whole. -/
structure GoesOn (needs : HmbNeeds) (alloc : Nat → Option Pointer) (m : Nat) : Prop where
  slot : (parts needs alloc m).length < hmmaxdCap needs (hmbPreferred needs)
  floor : hmbFloor needs ≤ hmbPreferred needs / 2 ^ refusals (fillAnswers alloc) m
  more : (parts needs alloc m).sum < hmbPreferred needs

/-- The first `m` answers are all there is to ask for. -/
def StopsAfter (needs : HmbNeeds) (alloc : Nat → Option Pointer) (m : Nat) : Prop :=
  (∀ j, j < m → GoesOn needs alloc j) ∧ ¬GoesOn needs alloc m

/-- The answers to which the promise is kept. -/
structure WellAnswered (needs : HmbNeeds) (alloc : Nat → Option Pointer) : Prop where
  /-- a controller that accepts any size is granted something -/
  any : alloc 0 ≠ none → needs.hmmin.toNat = 0 → SomeGranted needs alloc
  /-- the parts of a buffer below 16 MiB that suffice lose less than a page by rounding -/
  whole : alloc 0 ≠ none → alloc 1 = none → needs.hmpre.toNat < 4096 →
    ∀ m, StopsAfter needs alloc m → hmbMinimum needs ≤ (parts needs alloc m).sum →
      ((parts needs alloc m).map (· % nvmeCtrlPageSize)).sum < nvmeCtrlPageSize

variable {needs : HmbNeeds} {alloc : Nat → Option Pointer} {m : Nat}

theorem stopsAfter_unique {m' : Nat} (h : StopsAfter needs alloc m)
    (h' : StopsAfter needs alloc m') : m = m' := by
  rcases Nat.lt_trichotomy m m' with hlt | heq | hlt
  · exact absurd (h'.1 m hlt) h.2
  · exact heq
  · exact absurd (h.1 m' hlt) h'.2

theorem parts_granted (h : fillAnswers alloc m = true) :
    parts needs alloc (m + 1) =
      parts needs alloc m ++ [hmbPreferred needs / 2 ^ refusals (fillAnswers alloc) m] := by
  simp [parts, grants_granted h]

theorem parts_refused (h : fillAnswers alloc m = false) :
    parts needs alloc (m + 1) = parts needs alloc m := by
  simp [parts, grants_refused h]

end Answers

/-! ### Small buffers -/

section Small

variable {needs : HmbNeeds} {alloc : Nat → Option Pointer} {m : Nat}

theorem hmbPreferred_small (hsmall : needs.hmpre.toNat < 4096) :
    hmbPreferred needs = needs.hmpre.toNat * 2 ^ 12 := by
  have hle : ¬nvmeMaxHmbBytes < needs.hmpre.toNat * nvmeCtrlPageSize := by
    unfold nvmeMaxHmbBytes nvmeCtrlPageSize
    omega
  exact if_neg hle

theorem startChunk_small (hsmall : needs.hmpre.toNat < 4096) :
    startChunk (hmbPreferred needs) = hmbPreferred needs := by
  refine if_pos ?_
  rw [hmbPreferred_small hsmall]
  unfold nvmeHmbStartChunk
  omega

theorem part_eq (hsmall : needs.hmpre.toNat < 4096) {k : Nat} (hk : k ≤ 12) :
    hmbPreferred needs / 2 ^ k = needs.hmpre.toNat * 2 ^ (12 - k) := by
  rw [hmbPreferred_small hsmall, Nat.div_eq_iff_eq_mul_left (Nat.two_pow_pos k)
    (Nat.dvd_mul_left_of_dvd (pow_dvd_pow 2 hk) _), Nat.mul_assoc, ← pow_add,
    Nat.sub_add_cancel hk]

theorem sum_parts (hsmall : needs.hmpre.toNat < 4096)
    (hm : refusals (fillAnswers alloc) m ≤ 12) :
    (parts needs alloc m).sum = needs.hmpre.toNat * taken (fillAnswers alloc) 12 m := by
  have hparts : parts needs alloc m =
      ((grants (fillAnswers alloc) m).map fun k => 2 ^ (12 - k)).map
        (needs.hmpre.toNat * ·) := by
    rw [List.map_map]
    exact List.map_congr_left fun k hk => part_eq hsmall ((grants_le hk).trans hm)
  rw [hparts, List.sum_map_mul_left, List.map_id']
  rfl

/-- A part that is not below the floor has been halved ten times at most. -/
theorem GoesOn.refusals_lt (h : GoesOn needs alloc m) (hsmall : needs.hmpre.toNat < 4096) :
    refusals (fillAnswers alloc) m < 12 := by
  have hfloor := (hmbFloor_le needs).2.trans h.floor
  by_contra hle
  have hdiv : hmbPreferred needs / 2 ^ refusals (fillAnswers alloc) m ≤
      hmbPreferred needs / 2 ^ 12 :=
    Nat.div_le_div_left (Nat.pow_le_pow_right (by decide) (Nat.le_of_not_lt hle)) (by decide)
  rw [hmbPreferred_small hsmall, Nat.mul_div_cancel _ (by decide)] at hdiv
  unfold nvmeHmbMinChunk at hfloor
  rw [hmbPreferred_small hsmall] at hfloor
  omega

/-- What is left is enough for the part asked for. -/
theorem GoesOn.fits (h : GoesOn needs alloc m) (hsmall : needs.hmpre.toNat < 4096) :
    (parts needs alloc m).sum + hmbPreferred needs / 2 ^ refusals (fillAnswers alloc) m ≤
      hmbPreferred needs := by
  have hlt := h.refusals_lt hsmall
  have hmore := h.more
  rw [sum_parts hsmall hlt.le, hmbPreferred_small hsmall] at hmore
  rw [sum_parts hsmall hlt.le, part_eq hsmall hlt.le, ← Nat.mul_add, hmbPreferred_small hsmall]
  exact Nat.mul_le_mul_left _ (part_fits (Nat.lt_of_mul_lt_mul_left hmore))

end Small

/-! ### What phase 2 gathers -/

section Fill

variable {needs : HmbNeeds} {alloc : Nat → Option Pointer} {cap attempt m descs descsSize : Nat}
  {f : Filling} {p : Pointer} {base : HmbCtrl} {cs : List (Nat × Nat)}

theorem fillAnswers_of_some (hcalls : f.ctrl.calls = 2 + m) (hp : alloc f.ctrl.calls = some p) :
    fillAnswers alloc m = true := by
  rw [fillAnswers, ← hcalls, hp]
  rfl

theorem fillAnswers_of_none (hcalls : f.ctrl.calls = 2 + m) (hp : alloc f.ctrl.calls = none) :
    fillAnswers alloc m = false := by
  rw [fillAnswers, ← hcalls, hp]
  rfl

theorem halved (n k : Nat) : n / 2 ^ k / 2 = n / 2 ^ (k + 1) := by
  rw [Nat.div_div_eq_div_mul, pow_succ]

/-- Phase 2 of a small buffer after some answers. -/
structure SmallFilled (needs : HmbNeeds) (alloc : Nat → Option Pointer) (base : HmbCtrl)
    (attempt : Nat) (f : Filling) (m : Nat) (cs : List (Nat × Nat)) : Prop where
  filled : Filled needs (hmbPreferred needs) (hmmaxdCap needs (hmbPreferred needs)) base f cs
  calls : f.ctrl.calls = 2 + m
  parts : cs.map Prod.snd = parts needs alloc m
  attempt : attempt = hmbPreferred needs / 2 ^ refusals (fillAnswers alloc) m
  before : ∀ j, j < m → GoesOn needs alloc j

theorem SmallFilled.asks_iff (h : SmallFilled needs alloc base attempt f m cs)
    (hsmall : needs.hmpre.toNat < 4096) :
    Asks needs (hmbPreferred needs) (hmmaxdCap needs (hmbPreferred needs)) attempt f ↔
      GoesOn needs alloc m := by
  have htotal : f.total = (HostMemory.parts needs alloc m).sum := by
    rw [h.filled.total, h.parts]
  have hlength : f.chunks = (HostMemory.parts needs alloc m).length := by
    rw [h.filled.chunks, ← h.parts, List.length_map]
  constructor
  · intro hask
    exact ⟨hlength ▸ hask.slot, h.attempt ▸ hask.floor, htotal ▸ hask.more⟩
  · intro hgo
    have hfits := hgo.fits hsmall
    rw [← htotal, ← h.attempt] at hfits
    have hfloor := hgo.floor
    rw [← h.attempt] at hfloor
    refine ⟨htotal ▸ hgo.more, hlength ▸ hgo.slot, hfloor, ?_⟩
    unfold chunkSize
    omega

theorem SmallFilled.chunk (h : SmallFilled needs alloc base attempt f m cs)
    (hsmall : needs.hmpre.toNat < 4096) (hgo : GoesOn needs alloc m) :
    chunkSize (hmbPreferred needs) attempt f = attempt := by
  have hfits := hgo.fits hsmall
  rw [← h.parts, ← h.filled.total, ← h.attempt] at hfits
  unfold chunkSize
  omega

theorem before_succ (h : ∀ j, j < m → GoesOn needs alloc j) (hgo : GoesOn needs alloc m) :
    ∀ j, j < m + 1 → GoesOn needs alloc j := by
  intro j hj
  rcases Nat.lt_succ_iff_lt_or_eq.mp hj with hj | rfl
  · exact h j hj
  · exact hgo

theorem SmallFilled.granted (h : SmallFilled needs alloc base attempt f m cs)
    (hsmall : needs.hmpre.toNat < 4096)
    (hask : Asks needs (hmbPreferred needs) (hmmaxdCap needs (hmbPreferred needs)) attempt f)
    (hp : alloc f.ctrl.calls = some p) :
    SmallFilled needs alloc base attempt
      (f.granted p (chunkSize (hmbPreferred needs) attempt f)) (m + 1)
      (cs ++ [(p.addr.toNat, chunkSize (hmbPreferred needs) attempt f)]) := by
  have hgo := (h.asks_iff hsmall).mp hask
  have hans := fillAnswers_of_some h.calls hp
  refine ⟨h.filled.asked hask, ?_, ?_, ?_, before_succ h.before hgo⟩
  · change f.ctrl.calls + 1 = _
    rw [h.calls, Nat.add_assoc]
  · rw [List.map_append, h.parts, parts_granted hans, ← h.attempt, h.chunk hsmall hgo]
    rfl
  · rw [refusals_granted hans]
    exact h.attempt

theorem SmallFilled.refused (h : SmallFilled needs alloc base attempt f m cs)
    (hsmall : needs.hmpre.toNat < 4096)
    (hask : Asks needs (hmbPreferred needs) (hmmaxdCap needs (hmbPreferred needs)) attempt f)
    (hp : alloc f.ctrl.calls = none) :
    SmallFilled needs alloc base (attempt / 2) f.refused (m + 1) cs := by
  have hgo := (h.asks_iff hsmall).mp hask
  have hans := fillAnswers_of_none h.calls hp
  refine ⟨h.filled.refused, ?_, ?_, ?_, before_succ h.before hgo⟩
  · change f.ctrl.calls + 1 = _
    rw [h.calls, Nat.add_assoc]
  · rw [parts_refused hans]
    exact h.parts
  · rw [refusals_refused hans, h.attempt, halved]

/-- A small buffer is gathered in the parts the pool grants. -/
theorem fill_small (hsmall : needs.hmpre.toNat < 4096)
    (h : SmallFilled needs alloc base attempt f m cs) :
    ∃ m cs, Filled needs (hmbPreferred needs) (hmmaxdCap needs (hmbPreferred needs)) base
        (hmbFill needs alloc (hmbPreferred needs) (hmmaxdCap needs (hmbPreferred needs)) attempt f)
        cs ∧ cs.map Prod.snd = parts needs alloc m ∧ StopsAfter needs alloc m := by
  have hgrant : ∀ attempt f p,
      Asks needs (hmbPreferred needs) (hmmaxdCap needs (hmbPreferred needs)) attempt f →
      alloc f.ctrl.calls = some p → (∃ m cs, SmallFilled needs alloc base attempt f m cs) →
      ∃ m cs, SmallFilled needs alloc base attempt
        (f.granted p (chunkSize (hmbPreferred needs) attempt f)) m cs := by
    rintro attempt f p hask hp ⟨m, cs, h⟩
    exact ⟨m + 1, _, h.granted hsmall hask hp⟩
  have hrefuse : ∀ attempt f,
      Asks needs (hmbPreferred needs) (hmmaxdCap needs (hmbPreferred needs)) attempt f →
      alloc f.ctrl.calls = none → (∃ m cs, SmallFilled needs alloc base attempt f m cs) →
      ∃ m cs, SmallFilled needs alloc base (attempt / 2) f.refused m cs := by
    rintro attempt f hask hp ⟨m, cs, h⟩
    exact ⟨m + 1, cs, h.refused hsmall hask hp⟩
  obtain ⟨attempt', ⟨m', cs', h'⟩, hstop⟩ := hmbFill_rule hgrant hrefuse ⟨m, cs, h⟩
  exact ⟨m', cs', h'.filled, h'.parts, h'.before,
    fun hgo => hstop ((h'.asks_iff hsmall).mpr hgo)⟩

/-- Phase 2 of a large buffer: the size asked for is 16 MiB, halved some times, and the chunks
are whole pages. -/
structure LargeFilled (needs : HmbNeeds) (cap : Nat) (base : HmbCtrl) (attempt : Nat)
    (f : Filling) (k : Nat) (cs : List (Nat × Nat)) : Prop where
  filled : Filled needs (hmbPreferred needs) cap base f cs
  attempt : attempt = nvmeHmbStartChunk / 2 ^ k
  pages : ∀ bytes, bytes ∈ cs.map Prod.snd → nvmeCtrlPageSize ∣ bytes

theorem page_dvd_hmbPreferred (needs : HmbNeeds) : nvmeCtrlPageSize ∣ hmbPreferred needs := by
  unfold hmbPreferred
  dsimp only
  split
  · decide
  · exact Nat.dvd_mul_left _ _

/-- The halves of 16 MiB that are not below the floor are whole pages. -/
theorem page_dvd_half {k : Nat} (h : nvmeHmbMinChunk ≤ nvmeHmbStartChunk / 2 ^ k) :
    nvmeCtrlPageSize ∣ nvmeHmbStartChunk / 2 ^ k := by
  have hk : k ≤ 12 := by
    by_contra hlt
    have hle : nvmeHmbStartChunk / 2 ^ k ≤ nvmeHmbStartChunk / 2 ^ 12 :=
      Nat.div_le_div_left (Nat.pow_le_pow_right (by decide) (by omega)) (by decide)
    exact absurd (h.trans hle) (by decide)
  have heq : nvmeHmbStartChunk = nvmeCtrlPageSize * 2 ^ (12 - k) * 2 ^ k := by
    rw [Nat.mul_assoc, ← pow_add, Nat.sub_add_cancel hk]
    rfl
  rw [heq, Nat.mul_div_cancel _ (Nat.two_pow_pos k)]
  exact Nat.dvd_mul_right _ _

theorem LargeFilled.granted {k : Nat} (h : LargeFilled needs cap base attempt f k cs)
    (hask : Asks needs (hmbPreferred needs) cap attempt f) :
    LargeFilled needs cap base attempt
      (f.granted p (chunkSize (hmbPreferred needs) attempt f)) k
      (cs ++ [(p.addr.toNat, chunkSize (hmbPreferred needs) attempt f)]) := by
  refine ⟨h.filled.asked hask, h.attempt, fun bytes hmem => ?_⟩
  rw [List.map_append, List.mem_append] at hmem
  rcases hmem with hmem | hmem
  · exact h.pages bytes hmem
  · rw [List.mem_singleton.mp hmem]
    have hhalf := (hmbFloor_le needs).2.trans hask.floor
    rw [h.attempt] at hhalf
    have hattempt := h.attempt ▸ page_dvd_half hhalf
    have htotal : nvmeCtrlPageSize ∣ f.total := by
      rw [h.filled.total]
      exact List.dvd_sum h.pages
    change _ ∣ min attempt (hmbPreferred needs - f.total)
    rcases min_choice attempt (hmbPreferred needs - f.total) with hmin | hmin
    · rw [hmin]
      exact hattempt
    · rw [hmin]
      exact Nat.dvd_sub (page_dvd_hmbPreferred needs) htotal

/-- A large buffer is gathered in whole pages. -/
theorem fill_large {k : Nat} (h : LargeFilled needs cap base attempt f k cs) :
    ∃ cs, Filled needs (hmbPreferred needs) cap base
        (hmbFill needs alloc (hmbPreferred needs) cap attempt f) cs ∧
      ∀ bytes, bytes ∈ cs.map Prod.snd → nvmeCtrlPageSize ∣ bytes := by
  have hgrant : ∀ attempt f p, Asks needs (hmbPreferred needs) cap attempt f →
      alloc f.ctrl.calls = some p → (∃ k cs, LargeFilled needs cap base attempt f k cs) →
      ∃ k cs, LargeFilled needs cap base attempt
        (f.granted p (chunkSize (hmbPreferred needs) attempt f)) k cs := by
    rintro attempt f p hask - ⟨k, cs, h⟩
    exact ⟨k, _, h.granted hask⟩
  have hrefuse : ∀ attempt f, Asks needs (hmbPreferred needs) cap attempt f →
      alloc f.ctrl.calls = none → (∃ k cs, LargeFilled needs cap base attempt f k cs) →
      ∃ k cs, LargeFilled needs cap base (attempt / 2) f.refused k cs := by
    rintro attempt f - - ⟨k, cs, h⟩
    exact ⟨k + 1, cs, h.filled.refused, h.attempt ▸ halved _ k, h.pages⟩
  obtain ⟨_, ⟨_, cs', h'⟩, -⟩ := hmbFill_rule hgrant hrefuse ⟨k, cs, h⟩
  exact ⟨cs', h'.filled, h'.pages⟩

/-- Phase 2 has no chunk yet, after as many refusals as it made calls, or there is a call that
is granted. -/
structure FirstChunk (needs : HmbNeeds) (alloc : Nat → Option Pointer) (attempt : Nat)
    (f : Filling) (k : Nat) : Prop where
  attempt : attempt = startChunk (hmbPreferred needs) / 2 ^ k
  before : f.chunks = 0 → f.total = 0 ∧ f.ctrl.calls = 2 + k ∧
    ∀ j, j < k → fillAnswers alloc j = false
  after : f.chunks ≠ 0 → ∃ m, fillAnswers alloc m = true ∧
    hmbFloor needs ≤ startChunk (hmbPreferred needs) / 2 ^ m

theorem FirstChunk.granted {k : Nat} (h : FirstChunk needs alloc attempt f k)
    (hask : Asks needs (hmbPreferred needs) cap attempt f) (hp : alloc f.ctrl.calls = some p) :
    FirstChunk needs alloc attempt
      (f.granted p (chunkSize (hmbPreferred needs) attempt f)) k := by
  refine ⟨h.attempt, fun hzero => ?_, fun _ => ?_⟩
  · cases hzero
  · by_cases hchunks : f.chunks = 0
    · obtain ⟨-, hcalls, -⟩ := h.before hchunks
      exact ⟨k, fillAnswers_of_some hcalls hp, h.attempt ▸ hask.floor⟩
    · exact h.after hchunks

theorem FirstChunk.refused {k : Nat} (h : FirstChunk needs alloc attempt f k)
    (hp : alloc f.ctrl.calls = none) :
    FirstChunk needs alloc (attempt / 2) f.refused (k + 1) := by
  refine ⟨h.attempt ▸ halved _ k, fun hzero => ?_, h.after⟩
  obtain ⟨htotal, hcalls, hbefore⟩ := h.before hzero
  refine ⟨htotal, ?_, fun j hj => ?_⟩
  · change f.ctrl.calls + 1 = _
    rw [hcalls, Nat.add_assoc]
  · rcases Nat.lt_succ_iff_lt_or_eq.mp hj with hj | rfl
    · exact hbefore j hj
    · exact fillAnswers_of_none hcalls hp

/-- A loop that has stopped without a chunk was granted nothing it could ask for. -/
theorem FirstChunk.stopped {k : Nat} (h : FirstChunk needs alloc attempt f k)
    (hstop : ¬Asks needs (hmbPreferred needs) (hmmaxdCap needs (hmbPreferred needs)) attempt f)
    (hm : fillAnswers alloc m = true)
    (hfloor : hmbFloor needs ≤ startChunk (hmbPreferred needs) / 2 ^ m) : f.chunks ≠ 0 := by
  intro hzero
  obtain ⟨htotal, -, hbefore⟩ := h.before hzero
  have hkm : k ≤ m := by
    by_contra hlt
    rw [hbefore m (Nat.lt_of_not_le hlt)] at hm
    cases hm
  have hattempt : hmbFloor needs ≤ attempt := by
    rw [h.attempt]
    exact hfloor.trans
      (Nat.div_le_div_left (Nat.pow_le_pow_right (by decide) hkm) (Nat.two_pow_pos k))
  have hpreferred : hmbFloor needs ≤ hmbPreferred needs :=
    hfloor.trans ((Nat.div_le_self _ _).trans (startChunk_le _).1)
  have hpos := hmbFloor_pos needs
  refine hstop ⟨?_, ?_, hattempt, ?_⟩
  · omega
  · rw [hzero]
    exact hmmaxdCap_pos hpreferred
  · unfold chunkSize
    omega

/-- Phase 2 gathers a chunk if there is a call that is granted. -/
theorem fill_some {k : Nat} (h : FirstChunk needs alloc attempt f k) :
    (hmbFill needs alloc (hmbPreferred needs) (hmmaxdCap needs (hmbPreferred needs)) attempt
        f).chunks ≠ 0 ↔
      ∃ m, fillAnswers alloc m = true ∧
        hmbFloor needs ≤ startChunk (hmbPreferred needs) / 2 ^ m := by
  have hgrant : ∀ attempt f p,
      Asks needs (hmbPreferred needs) (hmmaxdCap needs (hmbPreferred needs)) attempt f →
      alloc f.ctrl.calls = some p → (∃ k, FirstChunk needs alloc attempt f k) →
      ∃ k, FirstChunk needs alloc attempt
        (f.granted p (chunkSize (hmbPreferred needs) attempt f)) k := by
    rintro attempt f p hask hp ⟨k, h⟩
    exact ⟨k, h.granted hask hp⟩
  have hrefuse : ∀ attempt f,
      Asks needs (hmbPreferred needs) (hmmaxdCap needs (hmbPreferred needs)) attempt f →
      alloc f.ctrl.calls = none → (∃ k, FirstChunk needs alloc attempt f k) →
      ∃ k, FirstChunk needs alloc (attempt / 2) f.refused k := by
    rintro attempt f - hp ⟨k, h⟩
    exact ⟨k + 1, h.refused hp⟩
  obtain ⟨attempt', ⟨k', h'⟩, hstop⟩ := hmbFill_rule hgrant hrefuse ⟨k, h⟩
  exact ⟨h'.after, fun ⟨m, hm, hfloor⟩ => h'.stopped hstop hm hfloor⟩

/-- Every call of phase 2 fills a descriptor or halves the size asked for. -/
structure CallsMade (cap n attempt : Nat) (f : Filling) (k : Nat) : Prop where
  attempt : attempt ≤ nvmeHmbStartChunk / 2 ^ k
  halvings : k ≤ 12
  calls : f.ctrl.calls ≤ n + f.chunks + k
  slots : f.chunks ≤ cap

theorem fill_calls {n preferred : Nat} (h : ∃ k, CallsMade cap n attempt f k) :
    (hmbFill needs alloc preferred cap attempt f).ctrl.calls ≤ n + cap + 12 := by
  have hgrant : ∀ attempt f p, Asks needs preferred cap attempt f →
      alloc f.ctrl.calls = some p → (∃ k, CallsMade cap n attempt f k) →
      ∃ k, CallsMade cap n attempt (f.granted p (chunkSize preferred attempt f)) k := by
    rintro attempt f p hask - ⟨k, h⟩
    refine ⟨k, h.attempt, h.halvings, ?_, hask.slot⟩
    have hcalls := h.calls
    change f.ctrl.calls + 1 ≤ n + (f.chunks + 1) + k
    omega
  have hrefuse : ∀ attempt f, Asks needs preferred cap attempt f →
      alloc f.ctrl.calls = none → (∃ k, CallsMade cap n attempt f k) →
      ∃ k, CallsMade cap n (attempt / 2) f.refused k := by
    rintro attempt f hask - ⟨k, h⟩
    refine ⟨k + 1, ?_, ?_, ?_, h.slots⟩
    · rw [← halved]
      exact Nat.div_le_div_right h.attempt
    · have hfloor := ((hmbFloor_le needs).2.trans hask.floor).trans h.attempt
      by_contra hlt
      have hk : k = 12 := by
        have := h.halvings
        omega
      rw [hk] at hfloor
      exact absurd hfloor (by decide)
    · have hcalls := h.calls
      change f.ctrl.calls + 1 ≤ n + f.chunks + (k + 1)
      omega
  obtain ⟨_, ⟨k, h'⟩, -⟩ := hmbFill_rule hgrant hrefuse h
  have hcalls := h'.calls
  have hslots := h'.slots
  have hk := h'.halvings
  omega

end Fill

/-! ### The whole of it -/

section Whole

variable {needs : HmbNeeds} {alloc : Nat → Option Pointer} {descs descsSize : Nat}
  {f : Filling} {base : HmbCtrl} {cs : List (Nat × Nat)}

theorem Filled.total_pos (hf : Filled needs (hmbPreferred needs)
    (hmmaxdCap needs (hmbPreferred needs)) base f cs) (hle : hmbMinimum needs ≤ f.total)
    (hmin : needs.hmmin.toNat ≠ 0) : cs ≠ [] := by
  rintro rfl
  rw [hf.total] at hle
  unfold hmbMinimum nvmeCtrlPageSize at hle
  rw [List.map_nil, List.sum_nil] at hle
  omega

theorem startChunk_large (hlarge : 4096 ≤ needs.hmpre.toNat) :
    startChunk (hmbPreferred needs) = nvmeHmbStartChunk := by
  refine if_neg (Nat.not_lt.mpr ?_)
  unfold hmbPreferred
  dsimp only
  split
  · decide
  · rw [(by decide : nvmeHmbStartChunk = 4096 * nvmeCtrlPageSize)]
    exact Nat.mul_le_mul_right nvmeCtrlPageSize hlarge

theorem hmbMinimum_zero (hmin : needs.hmmin.toNat = 0) (n : Nat) : hmbMinimum needs ≤ n := by
  rw [hmbMinimum, hmin, Nat.zero_mul]
  exact Nat.zero_le n

/-- The preferred size was granted in one block. -/
theorem single_wellLaid_iff {p : Pointer}
    (ht : Tabled descs descsSize (hmmaxdCap needs (hmbPreferred needs)) base)
    (hfloor : hmbFloor needs ≤ hmbPreferred needs) (hp : alloc 1 = some p) :
    WellLaid needs (hmbConclude (hmbMinimum needs) descs descsSize
        (hmbFill needs alloc (hmbPreferred needs) (hmmaxdCap needs (hmbPreferred needs))
          (startChunk (hmbPreferred needs))
          (Filling.granted { ctrl := { base with calls := 1 } } p (hmbPreferred needs)))) ↔
      WellAnswered needs alloc := by
  have hf : Filled needs (hmbPreferred needs) (hmmaxdCap needs (hmbPreferred needs)) base
      (Filling.granted { ctrl := { base with calls := 1 } } p (hmbPreferred needs))
      [(p.addr.toNat, hmbPreferred needs)] :=
    (Filled.start ht).granted (hmbPreferred_lt needs) (hmmaxdCap_pos hfloor) hfloor
      (Nat.zero_add _).le
  have hstop : ¬Asks needs (hmbPreferred needs) (hmmaxdCap needs (hmbPreferred needs))
      (startChunk (hmbPreferred needs))
      (Filling.granted { ctrl := { base with calls := 1 } } p (hmbPreferred needs)) := by
    intro hask
    have hmore : 0 + hmbPreferred needs < hmbPreferred needs := hask.more
    omega
  have hne : alloc 1 ≠ none := by
    rw [hp]
    exact Option.some_ne_none p
  have hpages : (([(p.addr.toNat, hmbPreferred needs)].map Prod.snd).map
      (· % nvmeCtrlPageSize)).sum = 0 := by
    refine sum_mod_of_dvd fun bytes hmem => ?_
    rw [List.mem_singleton.mp hmem]
    exact page_dvd_hmbPreferred needs
  rw [hmbFill_stop hstop, hf.wellLaid_iff ht (hmmaxdCap_limit needs _), hpages]
  constructor
  · exact fun _ => ⟨fun _ _ => .inl ⟨hfloor, hne⟩, fun _ hnone => absurd hnone hne⟩
  · exact fun _ _ => ⟨List.cons_ne_nil _ _, by decide⟩

/-- Phase 2 is asked, after phase 1 was refused. -/
theorem fill_wellLaid_iff
    (ht : Tabled descs descsSize (hmmaxdCap needs (hmbPreferred needs)) base)
    (htable : alloc 0 ≠ none) (hnone : alloc 1 = none) :
    WellLaid needs (hmbConclude (hmbMinimum needs) descs descsSize
        (hmbFill needs alloc (hmbPreferred needs) (hmmaxdCap needs (hmbPreferred needs))
          (startChunk (hmbPreferred needs)) { ctrl := { base with calls := 2 } })) ↔
      WellAnswered needs alloc := by
  have hfirst : FirstChunk needs alloc (startChunk (hmbPreferred needs))
      { ctrl := { base with calls := 2 } } 0 :=
    ⟨(Nat.div_one _).symm, fun _ => ⟨rfl, rfl, fun j hj => absurd hj (Nat.not_lt_zero j)⟩,
      fun hne => absurd rfl hne⟩
  have hsome : ∀ {cs : List (Nat × Nat)}, Filled needs (hmbPreferred needs)
      (hmmaxdCap needs (hmbPreferred needs)) base (hmbFill needs alloc (hmbPreferred needs)
        (hmmaxdCap needs (hmbPreferred needs)) (startChunk (hmbPreferred needs))
        { ctrl := { base with calls := 2 } }) cs → (cs ≠ [] ↔ SomeGranted needs alloc) := by
    intro cs hf
    have hiff := fill_some hfirst
    rw [hf.chunks, ← Nat.pos_iff_ne_zero, List.length_pos_iff] at hiff
    rw [hiff]
    exact ⟨.inr, fun h => h.resolve_left fun hsingle => hsingle.2 hnone⟩
  by_cases hsmall : needs.hmpre.toNat < 4096
  · have hstart : SmallFilled needs alloc base (startChunk (hmbPreferred needs))
        { ctrl := { base with calls := 2 } } 0 [] :=
      ⟨.start ht, rfl, rfl, (startChunk_small hsmall).trans (Nat.div_one _).symm,
        fun j hj => absurd hj (Nat.not_lt_zero j)⟩
    obtain ⟨m, cs, hf, hparts, hstop⟩ := fill_small hsmall hstart
    rw [hf.wellLaid_iff ht (hmmaxdCap_limit needs _), hf.total, hparts]
    constructor
    · intro h
      constructor
      case any =>
        exact fun _ hmin => (hsome hf).mp (h (hmbMinimum_zero hmin _)).1
      case whole =>
        intro _ _ _ m' hstop' hle
        rw [stopsAfter_unique hstop' hstop] at hle ⊢
        exact (h hle).2
    · intro h hle
      refine ⟨?_, h.whole htable hnone hsmall m hstop hle⟩
      by_cases hmin : needs.hmmin.toNat = 0
      · exact (hsome hf).mpr (h.any htable hmin)
      · exact hf.total_pos (by rwa [hf.total, hparts]) hmin
  · have hlarge : startChunk (hmbPreferred needs) = nvmeHmbStartChunk / 2 ^ 0 :=
      (startChunk_large (Nat.le_of_not_lt hsmall)).trans (Nat.div_one _).symm
    have hstart : LargeFilled needs (hmmaxdCap needs (hmbPreferred needs)) base
        (startChunk (hmbPreferred needs)) { ctrl := { base with calls := 2 } } 0 [] :=
      ⟨.start ht, hlarge, by simp⟩
    obtain ⟨cs, hf, hpages⟩ := @fill_large needs alloc _ _ _ _ _ _ hstart
    rw [hf.wellLaid_iff ht (hmmaxdCap_limit needs _), sum_mod_of_dvd hpages]
    constructor
    · intro h
      refine ⟨fun _ hmin => ?_, fun _ _ hlt => absurd hlt hsmall⟩
      exact (hsome hf).mp (h (hmbMinimum_zero hmin _)).1
    · intro h hle
      refine ⟨?_, by decide⟩
      by_cases hmin : needs.hmmin.toNat = 0
      · exact (hsome hf).mpr (h.any htable hmin)
      · exact hf.total_pos hle hmin

/-- The preferred size is below the floor and nothing is asked for. -/
theorem nothing_wellLaid_iff
    (ht : Tabled descs descsSize (hmmaxdCap needs (hmbPreferred needs)) base)
    (hfloor : ¬hmbFloor needs ≤ hmbPreferred needs) (htable : alloc 0 ≠ none) :
    WellLaid needs (hmbConclude (hmbMinimum needs) descs descsSize
        (hmbFill needs alloc (hmbPreferred needs) (hmmaxdCap needs (hmbPreferred needs))
          (startChunk (hmbPreferred needs)) { ctrl := { base with calls := 1 } })) ↔
      WellAnswered needs alloc := by
  have hstop : ¬Asks needs (hmbPreferred needs) (hmmaxdCap needs (hmbPreferred needs))
      (startChunk (hmbPreferred needs)) { ctrl := { base with calls := 1 } } :=
    fun hask => hfloor (hask.floor.trans (startChunk_le _).1)
  have hf : Filled needs (hmbPreferred needs) (hmmaxdCap needs (hmbPreferred needs)) base
      { ctrl := { base with calls := 1 } } [] := .start ht
  have hnone : ¬SomeGranted needs alloc := by
    rintro (⟨hle, -⟩ | ⟨m, -, hle⟩)
    · exact hfloor hle
    · exact hfloor (hle.trans ((Nat.div_le_self _ _).trans (startChunk_le _).1))
  have hzero : StopsAfter needs alloc 0 :=
    ⟨fun j hj => absurd hj (Nat.not_lt_zero j),
      fun hgo => hfloor (hgo.floor.trans (Nat.div_le_self _ _))⟩
  rw [hmbFill_stop hstop, hf.wellLaid_iff ht (hmmaxdCap_limit needs _)]
  constructor
  · intro h
    constructor
    case any => exact fun _ hmin => absurd rfl (h (hmbMinimum_zero hmin _)).1
    case whole =>
      intro _ _ _ m hstop' _
      rw [stopsAfter_unique hstop' hzero]
      exact (by decide : 0 < nvmeCtrlPageSize)
  · intro h hle
    by_cases hmin : needs.hmmin.toNat = 0
    · exact absurd (h.any htable hmin) hnone
    · exact absurd rfl (hf.total_pos hle hmin)

/-- However the pool answers, `nvme_alloc_host_mem` comes to an end after so many calls. -/
def EndsSoon (needs : HmbNeeds) (out : HmbCtrl × Int) : Prop :=
  out.1.calls ≤ hmmaxdCap needs (hmbPreferred needs) + 14

theorem hmbChunksFree_calls (c : HmbCtrl) : (hmbChunksFree c).calls = c.calls := by
  have hfold : ∀ (ds : List HostMemBufDesc) (c : HmbCtrl),
      (ds.foldl (fun c d =>
        if d.addr % 2 ^ 32 ≠ 0 then c.logStep (.free (d.addr % 2 ^ 32)) else c) c).calls =
        c.calls := by
    intro ds
    induction ds with
    | nil => exact fun _ => rfl
    | cons d ds ih =>
        intro c
        rw [List.foldl_cons, ih]
        split <;> rfl
  unfold hmbChunksFree
  split
  · rfl
  · exact hfold _ c

theorem hmbConclude_calls (min : Nat) (f : Filling) :
    (hmbConclude min descs descsSize f).1.calls = f.ctrl.calls := by
  unfold hmbConclude
  dsimp only
  split
  · exact hmbChunksFree_calls _
  · rfl

/-- What `nvme_alloc_host_mem` does once it has its table. -/
theorem tabled_wellLaid_iff
    (ht : Tabled descs descsSize (hmmaxdCap needs (hmbPreferred needs)) base)
    (htable : alloc 0 ≠ none) :
    EndsSoon needs (hmbConclude (hmbMinimum needs) descs descsSize
        (hmbFill needs alloc (hmbPreferred needs) (hmmaxdCap needs (hmbPreferred needs))
          (startChunk (hmbPreferred needs)) (hmbSingle needs alloc (hmbPreferred needs) base))) ∧
      (WellLaid needs (hmbConclude (hmbMinimum needs) descs descsSize
          (hmbFill needs alloc (hmbPreferred needs) (hmmaxdCap needs (hmbPreferred needs))
            (startChunk (hmbPreferred needs)) (hmbSingle needs alloc (hmbPreferred needs) base))) ↔
        WellAnswered needs alloc) := by
  have hbase : { base with calls := 1 } = base := by
    rw [← ht.calls]
  have hattempt : startChunk (hmbPreferred needs) ≤ nvmeHmbStartChunk / 2 ^ 0 := by
    rw [pow_zero, Nat.div_one]
    exact (startChunk_le _).2
  have hends : ∀ f : Filling, f.ctrl.calls ≤ 2 + f.chunks →
      f.chunks ≤ hmmaxdCap needs (hmbPreferred needs) →
      EndsSoon needs (hmbConclude (hmbMinimum needs) descs descsSize
        (hmbFill needs alloc (hmbPreferred needs) (hmmaxdCap needs (hmbPreferred needs))
          (startChunk (hmbPreferred needs)) f)) := by
    intro f hcalls hslots
    have hmade : (hmbFill needs alloc (hmbPreferred needs) (hmmaxdCap needs (hmbPreferred needs))
        (startChunk (hmbPreferred needs)) f).ctrl.calls ≤
          2 + hmmaxdCap needs (hmbPreferred needs) + 12 :=
      fill_calls ⟨0, hattempt, Nat.zero_le _, hcalls, hslots⟩
    rw [EndsSoon, hmbConclude_calls]
    omega
  by_cases hfloor : hmbFloor needs ≤ hmbPreferred needs
  · cases hp : alloc 1 with
    | some p =>
        rw [hmbSingle_granted hfloor (ht.calls ▸ hp)]
        refine ⟨hends _ ?_ (hmmaxdCap_pos hfloor), ?_⟩
        · change base.calls + 1 ≤ 2 + 1
          rw [ht.calls]
          decide
        · have hiff := single_wellLaid_iff ht hfloor hp
          rwa [hbase] at hiff
    | none =>
        rw [hmbSingle_refused hfloor (ht.calls ▸ hp), ht.calls]
        exact ⟨hends _ (Nat.le_refl 2) (Nat.zero_le _), fill_wellLaid_iff ht htable hp⟩
  · rw [hmbSingle_skipped hfloor]
    refine ⟨hends _ (ht.calls.le.trans (Nat.le_succ 1)) (Nat.zero_le _), ?_⟩
    have hiff := nothing_wellLaid_iff ht hfloor htable
    rwa [hbase] at hiff

/-- The buffer is laid out as promised, or everything is given back, for exactly the answers of
the pool that leave something to a controller without a minimum and lose less than a page by
rounding. -/
theorem alloc_host_mem_well_laid_iff (needs : HmbNeeds) (alloc : Nat → Option Pointer) :
    EndsSoon needs
        (nvmeAllocHostMem needs alloc (hmbMinimum needs) (hmbPreferred needs) {}) ∧
      (WellLaid needs
          (nvmeAllocHostMem needs alloc (hmbMinimum needs) (hmbPreferred needs) {}) ↔
        WellAnswered needs alloc) := by
  cases htable : alloc 0 with
  | none =>
      rw [nvmeAllocHostMem_none _ _ htable]
      refine ⟨by simp [EndsSoon], fun _ => ⟨fun h => ?_, fun h => ?_⟩,
        fun _ => ⟨fun h => ?_, fun _ => ?_⟩⟩
      · exact absurd htable h
      · exact absurd htable h
      · cases h
      · exact ⟨rfl, rfl, rfl, .refl _⟩
  | some t =>
      rw [nvmeAllocHostMem_some _ htable]
      refine tabled_wellLaid_iff (tabled_ok needs t) ?_
      rw [htable]
      exact Option.some_ne_none t

/-- A controller that prefers and needs five pages. -/
def fivePages : HmbNeeds := { hmpre := 5, hmmin := 5, hmminds := 0, hmmaxd := 0 }

/-- A pool that has no 20 KiB in one piece. -/
def scatteredPool : Nat → Option Pointer
  | 0 => some ⟨0x10000, by decide⟩
  | 3 => some ⟨0x20000, by decide⟩
  | 4 => some ⟨0x30000, by decide⟩
  | _ => none

/-- Two chunks of two and a half pages are described as four pages and announced as five. -/
theorem alloc_host_mem_loses_page :
    (nvmeAllocHostMem fivePages scatteredPool (hmbMinimum fivePages) (hmbPreferred fivePages)
        {}).2 = 0 ∧
      ¬WellLaid fivePages (nvmeAllocHostMem fivePages scatteredPool (hmbMinimum fivePages)
        (hmbPreferred fivePages) {}) := by
  have hfloor : hmbFloor fivePages = 8192 := by decide
  have hpreferred : hmbPreferred fivePages = 20480 := by decide
  have hcap : hmmaxdCap fivePages 20480 = 3 := by decide
  have hmin : hmbMinimum fivePages = 20480 := by decide
  rw [hpreferred, hmin]
  have hout : nvmeAllocHostMem fivePages scatteredPool 20480 20480 {} = ({
      hmbDescs := some 0x10000
      hmbNrDescs := 2, hmbSize := 20480
      table := [{ addr := 0x20000, size := 2 }, { addr := 0x30000, size := 2 }, {}]
      calls := 5
      log := [.alloc 0x10000 48, .alloc 0x20000 10240, .alloc 0x30000 10240,
        .cacheFlush 0x10000 48] }, 0) := by
    simp [nvmeAllocHostMem, hmbFill, hmbSingle, HmbCtrl.dmaAlloc, hfloor, hcap, scatteredPool,
      hmbConclude, Filling.record, HmbCtrl.logStep, sizeofHostMemBufDesc, nvmeHmbStartChunk,
      nvmeCtrlPageSize]
  rw [hout]
  refine ⟨rfl, fun h => ?_⟩
  exact absurd (h.1 rfl).sent (by decide)

end Whole

end HostMemory
end NvmeDriver
