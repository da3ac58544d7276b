import NvmeDriver.Prp

/-!
# When the controller's walk finds the buffer

`buildPrps` and `walk` are two readings of one list layout.  This module states
the layout once (`ListLayout`), shows that the building loop produces it and
that the controller decodes it page by page, and finds the one place where the
two sides disagree: a list page is left at slot 511 as soon as one more data
page follows, whereas the controller takes slot 511 for a chain pointer only
when more than one page of data follows.
-/

namespace NvmeDriver
namespace Prp

open Lib

/-- Data entries `build_prps` puts into a list page before it chains. -/
def chainAt : Nat := entriesPerPage - 1

/-- Address of the list entry for data page `i`. -/
def slotAddr (pg : Nat → Nat) (i : Nat) : Nat :=
  pg (i / chainAt) + 8 * (i % chainAt)

/-- Where the controller stands when it is about to look for data page `i`:
right after the entry of page `i - 1`. -/
def seekAddr (pg : Nat → Nat) : Nat → Nat
  | 0 => pg 0
  | i + 1 => slotAddr pg i + 8

/-- A chained list of `nr` data entries on the list pages `pg 0, pg 1, …`. -/
structure ListLayout
    (mem : Memory) (pg : Nat → Nat) (base nr : Nat) : Prop where
  entry : ∀ i, i < nr → mem (slotAddr pg i) = base + i * pageSize
  chain : ∀ k, chainAt * (k + 1) < nr →
    mem (pg k + 8 * chainAt) = pg (k + 1) ∧ pg k % pageSize = 0
  inside : ∀ i, i + 1 < nr → slotAddr pg i % pageSize ≠ pageSize - 8

/-- Entry addresses a list of `nr` data pages occupies. -/
def OnList (pg : Nat → Nat) (nr a : Nat) : Prop :=
  (∃ i, i < nr ∧ a = slotAddr pg i) ∨
    ∃ k, chainAt * (k + 1) < nr ∧ a = pg k + 8 * chainAt

/-! ### Transfers and fetches -/

@[simp] theorem transfers_nil : transfers [] = [] := rfl

@[simp] theorem transfers_fetch (a : Nat) (w : List Access) :
    transfers (.fetch a :: w) = transfers w := rfl

@[simp] theorem transfers_transfer (a n : Nat) (w : List Access) :
    transfers (.transfer a n :: w) = (a, n) :: transfers w := rfl

@[simp] theorem fetches_nil : fetches [] = [] := rfl

@[simp] theorem fetches_fetch (a : Nat) (w : List Access) :
    fetches (.fetch a :: w) = a :: fetches w := rfl

@[simp] theorem fetches_transfer (a n : Nat) (w : List Access) :
    fetches (.transfer a n :: w) = fetches w := rfl

/-! ### The walk of a layout -/

section Walk

variable {mem : Memory} {pg : Nat → Nat} {base nr : Nat}

theorem seekAddr_succ_of_inside {i : Nat}
    (h : (i + 1) % chainAt ≠ 0) :
    seekAddr pg (i + 1) = slotAddr pg (i + 1) := by
  have h511 : chainAt = 511 := rfl
  rw [h511] at h
  have hdiv : (i + 1) / 511 = i / 511 := by omega
  have hmod : (i + 1) % 511 = i % 511 + 1 := by omega
  simp only [seekAddr, slotAddr]
  rw [h511, hdiv, hmod]
  omega

/-- After a full list page the controller looks at the page's last slot. -/
theorem seekAddr_succ_of_full (pg : Nat → Nat) {i : Nat}
    (h : (i + 1) % chainAt = 0) :
    seekAddr pg (i + 1) = pg (i / chainAt) + 8 * chainAt ∧
      (i + 1) / chainAt = i / chainAt + 1 ∧
      slotAddr pg (i + 1) = pg (i / chainAt + 1) := by
  have h511 : chainAt = 511 := rfl
  rw [h511] at h
  have hdiv : (i + 1) / 511 = i / 511 + 1 := by omega
  have hmod : i % 511 = 510 := by omega
  refine ⟨?_, ?_, ?_⟩
  · simp only [seekAddr, slotAddr]
    rw [h511, hmod]
  · rw [h511, hdiv]
  · unfold slotAddr
    rw [h511, hdiv, h]
    rfl

/-- The controller reads the entry of data page `i` where it was stored. -/
theorem walkList_at_slot
    (L : ListLayout mem pg base nr) {i left fuel : Nat}
    (hi : i < nr) (hpos : 0 < left)
    (hleft : i + 1 = nr → left ≤ pageSize) :
    walkList mem (fuel + 1) (slotAddr pg i) left =
      .fetch (slotAddr pg i) ::
        .transfer (base + i * pageSize) (min pageSize left) ::
        walkList mem fuel (seekAddr pg (i + 1)) (left - pageSize) := by
  have hdata :
      ¬(slotAddr pg i % pageSize = pageSize - 8 ∧ pageSize < left) := by
    rintro ⟨hlast, hlt⟩
    by_cases hnr : i + 1 = nr
    · have := hleft hnr
      omega
    · exact L.inside i (by omega) hlast
  have h0 : left ≠ 0 := by omega
  simp only [walkList, h0, hdata, if_false, L.entry i hi, seekAddr]

/-- One data page of the walk: the fetches it makes, the segment it moves,
and the rest.  The exception is a lone last page behind a full list page. -/
theorem walkList_step
    (L : ListLayout mem pg base nr) (i left fuel : Nat)
    (hi : i < nr) (hpos : 0 < left)
    (hleft : i + 1 = nr → left ≤ pageSize)
    (hmore : i + 1 < nr → pageSize < left)
    (hlone : i + 1 = nr → 0 < i → i % chainAt ≠ 0) :
    ∃ f, f ≤ 2 ∧ ∃ pre : List Access,
      walkList mem (fuel + 2) (seekAddr pg i) left =
        pre ++ .transfer (base + i * pageSize) (min pageSize left) ::
          walkList mem (fuel + 2 - f) (seekAddr pg (i + 1)) (left - pageSize) ∧
      transfers pre = [] ∧ ∀ a, a ∈ fetches pre → OnList pg nr a := by
  have hown : ∀ a, a ∈ fetches [.fetch (slotAddr pg i)] → OnList pg nr a := by
    intro a ha
    exact Or.inl ⟨i, hi, by simpa using ha⟩
  cases i with
  | zero =>
      refine ⟨1, by omega, [.fetch (slotAddr pg 0)], ?_, rfl, hown⟩
      have hseek : seekAddr pg 0 = slotAddr pg 0 := by
        simp [seekAddr, slotAddr]
      rw [hseek]
      exact walkList_at_slot L hi hpos hleft
  | succ i =>
      by_cases hfull : (i + 1) % chainAt = 0
      · obtain ⟨hseek, hdiv, hslot⟩ := seekAddr_succ_of_full pg hfull
        have hnr : i + 2 < nr := by
          by_contra hcon
          exact hlone (by omega) (by omega) hfull
        have hk : chainAt * (i / chainAt + 1) < nr := by
          have := Nat.div_mul_le_self (i + 1) chainAt
          rw [hdiv, Nat.mul_comm] at this
          omega
        obtain ⟨hchain, halign⟩ := L.chain (i / chainAt) hk
        refine ⟨2, le_refl _,
          [.fetch (seekAddr pg (i + 1)), .fetch (slotAddr pg (i + 1))],
          ?_, rfl, ?_⟩
        · have hlast : seekAddr pg (i + 1) % pageSize = pageSize - 8 := by
            rw [hseek]
            have h511 : 8 * chainAt = 4088 := rfl
            have hP : pageSize = 4096 := rfl
            rw [hP] at halign
            rw [h511, hP]
            omega
          have h0 : left ≠ 0 := by omega
          have hlt : pageSize < left := hmore (by omega)
          have hnext :
              mem (seekAddr pg (i + 1)) = slotAddr pg (i + 1) := by
            rw [hseek, hchain, hslot]
          rw [walkList]
          simp only [h0, if_false, hlast, hlt, and_self, if_true, hnext]
          rw [walkList_at_slot L hi hpos hleft]
          rfl
        · intro a ha
          have hcases : a = seekAddr pg (i + 1) ∨ a = slotAddr pg (i + 1) := by
            simpa using ha
          rcases hcases with rfl | rfl
          · exact Or.inr ⟨i / chainAt, hk, hseek⟩
          · exact Or.inl ⟨i + 1, hi, rfl⟩
      · refine ⟨1, by omega, [.fetch (slotAddr pg (i + 1))], ?_, rfl, hown⟩
        rw [seekAddr_succ_of_inside hfull]
        exact walkList_at_slot L hi hpos hleft

@[simp] theorem transfers_append (v w : List Access) :
    transfers (v ++ w) = transfers v ++ transfers w := by
  induction v with
  | nil => rfl
  | cons a v ih =>
      cases a <;> simp [ih]

@[simp] theorem fetches_append (v w : List Access) :
    fetches (v ++ w) = fetches v ++ fetches w := by
  induction v with
  | nil => rfl
  | cons a v ih =>
      cases a <;> simp [ih]

/-- The walk of the last `m` data pages, when none of them is a lone page
behind a full list page. -/
theorem walkList_layout
    (L : ListLayout mem pg base nr)
    (hnr : nr = 1 ∨ nr % chainAt ≠ 1) :
    ∀ (m i left fuel : Nat), i + m = nr →
      left ≤ m * pageSize → (0 < m → m * pageSize < left + pageSize) →
      2 * m ≤ fuel →
      transfers (walkList mem fuel (seekAddr pg i) left) =
          alignedSegments pageSize (base + i * pageSize) left ∧
        ∀ a, a ∈ fetches (walkList mem fuel (seekAddr pg i) left) →
          OnList pg nr a := by
  intro m
  have hP : pageSize = 4096 := rfl
  induction m with
  | zero =>
      intro i left fuel _ hle _ _
      have h0 : left = 0 := by omega
      subst h0
      cases fuel <;> simp [walkList, hP]
  | succ m ih =>
      intro i left fuel him hle hgt hfuel
      have hgt' := hgt (by omega)
      rw [Nat.succ_mul] at hle hgt'
      obtain ⟨fuel, rfl⟩ : ∃ f, fuel = f + 2 := ⟨fuel - 2, by omega⟩
      have hlone : i + 1 = nr → 0 < i → i % chainAt ≠ 0 := by
        intro hlast hpos hmod
        have h511 : chainAt = 511 := rfl
        rw [h511] at hmod hnr
        omega
      have hlast : i + 1 = nr → left ≤ pageSize := by
        intro h
        have hm : m = 0 := by omega
        subst hm
        omega
      have hmore : i + 1 < nr → pageSize < left := by
        intro h
        have := Nat.mul_le_mul_right pageSize (by omega : 1 ≤ m)
        omega
      obtain ⟨f, hf, pre, hwalk, hpre, hpreOn⟩ :=
        walkList_step L i left fuel
          (by omega) (by omega) hlast hmore hlone
      obtain ⟨ihT, ihF⟩ :=
        ih (i + 1) (left - pageSize) (fuel + 2 - f) (by omega)
          (by omega) (by omega) (by omega)
      rw [hwalk]
      constructor
      · rw [transfers_append, hpre, transfers_transfer, ihT,
          alignedSegments_step (by decide) _ (by omega : 0 < left)]
        have hnext : base + (i + 1) * pageSize = base + i * pageSize + pageSize := by
          ring
        rw [hnext]
        rfl
      · intro a ha
        rw [fetches_append, fetches_transfer, List.mem_append] at ha
        rcases ha with ha | ha
        · exact hpreOn a ha
        · exact ihF a ha

/-- A lone last data page behind a full list page: the controller takes the
chain pointer for the address of that page. -/
theorem walkList_lone
    (L : ListLayout mem pg base nr)
    (hnr : 1 < nr) (hmod : nr % chainAt = 1) :
    ∀ (m i left fuel : Nat), i + m + 1 = nr →
      left ≤ (m + 1) * pageSize → m * pageSize < left →
      2 * (m + 1) ≤ fuel →
      ∃ n, (transfers (walkList mem fuel (seekAddr pg i) left))[m]? =
        some (pg ((nr - 1) / chainAt), n) := by
  intro m
  have hP : pageSize = 4096 := rfl
  have h511 : chainAt = 511 := rfl
  induction m with
  | zero =>
      intro i left fuel him hle hgt hfuel
      obtain ⟨fuel, rfl⟩ : ∃ f, fuel = f + 1 := ⟨fuel - 1, by omega⟩
      obtain ⟨i, rfl⟩ : ∃ j, i = j + 1 := ⟨i - 1, by omega⟩
      have hfull : (i + 1) % chainAt = 0 := by
        rw [h511] at hmod ⊢
        omega
      obtain ⟨hseek, hdiv, hslot⟩ := seekAddr_succ_of_full pg hfull
      have hk : chainAt * (i / chainAt + 1) < nr := by
        have := Nat.div_mul_le_self (i + 1) chainAt
        rw [hdiv, Nat.mul_comm] at this
        omega
      obtain ⟨hchain, -⟩ := L.chain (i / chainAt) hk
      have hdata :
          ¬(seekAddr pg (i + 1) % pageSize = pageSize - 8 ∧
            pageSize < left) := by
        omega
      have h0 : left ≠ 0 := by omega
      have hlast : nr - 1 = i + 1 := by omega
      refine ⟨min pageSize left, ?_⟩
      rw [hlast, hdiv, ← hchain, ← hseek]
      simp only [walkList, h0, hdata, if_false]
      rfl
  | succ m ih =>
      intro i left fuel him hle hgt hfuel
      obtain ⟨fuel, rfl⟩ : ∃ f, fuel = f + 2 := ⟨fuel - 2, by omega⟩
      rw [Nat.succ_mul] at hle hgt
      obtain ⟨f, hf, pre, hwalk, hpre, -⟩ :=
        walkList_step L i left fuel
          (by omega) (by omega) (by omega) (by omega) (by omega)
      obtain ⟨n, hn⟩ :=
        ih (i + 1) (left - pageSize) (fuel + 2 - f) (by omega)
          (by omega) (by omega) (by omega)
      refine ⟨n, ?_⟩
      rw [hwalk, transfers_append, hpre, transfers_transfer]
      simpa using hn

end Walk

/-! ### The layout the loop produces -/

/-- The `k`-th page the slab hands out. -/
def pageOf (slab : Nat → Option Nat) (k : Nat) : Nat :=
  (slab k).getD 0

/-- The two list formats: full pages, or one small list that never chains. -/
def ListFormat (listBytes nr : Nat) : Prop :=
  listBytes = pageSize ∨ (listBytes = smallPoolSize ∧ nr ≤ smallPoolEntries)

/-- What the pages, PRP2 and memory of a cursor hold once the first `idx`
entries are stored on `m` list pages. -/
structure Stored
    (slab : Nat → Option Nat) (base idx m : Nat) (c : ListCursor) :
    Prop where
  taken : ∀ k, k < m → slab k = some (pageOf slab k)
  pages : c.pages = (List.range m).map (pageOf slab)
  prp2 : 0 < m → c.prp2 = pageOf slab 0
  entry : ∀ i, i < idx →
    c.mem (slotAddr (pageOf slab) i) = base + i * pageSize
  chain : ∀ k, k + 1 < m →
    c.mem (pageOf slab k + 8 * chainAt) = pageOf slab (k + 1)

/-- Loop invariant at the head of turn `idx`. -/
structure LoopInv
    (slab : Nat → Option Nat) (base nr idx : Nat) (c : ListCursor) :
    Prop where
  stored : Stored slab base idx ((idx + chainAt - 1) / chainAt) c
  cursor : idx < nr →
    (idx % chainAt = 0 ∧ c.list = none) ∨
      (idx % chainAt ≠ 0 ∧
        c.list = some (pageOf slab (idx / chainAt)) ∧
        c.listPos = idx % chainAt)

section Build

variable {slab : Nat → Option Nat} {listBytes buffer bytes : Nat}
variable {base nr : Nat}

/-- Two list pages of one request do not overlap. -/
theorem SlabContract.disjoint
    (hc : SlabContract slab listBytes buffer bytes)
    (hf : ListFormat listBytes nr) {j k p q : Nat}
    (hj : slab j = some p) (hk : slab k = some q) (hne : j ≠ k) :
    p + listBytes ≤ q ∨ q + listBytes ≤ p := by
  have hpq : p ≠ q := by
    intro h
    subst h
    exact hne (hc.distinct j k p hj hk)
  have hp := hc.aligned j p hj
  have hq := hc.aligned k q hk
  rcases hf with rfl | ⟨rfl, -⟩
  · simp only [pageSize] at *
    omega
  · simp only [smallPoolSize] at *
    omega

/-- A data entry lies inside its list page. -/
theorem slot_in_page
    (hf : ListFormat listBytes nr) {i : Nat} (hi : i < nr) :
    8 * (i % chainAt) + 8 ≤ listBytes := by
  have h511 : chainAt = 511 := rfl
  rw [h511]
  rcases hf with rfl | ⟨rfl, hnr⟩
  · simp only [pageSize]
    omega
  · simp only [smallPoolEntries, smallPoolSize] at *
    omega

/-- Chaining needs full pages. -/
theorem full_page_of_chain
    (hf : ListFormat listBytes nr) {k : Nat}
    (hk : chainAt * (k + 1) < nr) :
    listBytes = pageSize := by
  have h511 : chainAt = 511 := rfl
  rw [h511] at hk
  rcases hf with rfl | ⟨rfl, hnr⟩
  · rfl
  · simp only [smallPoolEntries, smallPoolSize] at hnr
    omega

/-- Different cells of the list pages have different addresses. -/
theorem cell_ne
    (hc : SlabContract slab listBytes buffer bytes)
    (hf : ListFormat listBytes nr) {j k p q s t : Nat}
    (hj : slab j = some p) (hk : slab k = some q)
    (hs : 8 * s + 8 ≤ listBytes) (ht : 8 * t + 8 ≤ listBytes)
    (hne : j ≠ k ∨ s ≠ t) :
    p + 8 * s ≠ q + 8 * t := by
  by_cases hjk : j = k
  · subst hjk
    have hpq : p = q := by
      rw [hj] at hk
      exact Option.some.inj hk
    omega
  · have := hc.disjoint hf hj hk hjk
    omega

/-- Clearing a fresh list page leaves the cells of the other pages alone. -/
theorem zero_cell
    (hc : SlabContract slab listBytes buffer bytes)
    (hf : ListFormat listBytes nr) (mem : Memory) {j k p q s : Nat}
    (hj : slab j = some p) (hk : slab k = some q)
    (hs : 8 * s + 8 ≤ listBytes) (hne : j ≠ k) :
    mem.zero q listBytes (p + 8 * s) = mem (p + 8 * s) := by
  have := hc.disjoint hf hj hk hne
  exact mem.zero_other (by omega)

/-- A fresh list page, chained to its predecessor if there is one. -/
theorem Stored.nextPage
    (hc : SlabContract slab listBytes buffer bytes)
    (hf : ListFormat listBytes nr) {c c₁ : ListCursor} {l m : Nat}
    (hm : chainAt * m < nr)
    (hst : Stored slab base (chainAt * m) m c) (hlist : c.list = none)
    (h : nextListPage slab listBytes c = some (l, c₁)) :
    l = pageOf slab m ∧ c₁.listPos = 0 ∧ c₁.list = some l ∧
      Stored slab base (chainAt * m) (m + 1) c₁ := by
  have h511 : chainAt = 511 := rfl
  have hlen : c.pages.length = m := by
    rw [hst.pages]
    simp
  unfold nextListPage at h
  rw [hlist, hlen] at h
  simp only at h
  split at h
  · cases h
  cases hslab : slab m with
  | none =>
      rw [hslab] at h
      cases h
  | some p =>
      have hp : pageOf slab m = p := by
        simp [pageOf, hslab]
      have htaken : ∀ k, k < m + 1 → slab k = some (pageOf slab k) := by
        intro k hk
        by_cases hkm : k = m
        · rw [hkm, hp, hslab]
        · exact hst.taken k (by omega)
      -- entries of the earlier pages survive the memset of the fresh one
      have hkeep : ∀ i, i < chainAt * m →
          c.mem.zero p listBytes (slotAddr (pageOf slab) i) =
            base + i * pageSize := by
        intro i hi
        have hdiv : i / chainAt < m := Nat.div_lt_of_lt_mul hi
        rw [← hst.entry i hi]
        exact zero_cell hc hf c.mem (hst.taken _ hdiv) hslab
          (slot_in_page hf (by omega)) (by omega)
      rw [hslab] at h
      cases m with
      | zero =>
          have hnil : c.pages = [] := List.eq_nil_of_length_eq_zero hlen
          simp only [hnil, List.getLast?_nil, Option.some.injEq,
            Prod.mk.injEq] at h
          obtain ⟨rfl, rfl⟩ := h
          refine ⟨hp.symm, rfl, rfl, htaken, ?_, ?_, hkeep, ?_⟩
          · simp [hp]
          · intro _
            exact hp.symm
          · intro k hk
            omega
      | succ m =>
          have hlast : c.pages.getLast? = some (pageOf slab m) := by
            rw [hst.pages, List.range_succ]
            simp
          have hfull : listBytes = pageSize := full_page_of_chain hf hm
          have hroom : 8 * chainAt + 8 ≤ listBytes := by
            rw [hfull]
            decide
          have hslot : entriesPerPage - 1 = chainAt := rfl
          simp only [hlast, hslot, Option.some.injEq, Prod.mk.injEq] at h
          obtain ⟨rfl, rfl⟩ := h
          refine ⟨hp.symm, rfl, rfl, htaken, ?_, ?_, ?_, ?_⟩
          · rw [List.range_succ, List.map_append, ← hst.pages, List.map_singleton,
              hp]
          · intro _
            exact hst.prp2 (by omega)
          · intro i hi
            have hdiv : i / chainAt < m + 1 := Nat.div_lt_of_lt_mul hi
            have hne : slotAddr (pageOf slab) i ≠ pageOf slab m + 8 * chainAt :=
              cell_ne hc hf (hst.taken _ hdiv) (hst.taken m (by omega))
                (slot_in_page hf (by omega)) hroom
                (Or.inr (by rw [h511]; omega))
            rw [← hkeep i hi]
            exact Memory.store_other _ p hne
          · intro k hk
            by_cases hkm : k = m
            · subst hkm
              simp only [hp, Memory.store_same]
            · have hk' : k + 1 < m + 1 := by omega
              have hne :
                  pageOf slab k + 8 * chainAt ≠ pageOf slab m + 8 * chainAt :=
                cell_ne hc hf (hst.taken k (by omega)) (hst.taken m (by omega))
                  hroom hroom (Or.inl hkm)
              simp only [Memory.store_other _ p hne]
              rw [← hst.chain k hk']
              exact zero_cell hc hf c.mem (hst.taken k (by omega)) hslab hroom
                (by omega)

/-- Storing entry `idx` on the current list page. -/
theorem Stored.putEntry
    (hc : SlabContract slab listBytes buffer bytes)
    (hf : ListFormat listBytes nr) {c : ListCursor} {idx : Nat}
    (hidx : idx < nr)
    (hst : Stored slab base idx (idx / chainAt + 1) c)
    (hpos : c.listPos = idx % chainAt) :
    Stored slab base (idx + 1) (idx / chainAt + 1)
      (putEntry c (pageOf slab (idx / chainAt)) (base + idx * pageSize)) := by
  have h511 : chainAt = 511 := rfl
  have hmem : (Prp.putEntry c (pageOf slab (idx / chainAt))
      (base + idx * pageSize)).mem =
        c.mem.store (slotAddr (pageOf slab) idx) (base + idx * pageSize) := by
    simp only [Prp.putEntry, slotAddr, hpos]
  have hpage := hst.taken (idx / chainAt) (by omega)
  refine ⟨hst.taken, hst.pages, hst.prp2, ?_, ?_⟩
  · intro i hi
    rw [hmem]
    by_cases hlast : i = idx
    · subst hlast
      exact Memory.store_same _ _ _
    · have hdiv : i / chainAt ≤ idx / chainAt := Nat.div_le_div_right (by omega)
      have hne : slotAddr (pageOf slab) i ≠ slotAddr (pageOf slab) idx :=
        cell_ne hc hf (hst.taken _ (by omega)) hpage
          (slot_in_page hf (by omega)) (slot_in_page hf hidx)
          (by simp only [h511]; omega)
      rw [Memory.store_other _ _ hne]
      exact hst.entry i (by omega)
  · intro k hk
    have hchain : chainAt * (k + 1) < nr := by
      simp only [h511] at hk ⊢
      omega
    have hroom : 8 * chainAt + 8 ≤ listBytes := by
      rw [full_page_of_chain hf hchain]
      decide
    have hne :
        pageOf slab k + 8 * chainAt ≠ slotAddr (pageOf slab) idx :=
      cell_ne hc hf (hst.taken k (by omega)) hpage hroom
        (slot_in_page hf hidx) (Or.inr (by rw [h511]; omega))
    rw [hmem, Memory.store_other _ _ hne]
    exact hst.chain k hk

/-- One turn of the loop, seen from its invariant. -/
theorem LoopInv.turn
    (hc : SlabContract slab listBytes buffer bytes)
    (hf : ListFormat listBytes nr) {c c₁ : ListCursor} {idx l : Nat}
    (hidx : idx < nr) (hinv : LoopInv slab base nr idx c)
    (h : nextListPage slab listBytes c = some (l, c₁)) :
    l = pageOf slab (idx / chainAt) ∧ c₁.list = some l ∧
      c₁.listPos = idx % chainAt ∧
      Stored slab base idx (idx / chainAt + 1) c₁ := by
  have h511 : chainAt = 511 := rfl
  have hst := hinv.stored
  rcases hinv.cursor hidx with ⟨hmod, hlist⟩ | ⟨hmod, hlist, hpos⟩
  · have hm : (idx + chainAt - 1) / chainAt = idx / chainAt := by
      simp only [h511] at hmod ⊢
      omega
    have hidx' : chainAt * (idx / chainAt) = idx := by
      simp only [h511] at hmod ⊢
      omega
    rw [hm, ← hidx'] at hst
    rw [Nat.mul_div_cancel_left _ (by decide)] at hst
    obtain ⟨hl, hpos, hlist₁, hst₁⟩ :=
      hst.nextPage hc hf (by omega) hlist h
    rw [hidx'] at hst₁
    exact ⟨hl, hlist₁, by rw [hpos, hmod], hst₁⟩
  · have hm : (idx + chainAt - 1) / chainAt = idx / chainAt + 1 := by
      simp only [h511] at hmod ⊢
      omega
    simp only [nextListPage, hlist, Option.some.injEq, Prod.mk.injEq] at h
    obtain ⟨rfl, rfl⟩ := h
    rw [hm] at hst
    exact ⟨rfl, hlist, hpos, hst⟩

/-- A turn that gets its list page leads to the next turn, never to the
`break` at slot 512. -/
theorem buildPrpsLoop_succ
    (hc : SlabContract slab listBytes buffer bytes)
    (hf : ListFormat listBytes nr) {c c₁ : ListCursor} {idx l : Nat}
    (hidx : idx < nr) (hinv : LoopInv slab base nr idx c)
    (hnext : nextListPage slab listBytes c = some (l, c₁)) (n : Nat) :
    ∃ c', LoopInv slab base nr (idx + 1) c' ∧
      buildPrpsLoop slab base nr listBytes (n + 1) idx c =
        buildPrpsLoop slab base nr listBytes n (idx + 1) c' := by
  have h511 : chainAt = 511 := rfl
  have h512 : entriesPerPage = 512 := rfl
  obtain ⟨hl, hlist, hpos, hst₁⟩ := hinv.turn hc hf hidx hnext
  have hst₂ := hst₁.putEntry hc hf hidx hpos
  have hm : (idx + 1 + chainAt - 1) / chainAt = idx / chainAt + 1 := by
    simp only [h511]
    omega
  have hpos₂ :
      (putEntry c₁ l (base + idx * pageSize)).listPos = idx % chainAt + 1 := by
    simp only [putEntry, hpos]
  have hlist₂ :
      (putEntry c₁ l (base + idx * pageSize)).list = some l := hlist
  rw [← hl] at hst₂
  simp only [buildPrpsLoop, hnext, hpos₂]
  by_cases hchain : idx % chainAt + 1 = entriesPerPage - 1 ∧ idx + 1 < nr
  · rw [if_pos hchain]
    refine ⟨_, ⟨?_, ?_⟩, rfl⟩
    · rw [hm]
      exact ⟨hst₂.taken, hst₂.pages, hst₂.prp2, hst₂.entry, hst₂.chain⟩
    · intro _
      refine Or.inl ⟨?_, rfl⟩
      simp only [h511, h512] at hchain ⊢
      omega
  · have hnever : ¬idx % chainAt + 1 = entriesPerPage := by
      simp only [h511, h512]
      omega
    rw [if_neg hchain, if_neg hnever]
    refine ⟨_, ⟨?_, ?_⟩, rfl⟩
    · rw [hm]
      exact hst₂
    · intro hlt
      have hmod : (idx + 1) % chainAt = idx % chainAt + 1 := by
        simp only [h511, h512] at hchain ⊢
        omega
      have hdiv : (idx + 1) / chainAt = idx / chainAt := by
        simp only [h511] at hmod ⊢
        omega
      refine Or.inr ⟨by omega, ?_, ?_⟩
      · rw [hlist₂, hdiv, hl]
      · rw [hpos₂, hmod]

/-- The loop keeps its invariant to the end. -/
theorem buildPrpsLoop_inv
    (hc : SlabContract slab listBytes buffer bytes)
    (hf : ListFormat listBytes nr) :
    ∀ (n idx : Nat) (c : ListCursor), idx + n = nr →
      LoopInv slab base nr idx c →
      (buildPrpsLoop slab base nr listBytes n idx c).2 = true →
      LoopInv slab base nr nr
        (buildPrpsLoop slab base nr listBytes n idx c).1 := by
  intro n
  induction n with
  | zero =>
      intro idx c hsum hinv _
      have hidx : idx = nr := by omega
      subst hidx
      exact hinv
  | succ n ih =>
      intro idx c hsum hinv hok
      cases hnext : nextListPage slab listBytes c with
      | none =>
          rw [buildPrpsLoop, hnext] at hok
          cases hok
      | some r =>
          obtain ⟨c', hinv', heq⟩ :=
            buildPrpsLoop_succ hc hf (by omega) hinv hnext n
          rw [heq] at hok ⊢
          exact ih (idx + 1) c' (by omega) hinv' hok

/-- How many entries the list pages taken so far have room for. -/
def CursorAt (nr idx : Nat) (c : ListCursor) : Prop :=
  idx < nr →
    (c.list = none ∧ idx = chainAt * c.pages.length) ∨
      (∃ l, c.list = some l ∧ c.listPos < chainAt ∧
        idx + chainAt = chainAt * c.pages.length + c.listPos)

theorem CursorAt.start (mem : Memory) (prp2 : Nat) :
    CursorAt nr 0
      { mem := mem, pages := [], prp2 := prp2, list := none, listPos := 0 } :=
  fun _ => Or.inl ⟨rfl, rfl⟩

/-- The next list page is there as long as eight pages suffice. -/
theorem CursorAt.nextListPage_some {c : ListCursor} {idx : Nat}
    (hat : CursorAt nr idx c) (hidx : idx < nr)
    (hfits : nr ≤ maxListPages * chainAt)
    (hslab : ∀ k, chainAt * k < nr → (slab k).isSome) :
    ∃ l c₁, nextListPage slab listBytes c = some (l, c₁) ∧ c₁.listPos < chainAt ∧
      c₁.list = some l ∧ idx + chainAt = chainAt * c₁.pages.length + c₁.listPos := by
  have h511 : chainAt = 511 := rfl
  have h8 : maxListPages = 8 := rfl
  rcases hat hidx with ⟨hlist, hpages⟩ | ⟨l, hlist, hpos, hpages⟩
  · have hroom : ¬maxListPages ≤ c.pages.length := by
      simp only [h511, h8] at hfits hpages ⊢
      omega
    obtain ⟨p, hp⟩ := Option.isSome_iff_exists.mp (hslab c.pages.length (by omega))
    simp only [nextListPage, hlist, if_neg hroom, hp]
    cases hlast : c.pages.getLast? with
    | none =>
        have hnil : c.pages = [] := List.getLast?_eq_none_iff.mp hlast
        refine ⟨_, _, rfl, by simp [h511], rfl, ?_⟩
        simp only [hnil, List.length_nil] at hpages
        simp only [List.length_singleton]
        omega
    | some prev =>
        refine ⟨_, _, rfl, by simp [h511], rfl, ?_⟩
        simp only [List.length_append, List.length_singleton, Nat.mul_add]
        omega
  · exact ⟨l, c, by simp [nextListPage, hlist], hpos, hlist, hpages⟩

/-- A list that fits eight pages is built, if the slab has the pages. -/
theorem buildPrpsLoop_ok
    (hfits : nr ≤ maxListPages * chainAt)
    (hslab : ∀ k, chainAt * k < nr → (slab k).isSome) :
    ∀ (n idx : Nat) (c : ListCursor), idx + n = nr → CursorAt nr idx c →
      (buildPrpsLoop slab base nr listBytes n idx c).2 = true := by
  have h511 : chainAt = 511 := rfl
  have h512 : entriesPerPage = 512 := rfl
  intro n
  induction n with
  | zero =>
      intro idx c _ _
      rfl
  | succ n ih =>
      intro idx c hsum hat
      obtain ⟨l, c₁, hnext, hpos, hlist, hpages⟩ :=
        @CursorAt.nextListPage_some _ listBytes _ _ _ hat (by omega) hfits hslab
      rw [buildPrpsLoop, hnext]
      dsimp only
      split
      next hfull =>
        refine ih (idx + 1) _ (by omega) (fun _ => Or.inl ⟨rfl, ?_⟩)
        simp only [putEntry, h511, h512] at hfull hpages ⊢
        omega
      next hfull =>
        split
        · rfl
        · refine ih (idx + 1) _ (by omega) (fun hlt => Or.inr ⟨l, hlist, ?_, ?_⟩)
          · simp only [putEntry, h511, h512] at hfull hpos ⊢
            omega
          · simp only [putEntry]
            omega

/-- The finished list, as the controller needs it. -/
theorem LoopInv.layout
    (hc : SlabContract slab listBytes buffer bytes)
    (hf : ListFormat listBytes nr) {c : ListCursor}
    (hinv : LoopInv slab base nr nr c) :
    ListLayout c.mem (pageOf slab) base nr := by
  have h511 : chainAt = 511 := rfl
  have hP : pageSize = 4096 := rfl
  have hst := hinv.stored
  refine ⟨hst.entry, ?_, ?_⟩
  · intro k hk
    have hk' : k + 1 < (nr + chainAt - 1) / chainAt := by
      simp only [h511] at hk ⊢
      omega
    refine ⟨hst.chain k hk', ?_⟩
    rw [← full_page_of_chain hf hk]
    exact hc.aligned k _ (hst.taken k (by omega))
  · intro i hi
    have hpage : i / chainAt < (nr + chainAt - 1) / chainAt := by
      simp only [h511]
      omega
    have halign := hc.aligned _ _ (hst.taken _ hpage)
    unfold slotAddr
    rcases hf with rfl | ⟨rfl, hnr⟩
    · simp only [h511, hP] at halign ⊢
      omega
    · simp only [smallPoolEntries, smallPoolSize] at halign hnr
      have hmod : i % chainAt = i := Nat.mod_eq_of_lt (by simp only [h511]; omega)
      simp only [hmod, hP]
      omega

/-- Entries of the finished list lie in the request's own pages. -/
theorem LoopInv.onList_mem
    (hf : ListFormat listBytes nr) {c : ListCursor}
    (hinv : LoopInv slab base nr nr c) {a : Nat}
    (ha : OnList (pageOf slab) nr a) :
    ∃ p, p ∈ c.pages ∧ p ≤ a ∧ a + 8 ≤ p + listBytes := by
  have h511 : chainAt = 511 := rfl
  have hmem : ∀ k, k < (nr + chainAt - 1) / chainAt →
      pageOf slab k ∈ c.pages := by
    intro k hk
    rw [hinv.stored.pages]
    exact List.mem_map_of_mem (List.mem_range.mpr hk)
  rcases ha with ⟨i, hi, rfl⟩ | ⟨k, hk, rfl⟩
  · have hroom := slot_in_page hf hi
    refine ⟨pageOf slab (i / chainAt), hmem _ ?_, ?_, ?_⟩
    · simp only [h511]
      omega
    · unfold slotAddr
      omega
    · unfold slotAddr
      omega
  · have hroom : 8 * chainAt + 8 ≤ listBytes := by
      rw [full_page_of_chain hf hk]
      decide
    refine ⟨pageOf slab k, hmem _ ?_, by omega, by omega⟩
    simp only [h511] at hk ⊢
    omega

/-- The loop starts in its invariant. -/
theorem LoopInv.start (mem : Memory) (prp2 : Nat) :
    LoopInv slab base nr 0
      { mem := mem, pages := [], prp2 := prp2, list := none, listPos := 0 } := by
  have h0 : (0 + chainAt - 1) / chainAt = 0 := by decide
  refine ⟨⟨?_, rfl, ?_, ?_, ?_⟩, ?_⟩
  · intro k hk
    simp only [h0] at hk
    omega
  · intro h
    exact absurd h (by decide)
  · intro i hi
    omega
  · intro k hk
    simp only [h0] at hk
    omega
  · intro _
    exact Or.inl ⟨rfl, rfl⟩

end Build

/-! ### Both sides together -/

/-- Bytes of one list of this setup. -/
def PrpSetup.listBytes (r : PrpSetup) : Nat :=
  if r.prpSmall then smallPoolSize else pageSize

/-- A controller that walks this setup finds exactly the buffer. -/
def PrpSetup.DecodesTo (r : PrpSetup) (buffer bytes : Nat) : Prop :=
  WalksBuffer (walk r.mem r.prp1 r.prp2 bytes) r.prpPages r.listBytes
    buffer bytes

/-- Data pages past the first one, counted without overflow. -/
def tailPages (buffer bytes : Nat) : Nat :=
  (bytes - pageLeft pageSize buffer + pageSize - 1) / pageSize

/-- The transfers whose PRP list reads the same on both sides: the page count
does not overflow 32 bits, and no data page stands alone behind a full list
page. -/
def PrpReadable (buffer bytes : Nat) : Prop :=
  bytes ≤ pageLeft pageSize buffer ∨
    (bytes - pageLeft pageSize buffer + pageSize - 1 < 2 ^ 32 ∧
      (tailPages buffer bytes = 1 ∨ tailPages buffer bytes % chainAt ≠ 1))

section Decode

variable {smallSlab largeSlab : Nat → Option Nat} {mem : Memory}
variable {prp2₀ buffer bytes : Nat}

theorem nrDataPages_eq
    (h : bytes - pageLeft pageSize buffer + pageSize - 1 < 2 ^ 32) :
    nrDataPages (bytes - pageLeft pageSize buffer) = tailPages buffer bytes := by
  unfold nrDataPages tailPages
  rw [Nat.mod_eq_of_lt h]

/-- An overflowing page count comes out as zero. -/
theorem nrDataPages_overflow (hbytes : bytes < 2 ^ 32)
    (h : ¬bytes - pageLeft pageSize buffer + pageSize - 1 < 2 ^ 32) :
    nrDataPages (bytes - pageLeft pageSize buffer) = 0 := by
  have hP : pageSize = 4096 := rfl
  unfold nrDataPages
  simp only [hP] at h ⊢
  omega

/-- The page count brackets the bytes past the first page. -/
theorem tailPages_bracket (hlong : pageLeft pageSize buffer < bytes) :
    bytes - pageLeft pageSize buffer ≤ tailPages buffer bytes * pageSize ∧
      tailPages buffer bytes * pageSize <
        bytes - pageLeft pageSize buffer + pageSize := by
  have hP : pageSize = 4096 := rfl
  unfold tailPages
  simp only [hP] at hlong ⊢
  omega

/-- What two or more tail pages say about the number of bytes. -/
theorem tailPages_long (hlong : pageLeft pageSize buffer < bytes)
    (hne : tailPages buffer bytes ≠ 1) :
    2 ≤ tailPages buffer bytes ∧
      pageLeft pageSize buffer + pageSize < bytes ∧
      2 * tailPages buffer bytes ≤ bytes := by
  have hP : pageSize = 4096 := rfl
  unfold tailPages at *
  generalize pageLeft pageSize buffer = first at *
  simp only [hP] at *
  omega

/-- Setup that reports the list a cursor has built. -/
def listSetup (buffer : Nat) (small : Bool) (c : ListCursor) : PrpSetup :=
  { ok := true, prp1 := buffer, prp2 := c.prp2
    prpPages := c.pages, prpList := true, prpSmall := small
    mem := c.mem, freed := [] }

/-- An accepted transfer that needs a list has one in the loop's layout. -/
theorem buildPrps_list
    (hs : SlabContract smallSlab smallPoolSize buffer bytes)
    (hl : SlabContract largeSlab pageSize buffer bytes)
    {nr : Nat} (hlong : pageLeft pageSize buffer < bytes)
    (hnr : nrDataPages (bytes - pageLeft pageSize buffer) = nr) (hne : nr ≠ 1)
    (hok : (buildPrps smallSlab largeSlab mem prp2₀ buffer bytes).ok = true) :
    ∃ slab small c,
      buildPrps smallSlab largeSlab mem prp2₀ buffer bytes =
        listSetup buffer small c ∧
      SlabContract slab (listSetup buffer small c).listBytes buffer bytes ∧
      ListFormat (listSetup buffer small c).listBytes nr ∧
      LoopInv slab (buffer + pageLeft pageSize buffer) nr nr c := by
  have hnot : ¬bytes ≤ pageLeft pageSize buffer := by omega
  unfold buildPrps at hok ⊢
  simp only [if_neg hnot, hnr, if_neg hne] at hok ⊢
  by_cases hsmall : nr ≤ smallPoolEntries
  · have hf : ListFormat smallPoolSize nr := Or.inr ⟨rfl, hsmall⟩
    simp only [decide_eq_true hsmall, if_true] at hok ⊢
    split at hok
    next hr =>
      rw [if_pos hr]
      exact ⟨smallSlab, true, _, rfl, hs, hf,
        buildPrpsLoop_inv hs hf nr 0 _ (by omega) (LoopInv.start mem prp2₀) hr⟩
    next => cases hok
  · have hf : ListFormat pageSize nr := Or.inl rfl
    simp only [decide_eq_false hsmall, Bool.false_eq_true, if_false] at hok ⊢
    split at hok
    next hr =>
      rw [if_pos hr]
      exact ⟨largeSlab, false, _, rfl, hl, hf,
        buildPrpsLoop_inv hl hf nr 0 _ (by omega) (LoopInv.start mem prp2₀) hr⟩
    next => cases hok

/-- The walk of a transfer that needs a list. -/
theorem walk_list {mem : Memory} {prp1 prp2 bytes : Nat}
    (h : pageLeft pageSize prp1 + pageSize < bytes) :
    walk mem prp1 prp2 bytes =
      .transfer prp1 (pageLeft pageSize prp1) ::
        walkList mem bytes prp2 (bytes - pageLeft pageSize prp1) := by
  have h0 : bytes ≠ 0 := by omega
  have h1 : ¬bytes ≤ pageLeft pageSize prp1 := by omega
  have h2 : ¬bytes - pageLeft pageSize prp1 ≤ pageSize := by omega
  simp only [walk, h0, h1, h2, if_false]

/-- The walk of a finished list starts at its first entry. -/
theorem walk_listSetup {slab : Nat → Option Nat} {base nr : Nat}
    {c : ListCursor} (small : Bool)
    (hinv : LoopInv slab base nr nr c) (hnr : 0 < nr)
    (h : pageLeft pageSize buffer + pageSize < bytes) :
    walk (listSetup buffer small c).mem (listSetup buffer small c).prp1
        (listSetup buffer small c).prp2 bytes =
      .transfer buffer (pageLeft pageSize buffer) ::
        walkList c.mem bytes (seekAddr (pageOf slab) 0)
          (bytes - pageLeft pageSize buffer) := by
  have hpos : 0 < (nr + chainAt - 1) / chainAt := by
    have h511 : chainAt = 511 := rfl
    simp only [h511]
    omega
  have hprp2 : c.prp2 = seekAddr (pageOf slab) 0 := hinv.stored.prp2 hpos
  rw [← hprp2]
  exact walk_list h

/-- Segments of a buffer that reaches past its first page. -/
theorem pageSegments_long (hlong : pageLeft pageSize buffer < bytes) :
    pageSegments pageSize buffer bytes =
      (buffer, pageLeft pageSize buffer) ::
        alignedSegments pageSize (buffer + pageLeft pageSize buffer)
          (bytes - pageLeft pageSize buffer) := by
  have h0 : bytes ≠ 0 := by omega
  have h1 : ¬bytes ≤ pageLeft pageSize buffer := by omega
  simp only [pageSegments, h0, h1, if_false]

/-- Transfers inside one page or two are read as they were meant. -/
theorem decodes_short
    (h : bytes ≤ pageLeft pageSize buffer ∨
      (pageLeft pageSize buffer < bytes ∧
        bytes - pageLeft pageSize buffer + pageSize - 1 < 2 ^ 32 ∧
        tailPages buffer bytes = 1)) :
    (buildPrps smallSlab largeSlab mem prp2₀ buffer bytes).DecodesTo
      buffer bytes := by
  rcases h with hshort | ⟨hlong, hover, hone⟩
  · unfold buildPrps PrpSetup.DecodesTo WalksBuffer
    rw [if_pos hshort]
    by_cases h0 : bytes = 0
    · simp [walk, pageSegments, h0]
    · simp [walk, pageSegments, h0, hshort]
  · have hnot : ¬bytes ≤ pageLeft pageSize buffer := by omega
    obtain ⟨hle, -⟩ := tailPages_bracket hlong
    rw [hone, Nat.one_mul] at hle
    have hnr : nrDataPages (bytes - pageLeft pageSize buffer) = 1 := by
      rw [nrDataPages_eq hover, hone]
    unfold buildPrps PrpSetup.DecodesTo WalksBuffer
    simp only [if_neg hnot, if_pos hnr]
    have h0 : bytes ≠ 0 := by omega
    rw [pageSegments_long hlong,
      alignedSegments_step (by decide) _ (by omega),
      Nat.sub_eq_zero_of_le hle, alignedSegments_zero (by decide)]
    simp [walk, h0, hnot, hle]

/-- A list without a lone last page is read as it was meant. -/
theorem decodes_list
    (hs : SlabContract smallSlab smallPoolSize buffer bytes)
    (hl : SlabContract largeSlab pageSize buffer bytes)
    (hlong : pageLeft pageSize buffer < bytes)
    (hover : bytes - pageLeft pageSize buffer + pageSize - 1 < 2 ^ 32)
    (hne : tailPages buffer bytes ≠ 1)
    (hmod : tailPages buffer bytes % chainAt ≠ 1)
    (hok : (buildPrps smallSlab largeSlab mem prp2₀ buffer bytes).ok = true) :
    (buildPrps smallSlab largeSlab mem prp2₀ buffer bytes).DecodesTo
      buffer bytes := by
  obtain ⟨hle, hgt⟩ := tailPages_bracket hlong
  obtain ⟨slab, small, c, hr, hc, hf, hinv⟩ :=
    buildPrps_list hs hl hlong (nrDataPages_eq hover) hne hok
  obtain ⟨htwo, hwide, hfuel⟩ := tailPages_long hlong hne
  obtain ⟨hT, hF⟩ :=
    walkList_layout (hinv.layout hc hf) (Or.inr hmod)
      (tailPages buffer bytes) 0 (bytes - pageLeft pageSize buffer) bytes
      (by omega) hle (fun _ => hgt) hfuel
  rw [hr]
  unfold PrpSetup.DecodesTo
  rw [walk_listSetup small hinv (by omega) hwide]
  constructor
  · rw [transfers_transfer, hT, pageSegments_long hlong]
    simp
  · intro a ha
    exact hinv.onList_mem hf (hF a ha)

/-- A lone last page behind a full list page: the controller transfers to
the next list page instead of the buffer. -/
theorem not_decodes_lone
    (hs : SlabContract smallSlab smallPoolSize buffer bytes)
    (hl : SlabContract largeSlab pageSize buffer bytes)
    (hlong : pageLeft pageSize buffer < bytes)
    (hover : bytes - pageLeft pageSize buffer + pageSize - 1 < 2 ^ 32)
    (hne : tailPages buffer bytes ≠ 1)
    (hmod : tailPages buffer bytes % chainAt = 1)
    (hok : (buildPrps smallSlab largeSlab mem prp2₀ buffer bytes).ok = true) :
    ¬(buildPrps smallSlab largeSlab mem prp2₀ buffer bytes).DecodesTo
      buffer bytes := by
  obtain ⟨hle, hgt⟩ := tailPages_bracket hlong
  obtain ⟨slab, small, c, hr, hc, hf, hinv⟩ :=
    buildPrps_list hs hl hlong (nrDataPages_eq hover) hne hok
  obtain ⟨htwo, hwide, hfuel⟩ := tailPages_long hlong hne
  obtain ⟨m, hm⟩ : ∃ m, tailPages buffer bytes = m + 1 :=
    ⟨tailPages buffer bytes - 1, by omega⟩
  rw [hm, Nat.succ_mul] at hgt
  obtain ⟨n, hn⟩ :=
    walkList_lone (hinv.layout hc hf) (by omega) hmod m 0
      (bytes - pageLeft pageSize buffer) bytes (by omega)
      (by rw [← hm]; exact hle) (by omega) (by omega)
  intro hdec
  rw [hr] at hdec
  unfold PrpSetup.DecodesTo at hdec
  rw [walk_listSetup small hinv (by omega) hwide] at hdec
  have hsegs := hdec.1
  rw [transfers_transfer, pageSegments_long hlong] at hsegs
  rw [(List.cons.inj hsegs).2,
    alignedSegments_getElem? _ _ _ _ (by
      have : tailPages buffer bytes = m + 1 := hm
      unfold tailPages at this
      omega)] at hn
  have haddr :
      buffer + pageLeft pageSize buffer + m * pageSize =
        pageOf slab ((tailPages buffer bytes - 1) / chainAt) :=
    congrArg Prod.fst (Option.some.inj hn)
  -- the slab page would lie inside the caller's buffer
  have hpage : (tailPages buffer bytes - 1) / chainAt <
      (tailPages buffer bytes + chainAt - 1) / chainAt := by
    have h511 : chainAt = 511 := rfl
    simp only [h511] at hmod ⊢
    omega
  have hsize : 0 < (listSetup buffer small c).listBytes := by
    cases small <;> simp [PrpSetup.listBytes, listSetup, pageSize, smallPoolSize]
  have := hc.apart _ _ (hinv.stored.taken _ hpage)
  omega

/-- When the page count overflows, PRP2 is not set and no list exists. -/
theorem not_decodes_overflow
    (hs : SlabContract smallSlab smallPoolSize buffer bytes)
    (hl : SlabContract largeSlab pageSize buffer bytes)
    (hbytes : bytes < 2 ^ 32)
    (hover : ¬bytes - pageLeft pageSize buffer + pageSize - 1 < 2 ^ 32)
    (hok : (buildPrps smallSlab largeSlab mem prp2₀ buffer bytes).ok = true) :
    ¬(buildPrps smallSlab largeSlab mem prp2₀ buffer bytes).DecodesTo
      buffer bytes := by
  have hP : pageSize = 4096 := rfl
  have hlong : pageLeft pageSize buffer < bytes := by
    simp only [hP] at hover ⊢
    omega
  have hwide : pageLeft pageSize buffer + pageSize < bytes := by
    simp only [hP] at hover ⊢
    omega
  obtain ⟨slab, small, c, hr, -, -, hinv⟩ :=
    buildPrps_list hs hl hlong (nrDataPages_overflow hbytes hover)
      (by decide) hok
  have hnil : c.pages = [] := by
    rw [hinv.stored.pages]
    rfl
  intro hdec
  rw [hr] at hdec
  have hfetch := hdec.2
  rw [show walk (listSetup buffer small c).mem (listSetup buffer small c).prp1
    (listSetup buffer small c).prp2 bytes = _ from walk_list hwide] at hfetch
  obtain ⟨fuel, hfuel⟩ : ∃ f, bytes = f + 1 := ⟨bytes - 1, by omega⟩
  have h0 : bytes - pageLeft pageSize buffer ≠ 0 := by omega
  have hmem : c.prp2 ∈ fetches
      (.transfer buffer (pageLeft pageSize buffer) ::
        walkList c.mem bytes c.prp2 (bytes - pageLeft pageSize buffer)) := by
    rw [fetches_transfer]
    generalize bytes - pageLeft pageSize buffer = left at h0
    rw [hfuel, walkList, if_neg h0]
    split <;> simp
  obtain ⟨p, hp, -⟩ := hfetch c.prp2 hmem
  rw [show (listSetup buffer small c).prpPages = c.pages from rfl, hnil] at hp
  cases hp

/-- For every transfer `build_prps` accepts, a conforming controller finds
exactly the buffer if and only if the transfer is `PrpReadable`. -/
theorem buildPrps_decodes_iff
    (smallSlab largeSlab : Nat → Option Nat) (mem : Memory)
    (prp2₀ buffer bytes : Nat) (hbytes : bytes < 2 ^ 32)
    (hs : SlabContract smallSlab smallPoolSize buffer bytes)
    (hl : SlabContract largeSlab pageSize buffer bytes)
    (hok : (buildPrps smallSlab largeSlab mem prp2₀ buffer bytes).ok = true) :
    (buildPrps smallSlab largeSlab mem prp2₀ buffer bytes).DecodesTo
        buffer bytes ↔
      PrpReadable buffer bytes := by
  by_cases hshort : bytes ≤ pageLeft pageSize buffer
  · exact ⟨fun _ => Or.inl hshort, fun _ => decodes_short (Or.inl hshort)⟩
  have hlong : pageLeft pageSize buffer < bytes := by omega
  by_cases hover : bytes - pageLeft pageSize buffer + pageSize - 1 < 2 ^ 32
  · by_cases hone : tailPages buffer bytes = 1
    · exact ⟨fun _ => Or.inr ⟨hover, Or.inl hone⟩,
        fun _ => decodes_short (Or.inr ⟨hlong, hover, hone⟩)⟩
    · by_cases hmod : tailPages buffer bytes % chainAt = 1
      · refine ⟨fun hdec => absurd hdec ?_, ?_⟩
        · exact not_decodes_lone hs hl hlong hover hone hmod hok
        · rintro (h | ⟨-, h | h⟩)
          · exact absurd h hshort
          · exact absurd h hone
          · exact absurd hmod h
      · exact ⟨fun _ => Or.inr ⟨hover, Or.inr hmod⟩,
          fun _ => decodes_list hs hl hlong hover hone hmod hok⟩
  · refine ⟨fun hdec => absurd hdec ?_, ?_⟩
    · exact not_decodes_overflow hs hl hbytes hover hok
    · rintro (h | ⟨h, -⟩)
      · exact absurd h hshort
      · exact absurd h hover

/-- `build_prps` accepts every transfer whose list fits eight list pages,
if the slabs have the pages. -/
theorem buildPrps_accepts
    (hfits : nrDataPages (bytes - pageLeft pageSize buffer) ≤
      maxListPages * chainAt)
    (hsmall : (smallSlab 0).isSome)
    (hlarge : ∀ k, k < maxListPages → (largeSlab k).isSome) :
    (buildPrps smallSlab largeSlab mem prp2₀ buffer bytes).ok = true := by
  have h511 : chainAt = 511 := rfl
  have h8 : maxListPages = 8 := rfl
  obtain ⟨nr, hnr⟩ : ∃ nr, nrDataPages (bytes - pageLeft pageSize buffer) = nr :=
    ⟨_, rfl⟩
  rw [hnr] at hfits
  unfold buildPrps
  by_cases hshort : bytes ≤ pageLeft pageSize buffer
  · simp only [if_pos hshort]
  by_cases hone : nr = 1
  · simp only [if_neg hshort, hnr, if_pos hone]
  simp only [if_neg hshort, hnr, if_neg hone]
  by_cases hlist : nr ≤ smallPoolEntries
  · have hsome : ∀ k, chainAt * k < nr → (smallSlab k).isSome := by
      intro k hk
      have hk0 : k = 0 := by
        simp only [smallPoolEntries, smallPoolSize, h511] at hlist hk
        omega
      rw [hk0]
      exact hsmall
    simp only [decide_eq_true hlist, if_true,
      buildPrpsLoop_ok hfits hsome nr 0 _ (by omega) (CursorAt.start mem prp2₀)]
  · have hsome : ∀ k, chainAt * k < nr → (largeSlab k).isSome := by
      intro k hk
      apply hlarge
      simp only [h511, h8] at hfits hk ⊢
      omega
    simp only [decide_eq_false hlist, Bool.false_eq_true, if_false,
      buildPrpsLoop_ok hfits hsome nr 0 _ (by omega) (CursorAt.start mem prp2₀),
      if_true]

end Decode

/-- A slab that carves `count` objects of `size` bytes from `start` on. -/
def arraySlab (start size count : Nat) : Nat → Option Nat :=
  fun k => if k < count then some (start + k * size) else none

theorem arraySlab_contract {start size count buffer bytes : Nat}
    (hsize : 0 < size) (halign : start % size = 0)
    (hbelow : start + count * size ≤ buffer) :
    SlabContract (arraySlab start size count) size buffer bytes := by
  have hsome : ∀ k p, arraySlab start size count k = some p →
      k < count ∧ p = start + k * size := by
    intro k p h
    unfold arraySlab at h
    split at h
    next hk => exact ⟨hk, (Option.some.inj h).symm⟩
    next => cases h
  refine ⟨?_, ?_, ?_⟩
  · intro k p h
    obtain ⟨-, rfl⟩ := hsome k p h
    rw [Nat.add_mul_mod_self_right, halign]
  · intro j k p hj hk
    have hjk : j * size = k * size := by
      have h₁ := (hsome j p hj).2
      have h₂ := (hsome k p hk).2
      omega
    exact Nat.eq_of_mul_eq_mul_right hsize hjk
  · intro k p h
    obtain ⟨hk, rfl⟩ := hsome k p h
    have := Nat.mul_le_mul_right size (by omega : k + 1 ≤ count)
    rw [Nat.succ_mul] at this
    omega

/-- A 2 MiB transfer plus one page from a page-aligned buffer: 512 data pages
past the first one, so the last of them stands alone behind a full list page,
and the controller moves it to the second list page. -/
theorem buildPrps_lone_page_misread :
    SlabContract (arraySlab 0x4000 256 8) smallPoolSize 0x10000000 0x201000 ∧
      SlabContract (arraySlab 0x8000 4096 8) pageSize 0x10000000 0x201000 ∧
      (buildPrps (arraySlab 0x4000 256 8) (arraySlab 0x8000 4096 8)
        (fun _ => 0) 0 0x10000000 0x201000).ok = true ∧
      ¬(buildPrps (arraySlab 0x4000 256 8) (arraySlab 0x8000 4096 8)
        (fun _ => 0) 0 0x10000000 0x201000).DecodesTo 0x10000000 0x201000 := by
  have hs : SlabContract (arraySlab 0x4000 256 8) smallPoolSize
      0x10000000 0x201000 := arraySlab_contract (by decide) (by decide) (by decide)
  have hl : SlabContract (arraySlab 0x8000 4096 8) pageSize
      0x10000000 0x201000 := arraySlab_contract (by decide) (by decide) (by decide)
  have hok : (buildPrps (arraySlab 0x4000 256 8) (arraySlab 0x8000 4096 8)
      (fun _ => 0) 0 0x10000000 0x201000).ok = true :=
    buildPrps_accepts (by decide) (by decide) (by decide)
  exact ⟨hs, hl, hok,
    not_decodes_lone hs hl (by decide) (by decide) (by decide) (by decide) hok⟩

/-- A 1 MiB transfer from an unaligned buffer is read as it was meant. -/
theorem buildPrps_decodes_iff_mebibyte :
    (buildPrps (arraySlab 0x4000 256 8) (arraySlab 0x8000 4096 8)
        (fun _ => 0) 0 0x10000200 0x100000).DecodesTo 0x10000200 0x100000 ↔
      PrpReadable 0x10000200 0x100000 := by
  have hs : SlabContract (arraySlab 0x4000 256 8) smallPoolSize
      0x10000200 0x100000 := arraySlab_contract (by decide) (by decide) (by decide)
  have hl : SlabContract (arraySlab 0x8000 4096 8) pageSize
      0x10000200 0x100000 := arraySlab_contract (by decide) (by decide) (by decide)
  exact buildPrps_decodes_iff _ _ _ _ _ _ (by decide) hs hl
    (buildPrps_accepts (by decide) (by decide) (by decide))

end Prp
end NvmeDriver
