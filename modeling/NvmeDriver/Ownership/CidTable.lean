import NvmeDriver.Ownership.Tables

/-!
# Command identifiers

The operations that move a tag: a request is allocated or destroyed, a CQE or a
cancel walker releases it, a retry claims a slot again.  Whatever their order,
free and occupied tags partition the queue, and the identifiers a slot is issued
under run through the sixteen generations in turn.

A history lists the identifiers issued so far, oldest first.
-/

namespace NvmeDriver
namespace CidTable

open Engine
open Lib
open Ownership

/-! ### Operations -/

/-- What can happen to a tag of a queue. -/
inductive TabOp
  /-- `nvme_req_alloc_io`, `nvme_req_alloc_admin` -/
  | reqAlloc (unit io : Option Nat)
  /-- `nvme_req_destroy` -/
  | reqDestroy (tag : Nat)
  /-- the release in `drain_cq` -/
  | drainRelease (cqe : Cqe)
  /-- `nvme_resubmit_io`, up to the submission -/
  | resubmit (req : Request)
  /-- the release in `nvme_flush_queue_inflight` -/
  | flushRelease (tag : Nat)

/-- The state after an operation on a queue, and the CID it issued. -/
def applyOp (env : Env) (q : QueueId) (s : State) : TabOp → State × Option Nat
  | .reqAlloc unit io =>
      match allocRequest env s q (fun r => { r with io := io, unit := unit }) 0 0 with
      | (s₁, .ok _) => (s₁, (nvmeAllocCid (s.tab q)).map Prod.fst)
      | (s₁, .error _) => (s₁, none)
  | .reqDestroy tag => (nvmeReqDestroy s q tag, none)
  | .drainRelease cqe =>
      match matchCqe s q cqe with
      | none => (s, none)
      | some req => (s.releaseSlot q req.cid, none)
  | .resubmit req =>
      if req.q = q then
        match nvmeAllocCid (s.tab q) with
        | none => (s, none)
        | some (cid, t) =>
            (s.setTab q (nvmeInflightClaim t cid
              { req with cid := cid, cmd := { req.cmd with commandId := cid } }), some cid)
      else (s, none)
  | .flushRelease tag =>
      match s.slot q tag with
      | none => (s, none)
      | some req => (s.releaseSlot q req.cid, none)

/-- The state after a sequence of operations, and the history. -/
def runOps (env : Env) (q : QueueId) : List TabOp → State → State × List Nat
  | [], s => (s, [])
  | op :: ops, s =>
      let a := applyOp env q s op
      let b := runOps env q ops a.1
      (b.1, a.2.toList ++ b.2)

section Links

variable {env : Env} {s : State}

theorem nvmeReqAllocIo_eq (unit : Nat) (io : Option Nat) :
    (nvmeReqAllocIo env s unit io).1 = (applyOp env .io s (.reqAlloc (some unit) io)).1 := by
  unfold nvmeReqAllocIo applyOp allocRequest
  cases State.allocate env s with
  | mk a s₁ =>
      cases a with
      | none => rfl
      | some _ => cases hcid : nvmeAllocCid (s₁.tab .io) <;> simp only [hcid]

theorem nvmeReqAllocAdmin_eq :
    (nvmeReqAllocAdmin env s).1 = (applyOp env .admin s (.reqAlloc none none)).1 := by
  unfold nvmeReqAllocAdmin applyOp allocRequest
  cases State.allocate env s with
  | mk a s₁ =>
      cases a with
      | none => rfl
      | some _ => cases hcid : nvmeAllocCid (s₁.tab .admin) <;> simp only [hcid, id]

/-- A retry that finds a tag goes on to submit what it has claimed. -/
theorem nvmeResubmitIo_eq (complete : State → Request → State) {req : Request} {cid : Nat}
    {t : SlotTable} (hcid : nvmeAllocCid (s.tab req.q) = some (cid, t)) :
    nvmeResubmitIo env complete s req =
      (nvmeSubmitIo env (applyOp env req.q s (.resubmit req)).1 req.q (cidTag cid)).1 := by
  simp only [nvmeResubmitIo, applyOp, hcid, if_true]

end Links

/-! ### The invariant -/

/-- The tags of the slots in use. -/
def busyTags (t : SlotTable) : List Nat :=
  (List.range t.depth).filter (fun tag => (t.read tag).isSome)

/-- The issues of one slot. -/
def issuesOf (tag : Nat) (history : List Nat) : List Nat :=
  history.filter (fun cid => cidTag cid == tag)

/-- The CID of a slot in a generation. -/
def genCid (n tag : Nat) : Nat := n % 16 * 4096 + tag

/-- What the operations keep. -/
structure Kept (q : QueueId) (depth : Nat) (skip : Bool) (t : SlotTable)
    (history : List Nat) : Prop where
  tab : TabOk q t
  size : t.depth = depth
  gen : t.skipCidGen = skip
  cover : ∀ tag, tag < depth → tag ∈ t.freeStack.map cidTag ∨ (t.read tag).isSome = true
  total : t.freeStack.length + t.inflightCount = depth
  issued : ∀ cid, cid ∈ history → cidTag cid < depth
  idle : skip = false → ∀ cid, cid ∈ t.freeStack →
    cid = genCid (issuesOf (cidTag cid) history).length (cidTag cid)
  busy : skip = false → ∀ tag r, t.read tag = some r →
    r.cid = genCid ((issuesOf tag history).length + 15) tag
  turn : skip = false → ∀ tag k cid, (issuesOf tag history)[k]? = some cid →
    cid = genCid k tag

section Kept

variable {q : QueueId} {depth cid : Nat} {skip : Bool} {t : SlotTable} {history rest : List Nat}
  {r : Request}

theorem issuesOf_append (tag : Nat) (l m : List Nat) :
    issuesOf tag (l ++ m) = issuesOf tag l ++ issuesOf tag m :=
  List.filter_append ..

theorem issuesOf_self (cid : Nat) : issuesOf (cidTag cid) [cid] = [cid] := by
  simp [issuesOf]

theorem issuesOf_other {tag cid : Nat} (hne : cidTag cid ≠ tag) : issuesOf tag [cid] = [] := by
  simp [issuesOf, hne]

theorem genCid_round (n tag : Nat) : genCid (n + 1 + 15) tag = genCid n tag := by
  unfold genCid
  omega

theorem kept_fresh (q : QueueId) {depth : Nat} (skip : Bool) (hdepth : depth ≤ 4095) :
    Kept q depth skip (SlotTable.fresh depth skip) [] where
  tab := tabOk_fresh q skip (by omega)
  size := rfl
  gen := rfl
  cover := by
    intro tag htag
    refine .inl (List.mem_map.mpr ⟨tag, List.mem_range.mpr htag, ?_⟩)
    exact Nat.mod_eq_of_lt (by omega)
  total := List.length_range
  issued := by
    intro cid h
    cases h
  idle := by
    intro _ cid hmem
    have hlt : cid < depth := List.mem_range.mp hmem
    have htag : cidTag cid = cid := Nat.mod_eq_of_lt (by omega)
    simp [genCid, issuesOf, htag]
  busy := by
    intro _ tag r hread
    have hmem : some r ∈ List.replicate depth none := Slots.mem_iff_read.mpr ⟨tag, hread⟩
    cases List.eq_of_mem_replicate hmem
  turn := by
    intro _ tag k cid h
    cases h

/-- A tag is issued. -/
theorem Kept.issue (hk : Kept q depth skip t history) (hfree : t.freeStack = cid :: rest)
    (hcid : r.cid = cid) (hq : r.q = q) :
    Kept q depth skip (nvmeInflightClaim (popped t rest) cid r) (history ++ [cid]) := by
  obtain ⟨hlt, hnone⟩ := hk.tab.free_head hfree
  have hself := read_claim_self hk.tab hfree r
  have hother : ∀ tag, cidTag cid ≠ tag →
      (nvmeInflightClaim (popped t rest) cid r).read tag = t.read tag :=
    fun tag hne => Slots.read_set_other _ hne
  have hhead : skip = false → cid =
      genCid (issuesOf (cidTag cid) history).length (cidTag cid) :=
    fun hskip => hk.idle hskip cid (by rw [hfree]; exact List.mem_cons_self ..)
  have hgrow : ∀ tag, issuesOf tag (history ++ [cid]) =
      issuesOf tag history ++ if cidTag cid = tag then [cid] else [] := by
    intro tag
    rw [issuesOf_append]
    split
    · rename_i he
      rw [← he, issuesOf_self]
    · rename_i hne
      rw [issuesOf_other hne]
  refine ⟨hk.tab.claim hfree hcid hq, hk.size, hk.gen, ?_, ?_, ?_, ?_, ?_, ?_⟩
  · intro tag htag
    by_cases he : cidTag cid = tag
    · right
      rw [← he, hself]
      rfl
    · rw [hother tag he]
      rcases hk.cover tag htag with h | h
      · rw [hfree, List.map_cons, List.mem_cons] at h
        exact .inl (h.resolve_left (fun h => he h.symm))
      · exact .inr h
  · have hcount : (nvmeInflightClaim (popped t rest) cid r).inflightCount =
        t.inflightCount + 1 := by
      have hpop : (popped t rest).read (cidTag cid) = none := hnone
      simp only [nvmeInflightClaim, hpop]
      rfl
    have htotal := hk.total
    rw [hfree, List.length_cons] at htotal
    rw [hcount]
    change rest.length + (t.inflightCount + 1) = depth
    omega
  · intro cid' hmem
    rcases List.mem_append.mp hmem with hmem | hmem
    · exact hk.issued cid' hmem
    · rw [List.mem_singleton.mp hmem, ← hk.size, ← hk.tab.length]
      exact hlt
  · intro hskip cid' hmem
    have hne : cidTag cid ≠ cidTag cid' := by
      intro he
      exact hk.tab.head_not_mem hfree (he ▸ List.mem_map_of_mem hmem)
    rw [hgrow, if_neg hne, List.append_nil]
    exact hk.idle hskip cid' (by rw [hfree]; exact List.mem_cons_of_mem _ hmem)
  · intro hskip tag r' hread
    rw [hgrow]
    split
    · rename_i he
      rw [← he, hself] at hread
      cases hread
      rw [hcid, ← he, List.length_append, List.length_singleton, genCid_round]
      exact hhead hskip
    · rename_i hne
      rw [hother tag hne] at hread
      rw [List.append_nil]
      exact hk.busy hskip tag r' hread
  · intro hskip tag k cid' hget
    rw [hgrow] at hget
    by_cases hlast : k < (issuesOf tag history).length
    · rw [List.getElem?_append_left hlast] at hget
      exact hk.turn hskip tag k cid' hget
    · rw [List.getElem?_append_right (by omega)] at hget
      by_cases he : cidTag cid = tag
      · rw [if_pos he] at hget
        have hk0 : k - (issuesOf tag history).length = 0 := by
          by_contra hpos
          rw [List.getElem?_eq_none (by simp; omega)] at hget
          cases hget
        rw [hk0] at hget
        cases hget
        subst he
        have hkeq : k = (issuesOf (cidTag cid) history).length := by omega
        rw [hkeq]
        exact hhead hskip
      · rw [if_neg he, List.getElem?_nil] at hget
        cases hget

/-- A tag is released. -/
theorem Kept.release (hk : Kept q depth skip t history) {tag : Nat}
    (hread : t.read tag = some r) : Kept q depth skip (nvmeInflightRelease t r.cid) history := by
  have htag : cidTag r.cid = tag := (hk.tab.slots tag r hread).1
  rw [← htag] at hread
  have hlt : cidTag r.cid < t.inflight.length := Slots.lt_length_of_read hread
  have heq : nvmeInflightRelease t r.cid =
      { t with
        inflight := t.inflight.set (cidTag r.cid) none
        inflightCount := t.inflightCount - 1
        freeStack := nextCid t.skipCidGen r.cid :: t.freeStack } := by
    unfold nvmeInflightRelease
    rw [hread]
  have hself : (nvmeInflightRelease t r.cid).read (cidTag r.cid) = none := by
    rw [heq]
    exact Slots.read_set_self _ hlt
  have hother : ∀ tag, cidTag r.cid ≠ tag →
      (nvmeInflightRelease t r.cid).read tag = t.read tag := by
    intro tag hne
    rw [heq]
    exact Slots.read_set_other _ hne
  have hpos : 0 < t.inflightCount := by
    rw [hk.tab.count]
    exact Slots.held_pos_of_read hread rfl
  refine ⟨hk.tab.release hread, ?_, ?_, ?_, ?_, hk.issued, ?_, ?_, hk.turn⟩
  · rw [heq]
    exact hk.size
  · rw [heq]
    exact hk.gen
  · intro tag htag
    by_cases he : cidTag r.cid = tag
    · left
      rw [heq]
      simp [he]
    · rw [hother tag he]
      rcases hk.cover tag htag with h | h
      · left
        rw [heq]
        exact List.mem_cons_of_mem _ h
      · exact .inr h
  · have htotal := hk.total
    rw [heq]
    simp only [List.length_cons]
    omega
  · intro hskip cid' hmem
    rw [heq] at hmem
    rcases List.mem_cons.mp hmem with rfl | hmem
    · rw [cidTag_nextCid]
      have hgen := hk.busy hskip _ r hread
      have hsmall : cidTag r.cid < 4096 := Nat.mod_lt _ (by decide)
      simp only [nextCid, hk.gen, hskip, Bool.false_eq_true, if_false]
      unfold genCid at hgen ⊢
      omega
    · exact hk.idle hskip cid' hmem
  · intro hskip tag r' hr'
    by_cases he : cidTag r.cid = tag
    · rw [← he, hself] at hr'
      cases hr'
    · rw [hother tag he] at hr'
      exact hk.busy hskip tag r' hr'

end Kept

/-! ### Runs -/

section Runs

variable {env : Env} {q : QueueId} {depth : Nat} {skip : Bool} {s : State}
  {history : List Nat}

theorem tab_setTab_self (s : State) (q : QueueId) (t : SlotTable) :
    (s.setTab q t).tab q = t := by
  cases q <;> rfl

theorem foldl_log_tab (f : Nat → Effect) (l : List Nat) (s : State) (q : QueueId) :
    (l.foldl (fun s p => s.log (f p)) s).tab q = s.tab q := by
  induction l generalizing s with
  | nil => rfl
  | cons a l ih =>
      rw [List.foldl_cons, ih]
      cases q <;> rfl

theorem log_tab (s : State) (e : Effect) (q : QueueId) : (s.log e).tab q = s.tab q := by
  cases q <;> rfl

theorem nvmeReqFreeDmaBuffers_tab (s : State) (req : Request) (q : QueueId) :
    (nvmeReqFreeDmaBuffers s req).tab q = s.tab q := by
  unfold nvmeReqFreeDmaBuffers
  dsimp only
  split
  · split
    · rw [foldl_log_tab]
    · rfl
  · rw [log_tab]
    split
    · rw [foldl_log_tab]
    · rfl

theorem Kept.releaseSlot (hk : Kept q depth skip (s.tab q) history) {tag : Nat} {r : Request}
    (hread : s.slot q tag = some r) :
    Kept q depth skip ((s.releaseSlot q r.cid).tab q) history := by
  unfold State.releaseSlot
  rw [tab_setTab_self]
  exact hk.release hread

theorem applyOp_keeps (hk : Kept q depth skip (s.tab q) history) (op : TabOp) :
    Kept q depth skip ((applyOp env q s op).1.tab q)
      (history ++ (applyOp env q s op).2.toList) := by
  cases op with
  | reqAlloc unit io =>
      have htab : State.tab { s with core := { s.core with allocs := s.core.allocs + 1 } } q =
          s.tab q := by
        cases q <;> rfl
      unfold applyOp allocRequest State.allocate
      cases hmem : env.alloc s.core.allocs with
      | none =>
          dsimp only
          rw [htab, Option.toList_none, List.append_nil]
          exact hk
      | some a =>
          dsimp only
          rw [htab]
          cases hfree : (s.tab q).freeStack with
          | nil =>
              simp only [nvmeAllocCid, hfree, log_tab, Option.toList_none, List.append_nil]
              rw [htab]
              exact hk
          | cons cid rest =>
              simp only [nvmeAllocCid, hfree, tab_setTab_self]
              exact hk.issue hfree rfl rfl
  | reqDestroy tag =>
      simp only [applyOp, Option.toList_none, List.append_nil]
      unfold nvmeReqDestroy
      cases hread : s.slot q tag with
      | none => exact hk
      | some req =>
          dsimp only
          rw [log_tab, nvmeReqFreeDmaBuffers_tab]
          exact hk.releaseSlot hread
  | drainRelease cqe =>
      cases hmatch : matchCqe s q cqe with
      | none =>
          simp only [applyOp, hmatch, Option.toList_none, List.append_nil]
          exact hk
      | some req =>
          simp only [applyOp, hmatch, Option.toList_none, List.append_nil]
          exact hk.releaseSlot (matchCqe_some hmatch).1
  | resubmit req =>
      by_cases hq : req.q = q
      · cases hfree : (s.tab q).freeStack with
        | nil =>
            simp only [applyOp, if_pos hq, nvmeAllocCid, hfree, Option.toList_none,
              List.append_nil]
            exact hk
        | cons cid rest =>
            simp only [applyOp, if_pos hq, nvmeAllocCid, hfree, tab_setTab_self]
            exact hk.issue hfree rfl hq
      · simp only [applyOp, if_neg hq, Option.toList_none, List.append_nil]
        exact hk
  | flushRelease tag =>
      cases hread : s.slot q tag with
      | none =>
          simp only [applyOp, hread, Option.toList_none, List.append_nil]
          exact hk
      | some req =>
          simp only [applyOp, hread, Option.toList_none, List.append_nil]
          exact hk.releaseSlot hread

theorem runOps_keeps (ops : List TabOp) (hk : Kept q depth skip (s.tab q) history) :
    Kept q depth skip ((runOps env q ops s).1.tab q) (history ++ (runOps env q ops s).2) := by
  induction ops generalizing s history with
  | nil =>
      unfold runOps
      rw [List.append_nil]
      exact hk
  | cons op ops ih =>
      have hstep : Kept q depth skip ((applyOp env q s op).1.tab q)
          (history ++ (applyOp env q s op).2.toList) := applyOp_keeps hk op
      unfold runOps
      rw [← List.append_assoc]
      exact ih hstep

/-- The representation invariant of a queue's CID table, with its history. -/
structure CidTableOk (depth : Nat) (skip : Bool) (t : SlotTable) (history : List Nat) :
    Prop where
  partition : (t.freeStack.map cidTag ++ busyTags t).Perm (List.range depth)
  count : t.inflightCount = t.inflight.countP Option.isSome
  total : t.freeStack.length + t.inflightCount = depth
  slots : ∀ tag r, t.read tag = some r → cidTag r.cid = tag
  never : 0xFFFF ∉ history
  rounds : skip = false → ∀ before between after cid,
    history = before ++ cid :: (between ++ cid :: after) → cid ∉ between →
      (issuesOf (cidTag cid) between).length = 15

theorem held_eq_countP (l : Slots Request) :
    Slots.held (fun _ => true) l = l.countP Option.isSome := by
  induction l with
  | nil => rfl
  | cons o l ih =>
      rw [Slots.held_cons, ih, List.countP_cons]
      cases o <;> simp [Nat.add_comm]

variable {t : SlotTable}

theorem Kept.partition (hk : Kept q depth skip t history) :
    (t.freeStack.map cidTag ++ busyTags t).Perm (List.range depth) := by
  have hdisj : ∀ a, a ∈ t.freeStack.map cidTag → ∀ b, b ∈ busyTags t → a ≠ b := by
    rintro a ha b hb rfl
    obtain ⟨cid, hmem, rfl⟩ := List.mem_map.mp ha
    have hnone := (hk.tab.free cid hmem).2
    have hsome := (List.mem_filter.mp hb).2
    rw [hnone] at hsome
    cases hsome
  have hnodup : (t.freeStack.map cidTag ++ busyTags t).Nodup :=
    List.nodup_append.mpr ⟨hk.tab.nodup, List.nodup_range.filter _, hdisj⟩
  refine (List.perm_ext_iff_of_nodup hnodup List.nodup_range).mpr ?_
  intro tag
  rw [List.mem_append, List.mem_range]
  constructor
  · rintro (h | h)
    · obtain ⟨cid, hmem, rfl⟩ := List.mem_map.mp h
      exact hk.size ▸ (hk.tab.free cid hmem).1
    · exact hk.size ▸ List.mem_range.mp (List.mem_filter.mp h).1
  · intro hlt
    refine (hk.cover tag hlt).imp_right (fun h => ?_)
    exact List.mem_filter.mpr ⟨List.mem_range.mpr (hk.size ▸ hlt), h⟩

/-- Between two issues of one CID its slot is issued under the other fifteen. -/
theorem Kept.rounds (hk : Kept q depth skip t history) (hskip : skip = false)
    {before between after : List Nat} {cid : Nat}
    (hsplit : history = before ++ cid :: (between ++ cid :: after))
    (hfirst : cid ∉ between) : (issuesOf (cidTag cid) between).length = 15 := by
  have hissues : issuesOf (cidTag cid) history =
      issuesOf (cidTag cid) before ++ ([cid] ++ (issuesOf (cidTag cid) between ++
        ([cid] ++ issuesOf (cidTag cid) after))) := by
    simp [hsplit, issuesOf]
  have hturn := hk.turn hskip (cidTag cid)
  generalize hm : (issuesOf (cidTag cid) before).length = m at *
  generalize hn : (issuesOf (cidTag cid) between).length = n at *
  have hopen : cid = genCid m (cidTag cid) := by
    refine hturn m cid ?_
    rw [hissues, List.getElem?_append_right (by omega)]
    simp [hm]
  have hclose : cid = genCid (m + 1 + n) (cidTag cid) := by
    refine hturn (m + 1 + n) cid ?_
    rw [hissues, List.getElem?_append_right (by omega), hm,
      List.getElem?_append_right (by simp; omega), List.length_singleton,
      List.getElem?_append_right (by omega), hn]
    have hidx : m + 1 + n - m - 1 - n = 0 := by omega
    rw [hidx]
    rfl
  have hmod : m % 16 = (m + 1 + n) % 16 := by
    have h := hopen.symm.trans hclose
    unfold genCid at h
    omega
  by_contra hne
  have hlong : 15 < n := by omega
  have hin : ∃ c, (issuesOf (cidTag cid) between)[15]? = some c :=
    ⟨_, List.getElem?_eq_getElem (by omega)⟩
  obtain ⟨c, hc⟩ := hin
  have hcid : c = genCid (m + 16) (cidTag cid) := by
    refine hturn (m + 16) c ?_
    rw [hissues, List.getElem?_append_right (by omega), hm,
      List.getElem?_append_right (by simp), List.length_singleton,
      List.getElem?_append_left (by omega)]
    have hidx : m + 16 - m - 1 = 15 := by omega
    rw [hidx]
    exact hc
  have hsame : c = cid := by
    rw [hcid]
    exact (genCid_round m (cidTag cid)).trans hopen.symm
  exact hfirst (hsame ▸ (List.mem_filter.mp (List.mem_of_getElem? hc)).1)

theorem Kept.ok (hk : Kept q depth skip t history) (hdepth : depth ≤ 4095) :
    CidTableOk depth skip t history where
  partition := hk.partition
  count := hk.tab.count.trans (held_eq_countP _)
  total := hk.total
  slots := fun tag r hread => (hk.tab.slots tag r hread).1
  never := by
    intro hmem
    have h := hk.issued _ hmem
    have htag : cidTag 0xFFFF = 4095 := rfl
    omega
  rounds := fun hskip _ _ _ _ hsplit hfirst => hk.rounds hskip hsplit hfirst

end Runs

/-- From the setup of a queue on, whatever happens to its tags, the CID table is
well formed and the generations take turns. -/
theorem cidTable_of_setup (env : Env) (s : State) (q : QueueId) (depth : Nat)
    (hdepth : depth ≤ 4095) (hsetup : (nvmeSetupQueue env s q depth).2 = true)
    (ops : List TabOp) :
    CidTableOk depth env.cfg.quirkSkipCidGen
      ((runOps env q ops (nvmeSetupQueue env s q depth).1).1.tab q)
      (runOps env q ops (nvmeSetupQueue env s q depth).1).2 := by
  have htab : (nvmeSetupQueue env s q depth).1.tab q =
      SlotTable.fresh depth env.cfg.quirkSkipCidGen := by
    unfold nvmeSetupQueue at hsetup ⊢
    dsimp only at hsetup ⊢
    split at hsetup
    · rename_i hmem
      rw [if_pos hmem]
      cases q <;> rfl
    · cases hsetup
  have hstart : Kept q depth env.cfg.quirkSkipCidGen
      ((nvmeSetupQueue env s q depth).1.tab q) [] := by
    rw [htab]
    exact kept_fresh q _ hdepth
  exact (runOps_keeps ops hstart).ok hdepth

theorem cidTable_of_setup_sample :
    CidTableOk 32 false
      ((runOps sampleEnv .admin [.reqAlloc none none, .reqDestroy 0, .reqAlloc none none]
        (nvmeSetupQueue sampleEnv (bootState sampleEnv 0) .admin 32).1).1.tab .admin)
      [0, 0x1000] :=
  cidTable_of_setup sampleEnv (bootState sampleEnv 0) .admin 32 (by decide) (by decide)
    [.reqAlloc none none, .reqDestroy 0, .reqAlloc none none]

end CidTable
end NvmeDriver
