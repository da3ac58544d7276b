import NvmeDriver.Refine.IoSide
import NvmeDriver.Runs.Clients

/-!
# What the admin table holds

How many requests of a kind are in the admin table, where the kind of a request is its
callback and its `NVME_REQ_AER` flag, and how submitting and completing admin commands
changes that.
-/

namespace NvmeDriver
namespace Runs

open Engine
open Lib
open Ownership
open Refine

/-! ### Counting -/

section Tally

variable {env : Env} {s : State} {p : Option Done → Bool → Bool}

/-- Requests of a kind in a table. -/
def tally (p : Option Done → Bool → Bool) (t : SlotTable) : Nat :=
  Slots.held (fun r => p r.done r.aer) t.inflight

/-- Requests with `NVME_REQ_AER` in the admin table. -/
def aers (s : State) : Nat := Slots.held Request.aer s.core.adminTab.inflight

/-- The flag is set without the callback, or the other way round. -/
def mismarked (d : Option Done) (a : Bool) : Bool := a != (d == some .aerDone)

/-- A step of the rebuild after a reset. -/
def inRebuild (d : Option Done) (_ : Bool) : Bool :=
  d == some .ioSetupAsyncFeatures || d == some .ioSetupAsyncCq || d == some .ioSetupAsyncSq

theorem tally_gone (p : Option Done → Bool → Bool) : tally p SlotTable.gone = 0 := rfl

theorem tally_fresh (p : Option Done → Bool → Bool) (depth : Nat) (skip : Bool) :
    tally p (SlotTable.fresh depth skip) = 0 :=
  Slots.held_replicate_none _ depth

/-- One for a request of a kind. -/
def one (b : Bool) : Nat := if b then 1 else 0

theorem tally_release {t : SlotTable} {cid : Nat} {r : Request}
    (hread : t.read (cidTag cid) = some r) :
    tally p (nvmeInflightRelease t cid) + one (p r.done r.aer) = tally p t :=
  held_release (fun r => p r.done r.aer) hread

theorem tally_edit (t : SlotTable) (tag : Nat) (f : Request → Request)
    (hdone : ∀ r, (f r).done = r.done) (haer : ∀ r, (f r).aer = r.aer) :
    tally p (t.edit tag f) = tally p t :=
  held_edit _ tag f fun r => by rw [hdone, haer]

/-- A request that is held is submitted, or the ring is full and it is destroyed. -/
theorem tally_submit {cid : Nat} {rest : List Nat} {s₁ : State} {r : Request}
    {es : List Effect} (hh : Holding s.core .admin cid rest s₁ r es) :
    tally p (nvmeSubmitIo env s₁ .admin (cidTag cid)).1.core.adminTab =
      tally p s.core.adminTab +
        if (nvmeSubmitIo env s₁ .admin (cidTag cid)).2 = nvmeIoAsync then one (p r.done r.aer)
        else 0 := by
  rw [hh.nvmeSubmitIo]
  have hbusy : ioerrUnitBusy ≠ nvmeIoAsync := by decide
  by_cases hfull : sqFull s₁ .admin
  · rw [if_pos hfull]
    dsimp only
    rw [if_neg hbusy, (hh.log (.sqFull .admin)).destroy]
    rfl
  · rw [if_neg hfull, if_pos rfl]
    have hclaim : ∀ us, tally p (nvmeInflightClaim (popped s.core.adminTab rest) cid
        { r with submitUs := us }) = tally p s.core.adminTab + one (p r.done r.aer) :=
      fun us => held_claim (fun r => p r.done r.aer) hh.tab hh.free _
    obtain ⟨us, hcore | ⟨tail, hcore⟩⟩ := hh.writeSqe env
    · rw [hcore]
      exact hclaim us
    · rw [hcore]
      exact hclaim us

/-- A submission that succeeds adds a number to a count, and one that fails adds nothing. -/
def Adds (p : Option Done → Bool → Bool) (s : State) (k : Nat) (result : State × Int) : Prop :=
  tally p result.1.core.adminTab = tally p s.core.adminTab + if result.2 = 0 then k else 0

theorem adds_failed {k : Nat} {s₁ : State} {e : Int} (he : e ≠ 0)
    (hsame : tally p s₁.core.adminTab = tally p s.core.adminTab) : Adds p s k (s₁, e) := by
  unfold Adds
  dsimp only
  rw [if_neg he, hsame, Nat.add_zero]

theorem adds_submitAdmin {cid : Nat} {rest : List Nat} {s₁ : State} {r : Request}
    (hh : Holding s.core .admin cid rest s₁ r []) {cmd : Command}
    {buffer : Option (Nat × Nat)} {fill : Request → Request}
    (hcid : ∀ r, (fill r).cid = r.cid) {d : Option Done} {a : Bool}
    (hfill : ∀ r' : Request, r'.done = r.done → r'.aer = r.aer →
      (fill r').done = d ∧ (fill r').aer = a) :
    Adds p s (one (p d a)) (submitAdmin env s₁ (cidTag cid) cmd buffer fill) := by
  have h₁ := hh.editSlot (fun x =>
    fill { x with cmd := { nvmeStageAdminPrps cmd buffer with commandId := x.cid } })
    ((hcid _).trans hh.cid)
  obtain ⟨hd, ha⟩ := hfill
    { r with cmd := { nvmeStageAdminPrps cmd buffer with commandId := r.cid } } rfl rfl
  have hret : ∀ e : Int, (if e ≠ nvmeIoAsync then errIo else 0) = 0 ↔ e = nvmeIoAsync := by
    intro e
    by_cases he : e = nvmeIoAsync
    · simp [he]
    · simp only [ne_eq, he, not_false_eq_true, if_true, iff_false]
      decide
  unfold Adds submitAdmin
  cases buffer with
  | none =>
      have h := @tally_submit env s p _ _ _ _ _ h₁
      rw [hd, ha] at h
      dsimp only
      simp only [hret]
      exact h
  | some b =>
      have h := @tally_submit env s p _ _ _ _ _ (h₁.log (.cacheFlush b.1 b.2 false))
      rw [hd, ha] at h
      dsimp only
      simp only [hret]
      exact h

/-- `nvme_submit_async_cmd` adds its request or nothing. -/
theorem adds_async (ht : TabOk .admin s.core.adminTab) (cmd : Command)
    (buffer : Option (Nat × Nat)) (d : Done) (priv : Option Nat) (aer : Bool) :
    Adds p s (one (p (some d) aer)) (nvmeSubmitAsyncCmd env s cmd buffer d priv aer) := by
  unfold nvmeSubmitAsyncCmd nvmeReqAllocAdmin
  rcases @allocRequest_cases env s .admin id errNoMem errBusy ht (fun _ => rfl) with
    ⟨s₁, heq, hcore, -⟩ | ⟨s₁, heq, hcore, -⟩ | ⟨s₁, cid, rest, heq, hh, hal⟩
  · rw [heq]
    exact adds_failed (by decide) (by rw [hcore]; rfl)
  · rw [heq]
    exact adds_failed (by decide) (by rw [hcore]; rfl)
  · rw [heq]
    change Adds p s (one (p (some d) aer)) (submitAdmin env s₁ (cidTag cid) cmd buffer
      (fun x => { x with done := some d, priv := priv, aer := aer }))
    refine adds_submitAdmin hh ?_ ?_
    · exact fun _ => rfl
    · exact fun _ _ _ => ⟨rfl, rfl⟩

/-- `nvme_submit_sync_cmd` adds its request or nothing. -/
theorem adds_sync (ht : TabOk .admin s.core.adminTab) (w : Waiter) (cmd : Command)
    (buffer : Option (Nat × Nat)) :
    Adds p s (one (p none false)) (nvmeSubmitSyncCmd env s w cmd buffer) := by
  unfold nvmeSubmitSyncCmd nvmeReqAllocAdmin
  rcases @allocRequest_cases env s .admin id errNoMem errBusy ht (fun _ => rfl) with
    ⟨s₁, heq, hcore, -⟩ | ⟨s₁, heq, hcore, -⟩ | ⟨s₁, cid, rest, heq, hh, hal⟩
  · rw [heq]
    exact adds_failed (by decide) (by rw [hcore]; rfl)
  · rw [heq]
    exact adds_failed (by decide) (by rw [hcore]; rfl)
  · rw [heq]
    have h₂ : Holding s.core .admin cid rest (s₁.allocate env).2
        { id := s.core.allocs, q := .admin, cid := cid } [] := hh.alloc rfl
    dsimp only
    generalize s₁.allocate env = res at h₂ ⊢
    obtain ⟨_ | a, s₂⟩ := res
    · exact adds_failed (by decide) (by dsimp only at h₂; rw [h₂.destroy]; rfl)
    · change Adds p s (one (p none false)) (submitAdmin env s₂ (cidTag cid) cmd buffer
        (fun x => { x with waiter := some w }))
      refine adds_submitAdmin h₂ ?_ ?_
      · exact fun _ => rfl
      · exact fun r' hd ha => ⟨hd, ha⟩

end Tally

/-! ### The quota of asynchronous event requests -/

section Quota

variable {env : Env} {s t : State} {r : Request} {e : Prop}

/-- A step of the rebuild is in the table or parked. -/
def Rebuilding (s : State) : Prop :=
  0 < tally inRebuild s.core.adminTab ∨
    ∃ r, r ∈ s.core.retryList ∧ inRebuild r.done r.aer = true

/-- At most one asynchronous event request is in the table, none is parked, and there is
none during a rebuild. -/
structure Quota (s : State) : Prop where
  marked : tally mismarked s.core.adminTab = 0
  parked : ∀ r, r ∈ s.core.retryList → r.q = .admin → r.done ≠ some .aerDone ∧ r.aer = false
  single : aers s ≤ 1
  rebuild : Rebuilding s → aers s = 0

/-- The same with one more request on its way into the table or out of it. -/
structure HeldQuota (s : State) (r : Request) : Prop where
  table : Quota s
  marked : mismarked r.done r.aer = false
  single : aers s + one r.aer ≤ 1
  rebuild : inRebuild r.done r.aer = true ∨ Rebuilding s → aers s + one r.aer = 0

/-- Exactly one is in the table while the controller is LIVE and started. -/
def Exact (s : State) : Prop :=
  s.core.state = .live → s.core.unitBlocked = false → aers s = 1

/-- The same with one more request. -/
def HeldExact (s : State) (r : Request) : Prop :=
  s.core.state = .live → s.core.unitBlocked = false → aers s + one r.aer = 1

/-- The quota holds, and is met as long as nothing has gone wrong. -/
structure Counted (e : Prop) (s : State) : Prop where
  quota : Quota s
  exact : e → Exact s

theorem Exact.of_not_live (hlive : s.core.state ≠ .live) : Exact s :=
  fun h _ => absurd h hlive

theorem inRebuild_plain (hr : Plain r) : inRebuild r.done r.aer = false := by
  rw [hr.done]
  rfl

theorem mismarked_eq_false (hdone : r.done ≠ some .aerDone) (haer : r.aer = false) :
    mismarked r.done r.aer = false := by
  unfold mismarked
  rw [haer, bne_eq_false_iff_eq, eq_comm, beq_eq_false_iff_ne]
  exact hdone

/-- The flag follows the callback. -/
theorem HeldQuota.aer_iff (hq : HeldQuota s r) : r.aer = true ↔ r.done = some .aerDone := by
  have h := hq.marked
  unfold mismarked at h
  rw [bne_eq_false_iff_eq] at h
  rw [h, beq_iff_eq]

theorem HeldQuota.not_aer (hq : HeldQuota s r) (hdone : r.done ≠ some .aerDone) :
    r.aer = false := by
  by_contra h
  exact hdone (hq.aer_iff.mp (by simpa using h))

/-- A request that is neither an event request nor a step of the rebuild. -/
theorem Quota.hold (hq : Quota s) (hdone : r.done ≠ some .aerDone) (haer : r.aer = false)
    (hrebuild : inRebuild r.done r.aer = false) : HeldQuota s r where
  table := hq
  marked := mismarked_eq_false hdone haer
  single := by
    rw [haer]
    exact hq.single
  rebuild := by
    rw [hrebuild, haer]
    rintro (h | h)
    · cases h
    · exact hq.rebuild h

/-- The kind of the request is all that counts. -/
theorem HeldQuota.alter {r' : Request} (hq : HeldQuota s r) (hdone : r'.done = r.done)
    (haer : r'.aer = r.aer) : HeldQuota s r' where
  table := hq.table
  marked := by
    rw [hdone, haer]
    exact hq.marked
  single := by
    rw [haer]
    exact hq.single
  rebuild := by
    rw [hdone, haer]
    exact hq.rebuild

theorem HeldExact.drop (he : HeldExact s r) (haer : r.aer = false) : Exact s := by
  intro hlive hblocked
  have h := he hlive hblocked
  rw [haer] at h
  exact h

/-- The request is given up. -/
theorem HeldQuota.drop (hq : HeldQuota s r) (hdone : r.done ≠ some .aerDone)
    (he : e → HeldExact s r) : Counted e s :=
  ⟨hq.table, fun h => (he h).drop (hq.not_aer hdone)⟩

/-- Only the counts and the retry list matter. -/
theorem Quota.tallied (hq : Quota s)
    (htally : ∀ p, tally p t.core.adminTab = tally p s.core.adminTab)
    (hlist : t.core.retryList = s.core.retryList) : Quota t ∧ aers t = aers s := by
  have haers : aers t = aers s := htally (fun _ a => a)
  refine ⟨⟨?_, ?_, ?_, ?_⟩, haers⟩
  · rw [htally]
    exact hq.marked
  · rw [hlist]
    exact hq.parked
  · rw [haers]
    exact hq.single
  · unfold Rebuilding
    rw [htally, hlist, haers]
    exact hq.rebuild

theorem Quota.same (hq : Quota s) (hadmin : t.core.adminTab = s.core.adminTab)
    (hlist : t.core.retryList = s.core.retryList) : Quota t :=
  (hq.tallied (fun p => congrArg (tally p) hadmin) hlist).1

/-! ### The I/O side -/

theorem Rebuilding.io (h : IoOnly s t) : Rebuilding t → Rebuilding s := by
  rintro (htab | ⟨r, hr, hrebuild⟩)
  · rw [h.admin] at htab
    exact .inl htab
  · rcases h.retry r hr with hr | hr
    · exact .inr ⟨r, hr, hrebuild⟩
    · exact Bool.noConfusion (hrebuild.symm.trans (inRebuild_plain hr))

theorem aers_io (h : IoOnly s t) : aers t = aers s := by
  unfold aers
  rw [h.admin]

theorem Quota.io (hq : Quota s) (h : IoOnly s t) : Quota t where
  marked := by
    rw [h.admin]
    exact hq.marked
  parked := by
    intro r hr hadmin
    rcases h.retry r hr with hr | hr
    · exact hq.parked r hr hadmin
    · rw [hr.queue] at hadmin
      cases hadmin
  single := by
    rw [aers_io h]
    exact hq.single
  rebuild := by
    rw [aers_io h]
    exact fun hre => hq.rebuild (hre.io h)

theorem HeldQuota.io (hq : HeldQuota s r) (h : IoOnly s t) : HeldQuota t r where
  table := hq.table.io h
  marked := hq.marked
  single := by
    rw [aers_io h]
    exact hq.single
  rebuild := by
    rw [aers_io h]
    exact fun hre => hq.rebuild (hre.imp_right (Rebuilding.io h))

theorem Exact.io (he : Exact s) (h : IoOnly s t) : Exact t := by
  unfold Exact
  rw [h.state, h.blocked, aers_io h]
  exact he

theorem HeldExact.io (he : HeldExact s r) (h : IoOnly s t) : HeldExact t r := by
  unfold HeldExact
  rw [h.state, h.blocked, aers_io h]
  exact he

theorem Counted.io (hc : Counted e s) (h : IoOnly s t) : Counted e t :=
  ⟨hc.quota.io h, fun he => (hc.exact he).io h⟩

/-! ### Submissions -/

/-- The request goes into the table or is given up. -/
theorem HeldQuota.grows {ok : Prop} [Decidable ok] (hq : HeldQuota s r)
    (hlist : t.core.retryList = s.core.retryList)
    (hgrow : ∀ p, tally p t.core.adminTab =
      tally p s.core.adminTab + if ok then one (p r.done r.aer) else 0) :
    Quota t ∧ aers t = aers s + if ok then one r.aer else 0 := by
  have haers : aers t = aers s + if ok then one r.aer else 0 := hgrow (fun _ a => a)
  have hle : aers t ≤ aers s + one r.aer := by
    rw [haers]
    split <;> omega
  refine ⟨⟨?_, ?_, hle.trans hq.single, ?_⟩, haers⟩
  · rw [hgrow, hq.table.marked, hq.marked]
    exact (Nat.zero_add _).trans (ite_self 0)
  · rw [hlist]
    exact hq.table.parked
  · intro hre
    refine Nat.le_zero.mp (hle.trans_eq (hq.rebuild ?_))
    by_cases hr : inRebuild r.done r.aer = true
    · exact .inl hr
    · have hzero : one (inRebuild r.done r.aer) = 0 := if_neg hr
      unfold Rebuilding at hre
      rw [hgrow, hzero, ite_self, Nat.add_zero, hlist] at hre
      exact .inr hre

theorem onQueue_admin (h : OnQueue .admin s t) :
    t.core.retryList = s.core.retryList ∧ t.core.state = s.core.state ∧
      t.core.unitBlocked = s.core.unitBlocked := by
  obtain ⟨tab, ring, n, es, hcore, -⟩ := h.core
  rw [hcore]
  exact ⟨rfl, rfl, rfl⟩

/-- A request of a kind, to be submitted. -/
def ofKind (d : Option Done) (a : Bool) : Request :=
  { id := 0, q := .admin, cid := 0, done := d, aer := a }

/-- A submission that is neither an event request nor a step of the rebuild. -/
theorem Quota.adds {result : State × Int} (hq : Quota s) (h : OnQueue .admin s result.1)
    {d : Option Done} (hadds : ∀ p, Adds p s (one (p d false)) result)
    (hdone : d ≠ some .aerDone) (hrebuild : inRebuild d false = false) :
    Quota result.1 ∧ aers result.1 = aers s ∧ (Rebuilding result.1 → Rebuilding s) := by
  have hlist := (onQueue_admin h).1
  have hheld : HeldQuota s (ofKind d false) := hq.hold hdone rfl hrebuild
  obtain ⟨hquota, haers⟩ := hheld.grows hlist hadds
  have htally : tally inRebuild result.1.core.adminTab = tally inRebuild s.core.adminTab := by
    have hsame := hadds inRebuild
    unfold Adds at hsame
    rw [hrebuild] at hsame
    exact hsame.trans (congrArg _ (ite_self 0))
  refine ⟨hquota, haers.trans (congrArg _ (ite_self 0)), ?_⟩
  unfold Rebuilding
  rw [htally, hlist]
  exact id

theorem Counted.adds {result : State × Int} (hc : Counted e s) (h : OnQueue .admin s result.1)
    {d : Option Done} (hadds : ∀ p, Adds p s (one (p d false)) result)
    (hdone : d ≠ some .aerDone) (hrebuild : inRebuild d false = false) :
    Counted e result.1 := by
  obtain ⟨-, hstate, hblocked⟩ := onQueue_admin h
  obtain ⟨hquota, haers, -⟩ := hc.quota.adds h hadds hdone hrebuild
  refine ⟨hquota, fun he => ?_⟩
  unfold Exact
  rw [hstate, hblocked, haers]
  exact hc.exact he

/-- No asynchronous event request is in the table, and no rebuild is on. -/
structure Bare (s : State) : Prop where
  quota : Quota s
  unarmed : aers s = 0
  idle : ¬Rebuilding s

theorem Bare.same (hb : Bare s) (hadmin : t.core.adminTab = s.core.adminTab)
    (hlist : t.core.retryList = s.core.retryList) : Bare t where
  quota := hb.quota.same hadmin hlist
  unarmed := by
    unfold aers
    rw [hadmin]
    exact hb.unarmed
  idle := by
    unfold Rebuilding
    rw [hadmin, hlist]
    exact hb.idle

theorem Bare.adds {result : State × Int} (hb : Bare s) (h : OnQueue .admin s result.1)
    {d : Option Done} (hadds : ∀ p, Adds p s (one (p d false)) result)
    (hdone : d ≠ some .aerDone) (hrebuild : inRebuild d false = false) : Bare result.1 := by
  obtain ⟨hquota, haers, hback⟩ := hb.quota.adds h hadds hdone hrebuild
  exact ⟨hquota, haers.trans hb.unarmed, fun hre => hb.idle (hback hre)⟩

/-- No asynchronous event request can be submitted. -/
def aerFails (env : Env) (s : State) : Prop :=
  (nvmeSubmitAsyncCmd env s { opcode := nvmeAdminAsyncEvent } none .aerDone none true).2 ≠ 0

instance (env : Env) (s : State) : Decidable (aerFails env s) :=
  inferInstanceAs (Decidable (_ ≠ _))

/-- `nvme_submit_aer` where none is in the table. -/
theorem Bare.aer (hb : Bare s) (ht : TabOk .admin s.core.adminTab)
    (harm : e → s.core.state = .live → s.core.unitBlocked = false → ¬aerFails env s) :
    Counted e (nvmeSubmitAer env s) := by
  have hframe : OnQueue .admin s (nvmeSubmitAer env s) := OnQueue.nvmeSubmitAsyncCmd s _ _ _ _ _
  obtain ⟨hlist, hstate, hblocked⟩ := onQueue_admin hframe
  have hheld : HeldQuota s (ofKind (some .aerDone) true) := by
    refine ⟨hb.quota, rfl, ?_, ?_⟩
    · rw [hb.unarmed]
      exact Nat.le_refl 1
    · rintro (h | h)
      · cases h
      · exact absurd h hb.idle
  obtain ⟨hquota, haers⟩ := hheld.grows hlist fun p =>
    adds_async ht { opcode := nvmeAdminAsyncEvent } none .aerDone none true
  refine ⟨hquota, fun he => ?_⟩
  unfold Exact
  rw [hstate, hblocked, haers, hb.unarmed]
  intro hlive hrun
  rw [if_pos (not_not.mp (harm he hlive hrun))]
  rfl

end Quota

end Runs
end NvmeDriver
