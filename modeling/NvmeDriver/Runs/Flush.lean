import NvmeDriver.Runs.Exit

/-!
# Flushing a queue

`nvme_flush_queue_inflight` walks the table once, from tag 0 up.  Each request it finds is
released and completed on the branch that does not retry, whatever kind it is.  The callback
of an asynchronous event request then posts the next one, into the tag that was released
last: behind the walk.  So the table is empty afterwards exactly when every such re-arm
fails.
-/

namespace NvmeDriver
namespace Runs

open Engine
open Lib
open Ownership
open Refine

/-! ### What a flush owes -/

section Defs

/-- A forced completion on the log. -/
def cancelOf : Effect → Option (QueueId × Nat)
  | .cancel q id => some (q, id)
  | _ => none

/-- The forced completions so far, newest first. -/
def cancels (s : State) : List (QueueId × Nat) := s.core.trace.filterMap cancelOf

/-- A request is taken out of its slot and completed with the host's abort status, on the
branch of `nvme_complete_rq` that does not retry. -/
def abortRequest (env : Env) (q : QueueId) (s : State) (r : Request) : State :=
  completeRequest env ((s.releaseSlot q r.cid).log (.cancel q r.id))
    { r with status := nvmeScHostAbortedCmd, cancelled := true }

/-- The requests that were in flight are completed once each, in the order of their tags, and
nothing is parked for a retry. -/
structure CompletesEach (env : Env) (s : State) (q : QueueId) : Prop where
  each : nvmeFlushQueueInflight env s q = (s.tab q).occupants.foldl (abortRequest env q) s
  once : cancels (nvmeFlushQueueInflight env s q) =
    ((s.tab q).occupants.map (fun r => (q, r.id))).reverse ++ cancels s
  parked : (nvmeFlushQueueInflight env s q).core.retryList = s.core.retryList

/-- A flush leaves the table empty and has completed what was in it. -/
structure FlushEmpties (env : Env) (s : State) (q : QueueId) : Prop where
  count : ((nvmeFlushQueueInflight env s q).tab q).inflightCount = 0
  slots : ∀ tag, (nvmeFlushQueueInflight env s q).slot q tag = none
  completes : CompletesEach env s q

/-- The request is an asynchronous event request. -/
def isAer (r : Request) : Bool := r.done == some .aerDone

/-- The asynchronous event requests in a queue's table. -/
def aersIn (s : State) (q : QueueId) : Nat := Slots.held isAer (s.tab q).inflight

/-- The next `k` attempts to post an asynchronous event request fail: the ring is full, or
there is no memory for any of them. -/
def RearmsFail (env : Env) (s : State) (q : QueueId) (k : Nat) : Prop :=
  sqFull s q ∨ ∀ j, j < k → env.alloc (s.core.allocs + j) = none

/-- The table holds requests of the kinds the driver builds for that queue. -/
def KindsOk (s : State) (q : QueueId) : Prop :=
  ∀ tag r, s.slot q tag = some r → (keyOf r).Sound

end Defs

/-! ### Completions that leave the queue alone -/

/-- Nothing the walk depends on has changed. -/
structure Calm (q : QueueId) (s t : State) : Prop where
  tab : t.core.tab q = s.core.tab q
  ring : t.core.ring q = s.core.ring q
  allocs : t.core.allocs = s.core.allocs
  parked : t.core.retryList = s.core.retryList
  forced : cancels t = cancels s

namespace Calm

variable {env : Env} {q : QueueId} {s t u : State} {r : Request}

theorem refl (q : QueueId) (s : State) : Calm q s s := ⟨rfl, rfl, rfl, rfl, rfl⟩

theorem trans (h₁ : Calm q s t) (h₂ : Calm q t u) : Calm q s u :=
  ⟨h₂.tab.trans h₁.tab, h₂.ring.trans h₁.ring, h₂.allocs.trans h₁.allocs,
    h₂.parked.trans h₁.parked, h₂.forced.trans h₁.forced⟩

theorem log (q : QueueId) (s : State) {e : Effect} (he : cancelOf e = none) :
    Calm q s (s.log e) := by
  refine ⟨?_, ?_, rfl, rfl, ?_⟩
  · cases q <;> rfl
  · cases q <;> rfl
  · unfold cancels State.log Core.log
    exact List.filterMap_cons_none he

theorem editCtx (q : QueueId) (s : State) (x : Nat) (f : IoContext → IoContext) :
    Calm q s (s.editCtx x f) := by
  cases q <;> exact ⟨rfl, rfl, rfl, rfl, rfl⟩

theorem eraseCtx (q : QueueId) (s : State) (x : Nat) :
    Calm q s { s with core := { s.core with ctxs := s.core.ctxs.erase x } } := by
  cases q <;> exact ⟨rfl, rfl, rfl, rfl, rfl⟩

theorem nvmeIoContextFinish (q : QueueId) (s : State) (x : Nat) :
    Calm q s (Engine.nvmeIoContextFinish s x) := by
  unfold Engine.nvmeIoContextFinish
  split
  · exact log q s rfl
  · dsimp only
    refine Calm.trans ?_ (eraseCtx q _ x)
    refine Calm.trans (Calm.trans ?_ (log q _ rfl)) (log q _ rfl)
    split
    · exact (log q s rfl).trans (log q _ rfl)
    · exact log q s rfl

theorem finishIfIdle (q : QueueId) (s : State) (x : Nat) :
    Calm q s (Engine.finishIfIdle s x) := by
  unfold Engine.finishIfIdle
  split
  · exact log q s rfl
  · split
    · exact nvmeIoContextFinish q s x
    · exact refl q s

/-- A cancelled sibling latches its error, so its context is not pumped again. -/
theorem completeSibling (q : QueueId) (s : State) (r : Request) (x : Nat) :
    Calm q s (Engine.completeSibling env s (cancelled r) x) := by
  unfold Engine.completeSibling
  split
  · exact log q s rfl
  · rename_i ctx hget
    dsimp only
    rw [if_neg fun h => siblingDone_firstError ctx r h.2]
    exact ((editCtx q s x _).trans (log q _ rfl)).trans (finishIfIdle q _ x)

theorem nvmeChangeCtrlState (q : QueueId) (s : State) (st : CtrlState) :
    Calm q s (Engine.nvmeChangeCtrlState s st).1 := by
  unfold Engine.nvmeChangeCtrlState
  split
  · cases q <;> exact ⟨rfl, rfl, rfl, rfl, List.filterMap_cons_none rfl⟩
  · exact refl q s

theorem nvmeResetFinish_false (q : QueueId) (s : State) :
    Calm q s (nvmeResetFinish env s false) :=
  ((log q s rfl).trans (nvmeChangeCtrlState q _ _)).trans (nvmeChangeCtrlState q _ _)

theorem rebuildFailed (s : State) : Calm .admin s (Engine.rebuildFailed env s) := by
  have hdown : Calm .admin s (nvmeTeardownQueue s .io) :=
    ⟨rfl, rfl, rfl, rfl, List.filterMap_cons_none rfl⟩
  exact hdown.trans (nvmeResetFinish_false .admin _)

/-- A callback that learns of a failure leaves the admin queue alone, unless it re-arms. -/
theorem runDone (hstatus : r.status ≠ 0) {d : Done} (hd : d ≠ .aerDone) :
    Calm .admin s (Engine.runDone env s r d) := by
  have hfree : ∀ t : State, Calm .admin t (t.log (.reqFree r.id)) := fun t => log .admin t rfl
  cases d with
  | abortDone => exact hfree s
  | aerDone => exact absurd rfl hd
  | fwSlotInfoDone =>
      unfold Engine.runDone
      cases r.priv with
      | none => exact hfree s
      | some a => exact (log .admin s rfl).trans (hfree _)
  | ioSetupAsyncFeatures =>
      unfold Engine.runDone nvmeIoSetupAsyncFeatures
      rw [if_pos hstatus]
      exact (hfree s).trans (nvmeResetFinish_false .admin _)
  | ioSetupAsyncCq =>
      unfold Engine.runDone nvmeIoSetupAsyncCq
      rw [if_pos hstatus]
      exact (hfree s).trans (rebuildFailed _)
  | ioSetupAsyncSq =>
      unfold Engine.runDone nvmeIoSetupAsyncSq
      rw [if_pos hstatus]
      exact (hfree s).trans (rebuildFailed _)

theorem endReq (hq : q = .io → r.done = none) (haer : isAer r = false) :
    Calm q s (Engine.endReq env s (cancelled r)) := by
  unfold Engine.endReq
  split
  · rename_i d hd
    have hdone : r.done = some d := hd
    have hadmin : q = .admin := by
      cases q with
      | admin => rfl
      | io =>
          rw [hq rfl] at hdone
          cases hdone
    subst hadmin
    refine runDone (by exact (by decide : nvmeScHostAbortedCmd ≠ 0)) ?_
    rintro rfl
    simp [isAer, hdone] at haer
  · rename_i w _ _
    refine (log q s (e := .signal w) rfl).trans ?_
    cases q <;> exact ⟨rfl, rfl, rfl, rfl, rfl⟩
  · exact (log q s rfl).trans (log q _ rfl)
  · exact refl q s

end Calm

/-! ### One slot -/

section Slot

variable {env : Env} {q : QueueId} {s t : State} {r : Request} {tag : Nat}

theorem cancelOf_quietFor {n : Nat} {e : Effect} (he : quietFor n e = true) :
    cancelOf e = none := by
  cases e <;> first | rfl | cases he

theorem filterMap_cancelOf {n : Nat} {notes : List Effect}
    (hnotes : ∀ e, e ∈ notes → quietFor n e = true) : notes.filterMap cancelOf = [] := by
  rw [List.filterMap_eq_nil_iff]
  intro e he
  exact cancelOf_quietFor (hnotes e he)

/-- The slot is released and the forced completion is on the log; nothing else has
happened to the queue. -/
structure Released (q : QueueId) (s : State) (r : Request) (t : State) : Prop where
  tab : t.core.tab q = nvmeInflightRelease (s.core.tab q) r.cid
  ring : t.core.ring q = s.core.ring q
  allocs : t.core.allocs = s.core.allocs
  parked : t.core.retryList = s.core.retryList
  forced : cancels t = (q, r.id) :: cancels s

theorem Released.calm {u : State} (hr : Released q s r t) (hc : Calm q t u) :
    Released q s r u :=
  ⟨hc.tab.trans hr.tab, hc.ring.trans hr.ring, hc.allocs.trans hr.allocs,
    hc.parked.trans hr.parked, hc.forced.trans hr.forced⟩

theorem cleared_released (q : QueueId) (s : State) (r : Request) :
    Released q s r (cleared s q r) := by
  obtain ⟨notes, hcore, hnotes⟩ := nvmeCleanupCmd_core
    ((s.releaseSlot q r.cid).log (.cancel q r.id))
    { r with status := nvmeScHostAbortedCmd, cancelled := true }
  have hcore' : (cleared s q r).core = _ := hcore
  constructor
  · rw [hcore']
    cases q <;> rfl
  · rw [hcore']
    cases q <;> rfl
  · rw [hcore']
    cases q <;> rfl
  · rw [hcore']
    cases q <;> rfl
  · unfold cancels
    rw [hcore']
    change (notes ++ Effect.cancel q r.id ::
      (s.releaseSlot q r.cid).core.trace).filterMap cancelOf = _
    rw [List.filterMap_append, filterMap_cancelOf hnotes]
    cases q <;> rfl

/-- Any request but an asynchronous event request is gone when it has been flushed. -/
theorem flushSlot_released (hslot : s.slot q tag = some r) (hq : q = .io → r.done = none)
    (haer : isAer r = false) : Released q s r (flushSlot env q s tag) := by
  rw [flushSlot_some hslot]
  cases r.ctx with
  | none => exact (cleared_released q s r).calm (Calm.endReq hq haer)
  | some x => exact (cleared_released q s r).calm (Calm.completeSibling q _ r x)

/-- The table after a re-arm that failed or succeeded; `tag` is on top of the free stack. -/
structure Rearmed (env : Env) (s t : State) (tag : Nat) : Prop where
  tab : TabOk .admin t.core.adminTab
  depth : t.core.adminTab.depth = s.core.adminTab.depth
  others : ∀ u, u ≠ tag → t.core.adminTab.read u = s.core.adminTab.read u
  allocs : t.core.allocs = s.core.allocs + 1
  parked : t.core.retryList = s.core.retryList
  forced : cancels t = cancels s
  failed : sqFull s .admin ∨ env.alloc s.core.allocs = none →
    t.core.adminTab.read tag = none ∧ t.core.adminRing = s.core.adminRing
  posted : ¬(sqFull s .admin ∨ env.alloc s.core.allocs = none) →
    t.core.adminTab.read tag ≠ none

/-- The re-arm is submitted. -/
theorem Rearmed.of_claim {cid : Nat} {rest : List Nat} (us : Nat)
    (ht : TabOk .admin s.core.adminTab) (hfree : s.core.adminTab.freeStack = cid :: rest)
    (hcid : r.cid = cid) (hq : r.q = .admin)
    (hno : ¬(sqFull s .admin ∨ env.alloc s.core.allocs = none))
    (htab : t.core.adminTab =
      nvmeInflightClaim (popped s.core.adminTab rest) cid { r with submitUs := us })
    (hallocs : t.core.allocs = s.core.allocs + 1) (hparked : t.core.retryList = s.core.retryList)
    (hcancels : cancels t = cancels s) : Rearmed env s t (cidTag cid) where
  tab := by
    rw [htab]
    exact ht.claim hfree hcid hq
  depth := by
    rw [htab]
    rfl
  others := by
    intro u hu
    rw [htab]
    exact Slots.read_set_other _ (fun h => hu h.symm)
  allocs := hallocs
  parked := hparked
  forced := hcancels
  failed := fun hf => absurd hf hno
  posted := by
    intro _
    rw [htab, read_claim_self ht hfree]
    exact Option.some_ne_none _

/-- The re-arm fails, and at most the tag's generation has changed. -/
theorem Rearmed.of_failed {t : State} (hnone : s.core.adminTab.read tag = none)
    (ht : TabOk .admin t.core.adminTab)
    (hinflight : t.core.adminTab.inflight = s.core.adminTab.inflight)
    (hdepth : t.core.adminTab.depth = s.core.adminTab.depth)
    (hring : t.core.adminRing = s.core.adminRing)
    (hfails : sqFull s .admin ∨ env.alloc s.core.allocs = none)
    (hallocs : t.core.allocs = s.core.allocs + 1) (hparked : t.core.retryList = s.core.retryList)
    (hcancels : cancels t = cancels s) : Rearmed env s t tag where
  tab := ht
  depth := hdepth
  others := by
    intro u _
    unfold SlotTable.read
    rw [hinflight]
  allocs := hallocs
  parked := hparked
  forced := hcancels
  failed := by
    intro _
    refine ⟨?_, hring⟩
    unfold SlotTable.read
    rw [hinflight]
    exact hnone
  posted := fun hno => absurd hfails hno

/-- What a submission with a new request in hand comes to. -/
theorem rearmed_of_holding {cid : Nat} {rest : List Nat} {s₁ : State}
    (hh : Holding s.core .admin cid rest s₁ r []) (hq : r.q = .admin)
    (hal : s₁.core.allocs = s.core.allocs + 1) (hmem : env.alloc s.core.allocs ≠ none) :
    Rearmed env s (nvmeSubmitIo env s₁ .admin (cidTag cid)).1 (cidTag cid) := by
  have hfull : sqFull s₁ .admin ↔ sqFull s .admin := hh.sqFull
  rw [hh.nvmeSubmitIo]
  by_cases hf : sqFull s .admin
  · have hcore := (hh.log (.sqFull .admin)).destroy
    rw [if_pos (hfull.mpr hf)]
    refine Rearmed.of_failed (hh.tab.free_head hh.free).2 ?_ ?_ ?_ ?_ (.inl hf) ?_ ?_ ?_
    · rw [hcore]
      exact hh.tab.bump hh.free
    · rw [hcore]
      rfl
    · rw [hcore]
      rfl
    · rw [hcore]
      rfl
    · rw [hcore]
      exact hal
    · rw [hcore]
      rfl
    · unfold cancels
      rw [hcore]
      change (Effect.reqFree r.id :: (dmaFrees r ++ [Effect.sqFull .admin]) ++
        s.core.trace).filterMap cancelOf = _
      rw [List.filterMap_append, List.filterMap_cons_none rfl, List.filterMap_append,
        filterMap_cancelOf (dmaFrees_quietFor r)]
      rfl
  · have hno : ¬(sqFull s .admin ∨ env.alloc s.core.allocs = none) := by
      rintro (h | h)
      · exact hf h
      · exact hmem h
    rw [if_neg (fun h => hf (hfull.mp h))]
    obtain ⟨us, hcore | ⟨tail, hcore⟩⟩ := hh.writeSqe env
    · refine Rearmed.of_claim us hh.tab hh.free hh.cid hq hno ?_ ?_ ?_ ?_
      · rw [hcore]
        rfl
      · rw [hcore]
        exact hal
      · rw [hcore]
        rfl
      · unfold cancels
        rw [hcore]
        exact List.filterMap_cons_none rfl
    · refine Rearmed.of_claim us hh.tab hh.free hh.cid hq hno ?_ ?_ ?_ ?_
      · rw [hcore]
        rfl
      · rw [hcore]
        exact hal
      · rw [hcore]
        rfl
      · unfold cancels
        rw [hcore]
        exact (List.filterMap_cons_none rfl).trans (List.filterMap_cons_none rfl)

theorem nvmeSubmitAer_rearmed (env : Env) {cid : Nat} {rest : List Nat}
    (ht : TabOk .admin s.core.adminTab) (hfree : s.core.adminTab.freeStack = cid :: rest) :
    Rearmed env s (nvmeSubmitAer env s) (cidTag cid) := by
  unfold nvmeSubmitAer nvmeSubmitAsyncCmd nvmeReqAllocAdmin
  cases hmem : env.alloc s.core.allocs with
  | none =>
      have heq : allocRequest env s .admin id errNoMem errBusy =
          ((s.allocate env).2, .error errNoMem) := by
        unfold allocRequest State.allocate
        rw [hmem]
      rw [heq]
      exact Rearmed.of_failed (ht.free_head hfree).2 ht rfl rfl rfl (.inr hmem) rfl rfl rfl
  | some a =>
      rcases @allocRequest_cases env s .admin id errNoMem errBusy ht (fun _ => rfl) with
        ⟨s₁, heq, hcore, hnomem⟩ | ⟨s₁, heq, hcore, hempty⟩ | ⟨s₁, cid', rest', heq, hh, hal⟩
      · rw [hmem] at hnomem
        cases hnomem
      · have hcons : (s.core.tab .admin).freeStack = cid :: rest := hfree
        rw [hcons] at hempty
        cases hempty
      · have hcons : cid :: rest = cid' :: rest' := hfree.symm.trans hh.free
        cases hcons
        rw [heq]
        have hh' := hh.editSlot (fun x => { x with
          cmd := { nvmeStageAdminPrps { opcode := nvmeAdminAsyncEvent } none with
            commandId := x.cid }
          done := some .aerDone, priv := none, aer := true }) hh.cid
        exact rearmed_of_holding hh' rfl hal (by rw [hmem]; exact Option.some_ne_none a)

/-- What the walk does at one slot. -/
structure Visited (env : Env) (q : QueueId) (s : State) (tag : Nat) (t : State) : Prop where
  tab : TabOk q (t.core.tab q)
  depth : (t.core.tab q).depth = (s.core.tab q).depth
  others : ∀ u, u ≠ tag → t.slot q u = s.slot q u
  parked : t.core.retryList = s.core.retryList
  forced : cancels t = (s.slot q tag).toList.map (fun r => (q, r.id)) ++ cancels s
  emptied : t.slot q tag = none ↔
    hit isAer (s.slot q tag) = 0 ∨ sqFull s q ∨ env.alloc s.core.allocs = none
  same : t.slot q tag = none →
    t.core.ring q = s.core.ring q ∧ t.core.allocs = s.core.allocs + hit isAer (s.slot q tag)

theorem read_release (tab : SlotTable) (hread : tab.read tag = some r) (htag : cidTag r.cid = tag)
    (u : Nat) : (nvmeInflightRelease tab r.cid).read u = if u = tag then none else tab.read u := by
  subst htag
  have hset : (nvmeInflightRelease tab r.cid).inflight = tab.inflight.set (cidTag r.cid) none := by
    unfold nvmeInflightRelease
    rw [hread]
  unfold SlotTable.read
  rw [hset]
  split
  · rename_i hu
    subst hu
    exact Slots.read_set_self _ (Slots.lt_length_of_read hread)
  · rename_i hu
    exact Slots.read_set_other _ (fun h => hu h.symm)

theorem freeStack_release {tab : SlotTable} (hread : tab.read (cidTag r.cid) = some r) :
    (nvmeInflightRelease tab r.cid).freeStack =
      nextCid tab.skipCidGen r.cid :: tab.freeStack := by
  unfold nvmeInflightRelease
  rw [hread]

theorem flushSlot_eq (hslot : s.slot q tag = some r) :
    flushSlot env q s tag = abortRequest env q s r := by
  unfold flushSlot abortRequest
  rw [hslot]
  exact nvmeCompleteRq_cancelled _ r

/-- An empty slot. -/
theorem visited_none (ht : TabOk q (s.core.tab q)) (hslot : s.slot q tag = none) :
    Visited env q s tag (flushSlot env q s tag) := by
  have hsame : flushSlot env q s tag = s := by
    unfold flushSlot
    rw [hslot]
  rw [hsame]
  constructor
  case tab => exact ht
  case depth => rfl
  case others => exact fun _ _ => rfl
  case parked => rfl
  case forced => simp [hslot]
  case emptied => simp [hslot]
  case same => exact fun _ => ⟨rfl, by simp [hslot]⟩

/-- A request that is not replaced. -/
theorem Released.visited (hr : Released q s r t) (ht : TabOk q (s.core.tab q))
    (hslot : s.slot q tag = some r) (haer : isAer r = false) : Visited env q s tag t := by
  have htag := (ht.slots tag r hslot).1
  have hread : (s.core.tab q).read (cidTag r.cid) = some r := htag.symm ▸ hslot
  have hslots : ∀ u, t.slot q u = if u = tag then none else s.slot q u := by
    intro u
    change (t.core.tab q).read u = _
    rw [hr.tab]
    exact read_release _ hslot htag u
  constructor
  case tab =>
    rw [hr.tab]
    exact ht.release hread
  case depth => rw [hr.tab, release_depth]
  case others =>
    intro u hu
    rw [hslots, if_neg hu]
  case parked => exact hr.parked
  case forced =>
    rw [hr.forced, hslot]
    rfl
  case emptied =>
    rw [hslots, if_pos rfl, hslot, hit_some, haer]
    simp
  case same =>
    intro _
    refine ⟨hr.ring, ?_⟩
    rw [hr.allocs, hslot, hit_some, haer]
    rfl

/-- An asynchronous event request, whose callback posts the next one. -/
theorem Released.visited_aer (hr : Released .admin s r t) (ht : TabOk .admin s.core.adminTab)
    (hslot : s.slot .admin tag = some r) (haer : isAer r = true) :
    Visited env .admin s tag (nvmeSubmitAer env t) := by
  have htag := (ht.slots tag r hslot).1
  have hread : s.core.adminTab.read (cidTag r.cid) = some r := htag.symm ▸ hslot
  have htab : t.core.adminTab = nvmeInflightRelease s.core.adminTab r.cid := hr.tab
  have htok : TabOk .admin t.core.adminTab := by
    rw [htab]
    exact ht.release hread
  have hfree := freeStack_release hread
  rw [← htab] at hfree
  have hre := nvmeSubmitAer_rearmed env htok hfree
  rw [cidTag_nextCid, htag] at hre
  have hdepth : t.core.adminTab.depth = s.core.adminTab.depth := by
    rw [htab, release_depth]
  have hring : t.core.adminRing = s.core.adminRing := hr.ring
  have hfull : sqFull t .admin ↔ sqFull s .admin := by
    unfold sqFull State.ring State.tab Core.ring Core.tab
    dsimp only
    rw [hring, hdepth]
  have hfails : sqFull t .admin ∨ env.alloc t.core.allocs = none ↔
      sqFull s .admin ∨ env.alloc s.core.allocs = none := by
    rw [hfull, hr.allocs]
  have hhit : hit isAer (s.slot .admin tag) = 1 := by
    rw [hslot, hit_some, haer]
    rfl
  have hiff : (nvmeSubmitAer env t).slot .admin tag = none ↔
      sqFull s .admin ∨ env.alloc s.core.allocs = none := by
    rw [← hfails]
    constructor
    · intro hnone
      by_contra hno
      exact hre.posted hno hnone
    · exact fun hf => (hre.failed hf).1
  constructor
  case tab => exact hre.tab
  case depth => exact hre.depth.trans hdepth
  case others =>
    intro u hu
    refine (hre.others u hu).trans ?_
    rw [htab]
    exact (read_release s.core.adminTab hslot htag u).trans (if_neg hu)
  case parked => exact hre.parked.trans hr.parked
  case forced =>
    rw [hre.forced, hr.forced, hslot]
    rfl
  case emptied =>
    rw [hiff, hhit]
    exact (or_iff_right Nat.one_ne_zero).symm
  case same =>
    intro hnone
    refine ⟨(hre.failed (hfails.mpr (hiff.mp hnone))).2.trans hring, ?_⟩
    rw [hre.allocs, hr.allocs, hhit]

/-- The callback of a cancelled event request does nothing but re-arm. -/
theorem flushSlot_aer (hslot : s.slot .admin tag = some r) (hctx : r.ctx = none)
    (hdone : r.done = some .aerDone) :
    flushSlot env .admin s tag =
      nvmeSubmitAer env ((cleared s .admin r).log (.reqFree r.id)) := by
  have hdone' : (cancelled r).done = some .aerDone := hdone
  have hstatus : (cancelled r).status ≠ 0 := by
    exact (by decide : nvmeScHostAbortedCmd ≠ 0)
  rw [flushSlot_some hslot, hctx]
  dsimp only
  unfold endReq
  rw [hdone']
  dsimp only [runDone]
  unfold nvmeCompleteAsyncEvent
  rw [if_pos hstatus]
  rfl

/-- The walk at one slot, whatever is in it. -/
theorem flushSlot_visited (env : Env) (ht : TabOk q (s.core.tab q))
    (hkind : ∀ r, s.slot q tag = some r → (keyOf r).Sound) :
    Visited env q s tag (flushSlot env q s tag) := by
  cases hslot : s.slot q tag with
  | none => exact visited_none ht hslot
  | some r =>
      obtain ⟨hsib, -, hio⟩ := hkind r hslot
      have hq := (ht.slots tag r hslot).2
      by_cases haer : isAer r = true
      · have hdone : r.done = some .aerDone := by simpa [isAer] using haer
        have hadmin : q = .admin := by
          cases q with
          | admin => rfl
          | io =>
              have hnone : r.done = none := (hio hq).2.1
              rw [hnone] at hdone
              cases hdone
        subst hadmin
        have hctx : r.ctx = none := by
          by_contra hne
          have hwrong : r.q = .io := (hsib hne).2
          rw [hq] at hwrong
          cases hwrong
        rw [flushSlot_aer hslot hctx hdone]
        exact ((cleared_released .admin s r).calm (Calm.log .admin _ rfl)).visited_aer ht hslot haer
      · have haer' : isAer r = false := by simpa using haer
        refine (flushSlot_released hslot ?_ haer').visited ht hslot haer'
        exact fun h => (hio (hq.trans h)).2.1

end Slot

/-! ### The walk -/

section Walk

variable {env : Env} {q : QueueId} {tag : Nat}

/-- The asynchronous event requests in some slots. -/
def aersAt (s : State) (q : QueueId) (tags : List Nat) : Nat :=
  (tags.map (fun tag => hit isAer (s.slot q tag))).sum

/-- Slots that are visited later are as the walk found them. -/
theorem Visited.later {s t : State} {tags : List Nat} (hv : Visited env q s tag t)
    (hnot : tag ∉ tags) : ∀ u, u ∈ tags → t.slot q u = s.slot q u := by
  intro u hu
  refine hv.others u ?_
  rintro rfl
  exact hnot hu

theorem Visited.sqFull {s t : State} (hv : Visited env q s tag t) (hnone : t.slot q tag = none) :
    Engine.sqFull t q ↔ Engine.sqFull s q := by
  have hring : t.ring q = s.ring q := (hv.same hnone).1
  have hdepth : (t.tab q).depth = (s.tab q).depth := hv.depth
  unfold Engine.sqFull
  rw [hring, hdepth]

/-- The re-arms of a walk fail when the first does and the others do. -/
theorem Visited.rearmsFail {s t : State} (hv : Visited env q s tag t)
    (hnone : t.slot q tag = none) (k : Nat) :
    RearmsFail env s q (hit isAer (s.slot q tag) + k) ↔ RearmsFail env t q k := by
  unfold RearmsFail
  rw [hv.sqFull hnone, (hv.same hnone).2]
  have hfirst := hv.emptied.mp hnone
  have hcases : hit isAer (s.slot q tag) = 0 ∨ hit isAer (s.slot q tag) = 1 := by
    cases s.slot q tag with
    | none => exact .inl rfl
    | some r => cases haer : isAer r <;> simp [haer]
  constructor
  · rintro (hfull | hall)
    · exact .inl hfull
    · refine .inr fun j hj => ?_
      rw [Nat.add_assoc]
      exact hall _ (Nat.add_lt_add_left hj _)
  · rintro (hfull | hall)
    · exact .inl hfull
    · by_cases hfull : Engine.sqFull s q
      · exact .inl hfull
      · refine .inr fun j hj => ?_
        rcases hcases with hzero | hone
        · rw [hzero] at hall hj
          simpa using hall j (by omega)
        · rcases Nat.eq_zero_or_pos j with rfl | hpos
          · have hmem := (hfirst.resolve_left (by omega)).resolve_left hfull
            exact hmem
          · rw [hone] at hall hj
            have h := hall (j - 1) (by omega)
            have heq : s.core.allocs + 1 + (j - 1) = s.core.allocs + j := by omega
            rwa [heq] at h

/-- Slots off the walk stay as they are, and the table stays well formed. -/
structure Walked (env : Env) (q : QueueId) (s : State) (tags : List Nat) (t : State) : Prop where
  tab : TabOk q (t.core.tab q)
  depth : (t.core.tab q).depth = (s.core.tab q).depth
  others : ∀ u, u ∉ tags → t.slot q u = s.slot q u
  parked : t.core.retryList = s.core.retryList
  forced : cancels t =
    ((tags.filterMap (s.slot q)).map (fun r => (q, r.id))).reverse ++ cancels s
  each : t = (tags.filterMap (s.slot q)).foldl (abortRequest env q) s
  emptied : (∀ u, u ∈ tags → t.slot q u = none) ↔ RearmsFail env s q (aersAt s q tags)

theorem foldl_flushSlot_walked (tags : List Nat) :
    ∀ {s : State}, TabOk q (s.core.tab q) → tags.Nodup →
      (∀ u, u ∈ tags → ∀ r, s.slot q u = some r → (keyOf r).Sound) →
      Walked env q s tags (tags.foldl (flushSlot env q) s) := by
  induction tags with
  | nil =>
      intro s ht _ _
      constructor
      case tab => exact ht
      case depth => rfl
      case others => exact fun _ _ => rfl
      case parked => rfl
      case forced => rfl
      case each => rfl
      case emptied =>
        refine iff_of_true ?_ (.inr ?_)
        · intro u hu
          cases hu
        · intro j hj
          exact absurd hj (Nat.not_lt_zero j)
  | cons tag tags ih =>
      intro s ht hnodup hkinds
      obtain ⟨hnot, hnodup'⟩ := List.nodup_cons.mp hnodup
      have hv := flushSlot_visited env ht (hkinds tag (List.mem_cons_self ..))
      have hlater := hv.later hnot
      have hw := ih hv.tab hnodup' (fun u hu r hr =>
        hkinds u (List.mem_cons_of_mem _ hu) r ((hlater u hu).symm.trans hr))
      have hfound : tags.filterMap ((flushSlot env q s tag).slot q) =
          tags.filterMap (s.slot q) := List.filterMap_congr hlater
      have hcount : aersAt (flushSlot env q s tag) q tags = aersAt s q tags := by
        unfold aersAt
        refine congrArg List.sum (List.map_congr_left ?_)
        intro u hu
        rw [hlater u hu]
      rw [List.foldl_cons]
      constructor
      case tab => exact hw.tab
      case depth => exact hw.depth.trans hv.depth
      case others =>
        intro u hu
        rw [List.mem_cons, not_or] at hu
        rw [hw.others u hu.2, hv.others u hu.1]
      case parked => exact hw.parked.trans hv.parked
      case forced =>
        rw [hw.forced, hv.forced, hfound]
        cases hslot : s.slot q tag with
        | none => simp [hslot]
        | some r => simp [hslot]
      case each =>
        rw [hw.each, hfound]
        cases hslot : s.slot q tag with
        | none =>
            have hsame : flushSlot env q s tag = s := by
              unfold flushSlot
              rw [hslot]
            rw [List.filterMap_cons_none hslot, hsame]
        | some r => rw [List.filterMap_cons_some hslot, List.foldl_cons, flushSlot_eq hslot]
      case emptied =>
        have hstays : (tags.foldl (flushSlot env q) (flushSlot env q s tag)).slot q tag =
            (flushSlot env q s tag).slot q tag := hw.others tag hnot
        have hsum : aersAt s q (tag :: tags) =
            hit isAer (s.slot q tag) + aersAt s q tags := by
          simp [aersAt]
        rw [List.forall_mem_cons, hstays, hw.emptied, hcount, hsum]
        constructor
        · rintro ⟨hnone, hrest⟩
          exact (hv.rearmsFail hnone _).mpr hrest
        · intro hall
          have hnone : (flushSlot env q s tag).slot q tag = none := by
            rw [hv.emptied]
            by_cases hzero : hit isAer (s.slot q tag) = 0
            · exact .inl hzero
            · rcases hall with hfull | hall
              · exact .inr (.inl hfull)
              · exact .inr (.inr (hall 0 (by omega)))
          exact ⟨hnone, (hv.rearmsFail hnone _).mp hall⟩

end Walk

/-! ### The whole table -/

section Table

variable {env : Env} {s : State} {q : QueueId}

theorem aersAt_range (ht : TabOk q (s.tab q)) :
    aersAt s q (List.range (s.tab q).depth) = aersIn s q := by
  have hread : (fun tag => hit isAer (s.slot q tag)) =
      hit isAer ∘ Slots.read (s.tab q).inflight := rfl
  unfold aersAt aersIn Slots.held
  rw [hread, ← List.map_map, ← ht.length, Slots.map_read_range]

/-- The walk over the whole table. -/
theorem flush_walked (env : Env) (ht : TabOk q (s.tab q)) (hkinds : KindsOk s q) :
    Walked env q s (List.range (s.tab q).depth) (nvmeFlushQueueInflight env s q) :=
  foldl_flushSlot_walked _ ht List.nodup_range (fun u _ r hr => hkinds u r hr)

/-- In the states a run reaches the tables hold what the driver builds. -/
theorem kindsOk_of_safe {h : Hand} (hs : Safe ⟨s.core, h⟩) (q : QueueId) : KindsOk s q :=
  fun _ _ hr => Safe.sound_slot hs hr

/-- Every request that was in flight is completed once, whatever comes after it. -/
theorem flush_completes (ht : TabOk q (s.tab q)) (hkinds : KindsOk s q) :
    CompletesEach env s q := by
  have hw := flush_walked env ht hkinds
  have hread : (List.range (s.tab q).depth).filterMap (s.slot q) = (s.tab q).occupants :=
    occupants_eq ht
  constructor
  case each => rw [hw.each, hread]
  case once => rw [hw.forced, hread]
  case parked => exact hw.parked

/-- The I/O queue carries no asynchronous event request, so nothing is ever posted there. -/
theorem aersIn_io (ht : TabOk .io (s.tab .io)) (hkinds : KindsOk s .io) :
    aersIn s .io = 0 := by
  by_contra hne
  obtain ⟨tag, r, hread, haer⟩ := Slots.exists_read_of_held_pos (Nat.pos_of_ne_zero hne)
  have hdone : r.done = none :=
    ((hkinds tag r hread).2.2 ((ht.slots tag r hread).2)).2.1
  simp [isAer, hdone] at haer

/-- A flush leaves the table empty and completes what was in it exactly when no asynchronous
event request is in flight, or none can be posted again. -/
theorem flush_empties_iff (env : Env) (s : State) (q : QueueId) (ht : TabOk q (s.tab q))
    (hkinds : KindsOk s q) : FlushEmpties env s q ↔ RearmsFail env s q (aersIn s q) := by
  have hw := flush_walked env ht hkinds
  rw [← aersAt_range ht, ← hw.emptied]
  constructor
  · exact fun h u _ => h.slots u
  · intro hall
    have hslots : ∀ tag, (nvmeFlushQueueInflight env s q).slot q tag = none := by
      intro tag
      by_cases htag : tag < (s.tab q).depth
      · exact hall tag (List.mem_range.mpr htag)
      · refine Slots.read_eq_none_of_le ?_
        have hlen := hw.tab.length
        rw [hw.depth] at hlen
        exact hlen.trans_le (Nat.le_of_not_lt htag)
    refine ⟨?_, hslots, flush_completes ht hkinds⟩
    refine hw.tab.count.trans ?_
    by_contra hne
    obtain ⟨tag, r, hread, -⟩ := Slots.exists_read_of_held_pos (Nat.pos_of_ne_zero hne)
    exact Option.some_ne_none r (hread.symm.trans (hslots tag))

/-- The state after a client's read was submitted. -/
def oneInFlight : State := run sampleEnv [.putMsg, .drain] (bootState sampleEnv 2048)

/-- With a read in flight, the flush of the I/O queue empties it. -/
theorem flush_empties_read : FlushEmpties sampleEnv oneInFlight .io := by
  have hs : Safe ⟨oneInFlight.core, _⟩ := run_safe sampleEnv 2048 [.putMsg, .drain]
  refine (flush_empties_iff sampleEnv oneInFlight .io (hs.tabs .io)
    (kindsOk_of_safe hs .io)).mpr ?_
  rw [aersIn_io (hs.tabs .io) (kindsOk_of_safe hs .io)]
  exact .inr fun j hj => absurd hj (Nat.not_lt_zero j)

/-- A controller that has just come up has one event request in flight; flushing the admin
queue leaves its successor there. -/
theorem flush_leaves_aer :
    TabOk .admin ((bootState sampleEnv 2048).tab .admin) ∧
      KindsOk (bootState sampleEnv 2048) .admin ∧
      ¬FlushEmpties sampleEnv (bootState sampleEnv 2048) .admin := by
  have hs : Safe ⟨(bootState sampleEnv 2048).core, _⟩ := run_safe sampleEnv 2048 []
  refine ⟨hs.tabs .admin, kindsOk_of_safe hs .admin, ?_⟩
  intro h
  have hcount : ((nvmeFlushQueueInflight sampleEnv (bootState sampleEnv 2048) .admin).tab
      .admin).inflightCount = 1 := by decide +kernel
  rw [h.count] at hcount
  cases hcount

end Table

end Runs
end NvmeDriver
