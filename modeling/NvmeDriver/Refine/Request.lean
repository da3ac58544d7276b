import NvmeDriver.Ownership.Safe
import NvmeDriver.PrpWalk

/-!
# Requests refine the machine

From the allocation of a request to its submission or destruction the code only
fills in the request in its slot and logs effects.  `Holding` is the state in
between, relative to the core at the allocation; what becomes of it is one move.
-/

namespace NvmeDriver
namespace Refine

open Engine
open Lib
open Ownership

/-! ### Claimed slots -/

section Slots

variable {q : QueueId} {t : SlotTable} {cid : Nat} {rest : List Nat} {r : Request}

theorem edit_claim (hlt : cidTag cid < t.inflight.length) (f : Request → Request) :
    (nvmeInflightClaim t cid r).edit (cidTag cid) f = nvmeInflightClaim t cid (f r) := by
  have hread : (nvmeInflightClaim t cid r).read (cidTag cid) = some r :=
    Slots.read_set_self _ hlt
  unfold SlotTable.edit
  rw [hread]
  simp only [nvmeInflightClaim, Option.map_some, List.set_set]

theorem set_none_self {l : Slots Request} {tag : Nat} (hnone : Slots.read l tag = none) :
    l.set tag none = l := by
  refine List.ext_getElem? ?_
  intro i
  by_cases hi : tag = i
  · subst hi
    by_cases hlt : tag < l.length
    · rw [List.getElem?_set_self hlt]
      unfold Slots.read at hnone
      rw [List.getD_eq_getElem?_getD, List.getElem?_eq_getElem hlt, Option.getD_some] at hnone
      rw [List.getElem?_eq_getElem hlt, hnone]
    · rw [List.set_eq_of_length_le (by omega)]
  · rw [List.getElem?_set_ne hi]

/-- A slot that is claimed and released again leaves only the generation behind. -/
theorem release_claim (ht : TabOk q t) (hfree : t.freeStack = cid :: rest) :
    nvmeInflightRelease (nvmeInflightClaim (popped t rest) cid r) cid =
      bumped t cid rest := by
  obtain ⟨hlt, hnone⟩ := ht.free_head hfree
  have hread := read_claim_self ht hfree r
  have hpop : (popped t rest).read (cidTag cid) = none := hnone
  have hcount : (nvmeInflightClaim (popped t rest) cid r).inflightCount =
      t.inflightCount + 1 := by
    simp only [nvmeInflightClaim, hpop]
    rfl
  have hset : (nvmeInflightClaim (popped t rest) cid r).inflight.set (cidTag cid) none =
      t.inflight := by
    simp only [nvmeInflightClaim, List.set_set]
    exact set_none_self hnone
  unfold nvmeInflightRelease
  rw [hread]
  simp only [hcount, hset, Nat.add_sub_cancel]
  rfl

end Slots

/-! ### Steps of the code -/

/-- The code goes from one state to another by moves. -/
def Goes (env : Env) (P : Policy) (c : Core) (h : Hand) (c' : Core) (h' : Hand) : Prop :=
  Leads (Move env P) Safe ⟨c, h⟩ ⟨c', h'⟩

section Goes

variable {env : Env} {P : Policy} {c c₁ c₂ : Core} {h h₁ h₂ : Hand}

theorem Goes.refl (c : Core) (h : Hand) : Goes env P c h c h := Leads.refl _

theorem Goes.of_eq (hc : c = c₁) : Goes env P c h c₁ h := by
  subst hc
  exact Goes.refl c h

theorem Goes.trans (h₁₂ : Goes env P c h c₁ h₁) (h₂₃ : Goes env P c₁ h₁ c₂ h₂) :
    Goes env P c h c₂ h₂ :=
  Leads.trans (keeps_safe env P) h₁₂ h₂₃

theorem Goes.move (hm : Safe ⟨c, h⟩ → Move env P ⟨c, h⟩ ⟨c₁, h₁⟩) : Goes env P c h c₁ h₁ :=
  Leads.step hm

theorem Goes.assume (hg : Safe ⟨c, h⟩ → Goes env P c h c₁ h₁) : Goes env P c h c₁ h₁ :=
  Leads.assume hg

theorem Goes.safe (hg : Goes env P c h c₁ h₁) (hs : Safe ⟨c, h⟩) : Safe ⟨c₁, h₁⟩ :=
  (keeps_safe env P).path (hg hs) hs

theorem Goes.note (e : Effect) (hq : quiet e = true) : Goes env P c h (c.log e) h :=
  .move (fun _ => .note e hq)

theorem Goes.notes {es : List Effect} (hes : ∀ e, e ∈ es → quiet e = true) :
    Goes env P c h (stamp c c.allocs es) h := by
  induction es with
  | nil => exact Goes.refl _ _
  | cons e es ih =>
      refine (ih (fun e' he' => hes e' (List.mem_cons_of_mem _ he'))).trans ?_
      exact Goes.note e (hes e (List.mem_cons_self ..))

end Goes

/-! ### Holding a request -/

/-- The core with a request in a slot it has just taken, and more on the log. -/
def claimed (c : Core) (q : QueueId) (cid : Nat) (rest : List Nat) (r : Request) (n : Nat)
    (es : List Effect) : Core :=
  stamp (c.setTab q (nvmeInflightClaim (popped (c.tab q) rest) cid r)) n es

/-- The core with the tag given back. -/
def returned (c : Core) (q : QueueId) (cid : Nat) (rest : List Nat) (n : Nat)
    (es : List Effect) : Core :=
  stamp (c.setTab q (bumped (c.tab q) cid rest)) n es

/-- The code holds the request it has put into a slot since the core `c`. -/
structure Holding (c : Core) (q : QueueId) (cid : Nat) (rest : List Nat) (s : State)
    (r : Request) (es : List Effect) : Prop where
  core : s.core = claimed c q cid rest r s.core.allocs es
  tab : TabOk q (c.tab q)
  free : (c.tab q).freeStack = cid :: rest
  cid : r.cid = cid

namespace Holding

variable {env : Env} {c : Core} {q : QueueId} {cid : Nat} {rest : List Nat} {s : State}
  {r : Request} {es : List Effect}

theorem tab_eq (hh : Holding c q cid rest s r es) :
    s.tab q = nvmeInflightClaim (popped (c.tab q) rest) cid r := by
  unfold State.tab
  rw [hh.core, claimed, stamp_tab, tab_setTab, if_pos rfl]

theorem slot (hh : Holding c q cid rest s r es) : s.slot q (cidTag cid) = some r := by
  unfold State.slot
  rw [hh.tab_eq]
  exact read_claim_self hh.tab hh.free r

theorem log (hh : Holding c q cid rest s r es) (e : Effect) :
    Holding c q cid rest (s.log e) r (e :: es) :=
  { hh with core := congrArg (fun c => Core.log c e) hh.core }

theorem logAll (hh : Holding c q cid rest s r es) (l : List Effect) :
    Holding c q cid rest { s with core := stamp s.core s.core.allocs l } r (l ++ es) := by
  refine { hh with core := ?_ }
  dsimp only
  rw [hh.core]
  simp [claimed, stamp]

/-- More allocations. -/
theorem alloc {s' : State} {n : Nat} (hh : Holding c q cid rest s r es)
    (hcore : s'.core = { s.core with allocs := n }) : Holding c q cid rest s' r es := by
  refine { hh with core := ?_ }
  rw [hcore, hh.core]
  rfl

theorem editSlot (hh : Holding c q cid rest s r es) (f : Request → Request)
    (hf : (f r).cid = cid) :
    Holding c q cid rest (s.editSlot q (cidTag cid) f) (f r) es := by
  refine { hh with core := ?_, cid := hf }
  have hlt := (hh.tab.free_head hh.free).1
  have htab : (s.tab q).edit (cidTag cid) f =
      nvmeInflightClaim (popped (c.tab q) rest) cid (f r) := by
    rw [hh.tab_eq]
    exact edit_claim (t := popped (c.tab q) rest) hlt f
  unfold State.editSlot
  rw [htab]
  simp only [State.setTab]
  rw [hh.core]
  cases q <;> rfl

end Holding

/-! ### Destruction -/

section Destroy

/-- The log of `nvme_req_free_dma_buffers`. -/
def dmaFrees (req : Request) : List Effect :=
  (match req.bounceBuf with
    | none => []
    | some b => [.dmaFree req.id b]) ++
    if req.prpList then req.prpPages.map (Effect.dmaFree req.id) else []

theorem dmaFrees_quietFor (req : Request) :
    ∀ e, e ∈ dmaFrees req → quietFor req.id e = true := by
  intro e he
  have h : ∃ a, e = .dmaFree req.id a := by
    rcases List.mem_append.mp he with h | h
    · cases hb : req.bounceBuf with
      | none =>
          rw [hb] at h
          cases h
      | some b =>
          rw [hb] at h
          exact ⟨b, List.mem_singleton.mp h⟩
    · split at h
      · obtain ⟨a, -, rfl⟩ := List.mem_map.mp h
        exact ⟨a, rfl⟩
      · cases h
  obtain ⟨a, rfl⟩ := h
  simp [quietFor]

theorem foldl_log (f : Nat → Effect) (l : List Nat) (s : State) :
    l.foldl (fun s p => s.log (f p)) s =
      { s with core := stamp s.core s.core.allocs (l.reverse.map f) } := by
  induction l generalizing s with
  | nil => rfl
  | cons a l ih =>
      rw [List.foldl_cons, ih]
      simp [State.log, Core.log, stamp]

theorem nvmeReqFreeDmaBuffers_eq (s : State) (req : Request) :
    nvmeReqFreeDmaBuffers s req =
      { s with core := stamp s.core s.core.allocs (dmaFrees req) } := by
  unfold nvmeReqFreeDmaBuffers dmaFrees
  cases hb : req.bounceBuf <;> cases hl : req.prpList
  · rfl
  · simp only [foldl_log, List.reverse_reverse, if_true, List.nil_append]
  · rfl
  · simp only [foldl_log, List.reverse_reverse, if_true]
    rfl

variable {c : Core} {q : QueueId} {cid : Nat} {rest : List Nat} {s : State}
  {r : Request} {es : List Effect}

theorem Holding.destroy (hh : Holding c q cid rest s r es) :
    (nvmeReqDestroy s q (cidTag cid)).core =
      returned c q cid rest s.core.allocs (.reqFree r.id :: (dmaFrees r ++ es)) := by
  have hrel : (s.releaseSlot q r.cid).core =
      stamp (c.setTab q (bumped (c.tab q) cid rest)) s.core.allocs es := by
    unfold State.releaseSlot State.setTab
    rw [hh.cid, hh.tab_eq, release_claim hh.tab hh.free]
    dsimp only
    rw [hh.core]
    cases q <;> rfl
  unfold nvmeReqDestroy
  rw [hh.slot]
  simp only [nvmeReqFreeDmaBuffers_eq, State.log, Core.log, hrel]
  simp [returned, stamp]

end Destroy

/-! ### Submission -/

section Submit

variable {env : Env} {P : Policy} {c : Core} {q : QueueId} {cid : Nat} {rest : List Nat}
  {s : State} {r : Request} {es : List Effect}

theorem nvmeSqCommit_core (s : State) (q : QueueId) :
    (nvmeSqCommit s q).core =
      if (s.ring q).sqTail ≠ (s.ring q).lastSqTail then
        (s.core.log (.sqDoorbell q (s.ring q).sqTail)).setRing q
          { s.ring q with lastSqTail := (s.ring q).sqTail }
      else s.core := by
  unfold nvmeSqCommit
  dsimp only
  split <;> rfl

theorem Holding.present (hh : Holding c q cid rest s r es) : (s.tab q).present = true := by
  rw [hh.tab_eq]
  have hlt := (hh.tab.free_head hh.free).1
  rw [hh.tab.length] at hlt
  exact hh.tab.present (by omega)

theorem Holding.ownerOf (hh : Holding c q cid rest s r es) (r' : Request) :
    s.core.ownerOf r' = c.ownerOf r' := by
  unfold Core.ownerOf
  rw [hh.core]
  simp [claimed, stamp]

theorem Holding.ring (hh : Holding c q cid rest s r es) (q' : QueueId) :
    s.ring q' = c.ring q' := by
  unfold State.ring
  rw [hh.core]
  cases q <;> cases q' <;> rfl

theorem Holding.depth (hh : Holding c q cid rest s r es) :
    (s.tab q).depth = (c.tab q).depth := by
  rw [hh.tab_eq]
  rfl

theorem Holding.sqFull (hh : Holding c q cid rest s r es) :
    Engine.sqFull s q ↔ RingFull (c.tab q).depth (c.ring q) := by
  unfold Engine.sqFull RingFull
  rw [hh.ring, hh.depth]

/-- The request held becomes one in flight. -/
def launched (c : Core) (q : QueueId) (cid : Nat) (rest : List Nat) (r : Request) (us n : Nat)
    (es : List Effect) : Core :=
  sent c q (nvmeInflightClaim (popped (c.tab q) rest) cid { r with submitUs := us }) n
    (.sqe (c.ring q).sqTail r (c.ownerOf r) :: es)

theorem ring_rung {ρ : Ring} (h : ρ.sqTail = ρ.lastSqTail) :
    { ρ with lastSqTail := ρ.sqTail } = ρ := by
  obtain ⟨tail, last, batch, head, phase⟩ := ρ
  cases h
  rfl

/-- The SQE is written, and the doorbell perhaps rung. -/
theorem Holding.writeSqe (env : Env) (hh : Holding c q cid rest s r es) :
    ∃ us, (Engine.writeSqe env s q (cidTag cid) r).core =
        launched c q cid rest r us s.core.allocs es ∨
      ∃ tail, (Engine.writeSqe env s q (cidTag cid) r).core =
        (launched c q cid rest r us s.core.allocs es).log (.sqDoorbell q tail) := by
  let s₁ := s.log (.sqe (s.ring q).sqTail r (s.core.ownerOf r))
  let ρ : Ring := { s.ring q with sqTail := ((s.ring q).sqTail + 1) % (s.tab q).depth }
  let t := (s₁.setRing q ρ).getTime env
  let s₃ := t.2.editSlot q (cidTag cid) (fun x => { x with submitUs := t.1 })
  have h₁ : Holding c q cid rest s₁ r (.sqe (c.ring q).sqTail r (c.ownerOf r) :: es) := by
    rw [← hh.ownerOf r, ← hh.ring]
    exact hh.log _
  have h₂ := h₁.editSlot (fun x => { x with submitUs := t.1 }) hh.cid
  have hcore : s₃.core =
      (claimed c q cid rest { r with submitUs := t.1 } s.core.allocs
        (.sqe (c.ring q).sqTail r (c.ownerOf r) :: es)).setRing q ρ := by
    have halloc : (s₁.editSlot q (cidTag cid) (fun x => { x with submitUs := t.1 })).core.allocs
        = s.core.allocs := by
      cases q <;> rfl
    rw [← halloc, ← h₂.core]
    cases q <;> rfl
  have hρ : s₃.ring q = ρ := by
    unfold State.ring
    rw [hcore, ring_setRing, if_pos rfl]
  have hwrite : Engine.writeSqe env s q (cidTag cid) r =
      if (s.ring q).sqBatchDepth = 0 then nvmeSqCommit s₃ q else s₃ := rfl
  have hpush : pushed (c.tab q).depth (c.ring q) =
      { ρ with lastSqTail := if ρ.sqBatchDepth = 0 then ρ.sqTail else ρ.lastSqTail } := by
    simp only [pushed, ρ, hh.ring, hh.depth]
  have hsame : ∀ l, { ρ with lastSqTail := l } = pushed (c.tab q).depth (c.ring q) →
      (s₃.core.setRing q { ρ with lastSqTail := l }) =
        launched c q cid rest r t.1 s.core.allocs es := by
    intro l hl
    rw [hl, hcore]
    cases q <;> rfl
  refine ⟨t.1, ?_⟩
  rw [hwrite]
  by_cases hb : (s.ring q).sqBatchDepth = 0
  · rw [if_pos hb, nvmeSqCommit_core, hρ]
    have hring : { ρ with lastSqTail := ρ.sqTail } = pushed (c.tab q).depth (c.ring q) := by
      rw [hpush, if_pos hb]
    split
    · right
      refine ⟨ρ.sqTail, ?_⟩
      rw [← hsame _ hring]
      cases q <;> rfl
    · rename_i hne
      left
      rw [← hsame _ hring, ring_rung (not_not.mp hne), hcore]
      cases q <;> rfl
  · rw [if_neg hb]
    left
    rw [← hsame ρ.lastSqTail (by rw [hpush, if_neg hb]), hcore]
    cases q <;> rfl

theorem Goes.bell {h : Hand} {tail : Nat}
    (hgate : q = .io → P.launch c.state c.frozen ∧ c.ioTab.present = true) :
    Goes env P c h (c.log (.sqDoorbell q tail)) h :=
  .move (fun _ => .bell q tail hgate)

@[simp] theorem sent_state (c : Core) (q : QueueId) (t : SlotTable) (n : Nat)
    (es : List Effect) : (sent c q t n es).state = c.state := by
  simp [sent, stamp]

@[simp] theorem sent_frozen (c : Core) (q : QueueId) (t : SlotTable) (n : Nat)
    (es : List Effect) : (sent c q t n es).frozen = c.frozen := by
  simp [sent, stamp]

/-- After the SQE at most the doorbell is left. -/
theorem Holding.submitted {h : Hand} {c₀ : Core} {h₀ : Hand} (hh : Holding c q cid rest s r es)
    (hgate : q = .io → P.launch c.state c.frozen)
    (hgo : ∀ us, Goes env P c₀ h₀ (launched c q cid rest r us s.core.allocs es) h) :
    Goes env P c₀ h₀ (Engine.writeSqe env s q (cidTag cid) r).core h := by
  obtain ⟨us, hcore | ⟨tail, hcore⟩⟩ := hh.writeSqe env
  · rw [hcore]
    exact hgo us
  · rw [hcore]
    refine (hgo us).trans (Goes.bell ?_)
    intro hq
    refine ⟨?_, ?_⟩
    · rw [launched, sent_state, sent_frozen]
      exact hgate hq
    · subst hq
      have hpres := hh.present
      rw [hh.tab_eq] at hpres
      exact hpres

/-- `nvme_submit_io` of a request in hand either finds the ring full or submits. -/
theorem Holding.nvmeSubmitIo (hh : Holding c q cid rest s r es) :
    Engine.nvmeSubmitIo env s q (cidTag cid) =
      if Engine.sqFull s q then
        (nvmeReqDestroy (s.log (.sqFull q)) q (cidTag cid), ioerrUnitBusy)
      else (Engine.writeSqe env s q (cidTag cid) r, nvmeIoAsync) := by
  unfold Engine.nvmeSubmitIo
  rw [hh.slot]
  simp only [hh.present, Bool.true_eq_false, if_false]

/-- A submission finds the ring full; its request is destroyed. -/
theorem Goes.refused {h : Hand} {n : Nat} {frees : List Effect}
    (hfree : (c.tab q).freeStack = cid :: rest) (hn : c.allocs < n)
    (hes : ∀ e, e ∈ es → quiet e = true)
    (hfrees : ∀ e, e ∈ frees → quietFor c.allocs e = true)
    (hfull : RingFull (c.tab q).depth (c.ring q)) :
    Goes env P c h
      (returned c q cid rest n (.reqFree c.allocs :: (frees ++ .sqFull q :: es))) h := by
  have hring : ∀ k l q', (stamp c k l).ring q' = c.ring q' := by
    intro k l q'
    cases q' <;> rfl
  have hlog : Goes env P (stamp c c.allocs es) h (stamp c c.allocs (.sqFull q :: es)) h := by
    refine .move fun _ => .refuse q ?_ ?_
    · rw [stamp_tab, hfree]
      exact List.cons_ne_nil _ _
    · rw [stamp_tab, hring]
      exact hfull
  have hend : Goes env P (stamp c c.allocs (.sqFull q :: es)) h
      (returned (stamp c c.allocs (.sqFull q :: es)) q cid rest n (.reqFree c.allocs :: frees))
      h := by
    refine .move fun _ => .fizzle q ?_ hn hfrees
    rw [stamp_tab]
    exact hfree
  refine ((Goes.notes hes).trans hlog).trans (hend.trans (Goes.of_eq ?_))
  cases q <;> simp [returned, stamp, Core.setTab, Core.tab]

end Submit

/-! ### Allocation -/

section Alloc

variable {env : Env} {s : State} {q : QueueId} {init : Request → Request}
  {noMemory noTag : Int}

/-- A request is not allocated, or allocated and freed for want of a tag, or held. -/
theorem allocRequest_cases (ht : TabOk q (s.core.tab q))
    (hinit : ∀ r, (init r).cid = r.cid) :
    (∃ s₁, allocRequest env s q init noMemory noTag = (s₁, .error noMemory) ∧
      s₁.core = stamp s.core (s.core.allocs + 1) [] ∧
      env.alloc s.core.allocs = none) ∨
    (∃ s₁, allocRequest env s q init noMemory noTag = (s₁, .error noTag) ∧
      s₁.core = stamp s.core (s.core.allocs + 1) [.reqFree s.core.allocs] ∧
      (s.core.tab q).freeStack = []) ∨
    ∃ s₁ cid rest, allocRequest env s q init noMemory noTag = (s₁, .ok (cidTag cid)) ∧
      Holding s.core q cid rest s₁ (init { id := s.core.allocs, q := q, cid := cid }) [] ∧
      s₁.core.allocs = s.core.allocs + 1 := by
  unfold allocRequest State.allocate
  cases hmem : env.alloc s.core.allocs with
  | none => exact .inl ⟨_, rfl, rfl, rfl⟩
  | some a =>
      right
      have htab : State.tab { s with core := { s.core with allocs := s.core.allocs + 1 } } q =
          s.core.tab q := by
        cases q <;> rfl
      dsimp only
      rw [htab]
      cases hfree : (s.core.tab q).freeStack with
      | nil =>
          left
          simp only [nvmeAllocCid, hfree]
          exact ⟨_, rfl, rfl, trivial⟩
      | cons cid rest =>
          right
          simp only [nvmeAllocCid, hfree]
          refine ⟨_, cid, rest, rfl, ⟨?_, ht, hfree, hinit _⟩, ?_⟩
          · cases q <;> rfl
          · cases q <;> rfl

end Alloc

/-! ### Setting up a command -/

/-- The request `r` held since `c` has become `r'`, on its own account. -/
structure Filled (c : Core) (cid : Nat) (rest : List Nat) (n : Nat) (r : Request)
    (s' : State) (r' : Request) (es : List Effect) : Prop where
  holding : Holding c .io cid rest s' r' es
  key : keyOf r' = keyOf r
  retries : r'.retries = r.retries
  allocs : n ≤ s'.core.allocs

section Setup

variable {env : Env} {c : Core} {cid : Nat} {rest : List Nat} {s : State}
  {r : Request} {es : List Effect}

theorem quietFor_of_quiet {e : Effect} (n : Nat) (hq : quiet e = true) :
    quietFor n e = true := by
  cases e <;> first | exact hq | cases hq

theorem quiet_cons {e : Effect} (he : quiet e = true) (hes : ∀ e, e ∈ es → quiet e = true) :
    ∀ e', e' ∈ e :: es → quiet e' = true := by
  intro e' he'
  rcases List.mem_cons.mp he' with rfl | he'
  · exact he
  · exact hes e' he'

/-- The command of a read or write. -/
def RwCommand (env : Env) (r r' : Request) (lba count opcode : Nat) : Prop :=
  r'.cmd.commandId = r'.cid ∧ r'.cmd.opcode = opcode ∧ r'.cmd.nsid = unitNsid env r ∧
    r'.cmd.slba = lba ∧
    r'.cmd.length = nlbField count

/-- `build_prps` refuses only for want of memory or list pages. -/
theorem setupFails_of_refused {a buffer bytes n : Nat} {mem : Prp.Memory}
    (ha : a = buffer ∨ ∃ n, env.alloc n = some a)
    (hno : (Prp.buildPrps (fun k => env.alloc (n + k)) (fun k => env.alloc (n + k)) mem 0
      a bytes).ok = false) :
    SetupFails env buffer bytes := by
  by_cases hmem : ∃ n, env.alloc n = none
  · exact .inl hmem
  refine .inr ⟨a, ha, ?_⟩
  by_contra hfits
  have hsome : ∀ k, (env.alloc k).isSome := by
    intro k
    cases hk : env.alloc k with
    | none => exact absurd ⟨k, hk⟩ hmem
    | some p => rfl
  have hok : (Prp.buildPrps (fun k => env.alloc (n + k)) (fun k => env.alloc (n + k)) mem 0
      a bytes).ok = true :=
    Prp.buildPrps_accepts (Nat.le_of_not_lt hfits) (hsome _) (fun k _ => hsome _)
  rw [hno] at hok
  cases hok

/-- What setting up a command can end in. -/
def SetupResult (env : Env) (c : Core) (cid : Nat) (rest : List Nat) (n : Nat) (r : Request)
    (result : State × Int) (good : Request → Prop) (buffer bytes : Nat) : Prop :=
  ∃ r' es, Filled c cid rest n r result.1 r' es ∧
    (result.2 = 0 ∧ (∀ e, e ∈ es → quiet e = true) ∧ good r' ∨
      result.2 = ioerrSelfTest ∧ (∀ e, e ∈ es → quietFor r.id e = true) ∧
        SetupFails env buffer bytes)

theorem SetupResult.weaken {n n₀ buffer bytes : Nat} {r₀ : Request} {result : State × Int}
    {good good₀ : Request → Prop}
    (hres : SetupResult env c cid rest n r result good buffer bytes)
    (hkey : keyOf r = keyOf r₀) (hret : r.retries = r₀.retries) (hn : n₀ ≤ n)
    (hgood : ∀ r', good r' → good₀ r') :
    SetupResult env c cid rest n₀ r₀ result good₀ buffer bytes := by
  obtain ⟨r', es', hf, hcases⟩ := hres
  refine ⟨r', es', ⟨hf.holding, hf.key.trans hkey, hf.retries.trans hret,
    hn.trans hf.allocs⟩, ?_⟩
  have hid : r.id = r₀.id := congrArg Key.id hkey
  rw [← hid]
  exact hcases.imp_left (fun h => ⟨h.1, h.2.1, hgood r' h.2.2⟩)

theorem setupRwCmd_spec (hh : Holding c .io cid rest s r es)
    (hes : ∀ e, e ∈ es → quiet e = true) {lba count opcode a bytes buffer : Nat}
    (ha : a = buffer ∨ ∃ n, env.alloc n = some a) :
    SetupResult env c cid rest s.core.allocs r
      (setupRwCmd env s (cidTag cid) r lba count opcode a bytes)
      (fun r' => RwCommand env r r' lba count opcode ∧ r'.userBuf = r.userBuf ∧
        r'.userLen = r.userLen) buffer bytes := by
  unfold setupRwCmd
  dsimp only
  have hno := @setupFails_of_refused env a buffer bytes s.core.allocs s.ctl.mem ha
  generalize Prp.buildPrps (fun k => env.alloc (s.core.allocs + k))
    (fun k => env.alloc (s.core.allocs + k)) s.ctl.mem 0 a bytes = p at hno ⊢
  let s₁ : State :=
    { core := { s.core with
        allocs := s.core.allocs + (p.prpPages.length + p.freed.length + 1) }
      ctl := { s.ctl with mem := p.mem } }
  have h₁ : Holding c .io cid rest s₁ r es := hh.alloc rfl
  have h₂ := h₁.editSlot (fun x =>
    { x with
      cmd :=
        { opcode := opcode, commandId := r.cid, nsid := unitNsid env r
          slba := lba, length := nlbField count, prp1 := p.prp1, prp2 := p.prp2 }
      prpPages := p.prpPages, prpList := p.prpList, prpSmall := p.prpSmall }) hh.cid
  have hle : s.core.allocs ≤ s₁.core.allocs := Nat.le_add_right ..
  cases hok : p.ok with
  | true =>
      simp only [if_true]
      split
      · exact ⟨_, _, ⟨h₂.log _, rfl, rfl, hle⟩,
          .inl ⟨rfl, quiet_cons rfl hes, ⟨rfl, rfl, rfl, rfl, rfl⟩, rfl, rfl⟩⟩
      · exact ⟨_, _, ⟨h₂, rfl, rfl, hle⟩,
          .inl ⟨rfl, hes, ⟨rfl, rfl, rfl, rfl, rfl⟩, rfl, rfl⟩⟩
  | false =>
      simp only [Bool.false_eq_true, if_false, foldl_log]
      refine ⟨_, _, ⟨h₂.logAll (p.freed.reverse.map (Effect.dmaFree r.id)), rfl, rfl, hle⟩,
        .inr ⟨rfl, ?_, hno hok⟩⟩
      intro e he
      rcases List.mem_append.mp he with he | he
      · obtain ⟨a, -, rfl⟩ := List.mem_map.mp he
        simp [quietFor]
      · exact quietFor_of_quiet _ (hes e he)

theorem editSlot_allocs (s : State) (q : QueueId) (tag : Nat) (f : Request → Request) :
    (s.editSlot q tag f).core.allocs = s.core.allocs := by
  cases q <;> rfl

theorem nvmeSetupRw_spec (hh : Holding c .io cid rest s r es)
    (hes : ∀ e, e ∈ es → quiet e = true) (lba count opcode buffer : Nat) :
    SetupResult env c cid rest s.core.allocs r
      (nvmeSetupRw env s (cidTag cid) lba count opcode buffer)
      (fun r' => RwCommand env r r' lba count opcode ∧ r'.userBuf = buffer ∧
        r'.userLen = count * 2 ^ unitShift env r % 2 ^ 32)
      buffer (count * 2 ^ unitShift env r % 2 ^ 32) := by
  unfold nvmeSetupRw
  rw [hh.slot]
  dsimp only
  generalize count * 2 ^ unitShift env r % 2 ^ 32 = bytes
  have h₁ := hh.editSlot
    (fun _ => { r with userBuf := buffer, userLen := bytes, bounceBuf := none }) hh.cid
  have hle := editSlot_allocs s .io (cidTag cid)
    (fun _ => { r with userBuf := buffer, userLen := bytes, bounceBuf := none })
  generalize s.editSlot .io (cidTag cid)
    (fun _ => { r with userBuf := buffer, userLen := bytes, bounceBuf := none }) = s₁ at h₁ hle ⊢
  split
  · unfold State.allocate
    cases hmem : env.alloc s₁.core.allocs with
    | none =>
        refine ⟨_, es, ⟨h₁.alloc rfl, rfl, rfl, ?_⟩, .inr ⟨rfl, ?_, .inl ⟨_, hmem⟩⟩⟩
        · exact Nat.le_succ_of_le hle.ge
        · exact fun e he => quietFor_of_quiet _ (hes e he)
    | some b =>
        let s₂ : State := { s₁ with core := { s₁.core with allocs := s₁.core.allocs + 1 } }
        have h₂ : Holding c .io cid rest s₂ _ es := h₁.alloc rfl
        have h₃ := h₂.editSlot
          (fun _ => { r with userBuf := buffer, userLen := bytes, bounceBuf := some b }) hh.cid
        have hle₃ := editSlot_allocs s₂ .io (cidTag cid)
          (fun _ => { r with userBuf := buffer, userLen := bytes, bounceBuf := some b })
        have hle₂ : s.core.allocs ≤ s₂.core.allocs := Nat.le_succ_of_le hle.ge
        dsimp only
        split
        · exact (setupRwCmd_spec (h₃.log (.memcpy b buffer bytes)) (quiet_cons rfl hes)
            (.inr ⟨_, hmem⟩)).weaken rfl rfl (hle₂.trans hle₃.ge) (fun _ h => h)
        · exact (setupRwCmd_spec h₃ hes (.inr ⟨_, hmem⟩)).weaken rfl rfl
            (hle₂.trans hle₃.ge) (fun _ h => h)
  · exact (setupRwCmd_spec h₁ hes (.inl rfl)).weaken rfl rfl hle.ge (fun _ h => h)

/-- A setup that only fills in the command. -/
theorem setup_edit_spec (hh : Holding c .io cid rest s r es)
    (hes : ∀ e, e ∈ es → quiet e = true) (f : Request → Request)
    (hcid : (f r).cid = r.cid) (hkey : keyOf (f r) = keyOf r)
    (hret : (f r).retries = r.retries) (buffer bytes : Nat) :
    SetupResult env c cid rest s.core.allocs r (s.editSlot .io (cidTag cid) f, 0)
      (fun r' => r' = f r) buffer bytes :=
  ⟨f r, es, ⟨hh.editSlot f (hcid.trans hh.cid), hkey, hret, (editSlot_allocs ..).ge⟩,
    .inl ⟨rfl, hes, rfl⟩⟩

end Setup
end Refine
end NvmeDriver
