import NvmeDriver.Refine.Request

/-!
# Operations on one queue

Allocating, filling in, submitting and destroying a request touch one queue, the count of
allocations and the log, and answer nobody.
-/

namespace NvmeDriver
namespace Refine

open Engine
open Lib
open Ownership

section OnQueue

variable {env : Env} {q : QueueId} {s t u : State}

/-- Log entries that answer nobody. -/
def Silent (es : List Effect) : Prop :=
  ∀ e, e ∈ es → ∀ i er a, e ≠ Effect.reply i er a

theorem Silent.append {es es' : List Effect} (h : Silent es) (h' : Silent es') :
    Silent (es ++ es') := by
  intro e he
  rcases List.mem_append.mp he with he | he
  · exact h e he
  · exact h' e he

theorem silent_of_quietFor {n : Nat} {es : List Effect}
    (hes : ∀ e, e ∈ es → quietFor n e = true) : Silent es := by
  rintro e he i er a rfl
  exact Bool.noConfusion (hes _ he)

/-- Only one queue, the count of allocations and the log change, and nobody is answered. -/
structure OnQueue (q : QueueId) (s t : State) : Prop where
  core : ∃ tab ring n es,
    t.core = stamp ((s.core.setTab q tab).setRing q ring) n es ∧ Silent es
  exited : t.ctl.unitExited = s.ctl.unitExited

namespace OnQueue

theorem refl (q : QueueId) (s : State) : OnQueue q s s := by
  refine ⟨⟨s.core.tab q, s.core.ring q, s.core.allocs, [], ?_, fun e he => nomatch he⟩, rfl⟩
  cases q <;> rfl

theorem trans (h₁ : OnQueue q s t) (h₂ : OnQueue q t u) : OnQueue q s u := by
  obtain ⟨⟨tab₁, ring₁, n₁, es₁, hcore₁, hes₁⟩, hexit₁⟩ := h₁
  obtain ⟨⟨tab₂, ring₂, n₂, es₂, hcore₂, hes₂⟩, hexit₂⟩ := h₂
  refine ⟨⟨tab₂, ring₂, n₂, es₂ ++ es₁, ?_, hes₂.append hes₁⟩, hexit₂.trans hexit₁⟩
  rw [hcore₂, hcore₁]
  cases q <;> simp [stamp, Core.setTab, Core.setRing]

theorem log (q : QueueId) (s : State) {e : Effect} (he : Silent [e]) : OnQueue q s (s.log e) := by
  refine ⟨⟨s.core.tab q, s.core.ring q, s.core.allocs, [e], ?_, he⟩, rfl⟩
  cases q <;> rfl

theorem setTab (s : State) (q : QueueId) (tab : SlotTable) : OnQueue q s (s.setTab q tab) := by
  refine ⟨⟨tab, s.core.ring q, s.core.allocs, [], ?_, fun e he => nomatch he⟩, rfl⟩
  cases q <;> rfl

theorem setRing (s : State) (q : QueueId) (ring : Ring) : OnQueue q s (s.setRing q ring) := by
  refine ⟨⟨s.core.tab q, ring, s.core.allocs, [], ?_, fun e he => nomatch he⟩, rfl⟩
  cases q <;> rfl

theorem allocs (q : QueueId) (s : State) (n : Nat) {ctl : Ctl}
    (hctl : ctl.unitExited = s.ctl.unitExited) :
    OnQueue q s { core := { s.core with allocs := n }, ctl := ctl } := by
  refine ⟨⟨s.core.tab q, s.core.ring q, n, [], ?_, fun e he => nomatch he⟩, hctl⟩
  cases q <;> rfl

theorem allocate (q : QueueId) (s : State) : OnQueue q s (s.allocate env).2 :=
  allocs q s (s.core.allocs + 1) rfl

theorem getTime (q : QueueId) (s : State) : OnQueue q s (s.getTime env).2 :=
  allocs q s s.core.allocs rfl

theorem nvmeReqFreeDmaBuffers (q : QueueId) (s : State) (r : Request) :
    OnQueue q s (Engine.nvmeReqFreeDmaBuffers s r) := by
  rw [nvmeReqFreeDmaBuffers_eq]
  refine ⟨⟨s.core.tab q, s.core.ring q, s.core.allocs, dmaFrees r, ?_,
    silent_of_quietFor (dmaFrees_quietFor r)⟩, rfl⟩
  cases q <;> rfl

theorem nvmePostDma (q : QueueId) (s : State) (r : Request) :
    OnQueue q s (Engine.nvmePostDma s r) := by
  unfold Engine.nvmePostDma
  split
  · split
    · exact (log q s (by simp [Silent])).trans (log q _ (by simp [Silent]))
    · split
      · exact refl q s
      · exact log q s (by simp [Silent])
  · exact refl q s

theorem nvmeCleanupCmd (q : QueueId) (s : State) (r : Request) :
    OnQueue q s (Engine.nvmeCleanupCmd s r).1 :=
  (nvmePostDma q s r).trans (nvmeReqFreeDmaBuffers q _ r)

theorem nvmeReqDestroy (s : State) (q : QueueId) (tag : Nat) :
    OnQueue q s (Engine.nvmeReqDestroy s q tag) := by
  unfold Engine.nvmeReqDestroy
  split
  · exact refl q s
  · rename_i r _
    have hrelease : OnQueue q s (s.releaseSlot q r.cid) := setTab s q _
    exact (hrelease.trans (nvmeReqFreeDmaBuffers q _ r)).trans (log q _ (by simp [Silent]))

theorem nvmeSqCommit (s : State) (q : QueueId) : OnQueue q s (Engine.nvmeSqCommit s q) := by
  unfold Engine.nvmeSqCommit
  dsimp only
  split
  · exact (log q s (by simp [Silent])).trans (setRing _ q _)
  · exact refl q s

theorem nvmeSqBatchEnd (s : State) (q : QueueId) : OnQueue q s (Engine.nvmeSqBatchEnd s q) := by
  unfold Engine.nvmeSqBatchEnd
  split
  · exact refl q s
  · dsimp only
    split
    · exact (setRing s q _).trans (nvmeSqCommit _ q)
    · exact setRing s q _

theorem writeSqe (s : State) (q : QueueId) (tag : Nat) (r : Request) :
    OnQueue q s (Engine.writeSqe env s q tag r) := by
  unfold Engine.writeSqe
  dsimp only
  have hsqe : OnQueue q s (s.log (.sqe (s.ring q).sqTail r (s.core.ownerOf r))) :=
    log q s (by simp [Silent])
  have htime := (hsqe.trans (setRing _ q { s.ring q with
    sqTail := ((s.ring q).sqTail + 1) % (s.tab q).depth })).trans (@getTime env q _)
  split
  · exact (htime.trans (setTab _ q _)).trans (nvmeSqCommit _ q)
  · exact htime.trans (setTab _ q _)

theorem nvmeSubmitIo (s : State) (q : QueueId) (tag : Nat) :
    OnQueue q s (Engine.nvmeSubmitIo env s q tag).1 := by
  unfold Engine.nvmeSubmitIo
  split
  · exact refl q s
  · split
    · exact nvmeReqDestroy s q tag
    · split
      · exact (log q s (by simp [Silent])).trans (nvmeReqDestroy _ q tag)
      · exact writeSqe s q tag _

theorem allocRequest (s : State) (q : QueueId) (init : Request → Request) (e₁ e₂ : Int) :
    OnQueue q s (Engine.allocRequest env s q init e₁ e₂).1 := by
  have halloc : OnQueue q s (s.allocate env).2 := allocate q s
  unfold Engine.allocRequest
  generalize s.allocate env = p at halloc ⊢
  obtain ⟨_ | _, s₁⟩ := p
  · exact halloc
  · dsimp only
    split
    · exact halloc.trans (log q s₁ (by simp [Silent]))
    · exact halloc.trans (setTab s₁ q _)

theorem submitAdmin (s : State) (tag : Nat) (cmd : Command) (buffer : Option (Nat × Nat))
    (fill : Request → Request) :
    OnQueue .admin s (Engine.submitAdmin env s tag cmd buffer fill).1 := by
  have hedit : ∀ f : Request → Request, OnQueue .admin s (s.editSlot .admin tag f) :=
    fun f => setTab s .admin _
  cases buffer with
  | none => exact (hedit _).trans (nvmeSubmitIo _ .admin tag)
  | some b =>
      exact ((hedit _).trans (log .admin _ (by simp [Silent]))).trans
        (nvmeSubmitIo _ .admin tag)

theorem nvmeSubmitAsyncCmd (s : State) (cmd : Command) (buffer : Option (Nat × Nat)) (d : Done)
    (priv : Option Nat) (aer : Bool) :
    OnQueue .admin s (Engine.nvmeSubmitAsyncCmd env s cmd buffer d priv aer).1 := by
  have halloc : OnQueue .admin s (nvmeReqAllocAdmin env s).1 :=
    allocRequest s .admin id errNoMem errBusy
  unfold Engine.nvmeSubmitAsyncCmd
  generalize nvmeReqAllocAdmin env s = p at halloc ⊢
  obtain ⟨s₁, e | tag⟩ := p
  · exact halloc
  · exact halloc.trans (submitAdmin s₁ tag cmd buffer _)

theorem nvmeSubmitSyncCmd (s : State) (w : Waiter) (cmd : Command)
    (buffer : Option (Nat × Nat)) :
    OnQueue .admin s (Engine.nvmeSubmitSyncCmd env s w cmd buffer).1 := by
  have halloc : OnQueue .admin s (nvmeReqAllocAdmin env s).1 :=
    allocRequest s .admin id errNoMem errBusy
  unfold Engine.nvmeSubmitSyncCmd
  generalize nvmeReqAllocAdmin env s = p at halloc ⊢
  obtain ⟨s₁, e | tag⟩ := p
  · exact halloc
  · have hwait : OnQueue .admin s₁ (s₁.allocate env).2 := allocate .admin s₁
    dsimp only
    generalize s₁.allocate env = p at hwait ⊢
    obtain ⟨_ | _, s₂⟩ := p
    · exact (halloc.trans hwait).trans (nvmeReqDestroy s₂ .admin tag)
    · exact (halloc.trans hwait).trans (submitAdmin s₂ tag cmd buffer _)

theorem nvmeTeardownQueue (s : State) (q : QueueId) :
    OnQueue q s (Engine.nvmeTeardownQueue s q) :=
  ((log q s (by simp [Silent])).trans (setTab _ q _)).trans (setRing _ q _)

theorem nvmeSetupQueue (s : State) (q : QueueId) (depth : Nat) :
    OnQueue q s (Engine.nvmeSetupQueue env s q depth).1 := by
  unfold Engine.nvmeSetupQueue
  dsimp only
  split
  · exact (((allocs q s _ rfl).trans (setTab _ q _)).trans (setRing _ q _)).trans
      (log q _ (by simp [Silent]))
  · exact (allocs q s _ rfl).trans (nvmeTeardownQueue _ q)

theorem logAll (q : QueueId) (s : State) (es : List Effect) (hes : Silent es) :
    OnQueue q s { s with core := stamp s.core s.core.allocs es } := by
  refine ⟨⟨s.core.tab q, s.core.ring q, s.core.allocs, es, ?_, hes⟩, rfl⟩
  cases q <;> rfl

theorem setupRwCmd (s : State) (tag : Nat) (r : Request)
    (lba count opcode dmaBuf bytes : Nat) :
    OnQueue .io s (Engine.setupRwCmd env s tag r lba count opcode dmaBuf bytes).1 := by
  unfold Engine.setupRwCmd
  dsimp only
  generalize Prp.buildPrps _ _ _ _ _ _ = p
  have hedit : ∀ (s : State) (f : Request → Request), OnQueue .io s (s.editSlot .io tag f) :=
    fun s f => setTab s .io _
  have hset := (@allocs .io s (s.core.allocs + (p.prpPages.length + p.freed.length + 1))
    { s.ctl with mem := p.mem } rfl).trans (hedit _ (fun x =>
      { x with
        cmd :=
          { opcode := opcode, commandId := r.cid, nsid := unitNsid env r, slba := lba
            length := nlbField count, prp1 := p.prp1, prp2 := p.prp2 }
        prpPages := p.prpPages, prpList := p.prpList, prpSmall := p.prpSmall }))
  split
  · split
    · refine hset.trans (log .io _ ?_)
      simp [Silent]
    · exact hset
  · rw [foldl_log]
    refine hset.trans (logAll .io _ _ ?_)
    intro e he i er a
    obtain ⟨a, -, rfl⟩ := List.mem_map.mp he
    exact fun h => nomatch h

theorem nvmeSetupRw (s : State) (tag lba count opcode buffer : Nat) :
    OnQueue .io s (Engine.nvmeSetupRw env s tag lba count opcode buffer).1 := by
  unfold Engine.nvmeSetupRw
  split
  · exact refl .io s
  · dsimp only
    rename_i r _
    have hedit : ∀ (s : State) (f : Request → Request), OnQueue .io s (s.editSlot .io tag f) :=
      fun s f => setTab s .io _
    have hfirst := hedit s (fun _ =>
      { r with
        userBuf := buffer, userLen := count * 2 ^ unitShift env r % 2 ^ 32, bounceBuf := none })
    split
    · refine hfirst.trans ?_
      generalize State.editSlot s .io tag _ = s₁
      have halloc : OnQueue .io s₁ (s₁.allocate env).2 := allocate .io s₁
      generalize s₁.allocate env = p at halloc ⊢
      obtain ⟨_ | b, s₂⟩ := p
      · exact halloc
      · dsimp only
        split
        · exact ((halloc.trans (hedit s₂ _)).trans (log .io _ (by simp [Silent]))).trans
            (setupRwCmd _ tag _ _ _ _ _ _)
        · exact (halloc.trans (hedit s₂ _)).trans (setupRwCmd _ tag _ _ _ _ _ _)
    · exact hfirst.trans (setupRwCmd _ tag _ _ _ _ _ _)

theorem nvmeSetupDsm (s : State) (tag buffer : Nat) (ranges : List DsmRange) (nr : Nat) :
    OnQueue .io s (Engine.nvmeSetupDsm env s tag buffer ranges nr).1 := by
  unfold Engine.nvmeSetupDsm
  split
  · exact refl .io s
  · exact (log .io s (by simp [Silent])).trans (setTab _ .io _)

theorem setupChunk (s : State) (tag : Nat) (ctx : IoContext) (bytes : Nat) :
    OnQueue .io s (Engine.setupChunk env s tag ctx bytes).1 := by
  unfold Engine.setupChunk
  dsimp only
  split
  · exact setTab s .io _
  · exact nvmeSetupRw s tag _ _ _ _

end OnQueue

end OnQueue

end Refine
end NvmeDriver
