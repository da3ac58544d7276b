import NvmeDriver.Refine.Frame

/-!
# The I/O side

Dispatching client requests and completing I/O commands leaves the admin queue, the phase
of the controller and the parked admin requests alone.
-/

namespace NvmeDriver
namespace Refine

open Engine
open Lib
open Ownership

variable {env : Env} {s t u : State}

/-! ### Nothing on the admin side changes -/

section IoOnly

/-- The request is one the dispatchers build. -/
structure Plain (r : Request) : Prop where
  queue : r.q = .io
  done : r.done = none
  waiter : r.waiter = none

/-- The admin table, the phase and the parked admin requests are the same. -/
structure IoOnly (s t : State) : Prop where
  admin : t.core.adminTab = s.core.adminTab
  retry : ∀ r, r ∈ t.core.retryList → r ∈ s.core.retryList ∨ Plain r
  state : t.core.state = s.core.state
  blocked : t.core.unitBlocked = s.core.unitBlocked

namespace IoOnly

theorem of_eq (hadmin : t.core.adminTab = s.core.adminTab)
    (hretry : t.core.retryList = s.core.retryList) (hstate : t.core.state = s.core.state)
    (hblocked : t.core.unitBlocked = s.core.unitBlocked) : IoOnly s t :=
  ⟨hadmin, fun _ hr => .inl (hretry ▸ hr), hstate, hblocked⟩

theorem refl (s : State) : IoOnly s s := of_eq rfl rfl rfl rfl

theorem trans (h₁ : IoOnly s t) (h₂ : IoOnly t u) : IoOnly s u where
  admin := h₂.admin.trans h₁.admin
  retry := by
    intro r hr
    rcases h₂.retry r hr with hr | hr
    · exact h₁.retry r hr
    · exact .inr hr
  state := h₂.state.trans h₁.state
  blocked := h₂.blocked.trans h₁.blocked

theorem onQueue {q : QueueId} (h : OnQueue q s t) (hq : q = .io) : IoOnly s t := by
  subst hq
  obtain ⟨⟨tab, ring, n, es, hcore, -⟩, -⟩ := h
  refine of_eq ?_ ?_ ?_ ?_ <;> rw [hcore] <;> rfl

theorem log (s : State) (e : Effect) : IoOnly s (s.log e) := of_eq rfl rfl rfl rfl

theorem editCtx (s : State) (x : Nat) (f : IoContext → IoContext) : IoOnly s (s.editCtx x f) :=
  of_eq rfl rfl rfl rfl

theorem setCtxs (s : State) (ctxs : Heap IoContext) :
    IoOnly s { s with core := { s.core with ctxs := ctxs } } := of_eq rfl rfl rfl rfl

theorem stallCtx (s : State) (x : Nat) : IoOnly s (Engine.stallCtx s x) := of_eq rfl rfl rfl rfl

end IoOnly

end IoOnly

/-! ### Chunked transfers -/

namespace IoOnly

theorem pumpRefused (s : State) (x inflight : Nat) (e : Int) :
    IoOnly s (Engine.pumpRefused s x inflight e).1 := by
  unfold Engine.pumpRefused
  split
  · dsimp only
    split
    · exact stallCtx s x
    · exact refl s
  · exact editCtx s x _

theorem pumpTurn (s : State) (x : Nat) (ctx : IoContext) :
    IoOnly s (Engine.pumpTurn env s x ctx).1 := by
  have halloc : IoOnly s (nvmeReqAllocIo env s ctx.unit none).1 :=
    onQueue (OnQueue.allocRequest s .io _ _ _) rfl
  unfold Engine.pumpTurn
  dsimp only
  generalize nvmeReqAllocIo env s ctx.unit none = p at halloc ⊢
  obtain ⟨s₁, e | tag⟩ := p
  · dsimp only
    split
    · exact halloc.trans (stallCtx s₁ x)
    · exact halloc
  · dsimp only
    have hname : IoOnly s₁ (s₁.editSlot .io tag (fun r => { r with ctx := some x })) :=
      onQueue (OnQueue.setTab s₁ .io _) rfl
    generalize State.editSlot s₁ .io tag _ = s₂ at hname ⊢
    have hsetup : IoOnly s₂ (setupChunk env s₂ tag ctx (nextBytes env ctx)).1 :=
      onQueue (OnQueue.setupChunk s₂ tag ctx _) rfl
    generalize setupChunk env s₂ tag ctx (nextBytes env ctx) = p at hsetup ⊢
    obtain ⟨s₃, serr⟩ := p
    dsimp only at hsetup ⊢
    have hthird := (halloc.trans hname).trans hsetup
    split
    · exact (hthird.trans (onQueue (OnQueue.nvmeReqDestroy s₃ .io tag) rfl)).trans (editCtx _ x _)
    · have hadd := hthird.trans (editCtx s₃ x (fun y =>
        { y with dispatched := y.dispatched + nextBytes env ctx, inflight := y.inflight + 1 }))
      generalize State.editCtx s₃ x _ = s₄ at hadd ⊢
      have hsubmit : IoOnly s₄ (nvmeSubmitIo env s₄ .io tag).1 :=
        onQueue (OnQueue.nvmeSubmitIo s₄ .io tag) rfl
      generalize nvmeSubmitIo env s₄ .io tag = p at hsubmit ⊢
      obtain ⟨s₅, suberr⟩ := p
      dsimp only at hsubmit ⊢
      split
      · exact ((hadd.trans hsubmit).trans (editCtx s₅ x _)).trans (pumpRefused _ x _ _)
      · exact hadd.trans hsubmit

theorem pumpLoop (x n : Nat) : ∀ s : State, IoOnly s (Engine.pumpLoop env n s x).1 := by
  induction n with
  | zero => exact refl
  | succ n ih =>
      intro s
      unfold Engine.pumpLoop
      cases s.core.ctxs.get x with
      | none => exact log s .fault
      | some ctx =>
          dsimp only
          split
          · have hturn : IoOnly s (Engine.pumpTurn env s x ctx).1 := pumpTurn s x ctx
            generalize Engine.pumpTurn env s x ctx = p at hturn ⊢
            obtain ⟨s₁, _ | err⟩ := p
            · exact hturn.trans (ih s₁)
            · exact hturn
          · exact refl s

theorem nvmeIoContextPump (s : State) (x : Nat) :
    IoOnly s (Engine.nvmeIoContextPump env s x).1 :=
  pumpLoop x _ s

theorem nvmeIoContextFinish (s : State) (x : Nat) :
    IoOnly s (Engine.nvmeIoContextFinish s x) := by
  unfold Engine.nvmeIoContextFinish
  split
  · exact log s .fault
  · dsimp only
    split
    · exact ((((log s _).trans (log _ _)).trans (log _ _)).trans (log _ _)).trans (setCtxs _ _)
    · exact (((log s _).trans (log _ _)).trans (log _ _)).trans (setCtxs _ _)

theorem finishIfIdle (s : State) (x : Nat) : IoOnly s (Engine.finishIfIdle s x) := by
  unfold Engine.finishIfIdle
  split
  · exact log s .fault
  · split
    · exact nvmeIoContextFinish s x
    · exact refl s

theorem completeSibling (s : State) (r : Request) (x : Nat) :
    IoOnly s (Engine.completeSibling env s r x) := by
  unfold Engine.completeSibling
  split
  · exact log s .fault
  · rename_i ctx _
    dsimp only
    have hdone := (editCtx s x (fun _ => ctx.siblingDone r)).trans (log _ (.reqFree r.id))
    split
    · exact (hdone.trans (nvmeIoContextPump _ x)).trans (finishIfIdle _ x)
    · exact hdone.trans (finishIfIdle _ x)

/-! ### Completing I/O commands -/

theorem endReq {r : Request} (hr : Plain r) (s : State) : IoOnly s (Engine.endReq env s r) := by
  unfold Engine.endReq
  rw [hr.done, hr.waiter]
  cases r.io with
  | none => exact refl s
  | some i => exact (log s _).trans (log _ _)

theorem completeRequest {r : Request} (hr : Plain r) (s : State) :
    IoOnly s (Engine.completeRequest env s r) := by
  have hclean : IoOnly s (nvmeCleanupCmd s r).1 := onQueue (OnQueue.nvmeCleanupCmd .io s r) rfl
  have hplain : Plain (nvmeCleanupCmd s r).2 := ⟨hr.queue, hr.done, hr.waiter⟩
  unfold Engine.completeRequest
  generalize nvmeCleanupCmd s r = p at hclean hplain ⊢
  obtain ⟨s₁, r₁⟩ := p
  dsimp only at hclean hplain ⊢
  cases r.ctx with
  | none => exact hclean.trans (endReq hplain s₁)
  | some x => exact hclean.trans (completeSibling s₁ r₁ x)

theorem nvmeResubmitIo {r : Request} (hr : Plain r) {complete : State → Request → State}
    (hcomplete : ∀ (s : State) (r : Request), Plain r → IoOnly s (complete s r)) (s : State) :
    IoOnly s (Engine.nvmeResubmitIo env complete s r) := by
  unfold Engine.nvmeResubmitIo
  split
  · exact hcomplete s _ ⟨hr.queue, hr.done, hr.waiter⟩
  · exact onQueue ((OnQueue.setTab s r.q _).trans (OnQueue.nvmeSubmitIo _ r.q _)) hr.queue

theorem completeRq (n : Nat) :
    ∀ (s : State) (r : Request), Plain r → IoOnly s (Engine.completeRq env n s r) := by
  induction n with
  | zero => exact fun s _ _ => log s .fault
  | succ n ih =>
      intro s r hr
      unfold Engine.completeRq
      cases nvmeDecideDisposition r with
      | complete => exact completeRequest hr s
      | retry =>
          have hr' : Plain { r with status := 0, retries := r.retries + 1 } :=
            ⟨hr.queue, hr.done, hr.waiter⟩
          dsimp only
          unfold nvmeRetryReq
          dsimp only
          split
          · refine ⟨rfl, fun r' hmem => ?_, rfl, rfl⟩
            rcases List.mem_append.mp hmem with hmem | hmem
            · exact .inl hmem
            · rw [List.mem_singleton.mp hmem]
              exact .inr ⟨hr.queue, hr.done, hr.waiter⟩
          · exact nvmeResubmitIo hr' ih s

theorem nvmeCompleteRq {r : Request} (hr : Plain r) (s : State) :
    IoOnly s (Engine.nvmeCompleteRq env s r) :=
  completeRq _ s r hr

/-! ### Dispatching -/

theorem nvmeFailNonreadyCommand {tag : Nat} (hslot : ∀ r, s.slot .io tag = some r → Plain r) :
    IoOnly s (Engine.nvmeFailNonreadyCommand env s tag).1 := by
  unfold Engine.nvmeFailNonreadyCommand
  split
  · exact refl s
  · rename_i r hr
    obtain ⟨hq, hdone, hwait⟩ := hslot r hr
    have hedit : ∀ f : Request → Request, IoOnly s (s.editSlot .io tag f) :=
      fun f => onQueue (OnQueue.setTab s .io _) rfl
    dsimp only
    split
    · exact (hedit _).trans (onQueue (OnQueue.nvmeReqDestroy _ .io tag) rfl)
    · refine (hedit _).trans (nvmeCompleteRq ?_ _)
      exact ⟨hq, hdone, hwait⟩

/-- A request just allocated is one the dispatchers build. -/
theorem nvmeReqAllocIo_plain (ht : TabOk .io (s.core.tab .io)) (u io : Nat) {s₁ : State}
    {tag : Nat} (heq : nvmeReqAllocIo env s u (some io) = (s₁, .ok tag)) (r : Request)
    (hr : s₁.slot .io tag = some r) : Plain r := by
  unfold nvmeReqAllocIo at heq
  rcases @allocRequest_cases env s .io (fun r => { r with io := some io, unit := some u })
      ioerrSelfTest ioerrUnitBusy ht (fun _ => rfl) with
    ⟨s₂, heq₂, -⟩ | ⟨s₂, heq₂, -⟩ | ⟨s₂, cid, rest, heq₂, hh, -⟩
  · rw [heq₂] at heq
    cases heq
  · rw [heq₂] at heq
    cases heq
  · rw [heq₂] at heq
    cases heq
    rw [hh.slot] at hr
    cases hr
    exact ⟨rfl, rfl, rfl⟩

theorem submitSingle (ht : TabOk .io (s.core.tab .io)) (u io : Nat)
    {setup : State → Nat → State × Int}
    (hsetup : ∀ (s : State) (tag : Nat), OnQueue .io s (setup s tag).1) :
    IoOnly s (Engine.submitSingle env s u io setup).1 := by
  have halloc : IoOnly s (nvmeReqAllocIo env s u (some io)).1 :=
    onQueue (OnQueue.allocRequest s .io _ _ _) rfl
  have hplain := @nvmeReqAllocIo_plain env s ht u io
  unfold Engine.submitSingle
  generalize nvmeReqAllocIo env s u (some io) = p at halloc hplain ⊢
  obtain ⟨s₁, e | tag⟩ := p
  · exact halloc
  · dsimp only at halloc ⊢
    split
    · exact halloc.trans (nvmeFailNonreadyCommand (hplain rfl))
    · have hset := hsetup s₁ tag
      generalize setup s₁ tag = p at hset ⊢
      obtain ⟨s₂, serr⟩ := p
      dsimp only at hset ⊢
      split
      · exact halloc.trans (onQueue (hset.trans (OnQueue.nvmeReqDestroy s₂ .io tag)) rfl)
      · exact halloc.trans (onQueue (hset.trans (OnQueue.nvmeSubmitIo s₂ .io tag)) rfl)

theorem submitChunked (s : State) (ctx : IoContext) :
    IoOnly s (Engine.submitChunked env s ctx).1 := by
  have halloc : IoOnly s (s.allocate env).2 := onQueue (OnQueue.allocate .io s) rfl
  unfold Engine.submitChunked
  generalize s.allocate env = p at halloc ⊢
  obtain ⟨_ | _, s₁⟩ := p
  · exact halloc
  · dsimp only at halloc ⊢
    have hready : IoOnly s (if ctx.dataPrecached = true then
        State.log { s₁ with core := { s₁.core with
          ctxs := s₁.core.ctxs.insert s.core.allocs ctx } }
          (.cacheFlush ctx.userData ctx.totalBytes (ctx.opcode == nvmeCmdWrite))
        else { s₁ with core := { s₁.core with
          ctxs := s₁.core.ctxs.insert s.core.allocs ctx } }) := by
      split
      · exact (halloc.trans (setCtxs s₁ _)).trans (log _ _)
      · exact halloc.trans (setCtxs s₁ _)
    generalize (if ctx.dataPrecached = true then _ else _ : State) = s₃ at hready ⊢
    have hpump : IoOnly s₃ (Engine.nvmeIoContextPump env s₃ s.core.allocs).1 :=
      nvmeIoContextPump s₃ _
    generalize Engine.nvmeIoContextPump env s₃ s.core.allocs = p at hpump ⊢
    obtain ⟨s₄, err⟩ := p
    dsimp only at hpump ⊢
    split
    · exact ((hready.trans hpump).trans (log s₄ _)).trans (setCtxs _ _)
    · exact hready.trans hpump

theorem nvmeIoSubmitRw (ht : TabOk .io (s.core.tab .io)) (u io lba blocks opcode buffer : Nat) :
    IoOnly s (Engine.nvmeIoSubmitRw env s u io lba blocks opcode buffer).1 := by
  unfold Engine.nvmeIoSubmitRw
  dsimp only
  split
  · exact refl s
  · split
    · exact refl s
    · split
      · exact refl s
      · split
        · exact submitSingle ht u io (fun s tag => OnQueue.nvmeSetupRw s tag _ _ _ _)
        · split
          · exact refl s
          · exact submitChunked s _

theorem nvmeIoSubmitFlush (ht : TabOk .io (s.core.tab .io)) (u io : Nat) :
    IoOnly s (Engine.nvmeIoSubmitFlush env s u io).1 :=
  submitSingle ht u io (fun s _ => OnQueue.setTab s .io _)

theorem nvmeIoSubmitDsm (ht : TabOk .io (s.core.tab .io)) (u io buffer : Nat)
    (ranges : List DsmRange) (nr : Nat) :
    IoOnly s (Engine.nvmeIoSubmitDsm env s u io buffer ranges nr).1 := by
  have halloc : IoOnly s (nvmeReqAllocIo env s u (some io)).1 :=
    onQueue (OnQueue.allocRequest s .io _ _ _) rfl
  have hplain := @nvmeReqAllocIo_plain env s ht u io
  unfold Engine.nvmeIoSubmitDsm
  generalize nvmeReqAllocIo env s u (some io) = p at halloc hplain ⊢
  obtain ⟨s₁, e | tag⟩ := p
  · exact halloc.trans (log s₁ _)
  · dsimp only at halloc ⊢
    split
    · refine (halloc.trans (log s₁ _)).trans (nvmeFailNonreadyCommand ?_)
      intro r hr
      exact hplain rfl r hr
    · have hset : OnQueue .io s₁ (nvmeSetupDsm env s₁ tag buffer ranges nr).1 :=
        OnQueue.nvmeSetupDsm s₁ tag buffer ranges nr
      generalize nvmeSetupDsm env s₁ tag buffer ranges nr = p at hset ⊢
      obtain ⟨s₂, _ | _⟩ := p
      · exact ((halloc.trans (onQueue hset rfl)).trans (log s₂ _)).trans
          (onQueue (OnQueue.nvmeReqDestroy _ .io tag) rfl)
      · exact halloc.trans (onQueue (hset.trans (OnQueue.nvmeSubmitIo s₂ .io tag)) rfl)

/-- Allocating a range buffer first. -/
theorem withBuffer (f : State → Nat → State × Int) (e : Int)
    (hf : ∀ s₁ b, s₁.core.tab .io = s.core.tab .io → IoOnly s₁ (f s₁ b).1) :
    IoOnly s (match s.allocate env with
      | (none, s₁) => (s₁, e)
      | (some b, s₁) => f s₁ b).1 := by
  have halloc : IoOnly s (s.allocate env).2 := onQueue (OnQueue.allocate .io s) rfl
  have htab : (s.allocate env).2.core.tab .io = s.core.tab .io := rfl
  generalize s.allocate env = p at halloc htab ⊢
  obtain ⟨_ | b, s₁⟩ := p
  · exact halloc
  · exact halloc.trans (hf s₁ b htab)

theorem nvmeIoSubmitWriteZeroes (ht : TabOk .io (s.core.tab .io)) (u io lba blocks : Nat) :
    IoOnly s (Engine.nvmeIoSubmitWriteZeroes env s u io lba blocks).1 := by
  unfold Engine.nvmeIoSubmitWriteZeroes
  dsimp only
  split
  · exact refl s
  · split
    · exact refl s
    · split
      · exact withBuffer _ _ fun s₁ b htab => nvmeIoSubmitDsm (htab ▸ ht) u io b _ 1
      · split
        · exact refl s
        · split
          · exact submitSingle ht u io (fun s _ => OnQueue.setTab s .io _)
          · split
            · exact refl s
            · exact submitChunked s _

theorem processTrim (ht : TabOk .io (s.core.tab .io)) (io : Nat) (r : IoRequest) :
    IoOnly s (Engine.processTrim env s io r).1 := by
  unfold Engine.processTrim
  dsimp only
  generalize (if r.ioData = 0 then 0 else r.ioLength / trimRangeBytes) = nr
  split
  · exact refl s
  · refine withBuffer _ _ fun s₁ b htab => ?_
    split
    · exact nvmeIoSubmitDsm (htab ▸ ht) r.unit io b _ _
    · exact log s₁ _

theorem scsiUnmap (ht : TabOk .io (s.core.tab .io)) (u io : Nat) (cmd : Scsi.ScsiCmd) :
    IoOnly s (Engine.scsiUnmap env s u io cmd).1 := by
  unfold Engine.scsiUnmap
  dsimp only
  split
  · exact refl s
  · split
    · exact refl s
    · split
      · exact refl s
      · split
        · exact refl s
        · split
          · exact refl s
          · split
            · exact refl s
            · have halloc : IoOnly s (s.allocate env).2 := onQueue (OnQueue.allocate .io s) rfl
              have htab : (s.allocate env).2.core.tab .io = s.core.tab .io := rfl
              generalize s.allocate env = p at halloc htab ⊢
              obtain ⟨_ | b, s₁⟩ := p
              · exact halloc
              · dsimp only at halloc htab ⊢
                split
                · exact halloc.trans (log s₁ _)
                · rename_i ranges _
                  have hdsm : IoOnly s₁ (Engine.nvmeIoSubmitDsm env s₁ u io b ranges
                      (Scsi.loadBe cmd.payload 2 2 / 16)).1 :=
                    nvmeIoSubmitDsm (htab ▸ ht) u io b ranges _
                  generalize Engine.nvmeIoSubmitDsm env s₁ u io b ranges
                    (Scsi.loadBe cmd.payload 2 2 / 16) = p at hdsm ⊢
                  obtain ⟨s₂, err⟩ := p
                  dsimp only at hdsm ⊢
                  split
                  · exact halloc.trans hdsm
                  · exact halloc.trans hdsm

theorem scsiSwitch (ht : TabOk .io (s.core.tab .io)) (u io : Nat) (cmd : Scsi.ScsiCmd)
    (cdb : List Nat) : IoOnly s (Engine.scsiSwitch env s u io cmd cdb).1 := by
  have hsync : IoOnly s (Engine.scsiSyncCache env s u io cmd).1 := by
    have hflush : IoOnly s (Engine.nvmeIoSubmitFlush env s u io).1 := nvmeIoSubmitFlush ht u io
    unfold Engine.scsiSyncCache
    generalize Engine.nvmeIoSubmitFlush env s u io = p at hflush ⊢
    obtain ⟨s₁, err⟩ := p
    dsimp only at hflush ⊢
    split <;> exact hflush
  have htransfer : ∀ lba count, IoOnly s (Engine.doScsiTransfer env s u io cmd lba count).1 := by
    intro lba count
    unfold Engine.doScsiTransfer
    dsimp only
    split
    · exact refl s
    · generalize hop : (if cmd.flagRead = true then nvmeCmdRead else nvmeCmdWrite) = opcode
      have hrw : IoOnly s (Engine.nvmeIoSubmitRw env s u io lba count opcode cmd.data).1 :=
        nvmeIoSubmitRw ht u io lba count opcode cmd.data
      generalize Engine.nvmeIoSubmitRw env s u io lba count opcode cmd.data = p at hrw ⊢
      obtain ⟨s₁, err⟩ := p
      dsimp only at hrw ⊢
      split <;> exact hrw
  unfold Engine.scsiSwitch
  dsimp only
  split
  · exact refl s
  · split
    · exact refl s
    · split
      · exact refl s
      · split
        · exact refl s
        · split
          · exact scsiUnmap ht u io cmd
          · split
            · exact hsync
            · split
              · exact htransfer _ _
              · exact refl s

theorem handleScsiCmd (ht : TabOk .io (s.core.tab .io)) (u io : Nat)
    (scsi : Option Scsi.ScsiCmd) : IoOnly s (Engine.handleScsiCmd env s u io scsi).1 := by
  unfold Engine.handleScsiCmd
  cases scsi with
  | none => exact refl s
  | some cmd =>
      dsimp only
      split
      · exact refl s
      · split
        · exact refl s
        · rename_i cdb _ _
          have hswitch : IoOnly s
              (Engine.scsiSwitch env s u io { cmd with senseActual := 0 } cdb).1 :=
            scsiSwitch ht u io _ cdb
          generalize Engine.scsiSwitch env s u io { cmd with senseActual := 0 } cdb = p
            at hswitch ⊢
          obtain ⟨s₁, err, cmd₁⟩ := p
          dsimp only at hswitch ⊢
          split <;> exact hswitch.trans (log s₁ _)

theorem dispatch (ht : TabOk .io (s.core.tab .io)) (io : Nat) (r : IoRequest) :
    IoOnly s (Engine.dispatch env s io r).1 := by
  unfold Engine.dispatch
  dsimp only
  split
  · exact refl s
  · exact refl s
  · exact nvmeIoSubmitWriteZeroes ht r.unit io _ _
  · exact processTrim ht io r
  · exact nvmeIoSubmitFlush ht r.unit io
  · exact nvmeIoSubmitFlush ht r.unit io
  · exact handleScsiCmd ht r.unit io r.scsi
  · exact refl s
  · exact refl s
  · split
    · exact nvmeIoSubmitRw ht r.unit io _ _ _ _
    · exact refl s

theorem repump (s : State) (x : Nat) : IoOnly s (Engine.repump env s x).1 := by
  have hpump := (editCtx s x (fun y => { y with stalled := false })).trans
    (@nvmeIoContextPump env _ x)
  unfold Engine.repump
  dsimp only
  generalize Engine.nvmeIoContextPump env _ x = p at hpump ⊢
  obtain ⟨s₂, err⟩ := p
  dsimp only at hpump ⊢
  split
  · exact hpump.trans (log s₂ _)
  · split
    · exact hpump
    · split
      · exact hpump.trans (nvmeIoContextFinish s₂ x)
      · exact hpump

theorem drainStalled (n : Nat) : ∀ s : State, IoOnly s (Engine.drainStalled env n s) := by
  induction n with
  | zero => exact refl
  | succ n ih =>
      intro s
      unfold Engine.drainStalled
      split
      · split
        · exact refl s
        · rename_i x rest _
          have hpump : IoOnly s (Engine.repump env
              { s with core := { s.core with ctxStalled := rest } } x).1 :=
            IoOnly.trans (t := { s with core := { s.core with ctxStalled := rest } })
              (of_eq rfl rfl rfl rfl) (repump _ x)
          dsimp only
          generalize Engine.repump env _ x = p at hpump ⊢
          obtain ⟨s₂, _ | _⟩ := p
          · exact hpump.trans (ih s₂)
          · exact hpump
      · exact refl s

end IoOnly

end Refine
end NvmeDriver
