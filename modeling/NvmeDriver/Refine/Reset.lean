import NvmeDriver.Refine.Pass

/-!
# Reset, shutdown and the other tasks refine the machine

A reset begins by owing its next step; it has been handed to the rebuild chain, or is
finished, when it returns.
-/

namespace NvmeDriver
namespace Refine

open Engine
open Lib
open Ownership

variable {env : Env} {P : Policy} {s : State}

/-! ### Reset -/

section Reset

variable {o : Bool}

/-- What stopping the device logs. -/
theorem nvmeDisableCtrl_core (env : Env) (s : State) :
    ∃ notes, (nvmeDisableCtrl env s).core = stamp s.core s.core.allocs notes ∧
      ∀ e, e ∈ notes → halting e = true := by
  unfold nvmeDisableCtrl State.waitReady
  cases env.regs (s.log .disable).ctl.regs with
  | true => exact ⟨[.deviceStopped, .disable], rfl, by simp [halting]⟩
  | false => exact ⟨[.disable], rfl, by simp [halting]⟩

/-- The device is stopped and the I/O queue freed. -/
theorem stopIo_spec (hstir : P.stir) (hlose : Losable P .io) :
    Goes env P s.core ⟨none, none, none, 0, false, o⟩
      (nvmeTeardownQueue (nvmeDisableCtrl env s) .io).core ⟨none, none, none, 0, false, o⟩ := by
  refine .assume fun hs => ?_
  obtain ⟨notes, hcore, hnotes⟩ := nvmeDisableCtrl_core env s
  have heq : (nvmeTeardownQueue (nvmeDisableCtrl env s) .io).core =
      (stamp (s.core.setTab .io SlotTable.gone) s.core.allocs
        (.teardown (s.core.tab .io).occupants :: notes)).setRing .io Ring.gone := by
    rw [nvmeTeardownQueue_core, hcore]
    simp [stamp, Core.setTab, Core.tab]
  rw [heq]
  exact .move fun _ => .teardown .io hstir (hlose.occupants hs)
    (fun e he => ⟨rfl, hnotes e he⟩) ⟨rfl, rfl⟩

/-- While the reset owes its next step, no rebuild command is in the admin table. -/
theorem plain_occupants (hlose : Loses P)
    (hs : Safe ⟨s.core, ⟨none, none, none, 0, false, true⟩⟩) :
    ∀ r, r ∈ (s.core.tab .admin).occupants → P.lose (keyOf r) := by
  intro r hr
  obtain ⟨slot, hslot, rfl⟩ := List.mem_filterMap.mp hr
  obtain ⟨tag, htag⟩ := Slots.mem_iff_read.mp hslot
  refine hlose _ ?_
  by_contra hchain
  have hpos : 0 < Slots.held (Key.isChain ∘ keyOf) s.core.adminTab.inflight :=
    Slots.held_pos_of_read htag (by simpa using hchain)
  have hzero := (hs.phase.owes rfl).2.2.1
  unfold reqCount coreReqs at hzero
  dsimp only at hzero
  omega

theorem bringUpAdmin_spec (hstir : P.stir) (hgone : s.core.adminTab = SlotTable.gone) :
    Goes env P s.core ⟨none, none, none, 0, false, o⟩ (bringUpAdmin env s).1.core
        ⟨none, none, none, 0, false, o⟩ ∧
      (bringUpAdmin env s).1.core.ioTab = s.core.ioTab := by
  have hset := (@nvmeSetupQueue_spec env P ⟨none, none, none, 0, false, o⟩ s .admin hstir hgone
    (fun h => nomatch h) ⟨rfl, rfl⟩).1
  have htab : (nvmeSetupQueue env s .admin nvmeAdminQueueSize).1.core.ioTab = s.core.ioTab := by
    unfold nvmeSetupQueue
    dsimp only
    split <;> rfl
  change Goes env P s.core _ (nvmeSetupQueue env s .admin nvmeAdminQueueSize).1.core _ at hset
  unfold bringUpAdmin
  generalize nvmeSetupQueue env s .admin nvmeAdminQueueSize = p at hset htab ⊢
  obtain ⟨s₁, ok⟩ := p
  cases ok <;> exact ⟨hset, htab⟩

/-- What stopping the controller asks of the policy. -/
structure HaltMeets (P : Policy) : Prop where
  stir : P.stir
  cancel : ∀ q, P.cancel q
  lose : Loses P

theorem nvmeResetController_spec
    (hmeets : ctrlTransition s.core.state .resetting = true → HaltMeets P) :
    Goes env P s.core ⟨none, none, none, 0, false, false⟩ (nvmeResetController env s).core
      ⟨none, none, none, 0, false, false⟩ := by
  refine .assume fun hs => ?_
  unfold nvmeResetController nvmeChangeCtrlState
  split
  · rename_i heq
    split at heq
    · cases heq
    · cases heq
      exact Goes.refl _ _
  · rename_i heq
    split at heq
    · rename_i hok
      cases heq
      obtain ⟨hstir, hcancel, hlose⟩ := hmeets hok
      dsimp only
      -- from here to the end the running code owes the reset its next step
      have hbegin : Goes env P s.core ⟨none, none, none, 0, false, false⟩
          (nvmeQuiesceAdminQueue (nvmeQuiesceIoQueues (State.log
            { s with core := ({ s.core with state := .resetting }).log (.phase .resetting) }
            .resetBegin))).core ⟨none, none, none, 0, false, true⟩ :=
        .move fun _ => .phase hstir (.resetBegin (ctrlTransition_resetting hok))
      generalize nvmeQuiesceAdminQueue (nvmeQuiesceIoQueues (State.log
            { s with core := ({ s.core with state := .resetting }).log (.phase .resetting) }
            .resetBegin)) = s₂ at hbegin ⊢
      have hgo₃ := @nvmeFlushQueueInflight_spec env P s₂ true .io (hcancel _)
        (fun h => nomatch h)
      generalize nvmeFlushQueueInflight env s₂ .io = s₃ at hgo₃ ⊢
      have hgo₄ := @nvmeFlushQueueInflight_spec env P s₃ true .admin (hcancel _)
        (fun _ => ⟨hstir, hlose⟩)
      generalize nvmeFlushQueueInflight env s₃ .admin = s₄ at hgo₄ ⊢
      have hgo₅ := @stopIo_spec env P s₄ true hstir hlose.io
      have hio₅ : (nvmeTeardownQueue (nvmeDisableCtrl env s₄) .io).core.ioTab =
          SlotTable.gone := rfl
      generalize nvmeTeardownQueue (nvmeDisableCtrl env s₄) .io = s₅ at hgo₅ hio₅ ⊢
      have hgo : Goes env P s.core ⟨none, none, none, 0, false, false⟩ s₅.core
          ⟨none, none, none, 0, false, true⟩ :=
        ((hbegin.trans hgo₃).trans hgo₄).trans hgo₅
      have hgo₆ : Goes env P s₅.core ⟨none, none, none, 0, false, true⟩
          (nvmeTeardownQueue s₅ .admin).core ⟨none, none, none, 0, false, true⟩ :=
        nvmeTeardownQueue_spec .admin hstir (plain_occupants hlose (hgo.safe hs)) ⟨rfl, rfl⟩
      have hio₆ : (nvmeTeardownQueue s₅ .admin).core.ioTab = SlotTable.gone := hio₅
      have hadm₆ : (nvmeTeardownQueue s₅ .admin).core.adminTab = SlotTable.gone := rfl
      generalize nvmeTeardownQueue s₅ .admin = s₆ at hgo₆ hio₆ hadm₆ ⊢
      obtain ⟨hgo₇, hio₇⟩ := @bringUpAdmin_spec env P s₆ true hstir hadm₆
      generalize bringUpAdmin env s₆ = p at hgo₇ hio₇ ⊢
      obtain ⟨s₇, ok⟩ := p
      have hall := (hgo.trans hgo₆).trans hgo₇
      have hio : s₇.core.ioTab = SlotTable.gone := hio₇.trans hio₆
      cases ok with
      | false => exact hall.trans (nvmeResetFinish_false_spec hstir hio rfl)
      | true =>
          have hre : Goes env P s₇.core ⟨none, none, none, 0, false, true⟩
              (nvmeResetRebuildIoAsync env (nvmeUnquiesceAdminQueue s₇)).core
              ⟨none, none, none, 0, false, false⟩ :=
            @nvmeResetRebuildIoAsync_spec env P ⟨none, none, none, 0, false, true⟩
              (nvmeUnquiesceAdminQueue s₇) hstir rfl hio
          exact hall.trans hre
    · cases heq

theorem nvmeCtrlShutdown_spec (hmeets : HaltMeets P) (hlose : ∀ k, P.lose k) :
    Goes env P s.core ⟨none, none, none, 0, false, false⟩ (nvmeCtrlShutdown env s).core
      ⟨none, none, none, 0, false, false⟩ := by
  obtain ⟨hstir, hcancel, hloses⟩ := hmeets
  unfold nvmeCtrlShutdown
  dsimp only
  have hquiet : Goes env P s.core ⟨none, none, none, 0, false, false⟩
      (nvmeQuiesceAdminQueue (nvmeQuiesceIoQueues s)).core
      ⟨none, none, none, 0, false, false⟩ := .move fun _ => .phase hstir .quiesce
  refine hquiet.trans ?_
  refine (nvmeFlushQueueInflight_spec (hcancel .io) (fun h => nomatch h)).trans ?_
  refine (nvmeFlushQueueInflight_spec (hcancel .admin)
    (fun _ => ⟨hstir, hloses⟩)).trans ?_
  refine (stopIo_spec hstir hloses.io).trans ?_
  exact nvmeTeardownQueue_spec .admin hstir (fun r _ => hlose _) ⟨rfl, rfl⟩

end Reset

/-! ### The end of the unit task -/

section Exit

theorem exitPending_spec (habort : P.abort) (hqueue : P.queue) (n : Nat) :
    ∀ {s : State}, Goes env P s.core ⟨none, none, none, 0, false, false⟩
      (exitPending n s).core ⟨none, none, none, 0, false, false⟩ := by
  induction n with
  | zero =>
      intro s
      exact Goes.refl _ _
  | succ n ih =>
      intro s
      unfold exitPending
      cases hlist : s.core.ioPending with
      | nil => exact Goes.refl _ _
      | cons i rest =>
          have htake : Goes env P s.core ⟨none, none, none, 0, false, false⟩
              { s.core with ioPending := rest } ⟨some i, none, none, 0, false, false⟩ :=
            .move fun _ => .takePending hlist rfl hqueue
          have hreply : Goes env P { s.core with ioPending := rest }
              ⟨some i, none, none, 0, false, false⟩
              (({ s with core := { s.core with ioPending := rest } } : State).log
                (.reply i ioerrAborted 0)).core ⟨none, none, none, 0, false, false⟩ :=
            .move fun _ => .replyHand _ _ rfl (.inr habort) (fun h => absurd h (by decide))
          exact (htake.trans hreply).trans ih

theorem exitStalled_spec (habort : P.abort) (n : Nat) :
    ∀ {s : State}, (P.spoil ∨ Unspoiled s.core) →
      Goes env P s.core ⟨none, none, none, 0, false, false⟩
        (exitStalled n s).core ⟨none, none, none, 0, false, false⟩ := by
  induction n with
  | zero =>
      intro s _
      exact Goes.refl _ _
  | succ n ih =>
      intro s hclean
      refine .assume fun hs => ?_
      unfold exitStalled
      cases hlist : s.core.ctxStalled with
      | nil => exact Goes.refl _ _
      | cons x rest =>
          obtain ⟨ctx, hget, hst⟩ := hs.head_stalled hlist
          have haborted : ioerrAborted ≠ 0 := by decide
          obtain ⟨hidle, hmore⟩ := (hs.ctxs x).idle ctx hget hst.1
          have hfresh : ctx.firstError = 0 ∨ P.spoil :=
            hclean.symm.imp (fun h => h x ctx hget hst.1) id
          let c₁ : Core :=
            { s.core with
              ctxStalled := rest
              ctxs := s.core.ctxs.modify x (fun y => { y with stalled := false }) }
          have htake : Goes env P s.core ⟨none, none, none, 0, false, false⟩ c₁
              ⟨none, none, some x, 0, false, false⟩ :=
            .move fun _ => .unstall hlist rfl rfl (.inr habort)
          have hget₁ : c₁.ctxs.get x = some { ctx with stalled := false } :=
            get_modify_self hget
          have hfail : Goes env P c₁ ⟨none, none, some x, 0, false, false⟩
              { c₁ with ctxs := c₁.ctxs.modify x (fun y =>
                { y with firstError := ioerrAborted }) }
              ⟨none, none, some x, 0, false, false⟩ :=
            .move fun _ => .ctxError ioerrAborted rfl hget₁ rfl haborted (.inr habort)
              ⟨hmore, hfresh, .inr ⟨rfl, habort⟩⟩
          dsimp only
          let s₁ := State.editCtx { s with core := { s.core with ctxStalled := rest } } x
            (fun y => { y with stalled := false, firstError := ioerrAborted })
          have hgo : Goes env P s.core ⟨none, none, none, 0, false, false⟩ s₁.core
              ⟨none, none, some x, 0, false, false⟩ := by
            have hmm : c₁.ctxs.modify x (fun y => { y with firstError := ioerrAborted }) =
                s₁.core.ctxs :=
              Heap.modify_modify s.core.ctxs x (fun y => { y with stalled := false })
                (fun y => { y with firstError := ioerrAborted })
            rw [hmm] at hfail
            exact htake.trans hfail
          have hget₂ : s₁.core.ctxs.get x =
              some { ctx with stalled := false, firstError := ioerrAborted } :=
            get_modify_self hget
          have hfin : Goes env P s₁.core ⟨none, none, some x, 0, false, false⟩
              (nvmeIoContextFinish s₁ x).core ⟨none, none, none, 0, false, false⟩ :=
            nvmeIoContextFinish_spec hget₂ hidle rfl (.inl haborted)
          have hall := hgo.trans hfin
          have hclean' := ((keeps_unspoiled env P).path (hall hs) ⟨hs, hclean⟩).2
          exact hall.trans (ih hclean')

theorem unitTaskExit_spec (habort : P.abort) (hclean : P.spoil ∨ Unspoiled s.core)
    (hqueue : P.queue) :
    Goes env P s.core ⟨none, none, none, 0, false, false⟩ (unitTaskExit s).core
      ⟨none, none, none, 0, false, false⟩ := by
  refine .assume fun hs => ?_
  have hpend := @exitPending_spec env P habort hqueue s.core.ioPending.length s
  have hclean' := ((keeps_unspoiled env P).path (hpend hs) ⟨hs, hclean⟩).2
  exact hpend.trans (exitStalled_spec habort _ hclean')

end Exit

/-! ### Other tasks -/

section Others

theorem nvmeGetFwSlotInfo_spec {h : Hand} :
    Goes env P s.core h (nvmeGetFwSlotInfo env s).core h := by
  refine .assume fun hs => ?_
  unfold nvmeGetFwSlotInfo State.allocate
  cases env.alloc s.core.allocs with
  | none => exact .move fun _ => .burn 1
  | some buffer =>
      dsimp only
      have hburn : Goes env P s.core h { s.core with allocs := s.core.allocs + 1 } h :=
        .move fun _ => .burn 1
      have hsub := (@nvmeSubmitAsyncCmd_spec env P h
        { s with core := { s.core with allocs := s.core.allocs + 1 } }
        { opcode := nvmeAdminGetLogPage, nsid := 0xFFFFFFFF
          cdw10 := 127 * 2 ^ 16 + 3 } (some (buffer, 512)) .fwSlotInfoDone (some buffer) false
        (hburn.safe hs)).plain rfl
      generalize nvmeSubmitAsyncCmd env
        { s with core := { s.core with allocs := s.core.allocs + 1 } } _
        (some (buffer, 512)) .fwSlotInfoDone (some buffer) false = p at hsub ⊢
      obtain ⟨s₁, ret⟩ := p
      dsimp only at hsub ⊢
      split
      · exact (hburn.trans hsub).trans (Goes.note (.dmaFreeOther buffer) rfl)
      · exact hburn.trans hsub

/-- The controller LIVE again at the end of a firmware activation. -/
def reactivated (s : State) : State :=
  nvmeUnquiesceIoQueues (nvmeChangeCtrlState (nvmeChangeCtrlState
    { s with core := { s.core with fwActRunning := false } } .connecting).1 .live).1

theorem reactivated_core (hst : s.core.state = .resetting) :
    (reactivated s).core =
      { stamp { s.core with fwActRunning := false, state := .live } s.core.allocs
          [.phase .live, .phase .connecting] with stopped := false } := by
  unfold reactivated nvmeChangeCtrlState
  simp only [hst, ctrlTransition, if_true, Core.log]
  rfl

theorem reactivated_spec {h : Hand} (hstir : P.stir) (hrun : s.core.fwActRunning = true) :
    Goes env P s.core h (reactivated s).core h := by
  refine .assume fun hs => ?_
  rw [reactivated_core (hs.phase.fw (.inr hrun))]
  exact .move fun _ => .phase hstir (.fwLive hrun (hs.phase.once hrun))

theorem fwActEnd_false (hst : s.core.state = .resetting) :
    fwActEnd env s false = nvmeSubmitAer env (nvmeGetFwSlotInfo env (reactivated s)) := by
  unfold fwActEnd reactivated nvmeChangeCtrlState
  simp only [hst, ctrlTransition, if_true, Core.log, Bool.false_eq_true, if_false]

theorem fwActEnd_spec {h : Hand} (timeout : Bool) (hstir : P.stir)
    (hrun : s.core.fwActRunning = true) (htime : timeout = true → P.timeout) :
    Goes env P s.core h (fwActEnd env s timeout).core h := by
  refine .assume fun hs => ?_
  cases timeout with
  | true => exact .move fun _ => .phase hstir (.fwTimeout hrun (htime rfl))
  | false =>
      rw [fwActEnd_false (hs.phase.fw (.inr hrun))]
      exact (reactivated_spec hstir hrun).trans
        (nvmeGetFwSlotInfo_spec.trans nvmeSubmitAer_spec)

theorem collectWaiter_spec {h : Hand} : Goes env P s.core h (collectWaiter s).core h := by
  unfold collectWaiter
  split
  · exact Goes.refl _ _
  · rename_i hw
    exact .move fun _ => .collect hw

end Others

end Refine
end NvmeDriver
