import NvmeDriver.Runs.AdminTable

/-!
# Completing admin commands

The callback of the asynchronous event request posts the next one, and the last command of
a rebuild posts the first one of the new queue; no other completion changes how many there
are.
-/

namespace NvmeDriver
namespace Runs

open Engine
open Lib
open Ownership
open Refine

variable {env : Env} {s t : State} {r : Request} {e : Prop} {o : Bool}

/-! ### The phase -/

section Phase

theorem nvmeChangeCtrlState_same (s : State) (st : CtrlState) :
    (nvmeChangeCtrlState s st).1.core.adminTab = s.core.adminTab ∧
      (nvmeChangeCtrlState s st).1.core.retryList = s.core.retryList := by
  unfold nvmeChangeCtrlState
  split <;> exact ⟨rfl, rfl⟩

theorem nvmeChangeCtrlState_not_live {st : CtrlState} (hst : st ≠ .live)
    (hlive : s.core.state ≠ .live) : (nvmeChangeCtrlState s st).1.core.state ≠ .live := by
  unfold nvmeChangeCtrlState
  split
  · exact hst
  · exact hlive

theorem nvmeResetFinish_not_live (hlive : s.core.state ≠ .live) :
    (nvmeResetFinish env s false).core.state ≠ .live := by
  have hdel : (nvmeChangeCtrlState (s.log (.resetFinish false)) .deleting).1.core.state ≠ .live :=
    nvmeChangeCtrlState_not_live (fun h => nomatch h) hlive
  exact nvmeChangeCtrlState_not_live (fun h => nomatch h) hdel

theorem rebuildFailed_not_live (hlive : s.core.state ≠ .live) :
    (rebuildFailed env s).core.state ≠ .live :=
  nvmeResetFinish_not_live hlive

theorem onQueue_state {q : QueueId} (h : OnQueue q s t) : t.core.state = s.core.state := by
  obtain ⟨⟨tab, ring, n, es, hcore, -⟩, -⟩ := h
  rw [hcore]
  cases q <;> rfl

/-- A step of the rebuild is submitted, or the reset fails. -/
theorem submitStep_not_live {fail : State → State}
    (hfail : ∀ t : State, t.core.state ≠ .live → (fail t).core.state ≠ .live)
    (hlive : s.core.state ≠ .live) (cmd : Command) (d : Done) :
    (match nvmeSubmitAsyncCmd env s cmd none d none false with
      | (s₁, ret) => if ret ≠ 0 then fail s₁ else s₁).core.state ≠ .live := by
  have hframe : OnQueue .admin s (nvmeSubmitAsyncCmd env s cmd none d none false).1 :=
    OnQueue.nvmeSubmitAsyncCmd s _ _ _ _ _
  generalize nvmeSubmitAsyncCmd env s cmd none d none false = p at hframe ⊢
  obtain ⟨s₁, ret⟩ := p
  have hlive₁ : s₁.core.state ≠ .live := by
    rw [onQueue_state hframe]
    exact hlive
  dsimp only
  split
  · exact hfail s₁ hlive₁
  · exact hlive₁

theorem nvmeIoSetupAsyncFeatures_not_live (hlive : s.core.state ≠ .live) (status : Nat) :
    (nvmeIoSetupAsyncFeatures env s status).core.state ≠ .live := by
  unfold nvmeIoSetupAsyncFeatures
  split
  · exact nvmeResetFinish_not_live hlive
  · have hframe : OnQueue .io s (nvmeSetupQueue env s .io nvmeIoQueueSize).1 :=
      OnQueue.nvmeSetupQueue s .io _
    generalize nvmeSetupQueue env s .io nvmeIoQueueSize = p at hframe ⊢
    obtain ⟨s₁, ok⟩ := p
    have hlive₁ : s₁.core.state ≠ .live := by
      rw [onQueue_state hframe]
      exact hlive
    cases ok with
    | false => exact nvmeResetFinish_not_live hlive₁
    | true => exact submitStep_not_live (fun _ => rebuildFailed_not_live) hlive₁ _ _

theorem nvmeIoSetupAsyncCq_not_live (hlive : s.core.state ≠ .live) (status : Nat) :
    (nvmeIoSetupAsyncCq env s status).core.state ≠ .live := by
  unfold nvmeIoSetupAsyncCq
  split
  · exact rebuildFailed_not_live hlive
  · exact submitStep_not_live (fun _ => rebuildFailed_not_live) hlive _ _

theorem nvmeCompleteAsyncEvent_not_live (hlive : s.core.state ≠ .live) (status result : Nat) :
    (nvmeCompleteAsyncEvent s status result).core.state ≠ .live := by
  unfold nvmeCompleteAsyncEvent nvmeHandleAenNotice
  split
  · exact hlive
  · split
    · split
      · exact hlive
      · split
        · have hchange : (nvmeChangeCtrlState s .resetting).1.core.state ≠ .live :=
            nvmeChangeCtrlState_not_live (fun h => nomatch h) hlive
          generalize nvmeChangeCtrlState s .resetting = p at hchange ⊢
          obtain ⟨s₁, _ | _⟩ := p <;> exact hchange
        · exact hlive
    · split <;> exact hlive

/-- Only the end of a rebuild makes the controller LIVE. -/
theorem runDone_not_live {d : Done} (hlive : s.core.state ≠ .live)
    (hfailed : d = .ioSetupAsyncSq → r.status ≠ 0) : (runDone env s r d).core.state ≠ .live := by
  cases d with
  | abortDone => exact hlive
  | aerDone =>
      have hframe : OnQueue .admin
          ((nvmeCompleteAsyncEvent s r.status r.result).log (.reqFree r.id))
          (runDone env s r .aerDone) := OnQueue.nvmeSubmitAsyncCmd _ _ _ _ _ _
      rw [onQueue_state hframe]
      exact nvmeCompleteAsyncEvent_not_live hlive r.status r.result
  | fwSlotInfoDone =>
      unfold runDone
      cases r.priv <;> exact hlive
  | ioSetupAsyncFeatures =>
      exact @nvmeIoSetupAsyncFeatures_not_live env (s.log (.reqFree r.id)) hlive r.status
  | ioSetupAsyncCq => exact @nvmeIoSetupAsyncCq_not_live env (s.log (.reqFree r.id)) hlive r.status
  | ioSetupAsyncSq =>
      unfold runDone nvmeIoSetupAsyncSq
      rw [if_pos (hfailed rfl)]
      exact @rebuildFailed_not_live env (s.log (.reqFree r.id)) hlive

end Phase

/-! ### Steps of a rebuild -/

section Rebuild

theorem Quota.resetFailed (hq : Quota s) : Quota (nvmeResetFinish env s false) := by
  obtain ⟨htab, hlist⟩ := nvmeChangeCtrlState_same (s.log (.resetFinish false)) .deleting
  obtain ⟨htab', hlist'⟩ := nvmeChangeCtrlState_same
    (nvmeChangeCtrlState (s.log (.resetFinish false)) .deleting).1 .dead
  exact hq.same (htab'.trans htab) (hlist'.trans hlist)

theorem Quota.rebuildFailed (hq : Quota s) : Quota (rebuildFailed env s) :=
  (hq.same (t := nvmeTeardownQueue s .io) rfl rfl).resetFailed

/-- The next step is submitted, or the reset fails. -/
theorem Quota.submitStep {fail : State → State} (hq : Quota s)
    (hfail : ∀ t : State, Quota t → Quota (fail t)) (ht : TabOk .admin s.core.adminTab)
    (hzero : aers s = 0) (cmd : Command) {d : Done} (hd : d ≠ .aerDone) :
    Quota (match nvmeSubmitAsyncCmd env s cmd none d none false with
      | (s₁, ret) => if ret ≠ 0 then fail s₁ else s₁) := by
  have hframe : OnQueue .admin s (nvmeSubmitAsyncCmd env s cmd none d none false).1 :=
    OnQueue.nvmeSubmitAsyncCmd s _ _ _ _ _
  have hadds : ∀ p, Adds p s (one (p (some d) false))
      (nvmeSubmitAsyncCmd env s cmd none d none false) := fun p => adds_async ht _ _ _ _ _
  have hheld : HeldQuota s (ofKind (some d) false) := by
    refine ⟨hq, mismarked_eq_false (fun h => hd (Option.some.inj h)) rfl, hq.single, ?_⟩
    exact fun _ => hzero
  generalize nvmeSubmitAsyncCmd env s cmd none d none false = p at hframe hadds ⊢
  obtain ⟨s₁, ret⟩ := p
  have hquota : Quota s₁ := (hheld.grows (onQueue_admin hframe).1 hadds).1
  dsimp only
  split
  · exact hfail s₁ hquota
  · exact hquota

theorem Quota.features (hq : Quota s) (ht : TabOk .admin s.core.adminTab) (hzero : aers s = 0)
    (status : Nat) : Quota (nvmeIoSetupAsyncFeatures env s status) := by
  unfold nvmeIoSetupAsyncFeatures
  split
  · exact hq.resetFailed
  · have hio : IoOnly s (nvmeSetupQueue env s .io nvmeIoQueueSize).1 :=
      IoOnly.onQueue (OnQueue.nvmeSetupQueue s .io _) rfl
    generalize nvmeSetupQueue env s .io nvmeIoQueueSize = p at hio ⊢
    obtain ⟨s₁, ok⟩ := p
    have hq₁ : Quota s₁ := hq.io hio
    have ht₁ : TabOk .admin s₁.core.adminTab := by
      rw [hio.admin]
      exact ht
    cases ok with
    | false => exact hq₁.resetFailed
    | true =>
        exact hq₁.submitStep (fun _ => Quota.rebuildFailed) ht₁ ((aers_io hio).trans hzero) _
          (fun h => nomatch h)

theorem Quota.createCq (hq : Quota s) (ht : TabOk .admin s.core.adminTab) (hzero : aers s = 0)
    (status : Nat) : Quota (nvmeIoSetupAsyncCq env s status) := by
  unfold nvmeIoSetupAsyncCq
  split
  · exact hq.rebuildFailed
  · exact hq.submitStep (fun _ => Quota.rebuildFailed) ht hzero _ (fun h => nomatch h)

theorem Rebuilding.chain (h : Rebuilding s) : 0 < coreReqs Key.isChain s.core := by
  unfold coreReqs
  rcases h with htab | ⟨r, hr, hrebuild⟩
  · have hpos : 0 < Slots.held (Key.isChain ∘ keyOf) s.core.adminTab.inflight := htab
    omega
  · have hpos : 0 < s.core.retryList.countP (Key.isChain ∘ keyOf) :=
      List.countP_pos_iff.mpr ⟨r, hr, hrebuild⟩
    omega

/-- A step of the rebuild runs alone, while the controller is RESETTING. -/
theorem Safe.rebuild_alone {h : Hand} (hs : Safe ⟨s.core, h⟩) (hh : h.req = some r)
    (hr : inRebuild r.done r.aer = true) :
    ¬Rebuilding s ∧ s.core.state = .resetting := by
  have hone : hit (Key.isChain ∘ keyOf) (some r) = 1 := by
    rw [hit_some, Function.comp, if_pos]
    exact hr
  have hcount : reqCount Key.isChain ⟨s.core, h⟩ = coreReqs Key.isChain s.core + 1 := by
    unfold reqCount
    rw [hh, hone]
  obtain ⟨hchain, hstate, -⟩ := hs.phase.chain (by rw [hcount]; exact Nat.succ_ne_zero _)
  refine ⟨fun hre => ?_, hstate⟩
  have hpos := hre.chain
  omega

/-- The end of a rebuild: the first asynchronous event request of the new queue. -/
theorem Bare.startCtrl {h : Hand} (hb : Bare s) (hs : Safe ⟨s.core, h⟩)
    (harm : e → (nvmeEnableAen env s).core.unitBlocked = false →
      ¬aerFails env (nvmeEnableAen env s)) :
    Counted e (nvmeStartCtrl env s) := by
  have hsafe := (@nvmeEnableAen_spec env Refine.Policy.all h s trivial hs).1.safe hs
  have hbare : Bare (nvmeEnableAen env s) := by
    unfold nvmeEnableAen
    dsimp only
    split
    · exact hb
    · have hframe : OnQueue .admin s (nvmeSubmitSyncCmd env s .unitTask
          { opcode := nvmeAdminSetFeatures, cdw10 := nvmeFeatAsyncEvent
            cdw11 := nvmeAenSupported &&& env.cfg.oaes } none).1 :=
        OnQueue.nvmeSubmitSyncCmd s _ _ _
      have hadds := fun p => @adds_sync env s p (hs.tabs .admin) .unitTask
        { opcode := nvmeAdminSetFeatures, cdw10 := nvmeFeatAsyncEvent
          cdw11 := nvmeAenSupported &&& env.cfg.oaes } none
      generalize nvmeSubmitSyncCmd env s .unitTask _ none = p at hframe hadds ⊢
      obtain ⟨s₁, ret⟩ := p
      have hb₁ : Bare s₁ := hb.adds hframe hadds (fun h => nomatch h) rfl
      dsimp only
      split
      · exact hb₁.same rfl rfl
      · exact hb₁
  unfold nvmeStartCtrl
  dsimp only
  generalize nvmeEnableAen env s = s₁ at hsafe hbare harm ⊢
  split
  · rename_i hblocked
    exact ⟨hbare.quota, fun _ _ hrun => absurd hblocked (by rw [hrun]; exact Bool.false_ne_true)⟩
  · have hc := hbare.aer (hsafe.tabs .admin) (fun he _ hrun => harm he hrun)
    exact ⟨hc.quota.same rfl rfl, hc.exact⟩

end Rebuild

/-! ### Callbacks -/

section Callbacks

/-- No submission of an asynchronous event request fails in the callback. -/
structure CallbackArms (env : Env) (s : State) (r : Request) : Prop where
  rearm : r.done = some .aerDone → s.core.state = .live →
    ¬aerFails env ((nvmeCompleteAsyncEvent s r.status r.result).log (.reqFree r.id))
  start : r.done = some .ioSetupAsyncSq → r.status = 0 →
    let s₁ := nvmeEnableAen env (restarted env (s.log (.reqFree r.id)))
    s₁.core.unitBlocked = false → ¬aerFails env s₁

theorem nvmeCompleteAsyncEvent_same (s : State) (status result : Nat) :
    (nvmeCompleteAsyncEvent s status result).core.adminTab = s.core.adminTab ∧
      (nvmeCompleteAsyncEvent s status result).core.retryList = s.core.retryList := by
  unfold nvmeCompleteAsyncEvent nvmeHandleAenNotice
  split
  · exact ⟨rfl, rfl⟩
  · split
    · split
      · exact ⟨rfl, rfl⟩
      · split
        · have hchange := nvmeChangeCtrlState_same s .resetting
          generalize nvmeChangeCtrlState s .resetting = p at hchange ⊢
          obtain ⟨s₁, _ | _⟩ := p <;> exact hchange
        · exact ⟨rfl, rfl⟩
    · split <;> exact ⟨rfl, rfl⟩

/-- `aer_done` posts the next request in the place of its own. -/
theorem HeldQuota.aerDone (hq : HeldQuota s r) (ht : TabOk .admin s.core.adminTab)
    (haer : r.aer = true)
    (harm : e → s.core.state = .live →
      ¬aerFails env ((nvmeCompleteAsyncEvent s r.status r.result).log (.reqFree r.id))) :
    Counted e (runDone env s r .aerDone) := by
  obtain ⟨htab, hlist⟩ := nvmeCompleteAsyncEvent_same s r.status r.result
  have hlive := @nvmeCompleteAsyncEvent_not_live s
  have hsingle := hq.single
  have hrebuild := hq.rebuild
  rw [haer] at hsingle hrebuild
  have hzero : aers s = 0 := Nat.le_zero.mp (Nat.le_of_succ_le_succ hsingle)
  have hnot : ¬Rebuilding s := fun h => Nat.succ_ne_zero _ (hrebuild (.inr h))
  have hbare : Bare s := ⟨hq.table, hzero, hnot⟩
  have hbare₁ : Bare ((nvmeCompleteAsyncEvent s r.status r.result).log (.reqFree r.id)) :=
    hbare.same htab hlist
  refine hbare₁.aer (htab ▸ ht) fun he hnow _ => harm he ?_
  by_contra hno
  exact hlive hno r.status r.result hnow

/-- The last command of a rebuild has succeeded. -/
theorem HeldQuota.restart (hq : HeldQuota s r)
    (hs : Safe ⟨s.core, ⟨none, some r, none, 0, false, o⟩⟩)
    (hdone : r.done = some .ioSetupAsyncSq)
    (harm : e →
      (nvmeEnableAen env (restarted env (s.log (.reqFree r.id)))).core.unitBlocked = false →
      ¬aerFails env (nvmeEnableAen env (restarted env (s.log (.reqFree r.id))))) :
    Counted e (nvmeIoSetupAsyncSq env (s.log (.reqFree r.id)) 0) := by
  have hr : inRebuild r.done r.aer = true := by
    rw [hdone]
    rfl
  obtain ⟨hnot, hstate⟩ := Safe.rebuild_alone hs rfl hr
  have hzero : aers s = 0 := Nat.eq_zero_of_add_eq_zero_right (hq.rebuild (.inl hr))
  obtain ⟨rfl, -, hfreed⟩ := @Goes.chainFreed env Refine.Policy.all s r none 0 false o _ hdone hr hs
  have hgo := hfreed.trans (@restarted_spec env Refine.Policy.all
    ⟨none, none, none, 0, false, true⟩ (s.log (.reqFree r.id)) trivial rfl)
  have hcore := @restarted_core (s.log (.reqFree r.id)) env hstate
  have htab : (restarted env (s.log (.reqFree r.id))).core.adminTab = s.core.adminTab := by
    rw [hcore]
    rfl
  have hlist : (restarted env (s.log (.reqFree r.id))).core.retryList = s.core.retryList := by
    rw [hcore]
    rfl
  have hsafe := hgo.safe hs
  rw [nvmeIoSetupAsyncSq_zero]
  generalize restarted env (s.log (.reqFree r.id)) = s₁ at harm hsafe htab hlist ⊢
  have hbare : Bare s := ⟨hq.table, hzero, hnot⟩
  have hc := (hbare.same htab hlist).startCtrl hsafe harm
  split
  · exact hc
  · exact ⟨hc.quota.same rfl rfl, hc.exact⟩

/-- Every callback keeps the quota. -/
theorem HeldQuota.runDone {d : Done} (hq : HeldQuota s r) (he : e → HeldExact s r)
    (hs : Safe ⟨s.core, ⟨none, some r, none, 0, false, o⟩⟩) (hdone : r.done = some d)
    (harms : e → CallbackArms env s r) : Counted e (runDone env s r d) := by
  have hlog : ∀ u : State, IoOnly u (u.log (.reqFree r.id)) := fun u => IoOnly.log u _
  have hzero : inRebuild r.done r.aer = true → aers s = 0 := fun hr =>
    Nat.eq_zero_of_add_eq_zero_right (hq.rebuild (.inl hr))
  have hlive : inRebuild r.done r.aer = true → s.core.state ≠ .live := by
    intro hr
    rw [(Safe.rebuild_alone hs rfl hr).2]
    exact fun h => nomatch h
  rw [hdone] at hzero hlive
  have hdrop : d ≠ .aerDone → Counted e s := fun hne =>
    hq.drop (by rw [hdone]; exact fun h => hne (Option.some.inj h)) he
  have hq₁ : Quota (s.log (.reqFree r.id)) := hq.table.io (hlog s)
  cases d with
  | abortDone => exact (hdrop (fun h => nomatch h)).io (hlog s)
  | aerDone =>
      exact hq.aerDone (hs.tabs .admin) (hq.aer_iff.mpr hdone) fun h => (harms h).rearm hdone
  | fwSlotInfoDone =>
      unfold Engine.runDone
      cases r.priv with
      | none => exact (hdrop (fun h => nomatch h)).io (hlog s)
      | some a => exact (hdrop (fun h => nomatch h)).io ((IoOnly.log s _).trans (hlog _))
  | ioSetupAsyncFeatures =>
      refine ⟨hq₁.features (hs.tabs .admin) (hzero rfl) r.status, fun _ => ?_⟩
      exact Exact.of_not_live (runDone_not_live (hlive rfl) (fun h => nomatch h))
  | ioSetupAsyncCq =>
      refine ⟨hq₁.createCq (hs.tabs .admin) (hzero rfl) r.status, fun _ => ?_⟩
      exact Exact.of_not_live (runDone_not_live (hlive rfl) (fun h => nomatch h))
  | ioSetupAsyncSq =>
      by_cases hst : r.status = 0
      · unfold Engine.runDone
        rw [hst]
        exact hq.restart hs hdone fun h => (harms h).start hdone hst
      · refine ⟨?_, fun _ => Exact.of_not_live (runDone_not_live (hlive rfl) (fun _ => hst))⟩
        unfold Engine.runDone nvmeIoSetupAsyncSq
        rw [if_pos hst]
        exact hq₁.rebuildFailed

end Callbacks

/-! ### `nvme_complete_rq` -/

section Completion

/-- The completion is put off: the status asks for a retry after a delay. -/
def Delayed (r : Request) : Prop := nvmeDecideDisposition r = .retry ∧ statusCrd r.status ≠ 0

instance (r : Request) : Decidable (Delayed r) := inferInstanceAs (Decidable (_ ∧ _))

/-- No submission of an asynchronous event request fails when the request completes. -/
structure Arms (env : Env) (s : State) (r : Request) : Prop where
  callback : nvmeDecideDisposition r = .complete → CallbackArms env (nvmeCleanupCmd s r).1 r
  again : nvmeDecideDisposition r = .retry → r.done = some .aerDone →
    s.core.state = .live → ¬sqFull s .admin

theorem HeldQuota.complete (hq : HeldQuota s r) (he : e → HeldExact s r)
    (hs : Safe ⟨s.core, ⟨none, some r, none, 0, false, o⟩⟩) (hqueue : r.q = .admin)
    (harms : e → CallbackArms env (nvmeCleanupCmd s r).1 r) :
    Counted e (completeRequest env s r) := by
  have hio : IoOnly s (nvmeCleanupCmd s r).1 :=
    IoOnly.onQueue (OnQueue.nvmeCleanupCmd .io s r) rfl
  have hsafe := (@nvmeCleanupCmd_spec env Refine.Policy.all s r none 0 false o).safe hs
  have hctx : r.ctx = none := by
    by_contra hne
    have hqio : r.q = .io := ((hs.sound_hand rfl).1 hne).2
    rw [hqueue] at hqio
    cases hqio
  rw [completeRequest_endReq hctx]
  generalize (nvmeCleanupCmd s r).1 = s₁ at hio hsafe harms ⊢
  have hq₁ : HeldQuota s₁ r.withoutDma := (hq.io hio).alter rfl rfl
  have he₁ : e → HeldExact s₁ r.withoutDma := fun h => (he h).io hio
  unfold endReq
  cases hd : r.withoutDma.done with
  | some d => exact hq₁.runDone he₁ hsafe hd fun h => ⟨(harms h).rearm, (harms h).start⟩
  | none =>
      have hdrop : Counted e s₁ := hq₁.drop (by rw [hd]; exact (Option.some_ne_none _).symm) he₁
      cases r.withoutDma.waiter with
      | some w => exact hdrop.io (IoOnly.of_eq rfl rfl rfl rfl)
      | none =>
          cases r.withoutDma.io with
          | some i => exact hdrop.io ((IoOnly.log _ _).trans (IoOnly.log _ _))
          | none => exact hdrop

/-- A request that is no event request is parked. -/
theorem HeldQuota.park (hq : HeldQuota s r) (he : e → HeldExact s r)
    (hdone : r.done ≠ some .aerDone) {l : List Request} (hlist : t.core.retryList = l ++ [r])
    (hold : s.core.retryList = l) (hadmin : t.core.adminTab = s.core.adminTab)
    (hstate : t.core.state = s.core.state)
    (hblocked : t.core.unitBlocked = s.core.unitBlocked) : Counted e t := by
  have haer := hq.not_aer hdone
  have haers : aers t = aers s := by
    unfold aers
    rw [hadmin]
  refine ⟨⟨?_, ?_, ?_, ?_⟩, fun h => ?_⟩
  · rw [hadmin]
    exact hq.table.marked
  · rw [hlist]
    intro r' hr' hadm
    rcases List.mem_append.mp hr' with hr' | hr'
    · exact hq.table.parked r' (hold ▸ hr') hadm
    · rw [List.mem_singleton.mp hr']
      exact ⟨hdone, haer⟩
  · rw [haers]
    exact hq.table.single
  · rw [haers]
    have hzero := hq.rebuild
    rw [haer] at hzero
    rintro (htab | ⟨r', hr', hre⟩)
    · rw [hadmin] at htab
      exact hzero (.inr (.inl htab))
    · rw [hlist] at hr'
      rcases List.mem_append.mp hr' with hr' | hr'
      · exact hzero (.inr (.inr ⟨r', hold ▸ hr', hre⟩))
      · rw [List.mem_singleton.mp hr', haer] at hre
        exact hzero (.inl hre)
  · unfold Exact
    rw [hstate, hblocked, haers]
    exact (he h).drop haer

theorem nvmeResubmitIo_nil {complete : State → Request → State}
    (hfree : (s.tab r.q).freeStack = []) :
    nvmeResubmitIo env complete s r = complete s { r with status := nvmeScHostPathError } := by
  unfold nvmeResubmitIo nvmeAllocCid
  rw [hfree]

theorem nvmeResubmitIo_cons {complete : State → Request → State} {q : QueueId} (hq : r.q = q)
    {cid : Nat} {rest : List Nat} (hfree : (s.tab q).freeStack = cid :: rest) :
    nvmeResubmitIo env complete s r =
      (nvmeSubmitIo env (s.setTab q (nvmeInflightClaim (popped (s.tab q) rest) cid
        { r with cid := cid, cmd := { r.cmd with commandId := cid } })) q (cidTag cid)).1 := by
  subst hq
  unfold nvmeResubmitIo nvmeAllocCid
  rw [hfree]
  rfl

/-- `nvme_resubmit_io` puts the request back, gives it up or loses it. -/
theorem HeldQuota.resubmit {complete : State → Request → State} (hq : HeldQuota s r)
    (he : e → HeldExact s r) (ht : TabOk .admin s.core.adminTab) (hqueue : r.q = .admin)
    (hroom : e → r.done = some .aerDone → s.core.state = .live → ¬sqFull s .admin)
    (hcomplete : s.core.adminTab.freeStack = [] →
      Counted e (complete s { r with status := nvmeScHostPathError })) :
    Counted e (nvmeResubmitIo env complete s r) := by
  cases hfree : (s.tab .admin).freeStack with
  | nil =>
      rw [nvmeResubmitIo_nil (by rw [hqueue]; exact hfree)]
      exact hcomplete hfree
  | cons cid rest =>
      rw [nvmeResubmitIo_cons hqueue hfree]
      let r₁ : Request := { r with cid := cid, cmd := { r.cmd with commandId := cid } }
      let s₁ := s.setTab .admin (nvmeInflightClaim (popped (s.tab .admin) rest) cid r₁)
      have hh : Holding s.core .admin cid rest s₁ r₁ [] := Holding.reclaimed ht hfree rfl
      have hframe : OnQueue .admin s (nvmeSubmitIo env s₁ .admin (cidTag cid)).1 :=
        (OnQueue.setTab s .admin _).trans (OnQueue.nvmeSubmitIo s₁ .admin (cidTag cid))
      obtain ⟨hlist, hstate, hblocked⟩ := onQueue_admin hframe
      have hgrow := fun p => @tally_submit env s p _ _ _ _ _ hh
      have hok : ¬sqFull s .admin → (nvmeSubmitIo env s₁ .admin (cidTag cid)).2 = nvmeIoAsync := by
        intro hno
        rw [hh.nvmeSubmitIo, if_neg (fun h => hno (hh.sqFull.mp h))]
      change Counted e (nvmeSubmitIo env s₁ .admin (cidTag cid)).1
      generalize nvmeSubmitIo env s₁ .admin (cidTag cid) = p at hgrow hok hlist hstate hblocked ⊢
      obtain ⟨s₂, err⟩ := p
      dsimp only at hgrow hok hlist hstate hblocked ⊢
      have hq₁ : HeldQuota s r₁ := hq.alter rfl rfl
      obtain ⟨hquota, haers⟩ := hq₁.grows hlist hgrow
      refine ⟨hquota, fun h => ?_⟩
      unfold Exact
      rw [hstate, hblocked, haers]
      intro hlive hrun
      have hone := he h hlive hrun
      by_cases haer : r.aer = true
      · rw [if_pos (hok (hroom h (hq.aer_iff.mp haer) hlive))]
        exact hone
      · have hzero : one r₁.aer = 0 := if_neg haer
        rw [hzero, ite_self]
        exact (congrArg (aers s + ·) hzero).symm.trans hone

/-- `nvme_complete_rq` of an admin request, which is not put off if it is an event
request. -/
theorem HeldQuota.completeRq (n : Nat) :
    ∀ {r : Request}, HeldQuota s r → (e → HeldExact s r) →
      Safe ⟨s.core, ⟨none, some r, none, 0, false, o⟩⟩ → r.q = .admin →
      (r.done = some .aerDone → n ≠ 0 ∧ ¬Delayed r ∧ s.core.adminTab.freeStack ≠ []) →
      (e → Arms env s r) → Counted e (completeRq env n s r) := by
  induction n with
  | zero =>
      intro r hq he _ _ haer _
      have hdone : r.done ≠ some .aerDone := fun h => (haer h).1 rfl
      exact (hq.drop hdone he).io (IoOnly.log s .fault)
  | succ n ih =>
      intro r hq he hs hqueue haer harms
      unfold Engine.completeRq
      cases hdis : nvmeDecideDisposition r with
      | complete => exact hq.complete he hs hqueue fun h => (harms h).callback hdis
      | retry =>
          have hrestate : s.core.adminTab.freeStack = [] → Goes env Refine.Policy.all s.core
              ⟨none, some r, none, 0, false, o⟩ s.core
              ⟨none, some { r with status := nvmeScHostPathError, retries := r.retries + 1 },
                none, 0, false, o⟩ := fun hfree =>
            (Goes.retried hdis).trans
              (Goes.noTag (by dsimp only; rw [hqueue]; exact hfree) (Nat.succ_ne_zero _)
                ((hs.writes.hand r rfl).2.2 hdis))
          unfold nvmeRetryReq
          dsimp only
          split
          · rename_i hcrd
            have hdone : r.done ≠ some .aerDone := fun h => (haer h).2.1 ⟨hdis, hcrd⟩
            have hq₁ : HeldQuota s { r with
                status := 0
                retries := r.retries + 1
                deadlineUs := ((s.getTime env).1 +
                  env.cfg.crdt (statusCrd r.status - 1) * 100 * 1000) % 2 ^ 32 } :=
              hq.alter rfl rfl
            exact hq₁.park he hdone rfl rfl rfl rfl rfl
          · have hq₁ : HeldQuota s { r with status := 0, retries := r.retries + 1 } :=
              hq.alter rfl rfl
            refine hq₁.resubmit he (hs.tabs .admin) hqueue (fun h => (harms h).again hdis) ?_
            intro hfree
            refine ih (hq.alter rfl rfl) he ((hrestate hfree).safe hs) hqueue ?_ ?_
            · exact fun h => absurd hfree (haer h).2.2
            · intro h
              refine ⟨fun _ => ⟨fun hd => absurd hfree (haer hd).2.2, ?_⟩, ?_⟩
              · exact fun _ hzero => absurd hzero (by decide : nvmeScHostPathError ≠ 0)
              · exact fun _ hd => absurd hfree (haer hd).2.2

theorem HeldQuota.nvmeCompleteRq (hq : HeldQuota s r) (he : e → HeldExact s r)
    (hs : Safe ⟨s.core, ⟨none, some r, none, 0, false, o⟩⟩) (hqueue : r.q = .admin)
    (haer : r.done = some .aerDone → ¬Delayed r ∧ s.core.adminTab.freeStack ≠ [])
    (harms : e → Arms env s r) : Counted e (nvmeCompleteRq env s r) :=
  hq.completeRq _ he hs hqueue
    (fun h => ⟨Nat.succ_ne_zero _, (haer h).1, (haer h).2⟩) harms

end Completion

end Runs
end NvmeDriver
