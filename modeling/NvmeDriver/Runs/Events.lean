import NvmeDriver.Runs.Rearm
import NvmeDriver.Runs.Exit

/-!
# The asynchronous event request over whole runs

Three places post an asynchronous event request: the callback of the last one, the end of
a rebuild and the end of a firmware activation.  A run keeps at most one outstanding as
long as no activation ends while one is, and exactly one while the controller is LIVE and
no submission fails.
-/

namespace NvmeDriver
namespace Runs

open Engine
open Lib
open Ownership
open Refine

variable {env : Env} {s t : State} {r : Request} {e : Prop} {o : Bool}

/-- Nothing is in hand and the quota holds. -/
structure Within (e : Prop) (s : State) : Prop where
  safe : Safe ⟨s.core, ⟨none, none, none, 0, false, false⟩⟩
  counted : Counted e s

theorem Within.io (hw : Within e s) (h : IoOnly s t)
    (hs : Safe ⟨t.core, ⟨none, none, none, 0, false, false⟩⟩) : Within e t :=
  ⟨hs, hw.counted.io h⟩

/-- A request of the I/O queue has no callback and no waiter. -/
theorem plain_of_sound (hsound : (keyOf r).Sound) (hq : r.q = .io) : Plain r :=
  ⟨hq, (hsound.2.2 hq).2.1, (hsound.2.2 hq).2.2⟩

/-! ### Taking requests out -/

section Release

theorem Quota.release (hq : Quota s) {cid : Nat} (hslot : s.slot .admin (cidTag cid) = some r)
    (htab : t.core.adminTab = nvmeInflightRelease s.core.adminTab cid)
    (hlist : t.core.retryList = s.core.retryList) :
    HeldQuota t r ∧ aers t + one r.aer = aers s := by
  have hread : s.core.adminTab.read (cidTag cid) = some r := hslot
  have htally : ∀ p, tally p t.core.adminTab + one (p r.done r.aer) =
      tally p s.core.adminTab := by
    intro p
    rw [htab]
    exact tally_release hread
  have haers : aers t + one r.aer = aers s := htally (fun _ a => a)
  have hmarked := htally mismarked
  rw [hq.marked] at hmarked
  have hback : inRebuild r.done r.aer = true ∨ Rebuilding t → Rebuilding s := by
    have hcount := htally inRebuild
    rintro (h | h | ⟨r', hr', hre⟩)
    · have hone : one (inRebuild r.done r.aer) = 1 := if_pos h
      exact .inl (by omega)
    · exact .inl (by omega)
    · exact .inr ⟨r', hlist ▸ hr', hre⟩
  refine ⟨⟨⟨?_, ?_, ?_, ?_⟩, ?_, ?_, ?_⟩, haers⟩
  · omega
  · rw [hlist]
    exact hq.parked
  · have := hq.single
    omega
  · intro hre
    have := hq.rebuild (hback (.inr hre))
    omega
  · have hzero : one (mismarked r.done r.aer) = 0 := by omega
    by_contra h
    rw [Bool.not_eq_false] at h
    rw [h] at hzero
    cases hzero
  · rw [haers]
    exact hq.single
  · rw [haers]
    exact fun hre => hq.rebuild (hback hre)

theorem Exact.release (he : Exact s) (haers : aers t + one r.aer = aers s)
    (hstate : t.core.state = s.core.state) (hblocked : t.core.unitBlocked = s.core.unitBlocked) :
    HeldExact t r := by
  unfold HeldExact
  rw [hstate, hblocked, haers]
  exact he

theorem release_freeStack {tab : SlotTable} {cid : Nat} (hread : tab.read (cidTag cid) = some r) :
    (nvmeInflightRelease tab cid).freeStack ≠ [] := by
  unfold nvmeInflightRelease
  rw [hread]
  exact List.cons_ne_nil _ _

end Release

/-! ### Draining the completion queues -/

section Drain

/-- The completion of the asynchronous event request is not put off. -/
def CqePrompt (s : State) (cqe : Cqe) : Prop :=
  ∀ r, matchCqe s .admin cqe = some r → r.aer = true → ¬Delayed (answered r cqe)

/-- No submission of an asynchronous event request fails while a CQE is handled. -/
def CqeArms (env : Env) (s : State) (cqe : Cqe) : Prop :=
  ∀ r, matchCqe s .admin cqe = some r →
    Arms env ((s.log (.cqe .admin cqe.cid r.id cqe.status)).releaseSlot .admin r.cid)
      (answered r cqe)

/-- A condition on every CQE of the admin queue, in the state that finds it. -/
def AlongDrain (env : Env) (C : State → Cqe → Prop) : List Cqe → State → Prop
  | [], _ => True
  | cqe :: rest, s =>
      C s cqe ∧ ((drainOne env s .admin cqe).core.unitBlocked = false →
        AlongDrain env C rest (drainOne env s .admin cqe))

theorem drainOne_within {cqe : Cqe} (hw : Within e s) (hprompt : CqePrompt s cqe)
    (harms : e → CqeArms env s cqe) : Within e (drainOne env s .admin cqe) := by
  have hs := hw.safe
  have hgo := @drainOne_spec env Refine.Policy.all s 0 false false .admin (fun _ => ⟨rfl, rfl⟩)
    (fun h => nomatch h) cqe (drainMeets_all env .admin [cqe] s).1
  refine ⟨hgo.safe hs, ?_⟩
  unfold drainOne
  cases hmatch : matchCqe s .admin cqe with
  | none => exact hw.counted.io (IoOnly.log s _)
  | some r =>
      obtain ⟨hslot, hcid⟩ := matchCqe_some hmatch
      have hqueue : r.q = .admin := ((hs.tabs .admin).slots _ r hslot).2
      have harms₁ := fun h => harms h r hmatch
      have hreap : Goes env Refine.Policy.all s.core ⟨none, none, none, 0, false, false⟩
          ((s.log (.cqe .admin cqe.cid r.id cqe.status)).releaseSlot .admin r.cid).core
          ⟨none, some (answered r cqe), none, 0, false, false⟩ := by
        rw [releaseSlot_core, hcid]
        exact .move fun _ => .reapCqe .admin hslot rfl rfl trivial
      dsimp only
      have htab : ((s.log (.cqe .admin cqe.cid r.id cqe.status)).releaseSlot .admin
          r.cid).core.adminTab = nvmeInflightRelease s.core.adminTab r.cid := rfl
      obtain ⟨hheld, haers⟩ := hw.counted.quota.release hslot htab rfl
      have hexact : e → HeldExact ((s.log (.cqe .admin cqe.cid r.id cqe.status)).releaseSlot
          .admin r.cid) r := fun h => (hw.counted.exact h).release haers rfl rfl
      have hread : s.core.adminTab.read (cidTag r.cid) = some r := hslot
      have hfree := release_freeStack hread
      rw [← htab] at hfree
      have hsafe := hreap.safe hs
      generalize (s.log (.cqe .admin cqe.cid r.id cqe.status)).releaseSlot .admin r.cid = s₁
        at hheld hexact hfree hsafe harms₁ ⊢
      have hheld₁ : HeldQuota s₁ (answered r cqe) := hheld.alter rfl rfl
      refine hheld₁.nvmeCompleteRq hexact hsafe hqueue ?_ harms₁
      exact fun hd => ⟨hprompt r hmatch (hheld.aer_iff.mpr hd), hfree⟩

theorem drainLoop_within (cqes : List Cqe) :
    ∀ {s : State} {head : Nat} {phase : Bool}, Within e s →
      AlongDrain env CqePrompt cqes s → (e → AlongDrain env (CqeArms env) cqes s) →
      Within e (drainLoop env .admin cqes s head phase).1 := by
  induction cqes with
  | nil => exact fun hw _ _ => hw
  | cons cqe cqes ih =>
      intro s head phase hw hprompt harms
      have hone := drainOne_within hw hprompt.1 fun h => (harms h).1
      unfold drainLoop
      dsimp only
      split
      · exact hone
      · rename_i hblk
        have hblk : (drainOne env s .admin cqe).core.unitBlocked = false := by simpa using hblk
        exact ih hone (hprompt.2 hblk) fun h => (harms h).2 hblk

theorem drainCq_within {cqes : List Cqe} (hw : Within e s)
    (hprompt : AlongDrain env CqePrompt cqes s)
    (harms : e → AlongDrain env (CqeArms env) cqes s) :
    Within e (drainCq env s .admin cqes) := by
  have hsafe := (@drainCq_admin_spec env Refine.Policy.all s false cqes (fun _ => trivial)
    (drainMeets_all env .admin cqes s)).safe hw.safe
  refine ⟨hsafe, ?_⟩
  unfold drainCq
  split
  · exact hw.counted
  · have hloop := @drainLoop_within env e cqes s (s.ring .admin).cqHead (s.ring .admin).cqPhase
      hw hprompt harms
    generalize drainLoop env .admin cqes s (s.ring .admin).cqHead (s.ring .admin).cqPhase = p
      at hloop ⊢
    obtain ⟨s₁, head, phase⟩ := p
    dsimp only at hloop ⊢
    split
    · exact hloop.counted
    · exact hloop.counted.io (IoOnly.of_eq rfl rfl rfl rfl)

theorem drainOne_io {h : Hand} (hs : Safe ⟨s.core, h⟩) (cqe : Cqe) :
    IoOnly s (drainOne env s .io cqe) := by
  unfold drainOne
  cases hmatch : matchCqe s .io cqe with
  | none => exact IoOnly.log s _
  | some r =>
      obtain ⟨hslot, -⟩ := matchCqe_some hmatch
      have hr : Plain r :=
        plain_of_sound (Safe.sound_slot hs hslot) ((hs.tabs .io).slots _ r hslot).2
      have hrelease : IoOnly s
          ((s.log (.cqe .io cqe.cid r.id cqe.status)).releaseSlot .io r.cid) :=
        IoOnly.of_eq rfl rfl rfl rfl
      have hr' : Plain (answered r cqe) := ⟨hr.queue, hr.done, hr.waiter⟩
      exact hrelease.trans (IoOnly.nvmeCompleteRq hr' _)

theorem drainLoop_io {b o : Bool} (cqes : List Cqe) :
    ∀ {s : State} {a head : Nat} {phase : Bool},
      Safe ⟨s.core, ⟨none, none, none, a, b, o⟩⟩ → s.core.ioTab.present = true →
      IoOnly s (drainLoop env .io cqes s head phase).1 := by
  induction cqes with
  | nil => exact fun _ _ => IoOnly.refl _
  | cons cqe cqes ih =>
      intro s a head phase hs hpres
      have hmeets := (drainMeets_all env .io [cqe] s).1
      have hgo : Goes env (Policy.calm Refine.Policy.all) s.core ⟨none, none, none, a, b, o⟩
          (drainOne env s .io cqe).core ⟨none, none, none, a + 1, b, o⟩ :=
        @drainOne_spec env (Policy.calm Refine.Policy.all) s a b o .io (fun h => nomatch h)
          (fun _ => hpres) cqe
          ⟨hmeets.1, fun r hr => { (hmeets.2 r hr) with admin := fun h => nomatch h }⟩
      have hkept := hgo.calm_induction (keeps_head env Refine.Policy.all s.core) hs ⟨rfl, rfl, rfl⟩
      have hone := @drainOne_io env s _ hs cqe
      unfold drainLoop
      dsimp only
      split
      · exact hone
      · exact hone.trans (ih (hgo.safe hs) (hkept.2.2.trans hpres))

theorem drainCq_io {b o : Bool} (hs : Safe ⟨s.core, ⟨none, none, none, 0, b, o⟩⟩)
    (cqes : List Cqe) : IoOnly s (drainCq env s .io cqes) := by
  unfold drainCq
  split
  · exact IoOnly.refl s
  · rename_i hsome
    rw [not_or, Bool.not_eq_false] at hsome
    have hloop := @drainLoop_io env b o cqes s 0 (s.ring .io).cqHead (s.ring .io).cqPhase hs hsome.1
    generalize drainLoop env .io cqes s (s.ring .io).cqHead (s.ring .io).cqPhase = p at hloop ⊢
    obtain ⟨s₁, head, phase⟩ := p
    dsimp only at hloop ⊢
    split
    · exact hloop
    · exact hloop.trans (IoOnly.of_eq rfl rfl rfl rfl)

theorem nvmeProcessCompletions_within {admin : List Cqe} (hw : Within e s)
    (hprompt : AlongDrain env CqePrompt admin s)
    (harms : e → AlongDrain env (CqeArms env) admin s) (io : List Cqe) :
    Within e (nvmeProcessCompletions env s admin io) := by
  have hsafe := (@nvmeProcessCompletions_spec env Refine.Policy.all s admin io
    ⟨trivial, drainMeets_all env _ _ _, fun _ => drainMeets_all env _ _ _⟩).safe hw.safe
  refine ⟨hsafe, ?_⟩
  have hadmin := drainCq_within hw hprompt harms
  unfold nvmeProcessCompletions
  dsimp only
  generalize drainCq env s .admin admin = s₁ at hadmin ⊢
  split
  · exact hadmin.counted
  · have hbegin : IoOnly s₁ (nvmeSqBatchBegin s₁ .io) := IoOnly.of_eq rfl rfl rfl rfl
    have hs₁ := (@nvmeSqBatchBegin_spec env Refine.Policy.all s₁ none 0 false).safe
      hadmin.safe
    have hdrain := hbegin.trans (@drainCq_io env (nvmeSqBatchBegin s₁ .io) true false hs₁ io)
    split
    · exact hadmin.counted.io hdrain
    · exact hadmin.counted.io
        (hdrain.trans (IoOnly.onQueue (OnQueue.nvmeSqBatchEnd _ .io) rfl))

end Drain

/-! ### Cancelling -/

section Cancel

theorem flushSlot_io (hs : Safe ⟨s.core, ⟨none, none, none, 0, false, o⟩⟩) (tag : Nat) :
    IoOnly s (flushSlot env .io s tag) := by
  unfold flushSlot
  cases hslot : s.slot .io tag with
  | none => exact IoOnly.refl s
  | some r =>
      have hr : Plain r := plain_of_sound (Safe.sound_slot hs hslot)
        ((hs.tabs .io).slots _ r hslot).2
      have hr' : Plain { r with status := nvmeScHostAbortedCmd, cancelled := true } :=
        ⟨hr.queue, hr.done, hr.waiter⟩
      have hrelease : IoOnly s ((s.releaseSlot .io r.cid).log (.cancel .io r.id)) :=
        IoOnly.of_eq rfl rfl rfl rfl
      exact hrelease.trans (IoOnly.nvmeCompleteRq hr' _)

theorem flushSlot_not_live (hs : Safe ⟨s.core, ⟨none, none, none, 0, false, o⟩⟩)
    (hlive : s.core.state ≠ .live) (tag : Nat) :
    (flushSlot env .admin s tag).core.state ≠ .live := by
  cases hslot : s.slot .admin tag with
  | none =>
      unfold flushSlot
      rw [hslot]
      exact hlive
  | some r =>
      have hq : r.q ≠ .io := by
        rw [((hs.tabs .admin).slots tag r hslot).2]
        exact fun h => nomatch h
      have hctx : r.ctx = none := ((Safe.sound_slot hs hslot).io_none_of_admin hq).2
      have hcleared : (cleared s .admin r).core.state ≠ .live := by
        obtain ⟨notes, -, hcore, -⟩ := cleared_core s .admin r
        rw [hcore]
        exact hlive
      rw [flushSlot_some hslot, hctx]
      dsimp only
      generalize cleared s .admin r = t at hcleared ⊢
      unfold endReq
      split
      · exact runDone_not_live hcleared fun _ => (by decide : nvmeScHostAbortedCmd ≠ 0)
      · exact hcleared
      · exact hcleared
      · exact hcleared

theorem flushSlot_counted {q : QueueId}
    (hs : Safe ⟨s.core, ⟨none, none, none, 0, false, o⟩⟩) (hc : Counted e s)
    (hlive : e → s.core.state ≠ .live) (tag : Nat) : Counted e (flushSlot env q s tag) := by
  cases q with
  | io => exact hc.io (flushSlot_io hs tag)
  | admin =>
      unfold flushSlot
      cases hslot : s.slot .admin tag with
      | none => exact hc
      | some r =>
          obtain ⟨htag, hqueue⟩ := (hs.tabs .admin).slots tag r hslot
          rw [← htag] at hslot
          have hread : s.core.adminTab.read (cidTag r.cid) = some r := hslot
          have hreap : Goes env Refine.Policy.all s.core ⟨none, none, none, 0, false, o⟩
              ((s.releaseSlot .admin r.cid).log (.cancel .admin r.id)).core
              ⟨none, some { r with status := nvmeScHostAbortedCmd, cancelled := true }, none, 0,
                false, o⟩ := .move fun _ => .reapCancel .admin hslot rfl rfl trivial
          have htab : ((s.releaseSlot .admin r.cid).log (.cancel .admin r.id)).core.adminTab =
              nvmeInflightRelease s.core.adminTab r.cid := rfl
          have hfree := release_freeStack hread
          rw [← htab] at hfree
          have hstate : ((s.releaseSlot .admin r.cid).log (.cancel .admin r.id)).core.state =
              s.core.state := rfl
          obtain ⟨hheld, haers⟩ := hc.quota.release hslot htab rfl
          have hexact : e → HeldExact ((s.releaseSlot .admin r.cid).log (.cancel .admin r.id)) r :=
            fun h => (hc.exact h).release haers rfl rfl
          have hsafe₁ := hreap.safe hs
          dsimp only
          generalize (s.releaseSlot .admin r.cid).log (.cancel .admin r.id) = s₁
            at hheld hexact hfree hstate hsafe₁ ⊢
          have hdis := nvmeDecideDisposition_cancelled r
          have hheld₁ : HeldQuota s₁
              { r with status := nvmeScHostAbortedCmd, cancelled := true } :=
            hheld.alter rfl rfl
          refine hheld₁.nvmeCompleteRq hexact hsafe₁ hqueue ?_ ?_
          · exact fun _ => ⟨fun hdelay => (nomatch hdis.symm.trans hdelay.1), hfree⟩
          · intro h
            refine ⟨fun _ => ⟨fun _ hnow => ?_, fun _ hzero => ?_⟩, fun hretry => ?_⟩
            · have hio : IoOnly s₁ (nvmeCleanupCmd s₁
                  { r with status := nvmeScHostAbortedCmd, cancelled := true }).1 :=
                IoOnly.onQueue (OnQueue.nvmeCleanupCmd .io s₁ _) rfl
              exact absurd ((hstate.symm.trans hio.state.symm).trans hnow) (hlive h)
            · exact absurd hzero (by decide : nvmeScHostAbortedCmd ≠ 0)
            · rw [hdis] at hretry
              cases hretry

theorem nvmeFlushQueueInflight_counted {q : QueueId}
    (hs : Safe ⟨s.core, ⟨none, none, none, 0, false, o⟩⟩) (hc : Counted e s)
    (hlive : e → s.core.state ≠ .live) :
    Counted e (nvmeFlushQueueInflight env s q) ∧
      (s.core.state ≠ .live → (nvmeFlushQueueInflight env s q).core.state ≠ .live) := by
  unfold nvmeFlushQueueInflight
  generalize List.range (s.tab q).depth = tags
  induction tags generalizing s with
  | nil => exact ⟨hc, id⟩
  | cons tag tags ih =>
      have hkeep : s.core.state ≠ .live → (flushSlot env q s tag).core.state ≠ .live := by
        intro hno
        cases q with
        | admin => exact flushSlot_not_live hs hno tag
        | io =>
            rw [(flushSlot_io hs tag).state]
            exact hno
      have hsafe := (@flushSlot_spec env Refine.Policy.all s o q trivial
        (fun _ => ⟨trivial, fun _ _ => trivial⟩) tag).safe hs
      obtain ⟨hall, hstay⟩ := ih hsafe (flushSlot_counted hs hc hlive tag)
        (fun h => hkeep (hlive h))
      exact ⟨hall, fun hno => hstay (hkeep hno)⟩

theorem nvmeFlushQueueInflight_safe {q : QueueId}
    (hs : Safe ⟨s.core, ⟨none, none, none, 0, false, o⟩⟩) :
    Safe ⟨(nvmeFlushQueueInflight env s q).core, ⟨none, none, none, 0, false, o⟩⟩ :=
  (@nvmeFlushQueueInflight_spec env Refine.Policy.all s o q trivial
    (fun _ => ⟨trivial, fun _ _ => trivial⟩)).safe hs

end Cancel

/-! ### The watchdog -/

section Watchdog

theorem Counted.abort (hc : Counted e s) (ht : TabOk .admin s.core.adminTab) (q : QueueId)
    (cid : Nat) : Counted e (nvmeSubmitAbortSqe env s q cid).1 := by
  have hframe : OnQueue .admin s (nvmeSubmitAbortSqe env s q cid).1 :=
    OnQueue.nvmeSubmitAsyncCmd s _ _ _ _ _
  exact hc.adds hframe (fun _ => adds_async ht _ _ _ _ _) (fun h => nomatch h) rfl

/-- The watchdog notes that it has sent an Abort. -/
theorem Counted.touch (hc : Counted e s) (q : QueueId) (tag now : Nat) :
    Counted e (s.editSlot q tag (fun x => { x with abortSent := true, abortUs := now })) := by
  cases q with
  | io => exact hc.io (IoOnly.of_eq rfl rfl rfl rfl)
  | admin =>
      have htally : ∀ p, tally p (s.editSlot .admin tag
          (fun x => { x with abortSent := true, abortUs := now })).core.adminTab =
          tally p s.core.adminTab :=
        fun p => tally_edit s.core.adminTab tag _ (fun _ => rfl) (fun _ => rfl)
      obtain ⟨hquota, haers⟩ := hc.quota.tallied htally rfl
      refine ⟨hquota, fun h hlive hrun => ?_⟩
      rw [haers]
      exact hc.exact h hlive hrun

theorem nvmeWatchdogEscalate_within (hw : Within e s) (q : QueueId) :
    Within e (nvmeWatchdogEscalate env s q) := by
  unfold nvmeWatchdogEscalate
  split
  · exact hw.io (IoOnly.of_eq rfl rfl rfl rfl) hw.safe
  · rename_i hno
    exact ⟨nvmeFlushQueueInflight_safe hw.safe,
      (nvmeFlushQueueInflight_counted hw.safe hw.counted fun _ => hno).1⟩

theorem watchdogScanLoop_within (q : QueueId) (now : Nat) (tags : List Nat) :
    ∀ {s : State}, Within e s → Within e (watchdogScanLoop env q now tags s) := by
  induction tags with
  | nil => exact id
  | cons tag tags ih =>
      intro s hw
      unfold watchdogScanLoop
      cases hslot : s.slot q tag with
      | none => exact ih hw
      | some r =>
          dsimp only
          cases watchdogVerdict r now with
          | leave => exact ih hw
          | escalate => exact nvmeWatchdogEscalate_within hw q
          | abort =>
              have hs₁ := (@nvmeSubmitAbortSqe_spec env Refine.Policy.all
                ⟨none, none, none, 0, false, false⟩ s q r.cid).safe hw.safe
              have hc₁ := @Counted.abort env s e hw.counted (hw.safe.tabs .admin) q r.cid
              generalize nvmeSubmitAbortSqe env s q r.cid = p at hs₁ hc₁ ⊢
              obtain ⟨s₁, ret⟩ := p
              dsimp only at hs₁ hc₁ ⊢
              split
              · exact ih ⟨hs₁, hc₁⟩
              · have hs₂ := (@editSlot_touch_spec env Refine.Policy.all s₁
                  ⟨none, none, none, 0, false, false⟩ q tag now).safe hs₁
                exact ih ⟨hs₂, hc₁.touch q tag now⟩

theorem Safe.sound_parked {h : Hand} (hs : Safe ⟨s.core, h⟩) (hmem : r ∈ s.core.retryList) :
    (keyOf r).Sound := by
  refine hs.sound_of_count ?_ hmem
  simp only [reqCount, coreReqs]
  omega

/-- A parked request is put back. -/
theorem resubmitParked_within (hw : Within e s) (hmem : r ∈ s.core.retryList) :
    Within e (resubmitParked env s r) ∧ ∀ r', r' ∈ s.core.retryList → r'.id ≠ r.id →
      r' ∈ (resubmitParked env s r).core.retryList := by
  have hs := hw.safe
  have hmeets : ParkedMeets Refine.Policy.all s r :=
    ⟨trivial, fun _ => ⟨trivial, fun _ _ => trivial⟩, fun _ => .inr trivial, fun _ _ => trivial,
      fun _ _ => trivial⟩
  obtain ⟨hgo, hkeep⟩ := @resubmitParked_spec env Refine.Policy.all s r hmem hmeets hs
  refine ⟨⟨hgo.safe hs, ?_⟩, hkeep⟩
  let s₁ : State := { s with core := { s.core with
    retryList := s.core.retryList.eraseP (fun x => x.id == r.id) } }
  have hio : IoOnly s s₁ := ⟨rfl, fun r' hr' => .inl (List.mem_of_mem_eraseP hr'), rfl, rfl⟩
  have hc₁ : Counted e s₁ := hw.counted.io hio
  change Counted e (nvmeResubmitIo env (nvmeCompleteRq env) s₁ r)
  cases hq : r.q with
  | io =>
      have hr : Plain r := plain_of_sound (Safe.sound_parked hs hmem) hq
      exact hc₁.io (IoOnly.nvmeResubmitIo hr (fun t r' hr' => IoOnly.nvmeCompleteRq hr' t) s₁)
  | admin =>
      obtain ⟨hdone, haer⟩ := hw.counted.quota.parked r hmem hq
      have hheld : HeldQuota s₁ r := by
        refine ⟨hc₁.quota, mismarked_eq_false hdone haer, ?_, ?_⟩
        · rw [haer]
          exact hc₁.quota.single
        · rw [aers_io hio]
          rintro (h | h)
          · have hzero := hw.counted.quota.rebuild (.inr ⟨r, hmem, h⟩)
            rw [hzero, haer]
            rfl
          · rw [hw.counted.quota.rebuild (h.io hio), haer]
            rfl
      have hexact : e → HeldExact s₁ r := by
        intro h hlive hrun
        rw [haer]
        exact hc₁.exact h hlive hrun
      have htake : Goes env Refine.Policy.all s.core ⟨none, none, none, 0, false, false⟩ s₁.core
          ⟨none, some r, none, 0, false, false⟩ :=
        .move fun _ => .unpark trivial hmem rfl rfl (by rw [hq]; exact .inl rfl)
      refine hheld.resubmit hexact (hs.tabs .admin) hq (fun _ hd => absurd hd hdone) ?_
      intro hfree
      have hrestate : Goes env Refine.Policy.all s₁.core ⟨none, some r, none, 0, false, false⟩
          s₁.core ⟨none, some { r with status := nvmeScHostPathError }, none, 0, false, false⟩ :=
        Goes.noTag (by rw [hq]; exact hfree) (hs.parked r hmem) (hs.writes.parked r hmem).2.2
      have hheld₁ : HeldQuota s₁ { r with status := nvmeScHostPathError } := hheld.alter rfl rfl
      refine hheld₁.nvmeCompleteRq hexact ((htake.trans hrestate).safe hs) hq
        (fun hd => absurd hd hdone) fun _ => ⟨fun _ => ⟨fun hd => absurd hd hdone, ?_⟩, ?_⟩
      · exact fun _ hzero => absurd hzero (by decide : nvmeScHostPathError ≠ 0)
      · exact fun _ hd => absurd hd hdone

theorem retryLoop_within (now : Nat) (l : List Request) :
    ∀ {s : State}, Within e s → (∀ r, r ∈ l → r ∈ s.core.retryList) →
      l.Pairwise (fun r r' => r'.id ≠ r.id) → Within e (retryLoop env now l s) := by
  induction l with
  | nil => exact fun hw _ _ => hw
  | cons r l ih =>
      intro s hw hmem hids
      rw [List.pairwise_cons] at hids
      have hrest : ∀ r', r' ∈ l → r' ∈ s.core.retryList :=
        fun r' hr' => hmem r' (List.mem_cons_of_mem _ hr')
      unfold retryLoop
      split
      · exact ih hw hrest hids.2
      · obtain ⟨hback, hkeep⟩ :=
          @resubmitParked_within env s r e hw (hmem r (List.mem_cons_self ..))
        exact ih hback (fun r' hr' => hkeep r' (hrest r' hr') (hids.1 r' hr')) hids.2

theorem nvmeTickWatchdog_within {admin : List Cqe} (hw : Within e s)
    (hprompt : AlongDrain env CqePrompt admin s)
    (harms : e → AlongDrain env (CqeArms env) admin s) (io : List Cqe) :
    Within e (nvmeTickWatchdog env s admin io) := by
  have hproc := nvmeProcessCompletions_within hw hprompt harms io
  unfold nvmeTickWatchdog
  dsimp only
  generalize nvmeProcessCompletions env s admin io = s₁ at hproc ⊢
  split
  · exact hproc
  · have htime : Within e (s₁.getTime env).2 :=
      hproc.io (IoOnly.of_eq rfl rfl rfl rfl) hproc.safe
    have hadmin := @watchdogScanLoop_within env e .admin (s₁.getTime env).1
      (List.range ((s₁.getTime env).2.tab .admin).depth) _ htime
    change Within e (watchdogScanQueue env (s₁.getTime env).2 .admin (s₁.getTime env).1) at hadmin
    generalize watchdogScanQueue env (s₁.getTime env).2 .admin (s₁.getTime env).1 = s₂ at hadmin ⊢
    have hio := @watchdogScanLoop_within env e .io (s₁.getTime env).1
      (List.range (s₂.tab .io).depth) _ hadmin
    change Within e (watchdogScanQueue env s₂ .io (s₁.getTime env).1) at hio
    generalize watchdogScanQueue env s₂ .io (s₁.getTime env).1 = s₃ at hio ⊢
    exact retryLoop_within _ _ hio (fun _ => id) (Safe.retryList_ids hio.safe)

end Watchdog

/-! ### Reset and shutdown -/

section Halt

/-- The table is empty. -/
theorem Quota.emptied (hq : Quota s) (hzero : ∀ p, tally p t.core.adminTab = 0)
    (hlist : t.core.retryList = s.core.retryList) : Quota t ∧ aers t = 0 := by
  have haers : aers t = 0 := hzero (fun _ a => a)
  refine ⟨⟨hzero _, ?_, ?_, fun _ => haers⟩, haers⟩
  · rw [hlist]
    exact hq.parked
  · rw [haers]
    exact Nat.zero_le 1

/-- Both queues after they have been flushed and torn down. -/
def halted (env : Env) (s : State) : State :=
  nvmeTeardownQueue (nvmeTeardownQueue
    (nvmeDisableCtrl env (nvmeFlushQueueInflight env (nvmeFlushQueueInflight env s .io) .admin))
    .io) .admin

theorem halted_quota (hs : Safe ⟨s.core, ⟨none, none, none, 0, false, o⟩⟩) (hq : Quota s) :
    Quota (halted env s) ∧
      (s.core.state ≠ .live → (halted env s).core.state ≠ .live) := by
  have hio := @nvmeFlushQueueInflight_counted env s False o .io hs ⟨hq, False.elim⟩ False.elim
  have hs₁ := @nvmeFlushQueueInflight_safe env s o .io hs
  unfold halted
  generalize nvmeFlushQueueInflight env s .io = s₁ at hio hs₁ ⊢
  have hadmin := @nvmeFlushQueueInflight_counted env s₁ False o .admin hs₁ hio.1 False.elim
  generalize nvmeFlushQueueInflight env s₁ .admin = s₂ at hadmin ⊢
  obtain ⟨notes, hcore, -⟩ := nvmeDisableCtrl_core env s₂
  have hstate : (nvmeDisableCtrl env s₂).core.state = s₂.core.state := by
    rw [hcore]
    rfl
  have hlist : (nvmeTeardownQueue (nvmeTeardownQueue (nvmeDisableCtrl env s₂) .io)
      .admin).core.retryList = s₂.core.retryList := by
    change (nvmeDisableCtrl env s₂).core.retryList = s₂.core.retryList
    rw [hcore]
    rfl
  refine ⟨(hadmin.1.quota.emptied tally_gone hlist).1, fun hno => ?_⟩
  change (nvmeDisableCtrl env s₂).core.state ≠ .live
  rw [hstate]
  exact hadmin.2 (hio.2 hno)

/-- A new admin table is empty. -/
theorem nvmeSetupQueue_admin (s : State) :
    TabOk .admin (nvmeSetupQueue env s .admin nvmeAdminQueueSize).1.core.adminTab ∧
      ∀ p, tally p (nvmeSetupQueue env s .admin nvmeAdminQueueSize).1.core.adminTab = 0 := by
  unfold nvmeSetupQueue
  dsimp only
  split
  · exact ⟨tabOk_fresh .admin _ (by decide), fun p => tally_fresh p _ env.cfg.quirkSkipCidGen⟩
  · exact ⟨tabOk_gone .admin, tally_gone⟩

theorem bringUpAdmin_same (s : State) :
    (TabOk .admin (bringUpAdmin env s).1.core.adminTab ∧
        ∀ p, tally p (bringUpAdmin env s).1.core.adminTab = 0) ∧
      (bringUpAdmin env s).1.core.retryList = s.core.retryList ∧
      (bringUpAdmin env s).1.core.state = s.core.state := by
  have htab := @nvmeSetupQueue_admin env s
  obtain ⟨hlist, hstate, -⟩ := onQueue_admin
    (@OnQueue.nvmeSetupQueue env s .admin nvmeAdminQueueSize)
  unfold bringUpAdmin
  generalize nvmeSetupQueue env s .admin nvmeAdminQueueSize = p at htab hlist hstate ⊢
  obtain ⟨s₁, ok⟩ := p
  cases ok <;> exact ⟨htab, hlist, hstate⟩

/-- The rebuild starts with no asynchronous event request in the new queue. -/
theorem Quota.rebuild_starts (hq : Quota s) (ht : TabOk .admin s.core.adminTab)
    (hzero : aers s = 0) (hlive : s.core.state ≠ .live) :
    Counted e (nvmeResetRebuildIoAsync env s) := by
  refine ⟨?_, fun _ => Exact.of_not_live ?_⟩
  · exact hq.submitStep (fun _ => Quota.resetFailed) ht hzero _ (fun h => nomatch h)
  · exact submitStep_not_live (fun _ => nvmeResetFinish_not_live) hlive _ _

theorem nvmeResetController_within (hw : Within e s) :
    Within e (nvmeResetController env s) := by
  have hs := hw.safe
  have hsafe := (@nvmeResetController_spec env Refine.Policy.all s
    (fun _ => ⟨trivial, fun _ => trivial, fun _ _ => trivial⟩)).safe hs
  refine ⟨hsafe, ?_⟩
  unfold nvmeResetController nvmeChangeCtrlState
  split
  · rename_i heq
    split at heq
    · cases heq
    · cases heq
      exact hw.counted
  · rename_i heq
    split at heq
    · rename_i hok
      cases heq
      have hbegin : Goes env Refine.Policy.all s.core ⟨none, none, none, 0, false, false⟩
          (nvmeQuiesceAdminQueue (nvmeQuiesceIoQueues (State.log
            { s with core := ({ s.core with state := .resetting }).log (.phase .resetting) }
            .resetBegin))).core ⟨none, none, none, 0, false, true⟩ :=
        .move fun _ => .phase trivial (.resetBegin (ctrlTransition_resetting hok))
      have hs₂ := hbegin.safe hs
      have hq₂ : Quota (nvmeQuiesceAdminQueue (nvmeQuiesceIoQueues (State.log
          { s with core := ({ s.core with state := .resetting }).log (.phase .resetting) }
          .resetBegin))) := hw.counted.quota.same rfl rfl
      have hlive₂ : (nvmeQuiesceAdminQueue (nvmeQuiesceIoQueues (State.log
          { s with core := ({ s.core with state := .resetting }).log (.phase .resetting) }
          .resetBegin))).core.state ≠ .live := fun h => by cases h
      dsimp only
      generalize nvmeQuiesceAdminQueue (nvmeQuiesceIoQueues (State.log
          { s with core := ({ s.core with state := .resetting }).log (.phase .resetting) }
          .resetBegin)) = s₂ at hs₂ hq₂ hlive₂ ⊢
      obtain ⟨hq₆, hlive₆⟩ := @halted_quota env s₂ true hs₂ hq₂
      have hlive₆ := hlive₆ hlive₂
      unfold halted at hq₆ hlive₆
      generalize nvmeTeardownQueue (nvmeTeardownQueue (nvmeDisableCtrl env
        (nvmeFlushQueueInflight env (nvmeFlushQueueInflight env s₂ .io) .admin)) .io)
        .admin = s₆ at hq₆ hlive₆ ⊢
      obtain ⟨⟨htab₇, htally⟩, hlist, hstate⟩ := @bringUpAdmin_same env s₆
      generalize bringUpAdmin env s₆ = p at htally hlist hstate htab₇ ⊢
      obtain ⟨s₇, ok⟩ := p
      obtain ⟨hq₇, hzero⟩ := hq₆.emptied htally hlist
      have hlive₇ : s₇.core.state ≠ .live := by
        rw [hstate]
        exact hlive₆
      cases ok with
      | false =>
          exact ⟨hq₇.resetFailed, fun _ => Exact.of_not_live (nvmeResetFinish_not_live hlive₇)⟩
      | true =>
          have hq₈ : Quota (nvmeUnquiesceAdminQueue s₇) := hq₇.same rfl rfl
          exact hq₈.rebuild_starts htab₇ hzero hlive₇
    · cases heq

theorem nvmeCtrlShutdown_quota (hw : Within e s) : Quota (nvmeCtrlShutdown env s) := by
  have hquiet : Goes env Refine.Policy.all s.core ⟨none, none, none, 0, false, false⟩
      (nvmeQuiesceAdminQueue (nvmeQuiesceIoQueues s)).core
      ⟨none, none, none, 0, false, false⟩ := .move fun _ => .phase trivial .quiesce
  have hq : Quota (nvmeQuiesceAdminQueue (nvmeQuiesceIoQueues s)) :=
    hw.counted.quota.same rfl rfl
  exact (halted_quota (hquiet.safe hw.safe) hq).1

end Halt

/-! ### Dispatch -/

section Dispatch

variable {a : Nat} {b : Bool}

theorem ioAbortLoop_counted (target : Nat) (tags : List Nat) {h : Hand} :
    ∀ {s : State}, Safe ⟨s.core, h⟩ → Counted e s →
      Counted e (ioAbortLoop env target tags s) := by
  induction tags with
  | nil => exact fun _ hc => hc
  | cons tag tags ih =>
      intro s hs hc
      unfold ioAbortLoop
      split
      · exact ih hs hc
      · rename_i r hslot
        rw [readCtx_eq hs hslot]
        dsimp only
        split
        · have hsafe := (@nvmeSubmitAbortSqe_spec env Refine.Policy.all h s .io r.cid).safe hs
          exact ih hsafe (hc.abort (hs.tabs .admin) .io r.cid)
        · exact ih hs hc

theorem processCommand_counted {h : Hand} (hs : Safe ⟨s.core, h⟩) (hc : Counted e s) (i : Nat) :
    Counted e (processCommand env s i) := by
  unfold processCommand
  dsimp only
  split
  · exact hc.io (IoOnly.log s _)
  · split
    · exact (ioAbortLoop_counted _ _ hs hc).io (IoOnly.log _ _)
    · have hio := @IoOnly.dispatch env s (hs.tabs .io) i (env.ios i)
      generalize dispatch env s i (env.ios i) = p at hio ⊢
      obtain ⟨s₁, err⟩ := p
      dsimp only at hio ⊢
      split
      · exact hc.io (hio.trans (IoOnly.log s₁ _))
      · exact hc.io hio

theorem drainPending_counted (n : Nat) :
    ∀ {s : State}, Safe ⟨s.core, ⟨none, none, none, a, b, o⟩⟩ → Counted e s →
      Counted e (drainPending env n s) := by
  induction n with
  | zero => exact fun _ hc => hc
  | succ n ih =>
      intro s hs hc
      unfold drainPending
      split
      · rename_i hroom
        cases hlist : s.core.ioPending with
        | nil => exact hc
        | cons i rest =>
            dsimp only
            have htake : Goes env (Policy.calm Refine.Policy.all) s.core
                ⟨none, none, none, a, b, o⟩ { s.core with ioPending := rest }
                ⟨some i, none, none, a, b, o⟩ := .move fun _ => .takePending hlist rfl trivial
            have hproc := @processCommand_spec env Refine.Policy.all
              { s with core := { s.core with ioPending := rest } } i a b o (htake.safe hs)
              (fun _ => hroom) (fun _ => trivial) (fun _ => trivial)
            have hc₁ : Counted e { s with core := { s.core with ioPending := rest } } :=
              hc.io (IoOnly.of_eq rfl rfl rfl rfl)
            exact ih ((htake.trans hproc).safe hs) (processCommand_counted (htake.safe hs) hc₁ i)
      · exact hc

theorem drainMessages_counted (n : Nat) :
    ∀ {s : State}, Safe ⟨s.core, ⟨none, none, none, a, b, o⟩⟩ → Counted e s →
      Counted e (drainMessages env n s) := by
  induction n with
  | zero => exact fun _ hc => hc
  | succ n ih =>
      intro s hs hc
      unfold drainMessages
      cases hlist : s.core.msgPort with
      | nil => exact hc
      | cons i rest =>
          dsimp only
          have htake : Goes env (Policy.calm Refine.Policy.all) s.core
              ⟨none, none, none, a, b, o⟩ { s.core with msgPort := rest }
              ⟨some i, none, none, a, b, o⟩ := .move fun _ => .takeMsg hlist rfl trivial
          have hc₁ : Counted e { s with core := { s.core with msgPort := rest } } :=
            hc.io (IoOnly.of_eq rfl rfl rfl rfl)
          split
          · have hstash : Goes env (Policy.calm Refine.Policy.all) { s.core with msgPort := rest }
                ⟨some i, none, none, a, b, o⟩
                { s.core with msgPort := rest, ioPending := s.core.ioPending ++ [i] }
                ⟨none, none, none, a, b, o⟩ := .move fun _ => .stash rfl trivial
            exact @ih { s with core := { s.core with
              msgPort := rest, ioPending := s.core.ioPending ++ [i] } }
              ((htake.trans hstash).safe hs) (hc₁.io (IoOnly.of_eq rfl rfl rfl rfl))
          · rename_i hnow
            have hroom : (env.ios i).command ≠ .cmdInternalAbortRequest → HasRoom s.core := by
              intro hcmd
              by_contra hfull
              exact hnow ⟨hcmd, .inl hfull⟩
            have hproc := @processCommand_spec env Refine.Policy.all
              { s with core := { s.core with msgPort := rest } } i a b o (htake.safe hs) hroom
              (fun _ => trivial) (fun _ => trivial)
            exact ih ((htake.trans hproc).safe hs) (processCommand_counted (htake.safe hs) hc₁ i)

theorem nvmeDrainMsgport_within (hw : Within e s) : Within e (nvmeDrainMsgport env s) := by
  have hs := hw.safe
  have hsafe := (@nvmeDrainMsgport_spec env Refine.Policy.all s
    (fun _ _ => ⟨fun _ _ => trivial, fun _ => trivial, .inl trivial, trivial, trivial⟩)).safe hs
  refine ⟨hsafe, ?_⟩
  unfold nvmeDrainMsgport
  split
  · exact hw.counted
  · dsimp only
    have hs₁ := (@nvmeSqBatchBegin_spec env Refine.Policy.all s none 0 false).safe hs
    have hc₁ : Counted e (nvmeSqBatchBegin s .io) :=
      hw.counted.io (IoOnly.of_eq rfl rfl rfl rfl)
    generalize nvmeSqBatchBegin s .io = s₁ at hs₁ hc₁ ⊢
    have hs₂ := (@drainStalled_spec env Refine.Policy.all 0 true false s₁.core.ctxStalled.length s₁
      hs₁ (fun _ _ => trivial) (.inl trivial)).safe hs₁
    have hc₂ := hc₁.io (@IoOnly.drainStalled env s₁.core.ctxStalled.length s₁)
    generalize drainStalled env s₁.core.ctxStalled.length s₁ = s₂ at hs₂ hc₂ ⊢
    have hs₃ := (@drainPending_spec env Refine.Policy.all 0 true false s₂.core.ioPending.length s₂
      hs₂ (fun _ => trivial) trivial trivial).safe hs₂
    have hc₃ := @drainPending_counted env e false 0 true s₂.core.ioPending.length s₂ hs₂ hc₂
    generalize drainPending env s₂.core.ioPending.length s₂ = s₃ at hs₃ hc₃ ⊢
    have hc₄ := @drainMessages_counted env e false 0 true s₃.core.msgPort.length s₃ hs₃ hc₃
    exact hc₄.io (IoOnly.onQueue (OnQueue.nvmeSqBatchEnd _ .io) rfl)

end Dispatch

/-! ### Other steps -/

section Others

theorem exitPending_io (n : Nat) : ∀ s : State, IoOnly s (exitPending n s) := by
  induction n with
  | zero => exact IoOnly.refl
  | succ n ih =>
      intro s
      unfold exitPending
      cases s.core.ioPending with
      | nil => exact IoOnly.refl s
      | cons i rest =>
          have hone : IoOnly s (({ s with core := { s.core with ioPending := rest } } : State).log
              (.reply i ioerrAborted 0)) := IoOnly.of_eq rfl rfl rfl rfl
          exact hone.trans (ih _)

theorem exitStalled_io (n : Nat) : ∀ s : State, IoOnly s (exitStalled n s) := by
  induction n with
  | zero => exact IoOnly.refl
  | succ n ih =>
      intro s
      unfold exitStalled
      cases s.core.ctxStalled with
      | nil => exact IoOnly.refl s
      | cons x rest =>
          let s₁ : State := { s with core := { s.core with ctxStalled := rest } }
          have htake : IoOnly s s₁ := IoOnly.of_eq rfl rfl rfl rfl
          have hedit := htake.trans (IoOnly.editCtx s₁ x (fun y =>
            { y with stalled := false, firstError := ioerrAborted }))
          exact (hedit.trans (IoOnly.nvmeIoContextFinish _ x)).trans (ih _)

theorem unitTaskExit_io (s : State) : IoOnly s (unitTaskExit s) := by
  have hpending := exitPending_io s.core.ioPending.length s
  unfold unitTaskExit
  dsimp only
  generalize exitPending s.core.ioPending.length s = s₁ at hpending ⊢
  have hstalled := exitStalled_io s₁.core.ctxStalled.length s₁
  exact (hpending.trans hstalled).trans (IoOnly.of_eq rfl rfl rfl rfl)

theorem collectWaiter_io (s : State) : IoOnly s (collectWaiter s) := by
  unfold collectWaiter
  cases s.core.waiting with
  | nil => exact IoOnly.refl s
  | cons r rest => exact IoOnly.of_eq rfl rfl rfl rfl

theorem Bare.fwSlotInfo (hb : Bare s) (ht : TabOk .admin s.core.adminTab) :
    Bare (nvmeGetFwSlotInfo env s) := by
  unfold nvmeGetFwSlotInfo State.allocate
  have hb₁ : Bare { s with core := { s.core with allocs := s.core.allocs + 1 } } :=
    hb.same rfl rfl
  cases env.alloc s.core.allocs with
  | none => exact hb₁
  | some buffer =>
      dsimp only
      have hframe := @OnQueue.nvmeSubmitAsyncCmd env
        { s with core := { s.core with allocs := s.core.allocs + 1 } }
        { opcode := nvmeAdminGetLogPage, nsid := 0xFFFFFFFF, cdw10 := 127 * 2 ^ 16 + 3 }
        (some (buffer, 512)) .fwSlotInfoDone (some buffer) false
      have hadds := fun p => @adds_async env
        { s with core := { s.core with allocs := s.core.allocs + 1 } } p ht
        { opcode := nvmeAdminGetLogPage, nsid := 0xFFFFFFFF, cdw10 := 127 * 2 ^ 16 + 3 }
        (some (buffer, 512)) .fwSlotInfoDone (some buffer) false
      generalize nvmeSubmitAsyncCmd env
        { s with core := { s.core with allocs := s.core.allocs + 1 } } _
        (some (buffer, 512)) .fwSlotInfoDone (some buffer) false = p at hframe hadds ⊢
      obtain ⟨s₁, ret⟩ := p
      have hb₂ : Bare s₁ := hb₁.adds hframe hadds (fun h => nomatch h) rfl
      dsimp only
      split
      · exact hb₂.same rfl rfl
      · exact hb₂

/-- The end of a firmware activation posts an asynchronous event request, whether or not
one is outstanding. -/
theorem fwActEnd_within {timeout : Bool} (hw : Within e s) (hrun : s.core.fwActRunning = true)
    (hzero : timeout = false → aers s = 0)
    (harm : e → timeout = false → ¬aerFails env (nvmeGetFwSlotInfo env (reactivated s))) :
    Within e (fwActEnd env s timeout) := by
  have hs := hw.safe
  have hsafe := (@fwActEnd_spec env Refine.Policy.all s ⟨none, none, none, 0, false, false⟩ timeout
    trivial hrun (fun _ => trivial)).safe hs
  refine ⟨hsafe, ?_⟩
  have hst : s.core.state = .resetting := hs.phase.fw (.inr hrun)
  cases timeout with
  | true => exact hw.counted.io (IoOnly.of_eq rfl rfl rfl rfl)
  | false =>
      have hidle : ¬Rebuilding s := by
        intro hre
        have hpos : 0 < reqCount Key.isChain ⟨s.core, ⟨none, none, none, 0, false, false⟩⟩ :=
          hre.chain
        exact (hs.phase.chain (Nat.ne_of_gt hpos)).2.2.1 (.inr hrun)
      have hcore := reactivated_core hst
      have htab : (reactivated s).core.adminTab = s.core.adminTab := by
        rw [hcore]
        rfl
      have hlist : (reactivated s).core.retryList = s.core.retryList := by
        rw [hcore]
        rfl
      have hs₁ := (@reactivated_spec env Refine.Policy.all s ⟨none, none, none, 0, false, false⟩
        trivial hrun).safe hs
      have hbare : Bare s := ⟨hw.counted.quota, hzero rfl, hidle⟩
      have hbare₁ := @Bare.fwSlotInfo env _ (hbare.same htab hlist) (hs₁.tabs .admin)
      have hs₂ := (@nvmeGetFwSlotInfo_spec env Refine.Policy.all (reactivated s) _).safe hs₁
      rw [fwActEnd_false hst]
      exact hbare₁.aer (hs₂.tabs .admin) fun h _ _ => harm h rfl

end Others

/-! ### Runs -/

section Runs

/-- The controller does not put off the completion of the asynchronous event request, and
no firmware activation ends while one is outstanding. -/
def StepPrompt (env : Env) (s : State) : Event → Prop
  | .irq admin _ | .tick admin _ => unitRuns s → AlongDrain env CqePrompt admin s
  | .fwActEnd timeout => s.core.fwActRunning = true → timeout = false → aers s = 0
  | _ => True

/-- No submission of an asynchronous event request fails in the step, and the controller is
not being expunged. -/
def StepArms (env : Env) (s : State) : Event → Prop
  | .irq admin _ | .tick admin _ => unitRuns s → AlongDrain env (CqeArms env) admin s
  | .fwActEnd timeout => s.core.fwActRunning = true → timeout = false →
      ¬aerFails env (nvmeGetFwSlotInfo env (reactivated s))
  | .shutdown => ¬unitRuns s
  | _ => True

/-- A condition on every step of a run, in the state before it. -/
def Along (env : Env) (C : State → Event → Prop) : List Event → State → Prop
  | [], _ => True
  | ev :: events, s => C s ev ∧ Along env C events (step env s ev)

theorem step_within {ev : Event} (hw : Within e s) (hprompt : StepPrompt env s ev)
    (harms : e → StepArms env s ev) : Within e (step env s ev) := by
  have hs := hw.safe
  have hsafe := (step_spec ev (meetsAll_all env [ev] s).1).safe hs
  refine ⟨hsafe, ?_⟩
  have hsame : ∀ t : State, IoOnly s t → Counted e t := fun t h => hw.counted.io h
  cases ev with
  | putMsg => exact hsame _ (IoOnly.of_eq rfl rfl rfl rfl)
  | irq admin io =>
      simp only [step]
      split
      · rename_i hrun
        exact (nvmeProcessCompletions_within hw (hprompt hrun) (fun h => harms h hrun) io).counted
      · exact hw.counted
  | tick admin io =>
      simp only [step]
      split
      · rename_i hrun
        exact (nvmeTickWatchdog_within hw (hprompt hrun) (fun h => harms h hrun) io).counted
      · exact hw.counted
  | reset =>
      simp only [step]
      split
      · have hw₁ : Within e { s with ctl := { s.ctl with resetSignal := false } } :=
          hw.io (IoOnly.of_eq rfl rfl rfl rfl) hs
        exact (nvmeResetController_within hw₁).counted
      · exact hw.counted
  | drain =>
      simp only [step]
      split
      · exact (nvmeDrainMsgport_within hw).counted
      · exact hw.counted
  | stop =>
      simp only [step]
      split
      · exact hsame _ (unitTaskExit_io s)
      · exact hw.counted
  | adminSync cmd =>
      exact hw.counted.adds (OnQueue.nvmeSubmitSyncCmd s _ _ _)
        (fun p => adds_sync (hs.tabs .admin) _ _ _) (fun h => by cases h) rfl
  | collect => exact hsame _ (collectWaiter_io s)
  | freeze => exact hsame _ (IoOnly.of_eq rfl rfl rfl rfl)
  | unfreeze => exact hsame _ (IoOnly.of_eq rfl rfl rfl rfl)
  | fwActBegin =>
      simp only [step]
      split
      · exact hsame _ (IoOnly.of_eq rfl rfl rfl rfl)
      · exact hw.counted
  | fwActEnd timeout =>
      simp only [step]
      split
      · rename_i hrun
        exact (fwActEnd_within hw hrun (hprompt hrun) (fun h => harms h hrun)).counted
      · exact hw.counted
  | scan dead deac maxZeroes => exact hsame _ (IoOnly.of_eq rfl rfl rfl rfl)
  | shutdown =>
      simp only [step]
      split
      · rename_i hrun
        exact ⟨nvmeCtrlShutdown_quota hw, fun h => absurd hrun (harms h)⟩
      · exact hw.counted

theorem run_within (events : List Event) :
    ∀ {s : State}, Within e s → Along env (StepPrompt env) events s →
      (e → Along env (StepArms env) events s) → Within e (run env events s) := by
  induction events with
  | nil => exact fun hw _ _ => hw
  | cons ev events ih =>
      intro s hw hprompt harms
      exact ih (step_within hw hprompt.1 fun h => (harms h).1) hprompt.2 fun h => (harms h).2

/-- A controller that has just come up, whether or not its first asynchronous event request
could be posted. -/
theorem boot_within (env : Env) (maxZeroes : Nat)
    (hfirst : e → ¬aerFails env (upState env maxZeroes)) :
    Within e (bootState env maxZeroes) := by
  have hup := up_safe env maxZeroes
  refine ⟨(boot_spec env Refine.Policy.all maxZeroes).safe hup, ?_⟩
  have hzero : ∀ p, tally p (upState env maxZeroes).core.adminTab = 0 := fun p =>
    tally_fresh p nvmeAdminQueueSize env.cfg.quirkSkipCidGen
  have hidle : ¬Rebuilding (upState env maxZeroes) := by
    rintro (h | ⟨r, hr, -⟩)
    · rw [hzero] at h
      exact absurd h (Nat.lt_irrefl 0)
    · exact absurd hr List.not_mem_nil
  have haers : aers (upState env maxZeroes) = 0 := hzero (fun _ a => a)
  have hbare : Bare (upState env maxZeroes) := by
    refine ⟨⟨hzero _, ?_, ?_, fun _ => haers⟩, haers, hidle⟩
    · exact fun r hr => absurd hr List.not_mem_nil
    · rw [haers]
      exact Nat.zero_le 1
  exact hbare.aer (hup.tabs .admin) fun h _ _ => hfirst h

/-- At most one asynchronous event request is outstanding, and exactly one while the
controller is LIVE, started, and no submission of one has failed. -/
theorem run_aers_le_one (env : Env) (maxZeroes : Nat) (events : List Event)
    (hprompt : Along env (StepPrompt env) events (bootState env maxZeroes)) :
    aers (run env events (bootState env maxZeroes)) ≤ 1 ∧
      (¬aerFails env (upState env maxZeroes) →
        Along env (StepArms env) events (bootState env maxZeroes) →
        (run env events (bootState env maxZeroes)).core.state = .live →
        (run env events (bootState env maxZeroes)).core.unitBlocked = false →
        aers (run env events (bootState env maxZeroes)) = 1) := by
  have hw : Within (¬aerFails env (upState env maxZeroes) ∧
      Along env (StepArms env) events (bootState env maxZeroes))
      (run env events (bootState env maxZeroes)) :=
    run_within events (boot_within env maxZeroes And.left) hprompt And.right
  exact ⟨hw.counted.quota.single, fun hfirst harms => hw.counted.exact ⟨hfirst, harms⟩⟩

/-- The controller reports a changed namespace, and the next request is posted. -/
theorem run_aers_le_one_notice :
    aers (run sampleEnv [.irq [⟨0, 0, 0x2⟩] []] (bootState sampleEnv 2048)) = 1 := by
  have hcomplete : ∀ r, nvmeDecideDisposition (answered r ⟨0, 0, 0x2⟩) = .complete :=
    fun _ => if_pos rfl
  have hprompt : Along sampleEnv (StepPrompt sampleEnv) [.irq [⟨0, 0, 0x2⟩] []]
      (bootState sampleEnv 2048) := by
    refine ⟨fun _ => ⟨fun r _ _ hdelay => ?_, fun _ => trivial⟩, trivial⟩
    exact nomatch (hcomplete r).symm.trans hdelay.1
  refine (run_aers_le_one sampleEnv 2048 _ hprompt).2 (by decide +kernel) ?_ (by decide +kernel)
    (by decide +kernel)
  refine ⟨fun _ => ⟨fun r hr => ?_, fun _ => trivial⟩, trivial⟩
  have hfound : r =
      (matchCqe (bootState sampleEnv 2048) .admin ⟨0, 0, 0x2⟩).get (by decide +kernel) :=
    Option.eq_some_iff_get_eq.mp hr |>.2.symm
  subst hfound
  refine ⟨fun _ => ⟨fun _ _ => by decide +kernel, fun hd => ?_⟩, fun hretry => ?_⟩
  · exact absurd hd (by decide +kernel)
  · exact nomatch (hcomplete _).symm.trans hretry

/-- Firmware activation: the notice re-arms at once and the activation once more.  A
completion that asks for a delay leaves the controller LIVE without a request. -/
theorem activation_arms_twice :
    (let env : Env := { sampleEnv with cfg := { sampleEnv.cfg with oaes := 0x200 } }
    let s := run env [.irq [⟨0, 0, 0x102⟩] [], .fwActBegin, .fwActEnd false] (bootState env 2048)
    aers s = 2 ∧ s.core.state = .live) ∧
      (let s := run sampleEnv [.irq [⟨0, 0x905, 0⟩] []] (bootState sampleEnv 2048)
      aers s = 0 ∧ s.core.state = .live ∧ s.core.unitBlocked = false) := by
  decide +kernel

end Runs

end Runs
end NvmeDriver
