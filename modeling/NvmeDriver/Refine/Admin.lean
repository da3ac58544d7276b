import NvmeDriver.Refine.Chunks

/-!
# Admin commands and the reset chain refine the machine

The submit primitives of nvme_admin.c, the queues' lifetime, and the callbacks of
asynchronous admin commands.  A rebuild command that ends leaves the next step of
the reset in the hand of the running code; each callback ends with that step
taken, the controller LIVE or the controller DEAD.
-/

namespace NvmeDriver
namespace Refine

open Engine
open Lib
open Ownership

variable {env : Env} {P : Policy} {h : Hand} {s : State}

/-! ### Submitting an admin command -/

section Submit

variable {cid : Nat} {rest : List Nat} {r : Request} {done : Option Done}
  {waiter : Option Waiter} {cmd : Command} {buffer : Option (Nat × Nat)}
  {fill : Request → Request}

/-- The hand after a command with this callback is submitted. -/
def Hand.launched (h : Hand) (done : Option Done) (waiter : Option Waiter) : Hand :=
  { h with owes := h.owes && !Key.isChain ⟨0, .admin, none, none, done, waiter⟩ }

/-- What submitting an admin command may end in: nothing is left of it, or it is in
flight. -/
structure AdminResult (env : Env) (P : Policy) (c : Core) (h : Hand) (done : Option Done)
    (waiter : Option Waiter) (result : State × Int) : Prop where
  ioTab : result.1.core.ioTab = c.ioTab
  failed : result.2 ≠ 0 → Goes env P.calm c h result.1.core h
  ok : result.2 = 0 →
    (Key.isChain ⟨0, .admin, none, none, done, waiter⟩ = true → P.stir ∧ h.owes = true) →
    (done = some .ioSetupAsyncFeatures → c.ioTab = SlotTable.gone) →
    Goes env P c h result.1.core (Hand.launched h done waiter)

theorem AdminResult.of_failed {c : Core} {s₁ : State} {e : Int} (he : e ≠ 0)
    (htab : s₁.core.ioTab = c.ioTab) (hgo : Goes env P.calm c h s₁.core h) :
    AdminResult env P c h done waiter (s₁, e) :=
  ⟨htab, fun _ => hgo, fun hzero => absurd hzero he⟩

/-- A request that is filled in is submitted. -/
theorem AdminResult.of_holding {c : Core} {es : List Effect}
    (hh : Holding c .admin cid rest s r es) (hes : ∀ e, e ∈ es → quiet e = true)
    (hn : c.allocs < s.core.allocs)
    (hkey : keyOf r = ⟨c.allocs, .admin, none, none, done, waiter⟩)
    (hname : r.cmd.commandId = r.cid) (hret : r.retries = 0) :
    AdminResult env P c h done waiter
      ((nvmeSubmitIo env s .admin (cidTag cid)).1,
        if (nvmeSubmitIo env s .admin (cidTag cid)).2 ≠ nvmeIoAsync then errIo else 0) := by
  have hid : r.id = c.allocs := congrArg Key.id hkey
  have hctx : r.ctx = none := congrArg Key.ctx hkey
  rw [hh.nvmeSubmitIo]
  by_cases hfull : Engine.sqFull s .admin
  · rw [if_pos hfull]
    have hne : (if ioerrUnitBusy ≠ nvmeIoAsync then errIo else 0) ≠ 0 := by decide
    have hcore := (hh.log (.sqFull .admin)).destroy
    rw [hid] at hcore
    refine ⟨?_, fun _ => ?_, fun hzero => absurd hzero hne⟩
    · dsimp only
      rw [hcore]
      rfl
    · dsimp only
      rw [hcore]
      exact Goes.refused hh.free hn hes (hid ▸ dmaFrees_quietFor r) (hh.sqFull.mp hfull)
  · rw [if_neg hfull]
    refine ⟨?_, fun hne => absurd rfl hne, fun _ hchain hfeat => ?_⟩
    · dsimp only
      obtain ⟨us, hcore | ⟨tail, hcore⟩⟩ := hh.writeSqe env
      · rw [hcore]
        rfl
      · rw [hcore]
        rfl
    refine hh.submitted (fun h => nomatch h) ?_
    intro us
    refine .move fun _ => ?_
    have howner : c.ownerOf r = none := by
      unfold Core.ownerOf
      rw [hctx]
      exact congrArg Key.io hkey
    have hisChain : (keyOf r).isChain =
        Key.isChain ⟨0, .admin, none, none, done, waiter⟩ := by
      rw [hkey]
      rfl
    unfold Refine.launched Hand.launched
    rw [howner, ← hisChain]
    refine .launchAdmin hh.free hn hes hkey hh.cid ?_ ?_ hname hret
    · rw [hisChain]
      exact hchain
    · rw [hkey]
      intro hf
      exact hfeat (by simpa [Key.isFeatures] using hf)

theorem submitAdmin_spec {c : Core} {es : List Effect}
    (hh : Holding c .admin cid rest s r es) (hes : ∀ e, e ∈ es → quiet e = true)
    (hn : c.allocs < s.core.allocs)
    (hkey : ∀ r', keyOf r' = keyOf r →
      keyOf (fill r') = ⟨c.allocs, .admin, none, none, done, waiter⟩)
    (hcid : ∀ r', (fill r').cid = r'.cid) (hcmd : ∀ r', (fill r').cmd = r'.cmd)
    (hret : ∀ r', (fill r').retries = r'.retries) (hzero : r.retries = 0) :
    AdminResult env P c h done waiter
      (submitAdmin env s (cidTag cid) cmd buffer fill) := by
  have h₁ := hh.editSlot (fun x =>
    fill { x with cmd := { nvmeStageAdminPrps cmd buffer with commandId := x.cid } })
    ((hcid _).trans hh.cid)
  have hn₁ : c.allocs < (s.editSlot .admin (cidTag cid) (fun x =>
      fill { x with cmd := { nvmeStageAdminPrps cmd buffer with
        commandId := x.cid } })).core.allocs := by
    rw [editSlot_allocs]
    exact hn
  have hkey₁ := hkey
    { r with cmd := { nvmeStageAdminPrps cmd buffer with commandId := r.cid } } rfl
  have hname : ∀ b, (fill { r with cmd := { nvmeStageAdminPrps cmd b with
      commandId := r.cid } }).cmd.commandId =
        (fill { r with cmd := { nvmeStageAdminPrps cmd b with commandId := r.cid } }).cid := by
    intro b
    rw [hcmd, hcid]
  cases buffer with
  | none => exact .of_holding h₁ hes hn₁ hkey₁ (hname none) ((hret _).trans hzero)
  | some p =>
      exact .of_holding (h₁.log (.cacheFlush p.1 p.2 false)) (quiet_cons rfl hes) hn₁ hkey₁
        (hname (some p)) ((hret _).trans hzero)

theorem nvmeSubmitAsyncCmd_spec (d : Done) (priv : Option Nat) (aer : Bool)
    (hs : Safe ⟨s.core, h⟩) :
    AdminResult env P s.core h (some d) none
      (nvmeSubmitAsyncCmd env s cmd buffer d priv aer) := by
  unfold nvmeSubmitAsyncCmd nvmeReqAllocAdmin
  rcases @allocRequest_cases env s .admin id errNoMem errBusy (hs.tabs .admin)
      (fun _ => rfl) with
    ⟨s₁, heq, hcore, -⟩ | ⟨s₁, heq, hcore, -⟩ | ⟨s₁, cid, rest, heq, hh, hal⟩
  · rw [heq]
    refine .of_failed (by decide) (by rw [hcore]; rfl) ?_
    rw [hcore]
    exact .move fun _ => .burn 1
  · rw [heq]
    refine .of_failed (by decide) (by rw [hcore]; rfl) ?_
    rw [hcore]
    exact .move fun _ => .fizzleBare
  · rw [heq]
    refine submitAdmin_spec hh (by simp) (by omega) ?_ (fun _ => rfl) (fun _ => rfl)
      (fun _ => rfl) rfl
    intro r' hr'
    simp only [keyOf, Key.mk.injEq] at hr' ⊢
    exact ⟨hr'.1, hr'.2.1, hr'.2.2.1, hr'.2.2.2.1, trivial, hr'.2.2.2.2.2⟩

theorem nvmeSubmitSyncCmd_spec (w : Waiter) (hs : Safe ⟨s.core, h⟩) :
    AdminResult env P s.core h none (some w) (nvmeSubmitSyncCmd env s w cmd buffer) := by
  unfold nvmeSubmitSyncCmd nvmeReqAllocAdmin
  rcases @allocRequest_cases env s .admin id errNoMem errBusy (hs.tabs .admin)
      (fun _ => rfl) with
    ⟨s₁, heq, hcore, -⟩ | ⟨s₁, heq, hcore, -⟩ | ⟨s₁, cid, rest, heq, hh, hal⟩
  · rw [heq]
    refine .of_failed (by decide) (by rw [hcore]; rfl) ?_
    rw [hcore]
    exact .move fun _ => .burn 1
  · rw [heq]
    refine .of_failed (by decide) (by rw [hcore]; rfl) ?_
    rw [hcore]
    exact .move fun _ => .fizzleBare
  · rw [heq]
    have h₂ : Holding s.core .admin cid rest (s₁.allocate env).2
        { id := s.core.allocs, q := .admin, cid := cid } [] := hh.alloc rfl
    have hal₂ : (s₁.allocate env).2.core.allocs = s.core.allocs + 2 := by
      unfold State.allocate
      dsimp only
      omega
    dsimp only
    generalize s₁.allocate env = p at h₂ hal₂ ⊢
    obtain ⟨res, s₂⟩ := p
    dsimp only at h₂ hal₂ ⊢
    cases res with
    | none =>
        refine .of_failed (by decide) (by rw [h₂.destroy]; rfl) ?_
        rw [h₂.destroy]
        exact .move fun _ => .fizzle .admin h₂.free (by omega) (by simp [dmaFrees])
    | some a =>
        refine submitAdmin_spec h₂ (by simp) (by omega) ?_ (fun _ => rfl) (fun _ => rfl)
          (fun _ => rfl) rfl
        intro r' hr'
        simp only [keyOf, Key.mk.injEq] at hr' ⊢
        exact ⟨hr'.1, hr'.2.1, hr'.2.2.1, hr'.2.2.2.1, hr'.2.2.2.2.1, trivial⟩

theorem Hand.launched_plain (hplain : Key.isChain ⟨0, .admin, none, none, done, waiter⟩ = false) :
    Hand.launched h done waiter = h := by
  unfold Hand.launched
  rw [hplain, Bool.not_false, Bool.and_true]

/-- A command that is no step of the rebuild leaves the hand alone. -/
theorem AdminResult.plain {c : Core} {result : State × Int}
    (hplain : Key.isChain ⟨0, .admin, none, none, done, waiter⟩ = false)
    (hres : AdminResult env P c h done waiter result) : Goes env P c h result.1.core h := by
  by_cases hzero : result.2 = 0
  · have hgo := hres.ok hzero (fun hc => Bool.noConfusion (hplain.symm.trans hc)) (by
      rintro rfl
      cases hplain)
    rw [Hand.launched_plain hplain] at hgo
    exact hgo
  · exact (hres.failed hzero).of_calm

theorem nvmeSubmitAer_spec : Goes env P s.core h (nvmeSubmitAer env s).core h :=
  .assume fun hs => (nvmeSubmitAsyncCmd_spec .aerDone none true hs).plain rfl

theorem nvmeSubmitAbortSqe_spec (q : QueueId) (cid : Nat) :
    Goes env P s.core h (nvmeSubmitAbortSqe env s q cid).1.core h :=
  .assume fun hs => (nvmeSubmitAsyncCmd_spec .abortDone none false hs).plain rfl

end Submit

/-! ### Queue lifetime -/

section Queues

/-- Every request of a queue may be forgotten. -/
def Losable (P : Policy) (q : QueueId) : Prop := ∀ k : Key, k.Sound → k.q = q → P.lose k

theorem Losable.occupants {q : QueueId} (hlose : Losable P q) (hs : Safe ⟨s.core, h⟩) :
    ∀ r, r ∈ (s.core.tab q).occupants → P.lose (keyOf r) := by
  intro r hr
  obtain ⟨o, ho, rfl⟩ := List.mem_filterMap.mp hr
  obtain ⟨tag, htag⟩ := Slots.mem_iff_read.mp ho
  refine hlose _ ?_ ((hs.tabs q).slots tag r htag).2
  by_contra hno
  have hcount : 0 < Slots.held (Key.isUnsound ∘ keyOf) (s.core.tab q).inflight :=
    Slots.held_pos_of_read htag (by simpa [Key.isUnsound] using hno)
  have hzero := hs.sound
  unfold reqCount coreReqs at hzero
  cases q with
  | admin =>
      change 0 < Slots.held (Key.isUnsound ∘ keyOf) s.core.adminTab.inflight at hcount
      dsimp only at hzero
      omega
  | io =>
      change 0 < Slots.held (Key.isUnsound ∘ keyOf) s.core.ioTab.inflight at hcount
      dsimp only at hzero
      omega

theorem nvmeTeardownQueue_core (s : State) (q : QueueId) :
    (nvmeTeardownQueue s q).core =
      (stamp (s.core.setTab q SlotTable.gone) s.core.allocs
        [.teardown (s.core.tab q).occupants]).setRing q Ring.gone := by
  cases q <;> rfl

theorem nvmeTeardownQueue_spec (q : QueueId) (hstir : P.stir)
    (hlose : ∀ r, r ∈ (s.core.tab q).occupants → P.lose (keyOf r))
    (hidle : h.ahead = 0 ∧ h.batch = false) :
    Goes env P s.core h (nvmeTeardownQueue s q).core h := by
  rw [nvmeTeardownQueue_core]
  exact .move fun _ => .teardown q hstir hlose (by simp) hidle

theorem occupants_gone {t : SlotTable} (hgone : t = SlotTable.gone) : t.occupants = [] := by
  rw [hgone]
  rfl

/-- `nvme_setup_queue` of a queue that is gone. -/
theorem nvmeSetupQueue_spec {q : QueueId} (hstir : P.stir)
    (hgone : s.core.tab q = SlotTable.gone) (howes : q = .io → h.owes = true)
    (hidle : h.ahead = 0 ∧ h.batch = false) :
    Goes env P s.core h (nvmeSetupQueue env s q (queueSize q)).1.core h ∧
      ((nvmeSetupQueue env s q (queueSize q)).2 = false →
        (nvmeSetupQueue env s q (queueSize q)).1.core.tab q = SlotTable.gone) := by
  let s₁ : State := { s with core := { s.core with allocs := s.core.allocs + 4 } }
  have htab : s₁.core.tab q = s.core.tab q := by
    cases q <;> rfl
  have hburn : Goes env P s.core h s₁.core h := .move fun _ => .burn 4
  unfold nvmeSetupQueue
  dsimp only
  split
  · refine ⟨hburn.trans ?_, fun hno => nomatch hno⟩
    have hset : (((s₁.setTab q (SlotTable.fresh (queueSize q) env.cfg.quirkSkipCidGen)).setRing
        q Ring.fresh).log (.queueSetup q)).core =
        (stamp (s₁.core.setTab q (SlotTable.fresh (queueSize q) env.cfg.quirkSkipCidGen))
          s₁.core.allocs [.queueSetup q]).setRing q Ring.fresh := by
      cases q <;> rfl
    change Goes env P s₁.core h (((s₁.setTab q
      (SlotTable.fresh (queueSize q) env.cfg.quirkSkipCidGen)).setRing q Ring.fresh).log
      (.queueSetup q)).core h
    rw [hset]
    refine .move fun _ => .setup q hstir ?_ howes hidle
    rw [htab, hgone]
    rfl
  · refine ⟨hburn.trans (nvmeTeardownQueue_spec q hstir ?_ hidle), fun _ => ?_⟩
    · rw [htab, occupants_gone hgone]
      simp
    · cases q <;> rfl

end Queues

/-! ### The end of a reset -/

section Finish

variable {i : Option Nat}

theorem nvmeResetFinish_false (env : Env) (hst : s.core.state = .resetting) :
    (nvmeResetFinish env s false).core =
      stamp { s.core with state := .dead } s.core.allocs
        [.phase .dead, .phase .deleting, .resetFinish false] := by
  unfold nvmeResetFinish nvmeChangeCtrlState
  simp only [State.log, Core.log, hst, ctrlTransition, if_true]
  rfl

/-- A reset that fails leaves the controller DEAD. -/
theorem nvmeResetFinish_false_spec (hstir : P.stir) (hgone : s.core.ioTab = SlotTable.gone)
    (howes : h.owes = true) :
    Goes env P s.core h (nvmeResetFinish env s false).core { h with owes := false } := by
  refine .assume fun hs => ?_
  rw [nvmeResetFinish_false env (hs.phase.owes howes).1]
  exact .move fun _ => .phase hstir (.die howes hgone)

theorem rebuildFailed_spec (hstir : P.stir) (hlose : Losable P .io)
    (hidle : h.ahead = 0 ∧ h.batch = false) (howes : h.owes = true) :
    Goes env P s.core h (rebuildFailed env s).core { h with owes := false } := by
  refine .assume fun hs => ?_
  refine (nvmeTeardownQueue_spec .io hstir (hlose.occupants hs) hidle).trans ?_
  exact nvmeResetFinish_false_spec hstir rfl howes

/-- `nvme_enable_aen` leaves the unit task blocked, or the controller as it was. -/
theorem nvmeEnableAen_spec (hstir : P.stir) (hs : Safe ⟨s.core, h⟩) :
    Goes env P s.core h (nvmeEnableAen env s).core h ∧
      ((nvmeEnableAen env s).core.unitBlocked = false →
        (nvmeEnableAen env s).core.state = s.core.state) := by
  unfold nvmeEnableAen
  dsimp only
  split
  · exact ⟨Goes.refl _ _, fun _ => rfl⟩
  · rename_i hmask
    have hsub := @nvmeSubmitSyncCmd_spec env P.calm h s
      { opcode := nvmeAdminSetFeatures, cdw10 := nvmeFeatAsyncEvent
        cdw11 := nvmeAenSupported &&& env.cfg.oaes } none .unitTask hs
    have hgo := hsub.plain rfl
    generalize nvmeSubmitSyncCmd env s .unitTask _ none = p at hgo ⊢
    obtain ⟨s₁, ret⟩ := p
    dsimp only at hgo ⊢
    split
    · refine ⟨hgo.of_calm.trans (.move fun _ => .phase hstir (.block hmask)), ?_⟩
      intro hno
      cases hno
    · exact ⟨hgo.of_calm, fun _ => (hgo.still hs).state⟩

theorem nvmeStartCtrl_spec (hstir : P.stir) (hlive : s.core.state = .live) :
    Goes env P s.core h (nvmeStartCtrl env s).core h := by
  refine .assume fun hs => ?_
  obtain ⟨hgo, hstate⟩ := @nvmeEnableAen_spec env P h s hstir hs
  unfold nvmeStartCtrl
  dsimp only
  split
  · exact hgo
  · rename_i hno
    have haer := @nvmeSubmitAer_spec env P.calm h (nvmeEnableAen env s)
    refine hgo.trans (haer.of_calm.trans (.assume fun hs' => .move fun _ => ?_))
    refine .phase hstir (.unquiesce ?_)
    refine (haer.still (hgo.safe hs)).state.trans ?_
    exact (hstate (by simpa using hno)).trans hlive

/-- The controller LIVE again, before `nvme_start_ctrl`. -/
def restarted (env : Env) (s : State) : State :=
  (nvmeChangeCtrlState (nvmeChangeCtrlState
    (((nvmeSetIoMaxInflight env s).log .sqCreated).log (.resetFinish true)) .connecting).1
    .live).1

theorem restarted_core (env : Env) (hst : s.core.state = .resetting) :
    (restarted env s).core =
      stamp { (nvmeSetIoMaxInflight env s).core with state := .live } s.core.allocs
        [.phase .live, .phase .connecting, .resetFinish true, .sqCreated] := by
  unfold restarted nvmeChangeCtrlState
  simp only [nvmeSetIoMaxInflight, State.log, Core.log, hst, ctrlTransition, if_true]
  rfl

theorem restarted_spec (hstir : P.stir) (howes : h.owes = true) :
    Goes env P s.core h (restarted env s).core { h with owes := false } := by
  refine .assume fun hs => ?_
  rw [restarted_core env (hs.phase.owes howes).1]
  have hcap : Goes env P s.core h (nvmeSetIoMaxInflight env s).core h :=
    .move fun _ => .phase hstir .setCap
  exact hcap.trans (.move fun _ => .phase hstir (.resetLive howes))

theorem nvmeIoSetupAsyncSq_zero (env : Env) (s : State) :
    nvmeIoSetupAsyncSq env s 0 =
      if (nvmeStartCtrl env (restarted env s)).core.unitBlocked then
        nvmeStartCtrl env (restarted env s)
      else nvmeQueueScan (nvmeStartCtrl env (restarted env s)) := by
  unfold nvmeIoSetupAsyncSq
  rw [if_neg (not_not.mpr rfl)]
  rfl

/-- A reset whose last rebuild command succeeds leaves the controller LIVE. -/
theorem nvmeIoSetupAsyncSq_zero_spec (hstir : P.stir) (howes : h.owes = true) :
    Goes env P s.core h (nvmeIoSetupAsyncSq env s 0).core { h with owes := false } := by
  refine .assume fun hs => ?_
  have hlive : (restarted env s).core.state = .live := by
    rw [restarted_core env (hs.phase.owes howes).1]
    rfl
  have hstart : Goes env P (restarted env s).core { h with owes := false }
      (nvmeStartCtrl env (restarted env s)).core { h with owes := false } :=
    nvmeStartCtrl_spec hstir hlive
  have hall := (restarted_spec hstir howes).trans hstart
  rw [nvmeIoSetupAsyncSq_zero]
  split
  · exact hall
  · exact hall

end Finish

/-! ### The rebuild chain -/

section Chain

/-- A step of the rebuild is submitted, or the reset fails. -/
theorem AdminResult.chain {d : Done} {result : State × Int} {f : State → State}
    (hres : AdminResult env P s.core h (some d) none result)
    (hchain : Key.isChain ⟨0, .admin, none, none, some d, none⟩ = true) (hstir : P.stir)
    (howes : h.owes = true)
    (hfeat : d = .ioSetupAsyncFeatures → s.core.ioTab = SlotTable.gone)
    (hfail : Goes env P result.1.core h (f result.1).core { h with owes := false }) :
    Goes env P s.core h (if result.2 ≠ 0 then f result.1 else result.1).core
      { h with owes := false } := by
  by_cases hzero : result.2 = 0
  · rw [if_neg (not_not.mpr hzero)]
    have hgo := hres.ok hzero (fun _ => ⟨hstir, howes⟩) (fun hd => hfeat (Option.some.inj hd))
    unfold Hand.launched at hgo
    rw [hchain, howes] at hgo
    exact hgo
  · rw [if_pos hzero]
    have hcalm := hres.failed hzero
    exact hcalm.of_calm.trans hfail

theorem nvmeIoSetupAsyncSq_spec (status : Nat) (hstir : P.stir) (hlose : Losable P .io)
    (hidle : h.ahead = 0 ∧ h.batch = false) (howes : h.owes = true) :
    Goes env P s.core h (nvmeIoSetupAsyncSq env s status).core { h with owes := false } := by
  by_cases hst : status = 0
  · subst hst
    exact nvmeIoSetupAsyncSq_zero_spec hstir howes
  · unfold nvmeIoSetupAsyncSq
    rw [if_pos hst]
    exact rebuildFailed_spec hstir hlose hidle howes

theorem nvmeIoSetupAsyncCq_spec (status : Nat) (hstir : P.stir) (hlose : Losable P .io)
    (hidle : h.ahead = 0 ∧ h.batch = false) (howes : h.owes = true) :
    Goes env P s.core h (nvmeIoSetupAsyncCq env s status).core { h with owes := false } := by
  unfold nvmeIoSetupAsyncCq
  split
  · exact rebuildFailed_spec hstir hlose hidle howes
  · refine .assume fun hs => ?_
    exact (nvmeSubmitAsyncCmd_spec .ioSetupAsyncSq none false hs).chain
      (f := rebuildFailed env) rfl hstir howes (fun hd => nomatch hd)
      (rebuildFailed_spec hstir hlose hidle howes)

theorem nvmeIoSetupAsyncFeatures_spec (status : Nat) (hstir : P.stir) (hlose : Losable P .io)
    (hidle : h.ahead = 0 ∧ h.batch = false) (howes : h.owes = true)
    (hgone : s.core.ioTab = SlotTable.gone) :
    Goes env P s.core h (nvmeIoSetupAsyncFeatures env s status).core
      { h with owes := false } := by
  unfold nvmeIoSetupAsyncFeatures
  split
  · exact nvmeResetFinish_false_spec hstir hgone howes
  · refine .assume fun hs => ?_
    have hset := @nvmeSetupQueue_spec env P h s .io hstir hgone (fun _ => howes) hidle
    change Goes env P s.core h (nvmeSetupQueue env s .io nvmeIoQueueSize).1.core h ∧
      ((nvmeSetupQueue env s .io nvmeIoQueueSize).2 = false →
        (nvmeSetupQueue env s .io nvmeIoQueueSize).1.core.tab .io = SlotTable.gone) at hset
    generalize nvmeSetupQueue env s .io nvmeIoQueueSize = p at hset ⊢
    obtain ⟨s₁, ok⟩ := p
    obtain ⟨hgo, hno⟩ := hset
    refine hgo.trans ?_
    cases ok with
    | false => exact nvmeResetFinish_false_spec hstir (hno rfl) howes
    | true =>
        refine .assume fun hs₁ => ?_
        exact (nvmeSubmitAsyncCmd_spec .ioSetupAsyncCq none false hs₁).chain
          (f := rebuildFailed env) rfl hstir howes (fun hd => nomatch hd)
          (rebuildFailed_spec hstir hlose hidle howes)

/-- The first step of the rebuild. -/
theorem nvmeResetRebuildIoAsync_spec (hstir : P.stir) (howes : h.owes = true)
    (hgone : s.core.ioTab = SlotTable.gone) :
    Goes env P s.core h (nvmeResetRebuildIoAsync env s).core { h with owes := false } := by
  refine .assume fun hs => ?_
  have hres := @nvmeSubmitAsyncCmd_spec env P h s
    { opcode := nvmeAdminSetFeatures, cdw10 := nvmeFeatNumQueues, cdw11 := 0 } none
    .ioSetupAsyncFeatures none false hs
  exact hres.chain (f := fun s => nvmeResetFinish env s false) rfl hstir howes (fun _ => hgone)
    (nvmeResetFinish_false_spec hstir (hres.ioTab.trans hgone) howes)

end Chain

end Refine
end NvmeDriver
