import NvmeDriver.Lifecycle.Unwinding

/-!
# From probe to expunge

A controller that came up is reset any number of times and torn down in the end:
`nvme_reset_controller`, the asynchronous rebuild of the I/O queue it starts, and
`nvme_unprobe_all` (nvme_probe.c, nvme_queue.c).  The phase may change meanwhile as
`nvme_change_ctrl_state` lets it.
-/

namespace NvmeDriver
namespace Lifecycle

open Engine (CtrlState QueueId ctrlTransition)
open Lib (Ledger Tries)

/-! ### Model -/

/-- The command the rebuild of the I/O queue waits for. -/
inductive Chain
  | none
  | features
  | createCq
  | createSq
deriving DecidableEq, Repr

structure Life where
  world : World
  chain : Chain

/-- `nvme_reset_finish`. -/
def nvmeResetFinish (ok : Bool) (w : World) : World :=
  if ok then changeState (changeState w .connecting) .live
  else changeState (changeState w .deleting) .dead

/-- A step of the rebuild has failed once the I/O rings are there. -/
def createFailed (w : World) : World :=
  nvmeResetFinish false (nvmeTeardownQueue .io { w with mishap := true })

/-- The completion of the command the rebuild waits for: `nvme_io_setup_async_features`,
`nvme_io_setup_async_cq` and `nvme_io_setup_async_sq`. -/
def rebuildDone (ok : Bool) (l : Life) : Life :=
  let w := l.world
  match l.chain with
  | .none => l
  | .features =>
      if !ok then ⟨nvmeResetFinish false w, .none⟩ else
      let up := nvmeSetupQueue .io w
      if !up.1 then ⟨nvmeResetFinish false up.2, .none⟩ else
      let sent := up.2.ask
      if !sent.1 then ⟨createFailed sent.2, .none⟩
      else ⟨sent.2.createQueue .cq true, .createCq⟩
  | .createCq =>
      if !ok then ⟨createFailed w, .none⟩ else
      let sent := w.ask
      if !sent.1 then ⟨createFailed sent.2, .none⟩
      else ⟨sent.2.createQueue .sq true, .createSq⟩
  | .createSq =>
      if !ok then ⟨createFailed w, .none⟩ else ⟨nvmeResetFinish true w, .none⟩

/-- `nvme_flush_queue_inflight` of the admin queue force-completes it. -/
def flushAdmin (l : Life) : Life := rebuildDone false l

/-- `nvme_reset_rebuild_io_async`. -/
def nvmeResetRebuildIoAsync (w : World) : Life :=
  let sent := w.ask
  if !sent.1 then ⟨nvmeResetFinish false sent.2, .none⟩ else ⟨sent.2, .features⟩

/-- `nvme_reset_controller`. -/
def nvmeResetController (l : Life) : Life :=
  if !l.world.ctrl.bar0 then l else
  if !ctrlTransition l.world.ctrl.state .resetting then l else
  let flushed := (flushAdmin ⟨changeState l.world .resetting, l.chain⟩).world
  let down := nvmeTeardownQueue .admin (nvmeTeardownQueue .io (nvmeDisableCtrl false flushed).2)
  let adminQ := nvmeSetupAdminQueue down
  if !adminQ.1 then ⟨nvmeResetFinish false adminQ.2, .none⟩ else
  let enabled := nvmeEnableCtrl adminQ.2
  if !enabled.1 then ⟨nvmeResetFinish false enabled.2, .none⟩ else
  nvmeResetRebuildIoAsync enabled.2

/-- `nvme_ctrl_shutdown`. -/
def nvmeCtrlShutdown (l : Life) : World :=
  let flushed := (flushAdmin l).world
  if flushed.ctrl.bar0 then (nvmeDisableCtrl true (nvmeFreeHostMem flushed)).2 else flushed

/-- The effects log of a controller is freed. -/
def freeEffects (w : World) : World :=
  if w.ctrl.effects then { w.give .effects with ctrl.effects := false } else w

/-- What `nvme_unprobe_all` does to a controller. -/
def unprobe (l : Life) : World :=
  let w := nvmeCtrlShutdown l
  let down := if w.ctrl.bar0 then nvmeTeardownQueue .admin (nvmeTeardownQueue .io w) else w
  let off := hwShutdown (joinUnitTask (joinAdminWorker (nvmeIntShutdown down)))
  let bare := slabCacheDestroys (freeEffects off)
  let one := if bare.ctrl.dmaPool then dmaPoolDelete bare else bare
  if one.ctrl.metaPool then metaPoolDelete one else one

/-- What happens to a controller between its probe and its end; `answers` are the outcomes
of what can fail in it. -/
inductive Event
  | reset (answers : List Bool)
  | rebuild (ok : Bool) (answers : List Bool)
  /-- a phase change elsewhere, such as for a firmware activation -/
  | phase (target : CtrlState)

def step (l : Life) : Event → Life
  | .reset answers => nvmeResetController { l with world.answers := answers }
  | .rebuild ok answers => rebuildDone ok { l with world.answers := answers }
  | .phase target => { l with world := changeState l.world target }

def run (events : List Event) (l : Life) : Life := events.foldl step l

/-- The controller as the probe leaves it. -/
def probed (answers : List Bool) : Life :=
  ⟨(nvmeProbeController (World.start answers)).2, .none⟩

/-! ### One event -/

section Events

variable {w : World} {l : Life}

theorem nvmeResetFinish_kept (ok : Bool) (w : World) : Kept w (nvmeResetFinish ok w) := by
  cases ok with
  | true => exact (changeState_kept w .connecting).trans (changeState_kept _ .live)
  | false => exact (changeState_kept w .deleting).trans (changeState_kept _ .dead)

theorem Standing.nvmeResetFinish (h : Standing 6 w) (ok : Bool) :
    Standing 6 (nvmeResetFinish ok w) := by
  cases ok with
  | true => exact (h.changeState .connecting).changeState .live
  | false => exact (h.changeState .deleting).changeState .dead

theorem createFailed_kept (w : World) : Kept w (createFailed w) := by
  obtain ⟨hmem, hid, hlost⟩ :=
    nvmeResetFinish_kept false (nvmeTeardownQueue .io { w with mishap := true })
  exact ⟨hmem, hid, hlost⟩

theorem Standing.createFailed (h : Standing 6 w) : Standing 6 (createFailed w) := by
  have hmishap : Standing 6 { w with mishap := true } := h.of_same rfl (fun _ => rfl) h.rung
  exact (hmishap.nvmeTeardownQueue .io).nvmeResetFinish false

theorem changeState_queues (w : World) (target : CtrlState) :
    (changeState w target).ctrl.queues = w.ctrl.queues := by
  unfold changeState
  split <;> rfl

/-- What holds of a controller that came up, between any two events. -/
structure Settled (l : Life) : Prop where
  standing : Standing 6 l.world
  idBuffer : l.world.idBuffer = false
  /-- the I/O queue has no memory while the rebuild waits for its first command -/
  fresh : l.chain = .features → ∀ part, l.world.ctrl.queues .io part = false

theorem Settled.of_other {chain : Chain} (h : Standing 6 w) (hid : w.idBuffer = false)
    (hchain : chain ≠ .features) : Settled ⟨w, chain⟩ :=
  ⟨h, hid, fun hfeat => absurd hfeat hchain⟩

theorem Settled.answers (h : Settled l) (answers : List Bool) :
    Settled { l with world.answers := answers } :=
  ⟨h.standing.of_same rfl (fun _ => rfl) h.standing.rung, h.idBuffer, h.fresh⟩

theorem Settled.rebuildDone (h : Settled l) (ok : Bool) : Settled (rebuildDone ok l) := by
  obtain ⟨w, chain⟩ := l
  obtain ⟨hs, hid, hfresh⟩ := h
  dsimp only at hs hid hfresh
  have hfinish : ∀ (w' : World) (ok : Bool), Standing 6 w' → w'.idBuffer = false →
      Settled ⟨nvmeResetFinish ok w', .none⟩ := fun w' ok hs hid =>
    .of_other (hs.nvmeResetFinish ok) ((nvmeResetFinish_kept ok w').idBuffer.trans hid)
      Chain.noConfusion
  have hfailed : ∀ w' : World, Standing 6 w' → w'.idBuffer = false →
      Settled ⟨createFailed w', .none⟩ := fun w' hs hid =>
    .of_other hs.createFailed ((createFailed_kept w').idBuffer.trans hid) Chain.noConfusion
  unfold Lifecycle.rebuildDone
  cases chain with
  | none => exact ⟨hs, hid, hfresh⟩
  | features =>
      obtain ⟨hall, hnone⟩ := hs.nvmeSetupQueue (hfresh rfl)
      dsimp only
      split
      · exact hfinish w false hs hid
      · split
        · rename_i hup
          exact hfinish _ false (hnone (by simpa using hup)) hid
        · rename_i hup
          have hrings := hall (by simpa using hup)
          split
          · exact hfailed _ hrings.ask hid
          · exact .of_other (hrings.ask.createQueue .cq true) hid Chain.noConfusion
  | createCq =>
      dsimp only
      split
      · exact hfailed w hs hid
      · split
        · exact hfailed _ hs.ask hid
        · exact .of_other (hs.ask.createQueue .sq true) hid Chain.noConfusion
  | createSq =>
      dsimp only
      split
      · exact hfailed w hs hid
      · exact hfinish w true hs hid

theorem torn_down (q : QueueId) (part : Part) (w : World) :
    (nvmeTeardownQueue .admin (nvmeTeardownQueue .io w)).ctrl.queues q part = false := by
  cases q <;> rfl

/-- Both queues are torn down before the rings of the admin queue are taken anew. -/
theorem Settled.nvmeResetController (h : Settled l) : Settled (nvmeResetController l) := by
  have hbegin : Settled ⟨Lifecycle.changeState l.world .resetting, l.chain⟩ := by
    refine ⟨h.standing.changeState .resetting,
      (changeState_kept l.world .resetting).idBuffer.trans h.idBuffer, fun hfeat part => ?_⟩
    exact (changeState_queues l.world .resetting ▸ h.fresh hfeat part)
  have hflushed := hbegin.rebuildDone false
  unfold Lifecycle.nvmeResetController
  dsimp only
  split
  · exact h
  split
  · exact h
  unfold flushAdmin
  obtain ⟨hs, hid, -⟩ := hflushed
  generalize (Lifecycle.rebuildDone false _).world = w at *
  have hdown := ((hs.nvmeDisableCtrl false).nvmeTeardownQueue .io).nvmeTeardownQueue .admin
  replace hid : (nvmeTeardownQueue .admin (nvmeTeardownQueue .io
      (nvmeDisableCtrl false w).2)).idBuffer = false := hid
  have hnone := fun part => torn_down .admin part (Lifecycle.nvmeDisableCtrl false w).2
  have hio := fun part => torn_down .io part (Lifecycle.nvmeDisableCtrl false w).2
  generalize nvmeTeardownQueue .admin _ = down at *
  have hadmin := hdown.nvmeSetupAdminQueue hnone
  have hid₁ := (nvmeSetupAdminQueue_kept down).idBuffer.trans hid
  have hio₁ := nvmeSetupAdminQueue_io down
  split
  · exact .of_other (hadmin.nvmeResetFinish false)
      ((nvmeResetFinish_kept false _).idBuffer.trans hid₁) Chain.noConfusion
  generalize (nvmeSetupAdminQueue down).2 = w₁ at *
  have henabled := hadmin.nvmeEnableCtrl
  have hid₂ := (nvmeEnableCtrl_kept w₁).idBuffer.trans hid₁
  have hio₂ := (congrFun (nvmeEnableCtrl_queues w₁) .io).trans hio₁
  split
  · exact .of_other (henabled.nvmeResetFinish false)
      ((nvmeResetFinish_kept false _).idBuffer.trans hid₂) Chain.noConfusion
  generalize (nvmeEnableCtrl w₁).2 = w₂ at *
  unfold nvmeResetRebuildIoAsync
  dsimp only
  split
  · exact .of_other (henabled.ask.nvmeResetFinish false)
      ((nvmeResetFinish_kept false _).idBuffer.trans hid₂) Chain.noConfusion
  · exact ⟨henabled.ask, hid₂, fun _ part => (congrFun hio₂ part).trans (hio part)⟩

theorem Settled.step (h : Settled l) (e : Event) : Settled (step l e) := by
  cases e with
  | reset answers => exact (h.answers answers).nvmeResetController
  | rebuild ok answers => exact (h.answers answers).rebuildDone ok
  | phase target =>
      refine ⟨h.standing.changeState target,
        (changeState_kept l.world target).idBuffer.trans h.idBuffer, fun hfeat part => ?_⟩
      exact (changeState_queues l.world target ▸ h.fresh hfeat part)

theorem Settled.run (h : Settled l) (events : List Event) : Settled (run events l) := by
  induction events generalizing l with
  | nil => exact h
  | cons e events ih => exact ih (h.step e)

theorem settled_probed {answers : List Bool}
    (hup : (nvmeProbeController (World.start answers)).1 = true) : Settled (probed answers) := by
  obtain ⟨hs, hid⟩ := (nvmeProbeController_spec answers).succeeded hup
  exact .of_other hs hid Chain.noConfusion

end Events

/-! ### The end of a controller -/

section Expunge

variable {w : World} {l : Life}

theorem freeEffects_ctrl (w : World) :
    (freeEffects w).ctrl = { w.ctrl with effects := false } := by
  unfold freeEffects
  split
  · rfl
  · rename_i hnone
    rw [← eq_false_of_ne_true hnone]

theorem Orderly.freeEffects (h : Orderly w) (hpool : w.ctrl.dmaPool = true) :
    Orderly (freeEffects w) := by
  unfold Lifecycle.freeEffects
  split
  · rename_i heff
    have hheld : w.owns .effects = true := Bool.and_eq_true_iff.mpr ⟨heff, hpool⟩
    refine (Ledger.Exactly.give h hheld).congr fun r => ?_
    cases r with
    | queue q part => cases part <;> simp [World.owns, Ctrl.poolOf, World.give]
    | _ => simp [World.owns, World.give]
  · exact h

/-- The memory goes last, when the board is already given back. -/
theorem Standing.freeMemory (h : Standing 3 w) :
    Standing 0 (metaPoolDelete (dmaPoolDelete (Lifecycle.slabCacheDestroys
      (freeEffects (Lifecycle.hwShutdown w))))) := by
  obtain ⟨h₁, h₂, h₃, h₄, h₅, h₆, h₇⟩ := h.rung
  have hoff : Orderly (freeEffects (Lifecycle.hwShutdown w)) :=
    (Orderly.hwShutdown h.ledger h₁).freeEffects h₂
  have hctrl := freeEffects_ctrl (Lifecycle.hwShutdown w)
  generalize freeEffects (Lifecycle.hwShutdown w) = w₁ at *
  have hbare : Orderly (Lifecycle.slabCacheDestroys w₁) :=
    hoff.slabCacheDestroys ((congrArg Ctrl.slabs hctrl).trans h₄)
  have hdma : Orderly (dmaPoolDelete (Lifecycle.slabCacheDestroys w₁)) :=
    hbare.dmaPoolDelete ((congrArg Ctrl.dmaPool hctrl).trans h₂)
  refine ⟨hdma.metaPoolDelete ((congrArg Ctrl.metaPool hctrl).trans h₃), ?_, rfl, rfl, rfl,
    ?_, ?_, ?_⟩
  · exact congrArg Ctrl.bar0 hctrl
  · exact (congrArg Ctrl.unitTask hctrl).trans h₅
  · exact (congrArg Ctrl.adminTask hctrl).trans h₆
  · exact (congrArg Ctrl.attached hctrl).trans h₇

theorem Settled.nvmeCtrlShutdown (h : Settled l) : Standing 6 (nvmeCtrlShutdown l) := by
  have hs := (h.rebuildDone false).standing
  unfold Lifecycle.nvmeCtrlShutdown flushAdmin
  dsimp only
  split
  · exact hs.nvmeFreeHostMem.nvmeDisableCtrl true
  · exact hs

theorem Settled.unprobe (h : Settled l) : Standing 0 (unprobe l) := by
  have hs := h.nvmeCtrlShutdown
  unfold Lifecycle.unprobe
  generalize Lifecycle.nvmeCtrlShutdown l = w at *
  have hdown := ((hs.nvmeTeardownQueue .io).nvmeTeardownQueue .admin)
  dsimp only
  rw [if_pos (show w.ctrl.bar0 = true from hs.rung.bar0)]
  have hlow := hdown.nvmeIntShutdown.joinAdminWorker.joinUnitTask
  generalize joinUnitTask (joinAdminWorker _) = w₁ at *
  have hctrl := freeEffects_ctrl (hwShutdown w₁)
  have hdma : (slabCacheDestroys (freeEffects (hwShutdown w₁))).ctrl.dmaPool = true :=
    (congrArg Ctrl.dmaPool hctrl).trans hlow.rung.dmaPool
  have hmeta : (dmaPoolDelete (slabCacheDestroys
      (freeEffects (hwShutdown w₁)))).ctrl.metaPool = true :=
    (congrArg Ctrl.metaPool hctrl).trans hlow.rung.metaPool
  rw [if_pos hdma, if_pos hmeta]
  exact hlow.freeMemory

/-- Through any number of resets, rebuilds and phase changes the controller has just what
its pointers name, and at its end all of it is given back, nothing twice. -/
theorem lifecycle_balanced (answers last : List Bool) (events : List Event)
    (hup : (nvmeProbeController (World.start answers)).1 = true) :
    Orderly (run events (probed answers)).world ∧
      (unprobe { run events (probed answers) with world.answers := last }).ledger.Exactly
        fun _ => false := by
  have hrun := (settled_probed hup).run events
  exact ⟨hrun.standing.ledger, (hrun.answers last).unprobe.ground⟩

/-- A reset whose rebuild is cut off by another one. -/
theorem lifecycle_balanced_reset :
    (unprobe { run [.reset (List.replicate 8 true), .rebuild true (List.replicate 5 true),
        .phase .connecting, .phase .live, .reset (List.replicate 8 true)]
        (probed (List.replicate 40 true)) with world.answers := [true] }).ledger.Exactly
      fun _ => false :=
  (lifecycle_balanced (List.replicate 40 true) [true] _ (by decide)).2

end Expunge

end Lifecycle
end NvmeDriver
