import NvmeDriver.Lifecycle.Balance

/-!
# Rings the controller still knows

The controller reads and writes its rings by itself, from the moment it is told where they
are until CC.EN is cleared or a shutdown is requested.  The probe frees a ring in between
just where CSTS.RDY never came or a Create command failed, and no reset and no expunge
frees one unless that has happened.
-/

namespace NvmeDriver
namespace Lifecycle

open Engine (CtrlState QueueId ctrlTransition)
open Lib (Tries)

/-! ### What most functions leave alone -/

section Frame

variable {w w' w'' : World}

structure Untouched (w w' : World) : Prop where
  exposed : w'.exposed = w.exposed
  mishap : w'.mishap = w.mishap
  enabled : w'.ctrl.enabled = w.ctrl.enabled
  shutdown : w'.ctrl.shutdown = w.ctrl.shutdown

theorem Untouched.trans (h : Untouched w w') (h' : Untouched w' w'') : Untouched w w'' :=
  ⟨h'.exposed.trans h.exposed, h'.mishap.trans h.mishap, h'.enabled.trans h.enabled,
    h'.shutdown.trans h.shutdown⟩

theorem ask_untouched (w : World) : Untouched w w.ask.2 := ⟨rfl, rfl, rfl, rfl⟩

theorem hwInit_untouched (w : World) : Untouched w (hwInit w).2 := by
  unfold hwInit
  dsimp only
  repeat' split
  all_goals exact ⟨rfl, rfl, rfl, rfl⟩

theorem dmaPoolCreate_untouched (w : World) : Untouched w (dmaPoolCreate w) := by
  unfold dmaPoolCreate
  dsimp only
  split <;> exact ⟨rfl, rfl, rfl, rfl⟩

theorem metaPoolCreate_untouched (w : World) : Untouched w (metaPoolCreate w) := by
  unfold metaPoolCreate
  dsimp only
  split <;> exact ⟨rfl, rfl, rfl, rfl⟩

theorem spawnUnitTask_untouched (w : World) : Untouched w (spawnUnitTask w).2 := by
  unfold spawnUnitTask
  dsimp only
  split <;> exact ⟨rfl, rfl, rfl, rfl⟩

theorem spawnAdminWorker_untouched (w : World) : Untouched w (spawnAdminWorker w).2 := by
  unfold spawnAdminWorker
  dsimp only
  split <;> exact ⟨rfl, rfl, rfl, rfl⟩

theorem joinUnitTask_untouched (w : World) : Untouched w (joinUnitTask w) := by
  unfold joinUnitTask
  split <;> exact ⟨rfl, rfl, rfl, rfl⟩

theorem joinAdminWorker_untouched (w : World) : Untouched w (joinAdminWorker w) := by
  unfold joinAdminWorker
  split <;> exact ⟨rfl, rfl, rfl, rfl⟩

theorem nvmeIntEnable_untouched (w : World) : Untouched w (nvmeIntEnable w).2 := by
  unfold nvmeIntEnable
  dsimp only
  split <;> exact ⟨rfl, rfl, rfl, rfl⟩

theorem nvmeIntShutdown_untouched (w : World) : Untouched w (nvmeIntShutdown w) := by
  unfold nvmeIntShutdown
  split <;> exact ⟨rfl, rfl, rfl, rfl⟩

theorem nvmeSetupQueue_untouched (q : QueueId) (w : World) :
    Untouched w (nvmeSetupQueue q w).2 :=
  ⟨rfl, rfl, rfl, rfl⟩

theorem nvmeSetupAdminQueue_untouched (w : World) : Untouched w (nvmeSetupAdminQueue w).2 := by
  unfold nvmeSetupAdminQueue
  dsimp only
  split <;> exact ⟨rfl, rfl, rfl, rfl⟩

theorem changeState_untouched (w : World) (target : CtrlState) :
    Untouched w (changeState w target) := by
  unfold changeState
  split <;> exact ⟨rfl, rfl, rfl, rfl⟩

theorem nvmeInitEffects_untouched (w : World) : Untouched w (nvmeInitEffects w).2 := by
  unfold nvmeInitEffects nvmeInitEffectsLog nvmeGetEffectsLog
  dsimp only
  repeat' split
  all_goals exact ⟨rfl, rfl, rfl, rfl⟩

theorem nvmeInitIdentify_untouched (w : World) : Untouched w (nvmeInitIdentify w).2 := by
  unfold nvmeInitIdentify
  dsimp only
  split
  · exact ⟨rfl, rfl, rfl, rfl⟩
  split
  · exact ⟨rfl, rfl, rfl, rfl⟩
  split
  · exact ⟨rfl, rfl, rfl, rfl⟩
  · obtain ⟨h₁, h₂, h₃, h₄⟩ :=
      nvmeInitEffects_untouched { w.ask.2.take .identify with idBuffer := true }.ask.2
    exact ⟨h₁, h₂, h₃, h₄⟩

theorem nvmeConfigureHostOptions_untouched (w : World) :
    Untouched w (nvmeConfigureHostOptions w).2 := by
  unfold nvmeConfigureHostOptions
  dsimp only
  repeat' split
  all_goals exact ⟨rfl, rfl, rfl, rfl⟩

theorem nvmeInitCtrlFinish_untouched (w : World) : Untouched w (nvmeInitCtrlFinish w).2 := by
  have hident := nvmeInitIdentify_untouched w
  have hasked := hident.trans (ask_untouched _)
  have hoptions := hasked.trans (nvmeConfigureHostOptions_untouched _)
  unfold nvmeInitCtrlFinish
  dsimp only
  split
  · exact hident
  split
  · exact hasked
  split
  · exact hoptions
  · obtain ⟨h₁, h₂, h₃, h₄⟩ := hoptions
    exact ⟨h₁, h₂, h₃, h₄⟩

theorem nvmeSetupHostMem_untouched (w : World) : Untouched w (nvmeSetupHostMem w) := by
  unfold nvmeSetupHostMem
  dsimp only
  split <;> exact ⟨rfl, rfl, rfl, rfl⟩

theorem nvmeFreeHostMem_untouched (w : World) : Untouched w (nvmeFreeHostMem w) := by
  unfold nvmeFreeHostMem
  split <;> exact ⟨rfl, rfl, rfl, rfl⟩

theorem freeEffects_untouched (w : World) : Untouched w (freeEffects w) := by
  unfold freeEffects
  split <;> exact ⟨rfl, rfl, rfl, rfl⟩

theorem nvmeResetFinish_untouched (ok : Bool) (w : World) :
    Untouched w (nvmeResetFinish ok w) := by
  cases ok with
  | true => exact (changeState_untouched w .connecting).trans (changeState_untouched _ .live)
  | false => exact (changeState_untouched w .deleting).trans (changeState_untouched _ .dead)

/-- A controller that is off, or shut down, uses no ring. -/
theorem exposes_quiet (h : w.ctrl.enabled = false ∨ w.ctrl.shutdown = true) (q : QueueId) :
    w.exposes q = false := by
  unfold World.exposes
  rcases h with h | h <;> simp [h]

/-- A ring that is freed while the controller may use it. -/
theorem exposes_of_known {q : QueueId} (part : Part) (hon : w.ctrl.enabled = true)
    (hshn : w.ctrl.shutdown = false) (hhas : w.ctrl.queues q part = true)
    (htold : w.told q part = true) : w.exposes q = true := by
  have hany : (Part.all.any fun part => w.ctrl.queues q part && w.told q part) = true :=
    List.any_eq_true.mpr ⟨part, by cases part <;> decide, by rw [hhas, htold]; rfl⟩
  unfold World.exposes
  rw [hon, hshn, hany]
  rfl

end Frame

/-! ### The probe -/

section Probe

variable {w w' : World}

/-- A ring was exposed just where something went wrong. -/
def Matched (w : World) : Prop := w.exposed = w.mishap

/-- What is freed from here on makes no difference any more. -/
structure Still (w : World) : Prop where
  even : Matched w
  quiet : w.exposed = true ∨ w.ctrl.enabled = false

theorem Matched.untouched (h : Matched w) (hu : Untouched w w') : Matched w' :=
  hu.exposed.trans (Eq.trans h hu.mishap.symm)

theorem Still.untouched (h : Still w) (hu : Untouched w w') : Still w' :=
  ⟨h.even.untouched hu, by
    rw [hu.exposed, hu.enabled]
    exact h.quiet⟩

theorem Still.or_exposes (h : Still w) (q : QueueId) : (w.exposed || w.exposes q) = w.exposed := by
  rcases h.quiet with hout | hoff
  · rw [hout]
    rfl
  · rw [exposes_quiet (.inl hoff), Bool.or_false]

theorem Still.nvmeTeardownQueue (h : Still w) (q : QueueId) : Still (nvmeTeardownQueue q w) := by
  have hsame : (Lifecycle.nvmeTeardownQueue q w).exposed = w.exposed := h.or_exposes q
  exact h.untouched ⟨hsame, rfl, rfl, rfl⟩

theorem Still.dmaPoolDelete (h : Still w) : Still (dmaPoolDelete w) := by
  have hsame : (Lifecycle.dmaPoolDelete w).exposed = w.exposed := by
    change (w.exposed || w.exposes .admin || w.exposes .io) = w.exposed
    rw [h.or_exposes, h.or_exposes]
  exact h.untouched ⟨hsame, rfl, rfl, rfl⟩

theorem Still.createPools (h : Still w) : Still (createPools w).2 := by
  have hboth : Still (metaPoolCreate (dmaPoolCreate w)) :=
    (h.untouched (dmaPoolCreate_untouched w)).untouched (metaPoolCreate_untouched _)
  have hone : ∀ one : World, Still one →
      Still (if one.ctrl.metaPool then metaPoolDelete one else one) := by
    intro one hone
    split
    · exact hone.untouched ⟨rfl, rfl, rfl, rfl⟩
    · exact hone
  unfold Lifecycle.createPools
  dsimp only
  split
  · exact hboth
  split
  · exact hone _ hboth.dmaPoolDelete
  · exact hone _ hboth

theorem Still.failHw (h : Still w) : Still (failHw w) := h.untouched ⟨rfl, rfl, rfl, rfl⟩

theorem Still.failPool (h : Still w) : Still (failPool w) := by
  have hslabs : Still (slabCacheDestroys w) := h.untouched ⟨rfl, rfl, rfl, rfl⟩
  exact hslabs.dmaPoolDelete.untouched ⟨rfl, rfl, rfl, rfl⟩

theorem Still.failUnitTask (h : Still w) : Still (failUnitTask w) :=
  (h.untouched (joinUnitTask_untouched w)).failPool

theorem Still.failAdminTask (h : Still w) : Still (failAdminTask w) :=
  (h.untouched (joinAdminWorker_untouched w)).failUnitTask

theorem Still.failInt (h : Still w) : Still (failInt w) :=
  (h.untouched (nvmeIntShutdown_untouched w)).failAdminTask

theorem Still.failAdmin (h : Still (Lifecycle.nvmeTeardownQueue .admin w)) : Still (failAdmin w) :=
  h.failInt

theorem still_disabled (h : Matched w) : Still (nvmeDisableCtrl false w).2 :=
  ⟨h, .inr rfl⟩

theorem still_failEnable (h : Matched w) : Still (failEnable w) :=
  ((still_disabled h).nvmeTeardownQueue .admin).failAdmin

/-- CSTS.RDY never came, and `fail_admin` frees the rings of the admin queue. -/
theorem still_enableFailed (h : Still w) (hhas : w.ctrl.queues .admin .sq = true)
    (htold : w.told .admin .sq = true) :
    Tries (nvmeEnableCtrl w)
      (fun w' => Matched w' ∧ w'.ctrl.enabled = true ∧ w'.ctrl.shutdown = false)
      (fun w' => Still (nvmeTeardownQueue .admin w')) := by
  unfold nvmeEnableCtrl
  dsimp only
  refine Tries.next (Tries.any _) (fun _ => ?_) fun _ => ?_
  · exact (h.untouched (ask_untouched w)).nvmeTeardownQueue .admin
  · generalize hon : ({ w.ask.2 with ctrl.enabled := true, ctrl.shutdown := false } : World) = on
    have heven : Matched on := hon ▸ h.even
    have hknown : on.exposes .admin = true :=
      exposes_of_known .sq (hon ▸ rfl) (hon ▸ rfl) (hon ▸ hhas) (hon ▸ htold)
    refine ⟨fun hready => ⟨?_, hon ▸ rfl, hon ▸ rfl⟩, fun hnever => ?_⟩
    · change on.exposed = (on.mishap || !on.ask.1)
      rw [show on.ask.1 = true from hready, Bool.not_true, Bool.or_false]
      exact heven
    · have hout : (on.exposed || on.exposes .admin) = true := by rw [hknown, Bool.or_true]
      have hbad : (on.mishap || !on.ask.1) = true := by
        rw [show on.ask.1 = false from hnever, Bool.not_false, Bool.or_true]
      exact ⟨hout.trans hbad.symm, .inl hout⟩

theorem nvmeSetupAdminQueue_known (h : Still w) :
    Tries (nvmeSetupAdminQueue w)
      (fun w' => Still w' ∧ w'.ctrl.queues .admin .sq = true ∧ w'.told .admin .sq = true)
      Still := by
  have hsame := nvmeSetupAdminQueue_untouched w
  refine ⟨fun hok => ⟨h.untouched hsame, ?_, ?_⟩, fun _ => h.untouched hsame⟩
  · have hup : (nvmeSetupQueue .admin w).1 = true := hok
    unfold nvmeSetupAdminQueue
    dsimp only
    rw [if_pos hup]
    exact hup
  · have hup : (nvmeSetupQueue .admin w).1 = true := hok
    unfold nvmeSetupAdminQueue
    dsimp only
    rw [if_pos hup]
    rfl

/-- A Create command failed, and the rings of the I/O queue are freed. -/
theorem matched_createFailed {part : Part} (hon : w.ctrl.enabled = true)
    (hshn : w.ctrl.shutdown = false) (hhas : w.ctrl.queues .io part = true) :
    Matched (nvmeTeardownQueue .io (w.createQueue part false)) := by
  have htold : (w.createQueue part false).told .io part = true := by
    change Function.update w.told .io (Function.update (w.told .io) part true) .io part = true
    rw [Function.update_self, Function.update_self]
  have hknown : (w.createQueue part false).exposes .io = true :=
    exposes_of_known part hon hshn hhas htold
  change (w.exposed || (w.createQueue part false).exposes .io) = (w.mishap || !false)
  rw [hknown, Bool.not_false, Bool.or_true, Bool.or_true]

theorem matched_setupIoQueue (heven : Matched w) (hon : w.ctrl.enabled = true)
    (hshn : w.ctrl.shutdown = false) : Matched (nvmeSetupIoQueue w).2 := by
  have hcreated : ∀ (w' : World) (part : Part), Matched w' →
      Matched (w'.createQueue part true) :=
    fun w' part h => Eq.trans h (Bool.or_false _).symm
  unfold nvmeSetupIoQueue nvmeSubmitSyncCmd
  dsimp only
  split
  · exact heven
  split
  · exact heven
  rename_i hup
  have hall : ∀ part, (nvmeSetupQueue .io w.ask.2).2.ctrl.queues .io part = true := by
    intro part
    have hrings : (nvmeSetupQueue .io w.ask.2).1 = true := by simpa using hup
    exact hrings
  have hrest : Matched (nvmeSetupQueue .io w.ask.2).2 := heven
  replace hon : (nvmeSetupQueue .io w.ask.2).2.ctrl.enabled = true := hon
  replace hshn : (nvmeSetupQueue .io w.ask.2).2.ctrl.shutdown = false := hshn
  generalize (nvmeSetupQueue .io w.ask.2).2 = up at *
  cases hcq : up.ask.1 with
  | false => exact matched_createFailed (w := up.ask.2) hon hshn (hall .cq)
  | true =>
      rw [Bool.not_true, if_neg Bool.false_ne_true]
      cases hsq : (up.ask.2.createQueue .cq true).ask.1 with
      | false =>
          exact matched_createFailed (w := (up.ask.2.createQueue .cq true).ask.2) hon hshn
            (hall .sq)
      | true => exact hcreated _ .sq (hcreated up.ask.2 .cq hrest)

/-- The probe frees a ring the controller knows just where CSTS.RDY never came or a Create
command failed. -/
theorem probe_exposes_iff (answers : List Bool) :
    (nvmeProbeController (World.start answers)).2.exposed = true ↔
      (nvmeProbeController (World.start answers)).2.mishap = true := by
  suffices h : Tries (nvmeProbeController (World.start answers)) Matched Matched by
    rw [show _ = _ from h.either]
  have hstart : Still (World.start answers) := ⟨rfl, .inr rfl⟩
  unfold nvmeProbeController
  refine (Tries.both (hstart.untouched (hwInit_untouched _))).next (fun h => h.even) fun h => ?_
  refine (Tries.both h.createPools).next (fun h => h.failHw.even) fun h => ?_
  replace h : Still (slabCacheInits (createPools (hwInit (World.start answers)).2).2) :=
    h.untouched ⟨rfl, rfl, rfl, rfl⟩
  refine (Tries.both (h.untouched (spawnUnitTask_untouched _))).next
    (fun h => h.failPool.even) fun h => ?_
  refine (Tries.both (h.untouched (spawnAdminWorker_untouched _))).next
    (fun h => h.failUnitTask.even) fun h => ?_
  refine (Tries.both (h.untouched (nvmeIntEnable_untouched _))).next
    (fun h => h.failAdminTask.even) fun h => ?_
  refine (Tries.both (still_disabled h.even)).next (fun h => h.failInt.even) fun h => ?_
  refine (nvmeSetupAdminQueue_known h).next (fun h => h.failInt.even) fun h => ?_
  obtain ⟨h, hhas, htold⟩ := h
  refine (still_enableFailed h hhas htold).next (fun h => h.failAdmin.even) fun h => ?_
  obtain ⟨heven, hon, hshn⟩ := h
  -- CC.EN is set by now, and every failure clears it before anything else is freed
  refine (Tries.both (matched_setupIoQueue heven hon hshn)).next
    (fun h => (still_failEnable h).even) fun h => ?_
  generalize (nvmeSetupIoQueue _).2 = w at *
  have hconn := changeState_untouched w .connecting
  have hfinish := hconn.trans (nvmeInitCtrlFinish_untouched _)
  refine (Tries.both (h.untouched hfinish)).next
    (fun h => (still_failEnable h).even) fun h => .success ?_
  generalize (nvmeInitCtrlFinish _).2 = w₁ at *
  have hlive := (nvmeSetupHostMem_untouched w₁).trans (changeState_untouched _ .live)
  exact h.untouched hlive

/-- CSTS.RDY never comes. -/
example : (nvmeProbeController (World.start (List.replicate 21 true))).2.exposed = true := by
  decide

end Probe

/-! ### Resets and the end -/

section Lifecycle

variable {w w' : World} {l : Life}

def Careful (w : World) : Prop := w.exposed = true → w.mishap = true

theorem Careful.untouched (h : Careful w) (hu : Untouched w w') : Careful w' := by
  intro hout
  rw [hu.mishap]
  exact h (hu.exposed.symm.trans hout)

/-- A controller whose rings may be freed. -/
structure Guarded (w : World) : Prop where
  careful : Careful w
  quiet : w.ctrl.enabled = false ∨ w.ctrl.shutdown = true

theorem Guarded.untouched (h : Guarded w) (hu : Untouched w w') : Guarded w' := by
  refine ⟨h.careful.untouched hu, ?_⟩
  rw [hu.enabled, hu.shutdown]
  exact h.quiet

theorem Guarded.nvmeTeardownQueue (h : Guarded w) (q : QueueId) :
    Guarded (nvmeTeardownQueue q w) := by
  refine h.untouched ⟨?_, rfl, rfl, rfl⟩
  change (w.exposed || w.exposes q) = w.exposed
  rw [exposes_quiet h.quiet, Bool.or_false]

theorem Guarded.dmaPoolDelete (h : Guarded w) : Guarded (dmaPoolDelete w) := by
  refine h.untouched ⟨?_, rfl, rfl, rfl⟩
  change (w.exposed || w.exposes .admin || w.exposes .io) = w.exposed
  rw [exposes_quiet h.quiet, exposes_quiet h.quiet, Bool.or_false, Bool.or_false]

theorem guarded_disabled (h : Careful w) (shutdown : Bool) :
    Guarded (nvmeDisableCtrl shutdown w).2 := by
  refine ⟨h, ?_⟩
  cases shutdown with
  | false => exact .inl rfl
  | true => exact .inr rfl

theorem careful_createFailed (w : World) : Careful (createFailed w) := by
  intro _
  exact (nvmeResetFinish_untouched false _).mishap

theorem Careful.createQueue (h : Careful w) (part : Part) (ok : Bool) :
    Careful (w.createQueue part ok) :=
  fun hout => Bool.or_eq_true_iff.mpr (.inl (h hout))

theorem Careful.nvmeEnableCtrl (h : Careful w) : Careful (nvmeEnableCtrl w).2 := by
  unfold Lifecycle.nvmeEnableCtrl
  dsimp only
  split
  · exact h
  · exact fun hout => Bool.or_eq_true_iff.mpr (.inl (h hout))

theorem Careful.rebuildDone (h : Careful l.world) (ok : Bool) :
    Careful (rebuildDone ok l).world := by
  obtain ⟨w, chain⟩ := l
  have hfinish : ∀ (w' : World) (ok : Bool), Careful w' → Careful (nvmeResetFinish ok w') :=
    fun w' ok h => h.untouched (nvmeResetFinish_untouched ok w')
  unfold Lifecycle.rebuildDone
  cases chain with
  | none => exact h
  | features =>
      have hrings : Careful (nvmeSetupQueue .io w).2 := h.untouched (nvmeSetupQueue_untouched ..)
      dsimp only
      split
      · exact hfinish w false h
      split
      · exact hfinish _ false hrings
      split
      · exact careful_createFailed _
      · exact (hrings.untouched (ask_untouched _)).createQueue .cq true
  | createCq =>
      dsimp only
      split
      · exact careful_createFailed w
      split
      · exact careful_createFailed _
      · exact (h.untouched (ask_untouched w)).createQueue .sq true
  | createSq =>
      dsimp only
      split
      · exact careful_createFailed w
      · exact hfinish w true h

theorem Careful.nvmeResetController (h : Careful l.world) :
    Careful (nvmeResetController l).world := by
  have hfinish : ∀ w' : World, Careful w' → Careful (nvmeResetFinish false w') :=
    fun w' h => h.untouched (nvmeResetFinish_untouched false w')
  have hbegin : Careful (Life.mk (changeState l.world .resetting) l.chain).world :=
    h.untouched (changeState_untouched l.world .resetting)
  have hflushed := hbegin.rebuildDone false
  unfold Lifecycle.nvmeResetController
  dsimp only
  split
  · exact h
  split
  · exact h
  unfold flushAdmin
  generalize (Lifecycle.rebuildDone false _).world = w at *
  have hdown := ((guarded_disabled hflushed false).nvmeTeardownQueue .io).nvmeTeardownQueue .admin
  generalize Lifecycle.nvmeTeardownQueue .admin _ = down at *
  have hadmin := hdown.careful.untouched (nvmeSetupAdminQueue_untouched down)
  split
  · exact hfinish _ hadmin
  have henabled := hadmin.nvmeEnableCtrl
  split
  · exact hfinish _ henabled
  unfold nvmeResetRebuildIoAsync
  dsimp only
  split
  · exact hfinish _ (henabled.untouched (ask_untouched _))
  · exact henabled.untouched (ask_untouched _)

theorem Careful.step (h : Careful l.world) (e : Event) : Careful (step l e).world := by
  cases e with
  | reset answers =>
      exact Careful.nvmeResetController (l := { l with world.answers := answers }) h
  | rebuild ok answers =>
      exact Careful.rebuildDone (l := { l with world.answers := answers }) h ok
  | phase target => exact h.untouched (changeState_untouched l.world target)

theorem Careful.run (h : Careful l.world) (events : List Event) :
    Careful (run events l).world := by
  induction events generalizing l with
  | nil => exact h
  | cons e events ih => exact ih (h.step e)

theorem Careful.unprobe (h : Careful l.world) (hs : Settled l) : Careful (unprobe l) := by
  have hflushed := h.rebuildDone false
  have hstand := hs.rebuildDone false
  have hshut : Guarded (nvmeCtrlShutdown l) := by
    unfold nvmeCtrlShutdown flushAdmin
    dsimp only
    rw [if_pos (show _ = true from hstand.standing.rung.bar0)]
    exact guarded_disabled (hflushed.untouched (nvmeFreeHostMem_untouched _)) true
  unfold Lifecycle.unprobe
  generalize nvmeCtrlShutdown l = w at *
  have hdown : Guarded (if w.ctrl.bar0 then
      Lifecycle.nvmeTeardownQueue .admin (Lifecycle.nvmeTeardownQueue .io w) else w) := by
    split
    · exact (hshut.nvmeTeardownQueue .io).nvmeTeardownQueue .admin
    · exact hshut
  dsimp only
  generalize (if w.ctrl.bar0 then _ else _ : World) = down at *
  have hoff : Guarded (hwShutdown (joinUnitTask (joinAdminWorker (nvmeIntShutdown down)))) :=
    (((hdown.untouched (nvmeIntShutdown_untouched _)).untouched
      (joinAdminWorker_untouched _)).untouched (joinUnitTask_untouched _)).untouched
      ⟨rfl, rfl, rfl, rfl⟩
  generalize hwShutdown _ = off at *
  have hbare : Guarded (slabCacheDestroys (freeEffects off)) :=
    (hoff.untouched (freeEffects_untouched off)).untouched ⟨rfl, rfl, rfl, rfl⟩
  generalize slabCacheDestroys _ = bare at *
  have hone : Guarded (if bare.ctrl.dmaPool then Lifecycle.dmaPoolDelete bare else bare) := by
    split
    · exact hbare.dmaPoolDelete
    · exact hbare
  generalize (if bare.ctrl.dmaPool then _ else _ : World) = one at *
  split
  · exact hone.careful.untouched ⟨rfl, rfl, rfl, rfl⟩
  · exact hone.careful

/-- Unless CSTS.RDY never came or a Create command failed, no ring the controller knows is
freed while it may use it, from the probe through all resets to the end. -/
theorem exposed_after_mishap (answers last : List Bool) (events : List Event)
    (hup : (nvmeProbeController (World.start answers)).1 = true)
    (hout : (unprobe { run events (probed answers) with world.answers := last }).exposed = true) :
    (unprobe { run events (probed answers) with world.answers := last }).mishap = true := by
  have hprobe : Careful (probed answers).world := (probe_exposes_iff answers).mp
  have hrun := hprobe.run events
  have hsettled := ((settled_probed hup).run events).answers last
  exact Careful.unprobe (l := { run events (probed answers) with world.answers := last }) hrun
    hsettled hout

/-- Create I/O CQ fails in a rebuild. -/
theorem exposed_after_mishap_createCq :
    (unprobe { run [.reset (List.replicate 8 true), .rebuild true (List.replicate 5 true),
        .rebuild false []] (probed (List.replicate 40 true)) with
        world.answers := [true] }).mishap = true :=
  exposed_after_mishap (List.replicate 40 true) [true] _ (by decide) (by decide)

end Lifecycle

end Lifecycle
end NvmeDriver
