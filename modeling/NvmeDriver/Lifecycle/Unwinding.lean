import NvmeDriver.Lifecycle.Bringup

/-!
# Unwinding

Each step of the bring-up keeps the ledger in line with what the controller owns, and each
label of `nvme_probe_controller` leads down from its rung to the ground.
-/

namespace NvmeDriver
namespace Lifecycle

open Engine (CtrlState QueueId ctrlTransition)
open Lib (Ledger Tries)

section Steps

variable {w w' : World} {n m : Nat} {r : Resource}

theorem standing_start (answers : List Bool) : Standing 0 (World.start answers) where
  ledger := by
    refine Lib.Ledger.exactly_empty.congr fun r => ?_
    cases r with
    | queue q part => cases part <;> rfl
    | _ => rfl
  rung := ⟨rfl, rfl, rfl, rfl, rfl, rfl, rfl⟩

theorem owns_congr (hctrl : w'.ctrl = w.ctrl) (hid : w'.idBuffer = w.idBuffer)
    (hlost : w'.lost = w.lost) (r : Resource) : w'.owns r = w.owns r := by
  unfold World.owns
  rw [hctrl, hid, hlost]

/-- A pointer that is not set names nothing, whatever the pool. -/
theorem unset_and {ptr : Bool} (pool : Bool) (h : ptr = false) : (ptr && pool) = false := by
  rw [h]
  rfl

theorem owns_slabs (hr : r ∈ slabs) : w.owns r = w.ctrl.slabs := by
  simp only [slabs, List.mem_cons, List.not_mem_nil, or_false] at hr
  rcases hr with rfl | rfl | rfl | rfl <;> rfl

theorem owns_unitTask (hr : r ∈ unitTaskResources) : w.owns r = w.ctrl.unitTask := by
  simp only [unitTaskResources, List.mem_cons, List.not_mem_nil, or_false] at hr
  rcases hr with rfl | rfl | rfl | rfl | rfl <;> rfl

theorem owns_adminTask (hr : r ∈ adminTaskResources) : w.owns r = w.ctrl.adminTask := by
  simp only [adminTaskResources, List.mem_cons, List.not_mem_nil, or_false] at hr
  rcases hr with rfl | rfl | rfl | rfl <;> rfl

/-- A step that touches neither the ledger nor what is owned. -/
theorem Standing.of_same (h : Standing n w) (hledger : w'.ledger = w.ledger)
    (howns : ∀ r, w'.owns r = w.owns r) (hrung : At m w'.ctrl) : Standing m w' := by
  refine ⟨?_, hrung⟩
  unfold Orderly
  rw [hledger]
  exact h.ledger.congr fun r => (howns r).symm

theorem Standing.of_take (h : Standing n w) (hledger : w'.ledger = w.ledger.take r)
    (hfree : w.owns r = false) (howns : ∀ r', w'.owns r' = Function.update w.owns r true r')
    (hrung : At m w'.ctrl) : Standing m w' := by
  refine ⟨?_, hrung⟩
  unfold Orderly
  rw [hledger]
  exact (Ledger.Exactly.take h.ledger hfree).congr fun r' => (howns r').symm

theorem Standing.of_give (h : Standing n w) (hledger : w'.ledger = w.ledger.give r)
    (hheld : w.owns r = true) (howns : ∀ r', w'.owns r' = Function.update w.owns r false r')
    (hrung : At m w'.ctrl) : Standing m w' := by
  refine ⟨?_, hrung⟩
  unfold Orderly
  rw [hledger]
  exact (Ledger.Exactly.give h.ledger hheld).congr fun r' => (howns r').symm

theorem Blank.of_same (h : Blank w) (hqueues : w'.ctrl.queues = w.ctrl.queues)
    (heffects : w'.ctrl.effects = w.ctrl.effects) (hhost : w'.ctrl.hostMem = w.ctrl.hostMem)
    (hid : w'.idBuffer = w.idBuffer) (hlost : w'.lost = w.lost) : Blank w' :=
  ⟨fun q part => (congrFun (congrFun hqueues q) part).trans (h.queues q part),
    heffects.trans h.effects, hhost.trans h.hostMem, hid.trans h.idBuffer,
    hlost.trans h.lost⟩

theorem Standing.ask (h : Standing n w) : Standing n w.ask.2 :=
  h.of_same rfl (owns_congr rfl rfl rfl) h.rung

theorem Climbing.ask (h : Climbing n w) : Climbing n w.ask.2 :=
  ⟨h.toStanding.ask, h.toBlank.of_same rfl rfl rfl rfl rfl⟩

theorem Climbing.asks (h : Climbing n w) : Tries w.ask (Climbing n) (Climbing n) :=
  ⟨fun _ => h.ask, fun _ => h.ask⟩

/-! ### The rungs -/

theorem Climbing.hwInit (h : Climbing 0 w) : Tries (hwInit w) (Climbing 1) (Standing 0) := by
  unfold Lifecycle.hwInit
  refine h.asks.next (fun h => h.toStanding) fun h => ?_
  refine h.asks.next (fun h => h.toStanding) fun h => ?_
  have hfree : w.ask.2.ask.2.owns .board = false := h.rung.bar0
  have htaken := h.ledger.take hfree
  refine (Tries.any _).next (fun _ => ?_) fun _ => .success ⟨⟨?_, ?_⟩, ?_⟩
  · exact ⟨(h.ledger.take_give hfree).congr fun r => (owns_congr rfl rfl rfl r).symm, h.rung⟩
  · refine htaken.congr fun r => ?_
    cases r with
    | queue q part => cases part <;> rfl
    | _ => rfl
  · obtain ⟨-, h₂, h₃, h₄, h₅, h₆, h₇⟩ := h.rung
    exact ⟨rfl, h₂, h₃, h₄, h₅, h₆, h₇⟩
  · exact h.toBlank.of_same rfl rfl rfl rfl rfl

theorem Orderly.hwShutdown (h : Orderly w) (hboard : w.ctrl.bar0 = true) :
    Orderly (hwShutdown w) := by
  have hheld : w.owns .board = true := hboard
  refine (Ledger.Exactly.give h hheld).congr fun r => ?_
  cases r with
  | queue q part => cases part <;> rfl
  | _ => rfl

theorem Standing.hwShutdown (h : Standing 1 w) : Standing 0 (hwShutdown w) := by
  obtain ⟨h₁, h₂, h₃, h₄, h₅, h₆, h₇⟩ := h.rung
  exact ⟨Orderly.hwShutdown h.ledger h₁, rfl, h₂, h₃, h₄, h₅, h₆, h₇⟩

/-- A pool takes its blocks with it. -/
theorem Orderly.dmaPoolDelete (h : Orderly w) (hpool : w.ctrl.dmaPool = true) :
    Orderly (dmaPoolDelete w) := by
  have hheld : (w.owns .dmaPool && !inDmaPool .dmaPool) = true :=
    Bool.and_eq_true_iff.mpr ⟨hpool, rfl⟩
  refine (h.giveAll.give hheld).congr fun r => ?_
  cases r with
  | queue q part =>
      cases part <;> simp [World.owns, Ctrl.poolOf, Lifecycle.dmaPoolDelete, inDmaPool]
  | _ => simp [World.owns, Lifecycle.dmaPoolDelete, inDmaPool]

theorem Orderly.metaPoolDelete (h : Orderly w) (hpool : w.ctrl.metaPool = true) :
    Orderly (metaPoolDelete w) := by
  have hheld : (w.owns .metaPool && !inMetaPool .metaPool) = true :=
    Bool.and_eq_true_iff.mpr ⟨hpool, rfl⟩
  refine (h.giveAll.give hheld).congr fun r => ?_
  cases r with
  | queue q part =>
      cases part <;> simp [World.owns, Ctrl.poolOf, Lifecycle.metaPoolDelete, inMetaPool]
  | _ => simp [World.owns, Lifecycle.metaPoolDelete, inMetaPool]

/-- Two controllers differ in their pools at most. -/
structure SameBut (c c' : Ctrl) : Prop where
  bar0 : c'.bar0 = c.bar0
  slabs : c'.slabs = c.slabs
  unitTask : c'.unitTask = c.unitTask
  adminTask : c'.adminTask = c.adminTask
  attached : c'.attached = c.attached

theorem SameBut.trans {c c' c'' : Ctrl} (h : SameBut c c') (h' : SameBut c' c'') :
    SameBut c c'' :=
  ⟨h'.bar0.trans h.bar0, h'.slabs.trans h.slabs, h'.unitTask.trans h.unitTask,
    h'.adminTask.trans h.adminTask, h'.attached.trans h.attached⟩

/-- A pool that is created has no blocks yet. -/
theorem Orderly.dmaPoolCreate (h : Orderly w) (hb : Blank w) (hpool : w.ctrl.dmaPool = false) :
    Orderly (dmaPoolCreate w) ∧ Blank (dmaPoolCreate w) ∧
      SameBut w.ctrl (dmaPoolCreate w).ctrl := by
  have hask : Orderly w.ask.2 := h.congr fun r => (owns_congr rfl rfl rfl r).symm
  have hfree : w.ask.2.owns .dmaPool = false := hpool
  unfold Lifecycle.dmaPoolCreate
  dsimp only
  cases w.ask.1 with
  | false => exact ⟨hask, hb.of_same rfl rfl rfl rfl rfl, ⟨rfl, rfl, rfl, rfl, rfl⟩⟩
  | true =>
      refine ⟨(Ledger.Exactly.take hask hfree).congr fun r => ?_,
        hb.of_same rfl rfl rfl rfl rfl, ⟨rfl, rfl, rfl, rfl, rfl⟩⟩
      cases r with
      | queue q part => cases part <;>
          simp [World.owns, Ctrl.poolOf, World.take, World.ask, hb.queues]
      | _ => simp [World.owns, World.take, World.ask, hb.effects, hb.hostMem, hb.idBuffer, hb.lost]

theorem Orderly.metaPoolCreate (h : Orderly w) (hb : Blank w) (hpool : w.ctrl.metaPool = false) :
    Orderly (metaPoolCreate w) ∧ Blank (metaPoolCreate w) ∧
      SameBut w.ctrl (metaPoolCreate w).ctrl := by
  have hask : Orderly w.ask.2 := h.congr fun r => (owns_congr rfl rfl rfl r).symm
  have hfree : w.ask.2.owns .metaPool = false := hpool
  unfold Lifecycle.metaPoolCreate
  dsimp only
  cases w.ask.1 with
  | false => exact ⟨hask, hb.of_same rfl rfl rfl rfl rfl, ⟨rfl, rfl, rfl, rfl, rfl⟩⟩
  | true =>
      refine ⟨(Ledger.Exactly.take hask hfree).congr fun r => ?_,
        hb.of_same rfl rfl rfl rfl rfl, ⟨rfl, rfl, rfl, rfl, rfl⟩⟩
      cases r with
      | queue q part => cases part <;>
          simp [World.owns, Ctrl.poolOf, World.take, World.ask, hb.queues]
      | _ => simp [World.owns, World.take, World.ask]

theorem dmaPoolCreate_metaPool (w : World) :
    (dmaPoolCreate w).ctrl.metaPool = w.ctrl.metaPool := by
  unfold dmaPoolCreate
  dsimp only
  split <;> rfl

theorem Climbing.createPools (h : Climbing 1 w) :
    Tries (createPools w) (Climbing 2) (Standing 1) := by
  obtain ⟨h₁, h₂, h₃, h₄, h₅, h₆, h₇⟩ := h.rung
  obtain ⟨hdma, hblank, hsame⟩ := Orderly.dmaPoolCreate h.ledger h.toBlank h₂
  obtain ⟨hboth, hblank', hsame'⟩ :=
    Orderly.metaPoolCreate hdma hblank ((dmaPoolCreate_metaPool w).trans h₃)
  obtain ⟨hs₁, hs₂, hs₃, hs₄, hs₅⟩ := hsame.trans hsame'
  unfold Lifecycle.createPools
  dsimp only
  generalize metaPoolCreate (dmaPoolCreate w) = both at *
  refine Tries.test (fun hok => ?_) fun hno => .failure ?_
  · obtain ⟨hok₁, hok₂⟩ := Bool.and_eq_true_iff.mp hok
    exact .success ⟨⟨hboth, hs₁.trans h₁, hok₁, hok₂, hs₂.trans h₄, hs₃.trans h₅,
      hs₄.trans h₆, hs₅.trans h₇⟩, hblank'⟩
  · have hone : ∀ one : World, Orderly one → one.ctrl.dmaPool = false →
        SameBut both.ctrl one.ctrl →
        Standing 1 (if one.ctrl.metaPool then metaPoolDelete one else one) := by
      rintro one hone hoff ⟨ho₁, ho₂, ho₃, ho₄, ho₅⟩
      split
      · rename_i hmeta
        exact ⟨hone.metaPoolDelete hmeta, (ho₁.trans hs₁).trans h₁, hoff, rfl,
          (ho₂.trans hs₂).trans h₄, (ho₃.trans hs₃).trans h₅, (ho₄.trans hs₄).trans h₆,
          (ho₅.trans hs₅).trans h₇⟩
      · rename_i hmeta
        exact ⟨hone, (ho₁.trans hs₁).trans h₁, hoff, eq_false_of_ne_true hmeta,
          (ho₂.trans hs₂).trans h₄, (ho₃.trans hs₃).trans h₅, (ho₄.trans hs₄).trans h₆,
          (ho₅.trans hs₅).trans h₇⟩
    split
    · rename_i hdel
      exact hone _ (hboth.dmaPoolDelete hdel) rfl ⟨rfl, rfl, rfl, rfl, rfl⟩
    · rename_i hdel
      exact hone _ hboth (eq_false_of_ne_true hdel) ⟨rfl, rfl, rfl, rfl, rfl⟩

theorem Climbing.slabCacheInits (h : Climbing 2 w) : Climbing 3 (slabCacheInits w) := by
  obtain ⟨h₁, h₂, h₃, h₄, h₅, h₆, h₇⟩ := h.rung
  have hfree : ∀ r, r ∈ slabs → w.owns r = false := fun r hr => (owns_slabs hr).trans h₄
  refine ⟨⟨(Ledger.Exactly.takeEach h.ledger (by decide) hfree).congr fun r => ?_,
    h₁, h₂, h₃, rfl, h₅, h₆, h₇⟩, h.toBlank.of_same rfl rfl rfl rfl rfl⟩
  cases r with
  | queue q part => cases part <;> simp [World.owns, Ctrl.poolOf, Lifecycle.slabCacheInits, slabs]
  | slab k => cases k <;> simp [World.owns, Lifecycle.slabCacheInits, slabs]
  | _ => simp [World.owns, Lifecycle.slabCacheInits, slabs]

theorem Orderly.slabCacheDestroys (h : Orderly w) (hslabs : w.ctrl.slabs = true) :
    Orderly (slabCacheDestroys w) := by
  have hheld : ∀ r, r ∈ slabs.reverse → w.owns r = true := fun r hr =>
    (owns_slabs (List.mem_reverse.mp hr)).trans hslabs
  refine (Ledger.Exactly.giveEach h (by decide) hheld).congr fun r => ?_
  cases r with
  | queue q part =>
      cases part <;>
        simp [World.owns, Ctrl.poolOf, Lifecycle.slabCacheDestroys, World.giveEach, slabs]
  | slab k => cases k <;> simp [World.owns, Lifecycle.slabCacheDestroys, World.giveEach, slabs]
  | _ => simp [World.owns, Lifecycle.slabCacheDestroys, World.giveEach, slabs]

theorem Standing.slabCacheDestroys (h : Standing 3 w) : Standing 2 (slabCacheDestroys w) := by
  obtain ⟨h₁, h₂, h₃, h₄, h₅, h₆, h₇⟩ := h.rung
  exact ⟨Orderly.slabCacheDestroys h.ledger h₄, h₁, h₂, h₃, rfl, h₅, h₆, h₇⟩

/-- A task takes all it needs, or nothing. -/
theorem Orderly.takeChain {rs : List Resource} (h : Orderly w) (hnodup : rs.Nodup)
    (hfree : ∀ r, r ∈ rs → w.owns r = false) :
    Tries (w.takeChain rs)
      (fun w' => w'.ctrl = w.ctrl ∧ w'.idBuffer = w.idBuffer ∧ w'.lost = w.lost ∧
        w'.ledger.Exactly fun r => w.owns r || decide (r ∈ rs))
      (fun w' => w'.ctrl = w.ctrl ∧ w'.idBuffer = w.idBuffer ∧ w'.lost = w.lost ∧
        w'.ledger.Exactly w.owns) := by
  exact ⟨fun hok => ⟨rfl, rfl, rfl, (Ledger.Exactly.chain h hnodup hfree).1 hok⟩,
    fun hno => ⟨rfl, rfl, rfl, (Ledger.Exactly.chain h hnodup hfree).2 hno⟩⟩

/-- A refused task leaves all as it was. -/
theorem Standing.of_refused (h : Standing n w)
    (hout : w'.ctrl = w.ctrl ∧ w'.idBuffer = w.idBuffer ∧ w'.lost = w.lost ∧
      w'.ledger.Exactly w.owns) : Standing n w' := by
  obtain ⟨hctrl, hid, hlost, hled⟩ := hout
  exact ⟨hled.congr fun r => (owns_congr hctrl hid hlost r).symm, hctrl ▸ h.rung⟩

theorem Climbing.spawnUnitTask (h : Climbing 3 w) :
    Tries (spawnUnitTask w) (Climbing 4) (Standing 3) := by
  obtain ⟨h₁, h₂, h₃, h₄, h₅, h₆, h₇⟩ := h.rung
  have hfree : ∀ r, r ∈ unitTaskResources → w.owns r = false := fun r hr =>
    (owns_unitTask hr).trans h₅
  refine (Orderly.takeChain h.ledger (by decide) hfree).last ?_ h.toStanding.of_refused
  rintro ⟨hctrl, hid, hlost, hled⟩
  refine ⟨⟨hled.congr fun r => ?_, h₁, h₂, h₃, h₄, rfl, h₆, h₇⟩,
    h.toBlank.of_same rfl rfl rfl hid hlost⟩
  cases r with
  | queue q part => cases part <;>
      simp [World.owns, Ctrl.poolOf, World.takeChain, unitTaskResources]
  | _ => simp [World.owns, World.takeChain, unitTaskResources]

theorem Climbing.spawnAdminWorker (h : Climbing 4 w) :
    Tries (spawnAdminWorker w) (Climbing 5) (Standing 4) := by
  obtain ⟨h₁, h₂, h₃, h₄, h₅, h₆, h₇⟩ := h.rung
  have hfree : ∀ r, r ∈ adminTaskResources → w.owns r = false := fun r hr =>
    (owns_adminTask hr).trans h₆
  refine (Orderly.takeChain h.ledger (by decide) hfree).last ?_ h.toStanding.of_refused
  rintro ⟨hctrl, hid, hlost, hled⟩
  refine ⟨⟨hled.congr fun r => ?_, h₁, h₂, h₃, h₄, h₅, rfl, h₇⟩,
    h.toBlank.of_same rfl rfl rfl hid hlost⟩
  cases r with
  | queue q part => cases part <;>
      simp [World.owns, Ctrl.poolOf, World.takeChain, adminTaskResources]
  | _ => simp [World.owns, World.takeChain, adminTaskResources]

theorem Standing.joinUnitTask (h : Standing 4 w) : Standing 3 (joinUnitTask w) := by
  obtain ⟨h₁, h₂, h₃, h₄, h₅, h₆, h₇⟩ := h.rung
  have hheld : ∀ r, r ∈ unitTaskResources.reverse → w.owns r = true := fun r hr =>
    (owns_unitTask (List.mem_reverse.mp hr)).trans h₅
  unfold Lifecycle.joinUnitTask
  rw [if_pos (show w.ctrl.unitTask = true from h₅)]
  refine ⟨(Ledger.Exactly.giveEach h.ledger (by decide) hheld).congr fun r => ?_,
    h₁, h₂, h₃, h₄, rfl, h₆, h₇⟩
  cases r with
  | queue q part => cases part <;> simp [World.owns, Ctrl.poolOf, World.giveEach, unitTaskResources]
  | _ => simp [World.owns, World.giveEach, unitTaskResources]

theorem Standing.joinAdminWorker (h : Standing 5 w) : Standing 4 (joinAdminWorker w) := by
  obtain ⟨h₁, h₂, h₃, h₄, h₅, h₆, h₇⟩ := h.rung
  have hheld : ∀ r, r ∈ adminTaskResources.reverse → w.owns r = true := fun r hr =>
    (owns_adminTask (List.mem_reverse.mp hr)).trans h₆
  unfold Lifecycle.joinAdminWorker
  rw [if_pos (show w.ctrl.adminTask = true from h₆)]
  refine ⟨(Ledger.Exactly.giveEach h.ledger (by decide) hheld).congr fun r => ?_,
    h₁, h₂, h₃, h₄, h₅, rfl, h₇⟩
  cases r with
  | queue q part => cases part <;>
      simp [World.owns, Ctrl.poolOf, World.giveEach, adminTaskResources]
  | _ => simp [World.owns, World.giveEach, adminTaskResources]

theorem Climbing.nvmeIntEnable (h : Climbing 5 w) :
    Tries (nvmeIntEnable w) (Climbing 6) (Standing 5) := by
  refine h.asks.last (fun h => ?_) fun h => h.toStanding
  obtain ⟨h₁, h₂, h₃, h₄, h₅, h₆, h₇⟩ := h.rung
  refine ⟨h.toStanding.of_take rfl h₇ (fun r => ?_) ⟨h₁, h₂, h₃, h₄, h₅, h₆, rfl⟩,
    h.toBlank.of_same rfl rfl rfl rfl rfl⟩
  cases r with
  | queue q part => cases part <;> simp [World.owns, Ctrl.poolOf, World.take]
  | _ => simp [World.owns, World.take]

theorem Standing.nvmeIntShutdown (h : Standing 6 w) : Standing 5 (nvmeIntShutdown w) := by
  obtain ⟨h₁, h₂, h₃, h₄, h₅, h₆, h₇⟩ := h.rung
  unfold Lifecycle.nvmeIntShutdown
  rw [if_pos (show w.ctrl.bar0 = true from h₁)]
  refine h.of_give rfl h₇ (fun r => ?_) ⟨h₁, h₂, h₃, h₄, h₅, h₆, rfl⟩
  cases r with
  | queue q part => cases part <;> simp [World.owns, Ctrl.poolOf, World.give]
  | _ => simp [World.owns, World.give]

/-! ### The labels -/

theorem Standing.failPool (h : Standing 3 w) : Standing 0 (failPool w) := by
  obtain ⟨hled, h₁, h₂, h₃, h₄, h₅, h₆, h₇⟩ := h.slabCacheDestroys
  have hdma : Orderly (dmaPoolDelete (Lifecycle.slabCacheDestroys w)) :=
    Orderly.dmaPoolDelete hled h₂
  exact Standing.hwShutdown ⟨hdma.metaPoolDelete h₃, h₁, rfl, rfl, h₄, h₅, h₆, h₇⟩

theorem Standing.failUnitTask (h : Standing 4 w) : Standing 0 (failUnitTask w) :=
  h.joinUnitTask.failPool

theorem Standing.failAdminTask (h : Standing 5 w) : Standing 0 (failAdminTask w) :=
  h.joinAdminWorker.failUnitTask

theorem Standing.failInt (h : Standing 6 w) : Standing 0 (failInt w) :=
  h.nvmeIntShutdown.failAdminTask

/-! ### The queues -/

theorem queueBlocks_nodup (q : QueueId) : (queueBlocks q).Nodup := by cases q <;> decide

theorem mem_queueBlocks {q : QueueId} :
    r ∈ queueBlocks q ↔ ∃ part, r = .queue q part := by
  unfold queueBlocks
  rw [List.mem_map]
  constructor
  · rintro ⟨part, -, rfl⟩
    exact ⟨part, rfl⟩
  · rintro ⟨part, rfl⟩
    refine ⟨part, ?_, rfl⟩
    cases part <;> decide

theorem At.poolOf {c : Ctrl} (h : At 6 c) (part : Part) : c.poolOf part = true := by
  cases part with
  | sq | cq => exact h.dmaPool
  | inflight | freeStack => exact h.metaPool

/-- What is owned once a queue has other memory. -/
def World.ownsWith (w : World) (q : QueueId) (has : Part → Bool) : Resource → Bool
  | .queue q' part => if q' = q then has part else w.ctrl.queues q' part
  | r => w.owns r

/-- The memory of one queue changes, and with it the ledger. -/
theorem Standing.of_queue {q : QueueId} {has : Part → Bool} (h : Standing 6 w)
    (hqueues : w'.ctrl = { w.ctrl with queues := Function.update w.ctrl.queues q has })
    (hid : w'.idBuffer = w.idBuffer) (hlost : w'.lost = w.lost)
    (hled : w'.ledger.Exactly (w.ownsWith q has)) : Standing 6 w' := by
  refine ⟨hled.congr fun r => ?_, ?_⟩
  · cases r with
    | queue q' part =>
        change _ = (w'.ctrl.queues q' part && w'.ctrl.poolOf part)
        rw [hqueues]
        change (if q' = q then has part else w.ctrl.queues q' part) =
          (Function.update w.ctrl.queues q has q' part && w.ctrl.poolOf part)
        rw [h.rung.poolOf, Bool.and_true]
        by_cases heq : q' = q
        · rw [if_pos heq, heq, Function.update_self]
        · rw [if_neg heq, Function.update_of_ne heq]
    | _ => simp only [World.ownsWith, World.owns, hqueues, hid, hlost]
  · rw [hqueues]
    obtain ⟨h₁, h₂, h₃, h₄, h₅, h₆, h₇⟩ := h.rung
    exact ⟨h₁, h₂, h₃, h₄, h₅, h₆, h₇⟩

/-- A queue without memory gets all of its blocks or none. -/
theorem Standing.nvmeSetupQueue {q : QueueId} (h : Standing 6 w)
    (hnone : ∀ part, w.ctrl.queues q part = false) :
    Tries (nvmeSetupQueue q w) (Standing 6) (Standing 6) := by
  have hfree : ∀ r, r ∈ queueBlocks q → w.owns r = false := by
    intro r hr
    obtain ⟨part, rfl⟩ := mem_queueBlocks.mp hr
    exact unset_and _ (hnone part)
  obtain ⟨hall, hno⟩ := Orderly.takeChain h.ledger (queueBlocks_nodup q) hfree
  refine ⟨fun hok => h.of_queue rfl rfl rfl ((hall hok).2.2.2.congr fun r => ?_),
    fun hfail => h.of_queue rfl rfl rfl ((hno hfail).2.2.2.congr fun r => ?_)⟩
  · have hok' : (w.takeChain (queueBlocks q)).1 = true := hok
    cases r with
    | queue q' part =>
        by_cases heq : q' = q
        · subst heq
          simp [World.ownsWith, mem_queueBlocks, hok']
        · simp [World.ownsWith, mem_queueBlocks, heq, World.owns, h.rung.poolOf]
    | _ => simp [World.ownsWith, mem_queueBlocks]
  · have hfail' : (w.takeChain (queueBlocks q)).1 = false := hfail
    cases r with
    | queue q' part =>
        by_cases heq : q' = q
        · subst heq
          simp [World.ownsWith, hfail', World.owns, hnone]
        · simp [World.ownsWith, heq, World.owns, h.rung.poolOf]
    | _ => rfl

theorem Standing.nvmeTeardownQueue (h : Standing 6 w) (q : QueueId) :
    Standing 6 (nvmeTeardownQueue q w) := by
  have hnodup : ((Part.all.filter (w.ctrl.queues q)).map (Resource.queue q)).Nodup := by
    refine List.Nodup.map (fun part part' heq => ?_) (List.Nodup.filter _ (by decide))
    cases heq
    rfl
  have hheld : ∀ r, r ∈ (Part.all.filter (w.ctrl.queues q)).map (Resource.queue q) →
      w.owns r = true := by
    intro r hr
    obtain ⟨part, hpart, rfl⟩ := List.mem_map.mp hr
    have hptr : w.ctrl.queues q part = true := (List.mem_filter.mp hpart).2
    exact Bool.and_eq_true_iff.mpr ⟨hptr, h.rung.poolOf part⟩
  refine h.of_queue rfl rfl rfl
    ((Ledger.Exactly.giveEach h.ledger hnodup hheld).congr fun r => ?_)
  cases r with
  | queue q' part =>
      by_cases heq : q' = q
      · subst heq
        cases part <;> simp [World.ownsWith, World.owns, Part.all] <;> grind
      · simp [World.ownsWith, heq, Ne.symm heq, World.owns, h.rung.poolOf]
  | _ => simp [World.ownsWith]

theorem Standing.failAdmin (h : Standing 6 w) : Standing 0 (failAdmin w) :=
  (h.nvmeTeardownQueue .admin).failInt

/-! ### The controller -/

theorem Climbing.nvmeDisableCtrl (h : Climbing 6 w) (shutdown : Bool) :
    Climbing 6 (nvmeDisableCtrl shutdown w).2 := by
  obtain ⟨h₁, h₂, h₃, h₄, h₅, h₆, h₇⟩ := h.rung
  refine ⟨h.toStanding.of_same rfl (fun r => ?_) ⟨h₁, h₂, h₃, h₄, h₅, h₆, h₇⟩,
    h.toBlank.of_same rfl rfl rfl rfl rfl⟩
  cases r with
  | queue q part => cases part <;> rfl
  | _ => rfl

theorem Standing.nvmeDisableCtrl (h : Standing 6 w) (shutdown : Bool) :
    Standing 6 (nvmeDisableCtrl shutdown w).2 := by
  obtain ⟨h₁, h₂, h₃, h₄, h₅, h₆, h₇⟩ := h.rung
  refine h.of_same rfl (fun r => ?_) ⟨h₁, h₂, h₃, h₄, h₅, h₆, h₇⟩
  cases r with
  | queue q part => cases part <;> rfl
  | _ => rfl

theorem Standing.nvmeEnableCtrl (h : Standing 6 w) : Standing 6 (nvmeEnableCtrl w).2 := by
  obtain ⟨h₁, h₂, h₃, h₄, h₅, h₆, h₇⟩ := h.rung
  unfold Lifecycle.nvmeEnableCtrl
  dsimp only
  split
  · exact h.ask
  · refine h.of_same rfl (fun r => ?_) ⟨h₁, h₂, h₃, h₄, h₅, h₆, h₇⟩
    cases r with
    | queue q part => cases part <;> rfl
    | _ => rfl

theorem Standing.failEnable (h : Standing 6 w) : Standing 0 (failEnable w) :=
  (h.nvmeDisableCtrl false).failAdmin

theorem Standing.nvmeSetupAdminQueue (h : Standing 6 w)
    (hnone : ∀ part, w.ctrl.queues .admin part = false) :
    Standing 6 (nvmeSetupAdminQueue w).2 := by
  obtain ⟨hok, hno⟩ := h.nvmeSetupQueue hnone
  unfold Lifecycle.nvmeSetupAdminQueue
  dsimp only
  split
  · rename_i hup
    exact (hok hup).of_same rfl (fun _ => rfl) (hok hup).rung
  · rename_i hup
    exact hno (eq_false_of_ne_true hup)

theorem nvmeSetupQueue_queues (q : QueueId) (w : World) :
    (nvmeSetupQueue q w).2.ctrl.queues =
      Function.update w.ctrl.queues q fun _ => (nvmeSetupQueue q w).1 :=
  rfl

theorem Standing.createQueue (h : Standing 6 w) (part : Part) (ok : Bool) :
    Standing 6 (w.createQueue part ok) :=
  h.of_same rfl (fun _ => rfl) h.rung

theorem Standing.nvmeSetupIoQueue (h : Standing 6 w)
    (hnone : ∀ part, w.ctrl.queues .io part = false) : Standing 6 (nvmeSetupIoQueue w).2 := by
  obtain ⟨hok, hno⟩ := h.ask.nvmeSetupQueue hnone
  unfold Lifecycle.nvmeSetupIoQueue nvmeSubmitSyncCmd
  dsimp only
  split
  · exact h.ask
  · split
    · rename_i hup
      exact hno (by simpa using hup)
    · rename_i hup
      have hcq := (hok (by simpa using hup)).ask.createQueue .cq
        (Lifecycle.nvmeSetupQueue .io w.ask.2).2.ask.1
      split
      · exact hcq.nvmeTeardownQueue .io
      · split
        · exact (hcq.ask.createQueue .sq _).nvmeTeardownQueue .io
        · exact hcq.ask.createQueue .sq _

/-- What most steps of the last rung leave alone. -/
structure Kept (w w' : World) : Prop where
  hostMem : w'.ctrl.hostMem = w.ctrl.hostMem
  idBuffer : w'.idBuffer = w.idBuffer
  lost : w'.lost = w.lost

theorem Kept.trans {w'' : World} (h : Kept w w') (h' : Kept w' w'') : Kept w w'' :=
  ⟨h'.hostMem.trans h.hostMem, h'.idBuffer.trans h.idBuffer, h'.lost.trans h.lost⟩

theorem kept_ask (w : World) : Kept w w.ask.2 := ⟨rfl, rfl, rfl⟩

theorem nvmeSetupAdminQueue_kept (w : World) : Kept w (nvmeSetupAdminQueue w).2 := by
  unfold nvmeSetupAdminQueue
  dsimp only
  split <;> exact ⟨rfl, rfl, rfl⟩

theorem nvmeEnableCtrl_kept (w : World) : Kept w (nvmeEnableCtrl w).2 := by
  unfold nvmeEnableCtrl
  dsimp only
  split <;> exact ⟨rfl, rfl, rfl⟩

theorem nvmeSetupIoQueue_kept (w : World) : Kept w (nvmeSetupIoQueue w).2 := by
  unfold nvmeSetupIoQueue nvmeSubmitSyncCmd
  dsimp only
  split
  · exact ⟨rfl, rfl, rfl⟩
  · split
    · exact ⟨rfl, rfl, rfl⟩
    · split
      · exact ⟨rfl, rfl, rfl⟩
      · split <;> exact ⟨rfl, rfl, rfl⟩

theorem changeState_kept (w : World) (target : CtrlState) : Kept w (changeState w target) := by
  unfold changeState
  split <;> exact ⟨rfl, rfl, rfl⟩

theorem Standing.changeState (h : Standing n w) (target : CtrlState) :
    Standing n (changeState w target) := by
  obtain ⟨h₁, h₂, h₃, h₄, h₅, h₆, h₇⟩ := h.rung
  unfold Lifecycle.changeState
  split
  · refine h.of_same rfl (fun r => ?_) ⟨h₁, h₂, h₃, h₄, h₅, h₆, h₇⟩
    cases r with
    | queue q part => cases part <;> rfl
    | _ => rfl
  · exact h

/-! ### Identify Controller -/

theorem Standing.ofEffects (h : Standing 6 w) (hnone : w.ctrl.effects = false) :
    Standing 6 { w.take .effects with ctrl.effects := true } := by
  obtain ⟨h₁, h₂, h₃, h₄, h₅, h₆, h₇⟩ := h.rung
  have hfree : w.owns .effects = false := unset_and _ hnone
  refine h.of_take rfl hfree (fun r => ?_) ⟨h₁, h₂, h₃, h₄, h₅, h₆, h₇⟩
  cases r with
  | queue q part => cases part <;> simp [World.owns, Ctrl.poolOf, World.take]
  | _ => simp [World.owns, World.take, h₂]

theorem nvmeInitEffectsLog_spec (h : Standing 6 w) (hnone : w.ctrl.effects = false) :
    Standing 6 (nvmeInitEffectsLog w).2 ∧ Kept w (nvmeInitEffectsLog w).2 := by
  unfold nvmeInitEffectsLog
  dsimp only
  split
  · exact ⟨h.ask.ofEffects hnone, rfl, rfl, rfl⟩
  · exact ⟨h.ask, rfl, rfl, rfl⟩

theorem nvmeGetEffectsLog_spec (h : Standing 6 w) (hnone : w.ctrl.effects = false) :
    Standing 6 (nvmeGetEffectsLog w).2.2 ∧ Kept w (nvmeGetEffectsLog w).2.2 ∧
      ((nvmeGetEffectsLog w).1 = false → (nvmeGetEffectsLog w).2.2.ctrl.effects = false) := by
  have hfree : w.owns .effects = false := unset_and _ hnone
  unfold nvmeGetEffectsLog
  dsimp only
  split
  · exact ⟨h.ask, ⟨rfl, rfl, rfl⟩, fun _ => hnone⟩
  · split
    · have hgot := h.ask.ofEffects hnone
      exact ⟨hgot.of_same rfl (fun _ => rfl) hgot.rung, ⟨rfl, rfl, rfl⟩,
        fun hno => absurd hno.symm Bool.false_ne_true⟩
    · exact ⟨⟨Ledger.Exactly.take_give h.ledger hfree, h.rung⟩, ⟨rfl, rfl, rfl⟩, fun _ => hnone⟩

theorem nvmeInitEffects_spec (h : Standing 6 w) :
    Standing 6 (nvmeInitEffects w).2 ∧ Kept w (nvmeInitEffects w).2 := by
  unfold nvmeInitEffects
  split
  · exact ⟨h, rfl, rfl, rfl⟩
  · rename_i hnot
    have hnone : w.ask.2.ctrl.effects = false := eq_false_of_ne_true hnot
    dsimp only
    split
    · obtain ⟨hput, hkept⟩ := nvmeInitEffectsLog_spec h.ask hnone
      exact ⟨hput, (kept_ask w).trans hkept⟩
    · obtain ⟨hlog, hkept, hfailed⟩ := nvmeGetEffectsLog_spec h.ask hnone
      split
      · exact ⟨hlog, (kept_ask w).trans hkept⟩
      · rename_i hno
        split
        · exact ⟨hlog, (kept_ask w).trans hkept⟩
        · obtain ⟨hput, hkept'⟩ :=
            nvmeInitEffectsLog_spec hlog (hfailed (eq_false_of_ne_true hno))
          exact ⟨hput, ((kept_ask w).trans hkept).trans hkept'⟩

theorem Standing.identifyBuffer (h : Standing 6 w) (hid : w.idBuffer = false) :
    Standing 6 { w.take .identify with idBuffer := true } := by
  have hfree : w.owns .identify = false := unset_and _ hid
  refine h.of_take rfl hfree (fun r => ?_) h.rung
  cases r with
  | queue q part => cases part <;> simp [World.owns, Ctrl.poolOf, World.take]
  | _ => simp [World.owns, World.take, h.rung.dmaPool]

theorem Standing.identifyFreed (h : Standing 6 w) (hid : w.idBuffer = true) :
    Standing 6 { w.give .identify with idBuffer := false } := by
  have hheld : w.owns .identify = true := Bool.and_eq_true_iff.mpr ⟨hid, h.rung.dmaPool⟩
  refine h.of_give rfl hheld (fun r => ?_) h.rung
  cases r with
  | queue q part => cases part <;> simp [World.owns, Ctrl.poolOf, World.give]
  | _ => simp [World.owns, World.give]

theorem nvmeInitIdentify_spec (h : Standing 6 w) (hid : w.idBuffer = false) :
    Standing 6 (nvmeInitIdentify w).2 ∧ Kept w (nvmeInitIdentify w).2 := by
  have hgot := (h.ask.identifyBuffer hid).ask
  unfold nvmeInitIdentify
  dsimp only
  split
  · exact ⟨h.ask, kept_ask w⟩
  · split
    · exact ⟨hgot.identifyFreed rfl, rfl, hid.symm, rfl⟩
    · split
      · exact ⟨hgot.identifyFreed rfl, rfl, hid.symm, rfl⟩
      · obtain ⟨heff, hkept⟩ := nvmeInitEffects_spec hgot
        exact ⟨heff.identifyFreed hkept.idBuffer, hkept.hostMem, hid.symm, hkept.lost⟩

theorem nvmeConfigureHostOptions_spec (h : Standing 6 w) (hlost : w.lost = false) :
    Standing 6 (nvmeConfigureHostOptions w).2 ∧
      (nvmeConfigureHostOptions w).2.ctrl.hostMem = w.ctrl.hostMem ∧
      (nvmeConfigureHostOptions w).2.idBuffer = w.idBuffer := by
  have hfree : w.ask.2.owns .hostBehavior = false :=
    unset_and _ hlost
  unfold nvmeConfigureHostOptions
  dsimp only
  split
  · exact ⟨h.ask, rfl, rfl⟩
  · split
    · refine ⟨h.ask.of_take rfl hfree (fun r => ?_) h.rung, rfl, rfl⟩
      cases r with
      | queue q part => cases part <;> simp [World.owns, Ctrl.poolOf, World.take, World.ask]
      | _ => simp [World.owns, World.take, World.ask, h.rung.dmaPool]
    · exact ⟨⟨Ledger.Exactly.take_give h.ask.ledger hfree, h.rung⟩, rfl, rfl⟩

theorem nvmeInitCtrlFinish_spec (h : Standing 6 w) (hid : w.idBuffer = false)
    (hlost : w.lost = false) :
    Standing 6 (nvmeInitCtrlFinish w).2 ∧
      (nvmeInitCtrlFinish w).2.ctrl.hostMem = w.ctrl.hostMem ∧
      (nvmeInitCtrlFinish w).2.idBuffer = false := by
  obtain ⟨hident, hkept⟩ := nvmeInitIdentify_spec h hid
  obtain ⟨hopt, hmem, hbuf⟩ := nvmeConfigureHostOptions_spec hident.ask (hkept.lost.trans hlost)
  unfold nvmeInitCtrlFinish
  dsimp only
  split
  · exact ⟨hident, hkept.hostMem, hkept.idBuffer.trans hid⟩
  · split
    · exact ⟨hident.ask, hkept.hostMem, hkept.idBuffer.trans hid⟩
    · split
      · exact ⟨hopt, hmem.trans hkept.hostMem, hbuf.trans (hkept.idBuffer.trans hid)⟩
      · obtain ⟨h₁, h₂, h₃, h₄, h₅, h₆, h₇⟩ := hopt.rung
        refine ⟨hopt.of_same rfl (fun r => ?_) ⟨h₁, h₂, h₃, h₄, h₅, h₆, h₇⟩,
          hmem.trans hkept.hostMem, hbuf.trans (hkept.idBuffer.trans hid)⟩
        cases r with
        | queue q part => cases part <;> rfl
        | _ => rfl

theorem Standing.nvmeSetupHostMem (h : Standing 6 w) (hnone : w.ctrl.hostMem = false) :
    Standing 6 (nvmeSetupHostMem w) := by
  obtain ⟨h₁, h₂, h₃, h₄, h₅, h₆, h₇⟩ := h.rung
  have hfree : w.ask.2.owns .hostMem = false :=
    unset_and _ hnone
  unfold Lifecycle.nvmeSetupHostMem
  dsimp only
  split
  · refine h.ask.of_take rfl hfree (fun r => ?_) ⟨h₁, h₂, h₃, h₄, h₅, h₆, h₇⟩
    cases r with
    | queue q part => cases part <;> simp [World.owns, Ctrl.poolOf, World.take, World.ask]
    | _ => simp [World.owns, World.take, World.ask, h₂]
  · exact h.ask

theorem Standing.nvmeFreeHostMem (h : Standing 6 w) : Standing 6 (nvmeFreeHostMem w) := by
  obtain ⟨h₁, h₂, h₃, h₄, h₅, h₆, h₇⟩ := h.rung
  unfold Lifecycle.nvmeFreeHostMem
  split
  · rename_i hmem
    have hheld : w.owns .hostMem = true := Bool.and_eq_true_iff.mpr ⟨hmem, h₂⟩
    refine h.of_give rfl hheld (fun r => ?_) ⟨h₁, h₂, h₃, h₄, h₅, h₆, h₇⟩
    cases r with
    | queue q part => cases part <;> simp [World.owns, Ctrl.poolOf, World.give]
    | _ => simp [World.owns, World.give]
  · exact h

/-! ### The probe -/

theorem climbing_start (answers : List Bool) : Climbing 0 (World.start answers) :=
  ⟨standing_start answers, fun _ _ => rfl, rfl, rfl, rfl, rfl⟩

theorem nvmeSetupAdminQueue_io (w : World) :
    (nvmeSetupAdminQueue w).2.ctrl.queues .io = w.ctrl.queues .io := by
  have hne : QueueId.io ≠ .admin := QueueId.noConfusion
  have hsame : (nvmeSetupQueue .admin w).2.ctrl.queues .io = w.ctrl.queues .io := by
    rw [nvmeSetupQueue_queues]
    exact Function.update_of_ne hne ..
  unfold nvmeSetupAdminQueue
  dsimp only
  split <;> exact hsame

theorem nvmeEnableCtrl_queues (w : World) :
    (nvmeEnableCtrl w).2.ctrl.queues = w.ctrl.queues := by
  unfold nvmeEnableCtrl
  dsimp only
  split <;> rfl

/-- Up, on the last rung, or down again. -/
theorem nvmeProbeController_spec (answers : List Bool) :
    Tries (nvmeProbeController (World.start answers))
      (fun w => Standing 6 w ∧ w.idBuffer = false) (Standing 0) := by
  unfold nvmeProbeController
  refine (climbing_start answers).hwInit.next id fun h => ?_
  refine h.createPools.next (fun h => h.hwShutdown) fun h => ?_
  refine h.slabCacheInits.spawnUnitTask.next (fun h => h.failPool) fun h => ?_
  refine h.spawnAdminWorker.next (fun h => h.failUnitTask) fun h => ?_
  refine h.nvmeIntEnable.next (fun h => h.failAdminTask) fun h => ?_
  refine (Tries.both (h.nvmeDisableCtrl false)).next (fun h => h.toStanding.failInt) fun h => ?_
  -- from here on the rung stays, and a failure goes down from it
  generalize (Lifecycle.nvmeDisableCtrl false _).2 = w at h ⊢
  have hadmin := h.toStanding.nvmeSetupAdminQueue (h.queues .admin)
  have hkept := nvmeSetupAdminQueue_kept w
  have hio := nvmeSetupAdminQueue_io w
  refine (Tries.both hadmin).next (fun h => h.failInt) fun _ => ?_
  generalize (nvmeSetupAdminQueue w).2 = w₁ at *
  have henable := hadmin.nvmeEnableCtrl
  replace hkept := hkept.trans (nvmeEnableCtrl_kept w₁)
  replace hio := (congrFun (nvmeEnableCtrl_queues w₁) .io).trans hio
  refine (Tries.both henable).next (fun h => h.failAdmin) fun _ => ?_
  generalize (nvmeEnableCtrl w₁).2 = w₂ at *
  have hqueue := henable.nvmeSetupIoQueue fun part => (congrFun hio part).trans (h.queues .io part)
  replace hkept := hkept.trans (nvmeSetupIoQueue_kept w₂)
  refine (Tries.both hqueue).next (fun h => h.failEnable) fun _ => ?_
  generalize (nvmeSetupIoQueue w₂).2 = w₃ at *
  have hconn := hqueue.changeState .connecting
  replace hkept := hkept.trans (changeState_kept w₃ .connecting)
  generalize changeState w₃ .connecting = w₄ at *
  obtain ⟨hfinish, hmem, hbuf⟩ := nvmeInitCtrlFinish_spec hconn
    (hkept.idBuffer.trans h.idBuffer) (hkept.lost.trans h.lost)
  refine (Tries.both hfinish).next (fun h => h.failEnable) fun _ => ?_
  refine .success ⟨(hfinish.nvmeSetupHostMem
    (hmem.trans (hkept.hostMem.trans h.hostMem))).changeState .live, ?_⟩
  refine (changeState_kept _ .live).idBuffer.trans (Eq.trans ?_ hbuf)
  unfold nvmeSetupHostMem
  dsimp only
  split <;> rfl

/-- Nothing is left on the ground. -/
theorem Standing.ground (h : Standing 0 w) : w.ledger.Exactly fun _ => false := by
  obtain ⟨h₁, h₂, h₃, h₄, h₅, h₆, h₇⟩ := h.rung
  refine h.ledger.congr fun r => ?_
  cases r with
  | queue q part => cases part <;> simp [World.owns, Ctrl.poolOf, h₂, h₃]
  | _ => simp [World.owns, h₁, h₂, h₃, h₄, h₅, h₆, h₇]

/-- Whatever fails while a controller is brought up, all that was taken is given back, and
nothing twice; when all goes well it has just what its pointers name. -/
theorem probe_unwinds (answers : List Bool) :
    ((nvmeProbeController (World.start answers)).1 = false →
      (nvmeProbeController (World.start answers)).2.ledger.Exactly fun _ => false) ∧
    ((nvmeProbeController (World.start answers)).1 = true →
      Orderly (nvmeProbeController (World.start answers)).2 ∧
        At 6 (nvmeProbeController (World.start answers)).2.ctrl) := by
  obtain ⟨hup, hdown⟩ := nvmeProbeController_spec answers
  refine ⟨fun hno => (hdown hno).ground, fun hok => ?_⟩
  exact ⟨(hup hok).1.ledger, (hup hok).1.rung⟩

example : (nvmeProbeController (World.start (List.replicate 40 true))).1 = true := by decide

end Steps

end Lifecycle
end NvmeDriver
