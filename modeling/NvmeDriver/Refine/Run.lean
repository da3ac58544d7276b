import NvmeDriver.Refine.Reset

/-!
# Runs refine the machine

Every step of the driver and of its clients is a path of moves between
configurations with an empty hand, under any policy it meets; so is every run from a
controller that has just come up.  A run only uses what its log shows, which is how
runs without cancellations or stray completions are singled out.
-/

namespace NvmeDriver
namespace Refine

open Engine
open Lib
open Ownership

variable {env : Env} {P : Policy} {s : State}

/-! ### Steps -/

section Steps

/-- What a step asks of the policy. -/
def Meets (env : Env) (P : Policy) (s : State) : Event → Prop
  | .irq admin io => unitRuns s → ProcessMeets env P s admin io
  | .tick admin io => unitRuns s → TickMeets env P s admin io
  | .reset =>
      unitRuns s ∧ s.ctl.resetSignal = true →
        ctrlTransition s.core.state .resetting = true → HaltMeets P
  | .drain => unitRuns s → DispatchMeets P s
  | .stop => unitRuns s → P.abort ∧ (P.spoil ∨ Unspoiled s.core) ∧ P.queue
  | .freeze | .unfreeze => P.stir
  | .fwActBegin => s.core.fwActSignal = true → P.stir
  | .fwActEnd timeout =>
      s.core.fwActRunning = true → P.stir ∧ (timeout = true → P.timeout)
  | .shutdown => unitRuns s → HaltMeets P ∧ ∀ k, P.lose k
  | .putMsg => P.queue
  | .adminSync _ | .collect | .scan _ _ _ => True

theorem step_spec (ev : Event) (hmeets : Meets env P s ev) :
    Goes env P s.core ⟨none, none, none, 0, false, false⟩ (step env s ev).core
      ⟨none, none, none, 0, false, false⟩ := by
  refine .assume fun hs => ?_
  cases ev with
  | putMsg => exact .move fun _ => .accept hmeets
  | irq admin io =>
      simp only [step]
      split
      · rename_i hrun
        exact nvmeProcessCompletions_spec (hmeets hrun)
      · exact Goes.refl _ _
  | tick admin io =>
      simp only [step]
      split
      · rename_i hrun
        exact nvmeTickWatchdog_spec (hmeets hrun)
      · exact Goes.refl _ _
  | reset =>
      simp only [step]
      split
      · rename_i hrun
        exact @nvmeResetController_spec env P
          { s with ctl := { s.ctl with resetSignal := false } } (hmeets hrun)
      · exact Goes.refl _ _
  | drain =>
      simp only [step]
      split
      · rename_i hrun
        exact (nvmeDrainMsgport_spec (hmeets hrun)).of_calm
      · exact Goes.refl _ _
  | stop =>
      simp only [step]
      split
      · rename_i hrun
        exact unitTaskExit_spec (hmeets hrun).1 (hmeets hrun).2.1 (hmeets hrun).2.2
      · exact Goes.refl _ _
  | adminSync cmd => exact (nvmeSubmitSyncCmd_spec .otherTask hs).plain rfl
  | collect => exact collectWaiter_spec
  | freeze => exact .move fun _ => .phase hmeets (.freeze true)
  | unfreeze => exact .move fun _ => .phase hmeets (.freeze false)
  | fwActBegin =>
      simp only [step]
      split
      · rename_i hsig
        exact .move fun _ => .phase (hmeets hsig) (.fwBegin hsig)
      · exact Goes.refl _ _
  | fwActEnd timeout =>
      simp only [step]
      split
      · rename_i hrun
        exact fwActEnd_spec timeout (hmeets hrun).1 hrun (hmeets hrun).2
      · exact Goes.refl _ _
  | scan dead deac maxZeroes => exact .move fun _ => .limits maxZeroes dead
  | shutdown =>
      simp only [step]
      split
      · rename_i hrun
        exact nvmeCtrlShutdown_spec (hmeets hrun).1 (hmeets hrun).2
      · exact Goes.refl _ _

/-- What a run asks of the policy. -/
def MeetsAll (env : Env) (P : Policy) : List Event → State → Prop
  | [], _ => True
  | ev :: events, s => Meets env P s ev ∧ MeetsAll env P events (step env s ev)

theorem run_spec (events : List Event) :
    ∀ {s : State}, MeetsAll env P events s →
      Goes env P s.core ⟨none, none, none, 0, false, false⟩ (run env events s).core
        ⟨none, none, none, 0, false, false⟩ := by
  induction events with
  | nil =>
      intro s _
      exact Goes.refl _ _
  | cons ev events ih =>
      intro s hmeets
      exact (step_spec ev hmeets.1).trans (ih hmeets.2)

end Steps

/-- A run may do anything. -/
def Policy.all : Policy where
  lose := fun _ => True
  cancel := fun _ => True
  status := fun _ _ => True
  abort := True
  stir := True
  publish := True
  stray := True
  exceed := True
  launch := fun _ _ => True
  timeout := True
  resume := True
  spoil := True
  translate := True
  queue := True

/-! ### The first state -/

section Boot

/-- A controller that has just come up, before its first asynchronous event request. -/
theorem fresh_safe (env : Env) {c : Core} {d₁ d₂ : Nat} (hd₁ : d₁ ≤ 4096) (hd₂ : d₂ ≤ 4096)
    (hadmin : c.adminTab = SlotTable.fresh d₁ env.cfg.quirkSkipCidGen)
    (hio : c.ioTab = SlotTable.fresh d₂ env.cfg.quirkSkipCidGen)
    (hring : c.ioRing = Ring.fresh) (hretry : c.retryList = []) (hwait : c.waiting = [])
    (hctxs : c.ctxs = Heap.empty) (hstall : c.ctxStalled = []) (hmsg : c.msgPort = [])
    (hpend : c.ioPending = []) (hlive : c.state = .live) (hsig : c.fwActSignal = false)
    (hrun : c.fwActRunning = false) (htrace : c.trace = []) (hcap : 0 < c.ioMaxInflight) :
    Safe ⟨c, ⟨none, none, none, 0, false, false⟩⟩ := by
  have hreq : ∀ p, reqCount p ⟨c, ⟨none, none, none, 0, false, false⟩⟩ = 0 := by
    intro p
    simp [reqCount, coreReqs, hadmin, hio, SlotTable.fresh, hretry, hwait, htrace, torn]
  have hfw : ¬fwPending c := by
    simp [fwPending, hsig, hrun]
  constructor
  case tabs =>
    intro q
    cases q with
    | admin =>
        change TabOk .admin c.adminTab
        rw [hadmin]
        exact tabOk_fresh .admin _ hd₁
    | io =>
        change TabOk .io c.ioTab
        rw [hio]
        exact tabOk_fresh .io _ hd₂
  case sound => exact hreq _
  case waiters => simp [hwait]
  case parked => simp [hretry]
  case ios =>
    intro i
    simp [ioCount, hreq, hmsg, hpend, hctxs, htrace, holds]
  case ids =>
    intro n
    simp [idCount, hreq, htrace]
  case ctxs =>
    intro x
    constructor <;> simp [hctxs, htrace, hstall, sibCount, hreq]
  case phase =>
    constructor <;> simp [hreq, hlive, hfw, hrun, InReset, Settled, htrace]
  case ring =>
    constructor <;> simp [Core.ring, hring, Ring.fresh]
  case room => exact hcap
  case effects => simp [htrace]
  case writes =>
    refine ⟨by simp [htrace], by simp [htrace], by simp [htrace], fun q tag r hread => ?_,
      by simp [hretry], fun r hh => by cases hh⟩
    cases q with
    | admin =>
        change c.adminTab.read tag = some r at hread
        rw [hadmin, read_fresh] at hread
        cases hread
    | io =>
        change c.ioTab.read tag = some r at hread
        rw [hio, read_fresh] at hread
        cases hread

theorem up_safe (env : Env) (maxZeroesSectors : Nat) :
    Safe ⟨(upState env maxZeroesSectors).core, ⟨none, none, none, 0, false, false⟩⟩ :=
  fresh_safe env (by decide : nvmeAdminQueueSize ≤ 4096)
    (by decide : nvmeIoQueueSize ≤ 4096) rfl rfl rfl rfl rfl rfl rfl rfl rfl rfl rfl rfl rfl
    (inflightCap_pos env nvmeIoQueueSize)

theorem boot_spec (env : Env) (P : Policy) (maxZeroesSectors : Nat) :
    Goes env P (upState env maxZeroesSectors).core ⟨none, none, none, 0, false, false⟩
      (bootState env maxZeroesSectors).core ⟨none, none, none, 0, false, false⟩ :=
  nvmeSubmitAer_spec

/-- A run goes through moves from the moment the controller comes up. -/
theorem run_path {maxZeroesSectors : Nat} {events : List Event}
    (hmeets : MeetsAll env P events (bootState env maxZeroesSectors)) :
    Relation.ReflTransGen (Move env P)
      ⟨(upState env maxZeroesSectors).core, ⟨none, none, none, 0, false, false⟩⟩
      ⟨(run env events (bootState env maxZeroesSectors)).core,
        ⟨none, none, none, 0, false, false⟩⟩ :=
  ((boot_spec env P maxZeroesSectors).trans (run_spec events hmeets))
    (up_safe env maxZeroesSectors)

end Boot

end Refine
end NvmeDriver
