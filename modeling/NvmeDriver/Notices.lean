import NvmeDriver.Engine.State

/-!
# Namespace-change notices

Two tasks share the event bit `NVME_AER_NOTICE_NS_CHANGED` and the signals of
AdminWorker: the unit task handles notices and ends resets (nvme_aen.c, nvme_probe.c),
AdminWorker scans and completes firmware activations (admin_task.c, nvme_scan.c,
nvme_fw.c).  Any interleaving of the steps below is a run.  A notice is one event, with both
of its accesses to what the tasks share; each other step is one access.

A scan that finds the controller not LIVE returns at once.  The end of a reset queues
another one, the end of a firmware activation does not.
-/

namespace NvmeDriver
namespace Notices

open Engine (CtrlState ctrlTransition)

/-- Where AdminWorker is in its loop; `fw` is what is left of the signals it took. -/
inductive Worker
  | waiting
  /-- past `Wait()`, or past what it has dispatched so far -/
  | woken (scan fw : Bool)
  /-- in `nvme_scan_namespaces`, before its LIVE check -/
  | entered (fw : Bool)
  /-- past the check, before `nvme_init_non_mdts_limits` has returned -/
  | checked (fw : Bool)
  /-- past the test of the event bit -/
  | walking (fw : Bool)
  /-- in `nvme_fw_act_work` -/
  | activating
  /-- in `nvme_fw_act_work`, past the change to CONNECTING -/
  | activated
deriving DecidableEq, Repr

structure State where
  state : CtrlState
  /-- `NVME_AER_NOTICE_NS_CHANGED` in `ctrl->events` -/
  nsChanged : Bool
  scanSignal : Bool
  fwSignal : Bool
  worker : Worker
  /-- the unit task is in `nvme_start_ctrl`, past the change to LIVE -/
  starting : Bool
  /-- no scan has got past its LIVE check since the latest notice -/
  unserved : Bool
deriving DecidableEq, Repr

inductive Step
  /-- the unit task handles a Namespace Changed notice -/
  | notice
  /-- the unit task handles a Firmware Activation Starting notice -/
  | fwNotice
  /-- the unit task changes the state of the controller on the way of a reset -/
  | reset (target : CtrlState)
  /-- `nvme_reset_finish` makes the controller LIVE -/
  | resetLive
  /-- and queues a scan, once `nvme_start_ctrl` has returned -/
  | resetQueuesScan
  /-- AdminWorker returns from `Wait()` -/
  | wake
  /-- it calls `nvme_scan_namespaces` -/
  | enterScan
  /-- the LIVE check -/
  | checkLive
  /-- `nvme_init_non_mdts_limits` returns, with or without an errno -/
  | limits (failed : Bool)
  /-- the scan has run -/
  | endScan
  /-- AdminWorker calls `nvme_fw_act_work` -/
  | enterFw
  /-- the polling ends, after a timeout or with the change to CONNECTING -/
  | fwPolled (timeout : Bool)
  | fwLive
  /-- a passthrough command has run; its effects may queue a scan -/
  | passthru (queuesScan : Bool)
  /-- AdminWorker waits again -/
  | sleep
deriving DecidableEq, Repr

/-! ### Steps -/

/-- `nvme_change_ctrl_state`, where the transition is allowed. -/
def State.change (s : State) (target : CtrlState) : State :=
  if ctrlTransition s.state target then { s with state := target } else s

/-- One step; a step that is not enabled does nothing. -/
def step (s : State) : Step → State
  | .notice =>
      if s.starting then s
      else { s with nsChanged := true, scanSignal := true, unserved := true }
  | .fwNotice =>
      if s.starting then s
      else if ctrlTransition s.state .resetting then
        { s with state := .resetting, fwSignal := true }
      else s
  | .reset target =>
      if s.starting ∨ target = .live then s else s.change target
  | .resetLive =>
      if s.starting then s
      else if ctrlTransition s.state .live then { s with state := .live, starting := true }
      else s
  | .resetQueuesScan =>
      if s.starting then { s with scanSignal := true, starting := false } else s
  | .wake =>
      match s.worker with
      | .waiting =>
          { s with
            worker := .woken s.scanSignal s.fwSignal, scanSignal := false, fwSignal := false }
      | _ => s
  | .enterScan =>
      match s.worker with
      | .woken true fw => { s with worker := .entered fw, scanSignal := false }
      | _ => s
  | .checkLive =>
      match s.worker with
      | .entered fw =>
          if s.state = .live then { s with worker := .checked fw, unserved := false }
          else { s with worker := .woken false fw }
      | _ => s
  | .limits failed =>
      match s.worker with
      | .checked fw =>
          if failed then { s with worker := .woken false fw }
          else { s with worker := .walking fw, nsChanged := false }
      | _ => s
  | .endScan =>
      match s.worker with
      | .walking fw =>
          { s with worker := .woken false fw, scanSignal := s.scanSignal || s.nsChanged }
      | _ => s
  | .enterFw =>
      match s.worker with
      | .woken false true => { s with worker := .activating, fwSignal := false }
      | _ => s
  | .fwPolled timeout =>
      match s.worker with
      | .activating =>
          if timeout then { s with worker := .woken false false }
          else if ctrlTransition s.state .connecting then
            { s with worker := .activated, state := .connecting }
          else { s with worker := .woken false false }
      | _ => s
  | .fwLive =>
      match s.worker with
      | .activated => { s.change .live with worker := .woken false false }
      | _ => s
  | .passthru queuesScan =>
      match s.worker with
      | .woken false false => { s with scanSignal := s.scanSignal || queuesScan }
      | _ => s
  | .sleep =>
      match s.worker with
      | .woken false false => { s with worker := .waiting }
      | _ => s

/-- The state after a sequence of steps. -/
def run (s : State) (steps : List Step) : State := steps.foldl step s

/-- A controller that has been probed and scanned. -/
def probed : State :=
  { state := .live, nsChanged := false, scanSignal := false, fwSignal := false
    worker := .waiting, starting := false, unserved := false }

/-! ### No notice is lost -/

/-- The controller is LIVE and AdminWorker sleeps with nothing to wake it. -/
def Settled (s : State) : Prop :=
  s.state = .live ∧ s.worker = .waiting ∧ s.scanSignal = false ∧ s.fwSignal = false

/-- Every notice has been seen by a scan. -/
def Served (s : State) : Prop := s.nsChanged = false ∧ s.unserved = false

/-- A scan is on its way to the LIVE check. -/
def Coming (s : State) : Prop :=
  s.scanSignal = true ∨ (∃ fw, s.worker = .woken true fw) ∨ ∃ fw, s.worker = .entered fw

/-- The scan that is past the check will clear the event bit. -/
def Clearing (s : State) : Prop := s.unserved = false ∧ ∃ fw, s.worker = .checked fw

/-- Every notice is served or will be. -/
def Covered (s : State) : Prop := Served s ∨ Coming s ∨ Clearing s

/-- A step that does not strand a notice: a scan does not fail before it clears the event
bit unless another one is queued, and when the controller becomes LIVE again no notice is
left over from a scan that was turned away. -/
def Meets (s : State) : Step → Prop
  | .limits failed => failed = true → s.nsChanged = false ∨ s.scanSignal = true ∨ s.state ≠ .live
  | .resetLive => Covered s
  | .fwLive => Covered s
  | _ => True

/-- Every step of a run meets the condition. -/
def RunMeets : State → List Step → Prop
  | _, [] => True
  | s, e :: rest => Meets s e ∧ RunMeets (step s e) rest

/-- What holds in every state of such a run. -/
def Inv (s : State) : Prop := s.state = .live → Covered s

section Invariant

attribute [local simp] step

variable {s t : State}

/-- Away from the scan only the signal counts. -/
theorem Covered.keep (h : Covered s) (hns : t.nsChanged = s.nsChanged)
    (hun : t.unserved = s.unserved) (hsig : s.scanSignal = true → t.scanSignal = true)
    (hwoken : ∀ fw, s.worker ≠ .woken true fw) (hentered : ∀ fw, s.worker ≠ .entered fw)
    (hchecked : ∀ fw, s.worker ≠ .checked fw) : Covered t := by
  rcases h with ⟨h₁, h₂⟩ | (h | ⟨fw, h⟩ | ⟨fw, h⟩) | ⟨-, fw, h⟩
  · exact .inl ⟨hns.trans h₁, hun.trans h₂⟩
  · exact .inr (.inl (.inl (hsig h)))
  · exact absurd h (hwoken fw)
  · exact absurd h (hentered fw)
  · exact absurd h (hchecked fw)

/-- What the unit task leaves alone. -/
theorem Covered.same (h : Covered s) (hns : t.nsChanged = s.nsChanged)
    (hun : t.unserved = s.unserved) (hsig : t.scanSignal = s.scanSignal)
    (hw : t.worker = s.worker) : Covered t := by
  unfold Covered Served Coming Clearing
  rw [hns, hun, hsig, hw]
  exact h

theorem step_notice (hi : Inv s) : Inv (step s .notice) := by
  simp only [step]
  split
  · exact hi
  · exact fun _ => .inr (.inl (.inl rfl))

theorem step_fwNotice (hi : Inv s) : Inv (step s .fwNotice) := by
  simp only [step]
  split
  · exact hi
  · split
    · exact fun h => (nomatch h)
    · exact hi

theorem step_reset (target : CtrlState) (hi : Inv s) : Inv (step s (.reset target)) := by
  simp only [step, State.change]
  split
  · exact hi
  · rename_i hno
    split
    · exact fun h => absurd (.inr h) hno
    · exact hi

theorem step_resetLive (hi : Inv s) (hm : Meets s .resetLive) : Inv (step s .resetLive) := by
  simp only [step]
  split
  · exact hi
  · split
    · exact fun _ => Covered.same hm rfl rfl rfl rfl
    · exact hi

theorem step_resetQueuesScan (hi : Inv s) : Inv (step s .resetQueuesScan) := by
  simp only [step]
  split
  · exact fun _ => .inr (.inl (.inl rfl))
  · exact hi

theorem step_wake (hi : Inv s) : Inv (step s .wake) := by
  simp only [step]
  split
  · rename_i hw
    intro hlive
    rcases hi hlive with h | (h | ⟨fw, h⟩ | ⟨fw, h⟩) | ⟨-, fw, h⟩
    · exact .inl h
    · refine .inr (.inl (.inr (.inl ⟨s.fwSignal, ?_⟩)))
      rw [h]
    · exact absurd (hw.symm.trans h) (by simp)
    · exact absurd (hw.symm.trans h) (by simp)
    · exact absurd (hw.symm.trans h) (by simp)
  · exact hi

theorem step_enterScan (hi : Inv s) : Inv (step s .enterScan) := by
  simp only [step]
  split
  · rename_i fw _
    exact fun _ => .inr (.inl (.inr (.inr ⟨fw, rfl⟩)))
  · exact hi

theorem step_checkLive (hi : Inv s) : Inv (step s .checkLive) := by
  simp only [step]
  split
  · rename_i fw _
    split
    · exact fun _ => .inr (.inr ⟨rfl, fw, rfl⟩)
    · rename_i hno
      exact fun h => absurd h hno
  · exact hi

/-- A scan past its check: once the bit is clear, the notices it has seen are served. -/
theorem covered_of_checked {fw : Bool} (h : Covered s) (hw : s.worker = .checked fw)
    (hun : t.unserved = s.unserved) (hsig : t.scanSignal = s.scanSignal)
    (hclear : t.nsChanged = false) : Covered t := by
  rcases h with ⟨-, h⟩ | (h | ⟨fw', h⟩ | ⟨fw', h⟩) | ⟨h, -⟩
  · exact .inl ⟨hclear, hun.trans h⟩
  · exact .inr (.inl (.inl (hsig.trans h)))
  · exact absurd (hw.symm.trans h) (by simp)
  · exact absurd (hw.symm.trans h) (by simp)
  · exact .inl ⟨hclear, hun.trans h⟩

theorem step_limits {failed : Bool} (hi : Inv s) (hm : Meets s (.limits failed)) :
    Inv (step s (.limits failed)) := by
  simp only [step]
  split
  · rename_i fw hw
    split
    · rename_i hfail
      intro hlive
      rcases hm hfail with h | h | h
      · exact covered_of_checked (hi hlive) hw rfl rfl h
      · exact .inr (.inl (.inl h))
      · exact absurd hlive h
    · exact fun hlive => covered_of_checked (hi hlive) hw rfl rfl rfl
  · exact hi

theorem step_endScan (hi : Inv s) : Inv (step s .endScan) := by
  simp only [step]
  split
  · rename_i fw hw
    intro hlive
    refine (hi hlive).keep rfl rfl (fun h => ?_) ?_ ?_ ?_
    · simp [h]
    all_goals
      intro fw'
      rw [hw]
      exact fun h => (nomatch h)
  · exact hi

theorem step_enterFw (hi : Inv s) : Inv (step s .enterFw) := by
  simp only [step]
  split
  · rename_i hw
    intro hlive
    refine (hi hlive).keep rfl rfl id ?_ ?_ ?_
    all_goals
      intro fw'
      rw [hw]
      exact fun h => (nomatch h)
  · exact hi

theorem step_fwPolled (timeout : Bool) (hi : Inv s) : Inv (step s (.fwPolled timeout)) := by
  simp only [step]
  split
  · rename_i hw
    have hkeep : s.state = .live → Covered { s with worker := .woken false false } := by
      intro hlive
      refine (hi hlive).keep rfl rfl id ?_ ?_ ?_
      all_goals
        intro fw'
        rw [hw]
        exact fun h => (nomatch h)
    split
    · exact hkeep
    · split
      · exact fun h => (nomatch h)
      · exact hkeep
  · exact hi

theorem step_fwLive (hi : Inv s) (hm : Meets s .fwLive) : Inv (step s .fwLive) := by
  simp only [step]
  split
  · rename_i hw
    intro _
    have hchange : (s.change .live).nsChanged = s.nsChanged ∧
        (s.change .live).unserved = s.unserved ∧
        (s.change .live).scanSignal = s.scanSignal := by
      unfold State.change
      split <;> exact ⟨rfl, rfl, rfl⟩
    refine Covered.keep hm hchange.1 hchange.2.1 (fun h => hchange.2.2.trans h) ?_ ?_ ?_
    all_goals
      intro fw'
      rw [hw]
      exact fun h => (nomatch h)
  · exact hi

theorem step_passthru (queues : Bool) (hi : Inv s) : Inv (step s (.passthru queues)) := by
  simp only [step]
  split
  · rename_i hw
    intro hlive
    refine (hi hlive).keep rfl rfl (fun h => ?_) ?_ ?_ ?_
    · simp [h]
    all_goals
      intro fw'
      rw [hw]
      exact fun h => (nomatch h)
  · exact hi

theorem step_sleep (hi : Inv s) : Inv (step s .sleep) := by
  simp only [step]
  split
  · rename_i hw
    intro hlive
    refine (hi hlive).keep rfl rfl id ?_ ?_ ?_
    all_goals
      intro fw'
      rw [hw]
      exact fun h => (nomatch h)
  · exact hi

/-- A step that meets the condition keeps the invariant. -/
theorem step_inv {e : Step} (hi : Inv s) (hm : Meets s e) : Inv (step s e) := by
  cases e with
  | notice => exact step_notice hi
  | fwNotice => exact step_fwNotice hi
  | reset target => exact step_reset target hi
  | resetLive => exact step_resetLive hi hm
  | resetQueuesScan => exact step_resetQueuesScan hi
  | wake => exact step_wake hi
  | enterScan => exact step_enterScan hi
  | checkLive => exact step_checkLive hi
  | limits failed => exact step_limits hi hm
  | endScan => exact step_endScan hi
  | enterFw => exact step_enterFw hi
  | fwPolled timeout => exact step_fwPolled timeout hi
  | fwLive => exact step_fwLive hi hm
  | passthru queues => exact step_passthru queues hi
  | sleep => exact step_sleep hi

theorem run_inv (steps : List Step) : ∀ {s : State}, Inv s → RunMeets s steps →
    Inv (run s steps) := by
  induction steps with
  | nil => exact fun hi _ => hi
  | cons e rest ih => exact fun hi hm => ih (step_inv hi hm.1) hm.2

/-- A settled controller has nothing left over. -/
theorem Inv.served (hi : Inv s) (hs : Settled s) : Served s := by
  obtain ⟨hlive, hw, hsig, -⟩ := hs
  rcases hi hlive with h | (h | ⟨fw, h⟩ | ⟨fw, h⟩) | ⟨-, fw, h⟩
  · exact h
  · exact absurd (hsig.symm.trans h) (by simp)
  · exact absurd (hw.symm.trans h) (by simp)
  · exact absurd (hw.symm.trans h) (by simp)
  · exact absurd (hw.symm.trans h) (by simp)

end Invariant

/-- In every run whose steps strand no notice, whenever the controller is LIVE and
AdminWorker waits with no scan or firmware signal pending, the event bit is clear and a
scan has got past its LIVE check since the latest notice. -/
theorem notices_served (steps : List Step) (hm : RunMeets probed steps)
    (hs : Settled (run probed steps)) :
    (run probed steps).nsChanged = false ∧ (run probed steps).unserved = false :=
  (run_inv steps (fun _ => .inl ⟨rfl, rfl⟩) hm).served hs

/-- A notice, the scan it asks for, and a firmware activation after it. -/
def scanThenActivation : List Step :=
  [.notice, .wake, .enterScan, .checkLive, .limits false, .endScan, .sleep, .fwNotice, .wake,
    .enterFw, .fwPolled false, .fwLive, .sleep]

theorem notices_served_activation :
    Settled (run probed scanThenActivation) ∧
      (run probed scanThenActivation).nsChanged = false ∧
      (run probed scanThenActivation).unserved = false := by
  have hs : Settled (run probed scanThenActivation) := ⟨rfl, rfl, rfl, rfl⟩
  refine ⟨hs, notices_served scanThenActivation ?_ hs⟩
  refine ⟨trivial, trivial, trivial, trivial, fun h => (nomatch h), trivial, trivial, trivial,
    trivial, trivial, trivial, .inl ⟨rfl, rfl⟩, trivial, trivial⟩

/-- The firmware notice comes before AdminWorker has run: it scans first, is turned away,
and completes the activation.  Nobody asks for another scan. -/
theorem notice_lost :
    Settled (run probed [.notice, .fwNotice, .wake, .enterScan, .checkLive, .enterFw,
        .fwPolled false, .fwLive, .sleep]) ∧
      (run probed [.notice, .fwNotice, .wake, .enterScan, .checkLive, .enterFw,
        .fwPolled false, .fwLive, .sleep]).nsChanged = true ∧
      (run probed [.notice, .fwNotice, .wake, .enterScan, .checkLive, .enterFw,
        .fwPolled false, .fwLive, .sleep]).unserved = true :=
  ⟨⟨rfl, rfl, rfl, rfl⟩, rfl, rfl⟩

end Notices
end NvmeDriver
