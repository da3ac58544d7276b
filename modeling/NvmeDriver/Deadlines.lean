import NvmeDriver.Engine.Loop
import NvmeDriver.Lib.WrapClock

/-!
# Delays the controller asks for

Three waits whose length the controller reports: the Command Retry Delay of a request
that `nvme_retry_req` parks and `nvme_tick_watchdog` resubmits, the Maximum Time for
Firmware Activation of `nvme_fw_act_work` (nvme_fw.c), and the ready timeouts CAP.TO and
CRTO.CRWMT of `nvme_enable_ctrl` (nvme_probe.c).  All of them multiply the reported field
into microseconds and compare with the 32-bit microsecond clock by a signed difference.

The clock of a property here is the real time of every reading, which never goes back;
the driver sees it modulo `2 ^ 32`.
-/

namespace NvmeDriver
namespace Deadlines

open Engine
open Lib

/-- `time_deadline_passed`: the sign of the 32-bit difference. -/
def timeDeadlinePassed (now deadline : Nat) : Prop := deadlinePassed (2 ^ 31) now deadline

instance (now deadline : Nat) : Decidable (timeDeadlinePassed now deadline) :=
  inferInstanceAs (Decidable (deadlinePassed _ _ _))

/-! ### Firmware activation -/

/-- What a polling loop comes to: it still polls, the controller got there, it is gone,
or the time was up at a reading of the clock. -/
inductive PollEnd
  | polling
  | met
  | gone
  | gaveUp (reading : Nat)
deriving DecidableEq, Repr

/-- The deadline of `nvme_fw_act_work`, from its first reading of the clock. -/
def fwActDeadline (mtfa start : Nat) : Nat :=
  (start + (if mtfa ≠ 0 then mtfa * 100 * 1000 % 2 ^ 32 else nvmeAdminTimeout * 1000)) % 2 ^ 32

/-- The loop of `nvme_fw_act_work`: `pp` is `nvme_ctrl_pp_status` by poll, `time` the clock
by reading. -/
def fwActLoop (pp : Nat → Bool) (time : Nat → Nat) (deadline : Nat) : Nat → Nat → PollEnd
  | 0, _ => .polling
  | fuel + 1, i =>
      if pp i then
        if timeDeadlinePassed (time (i + 1)) deadline then .gaveUp (i + 1)
        else fwActLoop pp time deadline fuel (i + 1)
      else .met

/-- `nvme_fw_act_work` up to the end of its polling, in at most `fuel` polls. -/
def nvmeFwActWork (mtfa : Nat) (pp : Nat → Bool) (time : Nat → Nat) (fuel : Nat) : PollEnd :=
  fwActLoop pp time (fwActDeadline mtfa (time 0)) fuel 0

/-! ### Enabling the controller -/

/-- `NVME_CAP_TIMEOUT`. -/
def nvmeCapTimeout (cap : Nat) : Nat := cap / 2 ^ 24 % 2 ^ 8

/-- `cap & NVME_CAP_CRMS_CRWMS`. -/
def nvmeCapCrwms (cap : Nat) : Bool := cap / 2 ^ 59 % 2 == 1

/-- `NVME_CRTO_CRWMT`. -/
def nvmeCrtoCrwmt (crto : Nat) : Nat := crto % 2 ^ 16

/-- The timeout of `nvme_enable_ctrl`, in units of 500 ms. -/
def enableTimeout (cap crto : Nat) : Nat :=
  if nvmeCapCrwms cap then
    if nvmeCrtoCrwmt crto < nvmeCapTimeout cap then nvmeCapTimeout cap else nvmeCrtoCrwmt crto
  else nvmeCapTimeout cap

/-- The loop of `nvme_wait_ready`: `csts` is the status register by poll. -/
def waitReadyLoop (csts time : Nat → Nat) (mask val deadline : Nat) : Nat → Nat → PollEnd
  | 0, _ => .polling
  | fuel + 1, i =>
      if csts i = 2 ^ 32 - 1 then .gone
      else if csts i &&& mask = val then .met
      else if timeDeadlinePassed (time (i + 1)) deadline then .gaveUp (i + 1)
      else waitReadyLoop csts time mask val deadline fuel (i + 1)

/-- `nvme_wait_ready`, in at most `fuel` polls; the timeout is in seconds. -/
def nvmeWaitReady (csts time : Nat → Nat) (mask val timeout fuel : Nat) : PollEnd :=
  waitReadyLoop csts time mask val ((time 0 + timeout * 1000000 % 2 ^ 32) % 2 ^ 32) fuel 0

/-- `nvme_enable_ctrl` from the write of `CC.EN` on; `CSTS.RDY` is bit 0. -/
def nvmeEnableCtrl (cap crto : Nat) (csts time : Nat → Nat) (fuel : Nat) : PollEnd :=
  nvmeWaitReady csts time 1 1 ((enableTimeout cap crto + 1) / 2) fuel

/-! ### Resubmission of parked requests -/

/-- The parked requests whose time has come. -/
def dueRequests (now : Nat) (l : List Request) : List Request :=
  l.filter (fun r => !decide (notYet now r.deadlineUs))

/-- `nvme_tick_watchdog` up to its retry loop: the state there and its reading of the
clock. -/
def tickSweeps (env : Env) (s : State) (admin io : List Cqe) : State × Nat :=
  let t := (nvmeProcessCompletions env s admin io).getTime env
  (watchdogScanQueue env (watchdogScanQueue env t.2 .admin t.1) .io t.1, t.1)

/-- The parked requests a tick resubmits. -/
def resubmitted (env : Env) (s : State) (admin io : List Cqe) : List Request :=
  dueRequests (tickSweeps env s admin io).2 (tickSweeps env s admin io).1.core.retryList

/-! ### What the controller reports -/

/-- The fields a controller may report, CAP and CRTO as registers. -/
structure Reported where
  /-- `crdt[0..2]` -/
  crdt : Nat → Nat
  mtfa : Nat
  cap : Nat
  crto : Nat
  crdt_lt : ∀ k, crdt k < 2 ^ 16
  mtfa_lt : mtfa < 2 ^ 16

/-- The ready timeout the controller asks for, in units of 500 ms. -/
def Reported.ready (d : Reported) : Nat :=
  if nvmeCapCrwms d.cap then max (nvmeCapTimeout d.cap) (nvmeCrtoCrwmt d.crto)
  else nvmeCapTimeout d.cap

/-- A request that is parked is not resubmitted before its retry delay is over: it is
parked at a reading of the clock, and resubmitted by a tick that reads the clock later. -/
def RetriesWait (d : Reported) : Prop :=
  ∀ (env : Env) (clock : Nat → Nat), Monotone clock → (∀ n, env.time n = clock n % 2 ^ 32) →
    env.cfg.crdt = d.crdt →
    ∀ (complete : State → Request → State) (s s' : State) (req r : Request)
      (admin io : List Cqe),
      statusCrd req.status ≠ 0 →
      (nvmeRetryReq env complete s req).core.retryList = s.core.retryList ++ [r] →
      s.ctl.times < (nvmeProcessCompletions env s' admin io).ctl.times →
      r ∈ resubmitted env s' admin io →
      d.crdt (statusCrd req.status - 1) * 100 * 1000 ≤
        clock (nvmeProcessCompletions env s' admin io).ctl.times - clock s.ctl.times

/-- A firmware activation is not given up on before its time. -/
def ActivationWaits (d : Reported) : Prop :=
  ∀ (clock : Nat → Nat) (pp : Nat → Bool) (fuel n : Nat), Monotone clock →
    nvmeFwActWork d.mtfa pp (fun i => clock i % 2 ^ 32) fuel = .gaveUp n →
    d.mtfa * 100 * 1000 ≤ clock n - clock 0

/-- A controller that comes up is not given up on before its time. -/
def ReadyWaits (d : Reported) : Prop :=
  ∀ (clock csts : Nat → Nat) (fuel n : Nat), (∀ i, clock i + 1000 ≤ clock (i + 1)) →
    nvmeEnableCtrl d.cap d.crto csts (fun i => clock i % 2 ^ 32) fuel = .gaveUp n →
    d.ready * 500 * 1000 ≤ clock n - clock 0

/-- Every delay the controller asks for is waited out. -/
structure Honoured (d : Reported) : Prop where
  retries : RetriesWait d
  activation : ActivationWaits d
  ready : ReadyWaits d

/-! ### Delays that fit half a period -/

section Fit

variable {d : Reported}

theorem notYet_iff (now deadline : Nat) :
    notYet now deadline ↔ ¬timeDeadlinePassed now deadline := by
  unfold notYet timeDeadlinePassed deadlinePassed wrapSub
  exact Nat.not_lt.symm

/-- A delay that fits is over when the clock says so. -/
theorem elapsed_of_passed {start now delay : Nat} (hle : start ≤ now) (hfit : delay ≤ 2 ^ 31)
    (hpassed : timeDeadlinePassed (now % 2 ^ 32) ((start + delay) % 2 ^ 32)) :
    delay ≤ now - start := by
  by_contra hearly
  have hnot := not_deadlinePassed (t := start) (by decide : 0 < 2 ^ 31) hfit
    (Nat.lt_of_not_le hearly)
  rw [Nat.add_sub_cancel' hle] at hnot
  exact hnot hpassed

/-- What `nvme_retry_req` parks. -/
theorem nvmeRetryReq_parks {env : Env} {complete : State → Request → State} {s : State}
    {req r : Request} (hcrd : statusCrd req.status ≠ 0)
    (hpark : (nvmeRetryReq env complete s req).core.retryList = s.core.retryList ++ [r]) :
    r.deadlineUs = (env.time s.ctl.times +
      env.cfg.crdt (statusCrd req.status - 1) * 100 * 1000) % 2 ^ 32 := by
  unfold nvmeRetryReq at hpark
  rw [if_pos hcrd] at hpark
  have hlast := List.append_cancel_left hpark
  rw [← (List.cons.inj hlast).1]
  rfl

/-- The CRD field selects one of three delays. -/
theorem statusCrd_pred_lt (status : Nat) : statusCrd status - 1 < 3 := by
  have : statusCrd status < 4 := Nat.mod_lt _ (by decide)
  omega

theorem retriesWait_of_fit (hfit : ∀ k, k < 3 → d.crdt k ≤ 21474) : RetriesWait d := by
  intro env clock hmono htime hcfg complete s s' req r admin io hcrd hpark hlater hmem
  have hdue : ¬notYet (env.time (nvmeProcessCompletions env s' admin io).ctl.times)
      r.deadlineUs := of_decide_eq_false ((Bool.not_eq_true' _).mp (List.mem_filter.mp hmem).2)
  rw [notYet_iff, not_not, nvmeRetryReq_parks hcrd hpark, hcfg, htime, htime,
    Nat.mod_add_mod] at hdue
  refine elapsed_of_passed (hmono hlater.le) ?_ hdue
  have := hfit _ (statusCrd_pred_lt req.status)
  omega

/-- The loop of `nvme_fw_act_work` gives up at a reading past its deadline. -/
theorem fwActLoop_gaveUp {pp : Nat → Bool} {time : Nat → Nat} {deadline : Nat} (fuel : Nat) :
    ∀ {i n : Nat}, fwActLoop pp time deadline fuel i = .gaveUp n →
      timeDeadlinePassed (time n) deadline := by
  induction fuel with
  | zero =>
      intro i n h
      cases h
  | succ fuel ih =>
      intro i n h
      unfold fwActLoop at h
      split at h
      · split at h
        · rename_i hpassed
          cases h
          exact hpassed
        · exact ih h
      · cases h

theorem activationWaits_of_fit (hfit : d.mtfa ≤ 21474) : ActivationWaits d := by
  intro clock pp fuel n hmono hgave
  have hpassed := fwActLoop_gaveUp fuel hgave
  by_cases hzero : d.mtfa = 0
  · simp [hzero]
  · have hdeadline : fwActDeadline d.mtfa (clock 0 % 2 ^ 32) =
        (clock 0 + d.mtfa * 100 * 1000) % 2 ^ 32 := by
      unfold fwActDeadline
      rw [if_pos hzero, Nat.mod_eq_of_lt (by omega : d.mtfa * 100 * 1000 < 2 ^ 32),
        Nat.mod_add_mod]
    rw [hdeadline] at hpassed
    exact elapsed_of_passed (hmono (Nat.zero_le n)) (by omega) hpassed

/-- The loop of `nvme_wait_ready` gives up at a reading past its deadline. -/
theorem waitReadyLoop_gaveUp {csts time : Nat → Nat} {mask val deadline : Nat} (fuel : Nat) :
    ∀ {i n : Nat}, waitReadyLoop csts time mask val deadline fuel i = .gaveUp n →
      timeDeadlinePassed (time n) deadline := by
  induction fuel with
  | zero =>
      intro i n h
      cases h
  | succ fuel ih =>
      intro i n h
      unfold waitReadyLoop at h
      split at h
      · cases h
      · split at h
        · cases h
        · split at h
          · rename_i hpassed
            cases h
            exact hpassed
          · exact ih h

/-- The larger of the two timeouts is waited for. -/
theorem enableTimeout_eq (d : Reported) : enableTimeout d.cap d.crto = d.ready := by
  unfold enableTimeout Reported.ready
  split
  · split
    · omega
    · omega
  · rfl

theorem readyWaits_of_fit (hfit : d.ready ≤ 4294) : ReadyWaits d := by
  have hround : d.ready * 500 * 1000 ≤ (d.ready + 1) / 2 * 1000000 := by omega
  have hsecs : (d.ready + 1) / 2 ≤ 2147 := by omega
  have hhalf : (d.ready + 1) / 2 * 1000000 ≤ 2 ^ 31 :=
    (Nat.mul_le_mul_right 1000000 hsecs).trans (by decide)
  intro clock csts fuel n hpace hgave
  have hmono : Monotone clock :=
    monotone_nat_of_le_succ fun i => (Nat.le_add_right _ _).trans (hpace i)
  have hpassed := waitReadyLoop_gaveUp fuel hgave
  dsimp only at hpassed
  rw [enableTimeout_eq, Nat.mod_eq_of_lt (hhalf.trans_lt (by decide)), Nat.mod_add_mod] at hpassed
  exact hround.trans (elapsed_of_passed (hmono (Nat.zero_le n)) hhalf hpassed)

end Fit

/-! ### Delays that do not -/

section Overrun

variable {d : Reported}

/-- A moment before the end of a delay at which the clock says it is over. -/
def earlyMoment (delay : Nat) : Nat := if delay < 2 ^ 32 then 1000 else delay - 2 ^ 32

/-- Such a moment comes a millisecond after the start, or later, and before the end. -/
theorem passed_early (delay : Nat) (hlong : 2 ^ 31 + 1000 < delay) :
    earlyMoment delay < delay ∧
      timeDeadlinePassed (earlyMoment delay % 2 ^ 32) (delay % 2 ^ 32) := by
  unfold earlyMoment
  split
  · rename_i hshort
    have := deadlinePassed_of_short (H := 2 ^ 31) (t := 0) (e := 1000) hshort hlong
    rw [Nat.zero_add, Nat.zero_add] at this
    exact ⟨by omega, this⟩
  · rename_i hperiod
    have := deadlinePassed_of_period (H := 2 ^ 31) (t := 0) (by decide) (Nat.le_of_not_lt hperiod)
    rw [Nat.zero_add, Nat.zero_add] at this
    exact ⟨by omega, this⟩

/-- A clock that shows 0 first, then a given moment, then a millisecond more each time. -/
def lateClock (moment : Nat) (n : Nat) : Nat := if n = 0 then 0 else moment + (n - 1) * 1000

theorem lateClock_mono (moment : Nat) : Monotone (lateClock moment) := by
  refine monotone_nat_of_le_succ fun n => ?_
  unfold lateClock
  split
  · exact Nat.zero_le _
  · rw [if_neg (Nat.succ_ne_zero n)]
    omega

/-- A controller with nothing in flight that is told to wait with a request. -/
def parkingEnv (d : Reported) (moment : Nat) : Env :=
  { sampleEnv with
    time := fun n => lateClock moment n % 2 ^ 32
    cfg := { sampleEnv.cfg with crdt := d.crdt } }

/-- A request that completes with a retry delay. -/
def delayedRequest (k : Nat) : Request :=
  { id := 0, q := .io, cid := 0, status := 0x281 + (k + 1) * 0x800 }

/-- Both queues are torn down. -/
def idleState (env : Env) : State :=
  nvmeTeardownQueue (nvmeTeardownQueue (upState env 0) .io) .admin

theorem not_retriesWait {k : Nat} (hk : k < 3) (hlong : 21474 < d.crdt k) :
    ¬RetriesWait d := by
  intro hwait
  obtain ⟨hearly, hpassed⟩ := passed_early (d.crdt k * 100 * 1000) (by omega)
  generalize hmoment : earlyMoment (d.crdt k * 100 * 1000) = moment at hearly hpassed
  let env := parkingEnv d moment
  have hcrd : statusCrd (delayedRequest k).status = k + 1 := by
    unfold statusCrd delayedRequest
    dsimp only
    omega
  let r : Request :=
    { delayedRequest k with
      status := 0, retries := 1
      deadlineUs := d.crdt k * 100 * 1000 % 2 ^ 32 }
  have hpark : (nvmeRetryReq env (fun s _ => s) (idleState env) (delayedRequest k)).core.retryList =
      [r] := by
    unfold nvmeRetryReq
    rw [hcrd, if_pos (Nat.succ_ne_zero k)]
    change [_] = [_]
    congr 2
    change (lateClock moment 0 % 2 ^ 32 + d.crdt k * 100 * 1000) % 2 ^ 32 = _
    simp [lateClock]
  have htimes : (nvmeProcessCompletions env
      (nvmeRetryReq env (fun s _ => s) (idleState env) (delayedRequest k)) [] []).ctl.times =
        1 := by
    unfold nvmeRetryReq
    rw [hcrd, if_pos (Nat.succ_ne_zero k)]
    rfl
  have hlist : (tickSweeps env
      (nvmeRetryReq env (fun s _ => s) (idleState env) (delayedRequest k)) [] []).1.core.retryList =
      [r] := by
    rw [← hpark]
    unfold nvmeRetryReq
    rw [hcrd, if_pos (Nat.succ_ne_zero k)]
    rfl
  have hnow : (tickSweeps env
      (nvmeRetryReq env (fun s _ => s) (idleState env) (delayedRequest k)) [] []).2 =
      moment % 2 ^ 32 := by
    change env.time (nvmeProcessCompletions env
      (nvmeRetryReq env (fun s _ => s) (idleState env) (delayedRequest k)) [] []).ctl.times = _
    rw [htimes]
    change lateClock moment 1 % 2 ^ 32 = _
    simp [lateClock]
  have hmem : r ∈ resubmitted env
      (nvmeRetryReq env (fun s _ => s) (idleState env) (delayedRequest k)) [] [] := by
    unfold resubmitted dueRequests
    rw [hlist, hnow]
    refine List.mem_filter.mpr ⟨List.mem_singleton.mpr rfl, ?_⟩
    rw [Bool.not_eq_true', decide_eq_false_iff_not, notYet_iff, not_not]
    exact hpassed
  have hcontra := hwait env (lateClock moment) (lateClock_mono moment) (fun _ => rfl) rfl
    (fun s _ => s) (idleState env) _ (delayedRequest k) r [] [] (by omega) hpark
    (by rw [htimes]; exact Nat.one_pos) hmem
  rw [htimes, hcrd, Nat.add_sub_cancel] at hcontra
  have hone : lateClock moment 1 = moment := by simp [lateClock]
  rw [hone] at hcontra
  omega

theorem not_activationWaits (hlong : 21474 < d.mtfa) : ¬ActivationWaits d := by
  intro hwait
  obtain ⟨hearly, hpassed⟩ := passed_early (d.mtfa * 100 * 1000) (by omega)
  generalize hmoment : earlyMoment (d.mtfa * 100 * 1000) = moment at hearly hpassed
  have hdeadline : fwActDeadline d.mtfa (lateClock moment 0 % 2 ^ 32) =
      d.mtfa * 100 * 1000 % 2 ^ 32 := by
    unfold fwActDeadline
    rw [if_pos (by omega)]
    simp [lateClock]
  have hone : lateClock moment 1 = moment := by simp [lateClock]
  have hgave : nvmeFwActWork d.mtfa (fun _ => true) (fun i => lateClock moment i % 2 ^ 32) 1 =
      .gaveUp 1 := by
    unfold nvmeFwActWork fwActLoop
    rw [hdeadline]
    rw [if_pos rfl, if_pos (by rw [Nat.zero_add, hone]; exact hpassed)]
  have hcontra := hwait (lateClock moment) _ 1 1 (lateClock_mono moment) hgave
  rw [hone] at hcontra
  omega

theorem not_readyWaits (hlong : 4294 < d.ready) : ¬ReadyWaits d := by
  intro hwait
  obtain ⟨hearly, hpassed⟩ := passed_early ((d.ready + 1) / 2 * 1000000) (by omega)
  have hbefore : earlyMoment ((d.ready + 1) / 2 * 1000000) < d.ready * 500 * 1000 := by
    unfold earlyMoment
    split <;> omega
  have hafter : 1000 ≤ earlyMoment ((d.ready + 1) / 2 * 1000000) := by
    unfold earlyMoment
    split <;> omega
  generalize earlyMoment ((d.ready + 1) / 2 * 1000000) = moment at hearly hpassed hbefore hafter
  have hpace : ∀ i, lateClock moment i + 1000 ≤ lateClock moment (i + 1) := by
    intro i
    unfold lateClock
    rw [if_neg (Nat.succ_ne_zero i)]
    split <;> omega
  have hone : lateClock moment 1 = moment := by simp [lateClock]
  have hgave : nvmeEnableCtrl d.cap d.crto (fun _ => 0) (fun i => lateClock moment i % 2 ^ 32) 1 =
      .gaveUp 1 := by
    unfold nvmeEnableCtrl nvmeWaitReady waitReadyLoop
    rw [enableTimeout_eq, if_neg (by decide), if_neg (by decide), if_pos]
    rw [Nat.zero_add, hone]
    simpa [lateClock] using hpassed
  have hcontra := hwait (lateClock moment) _ 1 1 hpace hgave
  rw [hone] at hcontra
  have hzero : lateClock moment 0 = 0 := rfl
  rw [hzero] at hcontra
  omega

end Overrun

/-- For every controller, whatever it reports: its retry delays, its firmware activation
time and its ready timeout are waited out on every clock, if and only if no retry delay
and no activation time is above 21474 units of 100 ms and the ready timeout is not above
4294 units of 500 ms. -/
theorem delays_honoured_iff (d : Reported) :
    Honoured d ↔ (∀ k, k < 3 → d.crdt k ≤ 21474) ∧ d.mtfa ≤ 21474 ∧ d.ready ≤ 4294 := by
  constructor
  · rintro ⟨hretries, hactivation, hready⟩
    refine ⟨fun k hk => ?_, ?_, ?_⟩
    · exact Nat.le_of_not_lt fun hlong => not_retriesWait hk hlong hretries
    · exact Nat.le_of_not_lt fun hlong => not_activationWaits hlong hactivation
    · exact Nat.le_of_not_lt fun hlong => not_readyWaits hlong hready
  · rintro ⟨hcrdt, hmtfa, hready⟩
    exact ⟨retriesWait_of_fit hcrdt, activationWaits_of_fit hmtfa, readyWaits_of_fit hready⟩

/-- A controller that asks for 50 minutes before a retry. -/
def longRetry : Reported where
  crdt := fun _ => 30000
  mtfa := 0
  cap := 0
  crto := 0
  crdt_lt := by
    intro k
    decide
  mtfa_lt := by decide

/-- Such a controller is sent the same command again by the next tick, a few microseconds
after it asked for the delay. -/
theorem long_retry_resubmitted_early :
    ¬Honoured longRetry ∧
      (run (parkingEnv longRetry 1000) [.putMsg, .drain, .irq [] [⟨0, 0xA81, 0⟩], .tick [] []]
        (bootState (parkingEnv longRetry 1000) 0)).core.trace.countP
          (fun e => match e with | .sqe _ r (some 0) => r.retries == 1 | _ => false) = 1 := by
  refine ⟨fun h => ?_, by decide +kernel⟩
  exact not_retriesWait (k := 0) (by decide) (by decide : 21474 < 30000) h.retries

end Deadlines
end NvmeDriver
