import NvmeDriver.Ownership.RingStep
import NvmeDriver.Lib.Journal
import NvmeDriver.Runs.Fifo

/-!
# The phases of a controller

`nvme_change_ctrl_state` guards every change of phase; what a run makes of them is stated
here.  Resets do not overlap, the dispatch is closed while the controller is off LIVE, and no
I/O command is written once it is DEAD.  Two phases are final: DEAD, and RESETTING when
nobody is left to end it, which is what a firmware activation that times out leaves behind.
-/

namespace NvmeDriver
namespace Runs

open Engine
open Lib
open Ownership
open Refine

/-! ### The phase in the log -/

section Log

variable {l tr : List Effect} {e : Effect}

/-- The phase the log ends with; a controller comes up LIVE. -/
def phaseOf : List Effect → CtrlState
  | [] => .live
  | .phase st :: _ => st
  | _ :: tr => phaseOf tr

/-- A change of phase is one that the table allows, a reset begins with the controller taken
off LIVE and is finished off in RESETTING, and an I/O command is written while the controller
is LIVE or RESETTING. -/
def PhaseEntry (tr : List Effect) : Effect → Prop
  | .phase st => ctrlTransition (phaseOf tr) st = true
  | .resetBegin => ∃ before, tr = .phase .resetting :: before ∧ phaseOf before = .live
  | .resetFinish _ => phaseOf tr = .resetting
  | .sqe _ r _ => r.q = .io → phaseOf tr = .live ∨ phaseOf tr = .resetting
  | _ => True

theorem phaseOf_append (hl : ∀ e, e ∈ l → phaseMark e = false) :
    phaseOf (l ++ tr) = phaseOf tr := by
  induction l with
  | nil => rfl
  | cons e l ih =>
      have he := hl e (List.mem_cons_self ..)
      rw [← ih (fun e' he' => hl e' (List.mem_cons_of_mem _ he')), List.cons_append]
      cases e with
      | phase st => cases he
      | _ => rfl

theorem ordered_append (hl : ∀ e, e ∈ l → phaseMark e = false)
    (hsqe : ∀ e, e ∈ l → isIoSqe e = true → phaseOf tr = .live ∨ phaseOf tr = .resetting)
    (htr : Ordered PhaseEntry tr) : Ordered PhaseEntry (l ++ tr) := by
  induction l with
  | nil => exact htr
  | cons e l ih =>
      have hl' : ∀ e, e ∈ l → phaseMark e = false :=
        fun e' he' => hl e' (List.mem_cons_of_mem _ he')
      refine ⟨?_, ih hl' (fun e' he' => hsqe e' (List.mem_cons_of_mem _ he'))⟩
      have he := hl e (List.mem_cons_self ..)
      have hat := hsqe e (List.mem_cons_self ..)
      cases e with
      | phase st => cases he
      | resetBegin => cases he
      | resetFinish ok => cases he
      | sqe slot r owner =>
          intro hq
          have hsame : phaseOf (l ++ tr) = phaseOf tr := phaseOf_append hl'
          exact hsame ▸ hat (beq_iff_eq.mpr hq)
      | _ => trivial

/-- The phases a finished reset goes through, newest first. -/
def finale (ok : Bool) : List Effect :=
  if ok then [.phase .live, .phase .connecting] else [.phase .dead, .phase .deleting]

/-- Every reset that was finished has ended in LIVE or DEAD. -/
def Finished (tr : List Effect) : Prop :=
  ∀ later earlier ok, tr = later ++ .resetFinish ok :: earlier → ∃ l, later = l ++ finale ok

theorem finished_nil : Finished [] := by
  intro later earlier ok heq
  cases later <;> cases heq

theorem Finished.append (htr : Finished tr) (hl : ∀ e, e ∈ l → isResetFinish e = false) :
    Finished (l ++ tr) := by
  intro later earlier ok heq
  rcases List.append_eq_append_iff.mp heq with ⟨mid, hlater, htail⟩ | ⟨mid, hl', hmid⟩
  · obtain ⟨l', rfl⟩ := htr mid earlier ok htail
    exact ⟨l ++ l', by rw [hlater, List.append_assoc]⟩
  · cases mid with
    | nil =>
        obtain ⟨l', hnil⟩ := htr [] earlier ok hmid.symm
        exact ⟨l ++ l', by rw [List.append_assoc, ← hnil, hl', List.append_nil, List.append_nil]⟩
    | cons e mid =>
        obtain ⟨rfl, -⟩ := List.cons.inj hmid
        exact absurd (hl (.resetFinish ok) (by rw [hl']; simp)) (by simp [isResetFinish])

theorem Finished.finish (htr : Finished tr) (ok : Bool) :
    Finished (finale ok ++ .resetFinish ok :: tr) := by
  obtain ⟨a, b, hab⟩ : ∃ a b, finale ok = [.phase a, .phase b] := by
    cases ok <;> exact ⟨_, _, rfl⟩
  intro later earlier ok' heq
  rw [hab] at heq
  match later, heq with
  | [x, y], heq =>
      simp only [List.cons_append, List.nil_append, List.cons.injEq,
        Effect.resetFinish.injEq] at heq
      obtain ⟨rfl, rfl, rfl, -⟩ := heq
      exact ⟨[], hab.symm⟩
  | x :: y :: z :: rest, heq =>
      simp only [List.cons_append, List.nil_append, List.cons.injEq] at heq
      obtain ⟨rfl, rfl, rfl, htail⟩ := heq
      obtain ⟨l, rfl⟩ := htr rest earlier ok' htail
      exact ⟨.phase a :: .phase b :: .resetFinish ok :: l, rfl⟩
  | [], heq => cases heq
  | [x], heq => cases heq

end Log

/-! ### The invariant -/

section Invariant

variable {env : Env} {P : Policy} {g g' : Cfg}

/-- The log tells the phase.  Off LIVE the dispatch is closed as soon as AdminWorker has
taken up a firmware activation. -/
structure PhaseLog (g : Cfg) : Prop where
  now : g.core.state = phaseOf g.core.trace
  three : g.core.state = .live ∨ g.core.state = .resetting ∨ g.core.state = .dead
  legal : Ordered PhaseEntry g.core.trace
  finished : Finished g.core.trace
  closed : g.core.state ≠ .live → g.core.fwActSignal = false → g.core.stopped = true

/-- Nobody is left to change the phase: the controller is DEAD, or RESETTING with no reset
under way and no firmware activation pending. -/
def Final (c : Core) : Prop :=
  c.state = .dead ∨ c.state = .resetting ∧ ¬InReset c.trace ∧ ¬fwPending c

/-- The I/O queue is set up only while commands may be written. -/
theorem PhaseLog.present (hold : PhaseLog g) (hs : Safe g)
    (hpres : g.core.ioTab.present = true) :
    g.core.state = .live ∨ g.core.state = .resetting := by
  rcases hold.three with h | h | h
  · exact .inl h
  · exact .inr h
  · have hgone := hs.phase.terminal (by rw [h]; decide) (by rw [h]; decide) (by rw [h]; decide)
    rw [hgone] at hpres
    cases hpres

theorem PhaseLog.calm (hold : PhaseLog g) (hs : Safe g) (hm : Move env P g g')
    (hc : Calmly g g') : PhaseLog g' := by
  obtain ⟨l, htrace, hl⟩ := hc.trace
  obtain ⟨l', htrace', hsqe⟩ := (hm.ringStep hs).sqes
  have heq : l' = l := List.append_cancel_right (htrace'.symm.trans htrace)
  subst heq
  refine ⟨?_, ?_, ?_, ?_, ?_⟩
  · rw [hc.state, htrace, phaseOf_append hl]
    exact hold.now
  · rw [hc.state]
    exact hold.three
  · rw [htrace]
    refine ordered_append hl (fun e he hio => ?_) hold.legal
    rw [← hold.now]
    exact hold.present hs (hsqe e he hio)
  · rw [htrace]
    refine hold.finished.append fun e he => ?_
    have hmark := hl e he
    cases e <;> first | rfl | cases hmark
  · rw [hc.state, hc.signal, hc.stopped]
    exact hold.closed

theorem PhaseLog.move (hold : PhaseLog g) (hs : Safe g) (hp : PhaseMove env P g g') :
    PhaseLog g' := by
  obtain ⟨c, h⟩ := g
  obtain ⟨hnow, hthree, hlegal, hfin, hclosed⟩ := hold
  dsimp only at hnow hthree hlegal hfin hclosed
  cases hp with
  | aenFw hlive =>
      refine ⟨rfl, .inr (.inl rfl), ⟨?_, hlegal⟩,
        hfin.append (l := [.phase .resetting]) (by simp [isResetFinish]), fun _ h => (by cases h)⟩
      change ctrlTransition (phaseOf c.trace) .resetting = true
      rw [← hnow]
      rcases hlive with h | h <;> exact (congrArg (ctrlTransition · _) h).trans rfl
  | fwBegin hsig => exact ⟨hnow, hthree, hlegal, hfin, fun _ _ => rfl⟩
  | fwTimeout hrun htime => exact ⟨hnow, hthree, hlegal, hfin, hclosed⟩
  | fwLive hrun hsig =>
      have hst : c.state = .resetting := hs.phase.fw (.inr hrun)
      refine ⟨rfl, .inl rfl, ⟨rfl, ?_, hlegal⟩,
        hfin.append (l := [.phase .live, .phase .connecting]) (by simp [isResetFinish]),
        fun h => absurd rfl h⟩
      change ctrlTransition (phaseOf c.trace) .connecting = true
      rw [← hnow, hst]
      rfl
  | resetBegin hlive =>
      have hst : c.state = .live := by
        rcases hthree with h | h | h
        · exact h
        · rcases hlive with h' | h' <;> exact CtrlState.noConfusion (h.symm.trans h')
        · rcases hlive with h' | h' <;> exact CtrlState.noConfusion (h.symm.trans h')
      refine ⟨rfl, .inr (.inl rfl), ⟨⟨c.trace, rfl, hnow.symm.trans hst⟩, ?_, hlegal⟩,
        hfin.append (l := [.resetBegin, .phase .resetting]) (by simp [isResetFinish]),
        fun _ _ => rfl⟩
      change ctrlTransition (phaseOf c.trace) .resetting = true
      rw [← hnow, hst]
      rfl
  | resetLive howes =>
      have hst : c.state = .resetting := (hs.phase.owes howes).1
      refine ⟨rfl, .inl rfl, ⟨rfl, ?_, hnow.symm.trans hst, trivial, hlegal⟩,
        (hfin.append (l := [.sqCreated]) (by simp [isResetFinish])).finish true,
        fun h => absurd rfl h⟩
      change ctrlTransition (phaseOf c.trace) .connecting = true
      rw [← hnow, hst]
      rfl
  | die howes hgone =>
      obtain ⟨hst, hfw, -, -⟩ := hs.phase.owes howes
      have hst : c.state = .resetting := hst
      refine ⟨rfl, .inr (.inr rfl), ⟨rfl, ?_, hnow.symm.trans hst, hlegal⟩, hfin.finish false,
        fun _ hsig => ?_⟩
      · change ctrlTransition (phaseOf c.trace) .deleting = true
        rw [← hnow, hst]
        rfl
      · exact hclosed (by rw [hst]; decide) hsig
  | block hmask => exact ⟨hnow, hthree, hlegal, hfin, hclosed⟩
  | quiesce => exact ⟨hnow, hthree, hlegal, hfin, fun _ _ => rfl⟩
  | unquiesce hlive => exact ⟨hnow, hthree, hlegal, hfin, fun h => absurd hlive h⟩
  | freeze b => exact ⟨hnow, hthree, hlegal, hfin, hclosed⟩
  | setCap => exact ⟨hnow, hthree, hlegal, hfin, hclosed⟩

theorem keeps_phaseLog (env : Env) (P : Policy) :
    Keeps (Move env P) (fun g => Safe g ∧ PhaseLog g) := by
  rintro g g' ⟨hs, hold⟩ hm
  refine ⟨keeps_safe env P g g' hs hm, ?_⟩
  rcases hm.phase_cases with ⟨-, hp⟩ | hc
  · exact hold.move hs hp
  · exact hold.calm hs hm hc

/-- A final phase stays, and no reset begins in it. -/
theorem Final.move (hfin : Final g.core) (hs : Safe g) (hm : Move env P g g') :
    Final g'.core ∧ g'.core.state = g.core.state ∧
      g'.core.trace.countP isResetBegin = g.core.trace.countP isResetBegin := by
  rcases hm.phase_cases with ⟨-, hp⟩ | hc
  · have hlive : g.core.state ≠ .live ∧ g.core.state ≠ .new := by
      rcases hfin with h | ⟨h, -⟩ <;> rw [h] <;> decide
    have hfw : ¬fwPending g.core := by
      rcases hfin with h | ⟨-, -, h⟩
      · exact fun hpend => by cases h.symm.trans (hs.phase.fw hpend)
      · exact h
    have howes : g.hand.owes ≠ true := by
      intro howes
      obtain ⟨hst, -, -, hin⟩ := hs.phase.owes howes
      rcases hfin with h | ⟨-, h, -⟩
      · cases h.symm.trans hst
      · exact h hin
    cases hp with
    | aenFw h => exact (h.elim hlive.1 hlive.2).elim
    | fwBegin hsig => exact absurd (.inl hsig) hfw
    | fwTimeout hrun htime => exact absurd (.inr hrun) hfw
    | fwLive hrun hsig => exact absurd (.inr hrun) hfw
    | resetBegin h => exact (h.elim hlive.1 hlive.2).elim
    | resetLive h => exact absurd h howes
    | die h hgone => exact absurd h howes
    | block hmask => exact ⟨hfin, rfl, rfl⟩
    | quiesce => exact ⟨hfin, rfl, rfl⟩
    | unquiesce h => exact absurd h hlive.1
    | freeze b => exact ⟨hfin, rfl, rfl⟩
    | setCap => exact ⟨hfin, rfl, rfl⟩
  · refine ⟨?_, hc.state, hc.resets.1⟩
    unfold Final InReset
    rw [hc.state, hc.fwPending, hc.resets.1, hc.resets.2]
    exact hfin

/-- A DEAD controller is given no I/O command. -/
theorem Move.dead_sqes (hdead : g.core.state = .dead) (hs : Safe g) (hm : Move env P g g') :
    g'.core.trace.countP isIoSqe = g.core.trace.countP isIoSqe := by
  obtain ⟨l, htrace, hsqe⟩ := (hm.ringStep hs).sqes
  have hgone := hs.phase.terminal (by rw [hdead]; decide) (by rw [hdead]; decide)
    (by rw [hdead]; decide)
  rw [htrace, List.countP_append, Nat.add_eq_right, List.countP_eq_zero]
  intro e he hio
  have hpres := hsqe e he hio
  rw [hgone] at hpres
  cases hpres

end Invariant

/-! ### Runs -/

section Run

variable {env : Env} {P : Policy} {s : State}

theorem up_phaseLog (env : Env) (maxZeroes : Nat) :
    PhaseLog ⟨(upState env maxZeroes).core, ⟨none, none, none, 0, false, false⟩⟩ :=
  ⟨rfl, .inl rfl, trivial, finished_nil, fun h => absurd rfl h⟩

theorem run_phaseLog (env : Env) (maxZeroes : Nat) (events : List Event) :
    PhaseLog ⟨(run env events (bootState env maxZeroes)).core,
      ⟨none, none, none, 0, false, false⟩⟩ :=
  ((keeps_phaseLog env _).path (run_path (meetsAll_all env events _))
    ⟨up_safe env maxZeroes, up_phaseLog env maxZeroes⟩).2

/-- The controller is LIVE, RESETTING or DEAD between the steps of any run, and no reset
begins before the last one is finished.  While one is under way the dispatch is closed, and
so it is in every phase but LIVE once AdminWorker has taken up a firmware activation.
Every change of phase on the log is one the table allows, a reset begins from LIVE and ends
in LIVE or DEAD, and every I/O command was written while the controller was LIVE or
RESETTING. -/
theorem run_phases (env : Env) (maxZeroes : Nat) (events : List Event) :
    let c := (run env events (bootState env maxZeroes)).core
    (c.state = .live ∨ c.state = .resetting ∨ c.state = .dead) ∧
      c.state = phaseOf c.trace ∧ (InReset c.trace ∨ Settled c.trace) ∧
      (InReset c.trace → c.state = .resetting ∧ c.stopped = true) ∧
      (c.state ≠ .live → c.fwActSignal = false → c.stopped = true) ∧
      (∀ later earlier e, c.trace = later ++ e :: earlier → PhaseEntry earlier e) ∧
      ∀ later earlier ok, c.trace = later ++ .resetFinish ok :: earlier →
        ∃ l, later = l ++ finale ok := by
  intro c
  have hlog := run_phaseLog env maxZeroes events
  have hphase := (run_safe env maxZeroes events).phase
  refine ⟨hlog.three, hlog.now, hphase.resets, fun hin => ?_, hlog.closed, ?_, hlog.finished⟩
  · have hidle : ¬(c.state ≠ .resetting ∨ fwPending c) := by
      intro h
      have hset : Settled c.trace := hphase.settled h
      unfold InReset at hin
      unfold Settled at hset
      omega
    rw [not_or, not_not] at hidle
    obtain ⟨hst, hfw⟩ := hidle
    refine ⟨hst, hlog.closed (fun h => ?_) ?_⟩
    · exact CtrlState.noConfusion (h.symm.trans hst)
    · exact Bool.not_eq_true _ ▸ fun h => hfw (.inl h)
  · intro later earlier e htrace
    have hlegal := hlog.legal
    dsimp only at hlegal
    rw [show (run env events (bootState env maxZeroes)).core.trace = later ++ e :: earlier
      from htrace] at hlegal
    exact hlegal.at

/-! ### Who ends RESETTING -/

/-- Everything is allowed, but for giving up on a firmware activation. -/
def patient : Policy := { Refine.Policy.all with timeout := False }

theorem drainMeets_patient (env : Env) (q : QueueId) (cqes : List Cqe) :
    ∀ s, DrainMeets env patient q cqes s := by
  induction cqes with
  | nil => exact fun _ => trivial
  | cons cqe cqes ih =>
      intro s
      refine ⟨⟨fun _ _ => trivial, fun r _ => ?_⟩, fun _ => ih _⟩
      exact ⟨trivial, fun _ => ⟨trivial, fun _ _ => trivial⟩, fun _ _ => trivial,
        fun _ _ => trivial⟩

theorem retryMeets_patient (env : Env) (now : Nat) (l : List Request) :
    ∀ s, RetryMeets env patient now l s := by
  induction l with
  | nil => exact fun _ => trivial
  | cons r l ih =>
      intro s
      unfold RetryMeets
      split
      · exact ih s
      · exact ⟨⟨trivial, fun _ => ⟨trivial, fun _ _ => trivial⟩, fun _ => .inr trivial,
          fun _ _ => trivial, fun _ _ => trivial⟩, ih _⟩

theorem meets_patient {ev : Event} (hev : ev ≠ .fwActEnd true) : Meets env patient s ev := by
  have hflush : ∀ q, FlushMeets patient q := fun q =>
    ⟨trivial, fun _ => ⟨trivial, fun _ _ => trivial⟩⟩
  have hhalt : HaltMeets patient := ⟨trivial, fun _ => trivial, fun _ _ => trivial⟩
  have hproc : ∀ s admin io, ProcessMeets env patient s admin io := fun s admin io =>
    ⟨trivial, drainMeets_patient env _ _ _, fun _ => drainMeets_patient env _ _ _⟩
  cases ev with
  | irq admin io => exact fun _ => hproc s admin io
  | tick admin io =>
      exact fun _ => ⟨hproc s admin io, fun _ =>
        ⟨fun _ => hflush _, fun _ => hflush _, retryMeets_patient env _ _ _⟩⟩
  | reset => exact fun _ _ => hhalt
  | drain =>
      exact fun _ _ _ => ⟨fun _ _ => trivial, fun _ => trivial, .inl trivial, trivial, trivial⟩
  | fwActEnd timeout =>
      refine fun _ => ⟨trivial, fun h => ?_⟩
      subst h
      exact hev rfl
  | shutdown => exact fun _ => ⟨hhalt, fun _ => trivial⟩
  | stop => exact fun _ => ⟨trivial, .inl trivial, trivial⟩
  | fwActBegin => exact fun _ => trivial
  | _ => trivial

theorem meetsAll_patient (events : List Event)
    (hpatient : ∀ ev, ev ∈ events → ev ≠ .fwActEnd true) : ∀ s, MeetsAll env patient events s := by
  induction events with
  | nil => exact fun _ => trivial
  | cons ev events ih =>
      intro s
      exact ⟨meets_patient (hpatient ev (List.mem_cons_self ..)),
        ih (fun ev' hev' => hpatient ev' (List.mem_cons_of_mem _ hev')) _⟩

/-- RESETTING has somebody to end it. -/
def Attended (g : Cfg) : Prop :=
  g.core.state = .resetting → InReset g.core.trace ∨ fwPending g.core

theorem keeps_attended (env : Env) (P : Policy) (htime : ¬P.timeout) :
    Keeps (Move env P) (fun g => Safe g ∧ Attended g) := by
  rintro g g' ⟨hs, hold⟩ hm
  have hs' := keeps_safe env P g g' hs hm
  refine ⟨hs', ?_⟩
  rcases hm.phase_cases with ⟨-, hp⟩ | hc
  · obtain ⟨c, h⟩ := g
    cases hp with
    | aenFw h => exact fun _ => .inr (.inl rfl)
    | fwBegin hsig => exact fun _ => .inr (.inr rfl)
    | fwTimeout hrun h => exact absurd h htime
    | fwLive hrun hsig => exact fun h => by cases h
    | resetBegin h => exact fun _ => .inl (hs'.phase.owes rfl).2.2.2
    | resetLive h => exact fun h => by cases h
    | die h hgone => exact fun h => by cases h
    | block hmask => exact hold
    | quiesce => exact hold
    | unquiesce h => exact hold
    | freeze b => exact hold
    | setCap => exact hold
  · unfold Attended InReset
    rw [hc.state, hc.fwPending, hc.resets.1, hc.resets.2]
    exact hold

/-- As long as no firmware activation times out, a controller is RESETTING exactly while a
reset is under way or an activation is signalled or running, and never while both are. -/
theorem resetting_attended (env : Env) (maxZeroes : Nat) {events : List Event}
    (hpatient : ∀ ev, ev ∈ events → ev ≠ .fwActEnd true) :
    let c := (run env events (bootState env maxZeroes)).core
    (c.state = .resetting ↔ InReset c.trace ∨ fwPending c) ∧
      ¬(InReset c.trace ∧ fwPending c) := by
  intro c
  have hatt := ((keeps_attended env patient id).path
    (run_path (meetsAll_patient events hpatient _))
    ⟨up_safe env maxZeroes, fun h => by cases h⟩).2
  have hphase := (run_safe env maxZeroes events).phase
  obtain ⟨-, -, -, hin, -⟩ := run_phases env maxZeroes events
  refine ⟨⟨hatt, fun h => h.elim (fun h => (hin h).1) (fun h => hphase.fw h)⟩, ?_⟩
  rintro ⟨hreset, hfw⟩
  have hset : Settled c.trace := hphase.settled (.inr hfw)
  unfold InReset at hreset
  unfold Settled at hset
  omega

/-- A firmware activation notice. -/
def fwNotice : Event := .irq [⟨0, 0, 0x102⟩] []

theorem resetting_attended_notice :
    let c := (run sampleEnv [fwNotice] (bootState sampleEnv 2048)).core
    (c.state = .resetting ↔ InReset c.trace ∨ fwPending c) ∧
      ¬(InReset c.trace ∧ fwPending c) := by
  refine resetting_attended sampleEnv 2048 (fun ev hev h => ?_)
  rw [List.mem_singleton.mp hev] at h
  exact Event.noConfusion h

/-! ### Final phases -/

/-- What a step leaves of a configuration in a final phase. -/
structure Wedged (s s' : State) : Prop where
  phase : s'.core.state = s.core.state
  final : Final s'.core
  stopped : s'.core.stopped = true
  resets : s'.core.trace.countP isResetBegin = s.core.trace.countP isResetBegin
  dead : s.core.state = .dead →
    s'.core.trace.countP isIoSqe = s.core.trace.countP isIoSqe

/-- The invariants a run in a final phase keeps. -/
structure AtRest (s : State) : Prop where
  safe : Safe ⟨s.core, ⟨none, none, none, 0, false, false⟩⟩
  log : PhaseLog ⟨s.core, ⟨none, none, none, 0, false, false⟩⟩
  final : Final s.core

theorem AtRest.stopped (h : AtRest s) : s.core.stopped = true := by
  refine h.log.closed ?_ ?_
  · rcases h.final with hst | ⟨hst, -⟩
    · exact fun hlive => CtrlState.noConfusion (hlive.symm.trans hst)
    · exact fun hlive => CtrlState.noConfusion (hlive.symm.trans hst)
  · by_contra hsig
    have hpend : fwPending s.core := .inl (by simpa using hsig)
    rcases h.final with hst | ⟨-, -, hno⟩
    · exact CtrlState.noConfusion (hst.symm.trans (h.safe.phase.fw hpend))
    · exact hno hpend

theorem AtRest.wedged (h : AtRest s) : Wedged s s := ⟨rfl, h.final, h.stopped, rfl, fun _ => rfl⟩

theorem Wedged.trans {s s' s'' : State} (h : Wedged s s') (h' : Wedged s' s'') :
    Wedged s s'' :=
  ⟨h'.phase.trans h.phase, h'.final, h'.stopped, h'.resets.trans h.resets,
    fun hdead => (h'.dead (h.phase.trans hdead)).trans (h.dead hdead)⟩

theorem AtRest.step (env : Env) (h : AtRest s) (ev : Event) :
    AtRest (step env s ev) ∧ Wedged s (step env s ev) := by
  have hmeets : Meets env Refine.Policy.all s ev :=
    meets_careful env (.inl trivial) (fun _ => trivial)
  have hpath := step_spec ev hmeets h.safe
  generalize Engine.step env s ev = t at hpath ⊢
  suffices hall : ∀ g, Relation.ReflTransGen (Move env Refine.Policy.all)
      ⟨s.core, ⟨none, none, none, 0, false, false⟩⟩ g →
      Safe g ∧ PhaseLog g ∧ Final g.core ∧ g.core.state = s.core.state ∧
        g.core.trace.countP isResetBegin = s.core.trace.countP isResetBegin ∧
        (s.core.state = .dead → g.core.trace.countP isIoSqe = s.core.trace.countP isIoSqe) by
    obtain ⟨hs, hlog, hfin, hst, hreset, hdead⟩ := hall _ hpath
    have hrest : AtRest t := ⟨hs, hlog, hfin⟩
    exact ⟨hrest, hst, hfin, hrest.stopped, hreset, hdead⟩
  intro g hg
  induction hg with
  | refl => exact ⟨h.safe, h.log, h.final, rfl, rfl, fun _ => rfl⟩
  | tail _ hm ih =>
      obtain ⟨hs, hlog, hfin, hst, hreset, hdead⟩ := ih
      obtain ⟨hfin', hst', hreset'⟩ := hfin.move hs hm
      obtain ⟨hs', hlog'⟩ := keeps_phaseLog env _ _ _ ⟨hs, hlog⟩ hm
      refine ⟨hs', hlog', hfin', hst'.trans hst, hreset'.trans hreset, fun h => ?_⟩
      exact (Move.dead_sqes (hst.trans h) hs hm).trans (hdead h)

theorem AtRest.run (env : Env) (h : AtRest s) (later : List Event) :
    Wedged s (run env later s) := by
  induction later generalizing s with
  | nil => exact h.wedged
  | cons ev later ih =>
      obtain ⟨hrest, hwedged⟩ := h.step env ev
      exact hwedged.trans (ih hrest)

/-- Client requests only pile up. -/
structure PilesUp (s s' : State) : Prop where
  pending : s'.core.ioPending = s.core.ioPending
  accepted : s.core.accepted ≤ s'.core.accepted
  port : s'.core.msgPort =
    s.core.msgPort ++ List.range' s.core.accepted (s'.core.accepted - s.core.accepted)

theorem PilesUp.of_same {s s' : State} (h : SameLists s.core s'.core) : PilesUp s s' := by
  refine ⟨h.ioPending, h.accepted.ge, ?_⟩
  rw [h.msgPort, h.accepted, Nat.sub_self]
  exact (List.append_nil _).symm

theorem PilesUp.trans {s s' s'' : State} (h : PilesUp s s') (h' : PilesUp s' s'') :
    PilesUp s s'' := by
  refine ⟨h'.pending.trans h.pending, h.accepted.trans h'.accepted, ?_⟩
  have hsum : s''.core.accepted - s.core.accepted =
      (s'.core.accepted - s.core.accepted) + (s''.core.accepted - s'.core.accepted) := by
    have := h.accepted
    have := h'.accepted
    omega
  have hstart : s'.core.accepted = s.core.accepted + (s'.core.accepted - s.core.accepted) := by
    have := h.accepted
    omega
  rw [h'.port, h.port, List.append_assoc, hsum, ← List.range'_append_1, ← hstart]

theorem AtRest.pilesUp (env : Env) (h : AtRest s) {ev : Event} (hev : ev ≠ .stop) :
    PilesUp s (Engine.step env s ev) := by
  by_cases hclients : handlesClients ev
  · cases ev with
    | putMsg =>
        refine ⟨rfl, Nat.le_succ _, ?_⟩
        change s.core.msgPort ++ [s.core.accepted] = _ ++ List.range' _ (s.core.accepted + 1 - _)
        rw [Nat.add_sub_cancel_left]
        rfl
    | drain =>
        have hshut : nvmeDrainMsgport env s = s := by
          unfold nvmeDrainMsgport
          exact if_pos (.inl h.stopped)
        have heq : Engine.step env s .drain = s := by
          simp only [Engine.step, hshut, ite_self]
        rw [heq]
        exact .of_same (.refl _)
    | stop => exact absurd rfl hev
    | _ => exact hclients.elim
  · have hmeets : Meets env elsewhere s ev :=
      meets_carefulWith env (.inl trivial) (fun _ => trivial) (fun h => absurd h hclients)
    exact .of_same (path_sameLists (P := elsewhere) id (step_spec ev hmeets h.safe))

/-- A final phase is for good: however a run goes on, the controller stays in it, the dispatch
stays closed and no reset begins; a DEAD controller is given no I/O command any more.  Until
the unit task is told to stop, what is on `io_pending` stays there and arriving messages
collect on the port. -/
theorem final_for_good (env : Env) (maxZeroes : Nat) (events later : List Event)
    (hfin : Final (run env events (bootState env maxZeroes)).core) :
    let s := run env events (bootState env maxZeroes)
    Wedged s (run env later s) ∧
      ((∀ ev, ev ∈ later → ev ≠ .stop) → PilesUp s (run env later s)) := by
  intro s
  have hrest : AtRest s :=
    ⟨run_safe env maxZeroes events, run_phaseLog env maxZeroes events, hfin⟩
  refine ⟨hrest.run env later, ?_⟩
  generalize s = s₀ at hrest
  induction later generalizing s₀ with
  | nil => exact fun _ => .of_same (.refl _)
  | cons ev later ih =>
      intro hno
      have hone := hrest.pilesUp env (hno ev (List.mem_cons_self ..))
      exact hone.trans (ih _ (hrest.step env ev).1
        (fun ev' hev' => hno ev' (List.mem_cons_of_mem _ hev')))

/-- A firmware activation that times out. -/
def timedOut : State :=
  run sampleEnv [fwNotice, .fwActBegin, .fwActEnd true] (bootState sampleEnv 2048)

theorem timedOut_final : Final timedOut.core := by
  have h : timedOut.core.state = .resetting ∧
      timedOut.core.trace.countP isResetBegin = timedOut.core.trace.countP isResetFinish ∧
      timedOut.core.fwActSignal = false ∧ timedOut.core.fwActRunning = false := by
    decide +kernel
  obtain ⟨hst, hcount, hsig, hrun⟩ := h
  refine .inr ⟨hst, ?_, ?_⟩
  · unfold InReset
    omega
  · rintro (h | h)
    · exact Bool.noConfusion (h.symm.trans hsig)
    · exact Bool.noConfusion (h.symm.trans hrun)

/-- The reset that the timeout asks for is refused, and a client waits for ever. -/
theorem final_for_good_timedOut :
    Wedged timedOut (run sampleEnv [.reset, .putMsg, .drain] timedOut) ∧
      ((∀ ev, ev ∈ [Event.reset, .putMsg, .drain] → ev ≠ .stop) →
        PilesUp timedOut (run sampleEnv [.reset, .putMsg, .drain] timedOut)) :=
  final_for_good sampleEnv 2048 [fwNotice, .fwActBegin, .fwActEnd true] [.reset, .putMsg, .drain]
    timedOut_final

end Run

end Runs
end NvmeDriver
