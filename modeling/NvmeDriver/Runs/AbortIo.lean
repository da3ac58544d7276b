import NvmeDriver.Runs.Abort
import NvmeDriver.Runs.Fifo

/-!
# AbortIO

`abortIO` puts a message on the port and leaves the rest to the unit task.  The promise of
its comments is stated here: every request in flight for the target is asked to be aborted,
a target that only the driver holds is taken back and answered, and the message is freed.
`ProcessCommand` looks through the in-flight table and nowhere else, and answers the message
when the unit is dead; when the promise is kept is proved over every run.
-/

namespace NvmeDriver
namespace Runs

open Engine
open Lib
open Ownership
open Refine

/-! ### The promise -/

section Promise

/-- The client request has been accepted and not been given back. -/
def Outstanding (c : Core) (t : Nat) : Prop :=
  t < c.accepted ∧ c.trace.countP (isReply t) = 0

instance (c : Core) (t : Nat) : Decidable (Outstanding c t) :=
  inferInstanceAs (Decidable (_ ∧ _))

/-- The requests in flight for a client request, single-shot or siblings, by tag. -/
def inflightFor (s : State) (t : Nat) : List Request :=
  s.core.ioTab.occupants.filter (worksFor s t)

/-- The client request is on `io_pending`, or `ctx_stalled` has its context, or `retry_list`
a request for it. -/
def Held (s : State) (t : Nat) : Prop :=
  t ∈ s.core.ioPending ∨
    (∃ c, c ∈ s.core.ctxStalled ∧ (s.core.ctxs.get c).any (fun x => x.io == t) = true) ∨
    ∃ r, r ∈ s.core.retryList ∧ worksFor s t r = true

instance (s : State) (t : Nat) : Decidable (Held s t) :=
  inferInstanceAs (Decidable (_ ∨ _ ∨ _))

/-- Only the driver holds the client request. -/
def HeldOnly (s : State) (t : Nat) : Prop := inflightFor s t = [] ∧ Held s t

instance (s : State) (t : Nat) : Decidable (HeldOnly s t) :=
  inferInstanceAs (Decidable (_ ∧ _))

/-- The Abort of a request is submitted, or admin resources are short. -/
structure AbortTried (env : Env) (r : Request) (s s' : State) : Prop where
  admin : OnQueue .admin s s'
  submitted : ¬AdminShort env s → ∃ slot a,
    a.cmd = { abortCommand r.q r.cid with commandId := a.cid } ∧
      Effect.sqe slot a none :: s.core.trace <:+ s'.core.trace

/-- One Abort after the other, and nothing else. -/
inductive AbortsTried (env : Env) : List Request → State → State → Prop
  | nil (s : State) : AbortsTried env [] s s
  | cons {r : Request} {rs : List Request} {s s₁ s₂ : State} (first : AbortTried env r s s₁)
      (others : AbortsTried env rs s₁ s₂) : AbortsTried env (r :: rs) s s₂

/-- The state in which the message at the head of the port is looked at. -/
def Pass.taken (p : Pass) : State :=
  { p.state with core := { p.state.core with msgPort := p.state.core.msgPort.tail } }

/-- An SQE of the client request. -/
def isSqeFor (t : Nat) : Effect → Bool
  | .sqe _ _ (some i) => i == t
  | _ => false

/-- The client request is off every list and aborted, and nothing is submitted for it any
more. -/
structure Withdrawn (env : Env) (t : Nat) (before after : Pass) : Prop where
  gone : ¬Held after.state t
  replied : ∃ actual, Effect.reply t ioerrAborted actual ∈ after.state.core.trace
  silent : ∀ hs, (after.follow env hs).state.core.trace.countP (isSqeFor t) =
    before.state.core.trace.countP (isSqeFor t)

/-- What AbortIO promises for a message that is the first one on the port. -/
structure AbortServed (env : Env) (p : Pass) (m : Nat) : Prop where
  aborted : ∃ u,
    AbortsTried env (inflightFor p.state (env.ios m).target) p.taken u ∧
    u.core.trace <:+ (p.next env .turn).state.core.trace
  withdrawn : HeldOnly p.state (env.ios m).target →
    Withdrawn env (env.ios m).target p (p.next env .turn)
  freed : ∀ hs, ((p.next env .turn).follow env hs).state.core.trace.count (.discardIo m) = 1

end Promise

/-! ### The loop over the table -/

section Loop

variable {env : Env} {s s₁ s₂ : State} {h : Hand} {t : Nat}

theorem AbortsTried.onQueue {rs : List Request} (ha : AbortsTried env rs s s₁) :
    OnQueue .admin s s₁ := by
  induction ha with
  | nil s => exact OnQueue.refl .admin s
  | cons first _ ih => exact first.admin.trans ih

theorem worksFor_onQueue {q : QueueId} (hq : OnQueue q s s₁) (t : Nat) :
    worksFor s₁ t = worksFor s t := by
  obtain ⟨⟨tab, ring, n, es, hcore, -⟩, -⟩ := hq
  have hctxs : s₁.core.ctxs = s.core.ctxs := by
    rw [hcore]
    cases q <;> rfl
  funext r
  unfold worksFor
  rw [hctxs]

theorem slot_io_onQueue (hq : OnQueue .admin s s₁) : s₁.slot .io = s.slot .io := by
  obtain ⟨⟨tab, ring, n, es, hcore, -⟩, -⟩ := hq
  funext tag
  unfold State.slot State.tab
  rw [hcore]
  rfl

theorem held_onQueue {q : QueueId} (hq : OnQueue q s s₁) (t : Nat) : Held s₁ t ↔ Held s t := by
  have hworks := worksFor_onQueue hq t
  obtain ⟨⟨tab, ring, n, es, hcore, -⟩, -⟩ := hq
  unfold Held
  rw [hworks, hcore]
  cases q <;> exact Iff.rfl

/-- An Abort goes out unless admin resources are short. -/
theorem nvmeAbortRequest_tried (ht : TabOk .admin (s.core.tab .admin)) (r : Request) :
    AbortTried env r s (nvmeAbortRequest env s r).1 := by
  refine ⟨OnQueue.nvmeSubmitAsyncCmd s _ none .abortDone none false, fun hshort => ?_⟩
  rcases @nvmeAbortRequest_cases env s r ht with
    h | ⟨slot, a, hcmd, htrace | ⟨tail, htrace⟩⟩
  · exact absurd h.1 hshort
  · exact ⟨slot, a, hcmd, by rw [htrace]⟩
  · exact ⟨slot, a, hcmd, by rw [htrace]; exact List.suffix_cons _ _⟩

/-- The loop of `nvme_io_abort` tries an Abort for every request of the target. -/
theorem ioAbortLoop_tried (tags : List Nat) :
    ∀ {s : State}, Safe ⟨s.core, h⟩ →
      AbortsTried env ((tags.filterMap (s.slot .io)).filter (worksFor s t)) s
        (ioAbortLoop env t tags s) := by
  induction tags with
  | nil => exact fun _ => .nil _
  | cons tag tags ih =>
      intro s hs
      unfold ioAbortLoop
      cases hslot : s.slot .io tag with
      | none =>
          rw [List.filterMap_cons_none hslot]
          exact ih hs
      | some r =>
          rw [List.filterMap_cons_some hslot]
          dsimp only
          rw [readCtx_eq hs hslot]
          by_cases hworks : worksFor s t r = true
          · rw [if_pos hworks, List.filter_cons_of_pos hworks]
            have hq : r.q = .io := ((hs.tabs .io).slots tag r hslot).2
            have hfirst : AbortTried env r s (nvmeSubmitAbortSqe env s .io r.cid).1 := by
              rw [← hq]
              exact nvmeAbortRequest_tried (hs.tabs .admin) r
            have hrest := ih ((@nvmeSubmitAbortSqe_spec env Policy.all h s .io r.cid).safe hs)
            rw [worksFor_onQueue hfirst.admin, slot_io_onQueue hfirst.admin] at hrest
            exact .cons hfirst hrest
          · rw [if_neg hworks, List.filter_cons_of_neg hworks]
            exact ih hs

theorem nvmeIoAbort_tried (hs : Safe ⟨s.core, h⟩) :
    AbortsTried env (inflightFor s t) s (nvmeIoAbort env s t) := by
  have htab : TabOk .io s.core.ioTab := hs.tabs .io
  unfold inflightFor nvmeIoAbort
  rw [← occupants_eq htab]
  exact ioAbortLoop_tried _ hs

end Loop

/-! ### The machine under a pass -/

section Path

variable {env : Env} {p : Pass} {s : State} {a : Nat} {b : Bool}

/-- `ProcessCommand` with a message just taken off the port or the stash. -/
theorem processCommand_goes {i : Nat} (hs : Safe ⟨s.core, ⟨some i, none, none, a, b, false⟩⟩)
    (hroom : (env.ios i).command ≠ .cmdInternalAbortRequest → hasRoom s) :
    Goes env Policy.all s.core ⟨some i, none, none, a, b, false⟩ (processCommand env s i).core
      ⟨none, none, none, a, b, false⟩ :=
  (@processCommand_spec env Policy.all s i a b false hs hroom (fun _ => trivial)
    (fun _ => trivial)).of_calm

/-- A turn is a path of the machine. -/
theorem Pass.turn_goes (hs : Safe ⟨p.state.core, p.place.hand⟩) :
    Goes env Policy.all p.state.core p.place.hand (p.turn env).state.core
      (p.turn env).place.hand := by
  obtain ⟨s, w, handed⟩ := p
  unfold Pass.turn
  cases w with
  | outside =>
      dsimp only
      split
      · exact @nvmeSqBatchBegin_spec env Policy.all s none 0 false
      · exact Goes.refl _ _
  | stalled =>
      dsimp only
      split
      case isFalse => exact Goes.refl _ _
      case isTrue hroom =>
        cases hlist : s.core.ctxStalled with
        | nil => exact Goes.refl _ _
        | cons c rest =>
            have hpump := (@repump_spec env Policy.all s 0 true false c rest hs hlist hroom
              trivial (.inl trivial)).of_calm
            dsimp only
            generalize repump env { s with core := { s.core with ctxStalled := rest } } c = r
              at hpump ⊢
            obtain ⟨s₁, _ | _⟩ := r
            · exact hpump
            · exact hpump
  | pending =>
      dsimp only
      split
      case isFalse => exact Goes.refl _ _
      case isTrue hroom =>
        cases hlist : s.core.ioPending with
        | nil => exact Goes.refl _ _
        | cons i rest =>
            have htake : Goes env Policy.all s.core ⟨none, none, none, 0, true, false⟩
                { s.core with ioPending := rest } ⟨some i, none, none, 0, true, false⟩ :=
              .move fun _ => .takePending hlist rfl trivial
            exact htake.trans (@processCommand_goes env
              { s with core := { s.core with ioPending := rest } } 0 true i
              (takePending_safe hs hlist) fun _ => hroom)
  | messages =>
      dsimp only
      cases hlist : s.core.msgPort with
      | nil => exact @nvmeSqBatchEnd_spec env Policy.all s none 0 false (.inr trivial)
      | cons i rest =>
          have htake : Goes env Policy.all s.core ⟨none, none, none, 0, true, false⟩
              { s.core with msgPort := rest } ⟨some i, none, none, 0, true, false⟩ :=
            .move fun _ => .takeMsg hlist rfl trivial
          dsimp only
          split
          · exact htake.trans (.move fun _ => .stash rfl trivial)
          · rename_i hnow
            exact htake.trans (@processCommand_goes env
              { s with core := { s.core with msgPort := rest } } 0 true i
              (takeMsg_safe hs hlist) (room_of_now hnow))

/-- So is whatever else may happen. -/
theorem Pass.next_goes (hs : Safe ⟨p.state.core, p.place.hand⟩) (e : Happening) :
    Goes env Policy.all p.state.core p.place.hand (p.next env e).state.core
      (p.next env e).place.hand := by
  cases e with
  | arrive => exact .move fun _ => .accept trivial
  | freeze => exact .move fun _ => .phase trivial (.freeze true)
  | unfreeze => exact .move fun _ => .phase trivial (.freeze false)
  | turn => exact Pass.turn_goes hs
  | between ev =>
      unfold Pass.next
      dsimp only
      split
      · rename_i h
        rw [h.1]
        exact step_spec ev (meets_careful env (.inl trivial) fun _ => trivial)
      · exact Goes.refl _ _

/-- Whatever follows keeps the invariant and only adds to the log. -/
theorem Pass.follow_safe (hs : List Happening) :
    ∀ {p : Pass}, Safe ⟨p.state.core, p.place.hand⟩ →
      Safe ⟨(p.follow env hs).state.core, (p.follow env hs).place.hand⟩ ∧
        p.state.core.trace <:+ (p.follow env hs).state.core.trace := by
  induction hs with
  | nil => exact fun hp => ⟨hp, List.suffix_refl _⟩
  | cons e hs ih =>
      intro p hp
      have hgo := @Pass.next_goes env p hp e
      obtain ⟨hsafe, hlog⟩ := ih (hgo.safe hp)
      exact ⟨hsafe, (path_trace_suffix (hgo hp)).trans hlog⟩

end Path

/-! ### When the promise is kept -/

section Kept

variable {env : Env} {p : Pass} {m : Nat} {rest : List Nat}

/-- A turn with an abort message at the head of the port gives it to `ProcessCommand`. -/
theorem turn_abort (hplace : p.place = .messages) (hport : p.state.core.msgPort = m :: rest)
    (hcmd : (env.ios m).command = .cmdInternalAbortRequest) :
    (p.next env .turn).state = processCommand env p.taken m := by
  change (p.turn env).state = _
  unfold Pass.turn
  rw [hplace]
  dsimp only
  rw [hport]
  dsimp only
  rw [if_neg (fun h => h.1 hcmd)]
  unfold Pass.taken
  rw [hport]
  rfl

theorem processCommand_dead {s : State} (hdead : s.core.dead (env.ios m).unit = true) :
    processCommand env s m = s.log (.reply m tderrDiskChanged (env.ios m).ioActual) :=
  if_pos hdead

theorem processCommand_abort {s : State} (hlive : ¬s.core.dead (env.ios m).unit = true)
    (hcmd : (env.ios m).command = .cmdInternalAbortRequest) :
    processCommand env s m =
      (nvmeIoAbort env s (env.ios m).target).log (.discardIo m) := by
  unfold processCommand
  dsimp only
  rw [if_neg hlive, if_pos hcmd]

/-- To free an abort message is to give it back. -/
theorem count_discard_le (m : Nat) (tr : List Effect) :
    tr.count (.discardIo m) ≤ tr.countP (isReply m) := by
  refine List.countP_mono_left fun e _ he => ?_
  rw [beq_iff_eq.mp he]
  exact beq_self_eq_true m

theorem given_back_le {g : Cfg} (hs : Safe g) (m : Nat) :
    g.core.trace.countP (isReply m) ≤ 1 := by
  have hios := hs.ios m
  unfold ioCount acc at hios
  split at hios <;> omega

/-- A message that has been answered is not freed as well. -/
theorem replied_not_discarded {g : Cfg} {er : Int} {actual : Nat} {tr : List Effect}
    (hs : Safe g) (htrace : g.core.trace = Effect.reply m er actual :: tr) :
    g.core.trace.count (.discardIo m) = 0 := by
  have hone := given_back_le hs m
  have hself : holds (some m) m = 1 := if_pos rfl
  rw [htrace, countP_isReply_cons, hself] at hone
  have hle := count_discard_le m tr
  have hhead : (Effect.reply m er actual == Effect.discardIo m) = false := rfl
  rw [htrace, List.count_cons, hhead]
  simp only [Bool.false_eq_true, if_false]
  omega

/-- The invariant when the message is looked at. -/
theorem InOrder.taken_safe (hp : InOrder env p) (hplace : p.place = .messages)
    (hport : p.state.core.msgPort = m :: rest) :
    Safe ⟨p.taken.core, ⟨some m, none, none, 0, true, false⟩⟩ := by
  have hs := hp.safe
  rw [hplace] at hs
  have htake := takeMsg_safe hs hport
  unfold Pass.taken
  rw [hport]
  exact htake

/-- With a living unit, and a target that is not held only, the code keeps its promise. -/
theorem abort_served (hp : InOrder env p) (hplace : p.place = .messages)
    (hport : p.state.core.msgPort = m :: rest)
    (hcmd : (env.ios m).command = .cmdInternalAbortRequest)
    (hlive : ¬p.state.core.dead (env.ios m).unit = true)
    (hheld : ¬HeldOnly p.state (env.ios m).target) : AbortServed env p m := by
  have hs := hp.taken_safe hplace hport
  have hstate := turn_abort hplace hport hcmd
  have hdead : ¬p.taken.core.dead (env.ios m).unit = true := hlive
  rw [processCommand_abort hdead hcmd] at hstate
  have htrace : (p.next env .turn).state.core.trace =
      .discardIo m :: (nvmeIoAbort env p.taken (env.ios m).target).core.trace := by
    rw [hstate]
    rfl
  refine ⟨⟨_, nvmeIoAbort_tried hs, htrace ▸ List.suffix_cons _ _⟩,
    fun h => absurd h hheld, fun later => ?_⟩
  obtain ⟨hsafe, hlog⟩ := @Pass.follow_safe env later _ (hp.next .turn).safe
  have hmost := (count_discard_le m _).trans (given_back_le hsafe m)
  have hleast := hlog.sublist.count_le (.discardIo m)
  rw [htrace, List.count_cons_self] at hleast
  dsimp only at hmost
  omega

/-- A dead unit answers the message instead of freeing it. -/
theorem dead_not_served (hp : InOrder env p) (hplace : p.place = .messages)
    (hport : p.state.core.msgPort = m :: rest)
    (hcmd : (env.ios m).command = .cmdInternalAbortRequest)
    (hdead : p.state.core.dead (env.ios m).unit = true) : ¬AbortServed env p m := by
  intro hserved
  have hdead' : p.taken.core.dead (env.ios m).unit = true := hdead
  have hstate := turn_abort hplace hport hcmd
  rw [processCommand_dead hdead'] at hstate
  have htrace : (p.next env .turn).state.core.trace =
      .reply m tderrDiskChanged (env.ios m).ioActual :: p.taken.core.trace := by
    rw [hstate]
    rfl
  have hzero := replied_not_discarded (hp.next .turn).safe htrace
  have hone := hserved.freed []
  exact absurd (hzero.symm.trans hone) (by decide)

/-- A target that only the driver holds stays where it is. -/
theorem held_not_served (hp : InOrder env p) (hplace : p.place = .messages)
    (hport : p.state.core.msgPort = m :: rest)
    (hcmd : (env.ios m).command = .cmdInternalAbortRequest)
    (hlive : ¬p.state.core.dead (env.ios m).unit = true)
    (hheld : HeldOnly p.state (env.ios m).target) : ¬AbortServed env p m := by
  intro hserved
  have hs := hp.taken_safe hplace hport
  have hdead : ¬p.taken.core.dead (env.ios m).unit = true := hlive
  have hstate := turn_abort hplace hport hcmd
  rw [processCommand_abort hdead hcmd] at hstate
  refine (hserved.withdrawn hheld).gone ?_
  rw [hstate]
  have hframe := (@nvmeIoAbort_tried env p.taken _ (env.ios m).target hs).onQueue
  exact (held_onQueue hframe _).mpr hheld.2

/-- Whatever has happened: when the unit task gets to an abort message, it does what AbortIO
promises exactly if the unit is not dead and the target is not held by the driver alone. -/
theorem abort_served_iff (env : Env) (maxZeroes : Nat) (hs : List Happening) (m : Nat)
    (rest : List Nat) (hplace : (runPasses env maxZeroes hs).place = .messages)
    (hport : (runPasses env maxZeroes hs).state.core.msgPort = m :: rest)
    (hcmd : (env.ios m).command = .cmdInternalAbortRequest) :
    AbortServed env (runPasses env maxZeroes hs) m ↔
      (runPasses env maxZeroes hs).state.core.dead (env.ios m).unit = false ∧
        ¬HeldOnly (runPasses env maxZeroes hs).state (env.ios m).target := by
  have hp := runPasses_inOrder env maxZeroes hs
  generalize runPasses env maxZeroes hs = p at hplace hport hp ⊢
  by_cases hdead : p.state.core.dead (env.ios m).unit = true
  · rw [hdead]
    exact ⟨fun h => absurd h (dead_not_served hp hplace hport hcmd hdead),
      fun h => absurd h.1 (by decide)⟩
  · constructor
    · intro hserved
      exact ⟨Bool.eq_false_of_not_eq_true hdead,
        fun hheld => held_not_served hp hplace hport hcmd hdead hheld hserved⟩
    · intro h
      exact abort_served hp hplace hport hcmd hdead h.2

/-- One client reads a block; every later message is an AbortIO for that read. -/
def abortEnv : Env :=
  { sampleEnv with
    ios := fun i =>
      if i = 0 then sampleEnv.ios 0
      else { command := .cmdInternalAbortRequest, unit := 0, target := 0 } }

/-- The read is submitted, `ev` happens, and the unit task gets to the abort message. -/
def abortRun (ev : Event) : List Happening :=
  .arrive :: List.replicate 5 .turn ++ [.between ev, .arrive] ++ List.replicate 3 .turn

/-- The read is in flight, and AbortIO is served. -/
theorem abort_served_inflight :
    AbortServed abortEnv (runPasses abortEnv 0 (abortRun .collect)) 1 := by
  have hrun : (runPasses abortEnv 0 (abortRun .collect)).place = .messages ∧
      (runPasses abortEnv 0 (abortRun .collect)).state.core.msgPort = [1] ∧
      (runPasses abortEnv 0 (abortRun .collect)).state.core.dead (abortEnv.ios 1).unit = false ∧
      ¬HeldOnly (runPasses abortEnv 0 (abortRun .collect)).state (abortEnv.ios 1).target := by
    decide +kernel
  exact (abort_served_iff abortEnv 0 (abortRun .collect) 1 [] hrun.1 hrun.2.1 rfl).mpr
    hrun.2.2

/-- The read has failed and waits in `retry_list` as the unit task gets to the abort message. -/
def abortOfRetry : Pass := runPasses abortEnv 0 (abortRun (.irq [] [⟨0, 0xa81, 0⟩]))

/-- The namespace has gone by then. -/
def abortOnDeadUnit : Pass :=
  runPasses abortEnv 0 (abortRun (.scan (fun _ => true) (fun _ => false) 0))

/-- The read is outstanding in both, and AbortIO is served in neither: in the first one it stays
on `retry_list`, in the second the message is answered and never freed. -/
theorem abort_not_served :
    (abortOfRetry.place = .messages ∧ abortOfRetry.state.core.msgPort = [1] ∧
      Outstanding abortOfRetry.state.core 0 ∧ ¬AbortServed abortEnv abortOfRetry 1) ∧
    (abortOnDeadUnit.place = .messages ∧ abortOnDeadUnit.state.core.msgPort = [1] ∧
      Outstanding abortOnDeadUnit.state.core 0 ∧ ¬AbortServed abortEnv abortOnDeadUnit 1) := by
  have hretry : HeldOnly abortOfRetry.state 0 ∧
      Held (abortOfRetry.next abortEnv .turn).state 0 := by
    decide +kernel
  have hdead : (abortOnDeadUnit.next abortEnv .turn).state.core.trace.count (.discardIo 1) = 0 := by
    decide +kernel
  refine ⟨⟨by decide +kernel, by decide +kernel, by decide +kernel, fun hserved => ?_⟩,
    ⟨by decide +kernel, by decide +kernel, by decide +kernel, fun hserved => ?_⟩⟩
  · exact (hserved.withdrawn hretry.1).gone hretry.2
  · exact absurd (hdead.symm.trans (hserved.freed [])) (by decide)

end Kept

end Runs
end NvmeDriver
