import NvmeDriver.Refine.Frame
import NvmeDriver.Runs.Clients

/-!
# Dispatch order

`nvme_drain_msgport` one turn of its loops at a time, so that messages may arrive and the
queue be frozen while a pass is under way.  Client requests reach `ProcessCommand` in the
order in which they arrived: what has been handed over, followed by the stash, followed by
the port, is the sequence of arrivals at every moment.
-/

namespace NvmeDriver
namespace Runs

open Engine
open Lib
open Ownership
open Refine

/-! ### One pass, turn by turn -/

section Turns

/-- Where the unit task is: outside `nvme_drain_msgport`, or in one of its loops. -/
inductive Place
  | outside
  | stalled
  | pending
  | messages
deriving DecidableEq

/-- The unit task on its way through a pass, and the client requests `ProcessCommand` has
been given, the first one first. -/
structure Pass where
  state : State
  place : Place
  handed : List Nat

/-- Not an abort message. -/
def isClient (env : Env) (i : Nat) : Bool :=
  decide ((env.ios i).command ≠ .cmdInternalAbortRequest)

/-- `ProcessCommand` is given a message taken off its list. -/
def Pass.hand (env : Env) (p : Pass) (s : State) (i : Nat) : Pass :=
  { p with
    state := processCommand env s i
    handed := p.handed ++ [i].filter (isClient env) }

/-- The unit task goes on: into a pass, one turn of a loop, on to the next loop. -/
def Pass.turn (env : Env) (p : Pass) : Pass :=
  let s := p.state
  match p.place with
  | .outside =>
      if unitRuns s ∧ ¬(s.core.stopped ∨ s.core.frozen) then
        { p with state := nvmeSqBatchBegin s .io, place := .stalled }
      else p
  | .stalled =>
      if hasRoom s then
        match s.core.ctxStalled with
        | [] => { p with place := .pending }
        | c :: rest =>
            match repump env { s with core := { s.core with ctxStalled := rest } } c with
            | (s₁, true) => { p with state := s₁, place := .pending }
            | (s₁, false) => { p with state := s₁ }
      else { p with place := .pending }
  | .pending =>
      if hasRoom s then
        match s.core.ioPending with
        | [] => { p with place := .messages }
        | i :: rest => p.hand env { s with core := { s.core with ioPending := rest } } i
      else { p with place := .messages }
  | .messages =>
      match s.core.msgPort with
      | [] => { p with state := nvmeSqBatchEnd s .io, place := .outside }
      | i :: rest =>
          let s₁ : State := { s with core := { s.core with msgPort := rest } }
          if (env.ios i).command ≠ .cmdInternalAbortRequest ∧
              (¬hasRoom s₁ ∨ s₁.core.ioPending ≠ []) then
            { p with state :=
              { s₁ with core := { s₁.core with ioPending := s₁.core.ioPending ++ [i] } } }
          else p.hand env s₁ i

instance (ev : Event) : Decidable (handlesClients ev) := by
  cases ev <;> first | exact isTrue trivial | exact isFalse id

/-- What can happen: other tasks put messages on the port and freeze the queue at any time,
everything else happens between two passes. -/
inductive Happening
  | arrive
  | freeze
  | unfreeze
  | turn
  | between (ev : Event)

/-- One thing happens; what is not possible now does nothing.  The exit of the unit task is
not among them. -/
def Pass.next (env : Env) (p : Pass) : Happening → Pass
  | .arrive => { p with state := step env p.state .putMsg }
  | .freeze => { p with state := step env p.state .freeze }
  | .unfreeze => { p with state := step env p.state .unfreeze }
  | .turn => p.turn env
  | .between ev =>
      if p.place = .outside ∧ ¬handlesClients ev then { p with state := step env p.state ev }
      else p

/-- A controller that has just come up, and what happens to it. -/
def runPasses (env : Env) (maxZeroes : Nat) (hs : List Happening) : Pass :=
  hs.foldl (Pass.next env) ⟨bootState env maxZeroes, .outside, []⟩

/-- What happens to a pass from here on. -/
def Pass.follow (env : Env) (p : Pass) (hs : List Happening) : Pass :=
  hs.foldl (Pass.next env) p

end Turns

/-! ### What only the lists of client requests change -/

section Lists

variable {env : Env} {P : Policy} {s : State} {a : Nat} {b : Bool}

/-- The lists of client requests are the same. -/
structure SameLists (c c' : Core) : Prop where
  msgPort : c'.msgPort = c.msgPort
  ioPending : c'.ioPending = c.ioPending
  accepted : c'.accepted = c.accepted

theorem SameLists.refl (c : Core) : SameLists c c := ⟨rfl, rfl, rfl⟩

theorem SameLists.trans {c c' c'' : Core} (h₁ : SameLists c c') (h₂ : SameLists c' c'') :
    SameLists c c'' :=
  ⟨h₂.msgPort.trans h₁.msgPort, h₂.ioPending.trans h₁.ioPending,
    h₂.accepted.trans h₁.accepted⟩

/-- Only the moves that need `queue` touch them. -/
theorem move_sameLists (hq : ¬P.queue) {g g' : Cfg} (hm : Move env P g g') :
    SameLists g.core g'.core := by
  cases hm with
  | accept h => exact absurd h hq
  | takeMsg hlist hh h => exact absurd h hq
  | takePending hlist hh h => exact absurd h hq
  | stash hh h => exact absurd h hq
  | phase hstir hp => cases hp <;> exact ⟨rfl, rfl, rfl⟩
  | _ => constructor <;> simp [stamp, sent]

theorem path_sameLists (hq : ¬P.queue) {g g' : Cfg}
    (hpath : Relation.ReflTransGen (Move env P) g g') : SameLists g.core g'.core := by
  induction hpath with
  | refl => exact SameLists.refl _
  | tail _ hm ih => exact ih.trans (move_sameLists hq hm)

/-- Everything is allowed that leaves the lists alone. -/
def elsewhere : Policy := carefulWith True True False

/-- A parked context is pumped again. -/
theorem repump_lists {c : Nat} {rest : List Nat}
    (hs : Safe ⟨s.core, ⟨none, none, none, a, b, false⟩⟩) (hlist : s.core.ctxStalled = c :: rest)
    (hroom : hasRoom s) :
    let t := (repump env { s with core := { s.core with ctxStalled := rest } } c).1
    Safe ⟨t.core, ⟨none, none, none, a, b, false⟩⟩ ∧ SameLists s.core t.core := by
  have hgo := @repump_spec env elsewhere s a b false c rest hs hlist hroom trivial (.inl trivial)
  exact ⟨hgo.safe hs, path_sameLists (P := elsewhere.calm) id (hgo hs)⟩

/-- `ProcessCommand` with a message just taken off its list. -/
theorem processCommand_lists {i : Nat} (hs : Safe ⟨s.core, ⟨some i, none, none, a, b, false⟩⟩)
    (hroom : (env.ios i).command ≠ .cmdInternalAbortRequest → hasRoom s) :
    Safe ⟨(processCommand env s i).core, ⟨none, none, none, a, b, false⟩⟩ ∧
      SameLists s.core (processCommand env s i).core := by
  have hgo := @processCommand_spec env elsewhere s i a b false hs hroom (fun _ => trivial)
    (fun _ => trivial)
  exact ⟨hgo.safe hs, path_sameLists (P := elsewhere.calm) id (hgo hs)⟩

theorem takePending_safe {i : Nat} {rest : List Nat}
    (hs : Safe ⟨s.core, ⟨none, none, none, a, b, false⟩⟩) (hlist : s.core.ioPending = i :: rest) :
    Safe ⟨{ s.core with ioPending := rest }, ⟨some i, none, none, a, b, false⟩⟩ :=
  keeps_safe sampleEnv Policy.all _ _ hs (.takePending hlist rfl trivial)

theorem takeMsg_safe {i : Nat} {rest : List Nat}
    (hs : Safe ⟨s.core, ⟨none, none, none, a, b, false⟩⟩) (hlist : s.core.msgPort = i :: rest) :
    Safe ⟨{ s.core with msgPort := rest }, ⟨some i, none, none, a, b, false⟩⟩ :=
  keeps_safe sampleEnv Policy.all _ _ hs (.takeMsg hlist rfl trivial)

theorem stash_safe {c : Core} {i : Nat} (hs : Safe ⟨c, ⟨some i, none, none, a, b, false⟩⟩) :
    Safe ⟨{ c with ioPending := c.ioPending ++ [i] }, ⟨none, none, none, a, b, false⟩⟩ :=
  keeps_safe sampleEnv Policy.all _ _ hs (.stash rfl trivial)

/-- A client request that need not wait finds room. -/
theorem room_of_now {i : Nat} (hnow : ¬((env.ios i).command ≠ .cmdInternalAbortRequest ∧
    (¬hasRoom s ∨ s.core.ioPending ≠ []))) :
    (env.ios i).command ≠ .cmdInternalAbortRequest → hasRoom s := by
  intro hcmd
  by_contra hfull
  exact hnow ⟨hcmd, .inl hfull⟩

theorem batchBegin_lists (env : Env) (hs : Safe ⟨s.core, ⟨none, none, none, a, false, false⟩⟩) :
    Safe ⟨(nvmeSqBatchBegin s .io).core, ⟨none, none, none, a, true, false⟩⟩ ∧
      SameLists s.core (nvmeSqBatchBegin s .io).core := by
  have hgo := @nvmeSqBatchBegin_spec env elsewhere s none a false
  exact ⟨hgo.safe hs, path_sameLists (P := elsewhere) id (hgo hs)⟩

theorem batchEnd_lists (env : Env) (hs : Safe ⟨s.core, ⟨none, none, none, a, true, false⟩⟩) :
    Safe ⟨(nvmeSqBatchEnd s .io).core, ⟨none, none, none, a, false, false⟩⟩ ∧
      SameLists s.core (nvmeSqBatchEnd s .io).core := by
  have hgo := @nvmeSqBatchEnd_spec env elsewhere s none a false (.inr trivial)
  exact ⟨hgo.safe hs, path_sameLists (P := elsewhere) id (hgo hs)⟩

end Lists

/-! ### Pumping a context again -/

section Repump

variable {env : Env} {s t u : State} {c : Nat}

/-- The parked contexts are the same, and the context has not gone. -/
structure Unparked (c : Nat) (s t : State) : Prop where
  alive : s.core.ctxs.get c ≠ none → t.core.ctxs.get c ≠ none
  same : t.core.ctxStalled = s.core.ctxStalled

/-- The context is marked as parked. -/
def Parked (c : Nat) (s : State) : Prop :=
  ∃ ctx, s.core.ctxs.get c = some ctx ∧ ctx.stalled = true

namespace Unparked

theorem refl (c : Nat) (s : State) : Unparked c s s := ⟨id, rfl⟩

theorem trans (h₁ : Unparked c s t) (h₂ : Unparked c t u) : Unparked c s u :=
  ⟨h₂.alive ∘ h₁.alive, h₂.same.trans h₁.same⟩

theorem onQueue {q : QueueId} (h : OnQueue q s t) : Unparked c s t := by
  obtain ⟨⟨tab, ring, n, es, hcore, -⟩, -⟩ := h
  constructor
  · intro hget
    rw [hcore]
    cases q <;> exact hget
  · rw [hcore]
    cases q <;> rfl

theorem editCtx (c : Nat) (s : State) (x : Nat) (f : IoContext → IoContext) :
    Unparked c s (s.editCtx x f) := by
  refine ⟨fun hget => ?_, rfl⟩
  change (s.core.ctxs.modify x f).get c ≠ none
  rw [Heap.get_modify]
  split
  · cases hc : s.core.ctxs.get c with
    | none => exact absurd hc hget
    | some ctx => exact Option.some_ne_none _
  · exact hget

end Unparked

theorem stallCtx_parked (hget : s.core.ctxs.get c ≠ none) : Parked c (stallCtx s c) := by
  obtain ⟨ctx, hctx⟩ := Option.ne_none_iff_exists'.mp hget
  exact ⟨{ ctx with stalled := true }, get_modify_self hctx, rfl⟩

theorem pumpRefused_parks (inflight : Nat) (e : Int) (hget : s.core.ctxs.get c ≠ none) :
    Unparked c s (pumpRefused s c inflight e).1 ∨ Parked c (pumpRefused s c inflight e).1 := by
  unfold pumpRefused
  split
  · dsimp only
    split
    · exact .inr (stallCtx_parked hget)
    · exact .inl (Unparked.refl c s)
  · exact .inl (Unparked.editCtx c s c _)

/-- A turn of the pump parks its context only as it stops. -/
theorem pumpTurn_parks (ctx : IoContext) (hget : s.core.ctxs.get c ≠ none) :
    Unparked c s (pumpTurn env s c ctx).1 ∨
      Parked c (pumpTurn env s c ctx).1 ∧ (pumpTurn env s c ctx).2 ≠ none := by
  have halloc : Unparked c s (nvmeReqAllocIo env s ctx.unit none).1 :=
    Unparked.onQueue (OnQueue.allocRequest s .io _ _ _)
  unfold pumpTurn
  dsimp only
  generalize nvmeReqAllocIo env s ctx.unit none = p at halloc ⊢
  obtain ⟨s₁, e | tag⟩ := p
  · dsimp only
    split
    · exact .inr ⟨stallCtx_parked (halloc.alive hget), Option.some_ne_none _⟩
    · exact .inl halloc
  · dsimp only
    have hname : Unparked c s₁ (s₁.editSlot .io tag (fun r => { r with ctx := some c })) :=
      Unparked.onQueue (OnQueue.setTab s₁ .io _)
    generalize State.editSlot s₁ .io tag _ = s₂ at hname ⊢
    have hsetup : Unparked c s₂ (setupChunk env s₂ tag ctx (nextBytes env ctx)).1 :=
      Unparked.onQueue (OnQueue.setupChunk s₂ tag ctx _)
    generalize setupChunk env s₂ tag ctx (nextBytes env ctx) = p at hsetup ⊢
    obtain ⟨s₃, serr⟩ := p
    dsimp only at hsetup ⊢
    have hthird := (halloc.trans hname).trans hsetup
    split
    · exact .inl ((hthird.trans (Unparked.onQueue (OnQueue.nvmeReqDestroy s₃ .io tag))).trans
        (Unparked.editCtx c _ c _))
    · have hadd := hthird.trans (Unparked.editCtx c s₃ c (fun y =>
        { y with dispatched := y.dispatched + nextBytes env ctx, inflight := y.inflight + 1 }))
      generalize State.editCtx s₃ c _ = s₄ at hadd ⊢
      have hsubmit : Unparked c s₄ (nvmeSubmitIo env s₄ .io tag).1 :=
        Unparked.onQueue (OnQueue.nvmeSubmitIo s₄ .io tag)
      generalize nvmeSubmitIo env s₄ .io tag = p at hsubmit ⊢
      obtain ⟨s₅, suberr⟩ := p
      dsimp only at hsubmit ⊢
      split
      · have hback := (hadd.trans hsubmit).trans (Unparked.editCtx c s₅ c (fun y =>
          { y with dispatched := y.dispatched - nextBytes env ctx, inflight := y.inflight - 1 }))
        generalize State.editCtx s₅ c _ = s₆ at hback ⊢
        rcases pumpRefused_parks ctx.inflight suberr (hback.alive hget) with h | h
        · exact .inl (hback.trans h)
        · exact .inr ⟨h, Option.some_ne_none _⟩
      · exact .inl (hadd.trans hsubmit)

theorem pumpLoop_parks (n : Nat) : ∀ {s : State}, s.core.ctxs.get c ≠ none →
    Unparked c s (pumpLoop env n s c).1 ∨ Parked c (pumpLoop env n s c).1 := by
  induction n with
  | zero => exact fun {s} _ => .inl (Unparked.refl c s)
  | succ n ih =>
      intro s hget
      obtain ⟨ctx, hctx⟩ := Option.ne_none_iff_exists'.mp hget
      unfold pumpLoop
      rw [hctx]
      dsimp only
      split
      · have hturn := @pumpTurn_parks env s c ctx hget
        generalize pumpTurn env s c ctx = p at hturn ⊢
        obtain ⟨s₁, _ | err⟩ := p
        · rcases hturn with h | h
          · exact (ih (h.alive hget)).imp h.trans id
          · exact absurd rfl h.2
        · exact hturn.imp id And.left
      · exact .inl (Unparked.refl c s)

/-- A context that goes on, or is finished, leaves the parked ones as they were. -/
theorem repump_unparked (h : (repump env s c).2 = false) :
    (repump env s c).1.core.ctxStalled = s.core.ctxStalled := by
  have hedit := Unparked.editCtx c s c (fun x => { x with stalled := false })
  unfold repump nvmeIoContextPump at h ⊢
  dsimp only at h ⊢
  generalize State.editCtx s c _ = s₁ at hedit h ⊢
  cases hget : s₁.core.ctxs.get c with
  | none =>
      have hloop : pumpLoop env (nvmeMaxInflightPerIo + 1) s₁ c = (s₁.log .fault, nvmeIoAsync) := by
        unfold pumpLoop
        rw [hget]
      have hlog : (s₁.log .fault).core.ctxs.get c = none := hget
      rw [hloop] at h
      dsimp only at h
      rw [hlog] at h
      cases h
  | some ctx =>
      have hparks := @pumpLoop_parks env c (nvmeMaxInflightPerIo + 1) s₁
        (by rw [hget]; exact Option.some_ne_none _)
      generalize pumpLoop env (nvmeMaxInflightPerIo + 1) s₁ c = p at hparks h ⊢
      obtain ⟨s₂, err⟩ := p
      dsimp only at hparks h ⊢
      cases hget₂ : s₂.core.ctxs.get c with
      | none =>
          rw [hget₂] at h
          cases h
      | some ctx₂ =>
          rw [hget₂] at h
          dsimp only at h ⊢
          by_cases hstall : ctx₂.stalled = true
          · rw [if_pos hstall] at h
            cases h
          · have hsame : s₂.core.ctxStalled = s.core.ctxStalled := by
              rcases hparks with hsame | ⟨ctx', hget', hstall'⟩
              · exact hsame.same.trans hedit.same
              · rw [Option.some.inj (hget₂.symm.trans hget')] at hstall
                exact absurd hstall' hstall
            rw [if_neg hstall]
            split
            · refine Eq.trans ?_ hsame
              unfold nvmeIoContextFinish
              rw [hget₂]
              dsimp only
              split <;> rfl
            · exact hsame

end Repump

/-! ### The turns make up the pass -/

section Whole

variable {env : Env} {s : State} {h : List Nat} {p p' q : Pass}

/-- Some turns lead from one to the other. -/
def Turns (env : Env) (p q : Pass) : Prop := ∃ k, (Pass.turn env)^[k] p = q

theorem Turns.of_eq (h : p = q) : Turns env p q := ⟨0, h⟩

theorem Turns.refl (p : Pass) : Turns env p p := .of_eq rfl

theorem Turns.cons (h : Turns env (p.turn env) q) : Turns env p q := by
  obtain ⟨k, hk⟩ := h
  exact ⟨k + 1, hk⟩

theorem Turns.trans (h₁ : Turns env p p') (h₂ : Turns env p' q) : Turns env p q := by
  obtain ⟨k₁, rfl⟩ := h₁
  obtain ⟨k₂, rfl⟩ := h₂
  exact ⟨k₂ + k₁, Function.iterate_add_apply _ k₂ k₁ p⟩

theorem turns_drainStalled (n : Nat) :
    ∀ {s : State}, s.core.ctxStalled.length ≤ n →
      Turns env ⟨s, .stalled, h⟩ ⟨drainStalled env n s, .pending, h⟩ := by
  induction n with
  | zero =>
      intro s hn
      have hnil : s.core.ctxStalled = [] := List.length_eq_zero_iff.mp (Nat.le_zero.mp hn)
      refine .cons (.of_eq ?_)
      unfold Pass.turn drainStalled
      dsimp only
      rw [hnil]
      split <;> rfl
  | succ n ih =>
      intro s hn
      unfold drainStalled
      by_cases hroom : hasRoom s
      · cases hlist : s.core.ctxStalled with
        | nil =>
            refine .cons (.of_eq ?_)
            unfold Pass.turn
            dsimp only
            rw [if_pos hroom, if_pos hroom, hlist]
        | cons c rest =>
            have hpump := @repump_unparked env
              { s with core := { s.core with ctxStalled := rest } } c
            rw [if_pos hroom]
            dsimp only
            refine .cons ?_
            unfold Pass.turn
            dsimp only
            rw [if_pos hroom, hlist]
            dsimp only
            generalize repump env { s with core := { s.core with ctxStalled := rest } } c = p
              at hpump ⊢
            obtain ⟨s₁, _ | _⟩ := p
            · refine ih ?_
              have hsame : s₁.core.ctxStalled = rest := hpump rfl
              rw [hlist, List.length_cons] at hn
              rw [hsame]
              exact Nat.le_of_succ_le_succ hn
            · exact .refl _
      · refine .cons (.of_eq ?_)
        unfold Pass.turn
        dsimp only
        rw [if_neg hroom, if_neg hroom]

theorem turns_drainPending (n : Nat) :
    ∀ {s : State} {h : List Nat}, s.core.ioPending.length ≤ n →
      Safe ⟨s.core, ⟨none, none, none, 0, true, false⟩⟩ →
      ∃ h', Turns env ⟨s, .pending, h⟩ ⟨drainPending env n s, .messages, h'⟩ := by
  induction n with
  | zero =>
      intro s h hn _
      have hnil : s.core.ioPending = [] := List.length_eq_zero_iff.mp (Nat.le_zero.mp hn)
      refine ⟨h, .cons (.of_eq ?_)⟩
      unfold Pass.turn drainPending
      dsimp only
      rw [hnil]
      split <;> rfl
  | succ n ih =>
      intro s h hn hs
      unfold drainPending
      by_cases hroom : hasRoom s
      · cases hlist : s.core.ioPending with
        | nil =>
            refine ⟨h, .cons (.of_eq ?_)⟩
            unfold Pass.turn
            dsimp only
            rw [if_pos hroom, if_pos hroom, hlist]
        | cons i rest =>
            have htake := takePending_safe hs hlist
            obtain ⟨hs', hsame⟩ := @processCommand_lists env
              { s with core := { s.core with ioPending := rest } } 0 true i htake (fun _ => hroom)
            have hrest : (processCommand env { s with core := { s.core with ioPending := rest } }
                i).core.ioPending = rest := hsame.ioPending
            rw [hlist, List.length_cons] at hn
            obtain ⟨h', hturns⟩ := ih (h := h ++ [i].filter (isClient env))
              (by rw [hrest]; exact Nat.le_of_succ_le_succ hn) hs'
            refine ⟨h', .cons ?_⟩
            unfold Pass.turn
            dsimp only
            rw [if_pos hroom, if_pos hroom, hlist]
            exact hturns
      · refine ⟨h, .cons (.of_eq ?_)⟩
        unfold Pass.turn
        dsimp only
        rw [if_neg hroom, if_neg hroom]

theorem turns_drainMessages (n : Nat) :
    ∀ {s : State} {h : List Nat}, s.core.msgPort.length ≤ n →
      Safe ⟨s.core, ⟨none, none, none, 0, true, false⟩⟩ →
      ∃ h', Turns env ⟨s, .messages, h⟩
        ⟨nvmeSqBatchEnd (drainMessages env n s) .io, .outside, h'⟩ := by
  induction n with
  | zero =>
      intro s h hn _
      have hnil : s.core.msgPort = [] := List.length_eq_zero_iff.mp (Nat.le_zero.mp hn)
      refine ⟨h, .cons (.of_eq ?_)⟩
      unfold Pass.turn drainMessages
      dsimp only
      rw [hnil]
  | succ n ih =>
      intro s h hn hs
      unfold drainMessages
      cases hlist : s.core.msgPort with
      | nil =>
          refine ⟨h, .cons (.of_eq ?_)⟩
          unfold Pass.turn
          dsimp only
          rw [hlist]
      | cons i rest =>
          have htake := takeMsg_safe hs hlist
          rw [hlist, List.length_cons] at hn
          have hn' : rest.length ≤ n := Nat.le_of_succ_le_succ hn
          dsimp only
          split
          · rename_i hwait
            obtain ⟨h', hturns⟩ := @ih
              { s with core := { s.core with
                msgPort := rest, ioPending := s.core.ioPending ++ [i] } } h hn' (stash_safe htake)
            refine ⟨h', .cons ?_⟩
            unfold Pass.turn
            dsimp only
            rw [hlist]
            dsimp only
            rw [if_pos hwait]
            exact hturns
          · rename_i hnow
            obtain ⟨hs', hsame⟩ := processCommand_lists htake (room_of_now hnow)
            have hrest : (processCommand env { s with core := { s.core with msgPort := rest } }
                i).core.msgPort = rest := hsame.msgPort
            obtain ⟨h', hturns⟩ := ih (h := h ++ [i].filter (isClient env))
              (by rw [hrest]; exact hn') hs'
            refine ⟨h', .cons ?_⟩
            unfold Pass.turn
            dsimp only
            rw [hlist]
            dsimp only
            rw [if_neg hnow]
            exact hturns

/-- A whole pass is a run of turns. -/
theorem turns_drain (hs : Safe ⟨s.core, ⟨none, none, none, 0, false, false⟩⟩) :
    ∃ h', Turns env ⟨s, .outside, h⟩ ⟨step env s .drain, .outside, h'⟩ := by
  simp only [step]
  split
  case isFalse => exact ⟨h, .refl _⟩
  case isTrue hrun =>
    unfold nvmeDrainMsgport
    by_cases hopen : s.core.stopped ∨ s.core.frozen
    · rw [if_pos hopen]
      exact ⟨h, .refl _⟩
    · rw [if_neg hopen]
      have henter : Pass.turn env ⟨s, .outside, h⟩ = ⟨nvmeSqBatchBegin s .io, .stalled, h⟩ := by
        unfold Pass.turn
        exact if_pos ⟨hrun, hopen⟩
      obtain ⟨hs₁, -⟩ := batchBegin_lists env hs
      dsimp only
      generalize nvmeSqBatchBegin s .io = s₁ at henter hs₁ ⊢
      have hturns₁ : Turns env ⟨s₁, .stalled, h⟩
          ⟨drainStalled env s₁.core.ctxStalled.length s₁, .pending, h⟩ :=
        turns_drainStalled _ (Nat.le_refl _)
      have hs₂ := (@drainStalled_spec env elsewhere 0 true false s₁.core.ctxStalled.length s₁ hs₁
        (fun _ _ => trivial) (.inl trivial)).safe hs₁
      generalize drainStalled env s₁.core.ctxStalled.length s₁ = s₂ at hturns₁ hs₂ ⊢
      obtain ⟨h₃, hturns₂⟩ := @turns_drainPending env s₂.core.ioPending.length s₂ h
        (Nat.le_refl _) hs₂
      have hs₃ := (@drainPending_spec env Policy.all 0 true false s₂.core.ioPending.length s₂ hs₂
        (fun _ => trivial) trivial trivial).safe hs₂
      generalize drainPending env s₂.core.ioPending.length s₂ = s₃ at hturns₂ hs₃ ⊢
      obtain ⟨h₄, hturns₃⟩ := @turns_drainMessages env s₃.core.msgPort.length s₃ h₃
        (Nat.le_refl _) hs₃
      refine ⟨h₄, .cons ?_⟩
      rw [henter]
      exact (hturns₁.trans hturns₂).trans hturns₃

end Whole

/-! ### What a pass leaves -/

section Leaves

variable {env : Env} {s : State} {i : Nat}

/-- What is stashed waits for room. -/
def Waiting (s : State) : Prop := s.core.ioPending ≠ [] → ¬hasRoom s

theorem room_onAdmin {t : State} (h : OnQueue .admin s t) : hasRoom t ↔ hasRoom s := by
  obtain ⟨⟨tab, ring, n, es, hcore, -⟩, -⟩ := h
  unfold hasRoom
  rw [hcore]
  exact Iff.rfl

/-- Aborts go to the admin queue. -/
theorem ioAbortLoop_onAdmin (target : Nat) (tags : List Nat) :
    ∀ s, OnQueue .admin s (ioAbortLoop env target tags s) := by
  induction tags with
  | nil => exact OnQueue.refl .admin
  | cons tag tags ih =>
      intro s
      unfold ioAbortLoop
      cases s.slot .io tag with
      | none => exact ih s
      | some r =>
          have hread : OnQueue .admin s (s.readCtx r.ctx) := by
            unfold State.readCtx
            split
            · exact OnQueue.refl .admin s
            · split
              · exact OnQueue.refl .admin s
              · exact OnQueue.log .admin s fun e he i er a heq => by
                  rw [List.mem_singleton.mp he] at heq
                  cases heq
          dsimp only
          split
          · exact (hread.trans (OnQueue.nvmeSubmitAsyncCmd _ _ _ _ _ _)).trans (ih _)
          · exact hread.trans (ih _)

/-- An abort message takes no room of the I/O queue. -/
theorem processCommand_abort_room (habort : (env.ios i).command = .cmdInternalAbortRequest) :
    hasRoom (processCommand env s i) ↔ hasRoom s := by
  unfold processCommand
  dsimp only
  split
  · exact Iff.rfl
  · have haborts : OnQueue .admin s (nvmeIoAbort env s (env.ios i).target) :=
      ioAbortLoop_onAdmin _ _ s
    have hroom : hasRoom ((nvmeIoAbort env s (env.ios i).target).log (.discardIo i)) ↔
        hasRoom (nvmeIoAbort env s (env.ios i).target) := Iff.rfl
    exact hroom.trans (room_onAdmin haborts)

theorem drainPending_waiting (n : Nat) : ∀ {s : State}, s.core.ioPending.length ≤ n →
    Safe ⟨s.core, ⟨none, none, none, 0, true, false⟩⟩ → Waiting (drainPending env n s) := by
  induction n with
  | zero =>
      intro s hn _
      exact fun hne => absurd (List.length_eq_zero_iff.mp (Nat.le_zero.mp hn)) hne
  | succ n ih =>
      intro s hn hs
      unfold drainPending
      by_cases hroom : hasRoom s
      · rw [if_pos hroom]
        cases hlist : s.core.ioPending with
        | nil => exact fun hne => absurd hlist hne
        | cons j rest =>
            obtain ⟨hs', hsame⟩ := @processCommand_lists env
              { s with core := { s.core with ioPending := rest } } 0 true j
              (takePending_safe hs hlist) (fun _ => hroom)
            rw [hlist, List.length_cons] at hn
            exact ih (by rw [hsame.ioPending]; exact Nat.le_of_succ_le_succ hn) hs'
      · rw [if_neg hroom]
        exact fun _ => hroom

theorem drainMessages_leaves (n : Nat) : ∀ {s : State}, s.core.msgPort.length ≤ n →
    Safe ⟨s.core, ⟨none, none, none, 0, true, false⟩⟩ → Waiting s →
    (drainMessages env n s).core.msgPort = [] ∧ Waiting (drainMessages env n s) := by
  induction n with
  | zero =>
      intro s hn _ hwait
      exact ⟨List.length_eq_zero_iff.mp (Nat.le_zero.mp hn), hwait⟩
  | succ n ih =>
      intro s hn hs hwait
      unfold drainMessages
      cases hlist : s.core.msgPort with
      | nil => exact ⟨hlist, hwait⟩
      | cons j rest =>
          have htake := takeMsg_safe hs hlist
          rw [hlist, List.length_cons] at hn
          have hn' : rest.length ≤ n := Nat.le_of_succ_le_succ hn
          dsimp only
          split
          · rename_i hlater
            refine @ih { s with core := { s.core with
              msgPort := rest, ioPending := s.core.ioPending ++ [j] } } hn' (stash_safe htake)
              fun _ => ?_
            exact hlater.2.elim id hwait
          · rename_i hnow
            obtain ⟨hs', hsame⟩ := processCommand_lists htake (room_of_now hnow)
            refine ih (by rw [hsame.msgPort]; exact hn') hs' ?_
            by_cases habort : (env.ios j).command = .cmdInternalAbortRequest
            · -- the stash may be filled, but the queue is as full as it was
              intro hne
              rw [hsame.ioPending] at hne
              have hfull : ¬hasRoom { s with core := { s.core with msgPort := rest } } := hwait hne
              exact fun hroom => hfull ((processCommand_abort_room habort).mp hroom)
            · intro hne
              rw [hsame.ioPending] at hne
              exact absurd ⟨habort, .inr hne⟩ hnow

theorem batchEnd_ioTab (s : State) : (nvmeSqBatchEnd s .io).core.ioTab = s.core.ioTab ∧
    (nvmeSqBatchEnd s .io).core.ioMaxInflight = s.core.ioMaxInflight := by
  unfold nvmeSqBatchEnd nvmeSqCommit
  dsimp only
  split
  · exact ⟨rfl, rfl⟩
  · split
    · split <;> exact ⟨rfl, rfl⟩
    · exact ⟨rfl, rfl⟩

/-- A pass that is neither stopped nor frozen takes every message off the port, and leaves
client requests in the stash only where the queue is full. -/
theorem drain_leaves (hs : Safe ⟨s.core, ⟨none, none, none, 0, false, false⟩⟩)
    (hopen : ¬(s.core.stopped ∨ s.core.frozen)) :
    (nvmeDrainMsgport env s).core.msgPort = [] ∧ Waiting (nvmeDrainMsgport env s) := by
  unfold nvmeDrainMsgport
  rw [if_neg hopen]
  obtain ⟨hs₁, -⟩ := batchBegin_lists env hs
  dsimp only
  generalize nvmeSqBatchBegin s .io = s₁ at hs₁ ⊢
  have hs₂ := (@drainStalled_spec env elsewhere 0 true false s₁.core.ctxStalled.length s₁ hs₁
    (fun _ _ => trivial) (.inl trivial)).safe hs₁
  generalize drainStalled env s₁.core.ctxStalled.length s₁ = s₂ at hs₂ ⊢
  have hwait₃ := @drainPending_waiting env s₂.core.ioPending.length s₂ (Nat.le_refl _) hs₂
  have hs₃ := (@drainPending_spec env Policy.all 0 true false s₂.core.ioPending.length s₂ hs₂
    (fun _ => trivial) trivial trivial).safe hs₂
  generalize drainPending env s₂.core.ioPending.length s₂ = s₃ at hwait₃ hs₃ ⊢
  obtain ⟨hport, hwait₄⟩ := @drainMessages_leaves env s₃.core.msgPort.length s₃ (Nat.le_refl _)
    hs₃ hwait₃
  have hs₄ := (@drainMessages_spec env Policy.all 0 true false s₃.core.msgPort.length s₃ hs₃
    (fun _ => trivial) trivial trivial).safe hs₃
  generalize drainMessages env s₃.core.msgPort.length s₃ = s₄ at hport hwait₄ hs₄ ⊢
  obtain ⟨-, hsame⟩ := batchEnd_lists env hs₄
  obtain ⟨htab, hmax⟩ := batchEnd_ioTab s₄
  refine ⟨hsame.msgPort.trans hport, fun hne => ?_⟩
  unfold hasRoom
  rw [htab, hmax]
  rw [hsame.ioPending] at hne
  exact hwait₄ hne

end Leaves

/-! ### After the exit of the unit task -/

section Exited

variable {env : Env} {s : State}

theorem fwSlotInfo_exited (s : State) :
    (nvmeGetFwSlotInfo env s).ctl.unitExited = s.ctl.unitExited := by
  have halloc : (s.allocate env).2.ctl.unitExited = s.ctl.unitExited := rfl
  unfold nvmeGetFwSlotInfo
  generalize s.allocate env = p at halloc ⊢
  obtain ⟨_ | buffer, s₁⟩ := p
  · exact halloc
  · dsimp only at halloc ⊢
    refine Eq.trans ?_ ((@OnQueue.nvmeSubmitAsyncCmd env s₁
      { opcode := nvmeAdminGetLogPage, nsid := 0xFFFFFFFF, cdw10 := 127 * 2 ^ 16 + 3 }
      (some (buffer, 512)) .fwSlotInfoDone (some buffer) false).exited.trans halloc)
    split <;> rfl

theorem phase_exited (s : State) (target : CtrlState) :
    (nvmeChangeCtrlState s target).1.ctl.unitExited = s.ctl.unitExited := by
  unfold nvmeChangeCtrlState
  split <;> rfl

theorem fwActEnd_exited (s : State) (timeout : Bool) :
    (Engine.fwActEnd env s timeout).ctl.unitExited = s.ctl.unitExited := by
  unfold Engine.fwActEnd
  dsimp only
  split
  · rfl
  · have h₂ := phase_exited { s with core := { s.core with fwActRunning := false } } .connecting
    generalize nvmeChangeCtrlState _ CtrlState.connecting = p at h₂ ⊢
    obtain ⟨s₂, _ | _⟩ := p
    · exact h₂
    · dsimp only at h₂ ⊢
      have h₃ := phase_exited s₂ .live
      generalize nvmeChangeCtrlState s₂ .live = p at h₃ ⊢
      obtain ⟨s₃, _ | _⟩ := p
      · exact h₃.trans h₂
      · refine (OnQueue.nvmeSubmitAsyncCmd _ _ _ _ _ _).exited.trans ?_
        exact ((fwSlotInfo_exited (nvmeUnquiesceIoQueues s₃)).trans h₃).trans h₂

/-- The unit task does not come back. -/
theorem step_exited (ev : Event) (h : s.ctl.unitExited = true) :
    (step env s ev).ctl.unitExited = true := by
  have hno : ¬unitRuns s := fun hrun => Bool.false_ne_true (hrun.2.symm.trans h)
  cases ev with
  | irq admin io => rw [step, if_neg hno]; exact h
  | tick admin io => rw [step, if_neg hno]; exact h
  | reset => rw [step, if_neg fun hboth => hno hboth.1]; exact h
  | drain => rw [step, if_neg hno]; exact h
  | stop => rw [step, if_neg hno]; exact h
  | shutdown => rw [step, if_neg hno]; exact h
  | adminSync cmd => exact (OnQueue.nvmeSubmitSyncCmd s .otherTask cmd none).exited.trans h
  | collect =>
      simp only [step, collectWaiter]
      split <;> exact h
  | fwActBegin =>
      simp only [step]
      split <;> exact h
  | fwActEnd timeout =>
      simp only [step]
      split
      · exact (fwActEnd_exited s timeout).trans h
      · exact h
  | putMsg => exact h
  | freeze => exact h
  | unfreeze => exact h
  | scan dead deac maxZeroes => exact h

/-- Nothing is handed over any more. -/
theorem follow_exited (hs : List Happening) : ∀ {p : Pass}, p.place = .outside →
    p.state.ctl.unitExited = true → (p.follow env hs).handed = p.handed := by
  induction hs with
  | nil => exact fun _ _ => rfl
  | cons e hs ih =>
      intro p hout hexited
      change (Pass.follow env (p.next env e) hs).handed = p.handed
      cases e with
      | arrive => exact ih hout hexited
      | freeze => exact ih hout hexited
      | unfreeze => exact ih hout hexited
      | turn =>
          have hstay : p.next env .turn = p := by
            change p.turn env = p
            unfold Pass.turn
            rw [hout]
            dsimp only
            rw [if_neg fun h => Bool.false_ne_true (h.1.2.symm.trans hexited)]
          rw [hstay]
          exact ih hout hexited
      | between ev =>
          unfold Pass.next
          dsimp only
          split
          · exact ih hout (step_exited ev hexited)
          · exact ih hout hexited

end Exited

/-! ### First come, first served -/

section Order

variable {env : Env} {p : Pass}

/-- The hand of the unit task between two turns. -/
def Place.hand (w : Place) : Hand := ⟨none, none, none, 0, decide (w ≠ .outside), false⟩

/-- Handed over, stashed, on the port: that is the order of arrival, and only client requests
are stashed. -/
structure InOrder (env : Env) (p : Pass) : Prop where
  safe : Safe ⟨p.state.core, p.place.hand⟩
  order : p.handed ++ (p.state.core.ioPending ++ p.state.core.msgPort).filter (isClient env) =
    (List.range p.state.core.accepted).filter (isClient env)
  stashed : ∀ i, i ∈ p.state.core.ioPending → isClient env i = true

/-- What leaves the lists alone keeps the order. -/
theorem InOrder.same {s : State} {w : Place} (hp : InOrder env p)
    (hs : Safe ⟨s.core, w.hand⟩) (hsame : SameLists p.state.core s.core) :
    InOrder env { p with state := s, place := w } := by
  refine ⟨hs, ?_, ?_⟩
  · dsimp only
    rw [hsame.ioPending, hsame.msgPort, hsame.accepted]
    exact hp.order
  · intro i hi
    exact hp.stashed i (hsame.ioPending ▸ hi)

/-- Going on to the next loop keeps the order. -/
theorem InOrder.goOn {w : Place} (hp : InOrder env p) (hin : p.place ≠ .outside)
    (hw : w ≠ .outside) : InOrder env { p with place := w } := by
  refine hp.same ?_ (SameLists.refl _)
  have hhand : w.hand = p.place.hand := by
    simp [Place.hand, hin, hw]
  rw [hhand]
  exact hp.safe

theorem InOrder.arrive (hp : InOrder env p) :
    InOrder env { p with state := step env p.state .putMsg } := by
  refine ⟨keeps_safe env Policy.all _ _ hp.safe (.accept trivial), ?_, hp.stashed⟩
  have hord := hp.order
  simp only [step, List.range_succ, List.filter_append, ← List.append_assoc] at hord ⊢
  rw [hord]

/-- The first message on a list goes to `ProcessCommand`. -/
theorem InOrder.handed {s : State} {i : Nat} (hp : InOrder env p)
    (hin : p.place ≠ .outside) (hs : Safe ⟨s.core, ⟨some i, none, none, 0, true, false⟩⟩)
    (hroom : (env.ios i).command ≠ .cmdInternalAbortRequest → hasRoom s)
    (hacc : s.core.accepted = p.state.core.accepted)
    (hord : [i].filter (isClient env) ++
        (s.core.ioPending ++ s.core.msgPort).filter (isClient env) =
      (p.state.core.ioPending ++ p.state.core.msgPort).filter (isClient env))
    (hstash : ∀ j, j ∈ s.core.ioPending → j ∈ p.state.core.ioPending) :
    InOrder env (p.hand env s i) := by
  obtain ⟨hs', hsame⟩ := processCommand_lists hs hroom
  have hhand : p.place.hand = ⟨none, none, none, 0, true, false⟩ := by
    simp [Place.hand, hin]
  refine ⟨hhand ▸ hs', ?_, ?_⟩
  · unfold Pass.hand
    dsimp only
    rw [hsame.ioPending, hsame.msgPort, hsame.accepted, hacc, List.append_assoc, hord]
    exact hp.order
  · intro j hj
    exact hp.stashed j (hstash j (hsame.ioPending ▸ hj))

theorem InOrder.turn_stalled (hp : InOrder env p) (hw : p.place = .stalled) :
    InOrder env (p.turn env) := by
  have hin : p.place ≠ .outside := by
    rw [hw]
    exact fun h => nomatch h
  have hnext : InOrder env { p with place := .pending } := hp.goOn hin fun h => nomatch h
  unfold Pass.turn
  rw [hw]
  dsimp only
  split
  case isFalse => exact hnext
  case isTrue hroom =>
    cases hlist : p.state.core.ctxStalled with
    | nil => exact hnext
    | cons c rest =>
        have hs := hp.safe
        rw [hw] at hs
        obtain ⟨hs', hsame⟩ := @repump_lists env p.state 0 true c rest hs hlist hroom
        dsimp only
        generalize repump env
          { p.state with core := { p.state.core with ctxStalled := rest } } c = r at hs' hsame ⊢
        obtain ⟨s₁, again⟩ := r
        cases again with
        | true => exact hp.same hs' hsame
        | false => exact hp.same hs' hsame

theorem InOrder.turn_pending (hp : InOrder env p) (hw : p.place = .pending) :
    InOrder env (p.turn env) := by
  have hin : p.place ≠ .outside := by
    rw [hw]
    exact fun h => nomatch h
  have hnext : InOrder env { p with place := .messages } := hp.goOn hin fun h => nomatch h
  unfold Pass.turn
  rw [hw]
  dsimp only
  split
  case isFalse => exact hnext
  case isTrue hroom =>
    cases hlist : p.state.core.ioPending with
    | nil => exact hnext
    | cons i rest =>
        have hs := hp.safe
        rw [hw] at hs
        refine @InOrder.handed env p
          { p.state with core := { p.state.core with ioPending := rest } } i hp hin
          (takePending_safe hs hlist) (fun _ => hroom) rfl ?_ ?_
        · rw [hlist, ← List.filter_append]
          rfl
        · intro j hj
          rw [hlist]
          exact List.mem_cons_of_mem _ hj

theorem InOrder.turn_messages (hp : InOrder env p) (hw : p.place = .messages) :
    InOrder env (p.turn env) := by
  have hin : p.place ≠ .outside := by
    rw [hw]
    exact fun h => nomatch h
  have hs := hp.safe
  rw [hw] at hs
  unfold Pass.turn
  rw [hw]
  dsimp only
  cases hlist : p.state.core.msgPort with
  | nil =>
      obtain ⟨hs', hsame⟩ := batchEnd_lists env hs
      exact hp.same hs' hsame
  | cons i rest =>
      have htake := takeMsg_safe hs hlist
      dsimp only
      split
      · -- a client request joins the stash behind what is there
        rename_i hwait
        have hclient : isClient env i = true := decide_eq_true hwait.1
        refine ⟨stash_safe htake, ?_, ?_⟩
        · dsimp only
          rw [List.append_assoc, ← hp.order, hlist]
          rfl
        · intro j hj
          rcases List.mem_append.mp hj with hj | hj
          · exact hp.stashed j hj
          · rw [List.mem_singleton.mp hj]
            exact hclient
      · rename_i hnow
        refine @InOrder.handed env p { p.state with core := { p.state.core with msgPort := rest } }
          i hp hin htake (room_of_now hnow) rfl ?_ (fun j hj => hj)
        -- a client request that is not stashed finds the stash empty
        rw [hlist]
        dsimp only
        by_cases hclient : isClient env i = true
        · have hnil : p.state.core.ioPending = [] := by
            by_contra hne
            exact hnow ⟨of_decide_eq_true hclient, .inr hne⟩
          rw [hnil, List.nil_append, List.nil_append, ← List.filter_append]
          rfl
        · rw [List.filter_append, List.filter_append, List.filter_cons_of_neg hclient,
            List.filter_cons_of_neg hclient, List.filter_nil, List.nil_append]

theorem InOrder.turn (hp : InOrder env p) : InOrder env (p.turn env) := by
  cases hw : p.place with
  | outside =>
      unfold Pass.turn
      rw [hw]
      dsimp only
      split
      · have hs := hp.safe
        rw [hw] at hs
        obtain ⟨hs', hsame⟩ := batchBegin_lists env hs
        exact hp.same hs' hsame
      · exact hp
  | stalled => exact hp.turn_stalled hw
  | pending => exact hp.turn_pending hw
  | messages => exact hp.turn_messages hw

/-- A step of the driver between two passes. -/
theorem InOrder.between {ev : Event} (hp : InOrder env p) (hw : p.place = .outside)
    (hev : ¬handlesClients ev) : InOrder env { p with state := step env p.state ev } := by
  have hmeets : Meets env elsewhere p.state ev :=
    meets_carefulWith env (.inl trivial) (fun _ => trivial) hev
  have hs := hp.safe
  rw [hw] at hs
  have hgo := step_spec ev hmeets
  have hkept : InOrder env { p with state := step env p.state ev, place := .outside } :=
    hp.same (hgo.safe hs) (path_sameLists (P := elsewhere) id (hgo hs))
  rw [← hw] at hkept
  exact hkept

theorem InOrder.next (hp : InOrder env p) (e : Happening) : InOrder env (p.next env e) := by
  cases e with
  | arrive => exact hp.arrive
  | freeze =>
      exact hp.same (keeps_safe env Policy.all _ _ hp.safe (.phase trivial (.freeze true)))
        ⟨rfl, rfl, rfl⟩
  | unfreeze =>
      exact hp.same (keeps_safe env Policy.all _ _ hp.safe (.phase trivial (.freeze false)))
        ⟨rfl, rfl, rfl⟩
  | turn => exact hp.turn
  | between ev =>
      unfold Pass.next
      dsimp only
      split
      case isTrue h => exact hp.between h.1 h.2
      case isFalse => exact hp

theorem boot_inOrder (env : Env) (maxZeroes : Nat) :
    InOrder env ⟨bootState env maxZeroes, .outside, []⟩ := by
  have hs := up_safe env maxZeroes
  have hgo := boot_spec env elsewhere maxZeroes
  have hsame : SameLists (upState env maxZeroes).core (bootState env maxZeroes).core :=
    path_sameLists id (hgo hs)
  refine ⟨hgo.safe hs, ?_, ?_⟩
  · dsimp only
    rw [hsame.ioPending, hsame.msgPort, hsame.accepted]
    rfl
  · intro i hi
    rw [hsame.ioPending] at hi
    cases hi

theorem runPasses_inOrder (env : Env) (maxZeroes : Nat) (hs : List Happening) :
    InOrder env (runPasses env maxZeroes hs) := by
  unfold runPasses
  generalize hp : (⟨bootState env maxZeroes, .outside, []⟩ : Pass) = p
  have hp : InOrder env p := hp ▸ boot_inOrder env maxZeroes
  clear * - hp
  induction hs generalizing p with
  | nil => exact hp
  | cons e hs ih => exact ih _ (hp.next e)

theorem foldl_turns (k : Nat) : ∀ p : Pass,
    (List.replicate k Happening.turn).foldl (Pass.next env) p = (Pass.turn env)^[k] p := by
  induction k with
  | zero => exact fun _ => rfl
  | succ k ih => exact fun p => ih (p.turn env)

/-- What is promised after a run. -/
structure ServedInOrder (env : Env) (maxZeroes : Nat) (hs : List Happening) (p : Pass) :
    Prop where
  /-- handed over, stashed, on the port: the client requests as they arrived -/
  order : p.handed ++ (p.state.core.ioPending ++ p.state.core.msgPort.filter (isClient env)) =
    (List.range p.state.core.accepted).filter (isClient env)
  once : p.handed.Nodup
  /-- some turns from here are one pass of `nvme_drain_msgport` -/
  pass : p.place = .outside → ∃ k h,
    runPasses env maxZeroes (hs ++ List.replicate k .turn) = ⟨step env p.state .drain, .outside, h⟩
  /-- the pass leaves no message, and a stash only where the queue is full -/
  leaves : p.place = .outside → unitRuns p.state → ¬(p.state.core.stopped ∨ p.state.core.frozen) →
    (step env p.state .drain).core.msgPort = [] ∧ Waiting (step env p.state .drain)
  /-- once the unit task has left its loop, nothing is handed over -/
  stop : p.place = .outside → unitRuns p.state → ∀ later,
    (Pass.follow env { p with state := step env p.state .stop } later).handed = p.handed

/-- Whatever happens, the client requests given to `ProcessCommand`, then `io_pending`, then
the client requests on `msgPort` are the client requests in the order of their arrival, each
of them once; every pass of the unit task is made of such turns, and hands over all that the
queue has room for. -/
theorem clients_first_come_first_served (env : Env) (maxZeroes : Nat) (hs : List Happening) :
    ServedInOrder env maxZeroes hs (runPasses env maxZeroes hs) := by
  have hp := runPasses_inOrder env maxZeroes hs
  have hsplit : ∀ k, runPasses env maxZeroes (hs ++ List.replicate k .turn) =
      (Pass.turn env)^[k] (runPasses env maxZeroes hs) := by
    intro k
    unfold runPasses
    rw [List.foldl_append]
    exact foldl_turns k _
  generalize runPasses env maxZeroes hs = p at hp hsplit ⊢
  have hord : p.handed ++
      (p.state.core.ioPending ++ p.state.core.msgPort.filter (isClient env)) =
        (List.range p.state.core.accepted).filter (isClient env) := by
    rw [← hp.order, List.filter_append, List.filter_eq_self.mpr hp.stashed]
  have hsafe : p.place = .outside → Safe ⟨p.state.core, ⟨none, none, none, 0, false, false⟩⟩ := by
    intro hout
    have hs := hp.safe
    rw [hout] at hs
    exact hs
  refine ⟨hord, ?_, fun hout => ?_, fun hout hrun hopen => ?_, fun hout hrun later => ?_⟩
  · have hrange : (List.range p.state.core.accepted).Nodup := List.nodup_range
    have hnodup := hrange.filter (isClient env)
    rw [← hord] at hnodup
    exact hnodup.of_append_left
  · obtain ⟨h, k, hk⟩ := @turns_drain env p.state p.handed (hsafe hout)
    refine ⟨k, h, (hsplit k).trans ?_⟩
    rw [← hk, ← hout]
  · rw [step, if_pos hrun]
    exact drain_leaves (hsafe hout) hopen
  · refine follow_exited later hout ?_
    rw [step, if_pos hrun]
    rfl

end Order

end Runs
end NvmeDriver
