import NvmeDriver.Refine.Request

/-!
# The chunk scheduler refines the machine

`nvme_io_context_pump` with a context in hand.  Every turn of its loop is one
launch of the machine, or leaves the context parked, failed or with siblings in
flight; so when the pump returns, its caller either may forget the context or
must finish it.
-/

namespace NvmeDriver
namespace Refine

open Engine
open Lib
open Ownership

variable {env : Env} {P : Policy}

/-! ### Calm paths -/

section Calm

variable {c c' : Core} {h h' : Hand}

theorem Goes.mono {Q : Policy} (hle : P.Le Q) (hg : Goes env P c h c' h') :
    Goes env Q c h c' h' :=
  fun hs => Relation.ReflTransGen.mono (fun _ _ hm => hm.mono hle) _ _ (hg hs)

theorem Goes.of_calm (hg : Goes env P.calm c h c' h') : Goes env P c h c' h' :=
  hg.mono P.calm_le

/-- Phase, gates and cap are the same. -/
structure Still (c c' : Core) : Prop where
  state : c'.state = c.state
  signal : c'.fwActSignal = c.fwActSignal
  running : c'.fwActRunning = c.fwActRunning
  blocked : c'.unitBlocked = c.unitBlocked
  stopped : c'.stopped = c.stopped
  frozen : c'.frozen = c.frozen
  cap : c'.ioMaxInflight = c.ioMaxInflight
  begins : c'.trace.countP isResetBegin = c.trace.countP isResetBegin
  finishes : c'.trace.countP isResetFinish = c.trace.countP isResetFinish

theorem Still.refl (c : Core) : Still c c := ⟨rfl, rfl, rfl, rfl, rfl, rfl, rfl, rfl, rfl⟩

theorem Still.trans {c'' : Core} (h₁ : Still c c') (h₂ : Still c' c'') : Still c c'' :=
  ⟨h₂.state.trans h₁.state, h₂.signal.trans h₁.signal, h₂.running.trans h₁.running,
    h₂.blocked.trans h₁.blocked, h₂.stopped.trans h₁.stopped, h₂.frozen.trans h₁.frozen,
    h₂.cap.trans h₁.cap, h₂.begins.trans h₁.begins, h₂.finishes.trans h₁.finishes⟩

theorem Still.of_calmly {g g' : Cfg} (hc : Calmly g g') : Still g.core g'.core :=
  ⟨hc.state, hc.signal, hc.running, hc.blocked, hc.stopped, hc.frozen, hc.cap, hc.resets.1,
    hc.resets.2⟩

/-- A path that changes no phase leaves phase, gates and cap alone. -/
theorem path_still {g g' : Cfg} (hstir : ¬P.stir)
    (hpath : Relation.ReflTransGen (Move env P) g g') : Still g.core g'.core := by
  induction hpath with
  | refl => exact Still.refl _
  | tail _ hm ih =>
      rcases hm.phase_cases with ⟨h, -⟩ | hc
      · exact absurd h hstir
      · exact ih.trans (.of_calmly hc)

theorem Goes.still (hg : Goes env P.calm c h c' h') (hs : Safe ⟨c, h⟩) : Still c c' :=
  path_still (fun h => h) (hg hs)

end Calm

/-! ### One chunk -/

section Chunk

variable {c : Core} {cid x : Nat} {rest : List Nat} {s : State} {r : Request}
  {es : List Effect}

theorem Holding.editCtx {q : QueueId} (hh : Holding c q cid rest s r es)
    (f : IoContext → IoContext) :
    Holding { c with ctxs := c.ctxs.modify x f } q cid rest (s.editCtx x f) r es := by
  have htab : ∀ l : Heap IoContext, ({ c with ctxs := l }).tab q = c.tab q := by
    intro l
    cases q <;> rfl
  refine ⟨?_, ?_, ?_, hh.cid⟩
  · unfold State.editCtx
    dsimp only
    rw [hh.core]
    cases q <;> rfl
  · rw [htab]
    exact hh.tab
  · rw [htab]
    exact hh.free

/-- The setup of the next chunk: the request carries it, or the setup has failed. -/
theorem setupChunk_spec (env : Env) (ctx : IoContext) (hh : Holding c .io cid rest s r [])
    (hunit : r.unit = some ctx.unit) :
    ∃ r' es', Filled c cid rest s.core.allocs r
        (setupChunk env s (cidTag cid) ctx (nextBytes env ctx)).1 r' es' ∧
      ((setupChunk env s (cidTag cid) ctx (nextBytes env ctx)).2 = 0 ∧
          (∀ e, e ∈ es' → quiet e = true) ∧ ChunkOf env ctx r' ∨
        (setupChunk env s (cidTag cid) ctx (nextBytes env ctx)).2 = ioerrSelfTest ∧
          (∀ e, e ∈ es' → quietFor r.id e = true) ∧ ChunkFails env ctx) := by
  have hnsid : unitNsid env r = (env.units ctx.unit).nsid := by
    unfold unitNsid
    rw [hunit]
  have hshift : unitShift env r = (env.units ctx.unit).blockShift := by
    unfold unitShift
    rw [hunit]
  unfold setupChunk
  dsimp only
  by_cases hop : ctx.opcode = nvmeCmdWriteZeroes
  · rw [if_pos hop]
    refine ⟨_, [], ⟨hh.editSlot _ hh.cid, rfl, rfl, (editSlot_allocs ..).ge⟩,
      .inl ⟨rfl, by simp, ?_⟩⟩
    exact ⟨rfl, hop.symm, hnsid, rfl, rfl, fun hne => absurd hop hne⟩
  · rw [if_neg hop]
    have hspec := @nvmeSetupRw_spec env c cid rest s r [] hh (by simp) (nextLba env ctx)
      (nextBytes env ctx / 2 ^ (env.units ctx.unit).blockShift) ctx.opcode
      ((ctx.userData + ctx.dispatched) % 2 ^ 32)
    rw [hshift] at hspec
    obtain ⟨r', es', hfill, hres⟩ := hspec
    refine ⟨r', es', hfill, ?_⟩
    rcases hres with ⟨hret, hes', ⟨hid, hopc, hns, hlba, hlen⟩, hbuf, hulen⟩ | ⟨hret, hes', hfail⟩
    · exact .inl ⟨hret, hes', hid, hopc, hns.trans hnsid, hlba, hlen, fun _ => ⟨hbuf, hulen⟩⟩
    · exact .inr ⟨hret, hes', hop, hfail⟩

end Chunk

/-! ### One turn of the pump -/

section Turn

variable {c₀ : Core} {x : Nat} {s : State} {ctx : IoContext} {i : Option Nat} {a : Nat}
  {b o : Bool}

/-- What one turn of the pump leaves behind. -/
def TurnPost (env : Env) (x : Nat) (ctx : IoContext) (c' : Core) : Option Int → Prop
  | none =>
      ∃ ctx', c'.ctxs.get x = some ctx' ∧ ctx'.io = ctx.io ∧ ctx'.stalled = false ∧
        ctx'.inflight = ctx.inflight + 1 ∧ ctx'.firstError = ctx.firstError
  | some err =>
      ∃ ctx', c'.ctxs.get x = some ctx' ∧ ctx'.io = ctx.io ∧
        (ctx'.firstError = ctx.firstError ∨ ∃ y, ChunkFails env y) ∧
        (err = nvmeIoAsync ∧ (ctx'.stalled = true ∨ 0 < ctx'.inflight) ∨
          err = ioerrSelfTest ∧ ctx'.inflight = 0 ∧ ctx'.stalled = false ∧
            ctx'.firstError ≠ 0 ∧ ctx.inflight = 0 ∧ ChunkFails env ctx ∧
            ctx'.dispatched = ctx.dispatched)

/-- Under pressure an idle context is parked. -/
theorem pressure_spec (hgo : Goes env P c₀ ⟨i, none, some x, a, b, o⟩ s.core
      ⟨i, none, some x, a, b, o⟩)
    (hget : s.core.ctxs.get x = some ctx) (hstall : ctx.stalled = false)
    (hmore : ctx.dispatched < ctx.totalBytes) (hfresh : ctx.firstError = 0 ∨ P.spoil) :
    Goes env P c₀ ⟨i, none, some x, a, b, o⟩
        (if ctx.inflight = 0 then stallCtx s x else s).core ⟨i, none, some x, a, b, o⟩ ∧
      TurnPost env x ctx (if ctx.inflight = 0 then stallCtx s x else s).core
        (some nvmeIoAsync) := by
  split
  · rename_i hidle
    refine ⟨hgo.trans (.move fun _ => .stall rfl hget hidle hstall hmore hfresh), ?_⟩
    exact ⟨{ ctx with stalled := true }, get_modify_self hget, rfl, .inl rfl,
      .inl ⟨rfl, .inl rfl⟩⟩
  · rename_i hbusy
    exact ⟨hgo, ctx, hget, rfl, .inl rfl, .inl ⟨rfl, .inr (Nat.pos_of_ne_zero hbusy)⟩⟩

theorem returned_ctxs (c : Core) (q : QueueId) (cid : Nat) (rest : List Nat) (n : Nat)
    (es : List Effect) : (returned c q cid rest n es).ctxs = c.ctxs := by
  simp [returned, stamp]

/-- A request that was allocated and is destroyed leaves nothing behind. -/
theorem Goes.fizzled {c : Core} {h : Hand} {q : QueueId} {cid n : Nat} {rest : List Nat}
    {notes : List Effect} (hfree : (c.tab q).freeStack = cid :: rest) (hn : c.allocs < n)
    (hnotes : ∀ e, e ∈ notes → quietFor c.allocs e = true) :
    Goes env P c h (returned c q cid rest n (.reqFree c.allocs :: notes)) h :=
  .move fun _ => .fizzle q hfree hn hnotes

theorem quietFor_append {n : Nat} {es es' : List Effect}
    (h : ∀ e, e ∈ es → quietFor n e = true) (h' : ∀ e, e ∈ es' → quietFor n e = true) :
    ∀ e, e ∈ es ++ es' → quietFor n e = true := by
  intro e he
  rcases List.mem_append.mp he with he | he
  · exact h e he
  · exact h' e he

/-- The setup of a chunk has failed: its request is destroyed, the error latched. -/
theorem setupFailed_spec {s₃ : State} {cid : Nat} {rest : List Nat} {r' : Request}
    {es : List Effect}
    (hh : Holding s.core .io cid rest s₃ r' es) (hid : r'.id = s.core.allocs)
    (hn : s.core.allocs < s₃.core.allocs)
    (hes : ∀ e, e ∈ es → quietFor s.core.allocs e = true)
    (hget : s.core.ctxs.get x = some ctx) (hstall : ctx.stalled = false)
    (hmore : ctx.dispatched < ctx.totalBytes) (hfresh : ctx.firstError = 0 ∨ P.spoil)
    (hfail : ChunkFails env ctx) :
    Goes env P s.core ⟨i, none, some x, a, b, o⟩
        ((nvmeReqDestroy s₃ .io (cidTag cid)).editCtx x
          (fun y => { y with firstError := ioerrSelfTest })).core
        ⟨i, none, some x, a, b, o⟩ ∧
      TurnPost env x ctx
        ((nvmeReqDestroy s₃ .io (cidTag cid)).editCtx x
          (fun y => { y with firstError := ioerrSelfTest })).core
        (some (if ctx.inflight = 0 then ioerrSelfTest else nvmeIoAsync)) := by
  have hcore := hh.destroy
  have hnotes : ∀ e, e ∈ dmaFrees r' ++ es → quietFor s.core.allocs e = true :=
    quietFor_append (hid ▸ dmaFrees_quietFor r') hes
  have hget' : (nvmeReqDestroy s₃ .io (cidTag cid)).core.ctxs.get x = some ctx := by
    rw [hcore, returned_ctxs]
    exact hget
  have hne : ioerrSelfTest ≠ 0 := by decide
  refine ⟨?_, ?_⟩
  · rw [hid] at hcore
    refine Goes.trans (Goes.fizzled hh.free hn hnotes) ?_
    rw [← hcore]
    exact .move fun _ => .ctxError ioerrSelfTest rfl hget' hstall hne (.inl hfail)
      ⟨hmore, hfresh, .inl ⟨rfl, hfail⟩⟩
  · refine ⟨{ ctx with firstError := ioerrSelfTest }, get_modify_self hget', rfl,
      .inr ⟨ctx, hfail⟩, ?_⟩
    split
    · rename_i hidle
      exact .inr ⟨rfl, hidle, hstall, hne, hidle, hfail, rfl⟩
    · rename_i hbusy
      exact .inl ⟨rfl, .inr (Nat.pos_of_ne_zero hbusy)⟩

theorem editCtx_core (s : State) (x : Nat) (f : IoContext → IoContext) :
    (s.editCtx x f).core = { s.core with ctxs := s.core.ctxs.modify x f } := rfl

/-- The accounting of one more sibling. -/
def addSibling (bytes : Nat) (y : IoContext) : IoContext :=
  { y with dispatched := y.dispatched + bytes, inflight := y.inflight + 1 }

/-- A chunk is submitted, or the ring is full and it is taken back. -/
theorem submitChunk_spec {s₃ : State} {cid : Nat} {rest : List Nat} {r' : Request}
    {es : List Effect}
    (hh : Holding s.core .io cid rest s₃ r' es)
    (hkey : keyOf r' = ⟨s.core.allocs, .io, none, some x, none, none⟩)
    (hret : r'.retries = 0) (hn : s.core.allocs < s₃.core.allocs)
    (hes : ∀ e, e ∈ es → quiet e = true) (hof : ChunkOf env ctx r')
    (hget : s.core.ctxs.get x = some ctx) (hstall : ctx.stalled = false)
    (hmore : ctx.dispatched < ctx.totalBytes)
    (hcap : ctx.inflight < s.core.ioMaxInflight)
    (hgate : P.launch s.core.state s.core.frozen) (hfresh : ctx.firstError = 0 ∨ P.spoil) :
    let p := nvmeSubmitIo env (s₃.editCtx x (addSibling (nextBytes env ctx))) .io (cidTag cid)
    let q : State × Option Int :=
      if p.2 ≠ nvmeIoAsync then
        let s₆ := p.1.editCtx x (fun y =>
          { y with
            dispatched := y.dispatched - nextBytes env ctx
            inflight := y.inflight - 1 })
        ((pumpRefused s₆ x ctx.inflight p.2).1, some (pumpRefused s₆ x ctx.inflight p.2).2)
      else (p.1, none)
    Goes env P s.core ⟨i, none, some x, a, b, o⟩ q.1.core ⟨i, none, some x, a, b, o⟩ ∧
      TurnPost env x ctx q.1.core q.2 := by
  have hid : r'.id = s.core.allocs := congrArg Key.id hkey
  have hctx : r'.ctx = some x := congrArg Key.ctx hkey
  have hh' := hh.editCtx (x := x) (addSibling (nextBytes env ctx))
  dsimp only
  rw [hh'.nvmeSubmitIo]
  by_cases hfull : Engine.sqFull (s₃.editCtx x (addSibling (nextBytes env ctx))) .io
  · rw [if_pos hfull]
    have hcore := (hh'.log (.sqFull .io)).destroy
    rw [hid] at hcore
    have hback : ((nvmeReqDestroy ((s₃.editCtx x (addSibling (nextBytes env ctx))).log
        (.sqFull .io)) .io (cidTag cid)).editCtx x (fun y =>
          { y with
            dispatched := y.dispatched - nextBytes env ctx
            inflight := y.inflight - 1 })).core =
        returned s.core .io cid rest s₃.core.allocs
          (.reqFree s.core.allocs :: (dmaFrees r' ++ .sqFull .io :: es)) := by
      generalize nvmeReqDestroy ((s₃.editCtx x (addSibling (nextBytes env ctx))).log
        (.sqFull .io)) .io (cidTag cid) = t at hcore ⊢
      rw [editCtx_core, hcore, returned_ctxs]
      dsimp only
      rw [Heap.modify_undo]
      · rfl
      · intro y _
        simp [addSibling]
    have hgo : Goes env P s.core ⟨i, none, some x, a, b, o⟩ _ ⟨i, none, some x, a, b, o⟩ :=
      Goes.refused hh.free hn hes (hid ▸ dmaFrees_quietFor r') (hh'.sqFull.mp hfull)
    rw [← hback] at hgo
    have hget' : ((nvmeReqDestroy ((s₃.editCtx x (addSibling (nextBytes env ctx))).log
        (.sqFull .io)) .io (cidTag cid)).editCtx x (fun y =>
          { y with
            dispatched := y.dispatched - nextBytes env ctx
            inflight := y.inflight - 1 })).core.ctxs.get x = some ctx := by
      rw [hback, returned_ctxs]
      exact hget
    exact pressure_spec hgo hget' hstall hmore hfresh
  · rw [if_neg hfull]
    dsimp only
    rw [if_neg (not_not.mpr rfl)]
    have hring : ¬RingFull (s.core.tab .io).depth (s.core.ring .io) := fun h =>
      hfull (hh'.sqFull.mpr h)
    have hget' : (s.core.ctxs.modify x (addSibling (nextBytes env ctx))).get x =
        some (addSibling (nextBytes env ctx) ctx) := get_modify_self hget
    have howner : Core.ownerOf
        { s.core with ctxs := s.core.ctxs.modify x (addSibling (nextBytes env ctx)) } r' =
        some ctx.io := by
      unfold Core.ownerOf
      rw [hctx]
      dsimp only
      rw [hget']
      rfl
    refine ⟨hh'.submitted (fun _ => hgate) ?_, ?_⟩
    · intro us
      refine .move fun _ => ?_
      unfold launched
      rw [howner]
      exact .launchSib rfl rfl hget hh.free hn hes hkey hh.cid hret hstall hmore hcap hof hring
        hgate hfresh
    · refine ⟨addSibling (nextBytes env ctx) ctx, ?_, rfl, hstall, rfl, rfl⟩
      obtain ⟨us, hcore | ⟨tail, hcore⟩⟩ := hh'.writeSqe env
      · dsimp only
        rw [hcore]
        simpa [launched, sent, stamp] using hget'
      · dsimp only
        rw [hcore]
        simpa [launched, sent, stamp, Core.log] using hget'

theorem pumpTurn_spec (hs : Safe ⟨s.core, ⟨i, none, some x, a, b, o⟩⟩)
    (hget : s.core.ctxs.get x = some ctx) (hstall : ctx.stalled = false)
    (hmore : ctx.dispatched < ctx.totalBytes)
    (hcap : ctx.inflight < s.core.ioMaxInflight)
    (hgate : P.launch s.core.state s.core.frozen) (hfresh : ctx.firstError = 0 ∨ P.spoil) :
    Goes env P s.core ⟨i, none, some x, a, b, o⟩ (pumpTurn env s x ctx).1.core
        ⟨i, none, some x, a, b, o⟩ ∧
      TurnPost env x ctx (pumpTurn env s x ctx).1.core (pumpTurn env s x ctx).2 := by
  unfold pumpTurn nvmeReqAllocIo
  dsimp only
  rcases @allocRequest_cases env s .io
      (fun r => { r with io := none, unit := some ctx.unit }) ioerrSelfTest ioerrUnitBusy
      (hs.tabs .io) (fun _ => rfl) with
    ⟨s₁, heq, hcore, -⟩ | ⟨s₁, heq, hcore, -⟩ | ⟨s₁, cid, rest, heq, hh, hal⟩
  · rw [heq]
    refine pressure_spec ?_ (by rw [hcore]; exact hget) hstall hmore hfresh
    rw [hcore]
    exact .move fun _ => .burn 1
  · rw [heq]
    refine pressure_spec ?_ (by rw [hcore]; exact hget) hstall hmore hfresh
    rw [hcore]
    exact .move fun _ => .fizzleBare
  · rw [heq]
    dsimp only
    have h₂ := hh.editSlot (fun r => { r with ctx := some x }) hh.cid
    obtain ⟨r', es, hfill, hres⟩ := setupChunk_spec env ctx h₂ rfl
    have hlt : s.core.allocs < (setupChunk env
        (s₁.editSlot .io (cidTag cid) (fun r => { r with ctx := some x })) (cidTag cid) ctx
        (nextBytes env ctx)).1.core.allocs := by
      have := hfill.allocs
      rw [editSlot_allocs, hal] at this
      omega
    generalize setupChunk env
      (s₁.editSlot .io (cidTag cid) (fun r => { r with ctx := some x })) (cidTag cid) ctx
      (nextBytes env ctx) = p at hfill hres hlt ⊢
    obtain ⟨s₃, serr⟩ := p
    dsimp only at hfill hres hlt ⊢
    rcases hres with ⟨rfl, hes, hof⟩ | ⟨rfl, hes, hfail⟩
    · rw [if_neg (by decide)]
      exact submitChunk_spec hfill.holding hfill.key hfill.retries hlt hes hof hget hstall
        hmore hcap hgate hfresh
    · rw [if_pos (by decide)]
      exact setupFailed_spec hfill.holding (congrArg Key.id hfill.key) hlt hes hget hstall
        hmore hfresh hfail

end Turn

/-! ### The pump -/

section Pump

variable {x : Nat} {s : State} {ctx : IoContext} {i : Option Nat} {a : Nat} {b o : Bool}

theorem sibCap_le (s : State) : sibCap s ≤ s.core.ioMaxInflight := by
  unfold sibCap
  split
  · exact Nat.le_refl _
  · rename_i h
    exact Nat.le_of_not_lt h

theorem sibCap_pos (hpos : 0 < s.core.ioMaxInflight) : 0 < sibCap s := by
  unfold sibCap
  split
  · exact hpos
  · decide

/-- The loop of the pump, from a context that has siblings or gets one. -/
theorem pumpLoop_spec (fuel : Nat) :
    ∀ {s : State} {ctx : IoContext}, Safe ⟨s.core, ⟨i, none, some x, a, b, o⟩⟩ →
      s.core.ctxs.get x = some ctx → ctx.stalled = false →
      P.launch s.core.state s.core.frozen → (ctx.firstError = 0 ∨ P.spoil) →
      0 < ctx.inflight ∨ 0 < fuel ∧ ctx.dispatched < ctx.totalBytes →
      Goes env P.calm s.core ⟨i, none, some x, a, b, o⟩ (pumpLoop env fuel s x).1.core
          ⟨i, none, some x, a, b, o⟩ ∧
        TurnPost env x ctx (pumpLoop env fuel s x).1.core (some (pumpLoop env fuel s x).2) := by
  induction fuel with
  | zero =>
      intro s ctx _ hget _ _ _ hpos
      have hbusy : 0 < ctx.inflight := hpos.resolve_right (fun h => Nat.lt_irrefl 0 h.1)
      exact ⟨Goes.refl _ _, ctx, hget, rfl, .inl rfl, .inl ⟨rfl, .inr hbusy⟩⟩
  | succ fuel ih =>
      intro s ctx hs hget hstall hgate hfresh hpos
      unfold pumpLoop
      rw [hget]
      dsimp only
      by_cases hcond : ctx.dispatched < ctx.totalBytes ∧ ctx.inflight < sibCap s
      · rw [if_pos hcond]
        have hcap := hcond.2.trans_le (sibCap_le s)
        have hturn := @pumpTurn_spec env P.calm x s ctx i a b o hs hget hstall hcond.1 hcap hgate
          hfresh
        generalize pumpTurn env s x ctx = p at hturn ⊢
        obtain ⟨s₁, res⟩ := p
        dsimp only at hturn
        obtain ⟨hgo, hpost⟩ := hturn
        cases res with
        | some err => exact ⟨hgo, hpost⟩
        | none =>
            obtain ⟨ctx', hget', hio, hstall', hinf, herr⟩ := hpost
            have hstill := hgo.still hs
            have hgate' : P.launch s₁.core.state s₁.core.frozen := by
              rw [hstill.state, hstill.frozen]
              exact hgate
            have hrest := ih (hgo.safe hs) hget' hstall' hgate' (by rw [herr]; exact hfresh)
              (.inl (by omega))
            refine ⟨hgo.trans hrest.1, ?_⟩
            obtain ⟨ctx'', hget'', hio'', herr'', hres⟩ := hrest.2
            refine ⟨ctx'', hget'', hio''.trans hio, herr''.imp_left (·.trans herr), ?_⟩
            rcases hres with h | ⟨-, -, -, -, hzero, -, -⟩
            · exact .inl h
            · omega
      · rw [if_neg hcond]
        refine ⟨Goes.refl _ _, ctx, hget, rfl, .inl rfl, .inl ⟨rfl, .inr ?_⟩⟩
        have hroom := sibCap_pos hs.room
        rcases hpos with h | ⟨-, hmore⟩
        · exact h
        · by_contra hzero
          exact hcond ⟨hmore, by omega⟩

/-- `nvme_io_context_pump` of a context that has more to dispatch. -/
theorem nvmeIoContextPump_spec (hs : Safe ⟨s.core, ⟨i, none, some x, a, b, o⟩⟩)
    (hget : s.core.ctxs.get x = some ctx) (hstall : ctx.stalled = false)
    (hmore : ctx.dispatched < ctx.totalBytes)
    (hgate : P.launch s.core.state s.core.frozen) (hfresh : ctx.firstError = 0 ∨ P.spoil) :
    Goes env P.calm s.core ⟨i, none, some x, a, b, o⟩ (nvmeIoContextPump env s x).1.core
        ⟨i, none, some x, a, b, o⟩ ∧
      TurnPost env x ctx (nvmeIoContextPump env s x).1.core
        (some (nvmeIoContextPump env s x).2) :=
  pumpLoop_spec _ hs hget hstall hgate hfresh (.inr ⟨Nat.succ_pos _, hmore⟩)

/-- The context can be let go of or has come to its end. -/
def Decided (ctx : IoContext) : Prop :=
  ctx.stalled = true ∨ 0 < ctx.inflight ∨ ctx.firstError ≠ 0 ∨
    ctx.totalBytes ≤ ctx.dispatched

theorem ctxSiblings_le (s : State) (x : Nat) (h : Hand) :
    ctxSiblings s x ≤ sibCount x ⟨s.core, h⟩ := by
  unfold ctxSiblings sibCount reqCount coreReqs
  have hfun : (fun r : Request => r.ctx == some x) = (fun k : Key => k.ctx == some x) ∘ keyOf :=
    rfl
  rw [hfun]
  dsimp only
  omega

/-- `nvme_io_context_finish` of an idle context in hand. -/
theorem nvmeIoContextFinish_spec (hget : s.core.ctxs.get x = some ctx)
    (hidle : ctx.inflight = 0) (hstall : ctx.stalled = false)
    (hdone : ctx.firstError ≠ 0 ∨ ctx.totalBytes ≤ ctx.dispatched) :
    Goes env P s.core ⟨i, none, some x, a, b, o⟩ (nvmeIoContextFinish s x).core
      ⟨i, none, none, a, b, o⟩ := by
  have hfin : ∀ notes : List Effect, (∀ e, e ∈ notes → quiet e = true) →
      Goes env P s.core ⟨i, none, some x, a, b, o⟩
        (stamp { s.core with ctxs := s.core.ctxs.erase x } s.core.allocs
          (.ctxFree x ::
            .reply ctx.io ctx.firstError
              (if ctx.firstError ≠ 0 then 0 else ctx.totalBytes) ::
            (notes ++ [.ctxFinish x (decide (x ∈ s.core.ctxStalled)) (ctxSiblings s x)])))
        ⟨i, none, none, a, b, o⟩ := fun notes hnotes =>
    .move fun _ => .finish rfl hget hidle hstall hdone (ctxSiblings_le s x _) hnotes
  simp only [stamp, List.cons_append, List.append_assoc, List.nil_append] at hfin
  unfold nvmeIoContextFinish
  rw [hget]
  dsimp only
  split
  · have hnote := hfin [.cacheInval ctx.userData ctx.totalBytes] (by simp [quiet])
    simp only [List.cons_append, List.nil_append] at hnote
    simp only [State.log, Core.log]
    exact hnote
  · have hnote := hfin [] (by simp)
    simp only [List.nil_append] at hnote
    simp only [State.log, Core.log]
    exact hnote

theorem finishIfIdle_spec (hget : s.core.ctxs.get x = some ctx) (hdec : Decided ctx) :
    Goes env P s.core ⟨i, none, some x, a, b, o⟩ (finishIfIdle s x).core
      ⟨i, none, none, a, b, o⟩ := by
  unfold finishIfIdle
  rw [hget]
  dsimp only
  split
  · rename_i hidle
    have hdone : ctx.firstError ≠ 0 ∨ ctx.totalBytes ≤ ctx.dispatched := by
      rcases hdec with h | h | h
      · exact Bool.noConfusion (h.symm.trans hidle.2)
      · omega
      · exact h
    exact nvmeIoContextFinish_spec hget hidle.1 hidle.2 hdone
  · rename_i hbusy
    refine .move fun _ => .dropCtx rfl hget ?_
    by_contra hno
    rw [not_or] at hno
    exact hbusy ⟨by omega, Bool.not_eq_true _ ▸ hno.1⟩

/-- The completion of a sibling lets its context go on. -/
def Refill (c : Core) (r : Request) : Prop :=
  nvmeErrorStatus r.status = 0 ∧
    ∃ x ctx, r.ctx = some x ∧ c.ctxs.get x = some ctx ∧
      ctx.dispatched < ctx.totalBytes ∧ ctx.firstError = 0

/-- The chunked half of a completion, with the sibling in hand. -/
theorem completeSibling_spec {r : Request} (hctx : r.ctx = some x)
    (hdec : nvmeDecideDisposition r = .complete)
    (hgate : Refill s.core r → P.launch s.core.state s.core.frozen) :
    Goes env P.calm s.core ⟨i, some r, none, a, b, o⟩ (completeSibling env s r x).core
      ⟨i, none, none, a, b, o⟩ := by
  refine .assume fun hs => ?_
  have hcount : 0 < sibCount x ⟨s.core, ⟨i, some r, none, a, b, o⟩⟩ := by
    have hone : hit ((fun k : Key => k.ctx == some x) ∘ keyOf) (some r) = 1 := by
      simp [keyOf, hctx]
    unfold sibCount reqCount
    rw [hone]
    exact Nat.succ_pos _
  have hok := hs.ctxs x
  cases hget : s.core.ctxs.get x with
  | none =>
      have := (hok.dead hget).1
      omega
  | some ctx =>
      have hinf := hok.siblings ctx hget
      have hstall : ctx.stalled = false := by
        by_contra hst
        have := (hok.idle ctx hget (by simpa using hst)).1
        omega
      let s₁ := (s.editCtx x (fun _ => ctx.siblingDone r)).log (.reqFree r.id)
      have hgo : Goes env P.calm s.core ⟨i, some r, none, a, b, o⟩ s₁.core
          ⟨i, none, some x, a, b, o⟩ := .move fun _ => .sibDone rfl hctx hget rfl hdec
      have hget₁ : s₁.core.ctxs.get x = some (ctx.siblingDone r) := get_modify_self hget
      unfold completeSibling
      rw [hget]
      dsimp only
      change Goes env P.calm s.core ⟨i, some r, none, a, b, o⟩
        (finishIfIdle (if (ctx.siblingDone r).dispatched < (ctx.siblingDone r).totalBytes ∧
          (ctx.siblingDone r).firstError = 0 then (nvmeIoContextPump env s₁ x).1 else s₁)
          x).core ⟨i, none, none, a, b, o⟩
      split
      · rename_i hmore
        have hzero : nvmeErrorStatus r.status = 0 ∧ ctx.firstError = 0 := by
          have herr := hmore.2
          unfold IoContext.siblingDone at herr
          dsimp only at herr
          split at herr
          · rename_i hyes
            exact ⟨herr, hyes.2⟩
          · rename_i hno
            refine ⟨?_, herr⟩
            by_cases hst : r.status = 0
            · rw [hst]
              rfl
            · exact absurd ⟨hst, herr⟩ hno
        have hpump := @nvmeIoContextPump_spec env P x s₁ _ i a b o (hgo.safe hs) hget₁ hstall
          hmore.1 (hgate ⟨hzero.1, x, ctx, hctx, hget, hmore.1, hzero.2⟩) (.inl hmore.2)
        obtain ⟨ctx', hget', -, -, hres⟩ := hpump.2
        refine (hgo.trans hpump.1).trans (finishIfIdle_spec hget' ?_)
        rcases hres with ⟨-, h | h⟩ | ⟨-, -, -, h, -⟩
        · exact .inl h
        · exact .inr (.inl h)
        · exact .inr (.inr (.inl h))
      · rename_i hno
        refine hgo.trans (finishIfIdle_spec hget₁ ?_)
        by_cases herr : (ctx.siblingDone r).firstError = 0
        · exact .inr (.inr (.inr (Nat.le_of_not_lt fun h => hno ⟨h, herr⟩)))
        · exact .inr (.inr (.inl herr))

end Pump
end Refine
end NvmeDriver
