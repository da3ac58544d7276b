import NvmeDriver.Ownership.Safe

/-!
# The story of a chunked transfer

What happens to a context over a run, read off two configurations of the machine at a
time: the transfer is opened, its chunks are issued, their requests come to their ends, an
error is latched outside a completion, and the client is answered.
-/

namespace NvmeDriver
namespace Ownership

open Engine
open Lib

/-- What happens to a chunked transfer. -/
inductive ChunkEvent
  /-- its context is allocated -/
  | opened (ctx : IoContext)
  /-- its next chunk is submitted -/
  | issued (r : Request)
  /-- a sibling has got its final status -/
  | ended (r : Request)
  /-- an error is latched outside a completion -/
  | latched (e : Int)
  /-- its client is answered -/
  | replied (io : Nat) (error : Int) (actual : Nat)
  /-- its context is freed by the dispatcher that allocated it -/
  | dropped

/-! ### Reading the story off -/

section Reading

/-- The entries a move adds to the log, newest first. -/
def news (g g' : Cfg) : List Effect :=
  g'.core.trace.take (g'.core.trace.length - g.core.trace.length)

/-- A log entry that shows a chunk of the context being submitted for the first time. -/
def issuedBy (x : Nat) : Effect → Option ChunkEvent
  | .sqe _ r _ => if r.ctx = some x ∧ r.retries = 0 then some (.issued r) else none
  | _ => none

def answerBy : Effect → Option ChunkEvent
  | .reply i e a => some (.replied i e a)
  | _ => none

/-- The context appears. -/
def openings (x : Nat) (g g' : Cfg) : List ChunkEvent :=
  match g.core.ctxs.get x, g'.core.ctxs.get x with
  | none, some ctx => [.opened ctx]
  | _, _ => []

/-- The request in hand gives way to its context. -/
def endings (x : Nat) (g g' : Cfg) : List ChunkEvent :=
  match g.hand.req with
  | none => []
  | some r =>
      if r.ctx = some x ∧ g.hand.ctx = none ∧ g'.hand.ctx = some x then [.ended r] else []

/-- The error of the context in hand changes. -/
def latches (x : Nat) (g g' : Cfg) : List ChunkEvent :=
  match g.core.ctxs.get x, g'.core.ctxs.get x with
  | some ctx, some ctx' =>
      if g.hand.ctx = some x ∧ ctx'.firstError ≠ ctx.firstError then
        [.latched ctx'.firstError]
      else []
  | _, _ => []

/-- The context is freed, by itself or together with an answer. -/
def closings (x : Nat) (es : List Effect) : List ChunkEvent :=
  if .ctxFree x ∈ es then
    match es.filterMap answerBy with
    | [] => [.dropped]
    | answers => answers
  else []

/-- What a move shows of a context. -/
def shown (x : Nat) (g g' : Cfg) : List ChunkEvent :=
  openings x g g' ++ (news g g').filterMap (issuedBy x) ++ endings x g g' ++
    latches x g g' ++ closings x (news g g')

/-- A path of moves, with the story of a context told along it. -/
inductive Told (env : Env) (P : Policy) (g₀ : Cfg) (x : Nat) :
    Cfg → List ChunkEvent → Prop
  | start : Told env P g₀ x g₀ []
  | move {g g' : Cfg} {story : List ChunkEvent} (htold : Told env P g₀ x g story)
      (hm : Move env P g g') : Told env P g₀ x g' (story ++ shown x g g')

variable {env : Env} {P : Policy} {g₀ g : Cfg} {x : Nat} {story : List ChunkEvent}

theorem Told.path (h : Told env P g₀ x g story) : Relation.ReflTransGen (Move env P) g₀ g := by
  induction h with
  | start => exact .refl
  | move _ hm ih => exact .tail ih hm

/-- Every path tells a story of every context. -/
theorem told_of_path (x : Nat) (hpath : Relation.ReflTransGen (Move env P) g₀ g) :
    ∃ story, Told env P g₀ x g story := by
  induction hpath with
  | refl => exact ⟨[], .start⟩
  | tail _ hm ih =>
      obtain ⟨story, htold⟩ := ih
      exact ⟨_, .move htold hm⟩

end Reading

/-! ### What one move tells -/

section Telling

variable {env : Env} {P : Policy} {g g' : Cfg} {x : Nat} {es : List Effect}

/-- A context of the same request. -/
structure SameRequest (ctx ctx' : IoContext) : Prop where
  io : ctx'.io = ctx.io
  unit : ctx'.unit = ctx.unit
  startLba : ctx'.startLba = ctx.startLba
  totalBytes : ctx'.totalBytes = ctx.totalBytes
  opcode : ctx'.opcode = ctx.opcode
  userData : ctx'.userData = ctx.userData

theorem SameRequest.refl (ctx : IoContext) : SameRequest ctx ctx := ⟨rfl, rfl, rfl, rfl, rfl, rfl⟩

theorem SameRequest.trans {ctx ctx' ctx'' : IoContext} (h : SameRequest ctx ctx')
    (h' : SameRequest ctx' ctx'') : SameRequest ctx ctx'' :=
  ⟨h'.io.trans h.io, h'.unit.trans h.unit, h'.startLba.trans h.startLba,
    h'.totalBytes.trans h.totalBytes, h'.opcode.trans h.opcode, h'.userData.trans h.userData⟩

theorem SameRequest.symm {ctx ctx' : IoContext} (h : SameRequest ctx ctx') :
    SameRequest ctx' ctx :=
  ⟨h.io.symm, h.unit.symm, h.startLba.symm, h.totalBytes.symm, h.opcode.symm, h.userData.symm⟩

theorem SameRequest.contextOf {ctx ctx' : IoContext} {t : Transfer} (h : SameRequest ctx ctx')
    (hof : ContextOf env ctx t) : ContextOf env ctx' t := by
  cases t with
  | rw u lba blocks opcode buffer =>
      obtain ⟨hcap, hunit, hlba, htotal, hop, hdata⟩ := hof
      exact ⟨hcap, h.unit.trans hunit, h.startLba.trans hlba, h.totalBytes.trans htotal,
        h.opcode.trans hop, h.userData.trans hdata⟩
  | writeZeroes u lba blocks =>
      obtain ⟨hunit, hlba, htotal, hop, hdata⟩ := hof
      exact ⟨h.unit.trans hunit, h.startLba.trans hlba, h.totalBytes.trans htotal,
        h.opcode.trans hop, h.userData.trans hdata⟩
  | dsm u ranges => exact hof
  | flush u => exact hof

/-- A context of the same request with the same accounts. -/
structure SameAccounts (ctx ctx' : IoContext) : Prop extends SameRequest ctx ctx' where
  dispatched : ctx'.dispatched = ctx.dispatched
  inflight : ctx'.inflight = ctx.inflight
  firstError : ctx'.firstError = ctx.firstError

theorem SameAccounts.refl (ctx : IoContext) : SameAccounts ctx ctx :=
  ⟨.refl ctx, rfl, rfl, rfl⟩

/-- What a move makes of a context, beside what it shows of it. -/
inductive Tells (env : Env) (P : Policy) (x : Nat) (g g' : Cfg) : List ChunkEvent → Prop
  | nothing
      (hkept : ∀ ctx, g.core.ctxs.get x = some ctx →
        ∃ ctx', g'.core.ctxs.get x = some ctx' ∧ SameAccounts ctx ctx')
      (hnone : g.core.ctxs.get x = none → g'.core.ctxs.get x = none) :
      Tells env P x g g' []
  | opened {ctx : IoContext} {t : Transfer} (hnew : x = g.core.allocs)
      (hget' : g'.core.ctxs.get x = some ctx) (hinf : ctx.inflight = 0)
      (hdis : ctx.dispatched = 0) (herr : ctx.firstError = 0)
      (hask : Asked env ctx.io t) (hcheck : Checked env t) (hof : ContextOf env ctx t) :
      Tells env P x g g' [.opened ctx]
  | issued {ctx : IoContext} {r : Request} (hget : g.core.ctxs.get x = some ctx)
      (hget' : g'.core.ctxs.get x = some { ctx with
        dispatched := ctx.dispatched + nextBytes env ctx, inflight := ctx.inflight + 1 })
      (hkey : keyOf r = ⟨g.core.allocs, .io, none, some x, none, none⟩)
      (hmore : ctx.dispatched < ctx.totalBytes)
      (hfresh : ctx.firstError = 0 ∨ P.spoil) (hof : ChunkOf env ctx r)
      (halloc : g.core.allocs < g'.core.allocs) :
      Tells env P x g g' [.issued r]
  | ended {ctx : IoContext} {r : Request} (hreq : g.hand.req = some r)
      (hctx : r.ctx = some x) (hdec : nvmeDecideDisposition r = .complete)
      (hget : g.core.ctxs.get x = some ctx)
      (hget' : g'.core.ctxs.get x = some (ctx.siblingDone r))
      (hfree : g'.core.trace = .reqFree r.id :: g.core.trace) :
      Tells env P x g g' [.ended r]
  | latched {ctx : IoContext} {e : Int} (hget : g.core.ctxs.get x = some ctx)
      (hget' : g'.core.ctxs.get x = some { ctx with firstError := e }) (he : e ≠ 0)
      (hlatch : Latches env P ctx e) :
      Tells env P x g g' [.latched e]
  | replied {ctx : IoContext} (hget : g.core.ctxs.get x = some ctx)
      (hget' : g'.core.ctxs.get x = none) (hidle : ctx.inflight = 0)
      (hdone : ctx.firstError ≠ 0 ∨ ctx.totalBytes ≤ ctx.dispatched) :
      Tells env P x g g' [.replied ctx.io ctx.firstError
        (if ctx.firstError ≠ 0 then 0 else ctx.totalBytes)]
  | dropped {ctx : IoContext} (hget : g.core.ctxs.get x = some ctx)
      (hget' : g'.core.ctxs.get x = none) (hidle : ctx.inflight = 0)
      (herr : ctx.firstError ≠ 0) (hnew : ctx.dispatched = 0) :
      Tells env P x g g' [.dropped]

theorem news_eq (es : List Effect) (hnews : g'.core.trace = es ++ g.core.trace) :
    news g g' = es := by
  unfold news
  rw [hnews, List.length_append, Nat.add_sub_cancel, List.take_left]

/-- An entry that shows nothing of a context. -/
def Mute (x : Nat) (e : Effect) : Prop := issuedBy x e = none ∧ e ≠ .ctxFree x

theorem mute_of_quietFor {n : Nat} {e : Effect} (he : quietFor n e = true) : Mute x e := by
  cases e <;> first | (cases he; done) | exact ⟨rfl, Effect.noConfusion⟩

theorem mute_notes {n : Nat} {notes : List Effect}
    (hnotes : ∀ e, e ∈ notes → quietFor n e = true) : ∀ e, e ∈ notes → Mute x e :=
  fun e he => mute_of_quietFor (hnotes e he)

theorem closings_mute (hes : ∀ e, e ∈ es → Mute x e) : closings x es = [] := by
  unfold closings
  rw [if_neg]
  intro hmem
  exact (hes _ hmem).2 rfl

theorem filterMap_mute (hes : ∀ e, e ∈ es → Mute x e) : es.filterMap (issuedBy x) = [] := by
  rw [List.filterMap_eq_nil_iff]
  exact fun e he => (hes e he).1

theorem endings_nil (hhand : g'.hand.ctx = g.hand.ctx ∨ g'.hand.ctx = none ∨ g.hand.req = none ∨
    g'.hand.ctx ≠ some x) : endings x g g' = [] := by
  unfold endings
  split
  · rfl
  · rename_i r hr
    rw [if_neg]
    rintro ⟨-, hnone, hsome⟩
    rcases hhand with h | h | h | h
    · rw [hnone, hsome] at h
      cases h
    · rw [hsome] at h
      cases h
    · rw [hr] at h
      cases h
    · exact h hsome

/-- A move that shows nothing. -/
theorem shown_nil (hnews : g'.core.trace = es ++ g.core.trace) (hes : ∀ e, e ∈ es → Mute x e)
    (hopen : openings x g g' = []) (hlatch : latches x g g' = [])
    (hend : endings x g g' = []) : shown x g g' = [] := by
  unfold shown
  rw [news_eq _ hnews, hopen, hlatch, hend, filterMap_mute hes, closings_mute hes]
  rfl

/-- A move that leaves a context alone. -/
theorem tells_same (es : List Effect) (hnews : g'.core.trace = es ++ g.core.trace)
    (hes : ∀ e, e ∈ es → Mute x e)
    (hget : g'.core.ctxs.get x = g.core.ctxs.get x) (hend : endings x g g' = []) :
    Tells env P x g g' (shown x g g') := by
  rw [shown_nil hnews hes ?_ ?_ hend]
  · exact .nothing (fun ctx h => ⟨ctx, hget.trans h, .refl ctx⟩) (fun h => hget.trans h)
  · unfold openings
    rw [hget]
    cases g.core.ctxs.get x <;> rfl
  · unfold latches
    rw [hget]
    cases g.core.ctxs.get x <;> simp

/-- A move that changes no account of a context. -/
theorem tells_marked {ctx ctx' : IoContext} (es : List Effect)
    (hnews : g'.core.trace = es ++ g.core.trace)
    (hes : ∀ e, e ∈ es → Mute x e) (hget : g.core.ctxs.get x = some ctx)
    (hget' : g'.core.ctxs.get x = some ctx') (hsame : SameAccounts ctx ctx')
    (hend : endings x g g' = []) : Tells env P x g g' (shown x g g') := by
  rw [shown_nil hnews hes ?_ ?_ hend]
  · refine .nothing (fun ctx₁ h => ?_) (fun h => ?_)
    · cases Option.some.inj (h.symm.trans hget)
      exact ⟨ctx', hget', hsame⟩
    · exact absurd (h.symm.trans hget) (fun h => nomatch h)
  · unfold openings
    rw [hget, hget']
  · unfold latches
    rw [hget, hget']
    simp [hsame.firstError]

theorem mute_nil : ∀ e', e' ∈ ([] : List Effect) → Mute x e' :=
  fun _ hmem => absurd hmem List.not_mem_nil

theorem mute_one {e : Effect} (he : Mute x e) : ∀ e', e' ∈ [e] → Mute x e' := by
  intro e' hmem
  rw [List.mem_singleton.mp hmem]
  exact he

theorem mute_cons {e : Effect} (he : Mute x e) (hes : ∀ e', e' ∈ es → Mute x e') :
    ∀ e', e' ∈ e :: es → Mute x e' := by
  intro e' hmem
  rcases List.mem_cons.mp hmem with rfl | hmem
  · exact he
  · exact hes e' hmem

/-- A first submission for another context shows nothing of this one. -/
theorem mute_sqe {slot : Nat} {r : Request} {owner : Option Nat}
    (hother : r.ctx ≠ some x ∨ r.retries ≠ 0) : Mute x (.sqe slot r owner) := by
  refine ⟨if_neg ?_, Effect.noConfusion⟩
  rintro ⟨hctx, hret⟩
  rcases hother with h | h
  · exact h hctx
  · exact h hret

/-- Nothing is logged and the contexts stay. -/
theorem tells_silent (htrace : g'.core.trace = g.core.trace)
    (hget : g'.core.ctxs.get x = g.core.ctxs.get x) (hend : endings x g g' = []) :
    Tells env P x g g' (shown x g g') :=
  tells_same [] htrace (fun _ h => nomatch h) hget hend

theorem openings_nil {ctx : IoContext} (hget : g.core.ctxs.get x = some ctx) :
    openings x g g' = [] := by
  unfold openings
  rw [hget]

theorem latches_nil_of_none (hget : g.core.ctxs.get x = none) : latches x g g' = [] := by
  unfold latches
  rw [hget]

theorem latches_nil_of_gone (hget' : g'.core.ctxs.get x = none) : latches x g g' = [] := by
  unfold latches
  rw [hget']
  cases g.core.ctxs.get x <;> rfl

theorem tells_opened {ctx : IoContext} {t : Transfer} (hnews : g'.core.trace = g.core.trace)
    (hnone : g.core.ctxs.get x = none) (hget' : g'.core.ctxs.get x = some ctx)
    (hend : endings x g g' = []) (hnew : x = g.core.allocs) (hinf : ctx.inflight = 0)
    (hdis : ctx.dispatched = 0) (herr : ctx.firstError = 0) (hask : Asked env ctx.io t)
    (hcheck : Checked env t) (hof : ContextOf env ctx t) :
    Tells env P x g g' (shown x g g') := by
  have hopen : openings x g g' = [.opened ctx] := by
    unfold openings
    rw [hnone, hget']
  have hshown : shown x g g' = [.opened ctx] := by
    unfold shown
    rw [news_eq [] hnews, hopen, hend, latches_nil_of_none hnone]
    simp [closings]
  rw [hshown]
  exact .opened hnew hget' hinf hdis herr hask hcheck hof

theorem tells_issued {ctx : IoContext} {r : Request} {slot : Nat} {owner : Option Nat}
    (notes : List Effect) (hnews : g'.core.trace = .sqe slot r owner :: notes ++ g.core.trace)
    (hnotes : ∀ e, e ∈ notes → Mute x e) (hget : g.core.ctxs.get x = some ctx)
    (hget' : g'.core.ctxs.get x = some { ctx with
      dispatched := ctx.dispatched + nextBytes env ctx, inflight := ctx.inflight + 1 })
    (hend : endings x g g' = []) (hret : r.retries = 0)
    (hkey : keyOf r = ⟨g.core.allocs, .io, none, some x, none, none⟩)
    (hmore : ctx.dispatched < ctx.totalBytes) (hfresh : ctx.firstError = 0 ∨ P.spoil)
    (hof : ChunkOf env ctx r) (halloc : g.core.allocs < g'.core.allocs) :
    Tells env P x g g' (shown x g g') := by
  have hctx : r.ctx = some x := congrArg Key.ctx hkey
  have hlatch : latches x g g' = [] := by
    unfold latches
    rw [hget, hget']
    simp
  have hclose : closings x (.sqe slot r owner :: notes) = [] := by
    refine if_neg fun hmem => ?_
    rcases List.mem_cons.mp hmem with h | h
    · cases h
    · exact (hnotes _ h).2 rfl
  have hissue : issuedBy x (.sqe slot r owner) = some (.issued r) := if_pos ⟨hctx, hret⟩
  have hshown : shown x g g' = [.issued r] := by
    unfold shown
    rw [news_eq _ hnews, openings_nil hget, hend, hlatch, hclose,
      List.filterMap_cons_some hissue, filterMap_mute hnotes]
    rfl
  rw [hshown]
  exact .issued hget hget' hkey hmore hfresh hof halloc

theorem tells_ended {ctx : IoContext} {r : Request}
    (hnews : g'.core.trace = .reqFree r.id :: g.core.trace) (hreq : g.hand.req = some r)
    (hctx : r.ctx = some x) (hdec : nvmeDecideDisposition r = .complete)
    (hnone : g.hand.ctx = none) (hhand : g'.hand.ctx = some x)
    (hget : g.core.ctxs.get x = some ctx)
    (hget' : g'.core.ctxs.get x = some (ctx.siblingDone r)) :
    Tells env P x g g' (shown x g g') := by
  have hlatch : latches x g g' = [] := by
    unfold latches
    rw [hget, hget', hnone]
    simp
  have hend : endings x g g' = [.ended r] := by
    unfold endings
    rw [hreq]
    exact if_pos ⟨hctx, hnone, hhand⟩
  have hmute : ∀ e, e ∈ [Effect.reqFree r.id] → Mute x e :=
    mute_one ⟨rfl, Effect.noConfusion⟩
  have hshown : shown x g g' = [.ended r] := by
    unfold shown
    rw [news_eq [.reqFree r.id] hnews, openings_nil hget, hend, hlatch,
      filterMap_mute hmute, closings_mute hmute]
    rfl
  rw [hshown]
  exact .ended hreq hctx hdec hget hget' hnews

theorem tells_latched {ctx : IoContext} {e : Int} (hnews : g'.core.trace = g.core.trace)
    (hhand : g.hand.ctx = some x) (hget : g.core.ctxs.get x = some ctx)
    (hget' : g'.core.ctxs.get x = some { ctx with firstError := e })
    (hend : endings x g g' = []) (he : e ≠ 0) (hzero : ctx.firstError = 0)
    (hlatch : Latches env P ctx e) : Tells env P x g g' (shown x g g') := by
  have hlatches : latches x g g' = [.latched e] := by
    unfold latches
    rw [hget, hget', hhand]
    simp [hzero, he]
  have hshown : shown x g g' = [.latched e] := by
    unfold shown
    rw [news_eq [] hnews, openings_nil hget, hend, hlatches]
    simp [closings]
  rw [hshown]
  exact .latched hget hget' he hlatch

/-- A context is freed, and what the log shows with it. -/
theorem shown_closed {ctx : IoContext} (es : List Effect)
    (hnews : g'.core.trace = es ++ g.core.trace)
    (hissue : es.filterMap (issuedBy x) = []) (hget : g.core.ctxs.get x = some ctx)
    (hget' : g'.core.ctxs.get x = none) (hend : endings x g g' = []) :
    shown x g g' = closings x es := by
  unfold shown
  rw [news_eq _ hnews, openings_nil hget, hend, latches_nil_of_gone hget', hissue]
  rfl

theorem erased_get {c : Core} {y : Nat} (hxy : x ≠ y) : (c.ctxs.erase y).get x = c.ctxs.get x := by
  rw [Heap.get_erase, if_neg hxy]

theorem erased_get_self (c : Core) (x : Nat) : (c.ctxs.erase x).get x = none := by
  rw [Heap.get_erase, if_pos rfl]

theorem answerBy_notes {n : Nat} {notes : List Effect}
    (hnotes : ∀ e, e ∈ notes → quietFor n e = true) : notes.filterMap answerBy = [] := by
  rw [List.filterMap_eq_nil_iff]
  intro e he
  have hq := hnotes e he
  cases e <;> first | rfl | cases hq

/-- What a move shows of a context is what it makes of it. -/
theorem Move.tells (hs : Safe g) (hspoil : ¬P.spoil) (hm : Move env P g g') (x : Nat) :
    Tells env P x g g' (shown x g g') := by
  cases hm with
  | @launchSib c h y cid rest n us notes r ctx hh hreq hget hfree hn hnotes hkey hcid hret
      hstall hmore hcap hof hring hgate hfresh =>
      have hctx : r.ctx = some y := congrArg Key.ctx hkey
      have hmute := mute_notes (x := x) (quietFor_notes hnotes 0)
      by_cases hxy : x = y
      · subst hxy
        refine tells_issued notes rfl hmute hget ?_ (endings_nil (.inl rfl)) hret hkey
          hmore hfresh hof ?_
        · simp only [sent, stamp, setRing_ctxs, setTab_ctxs]
          exact get_modify_self hget
        · simpa [sent, stamp] using hn
      · refine tells_same (.sqe (c.ring .io).sqTail r (some ctx.io) :: notes) rfl
          (mute_cons (mute_sqe (.inl ?_)) hmute) ?_ (endings_nil (.inl rfl))
        · rw [hctx]
          exact fun h => hxy (Option.some.inj h).symm
        · simp only [sent, stamp, setRing_ctxs, setTab_ctxs]
          exact get_modify_other _ hxy
  | @sibDone c h r y ctx hh hctx hget hnone hdec =>
      by_cases hxy : x = y
      · subst hxy
        exact tells_ended rfl hh hctx hdec hnone rfl hget (get_modify_self hget)
      · refine tells_same [.reqFree r.id] rfl (mute_one ⟨rfl, Effect.noConfusion⟩)
          (get_modify_other _ hxy) (endings_nil (.inr (.inr (.inr ?_))))
        exact fun h => hxy (Option.some.inj h).symm
  | @allocCtx c h i ctx t hh hreq hnone hio hinf hdis herr hstall hask hcheck hof hroom
      hmany =>
      have hend : endings x ⟨c, h⟩ ⟨{ c with
          allocs := c.allocs + 1, ctxs := c.ctxs.insert c.allocs ctx },
          { h with io := none, ctx := some c.allocs }⟩ = [] :=
        endings_nil (.inr (.inr (.inl hreq)))
      by_cases hxy : x = c.allocs
      · subst hxy
        refine tells_opened rfl hs.get_allocs ?_ hend rfl hinf hdis herr (hio ▸ hask) hcheck hof
        rw [Heap.get_insert, if_pos rfl]
      · refine tells_silent rfl ?_ hend
        rw [Heap.get_insert, if_neg hxy]
  | @ctxError c h y ctx e hh hget hstall he hwhy hlatch =>
      by_cases hxy : x = y
      · subst hxy
        exact tells_latched rfl hh hget (get_modify_self hget) (endings_nil (.inl rfl)) he
          (hlatch.fresh.resolve_right hspoil) hlatch
      · exact tells_silent rfl (get_modify_other _ hxy) (endings_nil (.inl rfl))
  | @stall c h y ctx hh hget hidle hstall hmore hfresh =>
      by_cases hxy : x = y
      · subst hxy
        exact tells_marked [] rfl mute_nil hget (get_modify_self hget)
          ⟨⟨rfl, rfl, rfl, rfl, rfl, rfl⟩, rfl, rfl, rfl⟩ (endings_nil (.inl rfl))
      · exact tells_silent rfl (get_modify_other _ hxy) (endings_nil (.inl rfl))
  | @unstall c h y rest hlist hreq hnone hroom =>
      obtain ⟨ctx, hget, -⟩ := hs.head_stalled hlist
      have hend := @endings_nil ⟨c, h⟩ ⟨{ c with
        ctxStalled := rest
        ctxs := c.ctxs.modify y (fun z => { z with stalled := false }) },
        { h with ctx := some y }⟩ x (.inr (.inr (.inl hreq)))
      by_cases hxy : x = y
      · subst hxy
        exact tells_marked [] rfl mute_nil hget (get_modify_self hget)
          ⟨⟨rfl, rfl, rfl, rfl, rfl, rfl⟩, rfl, rfl, rfl⟩ hend
      · exact tells_silent rfl (get_modify_other _ hxy) hend
  | @finish c h y ctx notes sibs hh hget hidle hstall hdone hsibs hnotes =>
      have hquiet := quietFor_notes hnotes 0
      have hlog : ∀ z e, e ∈ .reply ctx.io ctx.firstError
          (if ctx.firstError ≠ 0 then 0 else ctx.totalBytes) ::
          (notes ++ [.ctxFinish y (decide (y ∈ c.ctxStalled)) sibs]) → Mute z e := by
        intro z
        refine mute_cons ⟨rfl, Effect.noConfusion⟩ (fun e he => ?_)
        rcases List.mem_append.mp he with he | he
        · exact mute_notes hquiet e he
        · rw [List.mem_singleton.mp he]
          exact ⟨rfl, Effect.noConfusion⟩
      by_cases hxy : x = y
      · subst hxy
        rw [shown_closed (.ctxFree x :: .reply ctx.io ctx.firstError
          (if ctx.firstError ≠ 0 then 0 else ctx.totalBytes) ::
          (notes ++ [.ctxFinish x (decide (x ∈ c.ctxStalled)) sibs])) rfl ?_ hget
          (erased_get_self c x) (endings_nil (.inr (.inl rfl)))]
        · unfold closings
          rw [if_pos (List.mem_cons_self ..)]
          simp only [List.filterMap_cons, answerBy, List.filterMap_append,
            answerBy_notes hquiet, List.filterMap_nil, List.append_nil]
          exact .replied hget (erased_get_self c x) hidle hdone
        · rw [List.filterMap_cons_none rfl, filterMap_mute (hlog x)]
      · refine tells_same (.ctxFree y :: .reply ctx.io ctx.firstError
          (if ctx.firstError ≠ 0 then 0 else ctx.totalBytes) ::
          (notes ++ [.ctxFinish y (decide (y ∈ c.ctxStalled)) sibs])) rfl
          (mute_cons ⟨rfl, ?_⟩ (hlog x)) (erased_get hxy) (endings_nil (.inr (.inl rfl)))
        intro h
        injection h with h
        exact hxy h.symm
  | @freeCtx c h y ctx hh hget hidle hstall hio herr hnew =>
      by_cases hxy : x = y
      · subst hxy
        rw [shown_closed [.ctxFree x] rfl rfl hget (erased_get_self c x)
          (endings_nil (.inr (.inl rfl)))]
        unfold closings
        rw [if_pos (List.mem_cons_self ..)]
        exact .dropped hget (erased_get_self c x) hidle herr hnew
      · refine tells_same [.ctxFree y] rfl (mute_one ⟨rfl, ?_⟩) (erased_get hxy)
          (endings_nil (.inr (.inl rfl)))
        intro h
        injection h with h
        exact hxy h.symm
  | @dropCtx c h y ctx hh hget hheld =>
      exact tells_silent rfl rfl (endings_nil (.inr (.inl rfl)))
  | @launchIo c h i cid rest n us notes r t hh hreq hctx hfree hn hnotes hkey hcid hret hask
      hcheck hone hof hroom hring hgate =>
      have hnone : r.ctx = none := congrArg Key.ctx hkey
      refine tells_same (.sqe (c.ring .io).sqTail r (some i) :: notes) rfl
        (mute_cons (mute_sqe (.inl ?_)) (mute_notes (quietFor_notes hnotes 0))) rfl
        (endings_nil (.inl rfl))
      rw [hnone]
      exact (Option.some_ne_none x).symm
  | @launchAdmin c h cid rest n us notes r done waiter hfree hn hnotes hkey hcid hchain hfeat =>
      have hnone : r.ctx = none := congrArg Key.ctx hkey
      refine tells_same (.sqe (c.ring .admin).sqTail r none :: notes) rfl
        (mute_cons (mute_sqe (.inl ?_)) (mute_notes (quietFor_notes hnotes 0))) rfl
        (endings_nil (.inl rfl))
      rw [hnone]
      exact (Option.some_ne_none x).symm
  | @relaunch c h r r' cid rest us hh hctx hr' hret hfree hring hgate =>
      have hret' : r'.retries ≠ 0 := by
        subst hr'
        exact hret
      refine tells_same [.sqe (c.ring r.q).sqTail r' (c.ownerOf r)] ?_
        (mute_one (mute_sqe (.inr hret'))) ?_ (endings_nil (.inl rfl))
      · simp [sent, stamp]
      · simp [sent, stamp]
  | note e hq =>
      exact tells_same [e] rfl (mute_one (mute_of_quietFor (quietFor_of_quiet (n := 0) hq)))
        rfl (endings_nil (.inl rfl))
  | translated i cmd htr =>
      exact tells_same [_] rfl (mute_one ⟨rfl, Effect.noConfusion⟩) rfl (endings_nil (.inl rfl))
  | @fizzle c h q cid rest n notes hfree hn hnotes =>
      refine tells_same (.reqFree c.allocs :: notes) ?_
        (mute_cons ⟨rfl, Effect.noConfusion⟩ (mute_notes hnotes)) ?_ (endings_nil (.inl rfl))
      · simp [stamp]
      · simp [stamp]
  | @revise c h r r' notes hh hkey hcmd hbuf hlen hfirst hnotes =>
      exact tells_same notes rfl (mute_notes hnotes) rfl (endings_nil (.inl rfl))
  | @lose c h r cid rest notes hlose hh hfree hnotes =>
      refine tells_same (.reqFree r.id :: notes) ?_
        (mute_cons ⟨rfl, Effect.noConfusion⟩ (mute_notes hnotes)) ?_ (endings_nil (.inl rfl))
      · simp [stamp]
      · simp [stamp]
  | @teardown c h q notes hstir hlose hnotes hidle =>
      refine tells_same (.teardown (c.tab q).occupants :: notes) ?_
        (mute_cons ⟨rfl, Effect.noConfusion⟩ (fun e he => ?_)) ?_ (endings_nil (.inl rfl))
      · simp [stamp]
      · have hhalt := (hnotes e he).2
        cases e <;> first | (cases hhalt; done) | exact ⟨rfl, Effect.noConfusion⟩
      · simp [stamp]
  | @endReply c h r i a hh hio hctx ha =>
      exact tells_same [.reqFree r.id, .reply i (nvmeErrorStatus r.status) a] rfl
        (mute_cons ⟨rfl, Effect.noConfusion⟩ (mute_one ⟨rfl, Effect.noConfusion⟩)) rfl
        (endings_nil (.inl rfl))
  | phase hstir hp =>
      cases hp with
      | aenFw hlive =>
          exact tells_same [_] rfl (mute_one ⟨rfl, Effect.noConfusion⟩) rfl
            (endings_nil (.inl rfl))
      | fwLive hrun hsig =>
          exact tells_same [_, _] rfl
            (mute_cons ⟨rfl, Effect.noConfusion⟩ (mute_one ⟨rfl, Effect.noConfusion⟩)) rfl
            (endings_nil (.inl rfl))
      | resetBegin hlive =>
          exact tells_same [_, _] rfl
            (mute_cons ⟨rfl, Effect.noConfusion⟩ (mute_one ⟨rfl, Effect.noConfusion⟩)) rfl
            (endings_nil (.inl rfl))
      | resetLive howes =>
          exact tells_same [_, _, _, _] rfl
            (mute_cons ⟨rfl, Effect.noConfusion⟩ (mute_cons ⟨rfl, Effect.noConfusion⟩
              (mute_cons ⟨rfl, Effect.noConfusion⟩ (mute_one ⟨rfl, Effect.noConfusion⟩)))) rfl
            (endings_nil (.inl rfl))
      | die howes hgone =>
          exact tells_same [_, _, _] rfl
            (mute_cons ⟨rfl, Effect.noConfusion⟩ (mute_cons ⟨rfl, Effect.noConfusion⟩
              (mute_one ⟨rfl, Effect.noConfusion⟩))) rfl
            (endings_nil (.inl rfl))
      | _ => exact tells_silent rfl rfl (endings_nil (.inl rfl))
  | @publish c h q head phase hpub hhead =>
      refine tells_same [.cqDoorbell q head] ?_ (mute_one ⟨rfl, Effect.noConfusion⟩) ?_
        (endings_nil (.inl rfl))
      · simp [stamp]
      · simp [stamp]
  | @reapCqe c h q r st res hread hh hctx hst =>
      refine tells_same [.cqe q r.cid r.id st] ?_ (mute_one ⟨rfl, Effect.noConfusion⟩) ?_
        (endings_nil (.inl rfl))
      · simp [stamp]
      · simp [stamp]
  | @reapCancel c h q r hread hh hctx hcancel =>
      refine tells_same [.cancel q r.id] ?_ (mute_one ⟨rfl, Effect.noConfusion⟩) ?_
        (endings_nil (.inl rfl))
      · simp [stamp]
      · simp [stamp]
  | @setup c h q hstir hvac hio hidle =>
      refine tells_same [.queueSetup q] ?_ (mute_one ⟨rfl, Effect.noConfusion⟩) ?_
        (endings_nil (.inl rfl))
      · simp [stamp]
      · simp [stamp]
  | touch q =>
      refine tells_silent ?_ ?_ (endings_nil (.inl rfl))
      · simp
      · simp
  | bell | skip | replyHand | discardHand | fizzleBare | refuse | endFree | collect =>
      exact tells_same [_] rfl (mute_one ⟨rfl, Effect.noConfusion⟩) rfl
        (endings_nil (.inl rfl))
  | accept | burn | limits | openBatch | closeBatch | takeMsg | takePending | stash | park
  | unpark | endWait | endDrop =>
      exact tells_silent rfl rfl (endings_nil (.inl rfl))

end Telling

/-! ### The size of a chunk -/

section Sizes

theorem nextBytes_le_rest (env : Env) (ctx : IoContext) :
    nextBytes env ctx ≤ ctx.totalBytes - ctx.dispatched := by
  unfold nextBytes
  generalize (if ctx.opcode = nvmeCmdWriteZeroes then (env.units ctx.unit).wzMaxBytes
    else nvmeRwChunkCap env.cfg (env.units ctx.unit).blockShift (nextLba env ctx)) = cap
  dsimp only
  split
  · rename_i h
    exact Nat.le_of_lt h.2
  · exact Nat.le_refl _

theorem nextBytes_pos (env : Env) {ctx : IoContext} (hmore : ctx.dispatched < ctx.totalBytes) :
    0 < nextBytes env ctx := by
  unfold nextBytes
  generalize (if ctx.opcode = nvmeCmdWriteZeroes then (env.units ctx.unit).wzMaxBytes
    else nvmeRwChunkCap env.cfg (env.units ctx.unit).blockShift (nextLba env ctx)) = cap
  dsimp only
  split
  · rename_i h
    exact Nat.pos_of_ne_zero h.1
  · exact Nat.sub_pos_of_lt hmore

end Sizes

/-! ### Parked contexts have not failed -/

section Parked

variable {env : Env} {P : Policy} {g g' : Cfg}

/-- No parked context has failed. -/
def Unspoiled (c : Core) : Prop :=
  ∀ x ctx, c.ctxs.get x = some ctx → ctx.stalled = true → ctx.firstError = 0

theorem get_modify_cases {c : Core} {x y : Nat} {f : IoContext → IoContext}
    {ctx' : IoContext} (hget' : (c.ctxs.modify y f).get x = some ctx') :
    c.ctxs.get x = some ctx' ∨ ∃ ctx, c.ctxs.get y = some ctx ∧ x = y ∧ ctx' = f ctx := by
  rw [Heap.get_modify] at hget'
  split at hget'
  · rename_i hx
    obtain ⟨ctx, hget, rfl⟩ := Option.map_eq_some_iff.mp hget'
    exact .inr ⟨ctx, hx ▸ hget, hx, rfl⟩
  · exact .inl hget'

theorem Unspoiled.modify {c : Core} {y : Nat} {f : IoContext → IoContext} (hold : Unspoiled c)
    (hf : ∀ ctx, c.ctxs.get y = some ctx → (f ctx).stalled = true → (f ctx).firstError = 0) :
    Unspoiled { c with ctxs := c.ctxs.modify y f } := by
  intro x ctx' hget' hst
  rcases get_modify_cases hget' with hget | ⟨ctx, hget, -, rfl⟩
  · exact hold x ctx' hget hst
  · exact hf ctx hget hst

theorem Unspoiled.erase {c : Core} (y : Nat) (hold : Unspoiled c) :
    Unspoiled { c with ctxs := c.ctxs.erase y } := by
  intro x ctx' hget' hst
  have hget : (c.ctxs.erase y).get x = some ctx' := hget'
  rw [Heap.get_erase] at hget
  split at hget
  · cases hget
  · exact hold x ctx' hget hst

/-- A context that is there was opened before now. -/
theorem Safe.ctx_young {ctx : IoContext} {x : Nat} (hs : Safe g)
    (hget : g.core.ctxs.get x = some ctx) :
    x < g.core.allocs := by
  have honce := (hs.ctxs x).once
  rw [hget] at honce
  by_contra hold
  rw [if_neg hold] at honce
  have : hit (fun _ : IoContext => true) (some ctx) = 1 := rfl
  omega

/-- A context with a request in hand counts it. -/
theorem Safe.inflight_pos {r : Request} {x : Nat} {ctx : IoContext} (hs : Safe g)
    (hh : g.hand.req = some r) (hctx : r.ctx = some x) (hget : g.core.ctxs.get x = some ctx) :
    0 < ctx.inflight := by
  have hone : hit ((fun k : Key => k.ctx == some x) ∘ keyOf) g.hand.req = 1 := by
    rw [hh]
    simp [keyOf, hctx]
  have hle := (hs.ctxs x).siblings ctx hget
  unfold sibCount reqCount at hle
  omega

/-- The context of a request in hand is not parked. -/
theorem Safe.not_stalled {r : Request} {x : Nat} {ctx : IoContext} (hs : Safe g)
    (hh : g.hand.req = some r) (hctx : r.ctx = some x) (hget : g.core.ctxs.get x = some ctx) :
    ctx.stalled = false := by
  by_contra hst
  have hidle := ((hs.ctxs x).idle ctx hget (by simpa using hst)).1
  have := hs.inflight_pos hh hctx hget
  omega

/-- Contexts that fail are not parked, unless the policy allows it. -/
theorem Move.keeps_unspoiled (hs : Safe g) (hm : Move env P g g')
    (hold : P.spoil ∨ Unspoiled g.core) : P.spoil ∨ Unspoiled g'.core := by
  refine or_iff_not_imp_left.mpr fun hspoil => ?_
  have hold := hold.resolve_left hspoil
  cases hm with
  | @launchSib c h y cid rest n us notes r ctx hh hreq hget hfree hn hnotes hkey hcid hret
      hstall hmore hcap hof hring hgate hfresh =>
      have hnew : Unspoiled { c with ctxs := c.ctxs.modify y (fun z =>
          { z with
            dispatched := z.dispatched + nextBytes env ctx
            inflight := z.inflight + 1 }) } :=
        hold.modify fun ctx₁ hget₁ hst => hold y ctx₁ hget₁ hst
      intro x ctx' hget' hst
      simp only [sent, stamp, setRing_ctxs, setTab_ctxs] at hget'
      exact hnew x ctx' hget' hst
  | @sibDone c h r y ctx hh hctx hget hnone =>
      refine hold.modify fun ctx₁ hget₁ hst => ?_
      cases (Safe.not_stalled hs hh hctx hget).symm.trans hst
  | @allocCtx c h i ctx t hh hreq hnone hio hinf hdis herr hstall hask hcheck hof hroom
      hmany =>
      intro x ctx' hget' hst
      have hins : (c.ctxs.insert c.allocs ctx).get x = some ctx' := hget'
      rw [Heap.get_insert] at hins
      split at hins
      · cases hins
        exact herr
      · exact hold x ctx' hins hst
  | @ctxError c h y ctx e hh hget hstall he hwhy hlatch =>
      refine hold.modify fun ctx₁ hget₁ hst => ?_
      cases Option.some.inj (hget₁.symm.trans hget)
      cases hstall.symm.trans hst
  | @stall c h y ctx hh hget hidle hstall hmore hfresh =>
      refine hold.modify fun ctx₁ hget₁ hst => ?_
      cases Option.some.inj (hget₁.symm.trans hget)
      exact hfresh.resolve_right hspoil
  | unstall hlist hreq hnone hroom => exact hold.modify fun _ _ hst => by cases hst
  | @finish c h y ctx notes sibs hh hget hidle hstall hdone hsibs hnotes => exact hold.erase y
  | @freeCtx c h y ctx hh hget hidle hstall hio herr hnew => exact hold.erase y
  | phase hstir hp => cases hp <;> exact hold
  | _ =>
      intro x ctx' hget' hst
      exact hold x ctx' (by simpa [stamp, sent] using hget') hst

theorem keeps_unspoiled (env : Env) (P : Policy) :
    Keeps (Move env P) (fun g => Safe g ∧ (P.spoil ∨ Unspoiled g.core)) :=
  fun _ _ hold hm => ⟨keeps_safe env P _ _ hold.1 hm, hm.keeps_unspoiled hold.1 hold.2⟩

end Parked

end Ownership
end NvmeDriver
