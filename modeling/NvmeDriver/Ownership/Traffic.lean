import NvmeDriver.Ownership.Invariant

/-!
# What a move can do

Two summaries of the machine, one for requests and one for client requests, from
which the counting parts of the invariant follow without another look at the
moves.
-/

namespace NvmeDriver
namespace Ownership

open Engine
open Lib

/-! ### What a move does to requests -/

section Traffic

variable {env : Env} {P : Policy} {g g' : Cfg}

theorem get_modify_self {c : Core} {x : Nat} {ctx : IoContext} {f : IoContext → IoContext}
    (hget : c.ctxs.get x = some ctx) : (c.ctxs.modify x f).get x = some (f ctx) := by
  rw [Heap.get_modify, if_pos rfl, hget]
  rfl

theorem get_modify_other {c : Core} {x y : Nat} (f : IoContext → IoContext) (hne : x ≠ y) :
    (c.ctxs.modify y f).get x = c.ctxs.get x := by
  rw [Heap.get_modify, if_neg hne]

/-- The trace counts of a context over quiet effects. -/
theorem ctx_counts_notes {n : Nat} {notes : List Effect} (x : Nat)
    (hnotes : ∀ e, e ∈ notes → quietFor n e = true) (tr : List Effect) :
    (notes ++ tr).countP (isCtxFree x) = tr.countP (isCtxFree x) ∧
      (notes ++ tr).countP (isCtxFinish x) = tr.countP (isCtxFinish x) := by
  rw [List.countP_append, List.countP_append,
    countP_notes _ (isCtxFree_quietFor x) hnotes,
    countP_notes _ (isCtxFinish_quietFor x) hnotes]
  exact ⟨Nat.zero_add _, Nat.zero_add _⟩

/-- A context in hand has one more sibling, and nothing else about it changes. -/
structure Enlarged (x : Nat) (g g' : Cfg) : Prop where
  hand : g.hand.ctx = some x
  ctx : ∃ ctx ctx', g.core.ctxs.get x = some ctx ∧ g'.core.ctxs.get x = some ctx' ∧
    ctx'.inflight = ctx.inflight + 1 ∧ ctx.stalled = false ∧ ctx'.stalled = false
  parked : g'.core.ctxStalled = g.core.ctxStalled
  frees : g'.core.trace.countP (isCtxFree x) = g.core.trace.countP (isCtxFree x)
  finishes : g'.core.trace.countP (isCtxFinish x) = g.core.trace.countP (isCtxFinish x)

/-- The log shows the first submission of a request for a client. -/
def Submitted (k : Key) (i : Nat) (trace : List Effect) : Prop :=
  ∃ slot r, keyOf r = k ∧ r.retries = 0 ∧ .sqe slot r (some i) ∈ trace

/-- The key of a request that is submitted for the first time. -/
inductive Born (P : Policy) (g g' : Cfg) : Key → Prop
  | io {i : Nat} (hh : g.hand.io = some i)
      (hlog : Submitted ⟨g.core.allocs, .io, some i, none, none, none⟩ i g'.core.trace) :
      Born P g g' ⟨g.core.allocs, .io, some i, none, none, none⟩
  | sibling {x : Nat} (hx : Enlarged x g g')
      (hlog : ∃ ctx, g.core.ctxs.get x = some ctx ∧
        Submitted ⟨g.core.allocs, .io, none, some x, none, none⟩ ctx.io g'.core.trace) :
      Born P g g' ⟨g.core.allocs, .io, none, some x, none, none⟩
  | admin {done : Option Done} {waiter : Option Waiter}
      (hchain : Key.isChain ⟨g.core.allocs, .admin, none, none, done, waiter⟩ = true →
        P.stir ∧ g.hand.owes = true ∧ g'.hand.owes = false)
      (hfeat : Key.isFeatures ⟨g.core.allocs, .admin, none, none, done, waiter⟩ = true →
        g.core.ioTab = SlotTable.gone) :
      Born P g g' ⟨g.core.allocs, .admin, none, none, done, waiter⟩

/-- How a request comes to its end. -/
inductive Ends (P : Policy) (g g' : Cfg) (r : Request) : Prop
  | lost (hlose : P.lose (keyOf r))
  | answered (hio : r.io ≠ none) (hctx : r.ctx = none)
  | freed (hdone : r.done ≠ none)
      (howes : g'.hand.owes = (g.hand.owes || (keyOf r).isChain))
  | dropped (hdone : r.done = none) (hctx : r.ctx = none)
  | collected (hmem : r ∈ g.core.waiting)
  | sibling {x : Nat} {ctx : IoContext} (hctx : r.ctx = some x)
      (hget : g.core.ctxs.get x = some ctx)
      (hget' : g'.core.ctxs.get x = some (ctx.siblingDone r))

/-- What a move does to requests: it carries them or ends one, or it uses up a
number at once, or it launches one. -/
inductive Traffic (P : Policy) (g g' : Cfg) : Prop
  | carry (hreq : ∀ p, reqCount p g' = reqCount p g)
      (hid : ∀ n, idCount n g' = idCount n g) (halloc : g.core.allocs ≤ g'.core.allocs)
  | finish {r : Request} (hends : Ends P g g' r)
      (hreq : ∀ p, reqCount p g' + hit (p ∘ keyOf) (some r) = reqCount p g)
      (hid : ∀ n, idCount n g' ≤ idCount n g) (halloc : g.core.allocs ≤ g'.core.allocs)
  | fizzle (heq : ∀ p, reqCount p g' = reqCount p g)
      (hid : ∀ n, idCount n g' = idCount n g + if n = g.core.allocs then 1 else 0)
      (halloc : g.core.allocs < g'.core.allocs)
  | launch {k : Key} (hborn : Born P g g' k)
      (heq : ∀ p, reqCount p g' = reqCount p g + if p k then 1 else 0)
      (hid : ∀ n, idCount n g' = idCount n g + if n = g.core.allocs then 1 else 0)
      (halloc : g.core.allocs < g'.core.allocs)

/-- A move that leaves the requests and their frees alone. -/
theorem Traffic.same (hreq : ∀ p, reqCount p g' = reqCount p g)
    (hfree : ∀ n, g'.core.trace.countP (isReqFree n) = g.core.trace.countP (isReqFree n))
    (halloc : g.core.allocs ≤ g'.core.allocs) : Traffic P g g' := by
  refine .carry hreq ?_ halloc
  intro n
  unfold idCount
  rw [hreq, hfree]

/-- A move that ends one request and frees it at most once. -/
theorem Traffic.ended {r : Request} {a : Nat} (hends : Ends P g g' r)
    (hreq : ∀ p, reqCount p g' + hit (p ∘ keyOf) (some r) = reqCount p g)
    (hfree : ∀ n, g'.core.trace.countP (isReqFree n) ≤
      g.core.trace.countP (isReqFree n) + if n = r.id then 1 else 0)
    (halloc : g.core.allocs = a) (halloc' : g'.core.allocs = a) : Traffic P g g' := by
  refine .finish hends hreq ?_ (by omega)
  intro n
  have h := hreq (fun k => k.id == n)
  have h' := hfree n
  unfold idCount
  simp only [hit_some, Function.comp, keyOf, beq_iff_eq] at h
  by_cases hn : n = r.id
  · subst hn
    simp only [if_true] at h h'
    omega
  · have hne : ¬r.id = n := fun h => hn h.symm
    simp only [if_neg hn, if_neg hne] at h h'
    omega

/-- A number is used up without a request. -/
theorem Traffic.fizzled (hreq : ∀ p, reqCount p g' = reqCount p g)
    (hfree : ∀ n, g'.core.trace.countP (isReqFree n) =
      g.core.trace.countP (isReqFree n) + if n = g.core.allocs then 1 else 0)
    (halloc : g.core.allocs < g'.core.allocs) : Traffic P g g' := by
  refine .fizzle hreq ?_ halloc
  intro n
  unfold idCount
  rw [hreq, hfree]
  omega

theorem Born.id {k : Key} (hborn : Born P g g' k) : k.id = g.core.allocs := by
  cases hborn <;> rfl

theorem Traffic.launched {k : Key} (hborn : Born P g g' k)
    (hreq : ∀ p, reqCount p g' = reqCount p g + if p k then 1 else 0)
    (hfree : ∀ n, g'.core.trace.countP (isReqFree n) = g.core.trace.countP (isReqFree n))
    (halloc : g.core.allocs < g'.core.allocs) : Traffic P g g' := by
  refine .launch hborn hreq ?_ halloc
  intro n
  unfold idCount
  rw [hreq, hfree]
  simp only [hborn.id, beq_iff_eq, eq_comm (b := n)]
  omega

theorem countP_isReqFree_notes {notes : List Effect} {m : Nat} (n : Nat)
    (hnotes : ∀ e, e ∈ notes → quietFor m e = true) (tr : List Effect) :
    (notes ++ tr).countP (isReqFree n) = tr.countP (isReqFree n) := by
  rw [List.countP_append, countP_notes _ (isReqFree_quietFor n) hnotes, Nat.zero_add]

theorem countP_isReqFree_halting {notes : List Effect} (n : Nat)
    (hnotes : ∀ e, e ∈ notes → halting e = true) (tr : List Effect) :
    (notes ++ tr).countP (isReqFree n) = tr.countP (isReqFree n) := by
  have hzero : notes.countP (isReqFree n) = 0 := by
    rw [List.countP_eq_zero]
    intro e he
    have := hnotes e he
    cases e <;> first | exact Bool.false_ne_true | cases this
  rw [List.countP_append, hzero, Nat.zero_add]

theorem countP_isReqFree_cons (n m : Nat) (tr : List Effect) :
    (Effect.reqFree m :: tr).countP (isReqFree n) =
      tr.countP (isReqFree n) + if n = m then 1 else 0 := by
  rw [List.countP_cons]
  simp only [isReqFree, beq_iff_eq, eq_comm (b := n)]

/-- The rings have no part in it. -/
theorem Born.ring {c : Core} {h : Hand} {k : Key} {q : QueueId} {ρ : Ring}
    (hborn : Born P g ⟨c, h⟩ k) : Born P g ⟨c.setRing q ρ, h⟩ k := by
  cases hborn with
  | io hh hlog => exact .io hh (by simpa using hlog)
  | sibling hx hlog =>
      refine .sibling ⟨hx.hand, ?_, ?_, ?_, ?_⟩ (by simpa using hlog)
      · simpa using hx.ctx
      · simpa using hx.parked
      · simpa using hx.frees
      · simpa using hx.finishes
  | admin hchain hfeat => exact .admin hchain hfeat

theorem Ends.ring {c : Core} {h : Hand} {r : Request} {q : QueueId} {ρ : Ring}
    (hends : Ends P g ⟨c, h⟩ r) : Ends P g ⟨c.setRing q ρ, h⟩ r := by
  cases hends with
  | lost hlose => exact .lost hlose
  | answered hio hctx => exact .answered hio hctx
  | freed hdone howes => exact .freed hdone howes
  | dropped hdone hctx => exact .dropped hdone hctx
  | collected hmem => exact .collected hmem
  | sibling hctx hget hget' => exact .sibling hctx hget (by simpa using hget')

theorem idCount_setRing {c : Core} {h : Hand} {q : QueueId} (ρ : Ring) (n : Nat) :
    idCount n ⟨c.setRing q ρ, h⟩ = idCount n ⟨c, h⟩ := by
  cases q <;> rfl

theorem Traffic.ring {c : Core} {h : Hand} {q : QueueId} {ρ : Ring}
    (ht : Traffic P g ⟨c, h⟩) : Traffic P g ⟨c.setRing q ρ, h⟩ := by
  have halloc : (c.setRing q ρ).allocs = c.allocs := setRing_allocs c q ρ
  cases ht with
  | carry hreq hid hal =>
      refine .carry ?_ ?_ (hal.trans halloc.ge)
      · intro p
        rw [reqCount_setRing]
        exact hreq p
      · intro n
        rw [idCount_setRing]
        exact hid n
  | finish hends hreq hid hal =>
      refine .finish hends.ring ?_ ?_ (hal.trans halloc.ge)
      · intro p
        rw [reqCount_setRing]
        exact hreq p
      · intro n
        rw [idCount_setRing]
        exact hid n
  | fizzle heq hid hal =>
      refine .fizzle ?_ ?_ (hal.trans_le halloc.ge)
      · intro p
        rw [reqCount_setRing]
        exact heq p
      · intro n
        rw [idCount_setRing]
        exact hid n
  | launch hborn heq hid hal =>
      refine .launch hborn.ring ?_ ?_ (hal.trans_le halloc.ge)
      · intro p
        rw [reqCount_setRing]
        exact heq p
      · intro n
        rw [idCount_setRing]
        exact hid n

/-- A move that only logs an effect that owns nothing. -/
theorem Traffic.logged {c : Core} {h h' : Hand} {e : Effect} (he : ownerless e = true)
    (hreq : h'.req = h.req) : Traffic P ⟨c, h⟩ ⟨stamp c c.allocs [e], h'⟩ := by
  refine .same (fun p => reqCount_ownerless p he hreq) ?_ (Nat.le_refl _)
  intro n
  simp only [stamp, List.singleton_append, List.countP_cons, isReqFree_ownerless n he]
  rfl

theorem Traffic.claimed {c : Core} {h h' : Hand} {q : QueueId} {cid n slot us : Nat}
    {rest : List Nat} {notes : List Effect} {owner : Option Nat} {r : Request}
    {ctxs : Heap IoContext}
    (ht : TabOk q (c.tab q)) (hfree : (c.tab q).freeStack = cid :: rest)
    (hn : c.allocs < n) (hnotes : ∀ e, e ∈ notes → quiet e = true)
    (hreq : h'.req = h.req)
    (hborn : Born P ⟨c, h⟩
      ⟨stamp
        (({ c with ctxs := ctxs }).setTab q
          (nvmeInflightClaim (popped (c.tab q) rest) cid { r with submitUs := us }))
        n (.sqe slot r owner :: notes), h'⟩ (keyOf r)) :
    Traffic P ⟨c, h⟩
      ⟨stamp
        (({ c with ctxs := ctxs }).setTab q
          (nvmeInflightClaim (popped (c.tab q) rest) cid { r with submitUs := us }))
        n (.sqe slot r owner :: notes), h'⟩ := by
  have htab : ({ c with ctxs := ctxs }).tab q = c.tab q := by cases q <;> rfl
  refine .launched hborn ?_ ?_ hn
  · intro p
    rw [← htab, reqCount_launched p (htab ▸ ht) (htab ▸ hfree) hnotes]
    simp only [reqCount, hreq, hit_some, Function.comp]
    rfl
  · intro m
    simp only [stamp, setTab_trace]
    exact countP_isReqFree_notes m (quietFor_notes hnotes 0) _

theorem coreReqs_id_le {c : Core} {h : Hand} (hone : ∀ n, idCount n ⟨c, h⟩ ≤ 1) (n : Nat) :
    coreReqs (fun k => k.id == n) c ≤ 1 := by
  have := hone n
  unfold idCount reqCount at this
  dsimp only at this
  omega

theorem torn_finish {x sibs a : Nat} {i : Nat} {b : Bool} {e : Int} {notes : List Effect}
    (p : Key → Bool) (hnotes : ∀ e, e ∈ notes → quiet e = true) :
    torn p (.ctxFree x :: .reply i e a :: (notes ++ [.ctxFinish x b sibs])) = 0 := by
  rw [torn_cons, torn_cons, torn_append, torn_notes p (quietFor_notes hnotes 0)]
  rfl

theorem Move.traffic (htabs : ∀ q, TabOk q (g.core.tab q)) (hone : ∀ n, idCount n g ≤ 1)
    (hm : Move env P g g') : Traffic P g g' := by
  cases hm with
  | accept hq => exact .same (fun _ => rfl) (fun _ => rfl) (Nat.le_refl _)
  | note e hq => exact .logged (quietFor_ownerless hq) rfl
  | translated i cmd htr => exact .logged rfl rfl
  | bell q tail hgate => exact .logged rfl rfl
  | refuse q hfree hring => exact .logged rfl rfl
  | openBatch hb => exact .same (fun _ => rfl) (fun _ => rfl) (Nat.le_refl _)
  | closeBatch hb => exact .same (fun _ => rfl) (fun _ => rfl) (Nat.le_refl _)
  | publish q hstir hhead => exact .ring (.logged rfl rfl)
  | skip q cid hstray => exact .logged rfl rfl
  | burn n => exact .same (fun _ => rfl) (fun _ => rfl) (Nat.le_add_right _ _)
  | limits mz dead => exact .same (fun _ => rfl) (fun _ => rfl) (Nat.le_refl _)
  | phase hstir hp =>
      cases hp <;> exact .same (fun _ => rfl) (fun _ => rfl) (Nat.le_refl _)
  | takeMsg hm hh hq => exact .same (fun _ => rfl) (fun _ => rfl) (Nat.le_refl _)
  | takePending hm hh hq => exact .same (fun _ => rfl) (fun _ => rfl) (Nat.le_refl _)
  | stash hh hq => exact .same (fun _ => rfl) (fun _ => rfl) (Nat.le_refl _)
  | replyHand e a hh hwhy hbad => exact .same (fun _ => rfl) (fun _ => rfl) (Nat.le_refl _)
  | discardHand hh ha => exact .same (fun _ => rfl) (fun _ => rfl) (Nat.le_refl _)
  | @fizzleBare c h =>
      exact .fizzled (fun _ => rfl) (fun n => countP_isReqFree_cons n c.allocs c.trace)
        (Nat.lt_succ_self _)
  | @fizzle c h q cid rest n notes hfree hn hnotes =>
      refine .fizzled (fun p => reqCount_bumped p hnotes c.allocs) ?_ hn
      intro m
      simp only [stamp, setTab_trace, List.cons_append]
      rw [countP_isReqFree_cons, countP_isReqFree_notes m hnotes]
  | @launchIo c h i cid rest n us notes r t hh hreq hctx hfree hn hnotes hkey hcid hret
      hask hcheck hone hof hroom hring hgate =>
      exact .ring (.claimed (htabs .io) hfree hn hnotes rfl
        (hkey ▸ .io hh ⟨_, r, hkey, hret, List.mem_cons_self ..⟩))
  | @launchSib c h x cid rest n us notes r ctx hh hreq hget hfree hn hnotes hkey hcid hret
      hstall hmore hcap hof hring hgate =>
      refine .ring
        (.claimed (htabs .io) hfree hn hnotes rfl (hkey ▸ .sibling ⟨hh, ?_, rfl, ?_, ?_⟩
          ⟨ctx, hget, _, r, hkey, hret, List.mem_cons_self ..⟩))
      · refine ⟨ctx, _, hget, get_modify_self hget, rfl, hstall, hstall⟩
      · exact (ctx_counts_notes x (quietFor_notes hnotes 0) c.trace).1
      · exact (ctx_counts_notes x (quietFor_notes hnotes 0) c.trace).2
  | @launchAdmin c h cid rest n us notes r done waiter hfree hn hnotes hkey hcid hchain
      hfeat =>
      have howes : (keyOf r).isChain = true →
          P.stir ∧ h.owes = true ∧ (h.owes && !(keyOf r).isChain) = false := by
        intro hk
        refine ⟨(hchain hk).1, (hchain hk).2, ?_⟩
        rw [hk]
        exact Bool.and_false _
      refine .ring (.claimed (htabs .admin) hfree hn hnotes rfl ?_)
      rw [hkey] at hfeat howes ⊢
      exact .admin howes hfeat
  | @reapCqe c h q r st res hread hh hctx hst =>
      exact .same (fun p => reqCount_reaped p hread hh rfl rfl rfl)
        (fun n => by simp only [stamp, setTab_trace]; rfl) (Nat.le_refl _)
  | @reapCancel c h q r hread hh hctx hcancel =>
      exact .same (fun p => reqCount_reaped p hread hh rfl rfl rfl)
        (fun n => by simp only [stamp, setTab_trace]; rfl) (Nat.le_refl _)
  | @revise c h r r' notes hh hkey hcmd hbuf hlen hfirst hnotes =>
      exact .same (fun p => reqCount_revised p hh hkey hnotes)
        (fun n => countP_isReqFree_notes n hnotes _) (Nat.le_refl _)
  | @park c h r d hh hret =>
      exact .same (fun p => reqCount_parked p d hh) (fun _ => rfl) (Nat.le_refl _)
  | @unpark c h r hresume hmem hh hctx hroom =>
      exact .same (fun p => reqCount_unparked p hmem (coreReqs_id_le hone r.id) hh)
        (fun _ => rfl) (Nat.le_refl _)
  | @relaunch c h r r' cid rest us hh hctx hr' hret hfree hring hgate =>
      have hkey : keyOf r' = keyOf r := by
        subst hr'
        rfl
      exact .ring (.same (fun p => reqCount_relaunched p hh (htabs r.q) hfree hkey)
        (fun n => by simp only [stamp, setTab_trace]; rfl) (Nat.le_of_eq rfl))
  | @lose c h r cid rest notes hlose hh hfree hnotes =>
      refine .ended (r := r) (a := c.allocs) (.lost hlose) ?_ ?_ rfl rfl
      · intro p
        rw [reqCount_bumped p hnotes]
        exact reqCount_ended p hh rfl
      · intro n
        simp only [stamp, setTab_trace, List.cons_append]
        rw [countP_isReqFree_cons, countP_isReqFree_notes n hnotes]
  | @endReply c h r i a hh hio hctx =>
      have hsome : r.io ≠ none := by
        rw [hio]
        exact Option.some_ne_none i
      exact .ended (.answered hsome hctx) (fun p => reqCount_ended p hh rfl)
        (fun n => (countP_isReqFree_cons n r.id _).le) rfl rfl
  | @endFree c h r hh hdone =>
      exact .ended (.freed hdone rfl) (fun p => reqCount_ended p hh rfl)
        (fun n => (countP_isReqFree_cons n r.id _).le) rfl rfl
  | @endWait c h r hh hdone hwait =>
      exact .same (fun p => reqCount_waiting p hh) (fun _ => rfl) (Nat.le_refl _)
  | @endDrop c h r hh hdone hio hctx =>
      exact .ended (.dropped hdone hctx) (fun p => reqCount_ended p hh rfl)
        (fun n => Nat.le_add_right _ _) rfl rfl
  | @collect c h r rest hw =>
      have hmem : r ∈ c.waiting := by
        rw [hw]
        exact List.mem_cons_self ..
      exact .ended (.collected hmem) (fun p => reqCount_collected p hw)
        (fun n => (countP_isReqFree_cons n r.id _).le) rfl rfl
  | @sibDone c h r x ctx hh hctx hget hnone =>
      exact .ended (.sibling hctx hget (get_modify_self hget)) (fun p => reqCount_ended p hh rfl)
        (fun n => (countP_isReqFree_cons n r.id _).le) rfl rfl
  | allocCtx hh hreq hnone hio hinf hdis herr hstall hask hcheck hof hroom hmany =>
      exact .same (fun _ => rfl) (fun _ => rfl) (Nat.le_succ _)
  | ctxError e hh hget hstall he hwhy =>
      exact .same (fun _ => rfl) (fun _ => rfl) (Nat.le_refl _)
  | stall hh hget hidle hstall hmore =>
      exact .same (fun _ => rfl) (fun _ => rfl) (Nat.le_refl _)
  | unstall hlist hreq hnone hroom => exact .same (fun _ => rfl) (fun _ => rfl) (Nat.le_refl _)
  | dropCtx hh hget hheld => exact .same (fun _ => rfl) (fun _ => rfl) (Nat.le_refl _)
  | @finish c h x ctx notes sibs hh hget hidle hstall hdone hsibs hnotes =>
      refine .same (fun p => reqCount_stamp p (torn_finish p hnotes) rfl) ?_ (Nat.le_refl _)
      intro n
      simp only [stamp, List.cons_append, List.append_assoc]
      exact countP_isReqFree_notes n (quietFor_notes hnotes 0) _
  | freeCtx hh hget hidle hstall hio herr =>
      exact .same (fun _ => rfl) (fun _ => rfl) (Nat.le_refl _)
  | @touch c h q tag us =>
      exact .same (fun p => reqCount_edited p tag _ (fun _ => rfl))
        (fun n => by rw [setTab_trace]) (by simp)
  | @teardown c h q notes hstir hlose hnotes hidle =>
      have hhalt : ∀ e, e ∈ notes → halting e = true := fun e he => (hnotes e he).2
      refine .ring (.same (fun p => reqCount_tornDown p hhalt) ?_ (Nat.le_refl _))
      intro n
      simp only [stamp, setTab_trace, List.cons_append]
      exact countP_isReqFree_halting n hhalt _
  | @setup c h q hstir hvac hio hidle =>
      refine .ring (.same ?_ ?_ (Nat.le_refl _))
      · intro p
        rw [reqCount_ownerless p rfl rfl]
        exact reqCount_fresh p hvac
      · intro n
        simp only [stamp, setTab_trace]
        rfl

end Traffic

/-! ### What a move does to client requests -/

section Clients

variable {env : Env} {P : Policy} {c : Core} {h h' : Hand} {r : Request} {i : Nat}

/-- Where a client request is, requests and contexts apart. -/
def ioElse (i : Nat) (g : Cfg) : Nat :=
  g.core.msgPort.count i + g.core.ioPending.count i + holds g.hand.io i +
    g.core.trace.countP (isReply i)

theorem ioCount_eq (i : Nat) (g : Cfg) :
    ioCount i g = ioElse i g + reqCount (fun k => k.io == some i) g +
      g.core.ctxs.held (fun x => x.io == i) := by
  unfold ioCount ioElse
  omega

/-- The client request of a request. -/
theorem hit_io (i : Nat) (r : Request) :
    hit ((fun k : Key => k.io == some i) ∘ keyOf) (some r) = holds r.io i := by
  simp only [hit_some, Function.comp, keyOf, holds, beq_iff_eq]

theorem countP_isReply_notes {notes : List Effect} {m : Nat} (i : Nat)
    (hnotes : ∀ e, e ∈ notes → quietFor m e = true) (tr : List Effect) :
    (notes ++ tr).countP (isReply i) = tr.countP (isReply i) := by
  rw [List.countP_append, countP_notes _ (isReply_quietFor i) hnotes, Nat.zero_add]

theorem countP_isReply_cons (i j a : Nat) (e : Int) (tr : List Effect) :
    (Effect.reply j e a :: tr).countP (isReply i) =
      tr.countP (isReply i) + holds (some j) i := by
  rw [List.countP_cons]
  simp only [isReply, holds, beq_iff_eq, Option.some.injEq]

theorem count_append_singleton (l : List Nat) (i j : Nat) :
    (l ++ [j]).count i = l.count i + holds (some j) i := by
  simp only [List.count_append, List.count_singleton, holds, beq_iff_eq, Option.some.injEq]

theorem count_cons_holds (l : List Nat) (i j : Nat) :
    (j :: l).count i = l.count i + holds (some j) i := by
  simp only [List.count_cons, holds, beq_iff_eq, Option.some.injEq]

@[simp] theorem holds_none (i : Nat) : holds none i = 0 := rfl

/-- The books of a client request balance over a move, unless it is forgotten. -/
def Balanced (P : Policy) (i : Nat) (g g' : Cfg) : Prop :=
  ioCount i g' + acc i g = ioCount i g + acc i g' ∨
    (∃ k, k.io = some i ∧ P.lose k) ∧ ioCount i g' + acc i g ≤ ioCount i g + acc i g'

/-- What leaves one kind of place enters another. -/
theorem Balanced.moved {g g' : Cfg} (x y z x' y' z' : Nat)
    (helse : ioElse i g' + x = ioElse i g + x')
    (hreq : reqCount (fun k => k.io == some i) g' + y =
      reqCount (fun k => k.io == some i) g + y')
    (hctx : g'.core.ctxs.held (fun x => x.io == i) + z =
      g.core.ctxs.held (fun x => x.io == i) + z')
    (hacc : acc i g' = acc i g) (hsum : x' + y' + z' = x + y + z) : Balanced P i g g' := by
  refine .inl ?_
  rw [ioCount_eq, ioCount_eq, hacc]
  omega

/-- A move that moves nothing between clients' places. -/
theorem Balanced.still {g g' : Cfg} (helse : ioElse i g' = ioElse i g)
    (hreq : reqCount (fun k => k.io == some i) g' = reqCount (fun k => k.io == some i) g)
    (hctx : g'.core.ctxs.held (fun x => x.io == i) =
      g.core.ctxs.held (fun x => x.io == i))
    (hacc : acc i g' = acc i g) : Balanced P i g g' := by
  refine .inl ?_
  rw [ioCount_eq, ioCount_eq, helse, hreq, hctx, hacc]

/-- Ending a request that serves no client. -/
theorem Balanced.ended {g g' : Cfg} (helse : ioElse i g' = ioElse i g)
    (hreq : reqCount (fun k => k.io == some i) g' +
        hit ((fun k : Key => k.io == some i) ∘ keyOf) (some r) =
      reqCount (fun k => k.io == some i) g)
    (hio : r.io = none)
    (hctx : g'.core.ctxs.held (fun x => x.io == i) =
      g.core.ctxs.held (fun x => x.io == i))
    (hacc : acc i g' = acc i g) : Balanced P i g g' := by
  refine .still helse ?_ hctx hacc
  rw [hit_io, hio, holds_none] at hreq
  exact hreq

theorem Safe.sound_of_count {g : Cfg} (hs : Safe g) {l : List Request}
    (hle : l.countP (Key.isUnsound ∘ keyOf) ≤ reqCount Key.isUnsound g)
    (hmem : r ∈ l) : (keyOf r).Sound := by
  have hzero : l.countP (Key.isUnsound ∘ keyOf) = 0 := by
    have := hs.sound
    omega
  have := List.countP_eq_zero.mp hzero r hmem
  simpa [Key.isUnsound] using this

theorem Safe.sound_hand (hs : Safe ⟨c, h⟩) (hh : h.req = some r) : (keyOf r).Sound := by
  refine hs.sound_of_count (l := [r]) ?_ (List.mem_singleton.mpr rfl)
  simp only [reqCount, hh, List.countP_singleton, hit_some]
  omega

theorem Safe.sound_waiting (hs : Safe ⟨c, h⟩) (hmem : r ∈ c.waiting) : (keyOf r).Sound := by
  refine hs.sound_of_count ?_ hmem
  simp only [reqCount, coreReqs]
  omega

/-- Only requests of the I/O queue work for clients. -/
theorem Key.Sound.io_none_of_admin {k : Key} (hk : k.Sound) (hq : k.q ≠ .io) :
    k.io = none ∧ k.ctx = none := by
  refine ⟨?_, ?_⟩
  · by_contra hio
    exact hq (hk.2.1 hio)
  · by_contra hctx
    exact hq (hk.1 hctx).2

theorem Key.Sound.io_none_of_done {k : Key} (hk : k.Sound) (hdone : k.done ≠ none) :
    k.io = none ∧ k.ctx = none :=
  hk.io_none_of_admin (fun hq => hdone (hk.2.2 hq).2.1)

theorem Key.Sound.io_none_of_waiter {k : Key} (hk : k.Sound) (hwait : k.waiter ≠ none) :
    k.io = none ∧ k.ctx = none :=
  hk.io_none_of_admin (fun hq => hwait (hk.2.2 hq).2.2)

/-- The number of the next allocation is not a live context. -/
theorem Safe.get_allocs (hs : Safe ⟨c, h⟩) : c.ctxs.get c.allocs = none := by
  have h := (hs.ctxs c.allocs).once
  simp only [lt_irrefl, if_false] at h
  cases hget : c.ctxs.get c.allocs with
  | none => rfl
  | some ctx =>
      rw [hget] at h
      simp at h

theorem acc_succ (i : Nat) (c c' : Core) (h h' : Hand) (hc : c'.accepted = c.accepted + 1) :
    acc i ⟨c', h'⟩ = acc i ⟨c, h⟩ + holds (some c.accepted) i := by
  simp only [acc, holds, hc, Option.some.injEq]
  split <;> split <;> split <;> omega

theorem Safe.idCount_le {g : Cfg} (hs : Safe g) (n : Nat) : idCount n g ≤ 1 := by
  have := hs.ids n
  split at this <;> omega

theorem ioElse_effects {es : List Effect} (n : Nat) (hio : h'.io = h.io) :
    ioElse i ⟨stamp c n es, h'⟩ = ioElse i ⟨c, h⟩ + es.countP (isReply i) := by
  simp only [ioElse, stamp, hio, List.countP_append]
  omega

theorem ioElse_stamp {es : List Effect} (n : Nat) (hes : es.countP (isReply i) = 0) :
    ioElse i ⟨stamp c n es, h⟩ = ioElse i ⟨c, h⟩ := by
  rw [ioElse_effects n rfl, hes, Nat.add_zero]

theorem ioElse_setTab (q : QueueId) (t : SlotTable) :
    ioElse i ⟨c.setTab q t, h⟩ = ioElse i ⟨c, h⟩ := by
  cases q <;> rfl

theorem acc_setTab (h h' : Hand) (q : QueueId) (t : SlotTable) :
    acc i ⟨c.setTab q t, h'⟩ = acc i ⟨c, h⟩ := by
  cases q <;> rfl

theorem countP_isReply_effect_notes {notes : List Effect} {m : Nat} {e : Effect} (i : Nat)
    (he : isReply i e = false) (hnotes : ∀ e, e ∈ notes → quietFor m e = true) :
    (e :: notes).countP (isReply i) = 0 := by
  rw [List.countP_cons, countP_notes _ (isReply_quietFor i) hnotes, he]
  rfl

theorem countP_isReply_teardown {notes : List Effect} (i : Nat) (reqs : List Request)
    (hnotes : ∀ e, e ∈ notes → halting e = true) :
    (Effect.teardown reqs :: notes).countP (isReply i) = 0 := by
  rw [List.countP_eq_zero]
  intro e he
  rcases List.mem_cons.mp he with rfl | he
  · exact Bool.false_ne_true
  · have := hnotes e he
    cases e <;> first | exact Bool.false_ne_true | cases this

theorem hit_ctx_io (i : Nat) (ctx : IoContext) :
    hit (fun x : IoContext => x.io == i) (some ctx) = holds (some ctx.io) i := by
  simp only [hit_some, holds, beq_iff_eq, Option.some.injEq]

/-- The rings have no part in it. -/
theorem Balanced.ring {g : Cfg} {q : QueueId} {ρ : Ring} (hb : Balanced P i g ⟨c, h⟩) :
    Balanced P i g ⟨c.setRing q ρ, h⟩ := by
  have hcount : ioCount i ⟨c.setRing q ρ, h⟩ = ioCount i ⟨c, h⟩ := by cases q <;> rfl
  have hacc : acc i ⟨c.setRing q ρ, h⟩ = acc i ⟨c, h⟩ := by cases q <;> rfl
  unfold Balanced
  rw [hcount, hacc]
  exact hb

/-- A move that only logs an effect that owns nothing. -/
theorem Balanced.logged {e : Effect} (he : ownerless e = true) (hreq : h'.req = h.req)
    (hio : h'.io = h.io) : Balanced P i ⟨c, h⟩ ⟨stamp c c.allocs [e], h'⟩ := by
  refine .still ?_ (reqCount_ownerless _ he hreq) rfl rfl
  rw [ioElse_effects c.allocs hio, List.countP_singleton, isReply_ownerless i he]
  rfl

theorem Move.clients {g g' : Cfg} (hs : Safe g) (hm : Move env P g g') (i : Nat) :
    Balanced P i g g' := by
  cases hm with
  | @accept c h =>
      refine .inl ?_
      rw [ioCount_eq, ioCount_eq, acc_succ i c { c with
        msgPort := c.msgPort ++ [c.accepted], accepted := c.accepted + 1 } h h rfl]
      simp only [ioElse, count_append_singleton]
      have : reqCount (fun k => k.io == some i) ⟨{ c with
          msgPort := c.msgPort ++ [c.accepted], accepted := c.accepted + 1 }, h⟩ =
        reqCount (fun k => k.io == some i) ⟨c, h⟩ := rfl
      omega
  | note e hq => exact .logged (quietFor_ownerless hq) rfl rfl
  | translated i cmd htr => exact .logged rfl rfl rfl
  | bell q tail hgate => exact .logged rfl rfl rfl
  | refuse q hfree hring => exact .logged rfl rfl rfl
  | openBatch hb => exact .still rfl rfl rfl rfl
  | closeBatch hb => exact .still rfl rfl rfl rfl
  | publish q hstir hhead => exact .ring (.logged rfl rfl rfl)
  | skip q cid hstray => exact .logged rfl rfl rfl
  | burn n => exact .still rfl rfl rfl rfl
  | limits mz dead => exact .still rfl rfl rfl rfl
  | phase hstir hp => cases hp <;> exact .still rfl rfl rfl rfl
  | @takeMsg c h j rest hm hh hq =>
      refine .still ?_ rfl rfl rfl
      simp only [ioElse, hm, hh, count_cons_holds, holds_none]
      omega
  | @takePending c h j rest hm hh hq =>
      refine .still ?_ rfl rfl rfl
      simp only [ioElse, hm, hh, count_cons_holds, holds_none]
      omega
  | @stash c h j hh hq =>
      refine .still ?_ rfl rfl rfl
      simp only [ioElse, hh, count_append_singleton, holds_none]
      omega
  | @replyHand c h j e a hh hwhy hbad =>
      refine .still ?_ rfl rfl rfl
      simp only [ioElse, hh, stamp, List.singleton_append, countP_isReply_cons, holds_none]
      omega
  | @discardHand c h j hh ha =>
      refine .still ?_ rfl rfl rfl
      simp only [ioElse, hh, stamp, List.singleton_append, List.countP_cons, isReply, holds,
        beq_iff_eq, Option.some.injEq, reduceCtorEq, if_false]
      omega
  | fizzleBare => exact .still rfl rfl rfl rfl
  | @fizzle c h q cid rest n notes hfree hn hnotes =>
      refine .still ?_ (reqCount_bumped _ hnotes _) (by simp [stamp])
        (acc_setTab h h q _)
      rw [ioElse_stamp _ (countP_isReply_effect_notes i rfl hnotes), ioElse_setTab]
  | @launchIo c h j cid rest n us notes r t hh hreq hctx hfree hn hnotes hkey hcid hret
      hask hcheck hone hof hroom hring hgate =>
      refine .ring
        (.moved (holds (some j) i) 0 0 0 (holds (some j) i) 0 ?_ ?_ rfl rfl (by omega))
      · rw [ioElse_stamp _ (countP_isReply_effect_notes i rfl (quietFor_notes hnotes 0)),
          ioElse_setTab]
        simp only [ioElse, hh, holds_none]
        omega
      · rw [reqCount_launched _ (hs.tabs .io) hfree hnotes, hit_io,
          show r.io = some j from congrArg Key.io hkey]
        rfl
  | @launchSib c h x cid rest n us notes r ctx hh hreq hget hfree hn hnotes hkey hcid hret
      hstall hmore hcap hof hring hgate =>
      refine .ring (.moved 0 0 0 0 0 0 ?_ ?_ ?_ rfl rfl)
      · rw [ioElse_stamp _ (countP_isReply_effect_notes i rfl (quietFor_notes hnotes 0)),
          ioElse_setTab]
        rfl
      · have := @reqCount_launched c h .io cid n rest r notes (fun k => k.io == some i)
          (c.ring .io).sqTail us (some ctx.io) (hs.tabs .io) hfree hnotes
        have hio : holds r.io i = 0 := by
          rw [show r.io = none from congrArg Key.io hkey]
          rfl
        rw [hit_io, hio] at this
        exact this
      · refine Heap.held_modify_same (fun x : IoContext => x.io == i) c.ctxs x ?_
        intro _
        rfl
  | @launchAdmin c h cid rest n us notes r done waiter hfree hn hnotes hkey hcid hchain
      hfeat =>
      refine .ring (.moved 0 0 0 0 0 0 ?_ ?_ rfl rfl rfl)
      · rw [ioElse_stamp _ (countP_isReply_effect_notes i rfl (quietFor_notes hnotes 0)),
          ioElse_setTab]
        rfl
      · rw [reqCount_launched _ (hs.tabs .admin) hfree hnotes, hit_io,
          show r.io = none from congrArg Key.io hkey]
        rfl
  | @reapCqe c h q r st res hread hh hctx hst =>
      refine .still ?_ (reqCount_reaped _ hread hh rfl rfl rfl) (by simp [stamp])
        (acc_setTab h h q _)
      rw [ioElse_stamp _ rfl, ioElse_setTab]
      rfl
  | @reapCancel c h q r hread hh hctx hcancel =>
      refine .still ?_ (reqCount_reaped _ hread hh rfl rfl rfl) (by simp [stamp])
        (acc_setTab h h q _)
      rw [ioElse_stamp _ rfl, ioElse_setTab]
      rfl
  | @revise c h r r' notes hh hkey hcmd hbuf hlen hfirst hnotes =>
      refine .still ?_ (reqCount_revised _ hh hkey hnotes) rfl rfl
      rw [ioElse_stamp _ (countP_notes _ (isReply_quietFor i) hnotes)]
      rfl
  | @park c h r d hh hret => exact .still rfl (reqCount_parked _ d hh) rfl rfl
  | @unpark c h r hresume hmem hh hctx hroom =>
      exact .still rfl (reqCount_unparked _ hmem (coreReqs_id_le hs.idCount_le r.id) hh) rfl rfl
  | @relaunch c h r r' cid rest us hh hctx hr' hret hfree hring hgate =>
      have hkey : keyOf r' = keyOf r := by
        subst hr'
        rfl
      refine .ring (.still ?_ (reqCount_relaunched _ hh (hs.tabs r.q) hfree hkey)
        (by simp [stamp]) (acc_setTab h h r.q _))
      rw [ioElse_stamp _ rfl, ioElse_setTab]
      rfl
  | @lose c h r cid rest notes hlose hh hfree hnotes =>
      have hreq := @reqCount_ended c h { h with req := none } r (fun k => k.io == some i) hh rfl
      have hacc : acc i ⟨stamp (c.setTab r.q (bumped (c.tab r.q) cid rest)) c.allocs
          (.reqFree r.id :: notes), { h with req := none }⟩ = acc i ⟨c, h⟩ :=
        acc_setTab h h r.q _
      have hsum : ioCount i ⟨stamp (c.setTab r.q (bumped (c.tab r.q) cid rest)) c.allocs
          (.reqFree r.id :: notes), { h with req := none }⟩ + holds r.io i =
            ioCount i ⟨c, h⟩ := by
        rw [ioCount_eq, ioCount_eq, reqCount_bumped _ hnotes,
          ioElse_stamp _ (countP_isReply_effect_notes i rfl hnotes), ioElse_setTab]
        rw [hit_io] at hreq
        simp only [stamp, setTab_ctxs, reqCount, ioElse, hit_none] at hreq ⊢
        omega
      by_cases hio : r.io = some i
      · exact .inr ⟨⟨keyOf r, hio, hlose⟩, by omega⟩
      · rw [show holds r.io i = 0 from if_neg hio] at hsum
        exact .inl (by omega)
  | @endReply c h r j a hh hio hctx =>
      refine .moved 0 (holds (some j) i) 0 (holds (some j) i) 0 0 ?_ ?_ rfl rfl (by omega)
      · have hes : [Effect.reqFree r.id, .reply j (nvmeErrorStatus r.status) a].countP
            (isReply i) = 0 + holds (some j) i :=
          countP_isReply_cons i j a (nvmeErrorStatus r.status) []
        have helse : ioElse i ⟨stamp c c.allocs
            [.reqFree r.id, .reply j (nvmeErrorStatus r.status) a], { h with req := none }⟩ =
            ioElse i ⟨c, h⟩ + (0 + holds (some j) i) := hes ▸ ioElse_effects c.allocs rfl
        omega
      · rw [← hio, ← hit_io]
        exact reqCount_ended _ hh rfl
  | @endFree c h r hh hdone =>
      exact .ended rfl (reqCount_ended _ hh rfl)
        ((hs.sound_hand hh).io_none_of_done hdone).1 rfl rfl
  | @endWait c h r hh hdone hwait => exact .still rfl (reqCount_waiting _ hh) rfl rfl
  | @endDrop c h r hh hdone hio hctx => exact .ended rfl (reqCount_ended _ hh rfl) hio rfl rfl
  | @collect c h r rest hw =>
      have hmem : r ∈ c.waiting := by
        rw [hw]
        exact List.mem_cons_self ..
      exact .ended rfl (reqCount_collected _ hw)
        ((hs.sound_waiting hmem).io_none_of_waiter (hs.waiters r hmem)).1 rfl rfl
  | @sibDone c h r x ctx hh hctx hget hnone =>
      have hio : r.io = none := by
        refine ((hs.sound_hand hh).1 ?_).1
        simp [keyOf, hctx]
      refine .ended rfl (reqCount_ended _ hh rfl) hio ?_ rfl
      have := Heap.held_modify (fun x => x.io == i) (fun _ => ctx.siblingDone r) hget
      rw [hit_ctx_io, hit_ctx_io] at this
      exact Nat.add_right_cancel this
  | @allocCtx c h j ctx t hh hreq hnone hio hinf hdis herr hstall hask hcheck hof
      hroom hmany =>
      refine .moved (holds (some j) i) 0 0 0 0 (holds (some j) i) ?_ rfl ?_ rfl (by omega)
      · simp only [ioElse, hh, holds_none]
        omega
      · rw [← hio, ← hit_ctx_io]
        exact Heap.held_insert (fun x : IoContext => x.io == i) ctx hs.get_allocs
  | @ctxError c h x ctx e hh hget hstall he hwhy =>
      refine .still rfl rfl
        (Heap.held_modify_same (fun x : IoContext => x.io == i) c.ctxs x ?_) rfl
      intro _
      rfl
  | @stall c h x ctx hh hget hidle hstall hmore =>
      refine .still rfl rfl
        (Heap.held_modify_same (fun x : IoContext => x.io == i) c.ctxs x ?_) rfl
      intro _
      rfl
  | @unstall c h x rest hlist hreq hnone hroom =>
      refine .still rfl rfl
        (Heap.held_modify_same (fun x : IoContext => x.io == i) c.ctxs x ?_) rfl
      intro _
      rfl
  | dropCtx hh hget hheld => exact .still rfl rfl rfl rfl
  | @finish c h x ctx notes sibs hh hget hidle hstall hdone hsibs hnotes =>
      refine .moved 0 0 (holds (some ctx.io) i) (holds (some ctx.io) i) 0 0 ?_ ?_ ?_ rfl
        (by omega)
      · have hes : (Effect.ctxFree x ::
            .reply ctx.io ctx.firstError (if ctx.firstError ≠ 0 then 0 else ctx.totalBytes) ::
            (notes ++ [.ctxFinish x (decide (x ∈ c.ctxStalled)) sibs])).countP (isReply i) =
            0 + holds (some ctx.io) i := by
          have hnone : (notes ++ [Effect.ctxFinish x (decide (x ∈ c.ctxStalled)) sibs]).countP
              (isReply i) = 0 := countP_isReply_notes i (quietFor_notes hnotes 0) _
          rw [← hnone]
          exact countP_isReply_cons i ctx.io _ ctx.firstError _
        have helse := hes ▸ @ioElse_effects { c with ctxs := c.ctxs.erase x } h
          { h with ctx := none } i _ c.allocs rfl
        exact helse.trans (congrArg _ (Nat.zero_add _))
      · rw [reqCount_stamp _ (torn_finish _ hnotes) rfl]
        rfl
      · rw [← hit_ctx_io]
        exact Heap.held_erase _ hget
  | @freeCtx c h x ctx hh hget hidle hstall hio herr =>
      refine .moved 0 0 (holds (some ctx.io) i) (holds (some ctx.io) i) 0 0 ?_ rfl ?_ rfl
        (by omega)
      · have hes : [Effect.ctxFree x].countP (isReply i) = 0 := rfl
        simp only [ioElse, hio, holds_none, stamp, List.countP_append, hes]
        omega
      · rw [← hit_ctx_io]
        exact Heap.held_erase _ hget
  | @touch c h q tag us =>
      exact .still (ioElse_setTab q _) (reqCount_edited _ tag _ (fun _ => rfl))
        (by simp) (acc_setTab h h q _)
  | @teardown c h q notes hstir hlose hnotes hidle =>
      have hhalt : ∀ e, e ∈ notes → halting e = true := fun e he => (hnotes e he).2
      refine .ring (.still ?_ (reqCount_tornDown _ hhalt) (by simp [stamp])
        (acc_setTab h h q _))
      rw [ioElse_stamp _ (countP_isReply_teardown i _ hhalt), ioElse_setTab]
  | @setup c h q hstir hvac hio hidle =>
      refine .ring (.still ?_ ?_ (by simp [stamp]) (acc_setTab h h q _))
      · rw [ioElse_stamp _ rfl, ioElse_setTab]
      · rw [reqCount_ownerless _ rfl rfl]
        exact reqCount_fresh _ hvac

end Clients
end Ownership
end NvmeDriver
