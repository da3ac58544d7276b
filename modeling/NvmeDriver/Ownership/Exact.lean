import NvmeDriver.Ownership.Safe

/-!
# When nothing is forgotten

`Safe` bounds from above: a client request is in at most one place, and a context counts
at least its siblings.  Under a policy that forgets no request of a client both are
exact.
-/

namespace NvmeDriver
namespace Ownership

open Engine
open Lib

/-- The policy forgets no request that serves a client. -/
def Keeping (P : Policy) : Prop := ∀ k : Key, P.lose k → k.io = none ∧ k.ctx = none

section Exact

variable {env : Env} {P : Policy} {g g' : Cfg}

/-! ### Client requests -/

theorem Move.keeps_accepted (hP : Keeping P) (hs : Safe g) (hm : Move env P g g') {i : Nat}
    (hold : ioCount i g = acc i g) : ioCount i g' = acc i g' := by
  rcases hm.clients hs i with h | ⟨⟨k, hk, hlose⟩, -⟩
  · omega
  · rw [(hP k hlose).1] at hk
    cases hk

/-- No request of a client was in a queue that was freed. -/
def TornPlain (g : Cfg) : Prop :=
  ∀ r, r ∈ g.core.trace.flatMap tornReqs → r.io = none ∧ r.ctx = none

theorem TornPlain.torn (hplain : TornPlain g) {p : Key → Bool}
    (hp : ∀ r : Request, p (keyOf r) = true → r.io ≠ none ∨ r.ctx ≠ none) :
    torn p g.core.trace = 0 := by
  unfold Ownership.torn
  rw [List.countP_eq_zero]
  intro r hr hpr
  obtain ⟨hio, hctx⟩ := hplain r hr
  rcases hp r hpr with h | h
  · exact h hio
  · exact h hctx

theorem tornPlain_logged {tr : List Effect} {es : List Effect}
    (hold : ∀ r, r ∈ tr.flatMap tornReqs → r.io = none ∧ r.ctx = none)
    (hes : es.flatMap tornReqs = []) :
    ∀ r, r ∈ (es ++ tr).flatMap tornReqs → r.io = none ∧ r.ctx = none := by
  rw [List.flatMap_append, hes, List.nil_append]
  exact hold

theorem flatMap_tornReqs_nil {es : List Effect} (hes : ∀ e, e ∈ es → tornReqs e = []) :
    es.flatMap tornReqs = [] :=
  List.flatMap_eq_nil_iff.mpr hes

theorem Move.keeps_tornPlain (hP : Keeping P) (hm : Move env P g g') (hold : TornPlain g) :
    TornPlain g' := by
  have hquiet : ∀ {notes : List Effect} {n : Nat} {e : Effect}, tornReqs e = [] →
      (∀ e, e ∈ notes → quietFor n e = true) → (e :: notes).flatMap tornReqs = [] := by
    intro notes n e he hnotes
    rw [List.flatMap_cons, he, List.nil_append]
    exact flatMap_tornReqs_nil fun e' he' => tornReqs_quietFor (hnotes e' he')
  unfold TornPlain at hold ⊢
  cases hm with
  | @note c h e hq =>
      refine tornPlain_logged hold ?_
      rw [List.flatMap_cons, tornReqs_ownerless (quietFor_ownerless hq)]
      rfl
  | @fizzle c h q cid rest n notes hfree hn hnotes =>
      simp only [stamp, setTab_trace]
      exact tornPlain_logged hold (hquiet rfl hnotes)
  | @launchIo c h i cid rest n us notes r t hh hreq hctx hfree hn hnotes hkey hcid hret
      hask hcheck hone hof hroom hring hgate =>
      exact tornPlain_logged hold (hquiet rfl (quietFor_notes hnotes 0))
  | @launchSib c h x cid rest n us notes r ctx hh hreq hget hfree hn hnotes hkey hcid hret
      hstall hmore hcap hof hring hgate =>
      exact tornPlain_logged hold (hquiet rfl (quietFor_notes hnotes 0))
  | @launchAdmin c h cid rest n us notes r done waiter hfree hn hnotes hkey hcid hchain
      hfeat => exact tornPlain_logged hold (hquiet rfl (quietFor_notes hnotes 0))
  | @revise c h r r' notes hh hkey hcmd hbuf hlen hfirst hnotes =>
      refine tornPlain_logged hold (flatMap_tornReqs_nil ?_)
      exact fun e he => tornReqs_quietFor (hnotes e he)
  | @lose c h r cid rest notes hlose hh hfree hnotes =>
      simp only [stamp, setTab_trace]
      exact tornPlain_logged hold (hquiet rfl hnotes)
  | @finish c h x ctx notes sibs hh hget hidle hstall hdone hsibs hnotes =>
      refine tornPlain_logged hold ?_
      rw [List.flatMap_cons, List.flatMap_cons, List.flatMap_append,
        flatMap_tornReqs_nil fun e he =>
          tornReqs_quietFor (quietFor_of_quiet (n := 0) (hnotes e he))]
      rfl
  | @teardown c h q notes hstir hlose hnotes hidle =>
      intro r hr
      simp only [setRing_trace, stamp, setTab_trace, List.flatMap_append,
        List.flatMap_cons] at hr
      have hnil : notes.flatMap tornReqs = [] := by
        refine flatMap_tornReqs_nil fun e he => ?_
        have := (hnotes e he).2
        cases e <;> first | rfl | cases this
      rw [hnil, List.append_nil] at hr
      rcases List.mem_append.mp hr with hr | hr
      · exact hP _ (hlose r hr)
      · exact hold r hr
  | phase hstir hp => cases hp <;> exact hold
  | _ => first
    | exact hold
    | (simp only [sent, stamp, setRing_trace, setTab_trace]
       exact hold)

/-! ### Contexts -/

/-- Every context counts its siblings. -/
def Counted (g : Cfg) : Prop :=
  ∀ x ctx, g.core.ctxs.get x = some ctx → ctx.inflight = sibCount x g

theorem Ends.sound {r : Request} (hs : Safe g)
    (hreq : ∀ p, reqCount p g' + hit (p ∘ keyOf) (some r) = reqCount p g) :
    (keyOf r).Sound := by
  have hzero := hreq Key.isUnsound
  rw [hs.sound] at hzero
  by_contra hno
  have hone : hit (Key.isUnsound ∘ keyOf) (some r) = 1 := by
    rw [hit_some, Function.comp, if_pos]
    simpa [Key.isUnsound] using hno
  omega

/-- A request that ends is a context's only if the context is told. -/
theorem Ends.ctx_none {r : Request} (hP : Keeping P) (hs : Safe g) (hends : Ends P g g' r)
    (hsound : (keyOf r).Sound) :
    r.ctx = none ∨ ∃ x ctx, r.ctx = some x ∧ g.core.ctxs.get x = some ctx ∧
      g'.core.ctxs.get x = some (ctx.siblingDone r) := by
  have hplain : (r.done ≠ none ∨ r.waiter ≠ none) → r.ctx = none := by
    intro h
    by_contra hctx
    have hq := (hsound.1 hctx).2
    obtain ⟨-, hdone, hwait⟩ := hsound.2.2 hq
    rcases h with h | h
    · exact h hdone
    · exact h hwait
  cases hends with
  | lost hlose => exact .inl (hP _ hlose).2
  | answered hio hctx => exact .inl hctx
  | freed hdone howes => exact .inl (hplain (.inl hdone))
  | dropped hdone hctx => exact .inl hctx
  | collected hmem => exact .inl (hplain (.inr (hs.waiters r hmem)))
  | sibling hctx hget hget' => exact .inr ⟨_, _, hctx, hget, hget'⟩

theorem Traffic.sibCount_same (hP : Keeping P) (hs : Safe g) (ht : Traffic P g g') {x : Nat}
    {ctx ctx' : IoContext} (hget : g.core.ctxs.get x = some ctx)
    (hget' : g'.core.ctxs.get x = some ctx') (hinf : ctx'.inflight = ctx.inflight) :
    sibCount x g' = sibCount x g := by
  have hle := (hs.ctxs x).siblings ctx hget
  unfold sibCount at hle ⊢
  cases ht with
  | carry hreq hid halloc => exact hreq _
  | fizzle heq hid halloc => exact heq _
  | @finish r hends hreq hid halloc =>
      have hx := hreq (fun k => k.ctx == some x)
      have hother : r.ctx ≠ some x →
          hit ((fun k : Key => k.ctx == some x) ∘ keyOf) (some r) = 0 := by
        intro hne
        simp [keyOf, hne]
      rcases hends.ctx_none hP hs (Ends.sound hs hreq) with hnone | ⟨y, cy, hy, hgy, hgy'⟩
      · rw [hother (by rw [hnone]; exact (Option.some_ne_none x).symm)] at hx
        exact hx
      · by_cases hyx : y = x
        · -- the context would count one sibling less
          subst hyx
          rw [hget] at hgy
          cases hgy
          rw [hget'] at hgy'
          cases hgy'
          simp only [IoContext.siblingDone] at hinf
          simp only [hit_some, Function.comp, keyOf, hy, BEq.rfl, if_true] at hx
          omega
        · rw [hother (by rw [hy]; simpa using hyx)] at hx
          exact hx
  | launch hborn heq hid halloc =>
      rw [heq]
      cases hborn with
      | io hh => rfl
      | admin hchain hfeat => rfl
      | @sibling y hy =>
          by_cases hyx : y = x
          · subst hyx
            obtain ⟨c₁, c₂, h₁, h₂, hone, -⟩ := hy.ctx
            rw [hget] at h₁
            cases h₁
            rw [hget'] at h₂
            cases h₂
            omega
          · simp [hyx]

theorem get_of_modify {c : Core} {x y : Nat} {f : IoContext → IoContext} {ctx' : IoContext}
    (hget' : (c.ctxs.modify y f).get x = some ctx')
    (hf : ∀ ctx, (f ctx).inflight = ctx.inflight) :
    ∃ ctx, c.ctxs.get x = some ctx ∧ ctx'.inflight = ctx.inflight := by
  rw [Heap.get_modify] at hget'
  split at hget'
  · rename_i hx
    obtain ⟨ctx, hget, rfl⟩ := Option.map_eq_some_iff.mp hget'
    exact ⟨ctx, hx ▸ hget, hf ctx⟩
  · exact ⟨ctx', hget', rfl⟩

theorem get_of_erase {c : Core} {x y : Nat} {ctx' : IoContext}
    (hget' : (c.ctxs.erase y).get x = some ctx') :
    ∃ ctx, c.ctxs.get x = some ctx ∧ ctx'.inflight = ctx.inflight := by
  rw [Heap.get_erase] at hget'
  split at hget'
  · cases hget'
  · exact ⟨ctx', hget', rfl⟩

theorem Move.keeps_counted (hP : Keeping P) (hs : Safe g) (hm : Move env P g g')
    (hold : Counted g) : Counted g' := by
  have ht := hm.traffic hs.tabs hs.idCount_le
  intro x ctx' hget'
  have hsame : (∃ ctx, g.core.ctxs.get x = some ctx ∧ ctx'.inflight = ctx.inflight) →
      ctx'.inflight = sibCount x g' := by
    rintro ⟨ctx, hget, hinf⟩
    rw [ht.sibCount_same hP hs hget hget' hinf, hinf]
    exact hold x ctx hget
  cases hm with
  | @launchSib c h y cid rest n us notes r ctx hh hreq hget hfree hn hnotes hkey hcid hret
      hstall hmore hcap hof hring hgate =>
      by_cases hx : x = y
      · subst hx
        rw [show ctx' = _ from Option.some.inj (hget'.symm.trans (get_modify_self hget))]
        unfold sibCount sent
        rw [reqCount_setRing]
        refine Eq.trans ?_ (reqCount_launched (n := n) _ (hs.tabs .io) hfree hnotes).symm
        rw [hit_some, Function.comp, hkey]
        simp only [BEq.rfl, if_true]
        exact congrArg (· + 1) (hold x ctx hget)
      · refine hsame ⟨ctx', ?_, rfl⟩
        exact (get_modify_other _ hx).symm.trans hget'
  | @sibDone c h r y ctx hh hctx hget hnone =>
      by_cases hx : x = y
      · subst hx
        rw [show ctx' = _ from Option.some.inj (hget'.symm.trans (get_modify_self hget))]
        have hcount := @reqCount_ended c h { h with req := none, ctx := some x } r
          (fun k => k.ctx == some x) hh rfl
        simp only [hit_some, Function.comp, keyOf, hctx, BEq.rfl, if_true] at hcount
        have hinf := hold x ctx hget
        unfold sibCount at hinf ⊢
        dsimp only [IoContext.siblingDone] at hinf ⊢
        change ctx.inflight - 1 = reqCount (fun k => k.ctx == some x)
          ⟨c, { h with req := none, ctx := some x }⟩
        omega
      · refine hsame ⟨ctx', ?_, rfl⟩
        exact (get_modify_other _ hx).symm.trans hget'
  | @allocCtx c h i ctx t hh hreq hnone hio hinf hdis herr hstall hask hcheck hof hroom
      hmany =>
      change (c.ctxs.insert c.allocs ctx).get x = some ctx' at hget'
      rw [Heap.get_insert] at hget'
      split at hget'
      · rename_i hx
        cases hget'
        rw [hinf]
        subst hx
        exact ((hs.ctxs c.allocs).dead hs.get_allocs).1.symm
      · exact hsame ⟨ctx', hget', rfl⟩
  | ctxError e hh hget hstall he hwhy => exact hsame (get_of_modify hget' (fun _ => rfl))
  | stall hh hget hidle hstall hmore => exact hsame (get_of_modify hget' (fun _ => rfl))
  | unstall hlist hreq hnone hroom => exact hsame (get_of_modify hget' (fun _ => rfl))
  | finish hh hget hidle hstall hdone hsibs hnotes => exact hsame (get_of_erase hget')
  | freeCtx hh hget hidle hstall hio herr => exact hsame (get_of_erase hget')
  | phase hstir hp => cases hp <;> exact hsame ⟨ctx', hget', rfl⟩
  | _ => exact hsame ⟨ctx', by simpa [stamp, sent] using hget', rfl⟩

/-- Nothing of a client is forgotten. -/
structure Kept (g : Cfg) : Prop where
  safe : Safe g
  accepted : ∀ i, ioCount i g = acc i g
  torn : TornPlain g
  counted : Counted g

theorem keeps_kept (env : Env) (hP : Keeping P) : Keeps (Move env P) Kept :=
  fun _ _ hk hm =>
    { safe := keeps_safe env P _ _ hk.safe hm
      accepted := fun i => hm.keeps_accepted hP hk.safe (hk.accepted i)
      torn := hm.keeps_tornPlain hP hk.torn
      counted := hm.keeps_counted hP hk.safe hk.counted }

end Exact

end Ownership
end NvmeDriver
