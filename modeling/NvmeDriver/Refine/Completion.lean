import NvmeDriver.Refine.Admin

/-!
# Completion refines the machine

`nvme_complete_rq` with a request in hand: the request is ended, parked, submitted
again or, where a retry finds the ring full, forgotten.  Only a rebuild command or
a firmware notice among the admin requests changes the phase.
-/

namespace NvmeDriver
namespace Refine

open Engine
open Lib
open Ownership

variable {env : Env} {P : Policy} {s : State} {r : Request} {i : Option Nat} {a : Nat}
  {b o : Bool}

/-! ### Callbacks -/

section Callbacks

/-- What the completion of an admin request may need. -/
structure AdminOk (P : Policy) (c : Core) (a : Nat) (b : Bool) : Prop where
  stir : P.stir
  idle : a = 0 ∧ b = false
  lose : InReset c.trace → Losable P .io

theorem AdminOk.of_still {c c' : Core} (hok : AdminOk P c a b) (hstill : Still c c') :
    AdminOk P c' a b := by
  refine ⟨hok.stir, hok.idle, fun hin => hok.lose ?_⟩
  unfold InReset at hin ⊢
  rw [hstill.begins, hstill.finishes] at hin
  exact hin

theorem ctrlTransition_resetting {st : CtrlState}
    (hok : ctrlTransition st .resetting = true) : st = .live ∨ st = .new := by
  cases st <;> first | exact .inl rfl | exact .inr rfl | cases hok

theorem nvmeHandleAenNotice_spec {h : Hand} (subtype : Nat) (hstir : P.stir) :
    Goes env P s.core h (nvmeHandleAenNotice s subtype).core h := by
  unfold nvmeHandleAenNotice
  split
  · exact Goes.refl _ _
  · split
    · unfold nvmeChangeCtrlState
      split
      · rename_i heq
        split at heq
        · rename_i hok
          cases heq
          exact .move fun _ => .phase hstir (.aenFw (ctrlTransition_resetting hok))
        · cases heq
      · rename_i heq
        split at heq
        · cases heq
        · cases heq
          exact Goes.refl _ _
    · exact Goes.refl _ _

theorem nvmeCompleteAsyncEvent_spec {h : Hand} (status result : Nat) (hstir : P.stir) :
    Goes env P s.core h (nvmeCompleteAsyncEvent s status result).core h := by
  unfold nvmeCompleteAsyncEvent
  split
  · exact Goes.refl _ _
  · split
    · exact nvmeHandleAenNotice_spec _ hstir
    · split <;> exact Goes.refl _ _

/-- The end of a request that is no step of the rebuild. -/
theorem Goes.freed {d : Done} (hdone : r.done = some d)
    (hplain : (keyOf r).isChain = false) :
    Goes env P s.core ⟨i, some r, none, a, b, o⟩ (s.log (.reqFree r.id)).core
      ⟨i, none, none, a, b, o⟩ := by
  have hgo : Goes env P s.core ⟨i, some r, none, a, b, o⟩ (s.log (.reqFree r.id)).core
      ⟨i, none, none, a, b, o || (keyOf r).isChain⟩ :=
    .move fun _ => .endFree rfl (by rw [hdone]; exact Option.some_ne_none d)
  rw [hplain, Bool.or_false] at hgo
  exact hgo

/-- The end of a step of the rebuild. -/
theorem Goes.chainFreed {d : Done} (hdone : r.done = some d)
    (hchain : (keyOf r).isChain = true) (hs : Safe ⟨s.core, ⟨i, some r, none, a, b, o⟩⟩) :
    o = false ∧ InReset s.core.trace ∧
      Goes env P s.core ⟨i, some r, none, a, b, o⟩ (s.log (.reqFree r.id)).core
        ⟨i, none, none, a, b, true⟩ := by
  have hne : reqCount Key.isChain ⟨s.core, ⟨i, some r, none, a, b, o⟩⟩ ≠ 0 := by
    have hone : hit (Key.isChain ∘ keyOf) (some r) = 1 := by
      rw [hit_some, Function.comp, if_pos hchain]
    unfold reqCount
    rw [hone]
    exact Nat.succ_ne_zero _
  refine ⟨?_, (hs.phase.chain hne).2.2.2, ?_⟩
  · by_contra ho
    exact hne (hs.phase.owes (by simpa using ho)).2.2.1
  · have hgo : Goes env P s.core ⟨i, some r, none, a, b, o⟩ (s.log (.reqFree r.id)).core
        ⟨i, none, none, a, b, o || (keyOf r).isChain⟩ :=
      .move fun _ => .endFree rfl (by rw [hdone]; exact Option.some_ne_none d)
    rw [hchain, Bool.or_true] at hgo
    exact hgo

theorem runDone_spec {d : Done} (hdone : r.done = some d) (hadmin : AdminOk P s.core a b) :
    Goes env P s.core ⟨i, some r, none, a, b, o⟩ (runDone env s r d).core
      ⟨i, none, none, a, b, o⟩ := by
  refine .assume fun hs => ?_
  have hkey : (keyOf r).isChain =
      Key.isChain ⟨0, .admin, none, none, some d, none⟩ := by
    unfold Key.isChain keyOf
    rw [hdone]
  cases d with
  | abortDone => exact Goes.freed hdone hkey
  | aerDone =>
      have hev := @nvmeCompleteAsyncEvent_spec env P s ⟨i, some r, none, a, b, o⟩ r.status
        r.result hadmin.stir
      refine hev.trans ((Goes.freed hdone hkey).trans ?_)
      exact nvmeSubmitAer_spec
  | fwSlotInfoDone =>
      unfold runDone
      dsimp only
      cases hp : r.priv with
      | none => exact Goes.freed hdone hkey
      | some p =>
          have hfree := @Goes.freed env P (s.log (.dmaFreeOther p)) r i a b o _ hdone hkey
          exact (Goes.note (.dmaFreeOther p) rfl).trans hfree
  | ioSetupAsyncFeatures =>
      have hgone : s.core.ioTab = SlotTable.gone := by
        refine hs.phase.features ?_
        have hone : hit (Key.isFeatures ∘ keyOf) (some r) = 1 := by
          rw [hit_some, Function.comp, if_pos]
          unfold Key.isFeatures keyOf
          rw [hdone]
          rfl
        unfold reqCount
        rw [hone]
        exact Nat.succ_ne_zero _
      obtain ⟨rfl, hin, hgo⟩ := @Goes.chainFreed env P s r i a b o _ hdone hkey hs
      exact hgo.trans (nvmeIoSetupAsyncFeatures_spec r.status hadmin.stir (hadmin.lose hin)
        hadmin.idle rfl hgone)
  | ioSetupAsyncCq =>
      obtain ⟨rfl, hin, hgo⟩ := @Goes.chainFreed env P s r i a b o _ hdone hkey hs
      exact hgo.trans (nvmeIoSetupAsyncCq_spec r.status hadmin.stir (hadmin.lose hin)
        hadmin.idle rfl)
  | ioSetupAsyncSq =>
      obtain ⟨rfl, hin, hgo⟩ := @Goes.chainFreed env P s r i a b o _ hdone hkey hs
      exact hgo.trans (nvmeIoSetupAsyncSq_spec r.status hadmin.stir (hadmin.lose hin)
        hadmin.idle rfl)

end Callbacks

/-! ### Ending a request -/

section End

theorem endReq_spec (hctx : r.ctx = none) (hdec : nvmeDecideDisposition r = .complete)
    (hadmin : r.q = .admin → AdminOk P s.core a b) :
    Goes env P s.core ⟨i, some r, none, a, b, o⟩ (endReq env s r).core
      ⟨i, none, none, a, b, o⟩ := by
  refine .assume fun hs => ?_
  unfold endReq
  cases hd : r.done with
  | some d =>
      have hq : r.q = .admin := by
        cases hq : r.q with
        | admin => rfl
        | io =>
            have := ((hs.sound_hand rfl).2.2 hq).2.1
            simp only [keyOf, hd] at this
            cases this
      exact runDone_spec hd (hadmin hq)
  | none =>
      cases hw : r.waiter with
      | some w =>
          refine (Goes.note (.signal w) rfl).trans (.move fun _ => ?_)
          exact .endWait rfl hd (by rw [hw]; exact Option.some_ne_none w)
      | none =>
          cases hio : r.io with
          | some j => exact .move fun _ => .endReply rfl hio hctx rfl hdec
          | none => exact .move fun _ => .endDrop rfl hd hio hctx

theorem nvmePostDma_core (s : State) (r : Request) :
    ∃ notes, (nvmePostDma s r).core = stamp s.core s.core.allocs notes ∧
      ∀ e, e ∈ notes → quiet e = true := by
  unfold nvmePostDma
  split
  · cases r.bounceBuf with
    | some d =>
        refine ⟨[.memcpy r.userBuf d r.userLen, .cacheInval d r.userLen], rfl, ?_⟩
        simp [quiet]
    | none =>
        dsimp only
        split
        · exact ⟨[], rfl, by simp⟩
        · exact ⟨[.cacheInval r.userBuf r.userLen], rfl, by simp [quiet]⟩
  · exact ⟨[], rfl, by simp⟩

theorem nvmeCleanupCmd_core (s : State) (r : Request) :
    ∃ notes, (nvmeCleanupCmd s r).1.core = stamp s.core s.core.allocs notes ∧
      ∀ e, e ∈ notes → quietFor r.id e = true := by
  obtain ⟨notes, hcore, hnotes⟩ := nvmePostDma_core s r
  refine ⟨dmaFrees r ++ notes, ?_, ?_⟩
  · unfold nvmeCleanupCmd
    simp only [nvmeReqFreeDmaBuffers_eq]
    rw [hcore]
    simp [stamp]
  · exact quietFor_append (dmaFrees_quietFor r)
      (fun e he => Refine.quietFor_of_quiet _ (hnotes e he))

theorem nvmeCleanupCmd_spec :
    Goes env P s.core ⟨i, some r, none, a, b, o⟩ (nvmeCleanupCmd s r).1.core
      ⟨i, some r.withoutDma, none, a, b, o⟩ := by
  obtain ⟨notes, heq, hnotes⟩ := nvmeCleanupCmd_core s r
  rw [heq]
  exact .move fun _ => .revise rfl rfl rfl rfl rfl (fun h₁ h₂ => ⟨h₁, h₂⟩) hnotes
    (.same rfl rfl rfl)

theorem completeRequest_endReq (h : r.ctx = none) :
    completeRequest env s r = endReq env (nvmeCleanupCmd s r).1 r.withoutDma := by
  unfold completeRequest
  rw [h]
  rfl

theorem completeRequest_sibling {x : Nat} (h : r.ctx = some x) :
    completeRequest env s r = completeSibling env (nvmeCleanupCmd s r).1 r.withoutDma x := by
  unfold completeRequest
  rw [h]
  rfl

theorem completeRequest_spec (hdec : nvmeDecideDisposition r = .complete)
    (hadmin : r.q = .admin → AdminOk P s.core a b)
    (hgate : r.q = .io → Refill s.core r → P.launch s.core.state s.core.frozen) :
    Goes env P s.core ⟨i, some r, none, a, b, o⟩ (completeRequest env s r).core
      ⟨i, none, none, a, b, o⟩ := by
  refine .assume fun hs => ?_
  have hclean := @nvmeCleanupCmd_spec env P.calm s r i a b o
  obtain ⟨_, heq, _⟩ := nvmeCleanupCmd_core s r
  have hstill := hclean.still hs
  refine hclean.of_calm.trans ?_
  cases hctx : r.ctx with
  | none =>
      rw [completeRequest_endReq hctx]
      exact endReq_spec hctx hdec (fun hq => (hadmin hq).of_still hstill)
  | some x =>
      rw [completeRequest_sibling hctx]
      have hq : r.q = .io := by
        refine ((hs.sound_hand rfl).1 ?_).2
        simp [keyOf, hctx]
      have hsib := @completeSibling_spec env P x (nvmeCleanupCmd s r).1 i a b o r.withoutDma hctx
        hdec
      refine (hsib ?_).of_calm
      rintro ⟨hzero, y, ctx, hy, hget, hmore⟩
      rw [hstill.state, hstill.frozen]
      have hsame : (nvmeCleanupCmd s r).1.core.ctxs = s.core.ctxs := by
        rw [heq]
        rfl
      rw [hsame] at hget
      exact hgate hq ⟨hzero, y, ctx, hy, hget, hmore⟩

end End

/-! ### Retrying -/

section Retry

/-- The completion retries at once. -/
def Retries (r : Request) : Prop :=
  nvmeDecideDisposition r = .retry ∧ statusCrd r.status = 0

/-- The completion may write an SQE: it retries with a tag, or a context goes on. -/
def MayLaunch (s : State) (r : Request) : Prop :=
  Retries r ∧ (s.tab r.q).freeStack ≠ [] ∨ Refill s.core r

/-- The completion retries at once and finds no room in the ring. -/
def RetryFull (s : State) (r : Request) : Prop :=
  Retries r ∧ (s.tab r.q).freeStack ≠ [] ∧ sqFull s r.q

theorem status_ne_of_retry (hdec : nvmeDecideDisposition r = .retry) : r.status ≠ 0 := by
  intro hzero
  unfold nvmeDecideDisposition at hdec
  rw [if_pos hzero] at hdec
  cases hdec

/-- A retry clears the status of the request in hand. -/
theorem Goes.retried {c : Core} (hdec : nvmeDecideDisposition r = .retry) :
    Goes env P c ⟨i, some r, none, a, b, o⟩ c
      ⟨i, some { r with status := 0, retries := r.retries + 1 }, none, a, b, o⟩ :=
  .move fun _ => @Move.revise env P c ⟨i, some r, none, a, b, o⟩ r
    { r with status := 0, retries := r.retries + 1 } [] rfl rfl rfl rfl rfl
    (fun h _ => absurd h (status_ne_of_retry hdec)) (by simp) (.retried hdec rfl rfl)

/-- A retry gives up on the request in hand for want of a tag. -/
theorem Goes.noTag {c : Core} (hfree : (c.tab r.q).freeStack = []) (hret : r.retries ≠ 0)
    (hlive : ¬Doomed r.id c.trace) :
    Goes env P c ⟨i, some r, none, a, b, o⟩ c
      ⟨i, some { r with status := nvmeScHostPathError }, none, a, b, o⟩ :=
  .move fun _ => @Move.revise env P c ⟨i, some r, none, a, b, o⟩ r
    { r with status := nvmeScHostPathError } [] rfl rfl rfl rfl rfl
    (fun _ h => absurd h hret) (by simp) (.noTag hfree hret rfl rfl hlive)

theorem Goes.parked {c : Core} (d : Nat) (hret : r.retries ≠ 0)
    (hdue : c.trace.countP (isSqe r.id) ≤ r.retries) (hlive : ¬Doomed r.id c.trace) :
    Goes env P c ⟨i, some r, none, a, b, o⟩
      { c with retryList := c.retryList ++ [{ r with deadlineUs := d }] }
      ⟨i, none, none, a, b, o⟩ :=
  .move fun _ => .park rfl hret hdue hlive

theorem Goes.relaunched {c : Core} {cid : Nat} {rest : List Nat} (us : Nat)
    (hret : r.retries ≠ 0) (hfree : (c.tab r.q).freeStack = cid :: rest)
    (hring : ¬RingFull (c.tab r.q).depth (c.ring r.q))
    (hgate : r.q = .io → P.launch c.state c.frozen)
    (hdue : c.trace.countP (isSqe r.id) ≤ r.retries) (hlive : ¬Doomed r.id c.trace) :
    Goes env P c ⟨i, some r, none, a, b, o⟩
      (launched c r.q cid rest { r with cid := cid, cmd := { r.cmd with commandId := cid } } us
        c.allocs []) ⟨i, none, none, a, b, o⟩ :=
  .move fun _ => .relaunch rfl rfl rfl hret hfree hring hgate hdue hlive

theorem Holding.reclaimed {q : QueueId} {cid : Nat} {rest : List Nat}
    (ht : TabOk q (s.core.tab q)) (hfree : (s.core.tab q).freeStack = cid :: rest)
    (hcid : r.cid = cid) :
    Holding s.core q cid rest
      (s.setTab q (nvmeInflightClaim (popped (s.tab q) rest) cid r)) r [] := by
  refine ⟨?_, ht, hfree, hcid⟩
  cases q <;> rfl

/-- A retry finds the ring full and its request is destroyed. -/
theorem Goes.lost {cid : Nat} {rest : List Nat} {frees : List Effect} {c : Core}
    (hlose : P.lose (keyOf r)) (hfree : (c.tab r.q).freeStack = cid :: rest)
    (hfrees : ∀ e, e ∈ frees → quietFor r.id e = true)
    (hfull : RingFull (c.tab r.q).depth (c.ring r.q)) :
    Goes env P c ⟨i, some r, none, a, b, o⟩
      (returned c r.q cid rest c.allocs (.reqFree r.id :: (frees ++ [.sqFull r.q])))
      ⟨i, none, none, a, b, o⟩ := by
  have hrefuse : Goes env P c ⟨i, some r, none, a, b, o⟩ (stamp c c.allocs [.sqFull r.q])
      ⟨i, some r, none, a, b, o⟩ := by
    refine .move fun _ => .refuse r.q ?_ hfull
    rw [hfree]
    exact List.cons_ne_nil _ _
  have hend : Goes env P (stamp c c.allocs [.sqFull r.q]) ⟨i, some r, none, a, b, o⟩
      (returned (stamp c c.allocs [.sqFull r.q]) r.q cid rest c.allocs
        (.reqFree r.id :: frees)) ⟨i, none, none, a, b, o⟩ := by
    refine .move fun _ => .lose hlose rfl ?_ hfrees
    rw [stamp_tab]
    exact hfree
  refine hrefuse.trans (hend.trans (Goes.of_eq ?_))
  cases r.q <;> simp [returned, stamp, Core.setTab, Core.tab]

/-- The request in hand is put back into its queue, or given up, or lost. -/
theorem nvmeResubmitIo_spec {complete : State → Request → State} (hret : r.retries ≠ 0)
    (hdue : s.core.trace.countP (isSqe r.id) ≤ r.retries) (hlive : ¬Doomed r.id s.core.trace)
    (hgate : r.q = .io → (s.tab r.q).freeStack ≠ [] → P.launch s.core.state s.core.frozen)
    (hlose : (s.tab r.q).freeStack ≠ [] → sqFull s r.q → P.lose (keyOf r))
    (hcomplete : (s.tab r.q).freeStack = [] →
      Goes env P s.core ⟨i, some { r with status := nvmeScHostPathError }, none, a, b, o⟩
        (complete s { r with status := nvmeScHostPathError }).core ⟨i, none, none, a, b, o⟩) :
    Goes env P s.core ⟨i, some r, none, a, b, o⟩ (nvmeResubmitIo env complete s r).core
      ⟨i, none, none, a, b, o⟩ := by
  refine .assume fun hs => ?_
  unfold nvmeResubmitIo nvmeAllocCid
  cases hfree : (s.tab r.q).freeStack with
  | nil =>
      refine Goes.trans ?_ (hcomplete hfree)
      exact Goes.noTag hfree hret hlive
  | cons cid rest =>
      dsimp only
      have hne : (s.tab r.q).freeStack ≠ [] := by
        rw [hfree]
        exact List.cons_ne_nil _ _
      have hgate : r.q = .io → P.launch s.core.state s.core.frozen := fun hq => hgate hq hne
      let r₁ : Request := { r with cid := cid, cmd := { r.cmd with commandId := cid } }
      let s₁ := s.setTab r.q
        (nvmeInflightClaim { s.tab r.q with freeStack := rest } cid r₁)
      have hh : Holding s.core r.q cid rest s₁ r₁ [] :=
        Holding.reclaimed (hs.tabs r.q) hfree rfl
      change Goes env P s.core ⟨i, some r, none, a, b, o⟩
        (nvmeSubmitIo env s₁ r.q (cidTag cid)).1.core ⟨i, none, none, a, b, o⟩
      rw [hh.nvmeSubmitIo]
      by_cases hfull : Engine.sqFull s₁ r.q
      · rw [if_pos hfull]
        have hring := hh.sqFull.mp hfull
        have hcore := (hh.log (.sqFull r.q)).destroy
        have hal : (s₁.log (.sqFull r.q)).core.allocs = s.core.allocs := setTab_allocs ..
        rw [hal] at hcore
        dsimp only
        rw [hcore]
        exact Goes.lost (hlose hne hring) hfree (dmaFrees_quietFor r₁) hring
      · rw [if_neg hfull]
        refine hh.submitted hgate ?_
        intro us
        have hal : s₁.core.allocs = s.core.allocs := setTab_allocs ..
        rw [hal]
        exact Goes.relaunched us hret hfree (fun h => hfull (hh.sqFull.mpr h)) hgate hdue hlive

/-- `nvme_retry_req`: the request is parked or put back at once. -/
theorem nvmeRetryReq_spec {complete : State → Request → State}
    (hdec : nvmeDecideDisposition r = .retry)
    (hgate : r.q = .io → statusCrd r.status = 0 → (s.tab r.q).freeStack ≠ [] →
      P.launch s.core.state s.core.frozen)
    (hlose : statusCrd r.status = 0 → (s.tab r.q).freeStack ≠ [] → sqFull s r.q →
      P.lose (keyOf r))
    (hcomplete : statusCrd r.status = 0 → (s.tab r.q).freeStack = [] →
      Goes env P s.core
        ⟨i, some { r with status := nvmeScHostPathError, retries := r.retries + 1 }, none, a,
          b, o⟩
        (complete s { r with status := nvmeScHostPathError, retries := r.retries + 1 }).core
        ⟨i, none, none, a, b, o⟩) :
    Goes env P s.core ⟨i, some r, none, a, b, o⟩ (nvmeRetryReq env complete s r).core
      ⟨i, none, none, a, b, o⟩ := by
  refine .assume fun hs => ?_
  obtain ⟨hdue, -, hlive⟩ := hs.writes.hand r rfl
  have hlive := hlive hdec
  have hrevise : Goes env P s.core ⟨i, some r, none, a, b, o⟩ s.core
      ⟨i, some { r with status := 0, retries := r.retries + 1 }, none, a, b, o⟩ :=
    Goes.retried hdec
  unfold nvmeRetryReq
  dsimp only
  split
  · exact hrevise.trans (Goes.parked _ (Nat.succ_ne_zero _) hdue hlive)
  · rename_i hcrd
    have hcrd := not_not.mp hcrd
    refine hrevise.trans (nvmeResubmitIo_spec (Nat.succ_ne_zero _) hdue hlive
      (fun hq => hgate hq hcrd) (hlose hcrd) (hcomplete hcrd))

/-- Every turn of `nvme_complete_rq` ends the request or adds a retry. -/
theorem completeRq_spec (fuel : Nat) :
    ∀ {r : Request}, 0 < fuel → nvmeMaxRetries < fuel + r.retries →
      (r.q = .admin → AdminOk P s.core a b) →
      (r.q = .io → MayLaunch s r → P.launch s.core.state s.core.frozen) →
      (RetryFull s r → P.lose (keyOf r)) →
      Goes env P s.core ⟨i, some r, none, a, b, o⟩ (completeRq env fuel s r).core
        ⟨i, none, none, a, b, o⟩ := by
  induction fuel with
  | zero =>
      intro r hpos
      exact absurd hpos (Nat.lt_irrefl 0)
  | succ fuel ih =>
      intro r _ hmax hadmin hgate hlose
      unfold completeRq
      cases hdis : nvmeDecideDisposition r with
      | complete =>
          refine completeRequest_spec hdis hadmin ?_
          exact fun hq hzero => hgate hq (.inr hzero)
      | retry =>
          have hst : r.status ≠ 0 := status_ne_of_retry hdis
          have hmore : r.retries < nvmeMaxRetries := by
            by_contra hle
            unfold nvmeDecideDisposition at hdis
            rw [if_neg hst, if_pos (.inr (.inr (Nat.le_of_not_lt hle)))] at hdis
            cases hdis
          refine nvmeRetryReq_spec hdis
            (fun hq hcrd hfree => hgate hq (.inl ⟨⟨hdis, hcrd⟩, hfree⟩))
            (fun hcrd hfree hfull => hlose ⟨⟨hdis, hcrd⟩, hfree, hfull⟩) ?_
          intro hcrd hfree
          refine ih (by omega) ?_ hadmin ?_ ?_
          · dsimp only
            omega
          · rintro - (⟨-, hne⟩ | ⟨hzero, -⟩)
            · exact absurd hfree hne
            · exact absurd hzero (by decide : nvmeErrorStatus nvmeScHostPathError ≠ 0)
          · rintro ⟨-, hne, -⟩
            exact absurd hfree hne

/-- `nvme_complete_rq` of a request in hand. -/
theorem nvmeCompleteRq_spec (hadmin : r.q = .admin → AdminOk P s.core a b)
    (hgate : r.q = .io → MayLaunch s r → P.launch s.core.state s.core.frozen)
    (hlose : RetryFull s r → P.lose (keyOf r)) :
    Goes env P s.core ⟨i, some r, none, a, b, o⟩ (nvmeCompleteRq env s r).core
      ⟨i, none, none, a, b, o⟩ :=
  completeRq_spec _ (Nat.succ_pos _) (by omega) hadmin hgate hlose

end Retry

end Refine
end NvmeDriver
