import NvmeDriver.Refine.Dispatch

/-!
# The unit task refines the machine

Draining a completion queue, cancelling, the watchdog, dispatch, reset, shutdown and
the other tasks' steps.  `Meets` says what a step asks of a policy: that what the
driver may lose, where it may submit and when it may resume parked requests is
allowed in the state in which it does so.
-/

namespace NvmeDriver
namespace Refine

open Engine
open Lib
open Ownership

variable {env : Env} {P : Policy} {s : State}

/-! ### What calm code leaves alone -/

section Calm

variable {c c' : Core} {h h' : Hand}

/-- A calm path is an induction over its moves. -/
theorem Goes.calm_induction {I : Cfg → Prop} (hkeep : Keeps (Move env P.calm) I)
    (hg : Goes env P.calm c h c' h') (hs : Safe ⟨c, h⟩) (hI : I ⟨c, h⟩) : I ⟨c', h'⟩ :=
  hkeep.path (hg hs) hI

/-- The I/O queue and its published head stay. -/
def SameQueue (c : Core) (g : Cfg) : Prop :=
  g.core.ioTab.depth = c.ioTab.depth ∧ (g.core.ring .io).cqHead = (c.ring .io).cqHead ∧
    g.core.ioTab.present = c.ioTab.present

theorem keeps_head (env : Env) (P : Policy) (c : Core) :
    Keeps (Move env P.calm) (SameQueue c) := by
  rintro g g' ⟨hd, hh, hp⟩ hm
  cases hm with
  | phase hstir hp => exact hstir.elim
  | publish q hpub hhead => exact hpub.elim
  | teardown q hstir hlose hnotes hidle => exact hstir.elim
  | setup q hstir hvac hio hidle => exact hstir.elim
  | @fizzle c h q cid rest n notes hfree hn hnotes => cases q <;> exact ⟨hd, hh, hp⟩
  | @reapCqe c h q r st res hread hctx hh' hst =>
      cases q with
      | admin => exact ⟨hd, hh, hp⟩
      | io =>
          exact ⟨(release_depth c.ioTab r.cid).trans hd, hh,
            (release_present c.ioTab r.cid).trans hp⟩
  | @reapCancel c h q r hread hctx hh' hcancel =>
      cases q with
      | admin => exact ⟨hd, hh, hp⟩
      | io =>
          exact ⟨(release_depth c.ioTab r.cid).trans hd, hh,
            (release_present c.ioTab r.cid).trans hp⟩
  | @relaunch c h r r' cid rest us hh' hctx hr' hret hfree hring hgate =>
      unfold sent
      cases r.q <;> exact ⟨hd, hh, hp⟩
  | @lose c h r cid rest notes hlose hh' hfree hnotes =>
      cases r.q <;> exact ⟨hd, hh, hp⟩
  | @touch c h q tag us => cases q <;> exact ⟨hd, hh, hp⟩
  | _ => exact ⟨hd, hh, hp⟩

/-- Every SQE is announced, or the code may announce it. -/
def Announced (P : Policy) (c : Core) : Prop :=
  (c.ring .io).lastSqTail = (c.ring .io).sqTail ∨ P.launch c.state c.frozen

theorem keeps_announced (env : Env) (P : Policy) :
    Keeps (Move env P.calm) (fun g => Announced P g.core) := by
  intro g g' hann hm
  cases hm with
  | phase hstir hp => exact hstir.elim
  | publish q hpub hhead => exact hpub.elim
  | teardown q hstir hlose hnotes hidle => exact hstir.elim
  | setup q hstir hvac hio hidle => exact hstir.elim
  | closeBatch hb => exact .inl rfl
  | @launchIo c h i cid rest n us notes r t hh hreq hctx hfree hn hnotes hkey hcid hret
      hask hcheck hone hof hroom hring hgate => exact .inr hgate
  | @launchSib c h x cid rest n us notes r ctx hh hreq hget hfree hn hnotes hkey hcid hret
      hstall hmore hcap hof hring hgate => exact .inr hgate
  | @relaunch c h r r' cid rest us hh hctx hr' hret hfree hring hgate =>
      unfold sent
      cases hq : r.q with
      | admin => exact hann
      | io => exact .inr (hgate hq)
  | @fizzle c h q cid rest n notes hfree hn hnotes => cases q <;> exact hann
  | @reapCqe c h q r st res hread hctx hh hst => cases q <;> exact hann
  | @reapCancel c h q r hread hctx hh hcancel => cases q <;> exact hann
  | @lose c h r cid rest notes hlose hh hfree hnotes => cases r.q <;> exact hann
  | @touch c h q tag us => cases q <;> exact hann
  | _ => exact hann

end Calm

/-! ### Doorbell batches -/

section Batches

variable {i : Option Nat} {a : Nat} {o : Bool}

theorem nvmeSqBatchBegin_spec :
    Goes env P s.core ⟨i, none, none, a, false, o⟩ (nvmeSqBatchBegin s .io).core
      ⟨i, none, none, a, true, o⟩ :=
  .move fun _ => .openBatch rfl

theorem nvmeSqBatchEnd_spec (hann : Announced P s.core) :
    Goes env P s.core ⟨i, none, none, a, true, o⟩ (nvmeSqBatchEnd s .io).core
      ⟨i, none, none, a, false, o⟩ := by
  refine .assume fun hs => ?_
  have hdepth : (s.ring .io).sqBatchDepth = 1 := hs.ring.batch
  have hclose : ∀ c : Core, c.ring .io = s.ring .io →
      Goes env P c ⟨i, none, none, a, true, o⟩
        (c.setRing .io { s.ring .io with sqBatchDepth := 0, lastSqTail := (s.ring .io).sqTail })
        ⟨i, none, none, a, false, o⟩ := by
    intro c hc
    rw [← hc]
    exact .move fun _ => .closeBatch rfl
  have heq : (nvmeSqBatchEnd s .io).core =
      if (s.ring .io).sqTail ≠ (s.ring .io).lastSqTail then
        (s.core.log (.sqDoorbell .io (s.ring .io).sqTail)).setRing .io
          { s.ring .io with sqBatchDepth := 0, lastSqTail := (s.ring .io).sqTail }
      else s.core.setRing .io { s.ring .io with sqBatchDepth := 0 } := by
    unfold nvmeSqBatchEnd
    rw [if_neg (by rw [hdepth]; exact Nat.one_ne_zero)]
    dsimp only
    rw [if_pos (by change (s.ring .io).sqBatchDepth - 1 = 0; rw [hdepth]), nvmeSqCommit_core]
    change (if (s.ring .io).sqTail ≠ (s.ring .io).lastSqTail then _ else _) = _
    split
    · change (s.core.log (.sqDoorbell .io (s.ring .io).sqTail)).setRing .io
        { s.ring .io with
          sqBatchDepth := (s.ring .io).sqBatchDepth - 1
          lastSqTail := (s.ring .io).sqTail } = _
      rw [hdepth]
    · change s.core.setRing .io
        { s.ring .io with sqBatchDepth := (s.ring .io).sqBatchDepth - 1 } = _
      rw [hdepth]
  rw [heq]
  split
  · rename_i hne
    refine Goes.trans (Goes.bell fun _ => ?_) (hclose _ rfl)
    refine ⟨hann.resolve_left fun h => hne h.symm, ?_⟩
    by_contra hpres
    exact hne (hs.ring.rung (.inr (by simpa using hpres))).symm
  · rename_i hsame
    have hgo := hclose s.core rfl
    rw [show (s.ring .io).sqTail = (s.ring .io).lastSqTail from not_not.mp hsame] at hgo
    exact hgo

end Batches

/-! ### Draining a completion queue -/

section Drain

/-- Everything but rebuild commands may be forgotten. -/
def Loses (P : Policy) : Prop := ∀ k : Key, k.isChain = false → P.lose k

theorem Loses.io (hlose : Loses P) : Losable P .io := by
  intro k hsound hq
  refine hlose k ?_
  have hdone : k.done = none := (hsound.2.2 hq).2.1
  unfold Key.isChain
  rw [hdone]
  rfl

/-- The request with what its CQE says. -/
def answered (r : Request) (cqe : Cqe) : Request :=
  { r with status := cqe.status, result := cqe.result }

/-- What handling the CQE of a request asks of the policy. -/
structure AnswerMeets (P : Policy) (s : State) (q : QueueId) (cqe : Cqe) (r : Request) :
    Prop where
  status : P.status q cqe.status
  admin : q = .admin → P.stir ∧ Loses P
  gate : q = .io → Retries (answered r cqe) ∨ Refill s.core (answered r cqe) →
    P.launch s.core.state s.core.frozen
  lose : Retries (answered r cqe) → sqFull s q → P.lose (keyOf r)

/-- What handling a CQE asks of the policy. -/
def CqeMeets (P : Policy) (s : State) (q : QueueId) (cqe : Cqe) : Prop :=
  (matchCqe s q cqe = none → q = .io → P.stray) ∧
    ∀ r, matchCqe s q cqe = some r → AnswerMeets P s q cqe r

/-- What handling a list of CQEs asks of the policy. -/
def DrainMeets (env : Env) (P : Policy) (q : QueueId) : List Cqe → State → Prop
  | [], _ => True
  | cqe :: rest, s =>
      CqeMeets P s q cqe ∧
        ((drainOne env s q cqe).core.unitBlocked = false →
          DrainMeets env P q rest (drainOne env s q cqe))

variable {a : Nat} {b o : Bool} {q : QueueId} {cqes : List Cqe}

theorem releaseSlot_core (s : State) (q : QueueId) (cid : Nat) (e : Effect) :
    ((s.log e).releaseSlot q cid).core =
      stamp (s.core.setTab q (nvmeInflightRelease (s.core.tab q) cid)) s.core.allocs [e] := by
  cases q <;> rfl

theorem sqFull_released (s : State) (q : QueueId) (cid : Nat) (e : Effect) :
    sqFull ((s.log e).releaseSlot q cid) q ↔ sqFull s q := by
  have hring : ((s.log e).releaseSlot q cid).ring q = s.ring q := by
    cases q <;> rfl
  have hdepth : (((s.log e).releaseSlot q cid).tab q).depth = (s.tab q).depth := by
    have htab : ((s.log e).releaseSlot q cid).tab q = nvmeInflightRelease (s.tab q) cid := by
      cases q <;> rfl
    rw [htab]
    exact release_depth _ _
  unfold sqFull
  rw [hring, hdepth]

theorem drainOne_spec (hidle : q = .admin → a = 0 ∧ b = false)
    (hpres : q = .io → s.core.ioTab.present = true) {cqe : Cqe}
    (hmeets : CqeMeets P s q cqe) :
    Goes env P s.core ⟨none, none, none, a, b, o⟩ (drainOne env s q cqe).core
      ⟨none, none, none, a + ioOne q, b, o⟩ := by
  refine .assume fun hs => ?_
  unfold drainOne
  cases hmatch : matchCqe s q cqe with
  | none =>
      refine .move fun _ => .skip q cqe.cid (hmeets.1 hmatch) fun hq => ⟨hpres hq, ?_⟩
      intro tag r hread hcid
      subst hq
      have htag : cidTag cqe.cid = tag := by
        rw [← hcid]
        exact ((hs.tabs .io).slots tag r hread).1
      have hlt : tag < s.core.ioTab.depth := by
        have hlen := (hs.tabs .io).length
        have hlt := Slots.lt_length_of_read hread
        exact hlt.trans_eq hlen
      subst htag
      exact matchCqe_none hmatch hread hlt hcid.symm
  | some r =>
      obtain ⟨hslot, hcid⟩ := matchCqe_some hmatch
      have hanswer := hmeets.2 r hmatch
      have hq : r.q = q := ((hs.tabs q).slots _ r hslot).2
      have hreap : Goes env P s.core ⟨none, none, none, a, b, o⟩
          ((s.log (.cqe q cqe.cid r.id cqe.status)).releaseSlot q r.cid).core
          ⟨none, some (answered r cqe), none, a + ioOne q, b, o⟩ := by
        rw [releaseSlot_core, hcid]
        exact .move fun _ => .reapCqe q hslot rfl rfl hanswer.status
      refine hreap.trans (nvmeCompleteRq_spec ?_ ?_ ?_)
      · intro hradmin
        have hqa : q = .admin := hq.symm.trans hradmin
        obtain ⟨hstir, hlose⟩ := hanswer.admin hqa
        obtain ⟨ha, hb⟩ := hidle hqa
        refine ⟨hstir, ⟨?_, hb⟩, fun _ => hlose.io⟩
        rw [ha, hqa]
        rfl
      · intro hrio hmay
        have hctxs : ((s.log (.cqe q cqe.cid r.id cqe.status)).releaseSlot q r.cid).core.ctxs =
            s.core.ctxs := by
          cases q <;> rfl
        unfold MayLaunch Refill at hmay
        rw [hctxs] at hmay
        have hgo := hanswer.gate (hq.symm.trans hrio) (hmay.imp_left And.left)
        rw [releaseSlot_core]
        simpa [stamp] using hgo
      · rintro ⟨hretry, -, hsq⟩
        refine hanswer.lose hretry ?_
        rw [← sqFull_released s q r.cid (.cqe q cqe.cid r.id cqe.status)]
        have hq' : (answered r cqe).q = q := hq
        rw [hq'] at hsq
        exact hsq

theorem advanceHead_fst {depth head : Nat} (phase : Bool) (hslot : head % depth = head) :
    (advanceHead depth head phase).1 = (head + 1) % depth := by
  unfold advanceHead
  split
  · rename_i heq
    rw [heq, Nat.mod_self]
  · rename_i hne
    rcases Nat.eq_zero_or_pos depth with rfl | hpos
    · exact (Nat.mod_zero _).symm
    · have hlt := Nat.mod_lt head hpos
      exact (Nat.mod_eq_of_lt (by omega)).symm

/-- The local head of the loop runs ahead of the published one. -/
theorem drainLoop_io_spec (cqes : List Cqe) :
    ∀ {s : State} {a head : Nat} {phase : Bool},
      Safe ⟨s.core, ⟨none, none, none, a, b, o⟩⟩ → s.core.unitBlocked = false →
      s.core.ioTab.present = true →
      head = ((s.core.ring .io).cqHead + a) % s.core.ioTab.depth →
      DrainMeets env P .io cqes s →
      ∃ a', Goes env P.calm s.core ⟨none, none, none, a, b, o⟩
          (drainLoop env .io cqes s head phase).1.core ⟨none, none, none, a', b, o⟩ ∧
        (drainLoop env .io cqes s head phase).2.1 =
          ((s.core.ring .io).cqHead + a') % s.core.ioTab.depth := by
  induction cqes with
  | nil =>
      intro s a head phase _ _ _ hhead _
      exact ⟨a, Goes.refl _ _, hhead⟩
  | cons cqe cqes ih =>
      intro s a head phase hs hblk hpres hhead hmeets
      obtain ⟨hone, hrest⟩ := hmeets
      have hgo : Goes env P.calm s.core ⟨none, none, none, a, b, o⟩
          (drainOne env s .io cqe).core ⟨none, none, none, a + 1, b, o⟩ :=
        @drainOne_spec env P.calm s a b o .io (fun h => nomatch h) (fun _ => hpres) cqe
          ⟨hone.1, fun r hr => { (hone.2 r hr) with admin := fun h => nomatch h }⟩
      have hstill := hgo.still hs
      have hkept := hgo.calm_induction
        (keeps_head env P s.core) hs ⟨rfl, rfl, rfl⟩
      have hblk' : (drainOne env s .io cqe).core.unitBlocked = false :=
        hstill.blocked.trans hblk
      unfold drainLoop
      dsimp only
      rw [hblk']
      simp only [Bool.false_eq_true, if_false]
      generalize hs₁ : drainOne env s .io cqe = s₁ at hgo hstill hkept hblk' hrest ⊢
      have hslot : head % s.core.ioTab.depth = head := by
        rw [hhead, Nat.mod_mod]
      have hdepth : (s₁.tab .io).depth = s.core.ioTab.depth := hkept.1
      have hnext : (advanceHead (s₁.tab .io).depth head phase).1 =
          ((s₁.core.ring .io).cqHead + (a + 1)) % s₁.core.ioTab.depth := by
        rw [hdepth, advanceHead_fst phase hslot, hkept.1, hkept.2.1, hhead, Nat.mod_add_mod]
        rfl
      obtain ⟨a', hgo', hhead'⟩ := @ih s₁ (a + 1) _
        (advanceHead (s₁.tab .io).depth head phase).2 (hgo.safe hs) hblk'
        (hkept.2.2.trans hpres) hnext (hrest hblk')
      refine ⟨a', hgo.trans hgo', ?_⟩
      rw [hhead', hkept.1, hkept.2.1]

theorem drainLoop_admin_spec (cqes : List Cqe) :
    ∀ {s : State} {head : Nat} {phase : Bool}, DrainMeets env P .admin cqes s →
      Goes env P s.core ⟨none, none, none, 0, false, o⟩
        (drainLoop env .admin cqes s head phase).1.core ⟨none, none, none, 0, false, o⟩ := by
  induction cqes with
  | nil =>
      intro s head phase _
      exact Goes.refl _ _
  | cons cqe cqes ih =>
      intro s head phase hmeets
      obtain ⟨hone, hrest⟩ := hmeets
      have hgo : Goes env P s.core ⟨none, none, none, 0, false, o⟩
          (drainOne env s .admin cqe).core ⟨none, none, none, 0, false, o⟩ :=
        @drainOne_spec env P s 0 false o .admin (fun _ => ⟨rfl, rfl⟩) (fun h => nomatch h) cqe hone
      unfold drainLoop
      dsimp only
      split
      · exact hgo
      · rename_i hblk
        exact hgo.trans (ih (hrest (by simpa using hblk)))

theorem Goes.published {head : Nat} {phase : Bool} {c : Core} (hpub : P.publish)
    (hhead : q = .io → head = ((c.ring .io).cqHead + a) % c.ioTab.depth)
    (ha : q = .admin → a = 0) :
    Goes env P c ⟨none, none, none, a, b, o⟩
      ((c.setRing q { c.ring q with cqHead := head, cqPhase := phase }).log
        (.cqDoorbell q head)) ⟨none, none, none, 0, b, o⟩ := by
  have hgo : Goes env P c ⟨none, none, none, a, b, o⟩ _
      ⟨none, none, none, if q = .io then 0 else a, b, o⟩ :=
    .move fun _ => @Move.publish env P c ⟨none, none, none, a, b, o⟩ q head phase hpub hhead
  cases q with
  | admin =>
      rw [ha rfl] at hgo ⊢
      exact hgo
  | io => exact hgo

/-- A pass over the I/O completion queue. -/
theorem drainCq_io_spec (hpub : cqes ≠ [] → P.publish)
    (hs : Safe ⟨s.core, ⟨none, none, none, 0, b, o⟩⟩) (hblk : s.core.unitBlocked = false)
    (hmeets : DrainMeets env P .io cqes s) :
    Goes env P s.core ⟨none, none, none, 0, b, o⟩ (drainCq env s .io cqes).core
        ⟨none, none, none, 0, b, o⟩ ∧
      Still s.core (drainCq env s .io cqes).core ∧
      (Announced P s.core → Announced P (drainCq env s .io cqes).core) := by
  unfold drainCq
  split
  · exact ⟨Goes.refl _ _, Still.refl _, id⟩
  · rename_i hsome
    rw [not_or] at hsome
    have hpub := hpub hsome.2
    obtain ⟨a', hgo, hhead⟩ := @drainLoop_io_spec env P b o cqes s 0 (s.ring .io).cqHead
      (s.ring .io).cqPhase hs hblk (by simpa using Bool.not_eq_false _ ▸ hsome.1)
      hs.ring.head.symm hmeets
    have hstill := hgo.still hs
    have hkept := hgo.calm_induction
      (keeps_head env P s.core) hs ⟨rfl, rfl, rfl⟩
    have hann := hgo.calm_induction (keeps_announced env P) hs
    generalize drainLoop env .io cqes s (s.ring .io).cqHead (s.ring .io).cqPhase = p
      at hgo hhead hstill hkept hann ⊢
    obtain ⟨s₁, head, phase⟩ := p
    dsimp only at hgo hhead hstill hkept hann ⊢
    rw [hstill.blocked, hblk]
    simp only [Bool.false_eq_true, if_false]
    have hpub : Goes env P s₁.core ⟨none, none, none, a', b, o⟩ _ ⟨none, none, none, 0, b, o⟩ :=
      @Goes.published env P a' b o .io head phase s₁.core hpub
        (fun _ => by rw [hkept.1, hkept.2.1]; exact hhead) (fun h => nomatch h)
    refine ⟨hgo.of_calm.trans hpub, ?_, hann⟩
    exact ⟨hstill.state, hstill.signal, hstill.running, hstill.blocked, hstill.stopped,
      hstill.frozen, hstill.cap, hstill.begins, hstill.finishes⟩

theorem drainCq_admin_spec (hpub : cqes ≠ [] → P.publish)
    (hmeets : DrainMeets env P .admin cqes s) :
    Goes env P s.core ⟨none, none, none, 0, false, o⟩ (drainCq env s .admin cqes).core
      ⟨none, none, none, 0, false, o⟩ := by
  unfold drainCq
  split
  · exact Goes.refl _ _
  · rename_i hsome
    rw [not_or] at hsome
    have hgo := @drainLoop_admin_spec env P o cqes s (s.ring .admin).cqHead
      (s.ring .admin).cqPhase hmeets
    generalize drainLoop env .admin cqes s (s.ring .admin).cqHead (s.ring .admin).cqPhase = p
      at hgo ⊢
    obtain ⟨s₁, head, phase⟩ := p
    dsimp only at hgo ⊢
    split
    · exact hgo
    · exact hgo.trans (@Goes.published env P 0 false o .admin head phase s₁.core (hpub hsome.2)
        (fun h => nomatch h) (fun _ => rfl))

/-- What the interrupt branch asks of the policy. -/
def ProcessMeets (env : Env) (P : Policy) (s : State) (admin io : List Cqe) : Prop :=
  P.publish ∧ DrainMeets env P .admin admin s ∧
    ((drainCq env s .admin admin).core.unitBlocked = false →
      DrainMeets env P .io io (nvmeSqBatchBegin (drainCq env s .admin admin) .io))

theorem Announced.of_rung {h : Hand} (hs : Safe ⟨s.core, h⟩) (hb : h.batch = false) :
    Announced P s.core := by
  refine .inl (hs.ring.rung (.inl ?_))
  have hbatch := hs.ring.batch
  rw [hb] at hbatch
  exact hbatch

theorem nvmeProcessCompletions_spec {admin io : List Cqe}
    (hmeets : ProcessMeets env P s admin io) :
    Goes env P s.core ⟨none, none, none, 0, false, false⟩
      (nvmeProcessCompletions env s admin io).core ⟨none, none, none, 0, false, false⟩ := by
  refine .assume fun hs => ?_
  obtain ⟨hpub, hadmin, hio⟩ := hmeets
  have hadm := @drainCq_admin_spec env P s false admin (fun _ => hpub) hadmin
  unfold nvmeProcessCompletions
  dsimp only
  generalize drainCq env s .admin admin = s₁ at hadm hio ⊢
  split
  · exact hadm
  · rename_i hblk
    have hblk : s₁.core.unitBlocked = false := by simpa using hblk
    have hs₁ := hadm.safe hs
    have hbegin : Goes env P s₁.core ⟨none, none, none, 0, false, false⟩
        (nvmeSqBatchBegin s₁ .io).core ⟨none, none, none, 0, true, false⟩ :=
      nvmeSqBatchBegin_spec
    have hann₁ : Announced P s₁.core := Announced.of_rung hs₁ rfl
    have hann : Announced P (nvmeSqBatchBegin s₁ .io).core := hann₁
    obtain ⟨hgo, hstill, hkeep⟩ := @drainCq_io_spec env P (nvmeSqBatchBegin s₁ .io) true false
      io (fun _ => hpub) (hbegin.safe hs₁) hblk (hio hblk)
    have hblk₂ : (drainCq env (nvmeSqBatchBegin s₁ .io) .io io).core.unitBlocked = false :=
      hstill.blocked.trans hblk
    rw [hblk₂]
    simp only [Bool.false_eq_true, if_false]
    exact ((hadm.trans hbegin).trans hgo).trans (nvmeSqBatchEnd_spec (hkeep hann))

end Drain

/-! ### Cancelling -/

section Cancel

variable {o : Bool}

/-- `nvme_cancel_request` always completes. -/
theorem nvmeDecideDisposition_cancelled (r : Request) :
    nvmeDecideDisposition { r with status := nvmeScHostAbortedCmd, cancelled := true } =
      .complete := by
  unfold nvmeDecideDisposition
  rw [if_neg (by decide : nvmeScHostAbortedCmd ≠ 0), if_pos (.inl rfl)]

/-- A cancelled request neither retries nor lets its context go on. -/
theorem cancelled_settles (r : Request) :
    let r' := { r with status := nvmeScHostAbortedCmd, cancelled := true }
    (∀ s, ¬MayLaunch s r') ∧ ∀ s, ¬RetryFull s r' := by
  have hdis := nvmeDecideDisposition_cancelled r
  refine ⟨?_, ?_⟩
  · rintro s (⟨⟨h, -⟩, -⟩ | ⟨h, -⟩)
    · rw [hdis] at h
      cases h
    · exact absurd h (by decide : nvmeErrorStatus nvmeScHostAbortedCmd ≠ 0)
  · rintro s ⟨⟨h, -⟩, -⟩
    rw [hdis] at h
    cases h

theorem flushSlot_spec {q : QueueId} (hcancel : P.cancel q)
    (hadmin : q = .admin → P.stir ∧ Loses P) (tag : Nat) :
    Goes env P s.core ⟨none, none, none, 0, false, o⟩ (flushSlot env q s tag).core
      ⟨none, none, none, 0, false, o⟩ := by
  refine .assume fun hs => ?_
  unfold flushSlot
  cases hslot : s.slot q tag with
  | none => exact Goes.refl _ _
  | some r =>
      obtain ⟨htag, hq⟩ := (hs.tabs q).slots tag r hslot
      rw [← htag] at hslot
      obtain ⟨hmay, hfull⟩ := cancelled_settles r
      have hreap : Goes env P s.core ⟨none, none, none, 0, false, o⟩
          ((s.releaseSlot q r.cid).log (.cancel q r.id)).core
          ⟨none, some { r with status := nvmeScHostAbortedCmd, cancelled := true }, none, 0,
            false, o⟩ := by
        have hcore : ((s.releaseSlot q r.cid).log (.cancel q r.id)).core =
            stamp (s.core.setTab q (nvmeInflightRelease (s.core.tab q) r.cid)) s.core.allocs
              [.cancel q r.id] := by
          cases q <;> rfl
        rw [hcore]
        exact .move fun _ => .reapCancel q hslot rfl rfl hcancel
      refine hreap.trans (nvmeCompleteRq_spec ?_ (fun _ h => absurd h (hmay _))
        (fun h => absurd h (hfull _)))
      intro hr
      obtain ⟨hstir, hlose⟩ := hadmin (hq.symm.trans hr)
      exact ⟨hstir, ⟨rfl, rfl⟩, fun _ => hlose.io⟩

theorem foldl_flushSlot_spec {q : QueueId} (hcancel : P.cancel q)
    (hadmin : q = .admin → P.stir ∧ Loses P) (tags : List Nat) :
    ∀ {s : State}, Goes env P s.core ⟨none, none, none, 0, false, o⟩
      (tags.foldl (flushSlot env q) s).core ⟨none, none, none, 0, false, o⟩ := by
  induction tags with
  | nil =>
      intro s
      exact Goes.refl _ _
  | cons tag tags ih =>
      intro s
      exact (flushSlot_spec hcancel hadmin tag).trans ih

theorem nvmeFlushQueueInflight_spec {q : QueueId} (hcancel : P.cancel q)
    (hadmin : q = .admin → P.stir ∧ Loses P) :
    Goes env P s.core ⟨none, none, none, 0, false, o⟩ (nvmeFlushQueueInflight env s q).core
      ⟨none, none, none, 0, false, o⟩ :=
  foldl_flushSlot_spec hcancel hadmin _

end Cancel

/-! ### Watchdog -/

section Watchdog

/-- What force-completing a queue asks of the policy. -/
structure FlushMeets (P : Policy) (q : QueueId) : Prop where
  cancel : P.cancel q
  admin : q = .admin → P.stir ∧ Loses P

theorem nvmeWatchdogEscalate_spec {q : QueueId}
    (hflush : s.core.state ≠ .live → FlushMeets P q) :
    Goes env P s.core ⟨none, none, none, 0, false, false⟩ (nvmeWatchdogEscalate env s q).core
      ⟨none, none, none, 0, false, false⟩ := by
  unfold nvmeWatchdogEscalate
  split
  · exact Goes.refl _ _
  · rename_i hno
    exact nvmeFlushQueueInflight_spec (hflush hno).cancel (hflush hno).admin

theorem editSlot_touch_spec {h : Hand} (q : QueueId) (tag now : Nat) :
    Goes env P s.core h
      (s.editSlot q tag (fun x => { x with abortSent := true, abortUs := now })).core h := by
  have hcore : (s.editSlot q tag (fun x => { x with abortSent := true, abortUs := now })).core =
      s.core.setTab q ((s.core.tab q).edit tag (fun x =>
        { x with abortSent := true, abortUs := now })) := by
    cases q <;> rfl
  rw [hcore]
  exact .move fun _ => .touch q

theorem watchdogScanLoop_spec {q : QueueId} (now : Nat) (tags : List Nat) :
    ∀ {s : State}, Safe ⟨s.core, ⟨none, none, none, 0, false, false⟩⟩ →
      (s.core.state ≠ .live → FlushMeets P q) →
      Goes env P s.core ⟨none, none, none, 0, false, false⟩
        (watchdogScanLoop env q now tags s).core ⟨none, none, none, 0, false, false⟩ := by
  induction tags with
  | nil =>
      intro s _ _
      exact Goes.refl _ _
  | cons tag tags ih =>
      intro s hs hflush
      unfold watchdogScanLoop
      cases hslot : s.slot q tag with
      | none => exact ih hs hflush
      | some r =>
          dsimp only
          cases watchdogVerdict r now with
          | leave => exact ih hs hflush
          | escalate => exact nvmeWatchdogEscalate_spec hflush
          | abort =>
              have hgo := @nvmeSubmitAbortSqe_spec env P.calm ⟨none, none, none, 0, false, false⟩
                s q r.cid
              generalize nvmeSubmitAbortSqe env s q r.cid = p at hgo ⊢
              obtain ⟨s₁, ret⟩ := p
              dsimp only at hgo ⊢
              have hflush₁ : s₁.core.state ≠ .live → FlushMeets P q := by
                rw [(hgo.still hs).state]
                exact hflush
              split
              · exact hgo.of_calm.trans (ih (hgo.safe hs) hflush₁)
              · have htouch : Goes env P.calm s₁.core ⟨none, none, none, 0, false, false⟩ _
                    ⟨none, none, none, 0, false, false⟩ :=
                  editSlot_touch_spec q tag now
                have hall := hgo.trans htouch
                refine hall.of_calm.trans (ih (hall.safe hs) ?_)
                rw [(hall.still hs).state]
                exact hflush

theorem watchdogScanQueue_spec {q : QueueId} (now : Nat)
    (hflush : s.core.state ≠ .live → FlushMeets P q) :
    Goes env P s.core ⟨none, none, none, 0, false, false⟩
      (watchdogScanQueue env s q now).core ⟨none, none, none, 0, false, false⟩ :=
  .assume fun hs => watchdogScanLoop_spec now _ hs hflush

end Watchdog

end Refine
end NvmeDriver
