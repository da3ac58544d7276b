import NvmeDriver.Ownership.Writes

/-!
# The moves keep the invariant

One lemma for each part of `Safe`.  Requests and client requests are counted by
the two summaries of `Traffic`; tables, contexts and phases are looked at move
by move, and only at the moves that touch them.
-/

namespace NvmeDriver
namespace Ownership

open Engine
open Lib

variable {env : Env} {P : Policy} {g g' : Cfg}

/-! ### Tables -/

section Tabs

variable {c : Core} {q : QueueId} {t : SlotTable}

theorem tabs_setTab (htabs : ∀ q, TabOk q (c.tab q)) (ht : TabOk q t) (q' : QueueId) :
    TabOk q' ((c.setTab q t).tab q') := by
  rw [tab_setTab]
  split
  · rename_i h
    subst h
    exact ht
  · exact htabs q'

theorem queueSize_le (q : QueueId) : queueSize q ≤ 4096 := by
  cases q <;> decide

theorem Move.keeps_tabs (hs : Safe g) (hm : Move env P g g') (q : QueueId) :
    TabOk q (g'.core.tab q) := by
  have htabs := hs.tabs
  cases hm with
  | phase hstir hp => cases hp <;> exact htabs q
  | @fizzle c h q₀ cid rest n notes hfree hn hnotes =>
      rw [stamp_tab]
      exact tabs_setTab htabs ((htabs q₀).bump hfree) q
  | @launchIo c h i cid rest n us notes r t hh hreq hctx hfree hn hnotes hkey hcid hret
      hask hcheck hone hof hroom hring hgate =>
      rw [sent_tab]
      refine tabs_setTab htabs ((htabs .io).claim hfree ?_ ?_) q
      · exact hcid
      · exact congrArg Key.q hkey
  | @launchSib c h x cid rest n us notes r ctx hh hreq hget hfree hn hnotes hkey hcid hret
      hstall hmore hcap hof hring hgate =>
      rw [sent_tab]
      refine tabs_setTab ?_ ((htabs .io).claim hfree ?_ ?_) q
      · exact htabs
      · exact hcid
      · exact congrArg Key.q hkey
  | @launchAdmin c h cid rest n us notes r done waiter hfree hn hnotes hkey hcid hchain
      hfeat =>
      rw [sent_tab]
      refine tabs_setTab htabs ((htabs .admin).claim hfree ?_ ?_) q
      · exact hcid
      · exact congrArg Key.q hkey
  | @reapCqe c h q₀ r st res hread hh hctx hst =>
      rw [stamp_tab]
      exact tabs_setTab htabs ((htabs q₀).release hread) q
  | @reapCancel c h q₀ r hread hh hctx hcancel =>
      rw [stamp_tab]
      exact tabs_setTab htabs ((htabs q₀).release hread) q
  | @relaunch c h r r' cid rest us hh hctx hr' hret hfree hring hgate =>
      rw [sent_tab]
      refine tabs_setTab htabs ((htabs r.q).claim hfree ?_ ?_) q <;> rw [hr']
  | @lose c h r cid rest notes hlose hh hfree hnotes =>
      rw [stamp_tab]
      exact tabs_setTab htabs ((htabs r.q).bump hfree) q
  | @touch c h q₀ tag us =>
      refine tabs_setTab htabs ((htabs q₀).edit tag _ ?_ ?_) q <;> exact fun _ => rfl
  | @teardown c h q₀ notes hstir hlose hnotes hidle =>
      rw [setRing_tab, stamp_tab]
      exact tabs_setTab htabs (tabOk_gone q₀) q
  | @setup c h q₀ hstir hvac hio hidle =>
      rw [setRing_tab, stamp_tab]
      exact tabs_setTab htabs (tabOk_fresh q₀ _ (queueSize_le q₀)) q
  | @publish c h q₀ head phase hstir hhead =>
      rw [setRing_tab, stamp_tab]
      exact htabs q
  | accept | note | translated | burn | limits | bell | refuse | openBatch | closeBatch | skip
  | takeMsg | takePending | stash | replyHand | discardHand | fizzleBare | revise | park | unpark
  | endReply | endFree | endWait | endDrop | collect
  | sibDone | allocCtx | ctxError | stall | unstall | dropCtx | finish | freeCtx =>
      cases q <;> first | exact htabs .admin | exact htabs .io

end Tabs

/-! ### Requests -/

section Requests

theorem Born.sound {k : Key} (hborn : Born P g g' k) : k.Sound := by
  cases hborn <;> simp [Key.Sound]

theorem Move.keeps_sound (hs : Safe g) (hm : Move env P g g') :
    reqCount Key.isUnsound g' = 0 := by
  have hzero := hs.sound
  cases hm.traffic hs.tabs hs.idCount_le with
  | carry hreq hid halloc => rw [hreq, hzero]
  | finish hends hreq hid halloc =>
      have := hreq Key.isUnsound
      omega
  | fizzle heq hid halloc => rw [heq, hzero]
  | launch hborn heq hid halloc =>
      rw [heq, hzero, Key.isUnsound, decide_eq_true hborn.sound]
      rfl

theorem Move.keeps_ids (hs : Safe g) (hm : Move env P g g') (n : Nat) :
    idCount n g' ≤ if n < g'.core.allocs then 1 else 0 := by
  have hold := hs.ids n
  cases hm.traffic hs.tabs hs.idCount_le with
  | carry hreq hid halloc =>
      rw [hid]
      split at hold <;> split <;> omega
  | finish hends hreq hid halloc =>
      have := hid n
      split at hold <;> split <;> omega
  | fizzle heq hid halloc =>
      rw [hid]
      split at hold <;> split <;> split <;> omega
  | launch hborn heq hid halloc =>
      rw [hid]
      split at hold <;> split <;> split <;> omega

theorem Move.keeps_ios (hs : Safe g) (hm : Move env P g g') (i : Nat) :
    ioCount i g' ≤ acc i g' := by
  have hold := hs.ios i
  rcases hm.clients hs i with h | ⟨-, h⟩ <;> omega

theorem Move.keeps_waiters (hs : Safe g) (hm : Move env P g g') :
    ∀ r, r ∈ g'.core.waiting → r.waiter ≠ none := by
  have hold := hs.waiters
  cases hm with
  | @endWait c h r hh hdone hwait =>
      intro r' hr'
      rcases List.mem_cons.mp hr' with rfl | hr'
      · exact hwait
      · exact hold r' hr'
  | @collect c h r rest hw =>
      intro r' hr'
      refine hold r' ?_
      change r' ∈ c.waiting
      rw [hw]
      exact List.mem_cons_of_mem _ hr'
  | phase hstir hp => cases hp <;> exact hold
  | _ => simpa [stamp, sent] using hold

theorem Move.keeps_parked (hs : Safe g) (hm : Move env P g g') :
    ∀ r, r ∈ g'.core.retryList → r.retries ≠ 0 := by
  have hold := hs.parked
  cases hm with
  | @park c h r d hh hret =>
      intro r' hr'
      rcases List.mem_append.mp hr' with hr' | hr'
      · exact hold r' hr'
      · rw [List.mem_singleton.mp hr']
        exact hret
  | @unpark c h r hresume hmem hh hctx hroom =>
      exact fun r' hr' => hold r' (List.mem_of_mem_eraseP hr')
  | phase hstir hp => cases hp <;> exact hold
  | _ => simpa [stamp, sent] using hold

theorem inflightCap_pos (env : Env) (depth : Nat) : 0 < inflightCap env depth := by
  unfold inflightCap
  split
  · exact Nat.one_pos
  · split <;> omega

theorem Move.keeps_room (hs : Safe g) (hm : Move env P g g') : 0 < g'.core.ioMaxInflight := by
  have hold := hs.room
  cases hm with
  | phase hstir hp =>
      cases hp with
      | setCap => exact inflightCap_pos env _
      | _ => exact hold
  | _ => simpa [stamp, sent] using hold

end Requests

/-! ### The log -/

section Log

variable {c : Core} {h : Hand} {x : Nat} {ctx : IoContext}

theorem effectOk_quietFor {n : Nat} {e : Effect} (hq : quietFor n e = true) : effectOk e := by
  cases e <;> trivial

theorem effectOk_notes {n : Nat} {e : Effect} {notes : List Effect} (he : effectOk e)
    (hnotes : ∀ e, e ∈ notes → quietFor n e = true) : ∀ e', e' ∈ e :: notes → effectOk e' := by
  intro e' he'
  rcases List.mem_cons.mp he' with rfl | he'
  · exact he
  · exact effectOk_quietFor (hnotes e' he')

@[simp] theorem sent_trace (q : QueueId) (t : SlotTable) (n : Nat) (es : List Effect) :
    (sent c q t n es).trace = (stamp c n es).trace := by
  unfold sent
  rw [setRing_trace]
  simp [stamp]

theorem effects_stamp {n : Nat} {es : List Effect} (hes : ∀ e, e ∈ es → effectOk e)
    (hold : ∀ e, e ∈ c.trace → effectOk e) : ∀ e, e ∈ (stamp c n es).trace → effectOk e := by
  intro e he
  rcases List.mem_append.mp he with he | he
  · exact hes e he
  · exact hold e he

/-- A context that is not marked is not on the list. -/
theorem Safe.not_mem_stalled (hs : Safe ⟨c, h⟩) (hget : c.ctxs.get x = some ctx)
    (hstall : ctx.stalled = false) : x ∉ c.ctxStalled := by
  have := (hs.ctxs x).parked
  rw [hget, hit_some, hstall] at this
  exact List.count_eq_zero.mp this

theorem Move.keeps_effects (hs : Safe g) (hm : Move env P g g') :
    ∀ e, e ∈ g'.core.trace → effectOk e := by
  have hold := hs.effects
  cases hm with
  | note e hq =>
      refine effects_stamp ?_ hold
      intro e' he'
      rw [List.mem_singleton.mp he']
      exact effectOk_quietFor (quietFor_of_quiet (n := 0) hq)
  | translated i cmd htr =>
      refine effects_stamp ?_ hold
      intro e' he'
      rw [List.mem_singleton.mp he']
      trivial
  | revise hh hkey hcmd hbuf hlen hfirst hnotes =>
      exact effects_stamp (fun e he => effectOk_quietFor (hnotes e he)) hold
  | fizzle q hfree hn hnotes =>
      exact effects_stamp (effectOk_notes trivial hnotes) (by rw [setTab_trace]; exact hold)
  | lose hlose hh hfree hnotes =>
      exact effects_stamp (effectOk_notes trivial hnotes) (by rw [setTab_trace]; exact hold)
  | launchIo hh hreq hctx hfree hn hnotes =>
      rw [sent_trace]
      exact effects_stamp (effectOk_notes trivial (quietFor_notes hnotes 0)) hold
  | launchSib hh hreq hget hfree hn hnotes =>
      rw [sent_trace]
      exact effects_stamp (effectOk_notes trivial (quietFor_notes hnotes 0)) hold
  | launchAdmin hfree hn hnotes =>
      rw [sent_trace]
      exact effects_stamp (effectOk_notes trivial (quietFor_notes hnotes 0)) hold
  | teardown q hstir hlose hnotes hidle =>
      rw [setRing_trace]
      refine effects_stamp ?_ (by rw [setTab_trace]; exact hold)
      intro e he
      rcases List.mem_cons.mp he with rfl | he
      · trivial
      · have hhalt := (hnotes e he).2
        cases e <;> trivial
  | @finish c h x ctx notes sibs hh hget hidle hstall hdone hsibs hnotes =>
      refine effects_stamp ?_ hold
      have hsib : sibs = 0 := by
        have := (hs.ctxs x).siblings ctx hget
        omega
      intro e he
      simp only [List.mem_cons, List.mem_append, List.not_mem_nil, or_false] at he
      rcases he with rfl | rfl | he | rfl
      · trivial
      · trivial
      · exact effectOk_quietFor (quietFor_notes hnotes 0 e he)
      · exact ⟨decide_eq_false (hs.not_mem_stalled hget hstall), hsib⟩
  | phase hstir hp => cases hp <;> simpa [stamp, effectOk] using hold
  | _ =>
      simpa [stamp, sent, effectOk] using hold

end Log

/-! ### Phases -/

section Phases

variable {c : Core} {q : QueueId} {t : SlotTable}

theorem ioTab_setTab_gone (ht : q = .io → c.ioTab = SlotTable.gone → t = SlotTable.gone)
    (hgone : c.ioTab = SlotTable.gone) : (c.setTab q t).ioTab = SlotTable.gone := by
  cases q with
  | admin => exact hgone
  | io => exact ht rfl hgone

/-- A queue that is gone has no tag to give. -/
theorem not_gone_of_free {cid : Nat} {rest : List Nat} {G : Prop}
    (hfree : (c.tab q).freeStack = cid :: rest) (hq : q = .io)
    (hgone : c.ioTab = SlotTable.gone) : G := by
  subst hq
  have h : c.ioTab.freeStack = cid :: rest := hfree
  rw [hgone] at h
  cases h

theorem not_gone_of_read {tag : Nat} {r : Request} {G : Prop}
    (hread : (c.tab q).read tag = some r) (hq : q = .io)
    (hgone : c.ioTab = SlotTable.gone) : G := by
  subst hq
  have h : c.ioTab.read tag = some r := hread
  rw [hgone] at h
  simp [SlotTable.gone, SlotTable.read] at h

/-- The effects by which the phase of the controller can be told. -/
def phaseMark : Effect → Bool
  | .phase _ | .resetBegin | .resetFinish _ | .sqCreated => true
  | _ => false

theorem phaseMark_quietFor {n : Nat} {e : Effect} (h : quietFor n e = true) :
    phaseMark e = false := by
  cases e <;> first | rfl | cases h

theorem phaseMark_notes {n : Nat} {e : Effect} {notes : List Effect}
    (he : phaseMark e = false) (hnotes : ∀ e, e ∈ notes → quietFor n e = true) :
    ∀ e', e' ∈ e :: notes → phaseMark e' = false := by
  intro e' he'
  rcases List.mem_cons.mp he' with rfl | he'
  · exact he
  · exact phaseMark_quietFor (hnotes e' he')

/-- The move leaves the phase, the gates and the cap alone; the I/O queue comes back
only in a reset that the running code owes a step. -/
structure Calmly (g g' : Cfg) : Prop where
  state : g'.core.state = g.core.state
  signal : g'.core.fwActSignal = g.core.fwActSignal
  running : g'.core.fwActRunning = g.core.fwActRunning
  blocked : g'.core.unitBlocked = g.core.unitBlocked
  stopped : g'.core.stopped = g.core.stopped
  frozen : g'.core.frozen = g.core.frozen
  cap : g'.core.ioMaxInflight = g.core.ioMaxInflight
  trace : ∃ es, g'.core.trace = es ++ g.core.trace ∧ ∀ e, e ∈ es → phaseMark e = false
  gone : g.core.ioTab = SlotTable.gone → g'.core.ioTab = SlotTable.gone ∨
    g.hand.owes = true ∧ g'.hand = g.hand

/-- Tables, rings and the log change, and no phase. -/
theorem Calmly.tab {h h' : Hand} {n : Nat} {es : List Effect}
    (hes : ∀ e, e ∈ es → phaseMark e = false)
    (hgone : c.ioTab = SlotTable.gone → (c.setTab q t).ioTab = SlotTable.gone ∨
      h.owes = true ∧ h' = h) :
    Calmly ⟨c, h⟩ ⟨stamp (c.setTab q t) n es, h'⟩ where
  state := setTab_state c q t
  signal := setTab_fwActSignal c q t
  running := setTab_fwActRunning c q t
  blocked := setTab_unitBlocked c q t
  stopped := setTab_stopped c q t
  frozen := setTab_frozen c q t
  cap := setTab_ioMaxInflight c q t
  trace := ⟨es, congrArg (es ++ ·) (setTab_trace c q t), hes⟩
  gone := hgone

theorem Calmly.ring {h : Hand} {q : QueueId} {ρ : Ring} (hc : Calmly g ⟨c, h⟩) :
    Calmly g ⟨c.setRing q ρ, h⟩ := by
  obtain ⟨h₁, h₂, h₃, h₄, h₅, h₆, h₇, h₈, h₉⟩ := hc
  constructor <;> simpa

/-- Only effects are logged. -/
theorem Calmly.logged {h h' : Hand} {n : Nat} {es : List Effect}
    (hes : ∀ e, e ∈ es → phaseMark e = false) :
    Calmly ⟨c, h⟩ ⟨stamp c n es, h'⟩ where
  state := rfl
  signal := rfl
  running := rfl
  blocked := rfl
  stopped := rfl
  frozen := rfl
  cap := rfl
  trace := ⟨es, rfl, hes⟩
  gone := .inl

/-- A move changes the phase by a phase move, or leaves it alone. -/
theorem Move.phase_cases (hm : Move env P g g') :
    (P.stir ∧ PhaseMove env P g g') ∨ Calmly g g' := by
  cases hm with
  | phase hstir hp => exact .inl ⟨hstir, hp⟩
  | note e hq =>
      exact .inr (.logged (by simpa using phaseMark_quietFor (quietFor_of_quiet (n := 0) hq)))
  | translated i cmd htr => exact .inr (.logged (by simp [phaseMark]))
  | bell q tail hgate => exact .inr (.logged (by simp [phaseMark]))
  | publish q hstir hhead => exact .inr (.ring (.logged (by simp [phaseMark])))
  | skip q cid hstray => exact .inr (.logged (by simp [phaseMark]))
  | refuse q hfree hring => exact .inr (.logged (by simp [phaseMark]))
  | replyHand e a hh hwhy hbad => exact .inr (.logged (by simp [phaseMark]))
  | discardHand hh ha => exact .inr (.logged (by simp [phaseMark]))
  | fizzleBare => exact .inr (.logged (by simp [phaseMark]))
  | endReply hh hio hctx => exact .inr (.logged (by simp [phaseMark]))
  | endFree hh hdone => exact .inr (.logged (by simp [phaseMark]))
  | revise hh hkey hcmd hbuf hlen hfirst hnotes =>
      exact .inr (.logged (fun e he => phaseMark_quietFor (hnotes e he)))
  | @fizzle c h q cid rest n notes hfree hn hnotes =>
      refine .inr (.tab (phaseMark_notes rfl hnotes) ?_)
      exact fun hgone => .inl (ioTab_setTab_gone (not_gone_of_free hfree) hgone)
  | @launchIo c h i cid rest n us notes r t hh hreq hctx hfree hn hnotes hkey hcid hret
      hask hcheck hone hof hroom hring hgate =>
      refine .inr (.ring (.tab (phaseMark_notes rfl (quietFor_notes hnotes 0)) ?_))
      exact not_gone_of_free hfree rfl
  | @launchSib c h x cid rest n us notes r ctx hh hreq hget hfree hn hnotes hkey hcid hret
      hstall hmore hcap hof hring hgate =>
      have hc : Calmly ⟨c, h⟩ ⟨stamp (c.setTab .io
          (nvmeInflightClaim (popped (c.tab .io) rest) cid { r with submitUs := us })) n
          (.sqe (c.ring .io).sqTail r (some ctx.io) :: notes), h⟩ :=
        .tab (phaseMark_notes rfl (quietFor_notes hnotes 0)) (not_gone_of_free hfree rfl)
      exact .inr ⟨rfl, rfl, rfl, rfl, rfl, rfl, rfl, hc.trace, hc.gone⟩
  | @launchAdmin c h cid rest n us notes r done waiter hfree hn hnotes hkey hcid hchain
      hfeat =>
      refine .inr (.ring (.tab (phaseMark_notes rfl (quietFor_notes hnotes 0)) ?_))
      exact .inl
  | @reapCqe c h q r st res hread hh hctx hst =>
      refine .inr (.tab (by simp [phaseMark]) ?_)
      exact fun hgone => .inl (ioTab_setTab_gone (not_gone_of_read hread) hgone)
  | @reapCancel c h q r hread hh hctx hcancel =>
      refine .inr (.tab (by simp [phaseMark]) ?_)
      exact fun hgone => .inl (ioTab_setTab_gone (not_gone_of_read hread) hgone)
  | @relaunch c h r r' cid rest us hh hctx hr' hret hfree hring hgate =>
      refine .inr (.ring (.tab (by simp [phaseMark]) ?_))
      exact fun hgone => .inl (ioTab_setTab_gone (not_gone_of_free hfree) hgone)
  | @lose c h r cid rest notes hlose hh hfree hnotes =>
      refine .inr (.tab (phaseMark_notes rfl hnotes) ?_)
      exact fun hgone => .inl (ioTab_setTab_gone (not_gone_of_free hfree) hgone)
  | @touch c h q tag us =>
      have hc : Calmly ⟨c, h⟩ ⟨stamp (c.setTab q ((c.tab q).edit tag (fun x =>
          { x with abortSent := true, abortUs := us }))) c.allocs [], h⟩ := by
        refine .tab (by simp) (fun hgone => .inl (ioTab_setTab_gone ?_ hgone))
        intro hq hgone
        subst hq
        rw [show c.tab .io = SlotTable.gone from hgone]
        rfl
      refine .inr ⟨hc.state, hc.signal, hc.running, hc.blocked, hc.stopped, hc.frozen, hc.cap,
        ?_, hc.gone⟩
      exact hc.trace
  | @teardown c h q notes hstir hlose hnotes hidle =>
      refine .inr (.ring (.tab ?_ ?_))
      · intro e he
        rcases List.mem_cons.mp he with rfl | he
        · rfl
        · have := (hnotes e he).2
          cases e <;> first | rfl | cases this
      · exact fun hgone => .inl (ioTab_setTab_gone (fun _ _ => rfl) hgone)
  | @setup c h q hstir hvac hio hidle =>
      refine .inr (.ring (.tab (by simp [phaseMark]) ?_))
      intro hgone
      cases q with
      | admin => exact .inl hgone
      | io => exact .inr ⟨hio rfl, rfl⟩
  | @finish c h x ctx notes sibs hh hget hidle hstall hdone hsibs hnotes =>
      refine .inr ⟨rfl, rfl, rfl, rfl, rfl, rfl, rfl, ⟨_, rfl, ?_⟩, .inl⟩
      intro e he
      simp only [List.mem_cons, List.mem_append, List.not_mem_nil, or_false] at he
      rcases he with rfl | rfl | he | rfl
      · rfl
      · rfl
      · exact phaseMark_quietFor (quietFor_notes hnotes 0 e he)
      · rfl
  | collect hw =>
      exact .inr ⟨rfl, rfl, rfl, rfl, rfl, rfl, rfl, ⟨_, rfl, by simp [phaseMark]⟩, .inl⟩
  | sibDone hh hctx hget hnone =>
      exact .inr ⟨rfl, rfl, rfl, rfl, rfl, rfl, rfl, ⟨_, rfl, by simp [phaseMark]⟩, .inl⟩
  | freeCtx hh hget hidle hstall hio herr =>
      exact .inr ⟨rfl, rfl, rfl, rfl, rfl, rfl, rfl, ⟨_, rfl, by simp [phaseMark]⟩, .inl⟩
  | _ => exact .inr ⟨rfl, rfl, rfl, rfl, rfl, rfl, rfl, ⟨[], rfl, by simp⟩, .inl⟩

theorem Calmly.fwPending (hc : Calmly g g') : fwPending g'.core ↔ fwPending g.core := by
  unfold Ownership.fwPending
  rw [hc.signal, hc.running]

/-- No reset begins or is finished. -/
theorem Calmly.resets (hc : Calmly g g') :
    g'.core.trace.countP isResetBegin = g.core.trace.countP isResetBegin ∧
      g'.core.trace.countP isResetFinish = g.core.trace.countP isResetFinish := by
  obtain ⟨es, htrace, hes⟩ := hc.trace
  have hzero : ∀ p : Effect → Bool, (∀ e, p e = true → phaseMark e = true) →
      es.countP p = 0 := by
    intro p hp
    rw [List.countP_eq_zero]
    intro e he hpe
    exact Bool.false_ne_true ((hes e he).symm.trans (hp e hpe))
  rw [htrace, List.countP_append, List.countP_append, hzero isResetBegin, hzero isResetFinish]
  · exact ⟨Nat.zero_add _, Nat.zero_add _⟩
  · intro e he
    cases e <;> first | rfl | cases he
  · intro e he
    cases e <;> first | rfl | cases he

theorem Key.isChain_of_isFeatures {k : Key} (h : k.isFeatures = true) : k.isChain = true := by
  unfold isFeatures at h
  unfold isChain
  simp [h]

theorem held_mono {p p' : Request → Bool} (himp : ∀ r, p r = true → p' r = true)
    (l : Slots Request) : Slots.held p l ≤ Slots.held p' l := by
  rw [← Slots.countP_filterMap_id, ← Slots.countP_filterMap_id]
  exact List.countP_mono_left (fun r _ => himp r)

theorem reqCount_mono {p p' : Key → Bool} (himp : ∀ k, p k = true → p' k = true) (g : Cfg) :
    reqCount p g ≤ reqCount p' g := by
  have hcomp : ∀ r : Request, (p ∘ keyOf) r = true → (p' ∘ keyOf) r = true :=
    fun r => himp (keyOf r)
  have hhit : hit (p ∘ keyOf) g.hand.req ≤ hit (p' ∘ keyOf) g.hand.req := by
    cases g.hand.req with
    | none => exact Nat.le_refl _
    | some r =>
        simp only [hit_some]
        split
        · rename_i h
          rw [if_pos (hcomp r h)]
        · exact Nat.zero_le _
  have htorn : torn p g.core.trace ≤ torn p' g.core.trace :=
    List.countP_mono_left (fun r _ => hcomp r)
  have hretry : g.core.retryList.countP (p ∘ keyOf) ≤ g.core.retryList.countP (p' ∘ keyOf) :=
    List.countP_mono_left (fun r _ => hcomp r)
  have hwait : g.core.waiting.countP (p ∘ keyOf) ≤ g.core.waiting.countP (p' ∘ keyOf) :=
    List.countP_mono_left (fun r _ => hcomp r)
  have hadmin := held_mono hcomp g.core.adminTab.inflight
  have hio := held_mono hcomp g.core.ioTab.inflight
  unfold reqCount coreReqs
  omega

theorem ChainFree.features (hfree : ChainFree g) : reqCount Key.isFeatures g = 0 := by
  have := reqCount_mono (fun k => @Key.isChain_of_isFeatures k) g
  have := hfree.2.2.1
  omega

/-- Rebuild commands stay what they are, unless the running code launches the one it
owes. -/
theorem Traffic.chain (ht : Traffic P g g') :
    reqCount Key.isChain g' ≤ reqCount Key.isChain g ∨
      P.stir ∧ g.hand.owes = true ∧ g'.hand.owes = false ∧
        reqCount Key.isChain g' = reqCount Key.isChain g + 1 := by
  cases ht with
  | carry hreq hid halloc => exact .inl (hreq _).le
  | finish hends hreq hid halloc => exact .inl (Nat.le_of_add_right_le (hreq _).le)
  | fizzle heq hid halloc => exact .inl (heq _).le
  | launch hborn heq hid halloc =>
      rename_i k
      by_cases hk : k.isChain = true
      · have howes : P.stir ∧ g.hand.owes = true ∧ g'.hand.owes = false := by
          cases hborn with
          | io hh => cases hk
          | sibling hh => cases hk
          | admin hchain hfeat => exact hchain hk
        refine .inr ⟨howes.1, howes.2.1, howes.2.2, ?_⟩
        rw [heq, if_pos hk]
      · refine .inl ?_
        rw [heq, if_neg hk]
        exact Nat.le_refl _

/-- Outside changes of phase, the code comes to owe a step only when it ends a rebuild
command. -/
theorem Move.owes_cases (hm : Move env P g g') (hc : Calmly g g')
    (howes : g'.hand.owes = true) :
    g.hand.owes = true ∨
      reqCount Key.isChain g' + 1 = reqCount Key.isChain g := by
  cases hm with
  | phase hstir hp =>
      cases hp with
      | resetBegin hlive =>
          rcases hlive with h | h
          · exact absurd (hc.state.trans h) (by simp [stamp])
          · exact absurd (hc.state.trans h) (by simp [stamp])
      | resetLive howes' => exact .inl howes'
      | die howes' hgone => exact .inl howes'
      | _ => exact .inl howes
  | @launchAdmin c h cid rest n us notes r done waiter hfree hn hnotes hkey hcid hchain
      hfeat =>
      exact .inl (Bool.and_eq_true_iff.mp howes).1
  | @endFree c h r hh hdone =>
      rcases Bool.or_eq_true_iff.mp howes with h | hk
      · exact .inl h
      · refine .inr ?_
        have := @reqCount_ended c h
          { h with req := none, owes := h.owes || (keyOf r).isChain } r Key.isChain hh rfl
        rw [hit_some, Function.comp, if_pos hk] at this
        exact this
  | _ => exact .inl howes

theorem Traffic.features (ht : Traffic P g g') :
    reqCount Key.isFeatures g' ≤ reqCount Key.isFeatures g ∨
      g.core.ioTab = SlotTable.gone := by
  cases ht with
  | carry hreq hid halloc => exact .inl (hreq _).le
  | finish hends hreq hid halloc => exact .inl (Nat.le_of_add_right_le (hreq _).le)
  | fizzle heq hid halloc => exact .inl (heq _).le
  | launch hborn heq hid halloc =>
      rename_i k
      by_cases hk : k.isFeatures = true
      · cases hborn with
        | io hh => cases hk
        | sibling hh => cases hk
        | admin hchain hfeat => exact .inr (hfeat hk)
      · refine .inl ?_
        rw [heq, if_neg hk]
        exact Nat.le_refl _

theorem settled_of_not_chain (hold : PhaseOk g) (hst : g.core.state ≠ .resetting) :
    reqCount Key.isChain g = 0 ∧ ¬fwPending g.core ∧ Settled g.core.trace := by
  refine ⟨?_, fun h => hst (hold.fw h), hold.settled (.inl hst)⟩
  by_contra hne
  exact hst (hold.chain hne).2.1

theorem settled_cons {tr : List Effect} {es : List Effect} (hin : InReset tr)
    (hb : es.countP isResetBegin = 0) (hf : es.countP isResetFinish = 1) :
    Settled (es ++ tr) := by
  unfold InReset at hin
  unfold Settled
  rw [List.countP_append, List.countP_append, hb, hf, hin]
  omega

theorem PhaseMove.keeps (hp : PhaseMove env P g g') (hold : PhaseOk g) : PhaseOk g' := by
  obtain ⟨c, h⟩ := g
  have hidle := settled_of_not_chain hold
  obtain ⟨howes, hchain, hfw, honce, hfeat, hterm, hres, hset⟩ := hold
  have hnoOwes : fwPending c → h.owes ≠ true := fun hpend h => (howes h).2.1 hpend
  cases hp with
  | aenFw hlive =>
      obtain ⟨hnone, hnofw, hall⟩ := hidle (by rcases hlive with h | h <;> rw [h] <;> decide)
      refine ⟨?_, fun hne => absurd hnone hne, fun _ => rfl, fun hrun => absurd (.inr hrun) hnofw,
        hfeat, fun _ _ h => absurd rfl h, .inr hall, fun _ => hall⟩
      intro h
      have hst := (howes h).1
      rcases hlive with hl | hl <;> cases hst.symm.trans hl
  | fwBegin hsig =>
      have hstate := hfw (.inl hsig)
      exact ⟨fun h => absurd h (hnoOwes (.inl hsig)),
        fun hne => absurd (.inl hsig) (hchain hne).2.2.1, fun _ => hstate, fun _ => rfl, hfeat,
        hterm, hres, fun _ => hset (.inr (.inl hsig))⟩
  | fwTimeout hrun htime =>
      have hstate := hfw (.inr hrun)
      exact ⟨fun h => absurd h (hnoOwes (.inr hrun)),
        fun hne => absurd (.inr hrun) (hchain hne).2.2.1, fun _ => hstate,
        fun h => (nomatch h), hfeat, hterm,
        hres, fun _ => hset (.inr (.inr hrun))⟩
  | fwLive hrun hsig =>
      refine ⟨fun h => absurd h (hnoOwes (.inr hrun)),
        fun hne => absurd (.inr hrun) (hchain hne).2.2.1, ?_, fun h => (nomatch h), hfeat,
        fun _ h => absurd rfl h, hres, fun _ => hset (.inr (.inr hrun))⟩
      intro hpend
      rcases hpend with h | h
      · exact Bool.noConfusion (h.symm.trans hsig)
      · cases h
  | resetBegin hlive =>
      obtain ⟨hnone, hnofw, hall⟩ := hidle (by rcases hlive with h | h <;> rw [h] <;> decide)
      have hin : InReset (.resetBegin :: .phase .resetting :: c.trace) := by
        simp only [InReset, List.countP_cons, isResetBegin, isResetFinish, if_true,
          Bool.false_eq_true, if_false, Nat.add_zero]
        exact congrArg (· + 1) hall
      refine ⟨fun _ => ⟨rfl, hnofw, hnone, hin⟩, fun hne => absurd hnone hne, fun _ => rfl,
        honce, hfeat, fun _ _ h => absurd rfl h, .inl hin, ?_⟩
      intro hor
      rcases hor with h | h
      · exact absurd rfl h
      · exact absurd h hnofw
  | resetLive how =>
      have hfree := howes how
      have hall := @settled_cons c.trace
        [.phase .live, .phase .connecting, .resetFinish true, .sqCreated] hfree.2.2.2 rfl rfl
      exact ⟨fun h => (nomatch h), fun hne => absurd hfree.2.2.1 hne,
        fun hpend => absurd hpend hfree.2.1, honce, hfeat, fun _ h => absurd rfl h, .inr hall,
        fun _ => hall⟩
  | die how hgone =>
      have hfree := howes how
      have hall := @settled_cons c.trace
        [.phase .dead, .phase .deleting, .resetFinish false] hfree.2.2.2 rfl rfl
      exact ⟨fun h => (nomatch h), fun hne => absurd hfree.2.2.1 hne,
        fun hpend => absurd hpend hfree.2.1, honce, hfeat, fun _ _ _ => hgone, .inr hall,
        fun _ => hall⟩
  | block hmask => exact ⟨howes, hchain, hfw, honce, hfeat, hterm, hres, hset⟩
  | quiesce => exact ⟨howes, hchain, hfw, honce, hfeat, hterm, hres, hset⟩
  | unquiesce hlive => exact ⟨howes, hchain, hfw, honce, hfeat, hterm, hres, hset⟩
  | freeze b => exact ⟨howes, hchain, hfw, honce, hfeat, hterm, hres, hset⟩
  | setCap => exact ⟨howes, hchain, hfw, honce, hfeat, hterm, hres, hset⟩

/-- A calm move keeps the reset with the code that owes it a step. -/
theorem Move.keeps_owes (hs : Safe g) (hm : Move env P g g') (hc : Calmly g g')
    (howes : g'.hand.owes = true) : ChainFree g' := by
  have hin : InReset g'.core.trace ↔ InReset g.core.trace := by
    unfold InReset
    rw [hc.resets.1, hc.resets.2]
  have hchain := (hm.traffic hs.tabs hs.idCount_le).chain
  have hle : reqCount Key.isChain g' ≤ reqCount Key.isChain g := by
    rcases hchain with h | ⟨-, -, h, -⟩
    · exact h
    · rw [howes] at h
      cases h
  unfold ChainFree
  rw [hc.state, hc.fwPending, hin]
  rcases hm.owes_cases hc howes with h | hend
  · obtain ⟨hst, hfw, hnone, hreset⟩ := hs.phase.owes h
    exact ⟨hst, hfw, by omega, hreset⟩
  · obtain ⟨hone, hst, hfw, hreset⟩ := hs.phase.chain (by omega)
    exact ⟨hst, hfw, by omega, hreset⟩

theorem Move.keeps_phase (hs : Safe g) (hm : Move env P g g') : PhaseOk g' := by
  rcases hm.phase_cases with ⟨-, hp⟩ | hc
  · exact hp.keeps hs.phase
  · have ht := hm.traffic hs.tabs hs.idCount_le
    obtain ⟨hbegin, hfinish⟩ := hc.resets
    have hin : InReset g'.core.trace ↔ InReset g.core.trace := by
      unfold InReset
      rw [hbegin, hfinish]
    have hset : Settled g'.core.trace ↔ Settled g.core.trace := by
      unfold Settled
      rw [hbegin, hfinish]
    refine ⟨hm.keeps_owes hs hc, ?_, ?_, ?_, ?_, ?_, ?_, ?_⟩
    · intro hne
      rw [hc.state, hc.fwPending, hin]
      rcases ht.chain with hle | ⟨-, howes, -, hone⟩
      · have hold := hs.phase.chain (by omega)
        exact ⟨by omega, hold.2⟩
      · obtain ⟨hst, hfw, hnone, hreset⟩ := hs.phase.owes howes
        exact ⟨by omega, hst, hfw, hreset⟩
    · intro hpend
      rw [hc.state]
      exact hs.phase.fw (hc.fwPending.mp hpend)
    · rw [hc.running, hc.signal]
      exact hs.phase.once
    · intro hne
      have hold : g.core.ioTab = SlotTable.gone := by
        rcases ht.features with hle | h
        · exact hs.phase.features (by omega)
        · exact h
      rcases hc.gone hold with h | ⟨howes, hhand⟩
      · exact h
      · rw [← hhand] at howes
        exact absurd (hm.keeps_owes hs hc howes).features hne
    · intro hnew hlive hreset
      rw [hc.state] at hnew hlive hreset
      rcases hc.gone (hs.phase.terminal hnew hlive hreset) with h | ⟨howes, -⟩
      · exact h
      · exact absurd (hs.phase.owes howes).1 hreset
    · rw [hin, hset]
      exact hs.phase.resets
    · rw [hc.state, hc.fwPending, hset]
      exact hs.phase.settled

end Phases

/-! ### The I/O ring -/

section Ring

theorem pushed_rung (depth : Nat) (r : Ring) (h : (pushed depth r).sqBatchDepth = 0) :
    (pushed depth r).lastSqTail = (pushed depth r).sqTail := by
  change r.sqBatchDepth = 0 at h
  unfold pushed
  rw [if_pos h]

/-- The I/O queue has a tag to give only while it is set up. -/
theorem Safe.present {c : Core} {h : Hand} {cid : Nat} {rest : List Nat} (hs : Safe ⟨c, h⟩)
    (hfree : c.ioTab.freeStack = cid :: rest) : c.ioTab.present = true := by
  have htab : TabOk .io c.ioTab := hs.tabs .io
  have hlt := (htab.free_head hfree).1
  rw [htab.length] at hlt
  exact htab.present (by omega)

/-- After an SQE of a queue that is set up. -/
theorem RingOk.pushed {c c' : Core} {h h' : Hand} (hold : RingOk ⟨c, h⟩)
    (hring : c'.ring .io = Ownership.pushed (c.tab .io).depth (c.ring .io))
    (hbatch : h'.batch = h.batch) (hpres : c'.ioTab.present = true)
    (hdepth : c'.ioTab.depth = c.ioTab.depth) : RingOk ⟨c', h'⟩ := by
  refine ⟨?_, ?_, ?_⟩
  · rw [hring, hbatch]
    exact hold.batch
  · intro hor
    have hzero := hor.resolve_right (by rw [hpres]; exact Bool.noConfusion)
    rw [hring] at hzero ⊢
    exact pushed_rung _ _ hzero
  · rw [hring, hdepth]
    exact hold.head

theorem release_depth (t : SlotTable) (cid : Nat) :
    (nvmeInflightRelease t cid).depth = t.depth := by
  unfold nvmeInflightRelease
  split <;> rfl

theorem release_present (t : SlotTable) (cid : Nat) :
    (nvmeInflightRelease t cid).present = t.present := by
  unfold nvmeInflightRelease
  split <;> rfl

theorem Move.keeps_ring (hs : Safe g) (hm : Move env P g g') : RingOk g' := by
  have hold := hs.ring
  have hbatch := hold.batch
  have hrung := hold.rung
  have hhead := hold.head
  cases hm with
  | @launchIo c h i cid rest n us notes r t hh hreq hctx hfree hn hnotes hkey hcid hret
      hask hcheck hone hof hroom hring hgate =>
      exact hold.pushed rfl rfl (hs.present hfree) rfl
  | @launchSib c h x cid rest n us notes r ctx hh hreq hget hfree hn hnotes hkey hcid hret
      hstall hmore hcap hof hring hgate =>
      exact hold.pushed rfl rfl (hs.present hfree) rfl
  | @relaunch c h r r' cid rest us hh hctx hr' hret hfree hring hgate =>
      unfold sent
      cases hq : r.q with
      | admin => exact ⟨hbatch, hrung, hhead⟩
      | io =>
          rw [hq] at hfree
          exact hold.pushed rfl rfl (hs.present hfree) rfl
  | @openBatch c h hb =>
      refine ⟨?_, ?_, hhead⟩
      · change (c.ring .io).sqBatchDepth + 1 = 1
        rw [hbatch, hb]
        rfl
      · intro h
        rcases h with h | h
        · cases h
        · exact hrung (.inr h)
  | closeBatch hb => exact ⟨rfl, fun _ => rfl, hhead⟩
  | @publish c h q head phase hstir hpub =>
      cases q with
      | admin => exact ⟨hbatch, hrung, hhead⟩
      | io =>
          refine ⟨hbatch, hrung, ?_⟩
          change head % c.ioTab.depth = head
          rw [hpub rfl, Nat.mod_mod]
  | @teardown c h q notes hstir hlose hnotes hidle =>
      cases q with
      | admin => exact ⟨hbatch, hrung, hhead⟩
      | io =>
          refine ⟨?_, fun _ => rfl, rfl⟩
          rw [hidle.2]
          rfl
  | @setup c h q hstir hvac hio hidle =>
      cases q with
      | admin => exact ⟨hbatch, hrung, hhead⟩
      | io =>
          refine ⟨?_, fun _ => rfl, rfl⟩
          rw [hidle.2]
          rfl
  | @fizzle c h q cid rest n notes hfree hn hnotes => cases q <;> exact ⟨hbatch, hrung, hhead⟩
  | @reapCqe c h q r st res hread hh hctx hst =>
      cases q with
      | admin => exact ⟨hbatch, hrung, hhead⟩
      | io =>
          refine ⟨hbatch, fun hor => hrung (hor.imp_right ?_), ?_⟩
          · exact (release_present c.ioTab r.cid).symm.trans
          · change (c.ring .io).cqHead % (nvmeInflightRelease c.ioTab r.cid).depth = _
            rw [release_depth]
            exact hhead
  | @reapCancel c h q r hread hh hctx hcancel =>
      cases q with
      | admin => exact ⟨hbatch, hrung, hhead⟩
      | io =>
          refine ⟨hbatch, fun hor => hrung (hor.imp_right ?_), ?_⟩
          · exact (release_present c.ioTab r.cid).symm.trans
          · change (c.ring .io).cqHead % (nvmeInflightRelease c.ioTab r.cid).depth = _
            rw [release_depth]
            exact hhead
  | @lose c h r cid rest notes hlose hh hfree hnotes =>
      cases hq : r.q <;> exact ⟨hbatch, hrung, hhead⟩
  | @touch c h q tag us => cases q <;> exact ⟨hbatch, hrung, hhead⟩
  | phase hstir hp => cases hp <;> exact ⟨hbatch, hrung, hhead⟩
  | _ => exact ⟨hbatch, hrung, hhead⟩

end Ring

/-! ### Contexts -/

section Contexts

variable {c : Core} {h : Hand} {x : Nat}

/-- Only a launch for the context in hand adds a sibling. -/
theorem Traffic.siblings (ht : Traffic P g g') (x : Nat) :
    sibCount x g' ≤ sibCount x g ∨
      Enlarged x g g' ∧ sibCount x g' = sibCount x g + 1 := by
  unfold sibCount
  cases ht with
  | carry hreq hid halloc => exact .inl (hreq _).le
  | finish hends hreq hid halloc => exact .inl (Nat.le_of_add_right_le (hreq _).le)
  | fizzle heq hid halloc => exact .inl (heq _).le
  | launch hborn heq hid halloc =>
      cases hborn with
      | io hh => exact .inl (heq _).le
      | admin hchain hfeat => exact .inl (heq _).le
      | @sibling y hx =>
          by_cases hy : y = x
          · subst hy
            refine .inr ⟨hx, ?_⟩
            rw [heq]
            simp
          · refine .inl ?_
            rw [heq]
            simp [hy]

theorem Traffic.allocs_le (ht : Traffic P g g') : g.core.allocs ≤ g'.core.allocs := by
  cases ht with
  | carry hreq hid halloc => exact halloc
  | finish hends hreq hid halloc => exact halloc
  | fizzle heq hid halloc => exact Nat.le_of_lt halloc
  | launch hborn heq hid halloc => exact Nat.le_of_lt halloc

/-- A move that leaves a context and its siblings alone. -/
theorem CtxOk.frame (hold : CtxOk x g) (halloc : g.core.allocs ≤ g'.core.allocs)
    (hsib : sibCount x g' ≤ sibCount x g)
    (hget : g'.core.ctxs.get x = g.core.ctxs.get x)
    (hpark : g'.core.ctxStalled.count x = g.core.ctxStalled.count x)
    (hhand : g'.hand.ctx = some x ↔ g.hand.ctx = some x)
    (hfree : g'.core.trace.countP (isCtxFree x) = g.core.trace.countP (isCtxFree x))
    (hfin : g'.core.trace.countP (isCtxFinish x) = g.core.trace.countP (isCtxFinish x)) :
    CtxOk x g' := by
  refine ⟨?_, ?_, ?_, ?_, ?_, ?_, ?_⟩
  · have := hold.once
    rw [hget, hfree]
    split at this <;> split <;> omega
  · rw [hfree, hfin]
    exact hold.finishes
  · rw [hpark, hget]
    exact hold.parked
  · intro ctx hctx
    exact hsib.trans (hold.siblings ctx (hget ▸ hctx))
  · intro ctx hctx
    exact hold.idle ctx (hget ▸ hctx)
  · intro ctx hctx hne
    exact hold.held ctx (hget ▸ hctx) (fun h => hne (hhand.mpr h))
  · intro hnone
    have := hold.dead (hget ▸ hnone)
    exact ⟨by omega, fun h => this.2 (hhand.mp h)⟩

/-- A live context has not been freed. -/
theorem CtxOk.live {ctx : IoContext} (hold : CtxOk x g)
    (hget : g.core.ctxs.get x = some ctx) :
    g.core.trace.countP (isCtxFree x) = 0 ∧ x < g.core.allocs := by
  have := hold.once
  rw [hget, hit_some, if_pos rfl] at this
  split at this <;> omega

/-- A context in hand gets one more sibling. -/
theorem CtxOk.launched (hold : CtxOk x g) (hx : Enlarged x g g')
    (halloc : g.core.allocs ≤ g'.core.allocs) (hsib : sibCount x g' ≤ sibCount x g + 1) :
    CtxOk x g' := by
  obtain ⟨-, ⟨ctx, ctx', hget, hget', hinf, hstall, hstall'⟩, hpark, hfree, hfin⟩ := hx
  refine ⟨?_, ?_, ?_, ?_, ?_, ?_, ?_⟩
  · obtain ⟨hnone, hlt⟩ := hold.live hget
    rw [hget', hfree, hnone, if_pos (by omega)]
    rfl
  · rw [hfree, hfin]
    exact hold.finishes
  · have := hold.parked
    rw [hget, hit_some, hstall] at this
    rw [hpark, this, hget', hit_some, hstall']
  · intro ctx₁ hctx₁
    cases hget'.symm.trans hctx₁
    have := hold.siblings ctx hget
    omega
  · intro ctx₁ hctx₁ hst
    cases hget'.symm.trans hctx₁
    cases hstall'.symm.trans hst
  · intro ctx₁ hctx₁ hne
    cases hget'.symm.trans hctx₁
    right
    omega
  · intro hnone
    cases hget'.symm.trans hnone

/-- A sibling of a context ends, and the context is in hand. -/
theorem CtxOk.completed {ctx ctx' : IoContext} (hold : CtxOk x g)
    (hget : g.core.ctxs.get x = some ctx) (hget' : g'.core.ctxs.get x = some ctx')
    (hinf : ctx'.inflight = ctx.inflight - 1) (hstall : ctx'.stalled = ctx.stalled)
    (hdis : ctx'.dispatched = ctx.dispatched) (htot : ctx'.totalBytes = ctx.totalBytes)
    (halloc : g.core.allocs ≤ g'.core.allocs) (hsib : sibCount x g' + 1 = sibCount x g)
    (hpark : g'.core.ctxStalled = g.core.ctxStalled) (hhand : g'.hand.ctx = some x)
    (hfree : g'.core.trace.countP (isCtxFree x) = g.core.trace.countP (isCtxFree x))
    (hfin : g'.core.trace.countP (isCtxFinish x) = g.core.trace.countP (isCtxFinish x)) :
    CtxOk x g' := by
  have hle := hold.siblings ctx hget
  refine ⟨?_, ?_, ?_, ?_, ?_, ?_, ?_⟩
  · obtain ⟨hnone, hlt⟩ := hold.live hget
    rw [hget', hfree, hnone, if_pos (by omega)]
    rfl
  · rw [hfree, hfin]
    exact hold.finishes
  · have := hold.parked
    rw [hget, hit_some] at this
    rw [hpark, this, hget', hit_some, hstall]
  · intro ctx₁ hctx₁
    cases hget'.symm.trans hctx₁
    omega
  · intro ctx₁ hctx₁ hst
    cases hget'.symm.trans hctx₁
    have := hold.idle ctx hget (hstall.symm.trans hst)
    rw [hdis, htot, hinf]
    exact ⟨by omega, this.2⟩
  · intro ctx₁ hctx₁ hne
    exact absurd hhand hne
  · intro hnone
    cases hget'.symm.trans hnone

/-- A new context, in hand. -/
theorem CtxOk.allocated {ctx : IoContext} (hold : CtxOk x g) (hx : x = g.core.allocs)
    (hget' : g'.core.ctxs.get x = some ctx) (hstall : ctx.stalled = false)
    (halloc : g.core.allocs < g'.core.allocs) (hsib : sibCount x g' ≤ sibCount x g)
    (hpark : g'.core.ctxStalled = g.core.ctxStalled) (hhand : g'.hand.ctx = some x)
    (hfree : g'.core.trace.countP (isCtxFree x) = g.core.trace.countP (isCtxFree x))
    (hfin : g'.core.trace.countP (isCtxFinish x) = g.core.trace.countP (isCtxFinish x)) :
    CtxOk x g' := by
  have honce := hold.once
  rw [if_neg (by omega)] at honce
  have hget : g.core.ctxs.get x = none := by
    cases hg : g.core.ctxs.get x with
    | none => rfl
    | some ctx₀ =>
        rw [hg] at honce
        simp at honce
  have hdead := hold.dead hget
  refine ⟨?_, ?_, ?_, ?_, ?_, ?_, ?_⟩
  · rw [hget', hfree, if_pos (by omega)]
    simp only [hit_some, if_true]
    omega
  · rw [hfree, hfin]
    exact hold.finishes
  · rw [hpark, hold.parked, hget, hget', hit_some, hstall]
    rfl
  · intro ctx₁ hctx₁
    omega
  · intro ctx₁ hctx₁ hst
    cases hget'.symm.trans hctx₁
    cases hstall.symm.trans hst
  · intro ctx₁ hctx₁ hne
    exact absurd hhand hne
  · intro hnone
    cases hget'.symm.trans hnone

/-- A context is freed. -/
theorem CtxOk.freed {ctx : IoContext} (hold : CtxOk x g)
    (hget : g.core.ctxs.get x = some ctx) (hget' : g'.core.ctxs.get x = none)
    (hidle : ctx.inflight = 0) (hstall : ctx.stalled = false)
    (halloc : g.core.allocs ≤ g'.core.allocs) (hsib : sibCount x g' ≤ sibCount x g)
    (hpark : g'.core.ctxStalled = g.core.ctxStalled) (hhand : g'.hand.ctx = none)
    (hfree : g'.core.trace.countP (isCtxFree x) = g.core.trace.countP (isCtxFree x) + 1)
    (hfin : g'.core.trace.countP (isCtxFinish x) ≤
      g.core.trace.countP (isCtxFinish x) + 1) :
    CtxOk x g' := by
  refine ⟨?_, ?_, ?_, ?_, ?_, ?_, ?_⟩
  · obtain ⟨hnone, hlt⟩ := hold.live hget
    rw [hget', hfree, hnone, if_pos (by omega)]
    rfl
  · have := hold.finishes
    omega
  · have := hold.parked
    rw [hget, hit_some, hstall] at this
    rw [hpark, this, hget']
    rfl
  · intro ctx₁ hctx₁
    cases hget'.symm.trans hctx₁
  · intro ctx₁ hctx₁
    cases hget'.symm.trans hctx₁
  · intro ctx₁ hctx₁
    cases hget'.symm.trans hctx₁
  · intro _
    have := hold.siblings ctx hget
    refine ⟨by omega, ?_⟩
    rw [hhand]
    exact Option.some_ne_none x |>.symm

/-- A context changes its mark, its place on the list and in the hand. -/
theorem CtxOk.marked {ctx ctx' : IoContext} (hold : CtxOk x g)
    (hget : g.core.ctxs.get x = some ctx) (hget' : g'.core.ctxs.get x = some ctx')
    (hinf : ctx'.inflight = ctx.inflight)
    (halloc : g.core.allocs ≤ g'.core.allocs) (hsib : sibCount x g' ≤ sibCount x g)
    (hpark : g'.core.ctxStalled.count x = hit IoContext.stalled (some ctx'))
    (hidle : ctx'.stalled = true →
      ctx'.inflight = 0 ∧ ctx'.dispatched < ctx'.totalBytes)
    (hheld : g'.hand.ctx ≠ some x → ctx'.stalled = true ∨ 0 < ctx'.inflight)
    (hfree : g'.core.trace.countP (isCtxFree x) = g.core.trace.countP (isCtxFree x))
    (hfin : g'.core.trace.countP (isCtxFinish x) = g.core.trace.countP (isCtxFinish x)) :
    CtxOk x g' := by
  refine ⟨?_, ?_, ?_, ?_, ?_, ?_, ?_⟩
  · obtain ⟨hnone, hlt⟩ := hold.live hget
    rw [hget', hfree, hnone, if_pos (by omega)]
    rfl
  · rw [hfree, hfin]
    exact hold.finishes
  · rw [hpark, hget']
  · intro ctx₁ hctx₁
    cases hget'.symm.trans hctx₁
    have := hold.siblings ctx hget
    omega
  · intro ctx₁ hctx₁
    cases hget'.symm.trans hctx₁
    exact hidle
  · intro ctx₁ hctx₁
    cases hget'.symm.trans hctx₁
    exact hheld
  · intro hnone
    cases hget'.symm.trans hnone

/-- The first context on the list is live and marked. -/
theorem Safe.head_stalled {rest : List Nat} (hs : Safe ⟨c, h⟩)
    (hlist : c.ctxStalled = x :: rest) :
    ∃ ctx, c.ctxs.get x = some ctx ∧ ctx.stalled = true ∧ rest.count x = 0 := by
  have hpark := (hs.ctxs x).parked
  change c.ctxStalled.count x = hit IoContext.stalled (c.ctxs.get x) at hpark
  rw [hlist, List.count_cons_self] at hpark
  cases hget : c.ctxs.get x with
  | none =>
      rw [hget] at hpark
      simp at hpark
  | some ctx =>
      rw [hget, hit_some] at hpark
      split at hpark
      · rename_i hst
        exact ⟨ctx, rfl, hst, by omega⟩
      · omega

theorem ctx_counts_halting {notes : List Effect} (x : Nat)
    (hnotes : ∀ e, e ∈ notes → halting e = true) (tr : List Effect) :
    (notes ++ tr).countP (isCtxFree x) = tr.countP (isCtxFree x) ∧
      (notes ++ tr).countP (isCtxFinish x) = tr.countP (isCtxFinish x) := by
  have hzero : ∀ p : Effect → Bool, (∀ e, halting e = true → p e = false) →
      notes.countP p = 0 := by
    intro p hp
    rw [List.countP_eq_zero]
    intro e he
    rw [hp e (hnotes e he)]
    exact Bool.false_ne_true
  rw [List.countP_append, List.countP_append, hzero, hzero]
  · exact ⟨Nat.zero_add _, Nat.zero_add _⟩
  · intro e he
    cases e <;> first | rfl | cases he
  · intro e he
    cases e <;> first | rfl | cases he

theorem Move.keeps_ctxs (hs : Safe g) (hm : Move env P g g') (x : Nat) : CtxOk x g' := by
  have hold := hs.ctxs x
  have ht := hm.traffic hs.tabs hs.idCount_le
  have halloc := ht.allocs_le
  rcases ht.siblings x with hsib | ⟨hx, hsib⟩
  · cases hm with
    | @launchSib c h y cid rest n us notes r ctx hh hreq hget hfree hn hnotes hkey hcid hret
        hstall hmore hcap hof hring hgate =>
        have hnote := ctx_counts_notes x (quietFor_notes hnotes 0) c.trace
        by_cases hx : x = y
        · subst hx
          exact hold.launched
            ⟨hh, ⟨ctx, _, hget, get_modify_self hget, rfl, hstall, hstall⟩, rfl, hnote.1,
              hnote.2⟩ halloc (hsib.trans (Nat.le_succ _))
        · exact hold.frame halloc hsib (get_modify_other _ hx) rfl Iff.rfl hnote.1 hnote.2
    | @sibDone c h r y ctx hh hctx hget hnone =>
        by_cases hx : x = y
        · subst hx
          refine hold.completed hget (get_modify_self hget) rfl rfl rfl rfl halloc ?_ rfl rfl
            rfl rfl
          have := @reqCount_ended c h { h with req := none, ctx := some x } r
            (fun k => k.ctx == some x) hh rfl
          simp only [hit_some, Function.comp, keyOf, hctx, BEq.rfl, if_true] at this
          exact this
        · refine hold.frame halloc hsib (get_modify_other _ hx) rfl ?_ rfl rfl
          simp only [hnone, reduceCtorEq, iff_false, Option.some.injEq]
          exact fun h => hx h.symm
    | @allocCtx c h i ctx t hh hreq hnone hio hinf hdis herr hstall hask hcheck hof
      hroom hmany =>
        by_cases hx : x = c.allocs
        · refine hold.allocated hx ?_ hstall (Nat.lt_succ_self _) hsib rfl ?_ rfl rfl
          · change (c.ctxs.insert c.allocs ctx).get x = some ctx
            rw [Heap.get_insert, if_pos hx]
          · rw [hx]
        · refine hold.frame halloc hsib ?_ rfl ?_ rfl rfl
          · change (c.ctxs.insert c.allocs ctx).get x = c.ctxs.get x
            rw [Heap.get_insert, if_neg hx]
          · simp only [hnone, reduceCtorEq, iff_false, Option.some.injEq]
            exact fun h => hx h.symm
    | @ctxError c h y ctx e hh hget hstall he hwhy =>
        by_cases hx : x = y
        · subst hx
          refine hold.marked hget (get_modify_self hget) rfl halloc hsib ?_ ?_ ?_ rfl rfl
          · have := hold.parked
            rw [hget] at this
            exact this
          · exact hold.idle ctx hget
          · exact hold.held ctx hget
        · exact hold.frame halloc hsib (get_modify_other _ hx) rfl Iff.rfl rfl rfl
    | @stall c h y ctx hh hget hidle hstall hmore =>
        by_cases hx : x = y
        · subst hx
          refine hold.marked hget (get_modify_self hget) rfl halloc hsib ?_
            (fun _ => ⟨hidle, hmore⟩) (fun _ => .inl rfl) rfl rfl
          have := hold.parked
          rw [hget, hit_some, hstall] at this
          change (c.ctxStalled ++ [x]).count x = 1
          rw [List.count_append, List.count_singleton_self, this]
          rfl
        · refine hold.frame halloc hsib (get_modify_other _ hx) ?_ Iff.rfl rfl rfl
          change (c.ctxStalled ++ [y]).count x = c.ctxStalled.count x
          have hy : [y].count x = 0 := List.count_eq_zero_of_not_mem (by simpa using hx)
          rw [List.count_append, hy, Nat.add_zero]
    | @unstall c h y rest hlist hreq hnone hroom =>
        obtain ⟨ctx, hget, hst, hrest⟩ := hs.head_stalled hlist
        by_cases hx : x = y
        · subst hx
          refine hold.marked hget (get_modify_self hget) rfl halloc hsib ?_ ?_
            (fun h => absurd rfl h) rfl rfl
          · exact hrest
          · intro h
            cases h
        · refine hold.frame halloc hsib (get_modify_other _ hx) ?_ ?_ rfl rfl
          · change rest.count x = c.ctxStalled.count x
            rw [hlist, List.count_cons_of_ne (fun h => hx h.symm)]
          · simp only [hnone, reduceCtorEq, iff_false, Option.some.injEq]
            exact fun h => hx h.symm
    | @dropCtx c h y ctx hh hget hheld =>
        by_cases hx : x = y
        · subst hx
          have hpark := hold.parked
          rw [hget] at hpark
          exact hold.marked hget hget rfl halloc hsib hpark (hold.idle ctx hget)
            (fun _ => hheld) rfl rfl
        · refine hold.frame halloc hsib rfl rfl ?_ rfl rfl
          simp only [hh, reduceCtorEq, false_iff, Option.some.injEq]
          exact fun h => hx h.symm
    | @finish c h y ctx notes sibs hh hget hidle hstall hdone hsibs hnotes =>
        have hnote := fun tr => ctx_counts_notes x (quietFor_notes hnotes 0) tr
        by_cases hx : x = y
        · subst hx
          refine hold.freed hget ?_ hidle hstall halloc hsib rfl rfl ?_ ?_
          · change (c.ctxs.erase x).get x = none
            rw [Heap.get_erase, if_pos rfl]
          · simp only [stamp, List.cons_append, List.append_assoc, List.countP_cons,
              (hnote _).1, isCtxFree, BEq.rfl, if_true, Bool.false_eq_true, if_false,
              List.nil_append]
          · simp only [stamp, List.cons_append, List.append_assoc, List.countP_cons,
              (hnote _).2, isCtxFinish, BEq.rfl, if_true, Bool.false_eq_true, if_false,
              List.nil_append]
            exact Nat.le_refl _
        · have hyx : (y == x) = false := by simpa using fun h => hx h.symm
          refine hold.frame halloc hsib ?_ rfl ?_ ?_ ?_
          · change (c.ctxs.erase y).get x = c.ctxs.get x
            rw [Heap.get_erase, if_neg hx]
          · simp only [hh, reduceCtorEq, false_iff, Option.some.injEq]
            exact fun h => hx h.symm
          · simp only [stamp, List.cons_append, List.append_assoc, List.countP_cons,
              (hnote _).1, isCtxFree, hyx, Bool.false_eq_true, if_false, List.nil_append]
            rfl
          · simp only [stamp, List.cons_append, List.append_assoc, List.countP_cons,
              (hnote _).2, isCtxFinish, hyx, Bool.false_eq_true, if_false, List.nil_append]
            rfl
    | @freeCtx c h y ctx hh hget hidle hstall hio herr =>
        by_cases hx : x = y
        · subst hx
          refine hold.freed hget ?_ hidle hstall halloc hsib rfl rfl ?_ (Nat.le_succ _)
          · change (c.ctxs.erase x).get x = none
            rw [Heap.get_erase, if_pos rfl]
          · change (Effect.ctxFree x :: c.trace).countP (isCtxFree x) = _
            rw [List.countP_cons_of_pos]
            simp [isCtxFree]
        · refine hold.frame halloc hsib ?_ rfl ?_ ?_ rfl
          · change (c.ctxs.erase y).get x = c.ctxs.get x
            rw [Heap.get_erase, if_neg hx]
          · simp only [hh, reduceCtorEq, false_iff, Option.some.injEq]
            exact fun h => hx h.symm
          · change (Effect.ctxFree y :: c.trace).countP (isCtxFree x) = _
            rw [List.countP_cons_of_neg]
            simpa [isCtxFree] using fun h => hx h.symm
    | @note c h e hq =>
        have hnote := @ctx_counts_notes 0 [e] x
          (by intro e' he'; rw [List.mem_singleton.mp he']; exact quietFor_of_quiet hq) c.trace
        exact hold.frame halloc hsib rfl rfl Iff.rfl hnote.1 hnote.2
    | @revise c h r r' notes hh hkey hcmd hbuf hlen hfirst hnotes =>
        have hnote := ctx_counts_notes x hnotes c.trace
        exact hold.frame halloc hsib rfl rfl Iff.rfl hnote.1 hnote.2
    | @fizzle c h q cid rest n notes hfree hn hnotes =>
        have hnote := ctx_counts_notes x hnotes c.trace
        exact hold.frame halloc hsib (by simp [stamp]) (by simp [stamp]) Iff.rfl
          (by simp only [stamp, setTab_trace]; exact hnote.1)
          (by simp only [stamp, setTab_trace]; exact hnote.2)
    | @lose c h r cid rest notes hlose hh hfree hnotes =>
        have hnote := ctx_counts_notes x hnotes c.trace
        exact hold.frame halloc hsib (by simp [stamp]) (by simp [stamp]) Iff.rfl
          (by simp only [stamp, setTab_trace]; exact hnote.1)
          (by simp only [stamp, setTab_trace]; exact hnote.2)
    | @launchIo c h i cid rest n us notes r t hh hreq hctx hfree hn hnotes hkey hcid hret
      hask hcheck hone hof hroom hring hgate =>
        have hnote := ctx_counts_notes x (quietFor_notes hnotes 0) c.trace
        exact hold.frame halloc hsib rfl rfl Iff.rfl hnote.1 hnote.2
    | @launchAdmin c h cid rest n us notes r done waiter hfree hn hnotes hkey hcid
        hchain hfeat =>
        have hnote := ctx_counts_notes x (quietFor_notes hnotes 0) c.trace
        exact hold.frame halloc hsib rfl rfl Iff.rfl hnote.1 hnote.2
    | phase hstir hp =>
        cases hp <;> exact hold.frame halloc hsib rfl rfl Iff.rfl rfl rfl
    | @teardown c h q notes hstir hlose hnotes hidle =>
        have hnone := ctx_counts_halting x (fun e he => (hnotes e he).2) c.trace
        refine hold.frame halloc hsib (by simp [stamp]) (by simp [stamp]) Iff.rfl ?_ ?_
        · rw [setRing_trace]
          simp only [stamp, setTab_trace]
          exact hnone.1
        · rw [setRing_trace]
          simp only [stamp, setTab_trace]
          exact hnone.2
    | _ =>
        exact hold.frame halloc hsib (by simp [stamp, sent]) (by simp [stamp, sent]) Iff.rfl
          (by simp [stamp, sent, isCtxFree]) (by simp [stamp, sent, isCtxFinish])
  · exact hold.launched hx halloc hsib.le

theorem keeps_safe (env : Env) (P : Policy) : Keeps (Move env P) Safe :=
  fun _ _ hs hm =>
    { tabs := hm.keeps_tabs hs
      sound := hm.keeps_sound hs
      waiters := hm.keeps_waiters hs
      parked := hm.keeps_parked hs
      ios := hm.keeps_ios hs
      ids := hm.keeps_ids hs
      ctxs := hm.keeps_ctxs hs
      phase := hm.keeps_phase hs
      ring := hm.keeps_ring hs
      room := hm.keeps_room hs
      effects := hm.keeps_effects hs
      writes := hm.keeps_writes hs (fun n => (hm.keeps_ids hs n).trans (by split <;> omega)) }

end Contexts

/-! ### Laxer policies -/

section Lax

variable {tr tr' : List Effect}

/-- One policy is laxer than another, as far as a log shows. -/
structure Policy.LeOn (tr : List Effect) (P Q : Policy) : Prop where
  lose : ∀ k, P.lose k → Q.lose k
  cancel : ∀ q n, .cancel q n ∈ tr → P.cancel q → Q.cancel q
  status : ∀ q cid n st, .cqe q cid n st ∈ tr → P.status q st → Q.status q st
  abort : P.abort → Q.abort
  stir : P.stir → Q.stir
  publish : P.publish → Q.publish
  stray : ∀ cid, .strayCqe .io cid ∈ tr → P.stray → Q.stray
  exceed : P.exceed → Q.exceed
  launch : ∀ st b, P.launch st b → Q.launch st b
  timeout : P.timeout → Q.timeout
  resume : P.resume → Q.resume
  spoil : P.spoil → Q.spoil
  translate : P.translate → Q.translate
  queue : P.queue → Q.queue

theorem Latches.mono {Q : Policy} (hle : Policy.LeOn tr P Q) {ctx : IoContext} {e : Int}
    (h : Latches env P ctx e) : Latches env Q ctx e where
  more := h.more
  fresh := h.fresh.imp_right hle.spoil
  why := h.why.imp_right (fun h => ⟨h.1, hle.abort h.2⟩)

theorem PhaseMove.mono {Q : Policy} (hle : Policy.LeOn tr P Q) (hp : PhaseMove env P g g') :
    PhaseMove env Q g g' := by
  cases hp with
  | aenFw hlive => exact .aenFw hlive
  | fwBegin hsig => exact .fwBegin hsig
  | fwTimeout hrun htime => exact .fwTimeout hrun (hle.timeout htime)
  | fwLive hrun hsig => exact .fwLive hrun hsig
  | resetBegin hlive => exact .resetBegin hlive
  | resetLive howes => exact .resetLive howes
  | die howes hgone => exact .die howes hgone
  | block hmask => exact .block hmask
  | quiesce => exact .quiesce
  | unquiesce hlive => exact .unquiesce hlive
  | freeze b => exact .freeze b
  | setCap => exact .setCap

/-- A move needs no more of the policy than its log shows. -/
theorem Move.mono_on {Q : Policy} (hle : Policy.LeOn g'.core.trace P Q)
    (hm : Move env P g g') : Move env Q g g' := by
  cases hm with
  | phase h hp => exact .phase (hle.stir h) (hp.mono hle)
  | replyHand e a hh hwhy hbad => exact .replyHand e a hh (hwhy.imp_right hle.abort) hbad
  | launchAdmin hfree hn hnotes hkey hcid hchain hfeat hname hret =>
      exact .launchAdmin hfree hn hnotes hkey hcid
        (fun h => ⟨hle.stir (hchain h).1, (hchain h).2⟩) hfeat hname hret
  | bell q tail hgate =>
      exact .bell q tail (fun h => ⟨hle.launch _ _ (hgate h).1, (hgate h).2⟩)
  | refuse q hfree hring => exact .refuse q hfree hring
  | openBatch hb => exact .openBatch hb
  | closeBatch hb => exact .closeBatch hb
  | publish q hpub hhead => exact .publish q (hle.publish hpub) hhead
  | @skip c h q cid hstray hnone =>
      refine .skip q cid (fun hq => hle.stray cid ?_ (hstray hq)) hnone
      subst hq
      exact List.mem_cons_self ..
  | @reapCqe c h q r st res hread hh hctx hst =>
      exact .reapCqe q hread hh hctx (hle.status q r.cid r.id st (List.mem_cons_self ..) hst)
  | @reapCancel c h q r hread hh hctx hcan =>
      exact .reapCancel q hread hh hctx (hle.cancel q r.id (List.mem_cons_self ..) hcan)
  | lose hl hh hfree hnotes => exact .lose (hle.lose _ hl) hh hfree hnotes
  | ctxError e hh hget hstall he hwhy hlatch =>
      exact .ctxError e hh hget hstall he (hwhy.imp_right hle.abort) (hlatch.mono hle)
  | teardown q hstir hl hnotes hidle =>
      exact .teardown q (hle.stir hstir) (fun r hr => hle.lose _ (hl r hr)) hnotes hidle
  | accept hq => exact .accept (hle.queue hq)
  | note e hq => exact .note e hq
  | translated i cmd htr => exact .translated i cmd (hle.translate htr)
  | burn n => exact .burn n
  | limits mz dead => exact .limits mz dead
  | takeMsg hm hh hq => exact .takeMsg hm hh (hle.queue hq)
  | takePending hm hh hq => exact .takePending hm hh (hle.queue hq)
  | stash hh hq => exact .stash hh (hle.queue hq)
  | discardHand hh ha => exact .discardHand hh ha
  | fizzleBare => exact .fizzleBare
  | fizzle q hfree hn hnotes => exact .fizzle q hfree hn hnotes
  | launchIo hh hreq hctx hfree hn hnotes hkey hcid hret hask hcheck hone hof hroom hring
      hgate =>
      exact .launchIo hh hreq hctx hfree hn hnotes hkey hcid hret hask hcheck hone hof hroom
        hring (hle.launch _ _ hgate)
  | launchSib hh hreq hget hfree hn hnotes hkey hcid hret hstall hmore hcap hof hring hgate
      hfresh =>
      exact .launchSib hh hreq hget hfree hn hnotes hkey hcid hret hstall hmore hcap hof hring
        (hle.launch _ _ hgate) (hfresh.imp_right hle.spoil)
  | revise hh hkey hcmd hbuf hlen hfirst hnotes hstat =>
      exact .revise hh hkey hcmd hbuf hlen hfirst hnotes hstat
  | park hh hret hdue hlive => exact .park hh hret hdue hlive
  | unpark hresume hmem hh hctx hroom =>
      exact .unpark (hle.resume hresume) hmem hh hctx
        (hroom.imp_right (fun h => h.imp_right hle.exceed))
  | relaunch hh hctx hr' hret hfree hring hgate hdue hlive =>
      exact .relaunch hh hctx hr' hret hfree hring (fun h => hle.launch _ _ (hgate h)) hdue hlive
  | endReply hh hio hctx ha hdec => exact .endReply hh hio hctx ha hdec
  | endFree hh hdone => exact .endFree hh hdone
  | endWait hh hdone hwait => exact .endWait hh hdone hwait
  | endDrop hh hdone hio hctx => exact .endDrop hh hdone hio hctx
  | collect hw => exact .collect hw
  | sibDone hh hctx hget hnone hdec => exact .sibDone hh hctx hget hnone hdec
  | allocCtx hh hreq hnone hio hinf hdis herr hstall hask hcheck hof hroom hmany =>
      exact .allocCtx hh hreq hnone hio hinf hdis herr hstall hask hcheck hof hroom hmany
  | stall hh hget hidle hstall hmore hfresh =>
      exact .stall hh hget hidle hstall hmore (hfresh.imp_right hle.spoil)
  | unstall hlist hreq hnone hroom =>
      exact .unstall hlist hreq hnone (hroom.imp_right hle.abort)
  | dropCtx hh hget hheld => exact .dropCtx hh hget hheld
  | finish hh hget hidle hstall hdone hsibs hnotes =>
      exact .finish hh hget hidle hstall hdone hsibs hnotes
  | freeCtx hh hget hidle hstall hio herr hnew =>
      exact .freeCtx hh hget hidle hstall hio herr hnew
  | touch q => exact .touch q
  | setup q hstir hvac hio hidle => exact .setup q (hle.stir hstir) hvac hio hidle

/-- One policy is laxer than another. -/
def Policy.Le (P Q : Policy) : Prop := ∀ tr, Policy.LeOn tr P Q

/-- A run allowed by one policy is allowed by a laxer one. -/
theorem Move.mono {Q : Policy} (hle : P.Le Q) (hm : Move env P g g') : Move env Q g g' :=
  hm.mono_on (hle _)

theorem Policy.calm_le (P : Policy) : P.calm.Le P := fun _ =>
  ⟨fun _ => id, fun _ _ _ => id, fun _ _ _ _ _ => id, id, fun h => h.elim, fun h => h.elim,
    fun _ _ => id, id, fun _ _ => id, id, id, id, id, id⟩

/-- A move only adds to the log. -/
theorem Move.trace_suffix (hm : Move env P g g') : g.core.trace <:+ g'.core.trace := by
  cases hm with
  | phase hstir hp =>
      cases hp <;> first
        | exact List.suffix_refl _
        | exact List.suffix_append _ _
  | _ =>
      first
        | exact List.suffix_refl _
        | exact List.suffix_append _ _
        | (simp only [sent, stamp, setRing_trace, setTab_trace]
           first | exact List.suffix_append _ _ | exact List.suffix_refl _)

theorem path_trace_suffix (hpath : Relation.ReflTransGen (Move env P) g g') :
    g.core.trace <:+ g'.core.trace := by
  induction hpath with
  | refl => exact List.suffix_refl _
  | tail _ hm ih => exact ih.trans hm.trace_suffix

end Lax

end Ownership
end NvmeDriver
