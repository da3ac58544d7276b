import NvmeDriver.Refine.Loop
import NvmeDriver.Ownership.Story

/-!
# Retry list and dispatch refine the machine

The CRDT loop of `nvme_tick_watchdog` works through the retry list as it found it; no
entry of that list goes away while another one is put back.  The dispatch of
`nvme_drain_msgport` never changes the phase, so its gate is decided when it starts.
-/

namespace NvmeDriver
namespace Refine

open Engine
open Lib
open Ownership

variable {env : Env} {P : Policy} {s : State}

/-! ### The retry list -/

section Retry

/-- The same, but parked requests stay parked. -/
def Policy.parking (P : Policy) : Policy := { P with resume := False }

theorem Policy.parking_le (P : Policy) : (Policy.parking P).Le P := fun _ =>
  ⟨fun _ => id, fun _ _ _ => id, fun _ _ _ _ _ => id, id, id, id, fun _ _ => id, id,
    fun _ _ => id, id, fun h => h.elim, id, id, id⟩

theorem keeps_retryList (env : Env) (P : Policy) (r : Request) :
    Keeps (Move env (Policy.parking P)) (fun g => r ∈ g.core.retryList) := by
  intro g g' hmem hm
  cases hm with
  | @park c h r' d hh hret => exact List.mem_append_left _ hmem
  | unpark hresume => exact hresume.elim
  | phase hstir hp => cases hp <;> exact hmem
  | _ => simpa [stamp, sent] using hmem

/-- What putting a parked request back asks of the policy. -/
structure ParkedMeets (P : Policy) (s : State) (r : Request) : Prop where
  resume : P.resume
  admin : r.q = .admin → P.stir ∧ Loses P
  room : r.q = .io → HasRoom s.core ∨ P.exceed
  gate : r.q = .io → (s.tab r.q).freeStack ≠ [] → P.launch s.core.state s.core.frozen
  lose : (s.tab r.q).freeStack ≠ [] → sqFull s r.q → P.lose (keyOf r)

theorem resubmitParked_spec {r : Request} (hmem : r ∈ s.core.retryList)
    (hmeets : ParkedMeets P s r)
    (hs : Safe ⟨s.core, ⟨none, none, none, 0, false, false⟩⟩) :
    Goes env P s.core ⟨none, none, none, 0, false, false⟩ (resubmitParked env s r).core
        ⟨none, none, none, 0, false, false⟩ ∧
      ∀ r', r' ∈ s.core.retryList → r'.id ≠ r.id →
        r' ∈ (resubmitParked env s r).core.retryList := by
  let s₁ : State := { s with core := { s.core with
    retryList := s.core.retryList.eraseP (fun x => x.id == r.id) } }
  have htake : Goes env P s.core ⟨none, none, none, 0, false, false⟩ s₁.core
      ⟨none, some r, none, 0, false, false⟩ := by
    refine .move fun _ => .unpark hmeets.resume hmem rfl rfl ?_
    cases hq : r.q with
    | admin => exact .inl rfl
    | io => exact .inr (hmeets.room hq)
  have hback : Goes env (Policy.parking P) s₁.core ⟨none, some r, none, 0, false, false⟩
      (nvmeResubmitIo env (nvmeCompleteRq env) s₁ r).core
      ⟨none, none, none, 0, false, false⟩ := by
    refine nvmeResubmitIo_spec (hs.parked r hmem) (hs.writes.parked r hmem).1
      (hs.writes.parked r hmem).2.2 hmeets.gate hmeets.lose ?_
    intro hfree
    refine nvmeCompleteRq_spec ?_ ?_ ?_
    · intro hq
      exact ⟨(hmeets.admin hq).1, ⟨rfl, rfl⟩, fun _ => (hmeets.admin hq).2.io⟩
    · rintro - (⟨-, hne⟩ | ⟨hzero, -⟩)
      · exact absurd hfree hne
      · exact absurd hzero (by decide : nvmeErrorStatus nvmeScHostPathError ≠ 0)
    · rintro ⟨-, hne, -⟩
      exact absurd hfree hne
  refine ⟨htake.trans (hback.mono (Policy.parking_le P)), ?_⟩
  intro r' hr' hne
  refine (keeps_retryList env P r').path (hback (htake.safe hs)) ?_
  change r' ∈ s.core.retryList.eraseP (fun x => x.id == r.id)
  exact (List.mem_eraseP_of_neg (by simpa using hne)).mpr hr'

/-- What the CRDT loop asks of the policy. -/
def RetryMeets (env : Env) (P : Policy) (now : Nat) : List Request → State → Prop
  | [], _ => True
  | r :: rest, s =>
      if notYet now r.deadlineUs then RetryMeets env P now rest s
      else ParkedMeets P s r ∧ RetryMeets env P now rest (resubmitParked env s r)

theorem retryLoop_spec (now : Nat) (l : List Request) :
    ∀ {s : State}, Safe ⟨s.core, ⟨none, none, none, 0, false, false⟩⟩ →
      (∀ r, r ∈ l → r ∈ s.core.retryList) → l.Pairwise (fun r r' => r'.id ≠ r.id) →
      RetryMeets env P now l s →
      Goes env P s.core ⟨none, none, none, 0, false, false⟩ (retryLoop env now l s).core
        ⟨none, none, none, 0, false, false⟩ := by
  induction l with
  | nil =>
      intro s _ _ _ _
      exact Goes.refl _ _
  | cons r l ih =>
      intro s hs hmem hids hmeets
      rw [List.pairwise_cons] at hids
      have hrest : ∀ r', r' ∈ l → r' ∈ s.core.retryList :=
        fun r' hr' => hmem r' (List.mem_cons_of_mem _ hr')
      unfold RetryMeets at hmeets
      unfold retryLoop
      split
      · rename_i hwait
        rw [if_pos hwait] at hmeets
        exact ih hs hrest hids.2 hmeets
      · rename_i hdue
        rw [if_neg hdue] at hmeets
        obtain ⟨hgo, hkeep⟩ := resubmitParked_spec (hmem r (List.mem_cons_self ..)) hmeets.1
          hs
        refine hgo.trans (ih (hgo.safe hs) ?_ hids.2 hmeets.2)
        exact fun r' hr' => hkeep r' (hrest r' hr') (hids.1 r' hr')

/-- No two parked requests are the same. -/
theorem Safe.retryList_ids {h : Hand} (hs : Safe ⟨s.core, h⟩) :
    s.core.retryList.Pairwise (fun r r' => r'.id ≠ r.id) := by
  have hle : ∀ n, s.core.retryList.countP (fun r => r.id == n) ≤ 1 := by
    intro n
    have hid := hs.idCount_le n
    unfold idCount reqCount coreReqs at hid
    have hfun : (fun k : Key => k.id == n) ∘ keyOf = fun r : Request => r.id == n := rfl
    rw [hfun] at hid
    dsimp only at hid
    omega
  have hnodup : (s.core.retryList.map Request.id).Nodup := by
    rw [List.nodup_iff_count_le_one]
    intro n
    rw [List.count_eq_countP, List.countP_map]
    exact hle n
  exact (List.pairwise_map.mp hnodup).imp fun hne heq => hne heq.symm

/-- What the timer branch asks of the policy. -/
def TickMeets (env : Env) (P : Policy) (s : State) (admin io : List Cqe) : Prop :=
  ProcessMeets env P s admin io ∧
    let s₁ := nvmeProcessCompletions env s admin io
    let t := s₁.getTime env
    let s₂ := watchdogScanQueue env t.2 .admin t.1
    let s₃ := watchdogScanQueue env s₂ .io t.1
    s₁.core.unitBlocked = false →
      (s₁.core.state ≠ .live → FlushMeets P .admin) ∧
        (s₂.core.state ≠ .live → FlushMeets P .io) ∧
        RetryMeets env P t.1 s₃.core.retryList s₃

theorem nvmeTickWatchdog_spec {admin io : List Cqe} (hmeets : TickMeets env P s admin io) :
    Goes env P s.core ⟨none, none, none, 0, false, false⟩
      (nvmeTickWatchdog env s admin io).core ⟨none, none, none, 0, false, false⟩ := by
  refine .assume fun hs => ?_
  obtain ⟨hproc, hrest⟩ := hmeets
  have hgo₁ := nvmeProcessCompletions_spec hproc
  unfold nvmeTickWatchdog
  dsimp only at hrest ⊢
  generalize nvmeProcessCompletions env s admin io = s₁ at hgo₁ hrest ⊢
  split
  · exact hgo₁
  · rename_i hblk
    obtain ⟨hflush₁, hflush₂, hretry⟩ := hrest (by simpa using hblk)
    have hgo₂ := @watchdogScanQueue_spec env P (s₁.getTime env).2 .admin (s₁.getTime env).1
      hflush₁
    generalize watchdogScanQueue env (s₁.getTime env).2 .admin (s₁.getTime env).1 = s₂
      at hgo₂ hflush₂ hretry ⊢
    have hgo₃ := @watchdogScanQueue_spec env P s₂ .io (s₁.getTime env).1 hflush₂
    generalize watchdogScanQueue env s₂ .io (s₁.getTime env).1 = s₃ at hgo₃ hretry ⊢
    have hgo : Goes env P s.core ⟨none, none, none, 0, false, false⟩ s₃.core
        ⟨none, none, none, 0, false, false⟩ := (hgo₁.trans hgo₂).trans hgo₃
    have hs₃ := hgo.safe hs
    exact hgo.trans (retryLoop_spec _ _ hs₃ (fun _ => id)
      (Safe.retryList_ids hs₃) hretry)

end Retry

/-! ### Dispatch -/

section Dispatch

variable {a : Nat} {b o : Bool}

theorem repump_spec {x : Nat} {rest : List Nat}
    (hs : Safe ⟨s.core, ⟨none, none, none, a, b, o⟩⟩) (hlist : s.core.ctxStalled = x :: rest)
    (hroom : HasRoom s.core) (hgate : P.launch s.core.state s.core.frozen)
    (hclean : P.spoil ∨ Unspoiled s.core) :
    Goes env P.calm s.core ⟨none, none, none, a, b, o⟩
      (repump env { s with core := { s.core with ctxStalled := rest } } x).1.core
      ⟨none, none, none, a, b, o⟩ := by
  obtain ⟨ctx, hget, hst⟩ := hs.head_stalled hlist
  have hmore := ((hs.ctxs x).idle ctx hget hst.1).2
  let s₁ := State.editCtx { s with core := { s.core with ctxStalled := rest } } x
    (fun y => { y with stalled := false })
  have htake : Goes env P.calm s.core ⟨none, none, none, a, b, o⟩ s₁.core
      ⟨none, none, some x, a, b, o⟩ := .move fun _ => .unstall hlist rfl rfl (.inl hroom)
  have hget₁ : s₁.core.ctxs.get x = some { ctx with stalled := false } :=
    get_modify_self hget
  obtain ⟨hpump, ctx', hget', -, -, hres⟩ := @nvmeIoContextPump_spec env P x s₁ _ none a b o
    (htake.safe hs) hget₁ rfl hmore hgate
    (hclean.symm.imp (fun h => h x ctx hget hst.1) id)
  unfold repump
  dsimp only
  generalize nvmeIoContextPump env s₁ x = p at hpump hget' hres ⊢
  obtain ⟨s₂, err⟩ := p
  dsimp only at hpump hget' hres ⊢
  rw [hget']
  dsimp only
  refine (htake.trans hpump).trans ?_
  split
  · rename_i hstall
    exact .move fun _ => .dropCtx rfl hget' (.inl hstall)
  · rename_i hstall
    split
    · rename_i hend
      rcases hres with ⟨herr, -⟩ | ⟨-, hidle, hfree, hfail, -⟩
      · exact absurd herr hend.1
      · exact nvmeIoContextFinish_spec hget' hidle hfree (.inl hfail)
    · rename_i hgoes
      refine .move fun _ => .dropCtx rfl hget' (.inr ?_)
      rcases hres with ⟨-, h | h⟩ | ⟨rfl, hidle, -⟩
      · exact absurd h hstall
      · exact h
      · exact absurd ⟨by decide, hidle⟩ hgoes

theorem drainStalled_spec (n : Nat) :
    ∀ {s : State}, Safe ⟨s.core, ⟨none, none, none, a, b, o⟩⟩ →
      (s.core.ctxStalled ≠ [] → hasRoom s → P.launch s.core.state s.core.frozen) →
      (P.spoil ∨ Unspoiled s.core) →
      Goes env P.calm s.core ⟨none, none, none, a, b, o⟩ (drainStalled env n s).core
        ⟨none, none, none, a, b, o⟩ := by
  induction n with
  | zero =>
      intro s _ _ _
      exact Goes.refl _ _
  | succ n ih =>
      intro s hs hgate hclean
      unfold drainStalled
      split
      · rename_i hroom
        cases hlist : s.core.ctxStalled with
        | nil => exact Goes.refl _ _
        | cons x rest =>
            have hgo := hgate (by rw [hlist]; exact List.cons_ne_nil _ _) hroom
            have hpump := @repump_spec env P s a b o x rest hs hlist hroom hgo hclean
            have hclean' := ((keeps_unspoiled env P.calm).path (hpump hs) ⟨hs, hclean⟩).2
            have hstill := hpump.still hs
            dsimp only
            generalize repump env { s with core := { s.core with ctxStalled := rest } } x = p
              at hpump hclean' hstill ⊢
            obtain ⟨s₁, again⟩ := p
            cases again with
            | true => exact hpump
            | false =>
                refine hpump.trans (ih (hpump.safe hs) ?_ hclean')
                intro _ _
                rw [hstill.state, hstill.frozen]
                exact hgo
      · exact Goes.refl _ _

theorem drainPending_spec (n : Nat) :
    ∀ {s : State}, Safe ⟨s.core, ⟨none, none, none, a, b, o⟩⟩ →
      (s.core.state = .live → P.launch s.core.state s.core.frozen) → P.translate → P.queue →
      Goes env P.calm s.core ⟨none, none, none, a, b, o⟩ (drainPending env n s).core
        ⟨none, none, none, a, b, o⟩ := by
  induction n with
  | zero =>
      intro s _ _ _ _
      exact Goes.refl _ _
  | succ n ih =>
      intro s hs hgate htr hqueue
      unfold drainPending
      split
      · rename_i hroom
        cases hlist : s.core.ioPending with
        | nil => exact Goes.refl _ _
        | cons i rest =>
            dsimp only
            have htake : Goes env P.calm s.core ⟨none, none, none, a, b, o⟩
                { s.core with ioPending := rest } ⟨some i, none, none, a, b, o⟩ :=
              .move fun _ => .takePending hlist rfl hqueue
            have hproc := @processCommand_spec env P
              { s with core := { s.core with ioPending := rest } } i a b o (htake.safe hs)
              (fun _ => hroom) hgate (fun _ => htr)
            have hall := htake.trans hproc
            have hstill := hall.still hs
            refine hall.trans (ih (hall.safe hs) ?_ htr hqueue)
            rw [hstill.state, hstill.frozen]
            exact hgate
      · exact Goes.refl _ _

theorem drainMessages_spec (n : Nat) :
    ∀ {s : State}, Safe ⟨s.core, ⟨none, none, none, a, b, o⟩⟩ →
      (s.core.state = .live → P.launch s.core.state s.core.frozen) → P.translate → P.queue →
      Goes env P.calm s.core ⟨none, none, none, a, b, o⟩ (drainMessages env n s).core
        ⟨none, none, none, a, b, o⟩ := by
  induction n with
  | zero =>
      intro s _ _ _ _
      exact Goes.refl _ _
  | succ n ih =>
      intro s hs hgate htr hqueue
      unfold drainMessages
      cases hlist : s.core.msgPort with
      | nil => exact Goes.refl _ _
      | cons i rest =>
          dsimp only
          have htake : Goes env P.calm s.core ⟨none, none, none, a, b, o⟩
              { s.core with msgPort := rest } ⟨some i, none, none, a, b, o⟩ :=
            .move fun _ => .takeMsg hlist rfl hqueue
          split
          · have hstash : Goes env P.calm { s.core with msgPort := rest }
                ⟨some i, none, none, a, b, o⟩
                { s.core with msgPort := rest, ioPending := s.core.ioPending ++ [i] }
                ⟨none, none, none, a, b, o⟩ := .move fun _ => .stash rfl hqueue
            have hall := htake.trans hstash
            exact hall.trans (@ih { s with core := { s.core with
              msgPort := rest, ioPending := s.core.ioPending ++ [i] } } (hall.safe hs) hgate htr
              hqueue)
          · rename_i hnow
            have hroom : (env.ios i).command ≠ .cmdInternalAbortRequest → HasRoom s.core := by
              intro hcmd
              by_contra hfull
              exact hnow ⟨hcmd, .inl hfull⟩
            have hproc := @processCommand_spec env P
              { s with core := { s.core with msgPort := rest } } i a b o (htake.safe hs)
              hroom hgate (fun _ => htr)
            have hall := htake.trans hproc
            have hstill := hall.still hs
            refine hall.trans (ih (hall.safe hs) ?_ htr hqueue)
            rw [hstill.state, hstill.frozen]
            exact hgate

/-- What the dispatch asks of the policy. -/
def DispatchMeets (P : Policy) (s : State) : Prop :=
  s.core.stopped = false → s.core.frozen = false →
    (s.core.ctxStalled ≠ [] → hasRoom s → P.launch s.core.state false) ∧
      (s.core.state = .live → P.launch s.core.state false) ∧ (P.spoil ∨ Unspoiled s.core) ∧
      P.translate ∧ P.queue

theorem nvmeDrainMsgport_spec (hmeets : DispatchMeets P s) :
    Goes env P.calm s.core ⟨none, none, none, 0, false, false⟩ (nvmeDrainMsgport env s).core
      ⟨none, none, none, 0, false, false⟩ := by
  refine .assume fun hs => ?_
  unfold nvmeDrainMsgport
  split
  · exact Goes.refl _ _
  · rename_i hopen
    rw [not_or, Bool.not_eq_true, Bool.not_eq_true] at hopen
    obtain ⟨hgate₀, hgate₁, hclean, htr, hqueue⟩ := hmeets hopen.1 hopen.2
    rw [← hopen.2] at hgate₀ hgate₁
    dsimp only
    have hbegin : Goes env P.calm s.core ⟨none, none, none, 0, false, false⟩
        (nvmeSqBatchBegin s .io).core ⟨none, none, none, 0, true, false⟩ :=
      nvmeSqBatchBegin_spec
    have hann : Announced P.calm s.core := Announced.of_rung hs rfl
    have hann₁ : Announced P (nvmeSqBatchBegin s .io).core := hann
    have hs₁ := hbegin.safe hs
    have hgate₀ : (nvmeSqBatchBegin s .io).core.ctxStalled ≠ [] →
        hasRoom (nvmeSqBatchBegin s .io) → P.launch (nvmeSqBatchBegin s .io).core.state
          (nvmeSqBatchBegin s .io).core.frozen := hgate₀
    have hgate₁ : (nvmeSqBatchBegin s .io).core.state = .live →
        P.launch (nvmeSqBatchBegin s .io).core.state (nvmeSqBatchBegin s .io).core.frozen :=
      hgate₁
    have hclean : P.spoil ∨ Unspoiled (nvmeSqBatchBegin s .io).core := hclean
    generalize nvmeSqBatchBegin s .io = s₁ at hbegin hann₁ hs₁ hgate₀ hgate₁ hclean ⊢
    have hgo₂ := @drainStalled_spec env P 0 true false s₁.core.ctxStalled.length s₁ hs₁ hgate₀
      hclean
    have hstill₂ := hgo₂.still hs₁
    generalize drainStalled env s₁.core.ctxStalled.length s₁ = s₂ at hgo₂ hstill₂ ⊢
    have hgate₂ : s₂.core.state = .live → P.launch s₂.core.state s₂.core.frozen := by
      rw [hstill₂.state, hstill₂.frozen]
      exact hgate₁
    have hgo₃ := @drainPending_spec env P 0 true false s₂.core.ioPending.length s₂
      (hgo₂.safe hs₁) hgate₂ htr hqueue
    have hstill₃ := hgo₃.still (hgo₂.safe hs₁)
    generalize drainPending env s₂.core.ioPending.length s₂ = s₃ at hgo₃ hstill₃ ⊢
    have hgate₃ : s₃.core.state = .live → P.launch s₃.core.state s₃.core.frozen := by
      rw [hstill₃.state, hstill₃.frozen]
      exact hgate₂
    have hgo₄ := @drainMessages_spec env P 0 true false s₃.core.msgPort.length s₃
      ((hgo₂.trans hgo₃).safe hs₁) hgate₃ htr hqueue
    generalize drainMessages env s₃.core.msgPort.length s₃ = s₄ at hgo₄ ⊢
    have hall := (hgo₂.trans hgo₃).trans hgo₄
    have hann₄ : Announced P.calm s₄.core :=
      hall.calm_induction (keeps_announced env P) hs₁ hann₁
    exact (hbegin.trans hall).trans (nvmeSqBatchEnd_spec hann₄)

end Dispatch

end Refine
end NvmeDriver
