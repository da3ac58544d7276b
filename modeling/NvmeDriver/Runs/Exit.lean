import NvmeDriver.Refine.Frame
import NvmeDriver.Runs.Clients

/-!
# Who is answered when the unit task ends

`nvme_ctrl_shutdown` force-completes what is in the in-flight tables, and `UnitTask`
answers what is on `io_pending` and on `ctx_stalled` when it leaves its loop.  Nothing
looks at `msgPort` or at `retry_list`: a client whose request is there, or whose context
waits for a sibling there, is never answered.
-/

namespace NvmeDriver
namespace Runs

open Engine
open Lib
open Ownership
open Refine

/-! ### What is owed -/

section Owed

/-- A client's message was accepted and not answered.  The messages `AbortIO` sends
itself are freed, not answered. -/
structure Owed (env : Env) (s : State) (i : Nat) : Prop where
  accepted : i < s.core.accepted
  client : (env.ios i).command ≠ .cmdInternalAbortRequest
  silent : ∀ e a, Effect.reply i e a ∉ s.core.trace

/-- A client request was answered with an error. -/
def Refused (s : State) (i : Nat) : Prop :=
  ∃ e a, Effect.reply i e a ∈ s.core.trace ∧ e ≠ 0

/-- Every client that is owed an answer in one state has got an error in the other. -/
def AllRefused (env : Env) (s s' : State) : Prop :=
  ∀ i, Owed env s i → Refused s' i

/-- The exit finds a client: on `io_pending`, or behind a context without siblings. -/
def AtExit (s : State) (i : Nat) : Prop :=
  i ∈ s.core.ioPending ∨
    ∃ x ctx, s.core.ctxs.get x = some ctx ∧ ctx.io = i ∧ ctx.inflight = 0

/-- Siblings of a context in the I/O table. -/
def slotSiblings (s : State) (x : Nat) : Nat :=
  Slots.held (fun r => r.ctx == some x) s.core.ioTab.inflight

/-- Shutdown and exit find a client: on `io_pending`, in the I/O table, or behind a context
all of whose siblings are in the I/O table. -/
def AtShutdown (s : State) (i : Nat) : Prop :=
  i ∈ s.core.ioPending ∨ (∃ tag r, s.slot .io tag = some r ∧ r.io = some i) ∨
    ∃ x ctx, s.core.ctxs.get x = some ctx ∧ ctx.io = i ∧ ctx.inflight = slotSiblings s x

end Owed

/-! ### The exit -/

section Leaving

variable {s : State}

theorem exitPending_core (n : Nat) :
    ∀ {s : State}, s.core.ioPending.length = n →
      (exitPending n s).core =
        { s.core with
          ioPending := []
          trace := (s.core.ioPending.map (fun i => Effect.reply i ioerrAborted 0)).reverse ++
            s.core.trace } := by
  induction n with
  | zero =>
      intro s hlen
      have hnil := List.eq_nil_of_length_eq_zero hlen
      unfold exitPending
      rw [hnil]
      simp only [List.map_nil, List.reverse_nil, List.nil_append]
      rw [← hnil]
  | succ n ih =>
      intro s hlen
      unfold exitPending
      cases hlist : s.core.ioPending with
      | nil =>
          rw [hlist] at hlen
          cases hlen
      | cons i rest =>
          rw [hlist] at hlen
          dsimp only
          rw [ih (Nat.succ.inj hlen)]
          simp [State.log, Core.log]

/-- What a finished context leaves. -/
theorem nvmeIoContextFinish_core {x : Nat} {ctx : IoContext}
    (hget : s.core.ctxs.get x = some ctx) :
    ∃ notes, Silent notes ∧
      (nvmeIoContextFinish s x).core =
        { s.core with
          ctxs := s.core.ctxs.erase x
          trace := .ctxFree x ::
            .reply ctx.io ctx.firstError (if ctx.firstError ≠ 0 then 0 else ctx.totalBytes) ::
            (notes ++ s.core.trace) } := by
  unfold nvmeIoContextFinish
  rw [hget]
  dsimp only
  split
  · refine ⟨[.cacheInval ctx.userData ctx.totalBytes,
      .ctxFinish x (decide (x ∈ s.core.ctxStalled)) (ctxSiblings s x)], by simp [Silent], ?_⟩
    simp only [State.log, Core.log, List.cons_append, List.nil_append]
  · refine ⟨[.ctxFinish x (decide (x ∈ s.core.ctxStalled)) (ctxSiblings s x)], by simp [Silent], ?_⟩
    simp only [State.log, Core.log, List.cons_append, List.nil_append]

/-- The answers a finished context adds. -/
theorem reply_finished {x : Nat} {ctx : IoContext} (hget : s.core.ctxs.get x = some ctx)
    {i a : Nat} {e : Int} :
    Effect.reply i e a ∈ (nvmeIoContextFinish s x).core.trace ↔
      (i = ctx.io ∧ e = ctx.firstError ∧
        a = if ctx.firstError ≠ 0 then 0 else ctx.totalBytes) ∨
      Effect.reply i e a ∈ s.core.trace := by
  obtain ⟨notes, hnotes, hcore⟩ := nvmeIoContextFinish_core hget
  rw [hcore]
  simp only [List.mem_cons, List.mem_append, Effect.reply.injEq, reduceCtorEq, false_or]
  constructor
  · rintro (h | h | h)
    · exact .inl h
    · exact absurd rfl (hnotes _ h i e a)
    · exact .inr h
  · rintro (h | h)
    · exact .inl h
    · exact .inr (.inr h)

theorem nvmeIoContextFinish_ctl (s : State) (x : Nat) : (nvmeIoContextFinish s x).ctl = s.ctl := by
  unfold nvmeIoContextFinish
  split
  · rfl
  · dsimp only
    split <;> rfl

/-- A context that is finished with an error. -/
theorem refused_finished {x : Nat} {ctx : IoContext} (hget : s.core.ctxs.get x = some ctx)
    (herr : ctx.firstError ≠ 0) (j : Nat) :
    Refused (nvmeIoContextFinish s x) j ↔ Refused s j ∨ j = ctx.io := by
  unfold Refused
  constructor
  · rintro ⟨e, a, hmem, he⟩
    rcases (reply_finished hget).mp hmem with ⟨hj, -⟩ | hmem
    · exact .inr hj
    · exact .inl ⟨e, a, hmem, he⟩
  · rintro (⟨e, a, hmem, he⟩ | hj)
    · exact ⟨e, a, (reply_finished hget).mpr (.inr hmem), he⟩
    · exact ⟨_, _, (reply_finished hget).mpr (.inl ⟨hj, rfl, rfl⟩), herr⟩

theorem exitStalled_replies (n : Nat) {i a : Nat} {e : Int} :
    ∀ {s : State}, s.core.ctxStalled.length = n → s.core.ctxStalled.Nodup →
      (∀ x, x ∈ s.core.ctxStalled → ∃ ctx, s.core.ctxs.get x = some ctx) →
      (Effect.reply i e a ∈ (exitStalled n s).core.trace ↔
        Effect.reply i e a ∈ s.core.trace ∨ (e = ioerrAborted ∧ a = 0) ∧
          ∃ x ctx, x ∈ s.core.ctxStalled ∧ s.core.ctxs.get x = some ctx ∧ ctx.io = i) := by
  have haborted : ioerrAborted ≠ 0 := by decide
  induction n with
  | zero =>
      intro s hlen _ _
      have hnil := List.eq_nil_of_length_eq_zero hlen
      unfold exitStalled
      rw [hnil]
      simp
  | succ n ih =>
      intro s hlen hnodup hlive
      unfold exitStalled
      cases hlist : s.core.ctxStalled with
      | nil =>
          rw [hlist] at hlen
          cases hlen
      | cons x rest =>
          rw [hlist] at hlen hnodup hlive
          obtain ⟨hx, hrest⟩ := List.nodup_cons.mp hnodup
          obtain ⟨ctx, hget⟩ := hlive x (List.mem_cons_self ..)
          dsimp only
          let s₁ := State.editCtx { s with core := { s.core with ctxStalled := rest } } x
            (fun y => { y with stalled := false, firstError := ioerrAborted })
          have hget₁ : s₁.core.ctxs.get x =
              some { ctx with stalled := false, firstError := ioerrAborted } :=
            get_modify_self hget
          -- the contexts further down the list are the same
          have hother : ∀ y, y ∈ rest →
              (nvmeIoContextFinish s₁ x).core.ctxs.get y = s.core.ctxs.get y := by
            intro y hy
            have hne : y ≠ x := fun h => hx (h ▸ hy)
            obtain ⟨_, -, hcore⟩ := nvmeIoContextFinish_core hget₁
            rw [hcore]
            dsimp only
            rw [Heap.get_erase, if_neg hne]
            exact get_modify_other _ hne
          have hstalled : (nvmeIoContextFinish s₁ x).core.ctxStalled = rest := by
            obtain ⟨_, -, hcore⟩ := nvmeIoContextFinish_core hget₁
            rw [hcore]
            rfl
          have hfin := @reply_finished s₁ x _ hget₁ i a e
          dsimp only at hfin
          rw [if_pos haborted] at hfin
          change Effect.reply i e a ∈ (exitStalled n (nvmeIoContextFinish s₁ x)).core.trace ↔ _
          rw [ih (by rw [hstalled]; exact Nat.succ.inj hlen) (by rw [hstalled]; exact hrest)
            (by
              intro y hy
              rw [hstalled] at hy
              rw [hother y hy]
              exact hlive y (List.mem_cons_of_mem _ hy)), hfin, hstalled]
          constructor
          · rintro ((⟨rfl, he, ha⟩ | h) | ⟨hea, y, c, hy, hc, hio⟩)
            · exact .inr ⟨⟨he, ha⟩, x, ctx, List.mem_cons_self .., hget, rfl⟩
            · exact .inl h
            · rw [hother y hy] at hc
              exact .inr ⟨hea, y, c, List.mem_cons_of_mem _ hy, hc, hio⟩
          · rintro (h | ⟨hea, y, c, hy, hc, hio⟩)
            · exact .inl (.inr h)
            · rcases List.mem_cons.mp hy with rfl | hy
              · rw [hget] at hc
                cases hc
                exact .inl (.inl ⟨hio.symm, hea.1, hea.2⟩)
              · rw [← hother y hy] at hc
                exact .inr ⟨hea, y, c, hy, hc, hio⟩

/-- Who is parked on `ctx_stalled`. -/
theorem mem_ctxStalled_iff (hs : Safe ⟨s.core, ⟨none, none, none, 0, false, false⟩⟩) {x : Nat} :
    x ∈ s.core.ctxStalled ↔ ∃ ctx, s.core.ctxs.get x = some ctx ∧ ctx.inflight = 0 := by
  have hok := hs.ctxs x
  have hparked := hok.parked
  dsimp only at hparked
  rw [← List.count_pos_iff, hparked]
  cases hget : s.core.ctxs.get x with
  | none => simp
  | some ctx =>
      rw [hit_some]
      constructor
      · intro hpos
        split at hpos
        · rename_i hst
          exact ⟨ctx, rfl, (hok.idle ctx hget hst).1⟩
        · cases hpos
      · rintro ⟨_, ⟨⟩, hzero⟩
        rcases hok.held ctx hget (fun h => nomatch h) with hst | hpos
        · rw [if_pos hst]
          exact Nat.one_pos
        · omega

theorem nodup_ctxStalled (hs : Safe ⟨s.core, ⟨none, none, none, 0, false, false⟩⟩) :
    s.core.ctxStalled.Nodup := by
  rw [List.nodup_iff_count_le_one]
  intro x
  have hparked := (hs.ctxs x).parked
  dsimp only at hparked
  rw [hparked]
  cases s.core.ctxs.get x with
  | none => exact Nat.zero_le 1
  | some ctx =>
      rw [hit_some]
      split <;> omega

/-- The exit answers who it finds, with an error, and nobody else. -/
theorem refused_exit_iff (hs : Safe ⟨s.core, ⟨none, none, none, 0, false, false⟩⟩) {i : Nat} :
    Refused (unitTaskExit s) i ↔ Refused s i ∨ AtExit s i := by
  have haborted : ioerrAborted ≠ 0 := by decide
  have hcore := exitPending_core s.core.ioPending.length (s := s) rfl
  have hstalled : (exitPending s.core.ioPending.length s).core.ctxStalled =
      s.core.ctxStalled := by
    rw [hcore]
  have hctxs : (exitPending s.core.ioPending.length s).core.ctxs = s.core.ctxs := by
    rw [hcore]
  have hreplies : ∀ e a, Effect.reply i e a ∈ (unitTaskExit s).core.trace ↔
      (Effect.reply i e a ∈ s.core.trace ∨
        (e = ioerrAborted ∧ a = 0) ∧ i ∈ s.core.ioPending) ∨
      (e = ioerrAborted ∧ a = 0) ∧
        ∃ x ctx, x ∈ s.core.ctxStalled ∧ s.core.ctxs.get x = some ctx ∧ ctx.io = i := by
    intro e a
    change Effect.reply i e a ∈ (exitStalled
      (exitPending s.core.ioPending.length s).core.ctxStalled.length
      (exitPending s.core.ioPending.length s)).core.trace ↔ _
    rw [exitStalled_replies _ rfl (by rw [hstalled]; exact nodup_ctxStalled hs), hstalled, hctxs,
      hcore]
    · simp only [List.mem_append, List.mem_reverse, List.mem_map, Effect.reply.injEq]
      refine or_congr ?_ Iff.rfl
      constructor
      · rintro (⟨j, hj, rfl, rfl, rfl⟩ | h)
        · exact .inr ⟨⟨rfl, rfl⟩, hj⟩
        · exact .inl h
      · rintro (h | ⟨⟨rfl, rfl⟩, hj⟩)
        · exact .inr h
        · exact .inl ⟨i, hj, rfl, rfl, rfl⟩
    · intro x hx
      rw [hstalled] at hx
      rw [hctxs]
      obtain ⟨ctx, hget, -⟩ := (mem_ctxStalled_iff hs).mp hx
      exact ⟨ctx, hget⟩
  unfold Refused AtExit
  constructor
  · rintro ⟨e, a, hmem, he⟩
    rcases (hreplies e a).mp hmem with (h | ⟨-, h⟩) | ⟨-, x, ctx, hx, hget, hio⟩
    · exact .inl ⟨e, a, h, he⟩
    · exact .inr (.inl h)
    · obtain ⟨ctx', hget', hzero⟩ := (mem_ctxStalled_iff hs).mp hx
      rw [hget] at hget'
      cases hget'
      exact .inr (.inr ⟨x, ctx, hget, hio, hzero⟩)
  · rintro (⟨e, a, h, he⟩ | h | ⟨x, ctx, hget, hio, hzero⟩)
    · exact ⟨e, a, (hreplies e a).mpr (.inl (.inl h)), he⟩
    · exact ⟨_, _, (hreplies _ _).mpr (.inl (.inr ⟨⟨rfl, rfl⟩, h⟩)), haborted⟩
    · have hx := (mem_ctxStalled_iff hs).mpr ⟨ctx, hget, hzero⟩
      exact ⟨_, _, (hreplies _ _).mpr (.inr ⟨⟨rfl, rfl⟩, x, ctx, hx, hget, hio⟩), haborted⟩

end Leaving

/-! ### The flush -/

section Flush

variable {env : Env} {s t : State}

theorem nvmeCompleteRq_cancelled (s : State) (r : Request) :
    nvmeCompleteRq env s { r with status := nvmeScHostAbortedCmd, cancelled := true } =
      completeRequest env s { r with status := nvmeScHostAbortedCmd, cancelled := true } := by
  unfold nvmeCompleteRq completeRq
  rw [nvmeDecideDisposition_cancelled]

/-- A request that was taken out of its slot, with its DMA resources released. -/
def cleared (s : State) (q : QueueId) (r : Request) : State :=
  (nvmeCleanupCmd ((s.releaseSlot q r.cid).log (.cancel q r.id))
    { r with status := nvmeScHostAbortedCmd, cancelled := true }).1

/-- The request as it was cancelled. -/
def cancelled (r : Request) : Request :=
  Request.withoutDma { r with status := nvmeScHostAbortedCmd, cancelled := true }

theorem flushSlot_some {q : QueueId} {tag : Nat} {r : Request} (hslot : s.slot q tag = some r) :
    flushSlot env q s tag =
      match r.ctx with
      | some x => completeSibling env (cleared s q r) (cancelled r) x
      | none => endReq env (cleared s q r) (cancelled r) := by
  unfold flushSlot
  rw [hslot]
  dsimp only
  rw [nvmeCompleteRq_cancelled]
  rfl

theorem cleared_core (s : State) (q : QueueId) (r : Request) :
    ∃ notes, Silent notes ∧
      (cleared s q r).core =
        stamp (s.core.setTab q (nvmeInflightRelease (s.core.tab q) r.cid)) s.core.allocs notes ∧
      (cleared s q r).ctl = s.ctl := by
  let s₁ := (s.releaseSlot q r.cid).log (.cancel q r.id)
  let r' := { r with status := nvmeScHostAbortedCmd, cancelled := true }
  obtain ⟨notes, hcore, hnotes⟩ := nvmeCleanupCmd_core s₁ r'
  refine ⟨notes ++ [.cancel q r.id], ?_, ?_, ?_⟩
  · intro e he i er a
    rcases List.mem_append.mp he with he | he
    · rintro rfl
      have := hnotes _ he
      cases this
    · rw [List.mem_singleton.mp he]
      exact fun h => nomatch h
  · change (nvmeCleanupCmd s₁ r').1.core = _
    rw [hcore]
    cases q <;> simp [s₁, stamp, State.log, Core.log, State.releaseSlot, State.setTab,
      Core.setTab, State.tab, Core.tab]
  · change (nvmeReqFreeDmaBuffers (nvmePostDma s₁ r') r').ctl = s.ctl
    rw [nvmeReqFreeDmaBuffers_eq]
    unfold nvmePostDma
    split
    · split
      · rfl
      · split <;> rfl
    · rfl

/-- The client has its answer or will be found. -/
def Saved (s : State) (i : Nat) : Prop := Refused s i ∨ AtShutdown s i

/-- A slot of the I/O table was emptied. -/
structure Emptied (s t : State) (tag : Nat) (r : Request) : Prop where
  pending : t.core.ioPending = s.core.ioPending
  slots : ∀ u, t.slot .io u = if u = tag then none else s.slot .io u
  siblings : ∀ x, slotSiblings t x + (if r.ctx = some x then 1 else 0) = slotSiblings s x
  blocked : t.core.unitBlocked = s.core.unitBlocked
  exited : t.ctl.unitExited = s.ctl.unitExited

theorem cleared_emptied {tag : Nat} {r : Request} (hslot : s.slot .io tag = some r)
    (htag : cidTag r.cid = tag) : Emptied s (cleared s .io r) tag r := by
  obtain ⟨notes, -, hcore, hctl⟩ := cleared_core s .io r
  have hread : s.core.ioTab.read (cidTag r.cid) = some r := htag.symm ▸ hslot
  have htab : (cleared s .io r).core.ioTab = nvmeInflightRelease s.core.ioTab r.cid := by
    rw [hcore]
    rfl
  constructor
  case pending => rw [hcore]; rfl
  case blocked => rw [hcore]; rfl
  case exited => rw [hctl]
  case slots =>
    intro u
    change (cleared s .io r).core.ioTab.read u = if u = tag then none else s.core.ioTab.read u
    rw [htab]
    have hinf : (nvmeInflightRelease s.core.ioTab r.cid).inflight =
        s.core.ioTab.inflight.set tag none := by
      unfold nvmeInflightRelease
      rw [hread, htag]
    unfold SlotTable.read
    rw [hinf]
    split
    · rename_i hu
      subst hu
      exact Slots.read_set_self _ (Slots.lt_length_of_read hslot)
    · rename_i hu
      exact Slots.read_set_other _ (fun h => hu h.symm)
  case siblings =>
    intro x
    have h := held_release (fun r => r.ctx == some x) hread
    unfold slotSiblings
    rw [htab, ← h, hit_some]
    simp only [beq_iff_eq]

/-- Later changes to the log and to the contexts leave the table alone. -/
theorem Emptied.later {u : State} {tag : Nat} {r : Request} (he : Emptied s t tag r)
    (hpending : u.core.ioPending = t.core.ioPending) (htab : u.core.ioTab = t.core.ioTab)
    (hblocked : u.core.unitBlocked = t.core.unitBlocked)
    (hexited : u.ctl.unitExited = t.ctl.unitExited) : Emptied s u tag r where
  pending := hpending.trans he.pending
  slots := fun v => by
    change u.core.ioTab.read v = _
    rw [htab]
    exact he.slots v
  siblings := fun x => by
    unfold slotSiblings
    rw [htab]
    exact he.siblings x
  blocked := hblocked.trans he.blocked
  exited := hexited.trans he.exited

/-- The slot of a client's only request. -/
theorem Emptied.saved_single {tag i : Nat} {r : Request} (he : Emptied s t tag r)
    (hslot : s.slot .io tag = some r) (hio : r.io = some i) (hctx : r.ctx = none)
    (hctxs : t.core.ctxs = s.core.ctxs)
    (hrefused : ∀ j, Refused t j ↔ Refused s j ∨ j = i) (j : Nat) :
    Saved t j ↔ Saved s j := by
  have hsibs : ∀ x, slotSiblings t x = slotSiblings s x := by
    intro x
    have h := he.siblings x
    rw [hctx] at h
    simpa using h
  unfold Saved AtShutdown
  rw [hrefused, he.pending, hctxs]
  constructor
  · rintro ((h | rfl) | h | ⟨u, r', hu, hr'⟩ | ⟨x, ctx, hget, hj, hinf⟩)
    · exact .inl h
    · exact .inr (.inr (.inl ⟨tag, r, hslot, hio⟩))
    · exact .inr (.inl h)
    · rw [he.slots] at hu
      split at hu
      · cases hu
      · exact .inr (.inr (.inl ⟨u, r', hu, hr'⟩))
    · exact .inr (.inr (.inr ⟨x, ctx, hget, hj, hinf.trans (hsibs x)⟩))
  · rintro (h | h | ⟨u, r', hu, hr'⟩ | ⟨x, ctx, hget, hj, hinf⟩)
    · exact .inl (.inl h)
    · exact .inr (.inl h)
    · by_cases hut : u = tag
      · subst hut
        rw [hslot] at hu
        cases hu
        exact .inl (.inr (Option.some.inj (hr'.symm.trans hio)))
      · refine .inr (.inr (.inl ⟨u, r', ?_, hr'⟩))
        rw [he.slots, if_neg hut]
        exact hu
    · exact .inr (.inr (.inr ⟨x, ctx, hget, hj, hinf.trans (hsibs x).symm⟩))

/-- What becomes of a context that loses a sibling: it counts one less, or it was the last
one and the client is answered. -/
inductive SiblingGone (s t : State) (x : Nat) (ctx : IoContext) : Prop
  | more (ctx' : IoContext) (hget : t.core.ctxs.get x = some ctx') (hio : ctx'.io = ctx.io)
      (hinf : ctx'.inflight + 1 = ctx.inflight) (hrefused : ∀ j, Refused t j ↔ Refused s j)
  | last (hget : t.core.ctxs.get x = none) (hinf : ctx.inflight = 1)
      (hrefused : ∀ j, Refused t j ↔ Refused s j ∨ j = ctx.io)

/-- The slot of a context's sibling. -/
theorem Emptied.saved_sibling {tag x : Nat} {r : Request} {ctx : IoContext}
    (he : Emptied s t tag r) (hslot : s.slot .io tag = some r) (hio : r.io = none)
    (hctx : r.ctx = some x) (hget : s.core.ctxs.get x = some ctx)
    (hle : slotSiblings s x ≤ ctx.inflight)
    (hother : ∀ y, y ≠ x → t.core.ctxs.get y = s.core.ctxs.get y)
    (hgone : SiblingGone s t x ctx) (j : Nat) : Saved t j ↔ Saved s j := by
  have hx : slotSiblings t x + 1 = slotSiblings s x := by
    have h := he.siblings x
    rwa [if_pos hctx] at h
  have hy : ∀ y, y ≠ x → slotSiblings t y = slotSiblings s y := by
    intro y hne
    have h := he.siblings y
    rw [if_neg (by rw [hctx]; exact fun h => hne (Option.some.inj h).symm)] at h
    exact h
  have hslots : (∃ u r', t.slot .io u = some r' ∧ r'.io = some j) ↔
      ∃ u r', s.slot .io u = some r' ∧ r'.io = some j := by
    constructor
    · rintro ⟨u, r', hu, hr'⟩
      rw [he.slots] at hu
      split at hu
      · cases hu
      · exact ⟨u, r', hu, hr'⟩
    · rintro ⟨u, r', hu, hr'⟩
      have hut : u ≠ tag := by
        rintro rfl
        rw [hslot] at hu
        cases hu
        rw [hio] at hr'
        cases hr'
      refine ⟨u, r', ?_, hr'⟩
      rw [he.slots, if_neg hut]
      exact hu
  unfold Saved AtShutdown
  rw [he.pending, hslots]
  cases hgone with
  | more ctx' hget' hio' hinf hrefused =>
      rw [hrefused]
      refine or_congr Iff.rfl (or_congr Iff.rfl (or_congr Iff.rfl ?_))
      constructor
      · rintro ⟨y, c, hc, hj, hcount⟩
        by_cases hyx : y = x
        · subst hyx
          rw [hget'] at hc
          cases hc
          exact ⟨y, ctx, hget, hio'.symm.trans hj, by omega⟩
        · exact ⟨y, c, (hother y hyx).symm.trans hc, hj, hcount.trans (hy y hyx)⟩
      · rintro ⟨y, c, hc, hj, hcount⟩
        by_cases hyx : y = x
        · subst hyx
          rw [hget] at hc
          cases hc
          exact ⟨y, ctx', hget', hio'.trans hj, by omega⟩
        · exact ⟨y, c, (hother y hyx).trans hc, hj, hcount.trans (hy y hyx).symm⟩
  | last hget' hinf hrefused =>
      rw [hrefused]
      constructor
      · rintro ((h | rfl) | h | h | ⟨y, c, hc, hj, hcount⟩)
        · exact .inl h
        · exact .inr (.inr (.inr ⟨x, ctx, hget, rfl, by omega⟩))
        · exact .inr (.inl h)
        · exact .inr (.inr (.inl h))
        · have hyx : y ≠ x := by
            rintro rfl
            rw [hget'] at hc
            cases hc
          exact .inr (.inr (.inr ⟨y, c, (hother y hyx).symm.trans hc, hj,
            hcount.trans (hy y hyx)⟩))
      · rintro (h | h | h | ⟨y, c, hc, hj, hcount⟩)
        · exact .inl (.inl h)
        · exact .inr (.inl h)
        · exact .inr (.inr (.inl h))
        · by_cases hyx : y = x
          · subst hyx
            rw [hget] at hc
            cases hc
            exact .inl (.inr hj.symm)
          · exact .inr (.inr (.inr ⟨y, c, (hother y hyx).trans hc, hj,
              hcount.trans (hy y hyx).symm⟩))

/-- Log entries that answer nobody. -/
theorem refused_same (notes : List Effect)
    (hnotes : Silent notes)
    (htrace : t.core.trace = notes ++ s.core.trace) (j : Nat) : Refused t j ↔ Refused s j := by
  unfold Refused
  rw [htrace]
  constructor
  · rintro ⟨e, a, hmem, hne⟩
    rcases List.mem_append.mp hmem with hmem | hmem
    · exact absurd rfl (hnotes _ hmem j e a)
    · exact ⟨e, a, hmem, hne⟩
  · rintro ⟨e, a, hmem, hne⟩
    exact ⟨e, a, List.mem_append_right _ hmem, hne⟩

theorem cleared_refused (s : State) (q : QueueId) (r : Request) (j : Nat) :
    Refused (cleared s q r) j ↔ Refused s j := by
  obtain ⟨notes, hnotes, hcore, -⟩ := cleared_core s q r
  refine refused_same notes hnotes ?_ j
  rw [hcore]
  cases q <;> rfl

theorem cleared_ctxs (s : State) (q : QueueId) (r : Request) :
    (cleared s q r).core.ctxs = s.core.ctxs := by
  obtain ⟨notes, -, hcore, -⟩ := cleared_core s q r
  rw [hcore]
  cases q <;> rfl

/-- An error for one more client. -/
theorem refused_reply (notes : List Effect) {i a : Nat} {e : Int} (he : e ≠ 0)
    (hnotes : Silent notes)
    (htrace : t.core.trace = notes ++ .reply i e a :: s.core.trace) (j : Nat) :
    Refused t j ↔ Refused s j ∨ j = i := by
  unfold Refused
  rw [htrace]
  constructor
  · rintro ⟨e', a', hmem, hne⟩
    rcases List.mem_append.mp hmem with hmem | hmem
    · exact absurd rfl (hnotes _ hmem j e' a')
    · rcases List.mem_cons.mp hmem with heq | hmem
      · cases heq
        exact .inr rfl
      · exact .inl ⟨e', a', hmem, hne⟩
  · rintro (⟨e', a', hmem, hne⟩ | rfl)
    · exact ⟨e', a', List.mem_append_right _ (List.mem_cons_of_mem _ hmem), hne⟩
    · exact ⟨e, a, List.mem_append_right _ (List.mem_cons_self ..), he⟩

/-- The end of a cancelled request without a context. -/
theorem endReq_cancelled {r : Request} {i : Nat} (hio : r.io = some i) (hdone : r.done = none)
    (hwait : r.waiter = none) :
    endReq env t (cancelled r) =
      (t.log (.reply i (nvmeErrorStatus nvmeScHostAbortedCmd) 0)).log (.reqFree r.id) := by
  have hio' : (cancelled r).io = some i := hio
  have hdone' : (cancelled r).done = none := hdone
  have hwait' : (cancelled r).waiter = none := hwait
  unfold endReq
  rw [hio', hdone', hwait']
  dsimp only
  rw [if_neg (by exact (by decide : nvmeErrorStatus nvmeScHostAbortedCmd ≠ 0))]
  rfl

/-- A cancelled sibling stops its context. -/
theorem siblingDone_firstError (ctx : IoContext) (r : Request) :
    (ctx.siblingDone (cancelled r)).firstError ≠ 0 := by
  unfold IoContext.siblingDone
  dsimp only
  have hstatus : (cancelled r).status = nvmeScHostAbortedCmd := rfl
  rw [hstatus]
  split
  · exact (by decide : nvmeErrorStatus nvmeScHostAbortedCmd ≠ 0)
  · rename_i hno
    exact fun h => hno ⟨by decide, h⟩

/-- The end of a cancelled sibling: the context is finished with the last one. -/
theorem completeSibling_cancelled {r : Request} {x : Nat} {ctx : IoContext}
    (hget : t.core.ctxs.get x = some ctx) (hstall : ctx.stalled = false) :
    let t₁ := (t.editCtx x (fun _ => ctx.siblingDone (cancelled r))).log (.reqFree r.id)
    completeSibling env t (cancelled r) x =
      if ctx.inflight - 1 = 0 then nvmeIoContextFinish t₁ x else t₁ := by
  intro t₁
  have hget₁ : t₁.core.ctxs.get x = some (ctx.siblingDone (cancelled r)) :=
    get_modify_self hget
  unfold completeSibling
  rw [hget]
  dsimp only
  rw [if_neg fun h => siblingDone_firstError ctx r h.2]
  change finishIfIdle t₁ x = _
  unfold finishIfIdle
  rw [hget₁]
  dsimp only
  refine if_congr ?_ rfl rfl
  exact ⟨fun h => h.1, fun h => ⟨h, hstall⟩⟩

/-- Some slots of the I/O table were flushed. -/
structure Flushed (s t : State) (tags : List Nat) : Prop where
  saved : ∀ j, Saved t j ↔ Saved s j
  slots : ∀ u, t.slot .io u = if u ∈ tags then none else s.slot .io u
  blocked : t.core.unitBlocked = s.core.unitBlocked
  exited : t.ctl.unitExited = s.ctl.unitExited

theorem Emptied.flushed {tag : Nat} {r : Request} (he : Emptied s t tag r)
    (hsaved : ∀ j, Saved t j ↔ Saved s j) : Flushed s t [tag] where
  saved := hsaved
  slots := fun u => by
    rw [he.slots]
    simp only [List.mem_singleton]
  blocked := he.blocked
  exited := he.exited

theorem slotSiblings_le (hs : Safe ⟨s.core, ⟨none, none, none, 0, false, false⟩⟩) {x : Nat}
    {ctx : IoContext} (hget : s.core.ctxs.get x = some ctx) :
    slotSiblings s x ≤ ctx.inflight := by
  have h := (hs.ctxs x).siblings ctx hget
  have hle := ctxSiblings_le s x ⟨none, none, none, 0, false, false⟩
  unfold ctxSiblings at hle
  unfold slotSiblings
  omega

theorem flushSlot_flushed (hs : Safe ⟨s.core, ⟨none, none, none, 0, false, false⟩⟩)
    (tag : Nat) : Flushed s (flushSlot env .io s tag) [tag] := by
  cases hslot : s.slot .io tag with
  | none =>
      have hsame : flushSlot env .io s tag = s := by
        unfold flushSlot
        rw [hslot]
      rw [hsame]
      refine ⟨fun _ => Iff.rfl, fun u => ?_, rfl, rfl⟩
      by_cases hu : u = tag
      · simp [hu, hslot]
      · simp [hu]
  | some r =>
      obtain ⟨htag, hq⟩ := (hs.tabs .io).slots tag r hslot
      have hsound := Safe.sound_slot hs hslot
      obtain ⟨hserves, hdone, hwait⟩ := hsound.2.2 hq
      have hcleared := cleared_emptied hslot htag
      rw [flushSlot_some hslot]
      cases hctx : r.ctx with
      | none =>
          obtain ⟨i, hio⟩ : ∃ i, r.io = some i := by
            rcases hserves with h | h
            · exact Option.ne_none_iff_exists'.mp h
            · exact absurd hctx h
          dsimp only
          rw [endReq_cancelled hio hdone hwait]
          have he := hcleared.later (u := ((cleared s .io r).log
            (.reply i (nvmeErrorStatus nvmeScHostAbortedCmd) 0)).log (.reqFree r.id))
            rfl rfl rfl rfl
          refine he.flushed (he.saved_single hslot hio hctx (cleared_ctxs s .io r) ?_)
          intro j
          rw [← cleared_refused s .io r]
          exact refused_reply [.reqFree r.id] (by decide) (by simp [Silent]) rfl j
      | some x =>
          have hio : r.io = none := (hsound.1 (by simp [keyOf, hctx])).1
          obtain ⟨ctx, hget⟩ := Option.ne_none_iff_exists'.mp
            (Safe.ctxAlive hs (.inl ⟨tag, hslot⟩) hctx)
          have hle := slotSiblings_le hs hget
          have hpos : 0 < slotSiblings s x :=
            Slots.held_pos_of_read hslot (by simp [hctx])
          have hstall : ctx.stalled = false := by
            by_contra hst
            have := ((hs.ctxs x).idle ctx hget (by simpa using hst)).1
            omega
          have hget' : (cleared s .io r).core.ctxs.get x = some ctx :=
            (cleared_ctxs s .io r).symm ▸ hget
          dsimp only
          rw [completeSibling_cancelled hget' hstall]
          let t₁ := ((cleared s .io r).editCtx x
            (fun _ => ctx.siblingDone (cancelled r))).log (.reqFree r.id)
          have hget₁ : t₁.core.ctxs.get x = some (ctx.siblingDone (cancelled r)) :=
            get_modify_self hget'
          have hother₁ : ∀ y, y ≠ x → t₁.core.ctxs.get y = s.core.ctxs.get y := by
            intro y hy
            rw [← cleared_ctxs s .io r]
            exact get_modify_other _ hy
          have hrefused₁ : ∀ j, Refused t₁ j ↔ Refused s j := by
            intro j
            rw [← cleared_refused s .io r]
            exact refused_same [.reqFree r.id] (by simp [Silent]) rfl j
          have he₁ := hcleared.later (u := t₁) rfl rfl rfl rfl
          change Flushed s (if ctx.inflight - 1 = 0 then nvmeIoContextFinish t₁ x else t₁) [tag]
          split
          · rename_i hlast
            obtain ⟨notes, hnotes, hcore⟩ := nvmeIoContextFinish_core hget₁
            have he₂ := he₁.later (u := nvmeIoContextFinish t₁ x) (by rw [hcore])
              (by rw [hcore]) (by rw [hcore]) (by rw [nvmeIoContextFinish_ctl])
            refine he₂.flushed (he₂.saved_sibling hslot hio hctx hget hle ?_ (.last ?_ ?_ ?_))
            · intro y hy
              rw [hcore, ← hother₁ y hy]
              exact (Heap.get_erase ..).trans (if_neg hy)
            · rw [hcore]
              exact (Heap.get_erase ..).trans (if_pos rfl)
            · omega
            · intro j
              rw [← hrefused₁]
              exact refused_finished hget₁ (siblingDone_firstError ctx r) j
          · rename_i hmore
            refine he₁.flushed (he₁.saved_sibling hslot hio hctx hget hle hother₁
              (.more _ hget₁ rfl ?_ hrefused₁))
            change ctx.inflight - 1 + 1 = ctx.inflight
            omega

theorem Flushed.trans {u : State} {tags tags' : List Nat} (h₁ : Flushed s t tags)
    (h₂ : Flushed t u tags') : Flushed s u (tags ++ tags') where
  saved := fun j => (h₂.saved j).trans (h₁.saved j)
  slots := fun v => by
    rw [h₂.slots, h₁.slots]
    by_cases hv : v ∈ tags <;> by_cases hv' : v ∈ tags' <;> simp [hv, hv']
  blocked := h₂.blocked.trans h₁.blocked
  exited := h₂.exited.trans h₁.exited

theorem foldl_flushSlot_flushed (tags : List Nat) :
    ∀ {s : State}, Safe ⟨s.core, ⟨none, none, none, 0, false, false⟩⟩ →
      Flushed s (tags.foldl (flushSlot env .io) s) tags := by
  induction tags with
  | nil => exact fun _ => ⟨fun _ => Iff.rfl, fun _ => rfl, rfl, rfl⟩
  | cons tag tags ih =>
      intro s hs
      have hgo := @flushSlot_spec env Refine.Policy.all s false .io trivial
        (fun h => nomatch h) tag
      exact (flushSlot_flushed hs tag).trans (ih (hgo.safe hs))

/-- The flush of the I/O queue leaves its table empty and drops nobody it finds. -/
theorem nvmeFlushQueueInflight_io (hs : Safe ⟨s.core, ⟨none, none, none, 0, false, false⟩⟩) :
    let t := nvmeFlushQueueInflight env s .io
    (∀ j, Refused t j ∨ AtExit t j ↔ Saved s j) ∧
      t.core.unitBlocked = s.core.unitBlocked ∧ t.ctl.unitExited = s.ctl.unitExited := by
  intro t
  have hf : Flushed s t (List.range (s.tab .io).depth) := foldl_flushSlot_flushed _ hs
  have hempty : ∀ u, t.slot .io u = none := by
    intro u
    rw [hf.slots]
    split
    · rfl
    · rename_i hu
      refine Slots.read_eq_none_of_le ?_
      have hlen : s.core.ioTab.inflight.length = s.core.ioTab.depth := (hs.tabs .io).length
      exact hlen ▸ Nat.le_of_not_lt fun h => hu (List.mem_range.mpr h)
  have hzero : ∀ x, slotSiblings t x = 0 := by
    intro x
    by_contra hne
    obtain ⟨u, r, hread, -⟩ := Slots.exists_read_of_held_pos (Nat.pos_of_ne_zero hne)
    exact Option.some_ne_none r (hread.symm.trans (hempty u))
  refine ⟨fun j => ?_, hf.blocked, hf.exited⟩
  rw [← hf.saved]
  unfold Saved AtShutdown AtExit
  simp only [hempty, hzero, reduceCtorEq, false_and, exists_false, false_or]

end Flush

/-! ### The admin queue -/

section Aside

variable {env : Env} {s t u : State}

/-- A step that has nothing to do with clients. -/
structure Aside (s t : State) : Prop where
  pending : t.core.ioPending = s.core.ioPending
  ctxs : t.core.ctxs = s.core.ctxs
  refused : ∀ j, Refused t j ↔ Refused s j
  blocked : t.core.unitBlocked = s.core.unitBlocked
  exited : t.ctl.unitExited = s.ctl.unitExited

namespace Aside

theorem refl (s : State) : Aside s s := ⟨rfl, rfl, fun _ => Iff.rfl, rfl, rfl⟩

theorem trans (h₁ : Aside s t) (h₂ : Aside t u) : Aside s u :=
  ⟨h₂.pending.trans h₁.pending, h₂.ctxs.trans h₁.ctxs,
    fun j => (h₂.refused j).trans (h₁.refused j), h₂.blocked.trans h₁.blocked,
    h₂.exited.trans h₁.exited⟩

/-- Work on one queue. -/
theorem onQueue {q : QueueId} (h : OnQueue q s t) : Aside s t := by
  obtain ⟨⟨tab, ring, n, es, hcore, hes⟩, hexited⟩ := h
  refine ⟨?_, ?_, refused_same es hes ?_, ?_, hexited⟩ <;> rw [hcore] <;> cases q <;> rfl

theorem log (s : State) {e : Effect} (he : Silent [e]) : Aside s (s.log e) :=
  onQueue (OnQueue.log .admin s he)

theorem nvmeChangeCtrlState (s : State) (st : CtrlState) :
    Aside s (Engine.nvmeChangeCtrlState s st).1 := by
  unfold Engine.nvmeChangeCtrlState
  split
  · exact ⟨rfl, rfl, refused_same [.phase st] (by simp [Silent]) rfl, rfl, rfl⟩
  · exact refl s

theorem nvmeResetFinish_false (s : State) : Aside s (nvmeResetFinish env s false) :=
  ((log s (by simp [Silent])).trans (nvmeChangeCtrlState _ _)).trans (nvmeChangeCtrlState _ _)

end Aside

/-- The callbacks do nothing for clients when their command has failed. -/
theorem runDone_aside {r : Request} (hstatus : r.status ≠ 0) (d : Done) :
    Aside s (runDone env s r d) := by
  have hfree : ∀ t : State, Aside t (t.log (.reqFree r.id)) := fun t =>
    Aside.log t (by simp [Silent])
  have hfailed : ∀ t : State, Aside t (rebuildFailed env t) := fun t =>
    (Aside.onQueue (OnQueue.nvmeTeardownQueue t .io)).trans (Aside.nvmeResetFinish_false _)
  cases d with
  | abortDone => exact hfree s
  | aerDone =>
      unfold runDone nvmeCompleteAsyncEvent
      rw [if_pos hstatus]
      exact (hfree s).trans (Aside.onQueue (OnQueue.nvmeSubmitAsyncCmd _ _ _ _ _ _))
  | fwSlotInfoDone =>
      unfold runDone
      cases r.priv with
      | none => exact hfree s
      | some a => exact (Aside.log s (by simp [Silent])).trans (hfree _)
  | ioSetupAsyncFeatures =>
      unfold runDone nvmeIoSetupAsyncFeatures
      rw [if_pos hstatus]
      exact (hfree s).trans (Aside.nvmeResetFinish_false _)
  | ioSetupAsyncCq =>
      unfold runDone nvmeIoSetupAsyncCq
      rw [if_pos hstatus]
      exact (hfree s).trans (hfailed _)
  | ioSetupAsyncSq =>
      unfold runDone nvmeIoSetupAsyncSq
      rw [if_pos hstatus]
      exact (hfree s).trans (hfailed _)

theorem cleared_aside (s : State) (r : Request) : Aside s (cleared s .admin r) := by
  obtain ⟨notes, hnotes, hcore, hctl⟩ := cleared_core s .admin r
  have hstate : cleared s .admin r =
      { core := stamp (s.core.setTab .admin (nvmeInflightRelease (s.core.tab .admin) r.cid))
          s.core.allocs notes
        ctl := s.ctl } := by
    rw [← hcore, ← hctl]
  rw [hstate]
  exact ⟨rfl, rfl, refused_same notes hnotes rfl, rfl, rfl⟩

theorem flushSlot_aside (hs : Safe ⟨s.core, ⟨none, none, none, 0, false, false⟩⟩)
    (tag : Nat) : Aside s (flushSlot env .admin s tag) := by
  cases hslot : s.slot .admin tag with
  | none =>
      unfold flushSlot
      rw [hslot]
      exact Aside.refl s
  | some r =>
      have hsound := Safe.sound_slot hs hslot
      have hq := ((hs.tabs .admin).slots tag r hslot).2
      have hnot : ¬r.q = .io := by
        rw [hq]
        exact fun h => nomatch h
      have hctx : r.ctx = none := by
        by_contra hne
        exact hnot (hsound.1 hne).2
      have hio : (cancelled r).io = none := by
        by_contra hne
        exact hnot (hsound.2.1 hne)
      rw [flushSlot_some hslot, hctx]
      dsimp only
      refine (cleared_aside s r).trans ?_
      generalize cleared s .admin r = t
      unfold endReq
      rw [hio]
      split
      · rename_i d _
        exact runDone_aside (by exact (by decide : nvmeScHostAbortedCmd ≠ 0)) d
      · exact (Aside.log t (by simp [Silent])).trans ⟨rfl, rfl, fun _ => Iff.rfl, rfl, rfl⟩
      · rename_i h
        cases h
      · exact Aside.refl t

theorem foldl_flushSlot_aside (tags : List Nat) :
    ∀ {s : State}, Safe ⟨s.core, ⟨none, none, none, 0, false, false⟩⟩ →
      Aside s (tags.foldl (flushSlot env .admin) s) := by
  induction tags with
  | nil => exact fun _ => Aside.refl _
  | cons tag tags ih =>
      intro s hs
      have hgo := @flushSlot_spec env Refine.Policy.all s false .admin trivial
        (fun _ => ⟨trivial, fun _ _ => trivial⟩) tag
      exact (flushSlot_aside hs tag).trans (ih (hgo.safe hs))

theorem nvmeDisableCtrl_aside (s : State) : Aside s (nvmeDisableCtrl env s) := by
  have hwait : Aside s ((s.log .disable).waitReady env).2 :=
    (Aside.log s (by simp [Silent])).trans ⟨rfl, rfl, fun _ => Iff.rfl, rfl, rfl⟩
  unfold nvmeDisableCtrl
  generalize (s.log .disable).waitReady env = p at hwait ⊢
  obtain ⟨_ | _, s₁⟩ := p
  · exact hwait
  · exact hwait.trans (Aside.log s₁ (by simp [Silent]))

/-- Shutdown answers or leaves to the exit whom it finds. -/
theorem nvmeCtrlShutdown_finds (hs : Safe ⟨s.core, ⟨none, none, none, 0, false, false⟩⟩) :
    let t := nvmeCtrlShutdown env s
    (∀ j, Refused t j ∨ AtExit t j ↔ Saved s j) ∧ (unitRuns s → unitRuns t) := by
  intro t
  let s₁ := nvmeQuiesceAdminQueue (nvmeQuiesceIoQueues s)
  have hs₁ : Safe ⟨s₁.core, ⟨none, none, none, 0, false, false⟩⟩ :=
    keeps_safe env Refine.Policy.all _ _ hs (.phase trivial .quiesce)
  obtain ⟨hfinds, hblocked, hexited⟩ := @nvmeFlushQueueInflight_io env _ hs₁
  have hgo := @nvmeFlushQueueInflight_spec env Refine.Policy.all s₁ false .io trivial
    (fun h => nomatch h)
  have haside : Aside (nvmeFlushQueueInflight env s₁ .io) t :=
    (((foldl_flushSlot_aside _ (hgo.safe hs₁)).trans (nvmeDisableCtrl_aside _)).trans
      (Aside.onQueue (OnQueue.nvmeTeardownQueue _ .io))).trans
      (Aside.onQueue (OnQueue.nvmeTeardownQueue _ .admin))
  refine ⟨fun j => ?_, fun hrun => ⟨?_, ?_⟩⟩
  · have hexit : AtExit t j ↔ AtExit (nvmeFlushQueueInflight env s₁ .io) j := by
      unfold AtExit
      rw [haside.pending, haside.ctxs]
    rw [haside.refused, hexit]
    exact hfinds j
  · exact (haside.blocked.trans hblocked).trans hrun.1
  · exact (haside.exited.trans hexited).trans hrun.2

end Aside

/-! ### Exactly who is answered -/

section Answered

/-- States in which the unit task is stopped: those of a controller that runs, and those of
a controller whose probe failed, which never had a unit and so never had a client. -/
inductive Stoppable (env : Env) : State → Prop
  | running (maxZeroes : Nat) (events : List Event) :
      Stoppable env (run env events (bootState env maxZeroes))
  | failed (s : State) (hnone : s.core.accepted = 0) : Stoppable env s

/-- Nobody is owed anything, or the invariant holds. -/
theorem Stoppable.safe_or {env : Env} {s : State} (hs : Stoppable env s) :
    Safe ⟨s.core, ⟨none, none, none, 0, false, false⟩⟩ ∨ ∀ i, ¬Owed env s i := by
  cases hs with
  | running maxZeroes events => exact .inl (run_safe env maxZeroes events)
  | failed s hnone =>
      refine .inr fun i hi => ?_
      have hlt := hi.accepted
      rw [hnone] at hlt
      cases hlt

/-- A client that is still on `msgPort`, and one whose read is on `retry_list`. -/
def forgottenRuns : List (List Event) :=
  [[.putMsg], [.putMsg, .drain, .irq [] [⟨0, 0xA81, 0⟩]]]

/-- Neither is ever answered. -/
theorem forgotten_unanswered :
    ∀ events, events ∈ forgottenRuns →
      unitRuns (run sampleEnv events (bootState sampleEnv 2048)) ∧
        ¬AllRefused sampleEnv (run sampleEnv events (bootState sampleEnv 2048))
          (run sampleEnv [.shutdown, .stop]
            (run sampleEnv events (bootState sampleEnv 2048))) := by
  intro events hmem
  have hnever : unitRuns (run sampleEnv events (bootState sampleEnv 2048)) ∧
      0 < (run sampleEnv events (bootState sampleEnv 2048)).core.accepted ∧
      (run sampleEnv events (bootState sampleEnv 2048)).core.trace.countP (isReply 0) = 0 ∧
      (run sampleEnv [.shutdown, .stop]
        (run sampleEnv events (bootState sampleEnv 2048))).core.trace.countP (isReply 0) = 0 := by
    revert events
    decide +kernel
  obtain ⟨hrun, haccepted, hbefore, hafter⟩ := hnever
  refine ⟨hrun, fun hall => ?_⟩
  have hsilent : ∀ {tr : List Effect}, tr.countP (isReply 0) = 0 →
      ∀ e a, Effect.reply 0 e a ∉ tr := by
    intro tr hcount e a hreply
    exact List.countP_eq_zero.mp hcount _ hreply rfl
  obtain ⟨e, a, hreply, -⟩ := hall 0 ⟨haccepted, by decide, hsilent hbefore⟩
  exact hsilent hafter e a hreply

end Answered

end Runs
end NvmeDriver
