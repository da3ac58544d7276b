import NvmeDriver.Refine.Run
import NvmeDriver.Ownership.Exact

/-!
# Client requests over whole runs

No run answers a client twice or frees anything twice.  A run of the unit task on the
I/O queue loses no client as long as no retry meets a full ring: `nvme_resubmit_io`
ignores what `nvme_submit_io` returns, and a submission that finds the ring full
destroys its request.
-/

namespace NvmeDriver
namespace Runs

open Engine
open Lib
open Ownership
open Refine

/-! ### Nothing happens twice -/

section Once

/-- Everything is allowed, but for what becomes of parked contexts and for what the
lists of client requests may see. -/
def carefulWith (abort spoil queue : Prop) : Policy :=
  { Refine.Policy.all with abort := abort, spoil := spoil, queue := queue }

/-- Everything is allowed, but for what becomes of parked contexts. -/
def careful (abort spoil : Prop) : Policy := carefulWith abort spoil True

theorem drainMeets_carefulWith (env : Env) (abort spoil queue : Prop) (q : QueueId)
    (cqes : List Cqe) : ∀ s, DrainMeets env (carefulWith abort spoil queue) q cqes s := by
  induction cqes with
  | nil => exact fun _ => trivial
  | cons cqe cqes ih =>
      intro s
      refine ⟨⟨fun _ _ => trivial, fun r _ => ?_⟩, fun _ => ih _⟩
      exact ⟨trivial, fun _ => ⟨trivial, fun _ _ => trivial⟩, fun _ _ => trivial,
        fun _ _ => trivial⟩

theorem retryMeets_carefulWith (env : Env) (abort spoil queue : Prop) (now : Nat)
    (l : List Request) : ∀ s, RetryMeets env (carefulWith abort spoil queue) now l s := by
  induction l with
  | nil => exact fun _ => trivial
  | cons r l ih =>
      intro s
      unfold RetryMeets
      split
      · exact ih s
      · refine ⟨⟨trivial, fun _ => ⟨trivial, fun _ _ => trivial⟩, fun _ => .inr trivial, ?_, ?_⟩,
          ih _⟩
        · exact fun _ _ => trivial
        · exact fun _ _ => trivial

/-- The steps that take client requests in or hand them over. -/
def handlesClients : Event → Prop
  | .putMsg | .drain | .stop => True
  | _ => False

/-- Steps meet such a policy as long as no parked context has failed and, where that is not
allowed, the unit task does not exit and no client request moves. -/
theorem meets_carefulWith (env : Env) {abort spoil queue : Prop} {s : State} {ev : Event}
    (hparked : spoil ∨ Unspoiled s.core) (hstop : ev = .stop → abort)
    (hqueue : handlesClients ev → queue) : Meets env (carefulWith abort spoil queue) s ev := by
  have hflush : ∀ q, FlushMeets (carefulWith abort spoil queue) q := fun q =>
    ⟨trivial, fun _ => ⟨trivial, fun _ _ => trivial⟩⟩
  have hhalt : HaltMeets (carefulWith abort spoil queue) :=
    ⟨trivial, fun _ => trivial, fun _ _ => trivial⟩
  have hproc : ∀ s admin io, ProcessMeets env (carefulWith abort spoil queue) s admin io :=
    fun s admin io =>
      ⟨trivial, drainMeets_carefulWith env _ _ _ _ _ _,
        fun _ => drainMeets_carefulWith env _ _ _ _ _ _⟩
  cases ev with
  | irq admin io => exact fun _ => hproc s admin io
  | tick admin io =>
      exact fun _ => ⟨hproc s admin io, fun _ =>
        ⟨fun _ => hflush _, fun _ => hflush _, retryMeets_carefulWith env _ _ _ _ _ _⟩⟩
  | reset => exact fun _ _ => hhalt
  | drain =>
      exact fun _ _ _ => ⟨fun _ _ => trivial, fun _ => trivial, hparked, trivial, hqueue trivial⟩
  | fwActEnd timeout => exact fun _ => ⟨trivial, fun _ => trivial⟩
  | shutdown => exact fun _ => ⟨hhalt, fun _ => trivial⟩
  | stop => exact fun _ => ⟨hstop rfl, hparked, hqueue trivial⟩
  | fwActBegin => exact fun _ => trivial
  | putMsg => exact hqueue trivial
  | _ => trivial

theorem meets_careful (env : Env) {abort spoil : Prop} {s : State} {ev : Event}
    (hparked : spoil ∨ Unspoiled s.core) (hstop : ev = .stop → abort) :
    Meets env (careful abort spoil) s ev :=
  meets_carefulWith env hparked hstop fun _ => trivial

theorem drainMeets_all (env : Env) (q : QueueId) (cqes : List Cqe) (s : State) :
    DrainMeets env Refine.Policy.all q cqes s :=
  drainMeets_carefulWith env True True True q cqes s

theorem meetsAll_all (env : Env) (events : List Event) :
    ∀ s, MeetsAll env Refine.Policy.all events s := by
  induction events with
  | nil => exact fun _ => trivial
  | cons ev events ih =>
      exact fun s => ⟨meets_careful env (.inl trivial) (fun _ => trivial), ih _⟩

/-- Every state of a run satisfies the invariant. -/
theorem run_safe (env : Env) (maxZeroes : Nat) (events : List Event) :
    Safe ⟨(run env events (bootState env maxZeroes)).core,
      ⟨none, none, none, 0, false, false⟩⟩ :=
  (keeps_safe env _).path (run_path (meetsAll_all env events _)) (up_safe env maxZeroes)

/-- Requests in the I/O table or on the retry list. -/
def Pending (s : State) (r : Request) : Prop :=
  (∃ tag, s.slot .io tag = some r) ∨ r ∈ s.core.retryList

/-- Nothing is answered, freed or finished twice, and nothing freed is used. -/
structure Once (s : State) : Prop where
  replies : ∀ i, s.core.trace.countP (isReply i) ≤ if i < s.core.accepted then 1 else 0
  reqFrees : ∀ n, s.core.trace.countP (isReqFree n) ≤ 1
  ctxFrees : ∀ x, s.core.trace.countP (isCtxFree x) ≤ 1
  ctxFinishes : ∀ x, s.core.trace.countP (isCtxFinish x) ≤ 1
  noFault : .fault ∉ s.core.trace
  finishIdle : ∀ x onStalled siblings, .ctxFinish x onStalled siblings ∈ s.core.trace →
    onStalled = false ∧ siblings = 0
  ctxAlive : ∀ r x, Pending s r → r.ctx = some x → s.core.ctxs.get x ≠ none

theorem Safe.ctxAlive {s : State} {h : Hand} (hs : Safe ⟨s.core, h⟩) {r : Request} {x : Nat}
    (hr : Pending s r) (hctx : r.ctx = some x) : s.core.ctxs.get x ≠ none := by
  intro hget
  have hzero := ((hs.ctxs x).dead hget).1
  unfold sibCount reqCount coreReqs at hzero
  dsimp only at hzero
  have hkey : ((fun k : Key => k.ctx == some x) ∘ keyOf) r = true := by
    simp [keyOf, hctx]
  rcases hr with ⟨tag, hslot⟩ | hmem
  · have hpos := Slots.held_pos_of_read hslot hkey
    change 0 < Slots.held _ s.core.ioTab.inflight at hpos
    omega
  · have hpos : 0 < s.core.retryList.countP ((fun k : Key => k.ctx == some x) ∘ keyOf) :=
      List.countP_pos_iff.mpr ⟨r, hmem, hkey⟩
    omega

/-- Over every run of the driver: each client request is given back at most once, each
request and context is freed at most once, no freed context is used, and contexts are
finished at most once, with no sibling around and off the stalled list. -/
theorem run_once (env : Env) (maxZeroes : Nat) (events : List Event) :
    Once (run env events (bootState env maxZeroes)) := by
  have hs := run_safe env maxZeroes events
  generalize run env events (bootState env maxZeroes) = s at hs ⊢
  have hfrees : ∀ x, s.core.trace.countP (isCtxFree x) ≤ 1 := by
    intro x
    have h := (hs.ctxs x).once
    split at h <;> dsimp only at h <;> omega
  constructor
  case replies =>
    intro i
    have h := hs.ios i
    unfold ioCount acc at h
    dsimp only at h
    omega
  case reqFrees =>
    intro n
    have h := hs.idCount_le n
    unfold idCount at h
    dsimp only at h
    omega
  case ctxFrees => exact hfrees
  case ctxFinishes => exact fun x => (hs.ctxs x).finishes.trans (hfrees x)
  case noFault => exact fun hmem => hs.effects _ hmem
  case finishIdle => exact fun x b n hmem => hs.effects _ hmem
  case ctxAlive => exact fun r x hr hctx => Safe.ctxAlive hs hr hctx

end Once

/-! ### Nothing is lost -/

section Lost

variable {env : Env} {s : State}

/-- The unit task's steps on the I/O queue: messages, dispatch, the interrupt and the
timer with nothing on the admin completion queue. -/
def OnIoQueue : Event → Prop
  | .putMsg | .drain | .irq [] _ | .tick [] _ => True
  | _ => False

/-- No completion of a drain that is retried at once meets a full ring. -/
def DrainFits (env : Env) : List Cqe → State → Prop
  | [], _ => True
  | cqe :: rest, s =>
      (∀ r, matchCqe s .io cqe = some r → Retries (answered r cqe) → ¬sqFull s .io) ∧
        DrainFits env rest (drainOne env s .io cqe)

/-- No parked request whose time has come meets a full ring. -/
def RetryFits (env : Env) (now : Nat) : List Request → State → Prop
  | [], _ => True
  | r :: rest, s =>
      if notYet now r.deadlineUs then RetryFits env now rest s
      else ((s.tab r.q).freeStack ≠ [] → ¬sqFull s r.q) ∧
        RetryFits env now rest (resubmitParked env s r)

/-- No retry of a step meets a full ring. -/
def StepFits (env : Env) (s : State) : Event → Prop
  | .irq _ io => DrainFits env io (nvmeSqBatchBegin s .io)
  | .tick admin io =>
      DrainFits env io (nvmeSqBatchBegin s .io) ∧
        let s₁ := nvmeProcessCompletions env s admin io
        let t := s₁.getTime env
        let s₃ := watchdogScanQueue env (watchdogScanQueue env t.2 .admin t.1) .io t.1
        RetryFits env t.1 s₃.core.retryList s₃
  | _ => True

/-- No retry of a run meets a full ring. -/
def RunFits (env : Env) : List Event → State → Prop
  | [], _ => True
  | ev :: events, s => StepFits env s ev ∧ RunFits env events (step env s ev)

/-- What such a run does to the machine: nothing is lost, no phase changes and nothing
completes on the admin queue. -/
def ioPolicy : Policy where
  lose := fun _ => False
  cancel := fun _ => False
  status := fun q _ => q = .io
  abort := False
  stir := False
  publish := True
  stray := True
  exceed := True
  launch := fun _ _ => True
  timeout := False
  resume := True
  spoil := True
  translate := True
  queue := True

/-- Only I/O requests are retried. -/
def IoRetries (g : Cfg) : Prop :=
  (∀ r, r ∈ g.core.retryList → r.q = .io) ∧ ∀ r, g.hand.req = some r → r.q = .io

theorem keeps_ioRetries (env : Env) :
    Keeps (Move env ioPolicy) (fun g => Safe g ∧ IoRetries g) := by
  rintro g g' ⟨hs, hlist, hhand⟩ hm
  refine ⟨keeps_safe env ioPolicy g g' hs hm, ?_⟩
  cases hm with
  | @reapCqe c h q r st res hread hh hctx hst =>
      refine ⟨by simpa [stamp] using hlist, ?_⟩
      rintro r' ⟨⟩
      exact ((hs.tabs q).slots _ r hread).2.trans hst
  | reapCancel q hread hh hctx hcancel => exact hcancel.elim
  | @revise c h r r' notes hh hkey hcmd hbuf hlen hfirst hnotes =>
      refine ⟨hlist, ?_⟩
      rintro r'' ⟨⟩
      exact (congrArg Key.q hkey).trans (hhand r hh)
  | @park c h r d hh hret =>
      refine ⟨fun r' hr' => ?_, by simp⟩
      rcases List.mem_append.mp hr' with hr' | hr'
      · exact hlist r' hr'
      · rw [List.mem_singleton.mp hr']
        exact hhand r hh
  | @unpark c h r hresume hmem hh hctx hroom =>
      refine ⟨fun r' hr' => hlist r' (List.mem_of_mem_eraseP hr'), ?_⟩
      rintro r' ⟨⟩
      exact hlist r hmem
  | phase hstir hp => exact hstir.elim
  | _ => exact ⟨by simpa [stamp, sent] using hlist, by first | exact hhand | simp⟩

/-- The unit task runs on a live controller. -/
structure Serving (s : State) : Prop where
  path : Safe ⟨s.core, ⟨none, none, none, 0, false, false⟩⟩
  retries : IoRetries ⟨s.core, ⟨none, none, none, 0, false, false⟩⟩
  live : s.core.state = .live

theorem Serving.goes {s' : State} (hs : Serving s)
    (hgo : Goes env ioPolicy s.core ⟨none, none, none, 0, false, false⟩ s'.core
      ⟨none, none, none, 0, false, false⟩) : Serving s' := by
  have hkept := (keeps_ioRetries env).path (hgo hs.path) ⟨hs.path, hs.retries⟩
  exact ⟨hkept.1, hkept.2, (path_still (fun h => h) (hgo hs.path)).state.trans hs.live⟩

theorem drainMeets_of_fits (cqes : List Cqe) :
    ∀ {s : State}, DrainFits env cqes s → DrainMeets env ioPolicy .io cqes s := by
  induction cqes with
  | nil => exact fun _ => trivial
  | cons cqe cqes ih =>
      intro s hfits
      refine ⟨⟨fun _ _ => trivial, fun r hr => ?_⟩, fun _ => ih hfits.2⟩
      exact ⟨rfl, fun h => (nomatch h), fun _ _ => trivial,
        fun hretry hfull => absurd hfull (hfits.1 r hr hretry)⟩

theorem retryMeets_of_fits (now : Nat) (l : List Request) :
    ∀ {s : State}, (∀ r, r ∈ l → r.q = .io) → RetryFits env now l s →
      RetryMeets env ioPolicy now l s := by
  induction l with
  | nil => exact fun _ _ => trivial
  | cons r l ih =>
      intro s hio hfits
      have hrest : ∀ r', r' ∈ l → r'.q = .io := fun r' hr' => hio r' (List.mem_cons_of_mem _ hr')
      unfold RetryFits at hfits
      unfold RetryMeets
      split
      · rename_i hwait
        rw [if_pos hwait] at hfits
        exact ih hrest hfits
      · rename_i hdue
        rw [if_neg hdue] at hfits
        refine ⟨⟨trivial, ?_, fun _ => .inr trivial, fun _ _ => trivial, ?_⟩, ih hrest hfits.2⟩
        · intro hadmin
          rw [hio r (List.mem_cons_self ..)] at hadmin
          cases hadmin
        · exact fun hfree hfull => absurd hfull (hfits.1 hfree)

theorem processMeets_of_fits {io : List Cqe}
    (hfits : DrainFits env io (nvmeSqBatchBegin s .io)) :
    ProcessMeets env ioPolicy s [] io := by
  have hnone : drainCq env s .admin [] = s := if_pos (.inr rfl)
  refine ⟨trivial, trivial, fun _ => ?_⟩
  rw [hnone]
  exact drainMeets_of_fits io hfits

theorem Serving.tickMeets (hs : Serving s) {io : List Cqe}
    (hfits : StepFits env s (.tick [] io)) : TickMeets env ioPolicy s [] io := by
  obtain ⟨hdrain, hretry⟩ := hfits
  have hproc := processMeets_of_fits hdrain
  refine ⟨hproc, ?_⟩
  have hs₁ := hs.goes (nvmeProcessCompletions_spec hproc)
  dsimp only at hretry ⊢
  generalize nvmeProcessCompletions env s [] io = s₁ at hs₁ hretry ⊢
  intro _
  have hs₁' : Serving (s₁.getTime env).2 := ⟨hs₁.path, hs₁.retries, hs₁.live⟩
  have hs₂ := hs₁'.goes (@watchdogScanQueue_spec env ioPolicy _ .admin (s₁.getTime env).1
    (fun hno => absurd hs₁.live hno))
  have hs₃ := hs₂.goes (@watchdogScanQueue_spec env ioPolicy _ .io (s₁.getTime env).1
    (fun hno => absurd hs₂.live hno))
  refine ⟨fun hno => absurd hs₁.live hno, fun hno => absurd hs₂.live hno, ?_⟩
  exact retryMeets_of_fits _ _ hs₃.retries.1 hretry

theorem Serving.meets (hs : Serving s) {ev : Event} (hio : OnIoQueue ev)
    (hfits : StepFits env s ev) : Meets env ioPolicy s ev := by
  match ev, hio, hfits with
  | .putMsg, _, _ => trivial
  | .drain, _, _ => exact fun _ _ _ => ⟨fun _ _ => trivial, fun _ => trivial, .inl trivial,
      trivial, trivial⟩
  | .irq [] io, _, hfits => exact fun _ => processMeets_of_fits hfits
  | .tick [] io, _, hfits => exact fun _ => hs.tickMeets hfits

theorem Serving.meetsAll (events : List Event) :
    ∀ {s : State}, Serving s → (∀ ev, ev ∈ events → OnIoQueue ev) → RunFits env events s →
      MeetsAll env ioPolicy events s := by
  induction events with
  | nil => exact fun _ _ _ => trivial
  | cons ev events ih =>
      intro s hs hio hfits
      have hmeets := hs.meets (hio ev (List.mem_cons_self ..)) hfits.1
      refine ⟨hmeets, ih (hs.goes (step_spec ev hmeets)) ?_ hfits.2⟩
      exact fun ev' hev' => hio ev' (List.mem_cons_of_mem _ hev')

/-- Places that hold a client request. -/
def placesOf (s : State) (i : Nat) : Nat :=
  s.core.msgPort.count i + s.core.ioPending.count i +
    Slots.held (fun r => r.io == some i) s.core.ioTab.inflight +
    s.core.retryList.countP (fun r => r.io == some i) +
    s.core.ctxs.held (fun x => x.io == i)

/-- Every client request that was accepted and not answered is in one place, and every
context is parked or waits for the siblings it counts. -/
structure Accounted (s : State) : Prop where
  clients : ∀ i, i < s.core.accepted → s.core.trace.countP (isReply i) = 0 → placesOf s i = 1
  contexts : ∀ x ctx, s.core.ctxs.get x = some ctx →
    (x ∈ s.core.ctxStalled ∧ ctx.inflight = 0) ∨
      (ctx.inflight = ctxSiblings s x ∧ 0 < ctx.inflight)

theorem up_kept (env : Env) (maxZeroes : Nat) :
    Kept ⟨(upState env maxZeroes).core, ⟨none, none, none, 0, false, false⟩⟩ := by
  have hs := up_safe env maxZeroes
  refine ⟨hs, fun i => ?_, ?_, ?_⟩
  · have hzero : acc i ⟨(upState env maxZeroes).core, ⟨none, none, none, 0, false, false⟩⟩ = 0 :=
      rfl
    have hle := hs.ios i
    omega
  · exact fun r hr => nomatch hr
  · exact fun x ctx hget => nomatch hget

theorem up_serving (env : Env) (maxZeroes : Nat) : Serving (upState env maxZeroes) :=
  ⟨up_safe env maxZeroes, ⟨fun _ hr => (nomatch hr), fun _ hr => (nomatch hr)⟩, rfl⟩

/-- Requests in the tables are of the kinds the driver builds. -/
theorem Safe.sound_slot {h : Hand} (hs : Safe ⟨s.core, h⟩) {q : QueueId} {tag : Nat}
    {r : Request} (hread : s.slot q tag = some r) : (keyOf r).Sound := by
  by_contra hno
  have hkey : (Key.isUnsound ∘ keyOf) r = true := by
    simpa [Key.isUnsound] using hno
  have hpos := Slots.held_pos_of_read hread hkey
  have hzero := hs.sound
  unfold reqCount coreReqs at hzero
  dsimp only at hzero
  cases q with
  | admin =>
      change 0 < Slots.held _ s.core.adminTab.inflight at hpos
      omega
  | io =>
      change 0 < Slots.held _ s.core.ioTab.inflight at hpos
      omega

/-- No admin request and no waiter serves a client. -/
theorem Safe.admin_plain (hs : Safe ⟨s.core, ⟨none, none, none, 0, false, false⟩⟩)
    {p : Key → Bool} (hp : ∀ k : Key, p k = true → k.io ≠ none ∨ k.ctx ≠ none) :
    Slots.held (p ∘ keyOf) s.core.adminTab.inflight = 0 ∧
      s.core.waiting.countP (p ∘ keyOf) = 0 := by
  have hnot : ∀ k : Key, k.Sound → k.q = .admin ∨ k.waiter ≠ none → p k = false := by
    intro k hk hwhy
    by_contra hpk
    have hq : k.q = .io := by
      rcases hp k (by simpa using hpk) with h | h
      · exact hk.2.1 h
      · exact (hk.1 h).2
    rcases hwhy with h | h
    · rw [hq] at h
      cases h
    · exact h (hk.2.2 hq).2.2
  refine ⟨?_, ?_⟩
  · by_contra hne
    obtain ⟨tag, r, hread, hpr⟩ := Slots.exists_read_of_held_pos (Nat.pos_of_ne_zero hne)
    have hq := ((hs.tabs .admin).slots tag r hread).2
    have hsound : (keyOf r).Sound := Safe.sound_slot hs (q := .admin) hread
    exact Bool.noConfusion (hpr.symm.trans (hnot _ hsound (.inl hq)))
  · rw [List.countP_eq_zero]
    intro r hr hpr
    exact Bool.noConfusion
      (hpr.symm.trans (hnot _ (hs.sound_waiting hr) (.inr (hs.waiters r hr))))

/-- What the machine keeps is what `Accounted` says. -/
theorem Kept.accounted (hk : Kept ⟨s.core, ⟨none, none, none, 0, false, false⟩⟩) :
    Accounted s := by
  have hs := hk.safe
  refine ⟨fun i hi hno => ?_, fun x ctx hget => ?_⟩
  · have hcount := hk.accepted i
    have hplain := Safe.admin_plain hs (p := fun k => k.io == some i)
      (fun k hpk => .inl (by rw [beq_iff_eq.mp hpk]; exact Option.some_ne_none i))
    have htorn := hk.torn.torn (p := fun k => k.io == some i)
      (fun r hpr => .inl (by
        rw [show r.io = some i from beq_iff_eq.mp hpr]
        exact Option.some_ne_none i))
    unfold ioCount acc reqCount coreReqs at hcount
    rw [if_pos hi] at hcount
    dsimp only at hcount htorn
    simp only [hit_none, holds_none] at hcount
    unfold placesOf
    have hfun : ((fun k : Key => k.io == some i) ∘ keyOf) = fun r : Request => r.io == some i :=
      rfl
    rw [hfun] at hcount hplain
    omega
  · have hinf := hk.counted x ctx hget
    have hplain := Safe.admin_plain hs (p := fun k => k.ctx == some x)
      (fun k hpk => .inr (by rw [beq_iff_eq.mp hpk]; exact Option.some_ne_none x))
    have htorn := hk.torn.torn (p := fun k => k.ctx == some x)
      (fun r hpr => .inr (by
        rw [show r.ctx = some x from beq_iff_eq.mp hpr]
        exact Option.some_ne_none x))
    have hsib : ctxSiblings s x = ctx.inflight := by
      unfold sibCount reqCount coreReqs at hinf
      dsimp only at hinf htorn
      simp only [hit_none] at hinf
      have hfun : ((fun k : Key => k.ctx == some x) ∘ keyOf) =
          fun r : Request => r.ctx == some x := rfl
      rw [hfun] at hinf hplain
      unfold ctxSiblings
      omega
    rcases (hs.ctxs x).held ctx hget (fun h => nomatch h) with hstall | hpos
    · refine .inl ⟨?_, ((hs.ctxs x).idle ctx hget hstall).1⟩
      have hparked := (hs.ctxs x).parked
      rw [hget, hit_some, hstall, if_pos rfl] at hparked
      exact List.count_pos_iff.mp (by rw [hparked]; exact Nat.one_pos)
    · exact .inr ⟨hsib.symm, hpos⟩

/-- In every run of the unit task on the I/O queue in which no retry meets a full ring,
every state accounts for every client. -/
theorem run_accounted (env : Env) (maxZeroes : Nat) (events : List Event)
    (hio : ∀ ev, ev ∈ events → OnIoQueue ev)
    (hfits : RunFits env events (bootState env maxZeroes)) :
    Accounted (run env events (bootState env maxZeroes)) := by
  have hboot : Serving (bootState env maxZeroes) :=
    (up_serving env maxZeroes).goes (boot_spec env ioPolicy maxZeroes)
  have hpath := run_path (Serving.meetsAll events hboot hio hfits)
  refine Kept.accounted ((keeps_kept env ?_).path hpath (up_kept env maxZeroes))
  exact fun k hlose => hlose.elim

/-- A read whose command fails and is retried: the retry finds room, and the client still
waits for its answer. -/
theorem run_accounted_read :
    Accounted (run sampleEnv [.putMsg, .drain, .irq [] [⟨0, 0x281, 0⟩]]
      (bootState sampleEnv 2048)) := by
  have hroom : ¬sqFull (nvmeSqBatchBegin
      (run sampleEnv [.putMsg, .drain] (bootState sampleEnv 2048)) .io) .io := by
    decide +kernel
  refine run_accounted sampleEnv 2048 _ ?_
    ⟨trivial, trivial, ⟨fun _ _ _ => hroom, trivial⟩, trivial⟩
  intro ev hev
  simp only [List.mem_cons, List.not_mem_nil, or_false] at hev
  rcases hev with rfl | rfl | rfl <;> trivial

/-- 255 clients read a block each, which fills the ring; then the first command completes
with an error that is retried at once. -/
def lossyRun : List Event :=
  List.replicate 255 .putMsg ++ [.drain, .irq [] [⟨0, 0x281, 0⟩]]

end Lost

/-! ### A full ring -/

section FullRing

/-- The request of the client that reads block `n`, as it is submitted. -/
def sampleRead (s : State) (n : Nat) : Request :=
  { id := s.core.allocs, q := .io, cid := n, io := some n, unit := some 0
    userBuf := 0x10000000, userLen := 512, submitUs := s.ctl.times + 1
    cmd :=
      { opcode := nvmeCmdRead, commandId := n, nsid := 1, slba := n, length := 0
        prp1 := 0x10000000, prp2 := 0 } }

/-- The I/O queue in a drain that has asked for the first `n` blocks. -/
structure Filling (n : Nat) (s : State) : Prop where
  live : s.core.state = .live
  dead : s.core.dead 0 = false
  limit : s.core.ioMaxInflight = 255
  present : s.core.ioTab.present = true
  depth : s.core.ioTab.depth = 256
  length : s.core.ioTab.inflight.length = 256
  count : s.core.ioTab.inflightCount = n
  free : s.core.ioTab.freeStack = List.range' n (256 - n)
  owners : ∀ k r, s.core.ioTab.read k = some r → k < n ∧ ∃ s₀, r = sampleRead s₀ k
  first : 0 < n → s.core.ioTab.read 0 ≠ none
  ring : ∃ t, s.core.ioRing = ⟨n, t, 1, 0, true⟩
  pending : s.core.ioPending = []
  retries : s.core.retryList = []
  ctxs : s.core.ctxs = Heap.empty
  runs : unitRuns s
  accepted : s.core.accepted = 255
  quiet : s.core.trace.countP (isReply 0) = 0

theorem decode_sample (n : Nat) :
    (sampleEnv.ios n).decode (sampleEnv.units 0) = (n, 1) := by
  have h : n * 512 / 512 = n := Nat.mul_div_cancel n (by decide)
  change (decodeLba 0 (n * 512) 9, 512 / 2 ^ 9) = (n, 1)
  unfold decodeLba
  simp [h]

theorem fits_sample {n : Nat} (hn : n < 255) :
    Namespace.lbaOutOfRange (sampleEnv.units 0) n 1 = false := by
  have hsectors : (sampleEnv.units 0).logicalSectors = 0x200000 := rfl
  unfold Namespace.lbaOutOfRange
  rw [hsectors, decide_eq_false_iff_not]
  omega

/-- The state once the request for block `n` has its tag. -/
def sampleClaimed (s : State) (n : Nat) : State :=
  { s with core := { s.core with
      allocs := s.core.allocs + 1
      ioTab := { s.core.ioTab with
        inflight := s.core.ioTab.inflight.set n
          (some { id := s.core.allocs, q := .io, cid := n, io := some n, unit := some 0 })
        inflightCount := n + 1
        freeStack := List.range' (n + 1) (255 - n) } } }

theorem alloc_sample {n : Nat} {s : State} (h : Filling n s) (hn : n < 255) :
    nvmeReqAllocIo sampleEnv s 0 (some n) = (sampleClaimed s n, .ok n) := by
  have hfree : s.core.ioTab.freeStack = n :: List.range' (n + 1) (255 - n) := by
    rw [h.free, show 256 - n = (255 - n) + 1 by omega, List.range'_succ]
  have htag : cidTag n = n := Nat.mod_eq_of_lt (by omega)
  have hvac : s.core.ioTab.read n = none := by
    cases hread : s.core.ioTab.read n with
    | none => rfl
    | some r => exact absurd (h.owners n r hread).1 (Nat.lt_irrefl n)
  unfold nvmeReqAllocIo allocRequest
  simp only [State.allocate, sampleEnv, State.tab, Core.tab, nvmeAllocCid, hfree, htag,
    nvmeInflightClaim]
  simp only [SlotTable.read] at hvac ⊢
  simp only [hvac, h.count]
  rfl

theorem setup_sample {n : Nat} {s : State} {r : Request} (hlen : n < s.core.ioTab.inflight.length)
    (hslot : s.core.ioTab.read n = some r) (hunit : r.unit = some 0) (hctx : r.ctx = none) :
    nvmeSetupRw sampleEnv s n n 1 nvmeCmdRead 0x10000000 =
      ({ s with core := { s.core with
          allocs := s.core.allocs + 1
          trace := .cacheFlush 0x10000000 512 false :: s.core.trace
          ioTab := { s.core.ioTab with
            inflight := s.core.ioTab.inflight.set n (some { r with
              userBuf := 0x10000000, userLen := 512, bounceBuf := none
              prpPages := [], prpList := false, prpSmall := false
              cmd := { opcode := nvmeCmdRead, commandId := r.cid, nsid := 1, slba := n
                       length := 0, prp1 := 0x10000000, prp2 := 0 } }) } } }, 0) := by
  have hread : ∀ o, SlotTable.read
      { s.core.ioTab with inflight := s.core.ioTab.inflight.set n o } n = o :=
    fun o => Slots.read_set_self o hlen
  have hshift : unitShift sampleEnv r = 9 := by
    unfold unitShift
    rw [hunit]
    rfl
  have hnsid : ∀ r' : Request, r'.unit = some 0 → unitNsid sampleEnv r' = 1 := by
    intro r' hr'
    unfold unitNsid
    rw [hr']
    rfl
  unfold nvmeSetupRw
  have hs : s.slot .io n = some r := hslot
  rw [hs]
  dsimp only
  rw [hshift]
  have hno : ¬(0x10000000 ≠ 0 ∧ 1 * 2 ^ 9 % 2 ^ 32 ≠ 0 ∧
      nvmeNeedsBounce sampleEnv 0x10000000 (1 * 2 ^ 9 % 2 ^ 32)
        (nvmeCmdRead == nvmeCmdWrite) = true) := by
    decide
  rw [if_neg hno]
  unfold setupRwCmd
  dsimp only
  -- one block starts a page, so there is no PRP list
  have hprp : ∀ slab mem, Prp.buildPrps slab slab mem 0 0x10000000 (1 * 2 ^ 9 % 2 ^ 32) =
      { ok := true, prp1 := 0x10000000, prp2 := 0, prpPages := []
        prpList := false, prpSmall := false, mem := mem, freed := [] } :=
    fun slab mem => rfl
  rw [hprp]
  simp only [State.editSlot, State.setTab, State.tab, Core.tab, Core.setTab, SlotTable.edit,
    hread, hslot, hnsid, hunit, hctx, ctxPrecached, Option.map_some, List.set_set, State.log,
    Core.log]
  rfl

/-- The state once block `n` has been asked for. -/
def sampleAsked (s : State) (n : Nat) : State :=
  { core := { s.core with
      allocs := s.core.allocs + 2
      trace := .sqe n { sampleRead s n with submitUs := 0 } (some n) ::
        .cacheFlush 0x10000000 512 false :: s.core.trace
      ioRing := { s.core.ioRing with sqTail := (n + 1) % 256 }
      ioTab := { s.core.ioTab with
        inflight := s.core.ioTab.inflight.set n (some (sampleRead s n))
        inflightCount := n + 1
        freeStack := List.range' (n + 1) (255 - n) } }
    ctl := { s.ctl with times := s.ctl.times + 1 } }

theorem processCommand_sample {n : Nat} {s : State} (h : Filling n s) (hn : n < 255) :
    processCommand sampleEnv s n = sampleAsked s n := by
  have hlen : n < s.core.ioTab.inflight.length := by rw [h.length]; omega
  have hdispatch : dispatch sampleEnv s n (sampleEnv.ios n) = (sampleAsked s n, nvmeIoAsync) := by
    have hrw : dispatch sampleEnv s n (sampleEnv.ios n) =
        nvmeIoSubmitRw sampleEnv s 0 n ((sampleEnv.ios n).decode (sampleEnv.units 0)).1
          ((sampleEnv.ios n).decode (sampleEnv.units 0)).2 nvmeCmdRead 0x10000000 := rfl
    rw [hrw, decode_sample]
    unfold nvmeIoSubmitRw
    dsimp only
    have hsingle : 1 * 2 ^ 9 % 2 ^ 32 ≤ 0x20000 := by decide
    rw [fits_sample hn, if_neg (by decide), if_neg (by decide), if_neg (by decide),
      if_pos (.inr hsingle)]
    unfold submitSingle
    rw [alloc_sample h hn]
    dsimp only
    rw [if_neg (by simp [nvmeCheckReady, sampleClaimed, h.live])]
    have hsetup := setup_sample (s := sampleClaimed s n) (n := n)
      (by simp only [sampleClaimed, List.length_set]; exact hlen) (Slots.read_set_self _ hlen)
      rfl rfl
    rw [hsetup]
    dsimp only
    rw [if_neg (by decide)]
    obtain ⟨t, hring⟩ := h.ring
    have hread : ∀ o, Slots.read (s.core.ioTab.inflight.set n o) n = o :=
      fun o => Slots.read_set_self o hlen
    have hroom : ¬(n + 1) % 256 = 0 := by omega
    unfold nvmeSubmitIo
    simp only [sampleClaimed, State.slot, State.tab, Core.tab, SlotTable.read, List.set_set, hread,
      h.present, sqFull, State.ring, Core.ring, hring, h.depth, hroom, writeSqe, sampleAsked,
      sampleRead, State.log, Core.log, State.setRing, Core.setRing, State.getTime,
      State.editSlot, State.setTab, Core.setTab, SlotTable.edit, Core.ownerOf]
    rfl
  unfold processCommand
  dsimp only
  rw [hdispatch]
  have hdead : s.core.dead (sampleEnv.ios n).unit = false := h.dead
  rw [hdead]
  rfl

theorem Filling.asked {n : Nat} {s : State} (h : Filling n s) (hn : n < 255) :
    Filling (n + 1) (sampleAsked s n) := by
  have hlen : n < s.core.ioTab.inflight.length := by rw [h.length]; omega
  have hself : (sampleAsked s n).core.ioTab.read n = some (sampleRead s n) :=
    Slots.read_set_self _ hlen
  have hother : ∀ k, n ≠ k → (sampleAsked s n).core.ioTab.read k = s.core.ioTab.read k :=
    fun k hk => Slots.read_set_other _ hk
  obtain ⟨t, hring⟩ := h.ring
  constructor
  case length => exact (List.length_set ..).trans h.length
  case count => rfl
  case free =>
      change List.range' (n + 1) (255 - n) = List.range' (n + 1) (256 - (n + 1))
      rw [show 256 - (n + 1) = 255 - n by omega]
  case owners =>
      intro k r hread
      by_cases hk : n = k
      · subst hk
        rw [hself] at hread
        cases hread
        exact ⟨Nat.lt_succ_self n, s, rfl⟩
      · rw [hother k hk] at hread
        obtain ⟨hlt, hof⟩ := h.owners k r hread
        exact ⟨Nat.lt_succ_of_lt hlt, hof⟩
  case first =>
      intro _
      by_cases hk : n = 0
      · subst hk
        rw [hself]
        exact Option.some_ne_none _
      · rw [hother 0 hk]
        exact h.first (Nat.pos_of_ne_zero hk)
  case ring =>
      refine ⟨t, ?_⟩
      change { s.core.ioRing with sqTail := (n + 1) % 256 } = _
      rw [hring, Nat.mod_eq_of_lt (by omega)]
  case quiet =>
      change List.countP (isReply 0) (_ :: _ :: s.core.trace) = 0
      rw [List.countP_cons_of_neg Bool.false_ne_true, List.countP_cons_of_neg Bool.false_ne_true]
      exact h.quiet
  case live => exact h.live
  case dead => exact h.dead
  case limit => exact h.limit
  case present => exact h.present
  case depth => exact h.depth
  case pending => exact h.pending
  case retries => exact h.retries
  case ctxs => exact h.ctxs
  case runs => exact h.runs
  case accepted => exact h.accepted

/-- The drain asks for every block that is waited for. -/
theorem Filling.drained {k n : Nat} {s : State} (h : Filling n s) (hn : n + k = 255)
    (hport : s.core.msgPort = List.range' n k) :
    Filling 255 (drainMessages sampleEnv k s) ∧
      (drainMessages sampleEnv k s).core.msgPort = [] := by
  induction k generalizing n s with
  | zero =>
      obtain rfl : n = 255 := by omega
      exact ⟨h, hport⟩
  | succ k ih =>
      rw [List.range'_succ] at hport
      have hlt : n < 255 := by omega
      have hpop : Filling n { s with core := { s.core with msgPort := List.range' (n + 1) k } } :=
        ⟨h.live, h.dead, h.limit, h.present, h.depth, h.length, h.count, h.free, h.owners,
          h.first, h.ring, h.pending, h.retries, h.ctxs, h.runs, h.accepted, h.quiet⟩
      have hroom : hasRoom { s with core := { s.core with msgPort := List.range' (n + 1) k } } := by
        unfold hasRoom
        rw [hpop.count, hpop.limit]
        exact hlt
      have hstep : drainMessages sampleEnv (k + 1) s =
          drainMessages sampleEnv k
            (sampleAsked
              { s with core := { s.core with msgPort := List.range' (n + 1) k } } n) := by
        rw [← processCommand_sample hpop hlt]
        conv_lhs => unfold drainMessages
        rw [hport]
        dsimp only
        rw [if_neg]
        rintro ⟨-, hno | hno⟩
        · exact hno hroom
        · exact hno h.pending
      rw [hstep]
      exact ih (hpop.asked hlt) (by omega) rfl

theorem Filling.rebatched {n : Nat} {s : State} (h : Filling n s) :
    Filling n (nvmeSqBatchBegin (nvmeSqBatchEnd s .io) .io) := by
  obtain ⟨t, hring⟩ := h.ring
  have hring' : s.ring .io = ⟨n, t, 1, 0, true⟩ := hring
  unfold nvmeSqBatchEnd
  rw [hring']
  dsimp only
  rw [if_neg (by decide)]
  have hlast : ((s.setRing .io ⟨n, t, 1 - 1, 0, true⟩).ring .io).sqBatchDepth = 0 := rfl
  rw [if_pos hlast]
  unfold nvmeSqCommit
  dsimp only
  split
  · refine ⟨h.live, h.dead, h.limit, h.present, h.depth, h.length, h.count, h.free, h.owners,
      h.first, ⟨n, rfl⟩, h.pending, h.retries, h.ctxs, h.runs, h.accepted, ?_⟩
    change List.countP (isReply 0) (.sqDoorbell .io n :: s.core.trace) = 0
    rw [List.countP_cons_of_neg Bool.false_ne_true]
    exact h.quiet
  · exact ⟨h.live, h.dead, h.limit, h.present, h.depth, h.length, h.count, h.free, h.owners,
      h.first, ⟨t, rfl⟩, h.pending, h.retries, h.ctxs, h.runs, h.accepted, h.quiet⟩

/-- The retry of the first command meets the full ring, and its request is destroyed. -/
theorem Filling.loses {s : State} (h : Filling 255 s) :
    ∃ tab id, tab.inflight = s.core.ioTab.inflight.set 0 none ∧
      drainOne sampleEnv s .io ⟨0, 0x281, 0⟩ =
        { s with core := { s.core with
            ioTab := tab
            trace := .reqFree id :: .sqFull .io :: .cqe .io 0 id 0x281 :: s.core.trace } } := by
  have hlen : 0 < s.core.ioTab.inflight.length := by
    rw [h.length]
    decide
  obtain ⟨r, hr⟩ := Option.ne_none_iff_exists'.mp (h.first (by decide))
  obtain ⟨-, s₀, rfl⟩ := h.owners 0 r hr
  have hread : ∀ o, Slots.read (s.core.ioTab.inflight.set 0 o) 0 = o :=
    fun o => Slots.read_set_self o hlen
  have hslot : Slots.read s.core.ioTab.inflight 0 = some (sampleRead s₀ 0) := hr
  have hmatch : matchCqe s .io ⟨0, 0x281, 0⟩ = some (sampleRead s₀ 0) := by
    unfold matchCqe
    have htab : s.tab .io = s.core.ioTab := rfl
    have hzero : cidTag 0 = 0 := rfl
    dsimp only
    rw [htab, h.depth, if_pos (by decide), hzero]
    have hs : s.slot .io 0 = some (sampleRead s₀ 0) := hr
    rw [hs]
    rfl
  unfold drainOne
  rw [hmatch]
  dsimp only
  have hretry : ∀ r : Request, r.status = 0x281 → r.cancelled = false → r.retries = 0 →
      nvmeDecideDisposition r = .retry := by
    intro r hstatus hcancelled hretries
    unfold nvmeDecideDisposition
    rw [hstatus, hcancelled, hretries]
    decide
  unfold nvmeCompleteRq completeRq
  rw [hretry _ rfl rfl rfl]
  dsimp only
  unfold nvmeRetryReq
  dsimp only
  rw [if_neg (by decide)]
  have htable : nvmeInflightRelease s.core.ioTab 0 =
      { s.core.ioTab with
        inflight := s.core.ioTab.inflight.set 0 none
        inflightCount := 254
        freeStack := nextCid s.core.ioTab.skipCidGen 0 :: s.core.ioTab.freeStack } := by
    unfold nvmeInflightRelease
    rw [show s.core.ioTab.read (cidTag 0) = some (sampleRead s₀ 0) from hr]
    rw [h.count]
    rfl
  have htag : cidTag (nextCid s.core.ioTab.skipCidGen 0) = 0 := by
    cases s.core.ioTab.skipCidGen <;> rfl
  obtain ⟨t, hring⟩ := h.ring
  have hrelease : (s.log (.cqe .io 0 (sampleRead s₀ 0).id 0x281)).releaseSlot .io
      (sampleRead s₀ 0).cid =
      { s with core := { s.core with
          ioTab := { s.core.ioTab with
            inflight := s.core.ioTab.inflight.set 0 none
            inflightCount := 254
            freeStack := nextCid s.core.ioTab.skipCidGen 0 :: s.core.ioTab.freeStack }
          trace := .cqe .io 0 (sampleRead s₀ 0).id 0x281 :: s.core.trace } } := by
    rw [← htable]
    rfl
  rw [hrelease]
  unfold nvmeResubmitIo
  dsimp only [State.tab, Core.tab, sampleRead, nvmeAllocCid]
  rw [htag]
  unfold nvmeInflightClaim
  dsimp only [SlotTable.read]
  rw [htag, hread, List.set_set]
  unfold nvmeSubmitIo
  simp only [State.slot, State.tab, Core.tab, State.setTab, Core.setTab, SlotTable.read, hread,
    h.present, sqFull, State.ring, Core.ring, hring, h.depth, State.log, Core.log,
    nvmeReqDestroy, State.releaseSlot, nvmeInflightRelease, htag, nvmeReqFreeDmaBuffers,
    List.set_set]
  refine ⟨_, _, ?_, rfl⟩
  rfl

/-- Messages are numbered in the order in which they arrive. -/
theorem run_putMsg (env : Env) (n : Nat) (s : State) :
    run env (List.replicate n .putMsg) s =
      { s with core := { s.core with
          msgPort := s.core.msgPort ++ List.range' s.core.accepted n
          accepted := s.core.accepted + n } } := by
  induction n generalizing s with
  | zero =>
      rw [List.range'_zero, List.append_nil]
      rfl
  | succ n ih =>
      have hfirst : run env (List.replicate (n + 1) .putMsg) s =
          run env (List.replicate n .putMsg) (step env s .putMsg) := rfl
      rw [hfirst, ih]
      simp only [step, List.range'_succ, List.append_assoc, List.singleton_append, Nat.add_assoc,
        Nat.add_comm 1 n]

/-- A controller that has just come up, with `n` messages waiting. -/
def sampleWaiting (n : Nat) : State :=
  { bootState sampleEnv 2048 with core := { (bootState sampleEnv 2048).core with
      msgPort := List.range' 0 n, accepted := n } }

theorem sampleWaiting_filling : Filling 0 (nvmeSqBatchBegin (sampleWaiting 255) .io) := by
  have htab : (nvmeSqBatchBegin (sampleWaiting 255) .io).core.ioTab =
      SlotTable.fresh 256 false := rfl
  refine ⟨rfl, rfl, rfl, ?_, ?_, ?_, ?_, ?_, ?_,
      fun h => absurd h (Nat.lt_irrefl 0), ⟨0, rfl⟩, rfl, rfl, rfl, ⟨rfl, rfl⟩, rfl, rfl⟩
  · rw [htab]
    rfl
  · rw [htab]
    rfl
  · rw [htab]
    exact List.length_replicate
  · rw [htab]
    rfl
  · rw [htab, Nat.sub_zero, ← List.range_eq_range']
    unfold SlotTable.fresh
    dsimp only
  · intro k r hread
    rw [htab] at hread
    unfold SlotTable.read SlotTable.fresh Slots.read at hread
    dsimp only at hread
    rw [List.getD_eq_getElem?_getD, List.getElem?_replicate] at hread
    split at hread <;> cases hread

/-- A drain with nothing parked and nothing stashed takes the messages. -/
theorem drain_messages {env : Env} {s : State} (hruns : unitRuns s)
    (hopen : ¬(s.core.stopped = true ∨ s.core.frozen = true)) (hstalled : s.core.ctxStalled = [])
    (hpending : s.core.ioPending = []) :
    step env s .drain =
      nvmeSqBatchEnd (drainMessages env s.core.msgPort.length (nvmeSqBatchBegin s .io)) .io := by
  have hstalled' : (nvmeSqBatchBegin s .io).core.ctxStalled = [] := hstalled
  have hpending' : (nvmeSqBatchBegin s .io).core.ioPending = [] := hpending
  unfold step nvmeDrainMsgport
  dsimp only
  rw [if_pos hruns, if_neg hopen, hstalled']
  dsimp only [List.length_nil, drainStalled]
  rw [hpending']
  rfl

/-- The end of a batch writes the doorbell at most. -/
theorem nvmeSqBatchEnd_io (s : State) :
    ∃ ring log, nvmeSqBatchEnd s .io =
        { s with core := { s.core with ioRing := ring, trace := log ++ s.core.trace } } ∧
      log.countP (isReply 0) = 0 := by
  unfold nvmeSqBatchEnd
  split
  · exact ⟨s.core.ioRing, [], rfl, rfl⟩
  · dsimp only
    split
    · unfold nvmeSqCommit
      dsimp only
      split
      · exact ⟨_, [_], rfl, rfl⟩
      · exact ⟨_, [], rfl, rfl⟩
    · exact ⟨_, [], rfl, rfl⟩

theorem nvmeSqBatchEnd_msgPort (s : State) :
    (nvmeSqBatchEnd s .io).core.msgPort = s.core.msgPort := by
  obtain ⟨ring, log, hend, -⟩ := nvmeSqBatchEnd_io s
  rw [hend]

theorem sampleWaiting_drain :
    step sampleEnv (sampleWaiting 255) .drain =
      nvmeSqBatchEnd (drainMessages sampleEnv 255 (nvmeSqBatchBegin (sampleWaiting 255) .io))
        .io := by
  have hlength : (sampleWaiting 255).core.msgPort.length = 255 := List.length_range'
  rw [drain_messages ⟨rfl, rfl⟩ (by rintro (h | h) <;> cases h) rfl rfl, hlength]

theorem drained_filling :
    Filling 255 (nvmeSqBatchBegin (step sampleEnv (sampleWaiting 255) .drain) .io) ∧
      (step sampleEnv (sampleWaiting 255) .drain).core.msgPort = [] := by
  obtain ⟨hfull, hport⟩ := sampleWaiting_filling.drained (k := 255) rfl rfl
  rw [sampleWaiting_drain]
  exact ⟨hfull.rebatched, (nvmeSqBatchEnd_msgPort _).trans hport⟩

theorem lossyRun_split : run sampleEnv lossyRun (bootState sampleEnv 2048) =
    step sampleEnv (step sampleEnv (sampleWaiting 255) .drain) (.irq [] [⟨0, 0x281, 0⟩]) := by
  have hwait : run sampleEnv (List.replicate 255 .putMsg) (bootState sampleEnv 2048) =
      sampleWaiting 255 := by
    rw [run_putMsg, sampleWaiting]
    rfl
  unfold lossyRun
  unfold run at hwait ⊢
  rw [List.foldl_append, hwait, List.foldl_cons, List.foldl_cons, List.foldl_nil]

/-- After the interrupt the first client is answered nowhere and held nowhere. -/
theorem Filling.lost {s : State} (h : Filling 255 (nvmeSqBatchBegin s .io))
    (hport : s.core.msgPort = []) :
    (step sampleEnv s (.irq [] [⟨0, 0x281, 0⟩])).core.accepted = 255 ∧
      (step sampleEnv s (.irq [] [⟨0, 0x281, 0⟩])).core.trace.countP (isReply 0) = 0 ∧
      placesOf (step sampleEnv s (.irq [] [⟨0, 0x281, 0⟩])) 0 = 0 := by
  obtain ⟨tab, id, htab, hone⟩ := h.loses
  have hruns : unitRuns s := h.runs
  have hcq : ∃ ring head, drainCq sampleEnv (nvmeSqBatchBegin s .io) .io [⟨0, 0x281, 0⟩] =
      { s with core := { s.core with
          ioRing := ring
          ioTab := tab
          trace := .cqDoorbell .io head :: .reqFree id :: .sqFull .io ::
            .cqe .io 0 id 0x281 :: s.core.trace } } := by
    have hopen : ¬(((nvmeSqBatchBegin s .io).tab .io).present = false ∨
        ([⟨0, 0x281, 0⟩] : List Cqe) = []) := by
      rintro (hgone | hnil)
      · exact Bool.noConfusion (h.present.symm.trans hgone)
      · cases hnil
    unfold drainCq
    rw [if_neg hopen]
    simp only [drainLoop, hone]
    simp only [nvmeSqBatchBegin, State.setRing, Core.setRing, hruns.1, Bool.false_eq_true, if_false]
    exact ⟨_, _, rfl⟩
  obtain ⟨ring, head, hcq⟩ := hcq
  obtain ⟨ring', log, hend, hlog⟩ := nvmeSqBatchEnd_io
    (drainCq sampleEnv (nvmeSqBatchBegin s .io) .io [⟨0, 0x281, 0⟩])
  have hstep : step sampleEnv s (.irq [] [⟨0, 0x281, 0⟩]) =
      nvmeSqBatchEnd (drainCq sampleEnv (nvmeSqBatchBegin s .io) .io [⟨0, 0x281, 0⟩]) .io := by
    have hadmin : drainCq sampleEnv s .admin [] = s := if_pos (.inr rfl)
    unfold step nvmeProcessCompletions
    dsimp only
    rw [if_pos hruns, hadmin, hruns.1, if_neg Bool.false_ne_true, hcq]
    dsimp only
    rw [hruns.1, if_neg Bool.false_ne_true]
  rw [hstep, hend, hcq]
  refine ⟨h.accepted, ?_, ?_⟩
  · dsimp only
    rw [List.countP_append, hlog]
    exact (Nat.zero_add _).trans h.quiet
  · have hslots : Slots.held (fun r : Request => r.io == some 0) tab.inflight = 0 := by
      by_contra hne
      obtain ⟨k, r, hread, hio⟩ := Slots.exists_read_of_held_pos (Nat.pos_of_ne_zero hne)
      rw [htab] at hread
      by_cases hk : 0 = k
      · subst hk
        have hlen : 0 < s.core.ioTab.inflight.length := by
          rw [show s.core.ioTab.inflight.length = 256 from h.length]
          decide
        have hnone := Slots.read_set_self (none : Option Request) hlen
        cases hnone.symm.trans hread
      · have hsame := Slots.read_set_other (l := s.core.ioTab.inflight) (none : Option Request) hk
        obtain ⟨-, s₀, rfl⟩ := h.owners k r (hsame.symm.trans hread)
        have hio' : some k = some 0 := beq_iff_eq.mp hio
        exact hk (Option.some.inj hio').symm
    have hpending : s.core.ioPending = [] := h.pending
    have hretries : s.core.retryList = [] := h.retries
    have hctxs : s.core.ctxs = Heap.empty := h.ctxs
    unfold placesOf
    dsimp only
    rw [hport, hpending, hretries, hctxs, hslots]
    rfl

/-- The first client of `lossyRun` is accepted, gets no answer and is held nowhere. -/
theorem lossyRun_loses :
    (∀ ev, ev ∈ lossyRun → OnIoQueue ev) ∧
      ¬Accounted (run sampleEnv lossyRun (bootState sampleEnv 2048)) := by
  refine ⟨?_, ?_⟩
  · intro ev hev
    rcases List.mem_append.mp hev with hev | hev
    · rw [List.eq_of_mem_replicate hev]
      trivial
    · simp only [List.mem_cons, List.not_mem_nil, or_false] at hev
      rcases hev with rfl | rfl <;> trivial
  · intro hacc
    rw [lossyRun_split] at hacc
    obtain ⟨haccepted, hquiet, hplaces⟩ := drained_filling.1.lost drained_filling.2
    have hone := hacc.clients 0 (by rw [haccepted]; decide) hquiet
    rw [hplaces] at hone
    cases hone

end FullRing

end Runs
end NvmeDriver
