import NvmeDriver.Refine.Completion

/-!
# Dispatch refines the machine

`ProcessCommand` with a client request in hand.  Either the request is now with a
command or a context, or the dispatch returns an error and the request is still in
hand, to be answered for a reason.
-/

namespace NvmeDriver
namespace Refine

open Engine
open Lib
open Ownership
open Namespace (NVMeUnit lbaOutOfRange)

variable {env : Env} {P : Policy} {s : State} {i u : Nat} {a : Nat} {b o : Bool}
  {t : Transfer}

/-! ### Results of a dispatch -/

section Results

/-- The request has been taken over, or is refused and still in hand; a read or write is
not refused with error 0. -/
structure Dispatched (env : Env) (P : Policy) (c : Core) (i a : Nat) (b o : Bool)
    (result : State × Int) : Prop where
  async : result.2 = nvmeIoAsync →
    Goes env P.calm c ⟨some i, none, none, a, b, o⟩ result.1.core ⟨none, none, none, a, b, o⟩
  sync : result.2 ≠ nvmeIoAsync →
    Goes env P.calm c ⟨some i, none, none, a, b, o⟩ result.1.core
      ⟨some i, none, none, a, b, o⟩ ∧ Refusal env result.1.core i result.2 ∧
        (result.2 = 0 → ¬AsksRw env i)

theorem Dispatched.taken {c : Core} {s₁ : State}
    (hgo : Goes env P.calm c ⟨some i, none, none, a, b, o⟩ s₁.core
      ⟨none, none, none, a, b, o⟩) :
    Dispatched env P c i a b o (s₁, nvmeIoAsync) :=
  ⟨fun _ => hgo, fun hne => absurd rfl hne⟩

theorem Dispatched.returned {c : Core} {s₁ : State} {e : Int} (he : e ≠ nvmeIoAsync)
    (hgo : Goes env P.calm c ⟨some i, none, none, a, b, o⟩ s₁.core
      ⟨some i, none, none, a, b, o⟩)
    (hwhy : Refusal env s₁.core i e) (hbad : e = 0 → ¬AsksRw env i) :
    Dispatched env P c i a b o (s₁, e) :=
  ⟨fun h => absurd h he, fun _ => ⟨hgo, hwhy, hbad⟩⟩

theorem Dispatched.refused {c : Core} {s₁ : State} {e : Int} (he : e ≠ nvmeIoAsync ∧ e ≠ 0)
    (hgo : Goes env P.calm c ⟨some i, none, none, a, b, o⟩ s₁.core
      ⟨some i, none, none, a, b, o⟩)
    (hwhy : Refusal env s₁.core i e) : Dispatched env P c i a b o (s₁, e) :=
  .returned he.1 hgo hwhy (fun h => absurd h he.2)

theorem Dispatched.after {c c₁ : Core} {result : State × Int}
    (hgo : Goes env P.calm c ⟨some i, none, none, a, b, o⟩ c₁ ⟨some i, none, none, a, b, o⟩)
    (hd : Dispatched env P c₁ i a b o result) : Dispatched env P c i a b o result :=
  ⟨fun h => hgo.trans (hd.async h), fun h => ⟨hgo.trans (hd.sync h).1, (hd.sync h).2⟩⟩

/-- A client request asks for at most one transfer with a command of its own. -/
theorem Direct.unique {t' : Transfer} (hd : Direct env i t') (hask : Asked env i t)
    (hdsm : ∀ u l, t ≠ .dsm u l) (hflush : ∀ u, t ≠ .flush u) : t' = t := by
  obtain ⟨hask', hscsi, hdsm', hflush'⟩ := hd
  have hexcl : ∀ opcode, (env.ios i).command.transfer = some opcode →
      (env.ios i).command ≠ .nscmdNvmeWriteZeroes := by
    intro opcode htr hwz
    rw [hwz] at htr
    cases htr
  cases hask' with
  | scsi hcmd => exact absurd hcmd hscsi
  | trim hcmd hok => exact absurd rfl (hdsm' _ _)
  | deallocate hcmd hquirk hne hin => exact absurd rfl (hdsm' _ _)
  | unmap => exact absurd rfl (hdsm' _ _)
  | sync => exact absurd rfl (hflush' _)
  | @plain op' hcmd' =>
      cases hask with
      | scsi hcmd => exact absurd hcmd hscsi
      | trim hcmd hok => exact absurd rfl (hdsm _ _)
      | deallocate hcmd hquirk hne hin => exact absurd rfl (hdsm _ _)
      | unmap => exact absurd rfl (hdsm _ _)
      | sync => exact absurd rfl (hflush _)
      | zeroes hcmd hquirk => exact absurd hcmd (hexcl _ hcmd')
      | @plain op hcmd =>
          rw [hcmd'] at hcmd
          cases hcmd
          rfl
  | zeroes hcmd' hquirk' =>
      cases hask with
      | scsi hcmd => exact absurd hcmd hscsi
      | trim hcmd hok => exact absurd rfl (hdsm _ _)
      | deallocate hcmd hquirk hne hin => exact absurd rfl (hdsm _ _)
      | unmap => exact absurd rfl (hdsm _ _)
      | sync => exact absurd rfl (hflush _)
      | plain hcmd => exact absurd hcmd' (hexcl _ hcmd)
      | zeroes hcmd hquirk => rfl

/-- A transfer that fails its checks or its setup is refused. -/
theorem Refusal.of_transfer {c : Core} {e : Int} (hask : Asked env i t)
    (hdsm : ∀ u l, t ≠ .dsm u l) (hflush : ∀ u, t ≠ .flush u)
    (hno : ¬Checked env t ∨ TransferFails env t) : Refusal env c i e := by
  refine .inr (.inr (.inr (.inr ?_)))
  intro t' hd
  rw [Direct.unique hd hask hdsm hflush]
  exact hno

/-- The commands that ask for a transfer of their own. -/
def directCommand (cmd : IoCommand) : Bool :=
  cmd.transfer.isSome || cmd == .nscmdNvmeWriteZeroes

/-- The other commands owe the client no transfer. -/
theorem Refusal.of_command {c : Core} {e : Int}
    (hcmd : directCommand (env.ios i).command = false ∨
      (env.ios i).command = .nscmdNvmeWriteZeroes ∧ env.cfg.quirkDeallocateZeroes = true) :
    Refusal env c i e := by
  refine .inr (.inr (.inr (.inr ?_)))
  rintro t' ⟨hask, hscsi, hdsm, hflush⟩
  exfalso
  cases hask with
  | scsi hcmd => exact absurd hcmd hscsi
  | trim hcmd hok => exact absurd rfl (hdsm _ _)
  | deallocate hcmd hquirk hne hin => exact absurd rfl (hdsm _ _)
  | unmap => exact absurd rfl (hdsm _ _)
  | sync => exact absurd rfl (hflush _)
  | plain htr =>
      rcases hcmd with h | ⟨h, -⟩
      · simp [directCommand, htr] at h
      · rw [h] at htr
        cases htr
  | zeroes hwz hquirk =>
      rcases hcmd with h | ⟨-, h⟩
      · simp [directCommand, hwz] at h
      · rw [hquirk] at h
        cases h

/-- Out of memory nothing is owed. -/
theorem Refusal.of_noMemory {c : Core} {e : Int} {n : Nat} (hmem : env.alloc n = none) :
    Refusal env c i e :=
  .inr (.inr (.inr (.inr fun _ _ => .inr (.inl ⟨n, hmem⟩))))

end Results

/-! ### One command -/

section Single

variable {c : Core} {cid : Nat} {rest : List Nat} {r : Request} {es : List Effect}

/-- A request that is set up is submitted, or finds the ring full. -/
theorem submitHeld_spec (hh : Holding c .io cid rest s r es)
    (hes : ∀ e, e ∈ es → quiet e = true) (hn : c.allocs < s.core.allocs)
    (hkey : keyOf r = ⟨c.allocs, .io, some i, none, none, none⟩) (hret : r.retries = 0)
    (hask : Asked env i t) (hcheck : Checked env t) (hone : Single env t)
    (hof : SingleOf env r t) (hroom : HasRoom c) (hgate : P.launch c.state c.frozen) :
    Dispatched env P c i a b o (nvmeSubmitIo env s .io (cidTag cid)) := by
  have hid : r.id = c.allocs := congrArg Key.id hkey
  rw [hh.nvmeSubmitIo]
  by_cases hfull : Engine.sqFull s .io
  · rw [if_pos hfull]
    have hcore := (hh.log (.sqFull .io)).destroy
    rw [hid] at hcore
    refine .refused (by decide) ?_ (.inl rfl)
    rw [hcore]
    exact Goes.refused hh.free hn hes (hid ▸ dmaFrees_quietFor r) (hh.sqFull.mp hfull)
  · rw [if_neg hfull]
    refine .taken (hh.submitted (fun _ => hgate) ?_)
    intro us
    have howner : c.ownerOf r = some i := by
      unfold Core.ownerOf
      rw [show r.ctx = none from congrArg Key.ctx hkey]
      exact congrArg Key.io hkey
    refine .move fun _ => ?_
    unfold Refine.launched
    rw [howner]
    exact .launchIo rfl rfl rfl hh.free hn hes hkey hh.cid hret hask hcheck hone hof hroom
      (fun h => hfull (hh.sqFull.mpr h)) hgate

/-- A request that is destroyed before it was submitted. -/
theorem destroyHeld_spec {e : Int} (hh : Holding c .io cid rest s r es)
    (hes : ∀ e, e ∈ es → quietFor c.allocs e = true) (hn : c.allocs < s.core.allocs)
    (hid : r.id = c.allocs) (he : e ≠ nvmeIoAsync ∧ e ≠ 0)
    (hwhy : Refusal env (nvmeReqDestroy s .io (cidTag cid)).core i e) :
    Dispatched env P c i a b o (nvmeReqDestroy s .io (cidTag cid), e) := by
  refine .refused he ?_ hwhy
  rw [hh.destroy, hid]
  exact Goes.fizzled hh.free hn (quietFor_append (hid ▸ dmaFrees_quietFor r) hes)

theorem Holding.state (hh : Holding c .io cid rest s r es) : s.core.state = c.state := by
  rw [hh.core]
  rfl

/-- A queue with a tag to give is not gone. -/
theorem Holding.not_gone (hh : Holding c .io cid rest s r es) :
    c.ioTab ≠ SlotTable.gone := by
  intro hgone
  have hfree : c.ioTab.freeStack = cid :: rest := hh.free
  rw [hgone] at hfree
  cases hfree

/-- Off LIVE the request is destroyed; in a terminal state there was none. -/
theorem nvmeFailNonreadyCommand_spec (hh : Holding c .io cid rest s r es)
    (hes : ∀ e, e ∈ es → quiet e = true) (hn : c.allocs < s.core.allocs)
    (hid : r.id = c.allocs) (hcan : r.cancelled = false)
    (hs : Safe ⟨c, ⟨some i, none, none, a, b, o⟩⟩) :
    Dispatched env P c i a b o (nvmeFailNonreadyCommand env s (cidTag cid)) := by
  have hterm : nvmeStateTerminal s = false := by
    by_contra hno
    refine hh.not_gone (hs.phase.terminal ?_ ?_ ?_) <;>
    · intro hst
      unfold nvmeStateTerminal at hno
      rw [hh.state, hst] at hno
      exact hno rfl
  unfold nvmeFailNonreadyCommand
  rw [hh.slot]
  dsimp only
  rw [if_pos ⟨hterm, hcan⟩]
  refine destroyHeld_spec (hh.editSlot (fun _ => _) hh.cid) ?_ ?_ hid (by decide) (.inl rfl)
  · exact fun e he => Refine.quietFor_of_quiet _ (hes e he)
  · rw [editSlot_allocs]
    exact hn

/-- What a dispatcher's single-shot path needs of its setup. -/
def SetupOk (env : Env) (c : Core) (u i : Nat) (t : Transfer)
    (setup : State → Nat → State × Int) : Prop :=
  ∀ {cid rest s r}, Holding c .io cid rest s r [] → r.unit = some u →
    ∃ buffer bytes, SetupResult env c cid rest s.core.allocs r (setup s (cidTag cid))
        (fun r' => SingleOf env r' t) buffer bytes ∧
      ((setup s (cidTag cid)).2 ≠ 0 → SetupFails env buffer bytes → ∀ c e, Refusal env c i e)

theorem submitSingle_spec {setup : State → Nat → State × Int}
    (hs : Safe ⟨s.core, ⟨some i, none, none, a, b, o⟩⟩) (hask : Asked env i t)
    (hcheck : Checked env t) (hone : Single env t) (hroom : HasRoom s.core)
    (hgate : s.core.state = .live → P.launch s.core.state s.core.frozen)
    (hsetup : SetupOk env s.core u i t setup) :
    Dispatched env P s.core i a b o (submitSingle env s u i setup) := by
  unfold submitSingle nvmeReqAllocIo
  rcases @allocRequest_cases env s .io (fun r => { r with io := some i, unit := some u })
      ioerrSelfTest ioerrUnitBusy (hs.tabs .io) (fun _ => rfl) with
    ⟨s₁, heq, hcore, hmem⟩ | ⟨s₁, heq, hcore, -⟩ | ⟨s₁, cid, rest, heq, hh, hal⟩
  · rw [heq]
    refine .refused (by decide) ?_ (Refusal.of_noMemory hmem)
    rw [hcore]
    exact .move fun _ => .burn 1
  · rw [heq]
    refine .refused (by decide) ?_ (.inl rfl)
    rw [hcore]
    exact .move fun _ => .fizzleBare
  · rw [heq]
    dsimp only
    by_cases hready : nvmeCheckReady s₁ = false
    · rw [if_pos hready]
      exact nvmeFailNonreadyCommand_spec hh (by simp) (by omega) rfl rfl hs
    · rw [if_neg hready]
      have hlive : s.core.state = .live := by
        rw [← hh.state]
        simpa [nvmeCheckReady] using hready
      obtain ⟨buffer, bytes, ⟨r', es', hfill, hres⟩, hfails⟩ := hsetup hh rfl
      have hn : s.core.allocs < (setup s₁ (cidTag cid)).1.core.allocs := by
        have := hfill.allocs
        omega
      generalize setup s₁ (cidTag cid) = p at hfill hres hfails hn ⊢
      obtain ⟨s₂, serr⟩ := p
      dsimp only at hfill hres hfails hn ⊢
      rcases hres with ⟨rfl, hes, hof⟩ | ⟨rfl, hes, hfail⟩
      · rw [if_neg (by decide)]
        exact submitHeld_spec hfill.holding hes hn hfill.key hfill.retries hask hcheck hone hof
          hroom (hgate hlive)
      · rw [if_pos (by decide)]
        exact destroyHeld_spec hfill.holding hes hn (congrArg Key.id hfill.key) (by decide)
          (hfails (by decide) hfail _ _)

end Single

/-! ### Setups -/

section Setups

variable {c : Core} {lba blocks opcode buffer : Nat}

theorem setupOk_rw (hask : Asked env i (.rw u lba blocks opcode buffer))
    (hone : Single env (.rw u lba blocks opcode buffer)) :
    SetupOk env c u i (.rw u lba blocks opcode buffer)
      (fun s tag => nvmeSetupRw env s tag lba blocks opcode buffer) := by
  intro cid rest s r hh hunit
  have hspec := @nvmeSetupRw_spec env c cid rest s r [] hh (by simp) lba blocks opcode buffer
  have hshift : unitShift env r = (env.units u).blockShift := by
    unfold unitShift
    rw [hunit]
  have hnsid : unitNsid env r = (env.units u).nsid := by
    unfold unitNsid
    rw [hunit]
  rw [hshift] at hspec
  refine ⟨buffer, transferBytes env u blocks, hspec.weaken rfl rfl (Nat.le_refl _) ?_, ?_⟩
  · rintro r' ⟨⟨hid, hop, hns, hlba, hlen⟩, hbuf, hulen⟩
    exact ⟨hid, hop, hns.trans hnsid, hlba, hlen, hbuf, hulen⟩
  · intro _ hfails c e
    refine Refusal.of_transfer hask (by simp) (by simp) (.inr (.inr (.inl ?_)))
    exact ⟨u, lba, blocks, opcode, buffer, rfl, hone, hfails⟩

/-- A setup that only fills in the command cannot fail. -/
theorem setupOk_edit {f : State → Request → Request}
    (hcid : ∀ s r, (f s r).cid = r.cid) (hkey : ∀ s r, keyOf (f s r) = keyOf r)
    (hret : ∀ s r, (f s r).retries = r.retries)
    (hof : ∀ s r, r.unit = some u → SingleOf env (f s r) t) :
    SetupOk env c u i t (fun s tag => (s.editSlot .io tag (f s), 0)) := by
  intro cid rest s r hh hunit
  refine ⟨0, 0, ?_, fun hne => absurd rfl hne⟩
  refine (setup_edit_spec hh (by simp) (f s) (hcid s r) (hkey s r) (hret s r) 0 0).weaken rfl rfl
    (Nat.le_refl _) ?_
  rintro r' rfl
  exact hof s r hunit

theorem setupOk_flush :
    SetupOk env c u i (.flush u) (fun s tag => (nvmeSetupFlush env s tag, 0)) := by
  refine setupOk_edit (f := fun _ x =>
    { x with cmd :=
      { opcode := nvmeCmdFlush, commandId := x.cid, nsid := unitNsid env x } })
    (fun _ _ => rfl) (fun _ _ => rfl) (fun _ _ => rfl) ?_
  intro s r hunit
  refine ⟨rfl, rfl, ?_⟩
  change unitNsid env r = _
  unfold unitNsid
  rw [hunit]

theorem setupOk_writeZeroes :
    SetupOk env c u i (.writeZeroes u lba blocks)
      (fun s tag => (nvmeSetupWriteZeroes env s tag lba blocks, 0)) := by
  refine setupOk_edit (f := fun s x =>
    { x with cmd :=
      { opcode := nvmeCmdWriteZeroes, commandId := x.cid, nsid := unitNsid env x
        slba := lba, length := nlbField blocks
        control := if unitDeac s x then nvmeWzDeac else 0 } })
    (fun _ _ => rfl) (fun _ _ => rfl) (fun _ _ => rfl) ?_
  intro s r hunit
  refine ⟨rfl, rfl, ?_, rfl, rfl⟩
  change unitNsid env r = _
  unfold unitNsid
  rw [hunit]

end Setups

/-! ### Several commands -/

section Chunked

/-- The state in which a new context is pumped for the first time. -/
def withContext (s : State) (ctx : IoContext) : State :=
  let s₂ : State :=
    { s with
      core :=
        { s.core with
          allocs := s.core.allocs + 1
          ctxs := s.core.ctxs.insert s.core.allocs ctx } }
  if ctx.dataPrecached then
    s₂.log (.cacheFlush ctx.userData ctx.totalBytes (ctx.opcode == nvmeCmdWrite))
  else s₂

theorem submitChunked_eq {ctx : IoContext} {p : Nat} (hmem : env.alloc s.core.allocs = some p) :
    submitChunked env s ctx =
      if (nvmeIoContextPump env (withContext s ctx) s.core.allocs).2 ≠ nvmeIoAsync then
        ({ core :=
            { (nvmeIoContextPump env (withContext s ctx) s.core.allocs).1.core with
              ctxs := (nvmeIoContextPump env (withContext s ctx)
                s.core.allocs).1.core.ctxs.erase s.core.allocs
              trace := .ctxFree s.core.allocs ::
                (nvmeIoContextPump env (withContext s ctx) s.core.allocs).1.core.trace }
           ctl := (nvmeIoContextPump env (withContext s ctx) s.core.allocs).1.ctl },
          (nvmeIoContextPump env (withContext s ctx) s.core.allocs).2)
      else ((nvmeIoContextPump env (withContext s ctx) s.core.allocs).1, nvmeIoAsync) := by
  unfold submitChunked State.allocate
  rw [hmem]
  rfl

theorem withContext_spec {ctx : IoContext} (hask : Asked env i t) (hcheck : Checked env t)
    (hof : ContextOf env ctx t) (hio : ctx.io = i) (hinf : ctx.inflight = 0)
    (hdis : ctx.dispatched = 0) (herr : ctx.firstError = 0) (hstall : ctx.stalled = false)
    (hroom : HasRoom s.core) (hmany : ¬Single env t) :
    Goes env P s.core ⟨some i, none, none, a, b, o⟩ (withContext s ctx).core
        ⟨none, none, some s.core.allocs, a, b, o⟩ ∧
      (withContext s ctx).core.ctxs.get s.core.allocs = some ctx := by
  have hget : (s.core.ctxs.insert s.core.allocs ctx).get s.core.allocs = some ctx := by
    rw [Heap.get_insert, if_pos rfl]
  have hgo : Goes env P s.core ⟨some i, none, none, a, b, o⟩
      { s.core with
        allocs := s.core.allocs + 1
        ctxs := s.core.ctxs.insert s.core.allocs ctx }
      ⟨none, none, some s.core.allocs, a, b, o⟩ :=
    .move fun _ => .allocCtx rfl rfl rfl hio hinf hdis herr hstall hask hcheck hof hroom hmany
  unfold withContext
  dsimp only
  split
  · exact ⟨hgo.trans (Goes.note _ rfl), hget⟩
  · exact ⟨hgo, hget⟩

/-- A context is allocated and pumped; if its first chunk fails it is freed again. -/
theorem submitChunked_spec {ctx : IoContext}
    (hs : Safe ⟨s.core, ⟨some i, none, none, a, b, o⟩⟩) (hask : Asked env i t)
    (hcheck : Checked env t) (hdsm : ∀ u l, t ≠ .dsm u l) (hflush : ∀ u, t ≠ .flush u)
    (hof : ContextOf env ctx t) (hio : ctx.io = i) (hinf : ctx.inflight = 0)
    (hdis : ctx.dispatched = 0) (herr : ctx.firstError = 0) (hstall : ctx.stalled = false)
    (hmore : 0 < ctx.totalBytes) (hroom : HasRoom s.core) (hmany : ¬Single env t)
    (hgate : P.launch s.core.state s.core.frozen) :
    Dispatched env P s.core i a b o (submitChunked env s ctx) := by
  cases hmem : env.alloc s.core.allocs with
  | none =>
      unfold submitChunked State.allocate
      rw [hmem]
      refine .refused (by decide) ?_ (Refusal.of_noMemory hmem)
      exact .move fun _ => .burn 1
  | some p =>
      rw [submitChunked_eq hmem]
      obtain ⟨hgo, hget⟩ := @withContext_spec env P.calm s i a b o t ctx hask hcheck hof hio
        hinf hdis herr hstall hroom hmany
      generalize withContext s ctx = s₃ at hgo hget ⊢
      have hgate₃ : P.launch s₃.core.state s₃.core.frozen := by
        have hst := hgo.still hs
        rw [hst.state, hst.frozen]
        exact hgate
      have hpump := @nvmeIoContextPump_spec env P s.core.allocs s₃ ctx none a b o (hgo.safe hs)
        hget hstall (by omega) hgate₃ (.inl herr)
      generalize nvmeIoContextPump env s₃ s.core.allocs = q at hpump ⊢
      obtain ⟨s₄, err⟩ := q
      obtain ⟨hgo₄, ctx', hget', hio', -, hres⟩ := hpump
      dsimp only at hgo₄ hget' hres ⊢
      rcases hres with ⟨rfl, hheld⟩ | ⟨rfl, hinf', hstall', herr', -, hfails, hdis'⟩
      · rw [if_neg (not_not.mpr rfl)]
        exact .taken ((hgo.trans hgo₄).trans (.move fun _ => .dropCtx rfl hget' hheld))
      · rw [if_pos (by decide)]
        refine .refused (by decide) ((hgo.trans hgo₄).trans ?_) ?_
        · have hfree : Goes env P.calm s₄.core ⟨none, none, some s.core.allocs, a, b, o⟩
              (stamp { s₄.core with ctxs := s₄.core.ctxs.erase s.core.allocs } s₄.core.allocs
                [.ctxFree s.core.allocs]) ⟨some ctx'.io, none, none, a, b, o⟩ :=
            .move fun _ => .freeCtx rfl hget' hinf' hstall' rfl herr' (hdis'.trans hdis)
          rw [hio', hio] at hfree
          exact hfree
        · exact Refusal.of_transfer hask hdsm hflush
            (.inr (.inr (.inr ⟨ctx, hof, hdis, hfails⟩)))

end Chunked

/-! ### The dispatchers -/

section Dispatchers

variable {lba blocks opcode buffer : Nat}

/-- What the dispatchers need of the state they start from. -/
structure Ready (P : Policy) (c : Core) (i a : Nat) (b o : Bool) : Prop where
  safe : Safe ⟨c, ⟨some i, none, none, a, b, o⟩⟩
  room : HasRoom c
  gate : c.state = .live → P.launch c.state c.frozen

theorem not_live_of_not_ready (hready : nvmeCheckReady s = false) : s.core.state ≠ .live := by
  intro hlive
  unfold nvmeCheckReady at hready
  rw [hlive] at hready
  cases hready

theorem notReadyError_ne (s : State) :
    notReadyError s ≠ nvmeIoAsync ∧ notReadyError s ≠ 0 := by
  unfold notReadyError
  split <;> decide

theorem live_of_ready (hready : ¬nvmeCheckReady s = false) : s.core.state = .live := by
  simpa [nvmeCheckReady] using hready

theorem nvmeIoSubmitRw_spec (hr : Ready P s.core i a b o)
    (hask : Asked env i (.rw u lba blocks opcode buffer)) :
    Dispatched env P s.core i a b o
      (nvmeIoSubmitRw env s u i lba blocks opcode buffer) := by
  have hrefuse : ∀ e, e ≠ nvmeIoAsync ∧ e ≠ 0 → ¬Checked env (.rw u lba blocks opcode buffer) →
      Dispatched env P s.core i a b o (s, e) := fun e he hno =>
    .refused he (Goes.refl _ _) (Refusal.of_transfer hask (by simp) (by simp) (.inl hno))
  unfold nvmeIoSubmitRw
  dsimp only
  split
  · rename_i hzero
    exact hrefuse _ (by decide) (fun hc => hc.1 hzero)
  split
  · rename_i _ hnull
    exact hrefuse _ (by decide) (fun hc => hc.2.1 hnull)
  split
  · rename_i _ _ hout
    exact hrefuse _ (by decide) (fun hc => Bool.noConfusion (hout.symm.trans hc.2.2))
  rename_i hne hbuf hin
  have hcheck : Checked env (.rw u lba blocks opcode buffer) :=
    ⟨hne, hbuf, by simpa using hin⟩
  split
  · rename_i hone
    exact submitSingle_spec hr.safe hask hcheck hone hr.room hr.gate (setupOk_rw hask hone)
  split
  · rename_i _ hready
    exact .refused (notReadyError_ne s) (Goes.refl _ _)
      (.inr (.inl (not_live_of_not_ready hready)))
  · rename_i hmany hready
    have hcap : nvmeRwChunkCap env.cfg (env.units u).blockShift lba ≠ 0 :=
      fun h => hmany (.inl h)
    exact submitChunked_spec hr.safe hask hcheck (by simp) (by simp)
      ⟨hcap, rfl, rfl, rfl, rfl, rfl⟩ rfl rfl rfl rfl rfl (Nat.pos_of_ne_zero hne) hr.room hmany
      (hr.gate (live_of_ready hready))

theorem nvmeIoSubmitFlush_spec (hr : Ready P s.core i a b o)
    (hu : u = (env.ios i).unit) (hcmd : Flushes (env.ios i)) :
    Dispatched env P s.core i a b o (nvmeIoSubmitFlush env s u i) := by
  subst hu
  exact submitSingle_spec hr.safe (.sync hcmd) trivial trivial hr.room hr.gate setupOk_flush

theorem nvmeIoSubmitDsm_spec {ranges : List DsmRange} (nr : Nat) (hr : Ready P s.core i a b o)
    (hask : Asked env i (.dsm u ranges)) (hno : ∀ c e, Refusal env c i e) :
    Dispatched env P s.core i a b o (nvmeIoSubmitDsm env s u i buffer ranges nr) := by
  unfold nvmeIoSubmitDsm nvmeReqAllocIo
  rcases @allocRequest_cases env s .io (fun r => { r with io := some i, unit := some u })
      ioerrSelfTest ioerrUnitBusy (hr.safe.tabs .io) (fun _ => rfl) with
    ⟨s₁, heq, hcore, hmem⟩ | ⟨s₁, heq, hcore, -⟩ | ⟨s₁, cid, rest, heq, hh, hal⟩
  · rw [heq]
    refine .refused (by decide) (Goes.trans ?_ (Goes.note (.dmaFreeOther buffer) rfl)) (hno _ _)
    rw [hcore]
    exact .move fun _ => .burn 1
  · rw [heq]
    refine .refused (by decide) (Goes.trans ?_ (Goes.note (.dmaFreeOther buffer) rfl)) (hno _ _)
    rw [hcore]
    exact .move fun _ => .fizzleBare
  · rw [heq]
    dsimp only
    have hn : s.core.allocs < s₁.core.allocs := by omega
    have hquiet : ∀ e, e ∈ [Effect.dmaFreeOther buffer] → quiet e = true := by simp [quiet]
    split
    · exact nvmeFailNonreadyCommand_spec (hh.log (.dmaFreeOther buffer)) hquiet hn rfl rfl
        hr.safe
    · rename_i hready
      have hlive : s.core.state = .live := by
        rw [← hh.state]
        exact live_of_ready hready
      unfold nvmeSetupDsm
      by_cases hnr : nr = 0 ∨ nvmeDsmMaxRanges < nr
      · rw [if_pos hnr]
        refine destroyHeld_spec (hh.log (.dmaFreeOther buffer)) ?_ hn rfl (by decide) (hno _ _)
        exact fun e he => Refine.quietFor_of_quiet _ (hquiet e he)
      · rw [if_neg hnr]
        dsimp only
        have hset := (hh.log (.cacheFlush buffer 4096 true)).editSlot (fun x =>
          { x with
            cmd :=
              { opcode := nvmeCmdDsm, commandId := x.cid, nsid := unitNsid env x
                nr := nr - 1, attributes := nvmeDsmgmtAd, ranges := ranges
                prp1 := buffer }
            prpPages := [buffer], prpList := true }) hh.cid
        refine submitHeld_spec hset (by simp [quiet]) ?_ rfl rfl hask trivial trivial
          ⟨rfl, rfl, rfl, rfl⟩ hr.room (hr.gate hlive)
        rw [editSlot_allocs]
        exact hn

theorem Ready.burn {s₁ : State} {n : Nat} (hr : Ready P s.core i a b o)
    (hcore : s₁.core = { s.core with allocs := s.core.allocs + n }) :
    Goes env P.calm s.core ⟨some i, none, none, a, b, o⟩ s₁.core
      ⟨some i, none, none, a, b, o⟩ ∧ Ready P s₁.core i a b o := by
  rw [hcore]
  have hgo : Goes env P.calm s.core ⟨some i, none, none, a, b, o⟩
      { s.core with allocs := s.core.allocs + n } ⟨some i, none, none, a, b, o⟩ :=
    .move fun _ => .burn n
  exact ⟨hgo, hgo.safe hr.safe, hr.room, hr.gate⟩

theorem nvmeIoSubmitWriteZeroes_spec (hr : Ready P s.core i a b o)
    (hu : u = (env.ios i).unit) (hcmd : (env.ios i).command = .nscmdNvmeWriteZeroes)
    (hlba : lba = ((env.ios i).decode (env.units (env.ios i).unit)).1)
    (hblocks : blocks = ((env.ios i).decode (env.units (env.ios i).unit)).2) :
    Dispatched env P s.core i a b o (nvmeIoSubmitWriteZeroes env s u i lba blocks) := by
  subst hu hlba hblocks
  unfold nvmeIoSubmitWriteZeroes
  dsimp only
  by_cases hquirk : env.cfg.quirkDeallocateZeroes = true
  · have hno : ∀ c e, Refusal env c i e := fun c e => Refusal.of_command (.inr ⟨hcmd, hquirk⟩)
    split
    · exact .refused (by decide) (Goes.refl _ _) (hno _ _)
    split
    · exact .refused (by decide) (Goes.refl _ _) (hno _ _)
    rename_i hne hin
    have hask := Asked.deallocate hcmd hquirk hne (by simpa using hin)
    unfold State.allocate
    cases hmem : env.alloc s.core.allocs with
    | none =>
        refine .refused (by decide) ?_ (hno _ _)
        exact .move fun _ => .burn 1
    | some p =>
        obtain ⟨hgo, hr₁⟩ := @Ready.burn env P s i a b o
          { s with core := { s.core with allocs := s.core.allocs + 1 } } 1 hr rfl
        exact .after hgo (nvmeIoSubmitDsm_spec 1 hr₁ hask hno)
  · have hask := Asked.zeroes hcmd (by simpa using hquirk)
    split
    · rename_i hzero
      exact .refused (by decide) (Goes.refl _ _)
        (Refusal.of_transfer hask (by simp) (by simp) (.inl fun hc => hc.1 hzero))
    split
    · rename_i _ hout
      exact .refused (by decide) (Goes.refl _ _)
        (Refusal.of_transfer hask (by simp) (by simp)
          (.inl fun hc => Bool.noConfusion (hout.symm.trans hc.2)))
    rename_i hne hin
    have hcheck : Checked env (.writeZeroes (env.ios i).unit _ _) := ⟨hne, by simpa using hin⟩
    split
    · rename_i hmz
      exact .refused (by decide) (Goes.refl _ _) (.inr (.inr (.inr (.inl hmz))))
    split
    · rename_i hone
      exact submitSingle_spec hr.safe hask hcheck hone hr.room hr.gate setupOk_writeZeroes
    split
    · rename_i _ hready
      exact .refused (notReadyError_ne s) (Goes.refl _ _)
        (.inr (.inl (not_live_of_not_ready hready)))
    · rename_i hmany hready
      exact submitChunked_spec hr.safe hask hcheck (by simp) (by simp)
        ⟨rfl, rfl, rfl, rfl, rfl⟩ rfl rfl rfl rfl rfl (Nat.lt_of_not_le fun h => hmany
          (h.trans (Nat.zero_le _))) hr.room hmany (hr.gate (live_of_ready hready))

theorem processTrim_spec (hr : Ready P s.core i a b o)
    (hcmd : (env.ios i).command = .nscmdNvmeTrim) :
    Dispatched env P s.core i a b o (processTrim env s i (env.ios i)) := by
  have hno : ∀ c e, Refusal env c i e := fun c e => Refusal.of_command (.inl (by rw [hcmd]; rfl))
  unfold processTrim
  dsimp only
  generalize (if (env.ios i).ioData = 0 then 0 else (env.ios i).ioLength / trimRangeBytes) = nr
  split
  · exact .refused (by decide) (Goes.refl _ _) (hno _ _)
  · unfold State.allocate
    cases hmem : env.alloc s.core.allocs with
    | none =>
        refine .refused (by decide) ?_ (hno _ _)
        exact .move fun _ => .burn 1
    | some p =>
        obtain ⟨hgo, hr₁⟩ := @Ready.burn env P s i a b o
          { s with core := { s.core with allocs := s.core.allocs + 1 } } 1 hr rfl
        refine .after hgo ?_
        dsimp only
        split
        · rename_i hok
          exact nvmeIoSubmitDsm_spec _ hr₁ (.trim hcmd hok) hno
        · exact .refused (by decide) (Goes.note (.dmaFreeOther p) rfl) (hno _ _)

end Dispatchers

/-! ### SCSI -/

section ScsiCommands

variable {cmd : Scsi.ScsiCmd} {cdb : List Nat}

theorem sync_zero : (0 : Int) ≠ nvmeIoAsync := by decide

theorem sync_noCmd : ioerrNoCmd ≠ nvmeIoAsync ∧ ioerrNoCmd ≠ 0 := by decide

theorem sync_badLength : ioerrBadLength ≠ nvmeIoAsync ∧ ioerrBadLength ≠ 0 := by decide

theorem sync_badAddress : ioerrBadAddress ≠ nvmeIoAsync ∧ ioerrBadAddress ≠ 0 := by decide

theorem sync_selfTest : ioerrSelfTest ≠ nvmeIoAsync ∧ ioerrSelfTest ≠ 0 := by decide

/-- A SCSI command owes the client no transfer of its own. -/
theorem Refusal.of_scsi {c : Core} {e : Int} (hcmd : (env.ios i).command = .hdScsiCmd) :
    Refusal env c i e :=
  Refusal.of_command (.inl (by rw [hcmd]; rfl))

/-- The opcode of a READ or WRITE CDB. -/
theorem scsiTransfer_opcode {cdb : List Nat} {lba blocks : Nat}
    (hdec : scsiTransfer cdb = some (lba, blocks)) :
    cdb.getD 0 0 ∈ [0x08, 0x0A, 0x28, 0x2A, 0x88, 0x8A] := by
  unfold scsiTransfer at hdec
  dsimp only at hdec
  generalize cdb.getD 0 0 = op at hdec ⊢
  split at hdec
  · rename_i h
    rcases h with rfl | rfl <;> decide
  split at hdec
  · rename_i h
    rcases h with rfl | rfl <;> decide
  split at hdec
  · rename_i h
    rcases h with rfl | rfl <;> decide
  · cases hdec

/-- A SCSI command with another opcode asks for no read or write. -/
theorem not_asksRw_of_opcode (hcmd : (env.ios i).command = .hdScsiCmd)
    (hscsi : (env.ios i).scsi = some cmd) (hcdb : cmd.command = some cdb)
    (hop : cdb.getD 0 0 ∉ [0x08, 0x0A, 0x28, 0x2A, 0x88, 0x8A]) : ¬AsksRw env i := by
  rintro ⟨u, lba, blocks, opcode, buffer, hask⟩
  cases hask with
  | plain htr =>
      rw [hcmd] at htr
      cases htr
  | scsi _ hscsi' hcdb' _ hdec =>
      rw [hscsi] at hscsi'
      cases hscsi'
      rw [hcdb] at hcdb'
      cases hcdb'
      exact hop (scsiTransfer_opcode hdec)

/-- Nor does a command of another kind. -/
theorem not_asksRw_of_command (hscsi : (env.ios i).command ≠ .hdScsiCmd)
    (htr : (env.ios i).command.transfer = none) : ¬AsksRw env i := by
  rintro ⟨u, lba, blocks, opcode, buffer, hask⟩
  cases hask with
  | plain hcmd =>
      rw [htr] at hcmd
      cases hcmd
  | scsi hcmd => exact hscsi hcmd

/-- A handler that refuses and leaves the state alone. -/
theorem Dispatched.declined {e : Int} (hcmd : (env.ios i).command = .hdScsiCmd)
    (he : e ≠ nvmeIoAsync ∧ e ≠ 0) : Dispatched env P s.core i a b o (s, e) :=
  .refused he (Goes.refl _ _) (Refusal.of_scsi hcmd)

/-- A handler of a command that transfers no blocks and leaves the state alone. -/
theorem Dispatched.answered {e : Int} (hcmd : (env.ios i).command = .hdScsiCmd)
    (he : e ≠ nvmeIoAsync) (hrw : ¬AsksRw env i) :
    Dispatched env P s.core i a b o (s, e) :=
  .returned he (Goes.refl _ _) (Refusal.of_scsi hcmd) (fun _ => hrw)

/-- What a handler returns is what its dispatcher returned. -/
theorem Dispatched.passed {s₁ : State} {e : Int} {x y : Scsi.ScsiCmd}
    (hd : Dispatched env P s.core i a b o (s₁, e)) :
    Dispatched env P s.core i a b o
      ((if e ≠ nvmeIoAsync then (s₁, e, x) else (s₁, nvmeIoAsync, y)).1,
        (if e ≠ nvmeIoAsync then (s₁, e, x) else (s₁, nvmeIoAsync, y)).2.1) := by
  by_cases he : e = nvmeIoAsync
  · subst he
    rw [if_neg (not_not.mpr rfl)]
    exact hd
  · rw [if_pos he]
    exact hd

theorem doScsiTransfer_spec {lba count : Nat} (hr : Ready P s.core i a b o)
    (hcmd : (env.ios i).command = .hdScsiCmd)
    (hask : count ≤ cmd.length / 2 ^ (env.units u).blockShift → Asked env i (.rw u lba count
      (if cmd.flagRead then nvmeCmdRead else nvmeCmdWrite) cmd.data)) :
    Dispatched env P s.core i a b o
      ((doScsiTransfer env s u i cmd lba count).1,
        (doScsiTransfer env s u i cmd lba count).2.1) := by
  unfold doScsiTransfer
  dsimp only
  split
  · exact .declined hcmd sync_badLength
  · rename_i hfits
    have hd := @nvmeIoSubmitRw_spec env P s i u a b o lba count
      (if cmd.flagRead then nvmeCmdRead else nvmeCmdWrite) cmd.data hr
      (hask (Nat.le_of_not_lt hfits))
    generalize nvmeIoSubmitRw env s u i lba count
      (if cmd.flagRead then nvmeCmdRead else nvmeCmdWrite) cmd.data = p at hd ⊢
    exact hd.passed

theorem scsiSyncCache_spec (hr : Ready P s.core i a b o) (hu : u = (env.ios i).unit)
    (hcmd : Flushes (env.ios i)) :
    Dispatched env P s.core i a b o
      ((scsiSyncCache env s u i cmd).1, (scsiSyncCache env s u i cmd).2.1) := by
  have hd := @nvmeIoSubmitFlush_spec env P s i u a b o hr hu hcmd
  unfold scsiSyncCache
  generalize nvmeIoSubmitFlush env s u i = p at hd ⊢
  exact hd.passed

theorem scsiUnmap_spec (hr : Ready P s.core i a b o) (hu : u = (env.ios i).unit)
    (hcmd : (env.ios i).command = .hdScsiCmd) {cmd₀ : Scsi.ScsiCmd}
    (hscsi : (env.ios i).scsi = some cmd₀) (hcdb : cmd₀.command = some cdb)
    (hop : cdb.getD 0 0 = 0x42) (hpay : cmd.payload = cmd₀.payload) :
    Dispatched env P s.core i a b o
      ((scsiUnmap env s u i cmd).1, (scsiUnmap env s u i cmd).2.1) := by
  subst hu
  have hrw : ¬AsksRw env i := not_asksRw_of_opcode hcmd hscsi hcdb (by rw [hop]; decide)
  unfold scsiUnmap
  dsimp only
  split
  · exact .declined hcmd sync_noCmd
  rename_i hdsm
  split
  · exact .answered hcmd sync_zero hrw
  split
  · exact .declined hcmd sync_badLength
  split
  · exact .answered hcmd sync_zero hrw
  split
  · exact .declined hcmd sync_noCmd
  split
  · exact .declined hcmd sync_badLength
  · unfold State.allocate
    cases hmem : env.alloc s.core.allocs with
    | none =>
        refine .refused sync_selfTest ?_ (Refusal.of_scsi hcmd)
        exact .move fun _ => .burn 1
    | some p =>
        obtain ⟨hgo, hr₁⟩ := @Ready.burn env P s i a b o
          { s with core := { s.core with allocs := s.core.allocs + 1 } } 1 hr rfl
        refine .after hgo ?_
        dsimp only
        cases hdec : unmapRanges (env.units (env.ios i).unit) cmd.payload
            (Scsi.loadBe cmd.payload 2 2 / 16) 8 with
        | none =>
            exact .refused sync_badAddress (Goes.note (.dmaFreeOther p) rfl)
              (Refusal.of_scsi hcmd)
        | some ranges =>
            have hask : Asked env i (.dsm (env.ios i).unit ranges) :=
              .unmap hcmd hscsi hcdb hop (by simpa using hdsm) (hpay ▸ hdec)
            have hd := @nvmeIoSubmitDsm_spec env P
              { s with core := { s.core with allocs := s.core.allocs + 1 } } i
              (env.ios i).unit a b o p ranges (Scsi.loadBe cmd.payload 2 2 / 16) hr₁ hask
              (fun _ _ => Refusal.of_scsi hcmd)
            dsimp only
            generalize nvmeIoSubmitDsm env
              { s with core := { s.core with allocs := s.core.allocs + 1 } } (env.ios i).unit i
              p ranges (Scsi.loadBe cmd.payload 2 2 / 16) = q at hd ⊢
            exact hd.passed

theorem scsiReadCapacity10_sync (unit : NVMeUnit) :
    (Namespace.scsiReadCapacity10 unit cmd).1 ≠ nvmeIoAsync := by
  unfold Namespace.scsiReadCapacity10
  split
  · exact sync_badAddress.1
  · exact sync_zero

theorem scsiReadCapacity16_sync (unit : NVMeUnit) :
    (Namespace.scsiReadCapacity16 unit cmd).1 ≠ nvmeIoAsync := by
  unfold Namespace.scsiReadCapacity16
  split
  · exact sync_badAddress.1
  · split
    · exact sync_badLength.1
    · split
      · exact sync_badLength.1
      · exact sync_zero

theorem scsiEmulated_opcode {op : Nat} (hop : scsiEmulated op = true) :
    op ∉ [0x08, 0x0A, 0x28, 0x2A, 0x88, 0x8A] := by
  intro hmem
  have hno : ∀ op ∈ [0x08, 0x0A, 0x28, 0x2A, 0x88, 0x8A], scsiEmulated op = false := by decide
  rw [hno op hmem] at hop
  cases hop

theorem scsiSwitch_spec (hr : Ready P s.core i a b o)
    (hcmd : (env.ios i).command = .hdScsiCmd) (hscsi : (env.ios i).scsi = some cmd)
    (hcdb : cmd.command = some cdb) (hlen : 6 ≤ cmd.cmdLength) :
    Dispatched env P s.core i a b o
      ((scsiSwitch env s (env.ios i).unit i { cmd with senseActual := 0 } cdb).1,
        (scsiSwitch env s (env.ios i).unit i { cmd with senseActual := 0 } cdb).2.1) := by
  unfold scsiSwitch
  dsimp only
  have hrw : ∀ op, cdb.getD 0 0 = op → op ∉ [0x08, 0x0A, 0x28, 0x2A, 0x88, 0x8A] →
      ¬AsksRw env i := fun op hop hno => not_asksRw_of_opcode hcmd hscsi hcdb (hop ▸ hno)
  split
  · rename_i hop
    exact .answered hcmd sync_zero (hrw _ hop (by decide))
  split
  · rename_i hop
    exact .answered hcmd (env.emulate_sync _ _) (hrw _ rfl (scsiEmulated_opcode hop))
  split
  · rename_i hop
    exact .answered hcmd (scsiReadCapacity10_sync _) (hrw _ hop (by decide))
  split
  · rename_i hop
    exact .answered hcmd (scsiReadCapacity16_sync _) (hrw _ hop (by decide))
  split
  · rename_i hop
    exact scsiUnmap_spec hr rfl hcmd hscsi hcdb hop rfl
  split
  · rename_i hop
    exact scsiSyncCache_spec hr rfl (.inr (.inr ⟨hcmd, cmd, cdb, hscsi, hcdb, hop⟩))
  · cases hdec : scsiTransfer cdb with
    | none => exact .declined hcmd sync_noCmd
    | some d =>
        obtain ⟨lba, count⟩ := d
        have hask := @Asked.scsi env i cmd cdb lba count hcmd hscsi hcdb hlen hdec
        exact doScsiTransfer_spec hr hcmd hask

/-- Filling in the SCSI fields changes nothing about the dispatch. -/
theorem Dispatched.translated {s₁ : State} {e : Int} (cmd : Scsi.ScsiCmd) (htr : P.translate)
    (hd : Dispatched env P s.core i a b o (s₁, e)) :
    Dispatched env P s.core i a b o (s₁.log (.scsi i cmd), e) :=
  ⟨fun h => (hd.async h).trans (.move fun _ => .translated i cmd htr),
    fun h => ⟨(hd.sync h).1.trans (.move fun _ => .translated i cmd htr), (hd.sync h).2⟩⟩

theorem handleScsiCmd_spec (hr : Ready P s.core i a b o)
    (hcmd : (env.ios i).command = .hdScsiCmd) (htr : P.translate) :
    Dispatched env P s.core i a b o
      (handleScsiCmd env s (env.ios i).unit i (env.ios i).scsi) := by
  unfold handleScsiCmd
  cases hscsi : (env.ios i).scsi with
  | none => exact .declined hcmd sync_badAddress
  | some cmd =>
      dsimp only
      cases hcdb : cmd.command with
      | none => exact .declined hcmd sync_badAddress
      | some cdb =>
          dsimp only
          split
          · exact .declined hcmd sync_badLength
          · rename_i hlen
            have hd := scsiSwitch_spec hr hcmd hscsi hcdb (Nat.le_of_not_lt hlen)
            rw [hcdb] at hd
            generalize scsiSwitch env s (env.ios i).unit i
              { cmd with command := some cdb, senseActual := 0 } cdb = p at hd ⊢
            obtain ⟨s₁, e, cmd₁⟩ := p
            dsimp only at hd ⊢
            split
            · rename_i he
              subst he
              exact hd.translated _ htr
            · exact hd.translated _ htr

end ScsiCommands

/-! ### `ProcessCommand` -/

section Process

theorem dispatch_spec (hr : Ready P s.core i a b o)
    (habort : (env.ios i).command ≠ .cmdInternalAbortRequest)
    (htr : (env.ios i).command = .hdScsiCmd → P.translate) :
    Dispatched env P s.core i a b o (dispatch env s i (env.ios i)) := by
  have hrw : ∀ opcode, (env.ios i).command.transfer = some opcode →
      Dispatched env P s.core i a b o
        (nvmeIoSubmitRw env s (env.ios i).unit i
          ((env.ios i).decode (env.units (env.ios i).unit)).1
          ((env.ios i).decode (env.units (env.ios i).unit)).2 opcode (env.ios i).ioData) :=
    fun opcode htr => nvmeIoSubmitRw_spec hr (.plain htr)
  have hplain : ∀ e, e ≠ nvmeIoAsync → (env.ios i).command ≠ .hdScsiCmd →
      directCommand (env.ios i).command = false → Dispatched env P s.core i a b o (s, e) := by
    intro e he hscsi hd
    have htr : (env.ios i).command.transfer = none := by
      unfold directCommand at hd
      simpa using (Bool.or_eq_false_iff.mp hd).1
    exact .returned he (Goes.refl _ _) (Refusal.of_command (.inl hd))
      (fun _ => not_asksRw_of_command hscsi htr)
  unfold dispatch
  dsimp only
  cases hcmd : (env.ios i).command with
  | cmdStart => exact hplain 0 (by decide) (by simp [hcmd]) (by rw [hcmd]; rfl)
  | cmdStop => exact hplain 0 (by decide) (by simp [hcmd]) (by rw [hcmd]; rfl)
  | nscmdNvmeWriteZeroes => exact nvmeIoSubmitWriteZeroes_spec hr rfl hcmd rfl rfl
  | nscmdNvmeTrim => exact processTrim_spec hr hcmd
  | cmdUpdate => exact nvmeIoSubmitFlush_spec hr rfl (.inl hcmd)
  | etdUpdate => exact nvmeIoSubmitFlush_spec hr rfl (.inr (.inl hcmd))
  | hdScsiCmd => exact handleScsiCmd_spec hr hcmd (htr hcmd)
  | cmdInternalAbortRequest => exact absurd hcmd habort
  | other code => exact hplain _ (by decide) (by simp [hcmd]) (by rw [hcmd]; rfl)
  | _ => exact hrw _ (by rw [hcmd]; rfl)

/-- A request in the I/O table has a context that is alive. -/
theorem readCtx_eq {h : Hand} {tag : Nat} {r : Request} (hs : Safe ⟨s.core, h⟩)
    (hslot : s.slot .io tag = some r) : s.readCtx r.ctx = s := by
  unfold State.readCtx
  cases hctx : r.ctx with
  | none => rfl
  | some x =>
      dsimp only
      cases hget : s.core.ctxs.get x with
      | some ctx => rfl
      | none =>
          have hzero := ((hs.ctxs x).dead hget).1
          have hpos : 0 < Slots.held ((fun k : Key => k.ctx == some x) ∘ keyOf)
              s.core.ioTab.inflight :=
            Slots.held_pos_of_read hslot (by simp [keyOf, hctx])
          unfold sibCount reqCount coreReqs at hzero
          dsimp only at hzero
          omega

theorem ioAbortLoop_spec (target : Nat) (tags : List Nat) {h : Hand} :
    ∀ {s : State}, Goes env P s.core h (ioAbortLoop env target tags s).core h := by
  induction tags with
  | nil => exact Goes.refl _ _
  | cons tag tags ih =>
      intro s
      refine .assume fun hs => ?_
      unfold ioAbortLoop
      split
      · exact ih
      · rename_i r hslot
        rw [readCtx_eq hs hslot]
        dsimp only
        split
        · exact (nvmeSubmitAbortSqe_spec .io _).trans ih
        · exact ih

/-- `ProcessCommand` with a client request in hand; the request leaves it. -/
theorem processCommand_spec (hs : Safe ⟨s.core, ⟨some i, none, none, a, b, o⟩⟩)
    (hroom : (env.ios i).command ≠ .cmdInternalAbortRequest → HasRoom s.core)
    (hgate : s.core.state = .live → P.launch s.core.state s.core.frozen)
    (htr : (env.ios i).command = .hdScsiCmd → P.translate) :
    Goes env P.calm s.core ⟨some i, none, none, a, b, o⟩ (processCommand env s i).core
      ⟨none, none, none, a, b, o⟩ := by
  unfold processCommand
  dsimp only
  split
  · rename_i hdead
    exact .move fun _ => .replyHand _ _ rfl (.inl (.inr (.inr (.inl hdead))))
      (fun h => absurd h (by decide))
  split
  · rename_i _ habort
    have hloop : Goes env P.calm s.core ⟨some i, none, none, a, b, o⟩
        (nvmeIoAbort env s (env.ios i).target).core ⟨some i, none, none, a, b, o⟩ :=
      ioAbortLoop_spec _ _
    exact hloop.trans (.move fun _ => .discardHand rfl habort)
  · rename_i _ habort
    have hd := @dispatch_spec env P s i a b o ⟨hs, hroom habort, hgate⟩ habort htr
    generalize dispatch env s i (env.ios i) = p at hd ⊢
    obtain ⟨s₁, e⟩ := p
    dsimp only
    split
    · rename_i he
      refine (hd.sync he).1.trans (.move fun _ => ?_)
      exact .replyHand e 0 rfl (.inl (hd.sync he).2.1) (hd.sync he).2.2
    · rename_i he
      exact hd.async (not_not.mp he)

end Process

end Refine
end NvmeDriver
