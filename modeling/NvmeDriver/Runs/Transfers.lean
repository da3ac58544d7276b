import NvmeDriver.Limits
import NvmeDriver.Runs.Clients

/-!
# Transfers and the two limits on their size

A read or write is cut into commands by the controller's limit, and every command needs a
PRP list of at most eight pages.  The two agree for controllers whose limit is at most
8 MiB, or unreported, or beyond 32 bits of sectors; between 16 MiB and 2^40 bytes the
limit lets through commands whose PRP list does not fit.
-/

namespace NvmeDriver
namespace Runs

open Engine
open Lib
open Ownership
open Refine
open Namespace (NsInfo unitOfInfo lbaOutOfRange)

/-! ### The chunks of a transfer -/

section Chunks

/-- A configuration the driver can be in, in the middle of a function, too. -/
def Reachable (env : Env) (maxZeroes : Nat) (g : Cfg) : Prop :=
  Relation.ReflTransGen (Move env Refine.Policy.all)
    ⟨(upState env maxZeroes).core, ⟨none, none, none, 0, false, false⟩⟩ g

/-- A read or write of a plain unit that passes the checks of `nvme_io_submit_rw`. -/
structure InRange (env : Env) (u lba blocks opcode buffer : Nat) : Prop where
  plain : ∃ maxZeroes n info, NsInfo.Plain info ∧ env.units u = unitOfInfo maxZeroes n info
  opcode : opcode = nvmeCmdRead ∨ opcode = nvmeCmdWrite
  bytes : blocks * 2 ^ (env.units u).blockShift < 2 ^ 32
  some : blocks ≠ 0 ∧ buffer ≠ 0
  inside : lbaOutOfRange (env.units u) lba blocks = false

/-- The transfer at an offset, as the pump sees it. -/
def contextAt (env : Env) (u lba blocks opcode buffer offset : Nat) : IoContext :=
  { io := 0, unit := u, startLba := lba, totalBytes := transferBytes env u blocks
    dispatched := offset, opcode := opcode, userData := buffer }

/-- The offsets at which a transfer is cut. -/
inductive CutAt (env : Env) (u lba total opcode : Nat) : Nat → Prop
  | start : CutAt env u lba total opcode 0
  | next {ctx : IoContext} (hunit : ctx.unit = u) (hlba : ctx.startLba = lba)
      (htotal : ctx.totalBytes = total) (hopcode : ctx.opcode = opcode)
      (hcut : CutAt env u lba total opcode ctx.dispatched)
      (hmore : ctx.dispatched < ctx.totalBytes) :
      CutAt env u lba total opcode (ctx.dispatched + nextBytes env ctx)

/-- The next command of a context: its PRP list fits eight list pages wherever the data
is, its block count fits the 16 bits of NLB, and the controller accepts its size. -/
structure ChunkFits (env : Env) (mpsmin mdts : Nat) (ctx : IoContext) : Prop where
  listPages : ∀ a, Prp.tailPages a (nextBytes env ctx) ≤ Prp.maxListPages * Prp.chainAt
  nlb : nlbField (nextBlocks env ctx) + 1 = nextBlocks env ctx
  mdts : mdts ≠ 0 → nextBytes env ctx ≤ mdtsBytes mpsmin mdts

/-- The read or write is not refused for its size: its commands fit; submitting it for a
client, with room in the queue as `nvme_drain_msgport` leaves it, works or finds the queue
busy; and so does every later turn of the pump. -/
structure NeverRefused (env : Env) (mpsmin mdts u lba blocks opcode buffer : Nat) :
    Prop where
  fits : ∀ offset, CutAt env u lba (transferBytes env u blocks) opcode offset →
    offset < transferBytes env u blocks →
      ChunkFits env mpsmin mdts (contextAt env u lba blocks opcode buffer offset)
  submit : ∀ maxZeroes s i a b o,
    Reachable env maxZeroes ⟨s.core, ⟨some i, none, none, a, b, o⟩⟩ →
      Asked env i (.rw u lba blocks opcode buffer) → HasRoom s.core →
      s.core.state = .live →
      (nvmeIoSubmitRw env s u i lba blocks opcode buffer).2 = nvmeIoAsync ∨
        (nvmeIoSubmitRw env s u i lba blocks opcode buffer).2 = ioerrUnitBusy
  pump : ∀ maxZeroes s x ctx i a b o,
    Reachable env maxZeroes ⟨s.core, ⟨i, none, some x, a, b, o⟩⟩ →
      s.core.ctxs.get x = some ctx → ctx.unit = u → ctx.startLba = lba →
      ctx.totalBytes = transferBytes env u blocks → ctx.opcode = opcode →
      ctx.userData = buffer → ctx.stalled = false → ctx.dispatched < ctx.totalBytes →
        ChunkFits env mpsmin mdts ctx ∧ (nvmeIoContextPump env s x).2 = nvmeIoAsync ∧
          ∃ ctx', (nvmeIoContextPump env s x).1.core.ctxs.get x = some ctx' ∧
            ctx'.firstError = ctx.firstError

end Chunks

/-! ### Where contexts are cut -/

section Cuts

variable {env : Env} {P : Policy} {g g' : Cfg}

/-- Every context is at a cut of its transfer. -/
def AtCuts (env : Env) (g : Cfg) : Prop :=
  ∀ x ctx, g.core.ctxs.get x = some ctx →
    CutAt env ctx.unit ctx.startLba ctx.totalBytes ctx.opcode ctx.dispatched

/-- A context of the same transfer. -/
structure SameTransfer (ctx ctx' : IoContext) : Prop where
  unit : ctx'.unit = ctx.unit
  startLba : ctx'.startLba = ctx.startLba
  totalBytes : ctx'.totalBytes = ctx.totalBytes
  opcode : ctx'.opcode = ctx.opcode

/-- Where a context comes from: it is opened for a transfer its client asks for, or it was
there, and its next chunk is dispatched or the offset stays. -/
theorem Move.context_origin (hm : Move env P g g') {x : Nat} {ctx' : IoContext}
    (hget' : g'.core.ctxs.get x = some ctx') :
    (x = g.core.allocs ∧ ctx'.dispatched = 0 ∧ ∃ t, Asked env ctx'.io t ∧ Checked env t ∧
      ¬Single env t ∧ ContextOf env ctx' t) ∨
      ∃ ctx, g.core.ctxs.get x = some ctx ∧ SameRequest ctx ctx' ∧
        (ctx'.dispatched = ctx.dispatched ∨
          ctx.dispatched < ctx.totalBytes ∧
            ctx'.dispatched = ctx.dispatched + nextBytes env ctx) := by
  have hsame : g.core.ctxs.get x = some ctx' →
      ∃ ctx, g.core.ctxs.get x = some ctx ∧ SameRequest ctx ctx' ∧
        (ctx'.dispatched = ctx.dispatched ∨
          ctx.dispatched < ctx.totalBytes ∧
            ctx'.dispatched = ctx.dispatched + nextBytes env ctx) := fun h =>
    ⟨ctx', h, .refl ctx', .inl rfl⟩
  have hkept : ∀ {y : Nat} {f : IoContext → IoContext},
      (g.core.ctxs.modify y f).get x = some ctx' →
      (∀ ctx, g.core.ctxs.get y = some ctx →
        SameRequest ctx (f ctx) ∧ (f ctx).dispatched = ctx.dispatched) →
      ∃ ctx, g.core.ctxs.get x = some ctx ∧ SameRequest ctx ctx' ∧
        (ctx'.dispatched = ctx.dispatched ∨
          ctx.dispatched < ctx.totalBytes ∧
            ctx'.dispatched = ctx.dispatched + nextBytes env ctx) := by
    intro y f hmod hf
    rcases get_modify_cases hmod with h | ⟨ctx, hget, rfl, rfl⟩
    · exact hsame h
    · exact ⟨ctx, hget, (hf ctx hget).1, .inl (hf ctx hget).2⟩
  have herased : ∀ {y : Nat}, (g.core.ctxs.erase y).get x = some ctx' →
      g.core.ctxs.get x = some ctx' := by
    intro y hget
    rw [Heap.get_erase] at hget
    split at hget
    · cases hget
    · exact hget
  cases hm with
  | @launchSib c h y cid rest n us notes r ctx hh hreq hget hfree hn hnotes hkey hcid hret
      hstall hmore hcap hof hring hgate =>
      right
      rcases get_modify_cases hget' with h | ⟨ctx₀, hget₀, rfl, rfl⟩
      · exact hsame h
      · cases Option.some.inj (hget₀.symm.trans hget)
        exact ⟨ctx, hget, ⟨rfl, rfl, rfl, rfl, rfl, rfl⟩, .inr ⟨hmore, rfl⟩⟩
  | @sibDone c h r y ctx hh hctx hget hnone =>
      refine .inr (hkept hget' fun ctx₀ hget₀ => ?_)
      cases Option.some.inj (hget₀.symm.trans hget)
      exact ⟨⟨rfl, rfl, rfl, rfl, rfl, rfl⟩, rfl⟩
  | @allocCtx c h i ctx t hh hreq hnone hio hinf hdis herr hstall hask hcheck hof hroom
      hmany =>
      change (c.ctxs.insert c.allocs ctx).get x = some ctx' at hget'
      rw [Heap.get_insert] at hget'
      split at hget'
      · rename_i hx
        cases hget'
        subst hio
        exact .inl ⟨hx, hdis, t, hask, hcheck, hmany, hof⟩
      · exact .inr (hsame hget')
  | ctxError e hh hget hstall he hwhy =>
      exact .inr (hkept hget' fun _ _ => ⟨⟨rfl, rfl, rfl, rfl, rfl, rfl⟩, rfl⟩)
  | stall hh hget hidle hstall hmore =>
      exact .inr (hkept hget' fun _ _ => ⟨⟨rfl, rfl, rfl, rfl, rfl, rfl⟩, rfl⟩)
  | unstall hlist hreq hnone hroom =>
      exact .inr (hkept hget' fun _ _ => ⟨⟨rfl, rfl, rfl, rfl, rfl, rfl⟩, rfl⟩)
  | finish hh hget hidle hstall hdone hsibs hnotes => exact .inr (hsame (herased hget'))
  | freeCtx hh hget hidle hstall hio herr => exact .inr (hsame (herased hget'))
  | phase hstir hp => cases hp <;> exact .inr (hsame hget')
  | _ => exact .inr (hsame (by simpa [stamp, sent] using hget'))

/-- What a move makes of contexts: the next chunk is dispatched, or the offset stays. -/
theorem Move.context_cases (hm : Move env P g g') {x : Nat} {ctx' : IoContext}
    (hget' : g'.core.ctxs.get x = some ctx') :
    ctx'.dispatched = 0 ∨
      ∃ ctx, g.core.ctxs.get x = some ctx ∧ SameTransfer ctx ctx' ∧
        (ctx'.dispatched = ctx.dispatched ∨
          ctx.dispatched < ctx.totalBytes ∧
            ctx'.dispatched = ctx.dispatched + nextBytes env ctx) := by
  rcases Move.context_origin hm hget' with ⟨-, hzero, -⟩ | ⟨ctx, hget, hsame, hoff⟩
  · exact .inl hzero
  · exact .inr ⟨ctx, hget, ⟨hsame.unit, hsame.startLba, hsame.totalBytes, hsame.opcode⟩, hoff⟩

theorem Move.keeps_atCuts (hm : Move env P g g') (hold : AtCuts env g) : AtCuts env g' := by
  intro x ctx' hget'
  rcases Move.context_cases hm hget' with hzero | ⟨ctx, hget, hsame, hoff⟩
  · rw [hzero]
    exact .start
  · have hcut := hold x ctx hget
    rw [hsame.unit, hsame.startLba, hsame.totalBytes, hsame.opcode]
    rcases hoff with h | ⟨hmore, h⟩
    · rw [h]
      exact hcut
    · rw [h]
      exact .next rfl rfl rfl rfl hcut hmore

/-- Every context of a run is at a cut. -/
theorem Reachable.atCuts {maxZeroes : Nat} (hg : Reachable env maxZeroes g) : AtCuts env g := by
  have hkeep : Keeps (Move env Refine.Policy.all) (AtCuts env) :=
    fun _ _ hold hm => Move.keeps_atCuts hm hold
  refine hkeep.path hg ?_
  intro x ctx hget
  cases hget

theorem Reachable.safe {maxZeroes : Nat} (hg : Reachable env maxZeroes g) : Safe g :=
  (keeps_safe env _).path hg (up_safe env maxZeroes)

end Cuts

/-! ### Modest controllers -/

section Modest

variable {env : Env} {mpsmin mdts u lba blocks opcode buffer : Nat}

/-- A command of at most 8 MiB needs at most 2048 entries. -/
theorem nrDataPages_small {bytes : Nat} (hbytes : bytes ≤ 2 ^ 23) (a : Nat) :
    Prp.nrDataPages (bytes - pageLeft Prp.pageSize a) ≤ Prp.maxListPages * Prp.chainAt := by
  have hsize : Prp.pageSize = 4096 := rfl
  have hcap : Prp.maxListPages * Prp.chainAt = 4088 := rfl
  unfold Prp.nrDataPages
  rw [hsize, hcap]
  omega

theorem not_setupFails {bytes : Nat} (hmem : ∀ n, env.alloc n ≠ none)
    (hbytes : bytes ≤ 2 ^ 23) (buffer : Nat) : ¬SetupFails env buffer bytes := by
  rintro (⟨n, hn⟩ | ⟨a, -, ha⟩)
  · exact hmem n hn
  · exact absurd (nrDataPages_small hbytes a) (Nat.not_le_of_lt ha)

/-- The next command is within the cap. -/
theorem nextBytes_le (hcfg : OfController env.cfg mpsmin mdts) (hm : Modest mpsmin mdts)
    {ctx : IoContext} (hopcode : ctx.opcode ≠ nvmeCmdWriteZeroes) :
    nextBytes env ctx ≤ 2 ^ 23 ∧ (mdts ≠ 0 → nextBytes env ctx ≤ mdtsBytes mpsmin mdts) := by
  obtain ⟨hpos, hle, hmdts⟩ := nvmeRwChunkCap_modest hcfg hm
    (env.units ctx.unit).blockShift (nextLba env ctx)
  have hcap : nextBytes env ctx ≤
      nvmeRwChunkCap env.cfg (env.units ctx.unit).blockShift (nextLba env ctx) := by
    unfold nextBytes
    rw [if_neg hopcode]
    dsimp only
    split
    · exact Nat.le_refl _
    · rename_i hno
      by_contra hlt
      exact hno ⟨by omega, by omega⟩
  exact ⟨hcap.trans hle, fun hne => hcap.trans (hmdts hne)⟩

theorem not_chunkFails (hcfg : OfController env.cfg mpsmin mdts) (hm : Modest mpsmin mdts)
    (hmem : ∀ n, env.alloc n ≠ none) (ctx : IoContext) : ¬ChunkFails env ctx := by
  rintro ⟨hopcode, hfails⟩
  refine not_setupFails hmem ?_ _ hfails
  refine le_trans ?_ (nextBytes_le hcfg hm hopcode).1
  unfold transferBytes nextBlocks
  exact (Nat.mod_le _ _).trans (Nat.div_mul_le_self _ _)

theorem InRange.shift (hin : InRange env u lba blocks opcode buffer) :
    9 ≤ (env.units u).blockShift ∧ (env.units u).blockShift ≤ 12 := by
  obtain ⟨maxZeroes, n, info, hplain, hunit⟩ := hin.plain
  rw [hunit, (Namespace.unitOfInfo_plain maxZeroes n hplain).1]
  exact ⟨hplain.2.2.2.1, hplain.2.2.2.2⟩

theorem InRange.opcode_ne (hin : InRange env u lba blocks opcode buffer) :
    opcode ≠ nvmeCmdWriteZeroes := by
  rcases hin.opcode with h | h
  · rw [h]
    decide
  · rw [h]
    decide

theorem InRange.total (hin : InRange env u lba blocks opcode buffer) :
    transferBytes env u blocks = blocks * 2 ^ (env.units u).blockShift :=
  Nat.mod_eq_of_lt hin.bytes

/-- The next command is whole blocks if the offset and the total are. -/
theorem dvd_nextBytes {ctx : IoContext} (hopcode : ctx.opcode ≠ nvmeCmdWriteZeroes)
    (hcap : ∀ lba, 2 ^ (env.units ctx.unit).blockShift ∣
      nvmeRwChunkCap env.cfg (env.units ctx.unit).blockShift lba)
    (htotal : 2 ^ (env.units ctx.unit).blockShift ∣ ctx.totalBytes)
    (hoff : 2 ^ (env.units ctx.unit).blockShift ∣ ctx.dispatched) :
    2 ^ (env.units ctx.unit).blockShift ∣ nextBytes env ctx := by
  unfold nextBytes
  rw [if_neg hopcode]
  dsimp only
  split
  · exact hcap _
  · exact Nat.dvd_sub htotal hoff

/-- Reads and writes are cut between blocks. -/
theorem CutAt.dvd {total offset : Nat} (hopcode : opcode ≠ nvmeCmdWriteZeroes)
    (hcap : ∀ lba, 2 ^ (env.units u).blockShift ∣
      nvmeRwChunkCap env.cfg (env.units u).blockShift lba)
    (htotal : 2 ^ (env.units u).blockShift ∣ total)
    (hcut : CutAt env u lba total opcode offset) :
    2 ^ (env.units u).blockShift ∣ offset := by
  induction hcut with
  | start => exact Nat.dvd_zero _
  | @next ctx hunit hlba hsum hop hcut hmore ih =>
      subst hunit hsum hop
      exact Nat.dvd_add ih (dvd_nextBytes hopcode hcap htotal ih)

/-- Every command of a modest controller fits. -/
theorem chunkFits (hcfg : OfController env.cfg mpsmin mdts) (hm : Modest mpsmin mdts)
    (hin : InRange env u lba blocks opcode buffer) {ctx : IoContext} (hunit : ctx.unit = u)
    (hopcode : ctx.opcode = opcode) (htotal : ctx.totalBytes = transferBytes env u blocks)
    (hcut : CutAt env u lba (transferBytes env u blocks) opcode ctx.dispatched)
    (hmore : ctx.dispatched < ctx.totalBytes) : ChunkFits env mpsmin mdts ctx := by
  subst hunit hopcode
  obtain ⟨hlow, hhigh⟩ := hin.shift
  have hne := hin.opcode_ne
  have hdvd : 2 ^ (env.units ctx.unit).blockShift ∣ ctx.totalBytes := by
    rw [htotal, hin.total]
    exact Nat.dvd_mul_left _ _
  have hoff := hcut.dvd hne (dvd_nvmeRwChunkCap hcfg hhigh) (htotal ▸ hdvd)
  obtain ⟨hle, hmdts⟩ := nextBytes_le hcfg hm hne
  refine ⟨fun a => ?_, ?_, hmdts⟩
  · rw [← Prp.nrDataPages_eq]
    · exact nrDataPages_small hle a
    · have hsize : Prp.pageSize = 4096 := rfl
      omega
  · obtain ⟨n, hn⟩ := dvd_nextBytes hne (dvd_nvmeRwChunkCap hcfg hhigh) hdvd hoff
    have hpos := nextBytes_pos env hmore
    have hblocks : nextBlocks env ctx = n := by
      unfold nextBlocks
      rw [hn, Nat.mul_div_cancel_left _ (Nat.pos_of_neZero _)]
    have hpow : 2 ^ 9 ≤ 2 ^ (env.units ctx.unit).blockShift :=
      Nat.pow_le_pow_right (by decide) hlow
    have hmul : 2 ^ 9 * n ≤ nextBytes env ctx := hn ▸ Nat.mul_le_mul_right n hpow
    have hn0 : 0 < n := by
      rcases Nat.eq_zero_or_pos n with h | h
      · rw [hn, h] at hpos
        exact absurd hpos (by simp)
      · exact h
    rw [hblocks]
    unfold nlbField
    omega

theorem InRange.checked (hin : InRange env u lba blocks opcode buffer) :
    Checked env (.rw u lba blocks opcode buffer) := by
  refine ⟨?_, hin.some.2, hin.inside⟩
  rw [hin.total]
  exact Nat.mul_ne_zero hin.some.1 (Nat.pos_of_neZero _).ne'

/-- A single command is set up and submitted, or the queue is busy. -/
theorem submitSingle_accepts {s : State} {h : Hand} {i : Nat} (hs : Safe ⟨s.core, h⟩)
    (hmem : ∀ n, env.alloc n ≠ none) (hlive : s.core.state = .live)
    (hbytes : transferBytes env u blocks ≤ 2 ^ 23) :
    let p := submitSingle env s u i (fun s tag => nvmeSetupRw env s tag lba blocks opcode buffer)
    p.2 = nvmeIoAsync ∨ p.2 = ioerrUnitBusy := by
  dsimp only
  unfold submitSingle nvmeReqAllocIo
  rcases @allocRequest_cases env s .io (fun r => { r with io := some i, unit := some u })
      ioerrSelfTest ioerrUnitBusy (hs.tabs .io) (fun _ => rfl) with
    ⟨s₁, heq, hcore, hno⟩ | ⟨s₁, heq, hcore, -⟩ | ⟨s₁, cid, rest, heq, hh, hal⟩
  · exact absurd hno (hmem _)
  · rw [heq]
    exact .inr rfl
  · rw [heq]
    dsimp only
    have hready : nvmeCheckReady s₁ = true := by
      unfold nvmeCheckReady
      rw [hh.state, hlive]
      rfl
    rw [hready, if_neg (by decide)]
    obtain ⟨r', es', hfill, hres⟩ := @nvmeSetupRw_spec env s.core cid rest s₁ _ [] hh (by simp)
      lba blocks opcode buffer
    generalize nvmeSetupRw env s₁ (cidTag cid) lba blocks opcode buffer = p at hfill hres ⊢
    obtain ⟨s₂, serr⟩ := p
    dsimp only at hfill hres ⊢
    rcases hres with ⟨rfl, -, -⟩ | ⟨-, -, hfails⟩
    · rw [if_neg (by decide), hfill.holding.nvmeSubmitIo]
      split
      · exact .inr rfl
      · exact .inl rfl
    · exact absurd hfails (not_setupFails hmem hbytes buffer)

/-- The pump of a modest controller never fails a context. -/
theorem pump_accepts (hcfg : OfController env.cfg mpsmin mdts) (hm : Modest mpsmin mdts)
    (hmem : ∀ n, env.alloc n ≠ none) {s : State} {x : Nat} {ctx : IoContext} {i : Option Nat}
    {a : Nat} {b o : Bool} (hs : Safe ⟨s.core, ⟨i, none, some x, a, b, o⟩⟩)
    (hget : s.core.ctxs.get x = some ctx) (hstall : ctx.stalled = false)
    (hmore : ctx.dispatched < ctx.totalBytes) :
    (nvmeIoContextPump env s x).2 = nvmeIoAsync ∧
      ∃ ctx', (nvmeIoContextPump env s x).1.core.ctxs.get x = some ctx' ∧
        ctx'.firstError = ctx.firstError := by
  have hno := not_chunkFails hcfg hm hmem
  obtain ⟨-, ctx', hget', -, herr, hres⟩ :=
    @nvmeIoContextPump_spec env Refine.Policy.all x s ctx i a b o hs hget hstall hmore trivial
      (.inr trivial)
  have herr' : ctx'.firstError = ctx.firstError :=
    herr.resolve_right (fun ⟨y, hy⟩ => hno y hy)
  rcases hres with ⟨hasync, -⟩ | ⟨-, -, -, -, -, hfails, -⟩
  · exact ⟨hasync, ctx', hget', herr'⟩
  · exact absurd hfails (hno ctx)

theorem nvmeIoSubmitRw_accepts (hcfg : OfController env.cfg mpsmin mdts)
    (hm : Modest mpsmin mdts) (hmem : ∀ n, env.alloc n ≠ none)
    (hin : InRange env u lba blocks opcode buffer) {s : State} {i a : Nat} {b o : Bool}
    (hs : Safe ⟨s.core, ⟨some i, none, none, a, b, o⟩⟩)
    (hask : Asked env i (.rw u lba blocks opcode buffer)) (hroom : HasRoom s.core)
    (hlive : s.core.state = .live) :
    (nvmeIoSubmitRw env s u i lba blocks opcode buffer).2 = nvmeIoAsync ∨
      (nvmeIoSubmitRw env s u i lba blocks opcode buffer).2 = ioerrUnitBusy := by
  have hcheck := hin.checked
  have hcap := nvmeRwChunkCap_modest hcfg hm (env.units u).blockShift lba
  unfold nvmeIoSubmitRw
  dsimp only
  change (if transferBytes env u blocks = 0 then _ else _ : State × Int).2 = _ ∨
    (if transferBytes env u blocks = 0 then _ else _ : State × Int).2 = _
  rw [if_neg hcheck.1, if_neg hin.some.2, hin.inside, if_neg (by decide)]
  by_cases hone : nvmeRwChunkCap env.cfg (env.units u).blockShift lba = 0 ∨
      transferBytes env u blocks ≤ nvmeRwChunkCap env.cfg (env.units u).blockShift lba
  · have hone' : nvmeRwChunkCap env.cfg (env.units u).blockShift lba = 0 ∨
        blocks * 2 ^ (env.units u).blockShift % 2 ^ 32 ≤
          nvmeRwChunkCap env.cfg (env.units u).blockShift lba := hone
    rw [if_pos hone']
    refine submitSingle_accepts hs hmem hlive ?_
    rcases hone with h | h
    · omega
    · exact h.trans hcap.2.1
  · have hone' : ¬(nvmeRwChunkCap env.cfg (env.units u).blockShift lba = 0 ∨
        blocks * 2 ^ (env.units u).blockShift % 2 ^ 32 ≤
          nvmeRwChunkCap env.cfg (env.units u).blockShift lba) := hone
    have hready : nvmeCheckReady s = true := by
      unfold nvmeCheckReady
      rw [hlive]
      rfl
    rw [if_neg hone', hready, if_neg (by decide)]
    left
    obtain ⟨p, hp⟩ := Option.ne_none_iff_exists'.mp (hmem s.core.allocs)
    rw [submitChunked_eq hp]
    generalize hctx : ({ io := i, unit := u, startLba := lba
                         totalBytes := blocks * 2 ^ (env.units u).blockShift % 2 ^ 32
                         opcode := opcode, userData := buffer
                         dataPrecached := !nvmeNeedsBounce env buffer
                           (blocks * 2 ^ (env.units u).blockShift % 2 ^ 32)
                           (opcode == nvmeCmdWrite) } : IoContext) = ctx
    have hof : ContextOf env ctx (.rw u lba blocks opcode buffer) := by
      rw [← hctx]
      exact ⟨fun h => hone (.inl h), rfl, rfl, rfl, rfl, rfl⟩
    have hmore : ctx.dispatched < ctx.totalBytes := by
      rw [← hctx]
      exact Nat.pos_of_ne_zero hcheck.1
    have hstall : ctx.stalled = false := by
      rw [← hctx]
    obtain ⟨hgo, hget⟩ := @withContext_spec env Refine.Policy.all s i a b o _ ctx hask hcheck
      hof (by rw [← hctx]) (by rw [← hctx]) (by rw [← hctx]) (by rw [← hctx]) hstall hroom hone
    have hpump := (pump_accepts hcfg hm hmem (hgo.safe hs) hget hstall hmore).1
    rw [if_neg (not_not.mpr hpump)]

/-- On a modest controller no read or write is refused for its size. -/
theorem neverRefused_of_modest (hcfg : OfController env.cfg mpsmin mdts)
    (hm : Modest mpsmin mdts) (hmem : ∀ n, env.alloc n ≠ none)
    (hin : InRange env u lba blocks opcode buffer) :
    NeverRefused env mpsmin mdts u lba blocks opcode buffer := by
  constructor
  case fits =>
    intro offset hcut hmore
    exact chunkFits hcfg hm hin rfl rfl rfl hcut hmore
  case submit =>
    intro maxZeroes s i a b o hg hask hroom hlive
    exact nvmeIoSubmitRw_accepts hcfg hm hmem hin hg.safe hask hroom hlive
  case pump =>
    intro maxZeroes s x ctx i a b o hg hget hunit hlba htotal hopcode hbuf hstall hmore
    have hcut := hg.atCuts x ctx hget
    rw [hunit, hlba, htotal, hopcode] at hcut
    exact ⟨chunkFits hcfg hm hin hunit hopcode htotal hcut hmore,
      pump_accepts hcfg hm hmem hg.safe hget hstall hmore⟩

end Modest

/-! ### The other controllers -/

section Immodest

variable {mpsmin mdts : Nat}

/-- The sample controller with other capabilities. -/
def sampleWith (cfg : Config) : Env := { sampleEnv with cfg := cfg }

/-- A read of 16 MiB from the start of the sample unit. -/
theorem sample_inRange (cfg : Config) :
    InRange (sampleWith cfg) 0 0 32768 nvmeCmdRead 0x10000000 where
  plain := ⟨2048, 0, Namespace.plainInfo 1 0x200000 9, by decide, rfl⟩
  opcode := .inl rfl
  bytes := (by decide : 32768 * 2 ^ (sampleEnv.units 0).blockShift < 2 ^ 32)
  some := by decide
  inside := (by decide : lbaOutOfRange (sampleEnv.units 0) 0 32768 = false)

theorem sample_total (cfg : Config) : transferBytes (sampleWith cfg) 0 32768 = 2 ^ 24 :=
  (by decide : transferBytes sampleEnv 0 32768 = 2 ^ 24)

/-- A controller with a limit of 16 MiB or more, or none, gets those 16 MiB at once. -/
theorem sample_nextBytes {cfg : Config} (hcfg : OfController cfg mpsmin mdts)
    (hno : ¬Modest mpsmin mdts) :
    nextBytes (sampleWith cfg) (contextAt (sampleWith cfg) 0 0 32768 nvmeCmdRead 0x10000000 0) =
      2 ^ 24 := by
  have hshift : ((sampleWith cfg).units 0).blockShift = 9 := rfl
  have htotal := sample_total cfg
  have hcap : nvmeRwChunkCap cfg 9 0 = cfg.maxTransferBytes :=
    nvmeRwChunkCap_zero hcfg (by decide)
  have hbig : cfg.maxTransferBytes = 0 ∨ 2 ^ 24 ≤ cfg.maxTransferBytes := by
    unfold Modest at hno
    rcases limits_cases hcfg with ⟨hdef, -, -⟩ | ⟨-, -, -, hbytes⟩
    · omega
    · rw [hbytes]
      by_cases hfits : mpsmin + mdts ≤ 19
      · right
        have hlt : 2 ^ (mpsmin + mdts + 12) < 2 ^ 32 :=
          Nat.pow_lt_pow_right (by decide) (by omega)
        rw [Nat.mod_eq_of_lt hlt]
        exact Nat.pow_le_pow_right (by decide) (by omega)
      · left
        exact Nat.mod_eq_zero_of_dvd (Nat.pow_dvd_pow 2 (by omega))
  have hcfg' : (sampleWith cfg).cfg = cfg := rfl
  have hread : nvmeCmdRead ≠ nvmeCmdWriteZeroes := by decide
  simp only [nextBytes, contextAt, nextLba, htotal, hshift, hcfg', if_neg hread, Nat.zero_div,
    Nat.zero_mod, Nat.add_zero, Nat.sub_zero, hcap]
  rw [if_neg]
  omega

/-- The PRP list of 16 MiB does not fit eight list pages. -/
theorem sixteenMiB_too_long (a : Nat) :
    Prp.maxListPages * Prp.chainAt < Prp.tailPages a (2 ^ 24) := by
  have hle := pageLeft_le Prp.pageSize a
  have hsize : Prp.pageSize = 4096 := rfl
  have hcap : Prp.maxListPages * Prp.chainAt = 4088 := rfl
  unfold Prp.tailPages
  rw [hsize] at hle ⊢
  rw [hcap]
  omega

end Immodest

/-- A controller never has a read or write refused for its size if and only if its limit
is unreported, at most 8 MiB, or beyond 32 bits of sectors. -/
theorem transfers_never_refused_iff (mpsmin mdts : Nat) (cfg : Config)
    (hcfg : OfController cfg mpsmin mdts) :
    (∀ env : Env, env.cfg = cfg → (∀ n, env.alloc n ≠ none) →
        ∀ u lba blocks opcode buffer, InRange env u lba blocks opcode buffer →
          NeverRefused env mpsmin mdts u lba blocks opcode buffer) ↔
      mdts = 0 ∨ mpsmin + mdts ≤ 11 ∨ 29 ≤ mpsmin + mdts := by
  constructor
  · intro hall
    by_contra hno
    have hmem : ∀ n, (sampleWith cfg).alloc n ≠ none := fun n h => Option.some_ne_none _ h
    have hfits := (hall (sampleWith cfg) rfl hmem 0 0 32768 nvmeCmdRead 0x10000000
      (sample_inRange cfg)).fits 0 .start (by rw [sample_total]; decide)
    have hpages := hfits.listPages 0x10000000
    rw [sample_nextBytes hcfg hno] at hpages
    exact absurd hpages (Nat.not_le_of_lt (sixteenMiB_too_long _))
  · intro hm env henv hmem u lba blocks opcode buffer hin
    subst henv
    exact neverRefused_of_modest hcfg hm hmem hin

/-- A controller that reports 8 MiB. -/
theorem transfers_never_refused_eightMiB :
    (∀ env : Env, env.cfg = { sampleEnv.cfg with
          maxHwSectors := 2 ^ 14, maxTransferBytes := 2 ^ 23 } →
        (∀ n, env.alloc n ≠ none) →
        ∀ u lba blocks opcode buffer, InRange env u lba blocks opcode buffer →
          NeverRefused env 0 11 u lba blocks opcode buffer) ↔
      11 = 0 ∨ 0 + 11 ≤ 11 ∨ 29 ≤ 0 + 11 :=
  transfers_never_refused_iff 0 11 _ ⟨rfl, rfl⟩

/-- A controller that reports 16 MiB. -/
def sixteenMiB : Env :=
  sampleWith { sampleEnv.cfg with maxHwSectors := 2 ^ 15, maxTransferBytes := 2 ^ 24 }

/-- A read of 16 MiB is refused there. -/
theorem sixteenMiB_refused :
    pageSizeOk 0 = true ∧ OfController sixteenMiB.cfg 0 12 ∧
      (∀ n, sixteenMiB.alloc n ≠ none) ∧
      InRange sixteenMiB 0 0 32768 nvmeCmdRead 0x10000000 ∧
      (bootState sixteenMiB 0).core.state = .live ∧
      (nvmeIoSubmitRw sixteenMiB (bootState sixteenMiB 0) 0 0 0 32768 nvmeCmdRead
        0x10000000).2 = ioerrSelfTest := by
  refine ⟨rfl, ⟨rfl, rfl⟩, fun n h => Option.some_ne_none _ h, sample_inRange _, ?_, ?_⟩
  · decide +kernel
  · decide +kernel

end Runs
end NvmeDriver
