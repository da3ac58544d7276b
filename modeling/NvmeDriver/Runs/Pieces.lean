import NvmeDriver.Runs.Transfers

/-!
# What commands are pieces of

A command keeps what it was submitted with for as long as the driver has it, over every
retry.  So every I/O command on the log is the one command, or one of the chunks, of a
transfer that its client asks for.
-/

namespace NvmeDriver
namespace Runs

open Engine
open Lib
open Ownership
open Refine

/-! ### What a request keeps -/

section Payload

variable {r r' r'' : Request}

/-- The command without its name. -/
def unnamed (c : Command) : Command := { c with commandId := 0 }

/-- The same request, but for its tag, its accounting and its DMA resources. -/
structure SamePayload (r r' : Request) : Prop where
  key : keyOf r' = keyOf r
  cmd : unnamed r'.cmd = unnamed r.cmd
  buf : r'.userBuf = r.userBuf
  len : r'.userLen = r.userLen

theorem SamePayload.refl (r : Request) : SamePayload r r := ⟨rfl, rfl, rfl, rfl⟩

theorem SamePayload.trans (h : SamePayload r r') (h' : SamePayload r' r'') : SamePayload r r'' :=
  ⟨h'.key.trans h.key, h'.cmd.trans h.cmd, h'.buf.trans h.buf, h'.len.trans h.len⟩

theorem SamePayload.q (h : SamePayload r r') : r'.q = r.q := congrArg Key.q h.key

theorem SamePayload.io (h : SamePayload r r') : r'.io = r.io := congrArg Key.io h.key

theorem SamePayload.ctx (h : SamePayload r r') : r'.ctx = r.ctx := congrArg Key.ctx h.key

theorem SamePayload.opcode (h : SamePayload r r') : r'.cmd.opcode = r.cmd.opcode := by
  have hcmd := congrArg Command.opcode h.cmd
  exact hcmd

theorem SamePayload.nsid (h : SamePayload r r') : r'.cmd.nsid = r.cmd.nsid := by
  have hcmd := congrArg Command.nsid h.cmd
  exact hcmd

theorem SamePayload.slba (h : SamePayload r r') : r'.cmd.slba = r.cmd.slba := by
  have hcmd := congrArg Command.slba h.cmd
  exact hcmd

theorem SamePayload.nlb (h : SamePayload r r') : r'.cmd.length = r.cmd.length := by
  have hcmd := congrArg Command.length h.cmd
  exact hcmd

/-- The driver still has the request. -/
inductive Around (g : Cfg) (r : Request) : Prop
  | slot {q : QueueId} {tag : Nat} (h : (g.core.tab q).read tag = some r)
  | parked (h : r ∈ g.core.retryList)
  | hand (h : g.hand.req = some r)

end Payload

/-! ### Where requests come from -/

section Moves

variable {env : Env} {P : Policy} {g g' : Cfg} {r r' : Request} {t : SlotTable}

/-- The request is submitted for the first time, for a client: as its only command or as the
next chunk of one of its transfers. -/
inductive Starts (env : Env) (g : Cfg) (i : Nat) (r : Request) : Prop
  | single {t : Transfer} (hh : g.hand.io = some i) (hio : r.io = some i) (hctx : r.ctx = none)
      (hask : Asked env i t) (hcheck : Checked env t) (hone : Single env t)
      (hof : SingleOf env r t)
  | chunk {x : Nat} {ctx : IoContext} (hget : g.core.ctxs.get x = some ctx) (hi : ctx.io = i)
      (hio : r.io = none) (hctx : r.ctx = some x) (hmore : ctx.dispatched < ctx.totalBytes)
      (hof : ChunkOf env ctx r)

/-- A request the driver has after a move: it had it before, or it is new. -/
inductive Came (env : Env) (g : Cfg) (r' : Request) : Prop
  | kept {r : Request} (h : Around g r) (hsame : SamePayload r r')
  | new {i : Nat} {r : Request} (h : Starts env g i r) (hsame : SamePayload r r')
  | admin (h : r'.q = .admin)

theorem Came.of_around (h : Around g r) : Came env g r := .kept h (.refl r)

theorem Move.came (hm : Move env P g g') (h : Around g' r') : Came env g r' := by
  -- what happens when one table is replaced, and the retry list and the hand stay or lose
  have hlists : g'.core.retryList ⊆ g.core.retryList → g'.hand.req = g.hand.req ∨
      g'.hand.req = none → (∀ q tag, (g'.core.tab q).read tag = some r' → Came env g r') →
      Came env g r' := by
    intro hlist hhand htab
    cases h with
    | slot h => exact htab _ _ h
    | parked h => exact .of_around (.parked (hlist h))
    | hand h =>
        rcases hhand with hsame | hnone
        · exact .of_around (.hand (hsame ▸ h))
        · cases hnone.symm.trans h
  have hold : ∀ q tag, (g.core.tab q).read tag = some r' → Came env g r' :=
    fun q tag hr => .of_around (.slot hr)
  cases hm with
  | @launchIo c h₀ i cid rest n us notes r t hh hreq hctx hfree hn hnotes hkey hcid hret hask
      hcheck hone hof hroom hring hgate =>
      refine hlists (by simp [sent, stamp]) (.inl rfl) fun q tag hr => ?_
      rw [sent_tab] at hr
      rcases read_setTab_cases hr with hr | hr
      · rcases read_claim_cases hr with rfl | hr
        · exact .new (.single hh (congrArg Key.io hkey) (congrArg Key.ctx hkey) hask hcheck hone
            hof) ⟨rfl, rfl, rfl, rfl⟩
        · exact .of_around (.slot (q := .io) hr)
      · exact hold q tag hr
  | @launchSib c h₀ x cid rest n us notes r ctx hh hreq hget hfree hn hnotes hkey hcid hret
      hstall hmore hcap hof hring hgate hfresh =>
      refine hlists (by simp [sent, stamp]) (.inl rfl) fun q tag hr => ?_
      rw [sent_tab] at hr
      rcases read_setTab_cases hr with hr | hr
      · rcases read_claim_cases hr with rfl | hr
        · exact .new (.chunk hget rfl (congrArg Key.io hkey) (congrArg Key.ctx hkey) hmore hof)
            ⟨rfl, rfl, rfl, rfl⟩
        · exact .of_around (.slot (q := .io) hr)
      · exact hold q tag hr
  | @launchAdmin c h₀ cid rest n us notes r done waiter hfree hn hnotes hkey hcid hchain hfeat
      hname =>
      refine hlists (by simp [sent, stamp]) (.inl rfl) fun q tag hr => ?_
      rw [sent_tab] at hr
      rcases read_setTab_cases hr with hr | hr
      · rcases read_claim_cases hr with rfl | hr
        · exact .admin (congrArg Key.q hkey)
        · exact .of_around (.slot (q := .admin) hr)
      · exact hold q tag hr
  | @relaunch c h₀ r r₁ cid rest us hh hctx hr₁ hret hfree hring hgate =>
      subst hr₁
      refine hlists (by simp [sent, stamp]) (.inr rfl) fun q tag hr => ?_
      rw [sent_tab] at hr
      rcases read_setTab_cases hr with hr | hr
      · rcases read_claim_cases hr with rfl | hr
        · exact .kept (.hand hh) ⟨rfl, rfl, rfl, rfl⟩
        · exact .of_around (.slot hr)
      · exact hold q tag hr
  | @reapCqe c h₀ q r st res hread hh hctx hst =>
      cases h with
      | slot hr =>
          rw [stamp_tab] at hr
          rcases read_setTab_cases hr with hr | hr
          · exact .of_around (.slot (read_release_cases hr))
          · exact .of_around (.slot hr)
      | parked hr => exact .of_around (.parked (by simpa [stamp] using hr))
      | hand hr =>
          cases hr
          exact .kept (.slot hread) ⟨rfl, rfl, rfl, rfl⟩
  | @reapCancel c h₀ q r hread hh hctx hcancel =>
      cases h with
      | slot hr =>
          rw [stamp_tab] at hr
          rcases read_setTab_cases hr with hr | hr
          · exact .of_around (.slot (read_release_cases hr))
          · exact .of_around (.slot hr)
      | parked hr => exact .of_around (.parked (by simpa [stamp] using hr))
      | hand hr =>
          cases hr
          exact .kept (.slot hread) ⟨rfl, rfl, rfl, rfl⟩
  | @revise c h₀ r r₁ notes hh hkey hcmd hbuf hlen hfirst hnotes hstat =>
      cases h with
      | slot hr =>
          rw [stamp_tab] at hr
          exact .of_around (.slot hr)
      | parked hr => exact .of_around (.parked hr)
      | hand hr =>
          cases hr
          exact .kept (.hand hh) ⟨hkey, congrArg unnamed hcmd, hbuf, hlen⟩
  | @park c h₀ r d hh hret =>
      cases h with
      | slot hr => exact .of_around (.slot hr)
      | parked hr =>
          rcases List.mem_append.mp hr with hr | hr
          · exact .of_around (.parked hr)
          · rw [List.mem_singleton.mp hr]
            exact .kept (.hand hh) ⟨rfl, rfl, rfl, rfl⟩
      | hand hr => cases hr
  | @unpark c h₀ r hresume hmem hh hctx hroom =>
      cases h with
      | slot hr => exact .of_around (.slot hr)
      | parked hr => exact .of_around (.parked (List.mem_of_mem_eraseP hr))
      | hand hr =>
          cases hr
          exact .of_around (.parked hmem)
  | @fizzle c h₀ q cid rest n notes hfree hn hnotes =>
      refine hlists (by simp [stamp]) (.inl rfl) fun q' tag hr => ?_
      rw [stamp_tab] at hr
      rcases read_setTab_cases hr with hr | hr
      · exact .of_around (.slot (q := q) hr)
      · exact hold q' tag hr
  | @lose c h₀ r cid rest notes hlose hh hfree hnotes =>
      refine hlists (by simp [stamp]) (.inr rfl) fun q tag hr => ?_
      rw [stamp_tab] at hr
      rcases read_setTab_cases hr with hr | hr
      · exact .of_around (.slot (q := r.q) hr)
      · exact hold q tag hr
  | @touch c h₀ q tag us =>
      refine hlists (by simp) (.inl rfl) fun q' tag' hr => ?_
      rcases read_setTab_cases hr with hr | hr
      · rw [read_edit] at hr
        split at hr
        · obtain ⟨r, hread, rfl⟩ := Option.map_eq_some_iff.mp hr
          exact .kept (.slot (q := q) hread) ⟨rfl, rfl, rfl, rfl⟩
        · exact .of_around (.slot (q := q) hr)
      · exact hold q' tag' hr
  | @teardown c h₀ q notes hstir hlose hnotes hidle =>
      refine hlists (by simp [stamp]) (.inl rfl) fun q' tag hr => ?_
      rw [setRing_tab, stamp_tab] at hr
      rcases read_setTab_cases hr with hr | hr
      · cases hr
      · exact hold q' tag hr
  | @setup c h₀ q hstir hvac hio hidle =>
      refine hlists (by simp [stamp]) (.inl rfl) fun q' tag hr => ?_
      rw [setRing_tab, stamp_tab] at hr
      rcases read_setTab_cases hr with hr | hr
      · cases (read_fresh _ _ tag).symm.trans hr
      · exact hold q' tag hr
  | publish q hpub hhead =>
      refine hlists (by simp [stamp]) (.inl rfl) fun q' tag hr => ?_
      rw [setRing_tab, stamp_tab] at hr
      exact hold q' tag hr
  | phase hstir hp =>
      have htab : ∀ q, g'.core.tab q = g.core.tab q := by
        intro q
        cases hp <;> cases q <;> rfl
      have hlist : g'.core.retryList ⊆ g.core.retryList := by
        cases hp <;> exact fun _ => id
      have hhand : g'.hand.req = g.hand.req := by
        cases hp <;> rfl
      exact hlists hlist (.inl hhand) fun q tag hr => hold q tag (htab q ▸ hr)
  | _ =>
      refine hlists (by simp [stamp]) (by simp) fun q tag hr => ?_
      cases q <;> first | exact hold .admin tag hr | exact hold .io tag hr

/-- The command a log entry shows, with the client it is for. -/
def sqeOf : Effect → Option (Request × Option Nat)
  | .sqe _ r owner => some (r, owner)
  | _ => none

theorem sqeOf_quietFor {n : Nat} {e : Effect} (he : quietFor n e = true) : sqeOf e = none := by
  cases e <;> first | (cases he; done) | rfl

theorem sqeOf_halting {e : Effect} (he : halting e = true) : sqeOf e = none := by
  cases e <;> first | (cases he; done) | rfl

/-- The commands on a log. -/
def sqes (trace : List Effect) : List (Request × Option Nat) := trace.filterMap sqeOf

theorem sqes_append (es tr : List Effect) : sqes (es ++ tr) = sqes es ++ sqes tr :=
  List.filterMap_append

theorem sqes_mute {es tr : List Effect} (hes : ∀ e, e ∈ es → sqeOf e = none) :
    sqes (es ++ tr) = sqes tr := by
  rw [sqes_append, sqes, List.filterMap_eq_nil_iff.mpr hes, List.nil_append]

theorem mem_sqes {slot : Nat} {owner : Option Nat} {tr : List Effect}
    (h : .sqe slot r owner ∈ tr) : (r, owner) ∈ sqes tr :=
  List.mem_filterMap.mpr ⟨_, h, rfl⟩

/-- A move writes at most one command: the first of a request, or again one in hand. -/
inductive Writes (env : Env) (g g' : Cfg) : Prop
  | none (h : sqes g'.core.trace = sqes g.core.trace)
  | admin {r : Request} {owner : Option Nat} (hq : r.q = .admin)
      (h : sqes g'.core.trace = (r, owner) :: sqes g.core.trace)
  | first {r : Request} {i : Nat} (hnew : Starts env g i r) (hret : r.retries = 0)
      (h : sqes g'.core.trace = (r, some i) :: sqes g.core.trace)
  | again {r r' : Request} (hh : g.hand.req = some r) (hsame : SamePayload r r')
      (hret : r'.retries = r.retries) (hne : r.retries ≠ 0)
      (h : sqes g'.core.trace = (r', g.core.ownerOf r) :: sqes g.core.trace)

theorem sqes_sent {c : Core} {q : QueueId} {n slot : Nat} {owner : Option Nat}
    {notes : List Effect} (hnotes : ∀ e, e ∈ notes → quietFor 0 e = true) :
    sqes (sent c q t n (.sqe slot r owner :: notes)).trace = (r, owner) :: sqes c.trace := by
  have htrace : (sent c q t n (.sqe slot r owner :: notes)).trace =
      .sqe slot r owner :: (notes ++ c.trace) := by
    simp [sent, stamp]
  have hmute : sqes (notes ++ c.trace) = sqes c.trace :=
    sqes_mute fun e he => sqeOf_quietFor (hnotes e he)
  rw [htrace, ← hmute]
  rfl

theorem Move.writes (hm : Move env P g g') : Writes env g g' := by
  have hquiet : ∀ {c : Core} {n m : Nat} {es : List Effect},
      (∀ e, e ∈ es → quietFor m e = true) → sqes (stamp c n es).trace = sqes c.trace :=
    fun hes => sqes_mute fun e he => sqeOf_quietFor (hes e he)
  cases hm with
  | @launchIo c h₀ i cid rest n us notes r t hh hreq hctx hfree hn hnotes hkey hcid hret hask
      hcheck hone hof hroom hring hgate =>
      exact .first (.single hh (congrArg Key.io hkey) (congrArg Key.ctx hkey) hask hcheck hone hof)
        hret (sqes_sent (quietFor_notes hnotes 0))
  | @launchSib c h₀ x cid rest n us notes r ctx hh hreq hget hfree hn hnotes hkey hcid hret
      hstall hmore hcap hof hring hgate hfresh =>
      exact .first (.chunk hget rfl (congrArg Key.io hkey) (congrArg Key.ctx hkey) hmore hof) hret
        (sqes_sent (quietFor_notes hnotes 0))
  | @launchAdmin c h₀ cid rest n us notes r done waiter hfree hn hnotes hkey hcid hchain hfeat
      hname =>
      exact .admin (congrArg Key.q hkey) (sqes_sent (quietFor_notes hnotes 0))
  | @relaunch c h₀ r r₁ cid rest us hh hctx hr₁ hret hfree hring hgate =>
      refine .again hh ?_ ?_ hret (sqes_sent (fun e he => nomatch he))
      · rw [hr₁]
        exact ⟨rfl, rfl, rfl, rfl⟩
      · rw [hr₁]
  | note e hq =>
      refine .none (hquiet (m := 0) fun e' he' => ?_)
      rw [List.mem_singleton.mp he']
      exact quietFor_of_quiet hq
  | revise hh hkey hcmd hbuf hlen hfirst hnotes hstat => exact .none (hquiet hnotes)
  | @lose c h₀ r cid rest notes hlose hh hfree hnotes =>
      refine .none (Eq.trans (sqes_mute fun e he => ?_) (by simp))
      rcases List.mem_cons.mp he with rfl | he
      · rfl
      · exact sqeOf_quietFor (hnotes e he)
  | @fizzle c h₀ q cid rest n notes hfree hn hnotes =>
      refine .none (Eq.trans (sqes_mute fun e he => ?_) (by simp))
      rcases List.mem_cons.mp he with rfl | he
      · rfl
      · exact sqeOf_quietFor (hnotes e he)
  | @finish c h₀ x ctx notes sibs hh hget hidle hstall hdone hsibs hnotes =>
      refine .none (sqes_mute fun e he => ?_)
      rcases List.mem_cons.mp he with rfl | he
      · rfl
      rcases List.mem_cons.mp he with rfl | he
      · rfl
      rcases List.mem_append.mp he with he | he
      · exact sqeOf_quietFor (quietFor_notes hnotes 0 e he)
      · rw [List.mem_singleton.mp he]
        rfl
  | @teardown c h₀ q notes hstir hlose hnotes hidle =>
      refine .none (Eq.trans (b := sqes (stamp (c.setTab q SlotTable.gone) c.allocs
        (.teardown (c.tab q).occupants :: notes)).trace) (by simp) (Eq.trans
          (sqes_mute fun e he => ?_) (by simp)))
      rcases List.mem_cons.mp he with rfl | he
      · rfl
      · exact sqeOf_halting (hnotes e he).2
  | phase hstir hp => cases hp <;> exact .none rfl
  | _ => exact .none (by simp [stamp, sqes, sqeOf, List.filterMap_cons])

end Moves

/-! ### Commands are pieces of transfers -/

section Pieces

variable {env : Env} {P : Policy} {g g' : Cfg} {i x : Nat} {r r' : Request} {ctx : IoContext}

/-- The context is for a transfer of its client that takes several commands, and it is at a
cut of it. -/
def Founded (env : Env) (ctx : IoContext) : Prop :=
  ∃ t, Asked env ctx.io t ∧ Checked env t ∧ ¬Single env t ∧ ContextOf env ctx t ∧
    CutAt env ctx.unit ctx.startLba ctx.totalBytes ctx.opcode ctx.dispatched

/-- A command as it is first submitted: the only one of a transfer the client asks for, or
its next chunk. -/
inductive Piece (env : Env) (i : Nat) (r : Request) : Prop
  | single {t : Transfer} (hask : Asked env i t) (hcheck : Checked env t) (hone : Single env t)
      (hof : SingleOf env r t)
  | chunk {ctx : IoContext} (hctx : Founded env ctx) (hi : ctx.io = i)
      (hmore : ctx.dispatched < ctx.totalBytes) (hof : ChunkOf env ctx r)

/-- A command that was first submitted as such a piece. -/
def PieceOf (env : Env) (i : Nat) (r : Request) : Prop :=
  ∃ r₀, SamePayload r₀ r ∧ Piece env i r₀

/-- The request works for the client, by itself or through its context. -/
def WorksIn (g : Cfg) (i : Nat) (r : Request) : Prop :=
  r.ctx = none ∧ r.io = some i ∨
    ∃ x, r.ctx = some x ∧ ∀ ctx, g.core.ctxs.get x = some ctx → ctx.io = i

/-- Contexts are for transfers, and I/O requests and I/O commands are pieces of them. -/
structure InPieces (env : Env) (g : Cfg) : Prop where
  ctxs : ∀ x ctx, g.core.ctxs.get x = some ctx → Founded env ctx
  around : ∀ r, Around g r → r.q = .io → ∃ i, WorksIn g i r ∧ PieceOf env i r
  log : ∀ r owner, (r, owner) ∈ sqes g.core.trace → r.q = .io →
    ∃ i, owner = some i ∧ PieceOf env i r

theorem PieceOf.same (h : PieceOf env i r) (hsame : SamePayload r r') : PieceOf env i r' := by
  obtain ⟨r₀, hsame₀, hpiece⟩ := h
  exact ⟨r₀, hsame₀.trans hsame, hpiece⟩

theorem Founded.next {ctx' : IoContext} (hf : Founded env ctx) (hsame : SameRequest ctx ctx')
    (hoff : ctx'.dispatched = ctx.dispatched ∨ ctx.dispatched < ctx.totalBytes ∧
      ctx'.dispatched = ctx.dispatched + nextBytes env ctx) : Founded env ctx' := by
  obtain ⟨t, hask, hcheck, hmany, hof, hcut⟩ := hf
  refine ⟨t, hsame.io ▸ hask, hcheck, hmany, hsame.contextOf hof, ?_⟩
  rw [hsame.unit, hsame.startLba, hsame.totalBytes, hsame.opcode]
  rcases hoff with h | ⟨hmore, h⟩
  · rw [h]
    exact hcut
  · rw [h]
    exact .next rfl rfl rfl rfl hcut hmore

/-- A sibling that is around counts. -/
theorem sibCount_pos (h : Around g r) (hctx : r.ctx = some x) : 0 < sibCount x g := by
  have hkey : ((fun k : Key => k.ctx == some x) ∘ keyOf) r = true := by
    simp [keyOf, hctx]
  unfold sibCount reqCount coreReqs
  cases h with
  | @slot q tag hread =>
      have hpos := Slots.held_pos_of_read hread hkey
      cases q with
      | admin =>
          change 0 < Slots.held _ g.core.adminTab.inflight at hpos
          omega
      | io =>
          change 0 < Slots.held _ g.core.ioTab.inflight at hpos
          omega
  | parked hmem =>
      have hpos : 0 < g.core.retryList.countP ((fun k : Key => k.ctx == some x) ∘ keyOf) :=
        List.countP_pos_iff.mpr ⟨r, hmem, hkey⟩
      omega
  | hand hreq =>
      rw [hreq, hit_some, if_pos hkey]
      omega

/-- The context of a sibling is there. -/
theorem Safe.around_alive (hs : Safe g) (h : Around g r) (hctx : r.ctx = some x) :
    ∃ ctx, g.core.ctxs.get x = some ctx := by
  rw [← Option.ne_none_iff_exists']
  intro hnone
  have hzero := ((hs.ctxs x).dead hnone).1
  have hpos := sibCount_pos h hctx
  omega

/-- A context that is there has a number. -/
theorem Safe.ctx_lt (hs : Safe g) (hget : g.core.ctxs.get x = some ctx) : x < g.core.allocs := by
  by_contra hle
  have honce := (hs.ctxs x).once
  rw [hget, hit_some, if_pos rfl, if_neg hle] at honce
  omega

/-- The context of a sibling stays with its client. -/
theorem Safe.ctx_stays {ctx' : IoContext} (hs : Safe g) (hm : Move env P g g')
    (hget : g.core.ctxs.get x = some ctx) (hget' : g'.core.ctxs.get x = some ctx') :
    ctx'.io = ctx.io := by
  rcases Move.context_origin hm hget' with ⟨hx, -⟩ | ⟨ctx₀, hget₀, hsame, -⟩
  · exact absurd hx (Nat.ne_of_lt (Safe.ctx_lt hs hget))
  · cases Option.some.inj (hget₀.symm.trans hget)
    exact hsame.io

theorem InPieces.starts (hp : InPieces env g) (hs : Safe g) (hm : Move env P g g')
    (hnew : Starts env g i r) : WorksIn g' i r ∧ PieceOf env i r := by
  cases hnew with
  | single hh hio hctx hask hcheck hone hof =>
      exact ⟨.inl ⟨hctx, hio⟩, r, .refl r, .single hask hcheck hone hof⟩
  | @chunk x ctx hget hi hio hctx hmore hof =>
      refine ⟨.inr ⟨x, hctx, fun ctx' hget' => ?_⟩, r, .refl r,
        .chunk (hp.ctxs x ctx hget) hi hmore hof⟩
      exact (Safe.ctx_stays hs hm hget hget').trans hi

theorem Move.keeps_inPieces (hs : Safe g) (hm : Move env P g g') (hp : InPieces env g) :
    InPieces env g' := by
  constructor
  case ctxs =>
    intro x ctx' hget'
    rcases Move.context_origin hm hget' with ⟨-, hzero, t, hask, hcheck, hmany, hof⟩ |
      ⟨ctx, hget, hsame, hoff⟩
    · exact ⟨t, hask, hcheck, hmany, hof, hzero ▸ .start⟩
    · exact (hp.ctxs x ctx hget).next hsame hoff
  case around =>
    intro r' hr' hq
    cases Move.came hm hr' with
    | @kept r hr hsame =>
        obtain ⟨i, hworks, hpiece⟩ := hp.around r hr (hsame.q.symm.trans hq)
        refine ⟨i, ?_, hpiece.same hsame⟩
        rcases hworks with ⟨hctx, hio⟩ | ⟨x, hctx, hio⟩
        · exact .inl ⟨hsame.ctx.trans hctx, hsame.io.trans hio⟩
        · obtain ⟨ctx, hget⟩ := Safe.around_alive hs hr hctx
          refine .inr ⟨x, hsame.ctx.trans hctx, fun ctx' hget' => ?_⟩
          exact (Safe.ctx_stays hs hm hget hget').trans (hio ctx hget)
    | @new i r hnew hsame =>
        obtain ⟨hworks, hpiece⟩ := hp.starts hs hm hnew
        refine ⟨i, ?_, hpiece.same hsame⟩
        rcases hworks with ⟨hctx, hio⟩ | ⟨x, hctx, hio⟩
        · exact .inl ⟨hsame.ctx.trans hctx, hsame.io.trans hio⟩
        · exact .inr ⟨x, hsame.ctx.trans hctx, hio⟩
    | admin h => cases hq.symm.trans h
  case log =>
    intro r' owner hmem hq
    cases Move.writes hm with
    | none h => exact hp.log r' owner (h ▸ hmem) hq
    | @admin r _ hadmin h =>
        rw [h] at hmem
        rcases List.mem_cons.mp hmem with heq | hmem
        · cases heq
          cases hq.symm.trans hadmin
        · exact hp.log r' owner hmem hq
    | @first r i hnew hret h =>
        rw [h] at hmem
        rcases List.mem_cons.mp hmem with heq | hmem
        · cases heq
          exact ⟨i, rfl, (hp.starts hs hm hnew).2⟩
        · exact hp.log r' owner hmem hq
    | @again r r₁ hh hsame hret hne h =>
        rw [h] at hmem
        rcases List.mem_cons.mp hmem with heq | hmem
        · cases heq
          obtain ⟨i, hworks, hpiece⟩ := hp.around r (.hand hh) (hsame.q.symm.trans hq)
          refine ⟨i, ?_, hpiece.same hsame⟩
          unfold Core.ownerOf
          rcases hworks with ⟨hctx, hio⟩ | ⟨x, hctx, hio⟩
          · rw [hctx]
            exact hio
          · obtain ⟨ctx, hget⟩ := Safe.around_alive hs (.hand hh) hctx
            rw [hctx]
            dsimp only
            rw [hget, Option.map_some, hio ctx hget]
        · exact hp.log r' owner hmem hq

/-- In every run, every I/O command is a piece of a transfer its client asks for. -/
theorem run_inPieces (env : Env) (maxZeroes : Nat) (events : List Event) :
    InPieces env ⟨(run env events (bootState env maxZeroes)).core,
      ⟨none, none, none, 0, false, false⟩⟩ := by
  have hkeep : Keeps (Move env Refine.Policy.all) (fun g => Safe g ∧ InPieces env g) :=
    fun g g' hold hm =>
      ⟨keeps_safe env _ g g' hold.1 hm, Move.keeps_inPieces hold.1 hm hold.2⟩
  refine (hkeep.path (run_path (meetsAll_all env events _)) ⟨up_safe env maxZeroes, ?_⟩).2
  constructor
  case ctxs =>
    intro x ctx hget
    cases hget
  case around =>
    intro r hr
    cases hr with
    | @slot q tag hr =>
        have hmem : some r ∈ List.replicate (queueSize q) none := by
          cases q <;> exact Slots.mem_iff_read.mpr ⟨tag, hr⟩
        cases List.eq_of_mem_replicate hmem
    | parked hr => cases hr
    | hand hr => cases hr
  case log =>
    intro r owner hmem
    cases hmem

end Pieces

end Runs
end NvmeDriver
