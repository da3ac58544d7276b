import NvmeDriver.Ownership.Story
import NvmeDriver.Runs.Clients

/-!
# What the client of a chunked transfer is told

A transfer that needs several commands succeeds if and only if all its chunks were issued
and came to a good end.  Otherwise its client is told the first error: the status of the
first sibling to fail, the error of a chunk that could not be set up, or, when the unit
task exits, that the transfer was aborted.
-/

namespace NvmeDriver
namespace Runs

open Engine
open Lib
open Ownership
open Refine
open Namespace (lbaOutOfRange)

/-! ### Stories -/

section Stories

/-- The requests of the chunks issued so far. -/
def issuedOf (story : List ChunkEvent) : List Request :=
  story.filterMap (fun ev => match ev with
    | .issued r => some r
    | _ => none)

/-- The siblings that have got their final status so far. -/
def endedOf (story : List ChunkEvent) : List Request :=
  story.filterMap (fun ev => match ev with
    | .ended r => some r
    | _ => none)

/-- The error an event brings. -/
def failureOf : ChunkEvent → Option Int
  | .ended r => if statusSctSc r.status = 0 then none else some (nvmeErrorStatus r.status)
  | .latched e => some e
  | _ => none

/-- The error of the first failure. -/
def firstFailure (story : List ChunkEvent) : Option Int := (story.filterMap failureOf).head?

/-- A context at an offset. -/
def chunkAt (ctx : IoContext) (offset : Nat) : IoContext :=
  { io := ctx.io, unit := ctx.unit, startLba := ctx.startLba, totalBytes := ctx.totalBytes
    dispatched := offset, opcode := ctx.opcode, userData := ctx.userData }

/-- The requests carry the chunks of a transfer up to an offset, in order. -/
inductive Chunks (env : Env) (ctx : IoContext) : List Request → Nat → Prop
  | none : Chunks env ctx [] 0
  | next {rs : List Request} {r : Request} {offset : Nat} (hrs : Chunks env ctx rs offset)
      (hmore : offset < ctx.totalBytes) (hof : ChunkOf env (chunkAt ctx offset) r) :
      Chunks env ctx (rs ++ [r]) (offset + nextBytes env (chunkAt ctx offset))

/-- What the client of a transfer is told, given what has happened to it. -/
structure Answered (env : Env) (story : List ChunkEvent) (ctx : IoContext) (io : Nat)
    (error : Int) (actual : Nat) : Prop where
  client : ctx.io = io
  transfer : ∃ t, Asked env io t ∧ Checked env t ∧ ContextOf env ctx t
  success : error = 0 ∧ actual = ctx.totalBytes ↔
    Chunks env ctx (issuedOf story) ctx.totalBytes ∧
      ∀ r, r ∈ issuedOf story →
        ∃ r', r' ∈ endedOf story ∧ r'.id = r.id ∧ statusSctSc r'.status = 0
  failure : ¬(error = 0 ∧ actual = ctx.totalBytes) →
    firstFailure story = some error ∧ actual = 0
  settled : ∀ r, r ∈ issuedOf story → ∃ r', r' ∈ endedOf story ∧ r'.id = r.id

/-- The story of a context, as far as the log goes, is one of a transfer whose errors are
reported: it tells what the log shows, the answer is right and comes last, and nothing is
issued after a failure.  A context that is dropped has issued nothing. -/
structure Faithful (env : Env) (P : Policy) (x : Nat) (g : Cfg) (story : List ChunkEvent) :
    Prop where
  logged : ∀ r, .issued r ∈ story ↔
    r.ctx = some x ∧ r.retries = 0 ∧ ∃ slot owner, .sqe slot r owner ∈ g.core.trace
  told : ∀ io e a, .replied io e a ∈ story → .reply io e a ∈ g.core.trace
  freed : .ctxFree x ∈ g.core.trace → .dropped ∈ story ∨ ∃ io e a, .replied io e a ∈ story
  answers : ∀ before io error actual after,
    story = before ++ .replied io error actual :: after →
      after = [] ∧ sibCount x g = 0 ∧
        ∃ ctx rest, before = .opened ctx :: rest ∧ Answered env before ctx io error actual
  drops : ∀ before after, story = before ++ .dropped :: after →
    after = [] ∧ issuedOf before = [] ∧ firstFailure before ≠ none
  orderly : ∀ before r after, story = before ++ .issued r :: after →
    firstFailure before = none
  latches : ∀ e, .latched e ∈ story →
    e = ioerrSelfTest ∧ (∃ ctx, ChunkFails env ctx) ∨ e = ioerrAborted ∧ P.abort
  finals : ∀ r, r ∈ endedOf story → nvmeDecideDisposition r = .complete

variable {env : Env} {ctx ctx' : IoContext} {rs : List Request} {offset : Nat}
  {s t : List ChunkEvent}

theorem issuedOf_append (s t : List ChunkEvent) :
    issuedOf (s ++ t) = issuedOf s ++ issuedOf t := List.filterMap_append

theorem endedOf_append (s t : List ChunkEvent) :
    endedOf (s ++ t) = endedOf s ++ endedOf t := List.filterMap_append

theorem firstFailure_append (s t : List ChunkEvent) :
    firstFailure (s ++ t) = (firstFailure s).or (firstFailure t) := by
  unfold firstFailure
  rw [List.filterMap_append, List.head?_append]

theorem firstFailure_eq_none : firstFailure s = none ↔ ∀ ev, ev ∈ s → failureOf ev = none := by
  unfold firstFailure
  rw [List.head?_eq_none_iff, List.filterMap_eq_nil_iff]

theorem mem_endedOf {r : Request} : r ∈ endedOf s ↔ .ended r ∈ s := by
  unfold endedOf
  rw [List.mem_filterMap]
  constructor
  · rintro ⟨ev, hev, heq⟩
    cases ev <;> simp_all
  · exact fun h => ⟨_, h, rfl⟩

theorem nvmeErrorStatus_eq_zero (status : Nat) :
    nvmeErrorStatus status = 0 ↔ statusSctSc status = 0 := by
  unfold nvmeErrorStatus
  dsimp only
  constructor
  · intro h
    by_contra hne
    rw [if_neg hne] at h
    split at h
    · exact absurd h (by decide)
    · split at h
      · exact absurd h (by decide)
      · exact absurd h (by decide)
  · exact fun h => if_pos h

/-- The error of a failure is never zero. -/
theorem failureOf_ne_zero {ev : ChunkEvent} (hlatch : ∀ e, ev = .latched e → e ≠ 0) :
    failureOf ev ≠ some 0 := by
  cases ev with
  | ended r =>
      unfold failureOf
      dsimp only
      split
      · exact fun h => nomatch h
      · rename_i hne
        exact fun h => hne ((nvmeErrorStatus_eq_zero r.status).mp (Option.some.inj h))
  | latched e => exact fun h => hlatch e rfl (Option.some.inj h)
  | _ => exact fun h => nomatch h

/-! ### Chunks -/

theorem chunkAt_congr (h : SameRequest ctx ctx') (offset : Nat) :
    chunkAt ctx' offset = chunkAt ctx offset := by
  unfold chunkAt
  rw [h.io, h.unit, h.startLba, h.totalBytes, h.opcode, h.userData]

theorem Chunks.congr (h : SameRequest ctx ctx') (hrs : Chunks env ctx rs offset) :
    Chunks env ctx' rs offset := by
  induction hrs with
  | none => exact .none
  | next hrs hmore hof ih =>
      rw [← chunkAt_congr h]
      exact .next ih (h.totalBytes ▸ hmore) (chunkAt_congr h _ ▸ hof)

/-- As long as nothing is dispatched, nothing is issued. -/
theorem Chunks.eq_nil (hrs : Chunks env ctx rs 0) : rs = [] := by
  generalize hzero : 0 = offset at hrs
  cases hrs with
  | none => rfl
  | @next rs r offset hrs hmore hof =>
      have hpos : 0 < nextBytes env (chunkAt ctx offset) := nextBytes_pos env hmore
      omega

theorem Chunks.le (hrs : Chunks env ctx rs offset) : offset ≤ ctx.totalBytes := by
  cases hrs with
  | none => exact Nat.zero_le _
  | @next rs r offset hrs hmore hof =>
      have hle : nextBytes env (chunkAt ctx offset) ≤ ctx.totalBytes - offset :=
        nextBytes_le_rest env (chunkAt ctx offset)
      omega

/-- The requests determine the offset. -/
theorem Chunks.unique {offset' : Nat} (hrs : Chunks env ctx rs offset)
    (hrs' : Chunks env ctx rs offset') : offset' = offset := by
  induction hrs generalizing offset' with
  | none =>
      generalize hnil : ([] : List Request) = l at hrs'
      cases hrs' with
      | none => rfl
      | next hrs hmore hof =>
          exact absurd hnil (List.append_ne_nil_of_right_ne_nil _ (by simp)).symm
  | @next rs r offset hrs hmore hof ih =>
      generalize hl : rs ++ [r] = l at hrs'
      cases hrs' with
      | none => exact absurd hl (List.append_ne_nil_of_right_ne_nil _ (by simp))
      | @next rs' r' offset' hrs' hmore' hof' =>
          obtain ⟨rfl, -⟩ := List.append_inj' hl rfl
          rw [ih hrs']

end Stories

/-! ### The story so far -/

section Following

variable {env : Env} {P : Policy} {g g' : Cfg} {x : Nat} {story evs : List ChunkEvent}

/-- The requests of a context, told apart by their numbers. -/
def sibWith (x n : Nat) (k : Key) : Bool := k.ctx == some x && k.id == n

/-- Requests of a context were issued, and those that have ended were freed. -/
structure Registered (x : Nat) (g : Cfg) (story : List ChunkEvent) : Prop where
  born : ∀ n, reqCount (sibWith x n) g ≠ 0 → n ∈ (issuedOf story).map Request.id
  old : ∀ n, n ∈ (issuedOf story).map Request.id → n < g.core.allocs
  freed : ∀ r, r ∈ endedOf story → g.core.trace.countP (isReqFree r.id) ≠ 0
  issuedOnce : ((issuedOf story).map Request.id).Nodup
  endedOnce : ((endedOf story).map Request.id).Nodup
  endedIssued : ∀ r, r ∈ endedOf story → r.id ∈ (issuedOf story).map Request.id

/-- The transfer of a live context. -/
structure Live (env : Env) (ctx : IoContext) (story : List ChunkEvent) : Prop where
  opening : ∃ ctx₀ rest, story = .opened ctx₀ :: rest ∧ SameRequest ctx₀ ctx
  transfer : ∃ t, Asked env ctx.io t ∧ Checked env t ∧ ContextOf env ctx t
  chunks : Chunks env ctx (issuedOf story) ctx.dispatched
  error : ctx.firstError = (firstFailure story).getD 0
  real : firstFailure story ≠ some 0
  count : ctx.inflight + (endedOf story).length = (issuedOf story).length
  short : ∀ e, .latched e ∈ story → ctx.dispatched < ctx.totalBytes
  unanswered : ∀ io e a, .replied io e a ∉ story
  kept : .dropped ∉ story

/-- The transfer of a context that is gone. -/
inductive Closed (env : Env) : List ChunkEvent → Prop
  | unborn : Closed env []
  | answered {before : List ChunkEvent} {ctx₀ : IoContext} {rest : List ChunkEvent}
      {io actual : Nat} {error : Int} (hopen : before = .opened ctx₀ :: rest)
      (hquiet : ∀ io e a, .replied io e a ∉ before) (hkept : .dropped ∉ before)
      (hanswer : Answered env before ctx₀ io error actual) :
      Closed env (before ++ [.replied io error actual])
  | dropped {before : List ChunkEvent} (hquiet : ∀ io e a, .replied io e a ∉ before)
      (hkept : .dropped ∉ before) (hnone : issuedOf before = [])
      (hfail : firstFailure before ≠ none) : Closed env (before ++ [.dropped])

/-- What the story of a context says of it. -/
structure Follows (env : Env) (P : Policy) (x : Nat) (g : Cfg) (story : List ChunkEvent) :
    Prop where
  registered : Registered x g story
  live : ∀ ctx, g.core.ctxs.get x = some ctx → Live env ctx story
  closed : g.core.ctxs.get x = none → Closed env story
  young : story ≠ [] → x < g.core.allocs
  orderly : ∀ before r after, story = before ++ .issued r :: after →
    firstFailure before = none
  latches : ∀ e, .latched e ∈ story →
    e = ioerrSelfTest ∧ (∃ ctx, ChunkFails env ctx) ∨ e = ioerrAborted ∧ P.abort
  finals : ∀ r, r ∈ endedOf story → nvmeDecideDisposition r = .complete

/-- A launch for a context shows in its story. -/
theorem Tells.enlarged (ht : Tells env P x g g' evs) (hs : Safe g) (hx : Enlarged x g g') :
    ∃ r, evs = [.issued r] ∧ r.id = g.core.allocs := by
  obtain ⟨-, ⟨ctx, ctx', hget, hget', hinf, -, -⟩, -, -, -⟩ := hx
  cases ht with
  | nothing hkept hnone =>
      obtain ⟨ctx₁, hget₁, hsame⟩ := hkept ctx hget
      cases Option.some.inj (hget₁.symm.trans hget')
      have := hsame.inflight
      omega
  | opened hnew =>
      rw [hnew, hs.get_allocs] at hget
      cases hget
  | issued hget₁ hget₁' hkey => exact ⟨_, rfl, congrArg Key.id hkey⟩
  | ended hreq hctx hdec hget₁ hget₁' =>
      cases Option.some.inj (hget₁.symm.trans hget)
      cases Option.some.inj (hget₁'.symm.trans hget')
      dsimp only [IoContext.siblingDone] at hinf
      omega
  | latched hget₁ hget₁' =>
      cases Option.some.inj (hget₁.symm.trans hget)
      cases Option.some.inj (hget₁'.symm.trans hget')
      dsimp only at hinf
      omega
  | replied hget₁ hget₁' => cases hget₁'.symm.trans hget'
  | dropped hget₁ hget₁' => cases hget₁'.symm.trans hget'

/-- Requests of a context appear only by being issued. -/
theorem Registered.born_step (hr : Registered x g story) (hs : Safe g) (hm : Move env P g g')
    (ht : Tells env P x g g' evs) (n : Nat) (hn : reqCount (sibWith x n) g' ≠ 0) :
    n ∈ (issuedOf (story ++ evs)).map Request.id := by
  have hold : reqCount (sibWith x n) g ≠ 0 →
      n ∈ (issuedOf (story ++ evs)).map Request.id := by
    intro h
    rw [issuedOf_append, List.map_append]
    exact List.mem_append_left _ (hr.born n h)
  cases hm.traffic hs.tabs hs.idCount_le with
  | carry hreq hid halloc => exact hold (hreq _ ▸ hn)
  | finish hends hreq hid halloc =>
      refine hold ?_
      have := hreq (sibWith x n)
      omega
  | fizzle heq hid halloc => exact hold (heq _ ▸ hn)
  | @launch k hborn heq hid halloc =>
      by_cases hk : sibWith x n k = true
      · have hctx : k.ctx = some x := by
          simp only [sibWith, Bool.and_eq_true, beq_iff_eq] at hk
          exact hk.1
        have hkid : k.id = n := by
          simp only [sibWith, Bool.and_eq_true, beq_iff_eq] at hk
          exact hk.2
        cases hborn with
        | io hh => cases hctx
        | admin hchain hfeat => cases hctx
        | @sibling y hx =>
            cases hctx
            obtain ⟨r, rfl, hrid⟩ := Tells.enlarged ht hs hx
            rw [issuedOf_append, List.map_append]
            refine List.mem_append_right _ ?_
            have hidn : r.id = n := hrid.trans hkid
            simp [issuedOf, hidn]
      · rw [heq, if_neg hk] at hn
        exact hold hn

theorem ids_append (l : List Request) (r : Request) :
    (l ++ [r]).map Request.id = l.map Request.id ++ [r.id] := by
  rw [List.map_append]
  rfl

theorem nodup_append_one {l : List Nat} {n : Nat} (hl : l.Nodup) (hn : n ∉ l) :
    (l ++ [n]).Nodup := by
  rw [List.nodup_append]
  refine ⟨hl, List.nodup_singleton n, ?_⟩
  rintro a ha b hb rfl
  rw [List.mem_singleton.mp hb] at ha
  exact hn ha

/-- An event that neither issues nor ends a sibling. -/
theorem Registered.idle (hr : Registered x g story) (hs : Safe g) (hm : Move env P g g')
    (ht : Tells env P x g g' evs) (hissued : issuedOf evs = []) (hended : endedOf evs = []) :
    Registered x g' (story ++ evs) := by
  have hi : issuedOf (story ++ evs) = issuedOf story := by
    rw [issuedOf_append, hissued, List.append_nil]
  have he : endedOf (story ++ evs) = endedOf story := by
    rw [endedOf_append, hended, List.append_nil]
  have hborn := hr.born_step hs hm ht
  constructor
  case born => exact hborn
  case old =>
    intro n hn
    rw [hi] at hn
    exact (hr.old n hn).trans_le (hm.traffic hs.tabs hs.idCount_le).allocs_le
  case freed =>
    intro r hmem
    rw [he] at hmem
    have hle := hm.trace_suffix.sublist.countP_le (p := isReqFree r.id)
    have := hr.freed r hmem
    omega
  case issuedOnce =>
    rw [hi]
    exact hr.issuedOnce
  case endedOnce =>
    rw [he]
    exact hr.endedOnce
  case endedIssued =>
    intro r hmem
    rw [he] at hmem
    rw [hi]
    exact hr.endedIssued r hmem

theorem Registered.step (hr : Registered x g story) (hs : Safe g) (hm : Move env P g g')
    (ht : Tells env P x g g' evs) : Registered x g' (story ++ evs) := by
  have hborn := hr.born_step hs hm ht
  have halloc := (hm.traffic hs.tabs hs.idCount_le).allocs_le
  have hfreed : ∀ r, r ∈ endedOf story → g'.core.trace.countP (isReqFree r.id) ≠ 0 := by
    intro r hmem
    have hle := hm.trace_suffix.sublist.countP_le (p := isReqFree r.id)
    have := hr.freed r hmem
    omega
  cases ht with
  | nothing hkept hnone => exact hr.idle hs hm (.nothing hkept hnone) rfl rfl
  | opened hnew hget' hinf hdis herr hask hcheck hof =>
      exact hr.idle hs hm (.opened hnew hget' hinf hdis herr hask hcheck hof) rfl rfl
  | latched hget hget' he hlatch => exact hr.idle hs hm (.latched hget hget' he hlatch) rfl rfl
  | replied hget hget' hidle hdone => exact hr.idle hs hm (.replied hget hget' hidle hdone) rfl rfl
  | dropped hget hget' hidle herr hnew =>
      exact hr.idle hs hm (.dropped hget hget' hidle herr hnew) rfl rfl
  | @issued ctx r hget hget' hkey hmore hfresh hof hlt =>
      have hid : r.id = g.core.allocs := congrArg Key.id hkey
      have hi : issuedOf (story ++ [.issued r]) = issuedOf story ++ [r] := issuedOf_append _ _
      have he : endedOf (story ++ [.issued r]) = endedOf story := by
        rw [endedOf_append]
        exact List.append_nil _
      have hnew : r.id ∉ (issuedOf story).map Request.id := by
        intro hmem
        have := hr.old r.id hmem
        omega
      constructor
      case born => exact hborn
      case old =>
        intro n hn
        rw [hi, ids_append] at hn
        rcases List.mem_append.mp hn with hn | hn
        · exact (hr.old n hn).trans_le halloc
        · rw [List.mem_singleton.mp hn, hid]
          exact hlt
      case freed =>
        rw [he]
        exact hfreed
      case issuedOnce =>
        rw [hi, ids_append]
        exact nodup_append_one hr.issuedOnce hnew
      case endedOnce =>
        rw [he]
        exact hr.endedOnce
      case endedIssued =>
        rw [he, hi, ids_append]
        exact fun r' hmem => List.mem_append_left _ (hr.endedIssued r' hmem)
  | @ended ctx r hreq hctx hdec hget hget' hfree =>
      have hi : issuedOf (story ++ [.ended r]) = issuedOf story := by
        rw [issuedOf_append]
        exact List.append_nil _
      have he : endedOf (story ++ [.ended r]) = endedOf story ++ [r] := endedOf_append _ _
      have hheld : reqCount (sibWith x r.id) g ≠ 0 := by
        unfold reqCount
        rw [hreq]
        simp [sibWith, keyOf, hctx]
      have hone : reqCount (fun k => k.id == r.id) g ≠ 0 := by
        unfold reqCount
        rw [hreq]
        simp [keyOf]
      constructor
      case born => exact hborn
      case old =>
        rw [hi]
        exact fun n hn => (hr.old n hn).trans_le halloc
      case freed =>
        intro r' hmem
        rw [he] at hmem
        rcases List.mem_append.mp hmem with hmem | hmem
        · exact hfreed r' hmem
        · rw [List.mem_singleton.mp hmem, hfree]
          simp [isReqFree]
      case issuedOnce =>
        rw [hi]
        exact hr.issuedOnce
      case endedOnce =>
        rw [he, ids_append]
        refine nodup_append_one hr.endedOnce fun hmem => ?_
        obtain ⟨r', hr', hid⟩ := List.mem_map.mp hmem
        have hzero := hr.freed r' hr'
        have hle := hs.idCount_le r.id
        unfold idCount at hle
        rw [hid] at hzero
        omega
      case endedIssued =>
        intro r' hmem
        rw [he] at hmem
        rw [hi]
        rcases List.mem_append.mp hmem with hmem | hmem
        · exact hr.endedIssued r' hmem
        · rw [List.mem_singleton.mp hmem]
          exact hr.born r.id hheld

theorem split_snoc {before after : List ChunkEvent} {ev ev' : ChunkEvent}
    (h : story ++ [ev] = before ++ ev' :: after) :
    (after = [] ∧ before = story ∧ ev' = ev) ∨
      ∃ after', after = after' ++ [ev] ∧ story = before ++ ev' :: after' := by
  rcases List.eq_nil_or_concat after with rfl | ⟨after', z, rfl⟩
  · obtain ⟨hb, he⟩ := List.append_inj' h rfl
    exact .inl ⟨rfl, hb.symm, (List.cons.inj he).1.symm⟩
  · rw [List.concat_eq_append, ← List.cons_append, ← List.append_assoc] at h
    obtain ⟨hb, he⟩ := List.append_inj' h rfl
    rw [(List.cons.inj he).1]
    exact .inr ⟨after', List.concat_eq_append, hb⟩

theorem Live.same {ctx ctx' : IoContext} (hl : Live env ctx story) (h : SameAccounts ctx ctx') :
    Live env ctx' story where
  opening := by
    obtain ⟨ctx₀, rest, hstory, hsame⟩ := hl.opening
    exact ⟨ctx₀, rest, hstory, hsame.trans h.toSameRequest⟩
  transfer := by
    obtain ⟨t, hask, hcheck, hof⟩ := hl.transfer
    exact ⟨t, h.io ▸ hask, hcheck, h.toSameRequest.contextOf hof⟩
  chunks := h.dispatched ▸ hl.chunks.congr h.toSameRequest
  error := h.firstError.trans hl.error
  real := hl.real
  count := h.inflight ▸ hl.count
  short := fun e he => h.dispatched ▸ h.totalBytes ▸ hl.short e he
  unanswered := hl.unanswered
  kept := hl.kept

/-- The error of a live context is zero as long as nothing has failed. -/
theorem Live.error_eq_zero {ctx : IoContext} (hl : Live env ctx story) :
    ctx.firstError = 0 ↔ firstFailure story = none := by
  rw [hl.error]
  have hreal := hl.real
  cases hfail : firstFailure story with
  | none => exact ⟨fun _ => rfl, fun _ => rfl⟩
  | some e =>
      constructor
      · intro hzero
        rw [hfail] at hreal
        exact absurd (congrArg some hzero) hreal
      · exact fun h => nomatch h

/-- Every chunk that was issued has ended once nothing is in flight. -/
theorem settled_of_idle (hr : Registered x g story)
    (hlen : (endedOf story).length = (issuedOf story).length) :
    ∀ r, r ∈ issuedOf story → ∃ r', r' ∈ endedOf story ∧ r'.id = r.id := by
  have hsub : (endedOf story).map Request.id ⊆ (issuedOf story).map Request.id := by
    intro n hn
    obtain ⟨r, hr', rfl⟩ := List.mem_map.mp hn
    exact hr.endedIssued r hr'
  have hperm := (List.subperm_of_subset hr.endedOnce hsub).perm_of_length_le
    (by rw [List.length_map, List.length_map, hlen])
  intro r hmem
  have hid := hperm.symm.subset (List.mem_map_of_mem (f := Request.id) hmem)
  obtain ⟨r', hr', heq⟩ := List.mem_map.mp hid
  exact ⟨r', hr', heq⟩

/-- Siblings that have ended are told apart by their numbers. -/
theorem ended_inj (hr : Registered x g story) {r r' : Request} (hmem : r ∈ endedOf story)
    (hmem' : r' ∈ endedOf story) (hid : r.id = r'.id) : r = r' :=
  List.inj_on_of_nodup_map hr.endedOnce hmem hmem' hid

/-- An idle context that is done answers its client as its story says. -/
theorem Live.answered {ctx : IoContext} (hl : Live env ctx story) (hr : Registered x g story)
    (hidle : ctx.inflight = 0)
    (hdone : ctx.firstError ≠ 0 ∨ ctx.totalBytes ≤ ctx.dispatched) :
    Closed env (story ++ [.replied ctx.io ctx.firstError
      (if ctx.firstError ≠ 0 then 0 else ctx.totalBytes)]) := by
  obtain ⟨ctx₀, rest, hstory, hsame⟩ := hl.opening
  have hsettled := settled_of_idle hr (by have := hl.count; omega)
  refine .answered hstory hl.unanswered hl.kept ?_
  obtain ⟨t, hask, hcheck, hof⟩ := hl.transfer
  have hback := hsame.symm
  constructor
  case client => exact hback.io
  case transfer => exact ⟨t, hask, hcheck, hback.contextOf hof⟩
  case success =>
    constructor
    · rintro ⟨herr, -⟩
      have hall : ctx.totalBytes ≤ ctx.dispatched := hdone.resolve_left (fun h => h herr)
      have hfull : ctx.dispatched = ctx.totalBytes := le_antisymm hl.chunks.le hall
      refine ⟨?_, fun r hmem => ?_⟩
      · rw [hback.totalBytes, ← hfull]
        exact hl.chunks.congr hback
      · obtain ⟨r', hr', hid⟩ := hsettled r hmem
        refine ⟨r', hr', hid, ?_⟩
        have hnone := firstFailure_eq_none.mp (hl.error_eq_zero.mp herr) _ (mem_endedOf.mp hr')
        unfold failureOf at hnone
        dsimp only at hnone
        split at hnone
        · assumption
        · cases hnone
    · rintro ⟨hchunks, hgood⟩
      have hfull : ctx.dispatched = ctx.totalBytes := by
        have hchunks := hchunks.congr hsame
        rw [← hsame.totalBytes] at hchunks
        exact hchunks.unique hl.chunks
      have hnone : firstFailure story = none := by
        refine firstFailure_eq_none.mpr fun ev hev => ?_
        cases ev with
        | ended r =>
            obtain ⟨r₁, hr₁, hid⟩ := List.mem_map.mp (hr.endedIssued r (mem_endedOf.mpr hev))
            obtain ⟨r', hr', hid', hzero⟩ := hgood r₁ hr₁
            have heq := ended_inj hr hr' (mem_endedOf.mpr hev) (hid'.trans hid)
            rw [heq] at hzero
            exact if_pos hzero
        | latched e =>
            have := hl.short e hev
            omega
        | _ => rfl
      have herr := hl.error_eq_zero.mpr hnone
      rw [herr]
      exact ⟨rfl, (if_neg (not_not.mpr rfl)).trans hback.totalBytes.symm⟩
  case failure =>
    intro hno
    have herr : ctx.firstError ≠ 0 := by
      intro h
      rw [h] at hno
      exact hno ⟨rfl, (if_neg (not_not.mpr rfl)).trans hback.totalBytes.symm⟩
    refine ⟨?_, if_pos herr⟩
    have hsome := hl.error
    cases hfail : firstFailure story with
    | none =>
        rw [hfail] at hsome
        exact absurd hsome herr
    | some e =>
        rw [hfail] at hsome
        rw [hsome]
        rfl
  case settled => exact hsettled

/-- A context that is dropped has issued nothing. -/
theorem Live.dropped {ctx : IoContext} (hl : Live env ctx story) (herr : ctx.firstError ≠ 0)
    (hnew : ctx.dispatched = 0) : Closed env (story ++ [.dropped]) := by
  have hchunks := hl.chunks
  rw [hnew] at hchunks
  exact .dropped hl.unanswered hl.kept hchunks.eq_nil
    (fun hnone => herr (hl.error_eq_zero.mpr hnone))

theorem firstFailure_snoc (story : List ChunkEvent) (ev : ChunkEvent) :
    firstFailure (story ++ [ev]) = (firstFailure story).or (failureOf ev) := by
  rw [firstFailure_append]
  unfold firstFailure
  cases hf : failureOf ev with
  | none => rw [List.filterMap_cons_none hf, List.filterMap_nil, List.head?_nil]
  | some e => rw [List.filterMap_cons_some hf, List.head?_cons]

/-- The context of a transfer that has just been opened. -/
theorem Live.opened {ctx : IoContext} {t : Transfer} (hinf : ctx.inflight = 0)
    (hdis : ctx.dispatched = 0) (herr : ctx.firstError = 0) (hask : Asked env ctx.io t)
    (hcheck : Checked env t) (hof : ContextOf env ctx t) : Live env ctx [.opened ctx] where
  opening := ⟨ctx, [], rfl, .refl ctx⟩
  transfer := ⟨t, hask, hcheck, hof⟩
  chunks := hdis.symm ▸ .none
  error := herr
  real := fun h => nomatch h
  count := by
    rw [hinf]
    rfl
  short := by simp
  unanswered := by simp
  kept := by simp

/-- The next chunk of a transfer is issued. -/
theorem Live.issued {ctx : IoContext} {r : Request} (hl : Live env ctx story)
    (hmore : ctx.dispatched < ctx.totalBytes) (hof : ChunkOf env ctx r)
    (hzero : ctx.firstError = 0) :
    Live env { ctx with
      dispatched := ctx.dispatched + nextBytes env ctx, inflight := ctx.inflight + 1 }
      (story ++ [.issued r]) where
  opening := by
    obtain ⟨ctx₀, rest, hstory, hsame⟩ := hl.opening
    refine ⟨ctx₀, rest ++ [.issued r], by rw [hstory]; rfl, ?_⟩
    exact hsame.trans ⟨rfl, rfl, rfl, rfl, rfl, rfl⟩
  transfer := by
    obtain ⟨t, hask, hcheck, hctx⟩ := hl.transfer
    exact ⟨t, hask, hcheck, SameRequest.contextOf ⟨rfl, rfl, rfl, rfl, rfl, rfl⟩ hctx⟩
  chunks := by
    have hsame : SameRequest ctx { ctx with
        dispatched := ctx.dispatched + nextBytes env ctx, inflight := ctx.inflight + 1 } :=
      ⟨rfl, rfl, rfl, rfl, rfl, rfl⟩
    rw [issuedOf_append]
    exact (hl.chunks.next hmore hof).congr hsame
  error := by
    rw [firstFailure_snoc, hl.error_eq_zero.mp hzero]
    exact hzero
  real := by
    rw [firstFailure_snoc, hl.error_eq_zero.mp hzero]
    exact fun h => nomatch h
  count := by
    rw [issuedOf_append, endedOf_append]
    have := hl.count
    simp only [issuedOf, endedOf, List.filterMap_cons, List.filterMap_nil, List.length_append,
      List.length_nil, List.length_cons] at this ⊢
    omega
  short := by
    intro e he
    have hfail := firstFailure_eq_none.mp (hl.error_eq_zero.mp hzero) (.latched e)
      (by simpa using he)
    cases hfail
  unanswered := by
    intro io e a hmem
    exact hl.unanswered io e a (by simpa using hmem)
  kept := fun hmem => hl.kept (by simpa using hmem)

/-- A sibling of a transfer ends. -/
theorem Live.ended {ctx : IoContext} {r : Request} (hl : Live env ctx story)
    (hinf : 0 < ctx.inflight) : Live env (ctx.siblingDone r) (story ++ [.ended r]) where
  opening := by
    obtain ⟨ctx₀, rest, hstory, hsame⟩ := hl.opening
    refine ⟨ctx₀, rest ++ [.ended r], by rw [hstory]; rfl, ?_⟩
    exact hsame.trans ⟨rfl, rfl, rfl, rfl, rfl, rfl⟩
  transfer := by
    obtain ⟨t, hask, hcheck, hctx⟩ := hl.transfer
    exact ⟨t, hask, hcheck, SameRequest.contextOf ⟨rfl, rfl, rfl, rfl, rfl, rfl⟩ hctx⟩
  chunks := by
    have hsame : SameRequest ctx (ctx.siblingDone r) := ⟨rfl, rfl, rfl, rfl, rfl, rfl⟩
    rw [issuedOf_append]
    change Chunks env _ (issuedOf story ++ []) ctx.dispatched
    rw [List.append_nil]
    exact hl.chunks.congr hsame
  error := by
    rw [firstFailure_snoc]
    unfold IoContext.siblingDone
    dsimp only
    have hzero := hl.error_eq_zero
    cases hfail : firstFailure story with
    | none =>
        rw [hzero.mpr hfail, Option.none_or]
        unfold failureOf
        dsimp only
        by_cases hst : r.status = 0
        · rw [if_neg (fun h => h.1 hst), hst]
          rfl
        · rw [if_pos ⟨hst, rfl⟩]
          split
          · rename_i hgood
            exact (nvmeErrorStatus_eq_zero r.status).mpr hgood
          · rfl
    | some e =>
        have hne : ctx.firstError ≠ 0 := fun h => nomatch hfail.symm.trans (hzero.mp h)
        rw [if_neg (fun h => hne h.2), hl.error, hfail]
        rfl
  real := by
    rw [firstFailure_snoc]
    have hreal := hl.real
    cases hfail : firstFailure story with
    | none =>
        rw [Option.none_or]
        exact failureOf_ne_zero (fun _ h => nomatch h)
    | some e =>
        rw [hfail] at hreal
        exact hreal
  count := by
    rw [issuedOf_append, endedOf_append]
    have := hl.count
    simp only [issuedOf, endedOf, IoContext.siblingDone, List.filterMap_cons,
      List.filterMap_nil, List.length_append, List.length_nil, List.length_cons] at this ⊢
    omega
  short := by
    intro e he
    exact hl.short e (by simpa using he)
  unanswered := by
    intro io e a hmem
    exact hl.unanswered io e a (by simpa using hmem)
  kept := fun hmem => hl.kept (by simpa using hmem)

/-- An error is latched outside a completion. -/
theorem Live.latched {ctx : IoContext} {e : Int} (hl : Live env ctx story)
    (hmore : ctx.dispatched < ctx.totalBytes) (hzero : ctx.firstError = 0) (he : e ≠ 0) :
    Live env { ctx with firstError := e } (story ++ [.latched e]) where
  opening := by
    obtain ⟨ctx₀, rest, hstory, hsame⟩ := hl.opening
    refine ⟨ctx₀, rest ++ [.latched e], by rw [hstory]; rfl, ?_⟩
    exact hsame.trans ⟨rfl, rfl, rfl, rfl, rfl, rfl⟩
  transfer := by
    obtain ⟨t, hask, hcheck, hctx⟩ := hl.transfer
    exact ⟨t, hask, hcheck, SameRequest.contextOf ⟨rfl, rfl, rfl, rfl, rfl, rfl⟩ hctx⟩
  chunks := by
    have hsame : SameRequest ctx { ctx with firstError := e } := ⟨rfl, rfl, rfl, rfl, rfl, rfl⟩
    rw [issuedOf_append]
    change Chunks env _ (issuedOf story ++ []) ctx.dispatched
    rw [List.append_nil]
    exact hl.chunks.congr hsame
  error := by
    rw [firstFailure_snoc, hl.error_eq_zero.mp hzero]
    rfl
  real := by
    rw [firstFailure_snoc, hl.error_eq_zero.mp hzero]
    exact fun h => he (Option.some.inj h)
  count := by
    rw [issuedOf_append, endedOf_append]
    have := hl.count
    simp only [issuedOf, endedOf, List.filterMap_cons, List.filterMap_nil, List.length_append,
      List.length_nil] at this ⊢
    omega
  short := fun _ _ => hmore
  unanswered := by
    intro io e a hmem
    exact hl.unanswered io e a (by simpa using hmem)
  kept := fun hmem => hl.kept (by simpa using hmem)

/-- Nothing is issued among some events. -/
theorem orderly_snoc {ev : ChunkEvent} (hold : ∀ before r after,
      story = before ++ .issued r :: after → firstFailure before = none)
    (hnew : ∀ r, ev = .issued r → firstFailure story = none) :
    ∀ before r after, story ++ [ev] = before ++ .issued r :: after →
      firstFailure before = none := by
  intro before r after h
  rcases split_snoc h with ⟨-, rfl, heq⟩ | ⟨after', -, hstory⟩
  · exact hnew r heq.symm
  · exact hold before r after' hstory

/-- What the story says of a context that is there after an event. -/
theorem Follows.snoc {ctx ctx' : IoContext} {ev : ChunkEvent} (hf : Follows env P x g story)
    (hs : Safe g) (hreg : Registered x g' (story ++ [ev])) (hget : g.core.ctxs.get x = some ctx)
    (hget' : g'.core.ctxs.get x = some ctx') (hle : g.core.allocs ≤ g'.core.allocs)
    (hlive : Live env ctx' (story ++ [ev]))
    (hissued : ∀ r, ev = .issued r → ctx.firstError = 0)
    (hlatch : ∀ e, ev = .latched e → Latches env P ctx e)
    (hended : ∀ r, ev = .ended r → nvmeDecideDisposition r = .complete) :
    Follows env P x g' (story ++ [ev]) where
  registered := hreg
  live := by
    intro ctx₁ hget₁
    cases Option.some.inj (hget₁.symm.trans hget')
    exact hlive
  closed := fun hnone => nomatch hnone.symm.trans hget'
  young := fun _ => (hs.ctx_young hget).trans_le hle
  orderly := orderly_snoc hf.orderly
    (fun r h => (hf.live ctx hget).error_eq_zero.mp (hissued r h))
  latches := by
    intro e he
    rcases List.mem_append.mp he with he | he
    · exact hf.latches e he
    · have hwhy := (hlatch e (List.mem_singleton.mp he).symm).why
      exact hwhy.imp (fun h => ⟨h.1, ctx, h.2⟩) id
  finals := by
    intro r hr
    rcases List.mem_append.mp (mem_endedOf.mp hr) with hr | hr
    · exact hf.finals r (mem_endedOf.mpr hr)
    · exact hended r (List.mem_singleton.mp hr).symm

/-- What the story says of a context that has just gone. -/
theorem Follows.last {ctx : IoContext} {ev : ChunkEvent} (hf : Follows env P x g story)
    (hs : Safe g) (hreg : Registered x g' (story ++ [ev])) (hget : g.core.ctxs.get x = some ctx)
    (hget' : g'.core.ctxs.get x = none) (hle : g.core.allocs ≤ g'.core.allocs)
    (hclosed : Closed env (story ++ [ev])) (hissued : ∀ r, ev ≠ .issued r)
    (hlatch : ∀ e, ev ≠ .latched e) (hended : ∀ r, ev ≠ .ended r) :
    Follows env P x g' (story ++ [ev]) where
  registered := hreg
  live := fun ctx₁ hget₁ => nomatch hget'.symm.trans hget₁
  closed := fun _ => hclosed
  young := fun _ => (hs.ctx_young hget).trans_le hle
  orderly := orderly_snoc hf.orderly (fun r h => absurd h (hissued r))
  latches := by
    intro e he
    rcases List.mem_append.mp he with he | he
    · exact hf.latches e he
    · exact absurd (List.mem_singleton.mp he).symm (hlatch e)
  finals := by
    intro r hr
    rcases List.mem_append.mp (mem_endedOf.mp hr) with hr | hr
    · exact hf.finals r (mem_endedOf.mpr hr)
    · exact absurd (List.mem_singleton.mp hr).symm (hended r)

/-- The story goes on as the moves do. -/
theorem Follows.step (hf : Follows env P x g story) (hs : Safe g) (hspoil : ¬P.spoil)
    (hm : Move env P g g') (ht : Tells env P x g g' evs) :
    Follows env P x g' (story ++ evs) := by
  have hreg := hf.registered.step hs hm ht
  have hle := (hm.traffic hs.tabs hs.idCount_le).allocs_le
  have hs' := keeps_safe env P _ _ hs hm
  cases ht with
  | nothing hkept hnone =>
      rw [List.append_nil] at hreg ⊢
      constructor
      case registered => exact hreg
      case live =>
        intro ctx' hget'
        cases hget : g.core.ctxs.get x with
        | none => cases (hnone hget).symm.trans hget'
        | some ctx =>
            obtain ⟨ctx₁, hget₁, hsame⟩ := hkept ctx hget
            cases Option.some.inj (hget₁.symm.trans hget')
            exact (hf.live ctx hget).same hsame
      case closed =>
        intro hgone
        cases hget : g.core.ctxs.get x with
        | none => exact hf.closed hget
        | some ctx =>
            obtain ⟨ctx₁, hget₁, -⟩ := hkept ctx hget
            cases hget₁.symm.trans hgone
      case young => exact fun hne => (hf.young hne).trans_le hle
      case orderly => exact hf.orderly
      case latches => exact hf.latches
      case finals => exact hf.finals
  | @opened ctx t hnew hget' hinf hdis herr hask hcheck hof =>
      have hnil : story = [] := by
        by_contra hne
        have := hf.young hne
        omega
      subst hnil
      constructor
      case registered => exact hreg
      case live =>
        intro ctx₁ hget₁
        cases Option.some.inj (hget₁.symm.trans hget')
        exact .opened hinf hdis herr hask hcheck hof
      case closed => exact fun hgone => nomatch hgone.symm.trans hget'
      case young => exact fun _ => hs'.ctx_young hget'
      case orderly => exact orderly_snoc hf.orderly (fun r h => nomatch h)
      case latches => simp
      case finals =>
        intro r hr
        cases hr
  | @issued ctx r hget hget' hkey hmore hfresh hof hlt =>
      have hzero := hfresh.resolve_right hspoil
      exact hf.snoc hs hreg hget hget' hle ((hf.live ctx hget).issued hmore hof hzero)
        (fun _ _ => hzero) (fun _ h => nomatch h) (fun _ h => nomatch h)
  | @ended ctx r hreq hctx hdec hget hget' hfree =>
      refine hf.snoc hs hreg hget hget' hle
        ((hf.live ctx hget).ended (hs.inflight_pos hreq hctx hget))
        (fun _ h => nomatch h) (fun _ h => nomatch h) (fun r' h => ?_)
      cases h
      exact hdec
  | @latched ctx e hget hget' he hlatch =>
      have hzero := hlatch.fresh.resolve_right hspoil
      refine hf.snoc hs hreg hget hget' hle ((hf.live ctx hget).latched hlatch.more hzero he)
        (fun _ h => nomatch h) (fun e' h => ?_) (fun _ h => nomatch h)
      cases h
      exact hlatch
  | @replied ctx hget hget' hidle hdone =>
      exact hf.last hs hreg hget hget' hle
        ((hf.live ctx hget).answered hf.registered hidle hdone) (fun _ => nofun)
        (fun _ => nofun) (fun _ => nofun)
  | @dropped ctx hget hget' hidle herr hnew =>
      exact hf.last hs hreg hget hget' hle ((hf.live ctx hget).dropped herr hnew)
        (fun _ => nofun) (fun _ => nofun) (fun _ => nofun)

/-- The story of a context that has not been opened. -/
theorem Follows.start (hreq : ∀ p, reqCount p g = 0) (hnone : g.core.ctxs.get x = none) :
    Follows env P x g [] where
  registered :=
    { born := fun n hn => absurd (hreq _) hn
      old := fun n hn => nomatch hn
      freed := fun r hr => nomatch hr
      issuedOnce := List.nodup_nil
      endedOnce := List.nodup_nil
      endedIssued := fun r hr => nomatch hr }
  live := fun ctx hget => nomatch hnone.symm.trans hget
  closed := fun _ => .unborn
  young := fun h => absurd rfl h
  orderly := by simp
  latches := by simp
  finals := fun r hr => nomatch hr

/-- What is told along a path from a state with no request and no context. -/
theorem told_follows {g₀ : Cfg} (hs : Safe g₀) (hreq : ∀ p, reqCount p g₀ = 0)
    (hnone : ∀ x, g₀.core.ctxs.get x = none) (hspoil : ¬P.spoil)
    (ht : Told env P g₀ x g story) : Follows env P x g story := by
  induction ht with
  | start => exact .start hreq (hnone x)
  | @move g g' story htold hm ih =>
      have hs' := (keeps_safe env P).path htold.path hs
      exact ih.step hs' hspoil hm (hm.tells hs' hspoil x)

end Following

/-! ### The story and the log -/

section Logging

variable {env : Env} {P : Policy} {g₀ g g' : Cfg} {x : Nat} {story : List ChunkEvent}

/-- What a move logs comes on top of the log. -/
theorem news_append (hm : Move env P g g') : g'.core.trace = news g g' ++ g.core.trace := by
  obtain ⟨es, hes⟩ := hm.trace_suffix
  rw [news_eq _ hes.symm, hes]

theorem mem_issuedBy {es : List Effect} {r : Request} :
    .issued r ∈ es.filterMap (issuedBy x) ↔
      r.ctx = some x ∧ r.retries = 0 ∧ ∃ slot owner, .sqe slot r owner ∈ es := by
  rw [List.mem_filterMap]
  constructor
  · rintro ⟨e, he, heq⟩
    unfold issuedBy at heq
    split at heq
    · rename_i slot r' owner
      split at heq
      · rename_i hcond
        cases heq
        exact ⟨hcond.1, hcond.2, slot, owner, he⟩
      · cases heq
    · cases heq
  · rintro ⟨hctx, hret, slot, owner, he⟩
    exact ⟨_, he, if_pos ⟨hctx, hret⟩⟩

theorem mem_closings {es : List Effect} {ev : ChunkEvent} (h : ev ∈ closings x es) :
    .ctxFree x ∈ es ∧
      (ev = .dropped ∨ ∃ i e a, ev = .replied i e a ∧ .reply i e a ∈ es) := by
  unfold closings at h
  split at h
  · rename_i hfree
    refine ⟨hfree, ?_⟩
    split at h
    · exact .inl (List.mem_singleton.mp h)
    · obtain ⟨e, he, heq⟩ := List.mem_filterMap.mp h
      unfold answerBy at heq
      split at heq
      · cases heq
        exact .inr ⟨_, _, _, rfl, he⟩
      · cases heq
  · cases h

theorem closings_of_free {es : List Effect} (h : .ctxFree x ∈ es) :
    ∃ ev, ev ∈ closings x es := by
  unfold closings
  rw [if_pos h]
  split
  · exact ⟨_, List.mem_singleton_self _⟩
  · rename_i hne
    exact List.exists_mem_of_ne_nil _ hne

/-- What a move shows of a context is issued, answered or freed as the move logs it. -/
theorem mem_shown_issued {r : Request} : .issued r ∈ shown x g g' ↔
    r.ctx = some x ∧ r.retries = 0 ∧ ∃ slot owner, .sqe slot r owner ∈ news g g' := by
  have hopen : .issued r ∉ openings x g g' := by
    unfold openings
    split <;> simp
  have hend : .issued r ∉ endings x g g' := by
    unfold endings
    split
    · simp
    · split <;> simp
  have hlatch : .issued r ∉ latches x g g' := by
    unfold latches
    split
    · split <;> simp
    · simp
  have hclose : .issued r ∉ closings x (news g g') := by
    intro h
    rcases (mem_closings h).2 with h | ⟨i, e, a, h, -⟩
    · cases h
    · cases h
  unfold shown
  simp only [List.mem_append, hopen, hend, hlatch, hclose, mem_issuedBy, or_false, false_or]

theorem mem_shown_replied {i a : Nat} {e : Int} (h : .replied i e a ∈ shown x g g') :
    .reply i e a ∈ news g g' := by
  unfold shown at h
  simp only [List.mem_append] at h
  rcases h with (((h | h) | h) | h) | h
  · unfold openings at h
    split at h <;> simp at h
  · obtain ⟨e', -, heq⟩ := List.mem_filterMap.mp h
    unfold issuedBy at heq
    split at heq
    · split at heq <;> cases heq
    · cases heq
  · unfold endings at h
    split at h
    · simp at h
    · split at h <;> simp at h
  · unfold latches at h
    split at h
    · split at h <;> simp at h
    · simp at h
  · rcases (mem_closings h).2 with h | ⟨i', e', a', h, hmem⟩
    · cases h
    · cases h
      exact hmem

/-- A story tells what the log shows. -/
theorem Told.logged (ht : Told env P g₀ x g story) (hstart : g₀.core.trace = []) :
    (∀ r, .issued r ∈ story ↔
      r.ctx = some x ∧ r.retries = 0 ∧ ∃ slot owner, .sqe slot r owner ∈ g.core.trace) ∧
    (∀ io e a, .replied io e a ∈ story → .reply io e a ∈ g.core.trace) ∧
    (.ctxFree x ∈ g.core.trace → .dropped ∈ story ∨ ∃ io e a, .replied io e a ∈ story) := by
  induction ht with
  | start => simp [hstart]
  | @move g g' story htold hm ih =>
      obtain ⟨hissued, hreplied, hfreed⟩ := ih
      rw [news_append hm]
      refine ⟨fun r => ?_, fun io e a h => ?_, fun h => ?_⟩
      · rw [List.mem_append, hissued r, mem_shown_issued]
        simp only [List.mem_append]
        constructor
        · rintro (⟨hctx, hret, slot, owner, h⟩ | ⟨hctx, hret, slot, owner, h⟩)
          · exact ⟨hctx, hret, slot, owner, .inr h⟩
          · exact ⟨hctx, hret, slot, owner, .inl h⟩
        · rintro ⟨hctx, hret, slot, owner, h | h⟩
          · exact .inr ⟨hctx, hret, slot, owner, h⟩
          · exact .inl ⟨hctx, hret, slot, owner, h⟩
      · rcases List.mem_append.mp h with h | h
        · exact List.mem_append_right _ (hreplied io e a h)
        · exact List.mem_append_left _ (mem_shown_replied h)
      · rcases List.mem_append.mp h with h | h
        · obtain ⟨ev, hev⟩ := closings_of_free h
          have hmem : ev ∈ story ++ shown x g g' := by
            refine List.mem_append_right _ ?_
            unfold shown
            exact List.mem_append_right _ hev
          rcases (mem_closings hev).2 with rfl | ⟨i, e, a, rfl, -⟩
          · exact .inl hmem
          · exact .inr ⟨i, e, a, hmem⟩
        · refine (hfreed h).imp (List.mem_append_left _) ?_
          rintro ⟨io, e, a, hmem⟩
          exact ⟨io, e, a, List.mem_append_left _ hmem⟩

/-- An event after which nothing is told comes last. -/
theorem split_last {before before' after : List ChunkEvent} {ev ev' : ChunkEvent}
    (h : before' ++ [ev'] = before ++ ev :: after) (hnot : ev ∉ before') :
    after = [] ∧ before' = before ∧ ev = ev' := by
  rcases split_snoc h with ⟨rfl, rfl, rfl⟩ | ⟨after', -, hstory⟩
  · exact ⟨rfl, rfl, rfl⟩
  · exact absurd (hstory ▸ List.mem_append_right _ (List.mem_cons_self ..)) hnot

/-- What is told of a context is faithful. -/
theorem Follows.faithful (hf : Follows env P x g story) (hs : Safe g)
    (ht : Told env P g₀ x g story) (hstart : g₀.core.trace = []) :
    Faithful env P x g story := by
  obtain ⟨hissued, hreplied, hfreed⟩ := Told.logged ht hstart
  constructor
  case logged => exact hissued
  case told => exact hreplied
  case freed => exact hfreed
  case answers =>
    intro before io error actual after heq
    have hmem : .replied io error actual ∈ story :=
      heq ▸ List.mem_append_right _ (List.mem_cons_self ..)
    cases hget : g.core.ctxs.get x with
    | some ctx => exact absurd hmem ((hf.live ctx hget).unanswered io error actual)
    | none =>
        have hidle := ((hs.ctxs x).dead hget).1
        cases hf.closed hget with
        | unborn => cases hmem
        | @answered before' ctx₀ rest io' actual' error' hopen hquiet hkept hanswer =>
            obtain ⟨rfl, rfl, h⟩ := split_last heq (hquiet io error actual)
            cases h
            exact ⟨rfl, hidle, ctx₀, rest, hopen, hanswer⟩
        | dropped hquiet hkept hnone hfail =>
            obtain ⟨-, -, h⟩ := split_last heq (hquiet io error actual)
            cases h
  case drops =>
    intro before after heq
    have hmem : .dropped ∈ story := heq ▸ List.mem_append_right _ (List.mem_cons_self ..)
    cases hget : g.core.ctxs.get x with
    | some ctx => exact absurd hmem (hf.live ctx hget).kept
    | none =>
        cases hf.closed hget with
        | unborn => cases hmem
        | answered hopen hquiet hkept hanswer =>
            obtain ⟨-, -, h⟩ := split_last heq hkept
            cases h
        | dropped hquiet hkept hnone hfail =>
            obtain ⟨rfl, rfl, -⟩ := split_last heq hkept
            exact ⟨rfl, hnone, hfail⟩
  case orderly => exact hf.orderly
  case latches => exact hf.latches
  case finals => exact hf.finals

end Logging

/-! ### The first chunk -/

section First

variable {env : Env} {s : State} {i a : Nat} {b o : Bool} {t : Transfer}

/-- A context that is pumped for the first time fails only in its setup. -/
theorem submitChunked_error {ctx : IoContext}
    (hs : Safe ⟨s.core, ⟨some i, none, none, a, b, o⟩⟩) (hask : Asked env i t)
    (hcheck : Checked env t) (hof : ContextOf env ctx t) (hio : ctx.io = i)
    (hinf : ctx.inflight = 0) (hdis : ctx.dispatched = 0) (herr : ctx.firstError = 0)
    (hstall : ctx.stalled = false) (hmore : 0 < ctx.totalBytes) (hroom : HasRoom s.core)
    (hmany : ¬Single env t) :
    (submitChunked env s ctx).2 = nvmeIoAsync ∨ (submitChunked env s ctx).2 = ioerrSelfTest := by
  cases hmem : env.alloc s.core.allocs with
  | none =>
      unfold submitChunked State.allocate
      rw [hmem]
      exact .inr rfl
  | some p =>
      rw [submitChunked_eq hmem]
      obtain ⟨hgo, hget⟩ := @withContext_spec env Refine.Policy.all.calm s i a b o t ctx hask
        hcheck hof hio hinf hdis herr hstall hroom hmany
      obtain ⟨-, ctx', -, -, -, hres⟩ := @nvmeIoContextPump_spec env Refine.Policy.all
        s.core.allocs (withContext s ctx) ctx none a b o (hgo.safe hs) hget hstall (by omega)
        trivial (.inl herr)
      rcases hres with ⟨hasync, -⟩ | ⟨hfail, -⟩
      · rw [if_neg (not_not.mpr hasync)]
        exact .inl rfl
      · rw [hfail, if_pos (by decide)]
        exact .inr rfl

theorem submitRw_error {u lba blocks opcode buffer : Nat}
    (hs : Safe ⟨s.core, ⟨some i, none, none, a, b, o⟩⟩)
    (hask : Asked env i (.rw u lba blocks opcode buffer))
    (hcheck : Checked env (.rw u lba blocks opcode buffer))
    (hmany : ¬Single env (.rw u lba blocks opcode buffer)) (hroom : HasRoom s.core)
    (hlive : s.core.state = .live) :
    (nvmeIoSubmitRw env s u i lba blocks opcode buffer).2 = nvmeIoAsync ∨
      (nvmeIoSubmitRw env s u i lba blocks opcode buffer).2 = ioerrSelfTest := by
  obtain ⟨hbytes, hbuf, hin⟩ := hcheck
  have hready : ¬nvmeCheckReady s = false := by
    simp [nvmeCheckReady, hlive]
  have hout : ¬lbaOutOfRange (env.units u) lba blocks = true := by
    rw [hin]
    decide
  have hsome : ¬blocks * 2 ^ (env.units u).blockShift % 2 ^ 32 = 0 := hbytes
  have hlong : ¬(nvmeRwChunkCap env.cfg (env.units u).blockShift lba = 0 ∨
      blocks * 2 ^ (env.units u).blockShift % 2 ^ 32 ≤
        nvmeRwChunkCap env.cfg (env.units u).blockShift lba) := hmany
  unfold nvmeIoSubmitRw
  dsimp only
  rw [if_neg hsome, if_neg hbuf, if_neg hout, if_neg hlong, if_neg hready]
  exact submitChunked_error hs hask ⟨hbytes, hbuf, hin⟩
    ⟨fun h => hmany (.inl h), rfl, rfl, rfl, rfl, rfl⟩ rfl rfl rfl rfl rfl
    (Nat.pos_of_ne_zero hbytes) hroom hmany

theorem submitWriteZeroes_error {u lba blocks : Nat}
    (hs : Safe ⟨s.core, ⟨some i, none, none, a, b, o⟩⟩)
    (hask : Asked env i (.writeZeroes u lba blocks))
    (hcheck : Checked env (.writeZeroes u lba blocks))
    (hmany : ¬Single env (.writeZeroes u lba blocks)) (hroom : HasRoom s.core)
    (hlive : s.core.state = .live) (hquirk : env.cfg.quirkDeallocateZeroes = false)
    (hmax : s.core.maxZeroesSectors ≠ 0) :
    (nvmeIoSubmitWriteZeroes env s u i lba blocks).2 = nvmeIoAsync ∨
      (nvmeIoSubmitWriteZeroes env s u i lba blocks).2 = ioerrSelfTest := by
  obtain ⟨hne, hin⟩ := hcheck
  have hready : ¬nvmeCheckReady s = false := by
    simp [nvmeCheckReady, hlive]
  have hout : ¬lbaOutOfRange (env.units u) lba blocks = true := by
    rw [hin]
    decide
  have hplain : ¬env.cfg.quirkDeallocateZeroes = true := by
    rw [hquirk]
    decide
  have hlong : ¬blocks * 2 ^ (env.units u).blockShift % 2 ^ 32 ≤ (env.units u).wzMaxBytes :=
    hmany
  unfold nvmeIoSubmitWriteZeroes
  dsimp only
  rw [if_neg hne, if_neg hout, if_neg hplain, if_neg hmax, if_neg hlong, if_neg hready]
  exact submitChunked_error hs hask ⟨hne, hin⟩ ⟨rfl, rfl, rfl, rfl, rfl⟩ rfl rfl rfl rfl rfl
    (Nat.lt_of_not_le fun h => hmany (h.trans (Nat.zero_le _))) hroom hmany

theorem scsiSwitch_transfer {cmd : Scsi.ScsiCmd} {cdb : List Nat} {u lba blocks : Nat}
    (hdec : scsiTransfer cdb = some (lba, blocks)) :
    scsiSwitch env s u i cmd cdb = doScsiTransfer env s u i cmd lba blocks := by
  have hop := scsiTransfer_opcode hdec
  unfold scsiSwitch
  dsimp only
  rw [hdec]
  generalize cdb.getD 0 0 = op at hop ⊢
  simp only [List.mem_cons, List.not_mem_nil, or_false] at hop
  rcases hop with rfl | rfl | rfl | rfl | rfl | rfl <;> rfl

theorem handleScsiCmd_error {cmd : Scsi.ScsiCmd} {cdb : List Nat} {u lba blocks : Nat}
    (hs : Safe ⟨s.core, ⟨some i, none, none, a, b, o⟩⟩)
    (hask : Asked env i (.rw u lba blocks
      (if cmd.flagRead then nvmeCmdRead else nvmeCmdWrite) cmd.data))
    (hcheck : Checked env (.rw u lba blocks
      (if cmd.flagRead then nvmeCmdRead else nvmeCmdWrite) cmd.data))
    (hmany : ¬Single env (.rw u lba blocks
      (if cmd.flagRead then nvmeCmdRead else nvmeCmdWrite) cmd.data))
    (hroom : HasRoom s.core) (hlive : s.core.state = .live) (hcdb : cmd.command = some cdb)
    (hlen : 6 ≤ cmd.cmdLength) (hdec : scsiTransfer cdb = some (lba, blocks))
    (hfits : blocks ≤ cmd.length / 2 ^ (env.units u).blockShift) :
    (handleScsiCmd env s u i (some cmd)).2 = nvmeIoAsync ∨
      (handleScsiCmd env s u i (some cmd)).2 = ioerrSelfTest := by
  unfold handleScsiCmd
  dsimp only
  split
  · rename_i hnone
    cases hcdb.symm.trans hnone
  rename_i cdb' hcdb'
  cases hcdb.symm.trans hcdb'
  rw [if_neg (Nat.not_lt.mpr hlen), scsiSwitch_transfer hdec]
  unfold doScsiTransfer
  dsimp only
  rw [if_neg (Nat.not_lt.mpr hfits)]
  have herr := submitRw_error hs hask hcheck hmany hroom hlive
  generalize nvmeIoSubmitRw env s u i lba blocks
    (if cmd.flagRead then nvmeCmdRead else nvmeCmdWrite) cmd.data = q at herr ⊢
  obtain ⟨s₁, e⟩ := q
  dsimp only at herr ⊢
  rcases herr with rfl | rfl
  · exact .inl rfl
  · exact .inr rfl

/-- A chunked transfer is taken over, or refused because its first chunk cannot be set up. -/
theorem dispatch_error (hs : Safe ⟨s.core, ⟨some i, none, none, a, b, o⟩⟩)
    (hask : Asked env i t) (hcheck : Checked env t) (hmany : ¬Single env t)
    (hroom : HasRoom s.core) (hlive : s.core.state = .live)
    (hmax : ∀ u lba n, t = .writeZeroes u lba n → s.core.maxZeroesSectors ≠ 0) :
    (dispatch env s i (env.ios i)).2 = nvmeIoAsync ∨
      (dispatch env s i (env.ios i)).2 = ioerrSelfTest := by
  unfold dispatch
  dsimp only
  cases hask with
  | @plain opcode htr =>
      have herr := submitRw_error hs (.plain htr) hcheck hmany hroom hlive
      cases hcmd : (env.ios i).command <;>
        first
        | (rw [hcmd] at htr; cases htr; done)
        | (rw [hcmd] at htr; cases htr; exact herr)
  | scsi hcmd hscsi hcdb hlen hdec hfits =>
      rw [hcmd, hscsi]
      exact handleScsiCmd_error hs (.scsi hcmd hscsi hcdb hlen hdec hfits) hcheck hmany hroom
        hlive hcdb hlen hdec hfits
  | zeroes hcmd hquirk =>
      rw [hcmd]
      exact submitWriteZeroes_error hs (.zeroes hcmd hquirk) hcheck hmany hroom hlive hquirk
        (hmax _ _ _ rfl)
  | trim | deallocate | unmap | sync => exact absurd trivial hmany

/-- No transfer is asked for by an abort. -/
theorem Asked.command_ne (hask : Asked env i t) :
    (env.ios i).command ≠ .cmdInternalAbortRequest := by
  intro hcmd
  cases hask with
  | plain htr =>
      rw [hcmd] at htr
      cases htr
  | sync hflush =>
      rcases hflush with h | h | ⟨h, -⟩ <;> cases hcmd.symm.trans h
  | scsi h | zeroes h | trim h | deallocate h | unmap h => cases hcmd.symm.trans h

/-- The client of a chunked transfer is answered later, or told that its first chunk could
not be set up. -/
theorem processCommand_error (hs : Safe ⟨s.core, ⟨some i, none, none, a, b, o⟩⟩)
    (hask : Asked env i t) (hcheck : Checked env t) (hmany : ¬Single env t)
    (hroom : HasRoom s.core) (hlive : s.core.state = .live)
    (hmax : ∀ u lba n, t = .writeZeroes u lba n → s.core.maxZeroesSectors ≠ 0)
    (hdead : s.core.dead (env.ios i).unit = false) :
    processCommand env s i = (dispatch env s i (env.ios i)).1 ∨
      processCommand env s i =
        (dispatch env s i (env.ios i)).1.log (.reply i ioerrSelfTest 0) := by
  have herr := dispatch_error hs hask hcheck hmany hroom hlive hmax
  unfold processCommand
  dsimp only
  rw [hdead, if_neg (by decide), if_neg (Asked.command_ne hask)]
  rcases herr with h | h
  · rw [h, if_neg (not_not.mpr rfl)]
    exact .inl rfl
  · rw [h, if_pos (by decide)]
    exact .inr rfl

end First

/-! ### Runs -/

section Runs

variable {env : Env}

/-- A run goes on with no context that has failed, and aborts contexts only when the unit
task exits. -/
theorem meetsAll_careful {abort : Prop} (events : List Event) (hstop : .stop ∈ events → abort) :
    ∀ s : State, Safe ⟨s.core, ⟨none, none, none, 0, false, false⟩⟩ → Unspoiled s.core →
      MeetsAll env (careful abort False) events s := by
  induction events with
  | nil => exact fun _ _ _ => trivial
  | cons ev events ih =>
      intro s hs hclean
      have hmeets : Meets env (careful abort False) s ev :=
        meets_careful env (.inr hclean) (fun h => hstop (h ▸ List.mem_cons_self ..))
      have hnext := (keeps_unspoiled env _).path (step_spec ev hmeets hs) ⟨hs, .inr hclean⟩
      exact ⟨hmeets, ih (fun h => hstop (List.mem_cons_of_mem _ h)) _ hnext.1
        (hnext.2.resolve_left id)⟩

theorem up_reqCount (env : Env) (maxZeroes : Nat) (p : Key → Bool) :
    reqCount p ⟨(upState env maxZeroes).core, ⟨none, none, none, 0, false, false⟩⟩ = 0 := by
  have htrace : (upState env maxZeroes).core.trace = [] := rfl
  have hadmin : (upState env maxZeroes).core.adminTab =
    SlotTable.fresh nvmeAdminQueueSize env.cfg.quirkSkipCidGen := rfl
  have hio : (upState env maxZeroes).core.ioTab =
    SlotTable.fresh nvmeIoQueueSize env.cfg.quirkSkipCidGen := rfl
  have hretry : (upState env maxZeroes).core.retryList = [] := rfl
  have hwait : (upState env maxZeroes).core.waiting = [] := rfl
  simp [reqCount, coreReqs, htrace, hadmin, hio, hretry, hwait, SlotTable.fresh, torn]

theorem up_unspoiled (env : Env) (maxZeroes : Nat) : Unspoiled (upState env maxZeroes).core := by
  intro x ctx hget
  cases hget

/-- The moves of a run. -/
theorem run_careful (env : Env) (maxZeroes : Nat) (events : List Event) :
    Relation.ReflTransGen (Move env (careful (.stop ∈ events) False))
      ⟨(upState env maxZeroes).core, ⟨none, none, none, 0, false, false⟩⟩
      ⟨(run env events (bootState env maxZeroes)).core,
        ⟨none, none, none, 0, false, false⟩⟩ := by
  have hboot := (keeps_unspoiled env (careful (.stop ∈ events) False)).path
    (boot_spec env _ maxZeroes (up_safe env maxZeroes))
    ⟨up_safe env maxZeroes, .inr (up_unspoiled env maxZeroes)⟩
  exact run_path (meetsAll_careful events id _ hboot.1 (hboot.2.resolve_left id))

/-- What is told of the contexts of a run is faithful. -/
theorem run_faithful {maxZeroes : Nat} {events : List Event} {x : Nat}
    {story : List ChunkEvent}
    (ht : Told env (careful (.stop ∈ events) False)
      ⟨(upState env maxZeroes).core, ⟨none, none, none, 0, false, false⟩⟩ x
      ⟨(run env events (bootState env maxZeroes)).core,
        ⟨none, none, none, 0, false, false⟩⟩ story) :
    Faithful env (careful (.stop ∈ events) False) x
      ⟨(run env events (bootState env maxZeroes)).core,
        ⟨none, none, none, 0, false, false⟩⟩ story := by
  have hfollows := told_follows (up_safe env maxZeroes) (up_reqCount env maxZeroes)
    (fun _ => rfl) id ht
  exact hfollows.faithful ((keeps_safe env _).path ht.path (up_safe env maxZeroes)) ht rfl

/-- Over every run: what is told of a context is faithful to its chunks, their final
statuses and the errors of its refills, and the run tells of every context; a transfer whose
first chunk cannot be set up is refused with that error. -/
theorem run_chunk_errors (env : Env) (maxZeroes : Nat) (events : List Event) :
    (∀ x,
      (∃ story, Told env (careful (.stop ∈ events) False)
        ⟨(upState env maxZeroes).core, ⟨none, none, none, 0, false, false⟩⟩ x
        ⟨(run env events (bootState env maxZeroes)).core,
          ⟨none, none, none, 0, false, false⟩⟩ story) ∧
      ∀ story, Told env (careful (.stop ∈ events) False)
        ⟨(upState env maxZeroes).core, ⟨none, none, none, 0, false, false⟩⟩ x
        ⟨(run env events (bootState env maxZeroes)).core,
          ⟨none, none, none, 0, false, false⟩⟩ story →
        Faithful env (careful (.stop ∈ events) False) x
          ⟨(run env events (bootState env maxZeroes)).core,
            ⟨none, none, none, 0, false, false⟩⟩ story) ∧
    ∀ (s : State) (i a : Nat) (b o : Bool) (t : Transfer),
      Safe ⟨s.core, ⟨some i, none, none, a, b, o⟩⟩ → Asked env i t → Checked env t →
      ¬Single env t → HasRoom s.core → s.core.state = .live →
      (∀ u lba n, t = .writeZeroes u lba n → s.core.maxZeroesSectors ≠ 0) →
      s.core.dead (env.ios i).unit = false →
        processCommand env s i = (dispatch env s i (env.ios i)).1 ∨
          processCommand env s i =
            (dispatch env s i (env.ios i)).1.log (.reply i ioerrSelfTest 0) := by
  constructor
  · intro x
    exact ⟨told_of_path x (run_careful env maxZeroes events), fun story ht => run_faithful ht⟩
  · intro s i a b o t hs hask hcheck hmany hroom hlive hmax hdead
    exact processCommand_error hs hask hcheck hmany hroom hlive hmax hdead

/-- Reads of two blocks in chunks of one; the third allocation fails. -/
def parkedEnv : Env :=
  { sampleEnv with
    ios := fun i =>
      { command := .cmdRead, unit := 0, ioOffset := i * 1024, ioLength := 1024
        ioData := 0x10000000 }
    cfg := { sampleEnv.cfg with maxTransferBytes := 512 }
    alloc := fun n => if n = 2 then none else some (0x20000000 + n * 4096) }

/-- A context that is parked when the unit task exits: its client is told that the transfer
was aborted, though no chunk was issued and none was set up. -/
theorem parked_chunks_aborted :
    .reply 0 ioerrAborted 0 ∈
        (run parkedEnv [.putMsg, .drain, .stop] (bootState parkedEnv 0)).core.trace ∧
      ioerrAborted ≠ 0 ∧ ioerrAborted ≠ ioerrSelfTest ∧
      ((run parkedEnv [.putMsg, .drain, .stop] (bootState parkedEnv 0)).core.trace.all
        (fun e => match e with
          | .sqe _ r _ => r.q != .io
          | .cqe _ _ _ _ => false
          | _ => true)) = true := by
  decide +kernel

end Runs

end Runs
end NvmeDriver
