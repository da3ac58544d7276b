import NvmeDriver.Ownership.Flow

/-!
# What every configuration satisfies

The invariant of the machine.  Every client request is in at most one place and
is answered at most once; every request and every context is freed at most once;
a context's siblings are among those it counts, and an idle context is parked,
in hand or about to be finished; the rebuild after a reset runs alone.

It is proved in `Safe`, from two summaries of what a move can do: to requests
(`Move.traffic`) and to client requests (`Move.clients`).
-/

namespace NvmeDriver
namespace Ownership

open Engine
open Lib

section Defs

/-- One for a client request that has been accepted. -/
def acc (i : Nat) (g : Cfg) : Nat := if i < g.core.accepted then 1 else 0

/-- Requests of a number, and how often it has been freed. -/
def idCount (n : Nat) (g : Cfg) : Nat :=
  reqCount (fun k => k.id == n) g + g.core.trace.countP (isReqFree n)

/-- The accounting of one context. -/
structure CtxOk (x : Nat) (g : Cfg) : Prop where
  once : hit (fun _ => true) (g.core.ctxs.get x) + g.core.trace.countP (isCtxFree x) ≤
    if x < g.core.allocs then 1 else 0
  finishes : g.core.trace.countP (isCtxFinish x) ≤ g.core.trace.countP (isCtxFree x)
  parked : g.core.ctxStalled.count x = hit IoContext.stalled (g.core.ctxs.get x)
  siblings : ∀ ctx, g.core.ctxs.get x = some ctx → sibCount x g ≤ ctx.inflight
  idle : ∀ ctx, g.core.ctxs.get x = some ctx → ctx.stalled = true →
    ctx.inflight = 0 ∧ ctx.dispatched < ctx.totalBytes
  held : ∀ ctx, g.core.ctxs.get x = some ctx → g.hand.ctx ≠ some x →
    ctx.stalled = true ∨ 0 < ctx.inflight
  dead : g.core.ctxs.get x = none → sibCount x g = 0 ∧ g.hand.ctx ≠ some x

/-- Every reset that has begun is finished. -/
def Settled (trace : List Effect) : Prop :=
  trace.countP isResetBegin = trace.countP isResetFinish

/-- The phases of the controller exclude each other. -/
structure PhaseOk (g : Cfg) : Prop where
  owes : g.hand.owes = true → ChainFree g
  chain : reqCount Key.isChain g ≠ 0 →
    reqCount Key.isChain g = 1 ∧ g.core.state = .resetting ∧ ¬fwPending g.core ∧
      InReset g.core.trace
  fw : fwPending g.core → g.core.state = .resetting
  once : g.core.fwActRunning = true → g.core.fwActSignal = false
  features : reqCount Key.isFeatures g ≠ 0 → g.core.ioTab = SlotTable.gone
  terminal : g.core.state ≠ .new → g.core.state ≠ .live → g.core.state ≠ .resetting →
    g.core.ioTab = SlotTable.gone
  resets : InReset g.core.trace ∨ Settled g.core.trace
  settled : g.core.state ≠ .resetting ∨ fwPending g.core → Settled g.core.trace

/-- The I/O ring: a batch is open or not, outside one every SQE is announced, and the head
is a slot. -/
structure RingOk (g : Cfg) : Prop where
  batch : (g.core.ring .io).sqBatchDepth = if g.hand.batch then 1 else 0
  rung : (g.core.ring .io).sqBatchDepth = 0 ∨ g.core.ioTab.present = false →
    (g.core.ring .io).lastSqTail = (g.core.ring .io).sqTail
  head : (g.core.ring .io).cqHead % g.core.ioTab.depth = (g.core.ring .io).cqHead

/-- No freed context is used, and none is finished while it is parked or has
siblings. -/
def effectOk : Effect → Prop
  | .fault => False
  | .ctxFinish _ onStalled siblings => onStalled = false ∧ siblings = 0
  | _ => True

/-- A request that must not be submitted again is not: `older` was on the log before
`newer`. -/
def NeverAgain (newer older : Effect) : Prop :=
  ∀ n, dooms n older = true → isSqe n newer = false

/-- What is on the log of the requests: a request was submitted at most once for every retry
and once more, in its slot or in hand, and at most once for every retry while it is parked; it
is not around any more once it must not be submitted again, unless it is in hand to be
completed. -/
structure WritesOk (g : Cfg) : Prop where
  few : ∀ n, g.core.trace.countP (isSqe n) ≤ nvmeMaxRetries + 1
  never : g.core.trace.Pairwise NeverAgain
  fresh : ∀ n, g.core.allocs ≤ n → ∀ e, e ∈ g.core.trace → isSqe n e = false ∧ dooms n e = false
  slots : ∀ q tag r, (g.core.tab q).read tag = some r →
    g.core.trace.countP (isSqe r.id) ≤ r.retries + 1 ∧ r.retries ≤ nvmeMaxRetries ∧
      ¬Doomed r.id g.core.trace
  parked : ∀ r, r ∈ g.core.retryList →
    g.core.trace.countP (isSqe r.id) ≤ r.retries ∧ r.retries ≤ nvmeMaxRetries ∧
      ¬Doomed r.id g.core.trace
  hand : ∀ r, g.hand.req = some r →
    g.core.trace.countP (isSqe r.id) ≤ r.retries + 1 ∧ r.retries ≤ nvmeMaxRetries ∧
      (nvmeDecideDisposition r = .retry → ¬Doomed r.id g.core.trace)

/-- The invariant. -/
structure Safe (g : Cfg) : Prop where
  tabs : ∀ q, TabOk q (g.core.tab q)
  sound : reqCount Key.isUnsound g = 0
  waiters : ∀ r, r ∈ g.core.waiting → r.waiter ≠ none
  parked : ∀ r, r ∈ g.core.retryList → r.retries ≠ 0
  ios : ∀ i, ioCount i g ≤ acc i g
  ids : ∀ n, idCount n g ≤ if n < g.core.allocs then 1 else 0
  ctxs : ∀ x, CtxOk x g
  phase : PhaseOk g
  ring : RingOk g
  room : 0 < g.core.ioMaxInflight
  effects : ∀ e, e ∈ g.core.trace → effectOk e
  writes : WritesOk g

end Defs

end Ownership
end NvmeDriver
