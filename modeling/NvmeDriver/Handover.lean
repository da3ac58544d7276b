import NvmeDriver.Engine.Completion

/-!
# Who holds a completed request

`nvme_complete_rq` as a sequence of accesses to the request it is given
(nvme_completion.c).  A callback owns the request once it is called, and a waiter once it
is signalled: from then on it may be freed, and its slab cell issued again, before
`nvme_end_req` returns.  The function nevertheless reads `req->done` and `req->waiter`
afterwards to find out who owns the request.
-/

namespace NvmeDriver
namespace Handover

open Engine

/-! ### The slab and the accesses -/

/-- The request slab: its memory stays mapped, and a cell is issued or free. -/
structure Slab where
  cells : Nat → Request
  live : Nat → Bool

inductive AccessKind
  | read
  | write
  | free
deriving DecidableEq, Repr

/-- An access to the request: whether the completion path still held it, and whether its
cell was issued. -/
structure Access where
  kind : AccessKind
  held : Bool
  live : Bool
deriving DecidableEq, Repr

/-- One call under way. -/
structure Trail where
  slab : Slab
  held : Bool := true
  log : List Access := []

def Slab.edit (m : Slab) (a : Nat) (f : Request → Request) : Slab :=
  { m with cells := fun b => if b = a then f (m.cells b) else m.cells b }

def Trail.touch (t : Trail) (a : Nat) (kind : AccessKind) : Trail :=
  { t with log := ⟨kind, t.held, t.slab.live a⟩ :: t.log }

def Trail.write (t : Trail) (a : Nat) (f : Request → Request) : Trail :=
  { t.touch a .write with slab := t.slab.edit a f }

/-- `slab_free`. -/
def Trail.free (t : Trail) (a : Nat) : Trail :=
  { t.touch a .free with
    held := false
    slab := { t.slab with live := fun b => if b = a then false else t.slab.live b } }

/-- The request passes to its callback or waiter; `others` is what the callback, the
waiter and every task they let run do to the slab before the call goes on. -/
def Trail.handOver (t : Trail) (others : Slab → Slab) : Trail :=
  { t with held := false, slab := others t.slab }

/-! ### The call -/

/-- `nvme_end_req`. -/
def nvmeEndReq (others : Slab → Slab) (a : Nat) (t : Trail) : Trail :=
  let t₁ := t.touch a .read
  if (t.slab.cells a).done.isSome then t₁.handOver others
  else if (t.slab.cells a).waiter.isSome then t₁.handOver others
  else t₁

/-- What follows the call of `nvme_end_req`: the ownership test and the free of an I/O
request. -/
def freeUnlessOwned (a : Nat) (t : Trail) : Trail :=
  let req := t.slab.cells a
  let t₁ := t.touch a .read
  if req.done.isSome || req.waiter.isSome then t₁
  else if req.io.isSome then (t₁.touch a .read).free a
  else t₁.touch a .read

/-- The COMPLETE branch; a chunk's sibling is freed first and not touched again. -/
def completeRequest (others : Slab → Slab) (a : Nat) (t : Trail) : Trail :=
  let t₁ := (t.write a (fun x => { x with prpPages := [], bounceBuf := none })).touch a .read
  if (t.slab.cells a).ctx.isSome then t₁.free a
  else freeUnlessOwned a (nvmeEndReq others a t₁)

/-- `nvme_resubmit_io`: with a tag the request goes out again, or is destroyed if the ring
is full; without one it is completed with a path error. -/
def nvmeResubmitIo (complete : Trail → Trail) (tag room : Bool) (a : Nat) (t : Trail) : Trail :=
  if tag then
    let t₁ := t.touch a .write
    if room then t₁.touch a .read else t₁.free a
  else complete (t.write a (fun x => { x with status := nvmeScHostPathError }))

/-- `nvme_retry_req`. -/
def nvmeRetryReq (complete : Trail → Trail) (tag room : Bool) (a : Nat) (t : Trail) : Trail :=
  let t₁ := t.write a (fun x => { x with status := 0, retries := x.retries + 1 })
  if statusCrd (t.slab.cells a).status ≠ 0 then t₁.touch a .write
  else nvmeResubmitIo complete tag room a t₁

/-- `nvme_complete_rq`, with a bound on the turns. -/
def completeRq (others : Slab → Slab) (tag room : Bool) (a : Nat) : Nat → Trail → Trail
  | 0, t => t
  | fuel + 1, t =>
      let t₁ := t.touch a .read
      match nvmeDecideDisposition (t.slab.cells a) with
      | .complete => completeRequest others a t₁
      | .retry => nvmeRetryReq (completeRq others tag room a fuel) tag room a t₁

/-- `nvme_complete_rq` of the request at `a`. -/
def nvmeCompleteRq (others : Slab → Slab) (tag room : Bool) (a : Nat) (m : Slab) : Trail :=
  completeRq others tag room a (nvmeMaxRetries + 1) { slab := m }

/-! ### What is touched -/

section Touched

variable {others : Slab → Slab} {tag room : Bool} {a : Nat} {t : Trail}

/-- The request was held at every access. -/
def AllHeld (t : Trail) : Prop := ∀ x ∈ t.log, x.held = true

/-- The request has neither a callback nor a waiter. -/
def Ownerless (r : Request) : Prop := r.done = none ∧ r.waiter = none

/-- This call completes the request: at once, or for want of a tag to retry it with. -/
def CompletedNow (tag : Bool) (r : Request) : Prop :=
  nvmeDecideDisposition r = .complete ∨ statusCrd r.status = 0 ∧ tag = false

theorem allHeld_touch (kind : AccessKind) :
    AllHeld (t.touch a kind) ↔ t.held = true ∧ AllHeld t := by
  simp [AllHeld, Trail.touch]

theorem allHeld_write (f : Request → Request) :
    AllHeld (t.write a f) ↔ t.held = true ∧ AllHeld t := by
  simp [AllHeld, Trail.write, Trail.touch]

theorem allHeld_free : AllHeld (t.free a) ↔ t.held = true ∧ AllHeld t := by
  simp [AllHeld, Trail.free, Trail.touch]

@[simp] theorem touch_held (kind : AccessKind) : (t.touch a kind).held = t.held := rfl

@[simp] theorem touch_slab (kind : AccessKind) : (t.touch a kind).slab = t.slab := rfl

theorem write_cell (f : Request → Request) :
    (t.write a f).slab.cells a = f (t.slab.cells a) := by
  simp [Trail.write, Slab.edit]

theorem freeUnlessOwned_allHeld :
    AllHeld (freeUnlessOwned a t) ↔ t.held = true ∧ AllHeld t := by
  unfold freeUnlessOwned
  dsimp only
  split
  · exact allHeld_touch _
  · split
    · simp only [allHeld_free, allHeld_touch, touch_held]
      tauto
    · simp only [allHeld_touch, touch_held]
      tauto

theorem nvmeEndReq_allHeld : AllHeld (nvmeEndReq others a t) ↔ t.held = true ∧ AllHeld t := by
  unfold nvmeEndReq
  dsimp only
  split
  · exact allHeld_touch _
  · split
    · exact allHeld_touch _
    · exact allHeld_touch _

/-- The request is kept if it has neither a callback nor a waiter. -/
theorem nvmeEndReq_held (hheld : t.held = true) :
    (nvmeEndReq others a t).held = true ↔ Ownerless (t.slab.cells a) := by
  unfold nvmeEndReq Ownerless
  dsimp only
  cases hdone : (t.slab.cells a).done with
  | some d => simp [Trail.handOver]
  | none =>
      cases hwait : (t.slab.cells a).waiter with
      | some w => simp [Trail.handOver]
      | none => simpa using hheld

theorem completeRequest_allHeld (hheld : t.held = true) (hall : AllHeld t) :
    AllHeld (completeRequest others a t) ↔
      (t.slab.cells a).ctx ≠ none ∨ Ownerless (t.slab.cells a) := by
  unfold completeRequest
  dsimp only
  have hall₁ : AllHeld ((t.write a (fun x =>
      { x with prpPages := [], bounceBuf := none })).touch a .read) :=
    (allHeld_touch _).mpr ⟨hheld, (allHeld_write _).mpr ⟨hheld, hall⟩⟩
  by_cases hctx : (t.slab.cells a).ctx.isSome = true
  · rw [if_pos hctx]
    refine iff_of_true (allHeld_free.mpr ⟨hheld, hall₁⟩) (.inl fun h => ?_)
    rw [h] at hctx
    cases hctx
  · have hnone : (t.slab.cells a).ctx = none := by simpa using hctx
    have hend := @nvmeEndReq_held others a
      ((t.write a (fun x => { x with prpPages := [], bounceBuf := none })).touch a .read) hheld
    rw [touch_slab, write_cell] at hend
    rw [if_neg hctx, freeUnlessOwned_allHeld, hend, nvmeEndReq_allHeld, hnone]
    simp only [ne_eq, not_true, false_or]
    exact and_iff_left ⟨hheld, hall₁⟩

theorem retries_lt {r : Request} (hretry : nvmeDecideDisposition r = .retry) :
    r.retries < nvmeMaxRetries := by
  unfold nvmeDecideDisposition at hretry
  split at hretry
  · cases hretry
  · split at hretry
    · cases hretry
    · rename_i hno
      omega

/-- A request whose retry found no tag. -/
def pathFailed (r : Request) : Request :=
  { r with status := nvmeScHostPathError, retries := r.retries + 1 }

/-- It is completed, not parked. -/
theorem completedNow_pathFailed (r : Request) : CompletedNow false (pathFailed r) :=
  .inr ⟨(by decide : statusCrd nvmeScHostPathError = 0), rfl⟩

/-- With turns enough left the call is determined by what the request is for. -/
theorem completeRq_allHeld (fuel : Nat) :
    ∀ t : Trail, t.held = true → AllHeld t → 0 < fuel →
      nvmeMaxRetries < fuel + (t.slab.cells a).retries →
      (AllHeld (completeRq others tag room a fuel t) ↔
        ¬CompletedNow tag (t.slab.cells a) ∨ (t.slab.cells a).ctx ≠ none ∨
          Ownerless (t.slab.cells a)) := by
  induction fuel with
  | zero =>
      intro t _ _ hpos
      cases hpos
  | succ fuel ih =>
      intro t hheld hall _ hfuel
      have hall₁ : AllHeld (t.touch a .read) := (allHeld_touch _).mpr ⟨hheld, hall⟩
      unfold completeRq
      dsimp only
      cases hdis : nvmeDecideDisposition (t.slab.cells a) with
      | complete =>
          dsimp only
          rw [@completeRequest_allHeld others a (t.touch a .read) hheld hall₁, touch_slab]
          have hnow : CompletedNow tag (t.slab.cells a) := .inl hdis
          simp [hnow]
      | retry =>
          dsimp only
          have hlt := retries_lt hdis
          let t₁ := (t.touch a .read).write a
            (fun x => { x with status := 0, retries := x.retries + 1 })
          have hall₂ : AllHeld t₁ := (allHeld_write _).mpr ⟨hheld, hall₁⟩
          unfold nvmeRetryReq
          dsimp only
          split
          · rename_i hcrd
            refine iff_of_true ((allHeld_touch _).mpr ⟨hheld, hall₂⟩) (.inl ?_)
            rintro (hc | hc)
            · rw [hdis] at hc
              cases hc
            · exact hcrd hc.1
          · rename_i hcrd
            have hzero : statusCrd (t.slab.cells a).status = 0 := not_not.mp hcrd
            unfold nvmeResubmitIo
            cases tag with
            | true =>
                have hnot : ¬CompletedNow true (t.slab.cells a) := by
                  rintro (hc | hc)
                  · rw [hdis] at hc
                    cases hc
                  · cases hc.2
                refine iff_of_true ?_ (.inl hnot)
                simp only [if_true]
                have hall₃ : AllHeld (t₁.touch a .write) :=
                  (allHeld_touch _).mpr ⟨hheld, hall₂⟩
                split
                · exact (allHeld_touch _).mpr ⟨hheld, hall₃⟩
                · exact allHeld_free.mpr ⟨hheld, hall₃⟩
            | false =>
                have hnow : CompletedNow false (t.slab.cells a) := .inr ⟨hzero, rfl⟩
                simp only [Bool.false_eq_true, if_false]
                let t₂ := t₁.write a (fun x => { x with status := nvmeScHostPathError })
                have hcell : t₂.slab.cells a = pathFailed (t.slab.cells a) := by
                  unfold t₂ t₁
                  rw [write_cell, write_cell]
                  rfl
                have hturn := ih t₂ hheld ((allHeld_write _).mpr ⟨hheld, hall₂⟩) (by omega)
                rw [hcell] at hturn
                have hagain := completedNow_pathFailed (t.slab.cells a)
                refine (hturn ?_).trans ⟨fun h => ?_, fun h => ?_⟩
                · change nvmeMaxRetries < fuel + ((t.slab.cells a).retries + 1)
                  omega
                · exact .inr (h.resolve_left (not_not.mpr hagain))
                · exact .inr (h.resolve_left (not_not.mpr hnow))

end Touched

/-- For every request, every interference of callbacks and waiters and every state of the
queue: `nvme_complete_rq` touches the request only while it holds it if and only if it
does not complete it now, or the request is a chunk's sibling, or it has neither a
callback nor a waiter. -/
theorem touched_only_while_held_iff (others : Slab → Slab) (tag room : Bool) (a : Nat)
    (m : Slab) :
    (∀ x ∈ (nvmeCompleteRq others tag room a m).log, x.held = true) ↔
      ¬CompletedNow tag (m.cells a) ∨ (m.cells a).ctx ≠ none ∨
        ((m.cells a).done = none ∧ (m.cells a).waiter = none) := by
  refine completeRq_allHeld (nvmeMaxRetries + 1) { slab := m } rfl ?_ (by decide) (by omega)
  intro x hx
  cases hx

/-- `abort_done` of the request at `a`: all that happens to the slab before the call goes
on. -/
def abortDone (a : Nat) (m : Slab) : Slab :=
  { m with live := fun b => if b = a then false else m.live b }

/-- An Abort completes: its callback frees the request, and the call goes on to read it. -/
theorem reads_freed_request :
    ⟨.read, false, false⟩ ∈
      (nvmeCompleteRq (abortDone 0) true true 0
        { cells := fun _ => { id := 0, q := .admin, cid := 0, done := some .abortDone }
          live := fun _ => true }).log := by
  decide

end Handover
end NvmeDriver
