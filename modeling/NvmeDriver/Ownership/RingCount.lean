import NvmeDriver.Ownership.RingStep
import NvmeDriver.Lib.Laps
import NvmeDriver.Lib.Journal

/-!
# The I/O ring as the log counts it

Since the I/O queue was set up, the tail is the number of SQEs written and the local head
the number of CQEs consumed, both modulo the depth.  The full check keeps the SQEs that no
published CQE accounts for below the depth.  What the driver thinks of as in flight is what
was written and neither answered nor force-completed.
-/

namespace NvmeDriver
namespace Ownership

open Engine
open Lib

/-! ### Counting in the log -/

section Counting

variable {p : Effect → Bool} {e : Effect} {l tr : List Effect}

/-- The log since the I/O queue was last set up. -/
def epoch (tr : List Effect) : List Effect := tr.takeWhile (fun e => !isIoSetup e)

/-- How many effects of a kind there are since then. -/
def since (p : Effect → Bool) (tr : List Effect) : Nat := (epoch tr).countP p

/-- The log since the head of the I/O completion queue was last published. -/
def unseen (tr : List Effect) : List Effect :=
  tr.takeWhile (fun e => !isIoSetup e && !isIoPublish e)

/-- How many effects of a kind there are since then. -/
def unpublished (p : Effect → Bool) (tr : List Effect) : Nat := (unseen tr).countP p

/-- A CQE of the I/O queue is consumed. -/
def isIoConsumed (e : Effect) : Bool := isIoCqe e || isIoStray e

theorem since_cons (he : isIoSetup e = false) :
    since p (e :: tr) = since p tr + if p e then 1 else 0 := by
  unfold since epoch
  rw [List.takeWhile_cons_of_pos (by simp [he]), List.countP_cons]

theorem since_setup : since p (.queueSetup .io :: tr) = 0 := rfl

theorem unpublished_cons (he : isIoSetup e = false) (hp : isIoPublish e = false) :
    unpublished p (e :: tr) = unpublished p tr + if p e then 1 else 0 := by
  unfold unpublished unseen
  rw [List.takeWhile_cons_of_pos (by simp [he, hp]), List.countP_cons]

theorem unpublished_setup : unpublished p (.queueSetup .io :: tr) = 0 := rfl

theorem unpublished_publish {head : Nat} :
    unpublished p (.cqDoorbell .io head :: tr) = 0 := rfl

theorem ringMark_false (he : ringMark e = false) :
    isIoSetup e = false ∧ isIoPublish e = false ∧ isIoSqe e = false ∧ isIoCqe e = false ∧
      isIoStray e = false ∧ isIoCancel e = false ∧ isIoRefusal e = false := by
  unfold ringMark at he
  simp only [Bool.or_eq_false_iff] at he
  obtain ⟨⟨⟨⟨⟨⟨h₁, h₂⟩, h₃⟩, h₄⟩, h₅⟩, h₆⟩, h₇⟩ := he
  exact ⟨h₁, h₂, h₃, h₄, h₅, h₆, h₇⟩

theorem since_unmarked (hp : ∀ e, p e = true → ringMark e = true) (hl : Unmarked l) :
    since p (l ++ tr) = since p tr := by
  induction l with
  | nil => rfl
  | cons e l ih =>
      have he := hl e (List.mem_cons_self ..)
      have hpe : p e = false := by
        by_contra h
        exact Bool.noConfusion (he.symm.trans (hp e (by simpa using h)))
      rw [List.cons_append, since_cons (ringMark_false he).1,
        ih (fun e' he' => hl e' (List.mem_cons_of_mem _ he')), hpe]
      rfl

theorem unpublished_unmarked (hp : ∀ e, p e = true → ringMark e = true) (hl : Unmarked l) :
    unpublished p (l ++ tr) = unpublished p tr := by
  induction l with
  | nil => rfl
  | cons e l ih =>
      have he := hl e (List.mem_cons_self ..)
      have hpe : p e = false := by
        by_contra h
        exact Bool.noConfusion (he.symm.trans (hp e (by simpa using h)))
      rw [List.cons_append, unpublished_cons (ringMark_false he).1 (ringMark_false he).2.1,
        ih (fun e' he' => hl e' (List.mem_cons_of_mem _ he')), hpe]
      rfl

/-- The commands written for a CID, and the ones answered. -/
def isSqeOf (f : Nat → Nat → Bool) : Effect → Bool
  | .sqe _ r _ => r.q == .io && f r.cid r.id
  | _ => false

def isCqeOf (f : Nat → Nat → Bool) : Effect → Bool
  | .cqe .io cid n _ => f cid n
  | _ => false

theorem ringMark_sqe (h : isIoSqe e = true) : ringMark e = true := by
  simp [ringMark, h]

theorem ringMark_cqe (h : isIoCqe e = true) : ringMark e = true := by
  simp [ringMark, h]

theorem ringMark_stray (h : isIoStray e = true) : ringMark e = true := by
  simp [ringMark, h]

theorem ringMark_cancel (h : isIoCancel e = true) : ringMark e = true := by
  simp [ringMark, h]

theorem ringMark_consumed (h : isIoConsumed e = true) : ringMark e = true := by
  unfold isIoConsumed at h
  rcases Bool.or_eq_true _ _ ▸ h with h | h
  · exact ringMark_cqe h
  · exact ringMark_stray h

theorem ringMark_sqeOf {f : Nat → Nat → Bool} (h : isSqeOf f e = true) : ringMark e = true := by
  refine ringMark_sqe ?_
  cases e with
  | sqe slot r owner => exact (Bool.and_eq_true _ _ ▸ h).1
  | _ => cases h

theorem ringMark_cqeOf {f : Nat → Nat → Bool} (h : isCqeOf f e = true) : ringMark e = true := by
  refine ringMark_cqe ?_
  cases e with
  | cqe q cid n st =>
      cases q with
      | admin => cases h
      | io => rfl
  | _ => cases h

/-- Marks of the I/O queue count as nothing else does. -/
theorem since_consumed : since isIoConsumed tr = since isIoCqe tr + since isIoStray tr := by
  unfold since
  induction epoch tr with
  | nil => rfl
  | cons e l ih =>
      have hone : (if isIoConsumed e then 1 else 0) =
          (if isIoCqe e then 1 else 0) + if isIoStray e then 1 else 0 := by
        cases e with
        | cqe q cid n st => cases q <;> rfl
        | strayCqe q cid => cases q <;> rfl
        | _ => rfl
      rw [List.countP_cons, List.countP_cons, List.countP_cons, ih, hone]
      omega

end Counting

/-! ### What each effect says about the log before it -/

section Events

variable {tr : List Effect} {e : Effect}

/-- The commands written for a CID, and those of them that were answered. -/
def issuedUnder (cid : Nat) (tr : List Effect) : Nat := since (isSqeOf (fun v _ => v == cid)) tr

def answeredUnder (cid : Nat) (tr : List Effect) : Nat := since (isCqeOf (fun v _ => v == cid)) tr

/-- The commands written for a request under a CID, and those that were answered. -/
def issuedTo (cid n : Nat) (tr : List Effect) : Nat :=
  since (isSqeOf (fun v m => v == cid && m == n)) tr

def answeredTo (cid n : Nat) (tr : List Effect) : Nat :=
  since (isCqeOf (fun v m => v == cid && m == n)) tr

/-- CQEs of the I/O queue that were consumed and given back to the controller. -/
def publishedCqes (tr : List Effect) : Nat := since isIoConsumed tr - unpublished isIoConsumed tr

/-- An SQE goes to the next slot, when the published head leaves room and a tag is free; a
refusal means that the published head leaves none.  While no command is force-completed, a
command is written for a CID that has none outstanding, a CQE completes the request of the
one that its CID has, and a CQE that matches no command is for a CID that has none. -/
def EventOk (tr : List Effect) : Effect → Prop
  | .sqe slot r _ =>
      r.q = .io →
        slot = since isIoSqe tr % nvmeIoQueueSize ∧
          since isIoSqe tr + 1 + unpublished isIoConsumed tr <
            nvmeIoQueueSize + since isIoConsumed tr ∧
          since isIoSqe tr < nvmeIoQueueSize + since isIoCqe tr + since isIoCancel tr ∧
          (since isIoSqe tr + 1) % nvmeIoQueueSize ≠ publishedCqes tr % nvmeIoQueueSize ∧
          (since isIoCancel tr = 0 → issuedUnder r.cid tr = answeredUnder r.cid tr)
  | .sqFull .io => (since isIoSqe tr + 1) % nvmeIoQueueSize = publishedCqes tr % nvmeIoQueueSize
  | .cqe .io cid n _ =>
      since isIoCqe tr + since isIoCancel tr < since isIoSqe tr ∧
        (since isIoCancel tr = 0 →
          issuedUnder cid tr = answeredUnder cid tr + 1 ∧
            ∀ m, issuedTo cid m tr = answeredTo cid m tr + if m = n then 1 else 0)
  | .cancel .io _ => since isIoCqe tr + since isIoCancel tr < since isIoSqe tr
  | .strayCqe .io cid => since isIoCancel tr = 0 → issuedUnder cid tr = answeredUnder cid tr
  | _ => True

/-- Every effect of the log is in order. -/
def LogOk : List Effect → Prop := Ordered EventOk

theorem eventOk_unmarked {e : Effect} {tr : List Effect} (he : ringMark e = false) :
    EventOk tr e := by
  cases e with
  | sqe slot r owner =>
      intro hq
      exact Bool.noConfusion (he.symm.trans (ringMark_sqe (beq_iff_eq.mpr hq)))
  | sqFull q =>
      cases q with
      | admin => trivial
      | io => cases he
  | cqe q cid n st =>
      cases q with
      | admin => trivial
      | io => cases he
  | cancel q n =>
      cases q with
      | admin => trivial
      | io => cases he
  | strayCqe q cid =>
      cases q with
      | admin => trivial
      | io => cases he
  | _ => trivial

theorem LogOk.unmarked {l tr : List Effect} (hl : Unmarked l) (htr : LogOk tr) :
    LogOk (l ++ tr) :=
  Ordered.append (fun e he _ => eventOk_unmarked (hl e he)) htr

theorem EventOk.room (hok : EventOk tr e) (he : isIoSqe e = true) :
    since isIoSqe tr + 1 + unpublished isIoConsumed tr <
      nvmeIoQueueSize + since isIoConsumed tr := by
  cases e with
  | sqe slot r owner => exact (hok (beq_iff_eq.mp he)).2.1
  | _ => cases he

/-- A command is answered or force-completed only while one is outstanding. -/
theorem EventOk.outstanding (hok : EventOk tr e)
    (hless : since isIoCqe tr + since isIoCancel tr ≤ since isIoSqe tr) :
    since isIoCqe tr + since isIoCancel tr + (if isIoCqe e then 1 else 0) +
      (if isIoCancel e then 1 else 0) ≤ since isIoSqe tr := by
  cases e with
  | cqe q cid n st =>
      cases q with
      | admin => exact hless
      | io => exact hok.1
  | cancel q n =>
      cases q with
      | admin => exact hless
      | io => exact hok
  | _ => exact hless

theorem isIoSetup_eq (he : isIoSetup e = true) : e = .queueSetup .io := by
  cases e with
  | queueSetup q =>
      cases q with
      | admin => cases he
      | io => rfl
  | _ => cases he

theorem isIoPublish_eq (he : isIoPublish e = true) : ∃ head, e = .cqDoorbell .io head := by
  cases e with
  | cqDoorbell q head =>
      cases q with
      | admin => cases he
      | io => exact ⟨head, rfl⟩
  | _ => cases he

/-- The SQEs are never a ring ahead of the published head, and no more commands are
accounted for than were written. -/
theorem LogOk.counts (h : LogOk tr) :
    since isIoSqe tr + unpublished isIoConsumed tr < nvmeIoQueueSize + since isIoConsumed tr ∧
      unpublished isIoConsumed tr ≤ since isIoConsumed tr ∧
      since isIoCqe tr + since isIoCancel tr ≤ since isIoSqe tr := by
  induction tr with
  | nil => exact ⟨by decide, Nat.le_refl _, Nat.le_refl _⟩
  | cons e tr ih =>
      obtain ⟨hbound, hseen, hless⟩ := ih h.2
      by_cases hset : isIoSetup e = true
      · rw [isIoSetup_eq hset, since_setup, since_setup, since_setup, since_setup,
          unpublished_setup]
        exact ⟨by decide, Nat.le_refl _, Nat.le_refl _⟩
      rw [Bool.not_eq_true] at hset
      by_cases hpub : isIoPublish e = true
      · obtain ⟨head, rfl⟩ := isIoPublish_eq hpub
        rw [since_cons hset, since_cons hset, since_cons hset, since_cons hset,
          unpublished_publish]
        exact ⟨by simp only [isIoSqe, isIoConsumed, isIoCqe, isIoStray, Bool.or_self,
          Bool.false_eq_true, if_false]; omega, Nat.zero_le _, hless⟩
      rw [Bool.not_eq_true] at hpub
      rw [since_cons hset, since_cons hset, since_cons hset, since_cons hset,
        unpublished_cons hset hpub]
      have hroom := EventOk.room h.1
      have hout := EventOk.outstanding h.1 hless
      refine ⟨?_, by omega, by omega⟩
      by_cases hsqe : isIoSqe e = true
      · rw [if_pos hsqe]
        have := hroom hsqe
        omega
      · rw [if_neg hsqe]
        omega

/-- While every CQE belongs to a command, no more CQEs are published than commands were
written. -/
theorem LogOk.published_le (h : LogOk tr) (hstray : since isIoStray tr = 0) :
    publishedCqes tr ≤ since isIoSqe tr := by
  obtain ⟨-, -, hless⟩ := h.counts
  unfold publishedCqes
  rw [since_consumed, hstray]
  omega

end Events

/-! ### The ring -/

section Ring

/-- The I/O ring says what the log counts. -/
structure RingCount (g : Cfg) : Prop where
  depth : g.core.ioTab.present = true → g.core.ioTab.depth = nvmeIoQueueSize
  tail : g.core.ioTab.present = true →
    (g.core.ring .io).sqTail = since isIoSqe g.core.trace % nvmeIoQueueSize
  head : g.core.ioTab.present = true →
    (g.core.ring .io).cqHead =
      (since isIoConsumed g.core.trace - g.hand.ahead) % nvmeIoQueueSize
  ahead : g.hand.ahead = unpublished isIoConsumed g.core.trace
  seen : g.hand.ahead ≤ since isIoConsumed g.core.trace
  bound : g.core.ioTab.present = true →
    since isIoSqe g.core.trace + g.hand.ahead <
      nvmeIoQueueSize + since isIoConsumed g.core.trace
  inflight : g.core.ioTab.present = true →
    since isIoSqe g.core.trace =
      heldBy (fun _ _ => true) g.core + since isIoCqe g.core.trace + since isIoCancel g.core.trace
  cids : g.core.ioTab.present = true → since isIoCancel g.core.trace = 0 → ∀ f,
    since (isSqeOf f) g.core.trace = heldBy f g.core + since (isCqeOf f) g.core.trace
  log : LogOk g.core.trace

variable {env : Env} {P : Policy} {g g' : Cfg}

/-- Effects of other queues change nothing the log counts. -/
theorem RingCount.rest {l : List Effect} (hold : RingCount g) (hsame : SameRing g g')
    (hheld : ∀ f, heldBy f g'.core = heldBy f g.core) (hahead : g'.hand.ahead = g.hand.ahead)
    (htrace : g'.core.trace = l ++ g.core.trace) (hl : Unmarked l) : RingCount g' := by
  have hcount : ∀ p : Effect → Bool, (∀ e, p e = true → ringMark e = true) →
      since p g'.core.trace = since p g.core.trace := fun p hp => by
    rw [htrace, since_unmarked hp hl]
  have hsqe := hcount isIoSqe (fun _ => ringMark_sqe)
  have hcqe := hcount isIoCqe (fun _ => ringMark_cqe)
  have hcon := hcount isIoConsumed (fun _ => ringMark_consumed)
  have hcan := hcount isIoCancel (fun _ => ringMark_cancel)
  constructor
  case depth =>
    rw [hsame.present, hsame.depth]
    exact hold.depth
  case tail =>
    rw [hsame.present, hsame.tail, hsqe]
    exact hold.tail
  case head =>
    rw [hsame.present, hsame.head, hcon, hahead]
    exact hold.head
  case ahead =>
    rw [hahead, htrace, unpublished_unmarked (fun _ => ringMark_consumed) hl]
    exact hold.ahead
  case seen =>
    rw [hahead, hcon]
    exact hold.seen
  case bound =>
    rw [hsame.present, hsqe, hcon, hahead]
    exact hold.bound
  case inflight =>
    rw [hsame.present, hsqe, hcqe, hcan, hheld]
    exact hold.inflight
  case cids =>
    rw [hsame.present, hcan]
    intro hpres hnone f
    rw [hcount _ (fun _ => ringMark_sqeOf), hcount _ (fun _ => ringMark_cqeOf), hheld]
    exact hold.cids hpres hnone f
  case log =>
    rw [htrace]
    exact .unmarked hl hold.log

/-- An effect on the I/O queue other than its setup and the publication of its head. -/
theorem RingCount.counts {e : Effect} (hold : RingCount g) (hset : isIoSetup e = false)
    (hpub : isIoPublish e = false) (htrace : g'.core.trace = e :: g.core.trace) :
    (∀ p, since p g'.core.trace = since p g.core.trace + if p e then 1 else 0) ∧
      unpublished isIoConsumed g'.core.trace =
        g.hand.ahead + if isIoConsumed e then 1 else 0 := by
  rw [htrace, unpublished_cons hset hpub, hold.ahead]
  exact ⟨fun p => since_cons hset, rfl⟩

theorem RingCount.push {r : Request} {owner : Option Nat} (hold : RingCount g)
    (hs' : Safe g') (hq : r.q = .io) (hpres : g.core.ioTab.present = true)
    (hdepth : g'.core.ioTab.depth = g.core.ioTab.depth)
    (hroom : ¬RingFull g.core.ioTab.depth (g.core.ring .io))
    (htail : (g'.core.ring .io).sqTail = ((g.core.ring .io).sqTail + 1) % g.core.ioTab.depth)
    (hhead : (g'.core.ring .io).cqHead = (g.core.ring .io).cqHead)
    (hheld : ∀ f, heldBy f g'.core = heldBy f g.core + if f r.cid r.id then 1 else 0)
    (hahead : g'.hand.ahead = g.hand.ahead)
    (htrace : g'.core.trace = .sqe (g.core.ring .io).sqTail r owner :: g.core.trace) :
    RingCount g' := by
  have hio : isIoSqe (.sqe (g.core.ring .io).sqTail r owner) = true := beq_iff_eq.mpr hq
  obtain ⟨hcount, hun⟩ := hold.counts rfl rfl htrace
  have hsqe := hcount isIoSqe
  have hcqe := hcount isIoCqe
  have hcon := hcount isIoConsumed
  have hcan := hcount isIoCancel
  rw [if_pos hio] at hsqe
  rw [if_neg (by simp [isIoCqe])] at hcqe
  rw [if_neg (by simp [isIoConsumed, isIoCqe, isIoStray])] at hcon hun
  rw [if_neg (by simp [isIoCancel])] at hcan
  have hD := hold.depth hpres
  have hbound := hold.bound hpres
  have hseen := hold.seen
  have hslot := hold.tail hpres
  have hne : (since isIoSqe g.core.trace + 1) % nvmeIoQueueSize ≠
      (since isIoConsumed g.core.trace - g.hand.ahead) % nvmeIoQueueSize := by
    intro heq
    refine hroom ?_
    unfold RingFull
    rw [hD, hslot, hold.head hpres, Nat.mod_add_mod]
    exact heq
  have hmore := room_of_slot_ne (by omega) hne
  have hspare : heldBy (fun _ _ => true) g'.core ≤ nvmeIoQueueSize := by
    have hle := Slots.held_le_length (fun _ : Request => true) (g'.core.tab .io).inflight
    have hlen : (g'.core.tab .io).inflight.length = nvmeIoQueueSize :=
      (hs'.tabs .io).length.trans (hdepth.trans hD)
    rw [hlen] at hle
    exact hle
  have hall := hheld (fun _ _ => true)
  rw [if_pos rfl] at hall
  have hinf := hold.inflight hpres
  constructor
  case depth =>
    intro _
    rw [hdepth, hD]
  case tail =>
    intro _
    rw [htail, hD, hslot, hsqe, Nat.mod_add_mod]
  case head =>
    intro _
    rw [hhead, hcon, hahead]
    exact hold.head hpres
  case ahead =>
    rw [hahead, hun]
    rfl
  case seen =>
    rw [hahead, hcon]
    exact hseen
  case bound =>
    intro _
    rw [hahead, hsqe, hcon]
    omega
  case inflight =>
    intro _
    rw [hsqe, hcqe, hcan, hall]
    omega
  case cids =>
    intro _ hnone f
    have hold' := hold.cids hpres (by omega) f
    rw [hcount, hcount, hheld]
    have hof : isSqeOf f (.sqe (g.core.ring .io).sqTail r owner) = f r.cid r.id := by
      simp [isSqeOf, hq]
    have hno : isCqeOf f (.sqe (g.core.ring .io).sqTail r owner) = false := rfl
    rw [hof, hno, hold']
    simp only [Bool.false_eq_true, if_false]
    omega
  case log =>
    rw [htrace]
    refine ⟨fun _ => ⟨hslot, ?_, ?_, ?_, ?_⟩, hold.log⟩
    · rw [← hold.ahead]
      omega
    · omega
    · unfold publishedCqes
      rw [← hold.ahead]
      exact hne
    · intro hnone
      have hone := hs'.heldBy_le_one (f := fun v _ => v == r.cid) (fun _ _ => beq_iff_eq.mp)
      rw [hheld, if_pos (beq_self_eq_true _)] at hone
      have hold' := hold.cids hpres hnone (fun v _ => v == r.cid)
      unfold issuedUnder answeredUnder
      omega

/-- A command is answered, or force-completed. -/
theorem RingCount.drop {e : Effect} {cid n : Nat} (hold : RingCount g) (hs : Safe g)
    (hsame : SameRing g g') (hpres : g.core.ioTab.present = true)
    (hheld : ∀ f, heldBy f g'.core + (if f cid n then 1 else 0) = heldBy f g.core)
    (htrace : g'.core.trace = e :: g.core.trace)
    (hkind : (∃ st, e = .cqe .io cid n st ∧ g'.hand.ahead = g.hand.ahead + 1) ∨
      e = .cancel .io n ∧ g'.hand.ahead = g.hand.ahead) : RingCount g' := by
  have hset : isIoSetup e = false ∧ isIoPublish e = false ∧ isIoSqe e = false := by
    rcases hkind with ⟨st, rfl, -⟩ | ⟨rfl, -⟩ <;> exact ⟨rfl, rfl, rfl⟩
  obtain ⟨hcount, hun⟩ := hold.counts hset.1 hset.2.1 htrace
  have hsqe := hcount isIoSqe
  rw [if_neg (by simp [hset.2.2])] at hsqe
  have hcon := hcount isIoConsumed
  have hahead : g'.hand.ahead = g.hand.ahead + if isIoConsumed e then 1 else 0 := by
    rcases hkind with ⟨st, rfl, h⟩ | ⟨rfl, h⟩
    · exact h
    · exact h
  have hall := hheld (fun _ _ => true)
  rw [if_pos rfl] at hall
  have hseen := hold.seen
  constructor
  case depth =>
    rw [hsame.present, hsame.depth]
    exact hold.depth
  case tail =>
    rw [hsame.present, hsame.tail, hsqe]
    exact hold.tail
  case head =>
    rw [hsame.present, hsame.head, hcon, hahead, Nat.add_sub_add_right]
    exact hold.head
  case ahead =>
    rw [hahead, hun]
  case seen =>
    rw [hahead, hcon]
    omega
  case bound =>
    rw [hsame.present]
    intro hpres
    have hbound := hold.bound hpres
    rw [hahead, hsqe, hcon]
    omega
  case inflight =>
    rw [hsame.present]
    intro hpres
    have hinf := hold.inflight hpres
    rw [hsqe, hcount, hcount]
    rcases hkind with ⟨st, rfl, -⟩ | ⟨rfl, -⟩
    · rw [if_pos (by rfl), if_neg (by simp [isIoCancel])]
      omega
    · rw [if_neg (by simp [isIoCqe]), if_pos (by rfl)]
      omega
  case cids =>
    rw [hsame.present, hcount isIoCancel]
    intro hpres hnone f
    rcases hkind with ⟨st, rfl, -⟩ | ⟨rfl, -⟩
    · have hold' := hold.cids hpres (by omega) f
      have hf := hheld f
      rw [hcount, hcount, if_neg (by simp [isSqeOf])]
      have hof : isCqeOf f (.cqe .io cid n st) = f cid n := rfl
      rw [hof]
      omega
    · rw [if_pos (by rfl)] at hnone
      exact absurd hnone (Nat.succ_ne_zero _)
  case log =>
    rw [htrace]
    have hinf := hold.inflight hpres
    have hless : since isIoCqe g.core.trace + since isIoCancel g.core.trace <
        since isIoSqe g.core.trace := by omega
    rcases hkind with ⟨st, rfl, -⟩ | ⟨rfl, -⟩
    · refine ⟨⟨hless, fun hnone => ⟨?_, ?_⟩⟩, hold.log⟩
      · have hold' := hold.cids hpres hnone (fun v _ => v == cid)
        have hone := hs.heldBy_le_one (f := fun v _ => v == cid) (fun _ _ => beq_iff_eq.mp)
        have hcid := hheld (fun v _ => v == cid)
        rw [if_pos (beq_self_eq_true _)] at hcid
        unfold issuedUnder answeredUnder
        omega
      · intro m
        have hold' := hold.cids hpres hnone (fun v k => v == cid && k == m)
        have hone := hs.heldBy_le_one (f := fun v _ => v == cid) (fun _ _ => beq_iff_eq.mp)
        have hcid := hheld (fun v _ => v == cid)
        rw [if_pos (beq_self_eq_true _)] at hcid
        have hpair := hheld (fun v k => v == cid && k == m)
        have himp : ∀ v k, (v == cid && k == m) = true → (v == cid) = true :=
          fun _ _ h => (Bool.and_eq_true _ _ ▸ h).1
        have hle := heldBy_le (c := g'.core) himp
        have hif : (if (cid == cid && n == m) = true then 1 else 0) = if m = n then 1 else 0 := by
          by_cases hmn : m = n
          · rw [if_pos hmn, if_pos (by simp [hmn])]
          · rw [if_neg hmn, if_neg (by simp [Ne.symm hmn])]
        unfold issuedTo answeredTo
        omega
    · exact ⟨hless, hold.log⟩

/-- An entry is consumed that matches no command, or a submission is refused. -/
theorem RingCount.pass {e : Effect} (hold : RingCount g) (hsame : SameRing g g')
    (hheld : ∀ f, heldBy f g'.core = heldBy f g.core)
    (htrace : g'.core.trace = e :: g.core.trace) (hok : EventOk g.core.trace e)
    (hkind : (∃ cid, e = .strayCqe .io cid ∧ g'.hand.ahead = g.hand.ahead + 1) ∨
      e = .sqFull .io ∧ g'.hand.ahead = g.hand.ahead) : RingCount g' := by
  have hset : isIoSetup e = false ∧ isIoPublish e = false ∧ isIoSqe e = false ∧
      isIoCqe e = false ∧ isIoCancel e = false := by
    rcases hkind with ⟨cid, rfl, -⟩ | ⟨rfl, -⟩ <;> exact ⟨rfl, rfl, rfl, rfl, rfl⟩
  obtain ⟨hcount, hun⟩ := hold.counts hset.1 hset.2.1 htrace
  have hsqe := hcount isIoSqe
  rw [if_neg (by simp [hset.2.2.1])] at hsqe
  have hcon := hcount isIoConsumed
  have hahead : g'.hand.ahead = g.hand.ahead + if isIoConsumed e then 1 else 0 := by
    rcases hkind with ⟨cid, rfl, h⟩ | ⟨rfl, h⟩
    · exact h
    · exact h
  have hseen := hold.seen
  constructor
  case depth =>
    rw [hsame.present, hsame.depth]
    exact hold.depth
  case tail =>
    rw [hsame.present, hsame.tail, hsqe]
    exact hold.tail
  case head =>
    rw [hsame.present, hsame.head, hcon, hahead, Nat.add_sub_add_right]
    exact hold.head
  case ahead =>
    rw [hahead, hun]
  case seen =>
    rw [hahead, hcon]
    omega
  case bound =>
    rw [hsame.present]
    intro hpres
    have hbound := hold.bound hpres
    rw [hahead, hsqe, hcon]
    omega
  case inflight =>
    rw [hsame.present, hsqe, hcount, hcount, hheld, if_neg (by simp [hset.2.2.2.1]),
      if_neg (by simp [hset.2.2.2.2])]
    exact hold.inflight
  case cids =>
    rw [hsame.present, hcount isIoCancel, if_neg (by simp [hset.2.2.2.2])]
    intro hpres hnone f
    have hof : isSqeOf f e = false ∧ isCqeOf f e = false := by
      rcases hkind with ⟨cid, rfl, -⟩ | ⟨rfl, -⟩ <;> exact ⟨rfl, rfl⟩
    rw [hcount, hcount, hheld, if_neg (by simp [hof.1]), if_neg (by simp [hof.2])]
    exact hold.cids hpres hnone f
  case log =>
    rw [htrace]
    exact ⟨hok, hold.log⟩

theorem RingCount.publish {head : Nat} (hold : RingCount g)
    (htail : (g'.core.ring .io).sqTail = (g.core.ring .io).sqTail)
    (hhead : (g'.core.ring .io).cqHead =
      ((g.core.ring .io).cqHead + g.hand.ahead) % g.core.ioTab.depth)
    (htab : g'.core.ioTab = g.core.ioTab) (hahead : g'.hand.ahead = 0)
    (htrace : g'.core.trace = .cqDoorbell .io head :: g.core.trace) : RingCount g' := by
  have hcount : ∀ p : Effect → Bool, p (.cqDoorbell .io head) = false →
      since p g'.core.trace = since p g.core.trace := by
    intro p hp
    rw [htrace, since_cons rfl, hp]
    rfl
  have hcon := hcount isIoConsumed rfl
  have hseen := hold.seen
  constructor
  case depth =>
    rw [htab]
    exact hold.depth
  case tail =>
    rw [htab, htail, hcount isIoSqe rfl]
    exact hold.tail
  case head =>
    rw [htab]
    intro hpres
    rw [hhead, hold.depth hpres, hold.head hpres, hcon, hahead, Nat.mod_add_mod,
      Nat.sub_add_cancel hseen, Nat.sub_zero]
  case ahead =>
    rw [hahead, htrace, unpublished_publish]
  case seen =>
    rw [hahead]
    exact Nat.zero_le _
  case bound =>
    rw [htab, hcount isIoSqe rfl, hcon, hahead]
    intro hpres
    have hbound := hold.bound hpres
    omega
  case inflight =>
    unfold heldBy
    rw [htab, hcount isIoSqe rfl, hcount isIoCqe rfl, hcount isIoCancel rfl]
    exact hold.inflight
  case cids =>
    unfold heldBy
    rw [htab, hcount isIoCancel rfl]
    intro hpres hnone f
    rw [hcount (isSqeOf f) rfl, hcount (isCqeOf f) rfl]
    exact hold.cids hpres hnone f
  case log =>
    rw [htrace]
    exact ⟨trivial, hold.log⟩

theorem RingCount.down {l : List Effect} (hold : RingCount g)
    (hpres : g'.core.ioTab.present = false) (hahead : g.hand.ahead = 0 ∧ g'.hand.ahead = 0)
    (htrace : g'.core.trace = l ++ g.core.trace) (hl : Unmarked l) : RingCount g' := by
  have hno : ¬g'.core.ioTab.present = true := by simp [hpres]
  constructor
  case ahead =>
    rw [hahead.2, htrace, unpublished_unmarked (fun _ => ringMark_consumed) hl, ← hold.ahead]
    exact hahead.1.symm
  case seen =>
    rw [hahead.2]
    exact Nat.zero_le _
  case log =>
    rw [htrace]
    exact .unmarked hl hold.log
  all_goals exact fun h => absurd h hno

theorem RingCount.up {skip : Bool} (hlog : LogOk g.core.trace)
    (htab : g'.core.ioTab = SlotTable.fresh nvmeIoQueueSize skip)
    (hring : g'.core.ring .io = Ring.fresh) (hahead : g'.hand.ahead = 0)
    (htrace : g'.core.trace = .queueSetup .io :: g.core.trace) : RingCount g' := by
  have hcount : ∀ p, since p g'.core.trace = 0 := by
    intro p
    rw [htrace, since_setup]
  have hheld : ∀ f, heldBy f g'.core = 0 := by
    intro f
    unfold heldBy
    rw [htab]
    exact Slots.held_replicate_none _ _
  constructor
  case depth =>
    rw [htab]
    exact fun _ => rfl
  case tail =>
    rw [hring, hcount]
    exact fun _ => rfl
  case head =>
    rw [hring, hcount, hahead]
    exact fun _ => rfl
  case ahead => rw [hahead, htrace, unpublished_setup]
  case seen =>
    rw [hahead]
    exact Nat.zero_le _
  case bound =>
    rw [hcount, hcount, hahead]
    exact fun _ => by decide
  case inflight =>
    rw [hcount, hcount, hcount, hheld]
    exact fun _ => rfl
  case cids =>
    intro _ _ f
    rw [hcount, hcount, hheld]
  case log =>
    rw [htrace]
    exact ⟨trivial, hlog⟩

theorem RingStep.keeps_count (hs : Safe g) (hs' : Safe g') (hstep : RingStep P g g')
    (hold : RingCount g) : RingCount g' := by
  cases hstep with
  | rest hsame hheld hahead htrace hl => exact hold.rest hsame hheld hahead htrace hl
  | @push l r owner hq hpres hpres' hdepth hroom htail hhead hheld hahead htrace hl =>
      have hmid : RingCount ⟨{ g.core with trace := l ++ g.core.trace }, g.hand⟩ :=
        hold.rest ⟨rfl, rfl, rfl, rfl⟩ (fun _ => rfl) rfl rfl hl
      exact hmid.push hs' hq hpres hdepth hroom htail hhead hheld hahead htrace
  | @answer cid n st hsame hpres hheld hahead htrace =>
      exact hold.drop hs hsame hpres hheld htrace (.inl ⟨st, rfl, hahead⟩)
  | @cancel cid n hcancel hsame hpres hheld hahead htrace =>
      exact hold.drop hs hsame hpres hheld htrace (.inr ⟨rfl, hahead⟩)
  | @stray cid hsame hpres hstray hnone hheld hahead htrace =>
      refine hold.pass hsame hheld htrace ?_ (.inl ⟨cid, rfl, hahead⟩)
      intro hno
      have hcid := hold.cids hpres hno (fun v _ => v == cid)
      rw [hnone, Nat.zero_add] at hcid
      exact hcid
  | refuse hsame htab hpres hfull hahead htrace =>
      refine hold.pass hsame ?_ htrace ?_ (.inr ⟨rfl, hahead⟩)
      · intro f
        unfold heldBy
        rw [htab]
      · unfold RingFull at hfull
        rw [hold.depth hpres, hold.tail hpres, hold.head hpres, Nat.mod_add_mod,
          hold.ahead] at hfull
        exact hfull
  | publish htail hhead htab hahead htrace => exact hold.publish htail hhead htab hahead htrace
  | down hpres hahead htrace hl => exact hold.down hpres hahead htrace hl
  | up htab hring hahead htrace => exact .up hold.log htab hring hahead.2 htrace

theorem keeps_ringCount (env : Env) (P : Policy) :
    Keeps (Move env P) (fun g => Safe g ∧ RingCount g) := by
  rintro g g' ⟨hs, hcount⟩ hm
  have hs' := keeps_safe env P g g' hs hm
  exact ⟨hs', (hm.ringStep hs).keeps_count hs hs' hcount⟩

end Ring

end Ownership
end NvmeDriver
