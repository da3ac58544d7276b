import NvmeDriver.Engine.Loop
import NvmeDriver.Lib.Laps

/-!
# The completion ring

`drain_cq` and `nvme_cq_pending` against a controller that posts completions at
any time: memory, the processor's cache of it, the phase bits and the doorbell.
`Engine.drainCq` starts from the entries a pass finds; this module shows which
entries those are.

Four CQEs share a cache line, and a read sees memory as of the last invalidate
of its line.  The body of the loop runs `nvme_complete_rq`, which may take any time
or never return.  A pass that consumed something ends with three stores: `cq_head`,
`cq_phase` and the head doorbell; the interrupt server and the controller can fall
between them.  `posted` and `consumed` are histories, oldest first; `published`
counts the entries that `cq_head` and `cq_phase` have passed, `rung` those given
back through the doorbell.
-/

namespace NvmeDriver
namespace CompletionRing

open Engine
open Lib

/-! ### Model -/

/-- One entry of the ring, with its phase bit. -/
structure Entry where
  cqe : Cqe
  phase : Bool

/-- Where the pass of `drain_cq` is, with its local variables; `line` is
`inval_line`. -/
inductive Pass
  | idle
  /-- before the invalidate -/
  | invalidate (head : Nat) (phase : Bool) (line : Option Nat) (drained : Nat)
  /-- before the read -/
  | read (head : Nat) (phase : Bool) (line : Option Nat) (drained : Nat)
  /-- in `nvme_complete_rq` for the entry at `head`, or logging a stale one -/
  | handle (head : Nat) (phase : Bool) (line : Option Nat) (drained : Nat)
  /-- before the store of `cq_head` -/
  | storeHead (head : Nat) (phase : Bool)
  /-- before the store of `cq_phase` -/
  | storePhase (head : Nat) (phase : Bool)
  /-- before the write of the doorbell -/
  | announce (head : Nat)

/-- The ring, its controller and the driver's view of it. -/
structure Ring where
  depth : Nat
  mem : Nat → Entry
  /-- the controller's next slot and phase -/
  tail : Nat
  tailPhase : Bool
  /-- the CQ head doorbell -/
  doorbell : Nat
  cache : Nat → Entry
  cqHead : Nat
  cqPhase : Bool
  pass : Pass
  posted : List Cqe
  consumed : List Cqe
  published : Nat
  rung : Nat

/-- Zeroed memory. -/
def Entry.zero : Entry := { cqe := ⟨0, 0, 0⟩, phase := false }

/-- The ring after `nvme_setup_queue`. -/
def Ring.fresh (depth : Nat) : Ring :=
  { depth := depth, mem := fun _ => Entry.zero, tail := 0, tailPhase := true
    doorbell := 0, cache := fun _ => Entry.zero, cqHead := 0, cqPhase := true
    pass := .idle, posted := [], consumed := [], published := 0, rung := 0 }

/-- The cache line of a slot. -/
def lineOf (slot : Nat) : Nat := slot / 4

/-- `nvme_cache_inval` of the line of a slot. -/
def Ring.invalidate (r : Ring) (slot : Nat) : Ring :=
  { r with cache := fun i => if lineOf i = lineOf slot then r.mem i else r.cache i }

/-- The controller posts a completion, unless its ring is full. -/
def Ring.post (r : Ring) (cqe : Cqe) : Ring :=
  if (r.tail + 1) % r.depth = r.doorbell then r
  else
    let next := advanceHead r.depth r.tail r.tailPhase
    { r with
      mem := fun i => if i = r.tail then ⟨cqe, r.tailPhase⟩ else r.mem i
      tail := next.1, tailPhase := next.2, posted := r.posted ++ [cqe] }

/-- `nvme_cq_pending`. -/
def nvmeCqPending (r : Ring) : Ring × Bool :=
  let r₁ := r.invalidate r.cqHead
  (r₁, (r₁.cache r₁.cqHead).phase == r₁.cqPhase)

/-- `drain_cq` is entered. -/
def Ring.enter (r : Ring) : Ring :=
  match r.pass with
  | .idle => { r with pass := .invalidate r.cqHead r.cqPhase none 0 }
  | _ => r

/-- The next step of `drain_cq`; in a handler, whether it returns. -/
def Ring.turn (r : Ring) (returns : Bool) : Ring :=
  match r.pass with
  | .idle => r
  | .invalidate head phase line drained =>
      if line = some (lineOf head) then
        { r with pass := .read head phase line drained }
      else
        { r.invalidate head with pass := .read head phase (some (lineOf head)) drained }
  | .read head phase line drained =>
      let entry := r.cache head
      if entry.phase = phase then
        { r with
          consumed := r.consumed ++ [entry.cqe]
          pass := .handle head phase line drained }
      else if drained = 0 then { r with pass := .idle }
      else { r with pass := .storeHead head phase }
  | .handle head phase line drained =>
      if returns then
        let next := advanceHead r.depth head phase
        { r with pass := .invalidate next.1 next.2 line (drained + 1) }
      else r
  | .storeHead head phase => { r with cqHead := head, pass := .storePhase head phase }
  | .storePhase head phase =>
      { r with cqPhase := phase, published := r.consumed.length, pass := .announce head }
  | .announce head =>
      { r with doorbell := head, rung := r.consumed.length, pass := .idle }

/-- What can happen next. -/
inductive Event
  | post (cqe : Cqe)
  /-- the interrupt server looks -/
  | pending
  | enter
  | turn (returns : Bool)

def step (r : Ring) : Event → Ring
  | .post cqe => r.post cqe
  | .pending => (nvmeCqPending r).1
  | .enter => r.enter
  | .turn returns => r.turn returns

def run (events : List Event) (r : Ring) : Ring := events.foldl step r

/-! ### Invariant -/

/-- The slot shows what the first `n` completions have left there. -/
def Shows (depth : Nat) (posted : List Cqe) (n i : Nat) (e : Entry) : Prop :=
  (∀ k, k % depth = i → k < n → n ≤ k + depth →
    posted[k]? = some e.cqe ∧ e.phase = evenLap depth k) ∧
    (n ≤ i → e.phase = false)

section Shows

variable {depth n i k : Nat} {posted : List Cqe} {e : Entry}

theorem Shows.append (hs : Shows depth posted n i e) (hn : n ≤ posted.length) (cqe : Cqe) :
    Shows depth (posted ++ [cqe]) n i e := by
  refine ⟨?_, hs.2⟩
  intro k hk hlt hle
  rw [List.getElem?_append_left (by omega)]
  exact hs.1 k hk hlt hle

/-- The slot the controller writes next shows the new completion. -/
theorem shows_posted (posted : List Cqe) (cqe : Cqe) :
    Shows depth (posted ++ [cqe]) (posted.length + 1) (posted.length % depth)
      ⟨cqe, evenLap depth posted.length⟩ := by
  refine ⟨?_, ?_⟩
  · intro k hk hlt hle
    have hkn : k = posted.length := by
      by_contra hne
      exact mod_ne_of_close (by omega : k < posted.length) (by omega) hk
    subst hkn
    simp
  · intro hle
    have := Nat.mod_le posted.length depth
    omega

/-- The other slots show what they did. -/
theorem Shows.keep (hs : Shows depth posted posted.length i e) (cqe : Cqe)
    (hne : i ≠ posted.length % depth) :
    Shows depth (posted ++ [cqe]) (posted.length + 1) i e := by
  refine ⟨?_, ?_⟩
  · intro k hk hlt hle
    have hkn : k ≠ posted.length := by
      rintro rfl
      exact hne hk.symm
    rw [List.getElem?_append_left (by omega)]
    exact hs.1 k hk (by omega) (by omega)
  · intro hle
    exact hs.2 (by omega)

/-- The phase bit tells whether entry `k` has been posted, as long as the view is
less than a lap away. -/
theorem Shows.fresh_iff (hs : Shows depth posted n (k % depth) e) (hpos : 0 < depth)
    (hnew : n < k + depth) (hold : k < n + depth) :
    (e.phase = evenLap depth k ↔ k < n) ∧ (k < n → posted[k]? = some e.cqe) := by
  by_cases hlt : k < n
  · obtain ⟨hget, hphase⟩ := hs.1 k rfl hlt hnew.le
    exact ⟨⟨fun _ => hlt, fun _ => hphase⟩, fun _ => hget⟩
  · refine ⟨⟨?_, fun h => absurd h hlt⟩, fun h => absurd h hlt⟩
    intro hphase
    exfalso
    by_cases hlap : depth ≤ k
    · obtain ⟨hslot, hflip⟩ := lap_before hpos hlap
      have hprev := (hs.1 (k - depth) hslot (by omega) (by omega)).2
      rw [hphase, hflip] at hprev
      cases h : evenLap depth k <;> simp [h] at hprev
    · have hsmall : k < depth := by omega
      have hmod : k % depth = k := Nat.mod_eq_of_lt hsmall
      have hfalse := hs.2 (by omega)
      rw [hphase, evenLap_of_lt hsmall] at hfalse
      cases hfalse

end Shows

/-- What a pass knows: its position, and that the line it reads from has been
invalidated since it began, when `floor` completions had been posted. -/
def PassOk (r : Ring) (seen : Nat → Nat) (floor : Nat) : Prop :=
  match r.pass with
  | .idle => r.rung = r.published ∧ r.published = r.consumed.length
  | .invalidate head phase line drained =>
      head = r.consumed.length % r.depth ∧ phase = evenLap r.depth r.consumed.length ∧
        r.consumed.length = r.published + drained ∧ r.rung = r.published ∧
        r.published ≤ floor ∧ floor ≤ r.posted.length ∧ ∀ l, line = some l → floor ≤ seen l
  | .read head phase line drained =>
      head = r.consumed.length % r.depth ∧ phase = evenLap r.depth r.consumed.length ∧
        r.consumed.length = r.published + drained ∧ r.rung = r.published ∧
        r.published ≤ floor ∧ floor ≤ r.posted.length ∧ line = some (lineOf head) ∧
        floor ≤ seen (lineOf head)
  | .handle head phase line drained =>
      head = (r.published + drained) % r.depth ∧
        phase = evenLap r.depth (r.published + drained) ∧
        r.consumed.length = r.published + drained + 1 ∧ r.rung = r.published ∧
        r.published ≤ floor ∧ floor ≤ r.posted.length ∧ ∀ l, line = some l → floor ≤ seen l
  | .storeHead head phase =>
      head = r.consumed.length % r.depth ∧ phase = evenLap r.depth r.consumed.length ∧
        r.published < r.consumed.length ∧ r.rung = r.published ∧ floor ≤ r.consumed.length
  | .storePhase head phase =>
      head = r.consumed.length % r.depth ∧ phase = evenLap r.depth r.consumed.length ∧
        r.published < r.consumed.length ∧ r.rung = r.published ∧ floor ≤ r.consumed.length
  | .announce head =>
      head = r.consumed.length % r.depth ∧ r.published = r.consumed.length ∧
        r.rung < r.published ∧ floor ≤ r.consumed.length

/-- The entry `cq_head` stands at: ahead of `cq_phase` between the two stores. -/
def Ring.headAt (r : Ring) : Nat :=
  match r.pass with
  | .storePhase _ _ => r.consumed.length
  | _ => r.published

/-- The invariant; `seen` is how much had been posted when a line was last
invalidated. -/
structure Inv (r : Ring) (seen : Nat → Nat) (floor : Nat) : Prop where
  pos : 0 < r.depth
  tail : r.tail = r.posted.length % r.depth
  tailPhase : r.tailPhase = evenLap r.depth r.posted.length
  doorbell : r.doorbell = r.rung % r.depth
  head : r.cqHead = r.headAt % r.depth
  phase : r.cqPhase = evenLap r.depth r.published
  behind : r.rung ≤ r.published ∧ r.published ≤ r.consumed.length
  room : r.posted.length < r.rung + r.depth
  order : r.consumed = r.posted.take r.consumed.length
  mem : ∀ i, i < r.depth → Shows r.depth r.posted r.posted.length i (r.mem i)
  past : ∀ l, seen l ≤ r.posted.length
  cache : ∀ i, i < r.depth → Shows r.depth r.posted (seen (lineOf i)) i (r.cache i)
  pass : PassOk r seen floor

section Steps

variable {r r' : Ring} {seen seen' : Nat → Nat} {floor : Nat}

/-- More posts and later invalidates leave a pass what it knows. -/
theorem PassOk.mono (hp : PassOk r seen floor) (hpass : r'.pass = r.pass)
    (hdepth : r'.depth = r.depth) (hconsumed : r'.consumed = r.consumed)
    (hpublished : r'.published = r.published) (hrung : r'.rung = r.rung)
    (hposted : r.posted.length ≤ r'.posted.length) (hseen : ∀ l, seen l ≤ seen' l) :
    PassOk r' seen' floor := by
  unfold PassOk at hp ⊢
  rw [hpass, hdepth, hconsumed, hpublished, hrung]
  cases hcase : r.pass with
  | idle =>
      rw [hcase] at hp
      exact hp
  | invalidate head phase line drained =>
      rw [hcase] at hp
      obtain ⟨h₁, h₂, h₃, h₄, h₅, h₆, h₇⟩ := hp
      exact ⟨h₁, h₂, h₃, h₄, h₅, h₆.trans hposted, fun l hl => (h₇ l hl).trans (hseen l)⟩
  | read head phase line drained =>
      rw [hcase] at hp
      obtain ⟨h₁, h₂, h₃, h₄, h₅, h₆, h₇, h₈⟩ := hp
      exact ⟨h₁, h₂, h₃, h₄, h₅, h₆.trans hposted, h₇, h₈.trans (hseen _)⟩
  | handle head phase line drained =>
      rw [hcase] at hp
      obtain ⟨h₁, h₂, h₃, h₄, h₅, h₆, h₇⟩ := hp
      exact ⟨h₁, h₂, h₃, h₄, h₅, h₆.trans hposted, fun l hl => (h₇ l hl).trans (hseen l)⟩
  | storeHead head phase =>
      rw [hcase] at hp
      exact hp
  | storePhase head phase =>
      rw [hcase] at hp
      exact hp
  | announce head =>
      rw [hcase] at hp
      exact hp

theorem Inv.consumed_le (hi : Inv r seen floor) : r.consumed.length ≤ r.posted.length := by
  have h := congrArg List.length hi.order
  rw [List.length_take] at h
  omega

/-- The positions of the ring are less than a lap apart. -/
theorem Inv.near (hi : Inv r seen floor) :
    r.rung ≤ r.published ∧ r.published ≤ r.consumed.length ∧
      r.consumed.length ≤ r.posted.length ∧ r.posted.length < r.rung + r.depth :=
  ⟨hi.behind.1, hi.behind.2, hi.consumed_le, hi.room⟩

theorem advanceHead_position {depth : Nat} (hpos : 0 < depth) (k : Nat) :
    advanceHead depth (k % depth) (evenLap depth k) =
      ((k + 1) % depth, evenLap depth (k + 1)) := by
  unfold advanceHead
  rcases succ_position hpos k with ⟨hwrap, hmod, hdiv⟩ | ⟨hin, hmod, hdiv⟩
  · rw [if_pos hwrap, hmod, evenLap_succ_of_wrap hdiv]
  · rw [if_neg (by omega), hmod]
    unfold evenLap
    rw [hdiv]

theorem inv_fresh {depth : Nat} (hpos : 0 < depth) : Inv (Ring.fresh depth) (fun _ => 0) 0 where
  pos := hpos
  tail := (Nat.zero_mod depth).symm
  tailPhase := (evenLap_of_lt hpos).symm
  doorbell := (Nat.zero_mod depth).symm
  head := (Nat.zero_mod depth).symm
  phase := (evenLap_of_lt hpos).symm
  behind := ⟨Nat.le_refl 0, Nat.le_refl 0⟩
  room := by simpa [Ring.fresh] using hpos
  order := rfl
  mem := fun i _ => ⟨fun k _ hlt => absurd hlt (Nat.not_lt_zero k), fun _ => rfl⟩
  past := fun _ => Nat.le_refl 0
  cache := fun i _ => ⟨fun k _ hlt => absurd hlt (Nat.not_lt_zero k), fun _ => rfl⟩
  pass := ⟨rfl, rfl⟩

theorem Inv.post (hi : Inv r seen floor) (cqe : Cqe) : Inv (r.post cqe) seen floor := by
  unfold Ring.post
  split
  · exact hi
  · rename_i hfull
    have hnext := advanceHead_position hi.pos r.posted.length
    rw [← hi.tail, ← hi.tailPhase] at hnext
    have hroom : r.posted.length + 1 < r.rung + r.depth := by
      by_contra hge
      apply hfull
      have hn : r.posted.length + 1 = r.rung + r.depth := by
        have := hi.room
        omega
      rw [hi.tail, hi.doorbell, Nat.mod_add_mod, hn, Nat.add_mod_right]
    have hlen : (r.posted ++ [cqe]).length = r.posted.length + 1 := List.length_append
    have hk := hi.consumed_le
    refine
      { pos := hi.pos, tail := ?_, tailPhase := ?_, doorbell := hi.doorbell, head := hi.head
        phase := hi.phase, behind := hi.behind, room := ?_, order := ?_, mem := ?_, past := ?_
        cache := ?_, pass := ?_ }
    · dsimp only
      rw [hnext, hlen]
    · dsimp only
      rw [hnext, hlen]
    · dsimp only
      rw [hlen]
      exact hroom
    · dsimp only
      rw [List.take_append_of_le_length hk]
      exact hi.order
    · intro i hlt
      dsimp only
      rw [hlen]
      split
      · rename_i he
        rw [he, hi.tail, hi.tailPhase]
        exact shows_posted r.posted cqe
      · rename_i hne
        rw [hi.tail] at hne
        exact (hi.mem i hlt).keep cqe hne
    · intro l
      have := hi.past l
      dsimp only
      omega
    · intro i hlt
      exact (hi.cache i hlt).append (hi.past _) cqe
    · refine hi.pass.mono rfl rfl rfl rfl rfl ?_ (fun _ => Nat.le_refl _)
      dsimp only
      omega

/-- The view of the lines after an invalidate. -/
def look (seen : Nat → Nat) (slot n : Nat) : Nat → Nat :=
  fun l => if l = lineOf slot then n else seen l

theorem seen_le_look (hi : Inv r seen floor) (slot l : Nat) :
    seen l ≤ look seen slot r.posted.length l := by
  unfold look
  split
  · exact hi.past l
  · exact Nat.le_refl _

theorem Inv.invalidate (hi : Inv r seen floor) (slot : Nat) :
    Inv (r.invalidate slot) (look seen slot r.posted.length) floor := by
  refine { hi with past := ?_, cache := ?_, pass := ?_ }
  · intro l
    unfold look
    split
    · exact Nat.le_refl _
    · exact hi.past l
  · intro i hlt
    unfold look Ring.invalidate
    dsimp only
    split
    · exact hi.mem i hlt
    · exact hi.cache i hlt
  · exact hi.pass.mono rfl rfl rfl rfl rfl (Nat.le_refl _) (seen_le_look hi slot)

/-- `cq_head` has been stored and `cq_phase` has not. -/
def Ring.between (r : Ring) : Bool :=
  match r.pass with
  | .storePhase _ _ => true
  | _ => false

theorem headAt_of_not_between (hout : r.between = false) : r.headAt = r.published := by
  unfold Ring.between at hout
  unfold Ring.headAt
  split at hout
  · cases hout
  · rfl

/-- What `nvme_cq_pending` reads. -/
theorem Inv.pending_reads (hi : Inv r seen floor) :
    (nvmeCqPending r).2 = ((r.mem (r.headAt % r.depth)).phase == r.cqPhase) := by
  unfold nvmeCqPending Ring.invalidate
  dsimp only
  rw [if_pos rfl, hi.head]

/-- Outside the two stores `nvme_cq_pending` tells whether a completion is posted at the
entry that `cq_head` and `cq_phase` stand at. -/
theorem Inv.pending_iff (hi : Inv r seen floor) (hout : r.between = false) :
    (nvmeCqPending r).2 = true ↔ r.published < r.posted.length := by
  obtain ⟨h₁, h₂, h₃, h₄⟩ := hi.near
  have hs := hi.mem _ (Nat.mod_lt r.published hi.pos)
  rw [hi.pending_reads, headAt_of_not_between hout, hi.phase, beq_iff_eq]
  exact (hs.fresh_iff hi.pos (by omega) (by have := hi.pos; omega)).1

/-- A new pass starts from what has been posted by now. -/
theorem Inv.enter (hi : Inv r seen floor) (hidle : r.pass = .idle) :
    Inv r.enter seen r.posted.length := by
  have hp := hi.pass
  have hat : r.headAt = r.published := by
    unfold Ring.headAt
    rw [hidle]
  unfold PassOk at hp
  rw [hidle] at hp
  obtain ⟨hrung, hdone⟩ := hp
  have hhead := hi.head
  have hle := hi.consumed_le
  rw [hat] at hhead
  unfold Ring.enter
  rw [hidle]
  refine { hi with head := hhead, pass := ?_ }
  refine ⟨?_, ?_, ?_, hrung, ?_, Nat.le_refl _, ?_⟩
  · rw [hhead, hdone]
  · rw [hi.phase, hdone]
  · rw [hdone]
    rfl
  · dsimp only
    omega
  · intro l hl
    cases hl

/-- The read of an entry: a fresh one is the next that was posted, and a pass that finds
none has consumed what had been posted when it began. -/
theorem Inv.read (hi : Inv r seen floor) {head : Nat} {phase : Bool} {line : Option Nat}
    {drained : Nat} (hpass : r.pass = .read head phase line drained) :
    ((r.cache head).phase = phase →
      r.posted[r.consumed.length]? = some (r.cache head).cqe) ∧
    ((r.cache head).phase ≠ phase → floor ≤ r.consumed.length) := by
  have hp := hi.pass
  unfold PassOk at hp
  rw [hpass] at hp
  obtain ⟨hhead, hphase, -, -, hfloor, hposted, -, hseen⟩ := hp
  obtain ⟨h₁, h₂, h₃, h₄⟩ := hi.near
  have hpast := hi.past (lineOf head)
  have hs := hi.cache _ (Nat.mod_lt r.consumed.length hi.pos)
  rw [hhead] at hseen hpast
  obtain ⟨hfresh, hget⟩ := hs.fresh_iff hi.pos (by omega) (by omega)
  rw [← hhead, ← hphase] at hfresh
  rw [← hhead] at hget hseen
  refine ⟨fun heq => hget (hfresh.mp heq), fun hne => ?_⟩
  have : ¬r.consumed.length < seen (lineOf head) := fun h => hne (hfresh.mpr h)
  omega

/-- A fresh entry is consumed in its turn. -/
theorem Inv.consume (hi : Inv r seen floor) {head : Nat} {phase : Bool} {line : Option Nat}
    {drained : Nat} (hpass : r.pass = .read head phase line drained)
    (hfresh : (r.cache head).phase = phase) :
    Inv { r with
      consumed := r.consumed ++ [(r.cache head).cqe]
      pass := .handle head phase line drained } seen floor := by
  have hget := (hi.read hpass).1 hfresh
  have hp := hi.pass
  have hhead₀ := hi.head
  unfold PassOk at hp
  unfold Ring.headAt at hhead₀
  rw [hpass] at hp hhead₀
  obtain ⟨hhead, hphase, hcount, hrung, hfloor, hposted, hline, hseen⟩ := hp
  have hlen : (r.consumed ++ [(r.cache head).cqe]).length = r.consumed.length + 1 :=
    List.length_append
  refine { hi with head := hhead₀, behind := ?_, order := ?_, pass := ?_ }
  · dsimp only
    rw [hlen]
    exact ⟨hi.behind.1, Nat.le_succ_of_le hi.behind.2⟩
  · dsimp only
    rw [hlen, List.take_add_one, hget, ← hi.order]
    rfl
  · refine ⟨hcount ▸ hhead, hcount ▸ hphase, ?_, hrung, hfloor, hposted, ?_⟩
    · dsimp only
      rw [hlen, hcount]
    · intro l hl
      rw [hline] at hl
      cases hl
      exact hseen

/-- A step of a pass keeps the invariant, and a pass that ends has consumed what had been
posted when it began. -/
theorem Inv.turn (hi : Inv r seen floor) (returns : Bool) :
    ∃ seen', Inv (r.turn returns) seen' floor ∧
      ((r.turn returns).pass = .idle →
        r.pass = .idle ∨ floor ≤ (r.turn returns).consumed.length) := by
  have hp := hi.pass
  have hhead₀ := hi.head
  unfold PassOk at hp
  unfold Ring.headAt at hhead₀
  unfold Ring.turn
  cases hpass : r.pass with
  | idle => exact ⟨seen, hi, fun _ => .inl rfl⟩
  | invalidate head phase line drained =>
      rw [hpass] at hp hhead₀
      obtain ⟨hhead, hphase, hcount, hrung, hfloor, hposted, hline⟩ := hp
      dsimp only
      split
      · rename_i hsame
        refine ⟨seen, { hi with head := hhead₀, pass := ?_ }, fun h => nomatch h⟩
        exact ⟨hhead, hphase, hcount, hrung, hfloor, hposted, hsame, hline _ hsame⟩
      · refine ⟨look seen head r.posted.length,
          { hi.invalidate head with head := hhead₀, pass := ?_ }, fun h => nomatch h⟩
        refine ⟨hhead, hphase, hcount, hrung, hfloor, hposted, rfl, ?_⟩
        unfold look
        rw [if_pos rfl]
        exact hposted
  | read head phase line drained =>
      have hend := (hi.read hpass).2
      dsimp only
      split
      · rename_i hfresh
        exact ⟨seen, hi.consume hpass hfresh, fun h => nomatch h⟩
      · rename_i hne
        have hreached := hend hne
        rw [hpass] at hp hhead₀
        obtain ⟨hhead, hphase, hcount, hrung, -, -, -, -⟩ := hp
        split
        · rename_i hzero
          refine ⟨seen, { hi with head := hhead₀, pass := ?_ }, fun _ => .inr hreached⟩
          refine ⟨hrung, ?_⟩
          dsimp only
          omega
        · rename_i hsome
          refine ⟨seen, { hi with head := hhead₀, pass := ?_ }, fun h => nomatch h⟩
          refine ⟨hhead, hphase, ?_, hrung, hreached⟩
          dsimp only
          omega
  | handle head phase line drained =>
      rw [hpass] at hp hhead₀
      obtain ⟨hhead, hphase, hcount, hrung, hfloor, hposted, hline⟩ := hp
      dsimp only
      split
      · have hnext := advanceHead_position hi.pos (r.published + drained)
        rw [← hhead, ← hphase, ← hcount] at hnext
        refine ⟨seen, { hi with head := hhead₀, pass := ?_ }, fun h => nomatch h⟩
        refine ⟨?_, ?_, ?_, hrung, hfloor, hposted, hline⟩
        · rw [hnext]
        · rw [hnext]
        · dsimp only
          omega
      · exact ⟨seen, hi, fun h => absurd (hpass.symm.trans h) (fun h => nomatch h)⟩
  | storeHead head phase =>
      rw [hpass] at hp
      obtain ⟨hhead, hphase, hsome, hrung, hreached⟩ := hp
      refine ⟨seen, { hi with head := hhead, pass := ?_ }, fun h => nomatch h⟩
      exact ⟨hhead, hphase, hsome, hrung, hreached⟩
  | storePhase head phase =>
      rw [hpass] at hp hhead₀
      obtain ⟨hhead, hphase, hsome, hrung, hreached⟩ := hp
      refine ⟨seen, { hi with
        head := hhead₀, phase := hphase, behind := ?_, pass := ?_ }, fun h => nomatch h⟩
      · exact ⟨hrung.le.trans hsome.le, Nat.le_refl _⟩
      · refine ⟨hhead, rfl, ?_, hreached⟩
        dsimp only
        omega
  | announce head =>
      rw [hpass] at hp hhead₀
      obtain ⟨hhead, hdone, hsome, hreached⟩ := hp
      refine ⟨seen, { hi with
        doorbell := hhead, head := hhead₀, behind := ?_, room := ?_, pass := ?_ },
        fun _ => .inr hreached⟩
      · exact ⟨hdone.ge, hi.behind.2⟩
      · dsimp only
        have := hi.room
        omega
      · exact ⟨hdone.symm, hdone⟩

end Steps

/-! ### Runs -/

section Runs

variable {r : Ring} {seen : Nat → Nat} {floor : Nat}

theorem enter_of_busy (hbusy : r.pass ≠ .idle) : r.enter = r := by
  unfold Ring.enter
  split
  · rename_i hidle
    exact absurd hidle hbusy
  · rfl

theorem step_inv (hi : Inv r seen floor) (e : Event) :
    ∃ seen' floor', Inv (step r e) seen' floor' := by
  cases e with
  | post cqe => exact ⟨seen, floor, hi.post cqe⟩
  | pending => exact ⟨_, floor, hi.invalidate r.cqHead⟩
  | enter =>
      by_cases hidle : r.pass = .idle
      · exact ⟨seen, _, hi.enter hidle⟩
      · refine ⟨seen, floor, ?_⟩
        rw [show step r .enter = r from enter_of_busy hidle]
        exact hi
  | turn returns =>
      obtain ⟨seen', hi', -⟩ := hi.turn returns
      exact ⟨seen', floor, hi'⟩

theorem run_inv (events : List Event) (hi : Inv r seen floor) :
    ∃ seen' floor', Inv (run events r) seen' floor' := by
  induction events generalizing r seen floor with
  | nil => exact ⟨seen, floor, hi⟩
  | cons e events ih =>
      obtain ⟨seen', floor', hi'⟩ := step_inv hi e
      exact ih hi'

/-- A step of a pass consumes an entry or none, and leaves the rest of the histories. -/
theorem turn_keeps (r : Ring) (returns : Bool) :
    (r.turn returns).depth = r.depth ∧ (r.turn returns).posted = r.posted ∧
      r.consumed.length ≤ (r.turn returns).consumed.length := by
  unfold Ring.turn
  split
  · exact ⟨rfl, rfl, Nat.le_refl _⟩
  · split <;> exact ⟨rfl, rfl, Nat.le_refl _⟩
  · dsimp only
    split
    · exact ⟨rfl, rfl, by simp⟩
    · split <;> exact ⟨rfl, rfl, Nat.le_refl _⟩
  · split <;> exact ⟨rfl, rfl, Nat.le_refl _⟩
  · exact ⟨rfl, rfl, Nat.le_refl _⟩
  · exact ⟨rfl, rfl, Nat.le_refl _⟩
  · exact ⟨rfl, rfl, Nat.le_refl _⟩

theorem step_consumed (r : Ring) (e : Event) :
    r.consumed.length ≤ (step r e).consumed.length := by
  cases e with
  | post cqe =>
      simp only [step, Ring.post]
      split <;> exact Nat.le_refl _
  | pending => exact Nat.le_refl _
  | enter =>
      simp only [step, Ring.enter]
      split <;> exact Nat.le_refl _
  | turn returns => exact (turn_keeps r returns).2.2

theorem run_consumed (events : List Event) (r : Ring) :
    r.consumed.length ≤ (run events r).consumed.length := by
  induction events generalizing r with
  | nil => exact Nat.le_refl _
  | cons e events ih => exact (step_consumed r e).trans (ih (step r e))

theorem post_pass (r : Ring) (cqe : Cqe) : (r.post cqe).pass = r.pass := by
  unfold Ring.post
  split <;> rfl

/-- While a pass runs it keeps its floor; once it is over, the floor is reached. -/
theorem run_pass (events : List Event) (hi : Inv r seen floor) (hbusy : r.pass ≠ .idle)
    (hidle : (run events r).pass = .idle) : floor ≤ (run events r).consumed.length := by
  induction events generalizing r seen with
  | nil => exact absurd hidle hbusy
  | cons e events ih =>
      cases e with
      | post cqe =>
          have hsame := post_pass r cqe
          exact ih (hi.post cqe) (by rw [← hsame] at hbusy; exact hbusy) hidle
      | pending => exact ih (hi.invalidate r.cqHead) hbusy hidle
      | enter =>
          have hsame := enter_of_busy hbusy
          change (run events r.enter).pass = .idle at hidle
          change floor ≤ (run events r.enter).consumed.length
          rw [hsame] at hidle ⊢
          exact ih hi hbusy hidle
      | turn returns =>
          obtain ⟨seen', hi', hend⟩ := hi.turn returns
          by_cases hover : (r.turn returns).pass = .idle
          · exact ((hend hover).resolve_left hbusy).trans (run_consumed events _)
          · exact ih hi' hover hidle

/-- Steps a pass has left at most, when its handlers return. -/
def turnsLeft (depth : Nat) : Pass → Nat
  | .idle => 0
  | .invalidate _ _ _ drained => 3 * (depth - drained) + 3
  | .read _ _ _ drained => 3 * (depth - drained) + 2
  | .handle _ _ _ drained => 3 * (depth - drained) + 1
  | .storeHead _ _ => 3
  | .storePhase _ _ => 2
  | .announce _ => 1

/-- Entries the loop has consumed so far. -/
def Pass.drained : Pass → Nat
  | .invalidate _ _ _ drained => drained
  | .read _ _ _ drained => drained
  | .handle _ _ _ drained => drained + 1
  | _ => 0

theorem Inv.drained_lt (hi : Inv r seen floor) : r.pass.drained < r.depth := by
  have hp := hi.pass
  have hpos := hi.pos
  obtain ⟨h₁, h₂, h₃, h₄⟩ := hi.near
  unfold PassOk at hp
  cases hpass : r.pass with
  | invalidate head phase line drained =>
      rw [hpass] at hp
      obtain ⟨-, -, hcount, -⟩ := hp
      change drained < r.depth
      omega
  | read head phase line drained =>
      rw [hpass] at hp
      obtain ⟨-, -, hcount, -⟩ := hp
      change drained < r.depth
      omega
  | handle head phase line drained =>
      rw [hpass] at hp
      obtain ⟨-, -, hcount, -⟩ := hp
      change drained + 1 < r.depth
      omega
  | idle => exact hpos
  | storeHead head phase => exact hpos
  | storePhase head phase => exact hpos
  | announce head => exact hpos

/-- Every step of a pass brings its end closer, but one in a handler that does not return. -/
theorem Inv.turnsLeft_turn (hi : Inv r seen floor) (returns : Bool) :
    turnsLeft r.depth (r.turn returns).pass ≤
      turnsLeft r.depth r.pass - if returns then 1 else 0 := by
  have hlt := hi.drained_lt
  suffices h : turnsLeft r.depth (r.turn returns).pass ≤ turnsLeft r.depth r.pass - 1 ∨
      returns = false ∧ r.turn returns = r by
    rcases h with h | ⟨hstuck, hsame⟩
    · exact h.trans (Nat.sub_le_sub_left (by split <;> omega) _)
    · rw [hsame, hstuck]
      exact Nat.le_refl _
  unfold Ring.turn
  cases hpass : r.pass with
  | idle =>
      left
      rw [hpass]
      exact Nat.zero_le _
  | invalidate head phase line drained =>
      left
      dsimp only
      split <;> exact Nat.le_refl _
  | read head phase line drained =>
      left
      rw [hpass] at hlt
      change drained < r.depth at hlt
      dsimp only
      split
      · exact Nat.le_refl _
      · split
        · exact Nat.zero_le _
        · change 3 ≤ 3 * (r.depth - drained) + 2 - 1
          omega
  | handle head phase line drained =>
      rw [hpass] at hlt
      change drained + 1 < r.depth at hlt
      dsimp only
      cases returns with
      | true =>
          left
          change 3 * (r.depth - (drained + 1)) + 3 ≤ 3 * (r.depth - drained) + 1 - 1
          omega
      | false => exact .inr ⟨rfl, rfl⟩
  | storeHead head phase => exact .inl (Nat.le_refl _)
  | storePhase head phase => exact .inl (Nat.le_refl _)
  | announce head => exact .inl (Nat.le_refl _)

/-- The events are not the start of a pass. -/
def noEnter : Event → Bool
  | .enter => false
  | _ => true

/-- A step of a pass that is not stuck in a handler. -/
def isTurn : Event → Bool
  | .turn returns => returns
  | _ => false

theorem step_depth (r : Ring) (e : Event) : (step r e).depth = r.depth := by
  cases e with
  | post cqe =>
      simp only [step, Ring.post]
      split <;> rfl
  | pending => rfl
  | enter =>
      simp only [step, Ring.enter]
      split <;> rfl
  | turn returns => exact (turn_keeps r returns).1

theorem run_depth (events : List Event) (r : Ring) : (run events r).depth = r.depth := by
  induction events generalizing r with
  | nil => rfl
  | cons e events ih => exact (ih (step r e)).trans (step_depth r e)

/-- A pass is over once it has had its steps. -/
theorem run_ends (events : List Event) (hi : Inv r seen floor)
    (hno : ∀ e, e ∈ events → noEnter e = true) :
    turnsLeft r.depth (run events r).pass ≤
      turnsLeft r.depth r.pass - events.countP isTurn := by
  induction events generalizing r seen with
  | nil => exact Nat.le_refl _
  | cons e events ih =>
      have hrest : ∀ e, e ∈ events → noEnter e = true :=
        fun e he => hno e (List.mem_cons_of_mem _ he)
      have hdepth := step_depth r e
      rw [List.countP_cons]
      change turnsLeft r.depth (run events (step r e)).pass ≤ _
      cases e with
      | post cqe =>
          have h := ih (hi.post cqe) hrest
          have hsame : (r.post cqe).depth = r.depth := hdepth
          rw [hsame, post_pass] at h
          exact h
      | pending => exact ih (hi.invalidate r.cqHead) hrest
      | enter => exact absurd (hno .enter (List.mem_cons_self ..)) (by decide)
      | turn returns =>
          obtain ⟨seen', hi', -⟩ := hi.turn returns
          have hless := hi.turnsLeft_turn returns
          have h := ih hi' hrest
          have hsame : (r.turn returns).depth = r.depth := hdepth
          rw [hsame] at h
          change _ ≤ _ - (_ + if returns = true then 1 else 0)
          change turnsLeft r.depth (run events (r.turn returns)).pass ≤ _
          omega

theorem turnsLeft_le (depth : Nat) (pass : Pass) : turnsLeft depth pass ≤ 3 * depth + 3 := by
  cases pass <;> simp only [turnsLeft] <;> omega

theorem idle_of_turnsLeft (hzero : turnsLeft r.depth r.pass = 0) : r.pass = .idle := by
  cases hpass : r.pass with
  | idle => rfl
  | _ =>
      rw [hpass] at hzero
      cases hzero

/-- A pass in a handler that does not return goes no further. -/
theorem run_stuck {head : Nat} {phase : Bool} {line : Option Nat} {drained : Nat}
    (later : List Event) (hpass : r.pass = .handle head phase line drained)
    (hstuck : ∀ e, e ∈ later → isTurn e = false) :
    (run later r).pass = .handle head phase line drained ∧
      (run later r).consumed = r.consumed := by
  induction later generalizing r with
  | nil => exact ⟨hpass, rfl⟩
  | cons e later ih =>
      have hrest : ∀ e, e ∈ later → isTurn e = false :=
        fun e he => hstuck e (List.mem_cons_of_mem _ he)
      have hone : (step r e).pass = r.pass ∧ (step r e).consumed = r.consumed := by
        cases e with
        | post cqe =>
            refine ⟨post_pass r cqe, ?_⟩
            simp only [step, Ring.post]
            split <;> rfl
        | pending => exact ⟨rfl, rfl⟩
        | enter =>
            have hsame : r.enter = r := enter_of_busy (by rw [hpass]; exact fun h => nomatch h)
            exact ⟨congrArg Ring.pass hsame, congrArg Ring.consumed hsame⟩
        | turn returns =>
            have hfalse : returns = false := hstuck (.turn returns) (List.mem_cons_self ..)
            have hsame : r.turn returns = r := by
              unfold Ring.turn
              rw [hpass, hfalse]
              rfl
            exact ⟨congrArg Ring.pass hsame, congrArg Ring.consumed hsame⟩
      obtain ⟨h₁, h₂⟩ := ih (hone.1.trans hpass) hrest
      exact ⟨h₁, h₂.trans hone.2⟩

end Runs

/-! ### Main result -/

/-- The entries are consumed in the order they were posted, each at most once and
none before it is there; passes see everything posted before they began, take less
than a lap, and end unless a handler does not return.  `nvme_cq_pending` tells whether
an entry is posted at the position of `cq_head` and `cq_phase`, which is the end of the
last pass until the next one has stored both. -/
structure Exact (depth : Nat) (r : Ring) : Prop where
  order : r.consumed = r.posted.take r.consumed.length
  complete : r.pass = .idle → ∀ later, (run (.enter :: later) r).pass = .idle →
    r.posted.length ≤ (run (.enter :: later) r).consumed.length
  short : r.pass.drained ≤ depth - 1
  ends : ∀ later, (∀ e, e ∈ later → noEnter e = true) →
    3 * depth + 3 ≤ later.countP isTurn → (run later r).pass = .idle
  position : r.between = false →
    r.cqHead = r.published % depth ∧ r.cqPhase = evenLap depth r.published
  pending : r.between = false →
    ((nvmeCqPending r).2 = true ↔ r.published < r.posted.length)
  idle : r.pass = .idle → ((nvmeCqPending r).2 = true ↔ r.consumed.length < r.posted.length)
  room : r.posted.length ≤ r.rung + (depth - 1) ∧ r.rung ≤ r.published ∧
    r.published ≤ r.consumed.length

/-- However the controller's posts and the driver's steps interleave, the
completion ring is consumed exactly. -/
theorem drainCq_consumes_exactly (depth : Nat) (hpos : 0 < depth) (events : List Event) :
    Exact depth (run events (Ring.fresh depth)) := by
  obtain ⟨seen, floor, hi⟩ := run_inv events (inv_fresh hpos)
  have hdepth : (run events (Ring.fresh depth)).depth = depth := run_depth events _
  generalize run events (Ring.fresh depth) = r at hi hdepth
  subst hdepth
  obtain ⟨h₁, h₂, h₃, h₄⟩ := hi.near
  refine ⟨hi.order, ?_, ?_, ?_, ?_, hi.pending_iff, ?_, ?_⟩
  · intro hidle later hover
    refine run_pass later (hi.enter hidle) ?_ hover
    unfold step Ring.enter
    rw [hidle]
    exact fun h => nomatch h
  · have := hi.drained_lt
    omega
  · intro later hno hturns
    have hleft := run_ends later hi hno
    have hle := turnsLeft_le r.depth r.pass
    refine idle_of_turnsLeft ?_
    rw [run_depth]
    omega
  · intro hout
    have hhead := hi.head
    rw [headAt_of_not_between hout] at hhead
    exact ⟨hhead, hi.phase⟩
  · intro hidle
    have hout : r.between = false := by
      unfold Ring.between
      rw [hidle]
    have hp := hi.pass
    unfold PassOk at hp
    rw [hidle] at hp
    rw [hi.pending_iff hout, hp.2]
  · exact ⟨by omega, h₁, h₂⟩

/-- Two completions reaped in one pass, a third in the next, which wraps; a fourth is
posted before the pass stores anything, and the last event is the store of `cq_head`. -/
def wrapped : List Event :=
  [.post ⟨0, 0, 0⟩, .post ⟨1, 0, 0⟩, .enter] ++ List.replicate 11 (.turn true) ++
    [.post ⟨2, 0, 0⟩, .pending, .enter, .turn true, .turn false, .post ⟨3, 0, 0⟩] ++
      List.replicate 4 (.turn true)

theorem drainCq_consumes_exactly_wrapped :
    Exact 3 (run wrapped (Ring.fresh 3)) ∧
      (run (wrapped ++ [.turn true, .turn true, .enter] ++ List.replicate 7 (.turn true))
        (Ring.fresh 3)).consumed = [⟨0, 0, 0⟩, ⟨1, 0, 0⟩, ⟨2, 0, 0⟩, ⟨3, 0, 0⟩] :=
  ⟨drainCq_consumes_exactly 3 (by decide) _, by decide⟩

/-- A controller that advertises namespace notices. -/
def noticeEnv : Env := { sampleEnv with cfg := { sampleEnv.cfg with oaes := 0x100 } }

/-- A reset of it, up to the completion of its last command. -/
def resetToLive : List Engine.Event :=
  [.irq [⟨0, 0, 0x300⟩] [], .reset, .irq [⟨0, 0, 0⟩] [], .irq [⟨0x1000, 0, 0⟩] [],
    .irq [⟨0x2000, 0, 0⟩] []]

/-- The pass that reaps it, in its handler, with another completion posted behind. -/
def inHandler : Ring :=
  run [.post ⟨0x2000, 0, 0⟩, .post ⟨0x3000, 0, 0⟩, .enter, .turn true, .turn true] (Ring.fresh 3)

/-- In the middle of a pass that has consumed everything `nvme_cq_pending` still answers
TRUE; between the two stores of a pass that has wrapped it answers FALSE although a
completion is left.  The handler of the last command of a reset waits for a completion
that only its own task can reap, and a pass in such a handler never ends, whatever the
controller posts. -/
theorem drainCq_inexact :
    (let r := run [.post ⟨0, 0, 0⟩, .enter, .turn true, .turn true] (Ring.fresh 3)
     r.consumed = r.posted ∧ (nvmeCqPending r).2 = true) ∧
    (let r := run wrapped (Ring.fresh 3)
     r.consumed.length < r.posted.length ∧ (nvmeCqPending r).2 = false) ∧
    (Engine.run noticeEnv resetToLive (bootState noticeEnv 2048)).core.unitBlocked = true ∧
    ∀ later, (∀ e, e ∈ later → isTurn e = false) →
      (run later inHandler).pass ≠ .idle ∧
        (run later inHandler).consumed = [⟨0x2000, 0, 0⟩] := by
  refine ⟨by decide, by decide, by decide +kernel, fun later hstuck => ?_⟩
  have hpass : inHandler.pass = .handle 0 true (some 0) 0 := rfl
  obtain ⟨hstays, hconsumed⟩ := run_stuck later hpass hstuck
  rw [hstays, hconsumed]
  exact ⟨fun h => (nomatch h), rfl⟩

end CompletionRing
end NvmeDriver
