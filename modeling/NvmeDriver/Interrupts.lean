import NvmeDriver.CompletionRing

/-!
# Interrupts

The unit task sleeps in `Wait()` until `nvme_int_isr` signals it, drains the admin and
the I/O completion queue and rearms the interrupt (irq.c, unit_task.c); the watchdog tick
drains them without rearming.  The controller posts completions at any time, and a reset
takes the rings away and sets them up again.

A message-signalled vector is masked at the root complex, where a message that arrives
meanwhile is kept; every completion sends one.  INTx is a level: the pin is asserted while
INTMS masks nothing and a completion has not been acknowledged through its head doorbell,
and other functions on the line make the interrupt server run at any time, also between
the stores that end a drain pass.
-/

namespace NvmeDriver
namespace Interrupts

open Engine (Cqe QueueId)
open CompletionRing (Ring Inv nvmeCqPending)

/-! ### Model -/

/-- Where the unit task is in its loop. -/
inductive Task
  | asleep
  /-- in `drain_cq`; `irq` tells a pass of the interrupt from one of the tick -/
  | draining (q : QueueId) (irq : Bool)
  /-- before `nvme_int_rearm` -/
  | rearm
deriving DecidableEq, Repr

structure Sys where
  msiEnabled : Bool
  /-- `none` where `q->cq` is NULL -/
  rings : QueueId → Option Ring
  /-- the vector at the root complex, INTMS under INTx -/
  masked : Bool
  /-- a message that has not been taken yet -/
  latched : Bool
  /-- `irq_signal` is set -/
  signal : Bool
  task : Task
  /-- own interrupts claimed, wakeups by `irq_signal` and rearms so far -/
  claimed : Nat
  wakeups : Nat
  rearms : Nat

/-- After `nvme_int_enable`. -/
def Sys.fresh (msiEnabled : Bool) : Sys :=
  { msiEnabled := msiEnabled, rings := fun _ => none, masked := false, latched := false
    signal := false, task := .asleep, claimed := 0, wakeups := 0, rearms := 0 }

def Sys.setRing (s : Sys) (q : QueueId) (r : Option Ring) : Sys :=
  { s with rings := Function.update s.rings q r }

/-- `nvme_cq_pending` of a queue. -/
def cqPending (s : Sys) (q : QueueId) : Sys × Bool :=
  match s.rings q with
  | none => (s, false)
  | some r => (s.setRing q (some (nvmeCqPending r).1), (nvmeCqPending r).2)

/-- Mask the source and signal the unit task. -/
def Sys.claim (s : Sys) : Sys := { s with masked := true, signal := true }

/-- `nvme_int_isr`, with what it returns. -/
def nvmeIntIsr (s : Sys) : Sys × Bool :=
  if s.msiEnabled then (s.claim, true)
  else
    let io := cqPending s .io
    if io.2 then (io.1.claim, true)
    else
      let admin := cqPending io.1 .admin
      if admin.2 then (admin.1.claim, true) else (admin.1, false)

/-- `nvme_int_rearm`. -/
def nvmeIntRearm (s : Sys) : Sys := { s with masked := false, rearms := s.rearms + 1 }

/-- The controller has posted completions that the head doorbell does not acknowledge. -/
def unacknowledged : Option Ring → Bool
  | none => false
  | some r => r.doorbell != r.tail

/-- Our interrupt is asserted. -/
def Sys.raised (s : Sys) : Bool :=
  !s.masked &&
    if s.msiEnabled then s.latched
    else unacknowledged (s.rings .io) || unacknowledged (s.rings .admin)

/-- The controller posts a completion. -/
def Sys.post (s : Sys) (q : QueueId) (cqe : Cqe) : Sys :=
  match s.rings q with
  | none => s
  | some r => { s.setRing q (some (r.post cqe)) with latched := s.latched || s.msiEnabled }

/-- The pass gets to a queue. -/
def Sys.enter (s : Sys) (q : QueueId) (irq : Bool) : Sys :=
  { s.setRing q ((s.rings q).map Ring.enter) with task := .draining q irq }

/-- `drain_cq` has returned, or returns at once. -/
def drained : Option Ring → Bool
  | none => true
  | some r =>
      match r.pass with
      | .idle => true
      | _ => false

/-- The pass is through with a queue. -/
def Sys.leave (s : Sys) (q : QueueId) (irq : Bool) : Sys :=
  match q with
  | .admin => s.enter .io irq
  | .io => { s with task := if irq then .rearm else .asleep }

/-- The unit task takes its next step; in a handler of `drain_cq`, whether it returns. -/
def Sys.work (s : Sys) (returns : Bool) : Sys :=
  match s.task with
  | .asleep => s
  | .rearm => { nvmeIntRearm s with task := .asleep }
  | .draining q irq =>
      if drained (s.rings q) then s.leave q irq
      else s.setRing q ((s.rings q).map (Ring.turn · returns))

/-- What can happen next. -/
inductive Event
  | post (q : QueueId) (cqe : Cqe)
  /-- our interrupt is taken -/
  | irq
  /-- the interrupt of another function on the line is taken -/
  | shared
  /-- `Wait()` returns with `irq_signal` -/
  | wake
  /-- and with the timer's signal only -/
  | tick
  | work (returns : Bool)
  /-- a ring is set up -/
  | setup (q : QueueId)
  /-- and torn down -/
  | teardown (q : QueueId)
  /-- the controller comes out of a reset with INTMS clear -/
  | intmsClear
deriving Repr

/-- Entries of the ring of a queue. -/
def queueSize : QueueId → Nat
  | .admin => nvmeAdminQueueSize
  | .io => nvmeIoQueueSize

/-- One step; a step that is not enabled does nothing. -/
def step (s : Sys) : Event → Sys
  | .post q cqe => s.post q cqe
  | .irq =>
      if s.raised then
        let p := nvmeIntIsr { s with latched := false }
        { p.1 with claimed := s.claimed + p.2.toNat }
      else s
  | .shared => if s.msiEnabled then s else (nvmeIntIsr s).1
  | .wake =>
      if s.task = .asleep ∧ s.signal then
        { s with signal := false, wakeups := s.wakeups + 1 }.enter .admin true
      else s
  | .tick => if s.task = .asleep then s.enter .admin false else s
  | .work returns => s.work returns
  | .setup q =>
      if s.rings q = none then s.setRing q (some (Ring.fresh (queueSize q))) else s
  | .teardown q =>
      match s.task with
      | .draining q' _ => if q = q' then s else s.setRing q none
      | _ => s.setRing q none
  | .intmsClear => if s.msiEnabled then s else { s with masked := false }

def run (events : List Event) (s : Sys) : Sys := events.foldl step s

/-! ### Rings -/

/-- Everything posted has been consumed. -/
def Reaped (r : Ring) : Prop := r.consumed.length = r.posted.length

/-- The pass that runs has begun after everything was posted. -/
def Seen (r : Ring) : Prop :=
  r.pass ≠ .idle ∧ ∃ seen floor, Inv r seen floor ∧ r.posted.length ≤ floor

/-- A pass that runs, or none, leaves nothing behind. -/
def Covered (r : Ring) : Prop := Reaped r ∨ Seen r

/-- A ring in a run. -/
structure Sane (q : QueueId) (r : Ring) : Prop where
  depth : r.depth = queueSize q
  inv : ∃ seen floor, Inv r seen floor

section Rings

variable {q : QueueId} {r : Ring}

theorem enter_posted (r : Ring) : r.enter.posted = r.posted := by
  unfold Ring.enter
  split <;> rfl

theorem Sane.step (h : Sane q r) (e : CompletionRing.Event) : Sane q (CompletionRing.step r e) := by
  obtain ⟨seen, floor, hi⟩ := h.inv
  exact ⟨(CompletionRing.step_depth r e).trans h.depth, CompletionRing.step_inv hi e⟩

theorem sane_fresh (q : QueueId) : Sane q (Ring.fresh (queueSize q)) := by
  refine ⟨rfl, _, _, CompletionRing.inv_fresh ?_⟩
  cases q <;> decide

/-- Off a pass, what is consumed is acknowledged. -/
theorem Sane.rung (h : Sane q r) (hidle : r.pass = .idle) : r.rung = r.consumed.length := by
  obtain ⟨seen, floor, hi⟩ := h.inv
  have hp := hi.pass
  unfold CompletionRing.PassOk at hp
  rw [hidle] at hp
  exact hp.1.trans hp.2

/-- The doorbell tells whether something is left to acknowledge. -/
theorem Sane.unacknowledged_iff (h : Sane q r) :
    unacknowledged (some r) = true ↔ r.rung < r.posted.length := by
  obtain ⟨seen, floor, hi⟩ := h.inv
  obtain ⟨h₁, h₂, h₃, hroom⟩ := hi.near
  unfold unacknowledged
  rw [bne_iff_ne, hi.tail, hi.doorbell]
  refine ⟨?_, fun hlt => ?_⟩
  · intro hne
    by_contra hge
    exact hne (congrArg (· % r.depth) (by omega))
  · exact Lib.mod_ne_of_close hlt hroom

theorem Sane.pending_iff (h : Sane q r) (hout : r.between = false) :
    (nvmeCqPending r).2 = true ↔ r.published < r.posted.length := by
  obtain ⟨seen, floor, hi⟩ := h.inv
  exact hi.pending_iff hout

/-- The pass is between its store of `cq_head` and the write of the doorbell. -/
def storing (r : Ring) : Bool :=
  match r.pass with
  | .storePhase _ _ => true
  | .announce _ => true
  | _ => false

/-- Elsewhere `cq_head`, `cq_phase` and the doorbell agree. -/
theorem Sane.agree (h : Sane q r) (hout : storing r = false) :
    r.between = false ∧ r.rung = r.published := by
  obtain ⟨seen, floor, hi⟩ := h.inv
  have hp := hi.pass
  unfold storing at hout
  unfold CompletionRing.PassOk at hp
  unfold Ring.between
  cases hpass : r.pass with
  | idle =>
      rw [hpass] at hp
      exact ⟨rfl, hp.1⟩
  | invalidate head phase line drained =>
      rw [hpass] at hp
      exact ⟨rfl, hp.2.2.2.1⟩
  | read head phase line drained =>
      rw [hpass] at hp
      exact ⟨rfl, hp.2.2.2.1⟩
  | handle head phase line drained =>
      rw [hpass] at hp
      exact ⟨rfl, hp.2.2.2.1⟩
  | storeHead head phase =>
      rw [hpass] at hp
      exact ⟨rfl, hp.2.2.2.1⟩
  | storePhase head phase =>
      rw [hpass] at hout
      cases hout
  | announce head =>
      rw [hpass] at hout
      cases hout

theorem Reaped.turn (h : Reaped r) (hs : Sane q r) (returns : Bool) :
    Reaped (r.turn returns) := by
  obtain ⟨seen, floor, hi⟩ := (hs.step (.turn returns)).inv
  obtain ⟨-, hposted, hmono⟩ := CompletionRing.turn_keeps r returns
  have hle : (r.turn returns).consumed.length ≤ (r.turn returns).posted.length :=
    hi.consumed_le
  unfold Reaped at h ⊢
  rw [hposted] at hle ⊢
  omega

theorem Covered.turn (h : Covered r) (hs : Sane q r) (returns : Bool) :
    Covered (r.turn returns) := by
  rcases h with h | ⟨hbusy, seen, floor, hi, hfloor⟩
  · exact .inl (h.turn hs returns)
  · obtain ⟨seen', hi', hend⟩ := hi.turn returns
    have hposted := (CompletionRing.turn_keeps r returns).2.1
    by_cases hidle : (r.turn returns).pass = .idle
    · have hreached := (hend hidle).resolve_left hbusy
      have hle := hi'.consumed_le
      refine .inl ?_
      unfold Reaped
      rw [hposted] at hle ⊢
      omega
    · refine .inr ⟨hidle, seen', floor, hi', ?_⟩
      rw [hposted]
      exact hfloor

/-- A pass that begins now leaves nothing behind. -/
theorem Sane.covered_enter (h : Sane q r) (hidle : r.pass = .idle) : Covered r.enter := by
  obtain ⟨seen, floor, hi⟩ := h.inv
  refine .inr ⟨?_, seen, _, hi.enter hidle, ?_⟩
  · unfold Ring.enter
    rw [hidle]
    exact fun h => by cases h
  · rw [enter_posted]

theorem Covered.pending (h : Covered r) : Covered (nvmeCqPending r).1 := by
  rcases h with h | ⟨hbusy, seen, floor, hi, hfloor⟩
  · exact .inl h
  · exact .inr ⟨hbusy, _, floor, hi.invalidate r.cqHead, hfloor⟩

/-- Off a pass, covered means consumed. -/
theorem Covered.reaped (h : Covered r) (hidle : r.pass = .idle) : Reaped r :=
  h.resolve_right fun hseen => hseen.1 hidle

theorem covered_fresh (depth : Nat) : Covered (Ring.fresh depth) := .inl rfl

end Rings

/-! ### Invariant -/

/-- A rearm is on its way. -/
def Task.rearms : Task → Bool
  | .asleep => false
  | .draining _ irq => irq
  | .rearm => true

/-- The unit task is in `drain_cq` on a queue. -/
def Task.isOn (q : QueueId) : Task → Bool
  | .draining q' _ => q == q'
  | _ => false

/-- A pass of the interrupt has not got to the queue yet. -/
def Task.ahead : QueueId → Task → Bool
  | .io, .draining .admin irq => irq
  | _, _ => false

/-- The invariant: a masked interrupt is going to be rearmed, and a completion without a
message or signal to come is covered by the pass that runs. -/
structure Sound (s : Sys) : Prop where
  sane : ∀ q r, s.rings q = some r → Sane q r
  idle : ∀ q r, s.rings q = some r → s.task.isOn q = false → r.pass = .idle
  mask : s.masked = true → s.signal = true ∨ s.task.rearms = true
  heard : s.msiEnabled = true → s.latched = true ∨ s.signal = true ∨
    ∀ q r, s.rings q = some r → s.task.ahead q = false → Covered r

section Steps

variable {s : Sys} {q q' : QueueId} {r : Ring} {v : Option Ring} {irq : Bool}

@[simp] theorem setRing_self : (s.setRing q v).rings q = v := Function.update_self ..

@[simp] theorem setRing_other (hne : q' ≠ q) : (s.setRing q v).rings q' = s.rings q' :=
  Function.update_of_ne hne ..

/-- What holds of every ring holds after one of them is replaced. -/
theorem setRing_all {P : QueueId → Ring → Prop} (hnew : ∀ r, v = some r → P q r)
    (hold : ∀ q' r, s.rings q' = some r → q' ≠ q → P q' r)
    (hget : (s.setRing q v).rings q' = some r) :
    P q' r := by
  by_cases heq : q' = q
  · subst heq
    rw [setRing_self] at hget
    exact hnew r hget
  · rw [setRing_other heq] at hget
    exact hold q' r hget heq

theorem sound_fresh (msiEnabled : Bool) : Sound (Sys.fresh msiEnabled) where
  sane := fun _ _ h => by cases h
  idle := fun _ _ h => by cases h
  mask := fun h => by cases h
  heard := fun _ => .inr (.inr fun _ _ h => by cases h)

theorem Sound.setRing (h : Sound s) (hsane : ∀ r, v = some r → Sane q r)
    (hidle : ∀ r, v = some r → s.task.isOn q = false → r.pass = .idle)
    (hcov : ∀ r, v = some r → (∀ r₀, s.rings q = some r₀ → Covered r₀) → Covered r) :
    Sound (s.setRing q v) where
  sane := fun _ _ => setRing_all hsane (fun q' r hr _ => h.sane q' r hr)
  idle := fun _ _ => setRing_all hidle (fun q' r hr _ => h.idle q' r hr)
  mask := h.mask
  heard := by
    intro hmsi
    refine (h.heard hmsi).imp_right (Or.imp_right fun hall _ _ => ?_)
    refine setRing_all (P := fun q' r => s.task.ahead q' = false → Covered r) ?_ ?_
    · exact fun r hr hnot => hcov r hr fun r₀ hr₀ => hall q r₀ hr₀ hnot
    · exact fun q' r hr _ => hall q' r hr

theorem Sound.cqPending (h : Sound s) (q : QueueId) : Sound (cqPending s q).1 := by
  unfold Interrupts.cqPending
  cases hr : s.rings q with
  | none => exact h
  | some r =>
      refine h.setRing ?_ ?_ ?_
      · rintro _ ⟨⟩
        exact (h.sane q r hr).step .pending
      · rintro _ ⟨⟩
        exact h.idle q r hr
      · rintro _ ⟨⟩ hcov
        exact (hcov r hr).pending

theorem Sound.claim (h : Sound s) : Sound s.claim where
  sane := h.sane
  idle := h.idle
  mask := fun _ => .inl rfl
  heard := fun _ => .inr (.inl rfl)

theorem Sound.isr (h : Sound s) : Sound (nvmeIntIsr s).1 := by
  unfold nvmeIntIsr
  split
  · exact h.claim
  · dsimp only
    split
    · exact (h.cqPending .io).claim
    · split
      · exact ((h.cqPending .io).cqPending .admin).claim
      · exact (h.cqPending .io).cqPending .admin

/-- The pass gets to a queue; it need not see to the others that are still ahead. -/
theorem sound_enter (hsane : ∀ q r, s.rings q = some r → Sane q r)
    (hidle : ∀ q r, s.rings q = some r → r.pass = .idle)
    (hmask : s.masked = true → s.signal = true ∨ irq = true)
    (hheard : s.msiEnabled = true → s.latched = true ∨ s.signal = true ∨
      ∀ q' r, s.rings q' = some r → q' ≠ q → (Task.draining q irq).ahead q' = false → Covered r) :
    Sound (s.enter q irq) where
  sane := by
    refine fun _ _ => setRing_all ?_ (fun q' r hr _ => hsane q' r hr)
    intro r hr
    obtain ⟨r₀, hr₀, rfl⟩ := Option.map_eq_some_iff.mp hr
    exact (hsane q r₀ hr₀).step .enter
  idle := by
    refine fun _ _ => setRing_all
      (P := fun q' r => (Task.draining q irq).isOn q' = false → r.pass = .idle) ?_ ?_
    · intro r _ hnot
      exact absurd hnot (by simp [Task.isOn])
    · exact fun q' r hr _ _ => hidle q' r hr
  mask := hmask
  heard := by
    intro hmsi
    refine (hheard hmsi).imp_right (Or.imp_right fun hall _ _ => ?_)
    refine setRing_all (P := fun q' r => (Task.draining q irq).ahead q' = false → Covered r) ?_ hall
    intro r hr _
    obtain ⟨r₀, hr₀, rfl⟩ := Option.map_eq_some_iff.mp hr
    exact (hsane q r₀ hr₀).covered_enter (hidle q r₀ hr₀)

theorem drained_iff : drained (some r) = true ↔ r.pass = .idle := by
  unfold drained
  cases hpass : r.pass <;> simp [hpass]

/-- The unit task leaves a queue with every pass over. -/
theorem Sound.all_idle (h : Sound s) (htask : s.task = .draining q irq)
    (hover : drained (s.rings q) = true) : ∀ q r, s.rings q = some r → r.pass = .idle := by
  intro q' r hr
  by_cases heq : q' = q
  · subst heq
    rw [hr] at hover
    exact drained_iff.mp hover
  · refine h.idle q' r hr ?_
    rw [htask]
    exact beq_false_of_ne heq

theorem Sound.asleep_idle (h : Sound s) (htask : s.task = .asleep) :
    ∀ q r, s.rings q = some r → r.pass = .idle := by
  intro q r hr
  refine h.idle q r hr ?_
  rw [htask]
  rfl

theorem Sound.work (h : Sound s) (returns : Bool) : Sound (s.work returns) := by
  unfold Sys.work
  cases htask : s.task with
  | asleep => exact h
  | rearm =>
      have hall : ∀ q r, s.rings q = some r → r.pass = .idle := by
        intro q r hr
        refine h.idle q r hr ?_
        rw [htask]
        rfl
      refine ⟨h.sane, fun q r hr _ => hall q r hr, fun hm => absurd hm Bool.false_ne_true,
        fun hmsi => ?_⟩
      refine (h.heard hmsi).imp_right (Or.imp_right fun hcov q r hr _ => ?_)
      refine hcov q r hr ?_
      rw [htask]
      cases q <;> rfl
  | draining q irq =>
      have hmask : s.masked = true → s.signal = true ∨ irq = true := by
        intro hm
        have := h.mask hm
        rw [htask] at this
        exact this
      dsimp only
      split
      · rename_i hover
        have hall := h.all_idle htask hover
        cases q with
        | admin =>
            refine sound_enter h.sane hall hmask fun hmsi => ?_
            refine (h.heard hmsi).imp_right (Or.imp_right fun hcov q' r hr hne _ => ?_)
            refine hcov q' r hr ?_
            cases q' with
            | admin => rfl
            | io => exact absurd rfl hne
        | io =>
            refine ⟨h.sane, fun q r hr _ => hall q r hr, fun hm => ?_, fun hmsi => ?_⟩
            · refine (hmask hm).imp_right fun hirq => ?_
              change (if irq = true then Task.rearm else .asleep).rearms = true
              rw [if_pos hirq]
              rfl
            · refine (h.heard hmsi).imp_right (Or.imp_right fun hcov q' r hr _ => ?_)
              refine hcov q' r hr ?_
              rw [htask]
              cases q' <;> rfl
      · refine h.setRing ?_ ?_ ?_
        · intro r hr
          obtain ⟨r₀, hr₀, rfl⟩ := Option.map_eq_some_iff.mp hr
          exact (h.sane q r₀ hr₀).step (.turn returns)
        · intro r _ hnot
          rw [htask] at hnot
          exact absurd hnot (by simp [Task.isOn])
        · intro r hr hcov
          obtain ⟨r₀, hr₀, rfl⟩ := Option.map_eq_some_iff.mp hr
          exact (hcov r₀ hr₀).turn (h.sane q r₀ hr₀) returns

theorem Sound.post (h : Sound s) (q : QueueId) (cqe : Cqe) : Sound (s.post q cqe) := by
  unfold Sys.post
  cases hr : s.rings q with
  | none => exact h
  | some r =>
      refine ⟨?_, ?_, h.mask, fun hmsi => .inl ?_⟩
      · refine fun _ _ => setRing_all ?_ (fun q' r hr _ => h.sane q' r hr)
        rintro _ ⟨⟩
        exact (h.sane q r hr).step (.post cqe)
      · refine fun _ _ => setRing_all ?_ (fun q' r hr _ => h.idle q' r hr)
        rintro _ ⟨⟩ hnot
        exact (CompletionRing.post_pass r cqe).trans (h.idle q r hr hnot)
      · change (s.latched || s.msiEnabled) = true
        rw [show s.msiEnabled = true from hmsi, Bool.or_true]

/-- An interrupt is taken; its message goes. -/
theorem Sound.taken (h : Sound s) : Sound (nvmeIntIsr { s with latched := false }).1 := by
  by_cases hmsi : s.msiEnabled = true
  · have heq : (nvmeIntIsr { s with latched := false }).1 =
        { s with latched := false }.claim := by
      unfold nvmeIntIsr
      rw [if_pos hmsi]
    rw [heq]
    exact ⟨h.sane, h.idle, fun _ => .inl rfl, fun _ => .inr (.inl rfl)⟩
  · exact Sound.isr ⟨h.sane, h.idle, h.mask, fun hmsi' => absurd hmsi' hmsi⟩

theorem Sound.teardown (h : Sound s) (q : QueueId) : Sound (s.setRing q none) :=
  h.setRing (fun _ hr => by cases hr) (fun _ hr => by cases hr) (fun _ hr => by cases hr)

theorem Sound.step (h : Sound s) (e : Event) : Sound (Interrupts.step s e) := by
  cases e with
  | post q cqe => exact h.post q cqe
  | irq =>
      simp only [Interrupts.step]
      split
      · have hisr := h.taken
        exact ⟨hisr.sane, hisr.idle, hisr.mask, hisr.heard⟩
      · exact h
  | shared =>
      simp only [Interrupts.step]
      split
      · exact h
      · exact h.isr
  | wake =>
      simp only [Interrupts.step]
      split
      · rename_i hen
        refine sound_enter h.sane (h.asleep_idle hen.1) (fun _ => .inr rfl) fun _ => ?_
        refine .inr (.inr fun q' r hr hne hnot => ?_)
        cases q' with
        | admin => exact absurd rfl hne
        | io => exact absurd hnot (by simp [Task.ahead])
      · exact h
  | tick =>
      simp only [Interrupts.step]
      split
      · rename_i htask
        refine sound_enter h.sane (h.asleep_idle htask) (fun hm => ?_) fun hmsi => ?_
        · have := h.mask hm
          rw [htask] at this
          exact this
        · refine (h.heard hmsi).imp_right (Or.imp_right fun hcov q' r hr _ _ => ?_)
          refine hcov q' r hr ?_
          rw [htask]
          cases q' <;> rfl
      · exact h
  | work returns => exact h.work returns
  | setup q =>
      simp only [Interrupts.step]
      split
      · refine h.setRing ?_ ?_ ?_
        · rintro _ ⟨⟩
          exact sane_fresh q
        · rintro _ ⟨⟩ _
          rfl
        · rintro _ ⟨⟩ _
          exact covered_fresh _
      · exact h
  | teardown q =>
      simp only [Interrupts.step]
      split
      · split
        · exact h
        · exact h.teardown q
      · exact h.teardown q
  | intmsClear =>
      simp only [Interrupts.step]
      split
      · exact h
      · exact ⟨h.sane, h.idle, fun hm => absurd hm Bool.false_ne_true, h.heard⟩

theorem Sound.run (h : Sound s) (events : List Event) : Sound (Interrupts.run events s) := by
  induction events generalizing s with
  | nil => exact h
  | cons e events ih => exact ih (h.step e)

theorem run_sound (msiEnabled : Bool) (events : List Event) :
    Sound (Interrupts.run events (Sys.fresh msiEnabled)) :=
  (sound_fresh msiEnabled).run events

end Steps

/-! ### Passes -/

/-- Turns that the pass on a ring has left at most. -/
def turnsOf : Option Ring → Nat
  | none => 0
  | some r => CompletionRing.turnsLeft r.depth r.pass

/-- Steps until the unit task sleeps again, at most, when the handlers return. -/
def workLeft (s : Sys) : Nat :=
  match s.task with
  | .asleep => 0
  | .rearm => 1
  | .draining .io _ => turnsOf (s.rings .io) + 2
  | .draining .admin _ => turnsOf (s.rings .admin) + 3 * nvmeIoQueueSize + 6

/-- The events are not the start of a pass. -/
def Event.startsPass : Event → Bool
  | .wake | .tick => true
  | _ => false

/-- A step of the unit task that is not stuck in a handler. -/
def Event.isWork : Event → Bool
  | .work returns => returns
  | _ => false

section Passes

variable {s s' : Sys} {q q' : QueueId} {r : Ring} {v : Option Ring} {irq : Bool}

theorem turnsOf_le (h : Sane q r) : turnsOf (some r) ≤ 3 * queueSize q + 3 := by
  rw [← h.depth]
  exact CompletionRing.turnsLeft_le r.depth r.pass

/-- A pass that is not over has turns left, and each takes one. -/
theorem Sane.turnsOf_turn (h : Sane q r) (hbusy : drained (some r) = false) (returns : Bool) :
    turnsOf (some (r.turn returns)) + (if returns then 1 else 0) ≤ turnsOf (some r) := by
  obtain ⟨seen, floor, hi⟩ := h.inv
  have hpos : CompletionRing.turnsLeft r.depth r.pass ≠ 0 := by
    intro hzero
    rw [drained_iff.mpr (CompletionRing.idle_of_turnsLeft hzero)] at hbusy
    cases hbusy
  have hless := hi.turnsLeft_turn returns
  unfold turnsOf
  dsimp only
  rw [(CompletionRing.turn_keeps r returns).1]
  cases returns with
  | true =>
      simp only [if_true] at hless ⊢
      omega
  | false => simpa using hless

/-- Same task, and no ring with more turns left. -/
theorem workLeft_mono (htask : s'.task = s.task)
    (hturns : ∀ q, s.task.isOn q = true → turnsOf (s'.rings q) ≤ turnsOf (s.rings q)) :
    workLeft s' ≤ workLeft s := by
  unfold workLeft
  rw [htask]
  cases ht : s.task with
  | asleep => exact Nat.le_refl _
  | rearm => exact Nat.le_refl _
  | draining q irq =>
      have h := hturns q (by rw [ht]; exact beq_self_eq_true q)
      cases q with
      | admin => exact Nat.add_le_add_right (Nat.add_le_add_right h _) _
      | io => exact Nat.add_le_add_right h _

theorem turnsOf_setRing (hnew : turnsOf v ≤ turnsOf (s.rings q)) (q' : QueueId) :
    turnsOf ((s.setRing q v).rings q') ≤ turnsOf (s.rings q') := by
  by_cases heq : q' = q
  · subst heq
    rw [setRing_self]
    exact hnew
  · rw [setRing_other heq]

theorem cqPending_turnsOf (s : Sys) (q q' : QueueId) :
    turnsOf ((cqPending s q).1.rings q') ≤ turnsOf (s.rings q') := by
  unfold cqPending
  cases hr : s.rings q with
  | none => exact Nat.le_refl _
  | some r =>
      refine turnsOf_setRing ?_ q'
      rw [hr]
      exact Nat.le_refl _

theorem cqPending_task (s : Sys) (q : QueueId) : (cqPending s q).1.task = s.task := by
  unfold cqPending
  cases s.rings q <;> rfl

theorem isr_task (s : Sys) : (nvmeIntIsr s).1.task = s.task := by
  unfold nvmeIntIsr
  split
  · rfl
  · dsimp only
    split
    · exact cqPending_task s .io
    · split
      · exact (cqPending_task _ .admin).trans (cqPending_task s .io)
      · exact (cqPending_task _ .admin).trans (cqPending_task s .io)

theorem isr_turnsOf (s : Sys) (q : QueueId) :
    turnsOf ((nvmeIntIsr s).1.rings q) ≤ turnsOf (s.rings q) := by
  unfold nvmeIntIsr
  split
  · exact Nat.le_refl _
  · dsimp only
    split
    · exact cqPending_turnsOf s .io q
    · split
      · exact (cqPending_turnsOf _ .admin q).trans (cqPending_turnsOf s .io q)
      · exact (cqPending_turnsOf _ .admin q).trans (cqPending_turnsOf s .io q)

theorem isr_workLeft (s : Sys) : workLeft (nvmeIntIsr s).1 ≤ workLeft s :=
  workLeft_mono (isr_task s) fun q _ => isr_turnsOf s q

/-- The unit task's own steps. -/
theorem Sound.workLeft_work (h : Sound s) (returns : Bool) :
    workLeft (s.work returns) ≤ workLeft s - if returns then 1 else 0 := by
  have hone : (if returns = true then 1 else 0) ≤ 1 := by split <;> omega
  unfold Sys.work
  cases htask : s.task with
  | asleep =>
      dsimp only
      unfold workLeft
      rw [htask]
      exact Nat.zero_le _
  | rearm => exact Nat.zero_le _
  | draining q irq =>
      dsimp only
      split
      · cases q with
        | admin =>
            have hio : turnsOf (((s.rings .io).map Ring.enter)) ≤ 3 * nvmeIoQueueSize + 3 := by
              cases hr : s.rings .io with
              | none => exact Nat.zero_le _
              | some r => exact turnsOf_le ((h.sane .io r hr).step .enter)
            have heq : workLeft (s.leave .admin irq) =
                turnsOf ((s.rings .io).map Ring.enter) + 2 := by
              unfold Sys.leave Sys.enter workLeft
              dsimp only
              rw [setRing_self]
            have hwas : workLeft s = turnsOf (s.rings .admin) + 3 * nvmeIoQueueSize + 6 := by
              unfold workLeft
              rw [htask]
            omega
        | io =>
            have hwas : workLeft s = turnsOf (s.rings .io) + 2 := by
              unfold workLeft
              rw [htask]
            have hle : workLeft (s.leave .io irq) ≤ 1 := by
              cases irq
              · exact Nat.zero_le _
              · exact Nat.le_refl _
            omega
      · rename_i hbusy
        cases hr : s.rings q with
        | none =>
            rw [hr] at hbusy
            exact absurd rfl hbusy
        | some r =>
            rw [hr] at hbusy
            have hless := (h.sane q r hr).turnsOf_turn (eq_false_of_ne_true hbusy) returns
            have hnow : (s.setRing q ((some r).map (Ring.turn · returns))).rings q =
                some (r.turn returns) := setRing_self
            have htask' : (s.setRing q ((some r).map (Ring.turn · returns))).task =
                .draining q irq := htask
            unfold workLeft
            rw [htask', htask]
            cases q with
            | admin =>
                dsimp only
                rw [hnow, hr]
                omega
            | io =>
                dsimp only
                rw [hnow, hr]
                omega

/-- Whatever else happens leaves the unit task no more to do. -/
theorem Sound.workLeft_step (h : Sound s) {e : Event} (hno : e.startsPass = false) :
    workLeft (Interrupts.step s e) ≤ workLeft s - if e.isWork then 1 else 0 := by
  cases e with
  | work returns => exact h.workLeft_work returns
  | wake => cases hno
  | tick => cases hno
  | post q cqe =>
      refine workLeft_mono ?_ fun q' _ => ?_
      · simp only [Interrupts.step, Sys.post]
        split <;> rfl
      · simp only [Interrupts.step, Sys.post]
        split
        · exact Nat.le_refl _
        · rename_i r hr
          refine turnsOf_setRing ?_ q'
          rw [hr]
          unfold turnsOf
          dsimp only
          rw [CompletionRing.post_pass]
          exact Nat.le_of_eq (congrArg (CompletionRing.turnsLeft · _)
            (CompletionRing.step_depth r (.post cqe)))
  | irq =>
      simp only [Interrupts.step]
      split
      · exact isr_workLeft { s with latched := false }
      · exact Nat.le_refl _
  | shared =>
      simp only [Interrupts.step]
      split
      · exact Nat.le_refl _
      · exact isr_workLeft s
  | setup q =>
      simp only [Interrupts.step]
      split
      · rename_i hnone
        refine workLeft_mono rfl fun q' _ => turnsOf_setRing ?_ q'
        exact Nat.zero_le _
      · exact Nat.le_refl _
  | teardown q =>
      have hdown : workLeft (s.setRing q none) ≤ workLeft s :=
        workLeft_mono rfl fun q' _ => turnsOf_setRing (Nat.zero_le _) q'
      simp only [Interrupts.step]
      split
      · split
        · exact Nat.le_refl _
        · exact hdown
      · exact hdown
  | intmsClear =>
      simp only [Interrupts.step]
      split <;> exact Nat.le_refl _

theorem Sound.workLeft_run (h : Sound s) {later : List Event}
    (hno : ∀ e, e ∈ later → e.startsPass = false) :
    workLeft (Interrupts.run later s) ≤ workLeft s - later.countP Event.isWork := by
  induction later generalizing s with
  | nil => exact Nat.le_refl _
  | cons e later ih =>
      have hone := h.workLeft_step (hno e (List.mem_cons_self ..))
      have hrest := ih (h.step e) fun e' he' => hno e' (List.mem_cons_of_mem _ he')
      rw [List.countP_cons]
      change workLeft (Interrupts.run later (Interrupts.step s e)) ≤ _
      omega

theorem Sound.workLeft_le (h : Sound s) :
    workLeft s ≤ 3 * nvmeAdminQueueSize + 3 * nvmeIoQueueSize + 9 := by
  have hring : ∀ q, turnsOf (s.rings q) ≤ 3 * queueSize q + 3 := by
    intro q
    cases hr : s.rings q with
    | none => exact Nat.zero_le _
    | some r => exact turnsOf_le (h.sane q r hr)
  have hadmin := hring .admin
  have hio := hring .io
  unfold queueSize at hadmin hio
  dsimp only at hadmin hio
  unfold workLeft
  split <;> omega

theorem asleep_of_workLeft (h : workLeft s = 0) : s.task = .asleep := by
  unfold workLeft at h
  split at h
  · assumption
  · exact absurd h (by omega)
  · exact absurd h (by omega)
  · exact absurd h (by omega)

end Passes

/-! ### No completion is stranded -/

/-- The unit task never sleeps on a completion. -/
structure NoneLost (s : Sys) : Prop where
  /-- a masked interrupt is rearmed at the end of the pass that runs or is signalled -/
  rearm : s.masked = true → s.signal = true ∨ s.task.rearms = true
  /-- asleep and not signalled: the interrupt is open, and asserted if a completion is left -/
  asleep : s.task = .asleep → s.signal = false →
    s.masked = false ∧ (s.raised = true ∨ ∀ q r, s.rings q = some r → r.consumed = r.posted)
  /-- the pass that runs ends, when its handlers return -/
  ends : ∀ later : List Event, (∀ e, e ∈ later → e.startsPass = false) →
    3 * nvmeAdminQueueSize + 3 * nvmeIoQueueSize + 9 ≤ later.countP Event.isWork →
    (run later s).task = .asleep

section Results

variable {s : Sys} {q : QueueId} {r : Ring}

theorem Sane.consumed_of_reaped (h : Sane q r) (hreaped : Reaped r) : r.consumed = r.posted := by
  obtain ⟨seen, floor, hi⟩ := h.inv
  rw [hi.order, hreaped]
  exact List.take_length

theorem unacknowledged_false (h : Sane q r) (hidle : r.pass = .idle)
    (hnone : unacknowledged (some r) = false) : r.consumed = r.posted := by
  obtain ⟨seen, floor, hi⟩ := h.inv
  have hrung := h.rung hidle
  have hle := hi.consumed_le
  have hnot : ¬r.rung < r.posted.length := fun hlt => by
    rw [h.unacknowledged_iff.mpr hlt] at hnone
    cases hnone
  refine h.consumed_of_reaped ?_
  unfold Reaped
  omega

theorem Sound.asleep_open (h : Sound s) (htask : s.task = .asleep) (hsig : s.signal = false) :
    s.masked = false := by
  by_contra hm
  rcases h.mask (eq_true_of_ne_false hm) with hs | hs
  · rw [hsig] at hs
    cases hs
  · rw [htask] at hs
    cases hs

/-- Whatever the order of posts, interrupts, wakeups, ticks and resets, with MSI or MSI-X as
with INTx: a completion the unit task has not consumed while it sleeps has signalled it or
asserts an interrupt that is not masked. -/
theorem no_interrupt_lost (msiEnabled : Bool) (events : List Event) :
    NoneLost (run events (Sys.fresh msiEnabled)) := by
  have h := run_sound msiEnabled events
  generalize run events (Sys.fresh msiEnabled) = s at h
  refine ⟨h.mask, fun htask hsig => ?_, fun later hno hwork => ?_⟩
  · have hopen := h.asleep_open htask hsig
    have hidle := h.asleep_idle htask
    refine ⟨hopen, ?_⟩
    by_cases hraised : s.raised = true
    · exact .inl hraised
    refine .inr fun q r hr => ?_
    unfold Sys.raised at hraised
    rw [hopen] at hraised
    by_cases hmsi : s.msiEnabled = true
    · rw [if_pos hmsi] at hraised
      have hcov := ((h.heard hmsi).resolve_left fun hl => hraised hl).resolve_left
        fun hs => Bool.false_ne_true (hsig.symm.trans hs)
      refine (h.sane q r hr).consumed_of_reaped ((hcov q r hr ?_).reaped (hidle q r hr))
      rw [htask]
      cases q <;> rfl
    · rw [if_neg hmsi] at hraised
      obtain ⟨hio, hadmin⟩ := Bool.or_eq_false_iff.mp (eq_false_of_ne_true hraised)
      refine unacknowledged_false (h.sane q r hr) (hidle q r hr) ?_
      cases q with
      | admin => exact hr ▸ hadmin
      | io => exact hr ▸ hio
  · have hleft := h.workLeft_run hno
    have hle := h.workLeft_le
    exact asleep_of_workLeft (by omega)

/-! ### What the interrupt server answers -/

/-- A completion of some queue is not acknowledged through its head doorbell. -/
def Unacknowledged (s : Sys) : Prop :=
  ∃ q r, s.rings q = some r ∧ r.rung < r.posted.length

/-- A completion of some queue lies past `cq_head` and `cq_phase`. -/
def Outstanding (s : Sys) : Prop :=
  ∃ q r, s.rings q = some r ∧ r.published < r.posted.length

/-- A pass has stored `cq_head` and not yet `cq_phase`. -/
def Between (s : Sys) : Prop := ∃ q r, s.rings q = some r ∧ r.between = true

/-- A pass has stored `cq_head` and not yet written the doorbell. -/
def Storing (s : Sys) : Prop := ∃ q r, s.rings q = some r ∧ storing r = true

theorem Sound.agree (h : Sound s) (hout : ¬Storing s) :
    ¬Between s ∧ (Outstanding s ↔ Unacknowledged s) := by
  have hring : ∀ q r, s.rings q = some r → r.between = false ∧ r.rung = r.published :=
    fun q r hr => (h.sane q r hr).agree (eq_false_of_ne_true fun hs => hout ⟨q, r, hr, hs⟩)
  refine ⟨?_, ?_, ?_⟩
  · rintro ⟨q, r, hr, hb⟩
    exact Bool.false_ne_true ((hring q r hr).1.symm.trans hb)
  · rintro ⟨q, r, hr, hlt⟩
    exact ⟨q, r, hr, (hring q r hr).2.trans_lt hlt⟩
  · rintro ⟨q, r, hr, hlt⟩
    exact ⟨q, r, hr, (hring q r hr).2.symm.trans_lt hlt⟩

theorem cqPending_iff (h : Sound s) (hout : ¬Between s) (q : QueueId) :
    (cqPending s q).2 = true ↔ ∃ r, s.rings q = some r ∧ r.published < r.posted.length := by
  unfold cqPending
  cases hr : s.rings q with
  | none => simp
  | some r =>
      have hb : r.between = false := eq_false_of_ne_true fun hb => hout ⟨q, r, hr, hb⟩
      exact ((h.sane q r hr).pending_iff hb).trans (by simp)

theorem cqPending_other (s : Sys) {q q' : QueueId} (hne : q' ≠ q) :
    (cqPending s q).1.rings q' = s.rings q' := by
  unfold cqPending
  cases s.rings q with
  | none => rfl
  | some r => exact setRing_other hne

/-- A look moves no pass. -/
theorem cqPending_pass {q q' : QueueId} {r' : Ring} (hr' : (cqPending s q).1.rings q' = some r') :
    ∃ r, s.rings q' = some r ∧ r'.pass = r.pass := by
  by_cases heq : q' = q
  · subst heq
    unfold cqPending at hr'
    cases hr : s.rings q' with
    | none =>
        rw [hr] at hr'
        change s.rings q' = some r' at hr'
        cases hr.symm.trans hr'
    | some r =>
        rw [hr] at hr'
        dsimp only at hr'
        rw [setRing_self, Option.some.injEq] at hr'
        subst hr'
        exact ⟨r, rfl, rfl⟩
  · rw [cqPending_other s heq] at hr'
    exact ⟨r', hr', rfl⟩

theorem isr_pass {r' : Ring} (hr' : (nvmeIntIsr s).1.rings q = some r') :
    ∃ r, s.rings q = some r ∧ r'.pass = r.pass := by
  have htwo : ∀ r', (cqPending (cqPending s .io).1 .admin).1.rings q = some r' →
      ∃ r, s.rings q = some r ∧ r'.pass = r.pass := by
    intro r' hr'
    obtain ⟨r₁, hr₁, hpass₁⟩ := cqPending_pass hr'
    obtain ⟨r, hr, hpass⟩ := cqPending_pass hr₁
    exact ⟨r, hr, hpass₁.trans hpass⟩
  unfold nvmeIntIsr at hr'
  split at hr'
  · exact ⟨r', hr', rfl⟩
  · dsimp only at hr'
    split at hr'
    · exact cqPending_pass hr'
    · split at hr'
      · exact htwo r' hr'
      · exact htwo r' hr'

theorem isr_iff (h : Sound s) (hintx : s.msiEnabled = false) (hout : ¬Between s) :
    (nvmeIntIsr s).2 = true ↔ Outstanding s := by
  have hout' : ¬Between (cqPending s .io).1 := by
    rintro ⟨q, r', hr', hb⟩
    obtain ⟨r, hr, hpass⟩ := cqPending_pass hr'
    refine hout ⟨q, r, hr, ?_⟩
    unfold Ring.between at hb ⊢
    rw [← hpass]
    exact hb
  have hio := cqPending_iff h hout .io
  have hadmin := cqPending_iff (h.cqPending .io) hout' .admin
  have hsame : (cqPending s .io).1.rings .admin = s.rings .admin :=
    cqPending_other s (fun h => by cases h)
  rw [hsame] at hadmin
  have hcases : Outstanding s ↔
      (cqPending s .io).2 = true ∨ (cqPending (cqPending s .io).1 .admin).2 = true := by
    rw [hio, hadmin]
    constructor
    · rintro ⟨q, r, hr, hlt⟩
      cases q with
      | io => exact .inl ⟨r, hr, hlt⟩
      | admin => exact .inr ⟨r, hr, hlt⟩
    · rintro (⟨r, hr, hlt⟩ | ⟨r, hr, hlt⟩)
      · exact ⟨.io, r, hr, hlt⟩
      · exact ⟨.admin, r, hr, hlt⟩
  rw [hcases]
  unfold nvmeIntIsr
  rw [if_neg (by rw [hintx]; exact Bool.false_ne_true)]
  dsimp only
  cases hi : (cqPending s .io).2 with
  | true => simp
  | false =>
      cases ha : (cqPending (cqPending s .io).1 .admin).2 with
      | true => simp
      | false => simp

theorem raised_iff (h : Sound s) (hintx : s.msiEnabled = false) :
    s.raised = true ↔ s.masked = false ∧ Unacknowledged s := by
  have hring : ∀ q, unacknowledged (s.rings q) = true ↔
      ∃ r, s.rings q = some r ∧ r.rung < r.posted.length := by
    intro q
    cases hr : s.rings q with
    | none => simp [unacknowledged]
    | some r => exact (h.sane q r hr).unacknowledged_iff.trans (by simp)
  unfold Sys.raised
  rw [hintx, if_neg Bool.false_ne_true, Bool.and_eq_true, Bool.or_eq_true, hring, hring,
    Bool.not_eq_true']
  refine and_congr_right fun _ => ⟨?_, ?_⟩
  · rintro (⟨r, hr, hlt⟩ | ⟨r, hr, hlt⟩)
    · exact ⟨.io, r, hr, hlt⟩
    · exact ⟨.admin, r, hr, hlt⟩
  · rintro ⟨q, r, hr, hlt⟩
    cases q with
    | io => exact .inl ⟨r, hr, hlt⟩
    | admin => exact .inr ⟨r, hr, hlt⟩

/-- The event is no step of the unit task. -/
def Event.isOutside : Event → Bool
  | .post _ _ | .irq | .shared | .intmsClear => true
  | _ => false

theorem isr_msiEnabled (s : Sys) : (nvmeIntIsr s).1.msiEnabled = s.msiEnabled := by
  have hlook : ∀ s q, (cqPending s q).1.msiEnabled = s.msiEnabled := by
    intro s q
    unfold cqPending
    cases s.rings q <;> rfl
  unfold nvmeIntIsr
  split
  · rfl
  · dsimp only
    split
    · exact hlook s .io
    · split
      · exact (hlook _ .admin).trans (hlook s .io)
      · exact (hlook _ .admin).trans (hlook s .io)

theorem step_msiEnabled (s : Sys) (e : Event) : (step s e).msiEnabled = s.msiEnabled := by
  cases e with
  | post q cqe =>
      simp only [step, Sys.post]
      split <;> rfl
  | irq =>
      simp only [step]
      split
      · exact isr_msiEnabled { s with latched := false }
      · rfl
  | shared =>
      simp only [step]
      split
      · rfl
      · exact isr_msiEnabled s
  | wake =>
      simp only [step]
      split <;> rfl
  | tick =>
      simp only [step]
      split <;> rfl
  | work =>
      simp only [step, Sys.work]
      split
      · rfl
      · rfl
      · split
        · rename_i q irq _ _
          cases q <;> rfl
        · rfl
  | setup q =>
      simp only [step]
      split <;> rfl
  | teardown q =>
      simp only [step]
      split
      · split <;> rfl
      · rfl
  | intmsClear =>
      simp only [step]
      split <;> rfl

theorem run_msiEnabled (events : List Event) (s : Sys) :
    (run events s).msiEnabled = s.msiEnabled := by
  induction events generalizing s with
  | nil => rfl
  | cons e events ih => exact (ih (step s e)).trans (step_msiEnabled s e)

theorem isr_outstanding (h : Outstanding s) : Outstanding (nvmeIntIsr s).1 := by
  have hlook : ∀ {s : Sys} (q : QueueId), Outstanding s → Outstanding (cqPending s q).1 := by
    rintro s q ⟨q', r, hr, hlt⟩
    by_cases heq : q' = q
    · subst heq
      refine ⟨q', (nvmeCqPending r).1, ?_, hlt⟩
      unfold cqPending
      rw [hr]
      exact setRing_self
    · exact ⟨q', r, (cqPending_other s heq).trans hr, hlt⟩
  unfold nvmeIntIsr
  split
  · exact h
  · dsimp only
    split
    · exact hlook .io h
    · split
      · exact hlook .admin (hlook .io h)
      · exact hlook .admin (hlook .io h)

/-- Only the unit task acknowledges completions. -/
theorem Outstanding.step (h : Outstanding s) {e : Event} (hout : e.isOutside = true) :
    Outstanding (Interrupts.step s e) := by
  cases e with
  | post q cqe =>
      obtain ⟨q', r, hr, hlt⟩ := h
      simp only [Interrupts.step, Sys.post]
      split
      · exact ⟨q', r, hr, hlt⟩
      · rename_i r₀ hr₀
        by_cases heq : q' = q
        · subst heq
          cases hr.symm.trans hr₀
          refine ⟨q', r.post cqe, setRing_self, ?_⟩
          unfold Ring.post
          split
          · exact hlt
          · exact hlt.trans_le (by simp)
        · exact ⟨q', r, (setRing_other heq).trans hr, hlt⟩
  | irq =>
      simp only [Interrupts.step]
      split
      · exact isr_outstanding (s := { s with latched := false }) h
      · exact h
  | shared =>
      simp only [Interrupts.step]
      split
      · exact h
      · exact isr_outstanding h
  | intmsClear =>
      simp only [Interrupts.step]
      split <;> exact h
  | wake => cases hout
  | tick => cases hout
  | work => cases hout
  | setup q => cases hout
  | teardown q => cases hout

/-- Only the unit task moves a pass. -/
theorem outside_pass {e : Event} (hout : e.isOutside = true) {r' : Ring}
    (hr' : (Interrupts.step s e).rings q = some r') :
    ∃ r, s.rings q = some r ∧ r'.pass = r.pass := by
  cases e with
  | post q' cqe =>
      simp only [Interrupts.step, Sys.post] at hr'
      split at hr'
      · exact ⟨r', hr', rfl⟩
      · rename_i r hr
        by_cases heq : q = q'
        · subst heq
          change (s.setRing q (some (r.post cqe))).rings q = some r' at hr'
          rw [setRing_self, Option.some.injEq] at hr'
          subst hr'
          exact ⟨r, hr, CompletionRing.post_pass r cqe⟩
        · exact ⟨r', (setRing_other heq).symm.trans hr', rfl⟩
  | irq =>
      simp only [Interrupts.step] at hr'
      split at hr'
      · exact isr_pass (s := { s with latched := false }) hr'
      · exact ⟨r', hr', rfl⟩
  | shared =>
      simp only [Interrupts.step] at hr'
      split at hr'
      · exact ⟨r', hr', rfl⟩
      · exact isr_pass hr'
  | intmsClear =>
      simp only [Interrupts.step] at hr'
      split at hr' <;> exact ⟨r', hr', rfl⟩
  | wake => cases hout
  | tick => cases hout
  | work => cases hout
  | setup q => cases hout
  | teardown q => cases hout

theorem outside_between {e : Event} (hout : e.isOutside = true) (hnot : ¬Between s) :
    ¬Between (Interrupts.step s e) := by
  rintro ⟨q, r', hr', hb⟩
  obtain ⟨r, hr, hpass⟩ := outside_pass hout hr'
  refine hnot ⟨q, r, hr, ?_⟩
  unfold Ring.between at hb ⊢
  rw [← hpass]
  exact hb

theorem Outstanding.run (h : Outstanding s) (hnot : ¬Between s) {later : List Event}
    (hout : ∀ e, e ∈ later → e.isOutside = true) :
    Outstanding (Interrupts.run later s) ∧ ¬Between (Interrupts.run later s) := by
  induction later generalizing s with
  | nil => exact ⟨h, hnot⟩
  | cons e later ih =>
      have hone := hout e (List.mem_cons_self ..)
      exact ih (h.step hone) (outside_between hone hnot)
        fun e' he' => hout e' (List.mem_cons_of_mem _ he')

/-- What `nvme_int_isr` answers on an INTx line. -/
structure IsrAnswers (s : Sys) : Prop where
  pin : s.raised = true ↔ s.masked = false ∧ Unacknowledged s
  /-- unless a pass is at its last stores, our own interrupt is claimed, but so is another one
  while ours is masked -/
  claims : ¬Storing s → ((nvmeIntIsr s).2 = true ↔ Unacknowledged s)
  /-- before the write of the doorbell our own interrupt may still be asserted -/
  late : ¬Between s → ((nvmeIntIsr s).2 = true ↔ Outstanding s)
  /-- and again, until the unit task gets to run -/
  again : ¬Between s → (nvmeIntIsr s).2 = true → ∀ later : List Event,
    (∀ e, e ∈ later → e.isOutside = true) → (nvmeIntIsr (run later s)).2 = true

/-- On an INTx line, unless the unit task is at the last stores of a drain pass, the interrupt
server claims whatever arrives while a completion on either queue has not been acknowledged:
its own interrupt always, and every interrupt of another function from the moment it has
masked its own until the unit task has drained the queues. -/
theorem isr_answers (events : List Event) :
    IsrAnswers (run events (Sys.fresh false)) := by
  have h := run_sound false events
  have hintx := run_msiEnabled events (Sys.fresh false)
  generalize run events (Sys.fresh false) = s at h hintx
  change s.msiEnabled = false at hintx
  refine ⟨raised_iff h hintx, fun hout => ?_, isr_iff h hintx, fun hnot hclaim later hout => ?_⟩
  · obtain ⟨hnot, hsame⟩ := h.agree hout
    exact (isr_iff h hintx hnot).trans hsame
  · obtain ⟨hstill, hnot'⟩ := ((isr_iff h hintx hnot).mp hclaim).run hnot hout
    exact (isr_iff (h.run later) ((run_msiEnabled later s).trans hintx) hnot').mpr hstill

/-! ### One pass for an interrupt -/

/-- The interrupts claimed, the passes they wake and the rearms that follow. -/
structure Paired (s : Sys) : Prop where
  claimed : s.claimed = s.wakeups + s.signal.toNat
  wakeups : s.wakeups = s.rearms + s.task.rearms.toNat
  masked : s.masked = (s.signal || s.task.rearms)
  once : (s.signal && s.task.rearms) = false

/-- Other functions on the line, and resets, that touch the mask or the signal. -/
def Event.disturbs : Event → Bool
  | .shared | .intmsClear => true
  | _ => false

/-- The counters, and whether a rearm is on its way, are as before. -/
structure SameCounts (s s' : Sys) : Prop where
  claimed : s'.claimed = s.claimed
  wakeups : s'.wakeups = s.wakeups
  rearms : s'.rearms = s.rearms
  rearming : s'.task.rearms = s.task.rearms

theorem SameCounts.trans {s s' s'' : Sys} (h : SameCounts s s') (h' : SameCounts s' s'') :
    SameCounts s s'' :=
  ⟨h'.claimed.trans h.claimed, h'.wakeups.trans h.wakeups, h'.rearms.trans h.rearms,
    h'.rearming.trans h.rearming⟩

theorem cqPending_counts (s : Sys) (q : QueueId) : SameCounts s (cqPending s q).1 := by
  unfold cqPending
  cases s.rings q <;> exact ⟨rfl, rfl, rfl, rfl⟩

theorem isr_counts (s : Sys) : SameCounts s (nvmeIntIsr s).1 := by
  have hclaim : ∀ s : Sys, SameCounts s s.claim := fun _ => ⟨rfl, rfl, rfl, rfl⟩
  unfold nvmeIntIsr
  split
  · exact hclaim s
  · dsimp only
    split
    · exact (cqPending_counts s .io).trans (hclaim _)
    · split
      · exact ((cqPending_counts s .io).trans (cqPending_counts _ .admin)).trans (hclaim _)
      · exact (cqPending_counts s .io).trans (cqPending_counts _ .admin)

/-- A claimed interrupt is masked and signalled. -/
theorem isr_masks (h : (nvmeIntIsr s).2 = true) :
    (nvmeIntIsr s).1.masked = true ∧ (nvmeIntIsr s).1.signal = true := by
  unfold nvmeIntIsr at h ⊢
  split
  · exact ⟨rfl, rfl⟩
  · rename_i hintx
    rw [if_neg hintx] at h
    dsimp only at h ⊢
    split
    · exact ⟨rfl, rfl⟩
    · rename_i hio
      rw [if_neg hio] at h
      split
      · exact ⟨rfl, rfl⟩
      · rename_i hadmin
        rw [if_neg hadmin] at h
        cases h

/-- An interrupt that is not claimed leaves mask and signal alone. -/
theorem isr_declines (h : (nvmeIntIsr s).2 = false) :
    (nvmeIntIsr s).1.masked = s.masked ∧ (nvmeIntIsr s).1.signal = s.signal := by
  have hlook : ∀ s q, (cqPending s q).1.masked = s.masked ∧
      (cqPending s q).1.signal = s.signal := by
    intro s q
    unfold cqPending
    cases s.rings q <;> exact ⟨rfl, rfl⟩
  unfold nvmeIntIsr at h ⊢
  split
  · rename_i hmsi
    rw [if_pos hmsi] at h
    cases h
  · rename_i hintx
    rw [if_neg hintx] at h
    dsimp only at h ⊢
    split
    · rename_i hio
      rw [if_pos hio] at h
      cases h
    · rename_i hio
      rw [if_neg hio] at h
      split
      · rename_i hadmin
        rw [if_pos hadmin] at h
        cases h
      · obtain ⟨h₁, h₂⟩ := hlook s .io
        obtain ⟨h₃, h₄⟩ := hlook (cqPending s .io).1 .admin
        exact ⟨h₃.trans h₁, h₄.trans h₂⟩

theorem Paired.of_same {s s' : Sys} (h : Paired s) (hc : SameCounts s s')
    (hmasked : s'.masked = s.masked) (hsignal : s'.signal = s.signal) : Paired s' := by
  obtain ⟨h₁, h₂, h₃, h₄⟩ := h
  refine ⟨?_, ?_, ?_, ?_⟩
  · rw [hc.claimed, hc.wakeups, hsignal, h₁]
  · rw [hc.wakeups, hc.rearms, hc.rearming, h₂]
  · rw [hmasked, hsignal, hc.rearming, h₃]
  · rw [hsignal, hc.rearming, h₄]

theorem Paired.work (h : Paired s) (returns : Bool) : Paired (s.work returns) := by
  unfold Sys.work
  cases htask : s.task with
  | asleep => exact h
  | rearm =>
      obtain ⟨h₁, h₂, h₃, h₄⟩ := h
      rw [htask] at h₂ h₃ h₄
      have hsig : s.signal = false := by simpa [Task.rearms] using h₄
      refine ⟨h₁, ?_, ?_, ?_⟩
      · change s.wakeups = s.rearms + 1 + 0
        exact h₂
      · change false = (s.signal || false)
        rw [hsig]
        rfl
      · change (s.signal && false) = false
        exact Bool.and_false _
  | draining q irq =>
      dsimp only
      split
      · cases q with
        | admin => exact h.of_same ⟨rfl, rfl, rfl, by rw [htask]; rfl⟩ rfl rfl
        | io => exact h.of_same ⟨rfl, rfl, rfl, by rw [htask]; cases irq <;> rfl⟩ rfl rfl
      · exact h.of_same ⟨rfl, rfl, rfl, rfl⟩ rfl rfl

/-- Our interrupt is taken: the source was open, and no pass was owed. -/
theorem Paired.irq (h : Paired s) (hopen : s.masked = false) :
    Paired { (nvmeIntIsr { s with latched := false }).1 with
      claimed := s.claimed + (nvmeIntIsr { s with latched := false }).2.toNat } := by
  have hcounts := isr_counts { s with latched := false }
  cases hclaim : (nvmeIntIsr { s with latched := false }).2 with
  | false =>
      obtain ⟨hmask', hsig'⟩ := isr_declines hclaim
      refine h.of_same ⟨?_, hcounts.wakeups, hcounts.rearms, hcounts.rearming⟩ hmask' hsig'
      change s.claimed + 0 = s.claimed
      rfl
  | true =>
      obtain ⟨h₁, h₂, h₃, h₄⟩ := h
      obtain ⟨hsig, hrearm⟩ := Bool.or_eq_false_iff.mp (h₃.symm.trans hopen)
      obtain ⟨hmask', hsig'⟩ := isr_masks hclaim
      obtain ⟨-, hc₂, hc₃, hc₄⟩ := hcounts
      refine ⟨?_, ?_, ?_, ?_⟩
      · dsimp only at hc₂ ⊢
        rw [hc₂, hsig', h₁, hsig]
        rfl
      · dsimp only at hc₂ hc₃ hc₄ ⊢
        rw [hc₂, hc₃, hc₄, h₂]
      · dsimp only
        rw [hmask', hsig']
        rfl
      · dsimp only at hc₄ ⊢
        rw [hc₄, hrearm, Bool.and_false]

theorem Paired.step (h : Paired s) {e : Event}
    (hown : s.msiEnabled = true ∨ e.disturbs = false) : Paired (Interrupts.step s e) := by
  cases e with
  | post q cqe =>
      simp only [Interrupts.step, Sys.post]
      split
      · exact h
      · exact h.of_same ⟨rfl, rfl, rfl, rfl⟩ rfl rfl
  | irq =>
      simp only [Interrupts.step]
      split
      · rename_i hraised
        have hopen : s.masked = false := by
          unfold Sys.raised at hraised
          exact Bool.not_eq_true' _ ▸ (Bool.and_eq_true _ _ ▸ hraised).1
        exact h.irq hopen
      · exact h
  | shared =>
      simp only [Interrupts.step]
      split
      · exact h
      · rename_i hintx
        exact absurd (hown.resolve_left hintx) (by simp [Event.disturbs])
  | wake =>
      simp only [Interrupts.step]
      split
      · rename_i hen
        obtain ⟨h₁, h₂, h₃, h₄⟩ := h
        have hrearm : s.task.rearms = false := by
          rw [hen.1]
          rfl
        rw [hen.2] at h₁ h₃
        rw [hrearm] at h₂
        refine ⟨h₁, ?_, h₃, rfl⟩
        change s.wakeups + 1 = s.rearms + 1
        rw [h₂]
        rfl
      · exact h
  | tick =>
      simp only [Interrupts.step]
      split
      · rename_i htask
        obtain ⟨h₁, h₂, h₃, h₄⟩ := h
        rw [htask] at h₂ h₃ h₄
        exact ⟨h₁, h₂, h₃, h₄⟩
      · exact h
  | work returns => exact h.work returns
  | setup q =>
      simp only [Interrupts.step]
      split
      · exact h.of_same ⟨rfl, rfl, rfl, rfl⟩ rfl rfl
      · exact h
  | teardown q =>
      have hdown : Paired (s.setRing q none) := h.of_same ⟨rfl, rfl, rfl, rfl⟩ rfl rfl
      simp only [Interrupts.step]
      split
      · split
        · exact h
        · exact hdown
      · exact hdown
  | intmsClear =>
      simp only [Interrupts.step]
      split
      · exact h
      · rename_i hintx
        exact absurd (hown.resolve_left hintx) (by simp [Event.disturbs])

/-- Two completions, one interrupt. -/
def burst : List Event :=
  [.setup .admin, .setup .io, .post .io ⟨0, 0, 0⟩, .irq, .post .io ⟨1, 0, 0⟩, .irq, .wake]

example : (run burst (Sys.fresh false)).claimed = 1 := by decide +kernel

end Results

end Interrupts
end NvmeDriver
