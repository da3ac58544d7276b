import NvmeDriver.Ownership.Safe
import NvmeDriver.Lib.Laps

/-!
# The submission queue doorbell

One `struct nvme_queue` as nvme_io.c submits to it: the ring memory, the tail, the
tail at the last doorbell and the 16-bit nesting counter of submission batches.
The log tells which slots were written and which values went to the doorbell, so
that what the controller has been told can be compared with what was written.
-/

namespace NvmeDriver
namespace SqDoorbell

universe u

open Lib

/-- What the queue's memory and its doorbell register have seen, newest first in
a log. -/
inductive SqEvent (α : Type u) where
  /-- the ring was created or torn down -/
  | renewed
  | written (slot : Nat) (cmd : α)
  | doorbell (value : Nat)
deriving DecidableEq

/-- The fields of `struct nvme_queue` that submission reads and writes. -/
structure NvmeQueue (α : Type u) where
  /-- `sq`, by slot; `none` is NULL -/
  sq : Option (Nat → Option α)
  depth : Nat
  sqTail : Nat
  lastSqTail : Nat
  sqBatchDepth : Nat
  cqHead : Nat
  log : List (SqEvent α)

variable {α : Type u}

/-- `nvme_sq_commit`. -/
def nvmeSqCommit (q : NvmeQueue α) : NvmeQueue α :=
  if q.sqTail ≠ q.lastSqTail then
    { q with lastSqTail := q.sqTail, log := .doorbell q.sqTail :: q.log }
  else q

/-- `nvme_sq_batch_begin`; the counter is a u16. -/
def nvmeSqBatchBegin (q : NvmeQueue α) : NvmeQueue α :=
  { q with sqBatchDepth := (q.sqBatchDepth + 1) % 2 ^ 16 }

/-- `nvme_sq_batch_end`. -/
def nvmeSqBatchEnd (q : NvmeQueue α) : NvmeQueue α :=
  if q.sqBatchDepth = 0 then q
  else
    let q₁ := { q with sqBatchDepth := q.sqBatchDepth - 1 }
    if q₁.sqBatchDepth = 0 then nvmeSqCommit q₁ else q₁

/-- The slot is written and the tail moves on. -/
def writeSlot (q : NvmeQueue α) (slots : Nat → Option α) (cmd : α) : NvmeQueue α :=
  { q with
    sq := some (Function.update slots q.sqTail (some cmd))
    sqTail := (q.sqTail + 1) % q.depth
    log := .written q.sqTail cmd :: q.log }

/-- `nvme_submit_io`. -/
def nvmeSubmitIo (q : NvmeQueue α) (cmd : α) : NvmeQueue α × Int :=
  match q.sq with
  | none => (q, ioerrBadAddress)
  | some slots =>
      if (q.sqTail + 1) % q.depth = q.cqHead then (q, ioerrUnitBusy)
      else
        let q₁ := writeSlot q slots cmd
        (if q₁.sqBatchDepth = 0 then nvmeSqCommit q₁ else q₁, nvmeIoAsync)

/-- `nvme_setup_queue`: everything cleared, then the ring. -/
def nvmeSetupQueue (q : NvmeQueue α) (depth : Nat) : NvmeQueue α :=
  { sq := some fun _ => none, depth := depth, sqTail := 0, lastSqTail := 0, sqBatchDepth := 0
    cqHead := 0, log := .renewed :: q.log }

/-- `nvme_teardown_queue`. -/
def nvmeTeardownQueue (q : NvmeQueue α) : NvmeQueue α :=
  { sq := none, depth := 0, sqTail := 0, lastSqTail := 0, sqBatchDepth := 0, cqHead := 0
    log := .renewed :: q.log }

/-- What is done to a queue, in any order: batches, submissions, completions that
move the CQ head, and the queue's own lifetime. -/
inductive SqOp (α : Type u) where
  | batchBegin
  | batchEnd
  | submit (cmd : α)
  | consume (head : Nat)
  | setup (depth : Nat)
  | teardown

def NvmeQueue.apply (q : NvmeQueue α) : SqOp α → NvmeQueue α
  | .batchBegin => nvmeSqBatchBegin q
  | .batchEnd => nvmeSqBatchEnd q
  | .submit cmd => (nvmeSubmitIo q cmd).1
  | .consume head => { q with cqHead := head }
  | .setup depth => nvmeSetupQueue q depth
  | .teardown => nvmeTeardownQueue q

/-- The SQEs written since the last doorbell, oldest first. -/
def unannounced : List (SqEvent α) → List (Nat × α)
  | [] => []
  | .renewed :: _ => []
  | .doorbell _ :: _ => []
  | .written slot cmd :: log => unannounced log ++ [(slot, cmd)]

/-- The value of the last doorbell; a new ring starts at 0. -/
def lastValue : List (SqEvent α) → Nat
  | [] => 0
  | .renewed :: _ => 0
  | .doorbell v :: _ => v
  | .written _ _ :: log => lastValue log

/-- At most `depth - 1` SQEs wait for a doorbell. -/
def Room (q : NvmeQueue α) : Prop := (unannounced q.log).length ≤ q.depth - 1

instance (q : NvmeQueue α) : Decidable (Room q) := inferInstanceAs (Decidable (_ ≤ _))

/-- What the driver does not do to a queue: set up a ring without slots, or move
the CQ head out of the ring. -/
def Legal (q : NvmeQueue α) : SqOp α → Prop
  | .setup depth => 0 < depth
  | .consume head => head < q.depth
  | _ => True

/-- A queue that was just set up. -/
def NvmeQueue.fresh (depth : Nat) : NvmeQueue α :=
  { sq := some fun _ => none, depth := depth, sqTail := 0, lastSqTail := 0, sqBatchDepth := 0
    cqHead := 0, log := [] }

/-- The queues that operations of a kind lead to, as long as there is room. -/
inductive Reachable (ok : NvmeQueue α → SqOp α → Prop) : NvmeQueue α → Prop
  | start (depth : Nat) (hdepth : 0 < depth) : Reachable ok (.fresh depth)
  | step {q : NvmeQueue α} (h : Reachable ok q) (op : SqOp α) (hlegal : Legal q op)
      (hok : ok q op) (hroom : Room (q.apply op)) : Reachable ok (q.apply op)

/-- No batch is begun while 65535 are open. -/
def Shallow (q : NvmeQueue α) (op : SqOp α) : Prop :=
  op = .batchBegin → q.sqBatchDepth + 1 < 2 ^ 16

/-- SQEs in a row of slots from `base` on, each of them in the ring's memory. -/
structure InOrder (q : NvmeQueue α) (base : Nat) (sqes : List (Nat × α)) : Prop where
  slots : sqes.map Prod.fst = (List.range sqes.length).map fun k => (base + k) % q.depth
  written : ∀ sqe, sqe ∈ sqes → ∃ mem, q.sq = some mem ∧ mem sqe.1 = some sqe.2

/-- A doorbell with the value `v` announces the row of SQEs that stand in memory from
the doorbell before it, in `log`, up to `v`. -/
structure Announces (q : NvmeQueue α) (v : Nat) (log : List (SqEvent α)) : Prop where
  inOrder : InOrder q (lastValue log) (unannounced log)
  value : v = (lastValue log + (unannounced log).length) % q.depth

/-- What the log and the fields of a queue have to do with each other. -/
structure Sound (q : NvmeQueue α) : Prop where
  last : q.lastSqTail = lastValue q.log
  lastLt : q.sq ≠ none → q.lastSqTail < q.depth
  headLt : q.sq ≠ none → q.cqHead < q.depth
  gone : q.sq = none → unannounced q.log = [] ∧ q.sqTail = q.lastSqTail
  order : InOrder q q.lastSqTail (unannounced q.log)
  tail : q.sq ≠ none → q.sqTail = (q.lastSqTail + (unannounced q.log).length) % q.depth

/-- Outside all batches nothing waits for a doorbell. -/
def Rung (q : NvmeQueue α) : Prop := q.sqBatchDepth = 0 → unannounced q.log = []

variable {q : NvmeQueue α} {ok : NvmeQueue α → SqOp α → Prop}

/-- With room, the tail stands at the last doorbell only if nothing was written. -/
theorem tail_eq_iff (h : Sound q) (hroom : Room q) :
    q.sqTail = q.lastSqTail ↔ unannounced q.log = [] := by
  by_cases hsq : q.sq = none
  · obtain ⟨hnone, htail⟩ := h.gone hsq
    exact ⟨fun _ => hnone, fun _ => htail⟩
  have hlt := h.lastLt hsq
  have htail := h.tail hsq
  constructor
  · intro heq
    by_contra hne
    have hpos := List.length_pos_iff.mpr hne
    have hclose : q.lastSqTail % q.depth ≠
        (q.lastSqTail + (unannounced q.log).length) % q.depth := by
      unfold Room at hroom
      exact mod_ne_of_close (by omega) (by omega)
    rw [Nat.mod_eq_of_lt hlt, ← htail] at hclose
    exact hclose heq.symm
  · intro hnil
    rw [htail, hnil, List.length_nil, Nat.add_zero, Nat.mod_eq_of_lt hlt]

/-! ### The steps -/

theorem sound_fresh {depth : Nat} (hdepth : 0 < depth) {log : List (SqEvent α)}
    (hlast : lastValue log = 0) (hnone : unannounced log = []) :
    Sound { NvmeQueue.fresh depth with log := log } where
  last := hlast.symm
  lastLt := fun _ => hdepth
  headLt := fun _ => hdepth
  gone := fun h => nomatch h
  order := by
    rw [hnone]
    exact ⟨rfl, fun _ h => nomatch h⟩
  tail := fun _ => by
    rw [hnone]
    exact (Nat.zero_mod depth).symm

theorem sound_teardown : Sound (nvmeTeardownQueue q) where
  last := rfl
  lastLt := fun h => absurd rfl h
  headLt := fun h => absurd rfl h
  gone := fun _ => ⟨rfl, rfl⟩
  order := ⟨rfl, fun _ h => nomatch h⟩
  tail := fun h => absurd rfl h

/-- A queue with the same ring is as sound, whatever its nesting. -/
theorem Sound.nested (h : Sound q) (n : Nat) : Sound { q with sqBatchDepth := n } where
  last := h.last
  lastLt := h.lastLt
  headLt := h.headLt
  gone := h.gone
  order := ⟨h.order.slots, h.order.written⟩
  tail := h.tail

theorem Sound.consumed (h : Sound q) {head : Nat} (hhead : head < q.depth) :
    Sound { q with cqHead := head } where
  last := h.last
  lastLt := h.lastLt
  headLt := fun _ => hhead
  gone := h.gone
  order := ⟨h.order.slots, h.order.written⟩
  tail := h.tail

/-- A commit leaves nothing unannounced. -/
theorem commit_spec (h : Sound q) (hroom : Room q) :
    Sound (nvmeSqCommit q) ∧ unannounced (nvmeSqCommit q).log = [] := by
  by_cases heq : q.sqTail = q.lastSqTail
  · have hnone := (tail_eq_iff h hroom).mp heq
    rw [nvmeSqCommit, if_neg (not_not_intro heq)]
    exact ⟨h, hnone⟩
  have hsq : q.sq ≠ none := fun hsq => heq (h.gone hsq).2
  have hpos : 0 < q.depth := Nat.lt_of_le_of_lt (Nat.zero_le _) (h.lastLt hsq)
  have htail : q.sqTail < q.depth := by
    rw [h.tail hsq]
    exact Nat.mod_lt _ hpos
  rw [nvmeSqCommit, if_pos heq]
  refine ⟨?_, rfl⟩
  exact
    { last := rfl
      lastLt := fun _ => htail
      headLt := h.headLt
      gone := fun hsq' => absurd hsq' hsq
      order := ⟨rfl, fun _ h => nomatch h⟩
      tail := fun _ => (Nat.mod_eq_of_lt htail).symm }

/-- The tail is not the slot of an SQE that waits for a doorbell. -/
theorem slot_ne_tail (h : Sound q) (hsq : q.sq ≠ none)
    (hroom : (unannounced q.log).length < q.depth) {sqe : Nat × α}
    (hmem : sqe ∈ unannounced q.log) : sqe.1 ≠ q.sqTail := by
  have hslot : sqe.1 ∈ (unannounced q.log).map Prod.fst := List.mem_map_of_mem hmem
  rw [h.order.slots] at hslot
  obtain ⟨k, hk, hslot⟩ := List.mem_map.mp hslot
  have hlt := List.mem_range.mp hk
  rw [← hslot, h.tail hsq]
  exact mod_ne_of_close (by omega) (by omega)

/-- Writing one more SQE keeps the row of slots. -/
theorem writeSlot_sound (h : Sound q) {slots : Nat → Option α} (hsq : q.sq = some slots)
    (cmd : α) (hroom : (unannounced q.log).length < q.depth) :
    Sound (writeSlot q slots cmd) := by
  have hsome : q.sq ≠ none := by
    rw [hsq]
    exact Option.some_ne_none slots
  have htail := h.tail hsome
  have hlog : unannounced (writeSlot q slots cmd).log =
      unannounced q.log ++ [(q.sqTail, cmd)] := rfl
  constructor
  · exact h.last
  · exact fun _ => h.lastLt hsome
  · exact fun _ => h.headLt hsome
  · exact fun hnone => nomatch hnone
  · constructor
    · rw [hlog, List.map_append, h.order.slots, List.length_append, List.length_singleton,
        List.range_succ, List.map_append, htail]
      rfl
    · intro sqe hmem
      refine ⟨Function.update slots q.sqTail (some cmd), rfl, ?_⟩
      rw [hlog] at hmem
      rcases List.mem_append.mp hmem with hold | hnew
      · obtain ⟨mem, hq, hslot⟩ := h.order.written sqe hold
        rw [hsq, Option.some_inj] at hq
        rw [Function.update_of_ne (slot_ne_tail h hsome hroom hold), hq]
        exact hslot
      · rw [List.mem_singleton.mp hnew, Function.update_self]
  · intro _
    change (q.sqTail + 1) % q.depth = _
    rw [htail, hlog, List.length_append, List.length_singleton, Nat.mod_add_mod, Nat.add_assoc]
    rfl

/-- What a step leaves: a sound queue, nothing unannounced outside all batches,
and a doorbell only with the tail it leaves, for SQEs that are all in memory. -/
structure StepSpec (q q' : NvmeQueue α) : Prop where
  sound : Sound q'
  rung : Rung q'
  doorbell : ∃ l, q'.log = l ++ q.log ∧ ∀ v, .doorbell v ∈ l →
    v = q'.sqTail ∧ ∃ log, q'.log = .doorbell v :: log ∧ Announces q' v log

/-- A step that rings no doorbell. -/
theorem StepSpec.silent {q' : NvmeQueue α} (hsound : Sound q') (hrung : Rung q')
    (l : List (SqEvent α)) (hlog : q'.log = l ++ q.log) (hl : ∀ v, .doorbell v ∉ l) :
    StepSpec q q' :=
  ⟨hsound, hrung, l, hlog, fun v hv => absurd hv (hl v)⟩

/-- A commit announces exactly what was written since the last one. -/
theorem commit_step (h : Sound q) (hroom : Room q) {q₀ : NvmeQueue α}
    (l : List (SqEvent α)) (hlog : q.log = l ++ q₀.log) (hl : ∀ v, .doorbell v ∉ l) :
    StepSpec q₀ (nvmeSqCommit q) := by
  obtain ⟨hsound, hnone⟩ := commit_spec h hroom
  by_cases htail : q.sqTail = q.lastSqTail
  · rw [nvmeSqCommit, if_neg (not_not_intro htail)] at hsound hnone ⊢
    exact .silent hsound (fun _ => hnone) l hlog hl
  rw [nvmeSqCommit, if_pos htail] at hsound hnone ⊢
  refine ⟨hsound, fun _ => hnone, .doorbell q.sqTail :: l, by rw [hlog]; rfl, fun v hv => ?_⟩
  rcases List.mem_cons.mp hv with hv | hv
  · cases hv
    have hsq : q.sq ≠ none := fun hsq => htail (h.gone hsq).2
    refine ⟨rfl, q.log, rfl, ?_, ?_⟩
    · rw [← h.last]
      exact ⟨h.order.slots, h.order.written⟩
    · rw [← h.last]
      exact h.tail hsq
  · exact absurd hv (hl v)

theorem batchEnd_step (h : Sound q) (hrung : Rung q) (hroom : Room q) :
    StepSpec q (nvmeSqBatchEnd q) := by
  unfold nvmeSqBatchEnd
  by_cases hzero : q.sqBatchDepth = 0
  · rw [if_pos hzero]
    exact .silent h hrung [] rfl (fun _ hv => nomatch hv)
  rw [if_neg hzero]
  dsimp only
  by_cases hlast : q.sqBatchDepth - 1 = 0
  · rw [if_pos hlast]
    exact commit_step (h.nested (q.sqBatchDepth - 1)) hroom [] rfl (fun _ hv => nomatch hv)
  · rw [if_neg hlast]
    exact .silent (h.nested _) (fun h₀ => absurd h₀ hlast) [] rfl (fun _ hv => nomatch hv)

theorem submit_step (h : Sound q) (hrung : Rung q) (cmd : α)
    (hroom : Room (nvmeSubmitIo q cmd).1) : StepSpec q (nvmeSubmitIo q cmd).1 := by
  unfold nvmeSubmitIo at hroom ⊢
  cases hsq : q.sq with
  | none => exact .silent h hrung [] rfl (fun _ hv => nomatch hv)
  | some slots =>
      rw [hsq] at hroom
      dsimp only at hroom ⊢
      have hsome : q.sq ≠ none := by
        rw [hsq]
        exact Option.some_ne_none slots
      have hpos : 0 < q.depth := Nat.lt_of_le_of_lt (Nat.zero_le _) (h.lastLt hsome)
      by_cases hfull : (q.sqTail + 1) % q.depth = q.cqHead
      · rw [if_pos hfull]
        exact .silent h hrung [] rfl (fun _ hv => nomatch hv)
      rw [if_neg hfull] at hroom ⊢
      dsimp only at hroom ⊢
      have hlog : (writeSlot q slots cmd).log = [.written q.sqTail cmd] ++ q.log := rfl
      have hquiet : ∀ v, SqEvent.doorbell v ∉ [SqEvent.written q.sqTail cmd] := by
        intro v hv
        cases List.mem_singleton.mp hv
      by_cases hopen : (writeSlot q slots cmd).sqBatchDepth = 0
      · -- Outside all batches the queue was rung, and the new SQE is the only one.
        rw [if_pos hopen]
        have hnone : unannounced q.log = [] := hrung hopen
        have hdepth : 1 < q.depth := by
          by_contra hone
          have h1 : q.depth = 1 := by omega
          have hhead := h.headLt hsome
          rw [h1, Nat.mod_one] at hfull
          omega
        have hlen : (unannounced q.log).length < q.depth := by
          rw [hnone, List.length_nil]
          exact hpos
        refine commit_step (writeSlot_sound h hsq cmd hlen) ?_ _ hlog hquiet
        change (unannounced q.log ++ [(q.sqTail, cmd)]).length ≤ q.depth - 1
        rw [hnone, List.nil_append, List.length_singleton]
        omega
      · rw [if_neg hopen] at hroom ⊢
        have hlen : (unannounced q.log ++ [(q.sqTail, cmd)]).length ≤ q.depth - 1 := hroom
        rw [List.length_append, List.length_singleton] at hlen
        exact .silent (writeSlot_sound h hsq cmd (by omega)) (fun h₀ => absurd h₀ hopen) _
          hlog hquiet

/-- Every step of a sound queue, with room and a nesting that fits its counter. -/
theorem step_spec (h : Sound q) (hrung : Rung q) (hroom : Room q) {op : SqOp α}
    (hlegal : Legal q op) (hshallow : Shallow q op) (hroom' : Room (q.apply op)) :
    StepSpec q (q.apply op) := by
  have hrenewed : ∀ v, (SqEvent.doorbell v : SqEvent α) ∉ [.renewed] := by
    intro v hv
    cases List.mem_singleton.mp hv
  cases op with
  | batchBegin =>
      refine .silent (h.nested _) ?_ [] rfl (fun _ hv => nomatch hv)
      intro hzero
      have hlt := hshallow rfl
      change (q.sqBatchDepth + 1) % 2 ^ 16 = 0 at hzero
      rw [Nat.mod_eq_of_lt hlt] at hzero
      omega
  | batchEnd => exact batchEnd_step h hrung hroom
  | submit cmd => exact submit_step h hrung cmd hroom'
  | consume head =>
      exact .silent (h.consumed hlegal) hrung [] rfl (fun _ hv => nomatch hv)
  | setup depth =>
      exact .silent (sound_fresh hlegal rfl rfl) (fun _ => rfl) [.renewed] rfl hrenewed
  | teardown => exact .silent sound_teardown (fun _ => rfl) [.renewed] rfl hrenewed

/-- What holds of every queue the driver's operations lead to. -/
theorem reachable_sound (h : Reachable Shallow q) : Sound q ∧ Rung q ∧ Room q := by
  induction h with
  | start depth hdepth =>
      exact ⟨sound_fresh hdepth rfl rfl, fun _ => rfl, Nat.zero_le _⟩
  | @step q h op hlegal hok hroom ih =>
      obtain ⟨hsound, hrung, hroom₀⟩ := ih
      have hstep := step_spec hsound hrung hroom₀ hlegal hok hroom
      exact ⟨hstep.sound, hstep.rung, hroom⟩

/-- A commit writes no SQE. -/
theorem commit_written (q : NvmeQueue α) :
    ∃ l, (nvmeSqCommit q).log = l ++ q.log ∧ ∀ slot cmd, .written slot cmd ∉ l := by
  unfold nvmeSqCommit
  split
  · exact ⟨[.doorbell q.sqTail], rfl, fun slot cmd h => nomatch List.mem_singleton.mp h⟩
  · exact ⟨[], rfl, fun slot cmd h => nomatch h⟩

/-- The SQE an accepted submission writes, in the slot the tail stood at. -/
theorem submit_written (q : NvmeQueue α) (cmd : α) :
    ∃ l, (nvmeSubmitIo q cmd).1.log = l ++ q.log ∧ ∀ slot cmd', .written slot cmd' ∈ l ↔
      cmd' = cmd ∧ slot = q.sqTail ∧ (nvmeSubmitIo q cmd').2 = nvmeIoAsync := by
  have hrefused : ∀ e : Int, e ≠ nvmeIoAsync → (∀ cmd', (nvmeSubmitIo q cmd').2 = e) →
      ∀ slot cmd', (SqEvent.written slot cmd' : SqEvent α) ∈ [] ↔
        cmd' = cmd ∧ slot = q.sqTail ∧ (nvmeSubmitIo q cmd').2 = nvmeIoAsync :=
    fun e he hret slot cmd' =>
      ⟨fun h => (nomatch h), fun h => absurd ((hret cmd').symm.trans h.2.2) he⟩
  cases hsq : q.sq with
  | none =>
      refine ⟨[], by simp only [nvmeSubmitIo, hsq, List.nil_append],
        hrefused ioerrBadAddress (by decide) fun cmd' => ?_⟩
      simp only [nvmeSubmitIo, hsq]
  | some slots =>
      by_cases hfull : (q.sqTail + 1) % q.depth = q.cqHead
      · refine ⟨[], by simp only [nvmeSubmitIo, hsq, if_pos hfull, List.nil_append],
          hrefused ioerrUnitBusy (by decide) fun cmd' => ?_⟩
        simp only [nvmeSubmitIo, hsq, if_pos hfull]
      · have hret : ∀ cmd', (nvmeSubmitIo q cmd').2 = nvmeIoAsync := fun cmd' => by
          simp only [nvmeSubmitIo, hsq, if_neg hfull]
        have hlog : (writeSlot q slots cmd).log = .written q.sqTail cmd :: q.log := rfl
        -- a commit may follow the SQE, and writes none
        have hmem : ∀ l : List (SqEvent α), (∀ slot cmd', .written slot cmd' ∉ l) →
            ∀ slot cmd', .written slot cmd' ∈ l ++ [.written q.sqTail cmd] ↔
              cmd' = cmd ∧ slot = q.sqTail ∧ (nvmeSubmitIo q cmd').2 = nvmeIoAsync := by
          intro l hl slot cmd'
          constructor
          · intro h
            rcases List.mem_append.mp h with h | h
            · exact absurd h (hl slot cmd')
            · cases List.mem_singleton.mp h
              exact ⟨rfl, rfl, hret cmd⟩
          · rintro ⟨rfl, rfl, -⟩
            exact List.mem_append_right l (List.mem_singleton.mpr rfl)
        simp only [nvmeSubmitIo, hsq, if_neg hfull] at hmem ⊢
        split
        · obtain ⟨l, hl, hquiet⟩ := commit_written (writeSlot q slots cmd)
          refine ⟨l ++ [.written q.sqTail cmd], ?_, hmem l hquiet⟩
          rw [hl, hlog, List.append_assoc]
          rfl
        · exact ⟨[] ++ [.written q.sqTail cmd], hlog, hmem [] fun slot cmd' h => nomatch h⟩

/-- The SQEs a step writes: that of a submission the ring has room for, in the slot the
tail stood at. -/
theorem apply_written (q : NvmeQueue α) (op : SqOp α) :
    ∃ l, (q.apply op).log = l ++ q.log ∧ ∀ slot cmd, .written slot cmd ∈ l ↔
      op = .submit cmd ∧ slot = q.sqTail ∧ (nvmeSubmitIo q cmd).2 = nvmeIoAsync := by
  have hother : ∀ l : List (SqEvent α), (∀ slot cmd, .written slot cmd ∉ l) →
      (∀ cmd, op ≠ .submit cmd) → ∀ slot cmd, .written slot cmd ∈ l ↔
        op = .submit cmd ∧ slot = q.sqTail ∧ (nvmeSubmitIo q cmd).2 = nvmeIoAsync :=
    fun l hl hop slot cmd => ⟨fun h => absurd h (hl slot cmd), fun h => absurd h.1 (hop cmd)⟩
  have hempty : ∀ slot cmd, (SqEvent.written slot cmd : SqEvent α) ∉ [] :=
    fun slot cmd h => nomatch h
  have hrenewed : ∀ slot cmd, (SqEvent.written slot cmd : SqEvent α) ∉ [.renewed] :=
    fun slot cmd h => nomatch List.mem_singleton.mp h
  cases op with
  | batchBegin => exact ⟨[], rfl, hother [] hempty fun cmd h => nomatch h⟩
  | batchEnd =>
      have hop : ∀ cmd : α, SqOp.batchEnd ≠ .submit cmd := fun cmd h => nomatch h
      change ∃ l, (nvmeSqBatchEnd q).log = l ++ q.log ∧ _
      unfold nvmeSqBatchEnd
      split
      · exact ⟨[], rfl, hother [] hempty hop⟩
      · dsimp only
        split
        · obtain ⟨l, hlog, hl⟩ := commit_written { q with sqBatchDepth := q.sqBatchDepth - 1 }
          exact ⟨l, hlog, hother l hl hop⟩
        · exact ⟨[], rfl, hother [] hempty hop⟩
  | consume head => exact ⟨[], rfl, hother [] hempty fun cmd h => nomatch h⟩
  | setup depth => exact ⟨[.renewed], rfl, hother _ hrenewed fun cmd h => nomatch h⟩
  | teardown => exact ⟨[.renewed], rfl, hother _ hrenewed fun cmd h => nomatch h⟩
  | submit cmd =>
      obtain ⟨l, hlog, hmem⟩ := submit_written q cmd
      refine ⟨l, hlog, fun slot cmd' => (hmem slot cmd').trans ?_⟩
      rw [SqOp.submit.injEq, eq_comm]

/-! ### Nesting beyond the counter -/

/-- Batches nested on top of each other. -/
theorem reachable_begins (h : Reachable (fun _ _ => True) q) (hroom : Room q) (n : Nat) :
    Reachable (fun _ _ => True) { q with sqBatchDepth := (q.sqBatchDepth + (n + 1)) % 2 ^ 16 } := by
  induction n with
  | zero => exact h.step .batchBegin trivial trivial hroom
  | succ n ih =>
      have hnext := ih.step .batchBegin trivial trivial hroom
      simp only [NvmeQueue.apply, nvmeSqBatchBegin, Nat.mod_add_mod] at hnext
      exact hnext

/-- 65536 batches deep the counter is 0 again, and an SQE that was written inside
of them is not announced. -/
theorem nesting_wraps :
    ∃ q : NvmeQueue Nat, Reachable (fun _ _ => True) q ∧ q.sqBatchDepth = 0 ∧
      lastValue q.log ≠ q.sqTail := by
  have hstart : Reachable (fun _ _ => True) (NvmeQueue.fresh 4 : NvmeQueue Nat) :=
    .start 4 (by decide)
  have hdeep := reachable_begins hstart (Nat.zero_le _) 65534
  have hsqe := hdeep.step (.submit 7) trivial trivial (by decide)
  have hwrap := hsqe.step .batchBegin trivial trivial (by decide)
  exact ⟨_, hwrap, by decide, by decide⟩

/-! ### In the engine -/

open Engine in
/-- The doorbell values that the engine's log has for a queue, newest first. -/
def bells (qid : QueueId) (trace : List Effect) : List Nat :=
  trace.filterMap fun
    | .sqDoorbell q v => if q = qid then some v else none
    | _ => none

/-- The doorbell values in a queue's own log. -/
def bellsOf (log : List (SqEvent α)) : List Nat :=
  log.filterMap fun
    | .doorbell v => some v
    | _ => none

section Engine

open Engine

variable {env : Env} {s t : State} {qid : QueueId} {m : NvmeQueue Request}

/-- The engine's queue and this one have the same ring and have rung alike. -/
structure Mirrors (s : State) (qid : QueueId) (m : NvmeQueue Request) : Prop where
  present : (s.tab qid).present = m.sq.isSome
  depth : (s.tab qid).depth = m.depth
  sqTail : (s.ring qid).sqTail = m.sqTail
  lastSqTail : (s.ring qid).lastSqTail = m.lastSqTail
  sqBatchDepth : (s.ring qid).sqBatchDepth = m.sqBatchDepth
  cqHead : (s.ring qid).cqHead = m.cqHead
  bells : bells qid s.core.trace = bellsOf m.log

/-- Nothing about a queue's ring changes, and no doorbell is rung. -/
structure SameQueue (qid : QueueId) (s t : State) : Prop where
  present : (t.tab qid).present = (s.tab qid).present
  depth : (t.tab qid).depth = (s.tab qid).depth
  ring : t.ring qid = s.ring qid
  bells : bells qid t.core.trace = bells qid s.core.trace

namespace SameQueue

theorem refl (qid : QueueId) (s : State) : SameQueue qid s s := ⟨rfl, rfl, rfl, rfl⟩

theorem trans {u : State} (h : SameQueue qid s t) (h' : SameQueue qid t u) :
    SameQueue qid s u :=
  ⟨h'.present.trans h.present, h'.depth.trans h.depth, h'.ring.trans h.ring,
    h'.bells.trans h.bells⟩

theorem log (s : State) {e : Effect} (he : SqDoorbell.bells qid [e] = []) :
    SameQueue qid s (s.log e) := by
  refine ⟨rfl, rfl, rfl, ?_⟩
  change SqDoorbell.bells qid ([e] ++ s.core.trace) = _
  rw [SqDoorbell.bells, List.filterMap_append]
  change SqDoorbell.bells qid [e] ++ _ = _
  rw [he]
  rfl

theorem releaseSlot (s : State) (cid : Nat) : SameQueue qid s (s.releaseSlot qid cid) := by
  have htab : (s.releaseSlot qid cid).tab qid = nvmeInflightRelease (s.tab qid) cid := by
    simp [State.releaseSlot, State.tab, State.setTab, Ownership.tab_setTab]
  refine ⟨?_, ?_, ?_, ?_⟩
  · rw [htab, Ownership.release_present]
  · rw [htab, Ownership.release_depth]
  · simp [State.releaseSlot, State.ring, State.setTab]
  · simp [State.releaseSlot, State.setTab]

theorem editSlot (s : State) (tag : Nat) (f : Request → Request) :
    SameQueue qid s (s.editSlot qid tag f) := by
  have htab : (s.editSlot qid tag f).tab qid = (s.tab qid).edit tag f := by
    simp [State.editSlot, State.tab, State.setTab, Ownership.tab_setTab]
  refine ⟨?_, ?_, ?_, ?_⟩
  · rw [htab]
    rfl
  · rw [htab]
    rfl
  · simp [State.editSlot, State.ring, State.setTab]
  · simp [State.editSlot, State.setTab]

theorem freeDma (s : State) (r : Request) :
    SameQueue qid s (nvmeReqFreeDmaBuffers s r) := by
  have hpages : ∀ (pages : List Nat) (s : State),
      SameQueue qid s (pages.foldl (fun s p => s.log (.dmaFree r.id p)) s) := by
    intro pages
    induction pages with
    | nil => exact fun s => .refl qid s
    | cons p pages ih => exact fun s => (SameQueue.log s rfl).trans (ih _)
  have hlist : SameQueue qid s
      (if r.prpList then
        r.prpPages.reverse.foldl (fun s p => s.log (.dmaFree r.id p)) s
      else s) := by
    split_ifs
    · exact hpages _ s
    · exact .refl qid s
  unfold nvmeReqFreeDmaBuffers
  cases r.bounceBuf with
  | none => exact hlist
  | some b => exact hlist.trans (SameQueue.log _ rfl)

theorem destroy (s : State) (tag : Nat) : SameQueue qid s (nvmeReqDestroy s qid tag) := by
  unfold nvmeReqDestroy
  cases s.slot qid tag with
  | none => exact .refl qid s
  | some r =>
      exact ((SameQueue.releaseSlot s r.cid).trans (freeDma _ r)).trans (SameQueue.log _ rfl)

end SameQueue

theorem Mirrors.same (h : Mirrors s qid m) (hs : SameQueue qid s t) : Mirrors t qid m := by
  constructor
  · rw [hs.present, h.present]
  · rw [hs.depth, h.depth]
  · rw [hs.ring, h.sqTail]
  · rw [hs.ring, h.lastSqTail]
  · rw [hs.ring, h.sqBatchDepth]
  · rw [hs.ring, h.cqHead]
  · rw [hs.bells, h.bells]

/-- The engine's rings hold what was put into them. -/
theorem mirrors_setRing {ρ : Ring} (hpresent : (s.tab qid).present = m.sq.isSome)
    (hdepth : (s.tab qid).depth = m.depth)
    (hring : ρ.sqTail = m.sqTail ∧ ρ.lastSqTail = m.lastSqTail ∧
      ρ.sqBatchDepth = m.sqBatchDepth ∧ ρ.cqHead = m.cqHead)
    (hbells : bells qid s.core.trace = bellsOf m.log) : Mirrors (s.setRing qid ρ) qid m := by
  have hset : (s.setRing qid ρ).ring qid = ρ := by
    simp [State.ring, State.setRing, Ownership.ring_setRing]
  obtain ⟨htail, hlast, hbatch, hhead⟩ := hring
  constructor
  · simpa [State.tab, State.setRing] using hpresent
  · simpa [State.tab, State.setRing] using hdepth
  · rw [hset, htail]
  · rw [hset, hlast]
  · rw [hset, hbatch]
  · rw [hset, hhead]
  · simpa [State.setRing] using hbells

/-- The engine's doorbell is this one. -/
theorem mirrors_commit (h : Mirrors s qid m) :
    Mirrors (Engine.nvmeSqCommit s qid) qid (nvmeSqCommit m) := by
  unfold Engine.nvmeSqCommit nvmeSqCommit
  dsimp only
  rw [h.sqTail, h.lastSqTail]
  by_cases heq : m.sqTail = m.lastSqTail
  · rw [if_neg (not_not_intro heq), if_neg (not_not_intro heq)]
    exact h
  rw [if_pos heq, if_pos heq]
  have hbells : bells qid (.sqDoorbell qid m.sqTail :: s.core.trace) =
      m.sqTail :: bellsOf m.log := by
    rw [← h.bells]
    simp [bells]
  exact mirrors_setRing h.present h.depth ⟨rfl, rfl, h.sqBatchDepth, h.cqHead⟩ hbells

/-- A batch the engine begins, as long as it nests less than 65536 deep. -/
theorem mirrors_batchBegin (h : Mirrors s qid m) (hlt : m.sqBatchDepth + 1 < 2 ^ 16) :
    Mirrors (Engine.nvmeSqBatchBegin s qid) qid (nvmeSqBatchBegin m) := by
  have hbatch : (s.ring qid).sqBatchDepth + 1 = (m.sqBatchDepth + 1) % 2 ^ 16 := by
    rw [Nat.mod_eq_of_lt hlt, h.sqBatchDepth]
  exact mirrors_setRing h.present h.depth ⟨h.sqTail, h.lastSqTail, hbatch, h.cqHead⟩ h.bells

theorem mirrors_batchEnd (h : Mirrors s qid m) :
    Mirrors (Engine.nvmeSqBatchEnd s qid) qid (nvmeSqBatchEnd m) := by
  unfold Engine.nvmeSqBatchEnd nvmeSqBatchEnd
  rw [h.sqBatchDepth]
  by_cases hzero : m.sqBatchDepth = 0
  · rw [if_pos hzero, if_pos hzero]
    exact h
  rw [if_neg hzero, if_neg hzero]
  dsimp only
  have hless : Mirrors
      (s.setRing qid { s.ring qid with sqBatchDepth := m.sqBatchDepth - 1 }) qid
      { m with sqBatchDepth := m.sqBatchDepth - 1 } :=
    mirrors_setRing h.present h.depth ⟨h.sqTail, h.lastSqTail, rfl, h.cqHead⟩ h.bells
  rw [hless.sqBatchDepth]
  dsimp only
  by_cases hlast : m.sqBatchDepth - 1 = 0
  · rw [if_pos hlast, if_pos hlast]
    exact mirrors_commit hless
  · rw [if_neg hlast, if_neg hlast]
    exact hless

/-- The engine submits the request in a slot as this queue does, and refuses it
alike. -/
theorem mirrors_submit (h : Mirrors s qid m) {tag : Nat} {r : Request}
    (hslot : s.slot qid tag = some r) :
    Mirrors (Engine.nvmeSubmitIo env s qid tag).1 qid (nvmeSubmitIo m r).1 ∧
      (Engine.nvmeSubmitIo env s qid tag).2 = (nvmeSubmitIo m r).2 := by
  unfold Engine.nvmeSubmitIo nvmeSubmitIo
  rw [hslot]
  dsimp only
  cases hsq : m.sq with
  | none =>
      have hgone : (s.tab qid).present = false := by
        rw [h.present, hsq]
        rfl
      rw [if_pos hgone]
      exact ⟨h.same (.destroy s tag), rfl⟩
  | some slots =>
      have hpresent : (s.tab qid).present = true := by
        rw [h.present, hsq]
        rfl
      rw [hpresent, if_neg (by decide)]
      dsimp only
      have hfull : sqFull s qid ↔ (m.sqTail + 1) % m.depth = m.cqHead := by
        rw [sqFull, h.sqTail, h.depth, h.cqHead]
      by_cases hno : (m.sqTail + 1) % m.depth = m.cqHead
      · rw [if_pos (hfull.mpr hno), if_pos hno]
        exact ⟨h.same ((SameQueue.log s rfl).trans (.destroy _ tag)), rfl⟩
      rw [if_neg (fun hf => hno (hfull.mp hf)), if_neg hno]
      refine ⟨?_, rfl⟩
      have hwritten : Mirrors
          ((s.log (.sqe (s.ring qid).sqTail r (s.core.ownerOf r))).setRing qid
            { s.ring qid with sqTail := ((s.ring qid).sqTail + 1) % (s.tab qid).depth }) qid
          (writeSlot m slots r) :=
        mirrors_setRing hpresent h.depth
          ⟨by rw [h.sqTail, h.depth]; rfl, h.lastSqTail, h.sqBatchDepth, h.cqHead⟩ h.bells
      have hstamped : ∀ s₂, Mirrors s₂ qid (writeSlot m slots r) →
          Mirrors ((s₂.getTime env).2.editSlot qid tag fun x =>
            { x with submitUs := (s₂.getTime env).1 }) qid (writeSlot m slots r) := by
        intro s₂ h₂
        have htime : SameQueue qid s₂ (s₂.getTime env).2 := ⟨rfl, rfl, rfl, rfl⟩
        exact h₂.same (htime.trans (SameQueue.editSlot _ tag _))
      have hopen : (s.ring qid).sqBatchDepth = (writeSlot m slots r).sqBatchDepth :=
        h.sqBatchDepth
      unfold writeSqe
      dsimp only
      by_cases hzero : (s.ring qid).sqBatchDepth = 0
      · rw [if_pos hzero, if_pos (hopen ▸ hzero)]
        exact mirrors_commit (hstamped _ hwritten)
      · rw [if_neg hzero, if_neg (fun h₀ => hzero (hopen.trans h₀))]
        exact hstamped _ hwritten

theorem mirrors_teardown (h : Mirrors s qid m) :
    Mirrors (Engine.nvmeTeardownQueue s qid) qid (nvmeTeardownQueue m) := by
  have htab : ((s.log (.teardown (s.tab qid).occupants)).setTab qid SlotTable.gone).tab qid =
      SlotTable.gone := by
    simp [State.tab, State.setTab, Ownership.tab_setTab]
  refine mirrors_setRing (by rw [htab]; rfl) (by rw [htab]; rfl) ⟨rfl, rfl, rfl, rfl⟩ ?_
  have hbells : bells qid (.teardown (s.tab qid).occupants :: s.core.trace) =
      bellsOf (nvmeTeardownQueue m).log :=
    (show _ = bells qid s.core.trace from rfl).trans h.bells
  simpa [State.setTab, State.log, Core.log] using hbells

theorem mirrors_setup (h : Mirrors s qid m) {depth : Nat}
    (hok : Engine.nvmeSetupQueue env s qid depth = (t, true)) :
    Mirrors t qid (nvmeSetupQueue m depth) := by
  unfold Engine.nvmeSetupQueue at hok
  dsimp only at hok
  split at hok
  case isFalse => cases hok
  case isTrue =>
    cases hok
    have htab : ∀ s : State, (s.setTab qid (SlotTable.fresh depth env.cfg.quirkSkipCidGen)).tab
        qid = SlotTable.fresh depth env.cfg.quirkSkipCidGen := fun s => by
      simp [State.tab, State.setTab, Ownership.tab_setTab]
    refine Mirrors.same (mirrors_setRing ?_ ?_ ⟨rfl, rfl, rfl, rfl⟩ ?_) (.log _ rfl)
    · rw [htab]
      rfl
    · rw [htab]
      rfl
    · have hbells : bells qid s.core.trace = bellsOf (nvmeSetupQueue m depth).log := h.bells
      simpa [State.setTab] using hbells

/-- The engine does to one of its queues what the operation says. -/
inductive Does (env : Env) (qid : QueueId) : SqOp Request → State → State → Prop
  | batchBegin (s : State) : Does env qid .batchBegin s (Engine.nvmeSqBatchBegin s qid)
  | batchEnd (s : State) : Does env qid .batchEnd s (Engine.nvmeSqBatchEnd s qid)
  | submit {s : State} {tag : Nat} {r : Request} (hslot : s.slot qid tag = some r) :
      Does env qid (.submit r) s (Engine.nvmeSubmitIo env s qid tag).1
  /-- `drain_cq` publishes the head -/
  | consume (s : State) (head : Nat) (phase : Bool) :
      Does env qid (.consume head) s
        ((s.setRing qid { s.ring qid with cqHead := head, cqPhase := phase }).log
          (.cqDoorbell qid head))
  | setup {s t : State} {depth : Nat}
      (hok : Engine.nvmeSetupQueue env s qid depth = (t, true)) :
      Does env qid (.setup depth) s t
  | teardown (s : State) : Does env qid .teardown s (Engine.nvmeTeardownQueue s qid)

/-- The engine's operations are these. -/
theorem mirrors_does {op : SqOp Request} (h : Mirrors s qid m) (hshallow : Shallow m op)
    (hdo : Does env qid op s t) : Mirrors t qid (m.apply op) := by
  cases hdo with
  | batchBegin => exact mirrors_batchBegin h (hshallow rfl)
  | batchEnd => exact mirrors_batchEnd h
  | submit hslot => exact (mirrors_submit h hslot).1
  | consume _ head phase =>
      have hring : Mirrors (s.setRing qid { s.ring qid with cqHead := head, cqPhase := phase }) qid
          { m with cqHead := head } :=
        mirrors_setRing h.present h.depth ⟨h.sqTail, h.lastSqTail, h.sqBatchDepth, rfl⟩ h.bells
      exact hring.same (.log _ rfl)
  | setup hok => exact mirrors_setup h hok
  | teardown => exact mirrors_teardown h

end Engine

/-! ### Main result -/

open Engine (Env QueueId State Request)

/-- In every run whose batches nest less than 65536 deep, whatever step comes next:
it writes an SQE just for a submission the ring has room for, at the tail; it rings the
doorbell only with the tail it leaves, for the SQEs that stand in memory in a row of
slots from the last doorbell up to that tail; outside all batches nothing is left that
the last doorbell did not announce; and the same step of the engine, on a queue of its
own that is like this one, leaves that queue like this one, its doorbells included. -/
theorem doorbells_lose_nothing {q : NvmeQueue Request} (h : Reachable Shallow q)
    (op : SqOp Request) (hlegal : Legal q op) (hshallow : Shallow q op)
    (hroom : Room (q.apply op)) :
    (∃ l, (q.apply op).log = l ++ q.log ∧
      (∀ slot cmd, .written slot cmd ∈ l ↔
        op = .submit cmd ∧ slot = q.sqTail ∧ (nvmeSubmitIo q cmd).2 = nvmeIoAsync) ∧
      ∀ v, .doorbell v ∈ l → v = (q.apply op).sqTail ∧
        ∃ log, (q.apply op).log = .doorbell v :: log ∧ Announces (q.apply op) v log) ∧
    ((q.apply op).sqBatchDepth = 0 →
      lastValue (q.apply op).log = (q.apply op).sqTail ∧ unannounced (q.apply op).log = []) ∧
    ∀ (env : Env) (qid : QueueId) (s t : State), Mirrors s qid q → Does env qid op s t →
      Mirrors t qid (q.apply op) := by
  obtain ⟨hsound, hrung, hroom₀⟩ := reachable_sound h
  have hstep := step_spec hsound hrung hroom₀ hlegal hshallow hroom
  obtain ⟨l, hlog, hbell⟩ := hstep.doorbell
  obtain ⟨l', hlog', hwritten⟩ := apply_written q op
  have hsame : l' = l := List.append_cancel_right (hlog'.symm.trans hlog)
  subst hsame
  refine ⟨⟨l', hlog, hwritten, hbell⟩, fun hzero => ?_, ?_⟩
  · have hnone := hstep.rung hzero
    have htail := (tail_eq_iff hstep.sound hroom).mpr hnone
    exact ⟨by rw [htail, hstep.sound.last], hnone⟩
  · exact fun env qid s t hm hdo => mirrors_does hm hshallow hdo

/-- A command told apart by its number. -/
def sqeOf (n : Nat) : Request := { id := n, q := .io, cid := n }

/-- Four slots: three commands are consumed, and a batch writes the last slot and the
first. -/
def wrappedBatch : List (SqOp Request) :=
  [.submit (sqeOf 0), .submit (sqeOf 1), .submit (sqeOf 2), .consume 3, .batchBegin,
    .submit (sqeOf 3), .submit (sqeOf 4)]

theorem reachable_wrappedBatch :
    Reachable Shallow (wrappedBatch.foldl NvmeQueue.apply (.fresh 4)) := by
  have hno : ∀ {q : NvmeQueue Request} {op : SqOp Request}, op ≠ .batchBegin → Shallow q op :=
    fun hne h => absurd h hne
  have h₀ : Reachable Shallow (NvmeQueue.fresh 4 : NvmeQueue Request) := .start 4 (by decide)
  have h₁ := h₀.step (.submit (sqeOf 0)) trivial (hno (fun h => nomatch h)) (by decide)
  have h₂ := h₁.step (.submit (sqeOf 1)) trivial (hno (fun h => nomatch h)) (by decide)
  have h₃ := h₂.step (.submit (sqeOf 2)) trivial (hno (fun h => nomatch h)) (by decide)
  have h₄ := h₃.step (.consume 3) (show 3 < 4 by decide) (hno (fun h => nomatch h)) (by decide)
  have h₅ := h₄.step .batchBegin trivial (fun _ => by decide) (by decide)
  have h₆ := h₅.step (.submit (sqeOf 3)) trivial (hno (fun h => nomatch h)) (by decide)
  exact h₆.step (.submit (sqeOf 4)) trivial (hno (fun h => nomatch h)) (by decide)

/-- The end of that batch rings once, with 1, for slots 3 and 0. -/
theorem doorbells_lose_nothing_wrapped :
    ∃ log, ((wrappedBatch.foldl NvmeQueue.apply (.fresh 4)).apply .batchEnd).log =
        .doorbell 1 :: log ∧
      unannounced log = [(3, sqeOf 3), (0, sqeOf 4)] ∧
      Announces ((wrappedBatch.foldl NvmeQueue.apply (.fresh 4)).apply .batchEnd) 1 log := by
  obtain ⟨⟨l, hlog, -, hbell⟩, -, -⟩ :=
    doorbells_lose_nothing reachable_wrappedBatch .batchEnd trivial (fun h => nomatch h)
      (by decide)
  have hl : l = [.doorbell 1] := List.append_cancel_right hlog.symm
  subst hl
  obtain ⟨-, log, heq, hann⟩ := hbell 1 (List.mem_singleton.mpr rfl)
  have hlog : log = (wrappedBatch.foldl NvmeQueue.apply (.fresh 4)).log :=
    (List.cons.inj heq).2.symm
  exact ⟨log, heq, by rw [hlog]; decide, hann⟩

end SqDoorbell
end NvmeDriver
