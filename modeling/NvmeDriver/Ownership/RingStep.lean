import NvmeDriver.Ownership.Safe

/-!
# What a move does to the I/O queue

A third summary of the moves, next to `Move.traffic` and `Move.clients`: each one pushes an
SQE, consumes or publishes completion queue entries, force-completes a command, refuses a
submission, tears the I/O queue down or sets it up, or leaves the queue alone.
-/

namespace NvmeDriver
namespace Ownership

open Engine
open Lib

/-! ### The I/O queue in the log -/

section Marks

def isIoSetup : Effect → Bool
  | .queueSetup .io => true
  | _ => false

def isIoPublish : Effect → Bool
  | .cqDoorbell .io _ => true
  | _ => false

def isIoSqe : Effect → Bool
  | .sqe _ r _ => r.q == .io
  | _ => false

/-- A CQE is consumed that completes an I/O command. -/
def isIoCqe : Effect → Bool
  | .cqe .io _ _ _ => true
  | _ => false

def isIoStray : Effect → Bool
  | .strayCqe .io _ => true
  | _ => false

def isIoCancel : Effect → Bool
  | .cancel .io _ => true
  | _ => false

def isIoRefusal : Effect → Bool
  | .sqFull .io => true
  | _ => false

/-- The effects that tell the story of the I/O queue. -/
def ringMark (e : Effect) : Bool :=
  isIoSetup e || isIoPublish e || isIoSqe e || isIoCqe e || isIoStray e || isIoCancel e ||
    isIoRefusal e

theorem ringMark_quietFor {n : Nat} {e : Effect} (h : quietFor n e = true) :
    ringMark e = false := by
  cases e <;> first | rfl | cases h

/-- No effect of the list is about the I/O queue. -/
def Unmarked (l : List Effect) : Prop := ∀ e, e ∈ l → ringMark e = false

theorem Unmarked.nil : Unmarked [] := fun _ he => nomatch he

theorem Unmarked.cons {e : Effect} {l : List Effect} (he : ringMark e = false)
    (hl : Unmarked l) : Unmarked (e :: l) := by
  intro e' he'
  rcases List.mem_cons.mp he' with rfl | he'
  · exact he
  · exact hl e' he'

theorem Unmarked.append {l l' : List Effect} (hl : Unmarked l) (hl' : Unmarked l') :
    Unmarked (l ++ l') := by
  intro e he
  rcases List.mem_append.mp he with he | he
  · exact hl e he
  · exact hl' e he

theorem Unmarked.notes {n : Nat} {notes : List Effect}
    (hnotes : ∀ e, e ∈ notes → quietFor n e = true) : Unmarked notes :=
  fun e he => ringMark_quietFor (hnotes e he)

theorem Unmarked.quiet {notes : List Effect} (hnotes : ∀ e, e ∈ notes → quiet e = true) :
    Unmarked notes :=
  Unmarked.notes (n := 0) (quietFor_notes hnotes 0)

end Marks

section Step

/-- Commands in the I/O table whose CID and request are of the kind. -/
def heldBy (f : Nat → Nat → Bool) (c : Core) : Nat :=
  Slots.held (fun r => f r.cid r.id) c.ioTab.inflight

/-- The rings, the size of the queue and the entries not yet published stay. -/
structure SameRing (g g' : Cfg) : Prop where
  tail : (g'.core.ring .io).sqTail = (g.core.ring .io).sqTail
  head : (g'.core.ring .io).cqHead = (g.core.ring .io).cqHead
  present : g'.core.ioTab.present = g.core.ioTab.present
  depth : g'.core.ioTab.depth = g.core.ioTab.depth

variable {env : Env} {P : Policy} {g g' : Cfg}

/-- What a move does to the I/O queue. -/
inductive RingStep (P : Policy) (g g' : Cfg) : Prop
  | rest {l : List Effect} (hsame : SameRing g g')
      (hheld : ∀ f, heldBy f g'.core = heldBy f g.core)
      (hahead : g'.hand.ahead = g.hand.ahead) (htrace : g'.core.trace = l ++ g.core.trace)
      (hl : Unmarked l)
  | push {l : List Effect} {r : Request} {owner : Option Nat} (hq : r.q = .io)
      (hpres : g.core.ioTab.present = true) (hpres' : g'.core.ioTab.present = true)
      (hdepth : g'.core.ioTab.depth = g.core.ioTab.depth)
      (hroom : ¬RingFull g.core.ioTab.depth (g.core.ring .io))
      (htail : (g'.core.ring .io).sqTail =
        ((g.core.ring .io).sqTail + 1) % g.core.ioTab.depth)
      (hhead : (g'.core.ring .io).cqHead = (g.core.ring .io).cqHead)
      (hheld : ∀ f, heldBy f g'.core = heldBy f g.core + if f r.cid r.id then 1 else 0)
      (hahead : g'.hand.ahead = g.hand.ahead)
      (htrace : g'.core.trace =
        .sqe (g.core.ring .io).sqTail r owner :: (l ++ g.core.trace))
      (hl : Unmarked l)
  | answer {cid n st : Nat} (hsame : SameRing g g') (hpres : g.core.ioTab.present = true)
      (hheld : ∀ f, heldBy f g'.core + (if f cid n then 1 else 0) = heldBy f g.core)
      (hahead : g'.hand.ahead = g.hand.ahead + 1)
      (htrace : g'.core.trace = .cqe .io cid n st :: g.core.trace)
  | stray {cid : Nat} (hsame : SameRing g g') (hpres : g.core.ioTab.present = true)
      (hstray : P.stray)
      (hnone : heldBy (fun v _ => v == cid) g.core = 0)
      (hheld : ∀ f, heldBy f g'.core = heldBy f g.core)
      (hahead : g'.hand.ahead = g.hand.ahead + 1)
      (htrace : g'.core.trace = .strayCqe .io cid :: g.core.trace)
  | cancel {cid n : Nat} (hcancel : P.cancel .io) (hsame : SameRing g g')
      (hpres : g.core.ioTab.present = true)
      (hheld : ∀ f, heldBy f g'.core + (if f cid n then 1 else 0) = heldBy f g.core)
      (hahead : g'.hand.ahead = g.hand.ahead)
      (htrace : g'.core.trace = .cancel .io n :: g.core.trace)
  | publish {head : Nat} (htail : (g'.core.ring .io).sqTail = (g.core.ring .io).sqTail)
      (hhead : (g'.core.ring .io).cqHead =
        ((g.core.ring .io).cqHead + g.hand.ahead) % g.core.ioTab.depth)
      (htab : g'.core.ioTab = g.core.ioTab) (hahead : g'.hand.ahead = 0)
      (htrace : g'.core.trace = .cqDoorbell .io head :: g.core.trace)
  | refuse (hsame : SameRing g g') (htab : g'.core.ioTab = g.core.ioTab)
      (hpres : g.core.ioTab.present = true)
      (hfull : RingFull g.core.ioTab.depth (g.core.ring .io))
      (hahead : g'.hand.ahead = g.hand.ahead)
      (htrace : g'.core.trace = .sqFull .io :: g.core.trace)
  | down {l : List Effect} (hpres : g'.core.ioTab.present = false)
      (hahead : g.hand.ahead = 0 ∧ g'.hand.ahead = 0)
      (htrace : g'.core.trace = l ++ g.core.trace) (hl : Unmarked l)
  | up {skip : Bool} (htab : g'.core.ioTab = SlotTable.fresh nvmeIoQueueSize skip)
      (hring : g'.core.ring .io = Ring.fresh)
      (hahead : g.hand.ahead = 0 ∧ g'.hand.ahead = 0)
      (htrace : g'.core.trace = .queueSetup .io :: g.core.trace)

/-- A move that leaves the I/O queue alone. -/
theorem RingStep.logged {c c' : Core} {h h' : Hand} {l : List Effect}
    (hring : (c'.ring .io).sqTail = (c.ring .io).sqTail ∧
      (c'.ring .io).cqHead = (c.ring .io).cqHead)
    (htab : c'.ioTab = c.ioTab) (hahead : h'.ahead = h.ahead)
    (htrace : c'.trace = l ++ c.trace) (hl : Unmarked l) :
    RingStep P ⟨c, h⟩ ⟨c', h'⟩ := by
  refine .rest ⟨hring.1, hring.2, ?_, ?_⟩ ?_ hahead htrace hl
  · change c'.ioTab.present = c.ioTab.present
    rw [htab]
  · change c'.ioTab.depth = c.ioTab.depth
    rw [htab]
  · intro f
    unfold heldBy
    rw [htab]

theorem RingStep.pushed {c c' : Core} {h h' : Hand} {cid : Nat} {rest : List Nat} {us : Nat}
    {r : Request} {owner : Option Nat} {l : List Effect} (hs : Safe ⟨c, h⟩)
    (hq : r.q = .io) (hfree : c.ioTab.freeStack = cid :: rest)
    (hroom : ¬RingFull c.ioTab.depth (c.ring .io))
    (htab : c'.ioTab =
      nvmeInflightClaim (popped c.ioTab rest) cid { r with submitUs := us })
    (hring : c'.ring .io = Ownership.pushed c.ioTab.depth (c.ring .io))
    (hahead : h'.ahead = h.ahead)
    (htrace : c'.trace = .sqe (c.ring .io).sqTail r owner :: (l ++ c.trace))
    (hl : Unmarked l) : RingStep P ⟨c, h⟩ ⟨c', h'⟩ := by
  have hpres : c.ioTab.present = true := hs.present hfree
  refine .push hq hpres ?_ ?_ hroom ?_ ?_ ?_ hahead htrace hl
  · change c'.ioTab.present = true
    rw [htab]
    exact hpres
  · change c'.ioTab.depth = c.ioTab.depth
    rw [htab]
    rfl
  · change (c'.ring .io).sqTail = _
    rw [hring]
    rfl
  · change (c'.ring .io).cqHead = _
    rw [hring]
    rfl
  · intro f
    unfold heldBy
    change Slots.held (fun r => f r.cid r.id) c'.ioTab.inflight = _
    rw [htab]
    exact held_claim (fun r => f r.cid r.id) (hs.tabs .io) hfree _

theorem SameRing.released {c : Core} {h h' : Hand} {r : Request} {l : List Effect} :
    SameRing ⟨c, h⟩
      ⟨stamp (c.setTab .io (nvmeInflightRelease (c.tab .io) r.cid)) c.allocs l, h'⟩ :=
  ⟨rfl, rfl, release_present _ _, release_depth _ _⟩

theorem heldBy_released {c : Core} {r : Request} {l : List Effect}
    (hread : (c.tab .io).read (cidTag r.cid) = some r) (f : Nat → Nat → Bool) :
    heldBy f (stamp (c.setTab .io (nvmeInflightRelease (c.tab .io) r.cid)) c.allocs l) +
      (if f r.cid r.id then 1 else 0) = heldBy f c := by
  have h := held_release (fun r => f r.cid r.id) hread
  rw [hit_some] at h
  exact h

/-- No request in the table has the CID. -/
theorem heldBy_none {c : Core} {cid : Nat}
    (hnone : ∀ tag r, c.ioTab.read tag = some r → r.cid ≠ cid) :
    heldBy (fun v _ => v == cid) c = 0 := by
  by_contra hne
  obtain ⟨tag, r, hread, hcid⟩ := Slots.exists_read_of_held_pos (Nat.pos_of_ne_zero hne)
  exact hnone tag r hread (beq_iff_eq.mp hcid)

/-- A table with a command in it has been set up. -/
theorem Safe.present_of_read (hs : Safe g) {tag : Nat} {r : Request}
    (hread : (g.core.tab .io).read tag = some r) : g.core.ioTab.present = true := by
  refine (hs.tabs .io).present ?_
  rw [← (hs.tabs .io).length]
  exact Nat.zero_lt_of_lt (Slots.lt_length_of_read hread)

theorem heldBy_le {c : Core} {f f' : Nat → Nat → Bool}
    (hf : ∀ v n, f v n = true → f' v n = true) : heldBy f c ≤ heldBy f' c :=
  held_mono (fun _ => hf _ _) _

/-- No two commands in the table have the same CID. -/
theorem Safe.heldBy_le_one (hs : Safe g) {f : Nat → Nat → Bool} {cid : Nat}
    (hf : ∀ v n, f v n = true → v = cid) : heldBy f g.core ≤ 1 := by
  refine Slots.held_le_one ?_
  intro t u a b hat hbu ha hb
  rw [← ((hs.tabs .io).slots t a hat).1, ← ((hs.tabs .io).slots u b hbu).1, hf _ _ ha, hf _ _ hb]

theorem Move.ringStep (hs : Safe g) (hm : Move env P g g') : RingStep P g g' := by
  have hone : ∀ {e : Effect}, ringMark e = false → Unmarked [e] := fun he => .cons he .nil
  cases hm with
  | @note c h e hq =>
      exact .logged ⟨rfl, rfl⟩ rfl rfl rfl
        (hone (ringMark_quietFor (quietFor_of_quiet (n := 0) hq)))
  | translated i cmd htr => exact .logged ⟨rfl, rfl⟩ rfl rfl rfl (hone rfl)
  | phase hstir hp =>
      cases hp <;> first
        | exact RingStep.logged (l := []) ⟨rfl, rfl⟩ rfl rfl rfl .nil
        | exact .logged ⟨rfl, rfl⟩ rfl rfl rfl (.cons rfl .nil)
        | exact .logged ⟨rfl, rfl⟩ rfl rfl rfl (.cons rfl (.cons rfl .nil))
        | exact .logged ⟨rfl, rfl⟩ rfl rfl rfl (.cons rfl (.cons rfl (.cons rfl .nil)))
        | exact .logged ⟨rfl, rfl⟩ rfl rfl rfl
            (.cons rfl (.cons rfl (.cons rfl (.cons rfl .nil))))
  | bell q tail hgate => exact .logged ⟨rfl, rfl⟩ rfl rfl rfl (hone rfl)
  | @publish c h q head phase hpub hhead =>
      cases q with
      | admin =>
          exact RingStep.logged (l := [.cqDoorbell .admin head]) ⟨rfl, rfl⟩ rfl rfl rfl
            (hone rfl)
      | io => exact .publish rfl (hhead rfl) rfl rfl rfl
  | @skip c h q cid hstray hnone =>
      cases q with
      | admin => exact .logged ⟨rfl, rfl⟩ rfl rfl rfl (hone rfl)
      | io =>
          obtain ⟨hpres, hnone⟩ := hnone rfl
          exact .stray ⟨rfl, rfl, rfl, rfl⟩ hpres (hstray rfl) (heldBy_none hnone)
            (fun _ => rfl) rfl rfl
  | @refuse c h q hfree hring =>
      cases q with
      | admin => exact .logged ⟨rfl, rfl⟩ rfl rfl rfl (hone rfl)
      | io =>
          obtain ⟨cid, rest, hcons⟩ := List.exists_cons_of_ne_nil hfree
          exact .refuse ⟨rfl, rfl, rfl, rfl⟩ rfl (hs.present hcons) hring rfl rfl
  | replyHand e a hh hwhy hbad => exact .logged ⟨rfl, rfl⟩ rfl rfl rfl (hone rfl)
  | discardHand hh ha => exact .logged ⟨rfl, rfl⟩ rfl rfl rfl (hone rfl)
  | fizzleBare => exact .logged ⟨rfl, rfl⟩ rfl rfl rfl (hone rfl)
  | @fizzle c h q cid rest n notes hfree hn hnotes =>
      cases q <;> exact .rest ⟨rfl, rfl, rfl, rfl⟩ (fun _ => rfl) rfl rfl
        (.cons rfl (.notes hnotes))
  | @launchIo c h i cid rest n us notes r t hh hreq hctx hfree hn hnotes hkey hcid hret
      hask hcheck hone hof hroom hring hgate =>
      exact .pushed hs (congrArg Key.q hkey) hfree hring rfl rfl rfl rfl (.quiet hnotes)
  | @launchSib c h x cid rest n us notes r ctx hh hreq hget hfree hn hnotes hkey hcid hret
      hstall hmore hcap hof hring hgate =>
      exact .pushed hs (congrArg Key.q hkey) hfree hring rfl rfl rfl rfl (.quiet hnotes)
  | @launchAdmin c h cid rest n us notes r done waiter hfree hn hnotes hkey hcid hchain
      hfeat =>
      have hq : r.q = .admin := congrArg Key.q hkey
      refine .logged ⟨rfl, rfl⟩ rfl rfl rfl (.cons ?_ (.quiet hnotes))
      simp [ringMark, isIoSetup, isIoPublish, isIoSqe, isIoCqe, isIoStray, isIoCancel,
        isIoRefusal, hq]
  | @reapCqe c h q r st res hread hh hctx hst =>
      cases q with
      | admin => exact .logged ⟨rfl, rfl⟩ rfl rfl rfl (hone rfl)
      | io => exact .answer .released (hs.present_of_read hread) (heldBy_released hread) rfl rfl
  | @reapCancel c h q r hread hh hctx hcancel =>
      cases q with
      | admin => exact .logged ⟨rfl, rfl⟩ rfl rfl rfl (hone rfl)
      | io =>
          exact .cancel hcancel .released (hs.present_of_read hread) (heldBy_released hread) rfl rfl
  | revise hh hkey hcmd hbuf hlen hfirst hnotes =>
      exact .logged ⟨rfl, rfl⟩ rfl rfl rfl (.notes hnotes)
  | @relaunch c h r r' cid rest us hh hctx hr' hret hfree hring hgate =>
      have hq' : r'.q = r.q := by
        rw [hr']
      unfold sent
      cases hq : r.q with
      | admin =>
          rw [hq] at hq'
          refine RingStep.logged (l := [.sqe (c.ring .admin).sqTail r' (c.ownerOf r)])
            ⟨rfl, rfl⟩ rfl rfl rfl (hone ?_)
          simp [ringMark, isIoSetup, isIoPublish, isIoSqe, isIoCqe, isIoStray, isIoCancel,
            isIoRefusal, hq']
      | io =>
          rw [hq] at hq' hfree hring
          exact RingStep.pushed (l := []) hs hq' hfree hring rfl rfl rfl rfl .nil
  | @lose c h r cid rest notes hlose hh hfree hnotes =>
      cases r.q <;> exact .rest ⟨rfl, rfl, rfl, rfl⟩ (fun _ => rfl) rfl rfl
        (.cons rfl (.notes hnotes))
  | endReply hh hio hctx => exact .logged ⟨rfl, rfl⟩ rfl rfl rfl (.cons rfl (hone rfl))
  | endFree hh hdone => exact .logged ⟨rfl, rfl⟩ rfl rfl rfl (hone rfl)
  | collect hw => exact .logged ⟨rfl, rfl⟩ rfl rfl rfl (hone rfl)
  | sibDone hh hctx hget hnone => exact .logged ⟨rfl, rfl⟩ rfl rfl rfl (hone rfl)
  | finish hh hget hidle hstall hdone hsibs hnotes =>
      exact .logged ⟨rfl, rfl⟩ rfl rfl rfl
        (.cons rfl (.cons rfl (.append (.quiet hnotes) (hone rfl))))
  | freeCtx hh hget hidle hstall hio herr => exact .logged ⟨rfl, rfl⟩ rfl rfl rfl (hone rfl)
  | @touch c h q tag us =>
      cases q with
      | admin => exact RingStep.logged (l := []) ⟨rfl, rfl⟩ rfl rfl rfl .nil
      | io =>
          refine RingStep.rest (l := []) ⟨rfl, rfl, rfl, rfl⟩ ?_ rfl rfl .nil
          exact fun f => held_edit (fun r => f r.cid r.id) tag _ (fun _ => rfl)
  | @teardown c h q notes hstir hlose hnotes hidle =>
      have hquiet : Unmarked notes := by
        intro e he
        have hhalt := (hnotes e he).2
        cases e <;> first | rfl | cases hhalt
      cases q with
      | admin => exact .logged ⟨rfl, rfl⟩ rfl rfl rfl (.cons rfl hquiet)
      | io => exact .down rfl ⟨hidle.1, hidle.1⟩ rfl (.cons rfl hquiet)
  | @setup c h q hstir hvac hio hidle =>
      cases q with
      | admin =>
          exact RingStep.logged (l := [.queueSetup .admin]) ⟨rfl, rfl⟩ rfl rfl rfl (hone rfl)
      | io => exact .up rfl rfl ⟨hidle.1, hidle.1⟩ rfl
  | _ => exact RingStep.logged (l := []) ⟨rfl, rfl⟩ rfl rfl rfl .nil

/-- A move that writes an I/O command finds the queue set up. -/
theorem RingStep.sqes (h : RingStep P g g') :
    ∃ l, g'.core.trace = l ++ g.core.trace ∧
      ∀ e, e ∈ l → isIoSqe e = true → g.core.ioTab.present = true := by
  have hun : ∀ {l : List Effect} {e : Effect} {G : Prop}, Unmarked l → e ∈ l →
      isIoSqe e = true → G := by
    intro l e G hl he hsqe
    have hmark : ringMark e = true := by
      simp [ringMark, hsqe]
    exact Bool.noConfusion ((hl e he).symm.trans hmark)
  cases h with
  | rest hsame hheld hahead htrace hl => exact ⟨_, htrace, fun e he hsqe => hun hl he hsqe⟩
  | @push l r owner hq hpres hpres' hdepth hroom htail hhead hheld hahead htrace hl =>
      exact ⟨_ :: l, htrace, fun _ _ _ => hpres⟩
  | answer hsame hpres hheld hahead htrace => exact ⟨[_], htrace, fun _ _ _ => hpres⟩
  | stray hsame hpres hstray hnone hheld hahead htrace =>
      exact ⟨[_], htrace, fun _ _ _ => hpres⟩
  | cancel hcancel hsame hpres hheld hahead htrace => exact ⟨[_], htrace, fun _ _ _ => hpres⟩
  | publish htail hhead htab hahead htrace =>
      refine ⟨[_], htrace, fun e he hsqe => ?_⟩
      rw [List.mem_singleton.mp he] at hsqe
      cases hsqe
  | refuse hsame htab hpres hfull hahead htrace => exact ⟨[_], htrace, fun _ _ _ => hpres⟩
  | down hpres hahead htrace hl => exact ⟨_, htrace, fun e he hsqe => hun hl he hsqe⟩
  | up htab hring hahead htrace =>
      refine ⟨[_], htrace, fun e he hsqe => ?_⟩
      rw [List.mem_singleton.mp he] at hsqe
      cases hsqe

end Step

end Ownership
end NvmeDriver
