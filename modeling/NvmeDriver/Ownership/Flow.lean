import NvmeDriver.Ownership.Tables

/-!
# How requests flow

For every move that touches requests: how the number of requests with a
property changes.  A launch adds the new request, the moves that end a request
take it away, and all others only carry it from one place to another.
-/

namespace NvmeDriver
namespace Ownership

open Engine
open Lib

/-! ### Projections of the two updates of a core -/

section Projections

variable (c : Core) (q : QueueId) (t : SlotTable)

@[simp] theorem setTab_retryList : (c.setTab q t).retryList = c.retryList := by cases q <;> rfl
@[simp] theorem setTab_waiting : (c.setTab q t).waiting = c.waiting := by cases q <;> rfl
@[simp] theorem setTab_ctxs : (c.setTab q t).ctxs = c.ctxs := by cases q <;> rfl
@[simp] theorem setTab_ctxStalled : (c.setTab q t).ctxStalled = c.ctxStalled := by
  cases q <;> rfl
@[simp] theorem setTab_msgPort : (c.setTab q t).msgPort = c.msgPort := by cases q <;> rfl
@[simp] theorem setTab_ioPending : (c.setTab q t).ioPending = c.ioPending := by cases q <;> rfl
@[simp] theorem setTab_accepted : (c.setTab q t).accepted = c.accepted := by cases q <;> rfl
@[simp] theorem setTab_allocs : (c.setTab q t).allocs = c.allocs := by cases q <;> rfl
@[simp] theorem setTab_state : (c.setTab q t).state = c.state := by cases q <;> rfl
@[simp] theorem setTab_fwActSignal : (c.setTab q t).fwActSignal = c.fwActSignal := by
  cases q <;> rfl
@[simp] theorem setTab_fwActRunning : (c.setTab q t).fwActRunning = c.fwActRunning := by
  cases q <;> rfl
@[simp] theorem setTab_unitBlocked : (c.setTab q t).unitBlocked = c.unitBlocked := by
  cases q <;> rfl
@[simp] theorem setTab_ioMaxInflight : (c.setTab q t).ioMaxInflight = c.ioMaxInflight := by
  cases q <;> rfl
@[simp] theorem setTab_trace : (c.setTab q t).trace = c.trace := by cases q <;> rfl
@[simp] theorem log_trace (e : Effect) : (c.log e).trace = e :: c.trace := rfl

@[simp] theorem setTab_ring (q' : QueueId) : (c.setTab q t).ring q' = c.ring q' := by
  cases q <;> cases q' <;> rfl
@[simp] theorem setTab_stopped : (c.setTab q t).stopped = c.stopped := by cases q <;> rfl
@[simp] theorem setTab_frozen : (c.setTab q t).frozen = c.frozen := by cases q <;> rfl

variable (ρ : Ring)

@[simp] theorem setRing_tab (q' : QueueId) : (c.setRing q ρ).tab q' = c.tab q' := by
  cases q <;> cases q' <;> rfl
@[simp] theorem setRing_adminTab : (c.setRing q ρ).adminTab = c.adminTab := by cases q <;> rfl
@[simp] theorem setRing_ioTab : (c.setRing q ρ).ioTab = c.ioTab := by cases q <;> rfl
@[simp] theorem setRing_retryList : (c.setRing q ρ).retryList = c.retryList := by
  cases q <;> rfl
@[simp] theorem setRing_waiting : (c.setRing q ρ).waiting = c.waiting := by cases q <;> rfl
@[simp] theorem setRing_ctxs : (c.setRing q ρ).ctxs = c.ctxs := by cases q <;> rfl
@[simp] theorem setRing_ctxStalled : (c.setRing q ρ).ctxStalled = c.ctxStalled := by
  cases q <;> rfl
@[simp] theorem setRing_msgPort : (c.setRing q ρ).msgPort = c.msgPort := by cases q <;> rfl
@[simp] theorem setRing_ioPending : (c.setRing q ρ).ioPending = c.ioPending := by
  cases q <;> rfl
@[simp] theorem setRing_accepted : (c.setRing q ρ).accepted = c.accepted := by
  cases q <;> rfl
@[simp] theorem setRing_allocs : (c.setRing q ρ).allocs = c.allocs := by cases q <;> rfl
@[simp] theorem setRing_state : (c.setRing q ρ).state = c.state := by cases q <;> rfl
@[simp] theorem setRing_fwActSignal : (c.setRing q ρ).fwActSignal = c.fwActSignal := by
  cases q <;> rfl
@[simp] theorem setRing_fwActRunning : (c.setRing q ρ).fwActRunning = c.fwActRunning := by
  cases q <;> rfl
@[simp] theorem setRing_unitBlocked : (c.setRing q ρ).unitBlocked = c.unitBlocked := by
  cases q <;> rfl
@[simp] theorem setRing_stopped : (c.setRing q ρ).stopped = c.stopped := by cases q <;> rfl
@[simp] theorem setRing_frozen : (c.setRing q ρ).frozen = c.frozen := by cases q <;> rfl
@[simp] theorem setRing_ioMaxInflight : (c.setRing q ρ).ioMaxInflight = c.ioMaxInflight := by
  cases q <;> rfl
@[simp] theorem setRing_trace : (c.setRing q ρ).trace = c.trace := by cases q <;> rfl

theorem ring_setRing (q' : QueueId) :
    (c.setRing q ρ).ring q' = if q' = q then ρ else c.ring q' := by
  cases q <;> cases q' <;> rfl

theorem tab_setTab (q' : QueueId) :
    (c.setTab q t).tab q' = if q' = q then t else c.tab q' := by
  cases q <;> cases q' <;> rfl

end Projections

section Read

variable {c : Core} {q : QueueId} {t : SlotTable}

@[simp] theorem stamp_tab (n : Nat) (es : List Effect) : (stamp c n es).tab q = c.tab q := by
  cases q <;> rfl

@[simp] theorem sent_tab (n : Nat) (es : List Effect) (q' : QueueId) :
    (sent c q t n es).tab q' = (c.setTab q t).tab q' := by
  unfold sent
  rw [setRing_tab, stamp_tab]

/-- The tables after one of them has been replaced. -/
theorem read_setTab_cases {q' : QueueId} {tag : Nat} {r : Request}
    (h : ((c.setTab q t).tab q').read tag = some r) :
    t.read tag = some r ∨ (c.tab q').read tag = some r := by
  rw [tab_setTab] at h
  split at h
  · exact .inl h
  · exact .inr h

end Read

/-! ### Quiet effects -/

section Quiet

variable {notes : List Effect} {n : Nat}

theorem quietFor_of_quiet {e : Effect} (h : quiet e = true) : quietFor n e = true := by
  cases e <;> first | exact h | cases h

theorem quietFor_ownerless {e : Effect} (h : quiet e = true) : ownerless e = true := by
  cases e <;> first | rfl | cases h

theorem tornReqs_ownerless {e : Effect} (h : ownerless e = true) : tornReqs e = [] := by
  cases e <;> first | rfl | cases h

theorem isReply_ownerless (i : Nat) {e : Effect} (h : ownerless e = true) :
    isReply i e = false := by
  cases e <;> first | rfl | cases h

theorem isReqFree_ownerless (m : Nat) {e : Effect} (h : ownerless e = true) :
    isReqFree m e = false := by
  cases e <;> first | rfl | cases h

theorem tornReqs_quietFor {e : Effect} (h : quietFor n e = true) : tornReqs e = [] := by
  cases e <;> first | rfl | cases h

/-- A property that no quiet effect has does not count the notes. -/
theorem countP_notes (f : Effect → Bool) (hf : ∀ e, quietFor n e = true → f e = false)
    (hnotes : ∀ e, e ∈ notes → quietFor n e = true) : notes.countP f = 0 := by
  rw [List.countP_eq_zero]
  intro e he
  rw [hf e (hnotes e he)]
  exact Bool.false_ne_true

theorem isReply_quietFor (i : Nat) (e : Effect) (h : quietFor n e = true) :
    isReply i e = false := by
  cases e <;> first | rfl | cases h

theorem isReqFree_quietFor (m : Nat) (e : Effect) (h : quietFor n e = true) :
    isReqFree m e = false := by
  cases e <;> first | rfl | cases h

theorem isCtxFree_quietFor (x : Nat) (e : Effect) (h : quietFor n e = true) :
    isCtxFree x e = false := by
  cases e <;> first | rfl | cases h

theorem isCtxFinish_quietFor (x : Nat) (e : Effect) (h : quietFor n e = true) :
    isCtxFinish x e = false := by
  cases e <;> first | rfl | cases h

variable (p : Key → Bool)

theorem torn_append (es tr : List Effect) : torn p (es ++ tr) = torn p es + torn p tr := by
  simp [torn]

theorem torn_cons (e : Effect) (tr : List Effect) :
    torn p (e :: tr) = (tornReqs e).countP (p ∘ keyOf) + torn p tr := by
  simp [torn]

theorem torn_notes (hnotes : ∀ e, e ∈ notes → quietFor n e = true) :
    torn p notes = 0 := by
  have h : notes.flatMap tornReqs = [] := by
    rw [List.flatMap_eq_nil_iff]
    intro e he
    exact tornReqs_quietFor (hnotes e he)
  simp [torn, h]

end Quiet

/-! ### Counts -/

section Counts

variable {c : Core} {q : QueueId} {cid n : Nat} {rest : List Nat}
  {r r' : Request} {es : List Effect} (p : Key → Bool)

theorem hit_key (hkey : keyOf r' = keyOf r) :
    hit (p ∘ keyOf) (some r') = hit (p ∘ keyOf) (some r) := by
  simp [hkey]

theorem countP_cons_hit (l : List Request) :
    (r :: l).countP (p ∘ keyOf) = l.countP (p ∘ keyOf) + hit (p ∘ keyOf) (some r) := by
  simp [List.countP_cons]

theorem coreReqs_setTab (c : Core) (q : QueueId) (t : SlotTable) :
    coreReqs p (c.setTab q t) + Slots.held (p ∘ keyOf) (c.tab q).inflight =
      coreReqs p c + Slots.held (p ∘ keyOf) t.inflight := by
  cases q <;> simp only [coreReqs, Core.setTab, Core.tab] <;> omega

theorem coreReqs_stamp (c : Core) (n : Nat) (es : List Effect) :
    coreReqs p (stamp c n es) = coreReqs p c + torn p es := by
  simp only [coreReqs, stamp, torn_append]
  omega

theorem coreReqs_claim (ht : TabOk q (c.tab q)) (hfree : (c.tab q).freeStack = cid :: rest)
    (hkey : keyOf r' = keyOf r) :
    coreReqs p (c.setTab q (nvmeInflightClaim (popped (c.tab q) rest) cid r')) =
      coreReqs p c + hit (p ∘ keyOf) (some r) := by
  have h := coreReqs_setTab p c q (nvmeInflightClaim (popped (c.tab q) rest) cid r')
  rw [held_claim _ ht hfree, hit_key p hkey] at h
  omega

theorem coreReqs_release (hread : (c.tab q).read (cidTag cid) = some r) :
    coreReqs p (c.setTab q (nvmeInflightRelease (c.tab q) cid)) + hit (p ∘ keyOf) (some r) =
      coreReqs p c := by
  have h := coreReqs_setTab p c q (nvmeInflightRelease (c.tab q) cid)
  have h' := held_release (p ∘ keyOf) hread
  omega

theorem coreReqs_same (t : SlotTable)
    (hheld : Slots.held (p ∘ keyOf) t.inflight =
      Slots.held (p ∘ keyOf) (c.tab q).inflight) :
    coreReqs p (c.setTab q t) = coreReqs p c := by
  have h := coreReqs_setTab p c q t
  omega

theorem coreReqs_edit (tag : Nat) (f : Request → Request)
    (hf : ∀ r, keyOf (f r) = keyOf r) :
    coreReqs p (c.setTab q ((c.tab q).edit tag f)) = coreReqs p c := by
  refine coreReqs_same p _ (held_edit _ _ _ ?_)
  intro r
  simp [hf r]

theorem torn_occupants (t : SlotTable) :
    torn p [.teardown t.occupants] = Slots.held (p ∘ keyOf) t.inflight := by
  rw [torn_cons]
  exact Slots.countP_filterMap_id (p ∘ keyOf) t.inflight

theorem coreReqs_gone :
    coreReqs p (c.setTab q SlotTable.gone) + torn p [.teardown (c.tab q).occupants] =
      coreReqs p c := by
  have h := coreReqs_setTab p c q SlotTable.gone
  have hgone : Slots.held (p ∘ keyOf) SlotTable.gone.inflight = 0 := rfl
  rw [torn_occupants]
  omega

theorem held_eq_zero_of_vacant {t : SlotTable} (hvac : Vacant t) (f : Request → Bool) :
    Slots.held f t.inflight = 0 := by
  by_contra hne
  obtain ⟨tag, r, hread, -⟩ := Slots.exists_read_of_held_pos (Nat.pos_of_ne_zero hne)
  have := Slots.held_pos_of_read (p := fun _ => true) hread rfl
  unfold Vacant at hvac
  omega

theorem coreReqs_fresh {depth : Nat} {skip : Bool} (hvac : Vacant (c.tab q)) :
    coreReqs p (c.setTab q (SlotTable.fresh depth skip)) = coreReqs p c := by
  refine coreReqs_same p _ ?_
  rw [held_eq_zero_of_vacant hvac]
  simp [SlotTable.fresh]

theorem coreReqs_park (d : Nat) :
    coreReqs p { c with retryList := c.retryList ++ [{ r with deadlineUs := d }] } =
      coreReqs p c + hit (p ∘ keyOf) (some r) := by
  have h : (c.retryList ++ [{ r with deadlineUs := d }]).countP (p ∘ keyOf) =
      c.retryList.countP (p ∘ keyOf) + hit (p ∘ keyOf) (some r) := by
    rw [List.countP_append, List.countP_singleton]
    rfl
  simp only [coreReqs, h]
  omega

theorem coreReqs_waiting {l : List Request} (hw : c.waiting = r :: l) :
    coreReqs p { c with waiting := l } + hit (p ∘ keyOf) (some r) = coreReqs p c := by
  simp only [coreReqs, hw, countP_cons_hit]
  omega

/-- Taking a parked request off the list takes exactly that request, because no
other one has its number. -/
theorem coreReqs_unpark (hmem : r ∈ c.retryList)
    (hone : coreReqs (fun k => k.id == r.id) c ≤ 1) :
    coreReqs p { c with retryList := c.retryList.eraseP (fun x => x.id == r.id) } +
        hit (p ∘ keyOf) (some r) = coreReqs p c := by
  obtain ⟨a, l₁, l₂, hl₁, ha, hl, herase⟩ :=
    List.exists_of_eraseP (p := fun x : Request => x.id == r.id) hmem (by simp)
  have hlist : c.retryList.countP (fun x => x.id == r.id) ≤ 1 := by
    have : c.retryList.countP ((fun k : Key => k.id == r.id) ∘ keyOf) ≤ 1 := by
      unfold coreReqs at hone
      omega
    exact this
  have hra : r = a := by
    rw [hl, List.countP_append, List.countP_cons, if_pos ha] at hlist
    have hl₂ : l₂.countP (fun x => x.id == r.id) = 0 := by omega
    rw [hl] at hmem
    rcases List.mem_append.mp hmem with h | h
    · exact absurd (by simp) (hl₁ r h)
    · rcases List.mem_cons.mp h with h | h
      · exact h
      · exact absurd (by simp) (List.countP_eq_zero.mp hl₂ r h)
  have hcount : (c.retryList.eraseP (fun x => x.id == r.id)).countP (p ∘ keyOf) +
      hit (p ∘ keyOf) (some r) = c.retryList.countP (p ∘ keyOf) := by
    rw [herase, hl, ← hra, List.countP_append, List.countP_append, countP_cons_hit]
    omega
  simp only [coreReqs]
  omega

end Counts

/-! ### Configurations -/

section Configurations

variable {c : Core} {h h' : Hand} {q : QueueId} {cid n m : Nat} {rest : List Nat}
  {r r' : Request} {e : Effect} {es notes : List Effect} (p : Key → Bool)

theorem quietFor_notes (hnotes : ∀ e, e ∈ notes → quiet e = true) (n : Nat) :
    ∀ e, e ∈ notes → quietFor n e = true :=
  fun e he => quietFor_of_quiet (hnotes e he)

theorem reqCount_stamp (htorn : torn p es = 0) (hreq : h'.req = h.req) :
    reqCount p ⟨stamp c n es, h'⟩ = reqCount p ⟨c, h⟩ := by
  simp only [reqCount, hreq, coreReqs_stamp, htorn, Nat.add_zero]

theorem torn_effect_notes (he : tornReqs e = [])
    (hnotes : ∀ e, e ∈ notes → quietFor m e = true) : torn p (e :: notes) = 0 := by
  rw [torn_cons, torn_notes p hnotes, he]
  rfl

/-- A tag is taken and given back. -/
theorem reqCount_bumped (hnotes : ∀ e, e ∈ notes → quietFor m e = true) (k : Nat) :
    reqCount p
        ⟨stamp (c.setTab q (bumped (c.tab q) cid rest)) n (.reqFree k :: notes), h'⟩ =
      coreReqs p c + hit (p ∘ keyOf) h'.req := by
  simp only [reqCount]
  rw [coreReqs_stamp, torn_effect_notes p rfl hnotes,
    coreReqs_same p (bumped (c.tab q) cid rest) rfl, Nat.add_zero]

/-- A request is put into a free slot. -/
theorem reqCount_claimed (ht : TabOk q (c.tab q))
    (hfree : (c.tab q).freeStack = cid :: rest) (hkey : keyOf r' = keyOf r)
    (he : tornReqs e = []) (hnotes : ∀ e, e ∈ notes → quietFor m e = true) :
    reqCount p
        ⟨stamp (c.setTab q (nvmeInflightClaim (popped (c.tab q) rest) cid r')) n
          (e :: notes), h'⟩ =
      coreReqs p c + hit (p ∘ keyOf) (some r) + hit (p ∘ keyOf) h'.req := by
  simp only [reqCount]
  rw [coreReqs_stamp, torn_effect_notes p he hnotes, coreReqs_claim p ht hfree hkey,
    Nat.add_zero]

theorem reqCount_launched {slot us : Nat} {owner : Option Nat} (ht : TabOk q (c.tab q))
    (hfree : (c.tab q).freeStack = cid :: rest)
    (hnotes : ∀ e, e ∈ notes → quiet e = true) :
    reqCount p
        ⟨stamp
          (c.setTab q
            (nvmeInflightClaim (popped (c.tab q) rest) cid { r with submitUs := us }))
          n (.sqe slot r owner :: notes), h'⟩ =
      reqCount p ⟨c, h'⟩ + hit (p ∘ keyOf) (some r) := by
  have hkey : keyOf ({ r with submitUs := us }) = keyOf r := rfl
  rw [reqCount_claimed p ht hfree hkey rfl (quietFor_notes hnotes 0)]
  simp only [reqCount]
  omega

/-- A request is taken from its slot into the hand. -/
theorem reqCount_reaped (hread : (c.tab q).read (cidTag r.cid) = some r)
    (hh : h.req = none) (hreq : h'.req = some r') (hkey : keyOf r' = keyOf r)
    (he : tornReqs e = []) :
    reqCount p
        ⟨stamp (c.setTab q (nvmeInflightRelease (c.tab q) r.cid)) c.allocs [e], h'⟩ =
      reqCount p ⟨c, h⟩ := by
  have htorn : torn p [e] = 0 := by
    rw [torn_cons, he]
    rfl
  have hrel := coreReqs_release p hread
  have hhit := hit_key p hkey
  simp only [reqCount, hh, hreq, hit_none]
  rw [coreReqs_stamp, htorn]
  omega

theorem reqCount_revised (hh : h.req = some r) (hkey : keyOf r' = keyOf r)
    (hnotes : ∀ e, e ∈ notes → quietFor m e = true) :
    reqCount p ⟨stamp c n notes, { h with req := some r' }⟩ = reqCount p ⟨c, h⟩ := by
  simp only [reqCount, hh, coreReqs_stamp, torn_notes p hnotes, hit_key p hkey,
    Nat.add_zero]

theorem reqCount_parked (d : Nat) (hh : h.req = some r) :
    reqCount p
        ⟨{ c with retryList := c.retryList ++ [{ r with deadlineUs := d }] },
          { h with req := none }⟩ = reqCount p ⟨c, h⟩ := by
  simp only [reqCount, hh, coreReqs_park, hit_none, Nat.add_zero]

theorem reqCount_unparked (hmem : r ∈ c.retryList)
    (hone : coreReqs (fun k => k.id == r.id) c ≤ 1) (hh : h.req = none) :
    reqCount p
        ⟨{ c with retryList := c.retryList.eraseP (fun x => x.id == r.id) },
          { h with req := some r }⟩ = reqCount p ⟨c, h⟩ := by
  simp only [reqCount, hh, hit_none, Nat.add_zero]
  exact coreReqs_unpark p hmem hone

theorem reqCount_relaunched {slot us : Nat} {owner : Option Nat} (hh : h.req = some r)
    (ht : TabOk r.q (c.tab r.q)) (hfree : (c.tab r.q).freeStack = cid :: rest)
    (hkey : keyOf r' = keyOf r) :
    reqCount p
        ⟨stamp
          (c.setTab r.q
            (nvmeInflightClaim (popped (c.tab r.q) rest) cid { r' with submitUs := us }))
          c.allocs [.sqe slot r' owner],
          { h with req := none }⟩ = reqCount p ⟨c, h⟩ := by
  have hkey' : keyOf ({ r' with submitUs := us }) = keyOf r := hkey
  rw [reqCount_claimed p (m := 0) ht hfree hkey' rfl (by simp)]
  simp only [reqCount, hh, hit_none, Nat.add_zero]

/-- The request in hand is let go of. -/
theorem reqCount_ended (hh : h.req = some r) (hreq : h'.req = none) :
    reqCount p ⟨c, h'⟩ + hit (p ∘ keyOf) (some r) = reqCount p ⟨c, h⟩ := by
  simp only [reqCount, hh, hreq, hit_none, Nat.add_zero]

theorem reqCount_waiting (hh : h.req = some r) :
    reqCount p ⟨{ c with waiting := r :: c.waiting }, { h with req := none }⟩ =
      reqCount p ⟨c, h⟩ := by
  simp only [reqCount, coreReqs, hh, countP_cons_hit, hit_none]
  omega

theorem reqCount_collected {l : List Request} (hw : c.waiting = r :: l) :
    reqCount p ⟨stamp { c with waiting := l } n [.reqFree r.id], h⟩ +
      hit (p ∘ keyOf) (some r) = reqCount p ⟨c, h⟩ := by
  have hcore := coreReqs_waiting p hw
  have htorn : torn p [.reqFree r.id] = 0 := rfl
  simp only [reqCount, coreReqs_stamp]
  omega

theorem reqCount_edited (tag : Nat) (f : Request → Request)
    (hf : ∀ r, keyOf (f r) = keyOf r) :
    reqCount p ⟨c.setTab q ((c.tab q).edit tag f), h⟩ = reqCount p ⟨c, h⟩ := by
  simp only [reqCount]
  rw [coreReqs_edit p tag f hf]

@[simp] theorem coreReqs_setRing (ρ : Ring) : coreReqs p (c.setRing q ρ) = coreReqs p c := by
  cases q <;> rfl

@[simp] theorem reqCount_setRing (ρ : Ring) :
    reqCount p ⟨c.setRing q ρ, h⟩ = reqCount p ⟨c, h⟩ := by
  cases q <;> rfl

theorem torn_halting (hnotes : ∀ e, e ∈ notes → halting e = true) : torn p notes = 0 := by
  have h : notes.flatMap tornReqs = [] := by
    rw [List.flatMap_eq_nil_iff]
    intro e he
    have := hnotes e he
    cases e <;> first | rfl | cases this
  simp [torn, h]

theorem reqCount_tornDown (hnotes : ∀ e, e ∈ notes → halting e = true) :
    reqCount p
        ⟨stamp (c.setTab q SlotTable.gone) n (.teardown (c.tab q).occupants :: notes), h⟩ =
      reqCount p ⟨c, h⟩ := by
  have hgone := coreReqs_gone p (c := c) (q := q)
  have htorn := torn_append p [.teardown (c.tab q).occupants] notes
  rw [torn_halting p hnotes] at htorn
  simp only [reqCount, coreReqs_stamp]
  rw [List.singleton_append] at htorn
  omega

theorem reqCount_fresh {depth : Nat} {skip : Bool} (hvac : Vacant (c.tab q)) :
    reqCount p ⟨c.setTab q (SlotTable.fresh depth skip), h⟩ = reqCount p ⟨c, h⟩ := by
  simp only [reqCount]
  rw [coreReqs_fresh p hvac]

theorem reqCount_ownerless (he : ownerless e = true) (hreq : h'.req = h.req) :
    reqCount p ⟨stamp c n [e], h'⟩ = reqCount p ⟨c, h⟩ := by
  refine reqCount_stamp p ?_ hreq
  rw [torn_cons, tornReqs_ownerless he]
  rfl

end Configurations
end Ownership
end NvmeDriver
