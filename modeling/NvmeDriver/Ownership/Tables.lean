import NvmeDriver.Ownership.Machine

/-!
# In-flight tables

What the table primitives keep: a slot holds the request its tag names, a free
tag names an empty slot, no tag is free twice, and the count is right.  Every
operation changes the number of occupants by the request it moves.
-/

namespace NvmeDriver
namespace Ownership

open Engine
open Lib

/-- A table of a queue is well formed. -/
structure TabOk (q : QueueId) (t : SlotTable) : Prop where
  length : t.inflight.length = t.depth
  slots : ∀ tag r, t.read tag = some r → cidTag r.cid = tag ∧ r.q = q
  free : ∀ cid, cid ∈ t.freeStack → cidTag cid < t.depth ∧ t.read (cidTag cid) = none
  nodup : (t.freeStack.map cidTag).Nodup
  count : t.inflightCount = Slots.held (fun _ => true) t.inflight
  present : 0 < t.depth → t.present = true

/-- A CQE is matched to the request in the slot it names. -/
theorem matchCqe_some {s : State} {q : QueueId} {cqe : Cqe} {req : Request}
    (hmatch : matchCqe s q cqe = some req) :
    s.slot q (cidTag req.cid) = some req ∧ cqe.cid = req.cid := by
  unfold matchCqe at hmatch
  split at hmatch
  · cases hread : s.slot q (cidTag cqe.cid) with
    | none =>
        rw [hread] at hmatch
        cases hmatch
    | some r =>
        rw [hread] at hmatch
        dsimp only at hmatch
        split at hmatch
        · rename_i hcid
          cases hmatch
          rw [← hcid]
          exact ⟨hread, rfl⟩
        · cases hmatch
  · cases hmatch

/-- A CQE that is matched to no request names no request in its slot. -/
theorem matchCqe_none {s : State} {cqe : Cqe} {req : Request}
    (hmatch : matchCqe s .io cqe = none) (hread : s.core.ioTab.read (cidTag cqe.cid) = some req)
    (hlt : cidTag cqe.cid < s.core.ioTab.depth) : cqe.cid ≠ req.cid := by
  intro hcid
  unfold matchCqe at hmatch
  have hslot : s.slot .io (cidTag cqe.cid) = some req := hread
  have hdepth : cidTag cqe.cid < (s.tab .io).depth := hlt
  rw [if_pos hdepth, hslot] at hmatch
  dsimp only at hmatch
  rw [if_pos hcid] at hmatch
  cases hmatch

section Primitives

variable {q : QueueId} {t : SlotTable} {cid : Nat} {rest : List Nat} {r : Request}

@[simp] theorem cidTag_nextCid (skip : Bool) (cid : Nat) :
    cidTag (nextCid skip cid) = cidTag cid := by
  unfold nextCid cidTag
  split <;> omega

theorem TabOk.free_head (ht : TabOk q t) (hfree : t.freeStack = cid :: rest) :
    cidTag cid < t.inflight.length ∧ t.read (cidTag cid) = none := by
  have h := ht.free cid (by rw [hfree]; exact List.mem_cons_self ..)
  rw [ht.length]
  exact h

theorem TabOk.head_not_mem (ht : TabOk q t) (hfree : t.freeStack = cid :: rest) :
    cidTag cid ∉ rest.map cidTag := by
  have h := ht.nodup
  rw [hfree, List.map_cons, List.nodup_cons] at h
  exact h.1

theorem held_claim (p : Request → Bool) (ht : TabOk q t)
    (hfree : t.freeStack = cid :: rest) (r : Request) :
    Slots.held p (nvmeInflightClaim (popped t rest) cid r).inflight =
      Slots.held p t.inflight + hit p (some r) := by
  obtain ⟨hlt, hnone⟩ := ht.free_head hfree
  have h := Slots.held_set p (some r) hlt
  unfold SlotTable.read at hnone
  rw [hnone, hit_none] at h
  exact h

theorem held_release (p : Request → Bool) (hread : t.read (cidTag cid) = some r) :
    Slots.held p (nvmeInflightRelease t cid).inflight + hit p (some r) =
      Slots.held p t.inflight := by
  have h := Slots.held_set p none (Slots.lt_length_of_read hread)
  unfold SlotTable.read at hread
  rw [hread, hit_none] at h
  unfold nvmeInflightRelease SlotTable.read
  rw [hread]
  exact h

theorem held_edit (p : Request → Bool) (tag : Nat) (f : Request → Request)
    (hf : ∀ r, p (f r) = p r) :
    Slots.held p (t.edit tag f).inflight = Slots.held p t.inflight := by
  unfold SlotTable.edit SlotTable.read
  dsimp only
  by_cases hlt : tag < t.inflight.length
  · have h := Slots.held_set p ((Slots.read t.inflight tag).map f) hlt
    have hhit : hit p ((Slots.read t.inflight tag).map f) =
        hit p (Slots.read t.inflight tag) := by
      cases Slots.read t.inflight tag with
      | none => rfl
      | some r => simp [hf]
    omega
  · rw [List.set_eq_of_length_le (by omega)]

theorem read_edit (t : SlotTable) (tag u : Nat) (f : Request → Request) :
    (t.edit tag f).read u = if tag = u then (t.read u).map f else t.read u := by
  split
  · rename_i he
    subst he
    by_cases hlt : tag < t.inflight.length
    · exact Slots.read_set_self _ hlt
    · unfold SlotTable.edit SlotTable.read
      dsimp only
      rw [List.set_eq_of_length_le (by omega), Slots.read_eq_none_of_le (by omega)]
      rfl
  · rename_i hne
    exact Slots.read_set_other _ hne

theorem read_claim_self (ht : TabOk q t) (hfree : t.freeStack = cid :: rest)
    (r : Request) :
    (nvmeInflightClaim (popped t rest) cid r).read (cidTag cid) = some r :=
  Slots.read_set_self _ (ht.free_head hfree).1

theorem read_fresh (depth : Nat) (skip : Bool) (tag : Nat) :
    (SlotTable.fresh depth skip).read tag = none := by
  by_contra hne
  obtain ⟨r, hread⟩ := Option.ne_none_iff_exists'.mp hne
  have hmem : some r ∈ List.replicate depth none := Slots.mem_iff_read.mpr ⟨tag, hread⟩
  cases List.eq_of_mem_replicate hmem

theorem read_claim_cases {tag : Nat} {r r' : Request}
    (h : (nvmeInflightClaim (popped t rest) cid r).read tag = some r') :
    r' = r ∨ t.read tag = some r' := by
  change Slots.read (t.inflight.set (cidTag cid) (some r)) tag = some r' at h
  by_cases htag : cidTag cid = tag
  · subst htag
    have hin := Slots.lt_length_of_read h
    rw [List.length_set] at hin
    rw [Slots.read_set_self _ hin] at h
    exact .inl (Option.some.inj h).symm
  · rw [Slots.read_set_other _ htag] at h
    exact .inr h

theorem read_release_cases {tag : Nat} {r : Request}
    (h : (nvmeInflightRelease t cid).read tag = some r) : t.read tag = some r := by
  unfold nvmeInflightRelease at h
  split at h
  · exact h
  · change Slots.read (t.inflight.set (cidTag cid) none) tag = some r at h
    by_cases htag : cidTag cid = tag
    · subst htag
      have hin := Slots.lt_length_of_read h
      rw [List.length_set] at hin
      rw [Slots.read_set_self _ hin] at h
      cases h
    · rwa [Slots.read_set_other _ htag] at h

theorem TabOk.claim (ht : TabOk q t) (hfree : t.freeStack = cid :: rest)
    (hcid : r.cid = cid) (hq : r.q = q) :
    TabOk q (nvmeInflightClaim (popped t rest) cid r) := by
  obtain ⟨hlt, hnone⟩ := ht.free_head hfree
  have hread : (popped t rest).read (cidTag cid) = none := hnone
  refine ⟨?_, ?_, ?_, ?_, ?_, ?_⟩
  · simpa [nvmeInflightClaim, popped] using ht.length
  · intro tag r' hr'
    by_cases htag : tag = cidTag cid
    · subst htag
      rw [read_claim_self ht hfree] at hr'
      cases hr'
      exact ⟨by rw [hcid], hq⟩
    · refine ht.slots tag r' ?_
      rw [← hr']
      exact (Slots.read_set_other _ (fun h => htag h.symm)).symm
  · intro cid' hmem
    have hne : cidTag cid ≠ cidTag cid' := by
      intro he
      exact ht.head_not_mem hfree (he ▸ List.mem_map_of_mem hmem)
    have h := ht.free cid' (by rw [hfree]; exact List.mem_cons_of_mem _ hmem)
    refine ⟨h.1, ?_⟩
    rw [← h.2]
    exact Slots.read_set_other _ hne
  · have h := ht.nodup
    rw [hfree, List.map_cons, List.nodup_cons] at h
    exact h.2
  · rw [held_claim _ ht hfree, ← ht.count]
    simp only [nvmeInflightClaim, hread, hit_some, if_true]
    rfl
  · exact ht.present

theorem TabOk.release (ht : TabOk q t) (hread : t.read (cidTag cid) = some r) :
    TabOk q (nvmeInflightRelease t cid) := by
  have hlt : cidTag cid < t.inflight.length := Slots.lt_length_of_read hread
  have heq : nvmeInflightRelease t cid =
      { t with
        inflight := t.inflight.set (cidTag cid) none
        inflightCount := t.inflightCount - 1
        freeStack := nextCid t.skipCidGen cid :: t.freeStack } := by
    unfold nvmeInflightRelease
    rw [hread]
  have hself : (nvmeInflightRelease t cid).read (cidTag cid) = none := by
    rw [heq]
    exact Slots.read_set_self _ hlt
  have hother : ∀ tag, cidTag cid ≠ tag →
      (nvmeInflightRelease t cid).read tag = t.read tag := by
    intro tag hne
    rw [heq]
    exact Slots.read_set_other _ hne
  have hnot : cidTag cid ∉ t.freeStack.map cidTag := by
    intro hmem
    obtain ⟨cid', hmem', he⟩ := List.mem_map.mp hmem
    have h := (ht.free cid' hmem').2
    rw [he, hread] at h
    cases h
  have hstack : (nvmeInflightRelease t cid).freeStack =
      nextCid t.skipCidGen cid :: t.freeStack := by rw [heq]
  have hdepth : (nvmeInflightRelease t cid).depth = t.depth := by rw [heq]
  refine ⟨?_, ?_, ?_, ?_, ?_, ?_⟩
  · rw [heq]
    simpa using ht.length
  · intro tag r' hr'
    by_cases htag : cidTag cid = tag
    · subst htag
      rw [hself] at hr'
      cases hr'
    · rw [hother tag htag] at hr'
      exact ht.slots tag r' hr'
  · intro cid' hmem
    rw [hstack] at hmem
    rw [hdepth]
    rcases List.mem_cons.mp hmem with rfl | hmem
    · rw [cidTag_nextCid]
      exact ⟨ht.length ▸ hlt, hself⟩
    · have hne : cidTag cid ≠ cidTag cid' := by
        intro he
        exact hnot (he ▸ List.mem_map_of_mem hmem)
      rw [hother _ hne]
      exact ht.free cid' hmem
  · rw [hstack, List.map_cons, cidTag_nextCid, List.nodup_cons]
    exact ⟨hnot, ht.nodup⟩
  · have h := held_release (fun _ => true) hread
    have hc : (nvmeInflightRelease t cid).inflightCount = t.inflightCount - 1 := by
      rw [heq]
    simp only [hit_some, if_true] at h
    rw [hc, ht.count]
    omega
  · rw [heq]
    exact ht.present

theorem TabOk.bump (ht : TabOk q t) (hfree : t.freeStack = cid :: rest) :
    TabOk q (bumped t cid rest) := by
  have hstack : (bumped t cid rest).freeStack.map cidTag = t.freeStack.map cidTag := by
    simp [bumped, hfree]
  refine { ht with free := ?_, nodup := hstack ▸ ht.nodup }
  intro cid' hmem
  obtain ⟨cid₀, hmem₀, he⟩ : ∃ cid₀, cid₀ ∈ t.freeStack ∧ cidTag cid₀ = cidTag cid' := by
    have h := List.mem_map_of_mem (f := cidTag) hmem
    rw [hstack] at h
    exact List.mem_map.mp h
  rw [← he]
  exact ht.free cid₀ hmem₀

theorem TabOk.edit (ht : TabOk q t) (tag : Nat) (f : Request → Request)
    (hcid : ∀ r, (f r).cid = r.cid) (hq : ∀ r, (f r).q = r.q) :
    TabOk q (t.edit tag f) := by
  refine { ht with length := ?_, slots := ?_, free := ?_, count := ?_ }
  · simpa [SlotTable.edit] using ht.length
  · intro u r' hr'
    rw [read_edit] at hr'
    split at hr'
    · obtain ⟨r₀, hr₀, rfl⟩ := Option.map_eq_some_iff.mp hr'
      rw [hcid, hq]
      exact ht.slots u r₀ hr₀
    · exact ht.slots u r' hr'
  · intro cid' hmem
    have h := ht.free cid' hmem
    refine ⟨h.1, ?_⟩
    rw [read_edit, h.2]
    simp
  · rw [held_edit (fun _ => true) tag f (fun _ => rfl)]
    exact ht.count

theorem tabOk_gone (q : QueueId) : TabOk q SlotTable.gone where
  length := rfl
  slots := by
    intro tag r h
    simp [SlotTable.gone, SlotTable.read] at h
  free := by
    intro cid h
    cases h
  nodup := List.nodup_nil
  count := rfl
  present := by
    intro h
    cases h

/-- The requests of a table, read tag by tag. -/
theorem occupants_eq (ht : TabOk q t) :
    (List.range t.depth).filterMap t.read = t.occupants := by
  have hread : t.read = id ∘ Slots.read t.inflight := rfl
  unfold SlotTable.occupants
  rw [hread, ← List.filterMap_map, ← ht.length, Slots.map_read_range]

theorem tabOk_fresh (q : QueueId) {depth : Nat} (skip : Bool) (hdepth : depth ≤ 4096) :
    TabOk q (SlotTable.fresh depth skip) where
  length := List.length_replicate
  slots := by
    intro tag r h
    have hmem : some r ∈ List.replicate depth none := Slots.mem_iff_read.mpr ⟨tag, h⟩
    cases List.eq_of_mem_replicate hmem
  free := by
    intro cid h
    have hlt : cid < depth := List.mem_range.mp h
    have htag : cidTag cid = cid := Nat.mod_eq_of_lt (by omega)
    rw [htag]
    refine ⟨hlt, ?_⟩
    simp [SlotTable.fresh, SlotTable.read, Slots.read, hlt]
  nodup := by
    have hmap : (List.range depth).map cidTag = List.range depth := by
      refine (List.map_congr_left ?_).trans (List.map_id _)
      intro cid h
      exact Nat.mod_eq_of_lt (by have := List.mem_range.mp h; omega)
    change ((List.range depth).map cidTag).Nodup
    rw [hmap]
    exact List.nodup_range
  count := by
    simp [SlotTable.fresh]
  present := fun _ => rfl

end Primitives
end Ownership
end NvmeDriver
