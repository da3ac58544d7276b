import NvmeDriver.Lifecycle.Waits

/-!
# The flush of a last close

The open count of a unit has sixteen bits and counts its handles, whatever waits: a close
asks the unit task for a flush when it takes the last of them.
-/

namespace NvmeDriver
namespace Residence

/-- The open count of a unit is the number of its handles. -/
def Counted (b : Base) : Prop :=
  ∀ n u, b.units[n]? = some u → u.openCnt = b.handles.count n

section Opens

variable {b : Base}

theorem Counted.openLib (h : Counted b) {libs : Bool} {bus : List (Bool × List Bool)}
    {n flags : Nat} (hfew : (openLib libs bus n flags b).handles.length < 2 ^ 16) :
    Counted (openLib libs bus n flags b) := by
  have hprobe : Counted (devEnsureProbed libs bus b) := by
    unfold devEnsureProbed
    split
    · exact h
    · split <;> exact h
  rcases openLib_cases libs bus n flags b with heq | ⟨u, u₁, hu, ho, heq⟩
  · rw [heq]
    exact hprobe
  · rw [heq] at hfew ⊢
    generalize devEnsureProbed libs bus b = b₁ at *
    obtain ⟨hn, -⟩ := List.getElem?_eq_some_iff.mp hu
    have hopened : u₁.openCnt = (u.openCnt + 1) % 2 ^ 16 := by
      unfold unitOpen at ho
      split at ho
      · cases ho
      · cases ho
        rfl
    have hold := hprobe n u hu
    intro m v hv
    change (b₁.units.set n u₁)[m]? = some v at hv
    change v.openCnt = (n :: b₁.handles).count m
    by_cases hm : n = m
    · subst hm
      rw [List.getElem?_set_self hn] at hv
      cases hv
      have hle : b₁.handles.count n ≤ b₁.handles.length := List.count_le_length
      change b₁.handles.length + 1 < 2 ^ 16 at hfew
      rw [List.count_cons_self, hopened, hold]
      exact Nat.mod_eq_of_lt (by omega)
    · rw [List.getElem?_set_ne hm] at hv
      rw [List.count_cons_of_ne hm]
      exact hprobe m v hv

/-- A close takes one handle of its unit away. -/
theorem count_eraseIdx {hs : List Nat} {i n : Nat} (hi : hs[i]? = some n) (m : Nat) :
    hs.count m = (hs.eraseIdx i).count m + if n = m then 1 else 0 := by
  obtain ⟨hlt, hget⟩ := List.getElem?_eq_some_iff.mp hi
  have hperm := (List.getElem_cons_eraseIdx_perm hlt).count_eq m
  rw [← hperm, hget, List.count_cons]
  by_cases hm : n = m
  · simp [hm]
  · simp [hm]

theorem unitClose_openCnt (u : UnitEntry) : (unitClose u).openCnt = u.openCnt - 1 := by
  unfold unitClose
  split
  · rfl
  · omega

/-- A handle and its unit are closed together. -/
theorem Counted.close (h : Counted b) {i n : Nat} (hi : b.handles[i]? = some n) {b' : Base}
    (hunits : b'.units = b.units.modify n unitClose)
    (hhandles : b'.handles = b.handles.eraseIdx i) : Counted b' := by
  intro m v hv
  rw [hunits, List.getElem?_modify] at hv
  obtain ⟨u, hu, rfl⟩ := Option.map_eq_some_iff.mp hv
  have hold := h m u hu
  have hcount := count_eraseIdx hi m
  rw [hhandles]
  by_cases hm : n = m
  · rw [if_pos hm] at hcount ⊢
    rw [unitClose_openCnt]
    omega
  · rw [if_neg hm] at hcount ⊢
    change u.openCnt = _
    omega

/-- What a scan does with the units leaves the handles alone. -/
theorem Counted.allocNvmeunit (h : Counted b)
    (hknown : ∀ n, n ∈ b.handles → n < b.units.length) (c : Nat) :
    Counted (happen b (.allocNvmeunit c)) := by
  unfold happen
  dsimp only
  split
  · intro m v hv
    change (b.units ++ [{ ctrl := c }])[m]? = some v at hv
    by_cases hm : m < b.units.length
    · rw [List.getElem?_append_left hm] at hv
      exact h m v hv
    · rw [List.getElem?_append_right (Nat.le_of_not_lt hm)] at hv
      have hnew : v = { ctrl := c } := List.mem_singleton.mp (List.mem_of_getElem? hv)
      have hnone : b.handles.count m = 0 :=
        List.count_eq_zero.mpr fun hin => hm (hknown m hin)
      rw [hnew]
      exact hnone.symm
  · exact h

theorem Counted.nsRemove (h : Counted b) (n : Nat) : Counted (happen b (.nsRemove n)) := by
  intro m v hv
  change (b.units.modify n _)[m]? = some v at hv
  rw [List.getElem?_modify] at hv
  obtain ⟨u, hu, rfl⟩ := Option.map_eq_some_iff.mp hv
  have hold := h m u hu
  split
  · exact hold
  · exact hold

end Opens

section Waiting

variable {d : Device} {m : Moment} {c : Call} {k : Nat}

theorem handles_few (hfew : d.users.length < 2 ^ 16) : d.base.handles.length < 2 ^ 16 := by
  unfold Device.users at hfew
  rw [List.length_append] at hfew
  omega

theorem Counted.start (h : Counted d.base) (hk : Kept d) (e : Happening)
    (hfew : (d.start e).base.handles.length < 2 ^ 16) : Counted (d.start e).base := by
  cases e with
  | openDevice libs bus n flags =>
      change (startOpen libs bus n flags d).base.handles.length < 2 ^ 16 at hfew
      change Counted (startOpen libs bus n flags d).base
      unfold startOpen at hfew ⊢
      split
      · rename_i hready
        rw [if_pos hready] at hfew
        exact h.openLib hfew
      · exact h
  | closeDevice i port removable =>
      change Counted (startClose i port removable d).base
      cases hi : d.base.handles[i]? with
      | none =>
          unfold startClose
          rw [hi]
          exact h
      | some n =>
          obtain ⟨cnt, del, hbase⟩ := startClose_base hi port removable
          rw [hbase]
          exact h.close hi rfl rfl
  | expunge removable =>
      obtain ⟨del, hbase⟩ := startExpunge_base removable d
      change Counted (startExpunge removable d).base
      rw [hbase]
      exact h
  | controller c e => exact h
  | allocNvmeunit c =>
      exact h.allocNvmeunit (fun n hn => hk.known n (List.mem_append_left _ hn)) c
  | nsRemove n => exact h.nsRemove n

theorem Counted.goOn (h : Counted d.base) (hfew : (goOn c d).base.handles.length < 2 ^ 16) :
    Counted (goOn c d).base := by
  cases c with
  | probing bus n flags => exact h
  | scanning n flags => exact Counted.openLib (b := { d.base with probed := true }) h hfew
  | flushing n removable =>
      obtain ⟨cnt, del, hbase⟩ := finishClose_base removable d
      unfold Residence.goOn
      rw [hbase]
      exact h
  | unprobing => exact h

theorem Counted.step (h : Counted d.base) (hh : Held d)
    (hfew : (d.step m).base.handles.length < 2 ^ 16) : Counted (d.step m).base := by
  rcases hh with ⟨hres, hk⟩ | ⟨hgone, -⟩
  · unfold Device.step Device.next at hfew ⊢
    rw [if_pos hres] at hfew ⊢
    cases m with
    | start e => exact h.start hk e hfew
    | goOn k =>
        dsimp only at hfew ⊢
        cases hget : d.waiting[k]? with
        | none => exact h
        | some c =>
            rw [hget] at hfew
            exact Counted.goOn (d := { d with waiting := d.waiting.eraseIdx k }) h hfew
  · rw [step_of_gone hgone]
    exact h

theorem Counted.run (h : Counted d.base) (hh : Held d) {ms : List Moment}
    (hclear : StaysClear ms d) : Counted (d.run ms).base := by
  induction ms generalizing d with
  | nil => exact h
  | cons m ms ih =>
      exact ih (h.step hh (handles_few hclear.1.few)) (hh.step m hclear.1) hclear.2

theorem goOn_vwc (c : Call) (d : Device) : (goOn c d).base.vwc = d.base.vwc := by
  cases c with
  | probing bus n flags => rfl
  | scanning n flags => exact (openLib_fixed ..).2
  | flushing n removable =>
      obtain ⟨cnt, del, hbase⟩ := finishClose_base removable d
      unfold goOn
      rw [hbase]
  | unprobing => rfl

theorem step_vwc (d : Device) (m : Moment) : (d.step m).base.vwc = d.base.vwc := by
  unfold Device.step Device.next
  split
  · cases m with
    | start e => exact (start_fixed d e).2
    | goOn k =>
        dsimp only
        split
        · rfl
        · exact goOn_vwc ..
  · rfl

theorem run_vwc (ms : List Moment) (d : Device) : (d.run ms).base.vwc = d.base.vwc := by
  induction ms generalizing d with
  | nil => rfl
  | cons m ms ih => exact (ih (d.step m)).trans (step_vwc d m)

/-- What the flush asks of the unit and its controller; a controller that is up has its
task. -/
theorem Kept.nvmeUnitCloseFlush (h : Kept d) {n : Nat} {u : UnitEntry}
    (hu : d.base.units[n]? = some u) (port : Bool) :
    nvmeUnitCloseFlush port (unitClose u) d.base = true ↔
      d.base.vwc u.ctrl = true ∧ u.flags &&& Units.nvmeUnitDead = 0 ∧ port = true := by
  obtain ⟨hn, rfl⟩ := List.getElem?_eq_some_iff.mp hu
  have hown := h.owned _ (List.getElem_mem hn)
  have htask := (h.settled _ (List.getElem_mem hown)).standing.rung.unitTask
  have hflags : (unitClose d.base.units[n]).flags = d.base.units[n].flags := by
    unfold unitClose
    split <;> rfl
  unfold Residence.nvmeUnitCloseFlush
  rw [unitClose_ctrl, hflags, List.getElem?_eq_getElem hown]
  simp [htask, and_assoc]

end Waiting

/-- Whatever calls wait, a close hands the unit task a flush exactly when it closes the last
handle of a unit, the controller has a volatile write cache, the dead bit of the unit is clear
and there is a port for the reply. -/
theorem flush_on_last_close (vwc : Nat → Bool) (ms : List Moment) {i n : Nat} {u : UnitEntry}
    (port removable : Bool) (hclear : StaysClear ms { base := .fresh vwc })
    (hi : (Device.run { base := .fresh vwc } ms).base.handles[i]? = some n)
    (hu : (Device.run { base := .fresh vwc } ms).base.units[n]? = some u) :
    ((Device.run { base := .fresh vwc } ms).step
        (.start (.closeDevice i port removable))).base.flushes =
      if (Device.run { base := .fresh vwc } ms).base.handles.count n = 1 ∧
          vwc u.ctrl = true ∧ u.flags &&& Units.nvmeUnitDead = 0 ∧ port = true then
        n :: (Device.run { base := .fresh vwc } ms).base.flushes
      else (Device.run { base := .fresh vwc } ms).base.flushes := by
  have hcounted : Counted (Device.run { base := .fresh vwc } ms).base :=
    Counted.run (d := { base := .fresh vwc }) (fun m v hv => by cases hv) (held_fresh vwc) hclear
  have hvwc : (Device.run { base := .fresh vwc } ms).base.vwc = vwc := run_vwc ms _
  rcases (held_fresh vwc).run hclear with ⟨hres, hk⟩ | ⟨-, hnone⟩
  · generalize Device.run { base := .fresh vwc } ms = d at *
    have hcnt := hcounted n u hu
    have hpos : 0 < d.base.handles.count n := List.count_pos_iff.mpr (List.mem_of_getElem? hi)
    have hask := hk.nvmeUnitCloseFlush hu port
    rw [hvwc] at hask
    have hlast : (unitClose u).openCnt = 0 ↔ d.base.handles.count n = 1 := by
      rw [unitClose_openCnt, hcnt]
      omega
    have hflushes : (d.step (.start (.closeDevice i port removable))).base.flushes =
        closeFlushes port n d.base := by
      obtain ⟨cnt, del, hbase⟩ := startClose_base hi port removable
      rw [show d.step (.start (.closeDevice i port removable)) = startClose i port removable d
        from if_pos hres, hbase]
    rw [hflushes]
    unfold closeFlushes
    rw [hu]
    exact if_congr (Iff.and hlast hask) rfl rfl
  · exact absurd (hnone ▸ mem_users hi) List.not_mem_nil

/-- The unit is opened again while a close waits for its flush, and closed again. -/
theorem flush_on_last_close_again :
    ((Device.run { base := .fresh fun _ => true } reopened).step
      (.start (.closeDevice 0 true true))).base.flushes = [0, 0] :=
  (flush_on_last_close (fun _ => true) reopened (i := 0) (n := 0)
    (u := { ctrl := 0, openCnt := 1 }) true true (by decide) rfl rfl).trans
    (if_pos (by decide))

end Residence
end NvmeDriver
