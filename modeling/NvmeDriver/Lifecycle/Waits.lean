import NvmeDriver.Lifecycle.Residence

/-!
# Calls that wait

The first open waits for the probe, the last close of a unit for its flush and the expunge
for the teardown of the controllers, all with the base still on the DeviceList: other calls
come in meanwhile, and a call goes on with what the base has become.  A handle keeps the
device as long as no open meets an expunge.  The runs of `Residence` are those in which
every call goes through before the next one comes.
-/

namespace NvmeDriver
namespace Residence

open Lifecycle (Life Settled)

/-! ### Model -/

/-- A call in its wait. -/
inductive Call
  /-- an open in `nvme_probe_all`, its controllers not on the list yet -/
  | probing (bus : List (Bool × List Bool)) (n flags : Nat)
  /-- and with its controllers on the list, before `probed` is set -/
  | scanning (n flags : Nat)
  /-- a close in `nvme_unit_close_flush` -/
  | flushing (n : Nat) (removable : Bool)
  /-- an expunge in `nvme_unprobe_all` -/
  | unprobing

def Call.isExpunge : Call → Bool
  | .unprobing => true
  | _ => false

/-- The unit that a call still has open. -/
def Call.unit : Call → Option Nat
  | .flushing n _ => some n
  | _ => none

/-- The base and the calls that wait, the first one first. -/
structure Device where
  base : Base
  waiting : List Call := []

def Device.wait (d : Device) (c : Call) : Device := { d with waiting := d.waiting ++ [c] }

/-- The units in use: those of the handles, and those whose close waits. -/
def Device.users (d : Device) : List Nat := d.base.handles ++ d.waiting.filterMap Call.unit

/-- `openLib`, up to its wait. -/
def startOpen (libs : Bool) (bus : List (Bool × List Bool)) (n flags : Nat) (d : Device) :
    Device :=
  if d.base.probed || !libs then { d with base := openLib libs bus n flags d.base }
  else d.wait (.probing bus n flags)

/-- `expungeLib`, up to its wait. -/
def startExpunge (removable : Bool) (d : Device) : Device :=
  if 0 < d.base.libOpenCnt then { d with base.delExp := true }
  else if !removable then d
  else d.wait .unprobing

/-- `closeLib` from `UnitClose` on. -/
def finishClose (removable : Bool) (d : Device) : Device :=
  let d₁ : Device := { d with base.libOpenCnt := (d.base.libOpenCnt + (2 ^ 16 - 1)) % 2 ^ 16 }
  if d₁.base.libOpenCnt = 0 ∧ d₁.base.delExp = true then startExpunge removable d₁ else d₁

/-- Whether the close of a unit waits for a flush. -/
def asksFlush (port : Bool) (n : Nat) (b : Base) : Bool :=
  match b.units[n]? with
  | none => false
  | some u => (unitClose u).openCnt == 0 && nvmeUnitCloseFlush port (unitClose u) b

/-- `closeLib` of the `i`th handle, up to its wait if it has one. -/
def startClose (i : Nat) (port removable : Bool) (d : Device) : Device :=
  match d.base.handles[i]? with
  | none => d
  | some n =>
      let d₁ : Device :=
        { d with base := { d.base with
            units := d.base.units.modify n unitClose
            flushes := closeFlushes port n d.base
            handles := d.base.handles.eraseIdx i } }
      if asksFlush port n d.base then d₁.wait (.flushing n removable)
      else finishClose removable d₁

/-- What a call does after its wait. -/
def goOn : Call → Device → Device
  | .probing bus n flags, d =>
      Device.wait { d with base.controllers := d.base.controllers ++ nvmeProbeAll bus }
        (.scanning n flags)
  | .scanning n flags, d =>
      { d with base := openLib true [] n flags { d.base with probed := true } }
  | .flushing _ removable, d => finishClose removable d
  | .unprobing, d =>
      { d with base := { d.base with
          resident := false
          controllers := []
          left := d.base.controllers.map Lifecycle.unprobe } }

/-- A call comes in, or one that waits goes on. -/
inductive Moment
  | start (e : Happening)
  | goOn (k : Nat)

def Device.start (d : Device) : Happening → Device
  | .openDevice libs bus n flags => startOpen libs bus n flags d
  | .closeDevice i port removable => startClose i port removable d
  | .expunge removable => startExpunge removable d
  | e => { d with base := happen d.base e }

def Device.next (d : Device) : Moment → Device
  | .start e => d.start e
  | .goOn k =>
      match d.waiting[k]? with
      | none => d
      | some c => Residence.goOn c { d with waiting := d.waiting.eraseIdx k }

/-- Nothing happens to a base that is gone. -/
def Device.step (d : Device) (m : Moment) : Device := if d.base.resident then d.next m else d

def Device.run (d : Device) (ms : List Moment) : Device := ms.foldl Device.step d

/-! ### When an open meets an expunge -/

/-- An open comes in. -/
def Moment.opens : Moment → Bool
  | .start (.openDevice ..) => true
  | _ => false

/-- After this moment fewer than 2^16 units are in use, and an expunge that waits has met no
open and no other expunge. -/
structure Clear (d : Device) (m : Moment) : Prop where
  few : d.users.length < 2 ^ 16
  apart : d.waiting.any Call.isExpunge = true → m.opens = false ∧ d.waiting.length = 1

/-- All moments of a run are clear. -/
def StaysClear : List Moment → Device → Prop
  | [], _ => True
  | m :: ms, d => Clear (d.step m) m ∧ StaysClear ms (d.step m)

/-- A device that is there: its controllers are up, its open count is the number of units in
use, modulo 2^16, and an expunge that waits finds none in use and waits alone. -/
structure Kept (d : Device) : Prop where
  counted : d.base.libOpenCnt = d.users.length % 2 ^ 16
  settled : ∀ l, l ∈ d.base.controllers → Settled l
  owned : ∀ u, u ∈ d.base.units → u.ctrl < d.base.controllers.length
  known : ∀ n, n ∈ d.users → n < d.base.units.length
  alone : d.waiting.any Call.isExpunge = true → d.users = [] ∧ d.waiting.length = 1

section Steps

variable {d : Device} {m : Moment} {c : Call} {k : Nat}

theorem users_wait (d : Device) (c : Call) : (d.wait c).users = d.users ++ c.unit.toList := by
  unfold Device.users Device.wait
  rw [List.filterMap_append, List.append_assoc]
  cases c <;> rfl

theorem mem_users {i n : Nat} (hi : d.base.handles[i]? = some n) : n ∈ d.users :=
  List.mem_append_left _ (List.mem_of_getElem? hi)

/-- A call that goes on takes its unit along. -/
theorem users_perm (hget : d.waiting[k]? = some c) :
    d.users.Perm (c.unit.toList ++
      ({ d with waiting := d.waiting.eraseIdx k } : Device).users) := by
  obtain ⟨hk, rfl⟩ := List.getElem?_eq_some_iff.mp hget
  have hperm := ((List.getElem_cons_eraseIdx_perm hk).symm.filterMap Call.unit).append_left
    d.base.handles
  unfold Device.users
  refine hperm.trans ?_
  rw [← List.append_assoc]
  have hcons : (d.waiting[k] :: d.waiting.eraseIdx k).filterMap Call.unit =
      d.waiting[k].unit.toList ++ (d.waiting.eraseIdx k).filterMap Call.unit := by
    cases d.waiting[k] <;> rfl
  rw [hcons, ← List.append_assoc]
  exact List.perm_append_comm.append_right _

/-- While units are in use, no expunge waits. -/
theorem Kept.no_expunge (h : Kept d) (huse : d.users ≠ []) :
    d.waiting.any Call.isExpunge = false :=
  eq_false_of_ne_true fun hexp => huse (h.alone hexp).1

/-- An open that need not wait, or has waited. -/
theorem Kept.openLib (h : Kept d) {libs : Bool} {bus : List (Bool × List Bool)}
    (hprobed : devEnsureProbed libs bus d.base = d.base)
    (hno : d.waiting.any Call.isExpunge = false) (n flags : Nat) :
    Kept { d with base := Residence.openLib libs bus n flags d.base } := by
  rcases openLib_cases libs bus n flags d.base with heq | ⟨u, u₁, hu, ho, heq⟩
  · rw [heq, hprobed]
    exact h
  · rw [heq, hprobed]
    rw [hprobed] at hu
    obtain ⟨hn, hget⟩ := List.getElem?_eq_some_iff.mp hu
    refine ⟨?_, h.settled, ?_, ?_, fun hexp => absurd (hno.symm.trans hexp) Bool.false_ne_true⟩
    · have hcnt := h.counted
      change (d.base.libOpenCnt + 1) % 2 ^ 16 = (d.users.length + 1) % 2 ^ 16
      omega
    · refine owned_set h.owned ?_
      rw [unitOpen_ctrl ho, ← hget]
      exact h.owned _ (List.getElem_mem hn)
    · intro m hm
      change m < (d.base.units.set n u₁).length
      rw [List.length_set]
      rcases List.mem_cons.mp hm with rfl | hm
      · exact hn
      · exact h.known m hm

theorem Kept.startExpunge (h : Kept d) (removable : Bool)
    (hclear : Clear (Residence.startExpunge removable d) m) :
    Kept (Residence.startExpunge removable d) := by
  unfold Residence.startExpunge at hclear ⊢
  split at hclear
  · rename_i hpos
    rw [if_pos hpos]
    exact ⟨h.counted, h.settled, h.owned, h.known, h.alone⟩
  rename_i hzero
  rw [if_neg hzero]
  split at hclear
  · rename_i hguard
    rw [if_pos hguard]
    exact h
  · rename_i hguard
    rw [if_neg hguard]
    have hsame : (d.wait .unprobing).users = d.users := by
      rw [users_wait]
      exact List.append_nil _
    have hexp : (d.wait .unprobing).waiting.any Call.isExpunge = true :=
      List.any_eq_true.mpr ⟨.unprobing, List.mem_append_right _ (List.mem_singleton.mpr rfl), rfl⟩
    have hfew := hclear.few
    have hcnt := h.counted
    refine ⟨hsame ▸ h.counted, h.settled, h.owned, hsame ▸ h.known, fun _ => ?_⟩
    rw [hsame] at hfew ⊢
    exact ⟨List.eq_nil_of_length_eq_zero (by omega), (hclear.apart hexp).2⟩

/-- The rest of a close, when one unit more is counted than is in use. -/
theorem Kept.finishClose {removable : Bool}
    (hcnt : d.base.libOpenCnt = (d.users.length + 1) % 2 ^ 16)
    (hsettled : ∀ l, l ∈ d.base.controllers → Settled l)
    (howned : ∀ u, u ∈ d.base.units → u.ctrl < d.base.controllers.length)
    (hknown : ∀ n, n ∈ d.users → n < d.base.units.length)
    (hno : d.waiting.any Call.isExpunge = false)
    (hclear : Clear (Residence.finishClose removable d) m) :
    Kept (Residence.finishClose removable d) := by
  have hless : ∀ cnt, cnt = (d.base.libOpenCnt + (2 ^ 16 - 1)) % 2 ^ 16 →
      Kept { d with base.libOpenCnt := cnt } := by
    intro cnt hless
    refine ⟨?_, hsettled, howned, hknown, fun hexp => ?_⟩
    · change cnt = d.users.length % 2 ^ 16
      omega
    · exact absurd (hno.symm.trans hexp) Bool.false_ne_true
  unfold Residence.finishClose at hclear ⊢
  dsimp only at hclear ⊢
  generalize hcnt₁ : (d.base.libOpenCnt + (2 ^ 16 - 1)) % 2 ^ 16 = cnt at hclear ⊢
  split at hclear
  · rename_i hlast
    rw [if_pos hlast]
    exact (hless cnt hcnt₁.symm).startExpunge removable hclear
  · rename_i hmore
    rw [if_neg hmore]
    exact hless cnt hcnt₁.symm

theorem Kept.startClose (h : Kept d) (i : Nat) (port removable : Bool)
    (hclear : Clear (Residence.startClose i port removable d) m) :
    Kept (Residence.startClose i port removable d) := by
  unfold Residence.startClose at hclear ⊢
  cases hi : d.base.handles[i]? with
  | none => exact h
  | some n =>
      rw [hi] at hclear
      obtain ⟨hlt, -⟩ := List.getElem?_eq_some_iff.mp hi
      have hmem := mem_users hi
      have hno := h.no_expunge (List.ne_nil_of_mem hmem)
      have hcnt := h.counted
      have hlen : (d.base.handles.eraseIdx i).length + 1 = d.base.handles.length := by
        rw [List.length_eraseIdx_of_lt hlt]
        omega
      have husers : d.users.length =
          d.base.handles.length + (d.waiting.filterMap Call.unit).length := List.length_append
      have howned := forall_mem_modify (f := unitClose) n h.owned fun u hu =>
        (unitClose_ctrl u).symm ▸ hu
      have hunits : (d.base.units.modify n unitClose).length = d.base.units.length :=
        List.length_modify ..
      dsimp only at hclear ⊢
      split at hclear
      · rename_i hflush
        rw [if_pos hflush]
        refine ⟨?_, h.settled, howned, fun j hj => ?_, fun hexp => ?_⟩
        · rw [users_wait, List.length_append]
          change d.base.libOpenCnt = ((d.base.handles.eraseIdx i ++
            d.waiting.filterMap Call.unit).length + 1) % 2 ^ 16
          rw [List.length_append]
          omega
        · change j < (d.base.units.modify n unitClose).length
          rw [hunits]
          rw [users_wait] at hj
          rcases List.mem_append.mp hj with hj | hj
          · refine h.known j ?_
            rcases List.mem_append.mp hj with hj | hj
            · exact List.mem_append_left _ (List.mem_of_mem_eraseIdx hj)
            · exact List.mem_append_right _ hj
          · rw [List.mem_singleton.mp hj]
            exact h.known n hmem
        · change (d.waiting ++ [Call.flushing n removable]).any Call.isExpunge = true at hexp
          rw [List.any_append, hno] at hexp
          cases hexp
      · rename_i hflush
        rw [if_neg hflush]
        refine Kept.finishClose ?_ h.settled howned (fun j hj => ?_) hno hclear
        · change d.base.libOpenCnt = ((d.base.handles.eraseIdx i ++
            d.waiting.filterMap Call.unit).length + 1) % 2 ^ 16
          rw [List.length_append]
          omega
        · change j < (d.base.units.modify n unitClose).length
          rw [hunits]
          refine h.known j ?_
          rcases List.mem_append.mp hj with hj | hj
          · exact List.mem_append_left _ (List.mem_of_mem_eraseIdx hj)
          · exact List.mem_append_right _ hj

/-- What is no call leaves the counts alone. -/
theorem Kept.same (h : Kept d) {b : Base} (hcnt : b.libOpenCnt = d.base.libOpenCnt)
    (hhandles : b.handles = d.base.handles) (hsettled : ∀ l, l ∈ b.controllers → Settled l)
    (howned : ∀ u, u ∈ b.units → u.ctrl < b.controllers.length)
    (hunits : d.base.units.length ≤ b.units.length) : Kept { d with base := b } := by
  have husers : ({ d with base := b } : Device).users = d.users := by
    unfold Device.users
    rw [hhandles]
  refine ⟨?_, hsettled, howned, fun n hn => ?_, ?_⟩
  · rw [husers]
    exact hcnt.trans h.counted
  · rw [husers] at hn
    exact Nat.lt_of_lt_of_le (h.known n hn) hunits
  · rw [husers]
    exact h.alone

/-- Up to its wait an expunge at most asks for a later one. -/
theorem startExpunge_base (removable : Bool) (d : Device) :
    ∃ del, (startExpunge removable d).base = { d.base with delExp := del } := by
  unfold startExpunge
  split
  · exact ⟨true, rfl⟩
  · split
    · exact ⟨d.base.delExp, rfl⟩
    · exact ⟨d.base.delExp, rfl⟩

theorem finishClose_base (removable : Bool) (d : Device) :
    ∃ cnt del, (finishClose removable d).base =
      { d.base with libOpenCnt := cnt, delExp := del } := by
  unfold finishClose
  dsimp only
  generalize (d.base.libOpenCnt + (2 ^ 16 - 1)) % 2 ^ 16 = cnt
  split
  · obtain ⟨del, hbase⟩ := startExpunge_base removable { d with base.libOpenCnt := cnt }
    exact ⟨cnt, del, hbase⟩
  · exact ⟨cnt, d.base.delExp, rfl⟩

/-- Up to its wait a close has closed its unit, whether it waits or not. -/
theorem startClose_base {i n : Nat} (hi : d.base.handles[i]? = some n) (port removable : Bool) :
    ∃ cnt del, (startClose i port removable d).base =
      { d.base with
        units := d.base.units.modify n unitClose
        flushes := closeFlushes port n d.base
        handles := d.base.handles.eraseIdx i
        libOpenCnt := cnt
        delExp := del } := by
  unfold startClose
  rw [hi]
  dsimp only
  split
  · exact ⟨d.base.libOpenCnt, d.base.delExp, rfl⟩
  · obtain ⟨cnt, del, hbase⟩ := finishClose_base removable { d with base := { d.base with
      units := d.base.units.modify n unitClose
      flushes := closeFlushes port n d.base
      handles := d.base.handles.eraseIdx i } }
    exact ⟨cnt, del, hbase⟩

theorem openLib_fixed (libs : Bool) (bus : List (Bool × List Bool)) (n flags : Nat) (b : Base) :
    (openLib libs bus n flags b).resident = b.resident ∧
      (openLib libs bus n flags b).vwc = b.vwc := by
  have hprobe : (devEnsureProbed libs bus b).resident = b.resident ∧
      (devEnsureProbed libs bus b).vwc = b.vwc := by
    unfold devEnsureProbed
    split
    · exact ⟨rfl, rfl⟩
    · split <;> exact ⟨rfl, rfl⟩
  rcases openLib_cases libs bus n flags b with heq | ⟨u, u₁, -, -, heq⟩
  · rw [heq]
    exact hprobe
  · rw [heq]
    exact hprobe

/-- No call takes the base away before its wait. -/
theorem start_fixed (d : Device) (e : Happening) :
    (d.start e).base.resident = d.base.resident ∧ (d.start e).base.vwc = d.base.vwc := by
  unfold Device.start
  cases e with
  | openDevice libs bus n flags =>
      dsimp only
      unfold startOpen
      split
      · exact openLib_fixed ..
      · exact ⟨rfl, rfl⟩
  | closeDevice i port removable =>
      dsimp only
      cases hi : d.base.handles[i]? with
      | none =>
          unfold Residence.startClose
          rw [hi]
          exact ⟨rfl, rfl⟩
      | some n =>
          obtain ⟨cnt, del, hbase⟩ := startClose_base hi port removable
          rw [hbase]
          exact ⟨rfl, rfl⟩
  | expunge removable =>
      dsimp only
      obtain ⟨del, hbase⟩ := startExpunge_base removable d
      rw [hbase]
      exact ⟨rfl, rfl⟩
  | controller c e => exact ⟨rfl, rfl⟩
  | allocNvmeunit c =>
      unfold happen
      dsimp only
      split <;> exact ⟨rfl, rfl⟩
  | nsRemove n => exact ⟨rfl, rfl⟩

/-- A call comes in. -/
theorem Kept.start (h : Kept d) (e : Happening) (hclear : Clear (d.start e) (.start e)) :
    Kept (d.start e) := by
  cases e with
  | openDevice libs bus n flags =>
      have hno : (d.start (.openDevice libs bus n flags)).waiting.any Call.isExpunge = false :=
        eq_false_of_ne_true fun hexp => Bool.noConfusion (hclear.apart hexp).1
      change (startOpen libs bus n flags d).waiting.any Call.isExpunge = false at hno
      change Kept (startOpen libs bus n flags d)
      unfold startOpen at hno ⊢
      split
      · rename_i hready
        rw [if_pos hready] at hno
        have hprobed : devEnsureProbed libs bus d.base = d.base := by
          unfold devEnsureProbed
          split
          · rfl
          · rename_i hnot
            rw [if_neg]
            intro hlibs
            rw [hlibs, Bool.not_true, Bool.or_false] at hready
            exact hnot hready
        exact h.openLib hprobed hno n flags
      · rename_i hready
        rw [if_neg hready] at hno
        have hsame : (d.wait (.probing bus n flags)).users = d.users := by
          rw [users_wait]
          exact List.append_nil _
        refine ⟨hsame ▸ h.counted, h.settled, h.owned, hsame ▸ h.known, fun hexp => ?_⟩
        exact absurd (hno.symm.trans hexp) Bool.false_ne_true
  | closeDevice i port removable => exact h.startClose i port removable hclear
  | expunge removable => exact h.startExpunge removable hclear
  | controller c e =>
      refine h.same rfl rfl (forall_mem_modify c h.settled fun l hl => hl.step e)
        (fun u hu => ?_) (Nat.le_refl _)
      change u.ctrl < (d.base.controllers.modify c (Lifecycle.step · e)).length
      rw [List.length_modify]
      exact h.owned u hu
  | allocNvmeunit c =>
      change Kept { d with base := happen d.base (.allocNvmeunit c) }
      unfold happen
      dsimp only
      split
      · rename_i hc
        refine h.same rfl rfl h.settled (fun u hu => ?_) ?_
        · rcases List.mem_append.mp hu with hu | hu
          · exact h.owned u hu
          · rw [List.mem_singleton.mp hu]
            exact hc
        · change d.base.units.length ≤ (d.base.units ++ [_]).length
          rw [List.length_append]
          exact Nat.le_add_right _ _
      · exact h
  | nsRemove n =>
      refine h.same rfl rfl h.settled (forall_mem_modify n h.owned fun _ hu => hu) ?_
      change d.base.units.length ≤ (d.base.units.modify n _).length
      rw [List.length_modify]

/-- When a call goes on, no expunge stays behind. -/
theorem Kept.none_left (h : Kept d) (hget : d.waiting[k]? = some c) :
    (d.waiting.eraseIdx k).any Call.isExpunge = false := by
  obtain ⟨hk, -⟩ := List.getElem?_eq_some_iff.mp hget
  refine eq_false_of_ne_true fun hexp => ?_
  obtain ⟨e, hmem, he⟩ := List.any_eq_true.mp hexp
  have hone := (h.alone (List.any_eq_true.mpr ⟨e, List.mem_of_mem_eraseIdx hmem, he⟩)).2
  have hlen := List.length_eraseIdx_of_lt hk
  exact List.ne_nil_of_mem hmem (List.eq_nil_of_length_eq_zero (by omega))

/-- A call leaves the list of those that wait, with no unit of its own. -/
theorem Kept.drop (h : Kept d) (hget : d.waiting[k]? = some c) (hunit : c.unit = none) :
    Kept { d with waiting := d.waiting.eraseIdx k } := by
  have hperm := users_perm hget
  rw [hunit] at hperm
  change d.users.Perm ({ d with waiting := d.waiting.eraseIdx k } : Device).users at hperm
  exact ⟨hperm.length_eq ▸ h.counted, h.settled, h.owned,
    fun m hm => h.known m (hperm.mem_iff.mpr hm),
    fun hexp => absurd ((h.none_left hget).symm.trans hexp) Bool.false_ne_true⟩

/-- The device is there and kept, or gone with no unit in use. -/
def Held (d : Device) : Prop :=
  (d.base.resident = true ∧ Kept d) ∨ (d.base.resident = false ∧ d.users = [])

/-- Only an expunge takes the base away. -/
theorem goOn_resident (hc : c.isExpunge = false) (d : Device) :
    (goOn c d).base.resident = d.base.resident := by
  cases c with
  | probing bus n flags => rfl
  | scanning n flags => exact (openLib_fixed ..).1
  | flushing n removable =>
      obtain ⟨cnt, del, hbase⟩ := finishClose_base removable d
      unfold goOn
      rw [hbase]
  | unprobing => cases hc

/-- A call that waits goes on. -/
theorem Kept.goOn (h : Kept d) (hres : d.base.resident = true) (hget : d.waiting[k]? = some c)
    (hclear : Clear (Residence.goOn c { d with waiting := d.waiting.eraseIdx k }) m) :
    Held (Residence.goOn c { d with waiting := d.waiting.eraseIdx k }) := by
  cases c with
  | probing bus n flags =>
      have hno := h.none_left hget
      have hlisted := (h.drop hget rfl).same
        (b := { d.base with controllers := d.base.controllers ++ nvmeProbeAll bus }) rfl rfl
        (fun l hl => (List.mem_append.mp hl).elim (h.settled l) (settled_probeAll bus l))
        (fun u hu => by
          change u.ctrl < (d.base.controllers ++ nvmeProbeAll bus).length
          rw [List.length_append]
          exact Nat.lt_add_right _ (h.owned u hu))
        (Nat.le_refl _)
      have husers := users_wait { d with
        waiting := d.waiting.eraseIdx k
        base := { d.base with controllers := d.base.controllers ++ nvmeProbeAll bus } }
        (.scanning n flags)
      rw [show Call.unit (.scanning n flags) = none from rfl, Option.toList_none,
        List.append_nil] at husers
      refine .inl ⟨hres, ⟨husers ▸ hlisted.counted, hlisted.settled, hlisted.owned,
        husers ▸ hlisted.known, fun hexp => ?_⟩⟩
      change (d.waiting.eraseIdx k ++ [Call.scanning n flags]).any Call.isExpunge = true at hexp
      rw [List.any_append, hno] at hexp
      cases hexp
  | scanning n flags =>
      have hprobed := (h.drop hget rfl).same (b := { d.base with probed := true }) rfl rfl
        h.settled h.owned (Nat.le_refl _)
      exact .inl ⟨(goOn_resident rfl _).trans hres,
        hprobed.openLib rfl (h.none_left hget) n flags⟩
  | flushing n removable =>
      have hperm := users_perm hget
      change d.users.Perm (n :: ({ d with waiting := d.waiting.eraseIdx k } : Device).users)
        at hperm
      have hlen : d.users.length =
          ({ d with waiting := d.waiting.eraseIdx k } : Device).users.length + 1 :=
        hperm.length_eq
      refine .inl ⟨(goOn_resident rfl _).trans hres, ?_⟩
      unfold Residence.goOn at hclear ⊢
      exact Kept.finishClose (hlen ▸ h.counted) h.settled h.owned
        (fun m hm => h.known m (hperm.mem_iff.mpr (List.mem_cons_of_mem _ hm)))
        (h.none_left hget) hclear
  | unprobing =>
      have hexp : d.waiting.any Call.isExpunge = true :=
        List.any_eq_true.mpr ⟨.unprobing, List.mem_of_getElem? hget, rfl⟩
      have hperm := users_perm hget
      rw [(h.alone hexp).1] at hperm
      have hnone : ({ d with waiting := d.waiting.eraseIdx k } : Device).users = [] :=
        hperm.nil_eq.symm
      unfold Device.users at hnone
      exact .inr ⟨rfl, hnone⟩

theorem step_of_gone (hgone : d.base.resident = false) (m : Moment) : d.step m = d :=
  if_neg (by rw [hgone]; exact Bool.false_ne_true)

theorem Held.step (h : Held d) (m : Moment) (hclear : Clear (d.step m) m) : Held (d.step m) := by
  rcases h with ⟨hres, hk⟩ | ⟨hgone, hnone⟩
  · unfold Device.step Device.next at hclear ⊢
    rw [if_pos hres] at hclear ⊢
    cases m with
    | start e => exact .inl ⟨(start_fixed d e).1.trans hres, hk.start e hclear⟩
    | goOn k =>
        dsimp only at hclear ⊢
        cases hget : d.waiting[k]? with
        | none => exact .inl ⟨hres, hk⟩
        | some c =>
            rw [hget] at hclear
            exact hk.goOn hres hget hclear
  · rw [step_of_gone hgone]
    exact .inr ⟨hgone, hnone⟩

theorem Held.run (h : Held d) {ms : List Moment} (hclear : StaysClear ms d) : Held (d.run ms) := by
  induction ms generalizing d with
  | nil => exact h
  | cons m ms ih => exact ih (h.step m hclear.1) hclear.2

theorem held_fresh (vwc : Nat → Bool) : Held { base := .fresh vwc } :=
  .inl ⟨rfl, rfl, fun _ hl => absurd hl List.not_mem_nil, fun _ hu => absurd hu List.not_mem_nil,
    fun _ hn => absurd hn List.not_mem_nil, fun h => Bool.noConfusion h⟩

end Steps

/-! ### Handles -/

/-- However the calls wait and go on, as long as no open meets an expunge and fewer than 2^16
units are in use, whoever has a handle or waits in its close finds the device there, and its
unit has a controller with its unit task and its message port. -/
theorem handles_keep_device (vwc : Nat → Bool) (ms : List Moment)
    (hclear : StaysClear ms { base := .fresh vwc }) :
    let d := Device.run { base := .fresh vwc } ms
    ∀ n, n ∈ d.users → d.base.resident = true ∧ ∃ u l,
      d.base.units[n]? = some u ∧ d.base.controllers[u.ctrl]? = some l ∧
      l.world.ledger.held .unitTask = true ∧ l.world.ledger.held .msgPort = true := by
  intro d n hn
  rcases (held_fresh vwc).run hclear with ⟨hres, hk⟩ | ⟨-, hnone⟩
  · have hlt := hk.known n hn
    have hown := hk.owned _ (List.getElem_mem hlt)
    have hl := hk.settled _ (List.getElem_mem hown)
    have htask := hl.standing.rung.unitTask
    exact ⟨hres, _, _, List.getElem?_eq_getElem hlt, List.getElem?_eq_getElem hown,
      (hl.standing.ledger.held .unitTask).trans htask,
      (hl.standing.ledger.held .msgPort).trans htask⟩
  · exact absurd (hnone ▸ hn) List.not_mem_nil

instance (d : Device) (m : Moment) : Decidable (Clear d m) :=
  decidable_of_iff (d.users.length < 2 ^ 16 ∧ (d.waiting.any Call.isExpunge = true →
      m.opens = false ∧ d.waiting.length = 1))
    ⟨fun h => ⟨h.1, h.2⟩, fun h => ⟨h.few, h.apart⟩⟩

instance decidableStaysClear : ∀ (ms : List Moment) (d : Device), Decidable (StaysClear ms d)
  | [], _ => isTrue trivial
  | m :: ms, d =>
      have := decidableStaysClear ms (d.step m)
      inferInstanceAs (Decidable (Clear (d.step m) m ∧ StaysClear ms (d.step m)))

/-- One controller with one namespace is found and opened. -/
def opened : List Moment :=
  [.start (.openDevice true [(true, List.replicate 40 true)] 0 0), .goOn 0,
    .start (.allocNvmeunit 0), .goOn 0]

/-- The close waits for its flush; meanwhile the unit is opened again and an expunge
refused. -/
def reopened : List Moment :=
  opened ++ [.start (.closeDevice 0 true true), .start (.openDevice true [] 0 0),
    .start (.expunge true)]

theorem handles_keep_device_reopened :
    let d := Device.run { base := .fresh fun _ => true } reopened
    d.users = [0, 0] ∧ d.waiting.length = 1 ∧ d.base.resident = true ∧ ∃ u l,
      d.base.units[0]? = some u ∧ d.base.controllers[u.ctrl]? = some l ∧
      l.world.ledger.held .unitTask = true ∧ l.world.ledger.held .msgPort = true :=
  ⟨by decide, by decide, handles_keep_device (fun _ => true) reopened (by decide) 0 (by decide)⟩

/-- An open that meets an expunge gets a handle, and the device goes. -/
example :
    let d := Device.run { base := .fresh fun _ => true } (opened ++
      [.start (.closeDevice 0 true true), .goOn 0, .start (.expunge true),
        .start (.openDevice true [] 0 0), .goOn 0])
    d.base.handles = [0] ∧ d.base.resident = false := by
  decide

/-! ### What an expunge leaves -/

section Expunged

variable {d : Device}

/-- The moment at which the base goes is the end of an expunge. -/
theorem left_at_end (hres : d.base.resident = true) {m : Moment}
    (hgone : (d.step m).base.resident = false) :
    (d.step m).base.left = d.base.controllers.map Lifecycle.unprobe := by
  unfold Device.step Device.next at hgone ⊢
  rw [if_pos hres] at hgone ⊢
  cases m with
  | start e =>
      exact absurd (hgone.symm.trans ((start_fixed d e).1.trans hres)) Bool.false_ne_true
  | goOn k =>
      dsimp only at hgone ⊢
      cases hget : d.waiting[k]? with
      | none =>
          rw [hget] at hgone
          exact absurd (hgone.symm.trans hres) Bool.false_ne_true
      | some c =>
          rw [hget] at hgone
          cases hc : c.isExpunge with
          | false =>
              have hsame := goOn_resident hc { d with waiting := d.waiting.eraseIdx k }
              exact absurd (hgone.symm.trans (hsame.trans hres)) Bool.false_ne_true
          | true =>
              cases c with
              | unprobing => rfl
              | _ => cases hc

theorem run_of_all_gone (hgone : d.base.resident = false) (ms : List Moment) : d.run ms = d := by
  induction ms with
  | nil => rfl
  | cons m ms ih =>
      change (d.step m).run ms = d
      rw [step_of_gone hgone]
      exact ih

/-- A device that is gone was there up to some moment. -/
theorem gone_at (hres : d.base.resident = true) {ms : List Moment}
    (hgone : (d.run ms).base.resident = false) :
    ∃ ms₁ m ms₂, ms = ms₁ ++ m :: ms₂ ∧ (d.run ms₁).base.resident = true ∧
      (d.run ms).base.left = (d.run ms₁).base.controllers.map Lifecycle.unprobe := by
  induction ms generalizing d with
  | nil => exact absurd (hgone.symm.trans hres) Bool.false_ne_true
  | cons m ms ih =>
      cases hnext : (d.step m).base.resident with
      | true =>
          obtain ⟨ms₁, m', ms₂, rfl, hthere, hleft⟩ := ih hnext hgone
          exact ⟨m :: ms₁, m', ms₂, rfl, hthere, hleft⟩
      | false =>
          refine ⟨[], m, ms, rfl, hres, ?_⟩
          change ((d.step m).run ms).base.left = _
          rw [run_of_all_gone hnext]
          exact left_at_end hres hnext

theorem StaysClear.before {ms ms' : List Moment} (h : StaysClear (ms ++ ms') d) :
    StaysClear ms d := by
  induction ms generalizing d with
  | nil => trivial
  | cons m ms ih => exact ⟨h.1, ih h.2⟩

end Expunged

/-- Two controllers are found, and the device is opened, closed and expunged. -/
def expungedOnce : List Moment :=
  [.start (.openDevice true [(true, List.replicate 40 true), (true, List.replicate 40 true)] 0 0),
    .goOn 0, .start (.allocNvmeunit 1), .goOn 0, .start (.closeDevice 0 true true), .goOn 0,
    .start (.expunge true), .start (.allocNvmeunit 0), .goOn 0]

section AtOnce

variable {b : Base}

theorem run_append (ms ms' : List Moment) (d : Device) :
    d.run (ms ++ ms') = (d.run ms).run ms' := List.foldl_append ..

/-- The calls that wait, and nothing else, go on until nobody waits. -/
def GoesThrough (d : Device) (b : Base) : Prop := ∃ ms, d.run ms = { base := b }

theorem GoesThrough.at_once (b : Base) : GoesThrough { base := b } b := ⟨[], rfl⟩

theorem GoesThrough.step {d : Device} {m : Moment} (h : GoesThrough (d.step m) b) :
    GoesThrough d b := by
  obtain ⟨ms, hms⟩ := h
  exact ⟨m :: ms, hms⟩

/-- The only call that waits goes on. -/
theorem GoesThrough.goOn {b₁ : Base} {c : Call} (hres : b₁.resident = true)
    (h : GoesThrough (Residence.goOn c { base := b₁ }) b) :
    GoesThrough { base := b₁, waiting := [c] } b := by
  refine GoesThrough.step (m := .goOn 0) ?_
  rw [show Device.step { base := b₁, waiting := [c] } (.goOn 0) =
    Residence.goOn c { base := b₁ } from if_pos hres]
  exact h

theorem startExpunge_through (hres : b.resident = true) (removable : Bool) :
    GoesThrough (startExpunge removable { base := b }) (expungeLib removable b) := by
  unfold startExpunge expungeLib
  split
  · exact .at_once _
  split
  · exact .at_once _
  · exact .goOn hres (.at_once _)

theorem finishClose_through (hres : b.resident = true) (removable : Bool) {cnt : Nat}
    (hcnt : (b.libOpenCnt + (2 ^ 16 - 1)) % 2 ^ 16 = cnt) :
    GoesThrough (finishClose removable { base := b })
      (if cnt = 0 ∧ b.delExp = true then expungeLib removable { b with libOpenCnt := cnt }
      else { b with libOpenCnt := cnt }) := by
  unfold finishClose
  dsimp only
  rw [hcnt]
  split
  · exact startExpunge_through (b := { b with libOpenCnt := cnt }) hres removable
  · exact .at_once _

theorem startClose_through (hres : b.resident = true) (i : Nat) (port removable : Bool) :
    GoesThrough (startClose i port removable { base := b }) (closeLib i port removable b) := by
  unfold startClose closeLib
  dsimp only
  cases b.handles[i]? with
  | none => exact .at_once _
  | some n =>
      dsimp only
      generalize hcnt : (b.libOpenCnt + (2 ^ 16 - 1)) % 2 ^ 16 = cnt
      have hrest := finishClose_through (b := { b with
        units := b.units.modify n unitClose
        flushes := closeFlushes port n b
        handles := b.handles.eraseIdx i }) hres removable hcnt
      split
      · exact .goOn hres hrest
      · exact hrest

theorem startOpen_through (h : Present b) (hres : b.resident = true) (libs : Bool)
    (bus : List (Bool × List Bool)) (n flags : Nat) :
    GoesThrough (startOpen libs bus n flags { base := b }) (openLib libs bus n flags b) := by
  unfold startOpen
  dsimp only
  split
  · exact .at_once _
  · rename_i hready
    obtain ⟨hnot, hlibs⟩ := Bool.or_eq_false_iff.mp (eq_false_of_ne_true hready)
    have hprobe : openLib libs bus n flags b =
        openLib true [] n flags { b with controllers := nvmeProbeAll bus, probed := true } := by
      unfold openLib
      rw [show devEnsureProbed libs bus b =
        { b with controllers := nvmeProbeAll bus, probed := true } by
          unfold devEnsureProbed
          rw [hnot, if_neg Bool.false_ne_true, if_pos ((Bool.not_eq_false' _).mp hlibs)]]
      rfl
    rw [hprobe]
    refine .goOn hres (.goOn hres ?_)
    change GoesThrough { base := openLib true [] n flags { b with
      controllers := b.controllers ++ nvmeProbeAll bus, probed := true } } _
    rw [h.unprobed hnot]
    exact .at_once _

/-- A call of `Residence` is one that goes through before anything else happens. -/
theorem step_through (h : Consistent b) (e : Happening) :
    GoesThrough { base := b } (step b e) := by
  rcases h with ⟨hres, hp⟩ | hgone
  · refine GoesThrough.step (m := .start e) ?_
    rw [show Device.step { base := b } (.start e) = Device.start { base := b } e from
      if_pos hres, show step b e = happen b e from if_pos hres]
    cases e with
    | openDevice libs bus n flags => exact startOpen_through hp hres libs bus n flags
    | closeDevice i port removable => exact startClose_through hres i port removable
    | expunge removable => exact startExpunge_through hres removable
    | _ => exact .at_once _
  · rw [step_gone hgone]
    exact .at_once _

/-- Every run of `Residence` is one in which calls may wait, but none comes in meanwhile. -/
theorem run_through (vwc : Nat → Bool) (es : List Happening) :
    GoesThrough { base := .fresh vwc } (run es (.fresh vwc)) := by
  have hall : ∀ es b, Consistent b → GoesThrough { base := b } (run es b) := by
    intro es
    induction es with
    | nil => exact fun b _ => .at_once b
    | cons e es ih =>
        intro b h
        obtain ⟨ms, hms⟩ := step_through h e
        obtain ⟨ms', hms'⟩ := ih (step b e) (h.step e)
        exact ⟨ms ++ ms', by rw [run_append, hms]; exact hms'⟩
  exact hall es _ (consistent_fresh vwc)

end AtOnce

end Residence
end NvmeDriver
