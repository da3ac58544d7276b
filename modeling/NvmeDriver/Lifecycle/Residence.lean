import NvmeDriver.Lifecycle.Balance
import NvmeDriver.UnitFlags

/-!
# Opens and the expunge

The device base with all of its controllers: probed once on the first open, opened and
closed by clients, and expunged when nobody has it open (device.c, unit.c, nvme_probe.c).
An expunge that comes too early is made up for at the last close.  `lib_OpenCnt` and
`unit_OpenCnt` have sixteen bits.

The probe of the first open, the expunge and the flush of a last close wait for commands
and tasks, with the base still on the DeviceList.  Each is one step here: the runs below are
those in which every call goes through before the next one comes (`Waits` has the others).
-/

namespace NvmeDriver
namespace Residence

open Lifecycle (Life World Resource Settled Standing Orderly nvmeProbeController)

/-! ### Model -/

/-- `struct NVMeUnit`, as far as opens and closes go; `ctrl` counts the controllers. -/
structure UnitEntry where
  ctrl : Nat
  flags : Nat := 0
  openCnt : Nat := 0
  /-- on `base->units` -/
  linked : Bool := true

/-- `struct NVMeDevice`. -/
structure Base where
  probed : Bool := false
  controllers : List Life := []
  units : List UnitEntry := []
  libOpenCnt : Nat := 0
  /-- `LIBF_DELEXP` -/
  delExp : Bool := false
  /-- not yet expunged -/
  resident : Bool := true
  /-- the units of the handles that clients have -/
  handles : List Nat := []
  /-- what `nvme_unprobe_all` has made of the controllers -/
  left : List World := []
  /-- whether a controller has a volatile write cache -/
  vwc : Nat → Bool := fun _ => true
  /-- the units whose close handed over a flush, the last one first -/
  flushes : List Nat := []

def Base.fresh (vwc : Nat → Bool) : Base := { vwc := vwc }

/-- `nvme_probe_all`: for each controller on the bus whether `AllocMem` has room for it, and
the outcomes of its probe. -/
def nvmeProbeAll : List (Bool × List Bool) → List Life
  | [] => []
  | dev :: rest =>
      if !dev.1 then [] else
      let out := nvmeProbeController (World.start dev.2)
      if out.1 then ⟨out.2, .none⟩ :: nvmeProbeAll rest else nvmeProbeAll rest

/-- `devEnsureProbed`; `libs` is whether the libraries can be opened. -/
def devEnsureProbed (libs : Bool) (bus : List (Bool × List Bool)) (b : Base) : Base :=
  if b.probed then b
  else if libs then { b with controllers := nvmeProbeAll bus, probed := true }
  else b

/-- `UnitOpen`; `none` is an error. -/
def unitOpen (flags : Nat) (u : UnitEntry) : Option UnitEntry :=
  if u.flags &&& Units.nvmeUnitDead != 0 then none
  else some { u with flags := flags % 2 ^ 32, openCnt := (u.openCnt + 1) % 2 ^ 16 }

/-- `openLib`, in one step with the probe. -/
def openLib (libs : Bool) (bus : List (Bool × List Bool)) (n flags : Nat) (b : Base) : Base :=
  let b₁ := devEnsureProbed libs bus b
  match b₁.units[n]? with
  | none => b₁
  | some u =>
      if !(b₁.probed && u.linked) then b₁ else
      match unitOpen flags u with
      | none => b₁
      | some u₁ =>
          { b₁ with
            units := b₁.units.set n u₁
            libOpenCnt := (b₁.libOpenCnt + 1) % 2 ^ 16
            delExp := false
            handles := n :: b₁.handles }

/-- `expungeLib`, in one step with `nvme_unprobe_all`; `removable` is whether the reset guard
can be taken out. -/
def expungeLib (removable : Bool) (b : Base) : Base :=
  if 0 < b.libOpenCnt then { b with delExp := true }
  else if !removable then b
  else { b with resident := false, controllers := [], left := b.controllers.map Lifecycle.unprobe }

/-- `UnitClose`. -/
def unitClose (u : UnitEntry) : UnitEntry :=
  if 0 < u.openCnt then { u with openCnt := u.openCnt - 1 } else u

/-- `nvme_unit_close_flush`, whether it hands the unit task a CMD_UPDATE; `port` is whether it
gets a reply port. -/
def nvmeUnitCloseFlush (port : Bool) (u : UnitEntry) (b : Base) : Bool :=
  b.vwc u.ctrl && u.flags &&& Units.nvmeUnitDead == 0 &&
    (b.controllers[u.ctrl]?.map fun l => l.world.ctrl.unitTask) == some true && port

/-- The flush that the last close of a unit asks for. -/
def closeFlushes (port : Bool) (n : Nat) (b : Base) : List Nat :=
  match b.units[n]? with
  | none => b.flushes
  | some u =>
      if (unitClose u).openCnt = 0 ∧ nvmeUnitCloseFlush port (unitClose u) b = true then
        n :: b.flushes
      else b.flushes

/-- `closeLib`, of the `i`th handle. -/
def closeLib (i : Nat) (port removable : Bool) (b : Base) : Base :=
  match b.handles[i]? with
  | none => b
  | some n =>
      let b₁ : Base :=
        { b with
          units := b.units.modify n unitClose
          flushes := closeFlushes port n b
          libOpenCnt := (b.libOpenCnt + (2 ^ 16 - 1)) % 2 ^ 16
          handles := b.handles.eraseIdx i }
      if b₁.libOpenCnt = 0 ∧ b₁.delExp = true then expungeLib removable b₁ else b₁

/-- What happens to the device. -/
inductive Happening
  | openDevice (libs : Bool) (bus : List (Bool × List Bool)) (n flags : Nat)
  | closeDevice (i : Nat) (port removable : Bool)
  | expunge (removable : Bool)
  /-- an event of one of the controllers -/
  | controller (c : Nat) (e : Lifecycle.Event)
  /-- a scan of a controller finds a namespace, or misses one -/
  | allocNvmeunit (c : Nat)
  | nsRemove (n : Nat)

def happen (b : Base) : Happening → Base
  | .openDevice libs bus n flags => openLib libs bus n flags b
  | .closeDevice i port removable => closeLib i port removable b
  | .expunge removable => expungeLib removable b
  | .controller c e => { b with controllers := b.controllers.modify c (Lifecycle.step · e) }
  | .allocNvmeunit c =>
      if c < b.controllers.length then { b with units := b.units ++ [{ ctrl := c }] } else b
  | .nsRemove n =>
      { b with units := b.units.modify n fun u =>
          { u with flags := u.flags ||| Units.nvmeUnitDead, linked := false } }

/-- Nothing happens to a base that is gone. -/
def step (b : Base) (e : Happening) : Base := if b.resident then happen b e else b

def run (es : List Happening) (b : Base) : Base := es.foldl step b

/-! ### The invariant -/

/-- A base that is there: its controllers are up, and its open count is the number of
handles, modulo 2^16. -/
structure Present (b : Base) : Prop where
  counted : b.libOpenCnt = b.handles.length % 2 ^ 16
  settled : ∀ l, l ∈ b.controllers → Settled l
  owned : ∀ u, u ∈ b.units → u.ctrl < b.controllers.length
  known : ∀ n, n ∈ b.handles → n < b.units.length
  unprobed : b.probed = false → b.controllers = []

/-- Present or gone. -/
def Consistent (b : Base) : Prop := (b.resident = true ∧ Present b) ∨ b.resident = false

section Steps

variable {b : Base}

theorem settled_probeAll (bus : List (Bool × List Bool)) :
    ∀ l, l ∈ nvmeProbeAll bus → Settled l := by
  induction bus with
  | nil => exact fun _ hl => absurd hl List.not_mem_nil
  | cons dev rest ih =>
      unfold nvmeProbeAll
      split
      · exact fun _ hl => absurd hl List.not_mem_nil
      dsimp only
      split
      · rename_i hup
        intro l hl
        rcases List.mem_cons.mp hl with rfl | hl
        · exact Lifecycle.settled_probed hup
        · exact ih l hl
      · exact ih

theorem Present.devEnsureProbed (h : Present b) (libs : Bool) (bus : List (Bool × List Bool)) :
    Present (devEnsureProbed libs bus b) := by
  unfold Residence.devEnsureProbed
  split
  · exact h
  rename_i hnot
  split
  · have hnone := h.unprobed (eq_false_of_ne_true hnot)
    refine ⟨h.counted, settled_probeAll bus, fun u hu => ?_, h.known,
      fun hno => absurd hno.symm Bool.false_ne_true⟩
    have hown := h.owned u hu
    rw [hnone] at hown
    exact absurd hown (Nat.not_lt_zero _)
  · exact h

theorem devEnsureProbed_resident (libs : Bool) (bus : List (Bool × List Bool)) (b : Base) :
    (devEnsureProbed libs bus b).resident = b.resident := by
  unfold devEnsureProbed
  split
  · rfl
  · split <;> rfl

/-- Every unit keeps its controller. -/
theorem owned_set {us : List UnitEntry} {u : UnitEntry} {n k : Nat}
    (h : ∀ u, u ∈ us → u.ctrl < k) (hu : u.ctrl < k) : ∀ u', u' ∈ us.set n u → u'.ctrl < k := by
  intro u' hu'
  rcases List.mem_or_eq_of_mem_set hu' with hold | rfl
  · exact h u' hold
  · exact hu

/-- What holds of every entry still does when one of them changes and keeps it. -/
theorem forall_mem_modify {α : Type} {p : α → Prop} {f : α → α} {xs : List α} (i : Nat)
    (h : ∀ x, x ∈ xs → p x) (hf : ∀ x, p x → p (f x)) : ∀ x, x ∈ xs.modify i f → p x := by
  intro x hx
  obtain ⟨j, hj, rfl⟩ := List.mem_iff_getElem.mp hx
  have hj' : j < xs.length := (List.length_modify ..) ▸ hj
  have hold := h _ (List.getElem_mem hj')
  rw [List.getElem_modify]
  split
  · exact hf _ hold
  · exact hold

theorem unitOpen_ctrl {u u₁ : UnitEntry} {flags : Nat} (h : unitOpen flags u = some u₁) :
    u₁.ctrl = u.ctrl := by
  unfold unitOpen at h
  split at h
  · cases h
  · cases h
    rfl

theorem unitClose_ctrl (u : UnitEntry) : (unitClose u).ctrl = u.ctrl := by
  unfold unitClose
  split <;> rfl

/-- An open leaves the base as the probe has left it, or succeeds. -/
theorem openLib_cases (libs : Bool) (bus : List (Bool × List Bool)) (n flags : Nat) (b : Base) :
    openLib libs bus n flags b = devEnsureProbed libs bus b ∨
      ∃ u u₁, (devEnsureProbed libs bus b).units[n]? = some u ∧ unitOpen flags u = some u₁ ∧
        openLib libs bus n flags b =
          { devEnsureProbed libs bus b with
            units := (devEnsureProbed libs bus b).units.set n u₁
            libOpenCnt := ((devEnsureProbed libs bus b).libOpenCnt + 1) % 2 ^ 16
            delExp := false
            handles := n :: (devEnsureProbed libs bus b).handles } := by
  unfold openLib
  dsimp only
  generalize devEnsureProbed libs bus b = b₁
  cases hu : b₁.units[n]? with
  | none => exact .inl rfl
  | some u =>
      dsimp only
      split
      · exact .inl rfl
      cases ho : unitOpen flags u with
      | none => exact .inl rfl
      | some u₁ => exact .inr ⟨u, u₁, rfl, ho, rfl⟩

theorem Present.openLib (h : Present b) (libs : Bool) (bus : List (Bool × List Bool))
    (n flags : Nat) :
    Present (openLib libs bus n flags b) ∧
      (openLib libs bus n flags b).resident = b.resident := by
  have hp := h.devEnsureProbed libs bus
  have hres := devEnsureProbed_resident libs bus b
  rcases openLib_cases libs bus n flags b with heq | ⟨u, u₁, hu, ho, heq⟩
  · rw [heq]
    exact ⟨hp, hres⟩
  · rw [heq]
    generalize Residence.devEnsureProbed libs bus b = b₁ at *
    obtain ⟨hn, hget⟩ := List.getElem?_eq_some_iff.mp hu
    refine ⟨⟨?_, hp.settled, ?_, ?_, hp.unprobed⟩, hres⟩
    · change (b₁.libOpenCnt + 1) % 2 ^ 16 = (b₁.handles.length + 1) % 2 ^ 16
      have hcnt := hp.counted
      omega
    · refine owned_set hp.owned ?_
      rw [unitOpen_ctrl ho, ← hget]
      exact hp.owned _ (List.getElem_mem hn)
    · intro m hm
      change m < (b₁.units.set n u₁).length
      rw [List.length_set]
      rcases List.mem_cons.mp hm with rfl | hm
      · exact hn
      · exact hp.known m hm

theorem Present.expungeLib (h : Present b) (hres : b.resident = true) (removable : Bool) :
    Consistent (expungeLib removable b) := by
  unfold Residence.expungeLib
  split
  · exact .inl ⟨hres, h.counted, h.settled, h.owned, h.known, h.unprobed⟩
  split
  · exact .inl ⟨hres, h⟩
  · exact .inr rfl

theorem Present.closeLib (h : Present b) (hres : b.resident = true) (i : Nat)
    (port removable : Bool) : Consistent (closeLib i port removable b) := by
  unfold Residence.closeLib
  cases hi : b.handles[i]? with
  | none => exact .inl ⟨hres, h⟩
  | some n =>
      obtain ⟨hlt, -⟩ := List.getElem?_eq_some_iff.mp hi
      have hclosed : Present { b with
          units := b.units.modify n unitClose
          flushes := closeFlushes port n b
          libOpenCnt := (b.libOpenCnt + (2 ^ 16 - 1)) % 2 ^ 16
          handles := b.handles.eraseIdx i } := by
        refine ⟨?_, h.settled, forall_mem_modify n h.owned fun u hu => ?_, fun m hm => ?_,
          h.unprobed⟩
        · have hcnt := h.counted
          change (b.libOpenCnt + (2 ^ 16 - 1)) % 2 ^ 16 = (b.handles.eraseIdx i).length % 2 ^ 16
          rw [List.length_eraseIdx_of_lt hlt]
          omega
        · rw [unitClose_ctrl]
          exact hu
        · change m < (b.units.modify n unitClose).length
          rw [List.length_modify]
          exact h.known m (List.mem_of_mem_eraseIdx hm)
      dsimp only
      split
      · exact hclosed.expungeLib hres removable
      · exact .inl ⟨hres, hclosed⟩

theorem Present.happen (h : Present b) (hres : b.resident = true) (e : Happening) :
    Consistent (happen b e) := by
  cases e with
  | openDevice libs bus n flags =>
      obtain ⟨hp, hsame⟩ := h.openLib libs bus n flags
      exact .inl ⟨hsame.trans hres, hp⟩
  | closeDevice i port removable => exact h.closeLib hres i port removable
  | expunge removable => exact h.expungeLib hres removable
  | controller c e =>
      refine .inl ⟨hres, h.counted, forall_mem_modify c h.settled fun l hl => hl.step e,
        fun u hu => ?_, h.known, fun hno => ?_⟩
      · change u.ctrl < (b.controllers.modify c (Lifecycle.step · e)).length
        rw [List.length_modify]
        exact h.owned u hu
      · change b.controllers.modify c (Lifecycle.step · e) = []
        rw [h.unprobed hno, List.modify_nil]
  | allocNvmeunit c =>
      unfold Residence.happen
      dsimp only
      split
      · rename_i hc
        refine .inl ⟨hres, h.counted, h.settled, fun u hu => ?_, fun n hn => ?_, h.unprobed⟩
        · rcases List.mem_append.mp hu with hu | hu
          · exact h.owned u hu
          · rw [List.mem_singleton.mp hu]
            exact hc
        · change n < (b.units ++ [_]).length
          rw [List.length_append]
          exact Nat.lt_add_right _ (h.known n hn)
      · exact .inl ⟨hres, h⟩
  | nsRemove n =>
      refine .inl ⟨hres, h.counted, h.settled, forall_mem_modify n h.owned fun _ hu => hu,
        fun m hm => ?_, h.unprobed⟩
      change m < (b.units.modify n _).length
      rw [List.length_modify]
      exact h.known m hm

theorem step_gone (hgone : b.resident = false) (e : Happening) : step b e = b :=
  if_neg (by rw [hgone]; exact Bool.false_ne_true)

theorem run_of_gone (es : List Happening) (hgone : b.resident = false) : run es b = b := by
  induction es with
  | nil => rfl
  | cons e es ih =>
      change run es (step b e) = b
      rw [step_gone hgone]
      exact ih

theorem Consistent.step (h : Consistent b) (e : Happening) : Consistent (step b e) := by
  rcases h with ⟨hres, hp⟩ | hgone
  · rw [show Residence.step b e = happen b e from if_pos hres]
    exact hp.happen hres e
  · rw [step_gone hgone]
    exact .inr hgone

theorem Consistent.run (h : Consistent b) (es : List Happening) : Consistent (run es b) := by
  induction es generalizing b with
  | nil => exact h
  | cons e es ih => exact ih (h.step e)

theorem consistent_fresh (vwc : Nat → Bool) : Consistent (.fresh vwc) :=
  .inl ⟨rfl, rfl, fun _ hl => absurd hl List.not_mem_nil, fun _ hu => absurd hu List.not_mem_nil,
    fun _ hn => absurd hn List.not_mem_nil, fun _ => rfl⟩

end Steps

/-! ### A refused expunge -/

/-- Whether the reset guard can be taken out when a close needs it. -/
def Happening.removable : Happening → Bool
  | .closeDevice _ _ removable => removable
  | _ => true

/-- No open succeeds. -/
def Declines : List Happening → Base → Prop
  | [], _ => True
  | e :: es, b => (step b e).handles.length ≤ b.handles.length ∧ Declines es (step b e)

/-- An expunge was refused, and since then nobody has opened the device. -/
structure Owing (b : Base) : Prop extends Present b where
  resident : b.resident = true
  delExp : b.delExp = true
  held : 0 < b.handles.length
  few : b.handles.length < 2 ^ 16

section Refused

variable {b : Base}

theorem Owing.libOpenCnt (h : Owing b) : b.libOpenCnt = b.handles.length := by
  have hcnt := h.counted
  have hfew := h.few
  omega

theorem Owing.openLib (h : Owing b) {libs : Bool} {bus : List (Bool × List Bool)} {n flags : Nat}
    (hle : (openLib libs bus n flags b).handles.length ≤ b.handles.length) :
    Owing (openLib libs bus n flags b) := by
  obtain ⟨hp, hres⟩ := h.toPresent.openLib libs bus n flags
  have hprobe : (devEnsureProbed libs bus b).delExp = b.delExp ∧
      (devEnsureProbed libs bus b).handles = b.handles := by
    unfold devEnsureProbed
    split
    · exact ⟨rfl, rfl⟩
    · split <;> exact ⟨rfl, rfl⟩
  rcases openLib_cases libs bus n flags b with heq | ⟨u, u₁, -, -, heq⟩
  · refine ⟨hp, hres.trans h.resident, ?_, ?_, ?_⟩
    · rw [heq, hprobe.1]
      exact h.delExp
    · rw [heq, hprobe.2]
      exact h.held
    · rw [heq, hprobe.2]
      exact h.few
  · -- the open would have succeeded
    rw [heq] at hle
    have hmore : (devEnsureProbed libs bus b).handles.length + 1 ≤ b.handles.length := hle
    rw [hprobe.2] at hmore
    exact absurd hmore (Nat.not_succ_le_self _)

theorem Owing.closeLib (h : Owing b) (i : Nat) (port : Bool) :
    (closeLib i port true b).resident = false ∨ Owing (closeLib i port true b) := by
  have hkeep := h.toPresent.closeLib h.resident i port true
  have hcnt := h.libOpenCnt
  have hheld := h.held
  have hfew := h.few
  unfold Residence.closeLib at hkeep ⊢
  cases hi : b.handles[i]? with
  | none => exact .inr h
  | some n =>
      obtain ⟨hlt, -⟩ := List.getElem?_eq_some_iff.mp hi
      have hless := List.length_eraseIdx_of_lt hlt
      rw [hi] at hkeep
      dsimp only at hkeep ⊢
      by_cases hlast : b.handles.length = 1
      · -- the last handle
        have hzero : (b.libOpenCnt + (2 ^ 16 - 1)) % 2 ^ 16 = 0 := by omega
        rw [if_pos ⟨hzero, h.delExp⟩]
        unfold Residence.expungeLib
        rw [if_neg (by change ¬0 < (b.libOpenCnt + (2 ^ 16 - 1)) % 2 ^ 16; omega)]
        exact .inl rfl
      · have hmore : (b.libOpenCnt + (2 ^ 16 - 1)) % 2 ^ 16 ≠ 0 := by omega
        rw [if_neg fun hno => hmore hno.1] at hkeep ⊢
        rcases hkeep with ⟨-, hp⟩ | hgone
        · refine .inr ⟨hp, h.resident, h.delExp, ?_, ?_⟩
          · change 0 < (b.handles.eraseIdx i).length
            omega
          · change (b.handles.eraseIdx i).length < 2 ^ 16
            omega
        · exact absurd (hgone.symm.trans h.resident) Bool.false_ne_true

theorem Owing.step (h : Owing b) {e : Happening}
    (hle : (step b e).handles.length ≤ b.handles.length) (hguard : e.removable = true) :
    (step b e).resident = false ∨ Owing (step b e) := by
  unfold Residence.step at hle ⊢
  rw [if_pos h.resident] at hle ⊢
  have hp := h.toPresent.happen h.resident e
  have hother : (happen b e).resident = b.resident → (happen b e).delExp = true →
      (happen b e).handles = b.handles →
      (happen b e).resident = false ∨ Owing (happen b e) := by
    intro hres hdel hhandles
    rcases hp with ⟨hthere, hp⟩ | hgone
    · refine .inr ⟨hp, hthere, hdel, ?_, ?_⟩
      · rw [hhandles]
        exact h.held
      · rw [hhandles]
        exact h.few
    · exact .inl hgone
  cases e with
  | openDevice libs bus n flags => exact .inr (h.openLib hle)
  | closeDevice i port removable =>
      cases hguard
      exact h.closeLib i port
  | expunge removable =>
      have hpos : 0 < b.libOpenCnt := by
        rw [h.libOpenCnt]
        exact h.held
      have hrefused : happen b (.expunge removable) = { b with delExp := true } := if_pos hpos
      exact hother (by rw [hrefused]) (by rw [hrefused]) (by rw [hrefused])
  | controller c e => exact hother rfl h.delExp rfl
  | allocNvmeunit c =>
      refine hother ?_ ?_ ?_ <;> unfold happen <;> dsimp only <;> split
      · rfl
      · rfl
      · exact h.delExp
      · exact h.delExp
      · rfl
      · rfl
  | nsRemove n => exact hother rfl h.delExp rfl

theorem Owing.run (h : Owing b) {es : List Happening} (hno : Declines es b)
    (hguard : ∀ e, e ∈ es → e.removable = true) :
    (run es b).resident = false ∨ Owing (run es b) := by
  induction es generalizing b with
  | nil => exact .inr h
  | cons e es ih =>
      obtain ⟨hle, hrest⟩ := hno
      rcases h.step hle (hguard e (List.mem_cons_self ..)) with hgone | hnext
      · exact .inl ((congrArg Base.resident (run_of_gone es hgone)).trans hgone)
      · exact ih hnext hrest fun e' he' => hguard e' (List.mem_cons_of_mem _ he')

end Refused

/-- An expunge that comes while clients have the device open is made up for at the last
close, unless somebody opens it again. -/
theorem expunge_made_up (vwc : Nat → Bool) (es es' : List Happening) (removable : Bool)
    (hthere : (run es (.fresh vwc)).resident = true)
    (hopen : 0 < (run es (.fresh vwc)).handles.length)
    (hfew : (run es (.fresh vwc)).handles.length < 2 ^ 16)
    (hno : Declines es' (step (run es (.fresh vwc)) (.expunge removable)))
    (hguard : ∀ e, e ∈ es' → e.removable = true)
    (hclosed : (run es' (step (run es (.fresh vwc)) (.expunge removable))).handles = []) :
    (run es' (step (run es (.fresh vwc)) (.expunge removable))).resident = false := by
  rcases (consistent_fresh vwc).run es with ⟨-, hp⟩ | hgone
  · have hcnt := hp.counted
    have hpos : 0 < (run es (.fresh vwc)).libOpenCnt := by omega
    have hrefused : step (run es (.fresh vwc)) (.expunge removable) =
        { run es (.fresh vwc) with delExp := true } :=
      (if_pos hthere).trans (if_pos hpos)
    rw [hrefused] at hno hclosed ⊢
    have howing : Owing { run es (.fresh vwc) with delExp := true } :=
      ⟨⟨hp.counted, hp.settled, hp.owned, hp.known, hp.unprobed⟩, hthere, rfl, hopen,
        hfew⟩
    rcases howing.run hno hguard with hgone | hstill
    · exact hgone
    · have hheld := hstill.held
      rw [hclosed] at hheld
      exact absurd hheld (Nat.lt_irrefl 0)
  · exact absurd (hgone.symm.trans hthere) Bool.false_ne_true

/-- One controller with one namespace, opened once. -/
def openedOnce : List Happening :=
  [.openDevice true [(true, List.replicate 40 true)] 0 0, .allocNvmeunit 0,
    .openDevice true [] 0 0]

theorem expunge_made_up_once :
    (run [.closeDevice 0 true true]
      (step (run openedOnce (.fresh fun _ => true)) (.expunge true))).resident = false :=
  expunge_made_up (fun _ => true) openedOnce [.closeDevice 0 true true] true (by decide)
    (by decide) (by decide) ⟨by decide, trivial⟩ (by decide) (by decide)

end Residence
end NvmeDriver
