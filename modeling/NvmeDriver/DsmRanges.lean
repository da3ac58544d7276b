import NvmeDriver.Lib.ByteMemory
import NvmeDriver.Runs.Rejected
import NvmeDriver.Runs.Transfers

/-!
# Range lists

`scsi_unmap` and `NSCMD_NVME_TRIM` down to the bytes: the offsets of the caller's buffer
they read, and the page of `struct nvme_dsm_range` they fill, as the controller reads it.
The functions here run those of the dispatcher, which keeps the decoded list in the command
in place of the page.
-/

namespace NvmeDriver
namespace Dsm

open Engine
open Lib
open Ownership
open Refine
open Runs
open Namespace (NVMeUnit lbaOutOfRange)
open Scsi (ScsiCmd scsiMakeSense)

/-! ### The range page -/

section Page

/-- `struct nvme_dsm_range`, as the controller reads it. -/
structure RangeEntry where
  cattr : Nat
  nlb : Nat
  slba : Nat
deriving DecidableEq, Repr

/-- The entry at an index of the range page. -/
def entryAt (page : Page) (i : Nat) : RangeEntry :=
  { cattr := page.decode (16 * i) 4
    nlb := page.decode (16 * i + 4) 4
    slba := page.decode (16 * i + 8) 8 }

/-- `ranges[i] = { le32(0), le32(blocks), le64(slba) }`. -/
def putRange (page : Page) (i : Nat) (r : DsmRange) : Page :=
  let cattr := page.store (16 * i) 4 (Page.swap 4 0)
  let nlb := cattr.store (16 * i + 4) 4 (Page.swap 4 r.nlb)
  nlb.store (16 * i + 8) 8 (Page.swap 8 r.slba)

/-- The entry of a range. -/
def entryOf (r : DsmRange) : RangeEntry := { cattr := 0, nlb := r.nlb, slba := r.slba }

/-- The range of an entry. -/
def rangeAt (page : Page) (i : Nat) : DsmRange :=
  { slba := (entryAt page i).slba, nlb := (entryAt page i).nlb }

/-- A range that fits its fields. -/
def Fits (r : DsmRange) : Prop := r.nlb < 2 ^ 32 ∧ r.slba < 2 ^ 64

theorem entryAt_putRange_self (page : Page) (i : Nat) {r : DsmRange} (hr : Fits r) :
    entryAt (putRange page i r) i = entryOf r := by
  obtain ⟨hnlb, hslba⟩ := hr
  have hc : (putRange page i r).decode (16 * i) 4 = 0 := by
    unfold putRange
    rw [Page.decode_store_other _ _ (.inl (by omega)),
      Page.decode_store_other _ _ (.inl (by omega)), Page.decode_store_swap, Nat.zero_mod]
  have hn : (putRange page i r).decode (16 * i + 4) 4 = r.nlb := by
    unfold putRange
    rw [Page.decode_store_other _ _ (.inl (by omega)), Page.decode_store_swap]
    exact Nat.mod_eq_of_lt hnlb
  have hs : (putRange page i r).decode (16 * i + 8) 8 = r.slba := by
    unfold putRange
    rw [Page.decode_store_swap]
    exact Nat.mod_eq_of_lt hslba
  unfold entryAt entryOf
  rw [hc, hn, hs]

theorem entryAt_putRange_other (page : Page) {i j : Nat} (r : DsmRange) (hne : j ≠ i) :
    entryAt (putRange page i r) j = entryAt page j := by
  have hkeep : ∀ pos n, 16 * j ≤ pos → pos + n ≤ 16 * j + 16 →
      (putRange page i r).decode pos n = page.decode pos n := by
    intro pos n hlo hhi
    unfold putRange
    rw [Page.decode_store_other _ _ (by omega), Page.decode_store_other _ _ (by omega),
      Page.decode_store_other _ _ (by omega)]
  unfold entryAt
  rw [hkeep _ _ (by omega) (by omega), hkeep _ _ (by omega) (by omega),
    hkeep _ _ (by omega) (by omega)]

theorem entryAt_zero (i : Nat) : entryAt Page.zero i = ⟨0, 0, 0⟩ := by
  unfold entryAt
  rw [Page.decode_zero, Page.decode_zero, Page.decode_zero]

end Page

/-! ### The loops -/

section Loops

/-- The value of some bytes of the caller, big-endian. -/
def beValue (bytes : List UInt8) (pos n : Nat) : Nat :=
  Scsi.loadBe (bytes.map UInt8.toNat) pos n

/-- The loop that checks and stores the ranges one after the other, from index `i` on. -/
def fillRanges (fetch : Nat → Traced DsmRange) (ok : DsmRange → Bool) :
    Nat → Nat → Page → Traced (Option Page)
  | 0, _, page => pure (some page)
  | n + 1, i, page => do
      let r ← fetch i
      if ok r then fillRanges fetch ok n (i + 1) (putRange page i r) else pure none

/-- The block descriptor at an index of an UNMAP parameter list. -/
def unmapFetch (param : List UInt8) (i : Nat) : Traced DsmRange := do
  let slba ← Traced.load (beValue param) (8 + 16 * i) 8
  let blocks ← Traced.load (beValue param) (8 + 16 * i + 8) 4
  pure ⟨slba, blocks⟩

/-- `tr[i]` of a TRIM: `ntr_SectorHi`, `ntr_SectorLo`, `ntr_Count`. -/
def trimFetch (bytes : List UInt8) (i : Nat) : Traced DsmRange := do
  let hi ← Traced.load (beValue bytes) (trimRangeBytes * i) 4
  let lo ← Traced.load (beValue bytes) (trimRangeBytes * i + 4) 4
  let blocks ← Traced.load (beValue bytes) (trimRangeBytes * i + 8) 4
  pure ⟨hi * 2 ^ 32 + lo, blocks⟩

variable {fetch : Nat → Traced DsmRange} {ok : DsmRange → Bool}

theorem beValue_lt (bytes : List UInt8) (pos n : Nat) : beValue bytes pos n < 256 ^ n := by
  unfold beValue
  induction n generalizing pos with
  | zero => exact Nat.one_pos
  | succ n ih =>
      have hbyte : (bytes.map UInt8.toNat).getD pos 0 ≤ 255 := by
        rw [List.getD_eq_getElem?_getD, List.getElem?_map]
        cases bytes[pos]? with
        | none => exact Nat.zero_le _
        | some b =>
            have := b.toNat_lt
            simp only [Option.map_some, Option.getD_some]
            omega
      have hhead := Nat.mul_le_mul_right (256 ^ n) hbyte
      have hrest := ih (pos + 1)
      rw [Scsi.loadBe, pow_succ]
      omega

theorem unmapFetch_fits (param : List UInt8) (i : Nat) : Fits (unmapFetch param i).value :=
  ⟨beValue_lt param _ 4, beValue_lt param _ 8⟩

theorem trimFetch_fits (bytes : List UInt8) (i : Nat) : Fits (trimFetch bytes i).value := by
  refine ⟨beValue_lt bytes _ 4, ?_⟩
  have hhi : beValue bytes (trimRangeBytes * i) 4 < 2 ^ 32 := beValue_lt bytes _ 4
  have hlo : beValue bytes (trimRangeBytes * i + 4) 4 < 2 ^ 32 := beValue_lt bytes _ 4
  change beValue bytes (trimRangeBytes * i) 4 * 2 ^ 32 +
    beValue bytes (trimRangeBytes * i + 4) 4 < 2 ^ 64
  omega

theorem unmapFetch_within (param : List UInt8) {i len : Nat} (h : 8 + 16 * i + 12 ≤ len) :
    (unmapFetch param i).Within len := by
  refine Traced.within_bind (Traced.within_load (by omega)) ?_
  exact Traced.within_bind (Traced.within_load (by omega)) (Traced.within_pure _ _)

theorem trimFetch_within (bytes : List UInt8) {i len : Nat}
    (h : trimRangeBytes * (i + 1) ≤ len) : (trimFetch bytes i).Within len := by
  have hnext : trimRangeBytes * i + 12 ≤ len := h
  refine Traced.within_bind (Traced.within_load (by omega)) ?_
  refine Traced.within_bind (Traced.within_load (by omega)) ?_
  exact Traced.within_bind (Traced.within_load (by omega)) (Traced.within_pure _ _)

theorem fillRanges_within {len : Nat} (n : Nat) :
    ∀ (i : Nat) (page : Page), (∀ j, j < i + n → (fetch j).Within len) →
      (fillRanges fetch ok n i page).Within len := by
  induction n with
  | zero =>
      intro i page _
      exact Traced.within_pure _ _
  | succ n ih =>
      intro i page hfetch
      refine Traced.within_bind (hfetch i (by omega)) ?_
      split
      · refine ih _ _ ?_
        intro j hj
        exact hfetch j (by omega)
      · exact Traced.within_pure _ _

/-- A loop that runs to its end has accepted every range and stored it, and has touched
nothing else. -/
theorem fillRanges_some (hfits : ∀ j, Fits (fetch j).value) (n : Nat) :
    ∀ (i : Nat) (page : Page) {page' : Page},
      (fillRanges fetch ok n i page).value = some page' →
      (∀ j, i ≤ j → j < i + n →
        ok (fetch j).value = true ∧ entryAt page' j = entryOf (fetch j).value) ∧
      ∀ j, j < i ∨ i + n ≤ j → entryAt page' j = entryAt page j := by
  induction n with
  | zero =>
      intro i page page' h
      cases h
      exact ⟨fun j hlo hhi => absurd hhi (by omega), fun _ _ => rfl⟩
  | succ n ih =>
      intro i page page' h
      rw [fillRanges, Traced.value_bind] at h
      split at h
      · rename_i hok
        obtain ⟨hin, hout⟩ := ih _ _ h
        constructor
        · intro j hlo hhi
          rcases Nat.eq_or_lt_of_le hlo with rfl | hlt
          · refine ⟨hok, ?_⟩
            rw [hout _ (.inl (Nat.lt_succ_self _)), entryAt_putRange_self _ _ (hfits _)]
          · exact hin j hlt (by omega)
        · intro j hj
          rw [hout j (by omega), entryAt_putRange_other _ _ (by omega)]
      · cases h

/-- A loop that stops early has found a range it refuses. -/
theorem fillRanges_none (n : Nat) :
    ∀ (i : Nat) (page : Page), (fillRanges fetch ok n i page).value = none →
      ∃ j, i ≤ j ∧ j < i + n ∧ ok (fetch j).value = false := by
  induction n with
  | zero =>
      intro i page h
      cases h
  | succ n ih =>
      intro i page h
      rw [fillRanges, Traced.value_bind] at h
      split at h
      · obtain ⟨j, hlo, hhi, hok⟩ := ih _ _ h
        exact ⟨j, by omega, by omega, hok⟩
      · rename_i hok
        exact ⟨i, Nat.le_refl i, by omega, by simpa using hok⟩

end Loops

/-! ### Both commands -/

section Commands

/-- What happens to the range buffer: where it is, and what it holds when it is handed to
`nvme_io_submit_dsm`. -/
structure Buffer where
  address : Option Nat
  page : Option Page

/-- The list the first `nr` entries of a page stand for. -/
def rangesOf (page : Page) (nr : Nat) : List DsmRange := (List.range nr).map (rangeAt page)

/-- `scsi_unmap`, with the bytes at `scsi_Data`. -/
def scsiUnmapBytes (env : Env) (s : State) (u io : Nat) (cmd : ScsiCmd) (param : List UInt8) :
    Traced ((State × Int × ScsiCmd) × Buffer) :=
  let unit := env.units u
  let fail := fun (s : State) (e : Int) => (s, e, scsiMakeSense cmd 0 0 e)
  if !env.cfg.oncsDsm then pure (fail s ioerrNoCmd, ⟨none, none⟩)
  else if cmd.length = 0 ∨ cmd.data = 0 then
    pure ((s, 0, { cmd with actual := 0 }), ⟨none, none⟩)
  else if cmd.length < 8 then pure (fail s ioerrBadLength, ⟨none, none⟩)
  else do
    let blockDescLen ← Traced.load (beValue param) 2 2
    let nrRanges := blockDescLen / 16
    if nrRanges = 0 then pure ((s, 0, { cmd with actual := 0 }), ⟨none, none⟩)
    else if nvmeDsmMaxRanges < nrRanges then pure (fail s ioerrNoCmd, ⟨none, none⟩)
    else if cmd.length < 8 + blockDescLen then pure (fail s ioerrBadLength, ⟨none, none⟩)
    else
      match s.allocate env with
      | (none, s₁) => pure (fail s₁ ioerrSelfTest, ⟨none, none⟩)
      | (some buffer, s₁) => do
          let filled ← fillRanges (unmapFetch param)
            (fun r => !lbaOutOfRange unit r.slba r.nlb) nrRanges 0 Page.zero
          match filled with
          | none =>
              pure (fail (s₁.log (.dmaFreeOther buffer)) ioerrBadAddress, ⟨some buffer, none⟩)
          | some page =>
              match nvmeIoSubmitDsm env s₁ u io buffer (rangesOf page nrRanges) nrRanges with
              | (s₂, err) =>
                  if err ≠ nvmeIoAsync then pure (fail s₂ err, ⟨some buffer, some page⟩)
                  else
                    pure ((s₂, nvmeIoAsync, { cmd with cmdActual := cmd.cmdLength, status := 0 }),
                      ⟨some buffer, some page⟩)

/-- `NSCMD_NVME_TRIM`, with the bytes at `io_Data`. -/
def processTrimBytes (env : Env) (s : State) (io : Nat) (r : IoRequest) (bytes : List UInt8) :
    Traced ((State × Int) × Buffer) :=
  let unit := env.units r.unit
  let nr := if r.ioData = 0 then 0 else r.ioLength / trimRangeBytes
  if nr = 0 ∨ nvmeDsmMaxRanges < nr then pure ((s, ioerrBadLength), ⟨none, none⟩)
  else
    match s.allocate env with
    | (none, s₁) => pure ((s₁, ioerrSelfTest), ⟨none, none⟩)
    | (some buffer, s₁) => do
        let filled ← fillRanges (trimFetch bytes) (trimRangeOk unit) nr 0 Page.zero
        match filled with
        | none =>
            pure ((s₁.log (.dmaFreeOther buffer), ioerrBadAddress), ⟨some buffer, none⟩)
        | some page =>
            pure (nvmeIoSubmitDsm env s₁ r.unit io buffer (rangesOf page nr) nr,
              ⟨some buffer, some page⟩)

/-- The `SCSICmd` with these bytes at `scsi_Data`. -/
def withParam (cmd : ScsiCmd) (param : List UInt8) : ScsiCmd :=
  { cmd with payload := param.map UInt8.toNat }

/-- The `NVMeTrimRange` array in the first `io_Length` bytes at `io_Data`. -/
def withTrim (r : IoRequest) (bytes : List UInt8) : IoRequest :=
  { r with
    trim := (List.range (r.ioLength / trimRangeBytes)).map (fun i => (trimFetch bytes i).value) }

end Commands

/-! ### The bytes and the decoded lists -/

section Links

variable {env : Env} {s : State}

/-- The page of a loop that ran to its end stands for the ranges it was given. -/
theorem rangesOf_filled {fetch : Nat → Traced DsmRange} {ok : DsmRange → Bool}
    (hfits : ∀ j, Fits (fetch j).value) {n : Nat} {page : Page}
    (h : (fillRanges fetch ok n 0 Page.zero).value = some page) :
    rangesOf page n = (List.range n).map (fun i => (fetch i).value) := by
  obtain ⟨hin, -⟩ := fillRanges_some hfits n 0 Page.zero h
  refine List.map_congr_left ?_
  intro i hi
  have hentry := (hin i (Nat.zero_le i) (by simpa using hi)).2
  unfold rangeAt
  rw [hentry]
  rfl

theorem unmapRanges_succ (unit : NVMeUnit) (param : List UInt8) (n i : Nat) :
    unmapRanges unit (param.map UInt8.toNat) (n + 1) (8 + 16 * i) =
      if lbaOutOfRange unit (unmapFetch param i).value.slba (unmapFetch param i).value.nlb then none
      else (unmapRanges unit (param.map UInt8.toNat) n (8 + 16 * (i + 1))).map
        (fun l => (unmapFetch param i).value :: l) := by
  have hpos : 8 + 16 * (i + 1) = 8 + 16 * i + 16 := by omega
  rw [hpos]
  rfl

theorem unmapRanges_eq (unit : NVMeUnit) (param : List UInt8) (n : Nat) :
    ∀ (i : Nat) (page : Page),
      unmapRanges unit (param.map UInt8.toNat) n (8 + 16 * i) =
        (fillRanges (unmapFetch param) (fun r => !lbaOutOfRange unit r.slba r.nlb) n i
          page).value.map
            (fun _ => (List.range' i n).map (fun j => (unmapFetch param j).value)) := by
  induction n with
  | zero =>
      intro i page
      rfl
  | succ n ih =>
      intro i page
      rw [fillRanges, Traced.value_bind, unmapRanges_succ]
      cases hrange : lbaOutOfRange unit (unmapFetch param i).value.slba
          (unmapFetch param i).value.nlb with
      | true => rfl
      | false =>
          rw [ih (i + 1) (putRange page i (unmapFetch param i).value)]
          simp only [Bool.false_eq_true, if_false, Bool.not_false, if_true, Option.map_map]
          rfl

/-- On the bytes of a parameter list, `scsi_unmap` does what the dispatcher does. -/
theorem scsiUnmapBytes_eq (u io : Nat) (cmd : ScsiCmd) (param : List UInt8) :
    (scsiUnmapBytes env s u io (withParam cmd param) param).value.1 =
      scsiUnmap env s u io (withParam cmd param) := by
  have hlen : beValue param 2 2 = Scsi.loadBe (withParam cmd param).payload 2 2 := rfl
  have hranges : unmapRanges (env.units u) (withParam cmd param).payload
      (beValue param 2 2 / 16) 8 = _ :=
    unmapRanges_eq (env.units u) param (beValue param 2 2 / 16) 0 Page.zero
  unfold scsiUnmapBytes scsiUnmap
  rw [← hlen]
  dsimp only
  split
  · rfl
  · split
    · rfl
    · split
      · rfl
      · rw [Traced.value_bind, Traced.value_load]
        split
        · rfl
        · split
          · rfl
          · split
            · rfl
            · obtain ⟨_ | buffer, s₁⟩ := s.allocate env
              · rfl
              · dsimp only
                rw [hranges, Traced.value_bind]
                cases hfill : (fillRanges (unmapFetch param)
                    (fun r => !lbaOutOfRange (env.units u) r.slba r.nlb)
                    (beValue param 2 2 / 16) 0 Page.zero).value with
                | none => rfl
                | some page =>
                    dsimp only [Option.map_some]
                    rw [rangesOf_filled (unmapFetch_fits param) hfill,
                      ← List.range_eq_range']
                    split <;> rfl

theorem trimRanges_eq (r : IoRequest) (bytes : List UInt8) :
    (List.range (r.ioLength / trimRangeBytes)).map
        (fun i => (withTrim r bytes).trim.getD i ⟨0, 0⟩) =
      (List.range (r.ioLength / trimRangeBytes)).map (fun i => (trimFetch bytes i).value) := by
  refine List.map_congr_left ?_
  intro i hi
  unfold withTrim
  rw [List.getD_eq_getElem?_getD, List.getElem?_map, List.getElem?_range (by simpa using hi)]
  rfl

/-- The loop runs to its end exactly when every range is accepted. -/
theorem fillRanges_isSome {fetch : Nat → Traced DsmRange} (ok : DsmRange → Bool)
    (hfits : ∀ j, Fits (fetch j).value) (n : Nat) :
    (fillRanges fetch ok n 0 Page.zero).value.isSome =
      ((List.range n).map (fun i => (fetch i).value)).all ok := by
  rw [Bool.eq_iff_iff, List.all_eq_true]
  constructor
  · intro h
    obtain ⟨page, hpage⟩ := Option.isSome_iff_exists.mp h
    intro r hr
    obtain ⟨i, hi, rfl⟩ := List.mem_map.mp hr
    exact ((fillRanges_some hfits n 0 Page.zero hpage).1 i (Nat.zero_le i)
      (by simpa using hi)).1
  · intro hall
    by_contra hno
    obtain ⟨j, -, hlt, hbad⟩ := fillRanges_none n 0 Page.zero (by simpa using hno)
    have hok := hall _ (List.mem_map_of_mem (List.mem_range.mpr (by simpa using hlt)))
    rw [hbad] at hok
    cases hok

/-- On the bytes of an array of ranges, `NSCMD_NVME_TRIM` does what the dispatcher does. -/
theorem processTrimBytes_eq (io : Nat) (r : IoRequest) (bytes : List UInt8) :
    (processTrimBytes env s io r bytes).value.1 = processTrim env s io (withTrim r bytes) := by
  have hnr : (withTrim r bytes).ioLength = r.ioLength := rfl
  have hdata : (withTrim r bytes).ioData = r.ioData := rfl
  have hunit : (withTrim r bytes).unit = r.unit := rfl
  unfold processTrimBytes processTrim
  rw [hnr, hdata, hunit]
  dsimp only
  by_cases hnull : r.ioData = 0
  · rw [if_pos hnull]
    rfl
  · rw [if_neg hnull, trimRanges_eq]
    split
    · rfl
    · obtain ⟨_ | buffer, s₁⟩ := s.allocate env
      · rfl
      · have hsome := fillRanges_isSome (trimRangeOk (env.units r.unit))
          (trimFetch_fits bytes) (r.ioLength / trimRangeBytes)
        dsimp only
        rw [Traced.value_bind, ← hsome]
        cases hfill : (fillRanges (trimFetch bytes) (trimRangeOk (env.units r.unit))
            (r.ioLength / trimRangeBytes) 0 Page.zero).value with
        | none => rfl
        | some page =>
            rw [← rangesOf_filled (trimFetch_fits bytes) hfill]
            rfl

end Links

/-! ### What is submitted, and what is freed -/

section Outcomes

variable {env : Env} {s : State} {u io buffer nr : Nat} {ranges : List DsmRange}

/-- An SQE. -/
def isSqe : Effect → Bool
  | .sqe _ _ _ => true
  | _ => false

/-- Either one command that is as it should be goes into the ring, and the buffer stays with
it; or none does, and the buffer is freed once. -/
inductive Outcome (buffer : Option Nat) (built : Request → Prop) (err : Int)
    (es : List Effect) : Prop
  | submitted (herr : err = nvmeIoAsync) (kept : ∀ a, es.countP (freeing a) = 0)
      (slot : Nat) (r : Request) (owner : Option Nat)
      (one : es.filter isSqe = [.sqe slot r owner]) (hbuilt : built r)
  | refused (herr : err ≠ nvmeIoAsync) (none : ∀ e, e ∈ es → isSqe e = false)
      (freed : ∀ a, es.countP (freeing a) = if buffer = some a then 1 else 0)

/-- The command of `nvme_setup_dsm`. -/
def IsDsm (buffer nr : Nat) (ranges : List DsmRange) (r : Request) : Prop :=
  r.cmd.opcode = nvmeCmdDsm ∧ r.cmd.nr + 1 = nr ∧ r.cmd.prp1 = buffer ∧ r.cmd.ranges = ranges

theorem Outcome.freed_once {built : Request → Prop} {err : Int} {es : List Effect}
    (herr : err ≠ nvmeIoAsync) (hnone : ∀ e, e ∈ es → isSqe e = false) {e : Effect}
    (he : ∀ a, freeing a e = (buffer == a)) (hperm : ∃ l₁ l₂, es = l₁ ++ e :: l₂ ∧
      (∀ a e', e' ∈ l₁ ++ l₂ → freeing a e' = false)) :
    Outcome (some buffer) built err es := by
  refine .refused herr hnone ?_
  intro a
  obtain ⟨l₁, l₂, rfl, hrest⟩ := hperm
  have h₁ : l₁.countP (freeing a) = 0 :=
    List.countP_eq_zero.mpr fun e' he' => by simp [hrest a e' (List.mem_append_left _ he')]
  have h₂ : l₂.countP (freeing a) = 0 :=
    List.countP_eq_zero.mpr fun e' he' => by simp [hrest a e' (List.mem_append_right _ he')]
  rw [List.countP_append, List.countP_cons, h₁, h₂, he]
  simp

/-- The request that `nvme_setup_dsm` has filled in. -/
def dsmRequest (env : Env) (r : Request) (buffer nr : Nat) (ranges : List DsmRange) : Request :=
  { r with
    cmd :=
      { opcode := nvmeCmdDsm, commandId := r.cid, nsid := unitNsid env r
        nr := nr - 1, attributes := nvmeDsmgmtAd, ranges := ranges
        prp1 := buffer }
    prpPages := [buffer], prpList := true }

/-- Submitting the command that owns the range buffer. -/
theorem submit_dsm_outcome {cid : Nat} {rest : List Nat} {s₁ : State} {r : Request}
    {es : List Effect}
    (hh : Holding s.core .io cid rest s₁ (dsmRequest env r buffer nr ranges) es)
    (hnr : 1 ≤ nr) (hbounce : r.bounceBuf = none)
    (hes : ∀ e, e ∈ es → isSqe e = false ∧ ∀ a, freeing a e = false) :
    ∃ es', (nvmeSubmitIo env s₁ .io (cidTag cid)).1.core.trace = es' ++ s.core.trace ∧
      Outcome (some buffer) (IsDsm buffer nr ranges)
        (nvmeSubmitIo env s₁ .io (cidTag cid)).2 es' := by
  have hbuilt : IsDsm buffer nr ranges (dsmRequest env r buffer nr ranges) :=
    ⟨rfl, Nat.sub_add_cancel hnr, rfl, rfl⟩
  rw [hh.nvmeSubmitIo]
  split
  · have hcore := (hh.log (.sqFull .io)).destroy
    have hfrees : dmaFrees (dsmRequest env r buffer nr ranges) = [.dmaFree r.id buffer] := by
      simp [dmaFrees, dsmRequest, hbounce]
    rw [hfrees] at hcore
    refine ⟨_, by rw [hcore]; rfl, ?_⟩
    have hbusy : ioerrUnitBusy ≠ nvmeIoAsync := by decide
    refine Outcome.freed_once (e := .dmaFree r.id buffer) hbusy ?_ (fun _ => rfl)
      ⟨[.reqFree r.id], .sqFull .io :: es, rfl, ?_⟩
    · intro e he
      simp only [List.mem_cons, List.mem_append, List.not_mem_nil, or_false] at he
      rcases he with rfl | rfl | rfl | he
      · rfl
      · rfl
      · rfl
      · exact (hes e he).1
    · intro a e he
      simp only [List.mem_cons, List.mem_append, List.not_mem_nil, or_false] at he
      rcases he with rfl | rfl | he
      · rfl
      · rfl
      · exact (hes e he).2 a
  · have hkept : ∀ a, es.countP (freeing a) = 0 := by
      intro a
      exact List.countP_eq_zero.mpr fun e he => by simp [(hes e he).2 a]
    have hnone : es.filter isSqe = [] :=
      List.filter_eq_nil_iff.mpr fun e he => by simp [(hes e he).1]
    let req := dsmRequest env r buffer nr ranges
    let sqe := Effect.sqe (s.core.ring .io).sqTail req (s.core.ownerOf req)
    obtain ⟨us, hcore | ⟨tail, hcore⟩⟩ := hh.writeSqe env
    · rw [hcore]
      refine ⟨sqe :: es, rfl, .submitted rfl ?_ (s.core.ring .io).sqTail req
        (s.core.ownerOf req) ?_ hbuilt⟩
      · intro a
        rw [List.countP_cons, hkept a]
        rfl
      · rw [List.filter_cons_of_pos rfl, hnone]
    · rw [hcore]
      refine ⟨.sqDoorbell .io tail :: sqe :: es, rfl, .submitted rfl ?_ (s.core.ring .io).sqTail
        req (s.core.ownerOf req) ?_ hbuilt⟩
      · intro a
        rw [List.countP_cons, List.countP_cons, hkept a]
        rfl
      · rw [List.filter_cons_of_neg (by simp [isSqe]), List.filter_cons_of_pos rfl, hnone]

/-- `nvme_io_submit_dsm`, in a state in which the I/O queue is gone once the controller is in
a terminal state. -/
theorem nvmeIoSubmitDsm_outcome (env : Env) (u io buffer : Nat) (ranges : List DsmRange)
    (ht : TabOk .io s.core.ioTab)
    (hgone : nvmeStateTerminal s = true → s.core.ioTab.freeStack = [])
    (hmin : 1 ≤ nr) (hmax : nr ≤ nvmeDsmMaxRanges) :
    ∃ es, (nvmeIoSubmitDsm env s u io buffer ranges nr).1.core.trace = es ++ s.core.trace ∧
      Outcome (some buffer) (IsDsm buffer nr ranges)
        (nvmeIoSubmitDsm env s u io buffer ranges nr).2 es := by
  have hselfTest : ioerrSelfTest ≠ nvmeIoAsync := by decide
  have hbusy : ioerrUnitBusy ≠ nvmeIoAsync := by decide
  unfold nvmeIoSubmitDsm
  rcases nvmeReqAllocIo_cases env ht u io with
    ⟨hmem, s₁, heq, hcore⟩ | ⟨hmem, hfree, s₁, heq, hcore⟩ | ⟨hmem, hfree, s₁, cid, rest, heq, hh⟩
  · rw [heq]
    dsimp only [State.log]
    rw [hcore]
    refine ⟨[.dmaFreeOther buffer], rfl, ?_⟩
    refine Outcome.freed_once (e := .dmaFreeOther buffer) hselfTest (by simp [isSqe])
      (fun _ => rfl) ⟨[], [], rfl, by simp⟩
  · rw [heq]
    dsimp only [State.log]
    rw [hcore]
    refine ⟨[.dmaFreeOther buffer, .reqFree s.core.allocs], rfl, ?_⟩
    refine Outcome.freed_once (e := .dmaFreeOther buffer) hbusy (by simp [isSqe])
      (fun _ => rfl) ⟨[], [.reqFree s.core.allocs], rfl, by simp [freeing]⟩
  · rw [heq]
    dsimp only
    have hstate : s₁.core.state = s.core.state := by
      rw [hh.core]
      rfl
    split
    · -- the states off LIVE that still have a free tag are transient
      have hterm : nvmeStateTerminal s = false := by
        by_contra hcon
        exact hfree (hgone (by simpa using hcon))
      have hlog := hh.log (.dmaFreeOther buffer)
      have hterm₁ : nvmeStateTerminal (s₁.log (.dmaFreeOther buffer)) = false :=
        (nvmeStateTerminal_congr hstate).trans hterm
      obtain ⟨herr, n, hcore⟩ := fail_transient env hlog hterm₁ rfl rfl
      rw [herr, hcore]
      refine ⟨_, rfl, ?_⟩
      refine Outcome.freed_once (e := .dmaFreeOther buffer) hbusy (by simp [isSqe])
        (fun _ => rfl) ⟨[.reqFree s.core.allocs], [], rfl, by simp [freeing]⟩
    · have hset : nvmeSetupDsm env s₁ (cidTag cid) buffer ranges nr =
          ((s₁.log (.cacheFlush buffer 4096 true)).editSlot .io (cidTag cid)
            (fun x => dsmRequest env x buffer nr ranges), true) := by
        unfold nvmeSetupDsm
        rw [if_neg (by omega)]
        rfl
      rw [hset]
      have hh' := (hh.log (.cacheFlush buffer 4096 true)).editSlot
        (fun x => dsmRequest env x buffer nr ranges) rfl
      refine submit_dsm_outcome hh' hmin rfl ?_
      simp [isSqe, freeing]

/-- A call that fails before it has a buffer. -/
theorem Outcome.before {built : Request → Prop} {err : Int} (herr : err ≠ nvmeIoAsync) :
    Outcome none built err [] :=
  .refused herr (by simp) (by simp)

/-- A call that gives its buffer back before it submits anything. -/
theorem Outcome.rejected {built : Request → Prop} {err : Int} (herr : err ≠ nvmeIoAsync)
    (buffer : Nat) : Outcome (some buffer) built err [.dmaFreeOther buffer] :=
  Outcome.freed_once (e := .dmaFreeOther buffer) herr (by simp [isSqe]) (fun _ => rfl)
    ⟨[], [], rfl, by simp⟩

end Outcomes

/-! ### Decoding -/

section Decoding

variable {env : Env} {s : State}

/-- A DSM command for `n` descriptors: NR is one less, all of them are acceptable, and the
page PRP1 points at holds them in order, and zeros after them. -/
structure Carries (n : Nat) (descr : Nat → DsmRange) (ok : DsmRange → Bool) (buffer : Nat)
    (page : Page) (r : Request) : Prop where
  opcode : r.cmd.opcode = nvmeCmdDsm
  nr : r.cmd.nr + 1 = n
  most : n ≤ nvmeDsmMaxRanges
  prp : r.cmd.prp1 = buffer
  ranges : r.cmd.ranges = rangesOf page n
  accepted : ∀ i, i < n → ok (descr i) = true
  entries : ∀ i, i < n → entryAt page i = entryOf (descr i)
  rest : ∀ i, n ≤ i → i < nvmeDsmMaxRanges → entryAt page i = ⟨0, 0, 0⟩

/-- What a call that decodes `n` descriptors from the first `len` bytes of the caller's buffer
comes to: it reads no other byte, and it submits the ranges or frees its buffer. -/
structure Decodes {α : Type} (s : State) (len n : Nat) (descr : Nat → DsmRange)
    (ok : DsmRange → Bool) (out : α → State × Int) (run : Traced (α × Buffer)) : Prop where
  within : run.Within len
  outcome : ∃ es, (out run.value.1).1.core.trace = es ++ s.core.trace ∧
    Outcome run.value.2.address
      (fun r => ∃ a page, run.value.2 = ⟨some a, some page⟩ ∧ Carries n descr ok a page r)
      (out run.value.1).2 es

/-- The number of whole descriptors an UNMAP parameter list declares. -/
def unmapCount (param : List UInt8) : Nat := beValue param 2 2 / 16

/-- A descriptor of an UNMAP parameter list. -/
def unmapDescriptor (param : List UInt8) (i : Nat) : DsmRange := (unmapFetch param i).value

/-- A range of a TRIM array. -/
def trimDescriptor (bytes : List UInt8) (i : Nat) : DsmRange := (trimFetch bytes i).value

theorem carries_of_filled {fetch : Nat → Traced DsmRange} {ok : DsmRange → Bool}
    (hfits : ∀ j, Fits (fetch j).value) {n a : Nat} {page : Page} {r : Request}
    (h : (fillRanges fetch ok n 0 Page.zero).value = some page) (hmax : n ≤ nvmeDsmMaxRanges)
    (hr : IsDsm a n (rangesOf page n) r) :
    Carries n (fun i => (fetch i).value) ok a page r := by
  obtain ⟨hin, hout⟩ := fillRanges_some hfits n 0 Page.zero h
  obtain ⟨hop, hnr, hprp, hranges⟩ := hr
  constructor
  case opcode => exact hop
  case nr => exact hnr
  case most => exact hmax
  case prp => exact hprp
  case ranges => exact hranges
  case accepted => exact fun i hi => (hin i (Nat.zero_le i) (by omega)).1
  case entries => exact fun i hi => (hin i (Nat.zero_le i) (by omega)).2
  case rest =>
    intro i hi _
    rw [hout i (.inr (by omega)), entryAt_zero]

theorem Outcome.mono {buffer : Option Nat} {built built' : Request → Prop} {err : Int}
    {es : List Effect} (h : Outcome buffer built err es) (himp : ∀ r, built r → built' r) :
    Outcome buffer built' err es := by
  cases h with
  | submitted herr kept slot r owner one hbuilt =>
      exact .submitted herr kept slot r owner one (himp r hbuilt)
  | refused herr none freed => exact .refused herr none freed

/-- The submission of a page that was filled. -/
theorem submitted_outcome {fetch : Nat → Traced DsmRange} {ok : DsmRange → Bool}
    (hfits : ∀ j, Fits (fetch j).value) (ht : TabOk .io s.core.ioTab)
    (hgone : nvmeStateTerminal s = true → s.core.ioTab.freeStack = []) {n : Nat} {page : Page}
    (env : Env) (u io a : Nat) (h : (fillRanges fetch ok n 0 Page.zero).value = some page)
    (hmin : 1 ≤ n) (hmax : n ≤ nvmeDsmMaxRanges) :
    ∃ es, (nvmeIoSubmitDsm env s u io a (rangesOf page n) n).1.core.trace = es ++ s.core.trace ∧
      Outcome (some a)
        (fun r => ∃ a' page', (⟨some a, some page⟩ : Buffer) = ⟨some a', some page'⟩ ∧
          Carries n (fun i => (fetch i).value) ok a' page' r)
        (nvmeIoSubmitDsm env s u io a (rangesOf page n) n).2 es := by
  obtain ⟨es, htrace, hout⟩ := nvmeIoSubmitDsm_outcome env u io a (rangesOf page n) ht hgone
    hmin hmax
  refine ⟨es, htrace, hout.mono ?_⟩
  intro r hr
  exact ⟨a, page, rfl, carries_of_filled hfits h hmax hr⟩

section Steps

variable {α β : Type} {len n : Nat} {descr : Nat → DsmRange} {ok : DsmRange → Bool}
  {out : α → State × Int}

theorem Decodes.bind {x : Traced β} {f : β → Traced (α × Buffer)} (hx : x.Within len)
    (hf : Decodes s len n descr ok out (f x.value)) : Decodes s len n descr ok out (x >>= f) :=
  ⟨Traced.within_bind hx hf.within, hf.outcome⟩

/-- The call ends before it has a buffer. -/
theorem Decodes.before {a : α} (htrace : (out a).1.core.trace = s.core.trace)
    (herr : (out a).2 ≠ nvmeIoAsync) :
    Decodes s len n descr ok out (pure (a, ⟨none, none⟩)) :=
  ⟨Traced.within_pure _ _, [], htrace, .before herr⟩

/-- A range is refused. -/
theorem Decodes.rejected {a : α} {buffer : Nat}
    (htrace : (out a).1.core.trace = .dmaFreeOther buffer :: s.core.trace)
    (herr : (out a).2 ≠ nvmeIoAsync) :
    Decodes s len n descr ok out (pure (a, ⟨some buffer, none⟩)) :=
  ⟨Traced.within_pure _ _, [.dmaFreeOther buffer], htrace, .rejected herr buffer⟩

/-- All ranges are accepted. -/
theorem Decodes.submitted {fetch : Nat → Traced DsmRange} (env : Env) (u io : Nat)
    (s s₁ : State) (hfits : ∀ j, Fits (fetch j).value) (htrace : s₁.core.trace = s.core.trace)
    (ht : TabOk .io s₁.core.ioTab)
    (hgone : nvmeStateTerminal s₁ = true → s₁.core.ioTab.freeStack = []) {a : Nat}
    {page : Page} (h : (fillRanges fetch ok n 0 Page.zero).value = some page)
    (hmin : 1 ≤ n) (hmax : n ≤ nvmeDsmMaxRanges) {x : α}
    (hx : out x = nvmeIoSubmitDsm env s₁ u io a (rangesOf page n) n) :
    Decodes s len n (fun i => (fetch i).value) ok out (pure (x, ⟨some a, some page⟩)) := by
  obtain ⟨es, hes, hout⟩ := submitted_outcome hfits ht hgone env u io a h hmin hmax
  refine ⟨Traced.within_pure _ _, es, ?_, ?_⟩
  · change (out x).1.core.trace = _
    rw [hx, hes, htrace]
  · change Outcome (some a) _ (out x).2 es
    rw [hx]
    exact hout

end Steps

/-- `scsi_unmap` decodes the descriptors its parameter list declares. -/
theorem scsiUnmapBytes_decodes (ht : TabOk .io s.core.ioTab)
    (hgone : nvmeStateTerminal s = true → s.core.ioTab.freeStack = []) (u io : Nat)
    (cmd : ScsiCmd) (param : List UInt8) :
    Decodes s cmd.length (unmapCount param) (unmapDescriptor param)
      (fun r => !lbaOutOfRange (env.units u) r.slba r.nlb) (fun x => (x.1, x.2.1))
      (scsiUnmapBytes env s u io cmd param) := by
  have hzero : (0 : Int) ≠ nvmeIoAsync := by decide
  have hnoCmd : ioerrNoCmd ≠ nvmeIoAsync := by decide
  have hbadLength : ioerrBadLength ≠ nvmeIoAsync := by decide
  have hselfTest : ioerrSelfTest ≠ nvmeIoAsync := by decide
  have hbadAddress : ioerrBadAddress ≠ nvmeIoAsync := by decide
  unfold scsiUnmapBytes unmapCount
  dsimp only
  split
  · exact .before rfl hnoCmd
  · split
    · exact .before rfl hzero
    · split
      · exact .before rfl hbadLength
      · rename_i hheader
        refine .bind (Traced.within_load (by omega)) ?_
        rw [Traced.value_load]
        split
        · exact .before rfl hzero
        · rename_i hsome
          split
          · exact .before rfl hnoCmd
          · rename_i hcap
            split
            · exact .before rfl hbadLength
            · rename_i hlen
              have hwithin : ∀ j, j < 0 + beValue param 2 2 / 16 →
                  (unmapFetch param j).Within cmd.length := by
                intro j hj
                exact unmapFetch_within param (by omega)
              unfold State.allocate
              cases env.alloc s.core.allocs with
              | none => exact .before rfl hselfTest
              | some buffer =>
                  refine .bind (fillRanges_within _ 0 _ hwithin) ?_
                  cases hfill : (fillRanges (unmapFetch param)
                      (fun r => !lbaOutOfRange (env.units u) r.slba r.nlb)
                      (beValue param 2 2 / 16) 0 Page.zero).value with
                  | none => exact .rejected rfl hbadAddress
                  | some page =>
                      dsimp only
                      split
                      · refine .submitted env u io s (s.allocate env).2 (unmapFetch_fits param) rfl
                          ht hgone hfill (by omega) (by omega) ?_
                        rfl
                      · rename_i herr
                        refine .submitted env u io s (s.allocate env).2 (unmapFetch_fits param) rfl
                          ht hgone hfill (by omega) (by omega) ?_
                        exact Prod.ext rfl (not_not.mp herr).symm

/-- `NSCMD_NVME_TRIM` decodes the ranges in its array. -/
theorem processTrimBytes_decodes (ht : TabOk .io s.core.ioTab)
    (hgone : nvmeStateTerminal s = true → s.core.ioTab.freeStack = []) (io : Nat)
    (r : IoRequest) (bytes : List UInt8) :
    Decodes s r.ioLength (r.ioLength / trimRangeBytes) (trimDescriptor bytes)
      (trimRangeOk (env.units r.unit)) id (processTrimBytes env s io r bytes) := by
  have hbadLength : ioerrBadLength ≠ nvmeIoAsync := by decide
  have hselfTest : ioerrSelfTest ≠ nvmeIoAsync := by decide
  have hbadAddress : ioerrBadAddress ≠ nvmeIoAsync := by decide
  unfold processTrimBytes
  by_cases hnull : r.ioData = 0
  · rw [if_pos hnull]
    exact .before rfl hbadLength
  · rw [if_neg hnull]
    dsimp only
    split
    · exact .before rfl hbadLength
    · rename_i hrange
      obtain ⟨hsome, hcap⟩ := not_or.mp hrange
      have hwithin : ∀ j, j < 0 + r.ioLength / trimRangeBytes →
          (trimFetch bytes j).Within r.ioLength := by
        intro j hj
        have hsize : trimRangeBytes = 12 := rfl
        refine trimFetch_within bytes ?_
        rw [hsize] at hj ⊢
        omega
      unfold State.allocate
      cases env.alloc s.core.allocs with
      | none => exact .before rfl hselfTest
      | some buffer =>
          refine .bind (fillRanges_within _ 0 _ hwithin) ?_
          cases hfill : (fillRanges (trimFetch bytes) (trimRangeOk (env.units r.unit))
              (r.ioLength / trimRangeBytes) 0 Page.zero).value with
          | none => exact .rejected rfl hbadAddress
          | some page =>
              refine .submitted env r.unit io s (s.allocate env).2 (trimFetch_fits bytes) rfl ht
                hgone hfill (Nat.pos_of_ne_zero hsome) (Nat.le_of_not_lt hcap) ?_
              rfl

/-- Once the controller is in a terminal state no tag is free. -/
theorem noTag_of_safe {h : Hand} (hs : Safe ⟨s.core, h⟩) (hterm : nvmeStateTerminal s = true) :
    s.core.ioTab.freeStack = [] := by
  have hgone : s.core.ioTab = SlotTable.gone := by
    refine hs.phase.terminal ?_ ?_ ?_
    all_goals
      intro hst
      simp [nvmeStateTerminal, show s.core.state = _ from hst] at hterm
  rw [hgone]
  rfl

/-- UNMAP and TRIM in any state of a run: the bytes decide what the dispatcher does; none at
or beyond the declared length is read; what is submitted is the list of whole descriptors,
and what is not submitted is freed. -/
theorem range_lists_decoded (env : Env) {maxZeroes : Nat} {s : State} {h : Hand}
    (hreach : Reachable env maxZeroes ⟨s.core, h⟩) :
    (∀ u io cmd param,
      (scsiUnmapBytes env s u io (withParam cmd param) param).value.1 =
          scsiUnmap env s u io (withParam cmd param) ∧
        Decodes s cmd.length (unmapCount param) (unmapDescriptor param)
          (fun r => !lbaOutOfRange (env.units u) r.slba r.nlb) (fun x => (x.1, x.2.1))
          (scsiUnmapBytes env s u io (withParam cmd param) param)) ∧
      ∀ io r bytes,
        (processTrimBytes env s io r bytes).value.1 = processTrim env s io (withTrim r bytes) ∧
          Decodes s r.ioLength (r.ioLength / trimRangeBytes) (trimDescriptor bytes)
            (trimRangeOk (env.units r.unit)) id (processTrimBytes env s io r bytes) := by
  have hs := hreach.safe
  have ht : TabOk .io s.core.ioTab := hs.tabs .io
  constructor
  · intro u io cmd param
    refine ⟨scsiUnmapBytes_eq u io cmd param, ?_⟩
    exact scsiUnmapBytes_decodes ht (noTag_of_safe hs) u io (withParam cmd param) param
  · intro io r bytes
    refine ⟨processTrimBytes_eq io r bytes, ?_⟩
    exact processTrimBytes_decodes ht (noTag_of_safe hs) io r bytes

/-- A TRIM of eight blocks from LBA 256 on. -/
def oneTrim : IoRequest :=
  { command := .nscmdNvmeTrim, unit := 0, ioLength := 12, ioData := 0x1000 }

def oneTrimBytes : List UInt8 := [0, 0, 0, 0, 0, 0, 1, 0, 0, 0, 0, 8]

theorem range_lists_decoded_trim :
    trimDescriptor oneTrimBytes 0 = ⟨256, 8⟩ ∧
      (processTrimBytes sampleEnv (upState sampleEnv 2048) 0 oneTrim oneTrimBytes).value.1 =
        processTrim sampleEnv (upState sampleEnv 2048) 0 (withTrim oneTrim oneTrimBytes) ∧
      Decodes (upState sampleEnv 2048) 12 1 (trimDescriptor oneTrimBytes)
        (trimRangeOk (sampleEnv.units 0)) id
        (processTrimBytes sampleEnv (upState sampleEnv 2048) 0 oneTrim oneTrimBytes) :=
  ⟨by decide, (range_lists_decoded sampleEnv .refl).2 0 oneTrim oneTrimBytes⟩

end Decoding

end Dsm
end NvmeDriver
