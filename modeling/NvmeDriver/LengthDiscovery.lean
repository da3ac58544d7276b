import NvmeDriver.ResponseBytes

/-!
# Length discovery

An initiator that does not know how long a response is asks for the bytes up to
its embedded length first, and then for as much as that says.  The length fields
of the VPD pages and of MODE SENSE count the bytes behind them; those of the
standard INQUIRY data and of REQUEST SENSE are one too large, so the second
request asks for a byte that is not there.
-/

namespace NvmeDriver
namespace Scsi

open Lib
open Namespace (NVMeUnit)

/-- A big-endian field of the caller's memory, once each of its bytes is known. -/
def fieldValue (mem : CellMemory Nat) (a : Nat) : Nat → Option Nat
  | 0 => some 0
  | n + 1 =>
      (mem a).bind fun b => (fieldValue mem (a + 1) n).map fun rest => b * 256 ^ n + rest

/-- Where a response embeds its length: offset and width. -/
def lengthField (cdb : List Nat) : EmulatedOp → Option (Nat × Nat)
  | .requestSense => some (7, 1)
  | .inquiry => if cdb.getD 1 0 % 2 = 0 then some (4, 1) else some (2, 2)
  | .modeSense6 => some (0, 1)
  | .modeSense10 => some (0, 2)
  | .readCapacity10 => none
  | .readCapacity16 => none

variable {mem : CellMemory Nat} {cmd cmd₁ : ScsiCmd} {ctrl : Option Controller}
variable {unit : NVMeUnit} {cdb cdb₁ : List Nat} {op : EmulatedOp} {n pos width : Nat}

theorem fieldValue_eq {full : List Nat} {base : Nat} (h : pos + width ≤ full.length)
    (hmem : ∀ i, i < pos + width → mem (base + i) = full[i]?) :
    fieldValue mem (base + pos) width = some (loadBe full pos width) := by
  induction width generalizing pos with
  | zero => rfl
  | succ width ih =>
      have hlt : pos < full.length := by omega
      have hrest : fieldValue mem (base + (pos + 1)) width = some (loadBe full (pos + 1) width) :=
        ih (by omega) (fun i hi => hmem i (by omega))
      have hbyte : mem (base + pos) = some (full.getD pos 0) := by
        rw [hmem pos (by omega)]
        simp [hlt]
      rw [fieldValue, hbyte, Option.bind_some, Nat.add_assoc, hrest]
      rfl

/-- The same command again, asking for `n` bytes with room for them. -/
structure Asks (ctrl : Option Controller) (unit : NVMeUnit) (op : EmulatedOp) (cmd : ScsiCmd)
    (cdb : List Nat) (n : Nat) (mem₁ : CellMemory Nat) (cmd₁ : ScsiCmd) (cdb₁ : List Nat)
    (out₁ : Emulated) : Prop where
  command : cmd₁.command = some cdb₁
  same : SameButAllocation op cdb cdb₁
  cdbLength : cmd₁.cmdLength = cmd.cmdLength
  data : cmd₁.data ≠ 0
  room : n ≤ cmd₁.length
  allocation : allocationLength op cdb₁ = some n
  run : emulate ctrl unit mem₁ cmd₁ op = some out₁

/-- Asking for the bytes up to a length field shows a length with which asking
again gets exactly that many bytes behind the field, and asking for more gets no
more. -/
def Discovers (ctrl : Option Controller) (unit : NVMeUnit) (op : EmulatedOp) (cmd : ScsiCmd)
    (cdb : List Nat) (pos width : Nat) : Prop :=
  ∀ mem₁ cmd₁ cdb₁ out₁, Asks ctrl unit op cmd cdb (pos + width) mem₁ cmd₁ cdb₁ out₁ →
    ∃ v, fieldValue out₁.memory (cmd₁.data + pos) width = some v ∧
      ∀ mem₂ cmd₂ cdb₂ out₂,
        Asks ctrl unit op cmd cdb (pos + width + v) mem₂ cmd₂ cdb₂ out₂ →
        out₂.cmd.actual = pos + width + v ∧
        ∀ n mem₃ cmd₃ cdb₃ out₃, Asks ctrl unit op cmd cdb n mem₃ cmd₃ cdb₃ out₃ →
          out₃.cmd.actual ≤ pos + width + v

/-- The responses whose embedded length is one too large. -/
def Overstates (op : EmulatedOp) (cdb : List Nat) : Prop :=
  op = .requestSense ∨ (op = .inquiry ∧ cdb.getD 1 0 % 2 = 0)

theorem inquiry_length (h : ServesInquiry ctrl cdb) (hevpd : cdb.getD 1 0 % 2 ≠ 0) :
    4 + loadBe (inquiryResponse ctrl unit cdb) 2 2 = (inquiryResponse ctrl unit cdb).length := by
  simp only [inquiryResponse, if_neg hevpd]
  split_ifs with h00 hB0
  · rfl
  · cases ctrl with
    | some c =>
        have hload : loadBe (vpdB0Bytes c unit) 2 2 = 60 := by
          simp [vpdB0Bytes, beBytes, loadBe]
        rw [hload, length_vpdB0Bytes]
    | none =>
        obtain hp | hp | ⟨_, hp⟩ | hp := h
        · exact absurd hp hevpd
        · exact absurd hp h00
        · exact absurd rfl hp
        · rw [hB0] at hp
          exact absurd hp (by decide)
  · simp [vpdB2Bytes, beBytes, loadBe]

theorem modeSense10_length (page blockSize : Nat) :
    2 + loadBe (modeSense10Bytes page blockSize) 0 2 =
      (modeSense10Bytes page blockSize).length := by
  have hle := length_modePages_le page blockSize
  have hsize : modePageSize = 24 := rfl
  have hlen : (modeSense10Bytes page blockSize).length =
      8 + (modePages page blockSize).length := by
    simp only [modeSense10Bytes, List.length_append, length_beBytes, List.length_replicate]
  have hload : loadBe (modeSense10Bytes page blockSize) 0 2 =
      (6 + (modePages page blockSize).length) / 256 % 256 * 256 +
        (6 + (modePages page blockSize).length) % 256 := by
    simp [modeSense10Bytes, beBytes, loadBe]
  omega

/-- The length that a response embeds, against its real length. -/
theorem lengthField_eq (h : Answered ctrl cmd cdb op)
    (hfield : lengthField cdb op = some (pos, width)) :
    (Overstates op cdb →
        pos + width + loadBe (fullResponse ctrl unit cdb op) pos width =
          (fullResponse ctrl unit cdb op).length + 1) ∧
      (¬Overstates op cdb →
        pos + width + loadBe (fullResponse ctrl unit cdb op) pos width =
          (fullResponse ctrl unit cdb op).length) := by
  cases op with
  | requestSense =>
      cases hfield
      exact ⟨fun _ => rfl, fun hno => absurd (.inl rfl) hno⟩
  | inquiry =>
      by_cases hevpd : cdb.getD 1 0 % 2 = 0
      · rw [lengthField, if_pos hevpd] at hfield
        cases hfield
        refine ⟨fun _ => ?_, fun hno => absurd (.inr ⟨rfl, hevpd⟩) hno⟩
        simp only [fullResponse, inquiryResponse, if_pos hevpd, length_inquiryStandardBytes]
        rfl
      · rw [lengthField, if_neg hevpd] at hfield
        cases hfield
        refine ⟨fun hover => ?_, fun _ => inquiry_length h.page hevpd⟩
        obtain hop | ⟨_, hp⟩ := hover
        · cases hop
        · exact absurd hp hevpd
  | modeSense6 =>
      cases hfield
      refine ⟨fun hover => ?_, fun _ => ?_⟩
      · obtain hop | ⟨hop, _⟩ := hover <;> cases hop
      · simp only [fullResponse, modeSense6Bytes, loadBe_one, List.cons_append, List.nil_append,
          List.getD_cons_zero, List.length_cons]
        omega
  | modeSense10 =>
      cases hfield
      refine ⟨fun hover => ?_, fun _ => modeSense10_length _ _⟩
      obtain hop | ⟨hop, _⟩ := hover <;> cases hop
  | readCapacity10 => cases hfield
  | readCapacity16 => cases hfield

theorem lengthField_le (h : Answered ctrl cmd cdb op)
    (hfield : lengthField cdb op = some (pos, width)) :
    pos + width ≤ (fullResponse ctrl unit cdb op).length := by
  obtain ⟨_, hexact⟩ := @lengthField_eq cmd ctrl unit cdb op pos width h hfield
  by_cases hover : Overstates op cdb
  · obtain rfl | ⟨rfl, hevpd⟩ := hover
    · cases hfield
      exact Nat.le_of_ble_eq_true rfl
    · rw [lengthField, if_pos hevpd] at hfield
      cases hfield
      simp only [fullResponse, inquiryResponse, if_pos hevpd, length_inquiryStandardBytes]
      decide
  · have hlen := hexact hover
    omega

/-- What a request for `n` bytes gets. -/
theorem Asks.actual {mem₁ : CellMemory Nat} {out₁ : Emulated} (h : Answered ctrl cmd cdb op)
    (ha : Asks ctrl unit op cmd cdb n mem₁ cmd₁ cdb₁ out₁) :
    out₁.cmd.actual = min (fullResponse ctrl unit cdb op).length n ∧
      ∀ i, i < out₁.cmd.actual →
        out₁.memory (cmd₁.data + i) = (fullResponse ctrl unit cdb op)[i]? := by
  have hagain : Answered ctrl cmd₁ cdb₁ op := h.same ha.command ha.same ha.cdbLength ha.data
  have hfull : fullResponse ctrl unit cdb₁ op = fullResponse ctrl unit cdb op :=
    fullResponse_same ha.same
  have hrun := ha.run
  rw [emulate_answered hagain, Option.some_inj] at hrun
  subst hrun
  have hexact :
      ExactPrefix (fullResponse ctrl unit cdb₁ op) (allocationLength op cdb₁) mem₁ cmd₁ _ :=
    emitted_exactPrefix _ _
  have hroom := ha.room
  rw [hfull, ha.allocation] at hexact
  rw [hfull, ha.allocation]
  have hactual := hexact.actual
  rw [Option.getD_some] at hactual ⊢
  exact ⟨by omega, hexact.written⟩

/-- A CDB that differs from another in one byte. -/
def setByte (cdb : List Nat) (pos b : Nat) : List Nat :=
  (cdb ++ List.replicate (pos + 1) 0).set pos b

theorem getD_setByte (cdb : List Nat) (pos b i : Nat) :
    (setByte cdb pos b).getD i 0 = if i = pos then b else cdb.getD i 0 := by
  have hpos : pos < (cdb ++ List.replicate (pos + 1) 0).length := by
    rw [List.length_append, List.length_replicate]
    omega
  simp only [setByte, List.getD_eq_getElem?_getD]
  by_cases hi : i = pos
  · subst hi
    rw [if_pos rfl, List.getElem?_set_self hpos, Option.getD_some]
  · rw [if_neg hi, List.getElem?_set_ne (Ne.symm hi)]
    by_cases hlt : i < cdb.length
    · rw [List.getElem?_append_left hlt]
    · rw [List.getElem?_append_right (by omega), List.getElem?_eq_none (by omega : cdb.length ≤ i),
        List.getElem?_replicate]
      split_ifs <;> rfl

/-- Any one-byte length can be asked for. -/
theorem exists_allocation (hover : Overstates op cdb) (n : Nat) :
    ∃ cdb₁, SameButAllocation op cdb cdb₁ ∧ allocationLength op cdb₁ = some n := by
  obtain rfl | ⟨rfl, -⟩ := hover
  · refine ⟨setByte cdb 4 n, ?_, ?_⟩
    · intro i hi
      have hout := hi (4, 1) rfl
      rw [getD_setByte, if_neg (by omega)]
    · simp only [allocationLength, EmulatedOp.allocationField, Option.map_some]
      rw [loadBe_one, getD_setByte, if_pos rfl]
  · refine ⟨setByte (setByte cdb 3 0) 4 n, ?_, ?_⟩
    · intro i hi
      have hout := hi (3, 2) rfl
      rw [getD_setByte, if_neg (by omega), getD_setByte, if_neg (by omega)]
    · simp only [allocationLength, EmulatedOp.allocationField, Option.map_some, loadBe,
        getD_setByte]
      simp

/-- The run that asks for `n` bytes of an overstated response. -/
theorem exists_asks (mem : CellMemory Nat) (h : Answered ctrl cmd cdb op)
    (hover : Overstates op cdb) (n : Nat) :
    ∃ cmd₁ cdb₁ out₁, Asks ctrl unit op cmd cdb n mem cmd₁ cdb₁ out₁ := by
  obtain ⟨cdb₁, hsame, halloc⟩ := exists_allocation hover n
  let cmd₁ : ScsiCmd := { cmd with command := some cdb₁, length := n }
  have hagain : Answered ctrl cmd₁ cdb₁ op := h.same rfl hsame rfl h.data
  obtain ⟨out₁, hrun⟩ : ∃ out₁, emulate ctrl unit mem cmd₁ op = some out₁ :=
    ⟨_, emulate_answered hagain⟩
  exact ⟨cmd₁, cdb₁, out₁,
    { command := rfl
      same := hsame
      cdbLength := rfl
      data := h.data
      room := Nat.le_refl n
      allocation := halloc
      run := hrun }⟩

/-- A response that counts right is discovered. -/
theorem discovers_of_answered (h : Answered ctrl cmd cdb op)
    (hfield : lengthField cdb op = some (pos, width)) (hno : ¬Overstates op cdb) :
    Discovers ctrl unit op cmd cdb pos width := by
  obtain ⟨_, hexact⟩ := @lengthField_eq cmd ctrl unit cdb op pos width h hfield
  have hle := @lengthField_le cmd ctrl unit cdb op pos width h hfield
  have hlen := hexact hno
  intro mem₁ cmd₁ cdb₁ out₁ hask
  obtain ⟨hactual, hwritten⟩ := hask.actual h
  rw [Nat.min_eq_right hle] at hactual
  refine ⟨_, fieldValue_eq hle fun i hi => hwritten i (by omega), ?_⟩
  intro mem₂ cmd₂ cdb₂ out₂ hask₂
  obtain ⟨hactual₂, -⟩ := hask₂.actual h
  refine ⟨by omega, fun n mem₃ cmd₃ cdb₃ out₃ hask₃ => ?_⟩
  obtain ⟨hactual₃, -⟩ := hask₃.actual h
  omega

/-- A response that overstates its length has the initiator ask for one byte more
than there is. -/
theorem not_discovers_of_overstates (h : Answered ctrl cmd cdb op)
    (hfield : lengthField cdb op = some (pos, width)) (hbad : Overstates op cdb) :
    ¬Discovers ctrl unit op cmd cdb pos width := by
  intro hdisc
  obtain ⟨hover, _⟩ := @lengthField_eq cmd ctrl unit cdb op pos width h hfield
  have hle := @lengthField_le cmd ctrl unit cdb op pos width h hfield
  have hlen := hover hbad
  obtain ⟨cmd₁, cdb₁, out₁, hask⟩ := exists_asks (fun _ => none) h hbad (pos + width)
  obtain ⟨v, hv, hsecond⟩ := hdisc _ _ _ _ hask
  obtain ⟨hactual, hwritten⟩ := hask.actual h
  rw [Nat.min_eq_right hle] at hactual
  rw [fieldValue_eq hle fun i hi => hwritten i (by omega), Option.some_inj] at hv
  subst hv
  obtain ⟨cmd₂, cdb₂, out₂, hask₂⟩ := exists_asks (fun _ => none) h hbad
    (pos + width + loadBe (fullResponse ctrl unit cdb op) pos width)
  obtain ⟨hgot, -⟩ := hsecond _ _ _ _ hask₂
  obtain ⟨hactual₂, -⟩ := hask₂.actual h
  omega

theorem answered_of_success {out : Emulated} (hcmd : cmd.command = some cdb)
    (hrun : emulate ctrl unit mem cmd op = some out) (hok : out.error = 0) :
    Answered ctrl cmd cdb op := by
  by_contra h
  obtain ⟨error, c, herr, hall⟩ := @emulate_refused cmd ctrl unit cdb op hcmd h
  have hsame := (hall mem).symm.trans hrun
  rw [Option.some_inj] at hsame
  rw [← hsame] at hok
  exact (refusal_ne herr).1 hok

/-- Length discovery works for a command that succeeds exactly when it is neither
REQUEST SENSE nor an INQUIRY for the standard data. -/
theorem length_discovery_iff {out : Emulated} (hcmd : cmd.command = some cdb)
    (hop : emulatedOp cdb = some op) (hfield : lengthField cdb op = some (pos, width))
    (hrun : emulate ctrl unit mem cmd op = some out) (hok : out.error = 0) :
    Discovers ctrl unit op cmd cdb pos width ↔
      ¬(cdb.getD 0 0 = 0x03 ∨ (cdb.getD 0 0 = 0x12 ∧ cdb.getD 1 0 % 2 = 0)) := by
  have hbad : Overstates op cdb ↔
      (cdb.getD 0 0 = 0x03 ∨ (cdb.getD 0 0 = 0x12 ∧ cdb.getD 1 0 % 2 = 0)) := by
    simp only [emulatedOp] at hop
    split_ifs at hop with h03 h12 <;> cases hop <;> simp_all [Overstates]
  have h := answered_of_success hcmd hrun hok
  rw [← hbad]
  constructor
  · intro hdisc hover
    exact not_discovers_of_overstates h hfield hover hdisc
  · intro hno
    exact discovers_of_answered h hfield hno

/-- REQUEST SENSE for the eight bytes up to the ADDITIONAL LENGTH field. -/
def senseCmd : ScsiCmd :=
  { data := 0x1000, payload := [], length := 255, flagRead := true, flagAutosense := false
    command := some [0x03, 0, 0, 0, 8, 0], cmdLength := 6, hasSenseData := false
    senseLength := 0, response := [], actual := 0, cmdActual := 0, status := 0
    senseActual := 0, sense := none }

theorem not_discovers_requestSense :
    (∃ out, emulate none (Namespace.unitOfInfo 2048 0 (Namespace.plainInfo 1 0x200000 9))
        (fun _ => none) senseCmd .requestSense = some out ∧ out.error = 0) ∧
      ¬Discovers none (Namespace.unitOfInfo 2048 0 (Namespace.plainInfo 1 0x200000 9))
        .requestSense senseCmd [0x03, 0, 0, 0, 8, 0] 7 1 := by
  have h : Answered none senseCmd [0x03, 0, 0, 0, 8, 0] .requestSense :=
    ⟨rfl, by decide, by decide, trivial⟩
  exact ⟨⟨_, emulate_answered h, rfl⟩, not_discovers_of_overstates h rfl (.inl rfl)⟩

/-- VPD page 0xB2 is discovered: four bytes up to its length, then four more. -/
theorem length_discovery_iff_vpdB2 :
    Discovers none (Namespace.unitOfInfo 2048 0 (Namespace.plainInfo 1 0x200000 9)) .inquiry
      { senseCmd with command := some [0x12, 1, 0xB2, 0, 4, 0] } [0x12, 1, 0xB2, 0, 4, 0] 2 2 := by
  have h : Answered none { senseCmd with command := some [0x12, 1, 0xB2, 0, 4, 0] }
      [0x12, 1, 0xB2, 0, 4, 0] .inquiry :=
    ⟨rfl, by decide, by decide, .inr (.inr (.inr rfl))⟩
  exact (@length_discovery_iff (fun _ => none) _ none _ _ .inquiry 2 2 _ rfl rfl rfl
    (emulate_answered h) rfl).mpr (by decide)

end Scsi
end NvmeDriver
