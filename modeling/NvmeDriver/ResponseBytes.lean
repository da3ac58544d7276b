import NvmeDriver.Responses
import NvmeDriver.Engine.Dispatch

/-!
# What the emulated responses contain

Every builder of `Responses.lean` has a closed form: it stays within its array and
stores to each byte it hands on.  From that follow the two facts about a whole
command: what is transferred is a prefix of one full response, cut by the CDB and
by the caller's buffer alone, and the engine's switch sees the same error and
command whatever is in the caller's memory.
-/

namespace NvmeDriver
namespace Scsi

open Lib
open Namespace (NVMeUnit reportedBlockSize capacity10 capacity16)

/-! ### The responses in closed form -/

/-- The 44 bytes of the standard INQUIRY response. -/
def inquiryStandardBytes (ctrl : Option Controller) : List Nat :=
  [0, 0, 2, 2, 40, 0, 0, 0] ++ vendorText ++
    match haveId ctrl with
    | some id => copyPadded id.model 16 ++ copyPadded id.firmware 4 ++ copyPadded id.serial 8
    | none => productText ++ ascii ['0', '0', '0', '1'] ++ List.replicate 8 0x20

/-- VPD page 0x00. -/
def vpd00Bytes : List Nat := [0, 0x00, 0, 3, 0x00, 0xB0, 0xB2]

/-- VPD page 0xB0. -/
def vpdB0Bytes (c : Controller) (unit : NVMeUnit) : List Nat :=
  [0, 0xB0] ++ beBytes 2 60 ++ List.replicate 4 0 ++ beBytes 4 (maxXferBlocks c unit) ++
    List.replicate 8 0 ++
    (if unitSupportsDsm (some c) then beBytes 4 0xFFFFFFFF ++ beBytes 4 nvmeDsmMaxRanges
      else List.replicate 8 0) ++
    List.replicate 36 0

/-- VPD page 0xB2. -/
def vpdB2Bytes (ctrl : Option Controller) : List Nat :=
  [0, 0xB2] ++ beBytes 2 4 ++ [0, if unitSupportsDsm ctrl then 0x80 else 0, 0x02, 0]

/-- Page 0x03, Format Device Parameters. -/
def formatPage (blockSize : Nat) : List Nat :=
  [0x03, modePageLen] ++ List.replicate 10 0 ++
    [blockSize / 256 % 256, blockSize % 256] ++ List.replicate 10 0

/-- Page 0x04, Rigid Drive Geometry. -/
def geometryPage : List Nat := [0x04, modePageLen] ++ List.replicate 22 0

/-- The mode pages a page code asks for. -/
def modePages (page blockSize : Nat) : List Nat :=
  (if page = 0x3F ∨ page = 0x03 then formatPage blockSize else []) ++
    (if page = 0x3F ∨ page = 0x04 then geometryPage else [])

/-- The MODE SENSE (6) response. -/
def modeSense6Bytes (page blockSize : Nat) : List Nat :=
  [3 + (modePages page blockSize).length, 0, 0, 0] ++ modePages page blockSize

/-- The MODE SENSE (10) response. -/
def modeSense10Bytes (page blockSize : Nat) : List Nat :=
  beBytes 2 (6 + (modePages page blockSize).length) ++ List.replicate 6 0 ++
    modePages page blockSize

/-- The REQUEST SENSE response. -/
def requestSenseBytes : List Nat :=
  [0x70, 0, 0x00] ++ beBytes 4 0 ++ [11] ++ beBytes 4 0 ++ [0, 0, 0, 0, 0, 0]

/-- The READ CAPACITY (10) response. -/
def capacity10Bytes (unit : NVMeUnit) : List Nat :=
  beBytes 4 (capacity10 unit).lba ++ beBytes 4 (capacity10 unit).blockSize

/-- The READ CAPACITY (16) response. -/
def capacity16Bytes (unit : NVMeUnit) : List Nat :=
  beBytes 8 (capacity16 unit).lba ++ beBytes 4 (capacity16 unit).blockSize ++ [0, 0, 0]

/-- A response that was handed to `scsi_emit`. -/
def emitted (mem : CellMemory Nat) (cmd : ScsiCmd) (bytes : List Nat) (alloc : Nat) : Emulated :=
  { error := 0
    cmd := scsiEmit cmd bytes alloc
    memory := mem.copy cmd.data
      ((bytes.take (min (min bytes.length alloc) cmd.length)).map some) }

variable {mem : CellMemory Nat} {cmd : ScsiCmd} {ctrl : Option Controller} {unit : NVMeUnit}
variable {alloc n : Nat} {bytes : List Nat}

@[simp] theorem length_beBytes (k v : Nat) : (beBytes k v).length = k := by
  induction k with
  | zero => rfl
  | succ k ih => simp [beBytes, ih]

theorem length_copyPadded {src : List Nat} {k : Nat} (h : k ≤ src.length) :
    (copyPadded src k).length = k := by
  have hkept : ((src.take k).takeWhile (fun c => c ≠ 0)).length ≤ k := by
    have hsub : ((src.take k).takeWhile (fun c => c ≠ 0)).Sublist (src.take k) :=
      List.takeWhile_sublist _
    have hle := hsub.length_le
    rw [List.length_take, Nat.min_eq_left h] at hle
    exact hle
  simp only [copyPadded, List.length_append, List.length_map, List.length_replicate]
  omega

/-! ### The arrays the handlers fill in -/

theorem inquiryData_eq :
    inquiryData ctrl = some (LocalBuffer.holding 44 (inquiryStandardBytes ctrl)) := by
  unfold inquiryData inquiryStandardBytes
  cases haveId ctrl with
  | none => rfl
  | some id =>
      have hm : (copyPadded id.model 16).length = 16 :=
        length_copyPadded (by rw [id.model_length]; decide)
      have hf : (copyPadded id.firmware 4).length = 4 :=
        length_copyPadded (by rw [id.firmware_length]; decide)
      have hs : (copyPadded id.serial 8).length = 8 :=
        length_copyPadded (by rw [id.serial_length]; decide)
      rw [LocalBuffer.fresh_eq, LocalBuffer.putFields_holding]
      · simp [inquiryBytes]
      · simp [LocalBuffer.Adjacent, vendorText, ascii, hm, hf]
      · simp [inquiryBytes, vendorText, ascii, hm, hf, hs]

theorem vpd00Page_eq : vpd00Page = some (LocalBuffer.holding 7 vpd00Bytes) := rfl

theorem vpdB0Page_eq (c : Controller) :
    vpdB0Page c unit = some (LocalBuffer.holding 64 (vpdB0Bytes c unit)) := by
  unfold vpdB0Page vpdB0Bytes
  cases unitSupportsDsm (some c) with
  | true => rfl
  | false => rfl

theorem vpdB2Page_eq :
    vpdB2Page ctrl = some (LocalBuffer.holding 8 (vpdB2Bytes ctrl)) := by
  unfold vpdB2Page vpdB2Bytes
  cases unitSupportsDsm ctrl with
  | true => rfl
  | false => rfl

theorem capacity10Data_eq :
    capacity10Data unit = some (LocalBuffer.holding 8 (capacity10Bytes unit)) := rfl

theorem capacity16Data_eq :
    capacity16Data unit = some (LocalBuffer.holding 15 (capacity16Bytes unit)) := rfl

theorem requestSenseData_eq :
    requestSenseData = some (LocalBuffer.holding 18 requestSenseBytes) := rfl

/-! ### Mode pages -/

namespace Cursor

/-- A cursor right behind what its array holds. -/
def behind (n : Nat) (vs : List Nat) : Cursor := ⟨LocalBuffer.holding n vs, vs.length⟩

variable {vs : List Nat} {v k stop : Nat}

theorem push_behind (h : vs.length < n) (hn : n < 256) :
    (behind n vs).push v = some (behind n (vs ++ [v])) := by
  have hidx : (vs.length + 1) % 256 = (vs ++ [v]).length := by
    rw [List.length_append, List.length_singleton]
    exact Nat.mod_eq_of_lt (by omega)
  simp only [push, behind, LocalBuffer.put_holding_next h rfl, Option.bind_eq_bind,
    Option.bind_some, hidx]

theorem zeroes_behind (h : vs.length + k ≤ n) (hn : n < 256) :
    (behind n vs).zeroes k = some (behind n (vs ++ List.replicate k 0)) := by
  induction k generalizing vs with
  | zero => simp [zeroes]
  | succ k ih =>
      have hnext : (behind n (vs ++ [0])).zeroes k =
          some (behind n (vs ++ [0] ++ List.replicate k 0)) := ih
        (by rw [List.length_append, List.length_singleton]; omega)
      rw [zeroes, push_behind (by omega) hn, Option.bind_eq_bind, Option.bind_some, hnext,
        List.append_assoc, List.singleton_append, ← List.replicate_succ]

/-- The filling loop stops at its bound when that is within the array. -/
theorem zeroTo_behind (h : vs.length + k ≤ n) (hn : n < 256) {rounds : Nat} (hr : k ≤ rounds) :
    (behind n vs).zeroTo (vs.length + k) rounds =
      some (behind n (vs ++ List.replicate k 0)) := by
  induction k generalizing vs rounds with
  | zero => cases rounds <;> simp [zeroTo, behind]
  | succ k ih =>
      cases rounds with
      | zero => omega
      | succ rounds =>
          have hnext : (behind n (vs ++ [0])).zeroTo ((vs ++ [0]).length + k) rounds =
              some (behind n (vs ++ [0] ++ List.replicate k 0)) := ih
            (by rw [List.length_append, List.length_singleton]; omega) (by omega)
          rw [List.length_append, List.length_singleton,
            show vs.length + 1 + k = vs.length + (k + 1) by omega] at hnext
          have hlt : (behind n vs).idx < vs.length + (k + 1) := by
            simp only [behind]
            omega
          rw [zeroTo, if_pos hlt, push_behind (by omega) hn, Option.bind_eq_bind,
            Option.bind_some, hnext, List.append_assoc, List.singleton_append,
            ← List.replicate_succ]

end Cursor

theorem writeFormatPage_behind {vs : List Nat} {blockSize : Nat}
    (h : vs.length + modePageSize ≤ n) (hn : n < 256) :
    writeFormatPage (Cursor.behind n vs) blockSize =
      some (Cursor.behind n (vs ++ formatPage blockSize)) := by
  have hsize : modePageSize = 24 := rfl
  have hrest :
      (Cursor.behind n (vs ++ [0x03] ++ [modePageLen] ++ List.replicate 8 0 ++ [0] ++ [0] ++
        [blockSize / 256 % 256] ++ [blockSize % 256])).zeroTo (vs.length + modePageSize) 256 =
      some (Cursor.behind n (vs ++ formatPage blockSize)) := by
    have hlen :
        vs.length + modePageSize =
          (vs ++ [0x03] ++ [modePageLen] ++ List.replicate 8 0 ++ [0] ++ [0] ++
            [blockSize / 256 % 256] ++ [blockSize % 256]).length + 10 := by
      simp [hsize]
    rw [hlen, Cursor.zeroTo_behind (by omega) hn (by omega)]
    simp [formatPage, List.replicate_succ]
  unfold writeFormatPage
  rw [Option.bind_eq_bind]
  rw [Cursor.push_behind (by omega) hn, Option.bind_some]
  rw [Cursor.push_behind (by simp; omega) hn, Option.bind_some]
  rw [Cursor.zeroes_behind (by simp; omega) hn, Option.bind_some]
  rw [Cursor.push_behind (by simp; omega) hn, Option.bind_some]
  rw [Cursor.push_behind (by simp; omega) hn, Option.bind_some]
  rw [Cursor.push_behind (by simp; omega) hn, Option.bind_some]
  rw [Cursor.push_behind (by simp; omega) hn, Option.bind_some]
  exact hrest

theorem writeGeometryPage_behind {vs : List Nat}
    (h : vs.length + modePageSize ≤ n) (hn : n < 256) :
    writeGeometryPage (Cursor.behind n vs) = some (Cursor.behind n (vs ++ geometryPage)) := by
  have hsize : modePageSize = 24 := rfl
  have hrest :
      (Cursor.behind n (vs ++ [0x04] ++ [modePageLen])).zeroTo (vs.length + modePageSize) 256 =
      some (Cursor.behind n (vs ++ geometryPage)) := by
    have hlen :
        vs.length + modePageSize = (vs ++ [0x04] ++ [modePageLen]).length + 22 := by
      simp [hsize]
    rw [hlen, Cursor.zeroTo_behind (by omega) hn (by omega)]
    simp [geometryPage]
  unfold writeGeometryPage
  rw [Option.bind_eq_bind]
  rw [Cursor.push_behind (by omega) hn, Option.bind_some]
  rw [Cursor.push_behind (by simp; omega) hn, Option.bind_some]
  exact hrest

@[simp] theorem length_geometryPage : geometryPage.length = modePageSize := rfl

@[simp] theorem length_formatPage (blockSize : Nat) :
    (formatPage blockSize).length = modePageSize := rfl

theorem length_modePages_le (page blockSize : Nat) :
    (modePages page blockSize).length ≤ 2 * modePageSize := by
  unfold modePages
  split_ifs <;> simp only [List.length_append, length_formatPage, length_geometryPage,
    List.length_nil] <;> omega

/-- Both page writers append their page and leave the cursor behind it. -/
theorem scsiWriteModePages_behind {vs : List Nat} {page blockSize : Nat}
    (h : vs.length + 2 * modePageSize ≤ n) (hn : n < 256) :
    scsiWriteModePages (Cursor.behind n vs) page blockSize =
      some (Cursor.behind n (vs ++ modePages page blockSize)) := by
  have hfirst :
      (if page = 0x3F ∨ page = 0x03 then writeFormatPage (Cursor.behind n vs) blockSize
        else some (Cursor.behind n vs)) =
      some (Cursor.behind n
        (vs ++ if page = 0x3F ∨ page = 0x03 then formatPage blockSize else [])) := by
    split_ifs
    · exact writeFormatPage_behind (by omega) hn
    · rw [List.append_nil]
  have hroom :
      (vs ++ if page = 0x3F ∨ page = 0x03 then formatPage blockSize else []).length +
        modePageSize ≤ n := by
    rw [List.length_append]
    split_ifs
    · rw [length_formatPage]
      omega
    · rw [List.length_nil]
      omega
  unfold scsiWriteModePages modePages
  rw [hfirst, Option.bind_some]
  by_cases hgeometry : page = 0x3F ∨ page = 0x04
  · rw [if_pos hgeometry, if_pos hgeometry, writeGeometryPage_behind hroom hn,
      List.append_assoc]
  · rw [if_neg hgeometry, if_neg hgeometry, List.append_nil]

theorem modeSense6Data_eq (page blockSize : Nat) :
    modeSense6Data page blockSize =
      some (Cursor.behind modeSenseMax (modeSense6Bytes page blockSize)) := by
  have hle := length_modePages_le page blockSize
  have hmax : modeSenseMax = 8 + 2 * modePageSize := rfl
  have hsize : modePageSize = 24 := rfl
  have hlen : ([3, 0, 0, 0] ++ modePages page blockSize).length =
      4 + (modePages page blockSize).length := by
    simp only [List.length_append, List.length_cons, List.length_nil]
  have hidx : ([3, 0, 0, 0] ++ modePages page blockSize).length + 256 - 1 =
      3 + (modePages page blockSize).length + 256 := by
    omega
  have hmod : (3 + (modePages page blockSize).length + 256) % 256 =
      3 + (modePages page blockSize).length := by
    omega
  have hwrite : scsiWriteModePages (Cursor.behind modeSenseMax [3, 0, 0, 0]) page blockSize =
      some (Cursor.behind modeSenseMax ([3, 0, 0, 0] ++ modePages page blockSize)) :=
    scsiWriteModePages_behind (by simp [hmax]) (by omega)
  have hput : (LocalBuffer.holding modeSenseMax ([3, 0, 0, 0] ++ modePages page blockSize)).put 0
      (3 + (modePages page blockSize).length) =
      some (LocalBuffer.holding modeSenseMax (modeSense6Bytes page blockSize)) := by
    rw [LocalBuffer.put_holding (by omega) (by omega)]
    rfl
  unfold modeSense6Data
  simp (disch := decide) only [Option.bind_eq_bind, LocalBuffer.fresh_eq,
    LocalBuffer.put_holding_next, Option.bind_some, List.nil_append, List.cons_append]
  rw [show (⟨LocalBuffer.holding modeSenseMax [3, 0, 0, 0], 4⟩ : Cursor) =
    Cursor.behind modeSenseMax [3, 0, 0, 0] from rfl, hwrite, Option.bind_some]
  simp only [Cursor.behind]
  rw [hidx, hmod, hput, Option.bind_some]
  rfl

theorem modeSense10Data_eq (page blockSize : Nat) :
    modeSense10Data page blockSize =
      some (Cursor.behind modeSenseMax (modeSense10Bytes page blockSize)) := by
  have hle := length_modePages_le page blockSize
  have hmax : modeSenseMax = 8 + 2 * modePageSize := rfl
  have hsize : modePageSize = 24 := rfl
  have hlen : (List.replicate 8 0 ++ modePages page blockSize).length =
      8 + (modePages page blockSize).length := by
    rw [List.length_append, List.length_replicate]
  have hmod : ((List.replicate 8 0 ++ modePages page blockSize).length + 2 ^ 16 - 2) % 2 ^ 16 =
      6 + (modePages page blockSize).length := by
    omega
  have hwrite :
      scsiWriteModePages (Cursor.behind modeSenseMax (List.replicate 8 0)) page blockSize =
        some (Cursor.behind modeSenseMax (List.replicate 8 0 ++ modePages page blockSize)) :=
    scsiWriteModePages_behind (by simp [hmax]) (by omega)
  have hput :
      (LocalBuffer.holding modeSenseMax
        ([] ++ [0, 0] ++ (List.replicate 6 0 ++ modePages page blockSize))).putAll 0
          (beBytes 2 (6 + (modePages page blockSize).length)) =
        some (LocalBuffer.holding modeSenseMax
          ([] ++ beBytes 2 (6 + (modePages page blockSize).length) ++
            (List.replicate 6 0 ++ modePages page blockSize))) :=
    LocalBuffer.putAll_holding (by simp; omega) rfl (by simp)
  have hhead : (LocalBuffer.fresh modeSenseMax).putAll 0 [0, 0, 0, 0, 0, 0, 0, 0] =
      some (LocalBuffer.holding modeSenseMax (List.replicate 8 0)) := rfl
  unfold modeSense10Data
  simp only [Option.bind_eq_bind]
  rw [hhead, Option.bind_some,
    show (⟨LocalBuffer.holding modeSenseMax (List.replicate 8 0), 8⟩ : Cursor) =
      Cursor.behind modeSenseMax (List.replicate 8 0) from rfl, hwrite, Option.bind_some]
  simp only [Cursor.behind]
  rw [hmod, show List.replicate 8 0 ++ modePages page blockSize =
    [] ++ [0, 0] ++ (List.replicate 6 0 ++ modePages page blockSize) from rfl, hput,
    Option.bind_some]
  simp only [modeSense10Bytes, List.nil_append, List.append_assoc, List.length_append,
    List.length_replicate, List.length_cons, List.length_nil, length_beBytes]

/-! ### The handlers -/

theorem emitLength_eq (len : Nat) :
    emitLength cmd len alloc = min (min len alloc) cmd.length := by
  have hmin : ∀ a b : Nat, (if b < a then b else a) = min a b := by
    intro a b
    split_ifs <;> omega
  simp only [emitLength, hmin]

theorem length_modeSense6Bytes_le (page blockSize : Nat) :
    (modeSense6Bytes page blockSize).length ≤ modeSenseMax := by
  have hle := length_modePages_le page blockSize
  have hmax : modeSenseMax = 8 + 2 * modePageSize := rfl
  simp only [modeSense6Bytes, List.length_append, List.length_cons, List.length_nil]
  omega

theorem length_modeSense10Bytes_le (page blockSize : Nat) :
    (modeSense10Bytes page blockSize).length ≤ modeSenseMax := by
  have hle := length_modePages_le page blockSize
  have hmax : modeSenseMax = 8 + 2 * modePageSize := rfl
  simp only [modeSense10Bytes, List.length_append, List.length_replicate, length_beBytes]
  omega

/-- What is held in full is transferred as `scsi_emit` says. -/
theorem scsiEmitTo_holding {k : Nat} (hk : bytes.length = k) (hlen : k ≤ n) :
    scsiEmitTo mem cmd (LocalBuffer.holding n bytes) k alloc =
      some (emitted mem cmd bytes alloc) := by
  subst hk
  have hread :
      (LocalBuffer.holding n bytes).read (min (min bytes.length alloc) cmd.length) =
        some ((bytes.take (min (min bytes.length alloc) cmd.length)).map some) :=
    LocalBuffer.read_holding hlen (by omega)
  unfold scsiEmitTo
  rw [emitLength_eq, hread, Option.map_some]
  have hcells : ∀ xs : List Nat, (xs.map some).reduceOption = xs := by
    intro xs
    simp [List.reduceOption]
  rw [hcells]
  rfl

/-- Where a CDB holds its ALLOCATION LENGTH: offset and width. -/
def EmulatedOp.allocationField : EmulatedOp → Option (Nat × Nat)
  | .requestSense => some (4, 1)
  | .inquiry => some (3, 2)
  | .modeSense6 => some (4, 1)
  | .modeSense10 => some (7, 2)
  | .readCapacity10 => none
  | .readCapacity16 => some (10, 4)

/-- The ALLOCATION LENGTH of a CDB. -/
def allocationLength (op : EmulatedOp) (cdb : List Nat) : Option Nat :=
  op.allocationField.map fun f => loadBe cdb f.1 f.2

/-- The response an INQUIRY asks for. -/
def inquiryResponse (ctrl : Option Controller) (unit : NVMeUnit) (cdb : List Nat) : List Nat :=
  if cdb.getD 1 0 % 2 = 0 then inquiryStandardBytes ctrl
  else if cdb.getD 2 0 = 0x00 then vpd00Bytes
  else if cdb.getD 2 0 = 0xB0 then
    match ctrl with
    | some c => vpdB0Bytes c unit
    | none => []
  else vpdB2Bytes ctrl

/-- The response a command would get without any limit on its length. -/
def fullResponse (ctrl : Option Controller) (unit : NVMeUnit) (cdb : List Nat) :
    EmulatedOp → List Nat
  | .requestSense => requestSenseBytes
  | .inquiry => inquiryResponse ctrl unit cdb
  | .modeSense6 => modeSense6Bytes (cdb.getD 2 0 % 64) (reportedBlockSize unit)
  | .modeSense10 => modeSense10Bytes (cdb.getD 2 0 % 64) (reportedBlockSize unit)
  | .readCapacity10 => capacity10Bytes unit
  | .readCapacity16 => capacity16Bytes unit

/-- An INQUIRY that is answered: standard data, or a page there is. -/
def ServesInquiry (ctrl : Option Controller) (cdb : List Nat) : Prop :=
  cdb.getD 1 0 % 2 = 0 ∨ cdb.getD 2 0 = 0x00 ∨ (cdb.getD 2 0 = 0xB0 ∧ ctrl ≠ none) ∨
    cdb.getD 2 0 = 0xB2

/-- The shortest CDB a handler reads. -/
def EmulatedOp.cdbBytes : EmulatedOp → Nat
  | .requestSense | .inquiry | .modeSense6 => 6
  | .modeSense10 => 10
  | .readCapacity10 => 0
  | .readCapacity16 => 16

/-- What a handler wants of a command before it answers. -/
structure Answered (ctrl : Option Controller) (cmd : ScsiCmd) (cdb : List Nat)
    (op : EmulatedOp) : Prop where
  command : cmd.command = some cdb
  data : cmd.data ≠ 0
  cdbBytes : op.cdbBytes ≤ cmd.cmdLength
  page :
    match op with
    | .inquiry => ServesInquiry ctrl cdb
    | .modeSense6 | .modeSense10 => servesModePage cdb
    | _ => True

variable {cdb : List Nat} {op : EmulatedOp}

theorem loadBe_one (bytes : List Nat) (pos : Nat) : loadBe bytes pos 1 = bytes.getD pos 0 := by
  simp [loadBe]

theorem length_inquiryStandardBytes : (inquiryStandardBytes ctrl).length = 44 := by
  unfold inquiryStandardBytes
  cases haveId ctrl with
  | none => rfl
  | some id =>
      have hm : (copyPadded id.model 16).length = 16 :=
        length_copyPadded (by rw [id.model_length]; decide)
      have hf : (copyPadded id.firmware 4).length = 4 :=
        length_copyPadded (by rw [id.firmware_length]; decide)
      have hs : (copyPadded id.serial 8).length = 8 :=
        length_copyPadded (by rw [id.serial_length]; decide)
      simp [vendorText, ascii, hm, hf, hs]

theorem length_vpdB0Bytes (c : Controller) : (vpdB0Bytes c unit).length = 64 := by
  unfold vpdB0Bytes
  cases unitSupportsDsm (some c) with
  | true => rfl
  | false => rfl

theorem length_capacity10Bytes : (capacity10Bytes unit).length = 8 := by
  simp [capacity10Bytes]

theorem length_capacity16Bytes : (capacity16Bytes unit).length = 15 := by
  simp [capacity16Bytes]

theorem scsiInquiry_answered (h : Answered ctrl cmd cdb .inquiry) :
    scsiInquiry ctrl unit mem cmd =
      some (emitted mem cmd (inquiryResponse ctrl unit cdb) (loadBe cdb 3 2)) := by
  have hlen : ¬cmd.cmdLength < 6 := Nat.not_lt.mpr h.cdbBytes
  have hpage : ServesInquiry ctrl cdb := h.page
  simp only [scsiInquiry, h.command, if_neg hlen, inquiryResponse]
  split_ifs with hevpd h00 hB0 hB2
  · rw [scsiInquiryStandard, if_neg h.data, inquiryData_eq, Option.bind_eq_bind, Option.bind_some]
    exact scsiEmitTo_holding length_inquiryStandardBytes (by decide)
  · rw [scsiInquiryVpd00, if_neg h.data, vpd00Page_eq, Option.bind_eq_bind, Option.bind_some]
    exact scsiEmitTo_holding rfl (by decide)
  · cases ctrl with
    | none =>
        obtain hp | hp | ⟨_, hp⟩ | hp := hpage
        · exact absurd hp hevpd
        · exact absurd hp h00
        · exact absurd rfl hp
        · rw [hB0] at hp
          exact absurd hp (by decide)
    | some c =>
        rw [scsiInquiryVpdB0, if_neg h.data, vpdB0Page_eq, Option.bind_eq_bind, Option.bind_some]
        exact scsiEmitTo_holding (length_vpdB0Bytes c) (by decide)
  · rw [scsiInquiryVpdB2, if_neg h.data, vpdB2Page_eq, Option.bind_eq_bind, Option.bind_some]
    exact scsiEmitTo_holding rfl (by decide)
  · obtain hp | hp | ⟨hp, _⟩ | hp := hpage
    · exact absurd hp hevpd
    · exact absurd hp h00
    · exact absurd hp hB0
    · exact absurd hp hB2

theorem scsiRequestSense_answered (h : Answered ctrl cmd cdb .requestSense) :
    scsiRequestSense mem cmd = some (emitted mem cmd requestSenseBytes (loadBe cdb 4 1)) := by
  have hlen : ¬cmd.cmdLength < 6 := Nat.not_lt.mpr h.cdbBytes
  rw [scsiRequestSense, if_neg h.data, h.command]
  simp only [if_neg hlen]
  rw [requestSenseData_eq, Option.bind_eq_bind, Option.bind_some, ← loadBe_one]
  exact scsiEmitTo_holding rfl (by decide)

theorem scsiModeSense_answered (h : Answered ctrl cmd cdb .modeSense6) :
    scsiModeSense unit mem cmd =
      some (emitted mem cmd (modeSense6Bytes (cdb.getD 2 0 % 64) (reportedBlockSize unit))
        (loadBe cdb 4 1)) := by
  have hlen : ¬cmd.cmdLength < 6 := Nat.not_lt.mpr h.cdbBytes
  have hpage : servesModePage cdb := h.page
  rw [scsiModeSense, if_neg h.data, h.command]
  simp only [if_neg hlen, if_neg (not_not_intro hpage)]
  rw [modeSense6Data_eq, Option.bind_eq_bind, Option.bind_some, loadBe_one]
  exact scsiEmitTo_holding rfl (length_modeSense6Bytes_le _ _)

theorem scsiModeSense10_answered (h : Answered ctrl cmd cdb .modeSense10) :
    scsiModeSense10 unit mem cmd =
      some (emitted mem cmd (modeSense10Bytes (cdb.getD 2 0 % 64) (reportedBlockSize unit))
        (loadBe cdb 7 2)) := by
  have hlen : ¬cmd.cmdLength < 10 := Nat.not_lt.mpr h.cdbBytes
  have hpage : servesModePage cdb := h.page
  rw [scsiModeSense10, if_neg h.data, h.command]
  simp only [if_neg hlen, if_neg (not_not_intro hpage)]
  rw [modeSense10Data_eq, Option.bind_eq_bind, Option.bind_some]
  exact scsiEmitTo_holding rfl (length_modeSense10Bytes_le _ _)

theorem readCapacity10_answered (h : Answered ctrl cmd cdb .readCapacity10) :
    readCapacity10 unit mem cmd = some (emitted mem cmd (capacity10Bytes unit) 8) := by
  rw [readCapacity10, if_neg h.data, capacity10Data_eq, Option.bind_eq_bind, Option.bind_some]
  exact scsiEmitTo_holding length_capacity10Bytes (by decide)

theorem readCapacity16_answered (h : Answered ctrl cmd cdb .readCapacity16) :
    readCapacity16 unit mem cmd =
      some (emitted mem cmd (capacity16Bytes unit) (loadBe cdb 10 4)) := by
  have hlen : ¬cmd.cmdLength < 16 := Nat.not_lt.mpr h.cdbBytes
  rw [readCapacity16, if_neg h.data, h.command]
  simp only [if_neg hlen]
  rw [capacity16Data_eq, Option.bind_eq_bind, Option.bind_some]
  exact scsiEmitTo_holding length_capacity16Bytes (by decide)

/-- What a command with the right arguments gets: its response, cut to what the
CDB and the caller's buffer allow. -/
theorem emulate_answered (h : Answered ctrl cmd cdb op) :
    emulate ctrl unit mem cmd op =
      some (emitted mem cmd (fullResponse ctrl unit cdb op)
        ((allocationLength op cdb).getD (fullResponse ctrl unit cdb op).length)) := by
  cases op with
  | requestSense => exact scsiRequestSense_answered h
  | inquiry => exact scsiInquiry_answered h
  | modeSense6 => exact scsiModeSense_answered h
  | modeSense10 => exact scsiModeSense10_answered h
  | readCapacity10 =>
      have hfull : (fullResponse ctrl unit cdb .readCapacity10).length = 8 :=
        length_capacity10Bytes
      simp only [allocationLength, EmulatedOp.allocationField, Option.map_none,
        Option.getD_none, hfull]
      exact readCapacity10_answered h
  | readCapacity16 => exact readCapacity16_answered h

/-- A handler that fails with an error, whatever is in memory, and leaves memory
alone. -/
def Refuses (run : CellMemory Nat → Option Emulated) : Prop :=
  ∃ error cmd, error ∈ [ioerrBadAddress, ioerrBadLength, ioerrNoCmd] ∧
    ∀ mem, run mem = some { error := error, cmd := cmd, memory := mem }

theorem Refuses.of_eq {run : CellMemory Nat → Option Emulated} {error : Int} {c : ScsiCmd}
    (herr : error ∈ [ioerrBadAddress, ioerrBadLength, ioerrNoCmd])
    (h : ∀ mem, run mem = refuse mem c error) : Refuses run :=
  ⟨error, c, herr, h⟩

theorem refusal_ne {error : Int} (h : error ∈ [ioerrBadAddress, ioerrBadLength, ioerrNoCmd]) :
    error ≠ 0 ∧ error ≠ nvmeIoAsync := by
  have hall : ∀ e ∈ [ioerrBadAddress, ioerrBadLength, ioerrNoCmd],
      e ≠ 0 ∧ e ≠ nvmeIoAsync := by
    decide
  exact hall error h

theorem scsiInquiry_refused (hcmd : cmd.command = some cdb)
    (h : ¬Answered ctrl cmd cdb .inquiry) :
    Refuses fun mem => scsiInquiry ctrl unit mem cmd := by
  by_cases hlen : cmd.cmdLength < 6
  · simp only [scsiInquiry, hcmd, if_pos hlen]
    exact .of_eq (by decide) fun _ => rfl
  have hno : cmd.data ≠ 0 → ¬ServesInquiry ctrl cdb :=
    fun hdata hserves => h ⟨hcmd, hdata, Nat.not_lt.mp hlen, hserves⟩
  simp only [scsiInquiry, hcmd, if_neg hlen]
  split_ifs with hevpd h00 hB0 hB2
  · have hdata : cmd.data = 0 := not_ne_iff.mp fun hd => hno hd (.inl hevpd)
    simp only [scsiInquiryStandard, if_pos hdata]
    exact .of_eq (by decide) fun _ => rfl
  · have hdata : cmd.data = 0 := not_ne_iff.mp fun hd => hno hd (.inr (.inl h00))
    simp only [scsiInquiryVpd00, if_pos hdata]
    exact .of_eq (by decide) fun _ => rfl
  · cases ctrl with
    | none => exact .of_eq (by decide) fun _ => rfl
    | some c =>
        have hdata : cmd.data = 0 :=
          not_ne_iff.mp fun hd => hno hd (.inr (.inr (.inl ⟨hB0, Option.some_ne_none c⟩)))
        simp only [scsiInquiryVpdB0, if_pos hdata]
        exact .of_eq (by decide) fun _ => rfl
  · have hdata : cmd.data = 0 := not_ne_iff.mp fun hd => hno hd (.inr (.inr (.inr hB2)))
    simp only [scsiInquiryVpdB2, if_pos hdata]
    exact .of_eq (by decide) fun _ => rfl
  · exact .of_eq (by decide) fun _ => rfl

theorem scsiRequestSense_refused (hcmd : cmd.command = some cdb)
    (h : ¬Answered ctrl cmd cdb .requestSense) :
    Refuses fun mem => scsiRequestSense mem cmd := by
  by_cases hdata : cmd.data = 0
  · simp only [scsiRequestSense, if_pos hdata]
    exact .of_eq (by decide) fun _ => rfl
  by_cases hlen : cmd.cmdLength < 6
  · simp only [scsiRequestSense, if_neg hdata, hcmd, if_pos hlen]
    exact .of_eq (by decide) fun _ => rfl
  · exact absurd ⟨hcmd, hdata, Nat.not_lt.mp hlen, trivial⟩ h

theorem scsiModeSense_refused (hcmd : cmd.command = some cdb)
    (h : ¬Answered ctrl cmd cdb .modeSense6) :
    Refuses fun mem => scsiModeSense unit mem cmd := by
  by_cases hdata : cmd.data = 0
  · simp only [scsiModeSense, if_pos hdata]
    exact .of_eq (by decide) fun _ => rfl
  by_cases hlen : cmd.cmdLength < 6
  · simp only [scsiModeSense, if_neg hdata, hcmd, if_pos hlen]
    exact .of_eq (by decide) fun _ => rfl
  have hpage : ¬servesModePage cdb := fun hp => h ⟨hcmd, hdata, Nat.not_lt.mp hlen, hp⟩
  simp only [scsiModeSense, if_neg hdata, hcmd, if_neg hlen, if_pos hpage]
  exact .of_eq (by decide) fun _ => rfl

theorem scsiModeSense10_refused (hcmd : cmd.command = some cdb)
    (h : ¬Answered ctrl cmd cdb .modeSense10) :
    Refuses fun mem => scsiModeSense10 unit mem cmd := by
  by_cases hdata : cmd.data = 0
  · simp only [scsiModeSense10, if_pos hdata]
    exact .of_eq (by decide) fun _ => rfl
  by_cases hlen : cmd.cmdLength < 10
  · simp only [scsiModeSense10, if_neg hdata, hcmd, if_pos hlen]
    exact .of_eq (by decide) fun _ => rfl
  have hpage : ¬servesModePage cdb := fun hp => h ⟨hcmd, hdata, Nat.not_lt.mp hlen, hp⟩
  simp only [scsiModeSense10, if_neg hdata, hcmd, if_neg hlen, if_pos hpage]
  exact .of_eq (by decide) fun _ => rfl

theorem readCapacity10_refused (hcmd : cmd.command = some cdb)
    (h : ¬Answered ctrl cmd cdb .readCapacity10) :
    Refuses fun mem => readCapacity10 unit mem cmd := by
  by_cases hdata : cmd.data = 0
  · simp only [readCapacity10, if_pos hdata]
    exact .of_eq (by decide) fun _ => rfl
  · exact absurd ⟨hcmd, hdata, Nat.zero_le _, trivial⟩ h

theorem readCapacity16_refused (hcmd : cmd.command = some cdb)
    (h : ¬Answered ctrl cmd cdb .readCapacity16) :
    Refuses fun mem => readCapacity16 unit mem cmd := by
  by_cases hdata : cmd.data = 0
  · simp only [readCapacity16, if_pos hdata]
    exact .of_eq (by decide) fun _ => rfl
  by_cases hlen : cmd.cmdLength < 16
  · simp only [readCapacity16, if_neg hdata, hcmd, if_pos hlen]
    exact .of_eq (by decide) fun _ => rfl
  · exact absurd ⟨hcmd, hdata, Nat.not_lt.mp hlen, trivial⟩ h

/-- What any other command gets: an error, and nothing written. -/
theorem emulate_refused (hcmd : cmd.command = some cdb) (h : ¬Answered ctrl cmd cdb op) :
    Refuses fun mem => emulate ctrl unit mem cmd op := by
  cases op with
  | requestSense => exact scsiRequestSense_refused hcmd h
  | inquiry => exact scsiInquiry_refused hcmd h
  | modeSense6 => exact scsiModeSense_refused hcmd h
  | modeSense10 => exact scsiModeSense10_refused hcmd h
  | readCapacity10 => exact readCapacity10_refused hcmd h
  | readCapacity16 => exact readCapacity16_refused hcmd h

/-! ### Exact prefixes -/

/-- Two CDBs that differ in their ALLOCATION LENGTH at most. -/
def SameButAllocation (op : EmulatedOp) (cdb cdb₁ : List Nat) : Prop :=
  ∀ i, (∀ f ∈ op.allocationField, i < f.1 ∨ f.1 + f.2 ≤ i) → cdb₁.getD i 0 = cdb.getD i 0

/-- A response was transferred in so far as the CDB and the caller's buffer
allow: that many bytes of it, and nothing else in memory. -/
structure ExactPrefix (full : List Nat) (alloc : Option Nat) (mem : CellMemory Nat)
    (cmd : ScsiCmd) (out : Emulated) : Prop where
  actual : out.cmd.actual = min (min full.length (alloc.getD full.length)) cmd.length
  written : ∀ i, i < out.cmd.actual → out.memory (cmd.data + i) = full[i]?
  untouched :
    ∀ a, a < cmd.data ∨ cmd.data + out.cmd.actual ≤ a → out.memory a = mem a

theorem emitted_exactPrefix (full : List Nat) (alloc : Option Nat) :
    ExactPrefix full alloc mem cmd (emitted mem cmd full (alloc.getD full.length)) := by
  have hactual : (emitted mem cmd full (alloc.getD full.length)).cmd.actual =
      min (min full.length (alloc.getD full.length)) cmd.length := rfl
  have hlen : (full.take (min (min full.length (alloc.getD full.length)) cmd.length)).length =
      min (min full.length (alloc.getD full.length)) cmd.length := by
    rw [List.length_take]
    omega
  constructor
  · exact hactual
  · intro i hi
    rw [hactual] at hi
    rw [← List.getElem?_take_of_lt hi]
    exact CellMemory.copy_map (by rw [hlen]; exact hi)
  · intro a ha
    rw [hactual] at ha
    exact CellMemory.copy_outside (by rw [List.length_map, hlen]; exact ha)

theorem Answered.same {cmd₁ : ScsiCmd} {cdb₁ : List Nat} (h : Answered ctrl cmd cdb op)
    (hcmd : cmd₁.command = some cdb₁) (hsame : SameButAllocation op cdb cdb₁)
    (hlen : cmd₁.cmdLength = cmd.cmdLength) (hdata : cmd₁.data ≠ 0) :
    Answered ctrl cmd₁ cdb₁ op := by
  refine ⟨hcmd, hdata, hlen ▸ h.cdbBytes, ?_⟩
  have hpage := h.page
  cases op with
  | inquiry =>
      have h₁ : cdb₁.getD 1 0 = cdb.getD 1 0 := hsame 1 (by simp [EmulatedOp.allocationField])
      have h₂ : cdb₁.getD 2 0 = cdb.getD 2 0 := hsame 2 (by simp [EmulatedOp.allocationField])
      simp only [ServesInquiry, h₁, h₂]
      exact hpage
  | modeSense6 =>
      have h₁ : cdb₁.getD 2 0 = cdb.getD 2 0 := hsame 2 (by simp [EmulatedOp.allocationField])
      have h₂ : cdb₁.getD 3 0 = cdb.getD 3 0 := hsame 3 (by simp [EmulatedOp.allocationField])
      simp only [servesModePage, h₁, h₂]
      exact hpage
  | modeSense10 =>
      have h₁ : cdb₁.getD 2 0 = cdb.getD 2 0 := hsame 2 (by simp [EmulatedOp.allocationField])
      have h₂ : cdb₁.getD 3 0 = cdb.getD 3 0 := hsame 3 (by simp [EmulatedOp.allocationField])
      simp only [servesModePage, h₁, h₂]
      exact hpage
  | requestSense => trivial
  | readCapacity10 => trivial
  | readCapacity16 => trivial

/-- The ALLOCATION LENGTH has no part in a full response. -/
theorem fullResponse_same {cdb₁ : List Nat} (hsame : SameButAllocation op cdb cdb₁) :
    fullResponse ctrl unit cdb₁ op = fullResponse ctrl unit cdb op := by
  cases op with
  | inquiry =>
      have h₁ : cdb₁.getD 1 0 = cdb.getD 1 0 := hsame 1 (by simp [EmulatedOp.allocationField])
      have h₂ : cdb₁.getD 2 0 = cdb.getD 2 0 := hsame 2 (by simp [EmulatedOp.allocationField])
      simp only [fullResponse, inquiryResponse, h₁, h₂]
  | modeSense6 =>
      have h₁ : cdb₁.getD 2 0 = cdb.getD 2 0 := hsame 2 (by simp [EmulatedOp.allocationField])
      simp only [fullResponse, h₁]
  | modeSense10 =>
      have h₁ : cdb₁.getD 2 0 = cdb.getD 2 0 := hsame 2 (by simp [EmulatedOp.allocationField])
      simp only [fullResponse, h₁]
  | requestSense => rfl
  | readCapacity10 => rfl
  | readCapacity16 => rfl

/-- Every response is short enough for a one-byte ALLOCATION LENGTH. -/
theorem length_fullResponse_le : (fullResponse ctrl unit cdb op).length ≤ 64 := by
  cases op with
  | requestSense => exact Nat.le_of_ble_eq_true rfl
  | inquiry =>
      simp only [fullResponse, inquiryResponse]
      split_ifs
      · rw [length_inquiryStandardBytes]
        omega
      · exact Nat.le_of_ble_eq_true rfl
      · cases ctrl with
        | none => exact Nat.zero_le _
        | some c => exact (length_vpdB0Bytes c).le
      · exact Nat.le_of_ble_eq_true rfl
  | modeSense6 =>
      have hle := length_modeSense6Bytes_le (cdb.getD 2 0 % 64) (reportedBlockSize unit)
      exact hle.trans (by decide)
  | modeSense10 =>
      have hle := length_modeSense10Bytes_le (cdb.getD 2 0 % 64) (reportedBlockSize unit)
      exact hle.trans (by decide)
  | readCapacity10 => exact length_capacity10Bytes.le.trans (by decide)
  | readCapacity16 => exact length_capacity16Bytes.le.trans (by decide)

/-- The same command again, with no limit below `n` on what it may transfer. -/
structure Unlimited (op : EmulatedOp) (cmd : ScsiCmd) (cdb : List Nat) (n : Nat)
    (cmd₁ : ScsiCmd) (cdb₁ : List Nat) : Prop where
  command : cmd₁.command = some cdb₁
  same : SameButAllocation op cdb cdb₁
  cdbLength : cmd₁.cmdLength = cmd.cmdLength
  data : cmd₁.data ≠ 0
  room : n ≤ cmd₁.length
  allocation : ∀ a, allocationLength op cdb₁ = some a → n ≤ a

/-- Every emulated command returns without leaving its local array.  One that
succeeds has transferred a prefix of what it gets without limits, as long as
both of its limits allow; one that fails has written nothing. -/
theorem emulate_exact_prefix (hcmd : cmd.command = some cdb) :
    ∃ out, emulate ctrl unit mem cmd op = some out ∧
      (out.error ≠ 0 → out.memory = mem) ∧
      (out.error = 0 →
        ExactPrefix (fullResponse ctrl unit cdb op) (allocationLength op cdb) mem cmd out ∧
        (fullResponse ctrl unit cdb op).length < 256 ∧
        ∀ mem₁ cmd₁ cdb₁,
          Unlimited op cmd cdb (fullResponse ctrl unit cdb op).length cmd₁ cdb₁ →
          ∃ out₁, emulate ctrl unit mem₁ cmd₁ op = some out₁ ∧ out₁.error = 0 ∧
            out₁.cmd.actual = (fullResponse ctrl unit cdb op).length ∧
            ∀ i, i < out₁.cmd.actual →
              out₁.memory (cmd₁.data + i) = (fullResponse ctrl unit cdb op)[i]?) := by
  by_cases h : Answered ctrl cmd cdb op
  · refine ⟨_, emulate_answered h, fun herr => absurd rfl herr, fun _ => ⟨?_, ?_, ?_⟩⟩
    · exact emitted_exactPrefix _ _
    · exact Nat.lt_of_le_of_lt length_fullResponse_le (by decide)
    · intro mem₁ cmd₁ cdb₁ hun
      have hagain : Answered ctrl cmd₁ cdb₁ op :=
        h.same hun.command hun.same hun.cdbLength hun.data
      have hfull : fullResponse ctrl unit cdb₁ op = fullResponse ctrl unit cdb op :=
        fullResponse_same hun.same
      have hexact :
          ExactPrefix (fullResponse ctrl unit cdb₁ op) (allocationLength op cdb₁) mem₁ cmd₁ _ :=
        emitted_exactPrefix _ _
      have hactual := hexact.actual
      have halloc : (fullResponse ctrl unit cdb op).length ≤
          (allocationLength op cdb₁).getD (fullResponse ctrl unit cdb op).length := by
        cases ha : allocationLength op cdb₁ with
        | none => exact Nat.le_refl _
        | some a => exact hun.allocation a ha
      have hroom := hun.room
      rw [hfull] at hactual hexact
      rw [Nat.min_eq_left halloc, Nat.min_eq_left hroom] at hactual
      refine ⟨_, emulate_answered hagain, rfl, ?_⟩
      rw [hfull]
      exact ⟨hactual, hexact.written⟩
  · obtain ⟨error, c, herr, hrun⟩ := emulate_refused hcmd h
    exact ⟨_, hrun mem, fun _ => rfl, fun h₀ => absurd h₀ (refusal_ne herr).1⟩

/-- INQUIRY for 36 bytes of standard data, into a larger buffer. -/
def inquiryCmd : ScsiCmd :=
  { data := 0x1000, payload := [], length := 255, flagRead := true, flagAutosense := false
    command := some [0x12, 0, 0, 0, 36, 0], cmdLength := 6, hasSenseData := false
    senseLength := 0, response := [], actual := 0, cmdActual := 0, status := 0
    senseActual := 0, sense := none }

theorem emulate_exact_prefix_inquiry :
    ∃ out, emulate none (Namespace.unitOfInfo 2048 0 (Namespace.plainInfo 1 0x200000 9))
        (fun _ => none) inquiryCmd .inquiry = some out ∧ out.error = 0 ∧
      ExactPrefix (inquiryStandardBytes none) (some 36) (fun _ => none) inquiryCmd out := by
  have hcmd : inquiryCmd.command = some [0x12, 0, 0, 0, 36, 0] := rfl
  have herror : (emulate none (Namespace.unitOfInfo 2048 0 (Namespace.plainInfo 1 0x200000 9))
      (fun _ => none) inquiryCmd .inquiry).map Emulated.error = some 0 := by
    decide +kernel
  have hzero : ∀ out, emulate none
      (Namespace.unitOfInfo 2048 0 (Namespace.plainInfo 1 0x200000 9)) (fun _ => none)
      inquiryCmd .inquiry = some out → out.error = 0 := by
    intro out hrun
    rw [hrun] at herror
    exact Option.some.inj herror
  exact Exists.imp (fun out h => ⟨h.1, hzero out h.1, (h.2.2 <| hzero out h.1).1⟩) <|
    emulate_exact_prefix hcmd

/-! ### In the engine -/

/-- The handlers as the engine calls them: it keeps no caller memory. -/
def emulateFor (ctrl : Option Controller) (unit : NVMeUnit) (cmd : ScsiCmd) : Int × ScsiCmd :=
  match cmd.command.bind emulatedOp with
  | some op =>
      match emulate ctrl unit (fun _ => none) cmd op with
      | some out => (out.error, out.cmd)
      | none => (ioerrNoCmd, cmd)
  | none => (ioerrNoCmd, cmd)

/-- What a handler does to the command has nothing to do with memory. -/
theorem emulate_memory (hcmd : cmd.command = some cdb) :
    ∃ error c, error ≠ nvmeIoAsync ∧ ∀ mem, ∃ mem₁,
      emulate ctrl unit mem cmd op = some { error := error, cmd := c, memory := mem₁ } := by
  by_cases h : Answered ctrl cmd cdb op
  · exact ⟨0, _, by decide, fun mem => ⟨_, emulate_answered h⟩⟩
  · obtain ⟨error, c, herr, hrun⟩ := emulate_refused hcmd h
    exact ⟨error, c, (refusal_ne herr).2, fun mem => ⟨mem, hrun mem⟩⟩

theorem emulateFor_eq (hcmd : cmd.command = some cdb) (hop : emulatedOp cdb = some op) :
    ∃ out, emulate ctrl unit mem cmd op = some out ∧
      emulateFor ctrl unit cmd = (out.error, out.cmd) := by
  obtain ⟨error, c, _, hrun⟩ := emulate_memory hcmd
  obtain ⟨mem₁, hout⟩ := hrun mem
  obtain ⟨mem₂, hbare⟩ := hrun fun _ => none
  refine ⟨_, hout, ?_⟩
  simp only [emulateFor, hcmd, Option.bind_some, hop, hbare]

theorem readCapacity10_eq (unit : NVMeUnit) (cmd : ScsiCmd) :
    (readCapacity10 unit mem cmd).map (fun out => (out.error, out.cmd)) =
      some (Namespace.scsiReadCapacity10 unit cmd) := by
  unfold readCapacity10 Namespace.scsiReadCapacity10
  by_cases hdata : cmd.data = 0
  · rw [if_pos hdata, if_pos hdata]
    rfl
  · rw [if_neg hdata, if_neg hdata, capacity10Data_eq, Option.bind_eq_bind, Option.bind_some,
      scsiEmitTo_holding length_capacity10Bytes (Nat.le_refl _)]
    rfl

theorem readCapacity16_eq (unit : NVMeUnit) (cmd : ScsiCmd) :
    (readCapacity16 unit mem cmd).map (fun out => (out.error, out.cmd)) =
      some (Namespace.scsiReadCapacity16 unit cmd) := by
  unfold readCapacity16 Namespace.scsiReadCapacity16
  by_cases hdata : cmd.data = 0
  · rw [if_pos hdata, if_pos hdata]
    rfl
  rw [if_neg hdata, if_neg hdata]
  cases cmd.command with
  | none => rfl
  | some cdb =>
      dsimp only
      by_cases hlen : cmd.cmdLength < 16
      · rw [if_pos hlen, if_pos hlen]
        rfl
      · rw [if_neg hlen, if_neg hlen, capacity16Data_eq, Option.bind_eq_bind, Option.bind_some,
          scsiEmitTo_holding length_capacity16Bytes (Nat.le_refl _)]
        rfl

/-- The switch of `handle_scsi_cmd` answers an emulated command as its handler
does, and the driver is left as it was. -/
theorem scsiSwitch_emulates {env : Engine.Env} {s : Engine.State} {u io : Nat}
    (henv : env.emulate = emulateFor ctrl) (hcmd : cmd.command = some cdb)
    (hop : emulatedOp cdb = some op) :
    ∃ out, emulate ctrl (env.units u) mem cmd op = some out ∧
      Engine.scsiSwitch env s u io cmd cdb = (s, out.error, out.cmd) := by
  obtain ⟨out, hrun, hfor⟩ := @emulateFor_eq mem cmd ctrl (env.units u) cdb op hcmd hop
  refine ⟨out, hrun, ?_⟩
  have hlocal : ∀ k, cdb.getD 0 0 = k → k ≠ 0x00 → Engine.scsiEmulated k = true →
      Engine.scsiSwitch env s u io cmd cdb = (s, out.error, out.cmd) := by
    intro k hk hne hem
    subst hk
    rw [Engine.scsiSwitch, if_neg hne, if_pos hem, henv, hfor]
  simp only [emulatedOp] at hop
  split_ifs at hop with h03 h12 h1A h5A h25 h9E <;> cases hop
  · exact hlocal 0x03 h03 (by decide) rfl
  · exact hlocal 0x12 h12 (by decide) rfl
  · exact hlocal 0x1A h1A (by decide) rfl
  · exact hlocal 0x5A h5A (by decide) rfl
  · have hcap := @readCapacity10_eq mem (env.units u) cmd
    rw [show readCapacity10 (env.units u) mem cmd = some out from hrun, Option.map_some,
      Option.some_inj] at hcap
    simp only [Engine.scsiSwitch, h25]
    rw [if_neg (by decide), if_neg (by decide), if_pos trivial, ← hcap]
  · have hcap := @readCapacity16_eq mem (env.units u) cmd
    rw [show readCapacity16 (env.units u) mem cmd = some out from hrun, Option.map_some,
      Option.some_inj] at hcap
    simp only [Engine.scsiSwitch, h9E]
    rw [if_neg (by decide), if_neg (by decide), if_neg (by decide),
      if_pos trivial, ← hcap]

end Scsi
end NvmeDriver
