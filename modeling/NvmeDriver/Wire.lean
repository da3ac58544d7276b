import NvmeDriver.Engine.Completion

/-!
# Commands on the wire

The host is big-endian and the controller reads little-endian.  `le16` swaps the two
bytes of a field; `command_id` is stored as it is, since the controller only hands it
back, and the driver reads it back the same way (nvme_defs.h, nvme_queue.c).
-/

namespace NvmeDriver
namespace Engine

/-- `le16` on a big-endian host. -/
def le16 (v : Nat) : Nat := v % 256 * 256 + v / 256 % 256

/-- A 16-bit member as a big-endian host stores it. -/
def storeU16 (v : Nat) : List Nat := [v / 256 % 256, v % 256]

/-- The 16-bit value a controller reads at an offset. -/
def decodeU16 (bytes : List Nat) (pos : Nat) : Nat :=
  bytes.getD pos 0 + bytes.getD (pos + 1) 0 * 256

/-- The first dword of every SQE: opcode, flags, `command_id`. -/
def sqeHead (opcode flags commandId : Nat) : List Nat :=
  [opcode % 256, flags % 256] ++ storeU16 commandId

/-- The SQE of a request: `body` is what follows the first dword. -/
def sqeBytes (r : Request) (flags : Nat) (body : List Nat) : List Nat :=
  sqeHead r.cmd.opcode flags r.cmd.commandId ++ body

/-- The command `nvme_submit_abort_sqe` stages. -/
def abortCommand (q : QueueId) (cid : Nat) : Command :=
  { opcode := nvmeAdminAbortCmd, cdw10 := cid * 2 ^ 16 + q.qid }

/-- `struct nvme_abort_cmd`: `sqid` and `cid` at bytes 40 and 42, both through `le16`. -/
def abortBytes (cmd : Command) : List Nat :=
  sqeHead cmd.opcode 0 cmd.commandId ++ List.replicate 36 0 ++
    storeU16 (le16 (cmd.cdw10 % 2 ^ 16)) ++ storeU16 (le16 (cmd.cdw10 / 2 ^ 16)) ++
    List.replicate 20 0

/-- `nvme_abort_request`. -/
def nvmeAbortRequest (env : Env) (s : State) (r : Request) : State × Int :=
  nvmeSubmitAbortSqe env s r.q r.cid

/-- The Command Identifier a controller reads in an SQE. -/
def decodedCid (bytes : List Nat) : Nat := decodeU16 bytes 2

/-- The Command Identifier and the Submission Queue Identifier it reads in an Abort. -/
def decodedAbort (bytes : List Nat) : Nat × Nat := (decodeU16 bytes 42, decodeU16 bytes 40)

section Decoding

variable {v : Nat}

theorem nvmeAbortRequest_eq (env : Env) (s : State) (r : Request) :
    nvmeAbortRequest env s r =
      nvmeSubmitAsyncCmd env s (abortCommand r.q r.cid) none .abortDone none false := rfl

/-- A field that went through `le16` is read as the value that was meant. -/
theorem decode_le16 (hv : v < 2 ^ 16) :
    le16 v / 256 % 256 + le16 v % 256 * 256 = v := by
  have hlow : le16 v % 256 = v / 256 % 256 := by
    simp only [le16]
    omega
  have hhigh : le16 v / 256 = v % 256 := by
    simp only [le16]
    omega
  omega

/-- The controller reads `command_id` with its bytes swapped. -/
theorem decodedCid_sqeBytes (r : Request) (flags : Nat) (body : List Nat) :
    decodedCid (sqeBytes r flags body) = le16 r.cmd.commandId := by
  change r.cmd.commandId / 256 % 256 + r.cmd.commandId % 256 * 256 = _
  unfold le16
  omega

/-- The controller reads the Abort as the driver means it. -/
theorem decodedAbort_abortBytes (q : QueueId) (own : Nat) {cid : Nat} (hcid : cid < 2 ^ 16) :
    decodedAbort (abortBytes { abortCommand q cid with commandId := own }) = (cid, q.qid) := by
  have hqid : q.qid < 2 ^ 16 := by
    cases q <;> decide
  have hlow : (cid * 2 ^ 16 + q.qid) % 2 ^ 16 = q.qid := by omega
  have hhigh : (cid * 2 ^ 16 + q.qid) / 2 ^ 16 = cid := by omega
  have hsq := decode_le16 hqid
  have hc := decode_le16 hcid
  change (le16 ((cid * 2 ^ 16 + q.qid) / 2 ^ 16) / 256 % 256 +
      le16 ((cid * 2 ^ 16 + q.qid) / 2 ^ 16) % 256 * 256,
    le16 ((cid * 2 ^ 16 + q.qid) % 2 ^ 16) / 256 % 256 +
      le16 ((cid * 2 ^ 16 + q.qid) % 2 ^ 16) % 256 * 256) = (cid, q.qid)
  rw [hlow, hhigh, hsq, hc]

/-- A value is its own swap if its two bytes are equal. -/
theorem le16_eq_self_iff (hv : v < 2 ^ 16) : v = le16 v ↔ v / 256 = v % 256 := by
  unfold le16
  omega

end Decoding

end Engine
end NvmeDriver
