import Mathlib.Tactic

/-!
# Numeric constants

Error codes, status fields, opcodes and limits, under the sources' names.
Amiga `BYTE` results are integers; NVMe status words, opcodes and sizes are
natural numbers.
-/

namespace NvmeDriver

/-! ### Results of a dispatch (`exec/errors.h`, `devices/trackdisk.h`) -/

def ioerrOpenFail : Int := -1
def ioerrAborted : Int := -2
def ioerrNoCmd : Int := -3
def ioerrBadLength : Int := -4
def ioerrBadAddress : Int := -5
def ioerrUnitBusy : Int := -6
def ioerrSelfTest : Int := -7
def tderrNotSpecified : Int := 20
def tderrDiskChanged : Int := 29
def tderrBadUnitNum : Int := 32

/-- `NVME_IO_ASYNC`: submitted; the reply comes from the completion path. -/
def nvmeIoAsync : Int := 1

/-! ### Completion status -/

def nvmeScInvalidNs : Nat := 0xb
def nvmeScLbaRange : Nat := 0x80
def nvmeScCapExceeded : Nat := 0x81
def nvmeScHostPathError : Nat := 0x370
def nvmeScHostAbortedCmd : Nat := 0x371

/-- `status & NVME_SC_MASK`. -/
def statusCode (status : Nat) : Nat := status % 0x100

/-- `(status & NVME_SCT_MASK) >> 8`. -/
def statusCodeType (status : Nat) : Nat := status / 0x100 % 8

/-- `status & NVME_SCT_SC_MASK`. -/
def statusSctSc (status : Nat) : Nat := status % 0x800

/-- `(status & NVME_STATUS_CRD) >> 11`. -/
def statusCrd (status : Nat) : Nat := status / 0x800 % 4

/-- `(status & NVME_STATUS_DNR) != 0`. -/
def statusDnr (status : Nat) : Bool := status / 0x4000 % 2 == 1

/-! ### Opcodes -/

def nvmeCmdFlush : Nat := 0x00
def nvmeCmdWrite : Nat := 0x01
def nvmeCmdRead : Nat := 0x02
def nvmeCmdWriteZeroes : Nat := 0x08
def nvmeCmdDsm : Nat := 0x09

def nvmeAdminCreateSq : Nat := 0x01
def nvmeAdminGetLogPage : Nat := 0x02
def nvmeAdminCreateCq : Nat := 0x05
def nvmeAdminAbortCmd : Nat := 0x08
def nvmeAdminSetFeatures : Nat := 0x09
def nvmeAdminAsyncEvent : Nat := 0x0c

/-! ### Limits and timeouts -/

def nvmeMaxRetries : Nat := 5
def nvmeMaxInflightPerIo : Nat := 16
def nvmeDsmMaxRanges : Nat := 256
def nvmeAdminQueueSize : Nat := 64
def nvmeIoQueueSize : Nat := 256
def nvmeIoTimeout : Nat := 30000
def nvmeAdminTimeout : Nat := 60000
def nvmeAbortTimeout : Nat := 15000

end NvmeDriver
