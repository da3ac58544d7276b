import NvmeDriver.Lib.PageSegments

/-!
# PRP lists: `build_prps` and the controller's walk

`build_prps` (nvme_io.c) lays PRP1, PRP2 and a chained PRP list for one
contiguous buffer.  The list pages come from a slab that is not part of this
repository, so the `k`-th `slab_alloc` of a call is a parameter
`slab : Nat → Option Nat` (the page address, or `none` on exhaustion), and
`SlabContract` states what the slab promises.

Host memory is a function from byte addresses to the 64-bit word stored there;
only words at list-entry addresses are ever written.  Entries are stored and
read as little-endian words on both sides, so the values are kept in host order.

The second half of the module is the other side of the interface: how a
controller decodes `(prp1, prp2)` for a given number of bytes.
-/

namespace NvmeDriver
namespace Prp

open Lib

/-- `NVME_CTRL_PAGE_SIZE`. -/
def pageSize : Nat := 4096

/-- `NVME_PRP_ENTRIES_PER_PAGE`. -/
def entriesPerPage : Nat := 512

/-- `NVME_SMALL_POOL_SIZE`. -/
def smallPoolSize : Nat := 256

/-- `NVME_SMALL_POOL_ENTRIES`. -/
def smallPoolEntries : Nat := smallPoolSize / 8

/-- Capacity of `req->prp_pages[]`. -/
def maxListPages : Nat := 8

/-- Host memory, by the byte address of each 64-bit word. -/
abbrev Memory := Nat → Nat

/-- `memset(list, 0, list_bytes)`. -/
def Memory.zero (mem : Memory) (p n : Nat) : Memory :=
  fun a => if p ≤ a ∧ a < p + n then 0 else mem a

/-- Store one list entry. -/
def Memory.store (mem : Memory) (a v : Nat) : Memory :=
  fun b => if b = a then v else mem b

@[simp] theorem Memory.store_same (mem : Memory) (a v : Nat) :
    mem.store a v a = v := by
  simp [Memory.store]

theorem Memory.store_other (mem : Memory) {a b : Nat} (v : Nat)
    (h : b ≠ a) :
    mem.store a v b = mem b := by
  simp [Memory.store, h]

theorem Memory.zero_other (mem : Memory) {p n a : Nat}
    (h : a < p ∨ p + n ≤ a) :
    mem.zero p n a = mem a := by
  have : ¬(p ≤ a ∧ a < p + n) := by omega
  simp [Memory.zero, this]

/-- Local state of the list-building loop: the list page being filled
(`list`), the next slot in it (`list_pos`) and what the loop has written. -/
structure ListCursor where
  mem : Memory
  pages : List Nat
  prp2 : Nat
  list : Option Nat
  listPos : Nat

/-- What `build_prps` leaves in the request, and its return value. -/
structure PrpSetup where
  /-- the return value is 0 -/
  ok : Bool
  prp1 : Nat
  prp2 : Nat
  /-- `prp_pages[0 .. prp_page_count)` -/
  prpPages : List Nat
  /-- `NVME_REQ_PRP_LIST | NVME_REQ_PRP_SLAB` set -/
  prpList : Bool
  /-- `NVME_REQ_PRP_SMALL` set -/
  prpSmall : Bool
  mem : Memory
  /-- pages handed back by `free_lists`, in order -/
  freed : List Nat

/-- The `if (list == NULL)` block: take the next list page and chain it. -/
def nextListPage
    (slab : Nat → Option Nat) (listBytes : Nat) (c : ListCursor) :
    Option (Nat × ListCursor) :=
  match c.list with
  | some l => some (l, c)
  | none =>
      if maxListPages ≤ c.pages.length then none
      else
        match slab c.pages.length with
        | none => none
        | some p =>
            let mem := c.mem.zero p listBytes
            match c.pages.getLast? with
            | none =>
                some (p, { c with
                  mem := mem, pages := [p], prp2 := p,
                  list := some p, listPos := 0 })
            | some prev =>
                some (p, { c with
                  mem := mem.store (prev + 8 * (entriesPerPage - 1)) p
                  pages := c.pages ++ [p]
                  list := some p, listPos := 0 })

/-- `list[list_pos++] = le64(entry_addr)`. -/
def putEntry (c : ListCursor) (l entry : Nat) : ListCursor :=
  { c with
    mem := c.mem.store (l + 8 * c.listPos) entry
    listPos := c.listPos + 1 }

/-- The loop over `page_idx`; `n` counts the turns left. -/
def buildPrpsLoop
    (slab : Nat → Option Nat) (base nr listBytes : Nat) :
    Nat → Nat → ListCursor → ListCursor × Bool
  | 0, _, c => (c, true)
  | n + 1, idx, c =>
      match nextListPage slab listBytes c with
      | none => (c, false)
      | some (l, c₁) =>
          let c₂ := putEntry c₁ l (base + idx * pageSize)
          if c₂.listPos = entriesPerPage - 1 ∧ idx + 1 < nr then
            buildPrpsLoop slab base nr listBytes n (idx + 1)
              { c₂ with list := none }
          else if c₂.listPos = entriesPerPage then (c₂, true)
          else buildPrpsLoop slab base nr listBytes n (idx + 1) c₂

/-- `nr_data_pages`: the pages past the first one, in 32-bit arithmetic. -/
def nrDataPages (remain : Nat) : Nat :=
  (remain + pageSize - 1) % 2 ^ 32 / pageSize

/-- `build_prps(req, buffer, bytes)`.  `prp2₀` is the value of PRP2 in the
command on entry; `smallSlab` and `largeSlab` are the two PRP slabs. -/
def buildPrps
    (smallSlab largeSlab : Nat → Option Nat)
    (mem : Memory) (prp2₀ buffer bytes : Nat) : PrpSetup :=
  let first := pageLeft pageSize buffer
  if bytes ≤ first then
    { ok := true, prp1 := buffer, prp2 := 0, prpPages := []
      prpList := false, prpSmall := false, mem := mem, freed := [] }
  else
    let nr := nrDataPages (bytes - first)
    if nr = 1 then
      { ok := true, prp1 := buffer, prp2 := buffer + first, prpPages := []
        prpList := false, prpSmall := false, mem := mem, freed := [] }
    else
      let small : Bool := decide (nr ≤ smallPoolEntries)
      let slab := if small then smallSlab else largeSlab
      let listBytes := if small then smallPoolSize else pageSize
      let r := buildPrpsLoop slab (buffer + first) nr listBytes nr 0
        { mem := mem, pages := [], prp2 := prp2₀, list := none, listPos := 0 }
      if r.2 then
        { ok := true, prp1 := buffer, prp2 := r.1.prp2
          prpPages := r.1.pages, prpList := true, prpSmall := small
          mem := r.1.mem, freed := [] }
      else
        { ok := false, prp1 := buffer, prp2 := r.1.prp2
          prpPages := [], prpList := false, prpSmall := false
          mem := r.1.mem, freed := r.1.pages.reverse }

/-- What the slab promises for the pages of one request: aligned, pairwise
distinct, and apart from the caller's buffer. -/
structure SlabContract
    (slab : Nat → Option Nat) (size buffer bytes : Nat) : Prop where
  aligned : ∀ k p, slab k = some p → p % size = 0
  distinct : ∀ j k p, slab j = some p → slab k = some p → j = k
  apart : ∀ k p, slab k = some p →
    p + size ≤ buffer ∨ buffer + bytes ≤ p

/-! ### The controller's side -/

/-- One memory access of the controller while it executes a command. -/
inductive Access
  | fetch (addr : Nat)
  | transfer (addr len : Nat)
deriving DecidableEq, Repr

/-- Data segments of a walk, in order. -/
def transfers : List Access → List (Nat × Nat)
  | [] => []
  | .fetch _ :: w => transfers w
  | .transfer a n :: w => (a, n) :: transfers w

/-- List entries the walk reads. -/
def fetches : List Access → List Nat
  | [] => []
  | .fetch a :: w => a :: fetches w
  | .transfer _ _ :: w => fetches w

/-- Walk a PRP list from the entry at `e` with `left` bytes still to be
described.  The entry in the last slot of a page is a chain pointer exactly
when more than one page of data is left. -/
def walkList (mem : Memory) : Nat → Nat → Nat → List Access
  | 0, _, _ => []
  | fuel + 1, e, left =>
      if left = 0 then []
      else if e % pageSize = pageSize - 8 ∧ pageSize < left then
        .fetch e :: walkList mem fuel (mem e) left
      else
        .fetch e :: .transfer (mem e) (min pageSize left) ::
          walkList mem fuel (e + 8) (left - pageSize)

/-- The controller's walk of `(prp1, prp2)` for `bytes` bytes. -/
def walk (mem : Memory) (prp1 prp2 bytes : Nat) : List Access :=
  let first := pageLeft pageSize prp1
  if bytes = 0 then []
  else if bytes ≤ first then [.transfer prp1 bytes]
  else
    .transfer prp1 first ::
      (if bytes - first ≤ pageSize then [.transfer prp2 (bytes - first)]
       else walkList mem bytes prp2 (bytes - first))

/-- The walk moves exactly the page segments of the buffer, in order, and
reads list entries from the request's own list pages only. -/
def WalksBuffer
    (w : List Access) (pages : List Nat) (listBytes buffer bytes : Nat) :
    Prop :=
  transfers w = pageSegments pageSize buffer bytes ∧
    ∀ a, a ∈ fetches w → ∃ p, p ∈ pages ∧ p ≤ a ∧ a + 8 ≤ p + listBytes

end Prp
end NvmeDriver
