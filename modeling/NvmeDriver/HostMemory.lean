import NvmeDriver.Constants
import NvmeDriver.Lib.Halves

/-!
# The host memory buffer

`nvme_alloc_host_mem` gathers memory for the controller to work in: one block of the
preferred size, or chunks that halve whenever the pool refuses one.  Its bookkeeping is in
bytes and its descriptors are in pages, which agree as long as the chunks are whole pages.
Below 16 MiB the chunks are fractions of the preferred size and need not be.
-/

namespace NvmeDriver
namespace HostMemory

open Lib

/-! ### Data -/

/-- `NVME_CTRL_PAGE_SIZE`. -/
def nvmeCtrlPageSize : Nat := 4096

def nvmeMaxHmbBytes : Nat := 128 * 1024 * 1024

def nvmeHmbStartChunk : Nat := 16 * 1024 * 1024

def nvmeHmbMinChunk : Nat := 8 * 1024

def nvmeFeatHostMemBuf : Nat := 0x0d

def nvmeHostMemEnable : Nat := 1

/-- `sizeof(struct nvme_host_mem_buf_desc)`. -/
def sizeofHostMemBufDesc : Nat := 16

/-- `struct nvme_host_mem_buf_desc`; the size is in pages. -/
structure HostMemBufDesc where
  addr : Nat := 0
  size : Nat := 0
  rsvd : Nat := 0
deriving DecidableEq, Repr

/-- What Identify Controller says about the buffer. -/
structure HmbNeeds where
  hmpre : UInt32
  hmmin : UInt32
  hmminds : UInt32
  hmmaxd : UInt16

/-- An address `dma_alloc` returns. -/
structure Pointer where
  addr : UInt32
  nonnull : addr ≠ 0

/-- The Set Features command of `nvme_set_host_mem`. -/
structure FeaturesCommand where
  opcode : Nat
  fid : Nat
  dword11 : Nat
  dword12 : Nat
  dword13 : Nat
  dword14 : Nat
  dword15 : Nat
deriving DecidableEq, Repr

/-- What the code does to the pool, the caches and the controller. -/
inductive HmbStep
  | alloc (addr bytes : Nat)
  | free (addr : Nat)
  | cacheFlush (addr bytes : Nat)
  | setFeatures (cmd : FeaturesCommand)
deriving DecidableEq, Repr

/-- The part of `struct NVMeController` that describes the buffer, the descriptor table it
points to, how often the pool was asked, and what was done, oldest first. -/
structure HmbCtrl where
  hmbDescs : Option Nat := none
  hmbNrDescs : Nat := 0
  hmbSize : Nat := 0
  table : List HostMemBufDesc := []
  calls : Nat := 0
  log : List HmbStep := []
deriving DecidableEq, Repr

namespace HmbCtrl

def logStep (c : HmbCtrl) (e : HmbStep) : HmbCtrl := { c with log := c.log ++ [e] }

/-- `dma_alloc`; `alloc` tells what the pool answers to each call. -/
def dmaAlloc (alloc : Nat → Option Pointer) (c : HmbCtrl) (bytes : Nat) :
    Option Nat × HmbCtrl :=
  match alloc c.calls with
  | none => (none, { c with calls := c.calls + 1 })
  | some p =>
      (some p.addr.toNat,
        { c with calls := c.calls + 1, log := c.log ++ [.alloc p.addr.toNat bytes] })

end HmbCtrl

/-! ### The code -/

/-- `floor` of `nvme_alloc_host_mem`. -/
def hmbFloor (needs : HmbNeeds) : Nat :=
  let hmmindsBytes := needs.hmminds.toNat * nvmeCtrlPageSize
  if nvmeHmbMinChunk < hmmindsBytes then hmmindsBytes else nvmeHmbMinChunk

/-- `hmmaxd_cap`. -/
def hmmaxdCap (needs : HmbNeeds) (preferred : Nat) : Nat :=
  if needs.hmmaxd.toNat ≠ 0 then needs.hmmaxd.toNat
  else (preferred + hmbFloor needs - 1) / hmbFloor needs % 2 ^ 32

/-- `hmb_chunks_free`. -/
def hmbChunksFree (c : HmbCtrl) : HmbCtrl :=
  match c.hmbDescs with
  | none => { c with hmbNrDescs := 0, hmbSize := 0 }
  | some descs =>
      let freed := (c.table.take c.hmbNrDescs).foldl (fun c d =>
        if d.addr % 2 ^ 32 ≠ 0 then c.logStep (.free (d.addr % 2 ^ 32)) else c) c
      { freed.logStep (.free descs) with
        hmbDescs := none, hmbNrDescs := 0, hmbSize := 0, table := [] }

/-- `nvme_set_host_mem`: the command. -/
def nvmeSetHostMem (c : HmbCtrl) (bits : Nat) : FeaturesCommand :=
  let dmaAddr := c.hmbDescs.getD 0
  { opcode := nvmeAdminSetFeatures, fid := nvmeFeatHostMemBuf, dword11 := bits
    dword12 := c.hmbSize / nvmeCtrlPageSize, dword13 := dmaAddr % 2 ^ 32
    dword14 := dmaAddr / 2 ^ 32, dword15 := c.hmbNrDescs }

/-- The controller, `total_allocated` and `chunks_allocated` of `nvme_alloc_host_mem`. -/
structure Filling where
  ctrl : HmbCtrl
  total : Nat := 0
  chunks : Nat := 0

/-- A chunk is entered in the table. -/
def Filling.record (f : Filling) (buf bytes : Nat) : Filling :=
  { ctrl := { f.ctrl with
      table := f.ctrl.table.set f.chunks
        { addr := buf, size := bytes / nvmeCtrlPageSize % 2 ^ 32, rsvd := 0 } }
    total := f.total + bytes
    chunks := f.chunks + 1 }

theorem hmbFloor_pos (needs : HmbNeeds) : 0 < hmbFloor needs := by
  unfold hmbFloor nvmeHmbMinChunk
  dsimp only
  split <;> omega

/-- Phase 2 of `nvme_alloc_host_mem`. -/
def hmbFill (needs : HmbNeeds) (alloc : Nat → Option Pointer) (preferred cap attempt : Nat)
    (f : Filling) : Filling :=
  if _h : f.total < preferred ∧ f.chunks < cap ∧ hmbFloor needs ≤ attempt then
    let remaining := preferred - f.total
    let chunkSize := if attempt < remaining then attempt else remaining
    if chunkSize < hmbFloor needs then f
    else
      match f.ctrl.dmaAlloc alloc (chunkSize % 2 ^ 32) with
      | (some buf, c) =>
          hmbFill needs alloc preferred cap attempt
            (Filling.record { f with ctrl := c } buf chunkSize)
      | (none, c) => hmbFill needs alloc preferred cap (attempt / 2) { f with ctrl := c }
  else f
termination_by (cap - f.chunks) + attempt
decreasing_by
  · simp only [Filling.record]
    omega
  · have hpos := hmbFloor_pos needs
    omega

/-- Phase 1: the preferred size in one block. -/
def hmbSingle (needs : HmbNeeds) (alloc : Nat → Option Pointer) (preferred : Nat)
    (c : HmbCtrl) : Filling :=
  if hmbFloor needs ≤ preferred then
    match c.dmaAlloc alloc (preferred % 2 ^ 32) with
    | (some buf, c) => Filling.record { ctrl := c } buf preferred
    | (none, c) => { ctrl := c }
  else { ctrl := c }

/-- The end of `nvme_alloc_host_mem`: what was gathered is enough, or is released. -/
def hmbConclude (min descs descsSize : Nat) (f : Filling) : HmbCtrl × Int :=
  let c := { f.ctrl with hmbNrDescs := f.chunks, hmbSize := f.total % 2 ^ 32 }
  if f.total < min then (hmbChunksFree c, -1)
  else (c.logStep (.cacheFlush descs descsSize), 0)

/-- `nvme_alloc_host_mem`. -/
def nvmeAllocHostMem (needs : HmbNeeds) (alloc : Nat → Option Pointer) (min preferred : Nat)
    (c : HmbCtrl) : HmbCtrl × Int :=
  let cap := hmmaxdCap needs preferred
  let descsSize := cap * sizeofHostMemBufDesc % 2 ^ 32
  match c.dmaAlloc alloc descsSize with
  | (none, c) => (c, -1)
  | (some descs, c) =>
      let c := { c with
        hmbDescs := some descs, hmbNrDescs := 0, hmbSize := 0
        table := List.replicate (descsSize / sizeofHostMemBufDesc) {} }
      let attempt := if preferred < nvmeHmbStartChunk then preferred else nvmeHmbStartChunk
      hmbConclude min descs descsSize
        (hmbFill needs alloc preferred cap attempt (hmbSingle needs alloc preferred c))

/-- `preferred` as `nvme_setup_host_mem` passes it on. -/
def hmbPreferred (needs : HmbNeeds) : Nat :=
  let preferred := needs.hmpre.toNat * nvmeCtrlPageSize
  if nvmeMaxHmbBytes < preferred then nvmeMaxHmbBytes else preferred

/-- `minimum` of `nvme_setup_host_mem`. -/
def hmbMinimum (needs : HmbNeeds) : Nat := needs.hmmin.toNat * nvmeCtrlPageSize

/-- `nvme_setup_host_mem`; `ret` is what the controller answers to Set Features. -/
def nvmeSetupHostMem (needs : HmbNeeds) (alloc : Nat → Option Pointer) (ret : Int)
    (c : HmbCtrl) : HmbCtrl :=
  if needs.hmpre.toNat = 0 then c
  else if nvmeMaxHmbBytes < hmbMinimum needs then c
  else
    match nvmeAllocHostMem needs alloc (hmbMinimum needs) (hmbPreferred needs) c with
    | (c, result) =>
        if result ≠ 0 then c
        else
          let c := c.logStep (.setFeatures (nvmeSetHostMem c nvmeHostMemEnable))
          if ret ≠ 0 then hmbChunksFree c else c

/-- `nvme_free_host_mem`. -/
def nvmeFreeHostMem (c : HmbCtrl) : HmbCtrl :=
  if c.hmbDescs = none then c
  else hmbChunksFree (c.logStep (.setFeatures (nvmeSetHostMem c 0)))

/-! ### The loop -/

section Loop

variable {needs : HmbNeeds} {alloc : Nat → Option Pointer} {preferred cap attempt bytes : Nat}
  {f : Filling} {p : Pointer}

/-- The size of the next chunk. -/
def chunkSize (preferred attempt : Nat) (f : Filling) : Nat :=
  min attempt (preferred - f.total)

theorem chunkSize_eq :
    chunkSize preferred attempt f =
      if attempt < preferred - f.total then attempt else preferred - f.total := by
  unfold chunkSize
  split <;> omega

/-- The loop asks for another chunk. -/
structure Asks (needs : HmbNeeds) (preferred cap attempt : Nat) (f : Filling) : Prop where
  more : f.total < preferred
  slot : f.chunks < cap
  floor : hmbFloor needs ≤ attempt
  tail : hmbFloor needs ≤ chunkSize preferred attempt f

/-- The pool grants a chunk. -/
def Filling.granted (f : Filling) (p : Pointer) (bytes : Nat) : Filling :=
  Filling.record
    { f with
      ctrl := { f.ctrl with
        calls := f.ctrl.calls + 1
        log := f.ctrl.log ++ [.alloc p.addr.toNat (bytes % 2 ^ 32)] } }
    p.addr.toNat bytes

/-- The pool refuses a chunk. -/
def Filling.refused (f : Filling) : Filling :=
  { f with ctrl := { f.ctrl with calls := f.ctrl.calls + 1 } }

theorem hmbFill_stop (h : ¬Asks needs preferred cap attempt f) :
    hmbFill needs alloc preferred cap attempt f = f := by
  unfold hmbFill
  split
  · rename_i hguard
    rw [if_pos]
    rw [← chunkSize_eq]
    by_contra hle
    exact h ⟨hguard.1, hguard.2.1, hguard.2.2, Nat.le_of_not_lt hle⟩
  · rfl

theorem hmbFill_granted (h : Asks needs preferred cap attempt f)
    (hp : alloc f.ctrl.calls = some p) :
    hmbFill needs alloc preferred cap attempt f =
      hmbFill needs alloc preferred cap attempt
        (f.granted p (chunkSize preferred attempt f)) := by
  have htail := h.tail
  rw [chunkSize_eq] at htail ⊢
  conv_lhs => unfold hmbFill
  rw [dif_pos ⟨h.more, h.slot, h.floor⟩]
  dsimp only
  rw [if_neg (Nat.not_lt.mpr htail), HmbCtrl.dmaAlloc, hp]
  rfl

theorem hmbFill_refused (h : Asks needs preferred cap attempt f)
    (hp : alloc f.ctrl.calls = none) :
    hmbFill needs alloc preferred cap attempt f =
      hmbFill needs alloc preferred cap (attempt / 2) f.refused := by
  have htail := h.tail
  rw [chunkSize_eq] at htail
  conv_lhs => unfold hmbFill
  rw [dif_pos ⟨h.more, h.slot, h.floor⟩]
  dsimp only
  rw [if_neg (Nat.not_lt.mpr htail), HmbCtrl.dmaAlloc, hp]
  rfl

/-- What a granted and a refused chunk preserve holds when the loop has stopped. -/
theorem hmbFill_rule {Inv : Nat → Filling → Prop}
    (hgrant : ∀ attempt f p, Asks needs preferred cap attempt f → alloc f.ctrl.calls = some p →
      Inv attempt f → Inv attempt (f.granted p (chunkSize preferred attempt f)))
    (hrefuse : ∀ attempt f, Asks needs preferred cap attempt f → alloc f.ctrl.calls = none →
      Inv attempt f → Inv (attempt / 2) f.refused)
    (h : Inv attempt f) :
    ∃ attempt', Inv attempt' (hmbFill needs alloc preferred cap attempt f) ∧
      ¬Asks needs preferred cap attempt' (hmbFill needs alloc preferred cap attempt f) := by
  induction hn : (cap - f.chunks) + attempt using Nat.strong_induction_on
    generalizing attempt f with
  | _ n ih =>
      by_cases hask : Asks needs preferred cap attempt f
      · have hslot := hask.slot
        have hpos := hmbFloor_pos needs
        have hfloor := hask.floor
        cases hp : alloc f.ctrl.calls with
        | some p =>
            rw [hmbFill_granted hask hp]
            refine ih _ ?_ (hgrant attempt f p hask hp h) rfl
            simp only [Filling.granted, Filling.record]
            omega
        | none =>
            rw [hmbFill_refused hask hp]
            refine ih _ ?_ (hrefuse attempt f hask hp h) rfl
            simp only [Filling.refused]
            omega
      · rw [hmbFill_stop hask]
        exact ⟨attempt, h, hask⟩

end Loop

/-! ### Allocations -/

section Allocations

/-- The allocations on a log: addresses and sizes. -/
def allocations (log : List HmbStep) : List (Nat × Nat) :=
  log.filterMap fun
    | .alloc addr bytes => some (addr, bytes)
    | _ => none

def frees (log : List HmbStep) : List Nat :=
  log.filterMap fun
    | .free addr => some addr
    | _ => none

/-- Nothing is kept. -/
structure Released (c : HmbCtrl) : Prop where
  descs : c.hmbDescs = none
  nr : c.hmbNrDescs = 0
  size : c.hmbSize = 0
  once : (frees c.log).Perm ((allocations c.log).map Prod.fst)

end Allocations

/-! ### Chunks -/

section Chunks

variable {needs : HmbNeeds} {alloc : Nat → Option Pointer} {cap attempt bytes : Nat}
  {f : Filling} {p : Pointer} {cs : List (Nat × Nat)}

/-- The descriptor of a chunk. -/
def describe (chunk : Nat × Nat) : HostMemBufDesc :=
  { addr := chunk.1, size := chunk.2 / nvmeCtrlPageSize % 2 ^ 32 }

/-- The table and the log after some chunks were granted. -/
structure Filled (needs : HmbNeeds) (preferred cap : Nat) (base : HmbCtrl) (f : Filling)
    (cs : List (Nat × Nat)) : Prop where
  descs : f.ctrl.hmbDescs = base.hmbDescs
  table : f.ctrl.table = cs.map describe ++ List.replicate (cap - cs.length) ({} : HostMemBufDesc)
  log : f.ctrl.log = base.log ++ cs.map fun chunk => .alloc chunk.1 chunk.2
  total : f.total = (cs.map Prod.snd).sum
  chunks : f.chunks = cs.length
  room : cs.length ≤ cap
  fits : f.total ≤ preferred
  floor : ∀ chunk, chunk ∈ cs → hmbFloor needs ≤ chunk.2
  addr : ∀ chunk, chunk ∈ cs → chunk.1 ≠ 0 ∧ chunk.1 < 2 ^ 32

theorem Filled.granted {preferred : Nat} {base : HmbCtrl}
    (hf : Filled needs preferred cap base f cs)
    (hcap : preferred < 2 ^ 32) (hslot : f.chunks < cap) (hfloor : hmbFloor needs ≤ bytes)
    (hfits : f.total + bytes ≤ preferred) :
    Filled needs preferred cap base (f.granted p bytes) (cs ++ [(p.addr.toNat, bytes)]) := by
  have hword : bytes % 2 ^ 32 = bytes := Nat.mod_eq_of_lt (by omega)
  have hrest : cap - cs.length = (cap - (cs.length + 1)) + 1 := by
    have := hf.chunks
    omega
  constructor
  case descs => exact hf.descs
  case table =>
    change f.ctrl.table.set f.chunks (describe (p.addr.toNat, bytes)) = _
    rw [hf.table, hf.chunks, List.set_append_right _ _ (by simp), hrest, List.replicate_succ]
    simp
  case log =>
    change f.ctrl.log ++ [.alloc p.addr.toNat (bytes % 2 ^ 32)] = _
    rw [hf.log, hword]
    simp
  case total =>
    change f.total + bytes = _
    rw [hf.total]
    simp
  case chunks =>
    change f.chunks + 1 = _
    rw [hf.chunks]
    simp
  case room =>
    rw [hf.chunks] at hslot
    simpa using hslot
  case fits => exact hfits
  case floor =>
    intro chunk hmem
    rcases List.mem_append.mp hmem with hmem | hmem
    · exact hf.floor chunk hmem
    · rw [List.mem_singleton.mp hmem]
      exact hfloor
  case addr =>
    intro chunk hmem
    rcases List.mem_append.mp hmem with hmem | hmem
    · exact hf.addr chunk hmem
    · rw [List.mem_singleton.mp hmem]
      refine ⟨fun hzero => p.nonnull ?_, p.addr.toNat_lt⟩
      exact UInt32.toNat_inj.mp hzero

theorem Filled.refused {preferred : Nat} {base : HmbCtrl}
    (hf : Filled needs preferred cap base f cs) :
    Filled needs preferred cap base f.refused cs :=
  ⟨hf.descs, hf.table, hf.log, hf.total, hf.chunks, hf.room, hf.fits, hf.floor, hf.addr⟩

/-- The descriptor table is allocated and empty. -/
structure Tabled (descs descsSize cap : Nat) (base : HmbCtrl) : Prop where
  addr : base.hmbDescs = some descs
  log : base.log = [.alloc descs descsSize]
  size : descsSize = cap * sizeofHostMemBufDesc
  table : base.table = List.replicate cap {}
  calls : base.calls = 1

theorem hmbPreferred_cases (needs : HmbNeeds) :
    hmbPreferred needs ≤ nvmeMaxHmbBytes ∧
      hmbPreferred needs ≤ needs.hmpre.toNat * nvmeCtrlPageSize := by
  unfold hmbPreferred
  dsimp only
  split <;> omega

theorem hmbFloor_le (needs : HmbNeeds) :
    needs.hmminds.toNat * nvmeCtrlPageSize ≤ hmbFloor needs ∧ nvmeHmbMinChunk ≤ hmbFloor needs := by
  unfold hmbFloor
  dsimp only
  split <;> omega

/-- A chunk is as many pages as a descriptor must have. -/
theorem hmbFloor_pages (needs : HmbNeeds) :
    max needs.hmminds.toNat 2 * nvmeCtrlPageSize ≤ hmbFloor needs := by
  obtain ⟨hminds, hmin⟩ := hmbFloor_le needs
  rw [← Nat.mul_max_mul_right]
  exact max_le hminds hmin

theorem foldl_free (cs : List (Nat × Nat)) (c : HmbCtrl)
    (haddr : ∀ chunk, chunk ∈ cs → chunk.1 ≠ 0 ∧ chunk.1 < 2 ^ 32) :
    (cs.map describe).foldl (fun c d =>
        if d.addr % 2 ^ 32 ≠ 0 then c.logStep (.free (d.addr % 2 ^ 32)) else c) c =
      { c with log := c.log ++ cs.map fun chunk => .free chunk.1 } := by
  induction cs generalizing c with
  | nil => simp
  | cons chunk cs ih =>
      obtain ⟨hne, hlt⟩ := haddr chunk (List.mem_cons_self ..)
      have hword : (describe chunk).addr % 2 ^ 32 = chunk.1 := Nat.mod_eq_of_lt hlt
      rw [List.map_cons, List.foldl_cons, hword, if_pos hne,
        ih _ fun chunk' hmem => haddr chunk' (List.mem_cons_of_mem _ hmem)]
      simp [HmbCtrl.logStep]

theorem allocations_append (l l' : List HmbStep) :
    allocations (l ++ l') = allocations l ++ allocations l' := List.filterMap_append

theorem frees_append (l l' : List HmbStep) : frees (l ++ l') = frees l ++ frees l' :=
  List.filterMap_append

theorem allocations_chunks (cs : List (Nat × Nat)) :
    allocations (cs.map fun chunk => .alloc chunk.1 chunk.2) = cs := by
  simp [allocations, List.filterMap_map]

theorem frees_chunks (cs : List (Nat × Nat)) :
    frees (cs.map fun chunk => .alloc chunk.1 chunk.2) = [] := by
  simp [frees, List.filterMap_map]

theorem allocations_freed (cs : List (Nat × Nat)) :
    allocations (cs.map fun chunk => .free chunk.1) = [] := by
  simp [allocations, List.filterMap_map]

theorem frees_freed (cs : List (Nat × Nat)) :
    frees (cs.map fun chunk => .free chunk.1) = cs.map Prod.fst := by
  simp [frees, List.filterMap_map]

variable {preferred descs descsSize : Nat} {base : HmbCtrl}

theorem Filled.take_table (hf : Filled needs preferred cap base f cs) :
    f.ctrl.table.take f.chunks = cs.map describe := by
  rw [hf.table, hf.chunks, List.take_left' (by simp)]

/-- The chunks and the table are given back. -/
theorem released_of {c : HmbCtrl} (hdescs : c.hmbDescs = some descs)
    (htable : c.table.take c.hmbNrDescs = cs.map describe)
    (halloc : allocations c.log = (descs, descsSize) :: cs) (hfree : frees c.log = [])
    (haddr : ∀ chunk, chunk ∈ cs → chunk.1 ≠ 0 ∧ chunk.1 < 2 ^ 32) :
    Released (hmbChunksFree c) := by
  unfold hmbChunksFree
  rw [hdescs]
  dsimp only
  rw [htable, foldl_free cs _ haddr]
  refine ⟨rfl, rfl, rfl, ?_⟩
  change (frees ((c.log ++ cs.map fun chunk => .free chunk.1) ++ [.free descs])).Perm
    ((allocations ((c.log ++ cs.map fun chunk => .free chunk.1) ++ [.free descs])).map Prod.fst)
  simp only [frees_append, allocations_append, allocations_freed, frees_freed, halloc, hfree]
  simp only [frees, allocations, List.filterMap_cons, List.filterMap_nil, List.nil_append,
    List.append_nil, List.map_cons]
  exact List.perm_append_comm

theorem Filled.allocations_eq (hf : Filled needs preferred cap base f cs)
    (ht : Tabled descs descsSize cap base) :
    allocations f.ctrl.log = (descs, descsSize) :: cs ∧ frees f.ctrl.log = [] := by
  rw [hf.log, ht.log, allocations_append, allocations_chunks, frees_append, frees_chunks]
  exact ⟨rfl, rfl⟩

/-- What was gathered is not enough. -/
theorem Filled.released (hf : Filled needs preferred cap base f cs)
    (ht : Tabled descs descsSize cap base) (n : Nat) :
    Released (hmbChunksFree { f.ctrl with hmbNrDescs := f.chunks, hmbSize := n }) :=
  released_of (hf.descs.trans ht.addr) hf.take_table (hf.allocations_eq ht).1
    (hf.allocations_eq ht).2 hf.addr

end Chunks

/-! ### From the table on -/

section Tables

variable {needs : HmbNeeds} {alloc : Nat → Option Pointer} {cap attempt descs descsSize : Nat}
  {f : Filling} {p : Pointer} {base : HmbCtrl} {cs : List (Nat × Nat)}

theorem Filled.start (ht : Tabled descs descsSize cap base) {preferred n : Nat} :
    Filled needs preferred cap base { ctrl := { base with calls := n } } [] where
  descs := rfl
  table := by simp [ht.table]
  log := by simp
  total := rfl
  chunks := rfl
  room := Nat.zero_le _
  fits := Nat.zero_le _
  floor := by simp
  addr := by simp

theorem hmbPreferred_lt (needs : HmbNeeds) : hmbPreferred needs < 2 ^ 32 :=
  (hmbPreferred_cases needs).1.trans_lt (by decide)

theorem chunkSize_fits (preferred attempt : Nat) (h : f.total ≤ preferred) :
    f.total + chunkSize preferred attempt f ≤ preferred := by
  unfold chunkSize
  omega

theorem Filled.asked (hf : Filled needs (hmbPreferred needs) cap base f cs)
    (hask : Asks needs (hmbPreferred needs) cap attempt f) :
    Filled needs (hmbPreferred needs) cap base
      (f.granted p (chunkSize (hmbPreferred needs) attempt f))
      (cs ++ [(p.addr.toNat, chunkSize (hmbPreferred needs) attempt f)]) :=
  hf.granted (hmbPreferred_lt needs) hask.slot hask.tail (chunkSize_fits _ _ hf.fits)

/-- The size phase 2 asks for first. -/
def startChunk (preferred : Nat) : Nat :=
  if preferred < nvmeHmbStartChunk then preferred else nvmeHmbStartChunk

theorem startChunk_le (preferred : Nat) :
    startChunk preferred ≤ preferred ∧ startChunk preferred ≤ nvmeHmbStartChunk := by
  unfold startChunk
  split <;> omega

theorem hmmaxdCap_pos (h : hmbFloor needs ≤ hmbPreferred needs) :
    0 < hmmaxdCap needs (hmbPreferred needs) := by
  unfold hmmaxdCap
  split
  · omega
  · have hpos := hmbFloor_pos needs
    have hlow : 0 < (hmbPreferred needs + hmbFloor needs - 1) / hmbFloor needs :=
      Nat.div_pos (by omega) hpos
    have hhigh : (hmbPreferred needs + hmbFloor needs - 1) / hmbFloor needs < 2 ^ 32 := by
      have hlt := hmbPreferred_lt needs
      refine (Nat.div_lt_iff_lt_mul hpos).mpr ?_
      calc hmbPreferred needs + hmbFloor needs - 1 < 2 ^ 32 - 1 + hmbFloor needs := by omega
        _ ≤ (2 ^ 32 - 1) * hmbFloor needs + hmbFloor needs :=
            Nat.add_le_add_right (Nat.le_mul_of_pos_right _ hpos) _
        _ = 2 ^ 32 * hmbFloor needs := by omega
    rw [Nat.mod_eq_of_lt hhigh]
    exact hlow

theorem hmmaxdCap_limit (needs : HmbNeeds) (preferred : Nat) (h : needs.hmmaxd.toNat ≠ 0) :
    hmmaxdCap needs preferred = needs.hmmaxd.toNat := if_pos h

theorem hmmaxdCap_lt (needs : HmbNeeds) : hmmaxdCap needs (hmbPreferred needs) < 2 ^ 16 := by
  unfold hmmaxdCap
  split
  · exact needs.hmmaxd.toNat_lt
  · have hpos := hmbFloor_pos needs
    have hfloor := (hmbFloor_le needs).2
    have hmax := (hmbPreferred_cases needs).1
    refine (Nat.mod_le _ _).trans_lt ((Nat.div_lt_iff_lt_mul hpos).mpr ?_)
    unfold nvmeHmbMinChunk at hfloor
    unfold nvmeMaxHmbBytes at hmax
    omega

theorem hmbSingle_granted {preferred : Nat} {c : HmbCtrl} {p : Pointer}
    (hfloor : hmbFloor needs ≤ preferred) (hp : alloc c.calls = some p) :
    hmbSingle needs alloc preferred c = Filling.granted { ctrl := c } p preferred := by
  rw [hmbSingle, if_pos hfloor, HmbCtrl.dmaAlloc, hp]
  rfl

theorem hmbSingle_refused {preferred : Nat} {c : HmbCtrl} (hfloor : hmbFloor needs ≤ preferred)
    (hp : alloc c.calls = none) :
    hmbSingle needs alloc preferred c = { ctrl := { c with calls := c.calls + 1 } } := by
  rw [hmbSingle, if_pos hfloor, HmbCtrl.dmaAlloc, hp]

theorem hmbSingle_skipped {preferred : Nat} {c : HmbCtrl} (hfloor : ¬hmbFloor needs ≤ preferred) :
    hmbSingle needs alloc preferred c = { ctrl := c } := if_neg hfloor

/-- The controller once the table is allocated. -/
def tabled (needs : HmbNeeds) (t : Pointer) : HmbCtrl :=
  { hmbDescs := some t.addr.toNat
    table := List.replicate (hmmaxdCap needs (hmbPreferred needs)) {}
    calls := 1
    log := [.alloc t.addr.toNat
      (hmmaxdCap needs (hmbPreferred needs) * sizeofHostMemBufDesc)] }

theorem tabled_ok (needs : HmbNeeds) (t : Pointer) :
    Tabled t.addr.toNat (hmmaxdCap needs (hmbPreferred needs) * sizeofHostMemBufDesc)
      (hmmaxdCap needs (hmbPreferred needs)) (tabled needs t) :=
  ⟨rfl, rfl, rfl, rfl, rfl⟩

theorem nvmeAllocHostMem_none (min preferred : Nat) (h : alloc 0 = none) :
    nvmeAllocHostMem needs alloc min preferred {} = ({ calls := 1 }, -1) := by
  simp [nvmeAllocHostMem, HmbCtrl.dmaAlloc, h]

theorem nvmeAllocHostMem_some (min : Nat) {t : Pointer} (h : alloc 0 = some t) :
    nvmeAllocHostMem needs alloc min (hmbPreferred needs) {} =
      hmbConclude min t.addr.toNat
        (hmmaxdCap needs (hmbPreferred needs) * sizeofHostMemBufDesc)
        (hmbFill needs alloc (hmbPreferred needs) (hmmaxdCap needs (hmbPreferred needs))
          (startChunk (hmbPreferred needs))
          (hmbSingle needs alloc (hmbPreferred needs) (tabled needs t))) := by
  have hsize : hmmaxdCap needs (hmbPreferred needs) * sizeofHostMemBufDesc % 2 ^ 32 =
      hmmaxdCap needs (hmbPreferred needs) * sizeofHostMemBufDesc := by
    have hlt := hmmaxdCap_lt needs
    refine Nat.mod_eq_of_lt ?_
    unfold sizeofHostMemBufDesc
    omega
  unfold nvmeAllocHostMem
  dsimp only
  rw [hsize, HmbCtrl.dmaAlloc]
  dsimp only
  rw [h]
  dsimp only
  rw [Nat.mul_div_cancel _ (by decide)]
  rfl

end Tables

/-! ### Setting up and tearing down -/

section Lifecycle

variable {needs : HmbNeeds} {alloc : Nat → Option Pointer} {descs descsSize cap attempt : Nat}
  {f : Filling} {base : HmbCtrl}

/-- The controller has a table and chunks, which are what is allocated. -/
structure Holds (c : HmbCtrl) (descs descsSize : Nat) (cs : List (Nat × Nat)) : Prop where
  buffer : c.hmbDescs = some descs
  table : c.table.take c.hmbNrDescs = cs.map describe
  allocated : allocations c.log = (descs, descsSize) :: cs
  freed : frees c.log = []
  addr : ∀ chunk, chunk ∈ cs → chunk.1 ≠ 0 ∧ chunk.1 < 2 ^ 32

theorem Holds.released {c : HmbCtrl} {cs : List (Nat × Nat)} (h : Holds c descs descsSize cs) :
    Released (hmbChunksFree c) :=
  released_of h.buffer h.table h.allocated h.freed h.addr

theorem Holds.sent {c : HmbCtrl} {cs : List (Nat × Nat)} (h : Holds c descs descsSize cs)
    (cmd : FeaturesCommand) : Holds (c.logStep (.setFeatures cmd)) descs descsSize cs := by
  refine ⟨h.buffer, h.table, ?_, ?_, h.addr⟩
  · change allocations (c.log ++ [.setFeatures cmd]) = _
    rw [allocations_append, h.allocated]
    exact List.append_nil _
  · change frees (c.log ++ [.setFeatures cmd]) = _
    rw [frees_append, h.freed]
    rfl

theorem fill_filled (h : ∃ cs, Filled needs (hmbPreferred needs) cap base f cs) :
    ∃ cs, Filled needs (hmbPreferred needs) cap base
      (hmbFill needs alloc (hmbPreferred needs) cap attempt f) cs := by
  have hgrant : ∀ attempt f p, Asks needs (hmbPreferred needs) cap attempt f →
      alloc f.ctrl.calls = some p → (∃ cs, Filled needs (hmbPreferred needs) cap base f cs) →
      ∃ cs, Filled needs (hmbPreferred needs) cap base
        (f.granted p (chunkSize (hmbPreferred needs) attempt f)) cs := by
    rintro attempt f p hask - ⟨cs, h⟩
    exact ⟨_, h.asked hask⟩
  have hrefuse : ∀ (attempt : Nat) f, Asks needs (hmbPreferred needs) cap attempt f →
      alloc f.ctrl.calls = none → (∃ cs, Filled needs (hmbPreferred needs) cap base f cs) →
      ∃ cs, Filled needs (hmbPreferred needs) cap base f.refused cs := by
    rintro attempt f - - ⟨cs, h⟩
    exact ⟨cs, h.refused⟩
  obtain ⟨_, hfilled, -⟩ := hmbFill_rule hgrant hrefuse h
  exact hfilled

theorem single_filled (ht : Tabled descs descsSize (hmmaxdCap needs (hmbPreferred needs)) base) :
    ∃ cs, Filled needs (hmbPreferred needs) (hmmaxdCap needs (hmbPreferred needs)) base
      (hmbSingle needs alloc (hmbPreferred needs) base) cs := by
  by_cases hfloor : hmbFloor needs ≤ hmbPreferred needs
  · cases hp : alloc base.calls with
    | some p =>
        rw [hmbSingle_granted hfloor hp]
        exact ⟨_, (Filled.start ht).granted (hmbPreferred_lt needs) (hmmaxdCap_pos hfloor) hfloor
          (Nat.zero_add _).le⟩
    | none =>
        rw [hmbSingle_refused hfloor hp]
        exact ⟨[], .start ht⟩
  · rw [hmbSingle_skipped hfloor]
    exact ⟨[], .start ht⟩

/-- `nvme_alloc_host_mem` keeps what it allocates or gives it back. -/
theorem nvmeAllocHostMem_holds (needs : HmbNeeds) (alloc : Nat → Option Pointer) (min : Nat) :
    (nvmeAllocHostMem needs alloc min (hmbPreferred needs) {}).2 ≠ 0 ∧
        Released (nvmeAllocHostMem needs alloc min (hmbPreferred needs) {}).1 ∨
      (nvmeAllocHostMem needs alloc min (hmbPreferred needs) {}).2 = 0 ∧
        ∃ descs descsSize cs,
          Holds (nvmeAllocHostMem needs alloc min (hmbPreferred needs) {}).1 descs descsSize
            cs := by
  cases htable : alloc 0 with
  | none =>
      rw [nvmeAllocHostMem_none _ _ htable]
      exact .inl ⟨by decide, rfl, rfl, rfl, .refl _⟩
  | some t =>
      rw [nvmeAllocHostMem_some _ htable]
      have ht := tabled_ok needs t
      have hfilled : ∃ cs, Filled needs (hmbPreferred needs) (hmmaxdCap needs (hmbPreferred needs))
          (tabled needs t) (hmbFill needs alloc (hmbPreferred needs)
            (hmmaxdCap needs (hmbPreferred needs)) (startChunk (hmbPreferred needs))
            (hmbSingle needs alloc (hmbPreferred needs) (tabled needs t))) cs :=
        fill_filled (single_filled ht)
      obtain ⟨cs, hf⟩ := hfilled
      unfold hmbConclude
      dsimp only
      split
      · exact .inl ⟨(by decide : (-1 : Int) ≠ 0), hf.released ht _⟩
      · refine .inr ⟨rfl, _, hmmaxdCap needs (hmbPreferred needs) * sizeofHostMemBufDesc, cs,
          hf.descs.trans ht.addr, hf.take_table, ?_, ?_, hf.addr⟩
        · change allocations (_ ++ [.cacheFlush _ _]) = _
          rw [allocations_append, (hf.allocations_eq ht).1]
          exact List.append_nil _
        · change frees (_ ++ [.cacheFlush _ _]) = _
          rw [frees_append, (hf.allocations_eq ht).2]
          rfl

theorem Released.freed {c : HmbCtrl} (h : Released c) : Released (nvmeFreeHostMem c) := by
  rw [nvmeFreeHostMem, if_pos h.descs]
  exact h

/-- Whatever the pool and the controller answer, setting the buffer up and tearing it down frees
every allocation once. -/
theorem setup_then_free (needs : HmbNeeds) (alloc : Nat → Option Pointer) (ret : Int) :
    Released (nvmeFreeHostMem (nvmeSetupHostMem needs alloc ret {})) := by
  have hfresh : Released ({} : HmbCtrl) := ⟨rfl, rfl, rfl, .refl _⟩
  unfold nvmeSetupHostMem
  split
  · exact hfresh.freed
  · split
    · exact hfresh.freed
    · dsimp only
      rcases nvmeAllocHostMem_holds needs alloc (hmbMinimum needs) with
        ⟨hfail, hreleased⟩ | ⟨hok, descs, descsSize, cs, hholds⟩
      · rw [if_pos hfail]
        exact hreleased.freed
      · rw [if_neg (not_not.mpr hok)]
        have hsent := hholds.sent (nvmeSetHostMem
          (nvmeAllocHostMem needs alloc (hmbMinimum needs) (hmbPreferred needs) {}).1
          nvmeHostMemEnable)
        split
        · exact hsent.released.freed
        · rw [nvmeFreeHostMem, if_neg (by rw [hsent.buffer]; exact Option.some_ne_none descs)]
          exact (hsent.sent _).released

end Lifecycle

end HostMemory
end NvmeDriver
