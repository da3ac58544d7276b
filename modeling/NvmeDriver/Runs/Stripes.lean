import NvmeDriver.Runs.Pieces

/-!
# Stripes

A controller with the stripe quirk wants no read or write to cross a multiple of its largest
transfer.  `nvme_rw_chunk_cap` works with 32-bit numbers that wrap: a stripe of 4 GiB or more
gives no limit of its own, and a distance of 4 GiB to the next boundary gives a cap of zero,
which means that there is none.  In neither case is a transfer long enough to get there.
-/

namespace NvmeDriver
namespace Runs

open Engine
open Lib
open Ownership
open Refine
open Namespace (lbaOutOfRange)

/-! ### Controllers -/

section Controllers

/-- `max_hw_sectors` after `nvme_init_identify` has run, once or more often. -/
inductive Identified : Nat → Prop
  | first (mpsmin mdts : Nat) : Identified (identifySectors 0 mpsmin mdts)
  | again {old : Nat} (mpsmin mdts : Nat) (h : Identified old) :
      Identified (identifySectors old mpsmin mdts)

/-- What one Identify Controller reports: no limit, or a power of two from 8 KiB on. -/
theorem reported_cases (mpsmin mdts : Nat) :
    (if mdts ≠ 0 then nvmeMpsToSectors mpsmin mdts else uintMax) = uintMax ∨
      ∃ k, 4 ≤ k ∧ (if mdts ≠ 0 then nvmeMpsToSectors mpsmin mdts else uintMax) = 2 ^ k := by
  split
  · rename_i hne
    rw [nvmeMpsToSectors_eq]
    split
    · exact .inr ⟨_, by omega, rfl⟩
    · exact .inl rfl
  · exact .inl rfl

theorem identified_cases {sectors : Nat} (h : Identified sectors) :
    sectors = uintMax ∨ ∃ k, 4 ≤ k ∧ sectors = 2 ^ k := by
  induction h with
  | first mpsmin mdts =>
      unfold identifySectors
      rw [if_pos rfl]
      exact reported_cases mpsmin mdts
  | @again old mpsmin mdts h ih =>
      have hreported := reported_cases mpsmin mdts
      unfold identifySectors
      dsimp only
      generalize (if mdts ≠ 0 then nvmeMpsToSectors mpsmin mdts else uintMax) = sectors
        at hreported ⊢
      split
      · exact hreported
      · split
        · exact ih
        · exact hreported

/-- The stripe of an identified controller is at least 8 KiB, more than any block. -/
theorem Identified.block {k shift : Nat} (h : Identified (2 ^ k)) (hshift : shift ≤ 12) :
    2 ^ shift ≤ 2 ^ k * 512 := by
  have hk : 4 ≤ k := by
    rcases identified_cases h with hmax | ⟨k', hk', heq⟩
    · by_contra hlt
      have hle : 2 ^ k ≤ 2 ^ 3 := Nat.pow_le_pow_right (by decide) (by omega)
      rw [hmax] at hle
      revert hle
      decide
    · rwa [Nat.pow_right_injective (Nat.le_refl 2) heq]
  calc 2 ^ shift ≤ 2 ^ (k + 9) := Nat.pow_le_pow_right (by decide) (by omega)
    _ = 2 ^ k * 2 ^ 9 := pow_add 2 k 9

/-- A controller with the quirk, and a power of two for its largest transfer. -/
structure Striped (cfg : Config) (k : Nat) : Prop where
  quirk : cfg.quirkStripeSize = true
  sectors : cfg.maxHwSectors = 2 ^ k
  width : k ≤ 31
  limit : cfg.maxTransferBytes = nvmeSetLimits cfg.maxHwSectors

/-- Bytes of a stripe. -/
def stripeBytes (cfg : Config) : Nat := cfg.maxHwSectors * 512

end Controllers

/-! ### The cap -/

section Cap

variable {cfg : Config} {k shift lba : Nat}

/-- What is left of the stripe, in bytes. -/
def stripeRoom (k shift lba : Nat) : Nat :=
  (2 ^ (k + 9 - shift) - lba % 2 ^ (k + 9 - shift)) * 2 ^ shift

theorem stripeRoom_pos (k shift lba : Nat) : 0 < stripeRoom k shift lba := by
  have hlt : lba % 2 ^ (k + 9 - shift) < 2 ^ (k + 9 - shift) :=
    Nat.mod_lt _ (Nat.pos_of_neZero _)
  exact Nat.mul_pos (by omega) (Nat.pos_of_neZero _)

theorem stripeRoom_le (hblock : shift ≤ k + 9) : stripeRoom k shift lba ≤ 2 ^ (k + 9) := by
  calc stripeRoom k shift lba ≤ 2 ^ (k + 9 - shift) * 2 ^ shift :=
        Nat.mul_le_mul_right _ (Nat.sub_le _ _)
    _ = 2 ^ (k + 9) := by rw [← pow_add, Nat.sub_add_cancel hblock]

/-- The limit wraps to zero for stripes of 4 GiB and more. -/
theorem Striped.limit_eq (hcfg : Striped cfg k) :
    cfg.maxTransferBytes = 2 ^ (k + 9) % 2 ^ 32 := by
  rw [hcfg.limit, hcfg.sectors]
  unfold nvmeSetLimits
  rw [if_neg, ← pow_add]
  rintro (h | h)
  · exact absurd h (Nat.pos_of_neZero _).ne'
  · by_cases hk : k = 0
    · subst hk
      revert h
      decide
    · exact two_pow_ne_uintMax hk h

/-- The cap of a striped controller in terms of what is left of the stripe. -/
theorem Striped.cap_eq (hcfg : Striped cfg k) (hlow : 9 ≤ shift) (hblock : shift ≤ k + 9) :
    nvmeRwChunkCap cfg shift lba =
      if 2 ^ (k + 9) % 2 ^ 32 = 0 ∨ stripeRoom k shift lba % 2 ^ 32 < 2 ^ (k + 9) % 2 ^ 32 then
        stripeRoom k shift lba % 2 ^ 32
      else 2 ^ (k + 9) % 2 ^ 32 := by
  have hexp : k - (shift - 9) = k + 9 - shift := by omega
  have hstripe : 2 ^ k / 2 ^ (shift - 9) = 2 ^ (k + 9 - shift) := by
    rw [Nat.pow_div (by omega) (by decide), hexp]
  have hpower : 2 ^ k &&& (2 ^ k - 1) = 0 := by
    rw [Nat.and_two_pow_sub_one_eq_mod, Nat.mod_self]
  unfold nvmeRwChunkCap
  dsimp only
  rw [hcfg.sectors, if_pos ⟨hcfg.quirk, (Nat.pos_of_neZero _).ne', hpower, hlow⟩, hstripe,
    if_neg (Nat.pos_of_neZero _).ne', Nat.and_two_pow_sub_one_eq_mod, hcfg.limit_eq]
  rfl

/-- A cap keeps inside the stripe, and where there is none, no transfer gets to the end of
it; a cap is whole blocks. -/
theorem Striped.cap_inside (hcfg : Striped cfg k) (hlow : 9 ≤ shift) (hhigh : shift ≤ 12)
    (hblock : shift ≤ k + 9) :
    (nvmeRwChunkCap cfg shift lba = 0 → 2 ^ 32 ≤ stripeRoom k shift lba) ∧
      (nvmeRwChunkCap cfg shift lba ≠ 0 →
        nvmeRwChunkCap cfg shift lba ≤ stripeRoom k shift lba) ∧
      2 ^ shift ∣ nvmeRwChunkCap cfg shift lba := by
  have hpos := stripeRoom_pos k shift lba
  have hle := @stripeRoom_le k shift lba hblock
  have hword : 2 ^ shift ∣ 2 ^ 32 := Nat.pow_dvd_pow 2 (by omega)
  have hroom : 2 ^ shift ∣ stripeRoom k shift lba % 2 ^ 32 :=
    (Nat.dvd_mod_iff hword).mpr (Nat.dvd_mul_left _ _)
  have hlimit : 2 ^ shift ∣ 2 ^ (k + 9) % 2 ^ 32 :=
    (Nat.dvd_mod_iff hword).mpr (Nat.pow_dvd_pow 2 hblock)
  rw [hcfg.cap_eq hlow hblock]
  by_cases hsmall : k + 9 < 32
  · have hlt : 2 ^ (k + 9) < 2 ^ 32 := Nat.pow_lt_pow_right (by decide) hsmall
    rw [Nat.mod_eq_of_lt hlt] at hlimit ⊢
    rw [Nat.mod_eq_of_lt (Nat.lt_of_le_of_lt hle hlt)] at hroom ⊢
    split
    · exact ⟨fun h => absurd h hpos.ne', fun _ => Nat.le_refl _, hroom⟩
    · rename_i hno
      rw [not_or, Nat.not_lt] at hno
      exact ⟨fun h => absurd h hno.1, fun _ => hno.2, hlimit⟩
  · have hzero : 2 ^ (k + 9) % 2 ^ 32 = 0 :=
      Nat.mod_eq_zero_of_dvd (Nat.pow_dvd_pow 2 (by omega))
    rw [hzero, if_pos (.inl rfl)]
    refine ⟨fun h => ?_, fun _ => Nat.mod_le _ _, hroom⟩
    exact Nat.le_of_dvd hpos (Nat.dvd_of_mod_eq_zero h)

/-- The wrap of the LBA is a boundary of stripes. -/
theorem Striped.cap_wrapped (hcfg : Striped cfg k) (shift lba : Nat) :
    nvmeRwChunkCap cfg shift (lba % 2 ^ 64) = nvmeRwChunkCap cfg shift lba := by
  have hwidth := hcfg.width
  have hmask : cfg.maxHwSectors / 2 ^ (shift - 9) ≠ 0 →
      lba % 2 ^ 64 &&& (cfg.maxHwSectors / 2 ^ (shift - 9) - 1) =
        lba &&& (cfg.maxHwSectors / 2 ^ (shift - 9) - 1) := by
    intro hne
    have hle : shift - 9 ≤ k := by
      by_contra hlt
      rw [hcfg.sectors] at hne
      exact hne (Nat.div_eq_of_lt (Nat.pow_lt_pow_right (by decide) (by omega)))
    rw [hcfg.sectors, Nat.pow_div hle (by decide), Nat.and_two_pow_sub_one_eq_mod,
      Nat.and_two_pow_sub_one_eq_mod]
    exact Nat.mod_mod_of_dvd lba (Nat.pow_dvd_pow 2 (by omega))
  unfold nvmeRwChunkCap
  dsimp only
  split
  · split
    · rfl
    · rename_i hne
      rw [hmask hne]
  · rfl

end Cap

/-! ### Commands -/

section Commands

variable {env : Env} {k i : Nat} {r r₀ : Request} {ctx : IoContext}

/-- The lengths a client gives are 32-bit words. -/
structure LengthWords (env : Env) : Prop where
  plain : ∀ i, (env.ios i).ioLength < 2 ^ 32
  scsi : ∀ i cmd, (env.ios i).scsi = some cmd → cmd.length < 2 ^ 32

/-- The read or write carries whole blocks of its stripe, and names no others. -/
structure InStripe (cfg : Config) (shift : Nat) (r : Request) : Prop where
  some : 0 < r.userLen
  whole : 2 ^ shift ∣ r.userLen
  named : (r.cmd.length + 1) * 2 ^ shift ≤ r.userLen
  inside : r.cmd.slba * 2 ^ shift / stripeBytes cfg =
    (r.cmd.slba * 2 ^ shift + r.userLen - 1) / stripeBytes cfg

theorem transfer_opcode {cmd : IoCommand} {opcode : Nat} (h : cmd.transfer = some opcode) :
    opcode = nvmeCmdRead ∨ opcode = nvmeCmdWrite := by
  cases cmd <;> first
    | exact .inl (Option.some.inj h).symm
    | exact .inr (Option.some.inj h).symm
    | cases h

/-- A transfer of a client is shorter than 4 GiB. -/
theorem asked_short (hwords : LengthWords env) {u lba blocks opcode buffer : Nat}
    (hask : Asked env i (.rw u lba blocks opcode buffer)) :
    u = (env.ios i).unit ∧ blocks * 2 ^ (env.units u).blockShift < 2 ^ 32 ∧
      (opcode = nvmeCmdRead ∨ opcode = nvmeCmdWrite) := by
  cases hask with
  | plain hcmd =>
      exact ⟨rfl, Nat.lt_of_le_of_lt (Nat.div_mul_le_self _ _) (hwords.plain i),
        transfer_opcode hcmd⟩
  | scsi hcmd hscsi hcdb hlen hdec hfits =>
      refine ⟨rfl, ?_, ?_⟩
      · calc _ ≤ _ := Nat.mul_le_mul_right _ hfits
          _ ≤ _ := Nat.div_mul_le_self _ _
          _ < 2 ^ 32 := hwords.scsi i _ hscsi
      · split
        · exact .inl rfl
        · exact .inr rfl

theorem nlbField_le {blocks : Nat} (hpos : 0 < blocks) (hlt : blocks < 2 ^ 32) :
    nlbField blocks + 1 ≤ blocks := by
  unfold nlbField
  have hsub : blocks + 2 ^ 32 - 1 = 2 ^ 16 * 2 ^ 16 + (blocks - 1) := by omega
  rw [hsub, Nat.mul_add_mod]
  have := Nat.mod_le (blocks - 1) (2 ^ 16)
  omega

/-- Blocks that fit what is left of a stripe stay inside it. -/
theorem inside_stripe {cfg : Config} {shift lba bytes : Nat} (hcfg : Striped cfg k)
    (hblock : shift ≤ k + 9) (hpos : 0 < bytes) (hroom : bytes ≤ stripeRoom k shift lba) :
    lba * 2 ^ shift / stripeBytes cfg = (lba * 2 ^ shift + bytes - 1) / stripeBytes cfg := by
  have hstripe : stripeBytes cfg = 2 ^ (k + 9 - shift) * 2 ^ shift := by
    unfold stripeBytes
    rw [hcfg.sectors, ← pow_add, Nat.sub_add_cancel hblock]
    exact (pow_add 2 k 9).symm
  unfold stripeRoom at hroom
  rw [hstripe]
  generalize hS : 2 ^ (k + 9 - shift) = S at hroom
  have hSpos : 0 < S := hS ▸ Nat.pos_of_neZero _
  generalize hB : 2 ^ shift = B at hroom
  have hBpos : 0 < B := hB ▸ Nat.pos_of_neZero _
  have hmod : lba % S < S := Nat.mod_lt _ hSpos
  have hlba : lba * B = lba / S * (S * B) + lba % S * B := by
    calc lba * B = (S * (lba / S) + lba % S) * B := by rw [Nat.div_add_mod]
      _ = lba / S * (S * B) + lba % S * B := by ring
  have hfit : lba % S * B + bytes ≤ S * B := by
    calc lba % S * B + bytes ≤ lba % S * B + (S - lba % S) * B := Nat.add_le_add_left hroom _
      _ = S * B := by rw [← Nat.add_mul, Nat.add_sub_cancel' hmod.le]
  have hfirst : lba * B / (S * B) = lba / S := by
    rw [hlba, Nat.mul_comm (lba / S), Nat.mul_add_div (Nat.mul_pos hSpos hBpos),
      Nat.div_eq_of_lt (Nat.mul_lt_mul_of_pos_right hmod hBpos), Nat.add_zero]
  have hlast : (lba * B + bytes - 1) / (S * B) = lba / S := by
    have hsum : lba * B + bytes - 1 = S * B * (lba / S) + (lba % S * B + bytes - 1) := by
      rw [hlba, Nat.mul_comm (lba / S)]
      omega
    have hlt : lba % S * B + bytes - 1 < S * B := by
      generalize lba % S * B = before at hfit ⊢
      generalize S * B = stripe at hfit ⊢
      omega
    rw [hsum, Nat.mul_add_div (Nat.mul_pos hSpos hBpos), Nat.div_eq_of_lt hlt, Nat.add_zero]
  rw [hfirst, hlast]

/-- The command of a read or write as it is first submitted. -/
theorem single_inStripe (hcfg : Striped env.cfg k) (hwords : LengthWords env)
    {u lba blocks opcode buffer : Nat} (hlow : 9 ≤ (env.units u).blockShift)
    (hhigh : (env.units u).blockShift ≤ 12) (hblock : (env.units u).blockShift ≤ k + 9)
    (hask : Asked env i (.rw u lba blocks opcode buffer))
    (hcheck : Checked env (.rw u lba blocks opcode buffer))
    (hone : Single env (.rw u lba blocks opcode buffer))
    (hof : SingleOf env r (.rw u lba blocks opcode buffer)) :
    InStripe env.cfg (env.units u).blockShift r := by
  obtain ⟨-, hshort, -⟩ := asked_short hwords hask
  obtain ⟨-, -, -, hslba, hlength, -, hlen⟩ := hof
  have hbytes : transferBytes env u blocks = blocks * 2 ^ (env.units u).blockShift :=
    Nat.mod_eq_of_lt hshort
  obtain ⟨hzero, hcap, -⟩ := @Striped.cap_inside _ _ _ lba hcfg hlow hhigh hblock
  have hpos : 0 < blocks * 2 ^ (env.units u).blockShift := by
    rw [← hbytes]
    exact Nat.pos_of_ne_zero hcheck.1
  have hblocks : 0 < blocks := Nat.pos_of_mul_pos_right hpos
  have hroom : blocks * 2 ^ (env.units u).blockShift ≤
      stripeRoom k (env.units u).blockShift lba := by
    rw [← hbytes] at hshort ⊢
    unfold Single at hone
    by_cases hno : nvmeRwChunkCap env.cfg (env.units u).blockShift lba = 0
    · exact hshort.le.trans (hzero hno)
    · exact (hone.resolve_left hno).trans (hcap hno)
  rw [hbytes] at hlen
  have hlt : blocks < 2 ^ 32 :=
    Nat.lt_of_le_of_lt (Nat.le_mul_of_pos_right _ (Nat.pos_of_neZero _)) hshort
  constructor
  case some => rwa [hlen]
  case whole => rw [hlen]; exact Nat.dvd_mul_left _ _
  case named =>
    rw [hlen, hlength]
    exact Nat.mul_le_mul_right _ (nlbField_le hblocks hlt)
  case inside =>
    rw [hlen, hslba]
    exact inside_stripe hcfg hblock hpos hroom

/-- The context of a read or write, between two of its chunks. -/
theorem Founded.rw (hwords : LengthWords env) (hctx : Founded env ctx)
    (hop : ctx.opcode ≠ nvmeCmdWriteZeroes) :
    ctx.unit = (env.ios ctx.io).unit ∧ ctx.totalBytes < 2 ^ 32 ∧
      2 ^ (env.units ctx.unit).blockShift ∣ ctx.totalBytes ∧
      CutAt env ctx.unit ctx.startLba ctx.totalBytes ctx.opcode ctx.dispatched := by
  obtain ⟨t, hask, hcheck, hmany, hof, hcut⟩ := hctx
  cases t with
  | rw u lba blocks opcode buffer =>
      obtain ⟨-, hunit, hlba, htotal, hopcode, hdata⟩ := hof
      obtain ⟨hu, hshort, -⟩ := asked_short hwords hask
      refine ⟨hunit.trans hu, ?_, ?_, hcut⟩
      · rw [htotal]
        exact Nat.mod_lt _ (by decide)
      · rw [htotal, hunit]
        unfold transferBytes
        rw [Nat.mod_eq_of_lt hshort]
        exact Nat.dvd_mul_left _ _
  | writeZeroes u lba blocks => exact absurd hof.2.2.2.1 hop
  | dsm u ranges => exact hof.elim
  | flush u => exact hof.elim

/-- A chunk of a read or write as it is first submitted. -/
theorem chunk_inStripe (hcfg : Striped env.cfg k) (hwords : LengthWords env)
    (hctx : Founded env ctx) (hop : ctx.opcode ≠ nvmeCmdWriteZeroes)
    (hlow : 9 ≤ (env.units ctx.unit).blockShift) (hhigh : (env.units ctx.unit).blockShift ≤ 12)
    (hblock : (env.units ctx.unit).blockShift ≤ k + 9)
    (hmore : ctx.dispatched < ctx.totalBytes) (hof : ChunkOf env ctx r) :
    InStripe env.cfg (env.units ctx.unit).blockShift r := by
  obtain ⟨-, htotal, hdvd, hcut⟩ := hctx.rw hwords hop
  obtain ⟨-, -, -, hslba, hlength, hdata⟩ := hof
  have hcap : ∀ lba, 2 ^ (env.units ctx.unit).blockShift ∣
      nvmeRwChunkCap env.cfg (env.units ctx.unit).blockShift lba :=
    fun lba => (hcfg.cap_inside hlow hhigh hblock).2.2
  have hoff := hcut.dvd hop hcap hdvd
  have hwhole := dvd_nextBytes hop hcap hdvd hoff
  obtain ⟨hzero, hle, -⟩ :=
    @Striped.cap_inside _ _ _ (nextLba env ctx) hcfg hlow hhigh hblock
  -- the chunk is what is left of the transfer, or the cap
  have hnext : 0 < nextBytes env ctx ∧ nextBytes env ctx ≤ ctx.totalBytes ∧
      nextBytes env ctx ≤ stripeRoom k (env.units ctx.unit).blockShift (nextLba env ctx) := by
    unfold nextBytes
    rw [if_neg hop]
    dsimp only
    split
    · rename_i hcut
      exact ⟨Nat.pos_of_ne_zero hcut.1, by omega, hle hcut.1⟩
    · rename_i hrest
      refine ⟨by omega, by omega, ?_⟩
      by_cases hno : nvmeRwChunkCap env.cfg (env.units ctx.unit).blockShift (nextLba env ctx) = 0
      · have := hzero hno
        omega
      · have := hle hno
        omega
  obtain ⟨hpos, hshort, hroom⟩ := hnext
  have hblocks : nextBlocks env ctx * 2 ^ (env.units ctx.unit).blockShift = nextBytes env ctx :=
    Nat.div_mul_cancel hwhole
  have hlen : r.userLen = nextBytes env ctx := by
    rw [(hdata hop).2]
    unfold transferBytes
    rw [hblocks]
    exact Nat.mod_eq_of_lt (by omega)
  have hsome : 0 < nextBlocks env ctx := by
    rw [← hblocks] at hpos
    exact Nat.pos_of_mul_pos_right hpos
  have hlt : nextBlocks env ctx < 2 ^ 32 :=
    Nat.lt_of_le_of_lt (Nat.div_le_self _ _) (by omega)
  constructor
  case some => rwa [hlen]
  case whole => rwa [hlen]
  case named =>
    rw [hlen, hlength, ← hblocks]
    exact Nat.mul_le_mul_right _ (nlbField_le hsome hlt)
  case inside =>
    rw [hlen, hslba]
    exact inside_stripe hcfg hblock hpos hroom

/-- The block shifts of the units that clients use. -/
def BlockShifts (env : Env) : Prop :=
  ∀ i, 9 ≤ (env.units (env.ios i).unit).blockShift ∧ (env.units (env.ios i).unit).blockShift ≤ 12

/-- A piece of a transfer that is a read or write stays inside its stripe. -/
theorem PieceOf.inStripe (hcfg : Striped env.cfg k) (hwords : LengthWords env)
    (hshift : BlockShifts env) (hpiece : PieceOf env i r)
    (hop : r.cmd.opcode = nvmeCmdRead ∨ r.cmd.opcode = nvmeCmdWrite)
    (hblock : (env.units (env.ios i).unit).blockShift ≤ k + 9) :
    r.cmd.nsid = (env.units (env.ios i).unit).nsid ∧
      InStripe env.cfg (env.units (env.ios i).unit).blockShift r := by
  obtain ⟨r₀, hsame, hpiece⟩ := hpiece
  rw [hsame.opcode] at hop
  have hmoved : ∀ {shift : Nat}, InStripe env.cfg shift r₀ → InStripe env.cfg shift r := by
    rintro shift ⟨hsome, hwhole, hnamed, hinside⟩
    constructor
    case some => rwa [hsame.len]
    case whole => rwa [hsame.len]
    case named => rwa [hsame.len, hsame.nlb]
    case inside => rwa [hsame.len, hsame.slba]
  rw [hsame.nsid]
  obtain ⟨hlow, hhigh⟩ := hshift i
  cases hpiece with
  | @single t hask hcheck hone hof =>
      cases t with
      | rw u lba blocks opcode buffer =>
          obtain ⟨rfl, -, -⟩ := asked_short hwords hask
          exact ⟨hof.2.2.1,
            hmoved (single_inStripe hcfg hwords hlow hhigh hblock hask hcheck hone hof)⟩
      | writeZeroes u lba blocks =>
          rw [hof.2.1] at hop
          rcases hop with h | h <;> cases h
      | dsm u ranges =>
          rw [hof.2.1] at hop
          rcases hop with h | h <;> cases h
      | flush u =>
          rw [hof.2.1] at hop
          rcases hop with h | h <;> cases h
  | @chunk ctx hctx hi hmore hof =>
      subst hi
      have hne : ctx.opcode ≠ nvmeCmdWriteZeroes := by
        rw [hof.2.1] at hop
        rcases hop with h | h <;> rw [h] <;> decide
      obtain ⟨hunit, -, -, -⟩ := hctx.rw hwords hne
      rw [← hunit] at hlow hhigh hblock ⊢
      exact ⟨hof.2.2.1,
        hmoved (chunk_inStripe hcfg hwords hctx hne hlow hhigh hblock hmore hof)⟩

/-- The single-shot path is taken exactly if the first chunk of the pump would be the whole
transfer. -/
theorem single_iff_first (hcfg : Striped env.cfg k) {u lba blocks opcode buffer : Nat}
    (hop : opcode ≠ nvmeCmdWriteZeroes) :
    Single env (.rw u lba blocks opcode buffer) ↔
      nextBytes env (contextAt env u lba blocks opcode buffer 0) =
        transferBytes env u blocks := by
  have hstart : nextLba env (contextAt env u lba blocks opcode buffer 0) = lba % 2 ^ 64 := by
    unfold nextLba
    change (lba + 0 / _) % 2 ^ 64 = _
    rw [Nat.zero_div, Nat.add_zero]
  have hcap := hcfg.cap_wrapped (env.units u).blockShift lba
  rw [← hstart] at hcap
  have hnext : nextBytes env (contextAt env u lba blocks opcode buffer 0) =
      if nvmeRwChunkCap env.cfg (env.units u).blockShift lba ≠ 0 ∧
        nvmeRwChunkCap env.cfg (env.units u).blockShift lba < transferBytes env u blocks then
          nvmeRwChunkCap env.cfg (env.units u).blockShift lba
      else transferBytes env u blocks := by
    rw [← hcap]
    unfold nextBytes
    rw [if_neg (show (contextAt env u lba blocks opcode buffer 0).opcode ≠ nvmeCmdWriteZeroes
      from hop)]
    rfl
  rw [hnext]
  constructor
  · intro hone
    refine if_neg fun h => ?_
    rcases hone with hno | hfits
    · exact h.1 hno
    · exact absurd hfits (Nat.not_le.mpr h.2)
  · intro hwhole
    by_contra hmany
    rw [Single, not_or, Nat.not_le] at hmany
    rw [if_pos ⟨hmany.1, hmany.2⟩] at hwhole
    exact absurd hwhole (Nat.ne_of_lt hmany.2)

end Commands

/-! ### Runs -/

section Run

/-- Reads and writes on a log keep inside stripes of at least one block, which those of
every identified controller are. -/
def KeepsInStripes (env : Env) (trace : List Effect) : Prop :=
  ∀ slot r owner, .sqe slot r owner ∈ trace → r.q = .io →
    r.cmd.opcode = nvmeCmdRead ∨ r.cmd.opcode = nvmeCmdWrite →
      ∃ i, owner = some i ∧
        (2 ^ (env.units (env.ios i).unit).blockShift ≤ stripeBytes env.cfg ∨
            Identified env.cfg.maxHwSectors →
          r.cmd.nsid = (env.units (env.ios i).unit).nsid ∧
            InStripe env.cfg (env.units (env.ios i).unit).blockShift r)

/-- The context `nvme_io_submit_rw` starts to pump. -/
def firstContext (env : Env) (u io lba blocks opcode buffer : Nat) : IoContext :=
  { io := io, unit := u, startLba := lba, totalBytes := transferBytes env u blocks
    opcode := opcode, userData := buffer
    dataPrecached :=
      !nvmeNeedsBounce env buffer (transferBytes env u blocks) (opcode == nvmeCmdWrite) }

/-- `nvme_io_submit_rw` sends a transfer it does not refuse as one command exactly if the
pump's first chunk of it would be the whole transfer, and pumps it otherwise. -/
def FirstChunkAgrees (env : Env) : Prop :=
  ∀ (s : State) (u io lba blocks opcode buffer : Nat),
    opcode = nvmeCmdRead ∨ opcode = nvmeCmdWrite → transferBytes env u blocks ≠ 0 →
    buffer ≠ 0 → lbaOutOfRange (env.units u) lba blocks = false →
      nvmeIoSubmitRw env s u io lba blocks opcode buffer =
        if nextBytes env (firstContext env u io lba blocks opcode buffer) =
            transferBytes env u blocks then
          submitSingle env s u io fun s tag => nvmeSetupRw env s tag lba blocks opcode buffer
        else if nvmeCheckReady s = false then (s, notReadyError s)
        else submitChunked env s (firstContext env u io lba blocks opcode buffer)

theorem Striped.firstChunk {env : Env} {k : Nat} (hcfg : Striped env.cfg k) :
    FirstChunkAgrees env := by
  intro s u io lba blocks opcode buffer hop hbytes hbuffer hin
  have hne : opcode ≠ nvmeCmdWriteZeroes := by
    rcases hop with h | h <;> rw [h] <;> decide
  have hagree : Single env (.rw u lba blocks opcode buffer) ↔
      nextBytes env (firstContext env u io lba blocks opcode buffer) =
        transferBytes env u blocks :=
    single_iff_first hcfg hne
  have hlba : ¬lbaOutOfRange (env.units u) lba blocks = true := by
    rw [hin]
    exact Bool.false_ne_true
  unfold nvmeIoSubmitRw
  dsimp only
  rw [if_neg (show ¬blocks * 2 ^ (env.units u).blockShift % 2 ^ 32 = 0 from hbytes),
    if_neg hbuffer, if_neg hlba]
  by_cases hone : Single env (.rw u lba blocks opcode buffer)
  · rw [if_pos (hagree.mp hone)]
    exact if_pos hone
  · rw [if_neg fun h => hone (hagree.mpr h)]
    exact if_neg hone

/-- On a controller with the stripe quirk, in every run, no read or write crosses a stripe,
whether it is a whole transfer or a chunk, submitted for the first time or again. -/
theorem run_keeps_in_stripes (env : Env) {k : Nat} (hcfg : Striped env.cfg k)
    (hshift : BlockShifts env) (hwords : LengthWords env) (maxZeroes : Nat)
    (events : List Event) :
    KeepsInStripes env (run env events (bootState env maxZeroes)).core.trace ∧
      FirstChunkAgrees env := by
  refine ⟨?_, hcfg.firstChunk⟩
  intro slot r owner hmem hq hop
  obtain ⟨i, howner, hpiece⟩ :=
    (run_inPieces env maxZeroes events).log r owner (mem_sqes hmem) hq
  refine ⟨i, howner, fun hblock => ?_⟩
  refine hpiece.inStripe hcfg hwords hshift hop ?_
  have hle : 2 ^ (env.units (env.ios i).unit).blockShift ≤ 2 ^ (k + 9) := by
    rw [pow_add]
    rcases hblock with hblock | hident
    · rwa [stripeBytes, hcfg.sectors] at hblock
    · rw [hcfg.sectors] at hident
      exact hident.block (hshift i).2
  exact (Nat.pow_le_pow_iff_right (by decide)).mp hle

/-- The sample controller with the stripe quirk: its stripes are 128 KiB.  Its clients read
two blocks, the last one of a stripe and the first one of the next. -/
def stripedEnv : Env :=
  { sampleWith { sampleEnv.cfg with quirkStripeSize := true } with
    ios := fun _ =>
      { command := .cmdRead, unit := 0, ioOffset := 255 * 512, ioLength := 1024
        ioData := 0x10000000 } }

/-- The reads on a log: where they start and how many bytes they transfer. -/
def readsOn (trace : List Effect) : List (Nat × Nat) :=
  trace.filterMap fun
    | .sqe _ r _ => if r.cmd.opcode = nvmeCmdRead then some (r.cmd.slba, r.userLen) else none
    | _ => none

/-- A client of such a controller is served with two commands. -/
theorem run_keeps_in_stripes_read :
    (KeepsInStripes stripedEnv
        (run stripedEnv [.putMsg, .drain] (bootState stripedEnv 2048)).core.trace ∧
      FirstChunkAgrees stripedEnv) ∧
    readsOn (run stripedEnv [.putMsg, .drain] (bootState stripedEnv 2048)).core.trace =
      [(256, 512), (255, 512)] := by
  refine ⟨run_keeps_in_stripes stripedEnv (k := 8) ⟨rfl, rfl, by decide, rfl⟩ ?_ ?_ 2048 _, ?_⟩
  · exact fun _ => ⟨Nat.le_refl 9, (by decide : 9 ≤ 12)⟩
  · exact ⟨fun _ => (by decide : 1024 < 2 ^ 32), fun _ _ h => nomatch h⟩
  · decide

end Run

end Runs
end NvmeDriver
