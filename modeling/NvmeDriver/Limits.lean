import NvmeDriver.Engine.Completion

/-!
# The transfer limit of a controller

From the MDTS field of Identify Controller to the number of bytes one read or write may
carry (nvme_ctrl.c): an exponent becomes a count of 512-byte sectors, saturating, and the
count becomes bytes by a 32-bit shift that wraps to zero, which the dispatchers read as
"no limit".
-/

namespace NvmeDriver
namespace Engine

/-- `UINT_MAX`. -/
def uintMax : Nat := 2 ^ 32 - 1

/-- `NVME_CTRL_PAGE_SHIFT`. -/
def nvmeCtrlPageShift : Nat := 12

/-- The page size check of `nvme_enable_ctrl` passes. -/
def pageSizeOk (mpsmin : Nat) : Bool := decide (mpsmin + 12 ≤ nvmeCtrlPageShift)

/-- `check_shl_overflow`; `none` is TRUE. -/
def checkShlOverflow (value shift : Nat) : Option Nat :=
  if 32 ≤ shift then none
  else if shift ≠ 0 ∧ value / 2 ^ (32 - shift) ≠ 0 then none
  else some (value * 2 ^ shift % 2 ^ 32)

/-- `nvme_mps_to_sectors`. -/
def nvmeMpsToSectors (mpsmin units : Nat) : Nat :=
  match checkShlOverflow 1 (units + (mpsmin + 12) - 9) with
  | none => uintMax
  | some val => val

/-- `max_hw_sectors` after `nvme_init_identify`, from its value before. -/
def identifySectors (old mpsmin mdts : Nat) : Nat :=
  let sectors := if mdts ≠ 0 then nvmeMpsToSectors mpsmin mdts else uintMax
  if old = 0 then sectors else if old < sectors then old else sectors

/-- `NVME_AMIGA_DEFAULT_MAX_BYTES`. -/
def nvmeAmigaDefaultMaxBytes : Nat := 8 * 1024 * 1024

/-- `nvme_set_limits`. -/
def nvmeSetLimits (maxHwSectors : Nat) : Nat :=
  if maxHwSectors = 0 ∨ maxHwSectors = uintMax then nvmeAmigaDefaultMaxBytes
  else maxHwSectors * 2 ^ 9 % 2 ^ 32

/-- The limits are those of a controller with this CAP.MPSMIN and MDTS. -/
structure OfController (cfg : Config) (mpsmin mdts : Nat) : Prop where
  sectors : cfg.maxHwSectors = identifySectors 0 mpsmin mdts
  bytes : cfg.maxTransferBytes = nvmeSetLimits cfg.maxHwSectors

/-- The bytes a controller accepts in one command, if it has a limit. -/
def mdtsBytes (mpsmin mdts : Nat) : Nat := 2 ^ (12 + mpsmin + mdts)

/-- The controllers whose limit is at most 8 MiB or comes out as the default. -/
def Modest (mpsmin mdts : Nat) : Prop :=
  mdts = 0 ∨ mpsmin + mdts ≤ 11 ∨ 29 ≤ mpsmin + mdts

section Limits

variable {cfg : Config} {mpsmin mdts shift lba : Nat}

theorem nvmeMpsToSectors_eq (mpsmin units : Nat) :
    nvmeMpsToSectors mpsmin units =
      if mpsmin + units ≤ 28 then 2 ^ (mpsmin + units + 3) else uintMax := by
  have hshift : units + (mpsmin + 12) - 9 = mpsmin + units + 3 := by omega
  unfold nvmeMpsToSectors checkShlOverflow
  rw [hshift]
  by_cases hbig : 32 ≤ mpsmin + units + 3
  · rw [if_pos hbig, if_neg (by omega)]
  · have hone : 1 / 2 ^ (32 - (mpsmin + units + 3)) = 0 :=
      Nat.div_eq_of_lt (Nat.one_lt_two_pow (by omega))
    have hlt : 2 ^ (mpsmin + units + 3) < 2 ^ 32 :=
      Nat.pow_lt_pow_right (by decide) (by omega)
    rw [if_neg hbig, if_neg (fun h => h.2 hone), if_pos (by omega), Nat.one_mul]
    exact Nat.mod_eq_of_lt hlt

theorem two_pow_ne_uintMax {k : Nat} (hk : k ≠ 0) : 2 ^ k ≠ uintMax := by
  intro h
  have heven : 2 ^ k % 2 = 0 := by
    obtain ⟨j, rfl⟩ := Nat.exists_eq_succ_of_ne_zero hk
    rw [pow_succ]
    omega
  rw [h] at heven
  cases heven

/-- The limits are the default, or the power of two the controller reports. -/
theorem limits_cases (hcfg : OfController cfg mpsmin mdts) :
    ((mdts = 0 ∨ 29 ≤ mpsmin + mdts) ∧ cfg.maxHwSectors = uintMax ∧
        cfg.maxTransferBytes = 2 ^ 23) ∨
      (mdts ≠ 0 ∧ mpsmin + mdts ≤ 28 ∧ cfg.maxHwSectors = 2 ^ (mpsmin + mdts + 3) ∧
        cfg.maxTransferBytes = 2 ^ (mpsmin + mdts + 12) % 2 ^ 32) := by
  obtain ⟨hsectors, hbytes⟩ := hcfg
  unfold identifySectors at hsectors
  simp only [if_true] at hsectors
  by_cases hdef : mdts = 0 ∨ 29 ≤ mpsmin + mdts
  · left
    have hmax : cfg.maxHwSectors = uintMax := by
      rw [hsectors]
      split
      · rename_i hne
        rw [nvmeMpsToSectors_eq, if_neg (by omega)]
      · rfl
    rw [hbytes, hmax]
    exact ⟨hdef, rfl, rfl⟩
  · right
    have hpow : cfg.maxHwSectors = 2 ^ (mpsmin + mdts + 3) := by
      rw [hsectors, if_pos (by omega), nvmeMpsToSectors_eq, if_pos (by omega)]
    refine ⟨by omega, by omega, hpow, ?_⟩
    rw [hbytes, hpow]
    unfold nvmeSetLimits
    rw [if_neg]
    · rw [← pow_add]
    · rintro (h | h)
      · exact absurd h (Nat.pos_of_neZero _).ne'
      · exact absurd h (two_pow_ne_uintMax (by omega))

/-- A count that is no power of two gives no stripe. -/
theorem uintMax_no_stripe : uintMax &&& (uintMax - 1) ≠ 0 := by
  decide

/-- The cap of one command is the limit, or what is left up to a stripe boundary. -/
theorem nvmeRwChunkCap_cases (hcfg : OfController cfg mpsmin mdts) (shift lba : Nat) :
    nvmeRwChunkCap cfg shift lba = cfg.maxTransferBytes ∨
      mdts ≠ 0 ∧ mpsmin + mdts ≤ 28 ∧
        ∃ n, 0 < n ∧ n * 2 ^ shift ≤ 2 ^ (mpsmin + mdts + 12) ∧
          nvmeRwChunkCap cfg shift lba = n * 2 ^ shift % 2 ^ 32 := by
  unfold nvmeRwChunkCap
  dsimp only
  rcases limits_cases hcfg with ⟨-, hmax, -⟩ | ⟨hne, hle, hpow, -⟩
  · rw [if_neg]
    · exact .inl rfl
    · rw [hmax]
      exact fun h => uintMax_no_stripe h.2.2.1
  · split
    · rename_i hstripe
      split
      · exact .inl rfl
      · rename_i hblocks
        split
        · refine .inr ⟨hne, hle, _, ?_, ?_, rfl⟩
          · have hmask := @Nat.and_le_right lba (cfg.maxHwSectors / 2 ^ (shift - 9) - 1)
            generalize cfg.maxHwSectors / 2 ^ (shift - 9) = blocks at hblocks hmask ⊢
            omega
          · calc _ ≤ cfg.maxHwSectors / 2 ^ (shift - 9) * 2 ^ shift :=
                  Nat.mul_le_mul_right _ (Nat.sub_le _ _)
              _ = cfg.maxHwSectors / 2 ^ (shift - 9) * 2 ^ (shift - 9) * 2 ^ 9 := by
                  rw [Nat.mul_assoc, ← pow_add, Nat.sub_add_cancel hstripe.2.2.2]
              _ ≤ cfg.maxHwSectors * 2 ^ 9 :=
                  Nat.mul_le_mul_right _ (Nat.div_mul_le_self _ _)
              _ = 2 ^ (mpsmin + mdts + 12) := by rw [hpow, ← pow_add]
        · exact .inl rfl
    · exact .inl rfl

/-- From the first block on the cap is the limit. -/
theorem nvmeRwChunkCap_zero (hcfg : OfController cfg mpsmin mdts) (hshift : shift ≤ 12) :
    nvmeRwChunkCap cfg shift 0 = cfg.maxTransferBytes := by
  unfold nvmeRwChunkCap
  dsimp only
  rcases limits_cases hcfg with ⟨-, hmax, -⟩ | ⟨hne, hle, hpow, hbytes⟩
  · rw [if_neg]
    rw [hmax]
    exact fun h => uintMax_no_stripe h.2.2.1
  · split
    · rename_i hstripe
      have hsize : cfg.maxHwSectors / 2 ^ (shift - 9) * 2 ^ shift % 2 ^ 32 =
          cfg.maxTransferBytes := by
        rw [hpow, hbytes, Nat.pow_div (by omega) (by decide), ← pow_add]
        congr 2
        omega
      rw [Nat.zero_and, Nat.sub_zero, hsize]
      split
      · rfl
      · split <;> rfl
    · rfl

/-- One command of a modest controller carries at most 8 MiB, and at most what the
controller takes. -/
theorem nvmeRwChunkCap_modest (hcfg : OfController cfg mpsmin mdts) (hm : Modest mpsmin mdts)
    (shift lba : Nat) :
    0 < nvmeRwChunkCap cfg shift lba ∧ nvmeRwChunkCap cfg shift lba ≤ 2 ^ 23 ∧
      (mdts ≠ 0 → nvmeRwChunkCap cfg shift lba ≤ mdtsBytes mpsmin mdts) := by
  have hexp : 12 + mpsmin + mdts = mpsmin + mdts + 12 := by omega
  have hpos : ∀ k, 0 < 2 ^ k := fun k => Nat.pos_of_neZero _
  have hsmall : mpsmin + mdts ≤ 11 → 2 ^ (mpsmin + mdts + 12) ≤ 2 ^ 23 := fun h =>
    Nat.pow_le_pow_right (by decide) (by omega)
  have hwide : 29 ≤ mpsmin + mdts → 2 ^ 23 ≤ 2 ^ (mpsmin + mdts + 12) := fun h =>
    Nat.pow_le_pow_right (by decide) (by omega)
  unfold mdtsBytes
  rw [hexp]
  have hlimit := limits_cases hcfg
  rcases nvmeRwChunkCap_cases hcfg shift lba with h | ⟨hne, hle, n, hn, hbound, h⟩
  · rw [h]
    rcases hlimit with ⟨hdef, -, hbytes⟩ | ⟨hne, hle, -, hbytes⟩
    · rw [hbytes]
      exact ⟨by decide, Nat.le_refl _, fun hne => hwide (hdef.resolve_left hne)⟩
    · have hm' : mpsmin + mdts ≤ 11 := by
        unfold Modest at hm
        omega
      have hlt := hsmall hm'
      rw [hbytes, Nat.mod_eq_of_lt (by omega)]
      exact ⟨hpos _, hlt, fun _ => Nat.le_refl _⟩
  · have hm' : mpsmin + mdts ≤ 11 := by
      unfold Modest at hm
      omega
    have hlt := hsmall hm'
    rw [h, Nat.mod_eq_of_lt (by omega)]
    exact ⟨Nat.mul_pos hn (hpos _), by omega, fun _ => hbound⟩

/-- The cap is whole blocks. -/
theorem dvd_nvmeRwChunkCap (hcfg : OfController cfg mpsmin mdts) (hshift : shift ≤ 12)
    (lba : Nat) : 2 ^ shift ∣ nvmeRwChunkCap cfg shift lba := by
  have hword : 2 ^ shift ∣ 2 ^ 32 := Nat.pow_dvd_pow 2 (by omega)
  rcases nvmeRwChunkCap_cases hcfg shift lba with h | ⟨-, -, n, -, -, h⟩
  · rw [h]
    rcases limits_cases hcfg with ⟨-, -, hbytes⟩ | ⟨-, -, -, hbytes⟩
    · rw [hbytes]
      exact Nat.pow_dvd_pow 2 (by omega)
    · rw [hbytes]
      exact (Nat.dvd_mod_iff hword).mpr (Nat.pow_dvd_pow 2 (by omega))
  · rw [h]
    exact (Nat.dvd_mod_iff hword).mpr (Nat.dvd_mul_left _ _)

end Limits

end Engine
end NvmeDriver
