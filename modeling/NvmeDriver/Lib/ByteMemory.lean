import Mathlib.Tactic

/-!
# Byte memory

Computations that note which offsets of a buffer they read, and pages of bytes that a
big-endian host fills for a little-endian reader.
-/

namespace NvmeDriver
namespace Lib

universe u v

/-! ### Computations that note what they read -/

/-- A result, with the offsets read on the way to it. -/
structure Traced (α : Type u) where
  value : α
  reads : List Nat

namespace Traced

variable {α : Type u} {β : Type v}

instance : Monad Traced where
  pure a := ⟨a, []⟩
  bind x f := ⟨(f x.value).value, x.reads ++ (f x.value).reads⟩

@[simp] theorem value_pure (a : α) : (pure a : Traced α).value = a := rfl

@[simp] theorem reads_pure (a : α) : (pure a : Traced α).reads = [] := rfl

@[simp] theorem value_bind {α β : Type u} (x : Traced α) (f : α → Traced β) :
    (x >>= f).value = (f x.value).value := rfl

@[simp] theorem reads_bind {α β : Type u} (x : Traced α) (f : α → Traced β) :
    (x >>= f).reads = x.reads ++ (f x.value).reads := rfl

/-- Nothing is read at or beyond an offset. -/
def Within (n : Nat) (x : Traced α) : Prop := ∀ p, p ∈ x.reads → p < n

theorem within_pure (n : Nat) (a : α) : Within n (pure a : Traced α) := by
  intro p hp
  cases hp

theorem within_bind {α β : Type u} {n : Nat} {x : Traced α} {f : α → Traced β}
    (hx : Within n x) (hf : Within n (f x.value)) : Within n (x >>= f) := by
  intro p hp
  rcases List.mem_append.mp hp with hp | hp
  · exact hx p hp
  · exact hf p hp

/-- The `n` bytes from `pos` on, read as one value. -/
def load (value : Nat → Nat → Nat) (pos n : Nat) : Traced Nat :=
  ⟨value pos n, List.range' pos n⟩

@[simp] theorem value_load (value : Nat → Nat → Nat) (pos n : Nat) :
    (load value pos n).value = value pos n := rfl

theorem within_load {value : Nat → Nat → Nat} {pos n len : Nat} (h : pos + n ≤ len) :
    Within len (load value pos n) := by
  intro p hp
  have hlt := (List.mem_range'_1.mp hp).2
  omega

/-- The byte at an offset. -/
def byte (bytes : List Nat) (pos : Nat) : Traced Nat := ⟨bytes.getD pos 0, [pos]⟩

@[simp] theorem value_byte (bytes : List Nat) (pos : Nat) :
    (byte bytes pos).value = bytes.getD pos 0 := rfl

theorem within_byte {bytes : List Nat} {pos n : Nat} : Within n (byte bytes pos) ↔ pos < n := by
  simp [Within, byte]

/-- The `n` bytes from `pos` on, copied. -/
def copy (bytes : List Nat) (pos n : Nat) : Traced (List Nat) :=
  ⟨(bytes.drop pos).take n, List.range' pos n⟩

@[simp] theorem value_copy (bytes : List Nat) (pos n : Nat) :
    (copy bytes pos n).value = (bytes.drop pos).take n := rfl

theorem within_copy {bytes : List Nat} {pos k n : Nat} :
    Within n (copy bytes pos k) ↔ k = 0 ∨ pos + k ≤ n := by
  constructor
  · intro h
    rcases Nat.eq_zero_or_pos k with hzero | hpos
    · exact .inl hzero
    · have hlast := h (pos + k - 1) (List.mem_range'_1.mpr ⟨by omega, by omega⟩)
      exact .inr (by omega)
  · intro h p hp
    obtain ⟨hlo, hhi⟩ := List.mem_range'_1.mp hp
    omega

theorem within_bind_iff {α β : Type u} {n : Nat} {x : Traced α} {f : α → Traced β} :
    Within n (x >>= f) ↔ Within n x ∧ Within n (f x.value) := by
  constructor
  · exact fun h => ⟨fun p hp => h p (List.mem_append_left _ hp),
      fun p hp => h p (List.mem_append_right _ hp)⟩
  · exact fun h => within_bind h.1 h.2

/-- What comes after depends on the result only. -/
theorem bind_congr {α β : Type u} {x : Traced α} {f g : α → Traced β}
    (h : f x.value = g x.value) : (x >>= f) = (x >>= g) := by
  change (⟨(f x.value).value, _⟩ : Traced β) = ⟨(g x.value).value, _⟩
  rw [h]

end Traced

/-! ### Pages -/

/-- The bytes of a page, by offset. -/
abbrev Page := Nat → Nat

namespace Page

/-- A page that was just cleared. -/
def zero : Page := fun _ => 0

/-- The low `n` bytes of a value, in the other order. -/
def swap : Nat → Nat → Nat
  | 0, _ => 0
  | n + 1, v => v % 256 * 256 ^ n + swap n (v / 256)

/-- A big-endian host stores the low `n` bytes of a value. -/
def store (page : Page) (pos : Nat) : Nat → Nat → Page
  | 0, _ => page
  | n + 1, v => store (Function.update page pos (v / 256 ^ n % 256)) (pos + 1) n v

/-- The value a little-endian reader finds in the `n` bytes from `pos` on. -/
def decode (page : Page) (pos : Nat) : Nat → Nat
  | 0 => 0
  | n + 1 => page pos + 256 * decode page (pos + 1) n

theorem swap_lt (n v : Nat) : swap n v < 256 ^ n := by
  induction n generalizing v with
  | zero => exact Nat.one_pos
  | succ n ih =>
      have hrest := ih (v / 256)
      have hhead : v % 256 * 256 ^ n ≤ 255 * 256 ^ n :=
        Nat.mul_le_mul_right _ (by omega)
      rw [swap, pow_succ]
      omega

theorem store_congr (page : Page) (pos n : Nat) {v w : Nat} (h : v % 256 ^ n = w % 256 ^ n) :
    store page pos n v = store page pos n w := by
  induction n generalizing page pos with
  | zero => rfl
  | succ n ih =>
      have hbyte : v / 256 ^ n % 256 = w / 256 ^ n % 256 := by
        rw [← Nat.mod_mul_right_div_self, ← Nat.mod_mul_right_div_self, ← pow_succ, h]
      have hlow : v % 256 ^ n = w % 256 ^ n := by
        have hdvd : 256 ^ n ∣ 256 ^ (n + 1) := Nat.pow_dvd_pow 256 (Nat.le_succ n)
        rw [← Nat.mod_mod_of_dvd v hdvd, h, Nat.mod_mod_of_dvd w hdvd]
      rw [store, store, hbyte]
      exact ih _ _ hlow

/-- Bytes off the stored range stay as they are. -/
theorem store_other (page : Page) {pos n p : Nat} (v : Nat) (h : p < pos ∨ pos + n ≤ p) :
    store page pos n v p = page p := by
  induction n generalizing page pos with
  | zero => rfl
  | succ n ih =>
      rw [store, ih _ (by omega)]
      exact Function.update_of_ne (by omega) _ _

/-- A field elsewhere is read as before. -/
theorem decode_store_other (page : Page) {pos n pos' m : Nat} (v : Nat)
    (h : pos' + m ≤ pos ∨ pos + n ≤ pos') :
    decode (store page pos n v) pos' m = decode page pos' m := by
  induction m generalizing pos' with
  | zero => rfl
  | succ m ih =>
      rw [decode, decode, store_other page v (by omega), ih (by omega)]

/-- What the host stores with its bytes swapped, the reader finds as it was meant. -/
theorem decode_store_swap (page : Page) (pos n v : Nat) :
    decode (store page pos n (swap n v)) pos n = v % 256 ^ n := by
  induction n generalizing page pos v with
  | zero => exact (Nat.mod_one v).symm
  | succ n ih =>
      have hlt := swap_lt n (v / 256)
      have hhead : swap (n + 1) v / 256 ^ n % 256 = v % 256 := by
        rw [swap, Nat.add_comm, Nat.add_mul_div_right _ _ (by positivity),
          Nat.div_eq_of_lt hlt, Nat.zero_add, Nat.mod_mod]
      have htail : swap (n + 1) v % 256 ^ n = swap n (v / 256) % 256 ^ n := by
        rw [swap, Nat.add_comm, Nat.add_mul_mod_self_right]
      rw [decode, store, hhead, store_congr _ _ _ htail, ih,
        store_other _ _ (.inl (Nat.lt_succ_self pos)), Function.update_self, pow_succ,
        Nat.mul_comm (256 ^ n), Nat.mod_mul]

theorem decode_zero (pos n : Nat) : decode zero pos n = 0 := by
  induction n generalizing pos with
  | zero => rfl
  | succ n ih =>
      rw [decode, ih]
      rfl

end Page

end Lib
end NvmeDriver
