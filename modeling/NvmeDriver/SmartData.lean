import NvmeDriver.Lib.Digits
import Mathlib.Data.Nat.Digits.Lemmas
import Mathlib.Tactic

/-!
# Wide integers in the admin tool

SMART counters are 16-byte little-endian integers, and a data-unit counter times
512000 does not fit in them.  nvmeadm (nvmeadm_core.c) multiplies, divides and
prints such values byte by byte with 32-bit intermediates; here are those loops,
with `UBYTE` and `ULONG` as the machine's integers, and what they compute.
-/

namespace NvmeDriver
namespace Adm

open Lib

/-! ### The source's loops -/

/-- The value of a little-endian byte array. -/
def leValue (bytes : List UInt8) : Nat := Nat.ofDigits 256 (bytes.map UInt8.toNat)

/-- `'\0'`. -/
def nul : Char := Char.ofNat 0

/-- `read_le16`. -/
def readLe16 (bytes : List UInt8) : UInt16 :=
  (bytes.getD 0 0).toUInt16 ||| ((bytes.getD 1 0).toUInt16 <<< 8)

/-- `bytes_all_zero`. -/
def bytesAllZero : List UInt8 → Bool
  | [] => true
  | x :: xs => if x ≠ 0 then false else bytesAllZero xs

/-- The loop of `le_bytes_divide_u16`, from the last byte down: the quotient
bytes and the remainder. -/
def divideLoop (divisor : UInt32) : List UInt8 → List UInt8 × UInt32
  | [] => ([], 0)
  | x :: xs =>
      let p := divideLoop divisor xs
      let cur := (p.2 <<< 8) ||| x.toUInt32
      ((cur / divisor).toUInt8 :: p.1, cur % divisor)

/-- `le_bytes_divide_u16`. -/
def leBytesDivideU16 (value : List UInt8) (divisor : UInt16) : List UInt8 × UInt16 :=
  let p := divideLoop divisor.toUInt32 value
  (p.1, p.2.toUInt16)

/-- The digit loop of `format_le_decimal`, with `n` places left in `digits`:
the same division, by ten; least significant digit first. -/
def digitLoop : Nat → List UInt8 → List Char
  | 0, _ => []
  | n + 1, tmp =>
      if bytesAllZero tmp then []
      else
        let p := divideLoop 10 tmp
        Char.ofNat ('0'.toNat + p.2.toNat) :: digitLoop n p.1

/-- The copy loop of `format_le_decimal`, with the digits that are left, the
next one first, and the output buffer from `out_pos` on. -/
def copyDigits : List Char → List Char → List Char
  | _, [] => []
  | [], _ :: out => nul :: out
  | _ :: _, [_] => [nul]
  | d :: ds, _ :: o :: out => d :: copyDigits ds (o :: out)

/-- `sizeof(tmp)` and `sizeof(digits)` in `format_le_decimal`. -/
def tmpSize : Nat := 24

def digitsSize : Nat := 40

/-- `format_le_decimal`: the output buffer afterwards.  `value` is the first
`value_len` bytes of the array, `out` the buffer of `out_len` characters (a null
pointer is the empty one). -/
def formatLeDecimal (value : List UInt8) (out : List Char) : List Char :=
  if out.length = 0 then out
  else if tmpSize < value.length then out.set 0 nul
  else if bytesAllZero value then
    if 1 < out.length then (out.set 0 '0').set 1 nul else out.set 0 nul
  else copyDigits (digitLoop (digitsSize - 1) value).reverse out

/-- `format_le128_decimal`. -/
def formatLe128Decimal (value : Vector UInt8 16) (out : List Char) : List Char :=
  formatLeDecimal value.toList out

/-- The first loop of `mul_u128_small`: the bytes written and the carry left. -/
def mulLoop (multiplier : UInt32) : List UInt8 → UInt32 → List UInt8 × UInt32
  | [], carry => ([], carry)
  | x :: xs, carry =>
      let product := x.toUInt32 * multiplier + carry
      let p := mulLoop multiplier xs (product >>> 8)
      ((product &&& 0xff).toUInt8 :: p.1, p.2)

/-- The second loop of `mul_u128_small`, on the `n` zeroed bytes above the
first 16; it stops when nothing is left to carry. -/
def carryLoop : Nat → UInt32 → List UInt8
  | 0, _ => []
  | n + 1, carry =>
      if carry = 0 then List.replicate (n + 1) 0
      else (carry &&& 0xff).toUInt8 :: carryLoop n (carry >>> 8)

/-- `mul_u128_small`: the `outLen` bytes of `out`. -/
def mulU128Small (value : Vector UInt8 16) (multiplier : UInt32) (outLen : Nat) :
    List UInt8 :=
  let p := mulLoop multiplier (value.toList.take outLen) 0
  p.1 ++ carryLoop (outLen - 16) p.2

/-- `le_bytes_ge_u16`. -/
def leBytesGeU16 (value : List UInt8) (threshold : UInt16) : Bool :=
  (value.drop 2).any (· != 0) || decide (threshold ≤ readLe16 value)

/-- `units`, the suffix of each power of 1024. -/
def units : List String := ["B", "KiB", "MiB", "GiB", "TiB"]

/-- The scaling loop of `print_le_bytes_scaled`, with `n` units left: the bytes,
the last remainder and `unit_index`. -/
def scaleLoop : Nat → List UInt8 → UInt16 → Nat → List UInt8 × UInt16 × Nat
  | 0, bytes, remainder, unitIndex => (bytes, remainder, unitIndex)
  | n + 1, bytes, remainder, unitIndex =>
      if leBytesGeU16 bytes 1024 then
        let p := leBytesDivideU16 bytes 1024
        scaleLoop n p.1 p.2 (unitIndex + 1)
      else (bytes, remainder, unitIndex)

/-- A C string: the characters before the terminating null. -/
def cString (buffer : List Char) : List Char := buffer.takeWhile (· != nul)

/-- `%-24s`. -/
def padLabel (label : List Char) : List Char :=
  label ++ List.replicate (24 - label.length) ' '

/-- The line `print_le_bytes_scaled` prints: `label`, the integer part, the
tenths and the unit. -/
def scaledLine (label integer : List Char) (tenths : Option Nat) (unit : String) : List Char :=
  padLabel label ++ ' ' :: integer ++
    (match tenths with
      | none => []
      | some n => '.' :: Nat.toDigits 10 n) ++
    ' ' :: unit.toList ++ ['\n']

/-- `print_le_bytes_scaled`; what `integer_text` holds before does not matter. -/
def printLeBytesScaled (label : List Char) (bytes : List UInt8) : List Char :=
  let p := scaleLoop 4 bytes 0 0
  let integerText := formatLeDecimal p.1 (List.replicate 40 nul)
  let tenths :=
    if p.2.2 = 0 ∨ p.2.1 = 0 then none else some (p.2.1.toUInt32 * 10 / 1024).toNat
  scaledLine label (cString integerText) tenths (units.getD p.2.2 "")

/-- `print_smart_data_amount`. -/
def printSmartDataAmount (label : List Char) (value : Vector UInt8 16) : List Char :=
  printLeBytesScaled label (mulU128Small value 512000 24)

/-- The loop of `print_binary_size`: the bytes of a 64-bit value. -/
def le64Bytes (value : UInt64) : List UInt8 :=
  (List.range 8).map fun i => ((value >>> (i * 8).toUInt64) &&& 0xff).toUInt8

/-- `print_binary_size`. -/
def printBinarySize (label : List Char) (bytes : UInt64) : List Char :=
  printLeBytesScaled label (le64Bytes bytes)

/-! ### One step of the loops, in numbers -/

theorem toNat_shifted (r : UInt32) (x : UInt8) (hr : r.toNat < 2 ^ 24) :
    ((r <<< 8) ||| x.toUInt32).toNat = r.toNat * 256 + x.toNat := by
  have hx : x.toNat < 2 ^ 8 := x.toNat_lt
  have hshift : (r <<< 8).toNat = r.toNat <<< 8 := by
    rw [UInt32.toNat_shiftLeft]
    have hlt : r.toNat <<< 8 < 2 ^ 32 := by
      rw [Nat.shiftLeft_eq]
      omega
    simpa using Nat.mod_eq_of_lt hlt
  rw [UInt32.toNat_or, hshift, UInt8.toNat_toUInt32, ← Nat.shiftLeft_add_eq_or_of_lt hx,
    Nat.shiftLeft_eq]

theorem toNat_lowByte (n : UInt32) : ((n &&& 0xff).toUInt8).toNat = n.toNat % 256 := by
  rw [UInt32.toNat_toUInt8, UInt32.toNat_and]
  have hmask : n.toNat &&& 255 = n.toNat % 256 := Nat.and_two_pow_sub_one_eq_mod n.toNat 8
  change (n.toNat &&& 255) % 256 = _
  rw [hmask, Nat.mod_mod]

theorem toNat_highBytes (n : UInt32) : (n >>> 8).toNat = n.toNat / 256 := by
  rw [UInt32.toNat_shiftRight]
  exact Nat.shiftRight_eq_div_pow n.toNat 8

theorem toNat_product {x : UInt8} {multiplier carry : UInt32}
    (h : x.toNat * multiplier.toNat + carry.toNat < 2 ^ 32) :
    (x.toUInt32 * multiplier + carry).toNat = x.toNat * multiplier.toNat + carry.toNat := by
  rw [UInt32.toNat_add, UInt32.toNat_mul, UInt8.toNat_toUInt32,
    Nat.mod_eq_of_lt (a := x.toNat * multiplier.toNat) (by omega), Nat.mod_eq_of_lt h]

theorem toNat_lt_of_mem {bytes : List UInt8} {n : Nat} (h : n ∈ bytes.map UInt8.toNat) :
    n < 256 := by
  obtain ⟨x, _, rfl⟩ := List.mem_map.mp h
  exact x.toNat_lt

/-! ### The loops are schoolbook arithmetic -/

section Loops

variable {divisor multiplier : UInt32}

/-- No step of the division leaves 32 bits, and every quotient fits its byte. -/
theorem divideLoop_eq (hpos : 0 < divisor.toNat) (hle : divisor.toNat ≤ 2 ^ 16)
    (bytes : List UInt8) :
    (divideLoop divisor bytes).1.map UInt8.toNat =
        (Digits.shortDiv 256 divisor.toNat (bytes.map UInt8.toNat)).1 ∧
      (divideLoop divisor bytes).2.toNat =
        (Digits.shortDiv 256 divisor.toNat (bytes.map UInt8.toNat)).2 := by
  induction bytes with
  | nil => exact ⟨rfl, rfl⟩
  | cons x xs ih =>
      obtain ⟨hquot, hrem⟩ := ih
      have hlt : (divideLoop divisor xs).2.toNat < divisor.toNat := by
        rw [hrem]
        exact Digits.shortDiv_rem_lt hpos _
      have hcur : (((divideLoop divisor xs).2 <<< 8) ||| x.toUInt32).toNat =
          (divideLoop divisor xs).2.toNat * 256 + x.toNat :=
        toNat_shifted _ x (by omega)
      have hfits : ((divideLoop divisor xs).2.toNat * 256 + x.toNat) / divisor.toNat < 256 := by
        have hx : x.toNat < 256 := x.toNat_lt
        refine Nat.div_lt_of_lt_mul ?_
        have hmul : ((divideLoop divisor xs).2.toNat + 1) * 256 ≤ divisor.toNat * 256 :=
          Nat.mul_le_mul_right 256 hlt
        omega
      constructor
      · simp only [divideLoop, List.map_cons, Digits.shortDiv, ← hquot, ← hrem]
        rw [UInt32.toNat_toUInt8, UInt32.toNat_div, hcur, Nat.mod_eq_of_lt hfits]
      · simp only [divideLoop, List.map_cons, Digits.shortDiv, ← hrem]
        rw [UInt32.toNat_mod, hcur]

theorem divideLoop_length (bytes : List UInt8) :
    (divideLoop divisor bytes).1.length = bytes.length := by
  induction bytes with
  | nil => rfl
  | cons x xs ih => simp [divideLoop, ih]

theorem leValue_divideLoop (hpos : 0 < divisor.toNat) (hle : divisor.toNat ≤ 2 ^ 16)
    (bytes : List UInt8) :
    leValue (divideLoop divisor bytes).1 = leValue bytes / divisor.toNat := by
  rw [leValue, (divideLoop_eq hpos hle bytes).1]
  exact Digits.shortDiv_quot hpos _

theorem rem_divideLoop (hpos : 0 < divisor.toNat) (hle : divisor.toNat ≤ 2 ^ 16)
    (bytes : List UInt8) :
    (divideLoop divisor bytes).2.toNat = leValue bytes % divisor.toNat := by
  rw [(divideLoop_eq hpos hle bytes).2]
  exact Digits.shortDiv_rem hpos _

/-- No product of the multiplication leaves 32 bits. -/
theorem product_fits {x : UInt8} {carry : UInt32} (hle : multiplier.toNat ≤ 2 ^ 24)
    (hcarry : carry.toNat < multiplier.toNat) :
    x.toNat * multiplier.toNat + carry.toNat < 2 ^ 32 := by
  have hx : x.toNat ≤ 255 := Nat.le_of_lt_succ x.toNat_lt
  have hmul : x.toNat * multiplier.toNat ≤ 255 * multiplier.toNat := Nat.mul_le_mul_right _ hx
  omega

theorem mulLoop_eq (hle : multiplier.toNat ≤ 2 ^ 24) (bytes : List UInt8) {carry : UInt32}
    (hcarry : carry.toNat < multiplier.toNat) :
    (mulLoop multiplier bytes carry).1.map UInt8.toNat =
        (Digits.shortMul 256 multiplier.toNat (bytes.map UInt8.toNat) carry.toNat).1 ∧
      (mulLoop multiplier bytes carry).2.toNat =
        (Digits.shortMul 256 multiplier.toNat (bytes.map UInt8.toNat) carry.toNat).2 := by
  induction bytes generalizing carry with
  | nil => exact ⟨rfl, rfl⟩
  | cons x xs ih =>
      have hprod := toNat_product (product_fits (x := x) hle hcarry)
      have hnext : ((x.toUInt32 * multiplier + carry) >>> 8).toNat =
          (x.toNat * multiplier.toNat + carry.toNat) / 256 := by
        rw [toNat_highBytes, hprod]
      have hlt : ((x.toUInt32 * multiplier + carry) >>> 8).toNat < multiplier.toNat := by
        rw [hnext]
        exact Digits.carry_lt x.toNat_lt hcarry
      obtain ⟨hbytes, hout⟩ := ih hlt
      rw [hnext] at hbytes hout
      constructor
      · simp only [mulLoop, List.map_cons, Digits.shortMul, hbytes]
        rw [toNat_lowByte, hprod]
      · exact hout

theorem mulLoop_length (bytes : List UInt8) (carry : UInt32) :
    (mulLoop multiplier bytes carry).1.length = bytes.length := by
  induction bytes generalizing carry with
  | nil => rfl
  | cons x xs ih => simp [mulLoop, ih]

/-- The carry stays below the multiplier, so every product of the loop fits. -/
theorem mulLoop_carry_lt (hpos : 0 < multiplier.toNat) (hle : multiplier.toNat ≤ 2 ^ 24)
    (bytes : List UInt8) : (mulLoop multiplier bytes 0).2.toNat < multiplier.toNat := by
  have hzero : (0 : UInt32).toNat < multiplier.toNat := hpos
  rw [(mulLoop_eq hle bytes hzero).2]
  exact Digits.shortMul_carry_lt (fun x hx => toNat_lt_of_mem hx) hpos

end Loops

section Carry

theorem leValue_cons (x : UInt8) (xs : List UInt8) :
    leValue (x :: xs) = x.toNat + 256 * leValue xs := by
  rw [leValue, List.map_cons, Nat.ofDigits_cons, leValue]

theorem leValue_append (xs ys : List UInt8) :
    leValue (xs ++ ys) = leValue xs + 256 ^ xs.length * leValue ys := by
  rw [leValue, List.map_append, Nat.ofDigits_append, List.length_map, leValue, leValue]

theorem leValue_zeroes (n : Nat) : leValue (List.replicate n 0) = 0 := by
  rw [leValue, List.map_replicate]
  exact Nat.ofDigits_replicate_zero

theorem leValue_lt (bytes : List UInt8) : leValue bytes < 256 ^ bytes.length := by
  have hlt := Nat.ofDigits_lt_base_pow_length (b := 256) (by decide)
    (fun x (hx : x ∈ bytes.map UInt8.toNat) => toNat_lt_of_mem hx)
  rwa [List.length_map] at hlt

theorem carryLoop_length (n : Nat) (carry : UInt32) : (carryLoop n carry).length = n := by
  induction n generalizing carry with
  | zero => rfl
  | succ n ih =>
      rw [carryLoop]
      split
      · exact List.length_replicate
      · rw [List.length_cons, ih]

/-- The early stop loses nothing: the bytes above are zero already. -/
theorem leValue_carryLoop (n : Nat) {carry : UInt32} (h : carry.toNat < 256 ^ n) :
    leValue (carryLoop n carry) = carry.toNat := by
  induction n generalizing carry with
  | zero =>
      have hzero : carry.toNat = 0 := by simpa using h
      exact hzero.symm
  | succ n ih =>
      rw [carryLoop]
      split
      · rename_i hstop
        rw [leValue_zeroes, hstop]
        rfl
      · have hrest : (carry >>> 8).toNat < 256 ^ n := by
          rw [toNat_highBytes]
          exact Nat.div_lt_of_lt_mul (by rwa [pow_succ'] at h)
        rw [leValue_cons, ih hrest, toNat_lowByte, toNat_highBytes]
        exact Nat.mod_add_div carry.toNat 256

end Carry

/-! ### `mul_u128_small` -/

section Multiply

variable {multiplier : UInt32} (value : Vector UInt8 16)

theorem mulU128Small_length (outLen : Nat) :
    (mulU128Small value multiplier outLen).length = outLen := by
  have hlen : value.toList.length = 16 := by simp
  simp only [mulU128Small, List.length_append, mulLoop_length, List.length_take,
    carryLoop_length, hlen]
  omega

/-- The product is exact as soon as the carry of the sixteen bytes fits above them. -/
theorem leValue_mulU128Small (hpos : 0 < multiplier.toNat) (hle : multiplier.toNat ≤ 2 ^ 24)
    {outLen : Nat} (hlen : 19 ≤ outLen) :
    leValue (mulU128Small value multiplier outLen) =
      leValue value.toList * multiplier.toNat := by
  have htake : value.toList.take outLen = value.toList :=
    List.take_of_length_le (by simp; omega)
  have hvalue := Digits.shortMul_value (b := 256) (m := multiplier.toNat)
    (value.toList.map UInt8.toNat) 0
  have hzero : (0 : UInt32).toNat < multiplier.toNat := hpos
  obtain ⟨hbytes, hout⟩ := mulLoop_eq hle value.toList hzero
  have hcarry : (mulLoop multiplier value.toList 0).2.toNat < 256 ^ (outLen - 16) := by
    calc (mulLoop multiplier value.toList 0).2.toNat < 2 ^ 24 :=
          (mulLoop_carry_lt hpos hle _).trans_le hle
      _ = 256 ^ 3 := by norm_num
      _ ≤ 256 ^ (outLen - 16) := Nat.pow_le_pow_right (by decide) (by omega)
  rw [List.length_map] at hvalue
  rw [mulU128Small, htake, leValue_append, leValue_carryLoop _ hcarry, mulLoop_length, leValue,
    hbytes, hout]
  exact hvalue

end Multiply

/-! ### `format_le_decimal` -/

section Format

theorem bytesAllZero_iff (bytes : List UInt8) :
    bytesAllZero bytes = true ↔ leValue bytes = 0 := by
  induction bytes with
  | nil => exact ⟨fun _ => rfl, fun _ => rfl⟩
  | cons x xs ih =>
      rw [leValue_cons, bytesAllZero]
      split
      · rename_i hne
        have hpos : x.toNat ≠ 0 := fun h => hne (UInt8.toNat_inj.mp h)
        constructor
        · exact fun h => nomatch h
        · omega
      · rename_i hzero
        have hx : x.toNat = 0 := by
          rw [not_not.mp hzero]
          rfl
        rw [ih]
        omega

theorem digitChar_eq {n : Nat} (h : n < 10) : Char.ofNat ('0'.toNat + n) = Nat.digitChar n := by
  interval_cases n <;> rfl

/-- Thirty-nine divisions by ten find every digit, the last one first. -/
theorem digitLoop_reverse (n : Nat) {tmp : List UInt8} (hpos : 0 < leValue tmp)
    (hlt : leValue tmp < 10 ^ n) : (digitLoop n tmp).reverse = Nat.toDigits 10 (leValue tmp) := by
  induction n generalizing tmp with
  | zero => omega
  | succ n ih =>
      have hne : ¬bytesAllZero tmp = true := by
        rw [bytesAllZero_iff]
        omega
      have hten : (10 : UInt32).toNat = 10 := rfl
      have hquot : leValue (divideLoop 10 tmp).1 = leValue tmp / 10 :=
        leValue_divideLoop (by decide) (by decide) tmp
      have hrem : (divideLoop 10 tmp).2.toNat = leValue tmp % 10 :=
        rem_divideLoop (by decide) (by decide) tmp
      have hdigit : Char.ofNat ('0'.toNat + (divideLoop 10 tmp).2.toNat) =
          Nat.digitChar (leValue tmp % 10) := by
        rw [hrem]
        exact digitChar_eq (Nat.mod_lt _ (by decide))
      rw [digitLoop, if_neg hne]
      dsimp only
      rw [List.reverse_cons, hdigit]
      rcases Nat.lt_or_ge (leValue tmp) 10 with hlast | hmore
      · have hzero : leValue (divideLoop 10 tmp).1 = 0 := by
          rw [hquot, Nat.div_eq_of_lt hlast]
        have hstop : digitLoop n (divideLoop 10 tmp).1 = [] := by
          cases n with
          | zero => rfl
          | succ n => rw [digitLoop, if_pos ((bytesAllZero_iff _).mpr hzero)]
        rw [hstop, Nat.toDigits_of_lt_base hlast, Nat.mod_eq_of_lt hlast]
        rfl
      · have hsmall : leValue (divideLoop 10 tmp).1 < 10 ^ n := by
          rw [hquot]
          exact Nat.div_lt_of_lt_mul (by rwa [pow_succ'] at hlt)
        rw [ih (by omega) hsmall, hquot, Nat.toDigits_of_base_le (by decide) hmore]

/-- A buffer with room for the digits and the null takes all of them. -/
theorem copyDigits_eq (digits : List Char) {out : List Char} (h : digits.length < out.length) :
    copyDigits digits out = digits ++ nul :: out.drop (digits.length + 1) := by
  induction digits generalizing out with
  | nil =>
      cases out with
      | nil => cases h
      | cons o out => simp [copyDigits]
  | cons d digits ih =>
      match out, h with
      | _ :: o :: out, h =>
          have hroom : digits.length < (o :: out).length := by simpa using h
          rw [copyDigits, ih hroom]
          rfl

/-- The numeral, a null, and the rest of the buffer as it was. -/
theorem formatLeDecimal_eq {value : List UInt8} {out : List Char} (hlen : value.length ≤ 24)
    (hlt : leValue value < 10 ^ 39) (hout : 40 ≤ out.length) :
    formatLeDecimal value out = Nat.toDigits 10 (leValue value) ++
      nul :: out.drop ((Nat.toDigits 10 (leValue value)).length + 1) := by
  have hfits : (Nat.toDigits 10 (leValue value)).length ≤ 39 :=
    (Nat.length_toDigits_le_iff (by decide) (by decide)).mpr hlt
  rw [formatLeDecimal, if_neg (by omega), if_neg (by simp only [tmpSize]; omega)]
  split
  · rename_i hzero
    rw [(bytesAllZero_iff _).mp hzero, if_pos (by omega), Nat.toDigits_zero]
    match out, hout with
    | _ :: _ :: out, _ => rfl
  · rename_i hne
    have hpos : 0 < leValue value := by
      rw [bytesAllZero_iff] at hne
      omega
    have hdigits := digitLoop_reverse (digitsSize - 1) hpos hlt
    rw [hdigits]
    exact copyDigits_eq _ (by omega)

theorem nul_not_digit {n : Nat} {c : Char} (h : c ∈ Nat.toDigits 10 n) : (c != nul) = true := by
  have hdigit := Nat.isDigit_of_mem_toDigits (by decide) (by decide) h
  rw [bne_iff_ne]
  rintro rfl
  exact absurd hdigit (by decide)

/-- A reader of the buffer finds the numeral. -/
theorem cString_formatLeDecimal {value : List UInt8} {out : List Char} (hlen : value.length ≤ 24)
    (hlt : leValue value < 10 ^ 39) (hout : 40 ≤ out.length) :
    cString (formatLeDecimal value out) = Nat.toDigits 10 (leValue value) := by
  rw [formatLeDecimal_eq hlen hlt hout, cString,
    List.takeWhile_append_of_pos fun c hc => nul_not_digit hc]
  simp

end Format

/-! ### `print_le_bytes_scaled` -/

section Scale

theorem toNat_readLe16 (x y : UInt8) (rest : List UInt8) :
    (readLe16 (x :: y :: rest)).toNat = x.toNat + 256 * y.toNat := by
  have hx : x.toNat < 2 ^ 8 := x.toNat_lt
  have hy : y.toNat < 2 ^ 8 := y.toNat_lt
  have hshift : (y.toUInt16 <<< 8).toNat = y.toNat <<< 8 := by
    rw [UInt16.toNat_shiftLeft, UInt8.toNat_toUInt16]
    have hlt : y.toNat <<< 8 < 2 ^ 16 := by
      rw [Nat.shiftLeft_eq]
      omega
    simpa using Nat.mod_eq_of_lt hlt
  change (x.toUInt16 ||| (y.toUInt16 <<< 8)).toNat = _
  rw [UInt16.toNat_or, hshift, UInt8.toNat_toUInt16, Nat.or_comm,
    ← Nat.shiftLeft_add_eq_or_of_lt hx, Nat.shiftLeft_eq]
  omega

theorem any_ne_zero_iff (bytes : List UInt8) :
    bytes.any (· != 0) = true ↔ leValue bytes ≠ 0 := by
  induction bytes with
  | nil => simp [leValue]
  | cons x xs ih =>
      rw [List.any_cons, Bool.or_eq_true, ih, leValue_cons, bne_iff_ne, ne_eq, ← UInt8.toNat_inj]
      change ¬x.toNat = 0 ∨ _ ↔ _
      omega

theorem leBytesGeU16_iff {bytes : List UInt8} (hlen : 2 ≤ bytes.length) (threshold : UInt16) :
    leBytesGeU16 bytes threshold = true ↔ threshold.toNat ≤ leValue bytes := by
  match bytes, hlen with
  | x :: y :: rest, _ =>
      have hlow : threshold.toNat < 2 ^ 16 := threshold.toNat_lt
      rw [leBytesGeU16, Bool.or_eq_true, decide_eq_true_iff, UInt16.le_iff_toNat_le,
        toNat_readLe16]
      change (rest.any (· != 0) = true ∨ _) ↔ _
      rw [any_ne_zero_iff, leValue_cons, leValue_cons]
      omega

/-- The power of 1024 a value is printed in: the least one, up to four, that
leaves less than 1024. -/
def leastScale (x : Nat) : Nat :=
  ((List.range 4).find? fun k => x < 1024 * 1024 ^ k).getD 4

/-- The digit behind the point, if there is one. -/
def tenthsOf (x k : Nat) : Option Nat :=
  let remainder := x / 1024 ^ (k - 1) % 1024
  if k = 0 ∨ remainder = 0 then none else some (remainder * 10 / 1024)

theorem leastScale_eq {x k : Nat} (hle : k ≤ 4) (hbefore : ∀ j, j < k → 1024 * 1024 ^ j ≤ x)
    (hstop : k = 4 ∨ x < 1024 * 1024 ^ k) : leastScale x = k := by
  rw [leastScale]
  rcases Nat.lt_or_ge k 4 with hlt | hfour
  · have hnow : x < 1024 * 1024 ^ k := hstop.resolve_left (by omega)
    have hfound : ((List.range 4).find? fun k => x < 1024 * 1024 ^ k) = some k := by
      rw [List.find?_range_eq_some]
      refine ⟨decide_eq_true hnow, List.mem_range.mpr hlt, fun j hj => ?_⟩
      simpa using hbefore j hj
    rw [hfound]
    rfl
  · have hnone : ((List.range 4).find? fun k => x < 1024 * 1024 ^ k) = none := by
      rw [List.find?_range_eq_none]
      intro j hj
      simpa using hbefore j (by omega)
    rw [hnone]
    exact (Nat.le_antisymm hle hfour).symm

/-- Where the scaling loop stands after `k` divisions of `bytes`. -/
structure Scaled (bytes : List UInt8) (k : Nat) (cur : List UInt8) (remainder : UInt16) :
    Prop where
  length : cur.length = bytes.length
  value : leValue cur = leValue bytes / 1024 ^ k
  remainder : 0 < k → remainder.toNat = leValue bytes / 1024 ^ (k - 1) % 1024
  before : ∀ j, j < k → 1024 * 1024 ^ j ≤ leValue bytes

variable {bytes : List UInt8}

theorem Scaled.start (bytes : List UInt8) : Scaled bytes 0 bytes 0 where
  length := rfl
  value := (Nat.div_one _).symm
  remainder := fun h => absurd h (Nat.lt_irrefl 0)
  before := fun _ h => absurd h (Nat.not_lt_zero _)

/-- At least 1024 are left exactly when the scale is not reached yet. -/
theorem Scaled.more_iff {k : Nat} {cur : List UInt8} {remainder : UInt16}
    (h : Scaled bytes k cur remainder) (hlen : 2 ≤ bytes.length) :
    leBytesGeU16 cur 1024 = true ↔ 1024 * 1024 ^ k ≤ leValue bytes := by
  have hthreshold : (1024 : UInt16).toNat = 1024 := rfl
  rw [leBytesGeU16_iff (h.length ▸ hlen), h.value, hthreshold,
    Nat.le_div_iff_mul_le (Nat.pow_pos (by decide))]

theorem Scaled.divide {k : Nat} {cur : List UInt8} {remainder : UInt16}
    (h : Scaled bytes k cur remainder) (hmore : 1024 * 1024 ^ k ≤ leValue bytes) :
    Scaled bytes (k + 1) (leBytesDivideU16 cur 1024).1 (leBytesDivideU16 cur 1024).2 := by
  have hrem : (divideLoop 1024 cur).2.toNat = leValue cur % 1024 :=
    rem_divideLoop (by decide) (by decide) cur
  have hquot : leValue (divideLoop 1024 cur).1 = leValue cur / 1024 :=
    leValue_divideLoop (by decide) (by decide) cur
  constructor
  case length => exact (divideLoop_length cur).trans h.length
  case value =>
    change leValue (divideLoop 1024 cur).1 = _
    rw [hquot, h.value, Nat.div_div_eq_div_mul, pow_succ]
  case remainder =>
    intro _
    change (divideLoop 1024 cur).2.toUInt16.toNat = _
    rw [UInt32.toNat_toUInt16, hrem, h.value, Nat.add_sub_cancel]
    exact Nat.mod_eq_of_lt ((Nat.mod_lt _ (by decide)).trans (by decide))
  case before =>
    intro j hj
    rcases Nat.lt_or_ge j k with hlt | hge
    · exact h.before j hlt
    · rw [Nat.le_antisymm (Nat.le_of_lt_succ hj) hge]
      exact hmore

/-- The loop stops at the scale of the value. -/
theorem scaleLoop_scaled (hlen : 2 ≤ bytes.length) (n : Nat) {k : Nat} {cur : List UInt8}
    {remainder : UInt16} (h : Scaled bytes k cur remainder) (hk : k + n = 4) :
    ∃ cur' remainder', scaleLoop n cur remainder k =
        (cur', remainder', leastScale (leValue bytes)) ∧
      Scaled bytes (leastScale (leValue bytes)) cur' remainder' := by
  induction n generalizing k cur remainder with
  | zero =>
      have hscale : leastScale (leValue bytes) = k :=
        leastScale_eq (by omega) h.before (.inl (by omega))
      rw [hscale]
      exact ⟨cur, remainder, rfl, h⟩
  | succ n ih =>
      rw [scaleLoop]
      split
      · rename_i hmore
        exact ih (h.divide ((h.more_iff hlen).mp hmore)) (by omega)
      · rename_i hdone
        have hlt : leValue bytes < 1024 * 1024 ^ k := by
          rw [h.more_iff hlen] at hdone
          omega
        have hscale : leastScale (leValue bytes) = k :=
          leastScale_eq (by omega) h.before (.inr hlt)
        rw [hscale]
        exact ⟨cur, remainder, rfl, h⟩

/-- Below 1024, or scaled down four times. -/
theorem leastScale_spec (x : Nat) :
    leastScale x = 4 ∨ x < 1024 * 1024 ^ leastScale x := by
  rw [leastScale]
  cases hfind : (List.range 4).find? fun k => x < 1024 * 1024 ^ k with
  | none => exact .inl rfl
  | some k => exact .inr (by simpa using List.find?_some hfind)

theorem scaled_lt {x : Nat} (h : x < 10 ^ 39 * 1024 ^ 4) :
    x / 1024 ^ leastScale x < 10 ^ 39 := by
  refine Nat.div_lt_of_lt_mul ?_
  rcases leastScale_spec x with hfour | hlt
  · rw [hfour, Nat.mul_comm]
    exact h
  · calc x < 1024 * 1024 ^ leastScale x := hlt
      _ = 1024 ^ leastScale x * 1024 := Nat.mul_comm _ _
      _ ≤ 1024 ^ leastScale x * 10 ^ 39 := Nat.mul_le_mul_left _ (by norm_num)

/-- The tenths are those of the last remainder, with nothing lost to 32 bits. -/
theorem Scaled.tenths {k : Nat} {cur : List UInt8} {remainder : UInt16}
    (h : Scaled bytes k cur remainder) :
    (if k = 0 ∨ remainder = 0 then none else some (remainder.toUInt32 * 10 / 1024).toNat) =
      tenthsOf (leValue bytes) k := by
  rw [tenthsOf]
  rcases Nat.eq_zero_or_pos k with rfl | hpos
  · rw [if_pos (.inl rfl), if_pos (.inl rfl)]
  · have hrem := h.remainder hpos
    have hzero : remainder = 0 ↔ leValue bytes / 1024 ^ (k - 1) % 1024 = 0 := by
      rw [← hrem, ← UInt16.toNat_inj]
      rfl
    have hmul : (remainder.toUInt32 * 10).toNat = remainder.toNat * 10 := by
      have hlt : remainder.toNat < 2 ^ 16 := remainder.toNat_lt
      rw [UInt32.toNat_mul, UInt16.toNat_toUInt32]
      exact Nat.mod_eq_of_lt (by change remainder.toNat * 10 < 2 ^ 32; omega)
    have hdiv : (remainder.toUInt32 * 10 / 1024).toNat =
        leValue bytes / 1024 ^ (k - 1) % 1024 * 10 / 1024 := by
      rw [UInt32.toNat_div, hmul, hrem]
      rfl
    rw [hdiv]
    exact if_congr (or_congr Iff.rfl hzero) rfl rfl

/-- What is printed of a little-endian byte count, as long as the scaled count has
no more than 39 digits. -/
theorem printLeBytesScaled_eq (label : List Char) (hlen : 2 ≤ bytes.length)
    (htmp : bytes.length ≤ 24) (hlt : leValue bytes < 10 ^ 39 * 1024 ^ 4) :
    printLeBytesScaled label bytes =
      scaledLine label
        (Nat.toDigits 10 (leValue bytes / 1024 ^ leastScale (leValue bytes)))
        (tenthsOf (leValue bytes) (leastScale (leValue bytes)))
        (units.getD (leastScale (leValue bytes)) "") := by
  obtain ⟨cur, remainder, hloop, hscaled⟩ :=
    scaleLoop_scaled hlen 4 (Scaled.start bytes) rfl
  have htext : cString (formatLeDecimal cur (List.replicate 40 nul)) =
      Nat.toDigits 10 (leValue cur) :=
    cString_formatLeDecimal (hscaled.length ▸ htmp) (hscaled.value ▸ scaled_lt hlt)
      (by rw [List.length_replicate])
  rw [printLeBytesScaled, hloop]
  dsimp only
  rw [htext, hscaled.value, hscaled.tenths]

end Scale

/-! ### 64-bit sizes -/

section BinarySize

theorem toNat_shiftedByte (value : UInt64) {i : Nat} (h : i < 8) :
    (((value >>> (i * 8).toUInt64) &&& 0xff).toUInt8).toNat =
      value.toNat / 256 ^ i % 256 := by
  have hshift : ((i * 8).toUInt64).toNat % 64 = 8 * i := by
    rw [Nat.toUInt64_eq, UInt64.toNat_ofNat']
    omega
  have hmask : value.toNat >>> (8 * i) &&& 255 = value.toNat >>> (8 * i) % 256 :=
    Nat.and_two_pow_sub_one_eq_mod _ 8
  rw [UInt64.toNat_toUInt8, UInt64.toNat_and, UInt64.toNat_shiftRight, hshift]
  change (value.toNat >>> (8 * i) &&& 255) % 256 = _
  rw [hmask, Nat.mod_mod, Nat.shiftRight_eq_div_pow, pow_mul]
  rfl

/-- The low `n` bytes of a value, least significant first. -/
theorem leValue_bytes (value : UInt64) {n : Nat} (h : n ≤ 8) :
    leValue ((List.range n).map fun i => ((value >>> (i * 8).toUInt64) &&& 0xff).toUInt8) =
      value.toNat % 256 ^ n := by
  induction n with
  | zero => exact (Nat.mod_one _).symm
  | succ n ih =>
      rw [List.range_succ, List.map_append, leValue_append, ih (by omega), List.length_map,
        List.length_range, Nat.mod_pow_succ, ← toNat_shiftedByte value h]
      simp [leValue]

theorem leValue_le64Bytes (value : UInt64) : leValue (le64Bytes value) = value.toNat := by
  rw [le64Bytes, leValue_bytes value (Nat.le_refl 8)]
  exact Nat.mod_eq_of_lt value.toNat_lt

/-- A 64-bit size is printed like the product of a counter. -/
theorem printBinarySize_eq (label : List Char) (bytes : UInt64) :
    printBinarySize label bytes =
      scaledLine label (Nat.toDigits 10 (bytes.toNat / 1024 ^ leastScale bytes.toNat))
        (tenthsOf bytes.toNat (leastScale bytes.toNat))
        (units.getD (leastScale bytes.toNat) "") := by
  have hlt : bytes.toNat < 2 ^ 64 := bytes.toNat_lt
  have hlength : (le64Bytes bytes).length = 8 := by simp [le64Bytes]
  have hsize : leValue (le64Bytes bytes) < 10 ^ 39 * 1024 ^ 4 := by
    rw [leValue_le64Bytes]
    omega
  have hprinted := printLeBytesScaled_eq label (by rw [hlength]; decide)
    (by rw [hlength]; decide) hsize
  rwa [leValue_le64Bytes] at hprinted

end BinarySize

/-! ### SMART counters -/

section Smart

variable (value : Vector UInt8 16)

theorem leValue_smart_lt : leValue value.toList < 256 ^ 16 := by
  have hlt := leValue_lt value.toList
  rwa [Vector.length_toList] at hlt

/-- A 16-byte value is formatted as its decimal numeral; its product with 512000 is
exact, without a product that leaves 32 bits on the way; and the amount of data printed
for it is the numeral of the product, scaled by the power of 1024 that suits it. -/
theorem wide_integers_exact (label out : List Char) (hout : 40 ≤ out.length) :
    formatLe128Decimal value out = Nat.toDigits 10 (leValue value.toList) ++
        nul :: out.drop ((Nat.toDigits 10 (leValue value.toList)).length + 1) ∧
      (leValue (mulU128Small value 512000 24) = leValue value.toList * 512000 ∧
        (mulU128Small value 512000 24).length = 24 ∧
        ∀ i (h : i < 16), value[i].toNat * 512000 +
          (mulLoop 512000 (value.toList.take i) 0).2.toNat < 2 ^ 32) ∧
      printSmartDataAmount label value =
        scaledLine label
          (Nat.toDigits 10 (leValue value.toList * 512000 /
            1024 ^ leastScale (leValue value.toList * 512000)))
          (tenthsOf (leValue value.toList * 512000) (leastScale (leValue value.toList * 512000)))
          (units.getD (leastScale (leValue value.toList * 512000)) "") := by
  have hlt := leValue_smart_lt value
  have hfactor : (512000 : UInt32).toNat = 512000 := rfl
  have hproduct : leValue (mulU128Small value 512000 24) = leValue value.toList * 512000 :=
    leValue_mulU128Small value (by decide) (by decide) (by decide)
  have hlength : (mulU128Small value 512000 24).length = 24 := mulU128Small_length value 24
  refine ⟨?_, ⟨hproduct, hlength, fun i h => ?_⟩, ?_⟩
  · exact formatLeDecimal_eq (by rw [Vector.length_toList]; decide)
      (hlt.trans (by norm_num)) hout
  · have hle : (512000 : UInt32).toNat ≤ 2 ^ 24 := by decide
    have hcarry : (mulLoop 512000 (value.toList.take i) 0).2.toNat < (512000 : UInt32).toNat :=
      mulLoop_carry_lt (by decide) hle _
    exact product_fits hle hcarry
  · have hsize : leValue (mulU128Small value 512000 24) < 10 ^ 39 * 1024 ^ 4 := by
      rw [hproduct]
      omega
    have hprinted := printLeBytesScaled_eq label (by rw [hlength]; decide) (by rw [hlength]) hsize
    rwa [hproduct] at hprinted

/-- A million data units, 512 GB. -/
def millionUnits : Vector UInt8 16 :=
  #v[0x40, 0x42, 0x0F, 0, 0, 0, 0, 0, 0, 0, 0, 0, 0, 0, 0, 0]

theorem wide_integers_exact_million :
    formatLe128Decimal millionUnits (List.replicate 40 nul) =
        ['1', '0', '0', '0', '0', '0', '0'] ++ List.replicate 33 nul ∧
      printSmartDataAmount ['R', 'e', 'a', 'd'] millionUnits =
        scaledLine ['R', 'e', 'a', 'd'] ['4', '7', '6'] (some 8) "GiB" := by
  obtain ⟨hformat, -, hprint⟩ := wide_integers_exact millionUnits ['R', 'e', 'a', 'd']
    (List.replicate 40 nul) (by decide)
  have hvalue : leValue millionUnits.toList = 1000000 := by decide
  rw [hvalue] at hformat hprint
  exact ⟨hformat.trans (by decide), hprint.trans (by decide +kernel)⟩

end Smart

end Adm
end NvmeDriver
