import LiveCDN.Library.BigEndian
import Mathlib.Tactic.IntervalCases

/-!
# Typed arrays and 32-bit integers

How a script reads numbers and parts out of an array of bytes. `joinBytes` is four bytes put
together with `<<` and `|`, which work on 32 bits and give a signed number: it is the big-endian
value of the bytes when that value is below `2 ^ 31`, and negative otherwise (`joinBytes_eq_bmod`).
`slice` is `TypedArray.prototype.slice`, whose end counts from the end of the array when it is
negative and is cut off at the end of the array when it is beyond it (`slice_natCast`,
`length_slice`).
-/

set_option autoImplicit false
set_option relaxedAutoImplicit false

namespace LiveCDN.Library.TypedArray

open BigEndian

/-! ### Bytes put together -/

/-- `(a << 24) | (b << 16) | (c << 8) | d`. -/
def joinBytes (a b c d : UInt8) : ℤ :=
  (BitVec.ofNat 32 a.toNat <<< 24 ||| BitVec.ofNat 32 b.toNat <<< 16 |||
    BitVec.ofNat 32 c.toNat <<< 8 ||| BitVec.ofNat 32 d.toNat).toInt

/-- Four digits that are shifted and joined are their weighted sum. Assumes: the lower three are
bytes. -/
theorem shift_join_four {a b c d : ℕ} (hb : b < 256) (hc : c < 256) (hd : d < 256) :
    a <<< 24 ||| b <<< 16 ||| c <<< 8 ||| d = a * 16777216 + b * 65536 + c * 256 + d := by
  have hlow : c <<< 8 ||| d = c * 256 + d := by
    rw [← Nat.shiftLeft_add_eq_or_of_lt hd, Nat.shiftLeft_eq]
  have hmiddle : b <<< 16 ||| (c * 256 + d) = b * 65536 + (c * 256 + d) := by
    rw [← Nat.shiftLeft_add_eq_or_of_lt (by omega), Nat.shiftLeft_eq]
  rw [Nat.or_assoc, hlow, Nat.or_assoc, hmiddle, ← Nat.shiftLeft_add_eq_or_of_lt (by omega),
    Nat.shiftLeft_eq]
  omega

/-- Four bytes put together are their big-endian value, read as a signed number of 32 bits. -/
theorem joinBytes_eq_bmod (a b c d : UInt8) :
    joinBytes a b c d = Int.bmod (value [a, b, c, d]) (2 ^ 32) := by
  have ha := a.toNat_lt
  have hb := b.toNat_lt
  have hc := c.toNat_lt
  have hd := d.toNat_lt
  have hbits : ∀ (byte : UInt8) (places : ℕ), places ≤ 24 →
      (BitVec.ofNat 32 byte.toNat <<< places).toNat = byte.toNat <<< places := by
    intro byte places hplaces
    have hbyte := byte.toNat_lt
    have hsame : byte.toNat % 2 ^ 32 = byte.toNat := Nat.mod_eq_of_lt (by omega)
    have hshifted : byte.toNat <<< places < 2 ^ 32 := by
      rw [Nat.shiftLeft_eq]
      calc byte.toNat * 2 ^ places ≤ 255 * 2 ^ 24 :=
            Nat.mul_le_mul (by omega) (Nat.pow_le_pow_right (by decide) hplaces)
        _ < 2 ^ 32 := by decide
    rw [BitVec.toNat_shiftLeft, BitVec.toNat_ofNat, hsame,
      Nat.mod_eq_of_lt hshifted]
  have hlast : (BitVec.ofNat 32 d.toNat).toNat = d.toNat := by
    rw [BitVec.toNat_ofNat, Nat.mod_eq_of_lt (by omega)]
  have hvalue : value [a, b, c, d] =
      a.toNat * 16777216 + b.toNat * 65536 + c.toNat * 256 + d.toNat := by
    simp only [value_cons, value_nil, List.length_cons, List.length_nil]
    omega
  rw [joinBytes, BitVec.toInt_eq_toNat_bmod, BitVec.toNat_or, BitVec.toNat_or, BitVec.toNat_or,
    hbits a 24 le_rfl, hbits b 16 (by decide), hbits c 8 (by decide), hlast,
    shift_join_four hb hc hd, hvalue]

/-- Four bytes of an array, where it has them, spell the field that starts with them. -/
theorem value_getD {data : List UInt8} {offset : ℕ} (hinside : offset + 4 ≤ data.length) :
    value [data.getD offset 0, data.getD (offset + 1) 0, data.getD (offset + 2) 0,
      data.getD (offset + 3) 0] = field data offset 4 := by
  have htake : (data.drop offset).take 4 = [data.getD offset 0, data.getD (offset + 1) 0,
      data.getD (offset + 2) 0, data.getD (offset + 3) 0] := by
    refine List.ext_getElem (by simp; omega) fun i hi _ ↦ ?_
    have hfour : i < 4 := (List.length_take ▸ hi).trans_le (min_le_left _ _)
    have hpresent : offset + i < data.length := by omega
    have hget : data.getD (offset + i) 0 = data[offset + i] := by
      rw [List.getD_eq_getElem?_getD, List.getElem?_eq_getElem hpresent, Option.getD_some]
    rw [List.getElem_take, List.getElem_drop, ← hget]
    interval_cases i <;> rfl
  rw [field, htake]

/-! ### Slices -/

variable {Element : Type*}

/-- The position where a slice ends. -/
def lastPosition (length : ℕ) (stop : ℤ) : ℕ :=
  if stop < 0 then (length + stop).toNat else min stop.toNat length

/-- `TypedArray.prototype.slice`, from a position that is not negative. -/
def slice (array : List Element) (start : ℕ) (stop : ℤ) : List Element :=
  (array.take (lastPosition array.length stop)).drop start

theorem length_slice (array : List Element) (start : ℕ) (stop : ℤ) :
    (slice array start stop).length = lastPosition array.length stop - start := by
  have hlast : lastPosition array.length stop ≤ array.length := by
    unfold lastPosition
    split_ifs <;> omega
  rw [slice, List.length_drop, List.length_take, min_eq_left hlast]

/-- A slice of a number of elements from a position, as far as the array has them. -/
theorem slice_natCast (array : List Element) (start count : ℕ) :
    slice array start (start + count : ℕ) = (array.drop start).take count := by
  have hlast : lastPosition array.length (start + count : ℕ) =
      min (start + count) array.length := by
    rw [lastPosition, if_neg (not_lt.mpr (Int.natCast_nonneg _)), Int.toNat_natCast]
  rw [slice, hlast, List.take_eq_take_min.symm, List.drop_take, Nat.add_sub_cancel_left]

end LiveCDN.Library.TypedArray
