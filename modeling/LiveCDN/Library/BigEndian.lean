import Mathlib

/-!
# Big-endian byte strings

Fixed-width unsigned fields, most significant byte first. `value` reads a byte string as a
number and `bytes` writes a number into a given width. Writing and reading back reduces modulo the
width (`value_bytes`), so a number that fits its field survives (`value_bytes_of_lt`). `field` reads
a number at an offset of a longer string; `field_append_of_le`, `field_append_right`, `field_bytes`
and `field_behind_byte` locate it.
-/

set_option autoImplicit false
set_option relaxedAutoImplicit false

namespace LiveCDN.Library.BigEndian

/-- The number spelled by a byte string, most significant byte first. -/
def value (string : List UInt8) : ℕ :=
  Nat.ofDigits 256 (string.reverse.map UInt8.toNat)

/-- The low `width` bytes of a number, most significant byte first. -/
def bytes : ℕ → ℕ → List UInt8
  | 0, _ => []
  | width + 1, number => bytes width (number / 256) ++ [UInt8.ofNat number]

/-- A field is as wide as it is declared. -/
@[simp] theorem length_bytes (width number : ℕ) : (bytes width number).length = width := by
  induction width generalizing number with
  | zero => rfl
  | succ width ih => rw [bytes, List.length_append, ih, List.length_singleton]

@[simp] theorem value_nil : value [] = 0 := rfl

/-- Appending a byte shifts the value by one place. -/
theorem value_concat (string : List UInt8) (byte : UInt8) :
    value (string ++ [byte]) = byte.toNat + 256 * value string := by
  simp [value, Nat.ofDigits_cons]

/-- A byte in front stands for its multiple of the highest place. -/
theorem value_cons (byte : UInt8) (string : List UInt8) :
    value (byte :: string) = byte.toNat * 256 ^ string.length + value string := by
  simp only [value, List.reverse_cons, List.map_append, List.map_cons, List.map_nil,
    Nat.ofDigits_append, Nat.ofDigits_singleton, List.length_map, List.length_reverse]
  rw [add_comm, mul_comm]

/-- Writing a number and reading it back reduces it modulo the width of the field. -/
theorem value_bytes (width number : ℕ) : value (bytes width number) = number % 256 ^ width := by
  induction width generalizing number with
  | zero => simp [bytes, Nat.mod_one]
  | succ width ih =>
    rw [bytes, value_concat, ih, pow_succ', Nat.mod_mul, UInt8.toNat_ofNat']

/-- A number that fits its field is read back unchanged. Assumes: the number is below
`256 ^ width`. -/
theorem value_bytes_of_lt {width number : ℕ} (hfits : number < 256 ^ width) :
    value (bytes width number) = number := by
  rw [value_bytes, Nat.mod_eq_of_lt hfits]

/-- A byte string spells a number below the bound of its width. -/
theorem value_lt (string : List UInt8) : value string < 256 ^ string.length := by
  have hdigits : ∀ digit ∈ string.reverse.map UInt8.toNat, digit < 256 := by
    intro digit hdigit
    obtain ⟨byte, _, rfl⟩ := List.mem_map.mp hdigit
    exact byte.toNat_lt
  have hlt := Nat.ofDigits_lt_base_pow_length (by decide) hdigits
  rwa [List.length_map, List.length_reverse] at hlt

/-! ### Fields inside a longer string -/

/-- The number spelled by the `width` bytes from `offset` on. -/
def field (string : List UInt8) (offset width : ℕ) : ℕ :=
  value ((string.drop offset).take width)

/-- A field holds a number below the bound of its width. -/
theorem field_lt (string : List UInt8) (offset width : ℕ) :
    field string offset width < 256 ^ width := by
  refine (value_lt _).trans_le (Nat.pow_le_pow_right (by decide) ?_)
  rw [List.length_take]
  exact min_le_left _ _

/-- A field that lies in the front of a string does not see what follows it. -/
theorem field_append_of_le {front : List UInt8} {offset width : ℕ} (more : List UInt8)
    (hinside : offset + width ≤ front.length) :
    field (front ++ more) offset width = field front offset width := by
  rw [field, field, List.drop_append_of_le_length (by omega),
    List.take_append_of_le_length (by rw [List.length_drop]; omega)]

/-- A field behind a front is a field of the rest. -/
theorem field_append_right (front rest : List UInt8) {offset inner width : ℕ}
    (hoffset : offset = front.length + inner) :
    field (front ++ rest) offset width = field rest inner width := by
  rw [hoffset, field, field, ← List.drop_drop, List.drop_left]

/-- A number written behind a front is read back at its offset. Assumes: the number fits the
field. -/
theorem field_bytes (front rest : List UInt8) {offset width number : ℕ}
    (hoffset : offset = front.length) (hfits : number < 256 ^ width) :
    field (front ++ (bytes width number ++ rest)) offset width = number := by
  rw [field_append_right front _ (hoffset.trans (Nat.add_zero _).symm), field, List.drop_zero,
    List.take_append_of_le_length (by rw [length_bytes]),
    List.take_of_length_le (by rw [length_bytes]), value_bytes_of_lt hfits]

/-- A field that starts one byte before a number that was written holds that byte and the number
without its last place. Assumes: the number fits the field. -/
theorem field_behind_byte (front rest : List UInt8) {offset width number : ℕ} (byte : UInt8)
    (hoffset : offset = front.length) (hfits : number < 256 ^ (width + 1)) :
    field (front ++ byte :: (bytes (width + 1) number ++ rest)) offset (width + 1) =
      byte.toNat * 256 ^ width + number / 256 := by
  have hhigh : number / 256 < 256 ^ width := by
    rw [pow_succ] at hfits
    exact Nat.div_lt_of_lt_mul (by rwa [mul_comm])
  have htake : ((byte :: (bytes width (number / 256) ++ [UInt8.ofNat number] ++ rest)).take
      (width + 1)) = byte :: bytes width (number / 256) := by
    rw [List.take_succ_cons, List.append_assoc, List.take_left' (length_bytes _ _)]
  rw [field_append_right front _ (hoffset.trans (Nat.add_zero _).symm), field, List.drop_zero,
    bytes, htake, value_cons, length_bytes, value_bytes_of_lt hhigh]

end LiveCDN.Library.BigEndian
