import LiveCDN.Library.ByteText

/-!
# Bytes made UTF-8

Bytes are made UTF-8 by keeping the characters they spell and putting the replacement character in
the place of each byte that spells none (`coerce`). Every replaced byte makes the text two bytes
longer (`length_coerce`), so coercion changes nothing exactly when the bytes are the UTF-8 form of a
text (`invalid_eq_zero_iff`, `coerce_of_invalid_eq_zero`).
-/

set_option autoImplicit false
set_option relaxedAutoImplicit false

namespace LiveCDN.Library.Utf8Coercion

open Utf8Text ByteText

/-! ### The first character -/

/-- The character whose UTF-8 form some bytes start with, if there is one. -/
def decodeRune (bytes : List UInt8) : Option Char := bytes.toByteArray.utf8DecodeChar? 0

/-- A character is read off its UTF-8 form. -/
theorem decodeRune_append (c : Char) (bytes : List UInt8) :
    decodeRune (String.utf8EncodeChar c ++ bytes) = some c := by
  rw [decodeRune, List.toByteArray_append]
  exact ByteArray.utf8DecodeChar?_utf8EncodeChar_append

/-- What is read as a character starts with its UTF-8 form. -/
theorem exists_of_decodeRune {bytes : List UInt8} {c : Char} (hrune : decodeRune bytes = some c) :
    ∃ rest, bytes = String.utf8EncodeChar c ++ rest := by
  obtain ⟨rest, hrest⟩ := ByteArray.exists_of_utf8DecodeChar?_eq_some hrune
  refine ⟨rest.data.toList, ?_⟩
  have hdata := congrArg (fun array : ByteArray ↦ array.data.toList) hrest
  simpa [List.toList_data_toByteArray] using hdata

/-! ### Coercion -/

/-- Coercion of bytes of which the first ones belong to a character before them. -/
def coerceFrom : ℕ → List UInt8 → List UInt8
  | _, [] => []
  | kept + 1, byte :: bytes => byte :: coerceFrom kept bytes
  | 0, byte :: bytes =>
    match decodeRune (byte :: bytes) with
    | some c => byte :: coerceFrom (c.utf8Size - 1) bytes
    | none => String.utf8EncodeChar replacementCharacter ++ coerceFrom 0 bytes

/-- The bytes with a replacement character for each byte that is not part of a character. -/
def coerce (bytes : List UInt8) : List UInt8 := coerceFrom 0 bytes

/-- How many bytes are replaced, where the first ones belong to a character before them. -/
def invalidFrom : ℕ → List UInt8 → ℕ
  | _, [] => 0
  | kept + 1, _ :: bytes => invalidFrom kept bytes
  | 0, byte :: bytes =>
    match decodeRune (byte :: bytes) with
    | some c => invalidFrom (c.utf8Size - 1) bytes
    | none => invalidFrom 0 bytes + 1

/-- How many bytes are replaced. -/
def invalid (bytes : List UInt8) : ℕ := invalidFrom 0 bytes

theorem length_coerceFrom (kept : ℕ) (bytes : List UInt8) :
    (coerceFrom kept bytes).length = bytes.length + 2 * invalidFrom kept bytes := by
  induction bytes generalizing kept with
  | nil => rfl
  | cons byte bytes ih =>
    cases kept with
    | succ kept =>
      rw [coerceFrom, invalidFrom, List.length_cons, List.length_cons, ih, add_right_comm]
    | zero =>
      rw [coerceFrom, invalidFrom]
      cases decodeRune (byte :: bytes) with
      | some c =>
        dsimp only
        rw [List.length_cons, List.length_cons, ih, add_right_comm]
      | none =>
        have hsize : (String.utf8EncodeChar replacementCharacter).length = 3 := rfl
        dsimp only
        rw [List.length_append, hsize, List.length_cons, ih]
        omega

/-- Every replaced byte makes the bytes two longer. -/
theorem length_coerce (bytes : List UInt8) :
    (coerce bytes).length = bytes.length + 2 * invalid bytes :=
  length_coerceFrom 0 bytes

theorem coerceFrom_of_invalidFrom_eq_zero {kept : ℕ} {bytes : List UInt8}
    (hvalid : invalidFrom kept bytes = 0) : coerceFrom kept bytes = bytes := by
  induction bytes generalizing kept with
  | nil => rfl
  | cons byte bytes ih =>
    cases kept with
    | succ kept => rw [coerceFrom, ih hvalid]
    | zero =>
      rw [invalidFrom] at hvalid
      rw [coerceFrom]
      cases hrune : decodeRune (byte :: bytes) with
      | some c =>
        rw [hrune] at hvalid
        exact congrArg (byte :: ·) (ih hvalid)
      | none =>
        rw [hrune] at hvalid
        cases hvalid

/-- Coercion changes nothing where no byte is replaced. -/
theorem coerce_of_invalid_eq_zero {bytes : List UInt8} (hvalid : invalid bytes = 0) :
    coerce bytes = bytes :=
  coerceFrom_of_invalidFrom_eq_zero hvalid

theorem invalidFrom_append (kept rest : List UInt8) :
    invalidFrom kept.length (kept ++ rest) = invalid rest := by
  induction kept with
  | nil => rfl
  | cons byte kept ih => exact ih

/-- A character in front adds nothing that is replaced. -/
theorem invalid_append (c : Char) (bytes : List UInt8) :
    invalid (String.utf8EncodeChar c ++ bytes) = invalid bytes := by
  have hrune := decodeRune_append c bytes
  have hlength : (String.utf8EncodeChar c).length = c.utf8Size := String.length_utf8EncodeChar c
  cases hform : String.utf8EncodeChar c with
  | nil =>
    rw [hform] at hlength
    exact absurd hlength c.utf8Size_pos.ne
  | cons byte more =>
    rw [hform] at hrune hlength
    have hmore : c.utf8Size - 1 = more.length := by
      rw [← hlength, List.length_cons, Nat.add_sub_cancel]
    rw [invalid, List.cons_append, invalidFrom, ← List.cons_append, hrune]
    dsimp only
    rw [hmore, invalidFrom_append]

/-- Nothing is replaced exactly in the UTF-8 form of a text. -/
theorem invalid_eq_zero_iff {bytes : List UInt8} :
    invalid bytes = 0 ↔ (fromUtf8 bytes).isSome = true := by
  simp only [Option.isSome_iff_exists, fromUtf8_eq_some_iff]
  constructor
  · intro hvalid
    induction hlength : bytes.length using Nat.strong_induction_on generalizing bytes with
    | h length ih =>
      cases bytes with
      | nil => exact ⟨[], rfl⟩
      | cons byte bytes =>
        cases hrune : decodeRune (byte :: bytes) with
        | none =>
          rw [invalid, invalidFrom, hrune] at hvalid
          cases hvalid
        | some c =>
          obtain ⟨rest, hrest⟩ := exists_of_decodeRune hrune
          have hshorter : rest.length < length := by
            have hbytes := congrArg List.length hrest
            rw [List.length_append, String.length_utf8EncodeChar, hlength] at hbytes
            have hpositive := c.utf8Size_pos
            omega
          rw [hrest, invalid_append] at hvalid
          obtain ⟨text, htext⟩ := ih rest.length hshorter hvalid rfl
          exact ⟨c :: text, by rw [List.flatMap_cons, htext, hrest]⟩
  · rintro ⟨text, rfl⟩
    induction text with
    | nil => rfl
    | cons c text ih => rw [List.flatMap_cons, invalid_append, ih]

/-- ASCII bytes are kept. -/
theorem invalid_of_ascii {bytes : List UInt8} (hascii : ∀ byte ∈ bytes, byte < 0x80) :
    invalid bytes = 0 := by
  induction bytes with
  | nil => rfl
  | cons byte bytes ih =>
    have hbyte : byte.toNat < 0x80 := hascii byte List.mem_cons_self
    have hform : String.utf8EncodeChar (Char.ofNat byte.toNat) = [byte] := by
      have hval : (Char.ofNat byte.toNat).val.toNat = byte.toNat :=
        toNat_ofNat_of_valid (Or.inl (by omega))
      have hsize : (Char.ofNat byte.toNat).utf8Size = 1 := by
        rw [Char.utf8Size_eq_one_iff, UInt32.le_iff_toNat_le, hval]
        exact Nat.le_of_lt_succ hbyte
      rw [String.utf8EncodeChar_eq_singleton hsize, List.singleton_inj, ← UInt8.toNat_inj,
        UInt32.toNat_toUInt8, hval, Nat.mod_eq_of_lt byte.toNat_lt]
    have hsplit : byte :: bytes = String.utf8EncodeChar (Char.ofNat byte.toNat) ++ bytes := by
      rw [hform]
      rfl
    rw [hsplit, invalid_append]
    exact ih fun other hother ↦ hascii other (List.mem_cons_of_mem _ hother)

end LiveCDN.Library.Utf8Coercion
