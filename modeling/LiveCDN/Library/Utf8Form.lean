import LiveCDN.Library.ByteText

/-!
# The UTF-8 form of a text

`utf8` gives the bytes of a text. They determine it (`utf8_injective`), and a character of ASCII
stands for a byte that no other character has in its form (`utf8EncodeChar_cases`). So a text reads
as its UTF-8 form (`readsAs_utf8`).
-/

set_option autoImplicit false
set_option relaxedAutoImplicit false

namespace LiveCDN.Library.Utf8Form

open Utf8Text ByteText

/-- The bytes of a text. -/
def utf8 (text : Text) : List UInt8 := text.flatMap String.utf8EncodeChar

@[simp] theorem utf8_nil : utf8 [] = [] := rfl

@[simp] theorem utf8_cons (c : Char) (text : Text) :
    utf8 (c :: text) = String.utf8EncodeChar c ++ utf8 text := rfl

theorem utf8_append (front back : Text) : utf8 (front ++ back) = utf8 front ++ utf8 back :=
  List.flatMap_append

/-- The bytes of a text determine it. -/
theorem utf8_injective : Function.Injective utf8 := by
  intro text other hbytes
  have hdecode (text : Text) : fromUtf8 (utf8 text) = some text := fromUtf8_eq_some_iff.mpr rfl
  have hequal := hdecode text
  rw [hbytes, hdecode other] at hequal
  exact (Option.some.inj hequal).symm

/-- A byte above the ASCII ones. -/
theorem ofNat_ge {value : ℕ} (hlow : 0x80 ≤ value) (hhigh : value < 256) :
    0x80 ≤ UInt8.ofNat value := by
  rw [UInt8.le_iff_toNat_le, UInt8.toNat_ofNat_of_lt' hhigh]
  exact hlow

/-- The form of a character is its own byte, or bytes above the ASCII ones. -/
theorem utf8EncodeChar_cases (c : Char) :
    (c.toNat < 0x80 ∧ String.utf8EncodeChar c = [UInt8.ofNat c.toNat]) ∨
      (0x80 ≤ c.toNat ∧ ∃ first more, String.utf8EncodeChar c = first :: more ∧ 0x80 ≤ first ∧
        ∀ byte ∈ more, 0x80 ≤ byte) := by
  have hlow (value base size : ℕ) (hbase : 0x80 ≤ base) (hsize : 0 < size)
      (hfits : base + size ≤ 256) : 0x80 ≤ UInt8.ofNat (value % size + base) := by
    have hlt := Nat.mod_lt value hsize
    exact ofNat_ge (by omega) (by omega)
  have hcontinuation {value : ℕ} : 0x80 ≤ UInt8.ofNat (value % 0x40 + 0x80) :=
    hlow value 0x80 0x40 (by decide) (by decide) (by decide)
  unfold String.utf8EncodeChar
  dsimp only
  by_cases hone : c.val.toNat ≤ 0x7f
  · rw [if_pos hone]
    exact Or.inl ⟨Nat.lt_succ_of_le hone, rfl⟩
  rw [if_neg hone]
  refine Or.inr ⟨not_le.mp hone, ?_⟩
  by_cases htwo : c.val.toNat ≤ 0x7ff
  · rw [if_pos htwo]
    refine ⟨_, _, rfl, hlow _ _ _ (by decide) (by decide) (by decide), ?_⟩
    exact List.forall_mem_singleton.mpr hcontinuation
  rw [if_neg htwo]
  by_cases hthree : c.val.toNat ≤ 0xffff
  · rw [if_pos hthree]
    refine ⟨_, _, rfl, hlow _ _ _ (by decide) (by decide) (by decide), ?_⟩
    exact List.forall_mem_cons.mpr ⟨hcontinuation, List.forall_mem_singleton.mpr hcontinuation⟩
  · rw [if_neg hthree]
    refine ⟨_, _, rfl, hlow _ _ _ (by decide) (by decide) (by decide), ?_⟩
    exact List.forall_mem_cons.mpr ⟨hcontinuation, List.forall_mem_cons.mpr
      ⟨hcontinuation, List.forall_mem_singleton.mpr hcontinuation⟩⟩

/-- A text reads as its bytes. -/
theorem readsAs_utf8 (text : Text) : ReadsAs text (utf8 text) := by
  induction text with
  | nil => exact .nil
  | cons c text ih =>
    rw [utf8_cons]
    rcases utf8EncodeChar_cases c with ⟨hascii, hform⟩ | ⟨hother, first, more, hform, hfirst, hmore⟩
    · have hbyte : UInt8.ofNat c.toNat < 0x80 := by
        rw [UInt8.lt_iff_toNat_lt, UInt8.toNat_ofNat_of_lt' (hascii.trans (by decide))]
        exact hascii
      have hread := ReadsAs.ascii hbyte ih
      rw [← (eq_ofNat_iff hascii).mpr rfl] at hread
      rwa [hform]
    · rw [hform]
      exact .other hother hfirst hmore ih

/-- The form of a text starts with that of an ASCII text exactly when the text does. Assumes: the
pattern is ASCII. -/
theorem prefix_utf8_iff {pattern text : Text} (hascii : IsAscii pattern) :
    asciiBytes pattern <+: utf8 text ↔ pattern <+: text :=
  ((readsAs_utf8 text).isPrefix_iff hascii).symm

/-- The form of an ASCII text. -/
theorem utf8_of_isAscii {text : Text} (hascii : IsAscii text) : utf8 text = asciiBytes text := by
  induction text with
  | nil => rfl
  | cons c text ih =>
    have hc : c.toNat < 0x80 := hascii c List.mem_cons_self
    rw [utf8_cons, ih fun other hother ↦ hascii other (List.mem_cons_of_mem _ hother)]
    rcases utf8EncodeChar_cases c with ⟨-, hform⟩ | ⟨hother, -⟩
    · rw [hform]
      rfl
    · exact absurd hother (not_le.mpr hc)

/-- The byte of an ASCII character is in the form of a text exactly when the character is in the
text. Assumes: the character is ASCII. -/
theorem mem_utf8_iff {c : Char} {text : Text} (hascii : c.toNat < 0x80) :
    UInt8.ofNat c.toNat ∈ utf8 text ↔ c ∈ text := by
  have hinfix : [c] <:+: text ↔ asciiBytes [c] <:+: utf8 text :=
    (readsAs_utf8 text).isInfix_iff (List.forall_mem_singleton.mpr hascii) (List.cons_ne_nil c [])
  rw [asciiBytes, List.map_singleton, List.singleton_infix_iff, List.singleton_infix_iff] at hinfix
  exact hinfix.symm

end LiveCDN.Library.Utf8Form
