import Mathlib

/-!
# Base64

Three bytes written as four digits of six bits, over an arbitrary alphabet with a character that
pads the last group (`Alphabet`). `readPadded` asks for the padding, `readForgiving` takes a text
with it or without. Both read back what `encode` writes (`readPadded_encode`,
`readForgiving_encode`), neither looks at the bits behind the last byte, and they agree on every
text of whole groups, the only texts that `readPadded` reads (`readPadded_eq`). Such a text has only
characters of the alphabet and padding (`spells_of_readPadded`).
-/

set_option autoImplicit false
set_option relaxedAutoImplicit false

namespace LiveCDN.Library.Base64

/-- The characters of the sixty-four digits, and the one that pads. -/
structure Alphabet (α : Type*) where
  digit : ℕ → α
  value : α → Option ℕ
  pad : α
  value_digit : ∀ number < 64, value (digit number) = some number
  value_pad : value pad = none

variable {α : Type*} (alphabet : Alphabet α)

/-! ### Writing and reading -/

/-- A byte string in groups of four characters, the last one padded. -/
def encode : List UInt8 → List α
  | [] => []
  | [first] =>
    [alphabet.digit (first.toNat / 4), alphabet.digit (first.toNat % 4 * 16), alphabet.pad,
      alphabet.pad]
  | [first, second] =>
    [alphabet.digit (first.toNat / 4),
      alphabet.digit (first.toNat % 4 * 16 + second.toNat / 16),
      alphabet.digit (second.toNat % 16 * 4), alphabet.pad]
  | first :: second :: third :: bytes =>
    alphabet.digit (first.toNat / 4) ::
      alphabet.digit (first.toNat % 4 * 16 + second.toNat / 16) ::
      alphabet.digit (second.toNat % 16 * 4 + third.toNat / 64) ::
      alphabet.digit (third.toNat % 64) :: encode bytes

/-- The byte of two digits. -/
def one (a b : α) : Option (List UInt8) :=
  (alphabet.value a).bind fun a ↦ (alphabet.value b).map fun b ↦ [UInt8.ofNat (a * 4 + b / 16)]

/-- The two bytes of three digits. -/
def two (a b c : α) : Option (List UInt8) :=
  (alphabet.value a).bind fun a ↦ (alphabet.value b).bind fun b ↦ (alphabet.value c).map fun c ↦
    [UInt8.ofNat (a * 4 + b / 16), UInt8.ofNat (b % 16 * 16 + c / 4)]

/-- The three bytes of four digits, in front of what the rest is read as. -/
def group (a b c d : α) (rest : Option (List UInt8)) : Option (List UInt8) :=
  rest.bind fun bytes ↦ (alphabet.value a).bind fun a ↦ (alphabet.value b).bind fun b ↦
    (alphabet.value c).bind fun c ↦ (alphabet.value d).map fun d ↦
      UInt8.ofNat (a * 4 + b / 16) :: UInt8.ofNat (b % 16 * 16 + c / 4) ::
        UInt8.ofNat (c % 4 * 64 + d) :: bytes

/-- The bytes of a text without padding. -/
def readDigits : List α → Option (List UInt8)
  | [] => some []
  | [_] => none
  | [a, b] => one alphabet a b
  | [a, b, c] => two alphabet a b c
  | a :: b :: c :: d :: rest => group alphabet a b c d (readDigits rest)

section Padding

variable [DecidableEq α]

/-- The bytes of a text whose last group is padded. -/
def readPadded : List α → Option (List UInt8)
  | [] => some []
  | a :: b :: c :: d :: rest =>
    if rest = [] ∧ d = alphabet.pad then
      if c = alphabet.pad then one alphabet a b else two alphabet a b c
    else group alphabet a b c d (readPadded rest)
  | _ => none

/-- A text without the padding at its end, one character of it. -/
def dropPad (text : List α) : List α :=
  if text.getLast? = some alphabet.pad then text.dropLast else text

/-- The bytes of a text that may be padded. -/
def readForgiving (text : List α) : Option (List UInt8) :=
  readDigits alphabet
    (if text.length % 4 = 0 then dropPad alphabet (dropPad alphabet text) else text)

/-! ### The padding -/

theorem dropPad_cons {text : List α} (htext : text ≠ []) (character : α) :
    dropPad alphabet (character :: text) = character :: dropPad alphabet text := by
  obtain ⟨first, rest, rfl⟩ := List.exists_cons_of_ne_nil htext
  rw [dropPad, dropPad, List.getLast?_cons_cons, List.dropLast_cons_of_ne_nil htext]
  split_ifs <;> rfl

theorem dropPad_append_singleton (text : List α) (last : α) :
    dropPad alphabet (text ++ [last]) =
      if last = alphabet.pad then text else text ++ [last] := by
  rw [dropPad, List.getLast?_concat, List.dropLast_concat]
  exact if_congr Option.some_inj rfl rfl

theorem length_dropPad (text : List α) : text.length ≤ (dropPad alphabet text).length + 1 := by
  rw [dropPad]
  split_ifs
  · rw [List.length_dropLast]
    omega
  · exact Nat.le_succ _

/-- The padding of a text of at least two groups is that of the groups behind the first. -/
theorem dropPad_twice_cons {rest : List α} (hrest : 4 ≤ rest.length) (a b c d : α) :
    dropPad alphabet (dropPad alphabet (a :: b :: c :: d :: rest)) =
      a :: b :: c :: d :: dropPad alphabet (dropPad alphabet rest) := by
  have hsome : rest ≠ [] := List.ne_nil_of_length_pos (by omega)
  have hbehind : dropPad alphabet rest ≠ [] := by
    have hlength := length_dropPad alphabet rest
    exact List.ne_nil_of_length_pos (by omega)
  have hthrough : ∀ {text : List α}, text ≠ [] →
      dropPad alphabet (a :: b :: c :: d :: text) =
        a :: b :: c :: d :: dropPad alphabet text := by
    intro text htext
    rw [dropPad_cons alphabet (List.cons_ne_nil _ _), dropPad_cons alphabet (List.cons_ne_nil _ _),
      dropPad_cons alphabet (List.cons_ne_nil _ _), dropPad_cons alphabet htext]
  rw [hthrough hsome, hthrough hbehind]

/-- A text of one group is read with its padding as it is without. -/
theorem readPadded_one_group (a b c d : α) :
    readPadded alphabet [a, b, c, d] =
      readDigits alphabet (dropPad alphabet (dropPad alphabet [a, b, c, d])) := by
  have hlast : dropPad alphabet [a, b, c, d] =
      if d = alphabet.pad then [a, b, c] else [a, b, c, d] :=
    dropPad_append_singleton alphabet [a, b, c] d
  have hsecond : dropPad alphabet [a, b, c] = if c = alphabet.pad then [a, b] else [a, b, c] :=
    dropPad_append_singleton alphabet [a, b] c
  rw [readPadded, hlast]
  by_cases hd : d = alphabet.pad
  · rw [if_pos ⟨rfl, hd⟩, if_pos hd, hsecond]
    split_ifs <;> rfl
  · rw [if_neg fun h ↦ hd h.2, if_neg hd, hlast, if_neg hd]
    rfl

/-- The readers agree on texts of whole groups, and no other text is read with its padding. -/
theorem readPadded_eq : ∀ text : List α,
    readPadded alphabet text =
      if text.length % 4 = 0 then readForgiving alphabet text else none
  | [] => rfl
  | [_] => rfl
  | [_, _] => rfl
  | [_, _, _] => rfl
  | a :: b :: c :: d :: rest => by
    by_cases hrest : rest = []
    · have hgroup : [a, b, c, d].length % 4 = 0 := by simp
      rw [hrest, readPadded_one_group, if_pos hgroup, readForgiving, if_pos hgroup]
    · have hmod : (a :: b :: c :: d :: rest).length % 4 = rest.length % 4 := by
        simp only [List.length_cons]
        omega
      rw [readPadded, if_neg fun h ↦ hrest h.1, readPadded_eq rest, hmod, readForgiving,
        readForgiving, hmod]
      split_ifs with hgroups
      · have hlength : 4 ≤ rest.length := by
          have hsome := List.length_pos_of_ne_nil hrest
          omega
        rw [dropPad_twice_cons alphabet hlength, readDigits]
      · rfl

end Padding

/-! ### The characters of a text that is read -/

/-- A character of the alphabet, or the one that pads. -/
def Spells (character : α) : Prop :=
  character = alphabet.pad ∨ (alphabet.value character).isSome

theorem spells_of_value {character : α} {number : ℕ}
    (hvalue : alphabet.value character = some number) : Spells alphabet character :=
  Or.inr (Option.isSome_iff_exists.mpr ⟨number, hvalue⟩)

theorem spells_of_group {a b c d : α} {rest : Option (List UInt8)} {bytes : List UInt8}
    (hread : group alphabet a b c d rest = some bytes) :
    (∃ tail, rest = some tail) ∧ ∀ character ∈ [a, b, c, d], Spells alphabet character := by
  obtain ⟨tail, hrest, hread⟩ := Option.bind_eq_some_iff.mp hread
  obtain ⟨first, ha, hread⟩ := Option.bind_eq_some_iff.mp hread
  obtain ⟨second, hb, hread⟩ := Option.bind_eq_some_iff.mp hread
  obtain ⟨third, hc, hread⟩ := Option.bind_eq_some_iff.mp hread
  obtain ⟨fourth, hd, -⟩ := Option.map_eq_some_iff.mp hread
  have hspells : ∀ {character number}, alphabet.value character = some number →
      Spells alphabet character := spells_of_value alphabet
  refine ⟨⟨tail, hrest⟩, ?_⟩
  simp only [List.forall_mem_cons, List.not_mem_nil, false_implies, implies_true, and_true]
  exact ⟨hspells ha, hspells hb, hspells hc, hspells hd⟩

/-! ### Reading back -/

theorem length_encode_mod : ∀ bytes : List UInt8, (encode alphabet bytes).length % 4 = 0
  | [] => by simp [encode]
  | [_] => by simp [encode]
  | [_, _] => by simp [encode]
  | _ :: _ :: _ :: bytes => by
    rw [encode, List.length_cons, List.length_cons, List.length_cons, List.length_cons]
    have hrest := length_encode_mod bytes
    omega

/-- The first of the bytes that are written in a group. -/
theorem first_byte (first second : UInt8) :
    UInt8.ofNat (first.toNat / 4 * 4 + (first.toNat % 4 * 16 + second.toNat / 16) / 16) =
      first := by
  have hsecond := second.toNat_lt
  have hnat : first.toNat / 4 * 4 + (first.toNat % 4 * 16 + second.toNat / 16) / 16 =
      first.toNat := by omega
  rw [hnat, UInt8.ofNat_toNat]

theorem second_byte (first second third : UInt8) :
    UInt8.ofNat ((first.toNat % 4 * 16 + second.toNat / 16) % 16 * 16 +
        (second.toNat % 16 * 4 + third.toNat / 64) / 4) = second := by
  have hsecond := second.toNat_lt
  have hthird := third.toNat_lt
  have hnat : (first.toNat % 4 * 16 + second.toNat / 16) % 16 * 16 +
      (second.toNat % 16 * 4 + third.toNat / 64) / 4 = second.toNat := by omega
  rw [hnat, UInt8.ofNat_toNat]

theorem third_byte (second third : UInt8) :
    UInt8.ofNat ((second.toNat % 16 * 4 + third.toNat / 64) % 4 * 64 + third.toNat % 64) =
      third := by
  have hthird := third.toNat_lt
  have hnat : (second.toNat % 16 * 4 + third.toNat / 64) % 4 * 64 + third.toNat % 64 =
      third.toNat := by omega
  rw [hnat, UInt8.ofNat_toNat]

theorem digit_ne_pad {number : ℕ} (hnumber : number < 64) :
    alphabet.digit number ≠ alphabet.pad := by
  intro hpad
  have hvalue := alphabet.value_digit number hnumber
  rw [hpad, alphabet.value_pad] at hvalue
  exact Option.some_ne_none number hvalue.symm

variable [DecidableEq α]

/-- What is written is read back. -/
theorem readPadded_encode : ∀ bytes : List UInt8,
    readPadded alphabet (encode alphabet bytes) = some bytes
  | [] => rfl
  | [first] => by
    have hfirst := first.toNat_lt
    rw [encode, readPadded, if_pos ⟨rfl, rfl⟩, if_pos rfl, one,
      alphabet.value_digit _ (by omega), Option.bind_some, alphabet.value_digit _ (by omega),
      Option.map_some]
    exact congrArg (fun byte ↦ some [byte]) (first_byte first 0)
  | [first, second] => by
    have hfirst := first.toNat_lt
    have hsecond := second.toNat_lt
    rw [encode, readPadded, if_pos ⟨rfl, rfl⟩, if_neg (digit_ne_pad alphabet (by omega)), two,
      alphabet.value_digit _ (by omega), Option.bind_some, alphabet.value_digit _ (by omega),
      Option.bind_some, alphabet.value_digit _ (by omega), Option.map_some, first_byte]
    exact congrArg (fun byte ↦ some [first, byte]) (second_byte first second 0)
  | first :: second :: third :: bytes => by
    have hfirst := first.toNat_lt
    have hsecond := second.toNat_lt
    have hthird := third.toNat_lt
    rw [encode, readPadded, if_neg fun h ↦ digit_ne_pad alphabet (Nat.mod_lt _ (by decide)) h.2,
      readPadded_encode bytes, group, Option.bind_some, alphabet.value_digit _ (by omega),
      Option.bind_some, alphabet.value_digit _ (by omega), Option.bind_some,
      alphabet.value_digit _ (by omega), Option.bind_some, alphabet.value_digit _ (by omega),
      Option.map_some, first_byte, second_byte, third_byte]

theorem readForgiving_encode (bytes : List UInt8) :
    readForgiving alphabet (encode alphabet bytes) = some bytes := by
  have hread := readPadded_encode alphabet bytes
  rw [readPadded_eq, if_pos (length_encode_mod alphabet bytes)] at hread
  exact hread

/-- A text that is read with its padding has no other characters. -/
theorem spells_of_readPadded : ∀ {text : List α} {bytes : List UInt8},
    readPadded alphabet text = some bytes → ∀ character ∈ text, Spells alphabet character
  | [], _, _ => List.forall_mem_nil _
  | [_], _, hread => by exact absurd hread (Option.some_ne_none _).symm
  | [_, _], _, hread => by exact absurd hread (Option.some_ne_none _).symm
  | [_, _, _], _, hread => by exact absurd hread (Option.some_ne_none _).symm
  | a :: b :: c :: d :: rest, bytes, hread => by
    have hspells : ∀ {character number}, alphabet.value character = some number →
        Spells alphabet character := spells_of_value alphabet
    rw [readPadded] at hread
    split_ifs at hread with hlast hboth
    · obtain ⟨rfl, rfl⟩ := hlast
      obtain ⟨first, ha, hread⟩ := Option.bind_eq_some_iff.mp hread
      obtain ⟨second, hb, -⟩ := Option.map_eq_some_iff.mp hread
      simp only [List.forall_mem_cons, List.not_mem_nil, false_implies, implies_true, and_true]
      exact ⟨hspells ha, hspells hb, Or.inl hboth, Or.inl rfl⟩
    · obtain ⟨rfl, rfl⟩ := hlast
      obtain ⟨first, ha, hread⟩ := Option.bind_eq_some_iff.mp hread
      obtain ⟨second, hb, hread⟩ := Option.bind_eq_some_iff.mp hread
      obtain ⟨third, hc, -⟩ := Option.map_eq_some_iff.mp hread
      simp only [List.forall_mem_cons, List.not_mem_nil, false_implies, implies_true, and_true]
      exact ⟨hspells ha, hspells hb, hspells hc, Or.inl rfl⟩
    · obtain ⟨⟨tail, hrest⟩, hgroup⟩ := spells_of_group alphabet hread
      intro character hcharacter
      have hsplit : character ∈ [a, b, c, d] ++ rest := hcharacter
      rcases List.mem_append.mp hsplit with hfirst | hbehind
      · exact hgroup character hfirst
      · exact spells_of_readPadded hrest character hbehind

end LiveCDN.Library.Base64
