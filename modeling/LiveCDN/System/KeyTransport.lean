import LiveCDN.Agent.GoRelayTable
import LiveCDN.Library.Base64

/-!
# How a key gets from the controller to its users

The controller stores the key and the IV of a stream as base64 texts (`KeyToBase64` of
`internal/crypto/crypto.go`). The Go agent decodes both with `base64.StdEncoding.DecodeString`
(`KeyFromBase64`) and makes a relay of them, and `StreamDecryptor` of `web/player.html` decodes the
key with `atob`. What the controller has generated is what the relay and the player get
(`arrives`).

The two decoders are not the same. On every text they agree as far as the agent's goes: it decodes a
text exactly when the player does, the text is padded to whole groups, and the only blanks in it are
the ends of lines (`decodeString_eq_some_iff`).

Scope. Texts are byte strings; both decoders refuse the characters beyond ASCII. An IV that is empty
stands for `nil`.
-/

set_option autoImplicit false
set_option relaxedAutoImplicit false

namespace LiveCDN.System.KeyTransport

open Library.Base64 Agent.GoRelay Agent.GoRelayTable

/-! ### The standard alphabet -/

/-- The character of a digit. -/
def standardDigit (number : ℕ) : UInt8 :=
  if number < 26 then UInt8.ofNat (65 + number)
  else if number < 52 then UInt8.ofNat (71 + number)
  else if number < 62 then UInt8.ofNat (number - 4)
  else if number = 62 then 43
  else 47

/-- The digit of a character. -/
def standardValue (character : UInt8) : Option ℕ :=
  if 65 ≤ character ∧ character ≤ 90 then some (character.toNat - 65)
  else if 97 ≤ character ∧ character ≤ 122 then some (character.toNat - 71)
  else if 48 ≤ character ∧ character ≤ 57 then some (character.toNat + 4)
  else if character = 43 then some 62
  else if character = 47 then some 63
  else none

/-- `base64.StdEncoding`. -/
def stdEncoding : Alphabet UInt8 where
  digit := standardDigit
  value := standardValue
  pad := 61
  value_digit := by decide
  value_pad := by decide

/-! ### The functions of the controller, the agent and the player -/

/-- `DecodeString`, which ignores the ends of lines. -/
def decodeString (text : GoString) : Option (List UInt8) :=
  readPadded stdEncoding (text.filter fun byte ↦ decide (byte ≠ 10 ∧ byte ≠ 13))

/-- `atob`, which ignores blanks, and the padding too where the text is padded. -/
def atob (text : GoString) : Option (List UInt8) :=
  readForgiving stdEncoding
    (text.filter fun byte ↦ decide (byte ≠ 9 ∧ byte ≠ 10 ∧ byte ≠ 12 ∧ byte ≠ 13 ∧ byte ≠ 32))

/-- `KeyToBase64`. -/
def keyToBase64 (keyInfo : KeyInfo) : GoString × GoString :=
  (encode stdEncoding keyInfo.key,
    if keyInfo.iv = [] then [] else encode stdEncoding keyInfo.iv)

/-- The key of a new `StreamDecryptor`, none where `atob` throws. -/
def decryptorKey (keyBase64 : GoString) : Option (List UInt8) := atob keyBase64

/-! ### What the decoders ignore -/

/-- The blanks of `atob`. -/
theorem not_spells_blank :
    ∀ blank ∈ ([9, 10, 12, 13, 32] : List UInt8), ¬ Spells stdEncoding blank := by
  have hnone : ∀ blank ∈ ([9, 10, 12, 13, 32] : List UInt8),
      blank ≠ 61 ∧ standardValue blank = none := by decide +kernel
  intro blank hblank hspells
  obtain ⟨hpad, hvalue⟩ := hnone blank hblank
  rcases hspells with hequal | hsome
  · exact hpad hequal
  · exact Option.isSome_iff_ne_none.mp hsome hvalue

/-- Without blanks other than the ends of lines, both decoders ignore the same. -/
theorem filter_blanks {text : GoString}
    (hblanks : ∀ byte ∈ text, byte ≠ 9 ∧ byte ≠ 12 ∧ byte ≠ 32) :
    (text.filter fun byte ↦ decide (byte ≠ 9 ∧ byte ≠ 10 ∧ byte ≠ 12 ∧ byte ≠ 13 ∧ byte ≠ 32)) =
      text.filter fun byte ↦ decide (byte ≠ 10 ∧ byte ≠ 13) := by
  refine List.filter_congr fun byte hbyte ↦ decide_eq_decide.mpr ?_
  have hother := hblanks byte hbyte
  exact ⟨fun h ↦ ⟨h.2.1, h.2.2.2.1⟩, fun h ↦ ⟨hother.1, h.1, hother.2.1, h.2, hother.2.2⟩⟩

/-- The agent decodes a text exactly when the player does, the text has whole groups, and the only
blanks in it are the ends of lines. They decode it to the same bytes. -/
theorem decodeString_eq_some_iff (text : GoString) (bytes : List UInt8) :
    decodeString text = some bytes ↔
      atob text = some bytes ∧
        (text.filter fun byte ↦ decide (byte ≠ 10 ∧ byte ≠ 13)).length % 4 = 0 ∧
        ∀ byte ∈ text, byte ≠ 9 ∧ byte ≠ 12 ∧ byte ≠ 32 := by
  constructor
  · intro hread
    have hblanks : ∀ byte ∈ text, byte ≠ 9 ∧ byte ≠ 12 ∧ byte ≠ 32 := by
      intro byte hbyte
      have hnone : ∀ blank ∈ ([9, 12, 32] : List UInt8), byte ≠ blank := by
        rintro blank hblank rfl
        have hkept : byte ≠ 10 ∧ byte ≠ 13 := by
          constructor <;> rintro rfl <;> exact absurd hblank (by decide)
        have hmem : byte ∈ text.filter fun byte ↦ decide (byte ≠ 10 ∧ byte ≠ 13) :=
          List.mem_filter.mpr ⟨hbyte, decide_eq_true hkept⟩
        refine not_spells_blank byte ?_ (spells_of_readPadded stdEncoding hread byte hmem)
        simp only [List.mem_cons, List.not_mem_nil, or_false] at hblank ⊢
        tauto
      exact ⟨hnone 9 (by decide), hnone 12 (by decide), hnone 32 (by decide)⟩
    rw [decodeString, readPadded_eq] at hread
    split_ifs at hread with hgroups
    refine ⟨?_, hgroups, hblanks⟩
    rw [atob, filter_blanks hblanks]
    exact hread
  · rintro ⟨hread, hgroups, hblanks⟩
    rw [atob, filter_blanks hblanks] at hread
    rw [decodeString, readPadded_eq, if_pos hgroups]
    exact hread

/-! ### The keys that the controller stores -/

/-- No blank is in what the controller writes. -/
theorem filter_encode (bytes : List UInt8) {keeps : UInt8 → Bool}
    (hkeeps : ∀ character, Spells stdEncoding character → keeps character = true) :
    (encode stdEncoding bytes).filter keeps = encode stdEncoding bytes :=
  List.filter_eq_self.mpr fun character hcharacter ↦ hkeeps character
    (spells_of_readPadded stdEncoding (readPadded_encode stdEncoding bytes) character hcharacter)

theorem decodeString_encode (bytes : List UInt8) :
    decodeString (encode stdEncoding bytes) = some bytes := by
  rw [decodeString, filter_encode bytes, readPadded_encode]
  intro character hspells
  refine decide_eq_true ⟨?_, ?_⟩ <;> rintro rfl <;> exact not_spells_blank _ (by decide) hspells

theorem atob_encode (bytes : List UInt8) : atob (encode stdEncoding bytes) = some bytes :=
  ((decodeString_eq_some_iff _ _).mp (decodeString_encode bytes)).1

theorem encode_ne_nil {bytes : List UInt8} (hbytes : bytes ≠ []) :
    encode stdEncoding bytes ≠ [] := by
  intro hnil
  have hread := readPadded_encode stdEncoding bytes
  rw [hnil] at hread
  exact hbytes (Option.some.inj hread).symm

/-- The agent decodes what the controller stores to the key material that it has generated. -/
theorem keyFromBase64_keyToBase64 (keyInfo : KeyInfo) :
    keyFromBase64 decodeString (keyToBase64 keyInfo).1 (keyToBase64 keyInfo).2 keyInfo.cipher =
      some keyInfo := by
  obtain ⟨key, iv, cipher⟩ := keyInfo
  rw [keyFromBase64, keyToBase64, decodeString_encode]
  dsimp only
  by_cases hiv : iv = []
  · rw [if_pos hiv, if_pos rfl, hiv]
  · rw [if_neg hiv, if_neg (encode_ne_nil hiv), decodeString_encode, Option.map_some]

/-- The relay that the agent makes of the controller's answer has the key material that the
controller has generated, and so has the player's decryptor. -/
theorem arrives (st : State) (call : ℕ) (streamKey originURL : GoString) (keyInfo : KeyInfo) :
    create decodeString st call streamKey
        (some ⟨originURL, (keyToBase64 keyInfo).1, (keyToBase64 keyInfo).2, keyInfo.cipher⟩) =
      State.goOn { st with heap := st.heap ++ [newStreamRelay streamKey originURL keyInfo] } call
        (.created st.heap.length) ∧
    decryptorKey (keyToBase64 keyInfo).1 = some keyInfo.key := by
  refine ⟨?_, atob_encode keyInfo.key⟩
  rw [create]
  dsimp only
  rw [keyFromBase64_keyToBase64]

end LiveCDN.System.KeyTransport
