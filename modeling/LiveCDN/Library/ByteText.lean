import LiveCDN.Library.Utf8Text

/-!
# Bytes read as text

Bytes that were received are read as a text in two ways: strictly (`fromUtf8`, which knows the bytes
of a text and refuses all others) and lossily (`fromUtf8Lossy`). A lossy text reads as its bytes
(`ReadsAs`): each ASCII character stands for its own byte, and every other character for bytes that
are not ASCII. So an ASCII pattern occurs in the text exactly where its bytes occur
(`ReadsAs.isPrefix_iff`, `ReadsAs.isInfix_iff`), and what stands before the first line feed of the
text reads as what stands before the first line feed of the bytes (`ReadsAs.takeWhile_ne`).

A stream of bytes is also cut into lines, each with its line feed (`takeLine`, `byteLines`).
-/

set_option autoImplicit false
set_option relaxedAutoImplicit false

namespace LiveCDN.Library.ByteText

open Utf8Text

/-! ### Patterns in longer lists -/

/-- What has no element of a pattern in front of a list adds no occurrence of it. Assumes: the
pattern is not empty. -/
theorem infix_append_iff_of_front {α : Type*} {pattern front back : List α}
    (hpattern : pattern ≠ []) (hfront : ∀ a ∈ front, a ∉ pattern) :
    pattern <:+: front ++ back ↔ pattern <:+: back := by
  induction front with
  | nil => rw [List.nil_append]
  | cons a front ih =>
    have hprefix : ¬ pattern <+: a :: (front ++ back) := by
      intro hprefix
      rcases List.prefix_cons_iff.mp hprefix with hnil | ⟨rest, hrest, _⟩
      · exact hpattern hnil
      · exact hfront a List.mem_cons_self (hrest ▸ List.mem_cons_self)
    rw [List.cons_append, List.infix_cons_iff, or_iff_right hprefix]
    exact ih fun b hb ↦ hfront b (List.mem_cons_of_mem a hb)

/-- What has no element of a pattern behind a list adds no occurrence of it. Assumes: the pattern is
not empty. -/
theorem infix_append_iff_of_back {α : Type*} {pattern front back : List α} (hpattern : pattern ≠ [])
    (hback : ∀ a ∈ back, a ∉ pattern) : pattern <:+: front ++ back ↔ pattern <:+: front := by
  have hfront : pattern.reverse <:+: front.reverse ↔ pattern <:+: front := List.reverse_infix
  rw [← List.reverse_infix, List.reverse_append, ← hfront]
  refine infix_append_iff_of_front (by simpa using hpattern) fun a ha ↦ ?_
  simpa using hback a (List.mem_reverse.mp ha)

/-- What has no element of a pattern behind a list does not make it a prefix. Assumes: no element of
the pattern stands in the part behind. -/
theorem prefix_append_iff_of_back {α : Type*} {pattern front back : List α}
    (hback : ∀ a ∈ back, a ∉ pattern) : pattern <+: front ++ back ↔ pattern <+: front := by
  constructor
  · intro hprefix
    rcases le_or_gt pattern.length front.length with hle | hlt
    · exact (List.prefix_append_right_inj []).mp
        (List.prefix_of_prefix_length_le hprefix (List.prefix_append front back) hle)
    · obtain ⟨rest, hrest⟩ :=
        List.prefix_of_prefix_length_le (List.prefix_append front back) hprefix hlt.le
      cases rest with
      | nil =>
        rw [List.append_nil] at hrest
        exact absurd (congrArg List.length hrest) hlt.ne
      | cons a rest =>
        obtain ⟨more, hmore⟩ := hprefix
        rw [← hrest, List.append_assoc, List.append_cancel_left_eq, List.cons_append] at hmore
        have hmem : a ∈ back := hmore ▸ List.mem_cons_self
        exact absurd (hrest ▸ List.mem_append_right front List.mem_cons_self) (hback a hmem)
  · exact fun hprefix ↦ hprefix.trans (List.prefix_append front back)

/-! ### Strict decoding -/

/-- `from_utf8`: the text of some bytes, none when they are no UTF-8. -/
def fromUtf8 (bytes : List UInt8) : Option Text :=
  (String.fromUTF8? bytes.toByteArray).map String.toList

/-- The bytes that decode to a text are its UTF-8 form. -/
theorem fromUtf8_eq_some_iff {bytes : List UInt8} {text : Text} :
    fromUtf8 bytes = some text ↔ text.flatMap String.utf8EncodeChar = bytes := by
  have hdecode (string : String) :
      String.fromUTF8? bytes.toByteArray = some string ↔
        string.toByteArray = bytes.toByteArray := by
    unfold String.fromUTF8?
    split_ifs with hvalid
    · rw [Option.some.injEq, ← String.toByteArray_inj]
      exact eq_comm
    · exact iff_of_false nofun fun hbytes ↦ hvalid (hbytes ▸ string.isValidUTF8)
  have hform (string : String) : string.toByteArray = bytes.toByteArray ↔
      string.toList.flatMap String.utf8EncodeChar = bytes := by
    rw [← String.utf8Encode_toList]
    constructor
    · intro hbytes
      have hdata := congrArg (fun array : ByteArray ↦ array.data.toList) hbytes
      simpa [List.utf8Encode, List.toList_data_toByteArray] using hdata
    · exact fun hbytes ↦ congrArg List.toByteArray hbytes
  rw [fromUtf8, Option.map_eq_some_iff]
  constructor
  · rintro ⟨string, hstring, rfl⟩
    exact (hform string).mp ((hdecode string).mp hstring)
  · intro hbytes
    refine ⟨String.ofList text, (hdecode _).mpr ((hform _).mpr ?_), String.toList_ofList⟩
    rwa [String.toList_ofList]

/-! ### Lossy decoding -/

/-- The bytes of an ASCII text. -/
def asciiBytes (text : Text) : List UInt8 := text.map fun c ↦ UInt8.ofNat c.toNat

/-- A text is ASCII. -/
def IsAscii (text : Text) : Prop := ∀ c ∈ text, c.toNat < 0x80

instance (text : Text) : Decidable (IsAscii text) :=
  List.decidableBAll (fun c : Char ↦ c.toNat < 0x80) text

/-- A text reads as some bytes. -/
inductive ReadsAs : Text → List UInt8 → Prop
  | nil : ReadsAs [] []
  /-- An ASCII character stands for its byte. -/
  | ascii {byte : UInt8} {text : Text} {bytes : List UInt8} (hbyte : byte < 0x80)
    (hrest : ReadsAs text bytes) : ReadsAs (Char.ofNat byte.toNat :: text) (byte :: bytes)
  /-- Any other character stands for bytes that are not ASCII. -/
  | other {c : Char} {text : Text} {first : UInt8} {more bytes : List UInt8} (hc : 0x80 ≤ c.toNat)
    (hfirst : 0x80 ≤ first) (hmore : ∀ byte ∈ more, 0x80 ≤ byte) (hrest : ReadsAs text bytes) :
    ReadsAs (c :: text) (first :: (more ++ bytes))

/-- The character of a valid number has it. Assumes: the number is one of a character. -/
theorem toNat_ofNat_of_valid {value : ℕ} (hvalid : value.isValidChar) :
    (Char.ofNat value).toNat = value := by
  rw [Char.ofNat, dif_pos hvalid]
  rfl

/-- The character of a number from 128 on is not ASCII. Assumes: the number is one of a character.
-/
theorem toNat_ofNat_ge {value : ℕ} (hlow : 0x80 ≤ value) (hvalid : value.isValidChar) :
    0x80 ≤ (Char.ofNat value).toNat := by
  rwa [toNat_ofNat_of_valid hvalid]

theorem isContinuation_iff {byte : UInt8} :
    isContinuation byte = true ↔ 0x80 ≤ byte.toNat ∧ byte.toNat ≤ 0xBF := by
  rw [isContinuation, Bool.and_eq_true, decide_eq_true_eq, decide_eq_true_eq, UInt8.le_iff_toNat_le,
    UInt8.le_iff_toNat_le]
  rfl

/-- Which second bytes a first byte admits. -/
theorem isSecondOf_iff {first second : UInt8} :
    isSecondOf first second = true ↔ (0x80 ≤ second.toNat ∧ second.toNat ≤ 0xBF) ∧
      (first.toNat = 0xE0 → 0xA0 ≤ second.toNat) ∧ (first.toNat = 0xED → second.toNat ≤ 0x9F) ∧
        (first.toNat = 0xF0 → 0x90 ≤ second.toNat) ∧
          (first.toNat = 0xF4 → second.toNat ≤ 0x8F) := by
  rw [isSecondOf, Bool.and_eq_true, isContinuation_iff]
  refine and_congr_right fun hcontinuation ↦ ?_
  have hfirst (value : UInt8) : first = value ↔ first.toNat = value.toNat := UInt8.toNat_inj.symm
  simp only [hfirst, UInt8.le_iff_toNat_le]
  split_ifs <;> simp_all
/-- What two bytes stand for is not ASCII. Assumes: the first byte starts two bytes. -/
theorem two_ge {first second : UInt8} (hlow : 0xC2 ≤ first) (hhigh : first ≤ 0xDF) :
    0x80 ≤ (Char.ofNat (first.toNat % 32 * 64 + payload second)).toNat := by
  have hpayload : payload second < 64 := Nat.mod_lt _ (by decide)
  rw [UInt8.le_iff_toNat_le] at hlow hhigh
  change 194 ≤ first.toNat at hlow
  change first.toNat ≤ 223 at hhigh
  exact toNat_ofNat_ge (by omega) (Or.inl (by omega))

/-- What three bytes stand for is not ASCII. Assumes: the first byte starts three bytes and admits
the second. -/
theorem three_ge {first second third : UInt8} (hlow : 0xE0 ≤ first) (hhigh : first ≤ 0xEF)
    (hsecond : isSecondOf first second = true) :
    0x80 ≤ (Char.ofNat ((first.toNat % 16 * 64 + payload second) * 64 + payload third)).toNat := by
  have hpayload : payload third < 64 := Nat.mod_lt _ (by decide)
  obtain ⟨hcontinuation, hE0, hED, -, -⟩ := isSecondOf_iff.mp hsecond
  rw [UInt8.le_iff_toNat_le] at hlow hhigh
  change 224 ≤ first.toNat at hlow
  change first.toNat ≤ 239 at hhigh
  have hvalue : payload second = second.toNat - 128 := by
    unfold payload
    omega
  rw [hvalue]
  refine toNat_ofNat_ge (by omega) ?_
  unfold Nat.isValidChar
  omega

/-- What four bytes stand for is not ASCII. Assumes: the first byte starts four bytes and admits the
second. -/
theorem four_ge {first second third fourth : UInt8} (hlow : ¬ first ≤ 0xEF) (hhigh : first ≤ 0xF4)
    (hsecond : isSecondOf first second = true) :
    0x80 ≤ (Char.ofNat (((first.toNat % 8 * 64 + payload second) * 64 + payload third) * 64 +
      payload fourth)).toNat := by
  have hthird : payload third < 64 := Nat.mod_lt _ (by decide)
  have hfourth : payload fourth < 64 := Nat.mod_lt _ (by decide)
  obtain ⟨hcontinuation, -, -, hF0, hF4⟩ := isSecondOf_iff.mp hsecond
  rw [UInt8.le_iff_toNat_le] at hlow hhigh
  change ¬ first.toNat ≤ 239 at hlow
  change first.toNat ≤ 244 at hhigh
  have hvalue : payload second = second.toNat - 128 := by
    unfold payload
    omega
  rw [hvalue]
  refine toNat_ofNat_ge (by omega) ?_
  unfold Nat.isValidChar
  omega

/-- The first character takes its byte alone and is ASCII, or it is not ASCII and takes only bytes
that are not. -/
theorem decodeFirst_spec (first : UInt8) (bytes : List UInt8) :
    (first < 0x80 ∧ decodeFirst first bytes = (Char.ofNat first.toNat, 0)) ∨
      (0x80 ≤ first ∧ 0x80 ≤ (decodeFirst first bytes).1.toNat ∧
        ∀ byte ∈ bytes.take (decodeFirst first bytes).2, 0x80 ≤ byte) := by
  have hreplacement : 0x80 ≤ replacementCharacter.toNat := by decide
  have hcontinuation {byte : UInt8} (hbyte : isContinuation byte = true) : 0x80 ≤ byte :=
    UInt8.le_iff_toNat_le.mpr (isContinuation_iff.mp hbyte).1
  have hsecond {second : UInt8} (hbyte : isSecondOf first second = true) : 0x80 ≤ second :=
    UInt8.le_iff_toNat_le.mpr (isSecondOf_iff.mp hbyte).1.1
  fun_cases decodeFirst first bytes with
  | case1 second rest hascii => exact Or.inl ⟨hascii, rfl⟩
  | case2 second rest hascii htwo =>
    exact Or.inr ⟨UInt8.not_lt.mp hascii, two_ge htwo.1 htwo.2.1,
      by simpa using hcontinuation htwo.2.2⟩
  | case3 second hascii htwo hmany third rest hthird =>
    exact Or.inr ⟨UInt8.not_lt.mp hascii, hreplacement, by simpa using hsecond hmany.2.2⟩
  | case4 second hascii htwo hmany third rest hthird hthree =>
    refine Or.inr ⟨UInt8.not_lt.mp hascii, three_ge hmany.1 hthree hmany.2.2, ?_⟩
    simpa using ⟨hsecond hmany.2.2, hcontinuation (by simpa using hthird)⟩
  | case5 second hascii htwo hmany third hthird hthree fourth rest hfourth =>
    refine Or.inr ⟨UInt8.not_lt.mp hascii, hreplacement, ?_⟩
    simpa using ⟨hsecond hmany.2.2, hcontinuation (by simpa using hthird)⟩
  | case6 second hascii htwo hmany third hthird hthree fourth rest hfourth =>
    refine Or.inr ⟨UInt8.not_lt.mp hascii, four_ge hthree hmany.2.1 hmany.2.2, ?_⟩
    simpa using ⟨hsecond hmany.2.2, hcontinuation (by simpa using hthird),
      hcontinuation (by simpa using hfourth)⟩
  | case7 second hascii htwo hmany third hthird hthree =>
    refine Or.inr ⟨UInt8.not_lt.mp hascii, hreplacement, ?_⟩
    simpa using ⟨hsecond hmany.2.2, hcontinuation (by simpa using hthird)⟩
  | case8 second hascii htwo hmany =>
    exact Or.inr ⟨UInt8.not_lt.mp hascii, hreplacement, by simpa using hsecond hmany.2.2⟩
  | case9 second rest hascii htwo hmany =>
    exact Or.inr ⟨UInt8.not_lt.mp hascii, hreplacement, by simp⟩
  | case10 hascii => exact Or.inl ⟨hascii, rfl⟩
  | case11 hascii => exact Or.inr ⟨UInt8.not_lt.mp hascii, hreplacement, by simp⟩

/-- The text of bytes reads as them, from where the first character starts. Assumes: the bytes that
belong to a character before them are not ASCII. -/
theorem readsAs_decodeFrom (taken : ℕ) (bytes : List UInt8) :
    ReadsAs (decodeFrom taken bytes) (bytes.drop taken) := by
  induction bytes generalizing taken with
  | nil =>
    rw [decodeFrom, List.drop_nil]
    exact .nil
  | cons first bytes ih =>
    cases taken with
    | succ taken => exact ih taken
    | zero =>
      rw [decodeFrom, List.drop_zero]
      rcases decodeFirst_spec first bytes with ⟨hfirst, hdecoded⟩ | ⟨hfirst, hc, hmore⟩
      · rw [hdecoded]
        exact .ascii hfirst (ih 0)
      · have hread := ReadsAs.other hc hfirst hmore (ih (decodeFirst first bytes).2)
        rwa [List.take_append_drop] at hread

/-- The lossy text of bytes reads as them. -/
theorem readsAs_fromUtf8Lossy (bytes : List UInt8) : ReadsAs (fromUtf8Lossy bytes) bytes :=
  readsAs_decodeFrom 0 bytes

/-- An ASCII character is the one of a byte exactly when its byte is that one. Assumes: the
character is ASCII. -/
theorem eq_ofNat_iff {c : Char} {byte : UInt8} (hc : c.toNat < 0x80) :
    c = Char.ofNat byte.toNat ↔ UInt8.ofNat c.toNat = byte := by
  have hbyte := byte.toNat_lt
  constructor
  · intro hchar
    have hvalue : (Char.ofNat byte.toNat).toNat = byte.toNat :=
      toNat_ofNat_of_valid (Or.inl (by omega))
    rw [hchar, hvalue, UInt8.ofNat_toNat]
  · rintro rfl
    rw [UInt8.toNat_ofNat_of_lt' (by show c.toNat < 256; omega), Char.ofNat_toNat]

/-- An ASCII text starts a text exactly when its bytes start the bytes it reads as. Assumes: the
pattern is ASCII. -/
theorem ReadsAs.isPrefix_iff {pattern text : Text} {bytes : List UInt8} (hread : ReadsAs text bytes)
    (hascii : IsAscii pattern) : pattern <+: text ↔ asciiBytes pattern <+: bytes := by
  induction hread generalizing pattern with
  | nil => rw [List.prefix_nil, List.prefix_nil, asciiBytes, List.map_eq_nil_iff]
  | ascii hbyte hrest ih =>
    cases pattern with
    | nil => simp [asciiBytes]
    | cons c pattern =>
      rw [asciiBytes, List.map_cons, List.cons_prefix_cons, List.cons_prefix_cons,
        eq_ofNat_iff (hascii c List.mem_cons_self),
        ih fun other hother ↦ hascii other (List.mem_cons_of_mem c hother)]
      rfl
  | @other d text first more bytes hd hfirst hmore hrest ih =>
    cases pattern with
    | nil => simp [asciiBytes]
    | cons c pattern =>
      have hc : c.toNat < 0x80 := hascii c List.mem_cons_self
      have hchar : c ≠ d := by
        rintro rfl
        exact absurd hd (not_le.mpr hc)
      have hbyte : UInt8.ofNat c.toNat ≠ first := by
        rintro rfl
        rw [UInt8.le_iff_toNat_le, UInt8.toNat_ofNat_of_lt' (hc.trans (by decide))] at hfirst
        exact absurd hfirst (not_le.mpr hc)
      rw [asciiBytes, List.map_cons, List.cons_prefix_cons, List.cons_prefix_cons]
      exact iff_of_false (fun hboth ↦ hchar hboth.1) fun hboth ↦ hbyte hboth.1

/-- The bytes of an ASCII text are ASCII. Assumes: the text is ASCII. -/
theorem lt_of_mem_asciiBytes {pattern : Text} (hascii : IsAscii pattern) {byte : UInt8}
    (hbyte : byte ∈ asciiBytes pattern) : byte < 0x80 := by
  obtain ⟨c, hc, rfl⟩ := List.mem_map.mp hbyte
  have hlt : c.toNat < 0x80 := hascii c hc
  rw [UInt8.lt_iff_toNat_lt, UInt8.toNat_ofNat_of_lt' (hlt.trans (by decide))]
  exact hlt

/-- An ASCII text occurs in a text exactly when its bytes occur in the bytes it reads as. Assumes:
the pattern is ASCII and not empty. -/
theorem ReadsAs.isInfix_iff {pattern text : Text} {bytes : List UInt8} (hread : ReadsAs text bytes)
    (hascii : IsAscii pattern) (hpattern : pattern ≠ []) :
    pattern <:+: text ↔ asciiBytes pattern <:+: bytes := by
  have hbytes : asciiBytes pattern ≠ [] := by simpa [asciiBytes] using hpattern
  induction hread with
  | nil => rw [List.infix_nil, List.infix_nil, asciiBytes, List.map_eq_nil_iff]
  | ascii hbyte hrest ih =>
    rw [List.infix_cons_iff, List.infix_cons_iff]
    exact or_congr ((ReadsAs.ascii hbyte hrest).isPrefix_iff hascii) ih
  | @other c text first more bytes hc hfirst hmore hrest ih =>
    have hnot : ∀ byte ∈ first :: more, byte ∉ asciiBytes pattern := by
      intro byte hbyte hmem
      refine UInt8.not_lt.mpr ?_ (lt_of_mem_asciiBytes hascii hmem)
      rcases List.mem_cons.mp hbyte with rfl | hbyte
      · exact hfirst
      · exact hmore byte hbyte
    have hchar : ∀ other ∈ [c], other ∉ pattern := by
      intro other hother hmem
      obtain rfl := List.mem_singleton.mp hother
      exact absurd hc (not_le.mpr (hascii other hmem))
    rw [← List.singleton_append, infix_append_iff_of_front hpattern hchar, ← List.cons_append,
      infix_append_iff_of_front hbytes hnot]
    exact ih

/-- What stands before the first line feed of a text reads as what stands before the first line feed
of the bytes. -/
theorem ReadsAs.takeWhile_ne {text : Text} {bytes : List UInt8} (hread : ReadsAs text bytes) :
    ReadsAs (text.takeWhile (· ≠ '\n')) (bytes.takeWhile (· ≠ 10)) := by
  induction hread with
  | nil => exact .nil
  | @ascii byte text bytes hbyte hrest ih =>
    have hfeed : '\n' = Char.ofNat byte.toNat ↔ 10 = byte :=
      eq_ofNat_iff (c := '\n') (by decide)
    by_cases hten : byte = 10
    · rw [List.takeWhile_cons, List.takeWhile_cons,
        if_neg (by simpa using (hfeed.mpr hten.symm).symm), if_neg (by simpa using hten)]
      exact .nil
    · rw [List.takeWhile_cons, List.takeWhile_cons,
        if_pos (by simpa using fun hchar ↦ hten (hfeed.mp hchar.symm).symm),
        if_pos (by simpa using hten)]
      exact .ascii hbyte ih
  | @other c text first more bytes hc hfirst hmore hrest ih =>
    have hhigh {byte : UInt8} (hbyte : 0x80 ≤ byte) : decide (byte ≠ 10) = true := by
      rw [decide_eq_true_eq]
      rintro rfl
      exact absurd hbyte (by decide)
    have hchar : c ≠ '\n' := by
      rintro rfl
      exact absurd hc (by decide)
    rw [List.takeWhile_cons, List.takeWhile_cons, if_pos (by simpa using hchar),
      if_pos (hhigh hfirst), List.takeWhile_append_of_pos fun byte hbyte ↦ hhigh (hmore byte hbyte)]
    exact .other hc hfirst hmore ih

/-! ### Lines -/

/-- The first line that continues an unfinished one is what stands before the first line feed, up to
carriage returns at its end. Assumes: there is a character. -/
theorem exists_head?_linesFrom (unfinished text : Text) (hsome : unfinished ≠ [] ∨ text ≠ []) :
    ∃ line ending, (linesFrom unfinished text).head? = some line ∧
      unfinished.reverse ++ text.takeWhile (· ≠ '\n') = line ++ ending ∧
        ∀ c ∈ ending, c = '\r' := by
  induction text generalizing unfinished with
  | nil =>
    have hunfinished : unfinished ≠ [] := hsome.resolve_right fun h ↦ h rfl
    refine ⟨unfinished.reverse, [], ?_, by simp, by simp⟩
    rw [linesFrom, if_neg hunfinished, List.head?_cons]
  | cons c text ih =>
    by_cases hc : c = '\n'
    · unfold linesFrom
      rw [if_pos hc, List.head?_cons, List.takeWhile_cons, if_neg (by simpa using hc),
        List.append_nil]
      split
      · exact ⟨_, ['\r'], rfl, by rw [List.reverse_cons], by simp⟩
      · exact ⟨_, [], rfl, by rw [List.append_nil], by simp⟩
    · obtain ⟨line, ending, hline, hfront, hending⟩ :=
        ih (c :: unfinished) (Or.inl (List.cons_ne_nil c unfinished))
      refine ⟨line, ending, ?_, ?_, hending⟩
      · unfold linesFrom
        rwa [if_neg hc]
      · rw [List.takeWhile_cons, if_pos (by simpa using hc), ← hfront, List.reverse_cons,
          List.append_assoc, List.singleton_append]

/-- The first line of a text is what stands before the first line feed, up to carriage returns at
its end. Assumes: the text is not empty. -/
theorem exists_head?_lines {text : Text} (htext : text ≠ []) :
    ∃ line ending, (lines text).head? = some line ∧
      text.takeWhile (· ≠ '\n') = line ++ ending ∧ ∀ c ∈ ending, c = '\r' :=
  exists_head?_linesFrom [] text (Or.inr htext)

/-- The bytes up to the first line feed and with it, or all bytes, and what is left of them. -/
def takeLine : List UInt8 → List UInt8 × List UInt8
  | [] => ([], [])
  | byte :: bytes =>
    if byte = 10 then ([byte], bytes) else (byte :: (takeLine bytes).1, (takeLine bytes).2)

/-- The lines of some bytes, each with its line feed; the last one may have none. -/
def byteLines : List UInt8 → List (List UInt8)
  | [] => []
  | byte :: bytes =>
    if byte = 10 then [byte] :: byteLines bytes
    else
      match byteLines bytes with
      | [] => [[byte]]
      | line :: lines => (byte :: line) :: lines

/-- A line and what is left make the bytes. -/
theorem takeLine_append (bytes : List UInt8) :
    (takeLine bytes).1 ++ (takeLine bytes).2 = bytes := by
  induction bytes with
  | nil => rfl
  | cons byte bytes ih =>
    rw [takeLine]
    by_cases hbyte : byte = 10
    · rw [if_pos hbyte, List.singleton_append]
    · rw [if_neg hbyte, List.cons_append, ih]

/-- The first line is taken, then the lines of what is left. Assumes: there are bytes. -/
theorem byteLines_eq {bytes : List UInt8} (hbytes : bytes ≠ []) :
    byteLines bytes = (takeLine bytes).1 :: byteLines (takeLine bytes).2 := by
  induction bytes with
  | nil => exact absurd rfl hbytes
  | cons byte bytes ih =>
    rw [byteLines, takeLine]
    by_cases hbyte : byte = 10
    · rw [if_pos hbyte, if_pos hbyte]
    · rw [if_neg hbyte, if_neg hbyte]
      cases bytes with
      | nil => rfl
      | cons next bytes => rw [ih (List.cons_ne_nil next bytes)]

/-- Taking a line leaves fewer bytes. Assumes: there are bytes. -/
theorem length_takeLine_lt {bytes : List UInt8} (hbytes : bytes ≠ []) :
    (takeLine bytes).2.length < bytes.length := by
  have hlength := congrArg List.length (takeLine_append bytes)
  rw [List.length_append] at hlength
  have hline : (takeLine bytes).1 ≠ [] := by
    cases bytes with
    | nil => exact absurd rfl hbytes
    | cons byte bytes =>
      rw [takeLine]
      split_ifs
      · exact List.cons_ne_nil byte []
      · exact List.cons_ne_nil byte _
  have hpos := List.length_pos_of_ne_nil hline
  omega

end LiveCDN.Library.ByteText
