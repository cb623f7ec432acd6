import Mathlib

/-!
# Texts cut at byte indices

A text is a list of characters, and an index into it counts the bytes of its UTF-8 form. A slice is
defined only where no character is cut in two: `sliceTo_isSome` and `sliceFrom_isSome` say that a
slice exists exactly at a character boundary, and `isCharBoundary_iff`, `isCharBoundary_min_iff` and
`isCharBoundary_append_add` say which indices these are. `map_trim_lines_append` cuts the first line
off a text, whichever way it ends. `fromUtf8Lossy` makes a text of any bytes.
-/

set_option autoImplicit false
set_option relaxedAutoImplicit false

namespace LiveCDN.Library.Utf8Text

/-- A text: the characters of a UTF-8 string. -/
abbrev Text := List Char

/-! ### Bytes and boundaries -/

/-- The number of bytes of a text in UTF-8. -/
def byteLen (text : Text) : ℕ := (text.map Char.utf8Size).sum

/-- An index is a character boundary: it stands in front of a character or at the end. -/
def isCharBoundary : Text → ℕ → Bool
  | _, 0 => true
  | [], _ + 1 => false
  | c :: text, index + 1 =>
    decide (c.utf8Size ≤ index + 1) && isCharBoundary text (index + 1 - c.utf8Size)

/-- The characters that end at or before an index. -/
def before : Text → ℕ → Text
  | [], _ => []
  | c :: text, index =>
    if c.utf8Size ≤ index then c :: before text (index - c.utf8Size) else []

/-- The characters that start at or behind an index. -/
def behind (text : Text) (index : ℕ) : Text := text.drop (before text index).length

/-- `&text[..index]`, none when the index is not a character boundary. -/
def sliceTo (text : Text) (index : ℕ) : Option Text :=
  if isCharBoundary text index then some (before text index) else none

/-- `&text[index..]`, none when the index is not a character boundary. -/
def sliceFrom (text : Text) (index : ℕ) : Option Text :=
  if isCharBoundary text index then some (behind text index) else none

@[simp] theorem byteLen_nil : byteLen [] = 0 := rfl

@[simp] theorem byteLen_cons (c : Char) (text : Text) :
    byteLen (c :: text) = c.utf8Size + byteLen text := rfl

@[simp] theorem isCharBoundary_zero (text : Text) : isCharBoundary text 0 = true := by
  cases text <;> rfl

/-- Behind a prefix the boundaries are those of the rest. -/
theorem isCharBoundary_append_add (front back : Text) (index : ℕ) :
    isCharBoundary (front ++ back) (byteLen front + index) = isCharBoundary back index := by
  induction front with
  | nil => rw [List.nil_append, byteLen_nil, Nat.zero_add]
  | cons c front ih =>
    obtain ⟨position, hposition⟩ : ∃ position, byteLen (c :: front) + index = position + 1 :=
      Nat.exists_eq_add_one.mpr
        (Nat.add_pos_left (Nat.add_pos_left c.utf8Size_pos (byteLen front)) index)
    have hwidth : c.utf8Size + (byteLen front + index) = position + 1 := by
      rw [← hposition, byteLen_cons, Nat.add_assoc]
    rw [hposition, List.cons_append, isCharBoundary, ← hwidth, Nat.add_sub_cancel_left, ih,
      decide_eq_true (Nat.le_add_right _ _), Bool.true_and]

/-- The end of a prefix is a boundary. -/
theorem isCharBoundary_append (front back : Text) :
    isCharBoundary (front ++ back) (byteLen front) = true :=
  (isCharBoundary_append_add front back 0).trans (isCharBoundary_zero back)

/-- The first byte ends on a boundary exactly when the first character has one byte. -/
theorem isCharBoundary_one_iff {text : Text} :
    isCharBoundary text 1 = true ↔ ∃ c rest, text = c :: rest ∧ c.utf8Size = 1 := by
  cases text with
  | nil => simp [isCharBoundary]
  | cons c text =>
    have hpos := c.utf8Size_pos
    rw [isCharBoundary, Bool.and_eq_true, decide_eq_true_eq]
    constructor
    · rintro ⟨hle, _⟩
      exact ⟨c, text, rfl, le_antisymm hle hpos⟩
    · rintro ⟨c', rest, htext, hwidth⟩
      obtain ⟨rfl, rfl⟩ := List.cons.inj htext
      rw [hwidth]
      exact ⟨le_rfl, isCharBoundary_zero text⟩

/-- An index is a boundary exactly when some of the first characters fill the bytes before it. -/
theorem isCharBoundary_iff {text : Text} {index : ℕ} :
    isCharBoundary text index = true ↔ ∃ count, byteLen (text.take count) = index := by
  constructor
  · intro hboundary
    induction text generalizing index with
    | nil =>
      cases index with
      | zero => exact ⟨0, rfl⟩
      | succ index => exact nomatch hboundary
    | cons c text ih =>
      cases index with
      | zero => exact ⟨0, rfl⟩
      | succ index =>
        rw [isCharBoundary, Bool.and_eq_true, decide_eq_true_eq] at hboundary
        obtain ⟨count, hcount⟩ := ih hboundary.2
        refine ⟨count + 1, ?_⟩
        rw [List.take_succ_cons, byteLen_cons, hcount]
        exact Nat.add_sub_cancel' hboundary.1
  · rintro ⟨count, rfl⟩
    have hboundary := isCharBoundary_append (text.take count) (text.drop count)
    rwa [List.take_append_drop] at hboundary

/-- The first bytes of a text end on a boundary exactly when there are no more bytes or some of the
first characters fill them. -/
theorem isCharBoundary_min_iff {text : Text} {index : ℕ} :
    isCharBoundary text (min index (byteLen text)) = true ↔
      byteLen text ≤ index ∨ ∃ count, byteLen (text.take count) = index := by
  rcases le_or_gt (byteLen text) index with hle | hlt
  · have hend : isCharBoundary text (byteLen text) = true :=
      isCharBoundary_iff.mpr ⟨text.length, by rw [List.take_length]⟩
    rw [min_eq_right hle]
    exact iff_of_true hend (Or.inl hle)
  · rw [min_eq_left hlt.le, isCharBoundary_iff]
    exact (or_iff_right (not_le.mpr hlt)).symm

/-- A slice up to an index exists exactly at a boundary. -/
theorem sliceTo_isSome {text : Text} {index : ℕ} :
    (sliceTo text index).isSome = isCharBoundary text index := by
  unfold sliceTo
  cases isCharBoundary text index <;> rfl

/-- A slice from an index exists exactly at a boundary. -/
theorem sliceFrom_isSome {text : Text} {index : ℕ} :
    (sliceFrom text index).isSome = isCharBoundary text index := by
  unfold sliceFrom
  cases isCharBoundary text index <;> rfl

/-- The characters in front of the end of a prefix. -/
theorem before_append (front back : Text) : before (front ++ back) (byteLen front) = front := by
  induction front with
  | nil =>
    cases back with
    | nil => rfl
    | cons c back => exact if_neg (not_le.mpr c.utf8Size_pos)
  | cons c front ih =>
    rw [List.cons_append, before, byteLen_cons, if_pos (Nat.le_add_right _ _),
      Nat.add_sub_cancel_left, ih]

/-- A slice up to the end of a prefix is the prefix. -/
theorem sliceTo_append (front back : Text) :
    sliceTo (front ++ back) (byteLen front) = some front := by
  unfold sliceTo
  rw [if_pos (isCharBoundary_append front back), before_append]

/-- A slice from the end of a prefix is the rest. -/
theorem sliceFrom_append (front back : Text) :
    sliceFrom (front ++ back) (byteLen front) = some back := by
  unfold sliceFrom behind
  rw [if_pos (isCharBoundary_append front back), before_append, List.drop_left]

/-- `rfind`: the byte index of the last occurrence of a character. -/
def rfind (wanted : Char) : Text → Option ℕ
  | [] => none
  | c :: text =>
    match rfind wanted text with
    | some index => some (c.utf8Size + index)
    | none => if c = wanted then some 0 else none

/-- A character that is not found is not there. -/
theorem rfind_eq_none_iff {wanted : Char} {text : Text} :
    rfind wanted text = none ↔ wanted ∉ text := by
  induction text with
  | nil => exact iff_of_true rfl List.not_mem_nil
  | cons c text ih =>
    rw [rfind]
    cases hrest : rfind wanted text with
    | some position =>
      refine iff_of_false nofun fun hnone ↦ ?_
      rw [ih.mpr fun hmem ↦ hnone (List.mem_cons_of_mem _ hmem)] at hrest
      exact nomatch hrest
    | none =>
      dsimp only
      rw [List.mem_cons, not_or, and_iff_left (ih.mp hrest)]
      split_ifs with hc
      · exact iff_of_false nofun fun hne ↦ hne hc.symm
      · exact iff_of_true rfl fun heq ↦ hc heq.symm

/-- What is found is the last: it stands behind a prefix that fills the bytes before it, and not
again behind it. -/
theorem exists_last_of_rfind {wanted : Char} {text : Text} {index : ℕ}
    (hfind : rfind wanted text = some index) :
    ∃ front back, text = front ++ wanted :: back ∧ byteLen front = index ∧ wanted ∉ back := by
  induction text generalizing index with
  | nil => exact nomatch hfind
  | cons c text ih =>
    rw [rfind] at hfind
    cases hrest : rfind wanted text with
    | some position =>
      rw [hrest] at hfind
      obtain rfl := Option.some.inj hfind
      obtain ⟨front, back, rfl, rfl, hback⟩ := ih hrest
      exact ⟨c :: front, back, rfl, rfl, hback⟩
    | none =>
      rw [hrest] at hfind
      dsimp only at hfind
      split_ifs at hfind with hc
      obtain rfl := Option.some.inj hfind
      exact ⟨[], text, by rw [hc, List.nil_append], rfl, rfind_eq_none_iff.mp hrest⟩

/-! ### Patterns -/

/-- A text with a prefix taken off, if it has it. -/
def stripPrefix (pattern text : Text) : Text :=
  if pattern.isPrefixOf text then text.drop pattern.length else text

/-- `trim_start_matches`: the prefix is taken off as often as it is there. -/
def trimStartMatches (pattern text : Text) : Text :=
  (stripPrefix pattern)^[text.length] text

/-- `trim_end_matches`: the suffix is taken off as often as it is there. -/
def trimEndMatches (pattern text : Text) : Text :=
  (trimStartMatches pattern.reverse text.reverse).reverse

/-- The replacement loop, with a bound on its turns. -/
def replaceUpTo (pattern replacement : Text) : ℕ → Text → Text
  | 0, text => text
  | _ + 1, [] => []
  | turns + 1, c :: text =>
    if pattern.isPrefixOf (c :: text) then
      replacement ++ replaceUpTo pattern replacement turns ((c :: text).drop pattern.length)
    else c :: replaceUpTo pattern replacement turns text

/-- `replace`: each match of a non-empty pattern, from the left, is replaced. -/
def replace (pattern replacement text : Text) : Text :=
  replaceUpTo pattern replacement text.length text

/-- The characters with the Unicode property `White_Space`. -/
def isWhitespace (c : Char) : Bool :=
  (9 ≤ c.val && c.val ≤ 13) || c.val == 0x20 || c.val == 0x85 || c.val == 0xA0 ||
    c.val == 0x1680 || (0x2000 ≤ c.val && c.val ≤ 0x200A) || c.val == 0x2028 ||
    c.val == 0x2029 || c.val == 0x202F || c.val == 0x205F || c.val == 0x3000

/-- `trim`. -/
def trim (text : Text) : Text :=
  ((text.dropWhile isWhitespace).reverse.dropWhile isWhitespace).reverse

/-- `split_whitespace`. -/
def splitWhitespace (text : Text) : List Text :=
  (text.splitOnP isWhitespace).filter fun word ↦ !word.isEmpty

/-- The lines of a text that continues an unfinished line, whose characters are given in reverse. -/
def linesFrom (unfinished : Text) : Text → List Text
  | [] => if unfinished = [] then [] else [unfinished.reverse]
  | c :: text =>
    if c = '\n' then
      (match unfinished with
        | '\r' :: line => line.reverse
        | line => line.reverse) :: linesFrom [] text
    else linesFrom (c :: unfinished) text

/-- `lines`: cut behind each line feed, which is taken off with a carriage return before it. -/
def lines (text : Text) : List Text := linesFrom [] text

/-! ### Blanks, single characters and lines -/

/-- Blanks at the end are trimmed off. -/
theorem trim_append_blanks (text : Text) {blanks : Text}
    (hblanks : ∀ c ∈ blanks, isWhitespace c = true) : trim (text ++ blanks) = trim text := by
  have hreverse : ∀ c ∈ blanks.reverse, isWhitespace c = true := fun c hc ↦
    hblanks c (List.mem_reverse.mp hc)
  unfold trim
  rw [List.dropWhile_append]
  cases hfront : text.dropWhile isWhitespace with
  | nil =>
    rw [List.isEmpty_nil, if_pos rfl, List.dropWhile_eq_nil_iff.mpr hblanks]
  | cons c rest =>
    rw [List.isEmpty_cons, if_neg Bool.false_ne_true, List.reverse_append,
      List.dropWhile_append_of_pos hreverse]

/-- `trim_end`. -/
def trimEnd (text : Text) : Text := (text.reverse.dropWhile isWhitespace).reverse

/-- A text that starts with a character that is no blank is trimmed at its end. -/
theorem trim_of_head {text : Text} (hhead : ∀ c ∈ text.head?, isWhitespace c = false) :
    trim text = trimEnd text := by
  cases text with
  | nil => rfl
  | cons c rest =>
    unfold trim trimEnd
    rw [List.dropWhile_cons_of_neg (Bool.eq_false_iff.mp (hhead c rfl))]

/-- Nothing is trimmed off in front of a character that is no blank. -/
theorem trimEnd_append_cons (front back : Text) {c : Char} (hc : isWhitespace c = false) :
    trimEnd (front ++ c :: back) = front ++ c :: trimEnd back := by
  unfold trimEnd
  rw [List.reverse_append, List.reverse_cons, List.append_assoc, List.dropWhile_append]
  cases hback : back.reverse.dropWhile isWhitespace with
  | nil =>
    rw [List.isEmpty_nil, if_pos rfl, List.singleton_append,
      List.dropWhile_cons_of_neg (Bool.eq_false_iff.mp hc)]
    simp
  | cons other rest =>
    rw [List.isEmpty_cons, if_neg Bool.false_ne_true]
    simp

/-- A character is taken off the start of a text as often as it is there. -/
theorem trimStartMatches_singleton (c : Char) (text : Text) :
    trimStartMatches [c] text = text.dropWhile fun other ↦ decide (other = c) := by
  have hiterate (turns : ℕ) : ∀ text : Text, text.length ≤ turns →
      (stripPrefix [c])^[turns] text = text.dropWhile fun other ↦ decide (other = c) := by
    induction turns with
    | zero =>
      intro text hlength
      rw [List.length_eq_zero_iff.mp (Nat.le_zero.mp hlength)]
      rfl
    | succ turns ih =>
      intro text hlength
      rw [Function.iterate_succ_apply]
      cases text with
      | nil => exact ih [] (Nat.zero_le _)
      | cons other rest =>
        by_cases hother : other = c
        · have hstrip : stripPrefix [c] (other :: rest) = rest := by simp [stripPrefix, hother]
          rw [hstrip, ih rest (Nat.le_of_succ_le_succ hlength)]
          exact (List.dropWhile_cons_of_pos (by simp [hother])).symm
        · have hstrip : stripPrefix [c] (other :: rest) = other :: rest := by
            simp [stripPrefix, Ne.symm hother]
          rw [hstrip, List.dropWhile_cons_of_neg (by simp [hother])]
          exact Function.iterate_fixed hstrip turns
  exact hiterate text.length text le_rfl

/-- A character is taken off the end of a text as often as it is there. -/
theorem trimEndMatches_singleton (c : Char) (text : Text) :
    trimEndMatches [c] text =
      (text.reverse.dropWhile fun other ↦ decide (other = c)).reverse := by
  rw [trimEndMatches, List.reverse_singleton, trimStartMatches_singleton]

/-- The first line of a text ends at its first line feed. -/
theorem linesFrom_append (unfinished : Text) {line : Text} (hline : '\n' ∉ line) (rest : Text) :
    linesFrom unfinished (line ++ '\n' :: rest) =
      (match line.reverse ++ unfinished with
        | '\r' :: line => line.reverse
        | line => line.reverse) :: lines rest := by
  induction line generalizing unfinished with
  | nil => rfl
  | cons c line ih =>
    obtain ⟨hc, hline⟩ := not_or.mp (fun hmem ↦ hline (List.mem_cons.mpr hmem))
    have hnext : linesFrom unfinished (c :: (line ++ '\n' :: rest)) =
        linesFrom (c :: unfinished) (line ++ '\n' :: rest) := if_neg (Ne.symm hc)
    rw [List.cons_append, hnext, ih _ hline, List.reverse_cons, List.append_assoc]
    rfl

/-- The trimmed lines of a text whose first line is given: the line end does not matter. -/
theorem map_trim_lines_append {line : Text} (hline : '\n' ∉ line) (rest : Text) :
    (lines (line ++ '\n' :: rest)).map trim = trim line :: (lines rest).map trim := by
  rw [lines, linesFrom_append [] hline, List.append_nil, List.map_cons]
  congr 1
  cases hreverse : line.reverse with
  | nil =>
    rw [List.reverse_eq_nil_iff.mp hreverse]
    rfl
  | cons c rest =>
    have hlineEq : line = rest.reverse ++ [c] := by
      rw [← List.reverse_reverse line, hreverse, List.reverse_cons]
    split
    · next other hother =>
      obtain ⟨rfl, rfl⟩ := List.cons.inj hother
      rw [hlineEq]
      exact (trim_append_blanks _ (List.forall_mem_singleton.mpr (by decide))).symm
    · rw [hlineEq, List.reverse_cons]

/-! ### Lossy decoding -/

/-- The character that stands for bytes that are no UTF-8. -/
def replacementCharacter : Char := Char.ofNat 0xFFFD

/-- A continuation byte. -/
def isContinuation (byte : UInt8) : Bool := 0x80 ≤ byte && byte ≤ 0xBF

/-- A second byte that the first one admits. -/
def isSecondOf (first second : UInt8) : Bool :=
  isContinuation second &&
    (if first = 0xE0 then 0xA0 ≤ second
    else if first = 0xED then second ≤ 0x9F
    else if first = 0xF0 then 0x90 ≤ second
    else if first = 0xF4 then second ≤ 0x8F
    else true)

/-- The low six bits of a continuation byte. -/
def payload (byte : UInt8) : ℕ := byte.toNat % 64

/-- The character that some bytes start with and how many of them it takes behind the first: the
replacement character takes the longest part that could start a character. -/
def decodeFirst (first : UInt8) : List UInt8 → Char × ℕ
  | second :: rest =>
    if first < 0x80 then (Char.ofNat first.toNat, 0)
    else if 0xC2 ≤ first ∧ first ≤ 0xDF ∧ isContinuation second then
      (Char.ofNat (first.toNat % 32 * 64 + payload second), 1)
    else if 0xE0 ≤ first ∧ first ≤ 0xF4 ∧ isSecondOf first second then
      match rest with
      | third :: rest =>
        if isContinuation third = false then (replacementCharacter, 1)
        else if first ≤ 0xEF then
          (Char.ofNat ((first.toNat % 16 * 64 + payload second) * 64 + payload third), 2)
        else
          match rest with
          | fourth :: _ =>
            if isContinuation fourth = false then (replacementCharacter, 2)
            else (Char.ofNat (((first.toNat % 8 * 64 + payload second) * 64 + payload third) * 64 +
              payload fourth), 3)
          | [] => (replacementCharacter, 2)
      | [] => (replacementCharacter, 1)
    else (replacementCharacter, 0)
  | [] => if first < 0x80 then (Char.ofNat first.toNat, 0) else (replacementCharacter, 0)

/-- The characters of some bytes, the first of which belong to a character before them. -/
def decodeFrom : ℕ → List UInt8 → Text
  | _, [] => []
  | taken + 1, _ :: bytes => decodeFrom taken bytes
  | 0, byte :: bytes =>
    (decodeFirst byte bytes).1 :: decodeFrom (decodeFirst byte bytes).2 bytes

/-- `from_utf8_lossy`. -/
def fromUtf8Lossy (bytes : List UInt8) : Text := decodeFrom 0 bytes

end LiveCDN.Library.Utf8Text
