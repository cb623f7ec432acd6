import LiveCDN.Agent.Playlist

/-!
# Rendered playlists

What `parse_m3u8` makes of a media playlist that is written out: target duration, media sequence and
for each segment its duration, title and address (`MediaPlaylist.render`).

The parser cuts the target duration one byte too far, and takes a title for part of the duration.
`parseM3u8_render` says what it reads. So it recovers a playlist exactly when the target duration is
two, each segment has a title of nothing but commas or a duration of zero, and the number behind the
last segment stays within 64 bits where overflows are checked (`recovers_iff`).
-/

set_option autoImplicit false
set_option relaxedAutoImplicit false

namespace LiveCDN.Agent.PlaylistRendering

open Library.Utf8Text Playlist

/-! ### Numbers -/

/-- A decimal number: digits, and digits behind a point if there is one. -/
structure Decimal where
  whole : Text
  isNumeral_whole : isNumeral whole = true
  fraction : Option Text
  isNumeral_fraction : ∀ digits ∈ fraction, isNumeral digits = true

/-- The text of a number. -/
def Decimal.text (decimal : Decimal) : Text :=
  decimal.whole ++ decimal.fraction.elim [] fun digits ↦ '.' :: digits

/-- The number. -/
def Decimal.value (decimal : Decimal) : ℚ :=
  digitsValue (decimal.whole ++ decimal.fraction.getD []) / 10 ^ (decimal.fraction.getD []).length

/-- A numeral is a digit and more digits. -/
theorem isNumeral_iff {text : Text} :
    isNumeral text = true ↔ text ≠ [] ∧ ∀ c ∈ text, c.isDigit = true := by
  unfold isNumeral
  rw [Bool.and_eq_true, List.all_eq_true, Bool.not_eq_true', List.isEmpty_eq_false_iff]

/-- Behind the first digit of a numeral stand digits. -/
theorem isDigit_of_mem_tail {text : Text} (hdigits : isNumeral text = true) :
    ∀ c ∈ text.tail, c.isDigit = true := fun c hc ↦
  (isNumeral_iff.mp hdigits).2 c (List.mem_of_mem_tail hc)

/-- A text that starts with a digit has no sign. -/
theorem takeSign_of_isDigit {c : Char} (hc : c.isDigit = true) (text : Text) :
    takeSign (c :: text) = (false, c :: text) := by
  unfold takeSign
  split
  · next heq =>
    obtain ⟨rfl, -⟩ := List.cons.inj heq
    exact absurd hc (by decide)
  · next heq =>
    obtain ⟨rfl, -⟩ := List.cons.inj heq
    exact absurd hc (by decide)
  · rfl

/-- The code points of the digits. -/
theorem toNat_of_isDigit {c : Char} (hc : c.isDigit = true) :
    48 ≤ c.toNat ∧ c.toNat ≤ 57 :=
  ⟨UInt32.le_iff_toNat_le.mp (of_decide_eq_true (Bool.and_eq_true_iff.mp hc).1),
    UInt32.le_iff_toNat_le.mp (of_decide_eq_true (Bool.and_eq_true_iff.mp hc).2)⟩

/-- A digit has no lower case. -/
theorem toLower_of_isDigit {c : Char} (hc : c.isDigit = true) : c.toLower = c := by
  have hdigit := (toNat_of_isDigit hc).2
  refine dif_neg fun hupper ↦ ?_
  have hletter : 65 ≤ c.toNat := UInt32.le_iff_toNat_le.mp hupper.1
  omega

/-- A digit takes one byte. -/
theorem utf8Size_of_isDigit {c : Char} (hc : c.isDigit = true) : c.utf8Size = 1 := by
  have hdigit := (toNat_of_isDigit hc).2
  exact if_pos (UInt32.le_iff_toNat_le.mpr (hdigit.trans (by decide)))

/-- A digit is no blank. -/
theorem isWhitespace_of_isDigit {c : Char} (hc : c.isDigit = true) : isWhitespace c = false := by
  have hdigit := toNat_of_isDigit hc
  simp [isWhitespace, UInt32.le_iff_toNat_le, ← UInt32.toNat_inj]
  omega

/-- A numeral spells the number of its digits. -/
theorem digitsValue_eq_ofDigitChars (digits : Text) :
    digitsValue digits = Nat.ofDigitChars 10 digits 0 := rfl

/-- Digits spell less than their power of ten. -/
theorem digitsValue_lt {digits : Text} (hdigits : ∀ c ∈ digits, c.isDigit = true) :
    digitsValue digits < 10 ^ digits.length := by
  induction digits with
  | nil => decide
  | cons c digits ih =>
    have hrest := ih fun other hother ↦ hdigits other (List.mem_cons_of_mem _ hother)
    have hc := (toNat_of_isDigit (hdigits c List.mem_cons_self)).2
    have hdigit : c.toNat - '0'.toNat ≤ 9 := Nat.sub_le_sub_right hc 48
    rw [digitsValue_eq_ofDigitChars] at hrest ⊢
    rw [Nat.ofDigitChars_cons, Nat.ofDigitChars_eq_ofDigitChars_zero, Nat.mul_zero, Nat.zero_add,
      List.length_cons, pow_succ]
    calc 10 ^ digits.length * (c.toNat - '0'.toNat) + Nat.ofDigitChars 10 digits 0
        < 10 ^ digits.length * 9 + 10 ^ digits.length :=
          Nat.add_lt_add_of_le_of_lt (Nat.mul_le_mul_left _ hdigit) hrest
      _ = 10 ^ digits.length * 10 := by ring

/-- A decimal number starts with a digit. -/
theorem Decimal.exists_text_eq_cons (decimal : Decimal) :
    ∃ c rest, decimal.text = c :: rest ∧ c.isDigit = true := by
  obtain ⟨hne, hdigits⟩ := isNumeral_iff.mp decimal.isNumeral_whole
  obtain ⟨c, rest, hwhole⟩ := List.exists_cons_of_ne_nil hne
  refine ⟨c, rest ++ decimal.fraction.elim [] fun digits ↦ '.' :: digits, ?_, hdigits c ?_⟩
  · rw [Decimal.text, hwhole, List.cons_append]
  · rw [hwhole]
    exact List.mem_cons_self

/-- The characters of a decimal number are digits and points. -/
theorem Decimal.mem_text {decimal : Decimal} {c : Char} (hc : c ∈ decimal.text) :
    c.isDigit = true ∨ c = '.' := by
  rcases List.mem_append.mp hc with hwhole | hfraction
  · exact Or.inl ((isNumeral_iff.mp decimal.isNumeral_whole).2 c hwhole)
  · cases hdigits : decimal.fraction with
    | none =>
      rw [hdigits] at hfraction
      exact absurd hfraction List.not_mem_nil
    | some digits =>
      rw [hdigits] at hfraction
      rcases List.mem_cons.mp hfraction with rfl | hmem
      · exact Or.inr rfl
      · exact Or.inl ((isNumeral_iff.mp (decimal.isNumeral_fraction digits hdigits)).2 c hmem)

/-- A decimal number ends with a digit. -/
theorem Decimal.exists_text_eq_append (decimal : Decimal) :
    ∃ front c, decimal.text = front ++ [c] ∧ c.isDigit = true := by
  have hlast {digits : Text} (hdigits : isNumeral digits = true) :
      ∃ front c, digits = front ++ [c] ∧ c.isDigit = true := by
    obtain ⟨hne, hall⟩ := isNumeral_iff.mp hdigits
    exact ⟨digits.dropLast, digits.getLast hne, (List.dropLast_append_getLast hne).symm,
      hall _ (List.getLast_mem hne)⟩
  unfold Decimal.text
  cases hfraction : decimal.fraction with
  | none =>
    obtain ⟨front, c, hwhole, hc⟩ := hlast decimal.isNumeral_whole
    exact ⟨front, c, by rw [hwhole]; exact List.append_nil _, hc⟩
  | some digits =>
    obtain ⟨front, c, rfl, hc⟩ := hlast (decimal.isNumeral_fraction _ hfraction)
    exact ⟨decimal.whole ++ '.' :: front, c, by simp, hc⟩

/-- A decimal number without its sign is read back. -/
theorem parseDecimal_text (decimal : Decimal) :
    parseDecimal decimal.text = some decimal.value := by
  obtain ⟨hne, hwhole⟩ := isNumeral_iff.mp decimal.isNumeral_whole
  unfold parseDecimal Decimal.text Decimal.value
  cases hfraction : decimal.fraction with
  | none =>
    rw [Option.elim_none, List.append_nil, List.takeWhile_eq_self_iff.mpr hwhole,
      List.dropWhile_eq_nil_iff.mpr hwhole]
    simp [parseExponent, hne]
  | some digits =>
    have hdigits := (isNumeral_iff.mp (decimal.isNumeral_fraction digits hfraction)).2
    have hpoint : ¬ '.'.isDigit = true := by decide
    rw [Option.elim_some, List.takeWhile_append_of_pos hwhole, List.dropWhile_append_of_pos hwhole,
      List.takeWhile_cons_of_neg hpoint, List.dropWhile_cons_of_neg hpoint]
    simp [parseExponent, hne, List.takeWhile_eq_self_iff.mpr hdigits,
      List.dropWhile_eq_nil_iff.mpr hdigits, div_eq_mul_inv]

/-- A decimal number is read back. -/
theorem parseF64_text (decimal : Decimal) :
    parseF64 decimal.text = some (.number decimal.value) := by
  obtain ⟨c, rest, htext, hc⟩ := decimal.exists_text_eq_cons
  have hword (word : Text) {head : Char} {tail : Text} (hsplit : word = head :: tail)
      (hhead : head.isDigit = false) : ¬ (c :: rest).map Char.toLower = word := by
    intro hequal
    rw [hsplit] at hequal
    rw [List.map_cons, toLower_of_isDigit hc] at hequal
    rw [← (List.cons.inj hequal).1, hc] at hhead
    exact nomatch hhead
  unfold parseF64
  rw [htext, takeSign_of_isDigit hc]
  dsimp only
  rw [if_neg (not_or.mpr ⟨hword "inf".toList rfl rfl, hword "infinity".toList rfl rfl⟩),
    if_neg (hword "nan".toList rfl rfl), ← htext, parseDecimal_text]
  rfl

/-! ### Texts with a comma -/

/-- A comma is no sign. -/
theorem comma_mem_takeSign {text : Text} (hcomma : ',' ∈ text) : ',' ∈ (takeSign text).2 := by
  unfold takeSign
  split
  · exact (List.mem_cons.mp hcomma).resolve_left (by decide)
  · exact (List.mem_cons.mp hcomma).resolve_left (by decide)
  · exact hcomma

/-- A comma is no digit. -/
theorem not_isNumeral_of_comma {text : Text} (hcomma : ',' ∈ text) : ¬ isNumeral text = true :=
  fun hdigits ↦ absurd ((isNumeral_iff.mp hdigits).2 _ hcomma) (by decide)

/-- A comma stays behind the digits in front of it. -/
theorem comma_mem_dropWhile_isDigit {text : Text} (hcomma : ',' ∈ text) :
    ',' ∈ text.dropWhile Char.isDigit := by
  rw [← List.takeWhile_append_dropWhile (p := Char.isDigit) (l := text)] at hcomma
  refine (List.mem_append.mp hcomma).resolve_left fun hfront ↦ ?_
  exact absurd (List.mem_takeWhile_imp hfront) (by decide)

theorem parseExponent_of_comma {text : Text} (hcomma : ',' ∈ text) : parseExponent text = none := by
  cases text with
  | nil => exact absurd hcomma List.not_mem_nil
  | cons c rest =>
    rw [parseExponent]
    by_cases hletter : c = 'e' ∨ c = 'E'
    · have hrest : ',' ∈ rest := by
        refine (List.mem_cons.mp hcomma).resolve_left ?_
        rintro rfl
        exact absurd hletter (by decide)
      rw [if_pos hletter]
      exact if_neg (not_isNumeral_of_comma (comma_mem_takeSign hrest))
    · exact if_neg hletter

theorem parseDecimal_of_comma {text : Text} (hcomma : ',' ∈ text) : parseDecimal text = none := by
  have hrest := comma_mem_dropWhile_isDigit hcomma
  have hbehind : parseExponent
      (if ".".toList.isPrefixOf (text.dropWhile Char.isDigit) then
        ((text.dropWhile Char.isDigit).drop 1).dropWhile Char.isDigit
      else text.dropWhile Char.isDigit) = none := by
    split_ifs with hpoint
    · obtain ⟨back, hback⟩ := List.isPrefixOf_iff_prefix.mp hpoint
      rw [← hback] at hrest ⊢
      have hmem : ',' ∈ back := (List.mem_append.mp hrest).resolve_left (by decide)
      exact parseExponent_of_comma (comma_mem_dropWhile_isDigit hmem)
    · exact parseExponent_of_comma hrest
  unfold parseDecimal
  dsimp only
  rw [hbehind, Option.map_none, ite_self]

/-- A text with a comma spells no number. -/
theorem parseF64_of_comma {text : Text} (hcomma : ',' ∈ text) : parseF64 text = none := by
  have hword (word : Text) (hnot : ',' ∉ word) :
      ¬ (takeSign text).2.map Char.toLower = word := by
    rintro rfl
    exact hnot (List.mem_map.mpr ⟨',', comma_mem_takeSign hcomma, rfl⟩)
  unfold parseF64
  dsimp only
  rw [if_neg (not_or.mpr ⟨hword "inf".toList (by decide), hword "infinity".toList (by decide)⟩),
    if_neg (hword "nan".toList (by decide)), parseDecimal_of_comma (comma_mem_takeSign hcomma)]
  rfl

/-! ### Playlists and their lines -/

/-- A segment of a playlist: an address without surrounding blanks, and a title on one line. -/
structure Segment where
  duration : Decimal
  title : Text
  newline_not_mem_title : '\n' ∉ title
  uri : Text
  newline_not_mem_uri : '\n' ∉ uri
  trim_uri : trim uri = uri
  isSegmentLine_uri : isSegmentLine uri = true

/-- A media playlist, whose segments have numbers of 64 bits. -/
structure MediaPlaylist where
  targetDuration : ℕ
  targetDuration_pos : 0 < targetDuration
  mediaSequence : ℕ
  mediaSequence_lt : mediaSequence < 2 ^ 64
  segments : List Segment
  numbers_lt : ∀ index < segments.length, mediaSequence + index < 2 ^ 64

/-- What ends a line. -/
inductive LineEnd
  | lf
  | crlf

@[inherit_doc LineEnd]
def LineEnd.text : LineEnd → Text
  | lf => ['\n']
  | crlf => ['\r', '\n']

/-- The lines of a segment. -/
def Segment.renderedLines (segment : Segment) : List Text :=
  [extinfTag ++ (segment.duration.text ++ ',' :: segment.title), segment.uri]

/-- The lines of a playlist. -/
def MediaPlaylist.renderedLines (playlist : MediaPlaylist) : List Text :=
  "#EXTM3U".toList ::
  (targetDurationTag ++ Nat.toDigits 10 playlist.targetDuration) ::
  (mediaSequenceTag ++ Nat.toDigits 10 playlist.mediaSequence) ::
  playlist.segments.flatMap Segment.renderedLines

/-- The text of a playlist. -/
def MediaPlaylist.render (playlist : MediaPlaylist) (lineEnd : LineEnd) : Text :=
  playlist.renderedLines.flatMap fun line ↦ line ++ lineEnd.text

/-- The lines of a text are read back, whichever way they end. -/
theorem trimmedLines_flatMap (lineEnd : LineEnd) {texts : List Text}
    (htexts : ∀ text ∈ texts, '\n' ∉ text) :
    trimmedLines (texts.flatMap fun text ↦ text ++ lineEnd.text) = texts.map trim := by
  induction texts with
  | nil => rfl
  | cons text texts ih =>
    have htext := htexts text List.mem_cons_self
    have hrest := ih fun other hother ↦ htexts other (List.mem_cons_of_mem _ hother)
    rw [List.flatMap_cons, List.append_assoc, List.map_cons, ← hrest, trimmedLines, trimmedLines]
    cases lineEnd with
    | lf => exact map_trim_lines_append htext _
    | crlf =>
      have hreturn : '\n' ∉ text ++ ['\r'] := by simp [htext]
      have hlines := map_trim_lines_append hreturn
        (texts.flatMap fun other ↦ other ++ LineEnd.crlf.text)
      rw [List.append_assoc] at hlines
      have hblank : ∀ c ∈ ['\r'], isWhitespace c = true :=
        List.forall_mem_singleton.mpr (by decide)
      rw [← trim_append_blanks text hblank]
      exact hlines

/-- The characters of a numeral in base ten are digits. -/
theorem isNumeral_toDigits (n : ℕ) : isNumeral (Nat.toDigits 10 n) = true :=
  isNumeral_iff.mpr ⟨Nat.toDigits_ne_nil, fun _ hc ↦
    Nat.isDigit_of_mem_toDigits (by decide) (by decide) hc⟩

/-- No line of a playlist is cut in two. -/
theorem newline_not_mem_renderedLines (playlist : MediaPlaylist) :
    ∀ text ∈ playlist.renderedLines, '\n' ∉ text := by
  have hdigits (n : ℕ) : '\n' ∉ Nat.toDigits 10 n := fun hmem ↦
    absurd ((isNumeral_iff.mp (isNumeral_toDigits n)).2 _ hmem) (by decide)
  have htag {tag rest : Text} (htag : '\n' ∉ tag) (hrest : '\n' ∉ rest) : '\n' ∉ tag ++ rest :=
    fun hmem ↦ (List.mem_append.mp hmem).elim htag hrest
  rintro text (_ | ⟨_, _ | ⟨_, _ | ⟨_, hmem⟩⟩⟩)
  · decide
  · exact htag (by decide) (hdigits _)
  · exact htag (by decide) (hdigits _)
  · obtain ⟨segment, -, hline⟩ := List.mem_flatMap.mp hmem
    rcases hline with _ | ⟨_, _ | ⟨_, hline⟩⟩
    · refine htag (by decide) (htag (fun hmem ↦ ?_) fun hmem ↦ ?_)
      · rcases segment.duration.mem_text hmem with hdigit | hpoint
        · exact absurd hdigit (by decide)
        · exact absurd hpoint (by decide)
      · exact (List.mem_cons.mp hmem).elim (by decide) segment.newline_not_mem_title
    · exact segment.newline_not_mem_uri
    · exact nomatch hline

/-! ### The trimmed lines -/

/-- A line that starts with a number sign is trimmed behind its last character that is no blank. -/
theorem trim_tag_append {tag : Text} (htag : "#".toList.isPrefixOf tag = true) (front back : Text)
    {c : Char} (hc : isWhitespace c = false) :
    trim (tag ++ (front ++ c :: back)) = tag ++ (front ++ c :: trimEnd back) := by
  obtain ⟨rest, rfl⟩ := List.isPrefixOf_iff_prefix.mp htag
  have hhead : ∀ first ∈ ("#".toList ++ rest ++ (front ++ c :: back)).head?,
      isWhitespace first = false := by
    rintro _ ⟨⟩
    decide
  rw [trim_of_head hhead, ← List.append_assoc, trimEnd_append_cons _ _ hc, List.append_assoc]

/-- A numeral behind a tag is not trimmed. -/
theorem trim_tag_numeral {tag digits : Text} (htag : "#".toList.isPrefixOf tag = true)
    (hdigits : isNumeral digits = true) : trim (tag ++ digits) = tag ++ digits := by
  obtain ⟨hne, hall⟩ := isNumeral_iff.mp hdigits
  have hblank := isWhitespace_of_isDigit (hall _ (List.getLast_mem hne))
  rw [← List.dropLast_append_getLast hne]
  exact trim_tag_append htag digits.dropLast [] hblank

/-- The trimmed lines of a segment. -/
theorem map_trim_renderedLines (segment : Segment) :
    segment.renderedLines.map trim =
      [extinfTag ++ (segment.duration.text ++ ',' :: trimEnd segment.title), segment.uri] := by
  have hextinf : trim (extinfTag ++ (segment.duration.text ++ ',' :: segment.title)) =
      extinfTag ++ (segment.duration.text ++ ',' :: trimEnd segment.title) :=
    trim_tag_append (by decide) segment.duration.text segment.title (by decide)
  unfold Segment.renderedLines
  rw [List.map_cons, hextinf, List.map_singleton, segment.trim_uri]

/-- A line with the target duration, whose first digit is lost. -/
theorem parseLine_targetDuration (overflowChecks : Bool) (baseUrl : Text) (st : ParseState)
    {digits : Text} (hdigits : isNumeral digits = true) :
    parseLine overflowChecks baseUrl st (targetDurationTag ++ digits) =
      some (st.readTargetDuration digits.tail) := by
  obtain ⟨hne, hall⟩ := isNumeral_iff.mp hdigits
  obtain ⟨c, rest, rfl⟩ := List.exists_cons_of_ne_nil hne
  have hwidth : byteLen (targetDurationTag ++ [c]) = 23 := by
    have htag : (targetDurationTag.map Char.utf8Size).sum = 22 := by decide
    rw [byteLen, List.map_append, List.sum_append, htag, List.map_singleton, List.sum_singleton,
      utf8Size_of_isDigit (hall c List.mem_cons_self)]
  have hslice := sliceFrom_append (targetDurationTag ++ [c]) rest
  rw [hwidth, List.append_assoc, List.singleton_append] at hslice
  have htag : targetDurationTag.isPrefixOf (targetDurationTag ++ c :: rest) = true :=
    List.isPrefixOf_iff_prefix.mpr (List.prefix_append _ _)
  rw [parseLine, if_pos htag, hslice]
  rfl

/-- A line with the media sequence. -/
theorem parseLine_mediaSequence (overflowChecks : Bool) (baseUrl : Text) (st : ParseState)
    (digits : Text) :
    parseLine overflowChecks baseUrl st (mediaSequenceTag ++ digits) =
      some (st.readMediaSequence digits) := by
  have hslice : sliceFrom (mediaSequenceTag ++ digits) 22 = some digits := sliceFrom_append _ _
  have hother : targetDurationTag.isPrefixOf (mediaSequenceTag ++ digits) = false := rfl
  have htag : mediaSequenceTag.isPrefixOf (mediaSequenceTag ++ digits) = true :=
    List.isPrefixOf_iff_prefix.mpr (List.prefix_append _ _)
  rw [parseLine, hother, if_neg Bool.false_ne_true, if_pos htag, hslice]
  rfl

/-- A line with a duration. -/
theorem parseLine_extinf (overflowChecks : Bool) (baseUrl : Text) (st : ParseState) (rest : Text) :
    parseLine overflowChecks baseUrl st (extinfTag ++ rest) =
      some (st.readDuration (trimEndMatches ",".toList rest)) := by
  have hslice : sliceFrom (extinfTag ++ rest) 8 = some rest := sliceFrom_append _ _
  have htarget : targetDurationTag.isPrefixOf (extinfTag ++ rest) = false := rfl
  have hmedia : mediaSequenceTag.isPrefixOf (extinfTag ++ rest) = false := rfl
  have htag : extinfTag.isPrefixOf (extinfTag ++ rest) = true :=
    List.isPrefixOf_iff_prefix.mpr (List.prefix_append _ _)
  rw [parseLine, htarget, hmedia, if_neg Bool.false_ne_true, if_neg Bool.false_ne_true,
    if_pos htag, hslice]
  rfl

/-- A line with an address. -/
theorem parseLine_uri (overflowChecks : Bool) (baseUrl : Text) (st : ParseState) {uri : Text}
    (huri : isSegmentLine uri = true) :
    parseLine overflowChecks baseUrl st uri =
      st.pushSegment overflowChecks (resolved baseUrl uri) := by
  have hother {tag : Text} (htag : "#".toList.isPrefixOf tag = true) :
      ¬ tag.isPrefixOf uri = true := by
    intro hstart
    rw [isSegmentLine_of_tag htag hstart] at huri
    exact nomatch huri
  rw [parseLine, if_neg (hother (by decide)), if_neg (hother (by decide)),
    if_neg (hother (by decide)), if_pos (isSegmentLine_iff.mp huri), resolveUrl_eq,
    Option.bind_some]

/-! ### What is read -/

/-- A title of which the commas are all that is left without the blanks at its end. -/
def Segment.TitleVanishes (segment : Segment) : Prop := ∀ c ∈ trimEnd segment.title, c = ','

instance (segment : Segment) : Decidable segment.TitleVanishes :=
  List.decidableBAll (fun c : Char ↦ c = ',') (trimEnd segment.title)

/-- A segment as it is written, with its address resolved and its number. -/
def Segment.written (segment : Segment) (baseUrl : Text) (number : ℕ) : M3u8Segment :=
  ⟨resolved baseUrl segment.uri, .number segment.duration.value, number⟩

/-- A duration as it is read: it is lost when there is a title. -/
def Segment.durationRead (segment : Segment) : F64 :=
  .number (if segment.TitleVanishes then segment.duration.value else 0)

/-- A segment as it is read. -/
def Segment.read (segment : Segment) (baseUrl : Text) (number : ℕ) : M3u8Segment :=
  ⟨resolved baseUrl segment.uri, segment.durationRead, number⟩

/-- A playlist as it is written. -/
def MediaPlaylist.written (playlist : MediaPlaylist) (baseUrl : Text) : M3u8Info where
  targetDuration := .number playlist.targetDuration
  mediaSequence := playlist.mediaSequence
  segments := playlist.segments.mapIdx fun index segment ↦
    segment.written baseUrl (playlist.mediaSequence + index)

/-- The target duration as it is read: without its first digit, and two when there is no other. -/
def MediaPlaylist.targetRead (playlist : MediaPlaylist) : ℚ :=
  if (Nat.toDigits 10 playlist.targetDuration).tail = [] then 2
  else digitsValue (Nat.toDigits 10 playlist.targetDuration).tail

/-- A playlist as it is read. -/
def MediaPlaylist.read (playlist : MediaPlaylist) (baseUrl : Text) : M3u8Info where
  targetDuration := .number playlist.targetRead
  mediaSequence := playlist.mediaSequence
  segments := playlist.segments.mapIdx fun index segment ↦
    segment.read baseUrl (playlist.mediaSequence + index)

/-- A text behind a comma is cut off when it is nothing but commas. -/
theorem trimEndMatches_of_vanishing (decimal : Decimal) {title : Text}
    (htitle : ∀ c ∈ title, c = ',') :
    trimEndMatches ",".toList (decimal.text ++ ',' :: title) = decimal.text := by
  obtain ⟨front, c, htext, hc⟩ := decimal.exists_text_eq_append
  have hcommas : ∀ c ∈ (',' :: title).reverse, decide (c = ',') = true := by
    intro c hmem
    exact decide_eq_true ((List.mem_cons.mp (List.mem_reverse.mp hmem)).elim id (htitle c))
  have hne : c ≠ ',' := by
    rintro rfl
    exact nomatch hc
  have hdigit : (c :: front.reverse).dropWhile (fun c ↦ decide (c = ',')) = c :: front.reverse :=
    List.dropWhile_cons_of_neg (by simp [hne])
  change trimEndMatches [','] _ = _
  rw [trimEndMatches_singleton, List.reverse_append, List.dropWhile_append_of_pos hcommas, htext,
    List.reverse_append, List.reverse_singleton, List.singleton_append,
    hdigit, List.reverse_cons, List.reverse_reverse]

/-- Another text leaves the comma where it is. -/
theorem comma_mem_trimEndMatches (front : Text) {title : Text} (htitle : ¬ ∀ c ∈ title, c = ',') :
    ',' ∈ trimEndMatches ",".toList (front ++ ',' :: title) := by
  have hsome : title.reverse.dropWhile (fun c ↦ decide (c = ',')) ≠ [] := by
    intro hnil
    refine htitle fun c hc ↦ ?_
    exact of_decide_eq_true (List.dropWhile_eq_nil_iff.mp hnil c (List.mem_reverse.mpr hc))
  change ',' ∈ trimEndMatches [','] _
  rw [trimEndMatches_singleton, List.mem_reverse, List.reverse_append, List.reverse_cons,
    List.append_assoc, List.dropWhile_append,
    if_neg (fun hempty ↦ hsome (List.isEmpty_iff.mp hempty))]
  exact List.mem_append_right _ List.mem_cons_self

/-- What the line of a segment makes of the current duration. -/
theorem readDuration_segment {st : ParseState} (hst : st.currentDuration = .number 0)
    (segment : Segment) :
    st.readDuration
        (trimEndMatches ",".toList (segment.duration.text ++ ',' :: trimEnd segment.title)) =
      { st with currentDuration := segment.durationRead } := by
  unfold ParseState.readDuration Segment.durationRead
  by_cases htitle : segment.TitleVanishes
  · rw [trimEndMatches_of_vanishing _ htitle, parseF64_text, if_pos htitle]
  · rw [parseF64_of_comma (comma_mem_trimEndMatches _ htitle), if_neg htitle, ← hst]

/-- The two lines of a segment push it. -/
theorem foldlM_segment (overflowChecks : Bool) (baseUrl : Text) {st : ParseState}
    (hst : st.currentDuration = .number 0) (segment : Segment) :
    (segment.renderedLines.map trim).foldlM (parseLine overflowChecks baseUrl) st =
      (increment overflowChecks st.seqCounter).map fun seqCounter ↦
        { st with
          segments := st.segments ++ [segment.read baseUrl st.seqCounter]
          seqCounter := seqCounter } := by
  rw [map_trim_renderedLines, List.foldlM_cons, parseLine_extinf]
  change (parseLine _ _ _ segment.uri).bind _ = _
  rw [readDuration_segment hst, parseLine_uri _ _ _ segment.isSegmentLine_uri]
  unfold ParseState.pushSegment
  cases increment overflowChecks st.seqCounter with
  | none => rfl
  | some seqCounter => simp [Segment.read, hst]

/-- What has been read when the loop stops. -/
def info (st : ParseState) : M3u8Info := ⟨st.targetDuration, st.mediaSequence, st.segments⟩

/-- Where overflows are checked, the number behind the last segment fits as well. -/
def CounterFits (overflowChecks : Bool) (number : ℕ) (segments : List Segment) : Prop :=
  overflowChecks = true → number + segments.length < 2 ^ 64

instance (overflowChecks : Bool) (number : ℕ) (segments : List Segment) :
    Decidable (CounterFits overflowChecks number segments) :=
  inferInstanceAs (Decidable (overflowChecks = true → number + segments.length < 2 ^ 64))

/-- A segment more in front is a number less. -/
theorem counterFits_cons_iff {overflowChecks : Bool} {number : ℕ} {segment : Segment}
    {segments : List Segment} :
    CounterFits overflowChecks number (segment :: segments) ↔
      CounterFits overflowChecks (number + 1) segments := by
  unfold CounterFits
  rw [List.length_cons, Nat.add_right_comm, Nat.add_assoc]

/-- A segment with the last number is read where overflows are not checked. -/
theorem foldlM_segment_last (overflowChecks : Bool) (baseUrl : Text) {st : ParseState}
    (hduration : st.currentDuration = .number 0) (hlast : ¬ st.seqCounter + 1 < 2 ^ 64)
    (segment : Segment) :
    ((segment.renderedLines.map trim).foldlM (parseLine overflowChecks baseUrl) st).map info =
      if CounterFits overflowChecks st.seqCounter [segment] then
        some ⟨st.targetDuration, st.mediaSequence,
          st.segments ++ [segment.read baseUrl st.seqCounter]⟩
      else none := by
  rw [foldlM_segment _ _ hduration]
  cases overflowChecks with
  | false =>
    have hfits : CounterFits false st.seqCounter [segment] := nofun
    have hincrement : increment false st.seqCounter = some 0 := if_neg hlast
    rw [if_pos hfits, hincrement]
    rfl
  | true =>
    have hfits : ¬ CounterFits true st.seqCounter [segment] := fun hfits ↦ hlast (hfits rfl)
    have hincrement : increment true st.seqCounter = none := if_neg hlast
    rw [if_neg hfits, hincrement]
    rfl

/-- The segments of a playlist are read one by one. -/
theorem foldlM_segments (overflowChecks : Bool) (baseUrl : Text) {segments : List Segment}
    {st : ParseState} (hduration : st.currentDuration = .number 0)
    (hcounter : st.seqCounter < 2 ^ 64)
    (hnumbers : ∀ index < segments.length, st.seqCounter + index < 2 ^ 64) :
    (((segments.flatMap Segment.renderedLines).map trim).foldlM
      (parseLine overflowChecks baseUrl) st).map info =
      if CounterFits overflowChecks st.seqCounter segments then
        some ⟨st.targetDuration, st.mediaSequence,
          st.segments ++ segments.mapIdx fun index segment ↦
            segment.read baseUrl (st.seqCounter + index)⟩
      else none := by
  induction segments generalizing st with
  | nil =>
    have hfits : CounterFits overflowChecks st.seqCounter [] := fun _ ↦ hcounter
    rw [if_pos hfits, List.mapIdx_nil, List.append_nil]
    rfl
  | cons segment segments ih =>
    by_cases hnext : st.seqCounter + 1 < 2 ^ 64
    · have hincrement : increment overflowChecks st.seqCounter = some (st.seqCounter + 1) :=
        if_pos hnext
      have hrest := @ih { st with
        segments := st.segments ++ [segment.read baseUrl st.seqCounter]
        seqCounter := st.seqCounter + 1 } hduration hnext fun index hindex ↦ by
          have hlt := hnumbers (index + 1) (Nat.succ_lt_succ hindex)
          rwa [← Nat.add_right_comm]
      simp only [counterFits_cons_iff]
      rw [List.flatMap_cons, List.map_append, List.foldlM_append, foldlM_segment _ _ hduration,
        hincrement]
      refine hrest.trans ?_
      rw [List.append_assoc, List.singleton_append, List.mapIdx_cons]
      simp only [Nat.add_zero, Nat.add_right_comm, Nat.add_assoc]
    · -- No segment may follow the last number, whose successor overflows.
      obtain rfl : segments = [] := by
        by_contra hne
        have hlength := List.length_pos_iff.mpr hne
        exact hnext (hnumbers 1 (Nat.succ_lt_succ hlength))
      rw [List.flatMap_singleton]
      exact foldlM_segment_last overflowChecks baseUrl hduration hnext segment

/-- A number of 64 bits is read back. -/
theorem parseU64_toDigits {n : ℕ} (hn : n < 2 ^ 64) : parseU64 (Nat.toDigits 10 n) = some n := by
  have hdigits := isNumeral_toDigits n
  have hvalue : digitsValue (Nat.toDigits 10 n) = n := Nat.ofDigitChars_ten_toDigits
  have hplus : ¬ "+".toList.isPrefixOf (Nat.toDigits 10 n) = true := by
    intro hstart
    have hmem := (List.isPrefixOf_iff_prefix.mp hstart).mem (List.mem_singleton.mpr rfl)
    exact absurd ((isNumeral_iff.mp hdigits).2 _ hmem) (by decide)
  unfold parseU64
  dsimp only
  rw [if_neg hplus, hvalue, if_pos ⟨hdigits, hn⟩]

/-- The target duration is read without its first digit. -/
theorem readTargetDuration_initial (playlist : MediaPlaylist) :
    ParseState.readTargetDuration .initial (Nat.toDigits 10 playlist.targetDuration).tail =
      { ParseState.initial with targetDuration := .number playlist.targetRead } := by
  unfold ParseState.readTargetDuration MediaPlaylist.targetRead
  by_cases htail : (Nat.toDigits 10 playlist.targetDuration).tail = []
  · rw [if_pos htail, htail]
    rfl
  · have hdigits : isNumeral (Nat.toDigits 10 playlist.targetDuration).tail = true :=
      isNumeral_iff.mpr ⟨htail, isDigit_of_mem_tail (isNumeral_toDigits _)⟩
    have hparse := parseF64_text ⟨_, hdigits, none, nofun⟩
    rw [Decimal.text, Decimal.value, Option.elim_none, List.append_nil] at hparse
    simp only [Option.getD_none, List.append_nil, List.length_nil, pow_zero, div_one] at hparse
    rw [if_neg htail, hparse]

/-- What the parser reads. -/
theorem parseM3u8_render (overflowChecks : Bool) (playlist : MediaPlaylist) (lineEnd : LineEnd)
    (baseUrl : Text) :
    parseM3u8 overflowChecks (playlist.render lineEnd) baseUrl =
      if CounterFits overflowChecks playlist.mediaSequence playlist.segments then
        some (playlist.read baseUrl)
      else none := by
  have htarget := isNumeral_toDigits playlist.targetDuration
  have hheader : trim "#EXTM3U".toList = "#EXTM3U".toList := by decide
  have hskip : parseLine overflowChecks baseUrl .initial "#EXTM3U".toList = some .initial := rfl
  have hlines : trimmedLines (playlist.render lineEnd) =
      "#EXTM3U".toList :: (targetDurationTag ++ Nat.toDigits 10 playlist.targetDuration) ::
      (mediaSequenceTag ++ Nat.toDigits 10 playlist.mediaSequence) ::
      (playlist.segments.flatMap Segment.renderedLines).map trim := by
    rw [MediaPlaylist.render, trimmedLines_flatMap lineEnd (newline_not_mem_renderedLines playlist),
      MediaPlaylist.renderedLines, List.map_cons, List.map_cons, List.map_cons, hheader,
      trim_tag_numeral (by decide) htarget,
      trim_tag_numeral (by decide) (isNumeral_toDigits playlist.mediaSequence)]
  have hread : ParseState.readMediaSequence (ParseState.readTargetDuration .initial
      (Nat.toDigits 10 playlist.targetDuration).tail) (Nat.toDigits 10 playlist.mediaSequence) =
      ⟨.number playlist.targetRead, playlist.mediaSequence, [], .number 0,
        playlist.mediaSequence⟩ := by
    rw [readTargetDuration_initial, ParseState.readMediaSequence,
      parseU64_toDigits playlist.mediaSequence_lt]
    rfl
  unfold parseM3u8 parseLines
  rw [hlines, List.foldlM_cons, hskip, Option.bind_eq_bind, Option.bind_some, List.foldlM_cons,
    parseLine_targetDuration _ _ _ htarget, Option.bind_eq_bind, Option.bind_some,
    List.foldlM_cons, parseLine_mediaSequence, Option.bind_eq_bind, Option.bind_some, hread]
  exact foldlM_segments overflowChecks baseUrl rfl playlist.mediaSequence_lt playlist.numbers_lt

/-- The target duration is read exactly when it is two. -/
theorem targetRead_eq_iff (playlist : MediaPlaylist) :
    playlist.targetRead = playlist.targetDuration ↔ playlist.targetDuration = 2 := by
  unfold MediaPlaylist.targetRead
  by_cases htail : (Nat.toDigits 10 playlist.targetDuration).tail = []
  · rw [if_pos htail, eq_comm]
    exact_mod_cast Iff.rfl
  · rw [if_neg htail, Nat.cast_inj]
    refine iff_of_false (fun hvalue ↦ ?_) fun htwo ↦ ?_
    · -- Without its first digit a number is below the power of ten that it reaches with it.
      have hlt := digitsValue_lt (isDigit_of_mem_tail (isNumeral_toDigits playlist.targetDuration))
      rw [hvalue, ← Nat.length_toDigits_le_iff (by decide) (List.length_pos_iff.mpr htail),
        List.length_tail] at hlt
      have hpos := Nat.length_toDigits_pos (b := 10) (n := playlist.targetDuration)
      omega
    · rw [htwo] at htail
      exact htail rfl

/-- The durations are read exactly when no title hides one. -/
theorem durationRead_eq_iff (segment : Segment) :
    segment.durationRead = .number segment.duration.value ↔
      segment.TitleVanishes ∨ segment.duration.value = 0 := by
  unfold Segment.durationRead
  rw [F64.number.injEq]
  by_cases htitle : segment.TitleVanishes
  · rw [if_pos htitle]
    exact iff_of_true rfl (Or.inl htitle)
  · rw [if_neg htitle, or_iff_right htitle, eq_comm]

/-- A rendered playlist is recovered. -/
def Recovers (overflowChecks : Bool) (playlist : MediaPlaylist) (lineEnd : LineEnd)
    (baseUrl : Text) : Prop :=
  parseM3u8 overflowChecks (playlist.render lineEnd) baseUrl = some (playlist.written baseUrl)

/-- A playlist is recovered exactly when its target duration is two, no title hides a duration and
the number behind the last segment fits where overflows are checked. -/
theorem recovers_iff (overflowChecks : Bool) (playlist : MediaPlaylist) (lineEnd : LineEnd)
    (baseUrl : Text) :
    Recovers overflowChecks playlist lineEnd baseUrl ↔
      playlist.targetDuration = 2 ∧
      (∀ segment ∈ playlist.segments, segment.TitleVanishes ∨ segment.duration.value = 0) ∧
      CounterFits overflowChecks playlist.mediaSequence playlist.segments := by
  have hsegments : (playlist.read baseUrl).segments = (playlist.written baseUrl).segments ↔
      ∀ segment ∈ playlist.segments, segment.TitleVanishes ∨ segment.duration.value = 0 := by
    unfold MediaPlaylist.read MediaPlaylist.written Segment.read Segment.written
    rw [List.mapIdx_eq_mapIdx_iff, List.forall_mem_iff_forall_getElem]
    refine forall₂_congr fun index hindex ↦ ?_
    rw [M3u8Segment.mk.injEq, and_iff_right rfl, and_iff_left rfl, durationRead_eq_iff]
  have hinfo : playlist.read baseUrl = playlist.written baseUrl ↔
      playlist.targetDuration = 2 ∧
      ∀ segment ∈ playlist.segments, segment.TitleVanishes ∨ segment.duration.value = 0 := by
    rw [← targetRead_eq_iff, ← hsegments]
    constructor
    · intro hequal
      exact ⟨F64.number.inj (congrArg M3u8Info.targetDuration hequal),
        congrArg M3u8Info.segments hequal⟩
    · rintro ⟨htarget, hsegments⟩
      exact (M3u8Info.mk.injEq _ _ _ _ _ _).mpr ⟨congrArg F64.number htarget, rfl, hsegments⟩
  unfold Recovers
  rw [parseM3u8_render, ← and_assoc, ← hinfo]
  by_cases hfits : CounterFits overflowChecks playlist.mediaSequence playlist.segments
  · rw [if_pos hfits, Option.some.injEq, and_iff_left hfits]
  · rw [if_neg hfits]
    exact iff_of_false nofun fun h ↦ hfits h.2

/-- A playlist with a target duration of six, and a segment of six seconds with a title. -/
def titledPlaylist : MediaPlaylist where
  targetDuration := 6
  targetDuration_pos := by decide
  mediaSequence := 100
  mediaSequence_lt := by decide
  segments :=
    [{ duration := ⟨['6'], by decide, some ['0'], by decide⟩
       title := "Intro".toList
       newline_not_mem_title := by decide
       uri := "a.ts".toList
       newline_not_mem_uri := by decide
       trim_uri := by decide
       isSegmentLine_uri := by decide }]
  numbers_lt := by decide

/-- Neither the target duration nor the duration of the segment is recovered. -/
theorem recovers_counterexample :
    parseM3u8 true (titledPlaylist.render .lf) "http://h/s.m3u8".toList =
      some ⟨.number 2, 100, [⟨"http://h/a.ts".toList, .number 0, 100⟩]⟩ ∧
    ¬ Recovers true titledPlaylist .lf "http://h/s.m3u8".toList := by
  have hread : parseM3u8 true (titledPlaylist.render .lf) "http://h/s.m3u8".toList =
      some ⟨.number 2, 100, [⟨"http://h/a.ts".toList, .number 0, 100⟩]⟩ := by
    have hfits : CounterFits true titledPlaylist.mediaSequence titledPlaylist.segments := by decide
    have htarget : titledPlaylist.targetRead = 2 := if_pos (by decide)
    have hduration : ∀ segment ∈ titledPlaylist.segments, segment.durationRead = .number 0 := by
      exact List.forall_mem_singleton.mpr (congrArg F64.number (if_neg (by decide)))
    have hurl : resolved "http://h/s.m3u8".toList "a.ts".toList = "http://h/a.ts".toList := by
      decide
    rw [parseM3u8_render, if_pos hfits, MediaPlaylist.read, htarget]
    simp only [titledPlaylist, List.mapIdx_cons, List.mapIdx_nil, Segment.read] at hduration ⊢
    rw [hurl, hduration _ (List.mem_singleton.mpr rfl)]
  refine ⟨hread, fun hrecovers ↦ ?_⟩
  rw [Recovers, hread] at hrecovers
  exact absurd (congrArg M3u8Info.targetDuration (Option.some.inj hrecovers)) (by decide)

end LiveCDN.Agent.PlaylistRendering
