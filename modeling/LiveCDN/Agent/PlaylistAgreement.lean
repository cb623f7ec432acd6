import LiveCDN.Agent.GoRelay
import LiveCDN.Agent.Playlist
import LiveCDN.Library.Utf8Form

/-!
# The two agents and one playlist

The Rust agent reads the segments of a playlist with `parse_m3u8` and `resolve_url`, the Go agent
with `parseM3U8ForTS` and `resolveURL`. Both cut the same lines (`splitLines_utf8`), but only the
Rust agent trims them, the Go agent takes `https:/` for the scheme of an absolute address and
`http://` alone for a relative one, and the Rust agent may panic.

So they list the same addresses exactly when the Rust agent does not panic and each line that the Go
agent takes for a segment has no surrounding blanks and, where the base has a directory, a scheme
that both see (`sameUrls_iff`).

Scope. A playlist is a text: the Rust agent has its characters and the Go agent their UTF-8 form.
-/

set_option autoImplicit false
set_option relaxedAutoImplicit false

namespace LiveCDN.Agent.PlaylistAgreement

open Library.Utf8Text Library.ByteText Library.Utf8Form GoRelay
open Playlist hiding asciiBytes

/-! ### The lines of the Go agent -/

/-- A line that does not end with a carriage return is kept. -/
theorem chomp_of_head {line : GoString} (hline : ∀ byte ∈ line.head?, byte ≠ 13) :
    chomp line = line.reverse := by
  unfold chomp
  split
  · exact absurd rfl (hline 13 rfl)
  · rfl

/-- Bytes without a line feed continue the line. -/
theorem splitLinesFrom_append {bytes : GoString} (hbytes : 10 ∉ bytes)
    (unfinished rest : GoString) :
    splitLinesFrom unfinished (bytes ++ rest) =
      splitLinesFrom (bytes.reverse ++ unfinished) rest := by
  induction bytes generalizing unfinished with
  | nil => rfl
  | cons byte bytes ih =>
    obtain ⟨hbyte, hbytes⟩ := not_or.mp (fun hmem ↦ hbytes (List.mem_cons.mpr hmem))
    have hnext : splitLinesFrom unfinished (byte :: (bytes ++ rest)) =
        splitLinesFrom (byte :: unfinished) (bytes ++ rest) := if_neg (Ne.symm hbyte)
    rw [List.cons_append, hnext, ih hbytes, List.reverse_cons, List.append_assoc]
    rfl

/-- The bytes of an unfinished line, in reverse. -/
theorem reverse_utf8_cons (c : Char) (unfinished : Text) :
    (utf8 (c :: unfinished).reverse).reverse =
      (String.utf8EncodeChar c).reverse ++ (utf8 unfinished.reverse).reverse := by
  rw [List.reverse_cons, utf8_append, utf8_cons, utf8_nil, List.append_nil, List.reverse_append]

/-- Both agents take a carriage return off the end of a line. -/
theorem chomp_utf8 (unfinished : Text) :
    chomp (utf8 unfinished.reverse).reverse =
      utf8 (match unfinished with
        | '\r' :: line => line.reverse
        | line => line.reverse) := by
  split
  · rw [reverse_utf8_cons]
    exact List.reverse_reverse _
  · next hreturn =>
    refine (chomp_of_head fun byte hbyte ↦ ?_).trans (List.reverse_reverse _)
    cases unfinished with
    | nil => exact nomatch hbyte
    | cons c unfinished =>
      rintro rfl
      rw [reverse_utf8_cons, List.head?_append_of_ne_nil _
        (List.reverse_ne_nil_iff.mpr String.utf8EncodeChar_ne_nil)] at hbyte
      have hmem := List.mem_reverse.mp (List.mem_of_mem_head? hbyte)
      have hc : 13 ∈ utf8 [c] := List.mem_append_left _ hmem
      obtain rfl := List.mem_singleton.mp ((mem_utf8_iff (c := '\r') (by decide)).mp hc)
      exact hreturn unfinished rfl

/-- A character that is no line feed has none in its form. -/
theorem newline_not_mem_utf8EncodeChar {c : Char} (hc : c ≠ '\n') :
    10 ∉ String.utf8EncodeChar c := by
  intro hmem
  have hutf8 : 10 ∈ utf8 [c] := List.mem_append_left _ hmem
  exact hc (List.mem_singleton.mp ((mem_utf8_iff (c := '\n') (by decide)).mp hutf8)).symm

/-- Only the empty text has no bytes. -/
theorem utf8_eq_nil_iff {text : Text} : utf8 text = [] ↔ text = [] :=
  utf8_injective.eq_iff' utf8_nil

/-- A line is listed unless it is empty. -/
theorem listed_append (line : Text) (rest : List Text) :
    (if utf8 line = [] then [] else [utf8 line]) ++
        (rest.filter fun line ↦ decide (line ≠ [])).map utf8 =
      ((line :: rest).filter fun line ↦ decide (line ≠ [])).map utf8 := by
  by_cases hline : line = []
  · rw [hline]
    rfl
  · rw [if_neg (mt utf8_eq_nil_iff.mp hline), List.filter_cons_of_pos (by simp [hline])]
    rfl

/-- The Go agent cuts the lines that the Rust agent cuts, and leaves the empty ones out. -/
theorem splitLinesFrom_utf8 (unfinished text : Text) :
    splitLinesFrom (utf8 unfinished.reverse).reverse (utf8 text) =
      ((linesFrom unfinished text).filter fun line ↦ decide (line ≠ [])).map utf8 := by
  induction text generalizing unfinished with
  | nil =>
    rw [utf8_nil, splitLinesFrom, linesFrom, List.reverse_reverse]
    simp only [List.reverse_eq_nil_iff, utf8_eq_nil_iff]
    by_cases hunfinished : unfinished = []
    · rw [if_pos hunfinished, if_pos hunfinished]
      rfl
    · have hreverse : unfinished.reverse ≠ [] := mt List.reverse_eq_nil_iff.mp hunfinished
      rw [if_neg hunfinished, if_neg hunfinished, ← listed_append,
        if_neg (mt utf8_eq_nil_iff.mp hreverse)]
      rfl
  | cons c text ih =>
    by_cases hc : c = '\n'
    · have hnext : linesFrom unfinished (c :: text) =
          (match unfinished with
            | '\r' :: line => line.reverse
            | line => line.reverse) :: linesFrom [] text := if_pos hc
      have hgo : splitLinesFrom (utf8 unfinished.reverse).reverse (utf8 (c :: text)) =
          (if chomp (utf8 unfinished.reverse).reverse = [] then []
            else [chomp (utf8 unfinished.reverse).reverse]) ++ splitLinesFrom [] (utf8 text) := by
        rw [hc]
        rfl
      have hrest : splitLinesFrom [] (utf8 text) =
          ((linesFrom [] text).filter fun line ↦ decide (line ≠ [])).map utf8 := ih []
      rw [hnext, hgo, chomp_utf8, hrest, listed_append]
    · have hnext : linesFrom unfinished (c :: text) = linesFrom (c :: unfinished) text :=
        if_neg hc
      rw [hnext, ← ih (c :: unfinished), utf8_cons,
        splitLinesFrom_append (newline_not_mem_utf8EncodeChar hc), reverse_utf8_cons]

/-- The lines that the Go agent cuts. -/
theorem splitLines_utf8 (text : Text) :
    splitLines (utf8 text) = ((lines text).filter fun line ↦ decide (line ≠ [])).map utf8 :=
  splitLinesFrom_utf8 [] text

/-! ### The addresses of the Go agent -/

/-- An address that the Go agent does not resolve against the base. -/
def isGoAbsolute (ref : Text) : Bool :=
  decide (7 < ref.length) &&
    ("http://".toList.isPrefixOf ref || "https:/".toList.isPrefixOf ref)

/-- What an address comes to in the Go agent. -/
def goResolved (base ref : Text) : Text :=
  if isGoAbsolute ref = true then ref else directory base ++ ref

/-- The first seven bytes are those of an ASCII text of seven characters exactly when the text
starts with it. -/
theorem take_seven_utf8_iff {pattern ref : Text} (hascii : IsAscii pattern)
    (hlength : pattern.length = 7) :
    (utf8 ref).take 7 = asciiBytes pattern ↔ pattern <+: ref := by
  have hbytes : (asciiBytes pattern).length = 7 := by rw [asciiBytes, List.length_map, hlength]
  rw [← prefix_utf8_iff hascii, List.prefix_iff_eq_take, hbytes, eq_comm]

/-- Behind seven ASCII characters there are more bytes exactly when there are more characters. -/
theorem seven_lt_length_utf8_iff {pattern ref : Text} (hascii : IsAscii pattern)
    (hlength : pattern.length = 7) (hstart : pattern <+: ref) :
    7 < (utf8 ref).length ↔ 7 < ref.length := by
  obtain ⟨rest, rfl⟩ := hstart
  have hpattern : (utf8 pattern).length = 7 := by
    rw [utf8_of_isAscii hascii, asciiBytes, List.length_map, hlength]
  rw [utf8_append, List.length_append, List.length_append, hlength, hpattern,
    Nat.lt_add_right_iff_pos, Nat.lt_add_right_iff_pos, List.length_pos_iff, List.length_pos_iff,
    ne_eq, ne_eq, utf8_eq_nil_iff]

/-- Which addresses the Go agent leaves alone. -/
theorem isGoAbsolute_iff {ref : Text} :
    isGoAbsolute ref = true ↔ 7 < (utf8 ref).length ∧
      ((utf8 ref).take 7 = asciiBytes "http://".toList ∨
        (utf8 ref).take 7 = asciiBytes "https:/".toList) := by
  rw [isGoAbsolute, Bool.and_eq_true, Bool.or_eq_true, decide_eq_true_eq,
    take_seven_utf8_iff (by decide) (by decide), take_seven_utf8_iff (by decide) (by decide),
    List.isPrefixOf_iff_prefix, List.isPrefixOf_iff_prefix]
  refine and_congr_left fun hstart ↦ ?_
  rcases hstart with hstart | hstart
  · exact (seven_lt_length_utf8_iff (by decide) (by decide) hstart).symm
  · exact (seven_lt_length_utf8_iff (by decide) (by decide) hstart).symm

/-- A base with a slash, cut at its last one. -/
theorem exists_last_slash {base : Text} (hbase : '/' ∈ base) :
    ∃ front back, base = front ++ '/' :: back ∧ '/' ∉ back := by
  cases hfind : rfind '/' base with
  | none => exact absurd hbase (rfind_eq_none_iff.mp hfind)
  | some index =>
    obtain ⟨front, back, hsplit, -, hback⟩ := exists_last_of_rfind hfind
    exact ⟨front, back, hsplit, hback⟩

/-- What `resolveURL` gives. -/
theorem resolveURL_utf8 (base ref : Text) :
    resolveURL (utf8 base) (utf8 ref) = utf8 (goResolved base ref) := by
  unfold resolveURL goResolved
  by_cases habsolute : isGoAbsolute ref = true
  · rw [if_pos (isGoAbsolute_iff.mp habsolute), if_pos habsolute]
  rw [if_neg (mt isGoAbsolute_iff.mpr habsolute), if_neg habsolute, utf8_append]
  by_cases hslash : '/' ∈ base
  · have hbyte : 47 ∈ utf8 base := (mem_utf8_iff (c := '/') (by decide)).mpr hslash
    obtain ⟨front, back, rfl, hback⟩ := exists_last_slash hslash
    have hback' : 47 ∉ utf8 back := mt (mem_utf8_iff (c := '/') (by decide)).mp hback
    have hreverse : ∀ byte ∈ (utf8 back).reverse, decide (byte ≠ 47) = true := fun byte hmem ↦
      decide_eq_true fun hslash ↦ hback' (hslash ▸ List.mem_reverse.mp hmem)
    have hform : utf8 (front ++ '/' :: back) = utf8 front ++ 47 :: utf8 back := utf8_append _ _
    rw [if_pos hbyte, directory_append front hback, hform, List.reverse_append, List.reverse_cons,
      List.append_assoc, List.dropWhile_append_of_pos hreverse, List.singleton_append,
      List.dropWhile_cons_of_neg (by simp), List.reverse_cons, List.reverse_reverse, utf8_append]
    rfl
  · have hbyte : 47 ∉ utf8 base := mt (mem_utf8_iff (c := '/') (by decide)).mp hslash
    rw [if_neg hbyte, directory_of_not_mem hslash]
    rfl

/-- Which lines the Go agent takes for segments. -/
theorem isSegmentLine_eq (line : Text) :
    isSegmentLine line = (decide (0 < (utf8 line).length) &&
      decide ((utf8 line).head? ≠ some 35)) := by
  have hsign : "#".toList <+: line ↔ (utf8 line).head? = some 35 := by
    rw [← prefix_utf8_iff (by decide)]
    cases utf8 line with
    | nil => exact iff_of_false (by decide) nofun
    | cons byte rest =>
      have hpattern : asciiBytes "#".toList = [35] := by decide
      rw [hpattern, List.cons_prefix_cons, List.head?_cons, Option.some.injEq,
        and_iff_left (List.nil_prefix), eq_comm]
  rw [Bool.eq_iff_iff, isSegmentLine_iff, Bool.and_eq_true, decide_eq_true_eq, decide_eq_true_eq,
    List.length_pos_iff, ne_eq, ne_eq, utf8_eq_nil_iff, List.isPrefixOf_iff_prefix, hsign]

/-- The addresses that the Go agent lists. -/
theorem parseM3U8ForTS_utf8 (content base : Text) :
    parseM3U8ForTS (utf8 content) (utf8 base) =
      ((lines content).filter isSegmentLine).map fun line ↦ utf8 (goResolved base line) := by
  have hnonempty (line : Text) (hline : isSegmentLine line = true) : line ≠ [] :=
    (isSegmentLine_iff.mp hline).1
  unfold parseM3U8ForTS
  rw [splitLines_utf8, List.filter_map, List.filter_filter, List.map_map]
  have hfilter : (lines content).filter (fun line ↦
      ((fun line : GoString ↦ decide (0 < line.length) && decide (line.head? ≠ some 35)) ∘ utf8)
        line && decide (line ≠ [])) = (lines content).filter isSegmentLine := by
    refine List.filter_congr fun line _ ↦ ?_
    rw [Function.comp_apply, ← isSegmentLine_eq]
    by_cases hline : isSegmentLine line = true
    · rw [hline, Bool.true_and, decide_eq_true (hnonempty line hline)]
    · rw [Bool.eq_false_iff.mpr hline, Bool.false_and]
  rw [hfilter]
  exact List.map_congr_left fun line _ ↦ resolveURL_utf8 base line

/-! ### The addresses of the Rust agent -/

/-- The addresses of some segments. -/
def urls (segments : List M3u8Segment) : List Text := segments.map M3u8Segment.url

/-- A line adds its address if it has one. -/
theorem urls_parseLine {overflowChecks : Bool} {baseUrl line : Text} {st st' : ParseState}
    (hline : parseLine overflowChecks baseUrl st line = some st') :
    urls st'.segments = urls st.segments ++
      ([line].filter isSegmentLine).map (resolved baseUrl) := by
  have hother {tag : Text} (htag : "#".toList.isPrefixOf tag = true)
      (hstart : tag.isPrefixOf line = true) (hsegments : st'.segments = st.segments) :
      urls st'.segments = urls st.segments ++
        ([line].filter isSegmentLine).map (resolved baseUrl) := by
    rw [List.filter_cons_of_neg (Bool.eq_false_iff.mp (isSegmentLine_of_tag htag hstart)),
      hsegments]
    exact (List.append_nil _).symm
  unfold parseLine at hline
  split_ifs at hline with htarget hmedia hextinf hsegment
  · obtain ⟨rest, -, rfl⟩ := Option.map_eq_some_iff.mp hline
    exact hother (by decide) htarget (by unfold ParseState.readTargetDuration; split <;> rfl)
  · obtain ⟨rest, -, rfl⟩ := Option.map_eq_some_iff.mp hline
    exact hother (by decide) hmedia (by unfold ParseState.readMediaSequence; split <;> rfl)
  · obtain ⟨rest, -, rfl⟩ := Option.map_eq_some_iff.mp hline
    exact hother (by decide) hextinf (by unfold ParseState.readDuration; split <;> rfl)
  · rw [resolveUrl_eq, Option.bind_some] at hline
    obtain ⟨seqCounter, -, rfl⟩ := Option.map_eq_some_iff.mp hline
    rw [List.filter_cons_of_pos (isSegmentLine_iff.mpr hsegment)]
    exact List.map_append
  · obtain rfl := Option.some.inj hline
    rw [List.filter_cons_of_neg (mt isSegmentLine_iff.mp hsegment)]
    exact (List.append_nil _).symm

/-- The addresses that some lines come to. -/
theorem urls_parseLines {overflowChecks : Bool} {baseUrl : Text} {trimmed : List Text}
    {st : ParseState} (hlines : parseLines overflowChecks baseUrl trimmed = some st) :
    urls st.segments = (trimmed.filter isSegmentLine).map (resolved baseUrl) := by
  induction trimmed using List.reverseRecOn generalizing st with
  | nil =>
    obtain rfl := Option.some.inj hlines
    rfl
  | append_singleton done line ih =>
    rw [parseLines_concat] at hlines
    obtain ⟨previous, hprevious, hline⟩ := Option.bind_eq_some_iff.mp hlines
    rw [urls_parseLine hline, ih hprevious, List.filter_append, List.map_append]

/-- No line of a playlist makes the Rust agent panic. -/
def PanicFree (overflowChecks : Bool) (content : Text) : Prop :=
  (∀ line ∈ trimmedLines content, TargetDurationSafe line) ∧
    (overflowChecks = true → CounterSafe (trimmedLines content))

/-- A playlist is parsed exactly when no line makes the Rust agent panic. -/
theorem parseLines_isSome_iff {overflowChecks : Bool} {content baseUrl : Text} :
    (parseLines overflowChecks baseUrl (trimmedLines content)).isSome ↔
      PanicFree overflowChecks content := by
  unfold PanicFree
  cases overflowChecks with
  | false =>
    rw [parseLines_wrapping_isSome_iff]
    exact (and_iff_left nofun).symm
  | true =>
    rw [parseLines_checked_isSome_iff]
    exact and_congr_right fun _ ↦ ⟨fun hsafe _ ↦ hsafe, fun hsafe ↦ hsafe rfl⟩

/-- The addresses that the Rust agent lists, none when it panics. -/
def rustUrls (overflowChecks : Bool) (content baseUrl : Text) : Option (List GoString) :=
  (parseM3u8 overflowChecks content baseUrl).map fun info ↦ (urls info.segments).map utf8

/-- What the Rust agent lists. -/
theorem rustUrls_eq_some_iff {overflowChecks : Bool} {content baseUrl : Text}
    {listed : List GoString} :
    rustUrls overflowChecks content baseUrl = some listed ↔
      PanicFree overflowChecks content ∧
        (((lines content).map trim).filter isSegmentLine).map
          (fun line ↦ utf8 (resolved baseUrl line)) = listed := by
  unfold rustUrls parseM3u8
  rw [← parseLines_isSome_iff]
  cases hlines : parseLines overflowChecks baseUrl (trimmedLines content) with
  | none => exact iff_of_false nofun fun h ↦ nomatch h.1
  | some st =>
    rw [Option.isSome_some, and_iff_right rfl, Option.map_some, Option.map_some, Option.some.injEq,
      urls_parseLines hlines, List.map_map]
    rfl

/-! ### Lines on which they agree -/

/-- Two selections of a list, of which one is among the other, are the same exactly when they select
the same elements and make the same of each. -/
theorem map_filter_eq_iff {α β : Type*} {few many : α → Bool}
    (hmany : ∀ x, few x = true → many x = true) (f g : α → β) (xs : List α) :
    (xs.filter few).map f = (xs.filter many).map g ↔
      ∀ x ∈ xs, many x = true → few x = true ∧ f x = g x := by
  induction xs with
  | nil => exact iff_of_true rfl nofun
  | cons x xs ih =>
    rw [List.forall_mem_cons, ← ih]
    by_cases hmanyx : many x = true
    · by_cases hfew : few x = true
      · rw [List.filter_cons_of_pos hfew, List.filter_cons_of_pos hmanyx, List.map_cons,
          List.map_cons, List.cons.injEq, and_congr_left_iff]
        exact fun _ ↦ ⟨fun h _ ↦ ⟨hfew, h⟩, fun h ↦ (h hmanyx).2⟩
      · rw [List.filter_cons_of_neg hfew, List.filter_cons_of_pos hmanyx]
        refine iff_of_false (fun hequal ↦ ?_) fun h ↦ hfew (h.1 hmanyx).1
        have hle := (List.monotone_filter_right xs hmany).length_le
        have hlength := congrArg List.length hequal
        rw [List.length_map, List.length_map, List.length_cons] at hlength
        omega
    · have hfew : ¬ few x = true := mt (hmany x) hmanyx
      rw [List.filter_cons_of_neg hfew, List.filter_cons_of_neg hmanyx]
      exact (and_iff_right fun h ↦ absurd h hmanyx).symm

/-- What is left of a line ends with a character that is no blank. -/
theorem exists_trim_eq_append {line : Text} (hne : trim line ≠ []) :
    ∃ front c, trim line = front ++ [c] ∧ isWhitespace c = false := by
  unfold trim at hne ⊢
  cases hrest : (line.dropWhile isWhitespace).reverse.dropWhile isWhitespace with
  | nil =>
    rw [hrest] at hne
    exact absurd rfl hne
  | cons c rest =>
    have hc := List.head_dropWhile_not isWhitespace
      (l := (line.dropWhile isWhitespace).reverse) (by rw [hrest]; exact List.cons_ne_nil c rest)
    simp only [hrest, List.head_cons] at hc
    exact ⟨rest.reverse, c, List.reverse_cons, hc⟩

/-- A line without its blanks is no longer. -/
theorem length_trim_le (line : Text) : (trim line).length ≤ line.length := by
  unfold trim
  rw [List.length_reverse]
  exact (List.dropWhile_sublist _).length_le.trans
    (List.length_reverse.le.trans (List.dropWhile_sublist _).length_le)

/-- Only a segment line is one without its blanks. -/
theorem isSegmentLine_of_trim {line : Text} (htrim : isSegmentLine (trim line) = true) :
    isSegmentLine line = true := by
  obtain ⟨hne, hsign⟩ := isSegmentLine_iff.mp htrim
  refine isSegmentLine_iff.mpr ⟨?_, fun hstart ↦ hsign ?_⟩
  · rintro rfl
    exact hne rfl
  · obtain ⟨rest, rfl⟩ := List.isPrefixOf_iff_prefix.mp hstart
    have htrimmed : trim ("#".toList ++ rest) = trimEnd ([] ++ '#' :: rest) :=
      trim_of_head (by rintro _ ⟨⟩; decide)
    rw [htrimmed, trimEnd_append_cons [] rest (by decide)]
    rfl

/-- The schemes by which the agents tell an absolute address agree on a line. -/
def SchemeAgrees (line : Text) : Prop :=
  line ≠ "http://".toList ∧
    ("https:/".toList <+: line → 7 < line.length → "https://".toList <+: line)

/-- Where the agents agree on a segment line: it has no surrounding blanks, and a scheme that both
see where the base has a directory. -/
def LineAgrees (base line : Text) : Prop :=
  trim line = line ∧ ('/' ∈ base → SchemeAgrees line)

/-- When both agents take an address for absolute or neither does. -/
theorem schemeAgrees_iff {line : Text} :
    SchemeAgrees line ↔ isAbsolute line = isGoAbsolute line := by
  have hlong (hstart : "https://".toList <+: line) : 7 < line.length := by
    have hlength : "https://".toList.length = 8 := by decide
    have hle := hstart.length_le
    omega
  have hshort (hstart : "http://".toList <+: line) :
      7 < line.length ∨ line = "http://".toList := by
    have hlength : "http://".toList.length = 7 := by decide
    rcases hstart.length_le.lt_or_eq with hlt | heq
    · exact Or.inl (hlength ▸ hlt)
    · exact Or.inr (hstart.eq_of_length heq).symm
  have hexact (hline : line = "http://".toList) :
      "http://".toList <+: line ∧ ¬ 7 < line.length := by
    rw [hline]
    decide
  have hpart (hstart : "https://".toList <+: line) : "https:/".toList <+: line :=
    List.IsPrefix.trans (by decide) hstart
  have hapart (hstart : "http://".toList <+: line) : ¬ "https:/".toList <+: line := by
    intro hother
    have hequal := (List.prefix_of_prefix_length_le hstart hother (by decide)).eq_of_length
      (by decide)
    exact absurd hequal (by decide)
  unfold SchemeAgrees isAbsolute isGoAbsolute
  rw [Bool.eq_iff_iff, Bool.or_eq_true, Bool.and_eq_true, Bool.or_eq_true, decide_eq_true_eq]
  simp only [List.isPrefixOf_iff_prefix]
  constructor
  · rintro ⟨hbare, hscheme⟩
    constructor
    · rintro (hhttp | hhttps)
      · exact ⟨(hshort hhttp).resolve_right hbare, Or.inl hhttp⟩
      · exact ⟨hlong hhttps, Or.inr (hpart hhttps)⟩
    · rintro ⟨hlt, hhttp | hcut⟩
      · exact Or.inl hhttp
      · exact Or.inr (hscheme hcut hlt)
  · intro hagree
    constructor
    · intro hbare
      exact (hexact hbare).2 (hagree.mp (Or.inl (hexact hbare).1)).1
    · intro hcut hlt
      exact (hagree.mpr ⟨hlt, Or.inr hcut⟩).resolve_left fun hhttp ↦ hapart hhttp hcut

/-- A base has a directory exactly when it has a slash. -/
theorem directory_eq_nil_iff {base : Text} : directory base = [] ↔ '/' ∉ base := by
  refine ⟨fun hnil hslash ↦ ?_, directory_of_not_mem⟩
  obtain ⟨front, back, rfl, hback⟩ := exists_last_slash hslash
  rw [directory_append front hback] at hnil
  exact absurd hnil (by simp)

/-- An absolute address starts with no blank. -/
theorem head_of_isGoAbsolute {line : Text} (habsolute : isGoAbsolute line = true) :
    ∀ c ∈ line.head?, isWhitespace c = false := by
  have hstart {tag : Text} (htag : "h".toList <+: tag) (hline : tag.isPrefixOf line = true) :
      ∀ c ∈ line.head?, isWhitespace c = false := by
    obtain ⟨rest, rfl⟩ := htag.trans (List.isPrefixOf_iff_prefix.mp hline)
    rintro _ ⟨⟩
    decide
  rcases Bool.or_eq_true_iff.mp (Bool.and_eq_true_iff.mp habsolute).2 with hhttp | hcut
  · exact hstart (by decide) hhttp
  · exact hstart (by decide) hcut

/-- Addresses that come to the same have no blanks around them. -/
theorem trim_eq_of_resolved {base line : Text} (hne : trim line ≠ [])
    (hequal : resolved base (trim line) = goResolved base line) : trim line = line := by
  obtain ⟨front, hresolved, hfront⟩ : ∃ front, resolved base (trim line) = front ++ trim line ∧
      (front = [] ∨ front = directory base) := by
    unfold resolved
    split_ifs
    · exact ⟨[], rfl, Or.inl rfl⟩
    · exact ⟨directory base, rfl, Or.inr rfl⟩
  rw [hresolved] at hequal
  unfold goResolved at hequal
  by_cases habsolute : isGoAbsolute line = true
  · -- The line ends as it does without its blanks, and it starts with a letter.
    rw [if_pos habsolute] at hequal
    obtain ⟨rest, c, htrim, hc⟩ := exists_trim_eq_append hne
    have htrimmed : trim line = trimEnd line := trim_of_head (head_of_isGoAbsolute habsolute)
    rw [htrimmed, ← hequal, htrim, ← List.append_assoc, trimEnd_append_cons _ [] hc]
    rfl
  · rw [if_neg habsolute] at hequal
    rcases hfront with rfl | rfl
    · have hlength := length_trim_le line
      have hboth := congrArg List.length hequal
      rw [List.nil_append, List.length_append] at hboth
      have hnil : directory base = [] := List.length_eq_zero_iff.mp (by omega)
      rwa [hnil] at hequal
    · exact List.append_cancel_left hequal

/-- Without blanks around it, a line comes to the same exactly when the schemes agree or the base
has no directory. -/
theorem resolved_eq_goResolved_iff {base line : Text} :
    resolved base line = goResolved base line ↔ ('/' ∈ base → SchemeAgrees line) := by
  rw [schemeAgrees_iff]
  unfold resolved goResolved
  by_cases hslash : '/' ∈ base
  · have hdirectory := mt directory_eq_nil_iff.mp (not_not.mpr hslash)
    rw [forall_prop_of_true hslash]
    cases isAbsolute line <;> cases isGoAbsolute line <;> simp [hdirectory]
  · rw [directory_of_not_mem hslash, List.nil_append, ite_self, ite_self]
    exact iff_of_true rfl fun h ↦ absurd h hslash

/-- The agents make the same of a segment line exactly when they agree on it. -/
theorem lineAgrees_iff {base line : Text} (hline : isSegmentLine line = true) :
    (isSegmentLine (trim line) = true ∧
      utf8 (resolved base (trim line)) = utf8 (goResolved base line)) ↔ LineAgrees base line := by
  unfold LineAgrees
  rw [utf8_injective.eq_iff]
  constructor
  · rintro ⟨htrim, hequal⟩
    have hkept := trim_eq_of_resolved (isSegmentLine_iff.mp htrim).1 hequal
    rw [hkept] at hequal
    exact ⟨hkept, resolved_eq_goResolved_iff.mp hequal⟩
  · rintro ⟨hkept, hscheme⟩
    rw [hkept]
    exact ⟨hline, resolved_eq_goResolved_iff.mpr hscheme⟩

/-- The two agents list the same addresses. -/
def SameUrls (overflowChecks : Bool) (content base : Text) : Prop :=
  rustUrls overflowChecks content base = some (parseM3U8ForTS (utf8 content) (utf8 base))

/-- The two agents list the same addresses exactly when no line makes the Rust agent panic and they
agree on each segment line of the Go agent. -/
theorem sameUrls_iff (overflowChecks : Bool) (content base : Text) :
    SameUrls overflowChecks content base ↔
      PanicFree overflowChecks content ∧
      ∀ line ∈ lines content, isSegmentLine line = true → LineAgrees base line := by
  unfold SameUrls
  rw [rustUrls_eq_some_iff, parseM3U8ForTS_utf8, List.filter_map, List.map_map]
  have hmany (line : Text) (htrim : (isSegmentLine ∘ trim) line = true) :
      isSegmentLine line = true := isSegmentLine_of_trim htrim
  rw [map_filter_eq_iff hmany]
  exact and_congr_right fun _ ↦ forall₃_congr fun line _ hline ↦ lineAgrees_iff hline

/-- A playlist with a line of one blank. -/
def blankLinePlaylist : Text := "#EXTM3U\n \na.ts\n".toList

/-- The Go agent takes the line for a segment, and the Rust agent does not. -/
theorem sameUrls_counterexample :
    rustUrls true blankLinePlaylist "http://o/s.m3u8".toList =
      some [utf8 "http://o/a.ts".toList] ∧
    parseM3U8ForTS (utf8 blankLinePlaylist) (utf8 "http://o/s.m3u8".toList) =
      [utf8 "http://o/ ".toList, utf8 "http://o/a.ts".toList] ∧
    ¬ SameUrls true blankLinePlaylist "http://o/s.m3u8".toList := by
  have hrust : rustUrls true blankLinePlaylist "http://o/s.m3u8".toList =
      some [utf8 "http://o/a.ts".toList] := by decide +kernel
  have hgo : parseM3U8ForTS (utf8 blankLinePlaylist) (utf8 "http://o/s.m3u8".toList) =
      [utf8 "http://o/ ".toList, utf8 "http://o/a.ts".toList] := by decide +kernel
  refine ⟨hrust, hgo, fun hsame ↦ ?_⟩
  rw [SameUrls, hrust, hgo] at hsame
  exact absurd (congrArg List.length (Option.some.inj hsame)) (by decide)

end LiveCDN.Agent.PlaylistAgreement
