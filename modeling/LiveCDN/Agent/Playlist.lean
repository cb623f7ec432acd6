import LiveCDN.Library.Utf8Text

/-!
# The playlist parser of the agent

`relay/mod.rs`: `parseM3u8` goes through the lines of a playlist, cuts off the three tags it knows
by byte offsets, numbers the segments and resolves their addresses (`resolveUrl`). `pollPlaylist` is
what the polling loop of `StreamRelay::start` does with the bytes it has fetched.

A cut inside a character or behind the end of the line panics, and so does a sequence number that
leaves 64 bits, where the build checks for overflow. `pollPlaylist_safe_iff` says for which bytes
none of this happens.

Scope. Floating-point numbers are read as rationals, with the infinities and NaN beside them.
-/

set_option autoImplicit false
set_option relaxedAutoImplicit false

namespace LiveCDN.Agent.Playlist

open Library.Utf8Text

/-! ### Numbers in a text -/

/-- A floating-point number. -/
inductive F64
  | number (value : ℚ)
  | infinity (negative : Bool)
  | nan
  deriving DecidableEq, Repr

/-- The number spelled by decimal digits. -/
def digitsValue (digits : Text) : ℕ :=
  digits.foldl (fun value digit ↦ 10 * value + (digit.toNat - '0'.toNat)) 0

/-- Some digits and nothing else. -/
def isNumeral (text : Text) : Bool := !text.isEmpty && text.all Char.isDigit

/-- `parse::<u64>`. -/
def parseU64 (text : Text) : Option ℕ :=
  let digits := if "+".toList.isPrefixOf text then text.drop 1 else text
  if isNumeral digits = true ∧ digitsValue digits < 2 ^ 64 then some (digitsValue digits) else none

/-- An optional sign: whether it is a minus, and the rest. -/
def takeSign : Text → Bool × Text
  | '-' :: text => (true, text)
  | '+' :: text => (false, text)
  | text => (false, text)

/-- The exponent behind the digits of a number, none when there is other text. -/
def parseExponent : Text → Option ℤ
  | [] => some 0
  | c :: text =>
    if c = 'e' ∨ c = 'E' then
      let signed := takeSign text
      if isNumeral signed.2 = true then
        some (if signed.1 = true then -(digitsValue signed.2 : ℤ) else digitsValue signed.2)
      else none
    else none

/-- A number without a sign. -/
def parseDecimal (text : Text) : Option ℚ :=
  let whole := text.takeWhile Char.isDigit
  let rest := text.dropWhile Char.isDigit
  let fraction := if ".".toList.isPrefixOf rest then (rest.drop 1).takeWhile Char.isDigit else []
  let rest := if ".".toList.isPrefixOf rest then (rest.drop 1).dropWhile Char.isDigit else rest
  if whole = [] ∧ fraction = [] then none
  else (parseExponent rest).map fun exponent ↦
    (digitsValue (whole ++ fraction) : ℚ) * 10 ^ (exponent - (fraction.length : ℤ))

/-- `parse::<f64>`. -/
def parseF64 (text : Text) : Option F64 :=
  let signed := takeSign text
  let word := signed.2.map Char.toLower
  if word = "inf".toList ∨ word = "infinity".toList then some (.infinity signed.1)
  else if word = "nan".toList then some .nan
  else (parseDecimal signed.2).map fun value ↦ .number (if signed.1 = true then -value else value)

/-! ### The parser -/

/-- `M3u8Segment`. -/
structure M3u8Segment where
  url : Text
  duration : F64
  seq : ℕ
  deriving DecidableEq, Repr

/-- `M3u8Info`. -/
structure M3u8Info where
  targetDuration : F64
  mediaSequence : ℕ
  segments : List M3u8Segment
  deriving DecidableEq, Repr

/-- The variables of the loop of `parse_m3u8`. -/
structure ParseState where
  targetDuration : F64
  mediaSequence : ℕ
  segments : List M3u8Segment
  currentDuration : F64
  seqCounter : ℕ

/-- What the variables start from. -/
def ParseState.initial : ParseState := ⟨.number 2, 0, [], .number 0, 0⟩

/-- The three tags of a playlist that the parser knows. -/
def targetDurationTag : Text := "#EXT-X-TARGETDURATION:".toList

@[inherit_doc targetDurationTag]
def mediaSequenceTag : Text := "#EXT-X-MEDIA-SEQUENCE:".toList

@[inherit_doc targetDurationTag]
def extinfTag : Text := "#EXTINF:".toList

/-- `resolve_url`, none when a slice panics. -/
def resolveUrl (base relative : Text) : Option Text :=
  if "http://".toList.isPrefixOf relative || "https://".toList.isPrefixOf relative then
    some relative
  else
    match rfind '/' base with
    | some index => (sliceTo base index).map fun front ↦ front ++ '/' :: relative
    | none => some relative

/-- An unsigned 64-bit counter plus one, none when the overflow panics. -/
def increment (overflowChecks : Bool) (counter : ℕ) : Option ℕ :=
  if counter + 1 < 2 ^ 64 then some (counter + 1)
  else if overflowChecks = true then none
  else some 0

/-- The target duration takes the number that a text spells, if it spells one. -/
def ParseState.readTargetDuration (st : ParseState) (text : Text) : ParseState :=
  match parseF64 text with
  | some duration => { st with targetDuration := duration }
  | none => st

/-- The media sequence and the counter take the number that a text spells, if it spells one. -/
def ParseState.readMediaSequence (st : ParseState) (text : Text) : ParseState :=
  match parseU64 text with
  | some sequence => { st with mediaSequence := sequence, seqCounter := sequence }
  | none => st

/-- The duration of the next segment takes the number that a text spells, if it spells one. -/
def ParseState.readDuration (st : ParseState) (text : Text) : ParseState :=
  match parseF64 text with
  | some duration => { st with currentDuration := duration }
  | none => st

@[simp] theorem ParseState.seqCounter_readTargetDuration (st : ParseState) (text : Text) :
    (st.readTargetDuration text).seqCounter = st.seqCounter := by
  unfold readTargetDuration
  cases parseF64 text <;> rfl

@[simp] theorem ParseState.seqCounter_readMediaSequence (st : ParseState) (text : Text) :
    (st.readMediaSequence text).seqCounter = (parseU64 text).getD st.seqCounter := by
  unfold readMediaSequence
  cases parseU64 text <;> rfl

@[simp] theorem ParseState.seqCounter_readDuration (st : ParseState) (text : Text) :
    (st.readDuration text).seqCounter = st.seqCounter := by
  unfold readDuration
  cases parseF64 text <;> rfl

/-- A segment is pushed and the counter moves on. -/
def ParseState.pushSegment (st : ParseState) (overflowChecks : Bool) (url : Text) :
    Option ParseState :=
  (increment overflowChecks st.seqCounter).map fun seqCounter ↦
    { st with
      segments := st.segments ++ [⟨url, st.currentDuration, st.seqCounter⟩]
      seqCounter := seqCounter
      currentDuration := .number 0 }

/-- One turn of the loop of `parse_m3u8`, on a trimmed line; none when it panics. -/
def parseLine (overflowChecks : Bool) (baseUrl : Text) (st : ParseState) (line : Text) :
    Option ParseState :=
  if targetDurationTag.isPrefixOf line then
    (sliceFrom line 23).map st.readTargetDuration
  else if mediaSequenceTag.isPrefixOf line then
    (sliceFrom line 22).map st.readMediaSequence
  else if extinfTag.isPrefixOf line then
    (sliceFrom line 8).map fun rest ↦ st.readDuration (trimEndMatches ",".toList rest)
  else if line ≠ [] ∧ ¬ "#".toList.isPrefixOf line then
    (resolveUrl baseUrl line).bind (st.pushSegment overflowChecks)
  else some st

/-- The loop of `parse_m3u8` over trimmed lines. -/
def parseLines (overflowChecks : Bool) (baseUrl : Text) (trimmed : List Text) :
    Option ParseState :=
  trimmed.foldlM (parseLine overflowChecks baseUrl) .initial

/-- The lines that the parser looks at. -/
def trimmedLines (content : Text) : List Text := (lines content).map trim

/-- `parse_m3u8`, none when it panics. -/
def parseM3u8 (overflowChecks : Bool) (content baseUrl : Text) : Option M3u8Info :=
  (parseLines overflowChecks baseUrl (trimmedLines content)).map fun st ↦
    ⟨st.targetDuration, st.mediaSequence, st.segments⟩

/-- What the polling loop does with the bytes of a playlist. -/
def pollPlaylist (overflowChecks : Bool) (m3u8Data : List UInt8) (originUrl : Text) :
    Option M3u8Info :=
  parseM3u8 overflowChecks (fromUtf8Lossy m3u8Data) originUrl

/-! ### What a line may do -/

/-- Behind the tag of a target duration stands a character of one byte. -/
def TargetDurationSafe (line : Text) : Prop :=
  ∀ rest, line = targetDurationTag ++ rest → ∃ c rest', rest = c :: rest' ∧ c.utf8Size = 1

/-- The number of a media sequence line. -/
def announced (line : Text) : Option ℕ :=
  if mediaSequenceTag.isPrefixOf line then parseU64 (line.drop mediaSequenceTag.length) else none

/-- A line with the address of a segment. -/
def isSegmentLine (line : Text) : Bool := !line.isEmpty && !"#".toList.isPrefixOf line

/-- The last number announced by some lines, zero before the first. -/
def lastAnnounced (trimmed : List Text) : ℕ := ((trimmed.filterMap announced).getLast?).getD 0

/-- What the segment lines behind a last announced number come to. -/
def segmentNumbers (done : List Text) : Set ℕ :=
  {number | ∃ front run, done = front ++ run ∧ (∀ line ∈ run, announced line = none) ∧
    number = lastAnnounced front + run.countP isSegmentLine}

/-- Each announced number plus the segment lines behind it, up to the next, stays within 64 bits. -/
def CounterSafe (trimmed : List Text) : Prop :=
  ∀ done, done <+: trimmed → ∀ number ∈ segmentNumbers done, number < 2 ^ 64

/-! ### One line -/

/-- An address that is not resolved against the base. -/
def isAbsolute (relative : Text) : Bool :=
  "http://".toList.isPrefixOf relative || "https://".toList.isPrefixOf relative

/-- An address up to its last slash, empty when there is none. -/
def directory (base : Text) : Text := (base.reverse.dropWhile fun c ↦ decide (c ≠ '/')).reverse

/-- What a resolved address is: an absolute one itself, another one behind the directory of the
base. -/
def resolved (base relative : Text) : Text :=
  if isAbsolute relative = true then relative else directory base ++ relative

/-- The directory of a base with a slash. -/
theorem directory_append (front : Text) {back : Text} (hback : '/' ∉ back) :
    directory (front ++ '/' :: back) = front ++ ['/'] := by
  have hreverse : ∀ c ∈ back.reverse, decide (c ≠ '/') = true := fun c hc ↦
    decide_eq_true fun hslash ↦ hback (hslash ▸ List.mem_reverse.mp hc)
  unfold directory
  rw [List.reverse_append, List.reverse_cons, List.append_assoc,
    List.dropWhile_append_of_pos hreverse, List.singleton_append,
    List.dropWhile_cons_of_neg (by simp), List.reverse_cons, List.reverse_reverse]

/-- A base without a slash has no directory. -/
theorem directory_of_not_mem {base : Text} (hbase : '/' ∉ base) : directory base = [] := by
  have hreverse : ∀ c ∈ base.reverse, decide (c ≠ '/') = true := fun c hc ↦
    decide_eq_true fun hslash ↦ hbase (hslash ▸ List.mem_reverse.mp hc)
  unfold directory
  rw [List.dropWhile_eq_nil_iff.mpr hreverse, List.reverse_nil]

/-- What `resolve_url` gives: a slash is found at a character boundary, so it does not panic. -/
theorem resolveUrl_eq (base relative : Text) :
    resolveUrl base relative = some (resolved base relative) := by
  unfold resolveUrl resolved
  by_cases habsolute : isAbsolute relative = true
  · rw [if_pos habsolute]
    exact if_pos habsolute
  · rw [if_neg habsolute]
    refine (if_neg habsolute).trans ?_
    cases hfind : rfind '/' base with
    | none => rw [directory_of_not_mem (rfind_eq_none_iff.mp hfind), List.nil_append]
    | some index =>
      obtain ⟨front, back, rfl, rfl, hback⟩ := exists_last_of_rfind hfind
      dsimp only
      rw [sliceTo_append, Option.map_some, directory_append front hback, List.append_assoc,
        List.singleton_append]

/-- An address is always resolved. -/
theorem resolveUrl_isSome (base relative : Text) : (resolveUrl base relative).isSome := by
  rw [resolveUrl_eq]
  rfl

/-- A tag is cut off where it ends. -/
theorem sliceFrom_tag {tag line : Text} (hstart : tag.isPrefixOf line = true) :
    sliceFrom line (byteLen tag) = some (line.drop tag.length) := by
  obtain ⟨rest, rfl⟩ := List.isPrefixOf_iff_prefix.mp hstart
  rw [sliceFrom_append, List.drop_left]

/-- The cut of a target duration exists exactly when a character of one byte stands behind the
tag. -/
theorem sliceFrom_targetDuration_isSome_iff {line : Text}
    (hstart : targetDurationTag.isPrefixOf line = true) :
    (sliceFrom line 23).isSome ↔ TargetDurationSafe line := by
  obtain ⟨rest, rfl⟩ := List.isPrefixOf_iff_prefix.mp hstart
  have hwidth : 23 = byteLen targetDurationTag + 1 := by decide
  rw [sliceFrom_isSome, hwidth, isCharBoundary_append_add, isCharBoundary_one_iff]
  constructor
  · intro hsafe rest' hrest
    rwa [← List.append_cancel_left hrest]
  · intro hsafe
    exact hsafe rest rfl

/-- A line with another tag is safe for the target duration. -/
theorem targetDurationSafe_of_noTag {line : Text}
    (hstart : ¬ targetDurationTag.isPrefixOf line = true) : TargetDurationSafe line := by
  rintro rest rfl
  exact absurd (List.isPrefixOf_iff_prefix.mpr (List.prefix_append _ _)) hstart

/-- A line that starts with a known tag is no segment line. -/
theorem isSegmentLine_of_tag {tag line : Text} (htag : "#".toList.isPrefixOf tag = true)
    (hstart : tag.isPrefixOf line = true) : isSegmentLine line = false := by
  have htag' := List.isPrefixOf_iff_prefix.mp htag
  have hline := List.isPrefixOf_iff_prefix.mpr (htag'.trans (List.isPrefixOf_iff_prefix.mp hstart))
  unfold isSegmentLine
  rw [hline, Bool.not_true, Bool.and_false]

/-- A line that starts with another tag announces nothing. -/
theorem announced_of_noTag {line : Text}
    (hstart : ¬ mediaSequenceTag.isPrefixOf line = true) : announced line = none := if_neg hstart

/-- No line carries two of the tags. -/
theorem not_mediaSequence_of_tag {tag line : Text} (hlength : tag.length ≤ mediaSequenceTag.length)
    (hne : ¬ tag.isPrefixOf mediaSequenceTag = true) (hstart : tag.isPrefixOf line = true) :
    ¬ mediaSequenceTag.isPrefixOf line = true := by
  intro hmedia
  refine hne (List.isPrefixOf_iff_prefix.mpr ?_)
  exact List.prefix_of_prefix_length_le (List.isPrefixOf_iff_prefix.mp hstart)
    (List.isPrefixOf_iff_prefix.mp hmedia) hlength

/-- What a line may do: it panics exactly when it has an unsafe target duration or is a segment line
whose successor cannot be numbered, and otherwise the counter takes the announced number, counts a
segment line or stays. -/
def LineSpec (overflowChecks : Bool) (st : ParseState) (line : Text)
    (result : Option ParseState) : Prop :=
  (result.isSome ↔ TargetDurationSafe line ∧
    (isSegmentLine line = true → (increment overflowChecks st.seqCounter).isSome)) ∧
  ∀ st', result = some st' →
    (announced line = some st'.seqCounter ∧ isSegmentLine line = false) ∨
    (announced line = none ∧ isSegmentLine line = true ∧
      increment overflowChecks st.seqCounter = some st'.seqCounter) ∨
    (announced line = none ∧ isSegmentLine line = false ∧ st'.seqCounter = st.seqCounter)

/-- A line that is no segment and announces nothing leaves the counter alone. -/
theorem lineSpec_of_counter_unchanged {overflowChecks : Bool} {st st' : ParseState} {line : Text}
    (hsafe : TargetDurationSafe line) (hnone : announced line = none)
    (hsegment : isSegmentLine line = false) (hcounter : st'.seqCounter = st.seqCounter) :
    LineSpec overflowChecks st line (some st') := by
  constructor
  · rw [hsegment]
    exact iff_of_true rfl ⟨hsafe, nofun⟩
  · rintro _ ⟨⟩
    exact Or.inr (Or.inr ⟨hnone, hsegment, hcounter⟩)

theorem lineSpec_targetDuration {overflowChecks : Bool} {st : ParseState} {line : Text}
    (htarget : targetDurationTag.isPrefixOf line = true) :
    LineSpec overflowChecks st line ((sliceFrom line 23).map st.readTargetDuration) := by
  have hsegment := isSegmentLine_of_tag (by decide) htarget
  have hnone := announced_of_noTag
    (not_mediaSequence_of_tag (by decide) (by decide) htarget)
  constructor
  · rw [Option.isSome_map, sliceFrom_targetDuration_isSome_iff htarget, hsegment]
    exact ⟨fun hsafe ↦ ⟨hsafe, nofun⟩, And.left⟩
  · intro st' hst'
    obtain ⟨rest, -, rfl⟩ := Option.map_eq_some_iff.mp hst'
    exact Or.inr (Or.inr ⟨hnone, hsegment, st.seqCounter_readTargetDuration rest⟩)

theorem lineSpec_mediaSequence {overflowChecks : Bool} {st : ParseState} {line : Text}
    (htarget : ¬ targetDurationTag.isPrefixOf line = true)
    (hmedia : mediaSequenceTag.isPrefixOf line = true) :
    LineSpec overflowChecks st line ((sliceFrom line 22).map st.readMediaSequence) := by
  have hsafe := targetDurationSafe_of_noTag htarget
  have hsegment := isSegmentLine_of_tag (by decide) hmedia
  have hslice : sliceFrom line 22 = some (line.drop mediaSequenceTag.length) := sliceFrom_tag hmedia
  have hannounced : announced line = parseU64 (line.drop mediaSequenceTag.length) := if_pos hmedia
  have hcounter := st.seqCounter_readMediaSequence (line.drop mediaSequenceTag.length)
  rw [hslice, Option.map_some]
  cases hparse : parseU64 (line.drop mediaSequenceTag.length) with
  | none =>
    rw [hparse] at hannounced hcounter
    exact lineSpec_of_counter_unchanged hsafe hannounced hsegment hcounter
  | some sequence =>
    rw [hparse] at hannounced hcounter
    constructor
    · rw [hsegment]
      exact iff_of_true rfl ⟨hsafe, nofun⟩
    · rintro _ ⟨⟩
      exact Or.inl ⟨hannounced.trans (congrArg some hcounter.symm), hsegment⟩

theorem lineSpec_extinf {overflowChecks : Bool} {st : ParseState} {line : Text}
    (htarget : ¬ targetDurationTag.isPrefixOf line = true)
    (hmedia : ¬ mediaSequenceTag.isPrefixOf line = true)
    (hextinf : extinfTag.isPrefixOf line = true) :
    LineSpec overflowChecks st line
      ((sliceFrom line 8).map fun rest ↦ st.readDuration (trimEndMatches ",".toList rest)) := by
  have hslice : sliceFrom line 8 = some (line.drop extinfTag.length) := sliceFrom_tag hextinf
  rw [hslice, Option.map_some]
  exact lineSpec_of_counter_unchanged (targetDurationSafe_of_noTag htarget)
    (announced_of_noTag hmedia) (isSegmentLine_of_tag (by decide) hextinf)
    (st.seqCounter_readDuration _)

theorem lineSpec_segment {overflowChecks : Bool} {baseUrl : Text} {st : ParseState} {line : Text}
    (htarget : ¬ targetDurationTag.isPrefixOf line = true)
    (hmedia : ¬ mediaSequenceTag.isPrefixOf line = true) (hsegment : isSegmentLine line = true) :
    LineSpec overflowChecks st line
      ((resolveUrl baseUrl line).bind (st.pushSegment overflowChecks)) := by
  have hsafe := targetDurationSafe_of_noTag htarget
  obtain ⟨url, hurl⟩ := Option.isSome_iff_exists.mp (resolveUrl_isSome baseUrl line)
  rw [hurl, Option.bind_some]
  unfold ParseState.pushSegment
  constructor
  · rw [Option.isSome_map]
    exact ⟨fun hcount ↦ ⟨hsafe, fun _ ↦ hcount⟩, fun h ↦ h.2 hsegment⟩
  · intro st' hst'
    obtain ⟨seqCounter, hcount, rfl⟩ := Option.map_eq_some_iff.mp hst'
    exact Or.inr (Or.inl ⟨announced_of_noTag hmedia, hsegment, hcount⟩)

/-- A segment line is not empty and does not start with a number sign. -/
theorem isSegmentLine_iff {line : Text} :
    isSegmentLine line = true ↔ line ≠ [] ∧ ¬ "#".toList.isPrefixOf line = true := by
  unfold isSegmentLine
  rw [Bool.and_eq_true, Bool.not_eq_true', Bool.not_eq_true', List.isEmpty_eq_false_iff,
    Bool.eq_false_iff]

/-- Each line of a playlist does what a line may do. -/
theorem parseLine_spec (overflowChecks : Bool) (baseUrl : Text) (st : ParseState) (line : Text) :
    LineSpec overflowChecks st line (parseLine overflowChecks baseUrl st line) := by
  unfold parseLine
  by_cases htarget : targetDurationTag.isPrefixOf line = true
  · rw [if_pos htarget]
    exact lineSpec_targetDuration htarget
  rw [if_neg htarget]
  by_cases hmedia : mediaSequenceTag.isPrefixOf line = true
  · rw [if_pos hmedia]
    exact lineSpec_mediaSequence htarget hmedia
  rw [if_neg hmedia]
  by_cases hextinf : extinfTag.isPrefixOf line = true
  · rw [if_pos hextinf]
    exact lineSpec_extinf htarget hmedia hextinf
  rw [if_neg hextinf]
  by_cases hsegment : line ≠ [] ∧ ¬ "#".toList.isPrefixOf line = true
  · rw [if_pos hsegment]
    exact lineSpec_segment htarget hmedia (isSegmentLine_iff.mpr hsegment)
  · rw [if_neg hsegment]
    exact lineSpec_of_counter_unchanged (targetDurationSafe_of_noTag htarget)
      (announced_of_noTag hmedia)
      (Bool.eq_false_iff.mpr fun h ↦ hsegment (isSegmentLine_iff.mp h)) rfl

/-! ### The whole playlist -/

/-- One more line. -/
theorem parseLines_concat (overflowChecks : Bool) (baseUrl : Text) (done : List Text)
    (line : Text) :
    parseLines overflowChecks baseUrl (done ++ [line]) =
      (parseLines overflowChecks baseUrl done).bind fun st ↦
        parseLine overflowChecks baseUrl st line := by
  unfold parseLines
  rw [List.foldlM_append]
  cases done.foldlM (parseLine overflowChecks baseUrl) ParseState.initial with
  | none => rfl
  | some st => simp

/-- A counter that wraps always has a successor. -/
theorem increment_wrapping_isSome (counter : ℕ) : (increment false counter).isSome := by
  unfold increment
  by_cases hfits : counter + 1 < 2 ^ 64
  · rw [if_pos hfits]
    rfl
  · rw [if_neg hfits]
    rfl

/-- A checked counter has its successor within 64 bits. -/
theorem increment_checked_eq_some_iff {counter next : ℕ} :
    increment true counter = some next ↔ counter + 1 < 2 ^ 64 ∧ next = counter + 1 := by
  unfold increment
  by_cases hfits : counter + 1 < 2 ^ 64
  · rw [if_pos hfits, Option.some.injEq]
    exact ⟨fun h ↦ ⟨hfits, h.symm⟩, fun h ↦ h.2.symm⟩
  · rw [if_neg hfits, if_pos rfl]
    exact ⟨nofun, fun h ↦ absurd h.1 hfits⟩

/-- Where overflows wrap, only the cuts can panic. -/
theorem parseLines_wrapping_isSome_iff {baseUrl : Text} {trimmed : List Text} :
    (parseLines false baseUrl trimmed).isSome ↔ ∀ line ∈ trimmed, TargetDurationSafe line := by
  induction trimmed using List.reverseRecOn with
  | nil => exact iff_of_true rfl nofun
  | append_singleton done line ih =>
    rw [parseLines_concat, List.forall_mem_append, List.forall_mem_singleton]
    cases hdone : parseLines false baseUrl done with
    | none =>
      rw [hdone] at ih
      exact ⟨nofun, fun h ↦ ih.mpr h.1⟩
    | some st =>
      rw [hdone] at ih
      rw [Option.bind_some, (parseLine_spec false baseUrl st line).1]
      exact ⟨fun h ↦ ⟨ih.mp rfl, h.1⟩, fun h ↦ ⟨h.2, fun _ ↦ increment_wrapping_isSome _⟩⟩

/-- The last announced number is one of the numbers. -/
theorem lastAnnounced_mem_segmentNumbers (done : List Text) :
    lastAnnounced done ∈ segmentNumbers done :=
  ⟨done, [], (List.append_nil done).symm, nofun, rfl⟩

theorem lastAnnounced_concat_of_some {done : List Text} {line : Text} {number : ℕ}
    (hannounced : announced line = some number) : lastAnnounced (done ++ [line]) = number := by
  unfold lastAnnounced
  simp [List.filterMap_append, hannounced]

theorem lastAnnounced_concat_of_none {done : List Text} {line : Text}
    (hannounced : announced line = none) :
    lastAnnounced (done ++ [line]) = lastAnnounced done := by
  unfold lastAnnounced
  simp [List.filterMap_append, hannounced]

/-- An announced number fits 64 bits. -/
theorem announced_lt {line : Text} {number : ℕ} (hannounced : announced line = some number) :
    number < 2 ^ 64 := by
  unfold announced parseU64 at hannounced
  dsimp only at hannounced
  split_ifs at hannounced with hstart hplus hdigits hdigits
  · exact Option.some.inj hannounced ▸ hdigits.2
  · exact Option.some.inj hannounced ▸ hdigits.2

/-- The numbers after one more line: its own start of a run, and those of the runs it continues. -/
theorem mem_segmentNumbers_concat {done : List Text} {line : Text} {number : ℕ} :
    number ∈ segmentNumbers (done ++ [line]) ↔
      number = lastAnnounced (done ++ [line]) ∨
        (announced line = none ∧ ∃ previous ∈ segmentNumbers done,
          number = previous + if isSegmentLine line = true then 1 else 0) := by
  constructor
  · rintro ⟨front, run, hsplit, hrun, rfl⟩
    rcases List.eq_nil_or_concat' run with rfl | ⟨run, last, rfl⟩
    · rw [List.append_nil] at hsplit
      exact Or.inl (by rw [hsplit]; rfl)
    · rw [← List.append_assoc] at hsplit
      obtain ⟨rfl, hlast⟩ := List.append_inj' hsplit rfl
      obtain ⟨rfl, -⟩ := List.cons.inj hlast
      obtain ⟨hrun, hlast⟩ := List.forall_mem_append.mp hrun
      refine Or.inr ⟨hlast line (List.mem_singleton_self line), _, ⟨front, run, rfl, hrun, rfl⟩, ?_⟩
      rw [List.countP_append, List.countP_singleton, Nat.add_assoc]
  · rintro (rfl | ⟨hnone, previous, ⟨front, run, rfl, hrun, rfl⟩, rfl⟩)
    · exact lastAnnounced_mem_segmentNumbers _
    · refine ⟨front, run ++ [line], List.append_assoc _ _ _, ?_, ?_⟩
      · exact List.forall_mem_append.mpr ⟨hrun, List.forall_mem_singleton.mpr hnone⟩
      · rw [List.countP_append, List.countP_singleton, Nat.add_assoc]

/-- After an announcement its number is the only one. -/
theorem isGreatest_concat_of_some {done : List Text} {line : Text} {number : ℕ}
    (hannounced : announced line = some number) :
    IsGreatest (segmentNumbers (done ++ [line])) number := by
  have hlast : lastAnnounced (done ++ [line]) = number := lastAnnounced_concat_of_some hannounced
  constructor
  · exact mem_segmentNumbers_concat.mpr (Or.inl hlast.symm)
  · intro other hother
    rcases mem_segmentNumbers_concat.mp hother with rfl | ⟨hnone, -⟩
    · exact hlast.le
    · rw [hannounced] at hnone
      exact nomatch hnone

/-- Without an announcement the greatest number counts the line if it is a segment line. -/
theorem isGreatest_concat_of_none {done : List Text} {line : Text} {number : ℕ}
    (hnone : announced line = none) (hgreatest : IsGreatest (segmentNumbers done) number) :
    IsGreatest (segmentNumbers (done ++ [line]))
      (number + if isSegmentLine line = true then 1 else 0) := by
  constructor
  · exact mem_segmentNumbers_concat.mpr (Or.inr ⟨hnone, number, hgreatest.1, rfl⟩)
  · intro other hother
    rcases mem_segmentNumbers_concat.mp hother with rfl | ⟨-, previous, hprevious, rfl⟩
    · rw [lastAnnounced_concat_of_none hnone]
      exact (hgreatest.2 (lastAnnounced_mem_segmentNumbers done)).trans (Nat.le_add_right _ _)
    · exact Nat.add_le_add_right (hgreatest.2 hprevious) _

/-- A checked counter is the greatest number its lines come to, and within 64 bits. -/
theorem counter_isGreatest {baseUrl : Text} {done : List Text} {st : ParseState}
    (hdone : parseLines true baseUrl done = some st) :
    IsGreatest (segmentNumbers done) st.seqCounter ∧ st.seqCounter < 2 ^ 64 := by
  induction done using List.reverseRecOn generalizing st with
  | nil =>
    obtain rfl := Option.some.inj hdone
    refine ⟨⟨lastAnnounced_mem_segmentNumbers [], ?_⟩, by decide⟩
    rintro number ⟨front, run, hsplit, -, rfl⟩
    obtain ⟨rfl, rfl⟩ := List.append_eq_nil_iff.mp hsplit.symm
    exact le_rfl
  | append_singleton done line ih =>
    rw [parseLines_concat] at hdone
    obtain ⟨previous, hprevious, hline⟩ := Option.bind_eq_some_iff.mp hdone
    obtain ⟨hgreatest, hlt⟩ := ih hprevious
    rcases (parseLine_spec true baseUrl previous line).2 st hline with
      ⟨hannounced, -⟩ | ⟨hnone, hsegment, hcount⟩ | ⟨hnone, hsegment, hcount⟩
    · exact ⟨isGreatest_concat_of_some hannounced, announced_lt hannounced⟩
    · obtain ⟨hfits, hnext⟩ := increment_checked_eq_some_iff.mp hcount
      have hcounted := isGreatest_concat_of_none hnone hgreatest
      rw [if_pos hsegment, ← hnext] at hcounted
      exact ⟨hcounted, hnext ▸ hfits⟩
    · have hkept := isGreatest_concat_of_none hnone hgreatest
      rw [hsegment, if_neg Bool.false_ne_true, Nat.add_zero, ← hcount] at hkept
      exact ⟨hkept, hcount ▸ hlt⟩

/-- A segment line announces nothing. -/
theorem announced_of_isSegmentLine {line : Text} (hsegment : isSegmentLine line = true) :
    announced line = none := by
  refine announced_of_noTag fun hmedia ↦ ?_
  rw [isSegmentLine_of_tag (by decide) hmedia] at hsegment
  exact nomatch hsegment

/-- One more line is safe for the counter when its own numbers are. -/
theorem counterSafe_concat_iff {done : List Text} {line : Text} :
    CounterSafe (done ++ [line]) ↔
      CounterSafe done ∧ ∀ number ∈ segmentNumbers (done ++ [line]), number < 2 ^ 64 := by
  constructor
  · intro hsafe
    exact ⟨fun part hpart ↦ hsafe part (hpart.trans (List.prefix_append _ _)),
      hsafe _ List.prefix_rfl⟩
  · rintro ⟨hdone, hlast⟩ part hpart
    rcases List.prefix_concat_iff.mp hpart with rfl | hpart
    · exact hlast
    · exact hdone part hpart

/-- Where overflows are checked, the cuts and the counter can panic. -/
theorem parseLines_checked_isSome_iff {baseUrl : Text} {trimmed : List Text} :
    (parseLines true baseUrl trimmed).isSome ↔
      (∀ line ∈ trimmed, TargetDurationSafe line) ∧ CounterSafe trimmed := by
  induction trimmed using List.reverseRecOn with
  | nil =>
    refine iff_of_true rfl ⟨nofun, fun done hdone number hnumber ↦ ?_⟩
    obtain rfl := List.prefix_nil.mp hdone
    have hinitial : parseLines true baseUrl [] = some ParseState.initial := rfl
    obtain ⟨hgreatest, hlt⟩ := counter_isGreatest hinitial
    exact (hgreatest.2 hnumber).trans_lt hlt
  | append_singleton done line ih =>
    rw [List.forall_mem_append, List.forall_mem_singleton, counterSafe_concat_iff]
    cases hdone : parseLines true baseUrl done with
    | none =>
      rw [hdone] at ih
      rw [parseLines_concat, hdone]
      exact ⟨nofun, fun h ↦ ih.mpr ⟨h.1.1, h.2.1⟩⟩
    | some st =>
      rw [hdone] at ih
      obtain ⟨hlines, hsafe⟩ := ih.mp rfl
      have hconcat : parseLines true baseUrl (done ++ [line]) = parseLine true baseUrl st line := by
        rw [parseLines_concat, hdone, Option.bind_some]
      constructor
      · intro hsome
        obtain ⟨st', hst'⟩ := Option.isSome_iff_exists.mp hsome
        obtain ⟨hgreatest, hlt⟩ := counter_isGreatest hst'
        rw [hconcat] at hsome
        exact ⟨⟨hlines, ((parseLine_spec true baseUrl st line).1.mp hsome).1⟩, hsafe,
          fun number hnumber ↦ (hgreatest.2 hnumber).trans_lt hlt⟩
      · rintro ⟨⟨-, hline⟩, -, hnumbers⟩
        rw [hconcat, (parseLine_spec true baseUrl st line).1]
        refine ⟨hline, fun hsegment ↦ ?_⟩
        have hcounted := isGreatest_concat_of_none (announced_of_isSegmentLine hsegment)
          (counter_isGreatest hdone).1
        rw [if_pos hsegment] at hcounted
        have hfits := hnumbers _ hcounted.1
        exact Option.isSome_iff_exists.mpr
          ⟨_, increment_checked_eq_some_iff.mpr ⟨hfits, rfl⟩⟩

/-- Parsing the bytes of a playlist never panics, whether overflows are checked or wrap, exactly
when behind each target duration tag stands a character of one byte and each announced number plus
the segment lines behind it stays within 64 bits. -/
theorem pollPlaylist_safe_iff (m3u8Data : List UInt8) (originUrl : Text) :
    (∀ overflowChecks, (pollPlaylist overflowChecks m3u8Data originUrl).isSome) ↔
      (∀ line ∈ trimmedLines (fromUtf8Lossy m3u8Data), TargetDurationSafe line) ∧
        CounterSafe (trimmedLines (fromUtf8Lossy m3u8Data)) := by
  unfold pollPlaylist parseM3u8
  rw [Bool.forall_bool, Option.isSome_map, Option.isSome_map, parseLines_wrapping_isSome_iff,
    parseLines_checked_isSome_iff]
  exact ⟨And.right, fun h ↦ ⟨h.1, h⟩⟩

/-- The bytes of an ASCII text. -/
def asciiBytes (text : Text) : List UInt8 := text.map fun c ↦ UInt8.ofNat c.toNat

/-- A bare target duration tag panics where overflows wrap and where they are checked, and the
address of a segment with the last number of 64 bits panics where they are checked. -/
theorem pollPlaylist_counterexample :
    pollPlaylist false (asciiBytes "#EXT-X-TARGETDURATION:".toList)
        "http://origin/live/a/stream.m3u8".toList = none ∧
      pollPlaylist true (asciiBytes "#EXT-X-TARGETDURATION:".toList)
        "http://origin/live/a/stream.m3u8".toList = none ∧
      pollPlaylist true (asciiBytes "#EXT-X-MEDIA-SEQUENCE:18446744073709551615\na.ts".toList)
        "http://origin/live/a/stream.m3u8".toList = none := by
  decide +kernel

end LiveCDN.Agent.Playlist
