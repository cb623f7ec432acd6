import LiveCDN.Library.IncrementalReader
import LiveCDN.Agent.FlvFormat

/-!
# The demuxing loop of the FLV puller

`pull_flv_stream` of `relay/flv.rs` appends each body chunk to a buffer and parses the buffer until
it needs more bytes: first the FLV header, once, then tags. `demuxAttempt` is one round of the inner
loop, `flvReader` packs it with the proof that its decisions consume bytes that are there and are
never revised, and `pullFlvStream` is the function with its connection phase, its running flag and
its transport errors.

`pullFlvStream_chunks` reduces a pull without a stop or a transport error to one drain of the whole
stream, so nothing but the leftover at an error depends on the chunk boundaries
(`pullFlvStream_chunking`). In the tag phase the wire form of any list of tags is read back exactly
(`drain_tagWires`).

The header phase takes the header size from bytes 5 to 7, where a serialized header has zeros: the
size is big-endian in bytes 5 to 8. The puller skips 4 bytes instead of 13 and enters the tag phase
inside the header. `drain_tag_length` balances the bytes, and `pullFlvStream_relay_ne` concludes
that a stream served by another agent is never recovered.

Scope. The broadcast and the GOP cache receive the emitted packets in order and are not part of
this module. Log lines are left out.
-/

set_option autoImplicit false
set_option relaxedAutoImplicit false

namespace LiveCDN.Agent.FlvDemuxer

open Library Library.IncrementalReader FlvFormat

/-! ### One round of the inner loop -/

/-- `"FLV"`, the signature the header phase compares with. -/
def flvSignature : List UInt8 := [0x46, 0x4C, 0x56]

/-- One round of the inner loop of `pull_flv_stream`. `break` waits, `continue` and the end of the
loop body consume, and the early return rejects. -/
def demuxAttempt (flvHeaderParsed : Bool) (buffer : List UInt8) : Attempt Bool FlvTag String :=
  if !flvHeaderParsed then
    if buffer.length < flvHeaderLen then .await
    else if buffer.take 3 ≠ flvSignature then .reject "not a valid FLV stream"
    else
      let headerSize :=
        BigEndian.value [0, buffer.getD 5 0, buffer.getD 6 0, buffer.getD 7 0]
      let skip := headerSize + prevTagSizeLen
      if buffer.length < skip then .await
      else .consume skip true none
  else if buffer.length < tagHeaderLen then .await
  else
    match FlvTagType.tryFrom (buffer.getD 0 0) with
    | .error _ => .consume tagHeaderLen true none
    | .ok tagType =>
      let dataSize := dataSizeField buffer
      let timestamp := timestampField buffer
      let totalTagLen := tagHeaderLen + dataSize + prevTagSizeLen
      if buffer.length < totalTagLen then .await
      else
        .consume totalTagLen true
          (some ⟨tagType, UInt32.ofNat timestamp, (buffer.drop tagHeaderLen).take dataSize⟩)

/-- The bytes skipped by the header phase. -/
def headerSkip (buffer : List UInt8) : ℕ :=
  BigEndian.value [0, buffer.getD 5 0, buffer.getD 6 0, buffer.getD 7 0] + prevTagSizeLen

/-- What a round of the header phase can do. -/
theorem demuxAttempt_header (buffer : List UInt8) :
    (buffer.length < flvHeaderLen ∧ demuxAttempt false buffer = .await) ∨
    (flvHeaderLen ≤ buffer.length ∧ buffer.take 3 ≠ flvSignature ∧
      demuxAttempt false buffer = .reject "not a valid FLV stream") ∨
    (flvHeaderLen ≤ buffer.length ∧ buffer.length < headerSkip buffer ∧
      demuxAttempt false buffer = .await) ∨
    (flvHeaderLen ≤ buffer.length ∧ buffer.take 3 = flvSignature ∧
      headerSkip buffer ≤ buffer.length ∧
        demuxAttempt false buffer = .consume (headerSkip buffer) true none) := by
  simp only [demuxAttempt, headerSkip, Bool.not_false, if_true]
  split_ifs with hshort hsignature hskip
  · exact Or.inl ⟨hshort, rfl⟩
  · exact Or.inr (Or.inl ⟨not_lt.mp hshort, hsignature, rfl⟩)
  · exact Or.inr (Or.inr (Or.inl ⟨not_lt.mp hshort, hskip, rfl⟩))
  · exact Or.inr (Or.inr (Or.inr
      ⟨not_lt.mp hshort, not_not.mp hsignature, not_lt.mp hskip, rfl⟩))

/-- What a round of the tag phase can do. -/
theorem demuxAttempt_tag (buffer : List UInt8) :
    demuxAttempt true buffer = .await ∨
    (tagHeaderLen ≤ buffer.length ∧
      FlvTagType.tryFrom (buffer.getD 0 0) = .error (buffer.getD 0 0) ∧
      demuxAttempt true buffer = .consume tagHeaderLen true none) ∨
    (∃ tagType, FlvTagType.tryFrom (buffer.getD 0 0) = .ok tagType ∧
      tagHeaderLen + dataSizeField buffer + prevTagSizeLen ≤ buffer.length ∧
      demuxAttempt true buffer =
        .consume (tagHeaderLen + dataSizeField buffer + prevTagSizeLen) true
          (some ⟨tagType, UInt32.ofNat (timestampField buffer),
            (buffer.drop tagHeaderLen).take (dataSizeField buffer)⟩)) := by
  simp only [demuxAttempt, Bool.not_true, Bool.false_eq_true, if_false]
  by_cases hshort : buffer.length < tagHeaderLen
  · exact Or.inl (if_pos hshort)
  · rw [if_neg hshort]
    cases htype : FlvTagType.tryFrom (buffer.getD 0 0) with
    | error byte =>
      refine Or.inr (Or.inl ⟨not_lt.mp hshort, ?_, rfl⟩)
      unfold FlvTagType.tryFrom at htype
      split_ifs at htype
      rw [← htype]
    | ok tagType =>
      by_cases htotal : buffer.length < tagHeaderLen + dataSizeField buffer + prevTagSizeLen
      · exact Or.inl (if_pos htotal)
      · exact Or.inr (Or.inr ⟨tagType, rfl, not_lt.mp htotal, if_neg htotal⟩)

/-! ### Decisions are not revised -/

theorem headerSkip_append {buffer : List UInt8} (more : List UInt8)
    (hlength : flvHeaderLen ≤ buffer.length) :
    headerSkip (buffer ++ more) = headerSkip buffer := by
  simp only [flvHeaderLen] at hlength
  simp only [headerSkip]
  rw [List.getD_append _ _ _ _ (by omega), List.getD_append _ _ _ _ (by omega),
    List.getD_append _ _ _ _ (by omega)]

theorem dataSizeField_append {buffer : List UInt8} (more : List UInt8)
    (hlength : tagHeaderLen ≤ buffer.length) :
    dataSizeField (buffer ++ more) = dataSizeField buffer := by
  simp only [tagHeaderLen] at hlength
  simp only [dataSizeField]
  rw [List.getD_append _ _ _ _ (by omega), List.getD_append _ _ _ _ (by omega),
    List.getD_append _ _ _ _ (by omega)]

theorem timestampField_append {buffer : List UInt8} (more : List UInt8)
    (hlength : tagHeaderLen ≤ buffer.length) :
    timestampField (buffer ++ more) = timestampField buffer := by
  simp only [tagHeaderLen] at hlength
  simp only [timestampField]
  rw [List.getD_append _ _ _ _ (by omega), List.getD_append _ _ _ _ (by omega),
    List.getD_append _ _ _ _ (by omega), List.getD_append _ _ _ _ (by omega)]

/-- A consuming round takes a positive number of bytes that are in the buffer. -/
theorem demuxAttempt_bounds {flvHeaderParsed : Bool} {buffer : List UInt8} {count : ℕ}
    {next : Bool} {output : Option FlvTag}
    (hattempt : demuxAttempt flvHeaderParsed buffer = .consume count next output) :
    0 < count ∧ count ≤ buffer.length := by
  cases flvHeaderParsed with
  | false =>
    rcases demuxAttempt_header buffer with h | h | h | ⟨_, _, hskip, h⟩
    · simp [h.2] at hattempt
    · simp [h.2.2] at hattempt
    · simp [h.2.2] at hattempt
    · obtain ⟨rfl, _, _⟩ := Attempt.consume.inj (h.symm.trans hattempt)
      exact ⟨by simp [headerSkip, prevTagSizeLen], hskip⟩
  | true =>
    rcases demuxAttempt_tag buffer with h | ⟨hlength, _, h⟩ | ⟨tagType, _, htotal, h⟩
    · simp [h] at hattempt
    · obtain ⟨rfl, _, _⟩ := Attempt.consume.inj (h.symm.trans hattempt)
      exact ⟨by simp [tagHeaderLen], hlength⟩
    · obtain ⟨rfl, _, _⟩ := Attempt.consume.inj (h.symm.trans hattempt)
      exact ⟨by simp [tagHeaderLen], htotal⟩

/-- A consuming round consumes the same bytes and emits the same tag when more bytes have
arrived. -/
theorem demuxAttempt_consume_append {flvHeaderParsed : Bool} {buffer : List UInt8} {count : ℕ}
    {next : Bool} {output : Option FlvTag} (more : List UInt8)
    (hattempt : demuxAttempt flvHeaderParsed buffer = .consume count next output) :
    demuxAttempt flvHeaderParsed (buffer ++ more) = .consume count next output := by
  rw [← hattempt]
  cases flvHeaderParsed with
  | false =>
    rcases demuxAttempt_header buffer with h | h | h | ⟨hlength, hsignature, hskip, h⟩
    · simp [h.2] at hattempt
    · simp [h.2.2] at hattempt
    · simp [h.2.2] at hattempt
    · have hlong : ¬ (buffer ++ more).length < flvHeaderLen := by
        rw [List.length_append]
        omega
      have hpresent : ¬ (buffer ++ more).length < headerSkip buffer := by
        rw [List.length_append]
        omega
      have htake : (buffer ++ more).take 3 = flvSignature := by
        rw [List.take_append_of_le_length (by simp only [flvHeaderLen] at hlength; omega),
          hsignature]
      rcases demuxAttempt_header (buffer ++ more) with h' | h' | h' | ⟨_, _, _, h'⟩
      · exact absurd h'.1 hlong
      · exact absurd htake h'.2.1
      · exact absurd (headerSkip_append more hlength ▸ h'.2.1) hpresent
      · rw [h', h, headerSkip_append more hlength]
  | true =>
    rcases demuxAttempt_tag buffer with h | ⟨hlength, htype, h⟩ | ⟨tagType, htype, htotal, h⟩
    · simp [h] at hattempt
    · have hfirst : (buffer ++ more).getD 0 0 = buffer.getD 0 0 :=
        List.getD_append _ _ _ _ (by simp only [tagHeaderLen] at hlength; omega)
      rw [h]
      simp only [demuxAttempt, Bool.not_true, Bool.false_eq_true, if_false]
      rw [if_neg (by rw [List.length_append]; omega), hfirst, htype]
    · have hlength : tagHeaderLen ≤ buffer.length := by omega
      have hfirst : (buffer ++ more).getD 0 0 = buffer.getD 0 0 :=
        List.getD_append _ _ _ _ (by simp only [tagHeaderLen] at hlength; omega)
      have hdata : ((buffer ++ more).drop tagHeaderLen).take (dataSizeField buffer) =
          (buffer.drop tagHeaderLen).take (dataSizeField buffer) := by
        rw [List.drop_append_of_le_length hlength,
          List.take_append_of_le_length (by rw [List.length_drop]; omega)]
      rw [h]
      simp only [demuxAttempt, Bool.not_true, Bool.false_eq_true, if_false]
      rw [if_neg (by rw [List.length_append]; omega), hfirst, htype]
      simp only [dataSizeField_append more hlength, timestampField_append more hlength, hdata]
      rw [if_neg (by rw [List.length_append]; omega)]

/-- A rejected stream stays rejected. -/
theorem demuxAttempt_reject_append {flvHeaderParsed : Bool} {buffer : List UInt8} {error : String}
    (more : List UInt8) (hattempt : demuxAttempt flvHeaderParsed buffer = .reject error) :
    demuxAttempt flvHeaderParsed (buffer ++ more) = .reject error := by
  cases flvHeaderParsed with
  | false =>
    rcases demuxAttempt_header buffer with h | ⟨hlength, hsignature, h⟩ | h | h
    · simp [h.2] at hattempt
    · have hlong : ¬ (buffer ++ more).length < flvHeaderLen := by
        rw [List.length_append]
        omega
      have htake : (buffer ++ more).take 3 ≠ flvSignature := by
        rwa [List.take_append_of_le_length (by simp only [flvHeaderLen] at hlength; omega)]
      rw [← hattempt, h]
      simp only [demuxAttempt, Bool.not_false, if_true]
      rw [if_neg hlong, if_pos htake]
    · simp [h.2.2] at hattempt
    · simp [h.2.2.2] at hattempt
  | true =>
    rcases demuxAttempt_tag buffer with h | ⟨_, _, h⟩ | ⟨_, _, _, h⟩ <;> simp [h] at hattempt

/-- The inner loop as a reader over the growing buffer. -/
def flvReader : Reader Bool UInt8 FlvTag String where
  attempt := demuxAttempt
  consume_bounds := demuxAttempt_bounds
  consume_append := demuxAttempt_consume_append
  reject_append := demuxAttempt_reject_append

/-- The inner loop ends on every buffer. -/
theorem innerLoop_ends (flvHeaderParsed : Bool) (buffer : List UInt8) :
    (flvReader.drainWithin (buffer.length + 1) flvHeaderParsed buffer).isSome :=
  flvReader.drainWithin_isSome (Nat.lt_succ_self _)

/-! ### The function -/

/-- What building the client, connecting and the response status come to. -/
inductive Connection
  | buildFailed (error : String)
  | connectFailed (error : String)
  | refused (status : String)
  | connected

/-- One turn of the chunk loop: the running flag as read, and the item of the body stream. -/
structure Arrival where
  running : Bool
  chunkResult : Except String (List UInt8)

/-- What `pull_flv_stream` has done when it returns: the packets it broadcast and fed to the GOP
cache, its two loop variables and its result. -/
structure PullOutcome where
  emitted : List FlvTagPacket
  flvHeaderParsed : Bool
  buffer : List UInt8
  result : Except String Unit

/-- Stamps tags with the clock readings taken when they are parsed, `stamps tagCounter` first. -/
def stampTags (stamps : ℕ → UInt64) (tagCounter : ℕ) : List FlvTag → List FlvTagPacket
  | [] => []
  | tag :: tags => ⟨tag, stamps tagCounter⟩ :: stampTags stamps (tagCounter + 1) tags

@[simp] theorem map_toFlvTag_stampTags (stamps : ℕ → UInt64) (tagCounter : ℕ)
    (tags : List FlvTag) :
    (stampTags stamps tagCounter tags).map FlvTagPacket.toFlvTag = tags := by
  induction tags generalizing tagCounter with
  | nil => rfl
  | cons tag tags ih => simp [stampTags, ih]

/-- The chunk loop of `pull_flv_stream`, from the given loop variables. -/
def pullChunks (stamps : ℕ → UInt64) :
    ℕ → Bool → List UInt8 → List Arrival → PullOutcome
  | _, flvHeaderParsed, buffer, [] => ⟨[], flvHeaderParsed, buffer, .ok ()⟩
  | tagCounter, flvHeaderParsed, buffer, arrival :: arrivals =>
    if !arrival.running then ⟨[], flvHeaderParsed, buffer, .ok ()⟩
    else
      match arrival.chunkResult with
      | .error e => ⟨[], flvHeaderParsed, buffer, .error ("read chunk: " ++ e)⟩
      | .ok chunk =>
        let reading := flvReader.drain flvHeaderParsed (buffer ++ chunk)
        let packets := stampTags stamps tagCounter reading.outputs
        match reading.error with
        | some e => ⟨packets, reading.mode, reading.leftover, .error e⟩
        | none =>
          let rest := pullChunks stamps (tagCounter + packets.length) reading.mode
            reading.leftover arrivals
          { rest with emitted := packets ++ rest.emitted }

/-- `pull_flv_stream`: the connection phase, then the chunk loop on an empty buffer. -/
def pullFlvStream (connection : Connection) (stamps : ℕ → UInt64) (arrivals : List Arrival) :
    PullOutcome :=
  match connection with
  | .buildFailed e => ⟨[], false, [], .error ("build client: " ++ e)⟩
  | .connectFailed e => ⟨[], false, [], .error ("connect: " ++ e)⟩
  | .refused status => ⟨[], false, [], .error ("HTTP " ++ status)⟩
  | .connected => pullChunks stamps 0 false [] arrivals

/-- The turns of a pull that is not stopped and sees no transport error. -/
def steadyArrivals (chunks : List (List UInt8)) : List Arrival :=
  chunks.map fun chunk ↦ ⟨true, .ok chunk⟩

/-- A connected pull that is not stopped and sees no transport error. -/
def steadyPull (stamps : ℕ → UInt64) (chunks : List (List UInt8)) : PullOutcome :=
  pullFlvStream .connected stamps (steadyArrivals chunks)

/-! ### Independence of the chunk boundaries -/

/-- A steady chunk loop is the chunked run of the reader. -/
theorem pullChunks_steadyArrivals (stamps : ℕ → UInt64) (tagCounter : ℕ) (flvHeaderParsed : Bool)
    (buffer : List UInt8) (chunks : List (List UInt8)) :
    let outcome := pullChunks stamps tagCounter flvHeaderParsed buffer (steadyArrivals chunks)
    let reading := flvReader.readChunks flvHeaderParsed buffer chunks
    outcome.emitted.map FlvTagPacket.toFlvTag = reading.outputs ∧
      outcome.flvHeaderParsed = reading.mode ∧ outcome.buffer = reading.leftover ∧
        outcome.result = reading.error.elim (.ok ()) .error := by
  induction chunks generalizing tagCounter flvHeaderParsed buffer with
  | nil => exact ⟨rfl, rfl, rfl, rfl⟩
  | cons chunk chunks ih =>
    simp only [steadyArrivals, List.map_cons, pullChunks, Reader.readChunks, Bool.not_true,
      Bool.false_eq_true, if_false]
    cases herror : (flvReader.drain flvHeaderParsed (buffer ++ chunk)).error with
    | some error => simp [herror]
    | none =>
      obtain ⟨hemitted, hparsed, hbuffer, hresult⟩ := ih
        (tagCounter + (stampTags stamps tagCounter
          (flvReader.drain flvHeaderParsed (buffer ++ chunk)).outputs).length)
        (flvReader.drain flvHeaderParsed (buffer ++ chunk)).mode
        (flvReader.drain flvHeaderParsed (buffer ++ chunk)).leftover
      refine ⟨?_, hparsed, hbuffer, hresult⟩
      rw [List.map_append, map_toFlvTag_stampTags]
      exact congrArg _ hemitted

/-- A steady pull against one drain of the whole stream: tags, header flag and result agree, and
the buffer at the end is the leftover up to the bytes that were not read, of which there are none
unless the pull ends in an error. -/
theorem pullFlvStream_chunks (stamps : ℕ → UInt64) (chunks : List (List UInt8)) :
    let outcome := steadyPull stamps chunks
    let whole := flvReader.drain false chunks.flatten
    outcome.emitted.map FlvTagPacket.toFlvTag = whole.outputs ∧
      outcome.flvHeaderParsed = whole.mode ∧
      outcome.result = whole.error.elim (.ok ()) .error ∧
      ∃ unread, whole.leftover = outcome.buffer ++ unread ∧ (whole.error = none → unread = []) := by
  have hstart : flvReader.attempt false [] = .await := rfl
  obtain ⟨unread, hdrain, hunread⟩ := flvReader.readChunks_eq_drain chunks hstart
  obtain ⟨hemitted, hparsed, hbuffer, hresult⟩ := pullChunks_steadyArrivals stamps 0 false [] chunks
  rw [List.nil_append] at hdrain
  simp only [steadyPull, pullFlvStream, hdrain]
  exact ⟨hemitted, hparsed, hresult, unread, congrArg (· ++ unread) hbuffer.symm, hunread⟩

/-- The tag phase never rejects. -/
theorem drain_tag_error (buffer : List UInt8) : (flvReader.drain true buffer).error = none := by
  suffices ∀ mode (buffer : List UInt8), mode = true →
      (flvReader.drain mode buffer).error = none from this true buffer rfl
  intro mode buffer
  induction mode, buffer using flvReader.drain_induction with
  | await mode buffer hattempt => simp [flvReader.drain_of_await hattempt]
  | reject mode buffer error hattempt =>
    rintro rfl
    rcases demuxAttempt_tag buffer with h | ⟨_, _, h⟩ | ⟨_, _, _, h⟩ <;>
      exact nomatch h.symm.trans hattempt
  | consume mode buffer count next output hattempt ih =>
    rintro rfl
    rw [flvReader.drain_of_consume hattempt]
    refine ih ?_
    rcases demuxAttempt_tag buffer with h | ⟨_, _, h⟩ | ⟨_, _, _, h⟩
    · exact nomatch h.symm.trans hattempt
    · exact (Attempt.consume.inj (h.symm.trans hattempt)).2.1.symm
    · exact (Attempt.consume.inj (h.symm.trans hattempt)).2.1.symm

/-- The tag phase stays the tag phase. -/
theorem drain_tag_mode (buffer : List UInt8) : (flvReader.drain true buffer).mode = true := by
  suffices ∀ mode (buffer : List UInt8), mode = true →
      (flvReader.drain mode buffer).mode = true from this true buffer rfl
  intro mode buffer
  induction mode, buffer using flvReader.drain_induction with
  | await mode buffer hattempt => simp [flvReader.drain_of_await hattempt]
  | reject mode buffer error hattempt => simp [flvReader.drain_of_reject hattempt]
  | consume mode buffer count next output hattempt ih =>
    rintro rfl
    rw [flvReader.drain_of_consume hattempt]
    refine ih ?_
    rcases demuxAttempt_tag buffer with h | ⟨_, _, h⟩ | ⟨_, _, _, h⟩
    · exact nomatch h.symm.trans hattempt
    · exact (Attempt.consume.inj (h.symm.trans hattempt)).2.1.symm
    · exact (Attempt.consume.inj (h.symm.trans hattempt)).2.1.symm

/-- The error of the inner loop is the rejection of the signature, once a whole header is there and
before any tag. -/
theorem drain_error {flvHeaderParsed : Bool} {buffer : List UInt8} {error : String}
    (herror : (flvReader.drain flvHeaderParsed buffer).error = some error) :
    (flvReader.drain flvHeaderParsed buffer).outputs = [] ∧ error = "not a valid FLV stream" ∧
      flvHeaderLen ≤ buffer.length ∧ buffer.take 3 ≠ flvSignature := by
  cases flvHeaderParsed with
  | true => simp [drain_tag_error] at herror
  | false =>
    have hreader : flvReader.attempt false buffer = demuxAttempt false buffer := rfl
    rcases demuxAttempt_header buffer with ⟨-, hattempt⟩ | ⟨hlength, hsignature, hattempt⟩ |
      ⟨-, -, hattempt⟩ | ⟨-, -, -, hattempt⟩
    · rw [flvReader.drain_of_await (hreader.trans hattempt)] at herror
      exact nomatch herror
    · have hdrain := flvReader.drain_of_reject (hreader.trans hattempt)
      rw [hdrain] at herror ⊢
      exact ⟨rfl, (Option.some.inj herror).symm, hlength, hsignature⟩
    · rw [flvReader.drain_of_await (hreader.trans hattempt)] at herror
      exact nomatch herror
    · rw [flvReader.drain_of_consume (hreader.trans hattempt), Reading.error_prepend,
        drain_tag_error] at herror
      exact nomatch herror

/-- A chunked run over an invalid stream ends with the chunk that completes the nine bytes of a
header. Assumes: they are not there before, and are in the end. -/
theorem readChunks_of_invalid {buffer : List UInt8} {chunks : List (List UInt8)}
    (hshort : buffer.length < flvHeaderLen)
    (hlong : flvHeaderLen ≤ (buffer ++ chunks.flatten).length)
    (hinvalid : (buffer ++ chunks.flatten).take 3 ≠ flvSignature) :
    ∃ n, (flvReader.readChunks false buffer chunks).leftover =
        buffer ++ (chunks.take (n + 1)).flatten ∧
      (buffer ++ (chunks.take n).flatten).length < flvHeaderLen ∧
      flvHeaderLen ≤ (buffer ++ (chunks.take (n + 1)).flatten).length := by
  induction chunks generalizing buffer with
  | nil =>
    rw [List.flatten_nil, List.append_nil] at hlong
    omega
  | cons chunk chunks ih =>
    rw [List.flatten_cons, ← List.append_assoc] at hlong hinvalid
    by_cases henough : (buffer ++ chunk).length < flvHeaderLen
    · have hawait : flvReader.attempt false (buffer ++ chunk) = .await := by
        change demuxAttempt false (buffer ++ chunk) = .await
        simp only [demuxAttempt, Bool.not_false, if_true, if_pos henough]
      obtain ⟨n, hleftover, hbefore, hafter⟩ := ih henough hlong hinvalid
      refine ⟨n + 1, ?_, ?_, ?_⟩
      · simpa [Reader.readChunks, flvReader.drain_of_await hawait] using hleftover
      · simpa using hbefore
      · simpa using hafter
    · have hfront : (buffer ++ chunk).take 3 ≠ flvSignature := by
        rwa [List.take_append_of_le_length
          (by simp only [flvHeaderLen, not_lt] at henough; omega)] at hinvalid
      have hreject : flvReader.attempt false (buffer ++ chunk) =
          .reject "not a valid FLV stream" := by
        change demuxAttempt false (buffer ++ chunk) = _
        simp only [demuxAttempt, Bool.not_false, if_true, if_neg henough, if_pos hfront]
      refine ⟨0, ?_, ?_, ?_⟩
      · simp [Reader.readChunks, flvReader.drain_of_reject hreject]
      · simpa using hshort
      · simpa using not_lt.mp henough

/-- The pull does not depend on how the body is cut into chunks. Assumes: two ways of cutting one
stream. The emitted tags, the header flag and the result are the same; so is the leftover buffer
when the result is `Ok`. When the result is the error, no tag was emitted and the buffer is the
part of the stream received by then: the chunks up to the one that completes the nine bytes of a
header. The inner loop ends on every buffer. -/
theorem pullFlvStream_chunking {chunks chunks' : List (List UInt8)}
    (hstream : chunks.flatten = chunks'.flatten) (stamps stamps' : ℕ → UInt64) :
    (steadyPull stamps chunks).emitted.map FlvTagPacket.toFlvTag =
        (steadyPull stamps' chunks').emitted.map FlvTagPacket.toFlvTag ∧
      (steadyPull stamps chunks).flvHeaderParsed = (steadyPull stamps' chunks').flvHeaderParsed ∧
      (steadyPull stamps chunks).result = (steadyPull stamps' chunks').result ∧
      ((steadyPull stamps chunks).result = .ok () →
        (steadyPull stamps chunks).buffer = (steadyPull stamps' chunks').buffer) ∧
      ((steadyPull stamps chunks).result ≠ .ok () →
        (steadyPull stamps chunks).result = .error "not a valid FLV stream" ∧
          (steadyPull stamps chunks).emitted = [] ∧
          ∃ n, (steadyPull stamps chunks).buffer = (chunks.take (n + 1)).flatten ∧
            (chunks.take n).flatten.length < flvHeaderLen ∧
            flvHeaderLen ≤ (chunks.take (n + 1)).flatten.length) ∧
      ∀ flvHeaderParsed buffer, ∃ rounds,
        (flvReader.drainWithin rounds flvHeaderParsed buffer).isSome := by
  obtain ⟨hemitted, hparsed, hresult, unread, hleftover, hunread⟩ :=
    pullFlvStream_chunks stamps chunks
  obtain ⟨hemitted', hparsed', hresult', unread', hleftover', hunread'⟩ :=
    pullFlvStream_chunks stamps' chunks'
  rw [← hstream] at hemitted' hparsed' hresult' hleftover' hunread'
  refine ⟨hemitted.trans hemitted'.symm, hparsed.trans hparsed'.symm,
    hresult.trans hresult'.symm, ?_, ?_, fun flvHeaderParsed buffer ↦
      ⟨_, innerLoop_ends flvHeaderParsed buffer⟩⟩
  · intro hok
    have herror : (flvReader.drain false chunks.flatten).error = none := by
      cases herror : (flvReader.drain false chunks.flatten).error with
      | none => rfl
      | some error => rw [hresult, herror] at hok; exact nomatch hok
    rw [hunread herror, List.append_nil] at hleftover
    rw [hunread' herror, List.append_nil] at hleftover'
    exact hleftover.symm.trans hleftover'
  · intro herr
    cases herror : (flvReader.drain false chunks.flatten).error with
    | none => rw [hresult, herror] at herr; exact absurd rfl herr
    | some error =>
      obtain ⟨houtputs, htext, hlong, hinvalid⟩ := drain_error herror
      have hnothing : ([] : List UInt8).length < flvHeaderLen := by decide
      obtain ⟨n, hbuffer, hbefore, hafter⟩ := readChunks_of_invalid hnothing hlong hinvalid
      rw [houtputs] at hemitted
      rw [herror, htext] at hresult
      exact ⟨hresult, List.map_eq_nil_iff.mp hemitted, n,
        (pullChunks_steadyArrivals stamps 0 false [] chunks).2.2.1.trans hbuffer, hbefore, hafter⟩

/-- A header that has its size in bytes 5 to 7, the trailer behind it, an audio and a video tag. -/
def twoTagStream : List UInt8 :=
  [0x46, 0x4C, 0x56, 1, 5, 0, 0, 9, 0] ++ [0, 0, 0, 0] ++
    buildFlvTagWire ⟨.audio, 20, [0xAF, 1, 7]⟩ ++ buildFlvTagWire ⟨.video, 40, [0x17, 1]⟩

/-- A witness of the chunking result: the two tags are emitted whether the stream is cut inside its
header and in the data of the audio tag, or once in the header of the video tag. -/
theorem pullFlvStream_chunking_witness :
    (steadyPull (fun _ ↦ 0) [twoTagStream.take 8, (twoTagStream.drop 8).take 17,
        twoTagStream.drop 25]).emitted.map FlvTagPacket.toFlvTag =
          [⟨.audio, 20, [0xAF, 1, 7]⟩, ⟨.video, 40, [0x17, 1]⟩] ∧
      (steadyPull (fun _ ↦ 0) [twoTagStream.take 36, twoTagStream.drop 36]).emitted.map
        FlvTagPacket.toFlvTag = [⟨.audio, 20, [0xAF, 1, 7]⟩, ⟨.video, 40, [0x17, 1]⟩] := by
  have hstream : [twoTagStream.take 8, (twoTagStream.drop 8).take 17,
      twoTagStream.drop 25].flatten = [twoTagStream.take 36, twoTagStream.drop 36].flatten := by
    decide
  have hsame := (pullFlvStream_chunking hstream (fun _ ↦ 0) (fun _ ↦ 0)).1
  have hwhole : (steadyPull (fun _ ↦ 0) [twoTagStream.take 36, twoTagStream.drop 36]).emitted.map
      FlvTagPacket.toFlvTag = [⟨.audio, 20, [0xAF, 1, 7]⟩, ⟨.video, 40, [0x17, 1]⟩] := by
    decide
  exact ⟨hsame.trans hwhole, hwhole⟩

/-- The leftover at the error does depend on the chunks: ten bytes that are not FLV, received as
nine and one or all at once. -/
theorem pullFlvStream_chunking_leftover_ne :
    ¬ ∀ (chunks chunks' : List (List UInt8)) (stamps : ℕ → UInt64),
      chunks.flatten = chunks'.flatten →
        (steadyPull stamps chunks).buffer = (steadyPull stamps chunks').buffer := by
  intro hall
  have hequal := hall [List.replicate 9 0, [0]] [List.replicate 10 0] (fun _ ↦ 0) rfl
  exact absurd (congrArg List.length hequal) (by decide)

/-! ### Streams served by another agent -/

/-- What an agent serves: the header and the wire form of its tags. -/
def relayStream (tags : List FlvTag) : List UInt8 :=
  buildFlvHeader ++ tags.flatMap buildFlvTagWire

/-- The bytes a list of tags takes on the wire. -/
def wireLength (tags : List FlvTag) : ℕ :=
  (tags.map fun tag ↦ tag.data.length + 15).sum

theorem length_flatMap_buildFlvTagWire (tags : List FlvTag) :
    (tags.flatMap buildFlvTagWire).length = wireLength tags := by
  simp [wireLength, List.length_flatMap]

theorem wireLength_append (first second : List FlvTag) :
    wireLength (first ++ second) = wireLength first + wireLength second := by
  simp [wireLength]

/-- One tag at the front of the buffer is read back. Assumes: the data fits the 24-bit size field.
-/
theorem demuxAttempt_buildFlvTagWire (tag : FlvTag) (more : List UInt8)
    (hsize : tag.data.length < 2 ^ 24) :
    demuxAttempt true (buildFlvTagWire tag ++ more) =
      .consume (tag.data.length + 15) true (some tag) := by
  obtain ⟨htype, hdataSize, htimestamp⟩ := headerField_buildFlvTagWire tag more hsize
  have hdata : ((buildFlvTagWire tag ++ more).drop tagHeaderLen).take tag.data.length =
      tag.data := by
    have hdrop : (buildFlvTagWire tag ++ more).drop tagHeaderLen =
        tag.data ++ (BigEndian.bytes 4 (11 + UInt32.ofNat tag.data.length).toNat ++ more) := by
      simp only [buildFlvTagWire, List.append_assoc]
      rw [List.drop_append_of_le_length (by rw [length_tagHeader]; decide),
        List.drop_of_length_le (by rw [length_tagHeader]; decide), List.nil_append]
    rw [hdrop, List.take_left]
  simp only [demuxAttempt, Bool.not_true, Bool.false_eq_true, if_false, htype, hdataSize,
    htimestamp, FlvTagType.tryFrom_toByte, hdata, UInt32.ofNat_toNat]
  have hlength : (buildFlvTagWire tag ++ more).length = tag.data.length + 15 + more.length := by
    rw [List.length_append, length_buildFlvTagWire]
  simp only [tagHeaderLen, prevTagSizeLen, hlength]
  rw [if_neg (by omega), if_neg (by omega)]
  congr 1
  omega

/-- The tag phase reads back the wire form of any list of tags. Assumes: every data fits the 24-bit
size field. -/
theorem drain_tagWires (tags : List FlvTag) (more : List UInt8)
    (hsize : ∀ tag ∈ tags, tag.data.length < 2 ^ 24) :
    flvReader.drain true (tags.flatMap buildFlvTagWire ++ more) =
      (flvReader.drain true more).prepend tags := by
  induction tags with
  | nil => rfl
  | cons tag tags ih =>
    have hattempt : flvReader.attempt true
        (buildFlvTagWire tag ++ (tags.flatMap buildFlvTagWire ++ more)) =
          .consume (buildFlvTagWire tag).length true (some tag) := by
      rw [length_buildFlvTagWire]
      exact demuxAttempt_buildFlvTagWire tag _ (hsize tag List.mem_cons_self)
    rw [List.flatMap_cons, List.append_assoc, flvReader.drain_of_consume hattempt, List.drop_left,
      ih fun other hother ↦ hsize other (List.mem_cons_of_mem _ hother)]
    exact Reading.prepend_prepend _ _ _

/-- The balance of the tag phase: the buffer is the emitted tags, eleven bytes for each unknown
type byte, and the leftover. -/
theorem drain_tag_length (buffer : List UInt8) : ∃ unknown : ℕ,
    buffer.length = wireLength (flvReader.drain true buffer).outputs + 11 * unknown +
      (flvReader.drain true buffer).leftover.length := by
  suffices ∀ mode (buffer : List UInt8), mode = true → ∃ unknown : ℕ,
      buffer.length = wireLength (flvReader.drain mode buffer).outputs + 11 * unknown +
        (flvReader.drain mode buffer).leftover.length from this true buffer rfl
  intro mode buffer
  induction mode, buffer using flvReader.drain_induction with
  | await mode buffer hattempt =>
    exact fun _ ↦ ⟨0, by simp [flvReader.drain_of_await hattempt, wireLength]⟩
  | reject mode buffer error hattempt =>
    exact fun _ ↦ ⟨0, by simp [flvReader.drain_of_reject hattempt, wireLength]⟩
  | consume mode buffer count next output hattempt ih =>
    rintro rfl
    rcases demuxAttempt_tag buffer with h | ⟨hlength, _, h⟩ | ⟨tagType, _, htotal, h⟩
    · exact nomatch h.symm.trans hattempt
    · obtain ⟨rfl, rfl, rfl⟩ := Attempt.consume.inj (h.symm.trans hattempt)
      obtain ⟨unknown, hbalance⟩ := ih rfl
      refine ⟨unknown + 1, ?_⟩
      rw [flvReader.drain_of_consume hattempt]
      rw [List.length_drop] at hbalance
      simp only [tagHeaderLen] at hlength hbalance ⊢
      simp only [Option.toList_none, Reading.outputs_prepend, List.nil_append,
        Reading.leftover_prepend]
      omega
    · obtain ⟨rfl, rfl, rfl⟩ := Attempt.consume.inj (h.symm.trans hattempt)
      obtain ⟨unknown, hbalance⟩ := ih rfl
      refine ⟨unknown, ?_⟩
      rw [flvReader.drain_of_consume hattempt]
      rw [List.length_drop] at hbalance
      have hdata : ((buffer.drop tagHeaderLen).take (dataSizeField buffer)).length =
          dataSizeField buffer := by
        rw [List.length_take, List.length_drop]
        omega
      simp only [Option.toList_some, Reading.outputs_prepend, Reading.leftover_prepend,
        wireLength_append]
      simp only [wireLength, List.map_cons, List.map_nil, List.sum_cons, List.sum_nil, hdata]
      simp only [wireLength] at hbalance
      simp only [tagHeaderLen, prevTagSizeLen] at htotal hbalance ⊢
      omega

/-- The header phase on a served stream skips four bytes. -/
theorem demuxAttempt_relayStream (tags : List FlvTag) :
    demuxAttempt false (relayStream tags) = .consume 4 true none := by
  have hlength : (relayStream tags).length = 13 + wireLength tags := by
    rw [relayStream, List.length_append, length_flatMap_buildFlvTagWire, length_buildFlvHeader]
  have hskip : headerSkip (relayStream tags) = 4 := rfl
  rcases demuxAttempt_header (relayStream tags) with h | h | h | ⟨_, _, _, h⟩
  · simp only [flvHeaderLen, hlength] at h
    omega
  · exact absurd rfl h.2.1
  · rw [hskip, hlength] at h
    omega
  · rw [h, hskip]

/-- A relayed stream is not recovered. Assumes: chunks that carry the stream an agent serves for a
list of tags. The pull does not end with exactly these tags emitted, no error and an empty
buffer. -/
theorem pullFlvStream_relay_ne (tags : List FlvTag) {chunks : List (List UInt8)}
    (hstream : chunks.flatten = relayStream tags) (stamps : ℕ → UInt64) :
    ¬ ((steadyPull stamps chunks).emitted.map FlvTagPacket.toFlvTag = tags ∧
      (steadyPull stamps chunks).result = .ok () ∧ (steadyPull stamps chunks).buffer = []) := by
  rintro ⟨hrecovered, hok, hempty⟩
  obtain ⟨hemitted, -, hresult, unread, hleftover, hunread⟩ := pullFlvStream_chunks stamps chunks
  have herror : (flvReader.drain false chunks.flatten).error = none := by
    cases herror : (flvReader.drain false chunks.flatten).error with
    | none => rfl
    | some error => rw [hresult, herror] at hok; exact nomatch hok
  rw [hempty, hunread herror, List.append_nil] at hleftover
  rw [hrecovered] at hemitted
  have hdrain := flvReader.drain_of_consume
    (show flvReader.attempt false (relayStream tags) = _ from demuxAttempt_relayStream tags)
  rw [hstream, hdrain] at hemitted hleftover
  -- Four of the thirteen header bytes are skipped; the other nine cannot be multiples of eleven.
  obtain ⟨unknown, hbalance⟩ := drain_tag_length ((relayStream tags).drop 4)
  have houtputs : (flvReader.drain true ((relayStream tags).drop 4)).outputs = tags :=
    hemitted.symm
  have hnothing : (flvReader.drain true ((relayStream tags).drop 4)).leftover = [] := hleftover
  rw [houtputs, hnothing, List.length_drop, relayStream, List.length_append,
    length_flatMap_buildFlvTagWire, length_buildFlvHeader, List.length_nil] at hbalance
  omega

/-- A witness of the failing relay: one empty audio tag, in one chunk. -/
theorem pullFlvStream_relay_ne_witness :
    ¬ ((steadyPull (fun _ ↦ 0) [relayStream [⟨.audio, 0, []⟩]]).emitted.map
        FlvTagPacket.toFlvTag = [⟨.audio, 0, []⟩] ∧
      (steadyPull (fun _ ↦ 0) [relayStream [⟨.audio, 0, []⟩]]).result = .ok () ∧
      (steadyPull (fun _ ↦ 0) [relayStream [⟨.audio, 0, []⟩]]).buffer = []) :=
  pullFlvStream_relay_ne [⟨.audio, 0, []⟩] (List.flatten_singleton ..) fun _ ↦ 0

/-- On the stream of one empty audio tag the puller emits nothing and keeps two bytes. -/
theorem pullFlvStream_relay_counterexample :
    (steadyPull (fun _ ↦ 0) [relayStream [⟨.audio, 0, []⟩]]).emitted = [] ∧
      (steadyPull (fun _ ↦ 0) [relayStream [⟨.audio, 0, []⟩]]).buffer = [0, 11] ∧
      (steadyPull (fun _ ↦ 0) [relayStream [⟨.audio, 0, []⟩]]).emitted.map
        FlvTagPacket.toFlvTag ≠ [⟨.audio, 0, []⟩] := by
  decide

end LiveCDN.Agent.FlvDemuxer
