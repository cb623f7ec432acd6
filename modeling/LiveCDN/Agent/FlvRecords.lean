import LiveCDN.Agent.FlvDemuxer

/-!
# Records through the FLV puller

What the tag phase of `pull_flv_stream` makes of the records of a stream. `FlvRecord` is a record of
any type. A record of a known type is emitted unchanged (`drain_record`). Of a record of another
type only the header is taken off, and its data are read as headers. So the records of other types
are skipped whole exactly when the data of each of them are seven bytes longer than a multiple of
eleven and have no known type byte where a header would start (`recordsSkipped_iff`).

A stream on which the loop meets no unknown type byte comes out of `buildFlvTagWire` as it went in,
up to the stream ids and the trailing sizes, which are written anew (`remux_eq`).
-/

set_option autoImplicit false
set_option relaxedAutoImplicit false

namespace LiveCDN.Agent.FlvRecords

open Library Library.IncrementalReader FlvFormat FlvDemuxer

/-! ### Records -/

/-- A record of an FLV stream. Its stream id and the size behind its data are any bytes: the puller
reads neither. -/
structure FlvRecord where
  typeByte : UInt8
  timestampMs : UInt32
  streamId : List UInt8
  length_streamId : streamId.length = 3
  data : List UInt8
  length_data_lt : data.length < 2 ^ 24
  prevTagSize : List UInt8
  length_prevTagSize : prevTagSize.length = 4

namespace FlvRecord

/-- The header up to the stream id: type, data size, timestamp and its extension. -/
def fields (record : FlvRecord) : List UInt8 :=
  [record.typeByte] ++ BigEndian.bytes 3 record.data.length ++
    BigEndian.bytes 3 record.timestampMs.toNat ++
      [UInt8.ofNat (record.timestampMs.toNat / 2 ^ 24)]

/-- What follows the header. -/
def body (record : FlvRecord) : List UInt8 := record.data ++ record.prevTagSize

/-- The bytes of a record. -/
def bytes (record : FlvRecord) : List UInt8 := record.fields ++ record.streamId ++ record.body

/-- The tag that a record of a known type carries. -/
def tag? (record : FlvRecord) : Option FlvTag :=
  (FlvTagType.tryFrom record.typeByte).toOption.map fun tagType ↦
    ⟨tagType, record.timestampMs, record.data⟩

/-- The record with the stream id zero and the size of its header and data behind it. -/
def mended (record : FlvRecord) : FlvRecord :=
  { record with
    streamId := [0, 0, 0]
    length_streamId := rfl
    prevTagSize := BigEndian.bytes 4 (11 + record.data.length)
    length_prevTagSize := BigEndian.length_bytes _ _ }

/-- A record of a known type carries a tag with its fields. -/
theorem tag?_eq_some_iff {record : FlvRecord} {tag : FlvTag} :
    record.tag? = some tag ↔ ∃ tagType, FlvTagType.tryFrom record.typeByte = .ok tagType ∧
      tag = ⟨tagType, record.timestampMs, record.data⟩ := by
  unfold tag?
  cases FlvTagType.tryFrom record.typeByte with
  | error byte => exact iff_of_false nofun nofun
  | ok tagType =>
    constructor
    · intro htag
      exact ⟨tagType, rfl, (Option.some.inj htag).symm⟩
    · rintro ⟨_, ⟨⟩, rfl⟩
      rfl

/-- A record of another type carries none. -/
theorem tag?_eq_none_iff {record : FlvRecord} :
    record.tag? = none ↔ ∃ byte, FlvTagType.tryFrom record.typeByte = .error byte := by
  unfold tag?
  cases FlvTagType.tryFrom record.typeByte with
  | error byte => exact iff_of_true rfl ⟨byte, rfl⟩
  | ok tagType => exact iff_of_false nofun nofun

@[simp] theorem length_fields (record : FlvRecord) : record.fields.length = 8 := rfl

@[simp] theorem length_body (record : FlvRecord) :
    record.body.length = record.data.length + 4 := by
  rw [body, List.length_append, record.length_prevTagSize]

@[simp] theorem length_header (record : FlvRecord) :
    (record.fields ++ record.streamId).length = tagHeaderLen := by
  rw [List.length_append, length_fields, record.length_streamId, tagHeaderLen]

/-- A record takes 15 bytes more than its data. -/
@[simp] theorem length_bytes (record : FlvRecord) :
    record.bytes.length = record.data.length + 15 := by
  rw [bytes, List.length_append, length_header, length_body, tagHeaderLen]
  omega

/-- What a buffer that begins with a record holds at the places of the fields. -/
theorem fields_eq (record : FlvRecord) (more : List UInt8) :
    (record.bytes ++ more).getD 0 0 = record.typeByte ∧
      dataSizeField (record.bytes ++ more) = record.data.length ∧
      timestampField (record.bytes ++ more) = record.timestampMs.toNat := by
  have hsize := record.length_data_lt
  have htimestamp := record.timestampMs.toNat_lt
  refine ⟨rfl, ?_, ?_⟩
  · rw [dataSizeField_eq]
    simp only [bytes, fields, BigEndian.bytes, List.nil_append, List.cons_append,
      List.getD_cons_succ, List.getD_cons_zero, UInt8.toNat_ofNat']
    omega
  · rw [timestampField_eq]
    simp only [bytes, fields, BigEndian.bytes, List.nil_append, List.cons_append,
      List.getD_cons_succ, List.getD_cons_zero, UInt8.toNat_ofNat']
    omega

end FlvRecord

/-! ### One record -/

/-- The round at a known type byte whose record has arrived. -/
theorem attempt_of_known {buffer : List UInt8} {tagType : FlvTagType}
    (htype : FlvTagType.tryFrom (buffer.getD 0 0) = .ok tagType)
    (htotal : tagHeaderLen + dataSizeField buffer + prevTagSizeLen ≤ buffer.length) :
    flvReader.attempt true buffer =
      .consume (tagHeaderLen + dataSizeField buffer + prevTagSizeLen) true
        (some ⟨tagType, UInt32.ofNat (timestampField buffer),
          (buffer.drop tagHeaderLen).take (dataSizeField buffer)⟩) := by
  simp only [flvReader, demuxAttempt, Bool.not_true, Bool.false_eq_true, if_false, htype]
  rw [if_neg (by omega), if_neg (by omega)]

/-- The round at an unknown type byte takes a header off. -/
theorem attempt_of_unknown {buffer : List UInt8} {byte : UInt8}
    (htype : FlvTagType.tryFrom (buffer.getD 0 0) = .error byte)
    (hlength : tagHeaderLen ≤ buffer.length) :
    flvReader.attempt true buffer = .consume tagHeaderLen true none := by
  simp only [flvReader, demuxAttempt, Bool.not_true, Bool.false_eq_true, if_false, htype]
  rw [if_neg (by omega)]

/-- A record of a known type in front is emitted, and the loop goes on behind it. -/
theorem drain_of_tag {record : FlvRecord} {tag : FlvTag} (htag : record.tag? = some tag)
    (more : List UInt8) :
    flvReader.drain true (record.bytes ++ more) = (flvReader.drain true more).prepend [tag] := by
  obtain ⟨hbyte, hsize, htimestamp⟩ := record.fields_eq more
  have hdata : ((record.bytes ++ more).drop tagHeaderLen).take record.data.length =
      record.data := by
    rw [FlvRecord.bytes, FlvRecord.body, List.append_assoc, List.drop_left' record.length_header,
      List.append_assoc, List.take_left]
  obtain ⟨tagType, htype, rfl⟩ := FlvRecord.tag?_eq_some_iff.mp htag
  have hconsumed : tagHeaderLen + dataSizeField (record.bytes ++ more) + prevTagSizeLen =
      record.bytes.length := by
    rw [hsize, record.length_bytes, tagHeaderLen, prevTagSizeLen]
    omega
  have hattempt := attempt_of_known (hbyte ▸ htype)
    (hconsumed.trans_le (by rw [List.length_append]; omega))
  rw [hconsumed, hsize, htimestamp, hdata, UInt32.ofNat_toNat] at hattempt
  rw [flvReader.drain_of_consume hattempt, List.drop_left]
  rfl

/-- Of a record of another type in front the header is taken off, and its data are read next. -/
theorem drain_of_unknown {record : FlvRecord} (htag : record.tag? = none) (more : List UInt8) :
    flvReader.drain true (record.bytes ++ more) = flvReader.drain true (record.body ++ more) := by
  obtain ⟨byte, htype⟩ := FlvRecord.tag?_eq_none_iff.mp htag
  have hlength : tagHeaderLen ≤ (record.bytes ++ more).length := by
    rw [List.length_append, record.length_bytes, tagHeaderLen]
    omega
  have hattempt := attempt_of_unknown ((record.fields_eq more).1 ▸ htype) hlength
  rw [flvReader.drain_of_consume hattempt, FlvRecord.bytes, List.append_assoc,
    List.drop_left' record.length_header]
  rfl

/-! ### Bytes that are read as headers -/

/-- The loop takes the bytes off as headers of unknown types and nothing is left. -/
def ReadAsHeaders (bytes : List UInt8) : Prop :=
  bytes.length % 11 = 0 ∧
    ∀ i < bytes.length, i % 11 = 0 → (FlvTagType.tryFrom (bytes.getD i 0)).isOk = false

/-- Behind a header of an unknown type the rest is read as headers exactly when all of it is. -/
theorem readAsHeaders_drop_iff {bytes : List UInt8} {byte : UInt8}
    (htype : FlvTagType.tryFrom (bytes.getD 0 0) = .error byte)
    (hlength : tagHeaderLen ≤ bytes.length) :
    ReadAsHeaders (bytes.drop tagHeaderLen) ↔ ReadAsHeaders bytes := by
  unfold ReadAsHeaders
  simp only [tagHeaderLen] at hlength
  have hgetD (i : ℕ) : (bytes.drop 11).getD i 0 = bytes.getD (11 + i) 0 := by
    rw [List.getD_eq_getElem?_getD, List.getElem?_drop, List.getD_eq_getElem?_getD]
  simp only [tagHeaderLen, List.length_drop, hgetD]
  refine and_congr (by omega) ⟨fun hrest i hi heleven ↦ ?_, fun hall i hi heleven ↦ ?_⟩
  · rcases Nat.eq_zero_or_pos i with rfl | hpos
    · rw [htype]
      rfl
    · have hbyte := hrest (i - 11) (by omega) (by omega)
      rwa [show 11 + (i - 11) = i by omega] at hbyte
  · exact hall (11 + i) (by omega) (by omega)

/-- Bytes that begin with a known type byte are emitted or left. -/
theorem drain_ne_nothing_of_known {bytes : List UInt8} {tagType : FlvTagType}
    (htype : FlvTagType.tryFrom (bytes.getD 0 0) = .ok tagType)
    (hlength : tagHeaderLen ≤ bytes.length) :
    ¬ ((flvReader.drain true bytes).outputs = [] ∧ (flvReader.drain true bytes).leftover = []) := by
  rintro ⟨houtputs, hleftover⟩
  obtain hawait | ⟨_, hbyte, _⟩ | ⟨_, _, _, hconsume⟩ := demuxAttempt_tag bytes
  · rw [flvReader.drain_of_await (show flvReader.attempt true bytes = _ from hawait)] at hleftover
    rw [show bytes = [] from hleftover] at hlength
    exact absurd hlength (by decide)
  · cases hbyte.symm.trans htype
  · rw [flvReader.drain_of_consume (show flvReader.attempt true bytes = _ from hconsume)]
      at houtputs
    exact absurd houtputs (List.cons_ne_nil _ _)

/-- Bytes that are no whole header are left. -/
theorem drain_of_lt {bytes : List UInt8} (hlength : bytes.length < tagHeaderLen) :
    flvReader.drain true bytes = ⟨[], true, bytes, none⟩ := by
  refine flvReader.drain_of_await ?_
  simp only [flvReader, demuxAttempt, Bool.not_true, Bool.false_eq_true, if_false]
  rw [if_pos hlength]

/-- The loop emits nothing and leaves nothing exactly when it reads all bytes as headers. -/
theorem drain_eq_nothing_iff (bytes : List UInt8) :
    ((flvReader.drain true bytes).outputs = [] ∧ (flvReader.drain true bytes).leftover = []) ↔
      ReadAsHeaders bytes := by
  induction hcount : bytes.length using Nat.strong_induction_on generalizing bytes with
  | _ count ih =>
    by_cases hlength : tagHeaderLen ≤ bytes.length
    · cases htype : FlvTagType.tryFrom (bytes.getD 0 0) with
      | error byte =>
        have hshorter : (bytes.drop tagHeaderLen).length < count := by
          rw [List.length_drop, hcount]
          simp only [tagHeaderLen] at hlength ⊢
          omega
        rw [flvReader.drain_of_consume (attempt_of_unknown htype hlength),
          ← readAsHeaders_drop_iff htype hlength]
        exact ih _ hshorter _ rfl
      | ok tagType =>
        refine iff_of_false (drain_ne_nothing_of_known htype hlength) ?_
        rintro ⟨-, hunknown⟩
        have hzero := hunknown 0 (by simp only [tagHeaderLen] at hlength; omega) rfl
        rw [htype] at hzero
        cases hzero
    · rw [drain_of_lt (not_le.mp hlength)]
      simp only [tagHeaderLen] at hlength
      constructor
      · rintro ⟨-, hempty⟩
        rw [show bytes = [] from hempty]
        exact ⟨rfl, fun i hi ↦ absurd hi i.not_lt_zero⟩
      · rintro ⟨hmod, -⟩
        exact ⟨rfl, show bytes = [] from List.length_eq_zero_iff.mp (by omega)⟩

/-- The data of a record are read as headers with the size behind them: they are seven bytes longer
than a multiple of eleven and have no known type byte where a header would start. -/
def FlvRecord.Skippable (record : FlvRecord) : Prop :=
  record.data.length % 11 = 7 ∧
    ∀ i < record.data.length, i % 11 = 0 →
      (FlvTagType.tryFrom (record.data.getD i 0)).isOk = false

/-- What follows the header of a record is read as headers exactly when its data allow it: the last
of these headers starts in the data. -/
theorem readAsHeaders_body_iff (record : FlvRecord) :
    ReadAsHeaders record.body ↔ record.Skippable := by
  unfold ReadAsHeaders FlvRecord.Skippable
  rw [record.length_body]
  have hgetD (i : ℕ) (hi : i < record.data.length) :
      record.body.getD i 0 = record.data.getD i 0 := List.getD_append _ _ _ _ hi
  constructor
  · rintro ⟨hmod, hunknown⟩
    refine ⟨by omega, fun i hi heleven ↦ ?_⟩
    rw [← hgetD i hi]
    exact hunknown i (by omega) heleven
  · rintro ⟨hmod, hunknown⟩
    refine ⟨by omega, fun i hi heleven ↦ ?_⟩
    have hinside : i < record.data.length := by omega
    rw [hgetD i hinside]
    exact hunknown i hinside heleven

/-! ### Streams of records -/

/-- The tag phase from an empty buffer, on chunks that arrive without an error or a stop. -/
def tagPhase (stamps : ℕ → UInt64) (tagCounter : ℕ) (chunks : List (List UInt8)) : PullOutcome :=
  pullChunks stamps tagCounter true [] (steadyArrivals chunks)

/-- The tag phase on chunks is one drain of the whole stream. -/
theorem tagPhase_eq_drain (stamps : ℕ → UInt64) (tagCounter : ℕ) (chunks : List (List UInt8)) :
    (tagPhase stamps tagCounter chunks).emitted.map FlvTagPacket.toFlvTag =
        (flvReader.drain true chunks.flatten).outputs ∧
      (tagPhase stamps tagCounter chunks).buffer =
        (flvReader.drain true chunks.flatten).leftover ∧
      (tagPhase stamps tagCounter chunks).result = .ok () := by
  have hstart : flvReader.attempt true [] = .await := rfl
  obtain ⟨unread, hdrain, hunread⟩ := flvReader.readChunks_eq_drain chunks hstart
  obtain ⟨hemitted, -, hbuffer, hresult⟩ :=
    pullChunks_steadyArrivals stamps tagCounter true [] chunks
  rw [List.nil_append] at hdrain
  have herror : (flvReader.readChunks true [] chunks).error = none := by
    rw [← drain_tag_error chunks.flatten, hdrain]
  rw [hunread herror, List.append_nil] at hdrain
  rw [herror] at hresult
  rw [hdrain]
  exact ⟨hemitted, hbuffer, hresult⟩

/-- The records of the known types are emitted in order and unchanged, and behind each record, one
of another type as well, the puller is at the next one: whichever first part of the stream has
arrived, and however it is cut into chunks, these are the tags and the buffer is empty. -/
def RecordsSkipped (records : List FlvRecord) : Prop :=
  ∀ front, front <+: records → ∀ (stamps : ℕ → UInt64) (tagCounter : ℕ)
    (chunks : List (List UInt8)), chunks.flatten = front.flatMap FlvRecord.bytes →
      (tagPhase stamps tagCounter chunks).emitted.map FlvTagPacket.toFlvTag =
          front.filterMap FlvRecord.tag? ∧
        (tagPhase stamps tagCounter chunks).buffer = [] ∧
        (tagPhase stamps tagCounter chunks).result = .ok ()

/-- A drain of records that comes to their tags and leaves nothing. -/
def DrainsTo (records : List FlvRecord) : Prop :=
  (flvReader.drain true (records.flatMap FlvRecord.bytes)).outputs =
      records.filterMap FlvRecord.tag? ∧
    (flvReader.drain true (records.flatMap FlvRecord.bytes)).leftover = []

/-- The records are skipped when each first part of the stream drains to its tags. -/
theorem recordsSkipped_iff_drainsTo (records : List FlvRecord) :
    RecordsSkipped records ↔ ∀ front, front <+: records → DrainsTo front := by
  refine forall₂_congr fun front _ ↦ ⟨fun hall ↦ ?_, ?_⟩
  · have hflatten : [front.flatMap FlvRecord.bytes].flatten = front.flatMap FlvRecord.bytes :=
      List.flatten_singleton
    obtain ⟨hemitted, hbuffer, -⟩ := tagPhase_eq_drain (fun _ ↦ 0) 0
      [front.flatMap FlvRecord.bytes]
    obtain ⟨htags, hempty, -⟩ := hall (fun _ ↦ 0) 0 _ hflatten
    rw [hflatten] at hemitted hbuffer
    exact ⟨hemitted.symm.trans htags, hbuffer.symm.trans hempty⟩
  · rintro ⟨htags, hempty⟩ stamps tagCounter chunks hflatten
    obtain ⟨hemitted, hbuffer, hresult⟩ := tagPhase_eq_drain stamps tagCounter chunks
    rw [hflatten] at hemitted hbuffer
    exact ⟨hemitted.trans htags, hbuffer.trans hempty, hresult⟩

/-- One record more drains to its tags exactly when it carries a tag or can be skipped. Assumes: the
records before it drain to theirs. -/
theorem drainsTo_concat_iff {records : List FlvRecord} (hdrains : DrainsTo records)
    (record : FlvRecord) :
    DrainsTo (records ++ [record]) ↔ (record.tag? = none → record.Skippable) := by
  obtain ⟨houtputs, hleftover⟩ := hdrains
  have hmode : (flvReader.drain true (records.flatMap FlvRecord.bytes)).mode = true :=
    drain_tag_mode _
  have hbytes : (records ++ [record]).flatMap FlvRecord.bytes =
      records.flatMap FlvRecord.bytes ++ record.bytes := by
    rw [List.flatMap_append, List.flatMap_singleton]
  unfold DrainsTo
  rw [hbytes, flvReader.drain_append record.bytes (drain_tag_error _), hmode, hleftover,
    List.nil_append, Reading.outputs_prepend, Reading.leftover_prepend, houtputs,
    List.filterMap_append]
  cases htag : record.tag? with
  | some tag =>
    have hdrain := drain_of_tag htag []
    rw [List.append_nil] at hdrain
    rw [hdrain]
    refine iff_of_true ⟨?_, rfl⟩ nofun
    rw [List.filterMap_cons_some htag]
    rfl
  | none =>
    have hdrain := drain_of_unknown htag []
    rw [List.append_nil, List.append_nil] at hdrain
    rw [hdrain, List.filterMap_cons_none htag, List.filterMap_nil, List.append_cancel_left_eq,
      drain_eq_nothing_iff, readAsHeaders_body_iff]
    exact ⟨fun hskippable _ ↦ hskippable, fun hskippable ↦ hskippable rfl⟩

/-- The records of other types are skipped whole, and the others emitted, exactly when the data of
each record of another type are seven bytes longer than a multiple of eleven and have no known type
byte where a header would start. -/
theorem recordsSkipped_iff (records : List FlvRecord) :
    RecordsSkipped records ↔ ∀ record ∈ records, record.tag? = none → record.Skippable := by
  rw [recordsSkipped_iff_drainsTo]
  induction records using List.reverseRecOn with
  | nil =>
    refine iff_of_true (fun front hfront ↦ ?_) nofun
    rw [List.prefix_nil.mp hfront]
    exact ⟨rfl, rfl⟩
  | append_singleton records record ih =>
    rw [List.forall_mem_append, List.forall_mem_singleton, ← ih]
    constructor
    · intro hall
      have hrecords : ∀ front, front <+: records → DrainsTo front := fun front hfront ↦
        hall front (hfront.trans (List.prefix_append records [record]))
      exact ⟨hrecords, (drainsTo_concat_iff (hrecords records List.prefix_rfl) record).mp
        (hall _ List.prefix_rfl)⟩
    · rintro ⟨hrecords, hlast⟩ front hfront
      rcases List.prefix_concat_iff.mp hfront with rfl | hfront
      · exact (drainsTo_concat_iff (hrecords records List.prefix_rfl) record).mpr hlast
      · exact hrecords front hfront

/-- A record of type 15 with one byte of data, and an audio record behind it. -/
def unknownThenAudio : List FlvRecord :=
  [⟨15, 0, [0, 0, 0], rfl, [1], by decide, [0, 0, 0, 12], rfl⟩,
    ⟨8, 7, [0, 0, 0], rfl, [2], by decide, [0, 0, 0, 12], rfl⟩]

/-- The data of a record of another type are read as headers, and the audio record behind it is not
emitted. -/
theorem recordsSkipped_counterexample : ¬ RecordsSkipped unknownThenAudio := by
  intro hskipped
  have htags := (hskipped unknownThenAudio List.prefix_rfl (fun _ ↦ 0) 0
    [unknownThenAudio.flatMap FlvRecord.bytes] List.flatten_singleton).1
  exact absurd htags (by decide)

/-! ### Tags written out again -/

/-- No round of the tag phase looks at a header with an unknown type byte. -/
def MeetsKnown (chunks : List (List UInt8)) : Prop :=
  ∀ round ∈ flvReader.readRounds true [] chunks,
    tagHeaderLen ≤ round.2.length → (FlvTagType.tryFrom (round.2.getD 0 0)).isOk

/-- The low byte of a number. -/
theorem ofNat_of_mod {number : ℕ} {byte : UInt8} (hnumber : number % 256 = byte.toNat) :
    UInt8.ofNat number = byte := by
  rw [← UInt8.toNat_inj, UInt8.toNat_ofNat']
  exact hnumber

/-- The low three bytes of a number that other bytes spell are these bytes. -/
theorem bytes_three {number : ℕ} {high middle low : UInt8}
    (hnumber : number % 16777216 = high.toNat * 65536 + middle.toNat * 256 + low.toNat) :
    BigEndian.bytes 3 number = [high, middle, low] := by
  have hhigh := high.toNat_lt
  have hmiddle := middle.toNat_lt
  have hlow := low.toNat_lt
  simp only [BigEndian.bytes, List.nil_append, List.cons_append, List.cons.injEq, and_true]
  exact ⟨ofNat_of_mod (by omega), ofNat_of_mod (by omega), ofNat_of_mod (by omega)⟩

/-- The fields of a header as bytes. -/
theorem bytes_fields (buffer : List UInt8) :
    BigEndian.bytes 3 (dataSizeField buffer) =
        [buffer.getD 1 0, buffer.getD 2 0, buffer.getD 3 0] ∧
      BigEndian.bytes 3 (timestampField buffer) =
        [buffer.getD 4 0, buffer.getD 5 0, buffer.getD 6 0] ∧
      UInt8.ofNat (timestampField buffer / 2 ^ 24) = buffer.getD 7 0 := by
  have hbyte (i : ℕ) := (buffer.getD i 0).toNat_lt
  refine ⟨bytes_three ?_, bytes_three ?_, ofNat_of_mod ?_⟩
  · have h1 := hbyte 1
    have h2 := hbyte 2
    have h3 := hbyte 3
    rw [dataSizeField_eq]
    omega
  · have h4 := hbyte 4
    have h5 := hbyte 5
    have h6 := hbyte 6
    rw [timestampField_eq]
    omega
  · have h4 := hbyte 4
    have h5 := hbyte 5
    have h6 := hbyte 6
    have h7 := hbyte 7
    rw [timestampField_eq]
    omega

/-- The fields of a header are as wide as their bytes. -/
theorem fields_lt (buffer : List UInt8) :
    dataSizeField buffer < 2 ^ 24 ∧ timestampField buffer < 2 ^ 32 := by
  have hbyte (i : ℕ) := (buffer.getD i 0).toNat_lt
  rw [dataSizeField_eq, timestampField_eq]
  have h1 := hbyte 1
  have h2 := hbyte 2
  have h3 := hbyte 3
  have h4 := hbyte 4
  have h5 := hbyte 5
  have h6 := hbyte 6
  have h7 := hbyte 7
  omega

/-- The front of a long enough list, element by element. -/
theorem take_eq_map_getD {α : Type*} {list : List α} {count : ℕ} (hcount : count ≤ list.length)
    (default : α) : list.take count = (List.range count).map fun i ↦ list.getD i default := by
  refine List.ext_getElem (by simp [hcount]) fun i hi _ ↦ ?_
  have hlist : i < list.length := (List.length_take ▸ hi).trans_le (min_le_right _ _)
  simp [List.getD_eq_getElem?_getD, hlist]

/-- The first eight bytes of a header, from its fields. -/
theorem take_eight {buffer : List UInt8} (hlength : 8 ≤ buffer.length) :
    buffer.take 8 = [buffer.getD 0 0] ++ BigEndian.bytes 3 (dataSizeField buffer) ++
      BigEndian.bytes 3 (timestampField buffer) ++
        [UInt8.ofNat (timestampField buffer / 2 ^ 24)] := by
  obtain ⟨hsize, htimestamp, hextension⟩ := bytes_fields buffer
  rw [take_eq_map_getD hlength 0, hsize, htimestamp, hextension]
  rfl

/-- A consumed tag was a record of the buffer. -/
theorem exists_record {buffer : List UInt8} {tagType : FlvTagType}
    (htype : FlvTagType.tryFrom (buffer.getD 0 0) = .ok tagType)
    (htotal : tagHeaderLen + dataSizeField buffer + prevTagSizeLen ≤ buffer.length) :
    ∃ record : FlvRecord,
      buffer.take (tagHeaderLen + dataSizeField buffer + prevTagSizeLen) = record.bytes ∧
      record.tag? = some ⟨tagType, UInt32.ofNat (timestampField buffer),
        (buffer.drop tagHeaderLen).take (dataSizeField buffer)⟩ := by
  obtain ⟨hsize, htimestamp⟩ := fields_lt buffer
  simp only [tagHeaderLen, prevTagSizeLen] at htotal ⊢
  have htake (offset width : ℕ) (hinside : offset + width ≤ buffer.length) :
      ((buffer.drop offset).take width).length = width := by
    rw [List.length_take, List.length_drop]
    omega
  have hdata := htake 11 (dataSizeField buffer) (by omega)
  refine ⟨⟨buffer.getD 0 0, UInt32.ofNat (timestampField buffer), (buffer.drop 8).take 3,
    htake 8 3 (by omega), (buffer.drop 11).take (dataSizeField buffer), hdata.trans_lt hsize,
    (buffer.drop (11 + dataSizeField buffer)).take 4, htake _ 4 htotal⟩, ?_, ?_⟩
  · simp only [FlvRecord.bytes, FlvRecord.fields, FlvRecord.body, hdata,
      UInt32.toNat_ofNat_of_lt' htimestamp]
    rw [← take_eight (by omega), List.append_assoc (buffer.take 8),
      show 11 + dataSizeField buffer + 4 = 8 + (3 + (dataSizeField buffer + 4)) by omega,
      List.take_add, List.take_add, List.take_add, List.drop_drop, List.drop_drop]
  · rw [FlvRecord.tag?, htype]
    rfl

/-- The bytes of a drained buffer are records, which carry the emitted tags, and the leftover.
Assumes: no round looks at a header with an unknown type byte. -/
theorem exists_records_drain {buffer : List UInt8}
    (hknown : ∀ round ∈ flvReader.rounds true buffer, tagHeaderLen ≤ round.2.length →
      (FlvTagType.tryFrom (round.2.getD 0 0)).isOk) :
    ∃ records : List FlvRecord,
      buffer = records.flatMap FlvRecord.bytes ++ (flvReader.drain true buffer).leftover ∧
      records.map FlvRecord.tag? = (flvReader.drain true buffer).outputs.map some := by
  induction hcount : buffer.length using Nat.strong_induction_on generalizing buffer with
  | _ count ih =>
    rcases demuxAttempt_tag buffer with hawait | ⟨hlength, htype, -⟩ |
      ⟨tagType, htype, htotal, hconsume⟩
    · rw [flvReader.drain_of_await (show flvReader.attempt true buffer = _ from hawait)]
      exact ⟨[], rfl, rfl⟩
    · have hfirst := hknown _ (flvReader.mem_rounds true buffer) hlength
      rw [htype] at hfirst
      exact nomatch hfirst
    · have hattempt : flvReader.attempt true buffer = _ := hconsume
      rw [flvReader.rounds_of_consume hattempt] at hknown
      obtain ⟨record, hrecord, htag⟩ := exists_record htype htotal
      have hshorter : (buffer.drop (tagHeaderLen + dataSizeField buffer + prevTagSizeLen)).length <
          count := by
        rw [List.length_drop, ← hcount]
        simp only [tagHeaderLen, prevTagSizeLen] at htotal ⊢
        omega
      obtain ⟨records, hbytes, htags⟩ := ih _ hshorter
        (fun round hround ↦ hknown round (List.mem_cons_of_mem _ hround)) rfl
      rw [flvReader.drain_of_consume hattempt]
      refine ⟨record :: records, ?_, ?_⟩
      · rw [List.flatMap_cons, List.append_assoc, ← hrecord, Reading.leftover_prepend, ← hbytes,
          List.take_append_drop]
      · rw [List.map_cons, htag, htags]
        rfl

/-- The bytes of the tag phase are records, which carry the emitted tags, and the buffer at its end.
Assumes: no round looks at a header with an unknown type byte. -/
theorem exists_records_readChunks {buffer : List UInt8} {chunks : List (List UInt8)}
    (hknown : ∀ round ∈ flvReader.readRounds true buffer chunks, tagHeaderLen ≤ round.2.length →
      (FlvTagType.tryFrom (round.2.getD 0 0)).isOk) :
    ∃ records : List FlvRecord,
      buffer ++ chunks.flatten = records.flatMap FlvRecord.bytes ++
        (flvReader.readChunks true buffer chunks).leftover ∧
      records.map FlvRecord.tag? = (flvReader.readChunks true buffer chunks).outputs.map some := by
  induction chunks generalizing buffer with
  | nil => exact ⟨[], List.append_nil _, rfl⟩
  | cons chunk chunks ih =>
    have herror := drain_tag_error (buffer ++ chunk)
    rw [Reader.readRounds] at hknown
    rw [Reader.readChunks]
    simp only [herror, drain_tag_mode] at hknown ⊢
    obtain ⟨hfirst, hrest⟩ := List.forall_mem_append.mp hknown
    obtain ⟨front, hfront, htags⟩ := exists_records_drain hfirst
    obtain ⟨records, hrecords, hrecordTags⟩ := ih hrest
    refine ⟨front ++ records, ?_, ?_⟩
    · calc
        buffer ++ (chunk :: chunks).flatten = buffer ++ chunk ++ chunks.flatten := by
          rw [List.flatten_cons, List.append_assoc]
        _ = front.flatMap FlvRecord.bytes ++
              ((flvReader.drain true (buffer ++ chunk)).leftover ++ chunks.flatten) := by
          conv_lhs => rw [hfront]
          rw [List.append_assoc]
        _ = (front ++ records).flatMap FlvRecord.bytes ++ _ := by
          rw [hrecords, List.flatMap_append, List.append_assoc]
          rfl
    · rw [List.map_append, htags, hrecordTags, ← List.map_append]
      rfl

/-- The header that `build_flv_tag_wire` writes, field by field. Assumes: the data fits the 24-bit
size field. -/
theorem tagHeader_eq (tag : FlvTag) (hsize : tag.data.length < 2 ^ 24) :
    tagHeader tag = [tag.tagType.toByte] ++ BigEndian.bytes 3 tag.data.length ++
      BigEndian.bytes 3 tag.timestampMs.toNat ++
        [UInt8.ofNat (tag.timestampMs.toNat / 2 ^ 24)] ++ [0, 0, 0] := by
  obtain ⟨-, hsizeField, htimestampField⟩ := headerField_buildFlvTagWire tag [] hsize
  obtain ⟨hsizeBytes, htimestampBytes, hextension⟩ := bytes_fields (buildFlvTagWire tag ++ [])
  rw [hsizeField] at hsizeBytes
  rw [htimestampField] at htimestampBytes hextension
  rw [hsizeBytes, htimestampBytes, hextension]
  rfl

/-- The wire form of the tag of a record is the record, mended. -/
theorem buildFlvTagWire_of_tag {record : FlvRecord} {tag : FlvTag}
    (htag : record.tag? = some tag) : buildFlvTagWire tag = record.mended.bytes := by
  have hsize := record.length_data_lt
  obtain ⟨tagType, htype, rfl⟩ := FlvRecord.tag?_eq_some_iff.mp htag
  have htrailer : (11 + UInt32.ofNat record.data.length).toNat = 11 + record.data.length := by
    rw [UInt32.toNat_add, UInt32.toNat_ofNat_of_lt' (hsize.trans (by decide))]
    simp only [UInt32.reduceToNat]
    omega
  rw [buildFlvTagWire, tagHeader_eq _ hsize, htrailer, FlvTagType.toByte_of_tryFrom htype,
    FlvRecord.bytes, FlvRecord.body, List.append_assoc _ record.data]
  rfl

/-- The wire forms of the tags of records are the records, mended. -/
theorem flatMap_buildFlvTagWire {records : List FlvRecord} {tags : List FlvTag}
    (htags : records.map FlvRecord.tag? = tags.map some) :
    tags.flatMap buildFlvTagWire = records.flatMap fun record ↦ record.mended.bytes := by
  induction records generalizing tags with
  | nil =>
    rw [List.map_eq_nil_iff.mp htags.symm]
    rfl
  | cons record records ih =>
    obtain ⟨tag, rest, rfl, htag, hrest⟩ := List.map_eq_cons_iff.mp htags.symm
    rw [List.flatMap_cons, List.flatMap_cons, buildFlvTagWire_of_tag htag.symm, ih hrest.symm]

/-- The tags of the tag phase, written out again, are the bytes it consumed. Assumes: no round of it
looks at a header with an unknown type byte. What it has consumed are records; what is written is
these records, each with the stream id zero and the size of its header and data behind it, in as
many bytes; and what it has not consumed is in the buffer. -/
theorem remux_eq (stamps : ℕ → UInt64) (tagCounter : ℕ) {chunks : List (List UInt8)}
    (hknown : MeetsKnown chunks) :
    ∃ records : List FlvRecord,
      chunks.flatten =
        records.flatMap FlvRecord.bytes ++ (tagPhase stamps tagCounter chunks).buffer ∧
      (tagPhase stamps tagCounter chunks).emitted.flatMap (fun packet ↦
          buildFlvTagWire packet.toFlvTag) =
        records.flatMap (fun record ↦ record.mended.bytes) ∧
      (records.flatMap fun record ↦ record.mended.bytes).length =
        (records.flatMap FlvRecord.bytes).length := by
  obtain ⟨records, hbytes, htags⟩ := exists_records_readChunks hknown
  obtain ⟨hemitted, -, hbuffer, -⟩ := pullChunks_steadyArrivals stamps tagCounter true [] chunks
  refine ⟨records, ?_, ?_, ?_⟩
  · rw [tagPhase, hbuffer, ← hbytes, List.nil_append]
  · rw [← flatMap_buildFlvTagWire htags, tagPhase, ← hemitted, List.flatMap_map]
  · simp only [List.length_flatMap, FlvRecord.length_bytes]
    rfl

/-- A witness: an audio record whose stream id is not zero, in two chunks, and the start of
another. -/
theorem remux_eq_twoChunks :
    ∃ records : List FlvRecord,
      [[8, 0, 0, 1, 0, 0, 7], [0, 1, 2, 3, 42, 0, 0, 0, 0, 9]].flatten =
        records.flatMap FlvRecord.bytes ++
          (tagPhase (fun _ ↦ 0) 0 [[8, 0, 0, 1, 0, 0, 7], [0, 1, 2, 3, 42, 0, 0, 0, 0, 9]]).buffer ∧
      (tagPhase (fun _ ↦ 0) 0
          [[8, 0, 0, 1, 0, 0, 7], [0, 1, 2, 3, 42, 0, 0, 0, 0, 9]]).emitted.flatMap (fun packet ↦
          buildFlvTagWire packet.toFlvTag) =
        records.flatMap (fun record ↦ record.mended.bytes) ∧
      (records.flatMap fun record ↦ record.mended.bytes).length =
        (records.flatMap FlvRecord.bytes).length :=
  remux_eq (fun _ ↦ 0) 0 (by unfold MeetsKnown; decide)

end LiveCDN.Agent.FlvRecords
