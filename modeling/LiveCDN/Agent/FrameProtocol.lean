import LiveCDN.Library.BigEndian
import LiveCDN.Library.IncrementalReader

/-!
# The binary frame protocol of the agent

`protocol/mod.rs`. A frame is encoded with a 21-byte header that carries a version byte;
`Frame.decode` also accepts the 20-byte header of version 2, recognised by a value below 3 where the
version byte stands. The two layouts differ by the position of the type byte, so `decodeBody` takes
that position and `Frame.decode` and `Frame.decodeV2` instantiate it.

A decision of `Frame.decode` on a buffer stands when more bytes arrive (`decode_append`), which
makes it a reader (`frameReader`); `decodeAll` applies it repeatedly to a whole buffer.
`FrameDecoder` is the incremental decoder. `run_decodeAll` is the invariant of an
interleaving of `feed` and `decode` calls: the frames obtained so far, followed by what decoding the
buffer would give, are what decoding all bytes fed so far gives. `frameDecoder_eq_decodeAll` is the
resulting equivalence, and `decodeAll_encode` the round trip for encoded frames.

The encoder has no limit on the payload and the decoder has one: `newWithTs_roundTrip_iff` says that
a frame survives the round trip exactly up to `maxFrameSize`.
-/

set_option autoImplicit false
set_option relaxedAutoImplicit false

namespace LiveCDN.Agent.FrameProtocol

open Library Library.IncrementalReader

/-! ### Frames -/

/-- `PROTOCOL_VERSION`. -/
def protocolVersion : UInt8 := 3

/-- `MAGIC`, the first two letters of an HTTP header. -/
def magic : List UInt8 := [0x48, 0x54]

/-- `HEADER_SIZE`. -/
def headerSize : ℕ := 21

/-- `V2_HEADER_SIZE`. -/
def v2HeaderSize : ℕ := 20

/-- `MAX_FRAME_SIZE`, one MiB. -/
def maxFrameSize : ℕ := 1 <<< 20

/-- `FrameType`. -/
inductive FrameType
  | handshake
  | data
  | heartbeat
  | close
  | keyUpdate
  | wakeup
  | sleep
  deriving DecidableEq, Repr

/-- The errors of `ProtocolError` that decoding constructs. -/
inductive ProtocolError
  | invalidMagic (first second : UInt8)
  | invalidFrameType (value : UInt8)
  | payloadTooLarge (length : ℕ)
  deriving DecidableEq, Repr

/-- The discriminant of a frame type, `frame_type as u8`. -/
def FrameType.toByte : FrameType → UInt8
  | .handshake => 0x01
  | .data => 0x02
  | .heartbeat => 0x03
  | .close => 0x04
  | .keyUpdate => 0x05
  | .wakeup => 0x06
  | .sleep => 0x07

/-- `FrameType::try_from`. -/
def FrameType.tryFrom (v : UInt8) : Except ProtocolError FrameType :=
  if v = 0x01 then .ok .handshake
  else if v = 0x02 then .ok .data
  else if v = 0x03 then .ok .heartbeat
  else if v = 0x04 then .ok .close
  else if v = 0x05 then .ok .keyUpdate
  else if v = 0x06 then .ok .wakeup
  else if v = 0x07 then .ok .sleep
  else .error (.invalidFrameType v)

@[simp] theorem FrameType.tryFrom_toByte (frameType : FrameType) :
    FrameType.tryFrom frameType.toByte = .ok frameType := by
  cases frameType <;> rfl

/-- Only the discriminant of a frame type is read as that type. -/
theorem FrameType.tryFrom_eq_ok_iff {v : UInt8} {frameType : FrameType} :
    FrameType.tryFrom v = .ok frameType ↔ v = frameType.toByte := by
  constructor
  · intro htype
    unfold FrameType.tryFrom at htype
    split_ifs at htype with h1 h2 h3 h4 h5 h6 h7
    all_goals
      obtain rfl := Except.ok.inj htype
      assumption
  · rintro rfl
    exact FrameType.tryFrom_toByte frameType

/-- `Frame`. -/
structure Frame where
  version : UInt8
  frameType : FrameType
  flags : UInt8
  seq : UInt32
  originTs : UInt64
  payload : List UInt8
  deriving DecidableEq, Repr

/-- `Frame::new_with_ts`. -/
def Frame.newWithTs (frameType : FrameType) (seq : UInt32) (originTs : UInt64)
    (payload : List UInt8) : Frame :=
  ⟨protocolVersion, frameType, 0, seq, originTs, payload⟩

/-- `Frame::new`: a frame without an origin timestamp. -/
def Frame.new (frameType : FrameType) (seq : UInt32) (payload : List UInt8) : Frame :=
  Frame.newWithTs frameType seq 0 payload

/-- `Frame::encode`. The length field holds the payload length modulo `2 ^ 32`. -/
def Frame.encode (frame : Frame) : List UInt8 :=
  magic ++ ([frame.version, frame.frameType.toByte, frame.flags] ++
    (BigEndian.bytes 4 frame.seq.toNat ++ (BigEndian.bytes 8 frame.originTs.toNat ++
      (BigEndian.bytes 4 (UInt32.ofNat frame.payload.length).toNat ++ frame.payload))))

/-- What `decode` and `decode_v2` do once the layout is known: `start` is the position of the type
byte, and the header ends 18 bytes later. -/
def decodeBody (version : UInt8) (start : ℕ) (data : List UInt8) :
    Except ProtocolError (Option (Frame × ℕ)) :=
  match FrameType.tryFrom (data.getD start 0) with
  | .error error => .error error
  | .ok frameType =>
    let flags := data.getD (start + 1) 0
    let seq := UInt32.ofNat (BigEndian.field data (start + 2) 4)
    let originTs := UInt64.ofNat (BigEndian.field data (start + 6) 8)
    let payloadLen := BigEndian.field data (start + 14) 4
    if payloadLen > maxFrameSize then .error (.payloadTooLarge payloadLen)
    else
      let totalLen := start + 18 + payloadLen
      if data.length < totalLen then .ok none
      else
        let payload := (data.drop (start + 18)).take payloadLen
        .ok (some (⟨version, frameType, flags, seq, originTs, payload⟩, totalLen))

/-- `Frame::decode_v2`: the 20-byte header without a version byte. -/
def Frame.decodeV2 (data : List UInt8) : Except ProtocolError (Option (Frame × ℕ)) :=
  if data.length < v2HeaderSize then .ok none
  else decodeBody 2 2 data

/-- `Frame::decode`: a frame and the bytes it took, `none` when more bytes are needed. -/
def Frame.decode (data : List UInt8) : Except ProtocolError (Option (Frame × ℕ)) :=
  if data.length < headerSize then .ok none
  else if data.getD 0 0 ≠ magic.getD 0 0 ∨ data.getD 1 0 ≠ magic.getD 1 0 then
    .error (.invalidMagic (data.getD 0 0) (data.getD 1 0))
  else
    let version := data.getD 2 0
    if version < 3 then Frame.decodeV2 data
    else decodeBody version 3 data

/-! ### Decisions are not revised -/

/-- What decoding a body can do. -/
theorem decodeBody_cases (version : UInt8) (start : ℕ) (data : List UInt8) :
    (∃ error, FrameType.tryFrom (data.getD start 0) = .error error ∧
      decodeBody version start data = .error error) ∨
    ∃ frameType, FrameType.tryFrom (data.getD start 0) = .ok frameType ∧
      ((maxFrameSize < BigEndian.field data (start + 14) 4 ∧
          decodeBody version start data =
            .error (.payloadTooLarge (BigEndian.field data (start + 14) 4))) ∨
        (BigEndian.field data (start + 14) 4 ≤ maxFrameSize ∧
          data.length < start + 18 + BigEndian.field data (start + 14) 4 ∧
          decodeBody version start data = .ok none) ∨
        (BigEndian.field data (start + 14) 4 ≤ maxFrameSize ∧
          start + 18 + BigEndian.field data (start + 14) 4 ≤ data.length ∧
          decodeBody version start data =
            .ok (some (⟨version, frameType, data.getD (start + 1) 0,
              UInt32.ofNat (BigEndian.field data (start + 2) 4),
              UInt64.ofNat (BigEndian.field data (start + 6) 8),
              (data.drop (start + 18)).take (BigEndian.field data (start + 14) 4)⟩,
              start + 18 + BigEndian.field data (start + 14) 4)))) := by
  unfold decodeBody
  cases htype : FrameType.tryFrom (data.getD start 0) with
  | error error => exact Or.inl ⟨error, rfl, rfl⟩
  | ok frameType =>
    refine Or.inr ⟨frameType, rfl, ?_⟩
    dsimp only
    split_ifs with hlarge hshort
    · exact Or.inl ⟨hlarge, rfl⟩
    · exact Or.inr (Or.inl ⟨not_lt.mp hlarge, hshort, rfl⟩)
    · exact Or.inr (Or.inr ⟨not_lt.mp hlarge, not_lt.mp hshort, rfl⟩)

/-- A body decodes to a frame exactly when its type byte is one of the frame types, its length is
within the limit and the payload is there. -/
theorem decodeBody_eq_some_iff {version : UInt8} {start : ℕ} {data : List UInt8} {frame : Frame}
    {consumed : ℕ} :
    decodeBody version start data = .ok (some (frame, consumed)) ↔
      ∃ frameType, data.getD start 0 = FrameType.toByte frameType ∧
        BigEndian.field data (start + 14) 4 ≤ maxFrameSize ∧
        start + 18 + BigEndian.field data (start + 14) 4 ≤ data.length ∧
        frame = ⟨version, frameType, data.getD (start + 1) 0,
          UInt32.ofNat (BigEndian.field data (start + 2) 4),
          UInt64.ofNat (BigEndian.field data (start + 6) 8),
          (data.drop (start + 18)).take (BigEndian.field data (start + 14) 4)⟩ ∧
        consumed = start + 18 + BigEndian.field data (start + 14) 4 := by
  constructor
  · intro hdecode
    rcases decodeBody_cases version start data with
      ⟨error, _, h⟩ | ⟨frameType, htype, ⟨_, h⟩ | ⟨_, _, h⟩ | ⟨hsmall, hpresent, h⟩⟩
    · cases h.symm.trans hdecode
    · cases h.symm.trans hdecode
    · cases h.symm.trans hdecode
    · obtain ⟨rfl, rfl⟩ := Prod.mk.inj (Option.some.inj (Except.ok.inj (h.symm.trans hdecode)))
      exact ⟨frameType, FrameType.tryFrom_eq_ok_iff.mp htype, hsmall, hpresent, rfl, rfl⟩
  · rintro ⟨frameType, htype, hsmall, hpresent, rfl, rfl⟩
    simp only [decodeBody, FrameType.tryFrom_eq_ok_iff.mpr htype]
    rw [if_neg (not_lt.mpr hsmall), if_neg (not_lt.mpr hpresent)]

/-- With the header present, a body that decoded to a frame or an error decodes to the same one
when more bytes have arrived. -/
theorem decodeBody_append {version : UInt8} {start : ℕ} {data : List UInt8} (more : List UInt8)
    (hheader : start + 18 ≤ data.length) (hdecided : decodeBody version start data ≠ .ok none) :
    decodeBody version start (data ++ more) = decodeBody version start data := by
  have hbyte : ∀ i < start + 18, (data ++ more).getD i 0 = data.getD i 0 := fun i hi ↦
    List.getD_append _ _ _ _ (by omega)
  have hfield : ∀ offset width, offset + width ≤ start + 18 →
      BigEndian.field (data ++ more) offset width = BigEndian.field data offset width :=
    fun offset width hinside ↦ BigEndian.field_append_of_le more (by omega)
  rcases decodeBody_cases version start data with
    ⟨error, htype, h⟩ | ⟨frameType, htype, ⟨hlarge, h⟩ | ⟨_, _, h⟩ | ⟨hsmall, hpresent, h⟩⟩
  · rw [h]
    simp only [decodeBody, hbyte start (by omega), htype]
  · rw [h]
    simp only [decodeBody, hbyte start (by omega), htype, hfield (start + 14) 4 (by omega)]
    rw [if_pos hlarge]
  · exact absurd h hdecided
  · rw [h]
    simp only [decodeBody, hbyte start (by omega), hbyte (start + 1) (by omega), htype,
      hfield (start + 2) 4 (by omega), hfield (start + 6) 8 (by omega),
      hfield (start + 14) 4 (by omega)]
    rw [if_neg (not_lt.mpr hsmall), if_neg (by rw [List.length_append]; omega),
      List.drop_append_of_le_length hheader,
      List.take_append_of_le_length (by rw [List.length_drop]; omega)]

/-- A frame or an error is not revised when more bytes have arrived. -/
theorem decode_append {data : List UInt8} (more : List UInt8)
    (hdecided : Frame.decode data ≠ .ok none) :
    Frame.decode (data ++ more) = Frame.decode data := by
  by_cases hshort : data.length < headerSize
  · exact absurd (if_pos hshort) hdecided
  · simp only [headerSize] at hshort
    have hbyte : ∀ i < 21, (data ++ more).getD i 0 = data.getD i 0 := fun i hi ↦
      List.getD_append _ _ _ _ (by omega)
    have hlong : ¬ (data ++ more).length < headerSize := by
      rw [List.length_append]
      simp only [headerSize]
      omega
    unfold Frame.decode at hdecided ⊢
    rw [if_neg hlong, hbyte 0 (by omega), hbyte 1 (by omega), hbyte 2 (by omega)]
    rw [if_neg (show ¬ data.length < headerSize from hshort)] at hdecided ⊢
    by_cases hmagic : data.getD 0 0 ≠ magic.getD 0 0 ∨ data.getD 1 0 ≠ magic.getD 1 0
    · rw [if_pos hmagic, if_pos hmagic]
    · rw [if_neg hmagic] at hdecided
      rw [if_neg hmagic, if_neg hmagic]
      dsimp only at hdecided ⊢
      by_cases hversion : data.getD 2 0 < 3
      · rw [if_pos hversion] at hdecided
        rw [if_pos hversion, if_pos hversion]
        unfold Frame.decodeV2 at hdecided ⊢
        have hv2 : ¬ data.length < v2HeaderSize := by
          simp only [v2HeaderSize]
          omega
        rw [if_neg hv2] at hdecided
        rw [if_neg hv2, if_neg (by rw [List.length_append]; omega)]
        exact decodeBody_append more (by omega) hdecided
      · rw [if_neg hversion] at hdecided
        rw [if_neg hversion, if_neg hversion]
        exact decodeBody_append more (by omega) hdecided

/-- A decoded frame takes a positive number of bytes that are there. -/
theorem decode_bounds {data : List UInt8} {frame : Frame} {count : ℕ}
    (hdecode : Frame.decode data = .ok (some (frame, count))) :
    0 < count ∧ count ≤ data.length := by
  have hbody : ∀ version start, decodeBody version start data = .ok (some (frame, count)) →
      0 < count ∧ count ≤ data.length := by
    intro version start h
    rcases decodeBody_cases version start data with
      ⟨error, _, h'⟩ | ⟨frameType, _, ⟨_, h'⟩ | ⟨_, _, h'⟩ | ⟨_, hpresent, h'⟩⟩
    · exact nomatch h'.symm.trans h
    · exact nomatch h'.symm.trans h
    · exact nomatch h'.symm.trans h
    · obtain ⟨_, rfl⟩ := Prod.mk.inj (Option.some.inj (Except.ok.inj (h'.symm.trans h)))
      exact ⟨by omega, hpresent⟩
  unfold Frame.decode Frame.decodeV2 at hdecode
  dsimp only at hdecode
  split_ifs at hdecode
  · exact nomatch hdecode
  · exact nomatch hdecode
  · exact hbody _ _ hdecode
  · exact hbody _ _ hdecode

/-! ### Decoding a whole buffer -/

/-- One application of `Frame::decode` as a decision of a reader. -/
def decodeAttempt (buffer : List UInt8) : Attempt Unit Frame ProtocolError :=
  match Frame.decode buffer with
  | .error error => .reject error
  | .ok none => .await
  | .ok (some (frame, consumed)) => .consume consumed () (some frame)

theorem decodeAttempt_of_error {buffer : List UInt8} {error : ProtocolError}
    (hdecode : Frame.decode buffer = .error error) : decodeAttempt buffer = .reject error := by
  rw [decodeAttempt, hdecode]

theorem decodeAttempt_of_none {buffer : List UInt8} (hdecode : Frame.decode buffer = .ok none) :
    decodeAttempt buffer = .await := by
  rw [decodeAttempt, hdecode]

theorem decodeAttempt_of_frame {buffer : List UInt8} {frame : Frame} {consumed : ℕ}
    (hdecode : Frame.decode buffer = .ok (some (frame, consumed))) :
    decodeAttempt buffer = .consume consumed () (some frame) := by
  rw [decodeAttempt, hdecode]

/-- Three cases of a decoding result. -/
theorem decode_cases (buffer : List UInt8) :
    (∃ error, Frame.decode buffer = .error error) ∨ Frame.decode buffer = .ok none ∨
      ∃ frame consumed, Frame.decode buffer = .ok (some (frame, consumed)) := by
  cases Frame.decode buffer with
  | error error => exact Or.inl ⟨error, rfl⟩
  | ok found =>
    cases found with
    | none => exact Or.inr (Or.inl rfl)
    | some found => exact Or.inr (Or.inr ⟨found.1, found.2, rfl⟩)

/-- `Frame::decode` as a reader: what it takes is there, and what it decided stands. -/
def frameReader : Reader Unit UInt8 Frame ProtocolError where
  attempt _ buffer := decodeAttempt buffer
  consume_bounds := by
    intro mode buffer count next output hattempt
    rcases decode_cases buffer with ⟨error, h⟩ | h | ⟨frame, consumed, h⟩
    · exact nomatch (decodeAttempt_of_error h).symm.trans hattempt
    · exact nomatch (decodeAttempt_of_none h).symm.trans hattempt
    · obtain ⟨rfl, _, _⟩ :=
        Attempt.consume.inj ((decodeAttempt_of_frame h).symm.trans hattempt)
      exact decode_bounds h
  consume_append := by
    intro mode buffer count next output more hattempt
    rcases decode_cases buffer with ⟨error, h⟩ | h | ⟨frame, consumed, h⟩
    · exact nomatch (decodeAttempt_of_error h).symm.trans hattempt
    · exact nomatch (decodeAttempt_of_none h).symm.trans hattempt
    · rw [← hattempt, decodeAttempt, decodeAttempt, decode_append more (by rw [h]; nofun)]
  reject_append := by
    intro mode buffer error more hattempt
    rcases decode_cases buffer with ⟨error, h⟩ | h | ⟨frame, consumed, h⟩
    · rw [← hattempt, decodeAttempt, decodeAttempt, decode_append more (by rw [h]; nofun)]
    · exact nomatch (decodeAttempt_of_none h).symm.trans hattempt
    · exact nomatch (decodeAttempt_of_frame h).symm.trans hattempt

/-- `Frame::decode` applied repeatedly to a whole buffer, until it needs more data or fails. -/
def decodeAll (data : List UInt8) : Reading Unit UInt8 Frame ProtocolError :=
  frameReader.drain () data

/-- Nothing is decoded from an empty buffer. -/
theorem decodeAll_nil : decodeAll [] = ⟨[], (), [], none⟩ :=
  frameReader.drain_of_await rfl

/-- A buffer that is refused is decoded to the error. -/
theorem decodeAll_of_error {buffer : List UInt8} {error : ProtocolError}
    (hdecode : Frame.decode buffer = .error error) :
    decodeAll buffer = ⟨[], (), buffer, some error⟩ :=
  frameReader.drain_of_reject (decodeAttempt_of_error hdecode)

/-- A buffer without a whole frame is kept. -/
theorem decodeAll_of_none {buffer : List UInt8} (hdecode : Frame.decode buffer = .ok none) :
    decodeAll buffer = ⟨[], (), buffer, none⟩ :=
  frameReader.drain_of_await (decodeAttempt_of_none hdecode)

/-- A frame at the front comes out first. -/
theorem decodeAll_of_frame {buffer : List UInt8} {frame : Frame} {consumed : ℕ}
    (hdecode : Frame.decode buffer = .ok (some (frame, consumed))) :
    decodeAll buffer = (decodeAll (buffer.drop consumed)).prepend [frame] :=
  frameReader.drain_of_consume (decodeAttempt_of_frame hdecode)

/-- The terminal outcome of decoding: more data is needed, or the error. -/
def terminalOutcome (reading : Reading Unit UInt8 Frame ProtocolError) :
    Except ProtocolError (Option Frame) :=
  reading.error.elim (.ok none) .error

/-! ### Decoding what was encoded -/

@[simp] theorem length_encode (frame : Frame) :
    frame.encode.length = headerSize + frame.payload.length := by
  simp [Frame.encode, magic, headerSize]
  omega

/-- The layout of an encoded frame, with the bytes that follow it. Assumes: the payload length fits
its field. -/
theorem encode_append {frame : Frame} (rest : List UInt8)
    (hsize : frame.payload.length < 2 ^ 32) :
    frame.encode ++ rest =
      [0x48, 0x54, frame.version, frame.frameType.toByte, frame.flags] ++
        (BigEndian.bytes 4 frame.seq.toNat ++ (BigEndian.bytes 8 frame.originTs.toNat ++
          (BigEndian.bytes 4 frame.payload.length ++ (frame.payload ++ rest)))) := by
  have hlen : (UInt32.ofNat frame.payload.length).toNat = frame.payload.length :=
    UInt32.toNat_ofNat_of_lt' hsize
  simp [Frame.encode, magic, hlen]

/-- The length field of an encoded frame. Assumes: the payload length fits it. -/
theorem payloadLen_encode {frame : Frame} (rest : List UInt8)
    (hsize : frame.payload.length < 2 ^ 32) :
    BigEndian.field (frame.encode ++ rest) 17 4 = frame.payload.length := by
  rw [encode_append rest hsize, ← List.append_assoc, ← List.append_assoc]
  exact BigEndian.field_bytes _ _ (by simp) hsize

/-- An encoded frame is recognised as the layout with a version byte. Assumes: the version is at
least 3. -/
theorem decode_of_encode {frame : Frame} (rest : List UInt8) (hversion : 3 ≤ frame.version) :
    Frame.decode (frame.encode ++ rest) =
      decodeBody frame.version 3 (frame.encode ++ rest) := by
  have hlong : ¬ (frame.encode ++ rest).length < headerSize := by
    rw [List.length_append, length_encode]
    omega
  have hmagic : ¬ ((frame.encode ++ rest).getD 0 0 ≠ magic.getD 0 0 ∨
      (frame.encode ++ rest).getD 1 0 ≠ magic.getD 1 0) := by
    rintro (h | h) <;> exact h rfl
  have hcurrent : ¬ (frame.encode ++ rest).getD 2 0 < 3 := UInt8.not_lt.mpr hversion
  unfold Frame.decode
  rw [if_neg hlong, if_neg hmagic]
  dsimp only
  rw [if_neg hcurrent]
  rfl

/-- An encoded frame is decoded from the front of a buffer. Assumes: the version is at least 3 and
the payload is at most `maxFrameSize` bytes. -/
theorem decode_encode {frame : Frame} (rest : List UInt8) (hversion : 3 ≤ frame.version)
    (hsize : frame.payload.length ≤ maxFrameSize) :
    Frame.decode (frame.encode ++ rest) = .ok (some (frame, frame.encode.length)) := by
  have hsize' : frame.payload.length < 2 ^ 32 := by
    simp only [maxFrameSize] at hsize
    omega
  have hdata := encode_append rest hsize'
  have hseq : BigEndian.field (frame.encode ++ rest) 5 4 = frame.seq.toNat := by
    rw [hdata]
    exact BigEndian.field_bytes _ _ rfl frame.seq.toNat_lt
  have horiginTs : BigEndian.field (frame.encode ++ rest) 9 8 = frame.originTs.toNat := by
    rw [hdata, ← List.append_assoc]
    exact BigEndian.field_bytes _ _ (by simp) frame.originTs.toNat_lt
  have hpayload : ((frame.encode ++ rest).drop 21).take frame.payload.length = frame.payload := by
    rw [hdata, ← List.append_assoc, ← List.append_assoc, ← List.append_assoc,
      List.drop_left' (by simp), List.take_left]
  have htype : (frame.encode ++ rest).getD 3 0 = frame.frameType.toByte := rfl
  have hflags : (frame.encode ++ rest).getD 4 0 = frame.flags := rfl
  rw [decode_of_encode rest hversion]
  simp only [decodeBody, htype, hflags, FrameType.tryFrom_toByte, Nat.reduceAdd, hseq,
    horiginTs, payloadLen_encode rest hsize', hpayload, UInt32.ofNat_toNat, UInt64.ofNat_toNat]
  rw [if_neg (not_lt.mpr hsize), if_neg (by simp [headerSize]), length_encode]
  rfl

/-- An encoded frame with a larger payload is refused. Assumes: the version is at least 3, and the
payload is longer than `maxFrameSize` and its length fits the length field. -/
theorem decode_encode_of_large {frame : Frame} (rest : List UInt8) (hversion : 3 ≤ frame.version)
    (hlarge : maxFrameSize < frame.payload.length) (hsize : frame.payload.length < 2 ^ 32) :
    Frame.decode (frame.encode ++ rest) =
      .error (.payloadTooLarge frame.payload.length) := by
  have htype : (frame.encode ++ rest).getD 3 0 = frame.frameType.toByte := rfl
  rw [decode_of_encode rest hversion]
  simp only [decodeBody, htype, FrameType.tryFrom_toByte, Nat.reduceAdd,
    payloadLen_encode rest hsize]
  rw [if_pos hlarge]

/-- What the agent encodes is decoded to the same frame, with the encoded length consumed, exactly
when the payload is at most `maxFrameSize` bytes: the encoder has no limit and the decoder has one.
Assumes: the payload length fits the length field. -/
theorem newWithTs_roundTrip_iff (frameType : FrameType) (seq : UInt32) (originTs : UInt64)
    (payload : List UInt8) (hsize : payload.length < 2 ^ 32) :
    Frame.decode (Frame.newWithTs frameType seq originTs payload).encode =
        .ok (some (Frame.newWithTs frameType seq originTs payload,
          (Frame.newWithTs frameType seq originTs payload).encode.length)) ↔
      payload.length ≤ maxFrameSize := by
  have hversion : 3 ≤ (Frame.newWithTs frameType seq originTs payload).version :=
    UInt8.le_refl protocolVersion
  constructor
  · intro hdecode
    by_contra hlarge
    have hrefused := decode_encode_of_large [] hversion (not_le.mp hlarge) hsize
    rw [List.append_nil, hdecode] at hrefused
    cases hrefused
  · intro hsmall
    have hdecode := decode_encode [] hversion hsmall
    rwa [List.append_nil] at hdecode

/-- A witness of `newWithTs_roundTrip_iff`: a data frame of three bytes with a timestamp. -/
theorem newWithTs_roundTrip_iff_witness :
    Frame.decode (Frame.newWithTs .data 7 1700000000123 [0x47, 0x40, 0x11]).encode =
      .ok (some (Frame.newWithTs .data 7 1700000000123 [0x47, 0x40, 0x11], 24)) :=
  (newWithTs_roundTrip_iff .data 7 1700000000123 [0x47, 0x40, 0x11] (by decide)).mpr (by decide)

/-- A segment one byte above the limit is encoded and not decoded. -/
theorem newWithTs_roundTrip_counterexample :
    (List.replicate 1048577 (0 : UInt8)).length < 2 ^ 32 ∧
      Frame.decode (Frame.newWithTs .data 1 0 (List.replicate 1048577 0)).encode =
        .error (.payloadTooLarge 1048577) ∧
      ¬ ∀ (frameType : FrameType) (seq : UInt32) (originTs : UInt64) (payload : List UInt8),
        payload.length < 2 ^ 32 →
          Frame.decode (Frame.newWithTs frameType seq originTs payload).encode =
            .ok (some (Frame.newWithTs frameType seq originTs payload,
              (Frame.newWithTs frameType seq originTs payload).encode.length)) := by
  have hsize : (List.replicate 1048577 (0 : UInt8)).length < 2 ^ 32 := by
    rw [List.length_replicate]
    decide
  have hrefused : Frame.decode (Frame.newWithTs .data 1 0 (List.replicate 1048577 0)).encode =
      .error (.payloadTooLarge 1048577) := by
    have hlarge : maxFrameSize < (List.replicate 1048577 (0 : UInt8)).length := by
      rw [List.length_replicate]
      decide
    have hversion : 3 ≤ (Frame.newWithTs .data 1 0 (List.replicate 1048577 0)).version :=
      UInt8.le_refl protocolVersion
    have hdecode := decode_encode_of_large [] hversion hlarge hsize
    rw [List.append_nil] at hdecode
    rw [hdecode]
    exact congrArg (fun n ↦ Except.error (ProtocolError.payloadTooLarge n)) List.length_replicate
  refine ⟨hsize, hrefused, fun hall ↦ ?_⟩
  have hdecoded := hall .data 1 0 _ hsize
  rw [hrefused] at hdecoded
  cases hdecoded

/-- Decoding a concatenation of encoded frames gives back the frames, then decodes the rest.
Assumes: every version is at least 3 and every payload at most `maxFrameSize` bytes. -/
theorem decodeAll_encode (frames : List Frame) (rest : List UInt8)
    (hframes : ∀ frame ∈ frames, 3 ≤ frame.version ∧ frame.payload.length ≤ maxFrameSize) :
    decodeAll (frames.flatMap Frame.encode ++ rest) = (decodeAll rest).prepend frames := by
  induction frames with
  | nil => rw [List.flatMap_nil, List.nil_append, Reading.prepend_nil]
  | cons frame frames ih =>
    obtain ⟨hversion, hsize⟩ := hframes frame (List.mem_cons_self ..)
    have hrest := ih fun other hother ↦ hframes other (List.mem_cons_of_mem _ hother)
    rw [List.flatMap_cons, List.append_assoc, decodeAll_of_frame (decode_encode _ hversion hsize),
      List.drop_left, hrest, Reading.prepend_prepend, List.singleton_append]

/-! ### The incremental decoder -/

/-- `FrameDecoder`. -/
structure FrameDecoder where
  buffer : List UInt8
  deriving DecidableEq, Repr

/-- `FrameDecoder::new`. -/
def FrameDecoder.new : FrameDecoder := ⟨[]⟩

/-- `FrameDecoder::feed`. -/
def FrameDecoder.feed (decoder : FrameDecoder) (data : List UInt8) : FrameDecoder :=
  ⟨decoder.buffer ++ data⟩

/-- `FrameDecoder::decode`: the result and the decoder after the call. -/
def FrameDecoder.decode (decoder : FrameDecoder) :
    Except ProtocolError (Option Frame) × FrameDecoder :=
  match Frame.decode decoder.buffer with
  | .error error => (.error error, decoder)
  | .ok none => (.ok none, decoder)
  | .ok (some (frame, consumed)) => (.ok (some frame), ⟨decoder.buffer.drop consumed⟩)

/-- A call on the decoder. -/
inductive DecoderCall
  | feed (piece : List UInt8)
  | decode

/-- The bytes a call feeds. -/
def DecoderCall.piece : DecoderCall → List UInt8
  | .feed piece => piece
  | .decode => []

/-- A decoder and the results its `decode` calls have returned, in order. -/
structure Session where
  decoder : FrameDecoder
  results : List (Except ProtocolError (Option Frame))

/-- The session before the first call. -/
def Session.start : Session := ⟨.new, []⟩

/-- The session after one more call. -/
def Session.call (session : Session) : DecoderCall → Session
  | .feed piece => ⟨session.decoder.feed piece, session.results⟩
  | .decode =>
    let (result, decoder) := session.decoder.decode
    ⟨decoder, session.results ++ [result]⟩

/-- The session after a list of calls. -/
def Session.run (calls : List DecoderCall) : Session :=
  calls.foldl Session.call .start

/-- The frame in a result, if there is one. -/
def frameOf : Except ProtocolError (Option Frame) → Option Frame
  | .ok found => found
  | .error _ => none

/-- The frames obtained so far. -/
def Session.frames (session : Session) : List Frame :=
  session.results.filterMap frameOf

/-- A terminal outcome is not a frame. -/
theorem terminalOutcome_ne_frame (reading : Reading Unit UInt8 Frame ProtocolError)
    (frame : Frame) : terminalOutcome reading ≠ .ok (some frame) := by
  unfold terminalOutcome
  cases reading.error <;> nofun

@[simp] theorem frameOf_terminalOutcome (reading : Reading Unit UInt8 Frame ProtocolError) :
    frameOf (terminalOutcome reading) = none := by
  unfold terminalOutcome
  cases reading.error <;> rfl

/-- What one `decode` call does: it takes the first frame off the buffer, or the buffer is at its
end and the call leaves it as it is. -/
theorem frameDecoder_decode_cases (decoder : FrameDecoder) :
    (∃ frame consumed, Frame.decode decoder.buffer = .ok (some (frame, consumed)) ∧
      decoder.decode = (.ok (some frame), ⟨decoder.buffer.drop consumed⟩)) ∨
    ((decodeAll decoder.buffer).outputs = [] ∧
      (decodeAll decoder.buffer).leftover = decoder.buffer ∧
      decoder.decode = (terminalOutcome (decodeAll decoder.buffer), decoder)) := by
  rcases decode_cases decoder.buffer with ⟨error, h⟩ | h | ⟨frame, consumed, h⟩
  · have hdrain := decodeAll_of_error h
    refine Or.inr ⟨congrArg Reading.outputs hdrain, congrArg Reading.leftover hdrain, ?_⟩
    rw [hdrain, FrameDecoder.decode, h]
    rfl
  · have hdrain := decodeAll_of_none h
    refine Or.inr ⟨congrArg Reading.outputs hdrain, congrArg Reading.leftover hdrain, ?_⟩
    rw [hdrain, FrameDecoder.decode, h]
    rfl
  · refine Or.inl ⟨frame, consumed, h, ?_⟩
    rw [FrameDecoder.decode, h]

/-- A `decode` call adds the frame of its result to the frames obtained. -/
theorem frames_call_decode (session : Session) :
    (session.call .decode).frames =
      session.frames ++ (frameOf session.decoder.decode.1).toList := by
  change (session.results ++ [session.decoder.decode.1]).filterMap frameOf = _
  rw [List.filterMap_append, List.filterMap_cons, Session.frames]
  cases frameOf session.decoder.decode.1 <;> rfl

/-- What one call preserves. Assumes: decoding the bytes `data` is decoding the buffer after the
frames obtained. -/
theorem call_decodeAll {session : Session} {data : List UInt8} (call : DecoderCall)
    (hdata : decodeAll data = (decodeAll session.decoder.buffer).prepend session.frames) :
    decodeAll (data ++ call.piece) =
      (decodeAll (session.call call).decoder.buffer).prepend (session.call call).frames := by
  cases call with
  | feed piece => exact frameReader.drain_append_congr piece hdata
  | decode =>
    rw [DecoderCall.piece, List.append_nil, hdata, frames_call_decode]
    change _ = (decodeAll session.decoder.decode.2.buffer).prepend _
    rcases frameDecoder_decode_cases session.decoder with
      ⟨frame, consumed, h, hdecode⟩ | ⟨_, _, hdecode⟩
    · rw [hdecode, decodeAll_of_frame h, Reading.prepend_prepend]
      rfl
    · rw [hdecode, frameOf_terminalOutcome, Option.toList_none, List.append_nil]

/-- The invariant of every interleaving: decoding all bytes fed is decoding the buffer after the
frames obtained. -/
theorem run_decodeAll (calls : List DecoderCall) :
    decodeAll (calls.flatMap DecoderCall.piece) =
      (decodeAll (Session.run calls).decoder.buffer).prepend (Session.run calls).frames := by
  induction calls using List.reverseRecOn with
  | nil => rfl
  | append_singleton calls call ih =>
    rw [List.flatMap_append, List.flatMap_singleton, Session.run, List.foldl_append,
      List.foldl_cons, List.foldl_nil]
    exact call_decodeAll call ih

/-- Calling `decode` often enough yields a result without a frame. -/
theorem exists_decode_no_frame (session : Session) :
    ∃ n, ∀ frame,
      ((List.replicate n DecoderCall.decode).foldl Session.call session).decoder.decode.1 ≠
        .ok (some frame) := by
  induction hlength : session.decoder.buffer.length using Nat.strong_induction_on
    generalizing session with
  | _ length ih =>
    rcases frameDecoder_decode_cases session.decoder with
      ⟨frame, consumed, h, hdecode⟩ | ⟨_, _, hdecode⟩
    · have hbounds := decode_bounds h
      have hshorter : (session.call .decode).decoder.buffer.length < length := by
        change session.decoder.decode.2.buffer.length < length
        rw [hdecode, List.length_drop]
        omega
      obtain ⟨n, hn⟩ := ih _ hshorter (session.call .decode) rfl
      exact ⟨n + 1, hn⟩
    · refine ⟨0, fun frame ↦ ?_⟩
      change session.decoder.decode.1 ≠ _
      rw [hdecode]
      exact terminalOutcome_ne_frame _ frame

/-- Incremental decoding is whole-buffer decoding. For every interleaving of `feed` and `decode`
calls, with `whole` the repeated application of `Frame::decode` to all bytes fed: whenever a further
`decode` yields no frame, the frames obtained, the result of that call and the bytes left in the
decoder are those of `whole`; calling `decode` often enough gets there; and when the bytes fed are
the encodings of frames of version at least 3 with payloads of at most `maxFrameSize` bytes, `whole`
consists of exactly those frames with nothing left over. -/
theorem frameDecoder_eq_decodeAll (calls : List DecoderCall) :
    let whole := decodeAll (calls.flatMap DecoderCall.piece)
    (∀ n, let session := Session.run (calls ++ List.replicate n .decode)
      (∀ frame, session.decoder.decode.1 ≠ .ok (some frame)) →
        session.frames = whole.outputs ∧ session.decoder.decode.1 = terminalOutcome whole ∧
          session.decoder.decode.2.buffer = whole.leftover) ∧
    (∃ n, ∀ frame, (Session.run (calls ++ List.replicate n .decode)).decoder.decode.1 ≠
      .ok (some frame)) ∧
    ∀ frames : List Frame,
      (∀ frame ∈ frames, 3 ≤ frame.version ∧ frame.payload.length ≤ maxFrameSize) →
        calls.flatMap DecoderCall.piece = frames.flatMap Frame.encode →
          whole = ⟨frames, (), [], none⟩ := by
  intro whole
  refine ⟨?_, ?_, fun frames hframes hfed ↦ ?_⟩
  · intro n session hdone
    have hfed : (calls ++ List.replicate n DecoderCall.decode).flatMap DecoderCall.piece =
        calls.flatMap DecoderCall.piece := by
      rw [List.flatMap_append, List.append_right_eq_self, List.flatMap_eq_nil_iff]
      intro call hcall
      rw [List.eq_of_mem_replicate hcall]
      rfl
    have hwhole : whole = (decodeAll session.decoder.buffer).prepend session.frames := by
      rw [← run_decodeAll, hfed]
    rcases frameDecoder_decode_cases session.decoder with
      ⟨frame, consumed, _, hdecode⟩ | ⟨houtputs, hleftover, hdecode⟩
    · exact absurd (congrArg Prod.fst hdecode) (hdone frame)
    · refine ⟨?_, ?_, ?_⟩
      · rw [hwhole, Reading.outputs_prepend, houtputs, List.append_nil]
      · rw [hdecode, hwhole]
        rfl
      · rw [hdecode, hwhole, Reading.leftover_prepend, hleftover]
  · obtain ⟨n, hn⟩ := exists_decode_no_frame (Session.run calls)
    refine ⟨n, ?_⟩
    rwa [Session.run, List.foldl_append]
  · have hencoded := decodeAll_encode frames [] hframes
    rw [List.append_nil, ← hfed, decodeAll_nil] at hencoded
    rw [Reading.prepend, List.append_nil] at hencoded
    exact hencoded

/-- A witness: a heartbeat frame cut after five bytes, with a `decode` call before the rest
arrives. -/
theorem frameDecoder_eq_decodeAll_witness :
    let frame := Frame.new .heartbeat 7 []
    let calls : List DecoderCall :=
      [.feed (frame.encode.take 5), .decode, .feed (frame.encode.drop 5)]
    ∃ n, (Session.run (calls ++ List.replicate n .decode)).frames = [frame] ∧
      (Session.run (calls ++ List.replicate n .decode)).decoder.decode = (.ok none, .new) := by
  intro frame calls
  obtain ⟨hdone, ⟨n, hn⟩, hencoded⟩ := frameDecoder_eq_decodeAll calls
  have hwhole := hencoded [frame] (by decide) rfl
  obtain ⟨hframes, hresult, hbuffer⟩ := hdone n hn
  rw [hwhole] at hframes hresult hbuffer
  exact ⟨n, hframes, Prod.ext hresult (congrArg FrameDecoder.mk hbuffer)⟩

end LiveCDN.Agent.FrameProtocol
