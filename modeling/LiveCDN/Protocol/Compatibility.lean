import LiveCDN.Agent.FrameProtocol
import LiveCDN.Protocol.FrameCodec

/-!
# The two frame decoders

The frames of `protocol/mod.rs` are read by the agent with `Frame::decode` and on the Go side with
`UnmarshalFrame`. Once the layout is known both make the same checks (`unmarshalPayload_iff`), and
they choose the layout by the same byte, so from 21 bytes on they accept the same data and read the
same frame (`decoders_agree`).

A frame of version 2 has its type where version 3 has the version. Both decoders therefore read it
back only when the type is below 3, and the agent's decoder, which wants 21 bytes before it looks at
the layout, only when there is a payload: `v2Frame_decoded_iff`.
-/

set_option autoImplicit false
set_option relaxedAutoImplicit false

namespace LiveCDN.Protocol.Compatibility

open Library Agent.FrameProtocol FrameCodec

/-! ### The choice of the layout -/

/-- A frame of the agent as a frame of the Go side. -/
def goFrame (frame : Agent.FrameProtocol.Frame) : FrameCodec.Frame :=
  ⟨frame.version, frame.frameType.toByte, frame.flags, frame.seq, frame.originTs, frame.payload⟩

/-- The first two bytes are the magic bytes. -/
def HasMagic (data : List UInt8) : Prop :=
  data.getD 0 0 = 0x48 ∧ data.getD 1 0 = 0x54

instance (data : List UInt8) : Decidable (HasMagic data) :=
  inferInstanceAs (Decidable (_ ∧ _))

/-- The byte both decoders read as the frame type: byte 3 behind a version, byte 2 without one. -/
def typeByte (data : List UInt8) : UInt8 :=
  if data.getD 2 0 ≥ 3 then data.getD 3 0 else data.getD 2 0

theorem not_hasMagic_iff {data : List UInt8} :
    ¬ HasMagic data ↔ data.getD 0 0 ≠ 0x48 ∨ data.getD 1 0 ≠ 0x54 := by
  rw [HasMagic, not_and_or]

/-- `Frame::decode` on at least 21 bytes. -/
theorem decode_eq {data : List UInt8} (hlong : 21 ≤ data.length) (hmagic : HasMagic data) :
    Frame.decode data =
      if data.getD 2 0 ≥ 3 then decodeBody (data.getD 2 0) 3 data else decodeBody 2 2 data := by
  have hheader : ¬ data.length < headerSize := not_lt.mpr hlong
  have hv2 : ¬ data.length < Agent.FrameProtocol.v2HeaderSize :=
    not_lt.mpr ((show 20 ≤ 21 by decide).trans hlong)
  have hright : ¬ (data.getD 0 0 ≠ Agent.FrameProtocol.magic.getD 0 0 ∨
      data.getD 1 0 ≠ Agent.FrameProtocol.magic.getD 1 0) := fun h ↦ not_hasMagic_iff.mpr h hmagic
  unfold Frame.decode Frame.decodeV2
  rw [if_neg hheader, if_neg hright]
  dsimp only
  by_cases hversion : data.getD 2 0 < 3
  · rw [if_pos hversion, if_neg (UInt8.not_le.mpr hversion), if_neg hv2]
  · rw [if_neg hversion, if_pos (UInt8.not_lt.mp hversion)]

/-- `UnmarshalFrame` on at least 20 bytes. -/
theorem unmarshalFrame_eq {data : List UInt8} (hlong : 20 ≤ data.length)
    (hmagic : HasMagic data) :
    unmarshalFrame data =
      if data.getD 2 0 ≥ 3 then
        if data.length < v3HeaderSize then .error (.dataTooShortV3 data.length)
        else
          unmarshalPayload ⟨data.getD 2 0, data.getD 3 0, data.getD 4 0, uint32At data 5,
            uint64At data 9, []⟩ (uint32At data 17) v3HeaderSize data
      else
        unmarshalPayload ⟨2, data.getD 2 0, data.getD 3 0, uint32At data 4, uint64At data 8, []⟩
          (uint32At data 16) FrameCodec.v2HeaderSize data := by
  have hv1 : ¬ data.length < v1HeaderSize :=
    not_lt.mpr ((show 12 ≤ 20 by decide).trans hlong)
  have hv2 : ¬ data.length < FrameCodec.v2HeaderSize := not_lt.mpr hlong
  have hright : ¬ (data.getD 0 0 ≠ FrameCodec.magic.getD 0 0 ∨
      data.getD 1 0 ≠ FrameCodec.magic.getD 1 0) := fun h ↦ not_hasMagic_iff.mpr h hmagic
  unfold unmarshalFrame
  rw [if_neg hv1, if_neg hright]
  dsimp only
  rw [if_neg hv2]

/-- Without the magic bytes both decoders refuse. -/
theorem refused_of_no_magic {data : List UInt8} (hlong : 21 ≤ data.length)
    (hmagic : ¬ HasMagic data) :
    (∀ found, Frame.decode data ≠ .ok found) ∧
      ∀ frame, unmarshalFrame data ≠ .ok frame := by
  constructor
  · intro found hdecode
    have hwrong : data.getD 0 0 ≠ Agent.FrameProtocol.magic.getD 0 0 ∨
        data.getD 1 0 ≠ Agent.FrameProtocol.magic.getD 1 0 := not_hasMagic_iff.mp hmagic
    have hheader : ¬ data.length < headerSize := not_lt.mpr hlong
    unfold Frame.decode at hdecode
    rw [if_neg hheader, if_pos hwrong] at hdecode
    cases hdecode
  · intro frame hdecode
    have hwrong : data.getD 0 0 ≠ FrameCodec.magic.getD 0 0 ∨
        data.getD 1 0 ≠ FrameCodec.magic.getD 1 0 := not_hasMagic_iff.mp hmagic
    have hv1 : ¬ data.length < v1HeaderSize :=
      not_lt.mpr ((show 12 ≤ 21 by decide).trans hlong)
    unfold unmarshalFrame at hdecode
    rw [if_neg hv1, if_pos hwrong] at hdecode
    cases hdecode

/-! ### Both decoders accept the same frames -/

/-- With the layout chosen, the Go side accepts exactly the frames the agent accepts. Assumes: the
header is present, the data is shorter than `2 ^ 32` bytes and the type byte is a frame type. -/
theorem unmarshalPayload_iff {version : UInt8} {start : ℕ} {data : List UInt8}
    {frameType : FrameType} (hheader : start + 18 ≤ data.length) (hshort : data.length < 2 ^ 32)
    (htype : data.getD start 0 = frameType.toByte) (read : FrameCodec.Frame) :
    unmarshalPayload ⟨version, data.getD start 0, data.getD (start + 1) 0,
        uint32At data (start + 2), uint64At data (start + 6), []⟩
        (uint32At data (start + 14)) (start + 18) data = .ok read ↔
      ∃ frame consumed, decodeBody version start data = .ok (some (frame, consumed)) ∧
        read = goFrame frame := by
  rw [unmarshalPayload_eq_ok_iff hshort, toNat_uint32At]
  constructor
  · rintro ⟨hsmall, hpresent, rfl⟩
    refine ⟨_, _, decodeBody_eq_some_iff.mpr ⟨frameType, htype, hsmall, by omega, rfl, rfl⟩, ?_⟩
    rw [htype]
    rfl
  · rintro ⟨frame, consumed, hdecode, rfl⟩
    obtain ⟨other, hother, hsmall, hpresent, rfl, rfl⟩ := decodeBody_eq_some_iff.mp hdecode
    refine ⟨hsmall, by omega, ?_⟩
    rw [hother]
    rfl

/-- What the Go side reads is what the agent reads. Assumes: the data has at least 21 and fewer than
`2 ^ 32` bytes and its type byte is a frame type. -/
theorem unmarshalFrame_iff {data : List UInt8} (hlong : 21 ≤ data.length)
    (hshort : data.length < 2 ^ 32)
    (htype : ∃ frameType : FrameType, typeByte data = frameType.toByte) (read : FrameCodec.Frame) :
    unmarshalFrame data = .ok read ↔
      ∃ frame consumed, Frame.decode data = .ok (some (frame, consumed)) ∧
        read = goFrame frame := by
  obtain ⟨frameType, htype⟩ := htype
  unfold typeByte at htype
  by_cases hmagic : HasMagic data
  · have hlong2 : 20 ≤ data.length := (show 20 ≤ 21 by decide).trans hlong
    have hv3 : ¬ data.length < v3HeaderSize := not_lt.mpr hlong
    rw [unmarshalFrame_eq hlong2 hmagic, decode_eq hlong hmagic]
    by_cases hversion : data.getD 2 0 ≥ 3
    · rw [if_pos hversion] at htype
      rw [if_pos hversion, if_pos hversion, if_neg hv3]
      exact unmarshalPayload_iff hlong hshort htype read
    · rw [if_neg hversion] at htype
      rw [if_neg hversion, if_neg hversion]
      exact unmarshalPayload_iff hlong2 hshort htype read
  · obtain ⟨hagent, hgo⟩ := refused_of_no_magic hlong hmagic
    refine iff_of_false (hgo read) ?_
    rintro ⟨frame, consumed, hdecode, _⟩
    exact hagent _ hdecode

/-- The two decoders agree: the agent's decoder returns a frame exactly when the Go decoder
succeeds, and then the two frames have the same version, type, flags, sequence number, timestamp and
payload. Assumes: the data has at least 21 and fewer than `2 ^ 32` bytes and its type byte is a
frame type. -/
theorem decoders_agree (data : List UInt8) (hlong : 21 ≤ data.length)
    (hshort : data.length < 2 ^ 32)
    (htype : ∃ frameType : FrameType, typeByte data = frameType.toByte) :
    ((∃ frame consumed, Frame.decode data = .ok (some (frame, consumed))) ↔
        ∃ read, unmarshalFrame data = .ok read) ∧
      ∀ frame consumed read,
        Frame.decode data = .ok (some (frame, consumed)) →
          unmarshalFrame data = .ok read → read = goFrame frame := by
  refine ⟨⟨?_, ?_⟩, ?_⟩
  · rintro ⟨frame, consumed, hdecode⟩
    exact ⟨goFrame frame,
      (unmarshalFrame_iff hlong hshort htype _).mpr ⟨frame, consumed, hdecode, rfl⟩⟩
  · rintro ⟨read, hread⟩
    obtain ⟨frame, consumed, hdecode, _⟩ := (unmarshalFrame_iff hlong hshort htype read).mp hread
    exact ⟨frame, consumed, hdecode⟩
  · intro frame consumed read hdecode hread
    obtain ⟨other, otherConsumed, hother, hsame⟩ :=
      (unmarshalFrame_iff hlong hshort htype read).mp hread
    obtain ⟨rfl, _⟩ := Prod.mk.inj (Option.some.inj (Except.ok.inj (hother.symm.trans hdecode)))
    exact hsame

/-- A witness of `decoders_agree`: the heartbeat frame of the agent. -/
theorem decoders_agree_witness :
    (∃ frame consumed, Frame.decode (Frame.new .heartbeat 7 []).encode =
        .ok (some (frame, consumed))) ↔
      ∃ read, unmarshalFrame (Frame.new .heartbeat 7 []).encode = .ok read :=
  (decoders_agree (Frame.new .heartbeat 7 []).encode (by decide) (by decide)
    ⟨.heartbeat, by decide⟩).1

/-! ### Frames of version 2 -/

/-- A frame of version 2 on the wire: 20 header bytes and the payload. -/
def v2Bytes (frameType : FrameType) (flags : UInt8) (seq : UInt32) (originTs : UInt64)
    (payload : List UInt8) : List UInt8 :=
  [0x48, 0x54, frameType.toByte, flags] ++ (BigEndian.bytes 4 seq.toNat ++
    (BigEndian.bytes 8 originTs.toNat ++ (BigEndian.bytes 4 payload.length ++ payload)))

section V2

variable (frameType : FrameType) (flags : UInt8) (seq : UInt32) (originTs : UInt64)
  (payload : List UInt8)

theorem length_v2Bytes :
    (v2Bytes frameType flags seq originTs payload).length = 20 + payload.length := by
  simp [v2Bytes]
  omega

theorem hasMagic_v2Bytes : HasMagic (v2Bytes frameType flags seq originTs payload) :=
  ⟨rfl, rfl⟩

/-- Byte 2 of a version 2 frame is its type, and it is below 3 for two types. -/
theorem version_of_v2Bytes :
    (v2Bytes frameType flags seq originTs payload).getD 2 0 ≥ 3 ↔
      ¬ (frameType = .handshake ∨ frameType = .data) := by
  change frameType.toByte ≥ 3 ↔ _
  cases frameType <;> decide

/-- The fields of a version 2 frame. Assumes: the payload length fits its field. -/
theorem fields_v2Bytes (hsize : payload.length < 2 ^ 32) :
    BigEndian.field (v2Bytes frameType flags seq originTs payload) 4 4 = seq.toNat ∧
      BigEndian.field (v2Bytes frameType flags seq originTs payload) 8 8 = originTs.toNat ∧
      BigEndian.field (v2Bytes frameType flags seq originTs payload) 16 4 = payload.length ∧
      (v2Bytes frameType flags seq originTs payload).drop 20 = payload := by
  refine ⟨?_, ?_, ?_, ?_⟩
  · exact BigEndian.field_bytes _ _ rfl seq.toNat_lt
  · rw [v2Bytes, ← List.append_assoc]
    exact BigEndian.field_bytes _ _ (by simp) originTs.toNat_lt
  · rw [v2Bytes, ← List.append_assoc, ← List.append_assoc]
    exact BigEndian.field_bytes _ _ (by simp) hsize
  · rw [v2Bytes, ← List.append_assoc, ← List.append_assoc, ← List.append_assoc]
    exact List.drop_left' (by simp)

/-- The body of a version 2 frame, read in its layout. Assumes: the payload is at most
`maxFrameSize` bytes. -/
theorem decodeBody_v2Bytes (hsize : payload.length ≤ Agent.FrameProtocol.maxFrameSize) :
    decodeBody 2 2 (v2Bytes frameType flags seq originTs payload) =
      .ok (some (⟨2, frameType, flags, seq, originTs, payload⟩, 20 + payload.length)) := by
  have hsize' : payload.length < 2 ^ 32 := hsize.trans_lt (by decide)
  obtain ⟨hseq, horiginTs, hpayloadLen, hpayload⟩ :=
    fields_v2Bytes frameType flags seq originTs payload hsize'
  refine decodeBody_eq_some_iff.mpr ⟨frameType, rfl, ?_, ?_, ?_, ?_⟩
  · rwa [hpayloadLen]
  · rw [hpayloadLen, length_v2Bytes]
  · rw [hpayloadLen, hseq, horiginTs, hpayload, List.take_length, UInt32.ofNat_toNat,
      UInt64.ofNat_toNat]
    rfl
  · rw [hpayloadLen]

/-- The agent reads a version 2 frame back exactly when its type is below 3 and it has a payload.
Assumes: the payload is at most `maxFrameSize` bytes. -/
theorem decode_v2Bytes_iff (hsize : payload.length ≤ Agent.FrameProtocol.maxFrameSize) :
    (∃ consumed, Frame.decode (v2Bytes frameType flags seq originTs payload) =
        .ok (some (⟨2, frameType, flags, seq, originTs, payload⟩, consumed))) ↔
      (frameType = .handshake ∨ frameType = .data) ∧ payload ≠ [] := by
  have hmagic := hasMagic_v2Bytes frameType flags seq originTs payload
  have hlength := length_v2Bytes frameType flags seq originTs payload
  by_cases hempty : payload = []
  · refine iff_of_false ?_ fun h ↦ h.2 hempty
    rintro ⟨consumed, hdecode⟩
    have hshort : (v2Bytes frameType flags seq originTs payload).length < headerSize := by
      rw [hlength, hempty]
      decide
    unfold Frame.decode at hdecode
    rw [if_pos hshort] at hdecode
    cases hdecode
  · have hpositive := List.length_pos_of_ne_nil hempty
    rw [decode_eq (by omega) hmagic, and_iff_left hempty]
    by_cases htype : frameType = .handshake ∨ frameType = .data
    · have hversion := (version_of_v2Bytes frameType flags seq originTs payload).not.mpr
        (not_not.mpr htype)
      rw [if_neg hversion]
      exact iff_of_true ⟨_, decodeBody_v2Bytes frameType flags seq originTs payload hsize⟩ htype
    · have hversion := (version_of_v2Bytes frameType flags seq originTs payload).mpr htype
      refine iff_of_false ?_ htype
      rintro ⟨consumed, hdecode⟩
      rw [if_pos hversion] at hdecode
      obtain ⟨_, _, _, _, hframe, _⟩ := decodeBody_eq_some_iff.mp hdecode
      have htwo : 2 = (v2Bytes frameType flags seq originTs payload).getD 2 0 :=
        congrArg Agent.FrameProtocol.Frame.version hframe
      rw [← htwo] at hversion
      exact absurd hversion (by decide)

/-- The Go side reads a version 2 frame back exactly when its type is below 3. Assumes: the payload
is at most `maxFrameSize` bytes. -/
theorem unmarshalFrame_v2Bytes_iff (hsize : payload.length ≤ Agent.FrameProtocol.maxFrameSize) :
    unmarshalFrame (v2Bytes frameType flags seq originTs payload) =
        .ok ⟨2, frameType.toByte, flags, seq, originTs, payload⟩ ↔
      frameType = .handshake ∨ frameType = .data := by
  have hmagic := hasMagic_v2Bytes frameType flags seq originTs payload
  have hlength := length_v2Bytes frameType flags seq originTs payload
  have hshort : (v2Bytes frameType flags seq originTs payload).length < 2 ^ 32 := by
    rw [hlength]
    simp only [Agent.FrameProtocol.maxFrameSize] at hsize
    omega
  rw [unmarshalFrame_eq (by omega) hmagic]
  by_cases htype : frameType = .handshake ∨ frameType = .data
  · have hversion := (version_of_v2Bytes frameType flags seq originTs payload).not.mpr
      (not_not.mpr htype)
    rw [if_neg hversion]
    refine iff_of_true ?_ htype
    have hheader : 2 + 18 ≤ (v2Bytes frameType flags seq originTs payload).length := by omega
    exact (unmarshalPayload_iff hheader hshort rfl _).mpr
      ⟨_, _, decodeBody_v2Bytes frameType flags seq originTs payload hsize, rfl⟩
  · have hversion := (version_of_v2Bytes frameType flags seq originTs payload).mpr htype
    refine iff_of_false (fun hdecode ↦ ?_) htype
    rw [if_pos hversion] at hdecode
    by_cases hv3 : (v2Bytes frameType flags seq originTs payload).length < v3HeaderSize
    · rw [if_pos hv3] at hdecode
      cases hdecode
    · rw [if_neg hv3] at hdecode
      obtain ⟨_, _, hframe⟩ := (unmarshalPayload_eq_ok_iff hshort).mp hdecode
      have htwo : 2 = (v2Bytes frameType flags seq originTs payload).getD 2 0 :=
        congrArg FrameCodec.Frame.version hframe
      rw [← htwo] at hversion
      exact absurd hversion (by decide)

/-- Both decoders read a version 2 frame back exactly when it is a handshake or a data frame and has
a payload. Assumes: the payload is at most one MiB. -/
theorem v2Frame_decoded_iff (hsize : payload.length ≤ Agent.FrameProtocol.maxFrameSize) :
    ((∃ consumed, Frame.decode (v2Bytes frameType flags seq originTs payload) =
          .ok (some (⟨2, frameType, flags, seq, originTs, payload⟩, consumed))) ∧
        unmarshalFrame (v2Bytes frameType flags seq originTs payload) =
          .ok ⟨2, frameType.toByte, flags, seq, originTs, payload⟩) ↔
      (frameType = .handshake ∨ frameType = .data) ∧ payload ≠ [] := by
  rw [decode_v2Bytes_iff frameType flags seq originTs payload hsize,
    unmarshalFrame_v2Bytes_iff frameType flags seq originTs payload hsize]
  exact and_iff_left_of_imp And.left

end V2

/-- A witness of `v2Frame_decoded_iff`: a handshake with one byte of payload. -/
theorem v2Frame_decoded_iff_witness :
    (∃ consumed, Frame.decode (v2Bytes .handshake 0 7 0 [1]) =
        .ok (some (⟨2, .handshake, 0, 7, 0, [1]⟩, consumed))) ∧
      unmarshalFrame (v2Bytes .handshake 0 7 0 [1]) = .ok ⟨2, 0x01, 0, 7, 0, [1]⟩ :=
  (v2Frame_decoded_iff .handshake 0 7 0 [1] (by decide)).mpr ⟨Or.inl rfl, by decide⟩

/-- A data frame of version 2 without a payload is 20 bytes long: the agent waits for more and the
Go side reads it. A heartbeat of version 2 is taken for a frame of version 3, which it is not, by
both. -/
theorem v2Frame_decoded_counterexample :
    Frame.decode (v2Bytes .data 0 7 0 []) = .ok none ∧
      unmarshalFrame (v2Bytes .data 0 7 0 []) = .ok ⟨2, 0x02, 0, 7, 0, []⟩ ∧
      Frame.decode (v2Bytes .heartbeat 0 7 0 [1]) = .error (.invalidFrameType 0) ∧
      (∀ read, unmarshalFrame (v2Bytes .heartbeat 0 7 0 [1]) = .ok read → read.version ≠ 2) ∧
      ¬ ∀ (frameType : FrameType) (flags : UInt8) (seq : UInt32) (originTs : UInt64)
        (payload : List UInt8), payload.length ≤ Agent.FrameProtocol.maxFrameSize →
          ∃ consumed, Frame.decode (v2Bytes frameType flags seq originTs payload) =
            .ok (some (⟨2, frameType, flags, seq, originTs, payload⟩, consumed)) := by
  have hwaits : Frame.decode (v2Bytes .data 0 7 0 []) = .ok none := by decide
  refine ⟨hwaits, by decide, by decide, fun read hread ↦ ?_, fun hall ↦ ?_⟩
  · have hversion : ∀ found ∈ (unmarshalFrame (v2Bytes .heartbeat 0 7 0 [1])).toOption,
        found.version ≠ 2 := by decide
    exact hversion read (by rw [hread]; rfl)
  · obtain ⟨_, hread⟩ := hall .data 0 7 0 [] (Nat.zero_le _)
    cases hwaits.symm.trans hread

end LiveCDN.Protocol.Compatibility
