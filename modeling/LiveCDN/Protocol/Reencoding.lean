import LiveCDN.Protocol.Compatibility

/-!
# Frames encoded again

Both encoders of the frame protocol (`protocol/mod.rs`, `internal/protocol/protocol.go`) write the
layout of version 3 and put the frame's own version into it, also the 1 or 2 of a frame that was
read from an older layout. Both decoders take such a value for a frame type, read the rest one byte
too early, and never get the same frame back: with the type, the flags and the numbers unchanged,
every byte up to the payload length would be 2 (`not_reads_back`), and that length is refused. A
frame of version 3 or later is read back, so the version byte decides (`reencoding_stable_iff`).
-/

set_option autoImplicit false
set_option relaxedAutoImplicit false

namespace LiveCDN.Protocol.Reencoding

open Library Agent.FrameProtocol FrameCodec Compatibility

/-! ### The layout both encoders write -/

/-- A frame in the layout of version 3, whatever its version. -/
def wire (version typeByte flags : UInt8) (seq : UInt32) (originTs : UInt64)
    (payload : List UInt8) : List UInt8 :=
  [0x48, 0x54, version, typeByte, flags] ++ (BigEndian.bytes 4 seq.toNat ++
    (BigEndian.bytes 8 originTs.toNat ++ (BigEndian.bytes 4 payload.length ++ payload)))

/-- A payload within the limit has a length that fits its field. -/
theorem fits_of_small {payload : List UInt8}
    (hsmall : payload.length ≤ FrameCodec.maxFrameSize) : payload.length < 2 ^ 32 :=
  hsmall.trans_lt (by decide)

theorem encode_eq_wire {frame : Agent.FrameProtocol.Frame}
    (hsmall : frame.payload.length ≤ FrameCodec.maxFrameSize) :
    frame.encode = wire frame.version frame.frameType.toByte frame.flags frame.seq frame.originTs
      frame.payload := by
  have hdata := encode_append [] (fits_of_small hsmall)
  rwa [List.append_nil, List.append_nil] at hdata

theorem marshalFrame_eq_wire {f : FrameCodec.Frame}
    (hsmall : f.payload.length ≤ FrameCodec.maxFrameSize) (hversion : f.version ≠ 0) :
    marshalFrame f = .ok (wire f.version f.frameType f.flags f.seqNum f.originTS f.payload) := by
  have hlen : (UInt32.ofNat f.payload.length).toNat = f.payload.length :=
    UInt32.toNat_ofNat_of_lt' (fits_of_small hsmall)
  rw [marshalFrame, if_neg (not_lt.mpr hsmall), if_neg hversion, hlen]
  rfl

section Wire

variable (version typeByte flags : UInt8) (seq : UInt32) (originTs : UInt64)
  (payload : List UInt8)

theorem length_wire :
    (wire version typeByte flags seq originTs payload).length = 21 + payload.length := by
  simp [wire]
  omega

/-- The numbers of the layout, read where they are. Assumes: the payload length fits its field. -/
theorem fields_wire (hfits : payload.length < 2 ^ 32) :
    BigEndian.field (wire version typeByte flags seq originTs payload) 5 4 = seq.toNat ∧
      BigEndian.field (wire version typeByte flags seq originTs payload) 9 8 = originTs.toNat ∧
        BigEndian.field (wire version typeByte flags seq originTs payload) 17 4 =
          payload.length ∧
          (wire version typeByte flags seq originTs payload).drop 21 = payload := by
  refine ⟨?_, ?_, ?_, ?_⟩
  · exact BigEndian.field_bytes _ _ rfl seq.toNat_lt
  · rw [wire, ← List.append_assoc]
    exact BigEndian.field_bytes _ _ (by simp) originTs.toNat_lt
  · rw [wire, ← List.append_assoc, ← List.append_assoc]
    exact BigEndian.field_bytes _ _ (by simp) hfits
  · rw [wire, ← List.append_assoc, ← List.append_assoc, ← List.append_assoc]
    exact List.drop_left' (by simp)

/-- The numbers of the layout, each read one byte too early. Assumes: the payload length fits its
field. -/
theorem fields_wire_shifted (hfits : payload.length < 2 ^ 32) :
    BigEndian.field (wire version typeByte flags seq originTs payload) 4 4 =
        flags.toNat * 256 ^ 3 + seq.toNat / 256 ∧
      BigEndian.field (wire version typeByte flags seq originTs payload) 8 8 =
          seq.toNat % 256 * 256 ^ 7 + originTs.toNat / 256 ∧
        BigEndian.field (wire version typeByte flags seq originTs payload) 16 4 =
          originTs.toNat % 256 * 256 ^ 3 + payload.length / 256 := by
  refine ⟨?_, ?_, ?_⟩
  · exact BigEndian.field_behind_byte [0x48, 0x54, version, typeByte] _ flags rfl seq.toNat_lt
  · have hsplit : wire version typeByte flags seq originTs payload =
        ([0x48, 0x54, version, typeByte, flags] ++ BigEndian.bytes 3 (seq.toNat / 256)) ++
          UInt8.ofNat seq.toNat :: (BigEndian.bytes 8 originTs.toNat ++
            (BigEndian.bytes 4 payload.length ++ payload)) := by
      simp [wire, BigEndian.bytes]
    rw [hsplit, BigEndian.field_behind_byte _ _ _ (by simp) originTs.toNat_lt]
    rw [UInt8.toNat_ofNat']
  · have hsplit : wire version typeByte flags seq originTs payload =
        ([0x48, 0x54, version, typeByte, flags] ++ BigEndian.bytes 4 seq.toNat ++
          BigEndian.bytes 7 (originTs.toNat / 256)) ++ UInt8.ofNat originTs.toNat ::
            (BigEndian.bytes 4 payload.length ++ payload) := by
      simp [wire, BigEndian.bytes]
    rw [hsplit, BigEndian.field_behind_byte _ _ _ (by simp) hfits]
    rw [UInt8.toNat_ofNat']

/-- With the version taken for the type, and the flags and numbers read one byte too early, the
frame is not read back: all of them would be made of the byte 2, and so would the payload length,
which is then above the limit. Assumes: the payload length fits its field. -/
theorem not_reads_back (hfits : payload.length < 2 ^ 32) (htype : typeByte = 2)
    (hflags : typeByte = flags)
    (hseq : BigEndian.field (wire version typeByte flags seq originTs payload) 4 4 = seq.toNat)
    (horiginTs : BigEndian.field (wire version typeByte flags seq originTs payload) 8 8 =
      originTs.toNat)
    (hsmall : BigEndian.field (wire version typeByte flags seq originTs payload) 16 4 ≤
      FrameCodec.maxFrameSize) : False := by
  obtain ⟨hseq', horiginTs', hlength'⟩ :=
    fields_wire_shifted version typeByte flags seq originTs payload hfits
  have htwo : flags.toNat = 2 := by
    rw [← hflags, htype]
    rfl
  rw [hseq, htwo] at hseq'
  have hseqLast : seq.toNat % 256 = 2 := by omega
  rw [horiginTs, hseqLast] at horiginTs'
  have horiginTsLast : originTs.toNat % 256 = 2 := by omega
  rw [hlength', horiginTsLast, FrameCodec.maxFrameSize] at hsmall
  omega

end Wire

/-! ### The agent's side -/

/-- What a frame that the agent accepted tells: its payload is within the limit, and its version is
the third byte from 3 on, and 2 below. -/
theorem version_of_decode {data : List UInt8} {frame : Agent.FrameProtocol.Frame} {consumed : ℕ}
    (hdecode : Frame.decode data = .ok (some (frame, consumed))) :
    frame.payload.length ≤ FrameCodec.maxFrameSize ∧
      frame.version = if data.getD 2 0 < 3 then 2 else data.getD 2 0 := by
  have hbody : ∀ {version : UInt8} {start : ℕ},
      decodeBody version start data = .ok (some (frame, consumed)) →
        frame.payload.length ≤ FrameCodec.maxFrameSize ∧ frame.version = version := by
    intro version start hfound
    obtain ⟨_, _, hsmall, _, rfl, _⟩ := decodeBody_eq_some_iff.mp hfound
    exact ⟨(List.length_take_le _ _).trans hsmall, rfl⟩
  unfold Frame.decode Frame.decodeV2 at hdecode
  dsimp only at hdecode
  split_ifs at hdecode ⊢
  · exact nomatch hdecode
  · exact nomatch hdecode
  · exact hbody hdecode
  · exact nomatch hdecode
  · exact hbody hdecode

/-- The agent does not read back what it encodes of a frame of version 2. Assumes: the payload is
within the limit. -/
theorem decode_encode_ne {frame : Agent.FrameProtocol.Frame}
    (hsmall : frame.payload.length ≤ FrameCodec.maxFrameSize) (hversion : frame.version = 2)
    (consumed : ℕ) : Frame.decode frame.encode ≠ .ok (some (frame, consumed)) := by
  intro hdecode
  rw [encode_eq_wire hsmall] at hdecode
  have hlong : 21 ≤ (wire frame.version frame.frameType.toByte frame.flags frame.seq
      frame.originTs frame.payload).length := by
    rw [length_wire]
    exact Nat.le_add_right _ _
  have holder : ¬ (wire frame.version frame.frameType.toByte frame.flags frame.seq frame.originTs
      frame.payload).getD 2 0 ≥ 3 := by
    rw [show (wire frame.version frame.frameType.toByte frame.flags frame.seq frame.originTs
      frame.payload).getD 2 0 = 2 from hversion]
    decide
  rw [decode_eq hlong ⟨rfl, rfl⟩, if_neg holder] at hdecode
  obtain ⟨frameType, htype, hlength, _, hframe, _⟩ := decodeBody_eq_some_iff.mp hdecode
  have hsame : frame.frameType = frameType :=
    congrArg Agent.FrameProtocol.Frame.frameType hframe
  have htwo : frame.frameType.toByte = 2 := by
    rw [hsame, ← htype]
    exact hversion
  have hflags : frame.flags = frame.frameType.toByte :=
    congrArg Agent.FrameProtocol.Frame.flags hframe
  have hseq := congrArg (fun read ↦ read.seq.toNat) hframe
  have horiginTs := congrArg (fun read ↦ read.originTs.toNat) hframe
  dsimp only at hseq horiginTs
  rw [UInt32.toNat_ofNat_of_lt' (BigEndian.field_lt _ _ 4)] at hseq
  rw [UInt64.toNat_ofNat_of_lt' (BigEndian.field_lt _ _ 8)] at horiginTs
  exact not_reads_back _ _ _ _ _ _ (fits_of_small hsmall) htwo hflags.symm hseq.symm
    horiginTs.symm hlength

/-- The agent reads back what it encodes of a frame it accepted exactly when the third byte of the
data was at least 3. -/
theorem decode_again_iff {data : List UInt8} {frame : Agent.FrameProtocol.Frame} {consumed : ℕ}
    (hdecode : Frame.decode data = .ok (some (frame, consumed))) :
    (∃ again, Frame.decode frame.encode = .ok (some (frame, again))) ↔ 3 ≤ data.getD 2 0 := by
  obtain ⟨hsmall, hversion⟩ := version_of_decode hdecode
  by_cases holder : data.getD 2 0 < 3
  · rw [if_pos holder] at hversion
    exact iff_of_false (fun ⟨again, hagain⟩ ↦ decode_encode_ne hsmall hversion again hagain)
      (UInt8.not_le.mpr holder)
  · rw [if_neg holder] at hversion
    have hcurrent := UInt8.not_lt.mp holder
    have hagain := decode_encode [] (hversion ▸ hcurrent) hsmall
    rw [List.append_nil] at hagain
    exact iff_of_true ⟨_, hagain⟩ hcurrent

/-! ### The Go side -/

/-- What a frame that the Go side accepted tells: its payload is within the limit, and its version
is the third byte from 3 on, and 1 or 2 below. -/
theorem version_of_unmarshalFrame {data : List UInt8} {f : FrameCodec.Frame}
    (hread : unmarshalFrame data = .ok f) :
    f.payload.length ≤ FrameCodec.maxFrameSize ∧
      (if data.getD 2 0 ≥ 3 then f.version = data.getD 2 0 else f.version = 1 ∨ f.version = 2) := by
  have hsmall {header : FrameCodec.Frame} {payloadLen : UInt32} {hdrSize : ℕ}
      (hfound : unmarshalPayload header payloadLen hdrSize data = .ok f) :
      f.payload.length ≤ FrameCodec.maxFrameSize ∧ f.version = header.version := by
    obtain ⟨hversion, hlimit, hle, _⟩ := of_unmarshalPayload hfound
    exact ⟨hle.trans hlimit, hversion⟩
  obtain ⟨_, ⟨hcurrent, _, hfound⟩ | ⟨holder, _, hfound⟩ | ⟨holder, _, hfound⟩⟩ :=
    unmarshalFrame_cases hread
  · rw [if_pos hcurrent]
    exact hsmall hfound
  · rw [if_neg (UInt8.not_le.mpr holder)]
    exact (hsmall hfound).imp_right Or.inl
  · rw [if_neg (UInt8.not_le.mpr holder)]
    exact (hsmall hfound).imp_right Or.inr

/-- The Go side reads back what it marshals of a frame of version 3 or later. Assumes: the payload
is within the limit. -/
theorem unmarshalFrame_wire {f : FrameCodec.Frame}
    (hsmall : f.payload.length ≤ FrameCodec.maxFrameSize) (hversion : 3 ≤ f.version) :
    unmarshalFrame (wire f.version f.frameType f.flags f.seqNum f.originTS f.payload) = .ok f := by
  have hlength := length_wire f.version f.frameType f.flags f.seqNum f.originTS f.payload
  obtain ⟨hseq, horiginTS, hpayloadLen, hpayload⟩ := fields_wire f.version f.frameType f.flags
    f.seqNum f.originTS f.payload (fits_of_small hsmall)
  have hlong : ¬ (wire f.version f.frameType f.flags f.seqNum f.originTS f.payload).length <
      v3HeaderSize := by
    rw [hlength, not_lt]
    exact Nat.le_add_right _ _
  have hshort : (wire f.version f.frameType f.flags f.seqNum f.originTS f.payload).length <
      2 ^ 32 := by
    rw [hlength]
    simp only [FrameCodec.maxFrameSize] at hsmall
    omega
  have hcurrent : (wire f.version f.frameType f.flags f.seqNum f.originTS f.payload).getD 2 0 ≥ 3 :=
    hversion
  rw [unmarshalFrame_eq (by omega) ⟨rfl, rfl⟩, if_pos hcurrent, if_neg hlong,
    unmarshalPayload_eq_ok_iff hshort, toNat_uint32At, hpayloadLen]
  refine ⟨hsmall, by rw [hlength]; exact (Nat.add_sub_cancel_left _ _).ge, ?_⟩
  rw [uint32At, uint64At, hseq, horiginTS, v3HeaderSize, hpayload, List.take_length,
    UInt32.ofNat_toNat, UInt64.ofNat_toNat]
  rfl

/-- The Go side does not read back what it marshals of a frame of version 1 or 2. Assumes: the
payload is within the limit. -/
theorem unmarshalFrame_wire_ne {f : FrameCodec.Frame}
    (hsmall : f.payload.length ≤ FrameCodec.maxFrameSize)
    (hversion : f.version = 1 ∨ f.version = 2) :
    unmarshalFrame (wire f.version f.frameType f.flags f.seqNum f.originTS f.payload) ≠ .ok f := by
  intro hread
  have hlength := length_wire f.version f.frameType f.flags f.seqNum f.originTS f.payload
  have hshort : (wire f.version f.frameType f.flags f.seqNum f.originTS f.payload).length <
      2 ^ 32 := by
    rw [hlength]
    simp only [FrameCodec.maxFrameSize] at hsmall
    omega
  have holder : ¬ (wire f.version f.frameType f.flags f.seqNum f.originTS f.payload).getD 2 0 ≥
      3 := by
    change ¬ f.version ≥ 3
    rcases hversion with hone | htwo
    · rw [hone]
      decide
    · rw [htwo]
      decide
  rw [unmarshalFrame_eq (by omega) ⟨rfl, rfl⟩, if_neg holder,
    unmarshalPayload_eq_ok_iff hshort, toNat_uint32At] at hread
  obtain ⟨hlimit, _, hframe⟩ := hread
  have htwo : f.version = 2 := congrArg FrameCodec.Frame.version hframe
  have htype : f.frameType = 2 := (congrArg FrameCodec.Frame.frameType hframe).trans htwo
  have hflags : f.flags = f.frameType := congrArg FrameCodec.Frame.flags hframe
  have hseq := congrArg (fun read ↦ read.seqNum.toNat) hframe
  have horiginTS := congrArg (fun read ↦ read.originTS.toNat) hframe
  dsimp only at hseq horiginTS
  rw [toNat_uint32At] at hseq
  rw [uint64At, UInt64.toNat_ofNat_of_lt' (BigEndian.field_lt _ _ 8)] at horiginTS
  exact not_reads_back _ _ _ _ _ _ (fits_of_small hsmall) htype hflags.symm hseq.symm
    horiginTS.symm hlimit

/-- The Go side reads back what it marshals of a frame it accepted exactly when the third byte of
the data was at least 3. -/
theorem unmarshalFrame_again_iff {data : List UInt8} {f : FrameCodec.Frame}
    (hread : unmarshalFrame data = .ok f) :
    (∃ bytes, marshalFrame f = .ok bytes ∧ unmarshalFrame bytes = .ok f) ↔
      3 ≤ data.getD 2 0 := by
  obtain ⟨hsmall, hversion⟩ := version_of_unmarshalFrame hread
  have hnonzero : f.version ≠ 0 := by
    rintro hzero
    split_ifs at hversion with hcurrent
    · rw [← hversion, hzero] at hcurrent
      exact absurd hcurrent (by decide)
    · rw [hzero] at hversion
      exact absurd hversion (by decide)
  rw [marshalFrame_eq_wire hsmall hnonzero]
  simp only [Except.ok.injEq, exists_eq_left']
  by_cases hcurrent : data.getD 2 0 ≥ 3
  · rw [if_pos hcurrent] at hversion
    exact iff_of_true (unmarshalFrame_wire hsmall (hversion ▸ hcurrent)) hcurrent
  · rw [if_neg hcurrent] at hversion
    exact iff_of_false (unmarshalFrame_wire_ne hsmall hversion) hcurrent

/-! ### Both sides -/

/-- Each side reads back what it encodes of a frame that it accepted from some data, exactly when
the third byte of the data is at least 3 or no side accepts the data. -/
theorem reencoding_stable_iff (data : List UInt8) :
    ((∀ frame consumed, Frame.decode data = .ok (some (frame, consumed)) →
          ∃ again, Frame.decode frame.encode = .ok (some (frame, again))) ∧
        ∀ f, unmarshalFrame data = .ok f →
          ∃ bytes, marshalFrame f = .ok bytes ∧ unmarshalFrame bytes = .ok f) ↔
      (3 ≤ data.getD 2 0 ∨
        (∀ frame consumed, Frame.decode data ≠ .ok (some (frame, consumed))) ∧
          ∀ f, unmarshalFrame data ≠ .ok f) := by
  constructor
  · rintro ⟨hagent, hgo⟩
    by_contra hneither
    obtain ⟨holder, haccepted⟩ := not_or.mp hneither
    refine haccepted ⟨fun frame consumed hdecode ↦ ?_, fun f hread ↦ ?_⟩
    · exact holder ((decode_again_iff hdecode).mp (hagent frame consumed hdecode))
    · exact holder ((unmarshalFrame_again_iff hread).mp (hgo f hread))
  · rintro (hcurrent | ⟨hagent, hgo⟩)
    · exact ⟨fun frame consumed hdecode ↦ (decode_again_iff hdecode).mpr hcurrent,
        fun f hread ↦ (unmarshalFrame_again_iff hread).mpr hcurrent⟩
    · exact ⟨fun frame consumed hdecode ↦ absurd hdecode (hagent frame consumed),
        fun f hread ↦ absurd hread (hgo f)⟩

/-- A data frame of version 2 with one byte of payload is accepted on both sides, and on both sides
what is encoded of it is not read back. -/
theorem reencoding_counterexample :
    Frame.decode (v2Bytes .data 0 7 0 [1]) = .ok (some (⟨2, .data, 0, 7, 0, [1]⟩, 21)) ∧
      unmarshalFrame (v2Bytes .data 0 7 0 [1]) = .ok ⟨2, 0x02, 0, 7, 0, [1]⟩ ∧
      (¬ ∃ again, Frame.decode (Agent.FrameProtocol.Frame.mk 2 .data 0 7 0 [1]).encode =
        .ok (some (⟨2, .data, 0, 7, 0, [1]⟩, again))) ∧
      ¬ ∃ bytes, marshalFrame ⟨2, 0x02, 0, 7, 0, [1]⟩ = .ok bytes ∧
        unmarshalFrame bytes = .ok ⟨2, 0x02, 0, 7, 0, [1]⟩ := by
  have hagent : Frame.decode (v2Bytes .data 0 7 0 [1]) =
      .ok (some (⟨2, .data, 0, 7, 0, [1]⟩, 21)) := by decide
  have hgo : unmarshalFrame (v2Bytes .data 0 7 0 [1]) = .ok ⟨2, 0x02, 0, 7, 0, [1]⟩ := by decide
  have holder : ¬ 3 ≤ (v2Bytes .data 0 7 0 [1]).getD 2 0 := by decide
  exact ⟨hagent, hgo, (decode_again_iff hagent).not.mpr holder,
    (unmarshalFrame_again_iff hgo).not.mpr holder⟩

end LiveCDN.Protocol.Reencoding
