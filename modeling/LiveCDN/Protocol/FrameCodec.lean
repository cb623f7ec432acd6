import LiveCDN.Library.BigEndian

/-!
# The frame codec of the Go side

`internal/protocol/protocol.go`: `MarshalFrame` and `UnmarshalFrame`, which the controller and the
Go agent share. The encoder writes one layout and the decoder tells three apart. A value of at least
3 in byte 2 is a version and selects the 21-byte header; any other value is taken as a frame type,
and the length of the data decides between the 20-byte header and the 12-byte header without a
timestamp. The layouts end in the same checks of the payload length, `unmarshalPayload`.

Scope. `FrameType` is a byte on this side and is not checked. `len(data)` is converted to 32 bits
before it is compared with the payload length, as in the source.
-/

set_option autoImplicit false
set_option relaxedAutoImplicit false

namespace LiveCDN.Protocol.FrameCodec

open Library

/-! ### Frames -/

/-- `magicByte1` and `magicByte2`. -/
def magic : List UInt8 := [0x48, 0x54]

/-- `v3HeaderSize`. -/
def v3HeaderSize : ℕ := 21

/-- `v2HeaderSize`. -/
def v2HeaderSize : ℕ := 20

/-- `v1HeaderSize`. -/
def v1HeaderSize : ℕ := 12

/-- `maxFrameSize`, one MiB. -/
def maxFrameSize : ℕ := 1 <<< 20

/-- `Frame`. -/
structure Frame where
  version : UInt8
  frameType : UInt8
  flags : UInt8
  seqNum : UInt32
  originTS : UInt64
  payload : List UInt8
  deriving DecidableEq, Repr

/-- The errors of `UnmarshalFrame`, with the numbers their texts show. -/
inductive FrameError
  | dataTooShort (length : ℕ)
  | invalidMagic
  | dataTooShortV3 (length : ℕ)
  | payloadTooLarge (payloadLen : UInt32)
  | incompletePayload (payloadLen : UInt32) (present : ℕ)
  deriving DecidableEq, Repr

/-! ### Decoding -/

/-- `binary.BigEndian.Uint32(data[offset:offset+4])`. -/
def uint32At (data : List UInt8) (offset : ℕ) : UInt32 :=
  UInt32.ofNat (BigEndian.field data offset 4)

/-- `binary.BigEndian.Uint64(data[offset:offset+8])`. -/
def uint64At (data : List UInt8) (offset : ℕ) : UInt64 :=
  UInt64.ofNat (BigEndian.field data offset 8)

/-- The end of `UnmarshalFrame`: the checks of the payload length and the payload. -/
def unmarshalPayload (f : Frame) (payloadLen : UInt32) (hdrSize : ℕ) (data : List UInt8) :
    Except FrameError Frame :=
  if payloadLen.toNat > maxFrameSize then .error (.payloadTooLarge payloadLen)
  else if UInt32.ofNat (data.length - hdrSize) < payloadLen then
    .error (.incompletePayload payloadLen (data.length - hdrSize))
  else .ok { f with payload := (data.drop hdrSize).take payloadLen.toNat }

/-- `UnmarshalFrame`. -/
def unmarshalFrame (data : List UInt8) : Except FrameError Frame :=
  if data.length < v1HeaderSize then .error (.dataTooShort data.length)
  else if data.getD 0 0 ≠ magic.getD 0 0 ∨ data.getD 1 0 ≠ magic.getD 1 0 then
    .error .invalidMagic
  else
    let version := data.getD 2 0
    if version ≥ 3 then
      if data.length < v3HeaderSize then .error (.dataTooShortV3 data.length)
      else
        unmarshalPayload
          ⟨version, data.getD 3 0, data.getD 4 0, uint32At data 5, uint64At data 9, []⟩
          (uint32At data 17) v3HeaderSize data
    else if data.length < v2HeaderSize then
      unmarshalPayload ⟨1, data.getD 2 0, data.getD 3 0, uint32At data 4, 0, []⟩
        (uint32At data 8) v1HeaderSize data
    else
      unmarshalPayload ⟨2, data.getD 2 0, data.getD 3 0, uint32At data 4, uint64At data 8, []⟩
        (uint32At data 16) v2HeaderSize data

/-! ### Encoding -/

/-- `ProtoVersion`. -/
def protoVersion : UInt8 := 3

/-- `MarshalFrame`: the bytes, or the length of a payload that is too large. -/
def marshalFrame (f : Frame) : Except ℕ (List UInt8) :=
  if f.payload.length > maxFrameSize then .error f.payload.length
  else
    .ok (magic ++ ([if f.version = 0 then protoVersion else f.version, f.frameType, f.flags] ++
      (BigEndian.bytes 4 f.seqNum.toNat ++ (BigEndian.bytes 8 f.originTS.toNat ++
        (BigEndian.bytes 4 (UInt32.ofNat f.payload.length).toNat ++ f.payload)))))

/-! ### What is accepted -/

/-- A number read from four bytes is the number the bytes spell. -/
theorem toNat_uint32At (data : List UInt8) (offset : ℕ) :
    (uint32At data offset).toNat = BigEndian.field data offset 4 :=
  UInt32.toNat_ofNat_of_lt' (BigEndian.field_lt data offset 4)

/-- A payload is accepted exactly when its length is within the limit and the data holds it.
Assumes: the data is shorter than `2 ^ 32` bytes. -/
theorem unmarshalPayload_eq_ok_iff {f frame : Frame} {payloadLen : UInt32} {hdrSize : ℕ}
    {data : List UInt8} (hshort : data.length < 2 ^ 32) :
    unmarshalPayload f payloadLen hdrSize data = .ok frame ↔
      payloadLen.toNat ≤ maxFrameSize ∧ payloadLen.toNat ≤ data.length - hdrSize ∧
        frame = { f with payload := (data.drop hdrSize).take payloadLen.toNat } := by
  have hpresent : (UInt32.ofNat (data.length - hdrSize)).toNat = data.length - hdrSize :=
    UInt32.toNat_ofNat_of_lt' (show data.length - hdrSize < 2 ^ 32 by omega)
  have hincomplete : UInt32.ofNat (data.length - hdrSize) < payloadLen ↔
      data.length - hdrSize < payloadLen.toNat := by
    rw [UInt32.lt_iff_toNat_lt, hpresent]
  unfold unmarshalPayload
  by_cases hlarge : payloadLen.toNat > maxFrameSize
  · rw [if_pos hlarge]
    refine iff_of_false (fun h ↦ by cases h) fun h ↦ ?_
    exact absurd hlarge (not_lt.mpr h.1)
  · rw [if_neg hlarge]
    by_cases hmissing : UInt32.ofNat (data.length - hdrSize) < payloadLen
    · rw [if_pos hmissing]
      refine iff_of_false (fun h ↦ by cases h) fun h ↦ ?_
      exact absurd (hincomplete.mp hmissing) (not_lt.mpr h.2.1)
    · rw [if_neg hmissing, Except.ok.injEq]
      rw [hincomplete, not_lt] at hmissing
      exact ⟨fun h ↦ ⟨not_lt.mp hlarge, hmissing, h.symm⟩, fun h ↦ h.2.2.symm⟩

/-- What an accepted payload tells of the header: the version is the header's, the length is within
the limit, and it is that of the payload when the data ends behind it. -/
theorem of_unmarshalPayload {f header : Frame} {payloadLen : UInt32} {hdrSize : ℕ}
    {data : List UInt8} (hread : unmarshalPayload header payloadLen hdrSize data = .ok f) :
    f.version = header.version ∧ payloadLen.toNat ≤ maxFrameSize ∧
      f.payload.length ≤ payloadLen.toNat ∧
        (data.length = hdrSize + f.payload.length → f.payload.length = payloadLen.toNat) := by
  unfold unmarshalPayload at hread
  split_ifs at hread with hlarge hmissing
  obtain rfl := Except.ok.inj hread
  have hle : ((data.drop hdrSize).take payloadLen.toNat).length ≤ payloadLen.toNat :=
    List.length_take_le _ _
  have hlimit := not_lt.mp hlarge
  refine ⟨rfl, hlimit, hle, fun hwhole ↦ le_antisymm hle ?_⟩
  have hpresent : data.length - hdrSize = ((data.drop hdrSize).take payloadLen.toNat).length :=
    Nat.sub_eq_of_eq_add' hwhole
  have hfits : ((data.drop hdrSize).take payloadLen.toNat).length < 2 ^ 32 :=
    hle.trans_lt payloadLen.toNat_lt
  rwa [hpresent, UInt32.lt_iff_toNat_lt, not_lt, UInt32.toNat_ofNat_of_lt' hfits] at hmissing

/-- The three layouts of data that is accepted. -/
theorem unmarshalFrame_cases {data : List UInt8} {f : Frame}
    (hread : unmarshalFrame data = .ok f) :
    (v1HeaderSize ≤ data.length ∧ data.getD 0 0 = 0x48 ∧ data.getD 1 0 = 0x54) ∧
      ((3 ≤ data.getD 2 0 ∧ v3HeaderSize ≤ data.length ∧
          unmarshalPayload
            ⟨data.getD 2 0, data.getD 3 0, data.getD 4 0, uint32At data 5, uint64At data 9, []⟩
            (uint32At data 17) v3HeaderSize data = .ok f) ∨
        (data.getD 2 0 < 3 ∧ data.length < v2HeaderSize ∧
          unmarshalPayload ⟨1, data.getD 2 0, data.getD 3 0, uint32At data 4, 0, []⟩
            (uint32At data 8) v1HeaderSize data = .ok f) ∨
        (data.getD 2 0 < 3 ∧ v2HeaderSize ≤ data.length ∧
          unmarshalPayload
            ⟨2, data.getD 2 0, data.getD 3 0, uint32At data 4, uint64At data 8, []⟩
            (uint32At data 16) v2HeaderSize data = .ok f)) := by
  unfold unmarshalFrame at hread
  dsimp only at hread
  split_ifs at hread with hshort hmagic hversion hv3 hv2
  all_goals
    refine ⟨⟨not_lt.mp hshort, by_contra fun h ↦ hmagic (Or.inl h),
      by_contra fun h ↦ hmagic (Or.inr h)⟩, ?_⟩
  · exact Or.inl ⟨hversion, not_lt.mp hv3, hread⟩
  · exact Or.inr (Or.inl ⟨UInt8.not_le.mp hversion, hv2, hread⟩)
  · exact Or.inr (Or.inr ⟨UInt8.not_le.mp hversion, not_lt.mp hv2, hread⟩)

end LiveCDN.Protocol.FrameCodec
