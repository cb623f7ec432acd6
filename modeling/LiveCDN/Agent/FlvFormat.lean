import LiveCDN.Library.BigEndian

/-!
# FLV tags and their wire form

The data of `relay/flv.rs` and the serializers of `relay/flv_output.rs`. An FLV stream is a header
followed by tags, each an 11-byte tag header, the tag data and a 4-byte trailer holding the size of
what precedes it. `FlvTag` is what a tag carries over the wire; `FlvTagPacket` adds the timestamp
the puller stamps on receipt, which the wire form leaves out.

`headerField_buildFlvTagWire` reads every field of the tag header back from the wire form, the data
size as long as the data fits its 24-bit field.
-/

set_option autoImplicit false
set_option relaxedAutoImplicit false

namespace LiveCDN.Agent.FlvFormat

open Library

/-! ### Constants and tag types -/

/-- `FLV_HEADER_LEN`: signature, version, flags and header size. -/
def flvHeaderLen : ℕ := 9

/-- `TAG_HEADER_LEN`: type, data size, timestamp, extended timestamp and stream id. -/
def tagHeaderLen : ℕ := 11

/-- `PREV_TAG_SIZE_LEN`. -/
def prevTagSizeLen : ℕ := 4

/-- `FlvTagType`. -/
inductive FlvTagType
  | audio
  | video
  | script
  deriving DecidableEq, Repr

/-- The discriminant of a tag type, `tag_type as u8`. -/
def FlvTagType.toByte : FlvTagType → UInt8
  | .audio => 0x08
  | .video => 0x09
  | .script => 0x12

/-- `FlvTagType::try_from`: the unknown byte is the error. -/
def FlvTagType.tryFrom (v : UInt8) : Except UInt8 FlvTagType :=
  if v = 0x08 then .ok .audio
  else if v = 0x09 then .ok .video
  else if v = 0x12 then .ok .script
  else .error v

@[simp] theorem FlvTagType.tryFrom_toByte (tagType : FlvTagType) :
    FlvTagType.tryFrom tagType.toByte = .ok tagType := by
  cases tagType <;> rfl

/-- A known type byte is the discriminant of its type. -/
theorem FlvTagType.toByte_of_tryFrom {v : UInt8} {tagType : FlvTagType}
    (htype : FlvTagType.tryFrom v = .ok tagType) : tagType.toByte = v := by
  unfold FlvTagType.tryFrom at htype
  split_ifs at htype with haudio hvideo hscript
  · obtain rfl := Except.ok.inj htype
    exact haudio.symm
  · obtain rfl := Except.ok.inj htype
    exact hvideo.symm
  · obtain rfl := Except.ok.inj htype
    exact hscript.symm

/-- What a tag carries over the wire. -/
structure FlvTag where
  tagType : FlvTagType
  timestampMs : UInt32
  data : List UInt8
  deriving DecidableEq, Repr

/-- `FlvTagPacket`: a tag with the origin timestamp stamped on receipt. -/
structure FlvTagPacket extends FlvTag where
  originTs : UInt64
  deriving DecidableEq, Repr

/-! ### Serialization -/

/-- `build_flv_header`: signature, version 1, flags for audio and video, header size 9 and
`PreviousTagSize0`. -/
def buildFlvHeader : List UInt8 :=
  [0x46, 0x4C, 0x56] ++ [0x01] ++ [0x05] ++ BigEndian.bytes 4 9 ++ BigEndian.bytes 4 0

/-- The 11-byte tag header written by `build_flv_tag_wire`. -/
def tagHeader (tag : FlvTag) : List UInt8 :=
  let dataSize := UInt32.ofNat tag.data.length
  let ts := tag.timestampMs
  [tag.tagType.toByte,
    (dataSize >>> 16).toUInt8, (dataSize >>> 8).toUInt8, dataSize.toUInt8,
    (ts >>> 16).toUInt8, (ts >>> 8).toUInt8, ts.toUInt8,
    (ts >>> 24).toUInt8,
    0, 0, 0]

/-- `build_flv_tag_wire`: tag header, data, and the trailing size `11 + data_size`. -/
def buildFlvTagWire (tag : FlvTag) : List UInt8 :=
  tagHeader tag ++ tag.data ++ BigEndian.bytes 4 (11 + UInt32.ofNat tag.data.length).toNat

@[simp] theorem length_buildFlvHeader : buildFlvHeader.length = 13 := rfl

@[simp] theorem length_tagHeader (tag : FlvTag) : (tagHeader tag).length = 11 := rfl

/-- A tag takes 15 bytes more than its data. -/
@[simp] theorem length_buildFlvTagWire (tag : FlvTag) :
    (buildFlvTagWire tag).length = tag.data.length + 15 := by
  simp only [buildFlvTagWire, List.length_append, length_tagHeader, BigEndian.length_bytes]
  omega

/-! ### The fields of a tag header -/

/-- The 24-bit data size as the puller assembles it from bytes 1 to 3 of its buffer. -/
def dataSizeField (buffer : List UInt8) : ℕ :=
  ((buffer.getD 1 0).toNat <<< 16) ||| ((buffer.getD 2 0).toNat <<< 8) ||| (buffer.getD 3 0).toNat

/-- The timestamp as the puller assembles it from bytes 4 to 7 of its buffer, the extension byte
last. -/
def timestampField (buffer : List UInt8) : ℕ :=
  ((buffer.getD 4 0).toNat <<< 16) ||| ((buffer.getD 5 0).toNat <<< 8) ||| (buffer.getD 6 0).toNat
    ||| ((buffer.getD 7 0).toNat <<< 24)

/-- Three bytes shifted into place and joined are their weighted sum. Assumes: the lower two are
bytes. -/
theorem shift_join_three {high middle low : ℕ} (hmiddle : middle < 256) (hlow : low < 256) :
    (high <<< 16) ||| (middle <<< 8) ||| low = high * 65536 + middle * 256 + low := by
  have hjoined : middle <<< 8 ||| low = middle * 256 + low := by
    rw [← Nat.shiftLeft_add_eq_or_of_lt hlow, Nat.shiftLeft_eq]
  rw [Nat.or_assoc, hjoined, ← Nat.shiftLeft_add_eq_or_of_lt (by omega), Nat.shiftLeft_eq]
  omega

/-- The data size field spelled as a number. -/
theorem dataSizeField_eq (buffer : List UInt8) :
    dataSizeField buffer = (buffer.getD 1 0).toNat * 65536 + (buffer.getD 2 0).toNat * 256 +
      (buffer.getD 3 0).toNat :=
  shift_join_three (UInt8.toNat_lt _) (UInt8.toNat_lt _)

/-- The timestamp field spelled as a number. -/
theorem timestampField_eq (buffer : List UInt8) :
    timestampField buffer = (buffer.getD 7 0).toNat * 16777216 +
      (buffer.getD 4 0).toNat * 65536 + (buffer.getD 5 0).toNat * 256 +
        (buffer.getD 6 0).toNat := by
  have hhigh := UInt8.toNat_lt (buffer.getD 4 0)
  have hmiddle := UInt8.toNat_lt (buffer.getD 5 0)
  have hlow := UInt8.toNat_lt (buffer.getD 6 0)
  rw [timestampField, shift_join_three hmiddle hlow, Nat.or_comm,
    ← Nat.shiftLeft_add_eq_or_of_lt (by omega), Nat.shiftLeft_eq]
  omega

/-- The fields of a buffer that begins with the wire form of a tag. Assumes: the data fits the
24-bit size field. -/
theorem headerField_buildFlvTagWire (tag : FlvTag) (more : List UInt8)
    (hsize : tag.data.length < 2 ^ 24) :
    (buildFlvTagWire tag ++ more).getD 0 0 = tag.tagType.toByte ∧
      dataSizeField (buildFlvTagWire tag ++ more) = tag.data.length ∧
      timestampField (buildFlvTagWire tag ++ more) = tag.timestampMs.toNat := by
  have hts := tag.timestampMs.toNat_lt
  refine ⟨rfl, ?_, ?_⟩
  · rw [dataSizeField_eq]
    simp only [buildFlvTagWire, tagHeader, List.cons_append, List.getD_cons_succ,
      List.getD_cons_zero, UInt32.toNat_toUInt8, UInt32.toNat_shiftRight, UInt32.toNat_ofNat',
      Nat.shiftRight_eq_div_pow, UInt32.reduceToNat, Nat.reduceMod, Nat.reducePow]
    omega
  · rw [timestampField_eq]
    simp only [buildFlvTagWire, tagHeader, List.cons_append, List.getD_cons_succ,
      List.getD_cons_zero, UInt32.toNat_toUInt8, UInt32.toNat_shiftRight, Nat.shiftRight_eq_div_pow,
      UInt32.reduceToNat, Nat.reduceMod, Nat.reducePow]
    omega

end LiveCDN.Agent.FlvFormat
