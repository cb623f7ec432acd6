import LiveCDN.Agent.FrameProtocol
import LiveCDN.Library.TypedArray

/-!
# How the player reads frames

`web/player.html`: `handleStreamData` reads a binary message as one frame, with its own copy of the
two header layouts, and hands the payload of a data frame on to the decryptor (`handedOn`). The
agent's decoder is `Frame.decode`.

A frame of the agent's encoder is read back exactly when its payload is shorter than `2 ^ 31` bytes:
the length field is put together with `<<` and `|`, which give a signed number, so the end of a
longer payload is taken from the end of the message (`handleStreamData_encode_iff`). On the messages
of at least a header, the player and the agent's decoder hand on the same payloads, except for the
data frames that the decoder refuses as too large or waits for more bytes of: the player has no
bound on the length and takes what there is of the payload (`handedOn_eq_iff`).

Scope. The display of the latency and the time of the last message are left out.
-/

set_option autoImplicit false
set_option relaxedAutoImplicit false

namespace LiveCDN.Player.FrameReading

open Library Library.TypedArray Agent.FrameProtocol

/-! ### Reading a message -/

/-- What `handleStreamData` makes of a message: nothing, a chunk without a frame around it, or a
frame. -/
inductive Reading
  | ignored
  | raw (data : List UInt8)
  | frame (frameType : UInt8) (originTs : UInt64) (payload : List UInt8)
  deriving DecidableEq, Repr

/-- The four bytes of a length field, `(data[17] << 24) | (data[18] << 16) | ..`. -/
def payloadLenAt (data : List UInt8) (offset : ℕ) : ℤ :=
  joinBytes (data.getD offset 0) (data.getD (offset + 1) 0) (data.getD (offset + 2) 0)
    (data.getD (offset + 3) 0)

/-- A frame whose type byte is at a position: the header ends 18 bytes later. -/
def frameAt (start : ℕ) (data : List UInt8) : Reading :=
  .frame (data.getD start 0) (UInt64.ofNat (BigEndian.field data (start + 6) 8))
    (slice data (start + 18) ((start + 18 : ℕ) + payloadLenAt data (start + 14)))

/-- `handleStreamData`, up to the decryption: version 3 has a byte for the version before the type,
and version 2 has none. -/
def handleStreamData (data : List UInt8) : Reading :=
  if data.length < 21 then .ignored
  else if data.getD 0 0 ≠ 0x48 ∨ data.getD 1 0 ≠ 0x54 then .raw data
  else if 3 ≤ data.getD 2 0 then frameAt 3 data
  else frameAt 2 data

/-- The payload that is handed on to the decryptor, `frameType === 0x02`. -/
def Reading.handedOn : Reading → Option (List UInt8)
  | .frame frameType _ payload => if frameType = 0x02 then some payload else none
  | _ => none

/-! ### Layouts -/

/-- The position of the type byte. -/
def typeAt (data : List UInt8) : ℕ := if 3 ≤ data.getD 2 0 then 3 else 2

/-- The payload length that the header announces. -/
def announced (data : List UInt8) : ℕ := BigEndian.field data (typeAt data + 14) 4

/-- A message that begins like a frame. -/
def HasHeader (data : List UInt8) : Prop :=
  21 ≤ data.length ∧ data.getD 0 0 = 0x48 ∧ data.getD 1 0 = 0x54

variable {data : List UInt8}

theorem typeAt_le (data : List UInt8) : typeAt data ≤ 3 := by
  unfold typeAt
  split_ifs <;> omega

/-- The length field, read as a signed number. -/
theorem payloadLenAt_eq {offset : ℕ} (hinside : offset + 4 ≤ data.length) :
    payloadLenAt data offset = Int.bmod (BigEndian.field data offset 4) (2 ^ 32) := by
  rw [payloadLenAt, joinBytes_eq_bmod, value_getD hinside]

theorem handleStreamData_of_hasHeader (hheader : HasHeader data) :
    handleStreamData data = frameAt (typeAt data) data := by
  obtain ⟨hlength, hfirst, hsecond⟩ := hheader
  unfold handleStreamData typeAt
  rw [if_neg (not_lt.mpr hlength), if_neg (by simp only [hfirst, hsecond, ne_eq, not_true,
    or_self, not_false_eq_true])]
  split_ifs <;> rfl

/-- The agent's decoder takes the same layout as the player. -/
theorem decode_of_hasHeader (hheader : HasHeader data) :
    ∃ version, Frame.decode data = decodeBody version (typeAt data) data := by
  obtain ⟨hlength, hfirst, hsecond⟩ := hheader
  have hlong : ¬ data.length < headerSize := not_lt.mpr hlength
  unfold Frame.decode typeAt
  rw [if_neg hlong, if_neg (by
    simp only [hfirst, hsecond, magic, List.getD_cons_zero, List.getD_cons_succ, ne_eq, not_true,
      or_self, not_false_eq_true])]
  dsimp only
  by_cases hcurrent : 3 ≤ data.getD 2 0
  · rw [if_neg (UInt8.not_lt.mpr hcurrent), if_pos hcurrent]
    exact ⟨_, rfl⟩
  · rw [if_pos (UInt8.not_le.mp hcurrent), if_neg hcurrent, Frame.decodeV2,
      if_neg (by unfold v2HeaderSize; omega)]
    exact ⟨2, rfl⟩

/-- A message that does not begin like a frame is handed on by neither. -/
theorem handleStreamData_of_not_hasHeader (hheader : ¬ HasHeader data) :
    (handleStreamData data).handedOn = none := by
  unfold handleStreamData
  split_ifs with hshort hmagic
  · rfl
  · rfl
  all_goals
    push Not at hmagic
    exact absurd ⟨not_lt.mp hshort, hmagic⟩ hheader

theorem decode_of_not_hasHeader (hheader : ¬ HasHeader data) (frame : Frame) (consumed : ℕ) :
    Frame.decode data ≠ .ok (some (frame, consumed)) := by
  unfold Frame.decode
  split_ifs with hshort hmagic
  · nofun
  · nofun
  · push Not at hmagic
    exact absurd ⟨not_lt.mp hshort, hmagic⟩ hheader

/-! ### Payloads -/

/-- A payload is what there is of the announced bytes. Assumes: the header is there, and it
announces fewer than `2 ^ 31` bytes. -/
theorem frameAt_of_lt {start : ℕ} (hinside : start + 18 ≤ data.length)
    (hsmall : BigEndian.field data (start + 14) 4 < 2 ^ 31) :
    frameAt start data = .frame (data.getD start 0)
      (UInt64.ofNat (BigEndian.field data (start + 6) 8))
      ((data.drop (start + 18)).take (BigEndian.field data (start + 14) 4)) := by
  have hlength : payloadLenAt data (start + 14) = (BigEndian.field data (start + 14) 4 : ℕ) := by
    rw [payloadLenAt_eq (by omega)]
    exact Int.bmod_eq_of_le (by omega) (by omega)
  rw [frameAt, hlength, ← Nat.cast_add, slice_natCast]

/-- The payload of a data frame that the agent's decoder reads. -/
def decodedPayload (data : List UInt8) : Option (List UInt8) :=
  match Frame.decode data with
  | .ok (some (frame, _)) => if frame.frameType = .data then some frame.payload else none
  | _ => none

theorem decodedPayload_of_not_frame
    (hnone : ∀ frame consumed, Frame.decode data ≠ .ok (some (frame, consumed))) :
    decodedPayload data = none := by
  unfold decodedPayload
  split
  · next frame consumed hdecode => exact absurd hdecode (hnone frame consumed)
  · rfl

theorem toByte_eq_two_iff (frameType : FrameType) :
    frameType.toByte = 0x02 ↔ frameType = .data := by
  cases frameType <;> decide

/-- What a message that begins like a frame is handed on as. -/
theorem handedOn_of_hasHeader (hheader : HasHeader data) :
    (handleStreamData data).handedOn =
      if data.getD (typeAt data) 0 = 0x02 then
        some (slice data (typeAt data + 18)
          ((typeAt data + 18 : ℕ) + payloadLenAt data (typeAt data + 14)))
      else none := by
  rw [handleStreamData_of_hasHeader hheader]
  rfl

/-- The player and the agent's decoder hand on the same payload of a message exactly when it is no
data frame, or one with a payload of at most `maxFrameSize` bytes that are all there. -/
theorem handedOn_eq_iff (data : List UInt8) :
    (handleStreamData data).handedOn = decodedPayload data ↔
      (HasHeader data ∧ data.getD (typeAt data) 0 = 0x02 →
        announced data ≤ maxFrameSize ∧ typeAt data + 18 + announced data ≤ data.length) := by
  by_cases hheader : HasHeader data
  · obtain ⟨version, hdecode⟩ := decode_of_hasHeader hheader
    have hinside : typeAt data + 18 ≤ data.length := by
      have := typeAt_le data
      have := hheader.1
      omega
    have hrefused : (∀ frame consumed, decodeBody version (typeAt data) data ≠
        .ok (some (frame, consumed))) → decodedPayload data = none := fun hbody ↦
      decodedPayload_of_not_frame fun frame consumed ↦ hdecode ▸ hbody frame consumed
    rw [handedOn_of_hasHeader hheader, and_iff_right hheader, announced]
    rcases decodeBody_cases version (typeAt data) data with
      ⟨error, htype, hbody⟩ | ⟨frameType, htype, houtcome⟩
    · -- a type that the decoder does not know is not the one of data
      have hother : data.getD (typeAt data) 0 ≠ 0x02 := by
        intro htwo
        rw [htwo] at htype
        exact nomatch htype
      rw [if_neg hother, hrefused (by rw [hbody]; nofun)]
      exact iff_of_true rfl fun htwo ↦ absurd htwo hother
    · have hbyte : data.getD (typeAt data) 0 = 0x02 ↔ frameType = .data := by
        rw [FrameType.tryFrom_eq_ok_iff.mp htype, toByte_eq_two_iff]
      simp only [hbyte]
      rcases houtcome with ⟨hlarge, hbody⟩ | ⟨-, hshort, hbody⟩ | ⟨hsmall, hpresent, hbody⟩
      · rw [hrefused (by rw [hbody]; nofun)]
        split_ifs with hdata
        · exact iff_of_false nofun fun h ↦ absurd (h hdata).1 (not_le.mpr hlarge)
        · exact iff_of_true rfl fun h ↦ absurd h hdata
      · rw [hrefused (by rw [hbody]; nofun)]
        split_ifs with hdata
        · exact iff_of_false nofun fun h ↦ absurd (h hdata).2 (not_le.mpr hshort)
        · exact iff_of_true rfl fun h ↦ absurd h hdata
      · have hlimit : maxFrameSize < 2 ^ 31 := by decide
        have hpayload := frameAt_of_lt hinside (hsmall.trans_lt hlimit)
        rw [frameAt, Reading.frame.injEq] at hpayload
        refine iff_of_true ?_ fun _ ↦ ⟨hsmall, hpresent⟩
        rw [hpayload.2.2, decodedPayload, hdecode, hbody]
  · have hnone : decodedPayload data = none :=
      decodedPayload_of_not_frame (decode_of_not_hasHeader hheader)
    rw [handleStreamData_of_not_hasHeader hheader, hnone]
    exact iff_of_true rfl fun h ↦ absurd h.1 hheader

/-! ### Frames of the agent -/

section Encoded

variable (frame : Frame)

theorem hasHeader_encode : HasHeader frame.encode := by
  refine ⟨?_, rfl, rfl⟩
  rw [length_encode]
  exact Nat.le_add_right 21 _

theorem typeAt_encode (hversion : 3 ≤ frame.version) : typeAt frame.encode = 3 := if_pos hversion

/-- The layout of an encoded frame around its length field. -/
theorem encode_eq : frame.encode =
    ([0x48, 0x54, frame.version, frame.frameType.toByte, frame.flags] ++
      (BigEndian.bytes 4 frame.seq.toNat ++ BigEndian.bytes 8 frame.originTs.toNat)) ++
        (BigEndian.bytes 4 (UInt32.ofNat frame.payload.length).toNat ++ frame.payload) := by
  simp [Frame.encode, magic]

/-- The length field of an encoded frame holds the payload length modulo `2 ^ 32`. -/
theorem field_length_encode :
    BigEndian.field frame.encode 17 4 = frame.payload.length % 2 ^ 32 := by
  rw [encode_eq, BigEndian.field_bytes _ _ (by simp) (UInt32.toNat_lt _), UInt32.toNat_ofNat']

theorem field_originTs_encode : BigEndian.field frame.encode 9 8 = frame.originTs.toNat := by
  rw [encode_eq, List.append_assoc, List.append_assoc, ← List.append_assoc]
  exact BigEndian.field_bytes _ _ (by simp) frame.originTs.toNat_lt

theorem drop_encode : frame.encode.drop 21 = frame.payload := by
  rw [encode_eq, ← List.append_assoc]
  exact List.drop_left' (by simp)

/-- The player reads back the frames that the agent encodes exactly when their payloads are shorter
than `2 ^ 31` bytes. -/
theorem handleStreamData_encode_iff (frameType : FrameType) (seq : UInt32) (originTs : UInt64)
    (payload : List UInt8) :
    handleStreamData (Frame.newWithTs frameType seq originTs payload).encode =
        .frame frameType.toByte originTs payload ↔ payload.length < 2 ^ 31 := by
  have hlayout : typeAt (Frame.newWithTs frameType seq originTs payload).encode = 3 :=
    typeAt_encode _ (UInt8.le_refl protocolVersion)
  have hlength : (Frame.newWithTs frameType seq originTs payload).encode.length =
      21 + payload.length := length_encode _
  have hannounced := field_length_encode (Frame.newWithTs frameType seq originTs payload)
  have hts : BigEndian.field (Frame.newWithTs frameType seq originTs payload).encode 9 8 =
      originTs.toNat := field_originTs_encode _
  have hrest : (Frame.newWithTs frameType seq originTs payload).encode.drop 21 = payload :=
    drop_encode _
  change _ = payload.length % 2 ^ 32 at hannounced
  rw [handleStreamData_of_hasHeader (hasHeader_encode _), hlayout]
  constructor
  · intro hread
    have hpayload := congrArg List.length (Reading.frame.inj hread).2.2
    rw [length_slice, hlength, payloadLenAt_eq (by omega), hannounced, lastPosition,
      Int.bmod_def] at hpayload
    push_cast at hpayload
    split_ifs at hpayload <;> omega
  · intro hsmall
    have hfits : payload.length % 2 ^ 32 = payload.length := Nat.mod_eq_of_lt (by omega)
    rw [frameAt_of_lt (by omega) (by rw [hannounced, hfits]; exact hsmall), hannounced, hfits, hts,
      hrest, List.take_length, UInt64.ofNat_toNat]
    rfl

end Encoded

end LiveCDN.Player.FrameReading
