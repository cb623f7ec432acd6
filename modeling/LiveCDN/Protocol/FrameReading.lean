import LiveCDN.Protocol.FrameCodec

/-!
# Frames read from a connection

`ReadFrame` of `internal/protocol/protocol.go`. A connection is the bytes it delivers, in the pieces
in which its reads find them, and then the end of the stream. `io.ReadFull` sees only the bytes, not
the pieces (`readFull_fst`, `flatten_readFull_snd`), so neither does `ReadFrame`.

`ReadFrame` learns that there is no 20-byte header from a read that fails, and that read has taken
the bytes it found. They are the payload of a frame of version 1, which the next read then misses:
such a frame is returned exactly when it has no payload, and every other one is (`readFrame_iff`).

Scope. No deadline runs out.
-/

set_option autoImplicit false
set_option relaxedAutoImplicit false

namespace LiveCDN.Protocol.FrameReading

open Library FrameCodec

/-! ### Reading -/

/-- A connection that delivers these pieces and then ends. -/
abbrev Conn := List (List UInt8)

/-- `io.ReadFull` into a buffer of `count` bytes: what it reads, fewer bytes only at the end of the
stream, and the connection behind it. -/
def readFull : Conn → ℕ → List UInt8 × Conn
  | [], _ => ([], [])
  | piece :: conn, count =>
    if count ≤ piece.length then (piece.take count, piece.drop count :: conn)
    else
      (piece ++ (readFull conn (count - piece.length)).1, (readFull conn (count - piece.length)).2)

/-- The errors of `ReadFrame`. -/
inductive ReadError
  | eof
  | unexpectedEOF
  | frame (error : FrameError)
  deriving DecidableEq, Repr

/-- The error of `io.ReadFull` that has read too little. -/
def readFullError (read : List UInt8) : ReadError :=
  if read = [] then .eof else .unexpectedEOF

/-- The end of `ReadFrame`, once the header and the payload length are known. -/
def readPayload (header : List UInt8) (payloadLen : UInt32) (conn : Conn) :
    Except ReadError Frame × Conn :=
  if payloadLen.toNat > maxFrameSize then (.error (.frame (.payloadTooLarge payloadLen)), conn)
  else
    let payload := readFull conn payloadLen.toNat
    if payload.1.length < payloadLen.toNat then (.error (readFullError payload.1), payload.2)
    else ((unmarshalFrame (header ++ payload.1)).mapError .frame, payload.2)

/-- `ReadFrame`. -/
def readFrame (conn : Conn) : Except ReadError Frame × Conn :=
  let first := readFull conn v1HeaderSize
  let header := first.1
  if header.length < v1HeaderSize then (.error (readFullError header), first.2)
  else if header.getD 0 0 ≠ magic.getD 0 0 ∨ header.getD 1 0 ≠ magic.getD 1 0 then
    (.error (.frame .invalidMagic), first.2)
  else if header.getD 2 0 ≥ 3 then
    let second := readFull first.2 (v3HeaderSize - v1HeaderSize)
    if second.1.length < v3HeaderSize - v1HeaderSize then
      (.error (readFullError second.1), second.2)
    else readPayload (header ++ second.1) (uint32At (header ++ second.1) 17) second.2
  else
    let second := readFull first.2 (v2HeaderSize - v1HeaderSize)
    -- the bytes of a read that fails are not read again
    if second.1.length < v2HeaderSize - v1HeaderSize then
      readPayload header (uint32At header 8) second.2
    else readPayload (header ++ second.1) (uint32At (header ++ second.1) 16) second.2

/-! ### The pieces do not matter -/

/-- `io.ReadFull` reads the first bytes, as many as there are. -/
theorem readFull_fst (conn : Conn) (count : ℕ) :
    (readFull conn count).1 = conn.flatten.take count := by
  induction conn generalizing count with
  | nil => rw [readFull, List.flatten_nil, List.take_nil]
  | cons piece conn ih =>
    rw [readFull, List.flatten_cons]
    split_ifs with hinside
    · rw [List.take_append_of_le_length hinside]
    · rw [List.take_append, List.take_of_length_le (not_le.mp hinside).le, ih]

/-- `io.ReadFull` leaves the bytes behind those it reads. -/
theorem flatten_readFull_snd (conn : Conn) (count : ℕ) :
    (readFull conn count).2.flatten = conn.flatten.drop count := by
  induction conn generalizing count with
  | nil => rw [readFull, List.flatten_nil, List.drop_nil]
  | cons piece conn ih =>
    rw [readFull, List.flatten_cons]
    split_ifs with hinside
    · rw [List.flatten_cons, List.drop_append_of_le_length hinside]
    · rw [List.drop_append, List.drop_of_length_le (not_le.mp hinside).le, ih, List.nil_append]

/-- The connection behind a read that is behind another one. -/
theorem flatten_readFull_readFull (conn : Conn) (first second : ℕ) :
    (readFull (readFull conn first).2 second).2.flatten = conn.flatten.drop (first + second) := by
  rw [flatten_readFull_snd, flatten_readFull_snd, List.drop_drop]

/-- Two reads behind one another read what one does. -/
theorem readFull_append (conn : Conn) (first second : ℕ) :
    (readFull conn first).1 ++ (readFull (readFull conn first).2 second).1 =
      conn.flatten.take (first + second) := by
  rw [readFull_fst, readFull_fst, flatten_readFull_snd, ← List.take_add]

/-! ### Frames that end with the stream -/

/-- The size of the header of a frame that was read. -/
def headerSize (version : UInt8) : ℕ :=
  if version ≥ 3 then v3HeaderSize else if version = 2 then v2HeaderSize else v1HeaderSize

theorem getD_take {data : List UInt8} {index count : ℕ} (hindex : index < count) :
    (data.take count).getD index 0 = data.getD index 0 := by
  rw [List.getD_eq_getElem?_getD, List.getD_eq_getElem?_getD, List.getElem?_take_of_lt hindex]

theorem uint32At_take {data : List UInt8} {offset count : ℕ} (hinside : offset + 4 ≤ count)
    (hcount : count ≤ data.length) : uint32At (data.take count) offset = uint32At data offset := by
  have hlength : offset + 4 ≤ (data.take count).length := by
    rw [List.length_take, min_eq_left hcount]
    exact hinside
  have hfield := BigEndian.field_append_of_le (data.drop count) hlength
  rw [List.take_append_drop] at hfield
  rw [uint32At, uint32At, hfield]

/-- A payload that makes up the rest of the stream is read, and the frame is unmarshalled from the
data. Assumes: the payload length is within the limit. -/
theorem readPayload_of_rest {header data : List UInt8} {payloadLen : UInt32} {conn : Conn}
    (hsmall : payloadLen.toNat ≤ maxFrameSize) (hrest : conn.flatten.length = payloadLen.toNat)
    (hdata : header ++ conn.flatten = data) :
    (readPayload header payloadLen conn).1 = (unmarshalFrame data).mapError .frame := by
  have hread : (readFull conn payloadLen.toNat).1 = conn.flatten := by
    rw [readFull_fst, ← hrest, List.take_length]
  unfold readPayload
  rw [if_neg (not_lt.mpr hsmall)]
  dsimp only
  rw [hread, if_neg hrest.not_lt, hdata]

/-- A payload of which bytes are missing is not read. -/
theorem readPayload_ne_ok {header : List UInt8} {payloadLen : UInt32} {conn : Conn}
    (hmissing : conn.flatten.length < payloadLen.toNat) (f : Frame) :
    (readPayload header payloadLen conn).1 ≠ .ok f := by
  have hread : (readFull conn payloadLen.toNat).1.length < payloadLen.toNat := by
    rw [readFull_fst]
    exact (List.length_take_le' _ _).trans_lt hmissing
  unfold readPayload
  dsimp only
  rw [if_pos hread]
  split_ifs <;> exact nofun

/-- What `ReadFrame` does once the first twelve bytes are there and begin with the magic bytes. -/
theorem readFrame_eq {conn : Conn} (hlong : v1HeaderSize ≤ conn.flatten.length)
    (hfirst : conn.flatten.getD 0 0 = 0x48) (hsecond : conn.flatten.getD 1 0 = 0x54) :
    readFrame conn =
      let behind := (readFull conn v1HeaderSize).2
      if conn.flatten.getD 2 0 ≥ 3 then
        if conn.flatten.length < v3HeaderSize then
          (.error (readFullError (readFull behind (v3HeaderSize - v1HeaderSize)).1),
            (readFull behind (v3HeaderSize - v1HeaderSize)).2)
        else
          readPayload (conn.flatten.take v3HeaderSize) (uint32At conn.flatten 17)
            (readFull behind (v3HeaderSize - v1HeaderSize)).2
      else if conn.flatten.length < v2HeaderSize then
        readPayload (conn.flatten.take v1HeaderSize) (uint32At conn.flatten 8)
          (readFull behind (v2HeaderSize - v1HeaderSize)).2
      else
        readPayload (conn.flatten.take v2HeaderSize) (uint32At conn.flatten 16)
          (readFull behind (v2HeaderSize - v1HeaderSize)).2 := by
  have hheader : (readFull conn v1HeaderSize).1 = conn.flatten.take v1HeaderSize :=
    readFull_fst conn v1HeaderSize
  have hfull : ¬ (conn.flatten.take v1HeaderSize).length < v1HeaderSize := by
    rw [List.length_take, min_eq_left hlong]
    exact lt_irrefl _
  have hmagic : ¬ ((conn.flatten.take v1HeaderSize).getD 0 0 ≠ magic.getD 0 0 ∨
      (conn.flatten.take v1HeaderSize).getD 1 0 ≠ magic.getD 1 0) := by
    rw [getD_take (by decide), getD_take (by decide), hfirst, hsecond]
    decide
  have hshort {size : ℕ} (hsize : v1HeaderSize ≤ size) :
      (readFull (readFull conn v1HeaderSize).2 (size - v1HeaderSize)).1.length <
        size - v1HeaderSize ↔ conn.flatten.length < size := by
    rw [readFull_fst, flatten_readFull_snd, List.length_take, List.length_drop]
    omega
  have hboth {size : ℕ} (hsize : v1HeaderSize ≤ size) :
      conn.flatten.take v1HeaderSize ++
          (readFull (readFull conn v1HeaderSize).2 (size - v1HeaderSize)).1 =
        conn.flatten.take size := by
    rw [← hheader, readFull_append, Nat.add_sub_cancel' hsize]
  unfold readFrame
  dsimp only
  rw [hheader, if_neg hfull, if_neg hmagic, getD_take (by decide), hboth (by decide),
    hboth (by decide), uint32At_take (by decide) hlong]
  simp only [hshort (show v1HeaderSize ≤ v3HeaderSize by decide),
    hshort (show v1HeaderSize ≤ v2HeaderSize by decide)]
  split_ifs with hcurrent hv3 hv2
  · rfl
  · rw [uint32At_take (by decide) (not_lt.mp hv3)]
  · rfl
  · rw [uint32At_take (by decide) (not_lt.mp hv2)]

/-- What follows a header that ends the data with a payload of the length it gives. -/
theorem length_rest {conn : Conn} {front second length : ℕ}
    (hwhole : conn.flatten.length = front + second + length) :
    (readFull (readFull conn front).2 second).2.flatten.length = length := by
  rw [flatten_readFull_readFull, List.length_drop, hwhole, Nat.add_sub_cancel_left]

/-- A frame of version 2 or later that makes up the whole stream is read as the decoder reads it.
Assumes: the header of the given size is there, and the layout is not the one of version 1. -/
theorem readFrame_of_header {conn : Conn} {f header : Frame} {payloadLen : UInt32} {size : ℕ}
    (hsize : v1HeaderSize ≤ size) (hwhole : conn.flatten.length = size + f.payload.length)
    (hread : unmarshalFrame conn.flatten = .ok f)
    (hfound : unmarshalPayload header payloadLen size conn.flatten = .ok f)
    (hframe : readFrame conn = readPayload (conn.flatten.take size) payloadLen
      (readFull (readFull conn v1HeaderSize).2 (size - v1HeaderSize)).2) :
    (readFrame conn).1 = .ok f := by
  obtain ⟨_, hlimit, _, hlength⟩ := of_unmarshalPayload hfound
  have hsum : v1HeaderSize + (size - v1HeaderSize) = size := Nat.add_sub_cancel' hsize
  have hrest : (readFull (readFull conn v1HeaderSize).2
      (size - v1HeaderSize)).2.flatten.length = f.payload.length := by
    refine length_rest ?_
    rw [hsum]
    exact hwhole
  have hdata : conn.flatten.take size ++ (readFull (readFull conn v1HeaderSize).2
      (size - v1HeaderSize)).2.flatten = conn.flatten := by
    rw [flatten_readFull_readFull, hsum, List.take_append_drop]
  rw [hframe, readPayload_of_rest hlimit (hrest.trans (hlength hwhole)) hdata, hread]
  rfl

/-- `ReadFrame` on a connection that delivers the bytes of a frame, in any pieces, and then ends
returns the frame that the decoder reads from the bytes exactly when it is not a frame of version 1
with a payload. Assumes: the decoder accepts the bytes, and header and payload make up all of
them. -/
theorem readFrame_iff (data : List UInt8) (f : Frame) (conn : Conn) (hconn : conn.flatten = data)
    (hread : unmarshalFrame data = .ok f)
    (hwhole : data.length = headerSize f.version + f.payload.length) :
    (readFrame conn).1 = .ok f ↔ f.version ≠ 1 ∨ f.payload = [] := by
  subst hconn
  obtain ⟨⟨hlong, hfirst, hsecond⟩, hlayout⟩ := unmarshalFrame_cases hread
  have hframe := readFrame_eq hlong hfirst hsecond
  dsimp only at hframe
  rcases hlayout with ⟨hcurrent, hv3, hfound⟩ | ⟨holder, hv2, hfound⟩ | ⟨holder, hv2, hfound⟩
  · have hversion := (of_unmarshalPayload hfound).1
    rw [if_pos hcurrent, if_neg (not_lt.mpr hv3)] at hframe
    dsimp only at hversion
    rw [headerSize, hversion, if_pos hcurrent] at hwhole
    refine iff_of_true (readFrame_of_header (by decide) hwhole hread hfound hframe)
      (Or.inl fun hone ↦ ?_)
    rw [← hversion, hone] at hcurrent
    exact absurd hcurrent (by decide)
  · obtain ⟨hversion, hlimit, _, hlength⟩ := of_unmarshalPayload hfound
    dsimp only at hversion
    rw [if_neg (UInt8.not_le.mpr holder), if_pos hv2] at hframe
    rw [headerSize, hversion, if_neg (by decide), if_neg (by decide)] at hwhole
    have hpayloadLen := hlength hwhole
    -- the failed read has taken the payload
    have hrest : (readFull (readFull conn v1HeaderSize).2
        (v2HeaderSize - v1HeaderSize)).2.flatten = [] := by
      rw [flatten_readFull_readFull]
      exact List.drop_of_length_le hv2.le
    rw [or_iff_right (not_not.mpr hversion), hframe]
    constructor
    · intro hok
      by_contra hpayload
      refine readPayload_ne_ok ?_ f hok
      rw [hrest, ← hpayloadLen]
      exact List.length_pos_of_ne_nil hpayload
    · intro hempty
      rw [hempty, List.length_nil] at hpayloadLen
      rw [hempty, List.length_nil, Nat.add_zero] at hwhole
      have hdata : conn.flatten.take v1HeaderSize ++ (readFull (readFull conn v1HeaderSize).2
          (v2HeaderSize - v1HeaderSize)).2.flatten = conn.flatten := by
        rw [hrest, List.append_nil, ← hwhole, List.take_length]
      rw [readPayload_of_rest hlimit (by rw [hrest, ← hpayloadLen]; rfl) hdata, hread]
      rfl
  · have hversion := (of_unmarshalPayload hfound).1
    dsimp only at hversion
    rw [if_neg (UInt8.not_le.mpr holder), if_neg (not_lt.mpr hv2)] at hframe
    rw [headerSize, hversion, if_neg (by decide), if_pos rfl] at hwhole
    refine iff_of_true (readFrame_of_header (by decide) hwhole hread hfound hframe)
      (Or.inl fun hone ↦ ?_)
    rw [hversion] at hone
    exact absurd hone (by decide)

/-- A frame of version 1: a handshake with one byte of payload. -/
def v1Handshake : List UInt8 := [0x48, 0x54, 0x01, 0, 0, 0, 0, 7, 0, 0, 0, 1, 0x2a]

/-- A witness of `readFrame_iff`: the handshake, delivered in two pieces. -/
theorem readFrame_iff_v1Handshake :
    (readFrame [v1Handshake.take 5, v1Handshake.drop 5]).1 = .ok ⟨1, 1, 0, 7, 0, [0x2a]⟩ ↔
      (1 : UInt8) ≠ 1 ∨ [(0x2a : UInt8)] = [] :=
  readFrame_iff v1Handshake ⟨1, 1, 0, 7, 0, [0x2a]⟩ [v1Handshake.take 5, v1Handshake.drop 5]
    (by decide) (by decide) (by decide)

/-- The decoder reads that frame, and `ReadFrame` meets the end of the stream. -/
theorem readFrame_counterexample :
    unmarshalFrame v1Handshake = .ok ⟨1, 1, 0, 7, 0, [0x2a]⟩ ∧
      v1Handshake.length = headerSize 1 + 1 ∧ (readFrame [v1Handshake]).1 = .error .eof := by
  decide

end LiveCDN.Protocol.FrameReading
