import LiveCDN.Agent.StreamRelay
import LiveCDN.Library.ByteText

/-!
# The pull loop of the Go relay

`internal/agent/relay.go`: each tick polls the playlist (`poll`). A playlist whose text changed is
sealed and added to the buffer of recent segments; then every listed segment is fetched, sealed and
added, whether or not it was fetched before (`pullSegment`). A client that joins is sent the newest
playlist in the buffer (`getLatestM3U8`).

Playlists and segments share one buffer here as in the Rust relay, so in both the newest playlist is
there behind a poll exactly when fewer segments than the buffer holds were added behind it
(`newestPlaylist_runs_iff`).

Scope. Strings are byte strings. `encrypt` is what `StreamEncryptor.Encrypt` makes of data under the
keys it derives from a sequence number, none where it fails; the nonce is an input. The texts of log
lines are left out, and what is broadcast to the clients that are there.
-/

set_option autoImplicit false
set_option relaxedAutoImplicit false

namespace LiveCDN.Agent.GoRelay

open Library.RecentBuffer Library.GuardedRun Library.ByteText ChunkCrypto EncryptedJoin

/-- A Go string: its bytes. -/
abbrev GoString := List UInt8

/-! ### Playlists -/

/-- The line that is given in reverse, without a carriage return at its end. -/
def chomp : GoString → GoString
  | 13 :: line => line.reverse
  | line => line.reverse

/-- The lines that continue a line, whose bytes are given in reverse; empty ones are left out. -/
def splitLinesFrom (unfinished : GoString) : GoString → List GoString
  | [] => if unfinished = [] then [] else [unfinished.reverse]
  | byte :: rest =>
    if byte = 10 then
      (if chomp unfinished = [] then [] else [chomp unfinished]) ++ splitLinesFrom [] rest
    else splitLinesFrom (byte :: unfinished) rest

/-- `splitLines`. -/
def splitLines (s : GoString) : List GoString := splitLinesFrom [] s

/-- `resolveURL`. -/
def resolveURL (baseURL ref : GoString) : GoString :=
  if 7 < ref.length ∧
      (ref.take 7 = asciiBytes "http://".toList ∨ ref.take 7 = asciiBytes "https:/".toList) then
    ref
  else if 47 ∈ baseURL then (baseURL.reverse.dropWhile (· ≠ 47)).reverse ++ ref
  else ref

/-- `parseM3U8ForTS`. -/
def parseM3U8ForTS (m3u8 baseURL : GoString) : List GoString :=
  ((splitLines m3u8).filter fun line ↦
      decide (0 < line.length) && decide (line.head? ≠ some 35)).map
    (resolveURL baseURL)

/-! ### The relay -/

/-- The fields of `Segment` that the relay reads. -/
structure Segment where
  seq : UInt32
  segType : SegType
  data : List UInt8
  deriving DecidableEq

/-- The fields of `StreamRelay` that its pull loop reads and does not write, and what its encryptor
does. -/
structure Relay where
  originURL : GoString
  maxSegments : ℕ
  encrypt : UInt32 → Nonce → List UInt8 → Option (List UInt8)

/-- The variables of `pullLoop`, and its history. -/
structure PullState where
  /-- The sequence number of the encryptor. -/
  seqNum : UInt32
  segments : List Segment
  lastM3U8 : GoString
  seqCounter : UInt32
  /-- The last playlist that was polled. -/
  lastPolled : Option GoString

/-- The state before the first poll. -/
def PullState.initial : PullState := ⟨0, [], [], 0, none⟩

/-- `getLatestM3U8`. -/
def PullState.getLatestM3U8 (st : PullState) : Option Segment :=
  newest (fun segment ↦ decide (segment.segType = .m3u8)) st.segments

/-- `addSegment`. -/
def PullState.addSegment (relay : Relay) (st : PullState) (segment : Segment) : PullState :=
  { st with segments := push relay.maxSegments st.segments segment }

/-- What the fetch of a listed segment comes to: the data that is read, and the nonce it is sealed
with. -/
structure Fetch where
  tsData : Option (List UInt8)
  nonce : Nonce

/-- The turn of a listed segment. -/
def pullSegment (relay : Relay) (st : PullState) (fetch : Fetch) : PullState :=
  match fetch.tsData with
  | none => st
  | some tsData =>
    match relay.encrypt st.seqNum fetch.nonce tsData with
    | none => { st with seqNum := st.seqNum + 1 }
    | some encTS =>
      { st.addSegment relay ⟨st.seqCounter, .ts, encTS⟩ with
        seqNum := st.seqNum + 1
        seqCounter := st.seqCounter + 1 }

/-- What a tick comes to: the playlist that is read, the nonce it is sealed with, and the fetches of
the segments it lists, by position. -/
structure Poll where
  m3u8Data : Option GoString
  nonce : Nonce
  fetches : ℕ → Fetch

/-- The fetches of the segments of a playlist. -/
def Poll.turns (next : Poll) (relay : Relay) (m3u8Str : GoString) : List Fetch :=
  (parseM3U8ForTS m3u8Str relay.originURL).zipIdx.map fun listed ↦ next.fetches listed.2

/-- A turn of `pullLoop` up to the loop over the segments, and the fetches that follow. -/
def openPoll (relay : Relay) (before : PullState) (next : Poll) : PullState × List Fetch :=
  match next.m3u8Data with
  | none => (before, [])
  | some m3u8Str =>
    let st := { before with lastPolled := some m3u8Str }
    if m3u8Str = st.lastM3U8 then (st, [])
    else
      let st := { st with lastM3U8 := m3u8Str }
      match relay.encrypt st.seqNum next.nonce m3u8Str with
      | none => ({ st with seqNum := st.seqNum + 1 }, [])
      | some encM3U8 =>
        ({ st.addSegment relay ⟨st.seqCounter, .m3u8, encM3U8⟩ with
          seqNum := st.seqNum + 1
          seqCounter := st.seqCounter + 1 }, next.turns relay m3u8Str)

/-- A turn of `pullLoop`. -/
def poll (relay : Relay) (before : PullState) (next : Poll) : PullState :=
  run (pullSegment relay) (openPoll relay before next).1 (openPoll relay before next).2

/-! ### The newest playlist -/

/-- The data of the segment that a turn adds to the buffer, if it does. -/
def sealedData (relay : Relay) (st : PullState) (fetch : Fetch) : Option (List UInt8) :=
  fetch.tsData.bind (relay.encrypt st.seqNum fetch.nonce)

/-- The segments that turns add to the buffer. -/
def addedSegments (relay : Relay) : PullState → List Fetch → List Segment
  | _, [] => []
  | st, fetch :: fetches =>
    ((sealedData relay st fetch).toList.map fun data ↦ ⟨st.seqCounter, .ts, data⟩) ++
      addedSegments relay (pullSegment relay st fetch) fetches

/-- The segment that a tick makes of its playlist, if the text has changed and can be sealed. -/
def playlistSegment (relay : Relay) (before : PullState) (next : Poll) : Option Segment :=
  next.m3u8Data.bind fun m3u8Str ↦
    if m3u8Str = before.lastM3U8 then none
    else (relay.encrypt before.seqNum next.nonce m3u8Str).map fun data ↦
      ⟨before.seqCounter, .m3u8, data⟩

/-- Behind a poll of a changed playlist the newest playlist in the buffer is the one of this poll.
-/
def NewestAvailable (relay : Relay) (before : PullState) (next : Poll) : Prop :=
  ∀ m3u8Str, next.m3u8Data = some m3u8Str → before.lastPolled ≠ some m3u8Str →
    ∃ segment, playlistSegment relay before next = some segment ∧
      (poll relay before next).getLatestM3U8 = some segment

/-- A changed playlist differs from the text kept, can be sealed, and fewer of its segments than the
buffer holds can be fetched and sealed. -/
def PlaylistStays (relay : Relay) (before : PullState) (next : Poll) : Prop :=
  ∀ m3u8Str, next.m3u8Data = some m3u8Str → before.lastPolled ≠ some m3u8Str →
    (playlistSegment relay before next).isSome ∧
      (addedSegments relay (openPoll relay before next).1 (openPoll relay before next).2).length <
        relay.maxSegments

/-- The buffer after a turn. -/
theorem segments_pullSegment (relay : Relay) (st : PullState) (fetch : Fetch) :
    (pullSegment relay st fetch).segments =
      pushAll relay.maxSegments st.segments
        ((sealedData relay st fetch).toList.map fun data ↦ ⟨st.seqCounter, .ts, data⟩) := by
  unfold pullSegment sealedData
  cases fetch.tsData with
  | none => rfl
  | some tsData =>
    dsimp only [Option.bind_some]
    cases relay.encrypt st.seqNum fetch.nonce tsData with
    | none => rfl
    | some encTS => rfl

/-- The buffer after turns. -/
theorem segments_run (relay : Relay) (st : PullState) (fetches : List Fetch) :
    (run (pullSegment relay) st fetches).segments =
      pushAll relay.maxSegments st.segments (addedSegments relay st fetches) := by
  induction fetches generalizing st with
  | nil => rfl
  | cons fetch fetches ih =>
    rw [run_cons, ih, segments_pullSegment, addedSegments, pushAll_append]

/-- What turns add is no playlist. -/
theorem segType_addedSegments (relay : Relay) (st : PullState) (fetches : List Fetch) :
    ∀ segment ∈ addedSegments relay st fetches, decide (segment.segType = .m3u8) = false := by
  induction fetches generalizing st with
  | nil => exact fun _ hsegment ↦ absurd hsegment List.not_mem_nil
  | cons fetch fetches ih =>
    intro segment hsegment
    rcases List.mem_append.mp hsegment with hfirst | hrest
    · obtain ⟨data, -, rfl⟩ := List.mem_map.mp hfirst
      rfl
    · exact ih _ segment hrest

/-- What a tick comes to before its turns: it adds no playlist, or it adds the segment of the
playlist. Assumes: the tick reads the playlist. -/
theorem openPoll_cases (relay : Relay) (before : PullState) {next : Poll} {m3u8Str : GoString}
    (hm3u8 : next.m3u8Data = some m3u8Str) :
    playlistSegment relay before next = none ∨
      ∃ segment, playlistSegment relay before next = some segment ∧ segment.segType = .m3u8 ∧
        (openPoll relay before next).1.segments =
          push relay.maxSegments before.segments segment := by
  unfold playlistSegment openPoll
  rw [hm3u8]
  dsimp only [Option.bind_some]
  by_cases hsame : m3u8Str = before.lastM3U8
  · rw [if_pos hsame]
    exact Or.inl rfl
  · rw [if_neg hsame, if_neg hsame]
    cases relay.encrypt before.seqNum next.nonce m3u8Str with
    | none => exact Or.inl rfl
    | some data => exact Or.inr ⟨_, rfl, rfl, rfl⟩

/-- Behind a poll of a changed playlist it is the newest exactly when its text differs from the one
kept, it can be sealed, and fewer segments than the buffer holds are fetched and sealed. -/
theorem newestAvailable_iff (relay : Relay) (before : PullState) (next : Poll) :
    NewestAvailable relay before next ↔ PlaylistStays relay before next := by
  refine forall₃_congr fun m3u8Str hm3u8 _ ↦ ?_
  rcases openPoll_cases relay before hm3u8 with hnone | ⟨segment, hsegment, htype, hsegments⟩
  · rw [hnone]
    exact iff_of_false (fun ⟨_, hsome, _⟩ ↦ nomatch hsome) fun hboth ↦ Bool.false_ne_true hboth.1
  · rw [hsegment, poll, PullState.getLatestM3U8, segments_run, hsegments,
      newest_pushAll_push _ _ (by simp [htype]) (segType_addedSegments relay _ _),
      Option.isSome_some, and_iff_right rfl]
    by_cases hfew : (addedSegments relay (openPoll relay before next).1
        (openPoll relay before next).2).length < relay.maxSegments
    · rw [if_pos hfew]
      exact iff_of_true ⟨segment, rfl, rfl⟩ hfew
    · rw [if_neg hfew]
      exact iff_of_false (fun ⟨_, _, hsome⟩ ↦ nomatch hsome) hfew

variable {Key : Type} (aead : Aead Key)

/-- In a run of either relay the newest playlist is available behind each poll of a changed playlist
exactly when at each such poll the relay takes the playlist for changed, can seal it, and puts fewer
segments behind it than its buffer holds. -/
theorem newestPlaylist_runs_iff (rust : StreamRelay.Relay) (rustPolls : List StreamRelay.Poll)
    (go : Relay) (goPolls : List Poll) :
    (EachStepMeets (StreamRelay.poll rust) (StreamRelay.NewestAvailable rust) (.initial aead)
          rustPolls ↔
        EachStepMeets (StreamRelay.poll rust) (StreamRelay.PlaylistStays rust) (.initial aead)
          rustPolls) ∧
      (EachStepMeets (poll go) (NewestAvailable go) .initial goPolls ↔
        EachStepMeets (poll go) (PlaylistStays go) .initial goPolls) := by
  constructor
  · exact eachStepMeets_iff_of_kept (StreamRelay.poll rust) (fun _ _ (_ : True) _ ↦ trivial)
      (fun before next _ ↦ StreamRelay.newestAvailable_iff rust before next) trivial rustPolls
  · exact eachStepMeets_iff_of_kept (poll go) (fun _ _ (_ : True) _ ↦ trivial)
      (fun before next _ ↦ newestAvailable_iff go before next) trivial goPolls

/-! ### A playlist that is pushed out -/

/-- A playlist of as many segments as the buffers hold. -/
def windowPlaylist : Library.Utf8Text.Text :=
  (List.range 30).flatMap fun number ↦ Nat.toDigits 10 number ++ ['\n']

/-- The Go relay with its buffer, whose encryptor puts the nonce in front. -/
def goRelay : Relay where
  originURL := asciiBytes "http://o/r.m3u8".toList
  maxSegments := 30
  encrypt _ nonce data := some (nonce.bytes ++ data)

/-- A tick that reads the playlist of thirty segments, of which every one can be fetched. -/
def windowPoll : Poll where
  m3u8Data := some (asciiBytes windowPlaylist)
  nonce := zeroNonce
  fetches _ := ⟨some [0], zeroNonce⟩

/-- In both relays the thirty segments of the first playlist push it out of the buffer of thirty. -/
theorem newestPlaylist_counterexample :
    ¬ EachStepMeets (StreamRelay.poll StreamRelay.roomRelay)
        (StreamRelay.NewestAvailable StreamRelay.roomRelay) (.initial tagCipher)
        [StreamRelay.pollOf windowPlaylist] ∧
      ¬ EachStepMeets (poll goRelay) (NewestAvailable goRelay) .initial [windowPoll] := by
  constructor
  · rintro ⟨havailable, -⟩
    have hends : (StreamRelay.poll StreamRelay.roomRelay (.initial tagCipher)
        (StreamRelay.pollOf windowPlaylist)).crashed = false := by decide +kernel
    have hgone : (StreamRelay.poll StreamRelay.roomRelay (.initial tagCipher)
        (StreamRelay.pollOf windowPlaylist)).latestM3u8.isNone = true := by decide +kernel
    obtain ⟨block, -, hlatest⟩ := havailable _ rfl nofun hends
    rw [hlatest] at hgone
    exact Bool.false_ne_true hgone
  · rintro ⟨havailable, -⟩
    have hgone : (poll goRelay .initial windowPoll).getLatestM3U8 = none := by decide +kernel
    obtain ⟨segment, -, hlatest⟩ := havailable _ rfl nofun
    exact nomatch hlatest.symm.trans hgone

end LiveCDN.Agent.GoRelay
