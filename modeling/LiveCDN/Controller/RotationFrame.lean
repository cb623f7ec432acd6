import LiveCDN.Controller.AdminHandlers

/-!
# What a key rotation leaves alone

`RotateAllLiveStreams` of `controller/keyrotate.go` as the loop it is, over a table of streams that
nothing else changes meanwhile. It stores a new record in place of each live stream that is due,
built field by field from the old one: the key and the IV are new, and the latency mode is not
copied. So a rotation touches only keys exactly when no stream that it renews has a latency mode
(`keysOnly_iff`).

The log line of a stream that is due cuts eight bytes from its key and panics where there are fewer,
which ends the rotation. Where no key is that short the loop is the single step that the handlers
take (`find?_rotateAllLiveStreams`).
-/

set_option autoImplicit false
set_option relaxedAutoImplicit false

namespace LiveCDN.Controller.RotationFrame

open Library.KeyedTable StreamStore KeyRotation StreamUpdates LatencyControl

variable (outcome : RotationOutcome)

/-- The streams of a rotation that it has still to visit, and the table it leaves. -/
def rotateLoop (table : Table StreamInfo.streamKey) :
    List StreamInfo → Table StreamInfo.streamKey
  | [] => table
  | stream :: streams =>
    if outcome.now stream.streamKey - stream.createdAt < keyRotationInterval then
      rotateLoop table streams
    else
      let rotated := (renewedStream outcome stream).elim table (createStream table)
      if slicePanics stream.streamKey then rotated else rotateLoop rotated streams

/-- The live streams, in the order in which they stand in the table. -/
def liveStreams (table : Table StreamInfo.streamKey) : List StreamInfo :=
  table.rows.filter StreamInfo.isLive

/-- A live stream is at least as old as the rotation interval. -/
def IsDue (stream : StreamInfo) : Prop :=
  stream.isLive = true ∧ keyRotationInterval ≤ outcome.now stream.streamKey - stream.createdAt

/-- Two records differ in the key and the IV at most. -/
def OnlyKeysDiffer (before after : StreamInfo) : Prop :=
  after = { before with encryptKey := after.encryptKey, encryptIV := after.encryptIV }

/-- What a rotation may do to a record. -/
def Framed (before after : StreamInfo) : Prop :=
  OnlyKeysDiffer before after ∧ (¬ IsDue outcome before → after = before)

/-- A rotation leaves a record under the same keys, and does to each what it may. -/
def KeysOnly (before after : Table StreamInfo.streamKey) : Prop :=
  ∀ key, Option.Rel (Framed outcome) (before.find? key) (after.find? key)

/-! ### The loop -/

variable {outcome}

theorem find?_createStream (table : Table StreamInfo.streamKey) {updated : StreamInfo}
    (key : String) :
    (createStream table updated).find? key =
      if key = updated.streamKey then some updated else table.find? key :=
  Table.find?_put table rfl key

/-- What one turn leaves under a key. -/
theorem find?_turn (table : Table StreamInfo.streamKey) (stream : StreamInfo) (key : String) :
    ((renewedStream outcome stream).elim table (createStream table)).find? key =
      if key = stream.streamKey then (renewedStream outcome stream).or (table.find? key)
      else table.find? key := by
  cases hrenewed : renewedStream outcome stream with
  | none => simp
  | some updated =>
    have hkey := (sameStream_of_renewed hrenewed).1.streamKey
    rw [Option.elim_some, find?_createStream, ← hkey, Option.some_or]

/-- A stream that is not due is not renewed. -/
theorem renewedStream_of_young {stream : StreamInfo}
    (hyoung : outcome.now stream.streamKey - stream.createdAt < keyRotationInterval) :
    renewedStream outcome stream = none := by
  rw [Option.eq_none_iff_forall_not_mem]
  exact fun updated hupdated ↦
    absurd (renewedStream_eq_some_iff.mp hupdated).1 (not_le.mpr hyoung)

/-- The loop leaves the record of a key or stores the one that it makes of a stream it visits. -/
theorem find?_rotateLoop_cases (table : Table StreamInfo.streamKey) (streams : List StreamInfo)
    (key : String) :
    (rotateLoop outcome table streams).find? key = table.find? key ∨
      ∃ stream ∈ streams, stream.streamKey = key ∧ renewedStream outcome stream ≠ none ∧
        (rotateLoop outcome table streams).find? key = renewedStream outcome stream := by
  induction streams generalizing table with
  | nil => exact Or.inl rfl
  | cons stream streams ih =>
    have hlater : ∀ rotated : Table StreamInfo.streamKey,
        rotated.find? key = table.find? key ∨ stream.streamKey = key ∧
          renewedStream outcome stream ≠ none ∧ rotated.find? key = renewedStream outcome stream →
        (rotateLoop outcome rotated streams).find? key = table.find? key ∨
          ∃ other ∈ stream :: streams, other.streamKey = key ∧ renewedStream outcome other ≠ none ∧
            (rotateLoop outcome rotated streams).find? key = renewedStream outcome other := by
      intro rotated hrotated
      rcases ih rotated with hsame | ⟨other, hother, hrest⟩
      · rw [hsame]
        exact hrotated.imp_right fun hstream ↦ ⟨stream, List.mem_cons_self, hstream⟩
      · exact Or.inr ⟨other, List.mem_cons_of_mem _ hother, hrest⟩
    have hturn : let rotated := (renewedStream outcome stream).elim table (createStream table)
        rotated.find? key = table.find? key ∨ stream.streamKey = key ∧
          renewedStream outcome stream ≠ none ∧
            rotated.find? key = renewedStream outcome stream := by
      intro rotated
      rw [find?_turn]
      split_ifs with hkey
      · cases renewedStream outcome stream with
        | none => exact Or.inl (Option.none_or)
        | some updated => exact Or.inr ⟨hkey.symm, Option.some_ne_none _, Option.some_or⟩
      · exact Or.inl rfl
    unfold rotateLoop
    split_ifs with hyoung hpanics
    · exact hlater table (Or.inl rfl)
    · exact hturn.imp_right fun hstream ↦ ⟨stream, List.mem_cons_self, hstream⟩
    · exact hlater _ hturn

/-- A loop that visits no stream of a key leaves its record. -/
theorem find?_rotateLoop_of_notMem (table : Table StreamInfo.streamKey)
    {streams : List StreamInfo} {key : String} (hkey : key ∉ streams.map StreamInfo.streamKey) :
    (rotateLoop outcome table streams).find? key = table.find? key := by
  rcases find?_rotateLoop_cases table streams key with hsame | ⟨stream, hstream, rfl, _⟩
  · exact hsame
  · exact absurd (List.mem_map_of_mem hstream) hkey

/-- A loop that visits a stream first stores what it makes of it. Assumes: the other streams have
other keys, and the stream is renewed. -/
theorem find?_rotateLoop_cons (table : Table StreamInfo.streamKey) {stream updated : StreamInfo}
    {streams : List StreamInfo} (hdistinct : stream.streamKey ∉ streams.map StreamInfo.streamKey)
    (hrenewed : renewedStream outcome stream = some updated) :
    (rotateLoop outcome table (stream :: streams)).find? stream.streamKey = some updated := by
  have hdue := not_lt.mpr (renewedStream_eq_some_iff.mp hrenewed).1
  have hturn : ((renewedStream outcome stream).elim table (createStream table)).find?
      stream.streamKey = some updated := by
    rw [find?_turn, if_pos rfl, hrenewed, Option.some_or]
  unfold rotateLoop
  rw [if_neg hdue]
  dsimp only
  split_ifs with hpanics
  · exact hturn
  · rw [find?_rotateLoop_of_notMem _ hdistinct, hturn]

/-- Without a panic the loop stores what it makes of every stream it visits. Assumes: the streams
have distinct keys of at least eight bytes. -/
theorem find?_rotateLoop_of_mem (table : Table StreamInfo.streamKey) {streams : List StreamInfo}
    (hdistinct : (streams.map StreamInfo.streamKey).Nodup)
    (hlong : ∀ stream ∈ streams, slicePanics stream.streamKey = false) {stream : StreamInfo}
    (hstream : stream ∈ streams) :
    (rotateLoop outcome table streams).find? stream.streamKey =
      (renewedStream outcome stream).or (table.find? stream.streamKey) := by
  induction streams generalizing table with
  | nil => exact absurd hstream List.not_mem_nil
  | cons first streams ih =>
    rw [List.map_cons, List.nodup_cons] at hdistinct
    have hrest := fun other hother ↦ hlong other (List.mem_cons_of_mem first hother)
    have hnext : rotateLoop outcome table (first :: streams) =
        rotateLoop outcome ((renewedStream outcome first).elim table (createStream table))
          streams := by
      rw [rotateLoop, hlong first List.mem_cons_self, if_neg Bool.false_ne_true]
      split_ifs with hyoung
      · rw [renewedStream_of_young hyoung, Option.elim_none]
      · rfl
    rw [hnext]
    rcases List.mem_cons.mp hstream with rfl | hlater
    · rw [find?_rotateLoop_of_notMem _ hdistinct.1, find?_turn, if_pos rfl]
    · have hother : stream.streamKey ≠ first.streamKey := fun hsame ↦
        hdistinct.1 (hsame ▸ List.mem_map_of_mem hlater)
      rw [ih _ hdistinct.2 hrest hlater, find?_turn, if_neg hother]

/-- Where no key is short the loop, in any order, leaves the table that the handlers take it to
leave. Assumes: the keys in the table have at least eight bytes. -/
theorem find?_rotateAllLiveStreams (server : HttpServer.Server) (rotator : ℕ)
    (hlong : ∀ stream ∈ server.streams.rows, slicePanics stream.streamKey = false)
    {streams : List StreamInfo} (hperm : streams.Perm (liveStreams server.streams))
    (key : String) :
    (rotateLoop outcome server.streams streams).find? key =
      (AdminHandlers.rotateAllLiveStreams server rotator outcome).streams.find? key := by
  have hmem {stream : StreamInfo} :
      stream ∈ streams ↔ stream ∈ server.streams.rows ∧ stream.isLive = true := by
    rw [hperm.mem_iff, liveStreams, List.mem_filter]
  have hdistinct : (streams.map StreamInfo.streamKey).Nodup :=
    (hperm.map _).nodup_iff.mpr
      (server.streams.distinct.sublist (List.filter_sublist.map StreamInfo.streamKey))
  rw [AdminHandlers.rotateAllLiveStreams, Table.find?_mapRows]
  cases hfound : server.streams.find? key with
  | none =>
    refine (find?_rotateLoop_of_notMem _ fun hkey ↦ ?_).trans hfound
    obtain ⟨stream, hstream, rfl⟩ := List.mem_map.mp hkey
    rw [Table.mem_rows_iff_find?.mp (hmem.mp hstream).1] at hfound
    exact absurd hfound (Option.some_ne_none stream)
  | some info =>
    obtain ⟨hrow, rfl⟩ := Table.find?_eq_some_iff.mp hfound
    rw [Option.map_some, effect]
    by_cases hlive : info.isLive = true
    · rw [if_pos hlive, find?_rotateLoop_of_mem _ hdistinct
        (fun stream hstream ↦ hlong stream (hmem.mp hstream).1) (hmem.mpr ⟨hrow, hlive⟩), hfound]
      cases renewedStream outcome info <;> rfl
    · rw [if_neg hlive]
      refine (find?_rotateLoop_of_notMem _ fun hkey ↦ ?_).trans hfound
      obtain ⟨stream, hstream, hsame⟩ := List.mem_map.mp hkey
      obtain ⟨hother, hotherLive⟩ := hmem.mp hstream
      rw [Table.mem_rows_iff_find?, hsame, hfound, Option.some_inj] at hother
      exact hlive (hother ▸ hotherLive)

/-! ### The frame of a rotation -/

/-- A record renewed from one differs in the key and the IV at most exactly when that one is live
and has no latency mode. -/
theorem onlyKeysDiffer_iff {stream updated : StreamInfo}
    (hrenewed : renewedStream outcome stream = some updated) :
    OnlyKeysDiffer stream updated ↔ stream.isLive = true ∧ stream.latencyMode = "" := by
  obtain ⟨_, _, _, newKey, newIV, _, rfl⟩ := renewedStream_eq_some_iff.mp hrenewed
  simp only [OnlyKeysDiffer, StreamInfo.mk.injEq, true_and]
  exact and_congr eq_comm eq_comm

/-- A rotation of a table, in any order, touches only keys exactly when every live stream that is
due and whose cipher suite is known has no latency mode. Assumes: the generation of keys
succeeds. -/
theorem keysOnly_iff (outcome : RotationOutcome) (table : Table StreamInfo.streamKey)
    (hgenerate : ∀ key suite, (outcome.generateKey key suite).isSome = true) :
    (∀ streams, streams.Perm (liveStreams table) →
        KeysOnly outcome table (rotateLoop outcome table streams)) ↔
      ∀ stream ∈ table.rows, IsDue outcome stream →
        (∃ suite, normalizeCipherSuite stream.cipherSuite = .ok suite) →
          stream.latencyMode = "" := by
  constructor
  · rintro hall stream hstream ⟨hlive, hdue⟩ ⟨suite, hsuite⟩
    obtain ⟨⟨newKey, newIV⟩, hkey⟩ :=
      Option.isSome_iff_exists.mp (hgenerate stream.streamKey suite)
    have hrenewed := renewedStream_eq_some_iff.mpr
      ⟨hdue, suite, hsuite, newKey, newIV, hkey, rfl⟩
    -- the order that visits this stream first, so that no panic comes before it
    obtain ⟨streams, hperm⟩ : ∃ streams, (stream :: streams).Perm (liveStreams table) :=
      ⟨_, (List.perm_cons_erase (List.mem_filter.mpr ⟨hstream, hlive⟩)).symm⟩
    have hdistinct : ((stream :: streams).map StreamInfo.streamKey).Nodup :=
      (hperm.map _).nodup_iff.mpr
        (table.distinct.sublist (List.filter_sublist.map StreamInfo.streamKey))
    have hframe := hall _ hperm stream.streamKey
    rw [Table.mem_rows_iff_find?.mp hstream,
      find?_rotateLoop_cons table (List.nodup_cons.mp hdistinct).1 hrenewed,
      Option.rel_some_some] at hframe
    exact ((onlyKeysDiffer_iff hrenewed).mp hframe.1).2
  · intro hmodes streams hperm key
    rcases find?_rotateLoop_cases table streams key with hsame | ⟨stream, hstream, rfl, hne, hlast⟩
    · rw [hsame]
      cases table.find? key with
      | none => exact Option.Rel.none
      | some info => exact Option.Rel.some ⟨rfl, fun _ ↦ rfl⟩
    · obtain ⟨hmem, hlive⟩ := List.mem_filter.mp (hperm.mem_iff.mp hstream)
      obtain ⟨updated, hrenewed⟩ := Option.ne_none_iff_exists'.mp hne
      obtain ⟨hdue, suite, hsuite, _⟩ := renewedStream_eq_some_iff.mp hrenewed
      rw [hlast, hrenewed, Table.mem_rows_iff_find?.mp hmem]
      refine Option.Rel.some ⟨(onlyKeysDiffer_iff hrenewed).mpr ⟨hlive, ?_⟩, fun hnot ↦ ?_⟩
      · exact hmodes stream hmem ⟨hlive, hdue⟩ ⟨suite, hsuite⟩
      · exact absurd ⟨hlive, hdue⟩ hnot

/-- A rotation at the tenth minute in which every key is generated. -/
def tenthMinute : RotationOutcome where
  visit streams := streams
  visit_perm _ := List.Perm.refl _
  now _ := keyRotationInterval
  generateKey _ _ := some ("AAECAwQFBgcICQoLDA0ODxAREhMUFRYXGBkaGxwdHh8=", "")

/-- A stream that was started at time zero in the resilient mode. -/
def resilientStream : StreamInfo where
  streamKey := "0123456789abcdef0123456789abcdef"
  title := "evening show"
  originURL := "http://origin:8080/live/0123456789abcdef0123456789abcdef/index.m3u8"
  encryptKey := ""
  encryptIV := ""
  cipherSuite := "chacha20-poly1305"
  isLive := true
  createdAt := 0
  latencyMode := latencyResilient

/-- A table with that stream alone. -/
def oneStream : Table StreamInfo.streamKey := ⟨[resilientStream], List.nodup_singleton _⟩

/-- A witness of `keysOnly_iff`. -/
theorem keysOnly_iff_oneStream :
    (∀ streams, streams.Perm (liveStreams oneStream) →
        KeysOnly tenthMinute oneStream (rotateLoop tenthMinute oneStream streams)) ↔
      ∀ stream ∈ oneStream.rows, IsDue tenthMinute stream →
        (∃ suite, normalizeCipherSuite stream.cipherSuite = .ok suite) →
          stream.latencyMode = "" :=
  keysOnly_iff tenthMinute oneStream fun _ _ ↦ rfl

/-- The rotation takes the mode away from that stream. -/
theorem keysOnly_counterexample :
    ¬ KeysOnly tenthMinute oneStream
      (rotateLoop tenthMinute oneStream (liveStreams oneStream)) := by
  intro hframe
  have hafter : ((rotateLoop tenthMinute oneStream (liveStreams oneStream)).find?
      resilientStream.streamKey).map StreamInfo.latencyMode = some "" := by decide +kernel
  have hrecord := hframe resilientStream.streamKey
  rw [show oneStream.find? resilientStream.streamKey = some resilientStream by decide +kernel]
    at hrecord
  obtain ⟨info, hinfo, hmode⟩ := Option.map_eq_some_iff.mp hafter
  rw [hinfo, Option.rel_some_some] at hrecord
  have hkept : info.latencyMode = latencyResilient := congrArg StreamInfo.latencyMode hrecord.1
  exact absurd (hmode.symm.trans hkept) (by decide)

end LiveCDN.Controller.RotationFrame
