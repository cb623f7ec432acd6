import LiveCDN.Agent.EncryptedJoin
import LiveCDN.Agent.Playlist
import LiveCDN.Library.KeyedTable
import LiveCDN.Library.RecentBuffer

/-!
# The pull loop of a stream relay

`relay/mod.rs`, `StreamRelay::start`: each turn of the loop polls the playlist (`poll`). A playlist
whose hash changed is parsed, sealed, put into the list of recent segments and broadcast; then each
listed segment that is not in `fetched_urls` is fetched, sealed, put there too, remembered and
broadcast (`pullSegment`). When more than a hundred URLs are remembered, twenty are forgotten,
whichever the hash map yields first (`remember`).

What a cleanup forgets is any twenty of the URLs, the one just fetched and listed ones among them,
and nothing else is forgotten (`find?_remember`). A listed URL that a cleanup has forgotten since
its broadcast is fetched again. So each segment is broadcast at most once while it stays listed
exactly in the runs in which no such URL comes to a turn at which it can be fetched and sealed
(`sent_runs_iff`). The newest playlist stays in the list behind a poll exactly when the poll puts
fewer segments behind it than the list holds (`newestAvailable_iff`). The loop goes through states
of the relay of `EncryptedJoin` (`exists_actions_polls`).

Scope. What is fetched, the nonces, the hash and the order in which the hash map yields its keys are
inputs. Counters wrap, as in a release build. A panic of the parser ends the task.
-/

set_option autoImplicit false
set_option relaxedAutoImplicit false

namespace LiveCDN.Agent.StreamRelay

open Library.Utf8Text Library.KeyedTable Library.RecentBuffer Library.GuardedRun ChunkCrypto
  EncryptedJoin Playlist

/-! ### The relay -/

/-- An order in which a hash map yields its keys. -/
structure KeyOrder where
  order : List Text → List Text
  perm : ∀ keys, (order keys).Perm keys

/-- `fetched_urls`: the URLs of the segments that were fetched, with their numbers. -/
abbrev FetchedUrls := Table (Prod.fst : Text × ℕ → Text)

/-- The fields of `StreamRelay` that its pull loop reads and does not write, and `simple_hash`. -/
structure Relay where
  originUrl : Text
  maxSegments : ℕ
  simpleHash : List UInt8 → UInt64

variable {Key : Type} (aead : Aead Key)

/-- The variables of the pull loop, and its history. -/
structure PullState where
  encryptor : StreamEncryptor
  segments : List (CachedSegment aead)
  fetchedUrls : FetchedUrls
  lastM3u8Hash : UInt64
  seqCounter : UInt32
  /-- The task has panicked. -/
  crashed : Bool
  /-- The last playlist that was polled. -/
  lastPolled : Option (List UInt8)
  /-- How often the segment of a URL has been broadcast while the URL stayed listed. -/
  sent : Text → ℕ
  /-- A cleanup has forgotten the URL since it was broadcast, and it stayed listed. -/
  evicted : Text → Bool

/-- The state before the first poll. -/
def PullState.initial : PullState aead :=
  ⟨.new, [], .empty, 0, 0, false, none, fun _ ↦ 0, fun _ ↦ false⟩

variable {aead}

/-- `latest_m3u8`. -/
def PullState.latestM3u8 (st : PullState aead) : Option (Block aead) :=
  (newest (fun segment ↦ decide (segment.segType = .m3u8)) st.segments).map CachedSegment.data

/-! ### One segment -/

/-- A listed segment at its turn: what `fetch_url` gives, the nonce it is sealed with, and the order
of the keys if some are forgotten. -/
structure Turn where
  segment : M3u8Segment
  data : Option (List UInt8)
  nonce : Nonce
  keyOrder : KeyOrder

/-- The URLs that the cleanup behind a fetch forgets: the first twenty that the hash map yields,
when there are more than a hundred. -/
def cleanedUp (fetchedUrls : FetchedUrls) (turn : Turn) : List Text :=
  let fetched := fetchedUrls.put (turn.segment.url, turn.segment.seq)
  if 100 < fetched.rows.length then
    (turn.keyOrder.order (fetched.rows.map Prod.fst)).take 20
  else []

/-- A fetched URL is remembered, and twenty are forgotten when there are more than a hundred. -/
def remember (fetchedUrls : FetchedUrls) (turn : Turn) : FetchedUrls :=
  let fetched := fetchedUrls.put (turn.segment.url, turn.segment.seq)
  if 100 < fetched.rows.length then
    fetched.removeAll ((turn.keyOrder.order (fetched.rows.map Prod.fst)).take 20)
  else fetched

/-- Which URLs are evicted behind a fetch: those that its cleanup forgets and that have been
broadcast while they stayed listed, and those that were and have not been remembered again. -/
def evictedAfter (st : PullState aead) (turn : Turn) (url : Text) : Bool :=
  if (cleanedUp st.fetchedUrls turn).any fun gone ↦ decide (gone = url) then
    decide (url = turn.segment.url ∨ 0 < st.sent url)
  else decide (url ≠ turn.segment.url) && st.evicted url

/-- The turn of a listed segment. -/
def pullSegment (relay : Relay) (st : PullState aead) (turn : Turn) : PullState aead :=
  if (st.fetchedUrls.find? turn.segment.url).isSome then st
  else
    match turn.data with
    | none => st
    | some tsData =>
      match st.encryptor.encrypt aead turn.nonce tsData with
      | (.error _, encryptor) => { st with encryptor := encryptor }
      | (.ok encrypted, encryptor) =>
        { st with
          encryptor := encryptor
          segments := push relay.maxSegments st.segments ⟨.ts, encrypted⟩
          fetchedUrls := remember st.fetchedUrls turn
          seqCounter := st.seqCounter + 1
          sent := Function.update st.sent turn.segment.url (st.sent turn.segment.url + 1)
          evicted := evictedAfter st turn }

/-! ### One poll -/

/-- What the fetch of a listed segment comes to. -/
structure Fetch where
  data : Option (List UInt8)
  nonce : Nonce
  keyOrder : KeyOrder

/-- What a poll comes to: what `fetch_url` gives for the playlist, the nonce it is sealed with, and
the fetches of the segments it lists, by position. -/
structure Poll where
  m3u8 : Option (List UInt8)
  nonce : Nonce
  fetches : ℕ → Fetch

/-- The turns of the segments of a playlist. -/
def Poll.turns (poll : Poll) (info : M3u8Info) : List Turn :=
  info.segments.zipIdx.map fun listed ↦
    ⟨listed.1, (poll.fetches listed.2).data, (poll.fetches listed.2).nonce,
      (poll.fetches listed.2).keyOrder⟩

/-- The URLs that a playlist lists. -/
def listedUrls (relay : Relay) (m3u8Data : List UInt8) : List Text :=
  (pollPlaylist false m3u8Data relay.originUrl).elim [] fun info ↦
    info.segments.map M3u8Segment.url

/-- A playlist has been polled: URLs that it does not list are not listed any more. -/
def PullState.polled (st : PullState aead) (relay : Relay) (m3u8Data : List UInt8) :
    PullState aead :=
  { st with
    lastPolled := some m3u8Data
    sent := fun url ↦
      if (listedUrls relay m3u8Data).any fun listed ↦ decide (listed = url) then st.sent url
      else 0
    evicted := fun url ↦
      ((listedUrls relay m3u8Data).any fun listed ↦ decide (listed = url)) && st.evicted url }

/-- A changed playlist is sealed, put into the list and broadcast. -/
def PullState.pushPlaylist (st : PullState aead) (relay : Relay) (encrypted : Block aead)
    (encryptor : StreamEncryptor) : PullState aead :=
  { st with
    encryptor := encryptor
    segments := push relay.maxSegments st.segments ⟨.m3u8, encrypted⟩
    seqCounter := st.seqCounter + 1 }

/-- A turn of the loop of `StreamRelay::start` up to the loop over the segments, and the turns that
the segments then take. -/
def openPoll (relay : Relay) (before : PullState aead) (poll : Poll) : PullState aead × List Turn :=
  if before.crashed = true then (before, [])
  else
    match poll.m3u8 with
    | none => (before, [])
    | some m3u8Data =>
      let st := before.polled relay m3u8Data
      if relay.simpleHash m3u8Data = st.lastM3u8Hash then (st, [])
      else
        let st := { st with lastM3u8Hash := relay.simpleHash m3u8Data }
        match pollPlaylist false m3u8Data relay.originUrl with
        | none => ({ st with crashed := true }, [])
        | some parsed =>
          match st.encryptor.encrypt aead poll.nonce m3u8Data with
          | (.error _, encryptor) => ({ st with encryptor := encryptor }, [])
          | (.ok encrypted, encryptor) =>
            (st.pushPlaylist relay encrypted encryptor, poll.turns parsed)

/-- A turn of the loop of `StreamRelay::start`. -/
def poll (relay : Relay) (before : PullState aead) (poll : Poll) : PullState aead :=
  run (pullSegment relay) (openPoll relay before poll).1 (openPoll relay before poll).2

/-! ### What a turn does -/

/-- A fetch succeeds, and what it gives can be sealed. -/
def CanSeal (st : PullState aead) (turn : Turn) : Prop :=
  ∃ data block, turn.data = some data ∧ (st.encryptor.encrypt aead turn.nonce data).1 = .ok block

/-- The block that a turn puts into the list and broadcasts, if it does. -/
def cachedBlock (st : PullState aead) (turn : Turn) : Option (Block aead) :=
  if (st.fetchedUrls.find? turn.segment.url).isSome then none
  else turn.data.bind fun data ↦ (st.encryptor.encrypt aead turn.nonce data).1.toOption

/-- A turn broadcasts its segment exactly when its URL is not remembered and it can be fetched and
sealed. -/
theorem cachedBlock_isSome_iff {st : PullState aead} {turn : Turn} :
    (cachedBlock st turn).isSome ↔
      st.fetchedUrls.find? turn.segment.url = none ∧ CanSeal st turn := by
  unfold cachedBlock CanSeal
  by_cases hknown : (st.fetchedUrls.find? turn.segment.url).isSome
  · rw [if_pos hknown]
    refine iff_of_false Bool.false_ne_true fun hboth ↦ ?_
    rw [hboth.1] at hknown
    exact Bool.false_ne_true hknown
  · rw [if_neg hknown, and_iff_right (Option.not_isSome_iff_eq_none.mp hknown)]
    cases turn.data with
    | none => simp
    | some data =>
      rw [Option.bind_some]
      cases hencrypt : (st.encryptor.encrypt aead turn.nonce data).1 with
      | error error => simp [Except.toOption, hencrypt]
      | ok block => simp [Except.toOption, hencrypt]

/-- What a turn can do: it moves the counter of the encryptor at most, or it broadcasts a block. -/
theorem pullSegment_cases (relay : Relay) (st : PullState aead) (turn : Turn) :
    (cachedBlock st turn = none ∧
      ∃ encryptor, pullSegment relay st turn = { st with encryptor := encryptor }) ∨
    ∃ block encryptor, cachedBlock st turn = some block ∧
      pullSegment relay st turn =
        { st with
          encryptor := encryptor
          segments := push relay.maxSegments st.segments ⟨.ts, block⟩
          fetchedUrls := remember st.fetchedUrls turn
          seqCounter := st.seqCounter + 1
          sent := Function.update st.sent turn.segment.url (st.sent turn.segment.url + 1)
          evicted := evictedAfter st turn } := by
  unfold cachedBlock pullSegment
  by_cases hknown : (st.fetchedUrls.find? turn.segment.url).isSome
  · rw [if_pos hknown, if_pos hknown]
    exact Or.inl ⟨rfl, st.encryptor, rfl⟩
  · rw [if_neg hknown, if_neg hknown]
    cases turn.data with
    | none => exact Or.inl ⟨rfl, st.encryptor, rfl⟩
    | some data =>
      dsimp only [Option.bind_some]
      cases hencrypt : st.encryptor.encrypt aead turn.nonce data with
      | mk result encryptor =>
        cases result with
        | error error => exact Or.inl ⟨rfl, encryptor, rfl⟩
        | ok block => exact Or.inr ⟨block, encryptor, rfl, rfl⟩

/-- The list of segments after a turn. -/
theorem segments_pullSegment (relay : Relay) (st : PullState aead) (turn : Turn) :
    (pullSegment relay st turn).segments =
      pushAll relay.maxSegments st.segments
        ((cachedBlock st turn).toList.map fun block ↦ ⟨.ts, block⟩) := by
  rcases pullSegment_cases relay st turn with
    ⟨hblock, encryptor, hpull⟩ | ⟨block, encryptor, hblock, hpull⟩
  · rw [hpull, hblock]
    rfl
  · rw [hpull, hblock]
    rfl

/-- The counts of broadcasts after a turn. -/
theorem sent_pullSegment (relay : Relay) (st : PullState aead) (turn : Turn) (url : Text) :
    (pullSegment relay st turn).sent url =
      if url = turn.segment.url ∧ (cachedBlock st turn).isSome then st.sent url + 1
      else st.sent url := by
  rcases pullSegment_cases relay st turn with
    ⟨hblock, encryptor, hpull⟩ | ⟨block, encryptor, hblock, hpull⟩
  · rw [hpull, hblock, if_neg fun hboth ↦ Bool.false_ne_true hboth.2]
  · rw [hpull, hblock]
    show Function.update st.sent turn.segment.url _ url = _
    by_cases hurl : url = turn.segment.url
    · rw [if_pos ⟨hurl, rfl⟩, hurl, Function.update_self]
    · rw [if_neg fun hboth ↦ hurl hboth.1, Function.update_of_ne hurl]

/-- A turn does not end the task. -/
theorem crashed_pullSegment (relay : Relay) (st : PullState aead) (turn : Turn) :
    (pullSegment relay st turn).crashed = st.crashed := by
  rcases pullSegment_cases relay st turn with ⟨-, encryptor, hpull⟩ | ⟨block, encryptor, -, hpull⟩
  · rw [hpull]
  · rw [hpull]

/-! ### Each segment once -/

/-- Each URL has been broadcast at most once while it stayed listed. -/
def SentOnce (st : PullState aead) : Prop := ∀ url, st.sent url ≤ 1

/-- At its turn the URL of a segment is not one that a cleanup has forgotten since it was broadcast
in this listing and that can be fetched and sealed again. -/
def TurnSpared (st : PullState aead) (turn : Turn) : Prop :=
  st.evicted turn.segment.url = true → ¬ CanSeal st turn

/-- The turns of a poll come to no URL that a cleanup has forgotten since it was broadcast in this
listing and that can be fetched and sealed again. -/
def PollSpared (relay : Relay) (before : PullState aead) (poll : Poll) : Prop :=
  EachStepMeets (pullSegment relay) TurnSpared (openPoll relay before poll).1
    (openPoll relay before poll).2

/-- What is remembered behind a fetch: the URLs that were and the fetched one, but for those that
the cleanup forgets. -/
theorem find?_remember (fetchedUrls : FetchedUrls) (turn : Turn) (url : Text) :
    (remember fetchedUrls turn).find? url =
      if url ∈ cleanedUp fetchedUrls turn then none
      else if url = turn.segment.url then some (turn.segment.url, turn.segment.seq)
      else fetchedUrls.find? url := by
  have hput := Table.find?_put fetchedUrls
    (show Prod.fst (turn.segment.url, turn.segment.seq) = turn.segment.url from rfl) url
  unfold remember cleanedUp
  dsimp only
  by_cases hmany : 100 < (fetchedUrls.put (turn.segment.url, turn.segment.seq)).rows.length
  · rw [if_pos hmany, if_pos hmany, Table.find?_removeAll, hput]
    split_ifs <;> rfl
  · rw [if_neg hmany, if_neg hmany, if_neg List.not_mem_nil, hput]

/-- The evicted URLs are those that have been broadcast while they stayed listed and are not
remembered. -/
def EvictionsKnown (st : PullState aead) : Prop :=
  ∀ url, st.evicted url = true ↔ 0 < st.sent url ∧ st.fetchedUrls.find? url = none

/-- A turn marks what its cleanup forgets. -/
theorem evictionsKnown_pullSegment (relay : Relay) {st : PullState aead}
    (hknown : EvictionsKnown st) (turn : Turn) : EvictionsKnown (pullSegment relay st turn) := by
  rcases pullSegment_cases relay st turn with
    ⟨-, encryptor, hpull⟩ | ⟨block, encryptor, -, hpull⟩
  · rw [hpull]
    exact hknown
  · rw [hpull]
    intro url
    show evictedAfter st turn url = true ↔
      0 < Function.update st.sent turn.segment.url (st.sent turn.segment.url + 1) url ∧
        (remember st.fetchedUrls turn).find? url = none
    have hgone : ((cleanedUp st.fetchedUrls turn).any fun gone ↦ decide (gone = url)) = true ↔
        url ∈ cleanedUp st.fetchedUrls turn := by
      simp
    rw [find?_remember, evictedAfter]
    by_cases hcleaned : url ∈ cleanedUp st.fetchedUrls turn
    · rw [if_pos (hgone.mpr hcleaned), if_pos hcleaned, and_iff_left rfl, decide_eq_true_iff]
      by_cases hurl : url = turn.segment.url
      · rw [hurl, Function.update_self]
        exact iff_of_true (Or.inl rfl) (Nat.succ_pos _)
      · rw [Function.update_of_ne hurl, or_iff_right hurl]
    · rw [if_neg (mt hgone.mp hcleaned), if_neg hcleaned]
      by_cases hurl : url = turn.segment.url
      · rw [if_pos hurl]
        exact iff_of_false (by simp [hurl]) fun h ↦ nomatch h.2
      · rw [if_neg hurl, Function.update_of_ne hurl, decide_eq_true hurl, Bool.true_and]
        exact hknown url

/-- A turn keeps each segment from being broadcast twice exactly when its URL is not an evicted one
that can be fetched and sealed again. Assumes: it is so before the turn. -/
theorem sentOnce_pullSegment_iff (relay : Relay) {st : PullState aead} (turn : Turn)
    (hknown : EvictionsKnown st) (honce : SentOnce st) :
    SentOnce (pullSegment relay st turn) ↔ TurnSpared st turn := by
  unfold SentOnce TurnSpared
  rw [hknown turn.segment.url]
  simp only [sent_pullSegment]
  constructor
  · intro hsent hevicted hseal
    have hcount := hsent turn.segment.url
    rw [if_pos ⟨rfl, cachedBlock_isSome_iff.mpr ⟨hevicted.2, hseal⟩⟩] at hcount
    have hpositive := hevicted.1
    omega
  · intro hspared url
    by_cases hcached : url = turn.segment.url ∧ (cachedBlock st turn).isSome
    · obtain ⟨hunknown, hseal⟩ := cachedBlock_isSome_iff.mp hcached.2
      have hzero : st.sent url = 0 := by
        by_contra hpositive
        rw [hcached.1] at hpositive
        exact hspared ⟨Nat.pos_of_ne_zero hpositive, hunknown⟩ hseal
      rw [if_pos hcached, hzero]
    · rw [if_neg hcached]
      exact honce url

/-- A turn takes no broadcast back. -/
theorem sent_le_sent_pullSegment (relay : Relay) (st : PullState aead) (turn : Turn) (url : Text) :
    st.sent url ≤ (pullSegment relay st turn).sent url := by
  rw [sent_pullSegment]
  split_ifs
  · exact Nat.le_succ _
  · exact le_rfl

/-- A polled playlist counts no broadcast. -/
theorem sent_polled_le (relay : Relay) (st : PullState aead) (m3u8Data : List UInt8) (url : Text) :
    (st.polled relay m3u8Data).sent url ≤ st.sent url := by
  unfold PullState.polled
  dsimp only
  split_ifs
  · exact le_rfl
  · exact Nat.zero_le _

/-- A polled playlist clears the marks of the URLs that it does not list. -/
theorem evictionsKnown_polled (relay : Relay) {st : PullState aead} (hknown : EvictionsKnown st)
    (m3u8Data : List UInt8) : EvictionsKnown (st.polled relay m3u8Data) := by
  intro url
  unfold PullState.polled
  dsimp only
  cases (listedUrls relay m3u8Data).any fun listed ↦ decide (listed = url) with
  | false => exact iff_of_false Bool.false_ne_true fun h ↦ lt_irrefl 0 h.1
  | true => exact hknown url

/-- Up to the turns of a poll nothing but the listing changes: no URL has been broadcast more often
than before the poll, and the evictions are known. -/
theorem openPoll_kept (relay : Relay) {before : PullState aead} (poll : Poll)
    (hknown : EvictionsKnown before) :
    EvictionsKnown (openPoll relay before poll).1 ∧
      ∀ url, (openPoll relay before poll).1.sent url ≤ before.sent url := by
  unfold openPoll
  by_cases hcrashed : before.crashed = true
  · rw [if_pos hcrashed]
    exact ⟨hknown, fun _ ↦ le_rfl⟩
  · rw [if_neg hcrashed]
    cases poll.m3u8 with
    | none => exact ⟨hknown, fun _ ↦ le_rfl⟩
    | some m3u8Data =>
      have hpolled := evictionsKnown_polled relay hknown m3u8Data
      have hsent := sent_polled_le relay before m3u8Data
      dsimp only
      split
      · exact ⟨hpolled, hsent⟩
      · split
        · exact ⟨hpolled, hsent⟩
        · split
          · exact ⟨hpolled, hsent⟩
          · exact ⟨hpolled, hsent⟩

/-- A poll keeps each segment from being broadcast twice exactly when its turns come to no evicted
URL that can be fetched and sealed again. Assumes: it is so before the poll. -/
theorem sentOnce_poll_iff (relay : Relay) {before : PullState aead} (next : Poll)
    (hknown : EvictionsKnown before) (honce : SentOnce before) :
    SentOnce (poll relay before next) ↔ PollSpared relay before next := by
  obtain ⟨hopened, hsent⟩ := openPoll_kept relay next hknown
  refine @run_iff_eachStepMeets _ _ (pullSegment relay) _ EvictionsKnown SentOnce
    (fun st ↦ ¬ SentOnce st) ?_ ?_ ?_ ?_ ?_ _ hopened ?_ _
  · exact fun st turn hst ↦ evictionsKnown_pullSegment relay hst turn
  · exact fun st turn hst hgood hturn ↦ (sentOnce_pullSegment_iff relay turn hst hgood).mpr hturn
  · exact fun st turn hst hgood hturn hnext ↦
      hturn ((sentOnce_pullSegment_iff relay turn hst hgood).mp hnext)
  · exact fun st turn _ htwice hnext ↦
      htwice fun url ↦ (sent_le_sent_pullSegment relay st turn url).trans (hnext url)
  · exact fun _ htwice hst ↦ htwice hst
  · exact fun url ↦ (hsent url).trans (honce url)

/-- The evictions are known behind every poll. -/
theorem evictionsKnown_poll (relay : Relay) {before : PullState aead} (next : Poll)
    (hknown : EvictionsKnown before) : EvictionsKnown (poll relay before next) :=
  @invariant_run_of_step _ _ (pullSegment relay) EvictionsKnown
    (fun _ turn hst ↦ evictionsKnown_pullSegment relay hst turn) _
    (openPoll_kept relay next hknown).1 (openPoll relay before next).2

/-- In a run each segment is broadcast at most once while its URL stays listed exactly when the
turns of the polls come to no listed URL that a cleanup has forgotten since its broadcast and that
can be fetched and sealed again. -/
theorem sent_runs_iff (relay : Relay) (polls : List Poll) :
    EachStepMeets (poll relay) (fun before next ↦ ∀ url, (poll relay before next).sent url ≤ 1)
        (.initial aead) polls ↔
      EachStepMeets (poll relay) (PollSpared relay) (.initial aead) polls := by
  have hinitial : EvictionsKnown (.initial aead) ∧ SentOnce (.initial aead) :=
    ⟨fun _ ↦ iff_of_false Bool.false_ne_true fun h ↦ lt_irrefl 0 h.1, fun _ ↦ Nat.zero_le 1⟩
  refine @eachStepMeets_iff_of_kept _ _ (poll relay) _ _
    (fun st ↦ EvictionsKnown st ∧ SentOnce st) ?_ ?_ _ hinitial polls
  · exact fun st next hkept honce ↦ ⟨evictionsKnown_poll relay next hkept.1, honce⟩
  · exact fun st next hkept ↦ sentOnce_poll_iff relay next hkept.1 hkept.2

/-! ### A segment that is broadcast twice -/

/-- A hash map that yields its keys in the order in which the model holds them. -/
def sameOrder : KeyOrder := ⟨id, List.Perm.refl⟩

/-- A relay whose hash is the length of the data. -/
def roomRelay : Relay where
  originUrl := "http://o/r.m3u8".toList
  maxSegments := 30
  simpleHash data := UInt64.ofNat data.length

/-- A poll of a playlist of which every segment can be fetched. -/
def pollOf (content : Text) : Poll where
  m3u8 := some (asciiBytes content)
  nonce := zeroNonce
  fetches _ := ⟨some [0], zeroNonce, sameOrder⟩

/-- A playlist of a hundred and one segments. -/
def longPlaylist : Text := (List.range 101).flatMap fun number ↦ Nat.toDigits 10 number ++ ['\n']

/-- The last segment of the long playlist stays listed and is broadcast again. -/
theorem sent_counterexample :
    (run (poll roomRelay) (.initial tagCipher) [pollOf longPlaylist, pollOf "100\n".toList]).sent
      "http://o/100".toList = 2 := by
  decide +kernel

/-! ### The newest playlist -/

/-- The blocks that the turns of a poll put into the list. -/
def cachedBlocks (relay : Relay) : PullState aead → List Turn → List (Block aead)
  | _, [] => []
  | st, turn :: turns =>
    (cachedBlock st turn).toList ++ cachedBlocks relay (pullSegment relay st turn) turns

/-- The block that a poll seals for its playlist, if the hash has changed and it can be sealed. -/
def playlistBlock (relay : Relay) (before : PullState aead) (next : Poll) : Option (Block aead) :=
  next.m3u8.bind fun m3u8Data ↦
    if relay.simpleHash m3u8Data = before.lastM3u8Hash then none
    else (before.encryptor.encrypt aead next.nonce m3u8Data).1.toOption

/-- A poll of a playlist ends without a panic: the playlist is not parsed, or it can be. -/
def Completes (relay : Relay) (before : PullState aead) (m3u8Data : List UInt8) : Prop :=
  before.crashed = false ∧
    (relay.simpleHash m3u8Data = before.lastM3u8Hash ∨
      (pollPlaylist false m3u8Data relay.originUrl).isSome)

/-- Behind a poll of a changed playlist the newest playlist in the list is the block of this one. -/
def NewestAvailable (relay : Relay) (before : PullState aead) (next : Poll) : Prop :=
  ∀ m3u8Data, next.m3u8 = some m3u8Data → before.lastPolled ≠ some m3u8Data →
    (poll relay before next).crashed = false →
    ∃ block, playlistBlock relay before next = some block ∧
      (poll relay before next).latestM3u8 = some block

/-- The hash of a changed playlist has changed, the playlist can be sealed, and fewer of its
segments than the list holds are new and can be fetched and sealed. -/
def PlaylistStays (relay : Relay) (before : PullState aead) (next : Poll) : Prop :=
  ∀ m3u8Data, next.m3u8 = some m3u8Data → before.lastPolled ≠ some m3u8Data →
    Completes relay before m3u8Data →
    (playlistBlock relay before next).isSome ∧
      (cachedBlocks relay (openPoll relay before next).1 (openPoll relay before next).2).length <
        relay.maxSegments

/-- The list of segments after turns. -/
theorem segments_run (relay : Relay) (st : PullState aead) (turns : List Turn) :
    (run (pullSegment relay) st turns).segments =
      pushAll relay.maxSegments st.segments
        ((cachedBlocks relay st turns).map fun block ↦ ⟨.ts, block⟩) := by
  induction turns generalizing st with
  | nil => rfl
  | cons turn turns ih =>
    rw [run_cons, ih, segments_pullSegment, cachedBlocks, List.map_append, pushAll_append]

/-- Turns do not end the task. -/
theorem crashed_run (relay : Relay) (st : PullState aead) (turns : List Turn) :
    (run (pullSegment relay) st turns).crashed = st.crashed := by
  induction turns generalizing st with
  | nil => rfl
  | cons turn turns ih => rw [run_cons, ih, crashed_pullSegment]

/-- The newest playlist stays in the list while the turns put fewer segments into it than it holds.
Assumes: the list ends with the playlist before the turns. -/
theorem latestM3u8_run (relay : Relay) {st : PullState aead} {segments : List (CachedSegment aead)}
    {block : Block aead} (hsegments : st.segments = push relay.maxSegments segments ⟨.m3u8, block⟩)
    (turns : List Turn) :
    (run (pullSegment relay) st turns).latestM3u8 =
      if (cachedBlocks relay st turns).length < relay.maxSegments then some block else none := by
  have hts : ∀ segment ∈ (cachedBlocks relay st turns).map fun block ↦
      (⟨.ts, block⟩ : CachedSegment aead), decide (segment.segType = .m3u8) = false := by
    intro segment hsegment
    obtain ⟨other, -, rfl⟩ := List.mem_map.mp hsegment
    rfl
  rw [PullState.latestM3u8, segments_run, hsegments, newest_pushAll_push _ _ rfl hts,
    List.length_map]
  split_ifs <;> rfl

/-- What a poll of a playlist comes to before its turns: it ends the task, it seals nothing, or it
puts the block of the playlist into the list. Assumes: the poll gives the playlist. -/
theorem openPoll_cases (relay : Relay) (before : PullState aead) {next : Poll}
    {m3u8Data : List UInt8} (hm3u8 : next.m3u8 = some m3u8Data) :
    (¬ Completes relay before m3u8Data ∧ (openPoll relay before next).1.crashed = true) ∨
    (Completes relay before m3u8Data ∧ (openPoll relay before next).1.crashed = false ∧
      (playlistBlock relay before next = none ∨
        ∃ block, playlistBlock relay before next = some block ∧
          (openPoll relay before next).1.segments =
            push relay.maxSegments before.segments ⟨.m3u8, block⟩)) := by
  unfold openPoll playlistBlock Completes
  rw [hm3u8]
  by_cases hcrashed : before.crashed = true
  · rw [if_pos hcrashed]
    exact Or.inl ⟨fun hboth ↦ absurd (hcrashed.symm.trans hboth.1) (by decide), hcrashed⟩
  · rw [if_neg hcrashed]
    rw [Bool.not_eq_true] at hcrashed
    dsimp only [Option.bind_some]
    by_cases hhash : relay.simpleHash m3u8Data = before.lastM3u8Hash
    · have hpolled : relay.simpleHash m3u8Data =
          (before.polled relay m3u8Data).lastM3u8Hash := hhash
      rw [if_pos hpolled, if_pos hhash]
      exact Or.inr ⟨⟨hcrashed, Or.inl hhash⟩, hcrashed, Or.inl rfl⟩
    · have hpolled : relay.simpleHash m3u8Data ≠
          (before.polled relay m3u8Data).lastM3u8Hash := hhash
      rw [if_neg hpolled, if_neg hhash]
      cases hparse : pollPlaylist false m3u8Data relay.originUrl with
      | none =>
        refine Or.inl ⟨fun hboth ↦ ?_, rfl⟩
        exact Bool.false_ne_true (hboth.2.resolve_left hhash)
      | some parsed =>
        refine Or.inr ⟨⟨hcrashed, Or.inr rfl⟩, ?_⟩
        have hencryptor : (before.polled relay m3u8Data).encryptor = before.encryptor := rfl
        dsimp only
        rw [hencryptor]
        cases hencrypt : before.encryptor.encrypt aead next.nonce m3u8Data with
        | mk result encryptor =>
          cases result with
          | error error => exact ⟨hcrashed, Or.inl rfl⟩
          | ok block => exact ⟨hcrashed, Or.inr ⟨block, rfl, rfl⟩⟩

/-- Behind a poll of a changed playlist its block is the newest exactly when the hash has changed,
the playlist can be sealed, and fewer new segments than the list holds are fetched and sealed. -/
theorem newestAvailable_iff (relay : Relay) (before : PullState aead) (next : Poll) :
    NewestAvailable relay before next ↔ PlaylistStays relay before next := by
  refine forall₃_congr fun m3u8Data hm3u8 _ ↦ ?_
  rw [poll, crashed_run]
  rcases openPoll_cases relay before hm3u8 with ⟨hstops, hcrashed⟩ | ⟨hcompletes, hcrashed, hblock⟩
  · rw [hcrashed]
    exact iff_of_true (fun h ↦ absurd h (by decide)) fun h ↦ absurd h hstops
  · rw [imp_iff_right hcrashed, imp_iff_right hcompletes]
    rcases hblock with hnone | ⟨block, hblock, hsegments⟩
    · rw [hnone]
      exact iff_of_false (fun ⟨_, hsome, _⟩ ↦ nomatch hsome) fun hboth ↦ Bool.false_ne_true hboth.1
    · rw [hblock, latestM3u8_run relay hsegments, Option.isSome_some, and_iff_right rfl]
      by_cases hfew : (cachedBlocks relay (openPoll relay before next).1
          (openPoll relay before next).2).length < relay.maxSegments
      · rw [if_pos hfew]
        exact iff_of_true ⟨block, rfl, rfl⟩ hfew
      · rw [if_neg hfew]
        exact iff_of_false (fun ⟨_, _, hsome⟩ ↦ nomatch hsome) hfew

/-! ### The relay that a client joins -/

/-- The relay of a joining client is in the state of the pull loop, between two chunks. -/
structure SameRelay (st : PullState aead) (joined : State aead) : Prop where
  encryptor : joined.encryptor = st.encryptor
  segments : joined.segments = st.segments
  seqCounter : joined.seqCounter = st.seqCounter
  progress : joined.progress = .idle

/-- The steps of one chunk. -/
def chunkActions (segType : SegType) (nonce : Nonce) (data : List UInt8) : List Action :=
  [.encrypt segType nonce data, .cache, .broadcast]

/-- The steps of a chunk that cannot be sealed move the counter of the encryptor. Assumes: the relay
is between two chunks. -/
theorem sameRelay_of_error {st : PullState aead} {joined : State aead} (hsame : SameRelay st joined)
    (maxSegments : ℕ) (segType : SegType) {nonce : Nonce} {data : List UInt8} {error : CryptoError}
    {encryptor : StreamEncryptor}
    (hencrypt : st.encryptor.encrypt aead nonce data = (.error error, encryptor)) :
    SameRelay { st with encryptor := encryptor }
      (run (EncryptedJoin.step maxSegments) joined (chunkActions segType nonce data)) := by
  have hjoined : joined.encryptor.encrypt aead nonce data = (.error error, encryptor) := by
    rw [hsame.encryptor, hencrypt]
  have hrun : run (EncryptedJoin.step maxSegments) joined (chunkActions segType nonce data) =
      { joined with encryptor := encryptor, progress := .idle } := by
    simp [run, chunkActions, EncryptedJoin.step, hsame.progress, hjoined]
  rw [hrun]
  exact ⟨rfl, hsame.segments, hsame.seqCounter, rfl⟩

/-- The steps of a chunk put its block into the list and number it. Assumes: the relay is between
two chunks, and the chunk can be sealed. -/
theorem sameRelay_of_ok {st : PullState aead} {joined : State aead} (hsame : SameRelay st joined)
    (relay : Relay) (segType : SegType) {nonce : Nonce} {data : List UInt8} {block : Block aead}
    {encryptor : StreamEncryptor}
    (hencrypt : st.encryptor.encrypt aead nonce data = (.ok block, encryptor)) :
    SameRelay
      { st with
        encryptor := encryptor
        segments := push relay.maxSegments st.segments ⟨segType, block⟩
        seqCounter := st.seqCounter + 1 }
      (run (EncryptedJoin.step relay.maxSegments) joined (chunkActions segType nonce data)) := by
  have hjoined : joined.encryptor.encrypt aead nonce data = (.ok block, encryptor) := by
    rw [hsame.encryptor, hencrypt]
  constructor
  · simp [run, chunkActions, EncryptedJoin.step, hsame.progress, hjoined]
  · simp only [run, chunkActions, List.foldl_cons, List.foldl_nil, EncryptedJoin.step,
      hsame.progress, hjoined]
    rw [hsame.segments]
    rfl
  · simp [run, chunkActions, EncryptedJoin.step, hsame.progress, hjoined, hsame.seqCounter]
  · simp [run, chunkActions, EncryptedJoin.step, hsame.progress, hjoined]

/-- A turn of a segment is some steps of the relay that a client joins. Assumes: that relay is in
the state before the turn. -/
theorem exists_actions_pullSegment {st : PullState aead} {joined : State aead}
    (hsame : SameRelay st joined) (relay : Relay) (turn : Turn) :
    ∃ actions, SameRelay (pullSegment relay st turn)
      (run (EncryptedJoin.step relay.maxSegments) joined actions) := by
  unfold pullSegment
  by_cases hknown : (st.fetchedUrls.find? turn.segment.url).isSome
  · rw [if_pos hknown]
    exact ⟨[], hsame⟩
  · rw [if_neg hknown]
    cases turn.data with
    | none => exact ⟨[], hsame⟩
    | some data =>
      refine ⟨chunkActions .ts turn.nonce data, ?_⟩
      dsimp only
      cases hencrypt : st.encryptor.encrypt aead turn.nonce data with
      | mk result encryptor =>
        cases result with
        | error error => exact sameRelay_of_error hsame relay.maxSegments .ts hencrypt
        | ok block =>
          obtain ⟨hencryptor, hsegments, hcounter, hprogress⟩ :=
            sameRelay_of_ok hsame relay .ts hencrypt
          exact ⟨hencryptor, hsegments, hcounter, hprogress⟩

/-- The turns of segments are some steps of the relay that a client joins. Assumes: that relay is in
the state before the turns. -/
theorem exists_actions_run {st : PullState aead} {joined : State aead} (hsame : SameRelay st joined)
    (relay : Relay) (turns : List Turn) :
    ∃ actions, SameRelay (run (pullSegment relay) st turns)
      (run (EncryptedJoin.step relay.maxSegments) joined actions) := by
  induction turns generalizing st joined with
  | nil => exact ⟨[], hsame⟩
  | cons turn turns ih =>
    obtain ⟨first, hfirst⟩ := exists_actions_pullSegment hsame relay turn
    obtain ⟨rest, hrest⟩ := ih hfirst
    refine ⟨first ++ rest, ?_⟩
    rw [run_append]
    exact hrest

/-- A poll is some steps of the relay that a client joins. Assumes: that relay is in the state
before the poll. -/
theorem exists_actions_poll {before : PullState aead} {joined : State aead}
    (hsame : SameRelay before joined) (relay : Relay) (next : Poll) :
    ∃ actions, SameRelay (poll relay before next)
      (run (EncryptedJoin.step relay.maxSegments) joined actions) := by
  have hopen : ∃ actions, SameRelay (openPoll relay before next).1
      (run (EncryptedJoin.step relay.maxSegments) joined actions) := by
    unfold openPoll
    by_cases hcrashed : before.crashed = true
    · rw [if_pos hcrashed]
      exact ⟨[], hsame⟩
    · rw [if_neg hcrashed]
      cases next.m3u8 with
      | none => exact ⟨[], hsame⟩
      | some m3u8Data =>
        have hpolled : SameRelay (before.polled relay m3u8Data) joined :=
          ⟨hsame.encryptor, hsame.segments, hsame.seqCounter, hsame.progress⟩
        dsimp only
        split
        · exact ⟨[], hpolled⟩
        · split
          · exact ⟨[], hsame.encryptor, hsame.segments, hsame.seqCounter, hsame.progress⟩
          · refine ⟨chunkActions .m3u8 next.nonce m3u8Data, ?_⟩
            split
            · next encryptor hencrypt =>
              obtain ⟨hencryptor, hsegments, hcounter, hprogress⟩ :=
                sameRelay_of_error hpolled relay.maxSegments .m3u8 hencrypt
              exact ⟨hencryptor, hsegments, hcounter, hprogress⟩
            · next block encryptor hencrypt =>
              obtain ⟨hencryptor, hsegments, hcounter, hprogress⟩ :=
                sameRelay_of_ok hpolled relay .m3u8 hencrypt
              exact ⟨hencryptor, hsegments, hcounter, hprogress⟩
  obtain ⟨first, hfirst⟩ := hopen
  obtain ⟨rest, hrest⟩ := exists_actions_run hfirst relay (openPoll relay before next).2
  refine ⟨first ++ rest, ?_⟩
  rw [run_append]
  exact hrest

/-- The pull loop goes through states of the relay that a client joins: after every run of it the
same steps lead that relay there. -/
theorem exists_actions_polls (relay : Relay) (polls : List Poll) :
    ∃ actions, SameRelay (run (poll relay) (.initial aead) polls)
      (run (EncryptedJoin.step relay.maxSegments) (.initial aead) actions) := by
  induction polls using List.reverseRecOn with
  | nil => exact ⟨[], rfl, rfl, rfl, rfl⟩
  | append_singleton polls next ih =>
    obtain ⟨first, hfirst⟩ := ih
    obtain ⟨rest, hrest⟩ := exists_actions_poll hfirst relay next
    refine ⟨first ++ rest, ?_⟩
    rw [run_append, run_append]
    exact hrest

end LiveCDN.Agent.StreamRelay
