import LiveCDN.Library.Utf8Text

/-!
# What a viewer's connection does with its stream key

`main.rs` and the start of the two relays: from the handshake of a WebSocket or the request line of
an HTTP-FLV request to the relay (`getOrCreateFlvRelay`, `getOrCreateRelay`), the pull task a new
relay spawns, and the handlers that serve the client (`handleWsFlvMode`, `handleWsEncryptedMode`,
`handleHttpFlvConnection`). A handler is the list of what it does, in order, for given outcomes of
what it waits for; the actions of a spawned task stand where it is spawned.

Each log line shows the first eight bytes of the key, cut with `logSlice`, which panics inside a
character. `logSlices_safe_iff` says for which connections no such slice panics.

Scope. The request line is within the peeked bytes. The texts of a header that answers a request are
left out, as are the playlists a stream relay polls and what the tasks send once they are
serving. `handle_hls` cuts no key.
-/

set_option autoImplicit false
set_option relaxedAutoImplicit false

namespace LiveCDN.Agent.ViewerConnection

open Library.Utf8Text

/-! ### Keys and addresses -/

/-- `&key[..8.min(key.len())]`, none when it panics. -/
def logSlice (key : Text) : Option Text := sliceTo key (min 8 (byteLen key))

/-- The placeholder of an address. -/
def placeholder : Text := "\x7bstream_key\x7d".toList

/-- The fields of `Config` that make an address. -/
structure Config where
  controllerUrl : Text
  cascadeUpstream : Option Text
  originFlvUrl : Option Text
  backupOriginUrl : Option Text

/-- `Config::origin_flv_url`. -/
def Config.originFlvUrlOf (config : Config) (key : Text) : Text :=
  match config.cascadeUpstream, config.originFlvUrl with
  | some upstream, _ => replace placeholder key upstream
  | none, some url => replace placeholder key url
  | none, none =>
    trimEndMatches "/".toList config.controllerUrl ++ "/live/".toList ++ key ++ ".flv".toList

/-- `Config::origin_hls_url`. -/
def Config.originHlsUrl (config : Config) (key : Text) : Text :=
  trimEndMatches "/".toList config.controllerUrl ++ "/live/".toList ++ key ++
    "/stream.m3u8".toList

/-- `parse_stream_key_from_url`. -/
def parseStreamKeyFromUrl (requestLine : Text) : Text :=
  match splitWhitespace requestLine with
  | _ :: url :: _ =>
    trimStartMatches "/cascade/".toList
      (trimStartMatches "/live/".toList (trimEndMatches ".flv".toList url))
  | _ => []

/-- `is_flv_request`, on the request line. -/
def isFlvRequest (line : Text) : Bool :=
  decide (".flv".toList <:+: line) && "GET".toList.isPrefixOf line &&
    (decide ("/live/".toList <:+: line) || decide ("/cascade/".toList <:+: line))

/-! ### What the agent does -/

/-- What a handler or a task does. -/
inductive Action
  /-- A log line with the slice of a stream key. -/
  | logKey (key : Text)
  /-- The log line with `&upstream[..20.min(upstream.len())]`. -/
  | logUpstream (upstream : Text)
  /-- A pull task connects. -/
  | connect (url : Text)
  /-- A pull task waits for its turn after this many failures. -/
  | backOff (attempt : ℕ)
  | addClient (admitted : Bool)
  | removeClient
  | reply (text : Text)
  | sendResponseHeader (cascadePull : Bool)
  | sendFlvHeader
  | takeStartupTags
  | sendStartupTags
  | sendLatestM3u8
  | subscribe
  | serve
  deriving DecidableEq, Repr

/-- The part of `AppState` that the handlers read: the keys of the two relay tables and the address
of the selected upstream. -/
structure AppState where
  config : Config
  flvRelays : List Text
  relays : List Text
  currentUpstreamUrl : Option Text

/-- How one turn of the pull loop of `FlvPuller::start` goes. -/
inductive PullTurn
  | stopped
  | ended
  | lost
  deriving DecidableEq, Repr

/-- The outcomes of what the handlers and the tasks wait for. -/
structure Outcomes where
  /-- The log lines are enabled. -/
  infoEnabled : Bool
  /-- The turns of the pull loop of a new FLV relay so far. -/
  pullTurns : List PullTurn
  /-- The running flag at each turn of the pull loop of a new stream relay so far. -/
  pollTurns : List Bool
  /-- The header lines of a request so far. -/
  headerLines : List Text
  admitted : Bool
  responseSent : Bool
  flvHeaderSent : Bool
  hasStartupTags : Bool
  startupSent : Bool
  /-- The newest playlist is there. -/
  hasM3u8 : Bool
  /-- The client leaves or the channel closes. -/
  leaves : Bool

variable (outcomes : Outcomes)

/-- A log line that shows the key. -/
def info (key : Text) : List Action :=
  if outcomes.infoEnabled = true then [.logKey key] else []

/-! ### The pull tasks -/

/-- The address of a turn: the backup's while it is in use and there is one. -/
def currentUrl (flvUrl : Text) (backupUrl : Option Text) (usingBackup : Bool) : Text :=
  if usingBackup = true then backupUrl.getD flvUrl else flvUrl

/-- The loop of `FlvPuller::start`, the backup in use or not, after a number of failures. -/
def pullLoop (key flvUrl : Text) (backupUrl : Option Text) :
    List PullTurn → Bool → ℕ → List Action
  | [], _, _ => []
  | .stopped :: _, _, _ => info outcomes key
  | .ended :: _, usingBackup, _ =>
    .connect (currentUrl flvUrl backupUrl usingBackup) :: (info outcomes key ++ info outcomes key)
  | .lost :: turns, usingBackup, attempt =>
    .connect (currentUrl flvUrl backupUrl usingBackup) :: .backOff (attempt + 1) ::
      pullLoop key flvUrl backupUrl turns (!usingBackup && backupUrl.isSome) (attempt + 1)

/-- The task that `FlvPuller::start` spawns. -/
def flvPullTask (key flvUrl : Text) (backupUrl : Option Text) : List Action :=
  info outcomes key ++ pullLoop outcomes key flvUrl backupUrl outcomes.pullTurns false 0

/-- The loop of `StreamRelay::start`, each turn with what it reads from the running flag. -/
def pollLoop (key url : Text) : List Bool → List Action
  | [] => []
  | false :: _ => info outcomes key
  | true :: turns => .connect url :: pollLoop key url turns

/-- The task that `StreamRelay::start` spawns. -/
def pollTask (key url : Text) : List Action :=
  info outcomes key ++ pollLoop outcomes key url outcomes.pollTurns

variable (state : AppState)

/-- `get_or_create_flv_relay`. -/
def getOrCreateFlvRelay (key : Text) : List Action :=
  if key ∈ state.flvRelays then []
  else
    (match state.currentUpstreamUrl with
      | some upstream => if outcomes.infoEnabled = true then
          [.logKey key, .logUpstream upstream] else []
      | none => []) ++
    flvPullTask outcomes key
      (match state.currentUpstreamUrl with
        | some upstream => replace placeholder key upstream
        | none => state.config.originFlvUrlOf key)
      (state.config.backupOriginUrl.map (replace placeholder key))

/-- `get_or_create_relay`. -/
def getOrCreateRelay (key : Text) : List Action :=
  if key ∈ state.relays then [] else pollTask outcomes key (state.config.originHlsUrl key)

/-! ### The handlers -/

/-- The end of a handler: the client is served until it leaves. -/
def serveUntilLeft (key : Text) : List Action :=
  [.subscribe, .serve] ++
    if outcomes.leaves = true then .removeClient :: info outcomes key else []

/-- The startup burst and the rest of a handler that sends FLV tags. -/
def serveFlv (key : Text) : List Action :=
  .takeStartupTags ::
    if outcomes.hasStartupTags = true then
      .sendStartupTags ::
        if outcomes.startupSent = true then info outcomes key ++ serveUntilLeft outcomes key
        else [.removeClient]
    else serveUntilLeft outcomes key

/-- `handle_ws_flv_mode`. -/
def handleWsFlvMode (key : Text) : List Action :=
  getOrCreateFlvRelay outcomes state key ++ .addClient outcomes.admitted ::
    if outcomes.admitted = false then [.reply "\x7b\"error\":\"max clients reached\"\x7d".toList]
    else
      info outcomes key ++ .sendFlvHeader ::
        if outcomes.flvHeaderSent = true then serveFlv outcomes key else [.removeClient]

/-- `handle_ws_encrypted_mode`. -/
def handleWsEncryptedMode (key : Text) : List Action :=
  getOrCreateRelay outcomes state key ++ .addClient outcomes.admitted ::
    if outcomes.admitted = false then [.reply "\x7b\"error\":\"max clients reached\"\x7d".toList]
    else
      info outcomes key ++ (if outcomes.hasM3u8 = true then [.sendLatestM3u8] else []) ++
        serveUntilLeft outcomes key

/-- The first message of a WebSocket. -/
inductive FirstMessage
  /-- There is none, or it is broken. -/
  | failed
  /-- It is no text or no JSON. -/
  | rejected
  /-- The two fields of the handshake, each none when it is missing or no string. -/
  | handshake (streamKey mode : Option Text)
  deriving DecidableEq, Repr

/-- `handle_websocket_connection`. -/
def handleWebsocketConnection : FirstMessage → List Action
  | .failed => []
  | .rejected => []
  | .handshake streamKey mode =>
    let key := streamKey.getD []
    if key = [] then [.reply "\x7b\"error\":\"missing stream_key\"\x7d".toList]
    else if mode.getD "encrypted".toList = "flv".toList then handleWsFlvMode outcomes state key
    else handleWsEncryptedMode outcomes state key

/-- The header loop of `handle_http_flv_connection`: whether an agent pulls, none before the blank
line. -/
def readHeaders (isCascadePull : Bool) : List Text → Option Bool
  | [] => none
  | line :: lines =>
    if line = "\r\n".toList ∨ line = "\n".toList then some isCascadePull
    else readHeaders
      (isCascadePull || "x-livecdn-agent:".toList.isPrefixOf (line.map Char.toLower)) lines

/-- `handle_http_flv_connection`. -/
def handleHttpFlvConnection (requestLine : Text) : List Action :=
  let key := parseStreamKeyFromUrl requestLine
  let isCascadeEndpoint := decide ("/cascade/".toList <:+: requestLine)
  match readHeaders isCascadeEndpoint outcomes.headerLines with
  | none => []
  | some isCascadePull =>
    if isCascadeEndpoint = true ∧ isCascadePull = false then
      [.reply "HTTP/1.1 403 Forbidden\r\nContent-Length: 18\r\n\r\nAgent token required".toList]
    else if key = [] then
      [.reply "HTTP/1.1 404 Not Found\r\nContent-Length: 9\r\n\r\nNot Found".toList]
    else
      getOrCreateFlvRelay outcomes state key ++ .addClient outcomes.admitted ::
        if outcomes.admitted = false then
          [.reply
            "HTTP/1.1 503 Service Unavailable\r\nContent-Length: 15\r\n\r\nMax clients hit".toList]
        else
          .sendResponseHeader isCascadePull ::
            if outcomes.responseSent = false then []
            else
              (if isCascadePull = true then info outcomes key else []) ++ .sendFlvHeader ::
                if outcomes.flvHeaderSent = true then serveFlv outcomes key else []

/-- A connection of a viewer, or of a downstream agent, as `handle_connection` tells them apart. -/
inductive Connection
  | websocket (first : FirstMessage)
  | http (requestLine : Text)
  deriving DecidableEq, Repr

/-- `handle_connection`, as far as it comes to a stream key. -/
def handleConnection : Connection → List Action
  | .websocket first => handleWebsocketConnection outcomes state first
  | .http requestLine =>
    if isFlvRequest requestLine = true then handleHttpFlvConnection outcomes state requestLine
    else []

/-- The stream key that a connection brings. -/
def Connection.streamKey : Connection → Option Text
  | .websocket (.handshake streamKey _) => streamKey
  | .websocket _ => none
  | .http requestLine =>
    if isFlvRequest requestLine = true then some (parseStreamKeyFromUrl requestLine) else none

/-! ### Which key is cut -/

/-- The key slices of some actions are all of one key. -/
def CutsOnly (key : Text) (actions : List Action) : Prop :=
  ∀ sliced, .logKey sliced ∈ actions → sliced = key

/-- None of the key slices of some actions panics. -/
def SlicesSafely (actions : List Action) : Prop :=
  ∀ key, .logKey key ∈ actions → (logSlice key).isSome

@[simp] theorem cutsOnly_nil (key : Text) : CutsOnly key [] :=
  fun _ hmem ↦ absurd hmem List.not_mem_nil

@[simp] theorem cutsOnly_cons {key : Text} {action : Action} {actions : List Action} :
    CutsOnly key (action :: actions) ↔
      (∀ sliced, action = .logKey sliced → sliced = key) ∧ CutsOnly key actions := by
  constructor
  · intro hcuts
    exact ⟨fun sliced haction ↦ hcuts sliced (haction ▸ List.mem_cons_self),
      fun sliced hmem ↦ hcuts sliced (List.mem_cons_of_mem _ hmem)⟩
  · rintro ⟨hfirst, hrest⟩ sliced hmem
    rcases List.mem_cons.mp hmem with haction | hmem
    · exact hfirst sliced haction.symm
    · exact hrest sliced hmem

@[simp] theorem cutsOnly_append {key : Text} {front back : List Action} :
    CutsOnly key (front ++ back) ↔ CutsOnly key front ∧ CutsOnly key back := by
  unfold CutsOnly
  simp only [List.mem_append, or_imp, forall_and]

variable {outcomes state} {key : Text}

@[simp] theorem cutsOnly_info : CutsOnly key (info outcomes key) := by
  unfold info
  by_cases henabled : outcomes.infoEnabled = true
  · rw [if_pos henabled]
    simp
  · rw [if_neg henabled]
    exact cutsOnly_nil key

/-- The pull loop of an FLV relay cuts its own key only. -/
theorem cutsOnly_pullLoop (flvUrl : Text) (backupUrl : Option Text) (turns : List PullTurn)
    (usingBackup : Bool) (attempt : ℕ) :
    CutsOnly key (pullLoop outcomes key flvUrl backupUrl turns usingBackup attempt) := by
  induction turns generalizing usingBackup attempt with
  | nil => exact cutsOnly_nil key
  | cons turn turns ih =>
    cases turn with
    | stopped => exact cutsOnly_info
    | ended => simp [pullLoop]
    | lost => simp [pullLoop, ih]

/-- The polling loop of a stream relay cuts its own key only. -/
theorem cutsOnly_pollLoop (url : Text) (turns : List Bool) :
    CutsOnly key (pollLoop outcomes key url turns) := by
  induction turns with
  | nil => exact cutsOnly_nil key
  | cons running turns ih =>
    cases running with
    | false => exact cutsOnly_info
    | true => simp [pollLoop, ih]

theorem cutsOnly_getOrCreateFlvRelay : CutsOnly key (getOrCreateFlvRelay outcomes state key) := by
  unfold getOrCreateFlvRelay flvPullTask
  by_cases hknown : key ∈ state.flvRelays
  · rw [if_pos hknown]
    exact cutsOnly_nil key
  · rw [if_neg hknown, cutsOnly_append, cutsOnly_append]
    refine ⟨?_, cutsOnly_info, cutsOnly_pullLoop _ _ _ _ _⟩
    cases state.currentUpstreamUrl with
    | none => exact cutsOnly_nil key
    | some upstream =>
      dsimp only
      split_ifs <;> simp

theorem cutsOnly_getOrCreateRelay : CutsOnly key (getOrCreateRelay outcomes state key) := by
  unfold getOrCreateRelay pollTask
  by_cases hknown : key ∈ state.relays
  · rw [if_pos hknown]
    exact cutsOnly_nil key
  · rw [if_neg hknown, cutsOnly_append]
    exact ⟨cutsOnly_info, cutsOnly_pollLoop _ _⟩

theorem cutsOnly_serveUntilLeft : CutsOnly key (serveUntilLeft outcomes key) := by
  unfold serveUntilLeft
  split_ifs <;> simp

theorem cutsOnly_serveFlv : CutsOnly key (serveFlv outcomes key) := by
  unfold serveFlv
  split_ifs <;> simp [cutsOnly_serveUntilLeft]

theorem cutsOnly_handleWsFlvMode : CutsOnly key (handleWsFlvMode outcomes state key) := by
  unfold handleWsFlvMode
  split_ifs <;> simp [cutsOnly_getOrCreateFlvRelay, cutsOnly_serveFlv]

theorem cutsOnly_handleWsEncryptedMode :
    CutsOnly key (handleWsEncryptedMode outcomes state key) := by
  unfold handleWsEncryptedMode
  split_ifs <;> simp [cutsOnly_getOrCreateRelay, cutsOnly_serveUntilLeft]

theorem cutsOnly_handleHttpFlvConnection (requestLine : Text) :
    CutsOnly (parseStreamKeyFromUrl requestLine)
      (handleHttpFlvConnection outcomes state requestLine) := by
  unfold handleHttpFlvConnection
  dsimp only
  cases readHeaders (decide ("/cascade/".toList <:+: requestLine)) outcomes.headerLines with
  | none => exact cutsOnly_nil _
  | some isCascadePull =>
    dsimp only
    split_ifs <;> simp [cutsOnly_getOrCreateFlvRelay, cutsOnly_serveFlv]

/-- A connection cuts the key it brings and no other. -/
theorem key_of_logKey_mem {conn : Connection} {sliced : Text}
    (hmem : .logKey sliced ∈ handleConnection outcomes state conn) :
    conn.streamKey = some sliced := by
  cases conn with
  | http requestLine =>
    dsimp only [handleConnection] at hmem
    dsimp only [Connection.streamKey]
    by_cases hflv : isFlvRequest requestLine = true
    · rw [if_pos hflv] at hmem ⊢
      exact congrArg some (cutsOnly_handleHttpFlvConnection requestLine sliced hmem).symm
    · rw [if_neg hflv] at hmem
      exact absurd hmem List.not_mem_nil
  | websocket first =>
    cases first with
    | failed => exact absurd hmem List.not_mem_nil
    | rejected => exact absurd hmem List.not_mem_nil
    | handshake streamKey mode =>
      cases streamKey with
      | none =>
        have hreply : .logKey sliced ∈
          [Action.reply "\x7b\"error\":\"missing stream_key\"\x7d".toList] := hmem
        simp at hreply
      | some key =>
        have honly : CutsOnly key
            (handleConnection outcomes state (.websocket (.handshake (some key) mode))) := by
          unfold handleConnection handleWebsocketConnection
          dsimp only [Option.getD_some]
          split_ifs <;> simp [cutsOnly_handleWsFlvMode, cutsOnly_handleWsEncryptedMode]
        exact congrArg some (honly sliced hmem).symm

/-! ### When the slices are safe -/

/-- The slice of a key exists exactly when its first eight bytes are all of it or end with a
character. -/
theorem logSlice_isSome_iff {key : Text} :
    (logSlice key).isSome ↔ byteLen key ≤ 8 ∨ ∃ count, byteLen (key.take count) = 8 := by
  unfold logSlice
  rw [sliceTo_isSome]
  exact isCharBoundary_min_iff

/-- An agent that relays nothing yet and pulls from its origin. -/
def idleState : AppState := ⟨⟨[], none, none, none⟩, [], [], none⟩

/-- A connection whose request ends with its first header line, with the log lines enabled. -/
def plainOutcomes : Outcomes where
  infoEnabled := true
  pullTurns := []
  pollTurns := []
  headerLines := ["\r\n".toList]
  admitted := true
  responseSent := true
  flvHeaderSent := true
  hasStartupTags := true
  startupSent := true
  hasM3u8 := true
  leaves := true

/-- A new FLV relay logs its key. -/
theorem logKey_mem_getOrCreateFlvRelay (key : Text) :
    .logKey key ∈ getOrCreateFlvRelay plainOutcomes idleState key :=
  List.mem_append_right _ List.mem_cons_self

/-- A new stream relay logs its key. -/
theorem logKey_mem_getOrCreateRelay (key : Text) :
    .logKey key ∈ getOrCreateRelay plainOutcomes idleState key :=
  List.mem_cons_self

/-- A connection to an idle agent with a key that is not empty logs the key. -/
theorem logKey_mem_handleConnection {conn : Connection} {key : Text}
    (hkey : conn.streamKey = some key) (hne : key ≠ []) :
    .logKey key ∈ handleConnection plainOutcomes idleState conn := by
  cases conn with
  | http requestLine =>
    dsimp only [Connection.streamKey] at hkey
    dsimp only [handleConnection]
    by_cases hflv : isFlvRequest requestLine = true
    · rw [if_pos hflv] at hkey ⊢
      obtain rfl := Option.some.inj hkey
      have hheaders : ∀ flag, readHeaders flag plainOutcomes.headerLines = some flag := by
        intro flag
        exact if_pos (Or.inl rfl)
      have hpull : ∀ flag : Bool, ¬ (flag = true ∧ flag = false) := by
        rintro flag ⟨rfl, hfalse⟩
        exact nomatch hfalse
      unfold handleHttpFlvConnection
      dsimp only
      rw [hheaders]
      dsimp only
      rw [if_neg (hpull _), if_neg hne]
      exact List.mem_append_left _ (logKey_mem_getOrCreateFlvRelay _)
    · rw [if_neg hflv] at hkey
      exact nomatch hkey
  | websocket first =>
    cases first with
    | failed => exact nomatch hkey
    | rejected => exact nomatch hkey
    | handshake streamKey mode =>
      obtain rfl : streamKey = some key := hkey
      dsimp only [handleConnection, handleWebsocketConnection, Option.getD_some]
      rw [if_neg hne]
      by_cases hmode : mode.getD "encrypted".toList = "flv".toList
      · rw [if_pos hmode]
        exact List.mem_append_left _ (logKey_mem_getOrCreateFlvRelay key)
      · rw [if_neg hmode]
        exact List.mem_append_left _ (logKey_mem_getOrCreateRelay key)

/-- No log slice of a connection panics, whatever the outcomes and the state of the agent, exactly
when the key it brings has at most eight bytes or some of its first characters fill eight bytes. -/
theorem logSlices_safe_iff (conn : Connection) :
    (∀ outcomes state, SlicesSafely (handleConnection outcomes state conn)) ↔
      ∀ key, conn.streamKey = some key →
        byteLen key ≤ 8 ∨ ∃ count, byteLen (key.take count) = 8 := by
  constructor
  · intro hsafe key hkey
    by_cases hempty : key = []
    · exact Or.inl (by rw [hempty]; exact Nat.zero_le 8)
    · exact logSlice_isSome_iff.mp
        (hsafe plainOutcomes idleState key (logKey_mem_handleConnection hkey hempty))
  · intro hkeys outcomes state key hmem
    exact logSlice_isSome_iff.mpr (hkeys key (key_of_logKey_mem hmem))

/-- A key of four characters of three bytes each. -/
def wideKey : Text := "中文字符".toList

/-- The slice of the wide key would cut its third character. -/
theorem not_slicesSafely_of_wideKey {conn : Connection} (hkey : conn.streamKey = some wideKey) :
    ¬ SlicesSafely (handleConnection plainOutcomes idleState conn) := by
  intro hsafe
  have hsome := hsafe wideKey (logKey_mem_handleConnection hkey (by decide))
  exact absurd hsome (by decide)

/-- The wide key makes a slice panic on the way of a WebSocket in both modes and of an HTTP-FLV
request to both endpoints. -/
theorem logSlices_counterexample :
    ¬ SlicesSafely (handleConnection plainOutcomes idleState
        (.websocket (.handshake (some wideKey) (some "flv".toList)))) ∧
      ¬ SlicesSafely (handleConnection plainOutcomes idleState
        (.websocket (.handshake (some wideKey) none))) ∧
      ¬ SlicesSafely (handleConnection plainOutcomes idleState
        (.http "GET /live/中文字符.flv HTTP/1.1\r\n".toList)) ∧
      ¬ SlicesSafely (handleConnection plainOutcomes idleState
        (.http "GET /cascade/中文字符.flv HTTP/1.1\r\n".toList)) :=
  ⟨not_slicesSafely_of_wideKey rfl, not_slicesSafely_of_wideKey rfl,
    not_slicesSafely_of_wideKey (by decide +kernel),
    not_slicesSafely_of_wideKey (by decide +kernel)⟩

end LiveCDN.Agent.ViewerConnection
