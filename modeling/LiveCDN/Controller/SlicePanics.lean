import LiveCDN.Controller.RotationFrame
import LiveCDN.Controller.ServerRun

/-!
# Slices of eight bytes

The log lines of `controller/server.go`, `controller/keyrotate.go` and
`controller/latency_controller.go` cut the first eight bytes from tokens, stream keys and session
ids. This is the server with all of them: a key rotation is the loop of `RotationFrame`, which a
short key ends with a panic. The server recovers from a panic in a request, and the process ends
with one in the background.

`sliced` has the strings that a step cuts. Every handler keeps the ids of sessions long, and panics
exactly when one of the strings it cuts is short (`handled_serve`), and so does every step
(`panics_iff`).

Scope. Requests and background tasks are atomic and come in any order. The slices behind one that
panics are not evaluated; `sliced` has them all the same.
-/

set_option autoImplicit false
set_option relaxedAutoImplicit false

namespace LiveCDN.Controller.SlicePanics

open Library.KeyedTable Library.GuardedRun NodeStore StreamStore Persistence Dispatch KeyRotation
  LatencyControl HttpServer Handlers AdminHandlers RotationFrame

/-! ### Rotations that panic -/

/-- Whether the log line of a stream that is due panics on the rest of the walk. -/
def rotatePanics (outcome : RotationOutcome) : List StreamInfo → Bool
  | [] => false
  | stream :: streams =>
    if outcome.now stream.streamKey - stream.createdAt < keyRotationInterval then
      rotatePanics outcome streams
    else slicePanics stream.streamKey || rotatePanics outcome streams

/-- The live streams, in the order in which a rotation visits them. -/
def visited (outcome : RotationOutcome) (table : Table StreamInfo.streamKey) : List StreamInfo :=
  (outcome.visit (List.range (liveStreams table).length)).filterMap fun i ↦ (liveStreams table)[i]?

/-- `RotateAllLiveStreams`: the server after it, and whether it panics. -/
def rotateAllLiveStreams (server : Server) (outcome : RotationOutcome) : Server × Bool :=
  let streams := visited outcome server.streams
  ({ server with streams := rotateLoop outcome server.streams streams },
    rotatePanics outcome streams)

/-- `handleTriggerKeyRotation`. -/
def handleTriggerKeyRotation (server : Server) (chance : Chance) : Server × Reply :=
  let rotated := rotateAllLiveStreams server chance.rotation
  (rotated.1, if rotated.2 then .recovered else .ok (.status "rotation triggered"))

/-! ### Runs -/

/-- The server of a running process. A process that has ended takes no more steps. -/
structure State where
  server : Server
  ended : Bool

/-- A new server with what it has restored from disk. -/
def State.restored (cfg : Config) (mem : Memory) : State where
  server := { (newServer cfg).withStore mem.nodeStore with
    streams := mem.streams
    tokens := mem.tokens }
  ended := false

/-- The handler of an admin route. -/
def handleAdminRoute (server : Server) (chance : Chance) : AdminRoute → Server × Reply
  | .triggerKeyRotation => handleTriggerKeyRotation server chance
  | route => handleAdmin server chance route

/-- The routes of `setupRoutes`. -/
def serve (services : Services) (server : Server) (chance : Chance) (request : Request) :
    Server × Reply :=
  match request.route with
  | .admin route =>
    if authAdmin server.cfg request then handleAdminRoute server chance route
    else (server, .error 401 "unauthorized")
  | _ => ServerRun.serve services server chance request

/-- One step. -/
def step (services : Services) (st : State) (action : ServerRun.Action) : State :=
  if st.ended then st
  else
    match action with
    | .request request chance => { st with server := (serve services st.server chance request).1 }
    | .cleanup now => { st with server := ServerRun.cleanup st.server now }
    | .cleanupSticky now => { st with server := ServerRun.cleanupSticky st.server now }
    | .rotateKeys outcome =>
      let rotated := rotateAllLiveStreams st.server outcome
      ⟨rotated.1, rotated.2⟩
    | .tickLatency now =>
      match checkAndAdjust st.server.latencyCtrl now with
      | some sessions => { st with server := { st.server with latencyCtrl := sessions } }
      | none => { st with ended := true }

/-- The step panics: the server recovers from it, or the process ends with it. -/
def Panics (services : Services) (st : State) (action : ServerRun.Action) : Prop :=
  match action with
  | .request request chance => (serve services st.server chance request).2 = .recovered
  | action => (step services st action).ended = true

/-! ### What is sliced -/

/-- A string is long enough for the slice. -/
def Long (text : String) : Prop := 8 ≤ text.utf8ByteSize

/-- In a rotation: the keys of the live streams that are due. -/
def slicedByRotation (outcome : RotationOutcome) (table : Table StreamInfo.streamKey) :
    List String :=
  ((visited outcome table).filter fun stream ↦
    !decide (outcome.now stream.streamKey - stream.createdAt < keyRotationInterval)).map
      StreamInfo.streamKey

/-- In `handleDispatch`: the token where it is rejected; behind the gates the session id and the
stream key, or the stream key alone where the scheduler finds no node. -/
def slicedByDispatch (server : Server) (services : Services) (chance : Chance)
    (body : Option DispatchRequest) : List String :=
  match shouldBindJSON (fun req ↦ isGiven req.streamKey && isGiven req.token) body with
  | none => []
  | some req =>
    if server.mem.validateToken req.token ≠ some req.streamKey then [req.token]
    else
      match getStream server.streams req.streamKey with
      | none => []
      | some stream =>
        if stream.isLive = false then []
        else if isCapacityFull server.scheduler.store chance.now then []
        else
          match (server.scheduler.dispatch services.lookup chance.outcome chance.now req.clientIP ""
            "").1 with
          | .error _ => [req.streamKey]
          | .ok _ => [chance.sessionID, req.streamKey]

/-- In `handleQualityReport`: the session id where the mode of the session is lowered. -/
def slicedByReport (server : Server) (chance : Chance) (body : Option QualityReport) :
    List String :=
  match body with
  | none => []
  | some report =>
    if report.sessionID = "" then []
    else if (server.touchSession chance.now report.sessionID).2 = false then []
    else
      let state := sessionState server.latencyCtrl report.sessionID
      if state.override then []
      else if report.stallRate > 1 / 20 then
        if downgradeDue state chance.now chance.later then [report.sessionID] else []
      else []

/-- Where a stream is started: its key. -/
def slicedByStart (server : Server) (chance : Chance) : List String :=
  match normalizeCipherSuite server.cfg.cipherSuite with
  | .error _ => []
  | .ok suite => if (chance.key suite).isSome then [chance.streamKey] else []

/-- In `handleStreamStart`. -/
def slicedByStreamStart (server : Server) (chance : Chance) (body : Option StreamStartRequest) :
    List String :=
  match shouldBindJSON streamStartRequired body with
  | none => []
  | some req =>
    if req.accessToken ≠ server.cfg.adminToken then [] else slicedByStart server chance

/-- In `handleStreamStop`: the key in the query. -/
def slicedByStreamStop (server : Server) (request : Request) : List String :=
  if request.query "access_token" ≠ server.cfg.adminToken then []
  else [request.query "stream_key"]

/-- In `handleAdminStreamStart`. -/
def slicedByAdminStreamStart (server : Server) (chance : Chance)
    (body : Option StreamStartRequest) : List String :=
  match shouldBindJSON streamStartRequired body with
  | none => []
  | some _ => slicedByStart server chance

/-- In `handleAdminStreamStop`: the key in the body. -/
def slicedByAdminStreamStop (body : Option String) : List String :=
  (shouldBindJSON isGiven body).toList

/-- In `handleSetLatencyMode`: the key of the stream whose mode is set. -/
def slicedBySetLatencyMode (server : Server) (streamKey : String) (body : Option String) :
    List String :=
  match shouldBindJSON isGiven body with
  | none => []
  | some mode =>
    if mode ≠ latencyUltra ∧ mode ≠ latencyStandard ∧ mode ≠ latencyResilient then []
    else
      match getStream server.streams streamKey with
      | none => []
      | some stream => if stream.isLive = false then [] else [streamKey]

/-- In the admin handlers. -/
def slicedByAdmin (server : Server) (chance : Chance) : AdminRoute → List String
  | .streamStart body => slicedByAdminStreamStart server chance body
  | .streamStop body => slicedByAdminStreamStop body
  | .triggerKeyRotation => slicedByRotation chance.rotation server.streams
  | .setLatencyMode key body => slicedBySetLatencyMode server key body
  | _ => []

/-- In a request. -/
def slicedByRequest (services : Services) (server : Server) (chance : Chance) (request : Request) :
    List String :=
  match request.route with
  | .dispatch body => slicedByDispatch server services chance body
  | .qualityReport body => slicedByReport server chance body
  | .streamStart body => slicedByStreamStart server chance body
  | .streamStop => slicedByStreamStop server request
  | .admin route =>
    if authAdmin server.cfg request then slicedByAdmin server chance route else []
  | _ => []

/-- The strings that the log lines of a step cut eight bytes from. -/
def sliced (services : Services) (st : State) : ServerRun.Action → List String
  | .request request chance => slicedByRequest services st.server chance request
  | .rotateKeys outcome => slicedByRotation outcome st.server.streams
  | .tickLatency now =>
    (st.server.latencyCtrl.rows.filter (upgradeDue now)).map DegradeState.sessionID
  | _ => []

/-! ### Rotations -/

theorem slicePanics_iff {text : String} : slicePanics text = true ↔ ¬Long text := by
  rw [slicePanics, decide_eq_true_eq, Long, not_le]

/-- A rotation visits every live stream once. -/
theorem visited_perm (outcome : RotationOutcome) (table : Table StreamInfo.streamKey) :
    (visited outcome table).Perm (liveStreams table) := by
  have hperm := (outcome.visit_perm (List.range (liveStreams table).length)).filterMap
    fun i ↦ (liveStreams table)[i]?
  have hall : (List.range (liveStreams table).length).filterMap
      (fun i ↦ (liveStreams table)[i]?) = liveStreams table := by
    have hget : (fun i ↦ (liveStreams table)[i]?) ∘ Fin.val = some ∘ (liveStreams table).get :=
      funext fun i ↦ List.getElem?_eq_getElem i.isLt
    rw [← List.map_coe_finRange_eq_range, List.filterMap_map, hget, List.filterMap_eq_map,
      List.map_get_finRange]
  rwa [hall] at hperm

/-- The streams whose keys a rotation cuts are the live ones that are due. -/
theorem mem_slicedByRotation {outcome : RotationOutcome} {table : Table StreamInfo.streamKey}
    {text : String} : text ∈ slicedByRotation outcome table ↔
      ∃ stream ∈ table.rows, IsDue outcome stream ∧ stream.streamKey = text := by
  simp only [slicedByRotation, List.mem_map, List.mem_filter, (visited_perm outcome table).mem_iff,
    liveStreams, IsDue, Bool.not_eq_true', decide_eq_false_iff_not, not_lt, and_assoc]

/-- A walk panics exactly when the key of a stream that is due is short. -/
theorem rotatePanics_iff {outcome : RotationOutcome} {streams : List StreamInfo} :
    rotatePanics outcome streams = true ↔ ∃ text ∈ (streams.filter fun stream ↦
      !decide (outcome.now stream.streamKey - stream.createdAt < keyRotationInterval)).map
        StreamInfo.streamKey, ¬Long text := by
  induction streams with
  | nil => simp [rotatePanics]
  | cons stream streams ih =>
    rw [rotatePanics]
    split_ifs with hyoung
    · rw [ih, List.filter_cons_of_neg (by simp [hyoung])]
    · rw [Bool.or_eq_true, slicePanics_iff, ih, List.filter_cons_of_pos (by simp [hyoung]),
        List.map_cons, List.exists_mem_cons_iff]

/-! ### Requests -/

/-- The ids of the sessions are long, in the store and in the latency controller. -/
structure Generated (server : Server) : Prop where
  sessions : ∀ session ∈ server.sessions.rows, Long session.sessionID
  latencyCtrl : ∀ state ∈ server.latencyCtrl.rows, Long state.sessionID

/-- The keys of the stored streams are long. -/
def LongKeys (server : Server) : Prop := ∀ stream ∈ server.streams.rows, Long stream.streamKey

/-- A handler keeps the ids of sessions and the keys of streams long, and panics exactly when one of
the strings it cuts is short. -/
structure Handled (server : Server) (texts : List String) (served : Server × Reply) : Prop where
  generated : Generated server → Generated served.1
  keys : LongKeys server → LongKeys served.1
  recovered_iff : served.2 = .recovered ↔ ∃ text ∈ texts, ¬Long text

variable {server : Server}

theorem Generated.of_same {after : Server} (hserver : Generated server)
    (hsessions : after.sessions = server.sessions)
    (hlatency : after.latencyCtrl = server.latencyCtrl) : Generated after :=
  ⟨hsessions ▸ hserver.sessions, hlatency ▸ hserver.latencyCtrl⟩

theorem LongKeys.of_same {after : Server} (hserver : LongKeys server)
    (hstreams : after.streams = server.streams) : LongKeys after := by
  rw [LongKeys, hstreams]
  exact hserver

/-- A stream with a long key is stored. -/
theorem LongKeys.put {after : Server} (hserver : LongKeys server) {info : StreamInfo}
    (hstreams : after.streams = server.streams.put info) (hlong : Long info.streamKey) :
    LongKeys after := by
  rw [LongKeys, hstreams]
  exact Table.forall_put hserver hlong

/-- The key of a stored stream is long. -/
theorem LongKeys.of_found (hserver : LongKeys server) {key : String} {info : StreamInfo}
    (hfound : server.streams.find? key = some info) : Long info.streamKey :=
  hserver info (Table.find?_eq_some_iff.mp hfound).1

/-- The key of a live stream is that of a stored one. -/
theorem LongKeys.of_live (hkeys : LongKeys server) {key : String}
    (hlive : (getStream server.streams key).any StreamInfo.isLive = true) : Long key := by
  cases hfound : getStream server.streams key with
  | none =>
    rw [hfound] at hlive
    cases hlive
  | some stream => exact Table.key_of_find? hfound ▸ hkeys.of_found hfound

/-- A handler that touches neither sessions nor streams and cuts no strings. -/
theorem handled_of_calm {served : Server × Reply} (hsessions : served.1.sessions = server.sessions)
    (hlatency : served.1.latencyCtrl = server.latencyCtrl)
    (hstreams : served.1.streams = server.streams) (hreply : served.2 ≠ .recovered) :
    Handled server [] served where
  generated hserver := hserver.of_same hsessions hlatency
  keys hserver := hserver.of_same hstreams
  recovered_iff := by simp [hreply]

/-- A handler that only replies. -/
theorem handled_of_reply {reply : Reply} (hreply : reply ≠ .recovered) :
    Handled server [] (server, reply) :=
  handled_of_calm rfl rfl rfl hreply

theorem handled_error (status : ℕ) (message : String) :
    Handled server [] (server, .error status message) :=
  handled_of_reply (by simp)

theorem handled_badRequest : Handled server [] (server, .badRequest) := handled_of_reply (by simp)

theorem handled_handleRegister (chance : Chance) (body : Option Registration) :
    Handled server [] (handleRegister server chance body) := by
  unfold handleRegister
  split
  · exact handled_badRequest
  · split_ifs
    · exact handled_error 403 _
    · exact handled_of_calm rfl rfl rfl (by simp)

theorem handled_handleHeartbeat (chance : Chance) (request : Request)
    (body : Option HeartbeatRequest) :
    Handled server [] (handleHeartbeat server chance request body) := by
  unfold handleHeartbeat
  split_ifs
  · exact handled_error 403 _
  · split
    · exact handled_badRequest
    · split
      · exact handled_error 404 _
      · exact handled_of_calm rfl rfl rfl (by simp)

theorem handled_handleOnPublish (body : Option String) :
    Handled server [] (server, handleOnPublish server body) := by
  refine handled_of_reply ?_
  unfold handleOnPublish
  split
  · simp
  · split
    · simp
    · split_ifs <;> simp

theorem handled_handleAgentGetStream (request : Request) (streamKey : String) :
    Handled server [] (server, handleAgentGetStream server request streamKey) := by
  refine handled_of_reply ?_
  unfold handleAgentGetStream
  split_ifs
  · simp
  · split
    · simp
    · split_ifs <;> simp

theorem handled_handleGetKey (services : Services) (chance : Chance) (request : Request) :
    Handled server [] (server, handleGetKey server services chance request) := by
  refine handled_of_reply ?_
  unfold handleGetKey
  dsimp only
  split_ifs
  · simp
  · split
    · next refusal hrefusal =>
      unfold checkSignature at hrefusal
      split_ifs at hrefusal
      · obtain rfl := Option.some.inj hrefusal
        simp
      · split at hrefusal
        · split_ifs at hrefusal
          obtain rfl := Option.some.inj hrefusal
          simp
        · cases hrefusal
    · split
      · simp
      · split_ifs
        · simp
        · split <;> simp

/-- The end of a session takes its id away. -/
theorem handled_handleEndSession (body : Option String) :
    Handled server [] (handleEndSession server body) := by
  unfold handleEndSession
  split
  · exact handled_badRequest
  · refine ⟨fun hserver ↦ ⟨fun session hsession ↦ ?_, hserver.latencyCtrl⟩,
      fun hserver ↦ hserver.of_same rfl, by simp⟩
    exact hserver.sessions session (List.mem_filter.mp hsession).1

/-- A reply behind one slice. -/
theorem handled_of_slice {after : Server} {text : String} {reply : Reply}
    (hgenerated : Generated server → Generated after) (hkeys : LongKeys server → LongKeys after)
    (hreply : reply ≠ .recovered) :
    Handled server [text]
      (if slicePanics text then (after, .recovered) else (after, reply)) := by
  refine ⟨fun hserver ↦ ?_, fun hserver ↦ ?_, ?_⟩
  · split_ifs
    · exact hgenerated hserver
    · exact hgenerated hserver
  · split_ifs
    · exact hkeys hserver
    · exact hkeys hserver
  · simp only [List.mem_singleton, exists_eq_left, ← slicePanics_iff]
    split_ifs with hshort
    · exact iff_of_true rfl hshort
    · exact iff_of_false hreply hshort

/-- A string that is long before the others does not panic. -/
theorem Handled.cons {texts : List String} {served : Server × Reply} {first : String}
    (hfirst : Long first) (hhandled : Handled server texts served) :
    Handled server (first :: texts) served where
  generated := hhandled.generated
  keys := hhandled.keys
  recovered_iff := by
    rw [List.exists_mem_cons_iff, or_iff_right (not_not.mpr hfirst), hhandled.recovered_iff]

theorem handled_stopStream (streamKey : String) :
    Handled server [streamKey] (stopStream server streamKey) := by
  refine handled_of_slice (fun hserver ↦ hserver.of_same rfl rfl) (fun hserver ↦ ?_) (by simp)
  cases hfound : server.streams.find? streamKey with
  | none => exact hserver.of_same (by simp [endStream, hfound])
  | some info =>
    have hlong := hserver.of_found hfound
    have hended : endStream server.streams streamKey =
        server.streams.put { info with isLive := false } := by
      rw [endStream, hfound]
    exact hserver.put hended hlong

/-- A generated stream key is long. -/
theorem long_streamKey (chance : Chance) : Long chance.streamKey := by
  rw [Long, chance.streamKey_size]
  decide

/-- A generated session id is long. -/
theorem long_sessionID (chance : Chance) : Long chance.sessionID := by
  rw [Long, chance.sessionID_size]
  decide

theorem handled_startStream (chance : Chance) (req : StreamStartRequest) :
    Handled server (slicedByStart server chance) (startStream server chance req) := by
  unfold startStream slicedByStart
  cases normalizeCipherSuite server.cfg.cipherSuite with
  | error message => exact handled_error 500 message
  | ok suite =>
    dsimp only
    cases chance.key suite with
    | none => exact handled_error 500 _
    | some key =>
      have hkey : Long chance.streamKey := long_streamKey chance
      refine ⟨fun hserver ↦ hserver.of_same rfl rfl, fun hserver ↦ hserver.put rfl hkey,
        iff_of_false (by simp) ?_⟩
      simpa using hkey

theorem handled_handleStreamStart (chance : Chance) (body : Option StreamStartRequest) :
    Handled server (slicedByStreamStart server chance body)
      (handleStreamStart server chance body) := by
  unfold handleStreamStart slicedByStreamStart
  cases shouldBindJSON streamStartRequired body with
  | none => exact handled_badRequest
  | some req =>
    dsimp only
    by_cases htoken : req.accessToken ≠ server.cfg.adminToken
    · rw [if_pos htoken, if_pos htoken]
      exact handled_error 403 _
    · rw [if_neg htoken, if_neg htoken]
      exact handled_startStream chance req

theorem handled_handleStreamStop (request : Request) :
    Handled server (slicedByStreamStop server request) (handleStreamStop server request) := by
  unfold handleStreamStop slicedByStreamStop
  dsimp only
  by_cases htoken : request.query "access_token" ≠ server.cfg.adminToken
  · rw [if_pos htoken, if_pos htoken]
    exact handled_error 403 _
  · rw [if_neg htoken, if_neg htoken]
    exact handled_stopStream _

/-- A session with a long id is stored. -/
theorem Generated.put_session (hserver : Generated server) {after : Server} {info : SessionInfo}
    (hsessions : after.sessions = server.sessions.put info)
    (hlatency : after.latencyCtrl = server.latencyCtrl) (hlong : Long info.sessionID) :
    Generated after := by
  refine ⟨?_, hlatency ▸ hserver.latencyCtrl⟩
  rw [hsessions]
  exact Table.forall_put hserver.sessions hlong

/-- A session with a long id is stored in the latency controller. -/
theorem Generated.put_state (hserver : Generated server) {after : Server} {state : DegradeState}
    (hsessions : after.sessions = server.sessions)
    (hlatency : after.latencyCtrl = server.latencyCtrl.put state) (hlong : Long state.sessionID) :
    Generated after := by
  refine ⟨hsessions ▸ hserver.sessions, ?_⟩
  rw [hlatency]
  exact Table.forall_put hserver.latencyCtrl hlong

theorem handled_handleDispatch (services : Services) (chance : Chance)
    (body : Option DispatchRequest) :
    Handled server (slicedByDispatch server services chance body)
      (handleDispatch server services chance body) := by
  have hid : Long chance.sessionID := long_sessionID chance
  unfold handleDispatch slicedByDispatch
  cases shouldBindJSON (fun req ↦ isGiven req.streamKey && isGiven req.token) body with
  | none => exact handled_badRequest
  | some req =>
    dsimp only
    by_cases hvalid : server.mem.validateToken req.token ≠ some req.streamKey
    · rw [if_pos hvalid, if_pos hvalid]
      exact handled_of_slice id id (by simp)
    · rw [if_neg hvalid, if_neg hvalid]
      cases getStream server.streams req.streamKey with
      | none => exact handled_error 404 _
      | some stream =>
        dsimp only
        by_cases hlive : stream.isLive = false
        · rw [if_pos hlive, if_pos hlive]
          exact handled_error 404 _
        · rw [if_neg hlive, if_neg hlive]
          by_cases hfull : isCapacityFull server.scheduler.store chance.now = true
          · rw [if_pos hfull, if_pos hfull]
            exact handled_error 503 _
          · rw [if_neg hfull, if_neg hfull, dispatchStream]
            dsimp only
            cases (server.scheduler.dispatch services.lookup chance.outcome chance.now
              req.clientIP "" "").1 with
            | error err =>
              exact handled_of_slice (fun hserver ↦ hserver.of_same rfl rfl)
                (fun hserver ↦ hserver.of_same rfl) (by simp)
            | ok nodes =>
              refine Handled.cons hid (handled_of_slice (fun hserver ↦ ?_)
                (fun hserver ↦ hserver.of_same rfl) (by simp))
              exact hserver.put_session rfl rfl hid

/-- A session that is touched keeps its id. -/
theorem Generated.touchSession (hserver : Generated server) (now : ℕ) (id : String) :
    Generated (server.touchSession now id).1 := by
  unfold Server.touchSession
  split
  · exact hserver
  · next session hfound =>
    exact hserver.put_session rfl rfl
      (hserver.sessions session (Table.find?_eq_some_iff.mp hfound).1)

theorem streams_touchSession (now : ℕ) (id : String) :
    (server.touchSession now id).1.streams = server.streams := by
  unfold Server.touchSession
  split <;> rfl

/-- A session of the store has a long id. -/
theorem long_of_touched (hserver : Generated server) {now : ℕ} {id : String}
    (htouched : (server.touchSession now id).2 ≠ false) : Long id := by
  rw [Server.touchSession_snd, ne_eq, Bool.not_eq_false, Option.isSome_iff_exists] at htouched
  obtain ⟨session, hfound⟩ := htouched
  obtain ⟨hmem, rfl⟩ := Table.find?_eq_some_iff.mp hfound
  exact hserver.sessions session hmem

/-- A report panics exactly when it lowers the mode of a session whose id is short. -/
theorem processQualityReport_eq_none_iff {sessions : Sessions} {sessionID : String} {stallRate : ℚ}
    {now later : ℕ} :
    (processQualityReport sessions sessionID stallRate now later).2 = none ↔
      (sessionState sessions sessionID).override = false ∧ stallRate > 1 / 20 ∧
        downgradeDue (sessionState sessions sessionID) now later = true ∧ ¬Long sessionID := by
  rw [← slicePanics_iff]
  unfold processQualityReport
  dsimp only
  split_ifs <;> simp_all

/-- A report touches a session of the store, so a session that it makes in the latency controller
has a generated id, and its slice is in range. Assumes: the ids of the sessions are long. -/
theorem handled_handleQualityReport (hserver : Generated server) (chance : Chance)
    (body : Option QualityReport) :
    Handled server (slicedByReport server chance body)
      (handleQualityReport server chance body) := by
  unfold handleQualityReport slicedByReport
  cases body with
  | none => exact handled_badRequest
  | some report =>
    dsimp only
    by_cases hempty : report.sessionID = ""
    · rw [if_pos hempty, if_pos hempty]
      exact handled_error 400 _
    · rw [if_neg hempty, if_neg hempty]
      by_cases htouched : (server.touchSession chance.now report.sessionID).2 = false
      · rw [if_pos htouched, if_pos htouched]
        exact ⟨fun _ ↦ hserver.touchSession _ _,
          fun hkeys ↦ hkeys.of_same (streams_touchSession _ _), by simp⟩
      · rw [if_neg htouched, if_neg htouched]
        have hlong : Long report.sessionID := long_of_touched hserver htouched
        have htouch := hserver.touchSession chance.now report.sessionID
        have hstreams : (server.touchSession chance.now report.sessionID).1.streams =
            server.streams := streams_touchSession _ _
        generalize (server.touchSession chance.now report.sessionID).1 = touched
          at htouch hstreams ⊢
        obtain ⟨state, hid, hput⟩ := exists_put_processQualityReport touched.latencyCtrl
          report.sessionID report.stallRate chance.now chance.later
        have hgenerated : ∀ scheduler, Generated { touched with
            scheduler := scheduler
            latencyCtrl := (processQualityReport touched.latencyCtrl report.sessionID
              report.stallRate chance.now chance.later).1 } :=
          fun scheduler ↦ htouch.put_state rfl hput (hid ▸ hlong)
        have hcalm : (processQualityReport touched.latencyCtrl report.sessionID report.stallRate
            chance.now chance.later).2 ≠ none :=
          fun hnone ↦ (processQualityReport_eq_none_iff.mp hnone).2.2.2 hlong
        refine ⟨fun _ ↦ ?_, fun hkeys ↦ ?_, iff_of_false ?_ ?_⟩
        · split
          · exact hgenerated _
          · exact hgenerated _
        · split
          · exact hkeys.of_same hstreams
          · exact hkeys.of_same hstreams
        · split
          · contradiction
          · simp
        · split_ifs <;> simp [hlong]

/-! ### Admin requests -/

theorem handled_handleSetLatencyMode (streamKey : String) (body : Option String) :
    Handled server (slicedBySetLatencyMode server streamKey body)
      (handleSetLatencyMode server streamKey body) := by
  unfold handleSetLatencyMode slicedBySetLatencyMode
  cases shouldBindJSON isGiven body with
  | none => exact handled_badRequest
  | some mode =>
    dsimp only
    by_cases hmode : mode ≠ latencyUltra ∧ mode ≠ latencyStandard ∧ mode ≠ latencyResilient
    · rw [if_pos hmode, if_pos hmode]
      exact handled_error 400 _
    · rw [if_neg hmode, if_neg hmode]
      cases hfound : getStream server.streams streamKey with
      | none => exact handled_error 404 _
      | some stream =>
        dsimp only
        by_cases hlive : stream.isLive = false
        · rw [if_pos hlive, if_pos hlive]
          exact handled_error 400 _
        · rw [if_neg hlive, if_neg hlive]
          refine handled_of_slice (fun hserver ↦ hserver.of_same rfl rfl) (fun hserver ↦ ?_)
            (by simp)
          have hlong := hserver.of_found hfound
          exact hserver.put rfl hlong

/-- A rotation stores streams under the keys of those that it visits. -/
theorem LongKeys.rotate (hserver : LongKeys server) (outcome : RotationOutcome) :
    LongKeys (rotateAllLiveStreams server outcome).1 := by
  intro stream hstream
  have hafter := Table.mem_rows_iff_find?.mp hstream
  rcases find?_rotateLoop_cases server.streams (visited outcome server.streams) stream.streamKey
    with hsame | ⟨old, hold, hkey, -, -⟩
  · exact hserver.of_found (hsame.symm.trans hafter)
  · rw [(visited_perm outcome server.streams).mem_iff] at hold
    exact hkey ▸ hserver old (List.mem_filter.mp hold).1

theorem handled_handleTriggerKeyRotation (chance : Chance) :
    Handled server (slicedByRotation chance.rotation server.streams)
      (handleTriggerKeyRotation server chance) where
  generated hserver := hserver.of_same rfl rfl
  keys hserver := hserver.rotate chance.rotation
  recovered_iff := by
    unfold handleTriggerKeyRotation rotateAllLiveStreams
    dsimp only
    refine Iff.trans ?_ rotatePanics_iff
    split_ifs with hpanics
    · exact iff_of_true rfl hpanics
    · exact iff_of_false (by simp) hpanics

theorem handled_handleRemoveNode (nodeID : String) :
    Handled server [] (handleRemoveNode server nodeID) := by
  unfold handleRemoveNode
  dsimp only
  split_ifs
  · exact handled_of_calm rfl rfl rfl (by simp)
  · exact handled_error 404 _

theorem handled_handleSetNodeStatus (nodeID : String) (body : Option String) :
    Handled server [] (handleSetNodeStatus server nodeID body) := by
  unfold handleSetNodeStatus
  split
  · exact handled_badRequest
  · split
    · exact handled_error 400 _
    · dsimp only
      split_ifs
      · exact handled_of_calm rfl rfl rfl (by simp)
      · exact handled_error 404 _

theorem handled_handleApproveNode (nodeID : String) :
    Handled server [] (AdminHandlers.handleApproveNode server nodeID) := by
  unfold AdminHandlers.handleApproveNode
  dsimp only
  split
  · exact handled_error 404 _
  · exact handled_error 400 _
  · exact handled_of_calm rfl rfl rfl (by simp)

theorem handled_handleAddDomain (body : Option String) :
    Handled server [] (handleAddDomain server body) := by
  unfold handleAddDomain
  split
  · exact handled_error 400 _
  · exact handled_of_calm rfl rfl rfl (by simp)

theorem handled_handleSwitchDomain (body : Option String) :
    Handled server [] (handleSwitchDomain server body) := by
  unfold handleSwitchDomain
  split
  · exact handled_error 400 _
  · split
    · exact handled_of_reply (by simp)
    · exact handled_of_calm rfl rfl rfl (by simp)

theorem handled_handleConfigUpdate (body : Option (List (String × Option ℤ))) :
    Handled server [] (handleConfigUpdate server body) := by
  unfold handleConfigUpdate
  split
  · exact handled_error 400 _
  · next updates =>
    obtain ⟨timeout, hupdated⟩ := exists_foldl_applyUpdate updates (server, [])
    dsimp only
    rw [hupdated]
    exact handled_of_calm rfl rfl rfl (by simp)

theorem handled_handleAdminStreamStart (chance : Chance) (body : Option StreamStartRequest) :
    Handled server (slicedByAdminStreamStart server chance body)
      (handleAdminStreamStart server chance body) := by
  unfold handleAdminStreamStart slicedByAdminStreamStart
  cases shouldBindJSON streamStartRequired body with
  | none => exact handled_badRequest
  | some req => exact handled_startStream chance req

theorem handled_handleAdminStreamStop (body : Option String) :
    Handled server (slicedByAdminStreamStop body) (handleAdminStreamStop server body) := by
  unfold handleAdminStreamStop slicedByAdminStreamStop
  cases shouldBindJSON isGiven body with
  | none => exact handled_badRequest
  | some key => exact handled_stopStream key

theorem handled_handleAdminRoute (chance : Chance) (route : AdminRoute) :
    Handled server (slicedByAdmin server chance route) (handleAdminRoute server chance route) := by
  cases route with
  | removeNode id => exact handled_handleRemoveNode id
  | setNodeStatus id body => exact handled_handleSetNodeStatus id body
  | streamStart body => exact handled_handleAdminStreamStart chance body
  | streamStop body => exact handled_handleAdminStreamStop body
  | triggerKeyRotation => exact handled_handleTriggerKeyRotation chance
  | setLatencyMode key body => exact handled_handleSetLatencyMode key body
  | approveNode id => exact handled_handleApproveNode id
  | addDomain body => exact handled_handleAddDomain body
  | removeDomain domain => exact handled_of_calm rfl rfl rfl nofun
  | switchDomain body => exact handled_handleSwitchDomain body
  | configUpdate body => exact handled_handleConfigUpdate body
  | _ => exact handled_of_reply nofun

/-- Every request keeps the ids of sessions long, and panics exactly when one of the strings it cuts
is short. Assumes: the ids of the sessions are long. -/
theorem handled_serve (hserver : Generated server) (services : Services) (chance : Chance)
    (request : Request) :
    Handled server (slicedByRequest services server chance request)
      (serve services server chance request) := by
  obtain ⟨route, header, query⟩ := request
  cases route with
  | onPublish body => exact handled_handleOnPublish body
  | onUnpublish body => exact handled_of_reply nofun
  | register body => exact handled_handleRegister chance body
  | heartbeat body => exact handled_handleHeartbeat chance _ body
  | agentGetStream key => exact handled_handleAgentGetStream _ key
  | dispatch body => exact handled_handleDispatch services chance body
  | qualityReport body => exact handled_handleQualityReport hserver chance body
  | endSession body => exact handled_handleEndSession body
  | getKey => exact handled_handleGetKey services chance _
  | streamStart body => exact handled_handleStreamStart chance body
  | streamStop => exact handled_handleStreamStop _
  | page => exact handled_of_reply nofun
  | admin route =>
    unfold serve slicedByRequest
    dsimp only
    split_ifs
    · exact handled_handleAdminRoute chance route
    · exact handled_error 401 _

/-! ### Steps -/

variable {services : Services} {st : State}

/-- The cleanup drops sessions. -/
theorem Generated.cleanup (hserver : Generated server) (now : ℕ) :
    Generated (ServerRun.cleanup server now) :=
  ⟨fun session hsession ↦ hserver.sessions session (List.mem_filter.mp hsession).1,
    hserver.latencyCtrl⟩

/-- A tick panics exactly when a session whose mode it raises has a short id. -/
theorem tickPanics_iff {sessions : Sessions} {now : ℕ} :
    tickPanics sessions now = true ↔
      ∃ text ∈ (sessions.rows.filter (upgradeDue now)).map DegradeState.sessionID, ¬Long text := by
  rw [tickPanics, List.any_eq_true]
  constructor
  · rintro ⟨state, hstate, hboth⟩
    obtain ⟨hdue, hshort⟩ := Bool.and_eq_true_iff.mp hboth
    exact ⟨_, List.mem_map_of_mem (List.mem_filter.mpr ⟨hstate, hdue⟩), slicePanics_iff.mp hshort⟩
  · rintro ⟨text, htext, hshort⟩
    obtain ⟨state, hstate, rfl⟩ := List.mem_map.mp htext
    obtain ⟨hmem, hdue⟩ := List.mem_filter.mp hstate
    exact ⟨state, hmem, Bool.and_eq_true_iff.mpr ⟨hdue, slicePanics_iff.mpr hshort⟩⟩

/-- A tick drops records and rewrites others. -/
theorem long_of_checkAndAdjust {sessions after : Sessions} {now : ℕ}
    (hafter : checkAndAdjust sessions now = some after)
    (hlong : ∀ state ∈ sessions.rows, Long state.sessionID) :
    ∀ state ∈ after.rows, Long state.sessionID := by
  intro state hstate
  obtain ⟨old, hold, rfl⟩ :=
    exists_of_find?_checkAndAdjust hafter (Table.mem_rows_iff_find?.mp hstate)
  rw [sessionID_adjust]
  exact hlong old (Table.find?_eq_some_iff.mp hold).1

/-- Every step keeps the ids of sessions long. -/
theorem generated_step (hst : Generated st.server) (action : ServerRun.Action) :
    Generated (step services st action).server := by
  unfold step
  split_ifs
  · exact hst
  · cases action with
    | request request chance => exact (handled_serve hst services chance request).generated hst
    | cleanup now => exact hst.cleanup now
    | cleanupSticky now => exact hst.of_same rfl rfl
    | rotateKeys outcome => exact hst.of_same rfl rfl
    | tickLatency now =>
      dsimp only
      split
      · next sessions hafter =>
        exact ⟨hst.sessions, long_of_checkAndAdjust hafter hst.latencyCtrl⟩
      · exact hst

/-- Every step keeps the keys of streams long. Assumes: the ids of the sessions are long. -/
theorem longKeys_step (hst : Generated st.server) (hkeys : LongKeys st.server)
    (action : ServerRun.Action) : LongKeys (step services st action).server := by
  unfold step
  split_ifs
  · exact hkeys
  · cases action with
    | request request chance => exact (handled_serve hst services chance request).keys hkeys
    | cleanup now => exact hkeys.of_same rfl
    | cleanupSticky now => exact hkeys.of_same rfl
    | rotateKeys outcome => exact hkeys.rotate outcome
    | tickLatency now =>
      dsimp only
      split
      · exact hkeys.of_same rfl
      · exact hkeys

/-- A step panics exactly when one of the strings it cuts is short. Assumes: the process runs, and
the ids of the sessions are long. -/
theorem panics_iff (hst : Generated st.server) (hruns : st.ended = false)
    (action : ServerRun.Action) :
    Panics services st action ↔ ∃ text ∈ sliced services st action, ¬Long text := by
  have hnot : ¬st.ended = true := by simp [hruns]
  cases action with
  | request request chance => exact (handled_serve hst services chance request).recovered_iff
  | cleanup now => simp [Panics, step, sliced, hruns]
  | cleanupSticky now => simp [Panics, step, sliced, hruns]
  | rotateKeys outcome =>
    change (step services st (.rotateKeys outcome)).ended = true ↔ _
    rw [step, if_neg hnot]
    exact rotatePanics_iff
  | tickLatency now =>
    change (step services st (.tickLatency now)).ended = true ↔ _
    rw [step, if_neg hnot, sliced, ← tickPanics_iff]
    dsimp only
    unfold checkAndAdjust
    split_ifs with hpanics
    · exact iff_of_true rfl hpanics
    · exact iff_of_false hnot hpanics

end LiveCDN.Controller.SlicePanics
