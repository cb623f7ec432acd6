import LiveCDN.Controller.HttpServer

/-!
# Handlers for agents, players and broadcasters

The handlers of `controller/server.go` outside the admin routes: each takes the server, what the
runtime contributes and the request, and returns the server after it and the reply. A log line that
cuts eight bytes from a shorter id panics; the reply is then that of `gin.Recovery`, and what the
handler has done before stays.
-/

set_option autoImplicit false
set_option relaxedAutoImplicit false

namespace LiveCDN.Controller.Handlers

open Library.Binary64 Library.KeyedTable NodeStore StreamStore Endpoint Scheduling Dispatch Mesh
  KeyRotation LatencyControl OutlierDetection HttpServer

/-! ### Hooks -/

/-- `handleOnPublish`. -/
def handleOnPublish (server : Server) (body : Option String) : Reply :=
  match body with
  | none => .ok (.hook 1 "invalid request")
  | some stream =>
    match getStream server.streams stream with
    | none => .ok (.hook 1 "stream not authorized")
    | some info =>
      if info.isLive = false then .ok (.hook 1 "stream not authorized") else .ok (.hook 0 "")

/-! ### Agents -/

/-- What stands behind `Bearer ` in the header `Authorization`, if it begins so. -/
def bearer (request : Request) : Option (List Char) :=
  let auth := (request.header "Authorization").toList
  if "Bearer ".toList.isPrefixOf auth then some (auth.drop "Bearer ".length) else none

/-- The token `validateAgentToken` compares: the one of the first place that has one. -/
def agentToken (request : Request) : String :=
  let token := request.header "X-LiveCDN-Token"
  let token := if token = "" then
    match bearer request with
    | some behind => String.ofList (Library.Utf8Text.trim behind)
    | none => token
    else token
  if token = "" then request.query "token" else token

/-- `validateAgentToken`. -/
def validateAgentToken (cfg : Config) (request : Request) : Bool :=
  let expected := cfg.regToken
  if expected = "" then false else decide (agentToken request = expected)

/-- The required fields of `RegisterRequest`. -/
def registrationRequired (registration : Registration) : Bool :=
  isGiven registration.request.nodeID && isGiven registration.request.publicIP &&
    decide (registration.request.port ≠ 0) && isGiven registration.request.region &&
      isGiven registration.request.isp && isGiven registration.token

/-- `handleRegister`. -/
def handleRegister (server : Server) (chance : Chance) (body : Option Registration) :
    Server × Reply :=
  match shouldBindJSON registrationRequired body with
  | none => (server, .badRequest)
  | some registration =>
    if registration.token ≠ server.cfg.regToken then
      (server, .error 403 "invalid registration token")
    else
      let store := server.scheduler.store.registerNode chance.now registration.request
      let approved := (store.getNode registration.request.nodeID).any fun node ↦
        decide (node.status = .online ∨ node.status = .busy)
      (server.withStore store,
        .ok (.registered (if approved then "approved" else "pending") server.cfg.originAddr
          server.cfg.rtmpOriginAddr 5 server.cfg.cipherSuite))

/-- `handleHeartbeat`. -/
def handleHeartbeat (server : Server) (chance : Chance) (request : Request)
    (body : Option HeartbeatRequest) : Server × Reply :=
  if validateAgentToken server.cfg request = false then (server, .error 403 "invalid agent token")
  else
    match shouldBindJSON (fun req ↦ isGiven req.nodeID) body with
    | none => (server, .badRequest)
    | some req =>
      match server.scheduler.store.updateHeartbeat chance.now req with
      | .error message => (server, .error 404 message)
      | .ok store =>
        (server.withStore store,
          .ok (.heartbeat
            (buildMeshMapResponse nearest store chance.meshOutcome chance.now req.nodeID)))

/-- `handleAgentGetStream`. -/
def handleAgentGetStream (server : Server) (request : Request) (streamKey : String) : Reply :=
  if validateAgentToken server.cfg request = false then .error 403 "invalid agent token"
  else
    match getStream server.streams streamKey with
    | none => .error 404 "stream not found or offline"
    | some stream =>
      if stream.isLive = false then .error 404 "stream not found or offline"
      else .ok (.stream stream)

/-! ### Players -/

/-- The part of `handleDispatch` behind the capacity gate. -/
def dispatchStream (server : Server) (services : Services) (chance : Chance) (stream : StreamInfo)
    (streamKey clientIP : String) : Server × Reply :=
  let result := server.scheduler.dispatch services.lookup chance.outcome chance.now clientIP "" ""
  let server := { server with scheduler := result.2 }
  match result.1 with
  | .error err =>
    if slicePanics streamKey then (server, .recovered) else (server, .error 503 err.msg)
  | .ok nodes =>
    let server := server.createSession {
      sessionID := chance.sessionID
      streamKey := streamKey
      nodeID := (nodes.head?.map NodeEndpoint.nodeID).getD ""
      clientIP := clientIP
      startTime := chance.now
      lastActive := chance.now }
    if slicePanics streamKey then (server, .recovered)
    else
      let sessionMode := getSessionMode server.latencyCtrl chance.sessionID
      let sessionMode := if sessionMode = "" then latencyUltra else sessionMode
      (server, .ok (.dispatched {
        nodes := nodes
        encryptKey := stream.encryptKey
        keyOf := stream.streamKey
        cipherSuite := stream.cipherSuite
        sessionID := chance.sessionID
        latencyMode := sessionMode
        latencyConf := latencyModeConfigs sessionMode }))

/-- `handleDispatch`. -/
def handleDispatch (server : Server) (services : Services) (chance : Chance)
    (body : Option DispatchRequest) : Server × Reply :=
  match shouldBindJSON (fun req ↦ isGiven req.streamKey && isGiven req.token) body with
  | none => (server, .badRequest)
  | some req =>
    if server.mem.validateToken req.token ≠ some req.streamKey then
      if slicePanics req.token then (server, .recovered)
      else (server, .error 403 "invalid token or stream key")
    else
      match getStream server.streams req.streamKey with
      | none => (server, .error 404 "stream not found or offline")
      | some stream =>
        if stream.isLive = false then (server, .error 404 "stream not found or offline")
        else if isCapacityFull server.scheduler.store chance.now then
          (server, .error 503 "all nodes at capacity, please try again later")
        else dispatchStream server services chance stream req.streamKey req.clientIP

/-- A report complains about its node. -/
def complains (report : QualityReport) : Bool :=
  decide (report.stallRate > nearest (1 / 10) ∨ report.error ≠ "")

/-- A report that does not complain praises its node. -/
def praises (report : QualityReport) : Bool :=
  decide (report.stallRate < 1 / 100 ∧ report.rtt > 0)

/-- What `handleQualityReport` does to the node that a report names. -/
def recordQuality (s : Scheduler) (now : ℕ) (report : QualityReport) : Scheduler :=
  if complains report then
    if report.nodeID ≠ "" then
      reportNodeFail nearest { s with store := s.store.recordComplaint now report.nodeID } now
        report.nodeID
    else s
  else if praises report && isGiven report.nodeID then
    reportNodeSuccess nearest s now report.nodeID
  else s

/-- A report registers no node and removes none. -/
theorem isSome_getNode_recordQuality (s : Scheduler) (now : ℕ) (report : QualityReport)
    (id : String) :
    ((recordQuality s now report).store.getNode id).isSome = (s.store.getNode id).isSome := by
  unfold recordQuality
  split_ifs
  · simp only [reportNodeFail, getNode_updateNode _ _ (nodeID_failedNode _ _)]
    split_ifs
    · exact Option.isSome_map
    · rfl
  · rfl
  · simp only [reportNodeSuccess, getNode_updateNode _ _ (nodeID_succeededNode _)]
    split_ifs
    · exact Option.isSome_map
    · rfl
  · rfl

/-- `handleQualityReport`. -/
def handleQualityReport (server : Server) (chance : Chance) (body : Option QualityReport) :
    Server × Reply :=
  match body with
  | none => (server, .badRequest)
  | some report =>
    if report.sessionID = "" then (server, .error 400 "session_id is required")
    else
      let touched := server.touchSession chance.now report.sessionID
      if touched.2 = false then (touched.1, .error 404 "session not found")
      else
        let server := touched.1
        let server :=
          { server with scheduler := recordQuality server.scheduler chance.now report }
        let processed := processQualityReport server.latencyCtrl report.sessionID report.stallRate
          chance.now chance.later
        let server := { server with latencyCtrl := processed.1 }
        match processed.2 with
        | none => (server, .recovered)
        | some (downgraded, newMode) =>
          (server, .ok (.recorded newMode downgraded (latencyModeConfigs newMode)))

/-- `handleEndSession`. -/
def handleEndSession (server : Server) (body : Option String) : Server × Reply :=
  match shouldBindJSON isGiven body with
  | none => (server, .badRequest)
  | some sessionID => (server.removeSession sessionID, .ok (.status "ended"))

/-- The check of the timestamp and the signature in `handleGetKey`, made when both are given. -/
def checkSignature (cfg : Config) (services : Services) (now : ℕ) (sessionID ts sig : String) :
    Option Reply :=
  if ts ≠ "" ∧ sig ≠ "" then
    if services.sign cfg.adminToken (sessionID ++ ":" ++ ts) ≠ sig then
      some (.error 403 "invalid signature")
    else
      match services.parseUnixDate ts with
      | some time =>
        if (now : ℤ) - time > 60 * second then some (.error 403 "key expired") else none
      | none => none
  else none

/-- `handleGetKey`. -/
def handleGetKey (server : Server) (services : Services) (chance : Chance) (request : Request) :
    Reply :=
  let sessionID := request.query "session_id"
  let token := request.query "token"
  if sessionID = "" ∨ token = "" then .error 400 "missing parameters"
  else
    match checkSignature server.cfg services chance.now sessionID (request.query "ts")
      (request.query "sig") with
    | some refusal => refusal
    | none =>
      match server.sessions.find? sessionID with
      | none => .error 404 "session not found"
      | some session =>
        if server.mem.validateToken token ≠ some session.streamKey then .error 403 "invalid token"
        else
          match getStream server.streams session.streamKey with
          | none => .error 404 "stream not found"
          | some stream =>
            .ok (.key {
              key := stream.encryptKey
              keyOf := stream.streamKey
              iv := stream.encryptIV
              cipher := stream.cipherSuite
              expiresAt := (chance.now + 60 * second) / second })

/-! ### Broadcasters -/

/-- The text of a `CipherSuite`. -/
def suiteName : CipherSuite → String
  | .chaCha20 => "chacha20-poly1305"
  | .aes128 => "aes-128-cbc"

/-- `hlsURL`. -/
def hlsURL (cfg : Config) (streamKey : String) : String :=
  String.ofList (Library.Utf8Text.trimEndMatches ['/'] cfg.originAddr.toList) ++ "/live/" ++
    streamKey ++ "/stream.m3u8"

/-- `rtmpPushURL`. -/
def rtmpPushURL (cfg : Config) (streamKey : String) : String :=
  let base := Library.Utf8Text.trim cfg.rtmpOriginAddr.toList
  let base := Library.Utf8Text.stripPrefix "rtmp://".toList base
  let base := Library.Utf8Text.trimEndMatches ['/'] base
  "rtmp://" ++ String.ofList base ++ "/live/" ++ streamKey

/-- The required fields of `StreamStartRequest`. -/
def streamStartRequired (req : StreamStartRequest) : Bool :=
  isGiven req.title && isGiven req.accessToken

/-- What `handleStreamStart` and `handleAdminStreamStart` share: a new stream with a new key and a
viewer token for it. -/
def startStream (server : Server) (chance : Chance) (req : StreamStartRequest) : Server × Reply :=
  match normalizeCipherSuite server.cfg.cipherSuite with
  | .error message => (server, .error 500 message)
  | .ok suite =>
    match chance.key suite with
    | none => (server, .error 500 "failed to generate key")
    | some (encKey, encIV) =>
      let stream : StreamInfo := {
        streamKey := chance.streamKey
        title := req.title
        originURL := hlsURL server.cfg chance.streamKey
        encryptKey := encKey
        encryptIV := encIV
        cipherSuite := suiteName suite
        isLive := true
        createdAt := chance.now
        latencyMode := if req.latencyMode = "" then latencyUltra else req.latencyMode }
      let server := { server with streams := createStream server.streams stream }
      (server.setToken chance.viewerToken chance.streamKey,
        .ok (.started {
          streamKey := chance.streamKey
          pushURL := rtmpPushURL server.cfg chance.streamKey
          hlsURL := stream.originURL
          viewerToken := chance.viewerToken }))

/-- `handleStreamStart`. -/
def handleStreamStart (server : Server) (chance : Chance) (body : Option StreamStartRequest) :
    Server × Reply :=
  match shouldBindJSON streamStartRequired body with
  | none => (server, .badRequest)
  | some req =>
    if req.accessToken ≠ server.cfg.adminToken then (server, .error 403 "invalid access token")
    else startStream server chance req

/-- What `handleStreamStop` and `handleAdminStreamStop` share: the stream is ended, then the log
line cuts eight bytes from its key. -/
def stopStream (server : Server) (streamKey : String) : Server × Reply :=
  let server := { server with streams := endStream server.streams streamKey }
  if slicePanics streamKey then (server, .recovered) else (server, .ok (.status "stopped"))

/-- `handleStreamStop`. -/
def handleStreamStop (server : Server) (request : Request) : Server × Reply :=
  let streamKey := request.query "stream_key"
  let accessToken := request.query "access_token"
  if accessToken ≠ server.cfg.adminToken then (server, .error 403 "invalid access token")
  else stopStream server streamKey

end LiveCDN.Controller.Handlers
