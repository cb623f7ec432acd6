import LiveCDN.Controller.KeyRotation
import LiveCDN.Controller.LatencyControl
import LiveCDN.Controller.OutlierDetection
import LiveCDN.Controller.Persistence

/-!
# The controller's server

The state of the HTTP server (`Server` of `controller/server.go`), the requests it receives and the
replies it gives. A request is what a handler reads of it: the headers and the query by name, and
for each route its path parameters and its JSON body, `none` when the body does not decode. What the
runtime contributes to a request (the clock, the random draws, the orders of the walks, the ids and
keys that are generated) is collected in a `Chance`.

Scope. Metrics, log and audit entries are left out, apart from the slices that log lines cut from
ids, and so is the retry hint of the capacity reply. The locator of clients, HMAC-SHA256 and
`time.Parse` are the `Services`. Floating-point numbers in requests are the rationals that they
stand for.
-/

set_option autoImplicit false
set_option relaxedAutoImplicit false

namespace LiveCDN.Controller.HttpServer

open Library.KeyedTable NodeStore StreamStore Persistence Endpoint Scheduling Mesh KeyRotation
  LatencyControl

/-! ### State -/

/-- The fields of `Config` that handlers read. -/
structure Config where
  listenAddr : String
  originAddr : String
  rtmpOriginAddr : String
  regToken : String
  adminToken : String
  cipherSuite : String
  hbTimeout : ℤ
  staleNodeTimeout : ℤ
  domainPool : List String
  deriving DecidableEq, Repr

/-- `SessionInfo`. -/
structure SessionInfo where
  sessionID : String
  streamKey : String
  nodeID : String
  clientIP : String
  startTime : ℕ
  lastActive : ℕ
  deriving DecidableEq, Repr

/-- `Server`: the configuration, the scheduler with the nodes and complaints of the store, the
streams, viewer tokens and sessions of the store, and the latency controller. -/
structure Server where
  cfg : Config
  scheduler : Scheduler
  streams : Table StreamInfo.streamKey
  tokens : Table (Prod.fst : String × String → String)
  sessions : Table SessionInfo.sessionID
  latencyCtrl : Sessions

/-- `NewServer`, with the defaults of the configuration applied. -/
def newServer (cfg : Config) : Server :=
  ⟨cfg, newScheduler newMemoryStore, Table.empty, Table.empty, Table.empty, Table.empty⟩

namespace Server

/-- The nodes, streams and viewer tokens of the store. -/
def mem (server : Server) : Memory := ⟨server.scheduler.store, server.streams, server.tokens⟩

/-- The server with other nodes and complaints. -/
def withStore (server : Server) (store : MemoryStore) : Server :=
  { server with scheduler := { server.scheduler with store := store } }

/-- `SetToken`. -/
def setToken (server : Server) (token streamKey : String) : Server :=
  { server with tokens := (server.mem.setToken token streamKey).tokens }

/-- `CreateSession`. -/
def createSession (server : Server) (info : SessionInfo) : Server :=
  { server with sessions := server.sessions.put info }

/-- `RemoveSession`. -/
def removeSession (server : Server) (id : String) : Server :=
  { server with sessions := server.sessions.remove id }

/-- `TouchSession`: the server and whether the session was there. -/
def touchSession (server : Server) (now : ℕ) (id : String) : Server × Bool :=
  match server.sessions.find? id with
  | none => (server, false)
  | some session =>
    ({ server with sessions := server.sessions.put { session with lastActive := now } }, true)

@[simp] theorem scheduler_touchSession (server : Server) (now : ℕ) (id : String) :
    (server.touchSession now id).1.scheduler = server.scheduler := by
  unfold touchSession
  split <;> rfl

/-- A session is touched when it is there. -/
theorem touchSession_snd (server : Server) (now : ℕ) (id : String) :
    (server.touchSession now id).2 = (server.sessions.find? id).isSome := by
  unfold touchSession
  split
  · next hnone => rw [hnone, Option.isSome_none]
  · next session hfound => rw [hfound, Option.isSome_some]

/-- `RemoveStaleSessions`. -/
def removeStaleSessions (server : Server) (now timeout : ℕ) : Server :=
  { server with
    sessions := server.sessions.keep fun session ↦ !decide (now - session.lastActive > timeout) }

/-- `GetLiveStreams`, in the order of the table. -/
def getLiveStreams (server : Server) : List StreamInfo := server.streams.rows.filter (·.isLive)

end Server

/-! ### What the runtime and other code contribute -/

/-- What the runtime contributes to one request: two readings of the clock, what it decides during a
dispatch, a heartbeat and a key rotation, and the ids and keys that are generated. A stream key is
32 hex digits, a viewer token 48 and a session id a UUID. -/
structure Chance where
  now : ℕ
  later : ℕ
  outcome : Outcome
  meshOutcome : MeshOutcome
  rotation : RotationOutcome
  streamKey : String
  streamKey_size : streamKey.utf8ByteSize = 32
  viewerToken : String
  viewerToken_size : viewerToken.utf8ByteSize = 48
  sessionID : String
  sessionID_size : sessionID.utf8ByteSize = 36
  key : CipherSuite → Option (String × String)

/-- What the server uses of other code: `IPLocator.Lookup`, the digest of data under a secret that
`TokenSigner.Sign` returns, and `time.Parse` in the format `time.UnixDate`. -/
structure Services where
  lookup : String → String × String
  sign : String → String → String
  parseUnixDate : String → Option ℤ

/-! ### Requests -/

/-- `RegisterRequest`: the token, and the fields the store reads. -/
structure Registration where
  token : String
  request : RegisterRequest
  deriving DecidableEq, Repr

/-- `DispatchRequest`. -/
structure DispatchRequest where
  streamKey : String
  token : String
  clientIP : String
  deriving DecidableEq, Repr

/-- `QualityReport`. -/
structure QualityReport where
  sessionID : String
  nodeID : String
  stallRate : ℚ
  rtt : ℤ
  e2eLatency : ℤ
  error : String
  deriving DecidableEq, Repr

/-- `StreamStartRequest`. -/
structure StreamStartRequest where
  title : String
  accessToken : String
  latencyMode : String
  deriving DecidableEq, Repr

/-- The routes under `/api/admin`. An entry of a configuration update comes with its value when that
is a number, truncated to an integer. -/
inductive AdminRoute
  | listNodes
  | listStreams
  | stats
  | removeNode (id : String)
  | setNodeStatus (id : String) (body : Option String)
  | listSessions
  | getConfig
  | streamStart (body : Option StreamStartRequest)
  | streamStop (body : Option String)
  | triggerKeyRotation
  | setLatencyMode (key : String) (body : Option String)
  | approveNode (id : String)
  | listDomains
  | addDomain (body : Option String)
  | removeDomain (domain : String)
  | switchDomain (body : Option String)
  | configUpdate (body : Option (List (String × Option ℤ)))
  | auditQuery
  | auditIntegrity

/-- The routes of `setupRoutes`. The pages and downloads are one route. -/
inductive Route
  | onPublish (body : Option String)
  | onUnpublish (body : Option String)
  | register (body : Option Registration)
  | heartbeat (body : Option HeartbeatRequest)
  | agentGetStream (key : String)
  | dispatch (body : Option DispatchRequest)
  | qualityReport (body : Option QualityReport)
  | endSession (body : Option String)
  | getKey
  | streamStart (body : Option StreamStartRequest)
  | streamStop
  | admin (route : AdminRoute)
  | page

/-- A request: its route, and its headers and query parameters by name, empty when absent. -/
structure Request where
  route : Route
  header : String → String
  query : String → String

/-! ### Replies -/

/-- `LatencyConfig`. -/
structure LatencyConfig where
  agentBufferMs : ℕ
  clientBufferMs : ℕ
  playbackRateMin : ℚ
  playbackRateMax : ℚ
  deriving DecidableEq, Repr

/-- `LatencyModeConfigs`. -/
def latencyModeConfigs (mode : String) : LatencyConfig :=
  if mode = latencyUltra then ⟨200, 300, 95 / 100, 105 / 100⟩
  else if mode = latencyStandard then ⟨800, 1000, 95 / 100, 105 / 100⟩
  else if mode = latencyResilient then ⟨2000, 3000, 90 / 100, 110 / 100⟩
  else ⟨0, 0, 0, 0⟩

/-- `DispatchResponse`. The stream whose key it is comes with `encryptKey`; it is not sent. -/
structure DispatchResponse where
  nodes : List NodeEndpoint
  encryptKey : String
  keyOf : String
  cipherSuite : String
  sessionID : String
  latencyMode : String
  latencyConf : LatencyConfig
  deriving DecidableEq, Repr

/-- The answer of `handleGetKey`. The stream whose key it is comes with `key`; it is not sent. -/
structure KeyResponse where
  key : String
  keyOf : String
  iv : String
  cipher : String
  expiresAt : ℕ
  deriving DecidableEq, Repr

/-- `StreamStartResponse`. -/
structure StreamStartResponse where
  streamKey : String
  pushURL : String
  hlsURL : String
  viewerToken : String
  deriving DecidableEq, Repr

/-- The answer of `handleStats`. -/
structure Stats where
  onlineNodes : ℕ
  totalNodes : ℕ
  liveStreams : ℕ
  totalUsers : ℤ
  totalBWMbps : ℤ
  deriving DecidableEq, Repr

/-- The answer of `handleGetConfig`. -/
structure PublicConfig where
  listenAddr : String
  originAddr : String
  rtmpOriginAddr : String
  cipherSuite : String
  hbTimeout : ℤ
  staleNodeTimeout : ℤ
  regTokenSet : Bool
  adminTokenSet : Bool
  domainPool : List String
  deriving DecidableEq, Repr

/-- The JSON bodies of the answers with status 200. -/
inductive Body
  | hook (code : ℕ) (msg : String)
  | registered (nodeStatus originAddr rtmpOriginAddr : String) (hbInterval : ℕ)
      (cipherSuite : String)
  | heartbeat (meshMap : Option MeshMapResponse)
  | stream (info : StreamInfo)
  | dispatched (response : DispatchResponse)
  | recorded (latencyMode : String) (downgraded : Bool) (config : LatencyConfig)
  | key (response : KeyResponse)
  | started (response : StreamStartResponse)
  | status (text : String)
  | nodes (nodes : List NodeInfo)
  | streams (streams : List StreamInfo)
  | stats (stats : Stats)
  | sessions (sessions : List SessionInfo)
  | config (config : PublicConfig)
  | latencyMode (mode : String) (config : LatencyConfig)
  | domains (domains : List String)
  | domainPool (domains : List String) (activeDomain : String) (activeIndex : ℕ)
  | switched (activeDomain : String) (activeIndex : ℕ) (message : String)
  | updated (keys : List String)
  | audit
  | page
  deriving DecidableEq, Repr

/-- A reply: status 200 with a body, another status with its error text, 400 with the text of the
binding, and the 500 of `gin.Recovery` after a panic. -/
inductive Reply
  | ok (body : Body)
  | error (status : ℕ) (message : String)
  | badRequest
  | recovered
  deriving DecidableEq, Repr

/-- `ShouldBindJSON`: the body, if it decodes and its required fields are not empty. -/
def shouldBindJSON {Content : Type} (required : Content → Bool) (body : Option Content) :
    Option Content :=
  body.filter required

/-- A required text is not empty. -/
def isGiven (text : String) : Bool := decide (text ≠ "")

end LiveCDN.Controller.HttpServer
