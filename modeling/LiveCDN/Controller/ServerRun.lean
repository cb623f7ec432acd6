import LiveCDN.Controller.AdminHandlers
import LiveCDN.Library.GuardedRun

/-!
# Runs of the server

The router (`setupRoutes` of `controller/server.go`), the background tasks of the server and the
runs they make. A `State` records, beside the server, which viewer tokens were issued for which
streams and which nodes were dispatched to each session, as the replies have them.

Scope. Requests and background tasks do not overlap and come in any order; a rotation, which reads
and writes the streams one by one, is a step as a whole, and its interleavings are those of
`KeyRotation`. The timeout for nodes is short enough not to overflow a `time.Duration`. The expiry
of latency sessions is that of `LatencyControl`; the ids of sessions are long enough for its log
lines.
-/

set_option autoImplicit false
set_option relaxedAutoImplicit false

namespace LiveCDN.Controller.ServerRun

open Library.Binary64 Library.KeyedTable Library.GuardedRun NodeStore StreamStore Endpoint
  Scheduling KeyRotation LatencyControl OutlierDetection HttpServer Handlers AdminHandlers

/-! ### The router -/

/-- The routes of `setupRoutes`. The pages and downloads change nothing. -/
def serve (services : Services) (server : Server) (chance : Chance) (request : Request) :
    Server × Reply :=
  match request.route with
  | .onPublish body => (server, handleOnPublish server body)
  | .onUnpublish _ => (server, .ok (.hook 0 ""))
  | .register body => handleRegister server chance body
  | .heartbeat body => handleHeartbeat server chance request body
  | .agentGetStream key => (server, handleAgentGetStream server request key)
  | .dispatch body => handleDispatch server services chance body
  | .qualityReport body => handleQualityReport server chance body
  | .endSession body => handleEndSession server body
  | .getKey => (server, handleGetKey server services chance request)
  | .streamStart body => handleStreamStart server chance body
  | .streamStop => handleStreamStop server request
  | .admin route =>
    if authAdmin server.cfg request then handleAdmin server chance route
    else (server, .error 401 "unauthorized")
  | .page => (server, .ok .page)

/-! ### Background tasks -/

/-- The timeout of `cleanupLoop` for nodes. -/
def staleTimeout (cfg : Config) : ℤ :=
  if cfg.staleNodeTimeout = 0 then 120 * second else cfg.staleNodeTimeout * second

/-- `RemoveStaleNodes` with a timeout that may be negative, when every node is stale. -/
def removeStale (store : MemoryStore) (now : ℕ) (timeout : ℤ) : MemoryStore :=
  if timeout < 0 then { store with nodes := Table.empty }
  else (store.removeStaleNodes now timeout.toNat).1

/-- A node after the last loop of `cleanupLoop`, if it is healthy. The addition is rounded. -/
def restedNode (rd : ℚ → ℚ) (store : MemoryStore) (now : ℕ) (node : NodeInfo) : NodeInfo :=
  if isNodeHealthy now node && !store.isCooling now node.nodeID &&
      decide (node.effectiveWeight < 1 ∧ node.effectiveWeight > 0) then
    let effectiveWeight := rd (node.effectiveWeight + rd (5 / 100))
    { node with effectiveWeight := if effectiveWeight > 1 then 1 else effectiveWeight }
  else node

theorem nodeID_restedNode (rd : ℚ → ℚ) (store : MemoryStore) (now : ℕ) (node : NodeInfo) :
    (restedNode rd store now node).nodeID = node.nodeID := by
  unfold restedNode
  split_ifs <;> rfl

/-- The last loop of `cleanupLoop`: the healthy nodes recover some weight. -/
def restNodes (rd : ℚ → ℚ) (store : MemoryStore) (now : ℕ) : MemoryStore :=
  { store with
    nodes := store.nodes.mapRows (restedNode rd store now) (nodeID_restedNode rd store now) }

/-- One turn of `cleanupLoop`. -/
def cleanup (server : Server) (now : ℕ) : Server :=
  let server :=
    server.withStore (removeStale server.scheduler.store now (staleTimeout server.cfg))
  let server := server.removeStaleSessions now (90 * second)
  let server := { server with scheduler := recoverOutliers server.scheduler now }
  server.withStore (restNodes nearest server.scheduler.store now)

/-- `stickyTTL`. -/
def stickyTTL : ℕ := 30 * minute

/-- `StickyStore.Cleanup`, in `metricsLoop`. -/
def cleanupSticky (server : Server) (now : ℕ) : Server :=
  { server with scheduler := { server.scheduler with
      sticky := fun id ↦ (server.scheduler.sticky id).filter fun entry ↦
        !decide (now - entry.lastSeen > stickyTTL) } }

/-- One tick of the latency controller. -/
def tickLatency (server : Server) (now : ℕ) : Server :=
  match checkAndAdjust server.latencyCtrl now with
  | some sessions => { server with latencyCtrl := sessions }
  | none => server

/-! ### Runs -/

/-- A server, the viewer tokens issued with their streams, and the ids of the nodes dispatched to
each session. -/
structure State where
  server : Server
  issued : List (String × String)
  dispatched : String → List String

/-- A request or a turn of a background task. -/
inductive Action
  | request (request : Request) (chance : Chance)
  | cleanup (now : ℕ)
  | cleanupSticky (now : ℕ)
  | rotateKeys (outcome : RotationOutcome)
  | tickLatency (now : ℕ)

/-- The state after a reply. -/
def State.after (st : State) (served : Server × Reply) : State :=
  match served.2 with
  | .ok (.started response) =>
    { st with
      server := served.1
      issued := st.issued ++ [(response.viewerToken, response.streamKey)] }
  | .ok (.dispatched response) =>
    { st with
      server := served.1
      dispatched := Function.update st.dispatched response.sessionID
        (response.nodes.map NodeEndpoint.nodeID) }
  | _ => { st with server := served.1 }

/-- One step. -/
def step (services : Services) (st : State) : Action → State
  | .request request chance => st.after (serve services st.server chance request)
  | .cleanup now => { st with server := ServerRun.cleanup st.server now }
  | .cleanupSticky now => { st with server := ServerRun.cleanupSticky st.server now }
  | .rotateKeys outcome => { st with server := rotateAllLiveStreams st.server 0 outcome }
  | .tickLatency now => { st with server := ServerRun.tickLatency st.server now }

/-- A new server. -/
def State.initial (cfg : Config) : State := ⟨newServer cfg, [], fun _ ↦ []⟩

@[simp] theorem server_after (st : State) (served : Server × Reply) :
    (st.after served).server = served.1 := by
  unfold State.after
  split <;> rfl

/-! ### A plain server -/

/-- A configuration with both tokens set. -/
def plainConfig : Config :=
  ⟨":8080", "http://origin:8080", "origin:1935", "reg", "admin", "", 15, 120, []⟩

/-- A locator that knows one region, a digest that shows its input, and no times. -/
def plainServices : Services := ⟨fun _ ↦ ("r", "i"), fun secret data ↦ secret ++ data, fun _ ↦ none⟩

/-- The clock at zero, maps walked in the order of the tables, and one id of each kind. -/
def plainChance : Chance where
  now := 0
  later := 0
  outcome := Dispatch.visitingOutcome id List.Perm.refl
  meshOutcome := Mesh.inOrderOutcome
  rotation := ⟨id, List.Perm.refl, fun _ ↦ 0, fun _ _ ↦ none⟩
  streamKey := "00112233445566778899aabbccddeeff"
  streamKey_size := by decide
  viewerToken := "00112233445566778899aabbccddeeff0011223344556677"
  viewerToken_size := by decide
  sessionID := "00112233-4455-4677-8899-aabbccddeeff"
  sessionID_size := by decide
  key := fun _ ↦ some ("key", "iv")

/-- A request without headers and query. -/
def plainRequest (route : Route) : Request := ⟨route, fun _ ↦ "", fun _ ↦ ""⟩

/-- A request to an admin route with the token of `plainConfig`. -/
def adminRequest (route : AdminRoute) : Request :=
  ⟨.admin route, fun name ↦ if name = "Authorization" then "Bearer admin" else "", fun _ ↦ ""⟩

end LiveCDN.Controller.ServerRun
