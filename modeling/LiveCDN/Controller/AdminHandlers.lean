import LiveCDN.Controller.Handlers
import LiveCDN.Controller.NodeAdmission
import LiveCDN.Controller.StreamUpdates

/-!
# Admin handlers

The handlers of `controller/server.go` behind `authAdmin`, as in `Handlers`.

Scope. The audit log is not part of the state, so `handleAuditQuery` and `handleAuditIntegrity`
answer without content. A manual key rotation is one step; `KeyRotation` has its interleavings.
-/

set_option autoImplicit false
set_option relaxedAutoImplicit false

namespace LiveCDN.Controller.AdminHandlers

open Library.KeyedTable NodeStore StreamStore KeyRotation StreamUpdates LatencyControl HttpServer
  Handlers

/-! ### Nodes -/

/-- `handleStats`. -/
def handleStats (server : Server) (chance : Chance) : Stats :=
  let nodes := server.scheduler.store.nodes.rows
  let totalBW := (nodes.map NodeInfo.bwUsed).sum
  let mbps : ℚ := totalBW * 8 / 1000000
  { onlineNodes := nodes.countP (isNodeHealthy chance.now)
    totalNodes := nodes.length
    liveStreams := server.getLiveStreams.length
    totalUsers := (nodes.map NodeInfo.onlineUsers).sum
    totalBWMbps := if 0 ≤ mbps then ⌊mbps + 1 / 2⌋ else ⌈mbps - 1 / 2⌉ }

/-- `handleRemoveNode`. -/
def handleRemoveNode (server : Server) (nodeID : String) : Server × Reply :=
  let removed := server.scheduler.store.removeNode nodeID
  if removed.2 then (server.withStore removed.1, .ok (.status "removed"))
  else (server, .error 404 "node not found")

/-- The statuses `handleSetNodeStatus` accepts. -/
def settableStatus (text : String) : Option NodeStatus :=
  if text = "online" then some .online
  else if text = "offline" then some .offline
  else if text = "busy" then some .busy
  else if text = "cooling" then some .cooling
  else none

/-- `handleSetNodeStatus`. -/
def handleSetNodeStatus (server : Server) (nodeID : String) (body : Option String) :
    Server × Reply :=
  match shouldBindJSON isGiven body with
  | none => (server, .badRequest)
  | some text =>
    match settableStatus text with
    | none => (server, .error 400 "invalid status")
    | some status =>
      let changed := server.scheduler.store.setNodeStatus nodeID status
      if changed.2 then (server.withStore changed.1, .ok (.status "updated"))
      else (server, .error 404 "node not found")

/-- `handleApproveNode`. -/
def handleApproveNode (server : Server) (nodeID : String) : Server × Reply :=
  let result := NodeAdmission.handleApproveNode server.scheduler.store nodeID
  match result.2 with
  | .nodeNotFound => (server, .error 404 "node not found")
  | .notPending => (server, .error 400 "node is not in pending state")
  | .approved => (server.withStore result.1, .ok (.status "approved"))

/-! ### Streams -/

/-- `handleAdminStreamStart`. -/
def handleAdminStreamStart (server : Server) (chance : Chance) (body : Option StreamStartRequest) :
    Server × Reply :=
  match shouldBindJSON streamStartRequired body with
  | none => (server, .badRequest)
  | some req => startStream server chance req

/-- `handleAdminStreamStop`. -/
def handleAdminStreamStop (server : Server) (body : Option String) : Server × Reply :=
  match shouldBindJSON isGiven body with
  | none => (server, .badRequest)
  | some streamKey => stopStream server streamKey

/-- `RotateAllLiveStreams` of a rotator: every live stream that is due has a new record. -/
def rotateAllLiveStreams (server : Server) (rotator : ℕ) (outcome : RotationOutcome) : Server :=
  { server with
    streams := server.streams.mapRows (effect (.rotateAllLiveStreams rotator outcome))
      fun info ↦ (sameStream_effect _ info).streamKey.symm }

/-- `handleSetLatencyMode`. -/
def handleSetLatencyMode (server : Server) (streamKey : String) (body : Option String) :
    Server × Reply :=
  match shouldBindJSON isGiven body with
  | none => (server, .badRequest)
  | some mode =>
    if mode ≠ latencyUltra ∧ mode ≠ latencyStandard ∧ mode ≠ latencyResilient then
      (server, .error 400 "invalid mode, must be ultra/standard/resilient")
    else
      match getStream server.streams streamKey with
      | none => (server, .error 404 "stream not found")
      | some stream =>
        if stream.isLive = false then (server, .error 400 "stream is not live")
        else
          let server := { server with
            streams := createStream server.streams { stream with latencyMode := mode } }
          if slicePanics streamKey then (server, .recovered)
          else (server, .ok (.latencyMode mode (latencyModeConfigs mode)))

/-! ### Configuration -/

/-- `handleGetConfig`. -/
def handleGetConfig (server : Server) : PublicConfig where
  listenAddr := server.cfg.listenAddr
  originAddr := server.cfg.originAddr
  rtmpOriginAddr := server.cfg.rtmpOriginAddr
  cipherSuite := server.cfg.cipherSuite
  hbTimeout := server.cfg.hbTimeout
  staleNodeTimeout := server.cfg.staleNodeTimeout
  regTokenSet := decide (server.cfg.regToken ≠ "")
  adminTokenSet := decide (server.cfg.adminToken ≠ "")
  domainPool := server.cfg.domainPool

/-- The server with another domain pool. -/
def withDomains (server : Server) (domains : List String) : Server :=
  { server with cfg := { server.cfg with domainPool := domains } }

/-- `handleListDomains`: the active index is zero, as `getDomainPool` makes a new pool each time. -/
def handleListDomains (server : Server) : Reply :=
  .ok (.domainPool server.cfg.domainPool (server.cfg.domainPool.head?.getD "") 0)

/-- `handleAddDomain`. -/
def handleAddDomain (server : Server) (body : Option String) : Server × Reply :=
  match shouldBindJSON isGiven body with
  | none => (server, .error 400 "domain required")
  | some domain =>
    let domains := server.cfg.domainPool ++ [domain]
    (withDomains server domains, .ok (.domains domains))

/-- `handleRemoveDomain`. -/
def handleRemoveDomain (server : Server) (domain : String) : Server × Reply :=
  let domains := server.cfg.domainPool.filter fun d ↦ decide (d ≠ domain)
  (withDomains server domains, .ok (.domains domains))

/-- `handleSwitchDomain`: the index is set in a pool that nothing keeps. -/
def handleSwitchDomain (server : Server) (body : Option String) : Server × Reply :=
  match shouldBindJSON isGiven body with
  | none => (server, .error 400 "domain required")
  | some domain =>
    match server.cfg.domainPool.findIdx? fun d ↦ decide (d = domain) with
    | some found => (server, .ok (.switched domain found ("新调度将使用 " ++ domain)))
    | none =>
      (withDomains server (server.cfg.domainPool ++ [domain]),
        .ok (.switched domain server.cfg.domainPool.length ("新调度将使用 " ++ domain)))

/-- One entry of the loop of `handleConfigUpdate`: the server and the keys updated so far. -/
def applyUpdate (updated : Server × List String) (entry : String × Option ℤ) :
    Server × List String :=
  match entry.2 with
  | none => updated
  | some value =>
    if entry.1 = "bw_limit_threshold" ∨ entry.1 = "hb_interval" then
      (updated.1, updated.2 ++ [entry.1])
    else if entry.1 = "stale_node_timeout" ∧ updated.1.cfg.staleNodeTimeout ≠ value then
      ({ updated.1 with cfg := { updated.1.cfg with staleNodeTimeout := value } },
        updated.2 ++ [entry.1])
    else updated

/-- An update of the configuration writes the timeout of stale nodes at most. -/
theorem exists_foldl_applyUpdate (updates : List (String × Option ℤ))
    (updated : Server × List String) :
    ∃ timeout, (updates.foldl applyUpdate updated).1 =
      { updated.1 with cfg := { updated.1.cfg with staleNodeTimeout := timeout } } := by
  induction updates generalizing updated with
  | nil => exact ⟨updated.1.cfg.staleNodeTimeout, rfl⟩
  | cons entry updates ih =>
    obtain ⟨timeout, hrest⟩ := ih (applyUpdate updated entry)
    have hentry : ∃ first, (applyUpdate updated entry).1 =
        { updated.1 with cfg := { updated.1.cfg with staleNodeTimeout := first } } := by
      unfold applyUpdate
      split
      · exact ⟨_, rfl⟩
      · split_ifs <;> exact ⟨_, rfl⟩
    obtain ⟨first, hfirst⟩ := hentry
    exact ⟨timeout, hrest.trans (by rw [hfirst])⟩

/-- `handleConfigUpdate`. -/
def handleConfigUpdate (server : Server) (body : Option (List (String × Option ℤ))) :
    Server × Reply :=
  match body with
  | none => (server, .error 400 "invalid json")
  | some updates =>
    let updated := updates.foldl applyUpdate (server, [])
    (updated.1, .ok (.updated updated.2))

/-! ### Routes -/

/-- `authAdmin`. -/
def authAdmin (cfg : Config) (request : Request) : Bool :=
  decide (request.header "Authorization" = "Bearer " ++ cfg.adminToken)

/-- The handler of an admin route. -/
def handleAdmin (server : Server) (chance : Chance) : AdminRoute → Server × Reply
  | .listNodes => (server, .ok (.nodes server.scheduler.store.nodes.rows))
  | .listStreams => (server, .ok (.streams server.getLiveStreams))
  | .stats => (server, .ok (.stats (handleStats server chance)))
  | .removeNode id => handleRemoveNode server id
  | .setNodeStatus id body => handleSetNodeStatus server id body
  | .listSessions => (server, .ok (.sessions server.sessions.rows))
  | .getConfig => (server, .ok (.config (handleGetConfig server)))
  | .streamStart body => handleAdminStreamStart server chance body
  | .streamStop body => handleAdminStreamStop server body
  | .triggerKeyRotation =>
    (rotateAllLiveStreams server 1 chance.rotation, .ok (.status "rotation triggered"))
  | .setLatencyMode key body => handleSetLatencyMode server key body
  | .approveNode id => handleApproveNode server id
  | .listDomains => (server, handleListDomains server)
  | .addDomain body => handleAddDomain server body
  | .removeDomain domain => handleRemoveDomain server domain
  | .switchDomain body => handleSwitchDomain server body
  | .configUpdate body => handleConfigUpdate server body
  | .auditQuery => (server, .ok .audit)
  | .auditIntegrity => (server, .ok .audit)

end LiveCDN.Controller.AdminHandlers
