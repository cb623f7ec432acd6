import LiveCDN.Controller.HandlerEffects
import LiveCDN.Library.Lease

/-!
# Membership of nodes

Which nodes the controller knows, over whole runs of the server. A stored node is a lease of the
time of its last contact: a registration that is answered grants it, a heartbeat that is answered
renews it, an admin who removes the node revokes it, and each turn of `cleanupLoop` sweeps it with
the timeout of the configuration (`lastContact_step`). Nothing else that the server is asked or does
moves that time or drops the node: status changes, approvals, quality reports, dispatches, rotations
and the recovery of weights do not.

So a node stays known through a run exactly when no step of it removes the node (`known_iff`), and
every node that a viewer is sent to has been in contact with the server in the fifteen seconds
before (`contact_of_dispatched`).
-/

set_option autoImplicit false
set_option relaxedAutoImplicit false

namespace LiveCDN.Controller.NodeLease

open Library.Binary64 Library.KeyedTable Library.GuardedRun Library.Lease NodeStore StreamStore
  Scheduling Endpoint Dispatch KeyRotation OutlierDetection HttpServer Handlers AdminHandlers
  ServerRun HandlerEffects

/-! ### The lease of a node -/

/-- The time of the last contact of a node, if the server knows the node. -/
def lastContact (server : Server) (id : String) : Option ℕ :=
  (server.scheduler.store.getNode id).map NodeInfo.lastHB

/-- What an answered request does to the lease of a node, as the route and the reply have it. -/
def contactEvent (id : String) (now : ℕ) : Route → Reply → Event
  | .register (some registration), .ok (.registered ..) =>
    if registration.request.nodeID = id then .grant now else .idle
  | .heartbeat (some req), .ok (.heartbeat _) => if req.nodeID = id then .renew now else .idle
  | .admin (.removeNode removed), .ok (.status _) => if removed = id then .revoke else .idle
  | _, _ => .idle

/-- What a step does to the lease of a node. -/
def nodeEvent (services : Services) (id : String) (st : State) : Action → Event
  | .request request chance =>
    contactEvent id chance.now request.route (serve services st.server chance request).2
  | .cleanup now => .sweep now (staleTimeout st.server.cfg)
  | _ => .idle

/-! ### What leaves a field of the nodes alone -/

variable {Value : Type} (field : NodeInfo → Value)

/-- Every node is known as before, with the same value of a field. -/
def SameField (before after : Server) : Prop :=
  ∀ id, (after.scheduler.store.getNode id).map field =
    (before.scheduler.store.getNode id).map field

variable {server : Server}

theorem sameField_refl (server : Server) : SameField field server server := fun _ ↦ rfl

/-- Two servers with the same nodes have the same fields. -/
theorem sameField_of_nodes {before after : Server}
    (hnodes : after.scheduler.store.nodes = before.scheduler.store.nodes) :
    SameField field before after := by
  intro id
  rw [MemoryStore.getNode, MemoryStore.getNode, hnodes]

variable {field}

/-- A write to a node that does not touch the field. -/
theorem map_field_update {update : NodeInfo → NodeInfo}
    (hupdate : ∀ node, field (update node) = field node) (found : Option NodeInfo) :
    (found.map update).map field = found.map field := by
  rw [Option.map_map]
  exact congrFun (congrArg Option.map (funext hupdate)) found

/-- A report on a node leaves a field alone that the report does not touch. -/
theorem map_field_updateNode (store : MemoryStore) (nodeID : String)
    {update : NodeInfo → NodeInfo} (hid : ∀ node, (update node).nodeID = node.nodeID)
    (hupdate : ∀ node, field (update node) = field node) (id : String) :
    ((updateNode store nodeID update).getNode id).map field = (store.getNode id).map field := by
  rw [getNode_updateNode store nodeID hid]
  split_ifs
  · exact map_field_update hupdate _
  · rfl

/-- A status change leaves the other fields alone. -/
theorem sameField_setNodeStatus
    (hstatus : ∀ node status, field { node with status := status } = field node) (nodeID : String)
    (status : NodeStatus) :
    SameField field server
      (server.withStore (server.scheduler.store.setNodeStatus nodeID status).1) := by
  intro id
  show ((server.scheduler.store.setNodeStatus nodeID status).1.nodes.find? id).map _ = _
  rw [MemoryStore.find?_setNodeStatus]
  split_ifs
  · exact map_field_update (hstatus · status) _
  · rfl

/-! ### Requests that write to no node but its status -/

variable (field)

theorem sameField_dispatchStream (services : Services) (chance : Chance) (stream : StreamInfo)
    (streamKey clientIP : String) :
    SameField field server (dispatchStream server services chance stream streamKey clientIP).1 := by
  have hstore := store_dispatch server.scheduler services.lookup chance.outcome chance.now clientIP
    "" ""
  apply sameField_of_nodes field
  unfold dispatchStream
  dsimp only
  split
  · split_ifs <;> exact congrArg MemoryStore.nodes hstore
  · split_ifs <;> exact congrArg MemoryStore.nodes hstore

theorem sameField_handleDispatch (services : Services) (chance : Chance)
    (body : Option DispatchRequest) :
    SameField field server (handleDispatch server services chance body).1 := by
  unfold handleDispatch
  cases shouldBindJSON (fun req : DispatchRequest ↦ isGiven req.streamKey && isGiven req.token)
      body with
  | none => exact sameField_refl field server
  | some req =>
    dsimp only
    by_cases htoken : server.mem.validateToken req.token ≠ some req.streamKey
    · rw [if_pos htoken]
      split_ifs <;> exact sameField_refl field server
    · rw [if_neg htoken]
      cases getStream server.streams req.streamKey with
      | none => exact sameField_refl field server
      | some stream =>
        dsimp only
        split_ifs
        · exact sameField_refl field server
        · exact sameField_refl field server
        · exact sameField_dispatchStream field services chance stream req.streamKey req.clientIP

theorem sameField_startStream (chance : Chance) (req : StreamStartRequest) :
    SameField field server (startStream server chance req).1 := by
  unfold startStream
  split
  · exact sameField_refl field server
  · split <;> exact sameField_of_nodes field rfl

theorem sameField_stopStream (streamKey : String) :
    SameField field server (stopStream server streamKey).1 := by
  unfold stopStream
  dsimp only
  split_ifs <;> exact sameField_of_nodes field rfl

theorem sameField_handleStreamStart (chance : Chance) (body : Option StreamStartRequest) :
    SameField field server (handleStreamStart server chance body).1 := by
  unfold handleStreamStart
  split
  · exact sameField_refl field server
  · split_ifs
    · exact sameField_refl field server
    · exact sameField_startStream field chance _

/-- The requests of an admin other than a removal. Assumes: the field is not the status. -/
theorem sameField_handleAdmin
    (hstatus : ∀ node status, field { node with status := status } = field node) (chance : Chance)
    {route : AdminRoute}    (hroute : ∀ id, route ≠ .removeNode id) :
    SameField field server (handleAdmin server chance route).1 := by
  cases route with
  | removeNode id => exact absurd rfl (hroute id)
  | setNodeStatus id body =>
    change SameField field server (handleSetNodeStatus server id body).1
    unfold handleSetNodeStatus
    split
    · exact sameField_refl field server
    · split
      · exact sameField_refl field server
      · next status _ =>
        dsimp only
        split_ifs
        · exact sameField_setNodeStatus hstatus id status
        · exact sameField_refl field server
  | approveNode id =>
    change SameField field server (handleApproveNode server id).1
    unfold handleApproveNode
    rcases NodeAdmission.handleApproveNode_cases server.scheduler.store id with
      ⟨reply, hreply, hresult⟩ | hresult
    · rw [hresult]
      cases reply with
      | nodeNotFound => exact sameField_refl field server
      | notPending => exact sameField_refl field server
      | approved => exact absurd rfl hreply
    · rw [hresult]
      exact sameField_setNodeStatus hstatus id .online
  | streamStart body =>
    change SameField field server (handleAdminStreamStart server chance body).1
    unfold handleAdminStreamStart
    split
    · exact sameField_refl field server
    · exact sameField_startStream field chance _
  | streamStop body =>
    change SameField field server (handleAdminStreamStop server body).1
    unfold handleAdminStreamStop
    split
    · exact sameField_refl field server
    · exact sameField_stopStream field _
  | setLatencyMode key body =>
    change SameField field server (handleSetLatencyMode server key body).1
    unfold handleSetLatencyMode
    split
    · exact sameField_refl field server
    · split
      · exact sameField_refl field server
      · split
        · exact sameField_refl field server
        · dsimp only
          split_ifs
          · exact sameField_refl field server
          · exact sameField_of_nodes field rfl
          · exact sameField_of_nodes field rfl
  | addDomain body =>
    change SameField field server (handleAddDomain server body).1
    unfold handleAddDomain
    split <;> exact sameField_of_nodes field rfl
  | switchDomain body =>
    change SameField field server (handleSwitchDomain server body).1
    unfold handleSwitchDomain
    split
    · exact sameField_refl field server
    · split <;> exact sameField_of_nodes field rfl
  | configUpdate body =>
    change SameField field server (handleConfigUpdate server body).1
    unfold handleConfigUpdate
    split
    · exact sameField_refl field server
    · next updates =>
      exact sameField_of_nodes field (by rw [(foldl_applyUpdate updates (server, [])).2])
  | _ => exact sameField_of_nodes field rfl

/-! ### Contacts -/

theorem lastHB_failedNode (rd : ℚ → ℚ) (fails : ℕ) (node : NodeInfo) :
    (failedNode rd fails node).lastHB = node.lastHB := rfl

theorem lastHB_succeededNode (rd : ℚ → ℚ) (node : NodeInfo) :
    (succeededNode rd node).lastHB = node.lastHB := by
  unfold succeededNode
  split_ifs <;> rfl

theorem lastHB_restedNode (rd : ℚ → ℚ) (store : MemoryStore) (now : ℕ) (node : NodeInfo) :
    (restedNode rd store now node).lastHB = node.lastHB := by
  unfold restedNode
  split_ifs <;> rfl

/-- A quality report is no contact. -/
theorem sameField_recordQuality (now : ℕ) (report : QualityReport) :
    SameField NodeInfo.lastHB server { server with
      scheduler := recordQuality server.scheduler now report } := by
  intro id
  unfold recordQuality
  split_ifs
  · exact map_field_updateNode _ _ (nodeID_failedNode _ _) (lastHB_failedNode _ _) id
  · rfl
  · exact map_field_updateNode _ _ (nodeID_succeededNode _) (lastHB_succeededNode _) id
  · rfl

theorem sameField_handleQualityReport (chance : Chance) (body : Option QualityReport) :
    SameField NodeInfo.lastHB server (handleQualityReport server chance body).1 := by
  unfold handleQualityReport
  split
  · exact sameField_refl _ server
  · next report =>
    have hrecorded : SameField NodeInfo.lastHB server {
        (server.touchSession chance.now report.sessionID).1 with
        scheduler := recordQuality (server.touchSession chance.now report.sessionID).1.scheduler
          chance.now report } := by
      intro id
      rw [Server.scheduler_touchSession]
      exact sameField_recordQuality chance.now report id
    dsimp only
    split_ifs
    · exact sameField_refl _ server
    · exact sameField_of_nodes _ (by rw [Server.scheduler_touchSession])
    · split <;> exact hrecorded

/-- The contacts after a registration is bound. -/
theorem lastContact_registerNode (now : ℕ) (req : RegisterRequest) (id : String) :
    lastContact (server.withStore (server.scheduler.store.registerNode now req)) id =
      if req.nodeID = id then some now else lastContact server id := by
  show ((server.scheduler.store.registerNode now req).nodes.find? id).map _ = _
  rw [MemoryStore.find?_registerNode]
  by_cases hid : id = req.nodeID
  · rw [if_pos hid, if_pos hid.symm]
    cases server.scheduler.store.nodes.find? id <;> rfl
  · rw [if_neg hid, if_neg (Ne.symm hid)]
    rfl

theorem lastContact_handleRegister (chance : Chance) (body : Option Registration) (id : String) :
    lastContact (handleRegister server chance body).1 id =
      after (lastContact server id)
        (contactEvent id chance.now (.register body) (handleRegister server chance body).2) := by
  unfold handleRegister
  cases hbound : shouldBindJSON registrationRequired body with
  | none => cases body <;> rfl
  | some registration =>
    obtain ⟨rfl, -⟩ := shouldBindJSON_eq_some hbound
    dsimp only
    by_cases htoken : registration.token ≠ server.cfg.regToken
    · rw [if_pos htoken]
      rfl
    · rw [if_neg htoken, contactEvent]
      show lastContact (server.withStore
        (server.scheduler.store.registerNode chance.now registration.request)) id = _
      rw [lastContact_registerNode]
      split_ifs <;> rfl

theorem lastContact_handleHeartbeat (chance : Chance) (request : Request)
    (body : Option HeartbeatRequest) (id : String) :
    lastContact (handleHeartbeat server chance request body).1 id =
      after (lastContact server id) (contactEvent id chance.now (.heartbeat body)
        (handleHeartbeat server chance request body).2) := by
  unfold handleHeartbeat
  split_ifs
  · cases body <;> rfl
  · cases hbound : shouldBindJSON (fun req : HeartbeatRequest ↦ isGiven req.nodeID) body with
    | none => cases body <;> rfl
    | some req =>
      obtain ⟨rfl, -⟩ := shouldBindJSON_eq_some hbound
      dsimp only
      cases hupdate : server.scheduler.store.updateHeartbeat chance.now req with
      | error message => rfl
      | ok store =>
        show (store.nodes.find? id).map NodeInfo.lastHB = after _ (if req.nodeID = id then _ else _)
        rw [MemoryStore.find?_updateHeartbeat hupdate]
        by_cases hid : id = req.nodeID
        · rw [if_pos hid, if_pos hid.symm, after, lastContact, MemoryStore.getNode, Option.map_map,
            Option.map_map]
          rfl
        · rw [if_neg hid, if_neg (Ne.symm hid)]
          rfl

theorem lastContact_handleRemoveNode (now : ℕ) (removed id : String) :
    lastContact (handleRemoveNode server removed).1 id =
      after (lastContact server id)
        (contactEvent id now (.admin (.removeNode removed))
          (handleRemoveNode server removed).2) := by
  have hfound := MemoryStore.find?_removeNode server.scheduler.store removed id
  unfold handleRemoveNode
  dsimp only
  split_ifs
  · show ((server.scheduler.store.removeNode removed).1.nodes.find? id).map _ = after _ (ite _ _ _)
    rw [hfound]
    by_cases hid : id = removed
    · rw [if_pos hid, if_pos hid.symm]
      rfl
    · rw [if_neg hid, if_neg (Ne.symm hid)]
      rfl
  · rfl

/-- The contacts after a request are as the route and the reply have it. -/
theorem lastContact_serve (services : Services) (chance : Chance) (request : Request)
    (id : String) :
    lastContact (serve services server chance request).1 id =
      after (lastContact server id)
        (contactEvent id chance.now request.route (serve services server chance request).2) := by
  obtain ⟨route, header, query⟩ := request
  cases route with
  | register body => exact lastContact_handleRegister chance body id
  | heartbeat body => exact lastContact_handleHeartbeat chance _ body id
  | dispatch body => exact sameField_handleDispatch _ services chance body id
  | qualityReport body => exact sameField_handleQualityReport chance body id
  | streamStart body => exact sameField_handleStreamStart _ chance body id
  | endSession body =>
    change lastContact (handleEndSession server body).1 id = lastContact server id
    unfold handleEndSession
    split <;> rfl
  | streamStop =>
    change lastContact (handleStreamStop server _).1 id = lastContact server id
    unfold handleStreamStop
    dsimp only
    split_ifs
    · rfl
    · exact sameField_stopStream _ _ id
  | admin route =>
    unfold serve
    dsimp only
    split_ifs
    · cases route with
      | removeNode removed => exact lastContact_handleRemoveNode chance.now removed id
      | _ => exact sameField_handleAdmin _ (fun _ _ ↦ rfl) chance (by simp) id
    · cases route <;> rfl
  | _ => rfl

/-- The contacts after `RemoveStaleNodes`. -/
theorem map_lastHB_removeStale (store : MemoryStore) (now : ℕ) (timeout : ℤ) (id : String) :
    ((removeStale store now timeout).getNode id).map NodeInfo.lastHB =
      after ((store.getNode id).map NodeInfo.lastHB) (.sweep now timeout) := by
  have hfiltered : ((store.getNode id).filter fun node ↦
        !expired now timeout node.lastHB).map NodeInfo.lastHB =
      after ((store.getNode id).map NodeInfo.lastHB) (.sweep now timeout) := by
    rw [after, Option.filter_map]
    rfl
  rw [← hfiltered, removeStale]
  congr 1
  split_ifs with hnegative
  · have hpassed : ∀ node : NodeInfo, expired now timeout node.lastHB = true := fun node ↦
      decide_eq_true (by omega)
    refine (Option.filter_eq_none_iff.mpr fun node _ ↦ ?_).symm
    simp [hpassed]
  · rw [MemoryStore.getNode, MemoryStore.find?_removeStaleNodes]
    congr 1
    funext node
    congr 1
    exact decide_eq_decide.mpr (by omega)

/-- The contacts after a turn of `cleanupLoop`. -/
theorem lastContact_cleanup (now : ℕ) (id : String) :
    lastContact (ServerRun.cleanup server now) id =
      after (lastContact server id) (.sweep now (staleTimeout server.cfg)) := by
  unfold lastContact
  rw [← map_lastHB_removeStale]
  show ((restNodes nearest (removeStale server.scheduler.store now (staleTimeout server.cfg)) now
    ).nodes.find? id).map NodeInfo.lastHB = _
  rw [restNodes, Table.find?_mapRows]
  exact map_field_update (lastHB_restedNode _ _ now) _

/-- What a step does to what is known of a node is what its event does to the lease. -/
theorem lastContact_step (services : Services) (id : String) (st : State) (action : Action) :
    lastContact (step services st action).server id =
      after (lastContact st.server id) (nodeEvent services id st action) := by
  cases action with
  | request request chance =>
    show lastContact (st.after (serve services st.server chance request)).server id = _
    rw [server_after]
    exact lastContact_serve services chance request id
  | cleanup now => exact lastContact_cleanup now id
  | cleanupSticky now => rfl
  | rotateKeys outcome => rfl
  | tickLatency now =>
    show lastContact (ServerRun.tickLatency st.server now) id = lastContact st.server id
    unfold ServerRun.tickLatency
    split <;> rfl

/-! ### Runs -/

/-- The server knows a node. -/
def Knows (server : Server) (id : String) : Prop :=
  (server.scheduler.store.getNode id).isSome = true

/-- A step that does not remove a node: it is no removal of the node by an admin, and no cleanup
that comes too long after the last contact of the node. -/
def Keeps (id : String) (st : State) : Action → Prop
  | .request request _ =>
    request.route = .admin (.removeNode id) → authAdmin st.server.cfg request = false
  | .cleanup now =>
    ∀ time ∈ lastContact st.server id, ((now - time : ℕ) : ℤ) ≤ staleTimeout st.server.cfg
  | _ => True

theorem knows_iff_isSome_lastContact (server : Server) (id : String) :
    (lastContact server id).isSome = true ↔ Knows server id := by
  rw [lastContact, Option.isSome_map, Knows]

/-- An answered request revokes the lease of a node exactly when it is a removal of the node. -/
theorem survives_contactEvent_iff {held : Option ℕ} {id : String} {now : ℕ} {route : Route}
    {reply : Reply} :
    Survives held (contactEvent id now route reply) ↔
      ∀ text, route = .admin (.removeNode id) → reply ≠ .ok (.status text) := by
  unfold contactEvent
  split
  · split_ifs <;> simp [Survives]
  · split_ifs <;> simp [Survives]
  · next removed text =>
    split_ifs with hid
    · simp [Survives, hid]
    · simp [Survives, hid]
  · next hother =>
    refine iff_of_true trivial fun text hroute hreply ↦ ?_
    exact hother id text hroute hreply

/-- An admin who is let through removes a known node. -/
theorem handleRemoveNode_of_knows {id : String} (hknows : Knows server id) :
    (handleRemoveNode server id).2 = .ok (.status "removed") := by
  obtain ⟨node, hnode⟩ := Option.isSome_iff_exists.mp hknows
  have hfound : server.scheduler.store.nodes.find? id = some node := hnode
  simp only [handleRemoveNode, MemoryStore.removeNode, hfound, if_true]

/-- The lease of a known node survives the steps that do not remove the node. -/
theorem survives_iff_keeps {services : Services} {id : String} {st : State}
    (hknows : Knows st.server id) (action : Action) :
    Survives (lastContact st.server id) (nodeEvent services id st action) ↔ Keeps id st action := by
  cases action with
  | request request chance =>
    rw [nodeEvent, survives_contactEvent_iff, Keeps]
    constructor
    · intro hkept hroute
      by_contra hauth
      refine hkept "removed" hroute ?_
      rw [serve, hroute]
      dsimp only
      rw [if_pos (Bool.eq_true_of_not_eq_false hauth)]
      exact handleRemoveNode_of_knows hknows
    · intro hauth text hroute
      rw [serve, hroute]
      dsimp only
      rw [hauth hroute, if_neg Bool.false_ne_true]
      nofun
  | cleanup now => exact Iff.rfl
  | _ => exact Iff.rfl

/-- A node is known in every state of a run exactly when it is known at the start, no admin removes
it, and each cleanup comes within the timeout after its last contact. -/
theorem known_iff (services : Services) (id : String) (start : State) (actions : List Action) :
    (∀ taken, taken <+: actions → Knows (run (step services) start taken).server id) ↔
      Knows start.server id ∧ EachStepMeets (step services) (Keeps id) start actions := by
  have hheld : (∀ taken, taken <+: actions →
      (lastContact (run (step services) start taken).server id).isSome = true) ↔ _ :=
    held_throughout_iff (step services) (fun st ↦ lastContact st.server id)
      (nodeEvent services id) (fun _ ↦ True) (fun _ _ _ ↦ trivial)
      (fun st action _ ↦ lastContact_step services id st action) trivial actions
  simp only [knows_iff_isSome_lastContact] at hheld
  rw [hheld]
  refine and_congr_right fun hknows ↦ ?_
  refine eachStepMeets_iff_of_kept (step services)
    (fun st action (hst : Knows st.server id) hsurvives ↦ ?_)
    (fun st action hst ↦ survives_iff_keeps hst action) hknows actions
  rw [← knows_iff_isSome_lastContact, lastContact_step]
  exact (isSome_after_iff ((knows_iff_isSome_lastContact _ _).mpr hst) _).mpr hsurvives

/-! ### Viewers are sent to nodes in contact -/

/-- The nodes that a reply sends a viewer to. -/
def sentTo : Reply → List NodeEndpoint
  | .ok (.dispatched response) => response.nodes
  | _ => []

theorem mem_sentTo_iff {endpoint : NodeEndpoint} {reply : Reply} :
    endpoint ∈ sentTo reply ↔
      ∃ response, reply = .ok (.dispatched response) ∧ endpoint ∈ response.nodes := by
  constructor
  · intro hendpoint
    unfold sentTo at hendpoint
    split at hendpoint
    · next response => exact ⟨response, rfl, hendpoint⟩
    · exact absurd hendpoint List.not_mem_nil
  · rintro ⟨response, rfl, hendpoint⟩
    exact hendpoint

theorem nodes_of_dispatchStream {services : Services} {chance : Chance} {stream : StreamInfo}
    {streamKey clientIP : String} {response : DispatchResponse}
    (hreply : (dispatchStream server services chance stream streamKey clientIP).2 =
      .ok (.dispatched response)) :
    (server.scheduler.dispatch services.lookup chance.outcome chance.now clientIP "" "").1 =
      .ok response.nodes := by
  unfold dispatchStream at hreply
  dsimp only at hreply
  cases hresult : (server.scheduler.dispatch services.lookup chance.outcome chance.now clientIP ""
      "").1 with
  | error err =>
    rw [hresult] at hreply
    dsimp only at hreply
    split_ifs at hreply
  | ok nodes =>
    rw [hresult] at hreply
    dsimp only at hreply
    by_cases hslice : LatencyControl.slicePanics streamKey = true
    · rw [if_pos hslice] at hreply
      cases hreply
    · rw [if_neg hslice] at hreply
      rw [← Body.dispatched.inj (Reply.ok.inj hreply)]

/-- The nodes of a dispatch that is answered are those the scheduler has chosen. -/
theorem dispatch_of_dispatched {services : Services} {chance : Chance}
    {body : Option DispatchRequest} {response : DispatchResponse}
    (hreply : (handleDispatch server services chance body).2 = .ok (.dispatched response)) :
    ∃ req, body = some req ∧ (server.scheduler.dispatch services.lookup chance.outcome chance.now
      req.clientIP "" "").1 = .ok response.nodes := by
  unfold handleDispatch at hreply
  cases hbound : shouldBindJSON (fun req : DispatchRequest ↦
      isGiven req.streamKey && isGiven req.token) body with
  | none =>
    rw [hbound] at hreply
    cases hreply
  | some req =>
    rw [hbound] at hreply
    refine ⟨req, (shouldBindJSON_eq_some hbound).1, ?_⟩
    dsimp only at hreply
    by_cases htoken : server.mem.validateToken req.token ≠ some req.streamKey
    · rw [if_pos htoken] at hreply
      split_ifs at hreply
    · rw [if_neg htoken] at hreply
      cases hstream : getStream server.streams req.streamKey with
      | none =>
        rw [hstream] at hreply
        cases hreply
      | some stream =>
        rw [hstream] at hreply
        dsimp only at hreply
        by_cases hlive : stream.isLive = false
        · rw [if_pos hlive] at hreply
          cases hreply
        rw [if_neg hlive] at hreply
        by_cases hfull : isCapacityFull server.scheduler.store chance.now = true
        · rw [if_pos hfull] at hreply
          cases hreply
        rw [if_neg hfull] at hreply
        exact nodes_of_dispatchStream hreply

/-- Every node that a viewer is sent to is known, with a contact in the last fifteen seconds. -/
theorem lastContact_of_sentTo {services : Services} {chance : Chance}
    {body : Option DispatchRequest} {endpoint : NodeEndpoint}
    (hendpoint : endpoint ∈ sentTo (handleDispatch server services chance body).2) :
    ∃ time, lastContact server endpoint.nodeID = some time ∧ chance.now - time ≤ 15 * second := by
  obtain ⟨response, hreply, hnode⟩ := mem_sentTo_iff.mp hendpoint
  obtain ⟨req, -, hnodes⟩ := dispatch_of_dispatched hreply
  obtain ⟨node, hfound, hhealthy⟩ := isNodeHealthy_of_dispatch hnodes hnode
  refine ⟨node.lastHB, ?_, (isNodeHealthy_iff.mp hhealthy).2.1⟩
  rw [lastContact, MemoryStore.getNode, hfound, Option.map_some]

/-- A node that a step took into contact stays known while the steps behind it leave its lease
alone, so none of them removes it. -/
theorem keeps_of_leavesAlone {services : Services} {id : String} {st : State}
    (hknows : Knows st.server id) {actions : List Action}
    (halone : EachStepMeets (step services)
      (fun st action ↦ LeavesAlone (lastContact st.server id) (nodeEvent services id st action)) st
      actions) :
    EachStepMeets (step services) (Keeps id) st actions := by
  refine eachStepMeets_of_kept (step services)
    (fun st action (hst : Knows st.server id) hleft ↦ ?_) ?_ hknows halone
  · rw [← knows_iff_isSome_lastContact, lastContact_step, after_of_leavesAlone hleft]
    exact (knows_iff_isSome_lastContact _ _).mpr hst
  · exact fun st action hst hleft ↦
      (survives_iff_keeps hst action).mp (survives_of_leavesAlone hleft)

/-- In every run from a new server, each node that a viewer is sent to has registered, or has sent
a heartbeat that was answered, in the fifteen seconds before, and no step since then has removed
it. -/
theorem contact_of_sentTo (services : Services) (cfg : Config) (actions : List Action)
    {chance : Chance} {body : Option DispatchRequest} {endpoint : NodeEndpoint}
    (hendpoint : endpoint ∈ sentTo (handleDispatch
      (run (step services) (.initial cfg) actions).server services chance body).2) :
    ∃ earlier contact since time, actions = earlier ++ contact :: since ∧
      Takes (lastContact (run (step services) (.initial cfg) earlier).server endpoint.nodeID) time
        (nodeEvent services endpoint.nodeID (run (step services) (.initial cfg) earlier) contact) ∧
      chance.now - time ≤ 15 * second ∧
      EachStepMeets (step services) (Keeps endpoint.nodeID)
        (run (step services) (.initial cfg) (earlier ++ [contact])) since := by
  obtain ⟨time, hcontact, hrecent⟩ := lastContact_of_sentTo hendpoint
  have hheld : lastContact (run (step services) (.initial cfg) actions).server endpoint.nodeID =
      some time ↔ _ :=
    held_iff (step services) (fun st ↦ lastContact st.server endpoint.nodeID)
      (nodeEvent services endpoint.nodeID) (fun _ ↦ True) (fun _ _ _ ↦ trivial)
      (fun st action _ ↦ lastContact_step services endpoint.nodeID st action) trivial actions
  rcases hheld.mp hcontact with ⟨hnew, -⟩ | ⟨earlier, contact, since, rfl, htakes, halone⟩
  · exact nomatch hnew
  · refine ⟨earlier, contact, since, time, rfl, htakes, hrecent, ?_⟩
    rw [run_append]
    refine keeps_of_leavesAlone ?_ halone
    show Knows (step services (run (step services) (.initial cfg) earlier) contact).server _
    rw [← knows_iff_isSome_lastContact, lastContact_step, after_eq_some_iff.mpr (Or.inl htakes)]
    rfl

/-- A stream is started, and `edge-1` registers and is approved. -/
def approvedEdge : List Action :=
  [.request (plainRequest (.streamStart (some ⟨"title", "admin", ""⟩))) plainChance,
    .request (plainRequest (.register (some ⟨"reg", edgeRequest "edge-1"⟩))) plainChance,
    .request (adminRequest (.approveNode "edge-1")) plainChance]

theorem contact_of_sentTo_witness :
    ∃ endpoint ∈ sentTo (handleDispatch
        (run (step plainServices) (.initial plainConfig) approvedEdge).server plainServices
        plainChance (some ⟨plainChance.streamKey, plainChance.viewerToken, "192.0.2.7"⟩)).2,
      ∃ earlier contact since time, approvedEdge = earlier ++ contact :: since ∧
        Takes (lastContact (run (step plainServices) (.initial plainConfig) earlier).server
          endpoint.nodeID) time (nodeEvent plainServices endpoint.nodeID
            (run (step plainServices) (.initial plainConfig) earlier) contact) ∧
        plainChance.now - time ≤ 15 * second ∧
        EachStepMeets (step plainServices) (Keeps endpoint.nodeID)
          (run (step plainServices) (.initial plainConfig) (earlier ++ [contact])) since := by
  obtain ⟨endpoint, hendpoint⟩ := List.exists_mem_of_ne_nil (sentTo (handleDispatch
    (run (step plainServices) (.initial plainConfig) approvedEdge).server plainServices
    plainChance (some ⟨plainChance.streamKey, plainChance.viewerToken, "192.0.2.7"⟩)).2)
    (by decide +kernel)
  exact ⟨endpoint, hendpoint, contact_of_sentTo plainServices plainConfig approvedEdge hendpoint⟩

end LiveCDN.Controller.NodeLease
