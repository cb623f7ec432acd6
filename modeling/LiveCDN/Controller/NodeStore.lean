import LiveCDN.Library.Binary64
import LiveCDN.Library.KeyedTable

/-!
# Nodes of the controller

The node side of the controller's store: the record of a node (`common/types.go`), the health test
(`IsNodeHealthy` of `common/utils.go`) and the store operations on nodes and complaints
(`controller/store.go`). A store holds its nodes in a table keyed by node id, so two rows never
share an id.

The operations that iterate over the nodes are `getHealthyNodes` and `removeStaleNodes`;
`mem_getHealthyNodes` characterises the first, and the lemmas `find?_…` give the node that is found
after each operation.

Scope. Every operation is atomic and reads the clock once, as `now`. A time is a number of
nanoseconds and Go's zero `time.Time` is `none` where it can be read. A floating-point number is the
rational that it stands for; the bandwidth usage and the thresholds are rounded to binary64 as in
the code, and the effective weight has a scope of its own (`OutlierDetection`).
-/

set_option autoImplicit false
set_option relaxedAutoImplicit false

namespace LiveCDN.Controller.NodeStore

open Library.Binary64 Library.KeyedTable

/-! ### Time -/

/-- `time.Second`. -/
def second : ℕ := 1000000000

/-- `time.Minute`. -/
def minute : ℕ := 60 * second

/-- `time.Since(t) > d`. The zero time lies further back than any duration. -/
def sinceExceeds (now : ℕ) (time : Option ℕ) (duration : ℕ) : Bool :=
  match time with
  | none => true
  | some time => decide (now - time > duration)

/-- `time.Now().Before(t)`. -/
def isBefore (now : ℕ) (time : Option ℕ) : Bool :=
  match time with
  | none => false
  | some time => decide (now < time)

/-! ### Records -/

/-- `NodeStatus`. -/
inductive NodeStatus
  | online
  | busy
  | offline
  | cooling
  | pending
  deriving DecidableEq, Repr

/-- `NodeInfo`. -/
structure NodeInfo where
  nodeID : String
  publicIP : String
  publicIPv6 : String
  port : ℤ
  region : String
  isp : String
  bwUsed : ℤ
  bwLimit : ℤ
  onlineUsers : ℤ
  rtt : ℤ
  lossRate : ℚ
  status : NodeStatus
  lastHB : ℕ
  domain : String
  protocol : String
  wsPath : String
  tlsEnabled : Bool
  cascadeEnabled : Bool
  cascadeUpstream : Bool
  cascadeTier : ℤ
  cascadeDepth : ℤ
  childrenCount : ℤ
  cascadeEgressBW : ℤ
  currentUpstream : String
  effectiveWeight : ℚ
  consecutiveFails : ℕ
  deriving DecidableEq, Repr

/-- `RegisterRequest`, without the token the handler has checked. -/
structure RegisterRequest where
  nodeID : String
  publicIP : String
  publicIPv6 : String
  port : ℤ
  region : String
  isp : String
  bwLimit : ℤ
  domain : String
  protocol : String
  wsPath : String
  tlsEnabled : Bool
  cascadeEnabled : Bool
  cascadeUpstream : Bool
  deriving DecidableEq, Repr

/-- The fields of `HeartbeatRequest` that the store reads. -/
structure HeartbeatRequest where
  nodeID : String
  bwUsed : ℤ
  bwLimit : ℤ
  onlineUsers : ℤ
  rtt : ℤ
  lossRate : ℚ
  cascadeDepth : ℤ
  childrenCount : ℤ
  cascadeEgressBW : ℤ
  currentUpstream : String
  deriving DecidableEq, Repr

/-- `complaintWindow`. -/
structure ComplaintWindow where
  count : ℕ
  firstAt : Option ℕ
  cooldown : Option ℕ
  deriving DecidableEq, Repr

/-- The nodes and complaints of `MemoryStore`. -/
structure MemoryStore where
  nodes : Table NodeInfo.nodeID
  complaints : String → Option ComplaintWindow

/-- `NewMemoryStore`. -/
def newMemoryStore : MemoryStore := ⟨Table.empty, fun _ ↦ none⟩

/-! ### Health -/

/-- The bandwidth usage of a node, `float64(node.BWUsed) / float64(node.BWLimit)`. -/
def NodeInfo.usage (node : NodeInfo) : ℚ := div (nearest node.bwUsed) (nearest node.bwLimit)

/-- `IsNodeHealthy`. -/
def isNodeHealthy (now : ℕ) (node : NodeInfo) : Bool :=
  if node.status = .offline ∨ node.status = .cooling ∨ node.status = .pending then false
  else if now - node.lastHB > 15 * second then false
  else if node.bwLimit > 0 ∧ node.usage > nearest (7 / 10) then false
  else if node.lossRate > nearest (1 / 20) then false
  else true

/-- What the health test accepts. -/
theorem isNodeHealthy_iff {now : ℕ} {node : NodeInfo} :
    isNodeHealthy now node = true ↔
      (node.status = .online ∨ node.status = .busy) ∧ now - node.lastHB ≤ 15 * second ∧
        (0 < node.bwLimit → node.usage ≤ nearest (7 / 10)) ∧
          node.lossRate ≤ nearest (1 / 20) := by
  have hstatus : (node.status = .online ∨ node.status = .busy) ↔
      ¬ (node.status = .offline ∨ node.status = .cooling ∨ node.status = .pending) := by
    cases node.status <;> decide
  rw [hstatus, isNodeHealthy]
  split_ifs with hdown hstale hfull hlossy
  · exact iff_of_false nofun fun h ↦ h.1 hdown
  · exact iff_of_false nofun fun h ↦ not_le.mpr hstale h.2.1
  · exact iff_of_false nofun fun h ↦ not_le.mpr hfull.2 (h.2.2.1 hfull.1)
  · exact iff_of_false nofun fun h ↦ not_le.mpr hlossy h.2.2.2
  · refine iff_of_true rfl ⟨hdown, not_lt.mp hstale, fun hlimit ↦ ?_, not_lt.mp hlossy⟩
    exact not_lt.mp fun husage ↦ hfull ⟨hlimit, husage⟩

namespace MemoryStore

/-! ### Complaints -/

/-- `RecordComplaint`: three complaints in five minutes start a cooldown of ten minutes. -/
def recordComplaint (store : MemoryStore) (now : ℕ) (nodeID : String) : MemoryStore :=
  let window := (store.complaints nodeID).getD ⟨0, none, none⟩
  let window := if sinceExceeds now window.firstAt (5 * minute) then
    { window with count := 0, firstAt := some now } else window
  let window := { window with count := window.count + 1 }
  let window := if window.count ≥ 3 then
    { window with cooldown := some (now + 10 * minute), count := 0 } else window
  { store with complaints := Function.update store.complaints nodeID (some window) }

/-- `isCooling`. -/
def isCooling (store : MemoryStore) (now : ℕ) (nodeID : String) : Bool :=
  match store.complaints nodeID with
  | none => false
  | some window => isBefore now window.cooldown

/-! ### Nodes -/

/-- `GetNode`. -/
def getNode (store : MemoryStore) (id : String) : Option NodeInfo :=
  store.nodes.find? id

/-- The node of a first registration. -/
def newNode (now : ℕ) (req : RegisterRequest) : NodeInfo where
  nodeID := req.nodeID
  publicIP := req.publicIP
  publicIPv6 := req.publicIPv6
  port := req.port
  region := req.region
  isp := req.isp
  bwUsed := 0
  bwLimit := req.bwLimit
  onlineUsers := 0
  rtt := 0
  lossRate := 0
  status := .pending
  lastHB := now
  domain := req.domain
  protocol := req.protocol
  wsPath := req.wsPath
  tlsEnabled := req.tlsEnabled
  cascadeEnabled := req.cascadeEnabled
  cascadeUpstream := req.cascadeUpstream
  cascadeTier := 0
  cascadeDepth := 0
  childrenCount := 0
  cascadeEgressBW := 0
  currentUpstream := ""
  effectiveWeight := 1 / 2
  consecutiveFails := 0

/-- A node after a repeated registration: the addresses are updated, the cascade flags are not, and
an offline node is online again. -/
def reconnectedNode (now : ℕ) (req : RegisterRequest) (existing : NodeInfo) : NodeInfo :=
  { existing with
    publicIP := req.publicIP
    publicIPv6 := req.publicIPv6
    port := req.port
    region := req.region
    isp := req.isp
    bwLimit := req.bwLimit
    domain := req.domain
    protocol := req.protocol
    wsPath := req.wsPath
    tlsEnabled := req.tlsEnabled
    lastHB := now
    status := if existing.status = .offline then .online else existing.status }

/-- `RegisterNode`. -/
def registerNode (store : MemoryStore) (now : ℕ) (req : RegisterRequest) : MemoryStore :=
  match store.nodes.find? req.nodeID with
  | some existing => { store with nodes := store.nodes.put (reconnectedNode now req existing) }
  | none => { store with nodes := store.nodes.put (newNode now req) }

/-- A node after a heartbeat. -/
def heartbeatNode (now : ℕ) (req : HeartbeatRequest) (node : NodeInfo) : NodeInfo :=
  { node with
    bwUsed := req.bwUsed
    bwLimit := req.bwLimit
    onlineUsers := req.onlineUsers
    rtt := req.rtt
    lossRate := req.lossRate
    lastHB := now
    status := .online
    cascadeDepth := req.cascadeDepth
    childrenCount := req.childrenCount
    cascadeEgressBW := req.cascadeEgressBW
    currentUpstream := req.currentUpstream }

/-- `UpdateHeartbeat`. -/
def updateHeartbeat (store : MemoryStore) (now : ℕ) (req : HeartbeatRequest) :
    Except String MemoryStore :=
  match store.nodes.find? req.nodeID with
  | none => .error ("node " ++ req.nodeID ++ " not registered")
  | some node => .ok { store with nodes := store.nodes.put (heartbeatNode now req node) }

/-- `GetHealthyNodes`, in the order of the table. -/
def getHealthyNodes (store : MemoryStore) (now : ℕ) : List NodeInfo :=
  store.nodes.rows.filter fun node ↦ isNodeHealthy now node && !store.isCooling now node.nodeID

/-- `RemoveStaleNodes`: the store and the number of nodes removed. -/
def removeStaleNodes (store : MemoryStore) (now timeout : ℕ) : MemoryStore × ℕ :=
  let nodes := store.nodes.keep fun node ↦ !decide (now - node.lastHB > timeout)
  ({ store with nodes := nodes }, store.nodes.rows.length - nodes.rows.length)

/-- `RemoveNode`: the store and whether the node was there. -/
def removeNode (store : MemoryStore) (nodeID : String) : MemoryStore × Bool :=
  match store.nodes.find? nodeID with
  | some _ => ({ store with nodes := store.nodes.remove nodeID }, true)
  | none => (store, false)

/-- `SetNodeStatus`: the store and whether the node was there. -/
def setNodeStatus (store : MemoryStore) (nodeID : String) (status : NodeStatus) :
    MemoryStore × Bool :=
  match store.nodes.find? nodeID with
  | some node => ({ store with nodes := store.nodes.put { node with status := status } }, true)
  | none => (store, false)

/-! ### What is found after each operation -/

/-- A node is in `GetHealthyNodes` exactly when it is stored, healthy and not cooling. -/
theorem mem_getHealthyNodes {store : MemoryStore} {now : ℕ} {node : NodeInfo} :
    node ∈ store.getHealthyNodes now ↔
      store.nodes.find? node.nodeID = some node ∧ isNodeHealthy now node = true ∧
        store.isCooling now node.nodeID = false := by
  rw [getHealthyNodes, List.mem_filter, Table.mem_rows_iff_find?, Bool.and_eq_true,
    Bool.not_eq_true']

/-- The healthy nodes have distinct ids. -/
theorem nodup_getHealthyNodes (store : MemoryStore) (now : ℕ) :
    ((store.getHealthyNodes now).map NodeInfo.nodeID).Nodup :=
  store.nodes.distinct.sublist (List.filter_sublist.map _)

/-- The nodes after a registration. -/
theorem find?_registerNode (store : MemoryStore) (now : ℕ) (req : RegisterRequest) (id : String) :
    (store.registerNode now req).nodes.find? id =
      if id = req.nodeID then
        some ((store.nodes.find? id).elim (newNode now req) (reconnectedNode now req))
      else store.nodes.find? id := by
  unfold registerNode
  cases hfound : store.nodes.find? req.nodeID with
  | none =>
    change (store.nodes.put (newNode now req)).find? id = _
    rw [Table.find?_put _ (show (newNode now req).nodeID = req.nodeID from rfl)]
    split_ifs with hid
    · rw [hid, hfound]
      rfl
    · rfl
  | some existing =>
    have hkey : (reconnectedNode now req existing).nodeID = req.nodeID :=
      (Table.find?_eq_some_iff.mp hfound).2
    change (store.nodes.put (reconnectedNode now req existing)).find? id = _
    rw [Table.find?_put _ hkey]
    split_ifs with hid
    · rw [hid, hfound]
      rfl
    · rfl

/-- The nodes after a heartbeat. -/
theorem find?_updateHeartbeat {store store' : MemoryStore} {now : ℕ} {req : HeartbeatRequest}
    (hupdate : store.updateHeartbeat now req = .ok store') (id : String) :
    store'.nodes.find? id =
      if id = req.nodeID then (store.nodes.find? id).map (heartbeatNode now req)
      else store.nodes.find? id := by
  rw [← Table.find?_rewrite store.nodes (heartbeatNode now req) fun _ ↦ rfl]
  unfold updateHeartbeat at hupdate
  cases hfound : store.nodes.find? req.nodeID with
  | none =>
    rw [hfound] at hupdate
    exact nomatch hupdate
  | some node =>
    rw [hfound] at hupdate
    obtain rfl := Except.ok.inj hupdate
    rfl

/-- The nodes after a status change. -/
theorem find?_setNodeStatus (store : MemoryStore) (nodeID : String) (status : NodeStatus)
    (id : String) :
    (store.setNodeStatus nodeID status).1.nodes.find? id =
      if id = nodeID then (store.nodes.find? id).map fun node ↦ { node with status := status }
      else store.nodes.find? id := by
  rw [← Table.find?_rewrite store.nodes (fun node ↦ { node with status := status }) fun _ ↦ rfl]
  unfold setNodeStatus
  cases store.nodes.find? nodeID with
  | none => rfl
  | some node => rfl

/-- The nodes after a removal. -/
theorem find?_removeNode (store : MemoryStore) (nodeID id : String) :
    (store.removeNode nodeID).1.nodes.find? id =
      if id = nodeID then none else store.nodes.find? id := by
  unfold removeNode
  cases hfound : store.nodes.find? nodeID with
  | none =>
    split_ifs with hid
    · rw [hid, hfound]
    · rfl
  | some node => exact Table.find?_remove store.nodes nodeID id

/-- The nodes after the stale ones are removed. -/
theorem find?_removeStaleNodes (store : MemoryStore) (now timeout : ℕ) (id : String) :
    (store.removeStaleNodes now timeout).1.nodes.find? id =
      (store.nodes.find? id).filter fun node ↦ !decide (now - node.lastHB > timeout) :=
  Table.find?_keep store.nodes _ id

end MemoryStore

end LiveCDN.Controller.NodeStore
