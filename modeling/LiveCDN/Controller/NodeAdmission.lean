import LiveCDN.Controller.Dispatch
import LiveCDN.Controller.Mesh
import LiveCDN.Library.GuardedRun

/-!
# Admission of nodes over whole runs

Which nodes can be handed out, over every run of the store operations, the admin handlers, the
snapshots of `controller/bolt_store.go` and restarts. A `History` records, beside the state of the
controller, which nodes an admin has approved since they were last newly inserted and which ones an
admin has set to cooling since.

The status of a node is written by five paths, and three of them set it to online without looking at
what it was: a heartbeat, a repeated registration of a node stored as offline, and a restart from a
snapshot that is behind the admin. `OnlyAdmitted` is the condition on a step that these paths are
taken for admitted nodes only. Steps that meet it keep the invariant that a node stored as online or
busy is admitted (`onlineAdmitted_step`), so no state they reach hands out another node
(`admission_run`); `admission_counterexample` shows each of the three paths without the condition.

Scope. A snapshot holds the nodes as they are, which takes the JSON encoding of a node to be
faithful; the streams in a snapshot are left out. Steps are atomic and read the clock once; nothing
is assumed about how the clock moves between them.
-/

set_option autoImplicit false
set_option relaxedAutoImplicit false

namespace LiveCDN.Controller.NodeAdmission

open Library.Binary64 Library.KeyedTable Library.GuardedRun NodeStore Endpoint Scheduling Dispatch
  Mesh

/-! ### Restarts and approval -/

/-- A node as `restore` puts it into memory: offline when its last heartbeat is over 15 s old. -/
def restoredNode (now : ℕ) (node : NodeInfo) : NodeInfo :=
  if now - node.lastHB > 15 * second then { node with status := .offline } else node

theorem nodeID_restoredNode (now : ℕ) (node : NodeInfo) :
    (restoredNode now node).nodeID = node.nodeID := by
  unfold restoredNode
  split_ifs <;> rfl

/-- `BoltStore.restore` into a new store: the saved nodes, and no complaints. -/
def restore (now : ℕ) (saved : Table NodeInfo.nodeID) : MemoryStore :=
  { newMemoryStore with nodes := saved.mapRows (restoredNode now) (nodeID_restoredNode now) }

/-- The answers of `handleApproveNode`. -/
inductive ApproveReply
  | nodeNotFound
  | notPending
  | approved
  deriving DecidableEq, Repr

/-- `handleApproveNode`: a pending node is set online. -/
def handleApproveNode (store : MemoryStore) (nodeID : String) : MemoryStore × ApproveReply :=
  match store.getNode nodeID with
  | none => (store, .nodeNotFound)
  | some node =>
    if node.status ≠ .pending then (store, .notPending)
    else ((store.setNodeStatus nodeID .online).1, .approved)

/-! ### Runs -/

/-- What the admin has done: the nodes approved since they were last newly inserted, and the nodes
whose last status action was to set them cooling. -/
structure History where
  approved : String → Bool
  cooled : String → Bool

/-- A controller with its disk: its store, the last snapshot on disk and the history of the admin.
-/
structure Deployment where
  store : MemoryStore
  snapshot : Table NodeInfo.nodeID
  history : History

/-- The controller before its first step. -/
def start : Deployment := ⟨newMemoryStore, Table.empty, fun _ ↦ false, fun _ ↦ false⟩

/-- A node is admitted when it is approved and not cooled. -/
def History.Admitted (history : History) (id : String) : Prop :=
  history.approved id = true ∧ history.cooled id = false

/-- A new insertion takes an earlier approval away. -/
def History.inserted (history : History) (id : String) : History :=
  { history with approved := Function.update history.approved id false }

/-- A status action of the admin: online and busy approve the node, cooling cools it and any other
status ends the cooling. -/
def History.statusSet (history : History) (id : String) (status : NodeStatus) : History where
  approved := Function.update history.approved id
    (history.approved id || decide (status = .online ∨ status = .busy))
  cooled := Function.update history.cooled id (decide (status = .cooling))

/-- The operations a run is built from. -/
inductive Action
  | registerNode (req : RegisterRequest)
  | updateHeartbeat (req : HeartbeatRequest)
  | recordComplaint (nodeID : String)
  | removeStaleNodes (timeout : ℕ)
  | removeNode (nodeID : String)
  | setNodeStatus (nodeID : String) (status : NodeStatus)
  | approveNode (nodeID : String)
  | saveSnapshot
  | restart

/-- An operation and the clock it reads. -/
structure Step where
  now : ℕ
  action : Action

/-- The controller after a step. -/
def step (controller : Deployment) (taken : Step) : Deployment :=
  let store := controller.store
  let history := controller.history
  match taken.action with
  | .registerNode req =>
    { controller with
      store := store.registerNode taken.now req
      history := if store.nodes.find? req.nodeID = none then history.inserted req.nodeID
        else history }
  | .updateHeartbeat req =>
    match store.updateHeartbeat taken.now req with
    | .ok store => { controller with store := store }
    | .error _ => controller
  | .recordComplaint nodeID => { controller with store := store.recordComplaint taken.now nodeID }
  | .removeStaleNodes timeout =>
    { controller with store := (store.removeStaleNodes taken.now timeout).1 }
  | .removeNode nodeID => { controller with store := (store.removeNode nodeID).1 }
  | .setNodeStatus nodeID status =>
    let result := store.setNodeStatus nodeID status
    { controller with
      store := result.1
      history := if result.2 = true then history.statusSet nodeID status else history }
  | .approveNode nodeID =>
    let result := handleApproveNode store nodeID
    { controller with
      store := result.1
      history := if result.2 = .approved then history.statusSet nodeID .online else history }
  | .saveSnapshot => { controller with snapshot := store.nodes }
  | .restart => { controller with store := restore taken.now controller.snapshot }

/-- A status under which a node can be handed out. -/
def IsUp (status : NodeStatus) : Prop := status = .online ∨ status = .busy

theorem not_isUp_pending : ¬ IsUp .pending := by simp [IsUp]

theorem not_isUp_cooling : ¬ IsUp .cooling := by simp [IsUp]

theorem not_isUp_offline : ¬ IsUp .offline := by simp [IsUp]

/-- The condition on a step: heartbeats of registered nodes, registrations of nodes stored as
offline and fresh online or busy entries of the snapshot at a restart are of admitted nodes. -/
def OnlyAdmitted (controller : Deployment) (taken : Step) : Prop :=
  match taken.action with
  | .updateHeartbeat req =>
    controller.store.nodes.find? req.nodeID ≠ none → controller.history.Admitted req.nodeID
  | .registerNode req =>
    ∀ node, controller.store.nodes.find? req.nodeID = some node → node.status = .offline →
      controller.history.Admitted req.nodeID
  | .restart =>
    ∀ node ∈ controller.snapshot.rows, IsUp node.status → taken.now - node.lastHB ≤ 15 * second →
      controller.history.Admitted node.nodeID
  | _ => True

/-- Every node stored as online or busy is admitted. -/
def OnlineAdmitted (controller : Deployment) : Prop :=
  ∀ id node, controller.store.nodes.find? id = some node → IsUp node.status →
    controller.history.Admitted id

/-! ### What a step preserves -/

/-- A status change that does not find the node leaves the store as it is. -/
theorem setNodeStatus_of_not_found {store : MemoryStore} {nodeID : String} {status : NodeStatus}
    (hfound : (store.setNodeStatus nodeID status).2 = false) :
    (store.setNodeStatus nodeID status).1 = store := by
  unfold MemoryStore.setNodeStatus at hfound ⊢
  cases hnode : store.nodes.find? nodeID with
  | none => rfl
  | some node => simp [hnode] at hfound

/-- An approval is refused and changes nothing, or sets the node online. -/
theorem handleApproveNode_cases (store : MemoryStore) (nodeID : String) :
    (∃ reply, reply ≠ .approved ∧ handleApproveNode store nodeID = (store, reply)) ∨
      handleApproveNode store nodeID = ((store.setNodeStatus nodeID .online).1, .approved) := by
  unfold handleApproveNode
  cases store.getNode nodeID with
  | none => exact Or.inl ⟨.nodeNotFound, nofun, rfl⟩
  | some node =>
    dsimp only
    split_ifs
    · exact Or.inl ⟨.notPending, nofun, rfl⟩
    · exact Or.inr rfl

/-- A status action of the admin keeps the invariant. -/
theorem onlineAdmitted_setNodeStatus {controller : Deployment} (hinv : OnlineAdmitted controller)
    (nodeID : String) (status : NodeStatus) :
    OnlineAdmitted { controller with
      store := (controller.store.setNodeStatus nodeID status).1
      history := controller.history.statusSet nodeID status } := by
  intro id node hfound hup
  change (controller.store.setNodeStatus nodeID status).1.nodes.find? id = some node at hfound
  rw [MemoryStore.find?_setNodeStatus] at hfound
  unfold History.Admitted History.statusSet
  dsimp only
  split_ifs at hfound with hid
  · obtain ⟨original, _, rfl⟩ := Option.map_eq_some_iff.mp hfound
    change status = .online ∨ status = .busy at hup
    have hwarm : status ≠ .cooling := by
      rintro rfl
      exact not_isUp_cooling hup
    rw [hid, Function.update_self, Function.update_self, decide_eq_true hup, Bool.or_true,
      decide_eq_false hwarm]
    exact ⟨rfl, rfl⟩
  · rw [Function.update_of_ne hid, Function.update_of_ne hid]
    exact hinv id node hfound hup

/-- A registration keeps the invariant. Assumes: a node stored as offline is admitted. -/
theorem onlineAdmitted_registerNode {controller : Deployment} (hinv : OnlineAdmitted controller)
    {now : ℕ} {req : RegisterRequest}
    (hcondition : OnlyAdmitted controller ⟨now, .registerNode req⟩) :
    OnlineAdmitted (step controller ⟨now, .registerNode req⟩) := by
  intro id node hfound hup
  change (controller.store.registerNode now req).nodes.find? id = some node at hfound
  change (if controller.store.nodes.find? req.nodeID = none then
    controller.history.inserted req.nodeID else controller.history).Admitted id
  rw [MemoryStore.find?_registerNode] at hfound
  split_ifs at hfound with hid
  · subst hid
    cases hstored : controller.store.nodes.find? req.nodeID with
    | none =>
      rw [hstored] at hfound
      obtain rfl := Option.some.inj hfound
      exact absurd hup not_isUp_pending
    | some existing =>
      rw [hstored] at hfound
      obtain rfl := Option.some.inj hfound
      rw [if_neg (Option.some_ne_none existing)]
      change IsUp (if existing.status = .offline then .online else existing.status) at hup
      split_ifs at hup with hoffline
      · exact hcondition existing hstored hoffline
      · exact hinv req.nodeID existing hstored hup
  · have hadmitted := hinv id node hfound hup
    split_ifs
    · refine ⟨?_, hadmitted.2⟩
      change Function.update controller.history.approved req.nodeID false id = true
      rw [Function.update_of_ne hid]
      exact hadmitted.1
    · exact hadmitted

/-- A heartbeat keeps the invariant. Assumes: the node is not stored or admitted. -/
theorem onlineAdmitted_updateHeartbeat {controller : Deployment} (hinv : OnlineAdmitted controller)
    {now : ℕ} {req : HeartbeatRequest}
    (hcondition : OnlyAdmitted controller ⟨now, .updateHeartbeat req⟩) :
    OnlineAdmitted (step controller ⟨now, .updateHeartbeat req⟩) := by
  unfold step
  dsimp only
  cases hupdate : controller.store.updateHeartbeat now req with
  | error message => exact hinv
  | ok store =>
    intro id node hfound hup
    change store.nodes.find? id = some node at hfound
    rw [MemoryStore.find?_updateHeartbeat hupdate] at hfound
    split_ifs at hfound with hid
    · subst hid
      obtain ⟨original, hstored, _⟩ := Option.map_eq_some_iff.mp hfound
      exact hcondition (by rw [hstored]; exact Option.some_ne_none original)
    · exact hinv id node hfound hup

/-- A restart keeps the invariant. Assumes: fresh online or busy entries of the snapshot are
admitted. -/
theorem onlineAdmitted_restart {controller : Deployment} {now : ℕ}
    (hcondition : OnlyAdmitted controller ⟨now, .restart⟩) :
    OnlineAdmitted (step controller ⟨now, .restart⟩) := by
  intro id node hfound hup
  change (controller.snapshot.mapRows (restoredNode now) (nodeID_restoredNode now)).find? id =
    some node at hfound
  rw [Table.find?_mapRows] at hfound
  obtain ⟨saved, hsaved, rfl⟩ := Option.map_eq_some_iff.mp hfound
  obtain ⟨hmem, rfl⟩ := Table.find?_eq_some_iff.mp hsaved
  unfold restoredNode at hup
  split_ifs at hup with hstale
  · exact absurd hup not_isUp_offline
  · exact hcondition saved hmem hup (not_lt.mp hstale)

/-- A step that meets the condition keeps every online or busy node admitted. -/
theorem onlineAdmitted_step (controller : Deployment) (taken : Step)
    (hinv : OnlineAdmitted controller) (hcondition : OnlyAdmitted controller taken) :
    OnlineAdmitted (step controller taken) := by
  obtain ⟨now, action⟩ := taken
  cases action with
  | registerNode req => exact onlineAdmitted_registerNode hinv hcondition
  | updateHeartbeat req => exact onlineAdmitted_updateHeartbeat hinv hcondition
  | recordComplaint nodeID => exact hinv
  | removeStaleNodes timeout =>
    intro id node hfound hup
    change (controller.store.removeStaleNodes now timeout).1.nodes.find? id = some node at hfound
    rw [MemoryStore.find?_removeStaleNodes] at hfound
    exact hinv id node (Option.filter_eq_some_iff.mp hfound).1 hup
  | removeNode nodeID =>
    intro id node hfound hup
    change (controller.store.removeNode nodeID).1.nodes.find? id = some node at hfound
    rw [MemoryStore.find?_removeNode] at hfound
    split_ifs at hfound
    exact hinv id node hfound hup
  | setNodeStatus nodeID status =>
    unfold step
    dsimp only
    cases hfound : (controller.store.setNodeStatus nodeID status).2 with
    | true => exact onlineAdmitted_setNodeStatus hinv nodeID status
    | false =>
      rw [setNodeStatus_of_not_found hfound]
      exact hinv
  | approveNode nodeID =>
    unfold step
    dsimp only
    rcases handleApproveNode_cases controller.store nodeID with ⟨reply, hreply, h⟩ | h
    · simp only [h, if_neg hreply]
      exact hinv
    · simp only [h, if_true]
      exact onlineAdmitted_setNodeStatus hinv nodeID .online
  | saveSnapshot => exact hinv
  | restart => exact onlineAdmitted_restart hcondition

/-! ### Runs -/

/-- Before the first step no node is stored. -/
theorem onlineAdmitted_start : OnlineAdmitted start := by
  intro id node hfound
  exact nomatch (Table.find?_empty id).symm.trans hfound

/-- No run of steps that meet the condition hands out a node that is not admitted. Assumes: every
step is taken for admitted nodes only, where it could bring a node online. At the end of the run, a
node that no admin has approved since it was last newly inserted, or whose last status action set
it cooling, is not in `GetHealthyNodes`, is not dispatched to a viewer and is not offered as a
cascade upstream. -/
theorem admission_run {steps : List Step} (hsteps : EachStepMeets step OnlyAdmitted start steps)
    {id : String}
    (hid : (run step start steps).history.approved id = false ∨
      (run step start steps).history.cooled id = true) (now : ℕ) :
    id ∉ ((run step start steps).store.getHealthyNodes now).map NodeInfo.nodeID ∧
    (∀ (s : Scheduler) lookup outcome clientIP clientRegion clientISP nodes,
      s.store = (run step start steps).store →
        (s.dispatch lookup outcome now clientIP clientRegion clientISP).1 = .ok nodes →
          id ∉ nodes.map NodeEndpoint.nodeID) ∧
    ∀ outcome requesterID response,
      buildMeshMapResponse nearest (run step start steps).store outcome now requesterID =
          some response →
        id ∉ response.candidateUpstreams.map CandidateUpstream.nodeID := by
  have hinv : OnlineAdmitted (run step start steps) :=
    invariant_run step onlineAdmitted_step onlineAdmitted_start hsteps
  have hdown : ∀ node, (run step start steps).store.nodes.find? id = some node →
      isNodeHealthy now node = false := by
    intro node hfound
    by_contra hhealthy
    have hup : IsUp node.status := (isNodeHealthy_iff.mp (by simpa using hhealthy)).1
    obtain ⟨happroved, hcooled⟩ := hinv id node hfound hup
    rcases hid with hid | hid
    · exact Bool.false_ne_true (hid.symm.trans happroved)
    · exact Bool.false_ne_true (hcooled.symm.trans hid)
  have habsent : id ∉ ((run step start steps).store.getHealthyNodes now).map NodeInfo.nodeID := by
    intro hmem
    obtain ⟨node, hnode, rfl⟩ := List.mem_map.mp hmem
    obtain ⟨hfound, hhealthy, _⟩ := MemoryStore.mem_getHealthyNodes.mp hnode
    exact Bool.false_ne_true ((hdown node hfound).symm.trans hhealthy)
  refine ⟨habsent, ?_, ?_⟩
  · intro s lookup outcome clientIP clientRegion clientISP nodes hstore hok hmem
    obtain ⟨endpoint, hendpoint, rfl⟩ := List.mem_map.mp hmem
    obtain ⟨node, hfound, hhealthy⟩ := isNodeHealthy_of_dispatch hok hendpoint
    rw [hstore] at hfound
    exact Bool.false_ne_true ((hdown node hfound).symm.trans hhealthy)
  · intro outcome requesterID response hresponse hmem
    obtain ⟨candidate, hcandidate, rfl⟩ := List.mem_map.mp hmem
    exact habsent (mem_healthy_of_candidate hresponse hcandidate)

/-- A witness: an approved node sends heartbeats and an admin sets it cooling. -/
theorem admission_run_witness :
    let steps : List Step := [⟨0, .registerNode (edgeRequest "edge-1")⟩, ⟨0, .approveNode "edge-1"⟩,
      ⟨1, .updateHeartbeat (edgeHeartbeat 0 0 "edge-1")⟩, ⟨2, .setNodeStatus "edge-1" .cooling⟩]
    "edge-1" ∉ ((run step start steps).store.getHealthyNodes 3).map NodeInfo.nodeID := by
  intro steps
  have hcooled : (run step start steps).history.cooled "edge-1" = true := by decide
  have hmeets : EachStepMeets step OnlyAdmitted start steps := by
    refine ⟨fun node hfound ↦ ?_, trivial, fun _ ↦ ⟨by decide, by decide⟩, trivial, trivial⟩
    exact nomatch (Table.find?_empty "edge-1").symm.trans hfound
  exact (admission_run hmeets (Or.inr hcooled) 3).1

/-- Three runs without the condition, one for each path that sets a node online whatever it was: a
heartbeat of a pending node, a heartbeat of a node the admin has set cooling, and a registration of
a pending node that a restart has stored as offline. -/
theorem admission_counterexample :
    let pending : List Step := [⟨0, .registerNode (edgeRequest "edge-1")⟩,
      ⟨1, .updateHeartbeat (edgeHeartbeat 0 0 "edge-1")⟩]
    let cooling : List Step := [⟨0, .registerNode (edgeRequest "edge-1")⟩,
      ⟨0, .approveNode "edge-1"⟩, ⟨0, .setNodeStatus "edge-1" .cooling⟩,
      ⟨1, .updateHeartbeat (edgeHeartbeat 0 0 "edge-1")⟩]
    let restarted : List Step := [⟨0, .registerNode (edgeRequest "edge-1")⟩, ⟨0, .saveSnapshot⟩,
      ⟨20 * second, .restart⟩, ⟨20 * second, .registerNode (edgeRequest "edge-1")⟩]
    (((run step start pending).store.getHealthyNodes 1).map NodeInfo.nodeID = ["edge-1"] ∧
      (run step start pending).history.approved "edge-1" = false) ∧
    (((run step start cooling).store.getHealthyNodes 1).map NodeInfo.nodeID = ["edge-1"] ∧
      (run step start cooling).history.cooled "edge-1" = true) ∧
    ((run step start restarted).store.getHealthyNodes (20 * second)).map NodeInfo.nodeID =
        ["edge-1"] ∧
      (run step start restarted).history.approved "edge-1" = false := by
  decide +kernel

end LiveCDN.Controller.NodeAdmission
