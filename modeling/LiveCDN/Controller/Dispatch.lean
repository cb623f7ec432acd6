import LiveCDN.Controller.Scheduling

/-!
# Which nodes a dispatch returns

Two results about `Scheduler.Dispatch`, for every scheduler state and every client.

Eligibility. The backups and the nodes of a fresh selection come from `GetHealthyNodes`
(`selectBackups_spec`, `freshSelection_spec`), but the sticky node of a client is only tested by
`IsNodeHealthy` and `isEjected`. So the endpoints are all in `GetHealthyNodes`, and distinct, unless
the client is bound to a node in its complaint cooldown (`dispatch_eligible_iff`).

Availability. `isCapacityFull` of `controller/server.go` asks for a usage below 70% where the health
test allows 70%, and a selection from more than three nodes needs a positive score where the health
test allows a loss of 5%. `dispatch_available_iff` is the exact condition under which the gate
passes and every random outcome gives an endpoint. The usage is the quotient that the code compares,
rounded to binary64; one part in ten to the 18 below 70% it is no longer below the constant.
-/

set_option autoImplicit false
set_option relaxedAutoImplicit false

namespace LiveCDN.Controller.Dispatch

open Library Library.Binary64 NodeStore NodeScore Endpoint Scheduling

/-! ### The capacity gate -/

/-- The test of `isCapacityFull` on one node. A node without bandwidth data has capacity. -/
def hasCapacity (node : NodeInfo) : Bool :=
  if node.bwLimit > 0 ∧ node.bwUsed > 0 then decide (node.usage < nearest (7 / 10))
  else true

/-- `isCapacityFull`. -/
def isCapacityFull (store : MemoryStore) (now : ℕ) : Bool :=
  let nodes := store.getHealthyNodes now
  if nodes = [] then true else decide (nodes.countP hasCapacity = 0)

/-- A node has capacity without a limit, without usage, or when its rounded usage is below the
constant 0.7. -/
theorem hasCapacity_iff (node : NodeInfo) :
    hasCapacity node = true ↔
      node.bwLimit ≤ 0 ∨ node.bwUsed ≤ 0 ∨ node.usage < nearest (7 / 10) := by
  unfold hasCapacity
  split_ifs with hdata
  · rw [decide_eq_true_eq, or_iff_right (not_le.mpr hdata.1), or_iff_right (not_le.mpr hdata.2)]
  · refine iff_of_true rfl ?_
    rcases not_and_or.mp hdata with hlimit | hused
    · exact Or.inl (not_lt.mp hlimit)
    · exact Or.inr (Or.inl (not_lt.mp hused))

/-- The gate passes when some healthy node has capacity. -/
theorem isCapacityFull_eq_false_iff (store : MemoryStore) (now : ℕ) :
    isCapacityFull store now = false ↔
      ∃ node ∈ store.getHealthyNodes now,
        node.bwLimit ≤ 0 ∨ node.bwUsed ≤ 0 ∨ node.usage < nearest (7 / 10) := by
  simp only [← hasCapacity_iff]
  rw [← List.countP_pos_iff]
  unfold isCapacityFull
  dsimp only
  split_ifs with hempty
  · simp [hempty]
  · rw [decide_eq_false_iff_not, Nat.pos_iff_ne_zero]

/-! ### The two ways to endpoints -/

/-- The client is bound, since at most half an hour, to a registered node that is healthy and not
ejected. -/
def BoundTo (s : Scheduler) (now : ℕ) (clientIP : String) (node : NodeInfo) : Prop :=
  ∃ entry, s.sticky clientIP = some entry ∧ entry.nodeID ≠ "" ∧
    now - entry.bindAt ≤ rotateInterval ∧ s.store.getNode entry.nodeID = some node ∧
      isNodeHealthy now node = true ∧ s.isEjected now entry.nodeID = false

/-- The sticky path is taken for the node the client is bound to. -/
theorem stickyNode_eq_some_iff {s : Scheduler} {now : ℕ} {clientIP : String} {node : NodeInfo} :
    s.stickyNode now clientIP = some node ↔ BoundTo s now clientIP node := by
  unfold Scheduler.stickyNode Scheduler.stickyGet BoundTo
  cases s.sticky clientIP with
  | none => simp
  | some entry =>
    dsimp only
    split_ifs with hbound
    · have hkept : now - entry.bindAt ≤ rotateInterval :=
        not_lt.mp (of_decide_eq_false hbound.2)
      rw [Option.filter_eq_some_iff, Bool.and_eq_true, Bool.not_eq_true']
      constructor
      · rintro ⟨hnode, hhealthy, hejected⟩
        exact ⟨entry, rfl, hbound.1, hkept, hnode, hhealthy, hejected⟩
      · rintro ⟨entry, ⟨⟩, -, -, hnode, hhealthy, hejected⟩
        exact ⟨hnode, hhealthy, hejected⟩
    · refine iff_of_false nofun ?_
      rintro ⟨entry, ⟨⟩, hid, hkept, -⟩
      exact hbound ⟨hid, decide_eq_false (not_lt.mpr hkept)⟩

/-- The nodes of a fresh selection. -/
def freshSelection (s : Scheduler) (outcome : Outcome) (now : ℕ) (clientRegion clientISP : String) :
    List NodeInfo :=
  p2cSelect outcome.draws
    (scoreNodes outcome (s.availableNodes outcome now) clientRegion clientISP) 3

/-- A walk visits no node exactly when there is none. -/
theorem visit_eq_nil_iff (outcome : Outcome) (walk : ℕ) (nodes : List NodeInfo) :
    outcome.visit walk nodes = [] ↔ nodes = [] := by
  rw [← List.length_eq_zero_iff, (outcome.visit_perm walk nodes).length_eq,
    List.length_eq_zero_iff]

/-- What a dispatch returns: an error without healthy nodes, the sticky node and its backups for a
bound client, and otherwise a fresh selection, or an error when it is empty. -/
theorem dispatch_cases (s : Scheduler) (lookup : String → String × String) (outcome : Outcome)
    (now : ℕ) (clientIP clientRegion clientISP : String) :
    let result := (s.dispatch lookup outcome now clientIP clientRegion clientISP).1
    let client := locateClient lookup clientIP clientRegion clientISP
    (s.store.getHealthyNodes now = [] ∧ result = .error errNoAvailableNodes) ∨
      (s.store.getHealthyNodes now ≠ [] ∧ ∃ node, BoundTo s now clientIP node ∧
        result = .ok (endpoints
          (node :: s.selectBackups outcome now node client.1 client.2))) ∨
      (s.store.getHealthyNodes now ≠ [] ∧ (¬ ∃ node, BoundTo s now clientIP node) ∧
        result = if freshSelection s outcome now client.1 client.2 = [] then
            .error errNoAvailableNodes
          else .ok (endpoints (freshSelection s outcome now client.1 client.2))) := by
  intro result client
  have hvisit := visit_eq_nil_iff outcome 0 (s.store.getHealthyNodes now)
  by_cases hempty : s.store.getHealthyNodes now = []
  · refine Or.inl ⟨hempty, ?_⟩
    simp only [result, Scheduler.dispatch, if_pos (hvisit.mpr hempty)]
  · refine Or.inr ?_
    cases hsticky : s.stickyNode now clientIP with
    | some node =>
      refine Or.inl ⟨hempty, node, stickyNode_eq_some_iff.mp hsticky, ?_⟩
      simp only [result, Scheduler.dispatch, if_neg (mt hvisit.mp hempty), hsticky]
      rfl
    | none =>
      refine Or.inr ⟨hempty, ?_, ?_⟩
      · rintro ⟨node, hbound⟩
        exact nomatch hsticky.symm.trans (stickyNode_eq_some_iff.mpr hbound)
      · simp only [result, Scheduler.dispatch, if_neg (mt hvisit.mp hempty), hsticky]
        unfold freshSelection
        cases p2cSelect outcome.draws
          (scoreNodes outcome (s.availableNodes outcome now) client.1 client.2) 3 with
        | nil => rfl
        | cons first others => rfl

/-! ### Eligibility -/

/-- Selecting from distinct healthy nodes gives distinct healthy nodes. -/
theorem p2cSelect_scoreNodes_spec {outcome : Outcome} {pool nodes : List NodeInfo}
    (hpool : pool.Sublist nodes) (hdistinct : (nodes.map NodeInfo.nodeID).Nodup)
    (clientRegion clientISP : String) (n : ℕ) :
    (∀ node ∈ p2cSelect outcome.draws (scoreNodes outcome pool clientRegion clientISP) n,
      node ∈ pool) ∧
    ((p2cSelect outcome.draws (scoreNodes outcome pool clientRegion clientISP) n).map
      NodeInfo.nodeID).Nodup := by
  have hperm := map_node_scoreNodes_perm outcome pool clientRegion clientISP
  have hscored : ((scoreNodes outcome pool clientRegion clientISP).map
      fun sn ↦ sn.node.nodeID).Nodup := by
    have hids := (hperm.map NodeInfo.nodeID).nodup_iff.mpr
      (hdistinct.sublist (hpool.map NodeInfo.nodeID))
    rwa [List.map_map] at hids
  obtain ⟨hmem, hnodup⟩ := p2cSelect_spec hscored outcome.draws n
  exact ⟨fun node hnode ↦ hperm.mem_iff.mp (hmem node hnode), hnodup⟩

/-- The order of a walk does not change which ids are distinct. -/
theorem nodup_visit (outcome : Outcome) (walk : ℕ) (store : MemoryStore) (now : ℕ) :
    ((outcome.visit walk (store.getHealthyNodes now)).map NodeInfo.nodeID).Nodup :=
  ((outcome.visit_perm walk _).map NodeInfo.nodeID).nodup_iff.mpr
    (store.nodup_getHealthyNodes now)

/-- The available nodes are some of the healthy ones, in the order of the walk. -/
theorem availableNodes_sublist (s : Scheduler) (outcome : Outcome) (now : ℕ) :
    (s.availableNodes outcome now).Sublist (outcome.visit 0 (s.store.getHealthyNodes now)) := by
  unfold Scheduler.availableNodes
  dsimp only
  split_ifs
  · exact List.Sublist.refl _
  · exact s.filterOutliers_sublist now _

/-- A fresh selection consists of distinct healthy nodes. -/
theorem freshSelection_spec (s : Scheduler) (outcome : Outcome) (now : ℕ)
    (clientRegion clientISP : String) :
    (∀ node ∈ freshSelection s outcome now clientRegion clientISP,
      node ∈ s.store.getHealthyNodes now) ∧
    ((freshSelection s outcome now clientRegion clientISP).map NodeInfo.nodeID).Nodup := by
  obtain ⟨hmem, hnodup⟩ := p2cSelect_scoreNodes_spec (availableNodes_sublist s outcome now)
    (nodup_visit outcome 0 s.store now) clientRegion clientISP 3
  refine ⟨fun node hnode ↦ ?_, hnodup⟩
  exact (outcome.visit_perm 0 _).mem_iff.mp
    ((availableNodes_sublist s outcome now).subset (hmem node hnode))

/-- The backups of a sticky node are distinct healthy nodes other than it. -/
theorem selectBackups_spec (s : Scheduler) (outcome : Outcome) (now : ℕ) (stickyNode : NodeInfo)
    (clientRegion clientISP : String) :
    (∀ node ∈ s.selectBackups outcome now stickyNode clientRegion clientISP,
      node ∈ s.store.getHealthyNodes now ∧ node.nodeID ≠ stickyNode.nodeID) ∧
    ((s.selectBackups outcome now stickyNode clientRegion clientISP).map
      NodeInfo.nodeID).Nodup := by
  have hpool : ((s.filterOutliers now (outcome.visit 1 (s.store.getHealthyNodes now))).filter
      fun n ↦ decide (n.nodeID ≠ stickyNode.nodeID)).Sublist
        (outcome.visit 1 (s.store.getHealthyNodes now)) :=
    List.filter_sublist.trans (s.filterOutliers_sublist now _)
  obtain ⟨hmem, hnodup⟩ := p2cSelect_scoreNodes_spec hpool (nodup_visit outcome 1 s.store now)
    clientRegion clientISP 2
  refine ⟨fun node hnode ↦ ?_, hnodup⟩
  have hfiltered := hmem node hnode
  exact ⟨(outcome.visit_perm 1 _).mem_iff.mp (hpool.subset hfiltered),
    of_decide_eq_true (List.mem_filter.mp hfiltered).2⟩

/-- Scores in descending order. -/
def byScore (a b : ScoredNode) : Prop := b.score ≤ a.score

instance : DecidableRel byScore := fun a b ↦ inferInstanceAs (Decidable (b.score ≤ a.score))

instance : Std.Total byScore := ⟨fun a b ↦ le_total b.score a.score⟩

instance : IsTrans ScoredNode byScore := ⟨fun _ _ _ hab hbc ↦ le_trans hbc hab⟩

/-- A walk in the given order, with scores sorted by insertion and draws of zero. -/
def visitingOutcome (visit : List NodeInfo → List NodeInfo)
    (hvisit : ∀ nodes, (visit nodes).Perm nodes) : Outcome where
  visit _ := visit
  visit_perm _ := hvisit
  sortSlice scored := scored.insertionSort byScore
  sortSlice_perm scored := List.perm_insertionSort byScore scored
  sortSlice_sorted scored := List.pairwise_insertionSort byScore scored
  draws _ := (0, 0)
  draws_mem _ := ⟨⟨le_refl 0, one_pos⟩, ⟨le_refl 0, one_pos⟩⟩

/-- The client is bound to a node that is in its complaint cooldown. -/
def BoundToCooling (s : Scheduler) (now : ℕ) (clientIP : String) : Prop :=
  ∃ node, BoundTo s now clientIP node ∧ s.store.isCooling now node.nodeID = true

/-- A dispatch that fails returns no endpoints. -/
theorem not_ok_of_error {result : Except DispatchError (List NodeEndpoint)}
    {error : DispatchError} {nodes : List NodeEndpoint} (hresult : result = .error error)
    (hok : result = .ok nodes) : False := by
  rw [hresult] at hok
  cases hok

/-- The node a client is bound to is unique. -/
theorem boundTo_unique {s : Scheduler} {now : ℕ} {clientIP : String} {node other : NodeInfo}
    (hnode : BoundTo s now clientIP node) (hother : BoundTo s now clientIP other) :
    node = other :=
  Option.some.inj
    ((stickyNode_eq_some_iff.mpr hnode).symm.trans (stickyNode_eq_some_iff.mpr hother))

/-- The node a client is bound to is in `GetHealthyNodes` unless it is cooling. -/
theorem mem_getHealthyNodes_of_boundTo {s : Scheduler} {now : ℕ} {clientIP : String}
    {node : NodeInfo} (hbound : BoundTo s now clientIP node)
    (hcooling : s.store.isCooling now node.nodeID = false) :
    node ∈ s.store.getHealthyNodes now := by
  obtain ⟨entry, _, _, _, hnode, hhealthy, _⟩ := hbound
  have hkey := KeyedTable.Table.key_of_find? hnode
  exact MemoryStore.mem_getHealthyNodes.mpr ⟨hkey ▸ hnode, hhealthy, hcooling⟩

/-- The endpoints of selected nodes are eligible when the nodes are. -/
theorem endpoints_eligible {selected : List NodeInfo} {store : MemoryStore} {now : ℕ}
    (hmem : ∀ node ∈ selected, node ∈ store.getHealthyNodes now)
    (hnodup : (selected.map NodeInfo.nodeID).Nodup) :
    (∀ endpoint ∈ endpoints selected,
      endpoint.nodeID ∈ (store.getHealthyNodes now).map NodeInfo.nodeID) ∧
    ((endpoints selected).map NodeEndpoint.nodeID).Nodup := by
  rw [map_nodeID_endpoints]
  refine ⟨fun endpoint hendpoint ↦ ?_, hnodup⟩
  have hid : endpoint.nodeID ∈ selected.map NodeInfo.nodeID := by
    rw [← map_nodeID_endpoints]
    exact List.mem_map_of_mem hendpoint
  obtain ⟨node, hnode, hid⟩ := List.mem_map.mp hid
  exact hid ▸ List.mem_map_of_mem (hmem node hnode)

/-- Every endpoint of a dispatch names a stored node that passes the health test, on either path. -/
theorem isNodeHealthy_of_dispatch {s : Scheduler} {lookup : String → String × String}
    {outcome : Outcome} {now : ℕ} {clientIP clientRegion clientISP : String}
    {nodes : List NodeEndpoint}
    (hok : (s.dispatch lookup outcome now clientIP clientRegion clientISP).1 = .ok nodes)
    {endpoint : NodeEndpoint} (hendpoint : endpoint ∈ nodes) :
    ∃ node, s.store.nodes.find? endpoint.nodeID = some node ∧ isNodeHealthy now node = true := by
  have hselected : ∀ selected : List NodeInfo, endpoints selected = nodes →
      (∀ node ∈ selected, s.store.nodes.find? node.nodeID = some node ∧
        isNodeHealthy now node = true) →
      ∃ node, s.store.nodes.find? endpoint.nodeID = some node ∧ isNodeHealthy now node = true := by
    rintro selected rfl hall
    have hid : endpoint.nodeID ∈ selected.map NodeInfo.nodeID := by
      rw [← map_nodeID_endpoints]
      exact List.mem_map_of_mem hendpoint
    obtain ⟨node, hnode, hid⟩ := List.mem_map.mp hid
    exact ⟨node, hid ▸ (hall node hnode).1, (hall node hnode).2⟩
  have hstored : ∀ node ∈ s.store.getHealthyNodes now,
      s.store.nodes.find? node.nodeID = some node ∧ isNodeHealthy now node = true := by
    intro node hnode
    obtain ⟨hfound, hhealthy, _⟩ := MemoryStore.mem_getHealthyNodes.mp hnode
    exact ⟨hfound, hhealthy⟩
  rcases dispatch_cases s lookup outcome now clientIP clientRegion clientISP with
    ⟨_, hresult⟩ | ⟨_, node, ⟨entry, _, _, _, hnode, hhealthy, _⟩, hresult⟩ | ⟨_, _, hresult⟩
  · exact (not_ok_of_error hresult hok).elim
  · refine hselected _ (Except.ok.inj (hresult.symm.trans hok)) fun other hother ↦ ?_
    rcases List.mem_cons.mp hother with rfl | hother
    · have hkey := KeyedTable.Table.key_of_find? hnode
      exact ⟨hkey ▸ hnode, hhealthy⟩
    · exact hstored other ((selectBackups_spec _ _ _ _ _ _).1 other hother).1
  · split_ifs at hresult
    · exact (not_ok_of_error hresult hok).elim
    · exact hselected _ (Except.ok.inj (hresult.symm.trans hok)) fun other hother ↦
        hstored other ((freshSelection_spec _ _ _ _ _).1 other hother)

/-- Exactly when a dispatch returns only eligible nodes. Every endpoint names a node that is in
`GetHealthyNodes` and no node appears twice, for every random outcome, if and only if there is no
healthy node at all or the client is not bound to a node in its complaint cooldown. -/
theorem dispatch_eligible_iff (s : Scheduler) (lookup : String → String × String) (now : ℕ)
    (clientIP clientRegion clientISP : String) :
    (∀ outcome nodes,
      (s.dispatch lookup outcome now clientIP clientRegion clientISP).1 = .ok nodes →
        (∀ endpoint ∈ nodes,
          endpoint.nodeID ∈ (s.store.getHealthyNodes now).map NodeInfo.nodeID) ∧
        (nodes.map NodeEndpoint.nodeID).Nodup) ↔
      s.store.getHealthyNodes now = [] ∨ ¬ BoundToCooling s now clientIP := by
  constructor
  · intro hall
    by_contra hnot
    obtain ⟨hhealthy, node, hbound, hcooling⟩ := (not_or.mp hnot).imp_right not_not.mp
    rcases dispatch_cases s lookup (visitingOutcome id fun _ ↦ List.Perm.refl _) now clientIP
        clientRegion clientISP with
      ⟨hempty, _⟩ | ⟨_, other, hother, hresult⟩ | ⟨_, hunbound, _⟩
    · exact hhealthy hempty
    · obtain rfl := boundTo_unique hbound hother
      have heligible := (hall _ _ hresult).1 (nodeEndpoint 0 node) (by simp [endpoints])
      obtain ⟨healthy, hmem, hid⟩ := List.mem_map.mp heligible
      have hwarm := (MemoryStore.mem_getHealthyNodes.mp hmem).2.2
      rw [hid] at hwarm
      exact Bool.false_ne_true (hwarm.symm.trans hcooling)
    · exact hunbound ⟨node, hbound⟩
  · intro hcondition outcome nodes hok
    rcases dispatch_cases s lookup outcome now clientIP clientRegion clientISP with
      ⟨_, hresult⟩ | ⟨hhealthy, node, hbound, hresult⟩ | ⟨_, _, hresult⟩
    · exact (not_ok_of_error hresult hok).elim
    · obtain rfl := Except.ok.inj (hresult.symm.trans hok)
      have hcooling : s.store.isCooling now node.nodeID = false := by
        by_contra hcooling
        exact hcondition.resolve_left hhealthy ⟨node, hbound, by simpa using hcooling⟩
      obtain ⟨hmem, hnodup⟩ := selectBackups_spec s outcome now node
        (locateClient lookup clientIP clientRegion clientISP).1
        (locateClient lookup clientIP clientRegion clientISP).2
      refine endpoints_eligible (fun other hother ↦ ?_) ?_
      · rcases List.mem_cons.mp hother with rfl | hother
        · exact mem_getHealthyNodes_of_boundTo hbound hcooling
        · exact (hmem other hother).1
      · rw [List.map_cons, List.nodup_cons]
        refine ⟨fun hduplicate ↦ ?_, hnodup⟩
        obtain ⟨other, hother, hid⟩ := List.mem_map.mp hduplicate
        exact (hmem other hother).2 hid
    · split_ifs at hresult with hnone
      · exact (not_ok_of_error hresult hok).elim
      · obtain rfl := Except.ok.inj (hresult.symm.trans hok)
        obtain ⟨hmem, hnodup⟩ := freshSelection_spec s outcome now
          (locateClient lookup clientIP clientRegion clientISP).1
          (locateClient lookup clientIP clientRegion clientISP).2
        exact endpoints_eligible hmem hnodup

/-- A registration as an agent sends it, with the addresses left out. -/
def edgeRequest (nodeID : String) : RegisterRequest where
  nodeID := nodeID
  publicIP := "192.0.2.1"
  publicIPv6 := ""
  port := 9090
  region := "r"
  isp := "i"
  bwLimit := 1000
  domain := "edge.test"
  protocol := "ws"
  wsPath := ""
  tlsEnabled := false
  cascadeEnabled := false
  cascadeUpstream := false

/-- A client bound to `edge-1` is sent there after three complaints have put `edge-1` into its
cooldown and out of `GetHealthyNodes`. -/
theorem dispatch_eligible_counterexample :
    let store := ((newMemoryStore.registerNode 0 (edgeRequest "edge-1")).setNodeStatus "edge-1"
      .online).1
    let outcome := visitingOutcome id fun _ ↦ List.Perm.refl _
    let bound := ((newScheduler store).dispatch (fun _ ↦ ("r", "i")) outcome 0 "client" "" "").2
    let store := ((bound.store.registerNode 0 (edgeRequest "edge-2")).setNodeStatus "edge-2"
      .online).1
    let store := ((store.recordComplaint 0 "edge-1").recordComplaint 0 "edge-1").recordComplaint 0
      "edge-1"
    let result := (({ bound with store := store } : Scheduler).dispatch (fun _ ↦ ("r", "i"))
      outcome 1 "client" "" "").1
    result.toOption.map (fun nodes ↦ nodes.map NodeEndpoint.nodeID) = some ["edge-1", "edge-2"] ∧
      (store.getHealthyNodes 1).map NodeInfo.nodeID = ["edge-2"] := by
  decide +kernel

/-! ### Availability -/

/-- How many healthy nodes the outlier filter leaves out. -/
def droppedCount (s : Scheduler) (now : ℕ) : ℕ :=
  min ((s.store.getHealthyNodes now).countP (s.stillEjected now))
    (Scheduler.maxEjectCount (s.store.getHealthyNodes now).length)

/-- A loss rate below 5%. -/
def losesLittle (node : NodeInfo) : Bool := decide (node.lossRate < 5 / 100)

/-- A node of little loss whose ejection has not expired. -/
def ejectedGood (s : Scheduler) (now : ℕ) (node : NodeInfo) : Bool :=
  s.stillEjected now node && losesLittle node

/-- A fresh selection succeeds in every order: at most three nodes are left by the outlier filter,
or one with a loss below 5% is not ejected, or more of these are ejected than the filter leaves
out. -/
def Selectable (s : Scheduler) (now : ℕ) : Prop :=
  (s.store.getHealthyNodes now).length ≤ 3 + droppedCount s now ∨
    (∃ node ∈ s.store.getHealthyNodes now,
      s.stillEjected now node = false ∧ losesLittle node = true) ∨
    droppedCount s now < (s.store.getHealthyNodes now).countP (ejectedGood s now)

/-- The available nodes are those the outlier filter keeps: it never drops all. Assumes: a healthy
node. -/
theorem availableNodes_eq (s : Scheduler) (outcome : Outcome) {now : ℕ}
    (hhealthy : s.store.getHealthyNodes now ≠ []) :
    s.availableNodes outcome now =
        s.filterOutliers now (outcome.visit 0 (s.store.getHealthyNodes now)) ∧
      (s.availableNodes outcome now).length + droppedCount s now =
        (s.store.getHealthyNodes now).length ∧ s.availableNodes outcome now ≠ [] := by
  have hperm := outcome.visit_perm 0 (s.store.getHealthyNodes now)
  have hlength := s.length_filterOutliers now (outcome.visit 0 (s.store.getHealthyNodes now))
  rw [hperm.countP_eq, hperm.length_eq] at hlength
  change _ + droppedCount s now = _ at hlength
  have hpos := List.length_pos_iff.mpr hhealthy
  have hdropped :
      droppedCount s now ≤ Scheduler.maxEjectCount (s.store.getHealthyNodes now).length :=
    min_le_right _ _
  have hbound := Scheduler.maxEjectCount_lt hpos
  have hkept : s.filterOutliers now (outcome.visit 0 (s.store.getHealthyNodes now)) ≠ [] := by
    rw [← List.length_pos_iff]
    omega
  have heq : s.availableNodes outcome now =
      s.filterOutliers now (outcome.visit 0 (s.store.getHealthyNodes now)) := if_neg hkept
  rw [heq]
  exact ⟨rfl, hlength, hkept⟩

/-- A fresh selection succeeds with at most three available nodes or with one of little loss.
Assumes: a healthy node. -/
theorem freshSelection_ne_nil_iff (s : Scheduler) (outcome : Outcome) {now : ℕ}
    (hhealthy : s.store.getHealthyNodes now ≠ []) (clientRegion clientISP : String) :
    freshSelection s outcome now clientRegion clientISP ≠ [] ↔
      (s.availableNodes outcome now).length ≤ 3 ∨
        ∃ node ∈ s.availableNodes outcome now, losesLittle node = true := by
  have hperm := map_node_scoreNodes_perm outcome (s.availableNodes outcome now) clientRegion
    clientISP
  have hlength : (scoreNodes outcome (s.availableNodes outcome now) clientRegion clientISP).length =
      (s.availableNodes outcome now).length := by
    rw [← hperm.length_eq, List.length_map]
  have hscored : scoreNodes outcome (s.availableNodes outcome now) clientRegion clientISP ≠ [] := by
    rw [← List.length_pos_iff, hlength, List.length_pos_iff]
    exact (availableNodes_eq s outcome hhealthy).2.2
  rw [freshSelection, p2cSelect_ne_nil_iff (by decide), and_iff_right hscored, hlength]
  refine or_congr_right ?_
  constructor
  · rintro ⟨sn, hsn, hpos⟩
    exact ⟨sn.node, hperm.mem_iff.mp (List.mem_map_of_mem hsn),
      decide_eq_true ((score_pos_iff hsn).mp hpos)⟩
  · rintro ⟨node, hnode, hloss⟩
    obtain ⟨sn, hsn, rfl⟩ := List.mem_map.mp (hperm.mem_iff.mpr hnode)
    exact ⟨sn, hsn, (score_pos_iff hsn).mpr (of_decide_eq_true hloss)⟩

/-- In a selectable state a fresh selection succeeds whatever the outcome. Assumes: a healthy
node. -/
theorem freshSelection_of_selectable {s : Scheduler} {now : ℕ}
    (hhealthy : s.store.getHealthyNodes now ≠ []) (hselectable : Selectable s now)
    (outcome : Outcome) (clientRegion clientISP : String) :
    freshSelection s outcome now clientRegion clientISP ≠ [] := by
  rw [freshSelection_ne_nil_iff s outcome hhealthy]
  obtain ⟨heq, hlength, _⟩ := availableNodes_eq s outcome hhealthy
  have hperm := outcome.visit_perm 0 (s.store.getHealthyNodes now)
  rcases hselectable with hfew | ⟨node, hnode, hkept, hloss⟩ | hmany
  · exact Or.inl (by omega)
  · refine Or.inr ⟨node, ?_, hloss⟩
    rw [heq]
    exact s.mem_filterOutliersFrom now _ hkept 0 (hperm.mem_iff.mpr hnode)
  · refine Or.inr ?_
    rw [heq]
    have hdropped : min ((outcome.visit 0 (s.store.getHealthyNodes now)).countP
        (s.stillEjected now))
          (Scheduler.maxEjectCount (outcome.visit 0 (s.store.getHealthyNodes now)).length) <
        (outcome.visit 0 (s.store.getHealthyNodes now)).countP (ejectedGood s now) := by
      rw [hperm.countP_eq, hperm.countP_eq, hperm.length_eq]
      exact hmany
    obtain ⟨node, hnode, htest⟩ := s.exists_mem_filterOutliers now hdropped
    exact ⟨node, hnode, (Bool.and_eq_true _ _ ▸ htest).2⟩

/-- The nodes that pass a test, then the others. -/
def testedFirst (test : NodeInfo → Bool) (nodes : List NodeInfo) : List NodeInfo :=
  nodes.filter test ++ nodes.filter fun node ↦ !test node

theorem testedFirst_perm (test : NodeInfo → Bool) (nodes : List NodeInfo) :
    (testedFirst test nodes).Perm nodes :=
  List.filter_append_perm test nodes

/-- The walk that meets the ejected nodes of little loss first. -/
def worstOutcome (s : Scheduler) (now : ℕ) : Outcome :=
  visitingOutcome (testedFirst (ejectedGood s now)) (testedFirst_perm _)

/-- Under the worst outcome the filter keeps no node of little loss. Assumes: every healthy node of
little loss is ejected, and there are no more of them than the filter leaves out. -/
theorem not_losesLittle_of_mem_filterOutliers {s : Scheduler} {now : ℕ}
    (hejected : ¬ ∃ node ∈ s.store.getHealthyNodes now,
      s.stillEjected now node = false ∧ losesLittle node = true)
    (hdropped : (s.store.getHealthyNodes now).countP (ejectedGood s now) ≤ droppedCount s now)
    {node : NodeInfo}
    (hnode : node ∈ s.filterOutliers now
      (testedFirst (ejectedGood s now) (s.store.getHealthyNodes now))) :
    losesLittle node = false := by
  have hfront : ∀ n ∈ (s.store.getHealthyNodes now).filter (ejectedGood s now),
      s.stillEjected now n = true := by
    intro n hn
    have hgood := (List.mem_filter.mp hn).2
    exact ((Bool.and_eq_true _ _).mp hgood).1
  have hbound : 0 + ((s.store.getHealthyNodes now).filter (ejectedGood s now)).length ≤
      Scheduler.maxEjectCount
        (testedFirst (ejectedGood s now) (s.store.getHealthyNodes now)).length := by
    rw [(testedFirst_perm _ _).length_eq, Nat.zero_add, ← List.countP_eq_length_filter]
    exact hdropped.trans (min_le_right _ _)
  have hkept : s.filterOutliers now
      (testedFirst (ejectedGood s now) (s.store.getHealthyNodes now)) =
        s.filterOutliersFrom now _ _ ((s.store.getHealthyNodes now).filter
          fun node ↦ !ejectedGood s now node) :=
    s.filterOutliersFrom_append now _ _ hfront hbound
  rw [hkept] at hnode
  obtain ⟨hmem, htest⟩ := List.mem_filter.mp
    ((s.filterOutliersFrom_sublist now _ _ _).subset hnode)
  by_contra hloss
  have hgood : losesLittle node = true := by simpa using hloss
  cases hstill : s.stillEjected now node with
  | false => exact hejected ⟨node, hmem, hstill, hgood⟩
  | true => simp [ejectedGood, hstill, hgood] at htest

/-- In a state that is not selectable the worst outcome selects nothing. Assumes: a healthy
node. -/
theorem freshSelection_worstOutcome {s : Scheduler} {now : ℕ}
    (hhealthy : s.store.getHealthyNodes now ≠ []) (hselectable : ¬ Selectable s now)
    (clientRegion clientISP : String) :
    freshSelection s (worstOutcome s now) now clientRegion clientISP = [] := by
  by_contra hne
  rw [← ne_eq, freshSelection_ne_nil_iff s _ hhealthy] at hne
  obtain ⟨heq, hlength, _⟩ := availableNodes_eq s (worstOutcome s now) hhealthy
  obtain ⟨hmore, hnone⟩ := not_or.mp hselectable
  obtain ⟨hejected, hdropped⟩ := not_or.mp hnone
  rcases hne with hfew | ⟨node, hnode, hloss⟩
  · omega
  · rw [heq] at hnode
    have hlossy := not_losesLittle_of_mem_filterOutliers hejected (not_lt.mp hdropped) hnode
    exact Bool.false_ne_true (hlossy.symm.trans hloss)

/-- Exactly when viewers are served. Assumes: some node is in `GetHealthyNodes`. The capacity gate
passes and `Dispatch` returns an endpoint for every random outcome, if and only if some healthy node
has no limit, no usage or a rounded usage below the constant 0.7, and either the client is bound to
a usable node or the state is selectable. -/
theorem dispatch_available_iff (s : Scheduler) (lookup : String → String × String) {now : ℕ}
    (clientIP clientRegion clientISP : String) (hhealthy : s.store.getHealthyNodes now ≠ []) :
    (isCapacityFull s.store now = false ∧ ∀ outcome, ∃ nodes,
      (s.dispatch lookup outcome now clientIP clientRegion clientISP).1 = .ok nodes ∧
        nodes ≠ []) ↔
      (∃ node ∈ s.store.getHealthyNodes now,
        node.bwLimit ≤ 0 ∨ node.bwUsed ≤ 0 ∨ node.usage < nearest (7 / 10)) ∧
      ((∃ node, BoundTo s now clientIP node) ∨ Selectable s now) := by
  rw [isCapacityFull_eq_false_iff]
  refine and_congr_right fun _ ↦ ?_
  constructor
  · intro hall
    by_contra hnot
    obtain ⟨hunbound, hselectable⟩ := not_or.mp hnot
    obtain ⟨nodes, hok, _⟩ := hall (worstOutcome s now)
    rcases dispatch_cases s lookup (worstOutcome s now) now clientIP clientRegion clientISP with
      ⟨hempty, _⟩ | ⟨_, node, hbound, _⟩ | ⟨_, _, hresult⟩
    · exact hhealthy hempty
    · exact hunbound ⟨node, hbound⟩
    · rw [if_pos (freshSelection_worstOutcome hhealthy hselectable _ _)] at hresult
      exact (not_ok_of_error hresult hok).elim
  · intro hcondition outcome
    rcases dispatch_cases s lookup outcome now clientIP clientRegion clientISP with
      ⟨hempty, _⟩ | ⟨_, node, _, hresult⟩ | ⟨_, hunbound, hresult⟩
    · exact absurd hempty hhealthy
    · exact ⟨_, hresult, by simp⟩
    · have hselected := freshSelection_of_selectable hhealthy
        (hcondition.resolve_left hunbound) outcome
        (locateClient lookup clientIP clientRegion clientISP).1
        (locateClient lookup clientIP clientRegion clientISP).2
      rw [if_neg hselected] at hresult
      exact ⟨_, hresult, by simpa using hselected⟩

/-- A heartbeat with the given usage and loss, from a node with a limit of 1000 bytes a second. -/
def edgeHeartbeat (bwUsed : ℤ) (lossRate : ℚ) (nodeID : String) : HeartbeatRequest where
  nodeID := nodeID
  bwUsed := bwUsed
  bwLimit := 1000
  onlineUsers := 1
  rtt := 10
  lossRate := lossRate
  cascadeDepth := 0
  childrenCount := 0
  cascadeEgressBW := 0
  currentUpstream := ""

/-- A node is registered, set online by an admin and sends a heartbeat. -/
def admitNode (bwUsed : ℤ) (lossRate : ℚ) (store : MemoryStore) (nodeID : String) : MemoryStore :=
  let store := ((store.registerNode 0 (edgeRequest nodeID)).setNodeStatus nodeID .online).1
  match store.updateHeartbeat 0 (edgeHeartbeat bwUsed lossRate nodeID) with
  | .ok store => store
  | .error _ => store

/-- A witness of the availability condition: one node at half its bandwidth. -/
theorem dispatch_available_witness :
    let store := admitNode 500 0 newMemoryStore "edge-1"
    isCapacityFull store 0 = false ∧ ∀ outcome, ∃ nodes,
      ((newScheduler store).dispatch (fun _ ↦ ("r", "i")) outcome 0 "client" "" "").1 = .ok nodes ∧
        nodes ≠ [] := by
  intro store
  have hhealthy : (newScheduler store).store.getHealthyNodes 0 ≠ [] := by decide +kernel
  have hcapacity : isCapacityFull store 0 = false := by decide +kernel
  refine (dispatch_available_iff (newScheduler store) (fun _ ↦ ("r", "i")) "client" "" ""
    hhealthy).mpr ⟨(isCapacityFull_eq_false_iff store 0).mp hcapacity, Or.inr (Or.inl ?_)⟩
  have hfew : (store.getHealthyNodes 0).length ≤ 3 := by decide +kernel
  exact hfew.trans (Nat.le_add_right _ _)

/-- The gate refuses the healthy node at exactly 70% of its bandwidth, and `Dispatch` refuses four
healthy nodes that lose exactly 5%. -/
theorem dispatch_available_counterexample :
    let full := admitNode 700 0 newMemoryStore "edge-1"
    let lossy := ["edge-1", "edge-2", "edge-3", "edge-4"].foldl
      (admitNode 500 (nearest (5 / 100))) newMemoryStore
    ((full.getHealthyNodes 0).length = 1 ∧ isCapacityFull full 0 = true) ∧
      (lossy.getHealthyNodes 0).length = 4 ∧ isCapacityFull lossy 0 = false ∧
        ((newScheduler lossy).dispatch (fun _ ↦ ("r", "i"))
          (visitingOutcome id fun _ ↦ List.Perm.refl _) 0 "client" "" "").1.toOption = none := by
  decide +kernel

end LiveCDN.Controller.Dispatch
