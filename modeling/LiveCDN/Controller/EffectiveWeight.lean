import LiveCDN.Controller.HandlerEffects

/-!
# The effective weight of a node

The effective weight is a field of the node record, which the store shares with the scheduler:
`ReportNodeFail` halves it, `ReportNodeSuccess` raises it, and the slow recovery at the end of
`cleanupLoop` raises that of the healthy nodes. Nothing else touches it, so it is a function of what
happened to the node since it was last inserted into the store: `Event.weight` says what an event
does to it, and `effectiveWeight_run` that the weight of every stored node is what its events make
of one half, and is between one tenth and one.

Scope. An action is atomic and reads the clock once, and the operations on weights are exact: the
steps take the reports and the recovery with the identity as their rounding. Beside the operations
that touch the weight, a run may take those that decide which nodes are healthy: heartbeats, status
changes and complaints.
-/

set_option autoImplicit false
set_option relaxedAutoImplicit false

namespace LiveCDN.Controller.EffectiveWeight

open Library.Binary64 Library.KeyedTable Library.GuardedRun NodeStore Scheduling OutlierDetection
  HttpServer ServerRun HandlerEffects

/-! ### Runs -/

/-- An operation of the store or the scheduler, or a turn of `cleanupLoop` with its timeout. -/
inductive Action
  | register (req : RegisterRequest) (now : ℕ)
  | remove (nodeID : String)
  | heartbeat (req : HeartbeatRequest) (now : ℕ)
  | setStatus (nodeID : String) (status : NodeStatus)
  | complain (nodeID : String) (now : ℕ)
  | fail (nodeID : String) (now : ℕ)
  | success (nodeID : String) (now : ℕ)
  | dispatch (lookup : String → String × String) (outcome : Outcome) (now : ℕ)
      (clientIP clientRegion clientISP : String)
  | cleanup (now : ℕ) (timeout : ℤ)

/-- The nodes in one turn of `cleanupLoop`: the stale ones are removed, the ejections that are over
end, and the healthy nodes recover some weight. -/
def cleanupNodes (rd : ℚ → ℚ) (s : Scheduler) (now : ℕ) (timeout : ℤ) : Scheduler :=
  let s := recoverOutliers { s with store := removeStale s.store now timeout } now
  { s with store := restNodes rd s.store now }

/-- A turn of `cleanupLoop` does this to the scheduler of the server. -/
example (server : Server) (now : ℕ) :
    (ServerRun.cleanup server now).scheduler =
      cleanupNodes nearest server.scheduler now (staleTimeout server.cfg) := rfl

/-- One step. -/
def step (s : Scheduler) : Action → Scheduler
  | .register req now => { s with store := s.store.registerNode now req }
  | .remove nodeID => { s with store := (s.store.removeNode nodeID).1 }
  | .heartbeat req now =>
    match s.store.updateHeartbeat now req with
    | .ok store => { s with store := store }
    | .error _ => s
  | .setStatus nodeID status => { s with store := (s.store.setNodeStatus nodeID status).1 }
  | .complain nodeID now => { s with store := s.store.recordComplaint now nodeID }
  | .fail nodeID now => reportNodeFail id s now nodeID
  | .success nodeID now => reportNodeSuccess id s now nodeID
  | .dispatch lookup outcome now clientIP clientRegion clientISP =>
    (s.dispatch lookup outcome now clientIP clientRegion clientISP).2
  | .cleanup now timeout => cleanupNodes id s now timeout

/-! ### Events -/

/-- What can change the effective weight of a node: a failure report, a success report, and a turn
of `cleanupLoop` that finds the node healthy. -/
inductive Event
  | failure
  | success
  | rest
  deriving DecidableEq, Repr

/-- The effective weight after an event. -/
def Event.weight (weight : ℚ) : Event → ℚ
  | .failure => max (1 / 10) (weight / 2)
  | .success => min 1 (weight + 1 / 10)
  | .rest => min 1 (weight + 1 / 20)

/-- The effective weight that events make of that of a new node. -/
def weightAfter (events : List Event) : ℚ := events.foldl Event.weight (1 / 2)

/-- A node is inserted when a registration does not find it. -/
def inserts (s : Scheduler) (nodeID : String) : Action → Bool
  | .register req _ => decide (req.nodeID = nodeID) && (s.store.getNode nodeID).isNone
  | _ => false

/-- The event of a node in a step. -/
def event (s : Scheduler) (nodeID : String) : Action → Option Event
  | .fail named _ => if named = nodeID then some .failure else none
  | .success named _ => if named = nodeID then some .success else none
  | .cleanup now timeout =>
    -- The slow recovery asks for the healthy nodes once the stale ones are gone.
    if nodeID ∈ ((removeStale s.store now timeout).getHealthyNodes now).map NodeInfo.nodeID then
      some .rest
    else none
  | _ => none

/-- A scheduler with the events of each node since it was last inserted. -/
structure Watched where
  scheduler : Scheduler
  events : String → List Event

/-- A new scheduler. -/
def Watched.start : Watched := ⟨newScheduler newMemoryStore, fun _ ↦ []⟩

/-- One step. -/
def watch (w : Watched) (action : Action) : Watched where
  scheduler := step w.scheduler action
  events nodeID :=
    if inserts w.scheduler nodeID action then []
    else w.events nodeID ++ (event w.scheduler nodeID action).toList

/-! ### One event -/

/-- A weight that a node can have. -/
def InRange (weight : ℚ) : Prop := 1 / 10 ≤ weight ∧ weight ≤ 1

theorem inRange_weight {weight : ℚ} (hrange : InRange weight) (event : Event) :
    InRange (event.weight weight) := by
  obtain ⟨hlow, hhigh⟩ := hrange
  cases event with
  | failure => exact ⟨le_max_left _ _, max_le (by norm_num) (by linarith)⟩
  | success => exact ⟨le_min (by norm_num) (by linarith), min_le_left _ _⟩
  | rest => exact ⟨le_min (by norm_num) (by linarith), min_le_left _ _⟩

theorem inRange_weightAfter (events : List Event) : InRange (weightAfter events) := by
  induction events using List.reverseRecOn with
  | nil => exact ⟨by norm_num [weightAfter], by norm_num [weightAfter]⟩
  | append_singleton events event ih =>
    rw [weightAfter, List.foldl_append]
    exact inRange_weight ih event

theorem effectiveWeight_failedNode (consecutiveFails : ℕ) (node : NodeInfo) :
    (failedNode id consecutiveFails node).effectiveWeight =
      Event.failure.weight node.effectiveWeight := by
  change (if node.effectiveWeight * (1 / 2) < 1 / 10 then (1 : ℚ) / 10
    else node.effectiveWeight * (1 / 2)) = max (1 / 10) (node.effectiveWeight / 2)
  rw [mul_one_div]
  split_ifs with hlow
  · exact (max_eq_left hlow.le).symm
  · exact (max_eq_right (not_lt.mp hlow)).symm

theorem capped_eq (weight : ℚ) : (if weight > 1 then 1 else weight) = min 1 weight := by
  split_ifs with hover
  · exact (min_eq_left hover.le).symm
  · exact (min_eq_right (not_lt.mp hover)).symm

/-- A full weight is not raised. Assumes: the weight is not below one. -/
theorem min_add_eq {weight raise : ℚ} (hrange : InRange weight) (hraise : 0 ≤ raise)
    (hfull : ¬ weight < 1) : min 1 (weight + raise) = weight := by
  have hone : weight = 1 := le_antisymm hrange.2 (not_lt.mp hfull)
  rw [hone]
  exact min_eq_left (le_add_of_nonneg_right hraise)

theorem effectiveWeight_succeededNode {node : NodeInfo} (hrange : InRange node.effectiveWeight) :
    (succeededNode id node).effectiveWeight = Event.success.weight node.effectiveWeight := by
  unfold succeededNode
  split_ifs with hlow
  · exact capped_eq (node.effectiveWeight + 1 / 10)
  · exact (min_add_eq hrange (by norm_num) hlow).symm

theorem effectiveWeight_restedNode {store : MemoryStore} {now : ℕ} {node : NodeInfo}
    (hrange : InRange node.effectiveWeight) :
    (restedNode id store now node).effectiveWeight =
      if isNodeHealthy now node = true ∧ store.isCooling now node.nodeID = false then
        Event.rest.weight node.effectiveWeight
      else node.effectiveWeight := by
  have hpos : node.effectiveWeight > 0 := lt_of_lt_of_le (by norm_num) hrange.1
  unfold restedNode
  simp only [Bool.and_eq_true, Bool.not_eq_true', decide_eq_true_eq, and_iff_left hpos]
  by_cases hhealthy : isNodeHealthy now node = true ∧ store.isCooling now node.nodeID = false
  · rw [if_pos hhealthy]
    by_cases hlow : node.effectiveWeight < 1
    · rw [if_pos ⟨hhealthy, hlow⟩, Event.weight, show (1 : ℚ) / 20 = 5 / 100 by norm_num]
      exact capped_eq (node.effectiveWeight + 5 / 100)
    · rw [if_neg fun h ↦ hlow h.2]
      exact (min_add_eq hrange (by norm_num) hlow).symm
  · rw [if_neg hhealthy, if_neg fun h ↦ hhealthy h.1]

/-! ### One step -/

/-- The weights of a scheduler are in their range. -/
def WeightsInRange (s : Scheduler) : Prop :=
  ∀ nodeID, ∀ node ∈ s.store.getNode nodeID, InRange node.effectiveWeight

/-- A stored node after a write to the record of one: it was there before, and is written if it is
the one. -/
theorem exists_of_getNode_updateNode {store : MemoryStore} {named nodeID : String}
    {update : NodeInfo → NodeInfo} (hid : ∀ node, (update node).nodeID = node.nodeID)
    {after : NodeInfo} (hafter : (updateNode store named update).getNode nodeID = some after) :
    ∃ before, store.getNode nodeID = some before ∧
      after = if named = nodeID then update before else before := by
  rw [getNode_updateNode store named hid] at hafter
  by_cases hnamed : nodeID = named
  · rw [if_pos hnamed] at hafter
    obtain ⟨before, hbefore, rfl⟩ := Option.map_eq_some_iff.mp hafter
    exact ⟨before, hbefore, (if_pos hnamed.symm).symm⟩
  · rw [if_neg hnamed] at hafter
    exact ⟨after, hafter, (if_neg (Ne.symm hnamed)).symm⟩

/-- The nodes that are left are stored. -/
theorem getNode_of_removeStale (store : MemoryStore) (now : ℕ) (timeout : ℤ) {nodeID : String}
    {node : NodeInfo} (hnode : (removeStale store now timeout).getNode nodeID = some node) :
    store.getNode nodeID = some node := by
  unfold removeStale at hnode
  split_ifs at hnode with hnegative
  · exact absurd hnode (Option.some_ne_none _).symm
  · have hfound : (store.nodes.find? nodeID).filter _ = some node :=
      (MemoryStore.find?_removeStaleNodes store now timeout.toNat nodeID).symm.trans hnode
    exact (Option.filter_eq_some_iff.mp hfound).1

/-- A node after a turn of `cleanupLoop`: it was there before, and has recovered some weight if it
is healthy. -/
theorem effectiveWeight_cleanupNodes {s : Scheduler} (hrange : WeightsInRange s) {now : ℕ}
    {timeout : ℤ} {nodeID : String} {after : NodeInfo}
    (hafter : (cleanupNodes id s now timeout).store.getNode nodeID = some after) :
    ∃ before, s.store.getNode nodeID = some before ∧ after.effectiveWeight =
      (event s nodeID (.cleanup now timeout)).elim before.effectiveWeight
        (Event.weight before.effectiveWeight) := by
  have hrested := (Table.find?_mapRows _ (nodeID_restedNode id _ now) nodeID).symm.trans hafter
  obtain ⟨before, hfound, rfl⟩ := Option.map_eq_some_iff.mp hrested
  have hstored := getNode_of_removeStale s.store now timeout hfound
  refine ⟨before, hstored, ?_⟩
  rw [effectiveWeight_restedNode (hrange nodeID before hstored)]
  have hid : before.nodeID = nodeID := Table.key_of_find? hfound
  have hmem : nodeID ∈ ((removeStale s.store now timeout).getHealthyNodes now).map
      NodeInfo.nodeID ↔ isNodeHealthy now before = true ∧
        (removeStale s.store now timeout).isCooling now before.nodeID = false := by
    rw [List.mem_map]
    constructor
    · rintro ⟨node, hnode, rfl⟩
      obtain ⟨hsame, hhealthy⟩ := MemoryStore.mem_getHealthyNodes.mp hnode
      rw [Option.some_inj.mp (hfound.symm.trans hsame)]
      exact hhealthy
    · intro hhealthy
      exact ⟨before, MemoryStore.mem_getHealthyNodes.mpr ⟨hid ▸ hfound, hhealthy⟩, hid⟩
  by_cases hhealthy : isNodeHealthy now before = true ∧
      (removeStale s.store now timeout).isCooling now before.nodeID = false
  · have hevent : event s nodeID (.cleanup now timeout) = some .rest := if_pos (hmem.mpr hhealthy)
    rw [hevent]
    exact if_pos hhealthy
  · have hevent : event s nodeID (.cleanup now timeout) = none :=
      if_neg fun h ↦ hhealthy (hmem.mp h)
    rw [hevent]
    exact if_neg hhealthy

/-- A stored node after a step: a new one with half the weight, or one that was there before, whose
weight has changed as its event says. -/
theorem effectiveWeight_step {s : Scheduler} (hrange : WeightsInRange s) (action : Action)
    {nodeID : String} {after : NodeInfo}
    (hafter : (step s action).store.getNode nodeID = some after) :
    (inserts s nodeID action = true ∧ after.effectiveWeight = 1 / 2) ∨
      (inserts s nodeID action = false ∧ ∃ before, s.store.getNode nodeID = some before ∧
        after.effectiveWeight = (event s nodeID action).elim before.effectiveWeight
          (Event.weight before.effectiveWeight)) := by
  cases action with
  | register req now =>
    have hfound := (MemoryStore.find?_registerNode s.store now req nodeID).symm.trans hafter
    by_cases hnamed : nodeID = req.nodeID
    · rw [if_pos hnamed] at hfound
      have hnew : inserts s nodeID (.register req now) = (s.store.nodes.find? nodeID).isNone := by
        rw [inserts, decide_eq_true hnamed.symm, Bool.true_and]
        rfl
      rw [hnew]
      cases hbefore : s.store.nodes.find? nodeID with
      | none =>
        rw [hbefore, Option.elim_none] at hfound
        rw [← Option.some_inj.mp hfound]
        exact Or.inl ⟨rfl, rfl⟩
      | some before =>
        rw [hbefore, Option.elim_some] at hfound
        rw [← Option.some_inj.mp hfound]
        exact Or.inr ⟨rfl, before, hbefore, rfl⟩
    · rw [if_neg hnamed] at hfound
      refine Or.inr ⟨?_, after, hfound, rfl⟩
      rw [inserts, decide_eq_false (Ne.symm hnamed), Bool.false_and]
  | remove named =>
    have hfound := (MemoryStore.find?_removeNode s.store named nodeID).symm.trans hafter
    split_ifs at hfound
    exact Or.inr ⟨rfl, after, hfound, rfl⟩
  | heartbeat req now =>
    refine Or.inr ⟨rfl, ?_⟩
    cases hupdate : s.store.updateHeartbeat now req with
    | error message =>
      rw [step, hupdate] at hafter
      exact ⟨after, hafter, rfl⟩
    | ok store =>
      rw [step, hupdate] at hafter
      have hfound := (MemoryStore.find?_updateHeartbeat hupdate nodeID).symm.trans hafter
      split_ifs at hfound
      · obtain ⟨before, hbefore, rfl⟩ := Option.map_eq_some_iff.mp hfound
        exact ⟨before, hbefore, rfl⟩
      · exact ⟨after, hfound, rfl⟩
  | setStatus named status =>
    have hfound := (MemoryStore.find?_setNodeStatus s.store named status nodeID).symm.trans hafter
    split_ifs at hfound
    · obtain ⟨before, hbefore, rfl⟩ := Option.map_eq_some_iff.mp hfound
      exact Or.inr ⟨rfl, before, hbefore, rfl⟩
    · exact Or.inr ⟨rfl, after, hfound, rfl⟩
  | complain named now => exact Or.inr ⟨rfl, after, hafter, rfl⟩
  | fail named now =>
    obtain ⟨before, hbefore, rfl⟩ := exists_of_getNode_updateNode (nodeID_failedNode id _) hafter
    refine Or.inr ⟨rfl, before, hbefore, ?_⟩
    dsimp only [event]
    split_ifs
    · exact effectiveWeight_failedNode _ before
    · rfl
  | success named now =>
    obtain ⟨before, hbefore, rfl⟩ := exists_of_getNode_updateNode (nodeID_succeededNode id) hafter
    refine Or.inr ⟨rfl, before, hbefore, ?_⟩
    dsimp only [event]
    split_ifs
    · exact effectiveWeight_succeededNode (hrange nodeID before hbefore)
    · rfl
  | dispatch lookup outcome now clientIP clientRegion clientISP =>
    rw [step, store_dispatch] at hafter
    exact Or.inr ⟨rfl, after, hafter, rfl⟩
  | cleanup now timeout => exact Or.inr ⟨rfl, effectiveWeight_cleanupNodes hrange hafter⟩

/-! ### Every run -/

/-- The weight of each stored node is what its events make of that of a new one. -/
def FollowsEvents (w : Watched) : Prop :=
  ∀ nodeID, ∀ node ∈ w.scheduler.store.getNode nodeID,
    node.effectiveWeight = weightAfter (w.events nodeID)

theorem weightsInRange_of_followsEvents {w : Watched} (hfollows : FollowsEvents w) :
    WeightsInRange w.scheduler := by
  intro nodeID node hnode
  rw [hfollows nodeID node hnode]
  exact inRange_weightAfter _

theorem followsEvents_watch (w : Watched) (action : Action) (hfollows : FollowsEvents w) :
    FollowsEvents (watch w action) := by
  intro nodeID after hafter
  have hrange := weightsInRange_of_followsEvents hfollows
  rcases effectiveWeight_step hrange action hafter with
    ⟨hnew, hweight⟩ | ⟨hold, before, hbefore, hweight⟩
  · have hevents : (watch w action).events nodeID = [] := if_pos hnew
    rw [hweight, hevents]
    rfl
  · have hevents : (watch w action).events nodeID =
        w.events nodeID ++ (event w.scheduler nodeID action).toList :=
      if_neg (by rw [hold]; decide)
    rw [hweight, hevents, weightAfter, List.foldl_append, ← weightAfter,
      ← hfollows nodeID before hbefore]
    cases event w.scheduler nodeID action with
    | none => rfl
    | some happened => rfl

/-- Effective weights follow the events of their nodes. Assumes: a node that is stored after a run.
Its weight is what its events since it was inserted make of one half, and is between one tenth and
one; and a further step that leaves it stored changes it as the event of the node in that step says,
and not at all when there is none. -/
theorem effectiveWeight_run (actions : List Action) (nodeID : String) (node : NodeInfo)
    (hnode : (run watch .start actions).scheduler.store.getNode nodeID = some node) :
    node.effectiveWeight = weightAfter ((run watch .start actions).events nodeID) ∧
      1 / 10 ≤ node.effectiveWeight ∧ node.effectiveWeight ≤ 1 ∧
        ∀ action after,
          (step (run watch .start actions).scheduler action).store.getNode nodeID = some after →
            after.effectiveWeight =
              (event (run watch .start actions).scheduler nodeID action).elim node.effectiveWeight
                (Event.weight node.effectiveWeight) := by
  have hfollows : FollowsEvents (run watch .start actions) :=
    invariant_run_of_step watch followsEvents_watch
      (fun _ _ hnone ↦ absurd hnone (Option.not_mem_none _)) actions
  have hrange := weightsInRange_of_followsEvents hfollows
  obtain ⟨hlow, hhigh⟩ := hrange nodeID node hnode
  refine ⟨hfollows nodeID node hnode, hlow, hhigh, fun action after hafter ↦ ?_⟩
  rcases effectiveWeight_step hrange action hafter with ⟨hnew, _⟩ | ⟨_, before, hbefore, hweight⟩
  · cases action with
    | register req now => simp [inserts, hnode] at hnew
    | _ => exact absurd hnew Bool.false_ne_true
  · rw [Option.some_inj.mp (hnode.symm.trans hbefore)]
    exact hweight

/-- A node that fails, comes online and is found healthy by a turn of `cleanupLoop`. -/
def failedThenRested : List Action :=
  [.register (Dispatch.edgeRequest "edge-1") 0, .fail "edge-1" 0, .setStatus "edge-1" .online,
    .cleanup 1 120]

/-- A witness of the effective weight: it is three tenths after one failure and one turn of
`cleanupLoop`. -/
theorem effectiveWeight_run_failedThenRested :
    ∃ node, (run watch .start failedThenRested).scheduler.store.getNode "edge-1" = some node ∧
      node.effectiveWeight = 3 / 10 := by
  have hstored : ((run watch .start failedThenRested).scheduler.store.getNode "edge-1").isSome =
      true := by
    decide +kernel
  have hweight : weightAfter ((run watch .start failedThenRested).events "edge-1") = 3 / 10 := by
    decide +kernel
  obtain ⟨node, hnode⟩ := Option.isSome_iff_exists.mp hstored
  exact ⟨node, hnode, (effectiveWeight_run failedThenRested "edge-1" node hnode).1.trans hweight⟩

end LiveCDN.Controller.EffectiveWeight
