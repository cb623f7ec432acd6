import LiveCDN.Controller.Scheduling

/-!
# Outlier detection

The reports of `controller/scheduler.go` that feed the outlier filter: `ReportNodeFail` counts a
failure of a node, halves its effective weight and ejects it from the fifth failure in a row on;
`ReportNodeSuccess` and `RecoverOutliers` take both back. `Standing` is what reports on a node can
change: its complaints, its effective weight and its outlier state. A report touches the standing of
the node it names and of no other (`standing_reportNodeFail`, `standing_reportNodeSuccess`,
`standing_recordComplaint`).

Scope. A report is atomic and reads the clock once. How the operations on effective weights are
rounded is a parameter `rd`: the server rounds them to binary64, where five successes bring a node
from one half to just below its full weight. The time of the last failure in the record of a node,
which nothing reads, is left out, and the counters do not overflow.
-/

set_option autoImplicit false
set_option relaxedAutoImplicit false

namespace LiveCDN.Controller.OutlierDetection

open Library.Binary64 Library.KeyedTable NodeStore Scheduling

/-! ### Reports -/

/-- `outlierConsecutiveFails`. -/
def outlierConsecutiveFails : ℕ := 5

/-- `outlierBaseEjectTime`. -/
def outlierBaseEjectTime : ℕ := 30 * second

/-- `outlierMaxEjectTime`. -/
def outlierMaxEjectTime : ℕ := 300 * second

/-- `weightDecayOnFail`. -/
def weightDecayOnFail : ℚ := 1 / 2

/-- `weightRecoverStep`. -/
def weightRecoverStep (rd : ℚ → ℚ) : ℚ := rd (1 / 10)

/-- An outlier state after a failure. -/
def failedState (now : ℕ) (state : OutlierState) : OutlierState :=
  let consecutiveFails := state.consecutiveFails + 1
  if consecutiveFails ≥ outlierConsecutiveFails then
    let ejectCount := state.ejectCount + 1
    { consecutiveFails := consecutiveFails
      ejectedUntil := some (now + min (outlierBaseEjectTime * ejectCount) outlierMaxEjectTime)
      ejectCount := ejectCount
      lastEjectAt := some now }
  else
    { state with
      consecutiveFails := consecutiveFails
      lastEjectAt := some now }

/-- A node after a failure. -/
def failedNode (rd : ℚ → ℚ) (consecutiveFails : ℕ) (node : NodeInfo) : NodeInfo :=
  let newEW := rd (node.effectiveWeight * weightDecayOnFail)
  { node with
    effectiveWeight := if newEW < rd (1 / 10) then rd (1 / 10) else newEW
    consecutiveFails := consecutiveFails }

/-- An outlier state after a success: an ejection that is over is forgotten. -/
def succeededState (now : ℕ) (state : OutlierState) : OutlierState :=
  let state := { state with consecutiveFails := 0 }
  if state.ejectedUntil.any fun time ↦ decide (now > time) then
    { state with
      ejectedUntil := none
      ejectCount := 0 }
  else state

/-- A node after a success. -/
def succeededNode (rd : ℚ → ℚ) (node : NodeInfo) : NodeInfo :=
  if node.effectiveWeight < 1 then
    let effectiveWeight := rd (node.effectiveWeight + weightRecoverStep rd)
    { node with
      effectiveWeight := if effectiveWeight > 1 then 1 else effectiveWeight
      consecutiveFails := 0 }
  else node

/-- A write to the record of a node, if it is registered. -/
def updateNode (store : MemoryStore) (nodeID : String) (update : NodeInfo → NodeInfo) :
    MemoryStore :=
  match store.getNode nodeID with
  | some node => { store with nodes := store.nodes.put (update node) }
  | none => store

/-- `ReportNodeFail`. -/
def reportNodeFail (rd : ℚ → ℚ) (s : Scheduler) (now : ℕ) (nodeID : String) : Scheduler :=
  let state := failedState now ((s.outlierMap nodeID).getD ⟨0, none, 0, none⟩)
  { s with
    store := updateNode s.store nodeID (failedNode rd state.consecutiveFails)
    outlierMap := Function.update s.outlierMap nodeID (some state) }

/-- `ReportNodeSuccess`. -/
def reportNodeSuccess (rd : ℚ → ℚ) (s : Scheduler) (now : ℕ) (nodeID : String) : Scheduler :=
  { s with
    store := updateNode s.store nodeID (succeededNode rd)
    outlierMap :=
      Function.update s.outlierMap nodeID ((s.outlierMap nodeID).map (succeededState now)) }

/-- An outlier state after `RecoverOutliers`: an ejection that is over ends. -/
def recoveredState (now : ℕ) (state : OutlierState) : OutlierState :=
  if state.ejectedUntil.any fun time ↦ decide (now > time) then
    { state with
      ejectedUntil := none
      consecutiveFails := 0 }
  else state

/-- `RecoverOutliers`. -/
def recoverOutliers (s : Scheduler) (now : ℕ) : Scheduler :=
  { s with outlierMap := fun nodeID ↦ (s.outlierMap nodeID).map (recoveredState now) }

/-! ### What a report does to an outlier state -/

theorem consecutiveFails_failedState (now : ℕ) (state : OutlierState) :
    (failedState now state).consecutiveFails = state.consecutiveFails + 1 := by
  unfold failedState
  dsimp only
  split_ifs <;> rfl

theorem consecutiveFails_succeededState (now : ℕ) (state : OutlierState) :
    (succeededState now state).consecutiveFails = 0 := by
  unfold succeededState
  dsimp only
  split_ifs <;> rfl

/-- A node is ejected until the time in its outlier state. -/
theorem isEjected_iff {s : Scheduler} {now : ℕ} {nodeID : String} :
    s.isEjected now nodeID = true ↔
      ∃ state ∈ s.outlierMap nodeID, ∃ time ∈ state.ejectedUntil, now < time := by
  unfold Scheduler.isEjected
  cases hstate : s.outlierMap nodeID with
  | none => simp
  | some state =>
    cases htime : state.ejectedUntil with
    | none => simp [htime]
    | some time => simp [htime]

/-- A recovery sets no ejection. -/
theorem ejectedUntil_recoveredState {now time : ℕ} {state : OutlierState}
    (htime : time ∈ (recoveredState now state).ejectedUntil) : time ∈ state.ejectedUntil := by
  unfold recoveredState at htime
  split_ifs at htime
  · exact nomatch htime
  · exact htime

/-- A success sets no ejection. -/
theorem ejectedUntil_succeededState {now time : ℕ} {state : OutlierState}
    (htime : time ∈ (succeededState now state).ejectedUntil) : time ∈ state.ejectedUntil := by
  unfold succeededState at htime
  dsimp only at htime
  split_ifs at htime
  · exact nomatch htime
  · exact htime

/-- A failure sets an ejection from the fifth on. -/
theorem ejectedUntil_failedState {now time : ℕ} {state : OutlierState}
    (htime : time ∈ (failedState now state).ejectedUntil) :
    5 ≤ (failedState now state).consecutiveFails ∨ time ∈ state.ejectedUntil := by
  rw [consecutiveFails_failedState]
  unfold failedState at htime
  dsimp only at htime
  split_ifs at htime with hmany
  · exact Or.inl hmany
  · exact Or.inr htime

/-- A recovery does not raise the count. -/
theorem consecutiveFails_recoveredState_le (now : ℕ) (state : OutlierState) :
    (recoveredState now state).consecutiveFails ≤ state.consecutiveFails := by
  unfold recoveredState
  split_ifs
  · exact Nat.zero_le _
  · exact le_refl _

/-! ### The standing of a node -/

/-- The complaints about a node, its effective weight if it is registered, and its outlier state. -/
structure Standing where
  complaints : Option ComplaintWindow
  effectiveWeight : Option ℚ
  outlier : Option OutlierState
  deriving DecidableEq

/-- The standing of a node id. -/
def standing (s : Scheduler) (nodeID : String) : Standing :=
  ⟨s.store.complaints nodeID, (s.store.getNode nodeID).map NodeInfo.effectiveWeight,
    s.outlierMap nodeID⟩

theorem nodeID_failedNode (rd : ℚ → ℚ) (consecutiveFails : ℕ) (node : NodeInfo) :
    (failedNode rd consecutiveFails node).nodeID = node.nodeID := rfl

theorem nodeID_succeededNode (rd : ℚ → ℚ) (node : NodeInfo) :
    (succeededNode rd node).nodeID = node.nodeID := by
  unfold succeededNode
  split_ifs <;> rfl

/-- The nodes after a write to one. Assumes: the write keeps the id. -/
theorem getNode_updateNode (store : MemoryStore) (nodeID : String) {update : NodeInfo → NodeInfo}
    (hid : ∀ node, (update node).nodeID = node.nodeID) (id : String) :
    (updateNode store nodeID update).getNode id =
      if id = nodeID then (store.getNode id).map update else store.getNode id := by
  refine Eq.trans ?_ (Table.find?_rewrite store.nodes update hid nodeID id)
  unfold updateNode MemoryStore.getNode
  cases store.nodes.find? nodeID with
  | none => rfl
  | some node => rfl

@[simp] theorem complaints_updateNode (store : MemoryStore) (nodeID : String)
    (update : NodeInfo → NodeInfo) :
    (updateNode store nodeID update).complaints = store.complaints := by
  unfold updateNode
  split <;> rfl

/-- A failure report touches the node it names only. -/
theorem standing_reportNodeFail (rd : ℚ → ℚ) (s : Scheduler) (now : ℕ) (nodeID : String)
    {id : String} (hother : id ≠ nodeID) :
    standing (reportNodeFail rd s now nodeID) id = standing s id := by
  simp only [standing, reportNodeFail, complaints_updateNode, Function.update_of_ne hother,
    getNode_updateNode _ _ (nodeID_failedNode rd _), if_neg hother]

/-- A success report touches the node it names only. -/
theorem standing_reportNodeSuccess (rd : ℚ → ℚ) (s : Scheduler) (now : ℕ) (nodeID : String)
    {id : String} (hother : id ≠ nodeID) :
    standing (reportNodeSuccess rd s now nodeID) id = standing s id := by
  simp only [standing, reportNodeSuccess, complaints_updateNode, Function.update_of_ne hother,
    getNode_updateNode _ _ (nodeID_succeededNode rd), if_neg hother]

/-- A complaint touches the node it names only. -/
theorem standing_recordComplaint (s : Scheduler) (now : ℕ) (nodeID : String) {id : String}
    (hother : id ≠ nodeID) :
    standing { s with store := s.store.recordComplaint now nodeID } id = standing s id := by
  simp only [standing, MemoryStore.recordComplaint, Function.update_of_ne hother]
  rfl

/-- From one half, five successes leave a weight just below one. -/
example : let weight := (fun weight ↦ nearest (weight + weightRecoverStep nearest))^[5] (1 / 2)
    weight = 1 - 1 / 2 ^ 53 := by
  decide +kernel

end LiveCDN.Controller.OutlierDetection
