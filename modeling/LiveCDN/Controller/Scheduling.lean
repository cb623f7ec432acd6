import LiveCDN.Controller.Endpoint
import LiveCDN.Controller.NodeScore

/-!
# The dispatch scheduler

`controller/scheduler.go` and `controller/sticky.go`: outlier filtering, sticky clients, scoring,
the power-of-two-choices selection and `Dispatch` itself. What the runtime decides is collected in
an `Outcome`: the order in which a map is walked, the order in which equal scores are sorted and the
random draws. `filterOutliers_sublist` and `length_filterOutliers` describe the outlier filter,
`p2cLoop_spec` the selection loop and `p2cSelect_ne_nil_iff` when it selects at all. The results
about `Dispatch` are in the module `Dispatch`.

Scope. A call of `Dispatch` is atomic and reads the clock once. The client locator
(`IPLocator.Lookup`) is a parameter: it only feeds the region bonus. The stream key is left out, as
`Dispatch` does not read it. Scores are exact; the quota of the filter is rounded to binary64.
-/

set_option autoImplicit false
set_option relaxedAutoImplicit false

namespace LiveCDN.Controller.Scheduling

open Library.Binary64 NodeStore NodeScore Endpoint

/-! ### State -/

/-- `outlierState`. -/
structure OutlierState where
  consecutiveFails : ℕ
  ejectedUntil : Option ℕ
  ejectCount : ℕ
  lastEjectAt : Option ℕ
  deriving DecidableEq, Repr

/-- `stickyEntry`. -/
structure StickyEntry where
  nodeID : String
  bindAt : ℕ
  lastSeen : ℕ
  deriving DecidableEq, Repr

/-- `Scheduler`: the store, the outlier map and the sticky table. -/
structure Scheduler where
  store : MemoryStore
  outlierMap : String → Option OutlierState
  sticky : String → Option StickyEntry

/-- `NewScheduler`. -/
def newScheduler (store : MemoryStore) : Scheduler := ⟨store, fun _ ↦ none, fun _ ↦ none⟩

/-- `scoredNode`. -/
structure ScoredNode where
  node : NodeInfo
  score : ℚ
  effectiveWeight : ℚ
  deriving DecidableEq, Repr

/-- `DispatchError`. -/
structure DispatchError where
  msg : String
  deriving DecidableEq, Repr

/-- `ErrNoAvailableNodes`. -/
def errNoAvailableNodes : DispatchError := ⟨"no available nodes"⟩

/-- What the runtime decides during one dispatch: the order in which each walk over the node map
visits the nodes, the order `sort.Slice` gives nodes of equal score, and the random draws of each
round of the selection. -/
structure Outcome where
  visit : ℕ → List NodeInfo → List NodeInfo
  visit_perm : ∀ walk nodes, (visit walk nodes).Perm nodes
  sortSlice : List ScoredNode → List ScoredNode
  sortSlice_perm : ∀ scored, (sortSlice scored).Perm scored
  sortSlice_sorted : ∀ scored, (sortSlice scored).Pairwise fun a b ↦ b.score ≤ a.score
  draws : ℕ → ℚ × ℚ
  draws_mem : ∀ round, (draws round).1 ∈ Set.Ico 0 1 ∧ (draws round).2 ∈ Set.Ico 0 1

/-! ### Sticky clients -/

/-- `rotateInterval`. -/
def rotateInterval : ℕ := 30 * minute

namespace Scheduler

/-- `StickyStore.Get`: the node of a client, and whether it must be rotated. -/
def stickyGet (s : Scheduler) (now : ℕ) (clientID : String) : String × Bool :=
  match s.sticky clientID with
  | none => ("", false)
  | some e => (e.nodeID, decide (now - e.bindAt > rotateInterval))

/-- `StickyStore.Set`. -/
def stickySet (s : Scheduler) (now : ℕ) (clientID nodeID : String) : Scheduler :=
  let entry : StickyEntry :=
    match s.sticky clientID with
    | none => ⟨nodeID, now, now⟩
    | some e =>
      if now - e.bindAt < rotateInterval ∧ e.nodeID = nodeID then { e with lastSeen := now }
      else ⟨nodeID, now, now⟩
  { s with sticky := Function.update s.sticky clientID (some entry) }

/-- `StickyStore.Rotate`. -/
def stickyRotate (s : Scheduler) (clientID : String) : Scheduler :=
  { s with sticky := Function.update s.sticky clientID none }

/-! ### Outlier detection -/

/-- `isEjected`. -/
def isEjected (s : Scheduler) (now : ℕ) (nodeID : String) : Bool :=
  match s.outlierMap nodeID with
  | none => false
  | some state =>
    match state.ejectedUntil with
    | none => false
    | some ejectedUntil => decide (now < ejectedUntil)

/-- The ejection of a node has not expired, as `filterOutliers` tests it. -/
def stillEjected (s : Scheduler) (now : ℕ) (n : NodeInfo) : Bool :=
  match s.outlierMap n.nodeID with
  | none => false
  | some state =>
    match state.ejectedUntil with
    | none => false
    | some ejectedUntil => !decide (now > ejectedUntil)

/-- The bound of `filterOutliers`, `int(float64(len(nodes)) * outlierMaxEjectPercent)`. -/
def maxEjectCount (length : ℕ) : ℕ := ⌊mul (nearest length) (nearest (3 / 10))⌋₊

/-- The loop of `filterOutliers`. -/
def filterOutliersFrom (s : Scheduler) (now maxEject : ℕ) : ℕ → List NodeInfo → List NodeInfo
  | _, [] => []
  | ejected, n :: nodes =>
    if s.stillEjected now n = false then n :: s.filterOutliersFrom now maxEject ejected nodes
    else if ejected < maxEject then s.filterOutliersFrom now maxEject (ejected + 1) nodes
    else n :: s.filterOutliersFrom now maxEject ejected nodes

/-- `filterOutliers`: at most 30% of the nodes are left out. -/
def filterOutliers (s : Scheduler) (now : ℕ) (nodes : List NodeInfo) : List NodeInfo :=
  s.filterOutliersFrom now (maxEjectCount nodes.length) 0 nodes

end Scheduler

/-! ### Scoring and selection -/

/-- `scoreNodes`. -/
def scoreNodes (outcome : Outcome) (nodes : List NodeInfo) (clientRegion clientISP : String) :
    List ScoredNode :=
  outcome.sortSlice <| nodes.map fun n ↦
    let baseScore := nodeScoreWithRegionBonus n clientRegion clientISP
    let ew := if n.effectiveWeight ≤ 0 then 1 / 10 else n.effectiveWeight
    ⟨n, baseScore * ew, ew⟩

/-- The walk of `pickOne`: the first node whose cumulative score reaches `r`, and the others. -/
def pickCumulative (r : ℚ) : ℚ → List ScoredNode → Option (ScoredNode × List ScoredNode)
  | _, [] => none
  | cumulative, sn :: available =>
    if r ≤ cumulative + sn.score then some (sn, available)
    else
      (pickCumulative r (cumulative + sn.score) available).map fun (result, others) ↦
        (result, sn :: others)

/-- `pickOne`: the picked node, the nodes left and the weight left. -/
def pickOne (draw : ℚ) (available : List ScoredNode) (totalWeight : ℚ) :
    Option ScoredNode × List ScoredNode × ℚ :=
  match pickCumulative (draw * totalWeight) 0 available with
  | some (result, others) => (some result, others, totalWeight - result.score)
  | none =>
    match available with
    | [] => (none, [], totalWeight)
    | result :: others => (some result, others, totalWeight - result.score)

/-- The nodes with a positive score at positions that are not used. -/
def candidates (nodes : List ScoredNode) (used : List ℕ) : List ScoredNode :=
  (nodes.zipIdx.filter fun (sn, i) ↦ decide (i ∉ used ∧ 0 < sn.score)).map Prod.fst

/-- `pickTwoWeighted`. -/
def pickTwoWeighted (draws : ℚ × ℚ) (nodes : List ScoredNode) (used : List ℕ) :
    List ScoredNode :=
  let available := candidates nodes used
  let totalWeight := (available.map ScoredNode.score).sum
  if available = [] ∨ totalWeight ≤ 0 then []
  else
    let first := pickOne draws.1 available totalWeight
    let second := pickOne draws.2 first.2.1 first.2.2
    first.1.toList ++ second.1.toList

/-- Marks the first position that holds the given node id. -/
def markUsed (nodes : List ScoredNode) (used : List ℕ) (nodeID : String) : List ℕ :=
  match nodes.findIdx? fun sn ↦ decide (sn.node.nodeID = nodeID) with
  | none => used
  | some i => i :: used

/-- The better of two candidates: the higher effective weight, then the higher score. -/
def winner (first second : ScoredNode) : ScoredNode :=
  if second.effectiveWeight > first.effectiveWeight then second
  else if second.effectiveWeight = first.effectiveWeight ∧ second.score > first.score then second
  else first

/-- The candidate a round of `p2cSelect` takes. -/
def choose : List ScoredNode → Option ScoredNode
  | [] => none
  | [only] => some only
  | first :: second :: _ => some (winner first second)

/-- The loop of `p2cSelect`, with the number of nodes still to select. -/
def p2cLoop (draws : ℕ → ℚ × ℚ) (nodes : List ScoredNode) :
    ℕ → ℕ → List ℕ → List NodeInfo
  | 0, _, _ => []
  | missing + 1, round, used =>
    match choose (pickTwoWeighted (draws round) nodes used) with
    | none => []
    | some chosen =>
      chosen.node ::
        p2cLoop draws nodes missing (round + 1) (markUsed nodes used chosen.node.nodeID)

/-- `p2cSelect`. -/
def p2cSelect (draws : ℕ → ℚ × ℚ) (nodes : List ScoredNode) (n : ℕ) : List NodeInfo :=
  if nodes.length ≤ n then nodes.map ScoredNode.node else p2cLoop draws nodes n 0 []

/-! ### Dispatch -/

/-- Step 0 of `Dispatch`: missing client data are looked up. -/
def locateClient (lookup : String → String × String) (clientIP clientRegion clientISP : String) :
    String × String :=
  if clientRegion = "" ∨ clientISP = "" then
    let (geoRegion, geoISP) := lookup clientIP
    (if clientRegion = "" then geoRegion else clientRegion,
      if clientISP = "" then geoISP else clientISP)
  else (clientRegion, clientISP)

namespace Scheduler

/-- The sticky test of `Dispatch`: the node a client stays on. -/
def stickyNode (s : Scheduler) (now : ℕ) (clientID : String) : Option NodeInfo :=
  let sticky := s.stickyGet now clientID
  if sticky.1 ≠ "" ∧ sticky.2 = false then
    (s.store.getNode sticky.1).filter fun node ↦
      isNodeHealthy now node && !s.isEjected now sticky.1
  else none

/-- Steps 1 and 2 of `Dispatch`: the healthy nodes without the outliers, or all of them when every
one is an outlier. -/
def availableNodes (s : Scheduler) (outcome : Outcome) (now : ℕ) : List NodeInfo :=
  let healthyNodes := outcome.visit 0 (s.store.getHealthyNodes now)
  let filtered := s.filterOutliers now healthyNodes
  if filtered = [] then healthyNodes else filtered

/-- The backups of `dispatchWithSticky`. -/
def selectBackups (s : Scheduler) (outcome : Outcome) (now : ℕ) (stickyNode : NodeInfo)
    (clientRegion clientISP : String) : List NodeInfo :=
  let healthyNodes := outcome.visit 1 (s.store.getHealthyNodes now)
  let availableNodes := s.filterOutliers now healthyNodes
  let backups := availableNodes.filter fun n ↦ decide (n.nodeID ≠ stickyNode.nodeID)
  p2cSelect outcome.draws (scoreNodes outcome backups clientRegion clientISP) 2

/-- `dispatchWithSticky`: the sticky node first, then the backups. -/
def dispatchWithSticky (s : Scheduler) (outcome : Outcome) (now : ℕ) (stickyNode : NodeInfo)
    (clientRegion clientISP : String) : List NodeEndpoint :=
  endpoints (stickyNode :: s.selectBackups outcome now stickyNode clientRegion clientISP)

/-- `Dispatch`: the endpoints or the error, and the scheduler after the call. -/
def dispatch (s : Scheduler) (lookup : String → String × String) (outcome : Outcome) (now : ℕ)
    (clientIP clientRegion clientISP : String) :
    Except DispatchError (List NodeEndpoint) × Scheduler :=
  let client := locateClient lookup clientIP clientRegion clientISP
  if outcome.visit 0 (s.store.getHealthyNodes now) = [] then (.error errNoAvailableNodes, s)
  else
    match s.stickyNode now clientIP with
    | some node => (.ok (s.dispatchWithSticky outcome now node client.1 client.2), s)
    | none =>
      let rotated := if (s.stickyGet now clientIP).1 = "" then s else s.stickyRotate clientIP
      let scored := scoreNodes outcome (s.availableNodes outcome now) client.1 client.2
      match p2cSelect outcome.draws scored 3 with
      | [] => (.error errNoAvailableNodes, rotated)
      | first :: others =>
        (.ok (endpoints (first :: others)), rotated.stickySet now clientIP first.nodeID)

end Scheduler

/-! ### The outlier filter -/

namespace Scheduler

variable (s : Scheduler) (now maxEject : ℕ)

theorem filterOutliersFrom_sublist (ejected : ℕ) (nodes : List NodeInfo) :
    (s.filterOutliersFrom now maxEject ejected nodes).Sublist nodes := by
  induction nodes generalizing ejected with
  | nil => exact List.Sublist.slnil
  | cons n nodes ih =>
    rw [filterOutliersFrom]
    split_ifs
    · exact (ih ejected).cons_cons n
    · exact (ih (ejected + 1)).cons n
    · exact (ih ejected).cons_cons n

/-- The filter keeps the order of the nodes. -/
theorem filterOutliers_sublist (nodes : List NodeInfo) :
    (s.filterOutliers now nodes).Sublist nodes :=
  s.filterOutliersFrom_sublist now _ 0 nodes

/-- A node that is not ejected is kept. -/
theorem mem_filterOutliersFrom {n : NodeInfo} (hn : s.stillEjected now n = false) (ejected : ℕ)
    {nodes : List NodeInfo} (hmem : n ∈ nodes) :
    n ∈ s.filterOutliersFrom now maxEject ejected nodes := by
  induction nodes generalizing ejected with
  | nil => exact absurd hmem (List.not_mem_nil)
  | cons first nodes ih =>
    rw [filterOutliersFrom]
    rcases List.mem_cons.mp hmem with rfl | hrest
    · rw [if_pos hn]
      exact List.mem_cons_self
    · split_ifs
      · exact List.mem_cons_of_mem _ (ih ejected hrest)
      · exact ih (ejected + 1) hrest
      · exact List.mem_cons_of_mem _ (ih ejected hrest)

/-- The filter leaves out as many ejected nodes as there are, but no more than the bound allows. -/
theorem length_filterOutliersFrom (ejected : ℕ) (nodes : List NodeInfo) :
    (s.filterOutliersFrom now maxEject ejected nodes).length +
      min (nodes.countP (s.stillEjected now)) (maxEject - ejected) = nodes.length := by
  induction nodes generalizing ejected with
  | nil => simp [filterOutliersFrom]
  | cons n nodes ih =>
    rw [filterOutliersFrom, List.countP_cons, List.length_cons]
    have hkeep := ih ejected
    have hdrop := ih (ejected + 1)
    cases hn : s.stillEjected now n with
    | false =>
      rw [if_pos rfl, List.length_cons, if_neg Bool.false_ne_true]
      omega
    | true =>
      rw [if_neg (by decide), if_pos rfl]
      split_ifs with hroom
      · omega
      · rw [List.length_cons]
        omega

/-- The bound leaves a node. Assumes: there is one. -/
theorem maxEjectCount_lt {length : ℕ} (hlength : 0 < length) : maxEjectCount length < length := by
  set e := Nat.log 2 length with he
  have hlow : 2 ^ e ≤ length := Nat.pow_log_le_self 2 hlength.ne'
  have hhigh : length ≤ 2 ^ (e + 1) := (Nat.lt_pow_succ_log_self one_lt_two length).le
  have hpower : nearest ((2 : ℚ) ^ (e + 1)) = 2 ^ (e + 1) :=
    nearest_of_representable ⟨1, (e + 1 : ℕ), by norm_num, by omega, by
      rw [zpow_natCast, Int.cast_one, one_mul]⟩
  have hlength' : nearest length ≤ 2 ^ (e + 1) :=
    hpower ▸ nearest_le_nearest (by exact_mod_cast hhigh)
  -- Three eighths of the next power of two are representable, and less than the length.
  have hthree : Representable (3 * 2 ^ ((e : ℤ) - 2)) := by
    refine ⟨3, (e : ℤ) - 2, by norm_num, by omega, ?_⟩
    rw [Int.cast_ofNat]
  have hproduct : nearest length * nearest (3 / 10) ≤ 3 * 2 ^ ((e : ℤ) - 2) := by
    have hconstant : nearest (3 / 10) ≤ 3 / 8 := by decide +kernel
    have hpos : 0 ≤ nearest (3 / 10) := by decide +kernel
    refine (mul_le_mul hlength' hconstant hpos (by positivity)).trans_eq ?_
    rw [zpow_sub₀ (by norm_num), zpow_natCast, pow_succ]
    norm_num
    ring
  have hrounded : mul (nearest length) (nearest (3 / 10)) ≤ 3 * 2 ^ ((e : ℤ) - 2) :=
    ge_of_isNearest (isNearest_nearest _) hthree hproduct
  rw [maxEjectCount, Nat.floor_lt' hlength.ne']
  refine hrounded.trans_lt ?_
  have hlow' : (2 : ℚ) ^ e ≤ length := by exact_mod_cast hlow
  refine lt_of_lt_of_le ?_ hlow'
  rw [zpow_sub₀ (by norm_num), zpow_natCast]
  have hpos : (0 : ℚ) < 2 ^ e := by positivity
  norm_num
  linarith

theorem length_filterOutliers (nodes : List NodeInfo) :
    (s.filterOutliers now nodes).length +
      min (nodes.countP (s.stillEjected now)) (maxEjectCount nodes.length) = nodes.length :=
  s.length_filterOutliersFrom now _ 0 nodes

/-- Ejected nodes at the front are left out while the bound allows. Assumes: they are ejected and
within the bound. -/
theorem filterOutliersFrom_append {ejected : ℕ} {front : List NodeInfo} (rest : List NodeInfo)
    (hfront : ∀ n ∈ front, s.stillEjected now n = true)
    (hbound : ejected + front.length ≤ maxEject) :
    s.filterOutliersFrom now maxEject ejected (front ++ rest) =
      s.filterOutliersFrom now maxEject (ejected + front.length) rest := by
  induction front generalizing ejected with
  | nil => rfl
  | cons n front ih =>
    rw [List.length_cons] at hbound ⊢
    rw [List.cons_append, filterOutliersFrom, hfront n List.mem_cons_self, if_neg (by decide),
      if_pos (by omega), ih (fun other hother ↦ hfront other (List.mem_cons_of_mem _ hother))
        (by omega), Nat.add_right_comm, Nat.add_assoc]

/-- When more nodes pass a test than the filter leaves out, one of them is kept. -/
theorem exists_mem_filterOutliers {nodes : List NodeInfo} {test : NodeInfo → Bool}
    (hmany : min (nodes.countP (s.stillEjected now)) (maxEjectCount nodes.length) <
      nodes.countP test) :
    ∃ n ∈ s.filterOutliers now nodes, test n = true := by
  have hlength := s.length_filterOutliers now nodes
  have hothers : (s.filterOutliers now nodes).countP (fun n ↦ ¬ test n = true) ≤
      nodes.countP fun n ↦ ¬ test n = true := (s.filterOutliers_sublist now nodes).countP_le
  have hsplit : nodes.length = nodes.countP test + nodes.countP fun n ↦ ¬ test n = true :=
    List.length_eq_countP_add_countP test
  have hsplit' : (s.filterOutliers now nodes).length = (s.filterOutliers now nodes).countP test +
      (s.filterOutliers now nodes).countP fun n ↦ ¬ test n = true :=
    List.length_eq_countP_add_countP test
  rw [← List.countP_pos_iff]
  omega

end Scheduler

/-! ### The selection -/

/-- The nodes that are scored are the nodes given. -/
theorem map_node_scoreNodes_perm (outcome : Outcome) (nodes : List NodeInfo)
    (clientRegion clientISP : String) :
    ((scoreNodes outcome nodes clientRegion clientISP).map ScoredNode.node).Perm nodes := by
  refine ((outcome.sortSlice_perm _).map ScoredNode.node).trans ?_
  rw [List.map_map]
  exact (List.map_id nodes).symm ▸ List.Perm.refl _

/-- A scored node has a positive score exactly when it loses less than 5%. -/
theorem score_pos_iff {outcome : Outcome} {nodes : List NodeInfo} {clientRegion clientISP : String}
    {sn : ScoredNode} (hsn : sn ∈ scoreNodes outcome nodes clientRegion clientISP) :
    0 < sn.score ↔ sn.node.lossRate < 5 / 100 := by
  obtain ⟨n, -, rfl⟩ := List.mem_map.mp ((outcome.sortSlice_perm _).mem_iff.mp hsn)
  have hew : 0 < if n.effectiveWeight ≤ 0 then 1 / 10 else n.effectiveWeight := by
    split_ifs with h
    · norm_num
    · exact not_le.mp h
  rw [← nodeScoreWithRegionBonus_pos_iff n clientRegion clientISP]
  exact mul_pos_iff_of_pos_right hew

/-- The walk splits the nodes into the picked one and the others. -/
theorem pickCumulative_perm {r cumulative : ℚ} {available others : List ScoredNode}
    {result : ScoredNode} (hpick : pickCumulative r cumulative available = some (result, others)) :
    (result :: others).Perm available := by
  induction available generalizing cumulative others with
  | nil => exact nomatch hpick
  | cons sn available ih =>
    rw [pickCumulative] at hpick
    split_ifs at hpick
    · obtain ⟨rfl, rfl⟩ := Prod.mk.inj (Option.some.inj hpick)
      exact List.Perm.refl _
    · obtain ⟨⟨found, rest⟩, hfound, hsplit⟩ := Option.map_eq_some_iff.mp hpick
      obtain ⟨rfl, rfl⟩ := Prod.mk.inj hsplit
      exact (List.Perm.swap _ _ _).trans ((ih hfound).cons sn)

/-- A pick takes one of the nodes, unless there is none. -/
theorem pickOne_spec (draw : ℚ) (available : List ScoredNode) (totalWeight : ℚ) :
    ((pickOne draw available totalWeight).1 = none ∧ available = []) ∨
      ∃ result, (pickOne draw available totalWeight).1 = some result ∧
        (result :: (pickOne draw available totalWeight).2.1).Perm available := by
  unfold pickOne
  cases hpick : pickCumulative (draw * totalWeight) 0 available with
  | some found => exact Or.inr ⟨found.1, rfl, pickCumulative_perm hpick⟩
  | none =>
    cases available with
    | nil => exact Or.inl ⟨rfl, rfl⟩
    | cons result others => exact Or.inr ⟨result, rfl, List.Perm.refl _⟩

/-- The candidates are the unused nodes with a positive score. -/
theorem mem_candidates {nodes : List ScoredNode} {used : List ℕ} {sn : ScoredNode} :
    sn ∈ candidates nodes used ↔ ∃ i, nodes[i]? = some sn ∧ i ∉ used ∧ 0 < sn.score := by
  simp only [candidates, List.mem_map, List.mem_filter, decide_eq_true_eq, Prod.exists,
    List.mem_zipIdx_iff_getElem?]
  constructor
  · rintro ⟨_, i, ⟨hget, hfree⟩, rfl⟩
    exact ⟨i, hget, hfree⟩
  · rintro ⟨i, hget, hfree⟩
    exact ⟨sn, i, ⟨hget, hfree⟩, rfl⟩

/-- The candidates have a positive weight in total. -/
theorem totalWeight_pos {nodes : List ScoredNode} {used : List ℕ}
    (hcandidates : candidates nodes used ≠ []) :
    0 < ((candidates nodes used).map ScoredNode.score).sum := by
  apply List.sum_pos
  · intro score hscore
    obtain ⟨sn, hsn, rfl⟩ := List.mem_map.mp hscore
    exact (mem_candidates.mp hsn).choose_spec.2.2
  · exact fun hnil ↦ hcandidates (List.map_eq_nil_iff.mp hnil)

/-- Two candidates are picked, as far as there are candidates. -/
theorem pickTwoWeighted_spec (draws : ℚ × ℚ) (nodes : List ScoredNode) (used : List ℕ) :
    (pickTwoWeighted draws nodes used = [] ↔ candidates nodes used = []) ∧
      ∀ sn ∈ pickTwoWeighted draws nodes used, sn ∈ candidates nodes used := by
  unfold pickTwoWeighted
  by_cases hempty : candidates nodes used = []
  · simp [hempty]
  · dsimp only
    rw [if_neg (not_or.mpr ⟨hempty, not_le.mpr (totalWeight_pos hempty)⟩)]
    rcases pickOne_spec draws.1 (candidates nodes used)
      ((candidates nodes used).map ScoredNode.score).sum with
      ⟨_, hnil⟩ | ⟨first, hfirst, hperm⟩
    · exact absurd hnil hempty
    · rw [hfirst]
      refine ⟨iff_of_false (by simp) hempty, fun sn hsn ↦ ?_⟩
      rw [Option.toList_some, List.singleton_append, List.mem_cons] at hsn
      rw [← hperm.mem_iff, List.mem_cons]
      refine hsn.imp_right fun hsecond ↦ ?_
      rw [Option.mem_toList] at hsecond
      rcases pickOne_spec draws.2
        (pickOne draws.1 (candidates nodes used)
          ((candidates nodes used).map ScoredNode.score).sum).2.1
        (pickOne draws.1 (candidates nodes used)
          ((candidates nodes used).map ScoredNode.score).sum).2.2 with
        ⟨hnone, _⟩ | ⟨second, hsome, hperm'⟩
      · exact nomatch hnone.symm.trans hsecond
      · obtain rfl := Option.some.inj (hsome.symm.trans hsecond)
        exact hperm'.mem_iff.mp List.mem_cons_self

/-- A round takes one of the picked candidates. -/
theorem choose_spec (picked : List ScoredNode) :
    (choose picked = none ∧ picked = []) ∨ ∃ chosen ∈ picked, choose picked = some chosen := by
  rcases picked with _ | ⟨first, _ | ⟨second, rest⟩⟩
  · exact Or.inl ⟨rfl, rfl⟩
  · exact Or.inr ⟨first, List.mem_cons_self, rfl⟩
  · refine Or.inr ⟨winner first second, ?_, rfl⟩
    unfold winner
    split_ifs <;> simp

/-- A node id stands at one position only. Assumes: distinct node ids. -/
theorem position_unique {nodes : List ScoredNode} {sn other : ScoredNode} {i j : ℕ}
    (hdistinct : (nodes.map fun sn ↦ sn.node.nodeID).Nodup) (hget : nodes[i]? = some sn)
    (hget' : nodes[j]? = some other) (hid : sn.node.nodeID = other.node.nodeID) : i = j := by
  obtain ⟨hi, rfl⟩ := List.getElem?_eq_some_iff.mp hget
  obtain ⟨hj, rfl⟩ := List.getElem?_eq_some_iff.mp hget'
  have hi' : i < (nodes.map fun sn ↦ sn.node.nodeID).length := by rwa [List.length_map]
  have hj' : j < (nodes.map fun sn ↦ sn.node.nodeID).length := by rwa [List.length_map]
  have hsame : (nodes.map fun sn ↦ sn.node.nodeID)[i] = (nodes.map fun sn ↦ sn.node.nodeID)[j] := by
    rwa [List.getElem_map, List.getElem_map]
  exact hdistinct.getElem_inj_iff.mp hsame

/-- A chosen node is marked at its own position. Assumes: distinct node ids. -/
theorem markUsed_eq {nodes : List ScoredNode} {used : List ℕ} {sn : ScoredNode} {i : ℕ}
    (hdistinct : (nodes.map fun sn ↦ sn.node.nodeID).Nodup) (hget : nodes[i]? = some sn) :
    markUsed nodes used sn.node.nodeID = i :: used := by
  unfold markUsed
  cases hfind : nodes.findIdx? fun other ↦ decide (other.node.nodeID = sn.node.nodeID) with
  | none =>
    have hnone := List.findIdx?_eq_none_iff.mp hfind sn (List.mem_of_getElem? hget)
    simp at hnone
  | some j =>
    obtain ⟨hj, hid, _⟩ := List.findIdx?_eq_some_iff_getElem.mp hfind
    rw [position_unique hdistinct hget (List.getElem?_eq_getElem hj) (of_decide_eq_true hid).symm]

/-- What the selection loop returns: nodes at positions that were not used, no two with one id.
Assumes: distinct node ids. -/
theorem p2cLoop_spec {nodes : List ScoredNode}
    (hdistinct : (nodes.map fun sn ↦ sn.node.nodeID).Nodup) (draws : ℕ → ℚ × ℚ)
    (missing round : ℕ) (used : List ℕ) :
    (∀ node ∈ p2cLoop draws nodes missing round used,
      ∃ i sn, nodes[i]? = some sn ∧ i ∉ used ∧ sn.node = node) ∧
    ((p2cLoop draws nodes missing round used).map NodeInfo.nodeID).Nodup := by
  induction missing generalizing round used with
  | zero => simp [p2cLoop]
  | succ missing ih =>
    rw [p2cLoop]
    rcases choose_spec (pickTwoWeighted (draws round) nodes used) with
      ⟨hnone, _⟩ | ⟨chosen, hmem, hchosen⟩
    · simp [hnone]
    · obtain ⟨i, hget, hfree, _⟩ :=
        mem_candidates.mp ((pickTwoWeighted_spec (draws round) nodes used).2 chosen hmem)
      simp only [hchosen, markUsed_eq hdistinct hget]
      obtain ⟨hrest, hnodup⟩ := ih (round + 1) (i :: used)
      refine ⟨fun node hnode ↦ ?_, ?_⟩
      · rcases List.mem_cons.mp hnode with rfl | hnode
        · exact ⟨i, chosen, hget, hfree, rfl⟩
        · obtain ⟨j, sn, hget', hfree', hsn⟩ := hrest node hnode
          exact ⟨j, sn, hget', fun hused ↦ hfree' (List.mem_cons_of_mem i hused), hsn⟩
      · rw [List.map_cons, List.nodup_cons]
        refine ⟨fun hduplicate ↦ ?_, hnodup⟩
        obtain ⟨node, hnode, hid⟩ := List.mem_map.mp hduplicate
        obtain ⟨j, sn, hget', hfree', rfl⟩ := hrest node hnode
        exact hfree' (position_unique hdistinct hget' hget hid ▸ List.mem_cons_self)

/-- What `p2cSelect` returns are nodes of the list, no two with one id. Assumes: distinct node
ids. -/
theorem p2cSelect_spec {nodes : List ScoredNode}
    (hdistinct : (nodes.map fun sn ↦ sn.node.nodeID).Nodup) (draws : ℕ → ℚ × ℚ) (n : ℕ) :
    (∀ node ∈ p2cSelect draws nodes n, node ∈ nodes.map ScoredNode.node) ∧
      ((p2cSelect draws nodes n).map NodeInfo.nodeID).Nodup := by
  unfold p2cSelect
  split_ifs with hshort
  · refine ⟨fun node hnode ↦ hnode, ?_⟩
    rwa [List.map_map]
  · obtain ⟨hmem, hnodup⟩ := p2cLoop_spec hdistinct draws n 0 []
    refine ⟨fun node hnode ↦ ?_, hnodup⟩
    obtain ⟨i, sn, hget, _, rfl⟩ := hmem node hnode
    exact List.mem_map_of_mem (List.mem_of_getElem? hget)

/-- `p2cSelect` selects something when the list is short and not empty, or long with a positive
score in it. Assumes: at least one node is asked for. -/
theorem p2cSelect_ne_nil_iff {n : ℕ} (hn : 0 < n) (draws : ℕ → ℚ × ℚ) (nodes : List ScoredNode) :
    p2cSelect draws nodes n ≠ [] ↔
      nodes ≠ [] ∧ (nodes.length ≤ n ∨ ∃ sn ∈ nodes, 0 < sn.score) := by
  unfold p2cSelect
  split_ifs with hshort
  · rw [ne_eq, List.map_eq_nil_iff]
    exact ⟨fun h ↦ ⟨h, Or.inl hshort⟩, fun h ↦ h.1⟩
  · obtain ⟨missing, rfl⟩ := Nat.exists_eq_succ_of_ne_zero hn.ne'
    have hcandidates : (∃ sn ∈ nodes, 0 < sn.score) ↔ candidates nodes [] ≠ [] := by
      rw [← List.isEmpty_eq_false_iff, List.isEmpty_eq_false_iff_exists_mem]
      refine exists_congr fun sn ↦ ?_
      rw [mem_candidates, List.mem_iff_getElem?]
      simp
    have hpick : pickTwoWeighted (draws 0) nodes [] ≠ [] ↔ candidates nodes [] ≠ [] :=
      not_congr (pickTwoWeighted_spec (draws 0) nodes []).1
    rw [or_iff_right hshort, hcandidates, and_iff_right_of_imp, ← hpick, p2cLoop]
    · rcases choose_spec (pickTwoWeighted (draws 0) nodes []) with
        ⟨hnone, hnil⟩ | ⟨chosen, hmem, hchosen⟩
      · rw [hnone]
        exact iff_of_false (fun h ↦ h rfl) fun h ↦ h hnil
      · simp only [hchosen, ne_eq, reduceCtorEq, not_false_eq_true, true_iff]
        exact List.ne_nil_of_mem hmem
    · rintro - rfl
      simp at hshort

end LiveCDN.Controller.Scheduling
