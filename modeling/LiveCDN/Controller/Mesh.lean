import LiveCDN.Controller.Endpoint
import LiveCDN.Library.Ranking
import LiveCDN.Library.StableBest

/-!
# Cascade candidates

`controller/mesh.go`: the candidate upstreams the controller offers an agent in the reply to its
heartbeat. A candidate is built from a node that `GetHealthyNodes` returned, has a lower tier than
the requester and budget left for one more downstream; `mem_healthy_of_candidate` is the part that
the admission of nodes rests on.

`candidates_exact` says which nodes are offered: at most three of the eligible ones, the best by
score, and all of them when there are fewer. A candidate has a lower tier than its requester, so for
a fixed store the relation of pulling from a candidate has no cycle.

Scope. The order of the walk over the nodes and the order `sort.Slice` gives candidates of equal
score are parameters. The load and the bandwidth budget are computed in binary64. How the operations
on scores are rounded is a parameter `rd`: the controller rounds them to binary64 too, without fused
operations, and with the identity they are exact. The epoch counter and the policy constants are
left out.
-/

set_option autoImplicit false
set_option relaxedAutoImplicit false

namespace LiveCDN.Controller.Mesh

open NodeStore Endpoint Library.Binary64 Library.Ranking

/-! ### Records -/

/-- `CandidateUpstream`. -/
structure CandidateUpstream where
  nodeID : String
  url : String
  region : String
  isp : String
  tier : ℕ
  scoreHint : ℚ
  maxChildren : ℤ
  currentChildren : ℤ
  bwRemainingMbps : ℚ
  allowCascade : Bool
  hasIPv6 : Bool
  ipv6URL : String
  deriving DecidableEq, Repr

/-- `MigrationAdvice`. -/
structure MigrationAdvice where
  shouldSwitch : Bool
  preferredNode : String
  reason : String
  deriving DecidableEq, Repr

/-! ### Scores and budgets -/

/-- `computeTier`. -/
def computeTier (node : NodeInfo) : ℕ :=
  if node.cascadeEnabled = true ∧ node.cascadeUpstream = false then 1 else 2

/-- `buildCascadeEndpointURL`. -/
def buildCascadeEndpointURL (node : NodeInfo) : String :=
  let host := if node.publicIPv6 ≠ "" then "[" ++ node.publicIPv6 ++ "]" else node.publicIP
  let host := if node.port ≠ 0 ∧ node.port ≠ 80 ∧ node.port ≠ 443 then hostPort host node.port
    else host
  httpScheme node ++ "://" ++ host ++ "/cascade/{stream_key}.flv"

/-- `buildIPv6CascadeURL`. -/
def buildIPv6CascadeURL (node : NodeInfo) : String :=
  if node.publicIPv6 = "" then ""
  else
    httpScheme node ++ "://" ++ hostPort ("[" ++ node.publicIPv6 ++ "]") node.port ++
      "/cascade/{stream_key}.flv"

section Scores

variable (rd : ℚ → ℚ)

/-- The locality score of `meshNodeScoreV2`. -/
def localityScore (node : NodeInfo) (requesterRegion requesterISP : String) : ℚ :=
  if node.region = requesterRegion ∧ node.isp = requesterISP then 1
  else if node.region = requesterRegion then rd (6 / 10)
  else rd (2 / 10)

/-- The capacity score of `meshNodeScoreV2`. -/
def capacityScore (node : NodeInfo) : ℚ :=
  if node.bwLimit > 0 then
    let avail := rd (1 - rd (rd node.bwUsed / rd node.bwLimit))
    let childrenAvail : ℚ := if node.childrenCount > 0 then 5 / 10 else 1
    rd (rd (avail * rd (6 / 10)) + rd (childrenAvail * rd (4 / 10)))
  else 5 / 10

/-- The stability score of `meshNodeScoreV2`. -/
def stabilityScore (node : NodeInfo) : ℚ :=
  if node.lossRate > nearest (5 / 100) then rd (3 / 10)
  else if node.lossRate > nearest (1 / 100) then rd (6 / 10)
  else rd (8 / 10)

/-- The topology score of `meshNodeScoreV2`. -/
def topologyScore (node : NodeInfo) (requesterRegion requesterISP : String) : ℚ :=
  let topology : ℚ := if node.cascadeEnabled = true ∧ node.cascadeUpstream = false then
    rd (0 + rd (3 / 10)) else 0
  let topology :=
    if node.region = requesterRegion ∧ node.isp = requesterISP then rd (topology + 5 / 10)
    else if node.region = requesterRegion then rd (topology + rd (2 / 10))
    else topology
  let topology := if node.publicIPv6 ≠ "" then rd (topology + rd (1 / 10)) else topology
  if topology > 1 then 1 else topology

/-- `meshNodeScoreV2`: the six products are added from the left. -/
def meshNodeScoreV2 (node : NodeInfo) (requesterRegion requesterISP : String) : ℚ :=
  let isp : ℚ := if node.isp = requesterISP then 1 else rd (4 / 10)
  let ipv6 : ℚ := if node.publicIPv6 ≠ "" then 1 else 0
  let score := rd (25 / 100 * localityScore rd node requesterRegion requesterISP)
  let score := rd (score + rd (rd (20 / 100) * isp))
  let score := rd (score + rd (rd (15 / 100) * capacityScore rd node))
  let score := rd (score + rd (rd (15 / 100) * stabilityScore rd node))
  let score := rd (score + rd (rd (10 / 100) * ipv6))
  let score := rd (score + rd (rd (15 / 100) * topologyScore rd node requesterRegion requesterISP))
  if score > 1 then 1 else score

/-- The score of a node out of a hundred, as a candidate states it. -/
def scoreHintOf (node requester : NodeInfo) : ℚ :=
  rd (meshNodeScoreV2 rd node requester.region requester.isp * 100)

end Scores

/-- The cascade bandwidth left on a node, in Mbps. -/
def bwRemaining (node : NodeInfo) : ℚ :=
  if node.bwLimit > 0 then
    let maxCascadeBW := div (mul (nearest node.bwLimit) (nearest (30 / 100))) 125000
    let usedCascadeBW := div (nearest node.cascadeEgressBW) 125000
    sub maxCascadeBW usedCascadeBW
  else 9

/-- The share of its bandwidth a node uses. -/
def loadScore (node : NodeInfo) : ℚ :=
  if node.bwLimit > 0 then node.usage else 0

/-- The most downstreams a node is given, four Mbps each. It is read where the bandwidth left is
positive, so the conversion to an integer rounds down. -/
def maxChildren (node : NodeInfo) : ℤ := ⌊div (bwRemaining node) 4⌋

/-- `buildCandidate`. -/
def buildCandidate (rd : ℚ → ℚ) (node : NodeInfo) (tier : ℕ) (requester : NodeInfo) :
    Option CandidateUpstream :=
  if loadScore node > nearest (70 / 100) then none
  else if bwRemaining node < 2 then none
  else if maxChildren node < 1 then none
  else
    some {
      nodeID := node.nodeID
      url := buildCascadeEndpointURL node
      region := node.region
      isp := node.isp
      tier := tier
      scoreHint := scoreHintOf rd node requester
      maxChildren := maxChildren node
      currentChildren := node.childrenCount
      bwRemainingMbps := div (round (mul (bwRemaining node) 100) : ℤ) 100
      allowCascade := true
      hasIPv6 := decide (node.publicIPv6 ≠ "")
      ipv6URL := buildIPv6CascadeURL node }

/-! ### The reply -/

/-- The loop of `buildMeshMapResponse`: the candidates among the healthy nodes. -/
def gatherCandidates (rd : ℚ → ℚ) (requester : NodeInfo) (healthyNodes : List NodeInfo) :
    List CandidateUpstream :=
  healthyNodes.filterMap fun n ↦
    if n.nodeID = requester.nodeID then none
    else if n.cascadeEnabled = false then none
    else if computeTier n ≥ computeTier requester then none
    else buildCandidate rd n (computeTier n) requester

/-- What the runtime decides while a reply is built: the order of the walk over the nodes and the
order of candidates of equal score. -/
structure MeshOutcome where
  visit : List NodeInfo → List NodeInfo
  visit_perm : ∀ nodes, (visit nodes).Perm nodes
  sortSlice : List CandidateUpstream → List CandidateUpstream
  sortSlice_perm : ∀ candidates, (sortSlice candidates).Perm candidates
  sortSlice_sorted : ∀ candidates,
    (sortSlice candidates).Pairwise fun a b ↦ b.scoreHint ≤ a.scoreHint

/-- A walk in the order of the table, with candidates of equal score in that order. -/
def inOrderOutcome : MeshOutcome where
  visit := id
  visit_perm _ := List.Perm.refl _
  sortSlice := Library.StableBest.sortDescending CandidateUpstream.scoreHint
  sortSlice_perm := Library.StableBest.perm_sortDescending CandidateUpstream.scoreHint
  sortSlice_sorted := Library.StableBest.pairwise_sortDescending CandidateUpstream.scoreHint

/-- `checkMigrationAdvice`. -/
def checkMigrationAdvice (store : MemoryStore) (requester : NodeInfo)
    (candidates : List CandidateUpstream) : Option MigrationAdvice :=
  if requester.currentUpstream = "" then none
  else
    match store.getNode requester.currentUpstream with
    | none => some ⟨true, "", "upstream_offline"⟩
    | some upstream =>
      if upstream.bwLimit > 0 ∧ upstream.usage > nearest (8 / 10) then
        candidates.head?.map fun first ↦ ⟨true, first.nodeID, "parent_overloaded"⟩
      else none

/-- The part of `MeshMapResponse` that depends on the nodes. -/
structure MeshMapResponse where
  selfNodeID : String
  selfTier : ℕ
  candidateUpstreams : List CandidateUpstream
  migrationAdvice : Option MigrationAdvice
  deriving DecidableEq, Repr

/-- `buildMeshMapResponse`: no reply for a node that is not registered. -/
def buildMeshMapResponse (rd : ℚ → ℚ) (store : MemoryStore) (outcome : MeshOutcome)
    (now : ℕ) (requesterID : String) : Option MeshMapResponse :=
  match store.getNode requesterID with
  | none => none
  | some requester =>
    let healthyNodes := outcome.visit (store.getHealthyNodes now)
    let candidates := (outcome.sortSlice (gatherCandidates rd requester healthyNodes)).take 3
    some ⟨requesterID, computeTier requester, candidates,
      checkMigrationAdvice store requester candidates⟩

/-- A built candidate names its node. -/
theorem nodeID_of_buildCandidate {rd : ℚ → ℚ} {node requester : NodeInfo} {tier : ℕ}
    {candidate : CandidateUpstream}
    (hbuild : buildCandidate rd node tier requester = some candidate) :
    candidate.nodeID = node.nodeID := by
  unfold buildCandidate at hbuild
  split_ifs at hbuild
  exact Option.some.inj hbuild ▸ rfl

/-- Every candidate offered to an agent is a node in `GetHealthyNodes`. -/
theorem mem_healthy_of_candidate {rd : ℚ → ℚ} {store : MemoryStore} {outcome : MeshOutcome}
    {now : ℕ} {requesterID : String} {response : MeshMapResponse} {candidate : CandidateUpstream}
    (hresponse : buildMeshMapResponse rd store outcome now requesterID = some response)
    (hcandidate : candidate ∈ response.candidateUpstreams) :
    candidate.nodeID ∈ (store.getHealthyNodes now).map NodeInfo.nodeID := by
  unfold buildMeshMapResponse at hresponse
  cases hrequester : store.getNode requesterID with
  | none => simp [hrequester] at hresponse
  | some requester =>
    simp only [hrequester] at hresponse
    obtain rfl := Option.some.inj hresponse
    have hgathered := (outcome.sortSlice_perm _).mem_iff.mp (List.mem_of_mem_take hcandidate)
    obtain ⟨node, hnode, hbuild⟩ := List.mem_filterMap.mp hgathered
    split_ifs at hbuild
    rw [nodeID_of_buildCandidate hbuild]
    exact List.mem_map_of_mem ((outcome.visit_perm _).mem_iff.mp hnode)

/-! ### Which candidates are issued -/

/-- The nodes that may be offered to a requester. -/
structure Eligible (store : MemoryStore) (now : ℕ) (requester node : NodeInfo) : Prop where
  stored : store.getNode node.nodeID = some node
  healthy : isNodeHealthy now node = true
  notCooling : store.isCooling now node.nodeID = false
  cascadeEnabled : node.cascadeEnabled = true
  notRequester : node.nodeID ≠ requester.nodeID
  lowerTier : computeTier node < computeTier requester
  load : loadScore node ≤ nearest (70 / 100)
  budget : 2 ≤ bwRemaining node
  oneMoreChild : 1 ≤ maxChildren node

/-- A list of candidates for a requester that is exactly the best of the eligible nodes. -/
structure IssuedExactly (rd : ℚ → ℚ) (store : MemoryStore) (now : ℕ) (requester : NodeInfo)
    (candidates : List CandidateUpstream) : Prop where
  atMostThree : candidates.length ≤ 3
  distinct : (candidates.map CandidateUpstream.nodeID).Nodup
  descending : candidates.Pairwise fun a b ↦ b.scoreHint ≤ a.scoreHint
  sound : ∀ candidate ∈ candidates, ∃ node, Eligible store now requester node ∧
    buildCandidate rd node (computeTier node) requester = some candidate
  complete : candidates.length < 3 → ∀ node, Eligible store now requester node →
    ∃ candidate ∈ candidates, candidate.nodeID = node.nodeID
  best : ∀ node, Eligible store now requester node →
    (∀ candidate ∈ candidates, candidate.nodeID ≠ node.nodeID) →
      ∀ candidate ∈ candidates,
        scoreHintOf rd node requester ≤ candidate.scoreHint

/-- The second node is among the candidates that the first one is offered in some reply. -/
def MayPullFrom (rd : ℚ → ℚ) (store : MemoryStore) (requesterID upstreamID : String) : Prop :=
  ∃ outcome now response, buildMeshMapResponse rd store outcome now requesterID = some response ∧
    ∃ candidate ∈ response.candidateUpstreams, candidate.nodeID = upstreamID

/-- A candidate is built exactly within the budget. -/
theorem buildCandidate_isSome_iff {rd : ℚ → ℚ} {node requester : NodeInfo} {tier : ℕ} :
    (∃ candidate, buildCandidate rd node tier requester = some candidate) ↔
      loadScore node ≤ nearest (70 / 100) ∧ 2 ≤ bwRemaining node ∧ 1 ≤ maxChildren node := by
  unfold buildCandidate
  by_cases hload : loadScore node > nearest (70 / 100)
  · rw [if_pos hload]
    exact iff_of_false (fun ⟨_, h⟩ ↦ by cases h) fun h ↦ not_le.mpr hload h.1
  by_cases hbudget : bwRemaining node < 2
  · rw [if_neg hload, if_pos hbudget]
    exact iff_of_false (fun ⟨_, h⟩ ↦ by cases h) fun h ↦ not_le.mpr hbudget h.2.1
  by_cases hchildren : maxChildren node < 1
  · rw [if_neg hload, if_neg hbudget, if_pos hchildren]
    exact iff_of_false (fun ⟨_, h⟩ ↦ by cases h) fun h ↦ not_le.mpr hchildren h.2.2
  · rw [if_neg hload, if_neg hbudget, if_neg hchildren]
    exact iff_of_true ⟨_, rfl⟩ ⟨not_lt.mp hload, not_lt.mp hbudget, not_lt.mp hchildren⟩

/-- What a built candidate says of its node. -/
theorem buildCandidate_fields {rd : ℚ → ℚ} {node requester : NodeInfo} {tier : ℕ}
    {candidate : CandidateUpstream}
    (hbuild : buildCandidate rd node tier requester = some candidate) :
    candidate.nodeID = node.nodeID ∧ candidate.tier = tier ∧
      candidate.scoreHint = scoreHintOf rd node requester := by
  unfold buildCandidate at hbuild
  split_ifs at hbuild
  obtain rfl := Option.some.inj hbuild
  exact ⟨rfl, rfl, rfl⟩

/-- One turn of the loop of `buildMeshMapResponse`. -/
theorem mem_gatherCandidates_iff {rd : ℚ → ℚ} {requester : NodeInfo} {nodes : List NodeInfo}
    {candidate : CandidateUpstream} :
    candidate ∈ gatherCandidates rd requester nodes ↔
      ∃ node ∈ nodes, (node.nodeID ≠ requester.nodeID ∧ node.cascadeEnabled = true ∧
        computeTier node < computeTier requester) ∧
          buildCandidate rd node (computeTier node) requester = some candidate := by
  rw [gatherCandidates, List.mem_filterMap]
  refine exists_congr fun node ↦ and_congr_right fun _ ↦ ?_
  split_ifs with hself hdisabled htier
  · exact iff_of_false (fun h ↦ by cases h) fun h ↦ h.1.1 hself
  · refine iff_of_false (fun h ↦ by cases h) fun h ↦ ?_
    rw [h.1.2.1] at hdisabled
    cases hdisabled
  · exact iff_of_false (fun h ↦ by cases h) fun h ↦ not_lt.mpr htier h.1.2.2
  · exact (and_iff_right ⟨hself, Bool.not_eq_false _ ▸ hdisabled, not_le.mp htier⟩).symm

/-- The candidates gathered from the healthy nodes are those built from the eligible ones. -/
theorem mem_gatherCandidates_healthy_iff {rd : ℚ → ℚ} {store : MemoryStore}
    {outcome : MeshOutcome} {now : ℕ} {requester : NodeInfo} {candidate : CandidateUpstream} :
    candidate ∈ gatherCandidates rd requester (outcome.visit (store.getHealthyNodes now)) ↔
      ∃ node, Eligible store now requester node ∧
        buildCandidate rd node (computeTier node) requester = some candidate := by
  rw [mem_gatherCandidates_iff]
  refine exists_congr fun node ↦ ?_
  rw [(outcome.visit_perm _).mem_iff, MemoryStore.mem_getHealthyNodes]
  constructor
  · rintro ⟨⟨hstored, hhealthy, hcooling⟩, ⟨hself, henabled, htier⟩, hbuild⟩
    obtain ⟨hload, hbudget, hchildren⟩ := buildCandidate_isSome_iff.mp ⟨candidate, hbuild⟩
    exact ⟨⟨hstored, hhealthy, hcooling, henabled, hself, htier, hload, hbudget, hchildren⟩, hbuild⟩
  · rintro ⟨heligible, hbuild⟩
    exact ⟨⟨heligible.stored, heligible.healthy, heligible.notCooling⟩,
      ⟨heligible.notRequester, heligible.cascadeEnabled, heligible.lowerTier⟩, hbuild⟩

/-- The gathered candidates name their nodes in the order of the walk. -/
theorem sublist_gatherCandidates (rd : ℚ → ℚ) (requester : NodeInfo) (nodes : List NodeInfo) :
    ((gatherCandidates rd requester nodes).map CandidateUpstream.nodeID).Sublist
      (nodes.map NodeInfo.nodeID) := by
  refine Library.KeyedTable.map_filterMap_sublist fun node _ candidate hbuilt ↦ ?_
  split_ifs at hbuilt
  exact nodeID_of_buildCandidate hbuilt

/-- No two gathered candidates name the same node. -/
theorem nodup_gatherCandidates (rd : ℚ → ℚ) (store : MemoryStore) (outcome : MeshOutcome)
    (now : ℕ) (requester : NodeInfo) :
    ((gatherCandidates rd requester (outcome.visit (store.getHealthyNodes now))).map
      CandidateUpstream.nodeID).Nodup := by
  have hvisited : ((outcome.visit (store.getHealthyNodes now)).map NodeInfo.nodeID).Nodup :=
    ((outcome.visit_perm _).map _).nodup_iff.mpr (store.nodup_getHealthyNodes now)
  exact hvisited.sublist (sublist_gatherCandidates rd requester _)

/-- The reply to a registered requester. -/
theorem buildMeshMapResponse_eq (rd : ℚ → ℚ) {store : MemoryStore} (outcome : MeshOutcome)
    (now : ℕ) {requesterID : String} {requester : NodeInfo}
    (hrequester : store.getNode requesterID = some requester) :
    ∃ response, buildMeshMapResponse rd store outcome now requesterID = some response ∧
      response.selfTier = computeTier requester ∧
      response.candidateUpstreams = (outcome.sortSlice (gatherCandidates rd requester
        (outcome.visit (store.getHealthyNodes now)))).take 3 := by
  unfold buildMeshMapResponse
  rw [hrequester]
  exact ⟨_, rfl, rfl, rfl⟩

/-- Sorting the gathered candidates and keeping three gives exactly the best. -/
theorem issuedExactly_take (rd : ℚ → ℚ) (store : MemoryStore) (outcome : MeshOutcome)
    (now : ℕ) (requester : NodeInfo) :
    IssuedExactly rd store now requester ((outcome.sortSlice (gatherCandidates rd requester
      (outcome.visit (store.getHealthyNodes now)))).take 3) := by
  set gathered := gatherCandidates rd requester (outcome.visit (store.getHealthyNodes now))
    with hgathered
  set sorted := outcome.sortSlice gathered
  have hperm : sorted.Perm gathered := outcome.sortSlice_perm gathered
  have hsorted : sorted.Pairwise fun a b ↦ b.scoreHint ≤ a.scoreHint :=
    outcome.sortSlice_sorted gathered
  have hnodup : (sorted.map CandidateUpstream.nodeID).Nodup :=
    (hperm.map _).nodup_iff.mpr (nodup_gatherCandidates rd store outcome now requester)
  have hbuilt : ∀ candidate, candidate ∈ sorted ↔ ∃ node, Eligible store now requester node ∧
      buildCandidate rd node (computeTier node) requester = some candidate := fun candidate ↦
    hperm.mem_iff.trans mem_gatherCandidates_healthy_iff
  have hissued : ∀ node, Eligible store now requester node → ∃ candidate ∈ sorted,
      buildCandidate rd node (computeTier node) requester = some candidate := by
    intro node heligible
    have hexists : ∃ candidate,
        buildCandidate rd node (computeTier node) requester = some candidate :=
      buildCandidate_isSome_iff.mpr ⟨heligible.load, heligible.budget, heligible.oneMoreChild⟩
    obtain ⟨candidate, hbuild⟩ := hexists
    exact ⟨candidate, (hbuilt candidate).mpr ⟨node, heligible, hbuild⟩, hbuild⟩
  refine ⟨List.length_take_le 3 sorted, ?_, hsorted.sublist (List.take_sublist 3 sorted), ?_, ?_,
    ?_⟩
  · exact hnodup.sublist ((List.take_sublist 3 sorted).map _)
  · intro candidate hcandidate
    exact (hbuilt candidate).mp (List.mem_of_mem_take hcandidate)
  · intro hfew node heligible
    obtain ⟨candidate, hmem, hbuild⟩ := hissued node heligible
    have hall : sorted.take 3 = sorted := by
      rw [List.length_take] at hfew
      exact List.take_of_length_le (by omega)
    exact ⟨candidate, hall.symm ▸ hmem, (buildCandidate_fields hbuild).1⟩
  · intro node heligible homitted candidate hcandidate
    obtain ⟨other, hmem, hbuild⟩ := hissued node heligible
    rw [← List.take_append_drop 3 sorted] at hmem hsorted
    rcases List.mem_append.mp hmem with hkept | hcut
    · exact absurd (buildCandidate_fields hbuild).1 (homitted other hkept)
    · rw [← (buildCandidate_fields hbuild).2.2]
      exact (List.pairwise_append.mp hsorted).2.2 candidate hcandidate other hcut

/-- The tier of a stored node; nodes that are not stored come last. -/
def tierOf (store : MemoryStore) (id : String) : ℕ :=
  (store.getNode id).elim 3 computeTier

/-- A node is offered only candidates of a lower tier. -/
theorem tierOf_lt_of_mayPullFrom {rd : ℚ → ℚ} {store : MemoryStore}
    {requesterID upstreamID : String} (hpull : MayPullFrom rd store requesterID upstreamID) :
    tierOf store upstreamID < tierOf store requesterID := by
  obtain ⟨outcome, now, response, hresponse, candidate, hcandidate, rfl⟩ := hpull
  cases hrequester : store.getNode requesterID with
  | none =>
    unfold buildMeshMapResponse at hresponse
    rw [hrequester] at hresponse
    cases hresponse
  | some requester =>
    obtain ⟨other, hother, _, hcandidates⟩ := buildMeshMapResponse_eq rd outcome now hrequester
    obtain rfl := Option.some.inj (hother.symm.trans hresponse)
    rw [hcandidates] at hcandidate
    obtain ⟨node, heligible, hbuild⟩ :=
      (issuedExactly_take rd store outcome now requester).sound candidate hcandidate
    rw [tierOf, tierOf, hrequester, (buildCandidate_fields hbuild).1, heligible.stored]
    exact heligible.lowerTier

/-- The candidates of a reply are exactly the best eligible nodes: at most three, distinct, by
descending score, each eligible; all eligible nodes when there are fewer than three, and no omitted
one with a higher score, whether the operations on scores are exact or rounded in any way. For a
fixed store the relation of pulling from a candidate has no cycle. -/
theorem candidates_exact (rd : ℚ → ℚ) (store : MemoryStore) :
    (∀ (outcome : MeshOutcome) (now : ℕ) (requesterID : String) (requester : NodeInfo),
      store.getNode requesterID = some requester →
        ∃ response, buildMeshMapResponse rd store outcome now requesterID = some response ∧
          IssuedExactly rd store now requester response.candidateUpstreams) ∧
      Acyclic (MayPullFrom rd store) := by
  constructor
  · intro outcome now requesterID requester hrequester
    obtain ⟨response, hresponse, _, hcandidates⟩ :=
      buildMeshMapResponse_eq rd outcome now hrequester
    exact ⟨response, hresponse, hcandidates ▸ issuedExactly_take rd store outcome now requester⟩
  · exact acyclic_of_rank (fun id ↦ OrderDual.toDual (tierOf store id)) fun a b hpull ↦
      OrderDual.toDual_lt_toDual.mpr (tierOf_lt_of_mayPullFrom hpull)

/-- A registration of a node that lets others pull from it. -/
def relayRequest (nodeID : String) (cascadeUpstream : Bool) : RegisterRequest where
  nodeID := nodeID
  publicIP := "192.0.2.1"
  publicIPv6 := ""
  port := 9090
  region := "r"
  isp := "i"
  bwLimit := 100000000
  domain := "edge.test"
  protocol := "ws"
  wsPath := ""
  tlsEnabled := false
  cascadeEnabled := true
  cascadeUpstream := cascadeUpstream

/-- A store with a node of tier 1 and a node of tier 2, both online. -/
def twoTierStore : MemoryStore :=
  let store := newMemoryStore.registerNode 0 (relayRequest "edge-1" false)
  let store := store.registerNode 0 (relayRequest "edge-2" true)
  let store := (store.setNodeStatus "edge-1" .online).1
  (store.setNodeStatus "edge-2" .online).1

/-- A witness of `candidates_exact`: the node of tier 2 is offered the node of tier 1, and the node
of tier 1 is offered nothing. -/
theorem candidates_exact_witness :
    (∃ response,
      buildMeshMapResponse nearest twoTierStore inOrderOutcome 1 "edge-2" = some response ∧
        response.candidateUpstreams.map CandidateUpstream.nodeID = ["edge-1"]) ∧
      (∃ response,
        buildMeshMapResponse nearest twoTierStore inOrderOutcome 1 "edge-1" = some response ∧
          response.candidateUpstreams.length ≤ 3 ∧ response.candidateUpstreams = []) := by
  have hedge1 : ((twoTierStore.getNode "edge-1").isSome) = true := by decide +kernel
  obtain ⟨response, hresponse, hissued⟩ := (candidates_exact nearest twoTierStore).1
    inOrderOutcome 1 "edge-1" _ (Option.some_get hedge1).symm
  have hnone : (buildMeshMapResponse nearest twoTierStore inOrderOutcome 1 "edge-1").map
      MeshMapResponse.candidateUpstreams = some [] := by decide +kernel
  rw [hresponse] at hnone
  refine ⟨?_, response, hresponse, hissued.atMostThree, Option.some.inj hnone⟩
  have hone : (buildMeshMapResponse nearest twoTierStore inOrderOutcome 1 "edge-2").map
      (fun response ↦ response.candidateUpstreams.map CandidateUpstream.nodeID) =
        some ["edge-1"] := by
    decide +kernel
  obtain ⟨offered, hoffered, hids⟩ := Option.map_eq_some_iff.mp hone
  exact ⟨offered, hoffered, hids⟩

end LiveCDN.Controller.Mesh
