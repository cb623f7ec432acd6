import LiveCDN.System.Cascade

/-!
# The capacity of an upstream

Who keeps an agent away from an upstream that is full. A candidate carries the largest number of
downstreams it may have and the number it has (`MaxChildren`, `CurrentChildren`). The controller
computes the first from the bandwidth that is left and asks only that it is at least one; the agent
lowers the local score of a candidate by the share of its children, to a half at most.

`RespectsCapacity` says that no reply to a requester holds a full candidate, or no selector takes
one from it. The agent has no test of its own: from every reply with a full candidate some selector
takes it (`exists_attachesToFull`), and each selector does unless a candidate with room outranks it
(`avoids_full_iff`). So the rule is kept exactly when no full node is ever issued, and that is when
each eligible node that is full has three eligible nodes with a higher score above it
(`respectsCapacity_iff`).

Scope. The order of the walk over the nodes and of candidates of equal score is any one. The
controller rounds to binary64.
-/

set_option autoImplicit false
set_option relaxedAutoImplicit false

namespace LiveCDN.System.Capacity

open Library Controller.NodeStore Controller.Mesh Cascade
open Library.Binary64 (nearest)
open Agent.CascadeSelector (Selector Env selectFromCandidates_avoids)

/-! ### The rule -/

/-- A candidate has all the downstreams it may have, as the controller issues it. -/
def Full (c : CandidateUpstream) : Prop := c.maxChildren ≤ c.currentChildren

/-- A candidate has all the downstreams it may have, as the agent reads it. -/
def FullUpstream (c : Agent.CascadeSelector.CandidateUpstream) : Prop :=
  c.maxChildren ≤ c.currentChildren

/-- A path leads to a full candidate. -/
def LeadsToFull (candidates : List Agent.CascadeSelector.CandidateUpstream)
    (path : Agent.CascadeSelector.CascadePath) : Prop :=
  ∃ c ∈ candidates, c.nodeId = path.upstreamNodeId ∧ FullUpstream c

/-- A selector takes a full candidate. -/
def AttachesToFull (s : Selector) (env : Env) (now : ℕ)
    (candidates : List Agent.CascadeSelector.CandidateUpstream) : Prop :=
  ∃ path, s.selectFromCandidates env now candidates = some path ∧ LeadsToFull candidates path

instance : DecidablePred Full := fun c ↦
  inferInstanceAs (Decidable (c.maxChildren ≤ c.currentChildren))

instance : DecidablePred FullUpstream := fun c ↦
  inferInstanceAs (Decidable (c.maxChildren ≤ c.currentChildren))

instance (candidates : List Agent.CascadeSelector.CandidateUpstream) :
    DecidablePred (LeadsToFull candidates) := fun path ↦
  inferInstanceAs (Decidable (∃ c ∈ candidates, c.nodeId = path.upstreamNodeId ∧ FullUpstream c))

instance (s : Selector) (env : Env) (now : ℕ)
    (candidates : List Agent.CascadeSelector.CandidateUpstream) :
    Decidable (AttachesToFull s env now candidates) :=
  inferInstanceAs (Decidable (∃ path ∈ s.selectFromCandidates env now candidates,
    LeadsToFull candidates path))

/-- A reply to a requester has no full candidate, or no selector takes one from it. -/
def RespectsCapacity (store : MemoryStore) (now : ℕ) (requesterID : String) : Prop :=
  ∀ outcome response, buildMeshMapResponse nearest store outcome now requesterID = some response →
    (∀ c ∈ response.candidateUpstreams, ¬ Full c) ∨
      ∀ (s : Selector) (env : Env) (later : ℕ),
        ¬ AttachesToFull s env later (receivedResponse response).candidateUpstreams

/-- Three nodes that may be offered to a requester have a higher score than a node. -/
def HasThreeAbove (store : MemoryStore) (now : ℕ) (requester node : NodeInfo) : Prop :=
  ∃ above : Finset String, above.card = 3 ∧ ∀ id ∈ above, ∃ other, other.nodeID = id ∧
    Eligible store now requester other ∧
      scoreHintOf nearest node requester < scoreHintOf nearest other requester

/-- Each node that may be offered to the requester and has all the downstreams it may have stands
below three others. -/
def FullOutranked (store : MemoryStore) (now : ℕ) (requesterID : String) : Prop :=
  ∀ requester, store.getNode requesterID = some requester →
    ∀ node, Eligible store now requester node → maxChildren node ≤ node.childrenCount →
      HasThreeAbove store now requester node

/-! ### What the agent does with a full candidate -/

/-- A selector avoids the full candidates exactly when each of them that it may use is outranked by
a candidate with room that it may use. -/
theorem avoids_full_iff (s : Selector) (env : Env) (now : ℕ)
    (candidates : List Agent.CascadeSelector.CandidateUpstream) :
    ¬ AttachesToFull s env now candidates ↔
      s.BadOutranked env now candidates (LeadsToFull candidates) := by
  rw [← selectFromCandidates_avoids, AttachesToFull, not_exists]
  exact forall_congr' fun path ↦ not_and

/-- A selector whose guard rejects every candidate that it looks at. -/
def rejecting : Selector :=
  { Selector.new "agent" "" "" false with loopGuard := ⟨"agent", ["agent"], 2⟩ }

/-- The guard cannot be read at one position of the candidate list. -/
def unreadableAt (position : ℕ) : Env :=
  { Env.always with guard := fun other ↦ decide (other ≠ position) }

/-- The rejecting selector may use only the candidate at which it cannot read its guard. -/
theorem mayUse_rejecting_iff {position : ℕ}
    {entry : Agent.CascadeSelector.CandidateUpstream × ℕ} :
    rejecting.MayUse (unreadableAt position) entry ↔
      entry.1.allowCascade = true ∧ entry.1.url ≠ "" ∧ entry.2 = position := by
  have hrejects : rejecting.loopGuard.wouldCreateLoop entry.1.nodeId entry.1.tier = true := by
    unfold Agent.CascadeSelector.LoopGuard.wouldCreateLoop
    split_ifs with htier hself hchain
    · rfl
    · rfl
    · rfl
    · exact absurd (by decide) hchain
  have hreads : (unreadableAt position).guard entry.2 = true ↔ entry.2 ≠ position :=
    decide_eq_true_iff
  rw [Selector.MayUse, hrejects, hreads, and_iff_left rfl, not_not]

/-- From every list with a full candidate that is allowed some selector takes it. -/
theorem exists_attachesToFull {candidates : List Agent.CascadeSelector.CandidateUpstream}
    {c : Agent.CascadeSelector.CandidateUpstream} (hmem : c ∈ candidates)
    (hallow : c.allowCascade = true) (hurl : c.url ≠ "") (hfull : FullUpstream c) (now : ℕ) :
    ∃ (s : Selector) (env : Env), AttachesToFull s env now candidates := by
  obtain ⟨front, back, rfl⟩ := List.append_of_mem hmem
  refine ⟨rejecting, unreadableAt front.length, ?_⟩
  by_contra hnone
  have hsplit : (front ++ c :: back).zipIdx =
      front.zipIdx ++ (c, front.length) :: back.zipIdx (front.length + 1) := by
    rw [List.zipIdx_append, List.zipIdx_cons, Nat.zero_add]
  have houtranked := (avoids_full_iff _ _ _ _).mp hnone _ _ _ hsplit
    (mayUse_rejecting_iff.mpr ⟨hallow, hurl, rfl⟩) ⟨c, hmem, rfl, hfull⟩
  rcases houtranked with ⟨other, hother, huse, -⟩ | ⟨other, hother, huse, -⟩
  · have hposition := (List.mem_zipIdx hother).2.1
    rw [(mayUse_rejecting_iff.mp huse).2.2] at hposition
    omega
  · have hposition := (List.mem_zipIdx hother).1
    rw [(mayUse_rejecting_iff.mp huse).2.2] at hposition
    omega

/-! ### When the controller issues one -/

/-- The capacity that a built candidate states is that of its node, and its address is not empty. -/
theorem buildCandidate_capacity {node requester : NodeInfo} {tier : ℕ} {c : CandidateUpstream}
    (hbuild : buildCandidate nearest node tier requester = some c) :
    (Full c ↔ maxChildren node ≤ node.childrenCount) ∧ c.allowCascade = true ∧ c.url ≠ "" := by
  unfold buildCandidate at hbuild
  split_ifs at hbuild
  obtain rfl := Option.some.inj hbuild
  refine ⟨Iff.rfl, rfl, fun hempty ↦ ?_⟩
  have hlength := congrArg String.length hempty
  dsimp only [buildCascadeEndpointURL] at hlength
  simp [String.length_append] at hlength

/-- The walk that visits a node first. -/
def visitFirst (node : NodeInfo) (nodes : List NodeInfo) : List NodeInfo :=
  if node ∈ nodes then node :: nodes.erase node else nodes

theorem perm_visitFirst (node : NodeInfo) (nodes : List NodeInfo) :
    (visitFirst node nodes).Perm nodes := by
  unfold visitFirst
  split_ifs with hmem
  · exact (List.perm_cons_erase hmem).symm
  · exact List.Perm.refl nodes

/-- The walk that visits a node first, with candidates of equal score in its order. -/
def firstOutcome (node : NodeInfo) : MeshOutcome :=
  { inOrderOutcome with visit := visitFirst node, visit_perm := perm_visitFirst node }

/-- The walk that visits an eligible node first builds its candidate first. -/
theorem gatherCandidates_visitFirst {store : MemoryStore} {now : ℕ} {requester node : NodeInfo}
    (heligible : Eligible store now requester node) {c : CandidateUpstream}
    (hbuild : buildCandidate nearest node (computeTier node) requester = some c) :
    gatherCandidates nearest requester (visitFirst node (store.getHealthyNodes now)) =
      c :: gatherCandidates nearest requester ((store.getHealthyNodes now).erase node) := by
  have hhealthy : node ∈ store.getHealthyNodes now :=
    MemoryStore.mem_getHealthyNodes.mpr
      ⟨heligible.stored, heligible.healthy, heligible.notCooling⟩
  rw [visitFirst, if_pos hhealthy, gatherCandidates, List.filterMap_cons_some]
  · rfl
  · rw [if_neg heligible.notRequester, if_neg (by rw [heligible.cascadeEnabled]; decide),
      if_neg (not_le.mpr heligible.lowerTier), hbuild]

/-- Three candidates with a higher hint are those of three nodes above the node. Assumes: they are
gathered from the healthy nodes and name different nodes. -/
theorem hasThreeAbove_of_better {store : MemoryStore} (outcome : MeshOutcome) {now : ℕ}
    {requester node : NodeInfo} {c : CandidateUpstream} {better : List CandidateUpstream}
    (hbuild : buildCandidate nearest node (computeTier node) requester = some c)
    (hlength : better.length = 3) (hnodup : (better.map CandidateUpstream.nodeID).Nodup)
    (hgathered : ∀ rival ∈ better,
      rival ∈ gatherCandidates nearest requester (outcome.visit (store.getHealthyNodes now)))
    (hhigher : ∀ rival ∈ better, c.scoreHint < rival.scoreHint) :
    HasThreeAbove store now requester node := by
  refine ⟨(better.map CandidateUpstream.nodeID).toFinset, ?_, fun id hid ↦ ?_⟩
  · rw [List.toFinset_card_of_nodup hnodup, List.length_map, hlength]
  · obtain ⟨rival, hrival, rfl⟩ := List.mem_map.mp (List.mem_toFinset.mp hid)
    obtain ⟨other, hother, hbuilt⟩ :=
      mem_gatherCandidates_healthy_iff.mp (hgathered rival hrival)
    have hscore := hhigher rival hrival
    rw [(buildCandidate_fields hbuild).2.2, (buildCandidate_fields hbuilt).2.2] at hscore
    exact ⟨other, (buildCandidate_fields hbuilt).1.symm, hother, hscore⟩

/-- A node that may be offered is issued in some reply unless three others stand above it. Assumes:
the requester is stored. -/
theorem issued_or_hasThreeAbove {store : MemoryStore} {now : ℕ} {requesterID : String}
    {requester node : NodeInfo} (hrequester : store.getNode requesterID = some requester)
    (heligible : Eligible store now requester node) {c : CandidateUpstream}
    (hbuild : buildCandidate nearest node (computeTier node) requester = some c) :
    (∃ outcome response,
        buildMeshMapResponse nearest store outcome now requesterID = some response ∧
          c ∈ response.candidateUpstreams) ∨
      HasThreeAbove store now requester node := by
  set others := gatherCandidates nearest requester ((store.getHealthyNodes now).erase node)
  have hgathered : gatherCandidates nearest requester
      ((firstOutcome node).visit (store.getHealthyNodes now)) = c :: others :=
    gatherCandidates_visitFirst heligible hbuild
  rcases StableBest.mem_take_sortDescending_cons CandidateUpstream.scoreHint c others 3 with
    hkept | ⟨better, hlength, hsublist, hhigher⟩
  · refine Or.inl ⟨firstOutcome node, ?_⟩
    obtain ⟨response, hresponse, -, hcandidates⟩ :=
      buildMeshMapResponse_eq nearest (firstOutcome node) now hrequester
    refine ⟨response, hresponse, ?_⟩
    rw [hcandidates]
    change c ∈ (StableBest.sortDescending CandidateUpstream.scoreHint (gatherCandidates nearest
      requester ((firstOutcome node).visit (store.getHealthyNodes now)))).take 3
    rw [hgathered]
    exact hkept
  · have hperm := StableBest.perm_sortDescending CandidateUpstream.scoreHint others
    have hall : ((c :: others).map CandidateUpstream.nodeID).Nodup :=
      hgathered ▸ nodup_gatherCandidates nearest store (firstOutcome node) now requester
    have hnodup : (better.map CandidateUpstream.nodeID).Nodup :=
      ((hperm.map _).nodup_iff.mpr hall.of_cons).sublist (hsublist.map _)
    refine Or.inr (hasThreeAbove_of_better (firstOutcome node) hbuild hlength hnodup
      (fun rival hrival ↦ ?_) hhigher)
    rw [hgathered]
    exact List.mem_cons_of_mem _ (hperm.mem_iff.mp (hsublist.subset hrival))

/-- No reply holds a node that three others stand above. -/
theorem not_issued_of_hasThreeAbove {store : MemoryStore} {now : ℕ} {requester node : NodeInfo}
    (heligible : Eligible store now requester node)
    (habove : HasThreeAbove store now requester node) {candidates : List CandidateUpstream}
    (hissued : IssuedExactly nearest store now requester candidates) {c : CandidateUpstream}
    (hbuild : buildCandidate nearest node (computeTier node) requester = some c) :
    c ∉ candidates := by
  intro hmem
  obtain ⟨above, hcard, habove⟩ := habove
  have hnamed : ∀ id ∈ above, id ∈ (candidates.map CandidateUpstream.nodeID).toFinset := by
    intro id hid
    obtain ⟨other, rfl, hother, hscore⟩ := habove id hid
    by_contra homitted
    have hle := hissued.best other hother (fun rival hrival hname ↦ homitted
      (List.mem_toFinset.mpr (hname ▸ List.mem_map_of_mem hrival))) c hmem
    rw [(buildCandidate_fields hbuild).2.2] at hle
    exact not_le_of_gt hscore hle
  have hsubset : above ⊆ (candidates.map CandidateUpstream.nodeID).toFinset.erase c.nodeID := by
    intro id hid
    refine Finset.mem_erase.mpr ⟨?_, hnamed id hid⟩
    rintro rfl
    obtain ⟨other, hname, hother, hscore⟩ := habove c.nodeID hid
    have hstored : store.getNode node.nodeID = some other := by
      rw [← (buildCandidate_fields hbuild).1, ← hname, hother.stored]
    obtain rfl := Option.some.inj (heligible.stored.symm.trans hstored)
    exact lt_irrefl _ hscore
  have hfew := Finset.card_le_card hsubset
  rw [Finset.card_erase_of_mem (List.mem_toFinset.mpr (List.mem_map_of_mem hmem)),
    List.toFinset_card_of_nodup hissued.distinct, List.length_map, hcard] at hfew
  have := hissued.atMostThree
  omega

/-- The capacity of an upstream is respected exactly when each full node that may be offered stands
below three others: then it is not issued, and else some selector takes it from some reply. -/
theorem respectsCapacity_iff (store : MemoryStore) (now : ℕ) (requesterID : String) :
    RespectsCapacity store now requesterID ↔ FullOutranked store now requesterID := by
  constructor
  · intro hrespects requester hrequester node heligible hfull
    obtain ⟨c, hbuild⟩ : ∃ c, buildCandidate nearest node (computeTier node) requester = some c :=
      buildCandidate_isSome_iff.mpr ⟨heligible.load, heligible.budget, heligible.oneMoreChild⟩
    obtain ⟨hcapacity, hallow, hurl⟩ := buildCandidate_capacity hbuild
    refine (issued_or_hasThreeAbove hrequester heligible hbuild).resolve_left ?_
    rintro ⟨outcome, response, hresponse, hmem⟩
    rcases hrespects outcome response hresponse with hroom | havoids
    · exact hroom c hmem (hcapacity.mpr hfull)
    · obtain ⟨s, env, hattaches⟩ := exists_attachesToFull
        (List.mem_map_of_mem (f := receivedCandidate) hmem) hallow hurl (hcapacity.mpr hfull) 0
      exact havoids s env 0 hattaches
  · intro houtranked outcome response hresponse
    refine Or.inl fun c hmem hfull ↦ ?_
    cases hrequester : store.getNode requesterID with
    | none =>
      rw [buildMeshMapResponse, hrequester] at hresponse
      cases hresponse
    | some requester =>
      obtain ⟨other, hother, -, hcandidates⟩ :=
        buildMeshMapResponse_eq nearest outcome now hrequester
      obtain rfl := Option.some.inj (hother.symm.trans hresponse)
      have hissued := issuedExactly_take nearest store outcome now requester
      rw [← hcandidates] at hissued
      obtain ⟨node, heligible, hbuild⟩ := hissued.sound c hmem
      have habove := houtranked requester hrequester node heligible
        ((buildCandidate_capacity hbuild).1.mp hfull)
      exact not_issued_of_hasThreeAbove heligible habove hissued hbuild hmem

/-- A store in which `edge-1` has reported sixty downstreams, as many as its bandwidth allows. -/
def fullStore : MemoryStore :=
  (twoTierStore.updateHeartbeat 0
    ⟨"edge-1", 0, 100000000, 0, 0, 0, 0, 60, 0, ""⟩).toOption.getD twoTierStore

/-- The full node is the only candidate that `edge-2` is offered, and its selector takes it. -/
theorem respectsCapacity_counterexample :
    (∃ response, buildMeshMapResponse nearest fullStore inOrderOutcome 1 "edge-2" = some response ∧
      (∃ c ∈ response.candidateUpstreams, Full c) ∧
        AttachesToFull (Selector.new "edge-2" "r" "i" false) .always 1
          (receivedResponse response).candidateUpstreams) ∧
      ¬ ∀ (store : MemoryStore) (now : ℕ) (requesterID : String),
        RespectsCapacity store now requesterID := by
  have hruns : ((buildMeshMapResponse nearest fullStore inOrderOutcome 1 "edge-2").any
      fun response ↦ decide ((∃ c ∈ response.candidateUpstreams, Full c) ∧
        AttachesToFull (Selector.new "edge-2" "r" "i" false) .always 1
          (receivedResponse response).candidateUpstreams)) = true := by decide +kernel
  obtain ⟨response, hresponse, hboth⟩ := (Option.any_eq_true _ _).mp hruns
  rw [decide_eq_true_eq] at hboth
  refine ⟨⟨response, hresponse, hboth⟩, fun hall ↦ ?_⟩
  obtain ⟨⟨c, hmem, hfull⟩, hattaches⟩ := hboth
  rcases hall fullStore 1 "edge-2" inOrderOutcome response hresponse with hroom | havoids
  · exact hroom c hmem hfull
  · exact havoids _ _ _ hattaches

end LiveCDN.System.Capacity
