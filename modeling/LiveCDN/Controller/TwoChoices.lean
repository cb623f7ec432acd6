import LiveCDN.Controller.Scheduling

/-!
# The power of two choices

What `p2cSelect` of `controller/scheduler.go` returns, for every random draw. A round takes one
candidate off the list of unused nodes with a positive score (`candidates_perm`), so the rounds give
as many nodes as are asked for or as there are candidates (`length_p2cLoop`). While two candidates
are left a round draws two different ones (`pickTwoWeighted_pair`) and takes the one with the higher
effective weight, so the node with the lowest weight is not taken before it is the last candidate
(`not_mem_p2cLoop`). A list that is longer than the number of nodes asked for never gets there.
-/

set_option autoImplicit false
set_option relaxedAutoImplicit false

namespace LiveCDN.Controller.TwoChoices

open NodeStore Scheduling

variable {nodes : List ScoredNode}

/-! ### Candidates -/

/-- Taking a candidate leaves the others. Assumes: the node at the position is a candidate. -/
theorem candidates_perm {used : List ℕ} {sn : ScoredNode} {i : ℕ} (hget : nodes[i]? = some sn)
    (hfree : i ∉ used) (hpos : 0 < sn.score) :
    (sn :: candidates nodes (i :: used)).Perm (candidates nodes used) := by
  let unused := nodes.zipIdx.filter fun pair ↦ decide (pair.2 ∉ used ∧ 0 < pair.1.score)
  have hmem : (sn, i) ∈ unused :=
    List.mem_filter.mpr ⟨List.mem_zipIdx_iff_getElem?.mpr hget, decide_eq_true ⟨hfree, hpos⟩⟩
  have hnodup : nodes.zipIdx.Nodup := (List.nodup_zipIdx_map_snd nodes).of_map Prod.snd
  have hrest : unused.erase (sn, i) =
      nodes.zipIdx.filter fun pair ↦ decide (pair.2 ∉ i :: used ∧ 0 < pair.1.score) := by
    rw [(hnodup.filter _).erase_eq_filter, List.filter_filter]
    refine List.filter_congr fun pair hpair ↦ ?_
    obtain ⟨other, j⟩ := pair
    have hother : nodes[j]? = some other := List.mem_zipIdx_iff_getElem?.mp hpair
    have hsame : (other, j) = (sn, i) ↔ j = i := by
      refine ⟨fun h ↦ (Prod.mk.inj h).2, ?_⟩
      rintro rfl
      rw [Option.some.inj (hother.symm.trans hget)]
    rw [Bool.eq_iff_iff, Bool.and_eq_true, bne_iff_ne, ne_eq, hsame, decide_eq_true_eq,
      decide_eq_true_eq, List.mem_cons, not_or, and_assoc]
  have hperm := (List.perm_cons_erase hmem).map Prod.fst
  rw [List.map_cons, hrest] at hperm
  exact hperm.symm

/-- Without used positions the candidates are the nodes with a positive score. -/
theorem candidates_nil (nodes : List ScoredNode) :
    candidates nodes [] = nodes.filter fun sn ↦ decide (0 < sn.score) := by
  have hfirst : (fun pair : ScoredNode × ℕ ↦ decide (pair.2 ∉ ([] : List ℕ) ∧ 0 < pair.1.score)) =
      (fun sn ↦ decide (0 < sn.score)) ∘ Prod.fst := by
    funext pair
    simp
  change (nodes.zipIdx.filter fun pair : ScoredNode × ℕ ↦
    decide (pair.2 ∉ ([] : List ℕ) ∧ 0 < pair.1.score)).map Prod.fst = _
  rw [hfirst, ← List.filter_map, List.zipIdx_map_fst]

/-- A chosen node is a candidate at a position that is marked for the next round. Assumes: distinct
node ids, and the round chooses the node. -/
theorem chosen_spec (hdistinct : (nodes.map fun sn ↦ sn.node.nodeID).Nodup) {draws : ℚ × ℚ}
    {used : List ℕ} {chosen : ScoredNode}
    (hchosen : choose (pickTwoWeighted draws nodes used) = some chosen) :
    ∃ i, markUsed nodes used chosen.node.nodeID = i :: used ∧
      (chosen :: candidates nodes (i :: used)).Perm (candidates nodes used) := by
  rcases choose_spec (pickTwoWeighted draws nodes used) with ⟨hnone, -⟩ | ⟨other, hmem, hother⟩
  · rw [hnone] at hchosen
    cases hchosen
  · obtain rfl := Option.some.inj (hother.symm.trans hchosen)
    obtain ⟨i, hget, hfree, hpos⟩ :=
      mem_candidates.mp ((pickTwoWeighted_spec draws nodes used).2 other hmem)
    exact ⟨i, markUsed_eq hdistinct hget, candidates_perm hget hfree hpos⟩

/-! ### How many nodes are selected -/

/-- The rounds give as many nodes as are missing or as there are candidates. Assumes: distinct node
ids. -/
theorem length_p2cLoop (hdistinct : (nodes.map fun sn ↦ sn.node.nodeID).Nodup)
    (draws : ℕ → ℚ × ℚ) (missing round : ℕ) (used : List ℕ) :
    (p2cLoop draws nodes missing round used).length =
      min missing (candidates nodes used).length := by
  induction missing generalizing round used with
  | zero => rw [p2cLoop, Nat.zero_min, List.length_nil]
  | succ missing ih =>
    rw [p2cLoop]
    cases hchosen : choose (pickTwoWeighted (draws round) nodes used) with
    | none =>
      have hnil : candidates nodes used = [] := by
        rw [← (pickTwoWeighted_spec (draws round) nodes used).1]
        rcases choose_spec (pickTwoWeighted (draws round) nodes used) with
          ⟨-, hnil⟩ | ⟨other, -, hother⟩
        · exact hnil
        · exact absurd (hchosen.symm.trans hother) (Option.some_ne_none other).symm
      exact (congrArg (fun left ↦ min (missing + 1) left.length) hnil).symm
    | some chosen =>
      obtain ⟨i, hmarked, hperm⟩ := chosen_spec hdistinct hchosen
      have hlength := hperm.length_eq
      rw [List.length_cons] at hlength
      change (chosen.node :: p2cLoop draws nodes missing (round + 1)
        (markUsed nodes used chosen.node.nodeID)).length = _
      rw [List.length_cons, hmarked, ih]
      omega

/-! ### The node with the lowest weight -/

/-- A round draws two different candidates. Assumes: there are two. -/
theorem pickTwoWeighted_pair (draws : ℚ × ℚ) {used : List ℕ}
    (htwo : 2 ≤ (candidates nodes used).length) :
    ∃ first second rest, pickTwoWeighted draws nodes used = [first, second] ∧
      (first :: second :: rest).Perm (candidates nodes used) := by
  have hsome : candidates nodes used ≠ [] := by
    rintro hnil
    rw [hnil, List.length_nil] at htwo
    omega
  unfold pickTwoWeighted
  dsimp only
  rw [if_neg (not_or.mpr ⟨hsome, not_le.mpr (totalWeight_pos hsome)⟩)]
  rcases pickOne_spec draws.1 (candidates nodes used)
    ((candidates nodes used).map ScoredNode.score).sum with ⟨-, hnil⟩ | ⟨first, hfirst, hperm⟩
  · exact absurd hnil hsome
  rcases pickOne_spec draws.2
    (pickOne draws.1 (candidates nodes used)
      ((candidates nodes used).map ScoredNode.score).sum).2.1
    (pickOne draws.1 (candidates nodes used)
      ((candidates nodes used).map ScoredNode.score).sum).2.2 with
    ⟨-, hnil⟩ | ⟨second, hsecond, hperm'⟩
  · have hlength := hperm.length_eq
    rw [hnil, List.length_singleton] at hlength
    omega
  · rw [hfirst, hsecond]
    exact ⟨first, second, _, rfl, (hperm'.cons first).trans hperm⟩

/-- The better of two nodes is not the one with the lowest effective weight. Assumes: the nodes
differ, and every other node has a higher weight. -/
theorem winner_ne {first second low : ScoredNode} (hne : first ≠ second)
    (hfirst : first ≠ low → low.effectiveWeight < first.effectiveWeight)
    (hsecond : second ≠ low → low.effectiveWeight < second.effectiveWeight) :
    winner first second ≠ low := by
  unfold winner
  by_cases hlow : first = low
  · subst hlow
    rw [if_pos (hsecond hne.symm)]
    exact hne.symm
  · by_cases hlow' : second = low
    · subst hlow'
      rw [if_neg (not_lt.mpr (hfirst hne).le), if_neg (fun h ↦ (hfirst hne).ne h.1)]
      exact hne
    · split_ifs
      · exact hlow'
      · exact hlow'
      · exact hlow

theorem candidates_sublist (nodes : List ScoredNode) (used : List ℕ) :
    (candidates nodes used).Sublist nodes := by
  refine (List.filter_sublist.map Prod.fst).trans ?_
  rw [List.zipIdx_map_fst]

/-- The rounds do not take the node with the lowest effective weight. Assumes: distinct node ids,
every other node has a higher weight, and there are more candidates than nodes missing. -/
theorem not_mem_p2cLoop (hdistinct : (nodes.map fun sn ↦ sn.node.nodeID).Nodup)
    {low : ScoredNode} (hmem : low ∈ nodes)
    (hlow : ∀ other ∈ nodes, other.node.nodeID ≠ low.node.nodeID →
      low.effectiveWeight < other.effectiveWeight)
    (draws : ℕ → ℚ × ℚ) {missing : ℕ} (round : ℕ) {used : List ℕ}
    (hmany : missing < (candidates nodes used).length) :
    ∀ node ∈ p2cLoop draws nodes missing round used, node.nodeID ≠ low.node.nodeID := by
  induction missing generalizing round used with
  | zero => exact fun node hnode ↦ absurd hnode List.not_mem_nil
  | succ missing ih =>
    obtain ⟨first, second, rest, hpicked, hperm⟩ :=
      pickTwoWeighted_pair (draws round) (show 2 ≤ (candidates nodes used).length by omega)
    have hids : ((first :: second :: rest).map fun sn ↦ sn.node.nodeID).Nodup :=
      (hperm.map _).nodup_iff.mpr (hdistinct.sublist ((candidates_sublist nodes used).map _))
    have hne : first ≠ second := by
      rintro rfl
      exact (List.nodup_cons.mp hids).1 List.mem_cons_self
    have hnode : ∀ sn ∈ first :: second :: rest, sn ∈ nodes := fun sn hsn ↦
      (candidates_sublist nodes used).subset (hperm.subset hsn)
    have hhigher : ∀ sn ∈ first :: second :: rest, sn ≠ low →
        low.effectiveWeight < sn.effectiveWeight := fun sn hsn hother ↦
      hlow sn (hnode sn hsn) fun hid ↦
        hother (List.inj_on_of_nodup_map hdistinct (hnode sn hsn) hmem hid)
    have hchosen : choose (pickTwoWeighted (draws round) nodes used) =
        some (winner first second) := by
      rw [hpicked]
      rfl
    obtain ⟨i, hmarked, hleft⟩ := chosen_spec hdistinct hchosen
    have hlength := hleft.length_eq
    rw [List.length_cons] at hlength
    rw [p2cLoop, hchosen]
    dsimp only
    rw [hmarked]
    intro node hselected
    rcases List.mem_cons.mp hselected with rfl | hlater
    · have hwinner : winner first second ∈ nodes :=
        (candidates_sublist nodes used).subset (hleft.subset List.mem_cons_self)
      intro hid
      refine winner_ne hne (hhigher first List.mem_cons_self)
        (hhigher second (List.mem_cons_of_mem _ List.mem_cons_self)) ?_
      exact List.inj_on_of_nodup_map hdistinct hwinner hmem hid
    · exact ih (round + 1) (by omega) node hlater

/-! ### The selection -/

/-- The selection gives the whole list when it is no longer than the number asked for, and otherwise
as many distinct nodes of it as are asked for or have a positive score; of a longer list with
positive scores it never takes the node with the lowest effective weight. Assumes: distinct node
ids. -/
theorem p2cSelect_exact (hdistinct : (nodes.map fun sn ↦ sn.node.nodeID).Nodup)
    (draws : ℕ → ℚ × ℚ) (n : ℕ) :
    (nodes.length ≤ n → p2cSelect draws nodes n = nodes.map ScoredNode.node) ∧
    (n < nodes.length →
      (p2cSelect draws nodes n).length =
          min n (nodes.countP fun sn ↦ decide (0 < sn.score)) ∧
        ((p2cSelect draws nodes n).map NodeInfo.nodeID).Nodup ∧
          ∀ node ∈ p2cSelect draws nodes n, node ∈ nodes.map ScoredNode.node) ∧
    (n < nodes.length → (∀ sn ∈ nodes, 0 < sn.score) → ∀ low ∈ nodes,
      (∀ other ∈ nodes, other.node.nodeID ≠ low.node.nodeID →
        low.effectiveWeight < other.effectiveWeight) →
        ∀ node ∈ p2cSelect draws nodes n, node.nodeID ≠ low.node.nodeID) := by
  have hlong : n < nodes.length → p2cSelect draws nodes n = p2cLoop draws nodes n 0 [] :=
    fun hmany ↦ if_neg (not_le.mpr hmany)
  refine ⟨fun hshort ↦ if_pos hshort, fun hmany ↦ ?_, fun hmany hpos low hmem hlow ↦ ?_⟩
  · obtain ⟨hfrom, hids⟩ := p2cSelect_spec hdistinct draws n
    refine ⟨?_, hids, hfrom⟩
    rw [hlong hmany, length_p2cLoop hdistinct, candidates_nil, List.countP_eq_length_filter]
  · rw [hlong hmany]
    refine not_mem_p2cLoop hdistinct hmem hlow draws 0 ?_
    rw [candidates_nil, List.filter_eq_self.mpr fun sn hsn ↦ decide_eq_true (hpos sn hsn)]
    exact hmany

/-- Three nodes of full weight and a new one, each scored by its weight. -/
def fourNodes : List ScoredNode :=
  [("edge-1", 1), ("edge-2", 1), ("edge-3", 1), ("edge-4", 1 / 2)].map fun (nodeID, weight) ↦
    ⟨{ MemoryStore.newNode 0 ⟨nodeID, "", "", 0, "", "", 0, "", "", "", false, false, false⟩ with
      effectiveWeight := weight }, weight, weight⟩

/-- Three of the four nodes are selected, and not the new one. -/
theorem p2cSelect_exact_fourNodes :
    (p2cSelect (fun _ ↦ (0, 0)) fourNodes 3).length = 3 ∧
      ∀ node ∈ p2cSelect (fun _ ↦ (0, 0)) fourNodes 3, node.nodeID ≠ "edge-4" := by
  have hdistinct : (fourNodes.map fun sn ↦ sn.node.nodeID).Nodup := by decide
  obtain ⟨-, hlong, hlowest⟩ := p2cSelect_exact hdistinct (fun _ ↦ (0, 0)) 3
  refine ⟨(hlong (by decide)).1.trans (by decide +kernel), ?_⟩
  exact hlowest (by decide) (by decide +kernel) _
    (List.mem_of_getElem? (show fourNodes[3]? = _ from rfl)) (by decide +kernel)

end LiveCDN.Controller.TwoChoices
