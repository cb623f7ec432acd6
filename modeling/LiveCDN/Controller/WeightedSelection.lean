import LiveCDN.Controller.TwoChoices

/-!
# Weighted selection

`weightedSelect` of `controller/scheduler.go`: each round draws one of the unused nodes with a
positive score by its score, and then a fallback is to pick one when the draw has found none. Its
guard compares the number of selected nodes with the number of used ones, which are always the same,
so every round picks a second node.

So a list that is longer than the number of nodes asked for gives that number, or all its nodes with
a positive score, exactly when the number is even or there are no more such nodes
(`selectsFairly_iff`); otherwise it gives one too many (`length_selectRounds`).

Scope. Scores are rational. A loop that has not ended when its fuel is used up is `unfinished`.
-/

set_option autoImplicit false
set_option relaxedAutoImplicit false

namespace LiveCDN.Controller.WeightedSelection

open NodeStore Scheduling TwoChoices

/-! ### The loop -/

/-- The variables of the loop of `weightedSelect`; `used` has the positions that are marked. -/
structure Selection where
  selected : List NodeInfo
  totalWeight : ℚ
  used : List ℕ

/-- A node is selected. -/
def Selection.take (st : Selection) (sn : ScoredNode) (i : ℕ) : Selection where
  selected := st.selected ++ [sn.node]
  totalWeight := st.totalWeight - sn.score
  used := i :: st.used

/-- The walk of a draw: the first unused node whose cumulative score reaches `r`. -/
def drawFrom (used : List ℕ) (r : ℚ) : ℚ → List (ScoredNode × ℕ) → Option (ScoredNode × ℕ)
  | _, [] => none
  | cumulative, (sn, i) :: rest =>
    if i ∈ used ∨ sn.score ≤ 0 then drawFrom used r cumulative rest
    else if r ≤ cumulative + sn.score then some (sn, i)
    else drawFrom used r (cumulative + sn.score) rest

/-- The walk of the fallback: the first unused node. -/
def fallback (nodes : List ScoredNode) (used : List ℕ) : Option (ScoredNode × ℕ) :=
  nodes.zipIdx.find? fun pair ↦ decide (pair.2 ∉ used ∧ 0 < pair.1.score)

/-- What a walk has found is selected. -/
def Selection.takeFound (st : Selection) : Option (ScoredNode × ℕ) → Selection
  | none => st
  | some (sn, i) => st.take sn i

/-- A round of the loop. -/
def selectRound (nodes : List ScoredNode) (draw : ℚ) (st : Selection) : Selection :=
  let r := draw * st.totalWeight
  let st := st.takeFound (drawFrom st.used r 0 nodes.zipIdx)
  if st.selected.length < st.used.length + 1 then st.takeFound (fallback nodes st.used) else st

/-- A call that returns nothing: the capacity of the result is negative, or the fuel is used up. -/
inductive Failure
  | panicked
  | unfinished
  deriving DecidableEq, Repr

/-- The loop of `weightedSelect`, from a round on. -/
def selectRounds (draws : ℕ → Set.Ico (0 : ℚ) 1) (nodes : List ScoredNode) (n : ℕ) :
    ℕ → ℕ → Selection → Except Failure (List NodeInfo)
  | 0, _, st =>
    if st.selected.length < n ∧ 0 < st.totalWeight then .error .unfinished else .ok st.selected
  | fuel + 1, round, st =>
    if st.selected.length < n ∧ 0 < st.totalWeight then
      selectRounds draws nodes n fuel (round + 1) (selectRound nodes (draws round) st)
    else .ok st.selected

/-- The total of the positive scores. -/
def totalScore (nodes : List ScoredNode) : ℚ :=
  ((nodes.filter fun sn ↦ decide (0 < sn.score)).map ScoredNode.score).sum

/-- `weightedSelect`. -/
def weightedSelect (fuel : ℕ) (draws : ℕ → Set.Ico (0 : ℚ) 1) (nodes : List ScoredNode) (n : ℤ) :
    Except Failure (List NodeInfo) :=
  if nodes.length ≤ n then .ok (nodes.map ScoredNode.node)
  else if n < 0 then .error .panicked
  else selectRounds draws nodes n.toNat fuel 0 ⟨[], totalScore nodes, []⟩

/-! ### One round -/

variable {nodes : List ScoredNode}

/-- What a draw finds is an unused node with a positive score. -/
theorem drawFrom_spec {used : List ℕ} {r cumulative : ℚ} {pairs : List (ScoredNode × ℕ)}
    {sn : ScoredNode} {i : ℕ} (hfound : drawFrom used r cumulative pairs = some (sn, i)) :
    (sn, i) ∈ pairs ∧ i ∉ used ∧ 0 < sn.score := by
  induction pairs generalizing cumulative with
  | nil => cases hfound
  | cons pair pairs ih =>
    obtain ⟨first, j⟩ := pair
    rw [drawFrom] at hfound
    split_ifs at hfound with hskipped hreached
    · obtain ⟨hmem, hrest⟩ := ih hfound
      exact ⟨List.mem_cons_of_mem _ hmem, hrest⟩
    · obtain ⟨rfl, rfl⟩ := Prod.mk.inj (Option.some.inj hfound)
      obtain ⟨hunused, hpos⟩ := not_or.mp hskipped
      exact ⟨List.mem_cons_self, hunused, not_le.mp hpos⟩
    · obtain ⟨hmem, hrest⟩ := ih hfound
      exact ⟨List.mem_cons_of_mem _ hmem, hrest⟩

/-- A draw that finds nothing has no nodes left, where it lies within their scores. -/
theorem filter_eq_nil_of_drawFrom_eq_none {used : List ℕ} {r cumulative : ℚ}
    {pairs : List (ScoredNode × ℕ)} (hnone : drawFrom used r cumulative pairs = none)
    (hwithin : r ≤ cumulative + (((pairs.filter fun pair ↦
      decide (pair.2 ∉ used ∧ 0 < pair.1.score)).map Prod.fst).map ScoredNode.score).sum) :
    (pairs.filter fun pair ↦ decide (pair.2 ∉ used ∧ 0 < pair.1.score)) = [] := by
  induction pairs generalizing cumulative with
  | nil => rfl
  | cons pair pairs ih =>
    obtain ⟨sn, i⟩ := pair
    rw [drawFrom] at hnone
    split_ifs at hnone with hskipped hreached
    · have hnot : ¬decide ((sn, i).2 ∉ used ∧ 0 < (sn, i).1.score) = true := by
        rw [decide_eq_true_eq, not_and_or, not_not, not_lt]
        exact hskipped
      rw [List.filter_cons, if_neg hnot] at hwithin ⊢
      exact ih hnone hwithin
    · obtain ⟨hunused, hpos⟩ := not_or.mp hskipped
      have hleft : decide ((sn, i).2 ∉ used ∧ 0 < (sn, i).1.score) = true :=
        decide_eq_true ⟨hunused, not_le.mp hpos⟩
      rw [List.filter_cons, if_pos hleft, List.map_cons, List.map_cons, List.sum_cons,
        ← add_assoc] at hwithin
      have hnil := ih hnone hwithin
      rw [hnil, List.map_nil, List.map_nil, List.sum_nil, add_zero] at hwithin
      exact absurd hwithin hreached

/-- The nodes that are selected are the marked ones, and the weight is that of the others. -/
structure Fair (nodes : List ScoredNode) (st : Selection) : Prop where
  weight : st.totalWeight = ((candidates nodes st.used).map ScoredNode.score).sum
  marked : st.selected.length = st.used.length
  perm : (st.selected ++ (candidates nodes st.used).map ScoredNode.node).Perm
    ((candidates nodes []).map ScoredNode.node)

variable {st : Selection}

/-- Selected nodes and candidates are as many as the nodes with a positive score. -/
theorem Fair.length_add (hfair : Fair nodes st) :
    st.selected.length + (candidates nodes st.used).length = (candidates nodes []).length := by
  have hlength := hfair.perm.length_eq
  rwa [List.length_append, List.length_map, List.length_map] at hlength

theorem Fair.take (hfair : Fair nodes st) {sn : ScoredNode} {i : ℕ} (hget : nodes[i]? = some sn)
    (hfree : i ∉ st.used) (hpos : 0 < sn.score) : Fair nodes (st.take sn i) := by
  have hperm := candidates_perm hget hfree hpos
  refine ⟨?_, ?_, ?_⟩
  · have hsum := (hperm.map ScoredNode.score).sum_eq
    rw [List.map_cons, List.sum_cons] at hsum
    change st.totalWeight - sn.score = ((candidates nodes (i :: st.used)).map ScoredNode.score).sum
    rw [hfair.weight, ← hsum, add_sub_cancel_left]
  · change (st.selected ++ [sn.node]).length = (i :: st.used).length
    rw [List.length_append, List.length_singleton, List.length_cons, hfair.marked]
  · change ((st.selected ++ [sn.node]) ++ (candidates nodes (i :: st.used)).map
      ScoredNode.node).Perm _
    rw [List.append_assoc]
    exact ((hperm.map ScoredNode.node).append_left st.selected).trans hfair.perm

/-- A walk that finds a candidate while there is one takes one. -/
theorem Fair.takeFound (hfair : Fair nodes st) {found : Option (ScoredNode × ℕ)}
    (hfound : ∀ sn i, found = some (sn, i) → nodes[i]? = some sn ∧ i ∉ st.used ∧ 0 < sn.score)
    (hnone : found = none → candidates nodes st.used = []) :
    Fair nodes (st.takeFound found) ∧ (st.takeFound found).selected.length =
      st.selected.length + min 1 (candidates nodes st.used).length := by
  cases found with
  | none =>
    refine ⟨hfair, ?_⟩
    rw [hnone rfl, List.length_nil, Nat.min_zero, Nat.add_zero]
    rfl
  | some pair =>
    obtain ⟨sn, i⟩ := pair
    obtain ⟨hget, hfree, hpos⟩ := hfound sn i rfl
    have hcandidates : 0 < (candidates nodes st.used).length :=
      List.length_pos_of_mem (mem_candidates.mpr ⟨i, hget, hfree, hpos⟩)
    refine ⟨hfair.take hget hfree hpos, ?_⟩
    change (st.selected ++ [sn.node]).length = _
    rw [List.length_append, List.length_singleton]
    omega

/-- A draw takes one of the candidates. -/
theorem Fair.draw (hfair : Fair nodes st) (draw : Set.Ico (0 : ℚ) 1) :
    Fair nodes (st.takeFound (drawFrom st.used (draw * st.totalWeight) 0 nodes.zipIdx)) ∧
      (st.takeFound (drawFrom st.used (draw * st.totalWeight) 0 nodes.zipIdx)).selected.length =
        st.selected.length + min 1 (candidates nodes st.used).length := by
  refine hfair.takeFound (fun sn i hfound ↦ ?_) fun hnone ↦ ?_
  · obtain ⟨hmem, hfree, hpos⟩ := drawFrom_spec hfound
    exact ⟨List.mem_zipIdx_iff_getElem?.mp hmem, hfree, hpos⟩
  · by_contra hsome
    have hweight : 0 < st.totalWeight := hfair.weight ▸ totalWeight_pos hsome
    have hwithin : draw * st.totalWeight ≤ 0 + ((candidates nodes st.used).map
        ScoredNode.score).sum := by
      rw [zero_add, ← hfair.weight]
      exact mul_le_of_le_one_left hweight.le draw.2.2.le
    exact hsome (congrArg (List.map Prod.fst) (filter_eq_nil_of_drawFrom_eq_none hnone hwithin))

/-- The fallback takes one of the candidates. -/
theorem Fair.fallback (hfair : Fair nodes st) :
    Fair nodes (st.takeFound (WeightedSelection.fallback nodes st.used)) ∧
      (st.takeFound (WeightedSelection.fallback nodes st.used)).selected.length =
        st.selected.length + min 1 (candidates nodes st.used).length := by
  refine hfair.takeFound (fun sn i hfound ↦ ?_) fun hnone ↦ ?_
  · rw [WeightedSelection.fallback] at hfound
    have hunused := List.find?_some hfound
    rw [decide_eq_true_eq] at hunused
    exact ⟨List.mem_zipIdx_iff_getElem?.mp (List.mem_of_find?_eq_some hfound), hunused⟩
  · refine congrArg (List.map Prod.fst) (List.filter_eq_nil_iff.mpr ?_)
    rw [WeightedSelection.fallback] at hnone
    exact List.find?_eq_none.mp hnone

/-- A round takes two of the candidates, or as many as there are: the guard of the fallback never
skips it. -/
theorem Fair.round (hfair : Fair nodes st) (draw : Set.Ico (0 : ℚ) 1) :
    Fair nodes (selectRound nodes draw st) ∧ (selectRound nodes draw st).selected.length =
      st.selected.length + min 2 (candidates nodes st.used).length := by
  obtain ⟨hdrawn, hfirst⟩ := hfair.draw draw
  obtain ⟨hboth, hsecond⟩ := hdrawn.fallback
  have hround : selectRound nodes draw st =
      (st.takeFound (drawFrom st.used (draw * st.totalWeight) 0 nodes.zipIdx)).takeFound
        (WeightedSelection.fallback nodes
          (st.takeFound (drawFrom st.used (draw * st.totalWeight) 0 nodes.zipIdx)).used) :=
    if_pos (by rw [hdrawn.marked]; exact Nat.lt_succ_self _)
  have hbefore := hfair.length_add
  have hafter := hdrawn.length_add
  rw [hround]
  exact ⟨hboth, by omega⟩

/-! ### The loop -/

/-- The loop goes on exactly while nodes are missing and there are candidates. -/
theorem Fair.guard_iff (hfair : Fair nodes st) (n : ℕ) :
    st.selected.length < n ∧ 0 < st.totalWeight ↔
      st.selected.length < n ∧ 0 < (candidates nodes st.used).length := by
  refine and_congr_right fun _ ↦ ⟨fun hweight ↦ ?_, fun hcandidates ↦ ?_⟩
  · refine List.length_pos_iff.mpr fun hnil ↦ ?_
    rw [hfair.weight, hnil, List.map_nil, List.sum_nil] at hweight
    exact lt_irrefl _ hweight
  · rw [hfair.weight]
    exact totalWeight_pos (List.length_pos_iff.mp hcandidates)

/-- The rounds pick two nodes each, so the number missing is rounded up to an even one. Assumes: the
loop returns. -/
theorem length_selectRounds (draws : ℕ → Set.Ico (0 : ℚ) 1) {n fuel round : ℕ}
    {selected : List NodeInfo} (hfair : Fair nodes st)
    (hreturned : selectRounds draws nodes n fuel round st = .ok selected) :
    selected.length = st.selected.length +
        min (candidates nodes st.used).length (2 * ((n - st.selected.length + 1) / 2)) ∧
      ∃ rest, (selected ++ rest).Perm ((candidates nodes []).map ScoredNode.node) := by
  induction fuel generalizing round st with
  | zero =>
    rw [selectRounds] at hreturned
    split_ifs at hreturned with hguard
    obtain rfl := Except.ok.inj hreturned
    rw [hfair.guard_iff n] at hguard
    exact ⟨by omega, _, hfair.perm⟩
  | succ fuel ih =>
    rw [selectRounds] at hreturned
    split_ifs at hreturned with hguard
    · obtain ⟨hkept, hpicked⟩ := hfair.round (draws round)
      obtain ⟨hlength, hperm⟩ := ih hkept hreturned
      have hbefore := hfair.length_add
      have hafter := hkept.length_add
      exact ⟨by omega, hperm⟩
    · obtain rfl := Except.ok.inj hreturned
      rw [hfair.guard_iff n] at hguard
      exact ⟨by omega, _, hfair.perm⟩

/-- The loop ends: a round takes a candidate. Assumes: fuel for every candidate. -/
theorem exists_selectRounds (draws : ℕ → Set.Ico (0 : ℚ) 1) {n fuel round : ℕ}
    (hfair : Fair nodes st) (hfuel : (candidates nodes st.used).length ≤ fuel) :
    ∃ selected, selectRounds draws nodes n fuel round st = .ok selected := by
  induction fuel generalizing round st with
  | zero =>
    refine ⟨st.selected, if_neg fun hguard ↦ ?_⟩
    exact absurd ((hfair.guard_iff n).mp hguard).2 (by omega)
  | succ fuel ih =>
    rw [selectRounds]
    split_ifs with hguard
    · obtain ⟨hkept, hpicked⟩ := hfair.round (draws round)
      have hbefore := hfair.length_add
      have hafter := hkept.length_add
      have hcandidates := ((hfair.guard_iff n).mp hguard).2
      exact ih hkept (by omega)
    · exact ⟨st.selected, rfl⟩

/-- Nothing is selected before the loop. -/
theorem fair_start (nodes : List ScoredNode) : Fair nodes ⟨[], totalScore nodes, []⟩ where
  weight := by rw [candidates_nil]; rfl
  marked := rfl
  perm := List.Perm.refl _

/-! ### The selection -/

/-- The call returns a list from any draws on: at most `n` different nodes of the list, and of a
longer list `n` or all with a positive score. -/
def SelectsFairly (nodes : List ScoredNode) (n : ℤ) : Prop :=
  ∀ draws : ℕ → Set.Ico (0 : ℚ) 1, ∃ fuel selected,
    weightedSelect fuel draws nodes n = .ok selected ∧ (selected.length : ℤ) ≤ n ∧
      (selected.map NodeInfo.nodeID).Nodup ∧
        (∀ node ∈ selected, node ∈ nodes.map ScoredNode.node) ∧
          (n < nodes.length →
            (selected.length : ℤ) = min n (nodes.countP fun sn ↦ decide (0 < sn.score)))

/-- Of a list longer than the number asked for, the call selects two nodes a round: different ones
with a positive score, in a number rounded up to an even one. Assumes: distinct node ids. -/
theorem weightedSelect_spec (hdistinct : (nodes.map fun sn ↦ sn.node.nodeID).Nodup) {fuel n : ℕ}
    {draws : ℕ → Set.Ico (0 : ℚ) 1} {selected : List NodeInfo} (hlong : n < nodes.length)
    (hreturned : weightedSelect fuel draws nodes n = .ok selected) :
    selected.length =
        min (nodes.countP fun sn ↦ decide (0 < sn.score)) (2 * ((n + 1) / 2)) ∧
      (selected.map NodeInfo.nodeID).Nodup ∧
        ∀ node ∈ selected, node ∈ nodes.map ScoredNode.node := by
  rw [weightedSelect, if_neg (by omega), if_neg (by omega), Int.toNat_natCast] at hreturned
  obtain ⟨hlength, rest, hperm⟩ := length_selectRounds draws (fair_start nodes) hreturned
  have hsublist := (candidates_sublist nodes []).map ScoredNode.node
  rw [candidates_nil] at hlength hperm hsublist
  refine ⟨?_, ?_, fun node hnode ↦ ?_⟩
  · rw [hlength, List.countP_eq_length_filter, List.length_nil, Nat.zero_add, Nat.sub_zero]
  · have hids : ((selected ++ rest).map NodeInfo.nodeID).Nodup := by
      refine (hperm.map NodeInfo.nodeID).nodup_iff.mpr ?_
      refine List.Nodup.sublist (hsublist.map NodeInfo.nodeID) ?_
      rw [List.map_map]
      exact hdistinct
    rw [List.map_append] at hids
    exact hids.of_append_left
  · exact hsublist.subset (hperm.subset (List.mem_append_left rest hnode))

/-- The call is fair exactly when it returns the whole list, or the number asked for is even or no
smaller than the number of nodes with a positive score. Assumes: distinct node ids. -/
theorem selectsFairly_iff (nodes : List ScoredNode)
    (hdistinct : (nodes.map fun sn ↦ sn.node.nodeID).Nodup) (n : ℤ) :
    SelectsFairly nodes n ↔ nodes.length ≤ n ∨
      0 ≤ n ∧ (Even n ∨ (nodes.countP fun sn ↦ decide (0 < sn.score)) ≤ n) := by
  by_cases hshort : nodes.length ≤ n
  · refine iff_of_true (fun draws ↦ ?_) (.inl hshort)
    refine ⟨0, nodes.map ScoredNode.node, if_pos hshort, ?_, ?_, fun node hnode ↦ hnode,
      fun hlong ↦ absurd hshort (not_le.mpr hlong)⟩
    · rwa [List.length_map]
    · rwa [List.map_map]
  rw [or_iff_right hshort]
  by_cases hneg : n < 0
  · refine iff_of_false (fun hfair ↦ ?_) fun hcond ↦ absurd hneg (not_lt.mpr hcond.1)
    obtain ⟨fuel, selected, hreturned, -⟩ := hfair fun _ ↦ ⟨0, le_refl _, zero_lt_one⟩
    rw [weightedSelect, if_neg hshort, if_pos hneg] at hreturned
    cases hreturned
  obtain ⟨n, rfl⟩ := Int.eq_ofNat_of_zero_le (not_lt.mp hneg)
  rw [Nat.cast_le, not_le] at hshort
  rw [and_iff_right (Int.natCast_nonneg n), Int.even_coe_nat, Nat.cast_le]
  constructor
  · intro hfair
    obtain ⟨fuel, selected, hreturned, hmost, -⟩ := hfair fun _ ↦ ⟨0, le_refl _, zero_lt_one⟩
    obtain ⟨hlength, -⟩ := weightedSelect_spec hdistinct hshort hreturned
    rw [Nat.even_iff]
    omega
  · intro hcond draws
    obtain ⟨selected, hreturned⟩ : ∃ selected, selectRounds draws nodes n
        (candidates nodes []).length 0 ⟨[], totalScore nodes, []⟩ = .ok selected :=
      exists_selectRounds draws (fair_start nodes) le_rfl
    have hcall : weightedSelect (candidates nodes []).length draws nodes n = .ok selected := by
      rw [weightedSelect, if_neg (by omega), if_neg (by omega), Int.toNat_natCast]
      exact hreturned
    obtain ⟨hlength, hids, hfrom⟩ := weightedSelect_spec hdistinct hshort hcall
    rw [Nat.even_iff] at hcond
    exact ⟨_, selected, hcall, by omega, hids, hfrom, fun _ ↦ by omega⟩

/-- Of the four nodes two are selected when two are asked for. -/
theorem selectsFairly_iff_fourNodes : SelectsFairly fourNodes 2 := by
  have hdistinct : (fourNodes.map fun sn ↦ sn.node.nodeID).Nodup := by decide
  exact (selectsFairly_iff fourNodes hdistinct 2).mpr (.inr ⟨by decide, .inl even_two⟩)

/-- Where one node is asked for, the fallback selects a second one. -/
theorem not_selectsFairly_fourNodes :
    (fourNodes.map fun sn ↦ sn.node.nodeID).Nodup ∧
      (weightedSelect 1 (fun _ ↦ ⟨0, le_refl _, zero_lt_one⟩) fourNodes 1).toOption.map
          (List.map NodeInfo.nodeID) = some ["edge-1", "edge-2"] ∧
        ¬SelectsFairly fourNodes 1 := by
  have hdistinct : (fourNodes.map fun sn ↦ sn.node.nodeID).Nodup := by decide
  refine ⟨hdistinct, by decide +kernel, fun hfair ↦ ?_⟩
  obtain ⟨fuel, selected, hreturned, hmost, -⟩ := hfair fun _ ↦ ⟨0, le_refl _, zero_lt_one⟩
  obtain ⟨hlength, -⟩ := weightedSelect_spec (n := 1) hdistinct (by decide) hreturned
  rw [show fourNodes.countP (fun sn ↦ decide (0 < sn.score)) = 4 by decide +kernel] at hlength
  omega

end LiveCDN.Controller.WeightedSelection
