import LiveCDN.Agent.UpstreamPolicy

/-!
# When a better upstream is taken

The second rule of `check_hysteresis` (`relay/cascade_selector.rs`): the score of a new upstream has
to be clearly above that of the current one. The selector compares the score of the new path on the
response at hand with the score that it stored with the current path when it chose it, while the
load, the hint and the probes of the current upstream may have changed since.

`TakesBetter` is the rule with both scores computed on the same response: an upstream whose score
reaches the threshold is taken when the cooldown and the number of switches allow it, and below the
threshold the upstream stays. `takesBetter_iff` says when a selector keeps it: the score it stored
puts the new score on the same side of the threshold as the score on this response, and the log line
of a switch does not abort the agent. The first holds when the stored score is up to date
(`takesBetter_of_fresh`).

Scope. The cooldown and the number of switches are what the selector reads from the two numbers of
the policy. The rule is about exact arithmetic: the operations of the selector are not rounded here.
-/

set_option autoImplicit false
set_option relaxedAutoImplicit false

namespace LiveCDN.Agent.SwitchRule

open CascadeSelector UpstreamPolicy

/-! ### The rule -/

/-- The same surroundings, with exact arithmetic. -/
def exactly (env : Env) : Env := { env with rd := id }

/-- The improvement that a response asks for, in exact arithmetic. -/
def minImprovement (resp : MeshMapResponse) : ℚ := Selector.minImprovement id resp

/-- The score that is clearly above a score. -/
def threshold (resp : MeshMapResponse) (score : ℚ) : ℚ := (1 + minImprovement resp) * score

/-- The score that `check_hysteresis` takes for clearly above a stored score. -/
def storedThreshold (resp : MeshMapResponse) (stored : ℚ) : ℚ :=
  stored + minImprovement resp * max stored (1 / 100)

/-- The last switch lies the cooldown of a response back. -/
def CooldownOver (s : Selector) (now : ℕ) (resp : MeshMapResponse) : Prop :=
  ∀ last, s.lastSwitchAt = some last →
    Selector.asU64 (cooldownOf resp) * second ≤ now - last

/-- The switches of the last five minutes are fewer than a response allows. -/
def HasRoom (s : Selector) (now : ℕ) (resp : MeshMapResponse) : Prop :=
  (s.switchCount5min.filter fun t ↦ decide (now < t + 300 * second)).length <
    Selector.asU64 (maxSwitchOf resp)

/-- The score of a candidate on a response. -/
def scoreOn (s : Selector) (env : Env) (now : ℕ) (resp : MeshMapResponse)
    (entry : CandidateUpstream × ℕ) : ℚ :=
  (s.withResponse resp).finalScore (exactly env) now entry.2 entry.1

/-- The current upstream and the best candidate of a response: the current one is still listed and
may be used, and its score is not negligible. -/
structure Rivals (s : Selector) (env : Env) (now : ℕ) (resp : MeshMapResponse)
    (current : CascadePath) (listed : CandidateUpstream × ℕ) (best : CascadePath) : Prop where
  isCurrent : s.currentPath = some current
  isListed : listed ∈ resp.candidateUpstreams.zipIdx
  sameNode : listed.1.nodeId = current.upstreamNodeId
  mayUse : (s.withResponse resp).MayUse env listed
  score_ge : 1 / 100 ≤ scoreOn s env now resp listed
  isBest : selectedBy s (exactly env) now resp = some best

/-- The upstream after a response, none also when the call aborts the agent. -/
def upstreamAfter (s : Selector) (env : Env) (now : ℕ) (resp : MeshMapResponse) :
    Option String :=
  ((s.updateMeshMap (exactly env) now resp).bind Selector.currentPath).map
    CascadePath.upstreamNodeId

/-- The best candidate is taken when its score on the response reaches the threshold for the score
of the current upstream on it, the cooldown is over and there is room for a switch; below the
threshold the upstream stays. -/
def TakesOver (s : Selector) (env : Env) (now : ℕ) (resp : MeshMapResponse)
    (current : CascadePath) (listed : CandidateUpstream × ℕ) (best : CascadePath) : Prop :=
  (threshold resp (scoreOn s env now resp listed) ≤ best.score → CooldownOver s now resp →
      HasRoom s now resp → upstreamAfter s env now resp = some best.upstreamNodeId) ∧
    (best.score < threshold resp (scoreOn s env now resp listed) →
      upstreamAfter s env now resp = some current.upstreamNodeId)

/-- The rule holds between the current upstream and the best candidate. -/
def TakesBetter (s : Selector) (env : Env) (now : ℕ) (resp : MeshMapResponse) : Prop :=
  ∀ current listed best, Rivals s env now resp current listed best →
    TakesOver s env now resp current listed best

/-- Where the cooldown and the number of switches allow a switch, the best score reaches the
threshold for the stored score exactly when it reaches that for the score on this response, and then
the log line of the switch does not abort the agent. -/
def ReachesBoth (s : Selector) (env : Env) (now : ℕ) (resp : MeshMapResponse)
    (current : CascadePath) (listed : CandidateUpstream × ℕ) (best : CascadePath) : Prop :=
  CooldownOver s now resp → HasRoom s now resp →
    (storedThreshold resp current.score ≤ best.score ↔
      threshold resp (scoreOn s env now resp listed) ≤ best.score) ∧
    (storedThreshold resp current.score ≤ best.score → ¬ AbortsOn env best)

/-- The response does not say that the upstream is offline, and the best candidate is the current
upstream or its score reaches both thresholds or none. Or the response says so, and the best
candidate is the current upstream or its score reaches the threshold; and where the log line aborts
the agent, the score reaches the threshold at a time at which no switch is due. -/
def JudgesAlike (s : Selector) (env : Env) (now : ℕ) (resp : MeshMapResponse) : Prop :=
  ∀ current listed best, Rivals s env now resp current listed best →
    (Selector.upstreamOffline resp = false ∧
      (current.upstreamNodeId = best.upstreamNodeId ∨
        ReachesBoth s env now resp current listed best)) ∨
    (Selector.upstreamOffline resp = true ∧
      (current.upstreamNodeId = best.upstreamNodeId ∨
        threshold resp (scoreOn s env now resp listed) ≤ best.score) ∧
      (AbortsOn env best → threshold resp (scoreOn s env now resp listed) ≤ best.score ∧
        ¬ (CooldownOver s now resp ∧ HasRoom s now resp)))

/-! ### When the selector keeps it -/

/-- The comparison of `check_hysteresis`, without the division. -/
theorem improvement_iff {resp : MeshMapResponse} {stored score : ℚ} :
    minImprovement resp ≤ (score - stored) / max stored (1 / 100) ↔
      storedThreshold resp stored ≤ score := by
  have hpos : (0 : ℚ) < max stored (1 / 100) := lt_max_of_lt_right (by norm_num)
  rw [le_div_iff₀ hpos, storedThreshold, le_sub_iff_add_le, add_comm]

/-- Hysteresis lets the switch to another node pass exactly when the cooldown is over, there is
room, and the score reaches the threshold for the stored one. Assumes: the nodes differ. -/
theorem switchAllowed_iff {s : Selector} {now : ℕ} {resp : MeshMapResponse}
    {current best : CascadePath} (hother : current.upstreamNodeId ≠ best.upstreamNodeId) :
    SwitchAllowed id s now resp current best ↔
      CooldownOver s now resp ∧ HasRoom s now resp ∧
        storedThreshold resp current.score ≤ best.score := by
  rw [← improvement_iff]
  exact and_iff_right hother

/-- The upstream after a response: the current one without a switch, else the best one, and none
when the log line aborts the agent. Assumes: the selector has a current path, and the response has a
best one. -/
theorem upstreamAfter_eq {s : Selector} {env : Env} {now : ℕ} {resp : MeshMapResponse}
    {current best : CascadePath} (hcurrent : s.currentPath = some current)
    (hbest : selectedBy s (exactly env) now resp = some best)
    [Decidable (SwitchesTo s (exactly env) now resp best)] [Decidable (AbortsOn env best)] :
    upstreamAfter s env now resp =
      if SwitchesTo s (exactly env) now resp best then
        if AbortsOn env best then none else some best.upstreamNodeId
      else some current.upstreamNodeId := by
  have hswitches := switches_iff hbest
  unfold upstreamAfter
  cases hreturns : s.updateMeshMap (exactly env) now resp with
  | none =>
    have haborts : ¬ (switches s (exactly env) now resp = true → ¬ AbortsOn env best) := by
      intro hlogged
      have hreturned := updateMeshMap_eq_some_iff.mpr
        ⟨fun hswitch path hpath ↦ Option.some.inj (hbest.symm.trans hpath) ▸ hlogged hswitch, rfl⟩
      exact nomatch hreturns.symm.trans hreturned
    rw [Classical.not_imp, not_not] at haborts
    rw [if_pos (hswitches.mp haborts.1), if_pos haborts.2]
    rfl
  | some s' =>
    have hlogged := (updateMeshMap_eq_some_iff.mp hreturns).1
    rw [Option.bind_some, currentPath_updateMeshMap hreturns]
    by_cases hswitch : switches s (exactly env) now resp = true
    · have hlogs : ¬ AbortsOn env best := hlogged hswitch best hbest
      rw [if_pos hswitch, if_pos (hswitches.mp hswitch), if_neg hlogs, hbest]
      rfl
    · rw [if_neg hswitch, if_neg fun h ↦ hswitch (hswitches.mpr h), hcurrent]
      rfl

/-- The response makes the selector switch to the best candidate when it says that the upstream is
offline or hysteresis lets the switch pass. Assumes: the two are rivals on the response. -/
theorem switchesTo_best_iff {s : Selector} {env : Env} {now : ℕ} {resp : MeshMapResponse}
    {current best : CascadePath} {listed : CandidateUpstream × ℕ}
    (hrivals : Rivals s env now resp current listed best) :
    SwitchesTo s (exactly env) now resp best ↔
      Selector.upstreamOffline resp = true ∨ SwitchAllowed id s now resp current best := by
  refine or_congr_right ⟨fun hallowed ↦ hallowed current hrivals.isCurrent, ?_⟩
  rintro hallowed cur hcur
  obtain rfl := Option.some.inj (hcur.symm.trans hrivals.isCurrent)
  exact hallowed

/-- The rule between two rivals when the response says that the upstream is offline: the selector
switches, or its log line aborts the agent. -/
theorem takesOver_offline_iff {s : Selector} {env : Env} {now : ℕ} {resp : MeshMapResponse}
    {current best : CascadePath} {listed : CandidateUpstream × ℕ}
    (hrivals : Rivals s env now resp current listed best)
    (hoffline : Selector.upstreamOffline resp = true) :
    TakesOver s env now resp current listed best ↔
      (current.upstreamNodeId = best.upstreamNodeId ∨
        threshold resp (scoreOn s env now resp listed) ≤ best.score) ∧
      (AbortsOn env best → threshold resp (scoreOn s env now resp listed) ≤ best.score ∧
        ¬ (CooldownOver s now resp ∧ HasRoom s now resp)) := by
  classical
  have hswitches := (switchesTo_best_iff hrivals).mpr (Or.inl hoffline)
  rw [TakesOver, upstreamAfter_eq hrivals.isCurrent hrivals.isBest, if_pos hswitches]
  by_cases haborts : AbortsOn env best
  · rw [if_pos haborts]
    simp only [reduceCtorEq, imp_false, haborts, forall_const, not_lt]
    tauto
  · rw [if_neg haborts]
    simp only [Option.some.injEq, implies_true, true_and, haborts, false_imp_iff, and_true,
      ← not_lt, eq_comm (a := best.upstreamNodeId)]
    tauto

/-- The rule between two rivals when the response does not say that the upstream is offline:
hysteresis decides by the stored score. -/
theorem takesOver_online_iff {s : Selector} {env : Env} {now : ℕ} {resp : MeshMapResponse}
    {current best : CascadePath} {listed : CandidateUpstream × ℕ}
    (hrivals : Rivals s env now resp current listed best)
    (honline : Selector.upstreamOffline resp = false) :
    TakesOver s env now resp current listed best ↔
      current.upstreamNodeId = best.upstreamNodeId ∨
        ReachesBoth s env now resp current listed best := by
  classical
  have hto : SwitchesTo s (exactly env) now resp best ↔
      SwitchAllowed id s now resp current best := by
    rw [switchesTo_best_iff hrivals, honline, or_iff_right Bool.false_ne_true]
  rw [TakesOver, upstreamAfter_eq hrivals.isCurrent hrivals.isBest]
  by_cases hsame : current.upstreamNodeId = best.upstreamNodeId
  · rw [if_neg fun h ↦ (hto.mp h).1 hsame, hsame]
    exact iff_of_true ⟨fun _ _ _ ↦ rfl, fun _ ↦ rfl⟩ (Or.inl rfl)
  have hne : best.upstreamNodeId ≠ current.upstreamNodeId := fun h ↦ hsame h.symm
  rw [or_iff_right hsame, hto, switchAllowed_iff hsame]
  unfold ReachesBoth
  by_cases hfree : CooldownOver s now resp ∧ HasRoom s now resp
  · by_cases hreaches : storedThreshold resp current.score ≤ best.score
    · rw [if_pos ⟨hfree.1, hfree.2, hreaches⟩]
      by_cases haborts : AbortsOn env best
      · rw [if_pos haborts]
        simp only [reduceCtorEq, hfree.1, hfree.2, hreaches, haborts, forall_const, imp_false,
          not_true_eq_false, and_false, iff_false, not_and, not_le, not_lt]
        exact fun hbelow ↦ hbelow
      · rw [if_neg haborts]
        simp only [Option.some.injEq, hne, hfree.1, hfree.2, hreaches, haborts, implies_true,
          true_and, imp_false, not_lt, true_iff, forall_const, not_false_eq_true, and_true]
    · rw [if_neg fun h ↦ hreaches h.2.2]
      simp only [Option.some.injEq, hsame, hfree.1, hfree.2, hreaches, implies_true, and_true,
        imp_false, not_true_eq_false, forall_const, false_iff, false_imp_iff]
  · rw [if_neg fun h ↦ hfree ⟨h.1, h.2.1⟩]
    refine iff_of_true ⟨fun _ hcooldown hroom ↦ absurd ⟨hcooldown, hroom⟩ hfree, fun _ ↦ rfl⟩ ?_
    exact fun hcooldown hroom ↦ absurd ⟨hcooldown, hroom⟩ hfree

/-- A selector takes a better upstream, and keeps its upstream otherwise, exactly when the score it
stored leads to the same judgement as the score on the response, and no log line that is due aborts
the agent. -/
theorem takesBetter_iff (s : Selector) (env : Env) (now : ℕ) (resp : MeshMapResponse) :
    TakesBetter s env now resp ↔ JudgesAlike s env now resp := by
  refine forall₃_congr fun current listed best ↦ forall_congr' fun hrivals ↦ ?_
  by_cases hoffline : Selector.upstreamOffline resp = true
  · rw [takesOver_offline_iff hrivals hoffline, hoffline]
    simp only [Bool.true_eq_false, false_and, false_or, true_and]
  · rw [Bool.not_eq_true] at hoffline
    rw [takesOver_online_iff hrivals hoffline, hoffline]
    simp only [Bool.false_eq_true, false_and, or_false, true_and]

/-- A stored score that is up to date leads to the right judgement: the selector takes a better
upstream and keeps its upstream otherwise. Assumes: the response does not say that the upstream is
offline, its best candidate does not abort the agent, and the path is stored with the score that its
candidate has on the response. -/
theorem takesBetter_of_fresh {s : Selector} {env : Env} {now : ℕ} {resp : MeshMapResponse}
    (honline : Selector.upstreamOffline resp = false)
    (hlogged : ∀ best, selectedBy s (exactly env) now resp = some best → ¬ AbortsOn env best)
    (hfresh : ∀ current listed best, Rivals s env now resp current listed best →
      current.score = scoreOn s env now resp listed) :
    TakesBetter s env now resp := by
  rw [takesBetter_iff]
  intro current listed best hrivals
  have hthreshold : storedThreshold resp current.score =
      threshold resp (scoreOn s env now resp listed) := by
    rw [hfresh current listed best hrivals, storedThreshold, threshold,
      max_eq_left hrivals.score_ge]
    ring
  refine Or.inl ⟨honline, Or.inr fun _ _ ↦ ⟨by rw [hthreshold], fun _ ↦ ?_⟩⟩
  exact hlogged best hrivals.isBest

/-- `edge-1` when it is loaded, with the hint 20. -/
def edge1Loaded : CandidateUpstream :=
  { candidateAt "edge-1" "http://10.0.0.1/cascade/test.flv" 1 with scoreHint := 20 }

/-- A response with the loaded `edge-1`, and with `edge-2` at the hint 70. -/
def loadedResponse : MeshMapResponse :=
  responseWith [edge1Loaded,
    { candidateAt "edge-2" "http://10.0.0.2/cascade/test.flv" 1 with scoreHint := 70 }]

/-- A selector that took `edge-1` at the hint 90 stays on it a minute later, though its score has
fallen to a half and `edge-2` is far above that. -/
theorem takesBetter_counterexample :
    upstreamAfter onEdge1 .always (60 * second) loadedResponse = some "edge-1" ∧
      ¬ ∀ (s : Selector) (env : Env) (now : ℕ) (resp : MeshMapResponse),
        TakesBetter s env now resp := by
  have hstays : upstreamAfter onEdge1 .always (60 * second) loadedResponse = some "edge-1" := by
    decide +kernel
  have hcurrent : (onEdge1.currentPath.any fun path ↦
      decide (path.upstreamNodeId = "edge-1")) = true := by decide +kernel
  have hbest : ((selectedBy onEdge1 (exactly .always) (60 * second) loadedResponse).any fun path ↦
      decide (path.upstreamNodeId = "edge-2" ∧
        threshold loadedResponse (scoreOn onEdge1 .always (60 * second) loadedResponse
          (edge1Loaded, 0)) ≤ path.score)) = true := by decide +kernel
  obtain ⟨current, hisCurrent, hedge1⟩ := (Option.any_eq_true _ _).mp hcurrent
  obtain ⟨best, hisBest, hedge2⟩ := (Option.any_eq_true _ _).mp hbest
  rw [decide_eq_true_eq] at hedge1 hedge2
  refine ⟨hstays, fun hall ↦ ?_⟩
  have hrivals : Rivals onEdge1 .always (60 * second) loadedResponse current (edge1Loaded, 0)
      best := by
    refine ⟨hisCurrent, List.mem_cons_self, hedge1.symm, ?_, by decide +kernel, hisBest⟩
    exact ⟨by decide, by decide, fun hloop ↦ absurd hloop.2 (by decide +kernel)⟩
  have hlastSwitch : onEdge1.lastSwitchAt = some 0 := by decide +kernel
  have hover : CooldownOver onEdge1 (60 * second) loadedResponse := by
    intro last hlast
    obtain rfl : last = 0 := Option.some.inj (hlast.symm.trans hlastSwitch)
    decide +kernel
  have hroom : HasRoom onEdge1 (60 * second) loadedResponse := by
    rw [HasRoom]
    decide +kernel
  have htaken := (hall onEdge1 .always (60 * second) loadedResponse current (edge1Loaded, 0) best
    hrivals).1 hedge2.2 hover hroom
  rw [hstays, hedge2.1] at htaken
  exact absurd htaken (by decide)

end LiveCDN.Agent.SwitchRule
