import LiveCDN.Agent.CascadeSelector
import LiveCDN.Library.GuardedRun

/-!
# What the controller can rely on

The constraints a mesh response puts on the agent (`relay/cascade_selector.rs`), and how far the
selector keeps them.

`updateMeshMap_offered_iff` is about the candidate list. A path that is selected from a response is
one the response offers, and a path that hysteresis keeps need not be: hysteresis compares node ids
and scores and never looks at the list. `chosen_obeys_iff` is about the tier rule. The loop guard
compares a tier with the depth of the policy instead of the tier of the agent, lets negative tiers
through and is skipped when its lock is busy; what gets past it is `SlipsThrough`. Both ask that the
call returns: a switch to an upstream whose id its log line cuts in two aborts the agent.

`voluntary_switch_bounded` is about hysteresis over whole runs. `Tied` relates the two fields the
selector keeps to the times of all calls of `apply_path_switch` so far: the last of them, and those
of the last five minutes.

Scope. A candidate has IPv6 when the response gives it an IPv6 address. A call reads the clock once.
In a run, a call that aborts the agent leaves the history as it is: a run of the agent ends with it.
-/

set_option autoImplicit false
set_option relaxedAutoImplicit false

namespace LiveCDN.Agent.UpstreamPolicy

open Library Library.GuardedRun CascadeSelector

/-! ### Which paths a response offers -/

/-- The address a response gives an agent for a candidate: the IPv6 one when both sides have
IPv6. -/
def addressFor (hasIpv6 : Bool) (c : CandidateUpstream) : String :=
  if hasIpv6 = true ∧ c.ipv6Url ≠ "" then c.ipv6Url else c.url

/-- The path leads to a candidate of the response that is allowed and has an address, and uses the
address the response gives for it. -/
def Offered (hasIpv6 : Bool) (resp : MeshMapResponse) (path : CascadePath) : Prop :=
  ∃ c ∈ resp.candidateUpstreams, c.allowCascade = true ∧ c.url ≠ "" ∧
    c.nodeId = path.upstreamNodeId ∧ path.upstreamUrl = addressFor hasIpv6 c

/-- Hysteresis lets a switch between two paths pass: they lead to different nodes, the cooldown is
over, the last five minutes have room for another switch, and the score improves enough. -/
def SwitchAllowed (rd : ℚ → ℚ) (s : Selector) (now : ℕ) (resp : MeshMapResponse)
    (cur new : CascadePath) : Prop :=
  cur.upstreamNodeId ≠ new.upstreamNodeId ∧
    (∀ last, s.lastSwitchAt = some last →
      Selector.asU64 ((resp.policy.map MeshPolicy.switchCooldownSec).getD 30) * second ≤
        now - last) ∧
    (s.switchCount5min.filter fun t ↦ decide (now < t + 300 * second)).length <
      Selector.asU64 ((resp.policy.map MeshPolicy.maxSwitchPer5min).getD 3) ∧
    Selector.minImprovement rd resp ≤ Selector.improvement rd new.score cur.score

/-- The address of a selected path is the one the response gives. -/
theorem url_candidatePath_eq (s : Selector) (env : Env) (now : ℕ)
    (entry : CandidateUpstream × ℕ) :
    (s.candidatePath env now entry).upstreamUrl = addressFor s.hasIpv6 entry.1 := by
  change (s.reasonAndUrl entry.1).2 = _
  unfold Selector.reasonAndUrl addressFor
  by_cases hipv6 : s.hasIpv6 = true ∧ entry.1.ipv6Url ≠ ""
  · rw [if_pos hipv6, if_pos hipv6]
  · rw [if_neg hipv6, if_neg hipv6]

/-- A selected path belongs to a usable candidate. -/
theorem candidate_of_selected {s : Selector} {env : Env} {now : ℕ}
    {candidates : List CandidateUpstream} {path : CascadePath}
    (hselected : s.selectFromCandidates env now candidates = some path) :
    ∃ entry ∈ candidates.zipIdx, s.MayUse env entry ∧
      s.candidatePath env now entry = path := by
  obtain ⟨entry, hentry, hscore⟩ :=
    List.mem_filterMap.mp (StableBest.mem_of_best CascadePath.score hselected)
  exact ⟨entry, hentry, scoreCandidate_eq_some_iff.mp hscore⟩

/-- A path selected from a response is one it offers. -/
theorem offered_of_selected {s : Selector} {env : Env} {now : ℕ} {resp : MeshMapResponse}
    {path : CascadePath}
    (hselected : s.selectFromCandidates env now resp.candidateUpstreams = some path) :
    Offered s.hasIpv6 resp path := by
  obtain ⟨entry, hentry, huse, rfl⟩ := candidate_of_selected hselected
  have hmem : entry.1 ∈ resp.candidateUpstreams :=
    List.mem_of_getElem? (List.mem_zipIdx_iff_getElem?.mp hentry)
  exact ⟨entry.1, hmem, huse.1, huse.2.1, rfl, url_candidatePath_eq s env now entry⟩

/-- The decision of `check_hysteresis` between two paths. -/
theorem checkHysteresis_iff {rd : ℚ → ℚ} {s : Selector} {now : ℕ} {resp : MeshMapResponse}
    {cur new : CascadePath} (hcurrent : s.currentPath = some cur) :
    (s.checkHysteresis rd now (some new) resp).1 = true ↔ SwitchAllowed rd s now resp cur new := by
  unfold Selector.checkHysteresis SwitchAllowed
  rw [hcurrent]
  dsimp only
  by_cases hsame : cur.upstreamNodeId = new.upstreamNodeId
  · rw [if_pos hsame]
    exact iff_of_false Bool.false_ne_true fun h ↦ h.1 hsame
  rw [if_neg hsame]
  by_cases hcooldown : (s.lastSwitchAt.any fun last ↦ decide (now - last <
      Selector.asU64 ((resp.policy.map MeshPolicy.switchCooldownSec).getD 30) * second)) = true
  · rw [if_pos hcooldown]
    refine iff_of_false Bool.false_ne_true fun h ↦ ?_
    simp only [Option.any_eq_true, decide_eq_true_eq] at hcooldown
    obtain ⟨last, hlast, hwithin⟩ := hcooldown
    exact not_le_of_gt hwithin (h.2.1 last hlast)
  rw [if_neg hcooldown]
  simp only [Option.any_eq_true, decide_eq_true_eq, not_exists, not_and, not_lt] at hcooldown
  split_ifs with hcount himprovement
  · exact iff_of_false not_false fun h ↦ not_le_of_gt h.2.2.1 hcount
  · exact iff_of_false not_false fun h ↦ not_le_of_gt himprovement h.2.2.2
  · exact iff_of_true (Eq.refl true) ⟨hsame, hcooldown, not_le.mp hcount, not_lt.mp himprovement⟩

/-- The path that `update_mesh_map` selects. -/
def selectedBy (s : Selector) (env : Env) (now : ℕ) (resp : MeshMapResponse) :
    Option CascadePath :=
  (s.withResponse resp).selectFromCandidates env now resp.candidateUpstreams

/-- `update_mesh_map` switches: the response says that the upstream is offline, or hysteresis lets
the switch pass. -/
def switches (s : Selector) (env : Env) (now : ℕ) (resp : MeshMapResponse) : Bool :=
  Selector.upstreamOffline resp ||
    ((s.withResponse resp).checkHysteresis env.rd now (selectedBy s env now resp) resp).1

/-- The switch times that `update_mesh_map` keeps. -/
def keptTimes (s : Selector) (env : Env) (now : ℕ) (resp : MeshMapResponse) : List ℕ :=
  if Selector.upstreamOffline resp = true then s.switchCount5min
  else ((s.withResponse resp).checkHysteresis env.rd now (selectedBy s env now resp) resp).2

/-- `update_mesh_map` returns exactly when it does not switch, or its log line does not abort the
agent; and then it has taken over the response, and the selected path if it switches. -/
theorem updateMeshMap_eq_some_iff {s s' : Selector} {env : Env} {now : ℕ}
    {resp : MeshMapResponse} :
    s.updateMeshMap env now resp = some s' ↔
      (switches s env now resp = true →
        ∀ path, selectedBy s env now resp = some path → ¬ AbortsOn env path) ∧
      s' = if switches s env now resp = true then
          { s.withResponse resp with
            currentPath := selectedBy s env now resp
            lastSwitchAt := some now
            switchCount5min := keptTimes s env now resp ++ [now]
            lastMeshResponse := some resp }
        else { s.withResponse resp with
          switchCount5min := keptTimes s env now resp
          lastMeshResponse := some resp } := by
  unfold Selector.updateMeshMap switches keptTimes
  by_cases hoffline : Selector.upstreamOffline resp = true
  · simp only [hoffline, if_true, Bool.true_or, true_imp_iff, Option.map_eq_some_iff,
      Selector.forceReselect, applyPathSwitch_eq_some_iff]
    constructor
    · rintro ⟨_, ⟨hlogged, rfl⟩, rfl⟩
      exact ⟨hlogged, rfl⟩
    · rintro ⟨hlogged, rfl⟩
      exact ⟨_, ⟨hlogged, rfl⟩, rfl⟩
  · rw [Bool.not_eq_true] at hoffline
    by_cases hpasses : ((s.withResponse resp).checkHysteresis env.rd now (selectedBy s env now resp)
        resp).1 = true
    · have hpasses' := hpasses
      unfold selectedBy at hpasses'
      simp only [hoffline, hpasses, hpasses', Bool.false_eq_true, if_false, if_true, Bool.false_or,
        true_imp_iff, Option.map_eq_some_iff, applyPathSwitch_eq_some_iff]
      constructor
      · rintro ⟨_, ⟨hlogged, rfl⟩, rfl⟩
        exact ⟨hlogged, rfl⟩
      · rintro ⟨hlogged, rfl⟩
        exact ⟨_, ⟨hlogged, rfl⟩, rfl⟩
    · have hpasses' := hpasses
      unfold selectedBy at hpasses'
      simp only [hoffline, hpasses, hpasses', Bool.false_eq_true, if_false, Bool.false_or,
        false_imp_iff, true_and, Option.map_some, Option.some.injEq]
      exact eq_comm

/-- The path after a response: the selected one when the call switches, else the one held before.
Assumes: the call returns. -/
theorem currentPath_updateMeshMap {s s' : Selector} {env : Env} {now : ℕ} {resp : MeshMapResponse}
    (hreturns : s.updateMeshMap env now resp = some s') :
    s'.currentPath =
      if switches s env now resp = true then selectedBy s env now resp else s.currentPath := by
  obtain ⟨-, rfl⟩ := updateMeshMap_eq_some_iff.mp hreturns
  split_ifs <;> rfl

/-- A response that was handled is the last one. Assumes: the call returns. -/
theorem lastMeshResponse_updateMeshMap {s s' : Selector} {env : Env} {now : ℕ}
    {resp : MeshMapResponse} (hreturns : s.updateMeshMap env now resp = some s') :
    s'.lastMeshResponse = some resp := by
  obtain ⟨-, rfl⟩ := updateMeshMap_eq_some_iff.mp hreturns
  split_ifs <;> rfl

/-- A response makes the selector switch to a path: it says that the upstream is offline, or there
is no current path, or hysteresis lets the switch pass. -/
def SwitchesTo (s : Selector) (env : Env) (now : ℕ) (resp : MeshMapResponse) (path : CascadePath) :
    Prop :=
  Selector.upstreamOffline resp = true ∨
    ∀ cur, s.currentPath = some cur → SwitchAllowed env.rd s now resp cur path

/-- The call switches to the selected path. -/
theorem switches_iff {s : Selector} {env : Env} {now : ℕ} {resp : MeshMapResponse}
    {path : CascadePath} (hselected : selectedBy s env now resp = some path) :
    switches s env now resp = true ↔ SwitchesTo s env now resp path := by
  rw [switches, SwitchesTo, Bool.or_eq_true, hselected]
  refine or_congr_right ?_
  cases hcurrent : s.currentPath with
  | none =>
    have hpasses :
        ((s.withResponse resp).checkHysteresis env.rd now (some path) resp).1 = true := by
      unfold Selector.checkHysteresis
      rw [show (s.withResponse resp).currentPath = none from hcurrent]
    exact iff_of_true hpasses nofun
  | some cur =>
    rw [checkHysteresis_iff (s := s.withResponse resp) hcurrent]
    constructor
    · rintro hallowed _ ⟨⟩
      exact hallowed
    · intro hallowed
      exact hallowed cur rfl

/-- A path is given up when no candidate can be used. -/
theorem switches_of_selectedBy_none {s : Selector} {env : Env} {now : ℕ} {resp : MeshMapResponse}
    {cur : CascadePath} (hcurrent : s.currentPath = some cur)
    (hnone : selectedBy s env now resp = none) : switches s env now resp = true := by
  rw [switches, hnone, Bool.or_eq_true]
  right
  unfold Selector.checkHysteresis
  rw [show (s.withResponse resp).currentPath = some cur from hcurrent]

/-- Each usable candidate that the selector would switch to and whose id aborts the agent is
outranked by one that it would not switch to or whose id does not. -/
def AbortsOutranked (s : Selector) (env : Env) (now : ℕ) (resp : MeshMapResponse) : Prop :=
  (s.withResponse resp).BadOutranked env now resp.candidateUpstreams fun path ↦
    SwitchesTo s env now resp path ∧ AbortsOn env path

/-- Each usable candidate to which hysteresis refuses the switch is outranked by one to which it
lets the switch pass. -/
def RefusedOutranked (s : Selector) (env : Env) (now : ℕ) (resp : MeshMapResponse)
    (cur : CascadePath) : Prop :=
  (s.withResponse resp).BadOutranked env now resp.candidateUpstreams fun path ↦
    ¬ SwitchAllowed env.rd s now resp cur path

/-- `update_mesh_map` returns exactly when the candidates that abort the agent are outranked. -/
theorem updateMeshMap_returns_iff {s : Selector} {env : Env} {now : ℕ} {resp : MeshMapResponse} :
    (∃ s', s.updateMeshMap env now resp = some s') ↔ AbortsOutranked s env now resp := by
  simp only [updateMeshMap_eq_some_iff, exists_and_left, exists_eq, and_true]
  refine Iff.trans ?_ (selectFromCandidates_avoids (s.withResponse resp) env now
    resp.candidateUpstreams fun path ↦ SwitchesTo s env now resp path ∧ AbortsOn env path)
  constructor
  · intro hlogged path hselected hbad
    exact hlogged ((switches_iff hselected).mpr hbad.1) path hselected hbad.2
  · intro havoids hswitches path hselected haborts
    exact havoids path hselected ⟨(switches_iff hselected).mp hswitches, haborts⟩

/-- Hysteresis lets the switch to the selected path pass exactly when the candidates it refuses are
outranked. -/
theorem selected_allowed_iff {s : Selector} {env : Env} {now : ℕ} {resp : MeshMapResponse}
    {cur : CascadePath} :
    (∀ new, selectedBy s env now resp = some new → SwitchAllowed env.rd s now resp cur new) ↔
      RefusedOutranked s env now resp cur := by
  have havoids := selectFromCandidates_avoids (s.withResponse resp) env now resp.candidateUpstreams
    fun path ↦ ¬ SwitchAllowed env.rd s now resp cur path
  simp only [not_not] at havoids
  exact havoids

/-- The path after a response is none or one it offers exactly when the path held before, if the
response does not offer it, is given up. Assumes: the call returns. -/
theorem currentPath_offered_iff {s s' : Selector} {env : Env} {now : ℕ} {resp : MeshMapResponse}
    (hreturns : s.updateMeshMap env now resp = some s') :
    (∀ path, s'.currentPath = some path → Offered s.hasIpv6 resp path) ↔
      ∀ cur, s.currentPath = some cur → ¬ Offered s.hasIpv6 resp cur →
        Selector.upstreamOffline resp = true ∨ RefusedOutranked s env now resp cur := by
  have hoffered : ∀ path, selectedBy s env now resp = some path → Offered s.hasIpv6 resp path :=
    fun path hpath ↦ offered_of_selected (s := s.withResponse resp) hpath
  have hcurrent := currentPath_updateMeshMap hreturns
  simp only [← selected_allowed_iff]
  by_cases hswitches : switches s env now resp = true
  · rw [if_pos hswitches] at hcurrent
    rw [hcurrent]
    refine iff_of_true hoffered fun cur hcur _ ↦ or_iff_not_imp_left.mpr fun honline new hnew ↦ ?_
    exact ((switches_iff hnew).mp hswitches).resolve_left honline cur hcur
  · rw [if_neg hswitches] at hcurrent
    rw [hcurrent]
    refine forall₂_congr fun cur hcur ↦ ?_
    constructor
    · intro hkept hnot
      exact absurd hkept hnot
    · intro hgiven
      by_contra hnot
      cases hselected : selectedBy s env now resp with
      | none => exact hswitches (switches_of_selectedBy_none hcur hselected)
      | some new =>
        refine hswitches ((switches_iff hselected).mpr ((hgiven hnot).imp_right fun hallowed ↦ ?_))
        rintro _ hsame
        obtain rfl := Option.some.inj (hcur.symm.trans hsame)
        exact hallowed new hselected

/-- A response is handled, and the path after it is none or one that it offers, exactly when the
candidates that abort the agent are outranked, and the path held before, if the response does not
offer it, is given up: because the response says that the upstream is offline, or because the
candidates to which hysteresis refuses the switch are outranked, as they are when no candidate can
be used. -/
theorem updateMeshMap_offered_iff (s : Selector) (env : Env) (now : ℕ) (resp : MeshMapResponse) :
    (∃ s', s.updateMeshMap env now resp = some s' ∧
      ∀ path, s'.currentPath = some path → Offered s.hasIpv6 resp path) ↔
      AbortsOutranked s env now resp ∧
        ∀ cur, s.currentPath = some cur → ¬ Offered s.hasIpv6 resp cur →
          Selector.upstreamOffline resp = true ∨ RefusedOutranked s env now resp cur := by
  rw [← updateMeshMap_returns_iff]
  constructor
  · rintro ⟨s', hreturns, hoffers⟩
    exact ⟨⟨s', hreturns⟩, (currentPath_offered_iff hreturns).mp hoffers⟩
  · rintro ⟨⟨s', hreturns⟩, hgiven⟩
    exact ⟨s', hreturns, (currentPath_offered_iff hreturns).mpr hgiven⟩

/-- A candidate in the selector's region, with its address. -/
def candidateAt (nodeId url : String) (tier : ℤ) : CandidateUpstream :=
  { loneCandidate with nodeId := nodeId, url := url, tier := tier }

/-- A response of the default policy to an agent of tier 2. -/
def responseWith (candidates : List CandidateUpstream) : MeshMapResponse :=
  ⟨2, candidates, some ⟨2, 30, 15, 3⟩, none⟩

/-- A selector that has taken `edge-1` from its first response. -/
def onEdge1 : Selector :=
  (newSelector.updateMeshMap .always 0
    (responseWith [candidateAt "edge-1" "http://10.0.0.1/cascade/test.flv" 1])).getD newSelector

/-- A response within the cooldown that withdraws the current upstream, and one that moves it to
another address: both times the old path is kept. -/
theorem updateMeshMap_offered_counterexample :
    (((onEdge1.updateMeshMap .always second (responseWith
        [candidateAt "edge-2" "http://10.0.0.2/cascade/test.flv" 1])).bind
          Selector.currentPath).map fun path ↦ (path.upstreamNodeId, path.upstreamUrl)) =
        some ("edge-1", "http://10.0.0.1/cascade/test.flv") ∧
      (((onEdge1.updateMeshMap .always (60 * second) (responseWith
        [candidateAt "edge-1" "http://10.9.9.9/cascade/test.flv" 1])).bind
          Selector.currentPath).map fun path ↦ (path.upstreamNodeId, path.upstreamUrl)) =
        some ("edge-1", "http://10.0.0.1/cascade/test.flv") ∧
      ¬ ∀ (s : Selector) (env : Env) (now : ℕ) (resp : MeshMapResponse) (s' : Selector),
        s.updateMeshMap env now resp = some s' →
          ∀ path, s'.currentPath = some path → Offered s.hasIpv6 resp path := by
  have hkept : (((onEdge1.updateMeshMap .always second (responseWith
      [candidateAt "edge-2" "http://10.0.0.2/cascade/test.flv" 1])).bind
        Selector.currentPath).map fun path ↦ (path.upstreamNodeId, path.upstreamUrl)) =
      some ("edge-1", "http://10.0.0.1/cascade/test.flv") := by decide +kernel
  refine ⟨hkept, by decide +kernel, fun hall ↦ ?_⟩
  obtain ⟨path, hpath, hpair⟩ := Option.map_eq_some_iff.mp hkept
  obtain ⟨s', hreturns, hcurrent⟩ := Option.bind_eq_some_iff.mp hpath
  obtain ⟨c, hc, _, _, hid, _⟩ := hall onEdge1 .always second _ s' hreturns path hcurrent
  obtain rfl := List.mem_singleton.mp hc
  have hsame : "edge-2" = "edge-1" := hid.trans (congrArg Prod.fst hpair)
  exact absurd hsame (by decide)

/-! ### The tier rule -/

/-- The tier rule on a chosen path: not the agent itself, and of a tier below that of the agent. -/
def ObeysTierRule (s : Selector) (chosen : Option CascadePath) : Prop :=
  ∀ path, chosen = some path →
    path.upstreamNodeId ≠ s.loopGuard.nodeId ∧ path.tier < s.selfTier

/-- A candidate that breaks the tier rule and is not skipped: it is allowed and has an address, and
the lock of the guard is busy, or the guard does not object, because it compares the tier with the
depth of the policy and only when the tier is not negative. -/
def SlipsThrough (s : Selector) (env : Env) (entry : CandidateUpstream × ℕ) : Prop :=
  entry.1.allowCascade = true ∧ entry.1.url ≠ "" ∧
    (entry.1.nodeId = s.loopGuard.nodeId ∨ s.selfTier ≤ entry.1.tier) ∧
    (env.guard entry.2 = false ∨
      entry.1.nodeId ≠ s.loopGuard.nodeId ∧
        s.loopGuard.knownUpstreamChain.contains s.loopGuard.nodeId = false ∧
        (entry.1.tier < 0 ∨ entry.1.tier < s.loopGuard.maxDepth))

/-- A candidate that keeps the tier rule and may be used. -/
def ProperUpstream (s : Selector) (env : Env) (entry : CandidateUpstream × ℕ) : Prop :=
  s.MayUse env entry ∧ entry.1.nodeId ≠ s.loopGuard.nodeId ∧ entry.1.tier < s.selfTier

/-- Each candidate that slips through is outranked by a proper one: an earlier one with at least its
score or a later one with a higher score. -/
def RuleBreakersOutranked (s : Selector) (env : Env) (now : ℕ)
    (candidates : List CandidateUpstream) : Prop :=
  ∀ front entry back, candidates.zipIdx = front ++ entry :: back → SlipsThrough s env entry →
    (∃ other ∈ front, ProperUpstream s env other ∧
      s.finalScore env now entry.2 entry.1 ≤ s.finalScore env now other.2 other.1) ∨
    ∃ other ∈ back, ProperUpstream s env other ∧
      s.finalScore env now entry.2 entry.1 < s.finalScore env now other.2 other.1

/-- What the loop guard does not object to. -/
theorem wouldCreateLoop_eq_false_iff {guard : LoopGuard} {upstreamNodeId : String}
    {upstreamTier : ℤ} :
    guard.wouldCreateLoop upstreamNodeId upstreamTier = false ↔
      upstreamNodeId ≠ guard.nodeId ∧ guard.knownUpstreamChain.contains guard.nodeId = false ∧
        (upstreamTier < 0 ∨ upstreamTier < guard.maxDepth) := by
  have htier : ¬ (upstreamTier ≥ 0 ∧ upstreamTier ≥ guard.maxDepth) ↔
      upstreamTier < 0 ∨ upstreamTier < guard.maxDepth := by
    rw [not_and_or, ge_iff_le, ge_iff_le, not_le, not_le]
  unfold LoopGuard.wouldCreateLoop
  split_ifs with hdeep hself hchain
  · exact iff_of_false not_false fun h ↦ htier.mpr h.2.2 hdeep
  · exact iff_of_false not_false fun h ↦ h.1 hself
  · refine iff_of_false not_false fun h ↦ ?_
    exact Bool.false_ne_true (h.2.1.symm.trans hchain)
  · exact iff_of_true rfl ⟨hself, Bool.not_eq_true _ ▸ hchain, htier.mp hdeep⟩

/-- What slips through is what may be used against the tier rule. -/
theorem slipsThrough_iff {s : Selector} {env : Env} {entry : CandidateUpstream × ℕ} :
    SlipsThrough s env entry ↔ s.MayUse env entry ∧
      ¬ (entry.1.nodeId ≠ s.loopGuard.nodeId ∧ entry.1.tier < s.selfTier) := by
  have hskip : ¬ (env.guard entry.2 = true ∧
      s.loopGuard.wouldCreateLoop entry.1.nodeId entry.1.tier = true) ↔
        env.guard entry.2 = false ∨
          entry.1.nodeId ≠ s.loopGuard.nodeId ∧
            s.loopGuard.knownUpstreamChain.contains s.loopGuard.nodeId = false ∧
            (entry.1.tier < 0 ∨ entry.1.tier < s.loopGuard.maxDepth) := by
    rw [not_and_or, Bool.not_eq_true, Bool.not_eq_true, wouldCreateLoop_eq_false_iff]
  rw [SlipsThrough, Selector.MayUse, hskip, not_and_or, not_not, not_lt]
  constructor
  · rintro ⟨hallow, hurl, hbreaks, hguard⟩
    exact ⟨⟨hallow, hurl, hguard⟩, hbreaks⟩
  · rintro ⟨⟨hallow, hurl, hguard⟩, hbreaks⟩
    exact ⟨hallow, hurl, hbreaks, hguard⟩

/-- A selection keeps the tier rule exactly when each candidate that slips through is outranked. -/
theorem selected_obeys_iff (s : Selector) (env : Env) (now : ℕ)
    (candidates : List CandidateUpstream) :
    ObeysTierRule s (s.selectFromCandidates env now candidates) ↔
      RuleBreakersOutranked s env now candidates := by
  have havoids := selectFromCandidates_avoids s env now candidates fun path ↦
    ¬ (path.upstreamNodeId ≠ s.loopGuard.nodeId ∧ path.tier < s.selfTier)
  unfold Selector.BadOutranked at havoids
  simp only [not_not] at havoids
  refine havoids.trans ?_
  unfold RuleBreakersOutranked
  refine forall_congr' fun front ↦ forall_congr' fun entry ↦ forall_congr' fun back ↦
    imp_congr_right fun _ ↦ ?_
  rw [slipsThrough_iff, and_imp]
  refine imp_congr_right fun _ ↦ imp_congr_right fun _ ↦ ?_
  unfold ProperUpstream
  simp only [and_assoc]
  exact Iff.rfl

/-- `force_reselect` returns and keeps the tier rule exactly when the candidates that slip through
and those that abort the agent are outranked. -/
theorem forceReselect_obeys_iff (s : Selector) (env : Env) (now : ℕ) (resp : MeshMapResponse) :
    (∃ s', s.forceReselect env now resp = some s' ∧ ObeysTierRule s s'.currentPath) ↔
      RuleBreakersOutranked s env now resp.candidateUpstreams ∧
        s.BadOutranked env now resp.candidateUpstreams (AbortsOn env) := by
  rw [← selected_obeys_iff, ← selectFromCandidates_avoids]
  constructor
  · rintro ⟨_, hreturns, hobeys⟩
    obtain ⟨hlogged, rfl⟩ := applyPathSwitch_eq_some_iff.mp hreturns
    exact ⟨hobeys, hlogged⟩
  · rintro ⟨hobeys, hlogged⟩
    exact ⟨_, applyPathSwitch_eq_some_iff.mpr ⟨hlogged, rfl⟩, hobeys⟩

/-- `emergency_switch` returns and keeps the tier rule exactly when the candidates of the last
response that slip through and those that abort the agent are outranked. -/
theorem emergencySwitch_obeys_iff (s : Selector) (env : Env) (now : ℕ) :
    (∃ s', s.emergencySwitch env now = some s' ∧ ObeysTierRule s s'.currentPath) ↔
      ∀ resp, s.lastMeshResponse = some resp →
        RuleBreakersOutranked s env now resp.candidateUpstreams ∧
          s.BadOutranked env now resp.candidateUpstreams (AbortsOn env) := by
  simp only [← selected_obeys_iff, ← selectFromCandidates_avoids]
  constructor
  · rintro ⟨s', hreturns, hobeys⟩ resp hresp
    rcases emergencySwitch_eq_some_iff.mp hreturns with ⟨hnone, -⟩ | ⟨last, hlast, hlogged, rfl⟩
    · exact nomatch hnone.symm.trans hresp
    · obtain rfl := Option.some.inj (hlast.symm.trans hresp)
      exact ⟨hobeys, hlogged⟩
  · intro hselected
    cases hresp : s.lastMeshResponse with
    | none =>
      exact ⟨_, emergencySwitch_eq_some_iff.mpr (Or.inl ⟨hresp, rfl⟩), fun path hpath ↦
        nomatch hpath⟩
    | some resp =>
      obtain ⟨hobeys, hlogged⟩ := hselected resp hresp
      exact ⟨_, emergencySwitch_eq_some_iff.mpr (Or.inr ⟨resp, hresp, hlogged, rfl⟩), hobeys⟩

/-- The tier rule for the candidates chosen inside `update_mesh_map`, `force_reselect` and
`emergency_switch`: it is kept exactly when each candidate of the response that slips through is
outranked by a proper one. A reselection that returns asks besides that the candidates that abort
the agent are outranked. -/
theorem chosen_obeys_iff (s : Selector) (env : Env) (now : ℕ) :
    (∀ resp : MeshMapResponse, ObeysTierRule (s.withResponse resp) (selectedBy s env now resp) ↔
        RuleBreakersOutranked (s.withResponse resp) env now resp.candidateUpstreams) ∧
      (∀ resp : MeshMapResponse,
        ObeysTierRule s (s.selectFromCandidates env now resp.candidateUpstreams) ↔
        RuleBreakersOutranked s env now resp.candidateUpstreams) ∧
      (∀ resp : MeshMapResponse,
        (∃ s', s.forceReselect env now resp = some s' ∧ ObeysTierRule s s'.currentPath) ↔
        RuleBreakersOutranked s env now resp.candidateUpstreams ∧
          s.BadOutranked env now resp.candidateUpstreams (AbortsOn env)) ∧
      ((∃ s', s.emergencySwitch env now = some s' ∧ ObeysTierRule s s'.currentPath) ↔
        ∀ resp, s.lastMeshResponse = some resp →
          RuleBreakersOutranked s env now resp.candidateUpstreams ∧
            s.BadOutranked env now resp.candidateUpstreams (AbortsOn env)) := by
  refine ⟨fun resp ↦ selected_obeys_iff _ env now resp.candidateUpstreams,
    fun resp ↦ selected_obeys_iff s env now resp.candidateUpstreams,
    forceReselect_obeys_iff s env now, ?_⟩
  exact emergencySwitch_obeys_iff s env now

/-- A node of tier 1 under the default policy, whose depth is 2, chooses a candidate of its own
tier; a node under the policy of its tier chooses a candidate of a negative tier above its own, and
itself while the lock is busy. -/
theorem chosen_obeys_counterexample :
    let s := Selector.new "test-node" "华东" "电信" false
    let peer : MeshMapResponse := ⟨1, [candidateAt "edge-1" "http://10.0.0.1" 1],
      some ⟨2, 30, 15, 3⟩, none⟩
    let negative : MeshMapResponse :=
      ⟨-2, [candidateAt "edge-1" "http://10.0.0.1" (-1)], none, none⟩
    let self : MeshMapResponse := ⟨2, [candidateAt "test-node" "http://10.0.0.1" 1], none, none⟩
    ¬ ObeysTierRule (s.withResponse peer) (selectedBy s .always 0 peer) ∧
      ¬ ObeysTierRule (s.withResponse negative) (selectedBy s .always 0 negative) ∧
      ¬ ObeysTierRule (s.withResponse self)
        (selectedBy s { Env.always with guard := fun _ ↦ false } 0 self) := by
  have hbreaks : ∀ (s : Selector) (chosen : Option CascadePath),
      (chosen.any fun path ↦ decide (path.upstreamNodeId = s.loopGuard.nodeId ∨
        s.selfTier ≤ path.tier)) = true → ¬ ObeysTierRule s chosen := by
    intro s chosen hany hobeys
    obtain ⟨path, hpath, hbad⟩ := (Option.any_eq_true _ _).mp hany
    obtain ⟨hother, hlower⟩ := hobeys path hpath
    rcases of_decide_eq_true hbad with hself | hhigh
    · exact hother hself
    · exact not_lt.mpr hhigh hlower
  exact ⟨hbreaks _ _ (by decide +kernel), hbreaks _ _ (by decide +kernel),
    hbreaks _ _ (by decide +kernel)⟩

/-! ### Hysteresis over whole runs -/

/-- A call on the selector that can switch the path or that resets the failure count. -/
inductive Call
  | updateMeshMap (env : Env) (resp : MeshMapResponse)
  | reportUpstreamOk
  | reportUpstreamFail (env : Env)
  | runMeshPing (pings : ℕ → Selector.Ping) (env : Env)

/-- A call and the clock it reads. -/
structure TimedCall where
  now : ℕ
  call : Call

/-- The selector after a call, none when the call aborts the agent. -/
def after (s : Selector) (timed : TimedCall) : Option Selector :=
  match timed.call with
  | .updateMeshMap env resp => s.updateMeshMap env timed.now resp
  | .reportUpstreamOk => some (s.reportUpstreamOk timed.now)
  | .reportUpstreamFail env => s.reportUpstreamFail env timed.now
  | .runMeshPing pings env => s.runMeshPing pings env timed.now

/-- Whether a call runs `apply_path_switch`. -/
def appliesPathSwitch (s : Selector) (timed : TimedCall) : Bool :=
  match timed.call with
  | .updateMeshMap env resp => switches s env timed.now resp
  | .reportUpstreamOk => false
  | .reportUpstreamFail _ =>
    decide (s.upstreamConsecutiveFails + 1 ≥ 3) && s.lastMeshResponse.isSome
  | .runMeshPing pings _ =>
    s.lastMeshResponse.any fun resp ↦ s.currentPath.any fun path ↦
      (s.probeCandidates pings resp).foundUnreachable timed.now path.upstreamNodeId

/-- A selector with the times of all calls of `apply_path_switch` so far and the time of the last
call. -/
structure Observed where
  selector : Selector
  applied : List ℕ
  clock : ℕ

/-- A selector before its first call. -/
def Observed.start (selector : Selector) : Observed := ⟨selector, [], 0⟩

/-- The observation after one more call. A call that aborts the agent leaves no selector, and
nothing to add to the history. -/
def Observed.call (observed : Observed) (timed : TimedCall) : Observed :=
  ((after observed.selector timed).map fun selector ↦ {
    selector := selector
    applied := if appliesPathSwitch observed.selector timed = true then
      observed.applied ++ [timed.now] else observed.applied
    clock := timed.now }).getD observed

/-- The clock does not go back. -/
def ClockForward (observed : Observed) (timed : TimedCall) : Prop := observed.clock ≤ timed.now

/-- A time less than five minutes before `now`. -/
def recent (now t : ℕ) : Bool := decide (now < t + 300 * second)

/-- The fields of hysteresis after a call: either `apply_path_switch` was run, or the fields are as
before up to pruning. -/
def FieldsAfter (s s' : Selector) (now : ℕ) (applies : Bool) : Prop :=
  ∃ kept, (kept = s.switchCount5min ∨ kept = s.switchCount5min.filter (recent now)) ∧
    if applies = true then s'.lastSwitchAt = some now ∧ s'.switchCount5min = kept ++ [now]
    else s'.lastSwitchAt = s.lastSwitchAt ∧ s'.switchCount5min = kept

/-- `check_hysteresis` prunes the switch times or leaves them. -/
theorem checkHysteresis_prunes (rd : ℚ → ℚ) (s : Selector) (now : ℕ)
    (newPath : Option CascadePath) (resp : MeshMapResponse) :
    (s.checkHysteresis rd now newPath resp).2 = s.switchCount5min ∨
      (s.checkHysteresis rd now newPath resp).2 = s.switchCount5min.filter (recent now) := by
  unfold Selector.checkHysteresis
  cases s.currentPath with
  | none => cases newPath <;> exact Or.inl rfl
  | some cur =>
    cases newPath with
    | none => exact Or.inl rfl
    | some new =>
      dsimp only
      split_ifs
      · exact Or.inl rfl
      · exact Or.inl rfl
      · exact Or.inr rfl
      · exact Or.inr rfl
      · exact Or.inr rfl

/-- The switch times that `update_mesh_map` keeps are those it had, up to pruning. -/
theorem keptTimes_prunes (s : Selector) (env : Env) (now : ℕ) (resp : MeshMapResponse) :
    keptTimes s env now resp = s.switchCount5min ∨
      keptTimes s env now resp = s.switchCount5min.filter (recent now) := by
  unfold keptTimes
  split_ifs
  · exact Or.inl rfl
  · exact checkHysteresis_prunes env.rd (s.withResponse resp) now _ resp

/-- An emergency switch runs `apply_path_switch` exactly when there is a last response. Assumes: the
call returns. -/
theorem fieldsAfter_emergencySwitch {s s' : Selector} {env : Env} {now : ℕ}
    (hreturns : s.emergencySwitch env now = some s') :
    FieldsAfter s s' now s.lastMeshResponse.isSome := by
  refine ⟨s.switchCount5min, Or.inl rfl, ?_⟩
  rcases emergencySwitch_eq_some_iff.mp hreturns with ⟨hlast, rfl⟩ | ⟨resp, hlast, -, rfl⟩
  · rw [hlast]
    exact ⟨rfl, rfl⟩
  · rw [hlast]
    exact ⟨rfl, rfl⟩

/-- A failure runs `apply_path_switch` when it is the third in a row. Assumes: the call returns. -/
theorem fieldsAfter_reportUpstreamFail {s s' : Selector} {env : Env} {now : ℕ}
    (hreturns : s.reportUpstreamFail env now = some s') :
    FieldsAfter s s' now
      (decide (s.upstreamConsecutiveFails + 1 ≥ 3) && s.lastMeshResponse.isSome) := by
  by_cases hthird : s.upstreamConsecutiveFails + 1 ≥ 3
  · rw [reportUpstreamFail_of_third (by omega)] at hreturns
    rw [decide_eq_true hthird, Bool.true_and]
    exact fieldsAfter_emergencySwitch
      (s := { s with upstreamConsecutiveFails := s.upstreamConsecutiveFails + 1 }) hreturns
  · rw [decide_eq_false hthird, Bool.false_and]
    unfold Selector.reportUpstreamFail at hreturns
    dsimp only at hreturns
    rw [if_neg hthird] at hreturns
    obtain rfl := Option.some.inj hreturns
    exact ⟨s.switchCount5min, Or.inl rfl, rfl, rfl⟩

/-- A round of probes runs `apply_path_switch` when it finds the upstream unreachable. Assumes: the
call returns. -/
theorem fieldsAfter_runMeshPing {s s' : Selector} {pings : ℕ → Selector.Ping} {env : Env} {now : ℕ}
    (hreturns : s.runMeshPing pings env now = some s') :
    FieldsAfter s s' now
      (s.lastMeshResponse.any fun resp ↦ s.currentPath.any fun path ↦
        (s.probeCandidates pings resp).foundUnreachable now path.upstreamNodeId) := by
  cases hresp : s.lastMeshResponse with
  | none =>
    unfold Selector.runMeshPing at hreturns
    rw [hresp] at hreturns
    obtain rfl := Option.some.inj hreturns
    exact ⟨s.switchCount5min, Or.inl rfl, rfl, rfl⟩
  | some resp =>
    cases hpath : s.currentPath with
    | none =>
      unfold Selector.runMeshPing at hreturns
      rw [hresp] at hreturns
      dsimp only at hreturns
      rw [show (s.probeCandidates pings resp).currentPath = none from hpath] at hreturns
      obtain rfl := Option.some.inj hreturns
      exact ⟨s.switchCount5min, Or.inl rfl, rfl, rfl⟩
    | some path =>
      rw [Option.any_some, Option.any_some]
      by_cases hfound : (s.probeCandidates pings resp).foundUnreachable now
          path.upstreamNodeId = true
      · rw [runMeshPing_of_unreachable hresp hpath hfound] at hreturns
        have hemergency := fieldsAfter_emergencySwitch hreturns
        rw [show (s.probeCandidates pings resp).lastMeshResponse = some resp from hresp]
          at hemergency
        rw [hfound]
        exact hemergency
      · rw [Bool.eq_false_of_not_eq_true hfound]
        unfold Selector.runMeshPing at hreturns
        rw [hresp] at hreturns
        dsimp only at hreturns
        rw [show (s.probeCandidates pings resp).currentPath = some path from hpath] at hreturns
        dsimp only at hreturns
        rw [if_neg hfound] at hreturns
        obtain rfl := Option.some.inj hreturns
        exact ⟨s.switchCount5min, Or.inl rfl, rfl, rfl⟩

/-- What a call does to the fields of hysteresis. Assumes: the call returns. -/
theorem fieldsAfter_after {s s' : Selector} {timed : TimedCall}
    (hreturns : after s timed = some s') :
    FieldsAfter s s' timed.now (appliesPathSwitch s timed) := by
  obtain ⟨now, call⟩ := timed
  cases call with
  | updateMeshMap env resp =>
    obtain ⟨-, rfl⟩ := updateMeshMap_eq_some_iff.mp hreturns
    refine ⟨_, keptTimes_prunes s env now resp, ?_⟩
    change if switches s env now resp = true then _ else _
    split_ifs
    · exact ⟨rfl, rfl⟩
    · exact ⟨rfl, rfl⟩
  | reportUpstreamOk =>
    obtain rfl := Option.some.inj hreturns
    exact ⟨s.switchCount5min, Or.inl rfl, rfl, rfl⟩
  | reportUpstreamFail env => exact fieldsAfter_reportUpstreamFail hreturns
  | runMeshPing pings env => exact fieldsAfter_runMeshPing hreturns

/-- What the fields of hysteresis know of the calls of `apply_path_switch`: the time of the last
one, and the times of those that are less than five minutes old. -/
structure Tied (observed : Observed) : Prop where
  past : ∀ t ∈ observed.applied, t ≤ observed.clock
  last : observed.selector.lastSwitchAt = observed.applied.getLast?
  recents : ∀ now, observed.clock ≤ now →
    observed.selector.switchCount5min.filter (recent now) = observed.applied.filter (recent now)

/-- Pruning with an earlier clock keeps the recent times. -/
theorem filter_recent_of_pruned {kept times : List ℕ} {earlier now : ℕ} (hclock : earlier ≤ now)
    (hkept : kept = times ∨ kept = times.filter (recent earlier)) :
    kept.filter (recent now) = times.filter (recent now) := by
  rcases hkept with rfl | rfl
  · rfl
  · rw [List.filter_filter]
    refine List.filter_congr fun t _ ↦ ?_
    unfold recent
    by_cases hnow : now < t + 300 * second
    · rw [decide_eq_true hnow, decide_eq_true (hclock.trans_lt hnow), Bool.true_and]
    · rw [decide_eq_false hnow, Bool.false_and]

/-- The observation after a call that returns. -/
theorem call_of_after {observed : Observed} {timed : TimedCall} {selector : Selector}
    (hreturns : after observed.selector timed = some selector) :
    observed.call timed = {
      selector := selector
      applied := if appliesPathSwitch observed.selector timed = true then
        observed.applied ++ [timed.now] else observed.applied
      clock := timed.now } := by
  unfold Observed.call
  rw [hreturns, Option.map_some, Option.getD_some]

/-- A call under a clock that does not go back keeps the fields tied to the history. -/
theorem tied_call (observed : Observed) (timed : TimedCall) (htied : Tied observed)
    (hclock : ClockForward observed timed) : Tied (observed.call timed) := by
  cases hreturns : after observed.selector timed with
  | none =>
    rw [Observed.call, hreturns]
    exact htied
  | some selector =>
    obtain ⟨kept, hkept, hfields⟩ := fieldsAfter_after hreturns
    have hrecents : ∀ now, timed.now ≤ now →
        kept.filter (recent now) = observed.applied.filter (recent now) := fun now hnow ↦
      (filter_recent_of_pruned hnow hkept).trans (htied.recents now (hclock.trans hnow))
    have hpast : ∀ t ∈ observed.applied, t ≤ timed.now := fun t ht ↦
      (htied.past t ht).trans hclock
    rw [call_of_after hreturns]
    by_cases happlies : appliesPathSwitch observed.selector timed = true
    · rw [if_pos happlies] at hfields ⊢
      refine ⟨?_, ?_, fun now hnow ↦ ?_⟩
      · intro t ht
        rcases List.mem_append.mp ht with hold | hnew
        · exact hpast t hold
        · exact (List.mem_singleton.mp hnew).le
      · rw [List.getLast?_concat]
        exact hfields.1
      · rw [List.filter_append, ← hrecents now hnow, ← List.filter_append]
        exact congrArg (List.filter (recent now)) hfields.2
    · rw [if_neg happlies] at hfields ⊢
      refine ⟨hpast, hfields.1.trans htied.last, fun now hnow ↦ ?_⟩
      rw [← hrecents now hnow]
      exact congrArg (List.filter (recent now)) hfields.2

/-- The two limits of a policy are non-negative numbers of 32 bits. -/
def NonNegative (policy : MeshPolicy) : Prop :=
  0 ≤ policy.switchCooldownSec ∧ policy.switchCooldownSec < 2 ^ 31 ∧
    0 ≤ policy.maxSwitchPer5min ∧ policy.maxSwitchPer5min < 2 ^ 31

/-- The cooldown a response asks for, in seconds. -/
def cooldownOf (resp : MeshMapResponse) : ℤ :=
  (resp.policy.map MeshPolicy.switchCooldownSec).getD 30

/-- The most switches in five minutes a response allows. -/
def maxSwitchOf (resp : MeshMapResponse) : ℤ :=
  (resp.policy.map MeshPolicy.maxSwitchPer5min).getD 3

/-- A number of 31 bits is unchanged when it is read as an unsigned one. -/
theorem asU64_of_nonneg {number : ℤ} (hnonneg : 0 ≤ number) (hsmall : number < 2 ^ 31) :
    (Selector.asU64 number : ℤ) = number := by
  unfold Selector.asU64
  rw [Int.emod_eq_of_lt hnonneg (hsmall.trans (by decide)), Int.toNat_of_nonneg hnonneg]

/-- The limits of a response, as the selector reads them. Assumes: the policy of the response is not
negative. -/
theorem limits_of_nonNegative {resp : MeshMapResponse}
    (hpolicy : ∀ policy, resp.policy = some policy → NonNegative policy) :
    (Selector.asU64 (cooldownOf resp) : ℤ) = cooldownOf resp ∧
      (Selector.asU64 (maxSwitchOf resp) : ℤ) = maxSwitchOf resp := by
  unfold cooldownOf maxSwitchOf
  cases hresp : resp.policy with
  | none => decide
  | some policy =>
    obtain ⟨hcooldown, hcooldown', hmax, hmax'⟩ := hpolicy policy hresp
    exact ⟨asU64_of_nonneg hcooldown hcooldown', asU64_of_nonneg hmax hmax'⟩

/-- A selector after a list of calls, with its history. -/
def observe (nodeId region isp : String) (hasIpv6 : Bool) (calls : List TimedCall) : Observed :=
  run Observed.call (.start (.new nodeId region isp hasIpv6)) calls

/-- The fields of hysteresis are tied to the history after every list of calls under a clock that
does not go back. -/
theorem tied_observe {nodeId region isp : String} {hasIpv6 : Bool} {calls : List TimedCall}
    (hclock : EachStepMeets Observed.call ClockForward
      (.start (.new nodeId region isp hasIpv6)) calls) :
    Tied (observe nodeId region isp hasIpv6 calls) := by
  refine invariant_run Observed.call tied_call ⟨?_, rfl, fun now _ ↦ rfl⟩ hclock
  intro t ht
  cases ht

/-- A voluntary switch between two upstreams is bounded in every run. Assumes: the calls before the
response and the response itself are made under a clock that does not go back; the policy of the
response is not negative; the path before the response and the one after it lead to different nodes,
and the response does not say that the upstream is offline. Then the last call of
`apply_path_switch` lies at least the cooldown back, and the calls of the last five minutes together
with this one number at most the maximum. -/
theorem voluntary_switch_bounded (nodeId region isp : String) (hasIpv6 : Bool)
    (calls : List TimedCall) (now : ℕ) (env : Env) (resp : MeshMapResponse)
    (hclock : EachStepMeets Observed.call ClockForward (.start (.new nodeId region isp hasIpv6))
      (calls ++ [⟨now, .updateMeshMap env resp⟩]))
    (hpolicy : ∀ policy, resp.policy = some policy → NonNegative policy)
    {old new : CascadePath}
    (hold : (observe nodeId region isp hasIpv6 calls).selector.currentPath = some old)
    (hnew : ((observe nodeId region isp hasIpv6 calls).selector.updateMeshMap env now
      resp).bind Selector.currentPath = some new)
    (hother : new.upstreamNodeId ≠ old.upstreamNodeId)
    (hvoluntary : Selector.upstreamOffline resp = false) :
    (∀ last, (observe nodeId region isp hasIpv6 calls).applied.getLast? = some last →
        (last : ℤ) + cooldownOf resp * second ≤ now) ∧
      (((observe nodeId region isp hasIpv6 calls).applied.filter fun t ↦
        decide (now < t + 300 * second)).length : ℤ) + 1 ≤ maxSwitchOf resp := by
  obtain ⟨hbefore, hforward, _⟩ := (eachStepMeets_append Observed.call).mp hclock
  have htied := tied_observe hbefore
  change (observe nodeId region isp hasIpv6 calls).clock ≤ now at hforward
  set observed := observe nodeId region isp hasIpv6 calls
  obtain ⟨hcooldownNat, hmaxNat⟩ := limits_of_nonNegative hpolicy
  obtain ⟨s', hreturns, hcurrent⟩ := Option.bind_eq_some_iff.mp hnew
  rw [currentPath_updateMeshMap hreturns] at hcurrent
  have hallowed : SwitchAllowed env.rd observed.selector now resp old new := by
    split_ifs at hcurrent with hswitches
    · refine ((switches_iff hcurrent).mp hswitches).resolve_left ?_ old hold
      exact ne_true_of_eq_false hvoluntary
    · obtain rfl := Option.some.inj (hcurrent.symm.trans hold)
      exact absurd rfl hother
  obtain ⟨_, hcooldown, hcount, _⟩ := hallowed
  constructor
  · intro last hlast
    have hover := hcooldown last (htied.last.trans hlast)
    have hpast : last ≤ now :=
      (htied.past last (List.mem_of_getLast? hlast)).trans hforward
    change Selector.asU64 (cooldownOf resp) * second ≤ now - last at hover
    have hsum : last + Selector.asU64 (cooldownOf resp) * second ≤ now := by omega
    rw [← hcooldownNat]
    exact_mod_cast hsum
  · have hrecents := htied.recents now hforward
    unfold recent at hrecents
    rw [hrecents] at hcount
    change _ < Selector.asU64 (maxSwitchOf resp) at hcount
    rw [← hmaxNat]
    exact_mod_cast hcount

/-- The first call of a run: a response with one candidate of a low hint. -/
def firstCalls : List TimedCall :=
  [⟨0, .updateMeshMap .always (responseWith
      [{ candidateAt "edge-1" "http://10.0.0.1" 1 with scoreHint := 50 }])⟩,
    ⟨second, .reportUpstreamOk⟩]

/-- A response that also offers a better candidate. -/
def betterResponse : MeshMapResponse :=
  responseWith [{ candidateAt "edge-1" "http://10.0.0.1" 1 with scoreHint := 50 },
    candidateAt "edge-2" "http://10.0.0.2" 1]

/-- A witness of `voluntary_switch_bounded`: a switch to a better candidate after 40 seconds. -/
theorem voluntary_switch_bounded_witness :
    (observe "test-node" "华东" "电信" false firstCalls).applied.getLast? = some 0 ∧
      ((0 : ℕ) : ℤ) + cooldownOf betterResponse * second ≤ ((40 * second : ℕ) : ℤ) := by
  have happlied : (observe "test-node" "华东" "电信" false firstCalls).applied.getLast? = some 0 := by
    decide +kernel
  have hbefore : ((observe "test-node" "华东" "电信" false firstCalls).selector.currentPath.any
      fun path ↦ decide (path.upstreamNodeId = "edge-1")) = true := by decide +kernel
  have hafter : (((observe "test-node" "华东" "电信" false firstCalls).selector.updateMeshMap .always
      (40 * second) betterResponse).bind Selector.currentPath).any
        (fun path ↦ decide (path.upstreamNodeId = "edge-2")) = true := by decide +kernel
  obtain ⟨old, hold, holdId⟩ := (Option.any_eq_true _ _).mp hbefore
  obtain ⟨new, hnew, hnewId⟩ := (Option.any_eq_true _ _).mp hafter
  have hother : new.upstreamNodeId ≠ old.upstreamNodeId := by
    rw [of_decide_eq_true holdId, of_decide_eq_true hnewId]
    decide
  have hpolicy : ∀ policy, betterResponse.policy = some policy → NonNegative policy := by
    rintro _ ⟨⟩
    exact ⟨by decide, by decide, by decide, by decide⟩
  have hclock : EachStepMeets Observed.call ClockForward
      (.start (.new "test-node" "华东" "电信" false))
      (firstCalls ++ [⟨40 * second, .updateMeshMap .always betterResponse⟩]) :=
    ⟨Nat.zero_le _, Nat.zero_le _, show second ≤ 40 * second by decide, trivial⟩
  exact ⟨happlied, (voluntary_switch_bounded "test-node" "华东" "电信" false firstCalls (40 * second)
    .always betterResponse hclock hpolicy hold hnew hother (by decide)).1 0 happlied⟩

end LiveCDN.Agent.UpstreamPolicy
