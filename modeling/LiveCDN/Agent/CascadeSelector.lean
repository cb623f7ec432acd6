import LiveCDN.Library.Binary64
import LiveCDN.Library.StableBest
import LiveCDN.Library.Utf8Text

/-!
# The cascade selector of the agent

`relay/cascade_selector.rs`: the agent scores the candidate upstreams of the last mesh response with
its own probes, takes the best one (`selectFromCandidates`), applies hysteresis to voluntary
switches (`updateMeshMap`) and switches without it when an upstream has failed (`emergencySwitch`,
reached from `reportUpstreamFail` and `runMeshPing`).

An emergency switch scores the candidates like any other selection and does not leave the failed
upstream out. `emergency_leaves_iff` says when it leaves the upstream all the same: there is no last
response, or each entry of the upstream is outranked by an entry of another node. The log line of
`apply_path_switch` cuts the id of the new upstream behind eight bytes before the path is set, and
the agent aborts when that cuts a character; so an entry with such an id has to be outranked too.

Scope. Each call reads the clock once, as `now`, in nanoseconds; a round of probes reads it once for
each probe. `Env` says for which candidates the two `try_read` calls succeed, whether log lines of
the level `info` are written, and how the results of floating-point operations are rounded: the
agent rounds them to binary64. A call that aborts the agent has no result. The other log lines,
which cut nothing, are left out.
-/

set_option autoImplicit false
set_option relaxedAutoImplicit false

namespace LiveCDN.Agent.CascadeSelector

open Library Library.Utf8Text

/-- A second in nanoseconds. -/
def second : ℕ := 1000000000

/-! ### What the controller sends -/

/-- `CandidateUpstream`. -/
structure CandidateUpstream where
  nodeId : String
  url : String
  region : String
  isp : String
  tier : ℤ
  scoreHint : ℚ
  maxChildren : ℤ
  currentChildren : ℤ
  bwRemainingMbps : ℚ
  allowCascade : Bool
  hasIpv6 : Bool
  ipv6Url : String
  deriving DecidableEq, Repr

/-- The fields of `MeshPolicy` that the selector reads. -/
structure MeshPolicy where
  maxDepth : ℤ
  switchCooldownSec : ℤ
  minScoreImprovement : ℤ
  maxSwitchPer5min : ℤ
  deriving DecidableEq, Repr

/-- The fields of `MigrationAdvice` that the selector reads. -/
structure MigrationAdvice where
  shouldSwitch : Bool
  reason : String
  deriving DecidableEq, Repr

/-- The fields of `MeshMapResponse` that the selector reads. -/
structure MeshMapResponse where
  selfTier : ℤ
  candidateUpstreams : List CandidateUpstream
  policy : Option MeshPolicy
  migrationAdvice : Option MigrationAdvice
  deriving DecidableEq, Repr

/-! ### What the agent holds -/

/-- `CascadePath`. -/
structure CascadePath where
  upstreamUrl : String
  upstreamNodeId : String
  score : ℚ
  tier : ℤ
  reason : String
  selectedAt : ℕ
  deriving DecidableEq, Repr

/-- `LoopGuard`. -/
structure LoopGuard where
  nodeId : String
  knownUpstreamChain : List String
  maxDepth : ℤ
  deriving DecidableEq, Repr

/-- `LoopGuard::would_create_loop`. -/
def LoopGuard.wouldCreateLoop (guard : LoopGuard) (upstreamNodeId : String) (upstreamTier : ℤ) :
    Bool :=
  if upstreamTier ≥ 0 ∧ upstreamTier ≥ guard.maxDepth then true
  else if upstreamNodeId = guard.nodeId then true
  else if guard.knownUpstreamChain.contains guard.nodeId then true
  else false

/-- `ProbeResult`. -/
structure ProbeResult where
  connectRttMs : ℕ
  probedAt : ℕ
  reachable : Bool
  deriving DecidableEq, Repr

/-- `CascadeSelector`. -/
structure Selector where
  region : String
  isp : String
  hasIpv6 : Bool
  currentPath : Option CascadePath
  lastMeshResponse : Option MeshMapResponse
  loopGuard : LoopGuard
  lastSwitchAt : Option ℕ
  switchCount5min : List ℕ
  selfTier : ℤ
  probeResults : String → Option ProbeResult
  upstreamConsecutiveFails : ℤ
  upstreamLastOkAt : Option ℕ

/-- `CascadeSelector::new`. -/
def Selector.new (nodeId region isp : String) (hasIpv6 : Bool) : Selector where
  region := region
  isp := isp
  hasIpv6 := hasIpv6
  currentPath := none
  lastMeshResponse := none
  loopGuard := ⟨nodeId, [], 2⟩
  lastSwitchAt := none
  switchCount5min := []
  selfTier := 2
  probeResults _ := none
  upstreamConsecutiveFails := 0
  upstreamLastOkAt := none

/-- What a call finds around it: for which positions of the candidate list `try_read` gets the loop
guard and the probe results, whether log lines of the level `info` are written, and how the results
of floating-point operations are rounded. -/
structure Env where
  guard : ℕ → Bool
  probes : ℕ → Bool
  infoEnabled : Bool
  rd : ℚ → ℚ

/-- Both locks are free throughout, log lines are written, and floating-point numbers have 64
bits. -/
def Env.always : Env := ⟨fun _ ↦ true, fun _ ↦ true, true, Binary64.nearest⟩

namespace Selector

variable (s : Selector)

/-! ### Scoring -/

/-- `compute_local_score`. -/
def computeLocalScore (rd : ℚ → ℚ) (candidate : CandidateUpstream) : ℚ :=
  let score : ℚ := 1
  let score := if candidate.maxChildren > 0 then
    let childrenAvail := rd (1 - rd ((candidate.currentChildren : ℚ) / candidate.maxChildren))
    rd (score * rd (5 / 10 + rd (5 / 10 * childrenAvail))) else score
  let score := if candidate.bwRemainingMbps < 4 then rd (score * rd (7 / 10)) else score
  let score := if candidate.tier = 1 then rd (score * rd (11 / 10)) else score
  let score := if candidate.region = s.region ∧ candidate.isp = s.isp then
      rd (score * rd (115 / 100))
    else if candidate.region = s.region then rd (score * rd (105 / 100))
    else score
  if s.hasIpv6 = true ∧ candidate.hasIpv6 = true then rd (score * rd (105 / 100)) else score

/-- `get_probe_rtt_sync`: a probe of the last minute. -/
def getProbeRttSync (env : Bool) (now : ℕ) (nodeId : String) : Option ℕ :=
  if env then
    ((s.probeResults nodeId).filter fun p ↦ decide (now - p.probedAt < 60 * second)).map
      ProbeResult.connectRttMs
  else none

/-- The factor of the local score for a measured round trip, none when it is left alone. -/
def rttFactor (rtt : ℕ) : Option ℚ :=
  if rtt < 10 then some (12 / 10)
  else if rtt < 50 then some (11 / 10)
  else if rtt > 200 then some (7 / 10)
  else if rtt > 100 then some (85 / 100)
  else none

/-- The final score of a candidate: the hint of the controller and the corrected local score. -/
def finalScore (env : Env) (now position : ℕ) (c : CandidateUpstream) : ℚ :=
  let localScore := s.computeLocalScore env.rd c
  let factor := (s.getProbeRttSync (env.probes position) now c.nodeId).bind rttFactor
  let localScore := factor.elim localScore fun factor ↦ env.rd (localScore * env.rd factor)
  let hinted := env.rd (c.scoreHint * env.rd (7 / 10))
  let measured := env.rd (env.rd (localScore * 100) * env.rd (3 / 10))
  env.rd (env.rd (hinted + measured) / 100)

/-- The reason text of a path and its address. -/
def reasonAndUrl (c : CandidateUpstream) : String × String :=
  let reason := if c.region = s.region ∧ c.isp = s.isp then "同区同ISP"
    else if c.region = s.region then "同区"
    else "跨区"
  if s.hasIpv6 = true ∧ c.ipv6Url ≠ "" then (reason ++ "+IPv6", c.ipv6Url) else (reason, c.url)

/-- The entry that `select_from_candidates` pushes for a candidate it does not skip. -/
def candidatePath (env : Env) (now : ℕ) (entry : CandidateUpstream × ℕ) :
    CascadePath where
  upstreamUrl := (s.reasonAndUrl entry.1).2
  upstreamNodeId := entry.1.nodeId
  score := s.finalScore env now entry.2 entry.1
  tier := entry.1.tier
  reason := (s.reasonAndUrl entry.1).1
  selectedAt := now

/-- One turn of the loop of `select_from_candidates`. -/
def scoreCandidate (env : Env) (now : ℕ) (entry : CandidateUpstream × ℕ) :
    Option CascadePath :=
  if entry.1.allowCascade = false then none
  else if entry.1.url = "" then none
  else if env.guard entry.2 = true ∧
      s.loopGuard.wouldCreateLoop entry.1.nodeId entry.1.tier = true then none
  else some (s.candidatePath env now entry)

/-- The scored paths of `select_from_candidates`, in the order of the candidates. -/
def scoredPaths (env : Env) (now : ℕ) (candidates : List CandidateUpstream) :
    List CascadePath :=
  candidates.zipIdx.filterMap (s.scoreCandidate env now)

/-- `select_from_candidates`: the head of the paths sorted by descending score, none when there is
no path. -/
def selectFromCandidates (env : Env) (now : ℕ) (candidates : List CandidateUpstream) :
    Option CascadePath :=
  StableBest.best CascadePath.score (s.scoredPaths env now candidates)

/-! ### Switching -/

/-- `&path.upstream_node_id[..8.min(path.upstream_node_id.len())]`, none when it panics. -/
def shownId (nodeId : String) : Option Text :=
  sliceTo nodeId.toList (min 8 (byteLen nodeId.toList))

/-- `apply_path_switch`, none when its log line aborts the agent. -/
def applyPathSwitch (env : Env) (now : ℕ) (newPath : Option CascadePath) : Option Selector :=
  if env.infoEnabled = true ∧ newPath.any (fun path ↦ (shownId path.upstreamNodeId).isNone) = true
  then none
  else some { s with
    currentPath := newPath
    lastSwitchAt := some now
    switchCount5min := s.switchCount5min ++ [now] }

/-- `force_reselect`. -/
def forceReselect (env : Env) (now : ℕ) (resp : MeshMapResponse) : Option Selector :=
  s.applyPathSwitch env now (s.selectFromCandidates env now resp.candidateUpstreams)

/-- A signed 32-bit number read as an unsigned 64-bit one. -/
def asU64 (number : ℤ) : ℕ := (number % 2 ^ 64).toNat

/-- The improvement of the score that a response asks for, as a fraction. -/
def minImprovement (rd : ℚ → ℚ) (resp : MeshMapResponse) : ℚ :=
  (resp.policy.map fun p ↦ rd ((p.minScoreImprovement : ℚ) / 100)).getD (rd (15 / 100))

/-- The improvement of a score over another one, as a fraction. -/
def improvement (rd : ℚ → ℚ) (new cur : ℚ) : ℚ :=
  rd (rd (new - cur) / max cur (rd (1 / 100)))

/-- `check_hysteresis`: whether to switch, and the switch times it has pruned on the way. -/
def checkHysteresis (rd : ℚ → ℚ) (now : ℕ) (newPath : Option CascadePath)
    (resp : MeshMapResponse) : Bool × List ℕ :=
  match s.currentPath, newPath with
  | none, none => (false, s.switchCount5min)
  | none, some _ => (true, s.switchCount5min)
  | some _, none => (true, s.switchCount5min)
  | some cur, some new =>
    if cur.upstreamNodeId = new.upstreamNodeId then (false, s.switchCount5min)
    else
      let cooldownSec := (resp.policy.map MeshPolicy.switchCooldownSec).getD 30
      if s.lastSwitchAt.any fun last ↦ decide (now - last < asU64 cooldownSec * second) then
        (false, s.switchCount5min)
      else
        let maxSwitch := (resp.policy.map MeshPolicy.maxSwitchPer5min).getD 3
        let switchTimes := s.switchCount5min.filter fun t ↦ decide (now < t + 300 * second)
        if switchTimes.length ≥ asU64 maxSwitch then (false, switchTimes)
        else if improvement rd new.score cur.score < minImprovement rd resp then
          (false, switchTimes)
        else (true, switchTimes)

/-- The guard and the tier as a response sets them. -/
def withResponse (resp : MeshMapResponse) : Selector :=
  { s with
    selfTier := resp.selfTier
    loopGuard := { s.loopGuard with
      maxDepth := (resp.policy.map MeshPolicy.maxDepth).getD resp.selfTier } }

/-- The advice to switch at once because the upstream is offline. -/
def upstreamOffline (resp : MeshMapResponse) : Bool :=
  resp.migrationAdvice.any fun advice ↦
    advice.shouldSwitch && decide (advice.reason = "upstream_offline")

/-- `update_mesh_map`. -/
def updateMeshMap (env : Env) (now : ℕ) (resp : MeshMapResponse) : Option Selector :=
  let s := s.withResponse resp
  let switched := if upstreamOffline resp = true then s.forceReselect env now resp
    else
      let newPath := s.selectFromCandidates env now resp.candidateUpstreams
      let decision := s.checkHysteresis env.rd now newPath resp
      let s := { s with switchCount5min := decision.2 }
      if decision.1 = true then s.applyPathSwitch env now newPath else some s
  switched.map fun s ↦ { s with lastMeshResponse := some resp }

/-! ### Failures -/

/-- `emergency_switch`. -/
def emergencySwitch (env : Env) (now : ℕ) : Option Selector :=
  let switched := match s.lastMeshResponse with
    | some resp => s.forceReselect env now resp
    | none => some { s with currentPath := none }
  switched.map fun s ↦ { s with upstreamConsecutiveFails := 0 }

/-- `report_upstream_ok`. -/
def reportUpstreamOk (now : ℕ) : Selector :=
  { s with upstreamConsecutiveFails := 0, upstreamLastOkAt := some now }

/-- `report_upstream_fail`. -/
def reportUpstreamFail (env : Env) (now : ℕ) : Option Selector :=
  let s := { s with upstreamConsecutiveFails := s.upstreamConsecutiveFails + 1 }
  if s.upstreamConsecutiveFails ≥ 3 then s.emergencySwitch env now else some s

/-- What the probe of a candidate finds: its round trip in milliseconds and when it ended. -/
structure Ping where
  rtt : ℕ
  probedAt : ℕ

/-- The probing loop of `run_mesh_ping`. -/
def probeCandidates (pings : ℕ → Ping) (resp : MeshMapResponse) : Selector :=
  { s with probeResults := resp.candidateUpstreams.zipIdx.foldl (fun results entry ↦
      if entry.1.allowCascade = false ∨ entry.1.url = "" then results
      else Function.update results entry.1.nodeId
        (some ⟨(pings entry.2).rtt, (pings entry.2).probedAt,
          decide ((pings entry.2).rtt < 9999)⟩)) s.probeResults }

/-- The test of `run_mesh_ping` on the current upstream: a probe of the last 30 seconds that did not
reach it. -/
def foundUnreachable (now : ℕ) (upstreamId : String) : Bool :=
  (s.probeResults upstreamId).any fun probe ↦
    decide (now - probe.probedAt < 30 * second) && !probe.reachable

/-- `run_mesh_ping`. -/
def runMeshPing (pings : ℕ → Ping) (env : Env) (now : ℕ) : Option Selector :=
  match s.lastMeshResponse with
  | none => some s
  | some resp =>
    let s := s.probeCandidates pings resp
    match s.currentPath with
    | none => some s
    | some path =>
      if s.foundUnreachable now path.upstreamNodeId = true then s.emergencySwitch env now
      else some s

end Selector

/-! ### Which upstream an emergency switch leaves -/

/-- A candidate that `select_from_candidates` does not skip: the controller allows it, it has an
address, and the loop guard does not object. -/
def Selector.MayUse (s : Selector) (env : Env) (entry : CandidateUpstream × ℕ) : Prop :=
  entry.1.allowCascade = true ∧ entry.1.url ≠ "" ∧
    ¬ (env.guard entry.2 = true ∧
      s.loopGuard.wouldCreateLoop entry.1.nodeId entry.1.tier = true)

/-- A call has left an upstream: it returns, and the selector is on another candidate that the last
response allows, or on the origin. -/
def HasLeft (result : Option Selector) (upstreamId : String) : Prop :=
  ∃ s, result = some s ∧ ∀ path, s.currentPath = some path → path.upstreamNodeId ≠ upstreamId ∧
    ∃ resp, s.lastMeshResponse = some resp ∧ ∃ c ∈ resp.candidateUpstreams,
      c.allowCascade = true ∧ c.nodeId = path.upstreamNodeId ∧
        (path.upstreamUrl = c.url ∨ path.upstreamUrl = c.ipv6Url)

/-- The log line of a switch to a path aborts the agent: it is written, and the eighth byte of the
id ends inside a character. -/
def AbortsOn (env : Env) (path : CascadePath) : Prop :=
  env.infoEnabled = true ∧ Selector.shownId path.upstreamNodeId = none

/-- Each usable candidate with a bad path is outranked by a usable candidate with a path that is not
bad: an earlier one with at least its score or a later one with a higher score. -/
def Selector.BadOutranked (s : Selector) (env : Env) (now : ℕ)
    (candidates : List CandidateUpstream) (bad : CascadePath → Prop) : Prop :=
  ∀ front entry back, candidates.zipIdx = front ++ entry :: back → s.MayUse env entry →
    bad (s.candidatePath env now entry) →
      (∃ other ∈ front, s.MayUse env other ∧ ¬ bad (s.candidatePath env now other) ∧
        s.finalScore env now entry.2 entry.1 ≤ s.finalScore env now other.2 other.1) ∨
      ∃ other ∈ back, s.MayUse env other ∧ ¬ bad (s.candidatePath env now other) ∧
        s.finalScore env now entry.2 entry.1 < s.finalScore env now other.2 other.1

/-- Each usable candidate of the upstream, or with an id that aborts the agent, is outranked by a
usable candidate of another node whose id does not. -/
def Selector.Outranked (s : Selector) (env : Env) (now : ℕ)
    (candidates : List CandidateUpstream) (upstreamId : String) : Prop :=
  s.BadOutranked env now candidates fun path ↦
    path.upstreamNodeId = upstreamId ∨ AbortsOn env path

/-- The loop pushes a path exactly for the candidates that may be used. -/
theorem scoreCandidate_eq_some_iff {s : Selector} {env : Env} {now : ℕ}
    {entry : CandidateUpstream × ℕ} {path : CascadePath} :
    s.scoreCandidate env now entry = some path ↔
      s.MayUse env entry ∧ s.candidatePath env now entry = path := by
  unfold Selector.scoreCandidate Selector.MayUse
  by_cases hallow : entry.1.allowCascade = false
  · simp [hallow]
  by_cases hurl : entry.1.url = ""
  · simp [hurl]
  by_cases hloop : env.guard entry.2 = true ∧
      s.loopGuard.wouldCreateLoop entry.1.nodeId entry.1.tier = true
  · simp [hloop]
  · rw [if_neg hallow, if_neg hurl, if_neg hloop, Option.some.injEq]
    rw [Bool.not_eq_false] at hallow
    exact ⟨fun h ↦ ⟨⟨hallow, hurl, hloop⟩, h⟩, And.right⟩

/-- The address of a path is one of its candidate's two. -/
theorem url_candidatePath (s : Selector) (env : Env) (now : ℕ)
    (entry : CandidateUpstream × ℕ) :
    (s.candidatePath env now entry).upstreamUrl = entry.1.url ∨
      (s.candidatePath env now entry).upstreamUrl = entry.1.ipv6Url := by
  change (s.reasonAndUrl entry.1).2 = entry.1.url ∨ (s.reasonAndUrl entry.1).2 = entry.1.ipv6Url
  unfold Selector.reasonAndUrl
  by_cases hipv6 : s.hasIpv6 = true ∧ entry.1.ipv6Url ≠ ""
  · exact Or.inr (by rw [if_pos hipv6])
  · exact Or.inl (by rw [if_neg hipv6])

/-- A scored path leads to a candidate that is allowed. -/
theorem candidate_of_scoredPath {s : Selector} {env : Env} {now : ℕ}
    {candidates : List CandidateUpstream} {path : CascadePath}
    (hpath : path ∈ s.scoredPaths env now candidates) :
    ∃ c ∈ candidates, c.allowCascade = true ∧ c.nodeId = path.upstreamNodeId ∧
      (path.upstreamUrl = c.url ∨ path.upstreamUrl = c.ipv6Url) := by
  obtain ⟨entry, hentry, hscore⟩ := List.mem_filterMap.mp hpath
  obtain ⟨⟨hallow, _⟩, rfl⟩ := scoreCandidate_eq_some_iff.mp hscore
  have hmem : entry.1 ∈ candidates :=
    List.mem_of_getElem? (List.mem_zipIdx_iff_getElem?.mp hentry)
  exact ⟨entry.1, hmem, hallow, rfl, url_candidatePath s env now entry⟩

/-- The selected path avoids a set of paths exactly when the candidates with these paths are
outranked. -/
theorem selectFromCandidates_avoids (s : Selector) (env : Env) (now : ℕ)
    (candidates : List CandidateUpstream) (bad : CascadePath → Prop) :
    (∀ path, s.selectFromCandidates env now candidates = some path → ¬ bad path) ↔
      s.BadOutranked env now candidates bad := by
  unfold Selector.selectFromCandidates
  refine Iff.trans (StableBest.best_avoids_iff CascadePath.score) ?_
  unfold Selector.scoredPaths
  constructor
  · intro houtranked front entry back hsplit huse hbad
    have hpath := scoreCandidate_eq_some_iff.mpr
      ⟨huse, Eq.refl (s.candidatePath env now entry)⟩
    have hpaths : candidates.zipIdx.filterMap (s.scoreCandidate env now) =
        front.filterMap (s.scoreCandidate env now) ++ s.candidatePath env now entry ::
          back.filterMap (s.scoreCandidate env now) := by
      rw [hsplit, List.filterMap_append, List.filterMap_cons_some hpath]
    rcases houtranked _ _ _ hpaths hbad with ⟨other, hmem, hgood, hle⟩ | ⟨other, hmem, hgood, hlt⟩
    · obtain ⟨rival, hrival, hscore⟩ := List.mem_filterMap.mp hmem
      obtain ⟨hrivalUse, rfl⟩ := scoreCandidate_eq_some_iff.mp hscore
      exact Or.inl ⟨rival, hrival, hrivalUse, hgood, hle⟩
    · obtain ⟨rival, hrival, hscore⟩ := List.mem_filterMap.mp hmem
      obtain ⟨hrivalUse, rfl⟩ := scoreCandidate_eq_some_iff.mp hscore
      exact Or.inr ⟨rival, hrival, hrivalUse, hgood, hlt⟩
  · intro houtranked front path back hsplit hbad
    obtain ⟨front', rest, hzip, rfl, hrest⟩ := List.filterMap_eq_append_iff.mp hsplit
    obtain ⟨skipped, entry, back', rfl, hskipped, hpath, rfl⟩ := List.filterMap_eq_cons_iff.mp hrest
    obtain ⟨huse, rfl⟩ := scoreCandidate_eq_some_iff.mp hpath
    rw [← List.append_assoc] at hzip
    rcases houtranked _ _ _ hzip huse hbad with ⟨rival, hmem, hrivalUse, hgood, hle⟩ |
      ⟨rival, hmem, hrivalUse, hgood, hlt⟩
    · have hscore := scoreCandidate_eq_some_iff.mpr
        ⟨hrivalUse, Eq.refl (s.candidatePath env now rival)⟩
      rcases List.mem_append.mp hmem with hmem | hmem
      · exact Or.inl ⟨_, List.mem_filterMap.mpr ⟨rival, hmem, hscore⟩, hgood, hle⟩
      · rw [hskipped rival hmem] at hscore
        exact nomatch hscore
    · have hscore := scoreCandidate_eq_some_iff.mpr
        ⟨hrivalUse, Eq.refl (s.candidatePath env now rival)⟩
      exact Or.inr ⟨_, List.mem_filterMap.mpr ⟨rival, hmem, hscore⟩, hgood, hlt⟩

/-- A switch returns exactly when its log line does not abort the agent. -/
theorem applyPathSwitch_eq_some_iff {s s' : Selector} {env : Env} {now : ℕ}
    {newPath : Option CascadePath} :
    s.applyPathSwitch env now newPath = some s' ↔
      (∀ path, newPath = some path → ¬ AbortsOn env path) ∧
        s' = { s with
          currentPath := newPath
          lastSwitchAt := some now
          switchCount5min := s.switchCount5min ++ [now] } := by
  have haborts : (env.infoEnabled = true ∧
      newPath.any (fun path ↦ (Selector.shownId path.upstreamNodeId).isNone) = true) ↔
        ¬ ∀ path, newPath = some path → ¬ AbortsOn env path := by
    cases newPath with
    | none => simp
    | some path => simp [AbortsOn]
  unfold Selector.applyPathSwitch
  split_ifs with hlogged
  · exact iff_of_false (by simp) fun h ↦ haborts.mp hlogged h.1
  · rw [Option.some.injEq, and_iff_right (not_not.mp (haborts.not.mp hlogged)), eq_comm]

/-- What an emergency switch does when it returns: it gives up the path when there is no last
response, and else switches to the path selected from it. -/
theorem emergencySwitch_eq_some_iff {s s' : Selector} {env : Env} {now : ℕ} :
    s.emergencySwitch env now = some s' ↔
      (s.lastMeshResponse = none ∧
        s' = { s with currentPath := none, upstreamConsecutiveFails := 0 }) ∨
      ∃ resp, s.lastMeshResponse = some resp ∧
        (∀ path, s.selectFromCandidates env now resp.candidateUpstreams = some path →
          ¬ AbortsOn env path) ∧
        s' = { s with
          currentPath := s.selectFromCandidates env now resp.candidateUpstreams
          lastSwitchAt := some now
          switchCount5min := s.switchCount5min ++ [now]
          upstreamConsecutiveFails := 0 } := by
  unfold Selector.emergencySwitch
  cases hlast : s.lastMeshResponse with
  | none => simp [eq_comm]
  | some resp =>
    simp only [Option.map_eq_some_iff, Selector.forceReselect, applyPathSwitch_eq_some_iff,
      reduceCtorEq, false_and, false_or, Option.some.injEq, exists_eq_left']
    constructor
    · rintro ⟨_, ⟨hlogged, rfl⟩, rfl⟩
      exact ⟨hlogged, by simp [hlast]⟩
    · rintro ⟨hlogged, rfl⟩
      exact ⟨_, ⟨hlogged, rfl⟩, by simp [hlast]⟩

/-- An emergency switch leaves an upstream exactly when there is no last response or the upstream is
outranked among its candidates. -/
theorem emergencySwitch_leaves_iff (s : Selector) (env : Env) (now : ℕ)
    (upstreamId : String) :
    HasLeft (s.emergencySwitch env now) upstreamId ↔
      ∀ resp, s.lastMeshResponse = some resp →
        s.Outranked env now resp.candidateUpstreams upstreamId := by
  have havoids := fun resp : MeshMapResponse ↦
    selectFromCandidates_avoids s env now resp.candidateUpstreams fun path ↦
      path.upstreamNodeId = upstreamId ∨ AbortsOn env path
  constructor
  · rintro ⟨s', hreturns, hleft⟩ resp hresp
    rcases emergencySwitch_eq_some_iff.mp hreturns with ⟨hnone, -⟩ | ⟨last, hlast, hlogged, rfl⟩
    · exact nomatch hnone.symm.trans hresp
    · obtain rfl := Option.some.inj (hlast.symm.trans hresp)
      refine (havoids last).mp fun path hselected hbad ↦ ?_
      rcases hbad with hsame | haborts
      · exact (hleft path hselected).1 hsame
      · exact hlogged path hselected haborts
  · intro houtranked
    cases hresp : s.lastMeshResponse with
    | none =>
      exact ⟨_, emergencySwitch_eq_some_iff.mpr (Or.inl ⟨hresp, rfl⟩), fun path hpath ↦
        nomatch hpath⟩
    | some resp =>
      have hselected := (havoids resp).mpr (houtranked resp hresp)
      have hlogged : ∀ path,
          s.selectFromCandidates env now resp.candidateUpstreams = some path →
            ¬ AbortsOn env path := fun path hpath haborts ↦ hselected path hpath (Or.inr haborts)
      refine ⟨_, emergencySwitch_eq_some_iff.mpr (Or.inr ⟨resp, hresp, hlogged, rfl⟩),
        fun path hpath ↦ ⟨fun hsame ↦ hselected path hpath (Or.inl hsame), resp, hresp, ?_⟩⟩
      exact candidate_of_scoredPath (StableBest.mem_of_best _ hpath)

/-- A round of probes that finds the current upstream unreachable ends in an emergency switch. -/
theorem runMeshPing_of_unreachable {s : Selector} {pings : ℕ → Selector.Ping}
    {env : Env} {now : ℕ} {resp : MeshMapResponse} {path : CascadePath}
    (hresp : s.lastMeshResponse = some resp) (hpath : s.currentPath = some path)
    (hfound : (s.probeCandidates pings resp).foundUnreachable now path.upstreamNodeId = true) :
    s.runMeshPing pings env now =
      (s.probeCandidates pings resp).emergencySwitch env now := by
  have hcurrent : (s.probeCandidates pings resp).currentPath = some path := hpath
  unfold Selector.runMeshPing
  rw [hresp]
  dsimp only
  rw [hcurrent]
  dsimp only
  rw [if_pos hfound]

/-- The third failure in a row ends in an emergency switch. -/
theorem reportUpstreamFail_of_third {s : Selector} {env : Env} {now : ℕ}
    (hfails : 2 ≤ s.upstreamConsecutiveFails) :
    s.reportUpstreamFail env now =
      Selector.emergencySwitch
        { s with upstreamConsecutiveFails := s.upstreamConsecutiveFails + 1 } env now := by
  have hthird : s.upstreamConsecutiveFails + 1 ≥ 3 := by omega
  unfold Selector.reportUpstreamFail
  dsimp only
  rw [if_pos hthird]

/-- When the current upstream is found unreachable, and when it fails for the third time in a row,
the selector leaves it exactly when it is outranked among the candidates of the last response.
Assumes: the selector has a current path. -/
theorem emergency_leaves_iff (s : Selector) (path : CascadePath) (env : Env) (now : ℕ)
    (hpath : s.currentPath = some path) :
    (∀ pings resp, s.lastMeshResponse = some resp →
      (s.probeCandidates pings resp).foundUnreachable now path.upstreamNodeId = true →
        (HasLeft (s.runMeshPing pings env now) path.upstreamNodeId ↔
          (s.probeCandidates pings resp).Outranked env now resp.candidateUpstreams
            path.upstreamNodeId)) ∧
    (2 ≤ s.upstreamConsecutiveFails →
      (HasLeft (s.reportUpstreamFail env now) path.upstreamNodeId ↔
        ∀ resp, s.lastMeshResponse = some resp →
          s.Outranked env now resp.candidateUpstreams path.upstreamNodeId)) := by
  constructor
  · intro pings resp hresp hfound
    have hlast : (s.probeCandidates pings resp).lastMeshResponse = some resp := hresp
    rw [runMeshPing_of_unreachable hresp hpath hfound, emergencySwitch_leaves_iff, hlast]
    constructor
    · intro houtranked
      exact houtranked resp rfl
    · rintro houtranked resp' ⟨⟩
      exact houtranked
  · intro hfails
    rw [reportUpstreamFail_of_third hfails]
    exact emergencySwitch_leaves_iff _ env now path.upstreamNodeId

/-! ### A lone upstream -/

/-- A candidate in the selector's region. -/
def loneCandidate : CandidateUpstream where
  nodeId := "edge-1"
  url := "http://10.0.0.1:9090/cascade/test.flv"
  region := "华东"
  isp := "电信"
  tier := 1
  scoreHint := 90
  maxChildren := 8
  currentChildren := 0
  bwRemainingMbps := 30
  allowCascade := true
  hasIpv6 := false
  ipv6Url := ""

/-- A selector without upstreams. -/
def newSelector : Selector := .new "test-node" "华东" "电信" false

/-- A selector that knows the one candidate and has seen it fail twice. -/
def loneSelector : Selector :=
  let onPath := newSelector.updateMeshMap .always 0
    ⟨2, [loneCandidate], some ⟨2, 30, 15, 3⟩, none⟩
  let failedOnce := onPath.bind fun s ↦ s.reportUpstreamFail .always second
  (failedOnce.bind fun s ↦ s.reportUpstreamFail .always (2 * second)).getD newSelector

/-- A witness of `emergency_leaves_iff`. -/
theorem emergency_leaves_iff_witness :
    ∃ path, loneSelector.currentPath = some path ∧
      (HasLeft (loneSelector.reportUpstreamFail .always (3 * second)) path.upstreamNodeId ↔
        ∀ resp, loneSelector.lastMeshResponse = some resp →
          loneSelector.Outranked .always (3 * second) resp.candidateUpstreams
            path.upstreamNodeId) :=
  have hpath : (loneSelector.currentPath).isSome = true := by decide +kernel
  ⟨_, (Option.some_get hpath).symm,
    (emergency_leaves_iff loneSelector _ .always (3 * second) (Option.some_get hpath).symm).2
      (by decide +kernel)⟩

/-- A lone upstream is selected again, after its third failure in a row as after a probe that did
not reach it. -/
theorem emergency_counterexample :
    loneSelector.currentPath.map CascadePath.upstreamNodeId = some "edge-1" ∧
      loneSelector.upstreamConsecutiveFails = 2 ∧
      ¬ HasLeft (loneSelector.reportUpstreamFail .always (3 * second)) "edge-1" ∧
      (loneSelector.lastMeshResponse.all fun resp ↦
        (loneSelector.probeCandidates (fun _ ↦ ⟨9999, 3 * second⟩) resp).foundUnreachable
          (3 * second) "edge-1") = true ∧
      ¬ HasLeft (loneSelector.runMeshPing (fun _ ↦ ⟨9999, 3 * second⟩) .always (3 * second))
        "edge-1" := by
  have hstays : ∀ result : Option Selector,
      (result.bind Selector.currentPath).map CascadePath.upstreamNodeId = some "edge-1" →
        ¬ HasLeft result "edge-1" := by
    rintro _ hresult ⟨s, rfl, hleft⟩
    obtain ⟨path, hpath, hid⟩ := Option.map_eq_some_iff.mp hresult
    exact (hleft path hpath).1 hid
  refine ⟨by decide +kernel, by decide +kernel, hstays _ (by decide +kernel), by decide +kernel,
    hstays _ (by decide +kernel)⟩

/-- The log line of a switch to a node with a name of four characters aborts the agent. -/
example : newSelector.updateMeshMap .always 0
    ⟨2, [{ loneCandidate with nodeId := "北京节点" }], none, none⟩ |>.isNone := by
  decide +kernel

/-- Two final scores are equal in exact arithmetic, and differ when the operations are rounded. -/
example :
    let near : Selector := { newSelector with
      region := "r", probeResults := fun id ↦ some ⟨if id = "v" then 5 else 9999, 0, true⟩ }
    let u : CandidateUpstream := { loneCandidate with
      nodeId := "u", scoreHint := 36, maxChildren := 12, currentChildren := 4 }
    let v : CandidateUpstream := { loneCandidate with
      nodeId := "v", scoreHint := 14, maxChildren := 8, currentChildren := 2 }
    near.finalScore { Env.always with rd := id } 0 0 u =
        near.finalScore { Env.always with rd := id } 0 1 v ∧
      near.finalScore .always 0 0 u > near.finalScore .always 0 1 v := by
  decide +kernel

end LiveCDN.Agent.CascadeSelector
