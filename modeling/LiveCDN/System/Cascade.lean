import LiveCDN.Agent.UpstreamPolicy
import LiveCDN.Controller.Mesh
import LiveCDN.Library.GuardedRun

/-!
# The cascade as a distributed system

Any number of agents and one controller. An agent runs with the cascade flags of its configuration
and a `CascadeSelector`; the controller keeps the nodes of its store, answers a heartbeat with
`buildMeshMapResponse`, and its replies are on their way until the agent handles them, in order. A
restart gives an agent a new selector and new flags, and the replies to the process that went down
are lost.

The controller offers only nodes of a lower tier, and computes tiers from the flags it has stored. A
repeated registration does not store the flags, so they can be those of an earlier process.
`TierCurrent` is the condition on a heartbeat that the stored tier is not above the tier of the
flags the agent runs with. `Layered` is the invariant of the steps that meet it: an agent that has
heard of an upstream is of tier 2, for itself and for the controller, and such agents are ranked so
that the rank increases from an agent to an upstream that has itself heard of one. So no state
they reach has a cycle (`cascade_acyclic`), and `cascade_counterexample` is a cycle of two agents
in a run without the condition.

Scope. The clock moves between steps. A registration and a heartbeat carry arbitrary numbers beside
the flags and the statistics of the selector. The controller rounds to binary64.
-/

set_option autoImplicit false
set_option relaxedAutoImplicit false

namespace LiveCDN.System.Cascade

open Library.GuardedRun Library.Ranking Controller.NodeStore
open Library.Binary64 (nearest)
open Agent.CascadeSelector (Selector Env)

/-! ### Replies -/

/-- A candidate as the agent reads it. -/
def receivedCandidate (c : Controller.Mesh.CandidateUpstream) :
    Agent.CascadeSelector.CandidateUpstream where
  nodeId := c.nodeID
  url := c.url
  region := c.region
  isp := c.isp
  tier := c.tier
  scoreHint := c.scoreHint
  maxChildren := c.maxChildren
  currentChildren := c.currentChildren
  bwRemainingMbps := c.bwRemainingMbps
  allowCascade := c.allowCascade
  hasIpv6 := c.hasIPv6
  ipv6Url := c.ipv6URL

/-- `DefaultMeshPolicy`, the fields the selector reads. -/
def defaultMeshPolicy : Agent.CascadeSelector.MeshPolicy := ⟨2, 30, 15, 3⟩

/-- A reply as the agent reads it. -/
def receivedResponse (response : Controller.Mesh.MeshMapResponse) :
    Agent.CascadeSelector.MeshMapResponse where
  selfTier := response.selfTier
  candidateUpstreams := response.candidateUpstreams.map receivedCandidate
  policy := some defaultMeshPolicy
  migrationAdvice := response.migrationAdvice.map fun advice ↦ ⟨advice.shouldSwitch, advice.reason⟩

/-! ### The system -/

/-- The part of an agent's configuration that the cascade depends on. -/
structure Config where
  region : String
  isp : String
  hasIpv6 : Bool
  cascadeEnabled : Bool
  cascadeUpstream : Bool

/-- The tier of the flags an agent runs with. -/
def Config.tier (config : Config) : ℕ :=
  if config.cascadeEnabled = true ∧ config.cascadeUpstream = false then 1 else 2

theorem Config.tier_le (config : Config) : config.tier ≤ 2 := by
  unfold Config.tier
  split_ifs
  · exact Nat.le_succ 1
  · exact le_refl 2

/-- A running agent, with the replies that are on their way to it. -/
structure Process where
  config : Config
  selector : Selector
  inbox : List Agent.CascadeSelector.MeshMapResponse

/-- The controller and the agents. -/
structure Network where
  store : MemoryStore
  now : ℕ
  agents : String → Option Process

/-- No agent runs and no node is stored. -/
def Network.start : Network := ⟨newMemoryStore, 0, fun _ ↦ none⟩

/-- `register_with_controller`: a registration carries the flags of the configuration. -/
def registration (id : String) (agent : Process) (req : RegisterRequest) : RegisterRequest :=
  { req with
    nodeID := id
    cascadeEnabled := agent.config.cascadeEnabled
    cascadeUpstream := agent.config.cascadeUpstream }

/-- A heartbeat carries the statistics of the selector (`cascade_stats`). -/
def heartbeat (id : String) (agent : Process) (req : HeartbeatRequest) : HeartbeatRequest :=
  { req with
    nodeID := id
    cascadeDepth := if agent.selector.currentPath.isSome then agent.selector.selfTier - 1 else 0
    currentUpstream := (agent.selector.currentPath.map fun path ↦ path.upstreamNodeId).getD "" }

/-- A step of the system. -/
inductive Action
  | start (id : String) (config : Config)
  | register (id : String) (req : RegisterRequest)
  | heartbeat (id : String) (req : HeartbeatRequest) (outcome : Controller.Mesh.MeshOutcome)
  | deliver (id : String) (env : Env)
  | removeNode (id : String)
  | removeStaleNodes (timeout : ℕ)
  | emergency (id : String) (env : Env)
  | tick (elapsed : ℕ)

/-- The network with another state of one agent. -/
def Network.withAgent (net : Network) (id : String) (agent : Process) : Network :=
  { net with agents := Function.update net.agents id (some agent) }

/-- `handleHeartbeat`: the statistics are stored and the reply is sent. -/
def handleHeartbeat (net : Network) (id : String) (agent : Process) (req : HeartbeatRequest)
    (outcome : Controller.Mesh.MeshOutcome) : Network :=
  match net.store.updateHeartbeat net.now (heartbeat id agent req) with
  | .error _ => net
  | .ok store =>
    match Controller.Mesh.buildMeshMapResponse nearest store outcome net.now id with
    | none => { net with store := store }
    | some response => { net with store := store }.withAgent id
        { agent with inbox := agent.inbox ++ [receivedResponse response] }

/-- The network after a call on the selector of an agent: the process is down when the call aborts
it. -/
def Network.afterCall (net : Network) (id : String) (agent : Process)
    (result : Option Selector) : Network :=
  { net with
    agents := Function.update net.agents id
      (result.map fun selector ↦ { agent with selector := selector }) }

/-- The agent handles the first reply of its inbox. -/
def handleReply (net : Network) (id : String) (agent : Process) (env : Env) : Network :=
  match agent.inbox with
  | [] => net
  | resp :: rest => net.afterCall id { agent with inbox := rest }
      (agent.selector.updateMeshMap env net.now resp)

/-- The network after a step. A step of an agent that is not running changes nothing. -/
def step (net : Network) : Action → Network
  | .start id config => net.withAgent id
      ⟨config, Selector.new id config.region config.isp config.hasIpv6, []⟩
  | .register id req => (net.agents id).elim net fun agent ↦
      { net with store := net.store.registerNode net.now (registration id agent req) }
  | .heartbeat id req outcome => (net.agents id).elim net fun agent ↦
      handleHeartbeat net id agent req outcome
  | .deliver id env => (net.agents id).elim net fun agent ↦ handleReply net id agent env
  | .removeNode id => { net with store := (net.store.removeNode id).1 }
  | .removeStaleNodes timeout =>
    { net with store := (net.store.removeStaleNodes net.now timeout).1 }
  | .emergency id env => (net.agents id).elim net fun agent ↦
      net.afterCall id agent (agent.selector.emergencySwitch env net.now)
  | .tick elapsed => { net with now := net.now + elapsed }

/-- An agent currently pulls from a node. -/
def Pulls (net : Network) (id upstreamID : String) : Prop :=
  ∃ agent path, net.agents id = some agent ∧ agent.selector.currentPath = some path ∧
    path.upstreamNodeId = upstreamID

/-- The condition on a step: when a heartbeat is answered, the tier of the stored flags is not above
the tier of the flags the agent runs with. -/
def TierCurrent (net : Network) : Action → Prop
  | .heartbeat id _ _ => ∀ agent ∈ net.agents id, ∀ node ∈ net.store.getNode id,
      Controller.Mesh.computeTier node ≤ agent.config.tier
  | _ => True

instance (net : Network) : ∀ action, Decidable (TierCurrent net action)
  | .heartbeat id _ _ => inferInstanceAs (Decidable (∀ agent ∈ net.agents id,
      ∀ node ∈ net.store.getNode id, Controller.Mesh.computeTier node ≤ agent.config.tier))
  | .start _ _ | .register _ _ | .deliver _ _ | .removeNode _ | .removeStaleNodes _
  | .emergency _ _ | .tick _ => inferInstanceAs (Decidable True)

/-! ### The upstreams an agent has heard of -/

/-- A response offers a node. -/
def Offers (resp : Agent.CascadeSelector.MeshMapResponse) (id : String) : Prop :=
  ∃ c ∈ resp.candidateUpstreams, c.nodeId = id

/-- A node an agent pulls from, could switch to, or is about to hear of. -/
def Mentions (agent : Process) (id : String) : Prop :=
  (∃ path, agent.selector.currentPath = some path ∧ path.upstreamNodeId = id) ∨
    (∃ resp, agent.selector.lastMeshResponse = some resp ∧ Offers resp id) ∨
    ∃ resp ∈ agent.inbox, Offers resp id

theorem mentions_of_pulls {net : Network} {id upstreamID : String}
    (hpulls : Pulls net id upstreamID) :
    ∃ agent, net.agents id = some agent ∧ Mentions agent upstreamID := by
  obtain ⟨agent, path, hagent, hpath, hid⟩ := hpulls
  exact ⟨agent, hagent, Or.inl ⟨path, hpath, hid⟩⟩

/-- A selected path leads to a node the response offers. -/
theorem offers_of_selected {s : Selector} {env : Env} {now : ℕ}
    {resp : Agent.CascadeSelector.MeshMapResponse} {path : Agent.CascadeSelector.CascadePath}
    (hselected : s.selectFromCandidates env now resp.candidateUpstreams = some path) :
    Offers resp path.upstreamNodeId := by
  obtain ⟨c, hc, _, _, hid, _⟩ := Agent.UpstreamPolicy.offered_of_selected hselected
  exact ⟨c, hc, hid⟩

/-- Handling a reply makes an agent forget nodes and hear of none. Assumes: the call returns. -/
theorem mentions_updateMeshMap {agent : Process} {env : Env} {now : ℕ}
    {resp : Agent.CascadeSelector.MeshMapResponse}
    {rest : List Agent.CascadeSelector.MeshMapResponse} {selector : Selector} {id : String}
    (hinbox : agent.inbox = resp :: rest)
    (hreturns : agent.selector.updateMeshMap env now resp = some selector)
    (hmentions : Mentions { agent with selector := selector, inbox := rest } id) :
    Mentions agent id := by
  have hhead : Offers resp id → Mentions agent id := fun h ↦
    Or.inr (Or.inr ⟨resp, hinbox ▸ List.mem_cons_self, h⟩)
  rcases hmentions with ⟨path, hpath, hid⟩ | ⟨last, hlast, hoffers⟩ | ⟨other, hother, hoffers⟩
  · change selector.currentPath = some path at hpath
    rw [Agent.UpstreamPolicy.currentPath_updateMeshMap hreturns] at hpath
    split_ifs at hpath
    · exact hhead (hid ▸ offers_of_selected hpath)
    · exact Or.inl ⟨path, hpath, hid⟩
  · change selector.lastMeshResponse = some last at hlast
    rw [Agent.UpstreamPolicy.lastMeshResponse_updateMeshMap hreturns] at hlast
    obtain rfl := Option.some.inj hlast
    exact hhead hoffers
  · exact Or.inr (Or.inr ⟨other, hinbox ▸ List.mem_cons_of_mem _ hother, hoffers⟩)

/-- An emergency switch makes an agent forget nodes and hear of none. Assumes: the call returns. -/
theorem mentions_emergencySwitch {agent : Process} {env : Env} {now : ℕ} {selector : Selector}
    {id : String} (hreturns : agent.selector.emergencySwitch env now = some selector)
    (hmentions : Mentions { agent with selector := selector } id) : Mentions agent id := by
  rcases Agent.CascadeSelector.emergencySwitch_eq_some_iff.mp hreturns with
    ⟨-, rfl⟩ | ⟨resp, hresp, -, rfl⟩
  · rcases hmentions with ⟨path, hpath, -⟩ | hlast | hinbox
    · cases hpath
    · exact Or.inr (Or.inl hlast)
    · exact Or.inr (Or.inr hinbox)
  · rcases hmentions with ⟨path, hpath, hid⟩ | hlast | hinbox
    · exact Or.inr (Or.inl ⟨resp, hresp, hid ▸ offers_of_selected hpath⟩)
    · exact Or.inr (Or.inl hlast)
    · exact Or.inr (Or.inr hinbox)

/-- A running agent mentions a node. -/
def HasHeardOf (net : Network) (id upstreamID : String) : Prop :=
  ∃ agent, net.agents id = some agent ∧ Mentions agent upstreamID

/-- What the agents have heard of when one of them changes. -/
theorem hasHeardOf_withAgent_iff {net : Network} {id : String} {agent : Process}
    {a upstreamID : String} :
    HasHeardOf (net.withAgent id agent) a upstreamID ↔
      if a = id then Mentions agent upstreamID else HasHeardOf net a upstreamID := by
  unfold HasHeardOf Network.withAgent
  by_cases ha : a = id
  · subst ha
    simp
  · simp [ha]

/-! ### Tiers -/

/-- A node is of tier 1 or 2. -/
theorem computeTier_eq_or (node : NodeInfo) :
    Controller.Mesh.computeTier node = 1 ∨ Controller.Mesh.computeTier node = 2 := by
  unfold Controller.Mesh.computeTier
  by_cases hrelay : node.cascadeEnabled = true ∧ node.cascadeUpstream = false
  · exact Or.inl (if_pos hrelay)
  · exact Or.inr (if_neg hrelay)

/-- A reply that offers a node goes to a node of tier 2 and offers nodes of tier 1. -/
theorem tiers_of_offered {store : MemoryStore} {outcome : Controller.Mesh.MeshOutcome} {now : ℕ}
    {id upstreamID : String} {response : Controller.Mesh.MeshMapResponse}
    (hresponse : Controller.Mesh.buildMeshMapResponse nearest store outcome now id =
      some response)
    (hoffers : Offers (receivedResponse response) upstreamID) :
    (∃ node, store.getNode id = some node ∧ Controller.Mesh.computeTier node = 2) ∧
      ∃ node, store.getNode upstreamID = some node ∧ Controller.Mesh.computeTier node = 1 := by
  obtain ⟨received, hreceived, hid⟩ := hoffers
  obtain ⟨candidate, hcandidate, rfl⟩ := List.mem_map.mp hreceived
  have hlower := Controller.Mesh.tierOf_lt_of_mayPullFrom
    ⟨outcome, now, response, hresponse, candidate, hcandidate, hid⟩
  obtain ⟨requester, hrequester⟩ : ∃ requester, store.getNode id = some requester := by
    unfold Controller.Mesh.buildMeshMapResponse at hresponse
    cases hfound : store.getNode id with
    | none =>
      rw [hfound] at hresponse
      cases hresponse
    | some requester => exact ⟨requester, rfl⟩
  unfold Controller.Mesh.tierOf at hlower
  rw [hrequester, Option.elim_some] at hlower
  have hrequesterTier := computeTier_eq_or requester
  cases hupstream : store.getNode upstreamID with
  | none =>
    rw [hupstream, Option.elim_none] at hlower
    omega
  | some upstream =>
    rw [hupstream, Option.elim_some] at hlower
    have hupstreamTier := computeTier_eq_or upstream
    exact ⟨⟨requester, hrequester, by omega⟩, upstream, rfl, by omega⟩

/-! ### Layers -/

/-- An agent that has heard of an upstream is of tier 2, for itself and in the store, and the rank
increases from such an agent to an upstream that is one too. -/
structure Layered (net : Network) (rank : String → ℕ) (bound : ℕ) : Prop where
  agentTier : ∀ a b agent, HasHeardOf net a b → net.agents a = some agent → agent.config.tier = 2
  nodeTier : ∀ a b node, HasHeardOf net a b → net.store.getNode a = some node →
    Controller.Mesh.computeTier node = 2
  ranked : ∀ a b c, HasHeardOf net a b → HasHeardOf net b c → rank a < rank b
  bounded : ∀ a b, HasHeardOf net a b → rank a < bound

/-- Some ranks make the network layered. -/
def IsLayered (net : Network) : Prop := ∃ rank bound, Layered net rank bound

/-- No agent is on a cycle of upstreams when the network is layered. -/
theorem acyclic_of_isLayered {net : Network} (hlayered : IsLayered net) : Acyclic (Pulls net) := by
  obtain ⟨rank, bound, hlayered⟩ := hlayered
  refine acyclic_of_rank_inner rank fun a b c hab hbc ↦ ?_
  exact hlayered.ranked a b c (mentions_of_pulls hab) (mentions_of_pulls hbc)

/-- A step in which no agent hears of a node keeps the network layered. Assumes: a running agent
that has heard of a node has its flags from before, and a node whose agent has heard of a node keeps
its tier or is stored with the flags of the agent. -/
theorem IsLayered.mono {net net' : Network} (hlayered : IsLayered net)
    (hheard : ∀ a b, HasHeardOf net' a b → HasHeardOf net a b)
    (hconfig : ∀ a b agent', HasHeardOf net' a b → net'.agents a = some agent' →
      ∃ agent, net.agents a = some agent ∧ agent.config = agent'.config)
    (hstore : ∀ a agent' node', net'.agents a = some agent' → net'.store.getNode a = some node' →
      (∃ node, net.store.getNode a = some node ∧
        Controller.Mesh.computeTier node = Controller.Mesh.computeTier node') ∨
      Controller.Mesh.computeTier node' = agent'.config.tier) : IsLayered net' := by
  obtain ⟨rank, bound, hlayered⟩ := hlayered
  have hagentTier : ∀ a b agent', HasHeardOf net' a b → net'.agents a = some agent' →
      agent'.config.tier = 2 := by
    intro a b agent' hab hagent'
    obtain ⟨agent, hagent, hsame⟩ := hconfig a b agent' hab hagent'
    exact hsame ▸ hlayered.agentTier a b agent (hheard a b hab) hagent
  refine ⟨rank, bound, hagentTier, ?_, ?_, ?_⟩
  · intro a b node' hab hnode'
    obtain ⟨agent', hagent', _⟩ := id hab
    rcases hstore a agent' node' hagent' hnode' with ⟨node, hnode, hsame⟩ | hflags
    · exact hsame ▸ hlayered.nodeTier a b node (hheard a b hab) hnode
    · exact hflags.trans (hagentTier a b agent' hab hagent')
  · exact fun a b c hab hbc ↦ hlayered.ranked a b c (hheard a b hab) (hheard b c hbc)
  · exact fun a b hab ↦ hlayered.bounded a b (hheard a b hab)

/-- An agent can be given a rank above those of the agents that have heard of it. -/
theorem exists_rank_above {net : Network} (hlayered : IsLayered net) (id : String) :
    ∃ rank bound, Layered net rank bound ∧ rank id < bound ∧
      ∀ a, HasHeardOf net a id → rank a < rank id := by
  obtain ⟨rank, bound, hlayered⟩ := hlayered
  by_cases hactive : ∃ b, HasHeardOf net id b
  · obtain ⟨b, hb⟩ := hactive
    exact ⟨rank, bound, hlayered, hlayered.bounded id b hb, fun a ha ↦ hlayered.ranked a id b ha hb⟩
  · have hkept : ∀ a b, HasHeardOf net a b → Function.update rank id bound a = rank a :=
      fun a b hab ↦
        Function.update_of_ne (fun ha : a = id ↦ hactive ⟨b, ha ▸ hab⟩) _ _
    refine ⟨Function.update rank id bound, bound + 1,
      ⟨hlayered.agentTier, hlayered.nodeTier, ?_, ?_⟩, ?_, ?_⟩
    · intro a b c hab hbc
      rw [hkept a b hab, hkept b c hbc]
      exact hlayered.ranked a b c hab hbc
    · intro a b hab
      rw [hkept a b hab]
      exact (hlayered.bounded a b hab).trans (Nat.lt_succ_self bound)
    · rw [Function.update_self]
      exact Nat.lt_succ_self bound
    · intro a ha
      rw [hkept a id ha, Function.update_self]
      exact hlayered.bounded a id ha

/-! ### Steps -/

/-- The store can change under the agents as long as no node is stored with other flags than
before, except with those of its agent. -/
theorem IsLayered.withStore {net : Network} (hlayered : IsLayered net) {store : MemoryStore}
    (hstore : ∀ a agent' node', net.agents a = some agent' → store.getNode a = some node' →
      (∃ node, net.store.getNode a = some node ∧
        Controller.Mesh.computeTier node = Controller.Mesh.computeTier node') ∨
      Controller.Mesh.computeTier node' = agent'.config.tier) :
    IsLayered { net with store := store } :=
  hlayered.mono (fun _ _ hab ↦ hab) (fun _ _ agent' _ hagent' ↦ ⟨agent', hagent', rfl⟩) hstore

/-- The flags of the agents when one of them changes and keeps its flags. -/
theorem exists_config_of_withAgent {net : Network} {id : String} {agent agent' : Process}
    (hagent : net.agents id = some agent) (hconfig : agent'.config = agent.config) {a : String}
    {running : Process} (hrunning : (net.withAgent id agent').agents a = some running) :
    ∃ before, net.agents a = some before ∧ before.config = running.config := by
  unfold Network.withAgent at hrunning
  by_cases ha : a = id
  · subst ha
    obtain rfl := Option.some.inj ((Function.update_self a _ _).symm.trans hrunning)
    exact ⟨agent, hagent, hconfig.symm⟩
  · exact ⟨running, (Function.update_of_ne ha _ _).symm.trans hrunning, rfl⟩

/-- An agent can change as long as it keeps its flags and hears of no node. -/
theorem IsLayered.withAgent {net : Network} (hlayered : IsLayered net) {id : String}
    {agent agent' : Process} (hagent : net.agents id = some agent)
    (hconfig : agent'.config = agent.config)
    (hmentions : ∀ b, Mentions agent' b → Mentions agent b) :
    IsLayered (net.withAgent id agent') := by
  refine hlayered.mono (fun a b hab ↦ ?_)
    (fun _ _ _ _ hrunning ↦ exists_config_of_withAgent hagent hconfig hrunning)
    fun a _ node' _ hnode' ↦ Or.inl ⟨node', hnode', rfl⟩
  rw [hasHeardOf_withAgent_iff] at hab
  split_ifs at hab with ha
  · exact ⟨agent, ha ▸ hagent, hmentions b hab⟩
  · exact hab

/-- A call on the selector of an agent keeps the network layered. Assumes: a call that returns makes
the agent hear of no node. -/
theorem IsLayered.afterCall {net : Network} (hlayered : IsLayered net) {id : String}
    {agent agent' : Process} (hagent : net.agents id = some agent)
    (hconfig : agent'.config = agent.config) {result : Option Selector}
    (hmentions : ∀ selector, result = some selector → ∀ b,
      Mentions { agent' with selector := selector } b → Mentions agent b) :
    IsLayered (net.afterCall id agent' result) := by
  cases hresult : result with
  | some selector => exact hlayered.withAgent hagent hconfig (hmentions selector hresult)
  | none =>
    have hother : ∀ a running, (net.afterCall id agent' none).agents a = some running →
        net.agents a = some running := by
      intro a running hrunning
      change Function.update net.agents id none a = some running at hrunning
      rw [Function.update_apply] at hrunning
      split_ifs at hrunning
      exact hrunning
    refine hlayered.mono ?_ ?_ fun a _ node' _ hnode' ↦ Or.inl ⟨node', hnode', rfl⟩
    · rintro a b ⟨running, hrunning, hheard⟩
      exact ⟨running, hother a running hrunning, hheard⟩
    · intro a b running _ hrunning
      exact ⟨running, hother a running hrunning, rfl⟩

/-- An agent that starts has heard of nothing. -/
theorem IsLayered.start {net : Network} (hlayered : IsLayered net) (id : String)
    (config : Config) : IsLayered (step net (.start id config)) := by
  have hfresh : ∀ b, ¬ Mentions
      ⟨config, Selector.new id config.region config.isp config.hasIpv6, []⟩ b := by
    rintro b (⟨path, hpath, _⟩ | ⟨resp, hresp, _⟩ | ⟨resp, hresp, _⟩)
    · cases hpath
    · cases hresp
    · cases hresp
  have hother : ∀ a b, HasHeardOf (step net (.start id config)) a b →
      a ≠ id ∧ HasHeardOf net a b := by
    intro a b hab
    change HasHeardOf (net.withAgent id _) a b at hab
    rw [hasHeardOf_withAgent_iff] at hab
    split_ifs at hab with ha
    · exact absurd hab (hfresh b)
    · exact ⟨ha, hab⟩
  refine hlayered.mono (fun a b hab ↦ (hother a b hab).2) ?_
    fun a _ node' _ hnode' ↦ Or.inl ⟨node', hnode', rfl⟩
  intro a b agent' hab hagent'
  exact ⟨agent', (Function.update_of_ne (hother a b hab).1 _ _).symm.trans hagent', rfl⟩

/-- A registration stores a new node with the flags of its agent, and keeps the flags of a known
one. -/
theorem IsLayered.register {net : Network} (hlayered : IsLayered net) (id : String)
    (req : RegisterRequest) : IsLayered (step net (.register id req)) := by
  change IsLayered ((net.agents id).elim net fun agent ↦
    { net with store := net.store.registerNode net.now (registration id agent req) })
  cases hagent : net.agents id with
  | none => exact hlayered
  | some agent =>
    refine hlayered.withStore fun a agent' node' hagent' hnode' ↦ ?_
    unfold MemoryStore.getNode at hnode' ⊢
    rw [MemoryStore.find?_registerNode] at hnode'
    split_ifs at hnode' with ha
    · obtain rfl := Option.some.inj hnode'
      cases hfound : net.store.nodes.find? a with
      | none =>
        change a = id at ha
        obtain rfl := Option.some.inj ((ha ▸ hagent').symm.trans hagent)
        exact Or.inr (by simp [Controller.Mesh.computeTier, Config.tier, registration,
          MemoryStore.newNode])
      | some node => exact Or.inl ⟨node, rfl, rfl⟩
    · exact Or.inl ⟨node', hnode', rfl⟩

/-- The removal of nodes changes no flags. -/
theorem IsLayered.removeNode {net : Network} (hlayered : IsLayered net) (id : String) :
    IsLayered (step net (.removeNode id)) := by
  refine hlayered.withStore fun a _ node' _ hnode' ↦ Or.inl ⟨node', ?_, rfl⟩
  unfold MemoryStore.getNode at hnode' ⊢
  rw [MemoryStore.find?_removeNode] at hnode'
  split_ifs at hnode'
  exact hnode'

/-- The removal of stale nodes changes no flags. -/
theorem IsLayered.removeStaleNodes {net : Network} (hlayered : IsLayered net) (timeout : ℕ) :
    IsLayered (step net (.removeStaleNodes timeout)) := by
  refine hlayered.withStore fun a _ node' _ hnode' ↦ Or.inl ⟨node', ?_, rfl⟩
  unfold MemoryStore.getNode at hnode' ⊢
  rw [MemoryStore.find?_removeStaleNodes] at hnode'
  exact (Option.filter_eq_some_iff.mp hnode').1

/-- Handling a reply keeps the network layered. -/
theorem IsLayered.deliver {net : Network} (hlayered : IsLayered net) (id : String)
    (env : Env) : IsLayered (step net (.deliver id env)) := by
  change IsLayered ((net.agents id).elim net fun agent ↦ handleReply net id agent env)
  cases hagent : net.agents id with
  | none => exact hlayered
  | some agent =>
    change IsLayered (handleReply net id agent env)
    unfold handleReply
    cases hinbox : agent.inbox with
    | nil => exact hlayered
    | cons resp rest =>
      refine hlayered.afterCall hagent ?_ fun selector hreturns b hb ↦
        mentions_updateMeshMap hinbox hreturns hb
      rfl

/-- An emergency switch keeps the network layered. -/
theorem IsLayered.emergency {net : Network} (hlayered : IsLayered net) (id : String)
    (env : Env) : IsLayered (step net (.emergency id env)) := by
  change IsLayered ((net.agents id).elim net fun agent ↦
    net.afterCall id agent (agent.selector.emergencySwitch env net.now))
  cases hagent : net.agents id with
  | none => exact hlayered
  | some agent =>
    exact hlayered.afterCall hagent rfl fun selector hreturns b hb ↦
      mentions_emergencySwitch hreturns hb

/-- A reply on its way tells an agent of tier 2 of nodes of tier 1, which have heard of nothing.
Assumes: an agent whose node is stored with tier 2 is of tier 2. -/
theorem IsLayered.reply {net : Network} (hlayered : IsLayered net) {id : String} {agent : Process}
    (hagent : net.agents id = some agent)
    (hcurrent : ∀ node, net.store.getNode id = some node →
      Controller.Mesh.computeTier node ≤ agent.config.tier)
    {outcome : Controller.Mesh.MeshOutcome} {response : Controller.Mesh.MeshMapResponse}
    (hresponse : Controller.Mesh.buildMeshMapResponse nearest net.store outcome net.now id =
      some response) :
    IsLayered (net.withAgent id
      { agent with inbox := agent.inbox ++ [receivedResponse response] }) := by
  obtain ⟨rank, bound, hlayered, hbound, habove⟩ := exists_rank_above hlayered id
  set agent' : Process := { agent with inbox := agent.inbox ++ [receivedResponse response] }
    with hagent'
  have hmentions : ∀ b, Mentions agent' b →
      HasHeardOf net id b ∨ Offers (receivedResponse response) b := by
    rintro b (hpath | hlast | ⟨resp, hresp, hoffers⟩)
    · exact Or.inl ⟨agent, hagent, Or.inl hpath⟩
    · exact Or.inl ⟨agent, hagent, Or.inr (Or.inl hlast)⟩
    · rcases List.mem_append.mp hresp with hold | hnew
      · exact Or.inl ⟨agent, hagent, Or.inr (Or.inr ⟨resp, hold, hoffers⟩)⟩
      · exact Or.inr (List.mem_singleton.mp hnew ▸ hoffers)
  -- an offered node is stored with tier 1, so its agent has heard of nothing
  have hsilent : ∀ b, Offers (receivedResponse response) b → ∀ c, ¬ HasHeardOf net b c := by
    intro b hoffers c hbc
    obtain ⟨_, node, hnode, htier⟩ := tiers_of_offered hresponse hoffers
    rw [hlayered.nodeTier b c node hbc hnode] at htier
    exact absurd htier (by decide)
  have hheard : ∀ a b, HasHeardOf (net.withAgent id agent') a b → HasHeardOf net a b ∨
      a = id ∧ Offers (receivedResponse response) b := by
    intro a b hab
    rw [hasHeardOf_withAgent_iff] at hab
    split_ifs at hab with ha
    · rw [ha]
      exact (hmentions b hab).imp_right fun hoffers ↦ ⟨rfl, hoffers⟩
    · exact Or.inl hab
  refine ⟨rank, bound, ?_, ?_, ?_, ?_⟩
  · intro a b running hab hrunning
    obtain ⟨before, hbefore, hconfig⟩ := exists_config_of_withAgent hagent
      (show agent'.config = agent.config from rfl) hrunning
    rw [← hconfig]
    rcases hheard a b hab with hold | ⟨rfl, hoffers⟩
    · exact hlayered.agentTier a b before hold hbefore
    · obtain ⟨⟨node, hnode, htier⟩, _⟩ := tiers_of_offered hresponse hoffers
      obtain rfl := Option.some.inj (hagent.symm.trans hbefore)
      exact le_antisymm agent.config.tier_le (htier ▸ hcurrent node hnode)
  · intro a b node hab hnode
    rcases hheard a b hab with hold | ⟨rfl, hoffers⟩
    · exact hlayered.nodeTier a b node hold hnode
    · obtain ⟨⟨requester, hrequester, htier⟩, _⟩ := tiers_of_offered hresponse hoffers
      obtain rfl := Option.some.inj (hrequester.symm.trans hnode)
      exact htier
  · intro a b c hab hbc
    rcases hheard b c hbc with hold | ⟨rfl, _⟩
    · rcases hheard a b hab with hab | ⟨_, hoffers⟩
      · exact hlayered.ranked a b c hab hold
      · exact absurd hold (hsilent b hoffers c)
    · rcases hheard a b hab with hab | ⟨_, hoffers⟩
      · exact habove a hab
      · obtain ⟨⟨node, hnode, htwo⟩, other, hother, hone⟩ := tiers_of_offered hresponse hoffers
        obtain rfl := Option.some.inj (hnode.symm.trans hother)
        exact absurd (htwo.symm.trans hone) (by decide)
  · intro a b hab
    rcases hheard a b hab with hold | ⟨rfl, _⟩
    · exact hlayered.bounded a b hold
    · exact hbound

/-- An answered heartbeat keeps the network layered. Assumes: the tier of the stored flags is not
above the tier of the flags the agent runs with. -/
theorem IsLayered.heartbeat {net : Network} (hlayered : IsLayered net) {id : String}
    {req : HeartbeatRequest} {outcome : Controller.Mesh.MeshOutcome}
    (hcurrent : TierCurrent net (.heartbeat id req outcome)) :
    IsLayered (step net (.heartbeat id req outcome)) := by
  change IsLayered ((net.agents id).elim net fun agent ↦ handleHeartbeat net id agent req outcome)
  cases hagent : net.agents id with
  | none => exact hlayered
  | some agent =>
    change IsLayered (handleHeartbeat net id agent req outcome)
    unfold handleHeartbeat
    cases hupdate : net.store.updateHeartbeat net.now (Cascade.heartbeat id agent req) with
    | error message => exact hlayered
    | ok store =>
      have htier : ∀ a node', store.getNode a = some node' →
          ∃ node, net.store.getNode a = some node ∧
            Controller.Mesh.computeTier node = Controller.Mesh.computeTier node' := by
        intro a node' hnode'
        unfold MemoryStore.getNode at hnode' ⊢
        rw [MemoryStore.find?_updateHeartbeat hupdate] at hnode'
        split_ifs at hnode'
        · obtain ⟨node, hnode, rfl⟩ := Option.map_eq_some_iff.mp hnode'
          exact ⟨node, hnode, rfl⟩
        · exact ⟨node', hnode', rfl⟩
      have hstored : IsLayered { net with store := store } :=
        hlayered.withStore fun a _ node' _ hnode' ↦ Or.inl (htier a node' hnode')
      dsimp only
      cases hresponse : Controller.Mesh.buildMeshMapResponse nearest store outcome net.now
          id with
      | none => exact hstored
      | some response =>
        refine hstored.reply hagent (fun node' hnode' ↦ ?_) hresponse
        obtain ⟨node, hnode, hsame⟩ := htier id node' hnode'
        exact hsame ▸ hcurrent agent hagent node hnode

/-- A step that meets the condition keeps the network layered. -/
theorem isLayered_step (net : Network) (action : Action) (hlayered : IsLayered net)
    (hcurrent : TierCurrent net action) : IsLayered (step net action) := by
  cases action with
  | start id config => exact hlayered.start id config
  | register id req => exact hlayered.register id req
  | heartbeat id req outcome => exact hlayered.heartbeat hcurrent
  | deliver id env => exact hlayered.deliver id env
  | removeNode id => exact hlayered.removeNode id
  | removeStaleNodes timeout => exact hlayered.removeStaleNodes timeout
  | emergency id env => exact hlayered.emergency id env
  | tick elapsed =>
    exact hlayered.mono (fun _ _ hab ↦ hab) (fun _ _ agent _ hagent ↦ ⟨agent, hagent, rfl⟩)
      fun _ _ node _ hnode ↦ Or.inl ⟨node, hnode, rfl⟩

/-- No agent has heard of a node at the start. -/
theorem isLayered_start : IsLayered .start := by
  have hsilent : ∀ a b, ¬ HasHeardOf .start a b := by
    rintro a b ⟨agent, hagent, _⟩
    cases hagent
  exact ⟨fun _ ↦ 0, 0, fun a b _ hab ↦ absurd hab (hsilent a b),
    fun a b _ hab ↦ absurd hab (hsilent a b), fun a b _ hab ↦ absurd hab (hsilent a b),
    fun a b hab ↦ absurd hab (hsilent a b)⟩

/-! ### Cycles -/

/-- No run whose answered heartbeats all meet the condition reaches a state in which the agents pull
from each other in a cycle. -/
theorem cascade_acyclic (actions : List Action)
    (hcurrent : EachStepMeets step TierCurrent .start actions) :
    Acyclic (Pulls (run step .start actions)) :=
  acyclic_of_isLayered (invariant_run step isLayered_step isLayered_start hcurrent)

/-- An agent in one region. -/
def edgeConfig (cascadeUpstream : Bool) : Config := ⟨"r", "i", false, true, cascadeUpstream⟩

/-- A node that serves nobody reports to the controller. -/
def idleHeartbeat : HeartbeatRequest := ⟨"", 0, 100000000, 0, 0, 0, 0, 0, 0, ""⟩

/-- An agent starts and registers. -/
def joining (id : String) (cascadeUpstream : Bool) : List Action :=
  [.start id (edgeConfig cascadeUpstream),
    .register id (Controller.Mesh.relayRequest id cascadeUpstream)]

/-- An agent reports to the controller. -/
def reporting (id : String) : Action := .heartbeat id idleHeartbeat Controller.Mesh.inOrderOutcome

/-- The node an agent pulls from. -/
def upstreamOf (net : Network) (id : String) : Option String :=
  ((net.agents id).bind fun agent ↦ agent.selector.currentPath).map fun path ↦ path.upstreamNodeId

theorem pulls_iff {net : Network} {id upstreamID : String} :
    Pulls net id upstreamID ↔ upstreamOf net id = some upstreamID := by
  unfold Pulls upstreamOf
  rw [Option.map_eq_some_iff]
  simp only [Option.bind_eq_some_iff]
  constructor
  · rintro ⟨agent, path, hagent, hpath, hid⟩
    exact ⟨path, ⟨agent, hagent, hpath⟩, hid⟩
  · rintro ⟨path, ⟨agent, hagent, hpath⟩, hid⟩
    exact ⟨agent, path, hagent, hpath, hid⟩

/-- A run in which an agent of tier 2 pulls from one of tier 1. -/
def twoTierRun : List Action :=
  joining "edge-1" true ++ joining "edge-2" false ++
    [reporting "edge-2", reporting "edge-1", .deliver "edge-1" .always]

/-- A witness of `cascade_acyclic`: the agent of tier 2 pulls from the agent of tier 1. -/
theorem cascade_acyclic_witness :
    Pulls (run step .start twoTierRun) "edge-1" "edge-2" ∧
      Acyclic (Pulls (run step .start twoTierRun)) := by
  have hpath : upstreamOf (run step .start twoTierRun) "edge-1" = some "edge-2" := by
    decide +kernel
  exact ⟨pulls_iff.mpr hpath, cascade_acyclic twoTierRun (by decide +kernel)⟩

/-- An agent of tier 2 comes back with the flags of tier 1 and registers again; the controller keeps
the old flags and offers it another agent of tier 1, from which it then pulls. After its removal and
a new registration it is stored with tier 1, and the other agent, which comes back with the flags of
tier 2, is offered it. -/
def roleChangeRun : List Action :=
  joining "edge-1" true ++ joining "edge-2" false ++ [reporting "edge-2"] ++
    joining "edge-1" false ++ [reporting "edge-1", .deliver "edge-1" .always] ++
    [.removeNode "edge-1", .register "edge-1" (Controller.Mesh.relayRequest "edge-1" false),
      reporting "edge-1", .removeNode "edge-2"] ++
    joining "edge-2" true ++ [reporting "edge-2", .deliver "edge-2" .always]

/-- Runs without the condition reach a state in which two agents pull from each other. -/
theorem cascade_counterexample :
    ¬ ∀ actions, Acyclic (Pulls (run step .start actions)) := by
  intro hacyclic
  have hfirst : upstreamOf (run step .start roleChangeRun) "edge-1" = some "edge-2" := by
    decide +kernel
  have hsecond : upstreamOf (run step .start roleChangeRun) "edge-2" = some "edge-1" := by
    decide +kernel
  exact hacyclic roleChangeRun "edge-1" (Relation.TransGen.head (pulls_iff.mpr hfirst)
    (Relation.TransGen.single (pulls_iff.mpr hsecond)))

end LiveCDN.System.Cascade
