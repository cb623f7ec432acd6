import LiveCDN.Controller.Authorization
import LiveCDN.Controller.NodeLease

/-!
# Agents that the controller has forgotten

The requests by which agents stay known to the controller: the heartbeats of `heartbeat_loop`
(`agent-rust/src/main.rs`) and `heartbeatLoop` (`internal/agent/agent.go`), and the registrations of
`register_with_controller` and `RegisterWithController`. An agent whose heartbeat is answered with
404 or 410 registers again. The server is that of `ServerRun`, and between the requests of an agent
it takes any other steps.

The two handlers read the token differently: a heartbeat shows it in a header that the server trims,
a registration in its body, where the server compares it as it is. So an agent that was forgotten is
known again after each of its rounds exactly when its configuration has what a registration needs
and a token without blanks at its ends (`recovers_rust_iff` for the Rust agent, `recovers_go_iff`
for the Go agent).

Scope. A request whose answer is lost counts as one of the other steps. A token consists of
characters that HTTP headers carry.
-/

set_option autoImplicit false
set_option relaxedAutoImplicit false

namespace LiveCDN.System.AgentRounds

open Library.GuardedRun Library.Lease Controller.NodeStore Controller.HttpServer Controller.Handlers
  Controller.ServerRun Controller.HandlerEffects Controller.NodeLease

/-! ### Requests -/

/-- What an agent measures for a heartbeat. -/
structure Measured where
  onlineUsers : ℕ
  rtt : ℕ
  cascadeDepth : ℤ
  currentUpstream : String
  deriving Inhabited

/-- The configuration of the Rust agent, as far as its requests carry it. -/
structure RustConfig where
  nodeId : String
  publicIp : String
  publicIpv6 : String
  port : UInt16
  region : String
  isp : String
  bwLimit : UInt64
  domain : String
  protocol : String
  wsPath : String
  tlsEnabled : Bool
  regToken : String
  cascadeEnabled : Bool
  cascadeUpstream : Option String

/-- The configuration of the Go agent, as far as its requests carry it. -/
structure GoConfig where
  nodeID : String
  publicIP : String
  port : ℤ
  region : String
  isp : String
  bwLimit : ℤ
  domain : String
  protocol : String
  wsPath : String
  tlsEnabled : Bool
  regToken : String

/-- The header of `bearer_auth`. -/
def bearerAuth (token name : String) : String :=
  if name = "Authorization" then "Bearer " ++ token else ""

/-- A body whose `bw_limit` is a `u64`: the server decodes it as an `int64`, and the body does not
decode when it is larger. -/
def decoded {Content : Type} (bwLimit : UInt64) (content : Content) : Option Content :=
  if bwLimit.toNat < 2 ^ 63 then some content else none

/-- An agent: its id, the body of its registration as the server decodes it, and the bodies and the
header of its heartbeats. Its requests name it. -/
structure Agent where
  nodeID : String
  registration : Option Registration
  beat : Measured → Option HeartbeatRequest
  header : String → String
  registration_nodeID : ∀ sent ∈ registration, sent.request.nodeID = nodeID
  beat_nodeID : ∀ measured, ∀ sent ∈ beat measured, sent.nodeID = nodeID

/-- `RegisterPayload`, as `register_with_controller` fills it. -/
def RustConfig.registerPayload (config : RustConfig) : Registration where
  token := config.regToken
  request := {
    nodeID := config.nodeId
    publicIP := config.publicIp
    publicIPv6 := config.publicIpv6
    port := config.port.toNat
    region := config.region
    isp := config.isp
    bwLimit := config.bwLimit.toNat
    domain := config.domain
    protocol := config.protocol
    wsPath := config.wsPath
    tlsEnabled := config.tlsEnabled
    cascadeEnabled := config.cascadeEnabled
    cascadeUpstream := config.cascadeUpstream.isSome }

/-- `HeartbeatPayload`, as `heartbeat_loop` fills it. -/
def RustConfig.heartbeatPayload (config : RustConfig) (measured : Measured) : HeartbeatRequest where
  nodeID := config.nodeId
  bwUsed := 0
  bwLimit := config.bwLimit.toNat
  onlineUsers := measured.onlineUsers
  rtt := measured.rtt
  lossRate := 0
  cascadeDepth := measured.cascadeDepth
  childrenCount := 0
  cascadeEgressBW := 0
  currentUpstream := measured.currentUpstream

theorem eq_of_mem_decoded {Content : Type} {bwLimit : UInt64} {content sent : Content}
    (hsent : sent ∈ decoded bwLimit content) : sent = content := by
  unfold decoded at hsent
  split_ifs at hsent
  · exact (Option.some.inj hsent).symm
  · exact nomatch hsent

/-- The Rust agent. -/
def RustConfig.agent (config : RustConfig) : Agent where
  nodeID := config.nodeId
  registration := decoded config.bwLimit config.registerPayload
  beat measured := decoded config.bwLimit (config.heartbeatPayload measured)
  header := bearerAuth config.regToken
  registration_nodeID sent hsent := by rw [eq_of_mem_decoded hsent, RustConfig.registerPayload]
  beat_nodeID measured sent hsent := by rw [eq_of_mem_decoded hsent, RustConfig.heartbeatPayload]

/-- The body of `RegisterWithController`. -/
def GoConfig.registerRequest (config : GoConfig) : Registration where
  token := config.regToken
  request := {
    nodeID := config.nodeID
    publicIP := config.publicIP
    publicIPv6 := ""
    port := config.port
    region := config.region
    isp := config.isp
    bwLimit := config.bwLimit
    domain := config.domain
    protocol := config.protocol
    wsPath := config.wsPath
    tlsEnabled := config.tlsEnabled
    cascadeEnabled := false
    cascadeUpstream := false }

/-- The heartbeat of `heartbeatLoop`. -/
def GoConfig.heartbeatRequest (config : GoConfig) (currentBW : ℤ) (measured : Measured) :
    HeartbeatRequest where
  nodeID := config.nodeID
  bwUsed := currentBW
  bwLimit := config.bwLimit
  onlineUsers := measured.onlineUsers
  rtt := measured.rtt
  lossRate := 0
  cascadeDepth := 0
  childrenCount := 0
  cascadeEgressBW := 0
  currentUpstream := ""

/-- The Go agent: `sendHeartbeat` sends no header without a token. -/
def GoConfig.agent (config : GoConfig) (currentBW : ℤ) : Agent where
  nodeID := config.nodeID
  registration := some config.registerRequest
  beat measured := some (config.heartbeatRequest currentBW measured)
  header := if config.regToken ≠ "" then bearerAuth config.regToken else fun _ ↦ ""
  registration_nodeID sent hsent := by rw [← Option.some.inj hsent, GoConfig.registerRequest]
  beat_nodeID measured sent hsent := by rw [← Option.some.inj hsent, GoConfig.heartbeatRequest]

namespace Agent

/-- The registration of an agent. -/
def register (agent : Agent) : Request := ⟨.register agent.registration, fun _ ↦ "", fun _ ↦ ""⟩

/-- A heartbeat of an agent. -/
def heartbeat (agent : Agent) (measured : Measured) : Request :=
  ⟨.heartbeat (agent.beat measured), agent.header, fun _ ↦ ""⟩

end Agent

/-! ### Rounds -/

/-- The answers to a heartbeat after which an agent registers again. -/
def reregisters : Reply → Bool
  | .error status _ => decide (status = 404 ∨ status = 410)
  | _ => false

/-- A turn of the heartbeat loop: what the server does before it, the heartbeat, and what the server
does before the registration, where there is one. -/
structure Round where
  before : List Action
  measured : Measured
  first : Chance
  between : List Action
  second : Chance

namespace Agent

variable (services : Services) (agent : Agent)

/-- The server when the heartbeat of a round arrives. -/
def arrival (st : State) (turn : Round) : State := run (step services) st turn.before

/-- The server after the heartbeat of a round. -/
def beaten (st : State) (turn : Round) : State :=
  step services (arrival services st turn) (.request (agent.heartbeat turn.measured) turn.first)

/-- The answer to the heartbeat of a round. -/
def answer (st : State) (turn : Round) : Reply :=
  (serve services (arrival services st turn).server turn.first
    (agent.heartbeat turn.measured)).2

/-- The server after a round. -/
def round (st : State) (turn : Round) : State :=
  if reregisters (agent.answer services st turn) then
    step services (run (step services) (agent.beaten services st turn) turn.between)
      (.request agent.register turn.second)
  else agent.beaten services st turn

/-- Whatever else the servers with a registration token do, an agent is known after each of its
rounds, and a request of that round was its last contact. -/
def Recovers (regToken : String) : Prop :=
  ∀ start : State, start.server.cfg.regToken = regToken → ∀ rounds turn,
    lastContact (run (agent.round services) start (rounds ++ [turn])).server agent.nodeID ∈
      [some turn.first.now, some turn.second.now]

/-- A server takes the registration of an agent. -/
def TakesRegistration (cfg : Config) : Prop :=
  ∃ sent ∈ agent.registration, registrationRequired sent = true ∧ sent.token = cfg.regToken

/-- A server takes a heartbeat of an agent if it knows the agent. -/
def TakesHeartbeat (cfg : Config) (measured : Measured) : Prop :=
  validateAgentToken cfg (agent.heartbeat measured) = true ∧
    ∃ sent ∈ agent.beat measured, sent.nodeID ≠ ""

end Agent

/-! ### What the server answers -/

variable {services : Services} {server : Server} {st : State} {chance : Chance}

/-- A body with its required fields is bound. -/
theorem shouldBindJSON_of_required {Content : Type} {required : Content → Bool} {content : Content}
    (hrequired : required content = true) :
    shouldBindJSON required (some content) = some content :=
  Option.filter_eq_some_iff.mpr ⟨rfl, hrequired⟩

/-- A heartbeat makes an agent register again exactly when its token is valid, its body decodes and
the server does not know the node. -/
theorem reregisters_handleHeartbeat_iff {request : Request} {body : Option HeartbeatRequest} :
    reregisters (handleHeartbeat server chance request body).2 = true ↔
      validateAgentToken server.cfg request = true ∧
        ∃ req, body = some req ∧ req.nodeID ≠ "" ∧ ¬ Knows server req.nodeID := by
  unfold handleHeartbeat
  cases hvalid : validateAgentToken server.cfg request with
  | false => exact iff_of_false (by rw [if_pos rfl]; exact Bool.false_ne_true) nofun
  | true =>
    rw [if_neg (by decide), and_iff_right rfl]
    cases hbound : shouldBindJSON (fun req : HeartbeatRequest ↦ isGiven req.nodeID) body with
    | none =>
      refine iff_of_false (by simp [reregisters]) ?_
      rintro ⟨req, rfl, hgiven, -⟩
      have hsent : shouldBindJSON (fun req : HeartbeatRequest ↦ isGiven req.nodeID) (some req) =
          some req := shouldBindJSON_of_required (decide_eq_true hgiven)
      exact Option.some_ne_none req (hsent.symm.trans hbound)
    | some req =>
      obtain ⟨rfl, hgiven⟩ := shouldBindJSON_eq_some hbound
      have hupdate : (server.scheduler.store.updateHeartbeat chance.now req).isOk = true ↔
          Knows server req.nodeID := by
        unfold MemoryStore.updateHeartbeat Knows MemoryStore.getNode
        cases server.scheduler.store.nodes.find? req.nodeID <;> simp [Except.isOk, Except.toBool]
      simp only [Option.some.injEq, exists_eq_left', ← hupdate, of_decide_eq_true hgiven, ne_eq,
        not_false_eq_true, true_and]
      cases server.scheduler.store.updateHeartbeat chance.now req with
      | error message => simp [reregisters, Except.isOk, Except.toBool]
      | ok store => simp [reregisters, Except.isOk, Except.toBool]

/-- The server after a registration. -/
theorem handleRegister_fst (registration : Registration) :
    (handleRegister server chance (some registration)).1 =
      if registrationRequired registration = true ∧ registration.token = server.cfg.regToken then
        server.withStore (server.scheduler.store.registerNode chance.now registration.request)
      else server := by
  unfold handleRegister
  cases hrequired : registrationRequired registration with
  | false =>
    have hunbound : shouldBindJSON registrationRequired (some registration) = none :=
      Option.filter_some_neg hrequired
    rw [hunbound, if_neg (by simp)]
  | true =>
    rw [shouldBindJSON_of_required hrequired]
    dsimp only
    by_cases htoken : registration.token = server.cfg.regToken
    · rw [if_neg (not_not.mpr htoken)]
      exact (if_pos ⟨rfl, htoken⟩).symm
    · rw [if_pos htoken]
      exact (if_neg fun h ↦ htoken h.2).symm

/-- The token of a request whose only header is the one of an agent. -/
theorem validateAgentToken_bearerAuth_iff {cfg : Config} {route : Route} {token : String} :
    validateAgentToken cfg ⟨route, bearerAuth token, fun _ ↦ ""⟩ = true ↔
      cfg.regToken ≠ "" ∧ String.ofList (Library.Utf8Text.trim token.toList) = cfg.regToken := by
  have hheader : bearerAuth token "Authorization" = "Bearer " ++ token := if_pos rfl
  have hother : bearerAuth token "X-LiveCDN-Token" = "" := if_neg (by decide)
  have hlength : "Bearer ".length = "Bearer ".toList.length := by decide
  have hbearer : bearer ⟨route, bearerAuth token, fun _ ↦ ""⟩ = some token.toList := by
    unfold bearer
    dsimp only
    rw [hheader, String.toList_append, if_pos (List.isPrefixOf_iff_prefix.mpr
      (List.prefix_append _ _)), hlength, List.drop_left]
  have htoken : agentToken ⟨route, bearerAuth token, fun _ ↦ ""⟩ =
      String.ofList (Library.Utf8Text.trim token.toList) := by
    unfold agentToken
    dsimp only
    rw [hother, if_pos rfl, hbearer]
    dsimp only
    split_ifs with hempty
    · exact hempty.symm
    · rfl
  unfold validateAgentToken
  dsimp only
  rw [htoken]
  by_cases hset : cfg.regToken = ""
  · rw [if_pos hset]
    exact iff_of_false Bool.false_ne_true fun h ↦ h.1 hset
  · rw [if_neg hset, decide_eq_true_iff, and_iff_right hset]

/-! ### What a round comes to -/

namespace Agent

variable {agent : Agent} {turn : Round}

theorem regToken_run (services : Services) (st : State) (actions : List Action) :
    (run (step services) st actions).server.cfg.regToken = st.server.cfg.regToken :=
  invariant_run_of_step (step services)
    (fun state action (htoken : state.server.cfg.regToken = st.server.cfg.regToken) ↦
      (Controller.Authorization.access_step services state action).1.trans htoken) rfl actions

/-- No round changes the registration token. -/
theorem regToken_round (services : Services) (agent : Agent) (st : State) (turn : Round) :
    (agent.round services st turn).server.cfg.regToken = st.server.cfg.regToken := by
  have hbeaten : (agent.beaten services st turn).server.cfg.regToken = st.server.cfg.regToken :=
    (Controller.Authorization.access_step services _ _).1.trans (regToken_run services st _)
  unfold round
  split_ifs
  · exact (Controller.Authorization.access_step services _ _).1.trans
      ((regToken_run services _ _).trans hbeaten)
  · exact hbeaten

/-- What a registration does to what the server knows of the agent: it is known with a new contact
when the server takes it, and as before otherwise. -/
theorem lastContact_register (services : Services) (agent : Agent) (st : State) (chance : Chance) :
    agent.TakesRegistration st.server.cfg ∧
        lastContact (step services st (.request agent.register chance)).server agent.nodeID =
          some chance.now ∨
      ¬ agent.TakesRegistration st.server.cfg ∧
        lastContact (step services st (.request agent.register chance)).server agent.nodeID =
          lastContact st.server agent.nodeID := by
  rw [step, server_after]
  change _ ∧ lastContact (handleRegister st.server chance agent.registration).1 _ = _ ∨
    _ ∧ lastContact (handleRegister st.server chance agent.registration).1 _ = _
  cases hsent : agent.registration with
  | none =>
    refine Or.inr ⟨?_, rfl⟩
    rintro ⟨sent, hmem, -⟩
    exact Option.some_ne_none sent (hmem.symm.trans hsent)
  | some sent =>
    have hid : sent.request.nodeID = agent.nodeID := agent.registration_nodeID sent hsent
    rw [handleRegister_fst]
    split_ifs with htaken
    · refine Or.inl ⟨⟨sent, hsent, htaken⟩, ?_⟩
      rw [lastContact_registerNode, if_pos hid]
    · refine Or.inr ⟨?_, rfl⟩
      rintro ⟨other, hother, hrequired⟩
      obtain rfl := Option.some.inj (hsent.symm.trans hother)
      exact htaken hrequired

/-- An agent registers again after a heartbeat exactly when the server would take it and does not
know the agent. -/
theorem reregisters_heartbeat_iff {agent : Agent} {measured : Measured} :
    reregisters (serve services server chance (agent.heartbeat measured)).2 = true ↔
      agent.TakesHeartbeat server.cfg measured ∧ ¬ Knows server agent.nodeID := by
  refine reregisters_handleHeartbeat_iff.trans ?_
  rw [TakesHeartbeat, and_assoc]
  refine and_congr_right fun _ ↦ ?_
  constructor
  · rintro ⟨sent, hsent, hgiven, hunknown⟩
    exact ⟨⟨sent, hsent, hgiven⟩, agent.beat_nodeID measured sent hsent ▸ hunknown⟩
  · rintro ⟨⟨sent, hsent, hgiven⟩, hunknown⟩
    exact ⟨sent, hsent, hgiven, (agent.beat_nodeID measured sent hsent).symm ▸ hunknown⟩

/-- The answer to a heartbeat of a node that the server knows. Assumes: the token is valid, and the
id is given. -/
theorem exists_meshMap_of_knows {request : Request} {sent : HeartbeatRequest}
    (hvalid : validateAgentToken server.cfg request = true) (hgiven : sent.nodeID ≠ "")
    (hknows : Knows server sent.nodeID) :
    ∃ meshMap,
      (handleHeartbeat server chance request (some sent)).2 = .ok (.heartbeat meshMap) := by
  obtain ⟨node, hnode⟩ := Option.isSome_iff_exists.mp hknows
  have hfound : server.scheduler.store.nodes.find? sent.nodeID = some node := hnode
  have hbound : shouldBindJSON (fun req : HeartbeatRequest ↦ isGiven req.nodeID) (some sent) =
      some sent := shouldBindJSON_of_required (decide_eq_true hgiven)
  unfold handleHeartbeat
  rw [hvalid, if_neg (by decide), hbound]
  dsimp only
  rw [MemoryStore.updateHeartbeat, hfound]
  exact ⟨_, rfl⟩

/-- A heartbeat that the server takes is the last contact of the agent. Assumes: the server knows
the agent. -/
theorem lastContact_heartbeat {agent : Agent} {measured : Measured}
    (htakes : agent.TakesHeartbeat st.server.cfg measured) (hknows : Knows st.server agent.nodeID) :
    lastContact (step services st (.request (agent.heartbeat measured) chance)).server
      agent.nodeID = some chance.now := by
  obtain ⟨hvalid, sent, hsent, hgiven⟩ := htakes
  have hnode : sent.nodeID = agent.nodeID := agent.beat_nodeID measured sent hsent
  have hroute : (agent.heartbeat measured).route = .heartbeat (some sent) := by
    rw [heartbeat, show agent.beat measured = some sent from hsent]
  obtain ⟨meshMap, hreply⟩ := exists_meshMap_of_knows hvalid hgiven
    (hnode.symm ▸ hknows)
  have hserved : (serve services st.server chance (agent.heartbeat measured)).2 =
      .ok (.heartbeat meshMap) := by
    rw [serve, hroute]
    exact hreply
  obtain ⟨time, htime⟩ := Option.isSome_iff_exists.mp
    ((knows_iff_isSome_lastContact _ _).mpr hknows)
  rw [lastContact_step, nodeEvent, hserved, hroute, contactEvent, if_pos hnode, htime]
  rfl

/-- A heartbeat makes no agent known. -/
theorem lastContact_heartbeat_of_unknown {agent : Agent} {measured : Measured}
    (hunknown : lastContact st.server agent.nodeID = none) :
    lastContact (step services st (.request (agent.heartbeat measured) chance)).server
      agent.nodeID = none := by
  rw [lastContact_step, hunknown, nodeEvent, heartbeat]
  cases agent.beat measured with
  | none => rfl
  | some sent =>
    cases (serve services st.server chance
      ⟨.heartbeat (some sent), agent.header, fun _ ↦ ""⟩).2 with
    | ok response =>
      cases response with
      | heartbeat meshMap =>
        unfold contactEvent
        dsimp only
        split_ifs <;> rfl
      | _ => rfl
    | _ => rfl

/-! ### Recovery -/

/-- What a server takes depends on its registration token only. -/
theorem takes_congr {cfg cfg' : Config} (htoken : cfg'.regToken = cfg.regToken) (agent : Agent) :
    (agent.TakesRegistration cfg' ↔ agent.TakesRegistration cfg) ∧
      ∀ measured, agent.TakesHeartbeat cfg' measured ↔ agent.TakesHeartbeat cfg measured := by
  refine ⟨by rw [TakesRegistration, TakesRegistration, htoken], fun measured ↦ ?_⟩
  rw [TakesHeartbeat, TakesHeartbeat, validateAgentToken, validateAgentToken, htoken]

/-- After a round an agent is known, and a request of the round was its last contact. Assumes: the
server takes the heartbeat of the round and the registration. -/
theorem lastContact_round {agent : Agent} {turn : Round}
    (hheartbeat : agent.TakesHeartbeat st.server.cfg turn.measured)
    (hregistration : agent.TakesRegistration st.server.cfg) :
    lastContact (agent.round services st turn).server agent.nodeID ∈
      [some turn.first.now, some turn.second.now] := by
  have harrival : (arrival services st turn).server.cfg.regToken = st.server.cfg.regToken :=
    regToken_run services st turn.before
  rw [← (takes_congr harrival agent).2] at hheartbeat
  by_cases hknows : Knows (arrival services st turn).server agent.nodeID
  · have hanswer : ¬ reregisters (agent.answer services st turn) = true := by
      rw [answer, reregisters_heartbeat_iff]
      exact fun h ↦ h.2 hknows
    rw [round, if_neg hanswer]
    exact List.mem_cons.mpr (Or.inl (lastContact_heartbeat hheartbeat hknows))
  · have hanswer : reregisters (agent.answer services st turn) = true := by
      rw [answer, reregisters_heartbeat_iff]
      exact ⟨hheartbeat, hknows⟩
    have htoken : (run (step services) (agent.beaten services st turn)
        turn.between).server.cfg.regToken = st.server.cfg.regToken :=
      (regToken_run services _ _).trans
        ((Controller.Authorization.access_step services _ _).1.trans harrival)
    rw [round, if_pos hanswer]
    rcases lastContact_register services agent (run (step services)
      (agent.beaten services st turn) turn.between) turn.second with ⟨-, hcontact⟩ | ⟨hrefused, -⟩
    · exact List.mem_cons.mpr (Or.inr (List.mem_singleton.mpr hcontact))
    · exact absurd ((takes_congr htoken agent).1.mpr hregistration) hrefused

/-- An agent whose first round makes it known to a server that did not know it sends what the server
takes. -/
theorem takes_of_lastContact_round {agent : Agent} {turn : Round} (hbefore : turn.before = [])
    (hbetween : turn.between = []) (hunknown : lastContact st.server agent.nodeID = none)
    (hknown : lastContact (agent.round services st turn).server agent.nodeID ≠ none) :
    agent.TakesHeartbeat st.server.cfg turn.measured ∧ agent.TakesRegistration st.server.cfg := by
  have harrival : arrival services st turn = st := by rw [arrival, hbefore, run_nil]
  have hbeaten : lastContact (agent.beaten services st turn).server agent.nodeID = none := by
    rw [beaten, harrival]
    exact lastContact_heartbeat_of_unknown hunknown
  rw [round] at hknown
  split_ifs at hknown with hanswer
  · rw [answer, reregisters_heartbeat_iff, harrival] at hanswer
    rw [hbetween, run_nil] at hknown
    have htoken : (agent.beaten services st turn).server.cfg.regToken = st.server.cfg.regToken :=
      (Controller.Authorization.access_step services _ _).1.trans (by rw [harrival])
    rcases lastContact_register services agent (agent.beaten services st turn) turn.second with
      ⟨htakes, -⟩ | ⟨-, hcontact⟩
    · exact ⟨hanswer.1, (takes_congr htoken agent).1.mp htakes⟩
    · exact absurd (hcontact.trans hbeaten) hknown
  · exact absurd hbeaten hknown

/-- An agent recovers exactly when a server with the token takes its heartbeats and its
registration. -/
theorem recovers_iff_takes (services : Services) (agent : Agent) (cfg : Config) :
    agent.Recovers services cfg.regToken ↔
      (∀ measured, agent.TakesHeartbeat cfg measured) ∧ agent.TakesRegistration cfg := by
  constructor
  · intro hrecovers
    have hfirst : ∀ measured,
        agent.TakesHeartbeat cfg measured ∧ agent.TakesRegistration cfg := by
      intro measured
      let turn : Round := ⟨[], measured, plainChance, [], plainChance⟩
      have hknown := hrecovers (.initial cfg) rfl [] turn
      have htaken : lastContact (agent.round services (.initial cfg) turn).server agent.nodeID ≠
          none := by
        intro hnone
        rw [List.nil_append, run_cons, run_nil, hnone] at hknown
        simp at hknown
      exact @takes_of_lastContact_round services (.initial cfg) agent turn rfl rfl rfl htaken
    exact ⟨fun measured ↦ (hfirst measured).1, (hfirst ⟨0, 0, 0, ""⟩).2⟩
  · rintro ⟨hheartbeats, hregistration⟩ start hstart rounds turn
    have htoken : (run (agent.round services) start rounds).server.cfg.regToken = cfg.regToken :=
      (invariant_run_of_step (agent.round services)
        (fun st turn (hst : st.server.cfg.regToken = start.server.cfg.regToken) ↦
          (regToken_round services agent st turn).trans hst) rfl rounds).trans hstart
    rw [run_append]
    exact lastContact_round
      (((takes_congr htoken agent).2 turn.measured).mpr (hheartbeats turn.measured))
      ((takes_congr htoken agent).1.mpr hregistration)

end Agent

/-! ### Configurations -/

/-- A token without blanks at its ends. -/
def IsTrimmed (token : String) : Prop :=
  String.ofList (Library.Utf8Text.trim token.toList) = token

theorem registrationRequired_iff (registration : Registration) :
    registrationRequired registration = true ↔
      registration.request.nodeID ≠ "" ∧ registration.request.publicIP ≠ "" ∧
        registration.request.port ≠ 0 ∧ registration.request.region ≠ "" ∧
          registration.request.isp ≠ "" ∧ registration.token ≠ "" := by
  simp only [registrationRequired, isGiven, Bool.and_eq_true, decide_eq_true_eq, and_assoc]

theorem exists_mem_decoded_iff {Content : Type} {bwLimit : UInt64} {content : Content}
    {Holds : Content → Prop} :
    (∃ sent ∈ decoded bwLimit content, Holds sent) ↔ bwLimit.toNat < 2 ^ 63 ∧ Holds content := by
  unfold decoded
  split_ifs with hlimit
  · rw [and_iff_right hlimit]
    constructor
    · rintro ⟨sent, hsent, hholds⟩
      rwa [Option.some.inj hsent]
    · exact fun hholds ↦ ⟨content, rfl, hholds⟩
  · refine iff_of_false ?_ fun h ↦ hlimit h.1
    rintro ⟨sent, hsent, -⟩
    exact nomatch hsent

/-- The Rust agent recovers on the servers with a registration token exactly when it has that token,
which is given and has no blanks at its ends, its id, address, port, region and provider are given
and its bandwidth limit is an `int64`. -/
theorem recovers_rust_iff (services : Services) (config : RustConfig) (regToken : String) :
    config.agent.Recovers services regToken ↔
      config.regToken = regToken ∧ regToken ≠ "" ∧ IsTrimmed regToken ∧ config.nodeId ≠ "" ∧
        config.publicIp ≠ "" ∧ config.port ≠ 0 ∧ config.region ≠ "" ∧ config.isp ≠ "" ∧
          config.bwLimit.toNat < 2 ^ 63 := by
  rw [Agent.recovers_iff_takes services config.agent { plainConfig with regToken := regToken }]
  have hport : (config.port.toNat : ℤ) ≠ 0 ↔ config.port ≠ 0 := by
    rw [Ne, Int.natCast_eq_zero, ← UInt16.toNat_zero, UInt16.toNat_inj]
  have hheartbeat : ∀ measured,
      config.agent.TakesHeartbeat { plainConfig with regToken := regToken } measured ↔
        (regToken ≠ "" ∧ String.ofList (Library.Utf8Text.trim config.regToken.toList) =
          regToken) ∧ config.bwLimit.toNat < 2 ^ 63 ∧ config.nodeId ≠ "" := fun measured ↦
    and_congr validateAgentToken_bearerAuth_iff exists_mem_decoded_iff
  have hregistration : config.agent.TakesRegistration { plainConfig with regToken := regToken } ↔
      config.bwLimit.toNat < 2 ^ 63 ∧ (config.nodeId ≠ "" ∧ config.publicIp ≠ "" ∧
        config.port ≠ 0 ∧ config.region ≠ "" ∧ config.isp ≠ "" ∧ config.regToken ≠ "") ∧
          config.regToken = regToken := by
    refine exists_mem_decoded_iff.trans (and_congr_right fun _ ↦ ?_)
    rw [registrationRequired_iff, ← hport]
    rfl
  simp only [hheartbeat, hregistration, forall_const, IsTrimmed]
  constructor
  · rintro ⟨⟨⟨hset, htrim⟩, hlimit, hid⟩, -, ⟨-, hip, hport, hregion, hisp, -⟩, rfl⟩
    exact ⟨rfl, hset, htrim, hid, hip, hport, hregion, hisp, hlimit⟩
  · rintro ⟨rfl, hset, htrim, hid, hip, hport, hregion, hisp, hlimit⟩
    exact ⟨⟨⟨hset, htrim⟩, hlimit, hid⟩, hlimit, ⟨hid, hip, hport, hregion, hisp, hset⟩, rfl⟩

/-- The token of the Go agent. -/
theorem validateAgentToken_go_iff {cfg : Config} {config : GoConfig} {currentBW : ℤ}
    {measured : Measured} :
    validateAgentToken cfg ((config.agent currentBW).heartbeat measured) = true ↔
      cfg.regToken ≠ "" ∧
        String.ofList (Library.Utf8Text.trim config.regToken.toList) = cfg.regToken := by
  by_cases hempty : config.regToken = ""
  · have hheader : (config.agent currentBW).header = fun _ ↦ "" := if_neg (not_not.mpr hempty)
    have htoken : agentToken ((config.agent currentBW).heartbeat measured) = "" := by
      rw [Agent.heartbeat, hheader]
      rfl
    unfold validateAgentToken
    dsimp only
    rw [htoken, hempty]
    by_cases hset : cfg.regToken = ""
    · rw [if_pos hset]
      exact iff_of_false Bool.false_ne_true fun h ↦ h.1 hset
    · rw [if_neg hset, decide_eq_true_iff, and_iff_right hset]
      rfl
  · have hheader : (config.agent currentBW).header = bearerAuth config.regToken := if_pos hempty
    rw [Agent.heartbeat, hheader]
    exact validateAgentToken_bearerAuth_iff

/-- The Go agent recovers on the servers with a registration token exactly when it has that token,
which is given and has no blanks at its ends, and its id, address, port, region and provider are
given. -/
theorem recovers_go_iff (services : Services) (config : GoConfig) (currentBW : ℤ)
    (regToken : String) :
    (config.agent currentBW).Recovers services regToken ↔
      config.regToken = regToken ∧ regToken ≠ "" ∧ IsTrimmed regToken ∧ config.nodeID ≠ "" ∧
        config.publicIP ≠ "" ∧ config.port ≠ 0 ∧ config.region ≠ "" ∧ config.isp ≠ "" := by
  rw [Agent.recovers_iff_takes services (config.agent currentBW)
    { plainConfig with regToken := regToken }]
  have hheartbeat : ∀ measured, (config.agent currentBW).TakesHeartbeat
      { plainConfig with regToken := regToken } measured ↔
        (regToken ≠ "" ∧ String.ofList (Library.Utf8Text.trim config.regToken.toList) =
          regToken) ∧ config.nodeID ≠ "" := fun measured ↦
    and_congr validateAgentToken_go_iff (by simp [GoConfig.agent, GoConfig.heartbeatRequest])
  have hregistration : (config.agent currentBW).TakesRegistration
      { plainConfig with regToken := regToken } ↔
        (config.nodeID ≠ "" ∧ config.publicIP ≠ "" ∧ config.port ≠ 0 ∧ config.region ≠ "" ∧
          config.isp ≠ "" ∧ config.regToken ≠ "") ∧ config.regToken = regToken := by
    simp only [Agent.TakesRegistration, GoConfig.agent, Option.mem_some_iff, exists_eq_left',
      registrationRequired_iff]
    rfl
  simp only [hheartbeat, hregistration, forall_const, IsTrimmed]
  constructor
  · rintro ⟨⟨⟨hset, htrim⟩, hid⟩, ⟨-, hip, hport, hregion, hisp, -⟩, rfl⟩
    exact ⟨rfl, hset, htrim, hid, hip, hport, hregion, hisp⟩
  · rintro ⟨rfl, hset, htrim, hid, hip, hport, hregion, hisp⟩
    exact ⟨⟨⟨hset, htrim⟩, hid⟩, ⟨hid, hip, hport, hregion, hisp, hset⟩, rfl⟩

end LiveCDN.System.AgentRounds
