import LiveCDN.Controller.ServerRun

/-!
# Credentials and effects of the handlers

The credentials that the handlers of `controller/server.go` ask for, and what each handler does to
the streams, the nodes and the keys of streams. Each compares in its own way: `handleRegister` and
`handleStreamStart` a field of the body that the binding requires, `validateAgentToken` the first of
three places with a token that may not be empty, `handleStreamStop` a query parameter and
`authAdmin` a header with the configured token. The last two do not ask whether the configured token
is empty.

`Handling` lists what serving a request can come to, and every request comes to one of these
(`handling_serve`).
-/

set_option autoImplicit false
set_option relaxedAutoImplicit false

namespace LiveCDN.Controller.HandlerEffects

open Library.KeyedTable NodeStore StreamStore Scheduling HttpServer Handlers AdminHandlers ServerRun

open LatencyControl (slicePanics)

/-! ### Credentials and protected effects -/

/-- The credentials in the body of a request. -/
def bodyCredentials : Route → List String
  | .register (some registration) => [registration.token]
  | .dispatch (some req) => [req.token]
  | .streamStart (some req) => [req.accessToken]
  | _ => []

/-- The credentials a request presents: in its headers, its query and its body. -/
def credentials (request : Request) : List String :=
  request.header "X-LiveCDN-Token" :: request.query "token" :: request.query "access_token" ::
    ((bearer request).toList.flatMap fun behind ↦
      [String.ofList behind, String.ofList (Library.Utf8Text.trim behind)]) ++
        bodyCredentials request.route

/-- The request presents a configured token, which is not empty. -/
def Presents (request : Request) (token : String) : Prop :=
  token ≠ "" ∧ token ∈ credentials request

/-- The reply says that a stream was started. -/
def starts : Reply → Bool
  | .ok (.started _) => true
  | _ => false

/-- The reply says that a node was registered or its heartbeat taken. -/
def acknowledges : Reply → Bool
  | .ok (.registered ..) => true
  | .ok (.heartbeat _) => true
  | _ => false

/-- The streams whose encryption keys are in a reply. -/
def releases : Reply → List String
  | .ok (.stream info) => [info.streamKey]
  | .ok (.streams infos) => infos.map StreamInfo.streamKey
  | .ok (.dispatched response) => [response.keyOf]
  | .ok (.key response) => [response.keyOf]
  | _ => []

/-- A stream is live, by its key. -/
def isLive (server : Server) (key : String) : Option Bool :=
  (getStream server.streams key).map StreamInfo.isLive

/-- A stream is created or ended. -/
def TouchesStreams (server : Server) (served : Server × Reply) : Prop :=
  (∃ key, isLive served.1 key ≠ isLive server key) ∨ starts served.2 = true

/-- A node is registered or heartbeats. -/
def Enrolls (server : Server) (served : Server × Reply) : Prop :=
  (∃ id, server.scheduler.store.getNode id = none ∧
    served.1.scheduler.store.getNode id ≠ none) ∨ acknowledges served.2 = true

/-! ### Requests without a protected effect -/

/-- The reply tells of no protected effect. -/
structure Plain (reply : Reply) : Prop where
  starts : starts reply = false
  acknowledges : acknowledges reply = false
  releases : releases reply = []

/-- The viewer tokens and the tokens of the configuration are the same. -/
structure SameTokens (before after : Server) : Prop where
  tokens : after.tokens = before.tokens
  regToken : after.cfg.regToken = before.cfg.regToken
  adminToken : after.cfg.adminToken = before.cfg.adminToken

/-- No node is there that was not there before. -/
def NoNewNode (before after : Server) : Prop :=
  ∀ id, before.scheduler.store.getNode id = none → after.scheduler.store.getNode id = none

/-- The request has no protected effect. -/
structure Quiet (server : Server) (served : Server × Reply) : Prop where
  same : SameTokens server served.1
  streams : served.1.streams = server.streams
  nodes : NoNewNode server served.1
  plain : Plain served.2

theorem sameTokens_refl (server : Server) : SameTokens server server := ⟨rfl, rfl, rfl⟩

theorem plain_error (status : ℕ) (message : String) : Plain (.error status message) :=
  ⟨rfl, rfl, rfl⟩

theorem plain_badRequest : Plain .badRequest := ⟨rfl, rfl, rfl⟩

theorem plain_recovered : Plain .recovered := ⟨rfl, rfl, rfl⟩

theorem plain_status (text : String) : Plain (.ok (.status text)) := ⟨rfl, rfl, rfl⟩

/-- A request that leaves the server alone is quiet. Assumes: its reply is plain. -/
theorem quiet_refused (server : Server) {reply : Reply} (hreply : Plain reply) :
    Quiet server (server, reply) :=
  ⟨sameTokens_refl server, rfl, fun _ hnone ↦ hnone, hreply⟩

theorem not_touchesStreams {server : Server} {served : Server × Reply}
    (hstreams : served.1.streams = server.streams) (hstarts : starts served.2 = false) :
    ¬ TouchesStreams server served := by
  rintro (⟨key, hkey⟩ | hstarted)
  · apply hkey
    rw [isLive, hstreams, isLive]
  · exact Bool.false_ne_true (hstarts.symm.trans hstarted)

theorem not_enrolls {server : Server} {served : Server × Reply}
    (hnodes : NoNewNode server served.1) (hreply : acknowledges served.2 = false) :
    ¬ Enrolls server served := by
  rintro (⟨id, hnone, hsome⟩ | hacknowledged)
  · exact hsome (hnodes id hnone)
  · exact Bool.false_ne_true (hreply.symm.trans hacknowledged)

/-! ### Agents and players -/

variable {server : Server}

theorem plain_handleOnPublish (body : Option String) : Plain (handleOnPublish server body) := by
  unfold handleOnPublish
  split
  · exact ⟨rfl, rfl, rfl⟩
  · split
    · exact ⟨rfl, rfl, rfl⟩
    · split_ifs <;> exact ⟨rfl, rfl, rfl⟩

/-- A body that is bound was sent, with its required fields. -/
theorem shouldBindJSON_eq_some {Content : Type} {required : Content → Bool}
    {body : Option Content} {content : Content}
    (hbound : shouldBindJSON required body = some content) :
    body = some content ∧ required content = true :=
  Option.filter_eq_some_iff.mp hbound

/-- A registration is refused, or the body has the token of the configuration. -/
theorem handleRegister_cases (chance : Chance) (body : Option Registration) :
    Quiet server (handleRegister server chance body) ∨
      (∃ registration, body = some registration ∧ registration.token = server.cfg.regToken ∧
        registration.token ≠ "") ∧
      SameTokens server (handleRegister server chance body).1 ∧
        (handleRegister server chance body).1.streams = server.streams ∧
          starts (handleRegister server chance body).2 = false ∧
            releases (handleRegister server chance body).2 = [] := by
  unfold handleRegister
  cases hbound : shouldBindJSON registrationRequired body with
  | none => exact Or.inl (quiet_refused server plain_badRequest)
  | some registration =>
    obtain ⟨hbody, hrequired⟩ := shouldBindJSON_eq_some hbound
    dsimp only
    by_cases htoken : registration.token ≠ server.cfg.regToken
    · rw [if_pos htoken]
      exact Or.inl (quiet_refused server (plain_error 403 _))
    · rw [if_neg htoken]
      have hgiven : isGiven registration.token = true := (Bool.and_eq_true_iff.mp hrequired).2
      exact Or.inr ⟨⟨registration, hbody, not_not.mp htoken, of_decide_eq_true hgiven⟩,
        ⟨rfl, rfl, rfl⟩, rfl, rfl, rfl⟩

/-- A heartbeat is refused, or its token is valid. -/
theorem handleHeartbeat_cases (chance : Chance) (request : Request)
    (body : Option HeartbeatRequest) :
    Quiet server (handleHeartbeat server chance request body) ∨
      validateAgentToken server.cfg request = true ∧
      SameTokens server (handleHeartbeat server chance request body).1 ∧
        (handleHeartbeat server chance request body).1.streams = server.streams ∧
          starts (handleHeartbeat server chance request body).2 = false ∧
            releases (handleHeartbeat server chance request body).2 = [] := by
  unfold handleHeartbeat
  cases hvalid : validateAgentToken server.cfg request with
  | false => exact Or.inl (quiet_refused server (plain_error 403 _))
  | true =>
    rw [if_neg (by decide)]
    split
    · exact Or.inl (quiet_refused server plain_badRequest)
    · split
      · exact Or.inl (quiet_refused server (plain_error 404 _))
      · exact Or.inr ⟨rfl, ⟨rfl, rfl, rfl⟩, rfl, rfl, rfl⟩

/-- A stream is refused to an agent, or the token is valid. -/
theorem handleAgentGetStream_cases (request : Request) (streamKey : String) :
    Plain (handleAgentGetStream server request streamKey) ∨
      validateAgentToken server.cfg request = true ∧
        ∃ info, handleAgentGetStream server request streamKey = .ok (.stream info) := by
  unfold handleAgentGetStream
  cases hvalid : validateAgentToken server.cfg request with
  | false => exact Or.inl (plain_error 403 _)
  | true =>
    rw [if_neg (by decide)]
    split
    · exact Or.inl (plain_error 404 _)
    · next info _ =>
      split_ifs
      · exact Or.inl (plain_error 404 _)
      · exact Or.inr ⟨rfl, info, rfl⟩

/-- A dispatch touches no nodes. -/
theorem store_dispatch (s : Scheduler) (lookup : String → String × String) (outcome : Outcome)
    (now : ℕ) (clientIP clientRegion clientISP : String) :
    (s.dispatch lookup outcome now clientIP clientRegion clientISP).2.store = s.store := by
  unfold Scheduler.dispatch
  dsimp only
  split_ifs
  · rfl
  all_goals
    split
    · rfl
    · split <;> rfl

/-- What `dispatchStream` does to the protected parts, and the key it sends. -/
theorem dispatchStream_cases (services : Services) (chance : Chance) (stream : StreamInfo)
    (streamKey clientIP : String) :
    Quiet server (dispatchStream server services chance stream streamKey clientIP) ∨
      Quiet server ((dispatchStream server services chance stream streamKey clientIP).1,
          .recovered) ∧
        ∃ response, (dispatchStream server services chance stream streamKey clientIP).2 =
          .ok (.dispatched response) ∧ response.keyOf = stream.streamKey := by
  have hstore := store_dispatch server.scheduler services.lookup chance.outcome chance.now clientIP
    "" ""
  have hquiet : ∀ (sessions : Table SessionInfo.sessionID) {reply : Reply}, Plain reply →
      Quiet server ({ server with
        scheduler := (server.scheduler.dispatch services.lookup chance.outcome chance.now clientIP
          "" "").2
        sessions := sessions }, reply) := by
    intro sessions reply hreply
    refine ⟨⟨rfl, rfl, rfl⟩, rfl, fun id hnone ↦ ?_, hreply⟩
    show (server.scheduler.dispatch services.lookup chance.outcome chance.now clientIP "" ""
      ).2.store.getNode id = none
    rw [hstore]
    exact hnone
  unfold dispatchStream
  dsimp only
  split
  · by_cases hslice : slicePanics streamKey = true
    · rw [if_pos hslice]
      exact Or.inl (hquiet _ plain_recovered)
    · rw [if_neg hslice]
      exact Or.inl (hquiet _ (plain_error 503 _))
  · by_cases hslice : slicePanics streamKey = true
    · rw [if_pos hslice]
      exact Or.inl (hquiet _ plain_recovered)
    · rw [if_neg hslice]
      exact Or.inr ⟨hquiet _ plain_recovered, _, rfl, rfl⟩

/-- A dispatch is refused, or the viewer token in the body is one for the stream whose key is
sent. -/
theorem handleDispatch_cases (services : Services) (chance : Chance)
    (body : Option DispatchRequest) :
    Quiet server (handleDispatch server services chance body) ∨
      Quiet server ((handleDispatch server services chance body).1, .recovered) ∧
        ∃ req response, body = some req ∧
          (handleDispatch server services chance body).2 = .ok (.dispatched response) ∧
            server.mem.validateToken req.token = some response.keyOf := by
  unfold handleDispatch
  cases hbound : shouldBindJSON (fun req : DispatchRequest ↦
      isGiven req.streamKey && isGiven req.token) body with
  | none => exact Or.inl (quiet_refused server plain_badRequest)
  | some req =>
    obtain ⟨hbody, -⟩ := shouldBindJSON_eq_some hbound
    dsimp only
    by_cases htoken : server.mem.validateToken req.token ≠ some req.streamKey
    · rw [if_pos htoken]
      split_ifs
      · exact Or.inl (quiet_refused server plain_recovered)
      · exact Or.inl (quiet_refused server (plain_error 403 _))
    · rw [if_neg htoken]
      cases hstream : getStream server.streams req.streamKey with
      | none => exact Or.inl (quiet_refused server (plain_error 404 _))
      | some stream =>
        have hkey : stream.streamKey = req.streamKey := Table.key_of_find? hstream
        dsimp only
        split_ifs
        · exact Or.inl (quiet_refused server (plain_error 404 _))
        · exact Or.inl (quiet_refused server (plain_error 503 _))
        · rcases dispatchStream_cases services chance stream req.streamKey req.clientIP with
            hquiet | ⟨hquiet, response, hreply, hkeyOf⟩
          · exact Or.inl hquiet
          · refine Or.inr ⟨hquiet, req, response, hbody, hreply, ?_⟩
            rw [hkeyOf, hkey]
            exact not_not.mp htoken

/-- A quality report has no protected effect. -/
theorem quiet_handleQualityReport (chance : Chance) (body : Option QualityReport) :
    Quiet server (handleQualityReport server chance body) := by
  unfold handleQualityReport
  cases body with
  | none => exact quiet_refused server plain_badRequest
  | some report =>
    dsimp only
    by_cases hempty : report.sessionID = ""
    · rw [if_pos hempty]
      exact quiet_refused server (plain_error 400 _)
    · rw [if_neg hempty]
      unfold Server.touchSession
      cases server.sessions.find? report.sessionID with
      | none => exact quiet_refused server (plain_error 404 _)
      | some session =>
        have hnodes : ∀ id, server.scheduler.store.getNode id = none →
            (recordQuality server.scheduler chance.now report).store.getNode id = none := by
          intro id hnone
          have hsome := isSome_getNode_recordQuality server.scheduler chance.now report id
          rw [hnone, Option.isSome_none] at hsome
          exact Option.isNone_iff_eq_none.mp (by simpa using hsome)
        dsimp only
        rw [if_neg (by decide)]
        split
        · exact ⟨⟨rfl, rfl, rfl⟩, rfl, hnodes, plain_recovered⟩
        · exact ⟨⟨rfl, rfl, rfl⟩, rfl, hnodes, rfl, rfl, rfl⟩

theorem quiet_handleEndSession (body : Option String) :
    Quiet server (handleEndSession server body) := by
  unfold handleEndSession
  split
  · exact quiet_refused server plain_badRequest
  · exact ⟨⟨rfl, rfl, rfl⟩, rfl, fun _ hnone ↦ hnone, plain_status _⟩

/-- A key is refused, or the viewer token in the query is one for the stream whose key is sent. -/
theorem handleGetKey_cases (services : Services) (chance : Chance) (request : Request) :
    Plain (handleGetKey server services chance request) ∨
      ∃ response, handleGetKey server services chance request = .ok (.key response) ∧
        server.mem.validateToken (request.query "token") = some response.keyOf := by
  unfold handleGetKey
  dsimp only
  split_ifs
  · exact Or.inl (plain_error 400 _)
  · cases hcheck : checkSignature server.cfg services chance.now (request.query "session_id")
      (request.query "ts") (request.query "sig") with
    | some refusal =>
      left
      unfold checkSignature at hcheck
      split_ifs at hcheck with _ hsign
      · rw [← Option.some_inj.mp hcheck]
        exact plain_error 403 _
      · split at hcheck
        · split_ifs at hcheck
          rw [← Option.some_inj.mp hcheck]
          exact plain_error 403 _
        · exact absurd hcheck.symm (Option.some_ne_none refusal)
    | none =>
      cases server.sessions.find? (request.query "session_id") with
      | none => exact Or.inl (plain_error 404 _)
      | some session =>
        dsimp only
        by_cases htoken : server.mem.validateToken (request.query "token") ≠
            some session.streamKey
        · rw [if_pos htoken]
          exact Or.inl (plain_error 403 _)
        · rw [if_neg htoken]
          cases hstream : getStream server.streams session.streamKey with
          | none => exact Or.inl (plain_error 404 _)
          | some stream =>
            refine Or.inr ⟨_, rfl, ?_⟩
            rw [not_not.mp htoken]
            exact congrArg some (Table.key_of_find? hstream).symm

/-! ### Broadcasters -/

/-- A stream is not started, or the reply has the viewer token that was set for it. -/
theorem startStream_cases (server : Server) (chance : Chance) (req : StreamStartRequest) :
    Quiet server (startStream server chance req) ∨
      ∃ response, (startStream server chance req).2 = .ok (.started response) ∧
        (startStream server chance req).1.tokens =
          server.tokens.put (response.viewerToken, response.streamKey) ∧
        (startStream server chance req).1.cfg = server.cfg ∧
        (startStream server chance req).1.scheduler = server.scheduler := by
  unfold startStream
  split
  · exact Or.inl (quiet_refused server (plain_error 500 _))
  · split
    · exact Or.inl (quiet_refused server (plain_error 500 _))
    · exact Or.inr ⟨_, rfl, rfl, rfl, rfl⟩

/-- A start is refused, or the body has the admin token, which is not empty. -/
theorem handleStreamStart_cases (chance : Chance) (body : Option StreamStartRequest) :
    Quiet server (handleStreamStart server chance body) ∨
      ∃ req, body = some req ∧ req.accessToken = server.cfg.adminToken ∧ req.accessToken ≠ "" ∧
        handleStreamStart server chance body = startStream server chance req := by
  unfold handleStreamStart
  cases hbound : shouldBindJSON streamStartRequired body with
  | none => exact Or.inl (quiet_refused server plain_badRequest)
  | some req =>
    obtain ⟨hbody, hrequired⟩ := shouldBindJSON_eq_some hbound
    dsimp only
    by_cases htoken : req.accessToken ≠ server.cfg.adminToken
    · rw [if_pos htoken]
      exact Or.inl (quiet_refused server (plain_error 403 _))
    · rw [if_neg htoken]
      have hgiven : isGiven req.accessToken = true := (Bool.and_eq_true_iff.mp hrequired).2
      exact Or.inr ⟨req, hbody, not_not.mp htoken, of_decide_eq_true hgiven, rfl⟩

/-- What ending a stream does to the protected parts. -/
theorem stopStream_spec (server : Server) (streamKey : String) :
    SameTokens server (stopStream server streamKey).1 ∧
      (stopStream server streamKey).1.streams = endStream server.streams streamKey ∧
        (stopStream server streamKey).1.scheduler = server.scheduler ∧
          Plain (stopStream server streamKey).2 := by
  unfold stopStream
  dsimp only
  split_ifs
  · exact ⟨⟨rfl, rfl, rfl⟩, rfl, rfl, plain_recovered⟩
  · exact ⟨⟨rfl, rfl, rfl⟩, rfl, rfl, plain_status _⟩

/-- Ending a stream touches its liveness only, and only if it is live. -/
theorem isLive_endStream (streams : Table StreamInfo.streamKey) (ended key : String) :
    (getStream (endStream streams ended) key).map StreamInfo.isLive =
      if key = ended then (getStream streams key).map fun _ ↦ false
      else (getStream streams key).map StreamInfo.isLive := by
  have hended : getStream (endStream streams ended) key =
      if key = ended then (getStream streams key).map fun info ↦ { info with isLive := false }
      else getStream streams key := by
    refine Eq.trans ?_ (Table.find?_rewrite streams (fun info ↦ { info with isLive := false })
      (fun _ ↦ rfl) ended key)
    unfold endStream
    cases streams.find? ended with
    | none => rfl
    | some info => rfl
  rw [hended]
  split_ifs
  · rw [Option.map_map]
    rfl
  · rfl

/-- A stop touches the streams exactly when it names a live one. -/
theorem touchesStreams_stopStream_iff (streamKey : String) :
    TouchesStreams server (stopStream server streamKey) ↔
      isLive server streamKey = some true := by
  obtain ⟨-, hstreams, -, hplain⟩ := stopStream_spec server streamKey
  have hlive : ∀ key, isLive (stopStream server streamKey).1 key =
      if key = streamKey then (getStream server.streams key).map fun _ ↦ false
      else isLive server key := by
    intro key
    rw [isLive, hstreams, isLive_endStream]
    rfl
  constructor
  · rintro (⟨key, hkey⟩ | hstarted)
    · rw [hlive] at hkey
      by_cases hsame : key = streamKey
      · subst hsame
        rw [if_pos rfl] at hkey
        unfold isLive at hkey ⊢
        cases hfound : getStream server.streams key with
        | none =>
          rw [hfound] at hkey
          exact absurd rfl hkey
        | some info =>
          rw [hfound] at hkey
          simpa using hkey
      · rw [if_neg hsame] at hkey
        exact absurd rfl hkey
    · exact absurd (hplain.starts.symm.trans hstarted) Bool.false_ne_true
  · intro hstream
    refine Or.inl ⟨streamKey, ?_⟩
    rw [hlive, if_pos rfl, hstream]
    unfold isLive at hstream
    obtain ⟨info, hinfo, -⟩ := Option.map_eq_some_iff.mp hstream
    rw [hinfo, Option.map_some]
    decide

/-! ### Admins -/

/-- What no admin handler does: it changes no configured token, adds no node and gives no reply of
the agents or of `authAdmin`. The viewer tokens are those a start sets. -/
structure AdminSpec (server : Server) (served : Server × Reply) : Prop where
  regToken : served.1.cfg.regToken = server.cfg.regToken
  adminToken : served.1.cfg.adminToken = server.cfg.adminToken
  nodes : NoNewNode server served.1
  acknowledges : acknowledges served.2 = false
  authorized : served.2 ≠ .error 401 "unauthorized"
  tokens : served.1.tokens = server.tokens ∧ starts served.2 = false ∨
    ∃ response, served.2 = .ok (.started response) ∧
      served.1.tokens = server.tokens.put (response.viewerToken, response.streamKey)

/-- A handler that starts no stream and adds no node. Assumes: it keeps the tokens, and its reply is
one of an admin handler. -/
theorem adminSpec_of_same {served : Server × Reply} (hsame : SameTokens server served.1)
    (hnodes : NoNewNode server served.1) (hacknowledges : acknowledges served.2 = false)
    (hstarts : starts served.2 = false) (hreply : served.2 ≠ .error 401 "unauthorized") :
    AdminSpec server served :=
  ⟨hsame.regToken, hsame.adminToken, hnodes, hacknowledges, hreply, Or.inl ⟨hsame.tokens, hstarts⟩⟩

/-- A handler that leaves the server alone. Assumes: its reply is one of an admin handler. -/
theorem adminSpec_of_reply {reply : Reply} (hacknowledges : acknowledges reply = false)
    (hstarts : starts reply = false) (hreply : reply ≠ .error 401 "unauthorized") :
    AdminSpec server (server, reply) :=
  adminSpec_of_same (sameTokens_refl server) (fun _ hnone ↦ hnone) hacknowledges hstarts hreply

theorem adminSpec_error {status : ℕ} (hstatus : status ≠ 401) (message : String) :
    AdminSpec server (server, .error status message) :=
  adminSpec_of_reply rfl rfl fun heq ↦ hstatus (Reply.error.inj heq).1

theorem adminSpec_badRequest : AdminSpec server (server, .badRequest) :=
  adminSpec_of_reply rfl rfl (by simp)

theorem noNewNode_setNodeStatus (nodeID : String) (status : NodeStatus) :
    NoNewNode server (server.withStore (server.scheduler.store.setNodeStatus nodeID status).1) := by
  intro id hnone
  refine (MemoryStore.find?_setNodeStatus server.scheduler.store nodeID status id).trans ?_
  have hfound : server.scheduler.store.nodes.find? id = none := hnone
  rw [hfound]
  split_ifs <;> rfl

theorem adminSpec_handleRemoveNode (nodeID : String) :
    AdminSpec server (handleRemoveNode server nodeID) := by
  unfold handleRemoveNode
  dsimp only
  split_ifs
  · refine adminSpec_of_same ⟨rfl, rfl, rfl⟩ (fun id hnone ↦ ?_) rfl rfl (by simp)
    refine (MemoryStore.find?_removeNode server.scheduler.store nodeID id).trans ?_
    split_ifs
    · rfl
    · exact hnone
  · exact adminSpec_error (by decide) _

theorem adminSpec_handleSetNodeStatus (nodeID : String) (body : Option String) :
    AdminSpec server (handleSetNodeStatus server nodeID body) := by
  unfold handleSetNodeStatus
  split
  · exact adminSpec_badRequest
  · split
    · exact adminSpec_error (by decide) _
    · next status _ =>
      dsimp only
      split_ifs
      · exact adminSpec_of_same ⟨rfl, rfl, rfl⟩ (noNewNode_setNodeStatus nodeID status) rfl rfl
          (by simp)
      · exact adminSpec_error (by decide) _

theorem adminSpec_handleApproveNode (nodeID : String) :
    AdminSpec server (handleApproveNode server nodeID) := by
  unfold handleApproveNode NodeAdmission.handleApproveNode
  dsimp only
  cases server.scheduler.store.getNode nodeID with
  | none => exact adminSpec_error (by decide) _
  | some node =>
    dsimp only
    by_cases hpending : node.status ≠ .pending
    · rw [if_pos hpending]
      exact adminSpec_error (by decide) _
    · rw [if_neg hpending]
      exact adminSpec_of_same ⟨rfl, rfl, rfl⟩ (noNewNode_setNodeStatus nodeID .online) rfl rfl
        (by simp)

theorem adminSpec_handleAdminStreamStart (chance : Chance) (body : Option StreamStartRequest) :
    AdminSpec server (handleAdminStreamStart server chance body) := by
  unfold handleAdminStreamStart
  split
  · exact adminSpec_badRequest
  · unfold startStream
    split
    · exact adminSpec_error (by decide) _
    · split
      · exact adminSpec_error (by decide) _
      · exact ⟨rfl, rfl, fun _ hnone ↦ hnone, rfl, by simp, Or.inr ⟨_, rfl, rfl⟩⟩

theorem adminSpec_handleAdminStreamStop (body : Option String) :
    AdminSpec server (handleAdminStreamStop server body) := by
  unfold handleAdminStreamStop
  split
  · exact adminSpec_badRequest
  · unfold stopStream
    dsimp only
    split_ifs
    · exact adminSpec_of_same ⟨rfl, rfl, rfl⟩ (fun _ hnone ↦ hnone) rfl rfl (by simp)
    · exact adminSpec_of_same ⟨rfl, rfl, rfl⟩ (fun _ hnone ↦ hnone) rfl rfl (by simp)

theorem adminSpec_handleSetLatencyMode (streamKey : String) (body : Option String) :
    AdminSpec server (handleSetLatencyMode server streamKey body) := by
  unfold handleSetLatencyMode
  split
  · exact adminSpec_badRequest
  · next mode _ =>
    by_cases hmode : mode ≠ latencyUltra ∧ mode ≠ latencyStandard ∧ mode ≠ latencyResilient
    · rw [if_pos hmode]
      exact adminSpec_error (by decide) _
    · rw [if_neg hmode]
      split
      · exact adminSpec_error (by decide) _
      · dsimp only
        split_ifs
        · exact adminSpec_error (by decide) _
        · exact adminSpec_of_same ⟨rfl, rfl, rfl⟩ (fun _ hnone ↦ hnone) rfl rfl (by simp)
        · exact adminSpec_of_same ⟨rfl, rfl, rfl⟩ (fun _ hnone ↦ hnone) rfl rfl (by simp)

theorem adminSpec_handleAddDomain (body : Option String) :
    AdminSpec server (handleAddDomain server body) := by
  unfold handleAddDomain
  split
  · exact adminSpec_error (by decide) _
  · exact adminSpec_of_same ⟨rfl, rfl, rfl⟩ (fun _ hnone ↦ hnone) rfl rfl (by simp)

theorem adminSpec_handleSwitchDomain (body : Option String) :
    AdminSpec server (handleSwitchDomain server body) := by
  unfold handleSwitchDomain
  split
  · exact adminSpec_error (by decide) _
  · split
    · exact adminSpec_of_reply rfl rfl (by simp)
    · exact adminSpec_of_same ⟨rfl, rfl, rfl⟩ (fun _ hnone ↦ hnone) rfl rfl (by simp)

/-- A configuration update changes the timeout for nodes only. -/
theorem foldl_applyUpdate (updates : List (String × Option ℤ)) (updated : Server × List String) :
    SameTokens updated.1 (updates.foldl applyUpdate updated).1 ∧
      (updates.foldl applyUpdate updated).1.scheduler = updated.1.scheduler := by
  obtain ⟨timeout, hupdated⟩ := exists_foldl_applyUpdate updates updated
  rw [hupdated]
  exact ⟨⟨rfl, rfl, rfl⟩, rfl⟩

theorem adminSpec_handleConfigUpdate (body : Option (List (String × Option ℤ))) :
    AdminSpec server (handleConfigUpdate server body) := by
  unfold handleConfigUpdate
  split
  · exact adminSpec_error (by decide) _
  · next updates =>
    obtain ⟨hsame, hscheduler⟩ := foldl_applyUpdate updates (server, [])
    refine adminSpec_of_same hsame (fun id hnone ↦ ?_) rfl rfl (by simp)
    show (updates.foldl applyUpdate (server, [])).1.scheduler.store.getNode id = none
    rw [hscheduler]
    exact hnone

theorem adminSpec_handleAdmin (chance : Chance) (route : AdminRoute) :
    AdminSpec server (handleAdmin server chance route) := by
  cases route with
  | removeNode id => exact adminSpec_handleRemoveNode id
  | setNodeStatus id body => exact adminSpec_handleSetNodeStatus id body
  | streamStart body => exact adminSpec_handleAdminStreamStart chance body
  | streamStop body => exact adminSpec_handleAdminStreamStop body
  | triggerKeyRotation =>
    exact adminSpec_of_same ⟨rfl, rfl, rfl⟩ (fun _ hnone ↦ hnone) rfl rfl (by simp [handleAdmin])
  | setLatencyMode key body => exact adminSpec_handleSetLatencyMode key body
  | approveNode id => exact adminSpec_handleApproveNode id
  | addDomain body => exact adminSpec_handleAddDomain body
  | removeDomain domain =>
    exact adminSpec_of_same ⟨rfl, rfl, rfl⟩ (fun _ hnone ↦ hnone) rfl rfl
      (by simp [handleAdmin, handleRemoveDomain])
  | switchDomain body => exact adminSpec_handleSwitchDomain body
  | configUpdate body => exact adminSpec_handleConfigUpdate body
  | listDomains => exact adminSpec_of_reply rfl rfl (by simp [handleListDomains])
  | _ => exact adminSpec_of_reply rfl rfl (by simp)

/-! ### Presented tokens -/

/-- A valid agent token is presented, and not empty. Assumes: it is valid. -/
theorem presents_of_valid {cfg : Config} {request : Request}
    (hvalid : validateAgentToken cfg request = true) : Presents request cfg.regToken := by
  unfold validateAgentToken at hvalid
  dsimp only at hvalid
  split_ifs at hvalid with hempty
  refine ⟨hempty, ?_⟩
  rw [← of_decide_eq_true hvalid]
  unfold agentToken credentials
  cases bearer request with
  | none =>
    dsimp only
    split_ifs <;> simp
  | some behind =>
    dsimp only
    split_ifs <;> simp

/-- The header that `authAdmin` asks for presents the admin token. Assumes: it is that header. -/
theorem mem_credentials_of_authAdmin {cfg : Config} {request : Request}
    (hauth : authAdmin cfg request = true) : cfg.adminToken ∈ credentials request := by
  have hheader : request.header "Authorization" = "Bearer " ++ cfg.adminToken :=
    of_decide_eq_true hauth
  have hbearer : bearer request = some cfg.adminToken.toList := by
    have hlength : "Bearer ".length = "Bearer ".toList.length := by decide
    unfold bearer
    rw [hheader, String.toList_append]
    dsimp only
    rw [if_pos (List.isPrefixOf_iff_prefix.mpr (List.prefix_append _ _)), hlength,
      List.drop_left]
  simp [credentials, hbearer]

/-! ### Every request -/

/-- What serving a request comes to: it has no protected effect, enrolls a node with the token of
the agents, releases keys to a viewer or an agent, starts a stream or stops one with the admin
token, or is one of an admin, let through or not. -/
inductive Handling (server : Server) (chance : Chance) (request : Request)
    (served : Server × Reply) : Prop
  | quiet (hroute : ∀ route, request.route ≠ .admin route) (hquiet : Quiet server served)
  | enrolled (hroute : ∀ route, request.route ≠ .admin route)
      (hpresents : Presents request server.cfg.regToken) (hsame : SameTokens server served.1)
      (hstreams : served.1.streams = server.streams) (hstarts : starts served.2 = false)
      (hreleases : releases served.2 = [])
  | released (hroute : ∀ route, request.route ≠ .admin route)
      (hrest : Quiet server (served.1, .recovered)) (hstarts : starts served.2 = false)
      (hacknowledges : acknowledges served.2 = false)
      (hkeys : ∀ key ∈ releases served.2, (∃ token ∈ credentials request,
        server.mem.validateToken token = some key) ∨ Presents request server.cfg.regToken)
  | started (hroute : ∀ route, request.route ≠ .admin route)
      (hpresents : Presents request server.cfg.adminToken) (req : StreamStartRequest)
      (hserved : served = startStream server chance req)
  | stopped (hroute : request.route = .streamStop)
      (htoken : request.query "access_token" = server.cfg.adminToken)
      (hserved : served = stopStream server (request.query "stream_key"))
  | admitted (route : AdminRoute) (hroute : request.route = .admin route)
      (hauth : authAdmin server.cfg request = true) (hspec : AdminSpec server served)
  | unauthorized (hauth : authAdmin server.cfg request = false)
      (hserved : served = (server, .error 401 "unauthorized"))

/-- A reply that releases nothing else. Assumes: it is the answer to a request of an agent or a
player that leaves the server alone. -/
theorem handling_of_plain {chance : Chance} {request : Request} {reply : Reply}
    (hroute : ∀ route, request.route ≠ .admin route) (hplain : Plain reply) :
    Handling server chance request (server, reply) :=
  .quiet hroute (quiet_refused server hplain)

/-- A reply that releases one key to a viewer. Assumes: the request presents a viewer token that
validates for that key. -/
theorem handling_of_viewer {chance : Chance} {request : Request} {served : Server × Reply}
    {body : Body} {token key : String} (hroute : ∀ route, request.route ≠ .admin route)
    (hrest : Quiet server (served.1, .recovered)) (hreply : served.2 = .ok body)
    (hstarts : starts (.ok body) = false) (hacknowledges : acknowledges (.ok body) = false)
    (hreleases : releases (.ok body) = [key]) (htoken : token ∈ credentials request)
    (hvalid : server.mem.validateToken token = some key) :
    Handling server chance request served := by
  rw [← hreply] at hstarts hacknowledges hreleases
  refine .released hroute hrest hstarts hacknowledges fun released hreleased ↦ ?_
  rw [hreleases] at hreleased
  rw [List.mem_singleton.mp hreleased]
  exact Or.inl ⟨token, htoken, hvalid⟩

/-- Every request comes to one of these. -/
theorem handling_serve (services : Services) (server : Server) (chance : Chance)
    (request : Request) :
    Handling server chance request (serve services server chance request) := by
  obtain ⟨route, header, query⟩ := request
  cases route with
  | onPublish body => exact handling_of_plain (by simp) (plain_handleOnPublish body)
  | onUnpublish body => exact handling_of_plain (by simp) ⟨rfl, rfl, rfl⟩
  | register body =>
    rcases handleRegister_cases chance body with
      hquiet | ⟨⟨registration, rfl, htoken, hgiven⟩, hsame, hstreams, hstarts, hreleases⟩
    · exact .quiet (by simp) hquiet
    · refine .enrolled (by simp) ⟨?_, ?_⟩ hsame hstreams hstarts hreleases
      · rw [← htoken]
        exact hgiven
      · rw [← htoken]
        simp [credentials, bodyCredentials]
  | heartbeat body =>
    rcases handleHeartbeat_cases chance ⟨.heartbeat body, header, query⟩ body with
      hquiet | ⟨hvalid, hsame, hstreams, hstarts, hreleases⟩
    · exact .quiet (by simp) hquiet
    · exact .enrolled (by simp) (presents_of_valid hvalid) hsame hstreams hstarts hreleases
  | agentGetStream key =>
    rcases handleAgentGetStream_cases ⟨.agentGetStream key, header, query⟩ key with
      hplain | ⟨hvalid, info, hreply⟩
    · exact handling_of_plain (by simp) hplain
    · refine .released (by simp) (quiet_refused server plain_recovered) ?_ ?_ fun _ _ ↦
        Or.inr (presents_of_valid hvalid)
      · exact (congrArg starts hreply).trans rfl
      · exact (congrArg acknowledges hreply).trans rfl
  | dispatch body =>
    rcases handleDispatch_cases services chance body with
      hquiet | ⟨hrest, req, response, rfl, hreply, hvalid⟩
    · exact .quiet (by simp) hquiet
    · exact handling_of_viewer (by simp) hrest hreply rfl rfl rfl
        (by simp [credentials, bodyCredentials]) hvalid
  | qualityReport body => exact .quiet (by simp) (quiet_handleQualityReport chance body)
  | endSession body => exact .quiet (by simp) (quiet_handleEndSession body)
  | getKey =>
    rcases handleGetKey_cases services chance ⟨.getKey, header, query⟩ with
      hplain | ⟨response, hreply, hvalid⟩
    · exact handling_of_plain (by simp) hplain
    · exact handling_of_viewer (by simp) (quiet_refused server plain_recovered) hreply rfl rfl rfl
        (by simp [credentials]) hvalid
  | streamStart body =>
    rcases handleStreamStart_cases chance body with
      hquiet | ⟨req, rfl, htoken, hgiven, hserved⟩
    · exact .quiet (by simp) hquiet
    · refine .started (by simp) ⟨?_, ?_⟩ req hserved
      · rw [← htoken]
        exact hgiven
      · rw [← htoken]
        simp [credentials, bodyCredentials]
  | streamStop =>
    show Handling server chance _ (handleStreamStop server ⟨.streamStop, header, query⟩)
    unfold handleStreamStop
    dsimp only
    by_cases htoken : query "access_token" ≠ server.cfg.adminToken
    · rw [if_pos htoken]
      exact handling_of_plain (by simp) (plain_error 403 _)
    · rw [if_neg htoken]
      exact .stopped rfl (not_not.mp htoken) rfl
  | admin route =>
    show Handling server chance _ (if authAdmin server.cfg ⟨.admin route, header, query⟩ then
      handleAdmin server chance route else (server, .error 401 "unauthorized"))
    cases hauth : authAdmin server.cfg ⟨.admin route, header, query⟩ with
    | true => exact .admitted route rfl hauth (adminSpec_handleAdmin chance route)
    | false => exact .unauthorized hauth rfl
  | page => exact handling_of_plain (by simp) ⟨rfl, rfl, rfl⟩

variable {chance : Chance} {request : Request} {served : Server × Reply}

/-- The viewer tokens after a request: the same, or one more, as the reply has it. -/
theorem tokens_of_handling (hhandling : Handling server chance request served) :
    served.1.tokens = server.tokens ∧ starts served.2 = false ∨
      ∃ response, served.2 = .ok (.started response) ∧
        served.1.tokens = server.tokens.put (response.viewerToken, response.streamKey) := by
  cases hhandling with
  | quiet _ hquiet => exact Or.inl ⟨hquiet.same.tokens, hquiet.plain.starts⟩
  | enrolled _ _ hsame _ hstarts _ => exact Or.inl ⟨hsame.tokens, hstarts⟩
  | released _ hrest hstarts _ _ => exact Or.inl ⟨hrest.same.tokens, hstarts⟩
  | started _ _ req hserved =>
    rw [hserved]
    rcases startStream_cases _ chance req with hquiet | ⟨response, hreply, htokens, -⟩
    · exact Or.inl ⟨hquiet.same.tokens, hquiet.plain.starts⟩
    · exact Or.inr ⟨response, hreply, htokens⟩
  | stopped _ _ hserved =>
    obtain ⟨hsame, -, -, hplain⟩ :=
      stopStream_spec server (request.query "stream_key")
    rw [hserved]
    exact Or.inl ⟨hsame.tokens, hplain.starts⟩
  | admitted _ _ _ hspec => exact hspec.tokens
  | unauthorized _ hserved =>
    rw [hserved]
    exact Or.inl ⟨rfl, rfl⟩

/-- No request changes a configured token. -/
theorem access_of_handling (hhandling : Handling server chance request served) :
    served.1.cfg.regToken = server.cfg.regToken ∧
      served.1.cfg.adminToken = server.cfg.adminToken := by
  cases hhandling with
  | quiet _ hquiet => exact ⟨hquiet.same.regToken, hquiet.same.adminToken⟩
  | enrolled _ _ hsame _ _ _ => exact ⟨hsame.regToken, hsame.adminToken⟩
  | released _ hrest _ _ _ => exact ⟨hrest.same.regToken, hrest.same.adminToken⟩
  | started _ _ req hserved =>
    rw [hserved]
    rcases startStream_cases _ chance req with hquiet | ⟨response, -, -, hcfg, -⟩
    · exact ⟨hquiet.same.regToken, hquiet.same.adminToken⟩
    · rw [hcfg]
      exact ⟨rfl, rfl⟩
  | stopped _ _ hserved =>
    obtain ⟨hsame, -⟩ := stopStream_spec server (request.query "stream_key")
    rw [hserved]
    exact ⟨hsame.regToken, hsame.adminToken⟩
  | admitted _ _ _ hspec => exact ⟨hspec.regToken, hspec.adminToken⟩
  | unauthorized _ hserved =>
    rw [hserved]
    exact ⟨rfl, rfl⟩

end LiveCDN.Controller.HandlerEffects
