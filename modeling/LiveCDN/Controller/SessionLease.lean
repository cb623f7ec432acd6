import LiveCDN.Controller.KeyReplay
import LiveCDN.Controller.NodeLease

/-!
# Sessions of viewers

How long the server of the controller keeps the session of a viewer and serves its key, over whole
runs. A session is a lease of the time it was last active: a dispatch that opens it grants it, a
quality report renews it, the viewer revokes it with the end of the session, and each turn of
`cleanupLoop` sweeps it after ninety seconds (`lastActive_step`). Asking for the key does not renew
it.

So a viewer whose key request is not signed has its key from every state of a run exactly when it is
entitled to it at the start, does not end its session, and each cleanup comes within ninety seconds
of its last report (`servesKey_iff`); the end of the stream does not matter.
-/

set_option autoImplicit false
set_option relaxedAutoImplicit false

namespace LiveCDN.Controller.SessionLease

open Library.KeyedTable Library.GuardedRun Library.Lease NodeStore StreamStore Scheduling Dispatch
  HttpServer Handlers AdminHandlers ServerRun HandlerEffects KeyReplay

open KeyRotation (RotationOutcome)

/-! ### The lease of a session -/

/-- The time a session was last active, if it is stored. -/
def lastActive (server : Server) (id : String) : Option ℕ :=
  (server.sessions.find? id).map SessionInfo.lastActive

/-- A dispatch gets as far as opening a session. -/
def opensSession (server : Server) (services : Services) (chance : Chance)
    (body : Option DispatchRequest) : Bool :=
  (shouldBindJSON (fun req ↦ isGiven req.streamKey && isGiven req.token) body).any fun req ↦
    decide (server.mem.validateToken req.token = some req.streamKey) &&
      (getStream server.streams req.streamKey).any StreamInfo.isLive &&
        !isCapacityFull server.scheduler.store chance.now &&
          (server.scheduler.dispatch services.lookup chance.outcome chance.now req.clientIP ""
            "").1.isOk

/-- What a request does to the lease of a session. -/
def requestEvent (services : Services) (id : String) (server : Server) (chance : Chance) :
    Route → Event
  | .dispatch body =>
    if chance.sessionID = id ∧ opensSession server services chance body = true then
      .grant chance.now
    else .idle
  | .qualityReport (some report) =>
    if report.sessionID = id ∧ id ≠ "" then .renew chance.now else .idle
  | .endSession (some ended) => if ended = id ∧ id ≠ "" then .revoke else .idle
  | _ => .idle

/-- What a step does to the lease of a session. -/
def sessionEvent (services : Services) (id : String) (st : State) : Action → Event
  | .request request chance => requestEvent services id st.server chance request.route
  | .cleanup now => .sweep now (90 * second)
  | _ => .idle

/-! ### What requests do to sessions, tokens and streams -/

/-- The tokens and streams after a request: at most the token that was generated for it is set, and
every stream is still stored. -/
structure KeepsStreams (server : Server) (chance : Chance) (after : Server) : Prop where
  tokens : after.tokens = server.tokens ∨
    ∃ key, after.tokens = server.tokens.put (chance.viewerToken, key)
  streams : ∀ key, (getStream server.streams key).isSome = true →
    (getStream after.streams key).isSome = true

/-- The sessions after a request are the same as well. -/
structure KeepsSessions (server : Server) (chance : Chance) (after : Server) : Prop
    extends KeepsStreams server chance after where
  sessions : after.sessions = server.sessions

variable {server : Server} {chance : Chance}

theorem keepsStreams_of_same {after : Server} (htokens : after.tokens = server.tokens)
    (hstreams : after.streams = server.streams) : KeepsStreams server chance after :=
  ⟨Or.inl htokens, fun key hkey ↦ by rwa [hstreams]⟩

theorem keepsSessions_of_same {after : Server} (htokens : after.tokens = server.tokens)
    (hstreams : after.streams = server.streams) (hsessions : after.sessions = server.sessions) :
    KeepsSessions server chance after :=
  ⟨keepsStreams_of_same htokens hstreams, hsessions⟩

theorem keepsSessions_refl (server : Server) : KeepsSessions server chance server :=
  keepsSessions_of_same rfl rfl rfl

/-- A stream that is written is stored, and the others are stored as before. -/
theorem isSome_getStream_put {streams : Table StreamInfo.streamKey} (info : StreamInfo)
    {key : String} (hkey : (getStream streams key).isSome = true) :
    (getStream (streams.put info) key).isSome = true := by
  unfold getStream at hkey ⊢
  rw [Table.find?_put streams rfl]
  split_ifs
  · rfl
  · exact hkey

theorem keepsSessions_startStream (req : StreamStartRequest) :
    KeepsSessions server chance (startStream server chance req).1 := by
  unfold startStream
  split
  · exact keepsSessions_refl server
  · split
    · exact keepsSessions_refl server
    · exact ⟨⟨Or.inr ⟨_, rfl⟩, fun _ hkey ↦ isSome_getStream_put _ hkey⟩, rfl⟩

theorem keepsSessions_stopStream (streamKey : String) :
    KeepsSessions server chance (stopStream server streamKey).1 := by
  have hended : ∀ key, (getStream server.streams key).isSome = true →
      (getStream (endStream server.streams streamKey) key).isSome = true := by
    intro key hkey
    unfold endStream
    split
    · exact hkey
    · exact isSome_getStream_put _ hkey
  unfold stopStream
  dsimp only
  split_ifs <;> exact ⟨⟨Or.inl rfl, hended⟩, rfl⟩

theorem keepsSessions_rotateAllLiveStreams (rotator : ℕ) (outcome : RotationOutcome) :
    KeepsSessions server chance (rotateAllLiveStreams server rotator outcome) := by
  refine ⟨⟨Or.inl rfl, fun key hkey ↦ ?_⟩, rfl⟩
  rw [getStream, rotateAllLiveStreams, Table.find?_mapRows, Option.isSome_map]
  exact hkey

theorem keepsSessions_handleSetLatencyMode (streamKey : String) (body : Option String) :
    KeepsSessions server chance (handleSetLatencyMode server streamKey body).1 := by
  unfold handleSetLatencyMode
  split
  · exact keepsSessions_refl server
  · split
    · exact keepsSessions_refl server
    · split
      · exact keepsSessions_refl server
      · dsimp only
        split_ifs
        · exact keepsSessions_refl server
        · exact ⟨⟨Or.inl rfl, fun _ hkey ↦ isSome_getStream_put _ hkey⟩, rfl⟩
        · exact ⟨⟨Or.inl rfl, fun _ hkey ↦ isSome_getStream_put _ hkey⟩, rfl⟩

theorem keepsSessions_handleAdmin (route : AdminRoute) :
    KeepsSessions server chance (handleAdmin server chance route).1 := by
  cases route with
  | streamStart body =>
    change KeepsSessions server chance (handleAdminStreamStart server chance body).1
    unfold handleAdminStreamStart
    split
    · exact keepsSessions_refl server
    · exact keepsSessions_startStream _
  | streamStop body =>
    change KeepsSessions server chance (handleAdminStreamStop server body).1
    unfold handleAdminStreamStop
    split
    · exact keepsSessions_refl server
    · exact keepsSessions_stopStream _
  | triggerKeyRotation => exact keepsSessions_rotateAllLiveStreams 1 chance.rotation
  | setLatencyMode key body => exact keepsSessions_handleSetLatencyMode key body
  | removeNode id =>
    change KeepsSessions server chance (handleRemoveNode server id).1
    unfold handleRemoveNode
    dsimp only
    split_ifs <;> exact keepsSessions_of_same rfl rfl rfl
  | setNodeStatus id body =>
    change KeepsSessions server chance (handleSetNodeStatus server id body).1
    unfold handleSetNodeStatus
    split
    · exact keepsSessions_refl server
    · split
      · exact keepsSessions_refl server
      · dsimp only
        split_ifs <;> exact keepsSessions_of_same rfl rfl rfl
  | approveNode id =>
    change KeepsSessions server chance (handleApproveNode server id).1
    unfold handleApproveNode
    dsimp only
    split <;> exact keepsSessions_of_same rfl rfl rfl
  | addDomain body =>
    change KeepsSessions server chance (handleAddDomain server body).1
    unfold handleAddDomain
    split <;> exact keepsSessions_of_same rfl rfl rfl
  | switchDomain body =>
    change KeepsSessions server chance (handleSwitchDomain server body).1
    unfold handleSwitchDomain
    split
    · exact keepsSessions_refl server
    · split <;> exact keepsSessions_of_same rfl rfl rfl
  | configUpdate body =>
    change KeepsSessions server chance (handleConfigUpdate server body).1
    unfold handleConfigUpdate
    split
    · exact keepsSessions_refl server
    · next updates =>
      obtain ⟨timeout, hupdated⟩ := exists_foldl_applyUpdate updates (server, [])
      dsimp only
      rw [hupdated]
      exact keepsSessions_of_same rfl rfl rfl
  | _ => exact keepsSessions_of_same rfl rfl rfl

theorem keepsSessions_handleRegister (body : Option Registration) :
    KeepsSessions server chance (handleRegister server chance body).1 := by
  unfold handleRegister
  split
  · exact keepsSessions_refl server
  · dsimp only
    split_ifs <;> exact keepsSessions_of_same rfl rfl rfl

theorem keepsSessions_handleHeartbeat (request : Request) (body : Option HeartbeatRequest) :
    KeepsSessions server chance (handleHeartbeat server chance request body).1 := by
  unfold handleHeartbeat
  split_ifs
  · exact keepsSessions_refl server
  · split
    · exact keepsSessions_refl server
    · split <;> exact keepsSessions_of_same rfl rfl rfl

theorem keepsSessions_handleStreamStart (body : Option StreamStartRequest) :
    KeepsSessions server chance (handleStreamStart server chance body).1 := by
  unfold handleStreamStart
  split
  · exact keepsSessions_refl server
  · split_ifs
    · exact keepsSessions_refl server
    · exact keepsSessions_startStream _

theorem keepsSessions_handleStreamStop (request : Request) :
    KeepsSessions server chance (handleStreamStop server request).1 := by
  unfold handleStreamStop
  dsimp only
  split_ifs
  · exact keepsSessions_refl server
  · exact keepsSessions_stopStream _

/-! ### Requests of viewers -/

theorem sessions_dispatchStream (services : Services) (stream : StreamInfo)
    (streamKey clientIP : String) :
    (server.scheduler.dispatch services.lookup chance.outcome chance.now clientIP "" "").1.isOk =
          false ∧
        (dispatchStream server services chance stream streamKey clientIP).1.sessions =
          server.sessions ∨
      (server.scheduler.dispatch services.lookup chance.outcome chance.now clientIP "" "").1.isOk =
          true ∧
        ∃ session : SessionInfo, session.sessionID = chance.sessionID ∧
          session.lastActive = chance.now ∧
          (dispatchStream server services chance stream streamKey clientIP).1.sessions =
            server.sessions.put session := by
  unfold dispatchStream
  dsimp only
  cases (server.scheduler.dispatch services.lookup chance.outcome chance.now clientIP "" "").1 with
  | error err =>
    left
    dsimp only
    split_ifs <;> exact ⟨rfl, rfl⟩
  | ok nodes =>
    right
    dsimp only
    by_cases hslice : LatencyControl.slicePanics streamKey = true
    · rw [if_pos hslice]
      exact ⟨rfl, _, rfl, rfl, rfl⟩
    · rw [if_neg hslice]
      exact ⟨rfl, _, rfl, rfl, rfl⟩

/-- A dispatch leaves the sessions alone or opens one under the id that was generated for it. -/
theorem sessions_handleDispatch (services : Services) (body : Option DispatchRequest) :
    opensSession server services chance body = false ∧
        (handleDispatch server services chance body).1.sessions = server.sessions ∨
      opensSession server services chance body = true ∧
        ∃ session : SessionInfo, session.sessionID = chance.sessionID ∧
          session.lastActive = chance.now ∧
          (handleDispatch server services chance body).1.sessions =
            server.sessions.put session := by
  unfold opensSession handleDispatch
  cases shouldBindJSON (fun req : DispatchRequest ↦ isGiven req.streamKey && isGiven req.token)
      body with
  | none => exact Or.inl ⟨rfl, rfl⟩
  | some req =>
    dsimp only [Option.any_some]
    by_cases htoken : server.mem.validateToken req.token = some req.streamKey
    · rw [if_neg (not_not.mpr htoken), decide_eq_true htoken, Bool.true_and]
      cases getStream server.streams req.streamKey with
      | none => exact Or.inl ⟨rfl, rfl⟩
      | some stream =>
        dsimp only [Option.any_some]
        cases hlive : stream.isLive with
        | false => exact Or.inl ⟨rfl, rfl⟩
        | true =>
          cases hfull : isCapacityFull server.scheduler.store chance.now with
          | true => exact Or.inl ⟨rfl, rfl⟩
          | false =>
            rw [if_neg Bool.noConfusion, if_neg Bool.noConfusion, Bool.true_and, Bool.not_false,
              Bool.true_and]
            exact sessions_dispatchStream services stream req.streamKey req.clientIP
    · rw [if_pos htoken, decide_eq_false htoken, Bool.false_and, Bool.false_and, Bool.false_and]
      left
      split_ifs <;> exact ⟨rfl, rfl⟩

theorem lastActive_handleDispatch (services : Services) (body : Option DispatchRequest)
    (id : String) :
    lastActive (handleDispatch server services chance body).1 id =
      after (lastActive server id) (requestEvent services id server chance (.dispatch body)) := by
  unfold lastActive requestEvent
  dsimp only
  rcases sessions_handleDispatch services body with
    ⟨hopens, hsame⟩ | ⟨hopens, session, hid, hactive, hput⟩
  · rw [hsame, hopens, if_neg (by simp)]
    rfl
  · rw [hput, hopens, Table.find?_put _ hid]
    by_cases hsame : id = chance.sessionID
    · rw [if_pos hsame, if_pos ⟨hsame.symm, rfl⟩, Option.map_some, hactive]
      rfl
    · rw [if_neg hsame, if_neg fun h ↦ hsame h.1.symm]
      rfl

/-- A session that is touched is active again. -/
theorem find?_touchSession (now : ℕ) (touched id : String) :
    (server.touchSession now touched).1.sessions.find? id =
      if id = touched then
        (server.sessions.find? id).map fun session ↦ { session with lastActive := now }
      else server.sessions.find? id := by
  rw [← Table.find?_rewrite server.sessions (fun session ↦ { session with lastActive := now })
    fun _ ↦ rfl]
  unfold Server.touchSession
  cases server.sessions.find? touched <;> rfl

/-- The sessions after a quality report are those after its session was touched. -/
theorem sessions_handleQualityReport (report : QualityReport) :
    (handleQualityReport server chance (some report)).1.sessions =
      if report.sessionID = "" then server.sessions
      else (server.touchSession chance.now report.sessionID).1.sessions := by
  unfold handleQualityReport
  dsimp only
  by_cases hempty : report.sessionID = ""
  · rw [if_pos hempty, if_pos hempty]
  · rw [if_neg hempty, if_neg hempty]
    split_ifs
    · rfl
    · split <;> rfl

/-- The sessions after a quality report: the one it names is active again. -/
theorem find?_handleQualityReport (report : QualityReport) (id : String) :
    (handleQualityReport server chance (some report)).1.sessions.find? id =
      if report.sessionID = id ∧ id ≠ "" then
        (server.sessions.find? id).map fun session ↦ { session with lastActive := chance.now }
      else server.sessions.find? id := by
  rw [sessions_handleQualityReport]
  by_cases hid : report.sessionID = id
  · subst hid
    by_cases hempty : report.sessionID = ""
    · rw [if_pos hempty, if_neg fun h ↦ h.2 hempty]
    · rw [if_neg hempty, if_pos ⟨rfl, hempty⟩, find?_touchSession, if_pos rfl]
  · have hother : ¬ (report.sessionID = id ∧ id ≠ "") := fun h ↦ hid h.1
    rw [if_neg hother]
    split_ifs
    · rfl
    · rw [find?_touchSession, if_neg (Ne.symm hid)]

theorem lastActive_handleQualityReport (services : Services) (body : Option QualityReport)
    (id : String) :
    lastActive (handleQualityReport server chance body).1 id =
      after (lastActive server id)
        (requestEvent services id server chance (.qualityReport body)) := by
  cases body with
  | none => rfl
  | some report =>
    rw [lastActive, find?_handleQualityReport, requestEvent]
    split_ifs
    · rw [after, lastActive, Option.map_map, Option.map_map]
      rfl
    · rfl

/-- The sessions after the end of a session: the one that is named is gone. -/
theorem find?_handleEndSession (ended id : String) :
    (handleEndSession server (some ended)).1.sessions.find? id =
      if ended = id ∧ id ≠ "" then none else server.sessions.find? id := by
  unfold handleEndSession
  by_cases hempty : ended = ""
  · subst hempty
    rw [if_neg (by rintro ⟨rfl, hne⟩; exact hne rfl)]
    rfl
  · have hbound : shouldBindJSON isGiven (some ended) = some ended :=
      Option.filter_eq_some_iff.mpr ⟨rfl, decide_eq_true hempty⟩
    rw [hbound]
    refine (Table.find?_remove server.sessions ended id).trans ?_
    by_cases hid : id = ended
    · rw [if_pos hid, if_pos ⟨hid.symm, hid ▸ hempty⟩]
    · rw [if_neg hid, if_neg fun h ↦ hid h.1.symm]

/-- What a request does to the sessions is what its event does to each lease. -/
theorem lastActive_serve (services : Services) (request : Request) (id : String) :
    lastActive (serve services server chance request).1 id =
      after (lastActive server id) (requestEvent services id server chance request.route) := by
  have hkept : ∀ {server' : Server}, KeepsSessions server chance server' →
      lastActive server' id = lastActive server id := fun h ↦ by
    rw [lastActive, h.sessions, lastActive]
  obtain ⟨route, header, query⟩ := request
  cases route with
  | dispatch body => exact lastActive_handleDispatch services body id
  | qualityReport body => exact lastActive_handleQualityReport services body id
  | endSession body =>
    cases body with
    | none => rfl
    | some ended =>
      show ((handleEndSession server (some ended)).1.sessions.find? id).map _ = _
      rw [find?_handleEndSession, requestEvent]
      split_ifs <;> rfl
  | register body => exact hkept (keepsSessions_handleRegister body)
  | heartbeat body => exact hkept (keepsSessions_handleHeartbeat _ body)
  | streamStart body => exact hkept (keepsSessions_handleStreamStart body)
  | streamStop => exact hkept (keepsSessions_handleStreamStop _)
  | admin route =>
    show lastActive (if authAdmin server.cfg _ then _ else _ : Server × Reply).1 id = _
    split_ifs
    · exact hkept (keepsSessions_handleAdmin route)
    · rfl
  | _ => rfl

/-- What a step does to a session is what its event does to the lease. -/
theorem lastActive_step (services : Services) (id : String) (st : State) (action : Action) :
    lastActive (step services st action).server id =
      after (lastActive st.server id) (sessionEvent services id st action) := by
  cases action with
  | request request chance =>
    show lastActive (st.after (serve services st.server chance request)).server id = _
    rw [server_after]
    exact lastActive_serve services request id
  | cleanup now =>
    show ((st.server.sessions.keep _).find? id).map _ = _
    rw [Table.find?_keep, sessionEvent, after, lastActive, Option.filter_map]
    congr 2
    funext session
    exact congrArg not (decide_eq_decide.mpr (by omega))
  | cleanupSticky now => rfl
  | rotateKeys outcome => rfl
  | tickLatency now =>
    show lastActive (ServerRun.tickLatency st.server now) id = lastActive st.server id
    unfold ServerRun.tickLatency
    split <;> rfl

/-! ### What a viewer is entitled to -/

/-- The ids and tokens generated for a request are not those of a key request. -/
def Fresh (request : Request) : Action → Prop
  | .request _ chance =>
    chance.sessionID ≠ request.query "session_id" ∧ chance.viewerToken ≠ request.query "token"
  | _ => True

/-- A step that does not remove a session: its viewer does not end it, and no cleanup comes more
than ninety seconds after it was last active. -/
def Keeps (id : String) (st : State) : Action → Prop
  | .request request _ => request.route ≠ .endSession (some id)
  | .cleanup now => ∀ time ∈ lastActive st.server id, now - time ≤ 90 * second
  | _ => True

variable {services : Services} {st : State} {request : Request}

theorem keepsStreams_serve (services : Services) (request : Request) :
    KeepsStreams server chance (serve services server chance request).1 := by
  obtain ⟨route, header, query⟩ := request
  cases route with
  | dispatch body =>
    rcases handleDispatch_cases services chance body with hquiet | ⟨hquiet, -⟩
    · exact keepsStreams_of_same hquiet.same.tokens hquiet.streams
    · exact keepsStreams_of_same hquiet.same.tokens hquiet.streams
  | qualityReport body =>
    have hquiet : Quiet server _ := quiet_handleQualityReport chance body
    exact keepsStreams_of_same hquiet.same.tokens hquiet.streams
  | endSession body =>
    have hquiet : Quiet server _ := quiet_handleEndSession body
    exact keepsStreams_of_same hquiet.same.tokens hquiet.streams
  | register body => exact (keepsSessions_handleRegister body).toKeepsStreams
  | heartbeat body => exact (keepsSessions_handleHeartbeat _ body).toKeepsStreams
  | streamStart body => exact (keepsSessions_handleStreamStart body).toKeepsStreams
  | streamStop => exact (keepsSessions_handleStreamStop _).toKeepsStreams
  | admin route =>
    show KeepsStreams server chance (if authAdmin server.cfg _ then _ else _ : Server × Reply).1
    split_ifs
    · exact (keepsSessions_handleAdmin route).toKeepsStreams
    · exact keepsStreams_of_same rfl rfl
  | _ => exact keepsStreams_of_same rfl rfl

/-- A token and a stream are as valid after a step as before. Assumes: the token was not generated
in the step. -/
theorem keepsStreams_step {action : Action} (hfresh : Fresh request action) :
    (step services st action).server.mem.validateToken (request.query "token") =
        st.server.mem.validateToken (request.query "token") ∧
      ∀ key, (getStream st.server.streams key).isSome = true →
        (getStream (step services st action).server.streams key).isSome = true := by
  cases action with
  | request sent chance =>
    have hkept : KeepsStreams st.server chance _ := keepsStreams_serve services sent
    simp only [step, server_after]
    refine ⟨?_, hkept.streams⟩
    rw [Persistence.Memory.validateToken, Persistence.Memory.validateToken, Server.mem, Server.mem]
    rcases hkept.tokens with hsame | ⟨key, hput⟩
    · rw [hsame]
    · rw [hput, Table.find?_put _ rfl, if_neg (Ne.symm hfresh.2)]
  | cleanup now => exact ⟨rfl, fun _ hkey ↦ hkey⟩
  | cleanupSticky now => exact ⟨rfl, fun _ hkey ↦ hkey⟩
  | rotateKeys outcome =>
    have hkept : KeepsSessions st.server plainChance _ :=
      keepsSessions_rotateAllLiveStreams 0 outcome
    exact ⟨rfl, hkept.streams⟩
  | tickLatency now =>
    simp only [step, ServerRun.tickLatency]
    split <;> exact ⟨rfl, fun _ hkey ↦ hkey⟩

/-- A session that is stored after a request was stored before, for the same stream. Assumes: its id
was not generated for the request. -/
theorem exists_session_of_serve {id : String} (hfresh : chance.sessionID ≠ id)
    {session : SessionInfo}
    (hafter : (serve services server chance request).1.sessions.find? id = some session) :
    ∃ before, server.sessions.find? id = some before ∧ before.streamKey = session.streamKey := by
  have hkept : ∀ {server' : Server}, server'.sessions.find? id = some session →
      KeepsSessions server chance server' →
        ∃ before, server.sessions.find? id = some before ∧
          before.streamKey = session.streamKey := by
    intro server' hfound h
    rw [h.sessions] at hfound
    exact ⟨session, hfound, rfl⟩
  obtain ⟨route, header, query⟩ := request
  cases route with
  | dispatch body =>
    change (handleDispatch server services chance body).1.sessions.find? id = some session at hafter
    rcases sessions_handleDispatch services body with
      ⟨-, hsame⟩ | ⟨-, opened, hid, -, hput⟩
    · rw [hsame] at hafter
      exact ⟨session, hafter, rfl⟩
    · rw [hput, Table.find?_put _ hid, if_neg (Ne.symm hfresh)] at hafter
      exact ⟨session, hafter, rfl⟩
  | qualityReport body =>
    cases body with
    | none => exact ⟨session, hafter, rfl⟩
    | some report =>
      change (handleQualityReport server chance (some report)).1.sessions.find? id = _ at hafter
      rw [find?_handleQualityReport] at hafter
      split_ifs at hafter
      · obtain ⟨before, hbefore, rfl⟩ := Option.map_eq_some_iff.mp hafter
        exact ⟨before, hbefore, rfl⟩
      · exact ⟨session, hafter, rfl⟩
  | endSession body =>
    cases body with
    | none => exact ⟨session, hafter, rfl⟩
    | some ended =>
      change (handleEndSession server (some ended)).1.sessions.find? id = _ at hafter
      rw [find?_handleEndSession] at hafter
      split_ifs at hafter
      exact ⟨session, hafter, rfl⟩
  | register body => exact hkept hafter (keepsSessions_handleRegister body)
  | heartbeat body => exact hkept hafter (keepsSessions_handleHeartbeat _ body)
  | streamStart body => exact hkept hafter (keepsSessions_handleStreamStart body)
  | streamStop => exact hkept hafter (keepsSessions_handleStreamStop _)
  | admin route =>
    unfold serve at hafter
    dsimp only at hafter
    split_ifs at hafter
    · exact hkept hafter (keepsSessions_handleAdmin route)
    · exact ⟨session, hafter, rfl⟩
  | _ => exact ⟨session, hafter, rfl⟩

/-- A session that is stored after a step was stored before, for the same stream. Assumes: its id
was not generated in the step. -/
theorem exists_session_of_step {action : Action} (hfresh : Fresh request action)
    {session : SessionInfo}
    (hafter : (step services st action).server.sessions.find? (request.query "session_id") =
      some session) :
    ∃ before, st.server.sessions.find? (request.query "session_id") = some before ∧
      before.streamKey = session.streamKey := by
  cases action with
  | request sent chance =>
    rw [step, server_after] at hafter
    exact exists_session_of_serve hfresh.1 hafter
  | cleanup now =>
    change (st.server.sessions.keep _).find? _ = _ at hafter
    rw [Table.find?_keep] at hafter
    exact ⟨session, Option.eq_some_of_filter_eq_some hafter, rfl⟩
  | cleanupSticky now => exact ⟨session, hafter, rfl⟩
  | rotateKeys outcome => exact ⟨session, hafter, rfl⟩
  | tickLatency now =>
    unfold step ServerRun.tickLatency at hafter
    dsimp only at hafter
    split at hafter <;> exact ⟨session, hafter, rfl⟩

/-- A stored session survives the steps that do not remove it. Assumes: its id is not empty, and was
not generated in the step. -/
theorem survives_iff_keeps (hid : request.query "session_id" ≠ "") {action : Action}
    (hfresh : Fresh request action) :
    Survives (lastActive st.server (request.query "session_id"))
        (sessionEvent services (request.query "session_id") st action) ↔
      Keeps (request.query "session_id") st action := by
  cases action with
  | request sent chance =>
    obtain ⟨route, header, query⟩ := sent
    cases route with
    | endSession body =>
      cases body with
      | none => exact iff_of_true trivial nofun
      | some ended =>
        simp only [sessionEvent, requestEvent, Keeps]
        split_ifs with hended
        · exact iff_of_false id fun hne ↦ hne (by rw [hended.1])
        · refine iff_of_true trivial fun heq ↦ hended ⟨?_, hid⟩
          exact Option.some.inj (Route.endSession.inj heq)
    | dispatch body =>
      simp only [sessionEvent, requestEvent, Keeps]
      rw [if_neg fun h ↦ hfresh.1 h.1]
      exact iff_of_true trivial nofun
    | qualityReport body =>
      cases body with
      | none => exact iff_of_true trivial nofun
      | some report =>
        simp only [sessionEvent, requestEvent, Keeps]
        split_ifs <;> exact iff_of_true trivial nofun
    | _ => exact iff_of_true trivial nofun
  | cleanup now =>
    refine forall₂_congr fun time _ ↦ ?_
    omega
  | _ => exact Iff.rfl

/-- A viewer is entitled to its key after a step exactly when the step does not remove its session.
Assumes: it is entitled before, and its id and token were not generated in the step. -/
theorem entitled_step_iff (hentitled : Entitled st.server request) {action : Action}
    (hfresh : Fresh request action) :
    Entitled (step services st action).server request ↔
      Keeps (request.query "session_id") st action := by
  obtain ⟨hid, htoken, session, hsession, hvalid, hstream⟩ := hentitled
  have hactive : (lastActive st.server (request.query "session_id")).isSome = true := by
    rw [lastActive, hsession]
    rfl
  obtain ⟨hvalidates, hstreams⟩ : _ ∧ ∀ key, _ → (getStream (step services st action).server.streams
    key).isSome = true := keepsStreams_step hfresh
  have hsurvives : Survives _ (sessionEvent services _ st action) ↔ _ :=
    survives_iff_keeps hid hfresh
  rw [← hsurvives, ← isSome_after_iff hactive,
    ← lastActive_step, lastActive, Option.isSome_map]
  constructor
  · rintro ⟨-, -, stored, hstored, -⟩
    rw [hstored]
    rfl
  · intro hsome
    obtain ⟨stored, hstored⟩ := Option.isSome_iff_exists.mp hsome
    obtain ⟨before, hbefore, hkey⟩ := exists_session_of_step hfresh hstored
    obtain rfl := Option.some.inj (hsession.symm.trans hbefore)
    refine ⟨hid, htoken, stored, hstored, ?_, ?_⟩
    · rw [hvalidates, hvalid, hkey]
    · exact hkey ▸ hstreams _ hstream

/-! ### Runs -/

/-- A request that is not signed yields a key exactly when the viewer is entitled to it. -/
theorem yieldsKey_iff_entitled {services : Services} {chance : Chance}
    (hunsigned : ¬ IsSigned request) :
    YieldsKey server services chance request ↔ Entitled server request := by
  rw [yieldsKey_iff, checkSignature_eq_none_iff]
  exact and_iff_left fun hsigned ↦ absurd hsigned hunsigned

/-- A viewer gets its key in every state of a run exactly when it is entitled to it at the start, it
does not end its session, and each cleanup comes within ninety seconds of its last report. Assumes:
its request is not signed, and the run generates neither its session id nor its token again. -/
theorem servesKey_iff (services : Services) (start : State) (hunsigned : ¬ IsSigned request)
    (actions : List Action) (hfresh : ∀ action ∈ actions, Fresh request action) :
    (∀ taken, taken <+: actions → ∀ chance,
        YieldsKey (run (step services) start taken).server services chance request) ↔
      Entitled start.server request ∧
        EachStepMeets (step services) (Keeps (request.query "session_id")) start actions := by
  have hserved : ∀ st : State, (∀ chance, YieldsKey st.server services chance request) ↔
      Entitled st.server request := fun st ↦
    ⟨fun hall ↦ (yieldsKey_iff_entitled hunsigned).mp (hall plainChance),
      fun hentitled _ ↦ (yieldsKey_iff_entitled hunsigned).mpr hentitled⟩
  simp only [hserved]
  rw [@forall_prefix_iff _ _ (step services) fun st ↦ Entitled st.server request]
  refine and_congr_right fun hentitled ↦ ?_
  have hguard : EachStepMeets (step services) (fun _ action ↦ Fresh request action) start actions :=
    (eachStepMeets_const_iff (step services)).mpr hfresh
  exact eachStepMeets_iff_under (step services) (fun _ _ _ _ hafter ↦ hafter)
    (fun st action (hst : Entitled st.server request) hnew ↦ entitled_step_iff hst hnew) hentitled
    hguard

/-- A key request that is not signed. -/
def unsignedRequest : Request where
  route := .getKey
  header _ := ""
  query name :=
    if name = "session_id" then "session" else if name = "token" then "token" else ""

/-- A viewer reports after a minute, and a cleanup comes after two. -/
def oneReport : List Action :=
  [.request (plainRequest (.qualityReport (some ⟨"session", "", 0, 0, 0, ""⟩)))
      { plainChance with now := 60 * second },
    .cleanup (120 * second)]

theorem servesKey_iff_witness :
    EachStepMeets (step plainServices) (Keeps "session") ⟨watchedServer, [], fun _ ↦ []⟩
        oneReport ∧
      ∀ taken, taken <+: oneReport → ∀ chance,
        YieldsKey (run (step plainServices) ⟨watchedServer, [], fun _ ↦ []⟩ taken).server
          plainServices chance unsignedRequest := by
  have hkeeps : EachStepMeets (step plainServices) (Keeps "session")
      ⟨watchedServer, [], fun _ ↦ []⟩ oneReport := by
    refine ⟨nofun, fun time htime ↦ ?_, trivial⟩
    have hactive : lastActive (step plainServices ⟨watchedServer, [], fun _ ↦ []⟩
        (oneReport.head (by decide))).server "session" = some (60 * second) := by decide +kernel
    rw [← Option.some.inj (hactive.symm.trans htime)]
    decide
  refine ⟨hkeeps, (servesKey_iff plainServices ⟨watchedServer, [], fun _ ↦ []⟩ ?_ oneReport ?_).mpr
    ⟨⟨?_, ?_, ⟨"session", "stream", "node", "", 0, 0⟩, ?_, ?_, ?_⟩, hkeeps⟩⟩
  · exact fun hsigned ↦ hsigned.1 (by decide)
  · intro action haction
    rcases List.mem_cons.mp haction with rfl | hlast
    · exact ⟨by decide, by decide⟩
    · rw [List.mem_singleton.mp hlast]
      trivial
  · decide
  · decide
  · decide +kernel
  · decide +kernel
  · decide +kernel

end LiveCDN.Controller.SessionLease
