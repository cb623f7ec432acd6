import LiveCDN.Controller.SessionLease

/-!
# What the controller knows of a stream

Every step of the server writes at most one thing to the table of streams: a new record, or what a
rotation, a stop or a change of the latency mode does (`writeOf`, `record_step`), whichever of the
two routes for starting and for stopping a stream the request came through.

A stream is live from its start to its stop, with the time of the start as its lease: the hook
`on_publish` approves a publisher, and the agents get the stream, exactly when the stream was
started in the run and has not been stopped since (`approves_iff`). The key of a stream stays the
one that an agent has fetched exactly as long as no start and no rotation gives it another
(`sharesKey_iff`); a stop and a change of the mode leave it, and no relay fetches it again.

Scope. As in the runs of the server, requests and background tasks do not overlap. A rotation that
overlaps a stop writes a stream back as live that the stop has closed; rotations under concurrency
are those of `KeyRotation`.
-/

set_option autoImplicit false
set_option relaxedAutoImplicit false

namespace LiveCDN.Controller.StreamLease

open Library.KeyedTable Library.GuardedRun Library.Lease StreamStore StreamUpdates HttpServer
  Handlers AdminHandlers HandlerEffects ServerRun

open KeyRotation hiding step

/-! ### Writes -/

/-- The record of a live stream. -/
abbrev LiveInfo := { info : StreamInfo // info.isLive = true }

/-- What a step does to the streams: nothing, a new record, or what a task does to each record. -/
inductive Write
  | none
  | start (info : LiveInfo)
  | run (task : Task)

/-- The record under a key after a write. -/
def Write.record (key : String) : Write → Option StreamInfo → Option StreamInfo
  | .none, before => before
  | .start info, before => if key = info.val.streamKey then some info.val else before
  | .run task, before => before.map (effect task)

/-- The record that `handleStreamStart` and `handleAdminStreamStart` store, if the cipher suite is
known and a key is generated. -/
def startedInfo (cfg : Config) (chance : Chance) (req : StreamStartRequest) : Option LiveInfo :=
  match normalizeCipherSuite cfg.cipherSuite with
  | .error _ => none
  | .ok suite => (chance.key suite).map fun (encKey, encIV) ↦ ⟨{
      streamKey := chance.streamKey
      title := req.title
      originURL := hlsURL cfg chance.streamKey
      encryptKey := encKey
      encryptIV := encIV
      cipherSuite := suiteName suite
      isLive := true
      createdAt := chance.now
      latencyMode := if req.latencyMode = "" then latencyUltra else req.latencyMode }, rfl⟩

/-- The write of a start. -/
def startWrite (cfg : Config) (chance : Chance) (req : StreamStartRequest) : Write :=
  (startedInfo cfg chance req).elim .none .start

/-- The write of a request of an admin who is let through. -/
def adminWrite (cfg : Config) (chance : Chance) : AdminRoute → Write
  | .streamStart body =>
    (shouldBindJSON streamStartRequired body).elim .none (startWrite cfg chance)
  | .streamStop body =>
    (shouldBindJSON isGiven body).elim .none fun key ↦ .run (.adminStreamStop key)
  | .triggerKeyRotation => .run (.rotateAllLiveStreams 1 chance.rotation)
  | .setLatencyMode key body =>
    (shouldBindJSON isGiven body).elim .none fun mode ↦ .run (.setLatencyMode key mode)
  | _ => .none

/-- The write of a request. -/
def requestWrite (cfg : Config) (chance : Chance) (request : Request) : Write :=
  match request.route with
  | .streamStart body =>
    match shouldBindJSON streamStartRequired body with
    | none => .none
    | some req => if req.accessToken ≠ cfg.adminToken then .none else startWrite cfg chance req
  | .streamStop =>
    if request.query "access_token" ≠ cfg.adminToken then .none
    else .run (.adminStreamStop (request.query "stream_key"))
  | .admin route => if authAdmin cfg request then adminWrite cfg chance route else .none
  | _ => .none

/-- The write of a step. -/
def writeOf (st : State) : Action → Write
  | .request request chance => requestWrite st.server.cfg chance request
  | .rotateKeys outcome => .run (.rotateAllLiveStreams 0 outcome)
  | _ => .none

/-! ### Writing once -/

variable {server : Server} {chance : Chance} {key : String}

/-- A start stores its record. -/
theorem record_startStream (req : StreamStartRequest) :
    getStream (startStream server chance req).1.streams key =
      (startWrite server.cfg chance req).record key (getStream server.streams key) := by
  unfold startStream startWrite startedInfo
  cases normalizeCipherSuite server.cfg.cipherSuite with
  | error message => rfl
  | ok suite =>
    dsimp only
    cases chance.key suite with
    | none => rfl
    | some keyIV =>
      obtain ⟨encKey, encIV⟩ := keyIV
      exact Table.find?_put server.streams rfl key

/-- A stream that is ended is not live. -/
theorem find?_endStream (streams : Table StreamInfo.streamKey) (stopped : String) :
    getStream (endStream streams stopped) key =
      if key = stopped then
        (getStream streams key).map fun info ↦ { info with isLive := false }
      else getStream streams key := by
  rw [getStream, getStream, ← Table.find?_rewrite streams (fun info ↦ { info with isLive := false })
    (fun _ ↦ rfl) stopped key]
  unfold endStream
  cases streams.find? stopped <;> rfl

/-- A stop ends its stream. -/
theorem record_stopStream (stopped : String) :
    getStream (stopStream server stopped).1.streams key =
      (getStream server.streams key).map (effect (.adminStreamStop stopped)) := by
  have hstreams : (stopStream server stopped).1.streams = endStream server.streams stopped := by
    unfold stopStream
    dsimp only
    split_ifs <;> rfl
  rw [hstreams, find?_endStream]
  cases hfound : getStream server.streams key with
  | none => exact ite_self none
  | some info =>
    have hkey : info.streamKey = key := Table.key_of_find? hfound
    rw [Option.map_some, Option.map_some, effect, hkey]
    exact (apply_ite some (key = stopped) _ info).symm

/-- A rotation renews the live streams that are due. -/
theorem record_rotateAllLiveStreams (rotator : ℕ) (outcome : RotationOutcome) :
    getStream (rotateAllLiveStreams server rotator outcome).streams key =
      (getStream server.streams key).map (effect (.rotateAllLiveStreams rotator outcome)) :=
  Table.find?_mapRows server.streams (fun info ↦ (sameStream_effect _ info).streamKey.symm) key

/-- `handleSetLatencyMode` tests the mode as a latency controller does. -/
theorem not_mode_iff {mode : String} :
    (mode ≠ latencyUltra ∧ mode ≠ latencyStandard ∧ mode ≠ latencyResilient) ↔
      World.isLatencyMode mode = false := by
  rw [World.isLatencyMode, decide_eq_false_iff_not, not_or, not_or]

/-- A change of the latency mode that is refused or is for another stream leaves a record. -/
theorem map_effect_setLatencyMode {changed mode : String}
    (hleft : ∀ info, getStream server.streams key = some info →
      ¬ (key = changed ∧ World.isLatencyMode mode = true ∧ info.isLive = true)) :
    (getStream server.streams key).map (effect (.setLatencyMode changed mode)) =
      getStream server.streams key := by
  cases hfound : getStream server.streams key with
  | none => rfl
  | some info =>
    have hkey : info.streamKey = key := Table.key_of_find? hfound
    rw [Option.map_some, effect, hkey, if_neg (hleft info hfound)]

/-- A change of the latency mode sets it on its stream, if the stream is live. -/
theorem record_handleSetLatencyMode (changed : String) (body : Option String) :
    getStream (handleSetLatencyMode server changed body).1.streams key =
      (adminWrite server.cfg chance (.setLatencyMode changed body)).record key
        (getStream server.streams key) := by
  dsimp only [adminWrite]
  unfold handleSetLatencyMode
  cases shouldBindJSON isGiven body with
  | none => rfl
  | some mode =>
    dsimp only [Option.elim, Write.record]
    by_cases hmode : World.isLatencyMode mode = false
    · rw [if_pos (not_mode_iff.mpr hmode)]
      refine (map_effect_setLatencyMode fun info _ h ↦ ?_).symm
      exact Bool.noConfusion (hmode.symm.trans h.2.1)
    · rw [if_neg (mt not_mode_iff.mp hmode)]
      cases hchanged : getStream server.streams changed with
      | none =>
        refine (map_effect_setLatencyMode fun info hinfo h ↦ ?_).symm
        rw [h.1, hchanged] at hinfo
        exact (Option.some_ne_none info hinfo.symm).elim
      | some stream =>
        dsimp only
        by_cases hlive : stream.isLive = false
        · rw [if_pos hlive]
          refine (map_effect_setLatencyMode fun info hinfo h ↦ ?_).symm
          rw [h.1, hchanged] at hinfo
          rw [← Option.some.inj hinfo, hlive] at h
          exact Bool.noConfusion h.2.2
        · have hstored : stream.streamKey = changed := Table.key_of_find? hchanged
          have hwritten : ({ stream with latencyMode := mode } : StreamInfo).streamKey = changed :=
            hstored
          have hput : getStream (createStream server.streams { stream with latencyMode := mode })
              key = if key = changed then some { stream with latencyMode := mode }
                else getStream server.streams key :=
            Table.find?_put server.streams hwritten key
          rw [if_neg hlive]
          trans getStream (createStream server.streams { stream with latencyMode := mode }) key
          · split_ifs <;> rfl
          rw [hput]
          by_cases hkey : key = changed
          · rw [if_pos hkey, hkey, hchanged, Option.map_some, effect,
              if_pos ⟨hstored, eq_true_of_ne_false hmode, eq_true_of_ne_false hlive⟩]
          · rw [if_neg hkey]
            exact (map_effect_setLatencyMode fun info _ h ↦ hkey h.1).symm

/-- A request of an admin writes what it is to write. -/
theorem record_handleAdmin (route : AdminRoute) :
    getStream (handleAdmin server chance route).1.streams key =
      (adminWrite server.cfg chance route).record key (getStream server.streams key) := by
  cases route with
  | streamStart body =>
    dsimp only [adminWrite, handleAdmin]
    unfold handleAdminStreamStart
    cases shouldBindJSON streamStartRequired body with
    | none => rfl
    | some req => exact record_startStream req
  | streamStop body =>
    dsimp only [adminWrite, handleAdmin]
    unfold handleAdminStreamStop
    cases shouldBindJSON isGiven body with
    | none => rfl
    | some stopped => exact record_stopStream stopped
  | triggerKeyRotation => exact record_rotateAllLiveStreams 1 chance.rotation
  | setLatencyMode changed body => exact record_handleSetLatencyMode changed body
  | removeNode id =>
    dsimp only [handleAdmin]
    unfold handleRemoveNode
    dsimp only
    split_ifs <;> rfl
  | setNodeStatus id body =>
    dsimp only [handleAdmin]
    unfold handleSetNodeStatus
    cases shouldBindJSON isGiven body with
    | none => rfl
    | some text =>
      dsimp only
      cases settableStatus text with
      | none => rfl
      | some status =>
        dsimp only
        split_ifs <;> rfl
  | approveNode id =>
    dsimp only [handleAdmin]
    unfold handleApproveNode
    dsimp only
    cases (NodeAdmission.handleApproveNode server.scheduler.store id).2 <;> rfl
  | addDomain body =>
    dsimp only [handleAdmin]
    unfold handleAddDomain
    cases shouldBindJSON isGiven body <;> rfl
  | switchDomain body =>
    dsimp only [handleAdmin]
    unfold handleSwitchDomain
    cases shouldBindJSON isGiven body with
    | none => rfl
    | some domain =>
      dsimp only
      cases server.cfg.domainPool.findIdx? fun d ↦ decide (d = domain) <;> rfl
  | configUpdate body =>
    dsimp only [handleAdmin]
    unfold handleConfigUpdate
    cases body with
    | none => rfl
    | some updates =>
      obtain ⟨timeout, hupdated⟩ := exists_foldl_applyUpdate updates (server, [])
      dsimp only
      rw [hupdated]
      rfl
  | _ => rfl

/-- A request writes what it is to write. -/
theorem record_serve (services : Services) (request : Request) :
    getStream (serve services server chance request).1.streams key =
      (requestWrite server.cfg chance request).record key (getStream server.streams key) := by
  have hsame : ∀ {after : Server}, after.streams = server.streams →
      getStream after.streams key = getStream server.streams key :=
    fun h ↦ congrArg (getStream · key) h
  obtain ⟨route, header, query⟩ := request
  cases route with
  | register body =>
    rcases handleRegister_cases chance body with hquiet | ⟨-, -, hstreams, -⟩
    · exact hsame hquiet.streams
    · exact hsame hstreams
  | heartbeat body =>
    rcases handleHeartbeat_cases chance ⟨.heartbeat body, header, query⟩ body with
      hquiet | ⟨-, -, hstreams, -⟩
    · exact hsame hquiet.streams
    · exact hsame hstreams
  | dispatch body =>
    rcases handleDispatch_cases services chance body with hquiet | ⟨hquiet, -⟩
    · exact hsame hquiet.streams
    · exact hsame hquiet.streams
  | qualityReport body => exact hsame (quiet_handleQualityReport chance body).streams
  | endSession body => exact hsame (quiet_handleEndSession body).streams
  | streamStart body =>
    dsimp only [requestWrite, serve]
    unfold handleStreamStart
    cases shouldBindJSON streamStartRequired body with
    | none => rfl
    | some req =>
      dsimp only
      split_ifs
      · rfl
      · exact record_startStream req
  | streamStop =>
    dsimp only [requestWrite, serve]
    unfold handleStreamStop
    dsimp only
    split_ifs
    · rfl
    · exact record_stopStream _
  | admin route =>
    dsimp only [requestWrite, serve]
    split_ifs
    · exact record_handleAdmin route
    · rfl
  | _ => rfl

/-- A step writes what it is to write, and nothing else. -/
theorem record_step (services : Services) (st : State) (action : Action) :
    getStream (step services st action).server.streams key =
      (writeOf st action).record key (getStream st.server.streams key) := by
  cases action with
  | request request chance =>
    rw [step, server_after]
    exact record_serve services request
  | rotateKeys outcome => exact record_rotateAllLiveStreams 0 outcome
  | cleanup now => rfl
  | cleanupSticky now => rfl
  | tickLatency now =>
    dsimp only [step]
    unfold ServerRun.tickLatency
    cases LatencyControl.checkAndAdjust st.server.latencyCtrl now <;> rfl

/-! ### Live streams -/

/-- The time a record was created, if its stream is live. -/
def liveSince (record : Option StreamInfo) : Option ℕ :=
  (record.filter StreamInfo.isLive).map StreamInfo.createdAt

/-- What a write does to the lease of a live stream. -/
def liveEvent (key : String) : Write → Event
  | .start info => if info.val.streamKey = key then .grant info.val.createdAt else .idle
  | .run (.adminStreamStop stopped) => if stopped = key then .revoke else .idle
  | _ => .idle

/-- A task that stops nothing keeps a stream live or ended. -/
theorem isLive_effect {task : Task} {info : StreamInfo}
    (hstop : task ≠ .adminStreamStop info.streamKey) :
    (effect task info).isLive = info.isLive := by
  cases hlive : info.isLive with
  | false => rw [effect_of_ended task hlive, hlive]
  | true =>
    by_contra hends
    exact hstop (eq_stop_of_ends hlive hends).1

/-- A task that does not stop a stream leaves its lease. -/
theorem liveSince_map_effect {task : Task} {before : Option StreamInfo}
    (hstop : ∀ info ∈ before, task ≠ .adminStreamStop info.streamKey) :
    liveSince (before.map (effect task)) = liveSince before := by
  cases before with
  | none => rfl
  | some info =>
    have hkept : (effect task info).isLive = info.isLive := isLive_effect (hstop info rfl)
    rw [Option.map_some, liveSince, liveSince, Option.filter_some, Option.filter_some, hkept]
    split_ifs
    · exact congrArg some (sameStream_effect task info).createdAt.symm
    · rfl

/-- What a write does to a live stream is what its event does to the lease. Assumes: the record has
the key. -/
theorem liveSince_record (write : Write) {before : Option StreamInfo}
    (hkey : ∀ info ∈ before, info.streamKey = key) :
    liveSince (write.record key before) = after (liveSince before) (liveEvent key write) := by
  cases write with
  | none => rfl
  | start info =>
    obtain ⟨info, hlive⟩ := info
    dsimp only [Write.record, liveEvent]
    by_cases hsame : info.streamKey = key
    · rw [if_pos hsame.symm, if_pos hsame, liveSince, Option.filter_some, if_pos hlive]
      rfl
    · rw [if_neg (Ne.symm hsame), if_neg hsame]
      rfl
  | run task =>
    have halone : (∀ info ∈ before, task ≠ .adminStreamStop info.streamKey) →
        liveSince ((Write.run task).record key before) = liveSince before :=
      liveSince_map_effect
    cases task with
    | rotateAllLiveStreams rotator outcome => exact halone fun _ _ ↦ nofun
    | setLatencyMode changed mode => exact halone fun _ _ ↦ nofun
    | adminStreamStop stopped =>
      dsimp only [liveEvent]
      by_cases hsame : stopped = key
      · rw [if_pos hsame]
        cases before with
        | none => rfl
        | some info =>
          rw [Write.record, Option.map_some, effect, hkey info rfl, if_pos hsame.symm, liveSince,
            Option.filter_some, if_neg Bool.noConfusion]
          rfl
      · rw [if_neg hsame]
        refine halone fun info hinfo heq ↦ hsame ?_
        rw [KeyRotation.Task.adminStreamStop.inj heq, hkey info hinfo]

/-- The time a stream was started, if it is live. -/
def startedAt (key : String) (st : State) : Option ℕ := liveSince (getStream st.server.streams key)

/-- What a step does to a live stream is what its event does to the lease. -/
theorem startedAt_step (services : Services) (st : State) (action : Action) :
    startedAt key (step services st action) =
      after (startedAt key st) (liveEvent key (writeOf st action)) := by
  rw [startedAt, record_step]
  exact liveSince_record (writeOf st action) fun info hinfo ↦ Table.key_of_find? hinfo

/-! ### Who may publish -/

/-- The hook `on_publish` approves a stream. -/
def Approves (server : Server) (key : String) : Prop :=
  handleOnPublish server (some key) = .ok (.hook 0 "")

/-- An action starts a stream. -/
def Starts (key : String) (st : State) (action : Action) : Prop :=
  ∃ info : LiveInfo, writeOf st action = .start info ∧ info.val.streamKey = key

/-- An action stops a stream. -/
def Stops (key : String) (st : State) (action : Action) : Prop :=
  writeOf st action = .run (.adminStreamStop key)

/-- A publisher is approved exactly when its stream is live. -/
theorem approves_iff_isSome (st : State) : Approves st.server key ↔ (startedAt key st).isSome := by
  unfold Approves handleOnPublish startedAt
  dsimp only
  cases getStream st.server.streams key with
  | none => simp [liveSince]
  | some info => cases hlive : info.isLive <;> simp [liveSince, hlive]

theorem takes_liveEvent_iff {held : Option ℕ} {time : ℕ} {st : State} {action : Action} :
    Takes held time (liveEvent key (writeOf st action)) ↔
      ∃ info : LiveInfo, writeOf st action = .start info ∧ info.val.streamKey = key ∧
        info.val.createdAt = time := by
  cases hwrite : writeOf st action with
  | none => exact iff_of_false id fun ⟨info, heq, _⟩ ↦ Write.noConfusion heq
  | start info =>
    dsimp only [liveEvent]
    constructor
    · intro htakes
      split_ifs at htakes with hkey
      · exact ⟨info, rfl, hkey, htakes⟩
      · exact htakes.elim
    · rintro ⟨started, heq, hkey, htime⟩
      obtain rfl := Write.start.inj heq
      rw [if_pos hkey]
      exact htime
  | run task =>
    refine iff_of_false ?_ fun ⟨info, heq, _⟩ ↦ Write.noConfusion heq
    cases task with
    | adminStreamStop stopped =>
      dsimp only [liveEvent]
      split_ifs <;> exact id
    | _ => exact id

/-- A step leaves the lease of a stream alone exactly when it neither starts nor stops it. -/
theorem leavesAlone_liveEvent_iff {held : Option ℕ} {st : State} {action : Action} :
    LeavesAlone held (liveEvent key (writeOf st action)) ↔
      ¬ Starts key st action ∧ ¬ Stops key st action := by
  unfold Starts Stops
  cases hwrite : writeOf st action with
  | none => exact iff_of_true trivial ⟨fun ⟨_, heq, _⟩ ↦ Write.noConfusion heq, nofun⟩
  | start info =>
    dsimp only [liveEvent]
    constructor
    · intro halone
      refine ⟨fun ⟨started, heq, hkey⟩ ↦ ?_, nofun⟩
      obtain rfl := Write.start.inj heq
      rw [if_pos hkey] at halone
      exact halone
    · rintro ⟨hstarts, -⟩
      rw [if_neg fun hkey ↦ hstarts ⟨info, rfl, hkey⟩]
      trivial
  | run task =>
    cases task with
    | adminStreamStop stopped =>
      dsimp only [liveEvent]
      constructor
      · intro halone
        refine ⟨fun ⟨_, heq, _⟩ ↦ Write.noConfusion heq, fun heq ↦ ?_⟩
        rw [if_pos (Task.adminStreamStop.inj (Write.run.inj heq))] at halone
        exact halone
      · rintro ⟨-, hstops⟩
        rw [if_neg fun heq ↦ hstops (by rw [heq])]
        trivial
    | _ => exact iff_of_true trivial ⟨fun ⟨_, heq, _⟩ ↦ Write.noConfusion heq, nofun⟩

/-- After a run a publisher is approved exactly when the stream was live at the start, or was
started in the run, and has been neither started nor stopped since. -/
theorem approves_iff (services : Services) (start : State) (key : String) (actions : List Action) :
    Approves (run (step services) start actions).server key ↔
      (Approves start.server key ∧
        EachStepMeets (step services)
          (fun st action ↦ ¬ Starts key st action ∧ ¬ Stops key st action) start actions) ∨
      ∃ before action since, actions = before ++ action :: since ∧
        Starts key (run (step services) start before) action ∧
        EachStepMeets (step services)
          (fun st action ↦ ¬ Starts key st action ∧ ¬ Stops key st action)
          (step services (run (step services) start before) action) since := by
  have hheld : ∀ time, startedAt key (run (step services) start actions) = some time ↔ _ :=
    fun time ↦ held_iff (step services) (startedAt key)
      (fun st action ↦ liveEvent key (writeOf st action)) (fun _ ↦ True) (fun _ _ _ ↦ trivial)
      (fun st action _ ↦ startedAt_step services st action) trivial actions
  rw [approves_iff_isSome, approves_iff_isSome, Option.isSome_iff_exists, Option.isSome_iff_exists]
  simp only [hheld, takes_liveEvent_iff, leavesAlone_liveEvent_iff]
  constructor
  · rintro ⟨time, ⟨hstart, halone⟩ |
      ⟨before, action, since, hsplit, ⟨info, hwrite, hkey, -⟩, halone⟩⟩
    · exact Or.inl ⟨⟨time, hstart⟩, halone⟩
    · exact Or.inr ⟨before, action, since, hsplit, ⟨info, hwrite, hkey⟩, halone⟩
  · rintro (⟨⟨time, hstart⟩, halone⟩ |
      ⟨before, action, since, hsplit, ⟨info, hwrite, hkey⟩, halone⟩)
    · exact ⟨time, Or.inl ⟨hstart, halone⟩⟩
    · exact ⟨info.val.createdAt,
        Or.inr ⟨before, action, since, hsplit, ⟨info, hwrite, hkey, rfl⟩, halone⟩⟩

/-! ### The key of a stream -/

/-- The key, the IV and the cipher suite of a record. -/
def secretsOf (info : StreamInfo) : String × String × String :=
  (info.encryptKey, info.encryptIV, info.cipherSuite)

/-- The key, the IV and the cipher suite of a stream. -/
def secrets (key : String) (st : State) : Option (String × String × String) :=
  (getStream st.server.streams key).map secretsOf

/-- A step that gives a stream no other key: no start does, and no rotation that comes after the
interval, knows the cipher suite and has a key generated. -/
def KeepsKey (key : String) (st : State) (action : Action) : Prop :=
  match writeOf st action with
  | .start info => info.val.streamKey = key → secrets key st = some (secretsOf info.val)
  | .run (.rotateAllLiveStreams _ outcome) =>
    ∀ info ∈ getStream st.server.streams key, info.isLive = true →
      keyRotationInterval ≤ outcome.now key - info.createdAt →
        ∀ suite, normalizeCipherSuite info.cipherSuite = .ok suite →
          ∀ keyIV, outcome.generateKey key suite = some keyIV →
            keyIV = (info.encryptKey, info.encryptIV)
  | _ => True

/-- A task other than a rotation leaves the key of a stream. -/
theorem secretsOf_effect {task : Task} {info : StreamInfo}
    (htask : ∀ rotator outcome, task ≠ .rotateAllLiveStreams rotator outcome) :
    secretsOf (effect task info) = secretsOf info := by
  cases task with
  | rotateAllLiveStreams rotator outcome => exact (htask rotator outcome rfl).elim
  | adminStreamStop stopped =>
    dsimp only [effect]
    split_ifs <;> rfl
  | setLatencyMode changed mode =>
    dsimp only [effect]
    split_ifs <;> rfl

/-- A rotation leaves the key of a live stream exactly when it does not renew it with another. -/
theorem secretsOf_rotated_iff {rotator : ℕ} {outcome : RotationOutcome} {info : StreamInfo}
    (hlive : info.isLive = true) :
    secretsOf (effect (.rotateAllLiveStreams rotator outcome) info) = secretsOf info ↔
      (keyRotationInterval ≤ outcome.now info.streamKey - info.createdAt →
        ∀ suite, normalizeCipherSuite info.cipherSuite = .ok suite →
          ∀ keyIV, outcome.generateKey info.streamKey suite = some keyIV →
            keyIV = (info.encryptKey, info.encryptIV)) := by
  dsimp only [effect]
  rw [if_pos hlive]
  cases hrenewed : renewedStream outcome info with
  | none =>
    refine iff_of_true rfl fun hdue suite hsuite keyIV hgenerated ↦ ?_
    have hsome : renewedStream outcome info = some _ :=
      renewedStream_eq_some_iff.mpr ⟨hdue, suite, hsuite, keyIV.1, keyIV.2, hgenerated, rfl⟩
    exact (Option.some_ne_none _ (hsome.symm.trans hrenewed)).elim
  | some updated =>
    obtain ⟨hdue, suite, hsuite, newKey, newIV, hgenerated, rfl⟩ :=
      renewedStream_eq_some_iff.mp hrenewed
    rw [Option.getD_some]
    constructor
    · intro hsame hdue other hother keyIV hkeyIV
      obtain rfl := Except.ok.inj (hsuite.symm.trans hother)
      obtain rfl := Option.some.inj (hgenerated.symm.trans hkeyIV)
      obtain ⟨rfl, hrest⟩ : newKey = info.encryptKey ∧ _ = _ := Prod.mk.inj hsame
      exact Prod.ext rfl (Prod.mk.inj hrest).1
    · intro hsame
      obtain ⟨rfl, rfl⟩ := Prod.mk.inj (hsame hdue suite hsuite (newKey, newIV) hgenerated)
      rfl

/-- A step leaves the key of a stream that is stored exactly when it gives it no other. -/
theorem secrets_step_iff (services : Services) {st : State}
    (hstored : (secrets key st).isSome = true) (action : Action) :
    secrets key (step services st action) = secrets key st ↔ KeepsKey key st action := by
  obtain ⟨stored, hsecrets⟩ := Option.isSome_iff_exists.mp hstored
  obtain ⟨info, hinfo, rfl⟩ := Option.map_eq_some_iff.mp hsecrets
  have hkey : info.streamKey = key := Table.key_of_find? hinfo
  have hstep : secrets key (step services st action) =
      ((writeOf st action).record key (some info)).map secretsOf := by
    rw [secrets, record_step, hinfo]
  rw [hstep, hsecrets, KeepsKey]
  cases writeOf st action with
  | none => exact iff_of_true rfl trivial
  | start started =>
    dsimp only [Write.record]
    by_cases hsame : key = started.val.streamKey
    · rw [if_pos hsame, Option.map_some, forall_prop_of_true hsame.symm, hsecrets]
      exact eq_comm
    · rw [if_neg hsame]
      exact iff_of_true rfl fun h ↦ (hsame h.symm).elim
  | run task =>
    dsimp only [Write.record]
    rw [Option.map_some, Option.map_some, Option.some_inj, hinfo]
    cases task with
    | rotateAllLiveStreams rotator outcome =>
      dsimp only
      simp only [Option.mem_some_iff, forall_eq']
      cases hlive : info.isLive with
      | false =>
        rw [effect_of_ended _ hlive]
        exact iff_of_true rfl fun h ↦ Bool.noConfusion h
      | true =>
        rw [secretsOf_rotated_iff hlive, hkey]
        exact ⟨fun h _ ↦ h, fun h ↦ h rfl⟩
    | adminStreamStop stopped => exact iff_of_true (secretsOf_effect fun _ _ ↦ nofun) trivial
    | setLatencyMode changed mode =>
      exact iff_of_true (secretsOf_effect fun _ _ ↦ nofun) trivial

/-- A viewer gets the key of its stream. -/
theorem secrets_of_handleGetKey {services : Services} {st : State} {viewer : Request}
    {response : KeyResponse}
    (hreply : handleGetKey st.server services chance viewer = .ok (.key response)) :
    secrets response.keyOf st = some (response.key, response.iv, response.cipher) := by
  unfold handleGetKey at hreply
  dsimp only at hreply
  split_ifs at hreply
  cases hcheck : checkSignature st.server.cfg services chance.now (viewer.query "session_id")
      (viewer.query "ts") (viewer.query "sig") with
  | some refusal =>
    rw [hcheck] at hreply
    exact (KeyReplay.ne_key_of_checkSignature hcheck response hreply).elim
  | none =>
    rw [hcheck] at hreply
    dsimp only at hreply
    cases hsession : st.server.sessions.find? (viewer.query "session_id") with
    | none =>
      rw [hsession] at hreply
      exact Reply.noConfusion hreply
    | some session =>
      rw [hsession] at hreply
      dsimp only at hreply
      split_ifs at hreply
      cases hstream : getStream st.server.streams session.streamKey with
      | none =>
        rw [hstream] at hreply
        exact Reply.noConfusion hreply
      | some stream =>
        rw [hstream] at hreply
        obtain rfl := Body.key.inj (Reply.ok.inj hreply)
        have hkey : stream.streamKey = session.streamKey := Table.key_of_find? hstream
        rw [secrets, hkey, hstream, Option.map_some]
        rfl

/-- An agent gets the record of its stream. -/
theorem secrets_of_handleAgentGetStream {st : State} {agent : Request} {info : StreamInfo}
    (hreply : handleAgentGetStream st.server agent key = .ok (.stream info)) :
    secrets key st = some (secretsOf info) := by
  unfold handleAgentGetStream at hreply
  split_ifs at hreply
  cases hstream : getStream st.server.streams key with
  | none =>
    rw [hstream] at hreply
    exact Reply.noConfusion hreply
  | some stream =>
    rw [hstream] at hreply
    dsimp only at hreply
    split_ifs at hreply
    obtain rfl := Body.stream.inj (Reply.ok.inj hreply)
    rw [secrets, hstream, Option.map_some]

/-- A viewer whose key request is answered in every state of a run gets each time the key that an
agent has fetched at its start exactly when no step of the run gives the stream another. Assumes:
the agent's request was answered, and so is the viewer's in every state. -/
theorem sharesKey_iff {services : Services} {start : State} {agent viewer : Request} {key : String}
    {info : StreamInfo} (hagent : handleAgentGetStream start.server agent key = .ok (.stream info))
    {actions : List Action}
    (hviewer : ∀ taken, taken <+: actions → ∃ chance response,
      handleGetKey (run (step services) start taken).server services chance viewer =
        .ok (.key response) ∧ response.keyOf = key) :
    (∀ taken, taken <+: actions → ∀ chance response,
        handleGetKey (run (step services) start taken).server services chance viewer =
          .ok (.key response) → response.keyOf = key →
            response.key = info.encryptKey ∧ response.iv = info.encryptIV ∧
              response.cipher = info.cipherSuite) ↔
      EachStepMeets (step services) (KeepsKey key) start actions := by
  have hfetched : secrets key start = some (secretsOf info) :=
    secrets_of_handleAgentGetStream hagent
  have hsame : (∀ taken, taken <+: actions →
      secrets key (run (step services) start taken) = secrets key start) ↔
        EachStepMeets (step services) (KeepsKey key) start actions := by
    rw [forall_prefix_view_eq_iff]
    refine eachStepMeets_iff_of_kept (step services)
      (fun st action (hst : (secrets key st).isSome = true) hkept ↦ ?_)
      (fun st action hst ↦ secrets_step_iff services hst action) (by rw [hfetched]; rfl) actions
    rw [hkept]
    exact hst
  rw [← hsame, hfetched]
  refine forall₂_congr fun taken htaken ↦ ?_
  constructor
  · intro hshares
    obtain ⟨chance, response, hreply, hkey⟩ := hviewer taken htaken
    obtain ⟨hk, hiv, hcipher⟩ := hshares chance response hreply hkey
    have hserved : secrets response.keyOf _ = _ := secrets_of_handleGetKey hreply
    rw [← hkey, hserved, hk, hiv, hcipher]
    rfl
  · intro hsecrets chance response hreply hkey
    have hserved : secrets response.keyOf _ = _ := secrets_of_handleGetKey hreply
    rw [hkey, hsecrets] at hserved
    obtain ⟨hk, hrest⟩ : info.encryptKey = response.key ∧ _ = _ :=
      Prod.mk.inj (Option.some.inj hserved)
    exact ⟨hk.symm, (Prod.mk.inj hrest).1.symm, (Prod.mk.inj hrest).2.symm⟩

/-- A request of an agent with the token of `plainConfig`. -/
def agentRequest : Request where
  route := .agentGetStream "stream"
  header name := if name = "X-LiveCDN-Token" then "reg" else ""
  query _ := ""

/-- A minute after the start of its stream the keys are rotated, and then the stream is stopped. -/
def youngStream : List Action :=
  [.rotateKeys ⟨id, List.Perm.refl, fun _ ↦ 60 * NodeStore.second, fun _ _ ↦ some ("new", "new")⟩,
    .request (adminRequest (.streamStop (some "stream"))) plainChance]

theorem sharesKey_iff_witness :
    EachStepMeets (step plainServices) (KeepsKey "stream")
        ⟨KeyReplay.watchedServer, [], fun _ ↦ []⟩ youngStream ∧
      ∀ taken, taken <+: youngStream → ∀ chance response,
        handleGetKey
            (run (step plainServices) ⟨KeyReplay.watchedServer, [], fun _ ↦ []⟩ taken).server
            plainServices chance SessionLease.unsignedRequest = .ok (.key response) →
          response.keyOf = "stream" → response.key = "key" ∧ response.iv = "iv" ∧
            response.cipher = "aes-128-cbc" := by
  have hkeeps : EachStepMeets (step plainServices) (KeepsKey "stream")
      ⟨KeyReplay.watchedServer, [], fun _ ↦ []⟩ youngStream := by
    refine ⟨?_, trivial, trivial⟩
    rintro info hinfo - hdue
    have hcreated : info.createdAt = 0 := by
      rw [← Option.some.inj hinfo]
    rw [hcreated] at hdue
    exact absurd hdue (by decide)
  refine ⟨hkeeps, (@sharesKey_iff plainServices ⟨KeyReplay.watchedServer, [], fun _ ↦ []⟩
    agentRequest SessionLease.unsignedRequest "stream"
    ⟨"stream", "", "", "key", "iv", "aes-128-cbc", true, 0, latencyUltra⟩ ?_ youngStream ?_).mpr
      hkeeps⟩
  · decide +kernel
  · intro taken htaken
    refine ⟨plainChance, ⟨"key", "stream", "iv", "aes-128-cbc", 60⟩, ?_, rfl⟩
    rcases List.prefix_cons_iff.mp htaken with rfl | ⟨rest, rfl, hrest⟩
    · decide +kernel
    · rcases List.prefix_cons_iff.mp hrest with rfl | ⟨last, rfl, hlast⟩
      · decide +kernel
      · rw [List.prefix_nil.mp hlast]
        decide +kernel

end LiveCDN.Controller.StreamLease
