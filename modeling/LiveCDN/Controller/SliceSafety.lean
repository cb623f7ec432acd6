import LiveCDN.Controller.SlicePanics

/-!
# Which slices are in range

Where the strings come from that the log lines of the server cut (`SlicePanics`), on a server that
runs from any nodes, streams and tokens it has restored. Session ids and the keys of new streams are
generated, so none of those is short. What is left are the tokens that a dispatch rejects and the
keys to stop, which clients send as they like, and the keys of stored streams (`slicesInRange_iff`).
A server that has restored nothing stores generated keys only, and there only what clients send can
be short (`slicesInRange_iff_of_long`).
-/

set_option autoImplicit false
set_option relaxedAutoImplicit false

namespace LiveCDN.Controller.SliceSafety

open Library.KeyedTable Library.GuardedRun NodeStore StreamStore Dispatch HttpServer Handlers
  AdminHandlers RotationFrame SlicePanics

open Persistence (Memory)

open KeyRotation (RotationOutcome)

/-- Every slice of a step of a running process is in range, and the step does not panic. -/
def SlicesInRange (services : Services) (st : State) (action : ServerRun.Action) : Prop :=
  st.ended = false →
    (∀ text ∈ sliced services st action, Long text) ∧ ¬Panics services st action

/-! ### Where strings come from -/

/-- The keys of the live streams that are due are long. -/
def LongWhenDue (outcome : RotationOutcome) (table : Table StreamInfo.streamKey) : Prop :=
  ∀ stream ∈ table.rows, IsDue outcome stream → Long stream.streamKey

/-- A token that is rejected is long, and so is the key of a live stream that is dispatched. -/
def LongForDispatch (server : Server) (chance : Chance) (body : Option DispatchRequest) : Prop :=
  ∀ req, shouldBindJSON (fun req ↦ isGiven req.streamKey && isGiven req.token) body = some req →
    if server.mem.validateToken req.token = some req.streamKey then
      (getStream server.streams req.streamKey).any StreamInfo.isLive = true →
        isCapacityFull server.scheduler.store chance.now = false → Long req.streamKey
    else Long req.token

/-- A key to stop is long, and so are those of streams to rotate and of a live stream whose mode is
set. -/
def LongForAdmin (server : Server) (chance : Chance) : AdminRoute → Prop
  | .streamStop body => ∀ key, shouldBindJSON isGiven body = some key → Long key
  | .triggerKeyRotation => LongWhenDue chance.rotation server.streams
  | .setLatencyMode key body => ∀ mode, shouldBindJSON isGiven body = some mode →
    mode = latencyUltra ∨ mode = latencyStandard ∨ mode = latencyResilient →
      (getStream server.streams key).any StreamInfo.isLive = true → Long key
  | _ => True

/-- The tokens and keys that clients send and the keys of stored streams are long, where a step cuts
them. -/
def LongInputs (st : State) : ServerRun.Action → Prop
  | .request request chance =>
    match request.route with
    | .dispatch body => LongForDispatch st.server chance body
    | .streamStop => request.query "access_token" = st.server.cfg.adminToken →
      Long (request.query "stream_key")
    | .admin route => authAdmin st.server.cfg request = true →
      LongForAdmin st.server chance route
    | _ => True
  | .rotateKeys outcome => LongWhenDue outcome st.server.streams
  | _ => True

variable {server : Server} {services : Services} {st : State}

/-! ### What has to be long -/

theorem longWhenDue_iff {outcome : RotationOutcome} {table : Table StreamInfo.streamKey} :
    (∀ text ∈ slicedByRotation outcome table, Long text) ↔ LongWhenDue outcome table := by
  simp only [mem_slicedByRotation, LongWhenDue]
  constructor
  · exact fun hall stream hstream hdue ↦ hall _ ⟨stream, hstream, hdue, rfl⟩
  · rintro hlong text ⟨stream, hstream, hdue, rfl⟩
    exact hlong stream hstream hdue

theorem longForDispatch_iff {chance : Chance} {body : Option DispatchRequest} :
    (∀ text ∈ slicedByDispatch server services chance body, Long text) ↔
      LongForDispatch server chance body := by
  have hid : Long chance.sessionID := long_sessionID chance
  unfold slicedByDispatch LongForDispatch
  cases shouldBindJSON (fun req ↦ isGiven req.streamKey && isGiven req.token) body with
  | none => simp
  | some req =>
    simp only [Option.some.injEq, forall_eq']
    by_cases hvalid : server.mem.validateToken req.token = some req.streamKey
    · rw [if_neg (not_not.mpr hvalid), if_pos hvalid]
      cases getStream server.streams req.streamKey with
      | none => simp
      | some stream =>
        dsimp only [Option.any_some]
        cases hlive : stream.isLive with
        | false => simp
        | true =>
          cases hfull : isCapacityFull server.scheduler.store chance.now with
          | true => simp
          | false =>
            rw [if_neg Bool.noConfusion, if_neg Bool.noConfusion]
            split <;> simp [hid]
    · rw [if_pos hvalid, if_neg hvalid]
      simp

theorem longForMode_iff {streamKey : String} {body : Option String} :
    (∀ text ∈ slicedBySetLatencyMode server streamKey body, Long text) ↔
      ∀ mode, shouldBindJSON isGiven body = some mode →
        mode = latencyUltra ∨ mode = latencyStandard ∨ mode = latencyResilient →
          (getStream server.streams streamKey).any StreamInfo.isLive = true → Long streamKey := by
  unfold slicedBySetLatencyMode
  cases shouldBindJSON isGiven body with
  | none => simp
  | some mode =>
    simp only [Option.some.injEq, forall_eq']
    by_cases hmode : mode = latencyUltra ∨ mode = latencyStandard ∨ mode = latencyResilient
    · rw [if_neg (by tauto), forall_prop_of_true hmode]
      cases getStream server.streams streamKey with
      | none => simp
      | some stream =>
        dsimp only [Option.any_some]
        cases hlive : stream.isLive <;> simp
    · rw [if_pos (by tauto), forall_prop_of_false hmode]
      simp

/-- The key of a new stream is generated. -/
theorem long_of_mem_slicedByStart {chance : Chance} {text : String}
    (htext : text ∈ slicedByStart server chance) : Long text := by
  unfold slicedByStart at htext
  split at htext
  · cases htext
  · split_ifs at htext
    · obtain rfl := List.mem_singleton.mp htext
      exact long_streamKey chance
    · cases htext

/-- The id of a session that a report lowers is that of a stored session. -/
theorem long_of_mem_slicedByReport (hserver : Generated server) {chance : Chance}
    {body : Option QualityReport} {text : String}
    (htext : text ∈ slicedByReport server chance body) : Long text := by
  unfold slicedByReport at htext
  cases body with
  | none => cases htext
  | some report =>
    dsimp only at htext
    have hcut : text = report.sessionID ∧
        (server.touchSession chance.now report.sessionID).2 ≠ false := by
      split_ifs at htext with _ htouched
      · exact absurd htext List.not_mem_nil
      · exact absurd htext List.not_mem_nil
      · exact absurd htext List.not_mem_nil
      · exact ⟨List.mem_singleton.mp htext, htouched⟩
      · exact absurd htext List.not_mem_nil
      · exact absurd htext List.not_mem_nil
    exact hcut.1 ▸ long_of_touched hserver hcut.2

theorem longForAdmin_iff {chance : Chance} {route : AdminRoute} :
    (∀ text ∈ slicedByAdmin server chance route, Long text) ↔ LongForAdmin server chance route := by
  cases route with
  | streamStart body =>
    refine iff_of_true (fun text htext ↦ ?_) trivial
    change text ∈ slicedByAdminStreamStart server chance body at htext
    unfold slicedByAdminStreamStart at htext
    split at htext
    · cases htext
    · exact long_of_mem_slicedByStart htext
  | streamStop body => simp [slicedByAdmin, slicedByAdminStreamStop, LongForAdmin]
  | triggerKeyRotation => exact longWhenDue_iff
  | setLatencyMode key body => exact longForMode_iff
  | _ => exact iff_of_true (fun text htext ↦ absurd htext List.not_mem_nil) trivial

/-- Of the strings that a step cuts only those of clients and stored streams can be short. Assumes:
the ids of the sessions are long. -/
theorem longInputs_iff (hst : Generated st.server) (action : ServerRun.Action) :
    (∀ text ∈ sliced services st action, Long text) ↔ LongInputs st action := by
  have hnone : ∀ text ∈ ([] : List String), Long text := fun text htext ↦
    absurd htext List.not_mem_nil
  cases action with
  | cleanup now => exact iff_of_true hnone trivial
  | cleanupSticky now => exact iff_of_true hnone trivial
  | rotateKeys outcome => exact longWhenDue_iff
  | tickLatency now =>
    refine iff_of_true (fun text htext ↦ ?_) trivial
    obtain ⟨state, hstate, rfl⟩ := List.mem_map.mp htext
    exact hst.latencyCtrl state (List.mem_filter.mp hstate).1
  | request request chance =>
    obtain ⟨route, header, query⟩ := request
    cases route with
    | dispatch body => exact longForDispatch_iff
    | qualityReport body =>
      exact iff_of_true (fun text htext ↦ long_of_mem_slicedByReport hst htext) trivial
    | streamStart body =>
      refine iff_of_true (fun text htext ↦ ?_) trivial
      change text ∈ slicedByStreamStart st.server chance body at htext
      unfold slicedByStreamStart at htext
      split at htext
      · cases htext
      · split_ifs at htext
        · cases htext
        · exact long_of_mem_slicedByStart htext
    | streamStop =>
      change (∀ text ∈ slicedByStreamStop st.server _, Long text) ↔ (_ → _)
      unfold slicedByStreamStop
      split_ifs with htoken
      · exact iff_of_true hnone fun hsame ↦ absurd hsame htoken
      · rw [forall_prop_of_true (not_not.mp htoken), List.forall_mem_singleton]
    | admin route =>
      unfold sliced slicedByRequest LongInputs
      dsimp only
      split_ifs with hauth
      · rw [forall_prop_of_true hauth, longForAdmin_iff]
      · exact iff_of_true hnone fun hsame ↦ absurd hsame hauth
    | _ => exact iff_of_true hnone trivial

/-! ### Runs from restored records -/

/-- No session is restored. -/
theorem generated_restored (cfg : Config) (mem : Memory) :
    Generated (State.restored cfg mem).server :=
  ⟨fun _ hsession ↦ absurd hsession List.not_mem_nil,
    fun _ hstate ↦ absurd hstate List.not_mem_nil⟩

/-- The process runs, and the ids of the sessions are long. -/
structure Running (st : State) : Prop where
  generated : Generated st.server
  runs : st.ended = false

theorem running_restored (cfg : Config) (mem : Memory) : Running (.restored cfg mem) :=
  ⟨generated_restored cfg mem, rfl⟩

/-- The slices of a step are in range exactly when what it cuts of clients and stored streams is
long. Assumes: the process runs, and the ids of the sessions are long. -/
theorem slicesInRange_step_iff (hst : Running st) (action : ServerRun.Action) :
    SlicesInRange services st action ↔ LongInputs st action := by
  rw [SlicesInRange, forall_prop_of_true hst.runs, panics_iff hst.generated hst.runs,
    ← longInputs_iff hst.generated, and_iff_left_iff_imp]
  rintro hlong ⟨text, htext, hshort⟩
  exact hshort (hlong text htext)

/-- A step whose slices are in range keeps the process running. -/
theorem running_step (hst : Running st) {action : ServerRun.Action}
    (hrange : SlicesInRange services st action) : Running (step services st action) := by
  refine ⟨generated_step hst.generated action, ?_⟩
  have hcalm := (hrange hst.runs).2
  cases action with
  | request request chance => simp [step, hst.runs]
  | _ => exact Bool.eq_false_of_not_eq_true hcalm

/-- Along every run of a server from what it has restored, all slices are in range and nothing
panics exactly when, at each step that cuts them, the tokens and keys that clients send and the keys
of stored streams are long. -/
theorem slicesInRange_iff (services : Services) (cfg : Config) (mem : Memory)
    (actions : List ServerRun.Action) :
    EachStepMeets (step services) (SlicesInRange services) (.restored cfg mem) actions ↔
      EachStepMeets (step services) LongInputs (.restored cfg mem) actions := by
  have hkept : ∀ st action, Running st → SlicesInRange services st action →
      Running (step services st action) := fun st action hst hrange ↦ running_step hst hrange
  exact eachStepMeets_iff_of_kept (step services) hkept
    (fun st action hst ↦ slicesInRange_step_iff hst action) (running_restored cfg mem) actions

/-! ### Runs on long keys -/

/-- A token that is rejected and a key to stop are long. -/
def LongFromClients (st : State) : ServerRun.Action → Prop
  | .request request _ =>
    match request.route with
    | .dispatch body => ∀ req,
      shouldBindJSON (fun req ↦ isGiven req.streamKey && isGiven req.token) body = some req →
        st.server.mem.validateToken req.token ≠ some req.streamKey → Long req.token
    | .streamStop => request.query "access_token" = st.server.cfg.adminToken →
      Long (request.query "stream_key")
    | .admin (.streamStop body) => authAdmin st.server.cfg request = true →
      ∀ key, shouldBindJSON isGiven body = some key → Long key
    | _ => True
  | _ => True

/-- On long keys only what clients send can be short. -/
theorem longFromClients_iff (hkeys : LongKeys st.server) (action : ServerRun.Action) :
    LongInputs st action ↔ LongFromClients st action := by
  have hrotation : ∀ outcome, LongWhenDue outcome st.server.streams :=
    fun outcome stream hstream _ ↦ hkeys stream hstream
  cases action with
  | rotateKeys outcome => exact iff_of_true (hrotation outcome) trivial
  | request request chance =>
    obtain ⟨route, header, query⟩ := request
    cases route with
    | dispatch body =>
      change (∀ req, _ → _) ↔ ∀ req, _ → _
      refine forall₂_congr fun req _ ↦ ?_
      split_ifs with hvalid
      · exact iff_of_true (fun hlive _ ↦ hkeys.of_live hlive) fun hne ↦ absurd hvalid hne
      · rw [forall_prop_of_true hvalid]
    | admin route =>
      cases route with
      | triggerKeyRotation => exact iff_of_true (fun _ ↦ hrotation chance.rotation) trivial
      | setLatencyMode key body =>
        exact iff_of_true (fun _ _ _ _ hlive ↦ hkeys.of_live hlive) trivial
      | streamStop body => exact Iff.rfl
      | _ => exact iff_of_true (fun _ ↦ trivial) trivial
    | _ => exact Iff.rfl
  | _ => exact Iff.rfl

/-- Along every run of a server that has restored long keys only, or nothing, all slices are in
range and nothing panics exactly when every token that a dispatch rejects and every key to stop is
long. Assumes: the restored keys are long. -/
theorem slicesInRange_iff_of_long (services : Services) (cfg : Config) {mem : Memory}
    (hmem : ∀ stream ∈ mem.streams.rows, Long stream.streamKey)
    (actions : List ServerRun.Action) :
    EachStepMeets (step services) (SlicesInRange services) (.restored cfg mem) actions ↔
      EachStepMeets (step services) LongFromClients (.restored cfg mem) actions := by
  have hkept : ∀ st action, Running st ∧ LongKeys st.server → SlicesInRange services st action →
      Running (step services st action) ∧ LongKeys (step services st action).server :=
    fun st action hst hrange ↦
      ⟨running_step hst.1 hrange, longKeys_step hst.1.generated hst.2 action⟩
  refine eachStepMeets_iff_of_kept (step services) hkept (fun st action hst ↦ ?_)
    ⟨running_restored cfg mem, hmem⟩ actions
  exact (slicesInRange_step_iff hst.1 action).trans (longFromClients_iff hst.2 action)

/-! ### Short strings -/

/-- Nothing restored. -/
def nothingRestored : Memory := ⟨newMemoryStore, Table.empty, Table.empty⟩

/-- A player that guesses a token of three bytes. -/
def shortGuess : ServerRun.Action :=
  .request (ServerRun.plainRequest (.dispatch (some ⟨"channel-1", "abc", "203.0.113.7"⟩)))
    ServerRun.plainChance

/-- A stream restored with a key of three bytes. -/
def shortRecord : Memory :=
  ⟨newMemoryStore, ⟨[{ resilientStream with streamKey := "abc" }], List.nodup_singleton _⟩,
    Table.empty⟩

/-- The rejected guess panics in its request, and the next rotation of the short key ends the
process. -/
theorem not_slicesInRange_shortGuess :
    Panics ServerRun.plainServices (.restored ServerRun.plainConfig nothingRestored) shortGuess ∧
      ¬EachStepMeets (step ServerRun.plainServices) (SlicesInRange ServerRun.plainServices)
        (.restored ServerRun.plainConfig nothingRestored) [shortGuess] ∧
      (step ServerRun.plainServices (.restored ServerRun.plainConfig shortRecord)
        (.rotateKeys tenthMinute)).ended = true := by
  have hpanics : Panics ServerRun.plainServices (.restored ServerRun.plainConfig nothingRestored)
      shortGuess := by
    change (serve ServerRun.plainServices
      (State.restored ServerRun.plainConfig nothingRestored).server ServerRun.plainChance
      (ServerRun.plainRequest (.dispatch (some ⟨"channel-1", "abc", "203.0.113.7"⟩)))).2 = _
    decide +kernel
  exact ⟨hpanics, fun hrun ↦ (hrun.1 rfl).2 hpanics, by decide +kernel⟩

end LiveCDN.Controller.SliceSafety
