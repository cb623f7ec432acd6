import LiveCDN.Controller.HandlerEffects
import LiveCDN.Controller.QualityReports
import LiveCDN.Library.Streak

/-!
# How many bad reports eject a node

The outlier state of a node over whole runs of the server. Only `handleQualityReport` and the
`RecoverOutliers` of `cleanupLoop` write it (`outlierMap_serve`, `outlierMap_step`): a report that
complains counts a failure and ejects the node from the fifth on, a report that praises it takes the
count back, and the end of an ejection does so too.

A report praises its node only if it carries a positive round trip, and the player of the repository
sends none. So a good report can leave the count as it is. `PraiseCounts` is the condition on a step
that a good report does not: it has a round trip, or its node has no counted failures. A run meets
it exactly when in each part of it, and in whatever complaints follow, a node is ejected only at the
fifth bad report in a row (`ejectsInARow_iff`).

Scope. A report counts when the handler records it: its session is there and it names a node. The
clock is read once for a report.
-/

set_option autoImplicit false
set_option relaxedAutoImplicit false

namespace LiveCDN.Controller.Ejection

open Library Library.Binary64 Library.GuardedRun Library.Streak NodeStore Scheduling
  OutlierDetection HttpServer Handlers AdminHandlers

/-! ### Who writes the outlier states -/

/-- A dispatch leaves the outlier states alone. -/
theorem outlierMap_dispatch (s : Scheduler) (lookup : String → String × String)
    (outcome : Outcome) (now : ℕ) (clientIP clientRegion clientISP : String) :
    (s.dispatch lookup outcome now clientIP clientRegion clientISP).2.outlierMap =
      s.outlierMap := by
  unfold Scheduler.dispatch
  dsimp only
  split_ifs
  · rfl
  all_goals
    split
    · rfl
    · split <;> rfl

variable {server : Server}

theorem outlierMap_handleRegister (chance : Chance) (body : Option Registration) :
    (handleRegister server chance body).1.scheduler.outlierMap = server.scheduler.outlierMap := by
  unfold handleRegister
  split
  · rfl
  · split_ifs <;> rfl

theorem outlierMap_handleHeartbeat (chance : Chance) (request : Request)
    (body : Option HeartbeatRequest) :
    (handleHeartbeat server chance request body).1.scheduler.outlierMap =
      server.scheduler.outlierMap := by
  unfold handleHeartbeat
  split_ifs
  · rfl
  · split
    · rfl
    · split <;> rfl

theorem outlierMap_dispatchStream (services : Services) (chance : Chance)
    (stream : StreamStore.StreamInfo) (streamKey clientIP : String) :
    (dispatchStream server services chance stream streamKey clientIP).1.scheduler.outlierMap =
      server.scheduler.outlierMap := by
  unfold dispatchStream
  dsimp only
  split
  · split_ifs <;> exact outlierMap_dispatch ..
  · split_ifs <;> exact outlierMap_dispatch ..

theorem outlierMap_handleDispatch (services : Services) (chance : Chance)
    (body : Option DispatchRequest) :
    (handleDispatch server services chance body).1.scheduler.outlierMap =
      server.scheduler.outlierMap := by
  unfold handleDispatch
  split
  · rfl
  · split
    · split <;> rfl
    · split
      · rfl
      · split
        · rfl
        · split
          · rfl
          · exact outlierMap_dispatchStream ..

theorem scheduler_startStream (chance : Chance) (req : StreamStartRequest) :
    (startStream server chance req).1.scheduler = server.scheduler := by
  unfold startStream
  split
  · rfl
  · split <;> rfl

theorem scheduler_stopStream (streamKey : String) :
    (stopStream server streamKey).1.scheduler = server.scheduler := by
  unfold stopStream
  dsimp only
  split_ifs <;> rfl

/-- The admin handlers leave the outlier states alone. -/
theorem outlierMap_handleAdmin (chance : Chance) (route : AdminRoute) :
    (handleAdmin server chance route).1.scheduler.outlierMap = server.scheduler.outlierMap := by
  cases route with
  | removeNode id =>
    change (handleRemoveNode server id).1.scheduler.outlierMap = _
    unfold handleRemoveNode
    dsimp only
    split_ifs <;> rfl
  | setNodeStatus id body =>
    change (handleSetNodeStatus server id body).1.scheduler.outlierMap = _
    unfold handleSetNodeStatus
    split
    · rfl
    · split
      · rfl
      · dsimp only
        split_ifs <;> rfl
  | approveNode id =>
    change (AdminHandlers.handleApproveNode server id).1.scheduler.outlierMap = _
    unfold AdminHandlers.handleApproveNode
    dsimp only
    split <;> rfl
  | streamStart body =>
    change (handleAdminStreamStart server chance body).1.scheduler.outlierMap = _
    unfold handleAdminStreamStart
    split
    · rfl
    · rw [scheduler_startStream]
  | streamStop body =>
    change (handleAdminStreamStop server body).1.scheduler.outlierMap = _
    unfold handleAdminStreamStop
    split
    · rfl
    · rw [scheduler_stopStream]
  | setLatencyMode key body =>
    change (handleSetLatencyMode server key body).1.scheduler.outlierMap = _
    unfold handleSetLatencyMode
    split
    · rfl
    · split
      · rfl
      · split
        · rfl
        · dsimp only
          split_ifs <;> rfl
  | addDomain body =>
    change (handleAddDomain server body).1.scheduler.outlierMap = _
    unfold handleAddDomain
    split <;> rfl
  | switchDomain body =>
    change (handleSwitchDomain server body).1.scheduler.outlierMap = _
    unfold handleSwitchDomain
    split
    · rfl
    · split <;> rfl
  | configUpdate body =>
    change (handleConfigUpdate server body).1.scheduler.outlierMap = _
    unfold handleConfigUpdate
    split
    · rfl
    · rw [(HandlerEffects.foldl_applyUpdate _ _).2]
  | listNodes | listStreams | stats | listSessions | getConfig | triggerKeyRotation | listDomains
  | removeDomain domain | auditQuery | auditIntegrity => rfl

/-- Serving a request other than a quality report leaves the outlier states alone. -/
theorem outlierMap_serve (services : Services) (chance : Chance) (request : Request)
    (hother : ∀ body, request.route ≠ .qualityReport body) :
    (ServerRun.serve services server chance request).1.scheduler.outlierMap =
      server.scheduler.outlierMap := by
  obtain ⟨route, header, query⟩ := request
  cases route with
  | register body => exact outlierMap_handleRegister chance body
  | heartbeat body => exact outlierMap_handleHeartbeat chance _ body
  | dispatch body => exact outlierMap_handleDispatch services chance body
  | qualityReport body => exact absurd rfl (hother body)
  | endSession body =>
    change (handleEndSession server body).1.scheduler.outlierMap = _
    unfold handleEndSession
    split <;> rfl
  | streamStart body =>
    change (handleStreamStart server chance body).1.scheduler.outlierMap = _
    unfold handleStreamStart
    split
    · rfl
    · split
      · rfl
      · rw [scheduler_startStream]
  | streamStop =>
    change (handleStreamStop server _).1.scheduler.outlierMap = _
    unfold handleStreamStop
    dsimp only
    split
    · rfl
    · rw [scheduler_stopStream]
  | admin route =>
    unfold ServerRun.serve
    dsimp only
    split
    · exact outlierMap_handleAdmin chance route
    · rfl
  | onPublish body | onUnpublish body | agentGetStream key | getKey | page => rfl

/-! ### Reports on a node -/

open ServerRun (State Action plainServices plainConfig plainChance plainRequest)

/-- A good report, whatever round trip it carries. -/
def good (report : QualityReport) : Bool :=
  decide (report.error = "" ∧ report.stallRate < 1 / 100)

/-- A bad report on a node. -/
def badOn (nodeID : String) (report : QualityReport) : Bool :=
  decide (report.nodeID = nodeID) && complains report

/-- A good report on a node. -/
def goodOn (nodeID : String) (report : QualityReport) : Bool :=
  decide (report.nodeID = nodeID) && good report

/-- The report on a node that the handler records at a step. -/
def recordedReport (st : State) : Action → Option QualityReport
  | .request ⟨.qualityReport (some report), _, _⟩ _ =>
    if report.sessionID = "" ∨ st.server.sessions.find? report.sessionID = none ∨
      report.nodeID = "" then none
    else some report
  | _ => none

/-- A server with the reports on nodes that it has recorded, in their order. -/
structure Watched where
  state : State
  reports : List QualityReport

/-- A new server. -/
def Watched.start (cfg : Config) : Watched := ⟨.initial cfg, []⟩

/-- One step. -/
def watch (services : Services) (w : Watched) (action : Action) : Watched :=
  ⟨ServerRun.step services w.state action,
    w.reports ++ (recordedReport w.state action).toList⟩

/-- A node that is not ejected is ejected only at a bad report on it, and there have been five of
them in a row, with no good report on the node behind the first. -/
def EjectsInARow (services : Services) (w : Watched) (action : Action) : Prop :=
  ∀ nodeID now, w.state.server.scheduler.isEjected now nodeID = false →
    (watch services w action).state.server.scheduler.isEjected now nodeID = true →
      (∃ report ∈ recordedReport w.state action, badOn nodeID report = true) ∧
        InARow (badOn nodeID) (goodOn nodeID) 5 (watch services w action).reports

/-- The condition on a step: a good report has a positive round trip, or its node has no counted
failures. -/
def PraiseCounts (w : Watched) (action : Action) : Prop :=
  ∀ report ∈ recordedReport w.state action, good report = true →
    0 < report.rtt ∨ ∀ state ∈ w.state.server.scheduler.outlierMap report.nodeID,
      state.consecutiveFails = 0

/-- A report that complains, of any session about any node. -/
def IsComplaint : Action → Prop
  | .request ⟨.qualityReport (some report), _, _⟩ _ => complains report = true
  | _ => False

/-- The failures counted against a node are no more than the bad reports on it in a row. -/
def CountInRow (w : Watched) : Prop :=
  ∀ nodeID, ∀ state ∈ w.state.server.scheduler.outlierMap nodeID,
    state.consecutiveFails ≤ streak (badOn nodeID) (goodOn nodeID) w.reports

/-! ### One step -/

/-- A good report does not complain. -/
theorem not_complains_of_good {report : QualityReport} (hgood : good report = true) :
    ¬ complains report = true := by
  intro hcomplains
  obtain ⟨herror, hstall⟩ := of_decide_eq_true hgood
  rcases of_decide_eq_true hcomplains with hlarge | hgiven
  · have hconstants : (1 : ℚ) / 100 < nearest (1 / 10) := by decide +kernel
    linarith
  · exact hgiven herror

/-- A bad report on a node is no good report on it. -/
theorem goodOn_of_badOn {nodeID : String} (report : QualityReport)
    (hbad : badOn nodeID report = true) : goodOn nodeID report = false := by
  obtain ⟨-, hcomplains⟩ := Bool.and_eq_true_iff.mp hbad
  refine Bool.eq_false_of_not_eq_true fun hgoodOn ↦ ?_
  exact not_complains_of_good (Bool.and_eq_true_iff.mp hgoodOn).2 hcomplains

theorem badOn_self (report : QualityReport) : badOn report.nodeID report = complains report := by
  rw [badOn, decide_eq_true rfl, Bool.true_and]

theorem goodOn_self (report : QualityReport) : goodOn report.nodeID report = good report := by
  rw [goodOn, decide_eq_true rfl, Bool.true_and]

/-- The outlier state of the node that a recorded report names. -/
theorem outlierMap_recordQuality (s : Scheduler) (now : ℕ) (report : QualityReport)
    (hnode : report.nodeID ≠ "") :
    (recordQuality s now report).outlierMap report.nodeID =
      if complains report = true then
        some (failedState now ((s.outlierMap report.nodeID).getD ⟨0, none, 0, none⟩))
      else if praises report = true then
        (s.outlierMap report.nodeID).map (succeededState now)
      else s.outlierMap report.nodeID := by
  have hgiven : isGiven report.nodeID = true := decide_eq_true hnode
  unfold recordQuality
  split_ifs with hcomplains hboth hpraises hpraises
  · exact Function.update_self ..
  · exact Function.update_self ..
  · rw [hgiven, Bool.and_true] at hboth
    exact absurd hboth hpraises
  · rw [hpraises, hgiven] at hboth
    exact absurd rfl hboth
  · rfl

/-- A report leaves the outlier states of the nodes alone that it does not name. -/
theorem outlierMap_recordQuality_of_ne (s : Scheduler) (now : ℕ) {report : QualityReport}
    {nodeID : String} (hnamed : report.nodeID ≠ nodeID) :
    (recordQuality s now report).outlierMap nodeID = s.outlierMap nodeID :=
  congrArg Standing.outlier (QualityReports.standing_recordQuality s now report hnamed.symm)

/-- A recorded report is that of a request under a session that is there, and it names a node. -/
theorem of_recordedReport {st : State} {action : Action} {report : QualityReport}
    (hrecorded : recordedReport st action = some report) :
    ∃ header query chance,
      action = .request ⟨.qualityReport (some report), header, query⟩ chance ∧
        report.sessionID ≠ "" ∧ st.server.sessions.find? report.sessionID ≠ none ∧
          report.nodeID ≠ "" := by
  unfold recordedReport at hrecorded
  split at hrecorded
  · next sent header query chance =>
    split_ifs at hrecorded with hrefused
    obtain rfl := Option.some.inj hrecorded
    obtain ⟨hempty, hrest⟩ := not_or.mp hrefused
    exact ⟨header, query, chance, rfl, hempty, not_or.mp hrest⟩
  · cases hrecorded

/-- What a recorded report does to the scheduler. -/
theorem scheduler_of_recorded (services : Services) {st : State} {action : Action}
    {report : QualityReport} (hrecorded : recordedReport st action = some report) :
    report.nodeID ≠ "" ∧ ∃ request chance, action = .request request chance ∧
      (ServerRun.step services st action).server.scheduler =
        recordQuality st.server.scheduler chance.now report := by
  obtain ⟨header, query, chance, rfl, hempty, hfound, hnode⟩ := of_recordedReport hrecorded
  refine ⟨hnode, _, chance, rfl, ?_⟩
  change (st.after (handleQualityReport st.server chance (some report))).server.scheduler = _
  rw [ServerRun.server_after, QualityReports.scheduler_handleQualityReport,
    if_neg (not_or.mpr ⟨hempty, hfound⟩)]

/-- A report that is refused or names no node leaves the outlier states alone. -/
theorem outlierMap_of_unnamed {st : State} {report : QualityReport} {header query : String → String}
    (chance : Chance) (hrecorded : recordedReport st
      (.request ⟨.qualityReport (some report), header, query⟩ chance) = none) :
    (handleQualityReport st.server chance (some report)).1.scheduler.outlierMap =
      st.server.scheduler.outlierMap := by
  rw [QualityReports.scheduler_handleQualityReport]
  by_cases hsession : report.sessionID = "" ∨ st.server.sessions.find? report.sessionID = none
  · rw [if_pos hsession]
  · have hnode : report.nodeID = "" := by
      by_contra hnamed
      have hkept : ¬ (report.sessionID = "" ∨
          st.server.sessions.find? report.sessionID = none ∨ report.nodeID = "") := by
        rw [← or_assoc]
        exact not_or.mpr ⟨hsession, hnamed⟩
      rw [recordedReport, if_neg hkept] at hrecorded
      cases hrecorded
    rw [if_neg hsession, recordQuality, hnode]
    split_ifs with hcomplains hnamed hpraises
    · exact absurd rfl hnamed
    · rfl
    · exact absurd (Bool.and_eq_true_iff.mp hpraises).2 (by decide)
    · rfl

/-- A step that records no report on a node leaves an outlier state alone or ends an ejection. -/
theorem outlierMap_of_unrecorded (services : Services) {st : State} {action : Action}
    (hrecorded : recordedReport st action = none) (nodeID : String) :
    (ServerRun.step services st action).server.scheduler.outlierMap nodeID =
        st.server.scheduler.outlierMap nodeID ∨
      ∃ now, (ServerRun.step services st action).server.scheduler.outlierMap nodeID =
        (st.server.scheduler.outlierMap nodeID).map (recoveredState now) := by
  cases action with
  | request request chance =>
    refine Or.inl ?_
    change (st.after (ServerRun.serve services st.server chance
      request)).server.scheduler.outlierMap nodeID = _
    rw [ServerRun.server_after]
    by_cases hother : ∀ body, request.route ≠ .qualityReport body
    · rw [outlierMap_serve services chance request hother]
    · rw [not_forall_not] at hother
      obtain ⟨body, hroute⟩ := hother
      obtain ⟨route, header, query⟩ := request
      obtain rfl : route = .qualityReport body := hroute
      change (handleQualityReport st.server chance body).1.scheduler.outlierMap nodeID = _
      cases body with
      | none => rfl
      | some report => exact congrFun (outlierMap_of_unnamed chance hrecorded) nodeID
  | cleanup now => exact Or.inr ⟨now, rfl⟩
  | cleanupSticky now => exact Or.inl rfl
  | rotateKeys outcome => exact Or.inl rfl
  | tickLatency now =>
    refine Or.inl ?_
    change (ServerRun.tickLatency st.server now).scheduler.outlierMap nodeID = _
    unfold ServerRun.tickLatency
    split <;> rfl

/-- The count of the node that a recorded report names is within the row behind the report. Assumes:
it is before the report, and the report meets the condition. -/
theorem count_recordQuality_le {w : Watched} {report : QualityReport} (hinv : CountInRow w)
    (hnode : report.nodeID ≠ "")
    (hcondition : good report = true → 0 < report.rtt ∨
      ∀ state ∈ w.state.server.scheduler.outlierMap report.nodeID, state.consecutiveFails = 0)
    (now : ℕ) {after : OutlierState}
    (hafter : after ∈
      (recordQuality w.state.server.scheduler now report).outlierMap report.nodeID) :
    after.consecutiveFails ≤ counted (badOn report.nodeID) (goodOn report.nodeID)
      (streak (badOn report.nodeID) (goodOn report.nodeID) w.reports) report := by
  rw [outlierMap_recordQuality _ _ report hnode] at hafter
  rw [counted, badOn_self, goodOn_self]
  split_ifs at hafter with hcomplains hpraises
  · rw [if_pos hcomplains, ← Option.some.inj hafter, consecutiveFails_failedState]
    refine Nat.succ_le_succ ?_
    cases hbefore : w.state.server.scheduler.outlierMap report.nodeID with
    | none => exact Nat.zero_le _
    | some before => exact hinv report.nodeID before hbefore
  · obtain ⟨before, hbefore, rfl⟩ := Option.map_eq_some_iff.mp hafter
    rw [consecutiveFails_succeededState]
    exact Nat.zero_le _
  · rw [if_neg hcomplains]
    split_ifs with hgood
    · rcases hcondition hgood with hrtt | hzero
      · exact absurd (decide_eq_true ⟨(of_decide_eq_true hgood).2, hrtt⟩) hpraises
      · exact (hzero after hafter).le
    · exact hinv report.nodeID after hafter

/-- The count after a step that meets the condition is within the row. Assumes: it is before the
step. -/
theorem countInRow_watch (services : Services) (w : Watched) (action : Action)
    (hinv : CountInRow w) (hcondition : PraiseCounts w action) :
    CountInRow (watch services w action) := by
  intro nodeID after hafter
  change after ∈ (ServerRun.step services w.state action).server.scheduler.outlierMap nodeID
    at hafter
  change _ ≤ streak _ _ (w.reports ++ (recordedReport w.state action).toList)
  cases hrecorded : recordedReport w.state action with
  | none =>
    rw [Option.toList_none, List.append_nil]
    rcases outlierMap_of_unrecorded services hrecorded nodeID with hsame | ⟨now, hover⟩
    · rw [hsame] at hafter
      exact hinv nodeID after hafter
    · rw [hover] at hafter
      obtain ⟨before, hbefore, rfl⟩ := Option.map_eq_some_iff.mp hafter
      exact (consecutiveFails_recoveredState_le now before).trans (hinv nodeID before hbefore)
  | some report =>
    obtain ⟨hnode, request, chance, -, hscheduler⟩ := scheduler_of_recorded services hrecorded
    rw [hscheduler] at hafter
    rw [Option.toList_some, streak_concat]
    by_cases hnamed : report.nodeID = nodeID
    · subst hnamed
      exact count_recordQuality_le hinv hnode (hcondition report hrecorded) chance.now hafter
    · rw [outlierMap_recordQuality_of_ne _ _ hnamed] at hafter
      have hbad : badOn nodeID report = false := by rw [badOn, decide_eq_false hnamed]; rfl
      have hgood : goodOn nodeID report = false := by rw [goodOn, decide_eq_false hnamed]; rfl
      rw [counted, hbad, hgood]
      exact hinv nodeID after hafter

/-- A recorded report sets an ejection of the node it names only when it complains, and then five
failures or more are counted. -/
theorem ejectedUntil_recordQuality (s : Scheduler) (now : ℕ) {report : QualityReport}
    (hnode : report.nodeID ≠ "") {after : OutlierState}
    (hafter : after ∈ (recordQuality s now report).outlierMap report.nodeID) {time : ℕ}
    (htime : time ∈ after.ejectedUntil)
    (hnew : ∀ before ∈ s.outlierMap report.nodeID, time ∉ before.ejectedUntil) :
    complains report = true ∧ 5 ≤ after.consecutiveFails := by
  rw [outlierMap_recordQuality _ _ report hnode] at hafter
  split_ifs at hafter with hcomplains hpraises
  · obtain rfl := Option.some.inj hafter
    rcases ejectedUntil_failedState htime with hmany | htime
    · exact ⟨hcomplains, hmany⟩
    · cases hmem : s.outlierMap report.nodeID with
      | none =>
        rw [hmem] at htime
        exact absurd htime (Option.not_mem_none time)
      | some before =>
        rw [hmem] at htime
        exact absurd htime (hnew before hmem)
  · obtain ⟨before, hmem, rfl⟩ := Option.map_eq_some_iff.mp hafter
    exact absurd (ejectedUntil_succeededState htime) (hnew before hmem)
  · exact absurd htime (hnew after hafter)

/-- A node that is not ejected is ejected by a bad report on it only, and then five failures or more
are counted. -/
theorem ejected_by_report (services : Services) {w : Watched} {action : Action} {nodeID : String}
    {now : ℕ} (hbefore : w.state.server.scheduler.isEjected now nodeID = false)
    (hafter : (watch services w action).state.server.scheduler.isEjected now nodeID = true) :
    ∃ report ∈ recordedReport w.state action, badOn nodeID report = true ∧
      ∃ state ∈ (watch services w action).state.server.scheduler.outlierMap nodeID,
        5 ≤ state.consecutiveFails := by
  have hfree : ¬ ∃ state ∈ w.state.server.scheduler.outlierMap nodeID,
      ∃ time ∈ state.ejectedUntil, now < time := by
    rw [← isEjected_iff, hbefore]
    exact Bool.false_ne_true
  obtain ⟨state, hstate, time, htime, hnow⟩ := isEjected_iff.mp hafter
  have hkept : ∀ before ∈ w.state.server.scheduler.outlierMap nodeID,
      time ∉ before.ejectedUntil :=
    fun before hbefore htime ↦ hfree ⟨before, hbefore, time, htime, hnow⟩
  cases hrecorded : recordedReport w.state action with
  | none =>
    rcases outlierMap_of_unrecorded services hrecorded nodeID with hsame | ⟨tick, hover⟩
    · exact absurd htime (hkept state (hsame ▸ hstate))
    · rw [watch, hover] at hstate
      obtain ⟨before, hmem, rfl⟩ := Option.map_eq_some_iff.mp hstate
      exact absurd (ejectedUntil_recoveredState htime) (hkept before hmem)
  | some report =>
    obtain ⟨hnode, request, chance, -, hscheduler⟩ := scheduler_of_recorded services hrecorded
    have hreached := hstate
    rw [watch, hscheduler] at hreached
    by_cases hnamed : report.nodeID = nodeID
    · subst hnamed
      obtain ⟨hcomplains, hmany⟩ :=
        ejectedUntil_recordQuality _ chance.now hnode hreached htime hkept
      exact ⟨report, rfl, (badOn_self report).trans hcomplains, state, hstate, hmany⟩
    · rw [outlierMap_recordQuality_of_ne _ _ hnamed] at hreached
      exact absurd htime (hkept state hreached)

/-- Under the invariant a step ejects a node at the fifth bad report in a row only. -/
theorem ejectsInARow_of_countInRow (services : Services) {w : Watched} {action : Action}
    (hafter : CountInRow (watch services w action)) : EjectsInARow services w action := by
  intro nodeID now hbefore hejected
  obtain ⟨report, hrecorded, hbad, state, hstate, hfive⟩ :=
    ejected_by_report services hbefore hejected
  refine ⟨⟨report, hrecorded, hbad⟩, ?_⟩
  rw [inARow_iff _ _ goodOn_of_badOn]
  exact hfive.trans (hafter nodeID state hstate)

/-! ### Runs -/

/-- On a new server no failure is counted. -/
theorem countInRow_start (cfg : Config) : CountInRow (.start cfg) := by
  intro nodeID state hstate
  exact nomatch hstate

/-- In a run that meets the condition every ejection is at the fifth bad report in a row or a later
one. -/
theorem ejectsInARow_run (services : Services) (cfg : Config) {actions : List Action}
    (hmeets : EachStepMeets (watch services) PraiseCounts (.start cfg) actions) :
    EachStepMeets (watch services) (EjectsInARow services) (.start cfg) actions := by
  refine eachStepMeets_of_kept _ (countInRow_watch services) (fun w action hinv hcondition ↦ ?_)
    (countInRow_start cfg) hmeets
  exact ejectsInARow_of_countInRow services (countInRow_watch services w action hinv hcondition)

/-- A complaint meets the condition. -/
theorem praiseCounts_of_isComplaint (w : Watched) {action : Action}
    (hcomplaint : IsComplaint action) : PraiseCounts w action := by
  intro report hrecorded hgood
  obtain ⟨header, query, chance, rfl, -⟩ := of_recordedReport hrecorded
  exact absurd hcomplaint (not_complains_of_good hgood)

/-- A report of a player that stalls all the time. -/
def stalledReport (sessionID nodeID : String) : QualityReport := ⟨sessionID, nodeID, 1, 0, 0, ""⟩

theorem complains_stalledReport (sessionID nodeID : String) :
    complains (stalledReport sessionID nodeID) = true := by
  have hstalls : (1 : ℚ) > nearest (1 / 10) := by decide +kernel
  exact decide_eq_true (Or.inl hstalls)

/-- A request with that report. -/
def complaintAbout (sessionID nodeID : String) (chance : Chance) : Action :=
  .request ⟨.qualityReport (some (stalledReport sessionID nodeID)), fun _ ↦ "", fun _ ↦ ""⟩ chance

/-- A report ends no session. -/
theorem find?_sessions_handleQualityReport {chance : Chance} {report : QualityReport} {id : String}
    (hfound : server.sessions.find? id ≠ none) :
    (handleQualityReport server chance (some report)).1.sessions.find? id ≠ none := by
  have htouched : (server.touchSession chance.now report.sessionID).1.sessions.find? id ≠ none := by
    unfold Server.touchSession
    split
    · exact hfound
    · next session hsession =>
      let touched : SessionInfo := { session with lastActive := chance.now }
      have hkey : touched.sessionID = report.sessionID :=
        show session.sessionID = report.sessionID from KeyedTable.Table.key_of_find? hsession
      change (server.sessions.put touched).find? id ≠ none
      rw [KeyedTable.Table.find?_put _ hkey]
      split_ifs
      · exact Option.some_ne_none _
      · exact hfound
  unfold handleQualityReport
  dsimp only
  split_ifs
  · exact hfound
  · exact htouched
  · split
    · exact htouched
    · exact htouched

/-- What a complaint under a session that is there does. -/
theorem watch_complaintAbout (services : Services) {sessionID nodeID : String}
    (hsession : sessionID ≠ "") (hnode : nodeID ≠ "") (chance : Chance) {w : Watched}
    (hthere : w.state.server.sessions.find? sessionID ≠ none) {state : OutlierState}
    (hstate : state ∈ w.state.server.scheduler.outlierMap nodeID) :
    (watch services w (complaintAbout sessionID nodeID chance)).state.server.sessions.find?
        sessionID ≠ none ∧
      (watch services w (complaintAbout sessionID nodeID chance)).state.server.scheduler.outlierMap
        nodeID = some (failedState chance.now state) ∧
      streak (badOn nodeID) (goodOn nodeID)
          (watch services w (complaintAbout sessionID nodeID chance)).reports =
        streak (badOn nodeID) (goodOn nodeID) w.reports + 1 := by
  have hcomplains := complains_stalledReport sessionID nodeID
  have hrecorded : recordedReport w.state (complaintAbout sessionID nodeID chance) =
      some (stalledReport sessionID nodeID) := by
    refine if_neg (not_or.mpr ⟨hsession, not_or.mpr ⟨hthere, hnode⟩⟩)
  refine ⟨?_, ?_, ?_⟩
  · change (w.state.after (handleQualityReport w.state.server chance
      (some (stalledReport sessionID nodeID)))).server.sessions.find? sessionID ≠ none
    rw [ServerRun.server_after]
    exact find?_sessions_handleQualityReport hthere
  · obtain ⟨-, request, clock, haction, hscheduler⟩ := scheduler_of_recorded services hrecorded
    obtain ⟨-, rfl⟩ := Action.request.inj haction
    have hreached := outlierMap_recordQuality w.state.server.scheduler chance.now
      (stalledReport sessionID nodeID) hnode
    rw [if_pos hcomplains] at hreached
    rw [watch, hscheduler]
    exact hreached.trans (by rw [stalledReport, hstate]; rfl)
  · have hbad : badOn nodeID (stalledReport sessionID nodeID) = true :=
      (badOn_self (stalledReport sessionID nodeID)).trans hcomplains
    rw [watch, hrecorded, Option.toList_some, streak_concat, counted, if_pos hbad]

/-- A complaint that takes the counted failures to five ejects a node. Assumes: the node is not
ejected, and the bad reports in a row are fewer than five with it. -/
theorem ejected_early_now (services : Services) {sessionID nodeID : String}
    (hsession : sessionID ≠ "") (hnode : nodeID ≠ "") (chance : Chance) {w : Watched}
    (hthere : w.state.server.sessions.find? sessionID ≠ none) {state : OutlierState}
    (hstate : state ∈ w.state.server.scheduler.outlierMap nodeID)
    (hcount : 5 ≤ state.consecutiveFails + 1)
    (hrow : streak (badOn nodeID) (goodOn nodeID) w.reports + 1 < 5)
    (hfree : w.state.server.scheduler.isEjected chance.now nodeID = false) :
    ¬ EjectsInARow services w (complaintAbout sessionID nodeID chance) := by
  intro hrule
  obtain ⟨-, hafter, hstreak⟩ :=
    watch_complaintAbout services hsession hnode chance hthere hstate
  have hejected : (watch services w
      (complaintAbout sessionID nodeID chance)).state.server.scheduler.isEjected chance.now nodeID =
        true := by
    rw [isEjected_iff]
    refine ⟨_, hafter, chance.now + min (outlierBaseEjectTime * (state.ejectCount + 1))
      outlierMaxEjectTime, ?_, ?_⟩
    · have hmany : state.consecutiveFails + 1 ≥ outlierConsecutiveFails := hcount
      rw [failedState, if_pos hmany]
      rfl
    · have hbase : 0 < outlierBaseEjectTime * (state.ejectCount + 1) :=
        Nat.mul_pos (by decide) (Nat.succ_pos _)
      exact Nat.lt_add_of_pos_right (lt_min hbase (by decide))
  have hfive := (inARow_iff _ _ goodOn_of_badOn).mp (hrule nodeID chance.now hfree hejected).2
  omega

/-- Complaints under a session that is there eject a node too early. Assumes: the node is not
ejected, and they take the counted failures to five but not the bad reports in a row. -/
theorem ejected_early (services : Services) {sessionID nodeID : String} (hsession : sessionID ≠ "")
    (hnode : nodeID ≠ "") (chance : Chance) (more : ℕ) {w : Watched}
    (hthere : w.state.server.sessions.find? sessionID ≠ none)
    {state : OutlierState} (hstate : state ∈ w.state.server.scheduler.outlierMap nodeID)
    (hcount : 5 ≤ state.consecutiveFails + (more + 1))
    (hrow : streak (badOn nodeID) (goodOn nodeID) w.reports + (more + 1) < 5)
    (hfree : w.state.server.scheduler.isEjected chance.now nodeID = false) :
    ¬ EachStepMeets (watch services) (EjectsInARow services) w
      (List.replicate (more + 1) (complaintAbout sessionID nodeID chance)) := by
  induction more generalizing w state with
  | zero =>
    intro hmeets
    exact ejected_early_now services hsession hnode chance hthere hstate hcount hrow hfree hmeets.1
  | succ more ih =>
    intro hmeets
    rw [List.replicate_succ] at hmeets
    by_cases hmany : 5 ≤ state.consecutiveFails + 1
    · exact ejected_early_now services hsession hnode chance hthere hstate hmany (by omega) hfree
        hmeets.1
    · obtain ⟨hstill, hafter, hstreak⟩ :=
        watch_complaintAbout services hsession hnode chance hthere hstate
      have hcounted := consecutiveFails_failedState chance.now state
      refine ih hstill hafter (by omega) (by omega) ?_ hmeets.2
      refine Bool.eq_false_of_not_eq_true fun hejected ↦ ?_
      obtain ⟨after, hmem, time, htime, hnow⟩ := isEjected_iff.mp hejected
      obtain rfl := Option.some.inj (hafter.symm.trans hmem)
      rcases ejectedUntil_failedState htime with hfive | htime
      · omega
      · have hstill := isEjected_iff.mpr ⟨state, hstate, time, htime, hnow⟩
        rw [hfree] at hstill
        cases hstill

/-- The session of a recorded report is there after it. -/
theorem session_of_recorded (services : Services) {w : Watched} {action : Action}
    {report : QualityReport} (hrecorded : recordedReport w.state action = some report) :
    report.sessionID ≠ "" ∧ report.nodeID ≠ "" ∧
      (watch services w action).state.server.sessions.find? report.sessionID ≠ none := by
  obtain ⟨header, query, chance, rfl, hempty, hfound, hnode⟩ := of_recordedReport hrecorded
  refine ⟨hempty, hnode, ?_⟩
  change (w.state.after (handleQualityReport w.state.server chance
    (some report))).server.sessions.find? report.sessionID ≠ none
  rw [ServerRun.server_after]
  exact find?_sessions_handleQualityReport hfound

/-- The same request at another time. -/
def chanceAt (chance : Chance) (now : ℕ) : Chance := { chance with now := now }

/-- A step that misses the condition leaves a state in which complaints eject a node too early. -/
theorem ejected_early_of_not_praiseCounts (services : Services) (w : Watched) (action : Action)
    (hmissed : ¬ PraiseCounts w action) :
    ∃ complaints, (∀ complaint ∈ complaints, IsComplaint complaint) ∧
      ¬ EachStepMeets (watch services) (EjectsInARow services) (watch services w action)
        complaints := by
  rw [PraiseCounts] at hmissed
  push Not at hmissed
  obtain ⟨report, hrecorded, hgood, hrtt, state, hstate, hcount⟩ := hmissed
  obtain ⟨hsession, hnode, hthere⟩ := session_of_recorded services hrecorded
  obtain ⟨-, request, chance, -, hscheduler⟩ := scheduler_of_recorded services hrecorded
  have hcomplains := not_complains_of_good hgood
  have hpraises : ¬ praises report = true :=
    fun hpraises ↦ absurd (of_decide_eq_true hpraises).2 (not_lt.mpr hrtt)
  have hkept : state ∈
      (watch services w action).state.server.scheduler.outlierMap report.nodeID := by
    rw [watch, hscheduler, outlierMap_recordQuality _ _ report hnode, if_neg hcomplains,
      if_neg hpraises]
    exact hstate
  have hrow : streak (badOn report.nodeID) (goodOn report.nodeID)
      (watch services w action).reports = 0 := by
    rw [watch, hrecorded, Option.toList_some, streak_concat, counted, badOn_self, goodOn_self,
      if_neg hcomplains, if_pos hgood]
  set late := chanceAt chance (state.ejectedUntil.getD 0)
  have hfree : (watch services w action).state.server.scheduler.isEjected late.now report.nodeID =
      false := by
    refine Bool.eq_false_of_not_eq_true fun hejected ↦ ?_
    obtain ⟨other, hother, time, htime, hnow⟩ := isEjected_iff.mp hejected
    obtain rfl := Option.some.inj (hkept.symm.trans hother)
    change state.ejectedUntil.getD 0 < time at hnow
    rw [htime, Option.getD_some] at hnow
    exact lt_irrefl _ hnow
  refine ⟨List.replicate 4 (complaintAbout report.sessionID report.nodeID late),
    fun complaint hmem ↦ ?_, ?_⟩
  · rw [List.eq_of_mem_replicate hmem]
    exact complains_stalledReport report.sessionID report.nodeID
  · exact ejected_early services hsession hnode late 3 hthere hkept (by omega) (by omega) hfree

/-- The runs of the server whose good reports count are those in which, after each part of the run
and whatever complaints follow it, a node is ejected only at the fifth bad report in a row or a
later one. -/
theorem ejectsInARow_iff (services : Services) (cfg : Config) (actions : List Action) :
    (∀ taken, taken <+: actions → ∀ complaints, (∀ complaint ∈ complaints, IsComplaint complaint) →
        EachStepMeets (watch services) (EjectsInARow services) (.start cfg)
          (taken ++ complaints)) ↔
      EachStepMeets (watch services) PraiseCounts (.start cfg) actions := by
  constructor
  · intro hall
    induction actions using List.reverseRecOn with
    | nil => exact trivial
    | append_singleton actions action ih =>
      rw [eachStepMeets_append]
      refine ⟨ih fun taken htaken ↦ hall taken (htaken.trans (List.prefix_append _ _)), ?_, trivial⟩
      by_contra hmissed
      obtain ⟨complaints, hcomplaints, hearly⟩ :=
        ejected_early_of_not_praiseCounts services _ action hmissed
      have hmeets := hall _ (List.prefix_refl _) complaints hcomplaints
      rw [eachStepMeets_append, run_append] at hmeets
      exact hearly hmeets.2
  · rintro hmeets taken ⟨rest, rfl⟩ complaints hcomplaints
    apply ejectsInARow_run
    rw [eachStepMeets_append] at hmeets ⊢
    exact ⟨hmeets.1, eachStepMeets_of_forall _ fun w complaint hmem ↦
      praiseCounts_of_isComplaint w (hcomplaints complaint hmem)⟩

/-- A viewer of `edge-1` that complains four times and then reports a good playback, without a round
trip as the player sends it. -/
def praisedInVain : List Action :=
  QualityReports.dispatchedViewer ++
    List.replicate 4 (complaintAbout plainChance.sessionID "edge-1" plainChance) ++
      [.request (plainRequest (.qualityReport
        (some ⟨plainChance.sessionID, "edge-1", 0, 0, 0, ""⟩))) plainChance]

/-- One more complaint ejects `edge-1`, the first one behind the good report. -/
theorem ejectsInARow_counterexample :
    (run (watch plainServices) (.start plainConfig)
        praisedInVain).state.server.scheduler.isEjected 0 "edge-1" = false ∧
      (run (watch plainServices) (.start plainConfig) (praisedInVain ++
        [complaintAbout plainChance.sessionID "edge-1"
          plainChance])).state.server.scheduler.isEjected 0 "edge-1" = true ∧
      ¬ ∀ (services : Services) (cfg : Config) (actions : List Action),
        EachStepMeets (watch services) (EjectsInARow services) (.start cfg) actions := by
  have hbefore : (run (watch plainServices) (.start plainConfig)
      praisedInVain).state.server.scheduler.isEjected 0 "edge-1" = false := by decide +kernel
  have hafter : (run (watch plainServices) (.start plainConfig) (praisedInVain ++
      [complaintAbout plainChance.sessionID "edge-1"
        plainChance])).state.server.scheduler.isEjected 0 "edge-1" = true := by decide +kernel
  have hstreak : streak (badOn "edge-1") (goodOn "edge-1") (run (watch plainServices)
      (.start plainConfig) (praisedInVain ++ [complaintAbout plainChance.sessionID "edge-1"
        plainChance])).reports = 1 := by decide +kernel
  refine ⟨hbefore, hafter, fun hall ↦ ?_⟩
  have hmeets := hall plainServices plainConfig
    (praisedInVain ++ [complaintAbout plainChance.sessionID "edge-1" plainChance])
  rw [eachStepMeets_append] at hmeets
  rw [run_append] at hafter hstreak
  have hfive := (inARow_iff _ _ goodOn_of_badOn).mp (hmeets.2.1 "edge-1" 0 hbefore hafter).2
  rw [run_cons, run_nil] at hstreak
  omega

end LiveCDN.Controller.Ejection
