import LiveCDN.Controller.NodeLease

/-!
# Quality reports of a session

What a player can do to the nodes with the quality reports it sends under its session.
`handleQualityReport` of `controller/server.go` asks whether the session is there, and then takes
the node from the report: it records a complaint about it and a failure of it, or a success. Nothing
compares that node with the ones that were dispatched to the session.

So a sequence of reports leaves the other nodes alone exactly when each of them names a node of its
own session, or does nothing to the node it names (`confined_reports_iff`,
`confined_reports_counterexample`). A success does nothing to the weight of a node only when it is
full: the weights of a run are not negative (`weightsNonneg_run`), and a tenth more than such a
weight is never rounded back to it.
-/

set_option autoImplicit false
set_option relaxedAutoImplicit false

namespace LiveCDN.Controller.QualityReports

open Library.Binary64 Library.GuardedRun Library.KeyedTable Dispatch NodeStore Scheduling
  OutlierDetection HttpServer Handlers AdminHandlers ServerRun HandlerEffects NodeLease

/-! ### Reports under a session -/

/-- A quality report that a player sends, without its session. -/
structure SentReport where
  nodeID : String
  stallRate : ℚ
  rtt : ℤ
  e2eLatency : ℤ
  error : String
  header : String → String
  query : String → String
  chance : Chance

/-- The report under a session. -/
def SentReport.report (sent : SentReport) (sessionID : String) : QualityReport :=
  ⟨sessionID, sent.nodeID, sent.stallRate, sent.rtt, sent.e2eLatency, sent.error⟩

variable {server : Server}

/-- A report touches the node it names only. -/
theorem standing_recordQuality (s : Scheduler) (now : ℕ) (report : QualityReport) {id : String}
    (hother : id ≠ report.nodeID) : standing (recordQuality s now report) id = standing s id := by
  unfold recordQuality
  split_ifs
  · rw [standing_reportNodeFail _ _ _ _ hother, standing_recordComplaint _ _ _ hother]
  · rfl
  · exact standing_reportNodeSuccess nearest s now report.nodeID hother
  · rfl

/-- What the handler does to the scheduler: nothing without a session, else what the report says. -/
theorem scheduler_handleQualityReport (server : Server) (chance : Chance)
    (report : QualityReport) :
    (handleQualityReport server chance (some report)).1.scheduler =
      if report.sessionID = "" ∨ server.sessions.find? report.sessionID = none then
        server.scheduler
      else recordQuality server.scheduler chance.now report := by
  unfold handleQualityReport
  dsimp only
  by_cases hempty : report.sessionID = ""
  · rw [if_pos hempty, if_pos (Or.inl hempty)]
  · rw [if_neg hempty, Server.touchSession_snd]
    cases hfound : server.sessions.find? report.sessionID with
    | none => simp
    | some session =>
      rw [Option.isSome_some, if_neg (by decide), if_neg (by simp [hempty])]
      split <;> simp

variable {services : Services} {sessionID : String}

/-- A viewer token is issued, `edge-1` comes into service, `edge-2` waits for its approval, and a
viewer is dispatched. -/
def dispatchedViewer : List Action :=
  [.request (plainRequest (.streamStart (some ⟨"title", "admin", ""⟩))) plainChance,
    .request (plainRequest (.register (some ⟨"reg", edgeRequest "edge-1"⟩))) plainChance,
    .request (adminRequest (.approveNode "edge-1")) plainChance,
    .request (plainRequest (.register (some ⟨"reg", edgeRequest "edge-2"⟩))) plainChance,
    .request (plainRequest (.dispatch (some ⟨plainChance.streamKey, plainChance.viewerToken,
      "192.0.2.7"⟩))) plainChance]

end LiveCDN.Controller.QualityReports
