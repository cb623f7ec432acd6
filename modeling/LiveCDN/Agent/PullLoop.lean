import LiveCDN.Library.Utf8Text

/-!
# The puller of a stream and its loop

`FlvPuller` of `relay/flv.rs`: the object that relays one stream to its clients. It counts the
clients against a limit (`addClient`, `removeClient`) and owns a task that pulls the stream, from
the primary source or from the backup one (`start`, and one definition for each part of its loop:
`beginAttempt`, `endAttempt`, `endSleep`). `change` is any one of the things that happen to a puller
that has been started: what none of them touches is `change_frame`, and `taskAlive_change_iff` says
which of them ends the task.

Scope. `start` is called once, when the puller is made, so a puller has at most one task. The log
lines, the byte counters and the waiting times are left out, and so is what is sent over the channel
and kept in the cache. A panic ends the process, as the release profile says. `isRunning` reads the
flag while nobody else has its lock.
-/

set_option autoImplicit false
set_option relaxedAutoImplicit false

namespace LiveCDN.Agent.PullLoop

open Library.Utf8Text

/-! ### The pull task -/

/-- Where the loop of the pull task is: about to test the flag, inside `pull_flv_stream` on a
source, waiting to try again, or left. -/
inductive PullStage
  | loopTop
  | pulling (source : Text)
  | sleeping
  | ended
  deriving DecidableEq, Repr

/-- The task that `start` spawns. -/
structure PullTask where
  usingBackup : Bool
  stage : PullStage
  deriving DecidableEq, Repr

/-- What `pull_flv_stream` returns: `Ok` when the upstream ends the stream, `Err` otherwise. -/
inductive PullOutcome
  | streamEnded
  | connectionLost
  deriving DecidableEq, Repr

/-! ### The puller -/

/-- `FlvPuller`, with the task it owns. -/
structure FlvPuller where
  streamKey : Text
  flvUrl : Text
  backupFlvUrl : Option Text
  running : Bool
  clientCount : ℕ
  maxClients : ℕ
  task : Option PullTask
  deriving DecidableEq, Repr

namespace FlvPuller

/-- `FlvPuller::with_backup`. -/
def withBackup (streamKey flvUrl : Text) (backupFlvUrl : Option Text) (maxClients : ℕ) :
    FlvPuller :=
  ⟨streamKey, flvUrl, backupFlvUrl, false, 0, maxClients, none⟩

variable (puller : FlvPuller)

/-- `start`: spawns the pull task unless the flag is set. -/
def start : FlvPuller :=
  if puller.running then puller
  else { puller with running := true, task := some ⟨false, .loopTop⟩ }

/-- `is_running`. -/
def isRunning : Bool := puller.running

/-- The task has been spawned and has not left its loop. -/
def taskAlive : Bool := puller.task.any fun task ↦ decide (task.stage ≠ .ended)

/-- `add_client`: the answer tells whether the client is admitted. -/
def addClient : FlvPuller × Bool :=
  if puller.clientCount ≥ puller.maxClients then (puller, false)
  else ({ puller with clientCount := puller.clientCount + 1 }, true)

/-- `remove_client`. -/
def removeClient : FlvPuller :=
  if puller.clientCount > 0 then { puller with clientCount := puller.clientCount - 1 } else puller

/-! ### The loop of the task -/

/-- The source of the next attempt. -/
def currentUrl (task : PullTask) : Text :=
  if task.usingBackup then puller.backupFlvUrl.getD puller.flvUrl else puller.flvUrl

/-- The next attempt goes to the primary source. -/
def onPrimary (task : PullTask) : Bool := !(task.usingBackup && puller.backupFlvUrl.isSome)

/-- The puller with its task rewritten. -/
def mapTask (rewrite : PullTask → PullTask) : FlvPuller :=
  { puller with task := puller.task.map rewrite }

/-- The top of the loop of `start`: the task leaves when the flag is cleared, and connects to its
current source otherwise. -/
def beginAttempt : FlvPuller :=
  puller.mapTask fun task ↦
    if task.stage = .loopTop then
      if puller.running then { task with stage := .pulling (puller.currentUrl task) }
      else { task with stage := .ended }
    else task

/-- What the loop of `start` does with the outcome of `pull_flv_stream`: a stream that ended leaves
the loop, a lost connection turns to the other source. -/
def endAttempt (outcome : PullOutcome) : FlvPuller :=
  puller.mapTask fun task ↦
    match task.stage, outcome with
    | .pulling _, .streamEnded => { task with stage := .ended }
    | .pulling _, .connectionLost =>
      if !task.usingBackup && puller.backupFlvUrl.isSome then ⟨true, .sleeping⟩
      else if task.usingBackup then ⟨false, .sleeping⟩
      else { task with stage := .sleeping }
    | _, _ => task

/-- The end of the waiting time. -/
def endSleep : FlvPuller :=
  puller.mapTask fun task ↦ if task.stage = .sleeping then { task with stage := .loopTop } else task

/-- The task is inside `pull_flv_stream`. -/
def isPulling : Bool :=
  puller.task.any fun task ↦
    match task.stage with
    | .pulling _ => true
    | _ => false

/-! ### What happens to a puller -/

/-- A client joins or leaves, or the task makes its next step. -/
inductive Change
  | join
  | leave
  | beginAttempt
  | endAttempt (outcome : PullOutcome)
  | endSleep
  deriving DecidableEq, Repr

/-- The puller after a change. -/
def change : Change → FlvPuller
  | .join => puller.addClient.1
  | .leave => puller.removeClient
  | .beginAttempt => puller.beginAttempt
  | .endAttempt outcome => puller.endAttempt outcome
  | .endSleep => puller.endSleep

/-- The puller has been started: its flag is set and its task was spawned. -/
def Started : Prop := puller.running = true ∧ puller.task.isSome = true

theorem started_start (streamKey flvUrl : Text) (backupFlvUrl : Option Text) (maxClients : ℕ) :
    ((withBackup streamKey flvUrl backupFlvUrl maxClients).start).Started ∧
      ((withBackup streamKey flvUrl backupFlvUrl maxClients).start).taskAlive = true :=
  ⟨⟨rfl, rfl⟩, rfl⟩

variable {puller}

theorem addClient_frame (puller : FlvPuller) :
    puller.addClient.1.streamKey = puller.streamKey ∧ puller.addClient.1.flvUrl = puller.flvUrl ∧
      puller.addClient.1.running = puller.running ∧ puller.addClient.1.task = puller.task := by
  unfold addClient
  split <;> exact ⟨rfl, rfl, rfl, rfl⟩

theorem removeClient_frame (puller : FlvPuller) :
    puller.removeClient.streamKey = puller.streamKey ∧ puller.removeClient.flvUrl = puller.flvUrl ∧
      puller.removeClient.running = puller.running ∧ puller.removeClient.task = puller.task := by
  unfold removeClient
  split <;> exact ⟨rfl, rfl, rfl, rfl⟩

/-- A change touches neither the key, nor the primary source, nor the flag, and takes no task
away. -/
theorem change_frame (puller : FlvPuller) (event : Change) :
    (puller.change event).streamKey = puller.streamKey ∧
      (puller.change event).flvUrl = puller.flvUrl ∧
        (puller.change event).running = puller.running ∧
          (puller.change event).task.isSome = puller.task.isSome := by
  have hmap (rewrite : PullTask → PullTask) :
      (puller.mapTask rewrite).streamKey = puller.streamKey ∧
        (puller.mapTask rewrite).flvUrl = puller.flvUrl ∧
          (puller.mapTask rewrite).running = puller.running ∧
            (puller.mapTask rewrite).task.isSome = puller.task.isSome :=
    ⟨rfl, rfl, rfl, Option.isSome_map⟩
  cases event with
  | join =>
    obtain ⟨hkey, hurl, hrunning, htask⟩ := addClient_frame puller
    exact ⟨hkey, hurl, hrunning, congrArg Option.isSome htask⟩
  | leave =>
    obtain ⟨hkey, hurl, hrunning, htask⟩ := removeClient_frame puller
    exact ⟨hkey, hurl, hrunning, congrArg Option.isSome htask⟩
  | beginAttempt => exact hmap _
  | endAttempt outcome => exact hmap _
  | endSleep => exact hmap _

/-- A started puller stays started. -/
theorem Started.change (hstarted : puller.Started) (event : Change) :
    (puller.change event).Started := by
  obtain ⟨-, -, hrunning, htask⟩ := change_frame puller event
  exact ⟨hrunning.trans hstarted.1, htask.trans hstarted.2⟩

/-- The task of a started puller is alive after a change when it was before and the change is not
the end of the stream it was pulling. -/
theorem taskAlive_change_iff (hstarted : puller.Started) (event : Change) :
    (puller.change event).taskAlive = true ↔ puller.taskAlive = true ∧
      ¬ (event = .endAttempt .streamEnded ∧ puller.isPulling = true) := by
  obtain ⟨hrunning, htask⟩ := hstarted
  obtain ⟨⟨usingBackup, stage⟩, htask⟩ := Option.isSome_iff_exists.mp htask
  cases event with
  | join => simp [change, taskAlive, (addClient_frame puller).2.2.2]
  | leave => simp [change, taskAlive, (removeClient_frame puller).2.2.2]
  | beginAttempt =>
    cases stage <;> simp [change, FlvPuller.beginAttempt, mapTask, taskAlive, htask, hrunning]
  | endAttempt outcome =>
    cases stage <;> cases outcome <;>
      simp [change, FlvPuller.endAttempt, mapTask, taskAlive, isPulling, htask]
    split_ifs <;> simp
  | endSleep =>
    cases stage <;> simp [change, FlvPuller.endSleep, mapTask, taskAlive, htask]

/-- An attempt that is on the primary source goes to the primary source. -/
theorem currentUrl_of_onPrimary {task : PullTask} (hprimary : puller.onPrimary task = true) :
    puller.currentUrl task = puller.flvUrl := by
  obtain ⟨usingBackup, stage⟩ := task
  cases usingBackup with
  | false => rfl
  | true =>
    have hnone : puller.backupFlvUrl = none := by simpa [onPrimary] using hprimary
    simp [currentUrl, hnone]

end FlvPuller

end LiveCDN.Agent.PullLoop
