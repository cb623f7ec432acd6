import LiveCDN.Agent.CascadeSelector
import LiveCDN.Agent.PullLoop
import LiveCDN.Library.GuardedRun
import LiveCDN.Library.KeyedTable

/-!
# The relays of an agent over a run

`get_or_create_flv_relay` hands out the puller of a stream: the one that is in the table, or a new
one on the upstream that the selector has chosen at that moment. `step` lets viewers ask for relays,
join and leave, lets the pull tasks make their steps and the selector change its path, in any order.

Two things go wrong over a run, and each is told exactly. A pull task whose stream ended leaves its
loop, while the flag and the entry in the table stay: the relays handed out are alive exactly as
long as no upstream has ended a stream (`handedOutAlive_run_iff`, `handedOutAlive_counterexample`).
And a task keeps the source it was made with: its attempts on the primary source go where the
selector points exactly as long as that is where it pointed when the relay was made
(`attemptsFollow_run_iff`, `attemptsFollow_counterexample`).

Scope. No shutdown; a call of the selector that aborts the agent leaves everything as it is, for the
run ends with it. `createdUnder` and `attempts` record the history and steer nothing.
-/

set_option autoImplicit false
set_option relaxedAutoImplicit false

namespace LiveCDN.Agent.RelayLifecycle

open CascadeSelector PullLoop Library.Utf8Text Library.GuardedRun Library.KeyedTable

/-! ### Where a stream is pulled from -/

/-- The fields of `Config` that the relays read. -/
structure Config where
  cascadeUpstream : Option Text
  originFlvUrl : Option Text
  controllerUrl : Text
  backupOriginUrl : Option Text
  maxClients : ℕ

/-- The mark in a template that stands for the stream key. -/
def streamKeyMark : Text := "\x7bstream_key\x7d".toList

/-- `origin_flv_url`. -/
def Config.originUrlOf (config : Config) (streamKey : Text) : Text :=
  match config.cascadeUpstream with
  | some upstream => replace streamKeyMark streamKey upstream
  | none =>
    match config.originFlvUrl with
    | some url => replace streamKeyMark streamKey url
    | none =>
      trimEndMatches "/".toList config.controllerUrl ++ "/live/".toList ++ streamKey ++
        ".flv".toList

/-- `current_upstream_url`. -/
def currentUpstreamUrl (selector : Selector) : Option String :=
  selector.currentPath.map CascadePath.upstreamUrl

/-- The source that `get_or_create_flv_relay` derives from what the selector says: the upstream, or
Origin when there is none. -/
def sourceUrl (config : Config) (upstream : Option String) (streamKey : Text) : Text :=
  match upstream with
  | some url => replace streamKeyMark streamKey url.toList
  | none => config.originUrlOf streamKey

/-! ### The state of the agent -/

/-- A relay of the table. -/
structure Relay where
  puller : FlvPuller
  /-- What the selector said when the relay was made. -/
  createdUnder : Option String
  deriving DecidableEq, Repr

/-- The stream of a relay. -/
def Relay.streamKey (relay : Relay) : Text := relay.puller.streamKey

/-- An attempt to connect: the source, whether it is the primary one, and the source that follows
from the selector at that time. -/
structure Attempt where
  source : Text
  onPrimary : Bool
  selected : Text
  deriving DecidableEq, Repr

/-- The selector, the relays, and the attempts made so far. -/
structure State where
  selector : Selector
  flvRelays : Table Relay.streamKey
  attempts : List Attempt

/-- An agent without relays. -/
def State.initial (selector : Selector) : State := ⟨selector, .empty, []⟩

/-- What makes the selector change: the mesh map of a heartbeat, the reports of an upstream, and the
probes. -/
inductive SelectorEvent
  | updateMeshMap (env : Env) (now : ℕ) (resp : MeshMapResponse)
  | reportUpstreamOk (now : ℕ)
  | reportUpstreamFail (env : Env) (now : ℕ)
  | runMeshPing (pings : ℕ → Selector.Ping) (env : Env) (now : ℕ)

/-- The selector after an event. -/
def SelectorEvent.apply (selector : Selector) : SelectorEvent → Selector
  | .updateMeshMap env now resp => (selector.updateMeshMap env now resp).getD selector
  | .reportUpstreamOk now => selector.reportUpstreamOk now
  | .reportUpstreamFail env now => (selector.reportUpstreamFail env now).getD selector
  | .runMeshPing pings env now => (selector.runMeshPing pings env now).getD selector

/-- A viewer asks for a relay, something happens to the puller of a stream, or to the selector. -/
inductive Action
  | getOrCreate (streamKey : Text)
  | change (streamKey : Text) (event : FlvPuller.Change)
  | select (event : SelectorEvent)

variable (config : Config)

/-- The relay that `get_or_create_flv_relay` makes. -/
def newRelay (st : State) (streamKey : Text) : Relay :=
  let upstream := currentUpstreamUrl st.selector
  ⟨(FlvPuller.withBackup streamKey (sourceUrl config upstream streamKey)
    (config.backupOriginUrl.map (replace streamKeyMark streamKey)) config.maxClients).start,
    upstream⟩

/-- `get_or_create_flv_relay`: the relay handed out, and the state after. -/
def getOrCreateFlvRelay (st : State) (streamKey : Text) : Relay × State :=
  match st.flvRelays.find? streamKey with
  | some relay => (relay, st)
  | none =>
    (newRelay config st streamKey,
      { st with flvRelays := st.flvRelays.put (newRelay config st streamKey) })

/-- The attempt that the pull task of a relay makes at the top of its loop, if it makes one. -/
def attemptOf (st : State) (relay : Relay) : FlvPuller.Change → Option Attempt
  | .beginAttempt =>
    match relay.puller.task with
    | some task =>
      if task.stage = .loopTop ∧ relay.puller.running = true then
        some ⟨relay.puller.currentUrl task, relay.puller.onPrimary task,
          sourceUrl config (currentUpstreamUrl st.selector) relay.streamKey⟩
      else none
    | none => none
  | _ => none

/-- One step. -/
def step (st : State) : Action → State
  | .getOrCreate streamKey => (getOrCreateFlvRelay config st streamKey).2
  | .change streamKey event =>
    match st.flvRelays.find? streamKey with
    | some relay =>
      { st with
        flvRelays := st.flvRelays.put { relay with puller := relay.puller.change event }
        attempts := st.attempts ++ (attemptOf config st relay event).toList }
    | none => st
  | .select event => { st with selector := event.apply st.selector }

/-! ### What every step keeps -/

/-- What is true of every relay of the table: it has been started, and its primary source is what
the selector said when it was made. -/
structure Relay.Made (relay : Relay) : Prop where
  started : relay.puller.Started
  primary : relay.puller.flvUrl = sourceUrl config relay.createdUnder relay.streamKey

/-- Every relay of the table is as it was made. -/
def AllMade (st : State) : Prop :=
  ∀ streamKey relay, st.flvRelays.find? streamKey = some relay → relay.Made config

variable {config}

theorem made_newRelay (st : State) (streamKey : Text) :
    (newRelay config st streamKey).Made config :=
  ⟨(FlvPuller.started_start _ _ _ _).1, rfl⟩

theorem streamKey_newRelay (st : State) (streamKey : Text) :
    (newRelay config st streamKey).streamKey = streamKey := rfl

/-- A changed relay keeps its key. -/
theorem streamKey_change (relay : Relay) (event : FlvPuller.Change) :
    Relay.streamKey { relay with puller := relay.puller.change event } = relay.streamKey :=
  (FlvPuller.change_frame relay.puller event).1

theorem Relay.Made.change {relay : Relay} (hmade : relay.Made config) (event : FlvPuller.Change) :
    Relay.Made config { relay with puller := relay.puller.change event } := by
  obtain ⟨hkey, hurl, -, -⟩ := FlvPuller.change_frame relay.puller event
  refine ⟨hmade.started.change event, ?_⟩
  rw [streamKey_change]
  exact hurl.trans hmade.primary

/-- The relay that a stream has after a step: the one it had, a new one, or the changed one. -/
theorem find?_step {st : State} {action : Action} {streamKey : Text} {relay : Relay}
    (hfound : (step config st action).flvRelays.find? streamKey = some relay) :
    st.flvRelays.find? streamKey = some relay ∨
      (action = .getOrCreate streamKey ∧ relay = newRelay config st streamKey) ∨
        ∃ before event, st.flvRelays.find? streamKey = some before ∧
          action = .change streamKey event ∧
            relay = { before with puller := before.puller.change event } := by
  cases action with
  | getOrCreate created =>
    cases hcreated : st.flvRelays.find? created with
    | some other =>
      left
      simpa [step, getOrCreateFlvRelay, hcreated] using hfound
    | none =>
      simp only [step, getOrCreateFlvRelay, hcreated] at hfound
      rw [Table.find?_put _ (streamKey_newRelay st created)] at hfound
      by_cases hsame : streamKey = created
      · subst hsame
        rw [if_pos rfl, Option.some_inj] at hfound
        exact Or.inr (Or.inl ⟨rfl, hfound.symm⟩)
      · rw [if_neg hsame] at hfound
        exact Or.inl hfound
  | change changed event =>
    cases hchanged : st.flvRelays.find? changed with
    | none =>
      left
      simpa [step, hchanged] using hfound
    | some other =>
      have hkey : Relay.streamKey { other with puller := other.puller.change event } = changed :=
        (streamKey_change other event).trans (Table.key_of_find? hchanged)
      simp only [step, hchanged] at hfound
      rw [Table.find?_put _ hkey] at hfound
      by_cases hsame : streamKey = changed
      · subst hsame
        rw [if_pos rfl, Option.some_inj] at hfound
        exact Or.inr (Or.inr ⟨other, event, hchanged, rfl, hfound.symm⟩)
      · rw [if_neg hsame] at hfound
        exact Or.inl hfound
  | select event => exact Or.inl hfound

theorem allMade_initial (selector : Selector) : AllMade config (.initial selector) := by
  intro streamKey relay hfound
  rw [State.initial, Table.find?_empty] at hfound
  cases hfound

theorem allMade_step {st : State} (hst : AllMade config st) (action : Action) :
    AllMade config (step config st action) := by
  intro streamKey relay hfound
  rcases find?_step hfound with hold | ⟨-, rfl⟩ | ⟨before, event, hbefore, -, rfl⟩
  · exact hst streamKey relay hold
  · exact made_newRelay st streamKey
  · exact (hst streamKey before hbefore).change event

/-- The relay of a stream after a change of it. Assumes: the stream has a relay. -/
theorem find?_step_change {st : State} {streamKey : Text} {relay : Relay}
    (hfound : st.flvRelays.find? streamKey = some relay) (event : FlvPuller.Change) :
    (step config st (.change streamKey event)).flvRelays.find? streamKey =
      some { relay with puller := relay.puller.change event } := by
  have hkey : Relay.streamKey { relay with puller := relay.puller.change event } = streamKey :=
    (streamKey_change relay event).trans (Table.key_of_find? hfound)
  simp only [step, hfound]
  rw [Table.find?_put _ hkey, if_pos rfl]

/-- The relay of a stream after a step: the one it has, or that one changed. Assumes: the stream has
a relay. -/
theorem find?_step_of_found {st : State} {streamKey : Text} {relay : Relay}
    (hfound : st.flvRelays.find? streamKey = some relay) (action : Action) :
    (step config st action).flvRelays.find? streamKey = some relay ∨
      ∃ event, (step config st action).flvRelays.find? streamKey =
        some { relay with puller := relay.puller.change event } := by
  cases action with
  | getOrCreate created =>
    left
    cases hcreated : st.flvRelays.find? created with
    | some other => simpa [step, getOrCreateFlvRelay, hcreated] using hfound
    | none =>
      have hne : streamKey ≠ created := by
        rintro rfl
        rw [hfound] at hcreated
        cases hcreated
      simp only [step, getOrCreateFlvRelay, hcreated]
      rw [Table.find?_put _ (streamKey_newRelay st created), if_neg hne]
      exact hfound
  | change changed event =>
    by_cases hsame : streamKey = changed
    · subst hsame
      exact Or.inr ⟨event, find?_step_change hfound event⟩
    · left
      cases hchanged : st.flvRelays.find? changed with
      | none => simpa [step, hchanged] using hfound
      | some other =>
        have hkey : Relay.streamKey { other with puller := other.puller.change event } = changed :=
          (streamKey_change other event).trans (Table.key_of_find? hchanged)
        simp only [step, hchanged]
        rw [Table.find?_put _ hkey, if_neg hsame]
        exact hfound
  | select event => exact Or.inl hfound

/-! ### Whether the relays handed out are alive -/

/-- Every relay that would be handed out has a pull task that is still running, and the flag of a
relay is set exactly while its pull task is alive. -/
structure HandedOutAlive (config : Config) (st : State) : Prop where
  handedOut : ∀ streamKey, (getOrCreateFlvRelay config st streamKey).1.puller.taskAlive = true
  flag : ∀ streamKey relay, st.flvRelays.find? streamKey = some relay →
    (relay.puller.isRunning = true ↔ relay.puller.taskAlive = true)

/-- The step is not the clean end of a stream that a pull task is pulling. -/
def NoStreamEnd (st : State) (action : Action) : Prop :=
  ∀ streamKey relay, action = .change streamKey (.endAttempt .streamEnded) →
    st.flvRelays.find? streamKey = some relay → relay.puller.isPulling = false

/-- Some relay of the table has a pull task that has left its loop. -/
def SomeDead (st : State) : Prop :=
  ∃ streamKey relay, st.flvRelays.find? streamKey = some relay ∧ relay.puller.taskAlive = false

variable {st : State}

/-- The relays handed out are alive when those of the table are. -/
theorem handedOutAlive_iff (hst : AllMade config st) :
    HandedOutAlive config st ↔ ¬ SomeDead st := by
  constructor
  · rintro halive ⟨streamKey, relay, hfound, hdead⟩
    have hhanded := halive.handedOut streamKey
    rw [getOrCreateFlvRelay, hfound] at hhanded
    rw [hdead] at hhanded
    cases hhanded
  · intro hnone
    have halive : ∀ streamKey relay, st.flvRelays.find? streamKey = some relay →
        relay.puller.taskAlive = true := by
      intro streamKey relay hfound
      by_contra hdead
      exact hnone ⟨streamKey, relay, hfound, eq_false_of_ne_true hdead⟩
    refine ⟨?_, ?_⟩
    · intro streamKey
      unfold getOrCreateFlvRelay
      cases hfound : st.flvRelays.find? streamKey with
      | some relay => exact halive streamKey relay hfound
      | none => exact (FlvPuller.started_start _ _ _ _).2
    · intro streamKey relay hfound
      exact iff_of_true (hst streamKey relay hfound).started.1 (halive streamKey relay hfound)

/-- A step that ends no stream leaves every task alive. -/
theorem noneDead_step (hst : AllMade config st) (halive : ¬ SomeDead st) {action : Action}
    (hend : NoStreamEnd st action) : ¬ SomeDead (step config st action) := by
  rintro ⟨streamKey, relay, hfound, hdead⟩
  rcases find?_step hfound with hold | ⟨-, rfl⟩ | ⟨before, event, hbefore, haction, rfl⟩
  · exact halive ⟨streamKey, relay, hold, hdead⟩
  · cases hdead
  · have hstarted := (hst streamKey before hbefore).started
    have hwas : before.puller.taskAlive = true := by
      by_contra hnot
      exact halive ⟨streamKey, before, hbefore, eq_false_of_ne_true hnot⟩
    have hnow : (before.puller.change event).taskAlive = true := by
      rw [FlvPuller.taskAlive_change_iff hstarted]
      refine ⟨hwas, ?_⟩
      rintro ⟨rfl, hpulling⟩
      rw [hend streamKey before haction hbefore] at hpulling
      cases hpulling
    rw [hnow] at hdead
    cases hdead

/-- The end of a stream ends the pull task. -/
theorem someDead_of_streamEnd (hst : AllMade config st) {action : Action}
    (hend : ¬ NoStreamEnd st action) : SomeDead (step config st action) := by
  simp only [NoStreamEnd, not_forall] at hend
  obtain ⟨streamKey, relay, rfl, hfound, hpulling⟩ := hend
  have hdead : (relay.puller.change (.endAttempt .streamEnded)).taskAlive = false := by
    rw [← Bool.not_eq_true, FlvPuller.taskAlive_change_iff (hst streamKey relay hfound).started]
    exact fun hboth ↦ hboth.2 ⟨rfl, by simpa using hpulling⟩
  exact ⟨streamKey, _, find?_step_change hfound _, hdead⟩

/-- A dead pull task stays in the table. -/
theorem someDead_step (hst : AllMade config st) (hdead : SomeDead st) (action : Action) :
    SomeDead (step config st action) := by
  obtain ⟨streamKey, relay, hfound, hrelay⟩ := hdead
  rcases find?_step_of_found hfound action with hsame | ⟨event, hchanged⟩
  · exact ⟨streamKey, relay, hsame, hrelay⟩
  · refine ⟨streamKey, _, hchanged, ?_⟩
    rw [← Bool.not_eq_true, FlvPuller.taskAlive_change_iff (hst streamKey relay hfound).started,
      hrelay]
    simp

variable (config)

/-- The relays that are handed out after a run are alive, and their flags exact, exactly when no
upstream has ended a stream in it that a pull task was pulling. -/
theorem handedOutAlive_run_iff (selector : Selector) (actions : List Action) :
    HandedOutAlive config (run (step config) (.initial selector) actions) ↔
      EachStepMeets (step config) NoStreamEnd (.initial selector) actions := by
  have hmade : AllMade config (run (step config) (.initial selector) actions) :=
    invariant_run_of_step (step config)
      (fun st action (hst : AllMade config st) ↦ allMade_step hst action)
      (allMade_initial selector) actions
  have hnone : ¬ SomeDead (.initial selector) := by
    rintro ⟨streamKey, relay, hfound, -⟩
    rw [State.initial, Table.find?_empty] at hfound
    cases hfound
  rw [handedOutAlive_iff hmade]
  exact run_iff_eachStepMeets (step config)
    (fun _ action (hst : AllMade config _) ↦ allMade_step hst action)
    (fun _ _ hst halive hend ↦ noneDead_step hst halive hend)
    (fun _ _ hst _ hend ↦ someDead_of_streamEnd hst hend)
    (fun _ action hst hdead ↦ someDead_step hst hdead action)
    (fun _ hdead halive ↦ halive hdead) (allMade_initial selector) hnone actions

/-- An agent that pulls from the origin of its controller. -/
def sampleConfig : Config where
  cascadeUpstream := none
  originFlvUrl := some "http://origin/\x7bstream_key\x7d.flv".toList
  controllerUrl := "http://controller:8080".toList
  backupOriginUrl := none
  maxClients := 500

/-- A viewer starts a relay, its upstream ends the stream, and the broadcaster starts it anew. -/
def endedStream : List Action :=
  [.getOrCreate "key".toList, .change "key".toList .beginAttempt,
    .change "key".toList (.endAttempt .streamEnded)]

/-- The next viewer is handed the relay whose pull task has left its loop. -/
theorem handedOutAlive_counterexample :
    ¬ HandedOutAlive sampleConfig
      (run (step sampleConfig) (.initial (.new "edge" "华东" "电信" false)) endedStream) := by
  intro halive
  have hdead : (getOrCreateFlvRelay sampleConfig
      (run (step sampleConfig) (.initial (.new "edge" "华东" "电信" false)) endedStream)
        "key".toList).1.puller.taskAlive = false := by decide +kernel
  rw [halive.handedOut] at hdead
  cases hdead

/-! ### Whether the attempts follow the selector -/

/-- Every attempt on the primary source went where the selector pointed at that time. -/
def AttemptsFollow (st : State) : Prop :=
  ∀ attempt ∈ st.attempts, attempt.onPrimary = true → attempt.source = attempt.selected

/-- If the step is an attempt of a running task on its primary source, then the selector points
where it pointed when the relay was made. -/
def UnmovedSinceMade (st : State) (action : Action) : Prop :=
  ∀ streamKey relay task, action = .change streamKey .beginAttempt →
    st.flvRelays.find? streamKey = some relay → relay.puller.task = some task →
      task.stage = .loopTop → relay.puller.onPrimary task = true →
        sourceUrl config relay.createdUnder streamKey =
          sourceUrl config (currentUpstreamUrl st.selector) streamKey

variable {config}

/-- The attempts after a step: those before it, and one more when the step is an attempt. -/
theorem attempts_step (st : State) (action : Action) :
    (step config st action).attempts = st.attempts ∨
      ∃ streamKey relay task, action = .change streamKey .beginAttempt ∧
        st.flvRelays.find? streamKey = some relay ∧ relay.puller.task = some task ∧
          task.stage = .loopTop ∧ relay.puller.running = true ∧
            (step config st action).attempts = st.attempts ++
              [⟨relay.puller.currentUrl task, relay.puller.onPrimary task,
                sourceUrl config (currentUpstreamUrl st.selector) streamKey⟩] := by
  cases action with
  | getOrCreate streamKey =>
    left
    cases hfound : st.flvRelays.find? streamKey <;> simp [step, getOrCreateFlvRelay, hfound]
  | change streamKey event =>
    cases hfound : st.flvRelays.find? streamKey with
    | none => simp [step, hfound]
    | some relay =>
      have hkey : relay.streamKey = streamKey := Table.key_of_find? hfound
      by_cases hattempt : event = .beginAttempt
      · subst hattempt
        cases htask : relay.puller.task with
        | none => simp [step, hfound, attemptOf, htask]
        | some task =>
          by_cases hready : task.stage = .loopTop ∧ relay.puller.running = true
          · right
            refine ⟨streamKey, relay, task, rfl, hfound, htask, hready.1, hready.2, ?_⟩
            simp [step, hfound, attemptOf, htask, hready, hkey]
          · left
            simp only [step, hfound, attemptOf, htask, if_neg hready]
            exact List.append_nil _
      · left
        cases event <;> simp_all [step, attemptOf]
  | select event => exact Or.inl rfl

/-- The primary source of an attempt is what the selector said when the relay was made. -/
theorem source_of_onPrimary (hst : AllMade config st) {streamKey : Text} {relay : Relay}
    (hfound : st.flvRelays.find? streamKey = some relay) {task : PullTask}
    (hprimary : relay.puller.onPrimary task = true) :
    relay.puller.currentUrl task = sourceUrl config relay.createdUnder streamKey := by
  rw [FlvPuller.currentUrl_of_onPrimary hprimary, (hst streamKey relay hfound).primary,
    Table.key_of_find? hfound]

theorem attemptsFollow_step (hst : AllMade config st) (hfollow : AttemptsFollow st)
    {action : Action} (hunmoved : UnmovedSinceMade config st action) :
    AttemptsFollow (step config st action) := by
  rcases attempts_step st action with
    hsame | ⟨streamKey, relay, task, haction, hfound, htask, htop, -, hmore⟩
  · intro attempt hmem
    rw [hsame] at hmem
    exact hfollow attempt hmem
  · intro attempt hmem hprimary
    rw [hmore] at hmem
    rcases List.mem_append.mp hmem with hold | hnew
    · exact hfollow attempt hold hprimary
    · obtain rfl := List.mem_singleton.mp hnew
      exact (source_of_onPrimary hst hfound hprimary).trans
        (hunmoved streamKey relay task haction hfound htask htop hprimary)

theorem not_attemptsFollow_of_moved (hst : AllMade config st) {action : Action}
    (hmoved : ¬ UnmovedSinceMade config st action) : ¬ AttemptsFollow (step config st action) := by
  simp only [UnmovedSinceMade, not_forall] at hmoved
  obtain ⟨streamKey, relay, task, rfl, hfound, htask, htop, hprimary, hdiffers⟩ := hmoved
  have hrunning := (hst streamKey relay hfound).started.1
  have hkey : relay.streamKey = streamKey := Table.key_of_find? hfound
  intro hfollow
  have hmem : (⟨relay.puller.currentUrl task, relay.puller.onPrimary task,
      sourceUrl config (currentUpstreamUrl st.selector) streamKey⟩ : Attempt) ∈
        (step config st (.change streamKey .beginAttempt)).attempts := by
    simp [step, hfound, attemptOf, htask, htop, hrunning, hkey]
  apply hdiffers
  rw [← source_of_onPrimary hst hfound hprimary]
  exact hfollow _ hmem hprimary

/-- An attempt that went astray stays in the history. -/
theorem not_attemptsFollow_step (hastray : ¬ AttemptsFollow st) (action : Action) :
    ¬ AttemptsFollow (step config st action) := by
  intro hfollow
  apply hastray
  intro attempt hmem
  apply hfollow
  rcases attempts_step st action with hsame | ⟨_, _, _, _, _, _, _, _, hmore⟩
  · rw [hsame]
    exact hmem
  · rw [hmore]
    exact List.mem_append_left _ hmem

variable (config)

/-- In a run every attempt of a running task on its primary source goes where the selector points at
that time exactly when at each of them the selector points where it pointed when the relay was
made. -/
theorem attemptsFollow_run_iff (selector : Selector) (actions : List Action) :
    AttemptsFollow (run (step config) (.initial selector) actions) ↔
      EachStepMeets (step config) (UnmovedSinceMade config) (.initial selector) actions :=
  run_iff_eachStepMeets (step config)
    (fun st action (hst : AllMade config st) ↦ allMade_step hst action)
    (fun st _ hst (hfollow : AttemptsFollow st) hunmoved ↦
      attemptsFollow_step hst hfollow hunmoved)
    (fun _ _ hst _ hmoved ↦ not_attemptsFollow_of_moved hst hmoved)
    (fun st action _ (hastray : ¬ AttemptsFollow st) ↦ not_attemptsFollow_step hastray action)
    (fun _ hastray hfollow ↦ hastray hfollow) (allMade_initial selector)
    (fun _ hmem ↦ absurd hmem List.not_mem_nil) actions

/-- A relay is made while the selector points to its one upstream. The connection is lost, the
controller sends a mesh map without upstreams, the selector turns to Origin, and the pull task tries
again. -/
def lostUpstream : List Action :=
  [.select (.updateMeshMap .always 0 ⟨2, [loneCandidate], some ⟨2, 30, 15, 3⟩, none⟩),
    .getOrCreate "key".toList, .change "key".toList .beginAttempt,
    .change "key".toList (.endAttempt .connectionLost),
    .select (.updateMeshMap .always second ⟨2, [], some ⟨2, 30, 15, 3⟩, none⟩),
    .change "key".toList .endSleep, .change "key".toList .beginAttempt]

/-- The second attempt goes to the upstream that the selector has left. -/
theorem attemptsFollow_counterexample :
    ¬ AttemptsFollow
      (run (step sampleConfig) (.initial (.new "test-node" "华东" "电信" false)) lostUpstream) := by
  intro hfollow
  have hastray : ∃ attempt ∈ (run (step sampleConfig)
      (.initial (.new "test-node" "华东" "电信" false)) lostUpstream).attempts,
        attempt.onPrimary = true ∧ attempt.source ≠ attempt.selected := by decide +kernel
  obtain ⟨attempt, hmem, hprimary, hdiffers⟩ := hastray
  exact hdiffers (hfollow attempt hmem hprimary)

end LiveCDN.Agent.RelayLifecycle
