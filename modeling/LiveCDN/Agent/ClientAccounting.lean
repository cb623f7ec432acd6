import LiveCDN.Agent.PullLoop
import LiveCDN.Library.GuardedRun

/-!
# Counting the clients of a puller

The connections that `handle_ws_flv_mode` and `handle_http_flv_connection` serve share the counter
of one puller. A handler goes through the stages of its connection, and at each of them the peer may
fail or the channel may close; `step` lets any connection make its next step, or a new one arrive.

Every handler gives its slot back on the way out, except that the HTTP-FLV handler leaves through
`?` when it cannot write the response header or the FLV header, and its slot is lost for good. So
the accounting is exact after a run exactly when no such write fails in it
(`accountingExact_run_iff`, `accountingExact_counterexample`). The count stays within the limit
whatever happens (`consistent_run`).

Scope. A tag that is sent, dropped under backpressure or skipped after a lag is one step that stays
in the loop of the handler. `contribution` records what a connection did to the count and steers
nothing.
-/

set_option autoImplicit false
set_option relaxedAutoImplicit false

namespace LiveCDN.Agent.ClientAccounting

open PullLoop Library.Utf8Text Library.GuardedRun

/-! ### The handlers -/

/-- The handler that serves a connection. -/
inductive Handler
  | wsFlv
  | httpFlv
  deriving DecidableEq, Repr

/-- What a handler does next: read the request and find the relay, tell the peer that the relay is
full, write the response header, write the FLV header, send the startup burst, send the tags of the
channel, give the slot back, or nothing any more. -/
inductive Stage
  | request
  | refusal
  | responseHeader
  | flvHeader
  | startup
  | streaming
  | removal
  | returned
  deriving DecidableEq, Repr

/-- The outcome of the I/O of a stage: it goes on, or the peer fails, closes or the channel ends. -/
inductive Outcome
  | proceeds
  | fails
  deriving DecidableEq, Repr

/-- `handle_ws_flv_mode`: every failure behind `add_client` leads to `remove_client`. -/
def handleWsFlvMode (puller : FlvPuller) : Stage → Outcome → FlvPuller × Stage
  | .request, .proceeds =>
    if puller.addClient.2 then (puller.addClient.1, .flvHeader) else (puller.addClient.1, .refusal)
  | .request, .fails => (puller, .returned)
  | .refusal, _ => (puller, .returned)
  | .responseHeader, _ => (puller, .responseHeader)
  | .flvHeader, .proceeds => (puller, .startup)
  | .flvHeader, .fails => (puller, .removal)
  | .startup, .proceeds => (puller, .streaming)
  | .startup, .fails => (puller, .removal)
  | .streaming, .proceeds => (puller, .streaming)
  | .streaming, .fails => (puller, .removal)
  | .removal, _ => (puller.removeClient, .returned)
  | .returned, _ => (puller, .returned)

/-- `handle_http_flv_connection`: a failed write of the response header or of the FLV header returns
through `?`. -/
def handleHttpFlvConnection (puller : FlvPuller) : Stage → Outcome → FlvPuller × Stage
  | .request, .proceeds =>
    if puller.addClient.2 then (puller.addClient.1, .responseHeader)
    else (puller.addClient.1, .refusal)
  | .request, .fails => (puller, .returned)
  | .refusal, _ => (puller, .returned)
  | .responseHeader, .proceeds => (puller, .flvHeader)
  | .responseHeader, .fails => (puller, .returned)
  | .flvHeader, .proceeds => (puller, .startup)
  | .flvHeader, .fails => (puller, .returned)
  | .startup, .proceeds => (puller, .streaming)
  | .startup, .fails => (puller, .removal)
  | .streaming, .proceeds => (puller, .streaming)
  | .streaming, .fails => (puller, .removal)
  | .removal, _ => (puller.removeClient, .returned)
  | .returned, _ => (puller, .returned)

/-- The next step of the handler of a connection. -/
def Handler.next (puller : FlvPuller) : Handler → Stage → Outcome → FlvPuller × Stage
  | .wsFlv => handleWsFlvMode puller
  | .httpFlv => handleHttpFlvConnection puller

/-! ### A puller and its connections -/

/-- A connection. -/
structure Connection where
  handler : Handler
  stage : Stage
  /-- What its steps have added to the count. -/
  contribution : ℤ
  deriving DecidableEq, Repr

/-- A puller and the connections made to it, in the order of their arrival. -/
structure State where
  puller : FlvPuller
  connections : List Connection
  deriving DecidableEq, Repr

/-- A connection arrives, or the connection at an index makes its next step. -/
inductive Action
  | accept (handler : Handler)
  | advance (index : ℕ) (outcome : Outcome)
  deriving DecidableEq, Repr

/-- The connection after a step of its handler, and the puller after it. -/
def advance (puller : FlvPuller) (connection : Connection) (outcome : Outcome) :
    FlvPuller × Connection :=
  let after := connection.handler.next puller connection.stage outcome
  (after.1,
    { connection with
      stage := after.2
      contribution := connection.contribution + (after.1.clientCount - puller.clientCount) })

/-- One step. -/
def step (st : State) : Action → State
  | .accept handler => { st with connections := st.connections ++ [⟨handler, .request, 0⟩] }
  | .advance index outcome =>
    match st.connections[index]? with
    | some connection =>
      { st with
        puller := (advance st.puller connection outcome).1
        connections := st.connections.set index (advance st.puller connection outcome).2 }
    | none => st

/-- A puller as `with_backup` makes it, before the first connection. -/
def State.initial (streamKey flvUrl : Text) (backupFlvUrl : Option Text) (maxClients : ℕ) : State :=
  ⟨.withBackup streamKey flvUrl backupFlvUrl maxClients, []⟩

/-- The accounting is exact: the count is within the limit, a handler that has returned contributes
nothing, and the count is zero when all have returned. -/
structure AccountingExact (st : State) : Prop where
  bounded : st.puller.clientCount ≤ st.puller.maxClients
  returned : ∀ connection ∈ st.connections,
    connection.stage = .returned → connection.contribution = 0
  empty : (∀ connection ∈ st.connections, connection.stage = .returned) →
    st.puller.clientCount = 0

/-- The step is not a failed write of a header behind `add_client` in the HTTP-FLV handler. -/
def KeepsSlot (st : State) : Action → Prop
  | .accept _ => True
  | .advance index outcome => ∀ connection ∈ st.connections[index]?,
    ¬ (connection.handler = .httpFlv ∧
      (connection.stage = .responseHeader ∨ connection.stage = .flvHeader) ∧ outcome = .fails)

/-! ### The count and the contributions -/

/-- What a connection in a stage contributes: one slot from the admission to the removal. A returned
one contributes nothing or the slot it did not give back. -/
def FitsStage (connection : Connection) : Prop :=
  match connection.stage with
  | .request => connection.contribution = 0
  | .refusal => connection.contribution = 0
  | .returned => connection.contribution = 0 ∨ connection.contribution = 1
  | _ => connection.contribution = 1

/-- The count is the sum of the contributions, within the limit. -/
structure Consistent (maxClients : ℕ) (st : State) : Prop where
  limit : st.puller.maxClients = maxClients
  bounded : st.puller.clientCount ≤ maxClients
  count : (st.puller.clientCount : ℤ) = (st.connections.map Connection.contribution).sum
  fits : ∀ connection ∈ st.connections, FitsStage connection

/-- A client is admitted while there is room, and then counted. -/
theorem addClient_cases (puller : FlvPuller) :
    (puller.addClient.2 = true ∧ puller.clientCount < puller.maxClients ∧
      puller.addClient.1 = { puller with clientCount := puller.clientCount + 1 }) ∨
        (puller.addClient.2 = false ∧ puller.addClient.1 = puller) := by
  by_cases hfull : puller.clientCount ≥ puller.maxClients
  · right
    simp [FlvPuller.addClient, hfull]
  · left
    simp [FlvPuller.addClient, hfull]
    omega

/-- A client that is counted can be removed. Assumes: the count is not zero. -/
theorem removeClient_of_pos {puller : FlvPuller} (hpos : 0 < puller.clientCount) :
    puller.removeClient = { puller with clientCount := puller.clientCount - 1 } := by
  simp [FlvPuller.removeClient, hpos]

/-- In this stage a handler holds a slot. -/
def Stage.holdsSlot : Stage → Bool
  | .request => false
  | .refusal => false
  | .responseHeader => true
  | .flvHeader => true
  | .startup => true
  | .streaming => true
  | .removal => true
  | .returned => false

/-- The step of a handler is a failed write of a header behind `add_client`. -/
def LosesSlot (handler : Handler) (stage : Stage) (outcome : Outcome) : Prop :=
  handler = .httpFlv ∧ (stage = .responseHeader ∨ stage = .flvHeader) ∧ outcome = .fails

/-- What one step of a handler can do: take a slot when there is room, give it back, go on with or
without one, or return with it after a failed write of a header. -/
theorem next_cases (puller : FlvPuller) (handler : Handler) (stage : Stage) (outcome : Outcome) :
    (∃ next, handler.next puller stage outcome =
        ({ puller with clientCount := puller.clientCount + 1 }, next) ∧ stage = .request ∧
          puller.clientCount < puller.maxClients ∧ next.holdsSlot = true) ∨
      (handler.next puller stage outcome = (puller.removeClient, .returned) ∧
        stage = .removal) ∨
      (∃ next, handler.next puller stage outcome = (puller, next) ∧
        next.holdsSlot = stage.holdsSlot ∧ (stage = .returned → next = .returned)) ∨
      (handler.next puller stage outcome = (puller, .returned) ∧
        LosesSlot handler stage outcome) := by
  cases stage with
  | request =>
    cases outcome with
    | fails =>
      refine Or.inr (Or.inr (Or.inl ⟨.returned, ?_, rfl, fun _ ↦ rfl⟩))
      cases handler <;> rfl
    | proceeds =>
      rcases addClient_cases puller with ⟨hadmitted, hroom, hadd⟩ | ⟨hrefused, hadd⟩
      · left
        cases handler with
        | wsFlv =>
          refine ⟨.flvHeader, ?_, rfl, hroom, rfl⟩
          simp [Handler.next, handleWsFlvMode, hadmitted, hadd]
        | httpFlv =>
          refine ⟨.responseHeader, ?_, rfl, hroom, rfl⟩
          simp [Handler.next, handleHttpFlvConnection, hadmitted, hadd]
      · refine Or.inr (Or.inr (Or.inl ⟨.refusal, ?_, rfl, by simp⟩))
        cases handler <;>
          simp [Handler.next, handleWsFlvMode, handleHttpFlvConnection, hrefused, hadd]
  | removal =>
    refine Or.inr (Or.inl ⟨?_, rfl⟩)
    cases handler <;> rfl
  | responseHeader =>
    cases handler with
    | wsFlv => exact Or.inr (Or.inr (Or.inl ⟨_, rfl, rfl, by simp⟩))
    | httpFlv =>
      cases outcome with
      | proceeds => exact Or.inr (Or.inr (Or.inl ⟨_, rfl, rfl, by simp⟩))
      | fails => exact Or.inr (Or.inr (Or.inr ⟨rfl, rfl, Or.inl rfl, rfl⟩))
  | flvHeader =>
    cases outcome with
    | proceeds =>
      refine Or.inr (Or.inr (Or.inl ⟨.startup, ?_, rfl, by simp⟩))
      cases handler <;> rfl
    | fails =>
      cases handler with
      | wsFlv => exact Or.inr (Or.inr (Or.inl ⟨_, rfl, rfl, by simp⟩))
      | httpFlv => exact Or.inr (Or.inr (Or.inr ⟨rfl, rfl, Or.inr rfl, rfl⟩))
  | startup =>
    refine Or.inr (Or.inr (Or.inl ?_))
    cases handler <;> cases outcome <;> exact ⟨_, rfl, rfl, by simp⟩
  | streaming =>
    refine Or.inr (Or.inr (Or.inl ?_))
    cases handler <;> cases outcome <;> exact ⟨_, rfl, rfl, by simp⟩
  | refusal =>
    refine Or.inr (Or.inr (Or.inl ⟨.returned, ?_, rfl, fun _ ↦ rfl⟩))
    cases handler <;> rfl
  | returned =>
    refine Or.inr (Or.inr (Or.inl ⟨.returned, ?_, rfl, fun _ ↦ rfl⟩))
    cases handler <;> rfl

/-- A failed write of a header returns at once. Assumes: the step is one. -/
theorem next_of_losesSlot (puller : FlvPuller) {handler : Handler} {stage : Stage}
    {outcome : Outcome} (hloses : LosesSlot handler stage outcome) :
    handler.next puller stage outcome = (puller, .returned) := by
  obtain ⟨rfl, hstage, rfl⟩ := hloses
  rcases hstage with rfl | rfl
  · rfl
  · rfl

/-- A handler that has returned stays so. -/
theorem next_returned (puller : FlvPuller) (handler : Handler) (outcome : Outcome) :
    handler.next puller .returned outcome = (puller, .returned) := by
  cases handler
  · rfl
  · rfl

/-- A contribution fits the stage when it is the slot that the stage holds, or the one that a
returned handler has kept. -/
theorem fitsStage_iff (connection : Connection) :
    FitsStage connection ↔
      connection.contribution = (if connection.stage.holdsSlot then 1 else 0) ∨
        (connection.stage = .returned ∧ connection.contribution = 1) := by
  obtain ⟨handler, stage, contribution⟩ := connection
  cases stage <;> simp [FitsStage, Stage.holdsSlot]

/-- A connection after a step, when the step is known. -/
theorem advance_of_next {puller after : FlvPuller} {connection : Connection} {outcome : Outcome}
    {next : Stage}
    (hnext : connection.handler.next puller connection.stage outcome = (after, next)) :
    advance puller connection outcome =
      (after, { connection with
        stage := next
        contribution := connection.contribution + (after.clientCount - puller.clientCount) }) := by
  simp only [advance, hnext]

/-- One step of a handler keeps the limit and what its stage says of the contribution. Assumes: the
contribution fits the stage, and is part of the count. -/
theorem advance_spec {puller : FlvPuller} {connection : Connection} (outcome : Outcome)
    (hfits : FitsStage connection) (hbounded : puller.clientCount ≤ puller.maxClients)
    (hpart : connection.contribution ≤ puller.clientCount) :
    (advance puller connection outcome).1.maxClients = puller.maxClients ∧
      (advance puller connection outcome).1.clientCount ≤ puller.maxClients ∧
        FitsStage (advance puller connection outcome).2 := by
  rw [fitsStage_iff] at hfits ⊢
  rcases next_cases puller connection.handler connection.stage outcome with
    ⟨next, hnext, hstage, hroom, hholds⟩ | ⟨hnext, hstage⟩ | ⟨next, hnext, hholds, hstays⟩ |
      ⟨hnext, hloses⟩
  · rw [advance_of_next hnext]
    have hzero : connection.contribution = 0 := by simpa [hstage, Stage.holdsSlot] using hfits
    refine ⟨rfl, hroom, Or.inl ?_⟩
    simp [hzero, hholds]
  · rw [advance_of_next hnext]
    have hone : connection.contribution = 1 := by simpa [hstage, Stage.holdsSlot] using hfits
    rw [hone] at hpart
    rw [removeClient_of_pos (by omega)]
    refine ⟨rfl, (Nat.sub_le _ _).trans hbounded, Or.inl ?_⟩
    show connection.contribution + (((puller.clientCount - 1 : ℕ) : ℤ) - puller.clientCount) = 0
    omega
  · rw [advance_of_next hnext]
    refine ⟨rfl, hbounded, ?_⟩
    simp only [sub_self, add_zero, hholds]
    rcases hfits with hslot | ⟨hreturned, hkept⟩
    · exact Or.inl hslot
    · exact Or.inr ⟨hstays hreturned, hkept⟩
  · rw [advance_of_next hnext]
    refine ⟨rfl, hbounded, Or.inr ⟨rfl, ?_⟩⟩
    obtain ⟨-, hstage | hstage, -⟩ := hloses
    · simpa [hstage, Stage.holdsSlot] using hfits
    · simpa [hstage, Stage.holdsSlot] using hfits

/-! ### Every run -/

variable {maxClients : ℕ} {st : State}

/-- A contribution is part of the count. -/
theorem Consistent.contribution_le (hst : Consistent maxClients st) {connection : Connection}
    (hmem : connection ∈ st.connections) :
    connection.contribution ≤ st.puller.clientCount := by
  rw [hst.count]
  apply List.single_le_sum
  · intro contribution hcontribution
    obtain ⟨other, hother, rfl⟩ := List.mem_map.mp hcontribution
    have hfits := hst.fits other hother
    unfold FitsStage at hfits
    split at hfits <;> omega
  · exact List.mem_map_of_mem hmem

theorem consistent_initial (streamKey flvUrl : Text) (backupFlvUrl : Option Text)
    (maxClients : ℕ) :
    Consistent maxClients (.initial streamKey flvUrl backupFlvUrl maxClients) where
  limit := rfl
  bounded := Nat.zero_le _
  count := rfl
  fits := fun _ hmem ↦ absurd hmem List.not_mem_nil

/-- What advancing a connection does. Assumes: the connection is at the index. -/
theorem step_advance {index : ℕ} {connection : Connection}
    (hfound : st.connections[index]? = some connection) (outcome : Outcome) :
    step st (.advance index outcome) =
      { st with
        puller := (advance st.puller connection outcome).1
        connections := st.connections.set index (advance st.puller connection outcome).2 } := by
  simp [step, hfound]

/-- Nothing is advanced where no connection is. Assumes: the index has none. -/
theorem step_advance_of_none {index : ℕ} (hnone : st.connections[index]? = none)
    (outcome : Outcome) : step st (.advance index outcome) = st := by
  simp [step, hnone]

/-- One step keeps the count the sum of the contributions, within the limit. -/
theorem consistent_step (hst : Consistent maxClients st) (action : Action) :
    Consistent maxClients (step st action) := by
  cases action with
  | accept handler =>
    refine ⟨hst.limit, hst.bounded, ?_, ?_⟩
    · show (st.puller.clientCount : ℤ) = _
      simp [step, hst.count]
    · intro connection hmem
      rcases List.mem_append.mp hmem with hold | hnew
      · exact hst.fits connection hold
      · obtain rfl := List.mem_singleton.mp hnew
        rfl
  | advance index outcome =>
    cases hfound : st.connections[index]? with
    | none =>
      rw [step_advance_of_none hfound]
      exact hst
    | some connection =>
      have hmem := List.mem_of_getElem? hfound
      obtain ⟨hindex, hget⟩ := List.getElem?_eq_some_iff.mp hfound
      have hbounded : st.puller.clientCount ≤ st.puller.maxClients := by
        rw [hst.limit]
        exact hst.bounded
      obtain ⟨hlimit, hcount, hfits⟩ :=
        advance_spec outcome (hst.fits connection hmem) hbounded (hst.contribution_le hmem)
      rw [step_advance hfound]
      refine ⟨hlimit.trans hst.limit, ?_, ?_, ?_⟩
      · rw [← hst.limit]
        exact hcount
      · show ((advance st.puller connection outcome).1.clientCount : ℤ) = _
        have hchange : (advance st.puller connection outcome).2.contribution =
            connection.contribution +
              ((advance st.puller connection outcome).1.clientCount - st.puller.clientCount) := rfl
        rw [List.map_set, List.sum_set', ← hst.count, hchange]
        simp [hindex, hget]
      · intro other hother
        rcases List.mem_or_eq_of_mem_set hother with hold | rfl
        · exact hst.fits other hold
        · exact hfits

/-- After every run the count is the sum of the contributions, within the limit. -/
theorem consistent_run (streamKey flvUrl : Text) (backupFlvUrl : Option Text) (maxClients : ℕ)
    (actions : List Action) :
    Consistent maxClients
      (run step (.initial streamKey flvUrl backupFlvUrl maxClients) actions) :=
  invariant_run_of_step step
    (fun st action (hst : Consistent maxClients st) ↦ consistent_step hst action)
    (consistent_initial streamKey flvUrl backupFlvUrl maxClients) actions

/-! ### Slots that are given back -/

/-- Every handler that has returned gave its slot back. -/
def Tidy (st : State) : Prop :=
  ∀ connection ∈ st.connections, connection.stage = .returned → connection.contribution = 0

/-- Some handler has returned with its slot. -/
def Leaked (st : State) : Prop :=
  ∃ (index : ℕ) (connection : Connection), st.connections[index]? = some connection ∧
    connection.stage = .returned ∧ connection.contribution = 1

/-- The accounting is exact when every slot was given back. Assumes: the count is the sum of the
contributions. -/
theorem accountingExact_iff_tidy (hst : Consistent maxClients st) :
    AccountingExact st ↔ Tidy st := by
  constructor
  · intro hexact
    exact hexact.returned
  · intro htidy
    refine ⟨?_, htidy, ?_⟩
    · rw [hst.limit]
      exact hst.bounded
    · intro hall
      have hzero : (st.connections.map Connection.contribution).sum = 0 := by
        apply List.sum_eq_zero
        intro contribution hcontribution
        obtain ⟨connection, hmem, rfl⟩ := List.mem_map.mp hcontribution
        exact htidy connection hmem (hall connection hmem)
      have hcount := hst.count
      rw [hzero] at hcount
      exact_mod_cast hcount

theorem not_tidy_of_leaked (hleaked : Leaked st) : ¬ Tidy st := by
  obtain ⟨index, connection, hfound, hreturned, hone⟩ := hleaked
  intro htidy
  have hzero := htidy connection (List.mem_of_getElem? hfound) hreturned
  rw [hone] at hzero
  exact one_ne_zero hzero

/-- A handler that returned without losing its slot leaves nothing behind. Assumes: the contribution
fits the stage, and is part of the count. -/
theorem advance_returned {puller : FlvPuller} {connection : Connection} {outcome : Outcome}
    (hfits : FitsStage connection) (hpart : connection.contribution ≤ puller.clientCount)
    (htidy : connection.stage = .returned → connection.contribution = 0)
    (hkeeps : ¬ LosesSlot connection.handler connection.stage outcome)
    (hreturned : (advance puller connection outcome).2.stage = .returned) :
    (advance puller connection outcome).2.contribution = 0 := by
  rw [fitsStage_iff] at hfits
  rcases next_cases puller connection.handler connection.stage outcome with
    ⟨next, hnext, -, -, hholds⟩ | ⟨hnext, hstage⟩ | ⟨next, hnext, hholds, -⟩ | ⟨-, hloses⟩
  · rw [advance_of_next hnext] at hreturned
    have hnone : next = .returned := hreturned
    rw [hnone] at hholds
    exact absurd hholds Bool.false_ne_true
  · rw [advance_of_next hnext]
    have hone : connection.contribution = 1 := by simpa [hstage, Stage.holdsSlot] using hfits
    rw [hone] at hpart
    rw [removeClient_of_pos (by omega)]
    show connection.contribution + (((puller.clientCount - 1 : ℕ) : ℤ) - puller.clientCount) = 0
    omega
  · rw [advance_of_next hnext] at hreturned ⊢
    have hnone : next = .returned := hreturned
    rw [hnone] at hholds
    simp only [sub_self, add_zero]
    rcases hfits with hslot | ⟨hstage, -⟩
    · rw [hslot, ← hholds]
      rfl
    · exact htidy hstage
  · exact absurd hloses hkeeps

/-- A step that keeps its slot leaves no slot behind. -/
theorem tidy_step (hst : Consistent maxClients st) (htidy : Tidy st) {action : Action}
    (hkeeps : KeepsSlot st action) : Tidy (step st action) := by
  cases action with
  | accept handler =>
    intro connection hmem hreturned
    rcases List.mem_append.mp hmem with hold | hnew
    · exact htidy connection hold hreturned
    · rw [List.mem_singleton.mp hnew]
  | advance index outcome =>
    cases hfound : st.connections[index]? with
    | none =>
      rw [step_advance_of_none hfound]
      exact htidy
    | some connection =>
      have hmem := List.mem_of_getElem? hfound
      rw [step_advance hfound]
      intro other hother hreturned
      rcases List.mem_or_eq_of_mem_set hother with hold | rfl
      · exact htidy other hold hreturned
      · exact advance_returned (hst.fits connection hmem) (hst.contribution_le hmem)
          (htidy connection hmem) (hkeeps connection hfound) hreturned

/-- A failed header write of the HTTP-FLV handler leaves its slot behind. -/
theorem leaked_of_not_keepsSlot (hst : Consistent maxClients st) {action : Action}
    (hloses : ¬ KeepsSlot st action) : Leaked (step st action) := by
  cases action with
  | accept handler => exact absurd trivial hloses
  | advance index outcome =>
    simp only [KeepsSlot, not_forall, not_not] at hloses
    obtain ⟨connection, hfound, hloses⟩ := hloses
    have hfits := (fitsStage_iff connection).mp
      (hst.fits connection (List.mem_of_getElem? hfound))
    obtain ⟨hindex, -⟩ := List.getElem?_eq_some_iff.mp hfound
    have hafter := advance_of_next (next_of_losesSlot st.puller hloses)
    refine ⟨index, (advance st.puller connection outcome).2, ?_, ?_, ?_⟩
    · rw [step_advance hfound]
      exact List.getElem?_set_self hindex
    · rw [hafter]
    · rw [hafter]
      simp only [sub_self, add_zero]
      obtain ⟨-, hstage | hstage, -⟩ := hloses
      · simpa [hstage, Stage.holdsSlot] using hfits
      · simpa [hstage, Stage.holdsSlot] using hfits

/-- A slot that was left behind is never given back. -/
theorem leaked_step (hleaked : Leaked st) (action : Action) : Leaked (step st action) := by
  obtain ⟨index, connection, hfound, hreturned, hone⟩ := hleaked
  obtain ⟨hindex, -⟩ := List.getElem?_eq_some_iff.mp hfound
  refine ⟨index, connection, ?_, hreturned, hone⟩
  cases action with
  | accept handler => exact (List.getElem?_append_left hindex).trans hfound
  | advance other outcome =>
    by_cases hsame : other = index
    · subst hsame
      have hstays : (advance st.puller connection outcome).2 = connection := by
        obtain ⟨handler, stage, contribution⟩ := connection
        subst hreturned
        rw [advance_of_next (next_returned st.puller handler outcome)]
        simp
      rw [step_advance hfound, hstays]
      exact List.getElem?_set_self hindex
    · cases hother : st.connections[other]? with
      | none =>
        rw [step_advance_of_none hother]
        exact hfound
      | some connection' =>
        rw [step_advance hother]
        exact (List.getElem?_set_ne hsame).trans hfound

/-- After a run the accounting is exact exactly when no HTTP-FLV handler failed to write its
response header or its FLV header. -/
theorem accountingExact_run_iff (streamKey flvUrl : Text) (backupFlvUrl : Option Text)
    (maxClients : ℕ) (actions : List Action) :
    AccountingExact (run step (.initial streamKey flvUrl backupFlvUrl maxClients) actions) ↔
      EachStepMeets step KeepsSlot (.initial streamKey flvUrl backupFlvUrl maxClients) actions :=
  have htidy : Tidy (.initial streamKey flvUrl backupFlvUrl maxClients) :=
    fun _ hmem _ ↦ absurd hmem List.not_mem_nil
  (accountingExact_iff_tidy (consistent_run streamKey flvUrl backupFlvUrl maxClients actions)).trans
    (run_iff_eachStepMeets step
      (fun _ action (hst : Consistent maxClients _) ↦ consistent_step hst action)
      (fun _ _ hst htidy hkeeps ↦ tidy_step hst htidy hkeeps)
      (fun _ _ hst _ hloses ↦ leaked_of_not_keepsSlot hst hloses)
      (fun _ action _ hleaked ↦ leaked_step hleaked action)
      (fun _ hleaked ↦ not_tidy_of_leaked hleaked)
      (consistent_initial streamKey flvUrl backupFlvUrl maxClients) htidy actions)

/-- A viewer whose player goes away before the response header of its HTTP-FLV request is
written. -/
def abortedViewer : List Action :=
  [.accept .httpFlv, .advance 0 .proceeds, .advance 0 .fails]

/-- The slot of that viewer is lost: its handler has returned and the count is still one. -/
theorem accountingExact_counterexample :
    ¬ AccountingExact (run step (.initial "key".toList "url".toList none 500) abortedViewer) := by
  intro hexact
  have hnone : ∀ connection ∈
      (run step (.initial "key".toList "url".toList none 500) abortedViewer).connections,
        connection.contribution = 0 := fun connection hmem ↦
    hexact.returned connection hmem (by revert connection; decide)
  revert hnone
  decide

end LiveCDN.Agent.ClientAccounting
