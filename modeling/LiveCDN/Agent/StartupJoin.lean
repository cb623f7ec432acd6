import LiveCDN.Agent.GopCache
import LiveCDN.Library.GuardedRun

/-!
# A client joins a running stream

The puller of `relay/flv.rs` broadcasts each tag and then adds it to the cache; a client that joins
(`handle_ws_flv_mode`, `handle_http_flv_connection`) takes the startup tags, sends them, subscribes
and then sends what it receives. `step` is one of these six steps, taken by either side in any
order.

A tag broadcast before the subscription whose insertion comes after the snapshot is in neither.
`delivered_eq` counts the tags a client misses so, and `joinExact_iff` says for which runs there are
none: those that take the snapshot between two tags and broadcast none before the subscription.

Scope. The client neither lags behind the channel nor drops tags under backpressure. `added`,
`broadcasts`, `snapshotAt` and `subscribedAt` record the history and steer nothing.
-/

set_option autoImplicit false
set_option relaxedAutoImplicit false

namespace LiveCDN.Agent.StartupJoin

open FlvFormat GopCache Library.GuardedRun

/-! ### The two sides -/

/-- How far the handler of the client is. -/
inductive Stage
  | arrived
  | tookSnapshot
  | sentSnapshot
  | subscribed
  deriving DecidableEq, Repr

/-- The state of the puller and of one client. -/
structure State where
  cache : Cache
  /-- The tag that is broadcast and not yet added. -/
  inFlight : Option FlvTagPacket
  stage : Stage
  snapshot : List FlvTagPacket
  /-- What waits in the channel for the client. -/
  queue : List FlvTagPacket
  /-- What the client has been sent. -/
  sent : List FlvTagPacket
  broadcasts : List FlvTagPacket
  added : List FlvTagPacket
  /-- How many tags were added when the snapshot was taken. -/
  snapshotAt : ℕ
  /-- How many tags were broadcast when the client subscribed. -/
  subscribedAt : ℕ
  deriving DecidableEq, Repr

/-- The state before the first tag and the first step of the client. -/
def State.initial (config : GopCacheConfig) : State where
  cache := .new config
  inFlight := none
  stage := .arrived
  snapshot := []
  queue := []
  sent := []
  broadcasts := []
  added := []
  snapshotAt := 0
  subscribedAt := 0

/-- A step of the puller or of the client. -/
inductive Action
  | broadcast (tag : FlvTagPacket)
  | addTag
  | takeSnapshot
  | sendSnapshot
  | subscribe
  | receive
  deriving DecidableEq, Repr

/-- One step; a step out of its side's order changes nothing. -/
def step (st : State) : Action → State
  | .broadcast tag =>
    if st.inFlight = none then
      { st with
        inFlight := some tag
        broadcasts := st.broadcasts ++ [tag]
        queue := if st.stage = .subscribed then st.queue ++ [tag] else st.queue }
    else st
  | .addTag =>
    match st.inFlight with
    | some tag =>
      { st with cache := st.cache.addTag tag, inFlight := none, added := st.added ++ [tag] }
    | none => st
  | .takeSnapshot =>
    if st.stage = .arrived then
      { st with
        stage := .tookSnapshot
        snapshot := st.cache.getStartupTags
        snapshotAt := st.added.length }
    else st
  | .sendSnapshot =>
    if st.stage = .tookSnapshot then
      { st with stage := .sentSnapshot, sent := st.sent ++ st.snapshot }
    else st
  | .subscribe =>
    if st.stage = .sentSnapshot then
      { st with stage := .subscribed, subscribedAt := st.broadcasts.length }
    else st
  | .receive =>
    match st.queue with
    | tag :: queue =>
      if st.stage = .subscribed then { st with queue := queue, sent := st.sent ++ [tag] } else st
    | [] => st

/-! ### What a client is sent -/

/-- The tags whose insertion comes after the snapshot: those added since and the one in flight. -/
def State.afterSnapshot (st : State) : List FlvTagPacket :=
  (st.added ++ st.inFlight.toList).drop st.snapshotAt

/-- What the client is sent, the tags that wait for it included. -/
def State.delivered (st : State) : List FlvTagPacket := st.sent ++ st.queue

/-- The client is sent the snapshot and then each tag added after it, once and in order. -/
def State.JoinExact (st : State) : Prop := st.delivered = st.snapshot ++ st.afterSnapshot

instance (st : State) : Decidable st.JoinExact :=
  inferInstanceAs (Decidable (st.delivered = st.snapshot ++ st.afterSnapshot))

/-- The tags added after the snapshot that were broadcast before the client could receive them. -/
def State.missed (st : State) : ℕ :=
  match st.stage with
  | .arrived => 0
  | .tookSnapshot => st.broadcasts.length - st.snapshotAt
  | .sentSnapshot => st.broadcasts.length - st.snapshotAt
  | .subscribed => st.subscribedAt - st.snapshotAt

/-- A step that lets the client miss nothing: the snapshot is taken between two tags, and no tag is
broadcast between the snapshot and the subscription. -/
def Undisturbed (st : State) : Action → Prop
  | .takeSnapshot => st.stage = .arrived → st.inFlight = none
  | .broadcast _ => st.inFlight = none → st.stage = .arrived ∨ st.stage = .subscribed
  | _ => True

/-- What holds between the steps. -/
structure Consistent (config : GopCacheConfig) (st : State) : Prop where
  broadcasts_eq : st.broadcasts = st.added ++ st.inFlight.toList
  cache_eq : st.cache = (Cache.new config).addTags st.added
  snapshotAt_le : st.snapshotAt ≤ st.added.length
  snapshot_eq : st.stage ≠ .arrived →
    st.snapshot = ((Cache.new config).addTags (st.added.take st.snapshotAt)).getStartupTags
  subscribedAt_le : st.stage = .subscribed →
    st.snapshotAt ≤ st.subscribedAt ∧ st.subscribedAt ≤ st.broadcasts.length
  delivered_eq : st.delivered =
    match st.stage with
    | .arrived => []
    | .tookSnapshot => []
    | .sentSnapshot => st.snapshot
    | .subscribed => st.snapshot ++ st.broadcasts.drop st.subscribedAt
  queue_eq : st.stage ≠ .subscribed → st.queue = []

/-! ### Consistency over a run -/

variable {config : GopCacheConfig} {st : State}

theorem consistent_initial (config : GopCacheConfig) : Consistent config (.initial config) where
  broadcasts_eq := rfl
  cache_eq := rfl
  snapshotAt_le := le_rfl
  snapshot_eq h := absurd rfl h
  subscribedAt_le h := nomatch h
  delivered_eq := rfl
  queue_eq _ := rfl

theorem consistent_broadcast (hst : Consistent config st) (tag : FlvTagPacket) :
    Consistent config (step st (.broadcast tag)) := by
  dsimp only [step]
  by_cases hidle : st.inFlight = none
  · rw [if_pos hidle]
    have hall : st.broadcasts = st.added := by
      rw [hst.broadcasts_eq, hidle, Option.toList_none, List.append_nil]
    constructor
    · exact congrArg (· ++ [tag]) hall
    · exact hst.cache_eq
    · exact hst.snapshotAt_le
    · exact hst.snapshot_eq
    · intro hstage
      obtain ⟨hle, hlen⟩ := hst.subscribedAt_le hstage
      exact ⟨hle, hlen.trans (by simp)⟩
    · have hdelivered := hst.delivered_eq
      unfold State.delivered at hdelivered ⊢
      dsimp only
      cases hstage : st.stage with
      | subscribed =>
        rw [hstage] at hdelivered
        dsimp only at hdelivered ⊢
        rw [if_pos rfl, ← List.append_assoc, hdelivered, List.append_assoc,
          List.drop_append_of_le_length (hst.subscribedAt_le hstage).2]
      | arrived => rwa [hstage] at hdelivered
      | tookSnapshot => rwa [hstage] at hdelivered
      | sentSnapshot => rwa [hstage] at hdelivered
    · intro hstage
      exact (if_neg hstage).trans (hst.queue_eq hstage)
  · rw [if_neg hidle]
    exact hst

theorem consistent_addTag (hst : Consistent config st) :
    Consistent config (step st .addTag) := by
  dsimp only [step]
  cases hflight : st.inFlight with
  | none => exact hst
  | some tag =>
    constructor
    · have hbroadcasts := hst.broadcasts_eq
      rw [hflight] at hbroadcasts
      dsimp only
      rw [hbroadcasts, Option.toList_none, List.append_nil, Option.toList_some]
    · exact (congrArg (·.addTag tag) hst.cache_eq).trans (Cache.addTags_concat _ _ _).symm
    · exact hst.snapshotAt_le.trans (by simp)
    · intro hstage
      dsimp only
      rw [List.take_append_of_le_length hst.snapshotAt_le]
      exact hst.snapshot_eq hstage
    · exact hst.subscribedAt_le
    · exact hst.delivered_eq
    · exact hst.queue_eq

theorem consistent_takeSnapshot (hst : Consistent config st) :
    Consistent config (step st .takeSnapshot) := by
  dsimp only [step]
  by_cases hstage : st.stage = .arrived
  · rw [if_pos hstage]
    have hdelivered := hst.delivered_eq
    rw [hstage] at hdelivered
    constructor
    · exact hst.broadcasts_eq
    · exact hst.cache_eq
    · exact le_rfl
    · intro _
      dsimp only
      rw [List.take_length, hst.cache_eq]
    · exact nofun
    · exact hdelivered
    · intro _
      exact hst.queue_eq (by rw [hstage]; exact nofun)
  · rw [if_neg hstage]
    exact hst

theorem consistent_sendSnapshot (hst : Consistent config st) :
    Consistent config (step st .sendSnapshot) := by
  dsimp only [step]
  by_cases hstage : st.stage = .tookSnapshot
  · rw [if_pos hstage]
    have hdelivered := hst.delivered_eq
    rw [hstage] at hdelivered
    obtain ⟨hsent, hqueue⟩ := List.append_eq_nil_iff.mp hdelivered
    constructor
    · exact hst.broadcasts_eq
    · exact hst.cache_eq
    · exact hst.snapshotAt_le
    · intro _
      exact hst.snapshot_eq (by rw [hstage]; exact nofun)
    · exact nofun
    · change (st.sent ++ st.snapshot) ++ st.queue = st.snapshot
      rw [hsent, hqueue, List.nil_append, List.append_nil]
    · exact fun _ ↦ hqueue
  · rw [if_neg hstage]
    exact hst

theorem consistent_subscribe (hst : Consistent config st) :
    Consistent config (step st .subscribe) := by
  dsimp only [step]
  by_cases hstage : st.stage = .sentSnapshot
  · rw [if_pos hstage]
    have hdelivered := hst.delivered_eq
    rw [hstage] at hdelivered
    constructor
    · exact hst.broadcasts_eq
    · exact hst.cache_eq
    · exact hst.snapshotAt_le
    · intro _
      exact hst.snapshot_eq (by rw [hstage]; exact nofun)
    · intro _
      dsimp only
      refine ⟨hst.snapshotAt_le.trans ?_, le_rfl⟩
      rw [hst.broadcasts_eq, List.length_append]
      exact Nat.le_add_right _ _
    · dsimp only
      rw [List.drop_length, List.append_nil]
      exact hdelivered
    · exact fun h ↦ absurd rfl h
  · rw [if_neg hstage]
    exact hst

theorem consistent_receive (hst : Consistent config st) :
    Consistent config (step st .receive) := by
  dsimp only [step]
  cases hqueue : st.queue with
  | nil => exact hst
  | cons tag queue =>
    dsimp only
    by_cases hstage : st.stage = .subscribed
    · rw [if_pos hstage]
      have hdelivered := hst.delivered_eq
      unfold State.delivered at hdelivered
      rw [hqueue] at hdelivered
      constructor
      · exact hst.broadcasts_eq
      · exact hst.cache_eq
      · exact hst.snapshotAt_le
      · exact hst.snapshot_eq
      · exact hst.subscribedAt_le
      · refine Eq.trans ?_ hdelivered
        exact List.append_assoc st.sent [tag] queue
      · exact fun h ↦ absurd hstage h
    · rw [if_neg hstage]
      exact hst

/-- Every step keeps the state consistent. -/
theorem consistent_step (hst : Consistent config st) (action : Action) :
    Consistent config (step st action) := by
  cases action with
  | broadcast tag => exact consistent_broadcast hst tag
  | addTag => exact consistent_addTag hst
  | takeSnapshot => exact consistent_takeSnapshot hst
  | sendSnapshot => exact consistent_sendSnapshot hst
  | subscribe => exact consistent_subscribe hst
  | receive => exact consistent_receive hst

/-- Every run keeps the state consistent. -/
theorem consistent_run (config : GopCacheConfig) (actions : List Action) :
    Consistent config (run step (.initial config) actions) :=
  have hstep : ∀ st action, Consistent config st → Consistent config (step st action) :=
    fun _ action hst ↦ consistent_step hst action
  invariant_run_of_step step hstep (consistent_initial config) actions

/-! ### What is missed -/

/-- No more tags are added than broadcast. -/
theorem length_broadcasts (hst : Consistent config st) :
    st.broadcasts.length = st.added.length + st.inFlight.toList.length := by
  rw [hst.broadcasts_eq, List.length_append]

/-- A broadcast is missed exactly when it falls between the snapshot and the subscription. -/
theorem missed_broadcast (hst : Consistent config st) (tag : FlvTagPacket) :
    (step st (.broadcast tag)).missed = 0 ↔ st.missed = 0 ∧ Undisturbed st (.broadcast tag) := by
  have hle : st.snapshotAt ≤ st.broadcasts.length :=
    hst.snapshotAt_le.trans (by rw [length_broadcasts hst]; exact Nat.le_add_right _ _)
  dsimp only [step, Undisturbed]
  by_cases hidle : st.inFlight = none
  · rw [if_pos hidle]
    unfold State.missed
    cases hstage : st.stage with
    | arrived => simp
    | subscribed => simp
    | tookSnapshot =>
      dsimp only
      rw [List.length_append, List.length_singleton]
      refine iff_of_false (by omega) fun h ↦ ?_
      exact absurd (h.2 hidle) (by simp)
    | sentSnapshot =>
      dsimp only
      rw [List.length_append, List.length_singleton]
      refine iff_of_false (by omega) fun h ↦ ?_
      exact absurd (h.2 hidle) (by simp)
  · rw [if_neg hidle]
    exact ⟨fun h ↦ ⟨h, fun hnone ↦ absurd hnone hidle⟩, And.left⟩

/-- A snapshot misses the tag in flight. -/
theorem missed_takeSnapshot (hst : Consistent config st) :
    (step st .takeSnapshot).missed = 0 ↔ st.missed = 0 ∧ Undisturbed st .takeSnapshot := by
  dsimp only [step, Undisturbed]
  by_cases hstage : st.stage = .arrived
  · have hmissed : st.missed = 0 := by
      unfold State.missed
      rw [hstage]
    rw [if_pos hstage]
    change st.broadcasts.length - st.added.length = 0 ↔ _
    rw [length_broadcasts hst, Nat.add_sub_cancel_left, List.length_eq_zero_iff,
      Option.toList_eq_nil_iff]
    exact ⟨fun hnone ↦ ⟨hmissed, fun _ ↦ hnone⟩, fun h ↦ h.2 hstage⟩
  · rw [if_neg hstage]
    exact ⟨fun h ↦ ⟨h, fun harrived ↦ absurd harrived hstage⟩, And.left⟩

/-- The other steps leave what is missed as it is. -/
@[simp] theorem missed_addTag (st : State) : (step st .addTag).missed = st.missed := by
  dsimp only [step]
  cases st.inFlight <;> rfl

@[simp, inherit_doc missed_addTag]
theorem missed_sendSnapshot (st : State) : (step st .sendSnapshot).missed = st.missed := by
  dsimp only [step, State.missed]
  by_cases hstage : st.stage = .tookSnapshot
  · rw [if_pos hstage, hstage]
  · rw [if_neg hstage]

@[simp, inherit_doc missed_addTag]
theorem missed_subscribe (st : State) : (step st .subscribe).missed = st.missed := by
  dsimp only [step, State.missed]
  by_cases hstage : st.stage = .sentSnapshot
  · rw [if_pos hstage, hstage]
  · rw [if_neg hstage]

@[simp, inherit_doc missed_addTag]
theorem missed_receive (st : State) : (step st .receive).missed = st.missed := by
  dsimp only [step]
  cases st.queue with
  | nil => rfl
  | cons tag queue =>
    dsimp only
    split_ifs <;> rfl

/-- A step lets the client miss a tag exactly when it is disturbed. -/
theorem missed_step (hst : Consistent config st) (action : Action) :
    (step st action).missed = 0 ↔ st.missed = 0 ∧ Undisturbed st action := by
  cases action with
  | broadcast tag => exact missed_broadcast hst tag
  | takeSnapshot => exact missed_takeSnapshot hst
  | addTag => simp [Undisturbed]
  | sendSnapshot => simp [Undisturbed]
  | subscribe => simp [Undisturbed]
  | receive => simp [Undisturbed]

/-- A run misses nothing exactly when none of its steps is disturbed. -/
theorem missed_run (config : GopCacheConfig) (actions : List Action) :
    (run step (.initial config) actions).missed = 0 ↔
      EachStepMeets step Undisturbed (.initial config) actions := by
  induction actions using List.reverseRecOn with
  | nil => exact iff_of_true rfl trivial
  | append_singleton actions action ih =>
    rw [run_append, eachStepMeets_append, run_cons, run_nil,
      missed_step (consistent_run config actions) action, ih]
    exact and_congr_right fun _ ↦ (and_iff_left trivial).symm

/-- A client that has subscribed is sent the snapshot and then the tags added after it, less the
first ones, those it missed. -/
theorem delivered_eq (hst : Consistent config st) (hsubscribed : st.stage = .subscribed) :
    st.delivered = st.snapshot ++ st.afterSnapshot.drop st.missed := by
  have hdelivered := hst.delivered_eq
  obtain ⟨hle, -⟩ := hst.subscribedAt_le hsubscribed
  unfold State.afterSnapshot State.missed
  rw [hsubscribed] at hdelivered ⊢
  dsimp only at hdelivered ⊢
  rw [hdelivered, ← hst.broadcasts_eq, List.drop_drop, Nat.add_sub_cancel' hle]

/-- Nothing is missed that was not added after the snapshot. -/
theorem missed_le (hst : Consistent config st) (hsubscribed : st.stage = .subscribed) :
    st.missed ≤ st.afterSnapshot.length := by
  obtain ⟨-, hle⟩ := hst.subscribedAt_le hsubscribed
  unfold State.afterSnapshot State.missed
  rw [hsubscribed, ← hst.broadcasts_eq, List.length_drop]
  exact Nat.sub_le_sub_right hle st.snapshotAt

/-- A join is exact exactly when it misses nothing. -/
theorem joinExact_iff_missed (hst : Consistent config st) (hsubscribed : st.stage = .subscribed) :
    st.JoinExact ↔ st.missed = 0 := by
  have hle := missed_le hst hsubscribed
  unfold State.JoinExact
  rw [delivered_eq hst hsubscribed, List.append_cancel_left_eq]
  constructor
  · intro hdrop
    have hlength := congrArg List.length hdrop
    rw [List.length_drop] at hlength
    omega
  · intro hmissed
    rw [hmissed, List.drop_zero]

/-- In every run that brings the client to its subscription, what the client is sent is the snapshot
and then each tag added after it, once and in order, exactly when the snapshot was taken between two
tags and no tag was broadcast between the snapshot and the subscription. Once the puller is between
two tags and nothing waits for the client, this is about the tags it has been sent. Assumes: the
client has subscribed. -/
theorem joinExact_iff (config : GopCacheConfig) (actions : List Action) (st : State)
    (hrun : run step (.initial config) actions = st) (hsubscribed : st.stage = .subscribed) :
    (st.JoinExact ↔ EachStepMeets step Undisturbed (.initial config) actions) ∧
      (st.inFlight = none → st.queue = [] →
        (st.sent = st.snapshot ++ st.added.drop st.snapshotAt ↔
          EachStepMeets step Undisturbed (.initial config) actions)) := by
  have hst : Consistent config st := hrun ▸ consistent_run config actions
  have hexact : st.JoinExact ↔ EachStepMeets step Undisturbed (.initial config) actions := by
    rw [joinExact_iff_missed hst hsubscribed, ← missed_run, hrun]
  refine ⟨hexact, fun hidle hdrained ↦ ?_⟩
  rw [← hexact]
  unfold State.JoinExact State.delivered State.afterSnapshot
  rw [hidle, hdrained, Option.toList_none, List.append_nil, List.append_nil]

/-- A keyframe and an inter frame of an AVC stream. -/
def sampleKeyframe : FlvTagPacket := ⟨⟨.video, 0, [0x17, 1, 0, 0, 0]⟩, 0⟩

@[inherit_doc sampleKeyframe]
def sampleInterFrame : FlvTagPacket := ⟨⟨.video, 40, [0x27, 1, 0, 0, 0]⟩, 0⟩

/-- A join between two tags. -/
def exactRun : List Action :=
  [.broadcast sampleKeyframe, .addTag, .takeSnapshot, .sendSnapshot, .subscribe,
    .broadcast sampleInterFrame, .addTag, .receive]

/-- A snapshot that is taken while the keyframe is in flight. -/
def inFlightRun : List Action :=
  [.broadcast sampleKeyframe, .takeSnapshot, .sendSnapshot, .subscribe, .addTag,
    .broadcast sampleInterFrame, .addTag, .receive]

/-- A keyframe that is broadcast and added between the snapshot and the subscription. -/
def lateRun : List Action :=
  [.takeSnapshot, .broadcast sampleKeyframe, .addTag, .sendSnapshot, .subscribe,
    .broadcast sampleInterFrame, .addTag, .receive]

/-- A witness of `joinExact_iff`. -/
theorem joinExact_iff_witness :
    (run step (.initial .default) exactRun).JoinExact ↔
      EachStepMeets step Undisturbed (.initial .default) exactRun :=
  (joinExact_iff .default exactRun _ rfl (by decide +kernel)).1

/-- A keyframe in flight at the snapshot and one broadcast and added before the subscription never
reach the client, who is sent the inter frame alone. -/
theorem joinExact_counterexample :
    (¬ (run step (.initial .default) inFlightRun).JoinExact ∧
      (run step (.initial .default) inFlightRun).sent = [sampleInterFrame]) ∧
    ¬ (run step (.initial .default) lateRun).JoinExact ∧
      (run step (.initial .default) lateRun).sent = [sampleInterFrame] := by
  decide +kernel

end LiveCDN.Agent.StartupJoin
