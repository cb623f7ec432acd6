import LiveCDN.Controller.KeyRotation
import LiveCDN.Library.Replay

/-!
# Steps that store from an unchanged record

A rotation and the latency mode handler store what they have derived from a record they have read
before, and between the two another task can have stored a new record or ended the stream.
`StoresUnchanged` is the condition on a step that this has not happened: the record is still the one
stored for its stream, and for a rotation the stream is still live. `change_step` says what a step
that meets the condition changes, and every world that such steps reach is `Consistent`.

A task that has still to store from a record that is stale by now can never finish under the
condition, since stale records stay stale: when no task owes from a stale record after a step, none
did before it (`sound_of_step`).
-/

set_option autoImplicit false
set_option relaxedAutoImplicit false

namespace LiveCDN.Controller.StreamUpdates

open Library.KeyedTable Library.GuardedRun Library.Replay StreamStore KeyRotation

/-! ### The fields that stay -/

/-- Two records of one stream: they differ in the key, the mode and whether the stream is live. -/
structure SameStream (first second : StreamInfo) : Prop where
  streamKey : first.streamKey = second.streamKey
  title : first.title = second.title
  originURL : first.originURL = second.originURL
  cipherSuite : first.cipherSuite = second.cipherSuite
  createdAt : first.createdAt = second.createdAt

namespace SameStream

theorem refl (info : StreamInfo) : SameStream info info := ⟨rfl, rfl, rfl, rfl, rfl⟩

theorem symm {first second : StreamInfo} (hsame : SameStream first second) :
    SameStream second first :=
  ⟨hsame.streamKey.symm, hsame.title.symm, hsame.originURL.symm, hsame.cipherSuite.symm,
    hsame.createdAt.symm⟩

theorem trans {first second third : StreamInfo} (hfirst : SameStream first second)
    (hsecond : SameStream second third) : SameStream first third :=
  ⟨hfirst.streamKey.trans hsecond.streamKey, hfirst.title.trans hsecond.title,
    hfirst.originURL.trans hsecond.originURL, hfirst.cipherSuite.trans hsecond.cipherSuite,
    hfirst.createdAt.trans hsecond.createdAt⟩

/-- The record of a stream has the key under which the table has the stream. -/
theorem streamKey_of_find? {table : Table StreamInfo.streamKey} {key : String}
    {first info : StreamInfo} (hsame : SameStream first info)
    (hfirst : table.find? key = some first) : info.streamKey = key :=
  hsame.streamKey.symm.trans (Table.key_of_find? hfirst)

end SameStream

/-- What a rotation stores does not depend on which record of the stream it has read. -/
theorem renewedStream_congr {first second : StreamInfo} (hsame : SameStream first second)
    (outcome : RotationOutcome) : renewedStream outcome first = renewedStream outcome second := by
  unfold renewedStream
  rw [hsame.streamKey, hsame.title, hsame.originURL, hsame.cipherSuite, hsame.createdAt]

/-- A rotation stores a live record of the stream. -/
theorem sameStream_of_renewed {outcome : RotationOutcome} {info updated : StreamInfo}
    (hrenewed : renewedStream outcome info = some updated) :
    SameStream info updated ∧ updated.isLive = true := by
  obtain ⟨_, _, _, _, _, _, rfl⟩ := renewedStream_eq_some_iff.mp hrenewed
  exact ⟨⟨rfl, rfl, rfl, rfl, rfl⟩, rfl⟩

/-! ### Effects -/

/-- What a task does to the record of a stream when it runs alone. -/
def effect (task : Task) (info : StreamInfo) : StreamInfo :=
  match task with
  | .rotateAllLiveStreams _ outcome =>
    if info.isLive = true then (renewedStream outcome info).getD info else info
  | .adminStreamStop key => if info.streamKey = key then { info with isLive := false } else info
  | .setLatencyMode key mode =>
    if info.streamKey = key ∧ World.isLatencyMode mode = true ∧ info.isLive = true then
      { info with latencyMode := mode }
    else info

/-- A task keeps the stream of a record. -/
theorem sameStream_effect (task : Task) (info : StreamInfo) :
    SameStream info (effect task info) := by
  cases task with
  | rotateAllLiveStreams rotator outcome =>
    unfold effect
    dsimp only
    split_ifs
    · cases hrenewed : renewedStream outcome info with
      | none => exact .refl info
      | some updated => exact (sameStream_of_renewed hrenewed).1
    · exact .refl info
  | adminStreamStop key =>
    unfold effect
    dsimp only
    split_ifs
    · exact ⟨rfl, rfl, rfl, rfl, rfl⟩
    · exact .refl info
  | setLatencyMode key mode =>
    unfold effect
    dsimp only
    split_ifs
    · exact ⟨rfl, rfl, rfl, rfl, rfl⟩
    · exact .refl info

/-- A task leaves the record of an ended stream as it is. -/
theorem effect_of_ended (task : Task) {info : StreamInfo} (hended : info.isLive = false) :
    effect task info = info := by
  have hlive : ¬ info.isLive = true := Bool.eq_false_iff.mp hended
  cases task with
  | rotateAllLiveStreams rotator outcome => exact if_neg hlive
  | adminStreamStop key =>
    unfold effect
    dsimp only
    split_ifs
    · rw [← hended]
    · rfl
  | setLatencyMode key mode => exact if_neg fun h ↦ hlive h.2.2

/-- A rotation renews the record of a live stream. -/
theorem effect_of_renewed {rotator : ℕ} {outcome : RotationOutcome} {info updated : StreamInfo}
    (hlive : info.isLive = true) (hrenewed : renewedStream outcome info = some updated) :
    effect (.rotateAllLiveStreams rotator outcome) info = updated := by
  unfold effect
  dsimp only
  rw [if_pos hlive, hrenewed, Option.getD_some]

/-- Only a stop ends a stream. -/
theorem eq_stop_of_ends {task : Task} {info : StreamInfo} (hlive : info.isLive = true)
    (hends : ¬ (effect task info).isLive = true) :
    task = .adminStreamStop info.streamKey ∧ effect task info = { info with isLive := false } := by
  cases task with
  | rotateAllLiveStreams rotator outcome =>
    refine absurd ?_ hends
    unfold effect
    dsimp only
    rw [if_pos hlive]
    cases hrenewed : renewedStream outcome info with
    | none => exact hlive
    | some updated => exact (sameStream_of_renewed hrenewed).2
  | adminStreamStop key =>
    unfold effect at hends ⊢
    dsimp only at hends ⊢
    by_cases hkey : info.streamKey = key
    · exact ⟨by rw [hkey], if_pos hkey⟩
    · rw [if_neg hkey] at hends
      exact absurd hlive hends
  | setLatencyMode key mode =>
    refine absurd ?_ hends
    unfold effect
    dsimp only
    split_ifs
    · exact hlive
    · exact hlive

/-! ### Stale records -/

/-- The record of a pointer is the one that is stored for its stream. -/
def IsCurrent (world : World) (stream : ℕ) : Prop :=
  ∀ info ∈ world.heap[stream]?, world.getStream info.streamKey = some stream

/-- Storing the record that is stored changes nothing. -/
theorem getStream_createStream_of_current {world : World} {stream : ℕ}
    (hcurrent : IsCurrent world stream) (key : String) :
    (world.createStream stream).getStream key = world.getStream key := by
  unfold World.createStream
  cases hinfo : world.heap[stream]? with
  | none => rfl
  | some info =>
    have hstored := hcurrent info hinfo
    unfold World.getStream at hstored ⊢
    dsimp only
    rw [Table.find?_put _ rfl]
    split_ifs with hkey
    · rw [hkey, hstored]
      rfl
    · rfl

/-- A task is a rotation. -/
def isRotation (tasks : List Task) (task : ℕ) : Bool :=
  match tasks[task]? with
  | some (.rotateAllLiveStreams _ _) => true
  | _ => false

/-- A task may store what it has derived from a record: it is the one that is stored, and for a
rotation the stream is live. -/
def IsUnchanged (tasks : List Task) (world : World) (task stream : ℕ) : Prop :=
  IsCurrent world stream ∧ (isRotation tasks task = true → world.isLive stream = true)

/-- The record from which the next step of a task stores. -/
def storesFrom (tasks : List Task) (world : World) (task : ℕ) : Option ℕ :=
  match tasks[task]?, world.progress task with
  | some (.rotateAllLiveStreams _ outcome), .rotating (stream :: _) =>
    if (world.heap[stream]?.bind (renewedStream outcome)).isSome = true then some stream else none
  | some (.setLatencyMode _ _), .assigned stream => some stream
  | _, _ => none

/-- A rotation that renews the first of its streams stores from its record. -/
theorem storesFrom_of_renewed {tasks : List Task} {world : World} {task rotator stream : ℕ}
    {outcome : RotationOutcome} {streams : List ℕ} {updated : StreamInfo}
    (htask : tasks[task]? = some (.rotateAllLiveStreams rotator outcome))
    (hprogress : world.progress task = .rotating (stream :: streams))
    (hrenewed : world.heap[stream]?.bind (renewedStream outcome) = some updated) :
    storesFrom tasks world task = some stream := by
  unfold storesFrom
  rw [htask, hprogress]
  dsimp only
  rw [hrenewed]
  rfl

/-- The latency mode handler stores the record it has written to. -/
theorem storesFrom_of_assigned {tasks : List Task} {world : World} {task stream : ℕ}
    {key mode : String} (htask : tasks[task]? = some (.setLatencyMode key mode))
    (hprogress : world.progress task = .assigned stream) :
    storesFrom tasks world task = some stream := by
  unfold storesFrom
  rw [htask, hprogress]

theorem isRotation_eq_true {tasks : List Task} {task rotator : ℕ} {outcome : RotationOutcome}
    (htask : tasks[task]? = some (.rotateAllLiveStreams rotator outcome)) :
    isRotation tasks task = true := by
  unfold isRotation
  rw [htask]

/-- The record of a rotation that stores from it is live. -/
theorem isLive_of_unchanged {tasks : List Task} {world : World} {task rotator stream : ℕ}
    {outcome : RotationOutcome} {info : StreamInfo}
    (htask : tasks[task]? = some (.rotateAllLiveStreams rotator outcome))
    (hunchanged : IsUnchanged tasks world task stream) (hinfo : world.heap[stream]? = some info) :
    info.isLive = true := by
  have hlive := hunchanged.2 (isRotation_eq_true htask)
  rw [World.isLive, hinfo] at hlive
  exact hlive

/-- The condition on a step: when it stores what it has derived from a record, that record is still
the one stored for its stream, and for a rotation the stream is still live. -/
def StoresUnchanged (tasks : List Task) (world : World) (task : ℕ) : Prop :=
  ∀ stream ∈ storesFrom tasks world task, IsUnchanged tasks world task stream

instance (tasks : List Task) (world : World) (task : ℕ) :
    Decidable (StoresUnchanged tasks world task) := by
  unfold StoresUnchanged IsUnchanged IsCurrent
  infer_instance

/-- A step that stores from no record meets the condition. -/
theorem storesUnchanged_of_eq_none {tasks : List Task} {world : World} {task : ℕ}
    (hnone : storesFrom tasks world task = none) : StoresUnchanged tasks world task := by
  intro stream hstores
  cases hnone.symm.trans hstores

/-- A task has still to store what it derives from a record. -/
inductive Owes (tasks : List Task) (world : World) (task : ℕ) : ℕ → Prop
  | rotating {rotator : ℕ} {outcome : RotationOutcome} {streams : List ℕ} {stream : ℕ}
      {updated : StreamInfo}
      (htask : tasks[task]? = some (.rotateAllLiveStreams rotator outcome))
      (hprogress : world.progress task = .rotating streams) (hstream : stream ∈ streams)
      (hrenewed : world.heap[stream]?.bind (renewedStream outcome) = some updated) :
      Owes tasks world task stream
  | holding {key mode : String} {stream : ℕ}
      (htask : tasks[task]? = some (.setLatencyMode key mode))
      (hprogress : world.progress task = .holding stream) : Owes tasks world task stream
  | assigned {key mode : String} {stream : ℕ}
      (htask : tasks[task]? = some (.setLatencyMode key mode))
      (hprogress : world.progress task = .assigned stream) : Owes tasks world task stream

/-- No task has still to store from a stale record. -/
def Sound (tasks : List Task) (world : World) : Prop :=
  ∀ task stream, Owes tasks world task stream → IsUnchanged tasks world task stream

/-! ### What a step changes -/

/-- A record that is left as it is or written to: it keeps its stream and its key and is not
revived. -/
structure Kept (before after : StreamInfo) : Prop where
  sameStream : SameStream before after
  encryptKey : after.encryptKey = before.encryptKey
  isLive : after.isLive = true → before.isLive = true

theorem Kept.refl (info : StreamInfo) : Kept info info := ⟨.refl info, rfl, id⟩

/-- What a step that meets the condition changes: fields of the records, or the record of a live
stream. -/
inductive Change (world world' : World) : Prop
  | edited (write : ℕ → StreamInfo → StreamInfo)
      (hwrite : ∀ stream info, Kept info (write stream info))
      (hheap : ∀ stream, world'.heap[stream]? = world.heap[stream]?.map (write stream))
      (hstored : ∀ key, world'.getStream key = world.getStream key)
  | renewed (info updated : StreamInfo) (hrecord : world.record updated.streamKey = some info)
      (hlive : info.isLive = true) (hsame : SameStream info updated)
      (hheap : world'.heap = world.heap ++ [updated])
      (hstored : ∀ key, world'.getStream key =
        if key = updated.streamKey then some world.heap.length else world.getStream key)

namespace Change

/-- A step that touches neither the records nor the map. -/
theorem of_eq {world world' : World} (hheap : world'.heap = world.heap)
    (hstored : ∀ key, world'.getStream key = world.getStream key) : Change world world' :=
  .edited (fun _ ↦ id) (fun _ info ↦ .refl info) (fun _ ↦ by rw [hheap, Option.map_id_fun, id])
    hstored

/-- A write to the fields of a record. -/
theorem assign (world : World) {write : StreamInfo → StreamInfo}
    (hwrite : ∀ info, Kept info (write info)) (stream task : ℕ) (progress : Progress) :
    Change world ((world.assign stream write).withProgress task progress) := by
  refine .edited (fun other info ↦ if stream = other then write info else info)
    (fun other info ↦ ?_) (fun other ↦ List.getElem?_modify write stream world.heap other)
    fun _ ↦ rfl
  split_ifs
  · exact hwrite info
  · exact .refl info

/-- A record after a step. -/
theorem heap {world world' : World} (hchange : Change world world') {stream : ℕ}
    {info : StreamInfo} (hinfo : world.heap[stream]? = some info) :
    ∃ info', world'.heap[stream]? = some info' ∧ Kept info info' := by
  cases hchange with
  | edited write hwrite hheap _ =>
    exact ⟨write stream info, by rw [hheap, hinfo, Option.map_some], hwrite stream info⟩
  | renewed _ updated _ _ _ hheap _ =>
    refine ⟨info, ?_, .refl info⟩
    rw [hheap, List.getElem?_append_left (List.getElem?_eq_some_iff.mp hinfo).1]
    exact hinfo

/-- A record that is stored under a key after a step, and was there before it, was stored under the
key. -/
theorem getStream_of_old {world world' : World} (hchange : Change world world') {stream : ℕ}
    {info : StreamInfo} (hinfo : world.heap[stream]? = some info) {key : String}
    (hstored : world'.getStream key = some stream) : world.getStream key = some stream := by
  cases hchange with
  | edited _ _ _ hkept => exact (hkept key).symm.trans hstored
  | renewed _ updated _ _ _ _ hnew =>
    rw [hnew] at hstored
    split_ifs at hstored
    · exact absurd (List.getElem?_eq_some_iff.mp hinfo).1
        (Option.some.inj hstored ▸ lt_irrefl _)
    · exact hstored

end Change

/-- The records after a step that meets the condition. -/
theorem change_step {tasks : List Task} {world world' : World} {task : ℕ}
    (hstep : StepOf tasks world task world') (hcondition : StoresUnchanged tasks world task) :
    Change world world' := by
  cases hstep with
  | idle => exact .of_eq rfl fun _ ↦ rfl
  | take _ _ => exact .of_eq rfl fun _ ↦ rfl
  | skip _ _ _ => exact .of_eq rfl fun _ ↦ rfl
  | @renew rotator outcome stream streams updated htask hprogress hrenewed =>
    obtain ⟨info, hinfo, hupdated⟩ := Option.bind_eq_some_iff.mp hrenewed
    have hsame := (sameStream_of_renewed hupdated).1
    have hunchanged := hcondition stream (storesFrom_of_renewed htask hprogress hrenewed)
    refine .renewed info updated ?_ (isLive_of_unchanged htask hunchanged hinfo) hsame rfl
      fun key ↦ world.getStream_allocate updated key
    exact World.record_eq_some_iff.mpr
      ⟨stream, hsame.streamKey ▸ hunchanged.1 info hinfo, hinfo⟩
  | release _ _ => exact .of_eq rfl fun _ ↦ rfl
  | @stop key htask hprogress =>
    unfold World.endStream
    cases hfound : world.getStream key with
    | none => exact .of_eq rfl fun _ ↦ rfl
    | some stream =>
      refine .assign world ?_ stream task _
      exact fun info ↦ ⟨⟨rfl, rfl, rfl, rfl, rfl⟩, rfl, fun hlive ↦ absurd hlive Bool.false_ne_true⟩
  | reject _ _ _ => exact .of_eq rfl fun _ ↦ rfl
  | find _ _ _ _ _ => exact .of_eq rfl fun _ ↦ rfl
  | @write key mode stream htask hprogress =>
    refine .assign world ?_ stream task _
    exact fun info ↦ ⟨⟨rfl, rfl, rfl, rfl, rfl⟩, rfl, id⟩
  | @store key mode stream htask hprogress =>
    have hunchanged := hcondition stream (storesFrom_of_assigned htask hprogress)
    refine .of_eq ?_ fun key ↦ ?_
    · rw [World.heap_withProgress, World.heap_createStream]
    · rw [World.getStream_withProgress]
      exact getStream_createStream_of_current hunchanged.1 key

/-! ### Stale records stay stale -/

/-- A record that may still be stored from after a step could be stored from before it. -/
theorem isUnchanged_of_change {tasks : List Task} {world world' : World} {task stream : ℕ}
    {info : StreamInfo} (hchange : Change world world') (hinfo : world.heap[stream]? = some info)
    (hunchanged : IsUnchanged tasks world' task stream) : IsUnchanged tasks world task stream := by
  obtain ⟨info', hinfo', hkept⟩ := hchange.heap hinfo
  refine ⟨fun record hrecord ↦ ?_, fun hrotation ↦ ?_⟩
  · obtain rfl := Option.some.inj (hinfo.symm.trans hrecord)
    have hstored := hunchanged.1 info' hinfo'
    rw [← hkept.sameStream.streamKey] at hstored
    exact hchange.getStream_of_old hinfo hstored
  · have hrevived := hunchanged.2 hrotation
    rw [World.isLive, hinfo'] at hrevived
    rw [World.isLive, hinfo]
    exact hkept.isLive hrevived

/-- A step of another task leaves what a task has still to store as it is. -/
theorem owes_of_change {tasks : List Task} {world world' : World} {task stream : ℕ}
    (hchange : Change world world') (hprogress : world'.progress task = world.progress task)
    (howes : Owes tasks world task stream) : Owes tasks world' task stream := by
  cases howes with
  | @rotating _ outcome streams _ updated htask hrotating hstream hrenewed =>
    obtain ⟨info, hinfo, hupdated⟩ := Option.bind_eq_some_iff.mp hrenewed
    obtain ⟨info', hinfo', hkept⟩ := hchange.heap hinfo
    have hrenewed' : world'.heap[stream]?.bind (renewedStream outcome) = some updated :=
      Option.bind_eq_some_iff.mpr
        ⟨info', hinfo', (renewedStream_congr hkept.sameStream _).symm.trans hupdated⟩
    exact .rotating htask (hprogress.trans hrotating) hstream hrenewed'
  | holding htask hholding => exact .holding htask (hprogress.trans hholding)
  | assigned htask hassigned => exact .assigned htask (hprogress.trans hassigned)

/-- What a task has still to store when it takes a step is stored in that step or owed behind it. -/
theorem owes_step {tasks : List Task} {world world' : World} {task stream : ℕ}
    (hstep : StepOf tasks world task world') (howes : Owes tasks world task stream) :
    storesFrom tasks world task = some stream ∨ Owes tasks world' task stream := by
  cases howes with
  | @rotating _ outcome streams _ updated htask hrotating hstream hrenewed =>
    cases hstep with
    | idle => exact Or.inr (.rotating htask hrotating hstream hrenewed)
    | take _ hprogress => cases hprogress.symm.trans hrotating
    | @skip _ _ first rest htask' hprogress hskip =>
      obtain ⟨rfl, rfl⟩ := Task.rotateAllLiveStreams.inj (Option.some.inj (htask.symm.trans htask'))
      obtain rfl := Progress.rotating.inj (hrotating.symm.trans hprogress)
      rcases List.mem_cons.mp hstream with rfl | hrest
      · cases hskip.symm.trans hrenewed
      · exact Or.inr (.rotating htask (world.progress_withProgress_self task _) hrest hrenewed)
    | @renew _ _ first rest other htask' hprogress hother =>
      obtain ⟨rfl, rfl⟩ := Task.rotateAllLiveStreams.inj (Option.some.inj (htask.symm.trans htask'))
      obtain rfl := Progress.rotating.inj (hrotating.symm.trans hprogress)
      rcases List.mem_cons.mp hstream with rfl | hrest
      · exact Or.inl (storesFrom_of_renewed htask hrotating hrenewed)
      · obtain ⟨info, hinfo, hupdated⟩ := Option.bind_eq_some_iff.mp hrenewed
        have hrenewed' : (world.heap ++ [other])[stream]?.bind (renewedStream outcome) =
            some updated :=
          Option.bind_eq_some_iff.mpr ⟨info, (List.getElem?_append_left
            (List.getElem?_eq_some_iff.mp hinfo).1).trans hinfo, hupdated⟩
        exact Or.inr (.rotating htask (World.progress_withProgress_self _ task _) hrest hrenewed')
    | release _ hprogress =>
      obtain rfl := Progress.rotating.inj (hrotating.symm.trans hprogress)
      cases hstream
    | stop htask' _ => cases htask.symm.trans htask'
    | reject htask' _ _ => cases htask.symm.trans htask'
    | find htask' _ _ _ _ => cases htask.symm.trans htask'
    | write htask' _ => cases htask.symm.trans htask'
    | store htask' _ => cases htask.symm.trans htask'
  | holding htask hholding =>
    cases hstep with
    | idle => exact Or.inr (.holding htask hholding)
    | take _ hprogress => cases hprogress.symm.trans hholding
    | skip _ hprogress _ => cases hprogress.symm.trans hholding
    | renew _ hprogress _ => cases hprogress.symm.trans hholding
    | release _ hprogress => cases hprogress.symm.trans hholding
    | stop _ hprogress => cases hprogress.symm.trans hholding
    | reject _ hprogress _ => cases hprogress.symm.trans hholding
    | find _ hprogress _ _ _ => cases hprogress.symm.trans hholding
    | write _ hprogress =>
      obtain rfl := Progress.holding.inj (hholding.symm.trans hprogress)
      exact Or.inr (.assigned htask (World.progress_withProgress_self _ task _))
    | store _ hprogress => cases hprogress.symm.trans hholding
  | assigned htask hassigned => exact Or.inl (storesFrom_of_assigned htask hassigned)

/-- When no task owes from a stale record after a step that meets the condition, none did before. -/
theorem sound_of_step {tasks : List Task} {world world' : World} {task : ℕ}
    (hstep : StepOf tasks world task world') (hcondition : StoresUnchanged tasks world task)
    (hsound : Sound tasks world') : Sound tasks world := by
  intro other stream howes
  have hchange := change_step hstep hcondition
  by_cases hstores : other = task ∧ storesFrom tasks world task = some stream
  · exact hstores.1 ▸ hcondition stream hstores.2
  have howes' : Owes tasks world' other stream := by
    by_cases hother : other = task
    · subst hother
      exact (owes_step hstep howes).resolve_left fun h ↦ hstores ⟨rfl, h⟩
    · exact owes_of_change hchange (progress_of_ne hstep hother) howes
  cases hinfo : world.heap[stream]? with
  | some info => exact isUnchanged_of_change hchange hinfo (hsound other stream howes')
  | none =>
    refine ⟨fun info hfound ↦ (by cases hinfo.symm.trans hfound), fun hrotation ↦ ?_⟩
    unfold isRotation at hrotation
    cases howes with
    | rotating _ _ _ hrenewed =>
      rw [hinfo] at hrenewed
      cases hrenewed
    | holding htask _ =>
      rw [htask] at hrotation
      cases hrotation
    | assigned htask _ =>
      rw [htask] at hrotation
      cases hrotation

/-! ### Consistent worlds -/

/-- The key of the record a pointer leads to. -/
def keyOf (world : World) (stream : ℕ) : Option String :=
  world.heap[stream]?.map StreamInfo.streamKey

/-- What holds in every world: each record belongs to a stream of the table and is live only if the
stream was, the map leads to records of their streams, a rotation visits each stream once, and the
latency mode handler holds a record of its stream. -/
structure Consistent (table : Table StreamInfo.streamKey) (tasks : List Task) (world : World) :
    Prop where
  origin : ∀ (stream : ℕ) (info : StreamInfo), world.heap[stream]? = some info →
    ∃ first, table.find? info.streamKey = some first ∧ SameStream first info ∧
      (info.isLive = true → first.isLive = true)
  stored : ∀ key stream, world.getStream key = some stream → keyOf world stream = some key
  visited : ∀ task streams, world.progress task = .rotating streams →
    (streams.map (keyOf world)).Nodup ∧ ∀ stream ∈ streams, stream < world.heap.length
  found : ∀ task key mode stream, tasks[task]? = some (.setLatencyMode key mode) →
    world.progress task = .holding stream ∨ world.progress task = .assigned stream →
      World.isLatencyMode mode = true ∧ keyOf world stream = some key ∧
        ∃ first, table.find? key = some first ∧ first.isLive = true

/-- A pointer keeps its stream. -/
theorem Change.keyOf {world world' : World} (hchange : Change world world') {stream : ℕ}
    (hstream : stream < world.heap.length) : keyOf world' stream = keyOf world stream := by
  have hinfo := List.getElem?_eq_getElem hstream
  obtain ⟨info', hinfo', hkept⟩ := hchange.heap hinfo
  unfold StreamUpdates.keyOf
  rw [hinfo', hinfo, Option.map_some, Option.map_some, hkept.sameStream.streamKey]

/-- A pointer keeps leading to a record. -/
theorem Change.lt_length {world world' : World} (hchange : Change world world') {stream : ℕ}
    (hstream : stream < world.heap.length) : stream < world'.heap.length := by
  obtain ⟨info', hinfo', _⟩ := hchange.heap (List.getElem?_eq_getElem hstream)
  exact (List.getElem?_eq_some_iff.mp hinfo').1

theorem lt_length_of_keyOf {world : World} {stream : ℕ} {key : String}
    (hkey : keyOf world stream = some key) : stream < world.heap.length := by
  obtain ⟨info, hinfo, _⟩ := Option.map_eq_some_iff.mp hkey
  exact (List.getElem?_eq_some_iff.mp hinfo).1

/-- The record a stored pointer leads to belongs to the stream of the key. -/
theorem Consistent.streamKey_of_stored {table : Table StreamInfo.streamKey} {tasks : List Task}
    {world : World} (hconsistent : Consistent table tasks world) {key : String} {stream : ℕ}
    {info : StreamInfo} (hstored : world.getStream key = some stream)
    (hinfo : world.heap[stream]? = some info) : info.streamKey = key := by
  have hkey := hconsistent.stored key stream hstored
  unfold keyOf at hkey
  rw [hinfo] at hkey
  exact Option.some.inj hkey

/-- A stored pointer is current. -/
theorem Consistent.isCurrent_of_stored {table : Table StreamInfo.streamKey} {tasks : List Task}
    {world : World} (hconsistent : Consistent table tasks world) {key : String} {stream : ℕ}
    (hstored : world.getStream key = some stream) : IsCurrent world stream :=
  fun _ hinfo ↦ (hconsistent.streamKey_of_stored hstored hinfo).symm ▸ hstored

/-- The record under a key belongs to the stream of the key. -/
theorem streamKey_of_record {table : Table StreamInfo.streamKey} {tasks : List Task} {world : World}
    (hconsistent : Consistent table tasks world) {key : String} {info : StreamInfo}
    (hrecord : world.record key = some info) : info.streamKey = key := by
  obtain ⟨stream, hstored, hinfo⟩ := World.record_eq_some_iff.mp hrecord
  exact hconsistent.streamKey_of_stored hstored hinfo

/-- The records of a consistent world after a step. -/
theorem Consistent.origin_of_change {table : Table StreamInfo.streamKey} {tasks : List Task}
    {world world' : World} (hconsistent : Consistent table tasks world)
    (hchange : Change world world') {stream : ℕ} {info : StreamInfo}
    (hinfo : world'.heap[stream]? = some info) :
    ∃ first, table.find? info.streamKey = some first ∧ SameStream first info ∧
      (info.isLive = true → first.isLive = true) := by
  have hkept : ∀ before, world.heap[stream]? = some before → Kept before info →
      ∃ first, table.find? info.streamKey = some first ∧ SameStream first info ∧
        (info.isLive = true → first.isLive = true) := by
    intro before hbefore hkept
    obtain ⟨first, hfirst, hsame, hlive⟩ := hconsistent.origin stream before hbefore
    exact ⟨first, hkept.sameStream.streamKey ▸ hfirst, hsame.trans hkept.sameStream,
      fun h ↦ hlive (hkept.isLive h)⟩
  cases hchange with
  | edited write hwrite hheap _ =>
    rw [hheap] at hinfo
    obtain ⟨before, hbefore, rfl⟩ := Option.map_eq_some_iff.mp hinfo
    exact hkept before hbefore (hwrite stream before)
  | renewed old updated hrecord hlive hsame hheap _ =>
    rw [hheap] at hinfo
    by_cases hstream : stream < world.heap.length
    · rw [List.getElem?_append_left hstream] at hinfo
      exact hkept info hinfo (.refl info)
    · rw [List.getElem?_append_right (not_lt.mp hstream)] at hinfo
      obtain rfl := List.mem_singleton.mp (List.mem_of_getElem? hinfo)
      obtain ⟨pointer, _, hold⟩ := World.record_eq_some_iff.mp hrecord
      obtain ⟨first, hfirst, hsame', hfirstLive⟩ := hconsistent.origin pointer old hold
      exact ⟨first, hsame.streamKey ▸ hfirst, hsame'.trans hsame, fun _ ↦ hfirstLive hlive⟩

/-- The map of a consistent world after a step. -/
theorem Consistent.stored_of_change {table : Table StreamInfo.streamKey} {tasks : List Task}
    {world world' : World} (hconsistent : Consistent table tasks world)
    (hchange : Change world world') {key : String} {stream : ℕ}
    (hstored : world'.getStream key = some stream) : keyOf world' stream = some key := by
  have hold : world.getStream key = some stream → keyOf world' stream = some key := by
    intro hfound
    have hkey := hconsistent.stored key stream hfound
    exact (hchange.keyOf (lt_length_of_keyOf hkey)).trans hkey
  cases hchange with
  | edited _ _ _ hkept => exact hold ((hkept key).symm.trans hstored)
  | renewed _ updated _ _ _ hheap hnew =>
    rw [hnew] at hstored
    split_ifs at hstored with hkey
    · obtain rfl := Option.some.inj hstored
      unfold keyOf
      rw [hheap, List.getElem?_concat_length, Option.map_some, hkey]
    · exact hold hstored

/-- The pointers to live records lead to different streams. -/
theorem nodup_getLiveStreams {table : Table StreamInfo.streamKey} {tasks : List Task}
    {world : World} (hconsistent : Consistent table tasks world) :
    (world.getLiveStreams.map (keyOf world)).Nodup := by
  have hkeys : (world.streams.rows.map Prod.snd).map (keyOf world) =
      (world.streams.rows.map Prod.fst).map some := by
    rw [List.map_map, List.map_map]
    refine List.map_congr_left fun entry hentry ↦ ?_
    exact hconsistent.stored entry.1 entry.2 (World.getStream_eq_some_iff.mpr hentry)
  have hnodup := world.streams.distinct.map (Option.some_injective String)
  exact (hkeys ▸ hnodup).sublist (List.filter_sublist.map _)

/-- A consistent world after a step. Assumes: what the step leaves to visit or to store is
consistent. -/
theorem Consistent.of_change {table : Table StreamInfo.streamKey} {tasks : List Task}
    {world world' : World} {task : ℕ} (hconsistent : Consistent table tasks world)
    (hchange : Change world world')
    (hother : ∀ other, other ≠ task → world'.progress other = world.progress other)
    (hvisited : ∀ streams, world'.progress task = .rotating streams →
      (streams.map (keyOf world)).Nodup ∧ ∀ stream ∈ streams, stream < world.heap.length)
    (hfound : ∀ key mode stream, tasks[task]? = some (.setLatencyMode key mode) →
      world'.progress task = .holding stream ∨ world'.progress task = .assigned stream →
        World.isLatencyMode mode = true ∧ keyOf world stream = some key ∧
          ∃ first, table.find? key = some first ∧ first.isLive = true) :
    Consistent table tasks world' := by
  refine ⟨fun stream info hinfo ↦ hconsistent.origin_of_change hchange hinfo,
    fun key stream hstored ↦ hconsistent.stored_of_change hchange hstored, ?_, ?_⟩
  · intro other streams hrotating
    obtain ⟨hnodup, hlength⟩ : (streams.map (keyOf world)).Nodup ∧
        ∀ stream ∈ streams, stream < world.heap.length := by
      by_cases hsame : other = task
      · exact hvisited streams (hsame ▸ hrotating)
      · exact hconsistent.visited other streams ((hother other hsame).symm.trans hrotating)
    have hkeys : streams.map (keyOf world') = streams.map (keyOf world) :=
      List.map_congr_left fun stream hstream ↦ hchange.keyOf (hlength stream hstream)
    exact ⟨hkeys ▸ hnodup, fun stream hstream ↦ hchange.lt_length (hlength stream hstream)⟩
  · intro other key mode stream htask hprogress
    obtain ⟨hmode, hkey, hfirst⟩ : World.isLatencyMode mode = true ∧ keyOf world stream = some key ∧
        ∃ first, table.find? key = some first ∧ first.isLive = true := by
      by_cases hsame : other = task
      · subst hsame
        exact hfound key mode stream htask hprogress
      · rw [hother other hsame] at hprogress
        exact hconsistent.found other key mode stream htask hprogress
    exact ⟨hmode, (hchange.keyOf (lt_length_of_keyOf hkey)).trans hkey, hfirst⟩

/-- A step that meets the condition keeps the world consistent. -/
theorem consistent_step {table : Table StreamInfo.streamKey} {tasks : List Task}
    {world world' : World} {task : ℕ} (hconsistent : Consistent table tasks world)
    (hstep : StepOf tasks world task world') (hcondition : StoresUnchanged tasks world task) :
    Consistent table tasks world' := by
  refine hconsistent.of_change (change_step hstep hcondition)
    (fun other hother ↦ progress_of_ne hstep hother) ?_ ?_
  · intro streams hrotating
    rcases rotating_of_step hstep hrotating with ⟨_, outcome, rfl⟩ | hbefore | ⟨stream, hbefore⟩
    · have hperm := outcome.visit_perm world.getLiveStreams
      refine ⟨(hperm.map _).nodup_iff.mpr (nodup_getLiveStreams hconsistent),
        fun stream hstream ↦ ?_⟩
      obtain ⟨⟨key, hkey⟩, _⟩ := World.mem_getLiveStreams_iff.mp (hperm.mem_iff.mp hstream)
      exact lt_length_of_keyOf (hconsistent.stored key stream hkey)
    · exact hconsistent.visited task streams hbefore
    · obtain ⟨hnodup, hlength⟩ := hconsistent.visited task _ hbefore
      exact ⟨(List.nodup_cons.mp hnodup).2, fun other hother ↦
        hlength other (List.mem_cons_of_mem _ hother)⟩
  · intro key mode stream htask hprogress'
    cases hstep with
    | idle => exact hconsistent.found task key mode stream htask hprogress'
    | take htask' _ => cases htask.symm.trans htask'
    | skip htask' _ _ => cases htask.symm.trans htask'
    | renew htask' _ _ => cases htask.symm.trans htask'
    | release htask' _ => cases htask.symm.trans htask'
    | stop htask' _ => cases htask.symm.trans htask'
    | reject _ _ _ =>
      rw [World.progress_withProgress_self] at hprogress'
      rcases hprogress' with hholding | hassigned
      · cases hholding
      · cases hassigned
    | @find _ _ pointer htask' _ hmode hfound hlive =>
      obtain ⟨rfl, rfl⟩ := Task.setLatencyMode.inj (Option.some.inj (htask.symm.trans htask'))
      rw [World.progress_withProgress_self] at hprogress'
      have hpointer : pointer = stream := by
        rcases hprogress' with hholding | hassigned
        · exact Progress.holding.inj hholding
        · cases hassigned
      subst hpointer
      have hkey := hconsistent.stored key pointer hfound
      obtain ⟨info, hinfo, hinfoKey⟩ := Option.map_eq_some_iff.mp hkey
      obtain ⟨first, hfirst, _, hfirstLive⟩ := hconsistent.origin pointer info hinfo
      rw [World.isLive, hinfo] at hlive
      exact ⟨hmode, hkey, first, hinfoKey ▸ hfirst, hfirstLive hlive⟩
    | @write _ _ pointer htask' hholding =>
      rw [World.progress_withProgress_self] at hprogress'
      have hpointer : pointer = stream := by
        rcases hprogress' with hholding | hassigned
        · cases hholding
        · exact Progress.assigned.inj hassigned
      exact hconsistent.found task key mode stream htask (Or.inl (hpointer ▸ hholding))
    | store _ _ =>
      rw [World.progress_withProgress_self] at hprogress'
      rcases hprogress' with hholding | hassigned
      · cases hholding
      · cases hassigned

/-! ### The start -/

section Start

variable (table : Table StreamInfo.streamKey) (tasks : List Task)

theorem getStream_start_iff {key : String} {stream : ℕ} :
    (World.start table).getStream key = some stream ↔
      ∃ info, table.rows[stream]? = some info ∧ info.streamKey = key := by
  rw [World.getStream_eq_some_iff]
  change (key, stream) ∈ table.rows.zipIdx.map (fun entry ↦ (entry.1.streamKey, entry.2)) ↔ _
  rw [List.mem_map]
  constructor
  · rintro ⟨⟨info, position⟩, hentry, hpair⟩
    obtain ⟨hkey, rfl⟩ := Prod.mk.inj hpair
    exact ⟨info, List.mem_zipIdx_iff_getElem?.mp hentry, hkey⟩
  · rintro ⟨info, hinfo, rfl⟩
    exact ⟨(info, stream), List.mem_zipIdx_iff_getElem?.mpr hinfo, rfl⟩

/-- At the start the records are those of the table. -/
theorem record_start (key : String) : (World.start table).record key = table.find? key := by
  ext1 info
  rw [World.record_eq_some_iff, Table.find?_eq_some_iff]
  constructor
  · rintro ⟨stream, hstored, hinfo⟩
    obtain ⟨found, hfound, rfl⟩ := (getStream_start_iff table).mp hstored
    obtain rfl := Option.some.inj (hfound.symm.trans hinfo)
    exact ⟨List.mem_of_getElem? hfound, rfl⟩
  · rintro ⟨hrow, rfl⟩
    obtain ⟨stream, hstream⟩ := List.mem_iff_getElem?.mp hrow
    exact ⟨stream, (getStream_start_iff table).mpr ⟨info, hstream, rfl⟩, hstream⟩

theorem consistent_start : Consistent table tasks (World.start table) := by
  refine ⟨fun stream info hinfo ↦ ?_, fun key stream hstored ↦ ?_, ?_, ?_⟩
  · refine ⟨info, ?_, .refl info, id⟩
    exact Table.mem_rows_iff_find?.mp (List.mem_of_getElem? hinfo)
  · obtain ⟨info, hinfo, rfl⟩ := (getStream_start_iff table).mp hstored
    exact congrArg (Option.map StreamInfo.streamKey) hinfo
  · intro task streams hrotating
    cases hrotating
  · intro task key mode stream _ hprogress
    rcases hprogress with hholding | hassigned
    · cases hholding
    · cases hassigned

end Start

/-- Every run that meets the condition is consistent. -/
theorem consistent_run {table : Table StreamInfo.streamKey} {tasks : List Task} {actions : List ℕ}
    (hcondition : EachStepMeets (step tasks) (StoresUnchanged tasks) (World.start table) actions) :
    Consistent table tasks (run (step tasks) (World.start table) actions) :=
  invariant_run (step tasks)
    (fun world task hconsistent hmeets ↦
      consistent_step hconsistent (stepOf_step tasks world task) hmeets)
    (consistent_start table tasks) hcondition

end LiveCDN.Controller.StreamUpdates
