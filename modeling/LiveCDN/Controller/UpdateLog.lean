import LiveCDN.Controller.StreamUpdates
import LiveCDN.Library.Replay

/-!
# The log of stream updates

A task is committed when it has had its effect on the records: a stop at its step, the latency mode
handler when it writes the mode or rejects the request, and a rotation when it begins. A rotation
renews its streams one by one, so until it has renewed a stream it has no effect on it (`unrenewed`,
`effectNow`). `Replayed` says that the streams of a world are what the committed tasks have made of
the table in the order of a log.

In a world in which no task owes from a stale record, a step keeps such a log
(`exists_replayed_step`). A rotation or a stop is put at the end. A mode that is written is put
before the rotations that have still to renew the stream; and when the stream has been stopped since
the handler has found it live, before that stop.
-/

set_option autoImplicit false
set_option relaxedAutoImplicit false

namespace LiveCDN.Controller.UpdateLog

open Library.KeyedTable Library.GuardedRun Library.Replay StreamStore KeyRotation StreamUpdates

/-! ### Streams a rotation has still to renew -/

/-- The streams a rotation has still to renew. -/
def unrenewed (tasks : List Task) (world : World) (task : ℕ) : List String :=
  match tasks[task]?, world.progress task with
  | some (.rotateAllLiveStreams _ outcome), .rotating streams =>
    streams.filterMap fun stream ↦
      (world.heap[stream]?.bind (renewedStream outcome)).map StreamInfo.streamKey
  | _, _ => []

/-- A stream that a rotation has still to renew. -/
theorem mem_unrenewed_iff {tasks : List Task} {world : World} {task rotator : ℕ}
    {outcome : RotationOutcome} {streams : List ℕ}
    (htask : tasks[task]? = some (.rotateAllLiveStreams rotator outcome))
    (hprogress : world.progress task = .rotating streams) {key : String} :
    key ∈ unrenewed tasks world task ↔ ∃ stream ∈ streams, ∃ updated,
      world.heap[stream]?.bind (renewedStream outcome) = some updated ∧
        updated.streamKey = key := by
  unfold unrenewed
  rw [htask, hprogress]
  dsimp only
  rw [List.mem_filterMap]
  refine exists_congr fun stream ↦ and_congr_right fun _ ↦ ?_
  exact Option.map_eq_some_iff

/-- Only a rotation that runs has streams to renew. -/
theorem exists_rotating_of_mem_unrenewed {tasks : List Task} {world : World} {task : ℕ}
    {key : String} (hkey : key ∈ unrenewed tasks world task) :
    ∃ rotator outcome streams, tasks[task]? = some (.rotateAllLiveStreams rotator outcome) ∧
      world.progress task = .rotating streams := by
  unfold unrenewed at hkey
  split at hkey
  · exact ⟨_, _, _, by assumption, by assumption⟩
  · cases hkey

/-- A task that is no running rotation has no streams to renew. -/
theorem unrenewed_eq_nil {tasks : List Task} {world : World} {task : ℕ}
    (hother : ∀ streams, world.progress task ≠ .rotating streams) :
    unrenewed tasks world task = [] := by
  refine List.eq_nil_iff_forall_not_mem.mpr fun key hkey ↦ ?_
  obtain ⟨_, _, streams, _, hrotating⟩ := exists_rotating_of_mem_unrenewed hkey
  exact hother streams hrotating

/-- What a rotation has still to renew is not changed by other tasks. -/
theorem unrenewed_of_change {table : Table StreamInfo.streamKey} {tasks : List Task}
    {world world' : World} {task : ℕ} (hconsistent : Consistent table tasks world)
    (hchange : Change world world') (hprogress : world'.progress task = world.progress task) :
    unrenewed tasks world' task = unrenewed tasks world task := by
  unfold unrenewed
  rw [hprogress]
  split
  case h_1 rotator outcome streams htask hrotating =>
    refine List.filterMap_congr fun stream hstream ↦ ?_
    have hlength := (hconsistent.visited task streams hrotating).2 stream hstream
    have hinfo := List.getElem?_eq_getElem hlength
    obtain ⟨info', hinfo', hkept⟩ := hchange.heap hinfo
    rw [hinfo', hinfo, Option.bind_some, Option.bind_some, renewedStream_congr hkept.sameStream]
  case h_2 => rfl

/-- A stream that is skipped was not still to be renewed. -/
theorem unrenewed_of_skip {tasks : List Task} {world : World} {task rotator stream : ℕ}
    {outcome : RotationOutcome} {streams : List ℕ}
    (htask : tasks[task]? = some (.rotateAllLiveStreams rotator outcome))
    (hprogress : world.progress task = .rotating (stream :: streams))
    (hskip : world.heap[stream]?.bind (renewedStream outcome) = none) :
    unrenewed tasks (world.withProgress task (.rotating streams)) task =
      unrenewed tasks world task := by
  unfold unrenewed
  rw [htask, hprogress, World.progress_withProgress_self]
  dsimp only
  rw [List.filterMap_cons_none (by rw [hskip, Option.map_none])]
  rfl

/-- In a sound world a stream that is still to be renewed is live, and the rotation knows its
record. -/
theorem exists_record_of_unrenewed {tasks : List Task} {world : World} (hsound : Sound tasks world)
    {task : ℕ} {key : String} (hkey : key ∈ unrenewed tasks world task) :
    ∃ streams stream info, world.progress task = .rotating streams ∧ stream ∈ streams ∧
      world.getStream key = some stream ∧ world.record key = some info ∧ info.isLive = true := by
  obtain ⟨rotator, outcome, streams, htask, hrotating⟩ := exists_rotating_of_mem_unrenewed hkey
  obtain ⟨stream, hstream, updated, hrenewed, hupdated⟩ :=
    (mem_unrenewed_iff htask hrotating).mp hkey
  obtain ⟨info, hinfo, hinfoRenewed⟩ := Option.bind_eq_some_iff.mp hrenewed
  have hunchanged := hsound task stream (.rotating htask hrotating hstream hrenewed)
  have hstored := hunchanged.1 info hinfo
  rw [(sameStream_of_renewed hinfoRenewed).1.streamKey, hupdated] at hstored
  exact ⟨streams, stream, info, hrotating, hstream, hstored,
    World.record_eq_some_iff.mpr ⟨stream, hstored, hinfo⟩,
    isLive_of_unchanged htask hunchanged hinfo⟩

/-! ### Effects so far -/

/-- What a task has done to the record of a stream: a rotation that has still to renew the stream
has done nothing to it. -/
def effectNow (tasks : List Task) (world : World) (task : ℕ) (info : StreamInfo) : StreamInfo :=
  if info.streamKey ∈ unrenewed tasks world task then info
  else tasks[task]?.elim info fun called ↦ effect called info

theorem effectNow_of_mem {tasks : List Task} {world : World} {task : ℕ} {info : StreamInfo}
    (hmem : info.streamKey ∈ unrenewed tasks world task) :
    effectNow tasks world task info = info :=
  if_pos hmem

theorem effectNow_of_notMem {tasks : List Task} {world : World} {task : ℕ} {called : Task}
    {info : StreamInfo} (htask : tasks[task]? = some called)
    (hmem : info.streamKey ∉ unrenewed tasks world task) :
    effectNow tasks world task info = effect called info := by
  unfold effectNow
  rw [if_neg hmem, htask]
  rfl

theorem effectNow_congr {tasks : List Task} {world world' : World} {task : ℕ} {info : StreamInfo}
    (hsame : info.streamKey ∈ unrenewed tasks world' task ↔
      info.streamKey ∈ unrenewed tasks world task) :
    effectNow tasks world' task info = effectNow tasks world task info := by
  unfold effectNow
  rw [if_congr hsame rfl rfl]

/-- The effect of a task depends on the world only through what it has still to renew. -/
theorem effectNow_eq_of_unrenewed {tasks : List Task} {world world' : World} {task : ℕ}
    (hsame : unrenewed tasks world' task = unrenewed tasks world task) :
    effectNow tasks world' task = effectNow tasks world task := by
  ext1 info
  exact effectNow_congr (by rw [hsame])

/-- A task has kept the stream of a record. -/
theorem sameStream_effectNow (tasks : List Task) (world : World) (task : ℕ) (info : StreamInfo) :
    SameStream info (effectNow tasks world task info) := by
  unfold effectNow
  split_ifs
  · exact .refl info
  · cases tasks[task]? with
    | none => exact .refl info
    | some called => exact sameStream_effect called info

/-- A task has left the record of an ended stream as it was. -/
theorem effectNow_of_ended (tasks : List Task) (world : World) (task : ℕ) {info : StreamInfo}
    (hended : info.isLive = false) : effectNow tasks world task info = info := by
  unfold effectNow
  split_ifs
  · rfl
  · cases tasks[task]? with
    | none => rfl
    | some called => exact effect_of_ended called hended

/-- A task has not changed the record of a stream while it was live. -/
def Inert (table : Table StreamInfo.streamKey) (tasks : List Task) (world : World) (key : String)
    (task : ℕ) : Prop :=
  ∀ first info, table.find? key = some first → SameStream first info → info.isLive = true →
    effectNow tasks world task info = info

/-- A replay keeps the stream of a record. -/
theorem sameStream_replay (tasks : List Task) (world : World) (log : List ℕ) (info : StreamInfo) :
    SameStream info (replay (effectNow tasks world) log info) :=
  replay_invariant (P := SameStream info)
    (fun task _ value hvalue ↦ hvalue.trans (sameStream_effectNow tasks world task value))
    (.refl info)

/-- A replay leaves the record of an ended stream as it is. -/
theorem replay_of_ended (tasks : List Task) (world : World) (log : List ℕ) {info : StreamInfo}
    (hended : info.isLive = false) : replay (effectNow tasks world) log info = info :=
  replay_of_forall fun task _ ↦ effectNow_of_ended tasks world task hended

/-! ### The log -/

/-- A task has had its effect, or a rotation has begun. -/
def Committed : Progress → Prop
  | .ready => False
  | .rotating _ => True
  | .holding _ => False
  | .assigned _ => True
  | .finished => True

/-- The streams are what the committed tasks have made of them in the order of the log, in which
only tasks that have not changed a stream follow a rotation that has still to renew it. -/
structure Replayed (table : Table StreamInfo.streamKey) (tasks : List Task) (world : World)
    (log : List ℕ) : Prop where
  nodup : log.Nodup
  mem_iff : ∀ task, task ∈ log ↔ task < tasks.length ∧ Committed (world.progress task)
  record : ∀ key, world.record key =
    (table.find? key).map (replay (effectNow tasks world) log)
  settled : ∀ key, log.Pairwise fun first second ↦
    key ∈ unrenewed tasks world first → Inert table tasks world key second

/-- A stream that has a record in the log is still the one of the table. -/
theorem Replayed.record_eq_some_iff {table : Table StreamInfo.streamKey} {tasks : List Task}
    {world : World} {log : List ℕ} (hreplayed : Replayed table tasks world log) {key : String}
    {info : StreamInfo} : world.record key = some info ↔
      ∃ first, table.find? key = some first ∧ replay (effectNow tasks world) log first = info := by
  rw [hreplayed.record, Option.map_eq_some_iff]

/-- A step that changes no record, commits no task and renews nothing leaves the log as it is. -/
theorem Replayed.of_eq {table : Table StreamInfo.streamKey} {tasks : List Task}
    {world world' : World} {log : List ℕ} (hreplayed : Replayed table tasks world log)
    (hrecord : ∀ key, world'.record key = world.record key)
    (hunrenewed : ∀ task, unrenewed tasks world' task = unrenewed tasks world task)
    (hcommitted : ∀ task, Committed (world'.progress task) ↔ Committed (world.progress task)) :
    Replayed table tasks world' log := by
  have heffect : effectNow tasks world' = effectNow tasks world := by
    ext1 task
    exact effectNow_eq_of_unrenewed (hunrenewed task)
  refine ⟨hreplayed.nodup, fun task ↦ ?_, fun key ↦ ?_, fun key ↦ ?_⟩
  · rw [hreplayed.mem_iff, hcommitted]
  · rw [hrecord, hreplayed.record, heffect]
  · have hsettled := hreplayed.settled key
    unfold Inert at hsettled ⊢
    rw [heffect]
    simp only [hunrenewed]
    exact hsettled

/-- The log after a task is committed between two parts of it. Assumes: the streams are what the
replay of the new log makes of them; where a rotation before the task has still to renew a stream,
the task has not changed it; and the task renews nothing or comes last. -/
theorem Replayed.insert {table : Table StreamInfo.streamKey} {tasks : List Task}
    {world world' : World} {task : ℕ} {before after : List ℕ}
    (hreplayed : Replayed table tasks world (before ++ after)) (htask : task < tasks.length)
    (hbefore : ¬ Committed (world.progress task)) (hafter : Committed (world'.progress task))
    (hother : ∀ other, other ≠ task → world'.progress other = world.progress other)
    (hunrenewed : ∀ other, other ≠ task →
      unrenewed tasks world' other = unrenewed tasks world other)
    (hrecord : ∀ key, world'.record key = (table.find? key).map fun first ↦
      replay (effectNow tasks world) after
        (effectNow tasks world' task (replay (effectNow tasks world) before first)))
    (hsettled : ∀ key, Inert table tasks world' key task ∨
      ∀ other ∈ before, key ∉ unrenewed tasks world' other)
    (hlast : after = [] ∨ unrenewed tasks world' task = []) :
    Replayed table tasks world' (before ++ task :: after) := by
  have hnew : task ∉ before ++ after := fun hmem ↦ hbefore ((hreplayed.mem_iff task).mp hmem).2
  have hne : ∀ other ∈ before ++ after, other ≠ task := fun other hmem hsame ↦ hnew (hsame ▸ hmem)
  have heffect : ∀ other ∈ before ++ after,
      effectNow tasks world' other = effectNow tasks world other := fun other hmem ↦
    effectNow_eq_of_unrenewed (hunrenewed other (hne other hmem))
  have hbeforeSame : ∀ info, replay (effectNow tasks world') before info =
      replay (effectNow tasks world) before info :=
    replay_congr_of_eq fun other hmem ↦ heffect other (List.mem_append_left _ hmem)
  have hafterSame : ∀ info, replay (effectNow tasks world') after info =
      replay (effectNow tasks world) after info :=
    replay_congr_of_eq fun other hmem ↦ heffect other (List.mem_append_right _ hmem)
  refine ⟨List.nodup_middle.mpr (List.nodup_cons.mpr ⟨hnew, hreplayed.nodup⟩), fun other ↦ ?_,
    fun key ↦ ?_, fun key ↦ ?_⟩
  · rw [List.mem_append, List.mem_cons, or_left_comm, ← List.mem_append, hreplayed.mem_iff]
    by_cases hsame : other = task
    · subst hsame
      exact iff_of_true (Or.inl rfl) ⟨htask, hafter⟩
    · rw [hother other hsame]
      exact or_iff_right hsame
  · rw [hrecord]
    refine congrArg (Option.map · _) (funext fun first ↦ ?_)
    rw [replay_append, replay_cons, hbeforeSame, hafterSame]
  · have hold := hreplayed.settled key
    rw [List.pairwise_append] at hold
    obtain ⟨hfirst, hsecond, hcross⟩ := hold
    have hkeep : ∀ first ∈ before ++ after, ∀ second ∈ before ++ after,
        (key ∈ unrenewed tasks world first → Inert table tasks world key second) →
          key ∈ unrenewed tasks world' first → Inert table tasks world' key second := by
      intro first hfirst second hsecond hinert hmem
      rw [hunrenewed first (hne first hfirst)] at hmem
      unfold Inert
      rw [heffect second hsecond]
      exact hinert hmem
    rw [List.pairwise_append, List.pairwise_cons]
    refine ⟨?_, ⟨?_, ?_⟩, ?_⟩
    · exact hfirst.imp_of_mem fun hmem hmem' ↦ hkeep _ (List.mem_append_left _ hmem) _
        (List.mem_append_left _ hmem')
    · intro second hmem hself
      rcases hlast with rfl | hnil
      · cases hmem
      · rw [hnil] at hself
        cases hself
    · exact hsecond.imp_of_mem fun hmem hmem' ↦ hkeep _ (List.mem_append_right _ hmem) _
        (List.mem_append_right _ hmem')
    · intro first hmem second hmem'
      rcases List.mem_cons.mp hmem' with rfl | hmem'
      · intro hself
        exact (hsettled key).resolve_right fun hnone ↦ hnone first hmem hself
      · exact hkeep _ (List.mem_append_left _ hmem) _ (List.mem_append_right _ hmem')
          (hcross first hmem second hmem')

/-- A log splits where the first rotation has begun that has still to renew a stream: from there on
no task has changed the stream. -/
theorem Replayed.exists_split {table : Table StreamInfo.streamKey} {tasks : List Task}
    {world : World} {log : List ℕ} (hreplayed : Replayed table tasks world log) (key : String) :
    ∃ before after, log = before ++ after ∧
      (∀ task ∈ before, key ∉ unrenewed tasks world task) ∧
        ∀ task ∈ after, Inert table tasks world key task := by
  have hsettled := hreplayed.settled key
  generalize log = entries at hsettled
  induction entries with
  | nil => exact ⟨[], [], rfl, fun _ hmem ↦ absurd hmem List.not_mem_nil,
      fun _ hmem ↦ absurd hmem List.not_mem_nil⟩
  | cons task entries ih =>
    obtain ⟨hfirst, hrest⟩ := List.pairwise_cons.mp hsettled
    by_cases hmem : key ∈ unrenewed tasks world task
    · refine ⟨[], task :: entries, rfl, fun _ hmem ↦ absurd hmem List.not_mem_nil, ?_⟩
      intro other hother
      rcases List.mem_cons.mp hother with rfl | hother
      · intro first info hfind hsame _
        exact effectNow_of_mem ((hsame.streamKey_of_find? hfind).symm ▸ hmem)
      · exact hfirst other hother hmem
    · obtain ⟨before, after, rfl, hbefore, hafter⟩ := ih hrest
      refine ⟨task :: before, after, rfl, fun other hother ↦ ?_, hafter⟩
      rcases List.mem_cons.mp hother with rfl | hother
      · exact hmem
      · exact hbefore other hother

/-! ### The log after a step -/

section Steps

variable {table : Table StreamInfo.streamKey} {tasks : List Task} {world : World} {task : ℕ}
  {log : List ℕ}

/-- The records after a write to one of them. -/
theorem record_assign (hconsistent : Consistent table tasks world) {key : String} {stream : ℕ}
    (hstored : world.getStream key = some stream) (write : StreamInfo → StreamInfo)
    (other : String) : (world.assign stream write).record other =
      if other = key then (world.record other).map write else world.record other := by
  unfold World.record
  rw [World.getStream_assign, World.heap_assign]
  cases hother : world.getStream other with
  | none => split_ifs <;> rfl
  | some pointer =>
    simp only [Option.bind_some]
    rw [List.getElem?_modify]
    by_cases hpointer : stream = pointer
    · have hkey : other = key := Option.some.inj
        ((hconsistent.stored other pointer hother).symm.trans
          (hpointer ▸ hconsistent.stored key stream hstored))
      rw [if_pos hkey]
      simp only [hpointer, if_true]
      rfl
    · have hkey : other ≠ key := fun hsame ↦
        hpointer (Option.some.inj (hstored.symm.trans (hsame ▸ hother)))
      rw [if_neg hkey]
      simp only [hpointer, if_false]
      exact id_map' _

/-- No task has to renew a stream that is not live. -/
theorem notMem_unrenewed_of_ended (hsound : Sound tasks world) {key : String}
    (hended : ∀ info, world.record key = some info → info.isLive = false) (other : ℕ) :
    key ∉ unrenewed tasks world other := by
  intro hmem
  obtain ⟨_, _, info, _, _, _, hrecord, hlive⟩ := exists_record_of_unrenewed hsound hmem
  rw [hended info hrecord] at hlive
  cases hlive

/-- A rotation that begins has to renew the live streams, as far as it does not skip them. -/
theorem effectNow_of_take {rotator : ℕ} {outcome : RotationOutcome}
    (htask : tasks[task]? = some (.rotateAllLiveStreams rotator outcome)) {key : String}
    {current info : StreamInfo} (hrecord : world.record key = some current)
    (hlive : current.isLive = true) (hsame : SameStream current info) :
    effectNow tasks (world.withProgress task (.rotating (outcome.visit world.getLiveStreams))) task
      info = info := by
  have hrotating := world.progress_withProgress_self task
    (.rotating (outcome.visit world.getLiveStreams))
  by_cases hmem : info.streamKey ∈ unrenewed tasks
      (world.withProgress task (.rotating (outcome.visit world.getLiveStreams))) task
  · exact effectNow_of_mem hmem
  rw [effectNow_of_notMem htask hmem]
  unfold effect
  dsimp only
  rw [renewedStream_congr hsame.symm]
  cases hrenewed : renewedStream outcome current with
  | none => exact ite_self info
  | some updated =>
    obtain ⟨stream, hstored, hinfo⟩ := World.record_eq_some_iff.mp hrecord
    have hstreamLive : world.isLive stream = true := by
      rw [World.isLive, hinfo]
      exact hlive
    have hvisited : stream ∈ outcome.visit world.getLiveStreams :=
      (outcome.visit_perm _).mem_iff.mpr
        (World.mem_getLiveStreams_iff.mpr ⟨⟨key, hstored⟩, hstreamLive⟩)
    refine absurd ((mem_unrenewed_iff htask hrotating).mpr ⟨stream, hvisited, updated, ?_, ?_⟩) hmem
    · rw [World.heap_withProgress, hinfo, Option.bind_some]
      exact hrenewed
    · rw [← (sameStream_of_renewed hrenewed).1.streamKey, hsame.streamKey]

/-- The log after a rotation has begun. -/
theorem Replayed.take (hreplayed : Replayed table tasks world log)
    (hconsistent : Consistent table tasks world) {rotator : ℕ} {outcome : RotationOutcome}
    (htask : tasks[task]? = some (.rotateAllLiveStreams rotator outcome))
    (hprogress : world.progress task = .ready)
    (hsound : Sound tasks
      (world.withProgress task (.rotating (outcome.visit world.getLiveStreams)))) :
    Replayed table tasks
      (world.withProgress task (.rotating (outcome.visit world.getLiveStreams)))
      (log ++ [task]) := by
  set world' := world.withProgress task (.rotating (outcome.visit world.getLiveStreams))
    with hworld'
  have hother : ∀ other, other ≠ task → world'.progress other = world.progress other :=
    fun other hne ↦ world.progress_withProgress_of_ne hne _
  refine Replayed.insert ((List.append_nil log).symm ▸ hreplayed)
    (List.getElem?_eq_some_iff.mp htask).1 (by rw [hprogress]; exact id)
    (by rw [hworld', World.progress_withProgress_self]; trivial) hother
    (fun other hne ↦ unrenewed_of_change hconsistent (.of_eq rfl fun _ ↦ rfl) (hother other hne))
    (fun key ↦ ?_) (fun key ↦ ?_) (Or.inl rfl)
  · rw [World.record_withProgress, hreplayed.record]
    cases hfirst : table.find? key with
    | none => rfl
    | some first =>
      have hrecord := hreplayed.record_eq_some_iff.mpr ⟨first, hfirst, rfl⟩
      rw [Option.map_some, Option.map_some, replay_nil]
      by_cases hlive : (replay (effectNow tasks world) log first).isLive = true
      · rw [effectNow_of_take htask hrecord hlive (.refl _)]
      · rw [effectNow_of_ended _ _ _ (Bool.not_eq_true _ ▸ hlive)]
  · by_cases hlive : ∃ current, world.record key = some current ∧ current.isLive = true
    · obtain ⟨current, hrecord, hlive⟩ := hlive
      refine Or.inl fun first info hfirst hsame _ ↦ ?_
      obtain ⟨first', hfirst', hcurrent⟩ := hreplayed.record_eq_some_iff.mp hrecord
      obtain rfl := Option.some.inj (hfirst.symm.trans hfirst')
      have hsameCurrent : SameStream first current :=
        hcurrent ▸ sameStream_replay tasks world log first
      exact effectNow_of_take htask hrecord hlive (hsameCurrent.symm.trans hsame)
    · refine Or.inr fun other _ ↦ notMem_unrenewed_of_ended hsound (fun info hinfo ↦ ?_) other
      exact Bool.eq_false_iff.mpr fun h ↦ hlive ⟨info, hinfo, h⟩

/-- The log after a task that is no rotation, committed in one step. Assumes: each record is what
the task makes of it; where a rotation has still to renew a stream, the task has not changed it. -/
theorem Replayed.append {world' : World} {called : Task}
    (hreplayed : Replayed table tasks world log) (hconsistent : Consistent table tasks world)
    (hchange : Change world world') (htask : tasks[task]? = some called)
    (hother : ∀ other, other ≠ task → world'.progress other = world.progress other)
    (hready : world.progress task = .ready) (hfinished : world'.progress task = .finished)
    (hrecord : ∀ key, world'.record key = (world.record key).map (effect called))
    (hsettled : ∀ key, (∀ info, info.streamKey = key → effect called info = info) ∨
      ∀ other, key ∉ unrenewed tasks world' other) :
    Replayed table tasks world' (log ++ [task]) := by
  have hnil : unrenewed tasks world' task = [] :=
    unrenewed_eq_nil fun streams hrotating ↦ by cases hfinished.symm.trans hrotating
  have heffect : ∀ info, effectNow tasks world' task info = effect called info := fun info ↦
    effectNow_of_notMem htask (hnil ▸ List.not_mem_nil)
  refine Replayed.insert ((List.append_nil log).symm ▸ hreplayed)
    (List.getElem?_eq_some_iff.mp htask).1 (by rw [hready]; exact id)
    (by rw [hfinished]; trivial) hother
    (fun other hne ↦ unrenewed_of_change hconsistent hchange (hother other hne))
    (fun key ↦ ?_) (fun key ↦ ?_) (Or.inl rfl)
  · rw [hrecord, hreplayed.record, Option.map_map]
    refine congrArg (Option.map · _) (funext fun first ↦ ?_)
    rw [replay_nil, heffect]
    rfl
  · rcases hsettled key with hinert | hnone
    · refine Or.inl fun first info hfirst hsame _ ↦ ?_
      rw [heffect]
      exact hinert info (hsame.streamKey_of_find? hfirst)
    · exact Or.inr fun other _ ↦ hnone other

/-- The records after a stop. -/
theorem record_endStream (hconsistent : Consistent table tasks world) (key other : String) :
    (world.endStream key).record other =
      (world.record other).map (effect (.adminStreamStop key)) := by
  cases hrecord : world.record other with
  | none =>
    rw [Option.map_none]
    unfold World.endStream
    cases hfound : world.getStream key with
    | none => exact hrecord
    | some stream =>
      dsimp only
      rw [record_assign hconsistent hfound, hrecord]
      exact ite_self none
  | some info =>
    have hkey := streamKey_of_record hconsistent hrecord
    rw [Option.map_some]
    unfold World.endStream effect
    cases hfound : world.getStream key with
    | none =>
      have hne : info.streamKey ≠ key := by
        intro hsame
        rw [World.record, ← hkey, hsame, hfound] at hrecord
        cases hrecord
      dsimp only
      rw [if_neg hne]
      exact hrecord
    | some stream =>
      dsimp only
      rw [record_assign hconsistent hfound, hrecord]
      by_cases hsame : other = key
      · rw [if_pos hsame, if_pos (hkey.trans hsame)]
        rfl
      · rw [if_neg hsame, if_neg fun h ↦ hsame (hkey.symm.trans h)]

/-- The log after a stop. -/
theorem Replayed.stop (hreplayed : Replayed table tasks world log)
    (hconsistent : Consistent table tasks world) {key : String}
    (hchange : Change world ((world.endStream key).withProgress task .finished))
    (htask : tasks[task]? = some (.adminStreamStop key)) (hprogress : world.progress task = .ready)
    (hsound : Sound tasks ((world.endStream key).withProgress task .finished)) :
    Replayed table tasks ((world.endStream key).withProgress task .finished) (log ++ [task]) := by
  refine hreplayed.append hconsistent hchange htask (fun other hne ↦ ?_) hprogress
    (World.progress_withProgress_self _ _ _) (fun other ↦ record_endStream hconsistent key other)
    fun other ↦ ?_
  · rw [World.progress_withProgress_of_ne _ hne, World.progress_endStream]
  · by_cases hkey : other = key
    · refine Or.inr (notMem_unrenewed_of_ended hsound fun info hinfo ↦ ?_)
      rw [World.record_withProgress, record_endStream hconsistent, Option.map_eq_some_iff] at hinfo
      obtain ⟨current, hcurrent, rfl⟩ := hinfo
      have hsame := (streamKey_of_record hconsistent hcurrent).trans hkey
      unfold effect
      dsimp only
      rw [if_pos hsame]
    · exact Or.inl fun info hinfo ↦ if_neg fun hsame ↦ hkey (hinfo.symm.trans hsame)

/-- A latency mode that is rejected has no effect on the records. -/
theorem effect_of_rejected (hconsistent : Consistent table tasks world) {key mode other : String}
    (hreject : World.isLatencyMode mode = false ∨
      ∀ info, world.record key = some info → info.isLive = false)
    {info : StreamInfo} (hrecord : world.record other = some info) :
    effect (.setLatencyMode key mode) info = info := by
  refine if_neg ?_
  rintro ⟨hkey, hmode, hlive⟩
  rcases hreject with hinvalid | hended
  · rw [hinvalid] at hmode
    cases hmode
  · have hother := (streamKey_of_record hconsistent hrecord).symm.trans hkey
    rw [hended info (hother ▸ hrecord)] at hlive
    cases hlive

/-- The log after a latency mode has been rejected. -/
theorem Replayed.reject (hreplayed : Replayed table tasks world log)
    (hconsistent : Consistent table tasks world) {key mode : String}
    (htask : tasks[task]? = some (.setLatencyMode key mode))
    (hprogress : world.progress task = .ready)
    (hreject : World.isLatencyMode mode = false ∨
      ∀ info, world.record key = some info → info.isLive = false)
    (hsound : Sound tasks (world.withProgress task .finished)) :
    Replayed table tasks (world.withProgress task .finished) (log ++ [task]) := by
  refine hreplayed.append hconsistent (.of_eq rfl fun _ ↦ rfl) htask
    (fun other hne ↦ world.progress_withProgress_of_ne hne _) hprogress
    (world.progress_withProgress_self _ _) (fun other ↦ ?_) fun other ↦ ?_
  · rw [World.record_withProgress]
    cases hrecord : world.record other with
    | none => rfl
    | some info => exact congrArg some (effect_of_rejected hconsistent hreject hrecord).symm
  · rcases hreject with hinvalid | hended
    · refine Or.inl fun info _ ↦ if_neg fun h ↦ ?_
      rw [hinvalid] at h
      cases h.2.1
    · by_cases hkey : other = key
      · exact Or.inr (hkey ▸ notMem_unrenewed_of_ended hsound hended)
      · exact Or.inl fun info hinfo ↦ if_neg fun h ↦ hkey (hinfo.symm.trans h.1)

/-- The log splits so that the record of a live stream is what the first part makes of it, no
rotation in the first part has still to renew it and no task in the second part has changed it. -/
theorem Replayed.exists_split_of_live (hreplayed : Replayed table tasks world log) {key : String}
    {current : StreamInfo} (hrecord : world.record key = some current)
    (hlive : current.isLive = true) :
    ∃ first before after, table.find? key = some first ∧ log = before ++ after ∧
      replay (effectNow tasks world) before first = current ∧
        (∀ other ∈ before, key ∉ unrenewed tasks world other) ∧
          ∀ other ∈ after, Inert table tasks world key other := by
  obtain ⟨first, hfirst, hreplay⟩ := hreplayed.record_eq_some_iff.mp hrecord
  obtain ⟨before, after, rfl, hbefore, hafter⟩ := hreplayed.exists_split key
  refine ⟨first, before, after, hfirst, rfl, ?_, hbefore, hafter⟩
  rw [replay_append] at hreplay
  have hmiddle : (replay (effectNow tasks world) before first).isLive = true := by
    by_contra hended
    rw [replay_of_ended _ _ _ (Bool.not_eq_true _ ▸ hended)] at hreplay
    exact hended (hreplay.symm ▸ hlive)
  rw [← hreplay]
  refine (replay_of_forall fun other hother ↦ ?_).symm
  exact hafter other hother first _ hfirst (sameStream_replay tasks world before first) hmiddle

/-- The log around the stop that has ended a stream: the record is what the tasks before the stop
have made of it, and ended. -/
theorem Replayed.exists_stop (hreplayed : Replayed table tasks world log) {key : String}
    {first current : StreamInfo} (hfirst : table.find? key = some first)
    (hlive : first.isLive = true) (hrecord : world.record key = some current)
    (hended : ¬ current.isLive = true) :
    ∃ before stopping after info, log = before ++ stopping :: after ∧
      replay (effectNow tasks world) before first = info ∧ info.isLive = true ∧
        current = { info with isLive := false } ∧
          ∀ value, value.streamKey = key →
            effectNow tasks world stopping value = { value with isLive := false } := by
  obtain ⟨first', hfirst', hreplay⟩ := hreplayed.record_eq_some_iff.mp hrecord
  obtain rfl := Option.some.inj (hfirst.symm.trans hfirst')
  obtain ⟨before, stopping, after, rfl, hbefore, hlost⟩ :=
    exists_lost (P := fun info : StreamInfo ↦ info.isLive = true) hlive (hreplay ▸ hended)
  set info := replay (effectNow tasks world) before first with hinfo
  have hkey : info.streamKey = key :=
    (sameStream_replay tasks world before first).streamKey_of_find? hfirst
  have hmem : key ∉ unrenewed tasks world stopping := by
    intro hmem
    rw [effectNow_of_mem (hkey.symm ▸ hmem)] at hlost
    exact hlost hbefore
  cases htask : tasks[stopping]? with
  | none =>
    unfold effectNow at hlost
    rw [htask, Option.elim_none, ite_self] at hlost
    exact absurd hbefore hlost
  | some called =>
    rw [effectNow_of_notMem htask (hkey.symm ▸ hmem)] at hlost
    obtain ⟨rfl, hstopped⟩ := eq_stop_of_ends hbefore hlost
    refine ⟨before, stopping, after, info, rfl, rfl, hbefore, ?_, fun value hvalue ↦ ?_⟩
    · rw [← hreplay, replay_append, replay_cons, ← hinfo,
        effectNow_of_notMem htask (hkey.symm ▸ hmem), hstopped]
      exact replay_of_ended tasks world after rfl
    · rw [effectNow_of_notMem htask (hvalue.symm ▸ hmem)]
      exact if_pos (hvalue.trans hkey.symm)

/-- Where a new mode of a stream belongs in the log: before the rotations that have still to renew
the stream, and before the stop if the stream has been stopped. The stream is live there, and what
comes behind does to the record with the new mode what it has done to the record. Assumes: the
stream is live in the table. -/
theorem Replayed.exists_place (hreplayed : Replayed table tasks world log)
    (hsound : Sound tasks world) {key : String} {first current : StreamInfo}
    (hfirst : table.find? key = some first) (hlive : first.isLive = true)
    (hrecord : world.record key = some current) (mode : String) :
    ∃ before after info, log = before ++ after ∧
      replay (effectNow tasks world) before first = info ∧ info.isLive = true ∧
        (∀ other ∈ before, key ∉ unrenewed tasks world other) ∧
          replay (effectNow tasks world) after { info with latencyMode := mode } =
            { current with latencyMode := mode } := by
  by_cases hcurrentLive : current.isLive = true
  · obtain ⟨first', before, after, hfirst', rfl, hbefore, hnone, hafter⟩ :=
      hreplayed.exists_split_of_live hrecord hcurrentLive
    obtain rfl := Option.some.inj (hfirst.symm.trans hfirst')
    refine ⟨before, after, current, rfl, hbefore, hcurrentLive, hnone, ?_⟩
    refine replay_of_forall fun other hmem ↦ hafter other hmem first _ hfirst ?_ hcurrentLive
    have hsame : SameStream first current := hbefore ▸ sameStream_replay tasks world before first
    exact hsame.trans ⟨rfl, rfl, rfl, rfl, rfl⟩
  · obtain ⟨before, stopping, after, info, rfl, hbefore, hinfoLive, rfl, hstopped⟩ :=
      hreplayed.exists_stop hfirst hlive hrecord hcurrentLive
    have hkey : info.streamKey = key :=
      (hbefore ▸ sameStream_replay tasks world before first).streamKey_of_find? hfirst
    refine ⟨before, stopping :: after, info, rfl, hbefore, hinfoLive, ?_, ?_⟩
    · refine fun other _ ↦ notMem_unrenewed_of_ended hsound (fun other hother ↦ ?_) other
      rw [hrecord] at hother
      exact Option.some.inj hother ▸ rfl
    · rw [replay_cons, hstopped { info with latencyMode := mode } hkey]
      exact replay_of_ended tasks world after rfl

/-- The log after a latency mode has been written: the task gets the place of the mode. -/
theorem Replayed.write {key mode : String} {stream : ℕ}
    (hreplayed : Replayed table tasks world log) (hconsistent : Consistent table tasks world)
    (hsound : Sound tasks world) (htask : tasks[task]? = some (.setLatencyMode key mode))
    (hprogress : world.progress task = .holding stream) :
    ∃ log', Replayed table tasks ((world.assign stream fun info ↦
      { info with latencyMode := mode }).withProgress task (.assigned stream)) log' := by
  set world' := (world.assign stream fun info ↦
    { info with latencyMode := mode }).withProgress task (.assigned stream) with hworld'
  obtain ⟨hmode, hkey, first, hfirst, hfirstLive⟩ :=
    hconsistent.found task key mode stream htask (Or.inl hprogress)
  obtain ⟨current, hinfo, hcurrentKey⟩ := Option.map_eq_some_iff.mp hkey
  have hstored : world.getStream key = some stream :=
    hcurrentKey ▸ (hsound task stream (.holding htask hprogress)).1 current hinfo
  have hrecord : world.record key = some current :=
    World.record_eq_some_iff.mpr ⟨stream, hstored, hinfo⟩
  have hchange : Change world world' := by
    refine .assign world ?_ stream task _
    exact fun info ↦ ⟨⟨rfl, rfl, rfl, rfl, rfl⟩, rfl, id⟩
  have hother : ∀ other, other ≠ task → world'.progress other = world.progress other :=
    fun other hne ↦ World.progress_withProgress_of_ne _ hne _
  have hassigned : world'.progress task = .assigned stream :=
    World.progress_withProgress_self _ _ _
  have hnil : unrenewed tasks world' task = [] :=
    unrenewed_eq_nil fun streams hrotating ↦ by cases hassigned.symm.trans hrotating
  have hnil' : unrenewed tasks world task = [] :=
    unrenewed_eq_nil fun streams hrotating ↦ by cases hprogress.symm.trans hrotating
  have hunrenewed : ∀ other, unrenewed tasks world' other = unrenewed tasks world other := by
    intro other
    by_cases hne : other = task
    · rw [hne, hnil, hnil']
    · exact unrenewed_of_change hconsistent hchange (hother other hne)
  have heffect : ∀ info,
      effectNow tasks world' task info = effect (.setLatencyMode key mode) info := fun info ↦
    effectNow_of_notMem htask (hnil ▸ List.not_mem_nil)
  obtain ⟨before, after, info, rfl, hbefore, hlive, hnone, hafter⟩ :=
    hreplayed.exists_place hsound hfirst hfirstLive hrecord mode
  have hinfoKey : info.streamKey = key :=
    (hbefore ▸ sameStream_replay tasks world before first).streamKey_of_find? hfirst
  refine ⟨before ++ task :: after, hreplayed.insert (List.getElem?_eq_some_iff.mp htask).1
    (by rw [hprogress]; exact id) (by rw [hassigned]; trivial) hother
    (fun other _ ↦ hunrenewed other) (fun other ↦ ?_) (fun other ↦ ?_) (Or.inr hnil)⟩
  · rw [hworld', World.record_withProgress, record_assign hconsistent hstored]
    by_cases hsame : other = key
    · rw [hsame, if_pos rfl, hrecord, hfirst, Option.map_some, Option.map_some, hbefore, heffect]
      refine congrArg some (hafter.symm.trans (congrArg _ (Eq.symm ?_)))
      exact if_pos ⟨hinfoKey, hmode, hlive⟩
    · rw [if_neg hsame, hreplayed.record]
      cases hother' : table.find? other with
      | none => rfl
      | some first' =>
        have hotherKey : (replay (effectNow tasks world) before first').streamKey = other :=
          (sameStream_replay tasks world before first').streamKey_of_find? hother'
        rw [Option.map_some, Option.map_some, replay_append, heffect]
        refine congrArg some (congrArg _ (Eq.symm (if_neg fun h ↦ hsame ?_)))
        exact hotherKey.symm.trans h.1
  · by_cases hsame : other = key
    · exact Or.inr fun earlier hmem ↦ hunrenewed earlier ▸ hsame ▸ hnone earlier hmem
    · refine Or.inl fun first' value hfirst' hvalue _ ↦ ?_
      rw [heffect]
      refine if_neg fun h ↦ hsame ?_
      exact (hvalue.streamKey_of_find? hfirst').symm.trans h.1

/-- The records after a new one has been stored. -/
theorem record_allocate (hconsistent : Consistent table tasks world) (updated : StreamInfo)
    (key : String) : (world.allocate updated).record key =
      if key = updated.streamKey then some updated else world.record key := by
  unfold World.record
  rw [World.getStream_allocate, World.heap_allocate]
  split_ifs
  · exact List.getElem?_concat_length
  · cases hstored : world.getStream key with
    | none => rfl
    | some stream =>
      exact List.getElem?_append_left (lt_length_of_keyOf (hconsistent.stored key stream hstored))

/-- A stream that has just been renewed is not still to be renewed: the rotation would know a record
from before. -/
theorem notMem_unrenewed_of_renewed {stream : ℕ} {streams : List ℕ} {updated : StreamInfo}
    (hconsistent : Consistent table tasks world)
    (hprogress : world.progress task = .rotating (stream :: streams))
    (hsound : Sound tasks ((world.allocate updated).withProgress task (.rotating streams)))
    (other : ℕ) : updated.streamKey ∉
      unrenewed tasks ((world.allocate updated).withProgress task (.rotating streams)) other := by
  intro hmem
  obtain ⟨streams', pointer, _, hrotating, hpointer, hstored, _⟩ :=
    exists_record_of_unrenewed hsound hmem
  rw [World.getStream_withProgress, World.getStream_allocate, if_pos rfl] at hstored
  obtain rfl := Option.some.inj hstored
  refine lt_irrefl world.heap.length ?_
  by_cases hne : other = task
  · rw [hne, World.progress_withProgress_self] at hrotating
    obtain rfl := Progress.rotating.inj hrotating
    exact (hconsistent.visited task _ hprogress).2 _ (List.mem_cons_of_mem _ hpointer)
  · rw [World.progress_withProgress_of_ne _ hne] at hrotating
    exact (hconsistent.visited other streams' hrotating).2 _ hpointer

/-- The other streams that a rotation has still to renew when it has renewed one. -/
theorem mem_unrenewed_of_renewed_iff {rotator : ℕ} {outcome : RotationOutcome} {stream : ℕ}
    {streams : List ℕ} {updated : StreamInfo} (hconsistent : Consistent table tasks world)
    (htask : tasks[task]? = some (.rotateAllLiveStreams rotator outcome))
    (hprogress : world.progress task = .rotating (stream :: streams))
    (hrenewed : world.heap[stream]?.bind (renewedStream outcome) = some updated) {key : String}
    (hkey : key ≠ updated.streamKey) :
    key ∈ unrenewed tasks ((world.allocate updated).withProgress task (.rotating streams)) task ↔
      key ∈ unrenewed tasks world task := by
  have hheap : ∀ pointer ∈ streams, (world.heap ++ [updated])[pointer]? = world.heap[pointer]? := by
    intro pointer hpointer
    exact List.getElem?_append_left
      ((hconsistent.visited task _ hprogress).2 pointer (List.mem_cons_of_mem _ hpointer))
  rw [mem_unrenewed_iff htask (World.progress_withProgress_self _ _ _),
    mem_unrenewed_iff htask hprogress, World.heap_withProgress, World.heap_allocate]
  constructor
  · rintro ⟨pointer, hpointer, record, hrecord, hrecordKey⟩
    rw [hheap pointer hpointer] at hrecord
    exact ⟨pointer, List.mem_cons_of_mem _ hpointer, record, hrecord, hrecordKey⟩
  · rintro ⟨pointer, hpointer, record, hrecord, hrecordKey⟩
    rcases List.mem_cons.mp hpointer with rfl | hpointer
    · obtain rfl := Option.some.inj (hrenewed.symm.trans hrecord)
      exact absurd hrecordKey.symm hkey
    · rw [← hheap pointer hpointer] at hrecord
      exact ⟨pointer, hpointer, record, hrecord, hrecordKey⟩

/-- The replay of the log for a stream that has just been renewed. Assumes: the rotation had still
to renew the stream, no other task has changed its effect, and the rotation now has its own. -/
theorem Replayed.replay_of_renewed {world' : World} {current updated : StreamInfo}
    (hreplayed : Replayed table tasks world log)
    (hrecord : world.record updated.streamKey = some current) (hlive : current.isLive = true)
    (hsame : SameStream current updated) (hupdatedLive : updated.isLive = true)
    (hcommitted : task ∈ log) (hmem : updated.streamKey ∈ unrenewed tasks world task)
    (heffect : ∀ other, other ≠ task → effectNow tasks world' other = effectNow tasks world other)
    (hrenews : effectNow tasks world' task current = updated) :
    (table.find? updated.streamKey).map (replay (effectNow tasks world') log) = some updated := by
  obtain ⟨first, before, after, hfirst, rfl, hbefore, hnone, hafter⟩ :=
    hreplayed.exists_split_of_live hrecord hlive
  have hfirstSame : SameStream first current :=
    hbefore ▸ sameStream_replay tasks world before first
  have hnotBefore : task ∉ before := fun h ↦ hnone task h hmem
  obtain ⟨middle, last, rfl⟩ :=
    List.append_of_mem ((List.mem_append.mp hcommitted).resolve_left hnotBefore)
  have hnodup := (List.nodup_append.mp hreplayed.nodup).2.1
  have hnotOthers := (List.nodup_cons.mp (List.nodup_middle.mp hnodup)).1
  have hinert : ∀ other ∈ middle ++ last, ∀ info, SameStream first info → info.isLive = true →
      effectNow tasks world' other info = info := by
    intro other hother info hinfo hinfoLive
    rw [heffect other fun h ↦ hnotOthers (h ▸ hother)]
    refine hafter other ?_ first info hfirst hinfo hinfoLive
    exact (List.Sublist.append_left (List.sublist_cons_self task last) middle).subset hother
  have hreplay : replay (effectNow tasks world') before first = current := by
    rw [← hbefore]
    exact replay_congr_of_eq (fun other hother ↦ heffect other fun h ↦ hnotBefore (h ▸ hother))
      first
  rw [hfirst, Option.map_some, replay_append, hreplay, replay_append,
    replay_of_forall fun other hother ↦
      hinert other (List.mem_append_left _ hother) current hfirstSame hlive,
    replay_cons, hrenews]
  exact congrArg some (replay_of_forall fun other hother ↦
    hinert other (List.mem_append_right _ hother) updated (hfirstSame.trans hsame) hupdatedLive)

/-- The log after a rotation has renewed a stream is the same. -/
theorem Replayed.renew {rotator : ℕ} {outcome : RotationOutcome} {stream : ℕ} {streams : List ℕ}
    {updated : StreamInfo} (hreplayed : Replayed table tasks world log)
    (hconsistent : Consistent table tasks world)
    (hchange : Change world ((world.allocate updated).withProgress task (.rotating streams)))
    (hunchanged : IsUnchanged tasks world task stream)
    (htask : tasks[task]? = some (.rotateAllLiveStreams rotator outcome))
    (hprogress : world.progress task = .rotating (stream :: streams))
    (hrenewed : world.heap[stream]?.bind (renewedStream outcome) = some updated)
    (hsound : Sound tasks ((world.allocate updated).withProgress task (.rotating streams))) :
    Replayed table tasks ((world.allocate updated).withProgress task (.rotating streams)) log := by
  have hnone := notMem_unrenewed_of_renewed hconsistent hprogress hsound
  have hsameMem : ∀ {key}, key ≠ updated.streamKey →
      (key ∈ unrenewed tasks ((world.allocate updated).withProgress task (.rotating streams)) task ↔
        key ∈ unrenewed tasks world task) :=
    mem_unrenewed_of_renewed_iff hconsistent htask hprogress hrenewed
  set world' := (world.allocate updated).withProgress task (.rotating streams) with hworld'
  have hother : ∀ other, other ≠ task → world'.progress other = world.progress other :=
    fun other hne ↦ World.progress_withProgress_of_ne _ hne _
  have hunrenewed : ∀ other, other ≠ task →
      unrenewed tasks world' other = unrenewed tasks world other :=
    fun other hne ↦ unrenewed_of_change hconsistent hchange (hother other hne)
  have hmem_iff : ∀ key, key ≠ updated.streamKey → ∀ other,
      key ∈ unrenewed tasks world' other ↔ key ∈ unrenewed tasks world other := by
    intro key hkey other
    by_cases hne : other = task
    · exact hne ▸ hsameMem hkey
    · rw [hunrenewed other hne]
  obtain ⟨current, hinfo, hcurrentRenewed⟩ := Option.bind_eq_some_iff.mp hrenewed
  obtain ⟨hsame, hupdatedLive⟩ := sameStream_of_renewed hcurrentRenewed
  have hrecord : world.record updated.streamKey = some current :=
    World.record_eq_some_iff.mpr ⟨stream, hsame.streamKey ▸ hunchanged.1 current hinfo, hinfo⟩
  have hlive := isLive_of_unchanged htask hunchanged hinfo
  have hcommitted : task ∈ log := (hreplayed.mem_iff task).mpr
    ⟨(List.getElem?_eq_some_iff.mp htask).1, by rw [hprogress]; trivial⟩
  have hrenews : effectNow tasks world' task current = updated := by
    rw [effectNow_of_notMem htask (hsame.streamKey.symm ▸ hnone task)]
    exact effect_of_renewed hlive hcurrentRenewed
  refine ⟨hreplayed.nodup, fun other ↦ ?_, fun key ↦ ?_, fun key ↦ ?_⟩
  · rw [hreplayed.mem_iff]
    by_cases hne : other = task
    · rw [hne, hprogress, hworld', World.progress_withProgress_self]
      exact Iff.rfl
    · rw [hother other hne]
  · rw [hworld', World.record_withProgress, record_allocate hconsistent]
    by_cases hkey : key = updated.streamKey
    · rw [if_pos hkey, hkey]
      refine (hreplayed.replay_of_renewed hrecord hlive hsame hupdatedLive hcommitted ?_ ?_
        hrenews).symm
      · exact (mem_unrenewed_iff htask hprogress).mpr
          ⟨stream, List.mem_cons_self, updated, hrenewed, rfl⟩
      · exact fun other hne ↦ effectNow_eq_of_unrenewed (hunrenewed other hne)
    · rw [if_neg hkey, hreplayed.record]
      cases hfirst : table.find? key with
      | none => rfl
      | some first =>
        refine congrArg some (replay_congr (P := fun info : StreamInfo ↦ info.streamKey = key)
          (fun other _ value hvalue ↦ (effectNow_congr ?_).symm)
          (fun other _ value hvalue ↦ ?_) (Table.key_of_find? hfirst))
        · rw [hvalue]
          exact hmem_iff key hkey other
        · exact (sameStream_effectNow tasks world other value).streamKey.symm.trans hvalue
  · by_cases hkey : key = updated.streamKey
    · exact List.pairwise_of_forall fun _ _ hmem ↦ absurd (hkey ▸ hmem) (hnone _)
    · refine (hreplayed.settled key).imp fun hinert hmem first info hfirst hsame' hinfoLive ↦ ?_
      have hinfoKey : info.streamKey = key := hsame'.streamKey_of_find? hfirst
      rw [effectNow_congr (hinfoKey.symm ▸ hmem_iff key hkey _)]
      exact hinert ((hmem_iff key hkey _).mp hmem) first info hfirst hsame' hinfoLive

/-- The log after a step that commits no task and changes no record. -/
theorem Replayed.of_uncommitted {world' : World} (hreplayed : Replayed table tasks world log)
    (hconsistent : Consistent table tasks world) (hchange : Change world world')
    (hother : ∀ other, other ≠ task → world'.progress other = world.progress other)
    (hrecord : ∀ key, world'.record key = world.record key)
    (hunrenewed : unrenewed tasks world' task = unrenewed tasks world task)
    (hcommitted : Committed (world'.progress task) ↔ Committed (world.progress task)) :
    Replayed table tasks world' log := by
  refine hreplayed.of_eq hrecord (fun other ↦ ?_) fun other ↦ ?_
  · by_cases hne : other = task
    · exact hne ▸ hunrenewed
    · exact unrenewed_of_change hconsistent hchange (hother other hne)
  · by_cases hne : other = task
    · exact hne ▸ hcommitted
    · rw [hother other hne]

/-- A step that meets the condition and leaves the world sound keeps a log. -/
theorem exists_replayed_step {world' : World} (hreplayed : Replayed table tasks world log)
    (hconsistent : Consistent table tasks world) (hstep : StepOf tasks world task world')
    (hcondition : StoresUnchanged tasks world task) (hsound : Sound tasks world') :
    ∃ log', Replayed table tasks world' log' := by
  have hchange := change_step hstep hcondition
  have hbefore := sound_of_step hstep hcondition hsound
  have hother : ∀ other, other ≠ task → world'.progress other = world.progress other :=
    fun other hne ↦ progress_of_ne hstep hne
  cases hstep with
  | idle => exact ⟨log, hreplayed⟩
  | take htask hprogress => exact ⟨_, hreplayed.take hconsistent htask hprogress hsound⟩
  | skip htask hprogress hskip =>
    refine ⟨log, hreplayed.of_uncommitted hconsistent hchange hother (fun _ ↦ rfl) ?_ ?_⟩
    · exact unrenewed_of_skip htask hprogress hskip
    · rw [hprogress, World.progress_withProgress_self]
      exact Iff.rfl
  | renew htask hprogress hrenewed =>
    have hunchanged := hcondition _ (storesFrom_of_renewed htask hprogress hrenewed)
    exact ⟨log, hreplayed.renew hconsistent hchange hunchanged htask hprogress hrenewed hsound⟩
  | release htask hprogress =>
    refine ⟨log, hreplayed.of_uncommitted hconsistent hchange hother (fun _ ↦ rfl) ?_ ?_⟩
    · unfold unrenewed
      rw [htask, hprogress, World.progress_withProgress_self]
      rfl
    · rw [hprogress, World.progress_withProgress_self]
      exact Iff.rfl
  | stop htask hprogress =>
    exact ⟨_, hreplayed.stop hconsistent hchange htask hprogress hsound⟩
  | reject htask hprogress hreject =>
    exact ⟨_, hreplayed.reject hconsistent htask hprogress hreject hsound⟩
  | find htask hprogress _ _ _ =>
    refine ⟨log, hreplayed.of_uncommitted hconsistent hchange hother (fun _ ↦ rfl) ?_ ?_⟩
    · unfold unrenewed
      rw [htask]
    · rw [hprogress, World.progress_withProgress_self]
      exact Iff.rfl
  | write htask hprogress => exact hreplayed.write hconsistent hbefore htask hprogress
  | store htask hprogress =>
    have hunchanged := hcondition _ (storesFrom_of_assigned htask hprogress)
    refine ⟨log, hreplayed.of_uncommitted hconsistent hchange hother (fun key ↦ ?_) ?_ ?_⟩
    · unfold World.record
      rw [World.heap_withProgress, World.heap_createStream, World.getStream_withProgress,
        getStream_createStream_of_current hunchanged.1]
    · unfold unrenewed
      rw [htask]
    · rw [hprogress, World.progress_withProgress_self]
      exact Iff.rfl

end Steps

end LiveCDN.Controller.UpdateLog
