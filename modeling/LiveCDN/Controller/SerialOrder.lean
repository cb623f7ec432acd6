import LiveCDN.Controller.RecordHistory
import LiveCDN.Controller.UpdateLog

/-!
# Serial orders of the stream updates

`updates_kept`: in every interleaving of rotations, stops and changes of the latency mode in which
each step that stores from a record finds it unchanged, no update is lost. When all tasks have
finished, the streams are those that the same tasks leave when they run one after another in some
order (`SerialResult`). The order is the log of the run, and a task that runs alone has its effect
(`ranAlone_runAlone`).

The code does not check the condition: the rotators hold mutexes of their own and the handlers none.
`updates_kept_counterexample` is a run for each part in which a stale record is stored.
-/

set_option autoImplicit false
set_option relaxedAutoImplicit false

namespace LiveCDN.Controller.SerialOrder

open Library.KeyedTable Library.GuardedRun Library.Replay StreamStore KeyRotation StreamUpdates
  RecordHistory UpdateLog

/-! ### Runs -/

theorem replayed_start (table : Table StreamInfo.streamKey) (tasks : List Task) :
    Replayed table tasks (World.start table) [] := by
  refine ⟨List.nodup_nil, fun task ↦ ?_, fun key ↦ ?_, fun _ ↦ List.Pairwise.nil⟩
  · exact iff_of_false List.not_mem_nil fun h ↦ h.2
  · rw [record_start]
    exact (congrFun Option.map_id_fun _).symm

/-- A world is consistent, and as long as no task owes from a stale record the streams are what the
tasks have made of them in the order of a log. -/
def Logged (table : Table StreamInfo.streamKey) (tasks : List Task) (world : World) : Prop :=
  Consistent table tasks world ∧
    (Sound tasks world → ∃ log, Replayed table tasks world log)

theorem logged_step {table : Table StreamInfo.streamKey} {tasks : List Task} (world : World)
    (task : ℕ) (hlogged : Logged table tasks world)
    (hcondition : StoresUnchanged tasks world task) :
    Logged table tasks (step tasks world task) := by
  obtain ⟨hconsistent, hlog⟩ := hlogged
  have hstep := stepOf_step tasks world task
  refine ⟨consistent_step hconsistent hstep hcondition, fun hsound ↦ ?_⟩
  obtain ⟨log, hreplayed⟩ := hlog (sound_of_step hstep hcondition hsound)
  exact exists_replayed_step hreplayed hconsistent hstep hcondition hsound

/-- Every run that meets the condition is logged. -/
theorem logged_run {table : Table StreamInfo.streamKey} {tasks : List Task} {actions : List ℕ}
    (hcondition : EachStepMeets (step tasks) (StoresUnchanged tasks) (World.start table) actions) :
    Logged table tasks (run (step tasks) (World.start table) actions) :=
  invariant_run (step tasks) logged_step
    ⟨consistent_start table tasks, fun _ ↦ ⟨[], replayed_start table tasks⟩⟩ hcondition

/-- What a task does to the record of a stream when it runs alone, by its number. -/
def effectAt (tasks : List Task) (task : ℕ) (info : StreamInfo) : StreamInfo :=
  tasks[task]?.elim info fun called ↦ effect called info

theorem effectAt_eq {tasks : List Task} {task : ℕ} {called : Task}
    (htask : tasks[task]? = some called) : effectAt tasks task = effect called := by
  ext1 info
  unfold effectAt
  rw [htask]
  rfl

/-- When all tasks have finished, the streams are what the tasks make of them in some order. -/
theorem exists_order {table : Table StreamInfo.streamKey} {tasks : List Task} {world : World}
    (hlog : Sound tasks world → ∃ log, Replayed table tasks world log)
    (hfinished : AllFinished tasks world) :
    ∃ order : List ℕ, order.Perm (List.range tasks.length) ∧ ∀ key, world.record key =
      (table.find? key).map (replay (effectAt tasks) order) := by
  have hprogress : ∀ {task : ℕ} {called : Task}, tasks[task]? = some called →
      world.progress task = .finished := fun htask ↦
    hfinished _ (List.getElem?_eq_some_iff.mp htask).1
  have hsound : Sound tasks world := by
    intro task stream howes
    cases howes with
    | rotating htask hrotating _ _ => cases (hprogress htask).symm.trans hrotating
    | holding htask hholding => cases (hprogress htask).symm.trans hholding
    | assigned htask hassigned => cases (hprogress htask).symm.trans hassigned
  obtain ⟨log, hreplayed⟩ := hlog hsound
  refine ⟨log, ?_, fun key ↦ ?_⟩
  · rw [List.perm_ext_iff_of_nodup hreplayed.nodup List.nodup_range]
    intro task
    rw [hreplayed.mem_iff, List.mem_range]
    refine and_iff_left_of_imp fun htask ↦ ?_
    rw [hfinished task htask]
    trivial
  · have heffect : effectNow tasks world = effectAt tasks := by
      ext1 task
      ext1 info
      refine if_neg fun hmem ↦ ?_
      obtain ⟨_, _, _, htask, hrotating⟩ := exists_rotating_of_mem_unrenewed hmem
      cases (hprogress htask).symm.trans hrotating
    rw [hreplayed.record, heffect]

/-! ### Tasks that run alone -/

/-- A task runs alone: it takes more steps than it has. -/
def runAlone (tasks : List Task) (world : World) (task : ℕ) : World :=
  run (step tasks) world (List.replicate (world.streams.rows.length + 3) task)

/-- The tasks run one after another. -/
def runSerially (tasks : List Task) (world : World) (order : List ℕ) : World :=
  order.foldl (runAlone tasks) world

/-- What a task leaves when it has run alone. -/
structure RanAlone (table : Table StreamInfo.streamKey) (tasks : List Task) (world : World)
    (task : ℕ) (world' : World) : Prop where
  consistent : Consistent table tasks world'
  finished : world'.progress task = .finished
  others : ∀ other, other ≠ task → world'.progress other = world.progress other
  record : ∀ key, world'.record key = (world.record key).map (effectAt tasks task)

section Alone

variable {table : Table StreamInfo.streamKey} {tasks : List Task} {world : World} {task : ℕ}

/-- Further steps of a task that has finished change nothing. -/
theorem run_of_finished {steps more : ℕ}
    (hfinished : (run (step tasks) world (List.replicate steps task)).progress task = .finished) :
    run (step tasks) world (List.replicate (steps + more) task) =
      run (step tasks) world (List.replicate steps task) := by
  induction more with
  | zero => rfl
  | succ more ih =>
    rw [← Nat.add_assoc, List.replicate_succ', run_append, ih]
    exact step_of_finished hfinished

/-- A task with no record to store from meets the condition. -/
theorem storesUnchanged_of_ready (hready : world.progress task = .ready) :
    StoresUnchanged tasks world task := by
  refine storesUnchanged_of_eq_none ?_
  unfold storesFrom
  rw [hready]
  split
  · contradiction
  · contradiction
  · rfl

/-- A stop that runs alone. -/
theorem stop_alone {key : String} (hconsistent : Consistent table tasks world)
    (htask : tasks[task]? = some (.adminStreamStop key)) (hready : world.progress task = .ready) :
    RanAlone table tasks world task (run (step tasks) world (List.replicate 1 task)) := by
  change RanAlone table tasks world task (step tasks world task)
  rw [step_stop htask hready]
  have hstepOf : StepOf tasks world task _ := .stop htask hready
  refine ⟨consistent_step hconsistent hstepOf (storesUnchanged_of_ready hready),
    World.progress_withProgress_self _ _ _, fun other hne ↦ progress_of_ne hstepOf hne,
    fun key' ↦ ?_⟩
  rw [World.record_withProgress, record_endStream hconsistent, effectAt_eq htask]

/-- A latency mode that is rejected when its handler runs alone. -/
theorem reject_alone {key mode : String} (hconsistent : Consistent table tasks world)
    (htask : tasks[task]? = some (.setLatencyMode key mode))
    (hready : world.progress task = .ready)
    (hreject : World.isLatencyMode mode = false ∨
      ∀ info, world.record key = some info → info.isLive = false)
    (hstep : step tasks world task = world.withProgress task .finished) :
    RanAlone table tasks world task (run (step tasks) world (List.replicate 1 task)) := by
  change RanAlone table tasks world task (step tasks world task)
  rw [hstep]
  have hstepOf : StepOf tasks world task _ := .reject htask hready hreject
  refine ⟨consistent_step hconsistent hstepOf (storesUnchanged_of_ready hready),
    World.progress_withProgress_self _ _ _, fun other hne ↦ progress_of_ne hstepOf hne,
    fun key' ↦ ?_⟩
  rw [World.record_withProgress]
  cases hrecord : world.record key' with
  | none => rfl
  | some info =>
    rw [effectAt_eq htask]
    exact congrArg some (effect_of_rejected hconsistent hreject hrecord).symm

/-- A latency mode that is set when its handler runs alone. -/
theorem set_alone {key mode : String} {stream : ℕ} (hconsistent : Consistent table tasks world)
    (htask : tasks[task]? = some (.setLatencyMode key mode))
    (hready : world.progress task = .ready) (hmode : World.isLatencyMode mode = true)
    (hfound : world.getStream key = some stream) (hlive : world.isLive stream = true) :
    RanAlone table tasks world task (run (step tasks) world (List.replicate 3 task)) := by
  set held := world.withProgress task (.holding stream) with hheld
  set written := (held.assign stream fun info ↦
    { info with latencyMode := mode }).withProgress task (.assigned stream) with hwritten
  set stored := (written.createStream stream).withProgress task .finished with hstored
  have hholding : held.progress task = .holding stream := World.progress_withProgress_self _ _ _
  have hassigned : written.progress task = .assigned stream :=
    World.progress_withProgress_self _ _ _
  have hfindOf : StepOf tasks world task held := .find htask hready hmode hfound hlive
  have hwriteOf : StepOf tasks held task written := .write htask hholding
  have hstoreOf : StepOf tasks written task stored := .store htask hassigned
  have hheldConsistent := consistent_step hconsistent hfindOf (storesUnchanged_of_ready hready)
  have hwrittenConsistent : Consistent table tasks written := by
    refine consistent_step hheldConsistent hwriteOf (storesUnchanged_of_eq_none ?_)
    unfold storesFrom
    rw [htask, hholding]
  have hcurrent : IsCurrent written stream := hwrittenConsistent.isCurrent_of_stored hfound
  have hcondition : StoresUnchanged tasks written task := by
    intro other hother
    unfold storesFrom at hother
    rw [htask, hassigned] at hother
    obtain rfl := Option.some.inj hother
    refine ⟨hcurrent, fun hrotation ↦ ?_⟩
    unfold isRotation at hrotation
    rw [htask] at hrotation
    cases hrotation
  change RanAlone table tasks world task
    (step tasks (step tasks (step tasks world task) task) task)
  rw [step_find htask hready hmode hfound hlive, ← hheld, step_write htask hholding, ← hwritten,
    step_store htask hassigned, ← hstored]
  refine ⟨consistent_step hwrittenConsistent hstoreOf hcondition,
    World.progress_withProgress_self _ _ _, fun other hne ↦ ?_, fun other ↦ ?_⟩
  · rw [progress_of_ne hstoreOf hne, progress_of_ne hwriteOf hne, progress_of_ne hfindOf hne]
  · have hrecord : stored.record other = written.record other := by
      unfold World.record
      rw [hstored, World.heap_withProgress, World.heap_createStream, World.getStream_withProgress,
        getStream_createStream_of_current hcurrent]
    rw [hrecord, hwritten, World.record_withProgress, record_assign hheldConsistent hfound,
      hheld, World.record_withProgress]
    cases hother : world.record other with
    | none => exact ite_self none
    | some info =>
      have hkey := streamKey_of_record hconsistent hother
      rw [effectAt_eq htask]
      by_cases hsame : other = key
      · obtain ⟨pointer, hpointer, hinfo⟩ := World.record_eq_some_iff.mp hother
        obtain rfl := Option.some.inj (hfound.symm.trans (hsame ▸ hpointer))
        rw [World.isLive, hinfo] at hlive
        rw [if_pos hsame]
        exact congrArg some (Eq.symm (if_pos ⟨hkey.trans hsame, hmode, hlive⟩))
      · rw [if_neg hsame]
        exact congrArg some (Eq.symm (if_neg fun h ↦ hsame (hkey.symm.trans h.1)))

/-- The latency mode handler that runs alone. -/
theorem exists_latency_alone {key mode : String} (hconsistent : Consistent table tasks world)
    (htask : tasks[task]? = some (.setLatencyMode key mode))
    (hready : world.progress task = .ready) :
    ∃ steps ≤ 3, RanAlone table tasks world task
      (run (step tasks) world (List.replicate steps task)) := by
  have hcall : step tasks world task = world.setLatencyMode task key mode :=
    step_setLatencyMode htask
  unfold World.setLatencyMode at hcall
  rw [hready] at hcall
  dsimp only at hcall
  by_cases hmode : World.isLatencyMode mode = false
  · rw [if_pos hmode] at hcall
    exact ⟨1, by omega, reject_alone hconsistent htask hready (Or.inl hmode) hcall⟩
  rw [if_neg hmode] at hcall
  cases hfound : world.getStream key with
  | none =>
    rw [hfound] at hcall
    refine ⟨1, by omega, reject_alone hconsistent htask hready (Or.inr fun info hinfo ↦ ?_) hcall⟩
    rw [World.record, hfound] at hinfo
    cases hinfo
  | some stream =>
    rw [hfound] at hcall
    dsimp only at hcall
    by_cases hlive : world.isLive stream = false
    · rw [if_pos hlive] at hcall
      refine ⟨1, by omega, reject_alone hconsistent htask hready (Or.inr fun info hinfo ↦ ?_) hcall⟩
      rw [World.record, hfound, Option.bind_some] at hinfo
      rw [World.isLive, hinfo, Option.any_some] at hlive
      exact hlive
    · exact ⟨3, le_refl 3, set_alone hconsistent htask hready (Bool.not_eq_false _ ▸ hmode) hfound
        (Bool.not_eq_false _ ▸ hlive)⟩

/-- A record that is not the renewed one stays current and live. -/
theorem current_of_renewed {stream : ℕ} {streams : List ℕ} {updated : StreamInfo}
    (hconsistent : Consistent table tasks world)
    (hprogress : world.progress task = .rotating (stream :: streams))
    (hkey : keyOf world stream = some updated.streamKey)
    {pointer : ℕ} (hpointer : pointer ∈ streams)
    (hcurrent : IsCurrent world pointer) (hlive : world.isLive pointer = true) :
    keyOf world pointer ≠ some updated.streamKey ∧
      IsCurrent ((world.allocate updated).withProgress task (.rotating streams)) pointer ∧
        ((world.allocate updated).withProgress task (.rotating streams)).isLive pointer = true := by
  obtain ⟨hnodup, hlength⟩ := hconsistent.visited task _ hprogress
  rw [List.map_cons, List.nodup_cons] at hnodup
  have hne : keyOf world pointer ≠ some updated.streamKey := fun hsame ↦
    hnodup.1 (List.mem_map.mpr ⟨pointer, hpointer, hsame.trans hkey.symm⟩)
  have hheap : (world.heap ++ [updated])[pointer]? = world.heap[pointer]? :=
    List.getElem?_append_left (hlength pointer (List.mem_cons_of_mem _ hpointer))
  refine ⟨hne, fun info hinfo ↦ ?_, ?_⟩
  · rw [World.heap_withProgress, World.heap_allocate, hheap] at hinfo
    have hinfoKey : info.streamKey ≠ updated.streamKey := fun hsame ↦
      hne ((congrArg (Option.map StreamInfo.streamKey) hinfo).trans (congrArg some hsame))
    rw [World.getStream_withProgress, World.getStream_allocate, if_neg hinfoKey]
    exact hcurrent info hinfo
  · unfold World.isLive
    rw [World.heap_withProgress, World.heap_allocate, hheap]
    exact hlive

/-- A stream that has just been renewed is not visited again. -/
theorem notMem_unrenewed_of_alone {rotator : ℕ} {outcome : RotationOutcome} {stream : ℕ}
    {streams : List ℕ} {updated : StreamInfo}
    (htask : tasks[task]? = some (.rotateAllLiveStreams rotator outcome))
    (hconsistent : Consistent table tasks world)
    (hprogress : world.progress task = .rotating (stream :: streams))
    (hothers : ∀ pointer ∈ streams, keyOf world pointer ≠ some updated.streamKey) :
    updated.streamKey ∉
      unrenewed tasks ((world.allocate updated).withProgress task (.rotating streams)) task := by
  rw [mem_unrenewed_iff htask (World.progress_withProgress_self _ task _)]
  rintro ⟨pointer, hpointer, record, hrecord, hrecordKey⟩
  rw [World.heap_withProgress, World.heap_allocate, List.getElem?_append_left
    ((hconsistent.visited task _ hprogress).2 pointer (List.mem_cons_of_mem _ hpointer))] at hrecord
  obtain ⟨info, hinfo, hrenewed⟩ := Option.bind_eq_some_iff.mp hrecord
  refine hothers pointer hpointer ?_
  unfold keyOf
  rw [hinfo, Option.map_some, (sameStream_of_renewed hrenewed).1.streamKey, hrecordKey]

/-- A renewal replaces the current record. Assumes: the stream that is visited next is current and
live. -/
theorem storesUnchanged_of_current {rotator : ℕ} {outcome : RotationOutcome} {stream : ℕ}
    {streams : List ℕ} (htask : tasks[task]? = some (.rotateAllLiveStreams rotator outcome))
    (hprogress : world.progress task = .rotating (stream :: streams))
    (hcurrent : IsCurrent world stream) (hlive : world.isLive stream = true) :
    StoresUnchanged tasks world task := by
  intro other hstores
  unfold storesFrom at hstores
  rw [htask, hprogress] at hstores
  dsimp only at hstores
  split_ifs at hstores
  · obtain rfl := Option.some.inj hstores
    exact ⟨hcurrent, fun _ ↦ hlive⟩
  · cases hstores

/-- A renewal leaves each record as it is at the end of the rotation, when what the rotation has
still to do is done to it. Assumes: the stream is current and live, and none that the rotation has
still to visit is stored under its key. -/
theorem record_renewed {rotator : ℕ} {outcome : RotationOutcome} {stream : ℕ} {streams : List ℕ}
    {updated : StreamInfo} (hconsistent : Consistent table tasks world)
    (htask : tasks[task]? = some (.rotateAllLiveStreams rotator outcome))
    (hprogress : world.progress task = .rotating (stream :: streams))
    (hcurrent : IsCurrent world stream) (hlive : world.isLive stream = true)
    (hrenewed : world.heap[stream]?.bind (renewedStream outcome) = some updated)
    (hothers : ∀ pointer ∈ streams, keyOf world pointer ≠ some updated.streamKey) (key : String) :
    (((world.allocate updated).withProgress task (.rotating streams)).record key).map (fun info ↦
        if key ∈ unrenewed tasks ((world.allocate updated).withProgress task (.rotating streams))
          task then effectAt tasks task info else info) =
      (world.record key).map fun info ↦
        if key ∈ unrenewed tasks world task then effectAt tasks task info else info := by
  rw [World.record_withProgress, record_allocate hconsistent]
  by_cases hkeySame : key = updated.streamKey
  · obtain ⟨info, hinfo, hupdated⟩ := Option.bind_eq_some_iff.mp hrenewed
    have hsame := (sameStream_of_renewed hupdated).1
    have hrecordKey : world.record updated.streamKey = some info :=
      World.record_eq_some_iff.mpr ⟨stream, hsame.streamKey ▸ hcurrent info hinfo, hinfo⟩
    rw [World.isLive, hinfo, Option.any_some] at hlive
    have hmem : updated.streamKey ∈ unrenewed tasks world task :=
      (mem_unrenewed_iff htask hprogress).mpr
        ⟨stream, List.mem_cons_self, updated, hrenewed, rfl⟩
    have heffect : effectAt tasks task info = updated :=
      (congrFun (effectAt_eq htask) info).trans (effect_of_renewed hlive hupdated)
    have hdone := notMem_unrenewed_of_alone htask hconsistent hprogress hothers
    rw [hkeySame, if_pos rfl, hrecordKey, Option.map_some, Option.map_some, if_pos hmem,
      heffect, if_neg hdone]
  · rw [if_neg hkeySame]
    simp only [mem_unrenewed_of_renewed_iff hconsistent htask hprogress hrenewed hkeySame]

/-- The rest of a rotation that runs alone renews the streams it has still to renew. Assumes: the
records it has still to visit are current and live. -/
theorem rotating_alone {rotator : ℕ} {outcome : RotationOutcome}
    (htask : tasks[task]? = some (.rotateAllLiveStreams rotator outcome)) (streams : List ℕ) :
    ∀ world, Consistent table tasks world → world.progress task = .rotating streams →
      (∀ stream ∈ streams, IsCurrent world stream ∧ world.isLive stream = true) →
      ∃ world', run (step tasks) world (List.replicate (streams.length + 1) task) = world' ∧
        Consistent table tasks world' ∧ world'.progress task = .finished ∧
          (∀ other, other ≠ task → world'.progress other = world.progress other) ∧
            ∀ key, world'.record key = (world.record key).map fun info ↦
              if key ∈ unrenewed tasks world task then effectAt tasks task info else info := by
  induction streams with
  | nil =>
    intro world hconsistent hprogress _
    have hstepOf : StepOf tasks world task _ := .release htask hprogress
    refine ⟨_, step_release htask hprogress,
      consistent_step hconsistent hstepOf (storesUnchanged_of_eq_none ?_),
      world.progress_withProgress_self task _, fun other hne ↦ progress_of_ne hstepOf hne,
      fun key ↦ ?_⟩
    · unfold storesFrom
      rw [htask, hprogress]
    · have hnil : unrenewed tasks world task = [] := by
        unfold unrenewed
        rw [htask, hprogress]
        rfl
      rw [hnil]
      simp
  | cons stream streams ih =>
    intro world hconsistent hprogress hcurrent
    have hstep := step_rotating htask hprogress
    obtain ⟨hstreamCurrent, hlive⟩ := hcurrent stream List.mem_cons_self
    have hcondition := storesUnchanged_of_current htask hprogress hstreamCurrent hlive
    change ∃ world', run (step tasks) (step tasks world task)
      (List.replicate (streams.length + 1) task) = world' ∧ _
    cases hrenewed : world.heap[stream]?.bind (renewedStream outcome) with
    | none =>
      rw [hrenewed] at hstep
      have hstepOf : StepOf tasks world task _ := .skip htask hprogress hrenewed
      obtain ⟨world', hrun, hconsistent', hfinished, hothers, hrecord⟩ := ih _
        (consistent_step hconsistent hstepOf hcondition)
        (world.progress_withProgress_self task _)
        fun other hother ↦ hcurrent other (List.mem_cons_of_mem _ hother)
      refine ⟨world', (congrArg (fun first ↦ run (step tasks) first _) hstep).trans hrun,
        hconsistent', hfinished, fun other hne ↦ ?_, fun key ↦ ?_⟩
      · rw [hothers other hne]
        exact progress_of_ne hstepOf hne
      · rw [hrecord, unrenewed_of_skip htask hprogress hrenewed]
        rfl
    | some updated =>
      rw [hrenewed] at hstep
      obtain ⟨info, hinfo, hupdated⟩ := Option.bind_eq_some_iff.mp hrenewed
      obtain ⟨hsame, _⟩ := sameStream_of_renewed hupdated
      have hkey : keyOf world stream = some updated.streamKey := by
        unfold keyOf
        rw [hinfo, Option.map_some, hsame.streamKey]
      have hrest := fun other hother ↦ current_of_renewed hconsistent hprogress hkey hother
        (hcurrent other (List.mem_cons_of_mem _ hother)).1
        (hcurrent other (List.mem_cons_of_mem _ hother)).2
      have hstepOf : StepOf tasks world task _ := .renew htask hprogress hrenewed
      obtain ⟨world', hrun, hconsistent', hfinished, hothers, hrecord⟩ := ih _
        (consistent_step hconsistent hstepOf hcondition)
        (World.progress_withProgress_self _ task _) fun other hother ↦ (hrest other hother).2
      refine ⟨world', (congrArg (fun first ↦ run (step tasks) first _) hstep).trans hrun,
        hconsistent', hfinished, fun other hne ↦ ?_, fun key ↦ ?_⟩
      · rw [hothers other hne]
        exact progress_of_ne hstepOf hne
      · rw [hrecord]
        exact record_renewed hconsistent htask hprogress hstreamCurrent hlive hrenewed
          (fun other hother ↦ (hrest other hother).1) key

/-- A rotation that runs alone. Assumes: no rotation is running. -/
theorem rotation_alone {rotator : ℕ} {outcome : RotationOutcome}
    (hconsistent : Consistent table tasks world)
    (htask : tasks[task]? = some (.rotateAllLiveStreams rotator outcome))
    (hready : world.progress task = .ready)
    (hquiet : ∀ other streams, world.progress other ≠ .rotating streams) :
    ∃ steps ≤ world.streams.rows.length + 2, RanAlone table tasks world task
      (run (step tasks) world (List.replicate steps task)) := by
  have hfree : mutexHeld tasks world rotator = false := by
    refine List.any_eq_false.mpr fun other _ ↦ ?_
    split
    case h_1 other' outcome' streams _ hrotating => exact absurd hrotating (hquiet other streams)
    case h_2 => exact Bool.false_ne_true
  have hstep := step_take htask hready hfree
  have hstepOf : StepOf tasks world task _ := .take htask hready
  have hperm := outcome.visit_perm world.getLiveStreams
  obtain ⟨world', hrun, hconsistent', hfinished, hothers, hrecord⟩ := rotating_alone htask
    (outcome.visit world.getLiveStreams) _
    (consistent_step hconsistent hstepOf (storesUnchanged_of_ready hready))
    (world.progress_withProgress_self task _) fun stream hstream ↦ by
      obtain ⟨⟨key, hkey⟩, hlive⟩ := World.mem_getLiveStreams_iff.mp (hperm.mem_iff.mp hstream)
      exact ⟨hconsistent.isCurrent_of_stored hkey, hlive⟩
  refine ⟨(outcome.visit world.getLiveStreams).length + 2, ?_, ?_⟩
  · have hlength := (List.length_filter_le world.isLive (world.streams.rows.map Prod.snd))
    rw [List.length_map] at hlength
    rw [hperm.length_eq]
    exact Nat.add_le_add_right hlength 2
  · have hrun' : run (step tasks) world
        (List.replicate ((outcome.visit world.getLiveStreams).length + 2) task) = world' :=
      (congrArg (fun first ↦ run (step tasks) first _) hstep).trans hrun
    rw [hrun']
    refine ⟨hconsistent', hfinished, fun other hne ↦ ?_, fun key ↦ ?_⟩
    · rw [hothers other hne]
      exact progress_of_ne hstepOf hne
    · rw [hrecord, World.record_withProgress]
      cases hcurrent : world.record key with
      | none => rfl
      | some info =>
        rw [Option.map_some, Option.map_some]
        refine congrArg some ?_
        split_ifs with hmem
        · rfl
        · rw [effectAt_eq htask]
          by_cases hlive : info.isLive = true
          · have hkey := streamKey_of_record hconsistent hcurrent
            rw [← effectNow_of_notMem htask (hkey.symm ▸ hmem)]
            exact (effectNow_of_take htask hcurrent hlive (.refl info)).symm
          · exact (effect_of_ended _ (Bool.not_eq_true _ ▸ hlive)).symm

/-- Every task that runs alone finishes, and has its effect on each record. Assumes: the task has
not begun, and no rotation is running. -/
theorem ranAlone_runAlone (hconsistent : Consistent table tasks world) (htask : task < tasks.length)
    (hready : world.progress task = .ready)
    (hquiet : ∀ other streams, world.progress other ≠ .rotating streams) :
    RanAlone table tasks world task (runAlone tasks world task) := by
  obtain ⟨steps, hsteps, hran⟩ : ∃ steps ≤ world.streams.rows.length + 3,
      RanAlone table tasks world task (run (step tasks) world (List.replicate steps task)) := by
    have hcalled := List.getElem?_eq_getElem htask
    cases hcall : tasks[task] with
    | rotateAllLiveStreams rotator outcome =>
      obtain ⟨steps, hsteps, hran⟩ :=
        rotation_alone hconsistent (hcalled.trans (congrArg some hcall)) hready hquiet
      exact ⟨steps, by omega, hran⟩
    | adminStreamStop key =>
      exact ⟨1, by omega, stop_alone hconsistent (hcalled.trans (congrArg some hcall)) hready⟩
    | setLatencyMode key mode =>
      obtain ⟨steps, hsteps, hran⟩ :=
        exists_latency_alone hconsistent (hcalled.trans (congrArg some hcall)) hready
      exact ⟨steps, by omega, hran⟩
  obtain ⟨more, hmore⟩ := Nat.exists_eq_add_of_le hsteps
  unfold runAlone
  rw [hmore, run_of_finished hran.finished]
  exact hran

end Alone

/-- The tasks of an order run one after another from the start, and each has its effect on what the
ones before it have left. -/
theorem ranSerially {table : Table StreamInfo.streamKey} {tasks : List Task} (order : List ℕ)
    (hnodup : order.Nodup) (hlength : ∀ task ∈ order, task < tasks.length) :
    Consistent table tasks (runSerially tasks (World.start table) order) ∧
      (∀ task, (runSerially tasks (World.start table) order).progress task =
        if task ∈ order then .finished else .ready) ∧
      ∀ key, (runSerially tasks (World.start table) order).record key =
        (table.find? key).map (replay (effectAt tasks) order) := by
  induction order using List.reverseRecOn with
  | nil =>
    refine ⟨consistent_start table tasks, fun _ ↦ rfl, fun key ↦ ?_⟩
    exact (record_start table key).trans (congrFun Option.map_id_fun _).symm
  | append_singleton order task ih =>
    obtain ⟨hnodup', hlast⟩ := (List.nodup_append.mp hnodup).imp_right And.right
    have hnew : task ∉ order := fun hmem ↦ hlast task hmem task (List.mem_singleton_self task) rfl
    obtain ⟨hconsistent, hprogress, hrecord⟩ :=
      ih hnodup' fun other hother ↦ hlength other (List.mem_append_left _ hother)
    have hran := ranAlone_runAlone hconsistent
      (hlength task (List.mem_append_right _ (List.mem_singleton_self task)))
      ((hprogress task).trans (if_neg hnew)) fun other streams hrotating ↦ by
        rw [hprogress] at hrotating
        split_ifs at hrotating
    have hrun : runSerially tasks (World.start table) (order ++ [task]) =
        runAlone tasks (runSerially tasks (World.start table) order) task :=
      List.foldl_append
    rw [hrun]
    refine ⟨hran.consistent, fun other ↦ ?_, fun key ↦ ?_⟩
    · by_cases hne : other = task
      · rw [hne, hran.finished,
          if_pos (List.mem_append_right _ (List.mem_singleton_self task))]
      · rw [hran.others other hne, hprogress]
        exact if_congr (by simp [hne]) rfl rfl
    · rw [hran.record, hrecord, Option.map_map]
      refine congrArg (Option.map · _) (funext fun first ↦ ?_)
      rw [replay_append]
      rfl

/-! ### No update is lost -/

/-- When all tasks have finished, the streams are those of some serial order of the tasks. -/
def SerialResult (table : Table StreamInfo.streamKey) (tasks : List Task) (actions : List ℕ) :
    Prop :=
  AllFinished tasks (run (step tasks) (World.start table) actions) →
    ∃ order : List ℕ, order.Perm (List.range tasks.length) ∧
      AllFinished tasks (runSerially tasks (World.start table) order) ∧
      ∀ key, (run (step tasks) (World.start table) actions).record key =
        (runSerially tasks (World.start table) order).record key

/-- A stream that has ended at some time has ended at the end. -/
def EndedStaysEnded (table : Table StreamInfo.streamKey) (tasks : List Task) (actions : List ℕ) :
    Prop :=
  ∀ first second, actions = first ++ second → ∀ key,
    Ended (run (step tasks) (World.start table) first) key →
      Ended (run (step tasks) (World.start table) actions) key

/-- A key of a stream that has been replaced at some time is not its key at the end, if the
generated keys are fresh. -/
def ReplacedKeysStayAway (table : Table StreamInfo.streamKey) (tasks : List Task)
    (actions : List ℕ) : Prop :=
  FreshKeys table tasks → ∀ first second third, actions = first ++ second ++ third → ∀ key old,
    currentKey (run (step tasks) (World.start table) first) key = some old →
      currentKey (run (step tasks) (World.start table) (first ++ second)) key ≠ some old →
        currentKey (run (step tasks) (World.start table) actions) key ≠ some old

/-- The result of a run that meets the condition is that of a serial order. -/
theorem serialResult {table : Table StreamInfo.streamKey} {tasks : List Task} {actions : List ℕ}
    (hcondition : EachStepMeets (step tasks) (StoresUnchanged tasks) (World.start table) actions) :
    SerialResult table tasks actions := by
  intro hfinished
  obtain ⟨order, hperm, hrecord⟩ := exists_order (logged_run hcondition).2 hfinished
  have hlength : ∀ task ∈ order, task < tasks.length := fun task htask ↦
    List.mem_range.mp (hperm.mem_iff.mp htask)
  have hnodup : order.Nodup := hperm.nodup_iff.mpr List.nodup_range
  have hran : (∀ task, (runSerially tasks (World.start table) order).progress task =
        if task ∈ order then .finished else .ready) ∧
      ∀ key, (runSerially tasks (World.start table) order).record key =
        (table.find? key).map (replay (effectAt tasks) order) :=
    (ranSerially order hnodup hlength).2
  obtain ⟨hprogress, hserial⟩ := hran
  refine ⟨order, hperm, fun task htask ↦ ?_, fun key ↦ (hrecord key).trans (hserial key).symm⟩
  rw [hprogress, if_pos (hperm.mem_iff.mpr (List.mem_range.mpr htask))]

/-- No update of a stream is lost in a run that meets the condition: the streams are those of a
serial order when all tasks have finished, no stream that has ended becomes live again, and no key
that has been replaced comes back. -/
theorem updates_kept (table : Table StreamInfo.streamKey) (tasks : List Task) (actions : List ℕ)
    (hcondition : EachStepMeets (step tasks) (StoresUnchanged tasks) (World.start table) actions) :
    SerialResult table tasks actions ∧ EndedStaysEnded table tasks actions ∧
      ReplacedKeysStayAway table tasks actions := by
  refine ⟨serialResult hcondition, ?_, ?_⟩
  · rintro first second rfl key hended
    rw [run_append]
    exact ended_run hended ((eachStepMeets_append (step tasks)).mp hcondition).2
  · rintro hfresh first second third rfl key old hold hreplaced
    obtain ⟨hboth, hthird⟩ := (eachStepMeets_append (step tasks)).mp hcondition
    obtain ⟨hfirst, hsecond⟩ := (eachStepMeets_append (step tasks)).mp hboth
    have hlater := later_run hsecond
    have hlater' := later_run hthird
    rw [← run_append] at hlater hlater'
    exact currentKey_ne_of_replaced hlater (run_append (step tasks) _ _ _ ▸ hlater')
      (consistent_run hfirst) (consistent_run hcondition) (keysDiffer_run hfresh hcondition) hold
      hreplaced

/-- A live stream that is old enough to get a new key. -/
def oldStream (key : String) : StreamInfo where
  streamKey := key
  title := "title"
  originURL := "http://origin.test/live"
  encryptKey := "key-0"
  encryptIV := ""
  cipherSuite := "chacha20-poly1305"
  isLive := true
  createdAt := 0
  latencyMode := latencyUltra

/-- A table with one live stream. -/
def oneStream : Table StreamInfo.streamKey := Table.empty.put (oldStream "stream-1")

/-- A rotation that walks over the map in order and generates one key for each stream. -/
def rotationTo (newKey : String) : RotationOutcome where
  visit := id
  visit_perm _ := List.Perm.refl _
  now _ := keyRotationInterval
  generateKey _ _ := some (newKey, "")

/-- A rotation that walks over the map in the other direction. -/
def backwardRotationTo (newKey : String) : RotationOutcome where
  visit := List.reverse
  visit_perm := List.reverse_perm
  now _ := keyRotationInterval
  generateKey _ _ := some (newKey, "")

/-- A rotation, a stop and a change of the mode of one stream. -/
def threeTasks : List Task :=
  [.rotateAllLiveStreams 0 (rotationTo "key-1"), .setLatencyMode "stream-1" latencyStandard,
    .adminStreamStop "stream-1"]

/-- A witness of `updates_kept`: the rotation begins before the mode is set and renews the stream
after it, and then the stream is stopped. -/
theorem updates_kept_witness :
    SerialResult oneStream threeTasks [1, 0, 1, 1, 0, 2, 0] ∧
      EndedStaysEnded oneStream threeTasks [1, 0, 1, 1, 0, 2, 0] ∧
      ReplacedKeysStayAway oneStream threeTasks [1, 0, 1, 1, 0, 2, 0] ∧
      AllFinished threeTasks
        (run (step threeTasks) (World.start oneStream) [1, 0, 1, 1, 0, 2, 0]) := by
  obtain ⟨hserial, hended, hkeys⟩ :=
    updates_kept oneStream threeTasks [1, 0, 1, 1, 0, 2, 0] (by decide +kernel)
  exact ⟨hserial, hended, hkeys, by decide +kernel⟩

/-- A rotation and a stop of one stream. -/
def rotationAndStop : List Task :=
  [.rotateAllLiveStreams 0 (rotationTo "key-1"), .adminStreamStop "stream-1"]

/-- A rotation and a change of the mode of one stream. -/
def rotationAndMode : List Task :=
  [.rotateAllLiveStreams 0 (rotationTo "key-1"), .setLatencyMode "stream-1" latencyStandard]

/-- The only key that is generated for the stream is the one of the rotation. -/
theorem issuedKey_rotationAndMode {task : ℕ} {key issued : String}
    (hissued : issuedKey oneStream rotationAndMode task key = some issued) :
    task = 0 ∧ issued = "key-1" := by
  unfold issuedKey at hissued
  split at hissued
  case h_1 rotator outcome first htask hfirst =>
    have hrow := (Table.find?_eq_some_iff.mp hfirst).1
    obtain rfl : first = oldStream "stream-1" := List.mem_singleton.mp hrow
    obtain ⟨hlength, hcalled⟩ := List.getElem?_eq_some_iff.mp htask
    have hzero : task = 0 := by
      by_contra hne
      obtain rfl : task = 1 := by
        change task < 2 at hlength
        omega
      cases hcalled
    subst hzero
    obtain ⟨_, rfl⟩ := Task.rotateAllLiveStreams.inj hcalled
    have hkey : (renewedStream (rotationTo "key-1") (oldStream "stream-1")).map
        StreamInfo.encryptKey = some "key-1" := by decide +kernel
    exact ⟨rfl, Option.some.inj (hissued.symm.trans hkey)⟩
  case h_2 => cases hissued

theorem freshKeys_rotationAndMode : FreshKeys oneStream rotationAndMode := by
  refine ⟨fun task key first hfirst hissued ↦ ?_, fun task other key issued hissued hother ↦ ?_⟩
  · obtain rfl : first = oldStream "stream-1" :=
      List.mem_singleton.mp (Table.find?_eq_some_iff.mp hfirst).1
    exact absurd (issuedKey_rotationAndMode hissued).2 (by decide)
  · rw [(issuedKey_rotationAndMode hissued).1, (issuedKey_rotationAndMode hother).1]

/-- Two rotations of different rotators over two streams, in opposite directions. -/
def crossingRotations : List Task :=
  [.rotateAllLiveStreams 0 (rotationTo "key-1"),
    .rotateAllLiveStreams 1 (backwardRotationTo "key-2")]

/-- Without the condition each part fails: a rotation that has begun before the stop makes the ended
stream live again, which no serial order does; two rotations that cross leave each stream with the
key of another one; and the mode handler stores the record that a rotation has replaced, and with it
the replaced key. -/
theorem updates_kept_counterexample :
    ¬ SerialResult oneStream rotationAndStop [0, 1, 0, 0] ∧
      ¬ EndedStaysEnded oneStream rotationAndStop [0, 1, 0, 0] ∧
      ¬ SerialResult (oneStream.put (oldStream "stream-2")) crossingRotations
        [0, 1, 0, 1, 0, 1, 0, 1] ∧
      ¬ ReplacedKeysStayAway oneStream rotationAndMode [1, 0, 0, 0, 1, 1] ∧
      ¬ ∀ table tasks actions, SerialResult table tasks actions ∧
        EndedStaysEnded table tasks actions ∧ ReplacedKeysStayAway table tasks actions := by
  have hserial : ¬ SerialResult oneStream rotationAndStop [0, 1, 0, 0] := by
    intro hresult
    obtain ⟨order, hperm, _, hrecord⟩ := hresult (by decide +kernel)
    have hnone : ∀ order ∈ (List.range 2).permutations',
        (run (step rotationAndStop) (World.start oneStream) [0, 1, 0, 0]).record "stream-1" ≠
          (runSerially rotationAndStop (World.start oneStream) order).record "stream-1" := by
      decide +kernel
    exact hnone order (List.mem_permutations'.mpr hperm) (hrecord "stream-1")
  have hended : ¬ EndedStaysEnded oneStream rotationAndStop [0, 1, 0, 0] := by
    intro hresult
    exact absurd (hresult [0, 1] [0, 0] rfl "stream-1" (by decide +kernel)) (by decide +kernel)
  have hcrossing : ¬ SerialResult (oneStream.put (oldStream "stream-2")) crossingRotations
      [0, 1, 0, 1, 0, 1, 0, 1] := by
    intro hresult
    obtain ⟨order, hperm, _, hrecord⟩ := hresult (by decide +kernel)
    have hnone : ∀ order ∈ (List.range 2).permutations',
        ¬ ((run (step crossingRotations) (World.start (oneStream.put (oldStream "stream-2")))
            [0, 1, 0, 1, 0, 1, 0, 1]).record "stream-1" =
          (runSerially crossingRotations (World.start (oneStream.put (oldStream "stream-2")))
            order).record "stream-1" ∧
        (run (step crossingRotations) (World.start (oneStream.put (oldStream "stream-2")))
            [0, 1, 0, 1, 0, 1, 0, 1]).record "stream-2" =
          (runSerially crossingRotations (World.start (oneStream.put (oldStream "stream-2")))
            order).record "stream-2") := by
      decide +kernel
    exact hnone order (List.mem_permutations'.mpr hperm) ⟨hrecord "stream-1", hrecord "stream-2"⟩
  have hkeys : ¬ ReplacedKeysStayAway oneStream rotationAndMode [1, 0, 0, 0, 1, 1] := by
    intro hresult
    exact absurd (hresult freshKeys_rotationAndMode [1] [0, 0, 0] [1, 1] rfl "stream-1" "key-0"
      (by decide +kernel) (by decide +kernel)) (by decide +kernel)
  exact ⟨hserial, hended, hcrossing, hkeys, fun hall ↦ hserial (hall _ _ _).1⟩

end LiveCDN.Controller.SerialOrder
