import LiveCDN.Controller.NodeStore
import LiveCDN.Controller.StreamStore
import LiveCDN.Library.GuardedRun
import LiveCDN.Library.Utf8Text

/-!
# Operations on shared stream records

`controller/keyrotate.go` and the handlers of `controller/server.go` that stop a stream and set its
latency mode, at the grain at which they can interleave: each call of the store and each write to a
field of a record is one step. The store keeps pointers to records. A stop and a new latency mode
are written into the record that is stored, while a rotation stores a new record in its place.

A task is one call of `RotateAllLiveStreams`, of the stop handler or of the latency mode handler.
`step` lets one task take its next step; `stepOf_step` lists what a step can do.

Scope. The log and audit entries are left out; the keys of stored streams are generated, and longer
than the eight bytes that the log lines cut from them. What a rotation finds on the clock, the order
in which it walks over the map and the outcome of `GenerateKey` are parameters of the rotation. A
field that a task only reads is read in the step of the store call next to it.
-/

set_option autoImplicit false
set_option relaxedAutoImplicit false

namespace LiveCDN.Controller.KeyRotation

open Library.KeyedTable Library.GuardedRun StreamStore

/-! ### New keys -/

/-- `CipherSuite`. -/
inductive CipherSuite
  | chaCha20
  | aes128
  deriving DecidableEq, Repr

/-- `NormalizeCipherSuite`. -/
def normalizeCipherSuite (s : String) : Except String CipherSuite :=
  let name := String.ofList ((Library.Utf8Text.trim s.toList).map Char.toLower)
  if name = "" ∨ name = "chacha20" ∨ name = "chacha20-poly1305" then .ok .chaCha20
  else if name = "aes" ∨ name = "aes128" ∨ name = "aes-128" ∨ name = "aes-128-cbc" then .ok .aes128
  else .error ("unsupported cipher suite: " ++ s)

/-- `keyRotationInterval`. -/
def keyRotationInterval : ℕ := 10 * NodeStore.minute

/-- What the runtime decides while a rotation runs: the order of the walk over the streams, the
clock at each stream, and the key and the IV that are generated for it, if that succeeds. -/
structure RotationOutcome where
  visit : List ℕ → List ℕ
  visit_perm : ∀ streams, (visit streams).Perm streams
  now : String → ℕ
  generateKey : String → CipherSuite → Option (String × String)

/-- The record that a rotation stores in place of one, if it does not skip the stream. -/
def renewedStream (outcome : RotationOutcome) (stream : StreamInfo) : Option StreamInfo :=
  if outcome.now stream.streamKey - stream.createdAt < keyRotationInterval then none
  else
    match normalizeCipherSuite stream.cipherSuite with
    | .error _ => none
    | .ok suite =>
      match outcome.generateKey stream.streamKey suite with
      | none => none
      | some (newKey, newIV) =>
        some {
          streamKey := stream.streamKey
          title := stream.title
          originURL := stream.originURL
          encryptKey := newKey
          encryptIV := newIV
          cipherSuite := stream.cipherSuite
          isLive := true
          createdAt := stream.createdAt
          latencyMode := "" }

/-- A rotation stores a record in place of one exactly when the stream is due, its cipher suite is
known and a key is generated: it has that key, it is live, and it has no latency mode. -/
theorem renewedStream_eq_some_iff {outcome : RotationOutcome} {stream updated : StreamInfo} :
    renewedStream outcome stream = some updated ↔
      keyRotationInterval ≤ outcome.now stream.streamKey - stream.createdAt ∧
        ∃ suite, normalizeCipherSuite stream.cipherSuite = .ok suite ∧
          ∃ newKey newIV, outcome.generateKey stream.streamKey suite = some (newKey, newIV) ∧
            updated = { stream with
              encryptKey := newKey
              encryptIV := newIV
              isLive := true
              latencyMode := "" } := by
  unfold renewedStream
  by_cases hyoung : outcome.now stream.streamKey - stream.createdAt < keyRotationInterval
  · rw [if_pos hyoung]
    exact iff_of_false nofun fun hdue ↦ absurd hyoung (not_lt.mpr hdue.1)
  · rw [if_neg hyoung, and_iff_right (not_lt.mp hyoung)]
    cases normalizeCipherSuite stream.cipherSuite with
    | error message => simp
    | ok suite =>
      cases hkey : outcome.generateKey stream.streamKey suite with
      | none => simp [hkey]
      | some keyIV =>
        obtain ⟨newKey, newIV⟩ := keyIV
        simp [hkey, eq_comm]

/-! ### Tasks -/

/-- A call of `RotateAllLiveStreams` of a rotator, of `handleAdminStreamStop` or of
`handleSetLatencyMode`. -/
inductive Task
  | rotateAllLiveStreams (rotator : ℕ) (outcome : RotationOutcome)
  | adminStreamStop (streamKey : String)
  | setLatencyMode (streamKey mode : String)

/-- How far a task has come: a rotation knows the records it has still to visit, and the latency
mode handler the record it has found, before and after it has written to it. -/
inductive Progress
  | ready
  | rotating (streams : List ℕ)
  | holding (stream : ℕ)
  | assigned (stream : ℕ)
  | finished
  deriving DecidableEq

/-- The records that have been allocated, the map from stream keys to pointers, and the tasks. -/
structure World where
  heap : List StreamInfo
  streams : Table (Prod.fst : String × ℕ → String)
  progress : ℕ → Progress

namespace World

/-- The world with another progress of one task. -/
def withProgress (world : World) (task : ℕ) (progress : Progress) : World :=
  { world with progress := Function.update world.progress task progress }

/-- `GetStream`. -/
def getStream (world : World) (key : String) : Option ℕ :=
  (world.streams.find? key).map Prod.snd

/-- The record of a stream. -/
def record (world : World) (key : String) : Option StreamInfo :=
  (world.getStream key).bind fun stream ↦ world.heap[stream]?

/-- A pointer leads to a live record. -/
def isLive (world : World) (stream : ℕ) : Bool :=
  world.heap[stream]?.any StreamInfo.isLive

/-- `GetLiveStreams`, in the order of the map. -/
def getLiveStreams (world : World) : List ℕ :=
  (world.streams.rows.map Prod.snd).filter world.isLive

/-- `CreateStream`. -/
def createStream (world : World) (stream : ℕ) : World :=
  match world.heap[stream]? with
  | none => world
  | some info => { world with streams := world.streams.put (info.streamKey, stream) }

/-- A write to the fields of a record. -/
def assign (world : World) (stream : ℕ) (write : StreamInfo → StreamInfo) : World :=
  { world with heap := world.heap.modify stream write }

/-- `EndStream`. -/
def endStream (world : World) (key : String) : World :=
  match world.getStream key with
  | none => world
  | some stream => world.assign stream fun info ↦ { info with isLive := false }

/-- One turn of the loop of `RotateAllLiveStreams`: the new record is allocated and stored. -/
def rotateStream (world : World) (outcome : RotationOutcome) (stream : ℕ) : World :=
  match world.heap[stream]?.bind (renewedStream outcome) with
  | none => world
  | some updated =>
    ({ world with heap := world.heap ++ [updated] } : World).createStream world.heap.length

/-- The streams of a table, each in a record of its own, before any task has begun. -/
def start (table : Table StreamInfo.streamKey) : World where
  heap := table.rows
  streams := {
    rows := table.rows.zipIdx.map fun entry ↦ (entry.1.streamKey, entry.2)
    distinct := by
      rw [List.map_map]
      have hkeys : (table.rows.zipIdx.map fun entry ↦ entry.1.streamKey) =
          table.rows.map StreamInfo.streamKey := by
        change table.rows.zipIdx.map (StreamInfo.streamKey ∘ Prod.fst) = _
        rw [← List.map_map, List.zipIdx_map_fst]
      exact hkeys ▸ table.distinct }
  progress _ := .ready

/-- The next step of a call of `RotateAllLiveStreams`; `held` says that another call of the same
rotator holds its mutex. -/
def rotateAllLiveStreams (world : World) (task : ℕ) (held : Bool) (outcome : RotationOutcome) :
    World :=
  match world.progress task with
  | .ready =>
    if held = true then world
    else world.withProgress task (.rotating (outcome.visit world.getLiveStreams))
  | .rotating [] => world.withProgress task .finished
  | .rotating (stream :: streams) =>
    (world.rotateStream outcome stream).withProgress task (.rotating streams)
  | _ => world

/-- The only step of `handleAdminStreamStop`. -/
def adminStreamStop (world : World) (task : ℕ) (key : String) : World :=
  match world.progress task with
  | .ready => (world.endStream key).withProgress task .finished
  | _ => world

/-- The modes that `handleSetLatencyMode` accepts. -/
def isLatencyMode (mode : String) : Bool :=
  decide (mode = latencyUltra ∨ mode = latencyStandard ∨ mode = latencyResilient)

/-- The next step of `handleSetLatencyMode`: the stream is looked up and found live, its mode is
written, and it is stored again. -/
def setLatencyMode (world : World) (task : ℕ) (key mode : String) : World :=
  match world.progress task with
  | .ready =>
    if isLatencyMode mode = false then world.withProgress task .finished
    else
      match world.getStream key with
      | none => world.withProgress task .finished
      | some stream =>
        if world.isLive stream = false then world.withProgress task .finished
        else world.withProgress task (.holding stream)
  | .holding stream =>
    (world.assign stream fun info ↦ { info with latencyMode := mode }).withProgress task
      (.assigned stream)
  | .assigned stream => (world.createStream stream).withProgress task .finished
  | _ => world

end World

/-- A call of a rotator is between taking and releasing its mutex. -/
def mutexHeld (tasks : List Task) (world : World) (rotator : ℕ) : Bool :=
  (List.range tasks.length).any fun task ↦
    match tasks[task]?, world.progress task with
    | some (.rotateAllLiveStreams other _), .rotating _ => decide (other = rotator)
    | _, _ => false

/-- The world after the next step of a task. -/
def step (tasks : List Task) (world : World) (task : ℕ) : World :=
  match tasks[task]? with
  | none => world
  | some (.rotateAllLiveStreams rotator outcome) =>
    world.rotateAllLiveStreams task (mutexHeld tasks world rotator) outcome
  | some (.adminStreamStop key) => world.adminStreamStop task key
  | some (.setLatencyMode key mode) => world.setLatencyMode task key mode

/-- Every task has finished. -/
def AllFinished (tasks : List Task) (world : World) : Prop :=
  ∀ task < tasks.length, world.progress task = .finished

instance (tasks : List Task) (world : World) : Decidable (AllFinished tasks world) :=
  inferInstanceAs (Decidable (∀ task < tasks.length, world.progress task = .finished))

/-! ### What a step can do -/

namespace World

variable (world : World)

@[simp] theorem heap_withProgress (task : ℕ) (progress : Progress) :
    (world.withProgress task progress).heap = world.heap := rfl

@[simp] theorem getStream_withProgress (task : ℕ) (progress : Progress) (key : String) :
    (world.withProgress task progress).getStream key = world.getStream key := rfl

@[simp] theorem record_withProgress (task : ℕ) (progress : Progress) (key : String) :
    (world.withProgress task progress).record key = world.record key := rfl

@[simp] theorem heap_assign (stream : ℕ) (write : StreamInfo → StreamInfo) :
    (world.assign stream write).heap = world.heap.modify stream write := rfl

@[simp] theorem getStream_assign (stream : ℕ) (write : StreamInfo → StreamInfo) (key : String) :
    (world.assign stream write).getStream key = world.getStream key := rfl

theorem progress_withProgress_self (task : ℕ) (progress : Progress) :
    (world.withProgress task progress).progress task = progress :=
  Function.update_self _ _ _

theorem progress_withProgress_of_ne {task other : ℕ} (hother : other ≠ task)
    (progress : Progress) :
    (world.withProgress task progress).progress other = world.progress other :=
  Function.update_of_ne hother _ _

@[simp] theorem heap_createStream (stream : ℕ) :
    (world.createStream stream).heap = world.heap := by
  unfold createStream
  cases world.heap[stream]? <;> rfl

@[simp] theorem progress_createStream (stream : ℕ) :
    (world.createStream stream).progress = world.progress := by
  unfold createStream
  cases world.heap[stream]? <;> rfl

@[simp] theorem progress_endStream (key : String) :
    (world.endStream key).progress = world.progress := by
  unfold endStream
  cases world.getStream key <;> rfl

/-- A record is stored under a key exactly when the pointer of the key leads to it. -/
theorem record_eq_some_iff {world : World} {key : String} {info : StreamInfo} :
    world.record key = some info ↔
      ∃ stream, world.getStream key = some stream ∧ world.heap[stream]? = some info :=
  Option.bind_eq_some_iff

/-- A pointer is stored under a key exactly when the map has an entry for the two. -/
theorem getStream_eq_some_iff {world : World} {key : String} {stream : ℕ} :
    world.getStream key = some stream ↔ (key, stream) ∈ world.streams.rows := by
  unfold getStream
  rw [Option.map_eq_some_iff, Table.mem_rows_iff_find?]
  constructor
  · rintro ⟨⟨found, pointer⟩, hentry, rfl⟩
    obtain rfl : found = key := Table.key_of_find? hentry
    exact hentry
  · intro hentry
    exact ⟨(key, stream), hentry, rfl⟩

/-- `GetLiveStreams` returns the pointers that are stored under a key and lead to a live record. -/
theorem mem_getLiveStreams_iff {world : World} {stream : ℕ} :
    stream ∈ world.getLiveStreams ↔
      (∃ key, world.getStream key = some stream) ∧ world.isLive stream = true := by
  unfold getLiveStreams
  rw [List.mem_filter, List.mem_map]
  refine and_congr_left fun _ ↦ ?_
  constructor
  · rintro ⟨⟨key, pointer⟩, hentry, rfl⟩
    exact ⟨key, getStream_eq_some_iff.mpr hentry⟩
  · rintro ⟨key, hkey⟩
    exact ⟨(key, stream), getStream_eq_some_iff.mp hkey, rfl⟩

/-- A new record that is stored under its key. -/
def allocate (updated : StreamInfo) : World :=
  { world with
    heap := world.heap ++ [updated]
    streams := world.streams.put (updated.streamKey, world.heap.length) }

@[simp] theorem heap_allocate (updated : StreamInfo) :
    (world.allocate updated).heap = world.heap ++ [updated] := rfl

theorem getStream_allocate (updated : StreamInfo) (key : String) :
    (world.allocate updated).getStream key =
      if key = updated.streamKey then some world.heap.length else world.getStream key := by
  unfold getStream allocate
  rw [Table.find?_put _ rfl]
  split_ifs <;> rfl

/-- One turn of the loop of a rotation, by what it does to the stream. -/
theorem rotateStream_eq (outcome : RotationOutcome) (stream : ℕ) :
    world.rotateStream outcome stream =
      (world.heap[stream]?.bind (renewedStream outcome)).elim world world.allocate := by
  unfold rotateStream
  cases world.heap[stream]?.bind (renewedStream outcome) with
  | none => rfl
  | some updated =>
    have hupdated : (world.heap ++ [updated])[world.heap.length]? = some updated :=
      List.getElem?_concat_length
    change ({ world with heap := world.heap ++ [updated] } : World).createStream
      world.heap.length = world.allocate updated
    unfold createStream
    rw [hupdated]
    rfl

end World

/-- What the next step of a task can do. -/
inductive StepOf (tasks : List Task) (world : World) (task : ℕ) : World → Prop
  | idle : StepOf tasks world task world
  | take {rotator : ℕ} {outcome : RotationOutcome}
      (htask : tasks[task]? = some (.rotateAllLiveStreams rotator outcome))
      (hprogress : world.progress task = .ready) :
      StepOf tasks world task
        (world.withProgress task (.rotating (outcome.visit world.getLiveStreams)))
  | skip {rotator : ℕ} {outcome : RotationOutcome} {stream : ℕ} {streams : List ℕ}
      (htask : tasks[task]? = some (.rotateAllLiveStreams rotator outcome))
      (hprogress : world.progress task = .rotating (stream :: streams))
      (hskip : world.heap[stream]?.bind (renewedStream outcome) = none) :
      StepOf tasks world task (world.withProgress task (.rotating streams))
  | renew {rotator : ℕ} {outcome : RotationOutcome} {stream : ℕ} {streams : List ℕ}
      {updated : StreamInfo}
      (htask : tasks[task]? = some (.rotateAllLiveStreams rotator outcome))
      (hprogress : world.progress task = .rotating (stream :: streams))
      (hrenewed : world.heap[stream]?.bind (renewedStream outcome) = some updated) :
      StepOf tasks world task ((world.allocate updated).withProgress task (.rotating streams))
  | release {rotator : ℕ} {outcome : RotationOutcome}
      (htask : tasks[task]? = some (.rotateAllLiveStreams rotator outcome))
      (hprogress : world.progress task = .rotating []) :
      StepOf tasks world task (world.withProgress task .finished)
  | stop {key : String} (htask : tasks[task]? = some (.adminStreamStop key))
      (hprogress : world.progress task = .ready) :
      StepOf tasks world task ((world.endStream key).withProgress task .finished)
  | reject {key mode : String} (htask : tasks[task]? = some (.setLatencyMode key mode))
      (hprogress : world.progress task = .ready)
      (hreject : World.isLatencyMode mode = false ∨
        ∀ info, world.record key = some info → info.isLive = false) :
      StepOf tasks world task (world.withProgress task .finished)
  | find {key mode : String} {stream : ℕ} (htask : tasks[task]? = some (.setLatencyMode key mode))
      (hprogress : world.progress task = .ready) (hmode : World.isLatencyMode mode = true)
      (hfound : world.getStream key = some stream) (hlive : world.isLive stream = true) :
      StepOf tasks world task (world.withProgress task (.holding stream))
  | write {key mode : String} {stream : ℕ} (htask : tasks[task]? = some (.setLatencyMode key mode))
      (hprogress : world.progress task = .holding stream) :
      StepOf tasks world task ((world.assign stream fun info ↦
        { info with latencyMode := mode }).withProgress task (.assigned stream))
  | store {key mode : String} {stream : ℕ} (htask : tasks[task]? = some (.setLatencyMode key mode))
      (hprogress : world.progress task = .assigned stream) :
      StepOf tasks world task ((world.createStream stream).withProgress task .finished)

/-- A step of a task leaves the progress of the others as it is. -/
theorem progress_of_ne {tasks : List Task} {world world' : World} {task other : ℕ}
    (hstep : StepOf tasks world task world') (hother : other ≠ task) :
    world'.progress other = world.progress other := by
  cases hstep with
  | idle => rfl
  | take _ _ => exact World.progress_withProgress_of_ne _ hother _
  | skip _ _ _ => exact World.progress_withProgress_of_ne _ hother _
  | renew _ _ _ => exact World.progress_withProgress_of_ne _ hother _
  | release _ _ => exact World.progress_withProgress_of_ne _ hother _
  | stop _ _ =>
    rw [World.progress_withProgress_of_ne _ hother, World.progress_endStream]
  | reject _ _ _ => exact World.progress_withProgress_of_ne _ hother _
  | find _ _ _ _ _ => exact World.progress_withProgress_of_ne _ hother _
  | write _ _ => exact World.progress_withProgress_of_ne _ hother _
  | store _ _ =>
    rw [World.progress_withProgress_of_ne _ hother, World.progress_createStream]

/-- Where a rotation stands after a step, it stands before the first or the next of its streams. -/
theorem rotating_of_step {tasks : List Task} {world world' : World} {task : ℕ}
    (hstep : StepOf tasks world task world') {streams : List ℕ}
    (hrotating : world'.progress task = .rotating streams) :
    (world.progress task = .ready ∧ ∃ outcome : RotationOutcome,
        streams = outcome.visit world.getLiveStreams) ∨
      world.progress task = .rotating streams ∨
        ∃ stream, world.progress task = .rotating (stream :: streams) := by
  cases hstep with
  | idle => exact Or.inr (Or.inl hrotating)
  | @take _ outcome _ hprogress =>
    rw [World.progress_withProgress_self] at hrotating
    exact Or.inl ⟨hprogress, outcome, (Progress.rotating.inj hrotating).symm⟩
  | @skip _ _ stream _ _ hprogress _ =>
    rw [World.progress_withProgress_self] at hrotating
    exact Or.inr (Or.inr ⟨stream, Progress.rotating.inj hrotating ▸ hprogress⟩)
  | @renew _ _ stream _ _ _ hprogress _ =>
    rw [World.progress_withProgress_self] at hrotating
    exact Or.inr (Or.inr ⟨stream, Progress.rotating.inj hrotating ▸ hprogress⟩)
  | release _ _ => cases (World.progress_withProgress_self _ _ _).symm.trans hrotating
  | stop _ _ => cases (World.progress_withProgress_self _ _ _).symm.trans hrotating
  | reject _ _ _ => cases (World.progress_withProgress_self _ _ _).symm.trans hrotating
  | find _ _ _ _ _ => cases (World.progress_withProgress_self _ _ _).symm.trans hrotating
  | write _ _ => cases (World.progress_withProgress_self _ _ _).symm.trans hrotating
  | store _ _ => cases (World.progress_withProgress_self _ _ _).symm.trans hrotating

/-- A task that is ready after a step was ready before it. -/
theorem ready_of_step {tasks : List Task} {world world' : World} {task : ℕ}
    (hstep : StepOf tasks world task world') (hready : world'.progress task = .ready) :
    world.progress task = .ready := by
  cases hstep with
  | idle => exact hready
  | take _ hprogress => exact hprogress
  | skip _ _ _ => cases (World.progress_withProgress_self _ _ _).symm.trans hready
  | renew _ _ _ => cases (World.progress_withProgress_self _ _ _).symm.trans hready
  | release _ _ => cases (World.progress_withProgress_self _ _ _).symm.trans hready
  | stop _ hprogress => exact hprogress
  | reject _ hprogress _ => exact hprogress
  | find _ hprogress _ _ _ => exact hprogress
  | write _ _ => cases (World.progress_withProgress_self _ _ _).symm.trans hready
  | store _ _ => cases (World.progress_withProgress_self _ _ _).symm.trans hready

/-- Only a rotation that renews a stream allocates a record. -/
theorem renew_of_step {tasks : List Task} {world world' : World} {task stream : ℕ}
    {updated : StreamInfo} (hstep : StepOf tasks world task world')
    (hupdated : world'.heap[stream]? = some updated) (hnew : world.heap.length ≤ stream) :
    stream = world.heap.length ∧ ∃ rotator outcome pointer streams,
      tasks[task]? = some (.rotateAllLiveStreams rotator outcome) ∧
        world.progress task = .rotating (pointer :: streams) ∧
          world.heap[pointer]?.bind (renewedStream outcome) = some updated ∧
            world'.progress task = .rotating streams := by
  have hlength := (List.getElem?_eq_some_iff.mp hupdated).1
  have hold : world'.heap.length = world.heap.length → False := fun hsame ↦
    absurd (hsame ▸ hlength) (not_lt.mpr hnew)
  cases hstep with
  | idle => exact (hold rfl).elim
  | take _ _ => exact (hold rfl).elim
  | skip _ _ _ => exact (hold rfl).elim
  | @renew rotator outcome pointer streams record htask hprogress hrenewed =>
    have hstream : stream = world.heap.length := by
      rw [World.heap_withProgress, World.heap_allocate, List.length_append,
        List.length_singleton] at hlength
      exact le_antisymm (Nat.lt_succ_iff.mp hlength) hnew
    subst hstream
    obtain rfl := Option.some.inj (List.getElem?_concat_length.symm.trans hupdated)
    exact ⟨rfl, rotator, outcome, pointer, streams, htask, hprogress, hrenewed,
      World.progress_withProgress_self _ _ _⟩
  | release _ _ => exact (hold rfl).elim
  | @stop key _ _ =>
    refine (hold ?_).elim
    unfold World.endStream
    cases world.getStream key with
    | none => rfl
    | some stream => exact List.length_modify _ _ _
  | reject _ _ _ => exact (hold rfl).elim
  | find _ _ _ _ _ => exact (hold rfl).elim
  | write _ _ => exact (hold (List.length_modify _ _ _)).elim
  | store _ _ =>
    refine (hold ?_).elim
    rw [World.heap_withProgress, World.heap_createStream]

/-- The next step of a call of `RotateAllLiveStreams`. -/
theorem stepOf_rotateAllLiveStreams {tasks : List Task} {world : World} {task rotator : ℕ}
    {outcome : RotationOutcome}
    (htask : tasks[task]? = some (.rotateAllLiveStreams rotator outcome)) (held : Bool) :
    StepOf tasks world task (world.rotateAllLiveStreams task held outcome) := by
  unfold World.rotateAllLiveStreams
  cases hprogress : world.progress task with
  | ready =>
    dsimp only
    split_ifs
    · exact .idle
    · exact .take htask hprogress
  | rotating streams =>
    cases streams with
    | nil => exact .release htask hprogress
    | cons stream streams =>
      dsimp only
      rw [World.rotateStream_eq]
      cases hrenewed : world.heap[stream]?.bind (renewedStream outcome) with
      | none => exact .skip htask hprogress hrenewed
      | some updated => exact .renew htask hprogress hrenewed
  | holding stream => exact .idle
  | assigned stream => exact .idle
  | finished => exact .idle

/-- The next step of `handleSetLatencyMode`. -/
theorem stepOf_setLatencyMode {tasks : List Task} {world : World} {task : ℕ} {key mode : String}
    (htask : tasks[task]? = some (.setLatencyMode key mode)) :
    StepOf tasks world task (world.setLatencyMode task key mode) := by
  unfold World.setLatencyMode
  cases hprogress : world.progress task with
  | ready =>
    dsimp only
    by_cases hmode : World.isLatencyMode mode = false
    · rw [if_pos hmode]
      exact .reject htask hprogress (Or.inl hmode)
    rw [if_neg hmode]
    cases hfound : world.getStream key with
    | none =>
      refine .reject htask hprogress (Or.inr fun info hinfo ↦ ?_)
      rw [World.record, hfound] at hinfo
      cases hinfo
    | some stream =>
      dsimp only
      by_cases hlive : world.isLive stream = false
      · rw [if_pos hlive]
        refine .reject htask hprogress (Or.inr fun info hinfo ↦ ?_)
        rw [World.record, hfound, Option.bind_some] at hinfo
        rw [World.isLive, hinfo, Option.any_some] at hlive
        exact hlive
      · rw [if_neg hlive]
        exact .find htask hprogress (Bool.not_eq_false _ ▸ hmode) hfound
          (Bool.not_eq_false _ ▸ hlive)
  | rotating streams => exact .idle
  | holding stream => exact .write htask hprogress
  | assigned stream => exact .store htask hprogress
  | finished => exact .idle

/-- The next step of a task is one of `StepOf`. -/
theorem stepOf_step (tasks : List Task) (world : World) (task : ℕ) :
    StepOf tasks world task (step tasks world task) := by
  unfold step
  cases htask : tasks[task]? with
  | none => exact .idle
  | some called =>
    cases called with
    | rotateAllLiveStreams rotator outcome => exact stepOf_rotateAllLiveStreams htask _
    | adminStreamStop key =>
      dsimp only
      unfold World.adminStreamStop
      cases hprogress : world.progress task with
      | ready => exact .stop htask hprogress
      | rotating streams => exact .idle
      | holding stream => exact .idle
      | assigned stream => exact .idle
      | finished => exact .idle
    | setLatencyMode key mode => exact stepOf_setLatencyMode htask

/-! ### The step of a task by its progress -/

section Steps

variable {tasks : List Task} {world : World} {task rotator stream : ℕ} {outcome : RotationOutcome}
  {streams : List ℕ} {key mode : String}

theorem step_rotateAllLiveStreams
    (htask : tasks[task]? = some (.rotateAllLiveStreams rotator outcome)) :
    step tasks world task =
      world.rotateAllLiveStreams task (mutexHeld tasks world rotator) outcome := by
  unfold step
  rw [htask]

theorem step_adminStreamStop (htask : tasks[task]? = some (.adminStreamStop key)) :
    step tasks world task = world.adminStreamStop task key := by
  unfold step
  rw [htask]

theorem step_setLatencyMode (htask : tasks[task]? = some (.setLatencyMode key mode)) :
    step tasks world task = world.setLatencyMode task key mode := by
  unfold step
  rw [htask]

/-- A rotation whose rotator is free begins with the live streams. -/
theorem step_take (htask : tasks[task]? = some (.rotateAllLiveStreams rotator outcome))
    (hready : world.progress task = .ready) (hfree : mutexHeld tasks world rotator = false) :
    step tasks world task =
      world.withProgress task (.rotating (outcome.visit world.getLiveStreams)) := by
  rw [step_rotateAllLiveStreams htask, hfree]
  unfold World.rotateAllLiveStreams
  rw [hready]
  rfl

/-- A rotation renews or skips the first of its streams. -/
theorem step_rotating (htask : tasks[task]? = some (.rotateAllLiveStreams rotator outcome))
    (hprogress : world.progress task = .rotating (stream :: streams)) :
    step tasks world task =
      ((world.heap[stream]?.bind (renewedStream outcome)).elim world world.allocate).withProgress
        task (.rotating streams) := by
  rw [step_rotateAllLiveStreams htask, ← World.rotateStream_eq]
  unfold World.rotateAllLiveStreams
  rw [hprogress]

/-- A rotation that has visited its streams finishes. -/
theorem step_release (htask : tasks[task]? = some (.rotateAllLiveStreams rotator outcome))
    (hprogress : world.progress task = .rotating []) :
    step tasks world task = world.withProgress task .finished := by
  rw [step_rotateAllLiveStreams htask]
  unfold World.rotateAllLiveStreams
  rw [hprogress]

/-- A stop ends the stream and finishes. -/
theorem step_stop (htask : tasks[task]? = some (.adminStreamStop key))
    (hready : world.progress task = .ready) :
    step tasks world task = (world.endStream key).withProgress task .finished := by
  rw [step_adminStreamStop htask]
  unfold World.adminStreamStop
  rw [hready]

/-- The latency mode handler holds the live stream it has found. -/
theorem step_find (htask : tasks[task]? = some (.setLatencyMode key mode))
    (hready : world.progress task = .ready) (hmode : World.isLatencyMode mode = true)
    (hfound : world.getStream key = some stream) (hlive : world.isLive stream = true) :
    step tasks world task = world.withProgress task (.holding stream) := by
  rw [step_setLatencyMode htask]
  unfold World.setLatencyMode
  rw [hready]
  dsimp only
  rw [if_neg (Bool.not_eq_false _ ▸ hmode), hfound]
  dsimp only
  rw [if_neg (Bool.not_eq_false _ ▸ hlive)]

/-- The latency mode handler writes to the record it holds. -/
theorem step_write (htask : tasks[task]? = some (.setLatencyMode key mode))
    (hprogress : world.progress task = .holding stream) :
    step tasks world task = (world.assign stream fun info ↦
      { info with latencyMode := mode }).withProgress task (.assigned stream) := by
  rw [step_setLatencyMode htask]
  unfold World.setLatencyMode
  rw [hprogress]

/-- The latency mode handler stores the record it has written to. -/
theorem step_store (htask : tasks[task]? = some (.setLatencyMode key mode))
    (hprogress : world.progress task = .assigned stream) :
    step tasks world task = (world.createStream stream).withProgress task .finished := by
  rw [step_setLatencyMode htask]
  unfold World.setLatencyMode
  rw [hprogress]

/-- A task that has finished takes no step. -/
theorem step_of_finished (hfinished : world.progress task = .finished) :
    step tasks world task = world := by
  cases htask : tasks[task]? with
  | none =>
    unfold step
    rw [htask]
  | some called =>
    cases called with
    | rotateAllLiveStreams rotator outcome =>
      rw [step_rotateAllLiveStreams htask]
      unfold World.rotateAllLiveStreams
      rw [hfinished]
    | adminStreamStop key =>
      rw [step_adminStreamStop htask]
      unfold World.adminStreamStop
      rw [hfinished]
    | setLatencyMode key mode =>
      rw [step_setLatencyMode htask]
      unfold World.setLatencyMode
      rw [hfinished]

end Steps

end LiveCDN.Controller.KeyRotation
