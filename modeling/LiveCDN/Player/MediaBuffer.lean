import LiveCDN.Library.GuardedRun

/-!
# How the player feeds the media buffer

`web/player.html`: `feedToMSE` appends a chunk to the source buffer at once when the buffer is idle,
and queues it in `_pendingData` while the buffer is updating; a timer takes one chunk from the queue
every tenth of a second (`step`). A chunk that `appendBuffer` throws at is lost, and `stopPlayback`
drops the source buffer but not the queue.

In every state of a run, what has been appended to the open source buffer and what is queued are the
chunks that were fed to it, in order, exactly when each chunk that arrives while the buffer is idle
finds the queue empty, `appendBuffer` throws neither at it nor at a chunk of the timer, and each new
source buffer finds the queue empty (`faithful_iff`). A chunk that arrives between the end of an
update and the next tick overtakes the queue.

Scope. Whether `appendBuffer` throws, and whether old media can be removed when the buffer is full,
are inputs of the model. A `stopPlayback` whose `endOfStream` throws leaves the source buffer and
the queue as they are, and is left out of a run. A chunk has its place among all that were fed, so
that equal chunks are told apart (`Chunk`).
-/

set_option autoImplicit false
set_option relaxedAutoImplicit false

namespace LiveCDN.Player.MediaBuffer

open Library.GuardedRun

/-! ### The page -/

/-- A chunk, with its place among those that were fed. -/
structure Chunk where
  place : ℕ
  data : List UInt8
  deriving DecidableEq, Repr

/-- What `appendBuffer` does: it takes the chunk, it throws because the buffer is full, where old
media are then removed or cannot be, or it throws for another reason. -/
inductive Attempt
  | appends
  | quotaExceeded (removes : Bool)
  | throws
  deriving DecidableEq, Repr

/-- A source buffer, with the chunks appended to it and those that were fed while it was open. -/
structure SourceBuffer where
  updating : Bool
  appended : List Chunk
  given : List Chunk
  deriving DecidableEq, Repr

/-- The open source buffer, `_pendingData`, and the number of chunks fed. -/
structure Page where
  sourceBuffer : Option SourceBuffer
  pendingData : List Chunk
  fed : ℕ
  deriving DecidableEq, Repr

/-- The page as it is loaded. -/
def Page.initial : Page := ⟨none, [], 0⟩

/-- `appendToSourceBuffer`. -/
def appendToSourceBuffer (page : Page) (sb : SourceBuffer) (chunk : Chunk) (attempt : Attempt) :
    Page :=
  if sb.updating then { page with pendingData := page.pendingData ++ [chunk] }
  else
    match attempt with
    | .appends => { page with
        sourceBuffer := some { sb with updating := true, appended := sb.appended ++ [chunk] } }
    | .quotaExceeded removes => { page with
        sourceBuffer := some { sb with updating := removes } }
    | .throws => page

/-- `feedToMSE`. -/
def feedToMse (page : Page) (data : List UInt8) (attempt : Attempt) : Page :=
  match page.sourceBuffer with
  | none => page
  | some sb =>
    let chunk : Chunk := ⟨page.fed, data⟩
    let sb : SourceBuffer := { sb with given := sb.given ++ [chunk] }
    appendToSourceBuffer { page with sourceBuffer := some sb, fed := page.fed + 1 } sb chunk attempt

/-- The timer that empties the queue. -/
def tick (page : Page) (attempt : Attempt) : Page :=
  match page.sourceBuffer, page.pendingData with
  | some sb, chunk :: rest =>
    if sb.updating then page
    else if attempt = .appends then
      { page with
        sourceBuffer := some { sb with updating := true, appended := sb.appended ++ [chunk] }
        pendingData := rest }
    else { page with pendingData := rest }
  | _, _ => page

/-- What happens to the page: `initMSE` opens a source buffer, a chunk is fed, an update ends, the
timer fires, or `stopPlayback`. -/
inductive Action
  | initMse
  | feed (data : List UInt8) (attempt : Attempt)
  | updateEnd
  | tick (attempt : Attempt)
  | stopPlayback
  deriving DecidableEq, Repr

/-- The page after an action. -/
def step (page : Page) : Action → Page
  | .initMse => { page with sourceBuffer := some ⟨false, [], []⟩ }
  | .feed data attempt => feedToMse page data attempt
  | .updateEnd => { page with
      sourceBuffer := page.sourceBuffer.map fun sb ↦ { sb with updating := false } }
  | .tick attempt => tick page attempt
  | .stopPlayback => { page with sourceBuffer := none }

/-! ### What is appended -/

/-- What was appended to the open source buffer and what is queued are the chunks that were fed to
it, in order. -/
def Faithful (page : Page) : Prop :=
  ∀ sb ∈ page.sourceBuffer, sb.appended ++ page.pendingData = sb.given

/-- A new source buffer finds the queue empty, a chunk that finds the buffer idle finds the queue
empty as well and is appended, and so is a chunk of the timer. -/
def Keeps (page : Page) : Action → Prop
  | .initMse => page.pendingData = []
  | .feed _ attempt => ∀ sb ∈ page.sourceBuffer, sb.updating = false →
      page.pendingData = [] ∧ attempt = .appends
  | .tick attempt => ∀ sb ∈ page.sourceBuffer, sb.updating = false → page.pendingData ≠ [] →
      attempt = .appends
  | .updateEnd => True
  | .stopPlayback => True

/-- The queued chunks were fed before the next one. -/
def Sound (page : Page) : Prop := ∀ chunk ∈ page.pendingData, chunk.place < page.fed

variable {page : Page}

/-! ### What a step does -/

/-- A chunk that is fed to an open source buffer is queued, appended or lost. -/
theorem feedToMse_cases {sb : SourceBuffer} (hopen : page.sourceBuffer = some sb)
    (data : List UInt8) (attempt : Attempt) :
    ∃ after : SourceBuffer, (feedToMse page data attempt).sourceBuffer = some after ∧
      (feedToMse page data attempt).fed = page.fed + 1 ∧
      after.given = sb.given ++ [⟨page.fed, data⟩] ∧
      (sb.updating = true ∧ after.appended = sb.appended ∧
          (feedToMse page data attempt).pendingData = page.pendingData ++ [⟨page.fed, data⟩] ∨
        sb.updating = false ∧ attempt = .appends ∧
          after.appended = sb.appended ++ [⟨page.fed, data⟩] ∧
          (feedToMse page data attempt).pendingData = page.pendingData ∨
        sb.updating = false ∧ attempt ≠ .appends ∧ after.appended = sb.appended ∧
          (feedToMse page data attempt).pendingData = page.pendingData) := by
  unfold feedToMse appendToSourceBuffer
  rw [hopen]
  dsimp only
  by_cases hupdating : sb.updating = true
  · rw [if_pos hupdating]
    exact ⟨_, rfl, rfl, rfl, Or.inl ⟨hupdating, rfl, rfl⟩⟩
  · have hidle := Bool.eq_false_of_not_eq_true hupdating
    rw [if_neg hupdating]
    cases attempt with
    | appends => exact ⟨_, rfl, rfl, rfl, Or.inr (Or.inl ⟨hidle, rfl, rfl, rfl⟩)⟩
    | quotaExceeded removes =>
      exact ⟨_, rfl, rfl, rfl, Or.inr (Or.inr ⟨hidle, nofun, rfl, rfl⟩)⟩
    | throws => exact ⟨_, rfl, rfl, rfl, Or.inr (Or.inr ⟨hidle, nofun, rfl, rfl⟩)⟩

/-- The timer does nothing, or it appends or loses the first chunk of the queue. -/
theorem tick_cases (page : Page) (attempt : Attempt) :
    tick page attempt = page ∧
        (∀ sb ∈ page.sourceBuffer, sb.updating = false → page.pendingData = []) ∨
      ∃ sb chunk rest, page.sourceBuffer = some sb ∧ sb.updating = false ∧
        page.pendingData = chunk :: rest ∧ (tick page attempt).pendingData = rest ∧
        (tick page attempt).fed = page.fed ∧
        ∃ after, (tick page attempt).sourceBuffer = some after ∧ after.given = sb.given ∧
          (attempt = .appends ∧ after.appended = sb.appended ++ [chunk] ∨
            attempt ≠ .appends ∧ after.appended = sb.appended) := by
  cases hopen : page.sourceBuffer with
  | none =>
    refine Or.inl ⟨?_, nofun⟩
    unfold tick
    rw [hopen]
  | some sb =>
    cases hpending : page.pendingData with
    | nil =>
      refine Or.inl ⟨?_, fun _ _ _ ↦ rfl⟩
      unfold tick
      rw [hopen, hpending]
    | cons chunk rest =>
      unfold tick
      rw [hopen, hpending]
      dsimp only
      split_ifs with hupdating happends
      · refine Or.inl ⟨rfl, ?_⟩
        rintro other ⟨rfl⟩ hidle
        exact absurd hupdating (Bool.eq_false_iff.mp hidle)
      · exact Or.inr ⟨sb, chunk, rest, rfl, Bool.eq_false_of_not_eq_true hupdating, rfl, rfl, rfl,
          _, rfl, rfl, Or.inl ⟨happends, rfl⟩⟩
      · exact Or.inr ⟨sb, chunk, rest, rfl, Bool.eq_false_of_not_eq_true hupdating, rfl, rfl, rfl,
          sb, rfl, rfl, Or.inr ⟨happends, rfl⟩⟩

theorem sound_step (hpage : Sound page) (action : Action) : Sound (step page action) := by
  cases action with
  | feed data attempt =>
    show Sound (feedToMse page data attempt)
    cases hopen : page.sourceBuffer with
    | none =>
      rw [feedToMse, hopen]
      exact hpage
    | some sb =>
      obtain ⟨after, -, hfed, -, houtcome⟩ := feedToMse_cases hopen data attempt
      have hold : ∀ chunk ∈ page.pendingData, chunk.place < page.fed + 1 :=
        fun chunk hchunk ↦ (hpage chunk hchunk).trans (Nat.lt_succ_self _)
      unfold Sound
      rw [hfed]
      rcases houtcome with ⟨-, -, hpending⟩ | ⟨-, -, -, hpending⟩ | ⟨-, -, -, hpending⟩
      · rw [hpending]
        intro chunk hchunk
        rcases List.mem_append.mp hchunk with hbefore | hnew
        · exact hold chunk hbefore
        · rw [List.mem_singleton.mp hnew]
          exact Nat.lt_succ_self _
      · rwa [hpending]
      · rwa [hpending]
  | tick attempt =>
    show Sound (tick page attempt)
    rcases tick_cases page attempt with
      ⟨hsame, -⟩ | ⟨_, chunk, rest, -, -, hbefore, hafter, hfed, -⟩
    · rwa [hsame]
    · unfold Sound
      rw [hafter, hfed]
      exact fun other hother ↦ hpage other (hbefore ▸ List.mem_cons_of_mem _ hother)
  | initMse => exact hpage
  | updateEnd => exact hpage
  | stopPlayback => exact hpage

/-! ### Steps and runs -/

/-- What a chunk behind a queue is put in front of is changed unless the queue is empty. -/
theorem concat_append_eq_iff {chunk : Chunk} {queue : List Chunk} (hnew : chunk ∉ queue)
    (front : List Chunk) :
    front ++ [chunk] ++ queue = front ++ queue ++ [chunk] ↔ queue = [] := by
  constructor
  · intro hsame
    rw [List.append_assoc, List.append_assoc] at hsame
    cases queue with
    | nil => rfl
    | cons first rest =>
      have hfirst := (List.cons.inj (List.append_cancel_left hsame)).1
      exact absurd (hfirst ▸ List.mem_cons_self) hnew
  · rintro rfl
    rw [List.append_nil, List.append_nil]

/-- A step keeps the order exactly when it meets the conditions. Assumes: the order is kept before
the step, and the queued chunks were fed before the next one. -/
theorem faithful_step_iff (hpage : Sound page) (hfaithful : Faithful page) (action : Action) :
    Faithful (step page action) ↔ Keeps page action := by
  cases action with
  | initMse =>
    show (∀ sb ∈ some (⟨false, [], []⟩ : SourceBuffer),
      sb.appended ++ page.pendingData = sb.given) ↔ page.pendingData = []
    simp
  | feed data attempt =>
    show Faithful (feedToMse page data attempt) ↔ _
    cases hopen : page.sourceBuffer with
    | none =>
      rw [feedToMse, hopen, Keeps, hopen]
      exact iff_of_true hfaithful nofun
    | some sb =>
      obtain ⟨after, hafter, -, hgiven, houtcome⟩ := feedToMse_cases hopen data attempt
      have hnew : (⟨page.fed, data⟩ : Chunk) ∉ page.pendingData :=
        fun hmem ↦ lt_irrefl _ (hpage _ hmem)
      have hbefore := hfaithful sb hopen
      simp only [Faithful, Keeps, hafter, hopen, Option.mem_some_iff, forall_eq', hgiven,
        ← hbefore]
      rcases houtcome with ⟨hupdating, happended, hpending⟩ |
        ⟨hidle, rfl, happended, hpending⟩ | ⟨hidle, hthrows, happended, hpending⟩
      · rw [happended, hpending, ← List.append_assoc]
        exact iff_of_true rfl fun hidle ↦ absurd hupdating (Bool.eq_false_iff.mp hidle)
      · rw [happended, hpending, concat_append_eq_iff hnew, hidle]
        simp
      · rw [happended, hpending]
        refine iff_of_false (fun hsame ↦ ?_) fun hkeeps ↦ hthrows (hkeeps hidle).2
        exact absurd (congrArg List.length hsame) (by simp)
  | tick attempt =>
    show Faithful (tick page attempt) ↔ _
    rcases tick_cases page attempt with ⟨hsame, hnothing⟩ |
      ⟨sb, chunk, rest, hopen, hidle, hbefore, hafter, -, after, hbuffer, hgiven, houtcome⟩
    · rw [hsame]
      exact iff_of_true hfaithful fun sb hsb hidle hpending ↦
        absurd (hnothing sb hsb hidle) hpending
    · have hwhole := hfaithful sb hopen
      rw [hbefore] at hwhole
      simp only [Faithful, Keeps, hbuffer, hopen, Option.mem_some_iff, forall_eq', hgiven, hafter,
        ← hwhole, hbefore]
      rcases houtcome with ⟨rfl, happended⟩ | ⟨hthrows, happended⟩
      · rw [happended, List.append_assoc]
        exact iff_of_true rfl fun _ _ ↦ rfl
      · rw [happended]
        refine iff_of_false (fun hsame ↦ ?_) fun hkeeps ↦ hthrows (hkeeps hidle nofun)
        exact absurd (congrArg List.length hsame) (by simp)
  | updateEnd =>
    refine iff_of_true ?_ trivial
    rintro sb hsb
    obtain ⟨before, hbefore, rfl⟩ := Option.map_eq_some_iff.mp hsb
    exact hfaithful before hbefore
  | stopPlayback => exact iff_of_true nofun trivial

/-- In every state of a run, the open source buffer has been appended the chunks that were fed to
it, in order, up to those that are queued, exactly when every step of the run meets the
conditions. -/
theorem faithful_iff (actions : List Action) :
    (∀ taken, taken <+: actions → Faithful (run step .initial taken)) ↔
      EachStepMeets step Keeps .initial actions := by
  have hinitial : Faithful .initial := nofun
  have hsound : Sound .initial := fun chunk hchunk ↦ absurd hchunk List.not_mem_nil
  rw [forall_prefix_iff, and_iff_right hinitial]
  exact eachStepMeets_iff_of_kept step
    (fun page action (hpage : Sound page ∧ Faithful page) hafter ↦
      ⟨sound_step hpage.1 action, hafter⟩)
    (fun page action hpage ↦ faithful_step_iff hpage.1 hpage.2 action) ⟨hsound, hinitial⟩ actions

end LiveCDN.Player.MediaBuffer
