import LiveCDN.Agent.FlvDemuxer
import LiveCDN.Library.GuardedRun

/-!
# Reconnecting to the origin

`relay/backoff.rs` and the loop of `FlvPuller::start` in `relay/flv.rs`: a pull that fails is tried
again after a wait that doubles with each attempt (`ExponentialBackoff.next`), at the backup origin
and the primary one in turn (`pullTurn`).

`ExponentialBackoff::reset` is to be called when a connection succeeds, and the loop never calls it.
So the counter counts all failures of the run (`attempt_pullTurn`), and the counter of a wait is the
number of failures since the last established connection exactly in the runs in which a connection
that was established fails only when no earlier turn has failed (`countsFailures_runs_iff`).

Scope. Durations are rational numbers of seconds. What the origins answer, the running flag and the
jitter are inputs. Counters wrap, as in a release build.
-/

set_option autoImplicit false
set_option relaxedAutoImplicit false

namespace LiveCDN.Agent.FlvReconnect

open Library.GuardedRun FlvDemuxer

/-! ### Back-off -/

/-- `ExponentialBackoff`. -/
structure ExponentialBackoff where
  initial : ℚ
  max : ℚ
  multiplier : ℚ
  attempt : UInt32
  deriving DecidableEq, Repr

/-- `ExponentialBackoff::new`. -/
def ExponentialBackoff.new (initial max : ℚ) : ExponentialBackoff := ⟨initial, max, 2, 0⟩

/-- `ExponentialBackoff::next`: the wait and the counter moved on. `random` is what `pseudo_random`
gives. -/
def ExponentialBackoff.next (backoff : ExponentialBackoff) (random : ℚ) : ℚ × ExponentialBackoff :=
  let base := backoff.initial * backoff.multiplier ^ backoff.attempt.toInt32.toInt
  let secs := min base backoff.max
  let jitter := secs * (1 / 4) * (random * 2 - 1)
  (Max.max (secs + jitter) 0, { backoff with attempt := backoff.attempt + 1 })

@[simp] theorem ExponentialBackoff.attempt_next (backoff : ExponentialBackoff) (random : ℚ) :
    (backoff.next random).2.attempt = backoff.attempt + 1 := rfl

/-! ### The loop -/

/-- The fields of `FlvPuller` that its loop reads. -/
structure FlvPuller where
  flvUrl : String
  backupFlvUrl : Option String

/-- The variables of the loop, and its history. -/
structure LoopState where
  backoff : ExponentialBackoff
  usingBackup : Bool
  /-- The loop has ended. -/
  ended : Bool
  /-- The turns that have failed. -/
  failed : ℕ
  /-- The failures since the last connection that was established, its own end among them. -/
  failures : ℕ
  /-- The wait behind the last failure. -/
  wait : ℚ

/-- The state before the first turn. -/
def LoopState.initial : LoopState := ⟨.new 2 60, false, false, 0, 0, 0⟩

/-- The address a turn pulls from. -/
def currentUrl (puller : FlvPuller) (usingBackup : Bool) : String :=
  if usingBackup = true then puller.backupFlvUrl.getD puller.flvUrl else puller.flvUrl

/-- What a turn comes to: the running flag as read, what the addresses answer, the clock, the items
of the body stream, and the jitter. -/
structure Turn where
  running : Bool
  connection : String → Connection
  stamps : ℕ → UInt64
  arrivals : List Arrival
  random : ℚ

/-- What connecting comes to in a turn. -/
def connectionOf (puller : FlvPuller) (st : LoopState) (turn : Turn) : Connection :=
  turn.connection (currentUrl puller st.usingBackup)

/-- The pull of a turn. -/
def pullOf (puller : FlvPuller) (st : LoopState) (turn : Turn) : PullOutcome :=
  pullFlvStream (connectionOf puller st turn) turn.stamps turn.arrivals

/-- The connection is established. -/
def isEstablished : Connection → Bool
  | .connected => true
  | _ => false

/-- The failures since the last established connection, the failure of this turn left out. -/
def failuresBefore (puller : FlvPuller) (st : LoopState) (turn : Turn) : ℕ :=
  if isEstablished (connectionOf puller st turn) = true then 0 else st.failures

/-- A failed pull: the wait, and the other origin for the next turn. -/
def LoopState.afterFailure (puller : FlvPuller) (st : LoopState) (turn : Turn) : LoopState where
  backoff := (st.backoff.next turn.random).2
  usingBackup :=
    if st.usingBackup = false ∧ puller.backupFlvUrl.isSome then true
    else if st.usingBackup = true then false
    else st.usingBackup
  ended := false
  failed := st.failed + 1
  failures := failuresBefore puller st turn + 1
  wait := (st.backoff.next turn.random).1

/-- A turn of the loop of `FlvPuller::start`. -/
def pullTurn (puller : FlvPuller) (st : LoopState) (turn : Turn) : LoopState :=
  if st.ended = true then st
  else if turn.running = false then { st with ended := true }
  else
    match (pullOf puller st turn).result with
    | .ok () => { st with ended := true }
    | .error _ => st.afterFailure puller turn

/-- A turn fails: the loop goes on, the pull is made and ends in an error. -/
def Fails (puller : FlvPuller) (st : LoopState) (turn : Turn) : Prop :=
  st.ended = false ∧ turn.running = true ∧ ∃ error, (pullOf puller st turn).result = .error error

/-- What a turn can do: it fails, or it leaves the counter and the failures as they are. -/
theorem pullTurn_cases (puller : FlvPuller) (st : LoopState) (turn : Turn) :
    (Fails puller st turn ∧ pullTurn puller st turn = st.afterFailure puller turn) ∨
    (¬ Fails puller st turn ∧ (pullTurn puller st turn).backoff = st.backoff ∧
      (pullTurn puller st turn).failed = st.failed ∧
      (pullTurn puller st turn).failures = st.failures) := by
  unfold pullTurn Fails
  split_ifs with hended hrunning
  · refine Or.inr ⟨fun hfails ↦ ?_, rfl, rfl, rfl⟩
    rw [hfails.1] at hended
    exact nomatch hended
  · refine Or.inr ⟨fun hfails ↦ ?_, rfl, rfl, rfl⟩
    exact Bool.false_ne_true (hrunning.symm.trans hfails.2.1)
  · cases hresult : (pullOf puller st turn).result with
    | ok value =>
      refine Or.inr ⟨?_, rfl, rfl, rfl⟩
      rintro ⟨-, -, error, herror⟩
      exact nomatch herror
    | error error =>
      exact Or.inl ⟨⟨Bool.eq_false_iff.mpr hended, Bool.eq_true_of_not_eq_false hrunning, error,
        rfl⟩, rfl⟩

/-! ### What the counter counts -/

/-- The counter of the wait behind a failure is the number of failures since the last established
connection. -/
def CountsFailures (puller : FlvPuller) (st : LoopState) (turn : Turn) : Prop :=
  Fails puller st turn → st.backoff.attempt.toNat = failuresBefore puller st turn

/-- A connection that was established fails only when no earlier turn has failed, or a multiple of
`2 ^ 32` of them have; another failure comes before `2 ^ 32` failures since the last established
connection. -/
def KeepsCount (puller : FlvPuller) (st : LoopState) (turn : Turn) : Prop :=
  Fails puller st turn →
    if isEstablished (connectionOf puller st turn) = true then 2 ^ 32 ∣ st.failed
    else st.failures < 2 ^ 32

/-- The counter counts the turns that have failed, modulo `2 ^ 32`. -/
def CountsAll (st : LoopState) : Prop := st.backoff.attempt.toNat = st.failed % 2 ^ 32

/-- No turn resets the counter. -/
theorem attempt_pullTurn {puller : FlvPuller} {st : LoopState} (hst : CountsAll st) (turn : Turn) :
    CountsAll (pullTurn puller st turn) := by
  unfold CountsAll at hst ⊢
  rcases pullTurn_cases puller st turn with ⟨-, hturn⟩ | ⟨-, hbackoff, hfailed, -⟩
  · have hattempt : (pullTurn puller st turn).backoff.attempt = st.backoff.attempt + 1 := by
      rw [hturn]
      rfl
    have hfailed : (pullTurn puller st turn).failed = st.failed + 1 := by
      rw [hturn]
      rfl
    rw [hattempt, hfailed, UInt32.toNat_add, hst]
    exact Nat.mod_add_mod _ _ 1
  · rw [hbackoff, hfailed, hst]

/-- The counter is that of all failures, and also the number of failures since the last established
connection, modulo `2 ^ 32`. -/
def Counted (st : LoopState) : Prop :=
  CountsAll st ∧ st.backoff.attempt.toNat = st.failures % 2 ^ 32

theorem counted_initial : Counted .initial := ⟨rfl, rfl⟩

/-- A turn whose counter is right keeps the count. -/
theorem counted_pullTurn {puller : FlvPuller} {st : LoopState} {turn : Turn} (hst : Counted st)
    (hcounts : CountsFailures puller st turn) : Counted (pullTurn puller st turn) := by
  refine ⟨attempt_pullTurn hst.1 turn, ?_⟩
  rcases pullTurn_cases puller st turn with ⟨hfails, hturn⟩ | ⟨-, hbackoff, -, hfailures⟩
  · have hattempt : (pullTurn puller st turn).backoff.attempt = st.backoff.attempt + 1 := by
      rw [hturn]
      rfl
    have hfailures : (pullTurn puller st turn).failures = failuresBefore puller st turn + 1 := by
      rw [hturn]
      rfl
    rw [hattempt, hfailures, ← hcounts hfails, UInt32.toNat_add]
    rfl
  · rw [hbackoff, hfailures, hst.2]

/-- The counter of a turn is right exactly when the turn keeps the count. -/
theorem countsFailures_iff {puller : FlvPuller} {st : LoopState} {turn : Turn} (hst : Counted st) :
    CountsFailures puller st turn ↔ KeepsCount puller st turn := by
  obtain ⟨hall, hsince⟩ := hst
  refine forall_congr' fun _ ↦ ?_
  unfold failuresBefore
  split_ifs with hestablished
  · rw [hall]
    exact Nat.dvd_iff_mod_eq_zero.symm
  · rw [hsince]
    exact Nat.mod_eq_iff_lt (by decide)

/-- In a run the counter of each wait is the number of failures since the last established
connection exactly when a connection that was established fails only when no earlier turn has
failed, and the counter does not wrap. -/
theorem countsFailures_runs_iff (puller : FlvPuller) (turns : List Turn) :
    EachStepMeets (pullTurn puller) (CountsFailures puller) .initial turns ↔
      EachStepMeets (pullTurn puller) (KeepsCount puller) .initial turns :=
  eachStepMeets_iff_of_kept (pullTurn puller) (fun _ _ hst hcounts ↦ counted_pullTurn hst hcounts)
    (fun _ _ hst ↦ countsFailures_iff hst) counted_initial turns

/-- An origin that refuses the connection, and one that answers and fails later. -/
def refusedThenLost : List Turn :=
  [⟨true, fun _ ↦ .connectFailed "refused", fun _ ↦ 0, [], 1 / 2⟩,
    ⟨true, fun _ ↦ .connected, fun _ ↦ 0, [⟨true, .ok []⟩, ⟨true, .error "reset"⟩], 1 / 2⟩]

/-- The wait behind a connection that was established is the second one: four seconds, not two. -/
theorem countsFailures_counterexample :
    ¬ EachStepMeets (pullTurn ⟨"http://o/s.flv", none⟩) (CountsFailures ⟨"http://o/s.flv", none⟩)
        .initial refusedThenLost ∧
      (run (pullTurn ⟨"http://o/s.flv", none⟩) .initial refusedThenLost).wait = 4 := by
  refine ⟨fun hcounts ↦ ?_, by decide +kernel⟩
  exact absurd (hcounts.2.1 ⟨rfl, rfl, _, rfl⟩) (by decide)

end LiveCDN.Agent.FlvReconnect
