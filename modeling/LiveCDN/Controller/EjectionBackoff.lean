import LiveCDN.Controller.OutlierDetection
import LiveCDN.Library.GuardedRun

/-!
# Ejections and their back-off

The outlier state of a node over every sequence of `ReportNodeFail`, `ReportNodeSuccess` and
`RecoverOutliers` (`controller/scheduler.go`), and two things the code says of it.

`ejectCount` is to be the number of past ejections, which an ejection lasts in proportion to. But
each failure from the fifth in a row on adds one to it and sets the ejection anew, also while the
node is out: the count is that of the ejection episodes exactly in the runs in which no failure that
is the fifth in a row or a later one comes while its node is ejected (`episodesCounted_runs_iff`).

An ejection that is over is cleared by the next success of the node or by `RecoverOutliers`, and
only the first of them forgets the count. So it matters which of them comes first, except at the
very instant at which the ejection ends (`recovery_commutes_iff`).

Scope. A report is atomic and reads the clock once. Nothing is assumed about how the clock moves
between reports.
-/

set_option autoImplicit false
set_option relaxedAutoImplicit false

namespace LiveCDN.Controller.EjectionBackoff

open Library.Binary64 Library.GuardedRun NodeStore Scheduling OutlierDetection

/-! ### Runs -/

/-- A report on a node or a turn of `RecoverOutliers`, with the clock it reads. -/
inductive Action
  | fail (nodeID : String) (now : ℕ)
  | success (nodeID : String) (now : ℕ)
  | recover (now : ℕ)

/-- The clock that an action reads. -/
def Action.now : Action → ℕ
  | .fail _ now | .success _ now | .recover now => now

/-- One step. -/
def step (s : Scheduler) : Action → Scheduler
  | .fail nodeID now => reportNodeFail nearest s now nodeID
  | .success nodeID now => reportNodeSuccess nearest s now nodeID
  | .recover now => recoverOutliers s now

/-- The outlier state of a node, a new one when there is none. -/
def outlier (s : Scheduler) (nodeID : String) : OutlierState :=
  (s.outlierMap nodeID).getD ⟨0, none, 0, none⟩

/-- Whether an action resets the count of a node: a success behind the end of its ejection. -/
def resetsCount (s : Scheduler) (nodeID : String) : Action → Bool
  | .success named now =>
    decide (named = nodeID) && (outlier s nodeID).ejectedUntil.any fun time ↦ decide (now > time)
  | .fail _ _ | .recover _ => false

/-- Whether an action starts an ejection episode of a node. -/
def startsEpisode (s : Scheduler) (nodeID : String) (action : Action) : Bool :=
  !s.isEjected action.now nodeID && (step s action).isEjected action.now nodeID

/-- A scheduler with the ejection episodes of each node since its count was last reset. -/
structure Watched where
  scheduler : Scheduler
  episodes : String → ℕ

/-- A new scheduler. -/
def Watched.start (store : MemoryStore) : Watched := ⟨newScheduler store, fun _ ↦ 0⟩

/-- One step. -/
def watch (w : Watched) (action : Action) : Watched where
  scheduler := step w.scheduler action
  episodes nodeID :=
    if resetsCount w.scheduler nodeID action then 0
    else if startsEpisode w.scheduler nodeID action then w.episodes nodeID + 1
    else w.episodes nodeID

@[simp] theorem scheduler_watch (w : Watched) (action : Action) :
    (watch w action).scheduler = step w.scheduler action := rfl

/-- What a step leaves of the back-off. While a node is ejected its count is that of its episodes;
an episode that starts lasts as long as its number says; a failure during an episode changes neither
the count nor the end of the ejection; an ejection that is set lasts between 30 and 300 seconds, and
the multiplication behind it fits into 64 bits. -/
structure EpisodesCounted (w : Watched) (action : Action) : Prop where
  counted : ∀ nodeID now, action.now ≤ now →
    (watch w action).scheduler.isEjected now nodeID = true →
      (outlier (watch w action).scheduler nodeID).ejectCount = (watch w action).episodes nodeID
  lasts : ∀ nodeID, startsEpisode w.scheduler nodeID action = true →
    (outlier (watch w action).scheduler nodeID).ejectedUntil =
      some (action.now +
        min (outlierBaseEjectTime * (watch w action).episodes nodeID) outlierMaxEjectTime)
  kept : ∀ nodeID now, action = .fail nodeID now → w.scheduler.isEjected now nodeID = true →
    (outlier (watch w action).scheduler nodeID).ejectCount =
        (outlier w.scheduler nodeID).ejectCount ∧
      (outlier (watch w action).scheduler nodeID).ejectedUntil =
        (outlier w.scheduler nodeID).ejectedUntil
  bounded : ∀ nodeID, ∀ time ∈ (outlier (watch w action).scheduler nodeID).ejectedUntil,
    time ∉ (outlier w.scheduler nodeID).ejectedUntil →
      action.now + outlierBaseEjectTime ≤ time ∧ time ≤ action.now + outlierMaxEjectTime
  fits : ∀ nodeID,
    outlierBaseEjectTime * (outlier (watch w action).scheduler nodeID).ejectCount < 2 ^ 63

/-- The condition on a step: a failure that is the fifth in a row or a later one comes while its
node is not ejected, and the count it leads to keeps the multiplication within 64 bits. -/
def EjectsOnce (w : Watched) : Action → Prop
  | .fail nodeID now =>
    outlierConsecutiveFails ≤ (outlier w.scheduler nodeID).consecutiveFails + 1 →
      w.scheduler.isEjected now nodeID = false ∧
        outlierBaseEjectTime * ((outlier w.scheduler nodeID).ejectCount + 1) < 2 ^ 63
  | .success _ _ | .recover _ => True

/-- The counts are those of the episodes and fit. -/
def CountsEpisodes (w : Watched) : Prop :=
  ∀ nodeID, (outlier w.scheduler nodeID).ejectCount = w.episodes nodeID ∧
    outlierBaseEjectTime * (outlier w.scheduler nodeID).ejectCount < 2 ^ 63

/-! ### One node -/

/-- What an action does to the outlier state of a node. -/
def outlierAfter (nodeID : String) (action : Action) (state : OutlierState) : OutlierState :=
  match action with
  | .fail named now => if named = nodeID then failedState now state else state
  | .success named now => if named = nodeID then succeededState now state else state
  | .recover now => recoveredState now state

/-- A step takes each node through its own outlier states. -/
theorem outlier_step (s : Scheduler) (action : Action) (nodeID : String) :
    outlier (step s action) nodeID = outlierAfter nodeID action (outlier s nodeID) := by
  cases action with
  | fail named now =>
    by_cases hnamed : named = nodeID
    · subst hnamed
      simp [outlier, step, reportNodeFail, outlierAfter]
    · simp [outlier, step, reportNodeFail, outlierAfter, hnamed,
        Function.update_of_ne (Ne.symm hnamed)]
  | success named now =>
    by_cases hnamed : named = nodeID
    · subst hnamed
      cases hstate : s.outlierMap named <;>
        simp [outlier, step, reportNodeSuccess, outlierAfter, hstate, succeededState]
    · simp [outlier, step, reportNodeSuccess, outlierAfter, hnamed,
        Function.update_of_ne (Ne.symm hnamed)]
  | recover now =>
    cases hstate : s.outlierMap nodeID <;>
      simp [outlier, step, recoverOutliers, outlierAfter, hstate, recoveredState]

/-- A node is ejected until the time in its outlier state. -/
theorem isEjected_iff_outlier {s : Scheduler} {now : ℕ} {nodeID : String} :
    s.isEjected now nodeID = true ↔ ∃ time ∈ (outlier s nodeID).ejectedUntil, now < time := by
  rw [isEjected_iff, outlier]
  cases s.outlierMap nodeID <;> simp

theorem ejectCount_failedState (now : ℕ) (state : OutlierState) :
    (failedState now state).ejectCount =
      if outlierConsecutiveFails ≤ state.consecutiveFails + 1 then state.ejectCount + 1
      else state.ejectCount := by
  unfold failedState
  dsimp only
  split_ifs <;> rfl

theorem ejectedUntil_failedState_eq (now : ℕ) (state : OutlierState) :
    (failedState now state).ejectedUntil =
      if outlierConsecutiveFails ≤ state.consecutiveFails + 1 then
        some (now + min (outlierBaseEjectTime * (state.ejectCount + 1)) outlierMaxEjectTime)
      else state.ejectedUntil := by
  unfold failedState
  dsimp only
  split_ifs <;> rfl

theorem ejectCount_succeededState (now : ℕ) (state : OutlierState) :
    (succeededState now state).ejectCount =
      if (state.ejectedUntil.any fun time ↦ decide (now > time)) then 0 else state.ejectCount := by
  unfold succeededState
  dsimp only
  split_ifs <;> rfl

theorem ejectCount_recoveredState (now : ℕ) (state : OutlierState) :
    (recoveredState now state).ejectCount = state.ejectCount := by
  unfold recoveredState
  split_ifs <;> rfl

/-- An ejection that is set lasts between 30 and 300 seconds. -/
theorem ejectTime_bounds (ejectCount : ℕ) :
    outlierBaseEjectTime ≤ min (outlierBaseEjectTime * (ejectCount + 1)) outlierMaxEjectTime ∧
      min (outlierBaseEjectTime * (ejectCount + 1)) outlierMaxEjectTime ≤ outlierMaxEjectTime := by
  refine ⟨le_min ?_ (by decide), min_le_right _ _⟩
  exact Nat.le_mul_of_pos_right _ (Nat.succ_pos _)

/-- No episode starts when no ejection is set. -/
theorem startsEpisode_eq_false {s : Scheduler} {nodeID : String} {action : Action}
    (hunset : ∀ time ∈ (outlierAfter nodeID action (outlier s nodeID)).ejectedUntil,
      time ∈ (outlier s nodeID).ejectedUntil) : startsEpisode s nodeID action = false := by
  refine Bool.eq_false_of_not_eq_true fun hstarts ↦ ?_
  obtain ⟨hfree, hejected⟩ := Bool.and_eq_true_iff.mp hstarts
  rw [isEjected_iff_outlier, outlier_step] at hejected
  obtain ⟨time, htime, hnow⟩ := hejected
  rw [isEjected_iff_outlier.mpr ⟨time, hunset time htime, hnow⟩] at hfree
  cases hfree

/-- A success or a recovery sets no ejection. -/
theorem ejectedUntil_outlierAfter {nodeID : String} {action : Action} {state : OutlierState}
    (hother : ∀ now, action ≠ .fail nodeID now) {time : ℕ}
    (htime : time ∈ (outlierAfter nodeID action state).ejectedUntil) :
    time ∈ state.ejectedUntil := by
  cases action with
  | fail named now =>
    have hnamed : named ≠ nodeID := fun h ↦ hother now (h ▸ rfl)
    rwa [outlierAfter, if_neg hnamed] at htime
  | success named now =>
    rw [outlierAfter] at htime
    split_ifs at htime
    · exact ejectedUntil_succeededState htime
    · exact htime
  | recover now => exact ejectedUntil_recoveredState htime

/-- A failure that ejects a node which is not ejected starts an episode. -/
theorem startsEpisode_fail {s : Scheduler} {nodeID : String} {now : ℕ}
    (hmany : outlierConsecutiveFails ≤ (outlier s nodeID).consecutiveFails + 1)
    (hfree : s.isEjected now nodeID = false) :
    startsEpisode s nodeID (.fail nodeID now) = true := by
  have hafter : (step s (.fail nodeID now)).isEjected now nodeID = true := by
    rw [isEjected_iff_outlier, outlier_step, outlierAfter, if_pos rfl, ejectedUntil_failedState_eq,
      if_pos hmany]
    refine ⟨_, rfl, Nat.lt_add_of_pos_right ?_⟩
    exact lt_of_lt_of_le (by decide) (ejectTime_bounds _).1
  rw [startsEpisode, Action.now, hfree, hafter]
  rfl

/-- A failure that ejects no node starts no episode. -/
theorem startsEpisode_fail_of_few {s : Scheduler} {nodeID : String} {now : ℕ}
    (hfew : ¬ outlierConsecutiveFails ≤ (outlier s nodeID).consecutiveFails + 1) :
    startsEpisode s nodeID (.fail nodeID now) = false := by
  refine startsEpisode_eq_false fun time htime ↦ ?_
  rwa [outlierAfter, if_pos rfl, ejectedUntil_failedState_eq, if_neg hfew] at htime

/-! ### One step -/

/-- A step that does not count a failure of a node keeps its count or resets it. -/
theorem ejectCount_step {s : Scheduler} {nodeID : String} {action : Action}
    (hother : ∀ now, action ≠ .fail nodeID now) :
    (outlier (step s action) nodeID).ejectCount =
      if resetsCount s nodeID action then 0 else (outlier s nodeID).ejectCount := by
  rw [outlier_step]
  cases action with
  | fail named now =>
    have hnamed : named ≠ nodeID := fun h ↦ hother now (h ▸ rfl)
    rw [outlierAfter, if_neg hnamed]
    rfl
  | success named now =>
    by_cases hnamed : named = nodeID
    · rw [outlierAfter, if_pos hnamed, ejectCount_succeededState, resetsCount,
        decide_eq_true hnamed, Bool.true_and]
    · rw [outlierAfter, if_neg hnamed, resetsCount, decide_eq_false hnamed, Bool.false_and,
        if_neg Bool.false_ne_true]
  | recover now => exact ejectCount_recoveredState now _

/-- A step that meets the condition keeps the counts those of the episodes. -/
theorem countsEpisodes_watch {w : Watched} {action : Action} (hcounts : CountsEpisodes w)
    (hcondition : EjectsOnce w action) : CountsEpisodes (watch w action) := by
  intro nodeID
  obtain ⟨hcount, hfits⟩ := hcounts nodeID
  change (outlier (step w.scheduler action) nodeID).ejectCount =
      (if resetsCount w.scheduler nodeID action then 0
        else if startsEpisode w.scheduler nodeID action then w.episodes nodeID + 1
        else w.episodes nodeID) ∧
    outlierBaseEjectTime * (outlier (step w.scheduler action) nodeID).ejectCount < 2 ^ 63
  by_cases hfail : ∃ now, action = .fail nodeID now
  · obtain ⟨now, rfl⟩ := hfail
    rw [outlier_step, outlierAfter, if_pos rfl, ejectCount_failedState, resetsCount,
      if_neg Bool.false_ne_true]
    by_cases hmany : outlierConsecutiveFails ≤ (outlier w.scheduler nodeID).consecutiveFails + 1
    · obtain ⟨hfree, hroom⟩ := hcondition hmany
      rw [if_pos hmany, startsEpisode_fail hmany hfree, if_pos rfl, hcount]
      exact ⟨rfl, hcount ▸ hroom⟩
    · rw [if_neg hmany, startsEpisode_fail_of_few hmany, if_neg Bool.false_ne_true]
      exact ⟨hcount, hfits⟩
  · have hother : ∀ now, action ≠ .fail nodeID now := fun now h ↦ hfail ⟨now, h⟩
    rw [ejectCount_step hother, startsEpisode_eq_false fun time ↦ ejectedUntil_outlierAfter hother,
      if_neg Bool.false_ne_true]
    split_ifs
    · exact ⟨rfl, by decide⟩
    · exact ⟨hcount, hfits⟩

/-- A step that meets the condition leaves the back-off as it is to be. Assumes: the counts before
it are those of the episodes. -/
theorem episodesCounted_of_ejectsOnce {w : Watched} {action : Action} (hcounts : CountsEpisodes w)
    (hcondition : EjectsOnce w action) : EpisodesCounted w action where
  counted := fun nodeID _ _ _ ↦ (countsEpisodes_watch hcounts hcondition nodeID).1
  fits := fun nodeID ↦ (countsEpisodes_watch hcounts hcondition nodeID).2
  lasts := by
    intro nodeID hstarts
    rw [← (countsEpisodes_watch hcounts hcondition nodeID).1]
    change (outlier (step w.scheduler action) nodeID).ejectedUntil = some (action.now +
      min (outlierBaseEjectTime * (outlier (step w.scheduler action) nodeID).ejectCount)
        outlierMaxEjectTime)
    by_cases hfail : ∃ now, action = .fail nodeID now
    · obtain ⟨now, rfl⟩ := hfail
      by_cases hmany : outlierConsecutiveFails ≤ (outlier w.scheduler nodeID).consecutiveFails + 1
      · rw [outlier_step, outlierAfter, if_pos rfl, ejectedUntil_failedState_eq,
          ejectCount_failedState, if_pos hmany, if_pos hmany]
        rfl
      · rw [startsEpisode_fail_of_few hmany] at hstarts
        cases hstarts
    · have hother : ∀ now, action ≠ .fail nodeID now := fun now h ↦ hfail ⟨now, h⟩
      rw [startsEpisode_eq_false fun time ↦ ejectedUntil_outlierAfter hother] at hstarts
      cases hstarts
  kept := by
    rintro nodeID now rfl hejected
    have hfew : ¬ outlierConsecutiveFails ≤ (outlier w.scheduler nodeID).consecutiveFails + 1 := by
      intro hmany
      rw [(hcondition hmany).1] at hejected
      cases hejected
    rw [scheduler_watch, outlier_step, outlierAfter, if_pos rfl, ejectCount_failedState,
      ejectedUntil_failedState_eq, if_neg hfew, if_neg hfew]
    exact ⟨rfl, rfl⟩
  bounded := by
    intro nodeID time htime hnew
    rw [scheduler_watch, outlier_step] at htime
    by_cases hfail : ∃ now, action = .fail nodeID now
    · obtain ⟨now, rfl⟩ := hfail
      rw [outlierAfter, if_pos rfl, ejectedUntil_failedState_eq] at htime
      split_ifs at htime
      · obtain rfl := Option.some.inj htime
        obtain ⟨hlow, hhigh⟩ := ejectTime_bounds (outlier w.scheduler nodeID).ejectCount
        exact ⟨Nat.add_le_add_left hlow _, Nat.add_le_add_left hhigh _⟩
      · exact absurd htime hnew
    · exact absurd (ejectedUntil_outlierAfter (fun now h ↦ hfail ⟨now, h⟩) htime) hnew

/-- A step that leaves the back-off as it is to be meets the condition. -/
theorem ejectsOnce_of_episodesCounted {w : Watched} {action : Action}
    (hcounted : EpisodesCounted w action) : EjectsOnce w action := by
  cases action with
  | fail nodeID now =>
    intro hmany
    have hcount : (outlier (watch w (.fail nodeID now)).scheduler nodeID).ejectCount =
        (outlier w.scheduler nodeID).ejectCount + 1 := by
      rw [scheduler_watch, outlier_step, outlierAfter, if_pos rfl, ejectCount_failedState,
        if_pos hmany]
    refine ⟨Bool.eq_false_of_not_eq_true fun hejected ↦ ?_, hcount ▸ hcounted.fits nodeID⟩
    have hkept := (hcounted.kept nodeID now rfl hejected).1
    omega
  | success nodeID now => exact trivial
  | recover now => exact trivial

/-! ### Runs -/

/-- In a run the back-off counts the episodes exactly when each failure that is the fifth in a row
or a later one comes while its node is not ejected, with a count that leaves room. -/
theorem episodesCounted_runs_iff (store : MemoryStore) (actions : List Action) :
    EachStepMeets watch EpisodesCounted (.start store) actions ↔
      EachStepMeets watch EjectsOnce (.start store) actions := by
  refine (eachStepMeets_iff_of_kept watch (fun w action hcounts hcondition ↦
    countsEpisodes_watch hcounts hcondition) (fun w action hcounts ↦ ?_) ?_ actions).symm
  · exact ⟨episodesCounted_of_ejectsOnce hcounts, ejectsOnce_of_episodesCounted⟩
  · exact fun nodeID ↦ ⟨rfl, show outlierBaseEjectTime * 0 < 2 ^ 63 by decide⟩

/-- The sixth failure of a node in a row comes while the node is ejected: the count is two in the
first episode, and the ejection lasts for a minute. -/
theorem episodesCounted_counterexample :
    let w := run watch (.start newMemoryStore) (List.replicate 6 (.fail "edge-1" 0))
    w.scheduler.isEjected 0 "edge-1" = true ∧ w.episodes "edge-1" = 1 ∧
      (outlier w.scheduler "edge-1").ejectCount = 2 ∧
        (outlier w.scheduler "edge-1").ejectedUntil = some (60 * second) ∧
          ¬ ∀ actions, EachStepMeets watch EpisodesCounted (.start newMemoryStore) actions := by
  have hejected : (run watch (.start newMemoryStore)
      (List.replicate 6 (.fail "edge-1" 0))).scheduler.isEjected 0 "edge-1" = true := by
    decide +kernel
  have hepisodes : (run watch (.start newMemoryStore)
      (List.replicate 6 (.fail "edge-1" 0))).episodes "edge-1" = 1 := by decide +kernel
  have hcount : (outlier (run watch (.start newMemoryStore)
      (List.replicate 6 (.fail "edge-1" 0))).scheduler "edge-1").ejectCount = 2 := by
    decide +kernel
  refine ⟨hejected, hepisodes, hcount, by decide +kernel, fun hall ↦ ?_⟩
  have hmeets := hall (List.replicate 5 (.fail "edge-1" 0) ++ [.fail "edge-1" 0])
  rw [eachStepMeets_append] at hmeets
  have hcounted := hmeets.2.1.counted "edge-1" 0 (le_refl 0) hejected
  exact absurd (hcount.symm.trans (hcounted.trans hepisodes)) (by decide)

/-! ### Who notices the end of an ejection first -/

/-- The failure count, the end of the ejection and the ejection count. -/
def recovery (state : OutlierState) : ℕ × Option ℕ × ℕ :=
  (state.consecutiveFails, state.ejectedUntil, state.ejectCount)

/-- Two schedulers have the same outlier states. -/
def SameOutliers (s other : Scheduler) : Prop :=
  ∀ nodeID, (s.outlierMap nodeID).map recovery = (other.outlierMap nodeID).map recovery

/-- `RecoverOutliers` and a success of a node lead to the same outlier states in either order, at
once and after whatever reports come later. -/
def Commutes (s : Scheduler) (nodeID : String) (now : ℕ) : Prop :=
  ∀ later : List Action,
    SameOutliers (run step (step (step s (.recover now)) (.success nodeID now)) later)
      (run step (step (step s (.success nodeID now)) (.recover now)) later)

/-- A node with an ejection has a count. -/
def EjectionsCount (s : Scheduler) : Prop :=
  ∀ nodeID, ∀ time ∈ (outlier s nodeID).ejectedUntil, 0 < (outlier s nodeID).ejectCount

theorem ejectionsCount_newScheduler (store : MemoryStore) : EjectionsCount (newScheduler store) :=
  fun _ time (hnone : time ∈ none) ↦ absurd hnone (Option.not_mem_none time)

theorem ejectionsCount_step (s : Scheduler) (action : Action) (hcount : EjectionsCount s) :
    EjectionsCount (step s action) := by
  intro nodeID time htime
  rw [outlier_step] at htime ⊢
  cases action with
  | fail named now =>
    rw [outlierAfter] at htime ⊢
    split_ifs at htime ⊢
    · rw [ejectedUntil_failedState_eq] at htime
      rw [ejectCount_failedState]
      split_ifs at htime ⊢
      · exact Nat.succ_pos _
      · exact hcount nodeID time htime
    · exact hcount nodeID time htime
  | success named now =>
    rw [outlierAfter] at htime ⊢
    split_ifs at htime ⊢
    · rw [ejectCount_succeededState]
      split_ifs with hover
      · unfold succeededState at htime
        rw [if_pos hover] at htime
        cases htime
      · exact hcount nodeID time (ejectedUntil_succeededState htime)
    · exact hcount nodeID time htime
  | recover now =>
    rw [outlierAfter] at htime ⊢
    rw [ejectCount_recoveredState]
    exact hcount nodeID time (ejectedUntil_recoveredState htime)

/-- Behind the end of an ejection the recovery keeps the count and the success forgets it. Assumes:
the end lies behind. -/
theorem ejectCount_of_over {state : OutlierState} {time now : ℕ}
    (htime : state.ejectedUntil = some time) (hover : time < now) :
    (succeededState now (recoveredState now state)).ejectCount = state.ejectCount ∧
      (recoveredState now (succeededState now state)).ejectCount = 0 := by
  have hany : (state.ejectedUntil.any fun time ↦ decide (now > time)) = true := by
    rw [htime]
    exact decide_eq_true hover
  rw [ejectCount_recoveredState, ejectCount_succeededState, ejectCount_succeededState, if_pos hany,
    recoveredState, if_pos hany]
  exact ⟨rfl, rfl⟩

/-- While an ejection is not over, nothing is cleared. Assumes: its end does not lie behind. -/
theorem clears_nothing {state : OutlierState} {time now : ℕ}
    (htime : state.ejectedUntil = some time) (hnot : now ≤ time) :
    succeededState now (recoveredState now state) =
      recoveredState now (succeededState now state) := by
  have hany : ¬ (state.ejectedUntil.any fun time ↦ decide (now > time)) = true := by
    rw [htime]
    exact fun hover ↦ absurd (of_decide_eq_true hover) (not_lt.mpr hnot)
  rw [succeededState, succeededState, recoveredState, recoveredState]
  simp only [if_neg hany]

/-- The two orders give one scheduler at the end of the ejection. -/
theorem step_comm {s : Scheduler} {nodeID : String} {state : OutlierState} {now : ℕ}
    (hstate : s.outlierMap nodeID = some state) (htime : state.ejectedUntil = some now) :
    step (step s (.recover now)) (.success nodeID now) =
      step (step s (.success nodeID now)) (.recover now) := by
  refine congrArg (fun outlierMap ↦
    Scheduler.mk (updateNode s.store nodeID (succeededNode nearest)) outlierMap s.sticky) ?_
  funext id
  by_cases hid : id = nodeID
  · subst hid
    simp only [step, recoverOutliers, reportNodeSuccess, Function.update_self, hstate,
      Option.map_some, clears_nothing htime (le_refl now)]
  · simp only [step, recoverOutliers, reportNodeSuccess, Function.update_of_ne hid]

/-- From every state that a run reaches, the two ways to clear an ejection that has ended lead to
the same outlier states in either order exactly at the instant of its end. Assumes: the node has an
ejection, and it has ended. -/
theorem recovery_commutes_iff (store : MemoryStore) (actions : List Action) {nodeID : String}
    {state : OutlierState} {time now : ℕ}
    (hstate : (run step (newScheduler store) actions).outlierMap nodeID = some state)
    (htime : state.ejectedUntil = some time) (hended : time ≤ now) :
    Commutes (run step (newScheduler store) actions) nodeID now ↔ now = time := by
  set s := run step (newScheduler store) actions
  have horiginal : outlier s nodeID = state := by rw [outlier, hstate, Option.getD_some]
  constructor
  · intro hcommutes
    by_contra hne
    obtain ⟨hkept, hforgotten⟩ :=
      ejectCount_of_over htime (lt_of_le_of_ne hended (Ne.symm hne))
    have hsame := hcommutes [] nodeID
    simp only [run_nil, step, recoverOutliers, reportNodeSuccess, Function.update_self, hstate,
      Option.map_some, recovery, Option.some.injEq, Prod.mk.injEq, hkept, hforgotten] at hsame
    have hcount : EjectionsCount s :=
      invariant_run_of_step step ejectionsCount_step (ejectionsCount_newScheduler store) actions
    have hpos := hcount nodeID time (by rw [horiginal, htime]; rfl)
    rw [horiginal, hsame.2.2] at hpos
    exact lt_irrefl 0 hpos
  · rintro rfl later nodeID
    rw [step_comm hstate htime]

/-- Five failures of a node at the start: its ejection has ended after 31 seconds, and the orders
differ. -/
theorem recovery_commutes_iff_fiveFailures :
    ¬ Commutes (run step (newScheduler newMemoryStore) (List.replicate 5 (.fail "edge-1" 0)))
      "edge-1" (31 * second) := by
  have hstate : (run step (newScheduler newMemoryStore)
      (List.replicate 5 (.fail "edge-1" 0))).outlierMap "edge-1" =
        some ⟨5, some (30 * second), 1, some 0⟩ := by decide +kernel
  exact mt (recovery_commutes_iff newMemoryStore _ hstate rfl (by decide)).mp (by decide)

/-- When the recovery comes first the count stays at one, and when the success comes first it is
forgotten. -/
theorem recovery_commutes_counterexample :
    let s := run step (newScheduler newMemoryStore) (List.replicate 5 (.fail "edge-1" 0))
    (outlier (step (step s (.recover (31 * second))) (.success "edge-1" (31 * second)))
        "edge-1").ejectCount = 1 ∧
      (outlier (step (step s (.success "edge-1" (31 * second))) (.recover (31 * second)))
        "edge-1").ejectCount = 0 ∧
      ¬ Commutes s "edge-1" (31 * second) := by
  refine ⟨by decide +kernel, by decide +kernel, fun hcommutes ↦ ?_⟩
  exact absurd (hcommutes [] "edge-1") (by decide +kernel)

end LiveCDN.Controller.EjectionBackoff
