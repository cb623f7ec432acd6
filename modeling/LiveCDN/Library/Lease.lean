import LiveCDN.Library.GuardedRun

/-!
# Leases

A lease is held since a time, `none` when it is not held. It is granted at a time, a renewal moves
the time of a lease that is held, a sweep drops a lease whose time lies further back than a timeout,
and a revocation drops any (`after`). A system has a lease when it shows one (`view`), and what each
of its steps does to what it shows is an `event`.

Such a lease is held in every state of a run exactly when it is held at the start and every step
lets it survive (`held_throughout_iff`). It is held since a time exactly when a step of the run took
it at that time, or the start did, and the steps since then have left it alone (`held_iff`).
-/

set_option autoImplicit false
set_option relaxedAutoImplicit false

namespace LiveCDN.Library.Lease

open GuardedRun

/-! ### One lease -/

/-- What can happen to a lease. -/
inductive Event
  | grant (now : ℕ)
  | renew (now : ℕ)
  | sweep (now : ℕ) (timeout : ℤ)
  | revoke
  | idle
  deriving DecidableEq, Repr

/-- More time than a timeout has passed. A negative timeout has always passed. -/
def expired (now : ℕ) (timeout : ℤ) (time : ℕ) : Bool := decide (((now - time : ℕ) : ℤ) > timeout)

/-- A lease after an event. -/
def after (held : Option ℕ) : Event → Option ℕ
  | .grant now => some now
  | .renew now => held.map fun _ ↦ now
  | .sweep now timeout => held.filter fun time ↦ !expired now timeout time
  | .revoke => none
  | .idle => held

/-- An event that a held lease survives: no revocation, and no sweep after its timeout. -/
def Survives (held : Option ℕ) : Event → Prop
  | .sweep now timeout => ∀ time ∈ held, ((now - time : ℕ) : ℤ) ≤ timeout
  | .revoke => False
  | _ => True

/-- An event that takes a lease at a time: a grant, or a renewal of a lease that is held. -/
def Takes (held : Option ℕ) (time : ℕ) : Event → Prop
  | .grant now => now = time
  | .renew now => held.isSome = true ∧ now = time
  | _ => False

/-- An event that neither takes a lease nor drops it. -/
def LeavesAlone (held : Option ℕ) : Event → Prop
  | .sweep now timeout => ∀ time ∈ held, ((now - time : ℕ) : ℤ) ≤ timeout
  | .idle => True
  | _ => False

/-- The time of a lease after a sweep. -/
theorem filter_expired_eq_some_iff {held : Option ℕ} {now time : ℕ} {timeout : ℤ} :
    held.filter (fun time ↦ !expired now timeout time) = some time ↔
      held = some time ∧ ((now - time : ℕ) : ℤ) ≤ timeout := by
  rw [Option.filter_eq_some_iff, Bool.not_eq_true', expired, decide_eq_false_iff_not, not_lt]

/-- A held lease is held after the events it survives, and after no others. -/
theorem isSome_after_iff {held : Option ℕ} (hheld : held.isSome = true) (event : Event) :
    (after held event).isSome = true ↔ Survives held event := by
  obtain ⟨time, rfl⟩ := Option.isSome_iff_exists.mp hheld
  cases event with
  | grant now => exact iff_of_true rfl trivial
  | renew now => exact iff_of_true rfl trivial
  | sweep now timeout =>
    rw [after, Option.isSome_iff_exists]
    simp only [filter_expired_eq_some_iff]
    constructor
    · rintro ⟨other, hother, hin⟩ held hheld
      rwa [← Option.some_inj.mp (hother.symm.trans hheld)]
    · exact fun hin ↦ ⟨time, rfl, hin time rfl⟩
  | revoke => exact iff_of_false nofun id
  | idle => exact iff_of_true rfl trivial

/-- After an event a lease is held since a time exactly when the event takes it at that time, or it
was held since then and the event leaves it alone. -/
theorem after_eq_some_iff {held : Option ℕ} {event : Event} {time : ℕ} :
    after held event = some time ↔
      Takes held time event ∨ held = some time ∧ LeavesAlone held event := by
  cases event with
  | grant now => simp [after, Takes, LeavesAlone]
  | renew now =>
    cases held with
    | none => simp [after, Takes, LeavesAlone]
    | some since => simp [after, Takes, LeavesAlone]
  | sweep now timeout =>
    rw [after, filter_expired_eq_some_iff]
    constructor
    · rintro ⟨rfl, hin⟩
      exact Or.inr ⟨rfl, fun other hother ↦ Option.some_inj.mp hother ▸ hin⟩
    · rintro (htakes | ⟨rfl, hin⟩)
      · exact htakes.elim
      · exact ⟨rfl, hin time rfl⟩
  | revoke => simp [after, Takes, LeavesAlone]
  | idle => simp [after, Takes, LeavesAlone]

/-- A lease that an event leaves alone survives it unchanged. -/
theorem after_of_leavesAlone {held : Option ℕ} {event : Event} (halone : LeavesAlone held event) :
    after held event = held := by
  cases event with
  | sweep now timeout =>
    cases held with
    | none => rfl
    | some time => exact filter_expired_eq_some_iff.mpr ⟨rfl, halone time rfl⟩
  | idle => rfl
  | _ => exact halone.elim

theorem survives_of_leavesAlone {held : Option ℕ} {event : Event}
    (halone : LeavesAlone held event) : Survives held event := by
  cases event with
  | sweep now timeout => exact halone
  | idle => trivial
  | _ => exact halone.elim

/-! ### The lease of a system -/

section System

variable {State Action : Type*} (step : State → Action → State) (view : State → Option ℕ)
  (event : State → Action → Event) (Invariant : State → Prop)
  (hinvariant : ∀ state action, Invariant state → Invariant (step state action))
  (hview : ∀ state action, Invariant state →
    view (step state action) = after (view state) (event state action))
  {start : State} (hstart : Invariant start)

include hinvariant hview hstart

/-- A lease is held in every state of a run exactly when it is held at the start and each step lets
it survive. -/
theorem held_throughout_iff (actions : List Action) :
    (∀ taken, taken <+: actions → (view (run step start taken)).isSome = true) ↔
      (view start).isSome = true ∧
        EachStepMeets step (fun state action ↦ Survives (view state) (event state action)) start
          actions := by
  rw [@forall_prefix_iff _ _ step fun state ↦ (view state).isSome = true]
  refine and_congr_right fun hheld ↦ ?_
  refine (eachStepMeets_iff_of_kept step
    (fun state action (hstate : Invariant state ∧ (view state).isSome = true) hafter ↦
      ⟨hinvariant state action hstate.1, hafter⟩) ?_ ⟨hstart, hheld⟩ actions)
  rintro state action ⟨hstate, hheld⟩
  rw [hview state action hstate, isSome_after_iff hheld]

/-- A lease is held since a time after a run exactly when it was held since then at the start and
every step has left it alone, or a step took it at that time and the steps behind it have left it
alone. -/
theorem held_iff {time : ℕ} (actions : List Action) :
    view (run step start actions) = some time ↔
      (view start = some time ∧
        EachStepMeets step (fun state action ↦ LeavesAlone (view state) (event state action)) start
          actions) ∨
      ∃ before action behind, actions = before ++ action :: behind ∧
        Takes (view (run step start before)) time (event (run step start before) action) ∧
        EachStepMeets step (fun state action ↦ LeavesAlone (view state) (event state action))
          (step (run step start before) action) behind := by
  induction actions generalizing start with
  | nil => simp [EachStepMeets]
  | cons action actions ih =>
    rw [run_cons, ih (hinvariant start action hstart), hview start action hstart,
      after_eq_some_iff]
    constructor
    · rintro (⟨htakes | ⟨hheld, halone⟩, hrest⟩ | ⟨before, later, behind, rfl, htakes, hrest⟩)
      · exact Or.inr ⟨[], action, actions, rfl, htakes, hrest⟩
      · exact Or.inl ⟨hheld, halone, hrest⟩
      · exact Or.inr ⟨action :: before, later, behind, rfl, htakes, hrest⟩
    · rintro (⟨hheld, halone, hrest⟩ | ⟨before, later, behind, heq, htakes, hrest⟩)
      · exact Or.inl ⟨Or.inr ⟨hheld, halone⟩, hrest⟩
      · cases before with
        | nil =>
          obtain ⟨rfl, rfl⟩ := List.cons.inj heq
          exact Or.inl ⟨Or.inl htakes, hrest⟩
        | cons first before =>
          obtain ⟨rfl, rfl⟩ := List.cons.inj heq
          exact Or.inr ⟨before, later, behind, rfl, htakes, hrest⟩

end System

end LiveCDN.Library.Lease
