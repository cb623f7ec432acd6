import Mathlib

/-!
# Runs whose steps meet a condition

A system given by a step function on its states and actions. `run` is the state after a list of
actions, and `EachStepMeets` says that every action of the list meets a condition at the state it is
taken in. An invariant that such steps preserve holds at the end of such a run (`invariant_run`),
and the condition of a run is the condition of its two halves (`eachStepMeets_append`), so the
invariant holds at every state the run passes through. Conditions that agree under an invariant are
met by the same runs (`eachStepMeets_iff_of_invariant`), and so are conditions that agree as long as
the steps that meet them keep something (`eachStepMeets_iff_of_kept`), also among the runs that meet
a guard (`eachStepMeets_iff_under`). What each such step meets besides is met along the run
(`eachStepMeets_of_kept`). What holds in every state of a run holds at its start and after each step
(`forall_prefix_iff`), and what a run shows stays the same exactly when no step changes it
(`forall_prefix_view_eq_iff`). When a step that misses the condition does damage that no later step
repairs, the condition is exact (`run_iff_eachStepMeets`).
-/

set_option autoImplicit false
set_option relaxedAutoImplicit false

namespace LiveCDN.Library.GuardedRun

variable {State Action : Type*} (step : State → Action → State)

/-- The state after a list of actions. -/
def run (start : State) (actions : List Action) : State :=
  actions.foldl step start

/-- Every action meets the condition at the state it is taken in. -/
def EachStepMeets (condition : State → Action → Prop) : State → List Action → Prop
  | _, [] => True
  | state, action :: actions =>
    condition state action ∧ EachStepMeets condition (step state action) actions

instance decidableEachStepMeets {condition : State → Action → Prop}
    [∀ state action, Decidable (condition state action)] :
    ∀ (start : State) (actions : List Action),
      Decidable (EachStepMeets step condition start actions)
  | _, [] => inferInstanceAs (Decidable True)
  | start, action :: actions =>
    have : Decidable (EachStepMeets step condition (step start action) actions) :=
      decidableEachStepMeets (step start action) actions
    instDecidableAnd

@[simp] theorem run_nil (start : State) : run step start [] = start := rfl

@[simp] theorem run_cons (start : State) (action : Action) (actions : List Action) :
    run step start (action :: actions) = run step (step start action) actions := rfl

theorem run_append (start : State) (first second : List Action) :
    run step start (first ++ second) = run step (run step start first) second :=
  List.foldl_append

/-- A condition on a run is the condition on its two halves. -/
theorem eachStepMeets_append {condition : State → Action → Prop} {start : State}
    {first second : List Action} :
    EachStepMeets step condition start (first ++ second) ↔
      EachStepMeets step condition start first ∧
        EachStepMeets step condition (run step start first) second := by
  induction first generalizing start with
  | nil => simp [EachStepMeets]
  | cons action first ih =>
    rw [List.cons_append, EachStepMeets, ih, EachStepMeets, run_cons, and_assoc]

/-- A run meets two conditions together exactly when it meets each. -/
theorem eachStepMeets_and {condition other : State → Action → Prop} {start : State}
    {actions : List Action} :
    EachStepMeets step (fun state action ↦ condition state action ∧ other state action) start
        actions ↔
      EachStepMeets step condition start actions ∧ EachStepMeets step other start actions := by
  induction actions generalizing start with
  | nil => simp [EachStepMeets]
  | cons action actions ih => rw [EachStepMeets, EachStepMeets, EachStepMeets, ih, and_and_and_comm]

/-- A condition that each action of a list meets in every state is met by the run. -/
theorem eachStepMeets_of_forall {condition : State → Action → Prop} {actions : List Action}
    (hall : ∀ state, ∀ action ∈ actions, condition state action) {start : State} :
    EachStepMeets step condition start actions := by
  induction actions generalizing start with
  | nil => exact trivial
  | cons action actions ih =>
    refine ⟨hall start action List.mem_cons_self, ih fun state other hother ↦ ?_⟩
    exact hall state other (List.mem_cons_of_mem _ hother)

/-- A condition on the actions alone is met by a run exactly when each of its actions meets it. -/
theorem eachStepMeets_const_iff {condition : Action → Prop} {start : State}
    {actions : List Action} :
    EachStepMeets step (fun _ action ↦ condition action) start actions ↔
      ∀ action ∈ actions, condition action := by
  induction actions generalizing start with
  | nil => simp [EachStepMeets]
  | cons action actions ih => rw [EachStepMeets, ih, List.forall_mem_cons]

/-- An invariant of the steps that meet the condition holds at the end of a run of them. Assumes:
the invariant holds at the start, and a step that meets the condition preserves it. -/
theorem invariant_run {condition : State → Action → Prop} {Invariant : State → Prop}
    (hstep : ∀ state action, Invariant state → condition state action →
      Invariant (step state action))
    {start : State} {actions : List Action} (hstart : Invariant start)
    (hmeets : EachStepMeets step condition start actions) : Invariant (run step start actions) := by
  induction actions generalizing start with
  | nil => exact hstart
  | cons action actions ih => exact ih (hstep start action hstart hmeets.1) hmeets.2

/-- An invariant of every step holds at the end of every run. Assumes: the invariant holds at the
start, and each step preserves it. -/
theorem invariant_run_of_step {Invariant : State → Prop}
    (hstep : ∀ state action, Invariant state → Invariant (step state action))
    {start : State} (hstart : Invariant start) (actions : List Action) :
    Invariant (run step start actions) := by
  induction actions generalizing start with
  | nil => exact hstart
  | cons action actions ih => exact ih (hstep start action hstart)

/-- A run that meets a condition meets another one. Assumes: a step that meets the first condition
keeps what holds, and meets the other one where it holds, and it holds at the start. -/
theorem eachStepMeets_of_kept {condition other : State → Action → Prop} {Kept : State → Prop}
    (hkept : ∀ state action, Kept state → condition state action → Kept (step state action))
    (hother : ∀ state action, Kept state → condition state action → other state action)
    {start : State} (hstart : Kept start) {actions : List Action}
    (hmeets : EachStepMeets step condition start actions) :
    EachStepMeets step other start actions := by
  induction actions generalizing start with
  | nil => exact trivial
  | cons action actions ih =>
    exact ⟨hother start action hstart hmeets.1, ih (hkept start action hstart hmeets.1) hmeets.2⟩

/-- Two conditions that agree where something holds are met by the same runs. Assumes: a step that
meets the first condition keeps what holds, and it holds at the start. -/
theorem eachStepMeets_iff_of_kept {condition other : State → Action → Prop} {Kept : State → Prop}
    (hkept : ∀ state action, Kept state → condition state action → Kept (step state action))
    (hagree : ∀ state action, Kept state → (condition state action ↔ other state action))
    {start : State} (hstart : Kept start) (actions : List Action) :
    EachStepMeets step condition start actions ↔ EachStepMeets step other start actions := by
  induction actions generalizing start with
  | nil => exact Iff.rfl
  | cons action actions ih =>
    rw [EachStepMeets, EachStepMeets, ← hagree start action hstart]
    exact and_congr_right fun hcondition ↦ ih (hkept start action hstart hcondition)

/-- Two conditions that agree where something holds are met by the same runs among those whose steps
meet a guard. Assumes: the run meets the guard, a step that meets the guard and the first condition
keeps what holds, and it holds at the start. -/
theorem eachStepMeets_iff_under {guard condition other : State → Action → Prop}
    {Kept : State → Prop}
    (hkept : ∀ state action, Kept state → guard state action → condition state action →
      Kept (step state action))
    (hagree : ∀ state action, Kept state → guard state action →
      (condition state action ↔ other state action))
    {start : State} (hstart : Kept start) {actions : List Action}
    (hguard : EachStepMeets step guard start actions) :
    EachStepMeets step condition start actions ↔ EachStepMeets step other start actions := by
  induction actions generalizing start with
  | nil => exact Iff.rfl
  | cons action actions ih =>
    rw [EachStepMeets, EachStepMeets, ← hagree start action hstart hguard.1]
    exact and_congr_right fun hcondition ↦
      ih (hkept start action hstart hguard.1 hcondition) hguard.2

/-- Two conditions that agree under an invariant are met by the same runs. Assumes: each step
preserves the invariant, and it holds at the start. -/
theorem eachStepMeets_iff_of_invariant {condition other : State → Action → Prop}
    {Invariant : State → Prop}
    (hinvariant : ∀ state action, Invariant state → Invariant (step state action))
    (hagree : ∀ state action, Invariant state → (condition state action ↔ other state action))
    {start : State} (hstart : Invariant start) (actions : List Action) :
    EachStepMeets step condition start actions ↔ EachStepMeets step other start actions :=
  eachStepMeets_iff_of_kept step (fun state action hstate _ ↦ hinvariant state action hstate) hagree
    hstart actions

/-- What a run shows of its states is the same after every part of it exactly when no step of it
changes what shows. -/
theorem forall_prefix_view_eq_iff {View : Type*} (view : State → View) {start : State}
    {actions : List Action} :
    (∀ taken, taken <+: actions → view (run step start taken) = view start) ↔
      EachStepMeets step (fun state action ↦ view (step state action) = view state) start
        actions := by
  induction actions generalizing start with
  | nil => simp [EachStepMeets]
  | cons action actions ih =>
    rw [EachStepMeets, ← ih]
    constructor
    · intro hall
      have hfirst : view (step start action) = view start :=
        hall [action] (List.cons_prefix_cons.mpr ⟨rfl, List.nil_prefix⟩)
      refine ⟨hfirst, fun taken htaken ↦ ?_⟩
      rw [hfirst]
      exact hall (action :: taken) (List.cons_prefix_cons.mpr ⟨rfl, htaken⟩)
    · rintro ⟨hfirst, hrest⟩ taken htaken
      cases taken with
      | nil => rfl
      | cons other taken =>
        obtain ⟨rfl, hprefix⟩ := List.cons_prefix_cons.mp htaken
        rw [run_cons, hrest taken hprefix, hfirst]

/-- What is said of the state after every part of a run is said of its start and of the state after
each of its steps. -/
theorem forall_prefix_iff {Holds : State → Prop} {start : State} {actions : List Action} :
    (∀ taken, taken <+: actions → Holds (run step start taken)) ↔
      Holds start ∧
        EachStepMeets step (fun state action ↦ Holds (step state action)) start actions := by
  induction actions generalizing start with
  | nil => simp [EachStepMeets]
  | cons action actions ih =>
    rw [EachStepMeets, ← ih]
    constructor
    · intro hall
      exact ⟨hall [] List.nil_prefix, fun taken htaken ↦
        hall (action :: taken) (List.cons_prefix_cons.mpr ⟨rfl, htaken⟩)⟩
    · rintro ⟨hstart, hrest⟩ taken htaken
      cases taken with
      | nil => exact hstart
      | cons other taken =>
        obtain ⟨rfl, hprefix⟩ := List.cons_prefix_cons.mp htaken
        exact hrest taken hprefix

/-- What good steps keep and a bad step loses for good is there after a run exactly when every step
of the run is good. Assumes: an invariant of every step, under which the steps that meet the
condition keep what is good and the others do damage, the damage stays, and it excludes what is
good. -/
theorem run_iff_eachStepMeets {condition : State → Action → Prop}
    {Invariant Good Damaged : State → Prop}
    (hinvariant : ∀ state action, Invariant state → Invariant (step state action))
    (hgood : ∀ state action, Invariant state → Good state → condition state action →
      Good (step state action))
    (hdamage : ∀ state action, Invariant state → Good state → ¬ condition state action →
      Damaged (step state action))
    (hstays : ∀ state action, Invariant state → Damaged state → Damaged (step state action))
    (hexclusive : ∀ state, Damaged state → ¬ Good state)
    {start : State} (hstart : Invariant start) (hstartGood : Good start) (actions : List Action) :
    Good (run step start actions) ↔ EachStepMeets step condition start actions := by
  induction actions generalizing start with
  | nil => exact ⟨fun _ ↦ trivial, fun _ ↦ hstartGood⟩
  | cons action actions ih =>
    rw [run_cons, EachStepMeets]
    by_cases hcondition : condition start action
    · rw [ih (hinvariant start action hstart) (hgood start action hstart hstartGood hcondition),
        and_iff_right hcondition]
    · have hrun : Invariant (run step (step start action) actions) ∧
          Damaged (run step (step start action) actions) :=
        invariant_run_of_step step
          (fun state next (hboth : Invariant state ∧ Damaged state) ↦
            ⟨hinvariant state next hboth.1, hstays state next hboth.1 hboth.2⟩)
          ⟨hinvariant start action hstart, hdamage start action hstart hstartGood hcondition⟩
          actions
      exact iff_of_false (hexclusive _ hrun.2) fun hmeets ↦ hcondition hmeets.1

end LiveCDN.Library.GuardedRun
