import Mathlib

/-!
# Events in a row

A history of events, some of which count and some of which end a row. `streak` is what a counter
shows that goes up at the one and back to zero at the other, and `InARow` says that so many events
that count lie behind the last one that ends a row. The counter shows the longest such row
(`inARow_iff`).
-/

set_option autoImplicit false
set_option relaxedAutoImplicit false

namespace LiveCDN.Library.Streak

variable {Event : Type*} (counts resets : Event → Bool)

/-- The counter after an event. -/
def counted (count : ℕ) (event : Event) : ℕ :=
  if counts event then count + 1 else if resets event then 0 else count

/-- The counter after a history. -/
def streak (history : List Event) : ℕ := history.foldl (counted counts resets) 0

/-- So many events that count, and behind the first of them none that ends a row. -/
def InARow (count : ℕ) (history : List Event) : Prop :=
  ∃ front back, history = front ++ back ∧ (∀ event ∈ back, resets event = false) ∧
    count ≤ back.countP counts

theorem streak_concat (history : List Event) (event : Event) :
    streak counts resets (history ++ [event]) =
      counted counts resets (streak counts resets history) event := by
  rw [streak, List.foldl_append]
  rfl

/-- Without an event that ends a row the counter goes up by the events that count. -/
theorem foldl_counted {back : List Event} (hback : ∀ event ∈ back, resets event = false)
    (count : ℕ) :
    back.foldl (counted counts resets) count = count + back.countP counts := by
  induction back generalizing count with
  | nil => rfl
  | cons event back ih =>
    have hevent : counted counts resets count event =
        count + if counts event then 1 else 0 := by
      rw [counted, hback event List.mem_cons_self, if_neg Bool.false_ne_true]
      split_ifs <;> rfl
    rw [List.foldl_cons, ih (fun other hother ↦ hback other (List.mem_cons_of_mem _ hother)),
      hevent, List.countP_cons]
    omega

/-- Behind the last event that ends a row lie as many events that count as the counter shows.
Assumes: no event that counts ends a row. -/
theorem exists_row (hdisjoint : ∀ event, counts event = true → resets event = false)
    (history : List Event) :
    ∃ front back, history = front ++ back ∧ (∀ event ∈ back, resets event = false) ∧
      back.countP counts = streak counts resets history := by
  induction history using List.reverseRecOn with
  | nil => exact ⟨[], [], rfl, nofun, rfl⟩
  | append_singleton history event ih =>
    obtain ⟨front, back, rfl, hback, hcount⟩ := ih
    rw [streak_concat, ← hcount, counted]
    by_cases hresets : resets event = true
    · have hcounts : ¬ counts event = true := fun h ↦
        Bool.false_ne_true ((hdisjoint event h).symm.trans hresets)
      rw [if_neg hcounts, if_pos hresets]
      exact ⟨front ++ back ++ [event], [], (List.append_nil _).symm, nofun, rfl⟩
    · refine ⟨front, back ++ [event], List.append_assoc _ _ _, fun other hother ↦ ?_, ?_⟩
      · rcases List.mem_append.mp hother with hother | hother
        · exact hback other hother
        · rw [List.mem_singleton.mp hother]
          exact Bool.eq_false_of_not_eq_true hresets
      · rw [if_neg hresets, List.countP_append, List.countP_singleton]
        split_ifs <;> rfl

/-- So many events stand in a row exactly when the counter shows at least as many. Assumes: no
event that counts ends a row. -/
theorem inARow_iff (hdisjoint : ∀ event, counts event = true → resets event = false) {count : ℕ}
    {history : List Event} :
    InARow counts resets count history ↔ count ≤ streak counts resets history := by
  constructor
  · rintro ⟨front, back, rfl, hback, hcount⟩
    rw [streak, List.foldl_append, foldl_counted counts resets hback]
    exact hcount.trans (Nat.le_add_left _ _)
  · intro hstreak
    obtain ⟨front, back, hhistory, hback, hcount⟩ := exists_row counts resets hdisjoint history
    exact ⟨front, back, hhistory, hback, hcount ▸ hstreak⟩

end LiveCDN.Library.Streak
