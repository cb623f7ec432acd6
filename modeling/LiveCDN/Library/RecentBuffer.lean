import Mathlib

/-!
# Buffers of the most recent elements

A buffer to which elements are added at the end and which keeps the last ones, up to a limit
(`push`). Read from the end it is what was added, up to the limit (`reverse_pushAll_push`). So the
last marked element stays in the buffer exactly while fewer elements than the limit are added behind
it (`newest_pushAll_push`).
-/

set_option autoImplicit false
set_option relaxedAutoImplicit false

namespace LiveCDN.Library.RecentBuffer

variable {α : Type*}

/-- Adds an element and keeps the last ones. -/
def push (limit : ℕ) (buffer : List α) (a : α) : List α := (buffer ++ [a]).rtake limit

/-- Adds elements one after another. -/
def pushAll (limit : ℕ) (buffer items : List α) : List α := items.foldl (push limit) buffer

/-- The last element that is marked. -/
def newest (marked : α → Bool) (buffer : List α) : Option α := buffer.reverse.find? marked

theorem pushAll_append (limit : ℕ) (buffer first second : List α) :
    pushAll limit buffer (first ++ second) = pushAll limit (pushAll limit buffer first) second :=
  List.foldl_append

theorem pushAll_concat (limit : ℕ) (buffer items : List α) (a : α) :
    pushAll limit buffer (items ++ [a]) = push limit (pushAll limit buffer items) a :=
  pushAll_append limit buffer items [a]

theorem reverse_push (limit : ℕ) (buffer : List α) (a : α) :
    (push limit buffer a).reverse = (a :: buffer.reverse).take limit := by
  rw [push, List.rtake_eq_reverse_take_reverse, List.reverse_reverse, List.reverse_append,
    List.reverse_singleton, List.singleton_append]

/-- Read from the end, the buffer is what was added, up to the limit. -/
theorem reverse_pushAll_push (limit : ℕ) (buffer : List α) (a : α) (items : List α) :
    (pushAll limit (push limit buffer a) items).reverse =
      (items.reverse ++ a :: buffer.reverse).take limit := by
  induction items using List.reverseRecOn with
  | nil => exact reverse_push limit buffer a
  | append_singleton items item ih =>
    rw [pushAll_concat, reverse_push, ih, List.reverse_append, List.reverse_singleton,
      List.singleton_append, List.cons_append]
    cases limit with
    | zero => rw [List.take_zero, List.take_zero]
    | succ limit =>
      rw [List.take_succ_cons, List.take_succ_cons, List.take_take, min_eq_left (Nat.le_succ limit)]

/-- A marked element that was added is the newest one exactly while fewer elements than the limit
are added behind it. Assumes: the element is marked, and those behind it are not. -/
theorem newest_pushAll_push {marked : α → Bool} (limit : ℕ) (buffer : List α) {a : α}
    {items : List α} (ha : marked a = true) (hitems : ∀ item ∈ items, marked item = false) :
    newest marked (pushAll limit (push limit buffer a) items) =
      if items.length < limit then some a else none := by
  have hbehind : items.reverse.find? marked = none := by
    rw [List.find?_eq_none]
    intro item hitem
    rw [hitems item (List.mem_reverse.mp hitem)]
    exact Bool.false_ne_true
  rw [newest, reverse_pushAll_push]
  by_cases hfew : items.length < limit
  · obtain ⟨room, hroom⟩ : ∃ room, limit - items.reverse.length = room + 1 :=
      ⟨limit - items.length - 1, by rw [List.length_reverse]; omega⟩
    rw [if_pos hfew, List.take_append, List.find?_append, hroom, List.take_succ_cons,
      List.find?_cons_of_pos ha]
    have hnone : (items.reverse.take limit).find? marked = none :=
      List.find?_eq_none.mpr fun item hitem ↦
        List.find?_eq_none.mp hbehind item (List.mem_of_mem_take hitem)
    rw [hnone, Option.none_or]
  · have hwhole : limit ≤ items.reverse.length := by
      rw [List.length_reverse]
      omega
    rw [if_neg hfew, List.take_append_of_le_length hwhole, List.find?_eq_none]
    exact fun item hitem ↦ List.find?_eq_none.mp hbehind item (List.mem_of_mem_take hitem)

end LiveCDN.Library.RecentBuffer
