import Mathlib

/-!
# Receivers with a counter of their own

A receiver that treats each item by a counter which does not travel with the items: some items move
the counter on and others do not. What it makes of an item depends on how many items before it have
moved the counter (`getElem?_receiveAll`), which are all of them but those that did not
(`countP_take_add`).
-/

set_option autoImplicit false
set_option relaxedAutoImplicit false

namespace LiveCDN.Library.ImplicitCounter

variable {Counter Item Outcome : Type*}

/-- What a receiver makes of items, one after another. -/
def receiveAll (next : Counter → Counter) (counts : Item → Bool)
    (outcome : Counter → Item → Outcome) : Counter → List Item → List Outcome
  | _, [] => []
  | counter, item :: items =>
    outcome counter item ::
      receiveAll next counts outcome (if counts item then next counter else counter) items

/-- An item is treated by the counter moved on once for each item before it that counts. -/
theorem getElem?_receiveAll (next : Counter → Counter) (counts : Item → Bool)
    (outcome : Counter → Item → Outcome) (counter : Counter) (items : List Item) (index : ℕ) :
    (receiveAll next counts outcome counter items)[index]? =
      items[index]?.map (outcome (next^[(items.take index).countP counts] counter)) := by
  induction items generalizing counter index with
  | nil => rfl
  | cons item items ih =>
    cases index with
    | zero => rfl
    | succ index =>
      rw [receiveAll, List.getElem?_cons_succ, List.getElem?_cons_succ, ih, List.take_succ_cons,
        List.countP_cons]
      split_ifs with hcounts
      · rw [Function.iterate_succ_apply]
      · rw [Nat.add_zero]

/-- The items before an index that count, and those that do not, are as many as the index. Assumes:
there are that many items. -/
theorem countP_take_add (counts : Item → Bool) {items : List Item} {index : ℕ}
    (hindex : index ≤ items.length) :
    (items.take index).countP counts + (items.take index).countP (fun item ↦ !counts item) =
      index := by
  have hflip : (fun item ↦ !counts item) = fun item ↦ decide ¬counts item = true := by
    funext item
    cases counts item <;> rfl
  rw [hflip, ← List.length_eq_countP_add_countP, List.length_take, min_eq_left hindex]

end LiveCDN.Library.ImplicitCounter
