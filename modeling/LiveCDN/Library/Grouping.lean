import Mathlib.Data.List.DropRight

/-!
# Cutting a list into groups at its heads

A predicate marks some elements of a list as heads. The list is then a run without a head followed
by groups, each of them a head and the elements up to the next one (`cut`, `groups`). What appending
one element does to the groups is `groups_concat_of_isHead` and `groups_concat_of_not_isHead`; a
list that is put together from groups is cut into the same groups again (`groups_flatten`).

`window` keeps the last groups, each cut off at a length. A window is a fixed point: the window of
its flattening is the window itself (`window_flatten`). `lastMarked` is the last element that
satisfies a predicate.
-/

set_option autoImplicit false
set_option relaxedAutoImplicit false

namespace LiveCDN.Library.Grouping

universe u v

variable {α : Type u} {β : Type v} (isHead : α → Bool)

/-! ### Groups -/

/-- The run before the first head, and the groups from there on. -/
def cut : List α → List α × List (List α)
  | [] => ([], [])
  | x :: rest =>
    if isHead x then ([], (x :: (cut rest).1) :: (cut rest).2)
    else (x :: (cut rest).1, (cut rest).2)

/-- The groups of a list, the run before the first head dropped. -/
def groups (xs : List α) : List (List α) := (cut isHead xs).2

/-- A head followed by elements that are none. -/
def IsGroup (group : List α) : Prop :=
  ∃ head tail, group = head :: tail ∧ isHead head = true ∧ ∀ y ∈ tail, isHead y = false

variable {isHead}

theorem cut_cons_of_isHead {x : α} (rest : List α) (hx : isHead x = true) :
    cut isHead (x :: rest) = ([], (x :: (cut isHead rest).1) :: (cut isHead rest).2) := by
  simp [cut, hx]

theorem cut_cons_of_not_isHead {x : α} (rest : List α) (hx : isHead x = false) :
    cut isHead (x :: rest) = (x :: (cut isHead rest).1, (cut isHead rest).2) := by
  simp [cut, hx]

/-- A run without a head is all run. Assumes: none of the elements is a head. -/
theorem cut_append_of_not_isHead {run : List α} (rest : List α)
    (hrun : ∀ y ∈ run, isHead y = false) :
    cut isHead (run ++ rest) = (run ++ (cut isHead rest).1, (cut isHead rest).2) := by
  induction run with
  | nil => rfl
  | cons x run ih =>
    have hrest := ih fun y hy ↦ hrun y (List.mem_cons_of_mem x hy)
    rw [List.cons_append, cut_cons_of_not_isHead _ (hrun x List.mem_cons_self), hrest]
    rfl

/-- A head at the end begins a group. Assumes: the element is a head. -/
theorem cut_concat_of_isHead (xs : List α) {x : α} (hx : isHead x = true) :
    cut isHead (xs ++ [x]) = ((cut isHead xs).1, (cut isHead xs).2 ++ [[x]]) := by
  induction xs with
  | nil => simp [cut, hx]
  | cons y xs ih =>
    by_cases hy : isHead y = true
    · rw [List.cons_append, cut_cons_of_isHead _ hy, cut_cons_of_isHead _ hy, ih]
      rfl
    · have hy' := eq_false_of_ne_true hy
      rw [List.cons_append, cut_cons_of_not_isHead _ hy', cut_cons_of_not_isHead _ hy', ih]

theorem groups_concat_of_isHead (xs : List α) {x : α} (hx : isHead x = true) :
    groups isHead (xs ++ [x]) = groups isHead xs ++ [[x]] :=
  congrArg Prod.snd (cut_concat_of_isHead xs hx)

/-- What is no head goes to the end of the last group, or of the run when there is no group.
Assumes: the element is no head. -/
theorem cut_concat_of_not_isHead (xs : List α) {x : α} (hx : isHead x = false) :
    ((cut isHead xs).2 = [] ∧ cut isHead (xs ++ [x]) = ((cut isHead xs).1 ++ [x], [])) ∨
      ∃ earlier last, (cut isHead xs).2 = earlier ++ [last] ∧
        cut isHead (xs ++ [x]) = ((cut isHead xs).1, earlier ++ [last ++ [x]]) := by
  induction xs with
  | nil =>
    left
    simp [cut, hx]
  | cons y xs ih =>
    by_cases hy : isHead y = true
    · right
      rw [List.cons_append, cut_cons_of_isHead _ hy, cut_cons_of_isHead _ hy]
      rcases ih with ⟨hnone, hcut⟩ | ⟨earlier, last, hsome, hcut⟩
      · refine ⟨[], y :: (cut isHead xs).1, ?_, ?_⟩
        · rw [hnone]
          rfl
        · rw [hcut]
          rfl
      · refine ⟨(y :: (cut isHead xs).1) :: earlier, last, ?_, ?_⟩
        · rw [hsome]
          rfl
        · rw [hcut]
          rfl
    · have hy' := eq_false_of_ne_true hy
      rw [List.cons_append, cut_cons_of_not_isHead _ hy', cut_cons_of_not_isHead _ hy']
      rcases ih with ⟨hnone, hcut⟩ | ⟨earlier, last, hsome, hcut⟩
      · refine Or.inl ⟨hnone, ?_⟩
        rw [hcut]
        rfl
      · refine Or.inr ⟨earlier, last, hsome, ?_⟩
        rw [hcut]

/-- The groups after an element that is no head: there are none yet, or the last one is longer.
Assumes: the element is no head. -/
theorem groups_concat_of_not_isHead (xs : List α) {x : α} (hx : isHead x = false) :
    (groups isHead xs = [] ∧ groups isHead (xs ++ [x]) = []) ∨
      ∃ earlier last, groups isHead xs = earlier ++ [last] ∧
        groups isHead (xs ++ [x]) = earlier ++ [last ++ [x]] := by
  rcases cut_concat_of_not_isHead xs hx with ⟨hnone, hcut⟩ | ⟨earlier, last, hsome, hcut⟩
  · exact Or.inl ⟨hnone, congrArg Prod.snd hcut⟩
  · exact Or.inr ⟨earlier, last, hsome, congrArg Prod.snd hcut⟩

/-- The run and the groups make up the list. -/
theorem cut_flatten (xs : List α) : (cut isHead xs).1 ++ (cut isHead xs).2.flatten = xs := by
  induction xs with
  | nil => rfl
  | cons x xs ih =>
    by_cases hx : isHead x = true
    · rw [cut_cons_of_isHead _ hx]
      simpa using ih
    · rw [cut_cons_of_not_isHead _ (eq_false_of_ne_true hx)]
      simpa using ih

theorem flatten_groups_suffix (xs : List α) : (groups isHead xs).flatten <:+ xs :=
  ⟨(cut isHead xs).1, cut_flatten xs⟩

/-- The run holds no head and every group is one. -/
theorem isGroup_cut (xs : List α) :
    (∀ y ∈ (cut isHead xs).1, isHead y = false) ∧
      ∀ group ∈ groups isHead xs, IsGroup isHead group := by
  induction xs with
  | nil => simp [groups, cut]
  | cons x xs ih =>
    by_cases hx : isHead x = true
    · have hgroup : IsGroup isHead (x :: (cut isHead xs).1) := ⟨x, _, rfl, hx, ih.1⟩
      rw [groups, cut_cons_of_isHead _ hx]
      refine ⟨by simp, ?_⟩
      intro group hmem
      rcases List.mem_cons.mp hmem with rfl | hmem
      · exact hgroup
      · exact ih.2 group hmem
    · have hx' := eq_false_of_ne_true hx
      rw [groups, cut_cons_of_not_isHead _ hx']
      refine ⟨?_, ih.2⟩
      intro y hy
      rcases List.mem_cons.mp hy with rfl | hy
      · exact hx'
      · exact ih.1 y hy

theorem isGroup_of_mem_groups {xs group : List α} (hgroup : group ∈ groups isHead xs) :
    IsGroup isHead group :=
  (isGroup_cut xs).2 group hgroup

/-- A list put together from groups is cut into these groups. Assumes: each of them is a group. -/
theorem cut_flatten_of_isGroup {parts : List (List α)}
    (hparts : ∀ group ∈ parts, IsGroup isHead group) : cut isHead parts.flatten = ([], parts) := by
  induction parts with
  | nil => rfl
  | cons group parts ih =>
    obtain ⟨head, tail, rfl, hhead, htail⟩ := hparts group List.mem_cons_self
    have hrest := ih fun other hother ↦ hparts other (List.mem_cons_of_mem _ hother)
    rw [List.flatten_cons, List.cons_append, cut_cons_of_isHead _ hhead,
      cut_append_of_not_isHead _ htail, hrest, List.append_nil]

theorem groups_flatten {parts : List (List α)} (hparts : ∀ group ∈ parts, IsGroup isHead group) :
    groups isHead parts.flatten = parts :=
  congrArg Prod.snd (cut_flatten_of_isGroup hparts)

/-- The groups of a mapped list are the mapped groups. -/
theorem cut_map (f : β → α) (xs : List β) :
    cut isHead (xs.map f) =
      ((cut (isHead ∘ f) xs).1.map f, (cut (isHead ∘ f) xs).2.map (List.map f)) := by
  induction xs with
  | nil => rfl
  | cons x xs ih =>
    by_cases hx : isHead (f x) = true
    · rw [List.map_cons, cut_cons_of_isHead _ hx,
        @cut_cons_of_isHead _ (isHead ∘ f) x xs hx, ih]
      rfl
    · have hx' := eq_false_of_ne_true hx
      rw [List.map_cons, cut_cons_of_not_isHead _ hx',
        @cut_cons_of_not_isHead _ (isHead ∘ f) x xs hx', ih]
      rfl

theorem groups_map (f : β → α) (xs : List β) :
    groups isHead (xs.map f) = (groups (isHead ∘ f) xs).map (List.map f) :=
  congrArg Prod.snd (cut_map f xs)

/-- A group stays a group when it is cut off behind its head. Assumes: the length is positive. -/
theorem IsGroup.take {group : List α} (hgroup : IsGroup isHead group) {length : ℕ}
    (hlength : 0 < length) : IsGroup isHead (group.take length) := by
  obtain ⟨head, tail, rfl, hhead, htail⟩ := hgroup
  obtain ⟨shorter, rfl⟩ : ∃ shorter, length = shorter + 1 := ⟨length - 1, by omega⟩
  exact ⟨head, tail.take shorter, rfl, hhead, fun y hy ↦ htail y (List.mem_of_mem_take hy)⟩

/-! ### Windows -/

theorem rtake_map (f : α → β) (xs : List α) (count : ℕ) :
    (xs.map f).rtake count = (xs.rtake count).map f := by
  rw [List.rtake, List.rtake, List.length_map, List.map_drop]

theorem rtake_suffix (xs : List α) (count : ℕ) : xs.rtake count <:+ xs :=
  List.drop_suffix _ _

/-- The last elements among more of the last elements. Assumes: there are no fewer of those. -/
theorem rtake_rtake (xs : List α) {count more : ℕ} (hmore : count ≤ more) :
    (xs.rtake more).rtake count = xs.rtake count := by
  simp only [List.rtake, List.length_drop, List.drop_drop]
  congr 1
  omega

/-- An element put behind the last ones pushes the first of these out. -/
theorem rtake_concat_rtake (xs : List α) (x : α) (count : ℕ) :
    (xs.rtake count ++ [x]).rtake count = (xs ++ [x]).rtake count := by
  cases count with
  | zero => simp
  | succ count =>
    rw [List.rtake_concat_succ, List.rtake_concat_succ, rtake_rtake xs (Nat.le_succ count)]

variable (isHead)

/-- The last `count` groups, each cut off after `bound` elements. -/
def window (count bound : ℕ) (xs : List α) : List (List α) :=
  ((groups isHead xs).map (List.take bound)).rtake count

variable {isHead}

/-- Every part of a window is a group. Assumes: the parts are not cut off before their head. -/
theorem isGroup_of_mem_window {count bound : ℕ} (hbound : 0 < bound) {xs part : List α}
    (hpart : part ∈ window isHead count bound xs) : IsGroup isHead part := by
  have hmem := (rtake_suffix _ _).subset hpart
  obtain ⟨group, hgroup, rfl⟩ := List.mem_map.mp hmem
  exact (isGroup_of_mem_groups hgroup).take hbound

/-- The window of a window is the window. Assumes: the parts are not cut off before their head. -/
theorem window_flatten {count bound : ℕ} (hbound : 0 < bound) (xs : List α) :
    window isHead count bound (window isHead count bound xs).flatten =
      window isHead count bound xs := by
  have htake : ((groups isHead xs).map (List.take bound)).map (List.take bound) =
      (groups isHead xs).map (List.take bound) := by
    rw [List.map_map]
    apply List.map_congr_left
    intro group _
    simp [List.take_take]
  rw [window, groups_flatten fun part hpart ↦ isGroup_of_mem_window hbound hpart]
  rw [window, ← rtake_map, htake, rtake_rtake _ le_rfl]

theorem window_map (f : β → α) (count bound : ℕ) (xs : List β) :
    window isHead count bound (xs.map f) =
      (window (isHead ∘ f) count bound xs).map (List.map f) := by
  rw [window, groups_map, window, ← rtake_map, List.map_map, List.map_map]
  congr 1
  apply List.map_congr_left
  intro group _
  simp [List.map_take]

/-- What a window holds comes from the list. -/
theorem mem_of_mem_window {count bound : ℕ} {xs part : List α} {x : α}
    (hpart : part ∈ window isHead count bound xs) (hx : x ∈ part) : x ∈ xs := by
  have hmem := (rtake_suffix _ _).subset hpart
  obtain ⟨group, hgroup, rfl⟩ := List.mem_map.mp hmem
  apply (flatten_groups_suffix xs).subset
  exact List.mem_flatten.mpr ⟨group, hgroup, List.mem_of_mem_take hx⟩

/-- The groups begin with the heads of the list. -/
theorem map_head?_groups (xs : List α) :
    (groups isHead xs).map List.head? = (xs.filter isHead).map some := by
  induction xs with
  | nil => rfl
  | cons x xs ih =>
    by_cases hx : isHead x = true
    · rw [List.filter_cons_of_pos hx, List.map_cons, ← ih, groups, cut_cons_of_isHead _ hx]
      rfl
    · rw [List.filter_cons_of_neg hx, ← ih, groups,
        cut_cons_of_not_isHead _ (eq_false_of_ne_true hx)]
      rfl

/-- The parts of a window begin with the last heads of the list. Assumes: the parts are not cut off
before their head. -/
theorem map_head?_window {count bound : ℕ} (hbound : 0 < bound) (xs : List α) :
    (window isHead count bound xs).map List.head? = ((xs.filter isHead).rtake count).map some := by
  have hhead : ((groups isHead xs).map (List.take bound)).map List.head? =
      (groups isHead xs).map List.head? := by
    rw [List.map_map]
    apply List.map_congr_left
    intro group _
    simp [List.head?_take, hbound.ne']
  rw [window, ← rtake_map, hhead, map_head?_groups, rtake_map]

/-! ### The last marked element -/

/-- The last element that satisfies the predicate. -/
def lastMarked (mark : α → Bool) (xs : List α) : Option α := (xs.filter mark).getLast?

@[simp] theorem lastMarked_concat (mark : α → Bool) (xs : List α) (x : α) :
    lastMarked mark (xs ++ [x]) = if mark x then some x else lastMarked mark xs := by
  by_cases hx : mark x = true <;> simp [lastMarked, hx]

theorem mark_of_lastMarked {mark : α → Bool} {xs : List α} {x : α}
    (hlast : lastMarked mark xs = some x) : mark x = true :=
  (List.mem_filter.mp (List.mem_of_getLast? hlast)).2

theorem lastMarked_append (mark : α → Bool) (xs ys : List α) :
    lastMarked mark (xs ++ ys) = (lastMarked mark ys).or (lastMarked mark xs) := by
  rw [lastMarked, List.filter_append, List.getLast?_append]
  rfl

theorem lastMarked_of_unmarked {mark : α → Bool} {xs : List α} (hxs : ∀ x ∈ xs, mark x = false) :
    lastMarked mark xs = none := by
  have hnone : xs.filter mark = [] := List.filter_eq_nil_iff.mpr fun x hx ↦ by simp [hxs x hx]
  rw [lastMarked, hnone, List.getLast?_nil]

@[simp] theorem lastMarked_toList_self (mark : α → Bool) (xs : List α) :
    lastMarked mark (lastMarked mark xs).toList = lastMarked mark xs := by
  cases hlast : lastMarked mark xs with
  | none => rfl
  | some x => simp [lastMarked, mark_of_lastMarked hlast]

/-- The last element with one mark is not marked otherwise. Assumes: no element has both marks. -/
theorem lastMarked_toList_other {mark other : α → Bool}
    (hother : ∀ x, mark x = true → other x = false) (xs : List α) :
    lastMarked other (lastMarked mark xs).toList = none := by
  apply lastMarked_of_unmarked
  intro x hx
  exact hother x (mark_of_lastMarked (Option.mem_toList.mp hx))

end LiveCDN.Library.Grouping
