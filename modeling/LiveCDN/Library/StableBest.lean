import Mathlib

/-!
# The head of a stable descending sort

Sorting a list by descending score, stably, and taking the head picks the first of the entries with
the highest score. `best` is that head; `best_spec` locates it, and `best_avoids_iff` says
when it avoids a set of entries: each of them is outranked by an entry outside the set, one before
it with at least its score or one behind it with a higher score. An entry in front of the list is
among the first ones of the sorted list unless that many others have a higher score
(`mem_take_sortDescending_cons`).
-/

set_option autoImplicit false
set_option relaxedAutoImplicit false

namespace LiveCDN.Library.StableBest

variable {Entry Score : Type*} [LinearOrder Score] (score : Entry → Score)

/-- The list sorted by descending score; entries of equal score keep their order. -/
def sortDescending (entries : List Entry) : List Entry :=
  entries.insertionSort fun a b ↦ score b ≤ score a

/-- Sorting rearranges the entries. -/
theorem perm_sortDescending (entries : List Entry) :
    (sortDescending score entries).Perm entries :=
  List.perm_insertionSort _ entries

/-- The sorted list descends. -/
theorem pairwise_sortDescending (entries : List Entry) :
    (sortDescending score entries).Pairwise fun a b ↦ score b ≤ score a := by
  have : Std.Total fun a b : Entry ↦ score b ≤ score a := ⟨fun a b ↦ le_total (score b) (score a)⟩
  have : IsTrans Entry fun a b ↦ score b ≤ score a := ⟨fun _ _ _ hab hbc ↦ hbc.trans hab⟩
  exact List.pairwise_insertionSort _ entries

/-- The entry in front of a list is among the first entries of the sorted list, unless as many
others have a higher score. -/
theorem mem_take_sortDescending_cons (entry : Entry) (entries : List Entry) (count : ℕ) :
    entry ∈ (sortDescending score (entry :: entries)).take count ∨
      ∃ better : List Entry, better.length = count ∧
        better.Sublist (sortDescending score entries) ∧
          ∀ other ∈ better, score entry < score other := by
  set sorted := sortDescending score entries with hsorted
  set higher := sorted.takeWhile fun other ↦ decide ¬score other ≤ score entry
  have hsplit : sortDescending score (entry :: entries) =
      higher ++ entry :: sorted.dropWhile fun other ↦ decide ¬score other ≤ score entry := by
    rw [sortDescending, List.insertionSort_cons, List.orderedInsert_eq_take_drop]
    rfl
  rcases Nat.lt_or_ge higher.length count with hfew | hmany
  · obtain ⟨left, hleft⟩ := Nat.exists_eq_add_of_lt hfew
    have hroom : count - higher.length = left + 1 := by omega
    rw [hsplit, List.take_append, hroom, List.take_succ_cons]
    exact Or.inl (List.mem_append_right _ List.mem_cons_self)
  · refine Or.inr ⟨higher.take count, List.length_take_of_le hmany, ?_, fun other hother ↦ ?_⟩
    · exact (List.take_sublist _ _).trans (List.takeWhile_sublist _)
    · have hkept := List.mem_takeWhile_imp (List.mem_of_mem_take hother)
      exact not_le.mp (of_decide_eq_true hkept)

/-- The head of the sorted list. -/
def best (entries : List Entry) : Option Entry := (sortDescending score entries).head?

theorem best_nil : best score [] = none := rfl

/-- An entry in front of a list wins unless the best of the list has a higher score. -/
theorem best_cons (entry : Entry) (entries : List Entry) :
    best score (entry :: entries) =
      match best score entries with
      | none => some entry
      | some other => if score other ≤ score entry then some entry else some other := by
  unfold best sortDescending
  rw [List.insertionSort_cons]
  cases entries.insertionSort fun a b ↦ score b ≤ score a with
  | nil => rfl
  | cons other others =>
    rw [List.orderedInsert_cons]
    dsimp only [List.head?_cons]
    split_ifs <;> rfl

/-- Only the empty list has no best entry. -/
theorem best_eq_none_iff {entries : List Entry} : best score entries = none ↔ entries = [] := by
  cases entries with
  | nil => simp [best_nil]
  | cons entry entries =>
    rw [best_cons]
    cases best score entries with
    | none => simp
    | some other =>
      dsimp only
      split_ifs <;> simp

/-- The best entry is the first one with the highest score. -/
theorem best_spec {entries : List Entry} {entry : Entry} (hbest : best score entries = some entry) :
    ∃ front back, entries = front ++ entry :: back ∧ (∀ other ∈ front, score other < score entry) ∧
      ∀ other ∈ back, score other ≤ score entry := by
  induction entries generalizing entry with
  | nil => exact nomatch hbest
  | cons first entries ih =>
    rw [best_cons] at hbest
    cases hrest : best score entries with
    | none =>
      rw [hrest] at hbest
      obtain rfl := Option.some.inj hbest
      obtain rfl := (best_eq_none_iff score).mp hrest
      exact ⟨[], [], rfl, nofun, nofun⟩
    | some other =>
      rw [hrest] at hbest
      obtain ⟨front, back, rfl, hfront, hback⟩ := ih hrest
      dsimp only at hbest
      split_ifs at hbest with hle
      · obtain rfl := Option.some.inj hbest
        refine ⟨[], front ++ other :: back, rfl, nofun, fun rival hrival ↦ ?_⟩
        rcases List.mem_append.mp hrival with hrival | hrival
        · exact (hfront rival hrival).le.trans hle
        · rcases List.mem_cons.mp hrival with rfl | hrival
          · exact hle
          · exact (hback rival hrival).trans hle
      · obtain rfl := Option.some.inj hbest
        refine ⟨first :: front, back, rfl, fun rival hrival ↦ ?_, hback⟩
        rcases List.mem_cons.mp hrival with rfl | hrival
        · exact not_le.mp hle
        · exact hfront rival hrival

/-- The best entry is one of the entries. -/
theorem mem_of_best {entries : List Entry} {entry : Entry}
    (hbest : best score entries = some entry) : entry ∈ entries := by
  obtain ⟨front, back, rfl, _, _⟩ := best_spec score hbest
  simp

/-- The best entry avoids a set exactly when each entry of the set is outranked by an entry outside
it: one before it with at least its score, or one behind it with a higher score. -/
theorem best_avoids_iff {entries : List Entry} {bad : Entry → Prop} :
    (∀ entry, best score entries = some entry → ¬ bad entry) ↔
      ∀ front entry back, entries = front ++ entry :: back → bad entry →
        (∃ other ∈ front, ¬ bad other ∧ score entry ≤ score other) ∨
          ∃ other ∈ back, ¬ bad other ∧ score entry < score other := by
  constructor
  · rintro havoids front entry back rfl hbad
    cases hbest : best score (front ++ entry :: back) with
    | none => simp [best_eq_none_iff] at hbest
    | some winner =>
      have hgood := havoids winner hbest
      obtain ⟨before, behind, hsplit, hbefore, hbehind⟩ := best_spec score hbest
      rcases List.append_eq_append_iff.mp hsplit with ⟨middle, rfl, htail⟩ | ⟨middle, rfl, htail⟩
      · rcases middle with _ | ⟨first, middle⟩
        · obtain ⟨rfl, _⟩ := List.cons.inj htail
          exact absurd hbad hgood
        · obtain ⟨rfl, rfl⟩ := List.cons.inj htail
          exact Or.inr ⟨winner, by simp, hgood, hbefore entry (by simp)⟩
      · rcases middle with _ | ⟨first, middle⟩
        · obtain ⟨rfl, _⟩ := List.cons.inj htail
          exact absurd hbad hgood
        · obtain ⟨rfl, rfl⟩ := List.cons.inj htail
          exact Or.inl ⟨winner, by simp, hgood, hbehind entry (by simp)⟩
  · intro houtranked entry hbest hbad
    obtain ⟨front, back, hsplit, hfront, hback⟩ := best_spec score hbest
    rcases houtranked front entry back hsplit hbad with
      ⟨other, hmem, _, hle⟩ | ⟨other, hmem, _, hlt⟩
    · exact not_lt.mpr hle (hfront other hmem)
    · exact not_lt.mpr (hback other hmem) hlt

end LiveCDN.Library.StableBest
