import Mathlib

/-!
# Tables of rows with distinct keys

A map from keys to rows whose keys are part of the rows, as a list that carries the proof that no
key occurs twice. `find?` looks a key up, `put` writes a row under its key, `keep` keeps the rows
that satisfy a test and `mapRows` rewrites all of them. `putAll` and `removeAll` write and remove
row by row, as a loop does. A row is in the table exactly when it is what its key looks up
(`mem_rows_iff_find?`); the lookups after a change are `find?_put`, `find?_rewrite`, `find?_keep`,
`find?_mapRows`, `find?_remove`, `find?_putAll` and `find?_removeAll`.

Scope. The order of `rows` is not part of the meaning of a table: a caller that walks a table takes
any permutation of the rows.
-/

set_option autoImplicit false
set_option relaxedAutoImplicit false

namespace LiveCDN.Library.KeyedTable

/-- Entries built from a list have keys that are a sublist of the keys of the list. Assumes: an
entry has the key of what it is built from. -/
theorem map_filterMap_sublist {Source Target Key : Type*} {build : Source → Option Target}
    {source : Source → Key} {target : Target → Key} {entries : List Source}
    (hkey : ∀ a ∈ entries, ∀ b, build a = some b → target b = source a) :
    ((entries.filterMap build).map target).Sublist (entries.map source) := by
  induction entries with
  | nil => exact List.Sublist.refl _
  | cons entry entries ih =>
    have hrest := ih fun a ha ↦ hkey a (List.mem_cons_of_mem _ ha)
    cases hbuilt : build entry with
    | none =>
      rw [List.filterMap_cons_none hbuilt, List.map_cons]
      exact hrest.trans (List.sublist_cons_self _ _)
    | some built =>
      rw [List.filterMap_cons_some hbuilt, List.map_cons, List.map_cons,
        hkey entry List.mem_cons_self built hbuilt]
      exact hrest.cons_cons _

/-- Rows no two of which have the same key. -/
structure Table {Key Row : Type*} (key : Row → Key) where
  rows : List Row
  distinct : (rows.map key).Nodup

namespace Table

variable {Key Row : Type*} {key : Row → Key}

/-- The table without rows. -/
def empty : Table key := ⟨[], List.nodup_nil⟩

/-- The rows that satisfy a test. -/
def keep (table : Table key) (test : Row → Bool) : Table key :=
  ⟨table.rows.filter test, table.distinct.sublist (List.filter_sublist.map key)⟩

/-- The rows rewritten by a function that does not touch their keys. -/
def mapRows (table : Table key) (rewrite : Row → Row) (hkey : ∀ row, key (rewrite row) = key row) :
    Table key where
  rows := table.rows.map rewrite
  distinct := by
    rw [List.map_map, show key ∘ rewrite = key from funext hkey]
    exact table.distinct

variable [DecidableEq Key]

/-- The row under a key. -/
def find? (table : Table key) (sought : Key) : Option Row :=
  table.rows.find? fun row ↦ decide (key row = sought)

/-- Writes a row under its key, in place of the row that was there. -/
def put (table : Table key) (row : Row) : Table key where
  rows := row :: table.rows.filter fun other ↦ decide (key other ≠ key row)
  distinct := by
    rw [List.map_cons, List.nodup_cons]
    refine ⟨fun hmem ↦ ?_, table.distinct.sublist (List.filter_sublist.map key)⟩
    obtain ⟨other, hother, hkey⟩ := List.mem_map.mp hmem
    exact of_decide_eq_true (List.mem_filter.mp hother).2 hkey

/-- Takes the row under a key out of the table. -/
def remove (table : Table key) (sought : Key) : Table key :=
  table.keep fun row ↦ decide (key row ≠ sought)

/-- Writes rows one after another. -/
def putAll (table : Table key) (rows : List Row) : Table key := rows.foldl put table

/-- Takes the rows under keys out of the table, one after another. -/
def removeAll (table : Table key) (keys : List Key) : Table key := keys.foldl remove table

/-- A key looks up the row that is in the table under it. -/
theorem find?_eq_some_iff {table : Table key} {sought : Key} {row : Row} :
    table.find? sought = some row ↔ row ∈ table.rows ∧ key row = sought := by
  constructor
  · intro hfound
    have htest : decide (key row = sought) = true := by simpa using List.find?_some hfound
    exact ⟨List.mem_of_find?_eq_some hfound, of_decide_eq_true htest⟩
  · rintro ⟨hrow, rfl⟩
    cases hfound : table.find? (key row) with
    | none => exact absurd (List.find?_eq_none.mp hfound row hrow) (by simp)
    | some other =>
      have htest : decide (key other = key row) = true := by simpa using List.find?_some hfound
      rw [List.inj_on_of_nodup_map table.distinct (List.mem_of_find?_eq_some hfound) hrow
        (of_decide_eq_true htest)]

theorem key_of_find? {table : Table key} {sought : Key} {row : Row}
    (hfound : table.find? sought = some row) : key row = sought :=
  (find?_eq_some_iff.mp hfound).2

/-- A row is in the table exactly when it is what its key looks up. -/
theorem mem_rows_iff_find? {table : Table key} {row : Row} :
    row ∈ table.rows ↔ table.find? (key row) = some row := by
  rw [find?_eq_some_iff, and_iff_left rfl]

@[simp] theorem find?_empty (sought : Key) : (empty : Table key).find? sought = none := rfl

/-- What holds of the rows and of a written row holds of the rows after the write. -/
theorem forall_put {Holds : Row → Prop} {table : Table key} {row : Row}
    (htable : ∀ other ∈ table.rows, Holds other) (hrow : Holds row) :
    ∀ other ∈ (table.put row).rows, Holds other := by
  intro other hother
  rcases List.mem_cons.mp hother with rfl | hold
  · exact hrow
  · exact htable other (List.mem_filter.mp hold).1

/-- The lookups after a write. Assumes: the row has the key `written`. -/
theorem find?_put (table : Table key) {row : Row} {written : Key} (hwritten : key row = written)
    (sought : Key) :
    (table.put row).find? sought = if sought = written then some row else table.find? sought := by
  subst hwritten
  apply Option.ext
  intro other
  split_ifs with hsought
  · rw [find?_eq_some_iff, Option.some_inj, hsought]
    simp only [put, List.mem_cons, List.mem_filter, decide_eq_true_eq]
    constructor
    · rintro ⟨rfl | ⟨_, hother⟩, hkey⟩
      · rfl
      · exact absurd hkey hother
    · rintro rfl
      exact ⟨Or.inl rfl, rfl⟩
  · rw [find?_eq_some_iff, find?_eq_some_iff]
    simp only [put, List.mem_cons, List.mem_filter, decide_eq_true_eq]
    constructor
    · rintro ⟨rfl | ⟨hmem, _⟩, hkey⟩
      · exact absurd hkey.symm hsought
      · exact ⟨hmem, hkey⟩
    · rintro ⟨hmem, rfl⟩
      exact ⟨Or.inr ⟨hmem, hsought⟩, rfl⟩

/-- The lookups after the row of a key, if there is one, has been rewritten. Assumes: the rewriting
keeps the key. -/
theorem find?_rewrite (table : Table key) (rewrite : Row → Row)
    (hrewrite : ∀ row, key (rewrite row) = key row) (written sought : Key) :
    (match table.find? written with
      | some row => table.put (rewrite row)
      | none => table).find? sought =
        if sought = written then (table.find? sought).map rewrite else table.find? sought := by
  cases hfound : table.find? written with
  | none =>
    split_ifs with hsought
    · rw [hsought, hfound, Option.map_none]
    · rfl
  | some row =>
    have hwritten : key (rewrite row) = written := (hrewrite row).trans (key_of_find? hfound)
    rw [find?_put table hwritten]
    split_ifs with hsought
    · rw [hsought, hfound, Option.map_some]
    · rfl

/-- The lookups in the rows that satisfy a test. -/
theorem find?_keep (table : Table key) (test : Row → Bool) (sought : Key) :
    (table.keep test).find? sought = (table.find? sought).filter test := by
  apply Option.ext
  intro row
  rw [find?_eq_some_iff, Option.filter_eq_some_iff, find?_eq_some_iff, keep, List.mem_filter]
  exact and_right_comm

/-- The lookups in rewritten rows. -/
theorem find?_mapRows (table : Table key) {rewrite : Row → Row}
    (hkey : ∀ row, key (rewrite row) = key row) (sought : Key) :
    (table.mapRows rewrite hkey).find? sought = (table.find? sought).map rewrite := by
  apply Option.ext
  intro row
  rw [find?_eq_some_iff, Option.map_eq_some_iff]
  constructor
  · rintro ⟨hmem, rfl⟩
    obtain ⟨original, horiginal, rfl⟩ := List.mem_map.mp hmem
    exact ⟨original, find?_eq_some_iff.mpr ⟨horiginal, (hkey original).symm⟩, rfl⟩
  · rintro ⟨original, hfound, rfl⟩
    obtain ⟨horiginal, rfl⟩ := find?_eq_some_iff.mp hfound
    exact ⟨List.mem_map_of_mem horiginal, hkey original⟩

/-- The lookups after a removal. -/
theorem find?_remove (table : Table key) (removed sought : Key) :
    (table.remove removed).find? sought =
      if sought = removed then none else table.find? sought := by
  rw [remove, find?_keep]
  cases hfound : table.find? sought with
  | none => split_ifs <;> rfl
  | some row =>
    have hkey := (find?_eq_some_iff.mp hfound).2
    split_ifs with hsought
    · simp [hkey, hsought]
    · simp [hkey, hsought]

/-- The lookups after several removals. -/
theorem find?_removeAll (table : Table key) (keys : List Key) (sought : Key) :
    (table.removeAll keys).find? sought = if sought ∈ keys then none else table.find? sought := by
  induction keys generalizing table with
  | nil => simp [removeAll]
  | cons removed keys ih =>
    change ((table.remove removed).removeAll keys).find? sought = _
    rw [ih, find?_remove]
    by_cases hfirst : sought = removed
    · have hmem : sought ∈ removed :: keys := List.mem_cons.mpr (Or.inl hfirst)
      rw [if_pos hfirst, if_pos hmem, ite_self]
    · rw [if_neg hfirst]
      simp only [List.mem_cons, hfirst, false_or]

/-- The lookups after several writes. Assumes: the rows written have distinct keys. -/
theorem find?_putAll (table : Table key) {rows : List Row} (hdistinct : (rows.map key).Nodup)
    (sought : Key) :
    (table.putAll rows).find? sought =
      (rows.find? fun row ↦ decide (key row = sought)).or (table.find? sought) := by
  induction rows generalizing table with
  | nil => rfl
  | cons row rows ih =>
    rw [List.map_cons, List.nodup_cons] at hdistinct
    change ((table.put row).putAll rows).find? sought = _
    rw [ih (table.put row) hdistinct.2, find?_put table rfl, List.find?_cons]
    by_cases hfirst : key row = sought
    · have hrest : (rows.find? fun row ↦ decide (key row = sought)) = none := by
        refine List.find?_eq_none.mpr fun other hother hkey ↦ hdistinct.1 ?_
        rw [hfirst, ← of_decide_eq_true hkey]
        exact List.mem_map_of_mem hother
      rw [hrest, decide_eq_true hfirst, if_pos hfirst.symm]
      rfl
    · rw [decide_eq_false hfirst, if_neg (Ne.symm hfirst)]

end Table

end LiveCDN.Library.KeyedTable
