import Mathlib

/-!
# Paths with slashes

A path is a list of characters, of which one separates its names and another spells the names of a
directory itself and of the one above it (`Marks`). `names` walks a path by its text alone: it goes
into a directory by its name, stays at a dot, and goes back at two dots, unless there is nothing to
go back from. `clean` is the shortest path that walks the same way, `base` the last name, and `join`
the cleaned path of a name under a directory. A name that is neither empty nor made of dots and has
no slash (`IsName`) stays under its directory: the joined path is the cleaned directory and the name
(`join_eq_entry`), and its last name is the name (`base_eq_self`).
-/

set_option autoImplicit false
set_option relaxedAutoImplicit false

namespace LiveCDN.Library.SlashPath

/-- What separates the names of a path, and what spells the two names that are no entries. -/
structure Marks (α : Type*) where
  slash : α
  dot : α
  slash_ne_dot : slash ≠ dot

/-- A name that is an entry of a directory. -/
structure IsName {α : Type*} (marks : Marks α) (name : List α) : Prop where
  ne_nil : name ≠ []
  ne_dot : name ≠ [marks.dot]
  ne_dots : name ≠ [marks.dot, marks.dot]
  slash_notMem : marks.slash ∉ name

/-- A name between two slashes that a walk keeps: two dots, or an entry. -/
def Kept {α : Type*} (marks : Marks α) (name : List α) : Prop :=
  name ≠ [] ∧ name ≠ [marks.dot] ∧ marks.slash ∉ name

/-! ### Names written one after another -/

section Written

variable {α : Type*} {marks : Marks α}

/-- The names of a path, written one after another. -/
theorem intercalate_concat (separator : α) (parts : List (List α)) (name : List α) :
    [separator].intercalate (parts ++ [name]) =
      if parts = [] then name else [separator].intercalate parts ++ separator :: name := by
  induction parts with
  | nil => exact List.intercalate_singleton
  | cons part parts ih =>
    rw [if_neg (List.cons_ne_nil part parts), List.cons_append,
      List.intercalate_cons_of_ne_nil (List.append_ne_nil_of_right_ne_nil _
        (List.cons_ne_nil name [])), ih]
    by_cases hlast : parts = []
    · rw [if_pos hlast, hlast, List.intercalate_singleton, List.append_assoc]
      rfl
    · rw [if_neg hlast, List.intercalate_cons_of_ne_nil hlast, List.append_assoc,
        List.append_assoc, List.append_assoc]

/-- Names that a walk keeps are written as no single character other than a name of one. -/
theorem intercalate_ne_singleton {parts : List (List α)}
    (hparts : ∀ part ∈ parts, Kept marks part) {character : α}
    (hcharacter : ¬ Kept marks [character]) :
    [marks.slash].intercalate parts ≠ [character] := by
  intro hequal
  cases parts with
  | nil => exact absurd hequal (List.cons_ne_nil _ _).symm
  | cons part parts =>
    have hpart : Kept marks part := hparts part List.mem_cons_self
    by_cases hlast : parts = []
    · rw [hlast, List.intercalate_singleton] at hequal
      exact hcharacter (hequal ▸ hpart)
    · rw [List.intercalate_cons_of_ne_nil hlast] at hequal
      have hlength := congrArg List.length hequal
      have hsome : 0 < part.length := List.length_pos_of_ne_nil hpart.1
      simp only [List.length_append, List.length_cons, List.length_nil] at hlength
      omega

theorem intercalate_eq_nil_iff {parts : List (List α)}
    (hparts : ∀ part ∈ parts, Kept marks part) :
    [marks.slash].intercalate parts = [] ↔ parts = [] := by
  constructor
  · intro hequal
    cases parts with
    | nil => rfl
    | cons part parts =>
      have hpart : part ≠ [] := (hparts part List.mem_cons_self).1
      by_cases hlast : parts = []
      · rw [hlast, List.intercalate_singleton] at hequal
        exact absurd hequal hpart
      · rw [List.intercalate_cons_of_ne_nil hlast] at hequal
        exact absurd (List.append_eq_nil_iff.mp (List.append_eq_nil_iff.mp hequal).1).1 hpart
  · rintro rfl
    rfl

end Written

section Walk

variable {α : Type*} [DecidableEq α] {marks : Marks α}

/-! ### Walking a path -/

/-- The names behind the next name of a path, the innermost first. -/
def push (marks : Marks α) (rooted : Bool) (names : List (List α)) (name : List α) :
    List (List α) :=
  if name = [] ∨ name = [marks.dot] then names
  else if name = [marks.dot, marks.dot] then
    if names = [] then (if rooted then [] else [name])
    else if names.head? = some name then name :: names
    else names.tail
  else name :: names

/-- The path starts at the root. -/
def rooted (marks : Marks α) (path : List α) : Bool := path.head? == some marks.slash

/-- The names that a path leads through, the innermost first. -/
def names (marks : Marks α) (path : List α) : List (List α) :=
  (path.splitOn marks.slash).foldl (push marks (rooted marks path)) []

/-- The shortest path that leads the same way. -/
def clean (marks : Marks α) (path : List α) : List α :=
  let body := [marks.slash].intercalate (names marks path).reverse
  if rooted marks path then marks.slash :: body else if body = [] then [marks.dot] else body

/-- The last name of a path. -/
def base (marks : Marks α) (path : List α) : List α :=
  if path = [] then [marks.dot]
  else
    let stripped := path.rdropWhile (· = marks.slash)
    if stripped = [] then [marks.slash] else stripped.rtakeWhile (· ≠ marks.slash)

/-- A path under a directory, cleaned. -/
def join (marks : Marks α) (directory path : List α) : List α :=
  if directory = [] then (if path = [] then [] else clean marks path)
  else clean marks (directory ++ marks.slash :: path)

/-- The entry of a name directly under a cleaned directory. -/
def entry (marks : Marks α) (directory name : List α) : List α :=
  if directory = [marks.dot] then name
  else if directory = [marks.slash] then marks.slash :: name
  else directory ++ marks.slash :: name

/-! ### The names of a path -/

theorem kept_push {walked : List (List α)} (hwalked : ∀ name ∈ walked, Kept marks name)
    (isRooted : Bool) {next : List α} (hnext : marks.slash ∉ next) :
    ∀ name ∈ push marks isRooted walked next, Kept marks name := by
  intro name hname
  rw [push] at hname
  split_ifs at hname with hskip hdots hnone hroot hback
  · exact hwalked name hname
  · exact absurd hname List.not_mem_nil
  · rw [List.mem_singleton.mp hname]
    exact ⟨fun h ↦ hskip (Or.inl h), fun h ↦ hskip (Or.inr h), hnext⟩
  · rcases List.mem_cons.mp hname with rfl | hold
    · exact ⟨fun h ↦ hskip (Or.inl h), fun h ↦ hskip (Or.inr h), hnext⟩
    · exact hwalked name hold
  · exact hwalked name (List.mem_of_mem_tail hname)
  · rcases List.mem_cons.mp hname with rfl | hold
    · exact ⟨fun h ↦ hskip (Or.inl h), fun h ↦ hskip (Or.inr h), hnext⟩
    · exact hwalked name hold

theorem kept_foldl_push (isRooted : Bool) {parts walked : List (List α)}
    (hparts : ∀ part ∈ parts, marks.slash ∉ part) (hwalked : ∀ name ∈ walked, Kept marks name) :
    ∀ name ∈ parts.foldl (push marks isRooted) walked, Kept marks name := by
  induction parts generalizing walked with
  | nil => exact hwalked
  | cons part parts ih =>
    refine ih (fun other hother ↦ hparts other (List.mem_cons_of_mem _ hother)) ?_
    exact kept_push hwalked isRooted (hparts part List.mem_cons_self)

theorem slash_notMem_of_mem_splitOn (path : List α) :
    ∀ part ∈ path.splitOn marks.slash, marks.slash ∉ part := by
  induction path with
  | nil =>
    intro part hpart
    rw [List.splitOn_nil, List.mem_singleton] at hpart
    rw [hpart]
    exact List.not_mem_nil
  | cons first path ih =>
    intro part hpart
    rw [List.splitOn_cons_eq_if_modifyHead] at hpart
    split_ifs at hpart with hslash
    · rcases List.mem_cons.mp hpart with rfl | hrest
      · exact List.not_mem_nil
      · exact ih part hrest
    · obtain ⟨head, tail, hsplit⟩ := List.exists_cons_of_ne_nil
        (List.splitOn_ne_nil marks.slash path)
      rw [hsplit, List.modifyHead_cons] at hpart
      rw [hsplit] at ih
      rcases List.mem_cons.mp hpart with rfl | hrest
      · refine List.not_mem_cons_of_ne_of_not_mem ?_ (ih head List.mem_cons_self)
        exact fun h ↦ hslash (beq_iff_eq.mpr h.symm)
      · exact ih part (List.mem_cons_of_mem _ hrest)

theorem kept_names (path : List α) : ∀ name ∈ names marks path, Kept marks name :=
  kept_foldl_push _ (slash_notMem_of_mem_splitOn path) fun _ hname ↦
    absurd hname List.not_mem_nil

theorem push_of_isName {name : List α} (hname : IsName marks name) (isRooted : Bool)
    (walked : List (List α)) : push marks isRooted walked name = name :: walked := by
  rw [push, if_neg (not_or.mpr ⟨hname.ne_nil, hname.ne_dot⟩), if_neg hname.ne_dots]

theorem rooted_append {directory : List α} (hdirectory : directory ≠ []) (path : List α) :
    rooted marks (directory ++ path) = rooted marks directory := by
  rw [rooted, List.head?_append_of_ne_nil _ hdirectory, rooted]

/-- A name under a directory leads through the names of the directory, and then through it. -/
theorem names_append {directory name : List α} (hdirectory : directory ≠ [])
    (hname : IsName marks name) :
    names marks (directory ++ marks.slash :: name) = name :: names marks directory := by
  rw [names, rooted_append hdirectory, List.splitOn_append_cons_self,
    List.splitOn_eq_singleton hname.slash_notMem, List.foldl_append, List.foldl_cons,
    List.foldl_nil, push_of_isName hname, names]

/-! ### The cleaned path -/

/-- The path that leads through some names. -/
def written (marks : Marks α) (isRooted : Bool) (walked : List (List α)) : List α :=
  let body := [marks.slash].intercalate walked.reverse
  if isRooted then marks.slash :: body else if body = [] then [marks.dot] else body

theorem clean_eq_written (path : List α) :
    clean marks path = written marks (rooted marks path) (names marks path) := rfl

/-- A name more is an entry more. -/
theorem written_cons {walked : List (List α)} (hwalked : ∀ name ∈ walked, Kept marks name)
    (isRooted : Bool) {name : List α} (hname : IsName marks name) :
    written marks isRooted (name :: walked) = entry marks (written marks isRooted walked) name := by
  have hreverse : ∀ part ∈ walked.reverse, Kept marks part :=
    fun part hpart ↦ hwalked part (List.mem_reverse.mp hpart)
  have hslash : [marks.slash].intercalate walked.reverse ≠ [marks.slash] :=
    intercalate_ne_singleton hreverse fun hkept ↦ hkept.2.2 List.mem_cons_self
  have hdot : [marks.slash].intercalate walked.reverse ≠ [marks.dot] :=
    intercalate_ne_singleton hreverse fun hkept ↦ hkept.2.1 rfl
  have hnil := intercalate_eq_nil_iff hreverse
  rw [written, written, List.reverse_cons, intercalate_concat]
  by_cases hnone : walked.reverse = []
  · have hempty := hnil.mpr hnone
    rw [if_pos hnone, hempty]
    cases isRooted with
    | true =>
      have hroot : [marks.slash] ≠ [marks.dot] := fun h ↦ marks.slash_ne_dot (List.cons.inj h).1
      rw [if_pos rfl, if_pos rfl, entry, if_neg hroot, if_pos rfl]
    | false =>
      rw [if_neg Bool.false_ne_true, if_neg Bool.false_ne_true, if_neg hname.ne_nil, if_pos rfl,
        entry, if_pos rfl]
  · have hsome := mt hnil.mp hnone
    rw [if_neg hnone]
    cases isRooted with
    | true =>
      have hlong : marks.slash :: [marks.slash].intercalate walked.reverse ≠ [marks.slash] :=
        fun h ↦ hsome (List.cons.inj h).2
      have hlonger : marks.slash :: [marks.slash].intercalate walked.reverse ≠ [marks.dot] :=
        fun h ↦ hsome (List.cons.inj h).2
      rw [if_pos rfl, if_pos rfl, entry, if_neg hlonger, if_neg hlong, List.cons_append]
    | false =>
      have hboth : [marks.slash].intercalate walked.reverse ++ marks.slash :: name ≠ [] :=
        List.append_ne_nil_of_right_ne_nil _ (List.cons_ne_nil _ _)
      rw [if_neg Bool.false_ne_true, if_neg Bool.false_ne_true, if_neg hboth, if_neg hsome, entry,
        if_neg hdot, if_neg hslash]

/-- An entry by itself leads through its name alone. -/
theorem clean_of_isName {name : List α} (hname : IsName marks name) : clean marks name = name := by
  have hrooted : rooted marks name = false := by
    refine beq_eq_false_iff_ne.mpr fun hhead ↦ hname.slash_notMem ?_
    exact List.mem_of_mem_head? (Option.mem_def.mpr hhead)
  have hnames : names marks name = [name] := by
    rw [names, List.splitOn_eq_singleton hname.slash_notMem, List.foldl_cons, List.foldl_nil,
      push_of_isName hname]
  rw [clean_eq_written, hnames, hrooted, written_cons (List.forall_mem_nil _) false hname]
  exact if_pos rfl

/-- An entry stays under its directory. -/
theorem join_eq_entry (directory : List α) {name : List α} (hname : IsName marks name) :
    join marks directory name = entry marks (clean marks directory) name := by
  rw [join]
  split_ifs with hnone hempty
  · exact absurd hempty hname.ne_nil
  · rw [clean_of_isName hname, hnone]
    exact (if_pos rfl).symm
  · rw [clean_eq_written, names_append hnone hname, rooted_append hnone,
      written_cons (kept_names directory) _ hname, clean_eq_written]

/-- The last name of a name without a slash is the name. -/
theorem base_eq_self {name : List α} (hname : name ≠ []) (hslash : marks.slash ∉ name) :
    base marks name = name := by
  have hstripped : name.rdropWhile (· = marks.slash) = name := by
    refine List.rdropWhile_eq_self_iff.mpr fun hl hlast ↦ hslash ?_
    rw [← of_decide_eq_true hlast]
    exact List.getLast_mem hl
  have htaken : name.rtakeWhile (· ≠ marks.slash) = name := by
    refine List.rtakeWhile_eq_self_iff.mpr fun character hmem ↦ decide_eq_true ?_
    rintro rfl
    exact hslash hmem
  rw [base, if_neg hname, hstripped]
  exact (if_neg hname).trans htaken

end Walk

end LiveCDN.Library.SlashPath
