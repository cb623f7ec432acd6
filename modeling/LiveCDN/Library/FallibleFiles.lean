import Mathlib

/-!
# Files whose operations may fail

The files of a program by path, and the operations on them. A write or a copy that fails leaves its
target missing, with some other content or as it was (`Leftover`); a rename or a removal that fails
leaves everything as it was. The file that is running cannot be opened for writing.

Each operation returns whether it succeeded and the files behind it. Writing and removing leave
other paths alone (`write_of_ne`, `remove_of_ne`), and writing and copying the one that is running
(`write_running`, `copy_running`).
-/

set_option autoImplicit false
set_option relaxedAutoImplicit false

namespace LiveCDN.Library.FallibleFiles

variable {Path Content : Type*} [DecidableEq Path]

/-- The contents of files, none where there is no file. -/
abbrev Files (Path Content : Type*) := Path → Option Content

/-- What a failed write leaves at its target. -/
inductive Leftover (Content : Type*)
  | missing
  | partly (content : Content)
  | stale
  deriving DecidableEq, Repr

/-- What is at a target behind a failed write. -/
def Leftover.after (before : Option Content) : Leftover Content → Option Content
  | missing => none
  | partly content => some content
  | stale => before

/-- A file is written, unless it is the one that is running. -/
def write (running target : Path) (content : Content) (failure : Option (Leftover Content))
    (files : Files Path Content) : Bool × Files Path Content :=
  if target = running then (false, files)
  else
    match failure with
    | none => (true, Function.update files target (some content))
    | some leftover => (false, Function.update files target (leftover.after (files target)))

/-- A file is copied. -/
def copy (running source target : Path) (failure : Option (Leftover Content))
    (files : Files Path Content) : Bool × Files Path Content :=
  match files source with
  | none => (false, files)
  | some content => write running target content failure files

/-- A file is renamed, and replaces what is at the target. -/
def rename (source target : Path) (fails : Bool) (files : Files Path Content) :
    Bool × Files Path Content :=
  if fails = true ∨ files source = none then (false, files)
  else (true, Function.update (Function.update files source none) target (files source))

/-- A file is removed. -/
def remove (target : Path) (fails : Bool) (files : Files Path Content) :
    Bool × Files Path Content :=
  if fails = true ∨ files target = none then (false, files)
  else (true, Function.update files target none)

/-! ### Other paths -/

variable {running source target other : Path} {content : Content}
  {failure : Option (Leftover Content)} {fails : Bool} {files : Files Path Content}

theorem write_of_ne (hother : other ≠ target) :
    (write running target content failure files).2 other = files other := by
  unfold write
  split_ifs
  · rfl
  · cases failure with
    | none => exact Function.update_of_ne hother _ _
    | some leftover => exact Function.update_of_ne hother _ _

theorem remove_of_ne (hother : other ≠ target) :
    (remove target fails files).2 other = files other := by
  unfold remove
  split_ifs
  · rfl
  · exact Function.update_of_ne hother _ _

/-! ### Targets -/

/-- A file is written unless it is running or the operation fails. -/
theorem write_fst : (write running target content failure files).1 = true ↔
    target ≠ running ∧ failure = none := by
  unfold write
  by_cases htarget : target = running
  · rw [if_pos htarget]
    exact iff_of_false nofun fun h ↦ h.1 htarget
  · rw [if_neg htarget, and_iff_right htarget]
    cases failure with
    | none => exact iff_of_true rfl rfl
    | some leftover => exact iff_of_false nofun nofun

/-- What is written is there. -/
theorem write_target (hwritten : (write running target content failure files).1 = true) :
    (write running target content failure files).2 target = some content := by
  obtain ⟨htarget, rfl⟩ := write_fst.mp hwritten
  unfold write
  rw [if_neg htarget]
  exact Function.update_self _ _ _

/-- What is at the target of a copy. -/
theorem copy_target {current : Content} (hsource : files source = some current)
    (htarget : target ≠ running) :
    (copy running source target failure files).2 target =
      failure.elim (some current) (Leftover.after (files target)) := by
  unfold copy write
  rw [hsource]
  dsimp only
  rw [if_neg htarget]
  cases failure with
  | none => exact Function.update_self _ _ _
  | some leftover => exact Function.update_self _ _ _

/-- A renaming that fails changes nothing. -/
theorem rename_true : rename source target true files = (false, files) := if_pos (Or.inl rfl)

/-- A file that is there is renamed. -/
theorem rename_false (hsource : (files source).isSome = true) :
    rename source target false files =
      (true, Function.update (Function.update files source none) target (files source)) :=
  if_neg (not_or.mpr ⟨Bool.false_ne_true, Option.isSome_iff_ne_none.mp hsource⟩)

/-! ### The running file -/

/-- Writing never changes the running file. -/
theorem write_running : (write running target content failure files).2 running = files running := by
  by_cases htarget : target = running
  · exact congrFun (congrArg Prod.snd (if_pos htarget)) running
  · exact write_of_ne (Ne.symm htarget)

/-- Copying never changes the running file. -/
theorem copy_running :
    (copy running source target failure files).2 running = files running := by
  unfold copy
  cases files source with
  | none => rfl
  | some content => exact write_running

end LiveCDN.Library.FallibleFiles
