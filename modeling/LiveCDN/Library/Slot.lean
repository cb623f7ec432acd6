import Mathlib

/-!
# A variable that holds what was opened last

A program opens things one after another and keeps the last of them in a variable (`put`), through
which alone it can close it (`release`); a thing can also go by itself (`drop`). Things are numbered
in the order in which they are opened, and a slot carries that those that are open have been opened
(`live_lt`). Releasing leaves nothing open exactly when all that is open is what the variable holds
(`live_release_eq_empty_iff`), and opening one keeps this exactly when nothing is open
(`held_put_iff`).
-/

set_option autoImplicit false
set_option relaxedAutoImplicit false

namespace LiveCDN.Library

/-- A variable, the number of things opened for it, and those that are open. -/
structure Slot where
  made : ℕ
  current : Option ℕ
  live : Finset ℕ
  live_lt : ∀ handle ∈ live, handle < made

namespace Slot

variable {slot : Slot}

/-- Nothing has been opened. -/
def empty : Slot := ⟨0, none, ∅, fun handle hlive ↦ absurd hlive (Finset.notMem_empty handle)⟩

/-- A thing is opened, and the variable holds it. -/
def put (slot : Slot) : Slot where
  made := slot.made + 1
  current := some slot.made
  live := insert slot.made slot.live
  live_lt handle hlive := by
    rcases Finset.mem_insert.mp hlive with rfl | hold
    · exact Nat.lt_succ_self _
    · exact (slot.live_lt handle hold).trans (Nat.lt_succ_self _)

/-- A thing goes by itself. -/
def drop (slot : Slot) (handle : ℕ) : Slot where
  made := slot.made
  current := slot.current
  live := slot.live.erase handle
  live_lt other hlive := slot.live_lt other (Finset.mem_of_mem_erase hlive)

/-- What the variable holds is closed, and the variable cleared. -/
def release (slot : Slot) : Slot where
  made := slot.made
  current := none
  live := slot.live.filter fun handle ↦ slot.current ≠ some handle
  live_lt other hlive := slot.live_lt other (Finset.mem_of_mem_filter other hlive)

/-- All that is open is what the variable holds. -/
def Held (slot : Slot) : Prop := ∀ handle ∈ slot.live, slot.current = some handle

theorem held_of_live_eq_empty (hnone : slot.live = ∅) : slot.Held := by
  intro handle hlive
  rw [hnone] at hlive
  exact absurd hlive (Finset.notMem_empty handle)

theorem Held.drop (hslot : slot.Held) (handle : ℕ) : (slot.drop handle).Held :=
  fun other hlive ↦ hslot other (Finset.mem_of_mem_erase hlive)

theorem live_put_ne_empty (slot : Slot) : slot.put.live ≠ ∅ :=
  Finset.insert_ne_empty slot.made slot.live

/-- All that is open is what the variable holds after an opening exactly when nothing was open. -/
theorem held_put_iff : slot.put.Held ↔ slot.live = ∅ := by
  constructor
  · intro hput
    refine Finset.eq_empty_of_forall_notMem fun handle hlive ↦ ?_
    have hlast : some slot.made = some handle := hput handle (Finset.mem_insert_of_mem hlive)
    exact (slot.live_lt handle hlive).ne (Option.some.inj hlast).symm
  · intro hnone handle hlive
    have hinsert : handle ∈ insert slot.made slot.live := hlive
    rw [hnone, Finset.mem_insert, or_iff_left (Finset.notMem_empty handle)] at hinsert
    exact congrArg some hinsert.symm

/-- Releasing leaves nothing open exactly when all that is open is what the variable holds. -/
theorem live_release_eq_empty_iff : slot.release.live = ∅ ↔ slot.Held := by
  rw [release, Finset.filter_eq_empty_iff]
  exact forall₂_congr fun handle _ ↦ not_not

theorem held_release (hslot : slot.Held) : slot.release.Held :=
  held_of_live_eq_empty (live_release_eq_empty_iff.mpr hslot)

/-- A variable that is released before each opening keeps holding all that is open. -/
theorem held_release_put_iff : slot.release.put.Held ↔ slot.Held := by
  rw [held_put_iff, live_release_eq_empty_iff]

end Slot

end LiveCDN.Library
