import Mathlib

/-!
# The first point clockwise on a ring

Points on a ring of positions belong to members, and a position belongs to the member whose point
comes first clockwise from it (`Owns`): behind it if there is such a point, and otherwise from the
beginning of the ring. When members join, a position keeps its owner or goes to one of them
(`Owns.eq_or_mem_diff`).
-/

set_option autoImplicit false
set_option relaxedAutoImplicit false

namespace LiveCDN.Library.HashRing

variable {Position Member : Type*} [LinearOrder Position]

/-- Where a point comes in the order clockwise from a position: the points behind the position are
first. -/
def clockwise (start point : Position) : Bool ×ₗ Position := toLex (decide (point ≤ start), point)

theorem clockwise_injective (start : Position) : Function.Injective (clockwise start) :=
  fun _ _ hsame ↦ congrArg (fun place ↦ (ofLex place).2) hsame

/-- Of the points of some members, the first one clockwise from a position belongs to the owner. -/
def Owns (points : Member → Finset Position) (members : Set Member) (start : Position)
    (owner : Member) : Prop :=
  owner ∈ members ∧ ∃ first ∈ points owner, ∀ member ∈ members, ∀ point ∈ points member,
    clockwise start first ≤ clockwise start point

variable {points : Member → Finset Position} {members fewer : Set Member} {start : Position}
  {owner other : Member}

/-- An owner among fewer members, itself one of them. -/
theorem Owns.mono (howns : Owns points members start owner) (hfewer : fewer ⊆ members)
    (howner : owner ∈ fewer) : Owns points fewer start owner := by
  obtain ⟨_, first, hfirst, hleast⟩ := howns
  exact ⟨howner, first, hfirst, fun member hmember ↦ hleast member (hfewer hmember)⟩

/-- A position has one owner. Assumes: the members share no point. -/
theorem Owns.unique (hseparate : members.PairwiseDisjoint points)
    (howns : Owns points members start owner) (hother : Owns points members start other) :
    owner = other := by
  obtain ⟨howner, first, hfirst, hleast⟩ := howns
  obtain ⟨hmember, point, hpoint, hleast'⟩ := hother
  have hsame : first = point := clockwise_injective start
    (le_antisymm (hleast other hmember point hpoint) (hleast' owner howner first hfirst))
  by_contra hne
  exact Finset.disjoint_left.mp (hseparate howner hmember hne) hfirst (hsame ▸ hpoint)

/-- When members join, a position keeps its owner or goes to one that joined. Assumes: the members
share no point. -/
theorem Owns.eq_or_mem_diff (hseparate : members.PairwiseDisjoint points)
    (hfewer : fewer ⊆ members) (howns : Owns points members start owner)
    (hother : Owns points fewer start other) : owner = other ∨ owner ∈ members \ fewer := by
  by_cases howner : owner ∈ fewer
  · exact Or.inl ((howns.mono hfewer howner).unique (hseparate.subset hfewer) hother)
  · exact Or.inr ⟨howns.1, howner⟩

/-- The member with the first point clockwise, when every member has one point. -/
theorem owns_argmin {position : Member → Position} {names : List Member}
    (howner : owner ∈ names.argmin fun member ↦ clockwise start (position member)) :
    Owns (fun member ↦ {position member}) {member | member ∈ names} start owner := by
  refine ⟨List.argmin_mem howner, position owner, Finset.mem_singleton_self _, ?_⟩
  intro member hmember point hpoint
  rw [Finset.mem_singleton.mp hpoint]
  exact List.le_of_mem_argmin (f := fun member ↦ clockwise start (position member)) hmember howner

end LiveCDN.Library.HashRing
