import Mathlib

/-!
# Relations without cycles

A relation has no cycle when no element reaches itself in one or more steps. A rank that increases
along every step excludes cycles (`acyclic_of_rank`). It is enough that the rank increases along the
steps into elements that have a step out of them (`acyclic_of_rank_inner`), since every element of a
cycle has one.
-/

set_option autoImplicit false
set_option relaxedAutoImplicit false

namespace LiveCDN.Library.Ranking

variable {Node Rank : Type*} [Preorder Rank] {step : Node → Node → Prop} (rank : Node → Rank)

/-- No element reaches itself. -/
def Acyclic (step : Node → Node → Prop) : Prop :=
  ∀ node, ¬ Relation.TransGen step node node

/-- A step out of the end of a path makes the rank increase along the path. Assumes: the rank
increases along each step that another step follows. -/
theorem rank_lt_of_transGen (hrank : ∀ a b c, step a b → step b c → rank a < rank b)
    {first last : Node} (hpath : Relation.TransGen step first last)
    (hnext : ∃ next, step last next) : rank first < rank last := by
  induction hpath with
  | single hstep =>
    obtain ⟨next, hnext⟩ := hnext
    exact hrank _ _ _ hstep hnext
  | tail _ hstep ih =>
    obtain ⟨next, hnext⟩ := hnext
    exact (ih ⟨_, hstep⟩).trans (hrank _ _ _ hstep hnext)

/-- A rank that increases along each step that another step follows excludes cycles. -/
theorem acyclic_of_rank_inner (hrank : ∀ a b c, step a b → step b c → rank a < rank b) :
    Acyclic step := by
  intro node hcycle
  have hnext : ∃ next, step node next := by
    obtain ⟨next, hstep, _⟩ := Relation.TransGen.head'_iff.mp hcycle
    exact ⟨next, hstep⟩
  exact lt_irrefl _ (rank_lt_of_transGen rank hrank hcycle hnext)

/-- A rank that increases along each step excludes cycles. -/
theorem acyclic_of_rank (hrank : ∀ a b, step a b → rank a < rank b) : Acyclic step :=
  acyclic_of_rank_inner rank fun a b _ hstep _ ↦ hrank a b hstep

end LiveCDN.Library.Ranking
