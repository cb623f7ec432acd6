import LiveCDN.Controller.Dispatch
import LiveCDN.Library.Binary64

/-!
# How many nodes the outlier filter drops

`filterOutliers` of `controller/scheduler.go` goes once through its list and drops ejected nodes
while fewer than 30% of the list are dropped. What it returns is the list up to the last node it may
drop without the ejected ones, and the list behind that node (`filterOutliersFrom_split`). So it
drops as many ejected nodes as there are, up to the quota, and the first ones of the list, and never
the whole list (`filterOutliers_exact`).

The quota is computed in binary64, as `int(float64(n) * 0.3)`. It is three tenths of every list that
fits into memory, rounded down (`maxEjectCount_eq_floor`), although the constant lies below 0.3.
-/

set_option autoImplicit false
set_option relaxedAutoImplicit false

namespace LiveCDN.Controller.OutlierFilter

open Library.Binary64 NodeStore Scheduling Scheduler Dispatch

/-! ### The quota in binary64 -/

/-- A number nearest to the product of a number of nodes and the constant has three tenths of the
number of nodes as its floor. Assumes: there are at most `2 ^ 50` nodes. -/
theorem floor_of_isNearest {n : ℕ} (hn : n ≤ 2 ^ 50) {p : ℚ}
    (hp : IsNearest (n * nearest (3 / 10)) p) : ⌊p⌋ = (n * 3 / 10 : ℕ) := by
  have hn' : (n : ℚ) ≤ 2 ^ 50 := by exact_mod_cast hn
  have hconstant : nearest (3 / 10) = 3 / 10 - 1 / 5 / 2 ^ 54 := by decide +kernel
  set c := nearest (3 / 10)
  have hproduct : (n : ℚ) * c = n * 3 / 10 - n * (1 / 5 / 2 ^ 54) := by
    rw [hconstant]
    ring
  set q := n * 3 / 10 with hq
  have hsplit : (n : ℚ) * 3 = 10 * q + (n * 3 % 10 : ℕ) := by
    exact_mod_cast (Nat.div_add_mod (n * 3) 10).symm
  have hq' : (q : ℚ) + 1 < 2 ^ 50 := by
    have hroom : q + 1 < 2 ^ 50 := by omega
    exact_mod_cast hroom
  have hdigit : ((n * 3 % 10 : ℕ) : ℚ) ≤ 9 := by
    exact_mod_cast (show n * 3 % 10 ≤ 9 by omega)
  have hqsmall : q < 2 ^ 53 := by omega
  have htop : p ≤ (q + 1 : ℕ) :=
    ge_of_isNearest hp (representable_natCast (by omega)) (by push_cast; linarith)
  -- The number seven eighths above the quota is nearer than the next whole one.
  have hbelow : p ≠ (q + 1 : ℕ) := by
    intro heq
    have hnear := hp.2 _ (representable_div_eight (show 8 * q + 7 < 2 ^ 53 by omega))
    rw [heq, abs_of_nonneg (by push_cast; linarith)] at hnear
    rcases le_abs'.mp hnear with hcase | hcase
    · push_cast at hcase
      linarith
    · push_cast at hcase
      linarith
  have hlow : (q : ℚ) ≤ p := by
    by_cases hdigitZero : n * 3 % 10 = 0
    · -- The product is just below a whole number, and nothing is representable that near below it.
      by_contra hless
      have hless' := not_le.mp hless
      have hgap := div_le_natCast_sub (by omega) hp.1 hless'
      have hpos : (0 : ℚ) ≤ n := Nat.cast_nonneg n
      rw [hdigitZero, Nat.cast_zero, add_zero] at hsplit
      have hnear := hp.2 q (representable_natCast hqsmall)
      rw [abs_of_nonneg (show 0 ≤ (q : ℚ) - n * c by rw [hproduct]; linarith)] at hnear
      have hfar := neg_le_of_abs_le hnear
      rw [hproduct] at hfar
      linarith
    · refine le_of_isNearest hp (representable_natCast hqsmall) ?_
      have hone : (1 : ℚ) ≤ (n * 3 % 10 : ℕ) := by
        exact_mod_cast Nat.one_le_iff_ne_zero.mpr hdigitZero
      rw [hproduct]
      linarith
  rw [Int.floor_eq_iff]
  refine ⟨by exact_mod_cast hlow, ?_⟩
  have hlt := lt_of_le_of_ne htop hbelow
  push_cast at hlt
  exact_mod_cast hlt

/-- The bound of the filter is the floor of three tenths of the number of nodes. Assumes: there are
at most `2 ^ 50` nodes. -/
theorem maxEjectCount_eq_floor {n : ℕ} (hn : n ≤ 2 ^ 50) :
    maxEjectCount n = ⌊(3 / 10 : ℚ) * n⌋₊ := by
  have hexact : nearest n = n :=
    nearest_of_representable (representable_natCast (hn.trans_lt (by norm_num)))
  have hfloor := floor_of_isNearest hn (isNearest_nearest (n * nearest (3 / 10)))
  have hquota : ⌊(3 / 10 : ℚ) * n⌋₊ = n * 3 / 10 := by
    rw [← Nat.floor_div_eq_div (K := ℚ)]
    push_cast
    congr 1
    ring
  rw [hquota, maxEjectCount, hexact, mul, ← Int.floor_toNat, hfloor, Int.toNat_natCast]

/-! ### What the filter drops -/

/-- The pass drops the ejected nodes of the front of the list and keeps what is behind it. -/
theorem filterOutliersFrom_split (s : Scheduler) (now maxEject ejected : ℕ)
    (nodes : List NodeInfo) :
    ∃ front back, nodes = front ++ back ∧
      s.filterOutliersFrom now maxEject ejected nodes =
        front.filter (fun n ↦ !s.stillEjected now n) ++ back ∧
      front.countP (s.stillEjected now) =
        min (nodes.countP (s.stillEjected now)) (maxEject - ejected) := by
  induction nodes generalizing ejected with
  | nil => exact ⟨[], [], rfl, rfl, (Nat.zero_min _).symm⟩
  | cons n nodes ih =>
    rw [Scheduler.filterOutliersFrom]
    cases hn : s.stillEjected now n with
    | false =>
      obtain ⟨front, back, rfl, hkept, hcount⟩ := ih ejected
      refine ⟨n :: front, back, rfl, ?_, ?_⟩
      · rw [if_pos rfl, List.filter_cons_of_pos (by rw [hn]; rfl), List.cons_append, hkept]
      · rw [List.countP_cons_of_neg (by rw [hn]; exact Bool.false_ne_true), hcount,
          List.countP_cons_of_neg (by rw [hn]; exact Bool.false_ne_true)]
    | true =>
      rw [if_neg (by decide)]
      by_cases hroom : ejected < maxEject
      · obtain ⟨front, back, rfl, hkept, hcount⟩ := ih (ejected + 1)
        refine ⟨n :: front, back, rfl, ?_, ?_⟩
        · rw [if_pos hroom, List.filter_cons_of_neg (by rw [hn]; exact Bool.false_ne_true), hkept]
        · rw [List.countP_cons_of_pos hn, hcount, List.countP_cons_of_pos hn]
          omega
      · -- The quota is used up: the pass keeps everything from here on.
        obtain ⟨front, back, rfl, hkept, hcount⟩ := ih ejected
        have hfull : maxEject - ejected = 0 := by omega
        rw [hfull, Nat.min_zero, List.countP_eq_zero] at hcount
        refine ⟨[], n :: (front ++ back), rfl, ?_, ?_⟩
        · rw [if_neg hroom, hkept, List.filter_eq_self.mpr fun other hother ↦ ?_]
          · rfl
          · rw [Bool.eq_false_of_not_eq_true (hcount other hother)]
            rfl
        · rw [hfull, Nat.min_zero, List.countP_nil]

/-- The filter does not drop a whole list. Assumes: there is a node in it. -/
theorem filterOutliers_ne_nil (s : Scheduler) (now : ℕ) {nodes : List NodeInfo}
    (hnodes : nodes ≠ []) : s.filterOutliers now nodes ≠ [] := by
  have hlength := s.length_filterOutliers now nodes
  have hbound := maxEjectCount_lt (List.length_pos_iff.mpr hnodes)
  rw [← List.length_pos_iff]
  omega

/-- The filter keeps the order of the nodes, drops the first ejected ones, as many as there are up
to its bound, and never the whole list; so a dispatch never falls back to the nodes before the
filter. The bound, rounded as in the code, is the floor of three tenths of every list that fits into
memory. -/
theorem filterOutliers_exact (s : Scheduler) (now : ℕ) :
    (∀ nodes : List NodeInfo,
      (s.filterOutliers now nodes).Sublist nodes ∧
      (∃ front back, nodes = front ++ back ∧
        s.filterOutliers now nodes = front.filter (fun n ↦ !s.stillEjected now n) ++ back ∧
        front.countP (s.stillEjected now) =
          min (nodes.countP (s.stillEjected now)) (maxEjectCount nodes.length)) ∧
      (s.filterOutliers now nodes).length +
        min (nodes.countP (s.stillEjected now)) (maxEjectCount nodes.length) = nodes.length ∧
      (nodes ≠ [] → s.filterOutliers now nodes ≠ [])) ∧
    (∀ n ≤ 2 ^ 50, maxEjectCount n = ⌊(3 / 10 : ℚ) * n⌋₊) ∧
    ∀ outcome : Outcome, s.availableNodes outcome now =
      s.filterOutliers now (outcome.visit 0 (s.store.getHealthyNodes now)) := by
  refine ⟨fun nodes ↦ ?_, fun n hn ↦ maxEjectCount_eq_floor hn, fun outcome ↦ ?_⟩
  · exact ⟨s.filterOutliers_sublist now nodes,
      filterOutliersFrom_split s now (maxEjectCount nodes.length) 0 nodes,
      s.length_filterOutliers now nodes, filterOutliers_ne_nil s now⟩
  · unfold Scheduler.availableNodes
    dsimp only
    split_ifs with hdropped
    · by_contra hne
      refine filterOutliers_ne_nil s now (fun hnone ↦ ?_) hdropped
      exact hne (hnone.trans (hnone ▸ hdropped.symm))
    · rfl

end LiveCDN.Controller.OutlierFilter
