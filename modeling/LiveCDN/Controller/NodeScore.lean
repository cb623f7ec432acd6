import LiveCDN.Controller.NodeStore

/-!
# Node scores

The scoring functions of `common/utils.go` that the scheduler uses. The latency and load scores are
always positive (`calcLatencyScore_pos`, `calcLoadScore_pos`), so a node scores zero exactly when
its quality score does, at a loss rate of 5% or more (`nodeScoreWithRegionBonus_pos_iff`). The
health test still accepts a loss rate of exactly 5%.
-/

set_option autoImplicit false
set_option relaxedAutoImplicit false

namespace LiveCDN.Controller.NodeScore

open NodeStore

/-- `calcLatencyScore`. -/
def calcLatencyScore (rttMs : ℤ) : ℚ :=
  if rttMs ≤ 0 then 1
  else if rttMs ≤ 20 then 1
  else if rttMs ≤ 50 then 1 - ((rttMs - 20 : ℤ) : ℚ) / 100
  else if rttMs ≤ 100 then 9 / 10 - ((rttMs - 50 : ℤ) : ℚ) / 166
  else if rttMs ≤ 200 then 7 / 10 - ((rttMs - 100 : ℤ) : ℚ) / 333
  else if rttMs ≤ 500 then 4 / 10 - ((rttMs - 200 : ℤ) : ℚ) / 1000
  else 5 / 100

/-- The load score before its lower bound. -/
def rawLoadScore (users bwUsed bwLimit : ℤ) : ℚ :=
  let score := 1
  let score := if users > 0 then score - (users : ℚ) / 500 * (3 / 10) else score
  if bwLimit > 0 then score - (bwUsed : ℚ) / bwLimit * (7 / 10) else score

/-- `calcLoadScore`. -/
def calcLoadScore (users bwUsed bwLimit : ℤ) : ℚ :=
  if rawLoadScore users bwUsed bwLimit < 5 / 100 then 5 / 100
  else rawLoadScore users bwUsed bwLimit

/-- `calcQualityScore`. -/
def calcQualityScore (lossRate : ℚ) : ℚ :=
  if lossRate ≤ 0 then 1
  else if lossRate ≥ 5 / 100 then 0
  else (5 / 100 - lossRate) / (5 / 100)

/-- `NodeScore`. -/
def nodeScore (node : NodeInfo) : ℚ :=
  calcLatencyScore node.rtt * calcLoadScore node.onlineUsers node.bwUsed node.bwLimit *
    calcQualityScore node.lossRate

/-- The region bonus of `NodeScoreWithRegionBonus`. -/
def regionBonus (node : NodeInfo) (clientRegion clientISP : String) : ℚ :=
  if node.region = clientRegion then if node.isp = clientISP then 120 / 100 else 110 / 100 else 1

/-- `NodeScoreWithRegionBonus`. -/
def nodeScoreWithRegionBonus (node : NodeInfo) (clientRegion clientISP : String) : ℚ :=
  if nodeScore node ≤ 0 then 0 else nodeScore node * regionBonus node clientRegion clientISP

/-- The latency score is positive. -/
theorem calcLatencyScore_pos (rttMs : ℤ) : 0 < calcLatencyScore rttMs := by
  unfold calcLatencyScore
  split_ifs with h₀ h₂₀ h₅₀ h₁₀₀ h₂₀₀ h₅₀₀
  · exact one_pos
  · exact one_pos
  · have hrtt : ((rttMs - 20 : ℤ) : ℚ) ≤ 30 := by exact_mod_cast (show rttMs - 20 ≤ 30 by omega)
    linarith
  · have hrtt : ((rttMs - 50 : ℤ) : ℚ) ≤ 50 := by exact_mod_cast (show rttMs - 50 ≤ 50 by omega)
    linarith
  · have hrtt : ((rttMs - 100 : ℤ) : ℚ) ≤ 100 := by
      exact_mod_cast (show rttMs - 100 ≤ 100 by omega)
    linarith
  · have hrtt : ((rttMs - 200 : ℤ) : ℚ) ≤ 300 := by
      exact_mod_cast (show rttMs - 200 ≤ 300 by omega)
    linarith
  · norm_num

/-- The load score is positive. -/
theorem calcLoadScore_pos (users bwUsed bwLimit : ℤ) : 0 < calcLoadScore users bwUsed bwLimit := by
  unfold calcLoadScore
  split_ifs with hlow
  · norm_num
  · exact lt_of_lt_of_le (by norm_num) (not_lt.mp hlow)

/-- The quality score is positive below 5% loss and zero from there on. -/
theorem calcQualityScore_pos_iff (lossRate : ℚ) :
    0 < calcQualityScore lossRate ↔ lossRate < 5 / 100 := by
  unfold calcQualityScore
  split_ifs with hnone hlossy
  · exact iff_of_true one_pos (lt_of_le_of_lt hnone (by norm_num))
  · exact iff_of_false (lt_irrefl 0) (not_lt.mpr hlossy)
  · have hlossy' : lossRate < 5 / 100 := not_le.mp hlossy
    exact iff_of_true (div_pos (sub_pos.mpr hlossy') (by norm_num)) hlossy'

theorem regionBonus_pos (node : NodeInfo) (clientRegion clientISP : String) :
    0 < regionBonus node clientRegion clientISP := by
  unfold regionBonus
  split_ifs <;> norm_num

/-- A node scores above zero exactly when it loses less than 5%. -/
theorem nodeScore_pos_iff (node : NodeInfo) : 0 < nodeScore node ↔ node.lossRate < 5 / 100 := by
  have hrest : 0 < calcLatencyScore node.rtt *
      calcLoadScore node.onlineUsers node.bwUsed node.bwLimit :=
    mul_pos (calcLatencyScore_pos _) (calcLoadScore_pos _ _ _)
  rw [nodeScore, ← calcQualityScore_pos_iff]
  exact mul_pos_iff_of_pos_left hrest

/-- The region bonus does not lift a node above zero, nor sink one that is above. -/
theorem nodeScoreWithRegionBonus_pos_iff (node : NodeInfo) (clientRegion clientISP : String) :
    0 < nodeScoreWithRegionBonus node clientRegion clientISP ↔ node.lossRate < 5 / 100 := by
  rw [← nodeScore_pos_iff, nodeScoreWithRegionBonus]
  split_ifs with hzero
  · exact iff_of_false (lt_irrefl 0) (not_lt.mpr hzero)
  · have hpos : 0 < nodeScore node := not_le.mp hzero
    exact iff_of_true (mul_pos hpos (regionBonus_pos _ _ _)) hpos

end LiveCDN.Controller.NodeScore
