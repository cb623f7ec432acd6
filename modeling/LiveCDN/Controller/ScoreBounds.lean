import LiveCDN.Controller.NodeScore

/-!
# The range of a node score, and when it falls

`NodeScore` of `common/utils.go` is a product of three scores that the comments put between zero and
one, and a worse measurement is to lower each of them.

The load score exceeds one when the bandwidth used is negative, which a heartbeat may report. A
score stays between zero and one exactly when the bandwidth used is not negative by more than the
latency, the users and the loss take from the score (`mem_unit_iff`), and whatever else is measured
exactly when it is not negative (`forall_mem_unit_iff`). The latency score is put together from
pieces, and the pieces for up to 50 ms and for up to 100 ms end below the start of the next ones:
the comments give 0.9 at 50 ms and 0.7 at 100 ms where the code has 0.7 and 0.6. `StepsUp` says of
two round trips that the score of the longer one is higher (`calcLatencyScore_le_iff`). More users,
more bandwidth used and a higher loss never raise a score.
-/

set_option autoImplicit false
set_option relaxedAutoImplicit false

namespace LiveCDN.Controller.ScoreBounds

open NodeStore NodeScore

/-! ### The latency score -/

/-- A round trip of a piece of the latency score and a longer one of the next piece that scores
higher, on both sides of 50 ms or of 100 ms. -/
def StepsUp (rtt longer : ℤ) : Prop :=
  (20 < rtt ∧ rtt ≤ 50 ∧ 50 < longer ∧ longer ≤ 100 ∧ 50 * (longer - 50) < 83 * (rtt - 30)) ∨
    (50 < rtt ∧ rtt ≤ 100 ∧ 100 < longer ∧ longer ≤ 200 ∧
      830 * (longer - 100) < 1665 * (rtt - 50) - 55278)

/-- The pieces of the latency score. -/
theorem calcLatencyScore_cases (rtt : ℤ) :
    (rtt ≤ 20 ∧ calcLatencyScore rtt = 1) ∨
    (21 ≤ rtt ∧ rtt ≤ 50 ∧ calcLatencyScore rtt = 1 - ((rtt : ℚ) - 20) / 100) ∨
    (51 ≤ rtt ∧ rtt ≤ 100 ∧ calcLatencyScore rtt = 9 / 10 - ((rtt : ℚ) - 50) / 166) ∨
    (101 ≤ rtt ∧ rtt ≤ 200 ∧ calcLatencyScore rtt = 7 / 10 - ((rtt : ℚ) - 100) / 333) ∨
    (201 ≤ rtt ∧ rtt ≤ 500 ∧ calcLatencyScore rtt = 4 / 10 - ((rtt : ℚ) - 200) / 1000) ∨
    (501 ≤ rtt ∧ calcLatencyScore rtt = 5 / 100) := by
  unfold calcLatencyScore
  push_cast
  split_ifs with h₀ h₂₀ h₅₀ h₁₀₀ h₂₀₀ h₅₀₀
  · exact Or.inl ⟨by omega, rfl⟩
  · exact Or.inl ⟨h₂₀, rfl⟩
  · exact Or.inr (Or.inl ⟨by omega, h₅₀, rfl⟩)
  · exact Or.inr (Or.inr (Or.inl ⟨by omega, h₁₀₀, rfl⟩))
  · exact Or.inr (Or.inr (Or.inr (Or.inl ⟨by omega, h₂₀₀, rfl⟩)))
  · exact Or.inr (Or.inr (Or.inr (Or.inr (Or.inl ⟨by omega, h₅₀₀, rfl⟩))))
  · exact Or.inr (Or.inr (Or.inr (Or.inr (Or.inr ⟨by omega, rfl⟩))))

/-- A longer round trip does not score higher. Assumes: the score does not step up between the
two. -/
theorem calcLatencyScore_le {rtt longer : ℤ} (hle : rtt ≤ longer) (hsteps : ¬ StepsUp rtt longer) :
    calcLatencyScore longer ≤ calcLatencyScore rtt := by
  have hfifty : 21 ≤ rtt → rtt ≤ 50 → 51 ≤ longer → longer ≤ 100 →
      83 * (rtt - 30) ≤ 50 * (longer - 50) := fun h h' g g' ↦
    not_lt.mp fun hlt ↦ hsteps (Or.inl ⟨h, h', g, g', hlt⟩)
  have hhundred : 51 ≤ rtt → rtt ≤ 100 → 101 ≤ longer → longer ≤ 200 →
      1665 * (rtt - 50) - 55278 ≤ 830 * (longer - 100) := fun h h' g g' ↦
    not_lt.mp fun hlt ↦ hsteps (Or.inr ⟨h, h', g, g', hlt⟩)
  rcases calcLatencyScore_cases rtt with ⟨h, hs⟩ | ⟨h, h', hs⟩ | ⟨h, h', hs⟩ | ⟨h, h', hs⟩ |
    ⟨h, h', hs⟩ | ⟨h, hs⟩ <;>
  rcases calcLatencyScore_cases longer with ⟨g, gs⟩ | ⟨g, g', gs⟩ | ⟨g, g', gs⟩ | ⟨g, g', gs⟩ |
    ⟨g, g', gs⟩ | ⟨g, gs⟩ <;>
  rw [hs, gs] <;> qify at *
  -- Where the pieces do not overlap the bounds on the two round trips are enough.
  all_goals try linarith only [h, g, hle]
  all_goals try linarith only [h, h', g, hle]
  all_goals try linarith only [h, g', hle]
  · linarith only [hfifty h h' g g']
  · linarith only [hhundred h h' g g']

/-- A longer round trip scores higher where the score steps up. -/
theorem lt_calcLatencyScore {rtt longer : ℤ} (hsteps : StepsUp rtt longer) :
    calcLatencyScore rtt < calcLatencyScore longer := by
  rcases hsteps with ⟨h, h', g, g', hlt⟩ | ⟨h, h', g, g', hlt⟩
  · have hrtt : calcLatencyScore rtt = 1 - ((rtt : ℚ) - 20) / 100 := by
      rw [calcLatencyScore, if_neg (by omega), if_neg (by omega), if_pos h']
      push_cast
      rfl
    have hlonger : calcLatencyScore longer = 9 / 10 - ((longer : ℚ) - 50) / 166 := by
      rw [calcLatencyScore, if_neg (by omega), if_neg (by omega), if_neg (by omega), if_pos g']
      push_cast
      rfl
    qify at hlt
    rw [hrtt, hlonger]
    linarith
  · have hrtt : calcLatencyScore rtt = 9 / 10 - ((rtt : ℚ) - 50) / 166 := by
      rw [calcLatencyScore, if_neg (by omega), if_neg (by omega), if_neg (by omega), if_pos h']
      push_cast
      rfl
    have hlonger : calcLatencyScore longer = 7 / 10 - ((longer : ℚ) - 100) / 333 := by
      rw [calcLatencyScore, if_neg (by omega), if_neg (by omega), if_neg (by omega),
        if_neg (by omega), if_pos g']
      push_cast
      rfl
    qify at hlt
    rw [hrtt, hlonger]
    linarith

/-- A longer round trip does not score higher exactly when the score does not step up between the
two. -/
theorem calcLatencyScore_le_iff {rtt longer : ℤ} (hle : rtt ≤ longer) :
    calcLatencyScore longer ≤ calcLatencyScore rtt ↔ ¬ StepsUp rtt longer :=
  ⟨fun h hsteps ↦ absurd h (not_le.mpr (lt_calcLatencyScore hsteps)), calcLatencyScore_le hle⟩

theorem calcLatencyScore_le_one (rtt : ℤ) : calcLatencyScore rtt ≤ 1 := by
  rcases calcLatencyScore_cases rtt with ⟨h, hs⟩ | ⟨h, h', hs⟩ | ⟨h, h', hs⟩ | ⟨h, h', hs⟩ |
    ⟨h, h', hs⟩ | ⟨h, hs⟩ <;>
  rw [hs] <;> qify at h <;> linarith

/-! ### The load score -/

/-- The load before its lower bound falls with the users and with the bandwidth used. -/
theorem rawLoadScore_le {users more bwUsed busier : ℤ} (bwLimit : ℤ) (husers : users ≤ more)
    (hused : bwUsed ≤ busier) :
    rawLoadScore more busier bwLimit ≤ rawLoadScore users bwUsed bwLimit := by
  have husers' : (users : ℚ) ≤ more := by exact_mod_cast husers
  have hused' : (bwUsed : ℚ) ≤ busier := by exact_mod_cast hused
  have hpenalty : (if more > 0 then (1 : ℚ) - (more : ℚ) / 500 * (3 / 10) else 1) ≤
      if users > 0 then (1 : ℚ) - (users : ℚ) / 500 * (3 / 10) else 1 := by
    split_ifs with hmany hfew hfew
    · linarith
    · have hpos : (0 : ℚ) < more := by exact_mod_cast hmany
      linarith
    · omega
    · exact le_refl _
  unfold rawLoadScore
  by_cases hlimit : bwLimit > 0
  · have hratio : (bwUsed : ℚ) / bwLimit ≤ (busier : ℚ) / bwLimit :=
      div_le_div_of_nonneg_right hused' (by exact_mod_cast hlimit.le)
    rw [if_pos hlimit, if_pos hlimit]
    linarith
  · rw [if_neg hlimit, if_neg hlimit]
    exact hpenalty

theorem calcLoadScore_le {users more bwUsed busier : ℤ} (bwLimit : ℤ) (husers : users ≤ more)
    (hused : bwUsed ≤ busier) :
    calcLoadScore more busier bwLimit ≤ calcLoadScore users bwUsed bwLimit := by
  have hraw := rawLoadScore_le bwLimit husers hused
  unfold calcLoadScore
  split_ifs with hlow hlow'
  · exact le_refl _
  · exact not_lt.mp hlow'
  · linarith
  · exact hraw

/-- What the users of a node take from its load score. -/
def usersPenalty (users : ℤ) : ℚ := if users > 0 then (users : ℚ) / 500 * (3 / 10) else 0

/-- The load before its lower bound, where there is a limit. -/
theorem rawLoadScore_of_limit (users bwUsed : ℤ) {bwLimit : ℤ} (hlimit : 0 < bwLimit) :
    rawLoadScore users bwUsed bwLimit =
      1 - usersPenalty users - (bwUsed : ℚ) / bwLimit * (7 / 10) := by
  unfold rawLoadScore usersPenalty
  rw [if_pos hlimit]
  split_ifs
  · rfl
  · rw [sub_zero]

/-- The load score is at most one. Assumes: no negative bandwidth is used of a limit. -/
theorem calcLoadScore_le_one {users bwUsed bwLimit : ℤ} (hused : 0 < bwLimit → 0 ≤ bwUsed) :
    calcLoadScore users bwUsed bwLimit ≤ 1 := by
  have hraw : rawLoadScore users bwUsed bwLimit ≤ 1 := by
    have hbase : (if users > 0 then (1 : ℚ) - (users : ℚ) / 500 * (3 / 10) else 1) ≤ 1 := by
      split_ifs with hmany
      · have hpos : (0 : ℚ) < users := by exact_mod_cast hmany
        linarith
      · exact le_refl _
    unfold rawLoadScore
    by_cases hlimit : bwLimit > 0
    · have hratio : (0 : ℚ) ≤ (bwUsed : ℚ) / bwLimit :=
        div_nonneg (by exact_mod_cast hused hlimit) (by exact_mod_cast hlimit.le)
      rw [if_pos hlimit]
      linarith
    · rw [if_neg hlimit]
      exact hbase
  unfold calcLoadScore
  split_ifs
  · norm_num
  · exact hraw

/-! ### The quality score -/

theorem calcQualityScore_nonneg (lossRate : ℚ) : 0 ≤ calcQualityScore lossRate := by
  unfold calcQualityScore
  split_ifs with hnone hlossy
  · exact zero_le_one
  · exact le_refl _
  · exact div_nonneg (by linarith) (by norm_num)

theorem calcQualityScore_le_one (lossRate : ℚ) : calcQualityScore lossRate ≤ 1 := by
  unfold calcQualityScore
  split_ifs with hnone hlossy
  · exact le_refl _
  · exact zero_le_one
  · rw [div_le_one (by norm_num)]
    linarith

/-- The quality score falls with the loss. -/
theorem calcQualityScore_le {lossRate higher : ℚ} (hle : lossRate ≤ higher) :
    calcQualityScore higher ≤ calcQualityScore lossRate := by
  by_cases hnone : lossRate ≤ 0
  · exact (calcQualityScore_le_one higher).trans (le_of_eq (if_pos hnone).symm)
  · by_cases hlossy : higher ≥ 5 / 100
    · have hzero : calcQualityScore higher = 0 := by
        rw [calcQualityScore, if_neg (by linarith), if_pos hlossy]
      exact hzero ▸ calcQualityScore_nonneg lossRate
    · rw [calcQualityScore, calcQualityScore, if_neg (by linarith), if_neg hlossy, if_neg hnone,
        if_neg (by linarith)]
      exact div_le_div_of_nonneg_right (by linarith) (by norm_num)

/-! ### The node score -/

theorem nodeScore_nonneg (node : NodeInfo) : 0 ≤ nodeScore node :=
  mul_nonneg (mul_pos (calcLatencyScore_pos _) (calcLoadScore_pos _ _ _)).le
    (calcQualityScore_nonneg _)

/-- The bandwidth used of a limit is not negative by more than the latency, the users and the loss
take from the score. A node that loses 5% or more scores zero. -/
def Covered (node : NodeInfo) : Prop :=
  0 < node.bwLimit → node.lossRate < 5 / 100 →
    -((node.bwUsed : ℚ) / node.bwLimit) * (7 / 10) ≤
      1 / (calcLatencyScore node.rtt * calcQualityScore node.lossRate) - 1 +
        usersPenalty node.onlineUsers

/-- A node without a limit, or with no negative bandwidth used, scores at most one. -/
theorem nodeScore_le_one {node : NodeInfo} (hused : 0 < node.bwLimit → 0 ≤ node.bwUsed) :
    nodeScore node ≤ 1 := by
  have hfirst : calcLatencyScore node.rtt *
      calcLoadScore node.onlineUsers node.bwUsed node.bwLimit ≤ 1 :=
    mul_le_one₀ (calcLatencyScore_le_one _) (calcLoadScore_pos _ _ _).le
      (calcLoadScore_le_one hused)
  exact mul_le_one₀ hfirst (calcQualityScore_nonneg _) (calcQualityScore_le_one _)

/-- The score of a node is between zero and one exactly when a negative bandwidth used is covered by
what the other measurements take from the score. -/
theorem mem_unit_iff (node : NodeInfo) :
    (0 ≤ nodeScore node ∧ nodeScore node ≤ 1) ↔ Covered node := by
  rw [and_iff_right (nodeScore_nonneg node)]
  by_cases hlimit : 0 < node.bwLimit
  · by_cases hlossy : node.lossRate < 5 / 100
    · have hlatency := calcLatencyScore_pos node.rtt
      have hquality := (calcQualityScore_pos_iff node.lossRate).mpr hlossy
      set factor := calcLatencyScore node.rtt * calcQualityScore node.lossRate with hfactor
      have hpos : 0 < factor := mul_pos hlatency hquality
      have hle : factor ≤ 1 :=
        mul_le_one₀ (calcLatencyScore_le_one _) hquality.le (calcQualityScore_le_one _)
      have hone : 1 ≤ 1 / factor := (one_le_div hpos).mpr hle
      have hscore : nodeScore node =
          calcLoadScore node.onlineUsers node.bwUsed node.bwLimit * factor := by
        rw [nodeScore, hfactor]
        ring
      have hclamped : calcLoadScore node.onlineUsers node.bwUsed node.bwLimit ≤ 1 / factor ↔
          rawLoadScore node.onlineUsers node.bwUsed node.bwLimit ≤ 1 / factor := by
        unfold calcLoadScore
        split_ifs with hlow
        · exact iff_of_true (by linarith) (by linarith)
        · exact Iff.rfl
      rw [hscore, ← le_div_iff₀ hpos, hclamped, rawLoadScore_of_limit _ _ hlimit, Covered,
        ← hfactor]
      constructor
      · intro hraw _ _
        linarith
      · intro hcovered
        linarith [hcovered hlimit hlossy]
    · have hzero : calcQualityScore node.lossRate = 0 :=
        le_antisymm (not_lt.mp fun hpos ↦ hlossy ((calcQualityScore_pos_iff _).mp hpos))
          (calcQualityScore_nonneg _)
      refine iff_of_true ?_ fun _ h ↦ absurd h hlossy
      rw [nodeScore, hzero, mul_zero]
      exact zero_le_one
  · exact iff_of_true (nodeScore_le_one fun h ↦ absurd h hlimit) fun h ↦ absurd h hlimit

/-- The score of a node is between zero and one whatever its round trip, users and loss are exactly
when no negative bandwidth is used of a limit. -/
theorem forall_mem_unit_iff (bwUsed bwLimit : ℤ) :
    (∀ node : NodeInfo, node.bwUsed = bwUsed → node.bwLimit = bwLimit →
      0 ≤ nodeScore node ∧ nodeScore node ≤ 1) ↔ (0 < bwLimit → 0 ≤ bwUsed) := by
  constructor
  · intro hunit hlimit
    let idle : NodeInfo :=
      { MemoryStore.newNode 0 ⟨"", "", "", 0, "", "", bwLimit, "", "", "", false, false, false⟩ with
        bwUsed := bwUsed }
    have hcovered := (mem_unit_iff idle).mp (hunit idle rfl rfl) hlimit
      (show (0 : ℚ) < 5 / 100 by norm_num)
    have hneeds : -((bwUsed : ℚ) / bwLimit) * (7 / 10) ≤
        1 / (calcLatencyScore 0 * calcQualityScore 0) - 1 + usersPenalty 0 := hcovered
    rw [show calcLatencyScore 0 = 1 from if_pos (le_refl 0),
      show calcQualityScore 0 = 1 from if_pos (le_refl 0),
      show usersPenalty 0 = 0 from if_neg (lt_irrefl 0)] at hneeds
    have hratio : (0 : ℚ) ≤ (bwUsed : ℚ) / bwLimit := by linarith
    have hlimit' : (0 : ℚ) < bwLimit := by exact_mod_cast hlimit
    rw [le_div_iff₀ hlimit', zero_mul] at hratio
    exact_mod_cast hratio
  · rintro hused node rfl rfl
    exact ⟨nodeScore_nonneg node, nodeScore_le_one hused⟩

/-- A longer round trip does not raise the score of a node exactly when the latency score does not
step up between the two, or the node loses 5% or more. -/
theorem nodeScore_rtt_le_iff (node : NodeInfo) {longer : ℤ} (hle : node.rtt ≤ longer) :
    nodeScore { node with rtt := longer } ≤ nodeScore node ↔
      ¬ StepsUp node.rtt longer ∨ 5 / 100 ≤ node.lossRate := by
  have hload := calcLoadScore_pos node.onlineUsers node.bwUsed node.bwLimit
  change calcLatencyScore longer * _ * calcQualityScore node.lossRate ≤
    calcLatencyScore node.rtt * _ * calcQualityScore node.lossRate ↔ _
  by_cases hlossy : 5 / 100 ≤ node.lossRate
  · have hzero : calcQualityScore node.lossRate = 0 :=
      le_antisymm (not_lt.mp fun hpos ↦
        not_lt.mpr hlossy ((calcQualityScore_pos_iff _).mp hpos)) (calcQualityScore_nonneg _)
    rw [hzero, mul_zero, mul_zero]
    exact iff_of_true (le_refl 0) (Or.inr hlossy)
  · have hquality := (calcQualityScore_pos_iff node.lossRate).mpr (not_le.mp hlossy)
    rw [mul_le_mul_iff_left₀ hquality, mul_le_mul_iff_left₀ hload, calcLatencyScore_le_iff hle,
      or_iff_left hlossy]

/-- More users, more bandwidth used and a higher loss do not raise the score of a node. -/
theorem nodeScore_load_le (node : NodeInfo) {more busier : ℤ} {higher : ℚ}
    (husers : node.onlineUsers ≤ more) (hused : node.bwUsed ≤ busier)
    (hloss : node.lossRate ≤ higher) :
    nodeScore { node with onlineUsers := more, bwUsed := busier, lossRate := higher } ≤
      nodeScore node := by
  refine mul_le_mul ?_ (calcQualityScore_le hloss) (calcQualityScore_nonneg _)
    (mul_pos (calcLatencyScore_pos _) (calcLoadScore_pos _ _ _)).le
  exact mul_le_mul_of_nonneg_left (calcLoadScore_le node.bwLimit husers hused)
    (calcLatencyScore_pos _).le

/-- When the score of a node stays between zero and one and does not rise with what it measures: a
negative bandwidth used is covered by the other measurements, whatever they are if it is not
negative, and the latency score does not step up between two round trips of a node that loses less
than 5%. -/
theorem nodeScore_iff (bwUsed bwLimit : ℤ) (node : NodeInfo) :
    ((0 ≤ nodeScore node ∧ nodeScore node ≤ 1) ↔ Covered node) ∧
    ((∀ other : NodeInfo, other.bwUsed = bwUsed → other.bwLimit = bwLimit →
      0 ≤ nodeScore other ∧ nodeScore other ≤ 1) ↔ (0 < bwLimit → 0 ≤ bwUsed)) ∧
    (∀ longer, node.rtt ≤ longer →
      (nodeScore { node with rtt := longer } ≤ nodeScore node ↔
        ¬ StepsUp node.rtt longer ∨ 5 / 100 ≤ node.lossRate)) ∧
    (∀ more, node.onlineUsers ≤ more →
      nodeScore { node with onlineUsers := more } ≤ nodeScore node) ∧
    (∀ busier, node.bwUsed ≤ busier → nodeScore { node with bwUsed := busier } ≤ nodeScore node) ∧
    ∀ higher, node.lossRate ≤ higher →
      nodeScore { node with lossRate := higher } ≤ nodeScore node :=
  ⟨mem_unit_iff node, forall_mem_unit_iff bwUsed bwLimit, fun _ ↦ nodeScore_rtt_le_iff node,
    fun _ husers ↦ nodeScore_load_le node husers (le_refl _) (le_refl _),
    fun _ hused ↦ nodeScore_load_le node (le_refl _) hused (le_refl _),
    fun _ hloss ↦ nodeScore_load_le node (le_refl _) (le_refl _) hloss⟩

/-- A node that uses no bandwidth of a limit and has a round trip of 50 ms. -/
def idleNode : NodeInfo :=
  { MemoryStore.newNode 0 ⟨"edge-1", "", "", 0, "", "", 100, "", "", "", false, false, false⟩ with
    rtt := 50 }

/-- A round trip of 51 ms scores higher than one of 50 ms, and a negative bandwidth used gives a
score above one. -/
theorem nodeScore_counterexample :
    nodeScore idleNode < nodeScore { idleNode with rtt := 51 } ∧
      1 < nodeScore { idleNode with rtt := 0, bwUsed := -100 } := by
  decide +kernel

end LiveCDN.Controller.ScoreBounds
