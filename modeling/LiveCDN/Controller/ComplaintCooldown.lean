import LiveCDN.Controller.NodeStore
import LiveCDN.Library.GuardedRun

/-!
# Three complaints in five minutes

The cooldown of `RecordComplaint` and `isCooling` (`controller/store.go`) over every sequence of
complaints. The comment asks for a cooldown of ten minutes after three complaints in five minutes,
which `Cools` says of the times of the complaints about a node. The code counts from the beginning
of a window, and it begins the count anew when the window is over and when a cooldown starts: it
never starts a cooldown without three complaints, but three complaints on both sides of the end of a
window, or of the start of a cooldown, do not start one. `WindowFits` says of a complaint that this
does not happen to it, and `cooling_runs_iff` that it is the exact condition.

Scope. A complaint is atomic and reads the clock once.
-/

set_option autoImplicit false
set_option relaxedAutoImplicit false

namespace LiveCDN.Controller.ComplaintCooldown

open Library.GuardedRun NodeStore

/-! ### Runs -/

/-- A complaint about a node, with the clock it reads. -/
structure Complaint where
  nodeID : String
  now : ℕ

/-- A store with the times of the complaints about each node and the clock of the last one. -/
structure Watched where
  store : MemoryStore
  history : String → List ℕ
  clock : ℕ

/-- A new store. -/
def Watched.start : Watched := ⟨newMemoryStore, fun _ ↦ [], 0⟩

/-- One step. -/
def watch (w : Watched) (complaint : Complaint) : Watched where
  store := w.store.recordComplaint complaint.now complaint.nodeID
  history := Function.update w.history complaint.nodeID
    (w.history complaint.nodeID ++ [complaint.now])
  clock := complaint.now

/-- The clock does not go back. -/
def InOrder (w : Watched) (complaint : Complaint) : Prop := w.clock ≤ complaint.now

/-- Three complaints lie within five minutes, and the last one less than ten minutes back. -/
def Cools (times : List ℕ) (t : ℕ) : Prop :=
  ∃ first second last, [first, second, last].Sublist times ∧ last ≤ first + 5 * minute ∧
    last ≤ t ∧ t < last + 10 * minute

/-- From now on a node cools exactly when its complaints ask for it. -/
def CoolsExactly (w : Watched) : Prop :=
  ∀ nodeID t, w.clock ≤ t → (w.store.isCooling t nodeID = true ↔ Cools (w.history nodeID) t)

/-- The complaint window of a node, a new one when there is none. -/
def window (store : MemoryStore) (nodeID : String) : ComplaintWindow :=
  (store.complaints nodeID).getD ⟨0, none, none⟩

/-- A complaint is the third within five minutes. -/
def Third (times : List ℕ) (now : ℕ) : Prop :=
  ∃ first second, [first, second].Sublist times ∧ now ≤ first + 5 * minute

/-- A complaint is the third that an open window counts. -/
def triggers (now : ℕ) (window : ComplaintWindow) : Bool :=
  !sinceExceeds now window.firstAt (5 * minute) && decide (2 ≤ window.count)

/-- The condition on a complaint: if it is the third within five minutes it is the third that an
open window counts, or a cooldown has started at the same instant. -/
def WindowFits (w : Watched) (complaint : Complaint) : Prop :=
  Third (w.history complaint.nodeID) complaint.now →
    triggers complaint.now (window w.store complaint.nodeID) = true ∨
      (window w.store complaint.nodeID).cooldown = some (complaint.now + 10 * minute)

/-! ### Complaints -/

/-- A further complaint asks for a cooldown when it is the third within five minutes. -/
theorem cools_append_iff (times : List ℕ) {now t : ℕ} (hnow : now ≤ t) :
    Cools (times ++ [now]) t ↔ Cools times t ∨ (Third times now ∧ t < now + 10 * minute) := by
  constructor
  · rintro ⟨first, second, last, hsublist, hspan, hlast, hlasts⟩
    obtain ⟨early, late, hsplit, hearly, hlate⟩ := List.sublist_append_iff.mp hsublist
    rcases List.sublist_singleton.mp hlate with rfl | rfl
    · rw [List.append_nil] at hsplit
      exact Or.inl ⟨first, second, last, hsplit ▸ hearly, hspan, hlast, hlasts⟩
    · obtain ⟨hfront, rfl⟩ : [first, second] = early ∧ last = now := by
        have hconcat : [first, second] ++ [last] = early ++ [now] := hsplit
        obtain ⟨hfront, hback⟩ := List.append_inj' hconcat rfl
        exact ⟨hfront, List.singleton_inj.mp hback⟩
      exact Or.inr ⟨⟨first, second, hfront ▸ hearly, hspan⟩, hlasts⟩
  · rintro (⟨first, second, last, hsublist, hrest⟩ | ⟨⟨first, second, hsublist, hspan⟩, hlasts⟩)
    · exact ⟨first, second, last, hsublist.trans (List.sublist_append_left times [now]), hrest⟩
    · exact ⟨first, second, now, hsublist.append (List.Sublist.refl [now]), hspan, hnow, hlasts⟩

/-- Two of the complaints from a time on are two complaints. -/
theorem third_of_le_length {times : List ℕ} {since now : ℕ}
    (hmany : 2 ≤ (times.filter fun time ↦ decide (since ≤ time)).length)
    (hopen : now ≤ since + 5 * minute) : Third times now := by
  obtain ⟨first, late, hlate⟩ := List.exists_cons_of_length_pos (Nat.zero_lt_of_lt hmany)
  rw [hlate, List.length_cons] at hmany
  obtain ⟨second, others, rfl⟩ := List.exists_cons_of_length_pos (Nat.le_of_succ_le_succ hmany)
  have hfirst : first ∈ times.filter fun time ↦ decide (since ≤ time) := hlate ▸ List.mem_cons_self
  have hsince := of_decide_eq_true (List.mem_filter.mp hfirst).2
  have hpair : [first, second].Sublist (first :: second :: others) :=
    ((List.nil_sublist others).cons_cons second).cons_cons first
  exact ⟨first, second, (hlate ▸ hpair).trans List.filter_sublist, by omega⟩

/-! ### One window -/

/-- A complaint window after a complaint. -/
def windowAfter (now : ℕ) (window : ComplaintWindow) : ComplaintWindow :=
  let window := if sinceExceeds now window.firstAt (5 * minute) then
    { window with count := 0, firstAt := some now } else window
  let window := { window with count := window.count + 1 }
  if window.count ≥ 3 then
    { window with cooldown := some (now + 10 * minute), count := 0 } else window

/-- A complaint takes each node through its own windows. -/
theorem window_recordComplaint (store : MemoryStore) (now : ℕ) (named nodeID : String) :
    window (store.recordComplaint now named) nodeID =
      if nodeID = named then windowAfter now (window store nodeID) else window store nodeID := by
  unfold window
  change (Function.update store.complaints named
    (some (windowAfter now ((store.complaints named).getD _))) nodeID).getD _ = _
  by_cases hnamed : nodeID = named
  · rw [if_pos hnamed, hnamed, Function.update_self]
    rfl
  · rw [if_neg hnamed, Function.update_of_ne hnamed]

/-- A node cools until the time in its window. -/
theorem isCooling_eq (store : MemoryStore) (now : ℕ) (nodeID : String) :
    store.isCooling now nodeID = isBefore now (window store nodeID).cooldown := by
  unfold MemoryStore.isCooling window
  cases store.complaints nodeID with
  | none => rfl
  | some window => rfl

/-- What a complaint does to a window: it begins the window anew, it starts a cooldown, or it is
only counted. -/
theorem windowAfter_cases (now : ℕ) (window : ComplaintWindow) :
    (triggers now window = false ∧ windowAfter now window = ⟨1, some now, window.cooldown⟩) ∨
      (triggers now window = true ∧
        windowAfter now window = ⟨0, window.firstAt, some (now + 10 * minute)⟩) ∨
      (triggers now window = false ∧
        windowAfter now window = ⟨window.count + 1, window.firstAt, window.cooldown⟩) := by
  unfold windowAfter triggers
  cases hstale : sinceExceeds now window.firstAt (5 * minute) with
  | true => exact Or.inl ⟨rfl, rfl⟩
  | false =>
    refine Or.inr ?_
    by_cases hmany : 2 ≤ window.count
    · have hthree : window.count + 1 ≥ 3 := Nat.succ_le_succ hmany
      exact Or.inl ⟨decide_eq_true hmany, if_pos hthree⟩
    · have hfew : ¬ window.count + 1 ≥ 3 := fun h ↦ hmany (Nat.le_of_succ_le_succ h)
      exact Or.inr ⟨decide_eq_false hmany, if_neg hfew⟩

/-- The cooldown after a complaint. -/
theorem cooldown_windowAfter (now : ℕ) (window : ComplaintWindow) :
    (windowAfter now window).cooldown =
      if triggers now window = true then some (now + 10 * minute) else window.cooldown := by
  rcases windowAfter_cases now window with ⟨hquiet, h⟩ | ⟨htriggers, h⟩ | ⟨hquiet, h⟩
  · rw [h, hquiet, if_neg (by decide)]
  · rw [h, htriggers, if_pos rfl]
  · rw [h, hquiet, if_neg (by decide)]

/-- A window and the times of the complaints about its node. The window begins and the cooldown ends
in time, and as many complaints as it counts have come since it began. -/
structure Counts (times : List ℕ) (clock : ℕ) (window : ComplaintWindow) : Prop where
  recent : ∀ first ∈ window.firstAt, first ≤ clock
  counted : ∀ first ∈ window.firstAt,
    window.count ≤ (times.filter fun time ↦ decide (first ≤ time)).length
  bounded : ∀ time ∈ window.cooldown, time ≤ clock + 10 * minute

theorem counts_of_le {times : List ℕ} {clock now : ℕ} {window : ComplaintWindow}
    (hcounts : Counts times clock window) (hle : clock ≤ now) : Counts times now window where
  recent first hfirst := (hcounts.recent first hfirst).trans hle
  counted := hcounts.counted
  bounded time htime := (hcounts.bounded time htime).trans (Nat.add_le_add_right hle _)

/-- A further complaint is one more since an earlier time. -/
theorem length_filter_append (times : List ℕ) {first now : ℕ} (hle : first ≤ now) :
    ((times ++ [now]).filter fun time ↦ decide (first ≤ time)).length =
      (times.filter fun time ↦ decide (first ≤ time)).length + 1 := by
  simp [hle]

theorem counts_windowAfter {times : List ℕ} {now : ℕ} {window : ComplaintWindow}
    (hcounts : Counts times now window) : Counts (times ++ [now]) now (windowAfter now window) := by
  have hmore : ∀ first ∈ window.firstAt, window.count + 1 ≤
      ((times ++ [now]).filter fun time ↦ decide (first ≤ time)).length := by
    intro first hfirst
    rw [length_filter_append times (hcounts.recent first hfirst)]
    exact Nat.add_le_add_right (hcounts.counted first hfirst) 1
  rcases windowAfter_cases now window with ⟨_, h⟩ | ⟨_, h⟩ | ⟨_, h⟩
  · rw [h]
    refine ⟨fun first hfirst ↦ ?_, fun first hfirst ↦ ?_, hcounts.bounded⟩
    · exact (Option.some_inj.mp hfirst).symm.le
    · obtain rfl := Option.some_inj.mp hfirst
      rw [length_filter_append times (le_refl now)]
      exact Nat.le_add_left 1 _
  · rw [h]
    refine ⟨hcounts.recent, fun first _ ↦ Nat.zero_le _, fun time htime ↦ ?_⟩
    exact (Option.some_inj.mp htime).symm.le
  · rw [h]
    exact ⟨hcounts.recent, hmore, hcounts.bounded⟩

/-- The code starts no cooldown without three complaints. -/
theorem third_of_triggers {times : List ℕ} {now : ℕ} {window : ComplaintWindow}
    (hcounts : Counts times now window) (htriggers : triggers now window = true) :
    Third times now := by
  unfold triggers at htriggers
  cases hfirst : window.firstAt with
  | none =>
    rw [hfirst] at htriggers
    exact absurd htriggers Bool.false_ne_true
  | some first =>
    rw [hfirst, Bool.and_eq_true, Bool.not_eq_true', decide_eq_true_eq] at htriggers
    have hopen : now - first ≤ 5 * minute := not_lt.mp (of_decide_eq_false htriggers.1)
    exact third_of_le_length (htriggers.2.trans (hcounts.counted first hfirst))
      (Nat.sub_le_iff_le_add'.mp hopen)

/-- When the cooldown of a window is still what the complaints ask for after one more. Assumes: it
was so before, for the times from now on. -/
theorem cools_windowAfter_iff {times : List ℕ} {now : ℕ} {window : ComplaintWindow}
    (hcounts : Counts times now window)
    (hexact : ∀ t, now ≤ t → (isBefore t window.cooldown = true ↔ Cools times t)) :
    (∀ t, now ≤ t →
      (isBefore t (windowAfter now window).cooldown = true ↔ Cools (times ++ [now]) t)) ↔
      (Third times now →
        triggers now window = true ∨ window.cooldown = some (now + 10 * minute)) := by
  have hbefore : ∀ t, isBefore t window.cooldown = true → t < now + 10 * minute := by
    intro t ht
    unfold isBefore at ht
    split at ht
    · exact absurd ht Bool.false_ne_true
    · next time htime => exact (of_decide_eq_true ht).trans_le (hcounts.bounded time htime)
  rw [cooldown_windowAfter]
  by_cases htriggers : triggers now window = true
  · have hthird := third_of_triggers hcounts htriggers
    refine iff_of_true (fun t ht ↦ ?_) fun _ ↦ Or.inl htriggers
    rw [if_pos htriggers, cools_append_iff times ht, ← hexact t ht, and_iff_right hthird,
      or_iff_right_of_imp (hbefore t)]
    exact decide_eq_true_iff
  · rw [if_neg htriggers]
    constructor
    · intro hafter hthird
      refine Or.inr ?_
      -- The last instant of the cooldown that the complaint asks for.
      have hminute : 0 < minute := by decide
      have hnow : now ≤ now + 10 * minute - 1 := by omega
      have hlast := (hafter _ hnow).mpr
        ((cools_append_iff times hnow).mpr (Or.inr ⟨hthird, by omega⟩))
      cases hcooldown : window.cooldown with
      | none =>
        rw [hcooldown] at hlast
        exact absurd hlast Bool.false_ne_true
      | some time =>
        rw [hcooldown] at hlast
        have hend := hcounts.bounded time hcooldown
        have hlasts : now + 10 * minute - 1 < time := of_decide_eq_true hlast
        exact congrArg some (by omega)
    · intro hfits t ht
      rw [cools_append_iff times ht, ← hexact t ht]
      constructor
      · exact Or.inl
      · rintro (hcools | ⟨hthird, hlasts⟩)
        · exact hcools
        · rw [(hfits hthird).resolve_left htriggers]
          exact decide_eq_true hlasts

/-! ### Every run -/

/-- Each window goes with the times of the complaints about its node. -/
def Kept (w : Watched) : Prop :=
  (∀ nodeID, Counts (w.history nodeID) w.clock (window w.store nodeID)) ∧ CoolsExactly w

theorem kept_start : Kept .start := by
  refine ⟨fun nodeID ↦ ⟨?_, ?_, ?_⟩, fun nodeID t _ ↦ iff_of_false Bool.false_ne_true ?_⟩
  · exact fun first hfirst ↦ absurd hfirst (Option.not_mem_none first)
  · exact fun first hfirst ↦ absurd hfirst (Option.not_mem_none first)
  · exact fun time htime ↦ absurd htime (Option.not_mem_none time)
  · rintro ⟨first, second, last, hsublist, _⟩
    exact absurd hsublist.length_le (show ¬ 3 ≤ 0 by decide)

theorem counts_watch {w : Watched} {complaint : Complaint}
    (hcounts : ∀ nodeID, Counts (w.history nodeID) w.clock (window w.store nodeID))
    (horder : InOrder w complaint) (nodeID : String) :
    Counts ((watch w complaint).history nodeID) (watch w complaint).clock
      (window (watch w complaint).store nodeID) := by
  have hnow := counts_of_le (hcounts nodeID) horder
  change Counts (Function.update w.history complaint.nodeID _ nodeID) complaint.now
    (window (w.store.recordComplaint complaint.now complaint.nodeID) nodeID)
  rw [window_recordComplaint]
  by_cases hnode : nodeID = complaint.nodeID
  · subst hnode
    rw [Function.update_self, if_pos rfl]
    exact counts_windowAfter hnow
  · rw [Function.update_of_ne hnode, if_neg hnode]
    exact hnow

/-- A complaint leaves every cooldown as it should be exactly when its window fits. -/
theorem coolsExactly_watch_iff {w : Watched} {complaint : Complaint} (hkept : Kept w)
    (horder : InOrder w complaint) :
    CoolsExactly (watch w complaint) ↔ WindowFits w complaint := by
  have hexact : ∀ nodeID t, complaint.now ≤ t →
      (isBefore t (window w.store nodeID).cooldown = true ↔ Cools (w.history nodeID) t) := by
    intro nodeID t ht
    rw [← isCooling_eq]
    exact hkept.2 nodeID t (horder.trans ht)
  have hwindow := cools_windowAfter_iff (counts_of_le (hkept.1 complaint.nodeID) horder)
    (hexact complaint.nodeID)
  rw [WindowFits, ← hwindow]
  have hsame : ∀ nodeID t, (watch w complaint).store.isCooling t nodeID =
      isBefore t (if nodeID = complaint.nodeID then
        windowAfter complaint.now (window w.store nodeID) else window w.store nodeID).cooldown := by
    intro nodeID t
    rw [isCooling_eq, ← window_recordComplaint]
    rfl
  constructor
  · intro hall t ht
    have hnode := hall complaint.nodeID t ht
    rw [hsame, if_pos rfl] at hnode
    rw [hnode]
    simp only [watch, Function.update_self]
  · intro hnode nodeID t ht
    rw [hsame]
    by_cases hother : nodeID = complaint.nodeID
    · subst hother
      rw [if_pos rfl, hnode t ht]
      simp only [watch, Function.update_self]
    · rw [if_neg hother, hexact nodeID t ht]
      simp only [watch, Function.update_of_ne hother]

/-- When every node cools exactly when three complaints in five minutes ask for it. Assumes: the
clock does not go back. -/
theorem cooling_runs_iff {complaints : List Complaint}
    (hordered : EachStepMeets watch InOrder .start complaints) :
    EachStepMeets watch (fun w complaint ↦ CoolsExactly (watch w complaint)) .start complaints ↔
      EachStepMeets watch WindowFits .start complaints :=
  eachStepMeets_iff_under watch
    (fun w complaint (hkept : Kept w) (horder : InOrder w complaint) hexact ↦
      ⟨counts_watch hkept.1 horder, hexact⟩)
    (fun _ _ hkept horder ↦ coolsExactly_watch_iff hkept horder) kept_start hordered

/-- A witness of the condition: three complaints in a minute start the cooldown they ask for. -/
theorem cooling_runs_iff_threeComplaints :
    EachStepMeets watch (fun w complaint ↦ CoolsExactly (watch w complaint)) .start
      [⟨"edge-1", 0⟩, ⟨"edge-1", 30 * second⟩, ⟨"edge-1", 60 * second⟩] := by
  have hordered : EachStepMeets watch InOrder .start
      [⟨"edge-1", 0⟩, ⟨"edge-1", 30 * second⟩, ⟨"edge-1", 60 * second⟩] :=
    ⟨le_refl 0, Nat.zero_le _, Nat.mul_le_mul_right second (by decide), trivial⟩
  refine (cooling_runs_iff hordered).mpr ⟨?_, ?_, ?_, trivial⟩
  · rintro ⟨first, second, hsublist, _⟩
    exact absurd hsublist.length_le (show ¬ 2 ≤ 0 by decide)
  · rintro ⟨first, second, hsublist, _⟩
    exact absurd hsublist.length_le (show ¬ 2 ≤ 1 by decide)
  · exact fun _ ↦ Or.inl (by decide +kernel)

/-- Three complaints between 240 and 302 seconds, which a window that began at zero splits: the node
does not cool. -/
theorem cooling_runs_counterexample :
    let w := run watch .start [⟨"edge-1", 0⟩, ⟨"edge-1", 240 * second⟩, ⟨"edge-1", 301 * second⟩,
      ⟨"edge-1", 302 * second⟩]
    w.store.isCooling (302 * second) "edge-1" = false ∧
      Cools (w.history "edge-1") (302 * second) := by
  refine ⟨by decide +kernel, 240 * second, 301 * second, 302 * second, ?_, ?_, ?_, ?_⟩ <;>
    decide +kernel

end LiveCDN.Controller.ComplaintCooldown
