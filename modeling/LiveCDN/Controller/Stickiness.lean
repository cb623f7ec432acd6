import LiveCDN.Controller.HandlerEffects

/-!
# How long a client stays on its node

The sticky table of `controller/sticky.go` over every run of `Dispatch`, of `StickyStore.Cleanup`
and of changes to the store and the outlier states, under a clock that does not go back. A dispatch
that selects afresh binds the client to the first node it returns; one that finds the client bound
to a usable node leaves the binding alone (`sticky_dispatch`), so its age is always that of the
first dispatch. `Cleanup` takes out the bindings that have not been renewed for the half hour after
which they are not used any more, so it never takes one out that is (`Holds`). `stickiness_run` is
what follows for a client.

Scope. An action is atomic and reads the clock once. The ids of nodes are not empty: the handlers
require one.
-/

set_option autoImplicit false
set_option relaxedAutoImplicit false

namespace LiveCDN.Controller.Stickiness

open Library.GuardedRun Library.KeyedTable NodeStore Endpoint Scheduling Dispatch HttpServer
  ServerRun HandlerEffects

/-! ### Runs -/

/-- A store whose nodes have ids, which the binding of `RegisterRequest` requires. -/
structure Registry where
  store : MemoryStore
  named : ∀ node ∈ store.nodes.rows, node.nodeID ≠ ""

/-- A dispatch of a client, a turn of `Cleanup`, or a change to the store and the outlier states,
with the clock it reads. -/
inductive Action
  | dispatch (lookup : String → String × String) (outcome : Outcome) (now : ℕ)
      (clientIP clientRegion clientISP : String)
  | cleanup (now : ℕ)
  | change (registry : Registry) (outlierMap : String → Option OutlierState) (now : ℕ)

/-- The clock that an action reads. -/
def Action.now : Action → ℕ
  | .dispatch _ _ now .. | .cleanup now | .change _ _ now => now

/-- `StickyStore.Cleanup`. -/
def cleanupEntries (s : Scheduler) (now : ℕ) : Scheduler :=
  { s with sticky := fun clientID ↦ (s.sticky clientID).filter fun entry ↦
      !decide (now - entry.lastSeen > stickyTTL) }

/-- The metrics loop does this to the scheduler of the server. -/
example (server : Server) (now : ℕ) :
    (ServerRun.cleanupSticky server now).scheduler = cleanupEntries server.scheduler now := rfl

/-- The scheduler and the clock of the last action. -/
structure State where
  scheduler : Scheduler
  clock : ℕ

/-- A new scheduler. -/
def State.start : State := ⟨newScheduler newMemoryStore, 0⟩

/-- The scheduler after an action. -/
def taken (s : Scheduler) : Action → Scheduler
  | .dispatch lookup outcome now clientIP clientRegion clientISP =>
    (s.dispatch lookup outcome now clientIP clientRegion clientISP).2
  | .cleanup now => cleanupEntries s now
  | .change registry outlierMap _ => { s with store := registry.store, outlierMap := outlierMap }

/-- One step. -/
def step (st : State) (action : Action) : State := ⟨taken st.scheduler action, action.now⟩

/-- The clock does not go back. -/
def InOrder (st : State) (action : Action) : Prop := st.clock ≤ action.now

/-- A node a client may stay on: registered, healthy and not ejected. -/
def Usable (s : Scheduler) (now : ℕ) (nodeID : String) : Prop :=
  (s.store.getNode nodeID).any (isNodeHealthy now) = true ∧ s.isEjected now nodeID = false

/-- What an action must be for a binding of a client to be kept. In the half hour of the binding a
dispatch of the client finds its node usable or no healthy node at all, and behind it a dispatch of
the client returns no endpoints. -/
def Keeps (client : String) (entry : StickyEntry) (st : State) : Action → Prop
  | .dispatch lookup outcome now clientIP clientRegion clientISP =>
    clientIP = client →
      if now ≤ entry.bindAt + rotateInterval then
        st.scheduler.store.getHealthyNodes now = [] ∨ Usable st.scheduler now entry.nodeID
      else (st.scheduler.dispatch lookup outcome now clientIP clientRegion clientISP).1 =
        .error errNoAvailableNodes
  | .cleanup _ | .change .. => True

/-! ### What is always so -/

/-- The nodes have ids, and each binding names a node and was renewed at its start or later. -/
structure WellFormed (st : State) : Prop where
  named : ∀ node ∈ st.scheduler.store.nodes.rows, node.nodeID ≠ ""
  bound : ∀ client, ∀ entry ∈ st.scheduler.sticky client,
    entry.nodeID ≠ "" ∧ entry.bindAt ≤ entry.lastSeen

/-- A dispatch that finds the client unbound drops its entry. Assumes: no binding names the empty
id. -/
theorem sticky_rotated {s : Scheduler} (now : ℕ) {clientIP : String}
    (hnamed : ∀ entry ∈ s.sticky clientIP, entry.nodeID ≠ "") :
    (if (s.stickyGet now clientIP).1 = "" then s else s.stickyRotate clientIP).sticky =
      Function.update s.sticky clientIP none := by
  unfold Scheduler.stickyGet
  cases hentry : s.sticky clientIP with
  | none =>
    rw [if_pos rfl, ← hentry]
    exact (Function.update_eq_self clientIP s.sticky).symm
  | some entry =>
    rw [if_neg (hnamed entry hentry)]
    rfl

/-- Without an entry of the client a binding is new. -/
theorem sticky_stickySet {s : Scheduler} (now : ℕ) {clientIP : String} (nodeID : String)
    (hnone : s.sticky clientIP = none) :
    (s.stickySet now clientIP nodeID).sticky =
      Function.update s.sticky clientIP (some ⟨nodeID, now, now⟩) := by
  unfold Scheduler.stickySet
  rw [hnone]

/-- The sticky table after a dispatch. A bound client keeps its binding, as every client does when
there is no healthy node; otherwise the binding of the client is dropped, and replaced by one to the
first node when endpoints are returned. Assumes: no binding names the empty id. -/
theorem sticky_dispatch {s : Scheduler} (lookup : String → String × String) (outcome : Outcome)
    (now : ℕ) (clientIP clientRegion clientISP : String)
    (hnamed : ∀ entry ∈ s.sticky clientIP, entry.nodeID ≠ "") :
    let after := (s.dispatch lookup outcome now clientIP clientRegion clientISP).2.sticky
    let client := locateClient lookup clientIP clientRegion clientISP
    ((s.store.getHealthyNodes now = [] ∨ ∃ node, BoundTo s now clientIP node) ∧
        after = s.sticky) ∨
      (s.store.getHealthyNodes now ≠ [] ∧ (¬ ∃ node, BoundTo s now clientIP node) ∧
        after = Function.update s.sticky clientIP
          ((freshSelection s outcome now client.1 client.2).head?.map fun first ↦
            ⟨first.nodeID, now, now⟩)) := by
  intro after client
  have hvisit := visit_eq_nil_iff outcome 0 (s.store.getHealthyNodes now)
  by_cases hempty : s.store.getHealthyNodes now = []
  · refine Or.inl ⟨Or.inl hempty, ?_⟩
    simp only [after, Scheduler.dispatch, if_pos (hvisit.mpr hempty)]
  · cases hsticky : s.stickyNode now clientIP with
    | some node =>
      refine Or.inl ⟨Or.inr ⟨node, stickyNode_eq_some_iff.mp hsticky⟩, ?_⟩
      simp only [after, Scheduler.dispatch, if_neg (mt hvisit.mp hempty), hsticky]
    | none =>
      refine Or.inr ⟨hempty, ?_, ?_⟩
      · rintro ⟨node, hbound⟩
        exact absurd (hsticky.symm.trans (stickyNode_eq_some_iff.mpr hbound))
          (Option.some_ne_none node).symm
      · have hrotated := sticky_rotated now hnamed
        simp only [after, Scheduler.dispatch, if_neg (mt hvisit.mp hempty), hsticky]
        unfold freshSelection
        cases p2cSelect outcome.draws
          (scoreNodes outcome (s.availableNodes outcome now) client.1 client.2) 3 with
        | nil => exact hrotated
        | cons first others =>
          dsimp only
          rw [sticky_stickySet now first.nodeID (by rw [hrotated, Function.update_self]), hrotated,
            Function.update_idem]
          rfl

theorem wellFormed_start : WellFormed .start where
  named := by
    intro node hnode
    exact absurd hnode List.not_mem_nil
  bound := by
    intro client entry hentry
    exact absurd hentry (Option.not_mem_none entry)

theorem wellFormed_step (st : State) (action : Action) (hst : WellFormed st) :
    WellFormed (step st action) := by
  cases action with
  | dispatch lookup outcome now clientIP clientRegion clientISP =>
    have hstore := store_dispatch st.scheduler lookup outcome now clientIP clientRegion clientISP
    refine ⟨?_, fun client entry hentry ↦ ?_⟩
    · change ∀ node ∈ (st.scheduler.dispatch lookup outcome now clientIP clientRegion
        clientISP).2.store.nodes.rows, node.nodeID ≠ ""
      rw [hstore]
      exact hst.named
    · change entry ∈ (st.scheduler.dispatch lookup outcome now clientIP clientRegion
        clientISP).2.sticky client at hentry
      rcases sticky_dispatch lookup outcome now clientIP clientRegion clientISP
          fun entry hentry ↦ (hst.bound clientIP entry hentry).1 with
        ⟨_, hsame⟩ | ⟨_, _, hnew⟩
      · rw [hsame] at hentry
        exact hst.bound client entry hentry
      · rw [hnew] at hentry
        by_cases hclient : client = clientIP
        · subst hclient
          rw [Function.update_self] at hentry
          obtain ⟨first, hfirst, rfl⟩ := Option.map_eq_some_iff.mp hentry
          have hhealthy := (freshSelection_spec st.scheduler outcome now _ _).1 first
            (List.mem_of_head? hfirst)
          have hstored := (List.mem_filter.mp hhealthy).1
          exact ⟨hst.named first hstored, le_refl now⟩
        · rw [Function.update_of_ne hclient] at hentry
          exact hst.bound client entry hentry
  | cleanup now =>
    refine ⟨hst.named, fun client entry hentry ↦ ?_⟩
    exact hst.bound client entry (Option.filter_eq_some_iff.mp hentry).1
  | change registry outlierMap now => exact ⟨registry.named, hst.bound⟩

/-! ### One binding -/

/-- A binding that is kept: it is in the table, or it is older than half an hour and the client has
none. -/
def Holds (client : String) (entry : StickyEntry) (st : State) : Prop :=
  st.scheduler.sticky client = some entry ∨
    (st.scheduler.sticky client = none ∧ entry.bindAt + rotateInterval < st.clock)

/-- In its half hour a binding to a usable node is used. -/
theorem boundTo_of_usable {s : Scheduler} {now : ℕ} {client : String} {entry : StickyEntry}
    (hentry : s.sticky client = some entry) (hnamed : entry.nodeID ≠ "")
    (hage : now ≤ entry.bindAt + rotateInterval) (husable : Usable s now entry.nodeID) :
    ∃ node, s.store.getNode entry.nodeID = some node ∧ BoundTo s now client node := by
  obtain ⟨node, hnode, hhealthy⟩ := (Option.any_eq_true _ _).mp husable.1
  exact ⟨node, hnode, entry, hentry, hnamed, Nat.sub_le_iff_le_add'.mpr hage, hnode, hhealthy,
    husable.2⟩

/-- A dispatch of a client that is not bound fails only without a selection. -/
theorem freshSelection_of_error {s : Scheduler} {lookup : String → String × String}
    {outcome : Outcome} {now : ℕ} {clientIP clientRegion clientISP : String}
    (hhealthy : s.store.getHealthyNodes now ≠ [])
    (hunbound : ¬ ∃ node, BoundTo s now clientIP node)
    (herror : (s.dispatch lookup outcome now clientIP clientRegion clientISP).1 =
      .error errNoAvailableNodes) :
    freshSelection s outcome now (locateClient lookup clientIP clientRegion clientISP).1
      (locateClient lookup clientIP clientRegion clientISP).2 = [] := by
  rcases dispatch_cases s lookup outcome now clientIP clientRegion clientISP with
    ⟨hempty, _⟩ | ⟨_, node, hbound, _⟩ | ⟨_, _, hresult⟩
  · exact absurd hempty hhealthy
  · exact absurd ⟨node, hbound⟩ hunbound
  · by_contra hsome
    rw [if_neg hsome, herror] at hresult
    cases hresult

theorem holds_step {client : String} {entry : StickyEntry} {st : State} {action : Action}
    (hst : WellFormed st) (hnamed : entry.nodeID ≠ "") (hseen : entry.bindAt ≤ entry.lastSeen)
    (hholds : Holds client entry st) (horder : InOrder st action)
    (hkeeps : Keeps client entry st action) : Holds client entry (step st action) := by
  cases action with
  | dispatch lookup outcome now clientIP clientRegion clientISP =>
    have htable := sticky_dispatch lookup outcome now clientIP clientRegion clientISP
      fun entry hentry ↦ (hst.bound clientIP entry hentry).1
    change st.clock ≤ now at horder
    unfold Holds
    change (st.scheduler.dispatch lookup outcome now clientIP clientRegion clientISP).2.sticky
        client = some entry ∨
      ((st.scheduler.dispatch lookup outcome now clientIP clientRegion clientISP).2.sticky
        client = none ∧ entry.bindAt + rotateInterval < now)
    rcases htable with ⟨_, hsame⟩ | ⟨hhealthy, hunbound, hnew⟩
    · rw [hsame]
      exact hholds.imp_right fun h ↦ ⟨h.1, lt_of_lt_of_le h.2 horder⟩
    · rw [hnew]
      by_cases hclient : clientIP = client
      · subst hclient
        have hkeeps := hkeeps rfl
        -- Unbound although there are healthy nodes: the binding is older than half an hour.
        have hage : entry.bindAt + rotateInterval < now := by
          by_contra hyoung
          rw [if_pos (not_lt.mp hyoung)] at hkeeps
          rcases hholds with hentry | ⟨_, hold⟩
          · obtain ⟨node, _, hbound⟩ := boundTo_of_usable hentry hnamed (not_lt.mp hyoung)
              (hkeeps.resolve_left hhealthy)
            exact hunbound ⟨node, hbound⟩
          · exact hyoung (lt_of_lt_of_le hold horder)
        rw [if_neg (not_le.mpr hage)] at hkeeps
        rw [freshSelection_of_error hhealthy hunbound hkeeps, Function.update_self]
        exact Or.inr ⟨rfl, hage⟩
      · rw [Function.update_of_ne (Ne.symm hclient)]
        exact hholds.imp_right fun h ↦ ⟨h.1, lt_of_lt_of_le h.2 horder⟩
  | cleanup now =>
    rcases hholds with hentry | ⟨hnone, hold⟩
    · have hkept : (cleanupEntries st.scheduler now).sticky client =
          (some entry).filter fun entry ↦ !decide (now - entry.lastSeen > stickyTTL) := by
        rw [← hentry]
        rfl
      by_cases hexpired : now - entry.lastSeen > stickyTTL
      · rw [Option.filter_some, decide_eq_true hexpired] at hkept
        refine Or.inr ⟨hkept, ?_⟩
        change now - entry.lastSeen > rotateInterval at hexpired
        change entry.bindAt + rotateInterval < now
        omega
      · rw [Option.filter_some, decide_eq_false hexpired] at hkept
        exact Or.inl hkept
    · refine Or.inr ⟨?_, lt_of_lt_of_le hold horder⟩
      change (st.scheduler.sticky client).filter _ = none
      rw [hnone]
      rfl
  | change registry outlierMap now =>
    exact hholds.imp_right fun h ↦ ⟨h.1, lt_of_lt_of_le h.2 horder⟩

/-! ### Every run -/

/-- How long a client stays on its node. Assumes: the clock does not go back, the client has a
binding after some actions, which began at `entry.bindAt`, and the actions that follow keep it. The
next dispatch of the client returns its node first within half an hour of the beginning, if the node
is usable and there is a healthy node; and behind it, if it returns endpoints, they are a fresh
selection, and the client is bound anew to the first of them. -/
theorem stickiness_run {past rest : List Action} {client : String} {entry : StickyEntry}
    (hordered : EachStepMeets step InOrder .start (past ++ rest))
    (hbound : (run step .start past).scheduler.sticky client = some entry)
    (hkept : EachStepMeets step (Keeps client entry) (run step .start past) rest)
    (lookup : String → String × String) (outcome : Outcome) {now : ℕ}
    (hnow : (run step .start (past ++ rest)).clock ≤ now) (clientRegion clientISP : String) :
    let s := (run step .start (past ++ rest)).scheduler
    let dispatched := s.dispatch lookup outcome now client clientRegion clientISP
    let located := locateClient lookup client clientRegion clientISP
    (now ≤ entry.bindAt + rotateInterval → s.store.getHealthyNodes now ≠ [] →
      Usable s now entry.nodeID →
        ∃ nodes, dispatched.1 = .ok nodes ∧
          (nodes.map NodeEndpoint.nodeID).head? = some entry.nodeID) ∧
    (entry.bindAt + rotateInterval < now → ∀ nodes, dispatched.1 = .ok nodes →
      nodes = endpoints (freshSelection s outcome now located.1 located.2) ∧
        ∃ first, (nodes.map NodeEndpoint.nodeID).head? = some first ∧
          dispatched.2.sticky client = some ⟨first, now, now⟩) := by
  intro s dispatched located
  have hpast : WellFormed (run step .start past) :=
    invariant_run_of_step step wellFormed_step wellFormed_start past
  obtain ⟨hnamed, hseen⟩ := hpast.bound client entry hbound
  obtain ⟨hst, hholds⟩ : WellFormed (run step .start (past ++ rest)) ∧
      Holds client entry (run step .start (past ++ rest)) := by
    rw [eachStepMeets_append] at hordered
    rw [run_append]
    refine invariant_run step
      (fun st action (h : WellFormed st ∧ Holds client entry st) hmeets ↦ ?_)
      ⟨hpast, Or.inl hbound⟩ ((eachStepMeets_and step).mpr ⟨hordered.2, hkept⟩)
    exact ⟨wellFormed_step st action h.1, holds_step h.1 hnamed hseen h.2 hmeets.1 hmeets.2⟩
  constructor
  · intro hage hhealthy husable
    have hentry : s.sticky client = some entry :=
      hholds.resolve_right fun h ↦ absurd (h.2.trans_le hnow) (not_lt.mpr hage)
    obtain ⟨node, hnode, hboundTo⟩ := boundTo_of_usable hentry hnamed hage husable
    rcases dispatch_cases s lookup outcome now client clientRegion clientISP with
      ⟨hempty, _⟩ | ⟨_, other, hother, hresult⟩ | ⟨_, hunbound, _⟩
    · exact absurd hempty hhealthy
    · refine ⟨_, hresult, ?_⟩
      rw [map_nodeID_endpoints, boundTo_unique hother hboundTo, List.map_cons, List.head?_cons,
        Table.key_of_find? hnode]
    · exact absurd ⟨node, hboundTo⟩ hunbound
  · intro hage nodes hok
    have hunbound : ¬ ∃ node, BoundTo s now client node := by
      rintro ⟨node, other, hother, _, hyoung, _⟩
      rcases hholds with hentry | ⟨hnone, _⟩
      · rw [Option.some_inj.mp (hother.symm.trans hentry)] at hyoung
        omega
      · exact absurd (hnone.symm.trans hother) (Option.some_ne_none other).symm
    rcases dispatch_cases s lookup outcome now client clientRegion clientISP with
      ⟨_, hresult⟩ | ⟨_, node, hboundTo, _⟩ | ⟨hhealthy, _, hresult⟩
    · exact (not_ok_of_error hresult hok).elim
    · exact absurd ⟨node, hboundTo⟩ hunbound
    · split_ifs at hresult with hnone
      · exact (not_ok_of_error hresult hok).elim
      · have hnodes := Except.ok.inj (hok.symm.trans hresult)
        refine ⟨hnodes, ?_⟩
        rcases sticky_dispatch lookup outcome now client clientRegion clientISP
            fun entry hentry ↦ (hst.bound client entry hentry).1 with
          ⟨hempty | hboundTo, _⟩ | ⟨_, _, hnew⟩
        · exact absurd hempty hhealthy
        · exact absurd hboundTo hunbound
        · obtain ⟨first, others, hselected⟩ := List.exists_cons_of_ne_nil hnone
          refine ⟨first.nodeID, ?_, ?_⟩
          · rw [hnodes, map_nodeID_endpoints, hselected]
            rfl
          · change (s.dispatch lookup outcome now client clientRegion clientISP).2.sticky
              client = _
            rw [hnew, Function.update_self, hselected]
            rfl

/-- A store with one healthy node. -/
def oneNode : Registry where
  store := admitNode 500 0 newMemoryStore "edge-1"
  named := by decide +kernel

/-- A dispatch in which maps are walked in the order of the tables. -/
def plainDispatch (now : ℕ) (client : String) : Action :=
  .dispatch (fun _ ↦ ("r", "i")) (visitingOutcome id List.Perm.refl) now client "" ""

/-- A witness of the stickiness: a client comes back twice, with another client and a turn of
`Cleanup` between. -/
theorem stickiness_run_oneNode :
    let past := [.change oneNode (fun _ ↦ none) 0, plainDispatch 0 "client"]
    let rest := [plainDispatch 1 "client", plainDispatch 2 "other", .cleanup 3]
    ∃ nodes, ((run step .start (past ++ rest)).scheduler.dispatch (fun _ ↦ ("r", "i"))
      (visitingOutcome id List.Perm.refl) 4 "client" "" "").1 = .ok nodes ∧
        (nodes.map NodeEndpoint.nodeID).head? = some "edge-1" := by
  intro past rest
  have hbound : (run step .start past).scheduler.sticky "client" = some ⟨"edge-1", 0, 0⟩ := by
    decide +kernel
  have hordered : EachStepMeets step InOrder .start (past ++ rest) :=
    ⟨le_refl 0, le_refl 0, Nat.zero_le 1, Nat.le_succ 1, Nat.le_succ 2, trivial⟩
  have husable : Usable (run step .start past).scheduler 1 "edge-1" := by
    refine ⟨?_, ?_⟩ <;> decide +kernel
  have hkept : EachStepMeets step (Keeps "client" ⟨"edge-1", 0, 0⟩) (run step .start past)
      rest := by
    refine ⟨fun _ ↦ ?_, fun hother ↦ ?_, trivial, trivial⟩
    · rw [if_pos (by decide)]
      exact Or.inr husable
    · exact absurd hother (by decide)
  have hhealthy : (run step .start (past ++ rest)).scheduler.store.getHealthyNodes 4 ≠ [] := by
    decide +kernel
  exact (stickiness_run hordered hbound hkept (fun _ ↦ ("r", "i"))
    (visitingOutcome id List.Perm.refl) (Nat.le_succ 3) "" "").1 (by decide) hhealthy
      (by refine ⟨?_, ?_⟩ <;> decide +kernel)

end LiveCDN.Controller.Stickiness
