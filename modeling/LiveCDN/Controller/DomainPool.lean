import LiveCDN.Controller.AdminHandlers
import LiveCDN.Library.GuardedRun

/-!
# The active domain of the pool

The domain pool handlers of `controller/server.go`. `handleSwitchDomain` answers with the domain it
switches to, but it writes the index into a pool that `getDomainPool` has made for this request, and
`handleListDomains` makes another one whose index is zero. So the list always reports the first
domain of the pool. Nothing is lost as long as each switch names that domain: then every switch that
was not undone by a removal was to the domain that is still the first (`KeepsFirst`), which makes
the condition of `activeDomain_runs_iff` exact.
-/

set_option autoImplicit false
set_option relaxedAutoImplicit false

namespace LiveCDN.Controller.DomainPool

open Library.GuardedRun HttpServer AdminHandlers

/-- A request that can change the pool. -/
inductive DomainRequest
  | add (body : Option String)
  | remove (domain : String)
  | switch (body : Option String)
  deriving DecidableEq, Repr

/-- The server after a request. -/
def serve (server : Server) : DomainRequest → Server
  | .add body => (handleAddDomain server body).1
  | .remove domain => (handleRemoveDomain server domain).1
  | .switch body => (handleSwitchDomain server body).1

/-! ### The domain last switched to -/

/-- One more request behind the switches so far, the latest first: a switch is added, and a removal
undoes the switches to its domain. -/
def record (switches : List String) : DomainRequest → List String
  | .add _ => switches
  | .remove domain => switches.filter fun switched ↦ decide (switched ≠ domain)
  | .switch body =>
    match shouldBindJSON isGiven body with
    | none => switches
    | some domain => domain :: switches

/-- The domains that were switched to and not removed since, the latest first. -/
def switchesLeft (requests : List DomainRequest) : List String :=
  requests.foldl record []

/-- The domain of the latest switch that is left, the first of the pool if there is none, and empty
if there is no domain either. -/
def activeDomain (requests : List DomainRequest) (pool : List String) : String :=
  ((switchesLeft requests).head?.or pool.head?).getD ""

/-- `handleListDomains` reports the active domain. -/
def ReportsActive (requests : List DomainRequest) (server : Server) : Prop :=
  ∃ index, handleListDomains server = .ok (.domainPool server.cfg.domainPool
    (activeDomain requests server.cfg.domainPool) index)

/-- A switch names the first domain of the pool, or the pool is empty. -/
def SwitchesToFirst (server : Server) : DomainRequest → Prop
  | .switch body => ∀ domain ∈ shouldBindJSON isGiven body,
      ∀ first ∈ server.cfg.domainPool.head?, domain = first
  | _ => True

/-- Every switch that is left was to the first domain of the pool. -/
def KeepsFirst (requests : List DomainRequest) (server : Server) : Prop :=
  ∀ domain ∈ switchesLeft requests, server.cfg.domainPool.head? = some domain

theorem switchesLeft_concat (requests : List DomainRequest) (request : DomainRequest) :
    switchesLeft (requests ++ [request]) = record (switchesLeft requests) request := by
  rw [switchesLeft, List.foldl_append]
  rfl

/-! ### The pool after a request -/

/-- The pool after a switch. -/
theorem domainPool_switch {server : Server} {body : Option String} {domain : String}
    (hbody : shouldBindJSON isGiven body = some domain) :
    (serve server (.switch body)).cfg.domainPool =
      if domain ∈ server.cfg.domainPool then server.cfg.domainPool
      else server.cfg.domainPool ++ [domain] := by
  simp only [serve, handleSwitchDomain, hbody]
  cases hfound : server.cfg.domainPool.findIdx? fun d ↦ decide (d = domain) with
  | some found =>
    have hmem : domain ∈ server.cfg.domainPool := by
      obtain ⟨hlt, htest, _⟩ := List.findIdx?_eq_some_iff_getElem.mp hfound
      exact of_decide_eq_true htest ▸ List.getElem_mem hlt
    rw [if_pos hmem]
  | none =>
    have hmem : domain ∉ server.cfg.domainPool := fun hmem ↦ by
      simpa using List.findIdx?_eq_none_iff.mp hfound domain hmem
    rw [if_neg hmem]
    rfl

/-- A switch leaves the first domain where there is one, and makes its own the first otherwise. -/
theorem head?_switch {server : Server} {body : Option String} {domain : String}
    (hbody : shouldBindJSON isGiven body = some domain) :
    (serve server (.switch body)).cfg.domainPool.head? =
      server.cfg.domainPool.head?.or (some domain) := by
  rw [domainPool_switch hbody]
  cases server.cfg.domainPool with
  | nil => rfl
  | cons first rest => split_ifs <;> rfl

/-- A request without a domain changes nothing. -/
theorem serve_switch_of_none {server : Server} {body : Option String}
    (hbody : shouldBindJSON isGiven body = none) : serve server (.switch body) = server := by
  simp only [serve, handleSwitchDomain, hbody]

/-- An addition leaves the first domain where there is one. -/
theorem head?_add {server : Server} {body : Option String} {first : String}
    (hfirst : server.cfg.domainPool.head? = some first) :
    (serve server (.add body)).cfg.domainPool.head? = some first := by
  simp only [serve, handleAddDomain]
  cases shouldBindJSON isGiven body with
  | none => exact hfirst
  | some domain =>
    change (server.cfg.domainPool ++ [domain]).head? = some first
    rw [List.head?_append, hfirst]
    rfl

/-- A removal leaves the first domain unless it is the one removed. -/
theorem head?_remove {server : Server} {domain first : String}
    (hfirst : server.cfg.domainPool.head? = some first) (hother : first ≠ domain) :
    (serve server (.remove domain)).cfg.domainPool.head? = some first := by
  change (server.cfg.domainPool.filter fun d ↦ decide (d ≠ domain)).head? = some first
  obtain ⟨rest, hpool⟩ := List.head?_eq_some_iff.mp hfirst
  rw [hpool, List.filter_cons_of_pos (by simpa using hother), List.head?_cons]

/-! ### Every run -/

/-- The list reports the first domain of the pool. -/
theorem reportsActive_iff (requests : List DomainRequest) (server : Server) :
    ReportsActive requests server ↔
      activeDomain requests server.cfg.domainPool = server.cfg.domainPool.head?.getD "" := by
  simp only [ReportsActive, handleListDomains, Reply.ok.injEq, Body.domainPool.injEq, true_and]
  exact ⟨fun ⟨_, hactive, _⟩ ↦ hactive.symm, fun hactive ↦ ⟨0, hactive.symm, rfl⟩⟩

/-- While every switch that is left was to the first domain, the list reports the active one. -/
theorem reportsActive_of_keepsFirst {requests : List DomainRequest} {server : Server}
    (hkept : KeepsFirst requests server) : ReportsActive requests server := by
  rw [reportsActive_iff, activeDomain]
  cases hleft : switchesLeft requests with
  | nil => rfl
  | cons domain rest =>
    rw [hkept domain (by rw [hleft]; exact List.mem_cons_self)]
    rfl

/-- A request that switches to the first domain, if to any, keeps this. -/
theorem keepsFirst_serve {requests : List DomainRequest} {server : Server}
    {request : DomainRequest} (hkept : KeepsFirst requests server)
    (hfirst : SwitchesToFirst server request) :
    KeepsFirst (requests ++ [request]) (serve server request) := by
  intro left hleft
  rw [switchesLeft_concat] at hleft
  cases request with
  | add body => exact head?_add (hkept left hleft)
  | remove domain =>
    obtain ⟨hmem, hother⟩ := List.mem_filter.mp hleft
    exact head?_remove (hkept left hmem) (of_decide_eq_true hother)
  | switch body =>
    cases hbody : shouldBindJSON isGiven body with
    | none =>
      rw [serve_switch_of_none hbody]
      simp only [record, hbody] at hleft
      exact hkept left hleft
    | some domain =>
      rw [head?_switch hbody]
      simp only [record, hbody] at hleft
      cases hpool : server.cfg.domainPool.head? with
      | none =>
        rcases List.mem_cons.mp hleft with rfl | hleft
        · rfl
        · exact absurd ((hkept left hleft).symm.trans hpool) (Option.some_ne_none left)
      | some first =>
        rcases List.mem_cons.mp hleft with rfl | hleft
        · rw [hfirst left hbody first hpool]
          rfl
        · rw [← hpool, hkept left hleft]
          rfl

/-- A switch that is reported as the active domain named the first domain. -/
theorem switchesToFirst_of_reportsActive {requests : List DomainRequest} {server : Server}
    {request : DomainRequest}
    (hreports : ReportsActive (requests ++ [request]) (serve server request)) :
    SwitchesToFirst server request := by
  cases request with
  | add body => exact trivial
  | remove domain => exact trivial
  | switch body =>
    intro domain hbody first hfirst
    rw [reportsActive_iff, activeDomain, switchesLeft_concat, head?_switch hbody, hfirst]
      at hreports
    simpa only [record, Option.mem_def.mp hbody, List.head?_cons, Option.some_or, Option.getD_some]
      using hreports

/-- The list reports the active domain after every part of a sequence of requests exactly when each
switch names the domain that is the first of the pool, or the pool is empty. -/
theorem activeDomain_runs_iff (server : Server) (requests : List DomainRequest) :
    (∀ taken, taken <+: requests → ReportsActive taken (run serve server taken)) ↔
      EachStepMeets serve SwitchesToFirst server requests := by
  suffices hbehind : ∀ earlier server, KeepsFirst earlier server →
      ((∀ taken, taken <+: requests → ReportsActive (earlier ++ taken) (run serve server taken)) ↔
        EachStepMeets serve SwitchesToFirst server requests) from
    hbehind [] server fun _ hleft ↦ absurd hleft List.not_mem_nil
  induction requests with
  | nil =>
    intro earlier server hkept
    refine iff_of_true (fun taken htaken ↦ ?_) trivial
    rw [List.prefix_nil.mp htaken, List.append_nil]
    exact reportsActive_of_keepsFirst hkept
  | cons request requests ih =>
    intro earlier server hkept
    constructor
    · intro hall
      have hfirst : SwitchesToFirst server request :=
        switchesToFirst_of_reportsActive
          (hall [request] (List.cons_prefix_cons.mpr ⟨rfl, List.nil_prefix⟩))
      refine ⟨hfirst, (ih _ _ (keepsFirst_serve hkept hfirst)).mp fun taken htaken ↦ ?_⟩
      rw [List.append_assoc]
      exact hall (request :: taken) (List.cons_prefix_cons.mpr ⟨rfl, htaken⟩)
    · rintro ⟨hfirst, hrest⟩ taken htaken
      cases taken with
      | nil =>
        rw [List.append_nil]
        exact reportsActive_of_keepsFirst hkept
      | cons other taken =>
        obtain ⟨rfl, hprefix⟩ := List.cons_prefix_cons.mp htaken
        rw [← List.singleton_append, ← List.append_assoc]
        exact (ih _ _ (keepsFirst_serve hkept hfirst)).mpr hrest taken hprefix

/-- A pool of two domains, and a switch to the second one. -/
theorem activeDomain_runs_counterexample :
    ¬ ReportsActive [.switch (some "b.example")]
      (run serve (newServer ⟨"", "", "", "", "", "", 0, 0, ["a.example", "b.example"]⟩)
        [.switch (some "b.example")]) := by
  rw [reportsActive_iff]
  decide +kernel

end LiveCDN.Controller.DomainPool
