import LiveCDN.Controller.HandlerEffects

/-!
# Who may do what

`FailClosed` says that a request has a protected effect only when it presents a configured token,
and that the key of a stream is also sent for a viewer token issued for that stream. It holds of
every request exactly when the admin token is set, or the request neither stops a live stream
without an access token nor sends `Bearer ` and nothing behind it to an admin route
(`failClosed_run_iff`, `failClosed_counterexample`). The tokens of the configuration never change
(`access_run`), and every viewer token that validates was issued for its stream
(`tokensIssued_run`).
-/

set_option autoImplicit false
set_option relaxedAutoImplicit false

namespace LiveCDN.Controller.Authorization

open Library.KeyedTable Library.GuardedRun HttpServer Handlers AdminHandlers ServerRun
  HandlerEffects

/-! ### The law -/

/-- The protected effects of a request come with the credentials for them. -/
structure FailClosed (st : State) (request : Request) (served : Server × Reply) : Prop where
  streams : TouchesStreams st.server served → Presents request st.server.cfg.adminToken
  admin : ∀ route, request.route = .admin route → served.2 ≠ .error 401 "unauthorized" →
    Presents request st.server.cfg.adminToken
  agents : Enrolls st.server served → Presents request st.server.cfg.regToken
  keys : ∀ key ∈ releases served.2, (∃ token ∈ credentials request, (token, key) ∈ st.issued) ∨
    Presents request st.server.cfg.regToken ∨ Presents request st.server.cfg.adminToken

/-- A request is served fail-closed. The background tasks serve no requests. -/
def ServedFailClosed (services : Services) (st : State) : Action → Prop
  | .request request chance => FailClosed st request (serve services st.server chance request)
  | _ => True

/-- The admin token is set, or the request sends no empty token to an admin route and stops no live
stream without an access token. -/
def Guarded (st : State) : Action → Prop
  | .request request _ => st.server.cfg.adminToken ≠ "" ∨
      (∀ route, request.route = .admin route → request.header "Authorization" ≠ "Bearer ") ∧
      (request.route = .streamStop → request.query "access_token" = "" →
        isLive st.server (request.query "stream_key") ≠ some true)
  | _ => True

/-! ### Tokens -/

variable {server : Server} {chance : Chance} {request : Request} {served : Server × Reply}

/-- A viewer token that validates was issued for the stream. -/
def TokensIssued (st : State) : Prop :=
  ∀ token key, st.server.mem.validateToken token = some key → (token, key) ∈ st.issued

theorem issued_after_of_not_starts {st : State} (hstarts : starts served.2 = false) :
    (st.after served).issued = st.issued := by
  unfold State.after
  split
  · next response hreply =>
    rw [hreply] at hstarts
    exact absurd hstarts.symm Bool.false_ne_true
  · rfl
  · rfl

theorem issued_after_of_started {st : State} {response : StreamStartResponse}
    (hreply : served.2 = .ok (.started response)) :
    (st.after served).issued = st.issued ++ [(response.viewerToken, response.streamKey)] := by
  simp [State.after, hreply]

/-- Each step keeps the viewer tokens issued. -/
theorem tokensIssued_step (services : Services) {st : State} (hissued : TokensIssued st)
    (action : Action) : TokensIssued (step services st action) := by
  cases action with
  | request request chance =>
    intro token key hvalid
    have hfound : ((serve services st.server chance request).1.tokens.find? token).map Prod.snd =
        some key := by
      rw [← hvalid, step, server_after]
      rfl
    rcases tokens_of_handling (handling_serve services st.server chance request) with
      ⟨hsame, hstarts⟩ | ⟨response, hreply, htokens⟩
    · rw [step, issued_after_of_not_starts hstarts]
      rw [hsame] at hfound
      exact hissued token key hfound
    · rw [step, issued_after_of_started hreply, List.mem_append, List.mem_singleton]
      rw [htokens, Table.find?_put _ rfl] at hfound
      split_ifs at hfound with hnew
      · right
        rw [hnew, ← Option.some_inj.mp hfound]
      · exact Or.inl (hissued token key hfound)
  | cleanup now => exact hissued
  | cleanupSticky now => exact hissued
  | rotateKeys outcome => exact hissued
  | tickLatency now =>
    intro token key hvalid
    apply hissued token key
    rw [← hvalid]
    simp only [step, tickLatency]
    split <;> rfl

theorem tokensIssued_initial (cfg : Config) : TokensIssued (.initial cfg) := by
  intro token key hvalid
  have hnone : (State.initial cfg).server.mem.validateToken token = none := rfl
  exact absurd (hvalid.symm.trans hnone) (Option.some_ne_none key)

/-- After every run, every viewer token that validates was issued for its stream. -/
theorem tokensIssued_run (services : Services) (cfg : Config) (actions : List Action) :
    TokensIssued (run (step services) (.initial cfg) actions) :=
  invariant_run_of_step (step services)
    (fun st action (hissued : TokensIssued st) ↦ tokensIssued_step services hissued action)
    (tokensIssued_initial cfg) actions

/-- No step changes a configured token. -/
theorem access_step (services : Services) (st : State) (action : Action) :
    (step services st action).server.cfg.regToken = st.server.cfg.regToken ∧
      (step services st action).server.cfg.adminToken = st.server.cfg.adminToken := by
  cases action with
  | request request chance =>
    rw [step, server_after]
    exact access_of_handling (handling_serve services st.server chance request)
  | cleanup now => exact ⟨rfl, rfl⟩
  | cleanupSticky now => exact ⟨rfl, rfl⟩
  | rotateKeys outcome => exact ⟨rfl, rfl⟩
  | tickLatency now =>
    simp only [step, tickLatency]
    split <;> exact ⟨rfl, rfl⟩

/-- After every run, the configured tokens are those of the configuration. -/
theorem access_run (services : Services) (cfg : Config) (actions : List Action) :
    (run (step services) (.initial cfg) actions).server.cfg.regToken = cfg.regToken ∧
      (run (step services) (.initial cfg) actions).server.cfg.adminToken = cfg.adminToken :=
  invariant_run_of_step (step services)
    (fun st action (haccess : st.server.cfg.regToken = cfg.regToken ∧
        st.server.cfg.adminToken = cfg.adminToken) ↦
      ⟨(access_step services st action).1.trans haccess.1,
        (access_step services st action).2.trans haccess.2⟩) ⟨rfl, rfl⟩ actions

/-! ### Every request -/

/-- A request without a protected effect is served fail-closed. Assumes: it is not one of an
admin. -/
theorem failClosed_of_quiet {st : State} (hroute : ∀ route, request.route ≠ .admin route)
    (hquiet : Quiet st.server served) : FailClosed st request served where
  streams := fun htouches ↦
    absurd htouches (not_touchesStreams hquiet.streams hquiet.plain.starts)
  admin := fun route hadmin ↦ absurd hadmin (hroute route)
  agents := fun henrolls ↦ absurd henrolls (not_enrolls hquiet.nodes hquiet.plain.acknowledges)
  keys := fun key hkey ↦ by
    rw [hquiet.plain.releases] at hkey
    exact absurd hkey List.not_mem_nil

/-- A guarded request is served fail-closed. Assumes: the viewer tokens were issued. -/
theorem failClosed_of_guarded {st : State} (hissued : TokensIssued st)
    (hguarded : Guarded st (.request request chance))
    (hhandling : Handling st.server chance request served) : FailClosed st request served := by
  cases hhandling with
  | quiet hroute hquiet => exact failClosed_of_quiet hroute hquiet
  | enrolled hroute hpresents hsame hstreams hstarts hreleases =>
    refine ⟨fun htouches ↦ absurd htouches (not_touchesStreams hstreams hstarts),
      fun route hadmin ↦ absurd hadmin (hroute route), fun _ ↦ hpresents, fun key hkey ↦ ?_⟩
    rw [hreleases] at hkey
    exact absurd hkey List.not_mem_nil
  | released hroute hrest hstarts hacknowledges hkeys =>
    refine ⟨fun htouches ↦ absurd htouches (not_touchesStreams hrest.streams hstarts),
      fun route hadmin ↦ absurd hadmin (hroute route),
      fun henrolls ↦ absurd henrolls (not_enrolls hrest.nodes hacknowledges), fun key hkey ↦ ?_⟩
    rcases hkeys key hkey with ⟨token, hpresented, hvalid⟩ | hpresents
    · exact Or.inl ⟨token, hpresented, hissued token key hvalid⟩
    · exact Or.inr (Or.inl hpresents)
  | started hroute hpresents req hserved =>
    rw [hserved]
    rcases startStream_cases st.server chance req with
      hquiet | ⟨response, hreply, -, -, hscheduler⟩
    · exact failClosed_of_quiet hroute hquiet
    · refine ⟨fun _ ↦ hpresents, fun route hadmin ↦ absurd hadmin (hroute route),
        fun henrolls ↦ absurd henrolls (not_enrolls (fun id hnone ↦ ?_) ?_), fun key hkey ↦ ?_⟩
      · rw [hscheduler]
        exact hnone
      · rw [hreply]
        rfl
      · rw [hreply] at hkey
        exact absurd hkey List.not_mem_nil
  | stopped hroute htoken hserved =>
    obtain ⟨-, -, hscheduler, hplain⟩ :=
      stopStream_spec st.server (request.query "stream_key")
    rw [hserved]
    refine ⟨fun htouches ↦ ⟨fun hempty ↦ ?_, ?_⟩, fun route hadmin ↦ ?_,
      fun henrolls ↦ absurd henrolls (not_enrolls (fun id hnone ↦ ?_) hplain.acknowledges),
      fun key hkey ↦ ?_⟩
    · rcases hguarded with hset | ⟨-, hstop⟩
      · exact hset hempty
      · exact hstop hroute (htoken.trans hempty) ((touchesStreams_stopStream_iff _).mp htouches)
    · rw [← htoken]
      simp [credentials]
    · exact absurd (hroute.symm.trans hadmin) (by simp)
    · rw [hscheduler]
      exact hnone
    · rw [hplain.releases] at hkey
      exact absurd hkey List.not_mem_nil
  | admitted route hroute hauth hspec =>
    have hpresents : Presents request st.server.cfg.adminToken := by
      refine ⟨fun hempty ↦ ?_, mem_credentials_of_authAdmin hauth⟩
      rcases hguarded with hset | ⟨hheader, -⟩
      · exact hset hempty
      · apply hheader route hroute
        rw [of_decide_eq_true hauth, hempty]
        decide
    exact ⟨fun _ ↦ hpresents, fun _ _ _ ↦ hpresents,
      fun henrolls ↦ absurd henrolls (not_enrolls hspec.nodes hspec.acknowledges),
      fun _ _ ↦ Or.inr (Or.inr hpresents)⟩
  | unauthorized hauth hserved =>
    have hquiet := quiet_refused st.server (plain_error 401 "unauthorized")
    rw [hserved]
    refine ⟨fun htouches ↦ absurd htouches (not_touchesStreams rfl rfl),
      fun route _ hreply ↦ absurd rfl hreply,
      fun henrolls ↦ absurd henrolls (not_enrolls hquiet.nodes rfl), fun key hkey ↦ ?_⟩
    exact absurd hkey List.not_mem_nil

/-- A request that is served fail-closed is guarded. -/
theorem guarded_of_failClosed (services : Services) {st : State}
    (hclosed : FailClosed st request (serve services st.server chance request)) :
    Guarded st (.request request chance) := by
  by_cases hempty : st.server.cfg.adminToken = ""
  · have hnone : ¬ Presents request st.server.cfg.adminToken := fun hpresents ↦
      hpresents.1 hempty
    refine Or.inr ⟨fun route hroute hheader ↦ hnone (hclosed.admin route hroute ?_),
      fun hroute hquery hlive ↦ hnone (hclosed.streams ?_)⟩
    · have hauth : authAdmin st.server.cfg request = true := by
        rw [authAdmin, hheader, hempty]
        decide
      rw [serve, hroute]
      dsimp only
      rw [if_pos hauth]
      exact (adminSpec_handleAdmin chance route).authorized
    · have hstop : serve services st.server chance request =
          stopStream st.server (request.query "stream_key") := by
        rw [serve, hroute]
        dsimp only
        unfold handleStreamStop
        dsimp only
        rw [if_neg (by rw [hquery, hempty]; exact not_not.mpr rfl)]
      rw [hstop]
      exact (touchesStreams_stopStream_iff _).mpr hlive
  · exact Or.inl hempty

/-- In every run of a server with any configuration, every request is served fail-closed exactly
when every request is guarded. -/
theorem failClosed_run_iff (services : Services) (cfg : Config) (actions : List Action) :
    EachStepMeets (step services) (ServedFailClosed services) (.initial cfg) actions ↔
      EachStepMeets (step services) Guarded (.initial cfg) actions := by
  apply eachStepMeets_iff_of_invariant (step services)
    (fun st action (hissued : TokensIssued st) ↦ tokensIssued_step services hissued action)
  · intro st action hissued
    cases action with
    | request request chance =>
      exact ⟨guarded_of_failClosed services, fun hguarded ↦
        failClosed_of_guarded hissued hguarded (handling_serve services st.server chance request)⟩
    | cleanup now => exact Iff.rfl
    | cleanupSticky now => exact Iff.rfl
    | rotateKeys outcome => exact Iff.rfl
    | tickLatency now => exact Iff.rfl
  · exact tokensIssued_initial cfg

/-- A configuration without an admin token. -/
def openConfig : Config := { plainConfig with adminToken := "" }

/-- A stream is started on an admin route, with nothing behind `Bearer `. -/
def openStart : Action :=
  .request ⟨.admin (.streamStart (some ⟨"title", "-", ""⟩)),
    fun name ↦ if name = "Authorization" then "Bearer " else "", fun _ ↦ ""⟩ plainChance

/-- The stream is stopped without an access token. -/
def openStop : Action :=
  .request ⟨.streamStop, fun _ ↦ "",
    fun name ↦ if name = "stream_key" then plainChance.streamKey else ""⟩ plainChance

/-- Both requests are served, and neither presents a token. -/
theorem failClosed_counterexample :
    ¬ ServedFailClosed plainServices (.initial openConfig) openStart ∧
      ¬ ServedFailClosed plainServices (step plainServices (.initial openConfig) openStart)
        openStop := by
  constructor
  · intro hclosed
    have hserved := hclosed.admin _ rfl (by decide +kernel)
    exact hserved.1 rfl
  · intro hclosed
    have hstopped := hclosed.streams (Or.inl ⟨plainChance.streamKey, by decide +kernel⟩)
    apply hstopped.1
    decide +kernel

end LiveCDN.Controller.Authorization
