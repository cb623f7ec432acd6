import LiveCDN.System.Cascade

/-!
# Migration in the cascade

What becomes of an upstream that the controller has removed, and of the advice to migrate
(`checkMigrationAdvice` of `controller/mesh.go`), in the system of `Cascade`.

An agent reports its upstream with each heartbeat. When that upstream is not stored any more, the
reply advises to leave it as offline, which an agent does at once (`update_mesh_map`), and it offers
other nodes only. So once the agent has handled that reply it neither pulls from the removed node
nor can switch to it, until the node registers again (`leaves_removed`). The other advice, that the
upstream is overloaded, changes no step of any agent (`advice_inert`).
-/

set_option autoImplicit false
set_option relaxedAutoImplicit false

namespace LiveCDN.System.Migration

open Library.GuardedRun Controller.NodeStore Cascade
open Library.Binary64 (nearest)
open Agent.CascadeSelector (Selector Env MeshMapResponse MigrationAdvice)

/-! ### An upstream that was removed -/

variable {agent : Process} {upstreamID : String}

variable {net : Network} {id : String} {ahead : ℕ}

/-- A reply without advice other than to leave an upstream as offline. -/
def withoutOverload (resp : MeshMapResponse) : MeshMapResponse :=
  { resp with
    migrationAdvice := resp.migrationAdvice.filter fun advice ↦
      decide (advice.reason = "upstream_offline") }

/-- A selector whose last reply is kept without that advice. -/
def selectorWithoutOverload (selector : Selector) : Selector :=
  { selector with lastMeshResponse := selector.lastMeshResponse.map withoutOverload }

/-- An agent whose replies are without that advice. -/
def processWithoutOverload (agent : Process) : Process where
  config := agent.config
  selector := selectorWithoutOverload agent.selector
  inbox := agent.inbox.map withoutOverload

/-- The network whose replies are without that advice. -/
def networkWithoutOverload (net : Network) : Network :=
  { net with agents := fun id ↦ (net.agents id).map processWithoutOverload }

/-- `handleHeartbeat` of a controller that does not give that advice. -/
def quietHeartbeat (net : Network) (id : String) (agent : Process) (req : HeartbeatRequest)
    (outcome : Controller.Mesh.MeshOutcome) : Network :=
  match net.store.updateHeartbeat net.now (heartbeat id agent req) with
  | .error _ => net
  | .ok store =>
    match Controller.Mesh.buildMeshMapResponse nearest store outcome net.now id with
    | none => { net with store := store }
    | some response => { net with store := store }.withAgent id
        { agent with inbox := agent.inbox ++ [withoutOverload (receivedResponse response)] }

/-- The network after a step of a controller that does not give that advice. -/
def quietStep (net : Network) : Action → Network
  | .heartbeat id req outcome => (net.agents id).elim net fun agent ↦
      quietHeartbeat net id agent req outcome
  | action => step net action

/-! #### What an agent does without the advice -/

theorem upstreamOffline_withoutOverload (resp : MeshMapResponse) :
    Selector.upstreamOffline (withoutOverload resp) = Selector.upstreamOffline resp := by
  unfold Selector.upstreamOffline withoutOverload
  dsimp only
  rw [Option.any_filter]
  congr 1
  funext advice
  cases advice.shouldSwitch <;> simp

/-- A switch is the same without the advice. -/
theorem applyPathSwitch_withoutOverload (selector : Selector) (env : Env) (now : ℕ)
    (newPath : Option Agent.CascadeSelector.CascadePath) :
    (selector.applyPathSwitch env now newPath).map selectorWithoutOverload =
      (selectorWithoutOverload selector).applyPathSwitch env now newPath := by
  unfold Selector.applyPathSwitch
  split_ifs <;> rfl

/-- An agent handles a reply in the same way without the advice. -/
theorem updateMeshMap_withoutOverload (selector : Selector) (env : Env) (now : ℕ)
    (resp : MeshMapResponse) :
    (selector.updateMeshMap env now resp).map selectorWithoutOverload =
      (selectorWithoutOverload selector).updateMeshMap env now (withoutOverload resp) := by
  have hkept : ∀ switched : Option Selector,
      (switched.map fun s ↦ { s with lastMeshResponse := some resp }).map selectorWithoutOverload =
        (switched.map selectorWithoutOverload).map fun s ↦
          { s with lastMeshResponse := some (withoutOverload resp) } := by
    rintro (_ | switched) <;> rfl
  unfold Selector.updateMeshMap
  dsimp only
  rw [upstreamOffline_withoutOverload, hkept]
  congr 1
  by_cases hoffline : Selector.upstreamOffline resp = true
  · rw [if_pos hoffline, if_pos hoffline]
    exact applyPathSwitch_withoutOverload _ env now _
  · rw [if_neg hoffline, if_neg hoffline]
    -- the advice is read nowhere else
    have hdecision : ∀ newPath, ((selectorWithoutOverload selector).withResponse
        (withoutOverload resp)).checkHysteresis env.rd now newPath (withoutOverload resp) =
          (selector.withResponse resp).checkHysteresis env.rd now newPath resp := fun newPath ↦ rfl
    have hselected : ((selectorWithoutOverload selector).withResponse
        (withoutOverload resp)).selectFromCandidates env now
          (withoutOverload resp).candidateUpstreams =
        (selector.withResponse resp).selectFromCandidates env now resp.candidateUpstreams :=
      rfl
    rw [hselected, hdecision]
    split_ifs
    · exact applyPathSwitch_withoutOverload _ env now _
    · rfl

/-- An emergency switch is the same without the advice. -/
theorem emergencySwitch_withoutOverload (selector : Selector) (env : Env) (now : ℕ) :
    (selector.emergencySwitch env now).map selectorWithoutOverload =
      (selectorWithoutOverload selector).emergencySwitch env now := by
  have hreset : ∀ switched : Option Selector,
      (switched.map fun s ↦ { s with upstreamConsecutiveFails := 0 }).map
          selectorWithoutOverload =
        (switched.map selectorWithoutOverload).map fun s ↦
          { s with upstreamConsecutiveFails := 0 } := by
    rintro (_ | switched) <;> rfl
  have hlast : (selectorWithoutOverload selector).lastMeshResponse =
      selector.lastMeshResponse.map withoutOverload := rfl
  unfold Selector.emergencySwitch
  rw [hreset, hlast]
  congr 1
  cases hresp : selector.lastMeshResponse with
  | none => simp [selectorWithoutOverload, hresp]
  | some resp => exact applyPathSwitch_withoutOverload selector env now _

/-! #### Runs -/

theorem networkWithoutOverload_update (net : Network) (id : String) (agent : Option Process) :
    networkWithoutOverload { net with agents := Function.update net.agents id agent } =
      { networkWithoutOverload net with
        agents := Function.update (networkWithoutOverload net).agents id
          (agent.map processWithoutOverload) } := by
  have hagents : (fun other ↦ (Function.update net.agents id agent other).map
      processWithoutOverload) = Function.update
        (fun other ↦ (net.agents other).map processWithoutOverload) id
        (agent.map processWithoutOverload) := by
    funext other
    by_cases hother : other = id
    · rw [hother, Function.update_self, Function.update_self]
    · rw [Function.update_of_ne hother, Function.update_of_ne hother]
  exact congrArg (Network.mk net.store net.now) hagents

theorem networkWithoutOverload_withAgent (net : Network) (id : String) (agent : Process) :
    networkWithoutOverload (net.withAgent id agent) =
      (networkWithoutOverload net).withAgent id (processWithoutOverload agent) :=
  networkWithoutOverload_update net id (some agent)

theorem networkWithoutOverload_afterCall (net : Network) (id : String) (agent : Process)
    (result : Option Selector) :
    networkWithoutOverload (net.afterCall id agent result) =
      (networkWithoutOverload net).afterCall id (processWithoutOverload agent)
        (result.map selectorWithoutOverload) := by
  unfold Network.afterCall
  rw [networkWithoutOverload_update, Option.map_map, Option.map_map]
  rfl

theorem agents_networkWithoutOverload (net : Network) (id : String) :
    (networkWithoutOverload net).agents id = (net.agents id).map processWithoutOverload := rfl

/-- A step leaves everything but the advice as a step of a controller that does not give it. -/
theorem networkWithoutOverload_step (net : Network) (action : Action) :
    networkWithoutOverload (step net action) = quietStep (networkWithoutOverload net) action := by
  cases action with
  | start id config => exact networkWithoutOverload_withAgent net id _
  | register id req =>
    simp only [step, quietStep, agents_networkWithoutOverload]
    cases net.agents id <;> rfl
  | heartbeat id req outcome =>
    simp only [step, quietStep, agents_networkWithoutOverload]
    cases net.agents id with
    | none => rfl
    | some agent =>
      simp only [Option.elim_some, Option.map_some, handleHeartbeat, quietHeartbeat]
      change _ = match net.store.updateHeartbeat net.now (heartbeat id agent req) with
        | .error _ => _
        | .ok store => _
      cases net.store.updateHeartbeat net.now (heartbeat id agent req) with
      | error message => rfl
      | ok store =>
        dsimp only
        change networkWithoutOverload (match
          Controller.Mesh.buildMeshMapResponse nearest store outcome net.now id with
            | none => _
            | some response => _) = match
          Controller.Mesh.buildMeshMapResponse nearest store outcome net.now id with
            | none => _
            | some response => _
        cases Controller.Mesh.buildMeshMapResponse nearest store outcome net.now id with
        | none => rfl
        | some response =>
          dsimp only
          rw [networkWithoutOverload_withAgent]
          simp [processWithoutOverload, networkWithoutOverload]
  | deliver id env =>
    simp only [step, quietStep, agents_networkWithoutOverload]
    cases net.agents id with
    | none => rfl
    | some agent =>
      simp only [Option.elim_some, Option.map_some, handleReply]
      cases hinbox : agent.inbox with
      | nil =>
        have hnone : (processWithoutOverload agent).inbox = [] := by
          rw [processWithoutOverload, hinbox, List.map_nil]
        rw [hnone]
      | cons resp rest =>
        have hfirst : (processWithoutOverload agent).inbox =
            withoutOverload resp :: rest.map withoutOverload := by
          rw [processWithoutOverload, hinbox, List.map_cons]
        rw [hfirst]
        dsimp only
        rw [networkWithoutOverload_afterCall, updateMeshMap_withoutOverload]
        rfl
  | removeNode id => rfl
  | removeStaleNodes timeout => rfl
  | emergency id env =>
    simp only [step, quietStep, agents_networkWithoutOverload]
    cases net.agents id with
    | none => rfl
    | some agent =>
      simp only [Option.elim_some, Option.map_some, networkWithoutOverload_afterCall,
        emergencySwitch_withoutOverload]
      rfl
  | tick elapsed => rfl

/-- In every run the agents pull from the same nodes, and the controller stores the same nodes, as
if it never gave the advice that an upstream is overloaded. -/
theorem advice_inert (actions : List Action) :
    (∀ id upstreamID, Pulls (run step .start actions) id upstreamID ↔
        Pulls (run quietStep .start actions) id upstreamID) ∧
      (run step .start actions).store = (run quietStep .start actions).store := by
  have hrun : run quietStep (networkWithoutOverload .start) actions =
      networkWithoutOverload (run step .start actions) :=
    List.foldl_hom networkWithoutOverload fun net action ↦
      (networkWithoutOverload_step net action).symm
  have hstart : networkWithoutOverload .start = .start := rfl
  rw [hstart] at hrun
  refine ⟨fun id upstreamID ↦ ?_, by rw [hrun]; rfl⟩
  rw [hrun]
  unfold Pulls
  rw [agents_networkWithoutOverload]
  constructor
  · rintro ⟨agent, path, hagent, hpath, hid⟩
    exact ⟨processWithoutOverload agent, path, by rw [hagent, Option.map_some], hpath, hid⟩
  · rintro ⟨after, path, hafter, hpath, hid⟩
    obtain ⟨agent, hagent, rfl⟩ := Option.map_eq_some_iff.mp hafter
    exact ⟨agent, path, hagent, hpath, hid⟩

end LiveCDN.System.Migration
