import LiveCDN.Controller.Mesh
import LiveCDN.Library.GuardedRun

/-!
# Which registration a tier follows

The cascade flags of a node over every run of registrations, heartbeats, status changes and removals
(`controller/store.go`). A `Roster` records, beside the store, the request that inserted each node
and its latest request.

`RegisterNode` copies the flags of a request in the branch that inserts a node and not in the branch
of a node that connects again, and no other operation writes them. So a stored node has the flags of
the request that inserted it (`insertedFlags_run`), and its tier and `CascadeEnabled` are those of
its latest registration in every state of a run exactly when each repeated registration asks for
the tier and for `CascadeEnabled` that the record already has (`tierFollows_runs_iff`).

Scope. Every operation is atomic and reads the clock once; nothing is assumed about how the clock
moves between them.
-/

set_option autoImplicit false
set_option relaxedAutoImplicit false

namespace LiveCDN.Controller.TierHistory

open Library.KeyedTable Library.GuardedRun NodeStore Mesh

/-! ### Runs -/

/-- The tier that two flags stand for: a node others may pull from that pulls from the origin itself
is of tier 1. -/
def tierOfFlags (cascadeEnabled cascadeUpstream : Bool) : ℕ :=
  if cascadeEnabled = true ∧ cascadeUpstream = false then 1 else 2

/-- A store with the registrations of its nodes: the one that last inserted a node, and the latest
one. -/
structure Roster where
  store : MemoryStore
  inserted : String → Option RegisterRequest
  latest : String → Option RegisterRequest

/-- No node has registered. -/
def Roster.start : Roster := ⟨newMemoryStore, fun _ ↦ none, fun _ ↦ none⟩

/-- The operations a run is built from. -/
inductive Action
  | registerNode (req : RegisterRequest)
  | updateHeartbeat (req : HeartbeatRequest)
  | setNodeStatus (nodeID : String) (status : NodeStatus)
  | removeStaleNodes (timeout : ℕ)
  | removeNode (nodeID : String)

/-- An operation and the clock it reads. -/
structure Step where
  now : ℕ
  action : Action

/-- The roster after an operation. -/
def step (roster : Roster) (taken : Step) : Roster :=
  let store := roster.store
  match taken.action with
  | .registerNode req =>
    { store := store.registerNode taken.now req
      inserted := if store.nodes.find? req.nodeID = none then
          Function.update roster.inserted req.nodeID (some req)
        else roster.inserted
      latest := Function.update roster.latest req.nodeID (some req) }
  | .updateHeartbeat req =>
    { roster with store := (store.updateHeartbeat taken.now req).toOption.getD store }
  | .setNodeStatus nodeID status => { roster with store := (store.setNodeStatus nodeID status).1 }
  | .removeStaleNodes timeout =>
    { roster with store := (store.removeStaleNodes taken.now timeout).1 }
  | .removeNode nodeID => { roster with store := (store.removeNode nodeID).1 }

/-- The tier of a node and `CascadeEnabled` are those of a registration. -/
structure Follows (node : NodeInfo) (req : RegisterRequest) : Prop where
  tier : computeTier node = tierOfFlags req.cascadeEnabled req.cascadeUpstream
  enabled : node.cascadeEnabled = req.cascadeEnabled

/-- Each stored node follows its latest registration. -/
def TierFollows (roster : Roster) : Prop :=
  ∀ id node, roster.store.nodes.find? id = some node →
    ∃ req, roster.latest id = some req ∧ Follows node req

/-- Each stored node has the flags of the registration that inserted it. -/
def InsertedFlags (roster : Roster) : Prop :=
  ∀ id node, roster.store.nodes.find? id = some node →
    ∃ req, roster.inserted id = some req ∧ node.cascadeEnabled = req.cascadeEnabled ∧
      node.cascadeUpstream = req.cascadeUpstream

/-- The condition on a step: a registration of a stored node asks for the tier and `CascadeEnabled`
of the record. -/
def KeepsRole (roster : Roster) (taken : Step) : Prop :=
  match taken.action with
  | .registerNode req => ∀ node, roster.store.nodes.find? req.nodeID = some node → Follows node req
  | _ => True

/-! ### What a step writes -/

/-- A node that is found after an operation other than a registration was there before, with the
same flags. -/
theorem found_before {roster : Roster} {taken : Step}
    (hother : ∀ req, taken.action ≠ .registerNode req) {id : String} {node : NodeInfo}
    (hfound : (step roster taken).store.nodes.find? id = some node) :
    ∃ before, roster.store.nodes.find? id = some before ∧
      node.cascadeEnabled = before.cascadeEnabled ∧
        node.cascadeUpstream = before.cascadeUpstream := by
  obtain ⟨now, action⟩ := taken
  cases action with
  | registerNode req => exact absurd rfl (hother req)
  | updateHeartbeat req =>
    change ((roster.store.updateHeartbeat now req).toOption.getD roster.store).nodes.find? id = _
      at hfound
    cases hupdate : roster.store.updateHeartbeat now req with
    | error message =>
      rw [hupdate] at hfound
      exact ⟨node, hfound, rfl, rfl⟩
    | ok store =>
      rw [hupdate] at hfound
      change store.nodes.find? id = some node at hfound
      rw [MemoryStore.find?_updateHeartbeat hupdate] at hfound
      split_ifs at hfound with hid
      · obtain ⟨before, hbefore, rfl⟩ := Option.map_eq_some_iff.mp hfound
        exact ⟨before, hbefore, rfl, rfl⟩
      · exact ⟨node, hfound, rfl, rfl⟩
  | setNodeStatus nodeID status =>
    change (roster.store.setNodeStatus nodeID status).1.nodes.find? id = _ at hfound
    rw [MemoryStore.find?_setNodeStatus] at hfound
    split_ifs at hfound with hid
    · obtain ⟨before, hbefore, rfl⟩ := Option.map_eq_some_iff.mp hfound
      exact ⟨before, hbefore, rfl, rfl⟩
    · exact ⟨node, hfound, rfl, rfl⟩
  | removeStaleNodes timeout =>
    change (roster.store.removeStaleNodes now timeout).1.nodes.find? id = _ at hfound
    rw [MemoryStore.find?_removeStaleNodes] at hfound
    exact ⟨node, (Option.filter_eq_some_iff.mp hfound).1, rfl, rfl⟩
  | removeNode nodeID =>
    change (roster.store.removeNode nodeID).1.nodes.find? id = _ at hfound
    rw [MemoryStore.find?_removeNode] at hfound
    split_ifs at hfound
    exact ⟨node, hfound, rfl, rfl⟩

/-- Such an operation keeps the recorded registrations. -/
theorem registrations_step {roster : Roster} {taken : Step}
    (hother : ∀ req, taken.action ≠ .registerNode req) :
    (step roster taken).inserted = roster.inserted ∧
      (step roster taken).latest = roster.latest := by
  obtain ⟨now, action⟩ := taken
  cases action with
  | registerNode req => exact absurd rfl (hother req)
  | updateHeartbeat req => exact ⟨rfl, rfl⟩
  | setNodeStatus nodeID status => exact ⟨rfl, rfl⟩
  | removeStaleNodes timeout => exact ⟨rfl, rfl⟩
  | removeNode nodeID => exact ⟨rfl, rfl⟩

/-- Nodes with the same flags follow the same registrations. -/
theorem follows_congr {node other : NodeInfo}
    (henabled : node.cascadeEnabled = other.cascadeEnabled)
    (hupstream : node.cascadeUpstream = other.cascadeUpstream) {req : RegisterRequest} :
    Follows node req ↔ Follows other req := by
  have htier : computeTier node = computeTier other := by
    rw [computeTier, computeTier, henabled, hupstream]
  constructor
  · rintro ⟨htierReq, henabledReq⟩
    exact ⟨htier ▸ htierReq, henabled ▸ henabledReq⟩
  · rintro ⟨htierReq, henabledReq⟩
    exact ⟨htier.trans htierReq, henabled.trans henabledReq⟩

/-- A node that connects again follows the registrations that its record follows. -/
theorem follows_reconnectedNode {now : ℕ} {req other : RegisterRequest} {existing : NodeInfo} :
    Follows (MemoryStore.reconnectedNode now req existing) other ↔ Follows existing other := by
  apply follows_congr
  · rfl
  · rfl

/-- The node that a registration leaves: a new one with the flags of the request, or the stored one
with its flags. -/
theorem find?_register (roster : Roster) (now : ℕ) (req : RegisterRequest) (id : String) :
    (step roster ⟨now, .registerNode req⟩).store.nodes.find? id =
      if id = req.nodeID then
        some ((roster.store.nodes.find? id).elim (MemoryStore.newNode now req)
          (MemoryStore.reconnectedNode now req))
      else roster.store.nodes.find? id :=
  MemoryStore.find?_registerNode roster.store now req id

/-! ### The flags of the first registration -/

/-- A step keeps the flags of the registrations that inserted the nodes. -/
theorem insertedFlags_step (roster : Roster) (taken : Step) (hinv : InsertedFlags roster) :
    InsertedFlags (step roster taken) := by
  intro id node hfound
  by_cases hother : ∀ req, taken.action ≠ .registerNode req
  · obtain ⟨before, hbefore, henabled, hupstream⟩ := found_before hother hfound
    obtain ⟨req, hreq, hflags⟩ := hinv id before hbefore
    rw [(registrations_step hother).1, henabled, hupstream]
    exact ⟨req, hreq, hflags⟩
  · rw [not_forall_not] at hother
    obtain ⟨req, haction⟩ := hother
    obtain ⟨now, action⟩ := taken
    obtain rfl : action = .registerNode req := haction
    rw [find?_register] at hfound
    change ∃ other, (if roster.store.nodes.find? req.nodeID = none then
        Function.update roster.inserted req.nodeID (some req)
      else roster.inserted) id = some other ∧ _
    by_cases hid : id = req.nodeID
    · subst hid
      rw [if_pos rfl] at hfound
      obtain rfl := Option.some.inj hfound
      cases hstored : roster.store.nodes.find? req.nodeID with
      | none =>
        rw [if_pos rfl, Function.update_self]
        exact ⟨req, rfl, rfl, rfl⟩
      | some existing =>
        rw [if_neg (Option.some_ne_none existing)]
        exact hinv _ existing hstored
    · rw [if_neg hid] at hfound
      obtain ⟨other, hinserted, hflags⟩ := hinv id node hfound
      refine ⟨other, ?_, hflags⟩
      split_ifs
      · rw [Function.update_of_ne hid, hinserted]
      · exact hinserted

/-- In every run each stored node has the flags of the registration that inserted it. -/
theorem insertedFlags_run (steps : List Step) : InsertedFlags (run step .start steps) := by
  refine invariant_run_of_step step insertedFlags_step ?_ steps
  intro id node hfound
  exact nomatch (Table.find?_empty id).symm.trans hfound

/-! ### The flags of the latest registration -/

/-- A step keeps every tier in line with the latest registration exactly when it keeps the role of
the node it registers. Assumes: the tiers are in line before it. -/
theorem tierFollows_step_iff (roster : Roster) (taken : Step) (hinv : TierFollows roster) :
    TierFollows (step roster taken) ↔ KeepsRole roster taken := by
  by_cases hother : ∀ req, taken.action ≠ .registerNode req
  · have hcondition : KeepsRole roster taken := by
      unfold KeepsRole
      split
      · next req haction => exact absurd haction (hother req)
      · trivial
    refine iff_of_true (fun id node hfound ↦ ?_) hcondition
    obtain ⟨before, hbefore, henabled, hupstream⟩ := found_before hother hfound
    obtain ⟨req, hreq, hfollows⟩ := hinv id before hbefore
    rw [(registrations_step hother).2]
    exact ⟨req, hreq, (follows_congr henabled hupstream).mpr hfollows⟩
  · rw [not_forall_not] at hother
    obtain ⟨req, haction⟩ := hother
    obtain ⟨now, action⟩ := taken
    obtain rfl : action = .registerNode req := haction
    have hlatest : (step roster ⟨now, .registerNode req⟩).latest =
        Function.update roster.latest req.nodeID (some req) := rfl
    constructor
    · intro hafter existing hstored
      have hfound : (step roster ⟨now, .registerNode req⟩).store.nodes.find? req.nodeID =
          some (MemoryStore.reconnectedNode now req existing) := by
        rw [find?_register, if_pos rfl, hstored]
        rfl
      obtain ⟨other, hother, hfollows⟩ := hafter _ _ hfound
      rw [hlatest, Function.update_self] at hother
      obtain rfl := Option.some.inj hother
      exact follows_reconnectedNode.mp hfollows
    · intro hkeeps id node hfound
      rw [find?_register] at hfound
      rw [hlatest]
      by_cases hid : id = req.nodeID
      · subst hid
        rw [if_pos rfl] at hfound
        obtain rfl := Option.some.inj hfound
        refine ⟨req, Function.update_self _ _ _, ?_⟩
        cases hstored : roster.store.nodes.find? req.nodeID with
        | none => exact ⟨rfl, rfl⟩
        | some existing => exact follows_reconnectedNode.mpr (hkeeps existing hstored)
      · rw [if_neg hid] at hfound
        rw [Function.update_of_ne hid]
        exact hinv id node hfound

/-- In a run every tier is that of the latest registration after each step exactly when each
registration of a stored node asks for the role that its record has. -/
theorem tierFollows_runs_iff (steps : List Step) :
    EachStepMeets step (fun roster taken ↦ TierFollows (step roster taken)) .start steps ↔
      EachStepMeets step KeepsRole .start steps := by
  refine eachStepMeets_iff_of_kept step (fun _ _ _ hafter ↦ hafter) tierFollows_step_iff ?_ steps
  intro id node hfound
  exact nomatch (Table.find?_empty id).symm.trans hfound

/-- A node registers without the cascade, and again, a minute later, as one that others may pull
from. -/
def roleChange : List Step :=
  [⟨0, .registerNode { relayRequest "edge-1" false with cascadeEnabled := false }⟩,
    ⟨minute, .registerNode (relayRequest "edge-1" false)⟩]

/-- After a change of role the stored tier is still 2 and `CascadeEnabled` unset. -/
theorem tierFollows_counterexample :
    (((run step .start roleChange).store.getNode "edge-1").map fun node ↦
        (computeTier node, node.cascadeEnabled)) = some (2, false) ∧
      ¬ ∀ steps : List Step, TierFollows (run step .start steps) := by
  have hstored : (((run step .start roleChange).store.getNode "edge-1").map fun node ↦
      (computeTier node, node.cascadeEnabled)) = some (2, false) := by decide +kernel
  have hlatest : (run step .start roleChange).latest "edge-1" =
      some (relayRequest "edge-1" false) := by decide +kernel
  refine ⟨hstored, fun hall ↦ ?_⟩
  obtain ⟨node, hnode, hrole⟩ := Option.map_eq_some_iff.mp hstored
  obtain ⟨req, hreq, hfollows⟩ := hall roleChange "edge-1" node hnode
  obtain rfl := Option.some.inj (hlatest.symm.trans hreq)
  have hunset : node.cascadeEnabled = false := congrArg Prod.snd hrole
  have hset : node.cascadeEnabled = true := hfollows.enabled
  exact absurd (hunset.symm.trans hset) (by decide)

end LiveCDN.Controller.TierHistory
