import LiveCDN.Controller.Dispatch
import LiveCDN.Library.HashRing

/-!
# Dispatch by consistent hashing

`ConsistentHashScheduler` of `controller/hashring.go`. Each healthy node is on the ring under fifty
virtual names, from which its id is read back at the last separator
(`extractPhysicalID_virtualName`). The primary of a client is the node that owns the client's
address (`primary_dispatch`), so it changes only to a node that joins and from a node that leaves
(`primary_monotone`).

The backups are looked up under a bounded number of other keys and not by walking the ring. A
dispatch has as many endpoints as it should when enough of these keys are owned by other nodes, and
only then (`backups_iff`).

Scope. The ring is a parameter, the function `getNode` of its members and a key. What is relied on
is `Clockwise`, or only `ReturnsMember`.
-/

set_option autoImplicit false
set_option relaxedAutoImplicit false

namespace LiveCDN.Controller.ConsistentHash

open Library NodeStore Endpoint Scheduling Dispatch

/-! ### Virtual nodes -/

/-- `virtualReplicas`, as `NewConsistentHashScheduler` sets it. -/
def virtualReplicas : ℕ := 50

/-- `fmt.Sprintf("%s__%d", nodeID, vn)`. -/
def virtualName (nodeID : String) (vn : ℕ) : String := nodeID ++ "__" ++ toString vn

/-- The members of the ring. -/
def ringMembers (nodes : List NodeInfo) : List String :=
  nodes.flatMap fun n ↦ (List.range virtualReplicas).map (virtualName n.nodeID)

/-- `strings.LastIndex`. -/
def lastIndex (sep : List Char) : List Char → Option ℕ
  | [] => if sep = [] then some 0 else none
  | c :: text =>
    match lastIndex sep text with
    | some idx => some (idx + 1)
    | none => if sep.isPrefixOf (c :: text) then some 0 else none

/-- `extractPhysicalID`. -/
def extractPhysicalID (virtualID : String) : String :=
  match lastIndex "__".toList virtualID.toList with
  | some idx => String.ofList (virtualID.toList.take idx)
  | none => virtualID

/-! ### The scheduler -/

/-- `ConsistentHashScheduler`. Its store is that of the fallback. -/
structure ConsistentHashScheduler where
  fallback : Scheduler

/-- `NewConsistentHashScheduler`. -/
def newConsistentHashScheduler (store : MemoryStore) : ConsistentHashScheduler :=
  ⟨newScheduler store⟩

/-- `store`. -/
def ConsistentHashScheduler.store (chs : ConsistentHashScheduler) : MemoryStore :=
  chs.fallback.store

/-- `nodeMap`. -/
def nodeMap (nodes : List NodeInfo) : String → Option NodeInfo :=
  nodes.foldl (fun found n ↦ Function.update found n.nodeID (some n)) fun _ ↦ none

/-- `string(rune(n))`. -/
def runeString (n : ℕ) : String :=
  if (n % 2 ^ 32).isValidChar then String.singleton (Char.ofNat (n % 2 ^ 32)) else "\uFFFD"

/-- The key under which the `i`-th backup is looked up. -/
def probeKey (clientIP : String) (i : ℕ) : String := clientIP ++ runeString (i + 'A'.toNat)

variable (getNode : List String → String → Option String)

/-- The nodes that the keys of the backups lead to, one key for each healthy node. -/
def probedIDs (nodes : List NodeInfo) (clientIP : String) : List String :=
  (List.range nodes.length).filterMap fun i ↦
    (getNode (ringMembers nodes) (probeKey clientIP i)).map extractPhysicalID

/-- The backups with an id that a key has led to. -/
def addBackup (primaryID : String) (backupIDs : List String) (id : String) : List String :=
  if id ≠ primaryID ∧ id ∉ backupIDs then backupIDs ++ [id] else backupIDs

/-- The loop that collects the backups, two at most. -/
def collectBackups (primaryID : String) : List String → List String → List String
  | [], backupIDs => backupIDs
  | id :: probed, backupIDs =>
    if backupIDs.length < 2 then collectBackups primaryID probed (addBackup primaryID backupIDs id)
    else backupIDs

/-- The endpoints of the ids that are found in the map, the primary first. -/
def hashEndpoints (nodes : List NodeInfo) (primaryID : String) (backupIDs : List String) :
    List NodeEndpoint :=
  ((nodeMap nodes primaryID).map (nodeEndpoint 0)).toList ++
    backupIDs.zipIdx.filterMap fun (bid, i) ↦ (nodeMap nodes bid).map (nodeEndpoint (i + 1))

/-- `ConsistentHashScheduler.Dispatch`. -/
def ConsistentHashScheduler.dispatch (chs : ConsistentHashScheduler)
    (lookup : String → String × String) (outcome : Outcome) (now : ℕ)
    (clientIP clientRegion clientISP : String) :
    Except DispatchError (List NodeEndpoint) × ConsistentHashScheduler :=
  match outcome.visit 2 (chs.store.getHealthyNodes now) with
  | [] => (.error errNoAvailableNodes, chs)
  | [node] => (.ok [nodeEndpoint 0 node], chs)
  | nodes =>
    match getNode (ringMembers nodes) clientIP with
    | none =>
      let result := chs.fallback.dispatch lookup outcome now clientIP clientRegion clientISP
      (result.1, ⟨result.2⟩)
    | some virtualPrimaryID =>
      let primaryID := extractPhysicalID virtualPrimaryID
      let backupIDs := collectBackups primaryID (probedIDs getNode nodes clientIP) []
      match hashEndpoints nodes primaryID backupIDs with
      | [] => (.error errNoAvailableNodes, chs)
      | endpoints => (.ok endpoints, chs)

/-- The node of the first endpoint. -/
def primary : Except DispatchError (List NodeEndpoint) → Option String
  | .ok (endpoint :: _) => some endpoint.nodeID
  | _ => none

/-! ### What is relied on of the ring -/

/-- A key leads to some member. -/
def ReturnsMember : Prop :=
  ∀ members, members ≠ [] → ∀ key, ∃ owner ∈ members, getNode members key = some owner

/-- A key leads to the owner of the first point clockwise from its hash. The points of a member
depend on its name only. -/
def Clockwise {Position : Type} [LinearOrder Position] (hash : String → Position)
    (points : String → Finset Position) : Prop :=
  ∀ members, members ≠ [] → ∀ key, ∃ owner, getNode members key = some owner ∧
    HashRing.Owns points {member | member ∈ members} (hash key) owner

variable {getNode}

theorem Clockwise.returnsMember {Position : Type} [LinearOrder Position]
    {hash : String → Position} {points : String → Finset Position}
    (hclockwise : Clockwise getNode hash points) : ReturnsMember getNode := by
  intro members hmembers key
  obtain ⟨owner, hfound, howner, _⟩ := hclockwise members hmembers key
  exact ⟨owner, howner, hfound⟩

/-! ### Reading an id back -/

theorem lastIndex_of_not_mem {text : List Char} (htext : '_' ∉ text) :
    lastIndex ['_', '_'] text = none := by
  induction text with
  | nil => rfl
  | cons c text ih =>
    obtain ⟨hc, htail⟩ := not_or.mp (List.mem_cons.not.mp htext)
    rw [lastIndex, ih htail]
    simp [List.isPrefixOf, hc]

/-- The last separator is the one before a text without underscores. Assumes: that text is not
empty. -/
theorem lastIndex_append {text : List Char} (htext : '_' ∉ text) (hne : text ≠ [])
    (front : List Char) :
    lastIndex ['_', '_'] (front ++ '_' :: '_' :: text) = some front.length := by
  induction front with
  | nil =>
    obtain ⟨c, rest, rfl⟩ := List.exists_cons_of_ne_nil hne
    obtain ⟨hc, -⟩ := not_or.mp (List.mem_cons.not.mp htext)
    have hnone : lastIndex ['_', '_'] ('_' :: c :: rest) = none := by
      rw [lastIndex, lastIndex_of_not_mem htext]
      simp [List.isPrefixOf, hc]
    rw [List.nil_append, lastIndex, hnone]
    rfl
  | cons c front ih => rw [List.cons_append, lastIndex, ih, List.length_cons]

/-- The id of a node is read back from its virtual names, whatever it contains. -/
theorem extractPhysicalID_virtualName (nodeID : String) (vn : ℕ) :
    extractPhysicalID (virtualName nodeID vn) = nodeID := by
  have htext : (virtualName nodeID vn).toList =
      nodeID.toList ++ '_' :: '_' :: Nat.toDigits 10 vn := by
    have hdigits : (toString vn).toList = Nat.toDigits 10 vn := String.toList_ofList
    rw [virtualName, String.toList_append, String.toList_append, List.append_assoc, hdigits]
    rfl
  rw [extractPhysicalID, htext, show "__".toList = ['_', '_'] from rfl,
    lastIndex_append Nat.underscore_not_in_toDigits Nat.toDigits_ne_nil]
  dsimp only
  rw [List.take_left, String.ofList_toList]

/-- A virtual name on the ring leads to a node. -/
theorem extractPhysicalID_mem {nodes : List NodeInfo} {virtualID : String}
    (hmember : virtualID ∈ ringMembers nodes) :
    extractPhysicalID virtualID ∈ nodes.map NodeInfo.nodeID := by
  obtain ⟨n, hn, hvirtual⟩ := List.mem_flatMap.mp hmember
  obtain ⟨vn, -, rfl⟩ := List.mem_map.mp hvirtual
  rw [extractPhysicalID_virtualName]
  exact List.mem_map_of_mem hn

/-- The names on the ring are those of the ids of the nodes. -/
theorem mem_ringMembers {nodes : List NodeInfo} {virtualID : String} :
    virtualID ∈ ringMembers nodes ↔
      ∃ id ∈ nodes.map NodeInfo.nodeID, ∃ vn < virtualReplicas, virtualName id vn = virtualID := by
  simp [ringMembers]

theorem ringMembers_ne_nil {nodes : List NodeInfo} (hnodes : nodes ≠ []) :
    ringMembers nodes ≠ [] := by
  obtain ⟨n, rest, rfl⟩ := List.exists_cons_of_ne_nil hnodes
  exact List.ne_nil_of_mem
    (mem_ringMembers.mpr ⟨n.nodeID, List.mem_cons_self, 0, by decide, rfl⟩)

/-! ### The backups -/

/-- What the loop keeps true of the backups. -/
structure Collected (primaryID : String) (backupIDs : List String) : Prop where
  nodup : backupIDs.Nodup
  primary_notMem : primaryID ∉ backupIDs
  length_le : backupIDs.length ≤ 2

theorem Collected.nil (primaryID : String) : Collected primaryID [] where
  nodup := List.nodup_nil
  primary_notMem := List.not_mem_nil
  length_le := Nat.zero_le 2

/-- One more id keeps it. Assumes: there is room for it. -/
theorem Collected.addBackup {primaryID : String} {backupIDs : List String}
    (hcollected : Collected primaryID backupIDs) (hroom : backupIDs.length < 2) (id : String) :
    Collected primaryID (addBackup primaryID backupIDs id) := by
  unfold ConsistentHash.addBackup
  split_ifs with hnew
  · obtain ⟨hprimary, hfresh⟩ := hnew
    refine ⟨?_, ?_, ?_⟩
    · rw [List.nodup_append]
      refine ⟨hcollected.nodup, List.nodup_singleton id, fun other hother last hlast ↦ ?_⟩
      rw [List.mem_singleton.mp hlast]
      exact fun hsame ↦ hfresh (hsame ▸ hother)
    · rw [List.mem_append, List.mem_singleton, not_or]
      exact ⟨hcollected.primary_notMem, hprimary.symm⟩
    · rw [List.length_append, List.length_singleton]
      exact hroom
  · exact hcollected

/-- The ids that are collected or still to come are the same behind a step. -/
theorem toFinset_addBackup (primaryID : String) (backupIDs probed : List String) (id : String) :
    (addBackup primaryID backupIDs id).toFinset ∪ probed.toFinset.erase primaryID =
      backupIDs.toFinset ∪ (id :: probed).toFinset.erase primaryID := by
  ext other
  unfold addBackup
  split_ifs with hnew
  · simp only [List.toFinset_append, Finset.mem_union, List.mem_toFinset, Finset.mem_erase,
      List.mem_cons]
    grind
  · simp only [Finset.mem_union, List.mem_toFinset, Finset.mem_erase, List.mem_cons]
    grind

/-- The loop collects ids that are new and not the primary, as many as there are up to two. -/
theorem collectBackups_spec {primaryID : String} (probed : List String) {backupIDs : List String}
    (hcollected : Collected primaryID backupIDs) :
    Collected primaryID (collectBackups primaryID probed backupIDs) ∧
      (collectBackups primaryID probed backupIDs).length =
        min 2 (backupIDs.toFinset ∪ probed.toFinset.erase primaryID).card ∧
      collectBackups primaryID probed backupIDs ⊆ backupIDs ++ probed := by
  have hcard := List.toFinset_card_of_nodup hcollected.nodup
  induction probed generalizing backupIDs with
  | nil =>
    refine ⟨hcollected, ?_, by simp [collectBackups]⟩
    rw [List.toFinset_nil, Finset.erase_empty, Finset.union_empty, hcard,
      min_eq_right hcollected.length_le]
    rfl
  | cons id probed ih =>
    rw [collectBackups]
    split_ifs with hroom
    · have hnext := hcollected.addBackup hroom id
      obtain ⟨hresult, hlength, hsubset⟩ := ih hnext (List.toFinset_card_of_nodup hnext.nodup)
      rw [toFinset_addBackup] at hlength
      refine ⟨hresult, hlength, fun other hother ↦ ?_⟩
      have hfound := hsubset hother
      unfold addBackup at hfound
      split_ifs at hfound
      · simpa using hfound
      · rcases List.mem_append.mp hfound with hkept | hlater
        · exact List.mem_append_left _ hkept
        · exact List.mem_append_right _ (List.mem_cons_of_mem _ hlater)
    · refine ⟨hcollected, ?_, List.subset_append_left _ _⟩
      have hfull : backupIDs.toFinset.card ≤
          (backupIDs.toFinset ∪ (id :: probed).toFinset.erase primaryID).card :=
        Finset.card_le_card Finset.subset_union_left
      have hle := hcollected.length_le
      omega

/-! ### The endpoints -/

/-- The map has a node under each of the ids. -/
theorem exists_nodeMap {nodes : List NodeInfo} {id : String}
    (hid : id ∈ nodes.map NodeInfo.nodeID) : ∃ node, nodeMap nodes id = some node ∧
      node.nodeID = id := by
  induction nodes using List.reverseRecOn with
  | nil => exact absurd hid List.not_mem_nil
  | append_singleton nodes last ih =>
    have hmap : nodeMap (nodes ++ [last]) =
        Function.update (nodeMap nodes) last.nodeID (some last) := by
      rw [nodeMap, List.foldl_append]
      rfl
    rw [hmap]
    by_cases hlast : id = last.nodeID
    · exact ⟨last, hlast ▸ Function.update_self _ _ _, hlast.symm⟩
    · rw [Function.update_of_ne hlast]
      refine ih ?_
      rw [List.map_append, List.mem_append] at hid
      exact hid.resolve_right fun hsame ↦ hlast (List.mem_singleton.mp hsame)

/-- The endpoints name the primary and the backups in order. Assumes: these are ids of the
nodes. -/
theorem map_nodeID_hashEndpoints {nodes : List NodeInfo} {primaryID : String}
    {backupIDs : List String} (hprimary : primaryID ∈ nodes.map NodeInfo.nodeID)
    (hbackups : backupIDs ⊆ nodes.map NodeInfo.nodeID) :
    (hashEndpoints nodes primaryID backupIDs).map NodeEndpoint.nodeID = primaryID :: backupIDs := by
  have hrest : ∀ (ids : List String) (start : ℕ), ids ⊆ nodes.map NodeInfo.nodeID →
      ((ids.zipIdx start).filterMap fun (bid, i) ↦
        (nodeMap nodes bid).map (nodeEndpoint (i + 1))).map NodeEndpoint.nodeID = ids := by
    intro ids
    induction ids with
    | nil => exact fun _ _ ↦ rfl
    | cons bid ids ih =>
      intro start hids
      obtain ⟨hbid, htail⟩ := List.cons_subset.mp hids
      obtain ⟨node, hfound, hid⟩ := exists_nodeMap hbid
      rw [List.zipIdx_cons, List.filterMap_cons]
      dsimp only
      rw [hfound, Option.map_some, List.map_cons, ih (start + 1) htail]
      exact congrArg (· :: ids) hid
  obtain ⟨node, hfound, hid⟩ := exists_nodeMap hprimary
  rw [hashEndpoints, hfound, Option.map_some, Option.toList_some, List.map_append,
    hrest backupIDs 0 hbackups]
  exact congrArg (· :: backupIDs) hid

/-! ### What a dispatch returns -/

/-- The healthy nodes in the order in which a dispatch walks over them. -/
def ConsistentHashScheduler.healthyNodes (chs : ConsistentHashScheduler) (outcome : Outcome)
    (now : ℕ) : List NodeInfo :=
  outcome.visit 2 (chs.store.getHealthyNodes now)

section Dispatch

variable (hmember : ReturnsMember getNode) (chs : ConsistentHashScheduler)
  (lookup : String → String × String) (outcome : Outcome) (now : ℕ)
  (clientIP clientRegion clientISP : String)

/-- The probed keys lead to nodes. Assumes: a key leads to a member. -/
theorem probedIDs_subset (hmember : ReturnsMember getNode) (nodes : List NodeInfo)
    (clientIP : String) : probedIDs getNode nodes clientIP ⊆ nodes.map NodeInfo.nodeID := by
  intro id hid
  obtain ⟨i, hi, hfound⟩ := List.mem_filterMap.mp hid
  have hnodes : nodes ≠ [] := by
    rintro rfl
    exact absurd hi List.not_mem_nil
  obtain ⟨owner, howner, hget⟩ :=
    hmember (ringMembers nodes) (ringMembers_ne_nil hnodes) (probeKey clientIP i)
  rw [hget, Option.map_some] at hfound
  obtain rfl := Option.some.inj hfound
  exact extractPhysicalID_mem howner

include hmember in
/-- A dispatch without healthy nodes is an error. Otherwise its endpoints are the node that owns the
client's address and the collected backups. Assumes: a key leads to a member. -/
theorem dispatch_cases :
    let nodes := chs.healthyNodes outcome now
    let result := (chs.dispatch getNode lookup outcome now clientIP clientRegion clientISP).1
    (nodes = [] ∧ result = .error errNoAvailableNodes) ∨
      ∃ owner ∈ ringMembers nodes, getNode (ringMembers nodes) clientIP = some owner ∧
        ∃ endpoints, result = .ok endpoints ∧
          endpoints.map NodeEndpoint.nodeID =
            extractPhysicalID owner :: if nodes.length = 1 then [] else
              collectBackups (extractPhysicalID owner) (probedIDs getNode nodes clientIP) [] := by
  intro nodes result
  by_cases hnodes : nodes = []
  · refine Or.inl ⟨hnodes, ?_⟩
    have hvisit : outcome.visit 2 (chs.store.getHealthyNodes now) = [] := hnodes
    simp only [result, ConsistentHashScheduler.dispatch, hvisit]
  · obtain ⟨owner, howner, hget⟩ := hmember (ringMembers nodes) (ringMembers_ne_nil hnodes) clientIP
    refine Or.inr ⟨owner, howner, hget, ?_⟩
    have hprimary := extractPhysicalID_mem howner
    match hvisit : nodes with
    | [] => exact absurd rfl hnodes
    | [node] =>
      have hwalk : outcome.visit 2 (chs.store.getHealthyNodes now) = [node] := hvisit
      refine ⟨[nodeEndpoint 0 node], ?_, ?_⟩
      · simp only [result, ConsistentHashScheduler.dispatch, hwalk]
      · rw [List.map_singleton, List.mem_singleton] at hprimary
        rw [if_pos List.length_singleton, hprimary]
        rfl
    | first :: second :: rest =>
      have hwalk : outcome.visit 2 (chs.store.getHealthyNodes now) = first :: second :: rest :=
        hvisit
      obtain ⟨-, -, hsubset⟩ := collectBackups_spec
        (probedIDs getNode (first :: second :: rest) clientIP)
        (Collected.nil (extractPhysicalID owner))
      have hids := map_nodeID_hashEndpoints hprimary
        (List.Subset.trans hsubset (probedIDs_subset hmember (first :: second :: rest) clientIP))
      refine ⟨_, ?_, hids.trans ?_⟩
      · simp only [result, ConsistentHashScheduler.dispatch, hwalk, hget]
        split
        next hempty =>
          rw [hempty] at hids
          cases hids
        next => rfl
      · rw [if_neg (by simp)]

end Dispatch

/-- The walk visits the healthy nodes. -/
theorem healthyNodes_perm (chs : ConsistentHashScheduler) (outcome : Outcome) (now : ℕ) :
    (chs.healthyNodes outcome now).Perm (chs.store.getHealthyNodes now) :=
  outcome.visit_perm 2 _

/-! ### Nodes that join and leave -/

section Monotone

variable {Position : Type} [LinearOrder Position] {hash : String → Position}
  {points : String → Finset Position}

/-- The primary of a client is the node that owns the client's address, also when there is only one
node. Assumes: there is a healthy node, and the ring is clockwise. -/
theorem primary_dispatch (hclockwise : Clockwise getNode hash points)
    (chs : ConsistentHashScheduler) (lookup : String → String × String) (outcome : Outcome)
    (now : ℕ) (clientIP clientRegion clientISP : String)
    (hhealthy : chs.store.getHealthyNodes now ≠ []) :
    ∃ owner, HashRing.Owns points {member | member ∈ ringMembers (chs.healthyNodes outcome now)}
        (hash clientIP) owner ∧
      primary (chs.dispatch getNode lookup outcome now clientIP clientRegion clientISP).1 =
        some (extractPhysicalID owner) := by
  rcases dispatch_cases hclockwise.returnsMember chs lookup outcome now clientIP clientRegion
    clientISP with ⟨hnone, -⟩ | ⟨owner, howner, hget, endpoints, hresult, hids⟩
  · have hperm := healthyNodes_perm chs outcome now
    rw [hnone] at hperm
    exact absurd hperm.symm.eq_nil hhealthy
  · obtain ⟨owner', hget', howns⟩ :=
      hclockwise _ (List.ne_nil_of_mem howner) clientIP
    obtain rfl := Option.some.inj (hget.symm.trans hget')
    refine ⟨owner, howns, ?_⟩
    rw [hresult]
    cases endpoints with
    | nil => cases hids
    | cons endpoint rest => exact congrArg some (List.cons.inj hids).1

/-- The virtual names on the ring depend on which nodes are healthy. -/
theorem ringMembers_subset {nodes others : List NodeInfo}
    (hids : nodes.map NodeInfo.nodeID ⊆ others.map NodeInfo.nodeID) :
    ringMembers nodes ⊆ ringMembers others := by
  intro virtualID hvirtual
  obtain ⟨id, hid, vn, hvn, rfl⟩ := mem_ringMembers.mp hvirtual
  exact mem_ringMembers.mpr ⟨id, hids hid, vn, hvn, rfl⟩

/-- Between two sets of healthy nodes, the larger of which has a node more, the primary of a client
differs only when it is that node in the larger one: when the node joins, it is the new primary, and
when it leaves, it was the old one. Assumes: the ring is clockwise, and the virtual names share no
point. -/
theorem primary_monotone (hash : String → Position) (points : String → Finset Position)
    (hclockwise : Clockwise getNode hash points) (fewer more : ConsistentHashScheduler)
    (lookup lookup' : String → String × String) (outcome outcome' : Outcome) (now now' : ℕ)
    (clientIP clientRegion clientRegion' clientISP clientISP' x : String)
    (hjoin : ∀ id, id ∈ (more.store.getHealthyNodes now').map NodeInfo.nodeID ↔
      id = x ∨ id ∈ (fewer.store.getHealthyNodes now).map NodeInfo.nodeID)
    (hseparate : {member | member ∈ ringMembers (more.store.getHealthyNodes now')}.PairwiseDisjoint
      points)
    (hchanged :
      primary (more.dispatch getNode lookup' outcome' now' clientIP clientRegion' clientISP').1 ≠
        primary (fewer.dispatch getNode lookup outcome now clientIP clientRegion clientISP).1) :
    primary (more.dispatch getNode lookup' outcome' now' clientIP clientRegion' clientISP').1 =
      some x := by
  have hpermMore := (healthyNodes_perm more outcome' now').map NodeInfo.nodeID
  have hpermFewer := (healthyNodes_perm fewer outcome now).map NodeInfo.nodeID
  have hmore : more.store.getHealthyNodes now' ≠ [] := by
    intro hnone
    exact absurd ((hjoin x).mpr (Or.inl rfl)) (by simp [hnone])
  obtain ⟨owner, howns, hprimary⟩ := primary_dispatch hclockwise more lookup' outcome' now' clientIP
    clientRegion' clientISP' hmore
  obtain ⟨id, hid, vn, hvn, rfl⟩ := mem_ringMembers.mp howns.1
  rw [hprimary, extractPhysicalID_virtualName]
  rw [hprimary, extractPhysicalID_virtualName] at hchanged
  rcases (hjoin id).mp (hpermMore.mem_iff.mp hid) with rfl | hold
  · rfl
  · -- the owner is on the smaller ring too, and owns the address there
    have hfewer : fewer.store.getHealthyNodes now ≠ [] := by
      intro hnone
      exact absurd hold (by simp [hnone])
    obtain ⟨owner, hother, hprimaryFewer⟩ := primary_dispatch hclockwise fewer lookup outcome now
      clientIP clientRegion clientISP hfewer
    have hsubset : ringMembers (fewer.healthyNodes outcome now) ⊆
        ringMembers (more.healthyNodes outcome' now') :=
      ringMembers_subset fun other hother ↦
        hpermMore.mem_iff.mpr ((hjoin other).mpr (Or.inr (hpermFewer.mem_iff.mp hother)))
    have hseparate' : {member | member ∈ ringMembers
        (more.healthyNodes outcome' now')}.PairwiseDisjoint points :=
      hseparate.subset (ringMembers_subset hpermMore.subset)
    rcases howns.eq_or_mem_diff hseparate' hsubset hother with hsame | ⟨-, hnew⟩
    · rw [hprimaryFewer, ← hsame, extractPhysicalID_virtualName] at hchanged
      exact absurd rfl hchanged
    · exact absurd (mem_ringMembers.mpr ⟨id, hpermFewer.mem_iff.mpr hold, vn, hvn, rfl⟩) hnew

end Monotone

/-! ### Enough backups -/

/-- The nodes other than the primary that the keys of the backups lead to. -/
def otherOwners (getNode : List String → String → Option String) (nodes : List NodeInfo)
    (clientIP : String) : Finset String :=
  (probedIDs getNode nodes clientIP).toFinset.filter fun id ↦
    (getNode (ringMembers nodes) clientIP).map extractPhysicalID ≠ some id

/-- The other owners, once the owner of the client's address is known. -/
theorem otherOwners_eq {nodes : List NodeInfo} {clientIP owner : String}
    (hget : getNode (ringMembers nodes) clientIP = some owner) :
    otherOwners getNode nodes clientIP =
      (probedIDs getNode nodes clientIP).toFinset.erase (extractPhysicalID owner) := by
  ext id
  rw [otherOwners, hget, Finset.mem_filter, Finset.mem_erase, and_comm, Option.map_some]
  simp [eq_comm]

/-- The keys of the backups lead to fewer other nodes than there are. Assumes: a key leads to a
member, and the ids of the nodes are distinct. -/
theorem card_probedIDs_erase_le (hmember : ReturnsMember getNode) {nodes : List NodeInfo}
    (clientIP : String) {primaryID : String} (hprimary : primaryID ∈ nodes.map NodeInfo.nodeID)
    (hdistinct : (nodes.map NodeInfo.nodeID).Nodup) :
    ((probedIDs getNode nodes clientIP).toFinset.erase primaryID).card ≤ nodes.length - 1 := by
  have hsubset : (probedIDs getNode nodes clientIP).toFinset.erase primaryID ⊆
      (nodes.map NodeInfo.nodeID).toFinset.erase primaryID := by
    refine Finset.erase_subset_erase primaryID fun id hid ↦ ?_
    exact List.mem_toFinset.mpr
      (probedIDs_subset hmember nodes clientIP (List.mem_toFinset.mp hid))
  have hcard := Finset.card_le_card hsubset
  rwa [Finset.card_erase_of_mem (List.mem_toFinset.mpr hprimary),
    List.toFinset_card_of_nodup hdistinct, List.length_map] at hcard

/-- A dispatch has three endpoints with distinct ids, or one for each node when there are fewer, if
and only if the keys of the backups lead to as many other nodes as that takes. Assumes: there is a
healthy node, and a key leads to a member. -/
theorem backups_iff (getNode : List String → String → Option String)
    (hmember : ReturnsMember getNode) (chs : ConsistentHashScheduler)
    (lookup : String → String × String) (outcome : Outcome) (now : ℕ)
    (clientIP clientRegion clientISP : String) (hhealthy : chs.store.getHealthyNodes now ≠ []) :
    (∃ endpoints, (chs.dispatch getNode lookup outcome now clientIP clientRegion clientISP).1 =
        .ok endpoints ∧ endpoints.length = min 3 (chs.store.getHealthyNodes now).length ∧
          (endpoints.map NodeEndpoint.nodeID).Nodup) ↔
      min 2 ((chs.store.getHealthyNodes now).length - 1) ≤
        (otherOwners getNode (chs.healthyNodes outcome now) clientIP).card := by
  have hperm := healthyNodes_perm chs outcome now
  rw [← hperm.length_eq]
  rcases dispatch_cases hmember chs lookup outcome now clientIP clientRegion clientISP with
    ⟨hnone, -⟩ | ⟨owner, howner, hget, endpoints, hresult, hids⟩
  · rw [hnone] at hperm
    exact absurd hperm.symm.eq_nil hhealthy
  · have hprimary := extractPhysicalID_mem howner
    simp only [hresult, Except.ok.injEq, exists_eq_left']
    rw [← List.length_map, hids, otherOwners_eq hget, List.nodup_cons, List.length_cons]
    have hcard := card_probedIDs_erase_le hmember clientIP hprimary
      ((hperm.map NodeInfo.nodeID).nodup_iff.mpr (chs.store.nodup_getHealthyNodes now))
    obtain ⟨hcollected, hlength, -⟩ := collectBackups_spec
      (probedIDs getNode (chs.healthyNodes outcome now) clientIP)
      (Collected.nil (extractPhysicalID owner))
    rw [List.toFinset_nil, Finset.empty_union] at hlength
    split_ifs with hone
    · simp [hone]
    · rw [hlength, and_iff_left ⟨hcollected.primary_notMem, hcollected.nodup⟩]
      have hpositive : 0 < (chs.healthyNodes outcome now).length := by
        rw [hperm.length_eq]
        exact List.length_pos_of_ne_nil hhealthy
      omega

/-! ### A ring with one name in front -/

/-- The place of a name: one name is in front of all others, which are in the order of strings. -/
def place (front name : String) : Bool ×ₗ String := toLex (decide (name ≠ front), name)

/-- The ring on which every key is before all names. -/
def frontRing (front : String) (members : List String) (_key : String) : Option String :=
  members.argmin fun member ↦ HashRing.clockwise (toLex (false, "")) (place front member)

theorem clockwise_frontRing (front : String) :
    Clockwise (frontRing front) (fun _ ↦ toLex (false, "")) fun member ↦ {place front member} := by
  intro members hmembers key
  obtain ⟨owner, howner⟩ : ∃ owner, frontRing front members key = some owner :=
    Option.ne_none_iff_exists'.mp fun hnone ↦ hmembers (List.argmin_eq_none.mp hnone)
  exact ⟨owner, howner, HashRing.owns_argmin howner⟩

/-- Different names have different places. -/
theorem place_injective (front : String) : Function.Injective (place front) :=
  fun _ _ hsame ↦ congrArg (fun placed ↦ (ofLex placed).2) hsame

/-- A scheduler of healthy nodes with these ids. -/
def edges (ids : List String) : ConsistentHashScheduler :=
  newConsistentHashScheduler (ids.foldl (admitNode 500 0) newMemoryStore)

theorem id_perm (nodes : List NodeInfo) : (id nodes).Perm nodes := List.Perm.refl nodes

/-- A walk in the order of the table. -/
def tableOrder : Outcome := visitingOutcome id id_perm

/-- A witness of `primary_monotone`: a second node joins the only one, and its first name is in
front. -/
theorem primary_monotone_secondNode :
    primary ((edges ["edge__1", "edge__0"]).dispatch (frontRing "edge__0__0") (fun _ ↦ ("r", "i"))
      tableOrder 0 "203.0.113.7" "" "").1 = some "edge__0" := by
  have hmore : ((edges ["edge__1", "edge__0"]).store.getHealthyNodes 0).map NodeInfo.nodeID =
      ["edge__0", "edge__1"] := by decide +kernel
  have hfewer : ((edges ["edge__1"]).store.getHealthyNodes 0).map NodeInfo.nodeID =
      ["edge__1"] := by decide +kernel
  refine primary_monotone _ _ (clockwise_frontRing "edge__0__0") (edges ["edge__1"])
    (edges ["edge__1", "edge__0"]) (fun _ ↦ ("r", "i")) (fun _ ↦ ("r", "i")) tableOrder tableOrder
    0 0 "203.0.113.7" "" "" "" "" "edge__0" ?_ ?_ ?_
  · intro id
    rw [hmore, hfewer, List.mem_cons]
  · exact fun member _ other _ hne ↦
      Finset.disjoint_singleton.mpr ((place_injective "edge__0__0").ne hne)
  · decide +kernel

/-- A witness of `backups_iff`: two nodes. -/
theorem backups_iff_twoNodes :
    (∃ endpoints, ((edges ["edge-2", "edge-1"]).dispatch (frontRing "edge-1__0")
        (fun _ ↦ ("r", "i")) tableOrder 0 "203.0.113.7" "" "").1 = .ok endpoints ∧
        endpoints.length = min 3 ((edges ["edge-2", "edge-1"]).store.getHealthyNodes 0).length ∧
          (endpoints.map NodeEndpoint.nodeID).Nodup) ↔
      min 2 (((edges ["edge-2", "edge-1"]).store.getHealthyNodes 0).length - 1) ≤
        (otherOwners (frontRing "edge-1__0")
          ((edges ["edge-2", "edge-1"]).healthyNodes tableOrder 0) "203.0.113.7").card :=
  backups_iff (frontRing "edge-1__0") (clockwise_frontRing "edge-1__0").returnsMember
    (edges ["edge-2", "edge-1"]) (fun _ ↦ ("r", "i")) tableOrder 0 "203.0.113.7" "" ""
    (by decide +kernel)

/-- The client's address and both keys of a backup lead to the name in front, so the other node is
no backup. -/
theorem backups_counterexample :
    Clockwise (frontRing "edge-1__0") (fun _ ↦ toLex (false, ""))
        (fun member ↦ {place "edge-1__0" member}) ∧
      ((edges ["edge-2", "edge-1"]).store.getHealthyNodes 0).length = 2 ∧
      ¬ ∃ endpoints, ((edges ["edge-2", "edge-1"]).dispatch (frontRing "edge-1__0")
          (fun _ ↦ ("r", "i")) tableOrder 0 "203.0.113.7" "" "").1 = .ok endpoints ∧
        endpoints.length = min 3 ((edges ["edge-2", "edge-1"]).store.getHealthyNodes 0).length ∧
          (endpoints.map NodeEndpoint.nodeID).Nodup := by
  have hnodes : ((edges ["edge-2", "edge-1"]).store.getHealthyNodes 0).length = 2 := by
    decide +kernel
  have hids : (((edges ["edge-2", "edge-1"]).dispatch (frontRing "edge-1__0") (fun _ ↦ ("r", "i"))
      tableOrder 0 "203.0.113.7" "" "").1.toOption.map (List.map NodeEndpoint.nodeID)) =
        some ["edge-1"] := by
    decide +kernel
  refine ⟨clockwise_frontRing "edge-1__0", hnodes, ?_⟩
  rintro ⟨endpoints, hresult, hlength, -⟩
  rw [hresult] at hids
  have hone := congrArg List.length (Option.some.inj hids)
  rw [List.length_map, hlength, hnodes] at hone
  exact absurd hone (by decide)

end LiveCDN.Controller.ConsistentHash
