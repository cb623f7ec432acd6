import LiveCDN.Agent.GoRelay

/-!
# The clients of the Go relay

`internal/agent/relay.go`: the pull loop, any number of connections and their writers, and `Stop`,
in any order of their sections (`step`). A connection is listed, reads the newest playlist and puts
it into its channel in three sections, and the pull loop broadcasts the newest playlist at the end
of a turn, so a client can get one playlist twice or an older one behind a newer one.

The playlists of each client come in the order in which they were published, each once, exactly when
every broadcast finds no client that has joined with this playlist, and every client that joins has
been broadcast no playlist as new as the one it has read (`inOrder_iff`).

Scope. A write channel holds segments for the frames made of them, and `marshals` says of which
segments a frame is made. `pullLoop` can take a tick behind `Stop` as well, as `select` chooses
among what is ready. Log lines are left out; a stream key has the eight bytes that they slice, else
no call gets the relay (`GoRelayTable`).
-/

set_option autoImplicit false
set_option relaxedAutoImplicit false

namespace LiveCDN.Agent.GoRelayClients

open Library.GuardedRun GoRelay

/-! ### Connections -/

/-- A playlist that was read from the buffer, and how many had been published by then. -/
structure Frame where
  segment : Segment
  place : ℕ
  deriving DecidableEq

/-- How far `HandleWebSocket` is: its client is listed, the newest playlist has been read,
`AddClient` has returned, or the deferred `RemoveClient` has been called. -/
inductive Handler
  | listed
  | read (newest : Option Frame)
  | returned
  | left
  deriving DecidableEq

/-- How far `clientWriter` is: it goes on, a write has failed, or it has returned. -/
inductive Writer
  | running
  | failed
  | returned
  deriving DecidableEq

/-- `ClientConn`, with what has been written to its connection. -/
structure ClientConn where
  id : String
  writeCh : List Frame
  /-- `CloseCh` is closed. -/
  closed : Bool
  written : List Frame
  handler : Handler
  writer : Writer
  deriving DecidableEq

/-- A client as `AddClient` makes it. -/
def ClientConn.new (id : String) : ClientConn := ⟨id, [], false, [], .listed, .running⟩

/-- The frames that a client was given and that were not lost, in their order. -/
def ClientConn.received (client : ClientConn) : List Frame := client.written ++ client.writeCh

/-- A channel of 64 frames has room. -/
def ClientConn.HasRoom (client : ClientConn) : Prop := client.writeCh.length < 64

instance decidableHasRoom (client : ClientConn) : Decidable client.HasRoom :=
  inferInstanceAs (Decidable (client.writeCh.length < 64))

/-- A frame is put into the channel of a client, unless it is full. -/
def ClientConn.offer (client : ClientConn) (frame : Frame) : ClientConn :=
  if client.HasRoom then { client with writeCh := client.writeCh ++ [frame] } else client

/-! ### The relay -/

/-- A relay: its pull loop with the fetches still to be made in this turn, whether the turn ends
with a broadcast, the number of playlists published, and the clients by the order of their arrival
and as they are listed. -/
structure State where
  pull : PullState
  fetches : List Fetch
  broadcasts : Bool
  published : ℕ
  conns : List ClientConn
  clients : String → Option ℕ
  stopped : Bool
  panicked : Bool

/-- A relay that has been started. -/
def State.initial : State := ⟨.initial, [], false, 0, [], fun _ ↦ none, false, false⟩

/-- A section of one of the routines. -/
inductive Action
  | tick (next : Poll)
  | fetch
  | broadcast
  | join (id : String)
  | read (index : ℕ)
  | sendRecent (index : ℕ)
  | write (index : ℕ) (succeeds : Bool)
  | writerReturns (index : ℕ)
  | leave (index : ℕ)
  | stop

variable (relay : Relay) (marshals : Segment → Bool)

/-- The frame of the newest playlist. -/
def State.newestFrame (st : State) : Option Frame :=
  (st.pull.getLatestM3U8.filter marshals).map fun segment ↦ ⟨segment, st.published⟩

/-- A client is listed. -/
def State.lists (st : State) (index : ℕ) (client : ClientConn) : Bool :=
  decide (st.clients client.id = some index)

/-- A frame is put into the channels of the listed clients. -/
def State.offerAll (st : State) (frame : Frame) : State :=
  { st with conns := st.conns.mapIdx fun index client ↦
      if st.lists index client then client.offer frame else client }

/-- `CloseCh` of a client is closed. -/
def State.close (st : State) (index : ℕ) : State :=
  match st.conns[index]? with
  | none => st
  | some client =>
    if client.closed then { st with panicked := true }
    else { st with conns := st.conns.set index { client with closed := true } }

/-- `RemoveClient`. -/
def State.removeClient (st : State) (id : String) : State :=
  match st.clients id with
  | none => st
  | some index => { st.close index with clients := Function.update st.clients id none }

/-- `Stop`: every listed client is closed. -/
def State.stop (st : State) : State :=
  if st.stopped then { st with panicked := true }
  else
    { st with
      stopped := true
      panicked := st.conns.zipIdx.any fun conn ↦ st.lists conn.2 conn.1 && conn.1.closed
      conns := st.conns.mapIdx fun index client ↦
        if st.lists index client then { client with closed := true } else client
      clients := fun _ ↦ none }

/-- A section of the routines of a client. -/
def State.withClient (st : State) (index : ℕ) (client : ClientConn) : State :=
  { st with conns := st.conns.set index client }

/-- The next section of `clientWriter`. -/
def writeNext (st : State) (index : ℕ) (client : ClientConn) (succeeds : Bool) : State :=
  match client.writer with
  | .running =>
    match client.writeCh with
    | [] => st
    | frame :: rest =>
      if succeeds then
        st.withClient index { client with writeCh := rest, written := client.written ++ [frame] }
      else st.withClient index { client with writeCh := rest, writer := .failed }
  | .failed => (st.withClient index { client with writer := .returned }).removeClient client.id
  | .returned => st

/-- One step. A relay that has panicked does nothing more. -/
def step (st : State) (action : Action) : State :=
  if st.panicked then st
  else
    match action with
    | .tick next =>
      if st.fetches ≠ [] ∨ st.broadcasts = true then st
      else
        let published := (playlistSegment relay st.pull next).isSome
        { st with
          pull := (openPoll relay st.pull next).1
          fetches := (openPoll relay st.pull next).2
          broadcasts := published
          published := if published then st.published + 1 else st.published }
    | .fetch =>
      match st.fetches with
      | [] => st
      | fetch :: fetches => { st with pull := pullSegment relay st.pull fetch, fetches := fetches }
    | .broadcast =>
      if st.fetches ≠ [] ∨ st.broadcasts = false then st
      else
        let st := { st with broadcasts := false }
        match st.newestFrame marshals with
        | none => st
        | some frame => st.offerAll frame
    | .join id =>
      { st with
        conns := st.conns ++ [ClientConn.new id]
        clients := Function.update st.clients id (some st.conns.length) }
    | .read index =>
      match st.conns[index]? with
      | none => st
      | some client =>
        if client.handler = .listed then
          st.withClient index { client with handler := .read (st.newestFrame marshals) }
        else st
    | .sendRecent index =>
      match st.conns[index]? with
      | none => st
      | some client =>
        match client.handler with
        | .read none => st.withClient index { client with handler := .returned }
        | .read (some frame) =>
          st.withClient index { client.offer frame with handler := .returned }
        | _ => st
    | .write index succeeds =>
      match st.conns[index]? with
      | none => st
      | some client => writeNext st index client succeeds
    | .writerReturns index =>
      match st.conns[index]? with
      | none => st
      | some client =>
        if client.writer = .running ∧ client.closed = true then
          st.withClient index { client with writer := .returned }
        else st
    | .leave index =>
      match st.conns[index]? with
      | none => st
      | some client =>
        if client.handler = .returned then
          (st.withClient index { client with handler := .left }).removeClient client.id
        else st
    | .stop => st.stop

/-! ### Properties -/

/-- The client that has arrived at a place. -/
abbrev State.Has (st : State) (index : ℕ) (client : ClientConn) : Prop :=
  st.conns[index]? = some client

/-- A client gets its playlists in the order in which they were published, each once. -/
def ClientConn.Ordered (client : ClientConn) : Prop :=
  client.received.Pairwise fun earlier later ↦ earlier.place < later.place

/-- All clients do. -/
def InOrder (st : State) : Prop :=
  ∀ index client, st.Has index client → client.Ordered

/-- A section that gives a client no playlist twice and none behind a newer one: a broadcast finds
no client that has got the same playlist, and a client that joins has got older ones only, unless
its channel is full. -/
def Fresh (st : State) (action : Action) : Prop :=
  st.panicked = false →
    match action with
    | .broadcast => st.fetches = [] → st.broadcasts = true → ∀ frame ∈ st.newestFrame marshals,
        ∀ index client, st.Has index client → st.lists index client = true →
          client.HasRoom → ∀ earlier ∈ client.received, earlier.place ≠ frame.place
    | .sendRecent index => ∀ client, st.Has index client →
        ∀ frame, client.handler = .read (some frame) → client.HasRoom →
          ∀ earlier ∈ client.received, earlier.place < frame.place
    | _ => True

/-! ### What a client gets -/

variable {relay marshals} {st : State} {index : ℕ} {client : ClientConn}

theorem received_offer (client : ClientConn) (frame : Frame) :
    (client.offer frame).received =
      if client.HasRoom then client.received ++ [frame] else client.received := by
  unfold ClientConn.offer
  split_ifs
  · exact (List.append_assoc _ _ _).symm
  · rfl

/-- A frame that is put into a channel keeps the order exactly when it is newer than those that the
client has got, or the channel is full. Assumes: the client has got its frames in order. -/
theorem ordered_offer_iff (hclient : client.Ordered) (frame : Frame) :
    (client.offer frame).Ordered ↔
      (client.HasRoom → ∀ earlier ∈ client.received, earlier.place < frame.place) := by
  rw [ClientConn.Ordered, received_offer]
  split_ifs with hroom
  · rw [List.pairwise_append, forall_prop_of_true hroom]
    simp only [List.mem_singleton, forall_eq]
    exact ⟨fun h ↦ h.2.2, fun h ↦ ⟨hclient, List.pairwise_singleton _ _, h⟩⟩
  · exact iff_of_true hclient fun h ↦ (hroom h).elim

/-- The place of the newest playlist is the last one. -/
theorem place_newestFrame {frame : Frame} (hframe : st.newestFrame marshals = some frame) :
    frame.place = st.published := by
  obtain ⟨segment, -, rfl⟩ := Option.map_eq_some_iff.mp hframe
  rfl

/-- The clients have got the same and have joined as far. -/
def SameFrames (st after : State) : Prop :=
  ∀ index client, after.Has index client → ∃ before, st.Has index before ∧
    client.received = before.received ∧ client.handler = before.handler

/-- What a section keeps of the clients: those that were there have got a part of what they had, the
others have got nothing, and a playlist that was not read before lies within a bound. -/
def Keeps (bound : ℕ) (st after : State) : Prop :=
  ∀ index client, after.Has index client →
    client.received = [] ∧ client.handler = .listed ∨
      ∃ before, st.Has index before ∧ client.received.Sublist before.received ∧
        ∀ frame, client.handler = .read (some frame) →
          before.handler = .read (some frame) ∨ frame.place ≤ bound

variable {bound : ℕ} {after last : State}

theorem SameFrames.of_conns (hconns : after.conns = st.conns) : SameFrames st after := by
  intro index client hclient
  rw [State.Has, hconns] at hclient
  exact ⟨client, hclient, rfl, rfl⟩

theorem Keeps.trans_same (hkeeps : Keeps bound st after) (hsame : SameFrames after last) :
    Keeps bound st last := by
  intro index client hclient
  obtain ⟨middle, hmiddle, hreceived, hhandler⟩ := hsame index client hclient
  rw [hreceived, hhandler]
  exact hkeeps index middle hmiddle

theorem keeps_refl (st : State) : Keeps bound st st :=
  fun _ client hclient ↦
    Or.inr ⟨client, hclient, List.Sublist.refl _, fun _ hread ↦ Or.inl hread⟩

theorem Keeps.of_conns (hconns : after.conns = st.conns) : Keeps bound st after :=
  (keeps_refl st).trans_same (.of_conns hconns)

theorem Keeps.inOrder (hkeeps : Keeps bound st after) (hst : InOrder st) : InOrder after := by
  intro index client hclient
  rcases hkeeps index client hclient with ⟨hnone, -⟩ | ⟨before, hbefore, hpart, -⟩
  · rw [ClientConn.Ordered, hnone]
    exact List.Pairwise.nil
  · exact (hst index before hbefore).sublist hpart

/-- The clients after one of them has gone on. -/
theorem conns_withClient (hclient : st.Has index client) (moved : ClientConn) (other : ℕ) :
    (st.withClient index moved).conns[other]? =
      if index = other then some moved else st.conns[other]? := by
  have hinside : index < st.conns.length := (List.getElem?_eq_some_iff.mp hclient).1
  rw [State.withClient, List.getElem?_set]
  split_ifs <;> rfl

theorem keeps_withClient (hclient : st.Has index client) {moved : ClientConn}
    (hpart : moved.received.Sublist client.received)
    (hread : ∀ frame, moved.handler = .read (some frame) →
      client.handler = .read (some frame) ∨ frame.place ≤ bound) :
    Keeps bound st (st.withClient index moved) := by
  intro other found hfound
  rw [State.Has, conns_withClient hclient] at hfound
  split_ifs at hfound with hother
  · obtain rfl := Option.some.inj hfound
    exact Or.inr ⟨client, hother ▸ hclient, hpart, hread⟩
  · exact Or.inr ⟨found, hfound, List.Sublist.refl _, fun _ h ↦ Or.inl h⟩

theorem sameFrames_close (st : State) (index : ℕ) : SameFrames st (st.close index) := by
  unfold State.close
  cases hclient : st.conns[index]? with
  | none => exact .of_conns rfl
  | some client =>
    dsimp only
    split_ifs
    · exact .of_conns rfl
    · intro other found hfound
      have hset : (st.withClient index { client with closed := true }).Has other found := hfound
      rw [State.Has, conns_withClient hclient] at hset
      split_ifs at hset with hother
      · obtain rfl := Option.some.inj hset
        exact ⟨client, hother ▸ hclient, rfl, rfl⟩
      · exact ⟨found, hset, rfl, rfl⟩

theorem sameFrames_removeClient (st : State) (id : String) :
    SameFrames st (st.removeClient id) := by
  unfold State.removeClient
  cases st.clients id with
  | none => exact .of_conns rfl
  | some index => exact sameFrames_close st index

theorem sameFrames_stop (st : State) : SameFrames st st.stop := by
  unfold State.stop
  split_ifs
  · exact .of_conns rfl
  · intro index client hclient
    obtain ⟨before, hbefore, rfl⟩ : ∃ before, st.Has index before ∧
        (if st.lists index before = true then { before with closed := true } else before) =
          client := by
      rw [State.Has, List.getElem?_mapIdx, Option.map_eq_some_iff] at hclient
      exact hclient
    refine ⟨before, hbefore, ?_⟩
    split_ifs <;> exact ⟨rfl, rfl⟩

theorem keeps_writeNext (hclient : st.Has index client) (succeeds : Bool) :
    Keeps bound st (writeNext st index client succeeds) := by
  unfold writeNext
  cases client.writer with
  | running =>
    dsimp only
    cases hqueue : client.writeCh with
    | nil => exact .of_conns rfl
    | cons frame rest =>
      dsimp only
      split_ifs
      · refine keeps_withClient hclient ?_ fun _ h ↦ Or.inl h
        rw [ClientConn.received, ClientConn.received, hqueue, List.append_assoc]
        exact List.Sublist.refl _
      · refine keeps_withClient hclient ?_ fun _ h ↦ Or.inl h
        rw [ClientConn.received, ClientConn.received, hqueue]
        exact (List.sublist_cons_self frame rest).append_left _
  | failed =>
    refine Keeps.trans_same (keeps_withClient hclient ?_ ?_) (sameFrames_removeClient _ client.id)
    · exact List.Sublist.refl _
    · exact fun _ hread ↦ Or.inl hread
  | returned => exact .of_conns rfl

/-- A section that gives clients a frame. -/
def Action.gives : Action → Bool
  | .broadcast => true
  | .sendRecent _ => true
  | _ => false

/-- A section that gives no client a frame keeps what the clients have got. -/
theorem keeps_step (st : State) {action : Action} (hgives : action.gives = false) :
    Keeps st.published st (step relay marshals st action) := by
  unfold step
  by_cases hpanicked : st.panicked = true
  · rw [if_pos hpanicked]
    exact .of_conns rfl
  · rw [if_neg hpanicked]
    cases action with
    | broadcast => exact Bool.noConfusion hgives
    | sendRecent index => exact Bool.noConfusion hgives
    | tick next =>
      dsimp only
      split_ifs <;> exact .of_conns rfl
    | fetch =>
      dsimp only
      cases st.fetches <;> exact .of_conns rfl
    | join id =>
      intro index client hclient
      rw [State.Has, List.getElem?_append] at hclient
      split_ifs at hclient
      · exact keeps_refl st index client hclient
      · left
        rw [List.mem_singleton.mp (List.mem_of_getElem? hclient)]
        exact ⟨rfl, rfl⟩
    | read index =>
      dsimp only
      cases hclient : st.conns[index]? with
      | none => exact .of_conns rfl
      | some client =>
        dsimp only
        split_ifs
        · refine keeps_withClient hclient (List.Sublist.refl _) fun frame h ↦ Or.inr ?_
          exact (place_newestFrame (Handler.read.inj h)).le
        · exact .of_conns rfl
    | write index succeeds =>
      dsimp only
      cases hclient : st.conns[index]? with
      | none => exact .of_conns rfl
      | some client => exact keeps_writeNext hclient succeeds
    | writerReturns index =>
      dsimp only
      cases hclient : st.conns[index]? with
      | none => exact .of_conns rfl
      | some client =>
        dsimp only
        split_ifs
        · exact keeps_withClient hclient (List.Sublist.refl _) fun _ h ↦ Or.inl h
        · exact .of_conns rfl
    | leave index =>
      dsimp only
      cases hclient : st.conns[index]? with
      | none => exact .of_conns rfl
      | some client =>
        dsimp only
        split_ifs
        · refine Keeps.trans_same (keeps_withClient hclient ?_ fun _ h ↦ Handler.noConfusion h)
            (sameFrames_removeClient _ client.id)
          exact List.Sublist.refl _
        · exact .of_conns rfl
    | stop => exact (keeps_refl st).trans_same (sameFrames_stop st)

/-! ### The order of the playlists -/

/-- No client has got or read a playlist that has not been published. -/
def Bounded (st : State) : Prop :=
  ∀ index client, st.Has index client →
    (∀ frame ∈ client.received, frame.place ≤ st.published) ∧
      ∀ frame, client.handler = .read (some frame) → frame.place ≤ st.published

theorem Keeps.bounded (hkeeps : Keeps st.published st after) (hle : st.published ≤ after.published)
    (hst : Bounded st) : Bounded after := by
  intro index client hclient
  rcases hkeeps index client hclient with ⟨hnone, hlisted⟩ | ⟨before, hbefore, hpart, hread⟩
  · rw [hnone, hlisted]
    exact ⟨fun _ hframe ↦ absurd hframe List.not_mem_nil, fun _ hread ↦ Handler.noConfusion hread⟩
  · refine ⟨fun frame hframe ↦ ?_, fun frame hframe ↦ ?_⟩
    · exact ((hst index before hbefore).1 frame (hpart.subset hframe)).trans hle
    · rcases hread frame hframe with hold | hnew
      · exact ((hst index before hbefore).2 frame hold).trans hle
      · exact hnew.trans hle

theorem published_close (st : State) (index : ℕ) : (st.close index).published = st.published := by
  unfold State.close
  cases st.conns[index]? with
  | none => rfl
  | some client =>
    dsimp only
    split_ifs <;> rfl

theorem published_removeClient (st : State) (id : String) :
    (st.removeClient id).published = st.published := by
  unfold State.removeClient
  cases st.clients id with
  | none => rfl
  | some index => exact published_close st index

theorem published_writeNext (st : State) (index : ℕ) (client : ClientConn) (succeeds : Bool) :
    (writeNext st index client succeeds).published = st.published := by
  unfold writeNext
  cases client.writer with
  | running =>
    dsimp only
    cases client.writeCh with
    | nil => rfl
    | cons frame rest =>
      dsimp only
      split_ifs <;> rfl
  | failed => exact published_removeClient _ _
  | returned => rfl

/-- The clients after a broadcast. -/
theorem has_offerAll_iff {frame : Frame} {found : ClientConn} :
    (st.offerAll frame).Has index found ↔
      ∃ client, st.Has index client ∧
        (if st.lists index client = true then client.offer frame else client) = found := by
  rw [State.Has, State.offerAll, List.getElem?_mapIdx, Option.map_eq_some_iff]

/-- A broadcast keeps the order exactly when no listed client with room has got the playlist.
Assumes: the clients have got playlists that were published, in order. -/
theorem inOrder_offerAll_iff (hst : InOrder st) (hbounded : Bounded st) {frame : Frame}
    (hframe : st.newestFrame marshals = some frame) :
    InOrder (st.offerAll frame) ↔
      ∀ index client, st.Has index client → st.lists index client = true → client.HasRoom →
        ∀ earlier ∈ client.received, earlier.place ≠ frame.place := by
  constructor
  · intro hafter index client hclient hlists hroom earlier hearlier
    have hoffered : (client.offer frame).Ordered :=
      hafter index _ (has_offerAll_iff.mpr ⟨client, hclient, if_pos hlists⟩)
    exact ((ordered_offer_iff (hst index client hclient) frame).mp hoffered hroom earlier
      hearlier).ne
  · intro hnew index found hfound
    obtain ⟨client, hclient, rfl⟩ := has_offerAll_iff.mp hfound
    split_ifs with hlists
    · refine (ordered_offer_iff (hst index client hclient) frame).mpr ?_
      intro hroom earlier hearlier
      have hle : earlier.place ≤ st.published := (hbounded index client hclient).1 earlier hearlier
      rw [← place_newestFrame hframe] at hle
      exact lt_of_le_of_ne hle (hnew index client hclient hlists hroom earlier hearlier)
    · exact hst index client hclient

theorem mem_received_offer {frame other : Frame} (hother : other ∈ (client.offer frame).received) :
    other ∈ client.received ∨ other = frame := by
  rw [received_offer] at hother
  split_ifs at hother
  · exact (List.mem_append.mp hother).imp_right List.mem_singleton.mp
  · exact Or.inl hother

theorem bounded_offerAll (hbounded : Bounded st) {frame : Frame}
    (hframe : st.newestFrame marshals = some frame) : Bounded (st.offerAll frame) := by
  intro index found hfound
  obtain ⟨client, hclient, rfl⟩ := has_offerAll_iff.mp hfound
  obtain ⟨hreceived, hread⟩ := hbounded index client hclient
  have hhandler : (client.offer frame).handler = client.handler := by
    unfold ClientConn.offer
    split_ifs <;> rfl
  split_ifs
  · refine ⟨fun other hother ↦ ?_, fun other hother ↦ hread other (hhandler ▸ hother)⟩
    rcases mem_received_offer hother with hold | rfl
    · exact hreceived other hold
    · exact (place_newestFrame hframe).le
  · exact ⟨hreceived, hread⟩

/-- The frames of a client behind the end of `AddClient`. -/
theorem inOrder_withClient_iff (hst : InOrder st) (hclient : st.Has index client)
    (moved : ClientConn) : InOrder (st.withClient index moved) ↔ moved.Ordered := by
  constructor
  · intro hafter
    refine hafter index moved ?_
    rw [State.Has, conns_withClient hclient, if_pos rfl]
  · intro hmoved other found hfound
    rw [State.Has, conns_withClient hclient] at hfound
    split_ifs at hfound
    · exact Option.some.inj hfound ▸ hmoved
    · exact hst other found hfound

/-- No section takes back a playlist. -/
theorem published_le_step (st : State) (action : Action) :
    st.published ≤ (step relay marshals st action).published := by
  unfold step
  by_cases hpanicked : st.panicked = true
  · rw [if_pos hpanicked]
  · rw [if_neg hpanicked]
    cases action with
    | tick next =>
      dsimp only
      split_ifs
      · exact le_rfl
      · exact Nat.le_succ _
      · exact le_rfl
    | fetch =>
      dsimp only
      cases st.fetches <;> exact le_rfl
    | broadcast =>
      dsimp only
      split_ifs
      · exact le_rfl
      · cases State.newestFrame marshals { st with broadcasts := false } <;> exact le_rfl
    | join id => exact le_rfl
    | read index =>
      dsimp only
      cases st.conns[index]? with
      | none => exact le_rfl
      | some client =>
        dsimp only
        split_ifs <;> exact le_rfl
    | sendRecent index =>
      dsimp only
      cases st.conns[index]? with
      | none => exact le_rfl
      | some client =>
        dsimp only
        cases client.handler with
        | read newest => cases newest <;> exact le_rfl
        | _ => exact le_rfl
    | write index succeeds =>
      dsimp only
      cases st.conns[index]? with
      | none => exact le_rfl
      | some client => exact (published_writeNext st index client succeeds).ge
    | writerReturns index =>
      dsimp only
      cases st.conns[index]? with
      | none => exact le_rfl
      | some client =>
        dsimp only
        split_ifs <;> exact le_rfl
    | leave index =>
      dsimp only
      cases st.conns[index]? with
      | none => exact le_rfl
      | some client =>
        dsimp only
        split_ifs
        · exact (published_removeClient (st.withClient index _) client.id).ge
        · exact le_rfl
    | stop =>
      dsimp only
      unfold State.stop
      split_ifs <;> exact le_rfl

theorem bounded_withClient (hbounded : Bounded st) (hclient : st.Has index client)
    {moved : ClientConn} (hreceived : ∀ frame ∈ moved.received, frame.place ≤ st.published)
    (hread : ∀ frame, moved.handler = .read (some frame) → frame.place ≤ st.published) :
    Bounded (st.withClient index moved) := by
  intro other found hfound
  rw [State.Has, conns_withClient hclient] at hfound
  split_ifs at hfound
  · obtain rfl := Option.some.inj hfound
    exact ⟨hreceived, hread⟩
  · exact hbounded other found hfound

theorem bounded_step (hbounded : Bounded st) (action : Action) :
    Bounded (step relay marshals st action) := by
  by_cases hgives : action.gives = false
  · exact (keeps_step st hgives).bounded (published_le_step st action) hbounded
  unfold step
  by_cases hpanicked : st.panicked = true
  · rw [if_pos hpanicked]
    exact hbounded
  rw [if_neg hpanicked]
  cases action with
  | broadcast =>
    dsimp only
    split_ifs
    · exact hbounded
    · have hsame : Bounded { st with broadcasts := false } := hbounded
      cases hframe : State.newestFrame marshals { st with broadcasts := false } with
      | none => exact hbounded
      | some frame => exact bounded_offerAll hsame hframe
  | sendRecent index =>
    dsimp only
    cases hclient : st.conns[index]? with
    | none => exact hbounded
    | some client =>
      dsimp only
      obtain ⟨hreceived, hread⟩ := hbounded index client hclient
      cases hhandler : client.handler with
      | read newest =>
        cases newest with
        | none =>
          exact bounded_withClient hbounded hclient hreceived fun _ h ↦ Handler.noConfusion h
        | some frame =>
          refine bounded_withClient hbounded hclient (fun other hother ↦ ?_)
            fun _ h ↦ Handler.noConfusion h
          rcases mem_received_offer hother with hold | rfl
          · exact hreceived other hold
          · exact hread other hhandler
      | _ => exact hbounded
  | _ => exact (hgives rfl).elim

/-- A section keeps the order exactly when it is fresh. Assumes: the clients have got playlists that
were published, in order. -/
theorem inOrder_step_iff (hst : InOrder st) (hbounded : Bounded st) (action : Action) :
    InOrder (step relay marshals st action) ↔ Fresh marshals st action := by
  by_cases hpanicked : st.panicked = true
  · unfold step Fresh
    rw [if_pos hpanicked]
    exact iff_of_true hst fun h ↦ Bool.noConfusion (hpanicked.symm.trans h)
  have hgoes : st.panicked = false := Bool.eq_false_of_not_eq_true hpanicked
  cases action with
  | broadcast =>
    unfold step Fresh
    rw [if_neg hpanicked, forall_prop_of_true hgoes]
    dsimp only
    by_cases hidle : st.fetches ≠ [] ∨ st.broadcasts = false
    · rw [if_pos hidle]
      refine iff_of_true hst fun hfetches hbroadcasts ↦ ?_
      rcases hidle with hbusy | hquiet
      · exact (hbusy hfetches).elim
      · exact Bool.noConfusion (hquiet.symm.trans hbroadcasts)
    · obtain ⟨hfetches, hbroadcasts⟩ := not_or.mp hidle
      rw [if_neg hidle, forall_prop_of_true (not_not.mp hfetches),
        forall_prop_of_true (Bool.eq_true_of_not_eq_false hbroadcasts)]
      have hsame : State.newestFrame marshals { st with broadcasts := false } =
        st.newestFrame marshals := rfl
      rw [hsame]
      cases hframe : st.newestFrame marshals with
      | none => exact iff_of_true hst nofun
      | some frame =>
        have hbefore : InOrder { st with broadcasts := false } := hst
        have hwithin : Bounded { st with broadcasts := false } := hbounded
        simp only [Option.mem_some_iff, forall_eq']
        exact inOrder_offerAll_iff hbefore hwithin (hsame.trans hframe)
  | sendRecent index =>
    unfold step Fresh
    rw [if_neg hpanicked, forall_prop_of_true hgoes]
    dsimp only
    cases hclient : st.conns[index]? with
    | none => exact iff_of_true hst fun _ h ↦ (Option.some_ne_none _ (h.symm.trans hclient)).elim
    | some client =>
      have hordered : client.Ordered := hst index client hclient
      dsimp only
      have hfresh : (∀ other, st.Has index other → ∀ frame, other.handler = .read (some frame) →
          other.HasRoom → ∀ earlier ∈ other.received, earlier.place < frame.place) ↔
            ∀ frame, client.handler = .read (some frame) → client.HasRoom →
              ∀ earlier ∈ client.received, earlier.place < frame.place :=
        ⟨fun h ↦ h client hclient, fun h other hother ↦
          Option.some.inj (hclient.symm.trans hother) ▸ h⟩
      rw [hfresh]
      cases hhandler : client.handler with
      | read newest =>
        cases newest with
        | none =>
          refine iff_of_true ((inOrder_withClient_iff hst hclient _).mpr hordered) fun other h ↦ ?_
          exact (Option.some_ne_none other (Handler.read.inj h).symm).elim
        | some frame =>
          dsimp only
          rw [inOrder_withClient_iff hst hclient]
          refine (ordered_offer_iff hordered frame).trans
            ⟨fun h other heq ↦ ?_, fun h ↦ h frame rfl⟩
          rw [← Option.some.inj (Handler.read.inj heq)]
          exact h
      | _ => exact iff_of_true hst fun _ h ↦ Handler.noConfusion h
  | _ => exact iff_of_true ((keeps_step st rfl).inOrder hst) fun _ ↦ trivial

/-- In every state each client has got its playlists in the order in which they were published, each
once, exactly when every section is fresh. -/
theorem inOrder_iff (relay : Relay) (marshals : Segment → Bool) (actions : List Action) :
    (∀ taken, taken <+: actions → InOrder (run (step relay marshals) .initial taken)) ↔
      EachStepMeets (step relay marshals) (Fresh marshals) .initial actions := by
  have hinOrder : InOrder .initial := nofun
  have hbounded : Bounded .initial := nofun
  rw [forall_prefix_iff, and_iff_right hinOrder]
  exact eachStepMeets_iff_of_kept (step relay marshals)
    (fun st action (hst : Bounded st ∧ InOrder st) hafter ↦ ⟨bounded_step hst.1 action, hafter⟩)
    (fun st action hst ↦ inOrder_step_iff hst.2 hst.1 action) ⟨hbounded, hinOrder⟩ actions

end LiveCDN.Agent.GoRelayClients
