import LiveCDN.Agent.GoRelayClients

/-!
# The client table of the Go relay

`AddClient`, `RemoveClient` and `Stop` of `internal/agent/relay.go`, among the other sections of
`GoRelayClients`. A listed client is there under its id and its channel is open (`Sound`), so no
order of the sections closes a channel twice, unless `Stop` is called twice (`closesTwice_iff`), and
a client that is no longer listed has been told so exactly when no client joins with an id that is
listed (`closes_iff`).
-/

set_option autoImplicit false
set_option relaxedAutoImplicit false

namespace LiveCDN.Agent.GoClientTable

open Library.GuardedRun GoRelay GoRelayClients

/-! ### Properties -/

/-- Every client that is not listed has been told so. -/
def Closes (st : State) : Prop :=
  ∀ index client, st.Has index client → st.lists index client = false →
    client.closed = true

/-- A client that joins has an id that is not listed. -/
def NewId (st : State) : Action → Prop
  | .join id => st.panicked = false → st.clients id = none
  | _ => True

/-! ### Sections that leave the table alone -/

variable {relay : Relay} {marshals : Segment → Bool} {st after : State} {index : ℕ}
  {client : ClientConn}

/-- Every listed client is there under its id, and has not been told to stop. -/
def Sound (st : State) : Prop :=
  ∀ id index, st.clients id = some index →
    ∃ client, st.Has index client ∧ client.id = id ∧ client.closed = false

/-- The id of a client, and whether it has been told to stop. -/
def tag (client : ClientConn) : String × Bool := (client.id, client.closed)

/-- A section that lists, removes and closes no client. -/
structure Idle (st after : State) : Prop where
  clients : after.clients = st.clients
  stopped : after.stopped = st.stopped
  panicked : after.panicked = st.panicked
  tags : ∀ index : ℕ, after.conns[index]?.map tag = st.conns[index]?.map tag

theorem Idle.symm (hidle : Idle st after) : Idle after st :=
  ⟨hidle.clients.symm, hidle.stopped.symm, hidle.panicked.symm, fun index ↦ (hidle.tags index).symm⟩

theorem Idle.exists_has (hidle : Idle st after) (hclient : st.Has index client) :
    ∃ found, after.Has index found ∧ found.id = client.id ∧ found.closed = client.closed := by
  have htags := hidle.tags index
  rw [hclient, Option.map_some] at htags
  obtain ⟨found, hfound, htag⟩ := Option.map_eq_some_iff.mp htags
  exact ⟨found, hfound, (Prod.mk.inj htag).1, (Prod.mk.inj htag).2⟩

theorem Idle.sound (hidle : Idle st after) (hst : Sound st) : Sound after := by
  intro id index hlisted
  rw [hidle.clients] at hlisted
  obtain ⟨client, hclient, hid, hopen⟩ := hst id index hlisted
  obtain ⟨found, hfound, hsameId, hsame⟩ := hidle.exists_has hclient
  exact ⟨found, hfound, hsameId.trans hid, hsame.trans hopen⟩

theorem Idle.closes (hidle : Idle st after) (hst : Closes st) : Closes after := by
  intro index client hclient hunlisted
  obtain ⟨before, hbefore, hid, hclosed⟩ := hidle.symm.exists_has hclient
  refine hclosed.symm.trans (hst index before hbefore ?_)
  rw [State.lists, hid, ← hidle.clients]
  exact hunlisted

theorem idle_withClient (hclient : st.Has index client) {moved : ClientConn}
    (hid : moved.id = client.id) (hclosed : moved.closed = client.closed) :
    Idle st (st.withClient index moved) := by
  refine ⟨rfl, rfl, rfl, fun other ↦ ?_⟩
  rw [conns_withClient hclient]
  split_ifs with hother
  · rw [← hother, hclient, Option.map_some, Option.map_some, tag, hid, hclosed]
    rfl
  · rfl

theorem idle_offerAll (st : State) (frame : Frame) : Idle st (st.offerAll frame) := by
  refine ⟨rfl, rfl, rfl, fun index ↦ ?_⟩
  rw [State.offerAll, List.getElem?_mapIdx, Option.map_map]
  refine congrArg (fun tag ↦ Option.map tag st.conns[index]?) (funext fun client ↦ ?_)
  dsimp only [Function.comp_apply, ClientConn.offer]
  split_ifs <;> rfl

/-- A client is closed and taken off the table. -/
def without (st : State) (id : String) (index : ℕ) (client : ClientConn) : State :=
  { st with
    conns := st.conns.set index { client with closed := true }
    clients := Function.update st.clients id none }

/-- The listed client is closed and taken off the table. Assumes: the table is sound. -/
theorem removeClient_eq (hst : Sound st) {id : String} (hlisted : st.clients id = some index) :
    ∃ client, st.Has index client ∧ client.id = id ∧
      st.removeClient id = without st id index client := by
  obtain ⟨client, hclient, hid, hopen⟩ := hst id index hlisted
  refine ⟨client, hclient, hid, ?_⟩
  unfold State.removeClient State.close
  rw [hlisted]
  dsimp only
  rw [hclient]
  dsimp only
  rw [hopen]
  rfl

/-- The client behind an arrival, after a listed one has been removed. -/
theorem has_without (hclient : st.Has index client) {id : String} {other : ℕ} {found : ClientConn}
    (hfound : (without st id index client).Has other found) :
    other = index ∧ found = { client with closed := true } ∨
      other ≠ index ∧ st.Has other found := by
  have hset : (st.withClient index { client with closed := true }).conns[other]? = some found :=
    hfound
  rw [conns_withClient hclient] at hset
  split_ifs at hset with hother
  · exact Or.inl ⟨hother.symm, (Option.some.inj hset).symm⟩
  · exact Or.inr ⟨Ne.symm hother, hset⟩

theorem sound_removeClient (hst : Sound st) (id : String) : Sound (st.removeClient id) := by
  cases hlisted : st.clients id with
  | none =>
    unfold State.removeClient
    rw [hlisted]
    exact hst
  | some index =>
    obtain ⟨client, hclient, hid, hremoved⟩ := removeClient_eq hst hlisted
    rw [hremoved]
    intro other place hother
    change Function.update st.clients id none other = some place at hother
    have hne : other ≠ id := by
      rintro rfl
      rw [Function.update_self] at hother
      exact Option.some_ne_none place hother.symm
    rw [Function.update_of_ne hne] at hother
    obtain ⟨found, hfound, hfoundId, hopen⟩ := hst other place hother
    have hplace : index ≠ place := by
      rintro rfl
      rw [Option.some.inj (hfound.symm.trans hclient), hid] at hfoundId
      exact hne hfoundId.symm
    refine ⟨found, ?_, hfoundId, hopen⟩
    exact (conns_withClient hclient _ place).trans (by rw [if_neg hplace]; exact hfound)

theorem closes_removeClient (hsound : Sound st) (hst : Closes st) (id : String) :
    Closes (st.removeClient id) := by
  cases hlisted : st.clients id with
  | none =>
    unfold State.removeClient
    rw [hlisted]
    exact hst
  | some index =>
    obtain ⟨client, hclient, hid, hremoved⟩ := removeClient_eq hsound hlisted
    rw [hremoved]
    intro other found hfound hunlisted
    rcases has_without hclient hfound with ⟨-, rfl⟩ | ⟨hother, hbefore⟩
    · rfl
    · refine hst other found hbefore (decide_eq_false fun heq ↦ ?_)
      have hne : found.id ≠ id := by
        rintro rfl
        exact hother (Option.some.inj (heq.symm.trans hlisted))
      exact of_decide_eq_false hunlisted ((Function.update_of_ne hne _ _).trans heq)

/-- What a section does to the table, if it neither lists a client nor is a call of `Stop`. -/
structure Table (st after : State) : Prop where
  sound : Sound after
  closes : Closes st → Closes after
  stopped : after.stopped = st.stopped
  panicked : after.panicked = st.panicked

theorem Idle.table (hidle : Idle st after) (hst : Sound st) : Table st after :=
  ⟨hidle.sound hst, hidle.closes, hidle.stopped, hidle.panicked⟩

theorem table_refl (hst : Sound st) : Table st st := ⟨hst, id, rfl, rfl⟩

theorem table_withClient (hst : Sound st) (hclient : st.Has index client) {moved : ClientConn}
    (hid : moved.id = client.id) (hclosed : moved.closed = client.closed) :
    Table st (st.withClient index moved) :=
  (idle_withClient hclient hid hclosed).table hst

theorem Table.removeClient (htable : Table st after) (id : String) :
    Table st (after.removeClient id) := by
  refine ⟨sound_removeClient htable.sound id,
    fun hst ↦ closes_removeClient htable.sound (htable.closes hst) id, ?_, ?_⟩
  · rw [← htable.stopped]
    cases hlisted : after.clients id with
    | none => rw [State.removeClient, hlisted]
    | some index =>
      obtain ⟨client, -, -, hremoved⟩ := removeClient_eq htable.sound hlisted
      rw [hremoved, without]
  · rw [← htable.panicked]
    cases hlisted : after.clients id with
    | none => rw [State.removeClient, hlisted]
    | some index =>
      obtain ⟨client, -, -, hremoved⟩ := removeClient_eq htable.sound hlisted
      rw [hremoved, without]

theorem table_writeNext (hst : Sound st) (hclient : st.Has index client) (succeeds : Bool) :
    Table st (writeNext st index client succeeds) := by
  unfold writeNext
  cases client.writer with
  | running =>
    dsimp only
    cases client.writeCh with
    | nil => exact table_refl hst
    | cons frame rest =>
      dsimp only
      split_ifs <;> exact table_withClient hst hclient rfl rfl
  | failed =>
    refine Table.removeClient ?_ client.id
    exact table_withClient hst hclient rfl rfl
  | returned => exact table_refl hst

/-- A section that lists a client or is a call of `Stop`. -/
def listsOrStops : Action → Bool
  | .join _ => true
  | .stop => true
  | _ => false

theorem table_step (hst : Sound st) {action : Action} (hother : listsOrStops action = false) :
    Table st (step relay marshals st action) := by
  unfold step
  by_cases hpanicked : st.panicked = true
  · rw [if_pos hpanicked]
    exact table_refl hst
  rw [if_neg hpanicked]
  cases action with
  | join id => exact Bool.noConfusion hother
  | stop => exact Bool.noConfusion hother
  | tick next =>
    dsimp only
    split_ifs
    · exact table_refl hst
    · exact Idle.table ⟨rfl, rfl, rfl, fun _ ↦ rfl⟩ hst
    · exact Idle.table ⟨rfl, rfl, rfl, fun _ ↦ rfl⟩ hst
  | fetch =>
    dsimp only
    cases st.fetches with
    | nil => exact table_refl hst
    | cons fetch fetches => exact Idle.table ⟨rfl, rfl, rfl, fun _ ↦ rfl⟩ hst
  | broadcast =>
    dsimp only
    split_ifs
    · exact table_refl hst
    · have hsame : Sound { st with broadcasts := false } := hst
      cases State.newestFrame marshals { st with broadcasts := false } with
      | none => exact Idle.table ⟨rfl, rfl, rfl, fun _ ↦ rfl⟩ hst
      | some frame =>
        obtain ⟨hsound, hcloses, hstopped, hgoes⟩ := (idle_offerAll _ frame).table hsame
        exact ⟨hsound, hcloses, hstopped, hgoes⟩
  | read index =>
    dsimp only
    cases hclient : st.conns[index]? with
    | none => exact table_refl hst
    | some client =>
      dsimp only
      split_ifs
      · exact table_withClient hst hclient rfl rfl
      · exact table_refl hst
  | sendRecent index =>
    dsimp only
    cases hclient : st.conns[index]? with
    | none => exact table_refl hst
    | some client =>
      dsimp only
      cases client.handler with
      | read newest =>
        cases newest with
        | none => exact table_withClient hst hclient rfl rfl
        | some frame =>
          refine table_withClient hst hclient ?_ ?_ <;> dsimp only <;>
            unfold ClientConn.offer <;> split_ifs <;> rfl
      | _ => exact table_refl hst
  | write index succeeds =>
    dsimp only
    cases hclient : st.conns[index]? with
    | none => exact table_refl hst
    | some client => exact table_writeNext hst hclient succeeds
  | writerReturns index =>
    dsimp only
    cases hclient : st.conns[index]? with
    | none => exact table_refl hst
    | some client =>
      dsimp only
      split_ifs
      · exact table_withClient hst hclient rfl rfl
      · exact table_refl hst
  | leave index =>
    dsimp only
    cases hclient : st.conns[index]? with
    | none => exact table_refl hst
    | some client =>
      dsimp only
      split_ifs
      · refine Table.removeClient ?_ client.id
        exact table_withClient hst hclient rfl rfl
      · exact table_refl hst

/-- The relay after a client has been listed. -/
def joined (st : State) (id : String) : State :=
  { st with
    conns := st.conns ++ [ClientConn.new id]
    clients := Function.update st.clients id (some st.conns.length) }

theorem has_joined_iff {id : String} {found : ClientConn} :
    (joined st id).Has index found ↔
      st.Has index found ∨ index = st.conns.length ∧ found = .new id := by
  rw [State.Has, joined, List.getElem?_append]
  split_ifs with hold
  · have hearlier : ¬ (index = st.conns.length ∧ found = .new id) := fun h ↦ hold.ne h.1
    exact (or_iff_left hearlier).symm
  · have hnone : ¬ st.Has index found := fun h ↦ hold (List.getElem?_eq_some_iff.mp h).1
    rw [or_iff_right hnone, List.getElem?_singleton]
    split_ifs with hlast
    · rw [Option.some_inj, eq_comm]
      exact (and_iff_right (by omega)).symm
    · exact iff_of_false not_false fun h ↦ hlast (by omega)

theorem sound_joined (hst : Sound st) (id : String) : Sound (joined st id) := by
  intro other place hlisted
  change Function.update st.clients id (some st.conns.length) other = some place at hlisted
  by_cases hsame : other = id
  · subst hsame
    rw [Function.update_self] at hlisted
    exact ⟨.new other, has_joined_iff.mpr (Or.inr ⟨(Option.some.inj hlisted).symm, rfl⟩), rfl, rfl⟩
  · rw [Function.update_of_ne hsame] at hlisted
    obtain ⟨client, hclient, hrest⟩ := hst other place hlisted
    exact ⟨client, has_joined_iff.mpr (Or.inl hclient), hrest⟩

/-- A client that joins leaves all that are not listed told so exactly when its id is not listed.
Assumes: the table is sound, and they have been told so before. -/
theorem closes_joined_iff (hsound : Sound st) (hst : Closes st) (id : String) :
    Closes (joined st id) ↔ st.clients id = none := by
  constructor
  · intro hafter
    cases hlisted : st.clients id with
    | none => rfl
    | some index =>
      obtain ⟨client, hclient, hid, hopen⟩ := hsound id index hlisted
      have hinside : index < st.conns.length := (List.getElem?_eq_some_iff.mp hclient).1
      have hclosed := hafter index client (has_joined_iff.mpr (Or.inl hclient))
        (decide_eq_false fun heq ↦ ?_)
      · exact Bool.noConfusion (hopen.symm.trans hclosed)
      · change Function.update st.clients id (some st.conns.length) client.id = some index at heq
        rw [hid, Function.update_self] at heq
        exact hinside.ne' (Option.some.inj heq)
  · intro hnew index found hfound hunlisted
    have hlists : Function.update st.clients id (some st.conns.length) found.id ≠ some index :=
      of_decide_eq_false hunlisted
    rcases has_joined_iff.mp hfound with hold | ⟨rfl, rfl⟩
    · refine hst index found hold (decide_eq_false fun heq ↦ hlists ?_)
      have hne : found.id ≠ id := by
        rintro rfl
        exact Option.some_ne_none index (heq.symm.trans hnew)
      rw [Function.update_of_ne hne]
      exact heq
    · exact (hlists (Function.update_self _ _ _)).elim

/-- The first call of `Stop` closes the clients that are listed, each once. Assumes: the table is
sound. -/
theorem stop_spec (hsound : Sound st) (hrunning : st.stopped = false) :
    Sound st.stop ∧ (Closes st → Closes st.stop) ∧ st.stop.stopped = true ∧
      st.stop.panicked = false := by
  have hopen : (st.conns.zipIdx.any fun conn ↦ st.lists conn.2 conn.1 && conn.1.closed) =
      false := by
    refine List.any_eq_false.mpr fun conn hconn hboth ↦ ?_
    obtain ⟨hlists, hclosed⟩ := Bool.and_eq_true_iff.mp hboth
    obtain ⟨client, hclient, -, hnot⟩ := hsound _ _ (of_decide_eq_true hlists)
    have hsame : st.conns[conn.2]? = some conn.1 := List.mem_zipIdx_iff_getElem?.mp hconn
    rw [← Option.some.inj (hsame.symm.trans hclient)] at hnot
    exact Bool.noConfusion (hnot.symm.trans hclosed)
  unfold State.stop
  rw [if_neg (Bool.eq_false_iff.mp hrunning)]
  refine ⟨fun _ _ hlisted ↦ (Option.some_ne_none _ hlisted.symm).elim, ?_, rfl, hopen⟩
  intro hst index found hfound _
  rw [State.Has, List.getElem?_mapIdx] at hfound
  obtain ⟨client, hclient, rfl⟩ := Option.map_eq_some_iff.mp hfound
  split_ifs with hlists
  · rfl
  · exact hst index client hclient (Bool.eq_false_of_not_eq_true hlists)

theorem sound_step (hst : Sound st) (action : Action) : Sound (step relay marshals st action) := by
  by_cases hother : listsOrStops action = false
  · exact (table_step hst hother).sound
  unfold step
  by_cases hpanicked : st.panicked = true
  · rw [if_pos hpanicked]
    exact hst
  rw [if_neg hpanicked]
  cases action with
  | join id => exact sound_joined hst id
  | stop =>
    cases hrunning : st.stopped with
    | false => exact (stop_spec hst hrunning).1
    | true =>
      dsimp only
      unfold State.stop
      rw [if_pos hrunning]
      exact hst
  | _ => exact (hother rfl).elim

theorem closes_step_iff (hsound : Sound st) (hst : Closes st) (action : Action) :
    Closes (step relay marshals st action) ↔ NewId st action := by
  by_cases hother : listsOrStops action = false
  · refine iff_of_true ((table_step hsound hother).closes hst) ?_
    cases action with
    | join id => exact Bool.noConfusion hother
    | _ => exact trivial
  unfold step
  by_cases hpanicked : st.panicked = true
  · rw [if_pos hpanicked]
    refine iff_of_true hst ?_
    cases action with
    | join id => exact fun h ↦ Bool.noConfusion (hpanicked.symm.trans h)
    | _ => exact trivial
  rw [if_neg hpanicked]
  cases action with
  | join id =>
    rw [NewId, forall_prop_of_true (Bool.eq_false_of_not_eq_true hpanicked)]
    exact closes_joined_iff hsound hst id
  | stop =>
    refine iff_of_true ?_ trivial
    cases hrunning : st.stopped with
    | false => exact (stop_spec hsound hrunning).2.1 hst
    | true =>
      dsimp only
      unfold State.stop
      rw [if_pos hrunning]
      exact hst
  | _ => exact (hother rfl).elim

/-- In every state each client that is not listed has been told to stop, exactly when no client
joins with an id that is listed. -/
theorem closes_iff (relay : Relay) (marshals : Segment → Bool) (actions : List Action) :
    (∀ taken, taken <+: actions → Closes (run (step relay marshals) .initial taken)) ↔
      EachStepMeets (step relay marshals) NewId .initial actions := by
  have hcloses : Closes .initial := nofun
  have hsound : Sound .initial := nofun
  rw [forall_prefix_iff, and_iff_right hcloses]
  exact eachStepMeets_iff_of_kept (step relay marshals)
    (fun st action (hst : Sound st ∧ Closes st) hafter ↦ ⟨sound_step hst.1 action, hafter⟩)
    (fun st action hst ↦ closes_step_iff hst.1 hst.2 action) ⟨hsound, hcloses⟩ actions

/-! ### Panics -/

/-- A call of `Stop`. -/
def isStop : Action → Bool
  | .stop => true
  | _ => false

theorem step_of_panicked (hpanicked : st.panicked = true) (action : Action) :
    step relay marshals st action = st := if_pos hpanicked

theorem panicked_run (hpanicked : st.panicked = true) (actions : List Action) :
    (run (step relay marshals) st actions).panicked = true := by
  induction actions with
  | nil => exact hpanicked
  | cons action actions ih =>
    rw [run_cons, step_of_panicked hpanicked]
    exact ih

/-- Only a call of `Stop` stops a relay, and no other section closes a channel that is closed.
Assumes: the table is sound, and the relay has not panicked. -/
theorem flags_step (hst : Sound st) (hgoes : st.panicked = false) {action : Action}
    (hother : isStop action = false) :
    (step relay marshals st action).stopped = st.stopped ∧
      (step relay marshals st action).panicked = false := by
  by_cases hlists : listsOrStops action = false
  · have htable : Table st (step relay marshals st action) := table_step hst hlists
    exact ⟨htable.stopped, htable.panicked.trans hgoes⟩
  · cases action with
    | join id =>
      unfold step
      rw [if_neg (Bool.eq_false_iff.mp hgoes)]
      exact ⟨rfl, hgoes⟩
    | stop => exact Bool.noConfusion hother
    | _ => exact (hlists rfl).elim

/-- From a relay that goes on, a run closes a channel twice exactly when `Stop` is called twice,
with the call that stopped the relay before. Assumes: the table is sound. -/
theorem panicked_run_iff (hst : Sound st) (hgoes : st.panicked = false) (actions : List Action) :
    (run (step relay marshals) st actions).panicked = true ↔
      2 ≤ actions.countP isStop + if st.stopped then 1 else 0 := by
  induction actions generalizing st with
  | nil =>
    rw [run_nil, hgoes, List.countP_nil]
    refine iff_of_false Bool.noConfusion ?_
    split_ifs <;> omega
  | cons action actions ih =>
    rw [run_cons, List.countP_cons]
    by_cases hstop : isStop action = false
    · obtain ⟨hstopped, hafter⟩ : _ ∧ (step relay marshals st action).panicked = false :=
        flags_step hst hgoes hstop
      rw [ih (sound_step hst action) hafter, hstopped, hstop]
      rfl
    · cases action with
      | stop =>
        have hstep : step relay marshals st .stop = st.stop :=
          if_neg (Bool.eq_false_iff.mp hgoes)
        rw [hstep]
        cases hrunning : st.stopped with
        | false =>
          obtain ⟨hsound, -, hstopped, hafter⟩ := stop_spec hst hrunning
          rw [ih hsound hafter, hstopped]
          rfl
        | true =>
          have hpanics : st.stop.panicked = true := by
            unfold State.stop
            rw [if_pos hrunning]
          refine iff_of_true (panicked_run hpanics actions) ?_
          have hcounts : isStop .stop = true := rfl
          rw [hcounts, if_pos rfl]
          omega
      | _ => exact (hstop rfl).elim

/-- A run of a relay closes a channel twice exactly when `Stop` is called twice. -/
theorem closesTwice_iff (relay : Relay) (marshals : Segment → Bool) (actions : List Action) :
    (run (step relay marshals) .initial actions).panicked = true ↔
      2 ≤ actions.countP isStop := by
  have hsound : Sound .initial := nofun
  exact panicked_run_iff hsound rfl actions

end LiveCDN.Agent.GoClientTable
