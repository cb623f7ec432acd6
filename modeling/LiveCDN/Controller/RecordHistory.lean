import LiveCDN.Controller.StreamUpdates

/-!
# What does not come back

In a run whose steps meet the condition of `StreamUpdates`, a stream that has ended stays ended
(`ended_run`), and the records stored for a stream are ever newer ones (`later_run`). When the
generated keys are fresh, the records of a stream have different keys (`KeysDiffer`), so that a key
that has been replaced is not stored again.
-/

set_option autoImplicit false
set_option relaxedAutoImplicit false

namespace LiveCDN.Controller.RecordHistory

open Library.KeyedTable Library.GuardedRun StreamStore KeyRotation StreamUpdates

/-! ### Ended streams -/

/-- A stream is stored and has ended. -/
def Ended (world : World) (key : String) : Prop :=
  (world.record key).map StreamInfo.isLive = some false

instance (world : World) (key : String) : Decidable (Ended world key) :=
  inferInstanceAs (Decidable ((world.record key).map StreamInfo.isLive = some false))

theorem ended_of_change {world world' : World} (hchange : Change world world') {key : String}
    (hended : Ended world key) : Ended world' key := by
  obtain ⟨info, hrecord, hinfoEnded⟩ := Option.map_eq_some_iff.mp hended
  obtain ⟨stream, hstored, hinfo⟩ := World.record_eq_some_iff.mp hrecord
  cases hchange with
  | edited write hwrite hheap hkept =>
    refine Option.map_eq_some_iff.mpr ⟨write stream info, ?_, ?_⟩
    · refine World.record_eq_some_iff.mpr ⟨stream, (hkept key).trans hstored, ?_⟩
      rw [hheap, hinfo, Option.map_some]
    · refine Bool.eq_false_iff.mpr fun hlive ↦ ?_
      rw [(hwrite stream info).isLive hlive] at hinfoEnded
      cases hinfoEnded
  | renewed old updated hold hlive _ hheap hnew =>
    have hne : key ≠ updated.streamKey := by
      intro hkey
      obtain rfl := Option.some.inj (hrecord.symm.trans (hkey ▸ hold))
      rw [hlive] at hinfoEnded
      cases hinfoEnded
    refine Option.map_eq_some_iff.mpr
      ⟨info, World.record_eq_some_iff.mpr ⟨stream, ?_, ?_⟩, hinfoEnded⟩
    · rw [hnew, if_neg hne]
      exact hstored
    · rw [hheap, List.getElem?_append_left (List.getElem?_eq_some_iff.mp hinfo).1]
      exact hinfo

/-- A stream that has ended stays ended in a run that meets the condition. -/
theorem ended_run {tasks : List Task} {world : World} {actions : List ℕ} {key : String}
    (hended : Ended world key)
    (hcondition : EachStepMeets (step tasks) (StoresUnchanged tasks) world actions) :
    Ended (run (step tasks) world actions) key :=
  invariant_run (step tasks)
    (fun current task hcurrent hmeets ↦
      ended_of_change (change_step (stepOf_step tasks current task) hmeets) hcurrent)
    hended hcondition

/-! ### Newer records -/

/-- A later world: its records have kept their stream and key, and a stream has its record or a
newer one. -/
structure Later (world world' : World) : Prop where
  heap : ∀ (stream : ℕ) (info : StreamInfo), world.heap[stream]? = some info →
    ∃ info', world'.heap[stream]? = some info' ∧ info'.streamKey = info.streamKey ∧
      info'.encryptKey = info.encryptKey
  stored : ∀ key stream, world.getStream key = some stream → stream < world.heap.length →
    ∃ newer, world'.getStream key = some newer ∧ stream ≤ newer ∧ newer < world'.heap.length

theorem later_of_change {world world' : World} (hchange : Change world world') :
    Later world world' := by
  refine ⟨fun stream info hinfo ↦ ?_, fun key stream hstored hlength ↦ ?_⟩
  · obtain ⟨info', hinfo', hkept⟩ := hchange.heap hinfo
    exact ⟨info', hinfo', hkept.sameStream.streamKey.symm, hkept.encryptKey⟩
  · have hlength' := hchange.lt_length hlength
    cases hchange with
    | edited _ _ _ hkept => exact ⟨stream, (hkept key).trans hstored, le_refl stream, hlength'⟩
    | renewed _ updated _ _ _ hheap hnew =>
      by_cases hkey : key = updated.streamKey
      · refine ⟨world.heap.length, (hnew key).trans (if_pos hkey), hlength.le, ?_⟩
        rw [hheap, List.length_append, List.length_singleton]
        exact Nat.lt_succ_self _
      · exact ⟨stream, ((hnew key).trans (if_neg hkey)).trans hstored, le_refl stream, hlength'⟩

theorem Later.trans {first second third : World} (hfirst : Later first second)
    (hsecond : Later second third) : Later first third := by
  refine ⟨fun stream info hinfo ↦ ?_, fun key stream hstored hlength ↦ ?_⟩
  · obtain ⟨info', hinfo', hkey, hencrypt⟩ := hfirst.heap stream info hinfo
    obtain ⟨info'', hinfo'', hkey', hencrypt'⟩ := hsecond.heap stream info' hinfo'
    exact ⟨info'', hinfo'', hkey'.trans hkey, hencrypt'.trans hencrypt⟩
  · obtain ⟨newer, hnewer, hle, hlength'⟩ := hfirst.stored key stream hstored hlength
    obtain ⟨newest, hnewest, hle', hlength''⟩ := hsecond.stored key newer hnewer hlength'
    exact ⟨newest, hnewest, hle.trans hle', hlength''⟩

/-- A run that meets the condition leads to a later world. -/
theorem later_run {tasks : List Task} {world : World} {actions : List ℕ}
    (hcondition : EachStepMeets (step tasks) (StoresUnchanged tasks) world actions) :
    Later world (run (step tasks) world actions) :=
  invariant_run (step tasks)
    (fun current task hcurrent hmeets ↦
      hcurrent.trans (later_of_change (change_step (stepOf_step tasks current task) hmeets)))
    ⟨fun _ info hinfo ↦ ⟨info, hinfo, rfl, rfl⟩, fun _ stream hstored hlength ↦
      ⟨stream, hstored, le_refl stream, hlength⟩⟩ hcondition

/-! ### Fresh keys -/

/-- The key that a rotation generates for a stream. -/
def issuedKey (table : Table StreamInfo.streamKey) (tasks : List Task) (task : ℕ) (key : String) :
    Option String :=
  match tasks[task]?, table.find? key with
  | some (.rotateAllLiveStreams _ outcome), some first =>
    (renewedStream outcome first).map StreamInfo.encryptKey
  | _, _ => none

/-- The keys that are generated for a stream differ from each other and from the one it has at the
start. -/
structure FreshKeys (table : Table StreamInfo.streamKey) (tasks : List Task) : Prop where
  new : ∀ task key first, table.find? key = some first →
    issuedKey table tasks task key ≠ some first.encryptKey
  distinct : ∀ task other key issued, issuedKey table tasks task key = some issued →
    issuedKey table tasks other key = some issued → task = other

/-- A task has left a stream behind. -/
def Visited (world : World) (task : ℕ) (key : String) : Prop :=
  world.progress task ≠ .ready ∧ ∀ streams, world.progress task = .rotating streams →
    ∀ stream ∈ streams, keyOf world stream ≠ some key

/-- Each record has the key of the table or one that a rotation has generated which has left the
stream behind, and the records of a stream have different keys. -/
structure KeysDiffer (table : Table StreamInfo.streamKey) (tasks : List Task) (world : World) :
    Prop where
  issued : ∀ (stream : ℕ) (info : StreamInfo), world.heap[stream]? = some info →
    (∃ first, table.find? info.streamKey = some first ∧ first.encryptKey = info.encryptKey) ∨
      ∃ task, issuedKey table tasks task info.streamKey = some info.encryptKey ∧
        Visited world task info.streamKey
  differ : ∀ (stream other : ℕ) (info info' : StreamInfo), world.heap[stream]? = some info →
    world.heap[other]? = some info' → info.streamKey = info'.streamKey →
      info.encryptKey = info'.encryptKey → stream = other

/-- A task does not return to a stream it has left behind. -/
theorem visited_step {table : Table StreamInfo.streamKey} {tasks : List Task}
    {world world' : World} {task other : ℕ} {key : String}
    (hconsistent : Consistent table tasks world) (hstep : StepOf tasks world task world')
    (hcondition : StoresUnchanged tasks world task) (hvisited : Visited world other key) :
    Visited world' other key := by
  have hchange := change_step hstep hcondition
  have hkeep : ∀ streams, world.progress other = .rotating streams → ∀ stream ∈ streams,
      keyOf world' stream ≠ some key := by
    intro streams hrotating stream hstream
    rw [hchange.keyOf ((hconsistent.visited other streams hrotating).2 stream hstream)]
    exact hvisited.2 streams hrotating stream hstream
  by_cases hne : other = task
  · subst hne
    refine ⟨fun hready ↦ hvisited.1 (ready_of_step hstep hready), fun streams hrotating ↦ ?_⟩
    rcases rotating_of_step hstep hrotating with ⟨hready, _⟩ | hbefore | ⟨stream, hbefore⟩
    · exact absurd hready hvisited.1
    · exact hkeep streams hbefore
    · exact fun pointer hpointer ↦ hkeep _ hbefore pointer (List.mem_cons_of_mem _ hpointer)
  · have hprogress := progress_of_ne hstep hne
    refine ⟨hprogress ▸ hvisited.1, fun streams hrotating ↦ ?_⟩
    exact hkeep streams (hprogress.symm.trans hrotating)

/-- A record after a step is one from before, or a rotation has issued a new one. -/
theorem old_or_issued {table : Table StreamInfo.streamKey} {tasks : List Task}
    {world world' : World} {task stream : ℕ} {info : StreamInfo}
    (hconsistent : Consistent table tasks world) (hstep : StepOf tasks world task world')
    (hcondition : StoresUnchanged tasks world task) (hinfo : world'.heap[stream]? = some info) :
    (∃ before, world.heap[stream]? = some before ∧ info.streamKey = before.streamKey ∧
        info.encryptKey = before.encryptKey) ∨
      stream = world.heap.length ∧
        issuedKey table tasks task info.streamKey = some info.encryptKey ∧
          ¬ Visited world task info.streamKey ∧ Visited world' task info.streamKey := by
  have hchange := change_step hstep hcondition
  by_cases hlength : stream < world.heap.length
  · have hbefore := List.getElem?_eq_getElem hlength
    obtain ⟨info', hinfo', hkept⟩ := hchange.heap hbefore
    obtain rfl := Option.some.inj (hinfo'.symm.trans hinfo)
    exact Or.inl ⟨_, hbefore, hkept.sameStream.streamKey.symm, hkept.encryptKey⟩
  · obtain ⟨rfl, rotator, outcome, pointer, streams, htask, hrotating, hrenewed, hafter⟩ :=
      renew_of_step hstep hinfo (not_lt.mp hlength)
    obtain ⟨old, hold, holdRenewed⟩ := Option.bind_eq_some_iff.mp hrenewed
    obtain ⟨first, hfirst, hsame, _⟩ := hconsistent.origin pointer old hold
    have hkey := (sameStream_of_renewed holdRenewed).1.streamKey
    have hpointer : keyOf world pointer = some info.streamKey :=
      (congrArg (Option.map StreamInfo.streamKey) hold).trans (congrArg some hkey)
    refine Or.inr ⟨rfl, ?_, fun hvisited ↦ ?_, ?_, fun streams' hrotating' other hother hsame' ↦ ?_⟩
    · unfold issuedKey
      rw [htask, ← hkey, hfirst]
      dsimp only
      rw [renewedStream_congr hsame, holdRenewed, Option.map_some]
    · exact hvisited.2 _ hrotating pointer List.mem_cons_self hpointer
    · exact fun hready ↦ by cases hafter.symm.trans hready
    · obtain rfl := Progress.rotating.inj (hafter.symm.trans hrotating')
      obtain ⟨hnodup, hlengths⟩ := hconsistent.visited task _ hrotating
      rw [hchange.keyOf (hlengths other (List.mem_cons_of_mem _ hother))] at hsame'
      rw [List.map_cons, List.nodup_cons] at hnodup
      exact hnodup.1 (List.mem_map.mpr ⟨other, hother, hsame'.trans hpointer.symm⟩)

/-- The records of a stream still have different keys after a step. Assumes: the generated keys are
fresh. -/
theorem keysDiffer_step {table : Table StreamInfo.streamKey} {tasks : List Task}
    {world world' : World} {task : ℕ} (hfresh : FreshKeys table tasks)
    (hconsistent : Consistent table tasks world) (hkeys : KeysDiffer table tasks world)
    (hstep : StepOf tasks world task world') (hcondition : StoresUnchanged tasks world task) :
    KeysDiffer table tasks world' := by
  -- a new record has another key than the records from before
  have hnew : ∀ (stream : ℕ) (before : StreamInfo) key issued, world.heap[stream]? = some before →
      before.streamKey = key → before.encryptKey = issued →
        issuedKey table tasks task key = some issued → ¬ Visited world task key → False := by
    rintro stream before key issued hbefore rfl rfl hissued hpending
    rcases hkeys.issued stream before hbefore with ⟨first, hfirst, hkey⟩ | ⟨other, hother, hvisited⟩
    · exact hfresh.new task _ first hfirst (hkey ▸ hissued)
    · exact hpending (hfresh.distinct other task _ _ hother hissued ▸ hvisited)
  refine ⟨fun stream info hinfo ↦ ?_, fun stream other info info' hinfo hinfo' hkey hencrypt ↦ ?_⟩
  · rcases old_or_issued hconsistent hstep hcondition hinfo with
      ⟨before, hbefore, hkey, hencrypt⟩ | ⟨_, hissued, _, hvisited⟩
    · rw [hkey, hencrypt]
      refine (hkeys.issued stream before hbefore).imp_right ?_
      rintro ⟨other, hissued, hvisited⟩
      exact ⟨other, hissued, visited_step hconsistent hstep hcondition hvisited⟩
    · exact Or.inr ⟨task, hissued, hvisited⟩
  · rcases old_or_issued hconsistent hstep hcondition hinfo with
      ⟨before, hbefore, hbeforeKey, hbeforeEncrypt⟩ | ⟨hstream, hissued, hpending, _⟩
    · rcases old_or_issued hconsistent hstep hcondition hinfo' with
        ⟨before', hbefore', hbeforeKey', hbeforeEncrypt'⟩ | ⟨_, hissued', hpending', _⟩
      · refine hkeys.differ stream other before before' hbefore hbefore' ?_ ?_
        · rw [← hbeforeKey, ← hbeforeKey', hkey]
        · rw [← hbeforeEncrypt, ← hbeforeEncrypt', hencrypt]
      · exact (hnew stream before _ _ hbefore (hbeforeKey.symm.trans hkey)
          (hbeforeEncrypt.symm.trans hencrypt) hissued' hpending').elim
    · rcases old_or_issued hconsistent hstep hcondition hinfo' with
        ⟨before', hbefore', hbeforeKey', hbeforeEncrypt'⟩ | ⟨hother, _⟩
      · exact (hnew other before' _ _ hbefore' (hbeforeKey'.symm.trans hkey.symm)
          (hbeforeEncrypt'.symm.trans hencrypt.symm) hissued hpending).elim
      · rw [hstream, hother]

theorem keysDiffer_start (table : Table StreamInfo.streamKey) (tasks : List Task) :
    KeysDiffer table tasks (World.start table) := by
  refine ⟨fun stream info hinfo ↦ Or.inl ⟨info, ?_, rfl⟩,
    fun stream other info info' hinfo hinfo' hkey _ ↦ ?_⟩
  · exact Table.mem_rows_iff_find?.mp (List.mem_of_getElem? hinfo)
  · have hfirst : (table.rows.map StreamInfo.streamKey)[stream]? = some info.streamKey := by
      rw [List.getElem?_map]
      exact congrArg (Option.map StreamInfo.streamKey) hinfo
    have hsecond : (table.rows.map StreamInfo.streamKey)[other]? = some info'.streamKey := by
      rw [List.getElem?_map]
      exact congrArg (Option.map StreamInfo.streamKey) hinfo'
    exact (List.getElem?_inj (List.getElem?_eq_some_iff.mp hfirst).1 table.distinct).mp
      (hfirst.trans ((congrArg some hkey).trans hsecond.symm))

/-- In a run that meets the condition the records of a stream have different keys. Assumes: the
generated keys are fresh. -/
theorem keysDiffer_run {table : Table StreamInfo.streamKey} {tasks : List Task} {actions : List ℕ}
    (hfresh : FreshKeys table tasks)
    (hcondition : EachStepMeets (step tasks) (StoresUnchanged tasks) (World.start table) actions) :
    KeysDiffer table tasks (run (step tasks) (World.start table) actions) := by
  have hstep : ∀ world task, Consistent table tasks world ∧ KeysDiffer table tasks world →
      StoresUnchanged tasks world task →
        Consistent table tasks (step tasks world task) ∧
          KeysDiffer table tasks (step tasks world task) := by
    rintro world task ⟨hconsistent, hkeys⟩ hmeets
    have hstepOf := stepOf_step tasks world task
    exact ⟨consistent_step hconsistent hstepOf hmeets,
      keysDiffer_step hfresh hconsistent hkeys hstepOf hmeets⟩
  exact (invariant_run (step tasks) hstep
    ⟨consistent_start table tasks, keysDiffer_start table tasks⟩ hcondition).2

/-- The key a stream is encrypted with. -/
def currentKey (world : World) (key : String) : Option String :=
  (world.record key).map StreamInfo.encryptKey

/-- A key that a later world has replaced is not the one of a still later world. Assumes: the
records of a stream have different keys there. -/
theorem currentKey_ne_of_replaced {table : Table StreamInfo.streamKey} {tasks : List Task}
    {first second third : World} (hfirst : Later first second) (hsecond : Later second third)
    (hconsistent : Consistent table tasks first) (hconsistent' : Consistent table tasks third)
    (hkeys : KeysDiffer table tasks third) {key old : String}
    (hold : currentKey first key = some old)
    (hreplaced : currentKey second key ≠ some old) : currentKey third key ≠ some old := by
  intro hback
  obtain ⟨info, hrecord, rfl⟩ := Option.map_eq_some_iff.mp hold
  obtain ⟨stream, hstored, hinfo⟩ := World.record_eq_some_iff.mp hrecord
  obtain ⟨newer, hnewer, hle, hlength⟩ :=
    hfirst.stored key stream hstored (List.getElem?_eq_some_iff.mp hinfo).1
  obtain ⟨info₂, hinfo₂, hkey₂, hencrypt₂⟩ := hfirst.heap stream info hinfo
  have hlt : stream < newer := by
    refine lt_of_le_of_ne hle fun hsame ↦ hreplaced ?_
    have hrecord₂ := World.record_eq_some_iff.mpr ⟨newer, hnewer, hsame ▸ hinfo₂⟩
    exact Option.map_eq_some_iff.mpr ⟨info₂, hrecord₂, hencrypt₂⟩
  obtain ⟨newest, hnewest, hle', _⟩ := hsecond.stored key newer hnewer hlength
  obtain ⟨info₃, hinfo₃, hkey₃, hencrypt₃⟩ := hsecond.heap stream info₂ hinfo₂
  obtain ⟨last, hlast, hlastEncrypt⟩ := Option.map_eq_some_iff.mp hback
  obtain ⟨pointer, hpointer, hlastInfo⟩ := World.record_eq_some_iff.mp hlast
  obtain rfl := Option.some.inj (hnewest.symm.trans hpointer)
  have hsameKey : info₃.streamKey = last.streamKey := by
    rw [hkey₃, hkey₂, streamKey_of_record hconsistent hrecord,
      streamKey_of_record hconsistent' hlast]
  have hsame := hkeys.differ stream newest info₃ last hinfo₃ hlastInfo hsameKey
    (hencrypt₃.trans (hencrypt₂.trans hlastEncrypt.symm))
  exact absurd (hlt.trans_le hle') (hsame ▸ lt_irrefl _)

end LiveCDN.Controller.RecordHistory
