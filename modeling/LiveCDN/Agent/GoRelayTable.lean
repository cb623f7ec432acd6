import LiveCDN.Agent.GoRelay

/-!
# The relay table of the Go agent

`getOrCreateRelay` of `internal/agent/agent.go` under any number of concurrent calls. A call looks
its stream key up, asks the relay it found whether it runs, fetches the stream's information, starts
a new relay and puts it into the table, and other calls go on between these sections. Nothing stops
a relay again, and a relay that another one replaces in the table keeps pulling.

The calls for a stream get one relay, and one relay of it runs behind them, exactly in the runs in
which every call that comes to insert its relay finds none in the table (`oneRelay_iff`). A key of
fewer than eight bytes never gets that far: the log line of `Start` slices it, and the call panics
with its relay running.

Scope. Strings are byte strings, `decodeString` is `base64.StdEncoding.DecodeString`, and what the
controller answers is an input. A relay's segments and clients are left out.
-/

set_option autoImplicit false
set_option relaxedAutoImplicit false

namespace LiveCDN.Agent.GoRelayTable

open Library.GuardedRun GoRelay

/-! ### The calls -/

/-- The fields of `common.StreamInfo` that the agent reads. -/
structure StreamInfo where
  originURL : GoString
  encryptKey : GoString
  encryptIV : GoString
  cipherSuite : GoString
  deriving DecidableEq

/-- `crypto.KeyInfo`. -/
structure KeyInfo where
  key : List UInt8
  iv : List UInt8
  cipher : GoString
  deriving DecidableEq

/-- The fields of `StreamRelay` that a call reads or writes. -/
structure StreamRelay where
  streamKey : GoString
  originURL : GoString
  keyInfo : KeyInfo
  running : Bool
  deriving DecidableEq

/-- Where a call is. Relays are given by their addresses. -/
inductive Progress
  | ready
  | lookedUp (found : Option ℕ)
  | missed
  | created (relay : ℕ)
  | started (relay : ℕ)
  | returned (relay : Option ℕ)
  | panicked
  deriving DecidableEq

/-- The relays made so far, the table, and the calls. -/
structure State where
  heap : List StreamRelay
  relays : GoString → Option ℕ
  progress : ℕ → Progress

/-- An agent without relays. -/
def State.initial : State := ⟨[], fun _ ↦ none, fun _ ↦ .ready⟩

/-- A call goes on. -/
def State.goOn (st : State) (call : ℕ) (next : Progress) : State :=
  { st with progress := Function.update st.progress call next }

/-- `IsRunning` of the relay at an address. -/
def State.isRunning (st : State) (relay : ℕ) : Bool := st.heap[relay]?.any StreamRelay.running

/-- `KeyFromBase64`. -/
def keyFromBase64 (decodeString : GoString → Option (List UInt8)) (keyStr ivStr suite : GoString) :
    Option KeyInfo :=
  match decodeString keyStr with
  | none => none
  | some key =>
    if ivStr = [] then some ⟨key, [], suite⟩
    else (decodeString ivStr).map fun iv ↦ ⟨key, iv, suite⟩

/-- `NewStreamRelay`. -/
def newStreamRelay (streamKey originURL : GoString) (keyInfo : KeyInfo) : StreamRelay :=
  ⟨streamKey, originURL, keyInfo, false⟩

/-- The call makes a relay from what the controller has answered. -/
def create (decodeString : GoString → Option (List UInt8)) (st : State) (call : ℕ)
    (streamKey : GoString) (answer : Option StreamInfo) : State :=
  match answer with
  | none => st.goOn call (.returned none)
  | some info =>
    match keyFromBase64 decodeString info.encryptKey info.encryptIV info.cipherSuite with
    | none => st.goOn call (.returned none)
    | some keyInfo =>
      { st with heap := st.heap ++ [newStreamRelay streamKey info.originURL keyInfo] }.goOn call
        (.created st.heap.length)

/-- `Start` of the relay at an address, with the slice of its log line. -/
def start (st : State) (call relay : ℕ) : State :=
  match st.heap[relay]? with
  | none => st.goOn call .panicked
  | some before =>
    if before.running then st.goOn call (.started relay)
    else
      { st with heap := st.heap.set relay { before with running := true } }.goOn call
        (if before.streamKey.length < 8 then .panicked else .started relay)

/-- A call takes its next section, with the answer that its fetch gets. -/
structure Turn where
  call : ℕ
  answer : Option StreamInfo

variable (decodeString : GoString → Option (List UInt8)) (streamKey : ℕ → GoString)

/-- The next section of a call of `getOrCreateRelay`. -/
def getOrCreateRelay (st : State) (turn : Turn) : State :=
  match st.progress turn.call with
  | .ready => st.goOn turn.call (.lookedUp (st.relays (streamKey turn.call)))
  | .lookedUp none => st.goOn turn.call .missed
  | .lookedUp (some relay) =>
    st.goOn turn.call (if st.isRunning relay then .returned (some relay) else .missed)
  | .missed => create decodeString st turn.call (streamKey turn.call) turn.answer
  | .created relay => start st turn.call relay
  | .started relay =>
    { st with relays := Function.update st.relays (streamKey turn.call) (some relay) }.goOn
      turn.call (.returned (some relay))
  | .returned _ => st
  | .panicked => st

/-! ### One relay for a stream -/

/-- A relay of a stream runs at an address. -/
def State.Runs (st : State) (relay : ℕ) (key : GoString) : Prop :=
  ∃ made ∈ st.heap[relay]?, made.streamKey = key ∧ made.running = true

/-- No call is about to insert the relay. -/
def State.Left (st : State) (relay : ℕ) : Prop := ∀ call, st.progress call ≠ .started relay

/-- The calls for a stream that have returned a relay have returned the same, and behind the calls
at most one relay of a stream runs. -/
structure OneRelay (st : State) : Prop where
  agreed : ∀ call other relay relay', streamKey call = streamKey other →
    st.progress call = .returned (some relay) →
      st.progress other = .returned (some relay') → relay = relay'
  alone : ∀ key relay relay', st.Runs relay key → st.Runs relay' key → st.Left relay →
    st.Left relay' → relay = relay'

/-- A call that inserts finds no relay in the table, and a call whose key is too short for the log
line starts its relay only while none of the stream runs. -/
def InsertsAlone (st : State) (turn : Turn) : Prop :=
  match st.progress turn.call with
  | .created _ =>
    (streamKey turn.call).length < 8 → ∀ relay, ¬st.Runs relay (streamKey turn.call)
  | .started _ => st.relays (streamKey turn.call) = none
  | _ => True

/-! ### What such steps keep -/

/-- A relay of a stream waits at an address to be started. -/
def State.Waits (st : State) (relay : ℕ) (key : GoString) : Prop :=
  ∃ made ∈ st.heap[relay]?, made.streamKey = key ∧ made.running = false

/-- A call has a relay that is not in the table yet. -/
def Progress.Holds (progress : Progress) (relay : ℕ) : Prop :=
  progress = .created relay ∨ progress = .started relay

/-- What is known of the relay of a call for a stream: one it has made waits, one it has started
runs and is not in the table, and one it has found or returned runs and is left. -/
structure Sound (st : State) (key : GoString) (progress : Progress) : Prop where
  created : ∀ relay, progress = .created relay → st.Waits relay key
  started : ∀ relay, progress = .started relay →
    st.Runs relay key ∧ 8 ≤ key.length ∧ ∀ other, st.relays other ≠ some relay
  known : ∀ relay, progress = .lookedUp (some relay) ∨ progress = .returned (some relay) →
    st.Runs relay key ∧ st.Left relay

/-- The relays that run behind the calls are those of the table and of keys too short for it, one
for each key. -/
structure Alone (st : State) : Prop where
  listed : ∀ key relay, st.relays key = some relay → st.Runs relay key
  found : ∀ key relay, st.Runs relay key → st.Left relay → 8 ≤ key.length →
    st.relays key = some relay
  alone : ∀ key relay relay', st.Runs relay key → st.Runs relay' key → st.Left relay →
    st.Left relay' → relay = relay'

/-- Every call is sound, the relays that calls hold are their own, and the others are alone. -/
structure Kept (st : State) : Prop where
  sound : ∀ call, Sound st (streamKey call) (st.progress call)
  own : ∀ call other relay, (st.progress call).Holds relay → (st.progress other).Holds relay →
    call = other
  behind : Alone st

variable {decodeString streamKey} {st : State}

theorem kept_initial : Kept streamKey State.initial := by
  refine ⟨fun call ↦ ⟨nofun, nofun, ?_⟩, ?_, nofun, ?_, ?_⟩ <;>
    simp [State.initial, State.Runs, Progress.Holds]

theorem State.Runs.key_eq {relay : ℕ} {key key' : GoString} (hruns : st.Runs relay key)
    (hruns' : st.Runs relay key') : key = key' := by
  obtain ⟨made, hmade, rfl, -⟩ := hruns
  obtain ⟨made', hmade', rfl, -⟩ := hruns'
  rw [Option.mem_unique hmade hmade']

theorem State.Waits.not_runs {relay : ℕ} {key key' : GoString} (hwaits : st.Waits relay key) :
    ¬st.Runs relay key' := by
  rintro ⟨made, hmade, -, hrunning⟩
  obtain ⟨made', hmade', -, hidle⟩ := hwaits
  rw [Option.mem_unique hmade' hmade, hrunning] at hidle
  cases hidle

theorem State.Runs.isRunning {relay : ℕ} {key : GoString} (hruns : st.Runs relay key) :
    st.isRunning relay = true := by
  obtain ⟨made, hmade, -, hrunning⟩ := hruns
  rw [State.isRunning, Option.mem_def.mp hmade]
  exact hrunning

theorem State.Runs.lt_length {relay : ℕ} {key : GoString} (hruns : st.Runs relay key) :
    relay < st.heap.length := by
  obtain ⟨made, hmade, -⟩ := hruns
  exact (List.getElem?_eq_some_iff.mp hmade).1

theorem State.Waits.lt_length {relay : ℕ} {key : GoString} (hwaits : st.Waits relay key) :
    relay < st.heap.length := by
  obtain ⟨made, hmade, -⟩ := hwaits
  exact (List.getElem?_eq_some_iff.mp hmade).1

/-- A relay that a call holds is at an address. -/
theorem Sound.lt_length {key : GoString} {progress : Progress} (hsound : Sound st key progress)
    {relay : ℕ} (hholds : progress.Holds relay) : relay < st.heap.length := by
  rcases hholds with hcreated | hstarted
  · exact (hsound.created relay hcreated).lt_length
  · exact (hsound.started relay hstarted).1.lt_length

/-- A relay of the table is not one that a call is about to insert. -/
theorem Kept.left_of_listed (hkept : Kept streamKey st) {key : GoString} {relay : ℕ}
    (hlisted : st.relays key = some relay) : st.Left relay :=
  fun call hstarted ↦ ((hkept.sound call).started relay hstarted).2.2 key hlisted

theorem Kept.oneRelay (hkept : Kept streamKey st) : OneRelay streamKey st where
  agreed call other relay relay' hkey hreturned hreturned' := by
    obtain ⟨hruns, hleft⟩ := (hkept.sound call).known relay (.inr hreturned)
    obtain ⟨hruns', hleft'⟩ := (hkept.sound other).known relay' (.inr hreturned')
    exact hkept.behind.alone _ relay relay' hruns (hkey ▸ hruns') hleft hleft'
  alone := hkept.behind.alone

/-! ### One call goes on -/

/-- Where the calls are after one went on. -/
theorem progress_goOn (st : State) (call : ℕ) (next : Progress) (other : ℕ) :
    (st.goOn call next).progress other = if other = call then next else st.progress other :=
  Function.update_apply ..

/-- The relays that are not to be inserted, after a call went on. -/
theorem left_goOn_iff {call relay : ℕ} {next : Progress} :
    (st.goOn call next).Left relay ↔
      next ≠ .started relay ∧ ∀ other, other ≠ call → st.progress other ≠ .started relay := by
  constructor
  · intro hleft
    refine ⟨fun hnext ↦ hleft call ?_, fun other hother hstarted ↦ hleft other ?_⟩
    · rw [progress_goOn, if_pos rfl, hnext]
    · rw [progress_goOn, if_neg hother, hstarted]
  · rintro ⟨hnext, hothers⟩ other
    rw [progress_goOn]
    split_ifs with hother
    · exact hnext
    · exact hothers other hother

/-- A relay that is left was left before. Assumes: the call was not about to insert it. -/
theorem State.Left.of_goOn {call relay : ℕ} {next : Progress}
    (hleft : (st.goOn call next).Left relay) (hbefore : st.progress call ≠ .started relay) :
    st.Left relay := by
  intro other
  by_cases hother : other = call
  · exact hother ▸ hbefore
  · exact (left_goOn_iff.mp hleft).2 other hother

/-- The relays behind the calls are alone where the same ones run and no other ones are left. -/
theorem Alone.of_same (hbehind : Alone st) {after : State} (hrelays : after.relays = st.relays)
    (hruns : ∀ relay key, after.Runs relay key ↔ st.Runs relay key)
    (hleft : ∀ relay, after.Left relay → st.Left relay) : Alone after where
  listed key relay hlisted := (hruns relay key).mpr (hbehind.listed key relay (hrelays ▸ hlisted))
  found key relay hrelay hafter hlong := by
    rw [hrelays]
    exact hbehind.found key relay ((hruns relay key).mp hrelay) (hleft relay hafter) hlong
  alone key relay relay' hrelay hrelay' hafter hafter' :=
    hbehind.alone key relay relay' ((hruns relay key).mp hrelay) ((hruns relay' key).mp hrelay')
      (hleft relay hafter) (hleft relay' hafter')

/-- What is kept while one call goes on. Assumes: what runs keeps running, what the other calls hold
is still theirs and not in the table, the call is sound and holds no relay of another one, nor is it
to insert one that ran before, and the relays behind the calls are alone. -/
theorem Kept.goOn (hkept : Kept streamKey st) {after : State} {call : ℕ} {next : Progress}
    (hprogress : after.progress = st.progress)
    (hruns : ∀ relay key, st.Runs relay key → after.Runs relay key)
    (hwaits : ∀ other relay, other ≠ call → st.progress other = .created relay →
      after.Waits relay (streamKey other))
    (hunlisted : ∀ other relay, other ≠ call → st.progress other = .started relay →
      ∀ key, after.relays key ≠ some relay)
    (hsound : Sound (after.goOn call next) (streamKey call) next)
    (hown : ∀ other relay, other ≠ call → next.Holds relay → ¬(st.progress other).Holds relay)
    (hstarts : ∀ relay key, next = .started relay → ¬st.Runs relay key)
    (hbehind : Alone (after.goOn call next)) : Kept streamKey (after.goOn call next) := by
  have hnext : ∀ other, (after.goOn call next).progress other =
      if other = call then next else st.progress other :=
    fun other ↦ hprogress ▸ progress_goOn after call next other
  refine ⟨fun other ↦ ?_, fun other other' relay hholds hholds' ↦ ?_, hbehind⟩
  · rw [hnext]
    split_ifs with hother
    · exact hother ▸ hsound
    · have hbefore := hkept.sound other
      refine ⟨fun relay hcreated ↦ hwaits other relay hother hcreated, fun relay hstarted ↦ ?_,
        fun relay hknown ↦ ?_⟩
      · obtain ⟨hrelay, hlong, -⟩ := hbefore.started relay hstarted
        exact ⟨hruns relay _ hrelay, hlong, hunlisted other relay hother hstarted⟩
      · obtain ⟨hrelay, hleft⟩ := hbefore.known relay hknown
        refine ⟨hruns relay _ hrelay, left_goOn_iff.mpr ⟨fun hstarted ↦ ?_, fun holder _ ↦ ?_⟩⟩
        · exact hstarts relay _ hstarted hrelay
        · exact hprogress ▸ hleft holder
  · rw [hnext] at hholds hholds'
    split_ifs at hholds hholds' with hother hother' hother'
    · exact hother.trans hother'.symm
    · exact absurd hholds' (hown other' relay hother' hholds)
    · exact absurd hholds (hown other relay hother hholds')
    · exact hkept.own other other' relay hholds hholds'

/-- A call goes on without a relay of its own. Assumes: it had none that it was to insert, and one
it has now runs and is left. -/
theorem Kept.move (hkept : Kept streamKey st) {call : ℕ} {next : Progress}
    (hbefore : ∀ relay, st.progress call ≠ .started relay) (hown : ∀ relay, ¬next.Holds relay)
    (hknown : ∀ relay, next = .lookedUp (some relay) ∨ next = .returned (some relay) →
      st.Runs relay (streamKey call) ∧ st.Left relay) :
    Kept streamKey (st.goOn call next) := by
  refine hkept.goOn rfl (fun _ _ hruns ↦ hruns)
    (fun other relay _ hcreated ↦ (hkept.sound other).created relay hcreated)
    (fun other relay _ hstarted ↦ ((hkept.sound other).started relay hstarted).2.2)
    ⟨fun relay hcreated ↦ absurd (.inl hcreated) (hown relay),
      fun relay hstarted ↦ absurd (.inr hstarted) (hown relay), fun relay hnext ↦ ?_⟩
    (fun _ relay _ hholds ↦ absurd hholds (hown relay))
    (fun relay _ hstarted ↦ absurd (.inr hstarted) (hown relay))
    (hkept.behind.of_same rfl (fun _ _ ↦ Iff.rfl) fun relay hleft ↦ hleft.of_goOn (hbefore relay))
  obtain ⟨hruns, hleft⟩ := hknown relay hnext
  exact ⟨hruns, left_goOn_iff.mpr ⟨fun hstarted ↦ hown relay (.inr hstarted),
    fun other _ ↦ hleft other⟩⟩

/-! ### The sections -/

/-- A call that looks its key up finds a relay that runs behind the calls. -/
theorem Kept.lookUp (hkept : Kept streamKey st) {call : ℕ} (hready : st.progress call = .ready) :
    Kept streamKey (st.goOn call (.lookedUp (st.relays (streamKey call)))) := by
  refine hkept.move (fun relay ↦ ?_) (fun relay ↦ ?_) fun relay hfound ↦ ?_
  · rw [hready]
    exact nofun
  · exact not_or.mpr ⟨nofun, nofun⟩
  · have hlisted : st.relays (streamKey call) = some relay := by
      rcases hfound with hfound | hfound
      · exact Progress.lookedUp.inj hfound
      · cases hfound
    exact ⟨hkept.behind.listed _ relay hlisted, hkept.left_of_listed hlisted⟩

/-- A call without a relay ends or goes on without one. -/
theorem Kept.without (hkept : Kept streamKey st) {call : ℕ} {next : Progress}
    (hbefore : ∀ relay, st.progress call ≠ .started relay)
    (hnext : next = .missed ∨ next = .returned none) : Kept streamKey (st.goOn call next) := by
  refine hkept.move hbefore (fun relay hholds ↦ ?_) fun relay hknown ↦ ?_
  · rcases hnext with rfl | rfl <;> rcases hholds with h | h <;> cases h
  · rcases hnext with rfl | rfl <;> rcases hknown with h | h <;> cases h

/-- A new relay does not run before it is started. -/
theorem runs_append_iff {made : StreamRelay} (hidle : made.running = false) {relay : ℕ}
    {key : GoString} :
    State.Runs { st with heap := st.heap ++ [made] } relay key ↔ st.Runs relay key := by
  rcases lt_trichotomy relay st.heap.length with hlt | rfl | hgt
  · rw [State.Runs, List.getElem?_append_left hlt]
    exact Iff.rfl
  · rw [State.Runs, State.Runs, List.getElem?_concat_length, List.getElem?_eq_none le_rfl]
    simp [hidle]
  · rw [State.Runs, State.Runs, List.getElem?_eq_none hgt.le,
      List.getElem?_eq_none (by rw [List.length_append, List.length_singleton]; exact hgt)]

/-- A new relay waits, and so do those that waited. -/
theorem waits_append {made : StreamRelay} {relay : ℕ} {key : GoString}
    (hwaits : st.Waits relay key) :
    State.Waits { st with heap := st.heap ++ [made] } relay key := by
  rw [State.Waits, List.getElem?_append_left hwaits.lt_length]
  exact hwaits

/-- A call makes a relay of its own. Assumes: the call had none, and the relay is of its stream and
does not run. -/
theorem Kept.make (hkept : Kept streamKey st) {call : ℕ} (hmissed : st.progress call = .missed)
    {made : StreamRelay} (hkey : made.streamKey = streamKey call)
    (hidle : made.running = false) :
    Kept streamKey
      ({ st with heap := st.heap ++ [made] }.goOn call (.created st.heap.length)) := by
  have hbefore : ∀ relay, st.progress call ≠ .started relay := by
    rw [hmissed]
    exact nofun
  refine hkept.goOn rfl (fun relay key ↦ (runs_append_iff hidle).mpr)
    (fun other relay _ hcreated ↦ waits_append ((hkept.sound other).created relay hcreated))
    (fun other relay _ hstarted ↦ ((hkept.sound other).started relay hstarted).2.2)
    ⟨fun relay hcreated ↦ ?_, nofun, fun relay hknown ↦ ?_⟩ (fun other relay _ hnew hholds ↦ ?_)
    nofun (hkept.behind.of_same rfl (fun relay key ↦ runs_append_iff hidle)
      fun relay hleft ↦ State.Left.of_goOn hleft (hbefore relay))
  · obtain rfl := Progress.created.inj hcreated
    exact ⟨made, List.getElem?_concat_length, hkey, hidle⟩
  · rcases hknown with hknown | hknown <;> cases hknown
  · -- The new address is behind those of all others.
    have hlt := (hkept.sound other).lt_length hholds
    rcases hnew with hnew | hnew
    · exact hlt.ne (Progress.created.inj hnew).symm
    · cases hnew

/-- A call makes a relay of its own, or ends without one. -/
theorem Kept.create (hkept : Kept streamKey st) {call : ℕ} (hmissed : st.progress call = .missed)
    (answer : Option StreamInfo) :
    Kept streamKey (create decodeString st call (streamKey call) answer) := by
  have hbefore : ∀ relay, st.progress call ≠ .started relay := by
    rw [hmissed]
    exact nofun
  unfold GoRelayTable.create
  split
  · exact hkept.without hbefore (.inr rfl)
  · split
    · exact hkept.without hbefore (.inr rfl)
    · exact hkept.make hmissed rfl rfl

/-- The started relay runs, and so do those that ran. Assumes: it is at its address. -/
theorem runs_set_iff {made : StreamRelay} {relay : ℕ} (hmade : st.heap[relay]? = some made)
    (hidle : made.running = false) {other : ℕ} {key : GoString} :
    State.Runs { st with heap := st.heap.set relay { made with running := true } } other key ↔
      st.Runs other key ∨ other = relay ∧ made.streamKey = key := by
  have hlt := (List.getElem?_eq_some_iff.mp hmade).1
  by_cases hother : other = relay
  · subst hother
    have hruns : ¬st.Runs other key := State.Waits.not_runs ⟨made, hmade, rfl, hidle⟩
    rw [or_iff_right hruns, State.Runs, List.getElem?_set_self hlt]
    simp
  · rw [or_iff_left fun hboth ↦ hother hboth.1, State.Runs, List.getElem?_set_ne (Ne.symm hother)]
    exact Iff.rfl

/-- The other relays wait as before. -/
theorem waits_set {made : StreamRelay} {relay other : ℕ} (hother : other ≠ relay) {key : GoString}
    (hwaits : st.Waits other key) :
    State.Waits { st with heap := st.heap.set relay made } other key := by
  rw [State.Waits, List.getElem?_set_ne hother.symm]
  exact hwaits

/-- The state once a relay that waited at an address is started. -/
def State.launched (st : State) (call relay : ℕ) (made : StreamRelay) : State :=
  { st with heap := st.heap.set relay { made with running := true } }.goOn call
    (if made.streamKey.length < 8 then .panicked else .started relay)

theorem start_eq {call relay : ℕ} {made : StreamRelay} (hmade : st.heap[relay]? = some made)
    (hidle : made.running = false) : start st call relay = st.launched call relay made := by
  rw [start, hmade]
  dsimp only
  rw [hidle]
  rfl

/-- The relays behind the calls once one more is started: those there were, and the new one where
its key is too short for the log line. -/
theorem State.Left.of_launched {call relay other : ℕ} {made : StreamRelay} {key : GoString}
    (hleft : (st.launched call relay made).Left other)
    (hruns : (st.launched call relay made).Runs other key)
    (hcreated : st.progress call = .created relay) (hmade : st.heap[relay]? = some made)
    (hidle : made.running = false) :
    st.Runs other key ∧ st.Left other ∨
      other = relay ∧ made.streamKey = key ∧ key.length < 8 := by
  rcases (runs_set_iff hmade hidle).mp hruns with hbefore | ⟨rfl, rfl⟩
  · exact .inl ⟨hbefore, State.Left.of_goOn hleft (by rw [hcreated]; exact nofun)⟩
  · refine .inr ⟨rfl, rfl, not_le.mp fun hlong ↦ ?_⟩
    exact (left_goOn_iff.mp hleft).1 (if_neg (not_lt.mpr hlong))

/-- A call starts its relay. Assumes: where its key is too short for the log line, no relay of the
stream runs. -/
theorem Kept.start (hkept : Kept streamKey st) {call relay : ℕ}
    (hcreated : st.progress call = .created relay)
    (halone : (streamKey call).length < 8 → ∀ other, ¬st.Runs other (streamKey call)) :
    Kept streamKey (start st call relay) := by
  obtain ⟨made, hmade, hkey, hidle⟩ := (hkept.sound call).created relay hcreated
  have hwaits : st.Waits relay (streamKey call) := ⟨made, hmade, hkey, hidle⟩
  rw [start_eq hmade hidle]
  have hother : ∀ other address, other ≠ call → (st.progress other).Holds address →
      address ≠ relay := by
    rintro other address hne hholds rfl
    exact hne (hkept.own other call address hholds (.inl hcreated))
  have hnext : ∀ address,
      (if made.streamKey.length < 8 then Progress.panicked else .started relay) =
        .started address → address = relay ∧ 8 ≤ (streamKey call).length := by
    intro address hstarted
    split_ifs at hstarted with hshort
    exact ⟨(Progress.started.inj hstarted).symm, hkey ▸ not_lt.mp hshort⟩
  refine hkept.goOn rfl (fun address key hruns ↦ (runs_set_iff hmade hidle).mpr (.inl hruns))
    (fun other address hne hholds ↦ waits_set (hother other address hne (.inl hholds))
      ((hkept.sound other).created address hholds))
    (fun other address _ hstarted ↦ ((hkept.sound other).started address hstarted).2.2)
    ⟨fun address hnew ↦ ?_, fun address hstarted ↦ ?_, fun address hknown ↦ ?_⟩
    (fun other address hne hnew hholds ↦ ?_) (fun address key hstarted hruns ↦ ?_)
    ⟨fun key address hlisted ↦ ?_, fun key address hruns hleft hlong ↦ ?_,
      fun key address address' hruns hruns' hleft hleft' ↦ ?_⟩
  · split_ifs at hnew
  · obtain ⟨rfl, hlong⟩ := hnext address hstarted
    refine ⟨(runs_set_iff hmade hidle).mpr (.inr ⟨rfl, hkey⟩), hlong, fun key hlisted ↦ ?_⟩
    exact hwaits.not_runs (hkept.behind.listed key address hlisted)
  · split_ifs at hknown <;> rcases hknown with hknown | hknown <;> cases hknown
  · rcases hnew with hnew | hstarted
    · split_ifs at hnew
    · exact hother other address hne hholds (hnext address hstarted).1
  · obtain ⟨rfl, -⟩ := hnext address hstarted
    exact hwaits.not_runs hruns
  · exact (runs_set_iff hmade hidle).mpr (.inl (hkept.behind.listed key address hlisted))
  · rcases hleft.of_launched hruns hcreated hmade hidle with ⟨hbefore, hbefore'⟩ | ⟨-, -, hshort⟩
    · exact hkept.behind.found key address hbefore hbefore' hlong
    · exact absurd hlong (not_le.mpr hshort)
  · rcases hleft.of_launched hruns hcreated hmade hidle with
      ⟨hbefore, hbefore'⟩ | ⟨rfl, rfl, hshort⟩
    · rcases hleft'.of_launched hruns' hcreated hmade hidle with
        ⟨hother, hother'⟩ | ⟨-, rfl, hshort⟩
      · exact hkept.behind.alone key address address' hbefore hother hbefore' hother'
      · exact absurd (hkey ▸ hbefore) (halone (hkey ▸ hshort) address)
    · rcases hleft'.of_launched hruns' hcreated hmade hidle with ⟨hother, -⟩ | ⟨rfl, -, -⟩
      · exact absurd (hkey ▸ hother) (halone (hkey ▸ hshort) address')
      · rfl

/-- The table with the relay of a call that inserts it. -/
def State.inserted (st : State) (key : GoString) (call relay : ℕ) : State :=
  { st with relays := Function.update st.relays key (some relay) }.goOn call
    (.returned (some relay))

/-- The inserted relay is left by its call, which nobody else holds. -/
theorem Kept.left_inserted (hkept : Kept streamKey st) {call relay : ℕ}
    (hstarted : st.progress call = .started relay) :
    (st.inserted (streamKey call) call relay).Left relay ∧
      ∀ address, st.Left address → (st.inserted (streamKey call) call relay).Left address := by
  refine ⟨left_goOn_iff.mpr ⟨nofun, fun other hother hholder ↦ hother ?_⟩,
    fun address hleft ↦ left_goOn_iff.mpr ⟨nofun, fun other _ ↦ hleft other⟩⟩
  exact hkept.own other call relay (.inr hholder) (.inr hstarted)

/-- A relay that is left once another one is inserted was left before. -/
theorem State.Left.of_inserted {call relay address : ℕ} {key : GoString}
    (hstarted : st.progress call = .started relay)
    (hleft : (st.inserted key call relay).Left address) (hne : address ≠ relay) :
    st.Left address := by
  refine State.Left.of_goOn hleft ?_
  rw [hstarted]
  exact fun hsame ↦ hne (Progress.started.inj hsame).symm

/-- A call inserts its relay. Assumes: the table has none of the stream. -/
theorem Kept.insert (hkept : Kept streamKey st) {call relay : ℕ}
    (hstarted : st.progress call = .started relay)
    (hnone : st.relays (streamKey call) = none) :
    Kept streamKey (st.inserted (streamKey call) call relay) := by
  obtain ⟨hruns, hlong, -⟩ := (hkept.sound call).started relay hstarted
  obtain ⟨hnew, hstays⟩ := hkept.left_inserted hstarted
  have hrelays : ∀ key, (st.inserted (streamKey call) call relay).relays key =
      if key = streamKey call then some relay else st.relays key :=
    fun key ↦ Function.update_apply ..
  have hfound : ∀ key address, st.Runs address key →
      (st.inserted (streamKey call) call relay).Left address → 8 ≤ key.length →
        (st.inserted (streamKey call) call relay).relays key = some address := by
    intro key address haddress hleft hlong'
    rw [hrelays]
    by_cases hrelay : address = relay
    · subst hrelay
      rw [if_pos (haddress.key_eq hruns)]
    · have hlisted :=
        hkept.behind.found key address haddress (hleft.of_inserted hstarted hrelay) hlong'
      rw [if_neg, hlisted]
      rintro rfl
      rw [hnone] at hlisted
      cases hlisted
  refine hkept.goOn rfl (fun address key haddress ↦ haddress)
    (fun other address _ hcreated ↦ (hkept.sound other).created address hcreated)
    (fun other address hne hholds key hlisted ↦ ?_)
    ⟨nofun, nofun, fun address hknown ↦ ?_⟩
    (fun other address _ hholds ↦ absurd hholds (not_or.mpr ⟨nofun, nofun⟩)) nofun
    ⟨fun key address hlisted ↦ ?_, hfound,
      fun key address address' haddress haddress' hleft hleft' ↦ ?_⟩
  · change (st.inserted (streamKey call) call relay).relays key = _ at hlisted
    rw [hrelays] at hlisted
    split_ifs at hlisted
    · obtain rfl := Option.some.inj hlisted
      exact hne (hkept.own other call relay (.inr hholds) (.inr hstarted))
    · exact ((hkept.sound other).started address hholds).2.2 key hlisted
  · rcases hknown with hknown | hknown
    · cases hknown
    · obtain rfl := Option.some.inj (Progress.returned.inj hknown)
      exact ⟨hruns, hnew⟩
  · change (st.inserted (streamKey call) call relay).relays key = _ at hlisted
    rw [hrelays] at hlisted
    split_ifs at hlisted with hkey
    · obtain rfl := Option.some.inj hlisted
      exact hkey ▸ hruns
    · exact hkept.behind.listed key address hlisted
  · rcases le_or_gt 8 key.length with hlong' | hshort
    · have hlisted := hfound key address haddress hleft hlong'
      rw [hfound key address' haddress' hleft' hlong'] at hlisted
      exact (Option.some.inj hlisted).symm
    · -- The inserted relay is of a long key.
      have hold : ∀ other, st.Runs other key → other ≠ relay := by
        rintro other hother rfl
        exact absurd (hother.key_eq hruns ▸ hlong) (not_le.mpr hshort)
      exact hkept.behind.alone key address address' haddress haddress'
        (hleft.of_inserted hstarted (hold address haddress))
        (hleft'.of_inserted hstarted (hold address' haddress'))

/-! ### All runs -/

/-- A section of a call keeps what is kept. Assumes: the call inserts alone. -/
theorem Kept.step (hkept : Kept streamKey st) {turn : Turn}
    (halone : InsertsAlone streamKey st turn) :
    Kept streamKey (getOrCreateRelay decodeString streamKey st turn) := by
  unfold InsertsAlone at halone
  unfold getOrCreateRelay
  split
  · rename_i hready
    exact hkept.lookUp hready
  · rename_i hlooked
    refine hkept.without (fun relay ↦ ?_) (.inl rfl)
    rw [hlooked]
    exact nofun
  · rename_i relay hlooked
    obtain ⟨hruns, hleft⟩ := (hkept.sound turn.call).known relay (.inl hlooked)
    rw [hruns.isRunning, if_pos rfl]
    refine hkept.move (fun other ↦ ?_) (fun other ↦ not_or.mpr ⟨nofun, nofun⟩)
      fun other hnext ↦ ?_
    · rw [hlooked]
      exact nofun
    · rcases hnext with hnext | hnext
      · cases hnext
      · obtain rfl := Option.some.inj (Progress.returned.inj hnext)
        exact ⟨hruns, hleft⟩
  · rename_i hmissed
    exact hkept.create hmissed turn.answer
  · rename_i relay hcreated
    rw [hcreated] at halone
    exact hkept.start hcreated halone
  · rename_i relay hstarted
    rw [hstarted] at halone
    exact hkept.insert hstarted halone
  · exact hkept
  · exact hkept

/-- A call that does not insert alone leaves two relays of its stream. -/
theorem Kept.insertsAlone (hkept : Kept streamKey st) {turn : Turn}
    (hone : OneRelay streamKey (getOrCreateRelay decodeString streamKey st turn)) :
    InsertsAlone streamKey st turn := by
  unfold InsertsAlone
  split
  · rename_i relay hcreated
    intro hshort other hother
    obtain ⟨made, hmade, hkey, hidle⟩ := (hkept.sound turn.call).created relay hcreated
    have hwaits : st.Waits relay (streamKey turn.call) := ⟨made, hmade, hkey, hidle⟩
    have hnext : getOrCreateRelay decodeString streamKey st turn =
        st.launched turn.call relay made := by
      rw [getOrCreateRelay, hcreated]
      exact start_eq hmade hidle
    have hpanicked : (if made.streamKey.length < 8 then Progress.panicked else .started relay) =
        .panicked := if_pos (hkey ▸ hshort)
    have hstays : ∀ address, st.Left address → (st.launched turn.call relay made).Left address := by
      refine fun address hleft ↦ left_goOn_iff.mpr ⟨?_, fun holder _ ↦ hleft holder⟩
      rw [hpanicked]
      exact nofun
    have hleft : st.Left relay := fun holder hholder ↦
      hwaits.not_runs ((hkept.sound holder).started relay hholder).1
    have hleft' : st.Left other := by
      intro holder hholder
      obtain ⟨hruns, hlong, -⟩ := (hkept.sound holder).started other hholder
      rw [hruns.key_eq hother] at hlong
      exact absurd hlong (not_le.mpr hshort)
    rw [hnext] at hone
    have hsame := hone.alone (streamKey turn.call) relay other
      ((runs_set_iff hmade hidle).mpr (.inr ⟨rfl, hkey⟩))
      ((runs_set_iff hmade hidle).mpr (.inl hother))
      (hstays relay hleft) (hstays other hleft')
    exact hwaits.not_runs (hsame ▸ hother)
  · rename_i relay hstarted
    have hnext : getOrCreateRelay decodeString streamKey st turn =
        st.inserted (streamKey turn.call) turn.call relay := by
      rw [getOrCreateRelay, hstarted]
      rfl
    rw [hnext] at hone
    obtain ⟨hruns, -, hunlisted⟩ := (hkept.sound turn.call).started relay hstarted
    obtain ⟨hnew, hstays⟩ := hkept.left_inserted hstarted
    cases hlisted : st.relays (streamKey turn.call) with
    | none => rfl
    | some other =>
      have hsame := hone.alone (streamKey turn.call) relay other hruns
        (hkept.behind.listed _ other hlisted) hnew (hstays other (hkept.left_of_listed hlisted))
      exact absurd (hsame ▸ hlisted) (hunlisted _)
  · trivial

variable (decodeString streamKey)

/-- However the calls interleave, those for a stream return one relay, and one runs behind them,
exactly when every call that comes to insert finds no relay of its stream in the table, and none
whose key is too short for the log line of `Start` starts a relay beside another one. -/
theorem oneRelay_iff (turns : List Turn) :
    (∀ taken, taken <+: turns →
      OneRelay streamKey (run (getOrCreateRelay decodeString streamKey) State.initial taken)) ↔
      EachStepMeets (getOrCreateRelay decodeString streamKey) (InsertsAlone streamKey)
        State.initial turns := by
  have hinitial : Kept streamKey State.initial := kept_initial
  rw [forall_prefix_iff, and_iff_right hinitial.oneRelay]
  refine (eachStepMeets_iff_of_kept _ (fun st turn hkept halone ↦ hkept.step halone)
    (fun st turn hkept ↦ ?_) hinitial turns).symm
  exact ⟨fun halone ↦ (hkept.step halone).oneRelay, hkept.insertsAlone⟩

/-! ### Two calls at once -/

/-- The key of a stream. -/
def channelKey : GoString := Library.ByteText.asciiBytes "channel-1".toList

/-- Sixteen zero bytes in base64. -/
def zeroKey : GoString := Library.ByteText.asciiBytes "AAAAAAAAAAAAAAAAAAAAAA==".toList

/-- A decoder that knows the sixteen zero bytes. -/
def decodeZeroKey (text : GoString) : Option (List UInt8) :=
  if text = zeroKey then some (List.replicate 16 0) else none

/-- Two calls that take turns, one section each. -/
def alternating : List Turn :=
  [0, 1, 0, 1, 0, 1, 0, 1, 0, 1].map fun call ↦ ⟨call, some ⟨[], zeroKey, zeroKey, []⟩⟩

/-- Both calls miss, and each starts a relay and returns it. -/
theorem twoRelays_alternating :
    let st := run (getOrCreateRelay decodeZeroKey fun _ ↦ channelKey) State.initial alternating
    st.progress 0 = .returned (some 0) ∧ st.progress 1 = .returned (some 1) ∧
      st.Runs 0 channelKey ∧ st.Runs 1 channelKey ∧ ¬OneRelay (fun _ ↦ channelKey) st := by
  intro st
  have hfirst : st.progress 0 = .returned (some 0) := by decide +kernel
  have hsecond : st.progress 1 = .returned (some 1) := by decide +kernel
  refine ⟨hfirst, hsecond, ⟨_, Option.mem_def.mpr rfl, by decide +kernel⟩,
    ⟨_, Option.mem_def.mpr rfl, by decide +kernel⟩, fun hone ↦ ?_⟩
  exact Nat.zero_ne_one (hone.agreed 0 1 0 1 rfl hfirst hsecond)

end LiveCDN.Agent.GoRelayTable
