import LiveCDN.Agent.ChunkCrypto
import LiveCDN.Library.GuardedRun

/-!
# A client joins an encrypted stream

The pull loop of `StreamRelay::start` in `relay/mod.rs` seals each changed playlist and each new
segment, puts it into the list of recent segments and broadcasts it. A client that joins
(`handle_ws_encrypted_mode`) is handed the latest playlist, subscribes, and is then handed what is
broadcast. `step` is one of these steps, taken by either side in any order.

The client has a fresh decryptor, whose counter starts at zero, while the counter of the relay went
on from its first block. So the client reads what it is handed exactly when each payload was sealed
under the number of payloads handed before it (`decryptable_run_iff`): the playlist it joins with
was the first block of all, and the broadcasts go on from there. A client that joins later cannot
open what it is handed (`decryptable_counterexample`).

Scope. The playlists and segments the loop fetches are inputs. The client loses no broadcast.
-/

set_option autoImplicit false
set_option relaxedAutoImplicit false

namespace LiveCDN.Agent.EncryptedJoin

open ChunkCrypto Library.GuardedRun

/-! ### The relay and the client -/

/-- `SegType`. -/
inductive SegType
  | m3u8
  | ts
  deriving DecidableEq, Repr

variable {Key : Type} (aead : Aead Key)

/-- The fields of `CachedSegment` that a client is handed. -/
structure CachedSegment where
  segType : SegType
  data : Block aead

/-- How far the pull loop is with the chunk it works on. -/
inductive Progress
  | idle
  | encrypted (segment : CachedSegment aead)
  | cached (segment : CachedSegment aead)

/-- How far the handler of the client is. -/
inductive Stage
  | arrived
  | tookLatest
  | subscribed
  deriving DecidableEq, Repr

/-- A data frame a client is handed: the sequence number in its header, and the payload. -/
structure Payload where
  frameSeq : UInt32
  data : Block aead

/-- The state of the relay and of one client. -/
structure State where
  encryptor : StreamEncryptor
  segments : List (CachedSegment aead)
  progress : Progress aead
  /-- `seq_counter`, the number of the next frame. -/
  seqCounter : UInt32
  stage : Stage
  /-- What the client has been handed. -/
  handed : List (Payload aead)

/-- The state before the first block, and before the client. -/
def State.initial : State aead := ⟨.new, [], .idle, 0, .arrived, []⟩

/-- A step of the pull loop, or of the handler of the client. -/
inductive Action
  | encrypt (segType : SegType) (nonce : Nonce) (data : List UInt8)
  | cache
  | broadcast
  | takeLatest
  | subscribe

variable {aead}

/-- `latest_m3u8`. -/
def State.latestM3u8 (st : State aead) : Option (Block aead) :=
  (st.segments.reverse.find? fun segment ↦ decide (segment.segType = .m3u8)).map
    CachedSegment.data

/-- One step; a step out of its side's order changes nothing. -/
def step (maxSegments : ℕ) (st : State aead) : Action → State aead
  | .encrypt segType nonce data =>
    match st.progress with
    | .idle =>
      { st with
        encryptor := (st.encryptor.encrypt aead nonce data).2
        progress :=
          match (st.encryptor.encrypt aead nonce data).1 with
          | .ok block => .encrypted ⟨segType, block⟩
          | .error _ => .idle }
    | .encrypted _ => st
    | .cached _ => st
  | .cache =>
    match st.progress with
    | .encrypted segment =>
      { st with
        segments :=
          (st.segments ++ [segment]).drop ((st.segments ++ [segment]).length - maxSegments)
        progress := .cached segment }
    | .idle => st
    | .cached _ => st
  | .broadcast =>
    match st.progress with
    | .cached segment =>
      { st with
        progress := .idle
        seqCounter := st.seqCounter + 1
        handed :=
          if st.stage = .subscribed then st.handed ++ [⟨st.seqCounter, segment.data⟩]
          else st.handed }
    | .idle => st
    | .encrypted _ => st
  | .takeLatest =>
    if st.stage = .arrived then
      { st with
        stage := .tookLatest
        handed := st.handed ++ st.latestM3u8.toList.map fun block ↦ ⟨0, block⟩ }
    else st
  | .subscribe => if st.stage = .tookLatest then { st with stage := .subscribed } else st

/-! ### What the client can read -/

/-- The blocks the client has been handed. -/
def State.blocks (st : State aead) : List (Block aead) := st.handed.map Payload.data

/-- A fresh decryptor gives the plaintexts of all payloads back, in order. -/
def Decryptable (st : State aead) : Prop :=
  StreamDecryptor.new.decryptAll aead (st.blocks.map Block.data) =
    st.blocks.map fun block ↦ .ok block.plaintext

/-- What the step hands to the client was sealed under the number of payloads handed before it. -/
def InStep (st : State aead) : Action → Prop
  | .takeLatest => st.stage = .arrived → ∀ block ∈ st.latestM3u8, block.sealedAt = 0
  | .broadcast => st.stage = .subscribed → ∀ segment, st.progress = .cached segment →
      segment.data.sealedAt = UInt32.ofNat st.handed.length
  | .encrypt _ _ _ => True
  | .cache => True
  | .subscribe => True

/-- The blocks are sealed under consecutive numbers from a start. -/
def NumberedFrom (start : ℕ) (blocks : List (Block aead)) : Prop :=
  ∀ index block, blocks[index]? = some block → block.sealedAt = UInt32.ofNat (start + index)

theorem numberedFrom_append (start : ℕ) (first second : List (Block aead)) :
    NumberedFrom start (first ++ second) ↔
      NumberedFrom start first ∧ NumberedFrom (start + first.length) second := by
  constructor
  · intro hall
    refine ⟨?_, ?_⟩
    · intro index block hfound
      obtain ⟨hindex, -⟩ := List.getElem?_eq_some_iff.mp hfound
      exact hall index block ((List.getElem?_append_left hindex).trans hfound)
    · intro index block hfound
      rw [Nat.add_assoc]
      apply hall
      rw [List.getElem?_append_right (Nat.le_add_right _ _), Nat.add_sub_cancel_left]
      exact hfound
  · rintro ⟨hfirst, hsecond⟩ index block hfound
    by_cases hindex : index < first.length
    · rw [List.getElem?_append_left hindex] at hfound
      exact hfirst index block hfound
    · rw [List.getElem?_append_right (Nat.le_of_not_lt hindex)] at hfound
      have hblock := hsecond _ block hfound
      rwa [Nat.add_assoc, Nat.add_sub_cancel' (Nat.le_of_not_lt hindex)] at hblock

theorem numberedFrom_nil (start : ℕ) : NumberedFrom start ([] : List (Block aead)) := by
  intro index block hfound
  simp at hfound

theorem numberedFrom_singleton (start : ℕ) (block : Block aead) :
    NumberedFrom start [block] ↔ block.sealedAt = UInt32.ofNat start := by
  constructor
  · intro hall
    exact hall 0 block rfl
  · intro hblock index other hfound
    obtain ⟨hindex, rfl⟩ := List.getElem?_eq_some_iff.mp hfound
    obtain rfl : index = 0 := by simpa using hindex
    exact hblock

/-- The client reads everything exactly when the payloads are numbered from zero. Assumes: the
cipher is lawful. -/
theorem decryptable_iff_numbered (hlawful : aead.Lawful) (st : State aead) :
    Decryptable st ↔ NumberedFrom 0 st.blocks := by
  rw [Decryptable, decryptAll_eq_iff hlawful]
  simp [NumberedFrom, StreamDecryptor.new]

/-! ### What the steps hand over -/

/-- The blocks that a step hands to the client. -/
def handedBy (st : State aead) : Action → List (Block aead)
  | .takeLatest => if st.stage = .arrived then st.latestM3u8.toList else []
  | .broadcast =>
    match st.progress with
    | .cached segment => if st.stage = .subscribed then [segment.data] else []
    | _ => []
  | _ => []

variable {maxSegments : ℕ} {st : State aead}

/-- A step hands its blocks over behind those before it. -/
theorem blocks_step (st : State aead) (action : Action) :
    (step maxSegments st action).blocks = st.blocks ++ handedBy st action := by
  cases action with
  | encrypt segType nonce data =>
    cases hprogress : st.progress <;> simp [step, State.blocks, handedBy, hprogress]
  | cache => cases hprogress : st.progress <;> simp [step, State.blocks, handedBy, hprogress]
  | broadcast =>
    by_cases hstage : st.stage = .subscribed <;> cases hprogress : st.progress <;>
      simp [step, State.blocks, handedBy, hprogress, hstage]
  | takeLatest =>
    by_cases hstage : st.stage = .arrived <;>
      simp [step, State.blocks, handedBy, hstage, Function.comp_def]
  | subscribe =>
    by_cases hstage : st.stage = .tookLatest <;> simp [step, State.blocks, handedBy, hstage]

/-- A client that has just arrived has been handed nothing. -/
def NothingYet (st : State aead) : Prop := st.stage = .arrived → st.handed = []

theorem nothingYet_iff (st : State aead) :
    NothingYet st ↔ (st.stage = .arrived → st.blocks = []) := by
  simp [NothingYet, State.blocks]

/-- A client that has still to take the latest playlist is handed nothing. Assumes: it has just
arrived after the step. -/
theorem handedBy_of_arrived {action : Action}
    (harrived : (step maxSegments st action).stage = .arrived) :
    st.stage = .arrived ∧ handedBy st action = [] := by
  cases action with
  | encrypt segType nonce data =>
    refine ⟨?_, rfl⟩
    cases hprogress : st.progress <;> simpa [step, hprogress] using harrived
  | cache =>
    refine ⟨?_, rfl⟩
    cases hprogress : st.progress <;> simpa [step, hprogress] using harrived
  | broadcast =>
    have hbefore : st.stage = .arrived := by
      cases hprogress : st.progress <;> simpa [step, hprogress] using harrived
    refine ⟨hbefore, ?_⟩
    cases hprogress : st.progress <;> simp [handedBy, hprogress, hbefore]
  | takeLatest =>
    by_cases hstage : st.stage = .arrived
    · simp [step, hstage] at harrived
    · simp [step, hstage] at harrived
  | subscribe =>
    refine ⟨?_, rfl⟩
    by_cases hstage : st.stage = .tookLatest
    · simp [step, hstage] at harrived
    · simpa [step, hstage] using harrived

theorem nothingYet_step (hst : NothingYet st) (action : Action) :
    NothingYet (step maxSegments st action) := by
  rw [nothingYet_iff] at hst ⊢
  intro harrived
  obtain ⟨hbefore, hnone⟩ := handedBy_of_arrived harrived
  rw [blocks_step, hst hbefore, hnone, List.append_nil]

/-- A step is in step with the client when what it hands over continues the numbers. Assumes: a
client that has just arrived has been handed nothing. -/
theorem inStep_iff (hst : NothingYet st) (action : Action) :
    InStep st action ↔ NumberedFrom st.blocks.length (handedBy st action) := by
  cases action with
  | encrypt segType nonce data => exact iff_of_true trivial (numberedFrom_nil _)
  | cache => exact iff_of_true trivial (numberedFrom_nil _)
  | subscribe => exact iff_of_true trivial (numberedFrom_nil _)
  | takeLatest =>
    by_cases hstage : st.stage = .arrived
    · have hnone : st.blocks = [] := (nothingYet_iff st).mp hst hstage
      rw [handedBy, if_pos hstage, hnone]
      cases hlatest : st.latestM3u8 with
      | none => exact iff_of_true (by simp [InStep, hlatest]) (numberedFrom_nil _)
      | some block =>
        rw [Option.toList_some, numberedFrom_singleton]
        simp [InStep, hlatest, hstage]
    · rw [handedBy, if_neg hstage]
      exact iff_of_true (fun h ↦ absurd h hstage) (numberedFrom_nil _)
  | broadcast =>
    have hlength : st.blocks.length = st.handed.length := by simp [State.blocks]
    cases hprogress : st.progress with
    | idle =>
      refine iff_of_true ?_ ?_
      · simp [InStep, hprogress]
      · simpa [handedBy, hprogress] using numberedFrom_nil _
    | encrypted segment =>
      refine iff_of_true ?_ ?_
      · simp [InStep, hprogress]
      · simpa [handedBy, hprogress] using numberedFrom_nil _
    | cached segment =>
      by_cases hstage : st.stage = .subscribed
      · simp only [handedBy, hprogress, if_pos hstage]
        rw [numberedFrom_singleton, hlength]
        simp [InStep, hprogress, hstage]
      · simp only [handedBy, hprogress, if_neg hstage]
        exact iff_of_true (fun h ↦ absurd h hstage) (numberedFrom_nil _)

/-- After a run the client reads everything it has been handed exactly when each payload was sealed
under the number of payloads handed before it. Assumes: the cipher is lawful. -/
theorem decryptable_run_iff (hlawful : aead.Lawful) (maxSegments : ℕ) (actions : List Action) :
    Decryptable (run (step maxSegments) (.initial aead) actions) ↔
      EachStepMeets (step maxSegments) InStep (.initial aead) actions := by
  rw [decryptable_iff_numbered hlawful]
  exact run_iff_eachStepMeets (step maxSegments)
    (fun st action (hst : NothingYet st) ↦ nothingYet_step hst action)
    (fun st action hst (hgood : NumberedFrom 0 st.blocks) hstep ↦ by
      rw [blocks_step, numberedFrom_append, Nat.zero_add]
      exact ⟨hgood, (inStep_iff hst action).mp hstep⟩)
    (fun st action hst _ hstep ↦ by
      rw [inStep_iff hst action] at hstep
      show ¬ NumberedFrom 0 (step maxSegments st action).blocks
      rw [blocks_step, numberedFrom_append, Nat.zero_add]
      exact fun hboth ↦ hstep hboth.2)
    (fun st action _ (hbad : ¬ NumberedFrom 0 st.blocks) ↦ by
      rw [blocks_step, numberedFrom_append]
      exact fun hboth ↦ hbad hboth.1)
    (fun _ hbad hgood ↦ hbad hgood) (fun _ ↦ rfl)
    (show NumberedFrom 0 (State.initial aead).blocks from numberedFrom_nil 0) actions

/-! ### Two clients -/

/-- The nonce of zeros. -/
def zeroNonce : Nonce := ⟨List.replicate nonceLen 0, rfl⟩

/-- A playlist and two segments are sealed and broadcast, the client being there from the start. -/
def earlyJoin : List Action :=
  [.takeLatest, .subscribe, .encrypt .m3u8 zeroNonce [1], .cache, .broadcast,
    .encrypt .ts zeroNonce [2], .cache, .broadcast, .encrypt .ts zeroNonce [3], .cache, .broadcast]

/-- A playlist and a segment are broadcast, a client joins, and the next segment is broadcast. -/
def lateJoin : List Action :=
  [.encrypt .m3u8 zeroNonce [1], .cache, .broadcast, .encrypt .ts zeroNonce [2], .cache, .broadcast,
    .takeLatest, .subscribe, .encrypt .ts zeroNonce [3], .cache, .broadcast]

/-- A witness of `decryptable_run_iff`. -/
theorem decryptable_run_iff_witness :
    Decryptable (run (step 30) (.initial tagCipher) earlyJoin) ↔
      EachStepMeets (step 30) InStep (.initial tagCipher) earlyJoin :=
  decryptable_run_iff lawful_tagCipher 30 earlyJoin

/-- The client that joins late is handed the first block and the third, and cannot open the
third. -/
theorem decryptable_counterexample :
    tagCipher.Lawful ∧ ¬ Decryptable (run (step 30) (.initial tagCipher) lateJoin) := by
  refine ⟨lawful_tagCipher, ?_⟩
  rw [decryptable_iff_numbered lawful_tagCipher]
  intro hnumbered
  have hcounters : (run (step 30) (.initial tagCipher) lateJoin).blocks.map Block.sealedAt =
      [0, 2] := by decide +kernel
  obtain ⟨block, hblock, hcounter⟩ : ∃ block,
      (run (step 30) (.initial tagCipher) lateJoin).blocks[1]? = some block ∧
        block.sealedAt = 2 := by
    rw [← Option.map_eq_some_iff, ← List.getElem?_map, hcounters]
    rfl
  have hsecond := hnumbered 1 block hblock
  rw [hcounter] at hsecond
  exact absurd hsecond (by decide)

end LiveCDN.Agent.EncryptedJoin
