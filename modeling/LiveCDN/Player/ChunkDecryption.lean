import LiveCDN.Agent.ChunkCrypto
import LiveCDN.Library.GuardedRun
import LiveCDN.Player.FrameReading

/-!
# How the player decrypts

`web/player.html`: `ws.onmessage` starts `handleStreamData` for each message and does not wait for
it, so several calls of `decryptAESGCM` can be under way at once. A call reads `seqNum` before it
waits for the key of the chunk, counts it after that wait, waits a second time for the decryption,
and feeds the media buffer when that has come back; a chunk that does not open is fed as it came.
The promises come back in any order (`step`).

Sealed chunks in the frames of the agent, sent to such a player (`transmit`), are all played in
order, once every call has returned, exactly when each chunk opens under the number of keys derived
when it arrives, and each decryption that comes back is the oldest under way (`plays_iff`). Where
both ends derive the same keys, that number must be the counter that the chunk was sealed under
(`opens_iff_of_same`): with chunks numbered from zero, no chunk may arrive while the key of an
earlier one is being derived.

Scope. Streams with a key, of a length that `importKey` takes. The ciphers and key derivations of
the sender (`Aead`) and of the player (`Subtle`) are parameters: `deriveChunkKey` hashes the key of
the stream with the number, `derive_chunk_key` of the Rust agent is an HKDF of the two. A chunk has
the frame of the agent's encoder around it, with fewer than `2 ^ 31` bytes (`Chunk`).
-/

set_option autoImplicit false
set_option relaxedAutoImplicit false

namespace LiveCDN.Player.ChunkDecryption

open Library.GuardedRun Agent.ChunkCrypto Agent.FrameProtocol FrameReading

variable {Key SenderKey : Type}

/-! ### The player -/

/-- The keys of `deriveChunkKey`, and what `crypto.subtle.decrypt` makes of an `iv` and a
ciphertext under a key, unless it rejects them. -/
structure Subtle (Key : Type) where
  deriveChunkKey : UInt32 → Key
  decrypt : Key → List UInt8 → List UInt8 → Option (List UInt8)

/-- What a call of `decryptAESGCM` waits for: the key of a number, or the decryption under it. -/
inductive Stage
  | deriveChunkKey
  | decrypt
  deriving DecidableEq, Repr

/-- A call of `decryptAESGCM` that has not returned, for the message of a place in the order of
arrival. -/
structure Call where
  arrival : ℕ
  payload : List UInt8
  seqNum : ℕ
  stage : Stage
  deriving DecidableEq, Repr

/-- The decryptor of the player, its calls, the chunks that the media buffer was fed, each with the
place of its message, and the number of chunks that have arrived. -/
structure Page where
  seqNum : ℕ
  calls : List Call
  fed : List (List UInt8 × ℕ)
  arrivals : ℕ
  deriving DecidableEq, Repr

/-- `new StreamDecryptor`. -/
def Page.new : Page := ⟨0, [], [], 0⟩

/-- What `decryptAESGCM` returns under the key of a number: a chunk that does not open is returned
as it is. -/
def decryptAesGcm (subtle : Subtle Key) (seqNum : ℕ) (data : List UInt8) : List UInt8 :=
  if data.length < 28 then data
  else
    let derivedKey := subtle.deriveChunkKey (UInt32.ofNat seqNum)
    (subtle.decrypt derivedKey (data.take 12) (data.drop 12)).getD data

/-- `feedToMSE`, for the message that has arrived last. -/
def Page.feedToMse (page : Page) (data : List UInt8) : Page :=
  { page with
    fed := page.fed ++ [(data, page.arrivals)]
    arrivals := page.arrivals + 1 }

/-- `decrypt`, up to its first wait. A short payload is fed before the next message arrives. -/
def Page.decrypt (page : Page) (payload : List UInt8) : Page :=
  if payload.length < 28 then page.feedToMse payload
  else
    { page with
      calls := page.calls ++ [⟨page.arrivals, payload, page.seqNum, .deriveChunkKey⟩]
      arrivals := page.arrivals + 1 }

/-- A message arrives, the key of a call has been derived, or a decryption has come back. -/
inductive Event
  | message (data : List UInt8)
  | keyDerived (index : ℕ)
  | decrypted (index : ℕ)

/-- The player after an event. -/
def step (subtle : Subtle Key) (page : Page) : Event → Page
  | .message data =>
    match handleStreamData data with
    | .ignored => page
    | .raw chunk => page.feedToMse chunk
    | .frame frameType _ payload => if frameType = 0x02 then page.decrypt payload else page
  | .keyDerived index =>
    match page.calls[index]? with
    | none => page
    | some call =>
      if call.stage = .deriveChunkKey then
        { page with
          seqNum := page.seqNum + 1
          calls := page.calls.set index { call with stage := .decrypt } }
      else page
  | .decrypted index =>
    match page.calls[index]? with
    | none => page
    | some call =>
      if call.stage = .decrypt then
        { page with
          calls := page.calls.eraseIdx index
          fed := page.fed ++ [(decryptAesGcm subtle call.seqNum call.payload, call.arrival)] }
      else page

/-! ### What is sent -/

/-- A sealed chunk, with the fields of its frame. -/
structure Chunk (aead : Aead SenderKey) where
  seq : UInt32
  originTs : UInt64
  block : Block aead
  fits : block.data.length < 2 ^ 31

/-- The message of a chunk. -/
def Chunk.message {aead : Aead SenderKey} (chunk : Chunk aead) : List UInt8 :=
  (Frame.newWithTs .data chunk.seq chunk.originTs chunk.block.data).encode

/-- The player, and the blocks that were sent to it. -/
structure Playback (aead : Aead SenderKey) where
  page : Page
  sent : List (Block aead)

variable (aead : Aead SenderKey)

/-- Nothing has been sent. -/
def Playback.initial : Playback aead := ⟨.new, []⟩

/-- A chunk is sent and arrives, or a promise of the player comes back. -/
inductive Action
  | send (chunk : Chunk aead)
  | keyDerived (index : ℕ)
  | decrypted (index : ℕ)

variable {aead} (subtle : Subtle Key)

/-- A playback after an action. -/
def transmit (play : Playback aead) : Action aead → Playback aead
  | .send chunk => ⟨step subtle play.page (.message chunk.message), play.sent ++ [chunk.block]⟩
  | .keyDerived index => { play with page := step subtle play.page (.keyDerived index) }
  | .decrypted index => { play with page := step subtle play.page (.decrypted index) }

/-- The chunks as the media buffer should be fed. -/
def Playback.expected (play : Playback aead) : List (List UInt8 × ℕ) :=
  (play.sent.map Block.plaintext).zipIdx

/-- Everything that was sent has been fed, in order and decrypted. -/
def Plays (play : Playback aead) : Prop := play.page.fed = play.expected

/-- A block opens under the key of a number. -/
def Opens (seqNum : ℕ) (block : Block aead) : Prop :=
  subtle.decrypt (subtle.deriveChunkKey (UInt32.ofNat seqNum)) block.nonce.bytes block.body =
    some block.plaintext

/-- A chunk arrives that opens under the number of keys derived so far, and a decryption that comes
back is the oldest under way. -/
def InTurn (play : Playback aead) : Action aead → Prop
  | .send chunk => Opens subtle play.page.seqNum chunk.block
  | .keyDerived _ => True
  | .decrypted index => ∀ call ∈ play.page.calls[index]?, call.stage = .decrypt → index = 0

instance decidableOpens (seqNum : ℕ) (block : Block aead) :
    Decidable (Opens subtle seqNum block) :=
  inferInstanceAs (Decidable (subtle.decrypt _ _ _ = some block.plaintext))

instance decidableInTurn (play : Playback aead) :
    ∀ action, Decidable (InTurn subtle play action)
  | .send chunk => decidableOpens subtle play.page.seqNum chunk.block
  | .keyDerived _ => .isTrue trivial
  | .decrypted index => inferInstanceAs (Decidable (∀ call ∈ play.page.calls[index]?, _))

/-- A sealed body is as long as its plaintext and the tag. -/
def SealsWithTag (aead : Aead SenderKey) : Prop :=
  ∀ counter nonce plaintext body,
    aead.sealInPlace (aead.deriveChunkKey counter) nonce plaintext = some body →
      body.length = plaintext.length + tagLen

/-! ### Opening blocks -/

variable {subtle} {page : Page} {play : Playback aead}

/-- A block is longer than its plaintext. Assumes: the sender adds a tag. -/
theorem length_plaintext (hseals : SealsWithTag aead) (block : Block aead) :
    block.plaintext.length + 28 = block.data.length := by
  have hbody := hseals _ _ _ _ block.isSealed
  rw [Block.data, List.length_append, block.nonce.length_bytes, hbody, nonceLen, tagLen]
  omega

/-- What the player returns of a block is its plaintext exactly when it opens. Assumes: the sender
adds a tag. -/
theorem decryptAesGcm_eq_plaintext_iff (hseals : SealsWithTag aead) (seqNum : ℕ)
    (block : Block aead) :
    decryptAesGcm subtle seqNum block.data = block.plaintext ↔ Opens subtle seqNum block := by
  have hlength := length_plaintext hseals block
  have hnonce : block.data.take 12 = block.nonce.bytes :=
    List.take_left' block.nonce.length_bytes
  have hbody : block.data.drop 12 = block.body := List.drop_left' block.nonce.length_bytes
  unfold decryptAesGcm Opens
  dsimp only
  rw [if_neg (by omega), hnonce, hbody]
  cases subtle.decrypt (subtle.deriveChunkKey (UInt32.ofNat seqNum)) block.nonce.bytes
    block.body with
  | none =>
    refine iff_of_false (fun hsame ↦ ?_) nofun
    rw [Option.getD_none] at hsame
    rw [hsame] at hlength
    omega
  | some opened => rw [Option.getD_some, Option.some_inj]

/-- The player that opens as the sender's own decryptor does, with the same keys. -/
def sameKeys (aead : Aead SenderKey) : Subtle SenderKey where
  deriveChunkKey := aead.deriveChunkKey
  decrypt key iv ciphertext :=
    if h : iv.length = nonceLen then aead.openInPlace key ⟨iv, h⟩ ciphertext else none

/-- With the same keys a block opens exactly under the number that it was sealed under. Assumes: the
cipher is lawful. -/
theorem opens_iff_of_same (hlawful : aead.Lawful) (seqNum : ℕ) (block : Block aead) :
    Opens (sameKeys aead) seqNum block ↔ block.sealedAt = UInt32.ofNat seqNum := by
  unfold Opens sameKeys
  dsimp only
  rw [dif_pos block.nonce.length_bytes]
  by_cases hcounter : block.sealedAt = UInt32.ofNat seqNum
  · rw [← hcounter]
    exact iff_of_true (hlawful.open_sealed _ _ _ _ block.isSealed) rfl
  · rw [hlawful.open_other _ _ _ _ _ hcounter block.isSealed]
    exact iff_of_false nofun hcounter

/-! ### What the events do -/

/-- A chunk starts a call under the number of keys derived so far. Assumes: the sender adds a
tag. -/
theorem step_message (hseals : SealsWithTag aead) (page : Page) (chunk : Chunk aead) :
    step subtle page (.message chunk.message) =
      { page with
        calls := page.calls ++ [⟨page.arrivals, chunk.block.data, page.seqNum, .deriveChunkKey⟩]
        arrivals := page.arrivals + 1 } := by
  have hlength := length_plaintext hseals chunk.block
  have hread := (handleStreamData_encode_iff .data chunk.seq chunk.originTs chunk.block.data).mpr
    chunk.fits
  have hdata : FrameType.data.toByte = 0x02 := rfl
  rw [step, Chunk.message, hread]
  dsimp only
  rw [if_pos hdata, Page.decrypt, if_neg (by omega)]

/-- What a call will feed the media buffer. -/
def Call.outcome (subtle : Subtle Key) (call : Call) : List UInt8 × ℕ :=
  (decryptAesGcm subtle call.seqNum call.payload, call.arrival)

/-- What the calls under way will feed the media buffer. -/
def outcomes (subtle : Subtle Key) (page : Page) : List (List UInt8 × ℕ) :=
  page.calls.map (Call.outcome subtle)

/-- A key that has been derived changes neither what was fed nor what will be. -/
theorem transmit_keyDerived (subtle : Subtle Key) (play : Playback aead) (index : ℕ) :
    (transmit subtle play (.keyDerived index)).page.fed = play.page.fed ∧
      outcomes subtle (transmit subtle play (.keyDerived index)).page = outcomes subtle play.page ∧
        (transmit subtle play (.keyDerived index)).page.arrivals = play.page.arrivals := by
  rw [transmit, step]
  cases hcall : play.page.calls[index]? with
  | none => exact ⟨rfl, rfl, rfl⟩
  | some call =>
    dsimp only
    split_ifs with hstage
    · refine ⟨rfl, ?_, rfl⟩
      obtain ⟨hindex, hget⟩ := List.getElem?_eq_some_iff.mp hcall
      refine List.ext_getElem (by simp [outcomes]) fun i hi _ ↦ ?_
      simp only [outcomes, List.getElem_map, List.getElem_set]
      split_ifs with hsame
      · subst hsame
        rw [hget]
        rfl
      · rfl
    · exact ⟨rfl, rfl, rfl⟩

/-- A decryption that comes back feeds the media buffer with the outcome of its call. -/
theorem transmit_decrypted (subtle : Subtle Key) (play : Playback aead) (index : ℕ) :
    transmit subtle play (.decrypted index) = play ∧
        (∀ call ∈ play.page.calls[index]?, call.stage ≠ .decrypt) ∨
      ∃ call ∈ play.page.calls[index]?, call.stage = .decrypt ∧
        (transmit subtle play (.decrypted index)).page.fed =
          play.page.fed ++ [call.outcome subtle] ∧
        outcomes subtle (transmit subtle play (.decrypted index)).page =
          (outcomes subtle play.page).eraseIdx index ∧
        (transmit subtle play (.decrypted index)).page.arrivals = play.page.arrivals := by
  rw [transmit, step]
  cases hcall : play.page.calls[index]? with
  | none => exact Or.inl ⟨rfl, nofun⟩
  | some call =>
    dsimp only
    split_ifs with hstage
    · exact Or.inr ⟨call, rfl, hstage, rfl, by simp [outcomes, List.eraseIdx_map], rfl⟩
    · refine Or.inl ⟨rfl, ?_⟩
      rintro other ⟨rfl⟩
      exact hstage

/-! ### The order of the calls -/

/-- The calls under way are for different messages that have arrived. -/
structure Sound (subtle : Subtle Key) (play : Playback aead) : Prop where
  arrivals : play.page.arrivals = play.sent.length
  places : ((outcomes subtle play.page).map Prod.snd).Nodup
  below : ∀ outcome ∈ outcomes subtle play.page, outcome.2 < play.page.arrivals

/-- The calls under way complete what was fed to what was sent, if they return in their order. -/
def InOrder (subtle : Subtle Key) (play : Playback aead) : Prop :=
  play.page.fed ++ outcomes subtle play.page = play.expected

/-- The calls under way complete what was fed to what was sent, if they return in some order. -/
def Mendable (subtle : Subtle Key) (play : Playback aead) : Prop :=
  ∃ order, order.Perm (outcomes subtle play.page) ∧ play.page.fed ++ order = play.expected

theorem InOrder.mendable (hplay : InOrder subtle play) : Mendable subtle play := ⟨_, .refl _, hplay⟩

/-- What a chunk adds to what is expected. -/
theorem expected_send (play : Playback aead) (chunk : Chunk aead) :
    (transmit subtle play (.send chunk)).expected =
      play.expected ++ [(chunk.block.plaintext, play.sent.length)] := by
  simp [transmit, Playback.expected, List.zipIdx_append]

/-- What a chunk adds to the calls. -/
theorem outcomes_send (hseals : SealsWithTag aead) (play : Playback aead) (chunk : Chunk aead) :
    outcomes subtle (transmit subtle play (.send chunk)).page = outcomes subtle play.page ++
      [(decryptAesGcm subtle play.page.seqNum chunk.block.data, play.page.arrivals)] := by
  simp [transmit, step_message hseals, outcomes, Call.outcome]

theorem fed_send (hseals : SealsWithTag aead) (play : Playback aead) (chunk : Chunk aead) :
    (transmit subtle play (.send chunk)).page.fed = play.page.fed := by
  rw [transmit, step_message hseals]

theorem sound_initial : Sound subtle (.initial aead) := ⟨rfl, List.nodup_nil, nofun⟩

theorem sound_transmit (hseals : SealsWithTag aead) (hplay : Sound subtle play)
    (action : Action aead) :
    Sound subtle (transmit subtle play action) := by
  cases action with
  | send chunk =>
    have harrivals : (transmit subtle play (.send chunk)).page.arrivals =
        play.page.arrivals + 1 := by
      rw [transmit, step_message hseals]
    refine ⟨?_, ?_, ?_⟩
    · rw [harrivals, hplay.arrivals, transmit, List.length_append, List.length_singleton]
    · rw [outcomes_send hseals, List.map_append, List.nodup_append]
      refine ⟨hplay.places, List.nodup_singleton _, ?_⟩
      intro place hplace other hother hsame
      obtain ⟨outcome, houtcome, rfl⟩ := List.mem_map.mp hplace
      rw [List.mem_singleton.mp hother] at hsame
      exact (hplay.below outcome houtcome).ne hsame
    · rw [outcomes_send hseals, harrivals]
      intro outcome houtcome
      rcases List.mem_append.mp houtcome with hold | hnew
      · exact (hplay.below outcome hold).trans (Nat.lt_succ_self _)
      · rw [List.mem_singleton.mp hnew]
        exact Nat.lt_succ_self _
  | keyDerived index =>
    obtain ⟨-, houtcomes, harrivals⟩ := transmit_keyDerived subtle play index
    refine ⟨harrivals.trans hplay.arrivals, ?_, ?_⟩
    · rw [houtcomes]
      exact hplay.places
    · rw [houtcomes, harrivals]
      exact hplay.below
  | decrypted index =>
    rcases transmit_decrypted subtle play index with
      ⟨hsame, -⟩ | ⟨call, -, -, -, houtcomes, harrivals⟩
    · rw [hsame]
      exact hplay
    · have hpart := List.eraseIdx_sublist (outcomes subtle play.page) index
      refine ⟨harrivals.trans hplay.arrivals, ?_, ?_⟩
      · rw [houtcomes]
        exact hplay.places.sublist (hpart.map _)
      · rw [houtcomes, harrivals]
        exact fun outcome houtcome ↦ hplay.below outcome (hpart.subset houtcome)

/-! ### What is lost -/

/-- A chunk leaves what was sent as mendable as it was, and it opens. Assumes: the playback is
mendable behind it. -/
theorem mendable_of_send (hseals : SealsWithTag aead) (hplay : Sound subtle play)
    {chunk : Chunk aead} (hmendable : Mendable subtle (transmit subtle play (.send chunk))) :
    Mendable subtle play ∧ InTurn subtle play (.send chunk) := by
  obtain ⟨order, horder, hfed⟩ := hmendable
  rw [fed_send hseals, expected_send] at hfed
  rw [outcomes_send hseals] at horder
  have hne : order ≠ [] := by
    rintro rfl
    exact absurd horder.length_eq (by simp)
  obtain ⟨front, last, rfl⟩ : ∃ front last, order = front ++ [last] :=
    ⟨order.dropLast, order.getLast hne, (List.dropLast_append_getLast hne).symm⟩
  rw [← List.append_assoc] at hfed
  obtain ⟨hfront, hlast⟩ := List.append_inj' hfed rfl
  obtain rfl := List.singleton_injective hlast
  -- the outcome for the message that has arrived last is the one of the new call
  have hnew : (chunk.block.plaintext, play.sent.length) =
      (decryptAesGcm subtle play.page.seqNum chunk.block.data, play.page.arrivals) := by
    rcases List.mem_append.mp (horder.subset (List.mem_append_right front
      (List.mem_singleton_self _))) with hold | hnew
    · exact absurd (hplay.below _ hold) (hplay.arrivals ▸ lt_irrefl _)
    · exact List.mem_singleton.mp hnew
  refine ⟨⟨front, ?_, hfront⟩, ?_⟩
  · rw [hnew] at horder
    exact (List.perm_append_right_iff _).mp horder
  · exact (decryptAesGcm_eq_plaintext_iff hseals _ _).mp (Prod.mk.inj hnew).1.symm

theorem mendable_of_decrypted {index : ℕ}
    (hmendable : Mendable subtle (transmit subtle play (.decrypted index))) :
    Mendable subtle play := by
  rcases transmit_decrypted subtle play index with
    ⟨hsame, -⟩ | ⟨call, hcall, -, hfed, houtcomes, -⟩
  · rwa [hsame] at hmendable
  · obtain ⟨order, horder, hrest⟩ := hmendable
    obtain ⟨hindex, rfl⟩ := List.getElem?_eq_some_iff.mp hcall
    have hinside : index < (outcomes subtle play.page).length := by
      rw [outcomes, List.length_map]
      exact hindex
    have hget : (outcomes subtle play.page)[index] = (play.page.calls[index]).outcome subtle :=
      List.getElem_map _
    rw [hfed, List.append_assoc] at hrest
    rw [houtcomes] at horder
    refine ⟨_ :: order, ?_, hrest⟩
    rw [← hget]
    exact (horder.cons _).trans (List.getElem_cons_eraseIdx_perm hinside)

/-- A step that is in turn keeps the order. Assumes: the sender adds a tag. -/
theorem inOrder_transmit (hseals : SealsWithTag aead) (hplay : Sound subtle play)
    (hinOrder : InOrder subtle play) {action : Action aead} (hturn : InTurn subtle play action) :
    InOrder subtle (transmit subtle play action) := by
  cases action with
  | send chunk =>
    have hopened := (decryptAesGcm_eq_plaintext_iff hseals _ _).mpr hturn
    rw [InOrder, fed_send hseals, outcomes_send hseals, expected_send, ← List.append_assoc,
      hinOrder, hopened, hplay.arrivals]
  | keyDerived index =>
    obtain ⟨hfed, houtcomes, -⟩ := transmit_keyDerived subtle play index
    rw [InOrder, hfed, houtcomes]
    exact hinOrder
  | decrypted index =>
    rcases transmit_decrypted subtle play index with
      ⟨hsame, -⟩ | ⟨call, hcall, hstage, hfed, houtcomes, -⟩
    · rwa [hsame]
    · obtain rfl := hturn call hcall hstage
      have hcalls : play.page.calls = call :: play.page.calls.tail := by
        rw [← List.head?_eq_getElem?] at hcall
        exact List.eq_cons_of_mem_head? hcall
      have hfirst : outcomes subtle play.page =
          call.outcome subtle :: (outcomes subtle play.page).eraseIdx 0 := by
        rw [outcomes, hcalls]
        rfl
      rw [InOrder, hfed, houtcomes, List.append_assoc, List.singleton_append, ← hfirst]
      exact hinOrder

/-- A step that is out of turn is not mended. Assumes: the sender adds a tag. -/
theorem not_mendable_transmit (hseals : SealsWithTag aead) (hplay : Sound subtle play)
    (hinOrder : InOrder subtle play) {action : Action aead} (hturn : ¬ InTurn subtle play action) :
    ¬ Mendable subtle (transmit subtle play action) := by
  intro hmendable
  cases action with
  | send chunk => exact hturn (mendable_of_send hseals hplay hmendable).2
  | keyDerived index => exact hturn trivial
  | decrypted index =>
    refine hturn fun call hcall hstage ↦ ?_
    rcases transmit_decrypted subtle play index with ⟨-, hnone⟩ | ⟨other, hother, -, hfed, -, -⟩
    · exact absurd hstage (hnone call hcall)
    · obtain ⟨order, -, hrest⟩ := hmendable
      obtain rfl := Option.some.inj (hcall.symm.trans hother)
      have hexpected : (transmit subtle play (.decrypted index)).expected = play.expected := rfl
      rw [hfed, hexpected, ← hinOrder, List.append_assoc] at hrest
      have hfirst : (outcomes subtle play.page)[0]? = some (call.outcome subtle) := by
        rw [← List.append_cancel_left hrest]
        rfl
      have hplace : (outcomes subtle play.page)[index]? = some (call.outcome subtle) := by
        rw [outcomes, List.getElem?_map, Option.mem_def.mp hcall, Option.map_some]
      have hinside : index < (outcomes subtle play.page).length :=
        (List.getElem?_eq_some_iff.mp hplace).1
      exact (List.getElem?_inj hinside (hplay.places.of_map _)).mp (hplace.trans hfirst.symm)

/-! ### Runs -/

/-- The calls of a run return in order, with what was sent, exactly when every step is in turn.
Assumes: the sender adds a tag. -/
theorem inOrder_run_iff (hseals : SealsWithTag aead) (actions : List (Action aead)) :
    InOrder subtle (run (transmit subtle) (.initial aead) actions) ↔
      EachStepMeets (transmit subtle) (InTurn subtle) (.initial aead) actions :=
  run_iff_eachStepMeets (transmit subtle)
    (fun play action (hplay : Sound subtle play) ↦ sound_transmit hseals hplay action)
    (fun play _ hplay (hinOrder : InOrder subtle play) hturn ↦
      inOrder_transmit hseals hplay hinOrder hturn)
    (fun _ _ hplay hinOrder hturn ↦ not_mendable_transmit hseals hplay hinOrder hturn)
    (fun play action hplay (hlost : ¬ Mendable subtle play) hmendable ↦ hlost <| by
      cases action with
      | send chunk => exact (mendable_of_send hseals hplay hmendable).1
      | keyDerived index =>
        obtain ⟨hfed, houtcomes, -⟩ := transmit_keyDerived subtle play index
        rw [Mendable, hfed, houtcomes] at hmendable
        exact hmendable
      | decrypted index => exact mendable_of_decrypted hmendable)
    (fun _ hlost hinOrder ↦ hlost hinOrder.mendable) sound_initial rfl actions

/-- The player plays everything that was sent, in order and decrypted, exactly when each chunk opens
under the number of keys derived when it arrives, and each decryption that comes back is the oldest
under way. Assumes: the sender adds a tag, and every call has returned. -/
theorem plays_iff (subtle : Subtle Key) (hseals : SealsWithTag aead) (actions : List (Action aead))
    (hreturned : (run (transmit subtle) (.initial aead) actions).page.calls = []) :
    Plays (run (transmit subtle) (.initial aead) actions) ↔
      EachStepMeets (transmit subtle) (InTurn subtle) (.initial aead) actions := by
  rw [← inOrder_run_iff hseals, InOrder, outcomes, hreturned, List.map_nil, List.append_nil, Plays]

/-- A block of one byte that was sealed under a counter. -/
def sealedByte (counter : UInt32) : Block tagCipher :=
  ⟨counter, ⟨List.replicate nonceLen 1, rfl⟩, [7], _, rfl⟩

/-- The chunk of such a block. -/
def byteChunk (counter : UInt32) : Chunk tagCipher where
  seq := counter
  originTs := 0
  block := sealedByte counter
  fits := by
    rw [← length_plaintext lawful_tagCipher.length_sealed]
    exact (by decide : 1 + 28 < 2 ^ 31)

/-- Two chunks, the second of which arrives once the key of the first has been derived. -/
def spacedChunks : List (Action tagCipher) :=
  [.send (byteChunk 0), .keyDerived 0, .send (byteChunk 1), .decrypted 0, .keyDerived 0,
    .decrypted 0]

theorem plays_iff_witness :
    Plays (run (transmit (sameKeys tagCipher)) (.initial tagCipher) spacedChunks) :=
  (plays_iff (sameKeys tagCipher) lawful_tagCipher.length_sealed spacedChunks
    (by decide +kernel)).mpr (by decide +kernel)

end LiveCDN.Player.ChunkDecryption
