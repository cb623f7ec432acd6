import LiveCDN.Library.BigEndian

/-!
# Chunk encryption

`crypto/mod.rs`: the encryptor seals each chunk under a key derived from its own counter, and the
decryptor opens each chunk under a key derived from its own counter (`StreamEncryptor.encrypt`,
`StreamDecryptor.decrypt`). Neither counter travels with the chunk. A `Block` is a chunk that was
sealed, with the proof that it was; a decryptor opens a sequence of blocks exactly when the counters
they were sealed under are the ones it goes through (`decryptAll_eq_iff`).

Scope. The cipher and the key derivation are parameters (`Aead`): what is relied on is that sealing
and opening under one derived key round-trip, that a chunk does not open under the key of another
counter, and the length of the tag (`Aead.Lawful`). Counters wrap, as in a release build.
-/

set_option autoImplicit false
set_option relaxedAutoImplicit false

namespace LiveCDN.Agent.ChunkCrypto

/-- `nonce_len`. -/
def nonceLen : ℕ := 12

/-- `tag_len`. -/
def tagLen : ℕ := 16

/-- The errors of `CryptoError` that sealing and opening return. -/
inductive CryptoError
  | encryptFailed
  | decryptFailed
  | ciphertextTooShort
  deriving DecidableEq, Repr

/-- A nonce of `random_nonce`. -/
@[ext] structure Nonce where
  bytes : List UInt8
  length_bytes : bytes.length = nonceLen

/-- The cipher of a stream and the keys derived from its master key: what `derive_chunk_key`,
`seal_in_place_separate_tag` and `open_in_place` do. A sealed body ends with its tag. -/
structure Aead (Key : Type) where
  deriveChunkKey : UInt32 → Key
  sealInPlace : Key → Nonce → List UInt8 → Option (List UInt8)
  openInPlace : Key → Nonce → List UInt8 → Option (List UInt8)

variable {Key : Type} (aead : Aead Key)

/-- What is relied on of the cipher and the key derivation. -/
structure Aead.Lawful : Prop where
  length_sealed : ∀ counter nonce plaintext body,
    aead.sealInPlace (aead.deriveChunkKey counter) nonce plaintext = some body →
      body.length = plaintext.length + tagLen
  open_sealed : ∀ counter nonce plaintext body,
    aead.sealInPlace (aead.deriveChunkKey counter) nonce plaintext = some body →
      aead.openInPlace (aead.deriveChunkKey counter) nonce body = some plaintext
  open_other : ∀ counter other nonce plaintext body, counter ≠ other →
    aead.sealInPlace (aead.deriveChunkKey counter) nonce plaintext = some body →
      aead.openInPlace (aead.deriveChunkKey other) nonce body = none

/-- A chunk that was sealed under the key of a counter. -/
structure Block where
  sealedAt : UInt32
  nonce : Nonce
  plaintext : List UInt8
  body : List UInt8
  isSealed : aead.sealInPlace (aead.deriveChunkKey sealedAt) nonce plaintext = some body

/-- The bytes of a block: the nonce, the ciphertext and the tag. -/
def Block.data {aead : Aead Key} (block : Block aead) : List UInt8 :=
  block.nonce.bytes ++ block.body

/-! ### The two ends -/

/-- `StreamEncryptor`. -/
structure StreamEncryptor where
  seq : UInt32
  deriving DecidableEq, Repr

/-- `StreamEncryptor::new`. -/
def StreamEncryptor.new : StreamEncryptor := ⟨0⟩

/-- `StreamEncryptor::encrypt`: the counter advances whether or not the chunk could be sealed. -/
def StreamEncryptor.encrypt (encryptor : StreamEncryptor) (nonce : Nonce) (plaintext : List UInt8) :
    Except CryptoError (Block aead) × StreamEncryptor :=
  match h : aead.sealInPlace (aead.deriveChunkKey encryptor.seq) nonce plaintext with
  | some body => (.ok ⟨encryptor.seq, nonce, plaintext, body, h⟩, ⟨encryptor.seq + 1⟩)
  | none => (.error .encryptFailed, ⟨encryptor.seq + 1⟩)

/-- What an encryptor makes of plaintexts, one after another, each with the nonce drawn for it. -/
def StreamEncryptor.encryptAll (encryptor : StreamEncryptor) :
    List (Nonce × List UInt8) → List (Except CryptoError (Block aead))
  | [] => []
  | (nonce, plaintext) :: rest =>
    (encryptor.encrypt aead nonce plaintext).1 ::
      (encryptor.encrypt aead nonce plaintext).2.encryptAll rest

/-- `StreamDecryptor`. -/
structure StreamDecryptor where
  seq : UInt32
  deriving DecidableEq, Repr

/-- `StreamDecryptor::new`. -/
def StreamDecryptor.new : StreamDecryptor := ⟨0⟩

/-- `StreamDecryptor::decrypt`: the nonce is read from the head of the data, the key is that of the
own counter. -/
def StreamDecryptor.decrypt (decryptor : StreamDecryptor) (data : List UInt8) :
    Except CryptoError (List UInt8) × StreamDecryptor :=
  if h : data.length < nonceLen + tagLen then (.error .ciphertextTooShort, decryptor)
  else
    let nonce : Nonce := ⟨data.take nonceLen, by rw [List.length_take]; omega⟩
    match aead.openInPlace (aead.deriveChunkKey decryptor.seq) nonce (data.drop nonceLen) with
    | some plaintext => (.ok plaintext, ⟨decryptor.seq + 1⟩)
    | none => (.error .decryptFailed, ⟨decryptor.seq + 1⟩)

/-- What a decryptor makes of payloads, one after another. -/
def StreamDecryptor.decryptAll (decryptor : StreamDecryptor) :
    List (List UInt8) → List (Except CryptoError (List UInt8))
  | [] => []
  | data :: rest =>
    (decryptor.decrypt aead data).1 :: (decryptor.decrypt aead data).2.decryptAll rest

/-! ### Opening blocks -/

variable {aead}

/-- What an encryptor makes of a plaintext is a block of it, sealed under the counter. -/
theorem encrypt_eq_ok {encryptor : StreamEncryptor} {nonce : Nonce} {plaintext : List UInt8}
    {block : Block aead} (hsealed : (encryptor.encrypt aead nonce plaintext).1 = .ok block) :
    block.sealedAt = encryptor.seq ∧ block.plaintext = plaintext := by
  unfold StreamEncryptor.encrypt at hsealed
  split at hsealed
  · obtain rfl := Except.ok.inj hsealed
    exact ⟨rfl, rfl⟩
  · cases hsealed

/-- An encryptor counts every chunk. -/
theorem seq_encrypt (encryptor : StreamEncryptor) (nonce : Nonce) (plaintext : List UInt8) :
    (encryptor.encrypt aead nonce plaintext).2 = ⟨encryptor.seq + 1⟩ := by
  unfold StreamEncryptor.encrypt
  split <;> rfl

/-- A decryptor opens a block when its counter is the one the block was sealed under, and counts it
either way. Assumes: the cipher is lawful. -/
theorem decrypt_block (hlawful : aead.Lawful) (decryptor : StreamDecryptor) (block : Block aead) :
    decryptor.decrypt aead block.data =
      (if block.sealedAt = decryptor.seq then .ok block.plaintext else .error .decryptFailed,
        ⟨decryptor.seq + 1⟩) := by
  obtain ⟨sealedAt, nonce, plaintext, body, hsealed⟩ := block
  have hbody := hlawful.length_sealed _ _ _ _ hsealed
  have hlong : ¬ (nonce.bytes ++ body).length < nonceLen + tagLen := by
    rw [List.length_append, nonce.length_bytes, hbody]
    omega
  have htake : (nonce.bytes ++ body).take nonceLen = nonce.bytes :=
    List.take_left' nonce.length_bytes
  have hdrop : (nonce.bytes ++ body).drop nonceLen = body := List.drop_left' nonce.length_bytes
  have hread : (⟨(nonce.bytes ++ body).take nonceLen, by rw [htake, nonce.length_bytes]⟩ : Nonce) =
      nonce := Nonce.ext htake
  simp only [StreamDecryptor.decrypt, Block.data, dif_neg hlong, hread, hdrop]
  by_cases hcounter : sealedAt = decryptor.seq
  · subst hcounter
    rw [hlawful.open_sealed _ _ _ _ hsealed, if_pos rfl]
  · rw [hlawful.open_other _ _ _ _ _ hcounter hsealed, if_neg hcounter]

/-- A decryptor gives the plaintexts back exactly when the blocks were sealed under the counters it
goes through. Assumes: the cipher is lawful. -/
theorem decryptAll_eq_iff (hlawful : aead.Lawful) (decryptor : StreamDecryptor)
    (blocks : List (Block aead)) :
    decryptor.decryptAll aead (blocks.map Block.data) =
        blocks.map (fun block ↦ .ok block.plaintext) ↔
      ∀ index block, blocks[index]? = some block →
        block.sealedAt = decryptor.seq + UInt32.ofNat index := by
  induction blocks generalizing decryptor with
  | nil => simp [StreamDecryptor.decryptAll]
  | cons block blocks ih =>
    have hnext (index : ℕ) : decryptor.seq + UInt32.ofNat (index + 1) =
        decryptor.seq + 1 + UInt32.ofNat index := by
      rw [UInt32.ofNat_add, add_comm (UInt32.ofNat index), ← add_assoc]
      rfl
    rw [List.map_cons, List.map_cons, StreamDecryptor.decryptAll, decrypt_block hlawful,
      List.cons.injEq, ih]
    constructor
    · rintro ⟨hhead, htail⟩ index other hother
      cases index with
      | zero =>
        obtain rfl : block = other := by simpa using hother
        by_contra hcounter
        rw [if_neg (by simpa using hcounter)] at hhead
        cases hhead
      | succ index =>
        rw [hnext]
        exact htail index other (by simpa using hother)
    · intro hall
      refine ⟨?_, ?_⟩
      · rw [if_pos (by simpa using hall 0 block rfl)]
      · intro index other hother
        rw [← hnext]
        exact hall (index + 1) other (by simpa using hother)

/-! ### A cipher that only authenticates -/

/-- The cipher that leaves the plaintext as it is and tags it with the counter of its key. -/
def tagCipher : Aead UInt32 where
  deriveChunkKey counter := counter
  sealInPlace key _ plaintext := some (plaintext ++ Library.BigEndian.bytes tagLen key.toNat)
  openInPlace key _ body :=
    if body.drop (body.length - tagLen) = Library.BigEndian.bytes tagLen key.toNat then
      some (body.take (body.length - tagLen))
    else none

/-- Tags of different counters differ. -/
theorem tag_injective {first second : UInt32}
    (htags : Library.BigEndian.bytes tagLen first.toNat =
      Library.BigEndian.bytes tagLen second.toNat) : first = second := by
  have hbound (counter : UInt32) : counter.toNat < 256 ^ tagLen :=
    counter.toNat_lt.trans (by decide)
  have hvalues := congrArg Library.BigEndian.value htags
  rw [Library.BigEndian.value_bytes_of_lt (hbound first),
    Library.BigEndian.value_bytes_of_lt (hbound second)] at hvalues
  exact UInt32.toNat.inj hvalues

theorem lawful_tagCipher : tagCipher.Lawful where
  length_sealed := by
    intro counter nonce plaintext body hsealed
    obtain rfl := Option.some.inj hsealed
    simp [tagCipher]
  open_sealed := by
    intro counter nonce plaintext body hsealed
    obtain rfl := Option.some.inj hsealed
    simp [tagCipher]
  open_other := by
    intro counter other nonce plaintext body hother hsealed
    obtain rfl := Option.some.inj hsealed
    have htag : Library.BigEndian.bytes tagLen counter.toNat ≠
        Library.BigEndian.bytes tagLen other.toNat := fun htags ↦ hother (tag_injective htags)
    simp [tagCipher, htag]

end LiveCDN.Agent.ChunkCrypto
