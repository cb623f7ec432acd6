import LiveCDN.Agent.ChunkCrypto
import LiveCDN.Library.ImplicitCounter
import LiveCDN.Protocol.ChunkCipher

/-!
# Corrupted chunks of an encrypted stream

Chunks that an encryptor has made, some of which are replaced on the way by strings that do not
authenticate. Corruption stays local when the decryptor gives every untouched chunk back and refuses
every replaced one. The Go decryptor (`internal/crypto/crypto.go`) counts a chunk before it looks at
it, and corruption always stays local. The decryptor of the agent (`crypto/mod.rs`) returns before
it counts when a string is shorter than a nonce and a tag, and is behind from then on: no untouched
chunk may follow such a string (`staysLocal_iff`).
-/

set_option autoImplicit false
set_option relaxedAutoImplicit false

namespace LiveCDN.System.ChunkCorruption

open Library.ImplicitCounter

/-! ### Corruption in place -/

/-- A chunk on its way, and what has replaced its ciphertext, if anything has. -/
structure Chunk where
  plaintext : List UInt8
  ciphertext : List UInt8
  replacement : Option (List UInt8)
  deriving DecidableEq, Repr

/-- What arrives of a chunk. -/
def Chunk.received (chunk : Chunk) : List UInt8 := chunk.replacement.getD chunk.ciphertext

/-- What is to come of a chunk: its plaintext, or an error where it was replaced. -/
def Chunk.Expects {Error : Type} (chunk : Chunk) (result : Except Error (List UInt8)) : Prop :=
  (chunk.replacement = none → result = .ok chunk.plaintext) ∧
    (chunk.replacement ≠ none → ∃ error, result = .error error)

/-- Every chunk comes to what is expected of it. -/
def StaysLocal {Error : Type} (chunks : List Chunk)
    (results : List (Except Error (List UInt8))) : Prop :=
  ∀ (index : ℕ) (chunk : Chunk), chunks[index]? = some chunk →
    ∃ result, results[index]? = some result ∧ chunk.Expects result

/-- What a receiver makes of chunks stays local when it is right about each of them at the counter
it has there. -/
theorem staysLocal_receiveAll_iff {Counter Error : Type} (next : Counter → Counter)
    (counts : List UInt8 → Bool)
    (outcome : Counter → List UInt8 → Except Error (List UInt8)) (counter : Counter)
    (chunks : List Chunk) :
    StaysLocal chunks
        (receiveAll next counts outcome counter (chunks.map Chunk.received)) ↔
      ∀ (index : ℕ) (chunk : Chunk), chunks[index]? = some chunk →
        chunk.Expects (outcome (next^[((chunks.map Chunk.received).take index).countP counts]
          counter) chunk.received) := by
  unfold StaysLocal
  refine forall₃_congr fun index chunk hchunk ↦ ?_
  rw [getElem?_receiveAll, List.getElem?_map, hchunk, Option.map_some, Option.map_some]
  constructor
  · rintro ⟨result, hresult, hexpects⟩
    exact Option.some.inj hresult ▸ hexpects
  · exact fun hexpects ↦ ⟨_, rfl, hexpects⟩

/-- A counter of 32 bits moved on a number of times. -/
theorem iterate_add_one (count : ℕ) (counter : UInt32) :
    (· + 1)^[count] counter = counter + UInt32.ofNat count := by
  induction count with
  | zero => exact (add_zero counter).symm
  | succ count ih => rw [Function.iterate_succ_apply', ih, UInt32.ofNat_add, add_assoc]; rfl

/-- Everything before an index that there is is counted by a sender that counts everything. -/
theorem countP_true_take {Item : Type} {items : List Item} {index : ℕ}
    (hindex : index ≤ items.length) : (items.take index).countP (fun _ ↦ true) = index := by
  rw [List.countP_true, List.length_take, min_eq_left hindex]

/-! ### The agent's decryptor -/

section Agent

open Agent.ChunkCrypto

variable {Key : Type} {aead : Aead Key}

/-- The encryptor of the agent as a sender that counts everything. -/
theorem encryptAll_eq_receiveAll (encryptor : StreamEncryptor) (sent : List (Nonce × List UInt8)) :
    encryptor.encryptAll aead sent =
      receiveAll (· + 1) (fun _ ↦ true)
        (fun seq (chunk : Nonce × List UInt8) ↦
          ((⟨seq⟩ : StreamEncryptor).encrypt aead chunk.1 chunk.2).1) encryptor.seq sent := by
  induction sent generalizing encryptor with
  | nil => rfl
  | cons chunk sent ih =>
    rw [StreamEncryptor.encryptAll, receiveAll, seq_encrypt, ih]
    rfl

/-- The decryptor of the agent does not count what is shorter than a nonce and a tag. -/
theorem seq_decrypt (decryptor : StreamDecryptor) (data : List UInt8) :
    (decryptor.decrypt aead data).2 =
      ⟨if data.length < nonceLen + tagLen then decryptor.seq else decryptor.seq + 1⟩ := by
  unfold StreamDecryptor.decrypt
  split_ifs
  · rfl
  · dsimp only
    split <;> rfl

/-- The decryptor of the agent as a receiver. -/
theorem decryptAll_eq_receiveAll (decryptor : StreamDecryptor) (received : List (List UInt8)) :
    decryptor.decryptAll aead received =
      receiveAll (· + 1) (fun data ↦ !decide (data.length < nonceLen + tagLen))
        (fun seq data ↦ ((⟨seq⟩ : StreamDecryptor).decrypt aead data).1) decryptor.seq
        received := by
  induction received generalizing decryptor with
  | nil => rfl
  | cons data received ih =>
    rw [StreamDecryptor.decryptAll, receiveAll, seq_decrypt, ih]
    by_cases hshort : data.length < nonceLen + tagLen <;> simp [hshort]

/-- A string is a nonce and a body that opens under the key of a counter. -/
def Authenticates (aead : Aead Key) (seq : UInt32) (data : List UInt8) : Prop :=
  ∃ (nonce : Nonce) (body plaintext : List UInt8), data = nonce.bytes ++ body ∧
    tagLen ≤ body.length ∧ aead.openInPlace (aead.deriveChunkKey seq) nonce body = some plaintext

/-- A string that does not authenticate under the key of the counter is an error. -/
theorem exists_error_iff (seq : UInt32) (data : List UInt8) :
    (∃ error, ((⟨seq⟩ : StreamDecryptor).decrypt aead data).1 = .error error) ↔
      ¬ Authenticates aead seq data := by
  unfold StreamDecryptor.decrypt
  split_ifs with hshort
  · refine iff_of_true ⟨_, rfl⟩ ?_
    rintro ⟨nonce, body, plaintext, rfl, hbody, -⟩
    rw [List.length_append, nonce.length_bytes] at hshort
    omega
  · have hlong := not_lt.mp hshort
    dsimp only
    split
    next plaintext hopened =>
      refine iff_of_false ?_ (not_not.mpr ⟨_, data.drop nonceLen, plaintext,
        (List.take_append_drop nonceLen data).symm, ?_, hopened⟩)
      · rintro ⟨error, herror⟩
        cases herror
      · rw [List.length_drop]
        omega
    next hclosed =>
      refine iff_of_true ⟨_, rfl⟩ ?_
      rintro ⟨nonce, body, plaintext, rfl, -, hopened⟩
      have hnonce : (⟨(nonce.bytes ++ body).take nonceLen, by
          rw [List.take_left' nonce.length_bytes, nonce.length_bytes]⟩ : Nonce) = nonce :=
        Nonce.ext (List.take_left' nonce.length_bytes)
      rw [hnonce, List.drop_left' nonce.length_bytes, hopened] at hclosed
      cases hclosed

/-- What has arrived of the chunks before an index and is too short to be counted. -/
def shortBefore (chunks : List Chunk) (index : ℕ) : ℕ :=
  ((chunks.map Chunk.received).take index).countP fun data ↦
    decide (data.length < nonceLen + tagLen)

/-- Fewer than 2^32 chunks of a fresh encryptor, with replacements that do not authenticate in their
places. -/
structure AgentTransit (aead : Aead Key) (sent : List (Nonce × List UInt8)) (chunks : List Chunk) :
    Prop where
  plaintexts : sent.map Prod.snd = chunks.map Chunk.plaintext
  ciphertexts : (StreamEncryptor.new.encryptAll aead sent).map (·.map Block.data) =
    chunks.map fun chunk ↦ .ok chunk.ciphertext
  few : chunks.length < 2 ^ 32
  replacements : ∀ (index : ℕ) (chunk : Chunk), chunks[index]? = some chunk →
    ∀ data ∈ chunk.replacement, ¬ Authenticates aead (UInt32.ofNat index) data

/-- Every ciphertext is a block of its plaintext, sealed under the counter of its position. -/
theorem exists_block {sent : List (Nonce × List UInt8)} {chunks : List Chunk}
    (htransit : AgentTransit aead sent chunks) {index : ℕ} {chunk : Chunk}
    (hchunk : chunks[index]? = some chunk) :
    ∃ block : Block aead, block.sealedAt = UInt32.ofNat index ∧
      block.plaintext = chunk.plaintext ∧ block.data = chunk.ciphertext := by
  have hplain := congrArg (·[index]?) htransit.plaintexts
  have hcipher := congrArg (·[index]?) htransit.ciphertexts
  simp only [List.getElem?_map, hchunk, Option.map_some, Option.map_eq_some_iff] at hplain hcipher
  obtain ⟨⟨nonce, plaintext⟩, hitem, rfl⟩ := hplain
  obtain ⟨result, hresult, hdata⟩ := hcipher
  have hindex : index ≤ sent.length := (List.getElem?_eq_some_iff.mp hitem).1.le
  rw [encryptAll_eq_receiveAll, getElem?_receiveAll, countP_true_take hindex, iterate_add_one,
    hitem, Option.map_some, Option.some_inj] at hresult
  cases result with
  | error error => cases hdata
  | ok block =>
    obtain ⟨hseq, hblock⟩ := encrypt_eq_ok hresult
    refine ⟨block, ?_, hblock, Except.ok.inj hdata⟩
    rw [hseq]
    exact zero_add _

/-- The decryptor of the agent is behind by the strings that were too short to be counted, and a
chunk that comes to it then must have been replaced by what does not authenticate there either.
Assumes: the cipher is lawful. -/
theorem agent_staysLocal_iff (hlawful : aead.Lawful) {sent : List (Nonce × List UInt8)}
    {chunks : List Chunk} (htransit : AgentTransit aead sent chunks) :
    StaysLocal chunks (StreamDecryptor.new.decryptAll aead (chunks.map Chunk.received)) ↔
      ∀ (index : ℕ) (chunk : Chunk), chunks[index]? = some chunk → 0 < shortBefore chunks index →
        ∃ data ∈ chunk.replacement,
          ¬ Authenticates aead (UInt32.ofNat (index - shortBefore chunks index)) data := by
  rw [decryptAll_eq_receiveAll, staysLocal_receiveAll_iff]
  refine forall₃_congr fun index chunk hchunk ↦ ?_
  have hindex : index < chunks.length := (List.getElem?_eq_some_iff.mp hchunk).1
  -- the counter is the index less what was not counted
  have hcounts := countP_take_add (fun data : List UInt8 ↦ decide (data.length < nonceLen + tagLen))
    (show index ≤ (chunks.map Chunk.received).length by rw [List.length_map]; exact hindex.le)
  rw [← shortBefore] at hcounts
  rw [iterate_add_one, Nat.eq_sub_of_add_eq' hcounts]
  have hstart : StreamDecryptor.new.seq + UInt32.ofNat (index - shortBefore chunks index) =
      UInt32.ofNat (index - shortBefore chunks index) := zero_add _
  rw [hstart]
  cases hreplacement : chunk.replacement with
  | none =>
    obtain ⟨block, hseq, hplain, hdata⟩ := exists_block htransit hchunk
    have hreceived : chunk.received = block.data := by
      rw [Chunk.received, hreplacement, Option.getD_none, hdata]
    have hsame : UInt32.ofNat index = UInt32.ofNat (index - shortBefore chunks index) ↔
        shortBefore chunks index = 0 := by
      have hfew : chunks.length < UInt32.size := htransit.few
      rw [← UInt32.toNat_inj, UInt32.toNat_ofNat_of_lt' (by omega),
        UInt32.toNat_ofNat_of_lt' (by omega)]
      omega
    rw [hreceived, decrypt_block hlawful]
    simp only [Chunk.Expects, hreplacement, hseq, hsame, hplain]
    split_ifs with hnone
    · simp [hnone]
    · simp [Nat.pos_of_ne_zero hnone]
  | some data =>
    have hreceived : chunk.received = data := by
      rw [Chunk.received, hreplacement, Option.getD_some]
    have hexpects (result : Except CryptoError (List UInt8)) :
        chunk.Expects result ↔ ∃ error, result = .error error := by
      simp [Chunk.Expects, hreplacement]
    rw [hexpects, hreceived, exists_error_iff]
    constructor
    · exact fun hcloses _ ↦ ⟨data, rfl, hcloses⟩
    · intro hcloses
      rcases Nat.eq_zero_or_pos (shortBefore chunks index) with hnone | hsome
      · rw [hnone, Nat.sub_zero]
        exact htransit.replacements index chunk hchunk data hreplacement
      · obtain ⟨other, hother, hotherCloses⟩ := hcloses hsome
        obtain rfl := Option.some.inj hother
        exact hotherCloses

end Agent

/-! ### The Go decryptor -/

section Go

open Protocol.ChunkCipher

variable {prims : Primitives} {ki : KeyInfo}

/-- The Go encryptor as a sender. -/
theorem encryptAll_go (se : StreamState) (sent : List (List UInt8 × List UInt8)) :
    se.encryptAll prims sent =
      receiveAll StreamState.next (fun _ ↦ true)
        (fun state (chunk : List UInt8 × List UInt8) ↦ (state.encrypt prims chunk.1 chunk.2).1) se
        sent := by
  induction sent generalizing se with
  | nil => rfl
  | cons chunk sent ih => rw [StreamState.encryptAll, receiveAll, ih]; rfl

/-- The Go decryptor as a receiver that counts everything. -/
theorem decryptAll_go (sd : StreamState) (received : List (List UInt8)) :
    sd.decryptAll prims received =
      receiveAll StreamState.next (fun _ ↦ true) (fun state data ↦ (state.decrypt prims data).1) sd
        received := by
  induction received generalizing sd with
  | nil => rfl
  | cons data received ih => rw [StreamState.decryptAll, receiveAll, ih]; rfl

/-- The key stays what it is while chunks are counted. -/
theorem keyInfo_iterate_next (count : ℕ) (state : StreamState) :
    (StreamState.next^[count] state).keyInfo = state.keyInfo := by
  induction count with
  | zero => rfl
  | succ count ih => rw [Function.iterate_succ_apply', ← ih]; rfl

/-- What is relied on of sealing and opening: what was sealed opens again. -/
def OpensSealed (prims : Primitives) : Prop :=
  ∀ key nonce plaintext, prims.openBody key nonce (prims.sealBody key nonce plaintext) =
    some plaintext

/-- A string is a nonce and a body that opens under the key that a state has for its next chunk. -/
def GoAuthenticates (prims : Primitives) (state : StreamState) (data : List UInt8) : Prop :=
  ∃ (ki : KeyInfo) (nonce body plaintext : List UInt8),
    chunkKeyInfo prims state.keyInfo state.seqNum = .ok ki ∧ data = nonce ++ body ∧
      nonce.length = nonceSize ∧ prims.openBody ki.key nonce body = some plaintext

/-- The key of a chunk is for the cipher of the stream. -/
theorem cipher_chunkKeyInfo {seqNum : UInt32} {chunkKey : KeyInfo}
    (hkey : chunkKeyInfo prims ki seqNum = .ok chunkKey) : chunkKey.cipher = ki.cipher := by
  unfold chunkKeyInfo at hkey
  cases hiv : deriveChunkIV prims ki.iv (seqBytes seqNum) with
  | error error =>
    rw [hiv] at hkey
    cases hkey
  | ok iv =>
    rw [hiv] at hkey
    obtain rfl := Except.ok.inj hkey
    rfl

/-- A chunk is decrypted by a state that encrypts it. Assumes: the cipher is ChaCha20, the nonce has
its size, and what was sealed opens again. -/
theorem decrypt_of_encrypt (hopens : OpensSealed prims) {state : StreamState}
    (hcipher : state.keyInfo.cipher = .chaCha20) {nonce plaintext ciphertext : List UInt8}
    (hnonce : nonce.length = nonceSize)
    (hsealed : (state.encrypt prims nonce plaintext).1 = .ok ciphertext) :
    (state.decrypt prims ciphertext).1 = .ok plaintext := by
  unfold StreamState.encrypt at hsealed
  unfold StreamState.decrypt
  cases hkey : chunkKeyInfo prims state.keyInfo state.seqNum with
  | error error =>
    rw [hkey] at hsealed
    cases hsealed
  | ok chunkKey =>
    rw [hkey] at hsealed
    have hchaCha : chunkKey.cipher = .chaCha20 := (cipher_chunkKeyInfo hkey).trans hcipher
    simp only [Except.bind, encryptChunk, hchaCha, encryptChaCha20] at hsealed
    split_ifs at hsealed with hsize
    obtain rfl := Except.ok.inj hsealed
    have hlong : ¬ (nonce ++ prims.sealBody chunkKey.key nonce plaintext).length < nonceSize := by
      rw [List.length_append, hnonce]
      omega
    simp only [Except.bind, decryptChunk, hchaCha, decryptChaCha20]
    rw [if_neg hsize, if_neg hlong, List.take_left' hnonce, List.drop_left' hnonce,
      hopens chunkKey.key nonce plaintext]

/-- What does not authenticate is an error. Assumes: the cipher is ChaCha20. -/
theorem exists_error_of_not_authenticates {state : StreamState}
    (hcipher : state.keyInfo.cipher = .chaCha20) {data : List UInt8}
    (hcloses : ¬ GoAuthenticates prims state data) :
    ∃ error, (state.decrypt prims data).1 = .error error := by
  unfold StreamState.decrypt
  cases hkey : chunkKeyInfo prims state.keyInfo state.seqNum with
  | error error => exact ⟨error, rfl⟩
  | ok chunkKey =>
    have hchaCha : chunkKey.cipher = .chaCha20 := (cipher_chunkKeyInfo hkey).trans hcipher
    simp only [Except.bind, decryptChunk, hchaCha, decryptChaCha20]
    split_ifs with hsize hshort
    · exact ⟨_, rfl⟩
    · exact ⟨_, rfl⟩
    · split
      next => exact ⟨_, rfl⟩
      next plaintext hopened =>
        refine absurd ⟨chunkKey, _, _, plaintext, hkey,
          (List.take_append_drop nonceSize data).symm, ?_, hopened⟩ hcloses
        rw [List.length_take, min_eq_left (not_lt.mp hshort)]

/-- Chunks of a fresh Go encryptor with the ChaCha20 suite, with replacements that do not
authenticate in their places. -/
structure GoTransit (prims : Primitives) (ki : KeyInfo) (sent : List (List UInt8 × List UInt8))
    (chunks : List Chunk) : Prop where
  cipher : ki.cipher = .chaCha20
  nonces : ∀ item ∈ sent, item.1.length = nonceSize
  plaintexts : sent.map Prod.snd = chunks.map Chunk.plaintext
  ciphertexts : (newStream ki).encryptAll prims sent =
    chunks.map fun chunk ↦ .ok chunk.ciphertext
  replacements : ∀ (index : ℕ) (chunk : Chunk), chunks[index]? = some chunk →
    ∀ data ∈ chunk.replacement,
      ¬ GoAuthenticates prims (StreamState.next^[index] (newStream ki)) data

/-- The Go decryptor has counted everything before a chunk. Assumes: what was sealed opens
again. -/
theorem go_staysLocal (hopens : OpensSealed prims) {sent : List (List UInt8 × List UInt8)}
    {chunks : List Chunk} (htransit : GoTransit prims ki sent chunks) :
    StaysLocal chunks ((newStream ki).decryptAll prims (chunks.map Chunk.received)) := by
  rw [decryptAll_go, staysLocal_receiveAll_iff]
  intro index chunk hchunk
  have hindex : index < chunks.length := (List.getElem?_eq_some_iff.mp hchunk).1
  rw [countP_true_take (by rw [List.length_map]; exact hindex.le)]
  have hcipher : (StreamState.next^[index] (newStream ki)).keyInfo.cipher = .chaCha20 := by
    rw [keyInfo_iterate_next]
    exact htransit.cipher
  constructor
  · intro hreplacement
    have hplain := congrArg (·[index]?) htransit.plaintexts
    have hsealed := congrArg (·[index]?) htransit.ciphertexts
    simp only [List.getElem?_map, hchunk, Option.map_some, Option.map_eq_some_iff] at hplain hsealed
    obtain ⟨⟨nonce, plaintext⟩, hitem, rfl⟩ := hplain
    have hle : index ≤ sent.length := (List.getElem?_eq_some_iff.mp hitem).1.le
    rw [encryptAll_go, getElem?_receiveAll, countP_true_take hle, hitem, Option.map_some,
      Option.some_inj] at hsealed
    rw [Chunk.received, hreplacement, Option.getD_none]
    exact decrypt_of_encrypt hopens hcipher
      (htransit.nonces _ (List.mem_of_getElem? hitem)) hsealed
  · intro hreplaced
    obtain ⟨data, hdata⟩ := Option.ne_none_iff_exists'.mp hreplaced
    rw [Chunk.received, hdata, Option.getD_some]
    exact exists_error_of_not_authenticates hcipher
      (htransit.replacements index chunk hchunk data hdata)

end Go

/-! ### Both ends -/

section Both

variable {Key : Type}

open Agent.ChunkCrypto Protocol.ChunkCipher

/-- The decryptor of the agent is right about every chunk, if and only if every chunk behind a
string that is shorter than a nonce and a tag is itself replaced, by what does not authenticate
under the counter that the decryptor has there. The Go decryptor is right about every chunk.
Assumes: the cipher of the agent is lawful, and what is sealed on the Go side opens again. -/
theorem staysLocal_iff (aead : Aead Key) (hlawful : aead.Lawful)
    (sent : List (Nonce × List UInt8)) (chunks : List Chunk)
    (htransit : AgentTransit aead sent chunks) (prims : Primitives) (hopens : OpensSealed prims)
    (ki : KeyInfo) (goSent : List (List UInt8 × List UInt8)) (goChunks : List Chunk)
    (hgoTransit : GoTransit prims ki goSent goChunks) :
    (StaysLocal chunks (Agent.ChunkCrypto.StreamDecryptor.new.decryptAll aead
        (chunks.map Chunk.received)) ↔
      ∀ (index : ℕ) (chunk : Chunk), chunks[index]? = some chunk → 0 < shortBefore chunks index →
        ∃ data ∈ chunk.replacement,
          ¬ Authenticates aead (UInt32.ofNat (index - shortBefore chunks index)) data) ∧
      StaysLocal goChunks ((newStream ki).decryptAll prims (goChunks.map Chunk.received)) :=
  ⟨agent_staysLocal_iff hlawful htransit, go_staysLocal hopens hgoTransit⟩

/-! ### An empty string on the way -/

/-- The nonce of zeros. -/
def zeroNonce : Nonce := ⟨List.replicate 12 0, rfl⟩

/-- The bytes 1 and 2 as plaintexts. -/
def samples : List (Nonce × List UInt8) := [(zeroNonce, [1]), (zeroNonce, [2])]

/-- What is sent of them, the first replaced by the empty string. -/
def emptyFirst (first second : List UInt8) : List Chunk :=
  [⟨[1], zeroNonce.bytes ++ first, some []⟩, ⟨[2], zeroNonce.bytes ++ second, none⟩]

/-- Nothing but the empty string replaces a chunk there. -/
theorem eq_nil_of_emptyFirst {first second : List UInt8} {index : ℕ} {chunk : Chunk}
    (hchunk : (emptyFirst first second)[index]? = some chunk) {data : List UInt8}
    (hdata : data ∈ chunk.replacement) : data = [] := by
  match index with
  | 0 =>
    obtain rfl := Option.some.inj hchunk
    exact (Option.some.inj hdata).symm
  | 1 =>
    obtain rfl := Option.some.inj hchunk
    cases hdata
  | _ + 2 => cases hchunk

/-- What the agent sends. -/
def emptied : List Chunk :=
  emptyFirst (1 :: Library.BigEndian.bytes tagLen 0) (2 :: Library.BigEndian.bytes tagLen 1)

/-- The empty string does not authenticate. -/
theorem transit_emptied : AgentTransit tagCipher samples emptied where
  plaintexts := rfl
  ciphertexts := rfl
  few := by decide
  replacements index chunk hchunk data hdata := by
    obtain rfl := eq_nil_of_emptyFirst hchunk hdata
    exact (exists_error_iff _ _).mp ⟨.ciphertextTooShort, rfl⟩

/-- The agent refuses the empty string and then the second chunk, which nothing has replaced. -/
theorem staysLocal_counterexample :
    AgentTransit tagCipher samples emptied ∧
      Agent.ChunkCrypto.StreamDecryptor.new.decryptAll tagCipher (emptied.map Chunk.received) =
        [.error .ciphertextTooShort, .error .decryptFailed] ∧
      ¬ StaysLocal emptied (Agent.ChunkCrypto.StreamDecryptor.new.decryptAll tagCipher
        (emptied.map Chunk.received)) := by
  refine ⟨transit_emptied, rfl, fun hlocal ↦ ?_⟩
  obtain ⟨result, hresult, hintact, -⟩ := hlocal 1 _ rfl
  obtain rfl := Option.some.inj hresult
  cases hintact rfl

/-- A key of zeros. -/
def zeroKey : KeyInfo := ⟨List.replicate 32 0, none, .chaCha20⟩

/-- The key of the first chunk. -/
def firstKey : List UInt8 :=
  [109, 182, 95, 213, 159, 211, 86, 246, 114, 145, 64, 87, 27, 91, 205, 107,
    179, 184, 52, 146, 161, 110, 27, 240, 163, 136, 68, 66, 252, 60, 138, 14]

/-- The key of the second chunk. -/
def secondKey : List UInt8 :=
  [33, 88, 168, 144, 109, 94, 44, 43, 224, 1, 186, 201, 67, 171, 156, 171,
    64, 99, 83, 110, 28, 84, 107, 64, 34, 31, 223, 141, 176, 49, 164, 187]

/-- What ChaCha20-Poly1305 makes of the byte 1 under the first key. -/
def firstBody : List UInt8 :=
  [132, 216, 90, 111, 30, 34, 44, 200, 37, 8, 203, 30, 245, 141, 96, 110, 210]

/-- What ChaCha20-Poly1305 makes of the byte 2 under the second key. -/
def secondBody : List UInt8 :=
  [150, 86, 74, 104, 27, 127, 147, 158, 138, 101, 37, 252, 178, 141, 193, 73, 31]

/-- Sealing appends zeros, but makes of the two plaintexts what ChaCha20-Poly1305 does. -/
def sealing : Equiv.Perm (List UInt8) :=
  (Equiv.swap (1 :: List.replicate 16 0) firstBody).trans
    (Equiv.swap (2 :: List.replicate 16 0) secondBody)

/-- A cipher and a digest that treat the two chunks as ChaCha20-Poly1305 and SHA-256 do. -/
def sealStandIns : Primitives where
  aes _ := Equiv.refl _
  sealBody _ _ plaintext := sealing (plaintext ++ List.replicate 16 0)
  openBody _ _ body :=
    let opened := sealing.symm body
    if opened.drop (opened.length - 16) = List.replicate 16 0 then
      some (opened.take (opened.length - 16))
    else none
  sha256 data := if data = List.replicate 36 0 then firstKey else secondKey

theorem opensSealed_sealStandIns : OpensSealed sealStandIns := by
  intro key nonce plaintext
  simp [sealStandIns]

/-- What the Go encryptor sends of the plaintexts. -/
def goEmptied : List Chunk := emptyFirst firstBody secondBody

theorem goTransit_goEmptied :
    GoTransit sealStandIns zeroKey (samples.map fun item ↦ (item.1.bytes, item.2)) goEmptied where
  cipher := rfl
  nonces := by decide
  plaintexts := rfl
  ciphertexts := by decide +kernel
  replacements index chunk hchunk data hdata := by
    obtain rfl := eq_nil_of_emptyFirst hchunk hdata
    rintro ⟨_, nonce, body, _, -, hempty, hnonce, -⟩
    rw [(List.append_eq_nil_iff.mp hempty.symm).1] at hnonce
    cases hnonce

/-- A witness of `staysLocal_iff`: the empty string in the place of the first of two chunks. -/
theorem staysLocal_iff_emptied :
    (StaysLocal emptied (Agent.ChunkCrypto.StreamDecryptor.new.decryptAll tagCipher
        (emptied.map Chunk.received)) ↔
      ∀ (index : ℕ) (chunk : Chunk), emptied[index]? = some chunk → 0 < shortBefore emptied index →
        ∃ data ∈ chunk.replacement,
          ¬ Authenticates tagCipher (UInt32.ofNat (index - shortBefore emptied index)) data) ∧
      StaysLocal goEmptied ((newStream zeroKey).decryptAll sealStandIns
        (goEmptied.map Chunk.received)) :=
  staysLocal_iff tagCipher lawful_tagCipher samples emptied transit_emptied sealStandIns
    opensSealed_sealStandIns zeroKey _ goEmptied goTransit_goEmptied

end Both

end LiveCDN.System.ChunkCorruption
