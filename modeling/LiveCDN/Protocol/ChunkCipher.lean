import LiveCDN.Library.BigEndian
import LiveCDN.Library.BlockChaining

/-!
# Chunk encryption of the Go side

`internal/crypto/crypto.go`: the two ciphers of `EncryptChunk` and `DecryptChunk`, and the
`StreamEncryptor` and `StreamDecryptor` that derive a key for each chunk from their own counters.
Both ends count a chunk before they look at it.

AES-128-CBC decryption permutes back what encryption has chained, and then removes the padding. It
looks only at the last byte of the padding, and not at all when there is nothing: so it accepts what
no encryption gives. `PaddedWhole` says of a string that neither happens, and `decryptChunk_iff`
that decryption is then, and only then, the inverse of encryption.

Scope. The block cipher, the AEAD and the digest are the `Primitives`. A nonce is an argument, and
the lengths that `New` and `NewCBCEncrypter` check are checked here.
-/

set_option autoImplicit false
set_option relaxedAutoImplicit false

namespace LiveCDN.Protocol.ChunkCipher

open Library Library.BlockChaining

/-! ### Keys -/

/-- `CipherSuite`. -/
inductive CipherSuite
  | chaCha20
  | aes128
  | other (name : String)
  deriving DecidableEq, Repr

/-- `KeyInfo`, without the stream key. An IV can be missing. -/
structure KeyInfo where
  key : List UInt8
  iv : Option (List UInt8)
  cipher : CipherSuite
  deriving DecidableEq, Repr

/-- The errors of encryption and decryption, and the panic of an IV that has not the length of a
block or cannot be derived. -/
inductive CryptoError
  | keySize (length : ℕ)
  | ciphertextTooShort
  | openFailed
  | notBlockMultiple
  | invalidPadding
  | unsupportedCipher (name : String)
  | panics
  deriving DecidableEq, Repr

/-- `aes.BlockSize`. -/
def blockSize : ℕ := 16

/-- A block of AES. -/
abbrev Block := Fin blockSize → UInt8

/-- What is used of other packages: AES under a key, sealing and opening under a key and a nonce
with ChaCha20-Poly1305, and SHA-256. -/
structure Primitives where
  aes : List UInt8 → Equiv.Perm Block
  sealBody : List UInt8 → List UInt8 → List UInt8 → List UInt8
  openBody : List UInt8 → List UInt8 → List UInt8 → Option (List UInt8)
  sha256 : List UInt8 → List UInt8

variable (prims : Primitives)

/-! ### ChaCha20-Poly1305 -/

/-- `NonceSize`. -/
def nonceSize : ℕ := 12

/-- `KeySize`. -/
def keySize : ℕ := 32

/-- `encryptChaCha20`: the nonce, the ciphertext and the tag. -/
def encryptChaCha20 (nonce plaintext key : List UInt8) : Except CryptoError (List UInt8) :=
  if key.length ≠ keySize then .error (.keySize key.length)
  else .ok (nonce ++ prims.sealBody key nonce plaintext)

/-- `decryptChaCha20`. -/
def decryptChaCha20 (ciphertext key : List UInt8) : Except CryptoError (List UInt8) :=
  if key.length ≠ keySize then .error (.keySize key.length)
  else if ciphertext.length < nonceSize then .error .ciphertextTooShort
  else
    match prims.openBody key (ciphertext.take nonceSize) (ciphertext.drop nonceSize) with
    | none => .error .openFailed
    | some plaintext => .ok plaintext

/-! ### AES-128-CBC -/

/-- The exclusive or of two blocks. -/
def xorBlock (block other : Block) : Block := fun i ↦ block i ^^^ other i

/-- The keys that `aes.NewCipher` takes. -/
def isAESKey (key : List UInt8) : Bool :=
  decide (key.length = 16 ∨ key.length = 24 ∨ key.length = 32)

/-- Bytes as one block. -/
def asBlock (bytes : List UInt8) : Block := fun i ↦ bytes.getD i 0

/-- `CryptBlocks` of `cipher.NewCBCEncrypter`. -/
def cbcEncrypt (key iv data : List UInt8) : List UInt8 :=
  join (chain xorBlock (prims.aes key) (asBlock iv)
    (cut blockSize (data.length / blockSize) data))

/-- `CryptBlocks` of `cipher.NewCBCDecrypter`. -/
def cbcDecrypt (key iv data : List UInt8) : List UInt8 :=
  join (chainBack xorBlock (prims.aes key) (asBlock iv)
    (cut blockSize (data.length / blockSize) data))

/-- The length of the padding. -/
def padLen (plaintext : List UInt8) : ℕ := blockSize - plaintext.length % blockSize

/-- The plaintext with its PKCS7 padding. -/
def pad (plaintext : List UInt8) : List UInt8 :=
  plaintext ++ List.replicate (padLen plaintext) (UInt8.ofNat (padLen plaintext))

/-- `encryptAES128CBC`. -/
def encryptAES128CBC (plaintext key : List UInt8) (iv : Option (List UInt8)) :
    Except CryptoError (List UInt8) :=
  if isAESKey key = false then .error (.keySize key.length)
  else if (iv.getD []).length ≠ blockSize then .error .panics
  else .ok (cbcEncrypt prims key (iv.getD []) (pad plaintext))

/-- The end of `decryptAES128CBC`, which removes the padding. -/
def unpad (plaintext : List UInt8) : Except CryptoError (List UInt8) :=
  match plaintext.getLast? with
  | none => .ok []
  | some last =>
    if last.toNat > blockSize ∨ last = 0 then .error .invalidPadding
    else .ok (plaintext.take (plaintext.length - last.toNat))

/-- `decryptAES128CBC`. -/
def decryptAES128CBC (ciphertext key : List UInt8) (iv : Option (List UInt8)) :
    Except CryptoError (List UInt8) :=
  if isAESKey key = false then .error (.keySize key.length)
  else if ciphertext.length % blockSize ≠ 0 then .error .notBlockMultiple
  else if (iv.getD []).length ≠ blockSize then .error .panics
  else unpad (cbcDecrypt prims key (iv.getD []) ciphertext)

/-! ### Chunks -/

/-- `EncryptChunk`. -/
def encryptChunk (nonce data : List UInt8) (ki : KeyInfo) : Except CryptoError (List UInt8) :=
  match ki.cipher with
  | .chaCha20 => encryptChaCha20 prims nonce data ki.key
  | .aes128 => encryptAES128CBC prims data ki.key ki.iv
  | .other name => .error (.unsupportedCipher name)

/-- `DecryptChunk`. -/
def decryptChunk (data : List UInt8) (ki : KeyInfo) : Except CryptoError (List UInt8) :=
  match ki.cipher with
  | .chaCha20 => decryptChaCha20 prims data ki.key
  | .aes128 => decryptAES128CBC prims data ki.key ki.iv
  | .other name => .error (.unsupportedCipher name)

/-! ### Streams -/

/-- `binary.BigEndian.PutUint32` of a sequence number. -/
def seqBytes (seqNum : UInt32) : List UInt8 := BigEndian.bytes 4 seqNum.toNat

/-- `deriveChunkKey`. -/
def deriveChunkKey (masterKey seq : List UInt8) : List UInt8 :=
  let derived := prims.sha256 (masterKey ++ seq)
  if masterKey.length ≤ 32 then derived.take masterKey.length else derived

/-- `deriveChunkIV`, with the panic of an IV longer than the digest. -/
def deriveChunkIV (baseIV : Option (List UInt8)) (seq : List UInt8) :
    Except CryptoError (Option (List UInt8)) :=
  match baseIV with
  | none => .ok none
  | some iv =>
    if (prims.sha256 (iv ++ seq)).length < iv.length then .error .panics
    else .ok (some ((prims.sha256 (iv ++ seq)).take iv.length))

/-- The key of the chunk with a number. -/
def chunkKeyInfo (ki : KeyInfo) (seqNum : UInt32) : Except CryptoError KeyInfo :=
  (deriveChunkIV prims ki.iv (seqBytes seqNum)).map fun iv ↦
    ⟨deriveChunkKey prims ki.key (seqBytes seqNum), iv, ki.cipher⟩

/-- `StreamEncryptor` and `StreamDecryptor`. -/
structure StreamState where
  keyInfo : KeyInfo
  seqNum : UInt32
  deriving DecidableEq, Repr

/-- `NewStreamEncryptor` and `NewStreamDecryptor`. -/
def newStream (ki : KeyInfo) : StreamState := ⟨ki, 0⟩

/-- The state behind a chunk. -/
def StreamState.next (st : StreamState) : StreamState := { st with seqNum := st.seqNum + 1 }

/-- `StreamEncryptor.Encrypt`: the chunk is counted before it is encrypted. -/
def StreamState.encrypt (se : StreamState) (nonce data : List UInt8) :
    Except CryptoError (List UInt8) × StreamState :=
  ((chunkKeyInfo prims se.keyInfo se.seqNum).bind (encryptChunk prims nonce data), se.next)

/-- `StreamDecryptor.Decrypt`: the chunk is counted before it is decrypted. -/
def StreamState.decrypt (sd : StreamState) (data : List UInt8) :
    Except CryptoError (List UInt8) × StreamState :=
  ((chunkKeyInfo prims sd.keyInfo sd.seqNum).bind (decryptChunk prims data), sd.next)

/-- What an encryptor makes of chunks, one after another, each with the nonce drawn for it. -/
def StreamState.encryptAll (se : StreamState) :
    List (List UInt8 × List UInt8) → List (Except CryptoError (List UInt8))
  | [] => []
  | (nonce, data) :: rest =>
    (se.encrypt prims nonce data).1 :: (se.encrypt prims nonce data).2.encryptAll rest

/-- What a decryptor makes of chunks, one after another. -/
def StreamState.decryptAll (sd : StreamState) :
    List (List UInt8) → List (Except CryptoError (List UInt8))
  | [] => []
  | data :: rest => (sd.decrypt prims data).1 :: (sd.decrypt prims data).2.decryptAll rest

/-! ### Chaining of bytes -/

theorem xorBlock_xorBlock (block other : Block) :
    xorBlock (xorBlock block other) other = block := by
  funext i
  rw [xorBlock, xorBlock, UInt8.xor_assoc, UInt8.xor_self, UInt8.xor_zero]

variable {prims} {key iv data : List UInt8}

/-- The bytes of whole blocks are as many blocks. -/
theorem length_eq_blocks (hdata : blockSize ∣ data.length) :
    data.length = data.length / blockSize * blockSize :=
  (Nat.div_mul_cancel hdata).symm

theorem length_cbcEncrypt (hdata : blockSize ∣ data.length) :
    (cbcEncrypt prims key iv data).length = data.length := by
  rw [cbcEncrypt, length_join, length_chain, length_cut, ← length_eq_blocks hdata]

theorem length_cbcDecrypt (hdata : blockSize ∣ data.length) :
    (cbcDecrypt prims key iv data).length = data.length := by
  rw [cbcDecrypt, length_join, length_chainBack, length_cut, ← length_eq_blocks hdata]

/-- On whole blocks, decryption undoes encryption. -/
theorem cbcDecrypt_cbcEncrypt (hdata : blockSize ∣ data.length) :
    cbcDecrypt prims key iv (cbcEncrypt prims key iv data) = data := by
  rw [cbcDecrypt, length_cbcEncrypt hdata, cbcEncrypt]
  have hcut := cut_join (chain xorBlock (prims.aes key) (asBlock iv)
    (cut blockSize (data.length / blockSize) data))
  rw [length_chain, length_cut] at hcut
  rw [hcut, chainBack_chain _ xorBlock_xorBlock, join_cut (length_eq_blocks hdata)]

/-- On whole blocks, encryption undoes decryption. -/
theorem cbcEncrypt_cbcDecrypt (hdata : blockSize ∣ data.length) :
    cbcEncrypt prims key iv (cbcDecrypt prims key iv data) = data := by
  rw [cbcEncrypt, length_cbcDecrypt hdata, cbcDecrypt]
  have hcut := cut_join (chainBack xorBlock (prims.aes key) (asBlock iv)
    (cut blockSize (data.length / blockSize) data))
  rw [length_chainBack, length_cut] at hcut
  rw [hcut, chain_chainBack _ xorBlock_xorBlock, join_cut (length_eq_blocks hdata)]

/-! ### Padding -/

theorem padLen_bounds (plaintext : List UInt8) :
    0 < padLen plaintext ∧ padLen plaintext ≤ blockSize := by
  have hmod := Nat.mod_lt plaintext.length (show 0 < blockSize by decide)
  exact ⟨Nat.sub_pos_of_lt hmod, Nat.sub_le _ _⟩

theorem length_pad (plaintext : List UInt8) :
    (pad plaintext).length = plaintext.length + padLen plaintext := by
  rw [pad, List.length_append, List.length_replicate]

/-- A padded text is whole blocks. -/
theorem dvd_length_pad (plaintext : List UInt8) : blockSize ∣ (pad plaintext).length := by
  rw [length_pad, padLen, blockSize]
  omega

/-- The last byte of a padded text is the length of the padding. -/
theorem getLast?_pad (plaintext : List UInt8) :
    (pad plaintext).getLast? = some (UInt8.ofNat (padLen plaintext)) := by
  have hpositive : padLen plaintext ≠ 0 := (padLen_bounds plaintext).1.ne'
  rw [pad, List.getLast?_append, List.getLast?_replicate, if_neg hpositive, Option.some_or]

theorem toNat_padLen (plaintext : List UInt8) :
    (UInt8.ofNat (padLen plaintext)).toNat = padLen plaintext := by
  have hle := (padLen_bounds plaintext).2
  rw [blockSize] at hle
  exact UInt8.toNat_ofNat_of_lt' (hle.trans_lt (by decide))

/-- The padding is removed again. -/
theorem unpad_pad (plaintext : List UInt8) : unpad (pad plaintext) = .ok plaintext := by
  obtain ⟨hpositive, hle⟩ := padLen_bounds plaintext
  have hvalid : ¬ ((UInt8.ofNat (padLen plaintext)).toNat > blockSize ∨
      UInt8.ofNat (padLen plaintext) = 0) := by
    rintro (hlarge | hzero)
    · rw [toNat_padLen] at hlarge
      exact absurd hle (not_le.mpr hlarge)
    · have hvalue := congrArg UInt8.toNat hzero
      rw [toNat_padLen] at hvalue
      exact hpositive.ne' hvalue
  simp only [unpad, getLast?_pad]
  rw [if_neg hvalid, toNat_padLen, length_pad, Nat.add_sub_cancel, pad, List.take_left]

/-- A text of whole blocks ends in as many equal bytes as its last byte says, if that is the length
of a padding. -/
def PaddedWhole (padded : List UInt8) : Prop :=
  ∀ last ∈ padded.getLast?, 0 < last.toNat → last.toNat ≤ blockSize →
    padded.drop (padded.length - last.toNat) = List.replicate last.toNat last

/-- A padded text ends in its whole padding. -/
theorem paddedWhole_pad (plaintext : List UInt8) : PaddedWhole (pad plaintext) := by
  intro last hlast _ _
  rw [getLast?_pad, Option.mem_some] at hlast
  subst hlast
  rw [toNat_padLen, length_pad, Nat.add_sub_cancel, pad, List.drop_left]

/-- What is left of a text without the bytes that its last byte counts is padded with them. Assumes:
the text is whole blocks and ends in its whole padding. -/
theorem pad_of_unpad {padded plaintext : List UInt8} (hpadded : blockSize ∣ padded.length)
    (hne : padded ≠ []) (hwhole : PaddedWhole padded) (hunpad : unpad padded = .ok plaintext) :
    pad plaintext = padded := by
  obtain ⟨last, hlast⟩ : ∃ last, padded.getLast? = some last :=
    ⟨_, List.getLast?_eq_some_getLast hne⟩
  simp only [unpad, hlast] at hunpad
  split_ifs at hunpad with hinvalid
  obtain ⟨hle, hnonzero⟩ := not_or.mp hinvalid
  have hpositive : 0 < last.toNat :=
    Nat.pos_of_ne_zero fun hzero ↦ hnonzero (UInt8.toNat.inj hzero)
  have hends := hwhole last hlast hpositive (not_lt.mp hle)
  obtain rfl := Except.ok.inj hunpad
  have hcount : last.toNat ≤ padded.length := by
    have hlength := congrArg List.length hends
    rw [List.length_drop, List.length_replicate] at hlength
    omega
  have hpadLen : padLen (padded.take (padded.length - last.toNat)) = last.toNat := by
    rw [padLen, List.length_take, min_eq_left (Nat.sub_le _ _)]
    rw [blockSize] at hpadded hle ⊢
    omega
  rw [pad, hpadLen, UInt8.ofNat_toNat, ← hends, List.take_append_drop]

/-! ### The inverse of encryption -/

section Inverse

variable {ki : KeyInfo} {vector : List UInt8}

/-- `EncryptChunk` with AES. Assumes: the key has 16 bytes and the IV one block. -/
theorem encryptChunk_aes (nonce plaintext : List UInt8) (hcipher : ki.cipher = .aes128)
    (hkey : ki.key.length = 16) (hiv : ki.iv = some vector) (hvector : vector.length = blockSize) :
    encryptChunk prims nonce plaintext ki =
      .ok (cbcEncrypt prims ki.key vector (pad plaintext)) := by
  have hvalid : ¬ isAESKey ki.key = false := by simp [isAESKey, hkey]
  simp only [encryptChunk, hcipher, encryptAES128CBC, hiv, Option.getD_some]
  rw [if_neg hvalid, if_neg (not_not.mpr hvector)]

/-- `DecryptChunk` with AES. Assumes: the key has 16 bytes and the IV one block. -/
theorem decryptChunk_aes (ciphertext : List UInt8) (hcipher : ki.cipher = .aes128)
    (hkey : ki.key.length = 16) (hiv : ki.iv = some vector) (hvector : vector.length = blockSize) :
    decryptChunk prims ciphertext ki =
      if ciphertext.length % blockSize ≠ 0 then .error .notBlockMultiple
      else unpad (cbcDecrypt prims ki.key vector ciphertext) := by
  have hvalid : ¬ isAESKey ki.key = false := by simp [isAESKey, hkey]
  simp only [decryptChunk, hcipher, decryptAES128CBC, hiv, Option.getD_some]
  rw [if_neg hvalid, if_neg (not_not.mpr hvector)]

/-- `DecryptChunk` with AES gives a plaintext of a string exactly when the string is its encryption,
if and only if the string is not empty and its decryption, if it is whole blocks, ends in its whole
padding. Assumes: the key has 16 bytes and the IV one block. -/
theorem decryptChunk_iff (prims : Primitives) (ki : KeyInfo) (vector nonce ciphertext : List UInt8)
    (hcipher : ki.cipher = .aes128) (hkey : ki.key.length = 16) (hiv : ki.iv = some vector)
    (hvector : vector.length = blockSize) :
    (∀ plaintext, decryptChunk prims ciphertext ki = .ok plaintext ↔
        encryptChunk prims nonce plaintext ki = .ok ciphertext) ↔
      ciphertext ≠ [] ∧ (ciphertext.length % blockSize = 0 →
        PaddedWhole (cbcDecrypt prims ki.key vector ciphertext)) := by
  simp only [encryptChunk_aes nonce _ hcipher hkey hiv hvector,
    decryptChunk_aes ciphertext hcipher hkey hiv hvector, Except.ok.injEq]
  by_cases hblocks : ciphertext.length % blockSize = 0
  · have hdvd := Nat.dvd_of_mod_eq_zero hblocks
    have hplain : blockSize ∣ (cbcDecrypt prims ki.key vector ciphertext).length := by
      rwa [length_cbcDecrypt hdvd]
    rw [if_neg (not_not.mpr hblocks), forall_prop_of_true hblocks]
    constructor
    · intro hinverse
      have hne : ciphertext ≠ [] := by
        rintro rfl
        have hlength := congrArg List.length ((hinverse []).mp rfl)
        rw [length_cbcEncrypt (dvd_length_pad []), length_pad] at hlength
        exact absurd hlength (by decide)
      refine ⟨hne, fun last hlast hpositive hle ↦ ?_⟩
      have hvalid : ¬ (last.toNat > blockSize ∨ last = 0) := by
        rintro (hlarge | rfl)
        · exact absurd hle (not_le.mpr hlarge)
        · exact absurd hpositive (by decide)
      obtain ⟨plaintext, hunpad⟩ : ∃ plaintext,
          unpad (cbcDecrypt prims ki.key vector ciphertext) = .ok plaintext := by
        simp only [unpad, Option.mem_def.mp hlast]
        exact ⟨_, if_neg hvalid⟩
      have hpadded := congrArg (cbcDecrypt prims ki.key vector) ((hinverse plaintext).mp hunpad)
      rw [cbcDecrypt_cbcEncrypt (dvd_length_pad plaintext)] at hpadded
      rw [← hpadded] at hlast ⊢
      exact paddedWhole_pad plaintext last hlast hpositive hle
    · rintro ⟨hne, hwhole⟩ plaintext
      constructor
      · intro hunpad
        have hplainNe : cbcDecrypt prims ki.key vector ciphertext ≠ [] := fun hnil ↦ by
          have hlength : (cbcDecrypt prims ki.key vector ciphertext).length = ciphertext.length :=
            length_cbcDecrypt hdvd
          rw [hnil] at hlength
          exact hne (List.eq_nil_of_length_eq_zero hlength.symm)
        rw [pad_of_unpad hplain hplainNe hwhole hunpad, cbcEncrypt_cbcDecrypt hdvd]
      · rintro rfl
        rw [cbcDecrypt_cbcEncrypt (dvd_length_pad plaintext), unpad_pad]
  · rw [if_pos hblocks]
    have hne : ciphertext ≠ [] := by
      rintro rfl
      exact hblocks rfl
    refine iff_of_true (fun plaintext ↦ iff_of_false nofun fun hsame ↦ ?_)
      ⟨hne, fun hzero ↦ absurd hzero hblocks⟩
    refine hblocks (Nat.mod_eq_zero_of_dvd ?_)
    rw [← hsame, length_cbcEncrypt (dvd_length_pad plaintext)]
    exact dvd_length_pad plaintext

end Inverse

/-! ### A block with a damaged padding -/

/-- The bytes 0, 1, ..., 15 as a key and a zero IV. -/
def sampleKey : KeyInfo := ⟨(List.range 16).map UInt8.ofNat, some (List.replicate 16 0), .aes128⟩

/-- Fifteen zeros and the byte 2, which is not how a padding of two bytes ends. -/
def damagedText : List UInt8 := List.replicate 15 0 ++ [2]

/-- What AES-128 makes of that block under the key. -/
def damagedChunk : List UInt8 :=
  [73, 214, 135, 83, 153, 155, 166, 140, 227, 137, 122, 104, 96, 129, 176, 157]

/-- What AES-128 makes under the key of fourteen zeros and their padding. -/
def soundChunk : List UInt8 :=
  [203, 167, 50, 13, 99, 130, 179, 158, 181, 98, 72, 242, 230, 232, 151, 238]

/-- A block cipher that treats these two blocks as AES-128 does under the key, with an AEAD and a
digest that do nothing. -/
def standIns : Primitives where
  aes _ := (Equiv.swap (asBlock damagedText) (asBlock damagedChunk)).trans
    (Equiv.swap (asBlock (pad (List.replicate 14 0))) (asBlock soundChunk))
  sealBody _ _ plaintext := plaintext
  openBody _ _ body := some body
  sha256 _ := List.replicate 32 0

/-- A witness of `decryptChunk_iff`: the encryption of fourteen zeros. -/
theorem decryptChunk_iff_soundChunk :
    (∀ plaintext, decryptChunk standIns soundChunk sampleKey = .ok plaintext ↔
        encryptChunk standIns [] plaintext sampleKey = .ok soundChunk) ↔
      soundChunk ≠ [] ∧ (soundChunk.length % blockSize = 0 →
        PaddedWhole (cbcDecrypt standIns sampleKey.key (List.replicate 16 0) soundChunk)) :=
  decryptChunk_iff standIns sampleKey (List.replicate 16 0) [] soundChunk rfl rfl rfl rfl

/-- The damaged block decrypts to fourteen zeros, whose encryption is another block, and the empty
string decrypts to nothing, whose encryption is not empty. -/
theorem decryptChunk_counterexample :
    decryptChunk standIns damagedChunk sampleKey = .ok (List.replicate 14 0) ∧
      encryptChunk standIns [] (List.replicate 14 0) sampleKey = .ok soundChunk ∧
      soundChunk ≠ damagedChunk ∧
      decryptChunk standIns [] sampleKey = .ok [] ∧
      encryptChunk standIns [] [] sampleKey ≠ .ok [] := by
  decide +kernel

end LiveCDN.Protocol.ChunkCipher
