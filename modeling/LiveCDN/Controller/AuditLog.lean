import Mathlib

/-!
# Signatures of the audit log

`controller/audit.go`: an entry is signed by feeding six of its fields, one behind another, to a MAC
(`signEntry`), and it passes `verifyEntry` when its signature is the one it would be given. The scan
`verifyIntegrity` counts the entries that do not pass. Nothing separates the fields and nothing says
how long they are, so the MAC sees one text. What goes unseen are exactly the modifications that
move bytes over the boundaries between neighbouring fields (`flatten_eq_iff_moved`,
`tamperEvident_iff`); no bytes need to be moved where another time has the same text, as one does
whose zone differs in its seconds.

Scope. Strings are byte strings, as in Go. HMAC-SHA256 is a parameter, and what is relied on is that
no two messages have one digest under a key. A time is what `Format` reads of it: the instant and
the offset of its location, without a monotonic reading.
-/

set_option autoImplicit false
set_option relaxedAutoImplicit false

namespace LiveCDN.Controller.AuditLog

/-- A Go string: its bytes. -/
abbrev GoString := List UInt8

/-- The bytes of an ASCII text. -/
def ascii (text : List Char) : GoString := text.map fun c ↦ UInt8.ofNat c.toNat

/-! ### Hexadecimal digits -/

/-- The hexadecimal digit of a number below sixteen. -/
def hexDigit (value : ℕ) : UInt8 :=
  if value < 10 then UInt8.ofNat (48 + value) else UInt8.ofNat (87 + value)

/-- `hex.EncodeToString`. -/
def encodeToString : List UInt8 → GoString
  | [] => []
  | byte :: bytes =>
    hexDigit (byte.toNat / 16) :: hexDigit (byte.toNat % 16) :: encodeToString bytes

/-- Digits of different numbers differ. Assumes: both numbers are below sixteen. -/
theorem hexDigit_inj {first second : ℕ} (hfirst : first < 16) (hsecond : second < 16)
    (hdigits : hexDigit first = hexDigit second) : first = second := by
  have hall : ∀ first second : Fin 16, hexDigit first = hexDigit second → first = second := by
    decide
  exact congrArg Fin.val (hall ⟨first, hfirst⟩ ⟨second, hsecond⟩ hdigits)

/-- Hexadecimal digits can be read back. -/
theorem encodeToString_injective : Function.Injective encodeToString := by
  intro first
  induction first with
  | nil =>
    intro second hdigits
    cases second with
    | nil => rfl
    | cons byte bytes => exact absurd hdigits (List.cons_ne_nil _ _).symm
  | cons byte bytes ih =>
    intro second hdigits
    cases second with
    | nil => exact absurd hdigits (List.cons_ne_nil _ _)
    | cons other others =>
      rw [encodeToString, encodeToString, List.cons.injEq, List.cons.injEq] at hdigits
      have hhigh : byte.toNat / 16 = other.toNat / 16 :=
        hexDigit_inj (by have := byte.toNat_lt; omega) (by have := other.toNat_lt; omega)
          hdigits.1
      have hlow : byte.toNat % 16 = other.toNat % 16 :=
        hexDigit_inj (Nat.mod_lt _ (by omega)) (Nat.mod_lt _ (by omega)) hdigits.2.1
      have hbyte : byte = other := UInt8.toNat.inj (by omega)
      rw [hbyte, ih hdigits.2.2]

/-! ### Timestamps -/

/-- `time.Time`: seconds since 1970 in UTC, nanoseconds, and the offset of the location in seconds
east of UTC. -/
structure Time where
  unixSec : ℤ
  nsec : Fin 1000000000
  offset : ℤ
  deriving DecidableEq, Repr

/-- The year, month and day of a number of days since 1970, in the proleptic Gregorian calendar.
The years are counted from March, so that a leap day is the last one. -/
def civilDate (days : ℤ) : ℤ × ℤ × ℤ :=
  let shifted := days + 719468
  let dayOfEra := shifted % 146097
  let yearOfEra := (dayOfEra - dayOfEra / 1460 + dayOfEra / 36524 - dayOfEra / 146096) / 365
  let dayOfYear := dayOfEra - (365 * yearOfEra + yearOfEra / 4 - yearOfEra / 100)
  let monthFromMarch := (5 * dayOfYear + 2) / 153
  let month := if monthFromMarch < 10 then monthFromMarch + 3 else monthFromMarch - 9
  let year := yearOfEra + shifted / 146097 * 400
  (if month ≤ 2 then year + 1 else year, month, dayOfYear - (153 * monthFromMarch + 2) / 5 + 1)

/-- `appendInt`: the decimal digits, with zeros in front up to a width. -/
def appendInt (value : ℤ) (width : ℕ) : List Char :=
  let digits := Nat.toDigits 10 value.natAbs
  (if value < 0 then ['-'] else []) ++ List.replicate (width - digits.length) '0' ++ digits

/-- `appendNano` for `.999999999`: the fraction without the zeros at its end. -/
def appendNano (nsec : ℕ) : List Char :=
  if nsec = 0 then []
  else '.' :: ((appendInt nsec 9).reverse.dropWhile (· == '0')).reverse

/-- The zone of `appendFormatRFC3339`: hours and minutes, the seconds of an offset being left
out. -/
def appendZone (offset : ℤ) : List Char :=
  if offset = 0 then ['Z']
  else
    let zone := offset.tdiv 60
    (if zone < 0 then '-' else '+') :: appendInt (zone.natAbs / 60 : ℕ) 2 ++
      ':' :: appendInt (zone.natAbs % 60 : ℕ) 2

/-- `Format(time.RFC3339Nano)`. -/
def Time.formatRFC3339Nano (time : Time) : GoString :=
  let seconds := time.unixSec + time.offset
  let date := civilDate (seconds / 86400)
  let clock := seconds % 86400
  ascii (appendInt date.1 4 ++ '-' :: appendInt date.2.1 2 ++ '-' :: appendInt date.2.2 2 ++
    'T' :: appendInt (clock / 3600) 2 ++ ':' :: appendInt (clock % 3600 / 60) 2 ++
    ':' :: appendInt (clock % 60) 2 ++ appendNano time.nsec ++ appendZone time.offset)

example : (⟨1709210096, 120000000, 20700⟩ : Time).formatRFC3339Nano =
    ascii "2024-02-29T18:19:56.12+05:45".toList := by decide +kernel

example : (⟨1709210066, 120000000, 20730⟩ : Time).formatRFC3339Nano =
    ascii "2024-02-29T18:19:56.12+05:45".toList := by decide +kernel

/-! ### Entries -/

/-- `AuditAction`. -/
abbrev AuditAction := GoString

/-- The fields of `AuditEntry` that are signed, and the signature. -/
structure AuditEntry where
  id : GoString
  action : AuditAction
  actor : GoString
  target : GoString
  detail : GoString
  timestamp : Time
  signature : GoString
  deriving DecidableEq, Repr

/-- The six fields under the signature. -/
def AuditEntry.signed (entry : AuditEntry) :
    GoString × AuditAction × GoString × GoString × GoString × Time :=
  (entry.id, entry.action, entry.actor, entry.target, entry.detail, entry.timestamp)

/-- The texts of the six fields, in the order in which `signEntry` writes them. -/
def AuditEntry.signedFields (entry : AuditEntry) : List GoString :=
  [entry.id, entry.action, entry.actor, entry.target, entry.detail,
    entry.timestamp.formatRFC3339Nano]

/-- What the writes of `signEntry` make together. -/
def AuditEntry.signedText (entry : AuditEntry) : GoString := entry.signedFields.flatten

variable (hmacSha256 : GoString → GoString → List UInt8)

/-- `signEntry`. -/
def signEntry (signKey : GoString) (entry : AuditEntry) : GoString :=
  encodeToString (hmacSha256 signKey entry.signedText)

/-- `VerifyEntry`. -/
def verifyEntry (signKey : GoString) (entry : AuditEntry) : Bool :=
  entry.signature == signEntry hmacSha256 signKey entry

/-- `AuditLogger`, without its database. -/
structure AuditLogger where
  signKey : GoString
  counter : UInt64
  deriving DecidableEq, Repr

/-- `UnixMilli`. -/
def Time.unixMilli (time : Time) : ℤ := time.unixSec * 1000 + (time.nsec / 1000000 : ℕ)

/-- `Log`: the entry it signs and hands to the database. The clock is read for the ID and again for
the timestamp. -/
def AuditLogger.log (logger : AuditLogger) (idTime now : Time) (action : AuditAction)
    (actor target detail : GoString) : AuditEntry × AuditLogger :=
  let counter := logger.counter + 1
  let entry : AuditEntry :=
    { id := ascii (appendInt idTime.unixMilli 0 ++ '-' :: appendInt counter.toNat 0)
      action := action
      actor := actor
      target := target
      detail := detail
      timestamp := now
      signature := [] }
  ({ entry with signature := signEntry hmacSha256 logger.signKey entry },
    { logger with counter := counter })

/-- `VerifyIntegrity` over what the bucket holds, none where a value does not parse: how many
entries look tampered with. -/
def verifyIntegrity (signKey : GoString) (stored : List (Option AuditEntry)) : ℕ :=
  stored.countP fun value ↦ !(value.any (verifyEntry hmacSha256 signKey))

/-- The scan finds nothing exactly when every value parses and passes. -/
theorem verifyIntegrity_eq_zero_iff (signKey : GoString) (stored : List (Option AuditEntry)) :
    verifyIntegrity hmacSha256 signKey stored = 0 ↔
      ∀ value ∈ stored, ∃ entry, value = some entry ∧
        verifyEntry hmacSha256 signKey entry = true := by
  rw [verifyIntegrity, List.countP_eq_zero]
  refine forall₂_congr fun value _ ↦ ?_
  cases value <;> simp

/-! ### Bytes moved over a boundary -/

/-- The bytes at the end of a field are moved to the front of the next one. -/
inductive Move {α : Type*} : List (List α) → List (List α) → Prop
  | over (front : List (List α)) (left moved right : List α) (back : List (List α)) :
    Move (front ++ (left ++ moved) :: right :: back) (front ++ left :: (moved ++ right) :: back)

/-- One list of fields is made from another by moving bytes over the boundaries between neighbouring
fields, to the next field or back. -/
abbrev Moved {α : Type*} : List (List α) → List (List α) → Prop := Relation.EqvGen Move

section Moves

variable {α : Type*}

theorem Move.flatten_eq {fields others : List (List α)} (hmove : Move fields others) :
    fields.flatten = others.flatten := by
  cases hmove
  simp

theorem Moved.flatten_eq {fields others : List (List α)} (hmoved : Moved fields others) :
    fields.flatten = others.flatten := by
  induction hmoved with
  | rel fields others hmove => exact hmove.flatten_eq
  | refl fields => rfl
  | symm fields others _ ih => exact ih.symm
  | trans fields middle others _ _ ih ih' => exact ih.trans ih'

/-- A field in front takes no part. -/
theorem Moved.cons {fields others : List (List α)} (field : List α) (hmoved : Moved fields others) :
    Moved (field :: fields) (field :: others) := by
  induction hmoved with
  | rel fields others hmove =>
    obtain ⟨front, left, moved, right, back⟩ := hmove
    exact .rel _ _ (.over (field :: front) left moved right back)
  | refl fields => exact .refl _
  | symm fields others _ ih => exact .symm _ _ ih
  | trans fields middle others _ _ ih ih' => exact .trans _ _ _ ih ih'

/-- All bytes can be moved to the first field. -/
theorem moved_first (field : List α) (fields : List (List α)) :
    Moved (field :: fields) ((field :: fields).flatten :: List.replicate fields.length []) := by
  induction fields generalizing field with
  | nil =>
    rw [List.flatten_cons, List.flatten_nil, List.append_nil]
    exact .refl _
  | cons next fields ih =>
    refine .trans _ _ _ ((ih next).cons field) (.symm _ _ (.rel _ _ ?_))
    simpa [List.replicate_succ] using
      Move.over [] field (next :: fields).flatten [] (List.replicate fields.length [])

/-- As many fields put together make the same text exactly when bytes are moved over their
boundaries. -/
theorem flatten_eq_iff_moved {fields others : List (List α)}
    (hlength : fields.length = others.length) :
    fields.flatten = others.flatten ↔ Moved fields others := by
  refine ⟨fun hflatten ↦ ?_, Moved.flatten_eq⟩
  cases fields with
  | nil =>
    rw [List.eq_nil_of_length_eq_zero hlength.symm]
    exact .refl _
  | cons field fields =>
    cases others with
    | nil => exact absurd hlength (Nat.succ_ne_zero _)
    | cons other others =>
      have hfirst := moved_first other others
      rw [← hflatten, ← Nat.succ_injective hlength] at hfirst
      exact .trans _ _ _ (moved_first field fields) (.symm _ _ hfirst)

end Moves

/-- The modified entry is made from an entry by moving bytes over the boundaries between its fields,
of which the timestamp counts with its text. -/
def MovesBytes (entry tampered : AuditEntry) : Prop :=
  Moved
    [entry.id, entry.action, entry.actor, entry.target, entry.detail,
      entry.timestamp.formatRFC3339Nano]
    [tampered.id, tampered.action, tampered.actor, tampered.target, tampered.detail,
      tampered.timestamp.formatRFC3339Nano]

/-- The texts of two entries agree exactly when bytes are moved over the boundaries between their
fields. -/
theorem signedText_eq_iff (entry tampered : AuditEntry) :
    entry.signedText = tampered.signedText ↔ MovesBytes entry tampered :=
  flatten_eq_iff_moved rfl

/-! ### Signatures -/

/-- Two entries get one signature exactly when their texts agree. Assumes: no two messages have one
digest under a key. -/
theorem signEntry_eq_iff (hmac : ∀ key, Function.Injective (hmacSha256 key)) (signKey : GoString)
    (entry other : AuditEntry) :
    signEntry hmacSha256 signKey entry = signEntry hmacSha256 signKey other ↔
      entry.signedText = other.signedText := by
  rw [signEntry, signEntry, encodeToString_injective.eq_iff, (hmac signKey).eq_iff]

/-- An entry passes with the signature of another exactly when their texts agree. Assumes: no two
messages have one digest under a key. -/
theorem verifyEntry_with_signature (hmac : ∀ key, Function.Injective (hmacSha256 key))
    (signKey : GoString) (entry other : AuditEntry) :
    verifyEntry hmacSha256 signKey
        { other with signature := signEntry hmacSha256 signKey entry } = true ↔
      entry.signedText = other.signedText := by
  rw [← signEntry_eq_iff hmacSha256 hmac signKey, verifyEntry, beq_iff_eq]
  rfl

/-- A modification of the signed fields gets another signature and does not pass with the old one,
exactly when it does more than move bytes over the boundaries between the fields. Assumes: no two
messages have one digest under a key. -/
theorem tamperEvident_iff (hmac : ∀ key, Function.Injective (hmacSha256 key)) (signKey : GoString)
    (entry tampered : AuditEntry) :
    (entry.signed ≠ tampered.signed →
      signEntry hmacSha256 signKey entry ≠ signEntry hmacSha256 signKey tampered ∧
        verifyEntry hmacSha256 signKey
          { tampered with signature := signEntry hmacSha256 signKey entry } = false) ↔
      (entry.signed = tampered.signed ∨ ¬ MovesBytes entry tampered) := by
  have hsignature := signEntry_eq_iff hmacSha256 hmac signKey entry tampered
  have hverify := verifyEntry_with_signature hmacSha256 hmac signKey entry tampered
  rw [← signedText_eq_iff, ← Bool.not_eq_true, hverify, Ne, Ne, hsignature, and_self,
    ← Classical.or_iff_not_imp_left]

/-! ### Text moved to the next field -/

/-- The administrator adds a domain. -/
def domainAdded : AuditEntry :=
  { id := ascii "1700000000123-42".toList
    action := ascii "domain_add".toList
    actor := ascii "admin".toList
    target := ascii "cdn.example.com".toList
    detail := ascii "domain added to pool".toList
    timestamp := ⟨1700000000, 123000000, 0⟩
    signature := [] }

/-- The entry with the domain's ending moved to the description. -/
def domainMoved : AuditEntry :=
  { domainAdded with
    target := ascii "cdn.example".toList
    detail := ascii ".comdomain added to pool".toList }

/-- The HMAC-SHA256 digest of the entry's text under the key `admin-token`. -/
def domainAddedDigest : List UInt8 :=
  [232, 20, 41, 125, 225, 255, 158, 84, 84, 97, 128, 47, 56, 81, 52, 138, 169, 15, 172, 228, 107,
    158, 35, 244, 95, 29, 30, 254, 37, 145, 111, 89]

/-- A MAC that gives the entry's text its digest, and every other message its own bytes behind a
block of zeros. -/
def standInMac (signKey message : GoString) : List UInt8 :=
  if signKey = ascii "admin-token".toList ∧ message = domainAdded.signedText then domainAddedDigest
  else List.replicate 32 0 ++ message

/-- No two messages have one digest under a key of the stand-in. -/
theorem standInMac_injective (signKey : GoString) : Function.Injective (standInMac signKey) := by
  have hdigest (message : GoString) : domainAddedDigest ≠ List.replicate 32 0 ++ message :=
    fun heq ↦ absurd (congrArg List.head? heq) (by simp [domainAddedDigest, List.replicate])
  intro first second hmacs
  unfold standInMac at hmacs
  split_ifs at hmacs with hfirst hsecond hsecond
  · rw [hfirst.2, hsecond.2]
  · exact absurd hmacs (hdigest second)
  · exact absurd hmacs.symm (hdigest first)
  · exact List.append_cancel_left hmacs

/-- A witness of `tamperEvident_iff`. -/
theorem tamperEvident_iff_witness :
    (domainAdded.signed ≠ domainMoved.signed →
      signEntry standInMac (ascii "admin-token".toList) domainAdded ≠
          signEntry standInMac (ascii "admin-token".toList) domainMoved ∧
        verifyEntry standInMac (ascii "admin-token".toList)
          { domainMoved with
            signature := signEntry standInMac (ascii "admin-token".toList) domainAdded } = false) ↔
      (domainAdded.signed = domainMoved.signed ∨ ¬ MovesBytes domainAdded domainMoved) :=
  tamperEvident_iff standInMac standInMac_injective (ascii "admin-token".toList) domainAdded
    domainMoved

/-- The entry with the ending moved differs from the one that was signed and passes with its
signature. -/
theorem tamperEvident_counterexample :
    domainAdded.signed ≠ domainMoved.signed ∧
      verifyEntry standInMac (ascii "admin-token".toList)
        { domainMoved with
          signature := signEntry standInMac (ascii "admin-token".toList) domainAdded } = true := by
  refine ⟨by decide +kernel, ?_⟩
  rw [verifyEntry_with_signature standInMac standInMac_injective]
  decide +kernel

end LiveCDN.Controller.AuditLog
