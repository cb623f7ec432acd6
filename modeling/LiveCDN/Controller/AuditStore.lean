import LiveCDN.Controller.AuditLog
import LiveCDN.Library.GuardedRun
import LiveCDN.Library.Utf8Coercion

/-!
# The stored audit log

`controller/audit.go`: an entry is signed in memory, and the integrity scan checks what is read back
from the database, behind its JSON form. That form keeps neither bytes that are not UTF-8 nor the
sign of a zone offset below a minute, and the signature covers both. So an entry passes the scan
exactly when its strings are UTF-8 and its offset is zero or at least a minute
(`verifyEntry_reread_iff`), and the scan finds nothing after any part of a sequence of calls exactly
when this is so for every call whose entry is stored (`verifyIntegrity_runs_iff`).

Scope. Of the JSON form it is kept what comes back: strings are coerced to UTF-8, and a time is what
`UnmarshalJSON` reads of what `MarshalJSON` writes. The metadata are not signed; whether they can be
encoded and whether bbolt commits is an outcome of the call (`commits`).
-/

set_option autoImplicit false
set_option relaxedAutoImplicit false

namespace LiveCDN.Controller.AuditLog

open Library Utf8Coercion GuardedRun

/-! ### Times behind their JSON form -/

/-- The seconds that the clock of the location shows. -/
def Time.localSec (time : Time) : ℤ := time.unixSec + time.offset

/-- The minutes of the zone that a time is written with. -/
def Time.zone (time : Time) : ℤ := time.offset.tdiv 60

/-- The times that `MarshalJSON` accepts: four digits of year, and less than 24 hours of zone. -/
def Time.marshals (time : Time) : Bool :=
  let year := (civilDate (time.localSec / 86400)).1
  decide (0 ≤ year ∧ year ≤ 9999 ∧ time.zone.natAbs / 60 < 24)

/-- The time that `UnmarshalJSON` reads: what the clock shows, in the zone that was written. -/
def Time.reread (time : Time) : Time :=
  { time with unixSec := time.localSec - 60 * time.zone, offset := 60 * time.zone }

/-- The zone is written as `+00:00` and is not UTC. -/
def Time.OffByLess (time : Time) : Prop := time.offset ≠ 0 ∧ |time.offset| < 60

theorem Time.offByLess_iff (time : Time) : time.OffByLess ↔ time.offset ≠ 0 ∧ time.zone = 0 := by
  unfold Time.OffByLess Time.zone
  refine and_congr_right fun _ ↦ ?_
  have hminutes : (time.offset.tdiv 60).natAbs = time.offset.natAbs / 60 :=
    Int.natAbs_tdiv time.offset 60
  rw [abs_lt]
  omega

/-- The zone of a time that was read back: `Z` where `+00:00` was written. -/
theorem appendZone_reread (time : Time) :
    appendZone time.reread.offset =
      if time.zone = 0 then ['Z'] else appendZone time.offset := by
  have hzone : (60 * time.zone).tdiv 60 = time.zone := Int.mul_tdiv_cancel_left _ (by decide)
  split_ifs with hzero
  · simp [Time.reread, hzero, appendZone]
  · have hoffset : time.offset ≠ 0 := by
      intro hoffset
      rw [Time.zone, hoffset] at hzero
      exact hzero rfl
    have hreread : time.reread.offset ≠ 0 := by
      simpa [Time.reread] using hzero
    rw [appendZone, appendZone, if_neg hreread, if_neg hoffset]
    simp only [Time.reread, hzone]
    rfl

/-- A time is written like the time that was read back, up to the zone. -/
theorem exists_format_eq (time : Time) : ∃ clock : List Char,
    time.formatRFC3339Nano = ascii (clock ++ appendZone time.offset) ∧
      time.reread.formatRFC3339Nano = ascii (clock ++ appendZone time.reread.offset) := by
  have hlocal : time.reread.unixSec + time.reread.offset = time.unixSec + time.offset := by
    simp only [Time.reread, Time.localSec, sub_add_cancel]
  refine ⟨_, rfl, ?_⟩
  rw [Time.formatRFC3339Nano, hlocal]
  rfl

/-- A time that is read back is written with five characters less if its zone was `+00:00`, and
like before otherwise. -/
theorem format_reread (time : Time) :
    (time.OffByLess →
        time.reread.formatRFC3339Nano.length + 5 = time.formatRFC3339Nano.length) ∧
      (¬ time.OffByLess → time.reread.formatRFC3339Nano = time.formatRFC3339Nano) := by
  obtain ⟨clock, hbefore, hbehind⟩ := exists_format_eq time
  rw [hbefore, hbehind, appendZone_reread, Time.offByLess_iff]
  constructor
  · rintro ⟨hoffset, hzone⟩
    have hwritten : appendZone time.offset = ['+', '0', '0', ':', '0', '0'] := by
      rw [appendZone, if_neg hoffset, ← Time.zone, hzone]
      rfl
    rw [if_pos hzone, hwritten]
    simp [ascii]
  · intro hkept
    split_ifs with hzone
    · have hoffset : time.offset = 0 := by_contra fun hoffset ↦ hkept ⟨hoffset, hzone⟩
      rw [hoffset]
      rfl
    · rfl

/-! ### Entries behind their JSON form -/

/-- The entry that `Unmarshal` reads of what `Marshal` writes. -/
def AuditEntry.reread (entry : AuditEntry) : AuditEntry where
  id := coerce entry.id
  action := coerce entry.action
  actor := coerce entry.actor
  target := coerce entry.target
  detail := coerce entry.detail
  timestamp := entry.timestamp.reread
  signature := coerce entry.signature

/-- The strings of an entry under the signature. -/
def AuditEntry.strings (entry : AuditEntry) : List GoString :=
  [entry.id, entry.action, entry.actor, entry.target, entry.detail]

/-- An entry whose signed fields all come back as they were. -/
structure AuditEntry.Survives (entry : AuditEntry) : Prop where
  strings : ∀ field ∈ entry.strings, (ByteText.fromUtf8 field).isSome = true
  zone : ¬ entry.timestamp.OffByLess

/-- Hexadecimal digits are ASCII. -/
theorem lt_of_mem_encodeToString {bytes : List UInt8} {digit : UInt8}
    (hdigit : digit ∈ encodeToString bytes) : digit < 0x80 := by
  have hall : ∀ value : Fin 16, hexDigit value < 0x80 := by decide
  induction bytes with
  | nil => exact absurd hdigit List.not_mem_nil
  | cons byte bytes ih =>
    rcases List.mem_cons.mp hdigit with rfl | hrest
    · exact hall ⟨byte.toNat / 16, by have := byte.toNat_lt; omega⟩
    · rcases List.mem_cons.mp hrest with rfl | htail
      · exact hall ⟨byte.toNat % 16, Nat.mod_lt _ (by decide)⟩
      · exact ih htail

/-- The text under the signature keeps its length and its bytes exactly when the entry survives:
replaced bytes make it longer by an even number, and a lost zone makes it shorter by five. -/
theorem signedText_reread_iff (entry : AuditEntry) :
    entry.signedText = entry.reread.signedText ↔ entry.Survives := by
  obtain ⟨hshorter, hsame⟩ := format_reread entry.timestamp
  have htext (e : AuditEntry) : e.signedText = e.id ++ (e.action ++ (e.actor ++ (e.target ++
      (e.detail ++ e.timestamp.formatRFC3339Nano)))) := by
    simp [AuditEntry.signedText, AuditEntry.signedFields]
  constructor
  · intro hequal
    have hlength := congrArg List.length hequal
    simp only [htext, List.length_append, AuditEntry.reread, length_coerce] at hlength
    have hzone : ¬ entry.timestamp.OffByLess := by
      intro hlost
      have hfive := hshorter hlost
      omega
    rw [hsame hzone] at hlength
    refine ⟨fun field hfield ↦ invalid_eq_zero_iff.mp ?_, hzone⟩
    simp only [AuditEntry.strings, List.mem_cons, List.not_mem_nil, or_false] at hfield
    rcases hfield with rfl | rfl | rfl | rfl | rfl <;> omega
  · intro hsurvives
    have hkept : ∀ field ∈ entry.strings, coerce field = field := fun field hfield ↦
      coerce_of_invalid_eq_zero (invalid_eq_zero_iff.mpr (hsurvives.strings field hfield))
    simp only [AuditEntry.strings, List.forall_mem_cons] at hkept
    obtain ⟨hid, haction, hactor, htarget, hdetail, -⟩ := hkept
    simp only [htext, AuditEntry.reread, hid, haction, hactor, htarget, hdetail,
      hsame hsurvives.zone]

variable (hmacSha256 : GoString → GoString → List UInt8)

/-- A signed entry passes behind its JSON form exactly when it survives. Assumes: no two messages
have one digest under a key. -/
theorem verifyEntry_reread_iff (hmac : ∀ key, Function.Injective (hmacSha256 key))
    {signKey : GoString} {entry : AuditEntry}
    (hsigned : entry.signature = signEntry hmacSha256 signKey entry) :
    verifyEntry hmacSha256 signKey entry.reread = true ↔ entry.Survives := by
  have hsignature : entry.reread.signature = signEntry hmacSha256 signKey entry := by
    rw [← hsigned]
    refine coerce_of_invalid_eq_zero (invalid_of_ascii fun digit hdigit ↦ ?_)
    rw [hsigned] at hdigit
    exact lt_of_mem_encodeToString hdigit
  rw [verifyEntry, beq_iff_eq, hsignature, signEntry_eq_iff hmacSha256 hmac, signedText_reread_iff]

/-! ### Calls -/

/-- The bucket of the log: what `Unmarshal` reads of the value under each key, none where the value
does not parse. -/
abbrev Bucket := Std.TreeMap GoString (Option AuditEntry)

/-- `AuditLogger` with what its database holds: none without a database or without the bucket. -/
structure StoredLog where
  logger : AuditLogger
  bucket : Option Bucket

/-- A call of `Log`: the two readings of the clock, the arguments, and whether the metadata are
encoded and bbolt commits. -/
structure LogCall where
  idTime : Time
  now : Time
  action : AuditAction
  actor : GoString
  target : GoString
  detail : GoString
  commits : Bool
  deriving DecidableEq, Repr

/-- `persist`. -/
def persist (bucket : Bucket) (entry : AuditEntry) (commits : Bool) : Bucket :=
  if entry.timestamp.marshals = true ∧ commits = true then
    bucket.insert entry.id (some entry.reread)
  else bucket

/-- `Log`. -/
def StoredLog.log (al : StoredLog) (call : LogCall) : StoredLog :=
  let entry := al.logger.log hmacSha256 call.idTime call.now call.action call.actor call.target
    call.detail
  ⟨entry.2, al.bucket.map fun bucket ↦ persist bucket entry.1 call.commits⟩

/-- `VerifyIntegrity`. -/
def StoredLog.verifyIntegrity (al : StoredLog) : ℕ :=
  match al.bucket with
  | none => 0
  | some bucket =>
    AuditLog.verifyIntegrity hmacSha256 al.logger.signKey (bucket.toList.map Prod.snd)

/-- The entry of a call is stored if there is a bucket. -/
def LogCall.Stored (call : LogCall) : Prop := call.now.marshals = true ∧ call.commits = true

/-- The strings of a call are UTF-8, and the offset of its clock is zero or at least a minute. -/
structure LogCall.Survives (call : LogCall) : Prop where
  strings : ∀ field ∈ [call.action, call.actor, call.target, call.detail],
    (ByteText.fromUtf8 field).isSome = true
  zone : ¬ call.now.OffByLess

/-- The digits of a number are ASCII. -/
theorem lt_of_mem_appendInt {value : ℤ} {width : ℕ} {c : Char} (hc : c ∈ appendInt value width) :
    c.toNat < 0x80 := by
  simp only [appendInt, List.mem_append, List.mem_replicate] at hc
  rcases hc with (hsign | ⟨-, rfl⟩) | hdigit
  · split_ifs at hsign
    · rw [List.mem_singleton.mp hsign]
      decide
    · exact absurd hsign List.not_mem_nil
  · decide
  · have hdecimal := Nat.isDigit_of_mem_toDigits (by decide) (by decide) hdigit
    simp only [Char.isDigit, Bool.and_eq_true, decide_eq_true_eq] at hdecimal
    exact (UInt32.le_iff_toNat_le.mp hdecimal.2).trans_lt (by decide)

/-- The entry of a call survives exactly when the call does: an ID is ASCII. -/
theorem survives_log_iff (logger : AuditLogger) (call : LogCall) :
    (logger.log hmacSha256 call.idTime call.now call.action call.actor call.target
      call.detail).1.Survives ↔ call.Survives := by
  have hid : (ByteText.fromUtf8 (logger.log hmacSha256 call.idTime call.now call.action call.actor
      call.target call.detail).1.id).isSome = true := by
    refine invalid_eq_zero_iff.mp (invalid_of_ascii fun byte hbyte ↦ ?_)
    refine ByteText.lt_of_mem_asciiBytes (fun c hc ↦ ?_) hbyte
    rcases List.mem_append.mp hc with hmillis | hcounter
    · exact lt_of_mem_appendInt hmillis
    · rcases List.mem_cons.mp hcounter with rfl | hcounter
      · decide
      · exact lt_of_mem_appendInt hcounter
  constructor
  · intro hsurvives
    exact ⟨(List.forall_mem_cons.mp hsurvives.strings).2, hsurvives.zone⟩
  · intro hsurvives
    exact ⟨List.forall_mem_cons.mpr ⟨hid, hsurvives.strings⟩, hsurvives.zone⟩

/-- The scan finds nothing exactly when every value in the bucket parses and passes. -/
theorem StoredLog.verifyIntegrity_eq_zero_iff (al : StoredLog) :
    al.verifyIntegrity hmacSha256 = 0 ↔
      ∀ bucket ∈ al.bucket, ∀ (key : GoString) (value : Option AuditEntry),
        bucket[key]? = some value → ∃ entry, value = some entry ∧
          verifyEntry hmacSha256 al.logger.signKey entry = true := by
  unfold StoredLog.verifyIntegrity
  cases al.bucket with
  | none => simp
  | some bucket =>
    simp only [AuditLog.verifyIntegrity_eq_zero_iff, Option.mem_some_iff, forall_eq',
      ← Std.TreeMap.mem_toList_iff_getElem?_eq_some, List.mem_map, Prod.exists,
      exists_eq_right]
    exact ⟨fun hall key value hrow ↦ hall value ⟨key, hrow⟩,
      fun hall value ⟨key, hrow⟩ ↦ hall key value hrow⟩

/-- A call after which the scan finds nothing. Assumes: no two messages have one digest under a key,
and the scan found nothing before the call. -/
theorem verifyIntegrity_log_iff (hmac : ∀ key, Function.Injective (hmacSha256 key)) {al : StoredLog}
    (hclean : al.verifyIntegrity hmacSha256 = 0) (call : LogCall) :
    (al.log hmacSha256 call).verifyIntegrity hmacSha256 = 0 ↔
      (al.bucket.isSome = true → call.Stored → call.Survives) := by
  obtain ⟨logger, bucket⟩ := al
  cases bucket with
  | none => exact iff_of_true rfl nofun
  | some bucket =>
    set entry := logger.log hmacSha256 call.idTime call.now call.action call.actor call.target
      call.detail with hentry
    have hlog : StoredLog.log hmacSha256 ⟨logger, some bucket⟩ call =
        ⟨entry.2, some (persist bucket entry.1 call.commits)⟩ := rfl
    have hpasses : verifyEntry hmacSha256 logger.signKey entry.1.reread = true ↔ call.Survives := by
      rw [← survives_log_iff hmacSha256 logger call, ← hentry]
      exact verifyEntry_reread_iff hmacSha256 hmac rfl
    rw [StoredLog.verifyIntegrity_eq_zero_iff] at hclean
    rw [hlog, StoredLog.verifyIntegrity_eq_zero_iff]
    simp only [Option.mem_some_iff, forall_eq'] at hclean ⊢
    rw [show entry.2.signKey = logger.signKey from rfl, Option.isSome_some, forall_prop_of_true rfl]
    by_cases hstored : call.Stored
    · have hpersist : persist bucket entry.1 call.commits =
          bucket.insert entry.1.id (some entry.1.reread) := if_pos hstored
      rw [forall_prop_of_true hstored, hpersist, ← hpasses]
      constructor
      · intro hall
        obtain ⟨stored, hsame, hpass⟩ := hall entry.1.id (some entry.1.reread)
          (by rw [Std.TreeMap.getElem?_insert_self])
        obtain rfl := Option.some.inj hsame
        exact hpass
      · intro hpass key value hfound
        rw [Std.TreeMap.getElem?_insert] at hfound
        split_ifs at hfound with hkey
        · obtain rfl := Option.some.inj hfound
          exact ⟨_, rfl, hpass⟩
        · exact hclean key value hfound
    · have hpersist : persist bucket entry.1 call.commits = bucket := if_neg hstored
      rw [hpersist]
      exact iff_of_true hclean fun hstored' ↦ absurd hstored' hstored

/-! ### Sequences of calls -/

/-- A call neither makes nor removes the bucket. -/
theorem isSome_bucket_log (al : StoredLog) (call : LogCall) :
    (al.log hmacSha256 call).bucket.isSome = al.bucket.isSome :=
  Option.isSome_map

/-- The scan finds nothing after any part of a sequence of calls, exactly when there is no bucket or
every call whose entry is stored has strings that are UTF-8 and a clock whose offset is zero or at
least a minute. Assumes: no two messages have one digest under a key, and the scan finds nothing in
the log before the calls. -/
theorem verifyIntegrity_runs_iff (hmac : ∀ key, Function.Injective (hmacSha256 key))
    (al : StoredLog) (hclean : al.verifyIntegrity hmacSha256 = 0) (calls : List LogCall) :
    (∀ taken, taken <+: calls →
        (run (StoredLog.log hmacSha256) al taken).verifyIntegrity hmacSha256 = 0) ↔
      (al.bucket.isSome = true → ∀ call ∈ calls, call.Stored → call.Survives) := by
  have hsteps : EachStepMeets (StoredLog.log hmacSha256)
        (fun later call ↦ (later.log hmacSha256 call).verifyIntegrity hmacSha256 = 0) al calls ↔
      EachStepMeets (StoredLog.log hmacSha256)
        (fun _ call ↦ al.bucket.isSome = true → call.Stored → call.Survives) al calls := by
    refine eachStepMeets_iff_of_kept (StoredLog.log hmacSha256)
      (fun later call (hlater : later.verifyIntegrity hmacSha256 = 0 ∧
        later.bucket.isSome = al.bucket.isSome) hnext ↦ ?_) (fun later call hlater ↦ ?_)
      ⟨hclean, rfl⟩ calls
    · exact ⟨hnext, (isSome_bucket_log hmacSha256 later call).trans hlater.2⟩
    · rw [verifyIntegrity_log_iff hmacSha256 hmac hlater.1, hlater.2]
  have hparts := @forall_prefix_iff _ _ (StoredLog.log hmacSha256)
    (fun later ↦ later.verifyIntegrity hmacSha256 = 0) al calls
  rw [hparts, and_iff_right hclean, hsteps, eachStepMeets_const_iff]
  exact ⟨fun hall hbucket call hcall ↦ hall call hcall hbucket,
    fun hall call hcall hbucket ↦ hall hbucket call hcall⟩

/-! ### A domain that is no text -/

/-- A log of nothing. -/
def emptyLog : StoredLog := ⟨⟨ascii "admin-token".toList, 41⟩, some ∅⟩

/-- The call that makes the entry of an added domain. -/
def addDomain : LogCall where
  idTime := domainAdded.timestamp
  now := domainAdded.timestamp
  action := domainAdded.action
  actor := domainAdded.actor
  target := domainAdded.target
  detail := domainAdded.detail
  commits := true

/-- The administrator removes a domain whose name is the byte 255. -/
def removeRaw : LogCall :=
  { addDomain with
    action := ascii "domain_remove".toList
    target := [0xFF]
    detail := ascii "domain removed from pool".toList }

theorem verifyIntegrity_emptyLog : emptyLog.verifyIntegrity standInMac = 0 := rfl

/-- A witness of `verifyIntegrity_runs_iff`: a domain is added. -/
theorem verifyIntegrity_runs_iff_addDomain :
    (∀ taken, taken <+: [addDomain] →
        (run (StoredLog.log standInMac) emptyLog taken).verifyIntegrity standInMac = 0) ↔
      (emptyLog.bucket.isSome = true → ∀ call ∈ [addDomain], call.Stored → call.Survives) :=
  verifyIntegrity_runs_iff standInMac standInMac_injective emptyLog verifyIntegrity_emptyLog
    [addDomain]

/-- The scan reports the entry of the removal, which nobody has tampered with. -/
theorem verifyIntegrity_runs_counterexample :
    removeRaw.Stored ∧
      (run (StoredLog.log standInMac) emptyLog [removeRaw]).verifyIntegrity standInMac ≠ 0 := by
  have hstored : removeRaw.Stored := ⟨by decide +kernel, rfl⟩
  refine ⟨hstored, fun hnothing ↦ ?_⟩
  have hsurvives := (verifyIntegrity_log_iff standInMac standInMac_injective
    verifyIntegrity_emptyLog removeRaw).mp hnothing rfl hstored
  have hraw : ByteText.fromUtf8 [0xFF] = none := by decide
  have htarget := hsurvives.strings [0xFF] (by simp [removeRaw])
  rw [hraw] at htarget
  cases htarget

end LiveCDN.Controller.AuditLog
