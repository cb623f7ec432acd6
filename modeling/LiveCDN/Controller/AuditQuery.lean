import LiveCDN.Controller.AuditStore

/-!
# Queries of the audit log

`Query` of `controller/audit.go` walks the bucket backwards, keeps what parses and has the action
asked for, and stops behind an entry when the limit is reached. So it returns the first entries of
the backward walk, at least one if there is one (`query_eq`): a limit of zero or less, which the
endpoint passes on, is taken for one. Otherwise it returns the newest entries up to the limit
(`query_exact_iff`).

Scope. What `fmt.Sscanf` reads of the limit is a parameter.
-/

set_option autoImplicit false
set_option relaxedAutoImplicit false

namespace LiveCDN.Controller.AuditLog

/-! ### The query -/

/-- The rows of the bucket in the order of their keys. -/
def StoredLog.rows (al : StoredLog) : List (GoString × Option AuditEntry) :=
  match al.bucket with
  | none => []
  | some bucket => bucket.toList

/-- An entry has the action that is asked for: an empty one asks for all. -/
def hasAction (action : AuditAction) (entry : AuditEntry) : Bool :=
  decide (action = [] ∨ entry.action = action)

/-- The loop of `Query` over the rows the cursor has before it. -/
def queryFrom (action : AuditAction) (limit : ℤ) :
    List (GoString × Option AuditEntry) → List AuditEntry → List AuditEntry
  | [], entries => entries
  | (_, none) :: rows, entries => queryFrom action limit rows entries
  | (_, some entry) :: rows, entries =>
    if hasAction action entry = false then queryFrom action limit rows entries
    else if (entries.length + 1 : ℤ) ≥ limit then entries ++ [entry]
    else queryFrom action limit rows (entries ++ [entry])

/-- `Query`. -/
def StoredLog.query (al : StoredLog) (action : AuditAction) (limit : ℤ) : List AuditEntry :=
  queryFrom action limit al.rows.reverse []

/-- `Count`. -/
def StoredLog.count (al : StoredLog) : ℕ := al.rows.length

/-- The limit of a request: 100 where none is given, none is read or more than 1000 are asked
for. -/
def requestLimit (limitText : GoString) (scanned : Option ℤ) : ℤ :=
  if limitText = [] then 100
  else
    match scanned with
    | none => 100
    | some limit => if limit > 1000 then 100 else limit

/-- The response of `handleAuditQuery`. -/
structure AuditResponse where
  entries : List AuditEntry
  count : ℕ
  total : ℕ
  deriving DecidableEq, Repr

/-- `handleAuditQuery`. -/
def StoredLog.handleAuditQuery (al : StoredLog) (action : AuditAction) (limitText : GoString)
    (scanned : Option ℤ) : AuditResponse :=
  let entries := al.query action (requestLimit limitText scanned)
  ⟨entries, entries.length, al.count⟩

/-! ### What a query returns -/

/-- The entries that parse and have the action, in the order of the rows. -/
def matching (action : AuditAction) (rows : List (GoString × Option AuditEntry)) :
    List AuditEntry :=
  (rows.filterMap Prod.snd).filter (hasAction action)

theorem matching_reverse (action : AuditAction) (rows : List (GoString × Option AuditEntry)) :
    matching action rows.reverse = (matching action rows).reverse := by
  rw [matching, List.filterMap_reverse, List.filter_reverse, matching]

/-- The loop appends the first entries that match, up to the limit, and at least one of them. -/
theorem queryFrom_eq (action : AuditAction) (limit : ℤ)
    (rows : List (GoString × Option AuditEntry)) (entries : List AuditEntry) :
    queryFrom action limit rows entries =
      entries ++ (matching action rows).take (max 1 (limit - entries.length)).toNat := by
  induction rows generalizing entries with
  | nil => simp [queryFrom, matching]
  | cons row rows ih =>
    obtain ⟨key, value⟩ := row
    cases value with
    | none => exact ih entries
    | some entry =>
      rw [queryFrom]
      split_ifs with hother hfull
      · have hskip : matching action ((key, some entry) :: rows) = matching action rows := by
          simp [matching, hother]
        rw [hskip]
        exact ih entries
      · have hkept : matching action ((key, some entry) :: rows) =
            entry :: matching action rows := by
          simp [matching, eq_true_of_ne_false hother]
        have hone : (max 1 (limit - entries.length)).toNat = 1 := by omega
        rw [hkept, hone, List.take_succ_cons, List.take_zero]
      · have hkept : matching action ((key, some entry) :: rows) =
            entry :: matching action rows := by
          simp [matching, eq_true_of_ne_false hother]
        have hmore : (max 1 (limit - entries.length)).toNat =
            (max 1 (limit - (entries ++ [entry]).length)).toNat + 1 := by
          rw [List.length_append, List.length_singleton]
          omega
        rw [ih, hkept, hmore, List.take_succ_cons, List.append_assoc, List.singleton_append]

/-- A query returns the first matching entries from the end of the bucket, up to the limit, and at
least one of them. -/
theorem query_eq (al : StoredLog) (action : AuditAction) (limit : ℤ) :
    al.query action limit = (matching action al.rows).reverse.take (max 1 limit).toNat := by
  rw [StoredLog.query, queryFrom_eq, List.nil_append, matching_reverse, List.length_nil,
    Nat.cast_zero, sub_zero]

/-- A request returns a thousand entries at most. -/
theorem length_handleAuditQuery_le (al : StoredLog) (action : AuditAction) (limitText : GoString)
    (scanned : Option ℤ) :
    (al.handleAuditQuery action limitText scanned).entries.length ≤ 1000 := by
  have hlimit : requestLimit limitText scanned ≤ 1000 := by
    unfold requestLimit
    split_ifs
    · decide
    · cases scanned with
      | none => decide
      | some limit =>
        dsimp only
        split_ifs with hmany
        · decide
        · exact not_lt.mp hmany
  have hentries : (al.handleAuditQuery action limitText scanned).entries =
      (matching action al.rows).reverse.take (max 1 (requestLimit limitText scanned)).toNat :=
    query_eq al action (requestLimit limitText scanned)
  rw [hentries, List.length_take]
  omega

/-! ### Exact queries -/

/-- An instant is not behind another. -/
def Time.AtOrBefore (time other : Time) : Prop :=
  time.unixSec < other.unixSec ∨ time.unixSec = other.unixSec ∧ time.nsec ≤ other.nsec

/-- The order of the keys is that of the times of the entries that parse. -/
def SortsByTime (rows : List (GoString × Option AuditEntry)) : Prop :=
  rows.Pairwise fun earlier later ↦ ∀ entry ∈ earlier.2, ∀ other ∈ later.2,
    entry.timestamp.AtOrBefore other.timestamp

/-- The matching entries, the newest first, up to a limit. -/
def IsNewest (action : AuditAction) (rows : List (GoString × Option AuditEntry)) (limit : ℤ)
    (result : List AuditEntry) : Prop :=
  ∃ newest : List AuditEntry, newest.Perm (matching action rows) ∧
    (newest.Pairwise fun later earlier ↦ earlier.timestamp.AtOrBefore later.timestamp) ∧
      result = newest.take (max limit 0).toNat

/-- Of rows that sort by time the matching entries are from the oldest to the newest. -/
theorem SortsByTime.pairwise_matching {rows : List (GoString × Option AuditEntry)}
    (hsorts : SortsByTime rows) (action : AuditAction) :
    (matching action rows).Pairwise fun earlier later ↦
      earlier.timestamp.AtOrBefore later.timestamp := by
  refine List.Pairwise.filter _ (List.pairwise_filterMap.mpr (hsorts.imp ?_))
  exact fun hrows entry hentry other hother ↦ hrows entry hentry other hother

/-- A query returns the newest matching entries up to the limit, exactly when the limit is positive
or no entry matches. Assumes: the keys sort by time. -/
theorem query_exact_iff (al : StoredLog) (action : AuditAction) (limit : ℤ)
    (hsorts : SortsByTime al.rows) :
    IsNewest action al.rows limit (al.query action limit) ↔
      0 < limit ∨ matching action al.rows = [] := by
  rw [query_eq]
  constructor
  · rintro ⟨newest, hperm, -, hresult⟩
    by_contra hneither
    obtain ⟨hlimit, hsome⟩ := not_or.mp hneither
    have hzero : (max limit 0).toNat = 0 := by omega
    have hone : (max 1 limit).toNat = 1 := by omega
    rw [hzero, List.take_zero, hone, List.take_eq_nil_iff, List.reverse_eq_nil_iff] at hresult
    exact hsome (hresult.resolve_left one_ne_zero)
  · intro hcondition
    refine ⟨(matching action al.rows).reverse, List.reverse_perm _,
      List.pairwise_reverse.mpr (hsorts.pairwise_matching action), ?_⟩
    rcases hcondition with hlimit | hnone
    · have hsame : max 1 limit = max limit 0 := by omega
      rw [hsame]
    · rw [hnone, List.reverse_nil, List.take_nil, List.take_nil]

/-! ### A limit of zero -/

/-- A log that holds the entry of an added domain. -/
def oneEntry : StoredLog :=
  ⟨⟨ascii "admin-token".toList, 42⟩, some ((∅ : Bucket).insert domainAdded.id (some domainAdded))⟩

theorem rows_oneEntry : oneEntry.rows = [(domainAdded.id, some domainAdded)] := by
  decide +kernel

theorem sortsByTime_oneEntry : SortsByTime oneEntry.rows := by
  rw [rows_oneEntry]
  exact List.pairwise_singleton _ _

/-- A witness of `query_exact_iff`: the entry is asked for by its action, without a limit in the
request. -/
theorem query_exact_iff_oneEntry :
    IsNewest domainAdded.action oneEntry.rows 100 (oneEntry.query domainAdded.action 100) ↔
      (0 : ℤ) < 100 ∨ matching domainAdded.action oneEntry.rows = [] :=
  query_exact_iff oneEntry domainAdded.action 100 sortsByTime_oneEntry

/-- With a limit of zero, or a negative one, the entry is returned. -/
theorem query_exact_counterexample :
    SortsByTime oneEntry.rows ∧
      (oneEntry.handleAuditQuery [] (ascii ['0']) (some 0)).entries = [domainAdded] ∧
      oneEntry.query [] 0 = [domainAdded] ∧ oneEntry.query [] (-1) = [domainAdded] ∧
      ¬ IsNewest [] oneEntry.rows 0 (oneEntry.query [] 0) := by
  have hzero : oneEntry.query [] 0 = [domainAdded] := by decide +kernel
  refine ⟨sortsByTime_oneEntry, by decide +kernel, hzero, by decide +kernel, ?_⟩
  rintro ⟨newest, -, -, hresult⟩
  rw [hzero] at hresult
  cases hresult

end LiveCDN.Controller.AuditLog
