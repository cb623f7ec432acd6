import LiveCDN.Controller.NodeAdmission
import LiveCDN.Controller.StreamStore

/-!
# The store on disk

`controller/bolt_store.go`: `SaveSnapshot` writes the nodes and streams in memory into the buckets
of a file, and `NewBoltStore` restores them when the file is opened again. The file also has buckets
for tokens and sessions, which nothing writes and nothing reads.

`find?_load_save` is the round trip of one bucket: after a bucket was emptied and the records of a
table were put into it, loading it finds what the table holds and nothing else. So a restart keeps
nodes and streams (`restart_records`) and loses every viewer token (`restart_iff`).

Scope. A bucket is a finite map from keys to encoded records. `Codec` is the JSON encoding, which is
taken to round-trip. The scheduler's records and the sessions are left out; the operations run one
after another and read the clock once.
-/

set_option autoImplicit false
set_option relaxedAutoImplicit false

namespace LiveCDN.Controller.Persistence

open Library.KeyedTable Library.GuardedRun NodeStore NodeAdmission StreamStore

variable {Json : Type}

/-! ### Buckets -/

/-- `json.Marshal` and `json.Unmarshal` for one type of records. -/
structure Codec (Json Record : Type) where
  marshal : Record → Option Json
  unmarshal : Json → Option Record
  roundTrip : ∀ record, (marshal record).bind unmarshal = some record

/-- A bucket: a map from keys to encoded records. -/
abbrev Bucket (Json : Type) := Table (Prod.fst : String × Json → String)

section Bucket

variable {Record : Type} {key : Record → String}

/-- The entry a record is put into a bucket under; a record that cannot be encoded is skipped. -/
def bucketEntry (codec : Codec Json Record) (key : Record → String) (record : Record) :
    Option (String × Json) :=
  (codec.marshal record).map fun data ↦ (key record, data)

/-- The part of `SaveSnapshot` for one bucket: every key is deleted, then the records are put. -/
def saveBucket (codec : Codec Json Record) (bucket : Bucket Json) (table : Table key) :
    Bucket Json :=
  (bucket.removeAll (bucket.rows.map Prod.fst)).putAll
    (table.rows.filterMap (bucketEntry codec key))

/-- The part of `restore` for one bucket: the records that can be decoded are stored under their own
keys, changed by `adjust`. -/
def loadBucket (codec : Codec Json Record) (adjust : Record → Record) (bucket : Bucket Json) :
    Table key :=
  Table.empty.putAll (bucket.rows.filterMap fun entry ↦ (codec.unmarshal entry.2).map adjust)

/-- A record has an entry under its key that decodes to the record. -/
theorem exists_bucketEntry (codec : Codec Json Record) (key : Record → String) (record : Record) :
    ∃ data, bucketEntry codec key record = some (key record, data) ∧
      codec.unmarshal data = some record := by
  obtain ⟨data, hdata, hrecord⟩ := Option.bind_eq_some_iff.mp (codec.roundTrip record)
  exact ⟨data, by rw [bucketEntry, hdata, Option.map_some], hrecord⟩

/-- A saved bucket holds exactly the entries of the table. -/
theorem find?_saveBucket (codec : Codec Json Record) (bucket : Bucket Json) (table : Table key)
    (sought : String) :
    (saveBucket codec bucket table).find? sought =
      (table.find? sought).bind (bucketEntry codec key) := by
  have hdistinct : ((table.rows.filterMap (bucketEntry codec key)).map Prod.fst).Nodup := by
    refine table.distinct.sublist (map_filterMap_sublist fun record _ entry hentry ↦ ?_)
    obtain ⟨data, hdata, _⟩ := exists_bucketEntry codec key record
    rw [← Option.some.inj (hdata.symm.trans hentry)]
  have hcleared : (bucket.removeAll (bucket.rows.map Prod.fst)).find? sought = none := by
    rw [Table.find?_removeAll]
    split_ifs with hmem
    · rfl
    · refine Option.eq_none_iff_forall_ne_some.mpr fun entry hentry ↦ hmem ?_
      obtain ⟨hrow, rfl⟩ := Table.find?_eq_some_iff.mp hentry
      exact List.mem_map_of_mem hrow
  have hkeys : (fun record ↦ (bucketEntry codec key record).any fun entry ↦
      decide (entry.1 = sought)) = fun record ↦ decide (key record = sought) := by
    funext record
    obtain ⟨data, hdata, _⟩ := exists_bucketEntry codec key record
    rw [hdata, Option.any_some]
  rw [saveBucket, Table.find?_putAll _ hdistinct, hcleared, Option.or_none, List.find?_filterMap,
    hkeys]
  rfl

/-- Loading a saved bucket finds the records of the table, adjusted. Assumes: adjusting a record
keeps its key. -/
theorem find?_load_save (codec : Codec Json Record) {adjust : Record → Record}
    (hadjust : ∀ record, key (adjust record) = key record) (bucket : Bucket Json)
    (table : Table key) (sought : String) :
    (loadBucket codec adjust (saveBucket codec bucket table) : Table key).find? sought =
      (table.find? sought).map adjust := by
  set saved := saveBucket codec bucket table with hsaved
  have hdecoded : ∀ entry ∈ saved.rows, ∃ record, codec.unmarshal entry.2 = some record ∧
      key record = entry.1 := by
    intro entry hentry
    have hfound := Table.mem_rows_iff_find?.mp hentry
    rw [hsaved, find?_saveBucket] at hfound
    obtain ⟨record, hrecord, hbuilt⟩ := Option.bind_eq_some_iff.mp hfound
    obtain ⟨data, hdata, hdecode⟩ := exists_bucketEntry codec key record
    obtain rfl := Option.some.inj (hdata.symm.trans hbuilt)
    exact ⟨record, hdecode, rfl⟩
  have hdistinct : ((saved.rows.filterMap fun entry ↦
      (codec.unmarshal entry.2).map adjust).map key).Nodup := by
    refine saved.distinct.sublist (map_filterMap_sublist fun entry hentry loaded hloaded ↦ ?_)
    obtain ⟨record, hdecode, hkey⟩ := hdecoded entry hentry
    rw [hdecode, Option.map_some] at hloaded
    rw [← Option.some.inj hloaded, hadjust, hkey]
  have hkeys : ∀ entry ∈ saved.rows, (((codec.unmarshal entry.2).map adjust).any fun loaded ↦
      decide (key loaded = sought)) = decide (entry.1 = sought) := by
    intro entry hentry
    obtain ⟨record, hdecode, hkey⟩ := hdecoded entry hentry
    rw [hdecode, Option.map_some, Option.any_some, hadjust, hkey]
  have hbucket : (saved.rows.find? fun entry ↦ ((codec.unmarshal entry.2).map adjust).any
      fun loaded ↦ decide (key loaded = sought)) = saved.find? sought :=
    List.find?_congr hkeys
  rw [loadBucket, Table.find?_putAll _ hdistinct, Table.find?_empty, Option.or_none,
    List.find?_filterMap, hbucket, hsaved, find?_saveBucket]
  cases table.find? sought with
  | none => rfl
  | some record =>
    obtain ⟨data, hdata, hdecode⟩ := exists_bucketEntry codec key record
    rw [Option.bind_some, hdata, Option.bind_some, hdecode]

end Bucket

/-! ### The store -/

/-- The encodings of the two types of records that are saved. -/
structure Codecs (Json : Type) where
  node : Codec Json NodeInfo
  stream : Codec Json StreamInfo

/-- The buckets `SaveSnapshot` writes. -/
structure File (Json : Type) where
  nodes : Bucket Json
  streams : Bucket Json

/-- The nodes, streams and viewer tokens of `MemoryStore`. -/
structure Memory where
  nodeStore : MemoryStore
  streams : Table StreamInfo.streamKey
  tokens : Table (Prod.fst : String × String → String)

/-- `BoltStore`: the file and the records in memory. -/
structure BoltStore (Json : Type) where
  db : File Json
  mem : Memory

/-- `SetToken`. -/
def Memory.setToken (mem : Memory) (token streamKey : String) : Memory :=
  { mem with tokens := mem.tokens.put (token, streamKey) }

/-- `ValidateToken`. -/
def Memory.validateToken (mem : Memory) (token : String) : Option String :=
  (mem.tokens.find? token).map Prod.snd

/-- `SaveSnapshot`. -/
def BoltStore.saveSnapshot (codecs : Codecs Json) (bs : BoltStore Json) : BoltStore Json :=
  { bs with db :=
    { nodes := saveBucket codecs.node bs.db.nodes bs.mem.nodeStore.nodes
      streams := saveBucket codecs.stream bs.db.streams bs.mem.streams } }

/-- `restore` into a new memory store. -/
def restoreMemory (codecs : Codecs Json) (now : ℕ) (db : File Json) : Memory where
  nodeStore := { newMemoryStore with
    nodes := loadBucket codecs.node (restoredNode now) db.nodes }
  streams := loadBucket codecs.stream id db.streams
  tokens := Table.empty

/-- `NewBoltStore` on an existing file. -/
def newBoltStore (codecs : Codecs Json) (now : ℕ) (db : File Json) : BoltStore Json :=
  ⟨db, restoreMemory codecs now db⟩

/-! ### Runs -/

/-- The operations of the store on nodes, streams and tokens. -/
inductive Operation
  | registerNode (req : RegisterRequest)
  | updateHeartbeat (req : HeartbeatRequest)
  | recordComplaint (nodeID : String)
  | removeStaleNodes (timeout : ℕ)
  | removeNode (nodeID : String)
  | setNodeStatus (nodeID : String) (status : NodeStatus)
  | createStream (info : StreamInfo)
  | endStream (key : String)
  | setToken (token streamKey : String)
  | saveSnapshot
  | reopen

/-- An operation and the clock it reads. -/
structure TimedOperation where
  now : ℕ
  operation : Operation

/-- Rewrites the nodes in memory. -/
def BoltStore.withNodes (bs : BoltStore Json) (nodeStore : MemoryStore) : BoltStore Json :=
  { bs with mem := { bs.mem with nodeStore := nodeStore } }

/-- Rewrites the streams in memory. -/
def BoltStore.withStreams (bs : BoltStore Json) (streams : Table StreamInfo.streamKey) :
    BoltStore Json :=
  { bs with mem := { bs.mem with streams := streams } }

/-- The store after an operation. -/
def step (codecs : Codecs Json) (bs : BoltStore Json) (timed : TimedOperation) : BoltStore Json :=
  let nodes := bs.mem.nodeStore
  match timed.operation with
  | .registerNode req => bs.withNodes (nodes.registerNode timed.now req)
  | .updateHeartbeat req =>
    match nodes.updateHeartbeat timed.now req with
    | .ok updated => bs.withNodes updated
    | .error _ => bs
  | .recordComplaint nodeID => bs.withNodes (nodes.recordComplaint timed.now nodeID)
  | .removeStaleNodes timeout => bs.withNodes (nodes.removeStaleNodes timed.now timeout).1
  | .removeNode nodeID => bs.withNodes (nodes.removeNode nodeID).1
  | .setNodeStatus nodeID status => bs.withNodes (nodes.setNodeStatus nodeID status).1
  | .createStream info => bs.withStreams (createStream bs.mem.streams info)
  | .endStream key => bs.withStreams (endStream bs.mem.streams key)
  | .setToken token streamKey => { bs with mem := bs.mem.setToken token streamKey }
  | .saveSnapshot => bs.saveSnapshot codecs
  | .reopen => newBoltStore codecs timed.now bs.db

/-- Saving a snapshot and opening the file again at `now` keeps the state: the nodes are those of
the snapshot, offline when their last heartbeat is over 15 s old, the streams are those of the
snapshot, and a token that validated for a stream still does. -/
structure RestartPreserves (codecs : Codecs Json) (bs : BoltStore Json) (now : ℕ) : Prop where
  nodes : ∀ id, (newBoltStore codecs now (bs.saveSnapshot codecs).db).mem.nodeStore.getNode id =
    (bs.mem.nodeStore.getNode id).map (restoredNode now)
  streams : ∀ key, getStream (newBoltStore codecs now (bs.saveSnapshot codecs).db).mem.streams key =
    getStream bs.mem.streams key
  tokens : ∀ token streamKey, bs.mem.validateToken token = some streamKey →
    (newBoltStore codecs now (bs.saveSnapshot codecs).db).mem.validateToken token = some streamKey

/-- A restart keeps the nodes and the streams of every store: nothing is lost and nothing that was
removed before the snapshot comes back. -/
theorem restart_records (codecs : Codecs Json) (bs : BoltStore Json) (now : ℕ) :
    (∀ id, (newBoltStore codecs now (bs.saveSnapshot codecs).db).mem.nodeStore.getNode id =
        (bs.mem.nodeStore.getNode id).map (restoredNode now)) ∧
      ∀ key, getStream (newBoltStore codecs now (bs.saveSnapshot codecs).db).mem.streams key =
        getStream bs.mem.streams key := by
  constructor
  · intro id
    exact find?_load_save codecs.node (nodeID_restoredNode now) bs.db.nodes
      bs.mem.nodeStore.nodes id
  · intro key
    exact (find?_load_save codecs.stream (fun _ ↦ rfl) bs.db.streams bs.mem.streams key).trans
      (Option.map_id_apply)

/-- No token validates in a store that was just opened. -/
theorem validateToken_newBoltStore (codecs : Codecs Json) (now : ℕ) (db : File Json)
    (token : String) : (newBoltStore codecs now db).mem.validateToken token = none :=
  rfl

/-- Whether a token has been set since the store was opened, after one more operation. -/
def tokenSetAfter (already : Bool) (timed : TimedOperation) : Bool :=
  match timed.operation with
  | .setToken _ _ => true
  | .reopen => false
  | _ => already

/-- Whether a token has been set since the store was last opened. -/
def tokenSetSinceOpen (operations : List TimedOperation) : Bool :=
  operations.foldl tokenSetAfter false

/-- Some token validates. -/
def HasToken (bs : BoltStore Json) : Prop :=
  ∃ token streamKey, bs.mem.validateToken token = some streamKey

/-- An operation on nodes or streams leaves the tokens as they are. -/
theorem hasToken_step (codecs : Codecs Json) (bs : BoltStore Json) (timed : TimedOperation)
    {already : Bool} (htoken : HasToken bs ↔ already = true) :
    HasToken (step codecs bs timed) ↔ tokenSetAfter already timed = true := by
  obtain ⟨now, operation⟩ := timed
  cases operation with
  | setToken token streamKey =>
    refine iff_of_true ⟨token, streamKey, ?_⟩ rfl
    change ((bs.mem.tokens.put (token, streamKey)).find? token).map Prod.snd = some streamKey
    rw [Table.find?_put _ rfl, if_pos rfl, Option.map_some]
  | reopen =>
    refine iff_of_false ?_ Bool.false_ne_true
    rintro ⟨token, streamKey, hvalid⟩
    cases (validateToken_newBoltStore codecs now bs.db token).symm.trans hvalid
  | updateHeartbeat req =>
    change HasToken (match bs.mem.nodeStore.updateHeartbeat now req with
      | .ok updated => bs.withNodes updated
      | .error _ => bs) ↔ _
    cases bs.mem.nodeStore.updateHeartbeat now req with
    | ok updated => exact htoken
    | error message => exact htoken
  | registerNode req => exact htoken
  | recordComplaint nodeID => exact htoken
  | removeStaleNodes timeout => exact htoken
  | removeNode nodeID => exact htoken
  | setNodeStatus nodeID status => exact htoken
  | createStream info => exact htoken
  | endStream key => exact htoken
  | saveSnapshot => exact htoken

/-- After a run some token validates exactly when one has been set since the store was last
opened. -/
theorem hasToken_run (codecs : Codecs Json) (now : ℕ) (db : File Json)
    (operations : List TimedOperation) :
    HasToken (run (step codecs) (newBoltStore codecs now db) operations) ↔
      tokenSetSinceOpen operations = true := by
  have hgeneral : ∀ (bs : BoltStore Json) (already : Bool), (HasToken bs ↔ already = true) →
      (HasToken (run (step codecs) bs operations) ↔
        operations.foldl tokenSetAfter already = true) := by
    induction operations with
    | nil => exact fun bs already htoken ↦ htoken
    | cons timed operations ih =>
      exact fun bs already htoken ↦ ih _ _ (hasToken_step codecs bs timed htoken)
  refine hgeneral _ false (iff_of_false ?_ Bool.false_ne_true)
  rintro ⟨token, streamKey, hvalid⟩
  cases (validateToken_newBoltStore codecs now db token).symm.trans hvalid

/-- After every run of store operations on a file, a snapshot and a restart keep the state exactly
when no viewer token has been set since the file was last opened: nodes and streams are always kept,
and tokens never are. -/
theorem restart_iff (codecs : Codecs Json) (db : File Json) (opened : ℕ)
    (operations : List TimedOperation) (now : ℕ) :
    RestartPreserves codecs (run (step codecs) (newBoltStore codecs opened db) operations) now ↔
      tokenSetSinceOpen operations = false := by
  have hrecords :=
    restart_records codecs (run (step codecs) (newBoltStore codecs opened db) operations) now
  rw [← Bool.not_eq_true, ← hasToken_run codecs opened db operations]
  constructor
  · rintro hpreserves ⟨token, streamKey, hvalid⟩
    cases (hpreserves.tokens token streamKey hvalid).symm.trans
      (validateToken_newBoltStore codecs now _ token)
  · intro hnone
    exact ⟨hrecords.1, hrecords.2, fun token streamKey hvalid ↦
      absurd ⟨token, streamKey, hvalid⟩ hnone⟩

/-- Records written as they are. -/
def plainCodecs : Codecs (NodeInfo ⊕ StreamInfo) where
  node := ⟨fun node ↦ some (.inl node), Sum.getLeft?, fun _ ↦ rfl⟩
  stream := ⟨fun info ↦ some (.inr info), Sum.getRight?, fun _ ↦ rfl⟩

/-- A live stream. -/
def liveStream : StreamInfo :=
  ⟨"stream-1", "title", "http://origin/live", "key", "iv", "aes-128-cbc", true, 0, latencyUltra⟩

/-- A live stream and its viewer token: after the restart the stream is there and live, and the
token does not validate. -/
theorem restart_counterexample :
    let store := run (step plainCodecs) (newBoltStore plainCodecs 0 ⟨Table.empty, Table.empty⟩)
      [⟨0, .createStream liveStream⟩, ⟨0, .setToken "viewer" "stream-1"⟩]
    let restarted := newBoltStore plainCodecs 1 (store.saveSnapshot plainCodecs).db
    store.mem.validateToken "viewer" = some "stream-1" ∧
      restarted.mem.validateToken "viewer" = none ∧
      getStream restarted.mem.streams "stream-1" = some liveStream ∧
      ¬ RestartPreserves plainCodecs store 1 := by
  refine ⟨by decide, rfl, by decide, fun hpreserves ↦ ?_⟩
  cases hpreserves.tokens "viewer" "stream-1" (by decide)

end LiveCDN.Controller.Persistence
