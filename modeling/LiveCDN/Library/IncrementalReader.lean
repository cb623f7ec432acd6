import Mathlib

/-!
# Readers over a growing buffer

A reader looks at the front of a buffer and takes one of three decisions: wait for more bytes,
consume a positive number of bytes (possibly producing an output and changing its mode), or reject
the stream. `Reader` carries the two facts that make such a loop well behaved: what is consumed is
positive and present (`consume_bounds`), and a decision taken on a buffer is not revised when more
bytes arrive behind it (`consume_append`, `reject_append`).

`drainWithin` repeats the attempt with a bound on the number of rounds. Since every round consumes,
one round more than the buffer has bytes is always enough (`drainWithin_isSome`), and `drain` is the
loop without a bound. `drain_induction` is its induction principle. `drain_append` says that
draining a longer buffer is draining the shorter one first and then its leftover with the rest
behind it. `rounds` are the buffers that the loop looks at on the way.

`readChunks` drains after each arriving chunk and stops at a rejection. `readChunks_eq_drain`
compares it with one drain of the whole stream: outputs, mode and error agree for every way of
cutting the stream, and the leftover of the whole stream is the leftover of the chunked run
followed by what the run had not read when it stopped.
-/

set_option autoImplicit false
set_option relaxedAutoImplicit false

namespace LiveCDN.Library.IncrementalReader

/-- What one look at the front of a buffer decides. -/
inductive Attempt (Mode Output Error : Type*)
  | await
  | consume (count : ℕ) (next : Mode) (output : Option Output)
  | reject (error : Error)

/-- A reader whose decisions consume what is there and are never revised by later bytes. -/
structure Reader (Mode Byte Output Error : Type*) where
  attempt : Mode → List Byte → Attempt Mode Output Error
  consume_bounds : ∀ {mode buffer count next output},
    attempt mode buffer = .consume count next output → 0 < count ∧ count ≤ buffer.length
  consume_append : ∀ {mode buffer count next output} (more : List Byte),
    attempt mode buffer = .consume count next output →
      attempt mode (buffer ++ more) = .consume count next output
  reject_append : ∀ {mode buffer error} (more : List Byte),
    attempt mode buffer = .reject error → attempt mode (buffer ++ more) = .reject error

/-- Where a reading loop stands: what it has produced, its mode, the bytes it holds and the error
it stopped at, if any. -/
@[ext]
structure Reading (Mode Byte Output Error : Type*) where
  outputs : List Output
  mode : Mode
  leftover : List Byte
  error : Option Error
  deriving DecidableEq

/-- Puts earlier outputs in front of a reading. -/
def Reading.prepend {Mode Byte Output Error : Type*} (first : List Output)
    (reading : Reading Mode Byte Output Error) : Reading Mode Byte Output Error :=
  { reading with outputs := first ++ reading.outputs }

section Prepend

variable {Mode Byte Output Error : Type*}

@[simp] theorem Reading.outputs_prepend (first : List Output)
    (reading : Reading Mode Byte Output Error) :
    (reading.prepend first).outputs = first ++ reading.outputs := rfl

@[simp] theorem Reading.leftover_prepend (first : List Output)
    (reading : Reading Mode Byte Output Error) :
    (reading.prepend first).leftover = reading.leftover := rfl

@[simp] theorem Reading.error_prepend (first : List Output)
    (reading : Reading Mode Byte Output Error) :
    (reading.prepend first).error = reading.error := rfl

@[simp] theorem Reading.prepend_nil (reading : Reading Mode Byte Output Error) :
    reading.prepend [] = reading := rfl

theorem Reading.prepend_prepend (first second : List Output)
    (reading : Reading Mode Byte Output Error) :
    (reading.prepend second).prepend first = reading.prepend (first ++ second) := by
  simp [Reading.prepend]

end Prepend

namespace Reader

variable {Mode Byte Output Error : Type*} (reader : Reader Mode Byte Output Error)

/-! ### Draining a buffer -/

/-- Repeats the attempt for at most `rounds` rounds; `none` when the rounds run out first. -/
def drainWithin : ℕ → Mode → List Byte → Option (Reading Mode Byte Output Error)
  | 0, _, _ => none
  | rounds + 1, mode, buffer =>
    match reader.attempt mode buffer with
    | .await => some ⟨[], mode, buffer, none⟩
    | .reject error => some ⟨[], mode, buffer, some error⟩
    | .consume count next output =>
      (drainWithin rounds next (buffer.drop count)).map (Reading.prepend output.toList)

/-- The loop ends: one round more than the buffer has bytes is enough. -/
theorem drainWithin_isSome {rounds : ℕ} {mode : Mode} {buffer : List Byte}
    (hrounds : buffer.length < rounds) : (reader.drainWithin rounds mode buffer).isSome := by
  induction rounds generalizing mode buffer with
  | zero => omega
  | succ rounds ih =>
    rw [drainWithin]
    cases hattempt : reader.attempt mode buffer with
    | await => rfl
    | reject error => rfl
    | consume count next output =>
      have hbounds := reader.consume_bounds hattempt
      have hrest : (buffer.drop count).length < rounds := by
        rw [List.length_drop]
        omega
      simpa using ih hrest

/-- More rounds do not change a reading that was reached. -/
theorem drainWithin_mono {rounds rounds' : ℕ} (hle : rounds ≤ rounds') {mode : Mode}
    {buffer : List Byte} {reading : Reading Mode Byte Output Error}
    (hreading : reader.drainWithin rounds mode buffer = some reading) :
    reader.drainWithin rounds' mode buffer = some reading := by
  induction rounds generalizing rounds' mode buffer reading with
  | zero => simp [drainWithin] at hreading
  | succ rounds ih =>
    obtain ⟨extra, rfl⟩ := Nat.exists_eq_add_of_le hle
    rw [show rounds + 1 + extra = rounds + extra + 1 by omega]
    rw [drainWithin] at hreading ⊢
    cases hattempt : reader.attempt mode buffer with
    | await => simpa [hattempt] using hreading
    | reject error => simpa [hattempt] using hreading
    | consume count next output =>
      simp only [hattempt] at hreading ⊢
      obtain ⟨rest, hrest, rfl⟩ := Option.map_eq_some_iff.mp hreading
      rw [ih (Nat.le_add_right rounds extra) hrest]
      rfl

/-- The attempt repeated until the reader waits or rejects. -/
def drain (mode : Mode) (buffer : List Byte) : Reading Mode Byte Output Error :=
  (reader.drainWithin (buffer.length + 1) mode buffer).get
    (reader.drainWithin_isSome (Nat.lt_succ_self _))

/-- Any number of rounds that suffices gives the drained reading. -/
theorem drainWithin_eq_drain {rounds : ℕ} {mode : Mode} {buffer : List Byte}
    (hrounds : buffer.length < rounds) :
    reader.drainWithin rounds mode buffer = some (reader.drain mode buffer) :=
  reader.drainWithin_mono hrounds (Option.some_get _).symm

theorem drain_of_await {mode : Mode} {buffer : List Byte}
    (hattempt : reader.attempt mode buffer = .await) :
    reader.drain mode buffer = ⟨[], mode, buffer, none⟩ := by
  have hdrain : reader.drainWithin (buffer.length + 1) mode buffer =
      some (reader.drain mode buffer) := reader.drainWithin_eq_drain (Nat.lt_succ_self _)
  rw [drainWithin, hattempt] at hdrain
  exact (Option.some.inj hdrain).symm

theorem drain_of_reject {mode : Mode} {buffer : List Byte} {error : Error}
    (hattempt : reader.attempt mode buffer = .reject error) :
    reader.drain mode buffer = ⟨[], mode, buffer, some error⟩ := by
  have hdrain : reader.drainWithin (buffer.length + 1) mode buffer =
      some (reader.drain mode buffer) := reader.drainWithin_eq_drain (Nat.lt_succ_self _)
  rw [drainWithin, hattempt] at hdrain
  exact (Option.some.inj hdrain).symm

theorem drain_of_consume {mode next : Mode} {buffer : List Byte} {count : ℕ}
    {output : Option Output} (hattempt : reader.attempt mode buffer = .consume count next output) :
    reader.drain mode buffer =
      (reader.drain next (buffer.drop count)).prepend output.toList := by
  have hbounds := reader.consume_bounds hattempt
  have hrest : (buffer.drop count).length < buffer.length := by
    rw [List.length_drop]
    omega
  have hdrain : reader.drainWithin (buffer.length + 1) mode buffer =
      some (reader.drain mode buffer) := reader.drainWithin_eq_drain (Nat.lt_succ_self _)
  rw [drainWithin, hattempt] at hdrain
  simp only [reader.drainWithin_eq_drain hrest, Option.map_some] at hdrain
  exact (Option.some.inj hdrain).symm

/-- The rounds of draining a buffer, at most `rounds` of them: the mode and the buffer each of them
looks at. -/
def roundsWithin : ℕ → Mode → List Byte → List (Mode × List Byte)
  | 0, _, _ => []
  | rounds + 1, mode, buffer =>
    (mode, buffer) ::
      match reader.attempt mode buffer with
      | .consume count next _ => roundsWithin rounds next (buffer.drop count)
      | _ => []

/-- The rounds of draining a buffer: the mode and the buffer each of them looks at. -/
def rounds (mode : Mode) (buffer : List Byte) : List (Mode × List Byte) :=
  reader.roundsWithin (buffer.length + 1) mode buffer

/-- Any number of rounds that suffices gives the same rounds. -/
theorem roundsWithin_congr {rounds rounds' : ℕ} {mode : Mode} {buffer : List Byte}
    (hrounds : buffer.length < rounds) (hrounds' : buffer.length < rounds') :
    reader.roundsWithin rounds mode buffer = reader.roundsWithin rounds' mode buffer := by
  induction rounds generalizing rounds' mode buffer with
  | zero => omega
  | succ rounds ih =>
    obtain ⟨rounds', rfl⟩ := Nat.exists_eq_succ_of_ne_zero (Nat.ne_zero_of_lt hrounds')
    rw [roundsWithin, roundsWithin]
    cases hattempt : reader.attempt mode buffer with
    | await => rfl
    | reject error => rfl
    | consume count next output =>
      have hbounds := reader.consume_bounds hattempt
      have hrest : (buffer.drop count).length < buffer.length := by
        rw [List.length_drop]
        omega
      exact congrArg _ (ih (by omega) (by omega))

/-- A round that consumes is followed by the rounds of the rest. -/
theorem rounds_of_consume {mode next : Mode} {buffer : List Byte} {count : ℕ}
    {output : Option Output} (hattempt : reader.attempt mode buffer = .consume count next output) :
    reader.rounds mode buffer = (mode, buffer) :: reader.rounds next (buffer.drop count) := by
  have hbounds := reader.consume_bounds hattempt
  have hrest : (buffer.drop count).length < buffer.length := by
    rw [List.length_drop]
    omega
  rw [Reader.rounds, roundsWithin, hattempt]
  dsimp only
  rw [Reader.rounds, reader.roundsWithin_congr hrest (Nat.lt_succ_self _)]

/-- Draining starts with a look at the buffer. -/
theorem mem_rounds (mode : Mode) (buffer : List Byte) :
    (mode, buffer) ∈ reader.rounds mode buffer := List.mem_cons_self

/-- Induction along the loop: one case for each decision, with the hypothesis for the rest of the
buffer in the consuming case. -/
theorem drain_induction {motive : Mode → List Byte → Prop}
    (await : ∀ mode buffer, reader.attempt mode buffer = .await → motive mode buffer)
    (reject : ∀ mode buffer error, reader.attempt mode buffer = .reject error →
      motive mode buffer)
    (consume : ∀ mode buffer count next output,
      reader.attempt mode buffer = .consume count next output →
        motive next (buffer.drop count) → motive mode buffer)
    (mode : Mode) (buffer : List Byte) : motive mode buffer := by
  induction hlength : buffer.length using Nat.strong_induction_on generalizing mode buffer with
  | _ length ih =>
    cases hattempt : reader.attempt mode buffer with
    | await => exact await mode buffer hattempt
    | reject error => exact reject mode buffer error hattempt
    | consume count next output =>
      have hbounds := reader.consume_bounds hattempt
      have hshorter : (buffer.drop count).length < length := by
        rw [List.length_drop]
        omega
      exact consume mode buffer count next output hattempt (ih _ hshorter next _ rfl)

/-- A drained buffer without an error waits for more bytes. -/
theorem attempt_drain {mode : Mode} {buffer : List Byte}
    (herror : (reader.drain mode buffer).error = none) :
    reader.attempt (reader.drain mode buffer).mode (reader.drain mode buffer).leftover =
      .await := by
  induction mode, buffer using reader.drain_induction with
  | await mode buffer hattempt => rwa [reader.drain_of_await hattempt]
  | reject mode buffer error hattempt => simp [reader.drain_of_reject hattempt] at herror
  | consume mode buffer count next output hattempt ih =>
    rw [reader.drain_of_consume hattempt] at herror ⊢
    exact ih herror

/-- Bytes behind a buffer that is rejected stay unread. Assumes: draining the front alone ends in
an error. -/
theorem drain_append_of_error {mode : Mode} {front : List Byte} {error : Error}
    (more : List Byte) (herror : (reader.drain mode front).error = some error) :
    reader.drain mode (front ++ more) =
      { reader.drain mode front with leftover := (reader.drain mode front).leftover ++ more } := by
  induction mode, front using reader.drain_induction with
  | await mode front hattempt => simp [reader.drain_of_await hattempt] at herror
  | reject mode front error hattempt =>
    rw [reader.drain_of_reject hattempt,
      reader.drain_of_reject (reader.reject_append more hattempt)]
  | consume mode front count next output hattempt ih =>
    have hle := (reader.consume_bounds hattempt).2
    rw [reader.drain_of_consume hattempt] at herror ⊢
    rw [reader.drain_of_consume (reader.consume_append more hattempt),
      List.drop_append_of_le_length hle, ih herror]
    rfl

/-- Draining a longer buffer is draining its front and then the leftover with the rest behind it.
Assumes: draining the front alone ends without an error. -/
theorem drain_append {mode : Mode} {front : List Byte} (more : List Byte)
    (herror : (reader.drain mode front).error = none) :
    reader.drain mode (front ++ more) =
      (reader.drain (reader.drain mode front).mode
        ((reader.drain mode front).leftover ++ more)).prepend
          (reader.drain mode front).outputs := by
  induction mode, front using reader.drain_induction with
  | await mode front hattempt =>
    rw [reader.drain_of_await hattempt]
    rfl
  | reject mode front error hattempt => simp [reader.drain_of_reject hattempt] at herror
  | consume mode front count next output hattempt ih =>
    have hle := (reader.consume_bounds hattempt).2
    rw [reader.drain_of_consume hattempt] at herror ⊢
    rw [reader.drain_of_consume (reader.consume_append more hattempt),
      List.drop_append_of_le_length hle, ih herror]
    exact Reading.prepend_prepend _ _ _

/-- Two buffers that drain alike, up to outputs already obtained, drain alike when the same bytes
arrive behind both. -/
theorem drain_append_congr {mode mode' : Mode} {whole rest : List Byte} {first : List Output}
    (more : List Byte)
    (hdrain : reader.drain mode whole = (reader.drain mode' rest).prepend first) :
    reader.drain mode (whole ++ more) = (reader.drain mode' (rest ++ more)).prepend first := by
  have herror : (reader.drain mode whole).error = (reader.drain mode' rest).error := by
    rw [hdrain, Reading.error_prepend]
  cases hrest : (reader.drain mode' rest).error with
  | none =>
    rw [reader.drain_append more hrest, reader.drain_append more (herror.trans hrest), hdrain,
      Reading.prepend_prepend]
    rfl
  | some error =>
    rw [reader.drain_append_of_error more hrest,
      reader.drain_append_of_error more (herror.trans hrest), hdrain]
    rfl

/-! ### Reading a stream in chunks -/

/-- Appends each arriving chunk to the buffer, drains, and stops at the first rejection. -/
def readChunks : Mode → List Byte → List (List Byte) → Reading Mode Byte Output Error
  | mode, buffer, [] => ⟨[], mode, buffer, none⟩
  | mode, buffer, chunk :: chunks =>
    let reading := reader.drain mode (buffer ++ chunk)
    match reading.error with
    | some _ => reading
    | none => (readChunks reading.mode reading.leftover chunks).prepend reading.outputs

/-- The rounds of a chunked run: the mode and the buffer each of them looks at. -/
def readRounds : Mode → List Byte → List (List Byte) → List (Mode × List Byte)
  | _, _, [] => []
  | mode, buffer, chunk :: chunks =>
    let reading := reader.drain mode (buffer ++ chunk)
    reader.rounds mode (buffer ++ chunk) ++
      match reading.error with
      | some _ => []
      | none => readRounds reading.mode reading.leftover chunks

/-- A chunked run against one drain of the whole stream. Assumes: the reader waits on the buffer it
starts with. Outputs, mode and error agree, and the leftover of the whole stream is the leftover of
the run followed by the bytes the run never read, of which there are none unless it stopped at an
error. -/
theorem readChunks_eq_drain {mode : Mode} {buffer : List Byte} (chunks : List (List Byte))
    (hawait : reader.attempt mode buffer = .await) :
    ∃ unread : List Byte,
      reader.drain mode (buffer ++ chunks.flatten) =
        { reader.readChunks mode buffer chunks with
          leftover := (reader.readChunks mode buffer chunks).leftover ++ unread } ∧
      ((reader.readChunks mode buffer chunks).error = none → unread = []) := by
  induction chunks generalizing mode buffer with
  | nil => exact ⟨[], by simp [readChunks, reader.drain_of_await hawait], fun _ ↦ rfl⟩
  | cons chunk chunks ih =>
    rw [List.flatten_cons, ← List.append_assoc, readChunks]
    cases herror : (reader.drain mode (buffer ++ chunk)).error with
    | some error =>
      refine ⟨chunks.flatten, ?_, ?_⟩
      · simpa only [herror] using reader.drain_append_of_error chunks.flatten herror
      · simp [herror]
    | none =>
      obtain ⟨unread, hdrain, hunread⟩ := ih (reader.attempt_drain herror)
      refine ⟨unread, ?_, ?_⟩
      · rw [reader.drain_append chunks.flatten herror, hdrain]
        rfl
      · exact hunread

end Reader

end LiveCDN.Library.IncrementalReader
