import LiveCDN.Library.GuardedRun

/-!
# The token bucket

`relay/backoff.rs`, `TokenBucket`: a call that asks for more than the bucket holds empties it and is
told to wait for the rest (`TokenBucket.consume`); the time that has passed is credited at the next
call (`TokenBucket.refill`).

The wait pays for what was lacking, and the next call credits the same time again. So in some runs
the bytes granted exceed what the rate allows. They stay within the capacity and the rate, with the
jitter allowed for, in every run in which no call finds more than the time since the call before it
has earned beyond what that one lacked (`withinRate_runs`); behind a call that did not have to wait
this is always so (`creditsOnce_of_lacking_nonpos`).

Scope. Numbers are rational and times are seconds since the bucket was made. What `pseudo_random`
gives and how long the caller waits beyond what it is told are inputs.
-/

set_option autoImplicit false
set_option relaxedAutoImplicit false

namespace LiveCDN.Agent.BandwidthShaping

open Library.GuardedRun

/-! ### The bucket -/

/-- `TokenBucket`. -/
structure TokenBucket where
  rate : ℚ
  tokens : ℚ
  maxTokens : ℚ
  lastRefill : ℚ
  jitterRange : ℚ
  deriving DecidableEq, Repr

namespace TokenBucket

/-- `TokenBucket::new`. -/
def new (rateBytesPerSec : ℕ) (now : ℚ) : TokenBucket where
  rate := rateBytesPerSec
  tokens := rateBytesPerSec
  maxTokens := rateBytesPerSec * 2
  lastRefill := now
  jitterRange := 3 / 20

/-- `refill`. -/
def refill (bucket : TokenBucket) (now : ℚ) : TokenBucket :=
  let elapsed := now - bucket.lastRefill
  { bucket with
    tokens := min (bucket.tokens + elapsed * bucket.rate) bucket.maxTokens
    lastRefill := now }

/-- The time to wait for a deficit, with its jitter. -/
def waitFor (bucket : TokenBucket) (random deficit : ℚ) : ℚ :=
  let waitSecs := deficit / bucket.rate
  let jitter :=
    if 0 < bucket.jitterRange then
      waitSecs * (random * bucket.jitterRange * 2 - bucket.jitterRange)
    else 0
  max (waitSecs + jitter) 0

/-- `consume`: the time to wait, and the bucket behind the call. -/
def consume (bucket : TokenBucket) (now random : ℚ) (n : ℕ) : ℚ × TokenBucket :=
  let bucket := bucket.refill now
  if (n : ℚ) ≤ bucket.tokens then (0, { bucket with tokens := bucket.tokens - n })
  else (bucket.waitFor random (n - bucket.tokens), { bucket with tokens := 0 })

end TokenBucket

/-! ### A caller that waits -/

/-- A call: how long it comes after the end of the wait before it, the bytes it asks for, and what
`pseudo_random` gives. -/
structure Call where
  idle : ℚ
  idle_nonneg : 0 ≤ idle
  n : ℕ
  random : ℚ
  random_nonneg : 0 ≤ random
  random_le_one : random ≤ 1

/-- The bucket and its caller at the end of a wait. -/
structure CallerState where
  bucket : TokenBucket
  now : ℚ
  /-- The bytes granted so far. -/
  granted : ℕ
  /-- What the last call lacked. -/
  lacking : ℚ

/-- A fresh bucket. -/
def CallerState.initial (rateBytesPerSec : ℕ) : CallerState := ⟨.new rateBytesPerSec 0, 0, 0, 0⟩

/-- What a call finds in the bucket. -/
def CallerState.found (st : CallerState) (call : Call) : ℚ :=
  (st.bucket.refill (st.now + call.idle)).tokens

/-- A call, and the wait it is told. -/
def callTurn (st : CallerState) (call : Call) : CallerState :=
  let answer := st.bucket.consume (st.now + call.idle) call.random call.n
  { bucket := answer.2
    now := st.now + call.idle + answer.1
    granted := st.granted + call.n
    lacking := max (call.n - st.found call) 0 }

/-- What a rate allows in a time, when each wait may be shorter than it should by the jitter. -/
def allowed (rate time : ℚ) : ℚ := rate * time / (1 - 3 / 20)

/-- The bytes granted are within the capacity and what the rate allows. -/
def WithinRate (st : CallerState) : Prop :=
  st.granted ≤ st.bucket.maxTokens + allowed st.bucket.rate st.now

/-- What a call finds in the bucket is no more than what was left there and what the time since then
has earned beyond what the call before it lacked. -/
def CreditsOnce (st : CallerState) (call : Call) : Prop :=
  st.found call + st.lacking ≤
    st.bucket.tokens + allowed st.bucket.rate (st.now + call.idle - st.bucket.lastRefill)

theorem allowed_zero (rate : ℚ) : allowed rate 0 = 0 := by
  unfold allowed
  ring

theorem allowed_add (rate first second : ℚ) :
    allowed rate (first + second) = allowed rate first + allowed rate second := by
  unfold allowed
  ring

/-- The rate itself is allowed. -/
theorem mul_le_allowed {rate time : ℚ} (hrate : 0 ≤ rate) (htime : 0 ≤ time) :
    time * rate ≤ allowed rate time := by
  have hearned : 0 ≤ rate * time := mul_nonneg hrate htime
  rw [allowed, le_div_iff₀ (by norm_num)]
  linarith

/-- A wait for a deficit allows for it, whatever the jitter. -/
theorem le_allowed_waitFor {bucket : TokenBucket} (hrate : 0 < bucket.rate)
    (hjitter : bucket.jitterRange = 3 / 20) {random deficit : ℚ} (hrandom : 0 ≤ random)
    (hdeficit : 0 ≤ deficit) : deficit ≤ allowed bucket.rate (bucket.waitFor random deficit) := by
  have hearly : deficit / bucket.rate * (1 - 3 / 20) ≤ bucket.waitFor random deficit := by
    refine le_trans ?_ (le_max_left _ _)
    rw [hjitter, if_pos (by norm_num)]
    have hwait : 0 ≤ deficit / bucket.rate * random := by positivity
    linarith
  have hpaid : bucket.rate * (deficit / bucket.rate * (1 - 3 / 20)) = deficit * (1 - 3 / 20) := by
    field_simp
  have hscaled := mul_le_mul_of_nonneg_left hearly hrate.le
  rw [hpaid] at hscaled
  rwa [allowed, le_div_iff₀ (by norm_num)]

/-! ### The accounts of a run -/

/-- The accounts of a bucket at its last call: what it has granted and what it holds are within the
rate, but for what the last call lacked. -/
structure Balanced (rate : ℕ) (st : CallerState) : Prop where
  rate_eq : st.bucket.rate = rate
  maxTokens_eq : st.bucket.maxTokens = rate * 2
  jitterRange_eq : st.bucket.jitterRange = 3 / 20
  tokens_nonneg : 0 ≤ st.bucket.tokens
  lastRefill_le : st.bucket.lastRefill ≤ st.now
  granted_add_tokens_le : st.granted + st.bucket.tokens ≤
    st.bucket.maxTokens + allowed st.bucket.rate st.bucket.lastRefill + st.lacking
  withinRate : WithinRate st

theorem balanced_initial (rate : ℕ) : Balanced rate (.initial rate) := by
  have hrate : (0 : ℚ) ≤ rate := Nat.cast_nonneg rate
  refine ⟨rfl, rfl, rfl, hrate, le_rfl, ?_, ?_⟩
  · simp only [CallerState.initial, TokenBucket.new, Nat.cast_zero, allowed_zero]
    linarith
  · simp only [WithinRate, CallerState.initial, TokenBucket.new, Nat.cast_zero, allowed_zero]
    linarith

/-- At a call that credits no time twice, what was granted and what it finds are within the rate. -/
theorem granted_add_found_le {rate : ℕ} {st : CallerState} (hst : Balanced rate st) {call : Call}
    (hcredits : CreditsOnce st call) :
    st.granted + st.found call ≤
      st.bucket.maxTokens + allowed st.bucket.rate (st.now + call.idle) := by
  have hsplit : allowed st.bucket.rate (st.now + call.idle) =
      allowed st.bucket.rate st.bucket.lastRefill +
        allowed st.bucket.rate (st.now + call.idle - st.bucket.lastRefill) := by
    rw [← allowed_add]
    congr 1
    ring
  have hgranted := hst.granted_add_tokens_le
  unfold CreditsOnce at hcredits
  linarith

/-- A call that finds enough. -/
theorem callTurn_of_le {st : CallerState} {call : Call} (henough : call.n ≤ st.found call) :
    callTurn st call =
      { bucket := { st.bucket.refill (st.now + call.idle) with tokens := st.found call - call.n }
        now := st.now + call.idle
        granted := st.granted + call.n
        lacking := 0 } := by
  have hanswer : st.bucket.consume (st.now + call.idle) call.random call.n =
      (0, { st.bucket.refill (st.now + call.idle) with tokens := st.found call - call.n }) :=
    if_pos henough
  unfold callTurn
  rw [hanswer, max_eq_right (sub_nonpos.mpr henough)]
  dsimp only
  rw [add_zero]

/-- A call that finds too little. -/
theorem callTurn_of_lt {st : CallerState} {call : Call} (hlacks : st.found call < call.n) :
    callTurn st call =
      { bucket := { st.bucket.refill (st.now + call.idle) with tokens := 0 }
        now := st.now + call.idle +
          (st.bucket.refill (st.now + call.idle)).waitFor call.random (call.n - st.found call)
        granted := st.granted + call.n
        lacking := call.n - st.found call } := by
  have hanswer : st.bucket.consume (st.now + call.idle) call.random call.n =
      ((st.bucket.refill (st.now + call.idle)).waitFor call.random (call.n - st.found call),
        { st.bucket.refill (st.now + call.idle) with tokens := 0 }) :=
    if_neg (not_le.mpr hlacks)
  unfold callTurn
  rw [hanswer, max_eq_left (sub_nonneg.mpr hlacks.le)]

/-- A call that finds enough and credits no time twice keeps the accounts. -/
theorem balanced_callTurn_of_le {rate : ℕ} {st : CallerState} (hst : Balanced rate st) {call : Call}
    (hcredits : CreditsOnce st call) (henough : call.n ≤ st.found call) :
    Balanced rate (callTurn st call) := by
  have hgranted := granted_add_found_le hst hcredits
  rw [callTurn_of_le henough]
  refine ⟨hst.rate_eq, hst.maxTokens_eq, hst.jitterRange_eq, sub_nonneg.mpr henough, le_rfl, ?_, ?_⟩
  · simp only [TokenBucket.refill, Nat.cast_add]
    linarith
  · simp only [WithinRate, TokenBucket.refill, Nat.cast_add]
    linarith

/-- A call that finds too little and credits no time twice keeps the accounts: its wait allows for
what it lacked. -/
theorem balanced_callTurn_of_lt {rate : ℕ} (hrate : 0 < rate) {st : CallerState}
    (hst : Balanced rate st) {call : Call} (hcredits : CreditsOnce st call)
    (hlacks : st.found call < call.n) : Balanced rate (callTurn st call) := by
  have hgranted := granted_add_found_le hst hcredits
  have hpositive : 0 < (st.bucket.refill (st.now + call.idle)).rate := by
    rw [show (st.bucket.refill (st.now + call.idle)).rate = rate from hst.rate_eq]
    exact Nat.cast_pos.mpr hrate
  have hpaid := le_allowed_waitFor hpositive hst.jitterRange_eq call.random_nonneg
    (sub_nonneg.mpr hlacks.le)
  have hwait : 0 ≤ (st.bucket.refill (st.now + call.idle)).waitFor call.random
      (call.n - st.found call) := le_max_right _ _
  rw [callTurn_of_lt hlacks]
  refine ⟨hst.rate_eq, hst.maxTokens_eq, hst.jitterRange_eq, le_rfl, ?_, ?_, ?_⟩
  · exact le_add_of_nonneg_right hwait
  · simp only [TokenBucket.refill, Nat.cast_add]
    linarith
  · rw [allowed_add] at hgranted
    simp only [WithinRate, Nat.cast_add, allowed_add]
    simp only [TokenBucket.refill] at hpaid ⊢
    linarith

/-- A call that credits no time twice keeps the accounts. -/
theorem balanced_callTurn {rate : ℕ} (hrate : 0 < rate) {st : CallerState}
    (hst : Balanced rate st) {call : Call} (hcredits : CreditsOnce st call) :
    Balanced rate (callTurn st call) := by
  rcases le_or_gt (call.n : ℚ) (st.found call) with henough | hlacks
  · exact balanced_callTurn_of_le hst hcredits henough
  · exact balanced_callTurn_of_lt hrate hst hcredits hlacks

/-- Behind a call that did not have to wait nothing is credited twice. -/
theorem creditsOnce_of_lacking_nonpos {rate : ℕ} {st : CallerState} (hst : Balanced rate st)
    (hlacking : st.lacking ≤ 0) (call : Call) : CreditsOnce st call := by
  have hrate : (0 : ℚ) ≤ st.bucket.rate := by
    rw [hst.rate_eq]
    exact Nat.cast_nonneg rate
  have hidle := call.idle_nonneg
  have hlast := hst.lastRefill_le
  have hearned := mul_le_allowed hrate
    (show 0 ≤ st.now + call.idle - st.bucket.lastRefill by linarith)
  have hfound : st.found call ≤
      st.bucket.tokens + (st.now + call.idle - st.bucket.lastRefill) * st.bucket.rate :=
    min_le_left _ _
  unfold CreditsOnce
  linarith

/-- In every run on a fresh bucket in which no call credits time twice, the bytes granted at the end
of each wait are within the capacity and what the rate allows. -/
theorem withinRate_runs {rate : ℕ} (hrate : 0 < rate) {calls : List Call}
    (hcredits : EachStepMeets callTurn CreditsOnce (.initial rate) calls) :
    ∀ taken, taken <+: calls → WithinRate (run callTurn (.initial rate) taken) := by
  rintro taken ⟨rest, rfl⟩
  have htaken := ((eachStepMeets_append callTurn).mp hcredits).1
  have hend : Balanced rate (run callTurn (.initial rate) taken) :=
    invariant_run callTurn
      (fun st _ (hst : Balanced rate st) hcall ↦ balanced_callTurn hrate hst hcall)
      (balanced_initial rate) htaken
  exact hend.withinRate

/-- A call with the middle jitter. -/
def callFor (idle : ℕ) (n : ℕ) : Call where
  idle := idle
  idle_nonneg := Nat.cast_nonneg idle
  n := n
  random := 1 / 2
  random_nonneg := by norm_num
  random_le_one := by norm_num

/-- A witness: a call that waits, and one twenty seconds later that waits again. -/
theorem withinRate_runs_twoWaits :
    WithinRate (run callTurn (.initial 100) [callFor 0 250, callFor 20 500]) := by
  have hcredits : EachStepMeets callTurn CreditsOnce (.initial 100)
      [callFor 0 250, callFor 20 500] :=
    ⟨by unfold CreditsOnce; decide +kernel, by unfold CreditsOnce; decide +kernel, trivial⟩
  exact withinRate_runs (by decide) hcredits _ List.prefix_rfl

/-- A call that waits two seconds and one right behind it are granted more than the rate allows. -/
theorem withinRate_counterexample :
    ¬ WithinRate (run callTurn (.initial 100) [callFor 0 300, callFor 0 400]) := by
  unfold WithinRate
  decide +kernel

end LiveCDN.Agent.BandwidthShaping
