import LiveCDN.Controller.ServerRun

/-!
# Replayed key requests

`handleGetKey` of `controller/server.go` verifies the signature of a key request and refuses one
whose timestamp is older than sixty seconds, against replays. A timestamp that `time.UnixDate` does
not parse passes without the second check.

So the keys of a request are bound to a fresh timestamp exactly when the request is refused for what
else it lacks, or it is signed and either the signature is wrong or `time.UnixDate` parses the
timestamp, and not to a later time than it denotes (`keysAreFresh_iff`). `time.Parse` takes the
abbreviation of a zone that the location of the server does not know for UTC, so what it parses a
timestamp to need not be what the timestamp denotes.

Scope. What a timestamp denotes is a parameter (`Calendar`), and so is what it is parsed to. A query
parameter that is absent reads as an empty one.
-/

set_option autoImplicit false
set_option relaxedAutoImplicit false

namespace LiveCDN.Controller.KeyReplay

open NodeStore StreamStore HttpServer Handlers ServerRun

/-! ### Requests and their timestamps -/

/-- The times that timestamps denote, in whatever format. -/
structure Calendar where
  denotes : String → Option ℤ

/-- A timestamp denotes a time at most sixty seconds in the past. -/
def Calendar.Fresh (calendar : Calendar) (now : ℕ) (ts : String) : Prop :=
  ∃ time, calendar.denotes ts = some time ∧ (now : ℤ) - time ≤ 60 * second

/-- A timestamp is parsed to a time that is not later than the one it denotes. What is parsed to a
time more than sixty seconds before 1970 is always expired. -/
def Calendar.NotLater (calendar : Calendar) (services : Services) (ts : String) : Prop :=
  ∃ parsed, services.parseUnixDate ts = some parsed ∧
    (parsed < -(60 * second) ∨ ∃ time, calendar.denotes ts = some time ∧ parsed ≤ time)

/-- No timestamp stays fresh. -/
theorem Calendar.exists_not_fresh (calendar : Calendar) (ts : String) :
    ∃ now, ¬ calendar.Fresh now ts := by
  cases htime : calendar.denotes ts with
  | none =>
    refine ⟨0, ?_⟩
    rintro ⟨time, hsome, -⟩
    exact nomatch htime.symm.trans hsome
  | some time =>
    refine ⟨(time + 60 * second).toNat + 1, ?_⟩
    rintro ⟨other, hsome, hage⟩
    obtain rfl := Option.some.inj (htime.symm.trans hsome)
    omega

/-- A request has a timestamp and a signature. -/
def IsSigned (request : Request) : Prop := request.query "ts" ≠ "" ∧ request.query "sig" ≠ ""

/-- The signature of a request is that of its session and timestamp. -/
def Verifies (server : Server) (services : Services) (request : Request) : Prop :=
  services.sign server.cfg.adminToken (request.query "session_id" ++ ":" ++ request.query "ts") =
    request.query "sig"

/-- Besides its signature and timestamp a request has what the handler asks for: a session, and a
token for the stream of the session, which is there. -/
def Entitled (server : Server) (request : Request) : Prop :=
  request.query "session_id" ≠ "" ∧ request.query "token" ≠ "" ∧
    ∃ session, server.sessions.find? (request.query "session_id") = some session ∧
      server.mem.validateToken (request.query "token") = some session.streamKey ∧
      (getStream server.streams session.streamKey).isSome

/-- The handler returns a key. -/
def YieldsKey (server : Server) (services : Services) (chance : Chance) (request : Request) :
    Prop :=
  ∃ response, handleGetKey server services chance request = .ok (.key response)

/-- Whenever a request yields a key, its signature verifies and its timestamp is fresh. -/
def KeysAreFresh (server : Server) (services : Services) (calendar : Calendar)
    (request : Request) : Prop :=
  ∀ chance, YieldsKey server services chance request →
    Verifies server services request ∧ calendar.Fresh chance.now (request.query "ts")

/-! ### What the handler checks -/

/-- Which requests pass the check of the signature and the timestamp. -/
theorem checkSignature_eq_none_iff {server : Server} {services : Services} {now : ℕ}
    {request : Request} :
    checkSignature server.cfg services now (request.query "session_id") (request.query "ts")
        (request.query "sig") = none ↔
      (IsSigned request → Verifies server services request ∧
        ∀ time, services.parseUnixDate (request.query "ts") = some time →
          (now : ℤ) - time ≤ 60 * second) := by
  unfold checkSignature IsSigned Verifies
  by_cases hsigned : request.query "ts" ≠ "" ∧ request.query "sig" ≠ ""
  · rw [if_pos hsigned, forall_prop_of_true hsigned]
    by_cases hverifies : services.sign server.cfg.adminToken
        (request.query "session_id" ++ ":" ++ request.query "ts") = request.query "sig"
    · rw [if_neg (not_not.mpr hverifies), and_iff_right hverifies]
      cases services.parseUnixDate (request.query "ts") with
      | none => exact iff_of_true rfl nofun
      | some time =>
        dsimp only
        rw [ite_eq_right_iff]
        simp
    · rw [if_pos hverifies]
      exact iff_of_false nofun fun h ↦ hverifies h.1
  · rw [if_neg hsigned]
    exact iff_of_true rfl fun h ↦ absurd h hsigned

/-- A request that does not pass the check gets no key. -/
theorem ne_key_of_checkSignature {cfg : Config} {services : Services} {now : ℕ}
    {sessionID ts sig : String} {refusal : Reply}
    (hcheck : checkSignature cfg services now sessionID ts sig = some refusal)
    (response : KeyResponse) : refusal ≠ .ok (.key response) := by
  unfold checkSignature at hcheck
  split_ifs at hcheck
  · rw [← Option.some.inj hcheck]
    exact nofun
  · split at hcheck
    · split_ifs at hcheck
      rw [← Option.some.inj hcheck]
      exact nofun
    · exact nomatch hcheck

/-- A request yields a key exactly when it has what the handler asks for and passes the check. -/
theorem yieldsKey_iff {server : Server} {services : Services} {chance : Chance}
    {request : Request} :
    YieldsKey server services chance request ↔ Entitled server request ∧
      checkSignature server.cfg services chance.now (request.query "session_id")
        (request.query "ts") (request.query "sig") = none := by
  unfold YieldsKey Entitled handleGetKey
  dsimp only
  by_cases hmissing : request.query "session_id" = "" ∨ request.query "token" = ""
  · rw [if_pos hmissing]
    refine iff_of_false (fun ⟨_, hreply⟩ ↦ nomatch hreply) fun h ↦ ?_
    exact hmissing.elim h.1.1 h.1.2.1
  rw [if_neg hmissing, and_iff_right (not_or.mp hmissing).1, and_iff_right (not_or.mp hmissing).2]
  cases hcheck : checkSignature server.cfg services chance.now (request.query "session_id")
      (request.query "ts") (request.query "sig") with
  | some refusal =>
    exact iff_of_false (fun ⟨_, hreply⟩ ↦ ne_key_of_checkSignature hcheck _ hreply) nofun
  | none =>
    rw [and_iff_left rfl]
    cases server.sessions.find? (request.query "session_id") with
    | none =>
      exact iff_of_false (fun ⟨_, hreply⟩ ↦ nomatch hreply) fun ⟨_, hsome, _⟩ ↦ nomatch hsome
    | some session =>
      simp only [Option.some.injEq, exists_eq_left']
      by_cases htoken : server.mem.validateToken (request.query "token") = some session.streamKey
      · rw [if_neg (not_not.mpr htoken), and_iff_right htoken]
        cases getStream server.streams session.streamKey with
        | none => exact iff_of_false (fun ⟨_, hreply⟩ ↦ nomatch hreply) nofun
        | some stream => exact iff_of_true ⟨_, rfl⟩ rfl
      · rw [if_pos htoken]
        exact iff_of_false (fun ⟨_, hreply⟩ ↦ nomatch hreply) fun h ↦ htoken h.1

/-- A timestamp is fresh whenever it passes the test of its age exactly when it is parsed to a time
that is not later than the one it denotes. -/
theorem forall_fresh_iff (services : Services) (calendar : Calendar) (ts : String) :
    (∀ now : ℕ, (∀ parsed, services.parseUnixDate ts = some parsed →
        (now : ℤ) - parsed ≤ 60 * second) → calendar.Fresh now ts) ↔
      calendar.NotLater services ts := by
  unfold Calendar.NotLater
  cases hparse : services.parseUnixDate ts with
  | none =>
    obtain ⟨now, hold⟩ := calendar.exists_not_fresh ts
    refine iff_of_false (fun hall ↦ hold (hall now nofun)) ?_
    rintro ⟨parsed, hsome, -⟩
    exact nomatch hsome
  | some parsed =>
    simp only [Option.some.injEq, exists_eq_left', forall_eq']
    by_cases hexpired : parsed < -(60 * second)
    · refine iff_of_true (fun now hage ↦ ?_) (Or.inl hexpired)
      omega
    · rw [or_iff_right hexpired]
      constructor
      · -- The last instant at which the timestamp passes decides.
        intro hall
        obtain ⟨last, hlast⟩ :=
          Int.eq_ofNat_of_zero_le (show 0 ≤ parsed + 60 * second by omega)
        obtain ⟨time, hdenotes, hage⟩ := hall last (by omega)
        exact ⟨time, hdenotes, by omega⟩
      · rintro ⟨time, hdenotes, hle⟩ now hage
        exact ⟨time, hdenotes, by omega⟩

/-- The keys of a request are fresh exactly when it lacks something else, or is signed and its
timestamp is parsed to a time not later than the one it denotes, where the signature is right. -/
theorem keysAreFresh_iff (server : Server) (services : Services) (calendar : Calendar)
    (request : Request) :
    KeysAreFresh server services calendar request ↔
      (Entitled server request → IsSigned request ∧
        (Verifies server services request →
          calendar.NotLater services (request.query "ts"))) := by
  have hyields : ∀ chance, YieldsKey server services chance request ↔ Entitled server request ∧
      (IsSigned request → Verifies server services request ∧
        ∀ time, services.parseUnixDate (request.query "ts") = some time →
          (chance.now : ℤ) - time ≤ 60 * second) := fun chance ↦
    yieldsKey_iff.trans (and_congr_right fun _ ↦ checkSignature_eq_none_iff)
  rw [← forall_fresh_iff]
  constructor
  · intro hfresh hentitled
    have hsigned : IsSigned request := by
      -- An unsigned request yields a key at any time.
      by_contra hunsigned
      obtain ⟨now, hold⟩ := calendar.exists_not_fresh (request.query "ts")
      refine hold (hfresh { plainChance with now := now } ?_).2
      exact (hyields _).mpr ⟨hentitled, fun hsigned ↦ absurd hsigned hunsigned⟩
    refine ⟨hsigned, fun hverifies now hage ↦ ?_⟩
    exact (hfresh { plainChance with now := now }
      ((hyields _).mpr ⟨hentitled, fun _ ↦ ⟨hverifies, hage⟩⟩)).2
  · intro hguarded chance hyielded
    obtain ⟨hentitled, hchecked⟩ := (hyields chance).mp hyielded
    obtain ⟨hsigned, hparsed⟩ := hguarded hentitled
    obtain ⟨hverifies, hage⟩ := hchecked hsigned
    exact ⟨hverifies, hparsed hverifies chance.now hage⟩

/-! ### A timestamp in seconds -/

/-- The digest of the session `session` and the timestamp `1700000000` under the admin token of
`plainConfig`, for which the `time.UnixDate` format has no parse. -/
def secondsServices : Services where
  lookup _ := ("r", "i")
  sign _ _ := "d62c47986dc5e7a881b7c42c6e644b58144e7079c8783ff025b83482ad852827"
  parseUnixDate _ := none

/-- The timestamp denotes a number of seconds. -/
def secondsCalendar : Calendar where
  denotes ts := if ts = "1700000000" then some (1700000000 * second) else none

/-- A server with one stream, a viewer token for it and a session. -/
def watchedServer : Server :=
  let server := newServer plainConfig
  let stream : StreamInfo := ⟨"stream", "", "", "key", "iv", "aes-128-cbc", true, 0, latencyUltra⟩
  { server with
    streams := createStream server.streams stream
    tokens := server.tokens.put ("token", "stream")
    sessions := server.sessions.put ⟨"session", "stream", "node", "", 0, 0⟩ }

/-- The signed request. -/
def capturedRequest : Request where
  route := .getKey
  header _ := ""
  query name :=
    if name = "session_id" then "session"
    else if name = "token" then "token"
    else if name = "ts" then "1700000000"
    else if name = "sig" then secondsServices.sign "" ""
    else ""

/-- An hour later the request still yields a key. -/
theorem keysAreFresh_counterexample :
    YieldsKey watchedServer secondsServices { plainChance with now := 1700003600 * second }
        capturedRequest ∧
      ¬ secondsCalendar.Fresh (1700003600 * second) (capturedRequest.query "ts") ∧
      ¬ KeysAreFresh watchedServer secondsServices secondsCalendar capturedRequest := by
  have hyields : YieldsKey watchedServer secondsServices
      { plainChance with now := 1700003600 * second } capturedRequest :=
    ⟨⟨"key", "stream", "iv", "aes-128-cbc", 1700003660⟩, by decide +kernel⟩
  have hold : ¬ secondsCalendar.Fresh (1700003600 * second) (capturedRequest.query "ts") := by
    rintro ⟨time, htime, hage⟩
    have hdenotes : secondsCalendar.denotes (capturedRequest.query "ts") =
        some (1700000000 * second) := by decide
    obtain rfl := Option.some.inj (hdenotes.symm.trans htime)
    exact absurd hage (by decide)
  exact ⟨hyields, hold, fun hfresh ↦ hold (hfresh _ hyields).2⟩

end LiveCDN.Controller.KeyReplay
