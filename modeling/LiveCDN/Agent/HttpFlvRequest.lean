import LiveCDN.Agent.ViewerConnection
import LiveCDN.Library.ByteText

/-!
# The request of an HTTP-FLV client

`main.rs`, `handle_http_flv_connection` up to its decision. The request is read line by line from
what the peer sends before it closes its side (`readLine`, `turn`): at the end of the stream a line
is empty, which is no blank line, so the header loop is left exactly when a line behind the request
line is blank or no UTF-8 (`headerLoopEnds_iff`), and where it is left it has done what
`readHeaders` does with the texts of the lines (`leaves_iff_readHeaders`).

The flag for a pulling agent starts with the flag for the cascade endpoint, so a request to that
endpoint is never turned away (`readHeaders_true`): the endpoint is kept for agents exactly when an
agent asks (`cascadeGuard_iff`). `httpFlvTrace` is the handler with its check and its look-up of the
relay marked.
-/

set_option autoImplicit false
set_option relaxedAutoImplicit false

namespace LiveCDN.Agent.HttpFlvRequest

open Library.Utf8Text Library.ByteText ViewerConnection

/-- A line that ends the headers. -/
def IsBlank (line : Text) : Prop := line = "\r\n".toList ∨ line = "\n".toList

instance (line : Text) : Decidable (IsBlank line) := instDecidableOr

/-- A header line starts with the mark of an agent, in any case. -/
def carriesMark (line : Text) : Bool :=
  "x-livecdn-agent:".toList.isPrefixOf (line.map Char.toLower)

/-! ### The header loop -/

/-- `read_line` on what a peer has sent before it closed its side, none when the bytes of the line
are no UTF-8, and what is left to read. -/
def readLine (sent : List UInt8) : Option Text × List UInt8 :=
  (fromUtf8 (takeLine sent).1, (takeLine sent).2)

/-- Where the handler is: in the header loop, behind it, or at the end of a request that could not
be read. -/
inductive Reading
  | reading (isCascadePull : Bool) (sent : List UInt8)
  | left (isCascadePull : Bool) (sent : List UInt8)
  | failed
  deriving DecidableEq, Repr

/-- The request line is read. -/
def startReading (sent : List UInt8) : Reading :=
  match readLine sent with
  | (none, _) => .failed
  | (some requestLine, rest) => .reading (decide ("/cascade/".toList <:+: requestLine)) rest

/-- A turn of the header loop. -/
def turn : Reading → Reading
  | .reading isCascadePull sent =>
    match readLine sent with
    | (none, _) => .failed
    | (some line, rest) =>
      if IsBlank line then .left isCascadePull rest
      else .reading (isCascadePull || carriesMark line) rest
  | .left isCascadePull sent => .left isCascadePull sent
  | .failed => .failed

/-- The loop is over. -/
def Reading.IsOver : Reading → Prop
  | .reading _ _ => False
  | .left _ _ => True
  | .failed => True

/-- The loop is over after some turns. -/
def Ends (reading : Reading) : Prop := ∃ turns, (turn^[turns] reading).IsOver

/-- The header loop ends for what a peer sends before it closes its side. -/
def HeaderLoopEnds (sent : List UInt8) : Prop := Ends (startReading sent)

/-- What holds at some turn, and does not stop holding, holds at some turn behind the first.
Assumes: a turn keeps it. -/
theorem exists_turns_iff {P : Reading → Prop} (hkeeps : ∀ reading, P reading → P (turn reading))
    (reading : Reading) :
    (∃ turns, P (turn^[turns] reading)) ↔ ∃ turns, P (turn^[turns] (turn reading)) := by
  constructor
  · rintro ⟨turns, hturns⟩
    refine ⟨turns, ?_⟩
    rw [← Function.iterate_succ_apply, Function.iterate_succ_apply']
    exact hkeeps _ hturns
  · rintro ⟨turns, hturns⟩
    exact ⟨turns + 1, hturns⟩

/-- A loop that is over stays over. -/
theorem isOver_turn {reading : Reading} (hover : reading.IsOver) : (turn reading).IsOver := by
  cases reading with
  | reading isCascadePull sent => exact hover.elim
  | left isCascadePull sent => exact trivial
  | failed => exact trivial

/-- The loop ends when it ends behind a turn. -/
theorem ends_turn_iff (reading : Reading) : Ends reading ↔ Ends (turn reading) :=
  exists_turns_iff (fun _ hover ↦ isOver_turn hover) reading

/-- At the end of the stream a turn changes nothing. -/
theorem turn_at_end (isCascadePull : Bool) :
    turn (.reading isCascadePull []) = .reading isCascadePull [] := by
  cases isCascadePull <;> decide +kernel

/-- A line, as bytes, that ends the loop: it is blank, or it is no UTF-8. -/
def EndsHeaders (line : List UInt8) : Prop :=
  fromUtf8 line = none ∨ line = [13, 10] ∨ line = [10]

/-- The text of a line is blank exactly when its bytes are. Assumes: the line has the text. -/
theorem isBlank_iff {line : List UInt8} {text : Text} (htext : fromUtf8 line = some text) :
    IsBlank text ↔ line = [13, 10] ∨ line = [10] := by
  have hreturn : fromUtf8 [13, 10] = some "\r\n".toList := by decide +kernel
  have hfeed : fromUtf8 [10] = some "\n".toList := by decide +kernel
  have hbytes {other : List UInt8} {blank : Text} (hother : fromUtf8 other = some blank) :
      text = blank ↔ line = other := by
    constructor
    · rintro rfl
      rw [← fromUtf8_eq_some_iff.mp htext, fromUtf8_eq_some_iff.mp hother]
    · rintro rfl
      exact Option.some.inj (htext.symm.trans hother)
  exact or_congr (hbytes hreturn) (hbytes hfeed)

/-- Behind a line that ends the headers the loop is over. Assumes: the line ends the headers. -/
theorem isOver_turn_of_endsHeaders {sent : List UInt8} (isCascadePull : Bool)
    (hends : EndsHeaders (takeLine sent).1) : (turn (.reading isCascadePull sent)).IsOver := by
  rw [turn, readLine]
  cases htext : fromUtf8 (takeLine sent).1 with
  | none => exact trivial
  | some line =>
    have hblank : IsBlank line :=
      (isBlank_iff htext).mpr (hends.resolve_left fun hnone ↦ nomatch htext.symm.trans hnone)
    dsimp only
    rw [if_pos hblank]
    exact trivial

/-- At any other line the loop goes on. Assumes: the line does not end the headers. -/
theorem exists_turn_of_not_endsHeaders {sent : List UInt8} (isCascadePull : Bool)
    (hends : ¬ EndsHeaders (takeLine sent).1) :
    ∃ line, fromUtf8 (takeLine sent).1 = some line ∧ ¬ IsBlank line ∧
      turn (.reading isCascadePull sent) =
        .reading (isCascadePull || carriesMark line) (takeLine sent).2 := by
  cases htext : fromUtf8 (takeLine sent).1 with
  | none => exact absurd (Or.inl htext) hends
  | some line =>
    have hblank : ¬ IsBlank line := fun hblank ↦ hends (Or.inr ((isBlank_iff htext).mp hblank))
    refine ⟨line, rfl, hblank, ?_⟩
    rw [turn, readLine, htext]
    exact if_neg hblank

/-- The loop ends exactly when one of the lines does. -/
theorem ends_reading_iff (isCascadePull : Bool) (sent : List UInt8) :
    Ends (.reading isCascadePull sent) ↔ ∃ line ∈ byteLines sent, EndsHeaders line := by
  induction hlength : sent.length using Nat.strong_induction_on generalizing isCascadePull sent with
  | _ length ih =>
    by_cases hsent : sent = []
    · rw [hsent]
      have hfixed (turns : ℕ) :
          turn^[turns] (.reading isCascadePull []) = .reading isCascadePull [] :=
        Function.iterate_fixed (turn_at_end isCascadePull) turns
      refine iff_of_false ?_ (by simp [byteLines])
      rintro ⟨turns, hover⟩
      rw [hfixed] at hover
      exact hover
    · rw [byteLines_eq hsent, List.exists_mem_cons_iff, ends_turn_iff]
      by_cases hends : EndsHeaders (takeLine sent).1
      · exact iff_of_true ⟨0, isOver_turn_of_endsHeaders isCascadePull hends⟩ (Or.inl hends)
      · obtain ⟨line, -, -, hturn⟩ := exists_turn_of_not_endsHeaders isCascadePull hends
        rw [hturn, or_iff_right hends]
        exact ih _ (hlength ▸ length_takeLine_lt hsent) _ _ rfl

/-- The header loop ends, for what a peer sends before it closes its side, exactly when the request
line is no UTF-8 or a line behind it is blank or no UTF-8. -/
theorem headerLoopEnds_iff (sent : List UInt8) :
    HeaderLoopEnds sent ↔ ∃ requestLine headerLines, byteLines sent = requestLine :: headerLines ∧
      (fromUtf8 requestLine = none ∨ ∃ line ∈ headerLines, EndsHeaders line) := by
  by_cases hsent : sent = []
  · rw [hsent]
    refine iff_of_false (fun hends ↦ ?_) (by simp [byteLines])
    have hstart : startReading [] = .reading false [] := by decide +kernel
    rw [HeaderLoopEnds, hstart, ends_reading_iff] at hends
    simp [byteLines] at hends
  · rw [byteLines_eq hsent, HeaderLoopEnds, startReading, readLine]
    cases htext : fromUtf8 (takeLine sent).1 with
    | none => exact iff_of_true ⟨0, trivial⟩ ⟨_, _, rfl, Or.inl htext⟩
    | some requestLine =>
      dsimp only
      rw [ends_reading_iff]
      constructor
      · exact fun hline ↦ ⟨_, _, rfl, Or.inr hline⟩
      · rintro ⟨first, headerLines, hlines, hends⟩
        obtain ⟨rfl, rfl⟩ := List.cons.inj hlines
        refine hends.resolve_left fun hnone ↦ ?_
        rw [htext] at hnone
        cases hnone

/-- A client that sends its request line and one header line and closes its side. -/
def closedEarly : List UInt8 :=
  asciiBytes "GET /live/room.flv HTTP/1.1\r\nHost: edge\r\n".toList

/-- The header loop of the client that closed early does not end. -/
theorem headerLoopEnds_counterexample : ¬ HeaderLoopEnds closedEarly := by
  rw [headerLoopEnds_iff]
  rintro ⟨requestLine, headerLines, hlines, hends⟩
  have hsplit : byteLines closedEarly =
      [asciiBytes "GET /live/room.flv HTTP/1.1\r\n".toList,
        asciiBytes "Host: edge\r\n".toList] := by
    decide +kernel
  obtain ⟨rfl, rfl⟩ := List.cons.inj (hlines.symm.trans hsplit)
  rcases hends with hrequest | ⟨line, hline, hends⟩
  · exact absurd hrequest (by decide +kernel)
  · rw [List.mem_singleton] at hline
    rw [hline] at hends
    rcases hends with hnone | hreturn | hfeed
    · exact absurd hnone (by decide +kernel)
    · exact absurd hreturn (by decide +kernel)
    · exact absurd hfeed (by decide +kernel)

/-! ### The loop on texts -/

theorem readHeaders_cons (flag : Bool) (line : Text) (lines : List Text) :
    readHeaders flag (line :: lines) =
      if IsBlank line then some flag else readHeaders (flag || carriesMark line) lines := rfl

/-- The texts of lines, up to the first that is no UTF-8. -/
def decodedLines : List (List UInt8) → List Text
  | [] => []
  | line :: lines =>
    match fromUtf8 line with
    | some text => text :: decodedLines lines
    | none => []

/-- The loop has been left with a flag for a pulling agent. -/
def Reading.HasLeft (isCascadePull : Bool) : Reading → Prop
  | .left flag _ => flag = isCascadePull
  | _ => False

theorem hasLeft_turn {isCascadePull : Bool} {reading : Reading}
    (hleft : reading.HasLeft isCascadePull) : (turn reading).HasLeft isCascadePull := by
  cases reading with
  | reading flag sent => exact hleft.elim
  | left flag sent => exact hleft
  | failed => exact hleft.elim

/-- What does not change at a turn and has not left does not leave. Assumes: a turn keeps where the
handler is. -/
theorem not_exists_hasLeft {isCascadePull : Bool} {reading : Reading}
    (hturn : turn reading = reading)
    (hleft : ¬ reading.HasLeft isCascadePull) :
    ¬ ∃ turns, (turn^[turns] reading).HasLeft isCascadePull := by
  rintro ⟨turns, hturns⟩
  rw [Function.iterate_fixed hturn] at hturns
  exact hleft hturns

/-- The loop is left with a flag exactly when `readHeaders` gives the flag for the texts of the
lines. -/
theorem leaves_iff_readHeaders (flag isCascadePull : Bool) (sent : List UInt8) :
    (∃ turns, (turn^[turns] (.reading flag sent)).HasLeft isCascadePull) ↔
      readHeaders flag (decodedLines (byteLines sent)) = some isCascadePull := by
  induction hlength : sent.length using Nat.strong_induction_on generalizing flag sent with
  | _ length ih =>
    by_cases hsent : sent = []
    · rw [hsent]
      exact iff_of_false (not_exists_hasLeft (turn_at_end flag) id) nofun
    · rw [byteLines_eq hsent, exists_turns_iff (fun _ hleft ↦ hasLeft_turn hleft), decodedLines,
        turn, readLine]
      cases htext : fromUtf8 (takeLine sent).1 with
      | none => exact iff_of_false (not_exists_hasLeft rfl id) nofun
      | some line =>
        dsimp only
        by_cases hblank : IsBlank line
        · rw [if_pos hblank, readHeaders_cons, if_pos hblank, Option.some.injEq]
          constructor
          · rintro ⟨turns, hturns⟩
            rwa [Function.iterate_fixed rfl] at hturns
          · exact fun hflag ↦ ⟨0, hflag⟩
        · rw [if_neg hblank, readHeaders_cons, if_neg hblank]
          exact ih _ (hlength ▸ length_takeLine_lt hsent) _ _ rfl

/-! ### The cascade endpoint -/

/-- The answer to a client of the cascade endpoint that is no agent. -/
def forbiddenReply : Text :=
  "HTTP/1.1 403 Forbidden\r\nContent-Length: 18\r\n\r\nAgent token required".toList

/-- The answer to a request without a stream key. -/
def notFoundReply : Text :=
  "HTTP/1.1 404 Not Found\r\nContent-Length: 9\r\n\r\nNot Found".toList

/-- The answer to a client too many. -/
def maxClientsReply : Text :=
  "HTTP/1.1 503 Service Unavailable\r\nContent-Length: 15\r\n\r\nMax clients hit".toList

/-- What the handler comes to: its check of the endpoint, its look-up of the relay, which is created
when there is none, and what it does. -/
inductive Event
  | checked (forbidden : Bool)
  | lookedUp (key : Text)
  | did (action : Action)
  deriving DecidableEq, Repr

variable (outcomes : Outcomes) (state : AppState)

/-- `handle_http_flv_connection`, with its check and its look-up marked. -/
def httpFlvTrace (requestLine : Text) : List Event :=
  let key := parseStreamKeyFromUrl requestLine
  let isCascadeEndpoint := decide ("/cascade/".toList <:+: requestLine)
  match readHeaders isCascadeEndpoint outcomes.headerLines with
  | none => []
  | some isCascadePull =>
    if isCascadeEndpoint = true ∧ isCascadePull = false then
      [.checked true, .did (.reply forbiddenReply)]
    else
      .checked false ::
        if key = [] then [.did (.reply notFoundReply)]
        else
          .lookedUp key ::
            (getOrCreateFlvRelay outcomes state key ++ .addClient outcomes.admitted ::
              if outcomes.admitted = false then [.reply maxClientsReply]
              else
                .sendResponseHeader isCascadePull ::
                  if outcomes.responseSent = false then []
                  else
                    (if isCascadePull = true then info outcomes key else []) ++ .sendFlvHeader ::
                      if outcomes.flvHeaderSent = true then serveFlv outcomes key
                      else []).map .did

/-- The action of an event. -/
def Event.action? : Event → Option Action
  | .did action => some action
  | _ => none

theorem filterMap_did (actions : List Action) :
    (actions.map Event.did).filterMap Event.action? = actions := by
  rw [List.filterMap_map]
  exact List.filterMap_some

/-- Without the marks the trace is what the handler does. -/
theorem actions_httpFlvTrace (requestLine : Text) :
    (httpFlvTrace outcomes state requestLine).filterMap Event.action? =
      handleHttpFlvConnection outcomes state requestLine := by
  unfold httpFlvTrace handleHttpFlvConnection
  dsimp only
  cases readHeaders (decide ("/cascade/".toList <:+: requestLine)) outcomes.headerLines with
  | none => rfl
  | some isCascadePull =>
    dsimp only
    split_ifs
    all_goals first | rfl | exact filterMap_did _

/-! ### What is not a refusal -/

/-- None of some actions is the refusal. -/
def NoRefusal (actions : List Action) : Prop := .reply forbiddenReply ∉ actions

@[simp] theorem noRefusal_nil : NoRefusal [] := List.not_mem_nil

@[simp] theorem noRefusal_cons {action : Action} {actions : List Action} :
    NoRefusal (action :: actions) ↔ action ≠ .reply forbiddenReply ∧ NoRefusal actions := by
  rw [NoRefusal, List.mem_cons, not_or, eq_comm]
  rfl

@[simp] theorem noRefusal_append {front back : List Action} :
    NoRefusal (front ++ back) ↔ NoRefusal front ∧ NoRefusal back := by
  rw [NoRefusal, List.mem_append, not_or]
  rfl

variable {outcomes state} {key : Text}

@[simp] theorem noRefusal_info : NoRefusal (info outcomes key) := by
  unfold info
  split_ifs <;> simp

/-- The pull loop refuses nobody. -/
theorem noRefusal_pullLoop (flvUrl : Text) (backupUrl : Option Text) (turns : List PullTurn)
    (usingBackup : Bool) (attempt : ℕ) :
    NoRefusal (pullLoop outcomes key flvUrl backupUrl turns usingBackup attempt) := by
  induction turns generalizing usingBackup attempt with
  | nil => exact noRefusal_nil
  | cons turn turns ih =>
    cases turn with
    | stopped => exact noRefusal_info
    | ended => simp [pullLoop]
    | lost => simp [pullLoop, ih]

theorem noRefusal_getOrCreateFlvRelay : NoRefusal (getOrCreateFlvRelay outcomes state key) := by
  unfold getOrCreateFlvRelay flvPullTask
  by_cases hknown : key ∈ state.flvRelays
  · rw [if_pos hknown]
    exact noRefusal_nil
  · rw [if_neg hknown, noRefusal_append, noRefusal_append]
    refine ⟨?_, noRefusal_info, noRefusal_pullLoop _ _ _ _ _⟩
    cases state.currentUpstreamUrl with
    | none => exact noRefusal_nil
    | some upstream =>
      dsimp only
      split_ifs <;> simp

theorem noRefusal_serveUntilLeft : NoRefusal (serveUntilLeft outcomes key) := by
  unfold serveUntilLeft
  split_ifs <;> simp

theorem noRefusal_serveFlv : NoRefusal (serveFlv outcomes key) := by
  unfold serveFlv
  split_ifs <;> simp [noRefusal_serveUntilLeft]

/-- The other answers are not the refusal. -/
theorem replies_ne_forbiddenReply :
    notFoundReply ≠ forbiddenReply ∧ maxClientsReply ≠ forbiddenReply := by
  decide +kernel

/-! ### Who is turned away -/

/-- The header lines before the blank line. -/
def beforeBlank (lines : List Text) : List Text := lines.takeWhile fun line ↦ !decide (IsBlank line)

/-- The header loop gives the flag it starts with, or the mark of an agent on one of the lines
before the blank line, once there is a blank line. -/
theorem readHeaders_eq_some_iff {flag isCascadePull : Bool} {lines : List Text} :
    readHeaders flag lines = some isCascadePull ↔
      (∃ line ∈ lines, IsBlank line) ∧
        isCascadePull = (flag || (beforeBlank lines).any carriesMark) := by
  induction lines generalizing flag with
  | nil => simp [readHeaders]
  | cons line lines ih =>
    rw [readHeaders_cons, List.exists_mem_cons_iff, beforeBlank, List.takeWhile_cons]
    by_cases hblank : IsBlank line
    · rw [if_pos hblank, if_neg (by simpa using hblank), Option.some.injEq, List.any_nil,
        Bool.or_false, and_iff_right (Or.inl hblank)]
      exact eq_comm
    · rw [if_neg hblank, if_pos (by simpa using hblank), ih, or_iff_right hblank, List.any_cons,
        Bool.or_assoc]
      rfl

/-- The refusal is among some events. -/
def Answers403 (trace : List Event) : Prop := .did (.reply forbiddenReply) ∈ trace

/-- A relay is looked up, and created when there is none, only behind the check. -/
def ChecksBeforeLookUp (trace : List Event) : Prop :=
  ∀ front key back, trace = front ++ .lookedUp key :: back → ∃ forbidden, .checked forbidden ∈ front

/-- The refusal is among events of actions when it is among the actions. -/
theorem did_mem_map {action : Action} {actions : List Action} :
    Event.did action ∈ actions.map Event.did ↔ action ∈ actions :=
  List.mem_map_of_injective fun _ _ heq ↦ Event.did.inj heq

/-- The handler turns a client away exactly when the request is one to the cascade endpoint and the
header loop ends with a flag that is down. -/
theorem answers403_iff (requestLine : Text) :
    Answers403 (httpFlvTrace outcomes state requestLine) ↔
      decide ("/cascade/".toList <:+: requestLine) = true ∧
        readHeaders (decide ("/cascade/".toList <:+: requestLine)) outcomes.headerLines =
          some false := by
  unfold httpFlvTrace Answers403
  dsimp only
  cases readHeaders (decide ("/cascade/".toList <:+: requestLine)) outcomes.headerLines with
  | none => exact iff_of_false List.not_mem_nil fun hboth ↦ nomatch hboth.2
  | some isCascadePull =>
    dsimp only
    rw [Option.some.injEq]
    by_cases hforbidden :
        decide ("/cascade/".toList <:+: requestLine) = true ∧ isCascadePull = false
    · rw [if_pos hforbidden]
      exact iff_of_true (List.mem_cons_of_mem _ List.mem_cons_self) hforbidden
    · rw [if_neg hforbidden]
      refine iff_of_false ?_ hforbidden
      rw [List.mem_cons, or_iff_right nofun]
      by_cases hkey : parseStreamKeyFromUrl requestLine = []
      · rw [if_pos hkey, List.mem_singleton, Event.did.injEq, Action.reply.injEq]
        exact replies_ne_forbiddenReply.1.symm
      · rw [if_neg hkey, List.mem_cons, or_iff_right nofun, did_mem_map]
        show NoRefusal _
        rw [noRefusal_append]
        refine ⟨noRefusal_getOrCreateFlvRelay, ?_⟩
        split_ifs <;> simp [noRefusal_serveFlv, replies_ne_forbiddenReply.2]

/-- In every request the relay is looked up behind the check. -/
theorem checksBeforeLookUp_httpFlvTrace (requestLine : Text) :
    ChecksBeforeLookUp (httpFlvTrace outcomes state requestLine) := by
  intro front key back htrace
  cases front with
  | cons event front =>
    unfold httpFlvTrace at htrace
    dsimp only at htrace
    split at htrace
    · exact nomatch htrace
    · split_ifs at htrace <;>
        exact ⟨_, List.mem_cons.mpr (Or.inl (List.cons.inj htrace).1)⟩
  | nil =>
    unfold httpFlvTrace at htrace
    dsimp only at htrace
    split at htrace
    · exact nomatch htrace
    · split_ifs at htrace <;> exact nomatch htrace

/-- No client is turned away: the flag for the cascade endpoint raises the flag for an agent. -/
theorem not_answers403 (requestLine : Text) :
    ¬ Answers403 (httpFlvTrace outcomes state requestLine) := by
  rw [answers403_iff]
  rintro ⟨hendpoint, hheaders⟩
  rw [hendpoint, readHeaders_eq_some_iff, Bool.true_or] at hheaders
  exact absurd hheaders.2 (by decide)

variable (outcomes state) in
/-- Of the clients of the cascade endpoint those without the mark of an agent, and only those, are
turned away, and no relay is looked up before that, exactly when a request to the endpoint does have
the mark on one of its header lines. -/
theorem cascadeGuard_iff (requestLine : Text) :
    (("/cascade/".toList <:+: requestLine →
        (Answers403 (httpFlvTrace outcomes state requestLine) ↔
          ∀ line ∈ beforeBlank outcomes.headerLines, carriesMark line = false)) ∧
      ChecksBeforeLookUp (httpFlvTrace outcomes state requestLine)) ↔
      ("/cascade/".toList <:+: requestLine →
        ∃ line ∈ beforeBlank outcomes.headerLines, carriesMark line = true) := by
  rw [and_iff_left (checksBeforeLookUp_httpFlvTrace requestLine)]
  refine imp_congr_right fun _ ↦ ?_
  rw [iff_false_left (not_answers403 requestLine)]
  simp only [not_forall, Bool.not_eq_false, exists_prop]

/-- A request to the cascade endpoint with one header line. -/
def viewerOutcomes : Outcomes :=
  { plainOutcomes with headerLines := ["Host: edge\r\n".toList, "\r\n".toList] }

/-- A client of the cascade endpoint that does not say that it is an agent is not turned away, and a
relay is looked up for it. -/
theorem cascadeGuard_counterexample :
    "/cascade/".toList <:+: "GET /cascade/room.flv HTTP/1.1\r\n".toList ∧
      (∀ line ∈ beforeBlank viewerOutcomes.headerLines, carriesMark line = false) ∧
      ¬ Answers403 (httpFlvTrace viewerOutcomes idleState
        "GET /cascade/room.flv HTTP/1.1\r\n".toList) ∧
      .lookedUp "room".toList ∈ httpFlvTrace viewerOutcomes idleState
        "GET /cascade/room.flv HTTP/1.1\r\n".toList := by
  refine ⟨by decide +kernel, by decide +kernel, ?_, by decide +kernel⟩
  unfold Answers403
  decide +kernel

end LiveCDN.Agent.HttpFlvRequest
