import LiveCDN.Agent.ViewerConnection
import LiveCDN.Library.ByteText

/-!
# How a connection is told apart

`main.rs`, `handle_connection`: one peek at what has arrived, into a buffer of zeros (`peek`), read
as text, decides between the WebSocket handler, the HTTP-FLV handler and plain HTTP (`handlerOf`).
On bytes the decision is whether one of two marks occurs, or three others on the first line
(`handlerOf_eq`): neither the zeros nor bytes that are no UTF-8 matter. A request that has arrived
in part goes to the handler of the whole request exactly when the marks that decide have arrived
(`handlerOf_take_iff`), and only plain HTTP does not depend on how it arrives
(`handlerOf_take_all_iff`).
-/

set_option autoImplicit false
set_option relaxedAutoImplicit false

namespace LiveCDN.Agent.ConnectionPeek

open Library.Utf8Text Library.ByteText

/-! ### The decision -/

/-- The length of the buffer. -/
def peekLen : ℕ := 4096

/-- The buffer behind the peek: the first bytes that have arrived, and zeros. -/
def peek (arrived : List UInt8) : List UInt8 :=
  arrived.take peekLen ++ List.replicate (peekLen - arrived.length) 0

/-- The handlers of a connection. -/
inductive Handler
  | websocket
  | httpFlv
  | http
  deriving DecidableEq, Repr

/-- `is_flv_request`. -/
def isFlvRequest (peekStr : Text) : Bool :=
  match (lines peekStr).head? with
  | some line => ViewerConnection.isFlvRequest line
  | none => false

/-- `handle_connection`: the handler for what has arrived at the peek. -/
def handlerOf (arrived : List UInt8) : Handler :=
  let peekStr := fromUtf8Lossy (peek arrived)
  if "Upgrade: websocket".toList <:+: peekStr ∨ "Upgrade: WebSocket".toList <:+: peekStr then
    .websocket
  else if isFlvRequest peekStr = true then .httpFlv
  else .http

/-! ### The decision on bytes -/

/-- A mark of a WebSocket handshake occurs in some bytes. -/
def HasUpgradeMark (bytes : List UInt8) : Prop :=
  asciiBytes "Upgrade: websocket".toList <:+: bytes ∨
    asciiBytes "Upgrade: WebSocket".toList <:+: bytes

/-- The first line of some bytes has the marks of an HTTP-FLV request. -/
def HasFlvMarks (bytes : List UInt8) : Prop :=
  asciiBytes ".flv".toList <:+: bytes.takeWhile (· ≠ 10) ∧
    asciiBytes "GET".toList <+: bytes.takeWhile (· ≠ 10) ∧
    (asciiBytes "/live/".toList <:+: bytes.takeWhile (· ≠ 10) ∨
      asciiBytes "/cascade/".toList <:+: bytes.takeWhile (· ≠ 10))

instance (bytes : List UInt8) : Decidable (HasUpgradeMark bytes) := instDecidableOr

instance (bytes : List UInt8) : Decidable (HasFlvMarks bytes) := instDecidableAnd

/-- What is in the buffer up to the first line feed is the first line of what has arrived, and
zeros. -/
theorem exists_takeWhile_peek (arrived : List UInt8) :
    ∃ zeros : List UInt8, (∀ byte ∈ zeros, byte = 0) ∧
      (peek arrived).takeWhile (· ≠ 10) = (arrived.take peekLen).takeWhile (· ≠ 10) ++ zeros := by
  rw [peek, List.takeWhile_append]
  split_ifs with hall
  · have hwhole : (arrived.take peekLen).takeWhile (· ≠ 10) = arrived.take peekLen :=
      (List.takeWhile_prefix _).eq_of_length hall
    rw [hwhole]
    exact ⟨_, fun byte hbyte ↦ List.eq_of_mem_replicate (List.takeWhile_subset _ hbyte), rfl⟩
  · exact ⟨[], by simp, (List.append_nil _).symm⟩

/-- A pattern of the decision: it is ASCII, has a character, and none that is a zero or a carriage
return. -/
structure IsMark (pattern : Text) : Prop where
  ascii : IsAscii pattern
  ne_nil : pattern ≠ []
  zero_notMem : 0 ∉ asciiBytes pattern
  return_notMem : '\r' ∉ pattern

/-- A mark occurs in the text of the buffer exactly when its bytes occur in what has arrived of the
first bytes. Assumes: the pattern is a mark. -/
theorem infix_peek_iff {pattern : Text} (hmark : IsMark pattern) (arrived : List UInt8) :
    pattern <:+: fromUtf8Lossy (peek arrived) ↔ asciiBytes pattern <:+: arrived.take peekLen := by
  have hbytes : asciiBytes pattern ≠ [] := by simpa [asciiBytes] using hmark.ne_nil
  rw [(readsAs_fromUtf8Lossy (peek arrived)).isInfix_iff hmark.ascii hmark.ne_nil, peek,
    infix_append_iff_of_back hbytes]
  intro byte hbyte
  rw [List.eq_of_mem_replicate hbyte]
  exact hmark.zero_notMem

/-- The buffer is read as a text that is not empty. -/
theorem fromUtf8Lossy_peek_ne_nil (arrived : List UInt8) : fromUtf8Lossy (peek arrived) ≠ [] := by
  have hlength : (peek arrived).length = peekLen := by
    rw [peek, List.length_append, List.length_take, List.length_replicate]
    omega
  cases hpeek : peek arrived with
  | nil =>
    rw [hpeek] at hlength
    exact absurd hlength (by decide)
  | cons byte bytes => exact List.cons_ne_nil _ _

/-- The first line of the buffer has the marks it is looked at for exactly when the first line of
what has arrived of the first bytes does. -/
theorem exists_firstLine (arrived : List UInt8) :
    ∃ line, (lines (fromUtf8Lossy (peek arrived))).head? = some line ∧
      ∀ pattern, IsMark pattern →
        (pattern <:+: line ↔
          asciiBytes pattern <:+: (arrived.take peekLen).takeWhile (· ≠ 10)) ∧
        (pattern <+: line ↔
          asciiBytes pattern <+: (arrived.take peekLen).takeWhile (· ≠ 10)) := by
  obtain ⟨line, ending, hline, hfront, hending⟩ :=
    exists_head?_lines (fromUtf8Lossy_peek_ne_nil arrived)
  obtain ⟨zeros, hzeros, hwhile⟩ := exists_takeWhile_peek arrived
  have hread := (readsAs_fromUtf8Lossy (peek arrived)).takeWhile_ne
  rw [hfront, hwhile] at hread
  refine ⟨line, hline, fun pattern hmark ↦ ?_⟩
  have hbytes : asciiBytes pattern ≠ [] := by simpa [asciiBytes] using hmark.ne_nil
  have hreturns : ∀ c ∈ ending, c ∉ pattern := by
    intro c hc
    rw [hending c hc]
    exact hmark.return_notMem
  have hpadding : ∀ byte ∈ zeros, byte ∉ asciiBytes pattern := by
    intro byte hbyte
    rw [hzeros byte hbyte]
    exact hmark.zero_notMem
  constructor
  · rw [← infix_append_iff_of_back hmark.ne_nil hreturns,
      hread.isInfix_iff hmark.ascii hmark.ne_nil, infix_append_iff_of_back hbytes hpadding]
  · rw [← prefix_append_iff_of_back hreturns, hread.isPrefix_iff hmark.ascii,
      prefix_append_iff_of_back hpadding]

theorem isMark_get : IsMark "GET".toList :=
  ⟨by decide +kernel, by decide +kernel, by decide +kernel, by decide +kernel⟩

theorem isMark_flv : IsMark ".flv".toList :=
  ⟨by decide +kernel, by decide +kernel, by decide +kernel, by decide +kernel⟩

theorem isMark_live : IsMark "/live/".toList :=
  ⟨by decide +kernel, by decide +kernel, by decide +kernel, by decide +kernel⟩

theorem isMark_cascade : IsMark "/cascade/".toList :=
  ⟨by decide +kernel, by decide +kernel, by decide +kernel, by decide +kernel⟩

theorem isMark_websocket : IsMark "Upgrade: websocket".toList :=
  ⟨by decide +kernel, by decide +kernel, by decide +kernel, by decide +kernel⟩

theorem isMark_webSocket : IsMark "Upgrade: WebSocket".toList :=
  ⟨by decide +kernel, by decide +kernel, by decide +kernel, by decide +kernel⟩

/-- The check for an HTTP-FLV request, on bytes. -/
theorem isFlvRequest_iff (arrived : List UInt8) :
    isFlvRequest (fromUtf8Lossy (peek arrived)) = true ↔ HasFlvMarks (arrived.take peekLen) := by
  obtain ⟨line, hline, hmarks⟩ := exists_firstLine arrived
  rw [isFlvRequest, hline]
  dsimp only
  rw [ViewerConnection.isFlvRequest, Bool.and_eq_true, Bool.and_eq_true, Bool.or_eq_true,
    decide_eq_true_eq, decide_eq_true_eq, decide_eq_true_eq, List.isPrefixOf_iff_prefix,
    (hmarks _ isMark_flv).1, (hmarks _ isMark_get).2, (hmarks _ isMark_live).1,
    (hmarks _ isMark_cascade).1, and_assoc]
  rfl

/-- The decision, on what has arrived of the first bytes. -/
theorem handlerOf_eq (arrived : List UInt8) :
    handlerOf arrived =
      if HasUpgradeMark (arrived.take peekLen) then .websocket
      else if HasFlvMarks (arrived.take peekLen) then .httpFlv
      else .http := by
  have hupgrade : "Upgrade: websocket".toList <:+: fromUtf8Lossy (peek arrived) ∨
      "Upgrade: WebSocket".toList <:+: fromUtf8Lossy (peek arrived) ↔
        HasUpgradeMark (arrived.take peekLen) :=
    or_congr (infix_peek_iff isMark_websocket arrived) (infix_peek_iff isMark_webSocket arrived)
  exact if_congr hupgrade rfl (if_congr (isFlvRequest_iff arrived) rfl rfl)

/-! ### A request that has arrived in part -/

/-- A mark that has arrived is a mark of the whole. Assumes: the first bytes start the others. -/
theorem HasUpgradeMark.mono {part whole : List UInt8} (hpart : part <+: whole)
    (hmark : HasUpgradeMark part) : HasUpgradeMark whole :=
  hmark.imp (fun hinfix ↦ hinfix.trans hpart.isInfix) fun hinfix ↦ hinfix.trans hpart.isInfix

/-- The first line of a part starts the first line of the whole. -/
theorem takeWhile_prefix_takeWhile {part whole : List UInt8} (hpart : part <+: whole) :
    part.takeWhile (· ≠ 10) <+: whole.takeWhile (· ≠ 10) := by
  obtain ⟨rest, rfl⟩ := hpart
  rw [List.takeWhile_append]
  split_ifs with hall
  · rw [(List.takeWhile_prefix _).eq_of_length hall]
    exact List.prefix_append _ _
  · exact List.prefix_rfl

/-- The marks of a first line that has arrived are marks of the whole first line. Assumes: the first
bytes start the others. -/
theorem HasFlvMarks.mono {part whole : List UInt8} (hpart : part <+: whole)
    (hmarks : HasFlvMarks part) : HasFlvMarks whole := by
  have hline := takeWhile_prefix_takeWhile hpart
  obtain ⟨hflv, hget, hpath⟩ := hmarks
  exact ⟨hflv.trans hline.isInfix, hget.trans hline,
    hpath.imp (fun hinfix ↦ hinfix.trans hline.isInfix) fun hinfix ↦ hinfix.trans hline.isInfix⟩

/-- A request of which the first bytes have arrived goes to the handler of the whole request exactly
when, within the length of the buffer, a mark of a WebSocket handshake is among these bytes if the
request has one, and otherwise the marks of an HTTP-FLV request are among them if its first line
has them. -/
theorem handlerOf_take_iff (request : List UInt8) (count : ℕ) :
    handlerOf (request.take count) = handlerOf request ↔
      (HasUpgradeMark (request.take peekLen) →
        HasUpgradeMark ((request.take peekLen).take count)) ∧
      (¬ HasUpgradeMark (request.take peekLen) → HasFlvMarks (request.take peekLen) →
        HasFlvMarks ((request.take peekLen).take count)) := by
  have hpart : (request.take peekLen).take count <+: request.take peekLen :=
    List.take_prefix count _
  rw [handlerOf_eq, handlerOf_eq, List.take_take, min_comm, ← List.take_take]
  by_cases hupgrade : HasUpgradeMark (request.take peekLen)
  · rw [if_pos hupgrade]
    by_cases harrived : HasUpgradeMark ((request.take peekLen).take count)
    · rw [if_pos harrived]
      exact iff_of_true rfl ⟨fun _ ↦ harrived, fun hnone ↦ absurd hupgrade hnone⟩
    · rw [if_neg harrived]
      refine iff_of_false ?_ fun hboth ↦ harrived (hboth.1 hupgrade)
      split_ifs <;> exact nofun
  · have harrived : ¬ HasUpgradeMark ((request.take peekLen).take count) :=
      fun hmark ↦ hupgrade (hmark.mono hpart)
    rw [if_neg hupgrade, if_neg harrived]
    by_cases hflv : HasFlvMarks (request.take peekLen)
    · rw [if_pos hflv]
      by_cases hpart : HasFlvMarks ((request.take peekLen).take count)
      · rw [if_pos hpart]
        exact iff_of_true rfl ⟨fun hmark ↦ absurd hmark hupgrade, fun _ _ ↦ hpart⟩
      · rw [if_neg hpart]
        exact iff_of_false nofun fun hboth ↦ hpart (hboth.2 hupgrade hflv)
    · have hpart : ¬ HasFlvMarks ((request.take peekLen).take count) :=
        fun hmarks ↦ hflv (hmarks.mono hpart)
      rw [if_neg hflv, if_neg hpart]
      exact iff_of_true rfl ⟨fun hmark ↦ absurd hmark hupgrade, fun _ hmarks ↦ absurd hmarks hflv⟩

/-- In one byte there is no mark. -/
theorem not_hasMarks_take_one (bytes : List UInt8) :
    ¬ HasUpgradeMark (bytes.take 1) ∧ ¬ HasFlvMarks (bytes.take 1) := by
  have hshort {pattern : List UInt8} (hpattern : pattern <:+: bytes.take 1) :
      pattern.length ≤ 1 :=
    hpattern.length_le.trans (List.length_take_le 1 bytes)
  constructor
  · rintro (hmark | hmark)
    · exact absurd (hshort hmark) (by decide +kernel)
    · exact absurd (hshort hmark) (by decide +kernel)
  · rintro ⟨hflv, -, -⟩
    exact absurd (hshort (hflv.trans (List.takeWhile_prefix _).isInfix)) (by decide +kernel)

/-- A request goes to the same handler however much of it has arrived exactly when it is plain
HTTP. -/
theorem handlerOf_take_all_iff (request : List UInt8) :
    (∀ count, 0 < count → handlerOf (request.take count) = handlerOf request) ↔
      handlerOf request = .http := by
  constructor
  · intro hall
    have hone := (handlerOf_take_iff request 1).mp (hall 1 Nat.one_pos)
    have hnone := not_hasMarks_take_one (request.take peekLen)
    have hupgrade : ¬ HasUpgradeMark (request.take peekLen) :=
      fun hmark ↦ hnone.1 (hone.1 hmark)
    have hflv : ¬ HasFlvMarks (request.take peekLen) :=
      fun hmarks ↦ hnone.2 (hone.2 hupgrade hmarks)
    rw [handlerOf_eq, if_neg hupgrade, if_neg hflv]
  · intro hhttp count _
    have hmarks : ¬ HasUpgradeMark (request.take peekLen) ∧
        ¬ HasFlvMarks (request.take peekLen) := by
      rw [handlerOf_eq] at hhttp
      split_ifs at hhttp with hupgrade hflv
      exact ⟨hupgrade, hflv⟩
    exact (handlerOf_take_iff request count).mpr
      ⟨fun hmark ↦ absurd hmark hmarks.1, fun _ hflv ↦ absurd hflv hmarks.2⟩

/-- The request of a viewer for a stream. -/
def flvRequest : List UInt8 :=
  asciiBytes "GET /live/room.flv HTTP/1.1\r\nHost: edge\r\n\r\n".toList

/-- The handshake of a player. -/
def websocketRequest : List UInt8 :=
  asciiBytes "GET /ws/live HTTP/1.1\r\nHost: edge\r\nUpgrade: websocket\r\n\r\n".toList

/-- The two requests go to plain HTTP when twelve bytes, or the line with the host, have arrived. -/
theorem handlerOf_take_counterexample :
    (handlerOf flvRequest = .httpFlv ∧ handlerOf (flvRequest.take 12) = .http) ∧
      (handlerOf websocketRequest = .websocket ∧ handlerOf (websocketRequest.take 35) = .http) := by
  rw [handlerOf_eq, handlerOf_eq, handlerOf_eq, handlerOf_eq]
  decide +kernel

end LiveCDN.Agent.ConnectionPeek
