import LiveCDN.Library.GuardedRun
import LiveCDN.Library.Slot

/-!
# What the player page has open

`web/player.html`: `startPlayback` asks the controller for a session, plays in the chosen mode or in
one it falls back to, and starts the timers; `stopPlayback` closes what the page's variables hold.
Calls of `startPlayback` wait for the dispatch, for a media source and for a socket, and between
these waits come other calls, the buttons, the start on load and the network (`step`).

In every state of a run either nothing is open, or the Stop button is enabled and a Stop closes all
that is, exactly when each call that goes on finds the button enabled and none of the things it
opens open, and each call that fails finds nothing open (`stoppable_iff`). So a Stop while a call
waits does not end the call, and what it opens later is out of reach. The Stop meant here is one
whose `endOfStream` does not throw; a run also takes those that do, and they leave the session and
the timers open and the button enabled. The timer of the playback rate is
the exception: it is cleared before it is started, and no order of steps leaves one behind
(`rateHeld_run`).

Scope. Sessions, players, sockets and timers are numbered in the order in which they are opened. The
texts of the page, what the players do with the stream, and the reports of the timer are left out.
-/

set_option autoImplicit false
set_option relaxedAutoImplicit false

namespace LiveCDN.Player.PlaybackSession

open Library Library.GuardedRun

/-! ### The page -/

/-- The variables that hold what the page has open. -/
inductive Kind
  | sessionId
  | mpegtsPlayer
  | hlsPlayer
  | ws
  | qualityReportTimer
  | playbackRateTimer
  deriving DecidableEq, Repr

/-- The modes that a call plays in. -/
inductive Mode
  | httpFlv
  | wsFlv
  | hls
  | wsEncrypted
  deriving DecidableEq, Repr

/-- What a call of `startPlayback` waits for: the dispatch, the media source, or its socket. -/
inductive Phase
  | dispatching
  | openingSource
  | connecting (socket : ℕ)
  | returned
  deriving DecidableEq, Repr

/-- A call of `startPlayback`. -/
structure Call where
  mode : Mode
  phase : Phase
  deriving DecidableEq, Repr

/-- What the browser can play: with mpegts.js, with hls.js, HLS by itself, and media sources. -/
structure Browser where
  mpegts : Bool
  hls : Bool
  nativeHls : Bool
  mediaSource : Bool
  deriving DecidableEq, Repr

/-- The page, with the call whose media source the video element shows, whether the buttons are
disabled, and whether the start on load is still to come. -/
structure Page where
  slots : Kind → Slot
  attached : Option ℕ
  calls : List Call
  connectDisabled : Bool
  stopDisabled : Bool
  autoStart : Bool

/-- The page as it is loaded. -/
def Page.initial (autoStart : Bool) : Page := ⟨fun _ ↦ .empty, none, [], false, true, autoStart⟩

/-- The page opens a thing and keeps it in the variable. -/
def Page.put (page : Page) (kind : Kind) : Page :=
  { page with slots := Function.update page.slots kind (page.slots kind).put }

/-- The page closes what the variable holds, and clears it. -/
def Page.release (page : Page) (kind : Kind) : Page :=
  { page with slots := Function.update page.slots kind (page.slots kind).release }

/-- A thing goes by itself. -/
def Page.drop (page : Page) (kind : Kind) (handle : ℕ) : Page :=
  { page with slots := Function.update page.slots kind ((page.slots kind).drop handle) }

/-- A call goes on to its next wait, or returns. -/
def Page.setPhase (page : Page) (call : ℕ) (phase : Phase) : Page :=
  { page with calls := page.calls.modify call fun earlier ↦ { earlier with phase := phase } }

/-- What the controller answers to a dispatch: an error, or a session with or without nodes. -/
inductive Reply
  | refused
  | answered (hasNodes : Bool)
  deriving DecidableEq, Repr

/-- The buttons, with whether token and stream are given, the mode that is chosen (none where it is
`auto`), and whether `endOfStream` would throw; the start on load; the answers that calls wait for;
and what closes by itself. -/
inductive Action
  | clickConnect (given : Bool) (choice : Option Mode)
  | startOnLoad (given : Bool) (choice : Option Mode)
  | clickStop (throws : Bool)
  | dispatched (call : ℕ) (reply : Reply)
  | sourceSettles (call : ℕ) (connects : Bool)
  | socketOpens (call : ℕ)
  | socketFails (call : ℕ)
  | socketCloses (socket : ℕ)
  | hlsFails (player : ℕ)
  deriving DecidableEq, Repr

/-! ### Playing -/

section Steps

variable (browser : Browser)

/-- `detectBestMode`. -/
def detectBestMode : Mode :=
  if browser.mpegts then .httpFlv
  else if browser.hls || browser.nativeHls then .hls
  else .wsEncrypted

/-- `startPlaybackRateControl`. -/
def startPlaybackRateControl (page : Page) : Page :=
  (page.release .playbackRateTimer).put .playbackRateTimer

/-- The end of `startPlayback` after a mode plays. -/
def playing (page : Page) (call : ℕ) : Page :=
  ((startPlaybackRateControl page).put .qualityReportTimer).setPhase call .returned

/-- The end of `startPlayback` after an error. -/
def failed (page : Page) (call : ℕ) : Page :=
  { page.setPhase call .returned with connectDisabled := false, stopDisabled := true }

/-- `playHTTP_FLV` and `playWS_FLV`, none where they throw. -/
def playFlv (page : Page) : Option Page :=
  if browser.mpegts then some { page.put .mpegtsPlayer with attached := none } else none

/-- `playLLHLS`, none where it throws. -/
def playLLHLS (page : Page) : Option Page :=
  if browser.hls then some { page.put .hlsPlayer with attached := none }
  else if browser.nativeHls then some { page with attached := none }
  else none

/-- What `startPlayback` does when `playWSEncrypted` throws. -/
def afterSocket (page : Page) (call : ℕ) (mode : Mode) : Page :=
  if mode = .wsEncrypted then (playLLHLS browser page).elim (failed page call) (playing · call)
  else failed page call

/-- `playWSEncrypted` up to its first wait. -/
def playWSEncrypted (page : Page) (call : ℕ) (mode : Mode) : Page :=
  if browser.mediaSource then { page.setPhase call .openingSource with attached := some call }
  else afterSocket browser page call mode

/-- The modes of `startPlayback`, and those it falls back to. -/
def playMode (page : Page) (call : ℕ) (mode : Mode) : Page :=
  match mode with
  | .httpFlv | .wsFlv =>
    (playFlv browser page).elim
      ((playLLHLS browser page).elim (playWSEncrypted browser page call mode) (playing · call))
      (playing · call)
  | .hls =>
    (playLLHLS browser page).elim (playWSEncrypted browser page call mode) (playing · call)
  | .wsEncrypted => playWSEncrypted browser page call mode

/-- `startPlayback` up to the dispatch. -/
def startPlayback (page : Page) (given : Bool) (choice : Option Mode) : Page :=
  if given then
    { page with
      calls := page.calls ++ [⟨choice.getD (detectBestMode browser), .dispatching⟩]
      connectDisabled := true
      stopDisabled := false }
  else page

/-- `stopPlayback`. It is left after the players and the socket where `endOfStream` throws, which it
does while the buffer of an open media source is updating. -/
def stopPlayback (page : Page) (throws : Bool) : Page :=
  let closed := ((page.release .mpegtsPlayer).release .hlsPlayer).release .ws
  if throws && page.attached.isSome then closed
  else
    { ((closed.release .qualityReportTimer).release .sessionId).release .playbackRateTimer with
      attached := none
      connectDisabled := false
      stopDisabled := true }

/-- One step. -/
def step (page : Page) : Action → Page
  | .clickConnect given choice =>
    if page.connectDisabled then page else startPlayback browser page given choice
  | .startOnLoad given choice =>
    if page.autoStart then startPlayback browser { page with autoStart := false } given choice
    else page
  | .clickStop throws => if page.stopDisabled then page else stopPlayback page throws
  | .dispatched call reply =>
    match page.calls[call]? with
    | some ⟨mode, .dispatching⟩ =>
      match reply with
      | .refused => failed page call
      | .answered hasNodes =>
        if hasNodes then playMode browser (page.put .sessionId) call mode
        else failed (page.put .sessionId) call
    | _ => page
  | .sourceSettles call connects =>
    match page.calls[call]? with
    | some ⟨mode, .openingSource⟩ =>
      -- only the media source that the video element shows settles
      if page.attached = some call then
        if connects then
          (page.put .ws).setPhase call (.connecting (page.slots .ws).made)
        else afterSocket browser page call mode
      else page
    | _ => page
  | .socketOpens call =>
    match page.calls[call]? with
    | some ⟨_, .connecting socket⟩ =>
      if socket ∈ (page.slots .ws).live then playing page call else page
    | _ => page
  | .socketFails call =>
    match page.calls[call]? with
    | some ⟨mode, .connecting socket⟩ => afterSocket browser (page.drop .ws socket) call mode
    | _ => page
  | .socketCloses socket => page.drop .ws socket
  | .hlsFails player => page.drop .hlsPlayer player

end Steps

/-! ### What the Stop button reaches -/

/-- Nothing is open. -/
def Closed (page : Page) : Prop := ∀ kind, (page.slots kind).live = ∅

/-- Nothing is open, or the Stop button is enabled and a Stop whose `endOfStream` does not throw
closes all that is. -/
def Stoppable (page : Page) : Prop :=
  Closed page ∨ page.stopDisabled = false ∧ Closed (stopPlayback page false)

/-- The page's variables hold all that is open. -/
def AllHeld (page : Page) : Prop := ∀ kind, (page.slots kind).Held

/-- What a call opens that plays HLS, none where the browser cannot. -/
def openedByHls (browser : Browser) : Option (List Kind) :=
  if browser.hls then some [.hlsPlayer, .qualityReportTimer]
  else if browser.nativeHls then some [.qualityReportTimer]
  else none

/-- What a call opens when it has no socket, none where it fails. -/
def openedAfterSocket (browser : Browser) (mode : Mode) : Option (List Kind) :=
  if mode = .wsEncrypted then openedByHls browser else none

/-- What a call opens before its first wait for a media source, none where it fails. -/
def openedBySocket (browser : Browser) (mode : Mode) : Option (List Kind) :=
  if browser.mediaSource then some [] else openedAfterSocket browser mode

/-- What a call opens when it has its nodes, until it waits again or returns, none where it
fails. -/
def openedByMode (browser : Browser) : Mode → Option (List Kind)
  | .httpFlv =>
    if browser.mpegts then some [.mpegtsPlayer, .qualityReportTimer]
    else (openedByHls browser).or (openedBySocket browser .httpFlv)
  | .wsFlv =>
    if browser.mpegts then some [.mpegtsPlayer, .qualityReportTimer]
    else (openedByHls browser).or (openedBySocket browser .wsFlv)
  | .hls => (openedByHls browser).or (openedBySocket browser .hls)
  | .wsEncrypted => openedBySocket browser .wsEncrypted

/-- A call that goes on finds the Stop button enabled and nothing open of the kinds that it opens,
and one that fails finds nothing open. -/
def Finds (page : Page) (opened : Option (List Kind)) : Prop :=
  opened.elim (Closed page) fun kinds ↦
    page.stopDisabled = false ∧ ∀ kind ∈ kinds, (page.slots kind).live = ∅

/-- What a step finds. The session of an answer counts as open for the rest of the step. -/
def Safe (browser : Browser) (page : Page) : Action → Prop
  | .dispatched call .refused =>
    ∀ mode, page.calls[call]? = some ⟨mode, .dispatching⟩ → Finds page none
  | .dispatched call (.answered hasNodes) =>
    ∀ mode, page.calls[call]? = some ⟨mode, .dispatching⟩ →
      (page.slots .sessionId).live = ∅ ∧
        Finds (page.put .sessionId) (if hasNodes then openedByMode browser mode else none)
  | .sourceSettles call connects =>
    ∀ mode, page.calls[call]? = some ⟨mode, .openingSource⟩ → page.attached = some call →
      Finds page (if connects then some [.ws] else openedAfterSocket browser mode)
  | .socketOpens call =>
    ∀ mode socket, page.calls[call]? = some ⟨mode, .connecting socket⟩ →
      socket ∈ (page.slots .ws).live → Finds page (some [.qualityReportTimer])
  | .socketFails call =>
    ∀ mode socket, page.calls[call]? = some ⟨mode, .connecting socket⟩ →
      Finds (page.drop .ws socket) (openedAfterSocket browser mode)
  | _ => True

/-! ### The variables after a step -/

section Variables

variable {page other : Page} {kind : Kind}

theorem slots_put (page : Page) (kind read : Kind) :
    (page.put kind).slots read =
      if read = kind then (page.slots kind).put else page.slots read :=
  Function.update_apply _ _ _ _

theorem allHeld_of_closed (hpage : Closed page) : AllHeld page :=
  fun kind ↦ Slot.held_of_live_eq_empty (hpage kind)

/-- The variables hold all that is open after an opening exactly when they did, and nothing of the
kind was open. -/
theorem allHeld_put_iff :
    AllHeld (page.put kind) ↔ (page.slots kind).live = ∅ ∧ AllHeld page := by
  constructor
  · intro hput
    have hnone : (page.slots kind).live = ∅ := by
      have hkind := hput kind
      rw [slots_put, if_pos rfl] at hkind
      exact Slot.held_put_iff.mp hkind
    refine ⟨hnone, fun read ↦ ?_⟩
    by_cases hread : read = kind
    · rw [hread]
      exact Slot.held_of_live_eq_empty hnone
    · have hother := hput read
      rw [slots_put, if_neg hread] at hother
      exact hother
  · rintro ⟨hnone, hpage⟩ read
    rw [slots_put]
    split_ifs
    · exact Slot.held_put_iff.mpr hnone
    · exact hpage read

theorem not_closed_put (page : Page) (kind : Kind) : ¬ Closed (page.put kind) := by
  intro hclosed
  have hkind := hclosed kind
  rw [slots_put, if_pos rfl] at hkind
  exact Slot.live_put_ne_empty _ hkind

theorem allHeld_release (hpage : AllHeld page) (kind : Kind) : AllHeld (page.release kind) := by
  intro read
  change (Function.update page.slots kind (page.slots kind).release read).Held
  rw [Function.update_apply]
  split_ifs
  · exact Slot.held_release (hpage kind)
  · exact hpage read

theorem allHeld_drop (hpage : AllHeld page) (kind : Kind) (handle : ℕ) :
    AllHeld (page.drop kind handle) := by
  intro read
  change (Function.update page.slots kind ((page.slots kind).drop handle) read).Held
  rw [Function.update_apply]
  split_ifs
  · exact (hpage kind).drop handle
  · exact hpage read

theorem closed_drop (hpage : Closed page) (kind : Kind) (handle : ℕ) :
    Closed (page.drop kind handle) := by
  intro read
  change (Function.update page.slots kind ((page.slots kind).drop handle) read).live = ∅
  rw [Function.update_apply]
  split_ifs
  · change (page.slots kind).live.erase handle = ∅
    rw [hpage kind, Finset.erase_empty]
  · exact hpage read

/-- The timer of the playback rate is cleared before it is started, so that starting it changes
nothing. -/
theorem allHeld_startPlaybackRateControl_iff :
    AllHeld (startPlaybackRateControl page) ↔ AllHeld page := by
  refine forall_congr' fun read ↦ ?_
  rw [startPlaybackRateControl, slots_put]
  change (if read = .playbackRateTimer
      then (Function.update page.slots .playbackRateTimer _ .playbackRateTimer).put
      else Function.update page.slots .playbackRateTimer _ read).Held ↔ (page.slots read).Held
  rw [Function.update_self, Function.update_apply]
  split_ifs with hread
  · rw [hread]
    exact Slot.held_release_put_iff
  · exact Iff.rfl

theorem slots_stopPlayback (page : Page) (kind : Kind) :
    (stopPlayback page false).slots kind = (page.slots kind).release := by
  cases kind <;> rfl

/-- Stop closes all that is open exactly when the variables hold it. -/
theorem closed_stopPlayback_iff : Closed (stopPlayback page false) ↔ AllHeld page := by
  refine forall_congr' fun kind ↦ ?_
  rw [slots_stopPlayback, Slot.live_release_eq_empty_iff]

theorem stoppable_iff_allHeld :
    Stoppable page ↔ AllHeld page ∧ (Closed page ∨ page.stopDisabled = false) := by
  rw [Stoppable, closed_stopPlayback_iff]
  constructor
  · rintro (hclosed | ⟨henabled, hpage⟩)
    · exact ⟨allHeld_of_closed hclosed, Or.inl hclosed⟩
    · exact ⟨hpage, Or.inr henabled⟩
  · rintro ⟨hpage, hclosed | henabled⟩
    · exact Or.inl hclosed
    · exact Or.inr ⟨henabled, hpage⟩

end Variables

/-! ### What an answer does -/

section Answers

variable (browser : Browser) (page : Page) (call : ℕ)

/-- An error answers a call that waits for the dispatch, or changes nothing. -/
theorem step_refused :
    (∃ mode, page.calls[call]? = some ⟨mode, .dispatching⟩ ∧
      step browser page (.dispatched call .refused) = failed page call) ∨
    (∀ mode, page.calls[call]? ≠ some ⟨mode, .dispatching⟩) ∧
      step browser page (.dispatched call .refused) = page := by
  rw [step]
  cases page.calls[call]? with
  | none => exact Or.inr ⟨nofun, rfl⟩
  | some waiting =>
    obtain ⟨mode, phase⟩ := waiting
    cases phase with
    | dispatching => exact Or.inl ⟨mode, rfl, rfl⟩
    | openingSource => exact Or.inr ⟨nofun, rfl⟩
    | connecting socket => exact Or.inr ⟨nofun, rfl⟩
    | returned => exact Or.inr ⟨nofun, rfl⟩

/-- A session answers a call that waits for the dispatch, or changes nothing. -/
theorem step_answered (hasNodes : Bool) :
    (∃ mode, page.calls[call]? = some ⟨mode, .dispatching⟩ ∧
      step browser page (.dispatched call (.answered hasNodes)) =
        if hasNodes then playMode browser (page.put .sessionId) call mode
        else failed (page.put .sessionId) call) ∨
    (∀ mode, page.calls[call]? ≠ some ⟨mode, .dispatching⟩) ∧
      step browser page (.dispatched call (.answered hasNodes)) = page := by
  rw [step]
  cases page.calls[call]? with
  | none => exact Or.inr ⟨nofun, rfl⟩
  | some waiting =>
    obtain ⟨mode, phase⟩ := waiting
    cases phase with
    | dispatching => exact Or.inl ⟨mode, rfl, rfl⟩
    | openingSource => exact Or.inr ⟨nofun, rfl⟩
    | connecting socket => exact Or.inr ⟨nofun, rfl⟩
    | returned => exact Or.inr ⟨nofun, rfl⟩

/-- A media source settles for the call that it is attached for, or nothing changes. -/
theorem step_sourceSettles (connects : Bool) :
    (∃ mode, page.calls[call]? = some ⟨mode, .openingSource⟩ ∧ page.attached = some call ∧
      step browser page (.sourceSettles call connects) =
        if connects then (page.put .ws).setPhase call (.connecting (page.slots .ws).made)
        else afterSocket browser page call mode) ∨
    (∀ mode, page.calls[call]? = some ⟨mode, .openingSource⟩ → page.attached ≠ some call) ∧
      step browser page (.sourceSettles call connects) = page := by
  rw [step]
  cases page.calls[call]? with
  | none => exact Or.inr ⟨nofun, rfl⟩
  | some waiting =>
    obtain ⟨mode, phase⟩ := waiting
    cases phase with
    | openingSource =>
      dsimp only
      by_cases hattached : page.attached = some call
      · exact Or.inl ⟨mode, rfl, hattached, if_pos hattached⟩
      · exact Or.inr ⟨fun _ _ ↦ hattached, if_neg hattached⟩
    | dispatching => exact Or.inr ⟨nofun, rfl⟩
    | connecting socket => exact Or.inr ⟨nofun, rfl⟩
    | returned => exact Or.inr ⟨nofun, rfl⟩

/-- A socket that is not closed opens for the call that waits for it, or nothing changes. -/
theorem step_socketOpens :
    (∃ mode socket, page.calls[call]? = some ⟨mode, .connecting socket⟩ ∧
      socket ∈ (page.slots .ws).live ∧
      step browser page (.socketOpens call) = playing page call) ∨
    (∀ mode socket, page.calls[call]? = some ⟨mode, .connecting socket⟩ →
      socket ∉ (page.slots .ws).live) ∧
      step browser page (.socketOpens call) = page := by
  rw [step]
  cases page.calls[call]? with
  | none => exact Or.inr ⟨nofun, rfl⟩
  | some waiting =>
    obtain ⟨mode, phase⟩ := waiting
    cases phase with
    | connecting socket =>
      dsimp only
      by_cases hlive : socket ∈ (page.slots .ws).live
      · exact Or.inl ⟨mode, socket, rfl, hlive, if_pos hlive⟩
      · refine Or.inr ⟨fun _ other hcall ↦ ?_, if_neg hlive⟩
        cases hcall
        exact hlive
    | dispatching => exact Or.inr ⟨nofun, rfl⟩
    | openingSource => exact Or.inr ⟨nofun, rfl⟩
    | returned => exact Or.inr ⟨nofun, rfl⟩

/-- A socket fails for the call that waits for it, or nothing changes. -/
theorem step_socketFails :
    (∃ mode socket, page.calls[call]? = some ⟨mode, .connecting socket⟩ ∧
      step browser page (.socketFails call) =
        afterSocket browser (page.drop .ws socket) call mode) ∨
    (∀ mode socket, page.calls[call]? ≠ some ⟨mode, .connecting socket⟩) ∧
      step browser page (.socketFails call) = page := by
  rw [step]
  cases page.calls[call]? with
  | none => exact Or.inr ⟨nofun, rfl⟩
  | some waiting =>
    obtain ⟨mode, phase⟩ := waiting
    cases phase with
    | connecting socket => exact Or.inl ⟨mode, socket, rfl, rfl⟩
    | dispatching => exact Or.inr ⟨nofun, rfl⟩
    | openingSource => exact Or.inr ⟨nofun, rfl⟩
    | returned => exact Or.inr ⟨nofun, rfl⟩

end Answers

/-! ### One step -/

section OneStep

variable {browser : Browser} {page : Page} {call : ℕ} {mode : Mode}

theorem finds_some_iff {kinds : List Kind} :
    Finds page (some kinds) ↔
      page.stopDisabled = false ∧ ∀ kind ∈ kinds, (page.slots kind).live = ∅ := Iff.rfl

theorem stoppable_failed_iff : Stoppable (failed page call) ↔ Closed page := by
  rw [stoppable_iff_allHeld]
  constructor
  · rintro ⟨-, hclosed | henabled⟩
    · exact hclosed
    · exact Bool.noConfusion henabled
  · intro hclosed
    exact ⟨allHeld_of_closed hclosed, Or.inl hclosed⟩

theorem stoppable_playing_iff :
    Stoppable (playing page call) ↔
      AllHeld page ∧ Finds page (some [.qualityReportTimer]) := by
  have hopen : ¬ Closed (playing page call) :=
    not_closed_put (startPlaybackRateControl page) .qualityReportTimer
  have hheld : AllHeld (playing page call) ↔
      (page.slots .qualityReportTimer).live = ∅ ∧ AllHeld page :=
    allHeld_put_iff.trans (and_congr_right fun _ ↦ allHeld_startPlaybackRateControl_iff)
  have hstop : (playing page call).stopDisabled = page.stopDisabled := rfl
  rw [stoppable_iff_allHeld, or_iff_right hopen, hheld, hstop, finds_some_iff,
    List.forall_mem_singleton]
  tauto

/-- A call that plays with a player of its own. -/
theorem stoppable_playing_put_iff (kind : Kind) (hkind : kind ≠ .qualityReportTimer)
    {shown : Page} (hslots : shown.slots = (page.put kind).slots)
    (hstop : shown.stopDisabled = page.stopDisabled) :
    Stoppable (playing shown call) ↔
      AllHeld page ∧ Finds page (some [kind, .qualityReportTimer]) := by
  have hheld : AllHeld shown ↔ (page.slots kind).live = ∅ ∧ AllHeld page := by
    rw [AllHeld, hslots]
    exact allHeld_put_iff
  have htimer : shown.slots .qualityReportTimer = page.slots .qualityReportTimer := by
    rw [hslots, slots_put, if_neg hkind.symm]
  rw [stoppable_playing_iff, hheld, finds_some_iff, finds_some_iff, hstop,
    List.forall_mem_singleton, htimer, List.forall_mem_cons, List.forall_mem_singleton]
  tauto

/-- A call that falls back to HLS. -/
theorem stoppable_playLLHLS_iff (elsewhere : Page) :
    Stoppable ((playLLHLS browser page).elim elsewhere (playing · call)) ↔
      (openedByHls browser).elim (Stoppable elsewhere) fun kinds ↦
        AllHeld page ∧ Finds page (some kinds) := by
  rw [playLLHLS, openedByHls]
  split_ifs
  · exact stoppable_playing_put_iff .hlsPlayer (by decide) rfl rfl
  · exact stoppable_playing_iff
  · exact Iff.rfl

theorem stoppable_afterSocket_iff :
    Stoppable (afterSocket browser page call mode) ↔
      AllHeld page ∧ Finds page (openedAfterSocket browser mode) := by
  have hfails : Stoppable (failed page call) ↔ AllHeld page ∧ Finds page none :=
    stoppable_failed_iff.trans (and_iff_right_of_imp allHeld_of_closed).symm
  rw [afterSocket, openedAfterSocket]
  split_ifs
  · rw [stoppable_playLLHLS_iff]
    cases openedByHls browser with
    | none => exact hfails
    | some kinds => exact Iff.rfl
  · exact hfails

/-- A call that takes the socket. Assumes: something is open. -/
theorem stoppable_playWSEncrypted_iff (hopen : ¬ Closed page) :
    Stoppable (playWSEncrypted browser page call mode) ↔
      AllHeld page ∧ Finds page (openedBySocket browser mode) := by
  rw [playWSEncrypted, openedBySocket]
  split_ifs
  · rw [stoppable_iff_allHeld]
    refine and_congr_right fun _ ↦ (or_iff_right hopen).trans ?_
    exact (and_iff_left (List.forall_mem_nil _)).symm
  · exact stoppable_afterSocket_iff

/-- A call that has its nodes. Assumes: something is open. -/
theorem stoppable_playMode_iff (hopen : ¬ Closed page) :
    Stoppable (playMode browser page call mode) ↔
      AllHeld page ∧ Finds page (openedByMode browser mode) := by
  have hfalls : ∀ own : Mode,
      Stoppable ((playLLHLS browser page).elim (playWSEncrypted browser page call own)
          (playing · call)) ↔
        AllHeld page ∧ Finds page ((openedByHls browser).or (openedBySocket browser own)) := by
    intro own
    rw [stoppable_playLLHLS_iff]
    cases openedByHls browser with
    | none => exact stoppable_playWSEncrypted_iff hopen
    | some kinds => exact Iff.rfl
  cases mode with
  | httpFlv =>
    rw [playMode, playFlv, openedByMode]
    split_ifs
    · exact stoppable_playing_put_iff .mpegtsPlayer (by decide) rfl rfl
    · exact hfalls .httpFlv
  | wsFlv =>
    rw [playMode, playFlv, openedByMode]
    split_ifs
    · exact stoppable_playing_put_iff .mpegtsPlayer (by decide) rfl rfl
    · exact hfalls .wsFlv
  | hls => exact hfalls .hls
  | wsEncrypted => exact stoppable_playWSEncrypted_iff hopen

/-- The buttons, and what closes by itself, keep all that is open in the reach of Stop. -/
theorem stoppable_startPlayback (hpage : Stoppable page) (given : Bool) (choice : Option Mode) :
    Stoppable (startPlayback browser page given choice) := by
  rw [startPlayback]
  split_ifs
  · exact stoppable_iff_allHeld.mpr ⟨(stoppable_iff_allHeld.mp hpage).1, Or.inr rfl⟩
  · exact hpage

theorem stoppable_stopPlayback (hpage : Stoppable page) (henabled : page.stopDisabled = false)
    (throws : Bool) : Stoppable (stopPlayback page throws) := by
  have hheld : AllHeld page := (stoppable_iff_allHeld.mp hpage).1
  by_cases hthrows : (throws && page.attached.isSome) = true
  · rw [stopPlayback, if_pos hthrows]
    refine stoppable_iff_allHeld.mpr ⟨?_, Or.inr henabled⟩
    exact allHeld_release (allHeld_release (allHeld_release hheld _) _) _
  · have hcomplete : stopPlayback page throws = stopPlayback page false := by
      rw [stopPlayback, if_neg hthrows]
      rfl
    rw [hcomplete]
    exact Or.inl (closed_stopPlayback_iff.mpr hheld)

theorem stoppable_drop (hpage : Stoppable page) (kind : Kind) (handle : ℕ) :
    Stoppable (page.drop kind handle) := by
  obtain ⟨hheld, hreach⟩ := stoppable_iff_allHeld.mp hpage
  refine stoppable_iff_allHeld.mpr ⟨allHeld_drop hheld kind handle, ?_⟩
  exact hreach.imp_left fun hclosed ↦ closed_drop hclosed kind handle

theorem safe_refused_iff (hpage : Stoppable page) (call : ℕ) :
    Stoppable (step browser page (.dispatched call .refused)) ↔
      Safe browser page (.dispatched call .refused) := by
  rcases step_refused browser page call with ⟨mode, hcall, hstep⟩ | ⟨hnone, hstep⟩
  · rw [hstep, stoppable_failed_iff]
    exact ⟨fun hclosed _ _ ↦ hclosed, fun hsafe ↦ hsafe mode hcall⟩
  · rw [hstep]
    exact iff_of_true hpage fun mode hcall ↦ absurd hcall (hnone mode)

theorem safe_answered_iff (hpage : Stoppable page) (call : ℕ) (hasNodes : Bool) :
    Stoppable (step browser page (.dispatched call (.answered hasNodes))) ↔
      Safe browser page (.dispatched call (.answered hasNodes)) := by
  have hheld : AllHeld (page.put .sessionId) ↔ (page.slots .sessionId).live = ∅ :=
    allHeld_put_iff.trans (and_iff_left (stoppable_iff_allHeld.mp hpage).1)
  have hopen : ¬ Closed (page.put .sessionId) := not_closed_put page .sessionId
  rcases step_answered browser page call hasNodes with ⟨mode, hcall, hstep⟩ | ⟨hnone, hstep⟩
  · have hgoes : Stoppable (if hasNodes = true
          then playMode browser (page.put .sessionId) call mode
          else failed (page.put .sessionId) call) ↔
        (page.slots .sessionId).live = ∅ ∧
          Finds (page.put .sessionId) (if hasNodes then openedByMode browser mode else none) := by
      split_ifs
      · rw [stoppable_playMode_iff hopen, hheld]
      · exact stoppable_failed_iff.trans (iff_of_false hopen fun hfinds ↦ hopen hfinds.2)
    rw [hstep, hgoes]
    refine ⟨fun hfinds other hother ↦ ?_, fun hsafe ↦ hsafe mode hcall⟩
    cases hcall.symm.trans hother
    exact hfinds
  · rw [hstep]
    exact iff_of_true hpage fun mode hcall ↦ absurd hcall (hnone mode)

theorem safe_sourceSettles_iff (hpage : Stoppable page) (call : ℕ) (connects : Bool) :
    Stoppable (step browser page (.sourceSettles call connects)) ↔
      Safe browser page (.sourceSettles call connects) := by
  have hheld : AllHeld page := (stoppable_iff_allHeld.mp hpage).1
  rcases step_sourceSettles browser page call connects with
    ⟨mode, hcall, hattached, hstep⟩ | ⟨hnone, hstep⟩
  · have hgoes : Stoppable (if connects = true
          then (page.put .ws).setPhase call (.connecting (page.slots .ws).made)
          else afterSocket browser page call mode) ↔
        Finds page (if connects then some [.ws] else openedAfterSocket browser mode) := by
      split_ifs
      · have hopen : ¬ Closed ((page.put .ws).setPhase call
            (.connecting (page.slots .ws).made)) := not_closed_put page .ws
        rw [stoppable_iff_allHeld, or_iff_right hopen, finds_some_iff,
          List.forall_mem_singleton, and_comm]
        exact and_congr_right fun _ ↦ allHeld_put_iff.trans (and_iff_left hheld)
      · exact stoppable_afterSocket_iff.trans (and_iff_right hheld)
    rw [hstep, hgoes]
    refine ⟨fun hfinds other hother _ ↦ ?_, fun hsafe ↦ hsafe mode hcall hattached⟩
    cases hcall.symm.trans hother
    exact hfinds
  · rw [hstep]
    exact iff_of_true hpage fun mode hcall hattached ↦ absurd hattached (hnone mode hcall)

theorem safe_socketOpens_iff (hpage : Stoppable page) (call : ℕ) :
    Stoppable (step browser page (.socketOpens call)) ↔
      Safe browser page (.socketOpens call) := by
  have hheld : AllHeld page := (stoppable_iff_allHeld.mp hpage).1
  rcases step_socketOpens browser page call with
    ⟨mode, socket, hcall, hlive, hstep⟩ | ⟨hnone, hstep⟩
  · rw [hstep, stoppable_playing_iff, and_iff_right hheld]
    exact ⟨fun hfinds _ _ _ _ ↦ hfinds, fun hsafe ↦ hsafe mode socket hcall hlive⟩
  · rw [hstep]
    exact iff_of_true hpage fun mode socket hcall hlive ↦ absurd hlive (hnone mode socket hcall)

theorem safe_socketFails_iff (hpage : Stoppable page) (call : ℕ) :
    Stoppable (step browser page (.socketFails call)) ↔
      Safe browser page (.socketFails call) := by
  have hheld : AllHeld page := (stoppable_iff_allHeld.mp hpage).1
  rcases step_socketFails browser page call with ⟨mode, socket, hcall, hstep⟩ | ⟨hnone, hstep⟩
  · rw [hstep, stoppable_afterSocket_iff, and_iff_right (allHeld_drop hheld _ _)]
    refine ⟨fun hfinds _ _ hother ↦ ?_, fun hsafe ↦ hsafe mode socket hcall⟩
    cases hcall.symm.trans hother
    exact hfinds
  · rw [hstep]
    exact iff_of_true hpage fun mode socket hcall ↦ absurd hcall (hnone mode socket)

/-- A step keeps all that is open in the reach of Stop exactly when it is safe. Assumes: it was so
before. -/
theorem stoppable_step_iff (hpage : Stoppable page) (action : Action) :
    Stoppable (step browser page action) ↔ Safe browser page action := by
  cases action with
  | clickConnect given choice =>
    refine iff_of_true ?_ trivial
    rw [step]
    split_ifs
    · exact hpage
    · exact stoppable_startPlayback hpage given choice
  | startOnLoad given choice =>
    refine iff_of_true ?_ trivial
    rw [step]
    split_ifs
    · have hcleared : Stoppable { page with autoStart := false } := hpage
      exact stoppable_startPlayback hcleared given choice
    · exact hpage
  | clickStop throws =>
    refine iff_of_true ?_ trivial
    rw [step]
    split_ifs with hdisabled
    · exact hpage
    · exact stoppable_stopPlayback hpage (Bool.eq_false_of_not_eq_true hdisabled) throws
  | dispatched call reply =>
    cases reply with
    | refused => exact safe_refused_iff hpage call
    | answered hasNodes => exact safe_answered_iff hpage call hasNodes
  | sourceSettles call connects => exact safe_sourceSettles_iff hpage call connects
  | socketOpens call => exact safe_socketOpens_iff hpage call
  | socketFails call => exact safe_socketFails_iff hpage call
  | socketCloses socket => exact iff_of_true (stoppable_drop hpage .ws socket) trivial
  | hlsFails player => exact iff_of_true (stoppable_drop hpage .hlsPlayer player) trivial

end OneStep

/-! ### The timer of the playback rate -/

section RateTimer

variable {browser : Browser} {page : Page}

/-- The variable holds every timer of the playback rate that runs. -/
def RateHeld (page : Page) : Prop := (page.slots .playbackRateTimer).Held

theorem rateHeld_put (hpage : RateHeld page) {kind : Kind} (hkind : .playbackRateTimer ≠ kind) :
    RateHeld (page.put kind) := by
  rw [RateHeld, slots_put, if_neg hkind]
  exact hpage

theorem rateHeld_playing (hpage : RateHeld page) (call : ℕ) : RateHeld (playing page call) := by
  have hcontrol : RateHeld (startPlaybackRateControl page) := by
    rw [RateHeld, startPlaybackRateControl, slots_put, if_pos rfl]
    exact Slot.held_release_put_iff.mpr hpage
  exact rateHeld_put hcontrol (by decide)

/-- A call that falls back to HLS. Assumes: so it is where the call goes on otherwise. -/
theorem rateHeld_playLLHLS (hpage : RateHeld page) (call : ℕ) {elsewhere : Page}
    (helsewhere : RateHeld elsewhere) :
    RateHeld ((playLLHLS browser page).elim elsewhere (playing · call)) := by
  rw [playLLHLS]
  split_ifs
  · have hput : RateHeld { page.put .hlsPlayer with attached := none } :=
      rateHeld_put hpage (by decide)
    exact rateHeld_playing hput call
  · have hnative : RateHeld { page with attached := none } := hpage
    exact rateHeld_playing hnative call
  · exact helsewhere

theorem rateHeld_afterSocket (hpage : RateHeld page) (call : ℕ) (mode : Mode) :
    RateHeld (afterSocket browser page call mode) := by
  rw [afterSocket]
  split_ifs
  · exact rateHeld_playLLHLS hpage call hpage
  · exact hpage

theorem rateHeld_playWSEncrypted (hpage : RateHeld page) (call : ℕ) (mode : Mode) :
    RateHeld (playWSEncrypted browser page call mode) := by
  rw [playWSEncrypted]
  split_ifs
  · exact hpage
  · exact rateHeld_afterSocket hpage call mode

theorem rateHeld_playFlv (hpage : RateHeld page) (call : ℕ) {elsewhere : Page}
    (helsewhere : RateHeld elsewhere) :
    RateHeld ((playFlv browser page).elim elsewhere (playing · call)) := by
  rw [playFlv]
  split_ifs
  · have hput : RateHeld { page.put .mpegtsPlayer with attached := none } :=
      rateHeld_put hpage (by decide)
    exact rateHeld_playing hput call
  · exact helsewhere

theorem rateHeld_playMode (hpage : RateHeld page) (call : ℕ) (mode : Mode) :
    RateHeld (playMode browser page call mode) := by
  have hsocket : ∀ own, RateHeld (playWSEncrypted browser page call own) :=
    rateHeld_playWSEncrypted hpage call
  have hfalls : ∀ own, RateHeld ((playLLHLS browser page).elim
      (playWSEncrypted browser page call own) (playing · call)) :=
    fun own ↦ rateHeld_playLLHLS hpage call (hsocket own)
  cases mode with
  | httpFlv => exact rateHeld_playFlv hpage call (hfalls .httpFlv)
  | wsFlv => exact rateHeld_playFlv hpage call (hfalls .wsFlv)
  | hls => exact hfalls .hls
  | wsEncrypted => exact hsocket .wsEncrypted

theorem rateHeld_stopPlayback (hpage : RateHeld page) (throws : Bool) :
    RateHeld (stopPlayback page throws) := by
  rw [stopPlayback]
  split_ifs
  · exact hpage
  · exact Slot.held_release hpage

theorem rateHeld_startPlayback (hpage : RateHeld page) (given : Bool) (choice : Option Mode) :
    RateHeld (startPlayback browser page given choice) := by
  rw [startPlayback]
  split_ifs <;> exact hpage

/-- A step keeps every timer of the playback rate in its variable. -/
theorem rateHeld_step (hpage : RateHeld page) (action : Action) :
    RateHeld (step browser page action) := by
  cases action with
  | clickConnect given choice =>
    rw [step]
    split_ifs
    · exact hpage
    · exact rateHeld_startPlayback hpage given choice
  | startOnLoad given choice =>
    rw [step]
    split_ifs
    · have hcleared : RateHeld { page with autoStart := false } := hpage
      exact rateHeld_startPlayback hcleared given choice
    · exact hpage
  | clickStop throws =>
    rw [step]
    split_ifs
    · exact hpage
    · exact rateHeld_stopPlayback hpage throws
  | dispatched call reply =>
    cases reply with
    | refused =>
      rcases step_refused browser page call with ⟨mode, -, hstep⟩ | ⟨-, hstep⟩
      · rw [hstep]
        exact hpage
      · rw [hstep]
        exact hpage
    | answered hasNodes =>
      have hsession : RateHeld (page.put .sessionId) := rateHeld_put hpage (by decide)
      rcases step_answered browser page call hasNodes with ⟨mode, -, hstep⟩ | ⟨-, hstep⟩
      · rw [hstep]
        split_ifs
        · exact rateHeld_playMode hsession call mode
        · exact hsession
      · rw [hstep]
        exact hpage
  | sourceSettles call connects =>
    rcases step_sourceSettles browser page call connects with ⟨mode, -, -, hstep⟩ | ⟨-, hstep⟩
    · rw [hstep]
      split_ifs
      · exact rateHeld_put hpage (by decide)
      · exact rateHeld_afterSocket hpage call mode
    · rw [hstep]
      exact hpage
  | socketOpens call =>
    rcases step_socketOpens browser page call with ⟨mode, socket, -, -, hstep⟩ | ⟨-, hstep⟩
    · rw [hstep]
      exact rateHeld_playing hpage call
    · rw [hstep]
      exact hpage
  | socketFails call =>
    rcases step_socketFails browser page call with ⟨mode, socket, -, hstep⟩ | ⟨-, hstep⟩
    · have hdrop : RateHeld (page.drop .ws socket) := hpage
      rw [hstep]
      exact rateHeld_afterSocket hdrop call mode
    · rw [hstep]
      exact hpage
  | socketCloses socket => exact hpage
  | hlsFails player => exact hpage

end RateTimer

/-! ### Runs -/

/-- No order of steps leaves a timer of the playback rate behind that the page cannot stop. -/
theorem rateHeld_run (browser : Browser) (autoStart : Bool) (actions : List Action) :
    RateHeld (run (step browser) (.initial autoStart) actions) := by
  have hinitial : RateHeld (.initial autoStart) := Slot.held_of_live_eq_empty rfl
  have hstep : ∀ page action, RateHeld page → RateHeld (step browser page action) :=
    fun _ action hpage ↦ rateHeld_step hpage action
  exact invariant_run_of_step (step browser) hstep hinitial actions

/-- In every state of a run either nothing is open, or the Stop button is enabled and a Stop whose
`endOfStream` does not throw closes all that is, exactly when each call that goes on finds the
button enabled and nothing open of the kinds that it opens, and each call that fails finds nothing
open. -/
theorem stoppable_iff (browser : Browser) (autoStart : Bool) (actions : List Action) :
    (∀ taken, taken <+: actions → Stoppable (run (step browser) (.initial autoStart) taken)) ↔
      EachStepMeets (step browser) (Safe browser) (.initial autoStart) actions := by
  have hinitial : Stoppable (.initial autoStart) := Or.inl fun _ ↦ rfl
  have hagree : ∀ page action, Stoppable page →
      (Stoppable (step browser page action) ↔ Safe browser page action) :=
    fun _ action hpage ↦ stoppable_step_iff hpage action
  rw [forall_prefix_iff (step browser), and_iff_right hinitial]
  exact eachStepMeets_iff_of_kept (step browser) (fun _ _ _ hafter ↦ hafter) hagree hinitial actions

end LiveCDN.Player.PlaybackSession
