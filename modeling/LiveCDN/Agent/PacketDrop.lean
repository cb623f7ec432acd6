import LiveCDN.Agent.GopCache
import LiveCDN.Library.GuardedRun

/-!
# Dropping packets under back-pressure

`relay/packet_drop.rs` and the send loop of `handle_http_flv_connection` in `main.rs`: a client that
lags behind the broadcast is spared the inter frames while its tracker holds a lag
(`BackpressureTracker.shouldDrop`), and each packet that is sent takes one off the lag
(`relievePressure`). `sendTurn` is a turn of the loop.

After a severe lag nothing is to be sent of the current group of pictures until the next keyframe.
The tracker does not know whether a keyframe came; it counts packets, audio among them. So no inter
frame is sent before the next keyframe exactly in the runs in which, whenever an inter frame comes
while a keyframe is awaited, fewer packets have been sent since the last lag than it reported
(`holdsBack_runs_iff`).

Scope. What is received and whether it can be written are inputs. Counters wrap, as in a release
build. The drop rate and the other statistics are left out.
-/

set_option autoImplicit false
set_option relaxedAutoImplicit false

namespace LiveCDN.Agent.PacketDrop

open Library.GuardedRun FlvFormat GopCache

/-! ### The drop policy -/

/-- `PacketPriority`. -/
inductive PacketPriority
  | low
  | medium
  | high
  deriving DecidableEq, Repr

/-- `DropPolicy`. -/
structure DropPolicy where
  lightPressureThreshold : UInt64
  mediumPressureThreshold : UInt64
  dropAudioEnabled : Bool
  deriving DecidableEq, Repr

/-- `DropPolicy::default`. -/
def DropPolicy.default : DropPolicy := ⟨10, 50, false⟩

/-- `get_packet_priority`. -/
def getPacketPriority (tag : FlvTagPacket) : PacketPriority :=
  match tag.tagType with
  | .script => .high
  | .video =>
    match parseVideoFrameType tag with
    | .seqHeader => .high
    | .keyframe => .high
    | .interFrame => .low
    | .other => .medium
  | .audio =>
    match parseAudioFrameType tag with
    | .seqHeader => .high
    | .rawData => .medium
    | .other => .medium

/-- `should_drop`. -/
def shouldDrop (tag : FlvTagPacket) (lagCount : UInt64) (policy : DropPolicy) : Bool :=
  if getPacketPriority tag = .high then false
  else if lagCount = 0 then false
  else
    match getPacketPriority tag with
    | .low => decide (0 < lagCount)
    | .medium => policy.dropAudioEnabled && decide (policy.mediumPressureThreshold < lagCount)
    | .high => false

/-- Only video tags are inter frames. -/
theorem tagType_of_interFrame {tag : FlvTagPacket}
    (hframe : parseVideoFrameType tag = .interFrame) : tag.tagType = .video := by
  unfold parseVideoFrameType at hframe
  split_ifs at hframe with hvideo
  exact not_not.mp hvideo

/-- An inter frame is dropped exactly while there is a lag. -/
theorem shouldDrop_of_interFrame {tag : FlvTagPacket} (lagCount : UInt64) (policy : DropPolicy)
    (hframe : parseVideoFrameType tag = .interFrame) :
    shouldDrop tag lagCount policy = true ↔ lagCount ≠ 0 := by
  have hpriority : getPacketPriority tag = .low := by
    simp only [getPacketPriority, tagType_of_interFrame hframe, hframe]
  unfold shouldDrop
  rw [hpriority, if_neg nofun]
  by_cases hzero : lagCount = 0
  · rw [if_pos hzero]
    exact iff_of_false Bool.false_ne_true (not_not.mpr hzero)
  · rw [if_neg hzero]
    exact iff_of_true (decide_eq_true (UInt64.pos_iff_ne_zero.mpr hzero)) hzero

/-! ### The tracker -/

/-- `BackpressureTracker`. -/
structure BackpressureTracker where
  lagCount : UInt64
  consecutiveDrops : UInt32
  totalDrops : UInt64
  totalPackets : UInt64
  policy : DropPolicy
  deriving DecidableEq, Repr

namespace BackpressureTracker

/-- `BackpressureTracker::new`. -/
def new (policy : DropPolicy) : BackpressureTracker := ⟨0, 0, 0, 0, policy⟩

/-- `with_default_policy`. -/
def withDefaultPolicy : BackpressureTracker := new .default

/-- `report_lag`. -/
def reportLag (tracker : BackpressureTracker) (lag : UInt64) : BackpressureTracker :=
  { tracker with lagCount := lag }

/-- `relieve_pressure`. -/
def relievePressure (tracker : BackpressureTracker) : BackpressureTracker :=
  { tracker with
    lagCount := if 0 < tracker.lagCount then tracker.lagCount - 1 else tracker.lagCount
    consecutiveDrops := 0 }

/-- `BackpressureTracker::should_drop`: the decision, and the tracker behind it. -/
def shouldDrop (tracker : BackpressureTracker) (tag : FlvTagPacket) : Bool × BackpressureTracker :=
  let tracker := { tracker with totalPackets := tracker.totalPackets + 1 }
  if PacketDrop.shouldDrop tag tracker.lagCount tracker.policy = true then
    (true, { tracker with
      consecutiveDrops := tracker.consecutiveDrops + 1
      totalDrops := tracker.totalDrops + 1 })
  else (false, { tracker with consecutiveDrops := 0 })

/-- `is_severe_pressure`. -/
def isSeverePressure (tracker : BackpressureTracker) : Bool :=
  decide (tracker.policy.mediumPressureThreshold < tracker.lagCount)

@[simp] theorem lagCount_reportLag (tracker : BackpressureTracker) (lag : UInt64) :
    (tracker.reportLag lag).lagCount = lag := rfl

@[simp] theorem lagCount_shouldDrop (tracker : BackpressureTracker) (tag : FlvTagPacket) :
    (tracker.shouldDrop tag).2.lagCount = tracker.lagCount := by
  unfold shouldDrop
  dsimp only
  split_ifs <;> rfl

/-- A decision is that of `should_drop` at the lag. -/
theorem fst_shouldDrop (tracker : BackpressureTracker) (tag : FlvTagPacket) :
    (tracker.shouldDrop tag).1 = PacketDrop.shouldDrop tag tracker.lagCount tracker.policy := by
  unfold shouldDrop
  dsimp only
  split_ifs with hdrop
  · exact hdrop.symm
  · exact (Bool.eq_false_iff.mpr hdrop).symm

/-- A packet that is sent takes one off the lag, down to zero. -/
theorem toNat_lagCount_relievePressure (tracker : BackpressureTracker) :
    tracker.relievePressure.lagCount.toNat = tracker.lagCount.toNat - 1 := by
  unfold relievePressure
  dsimp only
  split_ifs with hpos
  · rw [UInt64.toNat_sub_of_le]
    · rfl
    · exact UInt64.lt_iff_toNat_lt.mp hpos
  · have hzero : tracker.lagCount.toNat = 0 :=
      Nat.eq_zero_of_not_pos fun hlag ↦ hpos (UInt64.lt_iff_toNat_lt.mpr hlag)
    rw [hzero]

end BackpressureTracker

/-! ### The send loop -/

/-- What `recv` gives: a packet, and whether it can be written if it is to be; a lag; or the end of
the broadcast. -/
inductive Received
  | packet (tag : FlvTagPacket) (written : Bool)
  | lagged (count : UInt64)
  | closed

/-- The variables of the send loop, and its history. -/
structure SendState where
  tracker : BackpressureTracker
  /-- The packets that have been sent. -/
  sent : List FlvTagPacket
  /-- The loop has ended. -/
  ended : Bool
  /-- The last lag that was reported. -/
  lastLag : UInt64
  /-- How many packets have been sent since then. -/
  sentSince : ℕ
  /-- A severe lag was reported, and no keyframe has been sent since. -/
  awaitsKeyframe : Bool

/-- The state before the first turn. -/
def SendState.initial : SendState := ⟨.withDefaultPolicy, [], false, 0, 0, false⟩

/-- A packet has been sent. -/
def SendState.send (st : SendState) (tag : FlvTagPacket) : SendState :=
  { st with
    tracker := st.tracker.relievePressure
    sent := st.sent ++ [tag]
    sentSince := st.sentSince + 1
    awaitsKeyframe := st.awaitsKeyframe && decide (parseVideoFrameType tag ≠ .keyframe) }

/-- A lag has been reported. -/
def SendState.report (st : SendState) (count : UInt64) : SendState :=
  { st with
    tracker := st.tracker.reportLag count
    lastLag := count
    sentSince := 0
    awaitsKeyframe := st.awaitsKeyframe || (st.tracker.reportLag count).isSeverePressure }

/-- A turn of the send loop of `handle_http_flv_connection`. -/
def sendTurn (st : SendState) (received : Received) : SendState :=
  if st.ended = true then st
  else
    match received with
    | .packet tag written =>
      let decision := st.tracker.shouldDrop tag
      let st := { st with tracker := decision.2 }
      if decision.1 = true then st
      else if written = false then { st with ended := true }
      else st.send tag
    | .lagged count => st.report count
    | .closed => { st with ended := true }

/-- An inter frame that comes while a keyframe is awaited is not sent. -/
def HoldsBack (st : SendState) (received : Received) : Prop :=
  ∀ tag written, received = .packet tag written → st.awaitsKeyframe = true →
    parseVideoFrameType tag = .interFrame → (sendTurn st received).sent = st.sent

/-- When an inter frame that can be written comes while a keyframe is awaited, fewer packets have
been sent since the last lag than it reported. -/
def LagLasts (st : SendState) (received : Received) : Prop :=
  ∀ tag, received = .packet tag true → st.ended = false → st.awaitsKeyframe = true →
    parseVideoFrameType tag = .interFrame → st.sentSince < st.lastLag.toNat

/-- The tracker holds what the packets sent since the last lag have left of it. -/
def Tracks (st : SendState) : Prop :=
  st.tracker.lagCount.toNat = st.lastLag.toNat - st.sentSince

theorem tracks_initial : Tracks .initial := rfl

/-- A turn keeps what the tracker holds right. -/
theorem tracks_sendTurn {st : SendState} (hst : Tracks st) (received : Received) :
    Tracks (sendTurn st received) := by
  unfold sendTurn
  by_cases hended : st.ended = true
  · rwa [if_pos hended]
  · rw [if_neg hended]
    cases received with
    | packet tag written =>
      have hlag := st.tracker.lagCount_shouldDrop tag
      dsimp only
      split_ifs
      · exact (congrArg UInt64.toNat hlag).trans hst
      · exact (congrArg UInt64.toNat hlag).trans hst
      · refine (st.tracker.shouldDrop tag).2.toNat_lagCount_relievePressure.trans ?_
        rw [hlag, hst]
        exact Nat.sub_sub _ _ _
    | lagged count => exact (Nat.sub_zero _).symm
    | closed => exact hst

/-- An inter frame that is received by the running loop and can be written is sent exactly when the
lag is gone. -/
theorem sent_sendTurn_eq_iff {st : SendState} {tag : FlvTagPacket}
    (hended : st.ended = false) (hframe : parseVideoFrameType tag = .interFrame) :
    (sendTurn st (.packet tag true)).sent = st.sent ↔ st.tracker.lagCount ≠ 0 := by
  rw [← shouldDrop_of_interFrame st.tracker.lagCount st.tracker.policy hframe,
    ← st.tracker.fst_shouldDrop tag]
  unfold sendTurn
  rw [if_neg (Bool.eq_false_iff.mp hended)]
  dsimp only
  by_cases hdrop : (st.tracker.shouldDrop tag).1 = true
  · rw [if_pos hdrop]
    exact iff_of_true rfl hdrop
  · rw [if_neg hdrop, if_neg nofun]
    refine iff_of_false (fun hsent ↦ ?_) hdrop
    exact List.cons_ne_nil tag [] (List.append_right_eq_self.mp hsent)

/-- A packet that cannot be written is not sent, and nothing is behind the end of the loop. -/
theorem sent_sendTurn_of_not {st : SendState} {tag : FlvTagPacket} {written : Bool}
    (hidle : st.ended = true ∨ written = false) :
    (sendTurn st (.packet tag written)).sent = st.sent := by
  unfold sendTurn
  rcases hidle with hended | rfl
  · rw [if_pos hended]
  · dsimp only
    rw [if_pos rfl]
    split_ifs <;> rfl

/-- A turn holds an inter frame back exactly when the lag lasts. -/
theorem holdsBack_iff {st : SendState} (hst : Tracks st) (received : Received) :
    HoldsBack st received ↔ LagLasts st received := by
  have hlag : st.tracker.lagCount ≠ 0 ↔ st.sentSince < st.lastLag.toNat := by
    rw [ne_eq, ← UInt64.toNat_inj, hst]
    simp only [UInt64.reduceToNat]
    omega
  constructor
  · rintro hholds tag rfl hended hawaits hframe
    exact hlag.mp ((sent_sendTurn_eq_iff hended hframe).mp (hholds tag true rfl hawaits hframe))
  · rintro hlasts tag written rfl hawaits hframe
    by_cases hidle : st.ended = true ∨ written = false
    · exact sent_sendTurn_of_not hidle
    · obtain ⟨hended, hwritten⟩ := not_or.mp hidle
      obtain rfl : written = true := Bool.eq_true_of_not_eq_false hwritten
      have hrunning := Bool.eq_false_iff.mpr hended
      exact (sent_sendTurn_eq_iff hrunning hframe).mpr
        (hlag.mpr (hlasts tag rfl hrunning hawaits hframe))

/-- In a run no inter frame is sent between a severe lag and the next keyframe exactly when,
whenever an inter frame that can be written comes while a keyframe is awaited, fewer packets have
been sent since the last lag than it reported. -/
theorem holdsBack_runs_iff (events : List Received) :
    EachStepMeets sendTurn HoldsBack .initial events ↔
      EachStepMeets sendTurn LagLasts .initial events :=
  eachStepMeets_iff_of_invariant sendTurn
    (fun st received (hst : Tracks st) ↦ tracks_sendTurn hst received)
    (fun _ received hst ↦ holdsBack_iff hst received) tracks_initial events

/-- AAC data, and an H.264 frame that is no keyframe. -/
def audioPacket : FlvTagPacket := ⟨⟨.audio, 0, [0xAF, 1]⟩, 0⟩

@[inherit_doc audioPacket]
def interPacket : FlvTagPacket := ⟨⟨.video, 0, [0x27, 1]⟩, 0⟩

/-- After a lag of 51 the audio of about a second uses the lag up, and the next inter frame is sent
without a keyframe before it. -/
theorem holdsBack_counterexample :
    ¬ EachStepMeets sendTurn HoldsBack .initial
      (.lagged 51 :: List.replicate 51 (.packet audioPacket true) ++
        [.packet interPacket true]) := by
  intro hholds
  have hlast := ((eachStepMeets_append sendTurn).mp hholds).2.1 interPacket true rfl
    (by decide +kernel) (by decide)
  exact absurd hlast (by decide +kernel)

end LiveCDN.Agent.PacketDrop
