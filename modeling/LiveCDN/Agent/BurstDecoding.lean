import LiveCDN.Agent.GopWindow

/-!
# Decoding a startup burst

A decoder reads a video frame with the sequence header it saw last. `arrivals` tells for every frame
of a startup burst when it arrived at the cache, and `StartupDecodable` asks that the burst puts the
frame behind the header that was in force then, and that every group of the cache begins with coded
data of a keyframe.

The cache replays one header in front of all groups, and takes any packet of frame type 1 that is no
sequence header for a keyframe. So a burst is decodable exactly when its frames arrived under the
last header of the history and its groups were opened by coded data
(`startupDecodable_iff_settledWindow`); a header that changes within the ring is enough to break it
(`startupDecodable_counterexample`).
-/

set_option autoImplicit false
set_option relaxedAutoImplicit false

namespace LiveCDN.Agent.BurstDecoding

open FlvFormat GopCache GopWindow Library.Grouping

/-! ### Frames and headers of a codec -/

/-- Video of AVC or HEVC, the codecs that send sequence headers. -/
def isAvcOrHevc (tag : FlvTagPacket) : Bool :=
  match tag.data with
  | [] => false
  | firstByte :: _ =>
    decide (tag.tagType = .video ∧ (firstByte &&& 0x0F = 7 ∨ firstByte &&& 0x0F = 12))

/-- A frame of AVC or HEVC. -/
def isCodedFrame (tag : FlvTagPacket) : Bool := isAvcOrHevc tag && !isVideoSeqHeader tag

/-- Coded data of a keyframe: frame type 1 and packet type 1. -/
def isNaluKeyframe (tag : FlvTagPacket) : Bool :=
  match tag.data with
  | firstByte :: packetType :: _ =>
    isAvcOrHevc tag && decide ((firstByte >>> 4) &&& 0x0F = 1 ∧ packetType = 1)
  | _ => false

/-- The sequence header a decoder uses after some tags. -/
def headerInForce (tags : List FlvTagPacket) : Option FlvTagPacket :=
  lastMarked isVideoSeqHeader tags

/-! ### When the frames of a burst arrived -/

/-- The groups of a startup burst, each frame with its position in the history. -/
def arrivals (config : GopCacheConfig) (tags : List FlvTagPacket) :
    List (List (FlvTagPacket × ℕ)) :=
  window (isKeyframe ∘ Prod.fst) (config.gopCount + 1) (groupBound config)
    (tags.zipIdx.filter (isFrame ∘ Prod.fst))

variable {config : GopCacheConfig} {tags : List FlvTagPacket}

/-- Without the positions these are the groups of the window. -/
theorem map_arrivals (config : GopCacheConfig) (tags : List FlvTagPacket) :
    (arrivals config tags).map (List.map Prod.fst) = windowGroups config tags := by
  have hframes : (tags.zipIdx.filter (isFrame ∘ Prod.fst)).map Prod.fst = tags.filter isFrame := by
    rw [← List.filter_map, List.zipIdx_map_fst]
  rw [windowGroups, ← hframes, window_map]
  rfl

/-- The burst is its headers and its arrivals. -/
theorem startupBurst_eq_arrivals (config : GopCacheConfig) (tags : List FlvTagPacket) :
    startupBurst config tags =
      windowHeaders tags ++ (arrivals config tags).flatten.map Prod.fst := by
  rw [startupBurst, startupTags_eq, startupWindow, List.map_flatten, map_arrivals]

/-! ### Decodability -/

/-- A startup burst is decodable: a frame comes behind the sequence header that was in force when
it arrived, no other one in between, and every group of the cache begins with coded data of a
keyframe. -/
structure StartupDecodable (config : GopCacheConfig) (tags : List FlvTagPacket) : Prop where
  headers : ∀ index tag position,
    (arrivals config tags).flatten[index]? = some (tag, position) → isCodedFrame tag = true →
      ∃ header, headerInForce (tags.take position) = some header ∧
        headerInForce ((startupBurst config tags).take ((windowHeaders tags).length + index)) =
          some header
  groups : ∀ gop ∈ ((Cache.new config).addTags tags).gopRing ++
      ((Cache.new config).addTags tags).currentGop.toList, isNaluKeyframe gop.keyframe = true

/-- The history is settled over its window: the coded frames of the last groups arrived when the
last sequence header was in force, and the last `gop_count + 1` keyframes carried coded data. -/
structure SettledWindow (config : GopCacheConfig) (tags : List FlvTagPacket) : Prop where
  header : ∀ tag position, (tag, position) ∈ (arrivals config tags).flatten →
    isCodedFrame tag = true →
      (headerInForce tags).isSome ∧ headerInForce (tags.take position) = headerInForce tags
  opened : ∀ tag ∈ (tags.filter isKeyframe).rtake (config.gopCount + 1), isNaluKeyframe tag = true

/-- Anywhere among the frames of a burst the header in force is the last one of the history. -/
theorem headerInForce_startupBurst (config : GopCacheConfig) (tags : List FlvTagPacket)
    (index : ℕ) :
    headerInForce ((startupBurst config tags).take ((windowHeaders tags).length + index)) =
      headerInForce tags := by
  have hframes : ∀ tag ∈ ((arrivals config tags).flatten.map Prod.fst).take index,
      isVideoSeqHeader tag = false := by
    intro tag htag
    have hmem := List.mem_of_mem_take htag
    rw [List.map_flatten, map_arrivals] at hmem
    exact (marks_of_isFrame (isFrame_of_mem_flatten_windowGroups hmem)).2.2
  rw [startupBurst_eq_arrivals, List.take_length_add_append, headerInForce, lastMarked_append,
    lastMarked_of_unmarked hframes, Option.none_or, lastVideo_windowHeaders]
  rfl

/-- The keyframes that open the groups of the cache are the last ones of the history. -/
theorem map_keyframe_gops (config : GopCacheConfig) (tags : List FlvTagPacket) :
    (((Cache.new config).addTags tags).gopRing ++
      ((Cache.new config).addTags tags).currentGop.toList).map Gop.keyframe =
        (tags.filter isKeyframe).rtake (config.gopCount + 1) := by
  have hheads : (windowGroups config tags).map List.head? =
      ((tags.filter isKeyframe).rtake (config.gopCount + 1)).map some := by
    have hkeys : (tags.filter isFrame).filter isKeyframe = tags.filter isKeyframe := by
      rw [List.filter_filter]
      apply List.filter_congr
      intro tag _
      by_cases hkey : isKeyframe tag = true
      · simp [hkey, isFrame_of_isKeyframe hkey]
      · simp [hkey]
    rw [windowGroups, map_head?_window (groupBound_pos config), hkeys]
  rw [← (holds_addTags config tags).map_allTags, List.map_map] at hheads
  have hsome : List.head? ∘ Gop.allTags = some ∘ Gop.keyframe := rfl
  rw [hsome, ← List.map_map] at hheads
  exact List.map_injective_iff.mpr (Option.some_injective _) hheads

/-- The groups of the cache begin with coded data when the last keyframes are coded data. -/
theorem groups_opened_iff (config : GopCacheConfig) (tags : List FlvTagPacket) :
    (∀ gop ∈ ((Cache.new config).addTags tags).gopRing ++
      ((Cache.new config).addTags tags).currentGop.toList, isNaluKeyframe gop.keyframe = true) ↔
        ∀ tag ∈ (tags.filter isKeyframe).rtake (config.gopCount + 1),
          isNaluKeyframe tag = true := by
  rw [← map_keyframe_gops]
  constructor
  · intro hgops tag htag
    obtain ⟨gop, hgop, rfl⟩ := List.mem_map.mp htag
    exact hgops gop hgop
  · intro hkeys gop hgop
    exact hkeys gop.keyframe (List.mem_map_of_mem hgop)

/-- A startup burst is decodable exactly when its history is settled over the window: the coded
frames of the last groups arrived under the last sequence header, and the last keyframes are coded
data. -/
theorem startupDecodable_iff_settledWindow (config : GopCacheConfig) (tags : List FlvTagPacket) :
    StartupDecodable config tags ↔ SettledWindow config tags := by
  constructor
  · intro hdecodable
    refine ⟨?_, (groups_opened_iff config tags).mp hdecodable.groups⟩
    intro tag position hmem hcoded
    obtain ⟨index, hindex⟩ := List.getElem?_of_mem hmem
    obtain ⟨header, harrival, hburst⟩ := hdecodable.headers index tag position hindex hcoded
    rw [headerInForce_startupBurst] at hburst
    exact ⟨by rw [hburst]; rfl, by rw [harrival, hburst]⟩
  · intro hsettled
    refine ⟨?_, (groups_opened_iff config tags).mpr hsettled.opened⟩
    intro index tag position hindex hcoded
    obtain ⟨hsome, hsame⟩ :=
      hsettled.header tag position (List.mem_of_getElem? hindex) hcoded
    obtain ⟨header, hheader⟩ := Option.isSome_iff_exists.mp hsome
    refine ⟨header, ?_, ?_⟩
    · rw [hsame, hheader]
    · rw [headerInForce_startupBurst, hheader]

/-- An end-of-sequence packet opens a group and is no coded data. -/
example : isKeyframe ⟨⟨.video, 0, [0x17, 0x02]⟩, 0⟩ = true ∧
    isNaluKeyframe ⟨⟨.video, 0, [0x17, 0x02]⟩, 0⟩ = false := by decide

/-- A stream whose encoder changes its resolution between two keyframes: a header and a keyframe
under it, then another header and a keyframe under that one. -/
def resolutionChange : List FlvTagPacket :=
  [⟨⟨.video, 0, [0x17, 0x00, 0x01]⟩, 0⟩, ⟨⟨.video, 0, [0x17, 0x01, 0xAA]⟩, 0⟩,
    ⟨⟨.video, 40, [0x17, 0x00, 0x02]⟩, 0⟩, ⟨⟨.video, 40, [0x17, 0x01, 0xBB]⟩, 0⟩]

/-- The first keyframe of the stream is replayed behind the second header. -/
theorem startupDecodable_counterexample :
    ¬ StartupDecodable GopCacheConfig.default resolutionChange := by
  intro hdecodable
  obtain ⟨header, harrival, hburst⟩ := hdecodable.headers 0
    ⟨⟨.video, 0, [0x17, 0x01, 0xAA]⟩, 0⟩ 1 (by decide) (by decide)
  have hfirst : headerInForce (resolutionChange.take 1) =
      some ⟨⟨.video, 0, [0x17, 0x00, 0x01]⟩, 0⟩ := by decide
  have hsecond : headerInForce ((startupBurst GopCacheConfig.default resolutionChange).take
      ((windowHeaders resolutionChange).length + 0)) =
        some ⟨⟨.video, 40, [0x17, 0x00, 0x02]⟩, 0⟩ := by decide
  rw [hfirst] at harrival
  rw [hsecond, ← harrival] at hburst
  revert hburst
  decide

end LiveCDN.Agent.BurstDecoding
