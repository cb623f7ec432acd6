import LiveCDN.Agent.GopCache
import LiveCDN.Library.Grouping

/-!
# The GOP cache as a window of its history

What `get_startup_tags` hands out is a function of the tags the cache was fed: the last metadata,
the last sequence headers, and the last `gop_count + 1` groups of what remains, each cut off at the
limit of a group (`startupWindow`). `getStartupTags_eq_window` says so for every history, from the
invariant `Holds` that one `add_tag` keeps. A window is its own window
(`startupWindow_idem`), so a cache fed with the burst of another one hands out the same burst, and
so does every cache below it (`startupBurst_iterate`).
-/

set_option autoImplicit false
set_option relaxedAutoImplicit false

namespace LiveCDN.Agent.GopWindow

open FlvFormat GopCache Library.Grouping

/-! ### Kinds of tags -/

/-- A metadata tag. -/
def isScript (tag : FlvTagPacket) : Bool := decide (tag.tagType = .script)

/-- An AAC sequence header. -/
def isAacSeqHeader (tag : FlvTagPacket) : Bool := decide (parseAudioFrameType tag = .seqHeader)

/-- A video sequence header. -/
def isVideoSeqHeader (tag : FlvTagPacket) : Bool := decide (parseVideoFrameType tag = .seqHeader)

/-- A keyframe. -/
def isKeyframe (tag : FlvTagPacket) : Bool := decide (parseVideoFrameType tag = .keyframe)

/-- A tag that is neither metadata nor a sequence header. -/
def isFrame (tag : FlvTagPacket) : Bool :=
  !isScript tag && !isAacSeqHeader tag && !isVideoSeqHeader tag

theorem parseVideoFrameType_of_not_video {tag : FlvTagPacket} (htag : tag.tagType ≠ .video) :
    parseVideoFrameType tag = .other := by
  simp [parseVideoFrameType, htag]

theorem parseAudioFrameType_of_not_audio {tag : FlvTagPacket} (htag : tag.tagType ≠ .audio) :
    parseAudioFrameType tag = .other := by
  simp [parseAudioFrameType, htag]

/-- A tag with a video frame type is a video tag. -/
theorem tagType_of_parseVideoFrameType {tag : FlvTagPacket}
    (htag : parseVideoFrameType tag ≠ .other) : tag.tagType = .video := by
  by_contra hother
  exact htag (parseVideoFrameType_of_not_video hother)

/-- A tag with an audio frame type is an audio tag. -/
theorem tagType_of_parseAudioFrameType {tag : FlvTagPacket}
    (htag : parseAudioFrameType tag ≠ .other) : tag.tagType = .audio := by
  by_contra hother
  exact htag (parseAudioFrameType_of_not_audio hother)

/-- A tag is of exactly one kind: metadata, a header of audio or of video, or a frame. -/
theorem kind_cases (tag : FlvTagPacket) :
    (isScript tag = true ∧ isAacSeqHeader tag = false ∧ isVideoSeqHeader tag = false) ∨
      (isScript tag = false ∧ isAacSeqHeader tag = true ∧ isVideoSeqHeader tag = false) ∨
        (isScript tag = false ∧ isAacSeqHeader tag = false ∧ isVideoSeqHeader tag = true) ∨
          (isScript tag = false ∧ isAacSeqHeader tag = false ∧ isVideoSeqHeader tag = false) := by
  cases htag : tag.tagType with
  | script =>
    simp [isScript, isAacSeqHeader, isVideoSeqHeader, htag, parseVideoFrameType_of_not_video,
      parseAudioFrameType_of_not_audio]
  | audio =>
    have hvideo : parseVideoFrameType tag = .other :=
      parseVideoFrameType_of_not_video (by simp [htag])
    by_cases haudio : parseAudioFrameType tag = .seqHeader <;>
      simp [isScript, isAacSeqHeader, isVideoSeqHeader, htag, hvideo, haudio]
  | video =>
    have haudio : parseAudioFrameType tag = .other :=
      parseAudioFrameType_of_not_audio (by simp [htag])
    by_cases hvideo : parseVideoFrameType tag = .seqHeader <;>
      simp [isScript, isAacSeqHeader, isVideoSeqHeader, htag, hvideo, haudio]

/-- A keyframe is a frame. -/
theorem isFrame_of_isKeyframe {tag : FlvTagPacket} (hkey : isKeyframe tag = true) :
    isFrame tag = true := by
  have hparse : parseVideoFrameType tag = .keyframe := of_decide_eq_true hkey
  have hvideo : tag.tagType = .video := tagType_of_parseVideoFrameType (by simp [hparse])
  have haudio : parseAudioFrameType tag = .other :=
    parseAudioFrameType_of_not_audio (by simp [hvideo])
  simp [isFrame, isScript, isAacSeqHeader, isVideoSeqHeader, hvideo, hparse, haudio]

/-! ### What `add_tag` does with each kind -/

theorem addTag_of_isScript (cache : Cache) {tag : FlvTagPacket} (htag : isScript tag = true) :
    cache.addTag tag = { cache with metadata := some tag } := by
  have hscript : tag.tagType = .script := of_decide_eq_true htag
  simp [Cache.addTag, hscript]

theorem addTag_of_isAacSeqHeader (cache : Cache) {tag : FlvTagPacket}
    (htag : isAacSeqHeader tag = true) :
    cache.addTag tag = { cache with aacSeqHeader := some tag } := by
  have hparse : parseAudioFrameType tag = .seqHeader := of_decide_eq_true htag
  have haudio : tag.tagType = .audio := tagType_of_parseAudioFrameType (by simp [hparse])
  simp [Cache.addTag, haudio, hparse]

theorem addTag_of_isVideoSeqHeader (cache : Cache) {tag : FlvTagPacket}
    (htag : isVideoSeqHeader tag = true) :
    cache.addTag tag = { cache with videoSeqHeader := some tag } := by
  have hparse : parseVideoFrameType tag = .seqHeader := of_decide_eq_true htag
  have hvideo : tag.tagType = .video := tagType_of_parseVideoFrameType (by simp [hparse])
  simp [Cache.addTag, hvideo, hparse]

theorem addTag_of_isKeyframe (cache : Cache) {tag : FlvTagPacket} (htag : isKeyframe tag = true) :
    cache.addTag tag = { cache.finalizeCurrentGop with currentGop := some ⟨tag, []⟩ } := by
  have hparse : parseVideoFrameType tag = .keyframe := of_decide_eq_true htag
  have hvideo : tag.tagType = .video := tagType_of_parseVideoFrameType (by simp [hparse])
  simp [Cache.addTag, hvideo, hparse]

/-- A frame that is no keyframe goes to the current group. -/
theorem addTag_of_isFrame (cache : Cache) {tag : FlvTagPacket} (hframe : isFrame tag = true)
    (hkey : isKeyframe tag = false) : cache.addTag tag = cache.addToCurrentGop tag := by
  simp only [isFrame, isScript, isAacSeqHeader, isVideoSeqHeader, Bool.and_eq_true,
    Bool.not_eq_true', decide_eq_false_iff_not] at hframe
  have hkey' : parseVideoFrameType tag ≠ .keyframe := of_decide_eq_false hkey
  obtain ⟨⟨hscript, haac⟩, hvideo⟩ := hframe
  cases htag : tag.tagType with
  | script => exact absurd htag hscript
  | audio =>
    cases hparse : parseAudioFrameType tag with
    | seqHeader => exact absurd hparse haac
    | rawData => simp [Cache.addTag, htag, hparse]
    | other => simp [Cache.addTag, htag, hparse]
  | video =>
    cases hparse : parseVideoFrameType tag with
    | seqHeader => exact absurd hparse hvideo
    | keyframe => exact absurd hparse hkey'
    | interFrame => simp [Cache.addTag, htag, hparse]
    | other => simp [Cache.addTag, htag, hparse]

/-! ### The window -/

/-- What a group of the cache may hold: its keyframe and the frames up to the limit. -/
def groupBound (config : GopCacheConfig) : ℕ := max 1 config.maxFramesPerGop

theorem groupBound_pos (config : GopCacheConfig) : 0 < groupBound config := by
  simp [groupBound]

/-- All groups of a history, each cut off at the limit. -/
def historyGroups (config : GopCacheConfig) (tags : List FlvTagPacket) : List (List FlvTagPacket) :=
  (groups isKeyframe (tags.filter isFrame)).map (List.take (groupBound config))

/-- The last groups of a history: the finished ones the ring keeps, and the running one. -/
def windowGroups (config : GopCacheConfig) (tags : List FlvTagPacket) : List (List FlvTagPacket) :=
  window isKeyframe (config.gopCount + 1) (groupBound config) (tags.filter isFrame)

/-- The last metadata and the last sequence headers of a history. -/
def windowHeaders (tags : List FlvTagPacket) : List FlvTagPacket :=
  (lastMarked isScript tags).toList ++ (lastMarked isAacSeqHeader tags).toList ++
    (lastMarked isVideoSeqHeader tags).toList

/-- The window of a history that a startup burst is. -/
def startupWindow (config : GopCacheConfig) (tags : List FlvTagPacket) : List FlvTagPacket :=
  windowHeaders tags ++ (windowGroups config tags).flatten

/-- The groups after a keyframe: a new group of it alone. -/
theorem historyGroups_concat_keyframe (config : GopCacheConfig) (tags : List FlvTagPacket)
    {tag : FlvTagPacket} (hkey : isKeyframe tag = true) :
    historyGroups config (tags ++ [tag]) = historyGroups config tags ++ [[tag]] := by
  have hframe := isFrame_of_isKeyframe hkey
  have hbound := groupBound_pos config
  obtain ⟨more, hmore⟩ : ∃ more, groupBound config = more + 1 :=
    ⟨groupBound config - 1, by omega⟩
  simp [historyGroups, hframe, groups_concat_of_isHead _ hkey, hmore]

/-- The groups after a tag that is no frame. -/
theorem historyGroups_concat_header (config : GopCacheConfig) (tags : List FlvTagPacket)
    {tag : FlvTagPacket} (hframe : isFrame tag = false) :
    historyGroups config (tags ++ [tag]) = historyGroups config tags := by
  simp [historyGroups, hframe]

/-- The groups after a frame that is no keyframe: there is none yet and the frame is lost, or it
goes to the last group when that has room. -/
theorem historyGroups_concat_frame (config : GopCacheConfig) (tags : List FlvTagPacket)
    {tag : FlvTagPacket} (hframe : isFrame tag = true) (hkey : isKeyframe tag = false) :
    (historyGroups config tags = [] ∧ historyGroups config (tags ++ [tag]) = []) ∨
      ∃ earlier last, last ≠ [] ∧ historyGroups config tags = earlier ++ [last] ∧
        historyGroups config (tags ++ [tag]) =
          earlier ++ [if last.length < config.maxFramesPerGop then last ++ [tag] else last] := by
  have hfilter : (tags ++ [tag]).filter isFrame = tags.filter isFrame ++ [tag] := by simp [hframe]
  rcases groups_concat_of_not_isHead (tags.filter isFrame) hkey with
    ⟨hnone, hstill⟩ | ⟨earlier, last, hsome, hlonger⟩
  · left
    simp [historyGroups, hfilter, hnone, hstill]
  · right
    have hbound := groupBound_pos config
    have hmem : last ∈ groups isKeyframe (tags.filter isFrame) := by simp [hsome]
    have hgroup : IsGroup isKeyframe last := isGroup_of_mem_groups hmem
    have hlast : last ≠ [] := by
      obtain ⟨head, tail, rfl, -, -⟩ := hgroup
      simp
    refine ⟨earlier.map (List.take (groupBound config)), last.take (groupBound config), ?_, ?_, ?_⟩
    · simp [List.take_eq_nil_iff, hlast, hbound.ne']
    · simp [historyGroups, hsome]
    · have hpos := List.length_pos_iff.mpr hlast
      have htake : (last ++ [tag]).take (groupBound config) =
          if (last.take (groupBound config)).length < config.maxFramesPerGop
            then last.take (groupBound config) ++ [tag] else last.take (groupBound config) := by
        rw [List.length_take, List.take_append]
        by_cases hroom : last.length < config.maxFramesPerGop
        · have hlimit : last.length < groupBound config := by
            simp only [groupBound]
            omega
          have hone : [tag].take (groupBound config - last.length) = [tag] := by
            apply List.take_of_length_le
            simp only [List.length_singleton]
            omega
          rw [if_pos (by omega), hone]
        · have hlimit : groupBound config ≤ last.length := by
            simp only [groupBound]
            omega
          have hfull : config.maxFramesPerGop ≤ groupBound config := by
            simp only [groupBound]
            omega
          rw [if_neg (by omega), Nat.sub_eq_zero_of_le hlimit, List.take_zero, List.append_nil]
      simp only [historyGroups, hfilter, hlonger, List.map_append, List.map_cons, List.map_nil]
      rw [htake]

/-! ### The cache keeps the window -/

/-- The cache holds the window of a history. -/
structure Holds (config : GopCacheConfig) (cache : Cache) (tags : List FlvTagPacket) : Prop where
  config_eq : cache.config = config
  metadata : cache.metadata = lastMarked isScript tags
  aacSeqHeader : cache.aacSeqHeader = lastMarked isAacSeqHeader tags
  videoSeqHeader : cache.videoSeqHeader = lastMarked isVideoSeqHeader tags
  current : cache.currentGop.map Gop.allTags = (historyGroups config tags).getLast?
  ring : cache.gopRing.map Gop.allTags = (historyGroups config tags).dropLast.rtake config.gopCount

variable {config : GopCacheConfig} {cache : Cache} {tags : List FlvTagPacket}

theorem holds_new (config : GopCacheConfig) : Holds config (Cache.new config) [] :=
  ⟨rfl, rfl, rfl, rfl, rfl, by simp [Cache.new, historyGroups, groups, cut]⟩

/-- A frame is not what the cache keeps apart. -/
theorem marks_of_isFrame {tag : FlvTagPacket} (hframe : isFrame tag = true) :
    isScript tag = false ∧ isAacSeqHeader tag = false ∧ isVideoSeqHeader tag = false := by
  simpa [isFrame, and_assoc] using hframe

/-- Adding to the running group touches nothing but that group. -/
theorem addToCurrentGop_frame (cache : Cache) (tag : FlvTagPacket) :
    (cache.addToCurrentGop tag).config = cache.config ∧
      ((cache.addToCurrentGop tag).metadata = cache.metadata ∧
        (cache.addToCurrentGop tag).aacSeqHeader = cache.aacSeqHeader ∧
          (cache.addToCurrentGop tag).videoSeqHeader = cache.videoSeqHeader) ∧
            (cache.addToCurrentGop tag).gopRing = cache.gopRing := by
  rw [Cache.addToCurrentGop]
  split
  · split <;> exact ⟨rfl, ⟨rfl, rfl, rfl⟩, rfl⟩
  · exact ⟨rfl, ⟨rfl, rfl, rfl⟩, rfl⟩

/-- The tags of the running group after a frame was added to it. -/
theorem addToCurrentGop_current (cache : Cache) (tag : FlvTagPacket) :
    (cache.addToCurrentGop tag).currentGop.map Gop.allTags =
      (cache.currentGop.map Gop.allTags).map fun held ↦
        if held.length < cache.config.maxFramesPerGop then held ++ [tag] else held := by
  rw [Cache.addToCurrentGop]
  cases hgop : cache.currentGop with
  | none => simp [hgop]
  | some gop =>
    have hlength : gop.allTags.length = gop.len := by simp [Gop.len, Gop.allTags, Nat.add_comm]
    by_cases hroom : gop.len < cache.config.maxFramesPerGop
    · have hheld : gop.allTags.length < cache.config.maxFramesPerGop := by rwa [hlength]
      simp only [hroom, if_true, Option.map_some, hheld]
      rfl
    · simp [hroom, hlength, hgop]

/-- Closing the running group touches the groups only. -/
theorem finalizeCurrentGop_frame (cache : Cache) :
    cache.finalizeCurrentGop.config = cache.config ∧
      cache.finalizeCurrentGop.metadata = cache.metadata ∧
        cache.finalizeCurrentGop.aacSeqHeader = cache.aacSeqHeader ∧
          cache.finalizeCurrentGop.videoSeqHeader = cache.videoSeqHeader := by
  rw [Cache.finalizeCurrentGop]
  split <;> exact ⟨rfl, rfl, rfl, rfl⟩

/-- Closing the running group when there is none. Assumes: there is none. -/
theorem finalizeCurrentGop_of_none (hgop : cache.currentGop = none) :
    cache.finalizeCurrentGop = cache := by
  simp [Cache.finalizeCurrentGop, hgop]

/-- The running group goes to the end of the ring, which keeps its last groups. Assumes: there is a
running group. -/
theorem finalizeCurrentGop_of_some {gop : Gop} (hgop : cache.currentGop = some gop) :
    cache.finalizeCurrentGop =
      { cache with
        currentGop := none
        gopRing := (cache.gopRing ++ [gop]).rtake cache.config.gopCount } := by
  simp [Cache.finalizeCurrentGop, hgop, List.rtake]

/-- The ring after the running group was closed is the window of all groups so far. -/
theorem Holds.finalize_ring (hholds : Holds config cache tags) :
    cache.finalizeCurrentGop.gopRing.map Gop.allTags =
      (historyGroups config tags).rtake config.gopCount := by
  have hcurrent := hholds.current
  have hring := hholds.ring
  cases hgop : cache.currentGop with
  | none =>
    rw [hgop, Option.map_none, eq_comm, List.getLast?_eq_none_iff] at hcurrent
    rw [finalizeCurrentGop_of_none hgop, hring, hcurrent, List.dropLast_nil]
  | some gop =>
    rw [hgop, Option.map_some, eq_comm, List.getLast?_eq_some_iff] at hcurrent
    obtain ⟨earlier, hsplit⟩ := hcurrent
    rw [hsplit, List.dropLast_concat] at hring
    rw [finalizeCurrentGop_of_some hgop, hholds.config_eq, hsplit]
    show ((cache.gopRing ++ [gop]).rtake config.gopCount).map Gop.allTags = _
    rw [← rtake_map, List.map_append, hring, List.map_singleton, rtake_concat_rtake]

/-- A frame leaves what the cache keeps apart as it is, so the groups decide. Assumes: the cache
after it has the same configuration and headers, and the groups of the longer history. -/
theorem Holds.concat_frame (hholds : Holds config cache tags) {tag : FlvTagPacket}
    (hframe : isFrame tag = true) {after : Cache} (hconfig : after.config = cache.config)
    (hheaders : after.metadata = cache.metadata ∧ after.aacSeqHeader = cache.aacSeqHeader ∧
      after.videoSeqHeader = cache.videoSeqHeader)
    (hcurrent : after.currentGop.map Gop.allTags =
      (historyGroups config (tags ++ [tag])).getLast?)
    (hring : after.gopRing.map Gop.allTags =
      (historyGroups config (tags ++ [tag])).dropLast.rtake config.gopCount) :
    Holds config after (tags ++ [tag]) := by
  obtain ⟨hscript, haac, hvideo⟩ := marks_of_isFrame hframe
  obtain ⟨hmetadata, haacHeader, hvideoHeader⟩ := hheaders
  refine ⟨hconfig.trans hholds.config_eq, ?_, ?_, ?_, hcurrent, hring⟩
  · simp [hmetadata, hholds.metadata, hscript]
  · simp [haacHeader, hholds.aacSeqHeader, haac]
  · simp [hvideoHeader, hholds.videoSeqHeader, hvideo]

/-- A keyframe closes the running group and begins one. -/
theorem Holds.addTag_keyframe (hholds : Holds config cache tags) {tag : FlvTagPacket}
    (hkey : isKeyframe tag = true) : Holds config (cache.addTag tag) (tags ++ [tag]) := by
  obtain ⟨hconfig, hheaders⟩ := finalizeCurrentGop_frame cache
  rw [addTag_of_isKeyframe cache hkey]
  refine hholds.concat_frame (isFrame_of_isKeyframe hkey) hconfig hheaders ?_ ?_
  · simp [historyGroups_concat_keyframe config tags hkey, Gop.allTags]
  · rw [historyGroups_concat_keyframe config tags hkey, List.dropLast_concat]
    exact hholds.finalize_ring

/-- A frame that is no keyframe goes to the running group while that has room. -/
theorem Holds.addTag_frame (hholds : Holds config cache tags) {tag : FlvTagPacket}
    (hframe : isFrame tag = true) (hkey : isKeyframe tag = false) :
    Holds config (cache.addTag tag) (tags ++ [tag]) := by
  obtain ⟨hconfig, hheaders, hgopRing⟩ := addToCurrentGop_frame cache tag
  have hcurrent := addToCurrentGop_current cache tag
  rw [hholds.current, hholds.config_eq] at hcurrent
  rw [addTag_of_isFrame cache hframe hkey]
  refine hholds.concat_frame hframe hconfig hheaders ?_ ?_
  · rw [hcurrent]
    rcases historyGroups_concat_frame config tags hframe hkey with
      ⟨hnone, hstill⟩ | ⟨earlier, last, -, hsome, hlonger⟩
    · rw [hnone, hstill]
      rfl
    · rw [hsome, hlonger, List.getLast?_concat, List.getLast?_concat, Option.map_some]
  · rw [hgopRing, hholds.ring]
    rcases historyGroups_concat_frame config tags hframe hkey with
      ⟨hnone, hstill⟩ | ⟨earlier, last, -, hsome, hlonger⟩
    · rw [hnone, hstill]
    · rw [hsome, hlonger, List.dropLast_concat, List.dropLast_concat]

/-- A tag that is no frame is kept apart, in place of the last of its kind. -/
theorem Holds.addTag_header (hholds : Holds config cache tags) {tag : FlvTagPacket}
    (hframe : isFrame tag = false) : Holds config (cache.addTag tag) (tags ++ [tag]) := by
  have hgroups := historyGroups_concat_header config tags hframe
  rcases kind_cases tag with ⟨hscript, haac, hvideo⟩ | ⟨hscript, haac, hvideo⟩ |
    ⟨hscript, haac, hvideo⟩ | ⟨hscript, haac, hvideo⟩
  · rw [addTag_of_isScript cache hscript]
    refine ⟨hholds.config_eq, ?_, ?_, ?_, ?_, ?_⟩
    · simp [hscript]
    · simp [haac, hholds.aacSeqHeader]
    · simp [hvideo, hholds.videoSeqHeader]
    · simp [hgroups, hholds.current]
    · simp [hgroups, hholds.ring]
  · rw [addTag_of_isAacSeqHeader cache haac]
    refine ⟨hholds.config_eq, ?_, ?_, ?_, ?_, ?_⟩
    · simp [hscript, hholds.metadata]
    · simp [haac]
    · simp [hvideo, hholds.videoSeqHeader]
    · simp [hgroups, hholds.current]
    · simp [hgroups, hholds.ring]
  · rw [addTag_of_isVideoSeqHeader cache hvideo]
    refine ⟨hholds.config_eq, ?_, ?_, ?_, ?_, ?_⟩
    · simp [hscript, hholds.metadata]
    · simp [haac, hholds.aacSeqHeader]
    · simp [hvideo]
    · simp [hgroups, hholds.current]
    · simp [hgroups, hholds.ring]
  · simp [isFrame, hscript, haac, hvideo] at hframe

/-- One tag keeps the window. -/
theorem Holds.addTag (hholds : Holds config cache tags) (tag : FlvTagPacket) :
    Holds config (cache.addTag tag) (tags ++ [tag]) := by
  by_cases hframe : isFrame tag = true
  · by_cases hkey : isKeyframe tag = true
    · exact hholds.addTag_keyframe hkey
    · exact hholds.addTag_frame hframe (eq_false_of_ne_true hkey)
  · exact hholds.addTag_header (eq_false_of_ne_true hframe)

/-- A fresh cache holds the window of whatever it was fed. -/
theorem holds_addTags (config : GopCacheConfig) (tags : List FlvTagPacket) :
    Holds config ((Cache.new config).addTags tags) tags := by
  induction tags using List.reverseRecOn with
  | nil => exact holds_new config
  | append_singleton tags tag ih =>
    rw [Cache.addTags_concat]
    exact ih.addTag tag

/-- The groups a cache holds are those of the window. -/
theorem Holds.map_allTags (hholds : Holds config cache tags) :
    (cache.gopRing ++ cache.currentGop.toList).map Gop.allTags = windowGroups config tags := by
  have hcurrent := hholds.current
  have hring := hholds.ring
  have hwindow : windowGroups config tags =
      (historyGroups config tags).rtake (config.gopCount + 1) := rfl
  rw [hwindow, List.map_append]
  cases hgop : cache.currentGop with
  | none =>
    rw [hgop, Option.map_none, eq_comm, List.getLast?_eq_none_iff] at hcurrent
    rw [hring, hcurrent]
    simp
  | some gop =>
    rw [hgop, Option.map_some, eq_comm, List.getLast?_eq_some_iff] at hcurrent
    obtain ⟨earlier, hsplit⟩ := hcurrent
    rw [hring, hsplit, List.dropLast_concat, List.rtake_concat_succ]
    rfl

/-- What a cache hands out after some tags is the window of these tags. -/
theorem startupTags_eq (config : GopCacheConfig) (tags : List FlvTagPacket) :
    ((Cache.new config).addTags tags).getStartupTags = startupWindow config tags := by
  have hholds := holds_addTags config tags
  rw [Cache.getStartupTags, List.append_assoc, ← List.flatMap_append, List.flatMap_def,
    hholds.map_allTags, hholds.metadata, hholds.aacSeqHeader, hholds.videoSeqHeader]
  rfl

/-- The burst a client is handed by a fresh cache that was fed some tags. -/
def startupBurst (config : GopCacheConfig) (tags : List FlvTagPacket) : List FlvTagPacket :=
  ((Cache.new config).addTags tags).getStartupTags

/-- The startup burst is the last metadata, the last AAC sequence header and the last video sequence
header, followed by the last `gop_count + 1` groups. The groups are what is left of the history, cut
at each keyframe, without what comes before the first one, and each is cut off after `max 1
max_frames_per_gop` tags. -/
theorem getStartupTags_eq_window (config : GopCacheConfig) (tags : List FlvTagPacket) :
    ((Cache.new config).addTags tags).getStartupTags =
      (lastMarked isScript tags).toList ++ (lastMarked isAacSeqHeader tags).toList ++
        (lastMarked isVideoSeqHeader tags).toList ++
          (((groups isKeyframe (tags.filter isFrame)).map
            (List.take (max 1 config.maxFramesPerGop))).rtake (config.gopCount + 1)).flatten := by
  rw [startupTags_eq]
  rfl

/-! ### The window of a window -/

theorem kind_of_isScript {tag : FlvTagPacket} (htag : isScript tag = true) :
    isAacSeqHeader tag = false ∧ isVideoSeqHeader tag = false ∧ isFrame tag = false := by
  have hkind := kind_cases tag
  simp_all [isFrame]

theorem kind_of_isAacSeqHeader {tag : FlvTagPacket} (htag : isAacSeqHeader tag = true) :
    isScript tag = false ∧ isVideoSeqHeader tag = false ∧ isFrame tag = false := by
  have hkind := kind_cases tag
  simp_all [isFrame]

theorem kind_of_isVideoSeqHeader {tag : FlvTagPacket} (htag : isVideoSeqHeader tag = true) :
    isScript tag = false ∧ isAacSeqHeader tag = false ∧ isFrame tag = false := by
  have hkind := kind_cases tag
  simp_all [isFrame]

theorem isFrame_of_mem_windowGroups {part : List FlvTagPacket}
    (hpart : part ∈ windowGroups config tags) {tag : FlvTagPacket} (htag : tag ∈ part) :
    isFrame tag = true :=
  (List.mem_filter.mp (mem_of_mem_window hpart htag)).2

theorem isFrame_of_mem_flatten_windowGroups {tag : FlvTagPacket}
    (htag : tag ∈ (windowGroups config tags).flatten) : isFrame tag = true := by
  obtain ⟨part, hpart, hmem⟩ := List.mem_flatten.mp htag
  exact isFrame_of_mem_windowGroups hpart hmem

/-- There is no frame among the headers. -/
theorem filter_isFrame_windowHeaders (tags : List FlvTagPacket) :
    (windowHeaders tags).filter isFrame = [] := by
  rw [List.filter_eq_nil_iff]
  intro tag htag
  rw [Bool.not_eq_true]
  simp only [windowHeaders, List.mem_append, Option.mem_toList] at htag
  rcases htag with (hscript | haac) | hvideo
  · exact (kind_of_isScript (mark_of_lastMarked hscript)).2.2
  · exact (kind_of_isAacSeqHeader (mark_of_lastMarked haac)).2.2
  · exact (kind_of_isVideoSeqHeader (mark_of_lastMarked hvideo)).2.2

/-- The last metadata of the headers. -/
theorem lastScript_windowHeaders (tags : List FlvTagPacket) :
    lastMarked isScript (windowHeaders tags) = lastMarked isScript tags := by
  have haac : lastMarked isScript (lastMarked isAacSeqHeader tags).toList = none :=
    lastMarked_toList_other (fun tag h ↦ (kind_of_isAacSeqHeader h).1) tags
  have hvideo : lastMarked isScript (lastMarked isVideoSeqHeader tags).toList = none :=
    lastMarked_toList_other (fun tag h ↦ (kind_of_isVideoSeqHeader h).1) tags
  simp [windowHeaders, lastMarked_append, haac, hvideo]

/-- The last AAC sequence header of the headers. -/
theorem lastAac_windowHeaders (tags : List FlvTagPacket) :
    lastMarked isAacSeqHeader (windowHeaders tags) = lastMarked isAacSeqHeader tags := by
  have hscript : lastMarked isAacSeqHeader (lastMarked isScript tags).toList = none :=
    lastMarked_toList_other (fun tag h ↦ (kind_of_isScript h).1) tags
  have hvideo : lastMarked isAacSeqHeader (lastMarked isVideoSeqHeader tags).toList = none :=
    lastMarked_toList_other (fun tag h ↦ (kind_of_isVideoSeqHeader h).2.1) tags
  simp [windowHeaders, lastMarked_append, hscript, hvideo]

/-- The last video sequence header of the headers. -/
theorem lastVideo_windowHeaders (tags : List FlvTagPacket) :
    lastMarked isVideoSeqHeader (windowHeaders tags) = lastMarked isVideoSeqHeader tags := by
  have hscript : lastMarked isVideoSeqHeader (lastMarked isScript tags).toList = none :=
    lastMarked_toList_other (fun tag h ↦ (kind_of_isScript h).2.1) tags
  have haac : lastMarked isVideoSeqHeader (lastMarked isAacSeqHeader tags).toList = none :=
    lastMarked_toList_other (fun tag h ↦ (kind_of_isAacSeqHeader h).2.1) tags
  simp [windowHeaders, lastMarked_append, hscript, haac]

/-- Frames behind the headers leave the last of each kind alone. Assumes: all of them are frames. -/
theorem windowHeaders_append_of_isFrame (tags : List FlvTagPacket) {frames : List FlvTagPacket}
    (hframes : ∀ tag ∈ frames, isFrame tag = true) :
    windowHeaders (tags ++ frames) = windowHeaders tags := by
  have hscript : lastMarked isScript frames = none :=
    lastMarked_of_unmarked fun tag htag ↦ (marks_of_isFrame (hframes tag htag)).1
  have haac : lastMarked isAacSeqHeader frames = none :=
    lastMarked_of_unmarked fun tag htag ↦ (marks_of_isFrame (hframes tag htag)).2.1
  have hvideo : lastMarked isVideoSeqHeader frames = none :=
    lastMarked_of_unmarked fun tag htag ↦ (marks_of_isFrame (hframes tag htag)).2.2
  simp [windowHeaders, lastMarked_append, hscript, haac, hvideo]

/-- A window is its own window. -/
theorem startupWindow_idem (config : GopCacheConfig) (tags : List FlvTagPacket) :
    startupWindow config (startupWindow config tags) = startupWindow config tags := by
  have hframes : ∀ tag ∈ (windowGroups config tags).flatten, isFrame tag = true :=
    fun tag htag ↦ isFrame_of_mem_flatten_windowGroups htag
  have hheaders : windowHeaders (startupWindow config tags) = windowHeaders tags := by
    rw [startupWindow, windowHeaders_append_of_isFrame _ hframes]
    rw [windowHeaders, lastScript_windowHeaders, lastAac_windowHeaders, lastVideo_windowHeaders]
    rfl
  have hgroups : windowGroups config (startupWindow config tags) = windowGroups config tags := by
    have hfilter : (startupWindow config tags).filter isFrame =
        (windowGroups config tags).flatten := by
      rw [startupWindow, List.filter_append, filter_isFrame_windowHeaders, List.nil_append]
      exact List.filter_eq_self.mpr hframes
    rw [windowGroups, hfilter]
    exact window_flatten (groupBound_pos config) _
  rw [startupWindow, hheaders, hgroups]
  rfl

/-- A cache fed with a burst hands out that burst, and so does every cache fed with what the one
before it hands out. -/
theorem startupBurst_iterate (config : GopCacheConfig) (tags : List FlvTagPacket) (depth : ℕ) :
    (startupBurst config)^[depth] (startupBurst config tags) = startupBurst config tags := by
  apply Function.iterate_fixed
  show startupBurst config (startupBurst config tags) = startupBurst config tags
  rw [startupBurst, startupBurst, startupTags_eq, startupTags_eq, startupWindow_idem]

end LiveCDN.Agent.GopWindow
