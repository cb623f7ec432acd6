import LiveCDN.Agent.FlvFormat

/-!
# The GOP cache

`relay/gop_cache.rs`: the cache keeps the last metadata, the last sequence headers and the last
groups of pictures of a stream (`GopCache.addTag`), and hands them out to a client that joins
(`GopCache.getStartupTags`).

Scope. The statistics of the cache are left out, the hit count and the total of tags with them.
-/

set_option autoImplicit false
set_option relaxedAutoImplicit false

namespace LiveCDN.Agent.GopCache

open FlvFormat

/-! ### Frame types -/

/-- `VideoFrameType`. -/
inductive VideoFrameType
  | keyframe
  | interFrame
  | seqHeader
  | other
  deriving DecidableEq, Repr

/-- `AudioFrameType`. -/
inductive AudioFrameType
  | seqHeader
  | rawData
  | other
  deriving DecidableEq, Repr

/-- `parse_video_frame_type`. -/
def parseVideoFrameType (tag : FlvTagPacket) : VideoFrameType :=
  if tag.tagType ≠ .video then .other
  else
    match tag.data with
    | [] => .other
    | firstByte :: rest =>
      let frameType := (firstByte >>> 4) &&& 0x0F
      let codecId := firstByte &&& 0x0F
      let coded : VideoFrameType :=
        if frameType = 1 then .keyframe else if frameType = 2 then .interFrame else .other
      if codecId = 7 ∨ codecId = 12 then
        match rest with
        | [] => .other
        | avcPacketType :: _ => if avcPacketType = 0 then .seqHeader else coded
      else coded

/-- `parse_audio_frame_type`. -/
def parseAudioFrameType (tag : FlvTagPacket) : AudioFrameType :=
  if tag.tagType ≠ .audio then .other
  else
    match tag.data with
    | [] => .other
    | firstByte :: rest =>
      if (firstByte >>> 4) &&& 0x0F = 10 then
        match rest with
        | [] => .other
        | aacPacketType :: _ => if aacPacketType = 0 then .seqHeader else .rawData
      else .other

/-! ### The cache -/

/-- `Gop`: a keyframe and the frames behind it. -/
structure Gop where
  keyframe : FlvTagPacket
  frames : List FlvTagPacket
  deriving DecidableEq, Repr

/-- `Gop::all_tags`. -/
def Gop.allTags (gop : Gop) : List FlvTagPacket := gop.keyframe :: gop.frames

/-- `Gop::len`. -/
def Gop.len (gop : Gop) : ℕ := 1 + gop.frames.length

/-- `GopCacheConfig`. -/
structure GopCacheConfig where
  gopCount : ℕ
  maxFramesPerGop : ℕ
  deriving DecidableEq, Repr

/-- `GopCacheConfig::default`. -/
def GopCacheConfig.default : GopCacheConfig := ⟨2, 4096⟩

/-- `GopCache`. -/
structure Cache where
  config : GopCacheConfig
  gopRing : List Gop
  currentGop : Option Gop
  metadata : Option FlvTagPacket
  videoSeqHeader : Option FlvTagPacket
  aacSeqHeader : Option FlvTagPacket
  deriving DecidableEq, Repr

/-- `GopCache::new`. -/
def Cache.new (config : GopCacheConfig) : Cache := ⟨config, [], none, none, none, none⟩

/-- `add_to_current_gop`: the tag is dropped when there is no current group or the group is full. -/
def Cache.addToCurrentGop (cache : Cache) (tag : FlvTagPacket) : Cache :=
  match cache.currentGop with
  | some gop =>
    if gop.len < cache.config.maxFramesPerGop then
      { cache with currentGop := some { gop with frames := gop.frames ++ [tag] } }
    else cache
  | none => cache

/-- `finalize_current_gop`: the oldest groups leave a ring that is too long. -/
def Cache.finalizeCurrentGop (cache : Cache) : Cache :=
  match cache.currentGop with
  | some gop =>
    let ring := cache.gopRing ++ [gop]
    { cache with
      currentGop := none
      gopRing := ring.drop (ring.length - cache.config.gopCount) }
  | none => cache

/-- `add_tag`. -/
def Cache.addTag (cache : Cache) (tag : FlvTagPacket) : Cache :=
  match tag.tagType with
  | .script => { cache with metadata := some tag }
  | .audio =>
    match parseAudioFrameType tag with
    | .seqHeader => { cache with aacSeqHeader := some tag }
    | .rawData => cache.addToCurrentGop tag
    | .other => cache.addToCurrentGop tag
  | .video =>
    match parseVideoFrameType tag with
    | .seqHeader => { cache with videoSeqHeader := some tag }
    | .keyframe => { cache.finalizeCurrentGop with currentGop := some ⟨tag, []⟩ }
    | .interFrame => cache.addToCurrentGop tag
    | .other => cache.addToCurrentGop tag

/-- `get_startup_tags`. -/
def Cache.getStartupTags (cache : Cache) : List FlvTagPacket :=
  cache.metadata.toList ++ cache.aacSeqHeader.toList ++ cache.videoSeqHeader.toList ++
    cache.gopRing.flatMap Gop.allTags ++ cache.currentGop.toList.flatMap Gop.allTags

/-- The cache after some tags. -/
def Cache.addTags (cache : Cache) (tags : List FlvTagPacket) : Cache := tags.foldl addTag cache

theorem Cache.addTags_concat (cache : Cache) (tags : List FlvTagPacket) (tag : FlvTagPacket) :
    cache.addTags (tags ++ [tag]) = (cache.addTags tags).addTag tag := by
  unfold addTags
  rw [List.foldl_append, List.foldl_cons, List.foldl_nil]

end LiveCDN.Agent.GopCache
