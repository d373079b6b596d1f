import Mathlib.Data.List.Nodup
import Lvqr.Lib.Decimal
import Lvqr.Lib.Text
import Lvqr.Hls.Broadcasts

set_option autoImplicit false

-- The captions of a broadcast: a window of cues, each a segment of its own. The
-- sequence numbers are u64 and wrap.
namespace Lvqr.Hls

structure CaptionCue where
  startMs : Nat
  endMs : Nat
  text : String
deriving DecidableEq, Repr

namespace CaptionCue

def durationMs (cue : CaptionCue) : Nat := cue.endMs - cue.startMs

def durationSecsCeil (cue : CaptionCue) : Nat :=
  let ms := cue.durationMs
  if ms = 0 then 1 else (ms + 999) / 1000

end CaptionCue

structure CaptionSegment where
  mediaSequence : Nat
  cue : CaptionCue
deriving DecidableEq, Repr

def cueUri (mediaSequence : Nat) : String := "seg-" ++ toString mediaSequence ++ ".vtt"

def CaptionSegment.uri (segment : CaptionSegment) : String := cueUri segment.mediaSequence

def daysSinceEpochToYmd (days : Int) : Int × Nat × Nat :=
  let z := days + 719468
  let era := z.ediv 146097
  let doe := (z.emod 146097).toNat
  let yoe := (doe - doe / 1460 + doe / 36524 - doe / 146096) / 365
  let y := (yoe : Int) + era * 400
  let doy := doe - (365 * yoe + yoe / 4 - yoe / 100)
  let mp := (5 * doy + 2) / 153
  let d := doy - (153 * mp + 2) / 5 + 1
  let m := if mp < 10 then mp + 3 else mp - 9
  (if m ≤ 2 then y + 1 else y, m, d)

def formatIso8601Utc (msSinceEpoch : Nat) : String :=
  let totalSecs := msSinceEpoch / 1000
  let secsOfDay := totalSecs % 86400
  let (year, month, day) := daysSinceEpochToYmd (totalSecs / 86400 : Nat)
  Decimal.padLeft 4 year.toNat ++ "-" ++ Decimal.padLeft 2 month ++ "-" ++ Decimal.padLeft 2 day ++ "T" ++
    Decimal.padLeft 2 (secsOfDay / 3600) ++ ":" ++ Decimal.padLeft 2 (secsOfDay % 3600 / 60) ++ ":" ++
    Decimal.padLeft 2 (secsOfDay % 60) ++ "." ++ Decimal.padLeft 3 (msSinceEpoch % 1000) ++ "Z"

def formatWebvttTimestamp (ms : Nat) : String :=
  let totalSeconds := ms / 1000
  let hours := totalSeconds / 3600
  if 100 ≤ hours then "99:59:59.999"
  else
    Decimal.padLeft 2 hours ++ ":" ++ Decimal.padLeft 2 (totalSeconds % 3600 / 60) ++ ":" ++
      Decimal.padLeft 2 (totalSeconds % 60) ++ "." ++ Decimal.padLeft 3 (ms % 1000)

def renderWebvttBody (cue : CaptionCue) : String :=
  "WEBVTT\n\n" ++ formatWebvttTimestamp 0 ++ " --> " ++ formatWebvttTimestamp cue.durationMs ++ "\n" ++ cue.text ++ "\n"

structure SubtitlesServer where
  window : List CaptionSegment
  maxCues : Nat
  mediaSequenceBase : Nat
  nextMediaSequence : Nat
  targetDurationSecs : Nat
  ended : Bool
deriving DecidableEq, Repr

def DEFAULT_MAX_CUES : Nat := 50

def DEFAULT_MIN_TARGET_DURATION_SECS : Nat := 6

-- `count` sequence numbers from `first` on.
def wrapped (first count : Nat) : List Nat := (List.range' first count).map (· % 2 ^ 64)

theorem wrapped_concat (first count : Nat) : wrapped first (count + 1) = wrapped first count ++ [(first + count) % 2 ^ 64] := by
  rw [wrapped, List.range'_concat, List.map_append, Nat.one_mul]
  rfl

theorem wrapped_drop (first count dropped : Nat) :
    (wrapped first count).drop dropped = wrapped (first + dropped) (count - dropped) := by
  rw [wrapped, ← List.map_drop, List.drop_range', Nat.mul_one]
  rfl

theorem wrapped_nodup (first count : Nat) (short : count ≤ 2 ^ 64) : (wrapped first count).Nodup := by
  refine List.Nodup.map_on (fun a low b high same => ?_) List.nodup_range'
  rw [List.mem_range'_1] at low high
  omega

namespace SubtitlesServer

def withMaxCues (maxCues : Nat) : SubtitlesServer :=
  ⟨[], max maxCues 1, 0, 0, DEFAULT_MIN_TARGET_DURATION_SECS, false⟩

def new : SubtitlesServer := withMaxCues DEFAULT_MAX_CUES

def evict (server : SubtitlesServer) : SubtitlesServer :=
  let overflow := server.window.length - server.maxCues
  { server with
    window := server.window.drop overflow
    mediaSequenceBase := (server.mediaSequenceBase + overflow) % 2 ^ 64 }

def pushCue (server : SubtitlesServer) (cue : CaptionCue) : SubtitlesServer :=
  if server.ended then server
  else
    evict { server with
      targetDurationSecs := max server.targetDurationSecs cue.durationSecsCeil
      nextMediaSequence := (server.nextMediaSequence + 1) % 2 ^ 64
      window := server.window ++ [⟨server.nextMediaSequence, cue⟩] }

def finalize (server : SubtitlesServer) : SubtitlesServer := { server with ended := true }

def renderSegmentEntry (segment : CaptionSegment) : String :=
  "#EXT-X-PROGRAM-DATE-TIME:" ++ formatIso8601Utc segment.cue.startMs ++ "\n" ++
    "#EXTINF:" ++ Decimal.fixed 3 (Decimal.f64 segment.cue.durationSecsCeil) ++ ",\n" ++ segment.uri ++ "\n"

def renderPlaylist (server : SubtitlesServer) : String :=
  "#EXTM3U\n" ++ "#EXT-X-VERSION:9\n" ++
    "#EXT-X-TARGETDURATION:" ++ toString server.targetDurationSecs ++ "\n" ++
    "#EXT-X-MEDIA-SEQUENCE:" ++ toString server.mediaSequenceBase ++ "\n" ++
    String.join (server.window.map renderSegmentEntry) ++ (if server.ended then "#EXT-X-ENDLIST\n" else "")

def renderSegment (server : SubtitlesServer) (mediaSequence : Nat) : Option String :=
  (server.window.find? fun segment => segment.mediaSequence = mediaSequence).map fun segment => renderWebvttBody segment.cue

def parseSegmentUri (uri : String) : Option Nat :=
  ((Text.stripPrefix "seg-".toList uri.toList).bind (Text.stripSuffix ".vtt".toList)).bind (Text.parseUnsigned (2 ^ 64))

-- The window is the run of numbers that ends in front of the next one.
structure Consecutive (server : SubtitlesServer) : Prop where
  numbers : ∃ first, server.window.map CaptionSegment.mediaSequence = wrapped first server.window.length ∧
    server.nextMediaSequence = (first + server.window.length) % 2 ^ 64
  room : server.window.length ≤ server.maxCues
  small : server.maxCues ≤ DEFAULT_MAX_CUES

theorem new_consecutive : Consecutive new := ⟨⟨0, rfl, rfl⟩, Nat.zero_le _, by decide⟩

theorem finalize_consecutive (server : SubtitlesServer) (consecutive : Consecutive server) :
    Consecutive server.finalize := ⟨consecutive.numbers, consecutive.room, consecutive.small⟩

theorem push_cue_consecutive (server : SubtitlesServer) (cue : CaptionCue) (consecutive : Consecutive server) :
    Consecutive (server.pushCue cue) := by
  obtain ⟨⟨first, numbers, next⟩, room, small⟩ := consecutive
  rw [pushCue]
  split
  · exact ⟨⟨first, numbers, next⟩, room, small⟩
  · have length : (server.window ++ [(⟨server.nextMediaSequence, cue⟩ : CaptionSegment)]).length =
        server.window.length + 1 := List.length_append
    have grown : (server.window ++ [(⟨server.nextMediaSequence, cue⟩ : CaptionSegment)]).map CaptionSegment.mediaSequence =
        wrapped first (server.window.length + 1) := by
      rw [List.map_append, numbers, wrapped_concat, ← next]
      rfl
    obtain ⟨overflow, isOverflow⟩ : ∃ overflow, overflow = server.window.length + 1 - server.maxCues := ⟨_, rfl⟩
    simp only [evict, length, ← isOverflow]
    refine ⟨⟨first + overflow, ?_, ?_⟩, ?_, small⟩
    · rw [List.map_drop, grown, wrapped_drop, List.length_drop, length]
    · dsimp only
      rw [List.length_drop, length, next]
      omega
    · dsimp only
      rw [List.length_drop, length]
      omega

theorem consecutive_nodup (server : SubtitlesServer) (consecutive : Consecutive server) :
    (server.window.map CaptionSegment.mediaSequence).Nodup := by
  obtain ⟨⟨first, numbers, _⟩, room, small⟩ := consecutive
  have short : server.window.length ≤ 2 ^ 64 := room.trans (small.trans (by decide))
  rw [numbers]
  exact wrapped_nodup first _ short

theorem parse_cue_uri (mediaSequence : Nat) (fits : mediaSequence < 2 ^ 64) :
    parseSegmentUri (cueUri mediaSequence) = some mediaSequence := by
  have chars : (cueUri mediaSequence).toList = "seg-".toList ++ (Nat.toDigits 10 mediaSequence ++ ".vtt".toList) := by
    rw [cueUri, String.toList_append, String.toList_append, Nat.toString_eq_repr, Nat.toList_repr, List.append_assoc]
  rw [parseSegmentUri, chars, Text.strip_prefix_append, Option.bind_some, Text.strip_suffix_append, Option.bind_some,
    Text.parse_unsigned_digits _ _ fits]

-- A cue of a window whose numbers are distinct is found under its own URI.
theorem render_numbered (server : SubtitlesServer) (distinct : (server.window.map CaptionSegment.mediaSequence).Nodup)
    (segment : CaptionSegment) (listed : segment ∈ server.window) (fits : segment.mediaSequence < 2 ^ 64) :
    (parseSegmentUri segment.uri).bind server.renderSegment = some (renderWebvttBody segment.cue) := by
  have found : server.window.find? (fun other => other.mediaSequence = segment.mediaSequence) = some segment := by
    cases search : server.window.find? (fun other => other.mediaSequence = segment.mediaSequence) with
    | none => exact absurd (List.find?_eq_none.mp search segment listed) (by simp)
    | some other =>
        have same : other.mediaSequence = segment.mediaSequence := by simpa using List.find?_some search
        rw [List.inj_on_of_nodup_map distinct (List.mem_of_find?_eq_some search) listed same]
  rw [CaptionSegment.uri, parse_cue_uri _ fits, Option.bind_some, renderSegment, found, Option.map_some]

theorem render_listed (server : SubtitlesServer) (consecutive : Consecutive server) (segment : CaptionSegment)
    (listed : segment ∈ server.window) :
    (parseSegmentUri segment.uri).bind server.renderSegment = some (renderWebvttBody segment.cue) := by
  have numbered : segment.mediaSequence ∈ server.window.map CaptionSegment.mediaSequence := List.mem_map_of_mem listed
  have fits : segment.mediaSequence < 2 ^ 64 := by
    obtain ⟨first, numbers, _⟩ := consecutive.numbers
    rw [numbers] at numbered
    obtain ⟨number, _, same⟩ := List.mem_map.mp numbered
    omega
  exact render_numbered server (consecutive_nodup server consecutive) segment listed fits

end SubtitlesServer

end Lvqr.Hls

-- What the servers of all broadcasts share, and the master playlist. The captions
-- of an entry stand in a table of their own.
namespace Lvqr.Hls

inductive MediaRenditionType where
  | audio
  | video
  | subtitles
  | closedCaptions
deriving DecidableEq, Repr

def MediaRenditionType.asStr : MediaRenditionType → String
  | .audio => "AUDIO"
  | .video => "VIDEO"
  | .subtitles => "SUBTITLES"
  | .closedCaptions => "CLOSED-CAPTIONS"

structure MediaRendition where
  renditionType : MediaRenditionType
  groupId : String
  name : String
  uri : String
  default : Bool
  autoselect : Bool
  language : Option String
deriving DecidableEq, Repr

structure VariantStream where
  bandwidthBps : Nat
  codecs : String
  resolution : Option (Nat × Nat)
  audioGroup : Option String
  subtitlesGroup : Option String
  uri : String
deriving DecidableEq, Repr

structure RenditionMeta where
  name : String
  bandwidthBps : Nat
  resolution : Option (Nat × Nat)
  codecs : String
deriving DecidableEq, Repr

structure MasterPlaylist where
  version : Nat
  renditions : List MediaRendition
  variants : List VariantStream
deriving DecidableEq, Repr

def MediaRendition.render (media : MediaRendition) : String :=
  "#EXT-X-MEDIA:TYPE=" ++ media.renditionType.asStr ++ ",GROUP-ID=\"" ++ media.groupId ++ "\",NAME=\"" ++ media.name ++
    "\",DEFAULT=" ++ (if media.default then "YES" else "NO") ++ ",AUTOSELECT=" ++ (if media.autoselect then "YES" else "NO") ++
    (match media.language with
      | some lang => ",LANGUAGE=\"" ++ lang ++ "\""
      | none => "") ++
    ",URI=\"" ++ media.uri ++ "\"\n"

def groupAttribute (name : String) : Option String → String
  | some group => "," ++ name ++ "=\"" ++ group ++ "\""
  | none => ""

def VariantStream.render (variant : VariantStream) : String :=
  "#EXT-X-STREAM-INF:BANDWIDTH=" ++ toString variant.bandwidthBps ++ ",CODECS=\"" ++ variant.codecs ++ "\"" ++
    (match variant.resolution with
      | some (w, h) => ",RESOLUTION=" ++ toString w ++ "x" ++ toString h
      | none => "") ++
    groupAttribute "AUDIO" variant.audioGroup ++ groupAttribute "SUBTITLES" variant.subtitlesGroup ++ "\n" ++
    variant.uri ++ "\n"

def MasterPlaylist.render (master : MasterPlaylist) : String :=
  "#EXTM3U\n" ++ "#EXT-X-VERSION:" ++ toString master.version ++ "\n" ++ "#EXT-X-INDEPENDENT-SEGMENTS\n" ++
    String.join (master.renditions.map MediaRendition.render) ++ String.join (master.variants.map VariantStream.render)

-- Reads of an init segment, made outside this crate.
structure CodecStrings where
  detectVideo : Bytes → Option String
  detectAudio : Bytes → Option String

def CodecStrings.none : CodecStrings := ⟨fun _ => .none, fun _ => .none⟩

structure MultiHlsState extends MultiHlsServer where
  subtitles : Table String SubtitlesServer
  ownerResolver : Option (String → Option String)
  ladder : List RenditionMeta
  sourceBandwidthBps : Option Nat

namespace MultiHlsState

def withOwnerResolver (config : PlaylistBuilderConfig) (resolver : Option (String → Option String)) : MultiHlsState :=
  ⟨.new config, ∅, resolver, [], none⟩

def resolveRedirectBase (multi : MultiHlsState) (broadcast : String) : Option String :=
  multi.ownerResolver.bind fun resolver => resolver broadcast

def subtitlesOf (multi : MultiHlsState) (broadcast : String) : Option SubtitlesServer := multi.subtitles.lookup broadcast

def ensureVideo (multi : MultiHlsState) (broadcast : String) (now : Nat) : MultiHlsState :=
  { multi with toMultiHlsServer := multi.toMultiHlsServer.ensureVideo broadcast now }

def ensureAudio (multi : MultiHlsState) (broadcast : String) (timescale now audioNow : Nat) : MultiHlsState :=
  { multi with toMultiHlsServer := multi.toMultiHlsServer.ensureAudio broadcast timescale now audioNow }

def ensureSubtitles (multi : MultiHlsState) (broadcast : String) (now : Nat) : MultiHlsState :=
  let ensured := multi.ensureVideo broadcast now
  match ensured.subtitles.lookup broadcast with
  | some _ => ensured
  | none => { ensured with subtitles := ensured.subtitles.insert broadcast .new }

def update (multi : MultiHlsState) (rendition : Rendition) (broadcast : String) (change : HlsServer → HlsServer) :
    MultiHlsState :=
  { multi with toMultiHlsServer := multi.toMultiHlsServer.update rendition broadcast change }

def updateSubtitles (multi : MultiHlsState) (broadcast : String) (change : SubtitlesServer → SubtitlesServer) :
    MultiHlsState :=
  { multi with subtitles := multi.subtitles.modify broadcast change }

def pushDateRange (multi : MultiHlsState) (broadcast : String) (range : DateRange) (now : Nat) : MultiHlsState :=
  (multi.ensureVideo broadcast now).update .video broadcast fun server => server.pushDateRange range

def finalizeBroadcast (multi : MultiHlsState) (broadcast : String) : MultiHlsState :=
  { multi with toMultiHlsServer := multi.toMultiHlsServer.finalizeBroadcast broadcast }.updateSubtitles broadcast
    SubtitlesServer.finalize

def setLadder (multi : MultiHlsState) (ladder : List RenditionMeta) : MultiHlsState := { multi with ladder := ladder }

def setSourceBandwidthBps (multi : MultiHlsState) (bps : Option Nat) : MultiHlsState :=
  { multi with sourceBandwidthBps := bps }

def variantSiblings (multi : MultiHlsState) (source : String) : List String :=
  (((multi.broadcasts.keys.filterMap fun key => Text.stripPrefix (source ++ "/").toList key.toList).filter
    fun suffix => '/' ∉ suffix).map String.ofList).mergeSort fun first second => first ≤ second

def siblingVariant (multi : MultiHlsState) (broadcast suffix : String) : Option VariantStream :=
  (multi.ladder.find? fun rung => rung.name = suffix).bind fun rung =>
    (multi.get .video (broadcast ++ "/" ++ suffix)).map fun _ =>
      { bandwidthBps := rung.bandwidthBps
        codecs := rung.codecs
        resolution := rung.resolution
        audioGroup := none
        subtitlesGroup := if (multi.subtitlesOf broadcast).isSome then some "subs" else none
        uri := "./" ++ suffix ++ "/playlist.m3u8" }

def defaultSourceBandwidth (ladder : List RenditionMeta) : Nat :=
  match (ladder.map RenditionMeta.bandwidthBps).max? with
  | some top => (top + top / 5) % 2 ^ 64
  | none => 2500000

def codecs (multi : MultiHlsState) (detect : CodecStrings) (broadcast : String) : String :=
  let codecOf (rendition : Rendition) (read : Bytes → Option String) (fallback : String) : String :=
    (((multi.get rendition broadcast).bind HlsServer.initSegment).bind read).getD fallback
  let videoCodec := codecOf .video detect.detectVideo "avc1.640020"
  if (multi.get .audio broadcast).isSome then videoCodec ++ "," ++ codecOf .audio detect.detectAudio "mp4a.40.2"
  else videoCodec

def sourceVariant (multi : MultiHlsState) (detect : CodecStrings) (broadcast : String) : VariantStream where
  bandwidthBps := multi.sourceBandwidthBps.getD (defaultSourceBandwidth multi.ladder)
  codecs := multi.codecs detect broadcast
  resolution := none
  audioGroup := if (multi.get .audio broadcast).isSome then some "audio" else none
  subtitlesGroup := if (multi.subtitlesOf broadcast).isSome then some "subs" else none
  uri := "playlist.m3u8"

def audioRendition : MediaRendition := ⟨.audio, "audio", "default", "audio.m3u8", true, true, none⟩

def subtitlesRendition : MediaRendition :=
  ⟨.subtitles, "subs", "English", "captions/playlist.m3u8", true, true, some "en"⟩

-- The playlist `handle_master_playlist` renders for a broadcast with video.
def masterPlaylist (multi : MultiHlsState) (detect : CodecStrings) (broadcast : String) : MasterPlaylist where
  version := 9
  renditions :=
    (if (multi.get .audio broadcast).isSome then [audioRendition] else []) ++
      (if (multi.subtitlesOf broadcast).isSome then [subtitlesRendition] else [])
  variants :=
    multi.sourceVariant detect broadcast ::
      ((multi.variantSiblings broadcast).filterMap (multi.siblingVariant broadcast)).mergeSort
        fun first second => second.bandwidthBps ≤ first.bandwidthBps

-- A sibling is listed where an entry stands below the broadcast under the name of a rung.
theorem mem_variant_siblings (multi : MultiHlsState) (source suffix : String) :
    suffix ∈ multi.variantSiblings source ↔
      (multi.get .video (source ++ "/" ++ suffix)).isSome = true ∧ '/' ∉ suffix.toList := by
  have known (name : String) : (multi.get .video name).isSome = true ↔ name ∈ multi.broadcasts.keys := by
    rw [← AList.mem_keys, ← AList.lookup_isSome, MultiHlsServer.get]
    cases multi.broadcasts.lookup name <;> rfl
  rw [known, variantSiblings, List.mem_mergeSort, List.mem_map]
  constructor
  · rintro ⟨chars, member, rfl⟩
    obtain ⟨isSibling, flat⟩ := List.mem_filter.mp member
    obtain ⟨key, isKey, stripped⟩ := List.mem_filterMap.mp isSibling
    have whole : key = source ++ "/" ++ String.ofList chars := by
      rw [← String.toList_inj, Text.strip_prefix_some _ _ _ stripped]
      simp
    exact ⟨whole ▸ isKey, by simpa using flat⟩
  · rintro ⟨isKey, flat⟩
    refine ⟨suffix.toList, List.mem_filter.mpr ⟨List.mem_filterMap.mpr ⟨_, isKey, ?_⟩, by simpa using flat⟩,
      String.ofList_toList⟩
    rw [String.toList_append (s := source ++ "/"), Text.strip_prefix_append]

end MultiHlsState

end Lvqr.Hls
