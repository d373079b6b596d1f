import Lvqr.Hls.Skipping
import Lvqr.Lib.Text

set_option autoImplicit false

-- Delta playlists: what a client reads off a playlist line by line, and how it puts
-- the segments it knows in the place of those that a later playlist skips.
namespace Lvqr.Hls

open PlaylistBuilder

-- A line with its end, by what a client takes from it.
inductive Line where
  | head (text : String)
  | mediaSequence (number : Nat)
  | skipped (count : Nat)
  | tag (text : String)
  | uri (text : String)
deriving DecidableEq, Repr

def Line.text : Line → String
  | .head text => text
  | .mediaSequence number => "#EXT-X-MEDIA-SEQUENCE:" ++ toString number ++ "\n"
  | .skipped count => "#EXT-X-SKIP:SKIPPED-SEGMENTS=" ++ toString count ++ "\n"
  | .tag text => text
  | .uri text => text

-- The tags that belong to the media segment behind them.
def SEGMENT_TAGS : List String := ["#EXT-X-DISCONTINUITY", "#EXT-X-PROGRAM-DATE-TIME:", "#EXT-X-PART:", "#EXTINF:"]

def readLine (line : List Char) : Option Line :=
  if line = [] then none
  else if line.head? ≠ some '#' then some (.uri (String.ofList line ++ "\n"))
  else match Text.stripPrefix "#EXT-X-MEDIA-SEQUENCE:".toList line with
    | some number => (Text.unsignedValue number).map .mediaSequence
    | none => match Text.stripPrefix "#EXT-X-SKIP:SKIPPED-SEGMENTS=".toList line with
      | some count => (Text.unsignedValue count).map .skipped
      | none =>
          if ∃ tag ∈ SEGMENT_TAGS, tag.toList <+: line then some (.tag (String.ofList line ++ "\n"))
          else some (.head (String.ofList line ++ "\n"))

-- What a client knows of a playlist: the lines of the playlist as a whole, each media
-- segment with its tags, and the tags behind the last segment.
structure Playlist where
  head : List String
  mediaSequence : Nat
  skippedSegments : Nat
  segments : List (List String × String)
  trailing : List String
deriving DecidableEq, Repr

namespace Playlist

def empty : Playlist := ⟨[], 0, 0, [], []⟩

def step (playlist : Playlist) : Line → Playlist
  | .head text => { playlist with head := playlist.head ++ [text] }
  | .mediaSequence number => { playlist with mediaSequence := number }
  | .skipped count => { playlist with skippedSegments := count }
  | .tag text => { playlist with trailing := playlist.trailing ++ [text] }
  | .uri text => { playlist with segments := playlist.segments ++ [(playlist.trailing, text)], trailing := [] }

def ofLines (lines : List Line) : Playlist := lines.foldl step empty

def parse (text : String) : Playlist := ofLines ((Text.lines text.toList).filterMap readLine)

end Playlist

def Segment.tags (timescale : Nat) (segment : Segment) : List String :=
  (if segment.discontinuity then ["#EXT-X-DISCONTINUITY\n"] else []) ++
    (segment.programDateTimeMillis.toList.map fun millis =>
      "#EXT-X-PROGRAM-DATE-TIME:" ++ formatProgramDateTime millis ++ "\n") ++
    segment.parts.map (Part.render timescale) ++
    ["#EXTINF:" ++ Decimal.fixed 6 (ticksToSecs segment.durationTicks timescale) ++ ",\n"]

def Segment.entry (timescale : Nat) (segment : Segment) : List String × String :=
  (segment.tags timescale, segment.uri ++ "\n")

def Segment.lines (timescale : Nat) (segment : Segment) : List Line :=
  (segment.tags timescale).map .tag ++ [.uri (segment.uri ++ "\n")]

namespace Manifest

def header (manifest : Manifest) : List String :=
  ["#EXTM3U\n", "#EXT-X-VERSION:" ++ toString manifest.version ++ "\n", "#EXT-X-INDEPENDENT-SEGMENTS\n",
    "#EXT-X-TARGETDURATION:" ++ toString manifest.effectiveTarget ++ "\n", manifest.serverControl.render,
    "#EXT-X-PART-INF:PART-TARGET=" ++ Decimal.fixed 3 manifest.partTargetSecs ++ "\n",
    "#EXT-X-MAP:URI=\"" ++ manifest.mapUri ++ "\"\n"]

def ending (manifest : Manifest) : List String :=
  if manifest.ended then ["#EXT-X-ENDLIST\n"]
  else manifest.preloadHintUri.toList.map fun uri => "#EXT-X-PRELOAD-HINT:TYPE=PART,URI=\"" ++ uri ++ "\"\n"

def numberLines (manifest : Manifest) (skipCount : Nat) : List Line :=
  (manifest.segments.head?.toList.map fun first => .mediaSequence first.sequence) ++
    if 0 < skipCount then [.skipped skipCount] else []

def lines (manifest : Manifest) (skipCount : Nat) : List Line :=
  let skipCount := min skipCount manifest.segments.length
  manifest.header.map .head ++ manifest.numberLines skipCount ++ (manifest.dateRanges.map DateRange.render).map .head ++
    (manifest.segments.drop skipCount).flatMap (Segment.lines manifest.timescale) ++
    (manifest.preliminaryParts.map (Part.render manifest.timescale)).map .tag ++ manifest.ending.map .head

end Manifest

theorem segment_lines_text (timescale : Nat) (segment : Segment) :
    String.join ((segment.lines timescale).map Line.text) = segment.render timescale := by
  have tags : (segment.tags timescale).map (Line.text ∘ Line.tag) = segment.tags timescale := List.map_id _
  have uri : [Line.uri (segment.uri ++ "\n")].map Line.text = [segment.uri ++ "\n"] := rfl
  have extinf : ",\n" = "," ++ "\n" := by decide
  rw [Segment.lines, List.map_append, List.map_map, tags, uri, Segment.tags, Segment.render]
  simp only [String.join_append, String.join_cons, String.join_nil, String.append_empty]
  cases segment.discontinuity <;> cases segment.programDateTimeMillis <;>
    simp [String.join_cons, String.append_assoc]

theorem skip_line_text (skipped : Nat) : String.join ((if 0 < skipped then [Line.skipped skipped] else []).map Line.text) =
    if 0 < skipped then "#EXT-X-SKIP:SKIPPED-SEGMENTS=" ++ toString skipped ++ "\n" else "" := by
  split
  · rw [List.map_singleton, String.join_cons, String.join_nil, String.append_empty]
    rfl
  · rfl

theorem head_lines_text (manifest : Manifest) (skipped : Nat) :
    String.join manifest.header ++ String.join ((manifest.numberLines skipped).map Line.text) =
      manifest.renderHead skipped := by
  have number (first : Segment) : (Line.mediaSequence first.sequence).text =
      "#EXT-X-MEDIA-SEQUENCE:" ++ toString first.sequence ++ "\n" := rfl
  rw [Manifest.numberLines, List.map_append, String.join_append, skip_line_text]
  unfold Manifest.header Manifest.renderHead
  cases manifest.segments.head? with
  | none =>
      simp only [Option.toList_none, List.map_nil, String.join_cons, String.join_nil, String.append_assoc,
        String.append_empty, String.empty_append]
  | some first =>
      simp only [Option.toList_some, List.map_cons, List.map_nil, String.join_cons, String.join_nil, number,
        String.append_assoc, String.append_empty]

theorem render_lines (manifest : Manifest) (skipCount : Nat) :
    String.join ((manifest.lines skipCount).map Line.text) = manifest.renderWithSkip skipCount := by
  have segments (listed : List Segment) : String.join ((listed.flatMap (Segment.lines manifest.timescale)).map Line.text) =
      String.join (listed.map (Segment.render manifest.timescale)) := by
    induction listed with
    | nil => rfl
    | cons segment rest ih =>
        rw [List.flatMap_cons, List.map_append, String.join_append, segment_lines_text, ih, List.map_cons,
          String.join_cons]
  have heads (texts : List String) : (texts.map Line.head).map Line.text = texts := by
    rw [List.map_map]
    exact List.map_id _
  have tags (texts : List String) : (texts.map Line.tag).map Line.text = texts := by
    rw [List.map_map]
    exact List.map_id _
  have ending : String.join manifest.ending = manifest.renderTail := by
    rw [Manifest.ending, Manifest.renderTail]
    cases manifest.ended <;> cases manifest.preloadHintUri <;> simp [String.join_cons]
  simp only [Manifest.lines, Manifest.renderWithSkip, List.map_append, String.join_append, heads, tags, segments, ending,
    head_lines_text, Manifest.renderDateRanges]

end Lvqr.Hls
