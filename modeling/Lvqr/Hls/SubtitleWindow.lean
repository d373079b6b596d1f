import Lvqr.Hls.Master
import Lvqr.Lib.Machine

set_option autoImplicit false

-- The subtitle playlist as a player reads it, against the window and against every
-- cue that was ever taken.
namespace Lvqr.Hls

def playlistLines (playlist : String) : List (List Char) := Text.lines playlist.toList

def listedUris (playlist : String) : List String :=
  ((playlistLines playlist).filter fun line => line ≠ [] ∧ line.head? ≠ some '#').map String.ofList

def decimalValue (digits : List Char) : Nat := Nat.ofDigitChars 10 digits 0

def renderedTargetDuration (playlist : String) : Option Nat :=
  (playlistLines playlist).findSome? fun line => (Text.stripPrefix "#EXT-X-TARGETDURATION:".toList line).map decimalValue

-- The seconds of an EXTINF line, rounded up.
def extinfSeconds (line : List Char) : Option Nat := do
  let value ← Text.stripPrefix "#EXTINF:".toList line
  let (duration, _) ← Text.splitOnce ',' value
  let (whole, thousandths) ← Text.splitOnce '.' duration
  return if decimalValue thousandths = 0 then decimalValue whole else decimalValue whole + 1

theorem decimal_value (n : Nat) : decimalValue (toString n).toList = n := by
  rw [decimalValue, Nat.toString_eq_repr, Nat.toList_repr, Nat.ofDigitChars_ten_toDigits]

theorem to_string_digits (n : Nat) (char : Char) (member : char ∈ (toString n).toList) : char.isDigit = true := by
  rw [Nat.toString_eq_repr, Nat.toList_repr] at member
  exact Nat.isDigit_of_mem_toDigits (by decide) (by decide) member

theorem to_string_inline (n : Nat) : Text.Inline (toString n).toList := Text.inline_digits _ (to_string_digits n)

theorem pad_left_inline (width n : Nat) : Text.Inline (Decimal.padLeft width n).toList :=
  Text.inline_digits _ (Decimal.pad_left_digits width n)

theorem iso8601_inline (ms : Nat) : Text.Inline (formatIso8601Utc ms).toList := by
  have dash : Text.Inline "-".toList := by decide
  have time : Text.Inline "T".toList := by decide
  have colon : Text.Inline ":".toList := by decide
  have dot : Text.Inline ".".toList := by decide
  have zone : Text.Inline "Z".toList := by decide
  unfold formatIso8601Utc
  simp only [String.toList_append, Text.inline_append, pad_left_inline, dash, time, colon, dot, zone, and_self]

namespace SubtitlesServer

def headerLines (server : SubtitlesServer) : List (List Char) :=
  ["#EXTM3U".toList, "#EXT-X-VERSION:9".toList,
    "#EXT-X-TARGETDURATION:".toList ++ (toString server.targetDurationSecs).toList,
    "#EXT-X-MEDIA-SEQUENCE:".toList ++ (toString server.mediaSequenceBase).toList]

def dateLine (segment : CaptionSegment) : List Char :=
  "#EXT-X-PROGRAM-DATE-TIME:".toList ++ (formatIso8601Utc segment.cue.startMs).toList

def extinfLine (segment : CaptionSegment) : List Char :=
  "#EXTINF:".toList ++ ((Decimal.fixed 3 (Decimal.f64 segment.cue.durationSecsCeil)).toList ++ [','])

def entryLines (segment : CaptionSegment) : List (List Char) := [dateLine segment, extinfLine segment, segment.uri.toList]

def endLines (server : SubtitlesServer) : List (List Char) := if server.ended then ["#EXT-X-ENDLIST".toList] else []

def renderedLines (server : SubtitlesServer) : List (List Char) :=
  headerLines server ++ server.window.flatMap entryLines ++ endLines server

theorem render_entry_chars (segment : CaptionSegment) :
    (renderSegmentEntry segment).toList = (entryLines segment).flatMap fun line => line ++ ['\n'] := by
  have feed : "\n".toList = ['\n'] := by decide
  have comma : ",\n".toList = [',', '\n'] := by decide
  unfold renderSegmentEntry entryLines dateLine extinfLine
  simp only [String.toList_append, List.flatMap_cons, List.flatMap_nil, List.append_assoc, feed, comma,
    List.cons_append, List.nil_append, List.append_nil]

theorem render_playlist_chars (server : SubtitlesServer) :
    server.renderPlaylist.toList = (renderedLines server).flatMap fun line => line ++ ['\n'] := by
  have last : (if server.ended then "#EXT-X-ENDLIST\n" else "").toList =
      (endLines server).flatMap fun line => line ++ ['\n'] := by
    rw [endLines]
    cases server.ended <;> rfl
  have entries : (String.join (server.window.map renderSegmentEntry)).toList =
      (server.window.flatMap entryLines).flatMap fun line => line ++ ['\n'] := by
    rw [String.toList_join, List.flatMap_map, List.flatMap_assoc]
    exact List.flatMap_congr fun segment _ => render_entry_chars segment
  rw [renderedLines, List.flatMap_append, List.flatMap_append, ← last, ← entries]
  unfold renderPlaylist
  simp [headerLines]

theorem duration_chars (segment : CaptionSegment) : ∃ seconds : Nat, Decimal.f64 segment.cue.durationSecsCeil = seconds ∧
    (Decimal.fixed 3 (Decimal.f64 segment.cue.durationSecsCeil)).toList = (toString seconds).toList ++ '.' :: ['0', '0', '0'] := by
  obtain ⟨seconds, whole⟩ := Decimal.f64_whole segment.cue.durationSecsCeil
  have zeros : (Decimal.padLeft 3 0).toList = ['0', '0', '0'] := by decide
  refine ⟨seconds, whole, ?_⟩
  rw [whole, Decimal.fixed_whole, String.toList_append, String.toList_append, zeros]
  simp

theorem uri_chars (segment : CaptionSegment) :
    segment.uri.toList = "seg-".toList ++ ((toString segment.mediaSequence).toList ++ ".vtt".toList) := by
  rw [CaptionSegment.uri, cueUri, String.toList_append, String.toList_append, List.append_assoc]

theorem entry_inline (segment : CaptionSegment) : ∀ line ∈ entryLines segment, Text.Inline line := by
  have date : Text.Inline (dateLine segment) := by
    unfold dateLine
    rw [Text.inline_append]
    exact ⟨by decide, iso8601_inline segment.cue.startMs⟩
  have extinf : Text.Inline (extinfLine segment) := by
    obtain ⟨seconds, _, chars⟩ := duration_chars segment
    unfold extinfLine
    rw [chars, Text.inline_append, Text.inline_append, Text.inline_append]
    exact ⟨by decide, ⟨to_string_inline seconds, by decide⟩, by decide⟩
  have uri : Text.Inline segment.uri.toList := by
    rw [uri_chars, Text.inline_append, Text.inline_append]
    exact ⟨by decide, to_string_inline segment.mediaSequence, by decide⟩
  simp only [entryLines, List.forall_mem_cons]
  exact ⟨date, extinf, uri, fun line member => absurd member List.not_mem_nil⟩

theorem rendered_inline (server : SubtitlesServer) : ∀ line ∈ renderedLines server, Text.Inline line := by
  have target : Text.Inline ("#EXT-X-TARGETDURATION:".toList ++ (toString server.targetDurationSecs).toList) :=
    (Text.inline_append _ _).mpr ⟨by decide, to_string_inline _⟩
  have base : Text.Inline ("#EXT-X-MEDIA-SEQUENCE:".toList ++ (toString server.mediaSequenceBase).toList) :=
    (Text.inline_append _ _).mpr ⟨by decide, to_string_inline _⟩
  intro line member
  simp only [renderedLines, List.mem_append, or_assoc] at member
  rcases member with header | entry | last
  · rw [headerLines] at header
    simp only [List.mem_cons, List.not_mem_nil, or_false] at header
    rcases header with rfl | rfl | rfl | rfl
    · decide
    · decide
    · exact target
    · exact base
  · obtain ⟨segment, _, inside⟩ := List.mem_flatMap.mp entry
    exact entry_inline segment line inside
  · rw [endLines] at last
    split at last
    · obtain rfl := List.mem_singleton.mp last
      decide
    · exact absurd last List.not_mem_nil

theorem playlist_lines (server : SubtitlesServer) : playlistLines server.renderPlaylist = renderedLines server := by
  rw [playlistLines, render_playlist_chars, Text.lines_all _ (rendered_inline server)]

-- A line that starts with a tag or a mark is no URI; the line of a URI starts with its first letter.
theorem entry_uris (segment : CaptionSegment) :
    (entryLines segment).filter (fun line => line ≠ [] ∧ line.head? ≠ some '#') = [segment.uri.toList] := by
  have uri : segment.uri.toList ≠ [] ∧ segment.uri.toList.head? ≠ some '#' := by
    rw [uri_chars]
    exact ⟨by simp, by simp⟩
  have date : (dateLine segment).head? = some '#' := by
    unfold dateLine
    rfl
  have extinf : (extinfLine segment).head? = some '#' := by
    unfold extinfLine
    rfl
  rw [entryLines, List.filter_cons_of_neg (by simp [date]), List.filter_cons_of_neg (by simp [extinf]),
    List.filter_cons_of_pos (by simpa using uri), List.filter_nil]

theorem listed_uris (server : SubtitlesServer) :
    listedUris server.renderPlaylist = server.window.map CaptionSegment.uri := by
  have header : (headerLines server).filter (fun line => line ≠ [] ∧ line.head? ≠ some '#') = [] := by
    simp [headerLines]
  have entries : (server.window.flatMap entryLines).filter (fun line => line ≠ [] ∧ line.head? ≠ some '#') =
      server.window.map fun segment => segment.uri.toList := by
    rw [List.filter_flatMap, List.map_eq_flatMap]
    exact List.flatMap_congr fun segment _ => entry_uris segment
  have last : (endLines server).filter (fun line => line ≠ [] ∧ line.head? ≠ some '#') = [] := by
    rw [endLines]
    split
    · decide
    · rfl
  rw [listedUris, playlist_lines, renderedLines, List.filter_append, List.filter_append, header, entries, last,
    List.nil_append, List.append_nil, List.map_map]
  exact List.map_congr_left fun segment _ => String.ofList_toList

theorem rendered_target_duration (server : SubtitlesServer) :
    renderedTargetDuration server.renderPlaylist = some server.targetDurationSecs := by
  have first : Text.stripPrefix "#EXT-X-TARGETDURATION:".toList "#EXTM3U".toList = none := by decide
  have second : Text.stripPrefix "#EXT-X-TARGETDURATION:".toList "#EXT-X-VERSION:9".toList = none := by decide
  rw [renderedTargetDuration, playlist_lines, renderedLines, headerLines]
  simp only [List.cons_append, List.findSome?_cons, first, second, Option.map_none, Text.strip_prefix_append,
    Option.map_some, decimal_value]

theorem extinf_seconds (segment : CaptionSegment) (seconds : Nat)
    (whole : Decimal.f64 segment.cue.durationSecsCeil = seconds) : extinfSeconds (extinfLine segment) = some seconds := by
  obtain ⟨same, isWhole, chars⟩ := duration_chars segment
  obtain rfl : same = seconds := by exact_mod_cast isWhole.symm.trans whole
  have noComma : ',' ∉ (toString same).toList ++ '.' :: ['0', '0', '0'] := by
    intro inside
    cases List.mem_append.mp inside with
    | inl digit => exact absurd (to_string_digits same _ digit) (by decide)
    | inr tail => exact absurd tail (by decide)
  have noPoint : '.' ∉ (toString same).toList := fun digit => absurd (to_string_digits same _ digit) (by decide)
  have zeros : decimalValue ['0', '0', '0'] = 0 := by decide
  unfold extinfLine
  rw [extinfSeconds, chars, Text.strip_prefix_append]
  simp only [Option.bind_eq_bind, Option.bind_some, Text.split_once_append ',' _ [] noComma,
    Text.split_once_append '.' _ _ noPoint, zeros, if_pos, decimal_value, Option.pure_def]

theorem extinf_tag (head text : List Char) (apart : ¬ "#EXTINF:".toList <+: head ∧ ¬ head <+: "#EXTINF:".toList) :
    extinfSeconds (head ++ text) = none := by
  rw [extinfSeconds, Text.strip_prefix_none _ head text apart]
  rfl

theorem header_plain (server : SubtitlesServer) : ∀ line ∈ headerLines server, extinfSeconds line = none := by
  simp only [headerLines, List.forall_mem_cons]
  refine ⟨by decide, by decide, ?_, ?_, fun line member => absurd member List.not_mem_nil⟩
  · exact extinf_tag _ _ (by decide)
  · exact extinf_tag _ _ (by decide)

theorem date_plain (segment : CaptionSegment) : extinfSeconds (dateLine segment) = none := by
  unfold dateLine
  exact extinf_tag _ _ (by decide)

theorem uri_plain (segment : CaptionSegment) : extinfSeconds segment.uri.toList = none := by
  rw [uri_chars]
  exact extinf_tag _ _ (by decide)

theorem end_plain (server : SubtitlesServer) : ∀ line ∈ endLines server, extinfSeconds line = none := by
  rw [endLines]
  split
  · decide
  · exact fun line member => absurd member List.not_mem_nil

theorem extinf_lines (server : SubtitlesServer) (line : List Char) (listed : line ∈ renderedLines server) (seconds : Nat)
    (isSeconds : extinfSeconds line = some seconds) :
    ∃ segment ∈ server.window, Decimal.f64 segment.cue.durationSecsCeil = seconds := by
  simp only [renderedLines, List.mem_append, or_assoc] at listed
  rcases listed with header | entry | last
  · rw [header_plain server line header] at isSeconds
    cases isSeconds
  · obtain ⟨segment, inWindow, inside⟩ := List.mem_flatMap.mp entry
    simp only [entryLines, List.mem_cons, List.not_mem_nil, or_false] at inside
    rcases inside with rfl | rfl | rfl
    · rw [date_plain] at isSeconds
      cases isSeconds
    · obtain ⟨whole, isWhole, _⟩ := duration_chars segment
      rw [extinf_seconds segment whole isWhole] at isSeconds
      obtain rfl := Option.some.inj isSeconds
      exact ⟨segment, inWindow, isWhole⟩
    · rw [uri_plain] at isSeconds
      cases isSeconds
  · rw [end_plain server line last] at isSeconds
    cases isSeconds

theorem extinf_listed (server : SubtitlesServer) (segment : CaptionSegment) (listed : segment ∈ server.window) :
    extinfLine segment ∈ renderedLines server := by
  have inEntry : extinfLine segment ∈ entryLines segment := List.mem_cons_of_mem _ List.mem_cons_self
  exact List.mem_append_left _ (List.mem_append_right _ (List.mem_flatMap.mpr ⟨segment, listed, inEntry⟩))

end SubtitlesServer

inductive SubtitleOp where
  | pushCue (cue : CaptionCue)
  | finalize
deriving DecidableEq, Repr

-- A server with every cue it has taken, under the number the cue got.
structure CaptionLog where
  server : SubtitlesServer
  accepted : List CaptionSegment
deriving DecidableEq, Repr

namespace CaptionLog

open SubtitlesServer

def new (maxCues : Nat) : CaptionLog := ⟨.withMaxCues maxCues, []⟩

def apply (log : CaptionLog) : SubtitleOp → CaptionLog
  | .pushCue cue =>
      ⟨log.server.pushCue cue,
        if log.server.ended then log.accepted else log.accepted ++ [⟨log.server.nextMediaSequence, cue⟩]⟩
  | .finalize => ⟨log.server.finalize, log.accepted⟩

def evicted (log : CaptionLog) : List CaptionSegment := log.accepted.take (log.accepted.length - log.server.window.length)

structure WindowRight (log : CaptionLog) : Prop where
  partition : log.accepted = log.evicted ++ log.server.window
  numbered : ∀ i segment, log.server.window[i]? = some segment →
    segment.mediaSequence = log.server.mediaSequenceBase + i
  listed : listedUris log.server.renderPlaylist = log.server.window.map CaptionSegment.uri
  served : ∀ segment ∈ log.server.window,
    (parseSegmentUri segment.uri).bind log.server.renderSegment = some (renderWebvttBody segment.cue)
  gone : ∀ segment ∈ log.evicted, log.server.renderSegment segment.mediaSequence = none
  covered : ∃ target, renderedTargetDuration log.server.renderPlaylist = some target ∧
    ∀ line ∈ playlistLines log.server.renderPlaylist, ∀ seconds, extinfSeconds line = some seconds → seconds ≤ target
  final : log.server.ended = true → ∀ ops,
    (Machine.run apply log ops).server.renderPlaylist = log.server.renderPlaylist

-- The number of a new cue is not used up, and its duration as a float is no longer
-- than the target that the playlist will show.
def Fits (log : CaptionLog) : SubtitleOp → Prop
  | .pushCue cue => log.server.ended = false → log.accepted.length < 2 ^ 64 ∧
      Decimal.f64 cue.durationSecsCeil ≤ (max log.server.targetDurationSecs cue.durationSecsCeil : Nat)
  | .finalize => True

structure Tracked (log : CaptionLog) : Prop where
  numbers : log.accepted.map CaptionSegment.mediaSequence = wrapped 0 log.accepted.length
  newest : log.server.window = log.accepted.drop (log.accepted.length - log.server.window.length)
  size : log.server.window.length = min log.accepted.length log.server.maxCues
  room : 1 ≤ log.server.maxCues ∧ log.server.maxCues < 2 ^ 64
  base : log.server.mediaSequenceBase = (log.accepted.length - log.server.window.length) % 2 ^ 64
  next : log.server.nextMediaSequence = log.accepted.length % 2 ^ 64

structure InRange (log : CaptionLog) : Prop where
  few : log.accepted.length ≤ 2 ^ 64
  short : ∀ segment ∈ log.server.window, Decimal.f64 segment.cue.durationSecsCeil ≤ (log.server.targetDurationSecs : ℚ)

theorem new_tracked (maxCues : UInt64) : Tracked (.new maxCues.toNat) := by
  have bound := maxCues.toNat_lt
  refine ⟨rfl, rfl, rfl, ?_, rfl, rfl⟩
  simp only [new, withMaxCues]
  omega

theorem new_in_range (maxCues : Nat) : InRange (.new maxCues) :=
  ⟨Nat.zero_le _, fun _ listed => absurd listed List.not_mem_nil⟩

theorem apply_ended (log : CaptionLog) (ended : log.server.ended = true) (op : SubtitleOp) : log.apply op = log := by
  obtain ⟨server, accepted⟩ := log
  obtain ⟨window, maxCues, base, next, target, closed⟩ := server
  obtain rfl : closed = true := ended
  cases op <;> rfl

-- What a push to an open server does.
structure Pushed (log : CaptionLog) (cue : CaptionCue) (after : CaptionLog) : Prop where
  accepted : after.accepted = log.accepted ++ [⟨log.server.nextMediaSequence, cue⟩]
  window : after.server.window = (log.server.window ++ [(⟨log.server.nextMediaSequence, cue⟩ : CaptionSegment)]).drop
    (log.server.window.length + 1 - log.server.maxCues)
  base : after.server.mediaSequenceBase =
    (log.server.mediaSequenceBase + (log.server.window.length + 1 - log.server.maxCues)) % 2 ^ 64
  next : after.server.nextMediaSequence = (log.server.nextMediaSequence + 1) % 2 ^ 64
  target : after.server.targetDurationSecs = max log.server.targetDurationSecs cue.durationSecsCeil
  maxCues : after.server.maxCues = log.server.maxCues

theorem apply_pushed (log : CaptionLog) (cue : CaptionCue) (live : log.server.ended = false) :
    Pushed log cue (log.apply (.pushCue cue)) := by
  have notEnded : ¬ log.server.ended = true := by simp [live]
  have server : (log.apply (.pushCue cue)).server = evict { log.server with
      targetDurationSecs := max log.server.targetDurationSecs cue.durationSecsCeil
      nextMediaSequence := (log.server.nextMediaSequence + 1) % 2 ^ 64
      window := log.server.window ++ [⟨log.server.nextMediaSequence, cue⟩] } := if_neg notEnded
  have length : (log.server.window ++ [(⟨log.server.nextMediaSequence, cue⟩ : CaptionSegment)]).length =
      log.server.window.length + 1 := List.length_append
  constructor
  · exact if_neg notEnded
  · rw [server, ← length]
    rfl
  · rw [server, ← length]
    rfl
  · rw [server]
    rfl
  · rw [server]
    rfl
  · rw [server]
    rfl

theorem push_tracked (log : CaptionLog) (cue : CaptionCue) (tracked : Tracked log) :
    Tracked (log.apply (.pushCue cue)) := by
  cases live : log.server.ended with
  | true =>
      rw [apply_ended log live]
      exact tracked
  | false =>
      have pushed := apply_pushed log cue live
      generalize log.apply (.pushCue cue) = after at pushed
      obtain ⟨numbers, newest, size, room, base, next⟩ := tracked
      have count : after.accepted.length = log.accepted.length + 1 := by
        rw [pushed.accepted, List.length_append]
        rfl
      have short : log.server.window.length ≤ log.accepted.length := by omega
      have length : after.server.window.length = min after.accepted.length after.server.maxCues := by
        have one : [(⟨log.server.nextMediaSequence, cue⟩ : CaptionSegment)].length = 1 := rfl
        rw [pushed.window, List.length_drop, List.length_append, one, pushed.maxCues, count]
        omega
      refine ⟨?_, ?_, length, ?_, ?_, ?_⟩
      · rw [count, wrapped_concat, ← numbers, pushed.accepted, List.map_append, next, Nat.zero_add]
        rfl
      · have dropped : after.accepted.length - after.server.window.length =
            log.accepted.length - log.server.window.length + (log.server.window.length + 1 - log.server.maxCues) := by
          rw [length, count, pushed.maxCues]
          omega
        have kept : (log.accepted ++ [(⟨log.server.nextMediaSequence, cue⟩ : CaptionSegment)]).drop
            (log.accepted.length - log.server.window.length) =
              log.server.window ++ [⟨log.server.nextMediaSequence, cue⟩] := by
          rw [List.drop_append_of_le_length (Nat.sub_le _ _), ← newest]
        rw [dropped, ← List.drop_drop, pushed.accepted, kept, pushed.window]
      · rw [pushed.maxCues]
        exact room
      · rw [pushed.base, base, length, count, pushed.maxCues]
        omega
      · rw [pushed.next, next, count]
        omega

theorem apply_tracked (log : CaptionLog) (op : SubtitleOp) (tracked : Tracked log) : Tracked (log.apply op) := by
  cases op with
  | pushCue cue => exact push_tracked log cue tracked
  | finalize =>
      obtain ⟨numbers, newest, size, room, base, next⟩ := tracked
      exact ⟨numbers, newest, size, room, base, next⟩

theorem tracked_length (log : CaptionLog) (tracked : Tracked log) : log.server.window.length ≤ log.accepted.length := by
  rw [tracked.size]
  exact Nat.min_le_left _ _

theorem tracked_partition (log : CaptionLog) (tracked : Tracked log) : log.accepted = log.evicted ++ log.server.window :=
  calc
    log.accepted = log.evicted ++ log.accepted.drop (log.accepted.length - log.server.window.length) :=
      (List.take_append_drop _ _).symm
    _ = log.evicted ++ log.server.window := by rw [← tracked.newest]

theorem window_at (log : CaptionLog) (tracked : Tracked log) (i : Nat) :
    log.server.window[i]? = log.accepted[log.accepted.length - log.server.window.length + i]? := by
  have same := congrArg (fun window => window[i]?) tracked.newest
  rwa [List.getElem?_drop] at same

theorem tracked_number (log : CaptionLog) (tracked : Tracked log) (i : Nat) (segment : CaptionSegment)
    (here : log.accepted[i]? = some segment) : segment.mediaSequence = i % 2 ^ 64 := by
  have number : (log.accepted.map CaptionSegment.mediaSequence)[i]? = some segment.mediaSequence := by
    rw [List.getElem?_map, here]
    rfl
  have inside : i < log.accepted.length := (List.getElem?_eq_some_iff.mp here).1
  rw [tracked.numbers, wrapped, List.getElem?_map, List.getElem?_range' inside, Option.map_some] at number
  have value := Option.some.inj number
  omega

-- Where no number was given out twice the base counts the cues that left.
theorem window_numbered (log : CaptionLog) (tracked : Tracked log) (few : log.accepted.length ≤ 2 ^ 64) (i : Nat)
    (segment : CaptionSegment) (here : log.server.window[i]? = some segment) :
    segment.mediaSequence = log.server.mediaSequenceBase + i := by
  have inside : i < log.server.window.length := (List.getElem?_eq_some_iff.mp here).1
  have short := tracked_length log tracked
  have base := tracked.base
  rw [window_at log tracked] at here
  have number := tracked_number log tracked _ segment here
  omega

theorem window_served (log : CaptionLog) (tracked : Tracked log) (few : log.accepted.length ≤ 2 ^ 64)
    (segment : CaptionSegment) (listed : segment ∈ log.server.window) :
    (parseSegmentUri segment.uri).bind log.server.renderSegment = some (renderWebvttBody segment.cue) := by
  have distinct : (log.server.window.map CaptionSegment.mediaSequence).Nodup := by
    rw [tracked.newest, List.map_drop, tracked.numbers]
    exact (wrapped_nodup 0 _ few).sublist (List.drop_sublist _ _)
  refine render_numbered log.server distinct segment listed ?_
  obtain ⟨i, here⟩ := List.getElem?_of_mem listed
  rw [window_at log tracked] at here
  have number := tracked_number log tracked _ segment here
  omega

theorem render_segment_none (server : SubtitlesServer) (number : Nat) :
    server.renderSegment number = none ↔ ∀ segment ∈ server.window, segment.mediaSequence ≠ number := by
  rw [renderSegment, Option.map_eq_none_iff, List.find?_eq_none]
  simp only [decide_eq_true_eq, ne_eq]

theorem evicted_gone (log : CaptionLog) (tracked : Tracked log) (few : log.accepted.length ≤ 2 ^ 64)
    (segment : CaptionSegment) (left : segment ∈ log.evicted) : log.server.renderSegment segment.mediaSequence = none := by
  obtain ⟨i, before, here⟩ := List.mem_take_iff_getElem.mp left
  have number := tracked_number log tracked i segment (List.getElem?_eq_some_iff.mpr ⟨by omega, here⟩)
  refine (render_segment_none log.server _).mpr fun other listed => ?_
  obtain ⟨j, there⟩ := List.getElem?_of_mem listed
  have inside : j < log.server.window.length := (List.getElem?_eq_some_iff.mp there).1
  have short := tracked_length log tracked
  rw [window_at log tracked] at there
  have otherNumber := tracked_number log tracked _ other there
  omega

-- With more cues than numbers, the newest cue has the number of one that left.
theorem few_of_gone (log : CaptionLog) (tracked : Tracked log)
    (gone : ∀ segment ∈ log.evicted, log.server.renderSegment segment.mediaSequence = none) :
    log.accepted.length ≤ 2 ^ 64 := by
  by_contra many
  obtain ⟨room, bound⟩ := tracked.room
  have size := tracked.size
  have nonempty : log.server.window.length - 1 < log.server.window.length := by omega
  have newest : log.server.window[log.server.window.length - 1]? = some log.server.window[log.server.window.length - 1] :=
    List.getElem?_eq_getElem nonempty
  have listed : log.server.window[log.server.window.length - 1] ∈ log.server.window := List.getElem_mem nonempty
  generalize log.server.window[log.server.window.length - 1] = last at newest listed
  rw [window_at log tracked] at newest
  have lastNumber := tracked_number log tracked _ last newest
  have inside : log.accepted.length - 1 - 2 ^ 64 < log.accepted.length := by omega
  have here : log.accepted[log.accepted.length - 1 - 2 ^ 64]? = some log.accepted[log.accepted.length - 1 - 2 ^ 64] :=
    List.getElem?_eq_getElem inside
  have left : log.accepted[log.accepted.length - 1 - 2 ^ 64] ∈ log.evicted :=
    List.mem_take_iff_getElem.mpr ⟨_, by omega, rfl⟩
  generalize log.accepted[log.accepted.length - 1 - 2 ^ 64] = first at here left
  have firstNumber := tracked_number log tracked _ first here
  exact (render_segment_none log.server _).mp (gone first left) last listed (by omega)

theorem covered_iff (server : SubtitlesServer) :
    (∃ target, renderedTargetDuration server.renderPlaylist = some target ∧
      ∀ line ∈ playlistLines server.renderPlaylist, ∀ seconds, extinfSeconds line = some seconds → seconds ≤ target) ↔
      ∀ segment ∈ server.window, Decimal.f64 segment.cue.durationSecsCeil ≤ (server.targetDurationSecs : ℚ) := by
  rw [rendered_target_duration, playlist_lines]
  constructor
  · rintro ⟨target, isTarget, all⟩ segment listed
    obtain rfl := Option.some.inj isTarget
    obtain ⟨seconds, whole, _⟩ := duration_chars segment
    rw [whole]
    exact_mod_cast all _ (extinf_listed server segment listed) seconds (extinf_seconds segment seconds whole)
  · intro all
    refine ⟨_, rfl, fun line listed seconds isSeconds => ?_⟩
    obtain ⟨segment, inWindow, whole⟩ := extinf_lines server line listed seconds isSeconds
    have short := all segment inWindow
    rw [whole] at short
    exact_mod_cast short

theorem window_right_iff (log : CaptionLog) (tracked : Tracked log) : WindowRight log ↔ InRange log := by
  constructor
  · intro right
    exact ⟨few_of_gone log tracked right.gone, (covered_iff log.server).mp right.covered⟩
  · rintro ⟨few, short⟩
    refine ⟨tracked_partition log tracked, window_numbered log tracked few, listed_uris log.server,
      window_served log tracked few, evicted_gone log tracked few, (covered_iff log.server).mpr short, ?_⟩
    intro ended ops
    have unchanged : ∀ state op, state = log → apply state op = log := by
      rintro state op rfl
      exact apply_ended state ended op
    have same : Machine.run apply log ops = log := Machine.invariant_of_run unchanged log ops rfl
    rw [same]

theorem in_range_step (log : CaptionLog) (tracked : Tracked log) (inRange : InRange log) (op : SubtitleOp) :
    InRange (log.apply op) ↔ Fits log op := by
  cases op with
  | finalize => exact ⟨fun _ => trivial, fun _ => ⟨inRange.few, inRange.short⟩⟩
  | pushCue cue =>
      cases live : log.server.ended with
      | true =>
          rw [apply_ended log live]
          refine ⟨fun _ isLive => ?_, fun _ => inRange⟩
          rw [live] at isLive
          cases isLive
      | false =>
          have pushed := apply_pushed log cue live
          generalize log.apply (.pushCue cue) = after at pushed
          have count : after.accepted.length = log.accepted.length + 1 := by
            rw [pushed.accepted, List.length_append]
            rfl
          obtain ⟨room, _⟩ := tracked.room
          -- The window keeps at least the cue that came last.
          have listed : (⟨log.server.nextMediaSequence, cue⟩ : CaptionSegment) ∈ after.server.window := by
            rw [pushed.window, List.drop_append_of_le_length (by omega)]
            exact List.mem_append_right _ List.mem_cons_self
          constructor
          · rintro ⟨few, short⟩ _
            refine ⟨by omega, ?_⟩
            have newest := short _ listed
            rwa [pushed.target] at newest
          · intro fits
            obtain ⟨few, short⟩ := fits live
            refine ⟨by omega, fun segment inWindow => ?_⟩
            rw [pushed.target]
            rw [pushed.window] at inWindow
            cases List.mem_append.mp (List.mem_of_mem_drop inWindow) with
            | inl old => exact (inRange.short segment old).trans (by exact_mod_cast Nat.le_max_left _ _)
            | inr new =>
                obtain rfl := List.mem_singleton.mp new
                exact short

theorem window_aligned_iff (maxCues : UInt64) (ops : List SubtitleOp) :
    (∀ seen, seen <+: ops → WindowRight (Machine.run apply (.new maxCues.toNat) seen)) ↔
      Machine.AllSteps Fits apply (.new maxCues.toNat) ops := by
  have start := new_tracked maxCues
  rw [← Machine.invariant_iff_guarded_under (fun log op => apply_tracked log op)
    (fun log op tracked inRange => in_range_step log tracked inRange op) _ ops start (new_in_range maxCues.toNat)]
  refine forall₂_congr fun seen _ => window_right_iff _ ?_
  exact Machine.invariant_of_run (fun log op => apply_tracked log op) _ seen start

def longCue : CaptionCue := ⟨0, 9007199254740995000, "a"⟩

-- The float of an odd number of seconds above 2 ^ 53 is the even number above it.
theorem long_cue_above_target : ¬ ∀ (maxCues : UInt64) (ops : List SubtitleOp),
    WindowRight (Machine.run apply (.new maxCues.toNat) ops) := by
  intro always
  have right := always 1 [.pushCue longCue]
  have short := (covered_iff _).mp right.covered ⟨0, longCue⟩ (by decide)
  exact absurd short (by decide +kernel)

end CaptionLog

end Lvqr.Hls
