import Lvqr.Hls.Master
import Lvqr.Lib.Reference

set_option autoImplicit false

-- The requests below `/hls/`. A blocking reload waits first; what is answered is
-- the playlist as it then stands.
namespace Lvqr.Hls

def asSecsF64 (duration : Duration) : ℚ :=
  Decimal.f64 (Decimal.f64 (duration / 1000000000 : Nat) +
    Decimal.f64 (Decimal.f64 (duration % 1000000000 : Nat) / 1000000000))

def skipFrom (total skipUntilTicks minRemainingTicks : Nat) : Nat → List Segment → Nat
  | _, [] => 0
  | elapsed, segment :: rest =>
      let elapsed := elapsed + segment.durationTicks
      let remainingAfter := total - elapsed
      if skipUntilTicks < remainingAfter ∧ minRemainingTicks ≤ remainingAfter then
        skipFrom total skipUntilTicks minRemainingTicks elapsed rest + 1
      else 0

def Manifest.deltaSkipCount (manifest : Manifest) : Nat :=
  match manifest.serverControl.canSkipUntil with
  | none => 0
  | some skipUntil =>
      if manifest.timescale = 0 ∨ manifest.segments = [] then 0
      else
        let skipUntilTicks := min ⌊Decimal.f64 (asSecsF64 skipUntil * Decimal.f64 manifest.timescale)⌋.toNat (2 ^ 64 - 1)
        let tdTicks := manifest.targetDurationSecs * manifest.timescale
        let total := (manifest.segments.map Segment.durationTicks).sum
        if total < 6 * tdTicks then 0
        else skipFrom total skipUntilTicks (4 * tdTicks) 0 manifest.segments

def wantsDelta (hlsSkip : Option String) : Bool :=
  match hlsSkip with
  | some value => Text.lower value.toList = "yes".toList || Text.lower value.toList = "v2".toList
  | none => false

def skipCount (manifest : Manifest) (hlsSkip : Option String) : Nat :=
  if wantsDelta hlsSkip then manifest.deltaSkipCount else 0

structure RenditionReport where
  uri : String
  lastMsn : Nat
  lastPart : Option Nat
deriving DecidableEq, Repr

def RenditionReport.render (report : RenditionReport) : String :=
  "#EXT-X-RENDITION-REPORT:URI=\"" ++ report.uri ++ "\",LAST-MSN=" ++ toString report.lastMsn ++
    (match report.lastPart with
      | some part => ",LAST-PART=" ++ toString part
      | none => "") ++ "\n"

def lastIndex (parts : List Part) : Nat := (parts.length - 1) % 2 ^ 32

def HlsServer.currentRenditionPosition (server : HlsServer) : Option (Nat × Option Nat) :=
  let manifest := server.builder.manifest
  if manifest.preliminaryParts ≠ [] then
    some (((manifest.segments.getLast?.map fun segment => segment.sequence + 1).getD 0),
      some (lastIndex manifest.preliminaryParts))
  else
    manifest.segments.getLast?.map fun last =>
      (last.sequence, if last.parts = [] then none else some (lastIndex last.parts))

def buildSiblingReports (sibling : Option HlsServer) (siblingUri : String) : List RenditionReport :=
  ((sibling.bind HlsServer.currentRenditionPosition).map fun (lastMsn, lastPart) =>
    (⟨siblingUri, lastMsn, lastPart⟩ : RenditionReport)).toList

def splitBroadcastPath (path : String) : Option (String × String) :=
  match Text.rsplitOnce '/' path.toList with
  | none => none
  | some (broadcast, tail) =>
      if broadcast = [] ∨ tail = [] then none else some (String.ofList broadcast, String.ofList tail)

inductive Response where
  | notFound (message : String)
  | found (location : String)
  | playlist (body : String)
  | init (body : Bytes)
  | segment (body : Bytes)
  | cue (body : String)
deriving DecidableEq, Repr

def trimEndMatches (char : Char) (text : String) : String :=
  String.ofList (text.toList.reverse.dropWhile (· = char)).reverse

def redirectToOwner (base path : String) : Response := .found (trimEndMatches '/' base ++ "/hls/" ++ path)

def Rendition.name : Rendition → String
  | .video => "video"
  | .audio => "audio"

def Rendition.other : Rendition → Rendition
  | .video => .audio
  | .audio => .video

def Rendition.playlistUri : Rendition → String
  | .video => "playlist.m3u8"
  | .audio => "audio.m3u8"

def renditionOf (tail : String) : Rendition :=
  if tail = "playlist.m3u8" ∨ tail = "init.mp4" then .video
  else if tail = "audio.m3u8" ∨ tail = "audio-init.mp4" then .audio
  else if "audio-".toList <+: tail.toList then .audio
  else .video

-- Where `handle_multi_get` takes a request.
inductive Route where
  | malformed
  | redirect (base : String)
  | master (broadcast : String)
  | captions (broadcast tail : String)
  | rendition (rendition : Rendition) (broadcast tail : String)
deriving DecidableEq, Repr

def renderPlaylist (server : HlsServer) (hlsSkip : Option String) (reports : List RenditionReport) : Response :=
  let manifest := server.builder.manifest
  .playlist (manifest.renderWithSkip (skipCount manifest hlsSkip) ++ String.join (reports.map RenditionReport.render))

def renderInit (server : HlsServer) : Response :=
  match server.initSegment with
  | some bytes => .init bytes
  | none => .notFound "init segment not yet published"

def renderUri (server : HlsServer) (uri : String) : Response :=
  match server.cache uri with
  | some bytes => .segment bytes
  | none => .notFound ("unknown chunk " ++ uri)

namespace MultiHlsState

def known (multi : MultiHlsState) (broadcast : String) : Bool :=
  (multi.get .video broadcast).isSome || (multi.get .audio broadcast).isSome || (multi.subtitlesOf broadcast).isSome

def route (multi : MultiHlsState) (path : String) : Route :=
  match splitBroadcastPath path with
  | none => .malformed
  | some (broadcast, tail) =>
      match if multi.known broadcast then none else multi.resolveRedirectBase broadcast with
      | some base => .redirect base
      | none =>
          if tail = "master.m3u8" then .master broadcast
          else
            match Text.stripSuffix "/captions".toList broadcast.toList with
            | some realBroadcast => .captions (String.ofList realBroadcast) tail
            | none => .rendition (renditionOf tail) broadcast tail

def siblingReports (multi : MultiHlsState) (rendition : Rendition) (broadcast : String) : List RenditionReport :=
  buildSiblingReports (multi.get rendition.other broadcast) rendition.other.playlistUri

def handleRendition (multi : MultiHlsState) (rendition : Rendition) (broadcast tail : String) (hlsSkip : Option String) :
    Response :=
  match multi.get rendition broadcast with
  | none => .notFound ("unknown " ++ rendition.name ++ " rendition for broadcast " ++ broadcast)
  | some server =>
      if tail = "playlist.m3u8" ∨ tail = "audio.m3u8" then
        renderPlaylist server hlsSkip (multi.siblingReports rendition broadcast)
      else if tail = "init.mp4" ∨ tail = "audio-init.mp4" then renderInit server
      else renderUri server tail

def handleCaptions (multi : MultiHlsState) (broadcast tail : String) : Response :=
  match multi.subtitlesOf broadcast with
  | none => .notFound ("unknown captions rendition for broadcast " ++ broadcast)
  | some subs =>
      if tail = "playlist.m3u8" then .playlist subs.renderPlaylist
      else
        match (SubtitlesServer.parseSegmentUri tail).bind subs.renderSegment with
        | some body => .cue body
        | none => .notFound ("unknown captions URI " ++ tail)

def handleMasterPlaylist (multi : MultiHlsState) (detect : CodecStrings) (broadcast : String) : Response :=
  match multi.get .video broadcast with
  | none => .notFound ("unknown broadcast " ++ broadcast)
  | some _ => .playlist (multi.masterPlaylist detect broadcast).render

def handleMultiGet (multi : MultiHlsState) (detect : CodecStrings) (path : String) (hlsSkip : Option String) : Response :=
  match multi.route path with
  | .malformed => .notFound "malformed hls path"
  | .redirect base => redirectToOwner base path
  | .master broadcast => multi.handleMasterPlaylist detect broadcast
  | .captions broadcast tail => multi.handleCaptions broadcast tail
  | .rendition rendition broadcast tail => multi.handleRendition rendition broadcast tail hlsSkip

end MultiHlsState

def FileName (tail : String) : Prop := tail ≠ "" ∧ '/' ∉ tail.toList

instance (tail : String) : Decidable (FileName tail) := inferInstanceAs (Decidable (_ ∧ _))

theorem split_file (broadcast tail : String) (named : broadcast ≠ "") (isFile : FileName tail) :
    splitBroadcastPath (broadcast ++ "/" ++ tail) = some (broadcast, tail) := by
  have chars : (broadcast ++ "/" ++ tail).toList = broadcast.toList ++ '/' :: tail.toList := by simp
  have full : ¬ (broadcast.toList = [] ∨ tail.toList = []) := by
    simp only [String.toList_eq_nil_iff, not_or]
    exact ⟨named, isFile.1⟩
  rw [splitBroadcastPath, chars, Text.rsplit_once_append '/' _ _ isFile.2]
  simp only [if_neg full, String.ofList_toList]

theorem split_some (path broadcast tail : String) (split : splitBroadcastPath path = some (broadcast, tail)) :
    path = broadcast ++ "/" ++ tail ∧ broadcast ≠ "" ∧ FileName tail := by
  rw [splitBroadcastPath] at split
  split at split
  · cases split
  · rename_i front back found
    obtain ⟨whole, flat⟩ := Text.rsplit_once_some '/' _ _ _ found
    split at split
    · cases split
    · rename_i full
      obtain ⟨noFront, noBack⟩ := not_or.mp full
      obtain ⟨rfl, rfl⟩ := Prod.mk.inj (Option.some.inj split)
      refine ⟨?_, by simpa using noFront, by simpa using noBack, by simpa using flat⟩
      rw [← String.toList_inj, whole]
      simp

def InCaptions (broadcast : String) : Prop := "/captions".toList <:+ broadcast.toList

instance (broadcast : String) : Decidable (InCaptions broadcast) := inferInstanceAs (Decidable (_ <:+ _))

namespace MultiHlsState

section Routes

variable (multi : MultiHlsState) (broadcast tail : String)

theorem route_file (named : broadcast ≠ "") (isFile : FileName tail)
    (here : multi.known broadcast = true ∨ multi.resolveRedirectBase broadcast = none) :
    multi.route (broadcast ++ "/" ++ tail) =
      if tail = "master.m3u8" then .master broadcast
      else
        match Text.stripSuffix "/captions".toList broadcast.toList with
        | some realBroadcast => .captions (String.ofList realBroadcast) tail
        | none => .rendition (renditionOf tail) broadcast tail := by
  have noBase : (if multi.known broadcast then none else multi.resolveRedirectBase broadcast) = none := by
    split
    · rfl
    · rename_i unknown
      exact here.resolve_left unknown
  rw [route, split_file broadcast tail named isFile]
  simp only [noBase]

theorem route_rendition (named : broadcast ≠ "") (isFile : FileName tail) (notMaster : tail ≠ "master.m3u8")
    (here : multi.known broadcast = true ∨ multi.resolveRedirectBase broadcast = none) (plain : ¬ InCaptions broadcast) :
    multi.route (broadcast ++ "/" ++ tail) = .rendition (renditionOf tail) broadcast tail := by
  rw [multi.route_file broadcast tail named isFile here, if_neg notMaster, (Text.strip_suffix_none _ _).mpr plain]

theorem route_captions (isFile : FileName tail) (notMaster : tail ≠ "master.m3u8")
    (here : multi.known (broadcast ++ "/captions") = true ∨ multi.resolveRedirectBase (broadcast ++ "/captions") = none) :
    multi.route (broadcast ++ "/captions/" ++ tail) = .captions broadcast tail := by
  have path : broadcast ++ "/captions/" ++ tail = (broadcast ++ "/captions") ++ "/" ++ tail := by
    simp [← String.toList_inj]
  have named : broadcast ++ "/captions" ≠ "" := by
    intro empty
    have chars := congrArg String.toList empty
    simp at chars
  have stripped : Text.stripSuffix "/captions".toList (broadcast ++ "/captions").toList = some broadcast.toList := by
    rw [String.toList_append, Text.strip_suffix_append]
  rw [path, multi.route_file _ tail named isFile here, if_neg notMaster, stripped]
  simp only [String.ofList_toList]

-- A path that is neither malformed nor answered elsewhere.
theorem route_here (path : String) (formed : multi.route path ≠ .malformed) (kept : ∀ base, multi.route path ≠ .redirect base) :
    ∃ name file, path = name ++ "/" ++ file ∧ name ≠ "" ∧ FileName file ∧
      (multi.known name = true ∨ multi.resolveRedirectBase name = none) := by
  cases split : splitBroadcastPath path with
  | none =>
      rw [route, split] at formed
      exact absurd rfl formed
  | some parts =>
      obtain ⟨name, file⟩ := parts
      obtain ⟨whole, named, isFile⟩ := split_some path name file split
      refine ⟨name, file, whole, named, isFile, ?_⟩
      by_contra elsewhere
      obtain ⟨unknown, found⟩ := not_or.mp elsewhere
      obtain ⟨base, isBase⟩ := Option.ne_none_iff_exists'.mp found
      refine kept base ?_
      rw [route, split]
      simp only [if_neg unknown, isBase]

theorem rendition_routed (path : String) (rendition : Rendition) (routed : multi.route path = .rendition rendition broadcast tail) :
    path = broadcast ++ "/" ++ tail ∧ ¬ InCaptions broadcast := by
  obtain ⟨name, file, rfl, named, isFile, here⟩ := multi.route_here path (by simp [routed]) (by simp [routed])
  rw [multi.route_file name file named isFile here] at routed
  split at routed
  · cases routed
  · split at routed
    · cases routed
    · rename_i plain
      cases routed
      exact ⟨rfl, (Text.strip_suffix_none _ _).mp plain⟩

theorem captions_routed (path : String) (routed : multi.route path = .captions broadcast tail) :
    multi.known (broadcast ++ "/captions") = true ∨ multi.resolveRedirectBase (broadcast ++ "/captions") = none := by
  obtain ⟨name, file, rfl, named, isFile, here⟩ := multi.route_here path (by simp [routed]) (by simp [routed])
  rw [multi.route_file name file named isFile here] at routed
  split at routed
  · cases routed
  · split at routed
    · rename_i real stripped
      cases routed
      have whole : name = String.ofList real ++ "/captions" := by
        rw [← String.toList_inj, Text.strip_suffix_some _ _ _ stripped]
        simp
      rwa [← whole]
    · cases routed

end Routes

end MultiHlsState

end Lvqr.Hls
