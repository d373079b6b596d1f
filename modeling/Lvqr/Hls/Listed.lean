import Lvqr.Hls.Site

set_option autoImplicit false

-- What the playlists of a broadcast list, and where a player ends up with it.
namespace Lvqr.Hls

-- A listed URI, the rendition it is about, and what a segment or a part of that
-- rendition is.
structure Listed where
  uri : String
  target : Route
  answer : Option Response

-- The path the router hands over for a URI read in the playlist at `requestPath`.
def handed (requestPath uri : String) : Option String :=
  (Text.stripPrefix "hls/".toList (Reference.resolve ("hls/" ++ requestPath).toList uri.toList)).map String.ofList

def MultiHlsState.Resolves (multi : MultiHlsState) (detect : CodecStrings) (requestPath : String) (listed : Listed) : Prop :=
  ∃ path, handed requestPath listed.uri = some path ∧ multi.route path = listed.target ∧
    ∀ answer ∈ listed.answer, ∀ hlsSkip, multi.handleMultiGet detect path hlsSkip = answer

namespace MultiHlsState

def playlistOf (rendition : Rendition) (broadcast : String) : Route :=
  .rendition rendition broadcast rendition.playlistUri

def siblingListing (multi : MultiHlsState) (broadcast suffix : String) : Option Listed :=
  (multi.siblingVariant broadcast suffix).map fun variant =>
    ⟨variant.uri, playlistOf .video (broadcast ++ "/" ++ suffix), none⟩

def masterListing (multi : MultiHlsState) (broadcast : String) : List Listed :=
  match multi.get .video broadcast with
  | none => []
  | some _ =>
      (if (multi.get .audio broadcast).isSome then [⟨audioRendition.uri, playlistOf .audio broadcast, none⟩] else []) ++
        (if (multi.subtitlesOf broadcast).isSome then
            [⟨subtitlesRendition.uri, .captions broadcast "playlist.m3u8", none⟩]
          else []) ++
        ⟨"playlist.m3u8", playlistOf .video broadcast, none⟩ ::
          (multi.variantSiblings broadcast).filterMap (multi.siblingListing broadcast)

end MultiHlsState

namespace HlsSite

def partListing (rendition : Rendition) (broadcast : String) (bodies : String → Bytes) (part : Part) : Listed :=
  ⟨part.uri, .rendition rendition broadcast part.uri, some (.segment (bodies part.uri))⟩

def segmentListing (rendition : Rendition) (broadcast : String) (bodies : String → Bytes) (segment : Segment) :
    List Listed :=
  segment.parts.map (partListing rendition broadcast bodies) ++
    [⟨segment.uri, .rendition rendition broadcast segment.uri,
      some (.segment (fullBody bodies (segment.parts.map Part.uri)))⟩]

def manifestListing (rendition : Rendition) (broadcast : String) (bodies : String → Bytes) (manifest : Manifest)
    (skipped : Nat) : List Listed :=
  ⟨manifest.mapUri, .rendition rendition broadcast manifest.mapUri, none⟩ ::
    (manifest.segments.drop skipped).flatMap (segmentListing rendition broadcast bodies) ++
    manifest.preliminaryParts.map (partListing rendition broadcast bodies) ++
    (if manifest.ended then []
      else manifest.preloadHintUri.toList.map fun uri => ⟨uri, .rendition rendition broadcast uri, none⟩)

def reportListing (rendition : Rendition) (broadcast : String) (report : RenditionReport) : Listed :=
  ⟨report.uri, MultiHlsState.playlistOf rendition.other broadcast, none⟩

def mediaListing (site : HlsSite) (rendition : Rendition) (broadcast : String) (hlsSkip : Option String) : List Listed :=
  match site.multi.get rendition broadcast with
  | none => []
  | some server =>
      let manifest := server.builder.manifest
      manifestListing rendition broadcast (site.bodies rendition broadcast) manifest (skipCount manifest hlsSkip) ++
        (site.multi.siblingReports rendition broadcast).map (reportListing rendition broadcast)

def captionsListing (site : HlsSite) (broadcast : String) : List Listed :=
  match site.multi.subtitlesOf broadcast with
  | none => []
  | some subs => subs.window.map fun segment =>
      ⟨segment.uri, .captions broadcast segment.uri, some (.cue (renderWebvttBody segment.cue))⟩

-- Every URI of the four kinds of playlist.
structure ListedResolve (detect : CodecStrings) (site : HlsSite) (broadcast : String) : Prop where
  master : ∀ listed ∈ site.multi.masterListing broadcast,
    site.multi.Resolves detect (broadcast ++ "/master.m3u8") listed
  media : ∀ rendition hlsSkip, ∀ listed ∈ site.mediaListing rendition broadcast hlsSkip,
    site.multi.Resolves detect (broadcast ++ "/" ++ rendition.playlistUri) listed
  captions : ∀ listed ∈ site.captionsListing broadcast,
    site.multi.Resolves detect (broadcast ++ "/captions/playlist.m3u8") listed

end HlsSite

-- No name in reach of the broadcast is one the router or the player reads otherwise.
structure RoutedApart (multi : MultiHlsState) (broadcast : String) : Prop where
  clean : Reference.Clean broadcast.toList
  plain : ¬ InCaptions broadcast
  rungs : ∀ rung ∈ multi.ladder, '/' ∉ rung.name.toList →
    (multi.get .video (broadcast ++ "/" ++ rung.name)).isSome = true →
      rung.name ≠ "captions" ∧ ¬ Reference.DotSegment rung.name.toList
  captions : (multi.subtitlesOf broadcast).isSome = true →
    multi.known (broadcast ++ "/captions") = true ∨ multi.resolveRedirectBase (broadcast ++ "/captions") = none

-- Broadcast names made of nonempty segments of unreserved characters.
def unreserved (char : Char) : Bool := char.isAlphanum || char = '-' || char = '.' || char = '_' || char = '~'

def UnreservedName (name : String) : Prop :=
  ∀ segment ∈ Reference.segments name.toList, segment ≠ [] ∧ segment.all unreserved = true

instance (name : String) : Decidable (UnreservedName name) := List.decidableBAll _ _

theorem unreserved_nonempty (name : String) (isName : UnreservedName name) : name ≠ "" := by
  rintro rfl
  exact (isName [] List.mem_cons_self).1 rfl

section Handed

variable (broadcast file : String)

theorem mounted (path : String) : Text.stripPrefix "hls/".toList ("hls/" ++ path).toList = some path.toList := by
  rw [String.toList_append, Text.strip_prefix_append]

theorem mounted_chars : ("hls/" ++ (broadcast ++ "/" ++ file)).toList =
    ("hls/" ++ broadcast).toList ++ '/' :: file.toList := by
  simp

theorem mounted_clean (clean : Reference.Clean broadcast.toList) : Reference.Clean ("hls/" ++ broadcast).toList := by
  have split : ("hls/" ++ broadcast).toList = "hls".toList ++ '/' :: broadcast.toList := by simp
  rw [split, Reference.clean_append]
  exact ⟨by decide, clean⟩

theorem handed_beside (uri : String) (isFile : FileName file) (clean : Reference.Clean broadcast.toList)
    (relative : Reference.Relative uri.toList) (plain : Reference.Clean uri.toList) :
    handed (broadcast ++ "/" ++ file) uri = some (broadcast ++ "/" ++ uri) := by
  rw [handed, mounted_chars, Reference.resolve_beside _ _ _ isFile.2 (mounted_clean broadcast clean) relative plain,
    ← mounted_chars, mounted, Option.map_some, String.ofList_toList]

theorem handed_here (uri : String) (isFile : FileName file) (clean : Reference.Clean broadcast.toList)
    (plain : Reference.Clean uri.toList) :
    handed (broadcast ++ "/" ++ file) ("./" ++ uri) = some (broadcast ++ "/" ++ uri) := by
  have chars : ("./" ++ uri).toList = '.' :: '/' :: uri.toList := by simp
  rw [handed, mounted_chars, chars, Reference.resolve_here _ _ _ isFile.2 (mounted_clean broadcast clean) plain,
    ← mounted_chars, mounted, Option.map_some, String.ofList_toList]

-- What the router is handed has no dots left.
theorem handed_clean (requestPath uri path : String) (relative : Reference.Relative uri.toList)
    (isHanded : handed requestPath uri = some path) : Reference.Clean path.toList := by
  obtain ⟨chars, stripped, rfl⟩ := Option.map_eq_some_iff.mp isHanded
  have clean := Reference.clean_resolve ("hls/" ++ requestPath).toList uri.toList relative
  rw [Text.strip_prefix_some _ _ _ stripped] at clean
  rw [String.toList_ofList]
  exact ((Reference.clean_append "hls".toList chars).mp clean).2

end Handed

structure MediaName (rendition : Rendition) (tail : String) : Prop where
  file : FileName tail
  clean : Reference.Clean tail.toList
  notMaster : tail ≠ "master.m3u8"
  rendition : renditionOf tail = rendition

def FIXED : List String := ["playlist.m3u8", "audio.m3u8", "init.mp4", "audio-init.mp4"]

theorem file_relative (tail : String) (isFile : FileName tail) : Reference.Relative tail.toList := by
  refine ⟨by simpa using isFile.1, fun rooted => isFile.2 (List.mem_of_head? rooted)⟩

theorem clean_file (tail : String) (isFile : FileName tail) : Reference.Clean tail.toList ↔
    ¬ Reference.DotSegment tail.toList := Reference.clean_single _ isFile.2

theorem fixed_media (rendition : Rendition) :
    MediaName rendition rendition.playlistUri ∧ MediaName rendition rendition.initUri := by
  cases rendition <;> exact ⟨⟨by decide, by decide, by decide, by decide⟩, ⟨by decide, by decide, by decide, by decide⟩⟩

-- The names of parts and segments: prefix, stem and a text without slashes.
theorem stem_media (rendition : Rendition) (stem rest : List Char) (uri : String)
    (isStem : stem = "part-".toList ∨ stem = "seg-".toList) (flat : '/' ∉ rest)
    (chars : uri.toList = rendition.uriPrefix.toList ++ (stem ++ rest)) : MediaName rendition uri ∧ uri ∉ FIXED := by
  have flatAll : '/' ∉ uri.toList := by
    rw [chars]
    rcases isStem with rfl | rfl <;> cases rendition <;> simpa [Rendition.uriPrefix] using flat
  have others : uri ∉ "" :: "master.m3u8" :: FIXED := by
    rcases isStem with rfl | rfl <;> cases rendition <;>
      simp [FIXED, ← String.toList_inj, chars, Rendition.uriPrefix]
  have noDots : ¬ Reference.DotSegment uri.toList := by
    rw [chars]
    rcases isStem with rfl | rfl <;> cases rendition <;> simp [Reference.DotSegment, Rendition.uriPrefix]
  have audio : "audio-".toList <+: uri.toList ↔ rendition = .audio := by
    rw [chars]
    rcases isStem with rfl | rfl <;> cases rendition <;> simp [Rendition.uriPrefix, List.cons_prefix_cons]
  simp only [FIXED, List.mem_cons, not_or] at others
  obtain ⟨nonempty, notMaster, notPlaylist, notAudio, notInit, notAudioInit, _⟩ := others
  have isFile : FileName uri := ⟨nonempty, flatAll⟩
  refine ⟨⟨isFile, (clean_file uri isFile).mpr noDots, notMaster, ?_⟩, by simp [FIXED, notPlaylist, notAudio, notInit, notAudioInit]⟩
  rw [renditionOf, if_neg (not_or.mpr ⟨notPlaylist, notInit⟩), if_neg (not_or.mpr ⟨notAudio, notAudioInit⟩)]
  cases rendition with
  | video => rw [if_neg fun isAudio => by cases audio.mp isAudio]
  | audio => rw [if_pos (audio.mpr rfl)]

theorem part_media (rendition : Rendition) (sequence index : Nat) :
    MediaName rendition (partUri rendition.uriPrefix sequence index) ∧ partUri rendition.uriPrefix sequence index ∉ FIXED := by
  refine stem_media rendition _ _ _ (.inl rfl) ?_ (part_uri_chars rendition.uriPrefix sequence index)
  have sequences := not_in_digits '/' sequence (by decide)
  have indices := not_in_digits '/' index (by decide)
  show '/' ∉ (toString sequence).toList ++ '-' :: ((toString index).toList ++ ".m4s".toList)
  simp only [List.mem_append, List.mem_cons, not_or]
  exact ⟨sequences, by decide, indices, by decide⟩

theorem segment_media (rendition : Rendition) (sequence : Nat) :
    MediaName rendition (segmentUri rendition.uriPrefix sequence) ∧ segmentUri rendition.uriPrefix sequence ∉ FIXED := by
  refine stem_media rendition _ _ _ (.inr rfl) ?_ (segment_uri_chars rendition.uriPrefix sequence)
  simpa using not_in_digits '/' sequence (by decide)

theorem live_media (rendition : Rendition) (builder : PlaylistBuilder) (numbered : Numbered builder)
    (names : OwnNames rendition builder) (uri : String) (live : uri ∈ liveUris builder.manifest) :
    MediaName rendition uri ∧ uri ∉ FIXED := by
  have issued := numbered.issued uri live
  rw [names.uriPrefix] at issued
  rcases issued with ⟨sequence, index, rfl, _⟩ | ⟨sequence, _, rfl⟩
  · exact part_media rendition sequence index
  · exact segment_media rendition sequence

theorem cue_file (mediaSequence : Nat) : FileName (cueUri mediaSequence) ∧ Reference.Clean (cueUri mediaSequence).toList ∧
    cueUri mediaSequence ≠ "master.m3u8" ∧ cueUri mediaSequence ≠ "playlist.m3u8" := by
  have chars : (cueUri mediaSequence).toList = 's' :: 'e' :: 'g' :: '-' :: ((toString mediaSequence).toList ++ ".vtt".toList) := by
    simp [cueUri]
  have others : cueUri mediaSequence ∉ ["", "master.m3u8", "playlist.m3u8"] := by
    simp [← String.toList_inj, chars]
  simp only [List.mem_cons, not_or] at others
  have isFile : FileName (cueUri mediaSequence) := by
    refine ⟨others.1, ?_⟩
    rw [chars]
    simpa using not_in_digits '/' mediaSequence (by decide)
  refine ⟨isFile, (clean_file _ isFile).mpr ?_, others.2.1, others.2.2.1⟩
  rw [chars]
  simp [Reference.DotSegment]

namespace MultiHlsState

section Reached

variable {multi : MultiHlsState} {detect : CodecStrings} {broadcast : String}

-- A name beside the playlist of a broadcast leads to that broadcast.
theorem media_resolves (named : broadcast ≠ "") (isKnown : multi.known broadcast = true)
    (clean : Reference.Clean broadcast.toList) (plain : ¬ InCaptions broadcast) (file : String) (isFile : FileName file)
    (rendition : Rendition) (uri : String) (media : MediaName rendition uri) (answer : Option Response)
    (answered : ∀ response ∈ answer, ∀ hlsSkip, multi.handleRendition rendition broadcast uri hlsSkip = response) :
    multi.Resolves detect (broadcast ++ "/" ++ file) ⟨uri, .rendition rendition broadcast uri, answer⟩ := by
  have routed : multi.route (broadcast ++ "/" ++ uri) = .rendition rendition broadcast uri := by
    rw [route_rendition multi broadcast uri named media.file media.notMaster (.inl isKnown) plain, media.rendition]
  refine ⟨broadcast ++ "/" ++ uri, ?_, routed, fun response isAnswer hlsSkip => ?_⟩
  · exact handed_beside broadcast file uri isFile clean (file_relative uri media.file) media.clean
  · rw [handleMultiGet, routed]
    exact answered response isAnswer hlsSkip

theorem captions_resolves (requestPath uri tail : String)
    (isHanded : handed requestPath uri = some (broadcast ++ "/captions/" ++ tail)) (isFile : FileName tail)
    (notMaster : tail ≠ "master.m3u8")
    (here : multi.known (broadcast ++ "/captions") = true ∨ multi.resolveRedirectBase (broadcast ++ "/captions") = none)
    (answer : Option Response) (answered : ∀ response ∈ answer, multi.handleCaptions broadcast tail = response) :
    multi.Resolves detect requestPath ⟨uri, .captions broadcast tail, answer⟩ := by
  have routed := route_captions multi broadcast tail isFile notMaster here
  refine ⟨_, isHanded, routed, fun response isAnswer hlsSkip => ?_⟩
  rw [handleMultiGet, routed]
  exact answered response isAnswer

theorem sibling_in_captions (suffix : String) (flat : '/' ∉ suffix.toList) :
    InCaptions (broadcast ++ "/" ++ suffix) ↔ suffix = "captions" := by
  refine ⟨?_, ?_⟩
  · rintro ⟨front, same⟩
    have whole : (broadcast ++ "/" ++ suffix).toList = broadcast.toList ++ '/' :: suffix.toList := by simp
    have first := Text.rsplit_once_append '/' front "captions".toList (by decide)
    have second := Text.rsplit_once_append '/' broadcast.toList suffix.toList flat
    rw [← whole, ← same] at second
    have both := Option.some.inj (second.symm.trans first)
    exact String.toList_inj.mp (Prod.mk.inj both).2
  · rintro rfl
    exact ⟨broadcast.toList, by simp⟩

theorem sibling_resolves (clean : Reference.Clean broadcast.toList) (suffix : String) (flat : '/' ∉ suffix.toList)
    (isKnown : multi.known (broadcast ++ "/" ++ suffix) = true) (notCaptions : suffix ≠ "captions")
    (noDots : ¬ Reference.DotSegment suffix.toList) :
    multi.Resolves detect (broadcast ++ "/master.m3u8")
      ⟨"./" ++ suffix ++ "/playlist.m3u8", playlistOf .video (broadcast ++ "/" ++ suffix), none⟩ := by
  have reference : "./" ++ suffix ++ "/playlist.m3u8" = "./" ++ (suffix ++ "/playlist.m3u8") := by
    simp [← String.toList_inj]
  have request : broadcast ++ "/master.m3u8" = broadcast ++ "/" ++ "master.m3u8" := by simp [← String.toList_inj]
  have path : broadcast ++ "/" ++ (suffix ++ "/playlist.m3u8") = (broadcast ++ "/" ++ suffix) ++ "/" ++ "playlist.m3u8" := by
    simp [← String.toList_inj]
  have cleanSuffix : Reference.Clean (suffix ++ "/playlist.m3u8").toList := by
    have split : (suffix ++ "/playlist.m3u8").toList = suffix.toList ++ '/' :: "playlist.m3u8".toList := by simp
    rw [split, Reference.clean_append, Reference.clean_single _ flat]
    exact ⟨noDots, by decide⟩
  have nonempty : broadcast ++ "/" ++ suffix ≠ "" := by
    intro empty
    have chars := congrArg String.toList empty
    simp at chars
  refine ⟨broadcast ++ "/" ++ (suffix ++ "/playlist.m3u8"), ?_, ?_, fun _ isAnswer => by cases isAnswer⟩
  · rw [reference, request]
    exact handed_here broadcast "master.m3u8" _ (by decide) clean cleanSuffix
  · rw [path]
    exact route_rendition multi _ "playlist.m3u8" nonempty (by decide) (by decide) (.inl isKnown)
      ((sibling_in_captions suffix flat).not.mpr notCaptions)

theorem sibling_listed (suffix : String) (listed : Listed) (isListed : multi.siblingListing broadcast suffix = some listed) :
    listed = ⟨"./" ++ suffix ++ "/playlist.m3u8", playlistOf .video (broadcast ++ "/" ++ suffix), none⟩ ∧
      ∃ rung ∈ multi.ladder, rung.name = suffix := by
  obtain ⟨variant, isVariant, rfl⟩ := Option.map_eq_some_iff.mp isListed
  obtain ⟨rung, found, video⟩ := Option.bind_eq_some_iff.mp isVariant
  obtain ⟨_, _, rfl⟩ := Option.map_eq_some_iff.mp video
  exact ⟨rfl, rung, List.mem_of_find?_eq_some found, by simpa using List.find?_some found⟩

theorem rung_listed (rung : RenditionMeta) (member : rung ∈ multi.ladder) (flat : '/' ∉ rung.name.toList)
    (video : (multi.get .video (broadcast ++ "/" ++ rung.name)).isSome = true) :
    ∃ listed ∈ (multi.variantSiblings broadcast).filterMap (multi.siblingListing broadcast),
      listed = ⟨"./" ++ rung.name ++ "/playlist.m3u8", playlistOf .video (broadcast ++ "/" ++ rung.name), none⟩ := by
  obtain ⟨server, found⟩ := Option.isSome_iff_exists.mp video
  have isSome : (multi.ladder.find? fun other => other.name = rung.name).isSome = true := by
    rw [List.find?_isSome]
    exact ⟨rung, member, by simp⟩
  obtain ⟨first, isFirst⟩ := Option.isSome_iff_exists.mp isSome
  refine ⟨_, List.mem_filterMap.mpr ⟨rung.name, (mem_variant_siblings multi broadcast rung.name).mpr ⟨video, flat⟩, ?_⟩, rfl⟩
  rw [siblingListing, siblingVariant, isFirst, Option.bind_some, found]
  rfl

theorem master_resolves (named : broadcast ≠ "") (apart : RoutedApart multi broadcast) :
    ∀ listed ∈ multi.masterListing broadcast, multi.Resolves detect (broadcast ++ "/master.m3u8") listed := by
  have request : broadcast ++ "/master.m3u8" = broadcast ++ "/" ++ "master.m3u8" := by simp [← String.toList_inj]
  intro listed member
  rw [masterListing] at member
  cases video : multi.get .video broadcast with
  | none => simp [video] at member
  | some server =>
      have isKnown : multi.known broadcast = true := HlsSite.known_of_get .video (by simp [video])
      have own (rendition : Rendition) : multi.Resolves detect (broadcast ++ "/master.m3u8")
          ⟨rendition.playlistUri, playlistOf rendition broadcast, none⟩ := by
        rw [request]
        exact media_resolves named isKnown apart.clean apart.plain "master.m3u8" (by decide) rendition _
          (fixed_media rendition).1 none fun _ isAnswer => by cases isAnswer
      simp only [video, List.mem_append, List.mem_cons] at member
      rcases member with (audio | subtitles) | source | sibling
      · split at audio
        · obtain rfl := List.mem_singleton.mp audio
          exact own .audio
        · cases audio
      · split at subtitles
        · rename_i present
          obtain rfl := List.mem_singleton.mp subtitles
          have path : broadcast ++ "/" ++ "captions/playlist.m3u8" = broadcast ++ "/captions/" ++ "playlist.m3u8" := by
            simp [← String.toList_inj]
          refine captions_resolves _ _ _ ?_ (by decide) (by decide) (apart.captions present) none fun _ isAnswer => by
            cases isAnswer
          rw [request, ← path]
          exact handed_beside broadcast "master.m3u8" _ (by decide) apart.clean ⟨by decide, by decide⟩ (by decide)
        · cases subtitles
      · subst source
        exact own .video
      · obtain ⟨suffix, isSuffix, isListed⟩ := List.mem_filterMap.mp sibling
        obtain ⟨rfl, rung, isRung, rfl⟩ := sibling_listed suffix listed isListed
        obtain ⟨present, flat⟩ := (mem_variant_siblings multi broadcast rung.name).mp isSuffix
        obtain ⟨notCaptions, noDots⟩ := apart.rungs rung isRung flat present
        exact sibling_resolves apart.clean rung.name flat (HlsSite.known_of_get .video present) notCaptions noDots

-- What resolves shows that nothing read the names otherwise.
theorem source_apart (resolves : multi.Resolves detect (broadcast ++ "/master.m3u8")
    ⟨"playlist.m3u8", playlistOf .video broadcast, none⟩) : Reference.Clean broadcast.toList ∧ ¬ InCaptions broadcast := by
  obtain ⟨path, isHanded, routed, _⟩ := resolves
  obtain ⟨rfl, plain⟩ := rendition_routed multi broadcast _ path .video routed
  have relative : Reference.Relative "playlist.m3u8".toList := ⟨by decide, by decide⟩
  have clean := handed_clean _ _ _ relative isHanded
  have split : (broadcast ++ "/" ++ Rendition.video.playlistUri).toList =
      broadcast.toList ++ '/' :: Rendition.video.playlistUri.toList := by simp
  rw [split] at clean
  exact ⟨((Reference.clean_append _ _).mp clean).1, plain⟩

theorem sibling_apart (suffix : String) (flat : '/' ∉ suffix.toList)
    (resolves : multi.Resolves detect (broadcast ++ "/master.m3u8")
      ⟨"./" ++ suffix ++ "/playlist.m3u8", playlistOf .video (broadcast ++ "/" ++ suffix), none⟩) :
    suffix ≠ "captions" ∧ ¬ Reference.DotSegment suffix.toList := by
  obtain ⟨path, isHanded, routed, _⟩ := resolves
  obtain ⟨rfl, plain⟩ := rendition_routed multi _ _ path .video routed
  have clean := handed_clean _ _ _ ⟨by simp, by simp⟩ isHanded
  have split : (broadcast ++ "/" ++ suffix ++ "/" ++ Rendition.video.playlistUri).toList =
      broadcast.toList ++ '/' :: (suffix.toList ++ '/' :: Rendition.video.playlistUri.toList) := by simp
  rw [split, Reference.clean_append, Reference.clean_append, Reference.clean_single _ flat] at clean
  exact ⟨(sibling_in_captions suffix flat).not.mp plain, clean.2.1⟩

theorem master_apart (video : (multi.get .video broadcast).isSome = true)
    (resolves : ∀ listed ∈ multi.masterListing broadcast, multi.Resolves detect (broadcast ++ "/master.m3u8") listed) :
    RoutedApart multi broadcast := by
  obtain ⟨server, found⟩ := Option.isSome_iff_exists.mp video
  rw [masterListing, found] at resolves
  simp only [List.mem_append, List.mem_cons] at resolves
  obtain ⟨clean, plain⟩ := source_apart (resolves _ (.inr (.inl rfl)))
  refine ⟨clean, plain, ?_, ?_⟩
  · intro rung member flat present
    obtain ⟨listed, isListed, rfl⟩ := rung_listed rung member flat present
    exact sibling_apart rung.name flat (resolves _ (.inr (.inr isListed)))
  · intro present
    have listed := resolves ⟨subtitlesRendition.uri, .captions broadcast "playlist.m3u8", none⟩
    rw [if_pos present] at listed
    obtain ⟨path, _, routed, _⟩ := listed (.inl (.inr (List.mem_singleton_self _)))
    exact captions_routed multi broadcast _ path routed

end Reached

end MultiHlsState

namespace HlsSite

section Reached

variable {template : Template} {site : HlsSite} {detect : CodecStrings} {broadcast : String}

-- What the playlist of a rendition lists as a segment or a part is in the cache.
theorem live_uri_resolves (sound : site.Sound template) (named : broadcast ≠ "") (apart : RoutedApart site.multi broadcast)
    (rendition : Rendition) (server : HlsServer) (found : site.multi.get rendition broadcast = some server) (uri : String)
    (live : uri ∈ liveUris server.builder.manifest) (bytes : Bytes) (cached : server.cache uri = some bytes) :
    site.multi.Resolves detect (broadcast ++ "/" ++ rendition.playlistUri)
      ⟨uri, .rendition rendition broadcast uri, some (.segment bytes)⟩ := by
  obtain ⟨⟨_, coherent⟩, names⟩ := sound.servers rendition broadcast server found
  have isKnown : site.multi.known broadcast = true := HlsSite.known_of_get rendition (by simp [found])
  obtain ⟨media, free⟩ := live_media rendition server.builder coherent.numbered names uri live
  simp only [FIXED, List.mem_cons, not_or] at free
  refine MultiHlsState.media_resolves named isKnown apart.clean apart.plain rendition.playlistUri
    (fixed_media rendition).1.file rendition uri media _ fun response isAnswer skip => ?_
  obtain rfl := Option.some.inj isAnswer
  rw [MultiHlsState.handleRendition, found]
  simp only [free, or_self, if_false, renderUri, cached]

theorem media_listed_resolves (sound : site.Sound template) (named : broadcast ≠ "")
    (apart : RoutedApart site.multi broadcast) (rendition : Rendition) (hlsSkip : Option String) :
    ∀ listed ∈ site.mediaListing rendition broadcast hlsSkip,
      site.multi.Resolves detect (broadcast ++ "/" ++ rendition.playlistUri) listed := by
  intro listed member
  rw [mediaListing] at member
  cases found : site.multi.get rendition broadcast with
  | none => simp [found] at member
  | some server =>
      obtain ⟨⟨evicted, coherent⟩, names⟩ := sound.servers rendition broadcast server found
      have isKnown : site.multi.known broadcast = true := HlsSite.known_of_get rendition (by simp [found])
      have unanswered (place : Rendition) (uri : String) (media : MediaName place uri) :
          site.multi.Resolves detect (broadcast ++ "/" ++ rendition.playlistUri)
            ⟨uri, .rendition place broadcast uri, none⟩ :=
        MultiHlsState.media_resolves named isKnown apart.clean apart.plain rendition.playlistUri
          (fixed_media rendition).1.file place uri media none fun _ isAnswer => by cases isAnswer
      have part (part : Part) (live : part.uri ∈ livePartUris server.builder.manifest) :
          site.multi.Resolves detect (broadcast ++ "/" ++ rendition.playlistUri)
            (partListing rendition broadcast (site.bodies rendition broadcast) part) :=
        live_uri_resolves sound named apart rendition server found part.uri (part_uri_live _ _ live) _
          (settled_part coherent part.uri live)
      simp only [found, manifestListing, List.cons_append, List.mem_cons, List.mem_append] at member
      rcases member with map | ((segments | parts) | hint) | reports
      · subst map
        rw [names.mapUri]
        exact unanswered rendition _ (fixed_media rendition).2
      · obtain ⟨segment, kept, inside⟩ := List.mem_flatMap.mp segments
        have isListed := List.mem_of_mem_drop kept
        cases List.mem_append.mp inside with
        | inl isPart =>
            obtain ⟨inner, isInner, rfl⟩ := List.mem_map.mp isPart
            exact part inner (segment_part_live _ segment isListed inner isInner)
        | inr isSegment =>
            obtain rfl := List.mem_singleton.mp isSegment
            exact live_uri_resolves sound named apart rendition server found segment.uri
              (segment_uri_live _ segment isListed) _ (settled_segment coherent segment isListed)
      · obtain ⟨inner, isInner, rfl⟩ := List.mem_map.mp parts
        exact part inner (List.mem_append_right _ (List.mem_map_of_mem isInner))
      · split at hint
        · cases hint
        · obtain ⟨uri, isHint, rfl⟩ := List.mem_map.mp hint
          obtain ⟨sequence, index, rfl⟩ := names.hint uri (Option.mem_toList.mp isHint)
          exact unanswered rendition _ (part_media rendition sequence index).1
      · obtain ⟨report, isReport, rfl⟩ := List.mem_map.mp reports
        have isUri : report.uri = rendition.other.playlistUri := by
          obtain ⟨position, _, rfl⟩ := Option.map_eq_some_iff.mp (Option.mem_toList.mp isReport)
          rfl
        rw [reportListing, isUri]
        exact unanswered rendition.other _ (fixed_media rendition.other).1

theorem captions_listed_resolves (sound : site.Sound template) (apart : RoutedApart site.multi broadcast) :
    ∀ listed ∈ site.captionsListing broadcast,
      site.multi.Resolves detect (broadcast ++ "/captions/playlist.m3u8") listed := by
  intro listed member
  rw [captionsListing] at member
  cases found : site.multi.subtitlesOf broadcast with
  | none => simp [found] at member
  | some subs =>
      simp only [found] at member
      obtain ⟨segment, inside, rfl⟩ := List.mem_map.mp member
      obtain ⟨isFile, clean, notMaster, notPlaylist⟩ : FileName segment.uri ∧ Reference.Clean segment.uri.toList ∧
        segment.uri ≠ "master.m3u8" ∧ segment.uri ≠ "playlist.m3u8" := cue_file segment.mediaSequence
      have request : broadcast ++ "/captions/playlist.m3u8" = broadcast ++ "/captions" ++ "/" ++ "playlist.m3u8" := by
        simp [← String.toList_inj]
      have path : broadcast ++ "/captions" ++ "/" ++ segment.uri = broadcast ++ "/captions/" ++ segment.uri := by
        simp [← String.toList_inj]
      have directory : (broadcast ++ "/captions").toList = broadcast.toList ++ '/' :: "captions".toList := by simp
      have cleanDirectory : Reference.Clean (broadcast ++ "/captions").toList := by
        rw [directory, Reference.clean_append]
        exact ⟨apart.clean, by decide⟩
      refine MultiHlsState.captions_resolves _ _ _ ?_ isFile notMaster (apart.captions (by simp [found])) _ ?_
      · rw [request, ← path]
        exact handed_beside _ "playlist.m3u8" _ (by decide) cleanDirectory (file_relative _ isFile) clean
      · intro response isAnswer
        obtain rfl := Option.some.inj isAnswer
        have rendered := SubtitlesServer.render_listed subs (sound.captions broadcast subs found).1 segment inside
        rw [MultiHlsState.handleCaptions, found]
        simp only [if_neg notPlaylist, rendered]

theorem unknown_resolves (unknown : ¬ site.multi.known broadcast = true) : ListedResolve detect site broadcast := by
  have missing (rendition : Rendition) : site.multi.get rendition broadcast = none := by
    by_contra present
    exact unknown (HlsSite.known_of_get rendition (Option.isSome_iff_ne_none.mpr present))
  have noSubtitles : site.multi.subtitlesOf broadcast = none := by
    by_contra present
    exact unknown (by simp [MultiHlsState.known, Option.isSome_iff_ne_none.mpr present])
  refine ⟨?_, ?_, ?_⟩
  · intro listed member
    simp [MultiHlsState.masterListing, missing] at member
  · intro rendition hlsSkip listed member
    simp [mediaListing, missing] at member
  · intro listed member
    simp [captionsListing, noSubtitles] at member

-- Every listed URI leads back to what listed it in exactly the states where the
-- names of a broadcast are apart from those the router reads otherwise.
theorem listed_uris_resolve_iff (template : Template) (resolver : Option (String → Option String))
    (ops : List MultiHlsOp) (names : ∀ op ∈ ops, ∀ name, op.Creates name → UnreservedName name) (detect : CodecStrings)
    (broadcast : String) :
    ListedResolve detect (Machine.run step (start template resolver) ops) broadcast ↔
      ((Machine.run step (start template resolver) ops).multi.known broadcast = true →
        RoutedApart (Machine.run step (start template resolver) ops).multi broadcast) := by
  have sound := run_sound template resolver ops
  refine ⟨fun resolves isKnown => ?_, fun apart => ?_⟩
  · exact MultiHlsState.master_apart ((known_iff_video broadcast sound).mp isKnown) resolves.master
  · by_cases isKnown : (Machine.run step (start template resolver) ops).multi.known broadcast = true
    · obtain ⟨op, made, creates⟩ := (run_known_iff template resolver ops broadcast).mp isKnown
      have named := unreserved_nonempty broadcast (names op made broadcast creates)
      have routed := apart isKnown
      exact ⟨MultiHlsState.master_resolves named routed, media_listed_resolves sound named routed,
        captions_listed_resolves sound routed⟩
    · exact unknown_resolves isKnown

end Reached

def publishedAs (broadcast : String) : HlsSite := Machine.run step (start .default none) [.ensureVideo broadcast 0]

theorem plain_name_resolves : UnreservedName "live/cam1" ∧ ListedResolve .none (publishedAs "live/cam1") "live/cam1" := by
  have isName : UnreservedName "live/cam1" := by decide
  have names : ∀ op ∈ [MultiHlsOp.ensureVideo "live/cam1" 0], ∀ name, op.Creates name → UnreservedName name := by
    intro op member name creates
    obtain rfl := List.mem_singleton.mp member
    rwa [creates]
  refine ⟨isName, (listed_uris_resolve_iff .default none _ names .none "live/cam1").mpr fun _ => ?_⟩
  refine ⟨by decide, by decide +kernel, ?_, ?_⟩
  · intro rung member
    cases member
  · intro present
    cases present

-- Published under a name that ends like the captions of another, a broadcast lists
-- a video playlist that is answered as the captions of the other.
theorem captions_name_misrouted :
    UnreservedName "live/captions" ∧ ¬ ListedResolve .none (publishedAs "live/captions") "live/captions" := by
  refine ⟨by decide, fun resolves => ?_⟩
  have source := resolves.master ⟨"playlist.m3u8", MultiHlsState.playlistOf .video "live/captions", none⟩
    (List.mem_append_right _ List.mem_cons_self)
  exact (MultiHlsState.source_apart source).2 (by decide +kernel)

end HlsSite

end Lvqr.Hls
