import Lvqr.Hls.Coherence
import Lvqr.Hls.Routing
import Mathlib.Data.List.Induction

set_option autoImplicit false

-- Runs of the server of all broadcasts, each call on its own.
namespace Lvqr.Hls

open PlaylistBuilder

def Rendition.initUri : Rendition → String
  | .video => "init.mp4"
  | .audio => "audio-init.mp4"

def Rendition.uriPrefix : Rendition → String
  | .video => ""
  | .audio => "audio-"

-- What the command line may choose: all but the two names of the video rendition.
structure Template where
  config : PlaylistBuilderConfig
  mapUri : config.mapUri = Rendition.video.initUri
  uriPrefix : config.uriPrefix = Rendition.video.uriPrefix

def Template.default : Template := ⟨.default, rfl, rfl⟩

inductive MultiHlsOp where
  | ensureVideo (broadcast : String) (now : Nat)
  | ensureAudio (broadcast : String) (timescale now audioNow : Nat)
  | ensureSubtitles (broadcast : String) (now : Nat)
  | serve (rendition : Rendition) (broadcast : String) (op : ServerOp)
  | pushCue (broadcast : String) (cue : CaptionCue)
  | finalizeSubtitles (broadcast : String)
  | pushDateRange (broadcast : String) (range : DateRange) (now : Nat)
  | finalizeBroadcast (broadcast : String)
  | setLadder (ladder : List RenditionMeta)
  | setSourceBandwidthBps (bps : Option Nat)

-- The calls that make an entry for a broadcast where there is none.
def MultiHlsOp.Creates (broadcast : String) : MultiHlsOp → Prop
  | .ensureVideo name _ | .ensureAudio name _ _ _ | .ensureSubtitles name _ | .pushDateRange name _ _ => broadcast = name
  | .serve _ _ _ | .pushCue _ _ | .finalizeSubtitles _ | .finalizeBroadcast _ | .setLadder _
  | .setSourceBandwidthBps _ => False

-- `bodies` remembers what was pushed under each part URI of a rendition.
structure HlsSite where
  multi : MultiHlsState
  bodies : Rendition → String → String → Bytes

namespace HlsSite

def start (template : Template) (resolver : Option (String → Option String)) : HlsSite :=
  ⟨.withOwnerResolver template.config resolver, fun _ _ _ => []⟩

def record (site : HlsSite) (rendition : Rendition) (broadcast : String) (op : ServerOp) :
    Rendition → String → String → Bytes :=
  match site.multi.get rendition broadcast with
  | none => site.bodies
  | some server => fun place name =>
      if name = broadcast ∧ place = rendition then server.recorded (site.bodies rendition broadcast) op
      else site.bodies place name

def step (site : HlsSite) : MultiHlsOp → HlsSite
  | .ensureVideo broadcast now => { site with multi := site.multi.ensureVideo broadcast now }
  | .ensureAudio broadcast timescale now audioNow =>
      { site with multi := site.multi.ensureAudio broadcast timescale now audioNow }
  | .ensureSubtitles broadcast now => { site with multi := site.multi.ensureSubtitles broadcast now }
  | .serve rendition broadcast op =>
      ⟨site.multi.update rendition broadcast fun server => server.apply op, site.record rendition broadcast op⟩
  | .pushCue broadcast cue =>
      { site with multi := site.multi.updateSubtitles broadcast fun subs => subs.pushCue cue }
  | .finalizeSubtitles broadcast =>
      { site with multi := site.multi.updateSubtitles broadcast SubtitlesServer.finalize }
  | .pushDateRange broadcast range now => { site with multi := site.multi.pushDateRange broadcast range now }
  | .finalizeBroadcast broadcast => { site with multi := site.multi.finalizeBroadcast broadcast }
  | .setLadder ladder => { site with multi := site.multi.setLadder ladder }
  | .setSourceBandwidthBps bps => { site with multi := site.multi.setSourceBandwidthBps bps }

end HlsSite

structure OwnNames (rendition : Rendition) (builder : PlaylistBuilder) : Prop where
  uriPrefix : builder.config.uriPrefix = rendition.uriPrefix
  mapUri : builder.manifest.mapUri = rendition.initUri
  hint : ∀ uri ∈ builder.manifest.preloadHintUri, ∃ sequence index, uri = partUri rendition.uriPrefix sequence index

section OwnNames

variable {rendition : Rendition} {builder : PlaylistBuilder}

theorem new_names (config : PlaylistBuilderConfig) (uriPrefix : config.uriPrefix = rendition.uriPrefix)
    (mapUri : config.mapUri = rendition.initUri) : OwnNames rendition (.new config) :=
  ⟨uriPrefix, mapUri, fun _ member => by cases member⟩

theorem close_names (names : OwnNames rendition builder) : OwnNames rendition builder.closePendingSegment := by
  by_cases empty : builder.pendingParts = []
  · rwa [close_nothing_pending builder empty]
  · obtain ⟨ranges, _, closed⟩ := close_pending_eq builder empty
    rw [closed]
    refine ⟨names.uriPrefix, names.mapUri, ?_⟩
    rintro uri ⟨⟩
    exact ⟨_, _, by rw [names.uriPrefix]⟩

theorem start_chunk_names (chunk : Cmaf.CmafChunk) (names : OwnNames rendition builder) :
    OwnNames rendition (builder.startChunk chunk) := by
  have counted : OwnNames rendition (builder.counted chunk) := ⟨names.uriPrefix, names.mapUri, names.hint⟩
  rw [start_chunk_eq]
  split
  · exact close_names counted
  · exact counted

theorem accept_names (chunk : Cmaf.CmafChunk) (names : OwnNames rendition builder) :
    OwnNames rendition (builder.accept chunk) := by
  have started := start_chunk_names chunk names
  refine ⟨started.uriPrefix, started.mapUri, ?_⟩
  rintro uri ⟨⟩
  exact ⟨_, _, by rw [nextPartUri, started.uriPrefix]⟩

theorem finalize_names (names : OwnNames rendition builder) : OwnNames rendition builder.finalize := by
  have closed := close_names names
  exact ⟨closed.uriPrefix, closed.mapUri, fun _ member => by cases member⟩

theorem apply_names (server : HlsServer) (op : ServerOp) (names : OwnNames rendition server.builder) :
    OwnNames rendition (server.apply op).builder := by
  cases op with
  | pushInit bytes =>
      simp only [HlsServer.apply, HlsServer.pushInit]
      split
      · exact ⟨names.uriPrefix, names.mapUri, names.hint⟩
      · exact names
  | pushChunkBytes chunk body =>
      rw [HlsServer.apply, HlsServer.push_chunk_builder]
      split
      · have accepted := accept_names chunk names
        exact ⟨accepted.uriPrefix, accepted.mapUri, accepted.hint⟩
      · exact names
  | pushDateRange range =>
      simp only [HlsServer.apply, HlsServer.pushDateRange, PlaylistBuilder.pushDateRange]
      split
      · exact names
      · exact ⟨names.uriPrefix, names.mapUri, names.hint⟩
  | closePendingSegment =>
      have closed := close_names names
      exact ⟨closed.uriPrefix, closed.mapUri, closed.hint⟩
  | finalize =>
      have finalized := finalize_names names
      exact ⟨finalized.uriPrefix, finalized.mapUri, finalized.hint⟩

end OwnNames

structure Served (rendition : Rendition) (server : HlsServer) (bodies : String → Bytes) : Prop where
  settled : SettledWith server bodies
  names : OwnNames rendition server.builder

theorem new_served (rendition : Rendition) (config : PlaylistBuilderConfig) (bodies : String → Bytes)
    (uriPrefix : config.uriPrefix = rendition.uriPrefix) (mapUri : config.mapUri = rendition.initUri) :
    Served rendition (.new config) bodies :=
  ⟨⟨_, new_coherent config bodies⟩, new_names config uriPrefix mapUri⟩

theorem apply_served (rendition : Rendition) (server : HlsServer) (bodies : String → Bytes) (op : ServerOp)
    (served : Served rendition server bodies) : Served rendition (server.apply op) (server.recorded bodies op) :=
  ⟨apply_settled_with server op bodies served.settled, apply_names server op served.names⟩

namespace HlsSite

structure Sound (template : Template) (site : HlsSite) : Prop where
  config : site.multi.config = template.config
  servers : ∀ rendition broadcast server, site.multi.get rendition broadcast = some server →
    Served rendition server (site.bodies rendition broadcast)
  captions : ∀ broadcast subs, site.multi.subtitlesOf broadcast = some subs →
    subs.Consecutive ∧ (site.multi.get .video broadcast).isSome = true

section Sound

variable {template : Template} {site : HlsSite}

theorem start_sound (resolver : Option (String → Option String)) : (start template resolver).Sound template := by
  refine ⟨rfl, ?_, ?_⟩
  · intro rendition broadcast server found
    cases found
  · intro broadcast subs found
    cases found

theorem ensured_served (rendition : Rendition) (before : Option HlsServer) (config : PlaylistBuilderConfig)
    (bodies : String → Bytes) (served : ∀ server, before = some server → Served rendition server bodies)
    (uriPrefix : config.uriPrefix = rendition.uriPrefix) (mapUri : config.mapUri = rendition.initUri) :
    Served rendition (before.getD (.new config)) bodies := by
  cases before with
  | none => exact new_served rendition config bodies uriPrefix mapUri
  | some server => exact served server rfl

theorem ensure_video_sound (broadcast : String) (now : Nat) (sound : site.Sound template) :
    Sound template { site with multi := site.multi.ensureVideo broadcast now } := by
  have eq (name : String) (place : Rendition) := site.multi.toMultiHlsServer.ensure_video_eq broadcast name now place
  refine ⟨(site.multi.ensure_video_config broadcast now).trans sound.config, ?_, ?_⟩
  · intro rendition name server found
    rw [MultiHlsState.ensureVideo, eq] at found
    split at found
    · rename_i here
      obtain ⟨rfl, rfl⟩ := here
      obtain rfl := Option.some.inj found
      refine ensured_served .video _ _ _ (sound.servers .video name) ?_ ?_
      · exact (congrArg PlaylistBuilderConfig.uriPrefix sound.config).trans template.uriPrefix
      · exact (congrArg PlaylistBuilderConfig.mapUri sound.config).trans template.mapUri
    · exact sound.servers rendition name server found
  · intro name subs found
    obtain ⟨consecutive, video⟩ := sound.captions name subs found
    refine ⟨consecutive, ?_⟩
    rw [MultiHlsState.ensureVideo, eq]
    split
    · rfl
    · exact video

theorem ensure_audio_sound (broadcast : String) (timescale now audioNow : Nat) (sound : site.Sound template) :
    Sound template { site with multi := site.multi.ensureAudio broadcast timescale now audioNow } := by
  have eq (name : String) (place : Rendition) :=
    site.multi.toMultiHlsServer.ensure_audio_eq broadcast name timescale now audioNow place
  refine ⟨sound.config, ?_, ?_⟩
  · intro rendition name server found
    rw [MultiHlsState.ensureAudio, eq] at found
    split at found
    · rename_i here
      subst here
      cases rendition with
      | video =>
          obtain rfl := Option.some.inj found
          refine ensured_served .video _ _ _ (sound.servers .video name) ?_ ?_
          · exact (congrArg PlaylistBuilderConfig.uriPrefix sound.config).trans template.uriPrefix
          · exact (congrArg PlaylistBuilderConfig.mapUri sound.config).trans template.mapUri
      | audio =>
          obtain rfl := Option.some.inj found
          exact ensured_served .audio _ _ _ (sound.servers .audio name) rfl rfl
    · exact sound.servers rendition name server found
  · intro name subs found
    obtain ⟨consecutive, video⟩ := sound.captions name subs found
    refine ⟨consecutive, ?_⟩
    rw [MultiHlsState.ensureAudio, eq]
    split
    · rfl
    · exact video

theorem ensure_subtitles_sound (broadcast : String) (now : Nat) (sound : site.Sound template) :
    Sound template { site with multi := site.multi.ensureSubtitles broadcast now } := by
  have ensured := ensure_video_sound broadcast now sound
  rw [MultiHlsState.ensureSubtitles]
  split
  · exact ensured
  · refine ⟨ensured.config, ensured.servers, ?_⟩
    intro name subs found
    rw [MultiHlsState.subtitlesOf, Table.lookup_insert_eq] at found
    split at found
    · rename_i here
      obtain rfl := Option.some.inj found
      refine ⟨SubtitlesServer.new_consecutive, ?_⟩
      show ((site.multi.toMultiHlsServer.ensureVideo broadcast now).get .video name).isSome = true
      rw [MultiHlsServer.ensure_video_eq, if_pos ⟨here, rfl⟩]
      rfl
    · exact ensured.captions name subs found

theorem update_subtitles_sound (broadcast : String) (change : SubtitlesServer → SubtitlesServer)
    (keeps : ∀ subs, SubtitlesServer.Consecutive subs → (change subs).Consecutive) (sound : site.Sound template) :
    Sound template { site with multi := site.multi.updateSubtitles broadcast change } := by
  refine ⟨sound.config, sound.servers, ?_⟩
  intro name subs found
  rw [MultiHlsState.updateSubtitles, MultiHlsState.subtitlesOf, Table.lookup_modify] at found
  split at found
  · rename_i here
    subst here
    obtain ⟨before, present, rfl⟩ := Option.map_eq_some_iff.mp found
    exact ⟨keeps before (sound.captions name before present).1, (sound.captions name before present).2⟩
  · exact sound.captions name subs found

theorem update_video (multi : MultiHlsState) (rendition : Rendition) (broadcast name : String)
    (change : HlsServer → HlsServer) :
    ((multi.update rendition broadcast change).get .video name).isSome = (multi.get .video name).isSome := by
  rw [MultiHlsState.update, MultiHlsServer.get_update]
  split
  · rename_i here
    obtain ⟨rfl, rfl⟩ := here
    exact Option.isSome_map
  · rfl

theorem serve_sound (rendition : Rendition) (broadcast : String) (op : ServerOp) (sound : site.Sound template) :
    (site.step (.serve rendition broadcast op)).Sound template := by
  refine ⟨sound.config, ?_, ?_⟩
  · intro place name server found
    rw [step, MultiHlsState.update, MultiHlsServer.get_update] at found
    rw [step, record]
    split at found
    · rename_i here
      obtain ⟨before, present, rfl⟩ := Option.map_eq_some_iff.mp found
      simp only [present, here, and_self, if_true]
      exact apply_served rendition before _ op (sound.servers rendition broadcast before present)
    · rename_i elsewhere
      have served := sound.servers place name server found
      split
      · exact served
      · simp only [if_neg elsewhere]
        exact served
  · intro name subs found
    rw [step, update_video]
    exact sound.captions name subs found

-- A call that pushes nothing, made outside the handle of one rendition.
theorem quiet_serve (rendition : Rendition) (broadcast : String) (op : ServerOp)
    (quiet : ∀ server bodies, HlsServer.recorded server bodies op = bodies) :
    (site.step (.serve rendition broadcast op)) =
      { site with multi := site.multi.update rendition broadcast fun server => server.apply op } := by
  rw [step]
  congr 1
  rw [record]
  split
  · rfl
  · funext place name
    rw [quiet]
    split
    · rename_i here
      rw [here.1, here.2]
    · rfl

theorem push_date_range_sound (broadcast : String) (range : DateRange) (now : Nat) (sound : site.Sound template) :
    (site.step (.pushDateRange broadcast range now)).Sound template := by
  have ensured := ensure_video_sound broadcast now sound
  have served := serve_sound .video broadcast (.pushDateRange range) ensured
  rwa [quiet_serve .video broadcast _ fun _ _ => rfl] at served

theorem finalize_broadcast_sound (broadcast : String) (sound : site.Sound template) :
    (site.step (.finalizeBroadcast broadcast)).Sound template := by
  have video := serve_sound .video broadcast .finalize sound
  have both := serve_sound .audio broadcast .finalize video
  rw [quiet_serve .audio broadcast _ fun _ _ => rfl, quiet_serve .video broadcast _ fun _ _ => rfl] at both
  exact update_subtitles_sound broadcast _ SubtitlesServer.finalize_consecutive both

theorem step_sound (op : MultiHlsOp) (sound : site.Sound template) : (site.step op).Sound template := by
  cases op with
  | ensureVideo broadcast now => exact ensure_video_sound broadcast now sound
  | ensureAudio broadcast timescale now audioNow => exact ensure_audio_sound broadcast timescale now audioNow sound
  | ensureSubtitles broadcast now => exact ensure_subtitles_sound broadcast now sound
  | serve rendition broadcast op => exact serve_sound rendition broadcast op sound
  | pushCue broadcast cue =>
      exact update_subtitles_sound broadcast _ (fun subs => SubtitlesServer.push_cue_consecutive subs cue) sound
  | finalizeSubtitles broadcast => exact update_subtitles_sound broadcast _ SubtitlesServer.finalize_consecutive sound
  | pushDateRange broadcast range now => exact push_date_range_sound broadcast range now sound
  | finalizeBroadcast broadcast => exact finalize_broadcast_sound broadcast sound
  | setLadder ladder => exact ⟨sound.config, sound.servers, sound.captions⟩
  | setSourceBandwidthBps bps => exact ⟨sound.config, sound.servers, sound.captions⟩

theorem known_of_get {multi : MultiHlsState} {broadcast : String} (rendition : Rendition)
    (found : (multi.get rendition broadcast).isSome = true) : multi.known broadcast = true := by
  cases rendition <;> simp [MultiHlsState.known, found]

-- Whatever a broadcast has, it has an entry, and with it video.
theorem known_iff_video (broadcast : String) (sound : site.Sound template) :
    site.multi.known broadcast = true ↔ (site.multi.get .video broadcast).isSome = true := by
  refine ⟨fun isKnown => ?_, known_of_get .video⟩
  simp only [MultiHlsState.known, Bool.or_eq_true] at isKnown
  rcases isKnown with (video | audio) | subtitles
  · exact video
  · rw [MultiHlsServer.get] at audio ⊢
    cases entry : site.multi.broadcasts.lookup broadcast with
    | none => simp [entry] at audio
    | some entry => rfl
  · obtain ⟨subs, found⟩ := Option.isSome_iff_exists.mp subtitles
    exact (sound.captions broadcast subs found).2

theorem ensure_video_video (multi : MultiHlsState) (name broadcast : String) (now : Nat) :
    ((multi.ensureVideo name now).get .video broadcast).isSome = true ↔
      (multi.get .video broadcast).isSome = true ∨ broadcast = name := by
  rw [MultiHlsState.ensureVideo, MultiHlsServer.ensure_video_eq]
  by_cases same : broadcast = name
  · simp [same]
  · simp [same]

theorem step_video (op : MultiHlsOp) (broadcast : String) :
    ((site.step op).multi.get .video broadcast).isSome = true ↔
      (site.multi.get .video broadcast).isSome = true ∨ op.Creates broadcast := by
  cases op with
  | ensureVideo name now => exact ensure_video_video site.multi name broadcast now
  | ensureAudio name timescale now audioNow =>
      rw [step, MultiHlsState.ensureAudio, MultiHlsServer.ensure_audio_eq, MultiHlsOp.Creates]
      by_cases same : broadcast = name
      · simp [same]
      · simp [same]
  | ensureSubtitles name now =>
      have kept : ((site.step (.ensureSubtitles name now)).multi.get .video broadcast) =
          (site.multi.ensureVideo name now).get .video broadcast := by
        rw [step, MultiHlsState.ensureSubtitles]
        split <;> rfl
      rw [kept]
      exact ensure_video_video site.multi name broadcast now
  | pushDateRange name range now =>
      have updated := update_video (site.multi.ensureVideo name now) .video name broadcast
        fun server => server.pushDateRange range
      rw [step, MultiHlsState.pushDateRange, updated]
      exact ensure_video_video site.multi name broadcast now
  | serve rendition name op =>
      rw [step, update_video, MultiHlsOp.Creates, or_false]
  | finalizeBroadcast name =>
      have finalized := site.multi.toMultiHlsServer.get_finalize .video name broadcast
      show ((site.multi.toMultiHlsServer.finalizeBroadcast name).get .video broadcast).isSome = true ↔ _
      rw [finalized, MultiHlsOp.Creates, or_false]
      split
      · rw [Option.isSome_map]
      · rfl
  | pushCue | finalizeSubtitles | setLadder | setSourceBandwidthBps => exact (or_false _).symm ▸ Iff.rfl

end Sound

theorem run_sound (template : Template) (resolver : Option (String → Option String)) (ops : List MultiHlsOp) :
    Sound template (Machine.run step (start template resolver) ops) :=
  Machine.invariant_of_run (fun _ op sound => step_sound op sound) _ ops (start_sound resolver)

-- Entries are made and never taken away.
theorem run_known_iff (template : Template) (resolver : Option (String → Option String)) (ops : List MultiHlsOp)
    (broadcast : String) : (Machine.run step (start template resolver) ops).multi.known broadcast = true ↔
      ∃ op ∈ ops, op.Creates broadcast := by
  rw [known_iff_video broadcast (run_sound template resolver ops)]
  induction ops using List.reverseRecOn with
  | nil => simp [start, MultiHlsState.withOwnerResolver, MultiHlsServer.new, MultiHlsServer.get]
  | append_singleton ops op ih =>
      rw [Machine.run_snoc, step_video, ih]
      simp only [List.mem_append, List.mem_singleton, or_and_right, exists_or, exists_eq_left]

end HlsSite

end Lvqr.Hls
