import Lvqr.Hls.Server
import Lvqr.Lib.Table

set_option autoImplicit false

-- The servers of all broadcasts, and what ends the text of a playlist.
namespace Lvqr.Hls

structure BroadcastEntry where
  video : HlsServer
  audio : Option HlsServer

structure MultiHlsServer where
  config : PlaylistBuilderConfig
  broadcasts : Table String BroadcastEntry

def stampPdtNow (config : PlaylistBuilderConfig) (now : Nat) : PlaylistBuilderConfig :=
  { config with programDateTimeBase := some now }

def audioConfigFrom (video : PlaylistBuilderConfig) (timescale : Nat) : PlaylistBuilderConfig :=
  { video with timescale := timescale, mapUri := "audio-init.mp4", uriPrefix := "audio-" }

inductive Rendition where
  | video
  | audio
deriving DecidableEq, Repr

def BroadcastEntry.get (entry : BroadcastEntry) : Rendition → Option HlsServer
  | .video => some entry.video
  | .audio => entry.audio

def BroadcastEntry.map (entry : BroadcastEntry) (change : HlsServer → HlsServer) : Rendition → BroadcastEntry
  | .video => { entry with video := change entry.video }
  | .audio => { entry with audio := entry.audio.map change }

-- What was there stays, and what is new starts from nothing.
def Ensured (before after : Option HlsServer) : Prop :=
  after = before ∨ (before = none ∧ ∃ config, after = some (.new config))

namespace MultiHlsServer

def new (config : PlaylistBuilderConfig) : MultiHlsServer := ⟨config, ∅⟩

def get (multi : MultiHlsServer) (rendition : Rendition) (broadcast : String) : Option HlsServer :=
  (multi.broadcasts.lookup broadcast).bind fun entry => entry.get rendition

def newEntry (multi : MultiHlsServer) (now : Nat) : BroadcastEntry := ⟨.new (stampPdtNow multi.config now), none⟩

def ensureVideo (multi : MultiHlsServer) (broadcast : String) (now : Nat) : MultiHlsServer :=
  match multi.broadcasts.lookup broadcast with
  | some _ => multi
  | none => { multi with broadcasts := multi.broadcasts.insert broadcast (multi.newEntry now) }

-- The clock is read once for a new entry and once for a new audio rendition.
def ensureAudio (multi : MultiHlsServer) (broadcast : String) (timescale now audioNow : Nat) : MultiHlsServer :=
  let entry := (multi.broadcasts.lookup broadcast).getD (multi.newEntry now)
  let audio := entry.audio.getD (.new (audioConfigFrom (stampPdtNow multi.config audioNow) timescale))
  { multi with broadcasts := multi.broadcasts.insert broadcast { entry with audio := some audio } }

-- A handle is a clone of the server, so what is pushed through it is in the entry.
def update (multi : MultiHlsServer) (rendition : Rendition) (broadcast : String) (change : HlsServer → HlsServer) :
    MultiHlsServer :=
  { multi with broadcasts := multi.broadcasts.modify broadcast fun entry => entry.map change rendition }

def finalizeBroadcast (multi : MultiHlsServer) (broadcast : String) : MultiHlsServer :=
  (multi.update .video broadcast HlsServer.finalize).update .audio broadcast HlsServer.finalize

theorem get_update (multi : MultiHlsServer) (rendition place : Rendition) (broadcast other : String)
    (change : HlsServer → HlsServer) :
    (multi.update rendition broadcast change).get place other =
      if other = broadcast ∧ place = rendition then (multi.get rendition broadcast).map change
      else multi.get place other := by
  rw [get, update, Table.lookup_modify]
  by_cases same : other = broadcast
  · subst same
    rw [if_pos rfl, get, get]
    cases multi.broadcasts.lookup other with
    | none => simp
    | some entry => cases rendition <;> cases place <;> simp [BroadcastEntry.get, BroadcastEntry.map]
  · rw [if_neg same, if_neg fun both => same both.1, get]

theorem get_finalize (multi : MultiHlsServer) (place : Rendition) (broadcast other : String) :
    (multi.finalizeBroadcast broadcast).get place other =
      if other = broadcast then (multi.get place other).map HlsServer.finalize else multi.get place other := by
  simp only [finalizeBroadcast, get_update]
  by_cases same : other = broadcast
  · subst same
    cases place <;> simp
  · simp [same]

theorem ensure_video_get (multi : MultiHlsServer) (broadcast other : String) (now : Nat) (place : Rendition) :
    Ensured (multi.get place other) ((multi.ensureVideo broadcast now).get place other) := by
  rw [ensureVideo]
  split
  · exact .inl rfl
  · rename_i missing
    simp only [get, Table.lookup_insert_eq]
    split
    · rename_i same
      rw [same, missing]
      cases place with
      | video => exact .inr ⟨rfl, _, rfl⟩
      | audio => exact .inl rfl
    · exact .inl rfl

theorem ensure_audio_get (multi : MultiHlsServer) (broadcast other : String) (timescale now audioNow : Nat)
    (place : Rendition) :
    Ensured (multi.get place other) ((multi.ensureAudio broadcast timescale now audioNow).get place other) := by
  simp only [ensureAudio, get, Table.lookup_insert_eq]
  split
  · rename_i same
    subst same
    cases multi.broadcasts.lookup other with
    | none => cases place <;> exact .inr ⟨rfl, _, rfl⟩
    | some entry =>
        cases place with
        | video => exact .inl rfl
        | audio =>
            simp only [Option.getD_some, Option.bind_some, BroadcastEntry.get]
            cases entry.audio with
            | none => exact .inr ⟨rfl, _, rfl⟩
            | some audio => exact .inl rfl
  · exact .inl rfl

theorem ensure_video_eq (multi : MultiHlsServer) (broadcast name : String) (now : Nat) (place : Rendition) :
    (multi.ensureVideo broadcast now).get place name =
      if name = broadcast ∧ place = .video then
        some ((multi.get .video broadcast).getD (.new (stampPdtNow multi.config now)))
      else multi.get place name := by
  rw [ensureVideo]
  cases found : multi.broadcasts.lookup broadcast with
  | some entry =>
      by_cases here : name = broadcast ∧ place = .video
      · obtain ⟨rfl, rfl⟩ := here
        simp [get, found, BroadcastEntry.get]
      · rw [if_neg here]
  | none =>
      rw [get, Table.lookup_insert_eq]
      by_cases same : name = broadcast
      · subst same
        cases place <;> simp [get, found, newEntry, BroadcastEntry.get]
      · rw [if_neg same, if_neg fun both => same both.1, get]

theorem ensure_video_config (multi : MultiHlsServer) (broadcast : String) (now : Nat) :
    (multi.ensureVideo broadcast now).config = multi.config := by
  rw [MultiHlsServer.ensureVideo]
  split <;> rfl

def audioServer (multi : MultiHlsServer) (timescale audioNow : Nat) : HlsServer :=
  .new (audioConfigFrom (stampPdtNow multi.config audioNow) timescale)

theorem ensure_audio_eq (multi : MultiHlsServer) (broadcast name : String) (timescale now audioNow : Nat)
    (place : Rendition) : (multi.ensureAudio broadcast timescale now audioNow).get place name =
      if name = broadcast then
        match place with
        | .video => some ((multi.get .video broadcast).getD (.new (stampPdtNow multi.config now)))
        | .audio => some ((multi.get .audio broadcast).getD (multi.audioServer timescale audioNow))
      else multi.get place name := by
  rw [ensureAudio, get, Table.lookup_insert_eq]
  by_cases same : name = broadcast
  · subst same
    cases found : multi.broadcasts.lookup name with
    | none => cases place <;> simp [get, found, newEntry, BroadcastEntry.get, audioServer]
    | some entry => cases place <;> simp [get, found, BroadcastEntry.get, audioServer]
  · rw [if_neg same, if_neg same, get]

end MultiHlsServer

def ENDLIST : String := "#EXT-X-ENDLIST\n"

def CarriesEndlist (playlist : String) : Prop := ENDLIST.toList <:+ playlist.toList

-- Without a hint nothing has been accepted yet.
structure Plain (manifest : Manifest) : Prop where
  noRanges : manifest.dateRanges = []
  empty : manifest.preloadHintUri = none → manifest.ended = false →
    manifest.segments = [] ∧ manifest.preliminaryParts = []

theorem quoted_carries_no_endlist (front : String) : ¬ CarriesEndlist (front ++ "\"\n") := by
  intro carries
  have ends : ['T', '\n'] <:+ (front ++ "\"\n").toList :=
    List.IsSuffix.trans ⟨"#EXT-X-ENDLIS".toList, by decide⟩ carries
  have quote : ['"', '\n'] <:+ (front ++ "\"\n").toList := ⟨front.toList, by simp⟩
  have same := List.suffix_of_suffix_length_le ends quote (by decide)
  revert same
  decide

theorem append_carries_endlist (front : String) : CarriesEndlist (front ++ ENDLIST) := by
  rw [CarriesEndlist, String.toList_append]
  exact List.suffix_append _ _

theorem append_nothing (front text : String) (empty : text = "") : front ++ text = front := by
  rw [empty, String.append_empty]

theorem head_without_segments (manifest : Manifest) (noSegments : manifest.segments = []) :
    ∃ front, manifest.renderHead 0 = front ++ "\"\n" := by
  unfold Manifest.renderHead
  refine ⟨_, (append_nothing _ _ (if_neg (Nat.lt_irrefl 0))).trans (append_nothing _ _ ?_)⟩
  rw [noSegments]
  rfl

theorem render_carries_endlist_iff (manifest : Manifest) (plain : Plain manifest) :
    CarriesEndlist manifest.render ↔ manifest.ended = true := by
  rw [Manifest.render, Manifest.renderWithSkip, Manifest.renderTail]
  cases ended : manifest.ended with
  | true => exact iff_of_true (by rw [if_pos rfl]; exact append_carries_endlist _) rfl
  | false =>
      refine iff_of_false ?_ (by simp)
      cases hint : manifest.preloadHintUri with
      | some uri =>
          simp only [if_false, Bool.false_eq_true, ← String.append_assoc]
          exact quoted_carries_no_endlist _
      | none =>
          obtain ⟨noSegments, noParts⟩ := plain.empty hint ended
          simp only [noSegments, noParts, plain.noRanges, Manifest.renderDateRanges, List.map_nil, List.drop_nil,
            List.length_nil, Nat.min_self, String.join_nil, String.append_empty, Bool.false_eq_true, if_false]
          obtain ⟨front, head⟩ := head_without_segments manifest noSegments
          rw [head]
          exact quoted_carries_no_endlist _

namespace PlaylistBuilder

theorem close_date_ranges (builder : PlaylistBuilder) (noRanges : builder.manifest.dateRanges = []) :
    builder.closePendingSegment.manifest.dateRanges = [] := by
  by_cases empty : builder.pendingParts = []
  · rwa [close_nothing_pending builder empty]
  · obtain ⟨ranges, kept, closed⟩ := close_pending_eq builder empty
    rw [noRanges, List.sublist_nil] at kept
    rw [closed]
    exact kept

theorem accept_ended (builder : PlaylistBuilder) (chunk : Cmaf.CmafChunk) :
    (builder.accept chunk).manifest.ended = builder.manifest.ended := by
  rw [accept, start_chunk_eq]
  split
  · exact close_ended _
  · rfl

theorem accept_plain (builder : PlaylistBuilder) (chunk : Cmaf.CmafChunk) (plain : Plain builder.manifest) :
    Plain (builder.accept chunk).manifest where
  noRanges := by
    rw [accept, start_chunk_eq]
    split
    · exact close_date_ranges (builder.counted chunk) plain.noRanges
    · exact plain.noRanges
  empty noHint := by cases noHint

theorem finalize_plain (builder : PlaylistBuilder) (plain : Plain builder.manifest) : Plain builder.finalize.manifest where
  noRanges := close_date_ranges builder plain.noRanges
  empty _ notEnded := by cases notEnded

end PlaylistBuilder

namespace HlsServer

theorem push_init_manifest (server : HlsServer) (bytes : Bytes) :
    (server.pushInit bytes).builder.manifest = server.builder.manifest := by
  dsimp only [pushInit]
  split <;> rfl

theorem push_chunk_ended (server : HlsServer) (chunk : Cmaf.CmafChunk) (body : Bytes) :
    (server.pushChunkBytes chunk body).2.builder.manifest.ended = server.builder.manifest.ended := by
  rw [push_chunk_builder]
  split
  · exact server.builder.accept_ended chunk
  · rfl

theorem push_chunk_plain (server : HlsServer) (chunk : Cmaf.CmafChunk) (body : Bytes)
    (plain : Plain server.builder.manifest) : Plain (server.pushChunkBytes chunk body).2.builder.manifest := by
  rw [push_chunk_builder]
  split
  · exact server.builder.accept_plain chunk plain
  · exact plain

theorem new_plain (config : PlaylistBuilderConfig) : Plain (HlsServer.new config).builder.manifest :=
  ⟨rfl, fun _ _ => ⟨rfl, rfl⟩⟩

end HlsServer

end Lvqr.Hls
