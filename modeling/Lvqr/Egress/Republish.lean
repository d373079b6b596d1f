import Lvqr.Dash.Server
import Lvqr.Hls.Broadcasts
import Lvqr.Lib.Machine

set_option autoImplicit false

-- Publisher sessions that come and go under the same names, and what the HLS and
-- DASH servers tell their clients meanwhile.
namespace Lvqr.Egress

open Dash (CodecStrings DashConfig DashServer MultiDashServer)
open Hls (CarriesEndlist Ensured HlsServer MultiHlsServer Plain PlaylistBuilderConfig Rendition)

inductive Surface where
  | hls (rendition : Rendition)
  | dash
deriving DecidableEq, Repr

-- Whether a server was ever finalized, and what was pushed to it since the last time.
structure Tally where
  finalized : Bool
  init : Bool
  media : Bool
deriving DecidableEq, Repr

namespace Tally

def new : Tally := ⟨false, false, false⟩

def pushedInit (tally : Tally) : Tally := { tally with init := true }

def pushedMedia (tally : Tally) : Tally := { tally with media := true }

def ended (_ : Tally) : Tally := ⟨true, false, false⟩

def live (tally : Tally) : Bool := tally.init && tally.media

end Tally

-- `tallies` is ghost state.
structure Site where
  hls : MultiHlsServer
  dash : MultiDashServer
  tallies : Surface → String → Tally

inductive SiteOp where
  | ensureVideo (broadcast : String) (now : Nat)
  | ensureAudio (broadcast : String) (timescale now audioNow : Nat)
  | pushInit (rendition : Rendition) (broadcast : String) (bytes : Bytes)
  | pushChunkBytes (rendition : Rendition) (broadcast : String) (chunk : Cmaf.CmafChunk) (body : Bytes)
  | finalizeHls (broadcast : String)
  | ensureDash (broadcast : String)
  | pushDashInit (rendition : Rendition) (broadcast : String) (bytes : Bytes) (now : Nat)
  | pushDashSegment (rendition : Rendition) (broadcast : String) (seq : Nat) (bytes : Bytes) (now : Nat)
  | finalizeDash (broadcast : String)
deriving DecidableEq, Repr

def pushDashInit (codecs : CodecStrings) (bytes : Bytes) (now : Nat) (rendition : Rendition) (server : DashServer) :
    DashServer :=
  match rendition with
  | .video => server.pushVideoInit codecs bytes now
  | .audio => server.pushAudioInit codecs bytes now

def pushDashSegment (seq : Nat) (bytes : Bytes) (now : Nat) (rendition : Rendition) (server : DashServer) : DashServer :=
  match rendition with
  | .video => server.pushVideoSegment seq bytes now
  | .audio => server.pushAudioSegment seq bytes now

namespace Site

def new (hls : PlaylistBuilderConfig) (dash : DashConfig) : Site := ⟨.new hls, .new dash, fun _ _ => .new⟩

-- The flag that ends the playlist or the MPD of a server, where there is one.
def flag (site : Site) : Surface → String → Option Bool
  | .hls rendition, broadcast => (site.hls.get rendition broadcast).map fun server => server.builder.manifest.ended
  | .dash, broadcast => (site.dash.get broadcast).map DashServer.finalized

def note (site : Site) (reached : Surface → String → Prop) [∀ surface broadcast, Decidable (reached surface broadcast)]
    (change : Tally → Tally) : Surface → String → Tally := fun surface broadcast =>
  if reached surface broadcast ∧ (site.flag surface broadcast).isSome then change (site.tallies surface broadcast)
  else site.tallies surface broadcast

def step (codecs : CodecStrings) (site : Site) : SiteOp → Site
  | .ensureVideo broadcast now => { site with hls := site.hls.ensureVideo broadcast now }
  | .ensureAudio broadcast timescale now audioNow =>
      { site with hls := site.hls.ensureAudio broadcast timescale now audioNow }
  | .pushInit rendition broadcast bytes =>
      { site with
        hls := site.hls.update rendition broadcast fun server => server.pushInit bytes
        tallies := site.note (fun surface name => surface = .hls rendition ∧ name = broadcast) Tally.pushedInit }
  | .pushChunkBytes rendition broadcast chunk body =>
      { site with
        hls := site.hls.update rendition broadcast fun server => (server.pushChunkBytes chunk body).2
        tallies := site.note (fun surface name => surface = .hls rendition ∧ name = broadcast) Tally.pushedMedia }
  | .finalizeHls broadcast =>
      { site with
        hls := site.hls.finalizeBroadcast broadcast
        tallies := site.note (fun surface name => surface ≠ .dash ∧ name = broadcast) Tally.ended }
  | .ensureDash broadcast => { site with dash := site.dash.ensure broadcast }
  | .pushDashInit rendition broadcast bytes now =>
      { site with
        dash := site.dash.update broadcast (pushDashInit codecs bytes now rendition)
        tallies := site.note (fun surface name => surface = .dash ∧ name = broadcast) Tally.pushedInit }
  | .pushDashSegment rendition broadcast seq bytes now =>
      { site with
        dash := site.dash.update broadcast (pushDashSegment seq bytes now rendition)
        tallies := site.note (fun surface name => surface = .dash ∧ name = broadcast) Tally.pushedMedia }
  | .finalizeDash broadcast =>
      { site with
        dash := site.dash.finalizeBroadcast broadcast
        tallies := site.note (fun surface name => surface = .dash ∧ name = broadcast) Tally.ended }

-- What clients see of a server to which init and media were pushed since the last
-- finalize.
structure LiveStaysOpen (site : Site) : Prop where
  hls : ∀ rendition broadcast, ∀ server ∈ site.hls.get rendition broadcast,
    (site.tallies (.hls rendition) broadcast).live = true → ¬ CarriesEndlist server.builder.manifest.render
  dash : ∀ broadcast, ∀ server ∈ site.dash.get broadcast, (site.tallies .dash broadcast).live = true →
    ∀ now, ∀ mpd ∈ server.renderManifest now, mpd.mpdType = .dynamic

-- Nothing that was finalized has a session again, but for a DASH server without
-- video, which shows no MPD.
structure NothingRevived (site : Site) : Prop where
  hls : ∀ rendition broadcast, (site.tallies (.hls rendition) broadcast).finalized = true →
    (site.tallies (.hls rendition) broadcast).live = false
  dash : ∀ broadcast, ∀ server ∈ site.dash.get broadcast, (site.tallies .dash broadcast).finalized = true →
    (site.tallies .dash broadcast).live = true → server.video.has = false

-- A flag is up exactly if there was a finalize, for nothing takes it down.
structure Sound (site : Site) : Prop where
  flags : ∀ surface broadcast, (site.flag surface broadcast).getD false = (site.tallies surface broadcast).finalized
  plain : ∀ rendition broadcast, ∀ server ∈ site.hls.get rendition broadcast, Plain server.builder.manifest

theorem new_sound (hls : PlaylistBuilderConfig) (dash : DashConfig) : (new hls dash).Sound where
  flags surface broadcast := by
    cases surface <;> simp [flag, new, MultiHlsServer.new, MultiHlsServer.get, MultiDashServer.new, MultiDashServer.get,
      Tally.new]
  plain rendition broadcast server found := by simp [new, MultiHlsServer.new, MultiHlsServer.get] at found

theorem note_finalized (site : Site) (reached : Surface → String → Prop)
    [∀ surface broadcast, Decidable (reached surface broadcast)] (change : Tally → Tally)
    (keeps : ∀ tally, (change tally).finalized = tally.finalized) (surface : Surface) (broadcast : String) :
    (site.note reached change surface broadcast).finalized = (site.tallies surface broadcast).finalized := by
  rw [note]
  split
  · exact keeps _
  · rfl

theorem note_ended (site : Site) (reached : Surface → String → Prop)
    [∀ surface broadcast, Decidable (reached surface broadcast)] (surface : Surface) (broadcast : String)
    (flags : (site.flag surface broadcast).getD false = (site.tallies surface broadcast).finalized) :
    (site.note reached Tally.ended surface broadcast).finalized =
      (if reached surface broadcast then (site.flag surface broadcast).map fun _ => true
        else site.flag surface broadcast).getD false := by
  rw [note]
  by_cases here : reached surface broadcast
  · simp only [here, true_and, if_true]
    cases found : site.flag surface broadcast with
    | none => simp [← flags, found]
    | some ended => simp [Tally.ended]
  · simp only [here, false_and, if_false, flags]

theorem ensured_flag (before after : Option HlsServer) (ensured : Ensured before after) :
    (after.map fun server => server.builder.manifest.ended).getD false =
      (before.map fun server => server.builder.manifest.ended).getD false := by
  rcases ensured with rfl | ⟨rfl, config, rfl⟩ <;> rfl

theorem ensured_plain (before after : Option HlsServer) (ensured : Ensured before after)
    (plain : ∀ server ∈ before, Plain server.builder.manifest) : ∀ server ∈ after, Plain server.builder.manifest := by
  rcases ensured with rfl | ⟨_, config, rfl⟩
  · exact plain
  · rintro server ⟨⟩
    exact HlsServer.new_plain config

theorem ensure_sound (site : Site) (hls : MultiHlsServer) (sound : site.Sound)
    (ensured : ∀ rendition broadcast, Ensured (site.hls.get rendition broadcast) (hls.get rendition broadcast)) :
    Sound { site with hls := hls } where
  flags surface broadcast := by
    rw [← sound.flags surface broadcast]
    cases surface with
    | hls rendition => exact ensured_flag _ _ (ensured rendition broadcast)
    | dash => rfl
  plain rendition broadcast := ensured_plain _ _ (ensured rendition broadcast) (sound.plain rendition broadcast)

theorem update_hls_flag (site : Site) (rendition : Rendition) (broadcast : String) (change : HlsServer → HlsServer)
    (keeps : ∀ server, (change server).builder.manifest.ended = server.builder.manifest.ended)
    (tallies : Surface → String → Tally) (surface : Surface) (name : String) :
    flag ⟨site.hls.update rendition broadcast change, site.dash, tallies⟩ surface name = site.flag surface name := by
  cases surface with
  | dash => rfl
  | hls place =>
      simp only [flag, MultiHlsServer.get_update]
      split
      · rename_i here
        rw [here.1, here.2, Option.map_map]
        exact Option.map_congr fun server _ => keeps server
      · rfl

theorem update_hls_sound (site : Site) (rendition : Rendition) (broadcast : String) (change : HlsServer → HlsServer)
    (note : Tally → Tally) (sound : site.Sound) (tallied : ∀ tally, (note tally).finalized = tally.finalized)
    (keeps : ∀ server, (change server).builder.manifest.ended = server.builder.manifest.ended)
    (plain : ∀ server, Plain server.builder.manifest → Plain (change server).builder.manifest) :
    Sound ⟨site.hls.update rendition broadcast change, site.dash,
      site.note (fun surface name => surface = .hls rendition ∧ name = broadcast) note⟩ where
  flags surface name := by
    rw [update_hls_flag site rendition broadcast change keeps, note_finalized _ _ _ tallied]
    exact sound.flags surface name
  plain place name server found := by
    replace found : (site.hls.update rendition broadcast change).get place name = some server := found
    rw [MultiHlsServer.get_update] at found
    split at found
    · obtain ⟨old, here, rfl⟩ := Option.map_eq_some_iff.mp found
      exact plain old (sound.plain rendition broadcast old here)
    · exact sound.plain place name server found

theorem finalize_hls_sound (site : Site) (broadcast : String) (sound : site.Sound) :
    Sound ⟨site.hls.finalizeBroadcast broadcast, site.dash,
      site.note (fun surface name => surface ≠ .dash ∧ name = broadcast) Tally.ended⟩ where
  flags surface name := by
    rw [note_ended site _ surface name (sound.flags surface name)]
    congr 1
    cases surface with
    | dash => simp [flag]
    | hls place =>
        simp only [flag, MultiHlsServer.get_finalize, ne_eq, reduceCtorEq, not_false_eq_true, true_and]
        split
        · rw [Option.map_map, Option.map_map]
          rfl
        · rfl
  plain place name server found := by
    replace found : (site.hls.finalizeBroadcast broadcast).get place name = some server := found
    rw [MultiHlsServer.get_finalize] at found
    split at found
    · obtain ⟨old, here, rfl⟩ := Option.map_eq_some_iff.mp found
      exact old.builder.finalize_plain (sound.plain place name old here)
    · exact sound.plain place name server found

theorem update_dash_sound (site : Site) (broadcast : String) (change : DashServer → DashServer) (note : Tally → Tally)
    (sound : site.Sound) (tallied : ∀ tally, (note tally).finalized = tally.finalized)
    (keeps : ∀ server, (change server).finalized = server.finalized) :
    Sound ⟨site.hls, site.dash.update broadcast change,
      site.note (fun surface name => surface = .dash ∧ name = broadcast) note⟩ where
  flags surface name := by
    rw [note_finalized _ _ _ tallied, ← sound.flags surface name]
    cases surface with
    | hls place => rfl
    | dash =>
        simp only [flag, MultiDashServer.get_update]
        split
        · rename_i here
          rw [here, Option.map_map]
          exact congrArg (Option.getD · false) (Option.map_congr fun server _ => keeps server)
        · rfl
  plain := sound.plain

theorem finalize_dash_sound (site : Site) (broadcast : String) (sound : site.Sound) :
    Sound ⟨site.hls, site.dash.finalizeBroadcast broadcast,
      site.note (fun surface name => surface = .dash ∧ name = broadcast) Tally.ended⟩ where
  flags surface name := by
    rw [note_ended site _ surface name (sound.flags surface name)]
    congr 1
    cases surface with
    | hls place => simp [flag]
    | dash =>
        simp only [flag, MultiDashServer.finalizeBroadcast, MultiDashServer.get_update, true_and]
        split
        · rename_i here
          rw [here, Option.map_map, Option.map_map]
          rfl
        · rfl
  plain := sound.plain

theorem ensure_dash_sound (site : Site) (broadcast : String) (sound : site.Sound) :
    Sound { site with dash := site.dash.ensure broadcast } where
  flags surface name := by
    rw [← sound.flags surface name]
    cases surface with
    | hls place => rfl
    | dash =>
        simp only [flag, MultiDashServer.get_ensure]
        split
        · rename_i here
          rw [here]
          cases site.dash.get broadcast <;> rfl
        · rfl
  plain := sound.plain

theorem push_dash_init_finalized (codecs : CodecStrings) (bytes : Bytes) (now : Nat) (rendition : Rendition)
    (server : DashServer) : (pushDashInit codecs bytes now rendition server).finalized = server.finalized := by
  cases rendition <;> exact server.ensure_started_finalized now

theorem push_dash_segment_finalized (seq : Nat) (bytes : Bytes) (now : Nat) (rendition : Rendition)
    (server : DashServer) : (pushDashSegment seq bytes now rendition server).finalized = server.finalized := by
  cases rendition <;> exact server.ensure_started_finalized now

theorem step_sound (codecs : CodecStrings) (site : Site) (op : SiteOp) (sound : site.Sound) :
    (site.step codecs op).Sound := by
  cases op with
  | ensureVideo broadcast now =>
      exact ensure_sound site _ sound fun rendition name => site.hls.ensure_video_get broadcast name now rendition
  | ensureAudio broadcast timescale now audioNow =>
      exact ensure_sound site _ sound fun rendition name =>
        site.hls.ensure_audio_get broadcast name timescale now audioNow rendition
  | pushInit rendition broadcast bytes =>
      refine update_hls_sound site rendition broadcast _ _ sound (fun _ => rfl) (fun server => ?_) fun server plain => ?_
      · rw [server.push_init_manifest]
      · rwa [server.push_init_manifest]
  | pushChunkBytes rendition broadcast chunk body =>
      exact update_hls_sound site rendition broadcast _ _ sound (fun _ => rfl)
        (fun server => server.push_chunk_ended chunk body) fun server plain => server.push_chunk_plain chunk body plain
  | finalizeHls broadcast => exact finalize_hls_sound site broadcast sound
  | ensureDash broadcast => exact ensure_dash_sound site broadcast sound
  | pushDashInit rendition broadcast bytes now =>
      exact update_dash_sound site broadcast _ _ sound (fun _ => rfl)
        (push_dash_init_finalized codecs bytes now rendition)
  | pushDashSegment rendition broadcast seq bytes now =>
      exact update_dash_sound site broadcast _ _ sound (fun _ => rfl)
        (push_dash_segment_finalized seq bytes now rendition)
  | finalizeDash broadcast => exact finalize_dash_sound site broadcast sound

theorem live_stays_open_iff (site : Site) (sound : site.Sound) : site.LiveStaysOpen ↔ site.NothingRevived := by
  constructor
  · intro opened
    constructor
    · intro rendition broadcast finalized
      have flags := sound.flags (.hls rendition) broadcast
      rw [finalized, flag] at flags
      cases found : site.hls.get rendition broadcast with
      | none =>
          rw [found] at flags
          cases flags
      | some server =>
          rw [found] at flags
          by_contra live
          refine opened.hls rendition broadcast server found (eq_true_of_ne_false live) ?_
          exact (Hls.render_carries_endlist_iff _ (sound.plain rendition broadcast server found)).mpr flags
    · intro broadcast server found finalized live
      have flags := sound.flags .dash broadcast
      rw [finalized, flag, Option.mem_def.mp found] at flags
      by_contra video
      have dynamic := (server.render_manifest_dynamic_iff 0).mp (opened.dash broadcast server found live 0)
        (eq_true_of_ne_false video)
      exact absurd (flags.symm.trans dynamic) (by decide)
  · intro revived
    constructor
    · intro rendition broadcast server found live carries
      have ended := (Hls.render_carries_endlist_iff _ (sound.plain rendition broadcast server found)).mp carries
      have flags := sound.flags (.hls rendition) broadcast
      rw [flag, Option.mem_def.mp found, Option.map_some, Option.getD_some, ended] at flags
      have dead := revived.hls rendition broadcast flags.symm
      rw [live] at dead
      cases dead
    · intro broadcast server found live now
      rw [server.render_manifest_dynamic_iff]
      intro video
      by_contra finalized
      have flags := sound.flags .dash broadcast
      rw [flag, Option.mem_def.mp found, Option.map_some, Option.getD_some, eq_true_of_ne_false finalized] at flags
      have silent := revived.dash broadcast server found flags.symm live
      rw [video] at silent
      cases silent

theorem run_sound (codecs : CodecStrings) (hls : PlaylistBuilderConfig) (dash : DashConfig) (ops : List SiteOp) :
    (Machine.run (step codecs) (new hls dash) ops).Sound :=
  Machine.invariant_of_run (step_sound codecs) _ ops (new_sound hls dash)

end Site

-- However sessions come and go, a live one is never shown as ended exactly if no
-- server has one after it was finalized.
theorem republish_stays_live_iff (codecs : CodecStrings) (hls : PlaylistBuilderConfig) (dash : DashConfig)
    (ops : List SiteOp) :
    (∀ seen, seen <+: ops → (Machine.run (Site.step codecs) (.new hls dash) seen).LiveStaysOpen) ↔
      ∀ seen, seen <+: ops → (Machine.run (Site.step codecs) (.new hls dash) seen).NothingRevived :=
  forall₂_congr fun seen _ => Site.live_stays_open_iff _ (Site.run_sound codecs hls dash seen)

def session (now : Nat) (chunk : Cmaf.CmafChunk) : List SiteOp :=
  [.ensureVideo "live/cam" now, .pushInit .video "live/cam" [1], .pushChunkBytes .video "live/cam" chunk [2]]

-- The publisher is back with a later chunk, and the playlist still ends.
def comeback : List SiteOp :=
  session 1000 ⟨"0.mp4", [2], 0, 3000, .segment⟩ ++ [.finalizeHls "live/cam"] ++
    session 2000 ⟨"0.mp4", [2], 3000, 3000, .segment⟩

theorem comeback_shown_as_ended :
    ¬ ∀ (codecs : CodecStrings) (hls : PlaylistBuilderConfig) (dash : DashConfig) (ops : List SiteOp),
      (Machine.run (Site.step codecs) (.new hls dash) ops).LiveStaysOpen := by
  intro stays
  let codecs : CodecStrings := ⟨fun _ => none, fun _ => none⟩
  have revived := ((Site.live_stays_open_iff _ (Site.run_sound codecs .default .default comeback)).mp
    (stays codecs .default .default comeback)).hls .video "live/cam"
  revert revived
  decide

end Lvqr.Egress
