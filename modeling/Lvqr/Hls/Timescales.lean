import Lvqr.Hls.Broadcasts
import Lvqr.Hls.Drain
import Lvqr.Hls.Seconds

set_option autoImplicit false

-- The sessions of a broadcast one after another on the renditions of the first.
namespace Lvqr.Hls

open PlaylistBuilder

-- A drain of the bridge: its task but for the server, which the broadcast keeps.
structure RenditionDrain where
  rendition : Rendition
  broadcast : String
  timescale : Nat
  policy : Cmaf.CmafPolicy
  state : Cmaf.CmafPolicyState
  lastInit : Option Bytes

-- `ledgers` and `firstAudio`, the timescale of a name's first audio session, are ghost
-- state.
structure HlsBridge where
  multi : MultiHlsServer
  drains : List RenditionDrain
  ledgers : Rendition → String → Ledger Stamp
  firstAudio : String → Option Nat

-- Every publisher session has broadcasters of its own; `entryCreated` comes with the
-- timescale in the meta of one.
inductive HlsBridgeOp where
  | entryCreated (rendition : Rendition) (broadcast : String) (timescale segmentDurationMs partDurationMs now audioNow : Nat)
  | fragment (index : Nat) (arrival : Arrival)
  | pushDateRange (broadcast : String) (range : DateRange) (now : Nat)
  | finalizeBroadcast (broadcast : String)
deriving DecidableEq, Repr

namespace RenditionDrain

def task (drain : RenditionDrain) (server : HlsServer) : DrainTask :=
  ⟨drain.policy, drain.state, drain.lastInit, server⟩

def ledger (drain : RenditionDrain) (server : HlsServer) (arrival : Arrival) (ledger : Ledger Stamp) : Ledger Stamp :=
  let refreshed := (drain.task server).refreshInit arrival.currentInit
  let chunk := arrival.fragment.chunk (refreshed.kind arrival.fragment)
  if refreshed.server.builder.Accepts chunk then
    ledger.pushed refreshed.server.builder chunk ⟨chunk.duration, drain.timescale⟩
  else ledger

end RenditionDrain

namespace HlsBridge

def new (config : PlaylistBuilderConfig) : HlsBridge := ⟨.new config, [], fun _ _ => .empty, fun _ => none⟩

def entryCreated (bridge : HlsBridge) (rendition : Rendition) (broadcast : String)
    (timescale segmentDurationMs partDurationMs now audioNow : Nat) : HlsBridge :=
  let policy := Cmaf.CmafPolicy.withDurations timescale segmentDurationMs partDurationMs
  { bridge with
    multi :=
      match rendition with
      | .video => bridge.multi.ensureVideo broadcast now
      | .audio => bridge.multi.ensureAudio broadcast timescale now audioNow
    drains := bridge.drains ++ [⟨rendition, broadcast, timescale, policy, .new policy, none⟩]
    firstAudio := fun name =>
      if rendition = .audio ∧ name = broadcast then (bridge.firstAudio name).or (some timescale)
      else bridge.firstAudio name }

def drainFragment (bridge : HlsBridge) (index : Nat) (drain : RenditionDrain) (server : HlsServer) (arrival : Arrival) :
    HlsBridge :=
  let next := (drain.task server).drain arrival
  { bridge with
    multi := bridge.multi.update drain.rendition drain.broadcast fun _ => next.server
    drains := bridge.drains.set index { drain with state := next.state, lastInit := next.lastInit }
    ledgers := fun place name =>
      if name = drain.broadcast ∧ place = drain.rendition then
        drain.ledger server arrival (bridge.ledgers place name)
      else bridge.ledgers place name }

def step (bridge : HlsBridge) : HlsBridgeOp → HlsBridge
  | .entryCreated rendition broadcast timescale segmentDurationMs partDurationMs now audioNow =>
      bridge.entryCreated rendition broadcast timescale segmentDurationMs partDurationMs now audioNow
  | .fragment index arrival =>
      match bridge.drains[index]? with
      | none => bridge
      | some drain =>
          match bridge.multi.get drain.rendition drain.broadcast with
          | none => bridge
          | some server => bridge.drainFragment index drain server arrival
  | .pushDateRange broadcast range now =>
      { bridge with
        multi := (bridge.multi.ensureVideo broadcast now).update .video broadcast fun server => server.pushDateRange range }
  | .finalizeBroadcast broadcast =>
      { bridge with
        multi := bridge.multi.finalizeBroadcast broadcast
        ledgers := fun place name =>
          match bridge.multi.get place name with
          | some server =>
              if name = broadcast then (bridge.ledgers place name).closed server.builder else bridge.ledgers place name
          | none => bridge.ledgers place name }

def ListsTrueSeconds (bridge : HlsBridge) : Prop :=
  ∀ place name server, bridge.multi.get place name = some server →
    TrueSeconds server.builder (bridge.ledgers place name)

def createdWith (bridge : HlsBridge) : Rendition → String → Option Nat
  | .video, _ => some bridge.multi.config.timescale
  | .audio, name => bridge.firstAudio name

-- Whatever a playlist accepts comes from a broadcaster of the timescale the rendition
-- was created with.
def OfFirstTimescale (bridge : HlsBridge) : HlsBridgeOp → Prop
  | .fragment index arrival => ∀ drain server, bridge.drains[index]? = some drain →
      bridge.multi.get drain.rendition drain.broadcast = some server →
      0 < arrival.fragment.duration → (∀ last ∈ server.builder.lastDts, last ≤ arrival.fragment.dts) →
      bridge.createdWith drain.rendition drain.broadcast = some drain.timescale
  | _ => True

def Listed (timescale : Option Nat) (server : Option HlsServer) (ledger : Ledger Stamp) : Prop :=
  match server with
  | none => ledger = .empty
  | some server => timescale = some server.builder.manifest.timescale ∧ Timed server.builder ledger

def Own (server : Option HlsServer) (ledger : Ledger Stamp) : Prop :=
  ∀ present ∈ server, OwnTimescale present.builder ledger

structure Sound (bridge : HlsBridge) : Prop where
  listed : ∀ place name, Listed (bridge.createdWith place name) (bridge.multi.get place name) (bridge.ledgers place name)
  silent : ∀ name, bridge.multi.get .audio name = none → bridge.firstAudio name = none

def AllOwn (bridge : HlsBridge) : Prop :=
  ∀ place name, Own (bridge.multi.get place name) (bridge.ledgers place name)

theorem lists_true_iff (bridge : HlsBridge) (sound : bridge.Sound) : bridge.ListsTrueSeconds ↔ bridge.AllOwn := by
  refine forall₂_congr fun place name => forall₂_congr fun server found => ?_
  have listed := sound.listed place name
  rw [found] at listed
  exact true_seconds_iff server.builder (bridge.ledgers place name) listed.2

theorem new_sound (config : PlaylistBuilderConfig) : (new config).Sound where
  listed place name := by
    rw [show (new config).multi.get place name = none from rfl]
    rfl
  silent name _ := rfl

theorem new_own (config : PlaylistBuilderConfig) : (new config).AllOwn := fun _ _ _ found => by cases found

-- A server that was there is kept; one that is created has nothing listed.
theorem ensured_listed (timescale : Option Nat) (before : Option HlsServer) (ledger : Ledger Stamp)
    (config : PlaylistBuilderConfig) (listed : Listed timescale before ledger) (other : Option Nat)
    (kept : before.isSome → other = timescale) (created : before = none → other = some config.timescale) :
    Listed other (some (before.getD (.new config))) ledger := by
  cases before with
  | none =>
      refine ⟨created rfl, ?_⟩
      rw [show ledger = .empty from listed]
      exact new_timed config
  | some server => exact ⟨(kept rfl).trans listed.1, listed.2⟩

theorem ensured_own (before : Option HlsServer) (ledger : Ledger Stamp) (config : PlaylistBuilderConfig)
    (timescale : Option Nat) (listed : Listed timescale before ledger) (own : Own before ledger) :
    Own (some (before.getD (.new config))) ledger := by
  cases before with
  | none =>
      rintro server ⟨⟩
      rw [show ledger = .empty from listed]
      exact Hls.new_own config
  | some server => exact own

theorem ensure_video_sound (bridge : HlsBridge) (broadcast : String) (now : Nat) (sound : bridge.Sound) :
    Sound { bridge with multi := bridge.multi.ensureVideo broadcast now } where
  listed place name := by
    have listed := sound.listed place name
    have created : createdWith { bridge with multi := bridge.multi.ensureVideo broadcast now } place name =
        bridge.createdWith place name := by
      cases place with
      | video => exact congrArg (some ·.timescale) (bridge.multi.ensure_video_config broadcast now)
      | audio => rfl
    rw [created]
    show Listed _ ((bridge.multi.ensureVideo broadcast now).get place name) _
    rw [MultiHlsServer.ensure_video_eq]
    split
    · rename_i here
      obtain ⟨rfl, rfl⟩ := here
      exact ensured_listed _ _ _ _ listed _ (fun _ => rfl) (fun _ => rfl)
    · exact listed
  silent name gone := by
    replace gone : (bridge.multi.ensureVideo broadcast now).get .audio name = none := gone
    rw [MultiHlsServer.ensure_video_eq, if_neg (by simp)] at gone
    exact sound.silent name gone

theorem ensure_video_own (bridge : HlsBridge) (broadcast : String) (now : Nat) (sound : bridge.Sound)
    (own : bridge.AllOwn) : AllOwn { bridge with multi := bridge.multi.ensureVideo broadcast now } := by
  intro place name
  show Own ((bridge.multi.ensureVideo broadcast now).get place name) _
  rw [MultiHlsServer.ensure_video_eq]
  split
  · rename_i here
    obtain ⟨rfl, rfl⟩ := here
    exact ensured_own _ _ _ _ (sound.listed .video name) (own .video name)
  · exact own place name

theorem audio_created_sound (bridge : HlsBridge) (broadcast : String)
    (timescale segmentDurationMs partDurationMs now audioNow : Nat) (sound : bridge.Sound) :
    (bridge.entryCreated .audio broadcast timescale segmentDurationMs partDurationMs now audioNow).Sound where
  listed place name := by
    have listed := sound.listed place name
    show Listed _ ((bridge.multi.ensureAudio broadcast timescale now audioNow).get place name) (bridge.ledgers place name)
    rw [MultiHlsServer.ensure_audio_eq]
    by_cases here : name = broadcast
    · subst here
      rw [if_pos rfl]
      cases place with
      | video => exact ensured_listed _ _ _ _ listed _ (fun _ => rfl) (fun _ => rfl)
      | audio =>
          have first : createdWith (bridge.entryCreated .audio name timescale segmentDurationMs partDurationMs now audioNow)
              .audio name = (bridge.firstAudio name).or (some timescale) := if_pos ⟨rfl, rfl⟩
          rw [first]
          refine ensured_listed _ _ _ _ listed _ (fun present => ?_) (fun missing => ?_)
          · obtain ⟨server, found⟩ := Option.isSome_iff_exists.mp present
            rw [found] at listed
            show (bridge.createdWith .audio name).or (some timescale) = bridge.createdWith .audio name
            rw [listed.1]
            rfl
          · rw [sound.silent name missing]
            rfl
    · rw [if_neg here]
      have kept : createdWith (bridge.entryCreated .audio broadcast timescale segmentDurationMs partDurationMs now audioNow)
          place name = bridge.createdWith place name := by
        cases place with
        | video => rfl
        | audio => exact if_neg fun both => here both.2
      rw [kept]
      exact listed
  silent name gone := by
    replace gone : (bridge.multi.ensureAudio broadcast timescale now audioNow).get .audio name = none := gone
    rw [MultiHlsServer.ensure_audio_eq] at gone
    by_cases here : name = broadcast
    · rw [if_pos here] at gone
      cases gone
    · rw [if_neg here] at gone
      exact (if_neg fun both => here both.2).trans (sound.silent name gone)

theorem audio_created_own (bridge : HlsBridge) (broadcast : String)
    (timescale segmentDurationMs partDurationMs now audioNow : Nat) (sound : bridge.Sound) (own : bridge.AllOwn) :
    (bridge.entryCreated .audio broadcast timescale segmentDurationMs partDurationMs now audioNow).AllOwn := by
  intro place name
  show Own ((bridge.multi.ensureAudio broadcast timescale now audioNow).get place name) (bridge.ledgers place name)
  rw [MultiHlsServer.ensure_audio_eq]
  by_cases here : name = broadcast
  · subst here
    rw [if_pos rfl]
    cases place with
    | video => exact ensured_own _ _ _ _ (sound.listed .video name) (own .video name)
    | audio => exact ensured_own _ _ _ _ (sound.listed .audio name) (own .audio name)
  · rw [if_neg here]
    exact own place name

theorem refresh_listing (task : DrainTask) (currentInit : Option Bytes) :
    SameListing task.server.builder (task.refreshInit currentInit).server.builder := by
  cases currentInit with
  | none => exact ⟨rfl, rfl, rfl, rfl, rfl⟩
  | some init =>
      simp only [DrainTask.refreshInit, HlsServer.pushInit]
      split
      · exact ⟨rfl, rfl, rfl, rfl, rfl⟩
      · simp only
        split <;> exact ⟨rfl, rfl, rfl, rfl, rfl⟩

-- One turn of a drain, where the playlist takes the fragment and where it does not.
theorem drained_cases (drain : RenditionDrain) (server : HlsServer) (arrival : Arrival) (ledger : Ledger Stamp) :
    ∃ builder chunk, SameListing server.builder builder ∧ chunk.duration = arrival.fragment.duration ∧
      if 0 < arrival.fragment.duration ∧ ∀ last ∈ server.builder.lastDts, last ≤ arrival.fragment.dts then
        SameListing (builder.accept chunk) ((drain.task server).drain arrival).server.builder ∧
          drain.ledger server arrival ledger = ledger.pushed builder chunk ⟨chunk.duration, drain.timescale⟩
      else
        SameListing builder ((drain.task server).drain arrival).server.builder ∧
          drain.ledger server arrival ledger = ledger := by
  let refreshed := (drain.task server).refreshInit arrival.currentInit
  let chunk := arrival.fragment.chunk (refreshed.kind arrival.fragment)
  have dts : refreshed.server.builder.lastDts = server.builder.lastDts :=
    (refresh_same (drain.task server) arrival.currentInit).2.2
  have accepts : refreshed.server.builder.Accepts chunk ↔
      0 < arrival.fragment.duration ∧ ∀ last ∈ server.builder.lastDts, last ≤ arrival.fragment.dts := by
    rw [← dts]
    exact Iff.rfl
  have pushed := HlsServer.push_chunk_builder refreshed.server chunk arrival.fragment.payload
  refine ⟨refreshed.server.builder, chunk, refresh_listing (drain.task server) arrival.currentInit, rfl, ?_⟩
  by_cases taken : refreshed.server.builder.Accepts chunk
  · rw [if_pos (accepts.mp taken)]
    rw [if_pos taken] at pushed
    refine ⟨?_, if_pos taken⟩
    show SameListing _ (refreshed.server.pushChunkBytes chunk arrival.fragment.payload).2.builder
    rw [pushed]
    exact ⟨rfl, rfl, rfl, rfl, rfl⟩
  · rw [if_neg (mt accepts.mpr taken)]
    rw [if_neg taken] at pushed
    refine ⟨?_, if_neg taken⟩
    show SameListing _ (refreshed.server.pushChunkBytes chunk arrival.fragment.payload).2.builder
    rw [pushed]
    exact ⟨rfl, rfl, rfl, rfl, rfl⟩

theorem drained_timed (drain : RenditionDrain) (server : HlsServer) (arrival : Arrival) (ledger : Ledger Stamp)
    (timed : Timed server.builder ledger) :
    let next := ((drain.task server).drain arrival).server.builder
    Timed next (drain.ledger server arrival ledger) ∧ next.manifest.timescale = server.builder.manifest.timescale := by
  obtain ⟨builder, chunk, refreshed, duration, turned⟩ := drained_cases drain server arrival ledger
  have before := same_timed _ _ ledger refreshed timed
  split at turned
  · rename_i taken
    rw [turned.2]
    refine ⟨same_timed _ _ _ turned.1 (accept_timed builder ledger chunk drain.timescale (duration ▸ taken.1) before), ?_⟩
    exact turned.1.timescale.trans ((accept_timescale builder chunk).trans refreshed.timescale)
  · rw [turned.2]
    exact ⟨same_timed _ _ _ turned.1 before, turned.1.timescale.trans refreshed.timescale⟩

theorem drained_own_iff (drain : RenditionDrain) (server : HlsServer) (arrival : Arrival) (ledger : Ledger Stamp)
    (timed : Timed server.builder ledger) (own : OwnTimescale server.builder ledger) :
    OwnTimescale ((drain.task server).drain arrival).server.builder (drain.ledger server arrival ledger) ↔
      (0 < arrival.fragment.duration → (∀ last ∈ server.builder.lastDts, last ≤ arrival.fragment.dts) →
        drain.timescale = server.builder.manifest.timescale) := by
  obtain ⟨builder, chunk, refreshed, duration, turned⟩ := drained_cases drain server arrival ledger
  have beforeTimed := same_timed _ _ ledger refreshed timed
  have before := (same_own _ _ ledger refreshed).mpr own
  split at turned
  · rename_i taken
    rw [turned.2, same_own _ _ _ turned.1, accept_own_iff builder ledger chunk drain.timescale beforeTimed before,
      refreshed.timescale]
    exact ⟨fun agrees _ _ => agrees, fun agrees => agrees taken.1 taken.2⟩
  · rename_i refused
    rw [turned.2, same_own _ _ _ turned.1]
    exact iff_of_true before fun positive monotone => absurd ⟨positive, monotone⟩ refused

theorem drain_get (bridge : HlsBridge) (index : Nat) (drain : RenditionDrain) (server : HlsServer) (arrival : Arrival)
    (found : bridge.multi.get drain.rendition drain.broadcast = some server) (place : Rendition) (name : String) :
    (bridge.drainFragment index drain server arrival).multi.get place name =
      if name = drain.broadcast ∧ place = drain.rendition then some ((drain.task server).drain arrival).server
      else bridge.multi.get place name := by
  rw [drainFragment, MultiHlsServer.get_update, found]
  rfl

theorem drain_created_with (bridge : HlsBridge) (index : Nat) (drain : RenditionDrain) (server : HlsServer)
    (arrival : Arrival) (place : Rendition) (name : String) :
    (bridge.drainFragment index drain server arrival).createdWith place name = bridge.createdWith place name := by
  cases place <;> rfl

theorem drain_sound (bridge : HlsBridge) (index : Nat) (drain : RenditionDrain) (server : HlsServer) (arrival : Arrival)
    (found : bridge.multi.get drain.rendition drain.broadcast = some server) (sound : bridge.Sound) :
    (bridge.drainFragment index drain server arrival).Sound where
  listed place name := by
    have listed := sound.listed place name
    rw [drain_get bridge index drain server arrival found, drain_created_with]
    by_cases here : name = drain.broadcast ∧ place = drain.rendition
    · obtain ⟨rfl, rfl⟩ := here
      rw [found] at listed
      obtain ⟨timed, timescale⟩ := drained_timed drain server arrival _ listed.2
      rw [if_pos ⟨rfl, rfl⟩]
      refine ⟨by rw [timescale]; exact listed.1, ?_⟩
      show Timed _ (ite _ _ _)
      rw [if_pos ⟨rfl, rfl⟩]
      exact timed
    · rw [if_neg here]
      show Listed _ _ (ite _ _ _)
      rw [if_neg here]
      exact listed
  silent name gone := by
    rw [drain_get bridge index drain server arrival found] at gone
    split at gone
    · cases gone
    · exact sound.silent name gone

theorem drain_own_iff (bridge : HlsBridge) (index : Nat) (drain : RenditionDrain) (server : HlsServer)
    (arrival : Arrival) (found : bridge.multi.get drain.rendition drain.broadcast = some server) (sound : bridge.Sound)
    (own : bridge.AllOwn) : (bridge.drainFragment index drain server arrival).AllOwn ↔
      (0 < arrival.fragment.duration → (∀ last ∈ server.builder.lastDts, last ≤ arrival.fragment.dts) →
        bridge.createdWith drain.rendition drain.broadcast = some drain.timescale) := by
  have listed := sound.listed drain.rendition drain.broadcast
  rw [found] at listed
  have exact := drained_own_iff drain server arrival _ listed.2 (own drain.rendition drain.broadcast server found)
  rw [listed.1, Option.some.injEq, eq_comm, ← exact]
  constructor
  · intro after
    have here := after drain.rendition drain.broadcast
    rw [drain_get bridge index drain server arrival found, if_pos ⟨rfl, rfl⟩] at here
    have last := here _ rfl
    rw [drainFragment] at last
    dsimp only at last
    rwa [if_pos ⟨rfl, rfl⟩] at last
  · intro after place name
    rw [drain_get bridge index drain server arrival found]
    show Own _ (ite _ _ _)
    by_cases here : name = drain.broadcast ∧ place = drain.rendition
    · rw [if_pos here, if_pos here]
      rintro present ⟨⟩
      obtain ⟨rfl, rfl⟩ := here
      exact after
    · rw [if_neg here, if_neg here]
      exact own place name

theorem push_date_range_same (builder : PlaylistBuilder) (range : DateRange) :
    SameListing builder (builder.pushDateRange range) := by
  rw [pushDateRange]
  split <;> exact ⟨rfl, rfl, rfl, rfl, rfl⟩

theorem date_range_get (multi : MultiHlsServer) (broadcast name : String) (range : DateRange) (place : Rendition)
    (after : HlsServer)
    (found : (multi.update .video broadcast fun server => server.pushDateRange range).get place name = some after) :
    ∃ before, multi.get place name = some before ∧ SameListing before.builder after.builder := by
  rw [MultiHlsServer.get_update] at found
  split at found
  · rename_i here
    obtain ⟨rfl, rfl⟩ := here
    obtain ⟨before, present, rfl⟩ := Option.map_eq_some_iff.mp found
    exact ⟨before, present, push_date_range_same before.builder range⟩
  · exact ⟨after, found, ⟨rfl, rfl, rfl, rfl, rfl⟩⟩

theorem date_range_gone (multi : MultiHlsServer) (broadcast name : String) (range : DateRange) (place : Rendition) :
    (multi.update .video broadcast fun server => server.pushDateRange range).get place name = none ↔
      multi.get place name = none := by
  rw [MultiHlsServer.get_update]
  split
  · rename_i here
    obtain ⟨rfl, rfl⟩ := here
    exact Option.map_eq_none_iff
  · exact Iff.rfl

theorem date_range_sound (bridge : HlsBridge) (broadcast : String) (range : DateRange) (sound : bridge.Sound) :
    Sound { bridge with multi := bridge.multi.update .video broadcast fun server => server.pushDateRange range } where
  listed place name := by
    have listed := sound.listed place name
    have created : createdWith
        { bridge with multi := bridge.multi.update .video broadcast fun server => server.pushDateRange range } place name =
        bridge.createdWith place name := by cases place <;> rfl
    rw [created]
    dsimp only
    cases found : (bridge.multi.update .video broadcast fun server => server.pushDateRange range).get place name with
    | none =>
        rw [(date_range_gone bridge.multi broadcast name range place).mp found] at listed
        exact listed
    | some after =>
        obtain ⟨before, present, same⟩ := date_range_get bridge.multi broadcast name range place after found
        rw [present] at listed
        exact ⟨by rw [same.timescale]; exact listed.1, same_timed _ _ _ same listed.2⟩
  silent name gone := sound.silent name ((date_range_gone bridge.multi broadcast name range .audio).mp gone)

theorem date_range_own (bridge : HlsBridge) (broadcast : String) (range : DateRange) (own : bridge.AllOwn) :
    AllOwn { bridge with multi := bridge.multi.update .video broadcast fun server => server.pushDateRange range } := by
  intro place name after found
  obtain ⟨before, present, same⟩ := date_range_get bridge.multi broadcast name range place after found
  exact (same_own _ _ _ same).mpr (own place name before present)

theorem server_finalize_same (server : HlsServer) : SameListing server.builder.finalize server.finalize.builder :=
  ⟨rfl, rfl, rfl, rfl, rfl⟩

theorem finalize_sound (bridge : HlsBridge) (broadcast : String) (sound : bridge.Sound) :
    (bridge.step (.finalizeBroadcast broadcast)).Sound where
  listed place name := by
    have listed := sound.listed place name
    have created : (bridge.step (.finalizeBroadcast broadcast)).createdWith place name = bridge.createdWith place name := by
      cases place <;> rfl
    rw [created]
    simp only [step, MultiHlsServer.get_finalize]
    cases found : bridge.multi.get place name with
    | none =>
        rw [found] at listed
        by_cases here : name = broadcast
        · rw [if_pos here]
          exact listed
        · rw [if_neg here]
          exact listed
    | some server =>
        rw [found] at listed
        by_cases here : name = broadcast
        · rw [if_pos here]
          dsimp only
          rw [if_pos here]
          have finalized := finalize_timed server.builder _ listed.2
          refine ⟨?_, same_timed _ _ _ (server_finalize_same server) finalized⟩
          rw [listed.1]
          exact congrArg some (close_timescale server.builder).symm
        · rw [if_neg here]
          dsimp only
          rw [if_neg here]
          exact listed
  silent name gone := by
    simp only [step, MultiHlsServer.get_finalize] at gone
    refine sound.silent name ?_
    split at gone
    · exact Option.map_eq_none_iff.mp gone
    · exact gone

theorem finalize_all_own (bridge : HlsBridge) (broadcast : String) (sound : bridge.Sound) (own : bridge.AllOwn) :
    (bridge.step (.finalizeBroadcast broadcast)).AllOwn := by
  intro place name after found
  have listed := sound.listed place name
  simp only [step, MultiHlsServer.get_finalize] at found ⊢
  cases present : bridge.multi.get place name with
  | none =>
      rw [present] at found
      split at found <;> cases found
  | some server =>
      rw [present] at found listed
      have before := own place name server present
      dsimp only
      by_cases here : name = broadcast
      · rw [if_pos here] at found ⊢
        obtain rfl := Option.some.inj found
        exact (same_own _ _ _ (server_finalize_same server)).mpr (finalize_own server.builder _ listed.2 before)
      · rw [if_neg here] at found ⊢
        obtain rfl := Option.some.inj found
        exact before

theorem video_created_sound (bridge : HlsBridge) (broadcast : String)
    (timescale segmentDurationMs partDurationMs now audioNow : Nat) (sound : bridge.Sound) :
    (bridge.entryCreated .video broadcast timescale segmentDurationMs partDurationMs now audioNow).Sound where
  listed place name := by
    have listed := (ensure_video_sound bridge broadcast now sound).listed place name
    cases place with
    | video => exact listed
    | audio =>
        have kept : createdWith (bridge.entryCreated .video broadcast timescale segmentDurationMs partDurationMs now audioNow)
            .audio name = bridge.firstAudio name := by simp [createdWith, entryCreated]
        rw [kept]
        exact listed
  silent name gone := by
    have kept : (bridge.entryCreated .video broadcast timescale segmentDurationMs partDurationMs now audioNow).firstAudio
        name = bridge.firstAudio name := by simp [entryCreated]
    exact kept.trans ((ensure_video_sound bridge broadcast now sound).silent name gone)

theorem step_sound (bridge : HlsBridge) (op : HlsBridgeOp) (sound : bridge.Sound) : (bridge.step op).Sound := by
  cases op with
  | entryCreated rendition broadcast timescale segmentDurationMs partDurationMs now audioNow =>
      cases rendition with
      | video => exact video_created_sound bridge broadcast _ _ _ now audioNow sound
      | audio => exact audio_created_sound bridge broadcast timescale _ _ now audioNow sound
  | fragment index arrival =>
      simp only [step]
      split
      · exact sound
      · split
        · exact sound
        · rename_i found
          exact drain_sound bridge index _ _ arrival found sound
  | pushDateRange broadcast range now =>
      exact date_range_sound _ broadcast range (ensure_video_sound bridge broadcast now sound)
  | finalizeBroadcast broadcast => exact finalize_sound bridge broadcast sound

theorem step_own_iff (bridge : HlsBridge) (op : HlsBridgeOp) (sound : bridge.Sound) (own : bridge.AllOwn) :
    (bridge.step op).AllOwn ↔ bridge.OfFirstTimescale op := by
  cases op with
  | entryCreated rendition broadcast timescale segmentDurationMs partDurationMs now audioNow =>
      refine iff_of_true ?_ trivial
      cases rendition with
      | video => exact ensure_video_own bridge broadcast now sound own
      | audio => exact audio_created_own bridge broadcast timescale segmentDurationMs partDurationMs now audioNow sound own
  | fragment index arrival =>
      simp only [step, OfFirstTimescale]
      cases present : bridge.drains[index]? with
      | none => exact iff_of_true own fun _ _ same => by cases same
      | some drain =>
          dsimp only
          cases found : bridge.multi.get drain.rendition drain.broadcast with
          | none =>
              refine iff_of_true own fun other server same there => ?_
              cases same
              rw [found] at there
              cases there
          | some server =>
              dsimp only
              rw [drain_own_iff bridge index drain server arrival found sound own]
              constructor
              · intro agrees other otherServer same there
                cases same
                rw [found] at there
                cases there
                exact agrees
              · intro agrees
                exact agrees drain server rfl found
  | pushDateRange broadcast range now =>
      exact iff_of_true (date_range_own _ broadcast range (ensure_video_own bridge broadcast now sound own)) trivial
  | finalizeBroadcast broadcast => exact iff_of_true (finalize_all_own bridge broadcast sound own) trivial

theorem step_true_iff (bridge : HlsBridge) (op : HlsBridgeOp) (sound : bridge.Sound) (true : bridge.ListsTrueSeconds) :
    (bridge.step op).ListsTrueSeconds ↔ bridge.OfFirstTimescale op := by
  rw [lists_true_iff _ (step_sound bridge op sound)]
  exact step_own_iff bridge op sound ((lists_true_iff bridge sound).mp true)

end HlsBridge

open HlsBridge

-- The playlists list the true seconds in exactly the runs in which whatever they accept
-- has the timescale that the rendition got from its first session.
theorem listed_seconds_true_iff (config : PlaylistBuilderConfig) (ops : List HlsBridgeOp) :
    (∀ seen, seen <+: ops → (Machine.run step (HlsBridge.new config) seen).ListsTrueSeconds) ↔
      Machine.AllSteps OfFirstTimescale step (HlsBridge.new config) ops :=
  Machine.invariant_iff_guarded_under step_sound step_true_iff (HlsBridge.new config) ops (new_sound config)
    ((lists_true_iff _ (new_sound config)).mpr (HlsBridge.new_own config))

-- A session of 44100 Hz audio, and another of 48000 Hz behind it.
def resampled : List HlsBridgeOp :=
  [.entryCreated .audio "live/cam" 44100 2000 200 0 0, .fragment 0 ⟨some [1], "1.mp4", 0, 1024, true, [2]⟩,
    .entryCreated .audio "live/cam" 48000 2000 200 0 0, .fragment 1 ⟨some [3], "1.mp4", 1024, 1024, true, [4]⟩]

theorem resampled_seconds_wrong :
    ¬ (Machine.run step (HlsBridge.new .default) resampled).ListsTrueSeconds := by
  intro true
  have parts := (true .audio "live/cam" _ rfl).parts
  revert parts
  decide +kernel

end Lvqr.Hls
