import Lvqr.Lib.Machine
import Lvqr.Rtmp.Bridge
import Lvqr.Lib.WrappingClock

set_option autoImplicit false

namespace Lvqr.Rtmp

abbrev SessionId := Nat

-- The callbacks of many RTMP sessions on one bridge. None of them tells the
-- bridge which session it comes from; only the record of publishers knows.
inductive SessionOp where
  | publish (session : SessionId) (stream : String) (allowed : Bool)
  | unpublish (session : SessionId) (stream : String)
  | video (session : SessionId) (stream : String) (tag : FlvVideoTag) (timestamp : Nat)
  | audio (session : SessionId) (stream : String) (tag : FlvAudioTag) (timestamp : Nat)

structure Publishers where
  bridge : RtmpMoqBridge
  publishing : List (SessionId × String)

namespace Publishers

def new : Publishers := ⟨.new, []⟩

def apply (publishers : Publishers) : SessionOp → Publishers
  | .publish session stream allowed =>
      { bridge := publishers.bridge.onPublish stream allowed
        publishing := if allowed then (session, stream) :: publishers.publishing else publishers.publishing }
  | .unpublish session stream =>
      { bridge := publishers.bridge.onUnpublish stream
        publishing := publishers.publishing.filter (· != (session, stream)) }
  | .video _ stream tag timestamp =>
      { publishers with bridge := publishers.bridge.onVideo stream tag timestamp }
  | .audio _ stream tag timestamp =>
      { publishers with bridge := publishers.bridge.onAudio stream tag timestamp }

-- While another session publishes under the name, an unpublish leaves the stream
-- state and the registry entries that session feeds alone and announces no end.
def RespectsOthers (publishers : Publishers) : SessionOp → Prop
  | .unpublish session stream => ∀ other, other ≠ session → (other, stream) ∈ publishers.publishing →
      let after := publishers.bridge.onUnpublish stream
      after.streams.lookup stream = publishers.bridge.streams.lookup stream ∧
        (∀ track, after.registry.lookup (stream, track) = publishers.bridge.registry.lookup (stream, track)) ∧
        after.events = publishers.bridge.events
  | _ => True

def NoOverlap (publishers : Publishers) : SessionOp → Prop
  | .unpublish session stream => ∀ other, (other, stream) ∈ publishers.publishing → other = session
  | _ => True

-- Whoever publishes has a stream state to publish through.
def Served (publishers : Publishers) : Prop :=
  ∀ session stream, (session, stream) ∈ publishers.publishing → stream ∈ publishers.bridge.streams

theorem served_keeps_streams (publishers : Publishers) (bridge : RtmpMoqBridge) (served : publishers.Served)
    (kept : ∀ stream, stream ∈ publishers.bridge.streams → stream ∈ bridge.streams) :
    { publishers with bridge := bridge }.Served :=
  fun session stream publishes => kept stream (served session stream publishes)

theorem video_keeps_streams (bridge : RtmpMoqBridge) (stream : String) (tag : FlvVideoTag) (timestamp : Nat)
    (other : String) (present : other ∈ bridge.streams) : other ∈ (bridge.onVideo stream tag timestamp).streams := by
  rw [RtmpMoqBridge.onVideo]
  split
  · exact present
  · split
    · exact (AList.mem_insert _).mpr (.inr present)
    · split
      · exact present
      · exact (AList.mem_insert _).mpr (.inr present)
    · exact present
    · exact present

theorem audio_keeps_streams (bridge : RtmpMoqBridge) (stream : String) (tag : FlvAudioTag) (timestamp : Nat)
    (other : String) (present : other ∈ bridge.streams) : other ∈ (bridge.onAudio stream tag timestamp).streams := by
  rw [RtmpMoqBridge.onAudio]
  split
  · exact present
  · split
    · exact (AList.mem_insert _).mpr (.inr present)
    · split
      · exact present
      · exact (AList.mem_insert _).mpr (.inr present)
    · exact present

theorem step_serves (publishers : Publishers) (op : SessionOp) (served : publishers.Served)
    (alone : publishers.NoOverlap op) : (publishers.apply op).Served := by
  cases op with
  | publish session stream allowed =>
      cases allowed with
      | false => exact served
      | true =>
          intro other name publishes
          rcases List.mem_cons.mp publishes with fresh | before
          · rw [(Prod.mk.inj fresh).2]
            exact (AList.mem_insert _).mpr (.inl rfl)
          · exact (AList.mem_insert _).mpr (.inr (served other name before))
  | unpublish session stream =>
      intro other name publishes
      obtain ⟨before, differs⟩ := List.mem_filter.mp publishes
      have present := served other name before
      have elsewhere : name ≠ stream := by
        intro same
        subst same
        have isSession := alone other before
        simp [isSession] at differs
      show name ∈ (publishers.bridge.onUnpublish stream).streams
      rw [RtmpMoqBridge.onUnpublish]
      split
      · exact present
      · exact AList.mem_erase.mpr ⟨elsewhere, present⟩
  | video session stream tag timestamp =>
      exact served_keeps_streams publishers _ served (video_keeps_streams publishers.bridge stream tag timestamp)
  | audio session stream tag timestamp =>
      exact served_keeps_streams publishers _ served (audio_keeps_streams publishers.bridge stream tag timestamp)

theorem unpublish_respects_iff (publishers : Publishers) (op : SessionOp) (served : publishers.Served) :
    publishers.RespectsOthers op ↔ publishers.NoOverlap op := by
  cases op with
  | unpublish session stream =>
      constructor
      · intro respects other publishes
        by_contra different
        obtain ⟨kept, _, _⟩ := respects other different publishes
        obtain ⟨state, present⟩ := Table.lookup_of_mem (served other stream publishes)
        simp [RtmpMoqBridge.onUnpublish, present, AList.lookup_erase] at kept
      · intro alone other different publishes
        exact absurd (alone other publishes) different
  | publish session stream allowed => exact Iff.rfl
  | video session stream tag timestamp => exact Iff.rfl
  | audio session stream tag timestamp => exact Iff.rfl

end Publishers

open Publishers

-- An unpublish is harmless to the other sessions in exactly the runs in which it
-- never comes while another session publishes under the same name.
theorem unpublish_respects_sessions_iff (ops : List SessionOp) :
    Machine.AllSteps RespectsOthers apply .new ops ↔ Machine.AllSteps NoOverlap apply .new ops :=
  Machine.all_steps_iff unpublish_respects_iff step_serves .new ops (by simp [Served, Publishers.new])

-- Session 2 reconnects before the unpublish of session 1 has arrived.
def reconnectOverlap : List SessionOp :=
  [.publish 1 "live/cam" true, .publish 2 "live/cam" true, .unpublish 1 "live/cam"]

theorem late_unpublish_stops_reconnected_session :
    ¬ ∀ ops : List SessionOp, Machine.AllSteps RespectsOthers apply .new ops := by
  intro always
  have respects := (always reconnectOverlap).2.2.1 2 (by decide) (by decide)
  exact absurd respects.2.2 (by decide)

end Lvqr.Rtmp

-- The two tracks the RTMP bridge fills for one stream name, among the callbacks of
-- all sessions.
namespace Lvqr.Rtmp

open Timeline (Clocked Reading)

def starts (stream track : String) (published : List (String × Media.Fragment)) : List Nat :=
  published.filterMap fun (name, fragment) =>
    if name = stream ∧ fragment.trackId = track then some fragment.dts else none

def RTMP_CLOCK : Nat := 2 ^ 32

def videoTime (stream : String) : SessionOp → Option Nat
  | .video _ name (.nalu ..) timestamp => if name = stream then some timestamp else none
  | _ => none

def audioTime (stream : String) : SessionOp → Option Nat
  | .audio _ name (.rawAac _) timestamp => if name = stream then some timestamp else none
  | _ => none

def videoReady (stream : String) (publishers : Publishers) : Bool :=
  ((publishers.bridge.streams.lookup stream).bind ActiveStream.videoInit).isSome

def sampleRate (stream : String) (publishers : Publishers) : Option Nat :=
  ((publishers.bridge.streams.lookup stream).bind ActiveStream.audioConfig).map Prod.fst

def videoSends (stream : String) (publishers : Publishers) (op : SessionOp) : Nat :=
  if (videoTime stream op).isSome && videoReady stream publishers then 1 else 0

def audioSends (stream : String) (publishers : Publishers) (op : SessionOp) : Nat :=
  if (audioTime stream op).isSome && (sampleRate stream publishers).isSome then 1 else 0

-- Milliseconds in ticks of 90 kHz.
def videoReading : Reading RTMP_CLOCK where
  read _ timestamp := timestamp * 90
  mono _ later := Nat.mul_le_mul_right 90 later

-- Milliseconds in samples; the setting is the sample rate.
def audioReading : Reading RTMP_CLOCK where
  read sampleRate timestamp := timestamp * sampleRate / 1000
  mono faster later := Nat.div_le_div_right (Nat.mul_le_mul later faster)

theorem on_publish_starts (bridge : RtmpMoqBridge) (stream : String) (allowed : Bool) :
    (bridge.onPublish stream allowed).published = bridge.published := by
  rw [RtmpMoqBridge.onPublish]
  split <;> rfl

theorem on_unpublish_starts (bridge : RtmpMoqBridge) (stream : String) :
    (bridge.onUnpublish stream).published = bridge.published := by
  rw [RtmpMoqBridge.onUnpublish]
  split <;> rfl

theorem starts_snoc (stream track : String) (published : List (String × Media.Fragment)) (name : String)
    (fragment : Media.Fragment) : starts stream track (published ++ [(name, fragment)]) =
      starts stream track published ++ if name = stream ∧ fragment.trackId = track then [fragment.dts] else [] := by
  rw [starts, List.filterMap_append, ← starts]
  by_cases here : name = stream ∧ fragment.trackId = track <;> simp [here]

theorem on_video_starts (bridge : RtmpMoqBridge) (stream track name : String) (tag : FlvVideoTag) (timestamp : Nat) :
    starts stream track (bridge.onVideo name tag timestamp).published =
      starts stream track bridge.published ++
        match bridge.streams.lookup name, tag with
        | some state, .nalu .. =>
            if state.videoInit.isSome ∧ name = stream ∧ "0.mp4" = track then [timestamp * 90] else []
        | _, _ => [] := by
  rw [RtmpMoqBridge.onVideo]
  cases bridge.streams.lookup name with
  | none => exact (List.append_nil _).symm
  | some state =>
      cases tag with
      | sequenceHeader init => exact (List.append_nil _).symm
      | endOfSequence => exact (List.append_nil _).symm
      | unknown => exact (List.append_nil _).symm
      | nalu keyframe cts data =>
          dsimp only
          cases ready : state.videoInit with
          | none => simp
          | some init => simp [RtmpMoqBridge.publishFragment, starts_snoc, RtmpMoqBridge.videoFragment]

theorem on_audio_starts (bridge : RtmpMoqBridge) (stream track name : String) (tag : FlvAudioTag) (timestamp : Nat) :
    starts stream track (bridge.onAudio name tag timestamp).published =
      starts stream track bridge.published ++
        match (bridge.streams.lookup name).bind ActiveStream.audioConfig, tag with
        | some (sampleRate, _), .rawAac _ =>
            if name = stream ∧ "1.mp4" = track then [timestamp * sampleRate / 1000] else []
        | _, _ => [] := by
  rw [RtmpMoqBridge.onAudio]
  cases bridge.streams.lookup name with
  | none => exact (List.append_nil _).symm
  | some state =>
      rw [Option.bind_some]
      cases tag with
      | sequenceHeader sampleRate init => cases state.audioConfig <;> exact (List.append_nil _).symm
      | unknown => cases state.audioConfig <;> exact (List.append_nil _).symm
      | rawAac data =>
          dsimp only
          cases state.audioConfig with
          | none => exact (List.append_nil _).symm
          | some config => simp [RtmpMoqBridge.publishFragment, starts_snoc, RtmpMoqBridge.audioFragment]

theorem video_starts_step (stream : String) (publishers : Publishers) (op : SessionOp) :
    starts stream "0.mp4" (publishers.apply op).bridge.published =
      starts stream "0.mp4" publishers.bridge.published ++
        List.replicate (videoSends stream publishers op) ((videoTime stream op).getD 0 * 90) := by
  cases op with
  | publish session name allowed => simp [Publishers.apply, on_publish_starts, videoSends, videoTime]
  | unpublish session name => simp [Publishers.apply, on_unpublish_starts, videoSends, videoTime]
  | audio session name tag timestamp =>
      simp only [Publishers.apply, on_audio_starts, videoSends, videoTime]
      cases tag <;> cases (publishers.bridge.streams.lookup name).bind ActiveStream.audioConfig <;> simp
  | video session name tag timestamp =>
      simp only [Publishers.apply, on_video_starts, videoSends, videoReady]
      cases tag with
      | nalu keyframe cts data =>
          by_cases here : name = stream
          · subst here
            simp only [videoTime]
            cases publishers.bridge.streams.lookup name with
            | none => simp
            | some state => cases ready : state.videoInit <;> simp [ready]
          · simp only [videoTime, if_neg here]
            cases publishers.bridge.streams.lookup name <;> simp [here]
      | sequenceHeader | endOfSequence | unknown =>
          simp only [videoTime]
          cases publishers.bridge.streams.lookup name <;> simp

theorem video_time_wire (stream : String) (publishers : Publishers) (op : SessionOp)
    (sends : 0 < videoSends stream publishers op) :
    ∃ shown ∈ videoTime stream op, (videoTime stream op).getD 0 * 90 = videoReading.read 0 shown := by
  cases shown : videoTime stream op with
  | none => simp [videoSends, shown] at sends
  | some timestamp => exact ⟨timestamp, rfl, rfl⟩

theorem audio_starts_step (stream : String) (publishers : Publishers) (op : SessionOp) :
    starts stream "1.mp4" (publishers.apply op).bridge.published =
      starts stream "1.mp4" publishers.bridge.published ++
        List.replicate (audioSends stream publishers op)
          ((audioTime stream op).getD 0 * (sampleRate stream publishers).getD 0 / 1000) := by
  cases op with
  | publish session name allowed => simp [Publishers.apply, on_publish_starts, audioSends, audioTime]
  | unpublish session name => simp [Publishers.apply, on_unpublish_starts, audioSends, audioTime]
  | video session name tag timestamp =>
      simp only [Publishers.apply, on_video_starts, audioSends, audioTime]
      cases tag <;> cases publishers.bridge.streams.lookup name <;> simp
  | audio session name tag timestamp =>
      simp only [Publishers.apply, on_audio_starts, audioSends, sampleRate]
      cases tag with
      | rawAac data =>
          by_cases here : name = stream
          · subst here
            simp only [audioTime]
            cases (publishers.bridge.streams.lookup name).bind ActiveStream.audioConfig <;> simp
          · simp only [audioTime, if_neg here]
            cases (publishers.bridge.streams.lookup name).bind ActiveStream.audioConfig <;> simp [here]
      | sequenceHeader | unknown =>
          simp only [audioTime]
          cases (publishers.bridge.streams.lookup name).bind ActiveStream.audioConfig <;> simp

theorem audio_time_wire (stream : String) (publishers : Publishers) (op : SessionOp)
    (sends : 0 < audioSends stream publishers op) :
    ∃ shown ∈ audioTime stream op, (audioTime stream op).getD 0 * (sampleRate stream publishers).getD 0 / 1000 =
      audioReading.read ((sampleRate stream publishers).getD 0) shown := by
  cases shown : audioTime stream op with
  | none => simp [audioSends, shown] at sends
  | some timestamp => exact ⟨timestamp, rfl, rfl⟩

def videoClock (stream : String) : Clocked Publishers SessionOp RTMP_CLOCK where
  step := Publishers.apply
  starts publishers := starts stream "0.mp4" publishers.bridge.published
  sends := videoSends stream
  time _ op := (videoTime stream op).getD 0 * 90
  starts_step := video_starts_step stream
  wire := videoTime stream
  reading := videoReading
  setting _ _ := 0
  time_wire := video_time_wire stream

def audioClock (stream : String) : Clocked Publishers SessionOp RTMP_CLOCK where
  step := Publishers.apply
  starts publishers := starts stream "1.mp4" publishers.bridge.published
  sends := audioSends stream
  time publishers op := (audioTime stream op).getD 0 * (sampleRate stream publishers).getD 0 / 1000
  starts_step := audio_starts_step stream
  wire := audioTime stream
  reading := audioReading
  setting publishers _ := (sampleRate stream publishers).getD 0
  time_wire := audio_time_wire stream

end Lvqr.Rtmp
