import Lvqr.Ingest.MediaState
import Lvqr.Lib.Timeline

set_option autoImplicit false

-- What a media state has published on one track, and what each call adds to it.
namespace Lvqr.Ingest

open Cmaf (Mp4Atom)
open Codec
open Timeline (stampRun)

def Publication.stamp (broadcast track : String) : Publication → Option (Nat × Nat)
  | .init .. => none
  | .fragment name label _ _ sent => if name = broadcast ∧ label = track then some (sent.dts, sent.duration) else none

-- The start and the length of every fragment on the track, in order.
def stamps (broadcast track : String) (published : List Publication) : List (Nat × Nat) :=
  published.filterMap (Publication.stamp broadcast track)

def VIDEO_TRACK : String := "0.mp4"

def AUDIO_TRACK : String := "1.mp4"

theorem stamped_duration_steady (gap : Nat) (positive : 0 < gap) (small : gap < 2 ^ 32) :
    Timeline.Steady (stampedDuration gap) gap where
  first _ := rfl
  next previous := by
    rw [stampedDuration, if_pos (Nat.lt_add_of_pos_right positive), Nat.add_sub_cancel_left, Nat.mod_eq_of_lt small]

theorem length_prefixed_eq_nil (nals : List Bytes) : lengthPrefixed nals = [] ↔ nals = [] := by
  cases nals with
  | nil => simp [lengthPrefixed]
  | cons nal nals => simp [lengthPrefixed, BigEndian.bytes]

def VideoFormat.hasPicture (format : VideoFormat) (nalus : List Bytes) : Bool :=
  nalus.any fun nal => !nal.isEmpty && !format.skips nal

theorem prefixed_is_empty (format : VideoFormat) (nalus : List Bytes) :
    (nalsToLengthPrefixed nalus format).isEmpty = !format.hasPicture nalus := by
  rw [Bool.eq_iff_iff, List.isEmpty_iff, nalsToLengthPrefixed, length_prefixed_eq_nil, List.filter_eq_nil_iff]
  simp [VideoFormat.hasPicture]

namespace MediaState

def storeAll (format : VideoFormat) (state : MediaState) (nalus : List Bytes) : MediaState :=
  nalus.foldl (storeParameterSet format) state

-- Whether an init segment is out or can be built when the NAL units are stored.
def pictureReady (mp4 : Mp4Atom) (format : VideoFormat) (state : MediaState) (nalus : List Bytes) : Bool :=
  state.videoInitEmitted || ((state.storeAll format nalus).videoInit mp4 format).isSome

-- Whether the NAL units of one call end up in a fragment.
def sendsPicture (mp4 : Mp4Atom) (format : VideoFormat) (state : MediaState) (nalus : List Bytes) : Bool :=
  state.pictureReady mp4 format nalus && format.hasPicture nalus

-- `video` and `audio` are the starts of the fragments that a call adds.
structure Adds (broadcast : String) (state next : MediaState) (video audio : List Nat) : Prop where
  video_stamps : stamps broadcast VIDEO_TRACK next.published =
    stamps broadcast VIDEO_TRACK state.published ++ stampRun (stampedDuration 3000) state.prevVideoDts video
  video_previous : next.prevVideoDts = video.getLast?.or state.prevVideoDts
  audio_stamps : stamps broadcast AUDIO_TRACK next.published =
    stamps broadcast AUDIO_TRACK state.published ++ stampRun (stampedDuration 1024) state.prevAudioDts audio
  audio_previous : next.prevAudioDts = audio.getLast?.or state.prevAudioDts

namespace Adds

variable {broadcast : String} {state middle next : MediaState} {video audio moreVideo moreAudio : List Nat}

theorem refl (broadcast : String) (state : MediaState) : Adds broadcast state state [] [] where
  video_stamps := by simp [stampRun]
  video_previous := rfl
  audio_stamps := by simp [stampRun]
  audio_previous := rfl

theorem trans (first : Adds broadcast state middle video audio) (second : Adds broadcast middle next moreVideo moreAudio) :
    Adds broadcast state next (video ++ moreVideo) (audio ++ moreAudio) where
  video_stamps := by
    rw [second.video_stamps, first.video_stamps, first.video_previous, List.append_assoc,
      ← Timeline.stamp_run_append]
  video_previous := by
    rw [second.video_previous, first.video_previous, List.getLast?_append, Option.or_assoc]
  audio_stamps := by
    rw [second.audio_stamps, first.audio_stamps, first.audio_previous, List.append_assoc,
      ← Timeline.stamp_run_append]
  audio_previous := by
    rw [second.audio_previous, first.audio_previous, List.getLast?_append, Option.or_assoc]

-- A call that publishes no fragment and leaves the stamping alone.
theorem silent (announced : List Publication) (published : next.published = state.published ++ announced)
    (quiet : ∀ publication ∈ announced, publication.emitted = none) (video : next.prevVideoDts = state.prevVideoDts)
    (audio : next.prevAudioDts = state.prevAudioDts) : Adds broadcast state next [] [] := by
  have unstamped (track : String) : stamps broadcast track announced = [] := by
    rw [stamps, List.filterMap_eq_nil_iff]
    intro publication member
    cases publication with
    | init => rfl
    | fragment => cases quiet _ member
  constructor
  · rw [published, stamps, List.filterMap_append, ← stamps, ← stamps, unstamped, stampRun]
  · exact video
  · rw [published, stamps, List.filterMap_append, ← stamps, ← stamps, unstamped, stampRun]
  · exact audio

end Adds

theorem store_all_eq (format : VideoFormat) (state : MediaState) (nalus : List Bytes) :
    ∃ sps pps vps, state.storeAll format nalus = { state with sps := sps, pps := pps, vps := vps } := by
  induction nalus generalizing state with
  | nil => exact ⟨state.sps, state.pps, state.vps, rfl⟩
  | cons nal nalus ih =>
      obtain ⟨sps, pps, vps, stored⟩ :
          ∃ sps pps vps, storeParameterSet format state nal = { state with sps := sps, pps := pps, vps := vps } := by
        unfold storeParameterSet
        cases format <;> (repeat' split) <;> exact ⟨_, _, _, rfl⟩
      obtain ⟨sps, pps, vps, rest⟩ := ih (storeParameterSet format state nal)
      refine ⟨sps, pps, vps, ?_⟩
      rw [storeAll, List.foldl_cons, ← storeAll, rest, stored]

-- A property of the state that what happens to video leaves alone.
structure VideoKept (mp4 : Mp4Atom) (broadcast : String) (Inv : MediaState → Prop) : Prop where
  stores : ∀ (state : MediaState) (sps pps vps : Option Bytes), Inv state →
    Inv { state with sps := sps, pps := pps, vps := vps }
  announces : ∀ (state : MediaState) (format : VideoFormat) (segment : Cmaf.InitSegment), Inv state →
    state.videoInit mp4 format = some segment →
    Inv { state.publish (.init broadcast VIDEO_TRACK format.codec 90000 segment) with videoInitEmitted := true }
  emits : ∀ (state : MediaState) (codec : String) (dts pts : Nat) (keyframe : Bool) (payload : Bytes), Inv state →
    Inv (state.emitVideoFragment broadcast codec dts pts keyframe payload)

theorem process_nalus_keeps {mp4 : Mp4Atom} {broadcast : String} {Inv : MediaState → Prop}
    (kept : VideoKept mp4 broadcast Inv) (format : VideoFormat) (state : MediaState) (nalus : List Bytes)
    (dts pts : Nat) (keyframe : Bool) (held : Inv state) :
    Inv (state.processNalus mp4 format broadcast nalus dts pts keyframe) := by
  obtain ⟨sps, pps, vps, stored⟩ := state.store_all_eq format nalus
  have stores : Inv (state.storeAll format nalus) := by
    rw [stored]
    exact kept.stores state sps pps vps held
  rw [processNalus, ← storeAll]
  dsimp only
  cases ensured : (state.storeAll format nalus).ensureVideoInit mp4 format broadcast with
  | none => exact stores
  | some ready =>
      have announced : Inv ready := by
        rw [ensureVideoInit] at ensured
        split at ensured
        · obtain rfl := Option.some.inj ensured
          exact stores
        · obtain ⟨segment, built, rfl⟩ := Option.map_eq_some_iff.mp ensured
          exact kept.announces _ format segment stores built
      dsimp only
      split
      · exact announced
      · exact kept.emits ready format.codec dts pts keyframe _ announced

theorem store_all_adds (broadcast : String) (format : VideoFormat) (state : MediaState) (nalus : List Bytes) :
    Adds broadcast state (state.storeAll format nalus) [] [] := by
  obtain ⟨sps, pps, vps, stored⟩ := state.store_all_eq format nalus
  rw [stored]
  exact Adds.silent [] (List.append_nil _).symm (by simp) rfl rfl

theorem ensure_video_init_adds (mp4 : Mp4Atom) (format : VideoFormat) (broadcast : String) (state ready : MediaState)
    (ensured : state.ensureVideoInit mp4 format broadcast = some ready) : Adds broadcast state ready [] [] := by
  rw [ensureVideoInit] at ensured
  split at ensured
  · obtain rfl := Option.some.inj ensured
    exact Adds.refl broadcast state
  · obtain ⟨segment, _, rfl⟩ := Option.map_eq_some_iff.mp ensured
    exact Adds.silent [_] rfl (by simp [Publication.emitted]) rfl rfl

theorem emit_video_adds (state : MediaState) (broadcast codec : String) (dts pts : Nat) (keyframe : Bool)
    (payload : Bytes) :
    Adds broadcast state (state.emitVideoFragment broadcast codec dts pts keyframe payload) [dts] [] where
  video_stamps := by simp [emitVideoFragment, publish, stamps, Publication.stamp, VIDEO_TRACK, stampRun]
  video_previous := rfl
  audio_stamps := by simp [emitVideoFragment, publish, stamps, Publication.stamp, AUDIO_TRACK, stampRun]
  audio_previous := rfl

theorem process_nalus_adds (mp4 : Mp4Atom) (format : VideoFormat) (broadcast : String) (state : MediaState)
    (nalus : List Bytes) (dts pts : Nat) (keyframe : Bool) :
    Adds broadcast state (state.processNalus mp4 format broadcast nalus dts pts keyframe)
      (List.replicate (state.sendsPicture mp4 format nalus).toNat dts) [] := by
  have stored := state.store_all_adds broadcast format nalus
  obtain ⟨sps, pps, vps, kept⟩ := state.store_all_eq format nalus
  have emitted : (state.storeAll format nalus).videoInitEmitted = state.videoInitEmitted := by rw [kept]
  rw [processNalus, ← storeAll, sendsPicture, pictureReady]
  simp only [prefixed_is_empty]
  cases ensured : (state.storeAll format nalus).ensureVideoInit mp4 format broadcast with
  | none =>
      rw [ensureVideoInit, emitted] at ensured
      split at ensured
      · cases ensured
      · rename_i missing
        rw [Option.map_eq_none_iff.mp ensured, Bool.eq_false_of_not_eq_true missing]
        exact stored
  | some ready =>
      have available : (state.videoInitEmitted || ((state.storeAll format nalus).videoInit mp4 format).isSome) = true := by
        rw [ensureVideoInit, emitted] at ensured
        split at ensured
        · rename_i already
          rw [already, Bool.true_or]
        · obtain ⟨segment, built, _⟩ := Option.map_eq_some_iff.mp ensured
          rw [built, Option.isSome_some, Bool.or_true]
      have announced := stored.trans (ensure_video_init_adds mp4 format broadcast _ ready ensured)
      rw [available, Bool.true_and]
      cases picture : format.hasPicture nalus with
      | false => exact announced
      | true => exact announced.trans (ready.emit_video_adds broadcast format.codec dts pts keyframe _)

theorem announce_aac_adds (mp4 : Mp4Atom) (broadcast : String) (state ready : MediaState) (asc : Bytes) (timescale : Nat)
    (announced : state.announceAac mp4 broadcast asc timescale = some ready) : Adds broadcast state ready [] [] := by
  obtain ⟨segment, _, rfl⟩ := Option.map_eq_some_iff.mp announced
  exact Adds.silent [_] rfl (by simp [Publication.emitted]) rfl rfl

theorem emit_aac_adds (broadcast : String) (dts pts : Nat) (state : MediaState) (frame : Bytes) :
    Adds broadcast state (emitAacFrame broadcast dts pts state frame) [] [dts] where
  video_stamps := by simp [emitAacFrame, publish, stamps, Publication.stamp, VIDEO_TRACK, stampRun]
  video_previous := rfl
  audio_stamps := by simp [emitAacFrame, publish, stamps, Publication.stamp, AUDIO_TRACK, stampRun]
  audio_previous := rfl

theorem emit_all_aac_adds (broadcast : String) (dts pts : Nat) (state : MediaState) (frames : List Bytes) :
    Adds broadcast state (frames.foldl (emitAacFrame broadcast dts pts) state) [] (List.replicate frames.length dts) := by
  induction frames generalizing state with
  | nil => exact Adds.refl broadcast state
  | cons frame frames ih =>
      exact (emit_aac_adds broadcast dts pts state frame).trans (ih (emitAacFrame broadcast dts pts state frame))

end MediaState

end Lvqr.Ingest

-- The broadcast that everything a call publishes is under.
namespace Lvqr.Ingest

open Cmaf (Mp4Atom)

def Publication.broadcast : Publication → String
  | init broadcast .. => broadcast
  | fragment broadcast .. => broadcast

namespace MediaState

def PublishesUnder (broadcast : String) (state next : MediaState) : Prop :=
  ∃ added, next.published = state.published ++ added ∧ ∀ publication ∈ added, publication.broadcast = broadcast

namespace PublishesUnder

variable {broadcast : String} {state middle next : MediaState}

theorem silent (same : next.published = state.published) : PublishesUnder broadcast state next :=
  ⟨[], by rw [same, List.append_nil], by simp⟩

theorem refl (broadcast : String) (state : MediaState) : PublishesUnder broadcast state state := silent rfl

theorem single (publication : Publication) (named : publication.broadcast = broadcast)
    (published : next.published = state.published ++ [publication]) : PublishesUnder broadcast state next := by
  refine ⟨[publication], published, ?_⟩
  intro other member
  obtain rfl := List.mem_singleton.mp member
  exact named

theorem trans (first : PublishesUnder broadcast state middle) (second : PublishesUnder broadcast middle next) :
    PublishesUnder broadcast state next := by
  obtain ⟨added, published, named⟩ := first
  obtain ⟨more, publishedMore, namedMore⟩ := second
  refine ⟨added ++ more, by rw [publishedMore, published, List.append_assoc], ?_⟩
  intro publication member
  rcases List.mem_append.mp member with early | late
  · exact named publication early
  · exact namedMore publication late

-- What held of every publication before and of the name holds of every one after.
theorem all (Allowed : String → Prop) (under : PublishesUnder broadcast state next) (allowed : Allowed broadcast)
    (before : ∀ publication ∈ state.published, Allowed publication.broadcast) :
    ∀ publication ∈ next.published, Allowed publication.broadcast := by
  obtain ⟨added, published, named⟩ := under
  intro publication member
  rw [published] at member
  rcases List.mem_append.mp member with early | late
  · exact before publication early
  · rw [named publication late]
    exact allowed

end PublishesUnder

theorem video_publishes_under (mp4 : Mp4Atom) (broadcast : String) (start : MediaState) :
    VideoKept mp4 broadcast (PublishesUnder broadcast start) where
  stores _ _ _ _ held := held.trans (.silent rfl)
  announces _ format segment held _ := held.trans (.single (.init broadcast VIDEO_TRACK format.codec 90000 segment) rfl rfl)
  emits _ _ _ _ _ _ held := held.trans (.single _ rfl rfl)

theorem process_nalus_publishes (mp4 : Mp4Atom) (format : VideoFormat) (broadcast : String) (state : MediaState)
    (nalus : List Bytes) (dts pts : Nat) (keyframe : Bool) :
    PublishesUnder broadcast state (state.processNalus mp4 format broadcast nalus dts pts keyframe) :=
  process_nalus_keeps (video_publishes_under mp4 broadcast state) format state nalus dts pts keyframe (.refl _ _)

theorem announce_aac_publishes (mp4 : Mp4Atom) (broadcast : String) (state ready : MediaState) (asc : Bytes)
    (timescale : Nat) (announced : state.announceAac mp4 broadcast asc timescale = some ready) :
    PublishesUnder broadcast state ready := by
  obtain ⟨segment, _, rfl⟩ := Option.map_eq_some_iff.mp announced
  exact .single (.init broadcast AUDIO_TRACK "mp4a.40.2" timescale segment) rfl rfl

theorem emit_all_aac_publishes (broadcast : String) (dts pts : Nat) (state : MediaState) (frames : List Bytes) :
    PublishesUnder broadcast state (frames.foldl (emitAacFrame broadcast dts pts) state) := by
  induction frames generalizing state with
  | nil => exact .refl broadcast state
  | cons frame frames ih =>
      have emitted : PublishesUnder broadcast state (emitAacFrame broadcast dts pts state frame) := .single _ rfl rfl
      exact emitted.trans (ih (emitAacFrame broadcast dts pts state frame))

end MediaState

end Lvqr.Ingest
