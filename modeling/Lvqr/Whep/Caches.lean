import Lvqr.Whip.Bridge
import Lvqr.Lib.Machine

set_option autoImplicit false

-- What a WHEP server remembers of each broadcast for the subscribers that join
-- late: the audio config, the video parameter sets and the keyframe of the GOP.
namespace Lvqr.Whep

open Whip (MediaCodec)

structure RawSample where
  trackId : Nat
  dts : Nat
  ctsOffset : Int
  duration : Nat
  payload : Bytes
  keyframe : Bool
deriving DecidableEq, Repr

structure AudioConfigSnapshot where
  track : String
  codec : MediaCodec
  configBytes : Bytes
deriving DecidableEq, Repr

structure VideoKeyframeSnapshot where
  track : String
  codec : MediaCodec
  sample : RawSample
deriving DecidableEq, Repr

structure VideoParamSetsSnapshot where
  track : String
  codec : MediaCodec
  paramSetsAnnexb : Bytes
deriving DecidableEq, Repr

-- A call of the publisher's, and of a session handle.
inductive MediaUpdate where
  | audioConfig (track : String) (codec : MediaCodec) (codecConfig : Bytes)
  | videoConfig (track : String) (codec : MediaCodec) (paramSetsAnnexb : Bytes)
  | rawSample (track : String) (codec : MediaCodec) (sample : RawSample) (ingestTimeMs : Nat)
deriving DecidableEq, Repr

inductive CacheKind where
  | audioConfig
  | videoParamSets
  | videoKeyframe
deriving DecidableEq, Repr

def isAnchor (codec : MediaCodec) (sample : RawSample) : Bool :=
  sample.keyframe && (codec == .h264 || codec == .h265)

namespace MediaUpdate

def kind : MediaUpdate → Option CacheKind
  | audioConfig _ _ _ => some .audioConfig
  | videoConfig _ _ _ => some .videoParamSets
  | rawSample _ codec sample _ => if isAnchor codec sample then some .videoKeyframe else none

-- A replay carries no ingest time.
def unstamped : MediaUpdate → MediaUpdate
  | audioConfig track codec codecConfig => audioConfig track codec codecConfig
  | videoConfig track codec paramSetsAnnexb => videoConfig track codec paramSetsAnnexb
  | rawSample track codec sample _ => rawSample track codec sample 0

end MediaUpdate

def AudioConfigSnapshot.replay (cfg : AudioConfigSnapshot) : MediaUpdate := .audioConfig cfg.track cfg.codec cfg.configBytes

def VideoParamSetsSnapshot.replay (ps : VideoParamSetsSnapshot) : MediaUpdate :=
  .videoConfig ps.track ps.codec ps.paramSetsAnnexb

def VideoKeyframeSnapshot.replay (kf : VideoKeyframeSnapshot) : MediaUpdate := .rawSample kf.track kf.codec kf.sample 0

structure WhepCaches where
  audioConfigs : Table String AudioConfigSnapshot
  videoKeyframes : Table String VideoKeyframeSnapshot
  videoParamSets : Table String VideoParamSetsSnapshot

-- What `handle_offer` reads for its new session.
structure Seeds where
  audioConfig : Option AudioConfigSnapshot
  videoParamSets : Option VideoParamSetsSnapshot
  videoKeyframe : Option VideoKeyframeSnapshot
deriving DecidableEq, Repr

namespace Seeds

def read (seeds : Seeds) : CacheKind → Option MediaUpdate
  | .audioConfig => seeds.audioConfig.map AudioConfigSnapshot.replay
  | .videoParamSets => seeds.videoParamSets.map VideoParamSetsSnapshot.replay
  | .videoKeyframe => seeds.videoKeyframe.map VideoKeyframeSnapshot.replay

-- The calls of the new handle, the last one first.
def replayed (seeds : Seeds) : List MediaUpdate :=
  (seeds.read .videoKeyframe).toList ++ (seeds.read .videoParamSets).toList ++ (seeds.read .audioConfig).toList

end Seeds

namespace WhepCaches

def empty : WhepCaches := ⟨∅, ∅, ∅⟩

def store (caches : WhepCaches) (broadcast : String) : MediaUpdate → WhepCaches
  | .audioConfig track codec codecConfig =>
      { caches with audioConfigs := caches.audioConfigs.insert broadcast ⟨track, codec, codecConfig⟩ }
  | .videoConfig track codec paramSetsAnnexb =>
      { caches with videoParamSets := caches.videoParamSets.insert broadcast ⟨track, codec, paramSetsAnnexb⟩ }
  | .rawSample track codec sample _ =>
      if isAnchor codec sample then
        { caches with videoKeyframes := caches.videoKeyframes.insert broadcast ⟨track, codec, sample⟩ }
      else caches

def cachedAudioConfig (caches : WhepCaches) (broadcast : String) : Option AudioConfigSnapshot :=
  caches.audioConfigs.lookup broadcast

def cachedVideoKeyframe (caches : WhepCaches) (broadcast : String) : Option VideoKeyframeSnapshot :=
  caches.videoKeyframes.lookup broadcast

def cachedVideoParamSets (caches : WhepCaches) (broadcast : String) : Option VideoParamSetsSnapshot :=
  caches.videoParamSets.lookup broadcast

-- All three reads at once.
def seeds (caches : WhepCaches) (broadcast : String) : Seeds :=
  ⟨caches.cachedAudioConfig broadcast, caches.cachedVideoParamSets broadcast, caches.cachedVideoKeyframe broadcast⟩

def cached (caches : WhepCaches) (broadcast : String) (kind : CacheKind) : Option MediaUpdate :=
  (caches.seeds broadcast).read kind

-- The gate of an offer, which the answerer's codecs decide.
def admits (supportsAudioCodec : MediaCodec → Bool) (caches : WhepCaches) (broadcast : String) : Bool :=
  match caches.cachedAudioConfig broadcast with
  | some snapshot => supportsAudioCodec snapshot.codec
  | none => true

end WhepCaches

-- The newest update of a kind in a history that has the newest first.
def newest (kind : CacheKind) (updates : List MediaUpdate) : Option MediaUpdate :=
  (updates.find? fun update => update.kind == some kind).map MediaUpdate.unstamped

@[simp] theorem newest_nil (kind : CacheKind) : newest kind [] = none := rfl

theorem newest_cons (kind : CacheKind) (update : MediaUpdate) (updates : List MediaUpdate) :
    newest kind (update :: updates) = if update.kind = some kind then some update.unstamped else newest kind updates := by
  rw [newest, List.find?_cons]
  by_cases own : update.kind = some kind
  · rw [if_pos own, own]
    simp
  · rw [if_neg own, beq_eq_false_iff_ne.mpr own]
    rfl

theorem newest_append (kind : CacheKind) (updates more : List MediaUpdate) :
    newest kind (updates ++ more) = (newest kind updates).or (newest kind more) := by
  induction updates with
  | nil => rfl
  | cons update updates ih =>
      rw [List.cons_append, newest_cons, newest_cons, ih]
      split <;> rfl

@[simp] theorem cached_audio_config (caches : WhepCaches) (broadcast : String) :
    caches.cached broadcast .audioConfig = (caches.audioConfigs.lookup broadcast).map AudioConfigSnapshot.replay := rfl

@[simp] theorem cached_video_param_sets (caches : WhepCaches) (broadcast : String) :
    caches.cached broadcast .videoParamSets =
      (caches.videoParamSets.lookup broadcast).map VideoParamSetsSnapshot.replay := rfl

@[simp] theorem cached_video_keyframe (caches : WhepCaches) (broadcast : String) :
    caches.cached broadcast .videoKeyframe = (caches.videoKeyframes.lookup broadcast).map VideoKeyframeSnapshot.replay := rfl

theorem cached_store (caches : WhepCaches) (broadcast other : String) (update : MediaUpdate) (kind : CacheKind) :
    (caches.store broadcast update).cached other kind =
      if other = broadcast ∧ update.kind = some kind then some update.unstamped else caches.cached other kind := by
  cases update with
  | audioConfig track codec codecConfig =>
      cases kind <;> by_cases same : other = broadcast <;>
        simp [WhepCaches.store, MediaUpdate.kind, MediaUpdate.unstamped, AudioConfigSnapshot.replay,
          same]
  | videoConfig track codec paramSetsAnnexb =>
      cases kind <;> by_cases same : other = broadcast <;>
        simp [WhepCaches.store, MediaUpdate.kind, MediaUpdate.unstamped, VideoParamSetsSnapshot.replay,
          same]
  | rawSample track codec sample ingestTimeMs =>
      by_cases anchor : isAnchor codec sample = true
      · cases kind <;> by_cases same : other = broadcast <;>
          simp [WhepCaches.store, MediaUpdate.kind, MediaUpdate.unstamped, VideoKeyframeSnapshot.replay,
            same, anchor]
      · simp [WhepCaches.store, MediaUpdate.kind, anchor]

instance CacheKind.decidableForall (holds : CacheKind → Prop) [DecidablePred holds] : Decidable (∀ kind, holds kind) :=
  have each : (holds .audioConfig ∧ holds .videoParamSets ∧ holds .videoKeyframe) ↔ ∀ kind, holds kind := by
    constructor
    · rintro ⟨audioConfig, videoParamSets, videoKeyframe⟩ kind
      cases kind <;> assumption
    · intro all
      exact ⟨all _, all _, all _⟩
  decidable_of_iff _ each

-- Only keyframes are remembered as keyframes.
def Seeds.Anchored (seeds : Seeds) : Prop :=
  ∀ kf : VideoKeyframeSnapshot, seeds.videoKeyframe = some kf → isAnchor kf.codec kf.sample = true

def WhepCaches.Anchored (caches : WhepCaches) : Prop := ∀ broadcast : String, (caches.seeds broadcast).Anchored

theorem empty_anchored : WhepCaches.empty.Anchored := by
  intro broadcast kf found
  cases found

theorem store_anchored (caches : WhepCaches) (broadcast : String) (update : MediaUpdate) (anchored : caches.Anchored) :
    (caches.store broadcast update).Anchored := by
  cases update with
  | audioConfig track codec codecConfig => exact anchored
  | videoConfig track codec paramSetsAnnexb => exact anchored
  | rawSample track codec sample ingestTimeMs =>
      rw [WhepCaches.store]
      split
      · rename_i anchor
        intro other kf found
        simp only [WhepCaches.seeds, WhepCaches.cachedVideoKeyframe, Table.lookup_insert_eq] at found
        split at found
        · rw [← Option.some.inj found]
          exact anchor
        · exact anchored other kf found
      · exact anchored

theorem read_anchored (seeds : Seeds) (anchored : seeds.Anchored) (kind : CacheKind) (update : MediaUpdate)
    (read : seeds.read kind = some update) : update.kind = some kind ∧ update.unstamped = update := by
  cases kind with
  | audioConfig =>
      obtain ⟨cfg, _, rfl⟩ := Option.map_eq_some_iff.mp read
      exact ⟨rfl, rfl⟩
  | videoParamSets =>
      obtain ⟨ps, _, rfl⟩ := Option.map_eq_some_iff.mp read
      exact ⟨rfl, rfl⟩
  | videoKeyframe =>
      obtain ⟨kf, found, rfl⟩ := Option.map_eq_some_iff.mp read
      exact ⟨if_pos (anchored kf found), rfl⟩

-- A handle that was called with the seeds has of each kind what was read.
theorem newest_replayed (seeds : Seeds) (anchored : seeds.Anchored) (kind : CacheKind) :
    newest kind seeds.replayed = seeds.read kind := by
  have single (own : CacheKind) : newest kind (seeds.read own).toList = if own = kind then seeds.read kind else none := by
    cases found : seeds.read own with
    | none =>
        split
        · rename_i same
          rw [← same, found]
          rfl
        · rfl
    | some update =>
        obtain ⟨ownKind, plain⟩ := read_anchored seeds anchored own update found
        rw [Option.toList_some, newest_cons, ownKind, plain]
        split
        · rename_i same
          rw [if_pos (Option.some.inj same), ← Option.some.inj same, found]
        · rename_i other
          rw [if_neg fun same => other (congrArg some same)]
          rfl
  rw [Seeds.replayed, newest_append, newest_append, single, single, single]
  cases kind <;> simp

end Lvqr.Whep

-- Publisher sessions that follow each other under one name, and what an offer
-- finds of them.
namespace Lvqr.Whep

-- `current` is what the most recent session has sent, `earlier` what the sessions
-- before it have, the last update first.
structure Feed where
  caches : WhepCaches
  current : List MediaUpdate
  earlier : List MediaUpdate

inductive FeedOp where
  | publish
  | update (update : MediaUpdate)
  | offer
deriving DecidableEq, Repr

namespace Feed

def start : Feed := ⟨.empty, [], []⟩

def step (broadcast : String) (feed : Feed) : FeedOp → Feed
  | .publish => { feed with current := [], earlier := feed.current ++ feed.earlier }
  | .update update =>
      { feed with caches := feed.caches.store broadcast update, current := update :: feed.current }
  | .offer => feed

-- The config that the gate goes by, and what the new handle is called with, are
-- the last that the most recent session has sent.
structure OfferedCurrent (broadcast : String) (feed : Feed) : Prop where
  gate : (feed.caches.cachedAudioConfig broadcast).map AudioConfigSnapshot.replay = newest .audioConfig feed.current
  seeded : ∀ kind : CacheKind, (feed.caches.seeds broadcast).read kind = newest kind feed.current

def OffersCurrent (broadcast : String) (feed : Feed) : FeedOp → Prop
  | .publish => True
  | .update _ => True
  | .offer => feed.OfferedCurrent broadcast

-- An offer comes after the most recent session has sent what an earlier one had.
def Renewed (feed : Feed) : FeedOp → Prop
  | .publish => True
  | .update _ => True
  | .offer => ∀ kind : CacheKind, (∃ update ∈ feed.current, update.kind = some kind) ∨
      ∀ update ∈ feed.earlier, update.kind ≠ some kind

instance (feed : Feed) : DecidablePred feed.Renewed
  | .publish => inferInstanceAs (Decidable True)
  | .update _ => inferInstanceAs (Decidable True)
  | .offer => inferInstanceAs (Decidable (∀ kind : CacheKind, (∃ update ∈ feed.current, update.kind = some kind) ∨
      ∀ update ∈ feed.earlier, update.kind ≠ some kind))

-- A cache holds the last update of its kind that any session has sent.
def Remembers (broadcast : String) (feed : Feed) : Prop :=
  ∀ kind : CacheKind, feed.caches.cached broadcast kind = newest kind (feed.current ++ feed.earlier)

theorem start_remembers (broadcast : String) : start.Remembers broadcast := by
  intro kind
  cases kind <;> rfl

theorem step_remembers (broadcast : String) (feed : Feed) (op : FeedOp) (remembers : feed.Remembers broadcast) :
    (feed.step broadcast op).Remembers broadcast := by
  cases op with
  | publish => exact remembers
  | update update =>
      intro kind
      rw [step, cached_store, List.cons_append, newest_cons, remembers kind]
      by_cases own : update.kind = some kind
      · rw [if_pos ⟨rfl, own⟩, if_pos own]
      · rw [if_neg own, if_neg fun both => own both.2]
  | offer => exact remembers

theorem newest_none (kind : CacheKind) (updates : List MediaUpdate) :
    newest kind updates = none ↔ ∀ update ∈ updates, update.kind ≠ some kind := by
  rw [newest, Option.map_eq_none_iff, List.find?_eq_none]
  exact forall₂_congr fun update _ => by rw [beq_iff_eq]

theorem current_iff (feed : Feed) (kind : CacheKind) :
    newest kind (feed.current ++ feed.earlier) = newest kind feed.current ↔
      (∃ update ∈ feed.current, update.kind = some kind) ∨ ∀ update ∈ feed.earlier, update.kind ≠ some kind := by
  have sent : newest kind feed.current ≠ none ↔ ∃ update ∈ feed.current, update.kind = some kind := by
    rw [ne_eq, newest_none]
    simp only [ne_eq, not_forall, not_not, exists_prop]
  rw [newest_append, ← sent, ← newest_none]
  cases newest kind feed.current <;> simp

theorem offered_current_iff (broadcast : String) (feed : Feed) (op : FeedOp) (remembers : feed.Remembers broadcast) :
    feed.OffersCurrent broadcast op ↔ feed.Renewed op := by
  cases op with
  | publish => exact Iff.rfl
  | update update => exact Iff.rfl
  | offer =>
      have each (kind : CacheKind) : (feed.caches.seeds broadcast).read kind = newest kind feed.current ↔
          (∃ update ∈ feed.current, update.kind = some kind) ∨ ∀ update ∈ feed.earlier, update.kind ≠ some kind := by
        rw [← current_iff, ← remembers kind]
        exact Iff.rfl
      constructor
      · intro offered kind
        exact (each kind).mp (offered.seeded kind)
      · intro renewed
        exact ⟨(each .audioConfig).mpr (renewed .audioConfig), fun kind => (each kind).mpr (renewed kind)⟩

end Feed

theorem offers_current_iff (broadcast : String) (ops : List FeedOp) :
    Machine.AllSteps (Feed.OffersCurrent broadcast) (Feed.step broadcast) .start ops ↔
      Machine.AllSteps Feed.Renewed (Feed.step broadcast) .start ops :=
  Machine.all_steps_iff (Feed.offered_current_iff broadcast)
    (fun feed op remembers _ => Feed.step_remembers broadcast feed op remembers) _ ops (Feed.start_remembers broadcast)

-- A publisher of AAC ends, and one without audio follows.
def videoAfterAudio : List FeedOp :=
  [.update (.audioConfig "1.mp4" .aac [0x12, 0x10]), .publish, .update (.videoConfig "0.mp4" .h264 [0, 0, 0, 1]), .offer]

theorem stale_config_offered :
    ¬ Machine.AllSteps (Feed.OffersCurrent "live/demo") (Feed.step "live/demo") .start videoAfterAudio := by
  rintro ⟨_, _, _, offered, _⟩
  exact absurd offered.gate (by decide)

end Lvqr.Whep
