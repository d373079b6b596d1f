import Lvqr.Dash.Server
import Lvqr.Fragment.Broadcaster
import Lvqr.Lib.Machine

set_option autoImplicit false

-- The DASH bridge of one broadcast: a drain a track entry, all of them feeding the
-- broadcast's server.
namespace Lvqr.Dash

def VIDEO_TRACK : String := "0.mp4"

def AUDIO_TRACK : String := "1.mp4"

structure DashDrain where
  isVideo : Bool
  timescale : Nat
  lastInit : Option Bytes
  seq : Nat
deriving DecidableEq, Repr

-- A fragment with the number it was pushed under; `place` tells it from any other.
structure Push where
  isVideo : Bool
  seq : Nat
  timescale : Nat
  fragment : Media.Fragment
  place : Nat
deriving DecidableEq, Repr

-- `pushed` is the record of what was drained, the newest first.
structure DashBridge where
  server : DashServer
  drains : List DashDrain
  pushed : List Push

-- `fragment` is one turn of a drain loop; `init` is the init segment its refreshed
-- meta holds.
inductive DashBridgeOp where
  | entryCreated (track : String) (timescale : Nat)
  | fragment (drain : Nat) (fragment : Media.Fragment) (init : Option Bytes) (now : Nat)
deriving DecidableEq, Repr

namespace DashServer

def pushInit (codecs : CodecStrings) (server : DashServer) (isVideo : Bool) (bytes : Bytes) (now : Nat) : DashServer :=
  if isVideo then server.pushVideoInit codecs bytes now else server.pushAudioInit codecs bytes now

def pushSegment (server : DashServer) (isVideo : Bool) (seq : Nat) (bytes : Bytes) (now : Nat) : DashServer :=
  if isVideo then server.pushVideoSegment seq bytes now else server.pushAudioSegment seq bytes now

end DashServer

-- The init bytes to push on this turn: those that the last ones pushed are not.
def DashDrain.changedInit (drain : DashDrain) (init : Option Bytes) : Option Bytes :=
  match init with
  | some current => if drain.lastInit = some current then none else some current
  | none => none

-- A fresh init segment starts the numbers again.
def DashDrain.refresh (drain : DashDrain) (init : Option Bytes) : DashDrain :=
  match drain.changedInit init with
  | some current => { drain with lastInit := some current, seq := 0 }
  | none => drain

def DashDrain.number (drain : DashDrain) (init : Option Bytes) : Nat := (drain.refresh init).seq + 1

namespace DashBridge

def new (config : DashConfig) : DashBridge := ⟨.new config, [], []⟩

-- Tracks other than the two are not drained.
def entryCreated (bridge : DashBridge) (track : String) (timescale : Nat) : DashBridge :=
  if track = VIDEO_TRACK then { bridge with drains := bridge.drains ++ [⟨true, timescale, none, 0⟩] }
  else if track = AUDIO_TRACK then { bridge with drains := bridge.drains ++ [⟨false, timescale, none, 0⟩] }
  else bridge

def drainFragment (codecs : CodecStrings) (bridge : DashBridge) (index : Nat) (drain : DashDrain)
    (fragment : Media.Fragment) (init : Option Bytes) (now : Nat) : DashBridge :=
  let refreshed :=
    match drain.changedInit init with
    | some current => bridge.server.pushInit codecs drain.isVideo current now
    | none => bridge.server
  let seq := drain.number init
  { server := refreshed.pushSegment drain.isVideo seq fragment.payload now
    drains := bridge.drains.set index { drain.refresh init with seq := seq }
    pushed := ⟨drain.isVideo, seq, drain.timescale, fragment, bridge.pushed.length⟩ :: bridge.pushed }

def step (codecs : CodecStrings) (bridge : DashBridge) : DashBridgeOp → DashBridge
  | .entryCreated track timescale => bridge.entryCreated track timescale
  | .fragment index fragment init now =>
      match bridge.drains[index]? with
      | some drain => bridge.drainFragment codecs index drain fragment init now
      | none => bridge

end DashBridge

-- Segment numbers and the times the manifest gives them.

def Push.key (push : Push) : Bool × Nat := (push.isVideo, push.seq)

-- The entry last filed under a key, in a list that has the newest first.
def lastUnder (pushed : List Push) (isVideo : Bool) (seq : Nat) : Option Push :=
  pushed.find? fun push => push.key = (isVideo, seq)

namespace DashServer

def track (server : DashServer) (isVideo : Bool) : TrackState := if isVideo then server.video else server.audio

def template (server : DashServer) (isVideo : Bool) : SegmentTemplate :=
  if isVideo then server.videoSet.segmentTemplate else server.audioSet.segmentTemplate

@[simp] theorem ensure_started_track (server : DashServer) (now : Nat) (isVideo : Bool) :
    (server.ensureStarted now).track isVideo = server.track isVideo := by
  rw [ensureStarted]
  split <;> rfl

@[simp] theorem ensure_started_config (server : DashServer) (now : Nat) : (server.ensureStarted now).config = server.config := by
  rw [ensureStarted]
  split <;> rfl

theorem template_of_config (server server' : DashServer) (same : server'.config = server.config) (isVideo : Bool) :
    server'.template isVideo = server.template isVideo := by
  simp only [template, videoSet, audioSet, same]

theorem push_init_config (codecs : CodecStrings) (server : DashServer) (isVideo : Bool) (bytes : Bytes) (now : Nat) :
    (server.pushInit codecs isVideo bytes now).config = server.config := by
  cases isVideo <;> exact ensure_started_config server now

theorem push_segment_config (server : DashServer) (isVideo : Bool) (seq : Nat) (bytes : Bytes) (now : Nat) :
    (server.pushSegment isVideo seq bytes now).config = server.config := by
  cases isVideo <;> exact ensure_started_config server now

-- Old segments stay under their numbers when an init segment is replaced.
theorem push_init_segments (codecs : CodecStrings) (server : DashServer) (isVideo : Bool) (bytes : Bytes) (now : Nat)
    (track : Bool) : ((server.pushInit codecs isVideo bytes now).track track).segments = (server.track track).segments := by
  rw [← ensure_started_track server now track]
  cases isVideo <;> cases track <;> rfl

theorem push_segment_lookup (server : DashServer) (isVideo : Bool) (seq : Nat) (bytes : Bytes) (now : Nat)
    (track : Bool) (number : Nat) :
    ((server.pushSegment isVideo seq bytes now).track track).segments.lookup number =
      if (isVideo, seq) = (track, number) then some (Cmaf.prependCmafChunkStyp bytes)
      else (server.track track).segments.lookup number := by
  rw [← ensure_started_track server now track]
  by_cases sameTrack : isVideo = track
  · subst sameTrack
    have inserted : ((server.pushSegment isVideo seq bytes now).track isVideo).segments =
        ((server.ensureStarted now).track isVideo).segments.insert seq (Cmaf.prependCmafChunkStyp bytes) := by
      cases isVideo <;> rfl
    rw [inserted, Table.lookup_insert_eq]
    refine if_congr ⟨fun same => by rw [same], fun same => (congrArg Prod.snd same).symm⟩ rfl rfl
  · have untouched : (server.pushSegment isVideo seq bytes now).track track = (server.ensureStarted now).track track := by
      cases isVideo <;> cases track <;> first | rfl | exact absurd rfl sameTrack
    rw [untouched, if_neg fun same => sameTrack (congrArg Prod.fst same)]

end DashServer

-- The decode time of the fragment lies in the interval of the number, both counted in
-- the timescale of the template.
def Push.InInterval (push : Push) (template : SegmentTemplate) (number : Nat) : Prop :=
  (number - 1) * template.duration * push.timescale ≤ push.fragment.dts * template.timescale ∧
    push.fragment.dts * template.timescale < number * template.duration * push.timescale

namespace DashBridge

def Timed (bridge : DashBridge) (push : Push) (number : Nat) : Prop :=
  push.InInterval (bridge.server.template push.isVideo) number

-- What is served under a number is of its interval, and every drained fragment is
-- served under the number of its own.
structure OnTimeline (bridge : DashBridge) : Prop where
  served : ∀ isVideo number, (bridge.server.track isVideo).segments.lookup number =
    (lastUnder bridge.pushed isVideo number).map fun push => Cmaf.prependCmafChunkStyp push.fragment.payload
  media : ∀ isVideo number push, lastUnder bridge.pushed isVideo number = some push → bridge.Timed push number
  fragments : ∀ push ∈ bridge.pushed, ∃ number, bridge.Timed push number ∧
    lastUnder bridge.pushed push.isVideo number = some push

-- The number of the turn is that of the fragment's interval, and no earlier fragment
-- of the track has it.
def Paced (bridge : DashBridge) : DashBridgeOp → Prop
  | .entryCreated _ _ => True
  | .fragment index fragment init _ => ∀ drain, bridge.drains[index]? = some drain →
      bridge.Timed ⟨drain.isVideo, drain.number init, drain.timescale, fragment, bridge.pushed.length⟩ (drain.number init) ∧
        ∀ push ∈ bridge.pushed, push.isVideo = drain.isVideo → push.seq ≠ drain.number init

structure Filed (bridge : DashBridge) : Prop where
  served : ∀ isVideo number, (bridge.server.track isVideo).segments.lookup number =
    (lastUnder bridge.pushed isVideo number).map fun push => Cmaf.prependCmafChunkStyp push.fragment.payload
  places : ∀ push ∈ bridge.pushed, push.place < bridge.pushed.length
  distinct : bridge.pushed.Nodup

def Kept (bridge : DashBridge) : Prop :=
  (∀ push ∈ bridge.pushed, bridge.Timed push push.seq) ∧ (bridge.pushed.map Push.key).Nodup

theorem last_under_key (pushed : List Push) (isVideo : Bool) (seq : Nat) (push : Push)
    (last : lastUnder pushed isVideo seq = some push) : push ∈ pushed ∧ push.isVideo = isVideo ∧ push.seq = seq := by
  refine ⟨List.mem_of_find?_eq_some last, ?_⟩
  have key := List.find?_some last
  rw [decide_eq_true_eq] at key
  exact ⟨congrArg Prod.fst key, congrArg Prod.snd key⟩

-- Every entry is the last under its key just when no two have one key.
theorem keys_nodup_iff (pushed : List Push) (distinct : pushed.Nodup) :
    (pushed.map Push.key).Nodup ↔ ∀ push ∈ pushed, lastUnder pushed push.isVideo push.seq = some push := by
  induction pushed with
  | nil => simp
  | cons head pushed ih =>
      rw [List.nodup_cons] at distinct
      rw [List.map_cons, List.nodup_cons, ih distinct.2, List.mem_map]
      have apart : ∀ push ∈ pushed, (lastUnder (head :: pushed) push.isVideo push.seq = some push ↔
          head.key ≠ push.key ∧ lastUnder pushed push.isVideo push.seq = some push) := by
        intro push member
        rw [lastUnder, List.find?_cons]
        by_cases same : head.key = push.key
        · have isHead : decide (head.key = (push.isVideo, push.seq)) = true := decide_eq_true same
          rw [isHead]
          refine iff_of_false (fun found => ?_) fun both => both.1 same
          rw [Option.some.injEq] at found
          exact distinct.1 (found ▸ member)
        · have other : decide (head.key = (push.isVideo, push.seq)) = false := decide_eq_false same
          rw [other]
          exact ⟨fun found => ⟨same, found⟩, fun both => both.2⟩
      have first : lastUnder (head :: pushed) head.isVideo head.seq = some head := by
        simp [lastUnder, Push.key]
      rw [List.forall_mem_cons]
      constructor
      · rintro ⟨fresh, each⟩
        exact ⟨first, fun push member => (apart push member).mpr ⟨fun same => fresh ⟨push, member, same.symm⟩, each push member⟩⟩
      · rintro ⟨_, each⟩
        refine ⟨?_, fun push member => ((apart push member).mp (each push member)).2⟩
        rintro ⟨push, member, same⟩
        exact ((apart push member).mp (each push member)).1 same.symm

theorem timeline_iff (bridge : DashBridge) (filed : bridge.Filed) : bridge.OnTimeline ↔ bridge.Kept := by
  rw [Kept, keys_nodup_iff bridge.pushed filed.distinct]
  constructor
  · intro timeline
    have own : ∀ push ∈ bridge.pushed, bridge.Timed push push.seq ∧
        lastUnder bridge.pushed push.isVideo push.seq = some push := by
      intro push member
      obtain ⟨number, timed, last⟩ := timeline.fragments push member
      have isNumber := (last_under_key _ _ _ _ last).2.2
      exact ⟨isNumber ▸ timed, isNumber ▸ last⟩
    exact ⟨fun push member => (own push member).1, fun push member => (own push member).2⟩
  · rintro ⟨timed, last⟩
    refine ⟨filed.served, fun isVideo number push isLast => ?_, fun push member => ⟨push.seq, timed push member, last push member⟩⟩
    obtain ⟨member, _, isNumber⟩ := last_under_key _ _ _ _ isLast
    exact isNumber ▸ timed push member

-- The record a turn of a drain makes.
def recorded (bridge : DashBridge) (drain : DashDrain) (fragment : Media.Fragment) (init : Option Bytes) : Push :=
  ⟨drain.isVideo, drain.number init, drain.timescale, fragment, bridge.pushed.length⟩

theorem last_under_cons (push : Push) (pushed : List Push) (isVideo : Bool) (seq : Nat) :
    lastUnder (push :: pushed) isVideo seq = if push.key = (isVideo, seq) then some push else lastUnder pushed isVideo seq := by
  rw [lastUnder, List.find?_cons]
  by_cases same : push.key = (isVideo, seq)
  · rw [decide_eq_true same, if_pos same]
  · rw [decide_eq_false same, if_neg same, lastUnder]

theorem drain_served (codecs : CodecStrings) (bridge : DashBridge) (index : Nat) (drain : DashDrain)
    (fragment : Media.Fragment) (init : Option Bytes) (now : Nat) (isVideo : Bool) (number : Nat) :
    ((bridge.drainFragment codecs index drain fragment init now).server.track isVideo).segments.lookup number =
      if (bridge.recorded drain fragment init).key = (isVideo, number) then some (Cmaf.prependCmafChunkStyp fragment.payload)
      else (bridge.server.track isVideo).segments.lookup number := by
  rw [drainFragment, DashServer.push_segment_lookup]
  refine if_congr Iff.rfl rfl ?_
  cases drain.changedInit init with
  | none => rfl
  | some current => rw [DashServer.push_init_segments]

theorem drain_config (codecs : CodecStrings) (bridge : DashBridge) (index : Nat) (drain : DashDrain)
    (fragment : Media.Fragment) (init : Option Bytes) (now : Nat) :
    (bridge.drainFragment codecs index drain fragment init now).server.config = bridge.server.config := by
  rw [drainFragment, DashServer.push_segment_config]
  cases drain.changedInit init with
  | none => rfl
  | some current => exact DashServer.push_init_config codecs bridge.server drain.isVideo current now

-- What one operation does: nothing to what is served, or one more fragment.
theorem step_cases (codecs : CodecStrings) (bridge : DashBridge) (op : DashBridgeOp) :
    ((bridge.step codecs op).server = bridge.server ∧ (bridge.step codecs op).pushed = bridge.pushed ∧ bridge.Paced op) ∨
    ∃ index drain fragment init now, op = .fragment index fragment init now ∧ bridge.drains[index]? = some drain ∧
      bridge.step codecs op = bridge.drainFragment codecs index drain fragment init now := by
  cases op with
  | entryCreated track timescale =>
      refine .inl ?_
      rw [step, entryCreated]
      split
      · exact ⟨rfl, rfl, trivial⟩
      · split <;> exact ⟨rfl, rfl, trivial⟩
  | fragment index fragment init now =>
      cases found : bridge.drains[index]? with
      | none =>
          have same : bridge.step codecs (.fragment index fragment init now) = bridge := by simp only [step, found]
          rw [same]
          refine .inl ⟨rfl, rfl, fun drain isDrain => ?_⟩
          rw [found] at isDrain
          cases isDrain
      | some drain => exact .inr ⟨index, drain, fragment, init, now, rfl, found, by simp only [step, found]⟩

theorem drain_filed (codecs : CodecStrings) (bridge : DashBridge) (index : Nat) (drain : DashDrain)
    (fragment : Media.Fragment) (init : Option Bytes) (now : Nat) (filed : bridge.Filed) :
    (bridge.drainFragment codecs index drain fragment init now).Filed where
  served isVideo number := by
    rw [drain_served, filed.served]
    have recordedLast := last_under_cons (bridge.recorded drain fragment init) bridge.pushed isVideo number
    have isPushed : (bridge.drainFragment codecs index drain fragment init now).pushed =
      bridge.recorded drain fragment init :: bridge.pushed := rfl
    rw [isPushed, recordedLast]
    split <;> rfl
  places := List.forall_mem_cons.mpr
    ⟨Nat.lt_succ_self _, fun push member => Nat.lt_succ_of_lt (filed.places push member)⟩
  distinct := by
    refine List.nodup_cons.mpr ⟨fun member => ?_, filed.distinct⟩
    exact Nat.lt_irrefl _ (filed.places _ member)

theorem step_filed (codecs : CodecStrings) (bridge : DashBridge) (op : DashBridgeOp) (filed : bridge.Filed) :
    (bridge.step codecs op).Filed := by
  obtain ⟨server, pushed, _⟩ | ⟨index, drain, fragment, init, now, rfl, _, stepped⟩ := step_cases codecs bridge op
  · refine ⟨?_, ?_, ?_⟩
    · rw [server, pushed]
      exact filed.served
    · rw [pushed]
      exact filed.places
    · rw [pushed]
      exact filed.distinct
  · rw [stepped]
    exact drain_filed codecs bridge index drain fragment init now filed

theorem timed_of_config (bridge bridge' : DashBridge) (same : bridge'.server.config = bridge.server.config) (push : Push)
    (number : Nat) : bridge'.Timed push number ↔ bridge.Timed push number := by
  rw [Timed, Timed, DashServer.template_of_config bridge.server bridge'.server same]

-- One turn keeps the numbers on the timeline just when its own is.
theorem step_kept (codecs : CodecStrings) (bridge : DashBridge) (op : DashBridgeOp) (kept : bridge.Kept) :
    (bridge.step codecs op).Kept ↔ bridge.Paced op := by
  obtain ⟨server, pushed, paced⟩ | ⟨index, drain, fragment, init, now, rfl, found, stepped⟩ := step_cases codecs bridge op
  · refine iff_of_true ?_ paced
    have timed := timed_of_config bridge (bridge.step codecs op) (congrArg DashServer.config server)
    rw [Kept, pushed]
    exact ⟨fun push member => (timed push push.seq).mpr (kept.1 push member), kept.2⟩
  · have timed := timed_of_config bridge (bridge.step codecs (.fragment index fragment init now))
      (stepped ▸ drain_config codecs bridge index drain fragment init now)
    have pushed : (bridge.step codecs (.fragment index fragment init now)).pushed =
        bridge.recorded drain fragment init :: bridge.pushed := by
      rw [stepped]
      rfl
    have fresh : (bridge.recorded drain fragment init).key ∉ bridge.pushed.map Push.key ↔
        ∀ push ∈ bridge.pushed, push.isVideo = drain.isVideo → push.seq ≠ drain.number init := by
      rw [List.mem_map, not_exists]
      refine forall_congr' fun push => ⟨fun apart member sameTrack same => ?_, fun apart both => ?_⟩
      · exact apart ⟨member, Prod.ext sameTrack same⟩
      · exact apart both.1 (congrArg Prod.fst both.2) (congrArg Prod.snd both.2)
    rw [Kept, pushed, List.forall_mem_cons, List.map_cons, List.nodup_cons, fresh]
    constructor
    · rintro ⟨⟨own, _⟩, apart, _⟩ other isDrain
      obtain rfl : drain = other := Option.some.inj (found.symm.trans isDrain)
      exact ⟨(timed _ _).mp own, apart⟩
    · intro paced
      obtain ⟨own, apart⟩ := paced drain found
      exact ⟨⟨(timed _ _).mpr own, fun push member => (timed push push.seq).mpr (kept.1 push member)⟩, apart, kept.2⟩

theorem new_filed (config : DashConfig) : (new config).Filed where
  served isVideo _ := by cases isVideo <;> rfl
  places := List.forall_mem_nil _
  distinct := List.nodup_nil

-- Every number stands for its interval, in every state of a run, just in the runs
-- where each fragment comes at the time its count says.
theorem segments_on_timeline_iff (codecs : CodecStrings) (config : DashConfig) (ops : List DashBridgeOp) :
    (∀ seen, seen <+: ops → (Machine.run (step codecs) (new config) seen).OnTimeline) ↔
      Machine.AllSteps Paced (step codecs) (new config) ops := by
  have start := new_filed config
  have kept : (new config).Kept := ⟨List.forall_mem_nil _, List.nodup_nil⟩
  rw [← Machine.invariant_iff_guarded_under (step_filed codecs) (fun bridge op _ => step_kept codecs bridge op)
    (new config) ops start kept]
  refine forall₂_congr fun seen _ => timeline_iff _ ?_
  exact Machine.invariant_of_run (step_filed codecs) _ seen start

def noCodecs : CodecStrings := ⟨fun _ => none, fun _ => none⟩

-- Two video fragments of a thirtieth of a second: the second is served as the media
-- of the third and fourth seconds.
theorem short_fragments_off_timeline :
    let frame (dts : Nat) : DashBridgeOp := .fragment 0 ⟨VIDEO_TRACK, 0, dts, dts, 3000, .KEYFRAME, [1]⟩ (some [0]) 0
    let bridge := Machine.run (step noCodecs) (new .default) [.entryCreated VIDEO_TRACK 90000, frame 0, frame 3000]
    ((bridge.server.track true).segments.lookup 2).isSome ∧ bridge.pushed.map (·.seq) = [2, 1] ∧ ¬bridge.OnTimeline := by
  refine ⟨rfl, rfl, fun timeline => ?_⟩
  have late := timeline.media true 2 _ rfl
  have early : ¬180000 * 90000 ≤ 3000 * 90000 := by decide
  exact early late.1

end DashBridge

end Lvqr.Dash
