import Lvqr.Fragment.Broadcaster
import Lvqr.Lib.Machine

set_option autoImplicit false

-- A fragment stream on its way over a MoQ track: the sink that writes it in groups of
-- frames, and the stream that reads the groups back.
namespace Lvqr.Moq

structure Fragment where
  trackId : String
  groupId : Nat
  objectId : Nat
  priority : Nat
  dts : Nat
  pts : Nat
  duration : Nat
  flags : FragmentFlags
  payload : Bytes
  ingestTimeMs : Nat
deriving DecidableEq, Repr

-- What survives the way over the wire.
def Fragment.carried (frag : Fragment) : Bytes × Bool := (frag.payload, frag.flags.keyframe)

structure Group where
  sequence : Nat
  frames : List Bytes
deriving DecidableEq, Repr

-- What the track makes of a push: the sequence of the group it appends, or no group,
-- and whether it takes the frames.
structure Writes where
  group : Option Nat
  init : Bool
  payload : Bool
deriving DecidableEq, Repr

inductive MoqSinkError where
  | appendGroup
  | writeFrame
deriving DecidableEq, Repr

-- What a push returns and logs: `dropped` is the `Ok(None)` behind the log line.
inductive Report where
  | opened (sequence : Nat)
  | appended
  | dropped
  | failed (error : MoqSinkError)
deriving DecidableEq, Repr

def Report.isWritten : Report → Bool
  | .opened _ => true
  | .appended => true
  | .dropped => false
  | .failed _ => false

-- `track` is the groups behind the open one, which is the last that was appended.
structure MoqTrackSink where
  track : List Group
  info : FragmentMeta
  currentGroup : Option Group
deriving DecidableEq, Repr

inductive SinkOp where
  | setInitSegment (init : Bytes)
  | push (frag : Fragment) (writes : Writes)
  | finishCurrentGroup
deriving DecidableEq, Repr

namespace MoqTrackSink

def new (info : FragmentMeta) : MoqTrackSink := ⟨[], info, none⟩

def groups (sink : MoqTrackSink) : List Group := sink.track ++ sink.currentGroup.toList

def setInitSegment (sink : MoqTrackSink) (init : Bytes) : MoqTrackSink :=
  { sink with info := { sink.info with initSegment := some init } }

def finishCurrentGroup (sink : MoqTrackSink) : MoqTrackSink := { sink with track := sink.groups, currentGroup := none }

-- A group whose frames are refused is let go with what it holds.
def pushKeyframe (sink : MoqTrackSink) (payload : Bytes) (sequence : Nat) (writes : Writes) : MoqTrackSink × Report :=
  let leave := fun frames => ({ sink with track := sink.track ++ [⟨sequence, frames⟩] }, Report.failed .writeFrame)
  if sink.info.initSegment.isSome && !writes.init then leave []
  else if writes.payload then
    ({ sink with currentGroup := some ⟨sequence, sink.info.initSegment.toList ++ [payload]⟩ }, .opened sequence)
  else leave sink.info.initSegment.toList

def push (sink : MoqTrackSink) (frag : Fragment) (writes : Writes) : MoqTrackSink × Report :=
  if frag.flags.keyframe then
    match writes.group with
    | none => (sink.finishCurrentGroup, .failed .appendGroup)
    | some sequence => sink.finishCurrentGroup.pushKeyframe frag.payload sequence writes
  else
    match sink.currentGroup with
    | some group =>
        if writes.payload then
          ({ sink with currentGroup := some { group with frames := group.frames ++ [frag.payload] } }, .appended)
        else (sink, .failed .writeFrame)
    | none => (sink, .dropped)

def apply (sink : MoqTrackSink) : SinkOp → MoqTrackSink
  | .setInitSegment init => sink.setInitSegment init
  | .push frag writes => (sink.push frag writes).1
  | .finishCurrentGroup => sink.finishCurrentGroup

def writtenBy (sink : MoqTrackSink) : SinkOp → List Fragment
  | .setInitSegment _ => []
  | .push frag writes => if (sink.push frag writes).2.isWritten then [frag] else []
  | .finishCurrentGroup => []

-- The fragments of a run that the sink neither reports as dropped nor fails on.
def written (sink : MoqTrackSink) : List SinkOp → List Fragment
  | [] => []
  | op :: ops => sink.writtenBy op ++ (sink.apply op).written ops

-- A keyframe finds an init segment.
def InitFirst (sink : MoqTrackSink) : SinkOp → Prop
  | .push frag _ => frag.flags.keyframe = true → sink.info.initSegment.isSome = true
  | _ => True

instance (sink : MoqTrackSink) : ∀ op, Decidable (sink.InitFirst op)
  | .setInitSegment _ => inferInstanceAs (Decidable True)
  | .push _ _ => inferInstanceAs (Decidable (_ → _))
  | .finishCurrentGroup => inferInstanceAs (Decidable True)

end MoqTrackSink

-- `group` is the frames that are left of the group.
structure MoqGroupStream where
  info : FragmentMeta
  group : Group
  trackId : String
  emitted : Nat
  expectInitPrefix : Bool
deriving DecidableEq, Repr

namespace MoqGroupStream

def new (trackId : String) (info : FragmentMeta) (group : Group) : MoqGroupStream :=
  ⟨info, group, trackId, 0, info.initSegment.isSome⟩

def withoutInitPrefix (trackId : String) (info : FragmentMeta) (group : Group) : MoqGroupStream :=
  ⟨info, group, trackId, 0, false⟩

def fragment (stream : MoqGroupStream) (payload : Bytes) : Fragment :=
  ⟨stream.trackId, stream.group.sequence, stream.emitted, 0, 0, 0, 0,
    if stream.emitted = 0 then .KEYFRAME else .DELTA, payload, 0⟩

def readFrame (stream : MoqGroupStream) : Option (Bytes × MoqGroupStream) :=
  match stream.group.frames with
  | [] => none
  | frame :: rest => some (frame, { stream with group := ⟨stream.group.sequence, rest⟩ })

def skipInit (stream : MoqGroupStream) : Option MoqGroupStream :=
  if stream.expectInitPrefix then { stream with expectInitPrefix := false }.readFrame.map Prod.snd else some stream

-- A stream that returned none is not asked again.
def nextFragment (stream : MoqGroupStream) : Option (Fragment × MoqGroupStream) := do
  let stream ← stream.skipInit
  let (payload, rest) ← stream.readFrame
  return (stream.fragment payload, { rest with emitted := rest.emitted + 1 })

end MoqGroupStream

structure MoqTrackStream where
  info : FragmentMeta
  track : List Group
  trackId : String
  current : Option MoqGroupStream
  expectInitPerGroup : Bool
deriving DecidableEq, Repr

namespace MoqTrackStream

def new (trackId : String) (info : FragmentMeta) (track : List Group) : MoqTrackStream :=
  ⟨info, track, trackId, none, info.initSegment.isSome⟩

def inner (stream : MoqTrackStream) (group : Group) : MoqGroupStream :=
  if stream.expectInitPerGroup then .new stream.trackId stream.info group
  else .withoutInitPrefix stream.trackId stream.info group

-- The loop of `next_fragment` once there is no current group.
def pull : List Group → MoqTrackStream → Option (Fragment × MoqTrackStream)
  | [], _ => none
  | group :: rest, stream =>
      match (stream.inner group).nextFragment with
      | some (frag, inner) => some (frag, { stream with track := rest, current := some inner })
      | none => pull rest { stream with track := rest }

def nextFragment (stream : MoqTrackStream) : Option (Fragment × MoqTrackStream) :=
  match stream.current.bind MoqGroupStream.nextFragment with
  | some (frag, inner) => some (frag, { stream with current := some inner })
  | none => pull stream.track { stream with current := none }

-- The stream returns the fragments one after the other, and then none.
def Yields : MoqTrackStream → List Fragment → Prop
  | stream, [] => stream.nextFragment = none
  | stream, frag :: rest => ∃ next, stream.nextFragment = some (frag, next) ∧ next.Yields rest

end MoqTrackStream

-- Payloads with the keyframe flag that their place gives them.
def flagged : Nat → List Bytes → List (Bytes × Bool)
  | _, [] => []
  | place, payload :: rest => (payload, place == 0) :: flagged (place + 1) rest

theorem flagged_snoc (place : Nat) (payloads : List Bytes) (last : Bytes) :
    flagged place (payloads ++ [last]) = flagged place payloads ++ [(last, place + payloads.length == 0)] := by
  induction payloads generalizing place with
  | nil => rfl
  | cons payload rest ih =>
      rw [List.cons_append, flagged, flagged, ih, List.length_cons, List.cons_append, Nat.add_right_comm, Nat.add_assoc]

-- Every group has an init frame in front.
def Group.carried (group : Group) : List (Bytes × Bool) := flagged 0 (group.frames.drop 1)

namespace MoqTrackSink

def carried (sink : MoqTrackSink) : List (Bytes × Bool) := sink.groups.flatMap Group.carried

-- The open group holds an init segment and a keyframe.
def Keyed (sink : MoqTrackSink) : Prop :=
  ∀ group ∈ sink.currentGroup, ∃ init payload deltas, group.frames = init :: payload :: deltas

@[simp] theorem finish_carried (sink : MoqTrackSink) : sink.finishCurrentGroup.carried = sink.carried := by
  simp [carried, groups, finishCurrentGroup]

theorem finish_keyed (sink : MoqTrackSink) : sink.finishCurrentGroup.Keyed := nofun

theorem keyframe_step (sink : MoqTrackSink) (frag : Fragment) (sequence : Nat) (writes : Writes) (init : Bytes)
    (isKeyframe : frag.flags.keyframe = true) (closed : sink.currentGroup = none)
    (holds : sink.info.initSegment = some init) :
    let pushed := sink.pushKeyframe frag.payload sequence writes
    pushed.1.Keyed ∧
      pushed.1.carried = sink.carried ++ (if pushed.2.isWritten then [frag] else []).map Fragment.carried := by
  -- A group that was let go carries nothing.
  have left (frames : List Bytes) (short : frames.drop 1 = []) :
      let after : MoqTrackSink := { sink with track := sink.track ++ [⟨sequence, frames⟩] }
      after.Keyed ∧ after.carried = sink.carried := by
    simp [Keyed, carried, groups, closed, Group.carried, short, flagged]
  rw [pushKeyframe, holds]
  by_cases initWritten : writes.init = true
  · by_cases payloadWritten : writes.payload = true
    · simp [initWritten, payloadWritten, Keyed, carried, groups, closed, Group.carried, flagged, Report.isWritten,
        Fragment.carried, isKeyframe]
    · simpa [initWritten, payloadWritten, Report.isWritten] using left [init] rfl
  · simpa [initWritten, Report.isWritten] using left [] rfl

theorem delta_step (sink : MoqTrackSink) (frag : Fragment) (group : Group) (isDelta : frag.flags.keyframe = false)
    (current : sink.currentGroup = some group) (isKeyed : sink.Keyed) :
    let pushed := { sink with currentGroup := some { group with frames := group.frames ++ [frag.payload] } }
    pushed.Keyed ∧ pushed.carried = sink.carried ++ [frag].map Fragment.carried := by
  obtain ⟨init, payload, deltas, frames⟩ := isKeyed group current
  have grown : Group.carried ⟨group.sequence, group.frames ++ [frag.payload]⟩ =
      group.carried ++ [(frag.payload, false)] := by
    rw [Group.carried, Group.carried, frames]
    exact flagged_snoc 0 (payload :: deltas) frag.payload
  refine ⟨?_, ?_⟩
  · intro other member
    obtain rfl := Option.some.inj member
    exact ⟨init, payload, deltas ++ [frag.payload], by rw [frames]; rfl⟩
  · simp [carried, groups, current, grown, Fragment.carried, isDelta]

theorem push_step (sink : MoqTrackSink) (frag : Fragment) (writes : Writes) (isKeyed : sink.Keyed)
    (initFirst : sink.InitFirst (.push frag writes)) :
    let pushed := sink.push frag writes
    pushed.1.Keyed ∧
      pushed.1.carried = sink.carried ++ (if pushed.2.isWritten then [frag] else []).map Fragment.carried := by
  by_cases isKeyframe : frag.flags.keyframe = true
  · obtain ⟨init, holds⟩ := Option.isSome_iff_exists.mp (initFirst isKeyframe)
    rw [push, if_pos isKeyframe]
    cases writes.group with
    | none =>
        refine ⟨finish_keyed sink, ?_⟩
        rw [finish_carried]
        exact (List.append_nil _).symm
    | some sequence =>
        have step := keyframe_step sink.finishCurrentGroup frag sequence writes init isKeyframe rfl holds
        rwa [finish_carried] at step
  · rw [push, if_neg isKeyframe]
    cases current : sink.currentGroup with
    | none => exact ⟨isKeyed, (List.append_nil _).symm⟩
    | some group =>
        dsimp only
        by_cases payloadWritten : writes.payload = true
        · rw [if_pos payloadWritten]
          exact delta_step sink frag group (Bool.eq_false_iff.mpr isKeyframe) current isKeyed
        · rw [if_neg payloadWritten]
          exact ⟨isKeyed, (List.append_nil _).symm⟩

theorem apply_step (sink : MoqTrackSink) (op : SinkOp) (keyed : sink.Keyed) (initFirst : sink.InitFirst op) :
    (sink.apply op).Keyed ∧ (sink.apply op).carried = sink.carried ++ (sink.writtenBy op).map Fragment.carried := by
  cases op with
  | setInitSegment init => exact ⟨keyed, (List.append_nil _).symm⟩
  | push frag writes => exact push_step sink frag writes keyed initFirst
  | finishCurrentGroup =>
      refine ⟨finish_keyed sink, ?_⟩
      rw [writtenBy, List.map_nil, List.append_nil, apply, finish_carried]

theorem run_carried (sink : MoqTrackSink) (ops : List SinkOp) (keyed : sink.Keyed)
    (initFirst : Machine.AllSteps InitFirst apply sink ops) :
    (Machine.run apply sink ops).carried = sink.carried ++ (sink.written ops).map Fragment.carried := by
  induction ops generalizing sink with
  | nil => exact (List.append_nil _).symm
  | cons op ops ih =>
      obtain ⟨next, stepped⟩ := apply_step sink op keyed initFirst.1
      rw [Machine.run_cons, ih (sink.apply op) next initFirst.2, stepped, written, List.map_append, List.append_assoc]

end MoqTrackSink

namespace MoqTrackStream

theorem yields_congr (stream other : MoqTrackStream) (same : stream.nextFragment = other.nextFragment)
    (frags : List Fragment) (yields : other.Yields frags) : stream.Yields frags := by
  cases frags with
  | nil => exact same.trans yields
  | cons frag rest =>
      obtain ⟨next, returned, later⟩ := yields
      exact ⟨next, same.trans returned, later⟩

theorem fragment_carried (inner : MoqGroupStream) (payload : Bytes) :
    (inner.fragment payload).carried = (payload, inner.emitted == 0) := by
  rw [MoqGroupStream.fragment, Fragment.carried]
  split
  · rename_i first
    rw [first]
    rfl
  · rename_i later
    rw [beq_eq_false_iff_ne.mpr later]
    rfl

section Inner

variable (inner : MoqGroupStream) (plain : inner.expectInitPrefix = false)

include plain

theorem inner_ends (drained : inner.group.frames = []) : inner.nextFragment = none := by
  obtain ⟨info, ⟨sequence, frames⟩, trackId, emitted, expects⟩ := inner
  cases plain
  cases drained
  rfl

theorem inner_returns (payload : Bytes) (rest : List Bytes) (holds : inner.group.frames = payload :: rest) :
    inner.nextFragment = some (inner.fragment payload,
      { inner with group := ⟨inner.group.sequence, rest⟩, emitted := inner.emitted + 1 }) := by
  obtain ⟨info, ⟨sequence, frames⟩, trackId, emitted, expects⟩ := inner
  cases plain
  cases holds
  rfl

end Inner

-- The rest of a group, and then what the stream returns behind it.
theorem inner_yields (stream : MoqTrackStream) (inner : MoqGroupStream) (later : List Fragment)
    (plain : inner.expectInitPrefix = false) (behind : { stream with current := none }.Yields later) :
    ∃ frags, { stream with current := some inner }.Yields frags ∧
      frags.map Fragment.carried = flagged inner.emitted inner.group.frames ++ later.map Fragment.carried := by
  induction left : inner.group.frames generalizing inner with
  | nil =>
      refine ⟨later, yields_congr _ { stream with current := none } ?_ later behind, rfl⟩
      rw [nextFragment, nextFragment, Option.bind_some, inner_ends inner plain left]
      rfl
  | cons payload rest ih =>
      obtain ⟨frags, yields, carried⟩ :=
        ih { inner with group := ⟨inner.group.sequence, rest⟩, emitted := inner.emitted + 1 } plain rfl
      refine ⟨inner.fragment payload :: frags, ⟨_, ?_, yields⟩, ?_⟩
      · rw [nextFragment, Option.bind_some, inner_returns inner plain payload rest left]
      · rw [List.map_cons, carried, fragment_carried, flagged, List.cons_append]

-- A group from its front, with its init frame in front.
theorem group_next (stream : MoqTrackStream) (group : Group) (expects : stream.expectInitPerGroup = true)
    (hasInit : stream.info.initSegment.isSome = true) :
    (stream.inner group).nextFragment =
      match group.frames.drop 1 with
      | [] => none
      | payload :: rest => some ((stream.inner group).fragment payload,
          { stream.inner group with group := ⟨group.sequence, rest⟩, emitted := 1, expectInitPrefix := false }) := by
  have fresh : stream.inner group = ⟨stream.info, group, stream.trackId, 0, true⟩ := by
    rw [inner, if_pos expects, MoqGroupStream.new, hasInit]
  rw [fresh]
  obtain ⟨sequence, frames⟩ := group
  cases frames with
  | nil => rfl
  | cons init behind =>
      cases behind with
      | nil => rfl
      | cons payload rest => rfl

section Pull

variable (stream : MoqTrackStream) (group : Group) (groups : List Group)

theorem pull_cons :
    pull (group :: groups) stream =
      match (stream.inner group).nextFragment with
      | some (frag, inner) => some (frag, { stream with track := groups, current := some inner })
      | none => pull groups { stream with track := groups } := rfl

theorem pull_past (ends : (stream.inner group).nextFragment = none) :
    { stream with track := group :: groups, current := none }.nextFragment =
      { stream with track := groups, current := none }.nextFragment := by
  have ended : (inner { stream with track := group :: groups, current := none } group).nextFragment = none := ends
  show pull (group :: groups) _ = _
  rw [pull_cons, ended]
  rfl

theorem pull_here (frag : Fragment) (inner : MoqGroupStream)
    (returns : (stream.inner group).nextFragment = some (frag, inner)) :
    { stream with track := group :: groups, current := none }.nextFragment =
      some (frag, { stream with track := groups, current := some inner }) := by
  have returned : (MoqTrackStream.inner { stream with track := group :: groups, current := none } group).nextFragment =
      some (frag, inner) := returns
  show pull (group :: groups) _ = _
  rw [pull_cons, returned]

end Pull

theorem groups_yield (stream : MoqTrackStream) (groups : List Group) (expects : stream.expectInitPerGroup = true)
    (hasInit : stream.info.initSegment.isSome = true) :
    ∃ frags, { stream with track := groups, current := none }.Yields frags ∧
      frags.map Fragment.carried = groups.flatMap Group.carried := by
  induction groups with
  | nil => exact ⟨[], rfl, rfl⟩
  | cons group groups ih =>
      obtain ⟨frags, yields, carried⟩ := ih
      have next := group_next stream group expects hasInit
      rw [List.flatMap_cons, Group.carried]
      cases behind : group.frames.drop 1 with
      | nil =>
          rw [behind] at next
          exact ⟨frags, yields_congr _ _ (pull_past stream group groups next) frags yields, carried⟩
      | cons payload rest =>
          rw [behind] at next
          obtain ⟨others, later, isCarried⟩ := inner_yields { stream with track := groups }
            { stream.inner group with group := ⟨group.sequence, rest⟩, emitted := 1, expectInitPrefix := false }
            frags rfl yields
          refine ⟨(stream.inner group).fragment payload :: others, ⟨_, pull_here stream group groups _ _ next, later⟩, ?_⟩
          have fresh : (stream.inner group).emitted = 0 := by
            rw [inner, if_pos expects]
            rfl
          rw [List.map_cons, fragment_carried, fresh, isCarried, carried]
          rfl

end MoqTrackStream

-- What the sink writes is what the stream returns, with the same payloads and the same
-- keyframe flags, in the order of the pushes.
theorem stream_yields_written (trackId : String) (sinkInfo streamInfo : FragmentMeta) (ops : List SinkOp)
    (initFirst : Machine.AllSteps MoqTrackSink.InitFirst MoqTrackSink.apply (MoqTrackSink.new sinkInfo) ops)
    (carriesInit : streamInfo.initSegment.isSome = true) :
    ∃ frags, (MoqTrackStream.new trackId streamInfo
        (Machine.run MoqTrackSink.apply (MoqTrackSink.new sinkInfo) ops).groups).Yields frags ∧
      frags.map Fragment.carried = ((MoqTrackSink.new sinkInfo).written ops).map Fragment.carried := by
  have ran := MoqTrackSink.run_carried (MoqTrackSink.new sinkInfo) ops nofun initFirst
  obtain ⟨frags, yields, carried⟩ := MoqTrackStream.groups_yield
    (MoqTrackStream.new trackId streamInfo (Machine.run MoqTrackSink.apply (MoqTrackSink.new sinkInfo) ops).groups)
    (Machine.run MoqTrackSink.apply (MoqTrackSink.new sinkInfo) ops).groups carriesInit carriesInit
  exact ⟨frags, yields, carried.trans ran⟩

-- Deltas in front of the first group and behind a finished one, and a new init segment.
def replacedInit : List SinkOp :=
  let sample := fun keyframe payload => Fragment.mk "0.mp4" 0 0 0 0 0 3000 (.ofKeyframe keyframe) [payload] 0
  [.push (sample false 1) ⟨none, true, true⟩, .setInitSegment [7], .push (sample true 2) ⟨some 0, true, true⟩,
    .push (sample false 3) ⟨none, true, true⟩, .finishCurrentGroup, .push (sample false 4) ⟨none, true, true⟩,
    .setInitSegment [8, 9], .push (sample true 5) ⟨some 1, true, true⟩, .push (sample false 6) ⟨none, true, true⟩]

theorem replaced_init_yields :
    ∃ frags, (MoqTrackStream.new "0.mp4" ⟨"avc1", 90000, some [7]⟩
        (Machine.run MoqTrackSink.apply (MoqTrackSink.new (.new "avc1" 90000)) replacedInit).groups).Yields frags ∧
      frags.map Fragment.carried = [([2], true), ([3], false), ([5], true), ([6], false)] :=
  stream_yields_written "0.mp4" (.new "avc1" 90000) ⟨"avc1", 90000, some [7]⟩ replacedInit (by decide) rfl

end Lvqr.Moq
