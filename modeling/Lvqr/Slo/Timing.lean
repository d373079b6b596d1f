import Mathlib.Data.List.Pairwise
import Lvqr.Fragment.MoqTrack
import Lvqr.Lib.BigEndian
import Lvqr.Lib.Window

set_option autoImplicit false

-- The timing track: an anchor for each group of the video track that a keyframe opens,
-- and the subscriber that finds the anchor of a group again.
namespace Lvqr.Slo

open Moq (MoqTrackSink SinkOp Fragment Writes Report)

structure TimingAnchor where
  groupId : Nat
  ingestTimeMs : Nat
deriving DecidableEq, Repr

def TIMING_ANCHOR_SIZE : Nat := 16

namespace TimingAnchor

-- Both numbers are little-endian.
def encode (anchor : TimingAnchor) : Bytes :=
  (BigEndian.bytes 8 anchor.groupId).reverse ++ (BigEndian.bytes 8 anchor.ingestTimeMs).reverse

def decode (bytes : Bytes) : Option TimingAnchor :=
  if bytes.length ≠ TIMING_ANCHOR_SIZE then none
  else some ⟨BigEndian.value (bytes.take 8).reverse, BigEndian.value (bytes.drop 8).reverse⟩

-- Both are u64.
structure Fits (anchor : TimingAnchor) : Prop where
  groupId : anchor.groupId < 2 ^ 64
  ingestTimeMs : anchor.ingestTimeMs < 2 ^ 64

theorem decode_encode (anchor : TimingAnchor) (fits : anchor.Fits) : decode anchor.encode = some anchor := by
  have half (value : Nat) : (BigEndian.bytes 8 value).reverse.length = 8 := by
    rw [List.length_reverse, BigEndian.bytes_length]
  have size : anchor.encode.length = TIMING_ANCHOR_SIZE := by
    rw [encode, List.length_append, half, half]
    rfl
  rw [decode, if_neg (not_not_intro size), encode, List.take_left' (half _), List.drop_left' (half _), List.reverse_reverse,
    List.reverse_reverse, BigEndian.value_bytes 8 _ fits.groupId, BigEndian.value_bytes 8 _ fits.ingestTimeMs]

end TimingAnchor

-- The two tracks of a broadcast. A group of the timing track is its one frame.
structure TimedSinks where
  video : MoqTrackSink
  timing : List Bytes

-- Whether the timing track is there and takes the anchor of the push.
structure TimedOp where
  op : SinkOp
  anchored : Bool

namespace TimedSinks

def new (info : FragmentMeta) : TimedSinks := ⟨.new info, []⟩

def anchor (sinks : TimedSinks) (timed : TimedOp) : List TimingAnchor :=
  match timed.op with
  | .push frag writes =>
      match (sinks.video.push frag writes).2 with
      | .opened sequence => if frag.ingestTimeMs ≠ 0 ∧ timed.anchored = true then [⟨sequence, frag.ingestTimeMs⟩] else []
      | _ => []
  | _ => []

def step (sinks : TimedSinks) (timed : TimedOp) : TimedSinks :=
  ⟨sinks.video.apply timed.op, sinks.timing ++ (sinks.anchor timed).map TimingAnchor.encode⟩

end TimedSinks

structure TimingAnchorJoin where
  anchors : List TimingAnchor
  capacity : Nat
deriving DecidableEq, Repr

def DEFAULT_RING_CAPACITY : Nat := 64

namespace TimingAnchorJoin

def withCapacity (capacity : Nat) : TimingAnchorJoin := ⟨[], max capacity 1⟩

def new : TimingAnchorJoin := withCapacity DEFAULT_RING_CAPACITY

def push (join : TimingAnchorJoin) (anchor : TimingAnchor) : TimingAnchorJoin :=
  { join with
    anchors := (if join.anchors.length = join.capacity then join.anchors.tail else join.anchors) ++ [anchor] }

def lookup (join : TimingAnchorJoin) (groupId : Nat) : Option TimingAnchor :=
  match join.anchors.find? fun anchor => anchor.groupId = groupId with
  | some hit => some hit
  | none => join.anchors.reverse.find? fun anchor => anchor.groupId < groupId

-- A frame of another size is skipped.
def receive (join : TimingAnchorJoin) (payload : Bytes) : TimingAnchorJoin :=
  match TimingAnchor.decode payload with
  | some anchor => join.push anchor
  | none => join

-- The latency that the subscriber reports for a frame of the group.
def sample (join : TimingAnchorJoin) (groupId now : Nat) : Option Nat :=
  match join.lookup groupId with
  | none => none
  | some anchor =>
      if anchor.ingestTimeMs = 0 ∨ now < anchor.ingestTimeMs then none else some (now - anchor.ingestTimeMs)

end TimingAnchorJoin

end Lvqr.Slo

-- What a subscriber reports, for all that may have been lost on the way.
namespace Lvqr.Slo

open Moq (MoqTrackSink SinkOp Fragment Writes Report)

namespace TimedSinks

-- The anchors of a run, in order.
def anchors : TimedSinks → List TimedOp → List TimingAnchor
  | _, [] => []
  | sinks, timed :: rest => sinks.anchor timed ++ (sinks.step timed).anchors rest

theorem run_timing (sinks : TimedSinks) (ops : List TimedOp) :
    (Machine.run step sinks ops).timing = sinks.timing ++ (sinks.anchors ops).map TimingAnchor.encode := by
  induction ops generalizing sinks with
  | nil => exact (List.append_nil _).symm
  | cons timed ops ih =>
      rw [Machine.run_cons, ih, anchors, List.map_append, ← List.append_assoc]
      rfl

-- What a keyframe is given: the group that the track opens for it, and its time of
-- ingest if there is one.
def keyed (timed : TimedOp) : List TimingAnchor :=
  match timed.op with
  | .push frag writes =>
      if frag.flags.keyframe = true ∧ frag.ingestTimeMs ≠ 0 then
        (writes.group.map fun sequence => TimingAnchor.mk sequence frag.ingestTimeMs).toList
      else []
  | _ => []

theorem push_opened (sink : MoqTrackSink) (frag : Fragment) (writes : Writes) (sequence : Nat)
    (opened : (sink.push frag writes).2 = .opened sequence) :
    frag.flags.keyframe = true ∧ writes.group = some sequence := by
  rw [MoqTrackSink.push] at opened
  split at opened
  · rename_i keyframe
    cases group : writes.group with
    | none =>
        rw [group] at opened
        cases opened
    | some other =>
        rw [group] at opened
        dsimp only at opened
        rw [MoqTrackSink.pushKeyframe] at opened
        dsimp only at opened
        split at opened
        · cases opened
        · split at opened
          · cases opened
            exact ⟨keyframe, rfl⟩
          · cases opened
  · split at opened
    · split at opened
      · cases opened
      · cases opened
    · cases opened

theorem anchor_keyed (sinks : TimedSinks) (timed : TimedOp) : (sinks.anchor timed).Sublist (keyed timed) := by
  rw [anchor, keyed]
  split
  · split
    · rename_i sequence opened
      obtain ⟨keyframe, group⟩ := push_opened _ _ _ _ opened
      split
      · rename_i stamped
        rw [if_pos ⟨keyframe, stamped.1⟩, group]
        exact List.Sublist.refl _
      · exact List.nil_sublist _
    · exact List.nil_sublist _
  · exact List.nil_sublist _

theorem anchors_keyed (sinks : TimedSinks) (ops : List TimedOp) : (sinks.anchors ops).Sublist (ops.flatMap keyed) := by
  induction ops generalizing sinks with
  | nil => exact List.Sublist.refl _
  | cons timed ops ih => exact (sinks.anchor_keyed timed).append (ih _)

end TimedSinks

namespace TimingAnchorJoin

theorem receive_window (received : List Bytes) :
    (received.foldl receive new).capacity = DEFAULT_RING_CAPACITY ∧
      (received.foldl receive new).anchors = (received.filterMap TimingAnchor.decode).rtake DEFAULT_RING_CAPACITY := by
  induction received using List.reverseRecOn with
  | nil => exact ⟨rfl, (List.rtake_nil _).symm⟩
  | append_singleton received payload ih =>
      obtain ⟨capacity, kept⟩ := ih
      rw [List.foldl_append, List.foldl_cons, List.foldl_nil, List.filterMap_append, receive]
      cases decoded : TimingAnchor.decode payload with
      | none => simpa [decoded] using ⟨capacity, kept⟩
      | some anchor =>
          have bounded := Window.rtake_length DEFAULT_RING_CAPACITY (received.filterMap TimingAnchor.decode)
          refine ⟨capacity, ?_⟩
          rw [List.filterMap_cons_some decoded, List.filterMap_nil, ← Window.push_rtake _ (by decide), ← kept, Window.push]
          rw [← kept] at bounded
          show (if _ then _ else _) ++ _ = _
          rw [capacity]
          split
          · rename_i full
            rw [if_neg (by omega)]
          · rename_i room
            rw [if_pos (by omega)]

end TimingAnchorJoin

def InOrder (anchors : List TimingAnchor) : Prop := anchors.Pairwise fun first second => first.groupId < second.groupId

theorem lookup_behind (join : TimingAnchorJoin) (groupId : Nat) (anchor : TimingAnchor)
    (found : join.lookup groupId = some anchor) : anchor ∈ join.anchors ∧ anchor.groupId ≤ groupId := by
  rw [TimingAnchorJoin.lookup] at found
  cases exact : join.anchors.find? fun anchor => anchor.groupId = groupId with
  | some hit =>
      rw [exact] at found
      obtain rfl := Option.some.inj found
      have same : hit.groupId = groupId := by simpa using List.find?_some exact
      exact ⟨List.mem_of_find?_eq_some exact, Nat.le_of_eq same⟩
  | none =>
      rw [exact] at found
      have less : anchor.groupId < groupId := by simpa using List.find?_some found
      exact ⟨List.mem_reverse.mp (List.mem_of_find?_eq_some found), Nat.le_of_lt less⟩

theorem lookup_kept (join : TimingAnchorJoin) (ordered : InOrder join.anchors) (anchor : TimingAnchor)
    (kept : anchor ∈ join.anchors) : join.lookup anchor.groupId = some anchor := by
  rw [TimingAnchorJoin.lookup]
  cases exact : join.anchors.find? fun other => other.groupId = anchor.groupId with
  | none =>
      have missed := List.find?_eq_none.mp exact anchor kept
      simp at missed
  | some hit =>
      have same : hit.groupId = anchor.groupId := by simpa using List.find?_some exact
      have member := List.mem_of_find?_eq_some exact
      have symmetric : Std.Symm fun first second : TimingAnchor => first.groupId ≠ second.groupId :=
        ⟨fun _ _ apart => apart.symm⟩
      have unique : hit = anchor := by
        by_contra differs
        exact (ordered.imp Nat.ne_of_lt).forall member kept differs same
      rw [unique]

-- The track numbers its groups upwards, the clock of the ingest does not go back, and
-- both are u64.
structure Stamped (keyed : List TimingAnchor) : Prop where
  ordered : InOrder keyed
  clock : keyed.Pairwise fun first second => first.ingestTimeMs ≤ second.ingestTimeMs
  fits : ∀ anchor ∈ keyed, anchor.Fits

theorem received_anchors (anchors : List TimingAnchor) (fits : ∀ anchor ∈ anchors, anchor.Fits) (received : List Bytes)
    (arrived : received.Sublist (anchors.map TimingAnchor.encode)) :
    ∃ through : List TimingAnchor, through.Sublist anchors ∧ received = through.map TimingAnchor.encode ∧
      received.filterMap TimingAnchor.decode = through := by
  obtain ⟨through, isPart, rfl⟩ := List.sublist_map_iff.mp arrived
  refine ⟨through, isPart, rfl, ?_⟩
  rw [List.filterMap_map]
  exact (List.filterMap_congr fun anchor member => anchor.decode_encode (fits anchor (isPart.subset member))).trans
    List.filterMap_some

theorem keyed_stamped (timed : TimedOp) (anchor : TimingAnchor) (member : anchor ∈ TimedSinks.keyed timed) :
    anchor.ingestTimeMs ≠ 0 := by
  rw [TimedSinks.keyed] at member
  split at member
  · split at member
    · rename_i stamped
      obtain ⟨sequence, _, rfl⟩ := Option.map_eq_some_iff.mp (Option.mem_toList.mp member)
      exact stamped.2
    · cases member
  · cases member

-- A group that is not behind another was not opened later.
theorem earlier_ingest {keyed : List TimingAnchor} (stamped : Stamped keyed) {anchor keyframe : TimingAnchor}
    (isKeyed : anchor ∈ keyed) (isKeyframe : keyframe ∈ keyed) (least : anchor.groupId ≤ keyframe.groupId) :
    anchor.ingestTimeMs ≤ keyframe.ingestTimeMs := by
  let Follows := fun first second : TimingAnchor =>
    (first.groupId ≤ second.groupId → first.ingestTimeMs ≤ second.ingestTimeMs) ∧
      (second.groupId ≤ first.groupId → second.ingestTimeMs ≤ first.ingestTimeMs)
  have symmetric : Std.Symm Follows := ⟨fun _ _ both => both.symm⟩
  have pairs : keyed.Pairwise Follows := stamped.ordered.imp₂ (fun first second less clock =>
    ⟨fun _ => clock, fun back => absurd less (Nat.not_lt.mpr back)⟩) stamped.clock
  exact (pairs.forall_of_forall (fun _ _ => ⟨fun _ => Nat.le_refl _, fun _ => Nat.le_refl _⟩) isKeyed isKeyframe).1 least

section Subscriber

variable (ops : List TimedOp) (stamped : Stamped (ops.flatMap TimedSinks.keyed)) (received : List Bytes) (info : FragmentMeta)
  (arrived : received.Sublist (Machine.run TimedSinks.step (.new info) ops).timing)

include stamped arrived

-- What the ring of the subscriber holds.
theorem ring_anchors :
    ∃ through : List TimingAnchor, through.Sublist (ops.flatMap TimedSinks.keyed) ∧
      received = through.map TimingAnchor.encode ∧
      (received.foldl TimingAnchorJoin.receive .new).anchors = through.rtake DEFAULT_RING_CAPACITY := by
  rw [TimedSinks.run_timing] at arrived
  have keyed := TimedSinks.anchors_keyed (.new info) ops
  obtain ⟨through, isPart, isAll, decoded⟩ :=
    received_anchors _ (fun anchor member => stamped.fits anchor (keyed.subset member)) received arrived
  exact ⟨through, isPart.trans keyed, isAll, by rw [(TimingAnchorJoin.receive_window received).2, decoded]⟩

-- Whatever anchors are lost on the way, a reported latency is not less than what the
-- ingest time of the group's own keyframe gives, and it is just that if the anchor of
-- the group is among the last that arrived.
theorem latency_never_understated (keyframe : TimingAnchor) (isKeyframe : keyframe ∈ ops.flatMap TimedSinks.keyed)
    (now : Nat) :
    let join := received.foldl TimingAnchorJoin.receive .new
    (∀ latency ∈ join.sample keyframe.groupId now, now - keyframe.ingestTimeMs ≤ latency) ∧
      (keyframe.encode ∈ received.rtake DEFAULT_RING_CAPACITY → keyframe.ingestTimeMs ≤ now →
        join.sample keyframe.groupId now = some (now - keyframe.ingestTimeMs)) := by
  intro join
  obtain ⟨through, isPart, isAll, ring⟩ := ring_anchors ops stamped received info arrived
  have kept : join.anchors.Sublist (ops.flatMap TimedSinks.keyed) := by
    rw [ring]
    exact (List.drop_sublist _ _).trans isPart
  have ordered : InOrder join.anchors := stamped.ordered.sublist kept
  refine ⟨fun latency sampled => ?_, fun recent past => ?_⟩
  · rw [TimingAnchorJoin.sample] at sampled
    cases found : join.lookup keyframe.groupId with
    | none =>
        rw [found] at sampled
        cases sampled
    | some anchor =>
        rw [found] at sampled
        dsimp only at sampled
        split at sampled
        · cases sampled
        · obtain rfl := Option.some.inj sampled
          obtain ⟨member, least⟩ := lookup_behind join _ anchor found
          exact Nat.sub_le_sub_left (earlier_ingest stamped (kept.subset member) isKeyframe least) now
  · have held : keyframe ∈ join.anchors := by
      rw [isAll, List.rtake, List.length_map, ← List.map_drop] at recent
      obtain ⟨anchor, member, same⟩ := List.mem_map.mp recent
      have fits := stamped.fits anchor (isPart.subset (List.mem_of_mem_drop member))
      have decoded := congrArg TimingAnchor.decode same
      rw [anchor.decode_encode fits, keyframe.decode_encode (stamped.fits keyframe isKeyframe)] at decoded
      rw [ring, ← Option.some.inj decoded]
      exact member
    obtain ⟨timed, _, isKeyed⟩ := List.mem_flatMap.mp isKeyframe
    have stampedTime := keyed_stamped timed keyframe isKeyed
    rw [TimingAnchorJoin.sample, lookup_kept join ordered keyframe held]
    exact if_neg (not_or.mpr ⟨stampedTime, Nat.not_lt.mpr past⟩)

end Subscriber

def cameraKeyframe (sequence ingestTimeMs : Nat) : TimedOp :=
  ⟨.push ⟨"0.mp4", sequence, 0, 0, 0, 0, 3000, .KEYFRAME, [1], ingestTimeMs⟩ ⟨some sequence, true, true⟩, true⟩

def cameraGroups : List TimedOp := [cameraKeyframe 0 100, cameraKeyframe 1 140]

-- The anchor of the second group is lost.
theorem lost_anchor_overstates :
    let join := [(TimingAnchor.mk 0 100).encode].foldl TimingAnchorJoin.receive .new
    (∀ latency ∈ join.sample 1 200, 60 ≤ latency) ∧
      ((TimingAnchor.mk 1 140).encode ∈ [(TimingAnchor.mk 0 100).encode].rtake DEFAULT_RING_CAPACITY → 140 ≤ 200 →
        join.sample 1 200 = some 60) := by
  have keyed : cameraGroups.flatMap TimedSinks.keyed = [⟨0, 100⟩, ⟨1, 140⟩] := rfl
  have stamped : Stamped (cameraGroups.flatMap TimedSinks.keyed) := by
    rw [keyed]
    exact ⟨by simp [InOrder], by simp, by simpa using ⟨⟨by decide, by decide⟩, ⟨by decide, by decide⟩⟩⟩
  have arrived : [(TimingAnchor.mk 0 100).encode].Sublist
      (Machine.run TimedSinks.step (.new (.new "avc1" 90000)) cameraGroups).timing :=
    List.sublist_append_left [(TimingAnchor.mk 0 100).encode] [(TimingAnchor.mk 1 140).encode]
  exact latency_never_understated cameraGroups stamped _ (.new "avc1" 90000) arrived ⟨1, 140⟩ (by decide) 200

end Lvqr.Slo
