import Lvqr.Fragment.MoqTrack
import Lvqr.Record.Isolation

set_option autoImplicit false

-- What one recorder task leaves of a track that a fragment sink has written: which
-- bytes each of its files holds.
namespace Lvqr.Record

open Paths
open Moq (Group MoqTrackSink SinkOp)

-- The writes of a task, in their order, when it is never cancelled and none fails.
def Task.writes (task : Task) : List Bytes → List (Path × Bytes)
  | [] => []
  | bytes :: rest => (task.framePath bytes, bytes) :: (task.advance bytes).writes rest

def Task.recordTrack (task : Task) (track : List Group) : List (Path × Bytes) := task.writes (track.flatMap Group.frames)

-- The last write to a path is what its file holds.
def contents (path : Path) : List (Path × Bytes) → Option Bytes
  | [] => none
  | file :: files => (contents path files).or (if file.1 = path then some file.2 else none)

def startsMoof (payload : Bytes) : Bool :=
  8 ≤ payload.length && (payload.drop 4).take 4 = [0x6D, 0x6F, 0x6F, 0x66]

-- A push of a media fragment, that finds the init segment if it is a keyframe.
def MediaUnder (init : Bytes) (sink : MoqTrackSink) : SinkOp → Prop
  | .push frag _ =>
      startsMoof frag.payload = true ∧ (frag.flags.keyframe = true → sink.info.initSegment = some init)
  | _ => True

instance (init : Bytes) (sink : MoqTrackSink) : ∀ op, Decidable (MediaUnder init sink op)
  | .setInitSegment _ => inferInstanceAs (Decidable True)
  | .push _ _ => inferInstanceAs (Decidable (_ ∧ (_ → _)))
  | .finishCurrentGroup => inferInstanceAs (Decidable True)

-- The track takes the group of a keyframe and the init frame in front of it.
def writesInit : SinkOp → Bool
  | .push frag writes => frag.flags.keyframe && writes.group.isSome && writes.init
  | _ => false

-- The payloads are in the numbered files, one in each and nothing else in any.
def MediaRecorded (task : Task) (track : List Group) (payloads : List Bytes) : Prop :=
  ∀ place, contents (task.segmentPath (task.segmentSeq + place + 1)) (task.recordTrack track) = payloads[place]?

structure Recorded (task : Task) (track : List Group) (init : Bytes) (payloads : List Bytes) : Prop where
  init : contents task.initPath (task.recordTrack track) = some init
  media : MediaRecorded task track payloads

namespace Task

theorem segments_written (task : Task) (frames : List Bytes) (hasInit : task.initWritten = true) :
    contents task.initPath (task.writes frames) = none ∧ ∀ segmentSeq,
      contents (task.segmentPath segmentSeq) (task.writes frames) =
        if task.segmentSeq < segmentSeq then frames[segmentSeq - task.segmentSeq - 1]? else none := by
  induction frames generalizing task with
  | nil => exact ⟨rfl, fun segmentSeq => by simp [writes, contents]⟩
  | cons bytes rest ih =>
      have isSegment : task.takesInit bytes = false := by simp [takesInit, hasInit]
      have path : task.framePath bytes = task.segmentPath (task.segmentSeq + 1) := by simp [framePath, isSegment]
      have next : task.advance bytes = { task with segmentSeq := task.segmentSeq + 1 } := by simp [advance, isSegment]
      obtain ⟨noInit, numbered⟩ := ih { task with segmentSeq := task.segmentSeq + 1 } hasInit
      rw [writes, path, next]
      refine ⟨?_, fun segmentSeq => ?_⟩
      · have apart := (task.init_path_not_segment task (task.segmentSeq + 1)).symm
        rw [contents, if_neg apart]
        exact (Option.or_none).trans noInit
      · have later : contents (task.segmentPath segmentSeq) (writes { task with segmentSeq := task.segmentSeq + 1 } rest) =
            if task.segmentSeq + 1 < segmentSeq then rest[segmentSeq - (task.segmentSeq + 1) - 1]? else none :=
          numbered segmentSeq
        have isPath : task.segmentPath (task.segmentSeq + 1) = task.segmentPath segmentSeq ↔
            task.segmentSeq + 1 = segmentSeq := by
          rw [segment_path_iff]
          exact and_iff_right ⟨rfl, rfl⟩
        rw [contents, later]
        simp only [isPath]
        rcases Nat.lt_trichotomy (task.segmentSeq + 1) segmentSeq with behind | here | before
        · obtain ⟨place, rfl⟩ := Nat.exists_eq_add_of_lt behind
          rw [if_pos behind, if_neg (by omega), if_pos (by omega), Option.or_none,
            show task.segmentSeq + 1 + place + 1 - task.segmentSeq - 1 = place + 1 by omega, List.getElem?_cons_succ,
            show task.segmentSeq + 1 + place + 1 - (task.segmentSeq + 1) - 1 = place by omega]
        · subst here
          simp
        · rw [if_neg (by omega), if_neg (by omega), if_neg (by omega)]
          rfl

-- An init segment in front leaves its own file; what comes behind it is numbered.
theorem recorded_front (task : Task) (track : List Group) (init : Bytes) (rest payloads : List Bytes)
    (fresh : task.initWritten = false) (isInit : looksLikeInitBytes init = true)
    (frames : track.flatMap Group.frames = init :: rest) :
    contents task.initPath (task.recordTrack track) = some init ∧
      (MediaRecorded task track payloads ↔ rest = payloads) := by
  have takes : task.takesInit init = true := by simp [takesInit, fresh, isInit]
  have path : task.framePath init = task.initPath := by simp [framePath, takes]
  have next : task.advance init = { task with initWritten := true } := by simp [advance, takes]
  obtain ⟨noInit, numbered⟩ := segments_written { task with initWritten := true } rest rfl
  have written : task.recordTrack track = (task.initPath, init) :: writes { task with initWritten := true } rest := by
    rw [recordTrack, frames, writes, path, next]
  have initHeld : contents task.initPath (task.recordTrack track) = some init := by
    rw [written, contents, if_pos rfl]
    exact (congrArg (Option.or · _) noInit).trans rfl
  have mediaHeld (place : Nat) :
      contents (task.segmentPath (task.segmentSeq + place + 1)) (task.recordTrack track) = rest[place]? := by
    have index : task.segmentSeq + place + 1 - task.segmentSeq - 1 = place := by omega
    have held : contents (task.segmentPath (task.segmentSeq + place + 1)) (writes { task with initWritten := true } rest) =
        if task.segmentSeq < task.segmentSeq + place + 1 then rest[task.segmentSeq + place + 1 - task.segmentSeq - 1]?
        else none := numbered (task.segmentSeq + place + 1)
    rw [if_pos (by omega), index] at held
    rw [written, contents, if_neg (task.init_path_not_segment task _), Option.or_none]
    exact held
  refine ⟨initHeld, fun media => ?_, fun same => same ▸ mediaHeld⟩
  exact List.ext_getElem?_iff.mpr fun place => (mediaHeld place).symm.trans (media place)

end Task

-- The frames of a track: nothing, or an init segment in front, the payloads among
-- them, and so many init segments.
structure Holds (init : Bytes) (frames payloads : List Bytes) (inits : Nat) : Prop where
  leads : frames = [] ∨ ∃ rest, frames = init :: rest
  media : (frames.filter fun frame => !looksLikeInitBytes frame) = payloads
  counted : frames.countP looksLikeInitBytes = inits

theorem starts_moof_media (payload : Bytes) (starts : startsMoof payload = true) :
    looksLikeInitBytes payload = false := by
  simp only [startsMoof, Bool.and_eq_true, decide_eq_true_eq] at starts
  simp [looksLikeInitBytes, starts.2]

end Lvqr.Record

namespace Lvqr.Moq.MoqTrackSink

open Record (Holds MediaUnder writesInit looksLikeInitBytes startsMoof starts_moof_media)

def frames (sink : MoqTrackSink) : List Bytes := sink.groups.flatMap Group.frames

-- An open group has frames.
structure Tracks (init : Bytes) (sink : MoqTrackSink) (payloads : List Bytes) (inits : Nat) : Prop where
  holds : Holds init sink.frames payloads inits
  opened : sink.currentGroup.isSome = true → sink.frames ≠ []

section Step

variable {init : Bytes} {sink : MoqTrackSink} {payloads : List Bytes} {inits : Nat}

theorem Tracks.same (tracks : Tracks init sink payloads inits) (after : MoqTrackSink)
    (frames : after.frames = sink.frames) (opened : after.currentGroup.isSome = true → sink.currentGroup.isSome = true) :
    Tracks init after (payloads ++ []) (inits + 0) where
  holds := by
    rw [frames, List.append_nil]
    exact tracks.holds
  opened := fun isOpen => frames ▸ tracks.opened (opened isOpen)

theorem Tracks.grown (tracks : Tracks init sink payloads inits) (after : MoqTrackSink) (added more : List Bytes)
    (others : Nat) (frames : after.frames = sink.frames ++ added)
    (leads : sink.frames ≠ [] ∨ ∃ rest, added = init :: rest) (nonempty : added ≠ [])
    (media : (added.filter fun frame => !looksLikeInitBytes frame) = more)
    (counted : added.countP looksLikeInitBytes = others) :
    Tracks init after (payloads ++ more) (inits + others) where
  holds :=
    { leads := by
        rw [frames]
        rcases tracks.holds.leads with none | ⟨rest, first⟩
        · obtain ⟨rest, first⟩ := leads.resolve_left (fun some => some none)
          exact .inr ⟨rest, by rw [none, first]; rfl⟩
        · exact .inr ⟨rest ++ added, by rw [first]; rfl⟩
      media := by rw [frames, List.filter_append, tracks.holds.media, media]
      counted := by rw [frames, List.countP_append, tracks.holds.counted, counted] }
  opened := fun _ => by
    rw [frames]
    exact List.append_ne_nil_of_right_ne_nil _ nonempty

theorem finish_frames : sink.finishCurrentGroup.frames = sink.frames := by
  simp [frames, groups, finishCurrentGroup]

theorem keyframe_tracks (isInit : looksLikeInitBytes init = true) (frag : Fragment) (sequence : Nat) (writes : Writes)
    (tracks : Tracks init sink payloads inits) (starts : startsMoof frag.payload = true)
    (closed : sink.currentGroup = none) (holdsInit : sink.info.initSegment = some init) :
    Tracks init (sink.pushKeyframe frag.payload sequence writes).1
      (payloads ++ (if (sink.pushKeyframe frag.payload sequence writes).2.isWritten then [frag] else []).map
        Fragment.payload)
      (inits + if writes.init then 1 else 0) := by
  have plain := starts_moof_media frag.payload starts
  by_cases initWritten : writes.init = true
  · by_cases payloadWritten : writes.payload = true
    · have opened : sink.pushKeyframe frag.payload sequence writes =
          ({ sink with currentGroup := some ⟨sequence, [init, frag.payload]⟩ }, .opened sequence) := by
        simp [pushKeyframe, holdsInit, initWritten, payloadWritten]
      rw [opened, initWritten]
      refine tracks.grown _ [init, frag.payload] [frag.payload] 1 ?_ (.inr ⟨_, rfl⟩) (List.cons_ne_nil _ _) ?_ ?_
      · simp [frames, groups, closed]
      · simp [isInit, plain]
      · simp [isInit, plain]
    · have left : sink.pushKeyframe frag.payload sequence writes =
          ({ sink with track := sink.track ++ [⟨sequence, [init]⟩] }, .failed .writeFrame) := by
        simp [pushKeyframe, holdsInit, initWritten, payloadWritten]
      rw [left, initWritten]
      refine tracks.grown _ [init] [] 1 ?_ (.inr ⟨_, rfl⟩) (List.cons_ne_nil _ _) ?_ ?_
      · simp [frames, groups, closed]
      · simp [isInit]
      · simp [isInit]
  · have left : sink.pushKeyframe frag.payload sequence writes =
        ({ sink with track := sink.track ++ [⟨sequence, []⟩] }, .failed .writeFrame) := by
      simp [pushKeyframe, holdsInit, initWritten]
    rw [left, if_neg initWritten]
    exact tracks.same _ (by simp [frames, groups, closed]) id

theorem push_tracks (isInit : looksLikeInitBytes init = true) (frag : Fragment) (writes : Writes)
    (tracks : Tracks init sink payloads inits) (media : MediaUnder init sink (.push frag writes)) :
    Tracks init (sink.push frag writes).1
      (payloads ++ (if (sink.push frag writes).2.isWritten then [frag] else []).map Fragment.payload)
      (inits + if writesInit (.push frag writes) then 1 else 0) := by
  have plain := starts_moof_media frag.payload media.1
  have closed := tracks.same sink.finishCurrentGroup finish_frames nofun
  by_cases isKeyframe : frag.flags.keyframe = true
  · have holdsInit : sink.finishCurrentGroup.info.initSegment = some init := media.2 isKeyframe
    rw [push, if_pos isKeyframe, writesInit, isKeyframe, Bool.true_and]
    cases writes.group with
    | none => exact closed
    | some sequence =>
        have grown :=
          keyframe_tracks isInit frag sequence writes (tracks.same _ finish_frames nofun) media.1 rfl holdsInit
        rw [List.append_nil] at grown
        exact grown
  · rw [push, if_neg isKeyframe, writesInit, Bool.eq_false_iff.mpr isKeyframe, Bool.false_and, Bool.false_and]
    cases current : sink.currentGroup with
    | none => exact tracks.same sink rfl id
    | some group =>
        dsimp only
        split
        · refine tracks.grown _ [frag.payload] [frag.payload] 0 ?_ (.inl ?_) (List.cons_ne_nil _ _) ?_ ?_
          · simp [frames, groups, current]
          · exact tracks.opened (by rw [current]; rfl)
          · simp [plain]
          · simp [plain]
        · exact tracks.same sink rfl id

theorem apply_tracks (isInit : looksLikeInitBytes init = true) (op : SinkOp) (tracks : Tracks init sink payloads inits)
    (media : MediaUnder init sink op) :
    Tracks init (sink.apply op) (payloads ++ (sink.writtenBy op).map Fragment.payload)
      (inits + if writesInit op then 1 else 0) := by
  cases op with
  | setInitSegment init => exact tracks.same _ rfl id
  | push frag writes => exact push_tracks isInit frag writes tracks media
  | finishCurrentGroup => exact tracks.same _ finish_frames nofun

end Step

theorem run_tracks (init : Bytes) (isInit : looksLikeInitBytes init = true) (sink : MoqTrackSink) (ops : List SinkOp)
    (payloads : List Bytes) (inits : Nat) (tracks : Tracks init sink payloads inits)
    (media : Machine.AllSteps (MediaUnder init) apply sink ops) :
    Tracks init (Machine.run apply sink ops) (payloads ++ (sink.written ops).map Fragment.payload)
      (inits + ops.countP writesInit) := by
  induction ops generalizing sink payloads inits with
  | nil => exact tracks.same sink rfl id
  | cons op ops ih =>
      have later := ih (sink.apply op) _ _ (apply_tracks isInit op tracks media.1) media.2
      rw [List.append_assoc, ← List.map_append, Nat.add_assoc] at later
      rw [Machine.run_cons, written, List.countP_cons, Nat.add_comm (List.countP writesInit ops)]
      exact later

end Lvqr.Moq.MoqTrackSink

namespace Lvqr.Record

open Paths
open Moq (Fragment MoqTrackSink SinkOp Writes)

theorem media_recorded_iff (task : Task) (track : List Moq.Group) (init : Bytes) (payloads : List Bytes) (inits : Nat)
    (fresh : task.initWritten = false) (isInit : looksLikeInitBytes init = true)
    (holds : Holds init (track.flatMap Moq.Group.frames) payloads inits) :
    (contents task.initPath (task.recordTrack track) = some init ↔ 1 ≤ inits) ∧
      (MediaRecorded task track payloads ↔ inits ≤ 1) := by
  obtain ⟨leads, rfl, rfl⟩ := holds
  rcases leads with none | ⟨rest, first⟩
  · have nothing : task.recordTrack track = [] := by rw [Task.recordTrack, none]; rfl
    rw [MediaRecorded, nothing, none]
    exact ⟨iff_of_false nofun (by decide), iff_of_true (fun _ => rfl) (by decide)⟩
  · obtain ⟨held, numbered⟩ := task.recorded_front track init rest
      (rest.filter fun frame => !looksLikeInitBytes frame) fresh isInit first
    rw [first, List.countP_cons_of_pos isInit, List.filter_cons_of_neg (by simp [isInit]), numbered, eq_comm (a := rest),
      List.filter_eq_self]
    refine ⟨iff_of_true held (Nat.le_add_left 1 _), ?_⟩
    rw [Nat.succ_le_succ_iff, Nat.le_zero, List.countP_eq_zero]
    simp only [Bool.not_eq_true, Bool.not_eq_true']

section Track

variable (info : FragmentMeta) (init : Bytes) (ops : List SinkOp) (isInit : looksLikeInitBytes init = true)
  (media : Machine.AllSteps (MediaUnder init) MoqTrackSink.apply (.new info) ops)

include isInit media

theorem track_holds : Holds init ((Machine.run MoqTrackSink.apply (.new info) ops).groups.flatMap Moq.Group.frames)
    (((MoqTrackSink.new info).written ops).map Fragment.payload) (ops.countP writesInit) := by
  have start : MoqTrackSink.Tracks init (.new info) [] 0 := ⟨⟨.inl rfl, rfl, rfl⟩, nofun⟩
  have ran := (MoqTrackSink.run_tracks init isInit (.new info) ops [] 0 start media).holds
  rw [List.nil_append, Nat.zero_add] at ran
  exact ran

-- The init segment is in its file once the sink has written a group, and it is a media
-- segment too once there are two.
theorem track_recorded_iff (call : Nat) (trackName : String) (dir : Path) :
    (Recorded ⟨call, trackName, dir, 0, false, false⟩ (Machine.run MoqTrackSink.apply (.new info) ops).groups init
        (((MoqTrackSink.new info).written ops).map Fragment.payload) ↔ ops.countP writesInit = 1) ∧
      (MediaRecorded ⟨call, trackName, dir, 0, false, false⟩ (Machine.run MoqTrackSink.apply (.new info) ops).groups
        (((MoqTrackSink.new info).written ops).map Fragment.payload) ↔ ops.countP writesInit ≤ 1) := by
  have recorded := media_recorded_iff ⟨call, trackName, dir, 0, false, false⟩ _ init _ _ rfl isInit
    (track_holds info init ops isInit media)
  refine ⟨⟨fun both => ?_, fun single => ?_⟩, recorded.2⟩
  · exact Nat.le_antisymm (recorded.2.mp both.media) (recorded.1.mp both.init)
  · exact ⟨recorded.1.mpr (Nat.le_of_eq single.symm), recorded.2.mpr (Nat.le_of_eq single)⟩

end Track

def ftypBox : Bytes := [0, 0, 0, 8, 0x66, 0x74, 0x79, 0x70]

def moofPush (keyframe : Bool) (place : UInt8) : SinkOp :=
  .push ⟨"0.mp4", 0, 0, 0, 0, 0, 3000, .ofKeyframe keyframe, [0, 0, 0, 9, 0x6D, 0x6F, 0x6F, 0x66, place], 0⟩
    ⟨some place.toNat, true, true⟩

theorem single_group_recorded :
    Recorded ⟨0, "0.mp4", ["recordings".toList], 0, false, false⟩
      (Machine.run MoqTrackSink.apply (.new (.new "avc1" 90000))
        [moofPush false 0, .setInitSegment ftypBox, moofPush true 1, moofPush false 2]).groups ftypBox
      [[0, 0, 0, 9, 0x6D, 0x6F, 0x6F, 0x66, 1], [0, 0, 0, 9, 0x6D, 0x6F, 0x6F, 0x66, 2]] :=
  (track_recorded_iff (.new "avc1" 90000) ftypBox
    [moofPush false 0, .setInitSegment ftypBox, moofPush true 1, moofPush false 2] (by decide) (by decide) 0 "0.mp4"
    ["recordings".toList]).1.mpr (by decide)

-- The init segment of the second group becomes a media segment.
theorem second_group_repeats_init :
    ¬ ∀ (info : FragmentMeta) (init : Bytes) (ops : List SinkOp), looksLikeInitBytes init = true →
      Machine.AllSteps (MediaUnder init) MoqTrackSink.apply (.new info) ops →
        ∀ (call : Nat) (trackName : String) (dir : Path),
          Recorded ⟨call, trackName, dir, 0, false, false⟩ (Machine.run MoqTrackSink.apply (.new info) ops).groups init
            (((MoqTrackSink.new info).written ops).map Fragment.payload) := by
  intro always
  have holds := track_holds (.new "avc1" 90000) ftypBox
    [.setInitSegment ftypBox, moofPush true 1, moofPush true 2] (by decide) (by decide)
  have recorded := always (.new "avc1" 90000) ftypBox
    [.setInitSegment ftypBox, moofPush true 1, moofPush true 2] (by decide) (by decide) 0 "0.mp4" ["recordings".toList]
  have single := (media_recorded_iff _ _ ftypBox _ _ rfl (by decide) holds).2.mp recorded.media
  exact absurd single (by decide)

end Lvqr.Record
