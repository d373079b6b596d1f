import Mathlib.Algebra.Group.Nat.Defs
import Mathlib.Data.List.Sort
import Lvqr.Lib.Table
import Lvqr.Bytes
import Lvqr.Fragment.Broadcaster

set_option autoImplicit false

-- The segment index of the archive and the files its rows point at.
namespace Lvqr.Archive

structure SegmentRef where
  broadcast : String
  track : String
  segmentSeq : Nat
  startDts : Nat
  endDts : Nat
  timescale : Nat
  keyframeStart : Bool
  path : String
  byteOffset : Nat
  length : Nat
deriving DecidableEq, Repr

-- The compound key of a row. Its encoding caps the names at 65535 bytes.
structure SegmentKey where
  broadcast : String
  track : String
  startDts : Nat
deriving DecidableEq, Repr

def SegmentRef.key (segment : SegmentRef) : SegmentKey := ⟨segment.broadcast, segment.track, segment.startDts⟩

-- `task` is the blocking task that recorded the row, kept beside it.
structure IndexEntry where
  row : SegmentRef
  task : Nat
deriving DecidableEq, Repr

inductive ArchiveError where
  | corrupt (message : String)
deriving DecidableEq, Repr

abbrev SegmentIndex := Table SegmentKey IndexEntry

def u64Max : Nat := 2 ^ 64 - 1

def u16Max : Nat := 2 ^ 16 - 1

def encodeKey (broadcast track : String) (startDts : Nat) : Except ArchiveError SegmentKey :=
  if broadcast.utf8ByteSize > u16Max then .error (.corrupt "broadcast name exceeds 65535 bytes")
  else if track.utf8ByteSize > u16Max then .error (.corrupt "track name exceeds 65535 bytes")
  else .ok ⟨broadcast, track, startDts⟩

def IndexEntry.StartsBefore (first second : IndexEntry) : Prop := first.row.startDts ≤ second.row.startDts

instance : DecidableRel IndexEntry.StartsBefore := fun first second =>
  inferInstanceAs (Decidable (first.row.startDts ≤ second.row.startDts))

instance : IsTrans IndexEntry IndexEntry.StartsBefore := ⟨fun _ _ _ early late => Nat.le_trans early late⟩

instance : Std.Total IndexEntry.StartsBefore := ⟨fun first second => Nat.le_total first.row.startDts second.row.startDts⟩

namespace SegmentIndex

def record (index : SegmentIndex) (task : Nat) (segment : SegmentRef) : Except ArchiveError SegmentIndex :=
  if segment.endDts ≤ segment.startDts then
    .error (.corrupt s!"segment end_dts {segment.endDts} must be > start_dts {segment.startDts}")
  else
    match encodeKey segment.broadcast segment.track segment.startDts with
    | .error error => .error error
    | .ok key => .ok (index.insert key ⟨segment, task⟩)

-- The rows of one stream that start in `[low, high)`, in the order of their keys.
def scan (index : SegmentIndex) (broadcast track : String) (low high : Nat) : List IndexEntry :=
  let rows := (index.entries.map Sigma.snd).filter fun entry =>
    entry.row.broadcast = broadcast && entry.row.track = track && low ≤ entry.row.startDts && entry.row.startDts < high
  rows.insertionSort IndexEntry.StartsBefore

def findRange (index : SegmentIndex) (broadcast track : String) (queryStart queryEnd : Nat) :
    Except ArchiveError (List IndexEntry) :=
  if queryEnd ≤ queryStart then .ok []
  else
    match encodeKey broadcast track queryStart with
    | .error error => .error error
    | .ok _ =>
        let leading := ((index.scan broadcast track 0 queryStart).getLast?.filter fun entry =>
          queryStart < entry.row.endDts).toList
        .ok (leading ++ index.scan broadcast track queryStart queryEnd)

end SegmentIndex

-- An absolute part replaces what it is joined to.
def joinPath (base part : String) : String :=
  if part.toList.head? = some '/' then part
  else if base = "" || base.toList.getLast? = some '/' then base ++ part
  else base ++ "/" ++ part

def segmentFilenameWidth : Nat := 8

def segmentFilename (seq : Nat) : String :=
  let digits := toString seq
  String.ofList (List.replicate (segmentFilenameWidth - digits.length) '0') ++ digits ++ ".m4s"

def segmentPath (archiveDir broadcast track : String) (seq : Nat) : String :=
  joinPath (joinPath (joinPath archiveDir broadcast) track) (segmentFilename seq)

def initSegmentPath (archiveDir broadcast track : String) : String :=
  joinPath (joinPath (joinPath archiveDir broadcast) track) "init.mp4"

-- The bytes of a file a row stands for, none where the file is too short.
def slice (file : Bytes) (offset length : Nat) : Option Bytes :=
  if offset + length ≤ file.length then some ((file.drop offset).take length) else none

theorem slice_eq_prefix (file payload : Bytes) :
    slice file 0 payload.length = some payload ↔ payload <+: file := by
  rw [slice, Nat.zero_add, List.drop_zero]
  constructor
  · intro whole
    split at whole
    · rw [Option.some.injEq] at whole
      exact whole ▸ List.take_prefix _ _
    · cases whole
  · intro isPrefix
    rw [if_pos isPrefix.length_le, List.prefix_iff_eq_take.mp isPrefix, List.length_take,
      Nat.min_eq_left isPrefix.length_le]

-- The archive indexer: one drain a (broadcast, track) entry of the registry, and the
-- blocking tasks it hands its fragments to.

inductive DrainPhase where
  | draining
  | terminated
  | killed
deriving DecidableEq, Repr

-- `init` is the init segment the drain has persisted.
structure Drain where
  broadcast : String
  track : String
  timescale : Nat
  segmentSeq : Nat
  init : Option Bytes
  phase : DrainPhase
deriving DecidableEq, Repr

-- A refused task is one whose row the index did not take, a lost one died with its
-- process.
inductive TaskPhase where
  | queued
  | written
  | recorded
  | refused
  | lost
deriving DecidableEq, Repr

def TaskPhase.ended : TaskPhase → Bool
  | .queued | .written => false
  | .recorded | .refused | .lost => true

structure SegmentTask where
  drain : Nat
  broadcast : String
  track : String
  segmentSeq : Nat
  timescale : Nat
  fragment : Media.Fragment
  phase : TaskPhase
deriving DecidableEq, Repr

-- Where the archive lies, and which file of the file system a path names.
structure ArchiveDir (File : Type) where
  dir : String
  resolve : String → File

structure ArchiveIndexer (File : Type) where
  files : Table File Bytes
  index : SegmentIndex
  drains : List Drain
  tasks : List SegmentTask

-- `fragment` is one turn of the drain loop; `init` is the init segment its refreshed
-- meta holds. A restart keeps the files and the index.
inductive ArchiveOp where
  | entryCreated (broadcast track : String) (timescale : Nat)
  | fragment (drain : Nat) (fragment : Media.Fragment) (init : Option Bytes)
  | writeSegment (task : Nat)
  | record (task : Nat)
  | close (drain : Nat)
  | restart
deriving DecidableEq, Repr

def SegmentTask.row {File : Type} (env : ArchiveDir File) (task : SegmentTask) : SegmentRef where
  broadcast := task.broadcast
  track := task.track
  segmentSeq := task.segmentSeq
  startDts := task.fragment.dts
  endDts := min (task.fragment.dts + task.fragment.duration) u64Max
  timescale := task.timescale
  keyframeStart := task.fragment.flags.keyframe
  path := segmentPath env.dir task.broadcast task.track task.segmentSeq
  byteOffset := 0
  length := task.fragment.payload.length

-- What the drain writes to init.mp4 on this turn.
def Drain.unpersisted (drain : Drain) (init : Option Bytes) : Option Bytes :=
  if drain.init.isSome then none else init

namespace ArchiveIndexer

variable {File : Type} [DecidableEq File]

def new : ArchiveIndexer File := ⟨∅, ∅, [], []⟩

def writeFile (env : ArchiveDir File) (archive : ArchiveIndexer File) (path : String) (bytes : Bytes) :
    ArchiveIndexer File :=
  { archive with files := archive.files.insert (env.resolve path) bytes }

def persistInit (env : ArchiveDir File) (archive : ArchiveIndexer File) (drain : Drain) (init : Option Bytes) :
    ArchiveIndexer File :=
  match drain.unpersisted init with
  | some bytes => archive.writeFile env (initSegmentPath env.dir drain.broadcast drain.track) bytes
  | none => archive

def drainFragment (env : ArchiveDir File) (archive : ArchiveIndexer File) (index : Nat) (drain : Drain)
    (fragment : Media.Fragment) (init : Option Bytes) : ArchiveIndexer File :=
  let persisted := archive.persistInit env drain init
  let drain := { drain with init := drain.init.or init }
  if fragment.duration = 0 then { persisted with drains := persisted.drains.set index drain }
  else
    { persisted with
      drains := persisted.drains.set index { drain with segmentSeq := drain.segmentSeq + 1 }
      tasks := persisted.tasks ++
        [⟨index, drain.broadcast, drain.track, drain.segmentSeq + 1, drain.timescale, fragment, .queued⟩] }

def setPhase (archive : ArchiveIndexer File) (index : Nat) (task : SegmentTask) (phase : TaskPhase) : ArchiveIndexer File :=
  { archive with tasks := archive.tasks.set index { task with phase := phase } }

def writeSegment (env : ArchiveDir File) (archive : ArchiveIndexer File) (index : Nat) (task : SegmentTask) : ArchiveIndexer File :=
  if task.phase = .queued then
    (archive.writeFile env (task.row env).path task.fragment.payload).setPhase index task .written
  else archive

def recordSegment (env : ArchiveDir File) (archive : ArchiveIndexer File) (index : Nat) (task : SegmentTask) : ArchiveIndexer File :=
  if task.phase = .written then
    match archive.index.record index (task.row env) with
    | .ok rows => { archive with index := rows }.setPhase index task .recorded
    | .error _ => archive.setPhase index task .refused
  else archive

def restart (archive : ArchiveIndexer File) : ArchiveIndexer File :=
  { archive with
    drains := archive.drains.map fun drain => { drain with phase := .killed }
    tasks := archive.tasks.map fun task => if task.phase.ended then task else { task with phase := .lost } }

def step (env : ArchiveDir File) (archive : ArchiveIndexer File) : ArchiveOp → ArchiveIndexer File
  | .entryCreated broadcast track timescale =>
      { archive with drains := archive.drains ++ [⟨broadcast, track, timescale, 0, none, .draining⟩] }
  | .fragment index fragment init =>
      match archive.drains[index]? with
      | some drain =>
          if drain.phase = .draining then archive.drainFragment env index drain fragment init else archive
      | none => archive
  | .writeSegment index =>
      match archive.tasks[index]? with
      | some task => archive.writeSegment env index task
      | none => archive
  | .record index =>
      match archive.tasks[index]? with
      | some task => archive.recordSegment env index task
      | none => archive
  | .close index =>
      match archive.drains[index]? with
      | some drain =>
          if drain.phase = .draining then
            { archive with drains := archive.drains.set index { drain with phase := .terminated } }
          else archive
      | none => archive
  | .restart => archive.restart

end ArchiveIndexer

end Lvqr.Archive
