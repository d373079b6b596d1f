import Lvqr.Bytes
import Lvqr.Lib.Decimal
import Lvqr.Lib.Machine
import Lvqr.Lib.Paths

set_option autoImplicit false

-- The recorder: each call makes a directory from the broadcast's name and runs one
-- task a track, which writes every frame it reads into a file of its own.
namespace Lvqr.Record

open Paths

def isControl (char : Char) : Bool := char.toNat < 32 || (127 ≤ char.toNat && char.toNat < 160)

def replaceDotDot : List Char → List Char
  | '.' :: '.' :: rest => '_' :: replaceDotDot rest
  | char :: rest => char :: replaceDotDot rest
  | [] => []

def sanitizeName (name : String) : List Char :=
  let noControls := name.toList.filter fun char => !isControl char
  replaceDotDot (noControls.map fun char => if char = '/' ∨ char = '\\' then '_' else char)

def trackPrefix (trackName : String) : List Char := trackName.toList.takeWhile (· ≠ '.')

def looksLikeInitBytes (bytes : Bytes) : Bool :=
  8 ≤ bytes.length && (bytes.drop 4).take 4 = [0x66, 0x74, 0x79, 0x70]

def initSuffix : List Char := ".init.mp4".toList

def segmentSuffix (segmentSeq : Nat) : List Char := ("." ++ Decimal.padLeft 4 segmentSeq ++ ".m4s").toList

structure Task where
  call : Nat
  trackName : String
  dir : Path
  segmentSeq : Nat
  initWritten : Bool
  ended : Bool
deriving DecidableEq, Repr

namespace Task

def initPath (task : Task) : Path := join task.dir (trackPrefix task.trackName ++ initSuffix)

def segmentPath (task : Task) (segmentSeq : Nat) : Path :=
  join task.dir (trackPrefix task.trackName ++ segmentSuffix segmentSeq)

def takesInit (task : Task) (bytes : Bytes) : Bool := !task.initWritten && looksLikeInitBytes bytes

def framePath (task : Task) (bytes : Bytes) : Path :=
  if task.takesInit bytes then task.initPath else task.segmentPath (task.segmentSeq + 1)

def advance (task : Task) (bytes : Bytes) : Task :=
  if task.takesInit bytes then { task with initWritten := true } else { task with segmentSeq := task.segmentSeq + 1 }

end Task

-- What the file system makes of a write: no file, a file that breaks off, or all
-- of it. The first two end the task.
inductive Creation where
  | refused
  | broken
  | complete
deriving DecidableEq, Repr

structure WrittenFile where
  path : Path
  call : Nat
  trackName : String
deriving DecidableEq, Repr

structure BroadcastRecorder where
  baseDir : Path
  calls : Nat
  tasks : List Task
  files : List WrittenFile
deriving DecidableEq, Repr

-- A track comes with whether the broadcast lets the recorder subscribe to it.
inductive RecordOp where
  | recordBroadcast (broadcastName : String) (tracks : List (String × Bool)) (created : Bool)
  | frame (index : Nat) (bytes : Bytes) (creation : Creation)
  | stop (index : Nat)
deriving DecidableEq, Repr

namespace BroadcastRecorder

def new (baseDir : Path) : BroadcastRecorder := ⟨baseDir, 0, [], []⟩

def broadcastDir (recorder : BroadcastRecorder) (broadcastName : String) : Path :=
  join recorder.baseDir (sanitizeName broadcastName)

def trackTasks (recorder : BroadcastRecorder) (broadcastName : String) (tracks : List (String × Bool)) : List Task :=
  (tracks.filter Prod.snd).map fun track =>
    ⟨recorder.calls, track.1, recorder.broadcastDir broadcastName, 0, false, false⟩

def recordBroadcast (recorder : BroadcastRecorder) (broadcastName : String) (tracks : List (String × Bool))
    (created : Bool) : BroadcastRecorder :=
  { recorder with
    calls := recorder.calls + 1
    tasks := recorder.tasks ++ if created then recorder.trackTasks broadcastName tracks else [] }

def write (recorder : BroadcastRecorder) (index : Nat) (task : Task) (bytes : Bytes) : Creation → BroadcastRecorder
  | .refused => { recorder with tasks := recorder.tasks.set index { task with ended := true } }
  | .broken =>
      { recorder with
        tasks := recorder.tasks.set index { task.advance bytes with ended := true }
        files := recorder.files ++ [⟨task.framePath bytes, task.call, task.trackName⟩] }
  | .complete =>
      { recorder with
        tasks := recorder.tasks.set index (task.advance bytes)
        files := recorder.files ++ [⟨task.framePath bytes, task.call, task.trackName⟩] }

def step (recorder : BroadcastRecorder) : RecordOp → BroadcastRecorder
  | .recordBroadcast broadcastName tracks created => recorder.recordBroadcast broadcastName tracks created
  | .frame index bytes creation =>
      match recorder.tasks[index]? with
      | none => recorder
      | some task => if task.ended then recorder else recorder.write index task bytes creation
  | .stop index =>
      match recorder.tasks[index]? with
      | none => recorder
      | some task => { recorder with tasks := recorder.tasks.set index { task with ended := true } }

end BroadcastRecorder

theorem track_prefix_dotless (trackName : String) : '.' ∉ trackPrefix trackName := by
  intro member
  have kept := List.all_eq_true.mp List.all_takeWhile _ member
  simp at kept

-- A suffix that starts at its first dot and names a file.
structure Suffix (suffix : List Char) : Prop where
  dotted : ∃ rest, suffix = '.' :: rest
  flat : '/' ∉ suffix
  long : 1 < suffix.length

theorem init_suffix : Suffix initSuffix := ⟨⟨_, rfl⟩, by decide, by decide⟩

theorem segment_suffix_chars (segmentSeq : Nat) :
    segmentSuffix segmentSeq = '.' :: ((Decimal.padLeft 4 segmentSeq).toList ++ ".m4s".toList) := by
  simp [segmentSuffix]

theorem segment_suffix (segmentSeq : Nat) : Suffix (segmentSuffix segmentSeq) where
  dotted := ⟨_, segment_suffix_chars segmentSeq⟩
  flat := by
    rw [segment_suffix_chars]
    intro slash
    rcases List.mem_cons.mp slash with dot | rest
    · exact absurd dot (by decide)
    · cases List.mem_append.mp rest with
      | inl digit => exact absurd (Decimal.pad_left_digits 4 segmentSeq _ digit) (by decide)
      | inr tail => exact absurd tail (by decide)
  long := by
    rw [segment_suffix_chars, List.length_cons, List.length_append, show ".m4s".toList.length = 4 from rfl]
    omega

theorem segment_suffix_injective (first second : Nat) (same : segmentSuffix first = segmentSuffix second) :
    first = second := by
  rw [segment_suffix_chars, segment_suffix_chars] at same
  have padded := List.append_cancel_right (List.cons.inj same).2
  rw [← Decimal.pad_left_value 4 first, padded, Decimal.pad_left_value 4 second]

theorem init_not_segment (segmentSeq : Nat) : initSuffix ≠ segmentSuffix segmentSeq := by
  intro same
  rw [segment_suffix_chars] at same
  have letter : 'i' ∈ ((Decimal.padLeft 4 segmentSeq).toList ++ ".m4s".toList) := by
    rw [← (List.cons.inj same).2]
    decide
  cases List.mem_append.mp letter with
  | inl digit => exact absurd (Decimal.pad_left_digits 4 segmentSeq _ digit) (by decide)
  | inr tail => exact absurd tail (by decide)

end Lvqr.Record
