import Lvqr.Record.Recorder

set_option autoImplicit false

-- Which runs of the recorder keep their files inside the base directory and apart.
namespace Lvqr.Record

open Paths

def Inside (baseDir path : Path) : Prop := baseDir <+: path.dropLast

instance (baseDir path : Path) : Decidable (Inside baseDir path) := inferInstanceAs (Decidable (_ <+: _))

-- Nothing lies outside the base directory, and no file was written by two calls or
-- for two tracks.
structure Isolated (recorder : BroadcastRecorder) : Prop where
  inside : ∀ file ∈ recorder.files, Inside recorder.baseDir file.path
  apart : ∀ file ∈ recorder.files, ∀ other ∈ recorder.files, file.path = other.path →
    file.call = other.call ∧ file.trackName = other.trackName

namespace Task

def SameWriter (task other : Task) : Prop := task.call = other.call ∧ task.trackName = other.trackName

-- The files of both begin alike: in one directory, with one prefix.
def SameStem (task other : Task) : Prop :=
  folder task.dir (trackPrefix task.trackName) = folder other.dir (trackPrefix other.trackName) ∧
    fileName (trackPrefix task.trackName) = fileName (trackPrefix other.trackName)

-- A track whose name starts at the root leaves the directory of its broadcast.
def Stays (task : Task) (baseDir : Path) : Prop :=
  task.trackName.toList.head? = some '/' → baseDir <+: components (parent (trackPrefix task.trackName))

instance (task other : Task) : Decidable (task.SameWriter other) := inferInstanceAs (Decidable (_ ∧ _))

instance (task other : Task) : Decidable (task.SameStem other) := inferInstanceAs (Decidable (_ ∧ _))

instance (task : Task) (baseDir : Path) : Decidable (task.Stays baseDir) := inferInstanceAs (Decidable (_ → _))

end Task

-- A write stays apart if the tasks of other calls and tracks that share its
-- directory and prefix have written nothing of its kind.
def Apart (recorder : BroadcastRecorder) : RecordOp → Prop
  | .recordBroadcast _ _ _ => True
  | .frame index bytes creation =>
      ∀ task ∈ recorder.tasks[index]?, task.ended = false → creation ≠ .refused →
        task.Stays recorder.baseDir ∧
          ∀ other ∈ recorder.tasks, task.SameStem other → ¬ task.SameWriter other →
            if task.takesInit bytes then other.initWritten = false else other.segmentSeq = 0
  | .stop _ => True

instance (recorder : BroadcastRecorder) : (op : RecordOp) → Decidable (Apart recorder op)
  | .recordBroadcast _ _ _ => inferInstanceAs (Decidable True)
  | .frame _ _ _ => inferInstanceAs (Decidable (∀ _ ∈ _, _ → _ → _ ∧ ∀ _ ∈ _, _ → _ → ite _ _ _))
  | .stop _ => inferInstanceAs (Decidable True)

theorem file_name_subset (text : List Char) : fileName text ⊆ text := by
  rw [fileName]
  split
  · rename_i front back found
    rw [(Text.rsplit_once_some '/' text front back found).1]
    exact fun char member => List.mem_append_right _ (List.mem_cons_of_mem _ member)
  · exact fun char member => member

theorem file_name_dotless (trackName : String) : '.' ∉ fileName (trackPrefix trackName) :=
  fun member => track_prefix_dotless trackName (file_name_subset _ member)

theorem suffix_join (directory : Path) (trackName : String) (suffix : List Char) (isSuffix : Suffix suffix) :
    join directory (trackPrefix trackName ++ suffix) =
      folder directory (trackPrefix trackName) ++ [fileName (trackPrefix trackName) ++ suffix] :=
  join_append directory _ suffix isSuffix.flat isSuffix.long

theorem dotless_split (first second : List Char) (suffix other : List Char) (isSuffix : Suffix suffix)
    (isOther : Suffix other) (dotless : '.' ∉ first) (otherDotless : '.' ∉ second)
    (same : first ++ suffix = second ++ other) : first = second ∧ suffix = other := by
  obtain ⟨rest, rfl⟩ := isSuffix.dotted
  obtain ⟨tail, rfl⟩ := isOther.dotted
  have split := Text.split_once_append '.' first rest dotless
  rw [same, Text.split_once_append '.' second tail otherDotless, Option.some_inj, Prod.mk.injEq] at split
  exact ⟨split.1.symm, by rw [split.2]⟩

theorem suffix_path_iff (task other : Task) (suffix tail : List Char) (isSuffix : Suffix suffix) (isTail : Suffix tail) :
    join task.dir (trackPrefix task.trackName ++ suffix) = join other.dir (trackPrefix other.trackName ++ tail) ↔
      task.SameStem other ∧ suffix = tail := by
  rw [suffix_join _ _ _ isSuffix, suffix_join _ _ _ isTail, Task.SameStem]
  constructor
  · intro same
    obtain ⟨folders, names⟩ := List.append_inj' same rfl
    obtain ⟨stems, suffixes⟩ := dotless_split _ _ suffix tail isSuffix isTail (file_name_dotless _)
      (file_name_dotless _) (List.singleton_inj.mp names)
    exact ⟨⟨folders, stems⟩, suffixes⟩
  · rintro ⟨⟨folders, stems⟩, suffixes⟩
    rw [folders, stems, suffixes]

namespace Task

variable (task other : Task)

theorem init_path_iff : task.initPath = other.initPath ↔ task.SameStem other := by
  rw [initPath, initPath, suffix_path_iff task other _ _ init_suffix init_suffix]
  exact and_iff_left rfl

theorem segment_path_iff (first second : Nat) :
    task.segmentPath first = other.segmentPath second ↔ task.SameStem other ∧ first = second := by
  rw [segmentPath, segmentPath, suffix_path_iff task other _ _ (segment_suffix first) (segment_suffix second)]
  exact and_congr_right fun _ => ⟨segment_suffix_injective first second, congrArg segmentSuffix⟩

theorem init_path_not_segment (segmentSeq : Nat) : task.initPath ≠ other.segmentPath segmentSeq := by
  intro same
  rw [initPath, segmentPath, suffix_path_iff task other _ _ init_suffix (segment_suffix segmentSeq)] at same
  exact init_not_segment segmentSeq same.2

end Task

theorem suffix_inside_iff (task : Task) (baseDir : Path) (suffix : List Char) (isSuffix : Suffix suffix)
    (below : baseDir <+: task.dir) :
    Inside baseDir (join task.dir (trackPrefix task.trackName ++ suffix)) ↔ task.Stays baseDir := by
  rw [suffix_join _ _ _ isSuffix, Inside, List.dropLast_concat, folder, Task.Stays]
  have rooted : (trackPrefix task.trackName).head? = some '/' ↔ task.trackName.toList.head? = some '/' := by
    rw [trackPrefix]
    cases task.trackName.toList with
    | nil => exact Iff.rfl
    | cons first rest =>
        rw [List.takeWhile_cons]
        split
        · exact Iff.rfl
        · rename_i dot
          have dot : first = '.' := by simpa using dot
          simp [dot]
  by_cases leaves : (trackPrefix task.trackName).head? = some '/'
  · rw [if_pos leaves]
    exact ⟨fun inside _ => inside, fun stays => stays (rooted.mp leaves)⟩
  · rw [if_neg leaves]
    exact ⟨fun _ starts => absurd (rooted.mpr starts) leaves, fun _ => below.trans (List.prefix_append _ _)⟩

theorem frame_inside_iff (task : Task) (baseDir : Path) (bytes : Bytes) (below : baseDir <+: task.dir) :
    Inside baseDir (task.framePath bytes) ↔ task.Stays baseDir := by
  rw [Task.framePath]
  split
  · exact suffix_inside_iff task baseDir _ init_suffix below
  · exact suffix_inside_iff task baseDir _ (segment_suffix _) below

theorem replace_dot_dot_flat (text : List Char) (flat : '/' ∉ text) : '/' ∉ replaceDotDot text := by
  fun_induction replaceDotDot text with
  | case1 rest ih =>
      simp only [List.mem_cons, not_or] at flat ⊢
      exact ⟨by decide, ih flat.2.2⟩
  | case2 char rest _ ih =>
      simp only [List.mem_cons, not_or] at flat ⊢
      exact ⟨flat.1, ih flat.2⟩
  | case3 => exact flat

theorem sanitize_name_flat (name : String) : '/' ∉ sanitizeName name := by
  refine replace_dot_dot_flat _ fun slash => ?_
  obtain ⟨char, _, replaced⟩ := List.mem_map.mp slash
  split at replaced
  · exact absurd replaced (by decide)
  · rename_i kept
    exact kept (.inl replaced)

theorem broadcast_dir_below (recorder : BroadcastRecorder) (broadcastName : String) :
    recorder.baseDir <+: recorder.broadcastDir broadcastName := by
  have unrooted : (sanitizeName broadcastName).head? ≠ some '/' := fun rooted =>
    sanitize_name_flat broadcastName (List.mem_of_head? rooted)
  rw [BroadcastRecorder.broadcastDir, join, if_neg unrooted]
  exact List.prefix_append _ _

def Task.wrote (task : Task) (path : Path) : WrittenFile := ⟨path, task.call, task.trackName⟩

-- What a task has written, read off its counters.
def Task.Wrote (task : Task) (file : WrittenFile) : Prop :=
  (task.initWritten = true ∧ file = task.wrote task.initPath) ∨
    ∃ segmentSeq, 1 ≤ segmentSeq ∧ segmentSeq ≤ task.segmentSeq ∧ file = task.wrote (task.segmentPath segmentSeq)

structure Tracked (recorder : BroadcastRecorder) : Prop where
  below : ∀ task ∈ recorder.tasks, recorder.baseDir <+: task.dir
  written : ∀ file ∈ recorder.files, ∃ task ∈ recorder.tasks, task.Wrote file
  listed : ∀ task ∈ recorder.tasks, ∀ file, task.Wrote file → file ∈ recorder.files

theorem new_tracked (baseDir : Path) : Tracked (.new baseDir) := by
  constructor <;> simp [BroadcastRecorder.new]

theorem mem_set_cases {tasks : List Task} {index : Nat} {old : Task} (new : Task) (found : tasks[index]? = some old)
    (task : Task) (member : task ∈ tasks) : task ∈ tasks.set index new ∨ task = old := by
  obtain ⟨position, here⟩ := List.mem_iff_getElem?.mp member
  by_cases same : index = position
  · rw [same, here] at found
    exact .inr (Option.some.inj found)
  · refine .inl (List.mem_iff_getElem?.mpr ⟨position, ?_⟩)
    rw [List.getElem?_set_ne same, here]

theorem mem_set_new {tasks : List Task} {index : Nat} {old : Task} (new : Task) (found : tasks[index]? = some old) :
    new ∈ tasks.set index new := by
  obtain ⟨bound, _⟩ := List.getElem?_eq_some_iff.mp found
  exact List.mem_set bound new

-- One task writes what it then accounts for, or nothing at all.
theorem replaced_tracked (recorder : BroadcastRecorder) (index : Nat) (old new : Task) (files : List WrittenFile)
    (tracked : Tracked recorder) (found : recorder.tasks[index]? = some old) (dir : new.dir = old.dir)
    (account : ∀ file, new.Wrote file ↔ old.Wrote file ∨ file ∈ files) :
    Tracked { recorder with tasks := recorder.tasks.set index new, files := recorder.files ++ files } where
  below := by
    intro task member
    cases List.mem_or_eq_of_mem_set member with
    | inl kept => exact tracked.below task kept
    | inr replaced =>
        rw [replaced, dir]
        exact tracked.below old (List.mem_of_getElem? found)
  written := by
    intro file member
    cases List.mem_append.mp member with
    | inl before =>
        obtain ⟨task, present, wrote⟩ := tracked.written file before
        cases mem_set_cases new found task present with
        | inl kept => exact ⟨task, kept, wrote⟩
        | inr replaced => exact ⟨new, mem_set_new new found, (account file).mpr (.inl (replaced ▸ wrote))⟩
    | inr fresh => exact ⟨new, mem_set_new new found, (account file).mpr (.inr fresh)⟩
  listed := by
    intro task member file wrote
    cases List.mem_or_eq_of_mem_set member with
    | inl kept => exact List.mem_append_left _ (tracked.listed task kept file wrote)
    | inr replaced =>
        cases (account file).mp (replaced ▸ wrote) with
        | inl before => exact List.mem_append_left _ (tracked.listed old (List.mem_of_getElem? found) file before)
        | inr fresh => exact List.mem_append_right _ fresh

theorem ended_wrote (task : Task) (file : WrittenFile) : ({ task with ended := true } : Task).Wrote file ↔ task.Wrote file :=
  Iff.rfl

theorem advance_wrote (task : Task) (bytes : Bytes) (file : WrittenFile) :
    (task.advance bytes).Wrote file ↔ task.Wrote file ∨ file = task.wrote (task.framePath bytes) := by
  rw [Task.advance, Task.framePath]
  by_cases init : task.takesInit bytes = true
  · have unwritten : task.initWritten = false := by
      rw [Task.takesInit, Bool.and_eq_true, Bool.not_eq_true'] at init
      exact init.1
    rw [if_pos init, if_pos init]
    simp only [Task.Wrote, unwritten, Bool.false_eq_true, false_and, false_or, true_and]
    exact or_comm
  · rw [if_neg init, if_neg init]
    simp only [Task.Wrote]
    rw [or_assoc]
    refine or_congr_right ?_
    constructor
    · rintro ⟨segmentSeq, positive, bounded, same⟩
      by_cases last : segmentSeq = task.segmentSeq + 1
      · exact .inr (last ▸ same)
      · exact .inl ⟨segmentSeq, positive, by omega, same⟩
    · rintro (⟨segmentSeq, positive, bounded, same⟩ | same)
      · exact ⟨segmentSeq, positive, by omega, same⟩
      · exact ⟨task.segmentSeq + 1, by omega, le_rfl, same⟩

theorem write_tracked (recorder : BroadcastRecorder) (index : Nat) (task : Task) (bytes : Bytes) (creation : Creation)
    (tracked : Tracked recorder) (found : recorder.tasks[index]? = some task) :
    Tracked (recorder.write index task bytes creation) := by
  have dir : (task.advance bytes).dir = task.dir := by
    rw [Task.advance]
    split <;> rfl
  have account (file : WrittenFile) : (task.advance bytes).Wrote file ↔
      task.Wrote file ∨ file ∈ [task.wrote (task.framePath bytes)] := by
    rw [advance_wrote, List.mem_singleton]
  cases creation with
  | refused =>
      have kept := replaced_tracked recorder index task { task with ended := true } [] tracked found rfl
        fun file => by simp [ended_wrote]
      rwa [List.append_nil] at kept
  | broken => exact replaced_tracked recorder index task { task.advance bytes with ended := true } _ tracked found dir account
  | complete => exact replaced_tracked recorder index task (task.advance bytes) _ tracked found dir account

theorem record_tracked (recorder : BroadcastRecorder) (broadcastName : String) (tracks : List (String × Bool))
    (created : Bool) (tracked : Tracked recorder) :
    Tracked (recorder.recordBroadcast broadcastName tracks created) := by
  have fresh : ∀ task ∈ (if created then recorder.trackTasks broadcastName tracks else []),
      recorder.baseDir <+: task.dir ∧ ∀ file, ¬ task.Wrote file := by
    intro task member
    split at member
    · obtain ⟨track, _, rfl⟩ := List.mem_map.mp member
      refine ⟨broadcast_dir_below recorder broadcastName, ?_⟩
      rintro file (⟨impossible, _⟩ | ⟨segmentSeq, positive, bounded, _⟩)
      · cases impossible
      · simp only at bounded
        omega
    · cases member
  refine ⟨?_, ?_, ?_⟩
  · intro task member
    exact (List.mem_append.mp member).elim (tracked.below task) fun new => (fresh task new).1
  · intro file member
    obtain ⟨task, present, wrote⟩ := tracked.written file member
    exact ⟨task, List.mem_append_left _ present, wrote⟩
  · intro task member file wrote
    exact (List.mem_append.mp member).elim (fun old => tracked.listed task old file wrote) fun new =>
      absurd wrote ((fresh task new).2 file)

theorem step_tracked (recorder : BroadcastRecorder) (op : RecordOp) (tracked : Tracked recorder) :
    Tracked (recorder.step op) := by
  cases op with
  | recordBroadcast broadcastName tracks created => exact record_tracked recorder broadcastName tracks created tracked
  | frame index bytes creation =>
      rw [BroadcastRecorder.step]
      cases found : recorder.tasks[index]? with
      | none => exact tracked
      | some task =>
          simp only
          split
          · exact tracked
          · exact write_tracked recorder index task bytes creation tracked found
  | stop index =>
      rw [BroadcastRecorder.step]
      cases found : recorder.tasks[index]? with
      | none => exact tracked
      | some task =>
          have kept := replaced_tracked recorder index task { task with ended := true } [] tracked found rfl
            fun file => by simp [ended_wrote]
          rwa [List.append_nil] at kept

-- Two tasks that have written a file of one path share it with all that follow.
theorem shared_of_wrote (recorder : BroadcastRecorder) (isolated : Isolated recorder) (tracked : Tracked recorder)
    (task other : Task) (present : task ∈ recorder.tasks) (there : other ∈ recorder.tasks) (path : Path)
    (wrote : task.Wrote (task.wrote path)) (otherWrote : other.Wrote (other.wrote path)) : task.SameWriter other :=
  isolated.apart _ (tracked.listed task present _ wrote) _ (tracked.listed other there _ otherWrote) rfl

theorem init_apart_iff (recorder : BroadcastRecorder) (tracked : Tracked recorder) (task : Task) :
    (∀ file ∈ recorder.files, file.path = task.initPath → file.call = task.call ∧ file.trackName = task.trackName) ↔
      ∀ other ∈ recorder.tasks, task.SameStem other → ¬ task.SameWriter other → other.initWritten = false := by
  constructor
  · intro apart other present stem different
    by_contra written
    have wrote : other.Wrote (other.wrote other.initPath) := .inl ⟨by simpa using written, rfl⟩
    obtain ⟨call, trackName⟩ := apart _ (tracked.listed other present _ wrote) ((task.init_path_iff other).mpr stem).symm
    exact different ⟨call.symm, trackName.symm⟩
  · intro apart file member same
    obtain ⟨other, present, wrote⟩ := tracked.written file member
    rcases wrote with ⟨written, rfl⟩ | ⟨segmentSeq, _, _, rfl⟩
    · by_contra different
      have stem := (task.init_path_iff other).mp same.symm
      have unwritten := apart other present stem fun writer => different ⟨writer.1.symm, writer.2.symm⟩
      rw [written] at unwritten
      cases unwritten
    · exact absurd same.symm (task.init_path_not_segment other segmentSeq)

theorem segment_apart_iff (recorder : BroadcastRecorder) (isolated : Isolated recorder) (tracked : Tracked recorder)
    (task : Task) (present : task ∈ recorder.tasks) :
    (∀ file ∈ recorder.files, file.path = task.segmentPath (task.segmentSeq + 1) →
      file.call = task.call ∧ file.trackName = task.trackName) ↔
      ∀ other ∈ recorder.tasks, task.SameStem other → ¬ task.SameWriter other → other.segmentSeq = 0 := by
  constructor
  · intro apart other there stem different
    by_contra some
    -- The other task has this segment already, or both have the first one.
    by_cases reached : task.segmentSeq + 1 ≤ other.segmentSeq
    · have wrote : other.Wrote (other.wrote (other.segmentPath (task.segmentSeq + 1))) :=
        .inr ⟨_, by omega, reached, rfl⟩
      obtain ⟨call, trackName⟩ := apart _ (tracked.listed other there _ wrote)
        ((task.segment_path_iff other _ _).mpr ⟨stem, rfl⟩).symm
      exact different ⟨call.symm, trackName.symm⟩
    · have same : task.segmentPath 1 = other.segmentPath 1 := (task.segment_path_iff other 1 1).mpr ⟨stem, rfl⟩
      have wrote : task.Wrote (task.wrote (task.segmentPath 1)) := .inr ⟨1, le_rfl, by omega, rfl⟩
      have otherWrote : other.Wrote (other.wrote (task.segmentPath 1)) := .inr ⟨1, le_rfl, by omega, by rw [same]⟩
      exact different (shared_of_wrote recorder isolated tracked task other present there _ wrote otherWrote)
  · intro apart file member same
    obtain ⟨other, there, wrote⟩ := tracked.written file member
    rcases wrote with ⟨_, rfl⟩ | ⟨segmentSeq, positive, bounded, rfl⟩
    · exact absurd same (other.init_path_not_segment task _)
    · by_contra different
      obtain ⟨stem, rfl⟩ := (task.segment_path_iff other _ _).mp same.symm
      have none := apart other there stem fun writer => different ⟨writer.1.symm, writer.2.symm⟩
      omega

theorem appended_isolated_iff (recorder after : BroadcastRecorder) (file : WrittenFile) (isolated : Isolated recorder)
    (baseDir : after.baseDir = recorder.baseDir) (files : after.files = recorder.files ++ [file]) :
    Isolated after ↔ Inside recorder.baseDir file.path ∧
      ∀ other ∈ recorder.files, other.path = file.path → other.call = file.call ∧ other.trackName = file.trackName := by
  constructor
  · intro kept
    have last : file ∈ after.files := files ▸ List.mem_append_right _ List.mem_cons_self
    refine ⟨baseDir ▸ kept.inside file last, fun other member same => ?_⟩
    exact kept.apart other (files ▸ List.mem_append_left _ member) file last same
  · rintro ⟨inside, apart⟩
    refine ⟨?_, ?_⟩
    · intro other member
      rw [files] at member
      rw [baseDir]
      cases List.mem_append.mp member with
      | inl before => exact isolated.inside other before
      | inr new => exact List.mem_singleton.mp new ▸ inside
    · intro first firstMember second secondMember same
      rw [files] at firstMember secondMember
      cases List.mem_append.mp firstMember with
      | inl before =>
          cases List.mem_append.mp secondMember with
          | inl earlier => exact isolated.apart first before second earlier same
          | inr new =>
              rw [List.mem_singleton.mp new] at same ⊢
              exact apart first before same
      | inr new =>
          rw [List.mem_singleton.mp new] at same ⊢
          cases List.mem_append.mp secondMember with
          | inl earlier =>
              obtain ⟨call, trackName⟩ := apart second earlier same.symm
              exact ⟨call.symm, trackName.symm⟩
          | inr also =>
              rw [List.mem_singleton.mp also]
              exact ⟨rfl, rfl⟩

theorem write_isolated_iff (recorder : BroadcastRecorder) (index : Nat) (task : Task) (bytes : Bytes)
    (creation : Creation) (isolated : Isolated recorder) (tracked : Tracked recorder)
    (found : recorder.tasks[index]? = some task) (wrote : creation ≠ .refused) :
    Isolated (recorder.write index task bytes creation) ↔
      task.Stays recorder.baseDir ∧
        ∀ other ∈ recorder.tasks, task.SameStem other → ¬ task.SameWriter other →
          if task.takesInit bytes then other.initWritten = false else other.segmentSeq = 0 := by
  have present := List.mem_of_getElem? found
  have baseDir : (recorder.write index task bytes creation).baseDir = recorder.baseDir := by
    cases creation <;> rfl
  have files : (recorder.write index task bytes creation).files =
      recorder.files ++ [task.wrote (task.framePath bytes)] := by
    cases creation with
    | refused => exact absurd rfl wrote
    | broken => rfl
    | complete => rfl
  rw [appended_isolated_iff recorder _ _ isolated baseDir files]
  refine and_congr (frame_inside_iff task recorder.baseDir bytes (tracked.below task present)) ?_
  simp only [Task.wrote, Task.framePath]
  by_cases init : task.takesInit bytes = true
  · simp only [if_pos init]
    exact init_apart_iff recorder tracked task
  · simp only [if_neg init]
    exact segment_apart_iff recorder isolated tracked task present

theorem step_isolated_iff (recorder : BroadcastRecorder) (op : RecordOp) (tracked : Tracked recorder)
    (isolated : Isolated recorder) : Isolated (recorder.step op) ↔ Apart recorder op := by
  have kept (tasks : List Task) (calls : Nat) : Isolated { recorder with tasks := tasks, calls := calls } :=
    ⟨isolated.inside, isolated.apart⟩
  cases op with
  | recordBroadcast broadcastName tracks created => exact ⟨fun _ => trivial, fun _ => kept _ _⟩
  | frame index bytes creation =>
      rw [BroadcastRecorder.step, Apart]
      cases found : recorder.tasks[index]? with
      | none => simp [isolated]
      | some task =>
          simp only [Option.mem_some_iff, forall_eq']
          by_cases ended : task.ended = true
          · simp [ended, isolated]
          · have running : task.ended = false := by simpa using ended
            rw [if_neg ended]
            by_cases refused : creation = .refused
            · refine ⟨fun _ _ wrote => absurd refused wrote, fun _ => ?_⟩
              rw [refused]
              exact kept _ _
            · rw [write_isolated_iff recorder index task bytes creation isolated tracked found refused]
              exact ⟨fun apart _ _ => apart, fun apart => apart running refused⟩
  | stop index =>
      refine ⟨fun _ => trivial, fun _ => ?_⟩
      rw [BroadcastRecorder.step]
      cases recorder.tasks[index]? with
      | none => exact isolated
      | some task => exact kept _ _

theorem recordings_isolated_iff (baseDir : Path) (ops : List RecordOp) :
    (∀ seen, seen <+: ops → Isolated (Machine.run BroadcastRecorder.step (.new baseDir) seen)) ↔
      Machine.AllSteps Apart BroadcastRecorder.step (.new baseDir) ops := by
  have start : Isolated (.new baseDir) := by
    constructor <;> simp [BroadcastRecorder.new]
  exact Machine.invariant_iff_guarded_under step_tracked step_isolated_iff (.new baseDir) ops (new_tracked baseDir) start

-- One name published twice: the second session's first segment replaces the first's.
def republished : List RecordOp :=
  [.recordBroadcast "live/test" [("0.mp4", true)] true, .frame 0 [1] .complete, .stop 0,
    .recordBroadcast "live/test" [("0.mp4", true)] true, .frame 1 [2] .complete]

theorem republished_overwrites :
    ¬ ∀ (baseDir : Path) (ops : List RecordOp),
      Isolated (Machine.run BroadcastRecorder.step (.new baseDir) ops) := by
  intro isolated
  have recordings := isolated ["rec".toList] republished
  let first : WrittenFile := ⟨["rec".toList, "live_test".toList, "0.0001.m4s".toList], 0, "0.mp4"⟩
  let second : WrittenFile := ⟨["rec".toList, "live_test".toList, "0.0001.m4s".toList], 1, "0.mp4"⟩
  have call := (recordings.apart first (by decide +kernel) second (by decide) rfl).1
  exact absurd call (by decide)

end Lvqr.Record
