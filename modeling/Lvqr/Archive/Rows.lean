import Lvqr.Lib.Machine
import Lvqr.Archive.Index

set_option autoImplicit false

-- What the rows of the index say about the files, over the sessions of an archive.
namespace Lvqr.Archive

variable {File : Type}

def SegmentTask.key (task : SegmentTask) : SegmentKey := ⟨task.broadcast, task.track, task.fragment.dts⟩

namespace ArchiveIndexer

-- The bytes leave every row that points at the file as it reads.
def Spares (env : ArchiveDir File) (archive : ArchiveIndexer File) (path : String) (bytes : Bytes) : Prop :=
  ∀ key entry task, archive.index.lookup key = some entry → archive.tasks[entry.task]? = some task →
    env.resolve entry.row.path = env.resolve path → task.fragment.payload <+: bytes

-- A row is the row of a task that has recorded it.
def Linked (env : ArchiveDir File) (archive : ArchiveIndexer File) : Prop :=
  ∀ key entry, archive.index.lookup key = some entry →
    ∃ task, archive.tasks[entry.task]? = some task ∧ task.phase = .recorded ∧ task.key = key ∧ entry.row = task.row env

theorem record_ok_iff (env : ArchiveDir File) (rows : SegmentIndex) (index : Nat) (task : SegmentTask) :
    (∃ after, rows.record index (task.row env) = .ok after) ↔
      task.fragment.dts < (task.row env).endDts ∧ task.broadcast.utf8ByteSize ≤ u16Max ∧
        task.track.utf8ByteSize ≤ u16Max := by
  rw [SegmentIndex.record]
  by_cases empty : (task.row env).endDts ≤ (task.row env).startDts
  · rw [if_pos empty]
    refine iff_of_false (by simp) fun valid => ?_
    exact absurd empty (Nat.not_le_of_lt valid.1)
  · rw [if_neg empty, encodeKey]
    have starts : task.fragment.dts < (task.row env).endDts := Nat.lt_of_not_le empty
    by_cases longName : (task.row env).broadcast.utf8ByteSize > u16Max
    · rw [if_pos longName]
      exact iff_of_false (by simp) fun valid => absurd longName (Nat.not_lt_of_le valid.2.1)
    · rw [if_neg longName]
      by_cases longTrack : (task.row env).track.utf8ByteSize > u16Max
      · rw [if_pos longTrack]
        exact iff_of_false (by simp) fun valid => absurd longTrack (Nat.not_lt_of_le valid.2.2)
      · rw [if_neg longTrack]
        exact iff_of_true ⟨_, rfl⟩ ⟨starts, Nat.le_of_not_lt longName, Nat.le_of_not_lt longTrack⟩

theorem record_ok (env : ArchiveDir File) (rows after : SegmentIndex) (index : Nat) (task : SegmentTask)
    (ok : rows.record index (task.row env) = .ok after) : after = rows.insert task.key ⟨task.row env, index⟩ := by
  rw [SegmentIndex.record] at ok
  split at ok
  · cases ok
  · rw [encodeKey] at ok
    split at ok
    · cases ok
    · rename_i key isKey
      split at isKey
      · cases isKey
      · split at isKey
        · cases isKey
        · cases isKey
          cases ok
          rfl

theorem not_owned (env : ArchiveDir File) (archive : ArchiveIndexer File) (index : Nat) (task : SegmentTask)
    (key : SegmentKey) (row : SegmentRef) (linked : archive.Linked env) (found : archive.tasks[index]? = some task)
    (unrecorded : task.phase ≠ .recorded) : archive.index.lookup key ≠ some ⟨row, index⟩ := by
  intro owned
  obtain ⟨one, isOne, recorded, _⟩ := linked key ⟨row, index⟩ owned
  rw [found, Option.some.injEq] at isOne
  exact unrecorded (isOne ▸ recorded)

theorem linked_of_kept (env : ArchiveDir File) (archive next : ArchiveIndexer File) (linked : archive.Linked env)
    (index : next.index = archive.index)
    (kept : ∀ (i : Nat) (task : SegmentTask), task.phase.ended → archive.tasks[i]? = some task →
      next.tasks[i]? = some task) : next.Linked env := by
  intro key entry found
  rw [index] at found
  obtain ⟨task, isTask, recorded, rest⟩ := linked key entry found
  exact ⟨task, kept entry.task task (by rw [recorded]; rfl) isTask, recorded, rest⟩

variable [DecidableEq File]

def read (env : ArchiveDir File) (archive : ArchiveIndexer File) (row : SegmentRef) : Option Bytes :=
  (archive.files.lookup (env.resolve row.path)).bind fun file => slice file row.byteOffset row.length

-- Every row reads the payload it was recorded for, and a fragment whose task is
-- through has its row.
structure Faithful (env : ArchiveDir File) (archive : ArchiveIndexer File) : Prop where
  reads : ∀ key entry, archive.index.lookup key = some entry →
    ∃ task, archive.tasks[entry.task]? = some task ∧ archive.read env entry.row = some task.fragment.payload
  own : ∀ (index : Nat) (task : SegmentTask), archive.tasks[index]? = some task → task.phase.ended →
    archive.index.lookup task.key = some ⟨task.row env, index⟩

-- The index takes the row, no other row has its key, and its file still holds it.
def Recordable (env : ArchiveDir File) (archive : ArchiveIndexer File) (task : SegmentTask) : Prop :=
  task.fragment.dts < (task.row env).endDts ∧ task.broadcast.utf8ByteSize ≤ u16Max ∧ task.track.utf8ByteSize ≤ u16Max ∧
    archive.index.lookup task.key = none ∧ archive.read env (task.row env) = some task.fragment.payload

def Careful (env : ArchiveDir File) (archive : ArchiveIndexer File) : ArchiveOp → Prop
  | .fragment index _ init => ∀ drain, archive.drains[index]? = some drain → drain.phase = .draining →
      ∀ bytes, drain.unpersisted init = some bytes →
        archive.Spares env (initSegmentPath env.dir drain.broadcast drain.track) bytes
  | .writeSegment index => ∀ task, archive.tasks[index]? = some task → task.phase = .queued →
      archive.Spares env (task.row env).path task.fragment.payload
  | .record index => ∀ task, archive.tasks[index]? = some task → task.phase = .written → archive.Recordable env task
  | .restart => ∀ task ∈ archive.tasks, task.phase.ended
  | .entryCreated _ _ _ | .close _ => True

-- A step that writes one file and ends no task.
theorem faithful_write (env : ArchiveDir File) (archive next : ArchiveIndexer File) (path : String) (bytes : Bytes)
    (linked : archive.Linked env) (faithful : archive.Faithful env)
    (files : next.files = archive.files.insert (env.resolve path) bytes) (index : next.index = archive.index)
    (kept : ∀ (i : Nat) (task : SegmentTask), task.phase.ended →
      (next.tasks[i]? = some task ↔ archive.tasks[i]? = some task)) :
    next.Faithful env ↔ archive.Spares env path bytes := by
  have reads : ∀ key entry task, archive.index.lookup key = some entry → archive.tasks[entry.task]? = some task →
      (next.read env entry.row = some task.fragment.payload ↔
        (env.resolve entry.row.path = env.resolve path → task.fragment.payload <+: bytes)) := by
    intro key entry task found isTask
    obtain ⟨one, isOne, _, _, row⟩ := linked key entry found
    rw [isTask, Option.some.injEq] at isOne
    subst isOne
    rw [read, files, Table.lookup_insert_eq]
    by_cases same : env.resolve entry.row.path = env.resolve path
    · rw [if_pos same, Option.bind_some, row]
      have whole := slice_eq_prefix bytes task.fragment.payload
      exact whole.trans ⟨fun isPrefix _ => isPrefix, fun spares => spares (row ▸ same)⟩
    · rw [if_neg same]
      refine iff_of_true ?_ fun h => absurd h same
      obtain ⟨one, isOne, before⟩ := faithful.reads key entry found
      rw [isTask, Option.some.injEq] at isOne
      exact isOne ▸ before
  constructor
  · intro after key entry task found isTask
    obtain ⟨one, isOne, read⟩ := after.reads key entry (index ▸ found)
    obtain ⟨old, isOld, recorded, _⟩ := linked key entry found
    have same := (kept entry.task old (by rw [recorded]; rfl)).mpr isOld
    rw [isOld, Option.some.injEq] at isTask
    rw [same, Option.some.injEq] at isOne
    subst isTask isOne
    exact (reads key entry old found isOld).mp read
  · intro spares
    refine ⟨fun key entry found => ?_, fun i task isTask ended => ?_⟩
    · rw [index] at found
      obtain ⟨old, isOld, recorded, _⟩ := linked key entry found
      refine ⟨old, (kept entry.task old (by rw [recorded]; rfl)).mpr isOld, ?_⟩
      exact (reads key entry old found isOld).mpr (spares key entry old found isOld)
    · rw [index]
      exact faithful.own i task ((kept i task ended).mp isTask) ended

-- A step that leaves files and index alone and ends no task.
theorem faithful_kept (env : ArchiveDir File) (archive next : ArchiveIndexer File) (linked : archive.Linked env)
    (faithful : archive.Faithful env) (files : next.files = archive.files) (index : next.index = archive.index)
    (kept : ∀ (i : Nat) (task : SegmentTask), task.phase.ended →
      (next.tasks[i]? = some task ↔ archive.tasks[i]? = some task)) : next.Faithful env := by
  refine ⟨fun key entry found => ?_, fun i task isTask ended => ?_⟩
  · rw [index] at found
    obtain ⟨old, isOld, recorded, _⟩ := linked key entry found
    obtain ⟨one, isOne, before⟩ := faithful.reads key entry found
    rw [isOld, Option.some.injEq] at isOne
    refine ⟨old, (kept entry.task old (by rw [recorded]; rfl)).mpr isOld, ?_⟩
    rw [read, files]
    exact isOne ▸ before
  · rw [index]
    exact faithful.own i task ((kept i task ended).mp isTask) ended

theorem kept_set (tasks : List SegmentTask) (index : Nat) (old task : SegmentTask) (found : tasks[index]? = some old)
    (before : old.phase.ended = false) (after : task.phase.ended = false) (i : Nat) (one : SegmentTask)
    (ended : one.phase.ended) : (tasks.set index task)[i]? = some one ↔ tasks[i]? = some one := by
  rw [List.getElem?_set]
  by_cases same : index = i
  · subst same
    have bound : index < tasks.length := (List.getElem?_eq_some_iff.mp found).1
    rw [if_pos rfl, if_pos bound, found, Option.some.injEq, Option.some.injEq]
    refine iff_of_false (fun h => ?_) fun h => ?_
    · rw [← h, after] at ended
      cases ended
    · rw [← h, before] at ended
      cases ended
  · rw [if_neg same]

theorem kept_append (tasks : List SegmentTask) (task : SegmentTask) (unended : task.phase.ended = false) (i : Nat)
    (one : SegmentTask) (ended : one.phase.ended) : (tasks ++ [task])[i]? = some one ↔ tasks[i]? = some one := by
  rw [List.getElem?_append]
  split
  · rfl
  · rename_i beyond
    rw [List.getElem?_eq_none (Nat.le_of_not_lt beyond), List.getElem?_singleton]
    split
    · refine iff_of_false (fun h => ?_) (by simp)
      rw [Option.some.injEq] at h
      rw [← h, unended] at ended
      cases ended
    · rfl

-- One turn of the drain loop: init.mp4 may be written, and a task is queued at most.
theorem fragment_step (env : ArchiveDir File) (archive : ArchiveIndexer File) (index : Nat) (drain : Drain)
    (fragment : Media.Fragment) (init : Option Bytes) (linked : archive.Linked env) :
    (archive.drainFragment env index drain fragment init).Linked env ∧
      (archive.Faithful env → ((archive.drainFragment env index drain fragment init).Faithful env ↔
        ∀ bytes, drain.unpersisted init = some bytes →
          archive.Spares env (initSegmentPath env.dir drain.broadcast drain.track) bytes)) := by
  have sameIndex : (archive.drainFragment env index drain fragment init).index = archive.index := by
    rw [drainFragment, persistInit]
    cases drain.unpersisted init <;> dsimp only <;> split <;> rfl
  have kept : ∀ (i : Nat) (one : SegmentTask), one.phase.ended →
      ((archive.drainFragment env index drain fragment init).tasks[i]? = some one ↔ archive.tasks[i]? = some one) := by
    intro i one ended
    have persisted : (archive.persistInit env drain init).tasks = archive.tasks := by
      rw [persistInit]
      cases drain.unpersisted init <;> rfl
    rw [drainFragment]
    dsimp only
    split
    · exact persisted ▸ Iff.rfl
    · dsimp only
      rw [persisted]
      exact kept_append archive.tasks _ rfl i one ended
  refine ⟨linked_of_kept env archive _ linked sameIndex fun i one ended => (kept i one ended).mpr, fun faithful => ?_⟩
  cases write : drain.unpersisted init with
  | none =>
      refine iff_of_true (faithful_kept env archive _ linked faithful ?_ sameIndex kept) (by simp)
      rw [drainFragment, persistInit, write]
      dsimp only
      split <;> rfl
  | some bytes =>
      simp only [Option.some.injEq, forall_eq']
      refine faithful_write env archive _ _ bytes linked faithful ?_ sameIndex kept
      rw [drainFragment, persistInit, write]
      dsimp only
      split <;> rfl

theorem write_step (env : ArchiveDir File) (archive : ArchiveIndexer File) (index : Nat) (task : SegmentTask)
    (linked : archive.Linked env) (found : archive.tasks[index]? = some task) :
    (archive.writeSegment env index task).Linked env ∧
      (archive.Faithful env → ((archive.writeSegment env index task).Faithful env ↔
        (task.phase = .queued → archive.Spares env (task.row env).path task.fragment.payload))) := by
  rw [writeSegment]
  by_cases queued : task.phase = .queued
  · rw [if_pos queued]
    have kept := kept_set archive.tasks index task { task with phase := .written } found (by rw [queued]; rfl) rfl
    refine ⟨linked_of_kept env archive _ linked rfl fun i one ended => (kept i one ended).mpr, fun faithful => ?_⟩
    simp only [queued, true_imp_iff]
    exact faithful_write env archive
      ((archive.writeFile env (task.row env).path task.fragment.payload).setPhase index task .written)
      (task.row env).path task.fragment.payload linked faithful rfl rfl kept
  · rw [if_neg queued]
    exact ⟨linked, fun faithful => iff_of_true faithful fun h => absurd h queued⟩

-- A task that ends without a row leaves its fragment without one.
theorem unfaithful_ended (env : ArchiveDir File) (archive next : ArchiveIndexer File) (index : Nat) (old task : SegmentTask)
    (linked : archive.Linked env) (found : archive.tasks[index]? = some old) (unrecorded : old.phase ≠ .recorded)
    (rows : next.index = archive.index) (isTask : next.tasks[index]? = some task) (ended : task.phase.ended) :
    ¬next.Faithful env := by
  intro faithful
  have owned := faithful.own index task isTask ended
  rw [rows] at owned
  exact not_owned env archive index old task.key (task.row env) linked found unrecorded owned

theorem recorded_step (env : ArchiveDir File) (archive next : ArchiveIndexer File) (index : Nat) (task : SegmentTask)
    (linked : archive.Linked env) (found : archive.tasks[index]? = some task) (written : task.phase = .written)
    (files : next.files = archive.files) (rows : next.index = archive.index.insert task.key ⟨task.row env, index⟩)
    (tasks : next.tasks = archive.tasks.set index { task with phase := .recorded }) :
    next.Linked env ∧ (archive.Faithful env → (next.Faithful env ↔
      archive.index.lookup task.key = none ∧ archive.read env (task.row env) = some task.fragment.payload)) := by
  have bound : index < archive.tasks.length := (List.getElem?_eq_some_iff.mp found).1
  have here : next.tasks[index]? = some { task with phase := .recorded } := by rw [tasks, List.getElem?_set_self bound]
  have elsewhere : ∀ i, i ≠ index → next.tasks[i]? = archive.tasks[i]? := by
    intro i differ
    rw [tasks, List.getElem?_set_ne differ.symm]
  have others : ∀ key entry, archive.index.lookup key = some entry → entry.task ≠ index := by
    rintro key ⟨row, _⟩ owned rfl
    exact not_owned env archive _ task key row linked found (by simp [written]) owned
  have sameRead : ∀ row, next.read env row = archive.read env row := fun row => by rw [read, read, files]
  refine ⟨fun key entry isEntry => ?_, fun faithful => ⟨fun after => ⟨?_, ?_⟩, ?_⟩⟩
  · rw [rows, Table.lookup_insert_eq] at isEntry
    split at isEntry
    · rename_i same
      rw [Option.some.injEq] at isEntry
      subst isEntry
      exact ⟨_, here, rfl, same.symm, rfl⟩
    · rw [elsewhere entry.task (others key entry isEntry)]
      exact linked key entry isEntry
  · by_contra taken
    obtain ⟨entry, isEntry⟩ := Option.ne_none_iff_exists'.mp taken
    obtain ⟨one, isOne, recorded, key, row⟩ := linked task.key entry isEntry
    have differ := others task.key entry isEntry
    have owned := after.own entry.task one (by rw [elsewhere _ differ]; exact isOne) (by rw [recorded]; rfl)
    rw [rows, key, Table.lookup_insert_eq, if_pos rfl, Option.some.injEq] at owned
    exact differ (congrArg IndexEntry.task owned).symm
  · obtain ⟨one, isOne, reads⟩ := after.reads task.key ⟨task.row env, index⟩ (by rw [rows, AList.lookup_insert])
    rw [here, Option.some.injEq] at isOne
    rw [sameRead] at reads
    subst isOne
    exact reads
  · rintro ⟨free, reads⟩
    refine ⟨fun key entry isEntry => ?_, fun i one isOne ended => ?_⟩
    · rw [rows, Table.lookup_insert_eq] at isEntry
      split at isEntry
      · rw [Option.some.injEq] at isEntry
        subst isEntry
        exact ⟨_, here, (sameRead _).trans reads⟩
      · rw [sameRead, elsewhere entry.task (others key entry isEntry)]
        exact faithful.reads key entry isEntry
    · rw [rows, Table.lookup_insert_eq]
      by_cases isIndex : i = index
      · subst isIndex
        rw [here, Option.some.injEq] at isOne
        subst isOne
        exact if_pos rfl
      · rw [elsewhere i isIndex] at isOne
        have owned := faithful.own i one isOne ended
        have differ : one.key ≠ task.key := fun same => by rw [same, free] at owned; cases owned
        rw [if_neg differ]
        exact owned

theorem record_step (env : ArchiveDir File) (archive : ArchiveIndexer File) (index : Nat) (task : SegmentTask)
    (linked : archive.Linked env) (found : archive.tasks[index]? = some task) :
    (archive.recordSegment env index task).Linked env ∧
      (archive.Faithful env → ((archive.recordSegment env index task).Faithful env ↔
        (task.phase = .written → archive.Recordable env task))) := by
  rw [recordSegment]
  by_cases written : task.phase = .written
  · rw [if_pos written]
    simp only [written, true_imp_iff]
    have valid := record_ok_iff env archive.index index task
    cases result : archive.index.record index (task.row env) with
    | error error =>
        have invalid : ¬(task.fragment.dts < (task.row env).endDts ∧ task.broadcast.utf8ByteSize ≤ u16Max ∧
            task.track.utf8ByteSize ≤ u16Max) := by
          intro fits
          obtain ⟨after, ok⟩ := valid.mpr fits
          rw [result] at ok
          cases ok
        have bound : index < archive.tasks.length := (List.getElem?_eq_some_iff.mp found).1
        have here : (archive.setPhase index task .refused).tasks[index]? = some { task with phase := .refused } :=
          List.getElem?_set_self bound
        refine ⟨linked_of_kept env archive _ linked rfl fun i one ended isOne => ?_, fun _ => iff_of_false ?_ ?_⟩
        · have differ : index ≠ i := by
            rintro rfl
            rw [found, Option.some.injEq] at isOne
            rw [← isOne, written] at ended
            cases ended
          exact (List.getElem?_set_ne differ).trans isOne
        · exact unfaithful_ended env archive _ index task _ linked found (by simp [written]) rfl here rfl
        · exact fun recordable => invalid ⟨recordable.1, recordable.2.1, recordable.2.2.1⟩
    | ok rows =>
        have fits := valid.mp ⟨rows, result⟩
        have inserted := record_ok env archive.index rows index task result
        have outcome := recorded_step env archive ({ archive with index := rows }.setPhase index task .recorded) index task
          linked found written rfl inserted rfl
        refine ⟨outcome.1, fun faithful => (outcome.2 faithful).trans ?_⟩
        exact ⟨fun both => ⟨fits.1, fits.2.1, fits.2.2, both⟩, fun recordable => recordable.2.2.2⟩
  · rw [if_neg written]
    exact ⟨linked, fun faithful => iff_of_true faithful fun h => absurd h written⟩

theorem restart_step (env : ArchiveDir File) (archive : ArchiveIndexer File) (linked : archive.Linked env) :
    archive.restart.Linked env ∧
      (archive.Faithful env → (archive.restart.Faithful env ↔ ∀ task ∈ archive.tasks, task.phase.ended)) := by
  refine ⟨linked_of_kept env archive _ linked rfl fun i one ended isOne => ?_, fun faithful => ⟨fun after task member => ?_, ?_⟩⟩
  · rw [restart, List.getElem?_map, isOne, Option.map_some, if_pos ended]
  · by_contra unended
    obtain ⟨i, found⟩ := List.mem_iff_getElem?.mp member
    have lost : archive.restart.tasks[i]? = some { task with phase := .lost } := by
      rw [restart, List.getElem?_map, found, Option.map_some, if_neg unended]
    refine unfaithful_ended env archive archive.restart i task _ linked found (fun recorded => ?_) rfl lost rfl after
    exact unended (by rw [recorded]; rfl)
  · intro allEnded
    have same : archive.restart.tasks = archive.tasks := by
      refine (List.map_congr_left fun task member => ?_).trans (List.map_id _)
      rw [if_pos (allEnded task member), id]
    exact faithful_kept env archive _ linked faithful rfl rfl fun i one _ => by rw [same]

theorem archive_step (env : ArchiveDir File) (archive : ArchiveIndexer File) (op : ArchiveOp) (linked : archive.Linked env) :
    (archive.step env op).Linked env ∧
      (archive.Faithful env → ((archive.step env op).Faithful env ↔ archive.Careful env op)) := by
  cases op with
  | entryCreated broadcast track timescale =>
      exact ⟨linked, fun faithful => iff_of_true ⟨faithful.reads, faithful.own⟩ trivial⟩
  | fragment index fragment init =>
      rw [step, Careful]
      cases found : archive.drains[index]? with
      | none => exact ⟨linked, fun faithful => iff_of_true faithful fun _ h => by cases h⟩
      | some drain =>
          simp only [Option.some.injEq, forall_eq']
          by_cases draining : drain.phase = .draining
          · simp only [draining, if_true, true_imp_iff]
            exact fragment_step env archive index drain fragment init linked
          · simp only [if_neg draining]
            exact ⟨linked, fun faithful => iff_of_true faithful fun h => absurd h draining⟩
  | writeSegment index =>
      rw [step, Careful]
      cases found : archive.tasks[index]? with
      | none => exact ⟨linked, fun faithful => iff_of_true faithful fun _ h => by cases h⟩
      | some task =>
          simp only [Option.some.injEq, forall_eq']
          exact write_step env archive index task linked found
  | record index =>
      rw [step, Careful]
      cases found : archive.tasks[index]? with
      | none => exact ⟨linked, fun faithful => iff_of_true faithful fun _ h => by cases h⟩
      | some task =>
          simp only [Option.some.injEq, forall_eq']
          exact record_step env archive index task linked found
  | close index =>
      rw [step]
      have same : ∀ drains, Linked env { archive with drains := drains } ∧
          (archive.Faithful env → (Faithful env { archive with drains := drains } ↔ True)) := fun drains =>
        ⟨linked, fun faithful => iff_of_true ⟨faithful.reads, faithful.own⟩ trivial⟩
      cases archive.drains[index]? with
      | none => exact same archive.drains
      | some drain =>
          dsimp only
          split
          · exact same _
          · exact same archive.drains
  | restart => exact restart_step env archive linked

theorem rows_match_iff (env : ArchiveDir File) (ops : List ArchiveOp) :
    (∀ seen, seen <+: ops → (Machine.run (step env) new seen).Faithful env) ↔
      Machine.AllSteps (Careful env) (step env) new ops := by
  refine Machine.invariant_iff_guarded_under (fun archive op linked => (archive_step env archive op linked).1)
    (fun archive op linked faithful => (archive_step env archive op linked).2 faithful) new ops ?_ ?_
  · intro key entry found
    cases found
  · exact ⟨fun key entry found => (by cases found), fun index task found => (by cases found)⟩

def localArchive : ArchiveDir String := ⟨"/var/archive", id⟩

def keyframeAt (dts : Nat) (payload : Bytes) : Media.Fragment :=
  ⟨"0.mp4", 0, dts, dts, 3000, FragmentFlags.KEYFRAME, payload⟩

-- A publisher reconnects under its name. Its second session counts from one again.
def reconnect : List ArchiveOp :=
  [.entryCreated "live/camera" "0.mp4" 90000, .fragment 0 (keyframeAt 0 [1, 2]) none, .writeSegment 0, .record 0,
    .close 0, .entryCreated "live/camera" "0.mp4" 90000, .fragment 1 (keyframeAt 900000 [3, 4]) none, .writeSegment 1,
    .record 1]

def firstRow : SegmentRef :=
  ⟨"live/camera", "0.mp4", 1, 0, 3000, 90000, true, "/var/archive/live/camera/0.mp4/00000001.m4s", 0, 2⟩

theorem reconnect_overwrites_file :
    ¬∀ ops seen, seen <+: ops → (Machine.run (step localArchive) new seen).Faithful localArchive := by
  intro always
  have faithful := always reconnect reconnect (List.prefix_refl _)
  obtain ⟨task, isTask, reads⟩ := faithful.reads ⟨"live/camera", "0.mp4", 0⟩ ⟨firstRow, 0⟩ rfl
  have wrote : (Machine.run (step localArchive) new reconnect).tasks[0]? =
      some ⟨0, "live/camera", "0.mp4", 1, 90000, keyframeAt 0 [1, 2], .recorded⟩ := rfl
  have onDisk : (Machine.run (step localArchive) new reconnect).read localArchive firstRow = some [3, 4] := rfl
  rw [wrote, Option.some.injEq] at isTask
  rw [onDisk, ← isTask] at reads
  cases reads

end ArchiveIndexer

end Lvqr.Archive
