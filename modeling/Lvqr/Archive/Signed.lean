import Lvqr.Archive.Finalize

set_option autoImplicit false

-- What the signed bytes of a drain are.
namespace Lvqr.Archive

variable {File : Type}

namespace ArchiveIndexer

def Recorded (archive : ArchiveIndexer File) (drain index : Nat) : Prop :=
  ∃ task, archive.tasks[index]? = some task ∧ task.drain = drain ∧ task.phase = .recorded

def payloadOf (archive : ArchiveIndexer File) (index : Nat) : Bytes :=
  (archive.tasks[index]?.map fun task => task.fragment.payload).getD []

def dtsOf (archive : ArchiveIndexer File) (index : Nat) : Nat :=
  (archive.tasks[index]?.map fun task => task.fragment.dts).getD 0

-- The drain's init segment and then every fragment it recorded, each once and in the
-- order of their decode times.
def IsAsset (archive : ArchiveIndexer File) (drain : Nat) (bytes : Bytes) : Prop :=
  ∃ (one : Drain) (init : Bytes) (order : List Nat), archive.drains[drain]? = some one ∧ one.init = some init ∧
    (∀ index, index ∈ order ↔ archive.Recorded drain index) ∧ order.Nodup ∧
    order.Pairwise (fun first second => archive.dtsOf first ≤ archive.dtsOf second) ∧
    bytes = init ++ (order.map archive.payloadOf).flatten

-- The rows of the stream are those of the drain's recorded fragments, and all of them.
def OwnRows (env : ArchiveDir File) (archive : ArchiveIndexer File) (drain : Nat) (one : Drain) : Prop :=
  (∀ key entry, archive.index.lookup key = some entry → key.broadcast = one.broadcast → key.track = one.track →
    archive.Recorded drain entry.task) ∧
  ∀ (index : Nat) (task : SegmentTask), archive.tasks[index]? = some task → archive.Recorded drain index →
    archive.index.lookup task.key = some ⟨task.row env, index⟩

structure Indexed (env : ArchiveDir File) (archive : ArchiveIndexer File) : Prop where
  linked : archive.Linked env
  named : ∀ (index : Nat) (task : SegmentTask), archive.tasks[index]? = some task →
    ∃ one, archive.drains[task.drain]? = some one ∧ one.broadcast = task.broadcast ∧ one.track = task.track
  extent : ∀ key entry, archive.index.lookup key = some entry → entry.row.startDts < u64Max

-- The rows that were listed for a drain, with what is recorded of it.
structure Listed (env : ArchiveDir File) (archive : ArchiveIndexer File) (drain : Nat) (entries : List IndexEntry) :
    Prop where
  ordered : entries.Pairwise fun first second => first.row.startDts < second.row.startDts
  recorded : ∀ index, index ∈ entries.map IndexEntry.task ↔ archive.Recorded drain index
  rows : ∀ entry ∈ entries, ∃ task, archive.tasks[entry.task]? = some task ∧ task.phase = .recorded ∧
    entry.row = task.row env

theorem mem_scan (index : SegmentIndex) (broadcast track : String) (low high : Nat) (entry : IndexEntry) :
    entry ∈ index.scan broadcast track low high ↔
      (∃ key, index.lookup key = some entry) ∧ entry.row.broadcast = broadcast ∧ entry.row.track = track ∧
        low ≤ entry.row.startDts ∧ entry.row.startDts < high := by
  have stored : entry ∈ index.entries.map Sigma.snd ↔ ∃ key, index.lookup key = some entry := by
    rw [List.mem_map]
    constructor
    · rintro ⟨⟨key, value⟩, member, rfl⟩
      exact ⟨key, AList.mem_lookup_iff.mpr member⟩
    · rintro ⟨key, found⟩
      exact ⟨⟨key, entry⟩, AList.mem_lookup_iff.mp found, rfl⟩
  rw [SegmentIndex.scan, List.mem_insertionSort, List.mem_filter, stored]
  simp [and_assoc]

theorem find_range_all (index : SegmentIndex) (broadcast track : String) (rows : List IndexEntry)
    (ok : index.findRange broadcast track 0 u64Max = .ok rows) : rows = index.scan broadcast track 0 u64Max := by
  rw [SegmentIndex.findRange, if_neg (by simp [u64Max])] at ok
  split at ok
  · cases ok
  · have none : index.scan broadcast track 0 0 = [] := by
      refine List.eq_nil_iff_forall_not_mem.mpr fun entry member => ?_
      have bounds := ((mem_scan index broadcast track 0 0 entry).mp member).2.2.2
      omega
    rw [none] at ok
    exact (Except.ok.inj ok).symm

theorem row_key (env : ArchiveDir File) (archive : ArchiveIndexer File) (linked : archive.Linked env)
    (key : SegmentKey) (entry : IndexEntry) (found : archive.index.lookup key = some entry) : entry.row.key = key := by
  obtain ⟨task, _, _, isKey, isRow⟩ := linked key entry found
  rw [isRow, ← isKey]
  rfl

-- The keys of an index are distinct, so the rows of one stream start at distinct times.
theorem scan_ordered (env : ArchiveDir File) (archive : ArchiveIndexer File) (linked : archive.Linked env)
    (broadcast track : String) (low high : Nat) :
    (archive.index.scan broadcast track low high).Pairwise
      fun first second => first.row.startDts < second.row.startDts := by
  have distinct : (archive.index.entries.map Sigma.snd).Pairwise fun first second =>
      first.row.key ≠ second.row.key := by
    rw [List.pairwise_map]
    refine (List.nodupKeys_iff_pairwise.mp archive.index.nodupKeys).imp_of_mem fun {first second} isFirst isSecond differ => ?_
    rwa [row_key env archive linked first.1 first.2 (AList.mem_lookup_iff.mpr isFirst),
      row_key env archive linked second.1 second.2 (AList.mem_lookup_iff.mpr isSecond)]
  have apart : (archive.index.scan broadcast track low high).Pairwise fun first second =>
      first.row.key ≠ second.row.key := by
    rw [SegmentIndex.scan]
    refine ((List.perm_insertionSort _ _).pairwise_iff fun {first second} differ => differ.symm).mpr ?_
    exact distinct.filter _
  have sorted : (archive.index.scan broadcast track low high).Pairwise IndexEntry.StartsBefore :=
    List.pairwise_insertionSort _ _
  refine (sorted.and apart).imp_of_mem fun {first second} isFirst isSecond both => ?_
  obtain ⟨_, firstBroadcast, firstTrack, _⟩ := (mem_scan _ _ _ _ _ first).mp isFirst
  obtain ⟨_, secondBroadcast, secondTrack, _⟩ := (mem_scan _ _ _ _ _ second).mp isSecond
  refine Nat.lt_of_le_of_ne both.1 fun same => both.2 ?_
  rw [SegmentRef.key, SegmentRef.key, firstBroadcast, firstTrack, secondBroadcast, secondTrack, same]

-- What is listed when the stream's rows are the drain's own.
theorem listed_of_own (env : ArchiveDir File) (archive : ArchiveIndexer File) (drain : Nat) (one : Drain)
    (rows : List IndexEntry) (indexed : archive.Indexed env) (found : archive.drains[drain]? = some one)
    (own : archive.OwnRows env drain one)
    (ok : archive.index.findRange one.broadcast one.track 0 u64Max = .ok rows) : archive.Listed env drain rows := by
  rw [find_range_all _ _ _ _ ok]
  refine ⟨scan_ordered env archive indexed.linked _ _ _ _, fun index => ⟨fun member => ?_, fun recorded => ?_⟩, ?_⟩
  · obtain ⟨entry, isEntry, rfl⟩ := List.mem_map.mp member
    obtain ⟨⟨key, isKey⟩, broadcast, track, _⟩ := (mem_scan _ _ _ _ _ entry).mp isEntry
    have keys := row_key env archive indexed.linked key entry isKey
    exact own.1 key entry isKey (keys ▸ broadcast) (keys ▸ track)
  · obtain ⟨task, isTask, isDrain, phase⟩ := recorded
    have stored := own.2 index task isTask ⟨task, isTask, isDrain, phase⟩
    obtain ⟨owner, isOwner, broadcast, track⟩ := indexed.named index task isTask
    rw [isDrain, found, Option.some.injEq] at isOwner
    subst isOwner
    refine List.mem_map.mpr ⟨⟨task.row env, index⟩, ?_, rfl⟩
    exact (mem_scan _ _ _ _ _ _).mpr ⟨⟨task.key, stored⟩, broadcast.symm, track.symm, Nat.zero_le _,
      indexed.extent task.key _ stored⟩
  · intro entry member
    obtain ⟨⟨key, isKey⟩, _⟩ := (mem_scan _ _ _ _ _ entry).mp member
    obtain ⟨task, isTask, recorded, _, row⟩ := indexed.linked key entry isKey
    exact ⟨task, isTask, recorded, row⟩

-- What one step of the archive leaves as it was, and what it can add.
structure Onward (archive next : ArchiveIndexer File) (op : ArchiveOp) : Prop where
  drains : ∀ (drain : Nat) (one : Drain), archive.drains[drain]? = some one →
    ∃ after, next.drains[drain]? = some after ∧ after.broadcast = one.broadcast ∧ after.track = one.track ∧
      (one.phase ≠ .draining → after.phase ≠ .draining ∧ after.init = one.init)
  kept : ∀ (index : Nat) (task : SegmentTask), archive.tasks[index]? = some task → task.phase = .recorded →
    next.tasks[index]? = some task
  tasks : ∀ (index : Nat) (task : SegmentTask), next.tasks[index]? = some task →
    (∃ old, archive.tasks[index]? = some old ∧ old.drain = task.drain ∧ old.broadcast = task.broadcast ∧
      old.track = task.track ∧
      (task.phase = .recorded → old.phase = .recorded ∨ op = .record index ∧ old.phase = .written)) ∨
    task.phase = .queued ∧ ∃ one, archive.drains[task.drain]? = some one ∧ one.broadcast = task.broadcast ∧
      one.track = task.track
  rows : ∀ key entry, next.index.lookup key = some entry →
    archive.index.lookup key = some entry ∨ entry.row.startDts < u64Max

theorem onward_same (archive next : ArchiveIndexer File) (op : ArchiveOp) (drains : next.drains = archive.drains)
    (tasks : next.tasks = archive.tasks) (rows : next.index = archive.index) : archive.Onward next op where
  drains := fun _ one found => ⟨one, drains ▸ found, rfl, rfl, fun ended => ⟨ended, rfl⟩⟩
  kept := fun _ _ found _ => tasks ▸ found
  tasks := fun _ task found => .inl ⟨task, tasks ▸ found, rfl, rfl, rfl, .inl⟩
  rows := fun _ _ found => .inl (rows ▸ found)

-- Drains that change without their names, and not once they have ended.
theorem drains_set (drains : List Drain) (index : Nat) (old after : Drain) (found : drains[index]? = some old)
    (broadcast : after.broadcast = old.broadcast) (track : after.track = old.track) (draining : old.phase = .draining)
    (drain : Nat) (one : Drain) (isOne : drains[drain]? = some one) :
    ∃ next, (drains.set index after)[drain]? = some next ∧ next.broadcast = one.broadcast ∧ next.track = one.track ∧
      (one.phase ≠ .draining → next.phase ≠ .draining ∧ next.init = one.init) := by
  by_cases same : index = drain
  · subst same
    have bound : index < drains.length := (List.getElem?_eq_some_iff.mp found).1
    rw [found, Option.some.injEq] at isOne
    subst isOne
    exact ⟨after, List.getElem?_set_self bound, broadcast, track, fun ended => absurd draining ended⟩
  · exact ⟨one, (List.getElem?_set_ne same).trans isOne, rfl, rfl, fun ended => ⟨ended, rfl⟩⟩

-- One task changes its phase, from one that is not yet recorded.
theorem onward_phase (archive next : ArchiveIndexer File) (op : ArchiveOp) (index : Nat) (task : SegmentTask)
    (phase : TaskPhase) (found : archive.tasks[index]? = some task) (drains : next.drains = archive.drains)
    (tasks : next.tasks = archive.tasks.set index { task with phase := phase }) (unrecorded : task.phase ≠ .recorded)
    (recorded : phase = .recorded → op = .record index ∧ task.phase = .written)
    (rows : ∀ key entry, next.index.lookup key = some entry →
      archive.index.lookup key = some entry ∨ entry.row.startDts < u64Max) : archive.Onward next op where
  drains := fun _ one isOne => ⟨one, drains ▸ isOne, rfl, rfl, fun ended => ⟨ended, rfl⟩⟩
  kept := by
    intro i one isOne isRecorded
    have differ : index ≠ i := by
      rintro rfl
      rw [found, Option.some.injEq] at isOne
      exact unrecorded (isOne ▸ isRecorded)
    rw [tasks, List.getElem?_set_ne differ]
    exact isOne
  tasks := by
    intro i one isOne
    rw [tasks, List.getElem?_set] at isOne
    split at isOne
    · rename_i same
      subst same
      split at isOne
      · rw [Option.some.injEq] at isOne
        subst isOne
        exact .inl ⟨task, found, rfl, rfl, rfl, fun isRecorded => .inr (recorded isRecorded)⟩
      · cases isOne
    · exact .inl ⟨one, isOne, rfl, rfl, rfl, .inl⟩
  rows := rows

theorem onward_restart (archive : ArchiveIndexer File) (op : ArchiveOp) : archive.Onward archive.restart op := by
  refine ⟨?_, ?_, ?_, fun key entry isEntry => .inl isEntry⟩
  · intro drain one found
    refine ⟨{ one with phase := .killed }, ?_, rfl, rfl, fun _ => ⟨by simp, rfl⟩⟩
    rw [restart, List.getElem?_map, found, Option.map_some]
  · intro index task found recorded
    rw [restart, List.getElem?_map, found, Option.map_some, if_pos (by rw [recorded]; rfl)]
  · intro index task found
    rw [restart, List.getElem?_map] at found
    obtain ⟨old, isOld, isTask⟩ := Option.map_eq_some_iff.mp found
    split at isTask
    · subst isTask
      exact .inl ⟨old, isOld, rfl, rfl, rfl, .inl⟩
    · subst isTask
      exact .inl ⟨old, isOld, rfl, rfl, rfl, fun lost => by cases lost⟩

theorem onward_record (env : ArchiveDir File) (archive : ArchiveIndexer File) (index : Nat) (task : SegmentTask)
    (found : archive.tasks[index]? = some task) :
    archive.Onward (archive.recordSegment env index task) (.record index) := by
  rw [recordSegment]
  by_cases written : task.phase = .written
  · rw [if_pos written]
    have unrecorded : task.phase ≠ .recorded := by simp [written]
    cases result : archive.index.record index (task.row env) with
    | error error =>
        exact onward_phase archive _ _ index task .refused found rfl rfl unrecorded (by simp)
          fun key entry isEntry => .inl isEntry
    | ok rows =>
        refine onward_phase archive _ _ index task .recorded found rfl rfl unrecorded (fun _ => ⟨rfl, written⟩) ?_
        intro key entry isEntry
        have fits := (record_ok_iff env archive.index index task).mp ⟨rows, result⟩
        have inserted := record_ok env archive.index rows index task result
        have isRow : rows.lookup key = some entry := isEntry
        rw [inserted, Table.lookup_insert_eq] at isRow
        split at isRow
        · rw [Option.some.injEq] at isRow
          subst isRow
          exact .inr (Nat.lt_of_lt_of_le fits.1 (Nat.min_le_right _ _))
        · exact .inl isRow
  · rw [if_neg written]
    exact onward_same archive archive _ rfl rfl rfl

variable [DecidableEq File]

theorem onward_fragment (env : ArchiveDir File) (archive : ArchiveIndexer File) (op : ArchiveOp) (index : Nat)
    (drain : Drain) (fragment : Media.Fragment) (init : Option Bytes) (found : archive.drains[index]? = some drain)
    (draining : drain.phase = .draining) :
    archive.Onward (archive.drainFragment env index drain fragment init) op := by
  have persisted : (archive.persistInit env drain init).drains = archive.drains ∧
      (archive.persistInit env drain init).tasks = archive.tasks ∧
      (archive.persistInit env drain init).index = archive.index := by
    rw [persistInit]
    cases drain.unpersisted init <;> exact ⟨rfl, rfl, rfl⟩
  rw [drainFragment]
  dsimp only
  rw [persisted.1, persisted.2.1]
  split
  · refine ⟨drains_set archive.drains index drain _ found rfl rfl draining, ?_, ?_, ?_⟩
    · intro i task isTask _
      exact persisted.2.1 ▸ isTask
    · intro i task isTask
      exact .inl ⟨task, persisted.2.1 ▸ isTask, rfl, rfl, rfl, .inl⟩
    · exact fun key entry isEntry => .inl (persisted.2.2 ▸ isEntry)
  · refine ⟨drains_set archive.drains index drain _ found rfl rfl draining, ?_, ?_, ?_⟩
    · intro i task isTask _
      exact (List.getElem?_append_left (List.getElem?_eq_some_iff.mp isTask).1).trans isTask
    · intro i task isTask
      rw [List.getElem?_append] at isTask
      split at isTask
      · exact .inl ⟨task, isTask, rfl, rfl, rfl, .inl⟩
      · rw [List.getElem?_singleton] at isTask
        split at isTask
        · rw [Option.some.injEq] at isTask
          subst isTask
          exact .inr ⟨rfl, drain, found, rfl, rfl⟩
        · cases isTask
    · exact fun key entry isEntry => .inl (persisted.2.2 ▸ isEntry)

theorem step_onward (env : ArchiveDir File) (archive : ArchiveIndexer File) (op : ArchiveOp) :
    archive.Onward (archive.step env op) op := by
  cases op with
  | entryCreated broadcast track timescale =>
      refine ⟨fun drain one found => ⟨one, ?_, rfl, rfl, fun ended => ⟨ended, rfl⟩⟩, fun _ _ found _ => found,
        fun index task found => .inl ⟨task, found, rfl, rfl, rfl, .inl⟩, fun _ _ found => .inl found⟩
      exact (List.getElem?_append_left (List.getElem?_eq_some_iff.mp found).1).trans found
  | fragment index fragment init =>
      rw [step]
      cases found : archive.drains[index]? with
      | none => exact onward_same archive archive _ rfl rfl rfl
      | some drain =>
          dsimp only
          split
          · rename_i draining
            exact onward_fragment env archive _ index drain fragment init found draining
          · exact onward_same archive archive _ rfl rfl rfl
  | writeSegment index =>
      rw [step]
      cases found : archive.tasks[index]? with
      | none => exact onward_same archive archive _ rfl rfl rfl
      | some task =>
          dsimp only [writeSegment]
          split
          · rename_i queued
            exact onward_phase archive _ _ index task .written found rfl rfl (by simp [queued]) (by simp)
              fun key entry isEntry => .inl isEntry
          · exact onward_same archive archive _ rfl rfl rfl
  | record index =>
      rw [step]
      cases found : archive.tasks[index]? with
      | none => exact onward_same archive archive _ rfl rfl rfl
      | some task => exact onward_record env archive index task found
  | close index =>
      rw [step]
      cases found : archive.drains[index]? with
      | none => exact onward_same archive archive _ rfl rfl rfl
      | some drain =>
          dsimp only
          split
          · rename_i draining
            exact ⟨drains_set archive.drains index drain _ found rfl rfl draining, fun _ _ isTask _ => isTask,
              fun i task isTask => .inl ⟨task, isTask, rfl, rfl, rfl, .inl⟩, fun _ _ isEntry => .inl isEntry⟩
          · exact onward_same archive archive _ rfl rfl rfl
  | restart => exact onward_restart archive _

theorem step_indexed (env : ArchiveDir File) (archive : ArchiveIndexer File) (op : ArchiveOp)
    (indexed : archive.Indexed env) : (archive.step env op).Indexed env := by
  have onward := step_onward env archive op
  refine ⟨(archive_step env archive op indexed.linked).1, fun index task found => ?_, fun key entry found => ?_⟩
  · have named : ∃ one, archive.drains[task.drain]? = some one ∧ one.broadcast = task.broadcast ∧ one.track = task.track := by
      rcases onward.tasks index task found with ⟨old, isOld, drain, broadcast, track, _⟩ | ⟨_, fresh⟩
      · rw [← drain, ← broadcast, ← track]
        exact indexed.named index old isOld
      · exact fresh
    obtain ⟨one, isOne, broadcast, track⟩ := named
    obtain ⟨after, isAfter, sameBroadcast, sameTrack, _⟩ := onward.drains task.drain one isOne
    exact ⟨after, isAfter, sameBroadcast.trans broadcast, sameTrack.trans track⟩
  · rcases onward.rows key entry found with before | starts
    · exact indexed.extent key entry before
    · exact starts

-- A drain records nothing new but by a record step of a task of its own.
theorem recorded_step_iff (env : ArchiveDir File) (archive : ArchiveIndexer File) (op : ArchiveOp) (drain : Nat)
    (still : ∀ index task, op = .record index → archive.tasks[index]? = some task → task.phase = .written →
      task.drain ≠ drain) (index : Nat) :
    (archive.step env op).Recorded drain index ↔ archive.Recorded drain index := by
  have onward := step_onward env archive op
  constructor
  · rintro ⟨task, found, isDrain, recorded⟩
    rcases onward.tasks index task found with ⟨old, isOld, sameDrain, _, _, before⟩ | ⟨queued, _⟩
    · rcases before recorded with was | ⟨records, written⟩
      · exact ⟨old, isOld, sameDrain.trans isDrain, was⟩
      · exact absurd (sameDrain.trans isDrain) (still index old records isOld written)
    · rw [queued] at recorded
      cases recorded
  · rintro ⟨task, found, isDrain, recorded⟩
    exact ⟨task, onward.kept index task found recorded, isDrain, recorded⟩

end ArchiveIndexer

def Finalizer.listed (finalizer : Finalizer) : Bool :=
  match finalizer.phase with
  | .reading _ _ _ | .signed _ _ => true
  | _ => false

namespace SignedArchive

open ArchiveIndexer (keyframeAt localArchive firstRow)

theorem mem_spawned (state : SignedArchive File) (op : ArchiveOp) (finalizer : Finalizer)
    (member : finalizer ∈ state.spawned op) :
    (finalizer ∈ state.finalizers ∨
      ∃ old ∈ state.finalizers, old.drain = finalizer.drain ∧ finalizer.phase = .failed) ∨
      finalizer.phase = .started ∧ op = .close finalizer.drain ∧
        ∃ one, state.archive.drains[finalizer.drain]? = some one ∧ one.phase = .draining := by
  cases op with
  | close index =>
      rw [spawned] at member
      split at member
      · rename_i drain found
        split at member
        · rename_i draining
          rcases List.mem_append.mp member with before | isNew
          · exact .inl (.inl before)
          · rw [List.mem_singleton] at isNew
            subst isNew
            exact .inr ⟨rfl, rfl, drain, found, draining⟩
        · exact .inl (.inl member)
      · exact .inl (.inl member)
  | restart =>
      obtain ⟨old, isOld, isKilled⟩ := List.mem_map.mp member
      rw [killed.eq_def] at isKilled
      split at isKilled
      · exact .inl (.inl (isKilled ▸ isOld))
      · subst isKilled
        exact .inl (.inr ⟨old, isOld, rfl, rfl⟩)
  | entryCreated _ _ _ | fragment _ _ _ | writeSegment _ | record _ => exact .inl (.inl member)

variable [DecidableEq File]

-- What finalize reads is the drain's own, and nothing of the drain is recorded later.
def Tidy (env : ArchiveDir File) (state : SignedArchive File) : SigningOp → Prop
  | .archive (.record index) => ∀ task, state.archive.tasks[index]? = some task → task.phase = .written →
      ∀ finalizer ∈ state.finalizers, finalizer.drain = task.drain → finalizer.listed = false
  | .archive _ => True
  | .finalize index => ∀ finalizer one, state.finalizers[index]? = some finalizer →
      state.archive.drains[finalizer.drain]? = some one →
        match finalizer.phase with
        | .started => ∀ init, state.fileOf env (initSegmentPath env.dir one.broadcast one.track) = some init →
            one.init = some init
        | .listing _ => state.archive.OwnRows env finalizer.drain one
        | .reading _ _ (entry :: _) => ∀ bytes, state.fileOf env entry.row.path = some bytes →
            bytes = state.archive.payloadOf entry.task
        | _ => True

-- What a finalize has gathered so far.
def Gathered (env : ArchiveDir File) (archive : ArchiveIndexer File) (drain : Nat) (one : Drain) : FinalizePhase → Prop
  | .started | .failed => True
  | .listing init => one.init = some init
  | .reading init taken rest => one.init = some init ∧ archive.Listed env drain (taken.map Prod.fst ++ rest) ∧
      ∀ piece ∈ taken, piece.2 = archive.payloadOf piece.1.task
  | .signed init taken => one.init = some init ∧ archive.Listed env drain (taken.map Prod.fst) ∧
      ∀ piece ∈ taken, piece.2 = archive.payloadOf piece.1.task

structure Sound (env : ArchiveDir File) (state : SignedArchive File) : Prop where
  indexed : state.archive.Indexed env
  gathered : ∀ finalizer ∈ state.finalizers, ∃ one, state.archive.drains[finalizer.drain]? = some one ∧
    one.phase ≠ .draining ∧ Gathered env state.archive finalizer.drain one finalizer.phase

-- What is listed of a drain stays so while nothing of it is recorded.
theorem listed_onward (env : ArchiveDir File) (archive : ArchiveIndexer File) (op : ArchiveOp) (drain : Nat)
    (entries : List IndexEntry) (listed : archive.Listed env drain entries)
    (still : ∀ index task, op = .record index → archive.tasks[index]? = some task → task.phase = .written →
      task.drain ≠ drain) :
    (archive.step env op).Listed env drain entries ∧
      ∀ entry ∈ entries, (archive.step env op).payloadOf entry.task = archive.payloadOf entry.task := by
  have onward := ArchiveIndexer.step_onward env archive op
  refine ⟨⟨listed.ordered, fun index => ?_, fun entry member => ?_⟩, fun entry member => ?_⟩
  · rw [listed.recorded, ArchiveIndexer.recorded_step_iff env archive op drain still]
  · obtain ⟨task, isTask, recorded, row⟩ := listed.rows entry member
    exact ⟨task, onward.kept entry.task task isTask recorded, recorded, row⟩
  · obtain ⟨task, isTask, recorded, _⟩ := listed.rows entry member
    rw [ArchiveIndexer.payloadOf, ArchiveIndexer.payloadOf, isTask, onward.kept entry.task task isTask recorded]

theorem gathered_onward (env : ArchiveDir File) (archive : ArchiveIndexer File) (op : ArchiveOp) (finalizer : Finalizer)
    (one after : Drain) (init : after.init = one.init)
    (gathered : Gathered env archive finalizer.drain one finalizer.phase)
    (still : finalizer.listed = true → ∀ index task, op = .record index → archive.tasks[index]? = some task →
      task.phase = .written → task.drain ≠ finalizer.drain) :
    Gathered env (archive.step env op) finalizer.drain after finalizer.phase := by
  cases phase : finalizer.phase with
  | started | failed => trivial
  | listing segment =>
      rw [phase] at gathered
      exact init.trans gathered
  | reading segment taken rest =>
      rw [phase] at gathered
      obtain ⟨isInit, listed, bytes⟩ := gathered
      obtain ⟨stays, payloads⟩ := listed_onward env archive op finalizer.drain _ listed
        (still (by rw [Finalizer.listed, phase]))
      refine ⟨init.trans isInit, stays, fun piece member => ?_⟩
      rw [payloads piece.1 (List.mem_append_left _ (List.mem_map_of_mem member))]
      exact bytes piece member
  | signed segment taken =>
      rw [phase] at gathered
      obtain ⟨isInit, listed, bytes⟩ := gathered
      obtain ⟨stays, payloads⟩ := listed_onward env archive op finalizer.drain _ listed
        (still (by rw [Finalizer.listed, phase]))
      refine ⟨init.trans isInit, stays, fun piece member => ?_⟩
      rw [payloads piece.1 (List.mem_map_of_mem member)]
      exact bytes piece member

theorem archive_sound (env : ArchiveDir File) (sign : Bytes → Option SignedAsset) (state : SignedArchive File)
    (op : ArchiveOp) (sound : state.Sound env) (tidy : state.Tidy env (.archive op)) :
    (state.step env sign (.archive op)).Sound env := by
  have onward := ArchiveIndexer.step_onward env state.archive op
  have still : ∀ finalizer ∈ state.finalizers, finalizer.listed = true → ∀ index task, op = .record index →
      state.archive.tasks[index]? = some task → task.phase = .written → task.drain ≠ finalizer.drain := by
    intro finalizer member listed index task isRecord found written same
    subst isRecord
    rw [tidy task found written finalizer member same.symm] at listed
    cases listed
  refine ⟨ArchiveIndexer.step_indexed env state.archive op sound.indexed, fun finalizer member => ?_⟩
  rcases mem_spawned state op finalizer member with (before | ⟨old, isOld, sameDrain, failed⟩) | ⟨started, isClose, one, found, draining⟩
  · obtain ⟨one, found, ended, gathered⟩ := sound.gathered finalizer before
    obtain ⟨after, isAfter, _, _, settled⟩ := onward.drains finalizer.drain one found
    obtain ⟨stays, init⟩ := settled ended
    exact ⟨after, isAfter, stays,
      gathered_onward env state.archive op finalizer one after init gathered (still finalizer before)⟩
  · obtain ⟨one, found, ended, _⟩ := sound.gathered old isOld
    rw [sameDrain] at found
    obtain ⟨after, isAfter, _, _, settled⟩ := onward.drains finalizer.drain one found
    refine ⟨after, isAfter, (settled ended).1, ?_⟩
    rw [failed]
    trivial
  · have bound : finalizer.drain < state.archive.drains.length := (List.getElem?_eq_some_iff.mp found).1
    refine ⟨{ one with phase := .terminated }, ?_, by simp, ?_⟩
    · rw [step, isClose, ArchiveIndexer.step, found]
      simp only [draining, if_true]
      exact List.getElem?_set_self bound
    · rw [started]
      trivial

-- A finalize moves on; its archive keeps its index, its tasks and its drains.
omit [DecidableEq File] in
theorem sound_phase (env : ArchiveDir File) (state next : SignedArchive File) (index : Nat) (finalizer : Finalizer)
    (one : Drain) (phase : FinalizePhase) (sound : state.Sound env) (found : state.archive.drains[finalizer.drain]? = some one)
    (ended : one.phase ≠ .draining) (rows : next.archive.index = state.archive.index)
    (tasks : next.archive.tasks = state.archive.tasks) (drains : next.archive.drains = state.archive.drains)
    (finalizers : next.finalizers = state.finalizers.set index { finalizer with phase := phase })
    (gathered : Gathered env state.archive finalizer.drain one phase) : next.Sound env := by
  have recorded : ∀ drain i, next.archive.Recorded drain i ↔ state.archive.Recorded drain i := by
    intro drain i
    rw [ArchiveIndexer.Recorded, ArchiveIndexer.Recorded, tasks]
  have listed : ∀ drain entries, state.archive.Listed env drain entries → next.archive.Listed env drain entries := by
    intro drain entries before
    exact ⟨before.ordered, fun i => (before.recorded i).trans (recorded drain i).symm, tasks ▸ before.rows⟩
  have payload : ∀ i, next.archive.payloadOf i = state.archive.payloadOf i := by
    intro i
    rw [ArchiveIndexer.payloadOf, ArchiveIndexer.payloadOf, tasks]
  have same : ∀ drain one phase, Gathered env state.archive drain one phase → Gathered env next.archive drain one phase := by
    intro drain one phase before
    cases phase with
    | started | failed => trivial
    | listing init => exact before
    | reading init taken rest =>
        exact ⟨before.1, listed _ _ before.2.1, fun piece member => (before.2.2 piece member).trans (payload _).symm⟩
    | signed init taken =>
        exact ⟨before.1, listed _ _ before.2.1, fun piece member => (before.2.2 piece member).trans (payload _).symm⟩
  refine ⟨⟨?_, ?_, rows ▸ sound.indexed.extent⟩, fun other member => ?_⟩
  · rw [ArchiveIndexer.Linked, rows, tasks]
    exact sound.indexed.linked
  · rw [tasks, drains]
    exact sound.indexed.named
  · rw [finalizers] at member
    rcases List.mem_or_eq_of_mem_set member with before | isNew
    · obtain ⟨drain, isDrain, ended, was⟩ := sound.gathered other before
      exact ⟨drain, drains ▸ isDrain, ended, same _ _ _ was⟩
    · subst isNew
      exact ⟨one, drains ▸ found, ended, same _ _ _ gathered⟩

theorem finalize_sound (env : ArchiveDir File) (sign : Bytes → Option SignedAsset) (state : SignedArchive File)
    (index : Nat) (sound : state.Sound env) (tidy : state.Tidy env (.finalize index)) :
    (state.step env sign (.finalize index)).Sound env := by
  rw [step]
  cases isFinalizer : state.finalizers[index]? with
  | none => exact sound
  | some finalizer =>
      dsimp only
      obtain ⟨one, found, ended, gathered⟩ := sound.gathered finalizer (List.mem_of_getElem? isFinalizer)
      rw [found]
      have own := tidy finalizer one isFinalizer found
      have moves : ∀ phase, Gathered env state.archive finalizer.drain one phase →
          (state.setPhase index finalizer phase).Sound env := fun phase =>
        sound_phase env state _ index finalizer one phase sound found ended rfl rfl rfl rfl
      dsimp only [finalize]
      cases phase : finalizer.phase with
      | started =>
          rw [phase] at own
          dsimp only
          cases isInit : state.fileOf env (initSegmentPath env.dir one.broadcast one.track) with
          | none => exact moves .failed trivial
          | some init => exact moves (.listing init) (own init isInit)
      | listing init =>
          rw [phase] at own gathered
          dsimp only
          cases rows : state.archive.index.findRange one.broadcast one.track 0 u64Max with
          | error error => exact moves .failed trivial
          | ok entries =>
              have listed := ArchiveIndexer.listed_of_own env state.archive finalizer.drain one entries sound.indexed found
                own rows
              cases entries with
              | nil => exact moves .failed trivial
              | cons entry rest => exact moves (.reading init [] (entry :: rest)) ⟨gathered, listed, by simp⟩
      | reading init taken rest =>
          rw [phase] at own gathered
          obtain ⟨isInit, listed, bytes⟩ := gathered
          cases rest with
          | nil =>
              rw [List.append_nil] at listed
              dsimp only
              cases sign (assetBytes init taken) with
              | none => exact moves .failed trivial
              | some signed =>
                  exact sound_phase env state _ index finalizer one (.signed init taken) sound found ended rfl rfl rfl rfl
                    ⟨isInit, listed, bytes⟩
          | cons entry rest =>
              dsimp only
              cases isFile : state.fileOf env entry.row.path with
              | none => exact moves .failed trivial
              | some file =>
                  refine moves (.reading init (taken ++ [(entry, file)]) rest) ⟨isInit, ?_, fun piece member => ?_⟩
                  · rwa [List.map_append, List.append_assoc]
                  · rcases List.mem_append.mp member with before | isNew
                    · exact bytes piece before
                    · rw [List.mem_singleton] at isNew
                      subst isNew
                      exact own file isFile
      | signed init taken => exact sound
      | failed => exact sound

theorem step_sound (env : ArchiveDir File) (sign : Bytes → Option SignedAsset) (state : SignedArchive File)
    (op : SigningOp) (sound : state.Sound env) (tidy : state.Tidy env op) : (state.step env sign op).Sound env := by
  cases op with
  | archive op => exact archive_sound env sign state op sound tidy
  | finalize index => exact finalize_sound env sign state index sound tidy

omit [DecidableEq File] in
theorem asset_of_gathered (env : ArchiveDir File) (archive : ArchiveIndexer File) (drain : Nat) (one : Drain)
    (init : Bytes) (taken : List Piece) (found : archive.drains[drain]? = some one)
    (gathered : Gathered env archive drain one (.signed init taken)) : archive.IsAsset drain (assetBytes init taken) := by
  obtain ⟨isInit, listed, bytes⟩ := gathered
  have starts : ∀ entry ∈ taken.map Prod.fst, archive.dtsOf entry.task = entry.row.startDts := by
    intro entry member
    obtain ⟨task, isTask, _, row⟩ := listed.rows entry member
    rw [ArchiveIndexer.dtsOf, isTask, row]
    rfl
  have ordered : ((taken.map Prod.fst).map IndexEntry.task).Pairwise
      fun first second => archive.dtsOf first < archive.dtsOf second := by
    rw [List.pairwise_map]
    refine listed.ordered.imp_of_mem fun {first second} isFirst isSecond before => ?_
    rwa [starts first isFirst, starts second isSecond]
  refine ⟨one, init, (taken.map Prod.fst).map IndexEntry.task, found, isInit, listed.recorded, ?_, ?_, ?_⟩
  · refine List.Pairwise.imp (fun {first second} before => ?_) ordered
    rintro rfl
    exact Nat.lt_irrefl _ before
  · exact ordered.imp Nat.le_of_lt
  · rw [assetBytes, List.map_map, List.map_map]
    congr 2
    exact List.map_congr_left fun piece member => bytes piece member

-- Every asset that was signed is the asset of its drain.
def SignsOwn (state : SignedArchive File) : Prop :=
  ∀ finalizer ∈ state.finalizers, ∀ init taken, finalizer.phase = .signed init taken →
    state.archive.IsAsset finalizer.drain (assetBytes init taken)

theorem signed_asset_complete (env : ArchiveDir File) (sign : Bytes → Option SignedAsset) (ops : List SigningOp)
    (tidy : Machine.AllSteps (Tidy env) (step env sign) new ops) (seen : List SigningOp) (isPrefix : seen <+: ops) :
    (Machine.run (step env sign) new seen).SignsOwn := by
  obtain ⟨later, rfl⟩ := isPrefix
  have start : (new : SignedArchive File).Sound env :=
    ⟨⟨fun _ _ found => (by cases found), fun _ _ found => (by cases found), fun _ _ found => (by cases found)⟩,
      fun _ member => (by cases member)⟩
  have sound := Machine.invariant_of_guarded (step_sound env sign) new seen start
    ((Machine.all_steps_append _ _ new seen later).mp tidy).1
  intro finalizer member init taken signed
  obtain ⟨one, found, _, gathered⟩ := sound.gathered finalizer member
  rw [signed] at gathered
  exact asset_of_gathered env _ finalizer.drain one init taken found gathered

def passThrough (bytes : Bytes) : Option SignedAsset := some ⟨bytes, []⟩

-- One drain whose only fragment is on disk before it ends.
def writtenInTime : List SigningOp :=
  [.archive (.entryCreated "live/camera" "0.mp4" 90000), .archive (.fragment 0 (keyframeAt 0 [1, 2]) (some [9])),
    .archive (.writeSegment 0), .archive (.record 0), .archive (.close 0), .finalize 0, .finalize 0, .finalize 0,
    .finalize 0]

theorem written_in_time_signed : (Machine.run (step localArchive passThrough) new writtenInTime).finalizers =
      [⟨0, .signed [9] [(⟨firstRow, 0⟩, [1, 2])]⟩] ∧
    (Machine.run (step localArchive passThrough) new writtenInTime).SignsOwn := by
  refine ⟨rfl, signed_asset_complete localArchive passThrough writtenInTime ?_ writtenInTime (List.prefix_refl _)⟩
  refine ⟨trivial, trivial, trivial, ?_, trivial, ?_, ?_, ?_, ?_, trivial⟩
  · intro task _ _ finalizer member
    cases member
  · intro finalizer one isFinalizer isDrain
    cases isFinalizer
    cases isDrain
    intro init isInit
    cases isInit
    rfl
  · intro finalizer one isFinalizer isDrain
    cases isFinalizer
    cases isDrain
    refine ⟨fun key entry isEntry _ _ => ?_, fun index task isTask _ => ?_⟩
    · have stored : ((∅ : SegmentIndex).insert ⟨"live/camera", "0.mp4", 0⟩ ⟨firstRow, 0⟩).lookup key = some entry := isEntry
      rw [Table.lookup_insert_eq] at stored
      split at stored
      · cases stored
        exact ⟨_, rfl, rfl, rfl⟩
      · cases stored
    · cases index with
      | zero =>
          cases isTask
          rfl
      | succ index => cases isTask
  · intro finalizer one isFinalizer isDrain
    cases isFinalizer
    cases isDrain
    intro bytes isFile
    cases isFile
    rfl
  · intro finalizer one isFinalizer isDrain
    cases isFinalizer
    trivial

-- The second fragment is still queued when the drain ends.
def writtenLate : List SigningOp :=
  [.archive (.entryCreated "live/camera" "0.mp4" 90000), .archive (.fragment 0 (keyframeAt 0 [1, 2]) (some [9])),
    .archive (.fragment 0 (keyframeAt 3000 [3, 4]) (some [9])), .archive (.writeSegment 0), .archive (.record 0),
    .archive (.close 0), .finalize 0, .finalize 0, .finalize 0, .finalize 0, .archive (.writeSegment 1),
    .archive (.record 1)]

theorem late_fragment_not_signed :
    ¬∀ sign ops seen, seen <+: ops → (Machine.run (step localArchive sign) new seen).SignsOwn := by
  intro always
  have own := always passThrough writtenLate writtenLate (List.prefix_refl _)
  have finalizers : (Machine.run (step localArchive passThrough) new writtenLate).finalizers =
      [⟨0, .signed [9] [(⟨firstRow, 0⟩, [1, 2])]⟩] := rfl
  rw [SignsOwn, finalizers] at own
  obtain ⟨one, init, order, _, _, recorded, _, _, bytes⟩ := own _ (List.mem_singleton_self _) _ _ rfl
  have later : 1 ∈ order := (recorded 1).mpr ⟨_, rfl, rfl, rfl⟩
  have payload : (Machine.run (step localArchive passThrough) new writtenLate).archive.payloadOf 1 = [3, 4] := rfl
  have inside : (3 : UInt8) ∈ assetBytes [9] [(⟨firstRow, 0⟩, [1, 2])] := by
    rw [bytes]
    refine List.mem_append_right _ (List.mem_flatten.mpr ⟨[3, 4], ?_, by simp⟩)
    exact List.mem_map.mpr ⟨1, later, payload⟩
  simp [assetBytes] at inside

end SignedArchive

end Lvqr.Archive
