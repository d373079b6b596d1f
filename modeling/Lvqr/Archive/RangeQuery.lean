import Lvqr.Archive.Refinement

set_option autoImplicit false

-- What a range query answers.
namespace Lvqr.Archive.Redb

-- Some instant lies in both intervals.
def Overlaps (segment : SegmentRef) (queryStart queryEnd : Nat) : Prop :=
  ∃ instant, (segment.startDts ≤ instant ∧ instant < segment.endDts) ∧ queryStart ≤ instant ∧ instant < queryEnd

def FindsOverlaps (map : SegmentMap) (table : SegmentsTable) (broadcast track : String) (queryStart queryEnd : Nat) : Prop :=
  ∃ rows, table.findRange broadcast track queryStart queryEnd = .ok rows ∧ ByStart rows ∧
    ∀ segment, segment ∈ rows ↔
      (map.lookup segment.key = some segment ∧ OfStream segment broadcast track) ∧ Overlaps segment queryStart queryEnd

-- Of the rows that start before the query, no other than the last reaches into it.
structure Answerable (map : SegmentMap) (broadcast track : String) (queryStart queryEnd : Nat) : Prop where
  names : NamesFit broadcast track
  paths : ∀ segment ∈ map.rows broadcast track, segment.startDts < queryEnd → PathFits segment
  reach : ∀ segment ∈ map.rows broadcast track, ∀ later ∈ map.rows broadcast track,
    segment.startDts < later.startDts → later.startDts < queryStart → segment.endDts ≤ queryStart

theorem overlaps_iff (segment : SegmentRef) (queryStart queryEnd : Nat) (lasts : segment.startDts < segment.endDts)
    (nonempty : queryStart < queryEnd) :
    Overlaps segment queryStart queryEnd ↔ segment.startDts < queryEnd ∧ queryStart < segment.endDts := by
  constructor
  · rintro ⟨instant, ⟨started, notOver⟩, after, before⟩
    exact ⟨Nat.lt_of_le_of_lt started before, Nat.lt_of_le_of_lt after notOver⟩
  · rintro ⟨early, late⟩
    exact ⟨max segment.startDts queryStart, ⟨Nat.le_max_left _ _, Nat.max_lt.mpr ⟨lasts, late⟩⟩, Nat.le_max_right _ _,
      Nat.max_lt.mpr ⟨early, nonempty⟩⟩

theorem found_by_start (rows : List SegmentRef) (byStart : ByStart rows) (queryStart queryEnd : Nat) :
    ByStart (leading rows queryStart ++ startingWithin rows queryStart queryEnd) := by
  refine List.pairwise_append.mpr ⟨?_, byStart.filter _, fun first isFirst second isSecond => ?_⟩
  · rw [leading]
    cases Option.filter _ _ with
    | none => exact List.Pairwise.nil
    | some segment => exact List.pairwise_singleton _ _
  · have early := ((mem_leading_iff rows byStart queryStart first).mp isFirst).1.2
    have late := (of_decide_eq_true (List.mem_filter.mp isSecond).2).1
    exact Nat.lt_of_lt_of_le early late

-- The rows that overlap are those found, where no earlier row reaches past the last.
theorem found_iff (rows : List SegmentRef) (byStart : ByStart rows) (queryStart queryEnd : Nat)
    (nonempty : queryStart < queryEnd) (lasting : ∀ segment ∈ rows, segment.startDts < segment.endDts) :
    (∀ segment, segment ∈ leading rows queryStart ++ startingWithin rows queryStart queryEnd ↔
        segment ∈ rows ∧ Overlaps segment queryStart queryEnd) ↔
      ∀ segment ∈ rows, ∀ later ∈ rows, segment.startDts < later.startDts → later.startDts < queryStart →
        segment.endDts ≤ queryStart := by
  have found : ∀ segment, segment ∈ leading rows queryStart ++ startingWithin rows queryStart queryEnd ↔
      segment ∈ leading rows queryStart ∨
        segment ∈ rows ∧ queryStart ≤ segment.startDts ∧ segment.startDts < queryEnd := by
    intro segment
    rw [List.mem_append, startingWithin, List.mem_filter, decide_eq_true_eq]
  constructor
  · intro exact segment isRow later isLater earlier before
    by_contra reaches
    have overlaps := (overlaps_iff segment queryStart queryEnd (lasting segment isRow) nonempty).mpr
      ⟨Nat.lt_trans (Nat.lt_trans earlier before) nonempty, Nat.not_le.mp reaches⟩
    cases (found segment).mp ((exact segment).mpr ⟨isRow, overlaps⟩) with
    | inl leads =>
        have greatest := ((mem_leading_iff rows byStart queryStart segment).mp leads).2.1 later isLater before
        exact absurd earlier (Nat.not_lt.mpr greatest)
    | inr within => exact absurd (Nat.lt_trans earlier before) (Nat.not_lt.mpr within.2.1)
  · intro reach segment
    rw [found, mem_leading_iff rows byStart]
    constructor
    · rintro (⟨⟨isRow, before⟩, -, late⟩ | ⟨isRow, after, before⟩)
      · have lasts := lasting segment isRow
        exact ⟨isRow, (overlaps_iff segment _ _ lasts nonempty).mpr ⟨Nat.lt_trans before nonempty, late⟩⟩
      · have lasts := lasting segment isRow
        exact ⟨isRow, (overlaps_iff segment _ _ lasts nonempty).mpr ⟨before, Nat.lt_of_le_of_lt after lasts⟩⟩
    · rintro ⟨isRow, overlaps⟩
      obtain ⟨early, late⟩ := (overlaps_iff segment _ _ (lasting segment isRow) nonempty).mp overlaps
      cases Nat.lt_or_ge segment.startDts queryStart with
      | inr after => exact .inr ⟨isRow, after, early⟩
      | inl before =>
          refine .inl ⟨⟨isRow, before⟩, fun other isOther otherBefore => ?_, late⟩
          by_contra later
          exact absurd late (Nat.not_lt.mpr (reach segment isRow other isOther (Nat.not_le.mp later) otherBefore))

theorem rows_last (map : SegmentMap) (filed : Filed map) (broadcast track : String) :
    ∀ segment ∈ map.rows broadcast track, segment.startDts < segment.endDts := fun segment isRow =>
  (rows_good map filed broadcast track segment isRow).2.1

theorem answerable_of_finds (map : SegmentMap) (table : SegmentsTable) (stores : Stores map table) (broadcast track : String)
    (queryStart queryEnd : Nat) (u64 : queryStart < 2 ^ 64) (u64Too : queryEnd < 2 ^ 64) (nonempty : queryStart < queryEnd)
    (finds : FindsOverlaps map table broadcast track queryStart queryEnd) :
    Answerable map broadcast track queryStart queryEnd := by
  obtain ⟨rows, isFound, -, all⟩ := finds
  have fit : NamesFit broadcast track := by
    by_contra unfit
    obtain ⟨error, failed⟩ := encode_key_unfit broadcast track 0 unfit
    rw [SegmentsTable.findRange, if_neg (Nat.not_le.mpr nonempty), prefixLower, failed] at isFound
    cases isFound
  obtain ⟨paths, rfl⟩ :=
    (find_range_ok_iff map table stores broadcast track fit queryStart queryEnd u64 u64Too nonempty rows).mp isFound
  have byStart := rows_by_start map broadcast track stores.toFiled
  have exact := found_iff _ byStart queryStart queryEnd nonempty (rows_last map stores.toFiled broadcast track)
  refine ⟨fit, paths, exact.mp fun segment => (all segment).trans (and_congr_left' ?_)⟩
  exact (mem_rows map broadcast track stores.toFiled segment).symm

theorem finds_of_answerable (map : SegmentMap) (table : SegmentsTable) (stores : Stores map table) (broadcast track : String)
    (queryStart queryEnd : Nat) (u64 : queryStart < 2 ^ 64) (u64Too : queryEnd < 2 ^ 64) (nonempty : queryStart < queryEnd)
    (answerable : Answerable map broadcast track queryStart queryEnd) :
    FindsOverlaps map table broadcast track queryStart queryEnd := by
  have byStart := rows_by_start map broadcast track stores.toFiled
  have exact := found_iff _ byStart queryStart queryEnd nonempty (rows_last map stores.toFiled broadcast track)
  have found := find_range_ok_iff map table stores broadcast track answerable.names queryStart queryEnd u64 u64Too nonempty
  refine ⟨_, (found _).mpr ⟨answerable.paths, rfl⟩, found_by_start _ byStart _ _, fun segment => ?_⟩
  refine (exact.mpr answerable.reach segment).trans (and_congr_left' ?_)
  exact mem_rows map broadcast track stores.toFiled segment

theorem finds_nothing (map : SegmentMap) (table : SegmentsTable) (broadcast track : String) (queryStart queryEnd : Nat)
    (empty : queryEnd ≤ queryStart) : FindsOverlaps map table broadcast track queryStart queryEnd := by
  refine ⟨[], ?_, List.Pairwise.nil, fun segment => ?_⟩
  · rw [SegmentsTable.findRange, if_pos empty]
  · refine iff_of_false List.not_mem_nil ?_
    rintro ⟨-, instant, -, after, before⟩
    exact absurd (Nat.lt_of_le_of_lt after before) (Nat.not_lt.mpr empty)

theorem find_range_exact_iff (segments : List TypedSegment) (broadcast track : String) (queryStart queryEnd : Fin (2 ^ 64)) :
    FindsOverlaps (Machine.run SegmentMap.apply ∅ segments) (Machine.run SegmentsTable.apply ∅ segments) broadcast track
        queryStart queryEnd ↔
      (queryStart < queryEnd → Answerable (Machine.run SegmentMap.apply ∅ segments) broadcast track queryStart queryEnd) := by
  have stores := stores_run segments ∅ ∅ stores_empty
  by_cases nonempty : queryStart < queryEnd
  · rw [imp_iff_right nonempty]
    exact ⟨answerable_of_finds _ _ stores broadcast track _ _ queryStart.2 queryEnd.2 nonempty,
      finds_of_answerable _ _ stores broadcast track _ _ queryStart.2 queryEnd.2 nonempty⟩
  · exact iff_of_true (finds_nothing _ _ broadcast track _ _ (Nat.not_lt.mp nonempty)) fun less => absurd less nonempty

def lasting (startDts endDts : Nat) : SegmentRef where
  broadcast := "live"
  track := "0.mp4"
  segmentSeq := startDts
  startDts := startDts
  endDts := endDts
  timescale := 90000
  keyframeStart := true
  path := "0.m4s"
  byteOffset := 0
  length := 1

theorem lasting_in_range (startDts endDts : Nat) (starts : startDts < 2 ^ 64) (ends : endDts < 2 ^ 64) :
    InRange (lasting startDts endDts) where
  segmentSeq := starts
  startDts := starts
  endDts := ends
  timescale := (by decide : 90000 < 2 ^ 32)
  byteOffset := (by decide : 0 < 2 ^ 64)
  length := (by decide : 1 < 2 ^ 64)

-- A row from 0 to 100 with one from 10 to 20 behind it.
def longThenShort : List TypedSegment :=
  [⟨lasting 0 100, lasting_in_range 0 100 (by decide) (by decide)⟩,
    ⟨lasting 10 20, lasting_in_range 10 20 (by decide) (by decide)⟩]

theorem long_row_missed :
    ¬ FindsOverlaps (Machine.run SegmentMap.apply ∅ longThenShort) (Machine.run SegmentsTable.apply ∅ longThenShort)
      "live" "0.mp4" 50 60 := by
  intro finds
  have stores := stores_run longThenShort ∅ ∅ stores_empty
  have answerable := answerable_of_finds _ _ stores "live" "0.mp4" 50 60 (by decide) (by decide) (by decide) finds
  have isLong : lasting 0 100 ∈ (Machine.run SegmentMap.apply ∅ longThenShort).rows "live" "0.mp4" := by decide
  have isShort : lasting 10 20 ∈ (Machine.run SegmentMap.apply ∅ longThenShort).rows "live" "0.mp4" := by decide
  exact absurd (answerable.reach _ isLong _ isShort (by decide) (by decide)) (by decide)

end Lvqr.Archive.Redb
