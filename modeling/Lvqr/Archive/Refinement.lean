import Mathlib.Data.List.Induction
import Lvqr.Lib.Machine
import Lvqr.Archive.Redb

set_option autoImplicit false

-- The index refines the finite map: what a scan finds are the map's rows.
namespace Lvqr.Archive.Redb

-- Rows in the order of their streams and starts.
def keyRank (key : SegmentKey) : (List Nat ×ₗ List Nat) ×ₗ Nat :=
  toLex (streamRank (key.broadcast, key.track), key.startDts)

theorem stream_rank_injective : Function.Injective streamRank := by
  rintro ⟨broadcast, track⟩ ⟨other, last⟩ same
  obtain ⟨first, second⟩ := Prod.mk.inj (toLex.injective same)
  have sameBroadcast : broadcast = other := name_bytes_injective _ _ (ByteOrder.rank_injective first)
  have sameTrack : track = last := name_bytes_injective _ _ (ByteOrder.rank_injective second)
  rw [sameBroadcast, sameTrack]

theorem key_rank_injective : Function.Injective keyRank := by
  rintro ⟨broadcast, track, start⟩ ⟨other, last, begin⟩ same
  obtain ⟨stream, sameStart⟩ := Prod.mk.inj (toLex.injective same)
  obtain ⟨rfl, rfl⟩ : broadcast = other ∧ track = last := Prod.mk.inj (stream_rank_injective stream)
  obtain rfl : start = begin := sameStart
  rfl

-- The rows of one stream in the order of their starts.
def SegmentMap.rows (map : SegmentMap) (broadcast track : String) : List SegmentRef :=
  ((map.inOrder keyRank).map Prod.snd).filter fun segment => OfStream segment broadcast track

def ByStart (segments : List SegmentRef) : Prop := segments.Pairwise fun first second => first.startDts < second.startDts

theorem mem_rows (map : SegmentMap) (broadcast track : String) (filed : Filed map) (segment : SegmentRef) :
    segment ∈ map.rows broadcast track ↔ map.lookup segment.key = some segment ∧ OfStream segment broadcast track := by
  rw [SegmentMap.rows, List.mem_filter, decide_eq_true_eq, List.mem_map]
  refine and_congr_left fun _ => ⟨?_, fun known => ⟨(segment.key, segment), ?_, rfl⟩⟩
  · rintro ⟨⟨key, row⟩, inside, rfl⟩
    have known := (Table.mem_in_order keyRank map key row).mp inside
    have same : row.key = key := (filed.filed key row known).1
    rwa [same]
  · exact (Table.mem_in_order keyRank map _ _).mpr known

theorem rows_by_start (map : SegmentMap) (broadcast track : String) (filed : Filed map) :
    ByStart (map.rows broadcast track) := by
  have ascending := Table.in_order_ascending keyRank key_rank_injective map
  have keyed : ∀ entry ∈ map.inOrder keyRank, entry.2.key = entry.1 := by
    rintro ⟨key, row⟩ inside
    exact (filed.filed key row ((Table.mem_in_order keyRank map key row).mp inside)).1
  have ordered : ((map.inOrder keyRank).map Prod.snd).Pairwise fun first second => keyRank first.key < keyRank second.key := by
    rw [List.pairwise_map]
    refine List.Pairwise.imp_of_mem (fun member memberToo less => ?_) ascending
    rw [keyed _ member, keyed _ memberToo]
    exact less
  refine List.Pairwise.imp_of_mem (fun {first second} member memberToo less => ?_) (ordered.filter _)
  have ofStream := of_decide_eq_true (List.mem_filter.mp member).2
  have ofStreamToo := of_decide_eq_true (List.mem_filter.mp memberToo).2
  rw [key_of_stream _ _ _ ofStream, key_of_stream _ _ _ ofStreamToo] at less
  exact (Prod.Lex.toLex_lt_toLex.mp less).resolve_left (lt_irrefl _) |>.2

theorem by_start_ext (first second : List SegmentRef) (ordered : ByStart first) (orderedToo : ByStart second)
    (same : ∀ segment, segment ∈ first ↔ segment ∈ second) : first = second := by
  have distinct : ∀ segments, ByStart segments → segments.Nodup := fun segments byStart =>
    byStart.imp fun less equal => absurd less (by rw [equal]; exact Nat.lt_irrefl _)
  have perm : first.Perm second :=
    (List.perm_ext_iff_of_nodup (distinct first ordered) (distinct second orderedToo)).mpr same
  exact perm.eq_of_pairwise (fun _ _ _ _ less greater => absurd less (Nat.lt_asymm greater)) ordered orderedToo

-- The last row is the one with the greatest start.
theorem last_iff (rows : List SegmentRef) (byStart : ByStart rows) (last : SegmentRef) :
    rows.getLast? = some last ↔ last ∈ rows ∧ ∀ segment ∈ rows, segment.startDts ≤ last.startDts := by
  rcases List.eq_nil_or_concat rows with rfl | ⟨before, final, rfl⟩
  · simp
  · rw [List.concat_eq_append] at byStart ⊢
    have earlier : ∀ segment ∈ before, segment.startDts < final.startDts := fun segment member =>
      (List.pairwise_append.mp byStart).2.2 segment member final (List.mem_singleton_self _)
    rw [List.getLast?_concat]
    constructor
    · intro same
      obtain rfl := Option.some.inj same
      refine ⟨List.mem_append_right _ (List.mem_singleton_self _), fun segment member => ?_⟩
      cases List.mem_append.mp member with
      | inl old => exact Nat.le_of_lt (earlier segment old)
      | inr new => exact Nat.le_of_eq (by rw [List.mem_singleton.mp new])
    · rintro ⟨member, greatest⟩
      cases List.mem_append.mp member with
      | inl old =>
          have notLater := greatest final (List.mem_append_right _ (List.mem_singleton_self _))
          exact absurd (earlier last old) (Nat.not_lt.mpr notLater)
      | inr new => rw [List.mem_singleton.mp new]

theorem exists_map_eq {Row Entry : Type} (write : Row → Entry) (known : Row → Prop) (entries : List Entry)
    (all : ∀ entry ∈ entries, ∃ row, known row ∧ write row = entry) :
    ∃ rows : List Row, entries = rows.map write ∧ ∀ row ∈ rows, known row := by
  induction entries with
  | nil => exact ⟨[], rfl, fun row member => absurd member List.not_mem_nil⟩
  | cons entry entries ih =>
      obtain ⟨here, later⟩ := List.forall_mem_cons.mp all
      obtain ⟨row, isKnown, rfl⟩ := here
      obtain ⟨rows, rfl, allKnown⟩ := ih later
      exact ⟨row :: rows, rfl, List.forall_mem_cons.mpr ⟨isKnown, allKnown⟩⟩

-- The entries of the table are the encoded rows of the map, and those of one stream
-- stand in the order of their starts.
theorem entries_written (map : SegmentMap) (table : SegmentsTable) (stores : Stores map table) :
    ∃ segments : List SegmentRef, table.inOrder ByteOrder.rank = segments.map rawRow ∧
      (∀ segment, segment ∈ segments ↔ map.lookup segment.key = some segment) ∧
      ∀ broadcast track, (segments.filter fun segment => OfStream segment broadcast track) = map.rows broadcast track := by
  obtain ⟨segments, written, sound⟩ := exists_map_eq rawRow (fun segment => map.lookup segment.key = some segment)
    (table.inOrder ByteOrder.rank) fun ⟨raw, value⟩ inside =>
      stores.known raw value ((Table.mem_in_order ByteOrder.rank table raw value).mp inside)
  have known : ∀ segment, segment ∈ segments ↔ map.lookup segment.key = some segment := by
    refine fun segment => ⟨sound segment, fun found => ?_⟩
    have inside : rawRow segment ∈ segments.map rawRow := by
      rw [← written]
      exact (Table.mem_in_order ByteOrder.rank table _ _).mpr (stores.written _ segment found)
    obtain ⟨other, member, same⟩ := List.mem_map.mp inside
    have otherFound := sound other member
    obtain ⟨-, inRange, recordable⟩ := stores.filed _ segment found
    obtain ⟨-, otherInRange, otherRecordable⟩ := stores.filed _ other otherFound
    have sameKey := raw_key_inj other segment otherInRange inRange otherRecordable recordable (Prod.mk.inj same).1
    rw [sameKey, found] at otherFound
    rwa [Option.some.inj otherFound]
  have ascending := Table.in_order_ascending ByteOrder.rank ByteOrder.rank_injective table
  rw [written] at ascending
  refine ⟨segments, written, known, fun broadcast track => ?_⟩
  refine by_start_ext _ _ ?_ (rows_by_start map broadcast track stores.toFiled) fun segment => ?_
  · refine List.Pairwise.imp_of_mem (fun {first second} member memberToo less => ?_)
      ((List.pairwise_map.mp ascending).filter _)
    obtain ⟨isFirst, passes⟩ := List.mem_filter.mp member
    obtain ⟨isSecond, passesToo⟩ := List.mem_filter.mp memberToo
    have less' : ByteOrder.rank (rawKey first.key) < ByteOrder.rank (rawKey second.key) := less
    rw [key_of_stream _ _ _ (of_decide_eq_true passes), key_of_stream _ _ _ (of_decide_eq_true passesToo)] at less'
    exact (raw_key_lt _ _ _ _ (stores.filed _ first (sound first isFirst)).2.1.startDts
      (stores.filed _ second (sound second isSecond)).2.1.startDts).mp less'
  · rw [List.mem_filter, decide_eq_true_eq, known, mem_rows map broadcast track stores.toFiled]

-- A scan whose bounds let through one stream finds rows of that stream, by their start.
theorem scan_rows (map : SegmentMap) (table : SegmentsTable) (stores : Stores map table) (broadcast track : String)
    (inside : Bytes × Bytes → Bool) (wanted : SegmentRef → Bool)
    (agree : ∀ segment, map.lookup segment.key = some segment →
      (inside (rawRow segment) = true ↔ OfStream segment broadcast track ∧ wanted segment = true)) :
    (table.inOrder ByteOrder.rank).filter inside = ((map.rows broadcast track).filter wanted).map rawRow := by
  obtain ⟨segments, written, known, streams⟩ := entries_written map table stores
  rw [written, List.filter_map, ← streams, List.filter_filter]
  refine congrArg _ (List.filter_congr fun segment member => ?_)
  rw [Bool.eq_iff_iff, Bool.and_eq_true, decide_eq_true_eq, and_comm]
  exact agree segment ((known segment).mp member)

theorem range_rows (map : SegmentMap) (table : SegmentsTable) (stores : Stores map table) (broadcast track : String)
    (fit : NamesFit broadcast track) (low high : Nat) (u64 : low < 2 ^ 64) (u64Too : high < 2 ^ 64) :
    range table (rawKey ⟨broadcast, track, low⟩) (rawKey ⟨broadcast, track, high⟩) =
      ((map.rows broadcast track).filter fun segment => low ≤ segment.startDts ∧ segment.startDts < high).map rawRow := by
  refine scan_rows map table stores broadcast track _ _ fun segment found => ?_
  obtain ⟨-, inRange, recordable⟩ := stores.filed _ segment found
  rw [decide_eq_true_eq, decide_eq_true_eq]
  have bounds : OfStream segment broadcast track →
      ((ByteOrder.rank (rawKey ⟨broadcast, track, low⟩) ≤ ByteOrder.rank (rawRow segment).1 ∧
        ByteOrder.rank (rawRow segment).1 < ByteOrder.rank (rawKey ⟨broadcast, track, high⟩)) ↔
        low ≤ segment.startDts ∧ segment.startDts < high) := by
    intro ofStream
    have isKey : (rawRow segment).1 = rawKey ⟨broadcast, track, segment.startDts⟩ := by
      rw [rawRow, key_of_stream _ _ _ ofStream]
    rw [isKey, raw_key_le _ _ _ _ u64 inRange.startDts, raw_key_lt _ _ _ _ inRange.startDts u64Too]
  constructor
  · intro within
    have ofStream := between_keys broadcast track low high segment fit recordable within.1 (le_of_lt within.2)
    exact ⟨ofStream, (bounds ofStream).mp within⟩
  · rintro ⟨ofStream, within⟩
    exact (bounds ofStream).mpr within

theorem range_all_rows (map : SegmentMap) (table : SegmentsTable) (stores : Stores map table) (broadcast track : String)
    (fit : NamesFit broadcast track) :
    rangeInclusive table (rawKey ⟨broadcast, track, 0⟩) (rawKey ⟨broadcast, track, u64Max⟩) =
      (map.rows broadcast track).map rawRow := by
  have all := scan_rows map table stores broadcast track (fun entry =>
    decide (ByteOrder.rank (rawKey ⟨broadcast, track, 0⟩) ≤ ByteOrder.rank entry.1 ∧
      ByteOrder.rank entry.1 ≤ ByteOrder.rank (rawKey ⟨broadcast, track, u64Max⟩))) (fun _ => true) fun segment found => by
    obtain ⟨-, inRange, recordable⟩ := stores.filed _ segment found
    rw [decide_eq_true_eq, eq_self_iff_true, and_true]
    constructor
    · exact fun within => between_keys broadcast track 0 u64Max segment fit recordable within.1 within.2
    · intro ofStream
      have isKey : (rawRow segment).1 = rawKey ⟨broadcast, track, segment.startDts⟩ := by
        rw [rawRow, key_of_stream _ _ _ ofStream]
      rw [isKey, raw_key_le _ _ _ _ (by decide) inRange.startDts, raw_key_le _ _ _ _ inRange.startDts (by decide)]
      exact ⟨Nat.zero_le _, Nat.le_of_lt_succ inRange.startDts⟩
  rw [List.filter_eq_self.mpr fun _ _ => rfl] at all
  exact all

theorem entry_decode (segment : SegmentRef) (inRange : InRange segment) (recordable : Recordable segment) :
    decodeEntry (rawRow segment) = decode segment.key (encodeValue segment) := by
  have key : decodeKey (rawRow segment).1 = .ok segment.key :=
    decode_key_written segment.broadcast segment.track segment.startDts recordable.2 inRange.startDts
  rw [decodeEntry, key]
  rfl

theorem decode_all_ok (segments : List SegmentRef)
    (good : ∀ segment ∈ segments, InRange segment ∧ Recordable segment ∧ PathFits segment) :
    decodeAll (segments.map rawRow) = .ok segments := by
  induction segments with
  | nil => rfl
  | cons segment segments ih =>
      obtain ⟨⟨inRange, recordable, fits⟩, later⟩ := List.forall_mem_cons.mp good
      rw [List.map_cons, decodeAll, entry_decode segment inRange recordable, decode_written segment inRange fits, ih later]
      rfl

theorem decode_all_fits (segments rows : List SegmentRef)
    (good : ∀ segment ∈ segments, InRange segment ∧ Recordable segment)
    (decoded : decodeAll (segments.map rawRow) = .ok rows) :
    rows = segments ∧ ∀ segment ∈ segments, PathFits segment := by
  induction segments generalizing rows with
  | nil => exact ⟨(Except.ok.inj decoded).symm, fun segment member => absurd member List.not_mem_nil⟩
  | cons segment segments ih =>
      obtain ⟨⟨inRange, recordable⟩, later⟩ := List.forall_mem_cons.mp good
      rw [List.map_cons, decodeAll, entry_decode segment inRange recordable] at decoded
      by_cases fits : PathFits segment
      · rw [decode_written segment inRange fits] at decoded
        cases rest : decodeAll (segments.map rawRow) with
        | error error =>
            rw [rest] at decoded
            cases decoded
        | ok others =>
            rw [rest] at decoded
            obtain ⟨rfl, allFit⟩ := ih others later rest
            exact ⟨(Except.ok.inj decoded).symm, List.forall_mem_cons.mpr ⟨fits, allFit⟩⟩
      · obtain ⟨error, failed⟩ := decode_long_path segment inRange fits
        rw [failed] at decoded
        cases decoded

theorem rows_good (map : SegmentMap) (filed : Filed map) (broadcast track : String) :
    ∀ segment ∈ map.rows broadcast track, InRange segment ∧ Recordable segment := fun segment member =>
  (filed.filed _ segment ((mem_rows map broadcast track filed segment).mp member).1).2

theorem latest_eq (map : SegmentMap) (table : SegmentsTable) (stores : Stores map table) (broadcast track : String)
    (fit : NamesFit broadcast track) :
    table.latest broadcast track = (decodeAll ((map.rows broadcast track).map rawRow)).map List.getLast? := by
  rw [SegmentsTable.latest, prefixLower, prefixUpper, encode_key_ok _ _ _ fit, encode_key_ok _ _ _ fit,
    ← range_all_rows map table stores broadcast track fit]
  rfl

theorem find_range_eq (map : SegmentMap) (table : SegmentsTable) (stores : Stores map table) (broadcast track : String)
    (fit : NamesFit broadcast track) (queryStart queryEnd : Nat) (u64 : queryStart < 2 ^ 64) (u64Too : queryEnd < 2 ^ 64)
    (nonempty : queryStart < queryEnd) :
    table.findRange broadcast track queryStart queryEnd = (do
      let earlier ← decodeAll (((map.rows broadcast track).filter fun segment => segment.startDts < queryStart).map rawRow)
      let within ← decodeAll (((map.rows broadcast track).filter fun segment =>
        queryStart ≤ segment.startDts ∧ segment.startDts < queryEnd).map rawRow)
      pure ((earlier.getLast?.filter fun segment => queryStart < segment.endDts).toList ++ within)) := by
  have early := range_rows map table stores broadcast track fit 0 queryStart (by decide) u64
  have whole : (fun segment : SegmentRef => decide (0 ≤ segment.startDts ∧ segment.startDts < queryStart)) =
      fun segment => decide (segment.startDts < queryStart) := by
    funext segment
    rw [decide_eq_decide, and_iff_right (Nat.zero_le _)]
  rw [whole] at early
  rw [← early, ← range_rows map table stores broadcast track fit queryStart queryEnd u64 u64Too, SegmentsTable.findRange,
    if_neg (Nat.not_le.mpr nonempty), prefixLower, prefixUpper, encode_key_ok _ _ _ fit, encode_key_ok _ _ _ fit,
    encode_key_ok _ _ _ fit, encode_key_ok _ _ _ fit]
  rfl

-- What a summary is to say of the rows of a stream.
structure Summarises (rows : List SegmentRef) (summary : ArchiveSummary) : Prop where
  counts : summary.segmentCount = rows.length
  starts : IsLeast { start | ∃ segment ∈ rows, segment.startDts = start } summary.firstStartDts
  ends : IsGreatest { stop | ∃ segment ∈ rows, segment.endDts = stop } summary.lastEndDts
  scale : ∃ first ∈ rows, first.startDts = summary.firstStartDts ∧ first.timescale = summary.timescale
  bytes : summary.totalBytes = (rows.map SegmentRef.length).sum

-- The summary of rows taken in order, in sums without bound.
def extend (summary : ArchiveSummary) (segment : SegmentRef) : ArchiveSummary :=
  { summary with
    segmentCount := summary.segmentCount + 1
    firstStartDts := min summary.firstStartDts segment.startDts
    lastEndDts := max summary.lastEndDts segment.endDts
    totalBytes := summary.totalBytes + segment.length }

def summaryOf : List SegmentRef → Option ArchiveSummary
  | [] => none
  | first :: rest => some (rest.foldl extend (.first first))

theorem summary_snoc (rows : List SegmentRef) (segment : SegmentRef) :
    summaryOf (rows ++ [segment]) = some (match summaryOf rows with
      | none => .first segment
      | some summary => extend summary segment) := by
  cases rows with
  | nil => rfl
  | cons first rest =>
      rw [List.cons_append, summaryOf, List.foldl_append]
      rfl

theorem summary_total (rows : List SegmentRef) (summary : ArchiveSummary) (isSummary : summaryOf rows = some summary) :
    summary.totalBytes = (rows.map SegmentRef.length).sum := by
  induction rows using List.reverseRecOn generalizing summary with
  | nil => cases isSummary
  | append_singleton rows segment ih =>
      rw [summary_snoc] at isSummary
      obtain rfl := Option.some.inj isSummary
      rw [List.map_append, List.sum_append, List.map_singleton, List.sum_singleton]
      cases before : summaryOf rows with
      | none =>
          cases rows with
          | nil => exact (Nat.zero_add _).symm
          | cons first rest => cases before
      | some summary => rw [← ih summary before]; rfl

-- Rows by their start are summed up exactly.
theorem summary_exact (rows : List SegmentRef) (byStart : ByStart rows) (summary : ArchiveSummary)
    (isSummary : summaryOf rows = some summary) : Summarises rows summary := by
  induction rows using List.reverseRecOn generalizing summary with
  | nil => cases isSummary
  | append_singleton rows segment ih =>
      have total := summary_total _ summary isSummary
      rw [summary_snoc] at isSummary
      obtain rfl := Option.some.inj isSummary
      obtain ⟨ordered, -, later⟩ := List.pairwise_append.mp byStart
      cases before : summaryOf rows with
      | none =>
          cases rows with
          | cons first rest => cases before
          | nil =>
              rw [before] at total
              have only := List.mem_singleton_self segment
              refine ⟨rfl, ⟨⟨segment, only, rfl⟩, ?_⟩, ⟨⟨segment, only, rfl⟩, ?_⟩, ⟨segment, only, rfl, rfl⟩, total⟩
              · rintro start ⟨other, member, rfl⟩
                rw [List.mem_singleton.mp member]
                exact Nat.le_refl _
              · rintro stop ⟨other, member, rfl⟩
                rw [List.mem_singleton.mp member]
                exact Nat.le_refl _
      | some summary =>
          have sofar := ih ordered summary before
          obtain ⟨first, isFirst, firstStart, firstScale⟩ := sofar.scale
          have startsBefore : first.startDts < segment.startDts := later first isFirst segment (List.mem_singleton_self _)
          have least : min summary.firstStartDts segment.startDts = summary.firstStartDts :=
            Nat.min_eq_left (Nat.le_of_lt (firstStart ▸ startsBefore))
          rw [before] at total
          have starts : first.startDts = (extend summary segment).firstStartDts := firstStart.trans least.symm
          have isFirst' : first ∈ rows ++ [segment] := List.mem_append_left _ isFirst
          refine ⟨?_, ⟨⟨first, isFirst', starts⟩, ?_⟩, ⟨?_, ?_⟩, ⟨first, isFirst', starts, firstScale⟩, total⟩
          · rw [List.length_append, ← sofar.counts]
            rfl
          · rintro start ⟨other, member, rfl⟩
            cases List.mem_append.mp member with
            | inl old => exact Nat.le_trans (Nat.min_le_left _ _) (sofar.starts.2 ⟨other, old, rfl⟩)
            | inr new =>
                rw [List.mem_singleton.mp new]
                exact Nat.min_le_right _ _
          · cases Nat.le_total segment.endDts summary.lastEndDts with
            | inl earlier =>
                obtain ⟨longest, member, isEnd⟩ := sofar.ends.1
                exact ⟨longest, List.mem_append_left _ member, isEnd.trans (Nat.max_eq_left earlier).symm⟩
            | inr longer => exact ⟨segment, by simp, (Nat.max_eq_right longer).symm⟩
          · rintro stop ⟨other, member, rfl⟩
            cases List.mem_append.mp member with
            | inl old => exact Nat.le_trans (sofar.ends.2 ⟨other, old, rfl⟩) (Nat.le_max_left _ _)
            | inr new =>
                rw [List.mem_singleton.mp new]
                exact Nat.le_max_right _ _

theorem summary_names (rows : List SegmentRef) (broadcast track : String) (summary : ArchiveSummary)
    (ofStream : ∀ segment ∈ rows, OfStream segment broadcast track) (isSummary : summaryOf rows = some summary) :
    summary.broadcast = broadcast ∧ summary.track = track := by
  cases rows with
  | nil => cases isSummary
  | cons first rest =>
      obtain rfl := Option.some.inj isSummary
      have kept : ∀ (segments : List SegmentRef) (start : ArchiveSummary),
          (segments.foldl extend start).broadcast = start.broadcast ∧ (segments.foldl extend start).track = start.track := by
        intro segments
        induction segments with
        | nil => exact fun start => ⟨rfl, rfl⟩
        | cons segment segments ih => exact fun start => ih (extend start segment)
      obtain ⟨sameBroadcast, sameTrack⟩ := kept rest (.first first)
      rw [sameBroadcast, sameTrack]
      exact ofStream first List.mem_cons_self

def rowsOf (segments : List SegmentRef) (stream : String × String) : List SegmentRef :=
  segments.filter fun segment => OfStream segment stream.1 stream.2

def totalBytes (rows : List SegmentRef) : Nat := (rows.map SegmentRef.length).sum

theorem total_append (first second : List SegmentRef) (stream : String × String) :
    totalBytes (rowsOf (first ++ second) stream) = totalBytes (rowsOf first stream) + totalBytes (rowsOf second stream) := by
  rw [rowsOf, List.filter_append, totalBytes, List.map_append, List.sum_append]
  rfl

-- What the scan has built from the rows it has seen.
def Built (acc : Summaries) (seen : List SegmentRef) : Prop := ∀ stream, acc.lookup stream = summaryOf (rowsOf seen stream)

theorem add_row_exact (overflowChecks : Bool) (acc : Summaries) (seen : List SegmentRef) (segment : SegmentRef)
    (built : Built acc seen)
    (small : totalBytes (rowsOf (seen ++ [segment]) (segment.broadcast, segment.track)) < 2 ^ 64) :
    ∃ added, addRow overflowChecks acc segment = some added ∧ Built added (seen ++ [segment]) := by
  have here : rowsOf (seen ++ [segment]) (segment.broadcast, segment.track) =
      rowsOf seen (segment.broadcast, segment.track) ++ [segment] := by
    have own : OfStream segment segment.broadcast segment.track := ⟨rfl, rfl⟩
    simp [rowsOf, own]
  have elsewhere : ∀ stream, stream ≠ (segment.broadcast, segment.track) →
      rowsOf (seen ++ [segment]) stream = rowsOf seen stream := by
    rintro ⟨broadcast, track⟩ differ
    have foreign : ¬ OfStream segment broadcast track := fun own => differ (by rw [← own.1, ← own.2])
    simp [rowsOf, foreign]
  have found := built (segment.broadcast, segment.track)
  have inserted : ∀ summary, summaryOf (rowsOf (seen ++ [segment]) (segment.broadcast, segment.track)) = some summary →
      Built (acc.insert (segment.broadcast, segment.track) summary) (seen ++ [segment]) := by
    intro summary isSummary stream
    rw [Table.lookup_insert_eq]
    by_cases own : stream = (segment.broadcast, segment.track)
    · rw [if_pos own, own, isSummary]
    · rw [if_neg own, elsewhere stream own, built stream]
  rw [addRow]
  rw [here] at inserted small
  cases before : summaryOf (rowsOf seen (segment.broadcast, segment.track)) with
  | none =>
      rw [found, before]
      exact ⟨_, rfl, inserted _ (by rw [summary_snoc, before])⟩
  | some summary =>
      have total := summary_total _ summary before
      rw [totalBytes, List.map_append, List.sum_append, List.map_singleton, List.sum_singleton, ← total] at small
      rw [found, before]
      dsimp only
      rw [ArchiveSummary.add, addU64, if_pos small]
      exact ⟨_, rfl, inserted _ (by rw [summary_snoc, before]; rfl)⟩

theorem summarise_exact (overflowChecks : Bool) (segments seen : List SegmentRef) (acc : Summaries) (built : Built acc seen)
    (good : ∀ segment ∈ segments, InRange segment ∧ Recordable segment ∧ PathFits segment)
    (small : ∀ stream, totalBytes (rowsOf (seen ++ segments) stream) < 2 ^ 64) :
    ∃ done, summarise overflowChecks acc (segments.map rawRow) = some (.ok done) ∧ Built done (seen ++ segments) := by
  induction segments generalizing seen acc with
  | nil => exact ⟨acc, rfl, by rwa [List.append_nil]⟩
  | cons segment segments ih =>
      obtain ⟨⟨inRange, recordable, fits⟩, later⟩ := List.forall_mem_cons.mp good
      have front : seen ++ segment :: segments = seen ++ [segment] ++ segments := (List.append_cons _ _ _)
      rw [front] at small ⊢
      have now : totalBytes (rowsOf (seen ++ [segment]) (segment.broadcast, segment.track)) < 2 ^ 64 := by
        refine Nat.lt_of_le_of_lt ?_ (small (segment.broadcast, segment.track))
        rw [total_append (seen ++ [segment]) segments]
        exact Nat.le_add_right _ _
      obtain ⟨added, isAdded, builtAdded⟩ := add_row_exact overflowChecks acc seen segment built now
      obtain ⟨done, isDone, builtDone⟩ := ih (seen ++ [segment]) added builtAdded later small
      refine ⟨done, ?_, builtDone⟩
      rw [List.map_cons, summarise, entry_decode segment inRange recordable, decode_written segment inRange fits]
      dsimp only
      rw [isAdded]
      exact isDone

-- A total that came out is a u64.
theorem summarise_totals (overflowChecks : Bool) (segments : List SegmentRef) (acc done : Summaries)
    (good : ∀ segment ∈ segments, InRange segment ∧ Recordable segment ∧ PathFits segment)
    (small : ∀ stream summary, acc.lookup stream = some summary → summary.totalBytes < 2 ^ 64)
    (isDone : summarise overflowChecks acc (segments.map rawRow) = some (.ok done)) :
    ∀ stream summary, done.lookup stream = some summary → summary.totalBytes < 2 ^ 64 := by
  induction segments generalizing acc with
  | nil =>
      obtain rfl := Except.ok.inj (Option.some.inj isDone)
      exact small
  | cons segment segments ih =>
      obtain ⟨⟨inRange, recordable, fits⟩, later⟩ := List.forall_mem_cons.mp good
      rw [List.map_cons, summarise, entry_decode segment inRange recordable, decode_written segment inRange fits] at isDone
      obtain ⟨added, isAdded, rest⟩ := Option.bind_eq_some_iff.mp isDone
      refine ih added later ?_ rest
      have inserted : ∀ value : ArchiveSummary, value.totalBytes < 2 ^ 64 → ∀ stream summary,
          (acc.insert (segment.broadcast, segment.track) value).lookup stream = some summary → summary.totalBytes < 2 ^ 64 := by
        intro value fitsValue stream summary found
        rcases Table.insert_cases found with ⟨-, rfl⟩ | ⟨-, old⟩
        · exact fitsValue
        · exact small stream summary old
      rw [addRow] at isAdded
      split at isAdded
      · obtain rfl := Option.some.inj isAdded
        exact inserted _ inRange.length
      · rename_i summary before
        obtain ⟨value, isValue, rfl⟩ := Option.map_eq_some_iff.mp isAdded
        refine inserted value ?_
        obtain ⟨total, isTotal, rfl⟩ := Option.map_eq_some_iff.mp isValue
        rw [addU64] at isTotal
        split at isTotal
        · rename_i fitsSum
          obtain rfl := Option.some.inj isTotal
          exact fitsSum
        · split at isTotal
          · cases isTotal
          · obtain rfl := Option.some.inj isTotal
            exact Nat.mod_lt _ (by decide)

-- A row as a caller hands it over.
abbrev TypedSegment := { segment : SegmentRef // InRange segment }

-- A refused row leaves the table as it was.
def SegmentsTable.apply (table : SegmentsTable) (segment : TypedSegment) : SegmentsTable :=
  (table.record segment.1).toOption.getD table

def SegmentMap.apply (map : SegmentMap) (segment : TypedSegment) : SegmentMap := map.record segment.1

theorem apply_recordable (table : SegmentsTable) (segment : TypedSegment) (recordable : Recordable segment.1) :
    table.apply segment = table.insert (rawKey segment.1.key) (encodeValue segment.1) := by
  rw [SegmentsTable.apply, SegmentsTable.record, if_neg (Nat.not_le.mpr recordable.1), encode_key_ok _ _ _ recordable.2]
  rfl

theorem apply_refused (table : SegmentsTable) (segment : TypedSegment) (refused : ¬ Recordable segment.1) :
    table.apply segment = table := by
  rw [SegmentsTable.apply, SegmentsTable.record]
  split
  · rfl
  · rename_i longer
    have unfit : ¬ NamesFit segment.1.broadcast segment.1.track := fun fit => refused ⟨Nat.not_le.mp longer, fit⟩
    obtain ⟨error, failed⟩ := encode_key_unfit _ _ segment.1.startDts unfit
    rw [failed]
    rfl

theorem stores_step (map : SegmentMap) (table : SegmentsTable) (segment : TypedSegment) (stores : Stores map table) :
    Stores (map.apply segment) (table.apply segment) := by
  rw [SegmentMap.apply, SegmentMap.record]
  split
  · rename_i recordable
    rw [apply_recordable table segment recordable]
    constructor
    · constructor
      intro key row found
      rcases Table.insert_cases found with ⟨rfl, rfl⟩ | ⟨-, old⟩
      · exact ⟨rfl, segment.2, recordable⟩
      · exact stores.filed key row old
    · intro key row found
      rw [Table.lookup_insert_eq]
      rcases Table.insert_cases found with ⟨rfl, rfl⟩ | ⟨differ, old⟩
      · rw [if_pos rfl]
      · obtain ⟨rfl, inRange, recordableRow⟩ := stores.filed key row old
        have apart : rawKey row.key ≠ rawKey segment.1.key := fun same =>
          differ (raw_key_inj row segment.1 inRange segment.2 recordableRow recordable same)
        rw [if_neg apart]
        exact stores.written _ row old
    · intro raw value found
      rcases Table.insert_cases found with ⟨rfl, rfl⟩ | ⟨differ, old⟩
      · exact ⟨segment.1, by rw [Table.lookup_insert_eq, if_pos rfl], rfl⟩
      · obtain ⟨row, isRow, same⟩ := stores.known raw value old
        refine ⟨row, ?_, same⟩
        have apart : row.key ≠ segment.1.key := fun sameKey => differ (by rw [← sameKey, ← (Prod.mk.inj same).1])
        rw [Table.lookup_insert_eq, if_neg apart]
        exact isRow
  · rename_i refused
    rwa [apply_refused table segment refused]

theorem stores_empty : Stores ∅ ∅ where
  filed := fun key segment found => by cases found
  written := fun key segment found => by cases found
  known := fun raw value found => by cases found

theorem stores_run (segments : List TypedSegment) (map : SegmentMap) (table : SegmentsTable) (stores : Stores map table) :
    Stores (Machine.run SegmentMap.apply map segments) (Machine.run SegmentsTable.apply table segments) := by
  induction segments generalizing map table with
  | nil => exact stores
  | cons segment segments ih => exact ih _ _ (stores_step map table segment stores)

def IsLatest (map : SegmentMap) (broadcast track : String) : Option SegmentRef → Prop
  | none => ∀ segment, OfStream segment broadcast track → map.lookup segment.key ≠ some segment
  | some latest => OfStream latest broadcast track ∧ map.lookup latest.key = some latest ∧
      ∀ segment, OfStream segment broadcast track → map.lookup segment.key = some segment →
        segment.startDts ≤ latest.startDts

-- One summary for each stream that has rows, in the order of the streams' names.
structure Aggregates (map : SegmentMap) (summaries : List ArchiveSummary) : Prop where
  ordered : summaries.Pairwise fun first second =>
    streamRank (first.broadcast, first.track) < streamRank (second.broadcast, second.track)
  exact : ∀ summary ∈ summaries, Summarises (map.rows summary.broadcast summary.track) summary
  complete : ∀ key segment, map.lookup key = some segment →
    ∃ summary ∈ summaries, summary.broadcast = key.broadcast ∧ summary.track = key.track

-- What the index is for: a finite map from (broadcast, track, start) to rows.
structure Refines (overflowChecks : Bool) (map : SegmentMap) (table : SegmentsTable) : Prop where
  keys : ∀ broadcast track startDts raw, startDts < 2 ^ 64 → encodeKey broadcast track startDts = .ok raw →
    decodeKey raw = .ok ⟨broadcast, track, startDts⟩
  values : ∀ key segment, map.lookup key = some segment → decode key (encodeValue segment) = .ok segment
  order : ∀ broadcast track first second raw rawToo, first < 2 ^ 64 → second < 2 ^ 64 →
    encodeKey broadcast track first = .ok raw → encodeKey broadcast track second = .ok rawToo →
    (ByteOrder.rank raw < ByteOrder.rank rawToo ↔ first < second)
  rows : ∀ broadcast track startDts raw, startDts < 2 ^ 64 → encodeKey broadcast track startDts = .ok raw →
    table.lookup raw = (map.lookup ⟨broadcast, track, startDts⟩).map encodeValue
  known : ∀ raw value, table.lookup raw = some value → ∃ key, encodeKey key.broadcast key.track key.startDts = .ok raw ∧
    (map.lookup key).map encodeValue = some value
  latest : ∀ broadcast track, NamesFit broadcast track →
    ∃ found, table.latest broadcast track = .ok found ∧ IsLatest map broadcast track found
  summaries : ∃ summaries, table.listSummaries overflowChecks = some (.ok summaries) ∧ Aggregates map summaries
  isolated : ∀ broadcast track queryStart queryEnd rows, queryStart < 2 ^ 64 → queryEnd < 2 ^ 64 →
    table.findRange broadcast track queryStart queryEnd = .ok rows →
    ∀ segment ∈ rows, OfStream segment broadcast track ∧ map.lookup segment.key = some segment

-- What the machine integers of the rows and the summaries hold.
structure Bounded (map : SegmentMap) : Prop where
  paths : ∀ key segment, map.lookup key = some segment → PathFits segment
  totals : ∀ broadcast track, totalBytes (map.rows broadcast track) < 2 ^ 64

theorem names_fit_of_key (broadcast track : String) (startDts : Nat) (raw : Bytes)
    (isKey : encodeKey broadcast track startDts = .ok raw) :
    NamesFit broadcast track ∧ raw = rawKey ⟨broadcast, track, startDts⟩ := by
  by_cases fit : NamesFit broadcast track
  · rw [encode_key_ok broadcast track startDts fit] at isKey
    exact ⟨fit, (Except.ok.inj isKey).symm⟩
  · obtain ⟨error, failed⟩ := encode_key_unfit broadcast track startDts fit
    rw [failed] at isKey
    cases isKey

-- A row of the table under the key of a start is the map's row of that start.
theorem stored_row (map : SegmentMap) (table : SegmentsTable) (stores : Stores map table) (broadcast track : String)
    (startDts : Nat) (fit : NamesFit broadcast track) (u64 : startDts < 2 ^ 64) :
    table.lookup (rawKey ⟨broadcast, track, startDts⟩) = (map.lookup ⟨broadcast, track, startDts⟩).map encodeValue := by
  cases found : map.lookup ⟨broadcast, track, startDts⟩ with
  | some segment => exact stores.written _ segment found
  | none =>
      cases held : table.lookup (rawKey ⟨broadcast, track, startDts⟩) with
      | none => rfl
      | some value =>
          obtain ⟨segment, isRow, same⟩ := stores.known _ value held
          obtain ⟨-, inRange, recordable⟩ := stores.filed _ segment isRow
          have sameKey : rawKey segment.key = rawKey ⟨broadcast, track, startDts⟩ := (Prod.mk.inj same).1
          have decoded := decode_key_written segment.broadcast segment.track segment.startDts recordable.2 inRange.startDts
          have decodedToo := decode_key_written broadcast track startDts fit u64
          have isKey : segment.key = ⟨broadcast, track, startDts⟩ := by
            refine Except.ok.inj (decoded.symm.trans (Eq.trans ?_ decodedToo))
            exact congrArg decodeKey sameKey
          rw [isKey, found] at isRow
          cases isRow

theorem latest_exact (map : SegmentMap) (table : SegmentsTable) (stores : Stores map table)
    (paths : ∀ key segment, map.lookup key = some segment → PathFits segment) (broadcast track : String)
    (fit : NamesFit broadcast track) :
    ∃ found, table.latest broadcast track = .ok found ∧ IsLatest map broadcast track found := by
  have member := mem_rows map broadcast track stores.toFiled
  have decoded := decode_all_ok (map.rows broadcast track) fun segment inside =>
    ⟨(rows_good map stores.toFiled broadcast track segment inside).1,
      (rows_good map stores.toFiled broadcast track segment inside).2, paths _ segment ((member segment).mp inside).1⟩
  refine ⟨(map.rows broadcast track).getLast?, ?_, ?_⟩
  · rw [latest_eq map table stores broadcast track fit, decoded]
    rfl
  · cases isLast : (map.rows broadcast track).getLast? with
    | none =>
        intro segment ofStream found
        have inside := (member segment).mpr ⟨found, ofStream⟩
        rw [List.getLast?_eq_none_iff.mp isLast] at inside
        exact List.not_mem_nil inside
    | some last =>
        obtain ⟨inside, greatest⟩ := (last_iff _ (rows_by_start map broadcast track stores.toFiled) last).mp isLast
        obtain ⟨found, ofStream⟩ := (member last).mp inside
        exact ⟨ofStream, found, fun segment own known => greatest segment ((member segment).mpr ⟨known, own⟩)⟩

-- What a scan that knows its rows lists.
theorem built_aggregates (map : SegmentMap) (filed : Filed map) (segments : List SegmentRef) (acc : Summaries)
    (known : ∀ segment, segment ∈ segments ↔ map.lookup segment.key = some segment)
    (streams : ∀ broadcast track, (segments.filter fun segment => OfStream segment broadcast track) = map.rows broadcast track)
    (built : Built acc segments) : Aggregates map ((acc.inOrder streamRank).map Prod.snd) := by
  have named : ∀ stream summary, acc.lookup stream = some summary →
      (summary.broadcast, summary.track) = stream ∧ Summarises (map.rows stream.1 stream.2) summary := by
    intro stream summary found
    rw [built stream, rowsOf, streams] at found
    have ofStream : ∀ segment ∈ map.rows stream.1 stream.2, OfStream segment stream.1 stream.2 := fun segment inside =>
      ((mem_rows map stream.1 stream.2 filed segment).mp inside).2
    obtain ⟨sameBroadcast, sameTrack⟩ := summary_names _ _ _ summary ofStream found
    exact ⟨by rw [sameBroadcast, sameTrack], summary_exact _ (rows_by_start map _ _ filed) summary found⟩
  have entries := Table.mem_in_order streamRank acc
  constructor
  · rw [List.pairwise_map]
    refine List.Pairwise.imp_of_mem (fun member memberToo less => ?_)
      (Table.in_order_ascending streamRank stream_rank_injective acc)
    rw [(named _ _ ((entries _ _).mp member)).1, (named _ _ ((entries _ _).mp memberToo)).1]
    exact less
  · intro summary inside
    obtain ⟨⟨stream, _⟩, member, rfl⟩ := List.mem_map.mp inside
    obtain ⟨rfl, exact⟩ := named _ _ ((entries _ _).mp member)
    exact exact
  · intro key segment found
    obtain ⟨rfl, -, -⟩ := filed.filed key segment found
    have inside : segment ∈ rowsOf segments (segment.broadcast, segment.track) :=
      List.mem_filter.mpr ⟨(known segment).mpr found, decide_eq_true ⟨rfl, rfl⟩⟩
    have summed := built (segment.broadcast, segment.track)
    cases rows : rowsOf segments (segment.broadcast, segment.track) with
    | nil =>
        rw [rows] at inside
        exact absurd inside List.not_mem_nil
    | cons first rest =>
        rw [rows] at summed
        obtain ⟨sameStream, -⟩ := named _ _ summed
        obtain ⟨sameBroadcast, sameTrack⟩ := Prod.mk.inj sameStream
        exact ⟨_, List.mem_map.mpr ⟨_, (entries _ _).mpr summed, rfl⟩, sameBroadcast, sameTrack⟩

theorem summaries_exact (overflowChecks : Bool) (map : SegmentMap) (table : SegmentsTable) (stores : Stores map table)
    (bounded : Bounded map) :
    ∃ summaries, table.listSummaries overflowChecks = some (.ok summaries) ∧ Aggregates map summaries := by
  obtain ⟨segments, written, known, streams⟩ := entries_written map table stores
  have nothing : Built ∅ [] := fun stream => rfl
  obtain ⟨done, isDone, built⟩ := summarise_exact overflowChecks segments [] ∅ nothing
    (fun segment inside => by
      have found := (known segment).mp inside
      obtain ⟨-, inRange, recordable⟩ := stores.filed _ segment found
      exact ⟨inRange, recordable, bounded.paths _ segment found⟩)
    (fun stream => by
      rw [List.nil_append, rowsOf, streams]
      exact bounded.totals stream.1 stream.2)
  refine ⟨(done.inOrder streamRank).map Prod.snd, ?_, built_aggregates map stores.toFiled segments done known streams built⟩
  rw [SegmentsTable.listSummaries, written, isDone]
  rfl

theorem decode_all_ok_iff (segments rows : List SegmentRef)
    (good : ∀ segment ∈ segments, InRange segment ∧ Recordable segment) :
    decodeAll (segments.map rawRow) = .ok rows ↔ rows = segments ∧ ∀ segment ∈ segments, PathFits segment := by
  constructor
  · exact decode_all_fits segments rows good
  · rintro ⟨rfl, fits⟩
    exact decode_all_ok rows fun segment inside =>
      ⟨(good segment inside).1, (good segment inside).2, fits segment inside⟩

-- The last row from before the query, if it reaches into it.
def leading (rows : List SegmentRef) (queryStart : Nat) : List SegmentRef :=
  ((rows.filter fun segment => segment.startDts < queryStart).getLast?.filter fun segment =>
    queryStart < segment.endDts).toList

def startingWithin (rows : List SegmentRef) (queryStart queryEnd : Nat) : List SegmentRef :=
  rows.filter fun segment => queryStart ≤ segment.startDts ∧ segment.startDts < queryEnd

theorem find_range_ok_iff (map : SegmentMap) (table : SegmentsTable) (stores : Stores map table) (broadcast track : String)
    (fit : NamesFit broadcast track) (queryStart queryEnd : Nat) (u64 : queryStart < 2 ^ 64) (u64Too : queryEnd < 2 ^ 64)
    (nonempty : queryStart < queryEnd) (found : List SegmentRef) :
    table.findRange broadcast track queryStart queryEnd = .ok found ↔
      (∀ segment ∈ map.rows broadcast track, segment.startDts < queryEnd → PathFits segment) ∧
        found = leading (map.rows broadcast track) queryStart ++
          startingWithin (map.rows broadcast track) queryStart queryEnd := by
  have good : ∀ keep : SegmentRef → Bool, ∀ segment ∈ (map.rows broadcast track).filter keep,
      InRange segment ∧ Recordable segment := fun keep segment inside =>
    rows_good map stores.toFiled broadcast track segment (List.mem_of_mem_filter inside)
  have early := decode_all_ok_iff ((map.rows broadcast track).filter fun segment => segment.startDts < queryStart)
  have late := decode_all_ok_iff ((map.rows broadcast track).filter fun segment =>
    queryStart ≤ segment.startDts ∧ segment.startDts < queryEnd)
  rw [find_range_eq map table stores broadcast track fit queryStart queryEnd u64 u64Too nonempty]
  constructor
  · intro isFound
    cases first : decodeAll (((map.rows broadcast track).filter fun segment => segment.startDts < queryStart).map rawRow) with
    | error error =>
        rw [first] at isFound
        cases isFound
    | ok earlier =>
        cases second : decodeAll (((map.rows broadcast track).filter fun segment =>
          queryStart ≤ segment.startDts ∧ segment.startDts < queryEnd).map rawRow) with
        | error error =>
            rw [first, second] at isFound
            cases isFound
        | ok within =>
            rw [first, second] at isFound
            obtain ⟨rfl, earlyFit⟩ := (early earlier (good _)).mp first
            obtain ⟨rfl, lateFit⟩ := (late within (good _)).mp second
            refine ⟨fun segment inside before => ?_, (Except.ok.inj isFound).symm⟩
            cases Nat.lt_or_ge segment.startDts queryStart with
            | inl earlier => exact earlyFit segment (List.mem_filter.mpr ⟨inside, decide_eq_true earlier⟩)
            | inr later => exact lateFit segment (List.mem_filter.mpr ⟨inside, decide_eq_true ⟨later, before⟩⟩)
  · rintro ⟨fits, rfl⟩
    have first := (early _ (good _)).mpr ⟨rfl, fun segment inside => by
      obtain ⟨member, earlier⟩ := List.mem_filter.mp inside
      exact fits segment member (Nat.lt_trans (of_decide_eq_true earlier) nonempty)⟩
    have second := (late _ (good _)).mpr ⟨rfl, fun segment inside => by
      obtain ⟨member, within⟩ := List.mem_filter.mp inside
      exact fits segment member (of_decide_eq_true within).2⟩
    rw [first, second]
    rfl

theorem mem_leading_iff (rows : List SegmentRef) (byStart : ByStart rows) (queryStart : Nat) (segment : SegmentRef) :
    segment ∈ leading rows queryStart ↔ (segment ∈ rows ∧ segment.startDts < queryStart) ∧
      (∀ other ∈ rows, other.startDts < queryStart → other.startDts ≤ segment.startDts) ∧ queryStart < segment.endDts := by
  rw [leading, Option.mem_toList, Option.filter_eq_some_iff, last_iff _ (byStart.filter _), List.mem_filter,
    decide_eq_true_eq, decide_eq_true_eq, and_assoc]
  refine and_congr_right fun _ => and_congr_left fun _ => ?_
  constructor
  · exact fun greatest other member before => greatest other (List.mem_filter.mpr ⟨member, decide_eq_true before⟩)
  · intro greatest other inside
    obtain ⟨member, before⟩ := List.mem_filter.mp inside
    exact greatest other member (of_decide_eq_true before)

theorem find_range_isolated (map : SegmentMap) (table : SegmentsTable) (stores : Stores map table) (broadcast track : String)
    (queryStart queryEnd : Nat) (rows : List SegmentRef) (u64 : queryStart < 2 ^ 64) (u64Too : queryEnd < 2 ^ 64)
    (found : table.findRange broadcast track queryStart queryEnd = .ok rows) :
    ∀ segment ∈ rows, OfStream segment broadcast track ∧ map.lookup segment.key = some segment := by
  by_cases nonempty : queryStart < queryEnd
  · by_cases fit : NamesFit broadcast track
    · obtain ⟨-, rfl⟩ :=
        (find_range_ok_iff map table stores broadcast track fit queryStart queryEnd u64 u64Too nonempty rows).mp found
      intro segment inside
      have member : segment ∈ map.rows broadcast track := by
        cases List.mem_append.mp inside with
        | inl before =>
            exact ((mem_leading_iff _ (rows_by_start map broadcast track stores.toFiled) _ segment).mp before).1.1
        | inr within => exact List.mem_of_mem_filter within
      exact ((mem_rows map broadcast track stores.toFiled segment).mp member).symm
    · obtain ⟨error, failed⟩ := encode_key_unfit broadcast track 0 fit
      rw [SegmentsTable.findRange, if_neg (Nat.not_le.mpr nonempty), prefixLower, failed] at found
      cases found
  · rw [SegmentsTable.findRange, if_pos (Nat.not_lt.mp nonempty)] at found
    obtain rfl := Except.ok.inj found
    exact fun segment inside => absurd inside List.not_mem_nil

-- Where a total is past u64, the summary of its stream is another number or none at all.
theorem totals_bounded (overflowChecks : Bool) (map : SegmentMap) (table : SegmentsTable) (stores : Stores map table)
    (paths : ∀ key segment, map.lookup key = some segment → PathFits segment) (summaries : List ArchiveSummary)
    (listed : table.listSummaries overflowChecks = some (.ok summaries)) (aggregates : Aggregates map summaries)
    (broadcast track : String) : totalBytes (map.rows broadcast track) < 2 ^ 64 := by
  obtain ⟨segments, written, known, -⟩ := entries_written map table stores
  have good : ∀ segment ∈ segments, InRange segment ∧ Recordable segment ∧ PathFits segment := by
    intro segment inside
    have found := (known segment).mp inside
    obtain ⟨-, inRange, recordable⟩ := stores.filed _ segment found
    exact ⟨inRange, recordable, paths _ segment found⟩
  cases empty : map.rows broadcast track with
  | nil => exact (by decide : 0 < 2 ^ 64)
  | cons first rest =>
      have isRow := (mem_rows map broadcast track stores.toFiled first).mp (by rw [empty]; exact List.mem_cons_self)
      obtain ⟨summary, inside, sameBroadcast, sameTrack⟩ := aggregates.complete _ first isRow.1
      have bytes := (aggregates.exact summary inside).bytes
      rw [sameBroadcast, sameTrack, SegmentRef.key, isRow.2.1, isRow.2.2, empty] at bytes
      rw [totalBytes, ← bytes]
      rw [SegmentsTable.listSummaries, written] at listed
      obtain ⟨result, isResult, same⟩ := Option.map_eq_some_iff.mp listed
      cases result with
      | error error => cases same
      | ok done =>
          have small := summarise_totals overflowChecks segments ∅ done good (fun stream summary found => by cases found) isResult
          obtain rfl := Except.ok.inj same
          obtain ⟨⟨stream, _⟩, member, rfl⟩ := List.mem_map.mp inside
          exact small stream _ ((Table.mem_in_order streamRank done _ _).mp member)

theorem refines_of_bounded (overflowChecks : Bool) (map : SegmentMap) (table : SegmentsTable) (stores : Stores map table)
    (bounded : Bounded map) : Refines overflowChecks map table where
  keys := by
    intro broadcast track startDts raw u64 isKey
    obtain ⟨fit, rfl⟩ := names_fit_of_key broadcast track startDts raw isKey
    exact decode_key_written broadcast track startDts fit u64
  values := by
    intro key segment found
    obtain ⟨rfl, inRange, -⟩ := stores.filed key segment found
    exact decode_written segment inRange (bounded.paths _ segment found)
  order := by
    intro broadcast track first second raw rawToo u64 u64Too isKey isKeyToo
    obtain ⟨-, rfl⟩ := names_fit_of_key broadcast track first raw isKey
    obtain ⟨-, rfl⟩ := names_fit_of_key broadcast track second rawToo isKeyToo
    exact raw_key_lt broadcast track first second u64 u64Too
  rows := by
    intro broadcast track startDts raw u64 isKey
    obtain ⟨fit, rfl⟩ := names_fit_of_key broadcast track startDts raw isKey
    exact stored_row map table stores broadcast track startDts fit u64
  known := by
    intro raw value held
    obtain ⟨segment, found, same⟩ := stores.known raw value held
    obtain ⟨-, -, recordable⟩ := stores.filed _ segment found
    obtain ⟨rfl, rfl⟩ := Prod.mk.inj same
    refine ⟨segment.key, encode_key_ok _ _ _ recordable.2, ?_⟩
    rw [found]
    rfl
  latest := latest_exact map table stores bounded.paths
  summaries := summaries_exact overflowChecks map table stores bounded
  isolated := find_range_isolated map table stores

theorem bounded_of_refines (overflowChecks : Bool) (map : SegmentMap) (table : SegmentsTable) (stores : Stores map table)
    (refines : Refines overflowChecks map table) : Bounded map := by
  have paths : ∀ key segment, map.lookup key = some segment → PathFits segment := by
    intro key segment found
    obtain ⟨rfl, inRange, -⟩ := stores.filed key segment found
    by_contra long
    obtain ⟨error, failed⟩ := decode_long_path segment inRange long
    rw [refines.values _ segment found] at failed
    cases failed
  obtain ⟨summaries, listed, aggregates⟩ := refines.summaries
  exact ⟨paths, totals_bounded overflowChecks map table stores paths summaries listed aggregates⟩

theorem refines_map_iff (overflowChecks : Bool) (segments : List TypedSegment) :
    Refines overflowChecks (Machine.run SegmentMap.apply ∅ segments) (Machine.run SegmentsTable.apply ∅ segments) ↔
      Bounded (Machine.run SegmentMap.apply ∅ segments) := by
  have stores := stores_run segments ∅ ∅ stores_empty
  exact ⟨bounded_of_refines overflowChecks _ _ stores, refines_of_bounded overflowChecks _ _ stores⟩

-- A row that says half of what a u64 holds.
def halfFull (startDts : Nat) : SegmentRef where
  broadcast := "live"
  track := "0.mp4"
  segmentSeq := startDts
  startDts := startDts
  endDts := startDts + 1
  timescale := 90000
  keyframeStart := true
  path := "0.m4s"
  byteOffset := 0
  length := 2 ^ 63

theorem half_full_in_range (startDts : Nat) (early : startDts < 2 ^ 63) : InRange (halfFull startDts) where
  segmentSeq := Nat.lt_trans early (by decide)
  startDts := Nat.lt_trans early (by decide)
  endDts := Nat.lt_of_le_of_lt early (by decide)
  timescale := (by decide : 90000 < 2 ^ 32)
  byteOffset := (by decide : 0 < 2 ^ 64)
  length := (by decide : 2 ^ 63 < 2 ^ 64)

def halves : List TypedSegment :=
  [⟨halfFull 0, half_full_in_range 0 (by decide)⟩, ⟨halfFull 1, half_full_in_range 1 (by decide)⟩]

theorem total_wraps :
    ¬ Refines true (Machine.run SegmentMap.apply ∅ halves)
      (Machine.run SegmentsTable.apply ∅ halves) ∧
    ¬ Refines false (Machine.run SegmentMap.apply ∅ halves)
      (Machine.run SegmentsTable.apply ∅ halves) := by
  have stores := stores_run halves ∅ ∅ stores_empty
  have full : ¬ Bounded (Machine.run SegmentMap.apply ∅ halves) := fun bounded =>
    absurd (bounded.totals "live" "0.mp4") (by decide)
  exact ⟨fun refines => full (bounded_of_refines true _ _ stores refines),
    fun refines => full (bounded_of_refines false _ _ stores refines)⟩

end Lvqr.Archive.Redb
