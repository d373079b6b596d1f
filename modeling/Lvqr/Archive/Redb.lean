import Mathlib.Data.Prod.Lex
import Lvqr.Archive.Index
import Lvqr.Lib.BigEndian
import Lvqr.Lib.Utf8
import Lvqr.Lib.Table

set_option autoImplicit false

-- The bytes of the index: the compound key of a row and the value behind it.
namespace Lvqr.Archive.Redb

inductive ArchiveError where
  | corrupt (message : String)
  | nonUtf8Path
deriving DecidableEq, Repr

def nameBytes (name : String) : Bytes := Utf8.encode name.toList

def streamPrefix (broadcast track : String) : Bytes :=
  BigEndian.bytes 2 (nameBytes broadcast).length ++ (nameBytes broadcast ++
    (BigEndian.bytes 2 (nameBytes track).length ++ nameBytes track))

def encodeKey (broadcast track : String) (startDts : Nat) : Except ArchiveError Bytes :=
  if u16Max < (nameBytes broadcast).length then .error (.corrupt "broadcast name exceeds 65535 bytes")
  else if u16Max < (nameBytes track).length then .error (.corrupt "track name exceeds 65535 bytes")
  else .ok (streamPrefix broadcast track ++ BigEndian.bytes 8 startDts)

-- The length of the path is a u32 cast.
def encodeValue (segment : SegmentRef) : Bytes :=
  BigEndian.bytes 8 segment.segmentSeq ++ (BigEndian.bytes 8 segment.endDts ++ (BigEndian.bytes 4 segment.timescale ++
    ([segment.keyframeStart.toUInt8] ++ (BigEndian.bytes 8 segment.byteOffset ++ (BigEndian.bytes 8 segment.length ++
      (BigEndian.bytes 4 (nameBytes segment.path).length ++ nameBytes segment.path))))))

-- A decoder moves its slice forward as it takes from it.
abbrev Decode := StateT Bytes (Except ArchiveError)

def take (label : String) (count : Nat) : Decode Bytes := fun source =>
  if source.length < count then .error (.corrupt (label ++ s!"need {count} bytes, have {source.length}"))
  else .ok (source.take count, source.drop count)

def takeNumber (label : String) (width : Nat) : Decode Nat := do
  let field ← take label width
  pure (BigEndian.value field)

def textOf (refusal : ArchiveError) (field : Bytes) : Decode String :=
  match Utf8.decode field with
  | none => throw refusal
  | some text => pure (String.ofList text)

def takeText (label : String) (count : Nat) (refusal : ArchiveError) : Decode String := do
  let field ← take label count
  textOf refusal field

def finish (what : String) : Decode Unit := fun source =>
  if source.isEmpty then .ok ((), source) else .error (.corrupt (s!"{source.length} trailing bytes after " ++ what))

def readKey : Decode SegmentKey := do
  let broadcastLen ← takeNumber "key: " 2
  let broadcast ← takeText "key: " broadcastLen (.corrupt "key broadcast not utf8")
  let trackLen ← takeNumber "key: " 2
  let track ← takeText "key: " trackLen (.corrupt "key track not utf8")
  let startDts ← takeNumber "key: " 8
  finish "key start_dts"
  pure ⟨broadcast, track, startDts⟩

def decodeKey (raw : Bytes) : Except ArchiveError SegmentKey := (readKey.run raw).map Prod.fst

def keyframeOf (byte : Nat) : Decode Bool :=
  if 1 < byte then throw (.corrupt s!"invalid keyframe byte {byte}") else pure (byte == 1)

-- The text check of the path comes behind the one for trailing bytes.
def readPath (pathLen : Nat) : Decode String := do
  let pathBytes ← take "" pathLen
  finish "path"
  textOf .nonUtf8Path pathBytes

def readValue (key : SegmentKey) : Decode SegmentRef := do
  let segmentSeq ← takeNumber "" 8
  let endDts ← takeNumber "" 8
  let timescale ← takeNumber "" 4
  let kfByte ← takeNumber "" 1
  let keyframeStart ← keyframeOf kfByte
  let byteOffset ← takeNumber "" 8
  let length ← takeNumber "" 8
  let pathLen ← takeNumber "" 4
  let path ← readPath pathLen
  pure ⟨key.broadcast, key.track, segmentSeq, key.startDts, endDts, timescale, keyframeStart, path, byteOffset, length⟩

def decode (key : SegmentKey) (value : Bytes) : Except ArchiveError SegmentRef :=
  ((readValue key).run value).map Prod.fst

-- What the machine integers of a row can hold.
structure InRange (segment : SegmentRef) : Prop where
  segmentSeq : segment.segmentSeq < 2 ^ 64
  startDts : segment.startDts < 2 ^ 64
  endDts : segment.endDts < 2 ^ 64
  timescale : segment.timescale < 2 ^ 32
  byteOffset : segment.byteOffset < 2 ^ 64
  length : segment.length < 2 ^ 64

def NamesFit (broadcast track : String) : Prop :=
  (nameBytes broadcast).length ≤ u16Max ∧ (nameBytes track).length ≤ u16Max

def PathFits (segment : SegmentRef) : Prop := (nameBytes segment.path).length < 2 ^ 32

-- A decoder that has taken its part hands the rest on.
theorem run_next {Value Next : Type} (decoder : Decode Value) (next : Value → Decode Next) (source rest : Bytes)
    (value : Value) (here : decoder.run source = .ok (value, rest)) :
    (decoder >>= next).run source = (next value).run rest := by
  rw [StateT.run_bind, here]
  rfl

theorem take_front (label : String) (count : Nat) (field rest : Bytes) (size : field.length = count) :
    (take label count).run (field ++ rest) = .ok (field, rest) := by
  have inside : ¬ (field ++ rest).length < count := by
    rw [List.length_append]
    omega
  rw [StateT.run, take, if_neg inside, List.take_left' size, List.drop_left' size]

theorem take_number_mod (label : String) (width number : Nat) (rest : Bytes) :
    (takeNumber label width).run (BigEndian.bytes width number ++ rest) = .ok (number % 256 ^ width, rest) := by
  rw [takeNumber, run_next _ _ _ _ _ (take_front label width _ rest (BigEndian.bytes_length _ _)),
    BigEndian.value_bytes_mod]
  rfl

theorem take_number (label : String) (width number : Nat) (rest : Bytes) (fits : number < 256 ^ width) :
    (takeNumber label width).run (BigEndian.bytes width number ++ rest) = .ok (number, rest) := by
  rw [take_number_mod, Nat.mod_eq_of_lt fits]

theorem text_of_name (refusal : ArchiveError) (name : String) : textOf refusal (nameBytes name) = pure name := by
  have decoded : Utf8.decode (nameBytes name) = some name.toList := (Utf8.decode_eq_some_iff _ _).mpr rfl
  rw [textOf, decoded]
  exact congrArg pure String.ofList_toList

theorem take_text (label : String) (name : String) (refusal : ArchiveError) (rest : Bytes) :
    (takeText label (nameBytes name).length refusal).run (nameBytes name ++ rest) = .ok (name, rest) := by
  rw [takeText, run_next _ _ _ _ _ (take_front label _ _ rest rfl), text_of_name]
  rfl

theorem encode_key_ok (broadcast track : String) (startDts : Nat) (fit : NamesFit broadcast track) :
    encodeKey broadcast track startDts = .ok (streamPrefix broadcast track ++ BigEndian.bytes 8 startDts) := by
  rw [encodeKey, if_neg (Nat.not_lt.mpr fit.1), if_neg (Nat.not_lt.mpr fit.2)]

theorem encode_key_unfit (broadcast track : String) (startDts : Nat) (unfit : ¬ NamesFit broadcast track) :
    ∃ error, encodeKey broadcast track startDts = .error error := by
  rw [encodeKey]
  split
  · exact ⟨_, rfl⟩
  · split
    · exact ⟨_, rfl⟩
    · rename_i broadcastFits trackFits
      exact absurd ⟨Nat.not_lt.mp broadcastFits, Nat.not_lt.mp trackFits⟩ unfit

theorem decode_key_written (broadcast track : String) (startDts : Nat) (fit : NamesFit broadcast track)
    (u64 : startDts < 2 ^ 64) :
    decodeKey (streamPrefix broadcast track ++ BigEndian.bytes 8 startDts) = .ok ⟨broadcast, track, startDts⟩ := by
  have broadcastFits : (nameBytes broadcast).length < 256 ^ 2 := Nat.lt_succ_of_le fit.1
  have trackFits : (nameBytes track).length < 256 ^ 2 := Nat.lt_succ_of_le fit.2
  have startFits : startDts < 256 ^ 8 := u64
  have last : BigEndian.bytes 8 startDts = BigEndian.bytes 8 startDts ++ [] := (List.append_nil _).symm
  have read : readKey.run (streamPrefix broadcast track ++ BigEndian.bytes 8 startDts) =
      .ok (⟨broadcast, track, startDts⟩, []) := by
    rw [readKey, streamPrefix, List.append_assoc, List.append_assoc, List.append_assoc, last,
      run_next _ _ _ _ _ (take_number "key: " 2 _ _ broadcastFits), run_next _ _ _ _ _ (take_text "key: " broadcast _ _),
      run_next _ _ _ _ _ (take_number "key: " 2 _ _ trackFits), run_next _ _ _ _ _ (take_text "key: " track _ _),
      run_next _ _ _ _ _ (take_number "key: " 8 _ _ startFits)]
    rfl
  rw [decodeKey, read]
  rfl

theorem keyframe_of_flag (flag : Bool) : keyframeOf (BigEndian.value [flag.toUInt8]) = pure flag := by
  cases flag <;> rfl

theorem take_flag (flag : Bool) (rest : Bytes) :
    (takeNumber "" 1).run ([flag.toUInt8] ++ rest) = .ok (BigEndian.value [flag.toUInt8], rest) := by
  rw [takeNumber, run_next _ _ _ _ _ (take_front "" 1 [flag.toUInt8] rest rfl)]
  rfl

-- A value up to its path, whose length field holds 32 bits of its length.
theorem read_value_fields (key : SegmentKey) (segment : SegmentRef) (inRange : InRange segment) :
    (readValue key).run (encodeValue segment) =
      (readPath ((nameBytes segment.path).length % 2 ^ 32) >>= fun path => pure ⟨key.broadcast, key.track,
        segment.segmentSeq, key.startDts, segment.endDts, segment.timescale, segment.keyframeStart, path,
        segment.byteOffset, segment.length⟩).run (nameBytes segment.path) := by
  have segmentSeq : segment.segmentSeq < 256 ^ 8 := inRange.segmentSeq
  have endDts : segment.endDts < 256 ^ 8 := inRange.endDts
  have timescale : segment.timescale < 256 ^ 4 := inRange.timescale
  have byteOffset : segment.byteOffset < 256 ^ 8 := inRange.byteOffset
  have length : segment.length < 256 ^ 8 := inRange.length
  rw [readValue, encodeValue, run_next _ _ _ _ _ (take_number "" 8 _ _ segmentSeq),
    run_next _ _ _ _ _ (take_number "" 8 _ _ endDts), run_next _ _ _ _ _ (take_number "" 4 _ _ timescale),
    run_next _ _ _ _ _ (take_flag segment.keyframeStart _), keyframe_of_flag, pure_bind,
    run_next _ _ _ _ _ (take_number "" 8 _ _ byteOffset), run_next _ _ _ _ _ (take_number "" 8 _ _ length),
    run_next _ _ _ _ _ (take_number_mod "" 4 _ _)]
  rfl

theorem decode_written (segment : SegmentRef) (inRange : InRange segment) (fits : PathFits segment) :
    decode segment.key (encodeValue segment) = .ok segment := by
  have path : (readPath (nameBytes segment.path).length).run (nameBytes segment.path) = .ok (segment.path, []) := by
    have whole := take_front "" _ (nameBytes segment.path) [] rfl
    rw [List.append_nil] at whole
    rw [readPath, run_next _ _ _ _ _ whole, text_of_name]
    rfl
  rw [decode, read_value_fields segment.key segment inRange, Nat.mod_eq_of_lt fits, run_next _ _ _ _ _ path]
  rfl

theorem finish_left (what : String) (source : Bytes) (left : source ≠ []) :
    (finish what).run source = .error (.corrupt (s!"{source.length} trailing bytes after " ++ what)) := by
  rw [StateT.run, finish, List.isEmpty_eq_false_iff.mpr left]
  rfl

-- A path of 2^32 bytes or more leaves bytes behind what its length field counts.
theorem decode_long_path (segment : SegmentRef) (inRange : InRange segment) (long : ¬ PathFits segment) :
    ∃ error, decode segment.key (encodeValue segment) = .error error := by
  have cut : (nameBytes segment.path).length % 2 ^ 32 < (nameBytes segment.path).length :=
    Nat.lt_of_lt_of_le (Nat.mod_lt _ (by decide)) (Nat.not_lt.mp long)
  have first := take_front "" ((nameBytes segment.path).length % 2 ^ 32) _
    ((nameBytes segment.path).drop ((nameBytes segment.path).length % 2 ^ 32))
    (List.length_take_of_le (Nat.le_of_lt cut))
  have left : (nameBytes segment.path).drop ((nameBytes segment.path).length % 2 ^ 32) ≠ [] := by
    rw [ne_eq, List.drop_eq_nil_iff]
    exact Nat.not_le.mpr cut
  rw [List.take_append_drop] at first
  rw [decode, read_value_fields segment.key segment inRange, readPath, bind_assoc, run_next _ _ _ _ _ first, bind_assoc,
    StateT.run_bind, finish_left "path" _ left]
  exact ⟨_, rfl⟩

end Lvqr.Archive.Redb

-- The segment index over redb: an ordered table from byte keys to byte values, and the
-- finite map it stands for.
namespace Lvqr.Archive.Redb

abbrev SegmentsTable := Table Bytes Bytes

-- A range scan, the upper bound excluded or included.
def range (table : SegmentsTable) (low high : Bytes) : List (Bytes × Bytes) :=
  (table.inOrder ByteOrder.rank).filter fun entry =>
    ByteOrder.rank low ≤ ByteOrder.rank entry.1 ∧ ByteOrder.rank entry.1 < ByteOrder.rank high

def rangeInclusive (table : SegmentsTable) (low high : Bytes) : List (Bytes × Bytes) :=
  (table.inOrder ByteOrder.rank).filter fun entry =>
    ByteOrder.rank low ≤ ByteOrder.rank entry.1 ∧ ByteOrder.rank entry.1 ≤ ByteOrder.rank high

def decodeEntry (entry : Bytes × Bytes) : Except ArchiveError SegmentRef :=
  (decodeKey entry.1).bind fun key => decode key entry.2

-- A scan that keeps what it decodes, up to the first row that does not decode.
def decodeAll : List (Bytes × Bytes) → Except ArchiveError (List SegmentRef)
  | [] => .ok []
  | entry :: entries => (decodeEntry entry).bind fun segment => (decodeAll entries).map (segment :: ·)

def prefixLower (broadcast track : String) : Except ArchiveError Bytes := encodeKey broadcast track 0

def prefixUpper (broadcast track : String) : Except ArchiveError Bytes := encodeKey broadcast track u64Max

namespace SegmentsTable

def record (table : SegmentsTable) (segment : SegmentRef) : Except ArchiveError SegmentsTable :=
  if segment.endDts ≤ segment.startDts then
    .error (.corrupt s!"segment end_dts {segment.endDts} must be > start_dts {segment.startDts}")
  else
    (encodeKey segment.broadcast segment.track segment.startDts).map fun key =>
      table.insert key (encodeValue segment)

-- Of the earlier rows only the last is looked at.
def findRange (table : SegmentsTable) (broadcast track : String) (queryStart queryEnd : Nat) :
    Except ArchiveError (List SegmentRef) :=
  if queryEnd ≤ queryStart then .ok []
  else do
    let prefixLo ← prefixLower broadcast track
    let _prefixHi ← prefixUpper broadcast track
    let leftWindowEnd ← encodeKey broadcast track queryStart
    let earlier ← decodeAll (range table prefixLo leftWindowEnd)
    let leading := (earlier.getLast?.filter fun segment => queryStart < segment.endDts).toList
    let windowStartKey ← encodeKey broadcast track queryStart
    let windowEndKey ← encodeKey broadcast track queryEnd
    let within ← decodeAll (range table windowStartKey windowEndKey)
    pure (leading ++ within)

def latest (table : SegmentsTable) (broadcast track : String) : Except ArchiveError (Option SegmentRef) := do
  let lo ← prefixLower broadcast track
  let hi ← prefixUpper broadcast track
  let rows ← decodeAll (rangeInclusive table lo hi)
  pure rows.getLast?

end SegmentsTable

structure ArchiveSummary where
  broadcast : String
  track : String
  segmentCount : Nat
  firstStartDts : Nat
  lastEndDts : Nat
  timescale : Nat
  totalBytes : Nat
deriving DecidableEq, Repr

-- A sum of two u64: none where it panics.
def addU64 (overflowChecks : Bool) (first second : Nat) : Option Nat :=
  if first + second < 2 ^ 64 then some (first + second)
  else if overflowChecks then none
  else some ((first + second) % 2 ^ 64)

-- A stream has fewer rows than a u64 has values, so the count does not wrap.
def ArchiveSummary.add (overflowChecks : Bool) (summary : ArchiveSummary) (segment : SegmentRef) : Option ArchiveSummary :=
  (addU64 overflowChecks summary.totalBytes segment.length).map fun totalBytes =>
    { summary with
      segmentCount := summary.segmentCount + 1
      firstStartDts := min summary.firstStartDts segment.startDts
      lastEndDts := max summary.lastEndDts segment.endDts
      totalBytes := totalBytes }

def ArchiveSummary.first (segment : SegmentRef) : ArchiveSummary where
  broadcast := segment.broadcast
  track := segment.track
  segmentCount := 1
  firstStartDts := segment.startDts
  lastEndDts := segment.endDts
  timescale := segment.timescale
  totalBytes := segment.length

abbrev Summaries := Table (String × String) ArchiveSummary

def addRow (overflowChecks : Bool) (acc : Summaries) (segment : SegmentRef) : Option Summaries :=
  match acc.lookup (segment.broadcast, segment.track) with
  | none => some (acc.insert (segment.broadcast, segment.track) (.first segment))
  | some summary =>
      (summary.add overflowChecks segment).map fun added => acc.insert (segment.broadcast, segment.track) added

def summarise (overflowChecks : Bool) : Summaries → List (Bytes × Bytes) → Option (Except ArchiveError Summaries)
  | acc, [] => some (.ok acc)
  | acc, entry :: entries =>
      match decodeEntry entry with
      | .error error => some (.error error)
      | .ok segment => (addRow overflowChecks acc segment).bind fun added => summarise overflowChecks added entries

-- Streams in the order of their names, byte by byte.
def streamRank (stream : String × String) : List Nat ×ₗ List Nat :=
  toLex (ByteOrder.rank (nameBytes stream.1), ByteOrder.rank (nameBytes stream.2))

def SegmentsTable.listSummaries (overflowChecks : Bool) (table : SegmentsTable) :
    Option (Except ArchiveError (List ArchiveSummary)) :=
  (summarise overflowChecks ∅ (table.inOrder ByteOrder.rank)).map fun result =>
    result.map fun acc => (acc.inOrder streamRank).map Prod.snd

-- The map the index stands for, and what recording does to it.
abbrev SegmentMap := Table SegmentKey SegmentRef

def Recordable (segment : SegmentRef) : Prop :=
  segment.startDts < segment.endDts ∧ NamesFit segment.broadcast segment.track

instance (broadcast track : String) : Decidable (NamesFit broadcast track) := inferInstanceAs (Decidable (_ ∧ _))

instance (segment : SegmentRef) : Decidable (Recordable segment) := inferInstanceAs (Decidable (_ ∧ _))

def SegmentMap.record (map : SegmentMap) (segment : SegmentRef) : SegmentMap :=
  if Recordable segment then map.insert segment.key segment else map

def rawKey (key : SegmentKey) : Bytes := streamPrefix key.broadcast key.track ++ BigEndian.bytes 8 key.startDts

def rawRow (segment : SegmentRef) : Bytes × Bytes := (rawKey segment.key, encodeValue segment)

def OfStream (segment : SegmentRef) (broadcast track : String) : Prop :=
  segment.broadcast = broadcast ∧ segment.track = track

instance (segment : SegmentRef) (broadcast track : String) : Decidable (OfStream segment broadcast track) :=
  inferInstanceAs (Decidable (_ ∧ _))

-- Every row stands under its own key and could be recorded.
structure Filed (map : SegmentMap) : Prop where
  filed : ∀ key segment, map.lookup key = some segment → segment.key = key ∧ InRange segment ∧ Recordable segment

-- The rows of the table are the encoded rows of the map.
structure Stores (map : SegmentMap) (table : SegmentsTable) : Prop extends Filed map where
  written : ∀ key segment, map.lookup key = some segment → table.lookup (rawKey key) = some (encodeValue segment)
  known : ∀ raw value, table.lookup raw = some value →
    ∃ segment, map.lookup segment.key = some segment ∧ rawRow segment = (raw, value)

theorem name_bytes_injective (first second : String) (same : nameBytes first = nameBytes second) : first = second :=
  String.toList_inj.mp (Utf8.encode_injective _ _ same)

theorem name_field_inj (first second : String) (rest more : Bytes) (fits : (nameBytes first).length ≤ u16Max)
    (fitsToo : (nameBytes second).length ≤ u16Max)
    (same : BigEndian.bytes 2 (nameBytes first).length ++ (nameBytes first ++ rest) =
      BigEndian.bytes 2 (nameBytes second).length ++ (nameBytes second ++ more)) : first = second ∧ rest = more := by
  obtain ⟨field, behind⟩ := List.append_inj same (by rw [BigEndian.bytes_length, BigEndian.bytes_length])
  have length : (nameBytes first).length = (nameBytes second).length := by
    rw [← BigEndian.value_bytes 2 _ (Nat.lt_succ_of_le fits), field, BigEndian.value_bytes 2 _ (Nat.lt_succ_of_le fitsToo)]
  obtain ⟨name, remaining⟩ := List.append_inj behind length
  exact ⟨name_bytes_injective first second name, remaining⟩

-- The length fields tell the streams apart, whatever bytes the names hold.
theorem stream_prefix_inj (broadcast track broadcastToo trackToo : String) (rest more : Bytes)
    (fit : NamesFit broadcast track) (fitToo : NamesFit broadcastToo trackToo)
    (same : streamPrefix broadcast track ++ rest = streamPrefix broadcastToo trackToo ++ more) :
    broadcast = broadcastToo ∧ track = trackToo ∧ rest = more := by
  rw [streamPrefix, streamPrefix, List.append_assoc, List.append_assoc, List.append_assoc, List.append_assoc,
    List.append_assoc, List.append_assoc] at same
  obtain ⟨sameBroadcast, behind⟩ := name_field_inj broadcast broadcastToo _ _ fit.1 fitToo.1 same
  obtain ⟨sameTrack, remaining⟩ := name_field_inj track trackToo _ _ fit.2 fitToo.2 behind
  exact ⟨sameBroadcast, sameTrack, remaining⟩

theorem raw_key_lt (broadcast track : String) (first second : Nat) (u64 : first < 2 ^ 64) (u64Too : second < 2 ^ 64) :
    ByteOrder.rank (rawKey ⟨broadcast, track, first⟩) < ByteOrder.rank (rawKey ⟨broadcast, track, second⟩) ↔
      first < second :=
  (ByteOrder.rank_append_lt _ _ _).trans (ByteOrder.rank_big_endian_lt 8 first second u64 u64Too)

theorem raw_key_le (broadcast track : String) (first second : Nat) (u64 : first < 2 ^ 64) (u64Too : second < 2 ^ 64) :
    ByteOrder.rank (rawKey ⟨broadcast, track, first⟩) ≤ ByteOrder.rank (rawKey ⟨broadcast, track, second⟩) ↔
      first ≤ second := by
  rw [← not_lt, raw_key_lt broadcast track second first u64Too u64, not_lt]

-- Between two keys of a stream stand only keys of that stream.
theorem between_keys (broadcast track : String) (low high : Nat) (segment : SegmentRef)
    (fit : NamesFit broadcast track) (recordable : Recordable segment)
    (above : ByteOrder.rank (rawKey ⟨broadcast, track, low⟩) ≤ ByteOrder.rank (rawKey segment.key))
    (below : ByteOrder.rank (rawKey segment.key) ≤ ByteOrder.rank (rawKey ⟨broadcast, track, high⟩)) :
    OfStream segment broadcast track := by
  obtain ⟨rest, same⟩ := ByteOrder.between_prefixed (streamPrefix broadcast track) _ _ _ above below
  obtain ⟨sameBroadcast, sameTrack, -⟩ := stream_prefix_inj _ _ _ _ _ _ recordable.2 fit same
  exact ⟨sameBroadcast, sameTrack⟩

theorem raw_key_inj (first second : SegmentRef) (inRange : InRange first) (inRangeToo : InRange second)
    (recordable : Recordable first) (recordableToo : Recordable second)
    (same : rawKey first.key = rawKey second.key) : first.key = second.key := by
  obtain ⟨sameBroadcast, sameTrack, start⟩ := stream_prefix_inj _ _ _ _ _ _ recordable.2 recordableToo.2 same
  have firstFits : first.startDts < 256 ^ 8 := inRange.startDts
  have secondFits : second.startDts < 256 ^ 8 := inRangeToo.startDts
  have sameStart : first.startDts = second.startDts := by
    rw [← BigEndian.value_bytes 8 _ firstFits, ← BigEndian.value_bytes 8 _ secondFits]
    exact congrArg BigEndian.value start
  rw [SegmentRef.key, SegmentRef.key, sameBroadcast, sameTrack, sameStart]

theorem key_of_stream (segment : SegmentRef) (broadcast track : String) (ofStream : OfStream segment broadcast track) :
    segment.key = ⟨broadcast, track, segment.startDts⟩ := by
  rw [SegmentRef.key, ofStream.1, ofStream.2]

end Lvqr.Archive.Redb
