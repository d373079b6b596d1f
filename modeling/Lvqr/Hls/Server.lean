import Mathlib.Data.List.Flatten
import Lvqr.Hls.Builder

set_option autoImplicit false

namespace Lvqr.Hls

theorem not_in_digits (char : Char) (n : Nat) (notDigit : char.isDigit = false) : char ∉ (toString n).toList := by
  intro member
  rw [Nat.toString_eq_repr, Nat.toList_repr] at member
  have digit : char.isDigit = true := Nat.isDigit_of_mem_toDigits (by decide) (by decide) member
  rw [notDigit] at digit
  cases digit

theorem dash_not_in_digits (n : Nat) : '-' ∉ (toString n).toList := not_in_digits '-' n (by decide)

theorem digits_injective (a b : Nat) (same : (toString a).toList = (toString b).toList) : a = b := by
  rw [Nat.toString_eq_repr, Nat.toString_eq_repr, Nat.toList_repr, Nat.toList_repr] at same
  have parsed := congrArg (fun digits => Nat.ofDigitChars 10 digits 0) same
  simpa using parsed

theorem part_uri_chars (uriPrefix : String) (sequence index : Nat) :
    (partUri uriPrefix sequence index).toList =
      uriPrefix.toList ++ 'p' :: 'a' :: 'r' :: 't' :: '-' ::
        ((toString sequence).toList ++ '-' :: ((toString index).toList ++ ".m4s".toList)) := by
  simp [partUri, String.toList_append]

theorem segment_uri_chars (uriPrefix : String) (sequence : Nat) :
    (segmentUri uriPrefix sequence).toList =
      uriPrefix.toList ++ 's' :: 'e' :: 'g' :: '-' :: ((toString sequence).toList ++ ".m4s".toList) := by
  simp [segmentUri, String.toList_append]

theorem part_uri_injective (uriPrefix : String) (sequence index sequence' index' : Nat)
    (same : partUri uriPrefix sequence index = partUri uriPrefix sequence' index') :
    sequence = sequence' ∧ index = index' := by
  have chars := congrArg String.toList same
  rw [part_uri_chars, part_uri_chars] at chars
  simp only [List.append_cancel_left_eq, List.cons.injEq, true_and] at chars
  -- The dash after the sequence number is the last one: digits and suffix have none.
  have noDash : '-' ∉ (toString index).toList ++ ".m4s".toList := by
    simpa using dash_not_in_digits index
  obtain ⟨sequences, _, indices⟩ :=
    (List.append_cons_inj_of_notMem (dash_not_in_digits sequence) noDash).mp chars
  exact ⟨digits_injective _ _ sequences, digits_injective _ _ (List.append_cancel_right indices)⟩

theorem segment_uri_injective (uriPrefix : String) (sequence sequence' : Nat)
    (same : segmentUri uriPrefix sequence = segmentUri uriPrefix sequence') : sequence = sequence' := by
  have chars := congrArg String.toList same
  rw [segment_uri_chars, segment_uri_chars] at chars
  simp only [List.append_cancel_left_eq, List.cons.injEq, true_and, List.append_cancel_right_eq] at chars
  exact digits_injective _ _ chars

theorem part_uri_not_segment (uriPrefix : String) (sequence index sequence' : Nat) :
    partUri uriPrefix sequence index ≠ segmentUri uriPrefix sequence' := by
  intro same
  have chars := congrArg String.toList same
  rw [part_uri_chars, segment_uri_chars] at chars
  simp at chars

-- The URIs a builder has handed out when it stands at the given counters.
def Issued (uriPrefix : String) (sequence index : Nat) (uri : String) : Prop :=
  (∃ s i, uri = partUri uriPrefix s i ∧ (s < sequence ∨ (s = sequence ∧ i < index))) ∨
    ∃ s, s < sequence ∧ uri = segmentUri uriPrefix s

theorem next_part_not_issued (uriPrefix : String) (sequence index : Nat) :
    ¬ Issued uriPrefix sequence index (partUri uriPrefix sequence index) := by
  intro issued
  cases issued with
  | inl asPart =>
      obtain ⟨s, i, same, earlier⟩ := asPart
      obtain ⟨rfl, rfl⟩ := part_uri_injective _ _ _ _ _ same
      omega
  | inr asSegment =>
      obtain ⟨s, _, same⟩ := asSegment
      exact part_uri_not_segment _ _ _ _ same

theorem next_segment_not_issued (uriPrefix : String) (sequence index : Nat) :
    ¬ Issued uriPrefix sequence index (segmentUri uriPrefix sequence) := by
  intro issued
  cases issued with
  | inl asPart =>
      obtain ⟨s, i, same, _⟩ := asPart
      exact part_uri_not_segment _ _ _ _ same.symm
  | inr asSegment =>
      obtain ⟨s, earlier, same⟩ := asSegment
      have := segment_uri_injective _ _ _ same
      omega

theorem issued_after_part (uriPrefix : String) (sequence index : Nat) (uri : String)
    (issued : Issued uriPrefix sequence index uri) : Issued uriPrefix sequence (index + 1) uri := by
  cases issued with
  | inl asPart =>
      obtain ⟨s, i, same, earlier⟩ := asPart
      exact .inl ⟨s, i, same, by omega⟩
  | inr segment => exact .inr segment

theorem issued_after_segment (uriPrefix : String) (sequence index : Nat) (uri : String)
    (issued : Issued uriPrefix sequence index uri) : Issued uriPrefix (sequence + 1) 0 uri := by
  cases issued with
  | inl asPart =>
      obtain ⟨s, i, same, earlier⟩ := asPart
      exact .inl ⟨s, i, same, by omega⟩
  | inr asSegment =>
      obtain ⟨s, earlier, same⟩ := asSegment
      exact .inr ⟨s, by omega, same⟩

theorem part_issued (uriPrefix : String) (sequence index : Nat) :
    Issued uriPrefix sequence (index + 1) (partUri uriPrefix sequence index) :=
  .inl ⟨sequence, index, rfl, by omega⟩

theorem segment_issued (uriPrefix : String) (sequence : Nat) :
    Issued uriPrefix (sequence + 1) 0 (segmentUri uriPrefix sequence) :=
  .inr ⟨sequence, by omega, rfl⟩

def liveUris (manifest : Manifest) : List String :=
  manifest.segments.flatMap Segment.uris ++ manifest.preliminaryParts.map Part.uri

structure Numbered (builder : PlaylistBuilder) : Prop where
  preliminary : builder.manifest.preliminaryParts = builder.pendingParts
  issued : ∀ uri ∈ liveUris builder.manifest,
    Issued builder.config.uriPrefix builder.nextSequence builder.partIndex uri
  distinct : (liveUris builder.manifest).Nodup
  below : ∀ segment ∈ builder.manifest.segments, segment.sequence < builder.nextSequence
  ascending : builder.manifest.segments.Pairwise (·.sequence < ·.sequence)
  nonempty : ∀ segment ∈ builder.manifest.segments, segment.parts ≠ []

namespace PlaylistBuilder

theorem new_numbered (config : PlaylistBuilderConfig) : Numbered (new config) := by
  constructor <;> simp [new, liveUris]

theorem append_segment_live (builder : PlaylistBuilder) (numbered : Numbered builder) :
    liveUris builder.appendSegment.manifest = liveUris builder.manifest ++ [builder.pendingSegment.uri] := by
  simp [liveUris, appendSegment, Segment.uris, numbered.preliminary, pendingSegment]

theorem append_segment_numbered (builder : PlaylistBuilder) (numbered : Numbered builder)
    (pending : builder.pendingParts ≠ []) : Numbered builder.appendSegment where
  preliminary := rfl
  issued := by
    intro uri member
    rw [append_segment_live builder numbered] at member
    cases List.mem_append.mp member with
    | inl old => exact issued_after_segment _ _ _ _ (numbered.issued uri old)
    | inr fresh =>
        rw [List.mem_singleton.mp fresh]
        exact segment_issued _ _
  distinct := by
    rw [append_segment_live builder numbered]
    refine List.nodup_append.mpr ⟨numbered.distinct, by simp, ?_⟩
    intro uri old _ fresh same
    rw [List.mem_singleton.mp fresh] at same
    exact next_segment_not_issued _ _ _ (same ▸ numbered.issued uri old)
  below := by
    intro segment member
    cases List.mem_append.mp member with
    | inl old => exact Nat.lt_succ_of_lt (numbered.below segment old)
    | inr fresh =>
        rw [List.mem_singleton.mp fresh]
        exact Nat.lt_succ_self _
  ascending := by
    refine List.pairwise_append.mpr ⟨numbered.ascending, List.pairwise_singleton _ _, ?_⟩
    intro segment old last fresh
    rw [List.mem_singleton.mp fresh]
    exact numbered.below segment old
  nonempty := by
    intro segment member
    cases List.mem_append.mp member with
    | inl old => exact numbered.nonempty segment old
    | inr fresh =>
        rw [List.mem_singleton.mp fresh]
        exact pending

theorem window_numbered (builder : PlaylistBuilder) (dropped : Nat) (ranges : List DateRange) (evicted : List String)
    (numbered : Numbered builder) :
    Numbered { builder with
      manifest := { builder.manifest with segments := builder.manifest.segments.drop dropped, dateRanges := ranges }
      evictedUris := evicted } := by
  have kept : (builder.manifest.segments.drop dropped).Sublist builder.manifest.segments := List.drop_sublist _ _
  have live : ((builder.manifest.segments.drop dropped).flatMap Segment.uris ++
      builder.manifest.preliminaryParts.map Part.uri).Sublist (liveUris builder.manifest) :=
    (kept.flatMap _).append (List.Sublist.refl _)
  exact
    { preliminary := numbered.preliminary
      issued := fun uri member => numbered.issued uri (live.subset member)
      distinct := numbered.distinct.sublist live
      below := fun segment member => numbered.below segment (kept.subset member)
      ascending := numbered.ascending.sublist kept
      nonempty := fun segment member => numbered.nonempty segment (kept.subset member) }

theorem close_numbered (builder : PlaylistBuilder) (numbered : Numbered builder) :
    Numbered builder.closePendingSegment := by
  by_cases empty : builder.pendingParts = []
  · rwa [close_nothing_pending builder empty]
  · obtain ⟨ranges, _, closed⟩ := close_pending_eq builder empty
    rw [closed]
    exact window_numbered builder.appendSegment _ ranges _ (append_segment_numbered builder numbered empty)

theorem finalize_numbered (builder : PlaylistBuilder) (numbered : Numbered builder) : Numbered builder.finalize := by
  have closed := close_numbered builder numbered
  have none : builder.closePendingSegment.manifest.preliminaryParts = [] := by
    rw [closed.preliminary, close_pending_parts]
  have live : liveUris builder.finalize.manifest = liveUris builder.closePendingSegment.manifest := by
    simp [liveUris, finalize, none]
  exact
    { preliminary := (finalize_pending_parts builder).symm
      issued := live ▸ closed.issued
      distinct := live ▸ closed.distinct
      below := closed.below
      ascending := closed.ascending
      nonempty := closed.nonempty }

theorem counted_numbered (builder : PlaylistBuilder) (dts : Nat) (numbered : Numbered builder) :
    Numbered { builder with lastDts := some dts, partIndex := builder.partIndex + 1 } where
  preliminary := numbered.preliminary
  issued := fun uri member => issued_after_part _ _ _ _ (numbered.issued uri member)
  distinct := numbered.distinct
  below := numbered.below
  ascending := numbered.ascending
  nonempty := numbered.nonempty

theorem append_part_live (builder : PlaylistBuilder) (part : Part) (numbered : Numbered builder) :
    liveUris (builder.appendPart part).manifest = liveUris builder.manifest ++ [part.uri] := by
  simp [liveUris, appendPart, numbered.preliminary]

theorem append_part_numbered (builder : PlaylistBuilder) (part : Part) (numbered : Numbered builder)
    (issued : Issued builder.config.uriPrefix builder.nextSequence builder.partIndex part.uri)
    (fresh : part.uri ∉ liveUris builder.manifest) : Numbered (builder.appendPart part) where
  preliminary := rfl
  issued := by
    intro uri member
    rw [append_part_live builder part numbered] at member
    cases List.mem_append.mp member with
    | inl old => exact numbered.issued uri old
    | inr new =>
        rw [List.mem_singleton.mp new]
        exact issued
  distinct := by
    rw [append_part_live builder part numbered]
    refine List.nodup_append.mpr ⟨numbered.distinct, by simp, ?_⟩
    intro uri old _ new same
    rw [List.mem_singleton.mp new] at same
    exact fresh (same ▸ old)
  below := numbered.below
  ascending := numbered.ascending
  nonempty := numbered.nonempty

end PlaylistBuilder

end Lvqr.Hls

-- The server holds its builder, its init segment and its byte cache under three
-- locks. Each call takes the builder lock once and touches the cache afterwards,
-- so a call is its builder section followed by the cache work it returns. The
-- codec strings and the Notify waker feed nothing modelled here.
namespace Lvqr.Hls

abbrev ByteCache := String → Option Bytes

namespace ByteCache

def insert (cache : ByteCache) (uri : String) (body : Bytes) : ByteCache :=
  Function.update cache uri (some body)

def remove (cache : ByteCache) (uri : String) : ByteCache :=
  Function.update cache uri none

end ByteCache

structure CoalesceItem where
  segmentUri : String
  partUris : List String
deriving DecidableEq, Repr

def Segment.coalesceItem (segment : Segment) : CoalesceItem :=
  ⟨segment.uri, segment.parts.map Part.uri⟩

def closedAfter (prevLastSeq : Option Nat) (segment : Segment) : Bool :=
  match prevLastSeq with
  | some prev => prev < segment.sequence
  | none => true

def collectCoalesceWork (manifest : Manifest) (prevLastSeq : Option Nat) : List CoalesceItem :=
  (manifest.segments.filter (closedAfter prevLastSeq)).map Segment.coalesceItem

def coalesceSegment (cache : ByteCache) (item : CoalesceItem) : ByteCache :=
  if (cache item.segmentUri).isSome then cache
  else
    let total := (item.partUris.filterMap fun uri => (cache uri).map List.length).sum
    if total = 0 then cache
    else cache.insert item.segmentUri (item.partUris.filterMap cache).flatten

def coalesceClosedSegments (cache : ByteCache) (work : List CoalesceItem) : ByteCache :=
  work.foldl coalesceSegment cache

def purgeEvictedUris (cache : ByteCache) (evicted : List String) : ByteCache :=
  evicted.foldl ByteCache.remove cache

-- What a call still has to do to the cache once it has released the builder.
structure CacheWork where
  store : Option (String × Bytes)
  coalesce : List CoalesceItem
  purge : List String
deriving DecidableEq, Repr

def storePart (cache : ByteCache) : Option (String × Bytes) → ByteCache
  | none => cache
  | some (uri, body) => cache.insert uri body

def CacheWork.perform (work : CacheWork) (cache : ByteCache) : ByteCache :=
  purgeEvictedUris (coalesceClosedSegments (storePart cache work.store) work.coalesce) work.purge

namespace PlaylistBuilder

def lastSequence (builder : PlaylistBuilder) : Option Nat :=
  builder.manifest.segments.getLast?.map Segment.sequence

-- The tail every builder section shares: read the newly closed segments, drain
-- the evicted URIs, release the lock.
def releaseWith (builder : PlaylistBuilder) (prevLastSeq : Option Nat) (store : Option (String × Bytes)) :
    PlaylistBuilder × CacheWork :=
  let (evicted, drained) := builder.drainEvictedUris
  (drained, ⟨store, collectCoalesceWork builder.manifest prevLastSeq, evicted⟩)

def pushSection (builder : PlaylistBuilder) (chunk : Cmaf.CmafChunk) (body : Bytes) :
    Except HlsError CacheWork × PlaylistBuilder :=
  match builder.push chunk with
  | (.error error, rejected) => (.error error, rejected)
  | (.ok _, pushed) =>
      let uri := (pushed.manifest.preliminaryParts.getLast?.map Part.uri).getD ""
      let store := if uri.isEmpty then none else some (uri, Cmaf.prependCmafChunkStyp body)
      let (released, work) := pushed.releaseWith builder.lastSequence store
      (.ok work, released)

theorem part_uri_nonempty (uriPrefix : String) (sequence index : Nat) :
    (partUri uriPrefix sequence index).isEmpty = false := by
  rw [String.isEmpty_eq_false_iff]
  intro empty
  have chars := part_uri_chars uriPrefix sequence index
  simp [empty] at chars

theorem push_section_accepted (builder : PlaylistBuilder) (chunk : Cmaf.CmafChunk) (body : Bytes)
    (accepts : builder.Accepts chunk) :
    let released := (builder.accept chunk).releaseWith builder.lastSequence
      (some ((builder.nextPart chunk).uri, Cmaf.prependCmafChunkStyp body))
    builder.pushSection chunk body = (.ok released.2, released.1) := by
  have newest : (builder.accept chunk).manifest.preliminaryParts.getLast? = some (builder.nextPart chunk) := by
    simp [accept, appendPart]
  have named : (builder.nextPart chunk).uri.isEmpty = false := part_uri_nonempty _ _ _
  simp [pushSection, push_accepted builder chunk accepts, newest, named]

theorem push_section_rejected (builder : PlaylistBuilder) (chunk : Cmaf.CmafChunk) (body : Bytes)
    (rejects : ¬ builder.Accepts chunk) : ∃ error, builder.pushSection chunk body = (.error error, builder) := by
  obtain ⟨error, failed⟩ := push_rejected builder chunk rejects
  exact ⟨error, by simp [pushSection, failed]⟩

def closeSection (builder : PlaylistBuilder) : PlaylistBuilder × CacheWork :=
  builder.closePendingSegment.releaseWith builder.lastSequence none

def finalizeSection (builder : PlaylistBuilder) : PlaylistBuilder × CacheWork :=
  builder.finalize.releaseWith builder.lastSequence none

end PlaylistBuilder

structure HlsServer where
  builder : PlaylistBuilder
  initSegment : Option Bytes
  cache : ByteCache

namespace HlsServer

open PlaylistBuilder

def new (config : PlaylistBuilderConfig) : HlsServer where
  builder := .new config
  initSegment := none
  cache := fun _ => none

def pushInit (server : HlsServer) (bytes : Bytes) : HlsServer :=
  { server with
    initSegment := some bytes
    builder := if server.initSegment.isSome then server.builder.markDiscontinuityPending else server.builder }

def complete (server : HlsServer) (released : PlaylistBuilder × CacheWork) : HlsServer :=
  { server with builder := released.1, cache := released.2.perform server.cache }

def pushChunkBytes (server : HlsServer) (chunk : Cmaf.CmafChunk) (body : Bytes) : Except HlsError Unit × HlsServer :=
  match server.builder.pushSection chunk body with
  | (.error error, builder) => (.error error, { server with builder := builder })
  | (.ok work, builder) => (.ok (), server.complete (builder, work))

theorem push_chunk_builder (server : HlsServer) (chunk : Cmaf.CmafChunk) (body : Bytes) :
    (server.pushChunkBytes chunk body).2.builder =
      if server.builder.Accepts chunk then { server.builder.accept chunk with evictedUris := [] }
      else server.builder := by
  by_cases accepts : server.builder.Accepts chunk
  · rw [if_pos accepts, pushChunkBytes, push_section_accepted server.builder chunk body accepts]
    rfl
  · obtain ⟨error, failed⟩ := push_section_rejected server.builder chunk body accepts
    rw [if_neg accepts, pushChunkBytes, failed]

def pushDateRange (server : HlsServer) (range : DateRange) : HlsServer :=
  { server with builder := server.builder.pushDateRange range }

def closePendingSegment (server : HlsServer) : HlsServer :=
  server.complete server.builder.closeSection

def finalize (server : HlsServer) : HlsServer :=
  server.complete server.builder.finalizeSection

end HlsServer

inductive ServerOp where
  | pushInit (bytes : Bytes)
  | pushChunkBytes (chunk : Cmaf.CmafChunk) (body : Bytes)
  | pushDateRange (range : DateRange)
  | closePendingSegment
  | finalize
deriving DecidableEq, Repr

def HlsServer.apply (server : HlsServer) : ServerOp → HlsServer
  | .pushInit bytes => server.pushInit bytes
  | .pushChunkBytes chunk body => (server.pushChunkBytes chunk body).2
  | .pushDateRange range => server.pushDateRange range
  | .closePendingSegment => server.closePendingSegment
  | .finalize => server.finalize

end Lvqr.Hls
