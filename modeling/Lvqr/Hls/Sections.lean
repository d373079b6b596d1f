import Lvqr.Hls.Server
import Mathlib.Data.List.Nodup

set_option autoImplicit false

-- What one builder section can do, said once: every invariant of the cache is
-- derived from `Advanced` and never unfolds `push` or `close_pending_segment`.
namespace Lvqr.Hls

def livePartUris (manifest : Manifest) : List String :=
  manifest.segments.flatMap (fun segment => segment.parts.map Part.uri) ++ manifest.preliminaryParts.map Part.uri

theorem live_uris_perm (manifest : Manifest) :
    (liveUris manifest).Perm (manifest.segments.map Segment.uri ++ livePartUris manifest) := by
  unfold liveUris livePartUris
  rw [← List.append_assoc]
  refine List.Perm.append_right _ ?_
  induction manifest.segments with
  | nil => exact List.Perm.refl _
  | cons segment segments ih =>
      simp only [List.flatMap_cons, Segment.uris, List.map_cons, List.append_assoc,
        List.cons_append]
      refine List.perm_middle.trans (List.Perm.cons _ ?_)
      exact (List.Perm.append_left _ ih).trans (by
        rw [← List.append_assoc, ← List.append_assoc]
        exact List.Perm.append_right _ List.perm_append_comm)

theorem segment_uri_live (manifest : Manifest) (segment : Segment) (member : segment ∈ manifest.segments) :
    segment.uri ∈ liveUris manifest :=
  (live_uris_perm manifest).mem_iff.mpr (List.mem_append_left _ (List.mem_map_of_mem member))

theorem part_uri_live (manifest : Manifest) (uri : String) (member : uri ∈ livePartUris manifest) :
    uri ∈ liveUris manifest :=
  (live_uris_perm manifest).mem_iff.mpr (List.mem_append_right _ member)

theorem segment_part_live (manifest : Manifest) (segment : Segment) (member : segment ∈ manifest.segments) :
    ∀ part ∈ segment.parts, part.uri ∈ livePartUris manifest := by
  intro part inside
  exact List.mem_append_left _ (List.mem_flatMap.mpr ⟨segment, member, List.mem_map_of_mem inside⟩)

theorem segment_uri_not_part (builder : PlaylistBuilder) (numbered : Numbered builder) (segment : Segment)
    (member : segment ∈ builder.manifest.segments) : segment.uri ∉ livePartUris builder.manifest := by
  have distinct := (live_uris_perm builder.manifest).nodup_iff.mp numbered.distinct
  intro isPart
  exact (List.nodup_append.mp distinct).2.2 _ (List.mem_map_of_mem member) _ isPart rfl

theorem segment_determined_by_uri (builder : PlaylistBuilder) (numbered : Numbered builder) (a b : Segment)
    (memberA : a ∈ builder.manifest.segments) (memberB : b ∈ builder.manifest.segments) (same : a.uri = b.uri) :
    a = b := by
  have distinct := (live_uris_perm builder.manifest).nodup_iff.mp numbered.distinct
  exact List.inj_on_of_nodup_map (List.nodup_append.mp distinct).1 memberA memberB same

namespace PlaylistBuilder

def HasIssued (builder : PlaylistBuilder) (uri : String) : Prop :=
  Issued builder.config.uriPrefix builder.nextSequence builder.partIndex uri

theorem listed_not_closed_after (builder : PlaylistBuilder) (numbered : Numbered builder) (segment : Segment)
    (member : segment ∈ builder.manifest.segments) : closedAfter builder.lastSequence segment = false := by
  unfold lastSequence
  cases last : builder.manifest.segments.getLast? with
  | none => simp [List.getLast?_eq_none_iff.mp last] at member
  | some newest =>
      obtain ⟨older, split⟩ := List.getLast?_eq_some_iff.mp last
      have ascending := numbered.ascending
      rw [split] at ascending member
      have atMost : segment.sequence ≤ newest.sequence := by
        cases List.mem_append.mp member with
        | inl old => exact Nat.le_of_lt ((List.pairwise_append.mp ascending).2.2 segment old newest (by simp))
        | inr same => rw [List.mem_singleton.mp same]
      simpa [closedAfter] using atMost

theorem pending_closed_after (builder : PlaylistBuilder) (numbered : Numbered builder) :
    closedAfter builder.lastSequence builder.pendingSegment = true := by
  unfold lastSequence
  cases last : builder.manifest.segments.getLast? with
  | none => rfl
  | some newest =>
      have below := numbered.below newest (List.mem_of_getLast? last)
      exact decide_eq_true below

-- A builder section turns `before` into `after` (whose eviction queue is not yet
-- drained), naming the given fresh URIs. `partition` says that a URI leaves the
-- playlist only through the queue, and only once.
structure Advanced (before after : PlaylistBuilder) (closed pushed : List String) : Prop where
  config : after.config = before.config
  numbered : Numbered after
  closedNamed : ∀ uri ∈ closed, ∃ sequence, uri = segmentUri before.config.uriPrefix sequence
  pushedNamed : ∀ uri ∈ pushed, ∃ sequence index, uri = partUri before.config.uriPrefix sequence index
  partition : liveUris before.manifest ++ (closed ++ pushed) = after.evictedUris ++ liveUris after.manifest
  freshDistinct : (closed ++ pushed).Nodup
  unissued : ∀ uri ∈ closed ++ pushed, ¬ before.HasIssued uri
  issued : ∀ uri, before.HasIssued uri ∨ uri ∈ closed ++ pushed → after.HasIssued uri
  listed : ∀ segment ∈ after.manifest.segments,
    (segment ∈ before.manifest.segments ∧ closedAfter before.lastSequence segment = false) ∨
      (segment.uri ∈ closed ∧ closedAfter before.lastSequence segment = true)
  kept : ∀ segment ∈ before.manifest.segments,
    segment ∈ after.manifest.segments ∨ ∀ uri ∈ segment.uris, uri ∈ after.evictedUris
  part : ∀ uri ∈ livePartUris after.manifest, uri ∈ livePartUris before.manifest ∨ uri ∈ pushed
  pushedLive : ∀ uri ∈ pushed, uri ∈ livePartUris after.manifest

theorem advanced_refl (builder : PlaylistBuilder) (numbered : Numbered builder) (drained : builder.evictedUris = []) :
    Advanced builder builder [] [] where
  config := rfl
  numbered := numbered
  closedNamed := by simp
  pushedNamed := by simp
  partition := by simp [drained]
  freshDistinct := List.nodup_nil
  unissued := by simp
  issued := by simp
  listed := fun segment member => .inl ⟨member, listed_not_closed_after builder numbered segment member⟩
  kept := fun _ member => .inl member
  part := fun _ member => .inl member
  pushedLive := by simp

def closedSegments (builder : PlaylistBuilder) : List Segment := builder.manifest.segments ++ [builder.pendingSegment]

theorem close_segments (builder : PlaylistBuilder) (pending : builder.pendingParts ≠ []) :
    builder.closePendingSegment.manifest.segments =
      builder.closedSegments.drop builder.appendSegment.overflowCount := by
  obtain ⟨ranges, _, closed⟩ := close_pending_eq builder pending
  rw [closed]
  rfl

theorem close_evicted (builder : PlaylistBuilder) (drained : builder.evictedUris = [])
    (pending : builder.pendingParts ≠ []) :
    builder.closePendingSegment.evictedUris =
      (builder.closedSegments.take builder.appendSegment.overflowCount).flatMap Segment.uris := by
  obtain ⟨ranges, _, closed⟩ := close_pending_eq builder pending
  rw [closed]
  simp [drained, appendSegment, closedSegments]

theorem close_listed (builder : PlaylistBuilder) (pending : builder.pendingParts ≠ []) (segment : Segment)
    (member : segment ∈ builder.closePendingSegment.manifest.segments) :
    segment ∈ builder.manifest.segments ∨ segment = builder.pendingSegment := by
  rw [close_segments builder pending] at member
  exact (List.mem_append.mp (List.mem_of_mem_drop member)).imp_right List.mem_singleton.mp

theorem close_kept (builder : PlaylistBuilder) (drained : builder.evictedUris = [])
    (pending : builder.pendingParts ≠ []) (segment : Segment) (member : segment ∈ builder.manifest.segments) :
    segment ∈ builder.closePendingSegment.manifest.segments ∨
      ∀ uri ∈ segment.uris, uri ∈ builder.closePendingSegment.evictedUris := by
  have inside : segment ∈ builder.closedSegments := List.mem_append_left _ member
  rw [← List.take_append_drop builder.appendSegment.overflowCount builder.closedSegments] at inside
  rw [close_segments builder pending, close_evicted builder drained pending]
  cases List.mem_append.mp inside with
  | inl dropped => exact .inr fun uri isUri => List.mem_flatMap.mpr ⟨segment, dropped, isUri⟩
  | inr kept => exact .inl kept

theorem close_partition (builder : PlaylistBuilder) (numbered : Numbered builder) (drained : builder.evictedUris = [])
    (pending : builder.pendingParts ≠ []) :
    liveUris builder.manifest ++ [builder.pendingSegment.uri] =
      builder.closePendingSegment.evictedUris ++ liveUris builder.closePendingSegment.manifest := by
  have preliminary := (close_numbered builder numbered).preliminary
  rw [← append_segment_live builder numbered, close_evicted builder drained pending, liveUris, liveUris,
    close_segments builder pending, preliminary, close_pending_parts]
  simp only [appendSegment, List.map_nil, List.append_nil]
  rw [← List.flatMap_append, List.take_append_drop]
  rfl

theorem close_part_live (builder : PlaylistBuilder) (numbered : Numbered builder) (pending : builder.pendingParts ≠ [])
    (uri : String) (live : uri ∈ livePartUris builder.closePendingSegment.manifest) :
    uri ∈ livePartUris builder.manifest := by
  have preliminary := (close_numbered builder numbered).preliminary
  rw [livePartUris, preliminary, close_pending_parts, List.map_nil, List.append_nil] at live
  obtain ⟨segment, inside, isPart⟩ := List.mem_flatMap.mp live
  cases close_listed builder pending segment inside with
  | inl old => exact List.mem_append_left _ (List.mem_flatMap.mpr ⟨segment, old, isPart⟩)
  | inr new =>
      rw [new] at isPart
      rw [livePartUris, numbered.preliminary]
      exact List.mem_append_right _ isPart

theorem close_issued (builder : PlaylistBuilder) (pending : builder.pendingParts ≠ []) (uri : String)
    (issued : builder.HasIssued uri ∨ uri = builder.pendingSegment.uri) : builder.closePendingSegment.HasIssued uri := by
  obtain ⟨ranges, _, closed⟩ := close_pending_eq builder pending
  rw [closed]
  cases issued with
  | inl old => exact issued_after_segment _ _ _ _ old
  | inr own =>
      rw [own]
      exact segment_issued _ _

theorem close_advanced_pending (builder : PlaylistBuilder) (numbered : Numbered builder)
    (drained : builder.evictedUris = []) (pending : builder.pendingParts ≠ []) :
    Advanced builder builder.closePendingSegment [builder.pendingSegment.uri] [] where
  config := by
    obtain ⟨ranges, _, closed⟩ := close_pending_eq builder pending
    rw [closed]
    rfl
  numbered := close_numbered builder numbered
  closedNamed uri member := ⟨builder.nextSequence, List.mem_singleton.mp member⟩
  pushedNamed := by simp
  partition := by
    rw [List.append_nil]
    exact close_partition builder numbered drained pending
  freshDistinct := by simp
  unissued uri member := by
    rw [List.append_nil, List.mem_singleton] at member
    rw [member]
    exact next_segment_not_issued _ _ _
  issued uri either := close_issued builder pending uri (either.imp_right (by simp))
  listed segment member := by
    cases close_listed builder pending segment member with
    | inl old => exact .inl ⟨old, listed_not_closed_after builder numbered segment old⟩
    | inr new =>
        rw [new]
        exact .inr ⟨by simp, pending_closed_after builder numbered⟩
  kept := close_kept builder drained pending
  part uri live := .inl (close_part_live builder numbered pending uri live)
  pushedLive := by simp

theorem close_advanced (builder : PlaylistBuilder) (numbered : Numbered builder) (drained : builder.evictedUris = []) :
    ∃ closed, Advanced builder builder.closePendingSegment closed [] := by
  by_cases empty : builder.pendingParts = []
  · rw [close_nothing_pending builder empty]
    exact ⟨[], advanced_refl builder numbered drained⟩
  · exact ⟨_, close_advanced_pending builder numbered drained empty⟩

-- `push` bumps the part index before it decides anything else.
theorem counted_advanced (before after : PlaylistBuilder) (dts : Nat) (closed pushed : List String)
    (advanced : Advanced { before with lastDts := some dts, partIndex := before.partIndex + 1 } after closed pushed) :
    Advanced before after closed pushed where
  config := advanced.config
  numbered := advanced.numbered
  closedNamed := advanced.closedNamed
  pushedNamed := advanced.pushedNamed
  partition := advanced.partition
  freshDistinct := advanced.freshDistinct
  unissued := fun uri member issued => advanced.unissued uri member (issued_after_part _ _ _ _ issued)
  issued := fun uri => Or.rec (fun old => advanced.issued uri (.inl (issued_after_part _ _ _ _ old)))
    (fun member => advanced.issued uri (.inr member))
  listed := advanced.listed
  kept := advanced.kept
  part := advanced.part
  pushedLive := advanced.pushedLive

theorem start_chunk_advanced (builder : PlaylistBuilder) (chunk : Cmaf.CmafChunk) (numbered : Numbered builder)
    (drained : builder.evictedUris = []) :
    ∃ closed, Advanced builder (builder.startChunk chunk) closed [] ∧ (builder.nextPart chunk).uri ∉ closed ∧
      (builder.startChunk chunk).HasIssued (builder.nextPart chunk).uri := by
  have counted := counted_numbered builder chunk.dts numbered
  have own : ({ builder with lastDts := some chunk.dts, partIndex := builder.partIndex + 1 } :
      PlaylistBuilder).HasIssued (builder.nextPart chunk).uri := part_issued _ _ _
  simp only [startChunk]
  split
  · obtain ⟨closed, advanced⟩ := close_advanced _ counted drained
    refine ⟨closed, counted_advanced builder _ chunk.dts _ _ advanced, ?_, advanced.issued _ (.inl own)⟩
    intro member
    obtain ⟨sequence, isSegment⟩ := advanced.closedNamed _ member
    exact part_uri_not_segment _ _ _ _ isSegment
  · exact ⟨[], counted_advanced builder _ chunk.dts _ _ (advanced_refl _ counted drained), by simp, own⟩

theorem append_part_advanced (before middle : PlaylistBuilder) (closed : List String) (part : Part)
    (advanced : Advanced before middle closed []) (unissued : ¬ before.HasIssued part.uri) (new : part.uri ∉ closed)
    (named : ∃ sequence index, part.uri = partUri before.config.uriPrefix sequence index)
    (numbered : Numbered before) (issued : middle.HasIssued part.uri) :
    Advanced before (middle.appendPart part) closed [part.uri] := by
  have absent : part.uri ∉ liveUris middle.manifest := by
    intro member
    have inside : part.uri ∈ liveUris before.manifest ++ (closed ++ []) := by
      rw [advanced.partition]
      exact List.mem_append_right _ member
    cases List.mem_append.mp inside with
    | inl old => exact unissued (numbered.issued _ old)
    | inr recent => exact new (by simpa using recent)
  have grown : livePartUris (middle.appendPart part).manifest = livePartUris middle.manifest ++ [part.uri] := by
    simp [livePartUris, appendPart, advanced.numbered.preliminary]
  refine
    { config := advanced.config
      numbered := append_part_numbered middle part advanced.numbered issued absent
      closedNamed := advanced.closedNamed
      pushedNamed := fun uri member => List.mem_singleton.mp member ▸ named
      partition := ?_
      freshDistinct := ?_
      unissued := ?_
      issued := ?_
      listed := advanced.listed
      kept := advanced.kept
      part := ?_
      pushedLive := by simp [grown] }
  · have partition := advanced.partition
    rw [List.append_nil] at partition
    rw [append_part_live middle part advanced.numbered, ← List.append_assoc, partition, List.append_assoc]
    rfl
  · have distinct := advanced.freshDistinct
    rw [List.append_nil] at distinct
    exact List.nodup_append.mpr ⟨distinct, by simp, fun uri member other same eq =>
      new (by rw [← List.mem_singleton.mp same, ← eq]; exact member)⟩
  · intro uri member
    cases List.mem_append.mp member with
    | inl recent => exact advanced.unissued uri (List.mem_append_left _ recent)
    | inr last => rwa [List.mem_singleton.mp last]
  · intro uri either
    cases either with
    | inl old => exact advanced.issued uri (.inl old)
    | inr member =>
        cases List.mem_append.mp member with
        | inl recent => exact advanced.issued uri (.inr (List.mem_append_left _ recent))
        | inr last =>
            rw [List.mem_singleton.mp last]
            exact issued
  · intro uri member
    rw [grown] at member
    cases List.mem_append.mp member with
    | inl old => exact .inl ((advanced.part uri old).resolve_right (by simp))
    | inr last => exact .inr last

theorem accept_advanced (builder : PlaylistBuilder) (chunk : Cmaf.CmafChunk) (numbered : Numbered builder)
    (drained : builder.evictedUris = []) :
    ∃ closed, Advanced builder (builder.accept chunk) closed [(builder.nextPart chunk).uri] := by
  obtain ⟨closed, advanced, new, issued⟩ := start_chunk_advanced builder chunk numbered drained
  exact ⟨closed, append_part_advanced builder _ closed _ advanced (next_part_not_issued _ _ _) new
    ⟨_, _, rfl⟩ numbered issued⟩

theorem finalize_advanced (builder : PlaylistBuilder) (numbered : Numbered builder)
    (drained : builder.evictedUris = []) : ∃ closed, Advanced builder builder.finalize closed [] := by
  obtain ⟨closed, advanced⟩ := close_advanced builder numbered drained
  have nothing : builder.closePendingSegment.manifest.preliminaryParts = [] := by
    rw [advanced.numbered.preliminary, close_pending_parts]
  have live : liveUris builder.finalize.manifest = liveUris builder.closePendingSegment.manifest := by
    simp [liveUris, finalize, nothing]
  have parts : livePartUris builder.finalize.manifest = livePartUris builder.closePendingSegment.manifest := by
    simp [livePartUris, finalize, nothing]
  exact ⟨closed,
    { config := advanced.config
      numbered := finalize_numbered builder numbered
      closedNamed := advanced.closedNamed
      pushedNamed := advanced.pushedNamed
      partition := live ▸ advanced.partition
      freshDistinct := advanced.freshDistinct
      unissued := advanced.unissued
      issued := advanced.issued
      listed := advanced.listed
      kept := advanced.kept
      part := parts ▸ advanced.part
      pushedLive := by simp }⟩

end PlaylistBuilder

end Lvqr.Hls
