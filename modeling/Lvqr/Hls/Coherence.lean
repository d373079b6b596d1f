import Lvqr.Hls.Sections
import Mathlib.Data.Set.Insert

set_option autoImplicit false

namespace Lvqr.Hls

open PlaylistBuilder

-- The cache work that released calls still owe, as sets: which call owes it and
-- in which order it will run is left open.
structure Outstanding where
  stores : Set (String × Bytes)
  coalesces : Set CoalesceItem
  purges : Set (List String)

namespace Outstanding

def none : Outstanding := ⟨∅, ∅, ∅⟩

def add (out : Outstanding) (work : CacheWork) : Outstanding where
  stores := out.stores ∪ {entry | work.store = some entry}
  coalesces := out.coalesces ∪ {item | item ∈ work.coalesce}
  purges := insert work.purge out.purges

end Outstanding

def PlaylistBuilder.NamesSegment (builder : PlaylistBuilder) (uri : String) : Prop :=
  ∃ sequence, uri = segmentUri builder.config.uriPrefix sequence

def fullBody (bodies : String → Bytes) (partUris : List String) : Bytes :=
  (partUris.map bodies).flatten

-- The relation between playlist, cache and owed work. `bodies` remembers what
-- was pushed under each part URI and `evicted` every URI that left the window.
structure Coherent (builder : PlaylistBuilder) (cache : ByteCache) (out : Outstanding)
    (bodies : String → Bytes) (evicted : Set String) : Prop where
  numbered : Numbered builder
  drained : builder.evictedUris = []
  segmentNamed : ∀ segment ∈ builder.manifest.segments, builder.NamesSegment segment.uri
  partNamed : ∀ uri ∈ livePartUris builder.manifest, ¬ builder.NamesSegment uri
  itemNamed : ∀ item ∈ out.coalesces,
    builder.NamesSegment item.segmentUri ∧ ∀ uri ∈ item.partUris, ¬ builder.NamesSegment uri
  evictedIssued : ∀ uri ∈ evicted, builder.HasIssued uri
  evictedGone : ∀ uri ∈ evicted, uri ∉ liveUris builder.manifest
  purging : ∀ uris ∈ out.purges, ∀ uri ∈ uris, uri ∈ evicted
  storing : ∀ entry ∈ out.stores, entry.2 = bodies entry.1 ∧
    (entry.1 ∈ livePartUris builder.manifest ∨ ∃ uris ∈ out.purges, entry.1 ∈ uris)
  bodyNonempty : ∀ uri ∈ livePartUris builder.manifest, bodies uri ≠ []
  part : ∀ uri ∈ livePartUris builder.manifest,
    cache uri = some (bodies uri) ∨ (cache uri = .none ∧ (uri, bodies uri) ∈ out.stores)
  segment : ∀ segment ∈ builder.manifest.segments,
    cache segment.uri = some (fullBody bodies (segment.parts.map Part.uri)) ∨
      (cache segment.uri = .none ∧ segment.coalesceItem ∈ out.coalesces)
  item : ∀ item ∈ out.coalesces,
    (∃ segment ∈ builder.manifest.segments, item = segment.coalesceItem) ∨
      (∃ uris ∈ out.purges, item.segmentUri ∈ uris ∧ ∀ uri ∈ item.partUris, uri ∈ uris) ∨
      ∀ uri ∈ item.partUris, uri ∈ evicted ∧ cache uri = .none ∧ ∀ body, (uri, body) ∉ out.stores
  cached : ∀ uri, cache uri ≠ .none → uri ∈ liveUris builder.manifest ∨ ∃ uris ∈ out.purges, uri ∈ uris

theorem new_coherent (config : PlaylistBuilderConfig) (bodies : String → Bytes) :
    Coherent (new config) (fun _ => none) .none bodies ∅ := by
  constructor
  · exact new_numbered config
  all_goals simp [Outstanding.none, livePartUris, new]

section Coherent

variable {builder after : PlaylistBuilder} {cache : ByteCache} {out : Outstanding} {bodies : String → Bytes}
variable {evicted : Set String} {closed pushed : List String}

theorem owed_purge_issued (coherent : Coherent builder cache out bodies evicted) (uris : List String)
    (owed : uris ∈ out.purges) (uri : String) (member : uri ∈ uris) : builder.HasIssued uri :=
  coherent.evictedIssued uri (coherent.purging uris owed uri member)

theorem cached_issued (coherent : Coherent builder cache out bodies evicted) (uri : String)
    (cached : cache uri ≠ none) : builder.HasIssued uri := by
  cases coherent.cached uri cached with
  | inl live => exact coherent.numbered.issued uri live
  | inr doomed =>
      obtain ⟨uris, owed, member⟩ := doomed
      exact owed_purge_issued coherent uris owed uri member

theorem stored_issued (coherent : Coherent builder cache out bodies evicted) (entry : String × Bytes)
    (member : entry ∈ out.stores) : builder.HasIssued entry.1 := by
  cases (coherent.storing entry member).2 with
  | inl live => exact coherent.numbered.issued _ (part_uri_live _ _ live)
  | inr doomed =>
      obtain ⟨uris, owed, inside⟩ := doomed
      exact owed_purge_issued coherent uris owed _ inside

-- What a builder section leaves in the window or hands to the purge.
theorem live_or_evicted (advanced : Advanced builder after closed pushed) (uri : String)
    (live : uri ∈ liveUris builder.manifest) : uri ∈ after.evictedUris ∨ uri ∈ liveUris after.manifest := by
  have inside := List.mem_append_left (closed ++ pushed) live
  rw [advanced.partition] at inside
  exact List.mem_append.mp inside

theorem evicted_not_live (advanced : Advanced builder after closed pushed) (numbered : Numbered builder)
    (uri : String) (gone : uri ∈ after.evictedUris) : uri ∉ liveUris after.manifest := by
  have distinct : (liveUris builder.manifest ++ (closed ++ pushed)).Nodup :=
    List.nodup_append.mpr ⟨numbered.distinct, advanced.freshDistinct, fun a live b fresh same =>
      advanced.unissued b fresh (same ▸ numbered.issued a live)⟩
  rw [advanced.partition] at distinct
  exact fun live => (List.nodup_append.mp distinct).2.2 uri gone uri live rfl

theorem evicted_issued (advanced : Advanced builder after closed pushed) (numbered : Numbered builder)
    (uri : String) (gone : uri ∈ after.evictedUris) : after.HasIssued uri := by
  have inside := List.mem_append_left (liveUris after.manifest) gone
  rw [← advanced.partition] at inside
  exact advanced.issued uri ((List.mem_append.mp inside).imp_left (numbered.issued uri))

theorem live_after (advanced : Advanced builder after closed pushed) (uri : String)
    (live : uri ∈ liveUris after.manifest) : uri ∈ liveUris builder.manifest ∨ uri ∈ closed ++ pushed := by
  have inside := List.mem_append_right after.evictedUris live
  rw [← advanced.partition] at inside
  exact List.mem_append.mp inside

theorem part_live_or_evicted (advanced : Advanced builder after closed pushed) (numbered : Numbered builder)
    (uri : String) (live : uri ∈ livePartUris builder.manifest) :
    uri ∈ livePartUris after.manifest ∨ uri ∈ after.evictedUris := by
  cases live_or_evicted advanced uri (part_uri_live _ uri live) with
  | inl gone => exact .inr gone
  | inr stays =>
      cases List.mem_append.mp ((live_uris_perm after.manifest).mem_iff.mp stays) with
      | inl isSegment =>
          obtain ⟨segment, member, rfl⟩ := List.mem_map.mp isSegment
          cases advanced.listed segment member with
          | inl kept =>
              obtain ⟨old, _⟩ := kept
              exact absurd live (segment_uri_not_part builder numbered segment old)
          | inr opened =>
              obtain ⟨fresh, _⟩ := opened
              exact absurd (numbered.issued _ (part_uri_live _ _ live))
                (advanced.unissued _ (List.mem_append_left _ fresh))
      | inr isPart => exact .inl isPart

theorem drained_numbered (numbered : Numbered after) : Numbered { after with evictedUris := [] } :=
  ⟨numbered.preliminary, numbered.issued, numbered.distinct, numbered.below, numbered.ascending, numbered.nonempty⟩

-- `next` is `bodies` with the body of the part the section pushes, if any.
structure Recording (bodies next : String → Bytes) (pushed : List String) (store : Option (String × Bytes)) : Prop where
  stored : pushed = store.toList.map Prod.fst
  nonempty : ∀ entry ∈ store, entry.2 ≠ []
  recorded : ∀ entry ∈ store, next entry.1 = entry.2
  kept : ∀ uri, uri ∉ pushed → next uri = bodies uri

theorem recording_nothing (bodies : String → Bytes) : Recording bodies bodies [] none :=
  ⟨rfl, by simp, by simp, fun _ _ => rfl⟩

theorem recording_part (bodies : String → Bytes) (uri : String) (body : Bytes) (nonempty : body ≠ []) :
    Recording bodies (Function.update bodies uri body) [uri] (some (uri, body)) where
  stored := rfl
  nonempty := by simpa using nonempty
  recorded := by simp
  kept other outside := Function.update_of_ne (by simpa using outside) _ _

section Released

variable {next : String → Bytes} {store : Option (String × Bytes)}

theorem recording_entry (recording : Recording bodies next pushed store) (uri : String) (member : uri ∈ pushed) :
    store = some (uri, next uri) := by
  rw [recording.stored] at member
  obtain ⟨entry, inside, rfl⟩ := List.mem_map.mp member
  have present := Option.mem_toList.mp inside
  rw [recording.recorded entry present]
  exact present

theorem recording_pushed (recording : Recording bodies next pushed store) (entry : String × Bytes)
    (present : store = some entry) : entry.1 ∈ pushed := by
  rw [recording.stored, present]
  exact List.mem_singleton_self _

theorem recorded_issued (advanced : Advanced builder after closed pushed)
    (recording : Recording bodies next pushed store) (uri : String) (issued : builder.HasIssued uri) :
    next uri = bodies uri :=
  recording.kept uri fun member => advanced.unissued uri (List.mem_append_right _ member) issued

theorem recorded_live (numbered : Numbered builder) (advanced : Advanced builder after closed pushed)
    (recording : Recording bodies next pushed store) (uri : String) (live : uri ∈ livePartUris builder.manifest) :
    next uri = bodies uri :=
  recorded_issued advanced recording uri (numbered.issued uri (part_uri_live _ uri live))

theorem names_segment_iff (advanced : Advanced builder after closed pushed) (uri : String) :
    after.NamesSegment uri ↔ builder.NamesSegment uri := by
  simp only [NamesSegment, advanced.config]

theorem fresh_uncached (coherent : Coherent builder cache out bodies evicted)
    (advanced : Advanced builder after closed pushed) (uri : String) (fresh : uri ∈ closed ++ pushed) :
    cache uri = .none := by
  by_contra cached
  exact advanced.unissued uri fresh (cached_issued coherent uri cached)

theorem listed_named (coherent : Coherent builder cache out bodies evicted)
    (advanced : Advanced builder after closed pushed) :
    ∀ segment ∈ after.manifest.segments, after.NamesSegment segment.uri := by
  intro segment member
  rw [names_segment_iff advanced]
  cases advanced.listed segment member with
  | inl kept => exact coherent.segmentNamed segment kept.1
  | inr opened => exact advanced.closedNamed _ opened.1

theorem parts_named (coherent : Coherent builder cache out bodies evicted)
    (advanced : Advanced builder after closed pushed) :
    ∀ uri ∈ livePartUris after.manifest, ¬ after.NamesSegment uri := by
  intro uri live
  rw [names_segment_iff advanced]
  cases advanced.part uri live with
  | inl before => exact coherent.partNamed uri before
  | inr fresh =>
      obtain ⟨sequence, index, rfl⟩ := advanced.pushedNamed uri fresh
      intro named
      obtain ⟨other, same⟩ := named
      exact part_uri_not_segment _ _ _ _ same

theorem collected_listed (manifest : Manifest) (prevLastSeq : Option Nat) (item : CoalesceItem)
    (collected : item ∈ collectCoalesceWork manifest prevLastSeq) :
    ∃ segment ∈ manifest.segments, item = segment.coalesceItem := by
  obtain ⟨segment, member, same⟩ := List.mem_map.mp collected
  exact ⟨segment, (List.mem_filter.mp member).1, same.symm⟩

def releasedOut (out : Outstanding) (builder after : PlaylistBuilder) (store : Option (String × Bytes)) :
    Outstanding :=
  out.add (after.releaseWith builder.lastSequence store).2

theorem released_item_named (coherent : Coherent builder cache out bodies evicted)
    (advanced : Advanced builder after closed pushed) :
    ∀ item ∈ (releasedOut out builder after store).coalesces,
      after.NamesSegment item.segmentUri ∧ ∀ uri ∈ item.partUris, ¬ after.NamesSegment uri := by
  intro item either
  cases either with
  | inl owed =>
      obtain ⟨segmentNamed, partNamed⟩ := coherent.itemNamed item owed
      exact ⟨(names_segment_iff advanced _).mpr segmentNamed,
        fun uri isPart => (names_segment_iff advanced uri).not.mpr (partNamed uri isPart)⟩
  | inr collected =>
      obtain ⟨segment, listed, rfl⟩ := collected_listed _ _ item collected
      refine ⟨listed_named coherent advanced segment listed, fun uri isPart => ?_⟩
      obtain ⟨part, inside, rfl⟩ := List.mem_map.mp isPart
      exact parts_named coherent advanced _ (segment_part_live _ segment listed part inside)

theorem released_gone (coherent : Coherent builder cache out bodies evicted)
    (advanced : Advanced builder after closed pushed) :
    ∀ uri ∈ evicted ∪ {uri | uri ∈ after.evictedUris}, after.HasIssued uri ∧ uri ∉ liveUris after.manifest := by
  intro uri either
  cases either with
  | inl before =>
      have issued := coherent.evictedIssued uri before
      refine ⟨advanced.issued uri (.inl issued), fun live => ?_⟩
      cases live_after advanced uri live with
      | inl stayed => exact coherent.evictedGone uri before stayed
      | inr fresh => exact advanced.unissued uri fresh issued
  | inr gone =>
      exact ⟨evicted_issued advanced coherent.numbered uri gone, evicted_not_live advanced coherent.numbered uri gone⟩

theorem released_purging (coherent : Coherent builder cache out bodies evicted) :
    ∀ uris ∈ (releasedOut out builder after store).purges,
      ∀ uri ∈ uris, uri ∈ evicted ∪ {uri | uri ∈ after.evictedUris} := by
  intro uris either uri member
  cases either with
  | inl same =>
      subst same
      exact .inr member
  | inr owed => exact .inl (coherent.purging uris owed uri member)

theorem released_storing (coherent : Coherent builder cache out bodies evicted)
    (advanced : Advanced builder after closed pushed) (recording : Recording bodies next pushed store) :
    ∀ entry ∈ (releasedOut out builder after store).stores, entry.2 = next entry.1 ∧
      (entry.1 ∈ livePartUris after.manifest ∨
        ∃ uris ∈ (releasedOut out builder after store).purges, entry.1 ∈ uris) := by
  intro entry either
  cases either with
  | inl owed =>
      obtain ⟨body, place⟩ := coherent.storing entry owed
      have same := recorded_issued advanced recording entry.1 (stored_issued coherent entry owed)
      refine ⟨body.trans same.symm, ?_⟩
      cases place with
      | inl live =>
          cases part_live_or_evicted advanced coherent.numbered entry.1 live with
          | inl stays => exact .inl stays
          | inr gone => exact .inr ⟨after.evictedUris, .inl rfl, gone⟩
      | inr doomed =>
          obtain ⟨uris, purge, member⟩ := doomed
          exact .inr ⟨uris, .inr purge, member⟩
  | inr present =>
      have fresh := recording_pushed recording entry present
      exact ⟨(recording.recorded entry present).symm, .inl (advanced.pushedLive entry.1 fresh)⟩

theorem released_nonempty (coherent : Coherent builder cache out bodies evicted)
    (advanced : Advanced builder after closed pushed) (recording : Recording bodies next pushed store) :
    ∀ uri ∈ livePartUris after.manifest, next uri ≠ [] := by
  intro uri live
  cases advanced.part uri live with
  | inl before =>
      rw [recorded_live coherent.numbered advanced recording uri before]
      exact coherent.bodyNonempty uri before
  | inr fresh => exact recording.nonempty (uri, next uri) (recording_entry recording uri fresh)

theorem released_part (coherent : Coherent builder cache out bodies evicted)
    (advanced : Advanced builder after closed pushed) (recording : Recording bodies next pushed store) :
    ∀ uri ∈ livePartUris after.manifest, cache uri = some (next uri) ∨
      (cache uri = .none ∧ (uri, next uri) ∈ (releasedOut out builder after store).stores) := by
  intro uri live
  cases advanced.part uri live with
  | inl before =>
      rw [recorded_live coherent.numbered advanced recording uri before]
      exact (coherent.part uri before).imp_right (And.imp_right .inl)
  | inr fresh =>
      have uncached := fresh_uncached coherent advanced uri (List.mem_append_right _ fresh)
      exact .inr ⟨uncached, .inr (recording_entry recording uri fresh)⟩

theorem released_segment (coherent : Coherent builder cache out bodies evicted)
    (advanced : Advanced builder after closed pushed) (recording : Recording bodies next pushed store) :
    ∀ segment ∈ after.manifest.segments,
      cache segment.uri = some (fullBody next (segment.parts.map Part.uri)) ∨
        (cache segment.uri = .none ∧ segment.coalesceItem ∈ (releasedOut out builder after store).coalesces) := by
  intro segment member
  cases advanced.listed segment member with
  | inl kept =>
      have same : (segment.parts.map Part.uri).map next = (segment.parts.map Part.uri).map bodies := by
        apply List.map_congr_left
        intro uri isPart
        obtain ⟨part, inside, rfl⟩ := List.mem_map.mp isPart
        exact recorded_live coherent.numbered advanced recording _ (segment_part_live _ segment kept.1 part inside)
      rw [fullBody, same]
      exact (coherent.segment segment kept.1).imp_right (And.imp_right .inl)
  | inr opened =>
      have uncached := fresh_uncached coherent advanced segment.uri (List.mem_append_left _ opened.1)
      exact .inr ⟨uncached, .inr (List.mem_map_of_mem (List.mem_filter.mpr ⟨member, opened.2⟩))⟩

theorem released_item (coherent : Coherent builder cache out bodies evicted)
    (advanced : Advanced builder after closed pushed) (recording : Recording bodies next pushed store) :
    ∀ item ∈ (releasedOut out builder after store).coalesces,
      (∃ segment ∈ after.manifest.segments, item = segment.coalesceItem) ∨
        (∃ uris ∈ (releasedOut out builder after store).purges,
          item.segmentUri ∈ uris ∧ ∀ uri ∈ item.partUris, uri ∈ uris) ∨
        ∀ uri ∈ item.partUris, uri ∈ evicted ∪ {uri | uri ∈ after.evictedUris} ∧ cache uri = .none ∧
          ∀ body, (uri, body) ∉ (releasedOut out builder after store).stores := by
  intro item either
  cases either with
  | inr collected => exact .inl (collected_listed _ _ item collected)
  | inl owed =>
      cases coherent.item item owed with
      | inl listed =>
          obtain ⟨segment, member, rfl⟩ := listed
          cases advanced.kept segment member with
          | inl stays => exact .inl ⟨segment, stays, rfl⟩
          | inr gone =>
              have own : segment.coalesceItem.segmentUri ∈ after.evictedUris :=
                gone _ (List.mem_append_right _ (List.mem_singleton_self _))
              exact .inr (.inl ⟨after.evictedUris, .inl rfl, own, fun uri isPart =>
                gone uri (List.mem_append_left _ isPart)⟩)
      | inr unlisted =>
          cases unlisted with
          | inl doomed =>
              obtain ⟨uris, purge, inside⟩ := doomed
              exact .inr (.inl ⟨uris, .inr purge, inside⟩)
          | inr dead =>
              refine .inr (.inr fun uri isPart => ?_)
              obtain ⟨gone, uncached, unstored⟩ := dead uri isPart
              refine ⟨.inl gone, uncached, fun body stored => ?_⟩
              cases stored with
              | inl before => exact unstored body before
              | inr present =>
                  have fresh := recording_pushed recording (uri, body) present
                  exact advanced.unissued uri (List.mem_append_right _ fresh) (coherent.evictedIssued uri gone)

theorem released_cached (coherent : Coherent builder cache out bodies evicted)
    (advanced : Advanced builder after closed pushed) :
    ∀ uri, cache uri ≠ .none →
      uri ∈ liveUris after.manifest ∨ ∃ uris ∈ (releasedOut out builder after store).purges, uri ∈ uris := by
  intro uri cached
  cases coherent.cached uri cached with
  | inl live =>
      cases live_or_evicted advanced uri live with
      | inl gone => exact .inr ⟨after.evictedUris, .inl rfl, gone⟩
      | inr stays => exact .inl stays
  | inr doomed =>
      obtain ⟨uris, purge, member⟩ := doomed
      exact .inr ⟨uris, .inr purge, member⟩

-- A builder section keeps the relation: what it closes, pushes and evicts is
-- what it owes. The body of a pushed part is recorded before it is cached.
theorem released_coherent (coherent : Coherent builder cache out bodies evicted)
    (advanced : Advanced builder after closed pushed) (recording : Recording bodies next pushed store) :
    Coherent (after.releaseWith builder.lastSequence store).1 cache
      (out.add (after.releaseWith builder.lastSequence store).2) next
      (evicted ∪ {uri | uri ∈ after.evictedUris}) := by
  have segmentNamed := listed_named coherent advanced
  have partNamed := parts_named coherent advanced
  have gone := released_gone coherent advanced
  have bodyNonempty := released_nonempty coherent advanced recording
  have part := released_part coherent advanced recording
  have segment := released_segment coherent advanced recording
  exact
    { numbered := drained_numbered advanced.numbered
      drained := rfl
      segmentNamed := segmentNamed
      partNamed := partNamed
      itemNamed := released_item_named coherent advanced
      evictedIssued := fun uri member => (gone uri member).1
      evictedGone := fun uri member => (gone uri member).2
      purging := released_purging coherent
      storing := released_storing coherent advanced recording
      bodyNonempty := bodyNonempty
      part := part
      segment := segment
      item := released_item coherent advanced recording
      cached := released_cached coherent advanced }

end Released

theorem stored_not_listed (coherent : Coherent builder cache out bodies evicted) (entry : String × Bytes)
    (owed : entry ∈ out.stores) (segment : Segment) (member : segment ∈ builder.manifest.segments) :
    segment.uri ≠ entry.1 := by
  intro same
  cases (coherent.storing entry owed).2 with
  | inl live => exact segment_uri_not_part builder coherent.numbered segment member (same ▸ live)
  | inr doomed =>
      obtain ⟨uris, purge, inside⟩ := doomed
      have gone := coherent.evictedGone _ (coherent.purging uris purge _ inside)
      exact gone (same ▸ segment_uri_live _ segment member)

theorem write_cached (coherent : Coherent builder cache out bodies evicted) (next : ByteCache) (target : String)
    (elsewhere : ∀ uri, uri ≠ target → next uri = cache uri)
    (place : target ∈ liveUris builder.manifest ∨ ∃ uris ∈ out.purges, target ∈ uris) :
    ∀ uri, next uri ≠ .none → uri ∈ liveUris builder.manifest ∨ ∃ uris ∈ out.purges, uri ∈ uris := by
  intro uri cached
  by_cases same : uri = target
  · exact same ▸ place
  · rw [elsewhere uri same] at cached
    exact coherent.cached uri cached

theorem store_coherent (coherent : Coherent builder cache out bodies evicted) (uri : String) (body : Bytes)
    (owed : (uri, body) ∈ out.stores) (rest : Set (String × Bytes)) (smaller : rest ⊆ out.stores)
    (covers : out.stores ⊆ insert (uri, body) rest) :
    Coherent builder (cache.insert uri body) { out with stores := rest } bodies evicted := by
  obtain ⟨isBody, place⟩ := coherent.storing _ owed
  have elsewhere (other : String) (different : other ≠ uri) : cache.insert uri body other = cache other :=
    Function.update_of_ne different _ _
  refine
    { coherent with
      storing := fun entry member => coherent.storing entry (smaller member)
      part := ?_
      segment := ?_
      item := ?_
      cached := ?_ }
  · intro other live
    by_cases same : other = uri
    · subst same
      exact .inl ((Function.update_self _ _ _).trans (congrArg some isBody))
    · rw [elsewhere other same]
      refine (coherent.part other live).imp_right (And.imp_right fun member => (covers member).resolve_left ?_)
      exact fun eq => same (congrArg Prod.fst eq)
  · intro segment member
    rw [elsewhere _ (stored_not_listed coherent _ owed segment member)]
    exact coherent.segment segment member
  · intro item member
    refine (coherent.item item member).imp_right (Or.imp_right fun dead other isPart => ?_)
    obtain ⟨gone, uncached, unstored⟩ := dead other isPart
    have different : other ≠ uri := by
      intro same
      subst same
      exact unstored body owed
    rw [elsewhere other different]
    exact ⟨gone, uncached, fun next stored => unstored next (smaller stored)⟩
  · exact write_cached coherent _ uri elsewhere (place.imp_left (part_uri_live _ _))

theorem coalesce_elsewhere (cache : ByteCache) (item : CoalesceItem) (uri : String)
    (different : uri ≠ item.segmentUri) : coalesceSegment cache item uri = cache uri := by
  simp only [coalesceSegment]
  split
  · rfl
  · split
    · rfl
    · exact Function.update_of_ne different _ _

theorem coalesce_nothing_cached (cache : ByteCache) (item : CoalesceItem)
    (uncached : ∀ uri ∈ item.partUris, cache uri = none) : coalesceSegment cache item = cache := by
  have none : (item.partUris.filterMap fun uri => (cache uri).map List.length) = [] :=
    List.filterMap_eq_nil_iff.mpr fun uri member => by simp [uncached uri member]
  simp [coalesceSegment, none]

theorem coalesce_all_cached (cache : ByteCache) (item : CoalesceItem) (bodies : String → Bytes)
    (cached : ∀ uri ∈ item.partUris, cache uri = some (bodies uri)) (nonempty : ∀ uri ∈ item.partUris, bodies uri ≠ [])
    (someParts : item.partUris ≠ []) (absent : cache item.segmentUri = none) :
    coalesceSegment cache item item.segmentUri = some (fullBody bodies item.partUris) := by
  have lengths : (item.partUris.filterMap fun uri => (cache uri).map List.length) =
      item.partUris.map fun uri => (bodies uri).length := by
    rw [← List.filterMap_eq_map]
    exact List.filterMap_congr fun uri member => by simp [cached uri member]
  have found : item.partUris.filterMap cache = item.partUris.map bodies := by
    rw [← List.filterMap_eq_map]
    exact List.filterMap_congr fun uri member => by simp [cached uri member]
  have total : (item.partUris.map fun uri => (bodies uri).length).sum ≠ 0 := by
    obtain ⟨first, member⟩ := List.exists_mem_of_ne_nil _ someParts
    intro zero
    have empty := List.sum_eq_zero_iff_forall_eq_nat.mp zero _ (List.mem_map_of_mem member)
    exact nonempty first member (List.length_eq_zero_iff.mp empty)
  simp [coalesceSegment, absent, lengths, total, found, ByteCache.insert, fullBody]

theorem unlisted_item_forgotten (coherent : Coherent builder cache out bodies evicted) (item : CoalesceItem)
    (rest : Set CoalesceItem) (smaller : rest ⊆ out.coalesces) (covers : out.coalesces ⊆ insert item rest)
    (unlisted : ∀ segment ∈ builder.manifest.segments, item ≠ segment.coalesceItem) :
    Coherent builder cache { out with coalesces := rest } bodies evicted :=
  { coherent with
    itemNamed := fun other member => coherent.itemNamed other (smaller member)
    item := fun other member => coherent.item other (smaller member)
    segment := fun segment member => (coherent.segment segment member).imp_right fun ⟨absent, owed⟩ =>
      ⟨absent, (covers owed).resolve_left fun same => unlisted segment member same.symm⟩ }

theorem doomed_write_coherent (coherent : Coherent builder cache out bodies evicted) (next : ByteCache) (target : String)
    (elsewhere : ∀ uri, uri ≠ target → next uri = cache uri) (named : builder.NamesSegment target)
    (uris : List String) (owed : uris ∈ out.purges) (inside : target ∈ uris) :
    Coherent builder next out bodies evicted := by
  have gone := coherent.evictedGone target (coherent.purging uris owed target inside)
  refine
    { coherent with
      part := ?_
      segment := ?_
      item := ?_
      cached := write_cached coherent next target elsewhere (.inr ⟨uris, owed, inside⟩) }
  · intro uri live
    rw [elsewhere uri fun same => gone (same ▸ part_uri_live _ _ live)]
    exact coherent.part uri live
  · intro segment member
    rw [elsewhere _ fun same => gone (same ▸ segment_uri_live _ segment member)]
    exact coherent.segment segment member
  · intro item member
    refine (coherent.item item member).imp_right (Or.imp_right fun dead uri isPart => ?_)
    rw [elsewhere uri fun same => (coherent.itemNamed item member).2 uri isPart (same ▸ named)]
    exact dead uri isPart

theorem coalesced_body (coherent : Coherent builder cache out bodies evicted) (segment : Segment)
    (member : segment ∈ builder.manifest.segments) (ready : ∀ uri ∈ segment.coalesceItem.partUris, cache uri ≠ none) :
    coalesceSegment cache segment.coalesceItem segment.uri =
      some (fullBody bodies (segment.parts.map Part.uri)) := by
  have partLive (uri : String) (isPart : uri ∈ segment.coalesceItem.partUris) :
      uri ∈ livePartUris builder.manifest := by
    obtain ⟨part, inside, rfl⟩ := List.mem_map.mp isPart
    exact segment_part_live _ segment member part inside
  cases coherent.segment segment member with
  | inl done =>
      have skipped : coalesceSegment cache segment.coalesceItem = cache := by
        simp [coalesceSegment, Segment.coalesceItem, done]
      rw [skipped, done]
  | inr missing =>
      refine coalesce_all_cached cache segment.coalesceItem bodies ?_ ?_ ?_ missing.1
      · exact fun uri isPart => (coherent.part uri (partLive uri isPart)).resolve_right fun missing =>
          ready uri isPart missing.1
      · exact fun uri isPart => coherent.bodyNonempty uri (partLive uri isPart)
      · simpa [Segment.coalesceItem] using coherent.numbered.nonempty segment member

theorem listed_coalesce_coherent (coherent : Coherent builder cache out bodies evicted) (segment : Segment)
    (member : segment ∈ builder.manifest.segments) (rest : Set CoalesceItem) (smaller : rest ⊆ out.coalesces)
    (covers : out.coalesces ⊆ insert segment.coalesceItem rest)
    (ready : ∀ uri ∈ segment.coalesceItem.partUris, cache uri ≠ none) :
    Coherent builder (coalesceSegment cache segment.coalesceItem) { out with coalesces := rest } bodies evicted := by
  have elsewhere := coalesce_elsewhere cache segment.coalesceItem
  have full := coalesced_body coherent segment member ready
  refine
    { coherent with
      itemNamed := fun other owed => coherent.itemNamed other (smaller owed)
      part := ?_
      segment := ?_
      item := ?_
      cached := write_cached coherent _ _ elsewhere (.inl (segment_uri_live _ segment member)) }
  · intro uri live
    have different : uri ≠ segment.coalesceItem.segmentUri := by
      intro same
      subst same
      exact segment_uri_not_part builder coherent.numbered segment member live
    rw [elsewhere uri different]
    exact coherent.part uri live
  · intro other listed
    by_cases same : other = segment
    · subst same
      exact .inl full
    · have different : other.uri ≠ segment.coalesceItem.segmentUri := fun eq =>
        same (segment_determined_by_uri builder coherent.numbered other segment listed member eq)
      rw [elsewhere _ different]
      refine (coherent.segment other listed).imp_right (And.imp_right fun owed => (covers owed).resolve_left ?_)
      exact fun eq => different (congrArg CoalesceItem.segmentUri eq)
  · intro item owed
    refine (coherent.item item (smaller owed)).imp_right (Or.imp_right fun dead uri isPart => ?_)
    have different : uri ≠ segment.coalesceItem.segmentUri := by
      intro same
      subst same
      exact (coherent.itemNamed item (smaller owed)).2 _ isPart (coherent.segmentNamed segment member)
    rw [elsewhere uri different]
    exact dead uri isPart

-- Coalescing one segment. A listed segment must find all of its parts; one that
-- has left the window leaves nothing behind that a purge does not remove.
theorem coalesce_coherent (coherent : Coherent builder cache out bodies evicted) (item : CoalesceItem)
    (owed : item ∈ out.coalesces) (rest : Set CoalesceItem) (smaller : rest ⊆ out.coalesces)
    (covers : out.coalesces ⊆ insert item rest)
    (ready : ∀ segment ∈ builder.manifest.segments, item = segment.coalesceItem →
      ∀ uri ∈ item.partUris, cache uri ≠ none) :
    Coherent builder (coalesceSegment cache item) { out with coalesces := rest } bodies evicted := by
  by_cases listed : ∃ segment ∈ builder.manifest.segments, item = segment.coalesceItem
  · obtain ⟨segment, member, rfl⟩ := listed
    exact listed_coalesce_coherent coherent segment member rest smaller covers (ready segment member rfl)
  · have unlisted : ∀ segment ∈ builder.manifest.segments, item ≠ segment.coalesceItem := fun segment member same =>
      listed ⟨segment, member, same⟩
    have written : Coherent builder (coalesceSegment cache item) out bodies evicted := by
      cases (coherent.item item owed).resolve_left listed with
      | inl doomed =>
          obtain ⟨uris, purge, inside, _⟩ := doomed
          exact doomed_write_coherent coherent _ item.segmentUri (coalesce_elsewhere cache item)
            (coherent.itemNamed item owed).1 uris purge inside
      | inr dead => rwa [coalesce_nothing_cached cache item fun uri isPart => (dead uri isPart).2.1]
    exact unlisted_item_forgotten written item rest smaller covers unlisted

theorem coalesce_all_coherent (coherent : Coherent builder cache out bodies evicted) (items : List CoalesceItem)
    (owed : ∀ item ∈ items, item ∈ out.coalesces) (rest : Set CoalesceItem) (smaller : rest ⊆ out.coalesces)
    (covers : out.coalesces ⊆ {item | item ∈ items} ∪ rest)
    (ready : ∀ item ∈ items, ∀ segment ∈ builder.manifest.segments, item = segment.coalesceItem →
      ∀ uri ∈ item.partUris, cache uri ≠ none) :
    Coherent builder (coalesceClosedSegments cache items) { out with coalesces := rest } bodies evicted := by
  induction items generalizing cache out with
  | nil =>
      have all : out.coalesces = rest := Set.Subset.antisymm (by simpa using covers) smaller
      rw [← all]
      exact coherent
  | cons item items ih =>
      have first : Coherent builder (coalesceSegment cache item)
          { out with coalesces := {item | item ∈ items} ∪ rest } bodies evicted := by
        apply coalesce_coherent coherent item (owed item (by simp))
        · intro other either
          cases either with
          | inl later => exact owed other (List.mem_cons_of_mem _ later)
          | inr member => exact smaller member
        · intro other member
          cases covers member with
          | inl inside => exact (List.mem_cons.mp inside).imp_right .inl
          | inr member => exact .inr (.inr member)
        · exact ready item (by simp)
      have stillReady : ∀ other ∈ items, ∀ segment ∈ builder.manifest.segments, other = segment.coalesceItem →
          ∀ uri ∈ other.partUris, coalesceSegment cache item uri ≠ none := by
        intro other member segment listed same uri isPart
        have different : uri ≠ item.segmentUri := by
          intro same
          subst same
          have named := coherent.itemNamed other (owed other (List.mem_cons_of_mem _ member))
          exact named.2 _ isPart (coherent.itemNamed item (owed item (by simp))).1
        rw [coalesce_elsewhere cache item uri different]
        exact ready other (List.mem_cons_of_mem _ member) segment listed same uri isPart
      have later := ih first (fun _ member => .inl member) (fun _ member => .inr member) (fun _ member => member)
        stillReady
      exact later

theorem purge_apply (cache : ByteCache) (uris : List String) (uri : String) :
    purgeEvictedUris cache uris uri = if uri ∈ uris then none else cache uri := by
  induction uris generalizing cache with
  | nil => simp [purgeEvictedUris]
  | cons first uris ih =>
      have step : purgeEvictedUris cache (first :: uris) = purgeEvictedUris (cache.remove first) uris := rfl
      rw [step, ih]
      by_cases later : uri ∈ uris
      · simp [later]
      · by_cases same : uri = first
        · subst same
          simp [later, ByteCache.remove]
        · simp [later, same, ByteCache.remove]

theorem purge_coherent (coherent : Coherent builder cache out bodies evicted) (uris : List String)
    (owed : uris ∈ out.purges) (rest : Set (List String)) (smaller : rest ⊆ out.purges)
    (covers : out.purges ⊆ insert uris rest) (settled : ∀ entry ∈ out.stores, entry.1 ∉ uris) :
    Coherent builder (purgeEvictedUris cache uris) { out with purges := rest } bodies evicted := by
  have untouched (uri : String) (live : uri ∈ liveUris builder.manifest) :
      purgeEvictedUris cache uris uri = cache uri := by
    rw [purge_apply, if_neg fun inside => coherent.evictedGone uri (coherent.purging uris owed uri inside) live]
  refine
    { coherent with
      purging := fun other member => coherent.purging other (smaller member)
      storing := ?_
      part := ?_
      segment := ?_
      item := ?_
      cached := ?_ }
  · intro entry member
    obtain ⟨isBody, place⟩ := coherent.storing entry member
    refine ⟨isBody, place.imp_right fun ⟨other, purge, inside⟩ => ⟨other, (covers purge).resolve_left ?_, inside⟩⟩
    intro same
    subst same
    exact settled entry member inside
  · intro uri live
    rw [untouched uri (part_uri_live _ _ live)]
    exact coherent.part uri live
  · intro segment member
    rw [untouched _ (segment_uri_live _ segment member)]
    exact coherent.segment segment member
  · intro item member
    refine (coherent.item item member).imp_right fun unlisted => ?_
    cases unlisted with
    | inl doomed =>
        obtain ⟨other, purge, inside, parts⟩ := doomed
        cases covers purge with
        | inl same =>
            subst same
            refine .inr fun uri isPart => ⟨coherent.purging other owed uri (parts uri isPart), ?_, ?_⟩
            · rw [purge_apply, if_pos (parts uri isPart)]
            · exact fun body stored => settled _ stored (parts uri isPart)
        | inr later => exact .inl ⟨other, later, inside, parts⟩
    | inr dead =>
        refine .inr fun uri isPart => ?_
        obtain ⟨gone, uncached, unstored⟩ := dead uri isPart
        refine ⟨gone, ?_, unstored⟩
        rw [purge_apply, uncached, ite_self]
  · intro uri cached
    rw [purge_apply] at cached
    have outside : uri ∉ uris := fun inside => cached (if_pos inside)
    rw [if_neg outside] at cached
    refine (coherent.cached uri cached).imp_right fun ⟨other, purge, inside⟩ => ⟨other, (covers purge).resolve_left ?_, inside⟩
    intro same
    subst same
    exact outside inside

-- A call that runs alone settles everything it owes.
theorem perform_coherent (work : CacheWork)
    (coherent : Coherent builder cache (Outstanding.none.add work) bodies evicted) :
    Coherent builder (work.perform cache) .none bodies evicted := by
  have stored : Coherent builder (storePart cache work.store)
      { Outstanding.none.add work with stores := ∅ } bodies evicted := by
    cases entry : work.store with
    | none =>
        have nothing : (Outstanding.none.add work).stores = ∅ := by simp [Outstanding.none, Outstanding.add, entry]
        rw [← nothing]
        exact coherent
    | some entry' =>
        have only : (Outstanding.none.add work).stores = {entry'} := by
          ext other
          simp [Outstanding.none, Outstanding.add, entry, eq_comm]
        exact store_coherent coherent entry'.1 entry'.2 (by rw [only]; rfl) ∅ (Set.empty_subset _) (by simp [only])
  have coalesced := coalesce_all_coherent stored work.coalesce (fun item member => .inr member) ∅
    (Set.empty_subset _) (by simp [Outstanding.none, Outstanding.add]) (by
      intro item member segment listed same uri isPart
      subst same
      obtain ⟨part, inside, rfl⟩ := List.mem_map.mp isPart
      cases stored.part _ (segment_part_live _ segment listed part inside) with
      | inl cached => simp [cached]
      | inr missing =>
          obtain ⟨_, owed⟩ := missing
          exact absurd owed (Set.notMem_empty _))
  have purged := purge_coherent coalesced work.purge (.inl rfl) ∅ (Set.empty_subset _)
    (by simp [Outstanding.none, Outstanding.add]) (by simp)
  exact purged

end Coherent

section Sections

variable {builder : PlaylistBuilder} {cache : ByteCache} {out : Outstanding} {bodies : String → Bytes}
variable {evicted : Set String}

theorem push_section_coherent (coherent : Coherent builder cache out bodies evicted) (chunk : Cmaf.CmafChunk)
    (body : Bytes) (released : PlaylistBuilder) (work : CacheWork)
    (pushed : builder.pushSection chunk body = (.ok work, released)) :
    Coherent released cache (out.add work)
        (Function.update bodies (builder.nextPart chunk).uri (Cmaf.prependCmafChunkStyp body))
        (evicted ∪ {uri | uri ∈ work.purge}) ∧
      work.store = some ((builder.nextPart chunk).uri, Cmaf.prependCmafChunkStyp body) := by
  by_cases accepts : builder.Accepts chunk
  · rw [push_section_accepted builder chunk body accepts] at pushed
    obtain ⟨rfl, rfl⟩ : _ ∧ _ := by simpa using pushed
    obtain ⟨closed, advanced⟩ := accept_advanced builder chunk coherent.numbered coherent.drained
    have recording := recording_part bodies (builder.nextPart chunk).uri _ (Cmaf.prepend_styp_ne_nil body)
    exact ⟨released_coherent coherent advanced recording, rfl⟩
  · obtain ⟨error, failed⟩ := push_section_rejected builder chunk body accepts
    simp [failed] at pushed

theorem close_section_coherent (coherent : Coherent builder cache out bodies evicted) :
    Coherent builder.closeSection.1 cache (out.add builder.closeSection.2) bodies
      (evicted ∪ {uri | uri ∈ builder.closeSection.2.purge}) := by
  obtain ⟨closed, advanced⟩ := close_advanced builder coherent.numbered coherent.drained
  exact released_coherent coherent advanced (recording_nothing bodies)

theorem finalize_section_coherent (coherent : Coherent builder cache out bodies evicted) :
    Coherent builder.finalizeSection.1 cache (out.add builder.finalizeSection.2) bodies
      (evicted ∪ {uri | uri ∈ builder.finalizeSection.2.purge}) := by
  obtain ⟨closed, advanced⟩ := finalize_advanced builder coherent.numbered coherent.drained
  exact released_coherent coherent advanced (recording_nothing bodies)

theorem mark_coherent (coherent : Coherent builder cache out bodies evicted) :
    Coherent builder.markDiscontinuityPending cache out bodies evicted :=
  { coherent with numbered := { coherent.numbered with } }

theorem push_date_range_coherent (coherent : Coherent builder cache out bodies evicted) (range : DateRange) :
    Coherent (builder.pushDateRange range) cache out bodies evicted := by
  unfold pushDateRange
  split
  · exact coherent
  · exact { coherent with numbered := { coherent.numbered with } }

end Sections

-- What a client may rely on between calls: the cache holds exactly the URIs of
-- the playlist, and a segment is its parts.
structure CacheCoherent (server : HlsServer) : Prop where
  keys : ∀ uri, (server.cache uri).isSome = true ↔ uri ∈ liveUris server.builder.manifest
  body : ∀ segment ∈ server.builder.manifest.segments,
    server.cache segment.uri = some ((segment.parts.map fun part => (server.cache part.uri).getD []).flatten)

def Settled (server : HlsServer) : Prop :=
  ∃ bodies evicted, Coherent server.builder server.cache .none bodies evicted

section Settled

variable {builder : PlaylistBuilder} {cache : ByteCache} {bodies : String → Bytes} {evicted : Set String}

theorem settled_part (coherent : Coherent builder cache .none bodies evicted) (uri : String)
    (live : uri ∈ livePartUris builder.manifest) : cache uri = some (bodies uri) :=
  (coherent.part uri live).resolve_right fun ⟨_, owed⟩ => owed

theorem settled_segment (coherent : Coherent builder cache .none bodies evicted) (segment : Segment)
    (member : segment ∈ builder.manifest.segments) :
    cache segment.uri = some (fullBody bodies (segment.parts.map Part.uri)) :=
  (coherent.segment segment member).resolve_right fun ⟨_, owed⟩ => owed

end Settled

theorem settled_cache_coherent (server : HlsServer) (settled : Settled server) : CacheCoherent server := by
  obtain ⟨bodies, evicted, coherent⟩ := settled
  have part := settled_part coherent
  have segment := settled_segment coherent
  refine ⟨fun uri => ⟨fun cached => ?_, fun live => ?_⟩, fun listed member => ?_⟩
  · refine (coherent.cached uri (Option.isSome_iff_ne_none.mp cached)).resolve_right ?_
    intro owing
    obtain ⟨_, owed, _⟩ := owing
    exact owed
  · cases List.mem_append.mp ((live_uris_perm _).mem_iff.mp live) with
    | inl isSegment =>
        obtain ⟨listed, member, rfl⟩ := List.mem_map.mp isSegment
        simp [segment listed member]
    | inr isPart => simp [part uri isPart]
  · rw [segment listed member, fullBody, List.map_map]
    refine congrArg (fun parts => some (List.flatten parts)) (List.map_congr_left fun inside isPart => ?_)
    simp [part _ (segment_part_live _ listed member inside isPart)]

-- The bodies pushed so far, once a call has been made.
def HlsServer.recorded (server : HlsServer) (bodies : String → Bytes) : ServerOp → String → Bytes
  | .pushChunkBytes chunk body =>
      if server.builder.Accepts chunk then
        Function.update bodies (server.builder.nextPart chunk).uri (Cmaf.prependCmafChunkStyp body)
      else bodies
  | _ => bodies

def SettledWith (server : HlsServer) (bodies : String → Bytes) : Prop :=
  ∃ evicted, Coherent server.builder server.cache .none bodies evicted

theorem complete_settled (server : HlsServer) (released : PlaylistBuilder) (work : CacheWork)
    (bodies : String → Bytes) (evicted : Set String)
    (coherent : Coherent released server.cache (Outstanding.none.add work) bodies evicted) :
    SettledWith (server.complete (released, work)) bodies :=
  ⟨evicted, perform_coherent work coherent⟩

theorem apply_settled_with (server : HlsServer) (op : ServerOp) (bodies : String → Bytes)
    (settled : SettledWith server bodies) : SettledWith (server.apply op) (server.recorded bodies op) := by
  obtain ⟨evicted, coherent⟩ := settled
  cases op with
  | pushInit bytes =>
      refine ⟨evicted, ?_⟩
      simp only [HlsServer.apply, HlsServer.pushInit]
      split
      · exact mark_coherent coherent
      · exact coherent
  | pushChunkBytes chunk body =>
      simp only [HlsServer.apply, HlsServer.pushChunkBytes, HlsServer.recorded]
      by_cases accepts : server.builder.Accepts chunk
      · have pushed := push_section_accepted server.builder chunk body accepts
        rw [pushed, if_pos accepts]
        exact complete_settled server _ _ _ _ (push_section_coherent coherent chunk body _ _ pushed).1
      · obtain ⟨error, failed⟩ := push_section_rejected server.builder chunk body accepts
        rw [failed, if_neg accepts]
        exact ⟨evicted, coherent⟩
  | pushDateRange range => exact ⟨evicted, push_date_range_coherent coherent range⟩
  | closePendingSegment => exact complete_settled server _ _ _ _ (close_section_coherent coherent)
  | finalize => exact complete_settled server _ _ _ _ (finalize_section_coherent coherent)

theorem apply_settled (server : HlsServer) (op : ServerOp) (settled : Settled server) : Settled (server.apply op) := by
  obtain ⟨bodies, settled⟩ := settled
  exact ⟨_, apply_settled_with server op bodies settled⟩

theorem run_settled (config : PlaylistBuilderConfig) (ops : List ServerOp) :
    Settled (Machine.run HlsServer.apply (.new config) ops) :=
  Machine.invariant_of_run (fun server op => apply_settled server op) _ ops ⟨fun _ => [], _, new_coherent config _⟩

theorem push_succeeds_or_unchanged (server : HlsServer) (chunk : Cmaf.CmafChunk) (body : Bytes) :
    (server.pushChunkBytes chunk body).1 = .ok () ∨ (server.pushChunkBytes chunk body).2 = server := by
  by_cases accepts : server.builder.Accepts chunk
  · exact .inl (by simp [HlsServer.pushChunkBytes, push_section_accepted server.builder chunk body accepts])
  · obtain ⟨error, rejected⟩ := push_section_rejected server.builder chunk body accepts
    exact .inr (by simp [HlsServer.pushChunkBytes, rejected])

-- Between calls the cache mirrors the playlist, whatever the window; a rejected
-- push changes neither.
theorem sequential_cache_coherent (config : PlaylistBuilderConfig) (ops : List ServerOp) :
    CacheCoherent (Machine.run HlsServer.apply (.new config) ops) ∧
      ∀ chunk body,
        ((Machine.run HlsServer.apply (.new config) ops).pushChunkBytes chunk body).1 = .ok () ∨
          ((Machine.run HlsServer.apply (.new config) ops).pushChunkBytes chunk body).2 =
            Machine.run HlsServer.apply (.new config) ops :=
  ⟨settled_cache_coherent _ (run_settled config ops), push_succeeds_or_unchanged _⟩

end Lvqr.Hls
