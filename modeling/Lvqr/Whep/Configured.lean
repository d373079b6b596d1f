import Lvqr.Whep.Joining

set_option autoImplicit false

-- Which runs leave every subscriber with what is cached for its broadcast.
namespace Lvqr.Whep

open Whip (MediaCodec)

-- What the call in progress has written stands in the cache while it walks.
def Publishing.Stored (caches : WhepCaches) : Publishing → Prop
  | .idle => True
  | .storing _ _ => True
  | .stored broadcast update => ∀ kind : CacheKind, update.kind = some kind →
      caches.cached broadcast kind = some update.unstamped
  | .walking broadcast update _ => ∀ kind : CacheKind, update.kind = some kind →
      caches.cached broadcast kind = some update.unstamped

def Offer.Anchored : Offer → Prop
  | .gating _ => True
  | .creating _ => True
  | .readingAudioConfig _ => True
  | .readingParamSets _ _ => True
  | .readingKeyframe _ _ _ => True
  | .inserting _ seeds => seeds.Anchored
  | .rejected => True
  | .accepted _ => True

structure Sound (state : WhepState) : Prop where
  anchored : state.caches.Anchored
  seeded : ∀ offer ∈ state.offers, offer.Anchored
  published : state.publishing.Stored state.caches
  configured : ∀ (sessionId : String) (entry : SessionEntry), state.sessions.lookup sessionId = some entry →
    ∀ kind : CacheKind, newest kind entry.delivered = state.caches.cached entry.broadcast kind ∨
      state.publishing.owes sessionId entry.broadcast kind

theorem start_sound : Sound .start where
  anchored := empty_anchored
  seeded := fun _ member => nomatch member
  published := trivial
  configured := fun _ _ found => nomatch found

theorem store_sound (state : WhepState) (broadcast : String) (update : MediaUpdate) (sound : Sound state)
    (calling : state.publishing = .storing broadcast update) :
    Sound { state with caches := state.caches.store broadcast update, publishing := .stored broadcast update } where
  anchored := store_anchored state.caches broadcast update sound.anchored
  seeded := sound.seeded
  published := by
    intro kind own
    rw [cached_store, if_pos ⟨rfl, own⟩]
  configured := by
    intro sessionId entry found kind
    rw [cached_store]
    by_cases own : entry.broadcast = broadcast ∧ update.kind = some kind
    · exact .inr ⟨own.1.symm, own.2⟩
    · rw [if_neg own]
      refine (sound.configured sessionId entry found kind).imp_right ?_
      intro owes
      rw [calling] at owes
      exact owes.elim

theorem iterate_sound (state : WhepState) (broadcast : String) (update : MediaUpdate) (sound : Sound state)
    (stored : state.publishing = .stored broadcast update) :
    Sound { state with publishing := .walking broadcast update state.sessions.keys } where
  anchored := sound.anchored
  seeded := sound.seeded
  published := by
    have published := sound.published
    rwa [stored] at published
  configured := by
    intro sessionId entry found kind
    refine (sound.configured sessionId entry found kind).imp_right ?_
    intro owes
    rw [stored] at owes
    exact ⟨owes.1, owes.2, AList.mem_keys.mpr (Table.mem_of_lookup found)⟩

theorem visit_sound (state : WhepState) (broadcast visited : String) (update : MediaUpdate) (due : List String)
    (sound : Sound state) (walking : state.publishing = .walking broadcast update due) :
    Sound { state with
      sessions := Table.modify visited (fun entry => entry.deliver broadcast update) state.sessions
      publishing := .walking broadcast update (due.filter fun other => other ≠ visited) } where
  anchored := sound.anchored
  seeded := sound.seeded
  published := by
    have published := sound.published
    rwa [walking] at published
  configured := by
    intro sessionId entry found kind
    rw [Table.lookup_modify] at found
    have published := sound.published
    have configured := sound.configured
    rw [walking] at published configured
    split at found
    · obtain ⟨before, was, rfl⟩ := Option.map_eq_some_iff.mp found
      have earlier := configured visited before was kind
      rw [SessionEntry.deliver]
      split
      · rename_i here
        left
        rw [newest_cons]
        split
        · rename_i own
          rw [here]
          exact (published kind own).symm
        · rename_i other
          exact earlier.resolve_right fun owes => other owes.2.1
      · rename_i elsewhere
        exact .inl (earlier.resolve_right fun owes => elsewhere owes.1.symm)
    · rename_i other
      refine (configured sessionId entry found kind).imp_right ?_
      rintro ⟨here, own, pending⟩
      exact ⟨here, own, List.mem_filter.mpr ⟨pending, by simpa using other⟩⟩

theorem enter_stored (caches : WhepCaches) (publishing : Publishing) (sessionId : String) (ahead : Bool)
    (stored : publishing.Stored caches) : (publishing.enter sessionId ahead).Stored caches := by
  cases publishing <;> exact stored

theorem leave_stored (caches : WhepCaches) (publishing : Publishing) (sessionId : String)
    (stored : publishing.Stored caches) : (publishing.leave sessionId).Stored caches := by
  cases publishing <;> exact stored

theorem enter_owes (publishing : Publishing) (sessionId other broadcast : String) (kind : CacheKind) (ahead : Bool)
    (apart : other ≠ sessionId) (owes : publishing.owes other broadcast kind) :
    (publishing.enter sessionId ahead).owes other broadcast kind := by
  cases publishing with
  | idle => exact owes
  | storing _ _ => exact owes
  | stored _ _ => exact owes
  | walking _ _ due =>
      refine ⟨owes.1, owes.2.1, ?_⟩
      split
      · exact List.mem_cons_of_mem sessionId owes.2.2
      · exact List.mem_filter.mpr ⟨owes.2.2, by simpa using apart⟩

theorem leave_owes (publishing : Publishing) (sessionId other broadcast : String) (kind : CacheKind)
    (apart : other ≠ sessionId) (owes : publishing.owes other broadcast kind) :
    (publishing.leave sessionId).owes other broadcast kind := by
  cases publishing with
  | idle => exact owes
  | storing _ _ => exact owes
  | stored _ _ => exact owes
  | walking _ _ due => exact ⟨owes.1, owes.2.1, List.mem_filter.mpr ⟨owes.2.2, by simpa using apart⟩⟩

theorem reaches_owes (publishing : Publishing) (sessionId broadcast : String) (kind : CacheKind) (ahead : Bool)
    (reaches : publishing.reaches broadcast kind ahead = true) :
    (publishing.enter sessionId ahead).owes sessionId broadcast kind := by
  cases publishing with
  | idle => cases reaches
  | storing _ _ => cases reaches
  | stored other update =>
      simp only [Publishing.reaches, Bool.and_eq_true, beq_iff_eq] at reaches
      exact reaches
  | walking other update due =>
      simp only [Publishing.reaches, Bool.and_eq_true, beq_iff_eq] at reaches
      obtain ⟨⟨here, own⟩, enters⟩ := reaches
      refine ⟨here, own, ?_⟩
      rw [if_pos enters]
      exact List.mem_cons_self

theorem offers_sound (state : WhepState) (index : Nat) (offer : Offer) (sound : Sound state) (anchored : offer.Anchored) :
    Sound { state with offers := state.offers.set index offer } where
  anchored := sound.anchored
  seeded := by
    intro other member
    rcases List.mem_or_eq_of_mem_set member with before | rfl
    · exact sound.seeded other before
    · exact anchored
  published := sound.published
  configured := sound.configured

theorem insert_sound (state : WhepState) (index : Nat) (broadcast sessionId : String) (seeds : Seeds) (ahead : Bool)
    (sound : Sound state) (found : state.offers[index]? = some (.inserting broadcast seeds))
    (upToDate : (Offer.inserting broadcast seeds).UpToDate state ahead) :
    Sound { state with
      sessions := state.sessions.insert sessionId ⟨broadcast, seeds.replayed⟩
      publishing := state.publishing.enter sessionId ahead
      offers := state.offers.set index (.accepted sessionId) } where
  anchored := sound.anchored
  seeded := (offers_sound state index (.accepted sessionId) sound trivial).seeded
  published := enter_stored state.caches state.publishing sessionId ahead sound.published
  configured := by
    have anchored : seeds.Anchored := sound.seeded _ (List.mem_of_getElem? found)
    intro other entry registered kind
    rcases Table.insert_cases registered with ⟨rfl, rfl⟩ | ⟨apart, before⟩
    · rw [newest_replayed seeds anchored kind]
      exact (upToDate kind).imp_right (reaches_owes state.publishing other broadcast kind ahead)
    · exact (sound.configured other entry before kind).imp_right
        (enter_owes state.publishing sessionId other entry.broadcast kind ahead apart)

theorem terminate_sound (state : WhepState) (sessionId : String) (sound : Sound state) :
    Sound { state with
      sessions := state.sessions.erase sessionId
      publishing := state.publishing.leave sessionId } where
  anchored := sound.anchored
  seeded := sound.seeded
  published := leave_stored state.caches state.publishing sessionId sound.published
  configured := by
    intro other entry registered kind
    obtain ⟨apart, before⟩ := Table.erase_cases registered
    exact (sound.configured other entry before kind).imp_right
      (leave_owes state.publishing sessionId other entry.broadcast kind apart)

theorem advance_sound (supportsAudioCodec : MediaCodec → Bool) (state : WhepState) (index : Nat) (passes : Bool)
    (sessionId : String) (ahead : Bool) (offer : Offer) (sound : Sound state)
    (found : state.offers[index]? = some offer) (upToDate : offer.UpToDate state ahead) :
    Sound (state.advance supportsAudioCodec index passes sessionId ahead offer) := by
  cases offer with
  | gating broadcast =>
      refine offers_sound state index _ sound ?_
      split <;> trivial
  | creating broadcast =>
      refine offers_sound state index _ sound ?_
      split <;> trivial
  | readingAudioConfig broadcast => exact offers_sound state index _ sound trivial
  | readingParamSets broadcast audioConfig => exact offers_sound state index _ sound trivial
  | readingKeyframe broadcast audioConfig videoParamSets =>
      exact offers_sound state index _ sound (sound.anchored broadcast)
  | inserting broadcast seeds => exact insert_sound state index broadcast sessionId seeds ahead sound found upToDate
  | rejected => exact sound
  | accepted sessionId => exact sound

theorem call_sound (state : WhepState) (broadcast : String) (update : MediaUpdate) (sound : Sound state)
    (idle : state.publishing = .idle) : Sound { state with publishing := .storing broadcast update } where
  anchored := sound.anchored
  seeded := sound.seeded
  published := trivial
  configured := by
    have configured := sound.configured
    rwa [idle] at configured

theorem finish_sound (state : WhepState) (broadcast : String) (update : MediaUpdate) (sound : Sound state)
    (walking : state.publishing = .walking broadcast update []) : Sound { state with publishing := .idle } where
  anchored := sound.anchored
  seeded := sound.seeded
  published := trivial
  configured := by
    intro sessionId entry found kind
    refine (sound.configured sessionId entry found kind).imp_right ?_
    intro owes
    rw [walking] at owes
    exact absurd owes.2.2 List.not_mem_nil

theorem offer_sound (state : WhepState) (broadcast : String) (sound : Sound state) :
    Sound { state with offers := state.offers ++ [.gating broadcast] } where
  anchored := sound.anchored
  seeded := by
    intro offer member
    rcases List.mem_append.mp member with before | new
    · exact sound.seeded offer before
    · rw [List.mem_singleton.mp new]
      trivial
  published := sound.published
  configured := sound.configured

theorem step_sound (supportsAudioCodec : MediaCodec → Bool) (state : WhepState) (op : WhepOp) (sound : Sound state)
    (upToDate : UpToDate state op) : Sound (state.step supportsAudioCodec op) := by
  cases op with
  | call broadcast update =>
      rw [WhepState.step]
      split
      · rename_i idle
        exact call_sound state broadcast update sound idle
      all_goals exact sound
  | store =>
      rw [WhepState.step]
      split
      · rename_i broadcast update calling
        exact store_sound state broadcast update sound calling
      all_goals exact sound
  | iterate =>
      rw [WhepState.step]
      split
      · rename_i broadcast update stored
        exact iterate_sound state broadcast update sound stored
      all_goals exact sound
  | visit sessionId =>
      rw [WhepState.step]
      split
      · rename_i broadcast update due walking
        split
        · exact visit_sound state broadcast sessionId update due sound walking
        · exact sound
      all_goals exact sound
  | finish =>
      rw [WhepState.step]
      split
      · rename_i broadcast update walking
        exact finish_sound state broadcast update sound walking
      all_goals exact sound
  | offer broadcast => exact offer_sound state broadcast sound
  | advance index passes sessionId ahead =>
      rw [WhepState.step]
      cases found : state.offers[index]? with
      | none => exact sound
      | some offer =>
          exact advance_sound supportsAudioCodec state index passes sessionId ahead offer sound found (upToDate offer found)
  | terminate sessionId => exact terminate_sound state sessionId sound

theorem joined_sessions_configured (supportsAudioCodec : MediaCodec → Bool) (ops : List WhepOp)
    (upToDate : Machine.AllSteps UpToDate (WhepState.step supportsAudioCodec) .start ops)
    (quiet : Quiet (Machine.run (WhepState.step supportsAudioCodec) .start ops)) :
    Configured (Machine.run (WhepState.step supportsAudioCodec) .start ops) := by
  have sound := Machine.invariant_of_guarded (step_sound supportsAudioCodec) _ ops start_sound upToDate
  intro sessionId entry found kind
  refine (sound.configured sessionId entry found kind).resolve_right ?_
  intro owes
  rw [quiet.1] at owes
  exact owes

def opusOnly : MediaCodec → Bool
  | .h264 => false
  | .h265 => false
  | .aac => false
  | .opus => true

def opusConfig : MediaUpdate := .audioConfig "1.mp4" .opus [1]

def readsAll : List WhepOp := .offer "live/demo" :: List.replicate 5 (.advance 0 true "" false)

-- The config is stored behind the back of an offer that enters before the walk.
def joinedInTime : List WhepOp :=
  readsAll ++ [.call "live/demo" opusConfig, .store, .advance 0 true "s1" false, .iterate, .visit "s1", .finish]

theorem session_in_time_configured : Configured (Machine.run (WhepState.step opusOnly) .start joinedInTime) :=
  joined_sessions_configured opusOnly joinedInTime (by decide) (by decide)

def joinedTooLate : List WhepOp :=
  readsAll ++ [.call "live/demo" opusConfig, .store, .iterate, .finish, .advance 0 true "s1" false]

theorem late_session_unconfigured :
    Quiet (Machine.run (WhepState.step opusOnly) .start joinedTooLate) ∧
      ¬ Configured (Machine.run (WhepState.step opusOnly) .start joinedTooLate) := by
  refine ⟨by decide, fun configured => ?_⟩
  have delivered := configured "s1" ⟨"live/demo", []⟩ (by decide) .audioConfig
  exact absurd delivered (by decide)

end Lvqr.Whep
