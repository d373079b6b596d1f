import Lvqr.Ingest.Sessions
import Lvqr.Rtmp.Bridge
import Lvqr.Rtmp.Connection

set_option autoImplicit false

-- What the sessions of all ingests leave in the fragment registry they share.
namespace Lvqr.Ingest

open Rtmp (RegistryKey Exit)

def SCTE35_TRACK : String := "scte35"

-- The drains hold receivers only, so their stream ends where the registry's handle,
-- the last one, is dropped.
structure Broadcaster where
  key : RegistryKey
  removedRuns : Nat
  held : Bool
deriving DecidableEq, Repr

inductive Stage where
  | running
  | unpublishing (track : String) (rest : List String)
  | ended
deriving DecidableEq, Repr

structure Publishing where
  protocol : Protocol
  broadcast : String
  stage : Stage
deriving DecidableEq, Repr

-- How a publication ends: the client finishes it, or its connection exits while it is
-- the current one of the connection or an earlier one.
inductive Ending where
  | finished
  | exited (exit : Exit) (current : Bool)
deriving DecidableEq, Repr

-- `streams` are the names the RTMP bridge has a stream state for.
structure Publications where
  removedCallbacks : Nat
  streams : Table String Unit
  registry : Table RegistryKey Nat
  broadcasters : List Broadcaster
  publications : List Publishing

inductive PublicationOp where
  | publish (protocol : Protocol) (broadcast : String) (allowed : Bool)
  | media (id : Nat) (track : String)
  | leave (id : Nat) (ending : Ending)
  | remove (id : Nat)
deriving DecidableEq, Repr

def Protocol.tracks : Protocol → List String
  | .rtmp | .srt => ["0.mp4", "1.mp4", SCTE35_TRACK]
  | .whip | .rtsp => ["0.mp4", "1.mp4"]

def Ending.unpublishes : Ending → Bool
  | .finished => true
  | .exited exit current => exit.unpublishes && current

def Stage.after : List String → Stage
  | [] => .ended
  | track :: rest => .unpublishing track rest

namespace Publications

def new (removedCallbacks : Nat) : Publications := ⟨removedCallbacks, ∅, ∅, [], []⟩

def setStage (state : Publications) (id : Nat) (publication : Publishing) (stage : Stage) : Publications :=
  { state with publications := state.publications.set id { publication with stage := stage } }

def getOrCreate (state : Publications) (key : RegistryKey) : Publications :=
  match state.registry.lookup key with
  | some _ => state
  | none =>
      { state with
        registry := state.registry.insert key state.broadcasters.length
        broadcasters := state.broadcasters ++ [⟨key, 0, true⟩] }

def remove (state : Publications) (key : RegistryKey) : Publications :=
  match state.registry.lookup key with
  | none => state
  | some id =>
      { state with
        registry := state.registry.erase key
        broadcasters := state.broadcasters.modify id fun broadcaster =>
          { broadcaster with removedRuns := broadcaster.removedRuns + state.removedCallbacks, held := false } }

-- Only the RTMP bridge's unpublish callback removes entries, and only where it finds
-- a stream state of the name.
def sweeps (state : Publications) (publication : Publishing) (ending : Ending) : Bool :=
  publication.protocol == .rtmp && ending.unpublishes && (state.streams.lookup publication.broadcast).isSome

-- RTMP media goes through the stream state, a cue past it.
def publishes (state : Publications) (publication : Publishing) (track : String) : Bool :=
  publication.protocol.tracks.contains track &&
    (publication.protocol != .rtmp || track == SCTE35_TRACK || (state.streams.lookup publication.broadcast).isSome)

def step (state : Publications) : PublicationOp → Publications
  | .publish protocol broadcast allowed =>
      { state with
        streams := if protocol = .rtmp ∧ allowed then state.streams.insert broadcast () else state.streams
        publications := state.publications ++ [⟨protocol, broadcast, .running⟩] }
  | .media id track =>
      match state.publications[id]? with
      | some publication =>
          if publication.stage = .running ∧ state.publishes publication track then
            state.getOrCreate (publication.broadcast, track)
          else state
      | none => state
  | .leave id ending =>
      match state.publications[id]? with
      | some publication =>
          if publication.stage = .running then
            if state.sweeps publication ending then
              { state with streams := state.streams.erase publication.broadcast }.setStage id publication
                (.after ["0.mp4", "1.mp4"])
            else state.setStage id publication .ended
          else state
      | none => state
  | .remove id =>
      match state.publications[id]? with
      | some publication =>
          match publication.stage with
          | .unpublishing track rest => (state.remove (publication.broadcast, track)).setStage id publication (.after rest)
          | _ => state
      | none => state

def Live (state : Publications) (name : String) : Prop :=
  ∃ (id : Nat) (publication : Publishing),
    state.publications[id]? = some publication ∧ publication.broadcast = name ∧ publication.stage ≠ .ended

-- A name that nobody publishes any more has no entry left, and every broadcaster it
-- ever had has run its removed callbacks and ended the streams of its drains.
def EndsReached (state : Publications) : Prop :=
  ∀ name, ¬ state.Live name → (∀ track, state.registry.lookup (name, track) = none) ∧
    ∀ broadcaster ∈ state.broadcasters, broadcaster.key.1 = name →
      broadcaster.removedRuns = state.removedCallbacks ∧ broadcaster.held = false

def IsLast (state : Publications) (id : Nat) (name : String) : Prop :=
  ∀ other publication, state.publications[other]? = some publication → publication.broadcast = name →
    publication.stage ≠ .ended → other = id

-- Where a name's last publication ends, every track that is registered under the name
-- is the one that this step removes.
def NothingLeft (state : Publications) : PublicationOp → Prop
  | .leave id ending => ∀ publication, state.publications[id]? = some publication → publication.stage = .running →
      state.sweeps publication ending = false → state.IsLast id publication.broadcast →
        ∀ track, (publication.broadcast, track) ∉ state.registry
  | .remove id => ∀ publication track, state.publications[id]? = some publication →
      publication.stage = .unpublishing track [] → state.IsLast id publication.broadcast →
        ∀ other, (publication.broadcast, other) ∈ state.registry → other = track
  | _ => True

-- A broadcaster is registered and untouched, or it has ended.
structure Consistent (state : Publications) : Prop where
  registered : ∀ key id, state.registry.lookup key = some id → state.broadcasters[id]? = some ⟨key, 0, true⟩
  dropped : ∀ (id : Nat) (broadcaster : Broadcaster), state.broadcasters[id]? = some broadcaster →
    state.registry.lookup broadcaster.key = some id ∨
      broadcaster.removedRuns = state.removedCallbacks ∧ broadcaster.held = false

def Cleared (state : Publications) : Prop :=
  ∀ name, ¬ state.Live name → ∀ track, state.registry.lookup (name, track) = none

theorem ends_reached_iff (state : Publications) (consistent : state.Consistent) :
    state.EndsReached ↔ state.Cleared := by
  constructor
  · intro reached name silent
    exact (reached name silent).1
  · intro cleared name silent
    refine ⟨cleared name silent, ?_⟩
    intro broadcaster member ofName
    obtain ⟨id, found⟩ := List.mem_iff_getElem?.mp member
    rcases consistent.dropped id broadcaster found with entry | ended
    · have absent := cleared name silent broadcaster.key.2
      rw [← ofName, entry] at absent
      cases absent
    · exact ended

theorem get_or_create_consistent (state : Publications) (key : RegistryKey) (consistent : state.Consistent) :
    (state.getOrCreate key).Consistent := by
  rw [getOrCreate]
  cases found : state.registry.lookup key with
  | some id => exact consistent
  | none =>
      refine ⟨?_, ?_⟩
      · intro other id entry
        rcases Table.insert_cases entry with ⟨rfl, rfl⟩ | ⟨_, before⟩
        · simp
        · have old := consistent.registered other id before
          have inRange := (List.getElem?_eq_some_iff.mp old).1
          rw [List.getElem?_append_left inRange]
          exact old
      · intro id broadcaster present
        rw [Table.lookup_insert_eq]
        by_cases inRange : id < state.broadcasters.length
        · rw [List.getElem?_append_left inRange] at present
          rcases consistent.dropped id broadcaster present with entry | ended
          · left
            rw [if_neg]
            · exact entry
            · intro same
              rw [same, found] at entry
              cases entry
          · exact .inr ended
        · left
          rw [List.getElem?_append_right (Nat.le_of_not_lt inRange)] at present
          obtain ⟨atEnd, fresh⟩ := List.getElem?_eq_some_iff.mp present
          have isEnd : id = state.broadcasters.length := by
            simp only [List.length_singleton] at atEnd
            omega
          subst isEnd
          simp at fresh
          rw [← fresh, if_pos rfl]

theorem remove_consistent (state : Publications) (key : RegistryKey) (consistent : state.Consistent) :
    (state.remove key).Consistent := by
  rw [remove]
  cases found : state.registry.lookup key with
  | none => exact consistent
  | some removed =>
      have atRemoved := consistent.registered key removed found
      refine ⟨?_, ?_⟩
      · intro other id entry
        obtain ⟨different, before⟩ := Table.erase_cases entry
        have old := consistent.registered other id before
        have elsewhere : removed ≠ id := by
          intro same
          rw [same, old] at atRemoved
          exact different (congrArg Broadcaster.key (Option.some.inj atRemoved))
        simp [elsewhere, old]
      · intro id broadcaster present
        rw [List.getElem?_modify] at present
        by_cases here : removed = id
        · right
          rw [here] at atRemoved
          simp [here, atRemoved] at present
          rw [← present]
          exact ⟨rfl, rfl⟩
        · simp only [if_neg here, id_map'] at present
          rcases consistent.dropped id broadcaster present with entry | ended
          · left
            rw [Table.lookup_erase_eq, if_neg]
            · exact entry
            · intro same
              rw [same, found] at entry
              exact here (Option.some.inj entry)
          · exact .inr ended

theorem step_consistent (state : Publications) (op : PublicationOp) (consistent : state.Consistent) :
    (state.step op).Consistent := by
  cases op with
  | publish protocol broadcast allowed => exact ⟨consistent.registered, consistent.dropped⟩
  | media id track =>
      simp only [step]
      split
      · split
        · exact get_or_create_consistent state _ consistent
        · exact consistent
      · exact consistent
  | leave id ending =>
      simp only [step]
      split
      · split
        · split
          · exact ⟨consistent.registered, consistent.dropped⟩
          · exact ⟨consistent.registered, consistent.dropped⟩
        · exact consistent
      · exact consistent
  | remove id =>
      simp only [step]
      split
      · rename_i publication _
        split
        · rename_i track rest _
          have removed := remove_consistent state (publication.broadcast, track) consistent
          exact ⟨removed.registered, removed.dropped⟩
        · exact consistent
      · exact consistent

theorem set_stage_lookup (state : Publications) (id other : Nat) (publication : Publishing) (stage : Stage)
    (found : state.publications[id]? = some publication) : (state.setStage id publication stage).publications[other]? =
      if id = other then some { publication with stage := stage } else state.publications[other]? := by
  have inRange := (List.getElem?_eq_some_iff.mp found).1
  by_cases here : id = other
  · subst here
    rw [if_pos rfl]
    exact List.getElem?_set_self inRange
  · rw [if_neg here]
    exact List.getElem?_set_ne here

theorem live_other (state : Publications) (id : Nat) (publication : Publishing) (stage : Stage) (name : String)
    (elsewhere : publication.broadcast ≠ name) (found : state.publications[id]? = some publication) :
    (state.setStage id publication stage).Live name ↔ state.Live name := by
  refine exists_congr fun other => ?_
  rw [set_stage_lookup state id other publication stage found]
  by_cases here : id = other
  · subst here
    simp [found, elsewhere]
  · rw [if_neg here]

theorem live_kept (state : Publications) (id : Nat) (publication : Publishing) (stage : Stage) (name : String)
    (found : state.publications[id]? = some publication) (before : publication.stage ≠ .ended)
    (after : stage ≠ .ended) : (state.setStage id publication stage).Live name ↔ state.Live name := by
  refine exists_congr fun other => ?_
  rw [set_stage_lookup state id other publication stage found]
  by_cases here : id = other
  · subst here
    simp [found, before, after]
  · rw [if_neg here]

theorem live_last (state : Publications) (id : Nat) (publication : Publishing)
    (found : state.publications[id]? = some publication) :
    ¬ (state.setStage id publication .ended).Live publication.broadcast ↔ state.IsLast id publication.broadcast := by
  have lookup := fun other => set_stage_lookup state id other publication .ended found
  constructor
  · intro silent other otherPublication present sameName running
    by_contra different
    refine silent ⟨other, otherPublication, ?_, sameName, running⟩
    rw [lookup, if_neg (Ne.symm different)]
    exact present
  · rintro isLast ⟨other, otherPublication, present, sameName, running⟩
    rw [lookup] at present
    by_cases here : id = other
    · rw [if_pos here] at present
      exact running (Option.some.inj present ▸ rfl)
    · rw [if_neg here] at present
      exact here (isLast other otherPublication present sameName running).symm

theorem remove_lookup (state : Publications) (key other : RegistryKey) :
    (state.remove key).registry.lookup other = if other = key then none else state.registry.lookup other := by
  rw [remove]
  cases found : state.registry.lookup key with
  | none =>
      show state.registry.lookup other = _
      by_cases same : other = key
      · rw [if_pos same, same, found]
      · rw [if_neg same]
  | some id => exact Table.lookup_erase_eq state.registry key other

theorem remove_publications (state : Publications) (key : RegistryKey) :
    (state.remove key).publications = state.publications := by
  rw [remove]
  split <;> rfl

theorem remove_live (state : Publications) (key : RegistryKey) (name : String) :
    (state.remove key).Live name ↔ state.Live name := by
  simp only [Live, remove_publications]

theorem get_or_create_live (state : Publications) (key : RegistryKey) (name : String) :
    (state.getOrCreate key).Live name ↔ state.Live name := by
  rw [getOrCreate]
  split <;> exact Iff.rfl

theorem get_or_create_lookup (state : Publications) (key other : RegistryKey) (different : other ≠ key) :
    (state.getOrCreate key).registry.lookup other = state.registry.lookup other := by
  rw [getOrCreate]
  split
  · rfl
  · rw [Table.lookup_insert_eq, if_neg different]

theorem publish_cleared (state : Publications) (protocol : Protocol) (broadcast : String) (allowed : Bool)
    (cleared : state.Cleared) : (state.step (.publish protocol broadcast allowed)).Cleared := by
  intro name silent
  refine cleared name fun ⟨id, publication, found, ofName, running⟩ => silent ⟨id, publication, ?_, ofName, running⟩
  show (state.publications ++ [_])[id]? = some publication
  rw [List.getElem?_append_left (List.getElem?_eq_some_iff.mp found).1]
  exact found

theorem media_cleared (state : Publications) (id : Nat) (track : String) (cleared : state.Cleared) :
    (state.step (.media id track)).Cleared := by
  simp only [step]
  split
  · rename_i publication found
    split
    · rename_i published
      intro name silent other
      rw [get_or_create_live] at silent
      rw [get_or_create_lookup]
      · exact cleared name silent other
      · intro same
        refine silent ⟨id, publication, found, (congrArg Prod.fst same).symm, ?_⟩
        rw [published.1]
        exact Stage.noConfusion
    · exact cleared
  · exact cleared

-- A step that keeps a publication going clears what was clear; one that ends it has
-- to clear its name where it was the last.
theorem ended_cleared_iff (before after : Publications) (id : Nat) (publication : Publishing)
    (found : before.publications[id]? = some publication) (same : after.publications = before.publications)
    (elsewhere : ∀ name track, name ≠ publication.broadcast →
      after.registry.lookup (name, track) = before.registry.lookup (name, track))
    (cleared : before.Cleared) : (after.setStage id publication .ended).Cleared ↔
      (before.IsLast id publication.broadcast → ∀ track, after.registry.lookup (publication.broadcast, track) = none) := by
  have foundAfter : after.publications[id]? = some publication := same ▸ found
  have lastAfter : after.IsLast id publication.broadcast ↔ before.IsLast id publication.broadcast := by
    simp only [IsLast, same]
  constructor
  · intro clearedAfter isLast
    exact clearedAfter _ ((live_last after id publication foundAfter).mpr (lastAfter.mpr isLast))
  · intro whenLast name silent track
    by_cases here : publication.broadcast = name
    · subst here
      exact whenLast (lastAfter.mp ((live_last after id publication foundAfter).mp silent)) track
    · rw [live_other after id publication .ended name here foundAfter] at silent
      have silentBefore : ¬ before.Live name := by simpa only [Live, same] using silent
      show after.registry.lookup (name, track) = none
      rw [elsewhere name track (Ne.symm here)]
      exact cleared name silentBefore track

theorem leave_cleared_iff (state : Publications) (id : Nat) (ending : Ending) (cleared : state.Cleared) :
    (state.step (.leave id ending)).Cleared ↔ state.NothingLeft (.leave id ending) := by
  simp only [step, NothingLeft]
  cases found : state.publications[id]? with
  | none => simp [cleared]
  | some publication =>
      by_cases running : publication.stage = .running
      · have notEnded : publication.stage ≠ .ended := by
          rw [running]
          exact Stage.noConfusion
        cases sweeping : state.sweeps publication ending with
        | true =>
            simp only [running, sweeping, if_true, Option.some.injEq]
            constructor
            · intro _ other same _ sweepsNot
              subst same
              rw [sweeping] at sweepsNot
              cases sweepsNot
            · intro _ name silent
              let swept : Publications := { state with streams := state.streams.erase publication.broadcast }
              have unpublishing : Stage.after ["0.mp4", "1.mp4"] ≠ .ended := Stage.noConfusion
              exact cleared name (mt (live_kept swept id publication _ name found notEnded unpublishing).mpr silent)
        | false =>
            have ended := ended_cleared_iff state state id publication found rfl (fun _ _ _ => rfl) cleared
            simp only [running, sweeping, if_true, Option.some.injEq, Bool.false_eq_true, if_false]
            rw [ended]
            constructor
            · intro whenLast other same _ _ isLast track
              subst same
              exact AList.lookup_eq_none.mp (whenLast isLast track)
            · intro whenLast isLast track
              exact AList.lookup_eq_none.mpr (whenLast publication rfl running sweeping isLast track)
      · simp only [running, if_false, Option.some.injEq]
        refine ⟨fun _ other same isRunning => ?_, fun _ => cleared⟩
        exact absurd (same ▸ isRunning) running

-- A publication with another track to unpublish is live as before.
theorem removing_cleared (state : Publications) (id : Nat) (publication : Publishing) (track next : String)
    (rest : List String) (found : state.publications[id]? = some publication)
    (going : publication.stage ≠ .ended) (cleared : state.Cleared) :
    ((state.remove (publication.broadcast, track)).setStage id publication (.unpublishing next rest)).Cleared := by
  intro name silent other
  rw [← remove_publications state (publication.broadcast, track)] at found
  have kept := live_kept _ id publication (.unpublishing next rest) name found going Stage.noConfusion
  have silentBefore := mt kept.mpr silent
  rw [remove_live] at silentBefore
  show (state.remove (publication.broadcast, track)).registry.lookup (name, other) = none
  rw [remove_lookup]
  split
  · rfl
  · exact cleared name silentBefore other

theorem remove_cleared_iff (state : Publications) (id : Nat) (cleared : state.Cleared) :
    (state.step (.remove id)).Cleared ↔ state.NothingLeft (.remove id) := by
  simp only [step, NothingLeft]
  cases found : state.publications[id]? with
  | none => simp [cleared]
  | some publication =>
      obtain ⟨protocol, broadcast, stage⟩ := publication
      cases stage with
      | running =>
          refine iff_of_true cleared fun other track same atEnd => ?_
          cases same
          cases atEnd
      | ended =>
          refine iff_of_true cleared fun other track same atEnd => ?_
          cases same
          cases atEnd
      | unpublishing track rest =>
          have sameRest := remove_publications state (broadcast, track)
          cases rest with
          | cons next rest =>
              have after := removing_cleared state id _ track next rest found Stage.noConfusion cleared
              refine iff_of_true after fun other otherTrack same atEnd => ?_
              cases same
              cases atEnd
          | nil =>
              have others : ∀ name other, name ≠ broadcast → (state.remove (broadcast, track)).registry.lookup (name, other) =
                  state.registry.lookup (name, other) := by
                intro name other different
                rw [remove_lookup, if_neg]
                exact fun same => different (Prod.mk.inj same).1
              refine (ended_cleared_iff state (state.remove (broadcast, track)) id _ found sameRest others cleared).trans ?_
              constructor
              · intro whenLast other otherTrack same atEnd isLast third present
                cases same
                cases atEnd
                have absent := whenLast isLast third
                rw [remove_lookup] at absent
                split at absent
                · rename_i sameKey
                  exact (Prod.mk.inj sameKey).2
                · exact absurd present (AList.lookup_eq_none.mp absent)
              · intro whenLast isLast other
                rw [remove_lookup]
                split
                · rfl
                · rename_i different
                  refine AList.lookup_eq_none.mpr fun present => different ?_
                  rw [whenLast _ track rfl rfl isLast other present]

theorem step_cleared_iff (state : Publications) (op : PublicationOp) (cleared : state.Cleared) :
    (state.step op).Cleared ↔ state.NothingLeft op := by
  cases op with
  | publish protocol broadcast allowed =>
      exact iff_of_true (publish_cleared state protocol broadcast allowed cleared) trivial
  | media id track => exact iff_of_true (media_cleared state id track cleared) trivial
  | leave id ending => exact leave_cleared_iff state id ending cleared
  | remove id => exact remove_cleared_iff state id cleared

theorem step_reaches_iff (state : Publications) (op : PublicationOp) (consistent : state.Consistent)
    (reached : state.EndsReached) : (state.step op).EndsReached ↔ state.NothingLeft op := by
  rw [ends_reached_iff _ (step_consistent state op consistent)]
  exact step_cleared_iff state op ((ends_reached_iff state consistent).mp reached)

theorem new_consistent (removedCallbacks : Nat) : (new removedCallbacks).Consistent where
  registered := fun _ _ entry => by cases entry
  dropped := fun _ _ found => by cases found

theorem new_reached (removedCallbacks : Nat) : (new removedCallbacks).EndsReached :=
  fun _ _ => ⟨fun _ => rfl, fun _ member => by cases member⟩

-- Broadcast ends reach every consumer in exactly the runs in which the last publication
-- of a name is an RTMP one that removes whatever is registered under the name.
theorem broadcast_ends_reached_iff (removedCallbacks : Nat) (ops : List PublicationOp) :
    (∀ seen, seen <+: ops → (Machine.run step (new removedCallbacks) seen).EndsReached) ↔
      Machine.AllSteps NothingLeft step (new removedCallbacks) ops :=
  Machine.invariant_iff_guarded_under step_consistent step_reaches_iff (new removedCallbacks) ops
    (new_consistent removedCallbacks) (new_reached removedCallbacks)

-- An SRT session publishes video and ends; nothing ever removes its entry.
theorem srt_end_reaches_nobody : ¬ (Machine.run step (new 1)
    [.publish .srt "live/demo" true, .media 0 "0.mp4", .leave 0 (.exited .eof true)]).EndsReached := by
  intro reached
  have absent := (reached "live/demo" ?_).1 "0.mp4"
  · revert absent
    decide
  · rintro ⟨id, publication, found, _, running⟩
    have only : publication = ⟨.srt, "live/demo", .ended⟩ := by
      cases id with
      | zero => exact (Option.some.inj found).symm
      | succ id => cases found
    rw [only] at running
    exact running rfl

-- An RTMP session that finishes its broadcast leaves the entry of its cues behind.
example : (Machine.run step (new 1) [.publish .rtmp "live/demo" true, .media 0 "0.mp4", .media 0 SCTE35_TRACK,
    .leave 0 .finished, .remove 0, .remove 0]).registry.lookup ("live/demo", SCTE35_TRACK) = some 1 := by
  decide

end Publications

end Lvqr.Ingest
