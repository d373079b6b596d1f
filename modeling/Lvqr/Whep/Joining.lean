import Lvqr.Lib.Machine
import Lvqr.Whep.Caches

set_option autoImplicit false

-- Subscribers that join while a publisher is at work, step by step: an offer reads
-- three caches and enters the session map afterwards, the publisher writes a cache
-- and then walks the map.
namespace Lvqr.Whep

open Whip (MediaCodec)

-- `delivered` is what the handle has been called with, the last call first.
structure SessionEntry where
  broadcast : String
  delivered : List MediaUpdate
deriving DecidableEq, Repr

-- The one call the publisher is in. `due` are the sessions the walk has ahead.
inductive Publishing where
  | idle
  | storing (broadcast : String) (update : MediaUpdate)
  | stored (broadcast : String) (update : MediaUpdate)
  | walking (broadcast : String) (update : MediaUpdate) (due : List String)
deriving DecidableEq, Repr

inductive Offer where
  | gating (broadcast : String)
  | creating (broadcast : String)
  | readingAudioConfig (broadcast : String)
  | readingParamSets (broadcast : String) (audioConfig : Option AudioConfigSnapshot)
  | readingKeyframe (broadcast : String) (audioConfig : Option AudioConfigSnapshot)
      (videoParamSets : Option VideoParamSetsSnapshot)
  | inserting (broadcast : String) (seeds : Seeds)
  | rejected
  | accepted (sessionId : String)
deriving DecidableEq, Repr

structure WhepState where
  caches : WhepCaches
  sessions : Table String SessionEntry
  publishing : Publishing
  offers : List Offer

-- The environment decides whether an offer passes the checks and the answerer
-- around the gate, under which id a session enters the map, and whether that place
-- lies ahead of a walk.
inductive WhepOp where
  | call (broadcast : String) (update : MediaUpdate)
  | store
  | iterate
  | visit (sessionId : String)
  | finish
  | offer (broadcast : String)
  | advance (index : Nat) (passes : Bool) (sessionId : String) (ahead : Bool)
  | terminate (sessionId : String)
deriving DecidableEq, Repr

def SessionEntry.deliver (entry : SessionEntry) (broadcast : String) (update : MediaUpdate) : SessionEntry :=
  if entry.broadcast = broadcast then { entry with delivered := update :: entry.delivered } else entry

namespace Publishing

-- The place of a session that enters the map, or leaves it, in a walk.
def enter (sessionId : String) (ahead : Bool) : Publishing → Publishing
  | idle => idle
  | storing broadcast update => storing broadcast update
  | stored broadcast update => stored broadcast update
  | walking broadcast update due =>
      walking broadcast update (if ahead then sessionId :: due else due.filter fun other => other ≠ sessionId)

def leave (sessionId : String) : Publishing → Publishing
  | idle => idle
  | storing broadcast update => storing broadcast update
  | stored broadcast update => stored broadcast update
  | walking broadcast update due => walking broadcast update (due.filter fun other => other ≠ sessionId)

end Publishing

namespace WhepState

def start : WhepState := ⟨.empty, ∅, .idle, []⟩

def advance (supportsAudioCodec : MediaCodec → Bool) (state : WhepState) (index : Nat) (passes : Bool)
    (sessionId : String) (ahead : Bool) : Offer → WhepState
  | .gating broadcast =>
      let next := if passes && state.caches.admits supportsAudioCodec broadcast then Offer.creating broadcast else .rejected
      { state with offers := state.offers.set index next }
  | .creating broadcast =>
      { state with offers := state.offers.set index (if passes then .readingAudioConfig broadcast else .rejected) }
  | .readingAudioConfig broadcast =>
      { state with
        offers := state.offers.set index (.readingParamSets broadcast (state.caches.cachedAudioConfig broadcast)) }
  | .readingParamSets broadcast audioConfig =>
      { state with
        offers := state.offers.set index
          (.readingKeyframe broadcast audioConfig (state.caches.cachedVideoParamSets broadcast)) }
  | .readingKeyframe broadcast audioConfig videoParamSets =>
      { state with
        offers := state.offers.set index
          (.inserting broadcast ⟨audioConfig, videoParamSets, state.caches.cachedVideoKeyframe broadcast⟩) }
  | .inserting broadcast seeds =>
      { state with
        sessions := state.sessions.insert sessionId ⟨broadcast, seeds.replayed⟩
        publishing := state.publishing.enter sessionId ahead
        offers := state.offers.set index (.accepted sessionId) }
  | .rejected => state
  | .accepted _ => state

def step (supportsAudioCodec : MediaCodec → Bool) (state : WhepState) : WhepOp → WhepState
  | .call broadcast update =>
      match state.publishing with
      | .idle => { state with publishing := .storing broadcast update }
      | .storing _ _ => state
      | .stored _ _ => state
      | .walking _ _ _ => state
  | .store =>
      match state.publishing with
      | .storing broadcast update =>
          { state with caches := state.caches.store broadcast update, publishing := .stored broadcast update }
      | .idle => state
      | .stored _ _ => state
      | .walking _ _ _ => state
  | .iterate =>
      match state.publishing with
      | .stored broadcast update => { state with publishing := .walking broadcast update state.sessions.keys }
      | .idle => state
      | .storing _ _ => state
      | .walking _ _ _ => state
  | .visit sessionId =>
      match state.publishing with
      | .walking broadcast update due =>
          if sessionId ∈ due then
            { state with
              sessions := Table.modify sessionId (fun entry => entry.deliver broadcast update) state.sessions
              publishing := .walking broadcast update (due.filter fun other => other ≠ sessionId) }
          else state
      | .idle => state
      | .storing _ _ => state
      | .stored _ _ => state
  | .finish =>
      match state.publishing with
      | .walking _ _ [] => { state with publishing := .idle }
      | .walking _ _ (_ :: _) => state
      | .idle => state
      | .storing _ _ => state
      | .stored _ _ => state
  | .offer broadcast => { state with offers := state.offers ++ [.gating broadcast] }
  | .advance index passes sessionId ahead =>
      match state.offers[index]? with
      | some offer => state.advance supportsAudioCodec index passes sessionId ahead offer
      | none => state
  | .terminate sessionId =>
      { state with
        sessions := state.sessions.erase sessionId
        publishing := state.publishing.leave sessionId }

end WhepState

namespace Offer

def done : Offer → Bool
  | gating _ => false
  | creating _ => false
  | readingAudioConfig _ => false
  | readingParamSets _ _ => false
  | readingKeyframe _ _ _ => false
  | inserting _ _ => false
  | rejected => true
  | accepted _ => true

end Offer

def Quiet (state : WhepState) : Prop := state.publishing = .idle ∧ ∀ offer ∈ state.offers, offer.done = true

instance (state : WhepState) : Decidable (Quiet state) :=
  inferInstanceAs (Decidable (state.publishing = .idle ∧ ∀ offer ∈ state.offers, offer.done = true))

-- Every registered session has of each kind what is cached.
def Configured (state : WhepState) : Prop :=
  ∀ (sessionId : String) (entry : SessionEntry), state.sessions.lookup sessionId = some entry →
    ∀ kind : CacheKind, newest kind entry.delivered = state.caches.cached entry.broadcast kind

namespace Publishing

-- The call in progress brings an update of that kind to whoever enters there now.
def reaches (broadcast : String) (kind : CacheKind) (ahead : Bool) : Publishing → Bool
  | idle => false
  | storing _ _ => false
  | stored other update => other == broadcast && update.kind == some kind
  | walking other update _ => other == broadcast && update.kind == some kind && ahead

-- The call in progress brings an update of that kind to the session yet.
def owes (sessionId broadcast : String) (kind : CacheKind) : Publishing → Prop
  | idle => False
  | storing _ _ => False
  | stored other update => other = broadcast ∧ update.kind = some kind
  | walking other update due => other = broadcast ∧ update.kind = some kind ∧ sessionId ∈ due

end Publishing

-- A session enters the map while each cache holds what was read from it, unless
-- the call that has overwritten it is still to come by.
def Offer.UpToDate (state : WhepState) (ahead : Bool) : Offer → Prop
  | .gating _ => True
  | .creating _ => True
  | .readingAudioConfig _ => True
  | .readingParamSets _ _ => True
  | .readingKeyframe _ _ _ => True
  | .inserting broadcast seeds => ∀ kind : CacheKind,
      seeds.read kind = state.caches.cached broadcast kind ∨ state.publishing.reaches broadcast kind ahead = true
  | .rejected => True
  | .accepted _ => True

def UpToDate (state : WhepState) : WhepOp → Prop
  | .call _ _ => True
  | .store => True
  | .iterate => True
  | .visit _ => True
  | .finish => True
  | .offer _ => True
  | .advance index _ _ ahead => ∀ offer ∈ state.offers[index]?, offer.UpToDate state ahead
  | .terminate _ => True

instance (state : WhepState) (ahead : Bool) : DecidablePred (Offer.UpToDate state ahead)
  | .gating _ => inferInstanceAs (Decidable True)
  | .creating _ => inferInstanceAs (Decidable True)
  | .readingAudioConfig _ => inferInstanceAs (Decidable True)
  | .readingParamSets _ _ => inferInstanceAs (Decidable True)
  | .readingKeyframe _ _ _ => inferInstanceAs (Decidable True)
  | .inserting broadcast seeds => inferInstanceAs (Decidable (∀ kind : CacheKind,
      seeds.read kind = state.caches.cached broadcast kind ∨ state.publishing.reaches broadcast kind ahead = true))
  | .rejected => inferInstanceAs (Decidable True)
  | .accepted _ => inferInstanceAs (Decidable True)

instance (state : WhepState) : DecidablePred (UpToDate state)
  | .call _ _ => inferInstanceAs (Decidable True)
  | .store => inferInstanceAs (Decidable True)
  | .iterate => inferInstanceAs (Decidable True)
  | .visit _ => inferInstanceAs (Decidable True)
  | .finish => inferInstanceAs (Decidable True)
  | .offer _ => inferInstanceAs (Decidable True)
  | .advance index _ _ ahead => inferInstanceAs (Decidable (∀ offer ∈ state.offers[index]?, offer.UpToDate state ahead))
  | .terminate _ => inferInstanceAs (Decidable True)

end Lvqr.Whep
