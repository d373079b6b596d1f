import Lvqr.Lib.Machine
import Lvqr.Dash.Timeline

set_option autoImplicit false

-- The init segment a track serves and the segments kept beside it.
namespace Lvqr.Dash

inductive DashOp where
  | pushInit (isVideo : Bool) (bytes : Bytes) (now : Nat)
  | pushSegment (isVideo : Bool) (seq : Nat) (bytes : Bytes) (now : Nat)
deriving DecidableEq, Repr

def DashServer.apply (codecs : CodecStrings) (server : DashServer) : DashOp → DashServer
  | .pushInit isVideo bytes now => server.pushInit codecs isVideo bytes now
  | .pushSegment isVideo seq bytes now => server.pushSegment isVideo seq bytes now

def DashServer.segment (server : DashServer) (isVideo : Bool) (seq : Nat) : Option Bytes :=
  if isVideo then server.videoSegment seq else server.audioSegment seq

def DashServer.servedInit (server : DashServer) (isVideo : Bool) : Option Bytes := (server.track isVideo).init

-- `under` is ghost state: the init segment in force when a number was last pushed.
structure Dated where
  server : DashServer
  under : Bool → Nat → Option Bytes

namespace Dated

def new (config : DashConfig) : Dated := ⟨.new config, fun _ _ => none⟩

def note (dated : Dated) : DashOp → Bool → Nat → Option Bytes
  | .pushInit _ _ _ => dated.under
  | .pushSegment isVideo seq _ _ => fun track number =>
      if (isVideo, seq) = (track, number) then dated.server.servedInit track else dated.under track number

def step (codecs : CodecStrings) (dated : Dated) (op : DashOp) : Dated :=
  ⟨dated.server.apply codecs op, dated.note op⟩

-- Whatever a number retrieves was pushed under the init segment served now.
def OfServedInit (dated : Dated) : Prop :=
  ∀ isVideo seq, (dated.server.segment isVideo seq).isSome → dated.under isVideo seq = dated.server.servedInit isVideo

-- The init segment of a track that has segments is not replaced by another.
def Settled (dated : Dated) : DashOp → Prop
  | .pushInit isVideo bytes _ =>
      dated.server.servedInit isVideo = some bytes ∨ ∀ seq, dated.server.segment isVideo seq = none
  | .pushSegment _ _ _ _ => True

end Dated

namespace DashServer

theorem segment_eq (server : DashServer) (isVideo : Bool) (seq : Nat) :
    server.segment isVideo seq = (server.track isVideo).segments.lookup seq := by
  cases isVideo <;> rfl

theorem push_init_served (codecs : CodecStrings) (server : DashServer) (isVideo : Bool) (bytes : Bytes) (now : Nat)
    (track : Bool) : (server.pushInit codecs isVideo bytes now).servedInit track =
      if isVideo = track then some bytes else server.servedInit track := by
  rw [servedInit, servedInit, ← ensure_started_track server now track]
  cases isVideo <;> cases track <;> rfl

theorem push_segment_served (server : DashServer) (isVideo : Bool) (seq : Nat) (bytes : Bytes) (now : Nat) (track : Bool) :
    (server.pushSegment isVideo seq bytes now).servedInit track = server.servedInit track := by
  rw [servedInit, servedInit, ← ensure_started_track server now track]
  cases isVideo <;> cases track <;> rfl

end DashServer

namespace Dated

theorem segment_kept (dated : Dated) (isVideo : Bool) (seq : Nat) (bytes : Bytes) (now : Nat) (sound : dated.OfServedInit) :
    Dated.OfServedInit ⟨dated.server.pushSegment isVideo seq bytes now, dated.note (.pushSegment isVideo seq bytes now)⟩ := by
  intro track number stored
  rw [DashServer.push_segment_served]
  rw [DashServer.segment_eq, DashServer.push_segment_lookup] at stored
  by_cases pushed : (isVideo, seq) = (track, number)
  · exact if_pos pushed
  · rw [if_neg pushed, ← DashServer.segment_eq] at stored
    exact (if_neg pushed).trans (sound track number stored)

-- A new init segment agrees with what is kept just when nothing else was in force.
theorem init_kept_iff (codecs : CodecStrings) (dated : Dated) (isVideo : Bool) (bytes : Bytes) (now : Nat)
    (sound : dated.OfServedInit) :
    Dated.OfServedInit ⟨dated.server.pushInit codecs isVideo bytes now, dated.under⟩ ↔
      dated.server.servedInit isVideo = some bytes ∨ ∀ seq, dated.server.segment isVideo seq = none := by
  have stored : ∀ track number, (dated.server.pushInit codecs isVideo bytes now).segment track number =
      dated.server.segment track number := by
    intro track number
    rw [DashServer.segment_eq, DashServer.push_init_segments, ← DashServer.segment_eq]
  refine ⟨fun kept => ?_, ?_⟩
  · by_cases empty : ∀ seq, dated.server.segment isVideo seq = none
    · exact .inr empty
    · obtain ⟨seq, present⟩ := not_forall.mp empty
      have isStored := Option.isSome_iff_ne_none.mpr present
      have now := kept isVideo seq (by rwa [stored])
      rw [DashServer.push_init_served, if_pos rfl] at now
      exact .inl ((sound isVideo seq isStored).symm.trans now)
  · rintro settled track number isStored
    rw [stored] at isStored
    rw [DashServer.push_init_served]
    split
    · rename_i same
      subst same
      cases settled with
      | inl same => exact (sound isVideo number isStored).trans same
      | inr empty =>
          rw [empty number] at isStored
          cases isStored
    · exact sound track number isStored

theorem step_sound_iff (codecs : CodecStrings) (dated : Dated) (op : DashOp) (sound : dated.OfServedInit) :
    (dated.step codecs op).OfServedInit ↔ dated.Settled op := by
  cases op with
  | pushInit isVideo bytes now => exact init_kept_iff codecs dated isVideo bytes now sound
  | pushSegment isVideo seq bytes now => exact iff_of_true (segment_kept dated isVideo seq bytes now sound) trivial

theorem new_sound (config : DashConfig) : (new config).OfServedInit := by
  intro isVideo seq stored
  cases isVideo <;> cases stored

-- The segments served belong to the init segment served, in every state of a run,
-- just in the runs that replace none over segments.
theorem segments_of_served_init_iff (codecs : CodecStrings) (config : DashConfig) (ops : List DashOp) :
    (∀ seen, seen <+: ops → (Machine.run (step codecs) (new config) seen).OfServedInit) ↔
      Machine.AllSteps Settled (step codecs) (new config) ops :=
  Machine.invariant_iff_guarded (step_sound_iff codecs) (new config) ops (new_sound config)

-- The publisher comes back with another init segment and has sent one fragment so far.
theorem second_session_keeps_old_segment :
    let frame (drain : Nat) (payload init : Bytes) : DashBridgeOp :=
      .fragment drain ⟨VIDEO_TRACK, 0, 0, 0, 180000, .KEYFRAME, payload⟩ (some init) 0
    let bridge := Machine.run (DashBridge.step DashBridge.noCodecs) (.new .default)
      [.entryCreated VIDEO_TRACK 90000, frame 0 [1] [0], frame 0 [2] [0], .entryCreated VIDEO_TRACK 90000, frame 1 [3] [9]]
    let dated := Machine.run (step DashBridge.noCodecs) (new .default)
      [.pushInit true [0] 0, .pushSegment true 1 [1] 0, .pushSegment true 2 [2] 0, .pushInit true [9] 0, .pushSegment true 1 [3] 0]
    dated.server = bridge.server ∧ dated.server.segment true 2 = some (Cmaf.prependCmafChunkStyp [2]) ∧
      dated.server.servedInit true = some [9] ∧ ¬dated.OfServedInit := by
  refine ⟨rfl, rfl, rfl, fun kept => ?_⟩
  have same := kept true 2 rfl
  cases same

end Dated

def DashDrain.pushes (drain : DashDrain) (fragment : Media.Fragment) (init : Option Bytes) (now : Nat) : List DashOp :=
  (match drain.changedInit init with
    | some current => [.pushInit drain.isVideo current now]
    | none => []) ++ [.pushSegment drain.isVideo (drain.number init) fragment.payload now]

namespace DashBridge

end DashBridge

end Lvqr.Dash
